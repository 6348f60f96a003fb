import Authzoo.Oauth.Metadata

/-!
# Authzoo.Oauth.BodyLimit

The limit on the size of a metadata document (`client_metadata.rs`): the loop over the chunks of a
response, iteration by iteration.

* `Checks.readBody_eq` : what the loop ends in, from the bytes of the body and the way it ends.
* `Reaches` : the iterations of the loop. `Reaches.length_le` bounds what has accumulated in each, and
  `Reaches.done_iff` says what the last one has.
* `body_limit` : the limit holds whatever length is declared and however the body is cut.
-/

namespace Authzoo.Oauth

namespace Body

/-- A body that arrives whole, in these chunks. -/
def ofChunks : List (List UInt8) → Body
  | [] => .done
  | bytes :: chunks => .chunk bytes (ofChunks chunks)

/-- The bytes of all chunks. -/
def content : Body → List UInt8
  | .done | .failed => []
  | .chunk bytes rest => bytes ++ rest.content

def complete : Body → Bool
  | .done => true
  | .failed => false
  | .chunk _ rest => rest.complete

/-- The same bytes and the same end, in chunks of any sizes. -/
structure Rechunked (body body' : Body) : Prop where
  content : body.content = body'.content
  complete : body.complete = body'.complete

@[simp] theorem ofChunks_content (chunks : List (List UInt8)) :
    (ofChunks chunks).content = chunks.flatten := by
  induction chunks with
  | nil => rfl
  | cons bytes chunks ih => rw [ofChunks, content, ih, List.flatten_cons]

@[simp] theorem ofChunks_complete (chunks : List (List UInt8)) :
    (ofChunks chunks).complete = true := by
  induction chunks with
  | nil => rfl
  | cons bytes chunks ih => rw [ofChunks, complete, ih]

theorem rechunked_iff {chunks chunks' : List (List UInt8)} :
    Rechunked (ofChunks chunks) (ofChunks chunks') ↔ chunks.flatten = chunks'.flatten :=
  ⟨fun h => by simpa using h.content, fun h => ⟨by simpa using h, by simp⟩⟩

end Body

/-- The loop in closed form. A body that breaks off is too large first, if it is. -/
theorem Checks.readBody_eq {bytes : List UInt8} (hbytes : bytes.length ≤ maxDocumentBytes)
    (body : Body) : Checks.readBody bytes body =
      if bytes.length + body.content.length > maxDocumentBytes then .error .metadataResponseTooLarge
      else if body.complete then .ok (bytes ++ body.content)
      else .error .metadataBodyReadFailed := by
  induction body generalizing bytes with
  | done => simp [readBody, Body.content, Body.complete, hbytes]
  | failed => simp [readBody, Body.content, Body.complete, hbytes]
  | chunk chunk rest ih =>
    have hsize : (bytes ++ chunk).length + rest.content.length =
        bytes.length + (chunk ++ rest.content).length := by simp [Nat.add_assoc]
    rw [readBody, readChunk, Body.content, Body.complete]
    by_cases hlarge : bytes.length + chunk.length > maxDocumentBytes
    · rw [if_pos hlarge, if_pos (by rw [List.length_append]; omega)]
    · rw [if_neg hlarge]
      dsimp only
      rw [ih (by rw [List.length_append]; omega), hsize, List.append_assoc]

/-! ## The iterations -/

/-- The loop over `body` comes to an iteration with `bytes` accumulated and a body still to come. -/
inductive Reaches (body : Body) : List UInt8 → Body → Prop where
  | start : Reaches body [] body
  | next {bytes chunk bytes' : List UInt8} {rest : Body} (h : Reaches body bytes (.chunk chunk rest))
      (hread : Checks.readChunk bytes chunk = .ok bytes') : Reaches body bytes' rest

namespace Reaches

variable {body rest : Body} {bytes : List UInt8}

/-- What accumulates is the part of the body that has arrived. -/
theorem content (h : Reaches body bytes rest) : bytes ++ rest.content = body.content := by
  induction h with
  | start => rfl
  | next h hread ih =>
    obtain ⟨-, rfl⟩ := Checks.readChunk_ok.mp hread
    rw [← ih, Body.content, List.append_assoc]

theorem length_le (h : Reaches body bytes rest) : bytes.length ≤ maxDocumentBytes := by
  induction h with
  | start => exact Nat.zero_le _
  | next h hread ih =>
    obtain ⟨hfits, rfl⟩ := Checks.readChunk_ok.mp hread
    rwa [List.length_append]

/-- The loop goes on from each iteration it comes to. -/
theorem readBody (h : Reaches body bytes rest) : readBody [] body = Oauth.readBody bytes rest := by
  induction h with
  | start => rfl
  | next h hread ih => rw [ih, Oauth.readBody, Checks.readBody, hread, Oauth.readBody]

/-- The last iteration of a loop that ends well. -/
theorem last {read result : List UInt8} {rest : Body} (h : Reaches body read rest)
    (hread : Checks.readBody read rest = .ok result) : Reaches body result .done := by
  induction rest generalizing read with
  | done =>
    obtain rfl := Except.ok.inj hread
    exact h
  | failed => cases hread
  | chunk chunk rest ih =>
    rw [Checks.readBody] at hread
    split at hread
    · cases hread
    · rename_i next hnext
      exact ih (h.next hnext) hread

theorem done_iff : Reaches body bytes .done ↔ Oauth.readBody [] body = .ok bytes :=
  ⟨fun h => h.readBody, fun h => last .start (Outcome.mapError_eq_ok.mp h)⟩

end Reaches

/-! ## Responses -/

/-- Neither the declared length nor the real one passes the limit. -/
structure WithinLimit (contentLength : Option Nat) (size : Nat) : Prop where
  declared : ∀ n, contentLength = some n → n ≤ maxDocumentBytes
  actual : size ≤ maxDocumentBytes

namespace Response

variable {r : Response}

/-- The bytes of a successful response whose body arrives whole. -/
theorem bytes_complete (hstatus : 200 ≤ r.status ∧ r.status < 300)
    (hcomplete : r.body.complete = true) :
    WithinLimit r.contentLength r.body.content.length ∧ r.bytes = .ok r.body.content ∨
      ¬ WithinLimit r.contentLength r.body.content.length ∧
        r.bytes = .error (invalid .metadataResponseTooLarge) := by
  have hread : Checks.readBody [] r.body = _ := Checks.readBody_eq (Nat.zero_le _) r.body
  rw [List.length_nil, Nat.zero_add, List.nil_append, if_pos hcomplete] at hread
  rw [bytes, Checks.bytes, if_neg (not_not.mpr hstatus), hread]
  by_cases hdeclared : r.contentLength.any (· > maxDocumentBytes) = true
  · rw [if_pos hdeclared]
    refine .inr ⟨fun hfits => ?_, rfl⟩
    obtain ⟨n, hn, hlarge⟩ := (Option.any_eq_true _ _).mp hdeclared
    exact absurd (hfits.declared n hn) (by simpa using hlarge)
  · rw [if_neg hdeclared]
    by_cases hsize : r.body.content.length > maxDocumentBytes
    · rw [if_pos hsize]
      exact .inr ⟨fun hfits => absurd hfits.actual (by omega), rfl⟩
    · rw [if_neg hsize]
      refine .inl ⟨⟨fun n hn => ?_, by omega⟩, rfl⟩
      by_contra hlarge
      exact hdeclared (by simp [hn]; omega)

/-- Only the bytes of the body matter, and whether it breaks off. -/
theorem client_rechunked {U : UrlCrate} {fromSlice : List UInt8 → Option Json} {id : String}
    {body body' : Body} (h : body.Rechunked body') :
    ({ r with body := body } : Response).client U fromSlice id =
      ({ r with body := body' } : Response).client U fromSlice id := by
  have hread : Checks.readBody [] body = Checks.readBody [] body' := by
    rw [Checks.readBody_eq (Nat.zero_le _), Checks.readBody_eq (Nat.zero_le _), h.content, h.complete]
  simp only [client, bytes, Checks.bytes, hread]

end Response

/-- The network, with another host behind it. -/
def Network.answering (net : Network) (respond : HttpRequest → Response) : Network :=
  { net with send := fun request => .response (respond request) }

theorem resolveMetadata_rechunked (U : UrlCrate) (fromSlice : List UInt8 → Option Json)
    (net : Network) (respond : HttpRequest → Response) {body body' : HttpRequest → Body}
    (h : ∀ request, (body request).Rechunked (body' request)) (clock : Readings)
    (cache : MetadataCache) (id : String) :
    resolveMetadata U fromSlice
        (net.answering fun request => { respond request with body := body request }) clock cache id =
      resolveMetadata U fromSlice
        (net.answering fun request => { respond request with body := body' request }) clock cache
        id := by
  simp only [resolveMetadata, Network.answering, Sent.received_response,
    Response.client_rechunked (h _)]
  rfl

/-- **The limit does not depend on the chunks.** The loop hands on the bytes of all chunks exactly
when neither the declared length nor the real one passes the limit, and fails otherwise. Cutting the
bodies of a host in other places changes no outcome, and in no iteration has more than the limit
accumulated. -/
theorem body_limit (U : UrlCrate) (fromSlice : List UInt8 → Option Json) :
    (∀ (r : Response) (chunks : List (List UInt8)) (id : String),
      200 ≤ r.status ∧ r.status < 300 → r.body = .ofChunks chunks →
        (∀ bytes, r.bytes = .ok bytes ↔
          WithinLimit r.contentLength chunks.flatten.length ∧ bytes = chunks.flatten) ∧
        (WithinLimit r.contentLength chunks.flatten.length →
          r.client U fromSlice id = parseDocument U fromSlice id chunks.flatten) ∧
        (¬ WithinLimit r.contentLength chunks.flatten.length →
          r.bytes = .error (invalid .metadataResponseTooLarge) ∧
            r.client U fromSlice id = .error (invalid .metadataResponseTooLarge))) ∧
    (∀ (net : Network) (respond : HttpRequest → Response)
      (chunks chunks' : HttpRequest → List (List UInt8)),
      (∀ request, (chunks request).flatten = (chunks' request).flatten) →
        ∀ (clock : Readings) (cache : MetadataCache) (id : String),
          resolveMetadata U fromSlice (net.answering fun request =>
              { respond request with body := .ofChunks (chunks request) }) clock cache id =
            resolveMetadata U fromSlice (net.answering fun request =>
              { respond request with body := .ofChunks (chunks' request) }) clock cache id) ∧
    ∀ (body : Body) (bytes : List UInt8) (rest : Body), Reaches body bytes rest →
      bytes.length ≤ maxDocumentBytes ∧ readBody [] body = readBody bytes rest := by
  refine ⟨fun r chunks id hstatus hbody => ?_, fun net respond chunks chunks' hsame => ?_,
    fun body bytes rest h => ⟨h.length_le, h.readBody⟩⟩
  · have hcontent : r.body.content = chunks.flatten := by rw [hbody, Body.ofChunks_content]
    have hcomplete : r.body.complete = true := by rw [hbody, Body.ofChunks_complete]
    have hbytes := Response.bytes_complete hstatus hcomplete
    rw [hcontent] at hbytes
    obtain ⟨hfits, hok⟩ | ⟨hlarge, herror⟩ := hbytes
    · refine ⟨fun bytes => ?_, fun _ => ?_, fun hlarge => absurd hfits hlarge⟩
      · rw [hok, Except.ok.injEq]
        exact ⟨fun h => ⟨hfits, h.symm⟩, fun h => h.2.symm⟩
      · rw [Response.client, hok]
    · refine ⟨fun bytes => ?_, fun hfits => absurd hfits hlarge, fun _ => ⟨herror, ?_⟩⟩
      · rw [herror]
        exact ⟨nofun, fun h => absurd h.1 hlarge⟩
      · rw [Response.client, herror]
  · exact resolveMetadata_rechunked U fromSlice net respond fun request =>
      Body.rechunked_iff.mpr (hsame request)

/-- A declared length that is too small, and an empty chunk. -/
theorem body_limit_understated :
    (⟨200, some 1, [], .ofChunks [[123], [], [125, 10]]⟩ : Response).bytes = .ok [123, 125, 10] :=
  (((body_limit exampleCrate exampleSlice).1 ⟨200, some 1, [], .ofChunks [[123], [], [125, 10]]⟩
    [[123], [], [125, 10]] exampleId (by decide) rfl).1 _).mpr
    ⟨⟨fun n hn => by cases hn; decide, by decide⟩, rfl⟩

end Authzoo.Oauth
