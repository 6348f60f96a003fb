import Authzoo.Oauth.MetadataRuns
import Mathlib.Data.List.Dedup

/-!
# Authzoo.Oauth.MetadataLifetimes

What the metadata cache is worth, in every interleaving of `resolve_metadata` calls.

* `cache_unseen` : while hosts serve the same documents, every call ends as it does with an empty
  cache, and as if it were alone.
* `kept_while_live` : while fewer than `MAX_CACHE_ENTRIES` identifiers are stored within five minutes,
  a lookup finds the latest stored client exactly until that expires. So a document is requested
  again only after its lifetime.
-/

namespace Authzoo.Oauth
namespace Resolution

section

variable (U : UrlCrate) (fromSlice : List UInt8 → Option Json) (net : Network)

/-! ## A network that does not change -/

/-- What the network answers a request for the document. -/
def fetched (url : Url) : Except MetadataError Response := do
  let request ← prepare net url
  (net.send request).received

/-- `resolve_metadata` without a cache. -/
def uncached (id : String) : Except MetadataError Client := do
  let url ← metadataUrl U id
  let response ← fetched net url
  response.client U fromSlice id

theorem resolveMetadata_empty (clock : Readings) (id : String) :
    (resolveMetadata U fromSlice net clock ∅ id).result = uncached U fromSlice net id := by
  have hempty : MetadataCache.fresh ∅ id clock.lookup = none := rfl
  simp only [resolveMetadata, uncached, fetched, bind, Except.bind, hempty]
  cases metadataUrl U id with
  | error e => rfl
  | ok url =>
    cases hprepare : prepare net url with
    | error e => simp only [hprepare]
    | ok request =>
      simp only [hprepare]
      cases (net.send request).received with
      | error e => rfl
      | ok response =>
        cases hclient : response.client U fromSlice id with
        | error e => simp only [hclient]
        | ok client =>
          simp only [hclient]
          split <;> rfl

/-- A step in which the network, if it is asked, answers as `net` does. -/
def Answers (_ : Nat) (_ : Shared) (t : Task) (_ : Shared) (t' : Task) : Prop :=
  ∀ url, t.phase = .missed url →
    match fetched net url with
    | .error e => t'.phase = .failed e
    | .ok response => t'.phase = .answered response

/-- What the call returns, once it has ended. -/
def Task.result (t : Task) : Option (Except MetadataError Client) :=
  match t.phase with
  | .resolved client _ => some (.ok client)
  | .failed e => some (.error e)
  | .waiting | .missed _ | .answered _ => none

def Shared.Current (s : Shared) : Prop :=
  ∀ key entry, s.cache.lookup key = some entry → uncached U fromSlice net key = .ok entry.2

/-- The call is on its way to the result of an uncached one. -/
def Task.Tracks (_ : Nat) (_ : Shared) (t : Task) : Prop :=
  match t.phase with
  | .waiting => True
  | .missed url => metadataUrl U t.id = .ok url
  | .answered response => response.client U fromSlice t.id = uncached U fromSlice net t.id
  | .resolved client _ => uncached U fromSlice net t.id = .ok client
  | .failed e => uncached U fromSlice net t.id = .error e

end

section

variable {U : UrlCrate} {fromSlice : List UInt8 → Option Json} {net : Network}

theorem uncached_error {id : String} {url : Url} {e : MetadataError} (hurl : metadataUrl U id = .ok url)
    (h : fetched net url = .error e) : uncached U fromSlice net id = .error e := by
  simp [uncached, hurl, h, bind, Except.bind]

theorem uncached_fetched {id : String} {url : Url} {response : Response}
    (hurl : metadataUrl U id = .ok url) (h : fetched net url = .ok response) :
    uncached U fromSlice net id = response.client U fromSlice id := by
  simp [uncached, hurl, h, bind, Except.bind]

theorem current_keep {i : Nat} {s s' : Shared} {t t' : Task} (h : s.Current U fromSlice net)
    (ht : t.Tracks U fromSlice net i s) (hstep : ResolutionStep U fromSlice i s t s' t') :
    s'.Current U fromSlice net := by
  cases hstep with
  | reject | hit | miss | unprepared | unanswered | answer | refuse | skip => exact h
  | insert hclient =>
    intro key entry hlookup
    cases MetadataCache.store_lookup hlookup with
    | inl hnew =>
      obtain ⟨rfl, rfl⟩ := hnew
      exact ht.symm.trans hclient
    | inr hold => exact h key entry hold.1

theorem tracks_own {i : Nat} {s s' : Shared} {t t' : Task} (h : s.Current U fromSlice net)
    (ht : t.Tracks U fromSlice net i s) (hstep : ResolutionStep U fromSlice i s t s' t')
    (hanswers : Answers net i s t s' t') : t'.Tracks U fromSlice net i s' := by
  cases hstep with
  | reject hurl => simp [Task.Tracks, uncached, hurl, bind, Except.bind]
  | hit _ _ hfresh =>
    obtain ⟨expiry, hlookup, -⟩ := MetadataCache.fresh_some hfresh
    exact h _ _ hlookup
  | miss hurl => exact hurl
  | unprepared | unanswered =>
    have hnet := hanswers _ rfl
    split at hnet
    · rename_i hfetch
      cases hnet
      exact uncached_error ht hfetch
    · cases hnet
  | answer =>
    have hnet := hanswers _ rfl
    split at hnet
    · cases hnet
    · rename_i hfetch
      cases hnet
      exact (uncached_fetched ht hfetch).symm
  | refuse hclient | skip hclient | insert hclient => exact ht.symm.trans hclient

theorem answering_stable : ((resolution U fromSlice).restrict (Answers net)).Stable
    (Shared.Current U fromSlice net) (Task.Tracks U fromSlice net) where
  start := by
    intro i s t _ hstart
    simp only [Task.Tracks, hstart.1]
  keep h ht hstep := current_keep h ht hstep.1
  own h ht hstep := tracks_own h ht hstep.1 hstep.2
  other _ _ hu := hu

/-- **The metadata cache does not show.** While the network answers as `net` does, every call that
has ended, in any interleaving, has the result of a call on an empty cache, and every cached client
is such a result. -/
theorem cache_unseen {epoch : Instant} {c : Interleaving.Config Shared Task}
    (h : ((resolution U fromSlice).restrict (Answers net)).Reachable (.initial epoch) c)
    (clock : Readings) :
    (∀ i t result, c.tasks i = some t → t.result = some result →
      (resolveMetadata U fromSlice net clock ∅ t.id).result = result) ∧
    ∀ id expiry client, c.shared.cache.lookup id = some (expiry, client) →
      (resolveMetadata U fromSlice net clock ∅ id).result = .ok client := by
  obtain ⟨hcurrent, hall⟩ := h.sound answering_stable fun _ _ hlookup => by cases hlookup
  refine ⟨fun i t result ht hresult => ?_, fun id expiry client hlookup => ?_⟩
  · have htracks := hall i t ht
    obtain ⟨id, phase, sections⟩ := t
    rw [resolveMetadata_empty]
    cases phase with
    | waiting | missed | answered => cases hresult
    | resolved | failed =>
      cases hresult
      exact htracks
  · rw [resolveMetadata_empty]
    exact hcurrent id (expiry, client) hlookup

end

end Resolution

/-! ## What an insertion leaves -/

theorem lookup_retain_of {K V : Type} [DecidableEq K] {keep : K → V → Bool} {entries : HashMap K V}
    {k : K} {v : V} (h : entries.lookup k = some v) (hkeep : keep k v = true) :
    (retain keep entries).lookup k = some v :=
  AList.mem_lookup_iff.mpr (List.mem_filter.mpr ⟨AList.mem_lookup_iff.mp h, hkeep⟩)

theorem mem_retain_keys {K V : Type} [DecidableEq K] {keep : K → V → Bool} {entries : HashMap K V}
    {k : K} (h : k ∈ (retain keep entries).keys) :
    ∃ v, entries.lookup k = some v ∧ keep k v = true := by
  obtain ⟨v, hv⟩ := AList.lookup_isSome.mpr (AList.mem_keys.mpr h) |> Option.isSome_iff_exists.mp
  exact ⟨v, lookup_retain hv⟩

namespace MetadataCache

variable {cache : MetadataCache} {id key : String} {client : Client} {ttl : Duration}
  {reading : String → Instant} {now : Instant} {entry : Instant × Client}

theorem store_other (hne : key ≠ id)
    (hroom : (retain (fun id entry => decide (entry.1 > reading id)) cache).keys.length <
      maxCacheEntries) (hlookup : cache.lookup key = some entry) (hlive : reading key < entry.1) :
    (cache.store id client ttl reading now).lookup key = some entry := by
  rw [store, if_neg (Nat.not_le.mpr hroom), AList.lookup_insert_ne hne]
  exact lookup_retain_of hlookup (by simpa using hlive)

end MetadataCache

namespace Resolution

/-! ## Lifetimes -/

/-- The identifiers stored in the last five minutes. -/
def Shared.recent (s : Shared) : List String :=
  ((s.inserts.filter fun x => s.time < x.time + Duration.fromSecs 300).map (·.id)).dedup

/-- A step that stores a client only if the cache has room for what was stored of late. -/
def Roomy (_ : Nat) (s : Shared) (_ : Task) (s' : Shared) (_ : Task) : Prop :=
  s'.inserts ≠ s.inserts → s.recent.length < maxCacheEntries

/-- The last stored client is there while it lives. -/
def Shared.Kept (s : Shared) : Prop :=
  ∀ id x, latest s.inserts id = some x → s.time < x.time + x.response.ttl →
    s.cache.lookup id = some (x.time + x.response.ttl, x.client)

section

variable {U : UrlCrate} {fromSlice : List UInt8 → Option Json}

/-- What is retained was stored of late, so the cache is not emptied. -/
theorem retained_recent {s : Shared} (h : s.Latest) {reading : String → Instant}
    (hreading : ∀ key, s.time ≤ reading key) :
    (retain (fun id entry => decide (entry.1 > reading id)) s.cache).keys.length ≤
      s.recent.length := by
  refine (List.subperm_of_subset (AList.keys_nodup _) fun key hkey => ?_).length_le
  obtain ⟨entry, hlookup, hkeep⟩ := mem_retain_keys hkey
  obtain ⟨x, hx, rfl⟩ := h key entry hlookup
  obtain ⟨hmem, rfl⟩ := latest_some hx
  have hlive : reading x.id < x.time + x.response.ttl := by simpa using hkeep
  have httl : x.response.ttl ≤ Duration.fromSecs 300 := x.response.ttl_le.trans (Nat.sub_le _ _)
  have hrecent : s.time < x.time + Duration.fromSecs 300 :=
    (hreading x.id).trans_lt (hlive.trans_le (Nat.add_le_add_left httl _))
  exact List.mem_dedup.mpr (List.mem_map.mpr ⟨x, List.mem_filter.mpr ⟨hmem, by simpa using hrecent⟩,
    rfl⟩)

theorem kept_keep {i : Nat} {s s' : Shared} {t t' : Task} (hlatest : s.Latest) (h : s.Kept)
    (hstep : ResolutionStep U fromSlice i s t s' t') (hroomy : Roomy i s t s' t') : s'.Kept := by
  have hgrows := hstep.grows
  cases hstep with
  | reject | unprepared | unanswered | answer | refuse | skip => exact h
  | hit | miss => exact fun id x hx hlive => h id x hx (hgrows.time.trans_lt hlive)
  | @insert id sections response client reading now hclient httl hreading =>
    intro key x hx hlive
    by_cases hkey : id = key
    · subst hkey
      obtain rfl := Option.some.inj ((latest_own _ ⟨i, id, response, client, now⟩).symm.trans hx)
      exact MetadataCache.store_own
    · have hold : latest s.inserts key = some x :=
        (latest_other (x := ⟨i, id, response, client, now⟩) hkey).symm.trans hx
      have hlookup := h key x hold (hgrows.time.trans_lt hlive)
      have hroom := (retained_recent hlatest fun key => (hreading key).1).trans_lt
        (hroomy (List.cons_ne_self _ _))
      exact MetadataCache.store_other (fun h => hkey h.symm) hroom hlookup
        ((hreading key).2.trans_lt hlive)

theorem lifetimes_stable : ((resolution U fromSlice).restrict Roomy).Stable
    (fun s => s.Latest ∧ s.Kept) (fun _ _ _ => True) where
  start _ _ := trivial
  keep h _ hstep := ⟨latest_keep h.1 hstep.1, kept_keep h.1 h.2 hstep.1 hstep.2⟩
  own _ _ _ := trivial
  other _ _ _ := trivial

/-- A hit is the last client stored under the identifier. -/
theorem fresh_latest {s : Shared} (h : s.Latest) {id : String} {now : Instant} {client : Client}
    (hfresh : s.cache.fresh id now = some client) :
    ∃ x, latest s.inserts id = some x ∧ x.client = client ∧ now < x.time + x.response.ttl := by
  obtain ⟨expiry, hlookup, hlive⟩ := MetadataCache.fresh_some hfresh
  obtain ⟨x, hx, hentry⟩ := h id _ hlookup
  obtain ⟨rfl, rfl⟩ := Prod.mk.inj hentry
  exact ⟨x, hx, rfl, hlive⟩

theorem fresh_kept {s : Shared} (h : s.Kept) {id : String} {now : Instant} {x : Inserted}
    (hx : latest s.inserts id = some x) (hnow : s.time ≤ now) (hlive : now < x.time + x.response.ttl) :
    s.cache.fresh id now = some x.client := by
  simp only [MetadataCache.fresh, h id x hx (hnow.trans_lt hlive), gt_iff_lt, hlive, if_true]

/-- **Kept while live.** In every interleaving that stores a client only while fewer than
`MAX_CACHE_ENTRIES` identifiers were stored in the last five minutes, a lookup finds the client that
was stored last exactly until it expires, and a call goes on to a request only when what was stored
last for its identifier has expired. -/
theorem kept_while_live {epoch : Instant} {c : Interleaving.Config Shared Task}
    (h : ((resolution U fromSlice).restrict Roomy).Reachable (.initial epoch) c) :
    (∀ id now client, c.shared.time ≤ now → (c.shared.cache.fresh id now = some client ↔
      ∃ x, latest c.shared.inserts id = some x ∧ x.client = client ∧
        now < x.time + x.response.ttl)) ∧
    ∀ i t s' t' url, c.tasks i = some t → (resolution U fromSlice).step i c.shared t s' t' →
      t'.phase = .missed url → ∀ x, latest c.shared.inserts t.id = some x →
        x.time + x.response.ttl ≤ s'.time := by
  have hinit : (Shared.initial epoch).Latest ∧ (Shared.initial epoch).Kept :=
    ⟨fun _ _ hlookup => (by cases hlookup), fun _ _ hx => (by cases hx)⟩
  obtain ⟨hlatest, hkept⟩ := (h.sound lifetimes_stable hinit).1
  refine ⟨fun id now client hnow => ⟨fresh_latest hlatest, ?_⟩, ?_⟩
  · rintro ⟨x, hx, rfl, hlive⟩
    exact fresh_kept hkept hx hnow hlive
  · intro i t s' t' url _ hstep hphase x hx
    cases hstep with
    | reject | hit | unprepared | unanswered | answer | refuse | skip | insert => cases hphase
    | @miss id sections url now hurl hclock hfresh =>
      by_contra hlive
      rw [fresh_kept hkept hx hclock (Nat.not_le.mp hlive)] at hfresh
      cases hfresh

end

/-! ## A stored client -/

theorem exampleFetched :
    fetched exampleNetwork (httpsUrl "client.example" "/metadata") = .ok (responseWith []) := by
  have hprepare : prepare exampleNetwork (httpsUrl "client.example" "/metadata") =
      .ok exampleSent := prepare_with []
  simp only [fetched, hprepare]
  rfl

/-- The second call, which hits, has the result of a call on an empty cache. -/
theorem cache_unseen_hit :
    (resolveMetadata exampleCrate exampleSlice exampleNetwork ⟨0, fun _ => 0, 0⟩ ∅ exampleId).result =
      .ok documentClient := by
  have hanswers : Allows (Answers exampleNetwork) [] := by
    constructor
    · intro i s t s' t' hphase _ url hmissed
      rw [hphase] at hmissed
      cases hmissed
    · intro i s sections s' _ url hmissed
      cases hmissed
      rw [exampleFetched]
    · intro i s t s' t' _ hphase url hmissed
      rw [hphase] at hmissed
      cases hmissed
  obtain ⟨c, hrun, -, -, -, t, ht, hid, hphase⟩ := example_reused hanswers (by decide)
  have hresult : t.result = some (.ok documentClient) := by rw [Task.result, hphase]
  have hsame := (cache_unseen hrun ⟨0, fun _ => 0, 0⟩).1 1 t _ ht hresult
  rwa [hid] at hsame

/-- The client is found up to the end of its five minutes and not after it. -/
theorem kept_while_live_example :
    ∃ s : Shared, s.cache.fresh exampleId (5 + (responseWith []).ttl - 1) = some documentClient ∧
      s.cache.fresh exampleId (5 + (responseWith []).ttl) = none := by
  have hroomy : Allows Roomy [] := by
    constructor
    · intro i s t s' t' _ hsame hne
      exact absurd hsame hne
    · intro i s sections s' hsame hne
      exact absurd hsame hne
    · intro i s t s' t' hnone _ _
      simp [Shared.recent, hnone, maxCacheEntries]
  obtain ⟨c, hrun, htime, -, hlatest, -⟩ := example_reused hroomy (by decide)
  have hkept := (kept_while_live hrun).1 exampleId
  refine ⟨c.shared, (hkept _ documentClient ?_).mpr ⟨_, hlatest, rfl, by decide⟩, ?_⟩
  · rw [htime]
    decide
  · rw [Option.eq_none_iff_forall_ne_some]
    intro client hfresh
    obtain ⟨x, hx, -, hlive⟩ := (hkept _ client (by rw [htime]; decide)).mp hfresh
    rw [hlatest] at hx
    cases hx
    exact absurd hlive (Nat.lt_irrefl _)

end Resolution
end Authzoo.Oauth
