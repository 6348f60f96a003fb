import Authzoo.Oauth.Protocol
import Authzoo.Tree

/-!
# Authzoo.Oauth.Pending

Pending authorization requests in an application's storage (`protocol.rs`): what the derived
`Serialize` writes and which records the derived `Deserialize` reads.

* `ofJson_iff` : exactly the records of a request are read as it: in any order, with or without the
  nulls, and with members that later versions may add.
* `pending_storage` : an accepted request outlives its storage, in every such record.
-/

namespace Authzoo.Oauth
namespace PendingAuthorizationRequest

def fields : List String :=
  ["resource", "client_id", "redirect_uri", "scopes", "state", "nonce", "code_challenge"]

/-- The members in declaration order, where the `Option` fields are as given. -/
def written (p : PendingAuthorizationRequest) (resource state nonce : List (String × Json)) :
    List (String × Json) :=
  resource ++ ([("client_id", .str p.clientId), ("redirect_uri", .str p.redirectUri),
    ("scopes", .arr (p.scopes.map .str))] ++ (state ++ (nonce ++
      [("code_challenge", .str p.codeChallenge)])))

def members (p : PendingAuthorizationRequest) : List (String × Json) :=
  p.written [("resource", p.resource.elim .null .str)] [("state", p.state.elim .null .str)]
    [("nonce", p.nonce.elim .null .str)]

def toJson (p : PendingAuthorizationRequest) : Json := .obj p.members

/-- The fields in declaration order. -/
def decode (resource clientId redirectUri scopes state nonce codeChallenge : Option Json) :
    Option PendingAuthorizationRequest := do
  let resource ← Json.nullable Json.asStr resource
  let clientId ← clientId.bind Json.asStr
  let redirectUri ← redirectUri.bind Json.asStr
  let scopes ← scopes.bind (Json.list Json.asStr)
  let state ← Json.nullable Json.asStr state
  let nonce ← Json.nullable Json.asStr nonce
  let codeChallenge ← codeChallenge.bind Json.asStr
  return { resource, clientId, redirectUri, scopes, state, nonce, codeChallenge }

/-- The derived decoder also takes the fields as an array, which must then have all of them. -/
def ofJson : Json → Option PendingAuthorizationRequest
  | .obj members =>
    if (Json.obj members).unrepeated fields then
      decode (members.lookup "resource") (members.lookup "client_id") (members.lookup "redirect_uri")
        (members.lookup "scopes") (members.lookup "state") (members.lookup "nonce")
        (members.lookup "code_challenge")
    else none
  | .arr [resource, clientId, redirectUri, scopes, state, nonce, codeChallenge] =>
    decode resource clientId redirectUri scopes state nonce codeChallenge
  | _ => none

/-- The members of a record of the request. -/
inductive Recorded (p : PendingAuthorizationRequest) : List (String × Json) → Prop where
  | mk {members resource state nonce extra : List (String × Json)}
      (hresource : Json.WrittenOption "resource" p.resource resource)
      (hstate : Json.WrittenOption "state" p.state state)
      (hnonce : Json.WrittenOption "nonce" p.nonce nonce) (hextra : ∀ m ∈ extra, m.1 ∉ fields)
      (hperm : members.Perm (p.written resource state nonce ++ extra)) : Recorded p members

/-! ## Reading -/

theorem decode_iff {resource clientId redirectUri scopes state nonce codeChallenge : Option Json}
    {p : PendingAuthorizationRequest} :
    decode resource clientId redirectUri scopes state nonce codeChallenge = some p ↔
      Json.nullable Json.asStr resource = some p.resource ∧ clientId = some (.str p.clientId) ∧
      redirectUri = some (.str p.redirectUri) ∧ scopes = some (.arr (p.scopes.map .str)) ∧
      Json.nullable Json.asStr state = some p.state ∧ Json.nullable Json.asStr nonce = some p.nonce ∧
      codeChallenge = some (.str p.codeChallenge) := by
  obtain ⟨pResource, pClientId, pRedirectUri, pScopes, pState, pNonce, pChallenge⟩ := p
  simp only [decode, bind, Option.bind_eq_some_iff, Json.asStr_eq_some, Json.list_asStr, pure,
    Option.some.injEq, mk.injEq]
  constructor
  · rintro ⟨_, hresource, _, ⟨_, rfl, rfl⟩, _, ⟨_, rfl, rfl⟩, _, ⟨_, rfl, rfl⟩, _, hstate, _, hnonce, _,
      ⟨_, rfl, rfl⟩, rfl, rfl, rfl, rfl, rfl, rfl, rfl⟩
    exact ⟨hresource, rfl, rfl, rfl, hstate, hnonce, rfl⟩
  · rintro ⟨hresource, rfl, rfl, rfl, hstate, hnonce, rfl⟩
    exact ⟨_, hresource, _, ⟨_, rfl, rfl⟩, _, ⟨_, rfl, rfl⟩, _, ⟨_, rfl, rfl⟩, _, hstate, _, hnonce, _,
      ⟨_, rfl, rfl⟩, rfl, rfl, rfl, rfl, rfl, rfl, rfl⟩

theorem written_distinct {p : PendingAuthorizationRequest} {resource state nonce : List (String × Json)}
    (hresource : Json.WrittenOption "resource" p.resource resource)
    (hstate : Json.WrittenOption "state" p.state state)
    (hnonce : Json.WrittenOption "nonce" p.nonce nonce) :
    Assoc.Distinct (p.written resource state nonce) := by
  have hfields : fields.Nodup := by decide
  refine hfields.sublist ?_
  simp only [written, List.map_append]
  exact hresource.names.append ((List.Sublist.refl _).append
    (hstate.names.append (hnonce.names.append (List.Sublist.refl _))))

/-- The members of a record, in declaration order. -/
theorem present_written {p : PendingAuthorizationRequest} {given : List (String × Json)}
    (hclientId : given.lookup "client_id" = some (.str p.clientId))
    (hredirectUri : given.lookup "redirect_uri" = some (.str p.redirectUri))
    (hscopes : given.lookup "scopes" = some (.arr (p.scopes.map .str)))
    (hchallenge : given.lookup "code_challenge" = some (.str p.codeChallenge)) :
    Json.present fields given = p.written
      ((given.lookup "resource").map fun json => ("resource", json)).toList
      ((given.lookup "state").map fun json => ("state", json)).toList
      ((given.lookup "nonce").map fun json => ("nonce", json)).toList := by
  rw [Json.present, List.filterMap_eq_flatMap_toList]
  simp only [fields, List.flatMap_cons, List.flatMap_nil, hclientId, hredirectUri, hscopes, hchallenge]
  rfl

/-- Each field is read as it is written. -/
theorem written_lookup {p : PendingAuthorizationRequest} {resource state nonce : List (String × Json)}
    (hresource : Json.WrittenOption "resource" p.resource resource)
    (hstate : Json.WrittenOption "state" p.state state)
    (hnonce : Json.WrittenOption "nonce" p.nonce nonce) :
    decode ((p.written resource state nonce).lookup "resource")
      ((p.written resource state nonce).lookup "client_id")
      ((p.written resource state nonce).lookup "redirect_uri")
      ((p.written resource state nonce).lookup "scopes")
      ((p.written resource state nonce).lookup "state")
      ((p.written resource state nonce).lookup "nonce")
      ((p.written resource state nonce).lookup "code_challenge") = some p := by
  rw [decode_iff]
  simp (disch := decide) only [written, List.lookup_append, hresource.lookup_ne, hstate.lookup_ne,
    hnonce.lookup_ne]
  refine ⟨?_, rfl, rfl, rfl, ?_, ?_, rfl⟩
  · exact (congrArg _ Option.or_none).trans hresource.read
  · exact (congrArg _ Option.or_none).trans hstate.read
  · exact (congrArg _ Option.or_none).trans hnonce.read

theorem recorded_iff {members : List (String × Json)} {p : PendingAuthorizationRequest} :
    ofJson (.obj members) = some p ↔ p.Recorded members := by
  simp only [ofJson, Option.ite_none_right_eq_some, decode_iff]
  constructor
  · rintro ⟨honce, hresource, hclientId, hredirectUri, hscopes, hstate, hnonce, hchallenge⟩
    have hperm := Json.known_perm (by decide) honce
    rw [present_written hclientId hredirectUri hscopes hchallenge] at hperm
    refine .mk (Json.nullable_iff.mp hresource) (Json.nullable_iff.mp hstate)
      (Json.nullable_iff.mp hnonce) (fun m hm => ?_) hperm
    simpa using (List.mem_filter.mp hm).2
  · rintro ⟨hresource, hstate, hnonce, hextra, hperm⟩
    obtain ⟨honce, hlookup⟩ :=
      Json.unrepeated_perm hperm (written_distinct hresource hstate hnonce) hextra
    simp only [fields, List.forall_mem_cons] at hlookup
    obtain ⟨h₁, h₂, h₃, h₄, h₅, h₆, h₇, -⟩ := hlookup
    refine ⟨honce, decode_iff.mp ?_⟩
    rw [h₁, h₂, h₃, h₄, h₅, h₆, h₇]
    exact written_lookup hresource hstate hnonce

theorem members_recorded (p : PendingAuthorizationRequest) : p.Recorded p.members := by
  have hwritten : ∀ (field : String) (value : Option String),
      Json.WrittenOption field value [(field, value.elim .null .str)] := by
    intro field value
    cases value with
    | none => exact .null
    | some s => exact .given
  refine .mk (hwritten _ _) (hwritten _ _) (hwritten _ _) (fun _ h => absurd h List.not_mem_nil) ?_
  rw [List.append_nil]
  exact List.Perm.refl _

/-- A record of the request: its members, or their values as an array. -/
def IsRecord (p : PendingAuthorizationRequest) (json : Json) : Prop :=
  (∃ members, json = .obj members ∧ p.Recorded members) ∨ json = .arr (p.members.map Prod.snd)

theorem ofJson_iff {json : Json} {p : PendingAuthorizationRequest} :
    ofJson json = some p ↔ p.IsRecord json := by
  constructor
  · intro h
    cases json with
    | obj members => exact .inl ⟨members, rfl, recorded_iff.mp h⟩
    | arr xs =>
      unfold ofJson at h
      split at h
      · rename_i heq
        cases heq
      · rename_i heq
        cases heq
        simp only [decode_iff, Json.nullable_some, Option.some.injEq] at h
        obtain ⟨rfl, rfl, rfl, rfl, rfl, rfl, rfl⟩ := h
        exact .inr rfl
      · cases h
    | _ => cases h
  · rintro (⟨members, rfl, h⟩ | rfl)
    · exact recorded_iff.mpr h
    · exact decode_iff.mpr ⟨Json.nullable_some.mpr rfl, rfl, rfl, rfl, Json.nullable_some.mpr rfl,
        Json.nullable_some.mpr rfl, rfl⟩

/-- **Pending requests survive their storage.** The decoder reads a tree as a request exactly if it is a
record of it, and no tree is a record of two requests; what is written is a record; and an accepted
request is read back from each of its records, and is resumed for its client. -/
theorem pending_storage :
    (∀ (json : Json) (p : PendingAuthorizationRequest), ofJson json = some p ↔ p.IsRecord json) ∧
    (∀ (json : Json) (p p' : PendingAuthorizationRequest), p.IsRecord json → p'.IsRecord json →
      p = p') ∧
    (∀ p : PendingAuthorizationRequest, p.IsRecord p.toJson) ∧
    ∀ (U : UrlCrate) (request : AuthorizationRequest) (client : Client)
      (policy : AuthorizationPolicy) (p : PendingAuthorizationRequest),
      validateAuthorizationRequest U request client policy = .ok p →
      ∀ json, p.IsRecord json → ∃ p', ofJson json = some p' ∧
        validatePendingClient U p' client = .ok () := by
  refine ⟨fun _ _ => ofJson_iff, fun json p p' h h' => ?_, fun p => .inl ⟨_, rfl, p.members_recorded⟩,
    fun U request client policy p haccepted json h => ?_⟩
  · exact Option.some.inj ((ofJson_iff.mpr h).symm.trans (ofJson_iff.mpr h'))
  · exact ⟨p, ofJson_iff.mpr h, validatePendingClient_accepted haccepted⟩

-- A record from before requests could name a resource, with a member of a later version.
example : ofJson (.obj [("code_challenge", .str "E9Melhoa2OwvFrEMTJguCHaoeK1t8URWbuGJSstw-cM"),
    ("client_id", .str "client"), ("redirect_uri", .str "https://client.example/cb"),
    ("scopes", .arr [.str "openid"]), ("state", .str "s"), ("prompt", .str "login")]) =
      some ⟨none, "client", "https://client.example/cb", ["openid"], some "s", none,
        "E9Melhoa2OwvFrEMTJguCHaoeK1t8URWbuGJSstw-cM"⟩ := rfl

end PendingAuthorizationRequest
end Authzoo.Oauth
