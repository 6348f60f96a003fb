import Authzoo.Oauth.Issuance
import Authzoo.Requirement
import Authzoo.Transparency

/-!
# Authzoo.Issued

The two crates together: a token that `authzoo-oauth` minted, before a role of `authzoo` whose
issuer publishes the signing key.

* `Justified` says what a grant entitles a token to: its subject, its client, and the email address
  and the groups where the scopes disclose them.
* `minted_claims_met` : a decoded token meets a requirement exactly when the grant justifies it.
* `minted_accepted_iff` : when such a token is accepted.
-/

namespace Authzoo.Oauth

/-! ## The published key -/

def publicKeyUse : String → PublicKeyUse
  | "sig" => .signature
  | "enc" => .encryption
  | name => .other name

def keyAlgorithm : String → KeyAlgorithm
  | "HS256" => .hs256 | "HS384" => .hs384 | "HS512" => .hs512
  | "RS256" => .rs256 | "RS384" => .rs384 | "RS512" => .rs512
  | "PS256" => .ps256 | "PS384" => .ps384 | "PS512" => .ps512
  | "ES256" => .es256 | "ES384" => .es384
  | "EdDSA" => .edDsa
  | name => .other name

def ellipticCurve : String → Option EllipticCurve
  | "P-256" => some .p256
  | "P-384" => some .p384
  | "P-521" => some .p521
  | "Ed25519" => some .ed25519
  | _ => none

/-- How `jsonwebtoken` reads the serialised key. -/
def Jwk.read (jwk : Jwk) : Option Authzoo.Jwk :=
  if jwk.kty = "EC" then
    (ellipticCurve jwk.crv).map fun curve =>
      { common :=
          { publicKeyUse := some (publicKeyUse jwk.use_), keyAlgorithm := some (keyAlgorithm jwk.alg)
            keyId := some jwk.kid }
        algorithm := .ellipticCurve curve jwk.x jwk.y }
  else none

theorem fromPkcs8_ok {S : SigningCrates} {kid : String} {der : List UInt8} {key : SigningKey}
    (h : SigningKey.fromPkcs8 S kid der = .ok key) :
    ∃ x y jwk, S.publicPoint key.encodingKey = some (x, y) ∧ key.publicJwk.read = some jwk ∧
      jwk.common = ⟨some .signature, some .es256, some key.kid⟩ ∧
      jwk.algorithm = .ellipticCurve .p256 (Base64.encode x) (Base64.encode y) := by
  unfold SigningKey.fromPkcs8 at h
  split at h
  · cases h
  · rename_i x y hpoint
    cases h
    exact ⟨x, y, _, hpoint, rfl, rfl, rfl⟩

/-- The issuer of the role publishes the key, under a `kid` that no other key has. -/
def Publishes (env : Environment) (role : RoleConfig) (key : SigningKey) : Prop :=
  ∃ client uri set jwk, discoveryClient env role = .ok client ∧
    env.openidConfiguration client
      (Text.trimEndMatches (· = '/') role.issuer ++ "/.well-known/openid-configuration") =
        .ok ⟨uri⟩ ∧
    env.jwks client uri = .ok set ∧ key.publicJwk.read = some jwk ∧ jwk ∈ set.keys ∧
    ∀ other ∈ set.keys, other.common.keyId = some key.kid → other = jwk

/-- Discovery finds a published key. -/
theorem Publishes.found {J : JsonWebToken} {S : SigningCrates} {env : Environment}
    {role : RoleConfig} {key : SigningKey} {kid : String} {der : List UInt8} {token : String}
    (h : Publishes env role key) (hkey : SigningKey.fromPkcs8 S kid der = .ok key)
    (hheader : J.decodeHeader token = some ⟨.es256, some key.kid⟩) :
    ∃ x y jwk, S.publicPoint key.encodingKey = some (x, y) ∧
      jwk.algorithm = .ellipticCurve .p256 (Base64.encode x) (Base64.encode y) ∧
      directDecodingKey J env role token .es256 = J.fromJwk jwk := by
  obtain ⟨client, uri, set, jwk, hclient, hconfig, hset, hread, hin, honly⟩ := h
  obtain ⟨x, y, jwk', hpoint, hread', hcommon, halg⟩ := fromPkcs8_ok hkey
  rw [hread] at hread'
  obtain rfl := Option.some.inj hread'
  refine ⟨x, y, jwk, hpoint, halg, ?_⟩
  have hlocate : locateJwks J env role token = .ok ⟨some key.kid, client, uri⟩ := by
    simp only [locateJwks, hheader, hclient, hconfig, context, Fetch.json, bind, Except.bind, pure,
      Except.pure]
  have hfind : set.find key.kid = some jwk := by
    have hkid : jwk.common.keyId = some key.kid := by rw [hcommon]
    cases hf : set.find key.kid with
    | none => exact absurd hkid (by simpa using List.find?_eq_none.mp hf jwk hin)
    | some other =>
      have hother : other.common.keyId = some key.kid := by simpa using List.find?_some hf
      rw [honly other (List.mem_of_find?_eq_some hf) hother]
  have hmatch : jwkMatchesAlgorithm jwk .es256 = true := by
    simp only [jwkMatchesAlgorithm, keyAlgorithmMatches, hcommon, halg]
    rfl
  rw [directDecodingKey_located hlocate, fetchJwk_served hset,
    selectJwkForToken_kid.mpr ⟨hfind, hmatch⟩]
  rfl

/-! ## What a grant entitles a token to -/

/-- The grant justifies this value of the claim. -/
def Justified (principal : Principal) (request : AccessTokenRequest) :
    String → Acceptable → Prop
  | "sub", a => a = .text principal.subject
  | "client_id", a => a = .text request.clientId
  | "email", a => "email" ∈ request.scopes ∧ ∃ email, principal.email = some email ∧ a = .text email
  | "groups", a => "groups" ∈ request.scopes ∧ ∃ group ∈ principal.groups, a = .element group
  | _, _ => False

/-- The decoded form of minted claims. -/
theorem AccessTokenClaims.deserialize (claims : AccessTokenClaims) :
    ∃ c, ValidatedClaims.deserialize claims.toJson = some c ∧
      c.value "sub" = some (.str claims.sub) ∧ c.value "client_id" = some (.str claims.clientId) ∧
      c.value "email" = claims.email.map .str ∧
      c.value "groups" = claims.groups.map fun groups => .arr (groups.map .str) := by
  have hvalue : ∀ (c : ValidatedClaims) (name : String), name ≠ "sub" →
      c.value name = c.claims[name]? := fun c name hname => if_neg hname
  obtain ⟨iss, sub, aud, clientId, exp, iat, jti, scope, email, groups⟩ := claims
  cases email <;> cases groups <;>
    refine ⟨_, rfl, rfl, ?_, ?_, ?_⟩ <;>
    rw [hvalue _ _ (by decide), BTreeMap.getElem?_ofList] <;> rfl

theorem offeredBy_str {a : Acceptable} {s : String} : a.OfferedBy (.str s) ↔ a = .text s := by
  cases a <;> simp [Acceptable.OfferedBy, eq_comm]

theorem offeredBy_strs {a : Acceptable} {groups : List String} :
    a.OfferedBy (.arr (groups.map .str)) ↔ ∃ group ∈ groups, a = .element group := by
  cases a with
  | text s => simp [Acceptable.OfferedBy]
  | element s => simp [Acceptable.OfferedBy]

/-- A member that is present under a condition offers what its value offers. -/
theorem offered_granted {α : Type} {granted : Prop} [Decidable granted] {member : Option α}
    {toJson : α → Json} {a : Acceptable} :
    (∃ given, (if granted then member else none).map toJson = some given ∧ a.OfferedBy given) ↔
      granted ∧ ∃ v, member = some v ∧ a.OfferedBy (toJson v) := by
  by_cases h : granted
  · simp only [h, Option.map_eq_some_iff, true_and]
    constructor
    · rintro ⟨given, ⟨v, hv, rfl⟩, ha⟩
      exact ⟨v, hv, ha⟩
    · rintro ⟨v, hv, ha⟩
      exact ⟨toJson v, ⟨v, hv, rfl⟩, ha⟩
  · simp [h]

/-- A requirement on one of the four claims is met by the decoded token exactly when the grant
justifies a value that it accepts. -/
theorem minted_claims_met {issuer : TokenIssuer} {principal : Principal}
    {request : AccessTokenRequest} {now expiresAt limit : DateTime} {jti : List UInt8}
    {c : ValidatedClaims}
    (hc : ValidatedClaims.deserialize
      (issuer.accessTokenClaims principal request now expiresAt limit jti).toJson = some c)
    {name : String} (hname : name ∈ ["groups", "email", "sub", "client_id"])
    (requirement : ClaimRequirement) :
    requirement.MetBy (c.value name) ↔
      ∃ a ∈ requirement.acceptable, Justified principal request name a := by
  obtain ⟨c', hc', hsub, hclient, hemail, hgroups⟩ := AccessTokenClaims.deserialize
    (issuer.accessTokenClaims principal request now expiresAt limit jti)
  rw [hc] at hc'
  obtain rfl := Option.some.inj hc'
  refine exists_congr fun a => and_congr_right fun _ => ?_
  rw [email_disclosed] at hemail
  rw [groups_disclosed] at hgroups
  simp only [List.mem_cons, List.not_mem_nil, or_false] at hname
  rcases hname with rfl | rfl | rfl | rfl
  · rw [hgroups, offered_granted]
    simp only [Option.some.injEq, exists_eq_left', offeredBy_strs]
    rfl
  · rw [hemail, offered_granted]
    simp only [offeredBy_str]
    rfl
  · rw [hsub]
    simp only [Option.some.injEq, exists_eq_left', offeredBy_str]
    rfl
  · rw [hclient]
    simp only [Option.some.injEq, exists_eq_left', offeredBy_str]
    rfl

/-! ## Acceptance -/

/-- A minted token before a role that trusts its issuer for its audience, after any history of
calls that leaves the published key sets alone. -/
structure Presented (J : JsonWebToken) (S : SigningCrates) (key : SigningKey) (issuer : TokenIssuer)
    (principal : Principal) (request : AccessTokenRequest) (now expiresAt : DateTime)
    (token : String) (env : Environment) (role : RoleConfig) (w : World) : Prop where
  documented : J.Documented
  unsigned : ∀ n : Int, n < 0 → J.numericDate (.int n) = none
  signing : S.Documented J
  loaded : ∃ kid der, SigningKey.fromPkcs8 S kid der = .ok key
  minted : ∃ jti, issuer.mintAccessTokenUntil S key principal request now expiresAt jti =
    some (.ok token)
  trusted : role.issuer = issuer.issuer
  audience : role.audience = request.resource.getD (issuer.issuer ++ "/userinfo")
  algorithm : .es256 ∈ role.algorithms
  noStaticKey : role.validationKey = none
  claims : ∀ (name : String) (requirement : ClaimRequirement),
    role.claims[name]? = some requirement → name ∈ ["groups", "email", "sub", "client_id"]
  published : Publishes env role key
  history : ∃ (jwks : String → Fetch JwkSet) (clock : Nat → Instant) (calls : List Call),
    (∀ call ∈ calls, ∀ client uri, call.env.jwks client uri = jwks uri) ∧
    (∀ client uri, env.jwks client uri = jwks uri) ∧
    w = calls.foldl (Call.run J) (World.start clock)

section

variable {J : JsonWebToken}

theorem numericDate_fresh (hJ : J.Documented)
    (hunsigned : ∀ n : Int, n < 0 → J.numericDate (.int n) = none) (e : Int) (tau : Nat) :
    (∃ exp, J.numericDate (.int e) = some exp ∧ tau ≤ exp + 60) ↔ 0 ≤ e ∧ (tau : Int) ≤ e + 60 := by
  by_cases hneg : e < 0
  · rw [hunsigned e hneg]
    simp only [reduceCtorEq, false_and, exists_false, false_iff]
    omega
  · obtain ⟨n, rfl⟩ := Int.eq_ofNat_of_zero_le (by omega : 0 ≤ e)
    rw [hJ.numericDate_int]
    simp only [Option.some.injEq, exists_eq_left']
    omega

theorem names_str {p : Json} {claim s : String} (h : p.get? claim = some (.str s)) :
    p.Names claim s :=
  ⟨[s], by rw [h]; rfl, List.mem_singleton_self s⟩

theorem AccessTokenClaims.unrepeated (claims : AccessTokenClaims) :
    claims.toJson.unrepeated JsonWebToken.registered = true := by
  obtain ⟨iss, sub, aud, clientId, exp, iat, jti, scope, email, groups⟩ := claims
  cases email <;> cases groups <;> rfl

theorem toOption_eq_some {ε α : Type} {x : Except ε α} {a : α} :
    x.toOption = some a ↔ x = .ok a := by
  cases x <;> simp [Except.toOption]

variable {S : SigningCrates} {key : SigningKey} {issuer : TokenIssuer} {principal : Principal}
  {request : AccessTokenRequest} {now expiresAt : DateTime} {token : String} {env : Environment}
  {role : RoleConfig} {w : World}

/-- The role resolves a key that verifies the token. -/
theorem Presented.verified
    (h : Presented J S key issuer principal request now expiresAt token env role w) :
    ∃ header decodingKey, J.decodeHeader token = some header ∧
      role.allowsAlgorithm header.alg = true ∧
      (resolvingDecodingKey J env role token header.alg w).1 = .ok decodingKey ∧
      J.verify token decodingKey header.alg = true := by
  obtain ⟨jti, hmint⟩ := h.minted
  obtain ⟨limit, -, hencode⟩ := mint_ok hmint
  obtain ⟨kid, der, hkey⟩ := h.loaded
  have hheader := h.signing.header hencode
  obtain ⟨x, y, jwk, hpoint, halg, hdirect⟩ := h.published.found hkey hheader
  obtain ⟨decodingKey, hjwk, hverify⟩ := h.signing.verify hencode rfl hpoint halg
  obtain ⟨jwks, clock, calls, hcalls, henv, hw⟩ := h.history
  have hsound : Sound jwks w := hw ▸ history_sound hcalls (start_sound jwks clock)
  have hresolve := (resolvingKey_direct (J := J) henv hsound role token .es256).1
  rw [directResolvingKey, h.noStaticKey] at hresolve
  have hallow : role.allowsAlgorithm .es256 = true :=
    List.any_eq_true.mpr ⟨.es256, h.algorithm, rfl⟩
  exact ⟨_, decodingKey, hheader, hallow, toOption_eq_some.mp (hresolve.trans (hdirect.trans hjwk)),
    hverify⟩

theorem minted_exp {jti : List UInt8} {limit : DateTime}
    (hlimit : now.plusHours tokenTtlHours = some limit) :
    (issuer.accessTokenClaims principal request now expiresAt limit jti).exp =
      min expiresAt.timestamp (now.timestamp + 3600) := by
  have hhour : limit.timestamp = now.timestamp + 3600 := DateTime.timestamp_plusHours hlimit
  rw [← hhour]
  exact DateTime.timestamp_min expiresAt limit

theorem minted_requirements_met {limit : DateTime} {jti : List UInt8} {c : ValidatedClaims}
    (hc : ValidatedClaims.deserialize
      (issuer.accessTokenClaims principal request now expiresAt limit jti).toJson = some c)
    (hnames : ∀ (name : String) (requirement : ClaimRequirement),
      role.claims[name]? = some requirement → name ∈ ["groups", "email", "sub", "client_id"]) :
    c.requireClaims role.claims = .ok () ↔
      ∀ (name : String) (requirement : ClaimRequirement), role.claims[name]? = some requirement →
        ∃ a ∈ requirement.acceptable, Justified principal request name a := by
  rw [ValidatedClaims.requireClaims_ok]
  refine forall₃_congr fun name requirement hrequired => ?_
  exact minted_claims_met hc (hnames name requirement hrequired) requirement

/-- When such a token is accepted for the role. -/
theorem Presented.accepted_iff
    (h : Presented J S key issuer principal request now expiresAt token env role w) (tau : Nat) :
    (∃ c, (validateTokenForRole J env tau role token w).1 = .ok c) ↔
      0 ≤ min expiresAt.timestamp (now.timestamp + 3600) ∧
      (tau : Int) ≤ min expiresAt.timestamp (now.timestamp + 3600) + (role.validation .es256).leeway ∧
      ∀ (name : String) (requirement : ClaimRequirement), role.claims[name]? = some requirement →
        ∃ a ∈ requirement.acceptable, Justified principal request name a := by
  obtain ⟨jti, hmint⟩ := h.minted
  obtain ⟨limit, hlimit, hencode⟩ := mint_ok hmint
  have hpayload := h.signing.payload hencode
  have hexp : (issuer.accessTokenClaims principal request now expiresAt limit jti).exp =
      min expiresAt.timestamp (now.timestamp + 3600) := minted_exp hlimit
  have hfresh := numericDate_fresh h.documented h.unsigned
    (min expiresAt.timestamp (now.timestamp + 3600)) tau
  rw [validateTokenForRole_accepts h.documented]
  constructor
  · rintro ⟨p, hp, hpasses, -, -⟩
    rw [hpayload] at hp
    obtain rfl := Option.some.inj hp
    obtain ⟨exp, hdate, hle⟩ := hpasses.unexpired
    have hread : J.numericDate
        (.int (min expiresAt.timestamp (now.timestamp + 3600))) = some exp := by
      rw [← hexp]
      exact hdate
    obtain ⟨hnonneg, htau⟩ := hfresh.mp ⟨exp, hread, hle⟩
    obtain ⟨c, hc, hreq⟩ := hpasses.claims
    exact ⟨hnonneg, htau, (minted_requirements_met hc h.claims).mp hreq⟩
  · rintro ⟨hnonneg, htau, hjustified⟩
    obtain ⟨exp, hdate, hle⟩ := hfresh.mpr ⟨hnonneg, htau⟩
    obtain ⟨c, hc, -⟩ := AccessTokenClaims.deserialize
      (issuer.accessTokenClaims principal request now expiresAt limit jti)
    refine ⟨_, hpayload, ⟨h.verified, AccessTokenClaims.unrepeated _, ⟨exp, ?_, hle⟩, c, hc,
      (minted_requirements_met hc h.claims).mpr hjustified⟩, fun _ => ?_, fun _ => ?_⟩
    · rw [← hexp] at hdate
      exact hdate
    · rw [h.trusted]
      exact names_str rfl
    · rw [h.audience]
      exact names_str rfl

end

/-- **Accepted exactly when the grant justifies it**, up to the end of its lifetime and the leeway.
An expiry before the epoch is no `NumericDate` for the verifier. -/
theorem minted_accepted_iff (J : JsonWebToken) (S : SigningCrates) (key : SigningKey)
    (issuer : TokenIssuer) (principal : Principal) (request : AccessTokenRequest)
    (now expiresAt : DateTime) (token : String) (env : Environment) (role : RoleConfig) (w : World)
    (h : Presented J S key issuer principal request now expiresAt token env role w)
    (v : TokenValidator) (roleName : String) (hrole : v.roles[roleName]? = some role) (tau : Nat) :
    (∃ c, (v.validateForRole J env tau roleName token w).1 = .ok c) ↔
      0 ≤ min expiresAt.timestamp (now.timestamp + 3600) ∧
      (tau : Int) ≤ min expiresAt.timestamp (now.timestamp + 3600) + (role.validation .es256).leeway ∧
      ∀ (name : String) (requirement : ClaimRequirement), role.claims[name]? = some requirement →
        ∃ a ∈ requirement.acceptable, Justified principal request name a := by
  simp only [TokenValidator.validateForRole, hrole]
  exact h.accepted_iff tau

/-! ## A token for a member of a group -/

def toolsRole : RoleConfig :=
  { name := "tools", audience := "https://tools.example/mcp", issuer := "https://idfrog.example"
    validationKey := none, algorithms := [.es256]
    claims := .ofList [("groups", ClaimRequirement.contains ⟨"engineering-object-id"⟩)] }

def toolsValidator : TokenValidator := TokenValidator.empty.add toolsRole (by decide)

def readJwk : Authzoo.Jwk :=
  ⟨⟨some .signature, some .es256, some "configured-key"⟩,
    .ellipticCurve .p256 (Base64.encode signingX) (Base64.encode signingY)⟩

def idfrogEnvironment : Environment :=
  { Environment.offline with
    openidConfiguration := fun _ _ => .ok ⟨"https://idfrog.example/jwks.json"⟩
    jwks := fun _ _ => .ok ⟨[readJwk]⟩ }

theorem toolsRole_claims {name : String} {requirement : ClaimRequirement}
    (h : toolsRole.claims[name]? = some requirement) :
    name = "groups" ∧ requirement = .contains ⟨"engineering-object-id"⟩ := by
  rw [toolsRole, BTreeMap.getElem?_ofList] at h
  obtain ⟨before, after, hsplit, -⟩ := List.lookup_eq_some_iff.mp h
  have hmem : (name, requirement) ∈
      [("groups", ClaimRequirement.contains ⟨"engineering-object-id"⟩)].reverse := by
    rw [hsplit]
    exact List.mem_append_right _ List.mem_cons_self
  simpa using hmem

theorem toolsRole_justified {name : String} {requirement : ClaimRequirement}
    (h : toolsRole.claims[name]? = some requirement) :
    ∃ a ∈ requirement.acceptable, Justified alice toolsGrant name a := by
  obtain ⟨rfl, rfl⟩ := toolsRole_claims h
  exact ⟨.element "engineering-object-id", rfl, by decide, _, List.mem_singleton_self _, rfl⟩

theorem idfrog_publishes : Publishes idfrogEnvironment toolsRole signingKey := by
  refine ⟨⟨none, none⟩, _, _, readJwk, by decide, rfl, rfl, rfl, List.mem_singleton_self _, ?_⟩
  intro other hother _
  exact List.mem_singleton.mp hother

theorem tools_presented {claims : AccessTokenClaims} {token : String} {now expiresAt : DateTime}
    (hmint : idfrog.mintAccessTokenUntil (signingCrates claims token) signingKey alice toolsGrant now
      expiresAt toolsJti = some (.ok token)) :
    Presented (verifyingCrate claims token) (signingCrates claims token) signingKey idfrog alice
      toolsGrant now expiresAt token idfrogEnvironment toolsRole (World.start id) where
  documented :=
    ⟨(JsonWebToken.known_documented [signedToken claims token]).decode_ok,
      (JsonWebToken.known_documented [signedToken claims token]).numericDate_int⟩
  unsigned n h := if_neg (by omega)
  signing := signingCrates_documented claims token
  loaded := ⟨"configured-key", signingDer, rfl⟩
  minted := ⟨toolsJti, hmint⟩
  trusted := rfl
  audience := rfl
  algorithm := List.mem_singleton_self _
  noStaticKey := rfl
  claims name requirement h := by
    rw [(toolsRole_claims h).1]
    exact List.mem_cons_self
  published := idfrog_publishes
  history := ⟨fun _ => .ok ⟨[readJwk]⟩, id, [], fun _ h => absurd h List.not_mem_nil,
    fun _ _ => rfl, rfl⟩

/-- A member's token is accepted until a minute after its hour. -/
theorem minted_accepted_iff_member :
    (∃ c, (toolsValidator.validateForRole
      (verifyingCrate (toolsClaims 1700003600 1700000000) toolsToken) idfrogEnvironment 1700003660
      "tools" toolsToken (World.start id)).1 = .ok c) ∧
    ¬ ∃ c, (toolsValidator.validateForRole
      (verifyingCrate (toolsClaims 1700003600 1700000000) toolsToken) idfrogEnvironment 1700003661
      "tools" toolsToken (World.start id)).1 = .ok c := by
  have hiff := minted_accepted_iff _ _ _ _ _ _ _ _ _ _ _ _ (tools_presented toolsToken_minted)
    toolsValidator "tools" (TokenValidator.roles_add (by decide))
  refine ⟨(hiff 1700003660).mpr ⟨by decide, by decide, fun _ _ h => toolsRole_justified h⟩, ?_⟩
  intro haccepted
  exact absurd ((hiff 1700003661).mp haccepted).2.1 (by decide)

/-- A token that expires a second before the epoch. -/
def earlyToken : String :=
  "eyJ0eXAiOiJhdCtqd3QiLCJhbGciOiJFUzI1NiIsImtpZCI6ImNvbmZpZ3VyZWQta2V5In0.eyJpc3Mi" ++
    "OiJodHRwczovL2lkZnJvZy5leGFtcGxlIiwic3ViIjoiZW50cmE6dGVuYW50LWlkOm9iamVjdC1pZCIs" ++
    "ImF1ZCI6Imh0dHBzOi8vdG9vbHMuZXhhbXBsZS9tY3AiLCJjbGllbnRfaWQiOiJodHRwczovL2NsaWVu" ++
    "dC5leGFtcGxlL2NsaWVudC5qc29uIiwiZXhwIjotMSwiaWF0IjotMSwianRpIjoiQUFFQ0F3UUZCZ2NJ" ++
    "Q1FvTERBME9EeEFSIiwic2NvcGUiOiJncm91cHMiLCJncm91cHMiOlsiZW5naW5lZXJpbmctb2JqZWN0" ++
    "LWlkIl19.k1VCGjrYj2FBuz4Pp6oIHOd8NvXqQwwlWhJiZkcXbhQWkxHv3U3fEzmCfIUkugd1d_wupdx" ++
    "QZfAM2sfGVv5Dvg"

theorem earlyToken_minted :
    idfrog.mintAccessTokenUntil (signingCrates (toolsClaims (-1) (-1)) earlyToken) signingKey alice
      toolsGrant (instant (-1) (by decide)) (instant (-1) (by decide)) toolsJti =
        some (.ok earlyToken) := by
  decide +kernel

/-- Within the leeway of such an expiry the token is refused. -/
theorem minted_refused_before_epoch :
    ¬ ∀ (J : JsonWebToken) (S : SigningCrates) (key : SigningKey) (issuer : TokenIssuer)
      (principal : Principal) (request : AccessTokenRequest) (now expiresAt : DateTime)
      (token : String) (env : Environment) (role : RoleConfig) (w : World),
      Presented J S key issuer principal request now expiresAt token env role w →
      ∀ (v : TokenValidator) (roleName : String), v.roles[roleName]? = some role → ∀ tau : Nat,
      ((∃ c, (v.validateForRole J env tau roleName token w).1 = .ok c) ↔
        (tau : Int) ≤
          min expiresAt.timestamp (now.timestamp + 3600) + (role.validation .es256).leeway ∧
        ∀ (name : String) (requirement : ClaimRequirement), role.claims[name]? = some requirement →
          ∃ a ∈ requirement.acceptable, Justified principal request name a) := by
  intro hclaim
  have hpresented := tools_presented earlyToken_minted
  have hrole : toolsValidator.roles["tools"]? = some toolsRole :=
    TokenValidator.roles_add (by decide)
  obtain ⟨c, hc⟩ := (hclaim _ _ _ _ _ _ _ _ _ _ _ _ hpresented toolsValidator "tools" hrole 0).mpr
    ⟨by decide, fun _ _ h => toolsRole_justified h⟩
  simp only [TokenValidator.validateForRole, hrole] at hc
  exact absurd ((hpresented.accepted_iff 0).mp ⟨c, hc⟩).1 (by decide)

end Authzoo.Oauth
