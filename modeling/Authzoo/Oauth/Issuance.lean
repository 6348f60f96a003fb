import Authzoo.Oauth.Request
import Authzoo.Oauth.Token

/-!
# Authzoo.Oauth.Issuance

What a minted access token says.

* `mint_ok` : a minted token is what `encode` made of the claims of the grant.
* `scopes_govern_disclosure` : the granted scopes are read back from the token unchanged, and the
  token tells nothing about the email address and the groups that they do not grant.
-/

namespace Authzoo.Oauth

/-- What the documentation of `encode` promises about a token: the decoder reads back its header and
its claims, and the published half of the key verifies it. -/
structure SigningCrates.Documented (S : SigningCrates) (J : JsonWebToken) : Prop where
  header : ∀ {h : TokenHeader} {claims : Json} {der : List UInt8} {token : String},
    S.encode h claims der = .ok token → J.decodeHeader token = some h.toHeader
  payload : ∀ {h : TokenHeader} {claims : Json} {der : List UInt8} {token : String},
    S.encode h claims der = .ok token → J.payload token = some claims
  verify : ∀ {h : TokenHeader} {claims : Json} {der x y : List UInt8} {token : String}
    {jwk : Authzoo.Jwk}, S.encode h claims der = .ok token → h.alg = .es256 →
    S.publicPoint der = some (x, y) →
    jwk.algorithm = .ellipticCurve .p256 (Base64.encode x) (Base64.encode y) →
    ∃ key, J.fromJwk jwk = some key ∧ J.verify token key .es256 = true

/-! ## The claims of a token -/

section

variable {S : SigningCrates} {J : JsonWebToken} {issuer : TokenIssuer} {key : SigningKey}
  {principal : Principal} {request : AccessTokenRequest} {now expiresAt : DateTime}
  {jti : List UInt8} {token : String}

/-- What a token was minted from. -/
theorem mint_ok (h : issuer.mintAccessTokenUntil S key principal request now expiresAt jti =
    some (.ok token)) :
    ∃ limit, now.plusHours tokenTtlHours = some limit ∧
      S.encode { alg := .es256, kid := some key.kid, typ := some "at+jwt" }
        (issuer.accessTokenClaims principal request now expiresAt limit jti).toJson
        key.encodingKey = .ok token := by
  obtain ⟨limit, hlimit, hsign⟩ := Option.map_eq_some_iff.mp h
  refine ⟨limit, hlimit, ?_⟩
  unfold SigningKey.sign at hsign
  split at hsign
  · cases hsign
  · rename_i signed hencode
    cases hsign
    exact hencode

end

theorem AccessTokenClaims.get_scope (claims : AccessTokenClaims) :
    claims.toJson.get? "scope" = some (.str claims.scope) := rfl

theorem AccessTokenClaims.get_email (claims : AccessTokenClaims) :
    claims.toJson.get? "email" = claims.email.map .str := by
  obtain ⟨iss, sub, aud, clientId, exp, iat, jti, scope, email, groups⟩ := claims
  cases email <;> cases groups <;> rfl

theorem AccessTokenClaims.get_groups (claims : AccessTokenClaims) :
    claims.toJson.get? "groups" = claims.groups.map fun groups => .arr (groups.map .str) := by
  obtain ⟨iss, sub, aud, clientId, exp, iat, jti, scope, email, groups⟩ := claims
  cases email <;> cases groups <;> rfl

/-! ## Disclosure -/

section

variable (issuer : TokenIssuer) (principal : Principal) (request : AccessTokenRequest)
  (now expiresAt limit : DateTime) (jti : List UInt8)

theorem email_disclosed :
    (issuer.accessTokenClaims principal request now expiresAt limit jti).email =
      if "email" ∈ request.scopes then principal.email else none := by
  have hscope : request.scopes.any (· = "email") = decide ("email" ∈ request.scopes) := by
    rw [Bool.eq_iff_iff]
    simp
  simp only [TokenIssuer.accessTokenClaims, hscope]
  cases principal.email with
  | none => simp
  | some email => by_cases h : "email" ∈ request.scopes <;> simp [h, Option.filter]

theorem groups_disclosed :
    (issuer.accessTokenClaims principal request now expiresAt limit jti).groups =
      if "groups" ∈ request.scopes then some principal.groups else none := by
  simp [TokenIssuer.accessTokenClaims]

end

/-- The object without the members of one name. -/
def withoutMember (name : String) : Json → Json
  | .obj members => .obj (members.filter (·.1 ≠ name))
  | other => other

/-- The members but the `jti`. -/
theorem AccessTokenClaims.without_jti {claims claims' : AccessTokenClaims}
    (h : { claims' with jti := claims.jti } = claims) :
    withoutMember "jti" claims'.toJson = withoutMember "jti" claims.toJson := by
  rw [← h]
  simp only [toJson, withoutMember, List.filter_append]
  rfl

/-- The `jti` aside, the claims are a function of the subject and of what the scopes grant. -/
theorem claims_disclosed {principal principal' : Principal} (issuer : TokenIssuer)
    (request : AccessTokenRequest) (now expiresAt limit : DateTime) (jti jti' : List UInt8)
    (hsubject : principal'.subject = principal.subject)
    (hemail : "email" ∈ request.scopes → principal'.email = principal.email)
    (hgroups : "groups" ∈ request.scopes → principal'.groups = principal.groups) :
    withoutMember "jti" (issuer.accessTokenClaims principal' request now expiresAt limit jti').toJson =
      withoutMember "jti"
        (issuer.accessTokenClaims principal request now expiresAt limit jti).toJson := by
  have hsame : (issuer.accessTokenClaims principal' request now expiresAt limit jti').email =
      (issuer.accessTokenClaims principal request now expiresAt limit jti).email := by
    rw [email_disclosed, email_disclosed]
    split
    · exact hemail ‹_›
    · rfl
  have hsame' : (issuer.accessTokenClaims principal' request now expiresAt limit jti').groups =
      (issuer.accessTokenClaims principal request now expiresAt limit jti).groups := by
    rw [groups_disclosed, groups_disclosed]
    split
    · exact congrArg some (hgroups ‹_›)
    · rfl
  exact AccessTokenClaims.without_jti
    (AccessTokenClaims.ext rfl hsubject rfl rfl rfl rfl rfl rfl hsame hsame')

/-- **Granted scopes survive and alone govern disclosure.** -/
theorem scopes_govern_disclosure (U : UrlCrate) (asked : AuthorizationRequest) (client : Client)
    (policy : AuthorizationPolicy) (p : PendingAuthorizationRequest)
    (hp : validateAuthorizationRequest U asked client policy = .ok p) (S : SigningCrates)
    (J : JsonWebToken) (hS : S.Documented J) (issuer : TokenIssuer) (key : SigningKey)
    (clientId : String) (resource : Option String) (now expiresAt : DateTime)
    (principal : Principal) (jti : List UInt8) (token : String)
    (hmint : issuer.mintAccessTokenUntil S key principal ⟨clientId, resource, p.scopes⟩ now expiresAt
      jti = some (.ok token)) :
    ∃ claims text, J.payload token = some claims ∧ claims.get? "scope" = some (.str text) ∧
      parseScopes text = .ok p.scopes ∧
      ((∃ email, claims.get? "email" = some email) ↔
        "email" ∈ p.scopes ∧ ∃ email, principal.email = some email) ∧
      ((∃ groups, claims.get? "groups" = some groups) ↔ "groups" ∈ p.scopes) ∧
      ∀ (principal' : Principal) (jti' : List UInt8) (token' : String),
        principal'.subject = principal.subject →
        (principal'.email ≠ principal.email → "email" ∉ p.scopes) →
        (principal'.groups ≠ principal.groups → "groups" ∉ p.scopes) →
        issuer.mintAccessTokenUntil S key principal' ⟨clientId, resource, p.scopes⟩ now expiresAt
          jti' = some (.ok token') →
        ∃ claims', J.payload token' = some claims' ∧
          withoutMember "jti" claims' = withoutMember "jti" claims := by
  obtain ⟨hsafe, hcarries⟩ := safe_of_accepted hp
  obtain ⟨hne, hscopes⟩ := hsafe.carried hcarries
  obtain ⟨limit, hlimit, hencode⟩ := mint_ok hmint
  refine ⟨_, _, hS.payload hencode, AccessTokenClaims.get_scope _, ?_, ?_, ?_, ?_⟩
  · exact parseScopes_ok.mpr ⟨tokens_join fun scope hin => (hscopes scope hin).1, hne⟩
  · rw [AccessTokenClaims.get_email, email_disclosed]
    by_cases h : "email" ∈ p.scopes <;> simp [h]
  · rw [AccessTokenClaims.get_groups, groups_disclosed]
    by_cases h : "groups" ∈ p.scopes <;> simp [h]
  · intro principal' jti' token' hsubject hemail hgroups hmint'
    obtain ⟨limit', hlimit', hencode'⟩ := mint_ok hmint'
    rw [hlimit] at hlimit'
    cases hlimit'
    refine ⟨_, hS.payload hencode', claims_disclosed issuer _ now expiresAt limit jti jti'
      hsubject ?_ ?_⟩
    · intro hin
      by_contra hdiffer
      exact hemail hdiffer hin
    · intro hin
      by_contra hdiffer
      exact hgroups hdiffer hin

/-! ## A token -/

def idfrog : TokenIssuer := ⟨"https://idfrog.example"⟩

def alice : Principal :=
  ⟨"entra:tenant-id:object-id", some "alice@example.com", ["engineering-object-id"]⟩

def toolsGrant : AccessTokenRequest :=
  ⟨"https://client.example/client.json", some "https://tools.example/mcp", ["groups"]⟩

def instant (secs : Int) (h : secs ≤ maxSecs) : DateTime := ⟨secs, 0, h, by decide⟩

def toolsJti : List UInt8 := (List.range 18).map .ofNat

def toolsClaims (exp iat : Int) : AccessTokenClaims :=
  { iss := "https://idfrog.example", sub := "entra:tenant-id:object-id"
    aud := "https://tools.example/mcp", clientId := "https://client.example/client.json", exp, iat
    jti := Base64.encode toolsJti, scope := "groups", email := none
    groups := some ["engineering-object-id"] }

def signingDer : List UInt8 :=
  [48, 65, 2, 1, 0, 48, 19, 6, 7, 42, 134, 72, 206, 61, 2, 1, 6, 8, 42, 134, 72, 206, 61,
    3, 1, 7, 4, 39, 48, 37, 2, 1, 1, 4, 32, 1, 2, 3, 4, 5, 6, 7, 8, 9, 10, 11, 12, 13, 14,
    15, 16, 17, 18, 19, 20, 21, 22, 23, 24, 25, 26, 27, 28, 29, 30, 31, 32]

def signingX : List UInt8 :=
  [81, 92, 61, 110, 185, 227, 150, 185, 4, 211, 254, 202, 127, 84, 253, 205, 12, 193, 233,
    151, 191, 55, 93, 202, 81, 90, 208, 166, 195, 180, 3, 95]

def signingY : List UInt8 :=
  [69, 54, 190, 58, 80, 243, 24, 251, 249, 165, 71, 89, 2, 162, 33, 80, 43, 239, 13, 87,
    224, 140, 83, 178, 204, 10, 86, 241, 125, 159, 147, 84]

def signingJwk : Jwk :=
  { kty := "EC", crv := "P-256", use_ := "sig", alg := "ES256", kid := "configured-key"
    x := Base64.encode signingX, y := Base64.encode signingY }

def signingKey : SigningKey := ⟨"configured-key", signingDer, signingJwk⟩

/-- Claims that disclose one group, read back. -/
def readClaims : Json → Option AccessTokenClaims
  | .obj [("iss", .str iss), ("sub", .str sub), ("aud", .str aud), ("client_id", .str clientId),
      ("exp", .int exp), ("iat", .int iat), ("jti", .str jti), ("scope", .str scope),
      ("groups", .arr [.str group])] =>
    some ⟨iss, sub, aud, clientId, exp, iat, jti, scope, none, some [group]⟩
  | _ => none

theorem readClaims_some {p : Json} {claims : AccessTokenClaims} (h : readClaims p = some claims) :
    p = claims.toJson := by
  unfold readClaims at h
  split at h
  · cases h
    rfl
  · cases h

/-- `p256` at that key, and the encoder at one set of claims. -/
def signingCrates (claims : AccessTokenClaims) (token : String) : SigningCrates where
  publicPoint der := if der = signingDer then some (signingX, signingY) else none
  encode h given der :=
    if h = ⟨⟨.es256, some "configured-key"⟩, some "at+jwt"⟩ ∧ readClaims given = some claims ∧
      der = signingDer then .ok token else .error (.other "not signed here")

def signedToken (claims : AccessTokenClaims) (token : String) : JsonWebToken.Signed :=
  ⟨token, ⟨.es256, some "configured-key"⟩, claims.toJson, "configured-key"⟩

def verifyingCrate (claims : AccessTokenClaims) (token : String) : JsonWebToken :=
  { JsonWebToken.known [signedToken claims token] with
    fromJwk := fun jwk =>
      if jwk.algorithm = .ellipticCurve .p256 (Base64.encode signingX) (Base64.encode signingY) then
        some "configured-key"
      else none }

theorem signingCrates_documented (claims : AccessTokenClaims) (token : String) :
    (signingCrates claims token).Documented (verifyingCrate claims token) := by
  have hok : ∀ {h : TokenHeader} {given : Json} {der : List UInt8} {token' : String},
      (signingCrates claims token).encode h given der = .ok token' → token' = token ∧
        h = ⟨⟨.es256, some "configured-key"⟩, some "at+jwt"⟩ ∧ given = claims.toJson ∧
        der = signingDer := by
    intro h given der token' hencode
    simp only [signingCrates] at hencode
    split at hencode
    · rename_i hall
      cases hencode
      exact ⟨rfl, hall.1, readClaims_some hall.2.1, hall.2.2⟩
    · cases hencode
  refine ⟨fun hencode => ?_, fun hencode => ?_, fun hencode halg hpoint hjwk => ?_⟩
  · obtain ⟨rfl, rfl, -, -⟩ := hok hencode
    exact JsonWebToken.known_header (signedToken claims _)
  · obtain ⟨rfl, -, rfl, -⟩ := hok hencode
    exact JsonWebToken.known_payload (signedToken claims _)
  · obtain ⟨rfl, -, -, rfl⟩ := hok hencode
    cases hpoint
    exact ⟨"configured-key", if_pos hjwk, JsonWebToken.known_verify (signedToken claims _)⟩

def toolsToken : String :=
  "eyJ0eXAiOiJhdCtqd3QiLCJhbGciOiJFUzI1NiIsImtpZCI6ImNvbmZpZ3VyZWQta2V5In0.eyJpc3Mi" ++
    "OiJodHRwczovL2lkZnJvZy5leGFtcGxlIiwic3ViIjoiZW50cmE6dGVuYW50LWlkOm9iamVjdC1pZCIs" ++
    "ImF1ZCI6Imh0dHBzOi8vdG9vbHMuZXhhbXBsZS9tY3AiLCJjbGllbnRfaWQiOiJodHRwczovL2NsaWVu" ++
    "dC5leGFtcGxlL2NsaWVudC5qc29uIiwiZXhwIjoxNzAwMDAzNjAwLCJpYXQiOjE3MDAwMDAwMDAsImp0" ++
    "aSI6IkFBRUNBd1FGQmdjSUNRb0xEQTBPRHhBUiIsInNjb3BlIjoiZ3JvdXBzIiwiZ3JvdXBzIjpbImVu" ++
    "Z2luZWVyaW5nLW9iamVjdC1pZCJdfQ.dUBjtiPDgb3RGYtoAvwY-k9--gRlRNg61gYIjPZdlHhbSdN79" ++
    "XkNEQhnuK4s7ZMZ7ikhF7aKfnhkA1l7IWMSCQ"

theorem toolsToken_minted :
    idfrog.mintAccessTokenUntil (signingCrates (toolsClaims 1700003600 1700000000) toolsToken)
      signingKey alice toolsGrant (instant 1700000000 (by decide)) (instant 1800000000 (by decide))
      toolsJti = some (.ok toolsToken) := by
  decide +kernel

def groupsRequest : AuthorizationRequest := { exampleRequest with scope := "groups" }

def groupsPending : PendingAuthorizationRequest :=
  { resource := some "https://api.example/", clientId := exampleId
    redirectUri := "http://127.0.0.1:8080/cb", scopes := ["groups"], state := none, nonce := none
    codeChallenge := "E9Melhoa2OwvFrEMTJguCHaoeK1t8URWbuGJSstw-cM" }

/-- A granted group scope is read back, and discloses the groups but not the email address. -/
theorem scopes_govern_disclosure_groups :
    ∃ claims text, (verifyingCrate (toolsClaims 1700003600 1700000000) toolsToken).payload
        toolsToken = some claims ∧
      claims.get? "scope" = some (.str text) ∧ parseScopes text = .ok ["groups"] ∧
      (∃ groups, claims.get? "groups" = some groups) ∧
      ¬ ∃ email, claims.get? "email" = some email := by
  obtain ⟨claims, text, hpayload, hscope, hparse, hemail, hgroups, -⟩ := scopes_govern_disclosure
    exampleCrate groupsRequest ⟨exampleId, "Example", ["http://127.0.0.1/cb"], true, .native⟩
    ⟨.resourceDefined, .metadataClients⟩ groupsPending (by decide) _ _
    (signingCrates_documented _ _) _ _ _ _ _ _ _ _ _ toolsToken_minted
  refine ⟨claims, text, hpayload, hscope, hparse, hgroups.mpr (List.mem_singleton_self _), ?_⟩
  intro hdisclosed
  exact absurd (hemail.mp hdisclosed).1 (by decide)

end Authzoo.Oauth
