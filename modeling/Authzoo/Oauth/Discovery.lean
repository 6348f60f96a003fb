import Authzoo.Oauth.Issuance

/-!
# Authzoo.Oauth.Discovery

Discovery metadata (`discovery.rs`): the document of `OpenidConfiguration::new`, and that it tells the
truth about the rest of the crate.

* `offered_iff` : under the advertised scopes a request is refused for its response type, its challenge
  method or its scopes exactly when one of them is not advertised.
* `idToken_claims` : which advertised claims an ID token has, and that it has no others.
* `metadata_truthful` : both, and the audience of access tokens that are for no resource.
-/

namespace Authzoo.Oauth

structure OpenidConfiguration where
  issuer : String
  clientIdMetadataDocumentSupported : Bool
  authorizationResponseIssParameterSupported : Bool
  authorizationEndpoint : String
  tokenEndpoint : String
  userinfoEndpoint : Option String
  responseModesSupported : List String
  jwksUri : String
  responseTypesSupported : List String
  subjectTypesSupported : List String
  idTokenSigningAlgValuesSupported : List String
  scopesSupported : List String
  tokenEndpointAuthMethodsSupported : List String
  claimsSupported : List String
  grantTypesSupported : List String
  codeChallengeMethodsSupported : List String

namespace OpenidConfiguration

def new (issuer : String) : OpenidConfiguration where
  issuer
  clientIdMetadataDocumentSupported := true
  authorizationResponseIssParameterSupported := true
  authorizationEndpoint := issuer ++ "/authorize"
  tokenEndpoint := issuer ++ "/token"
  userinfoEndpoint := some (issuer ++ "/userinfo")
  responseModesSupported := ["query"]
  jwksUri := issuer ++ "/jwks.json"
  responseTypesSupported := ["code"]
  subjectTypesSupported := ["public"]
  idTokenSigningAlgValuesSupported := ["ES256"]
  scopesSupported := ["openid", "email", "profile", "groups", "offline_access"]
  tokenEndpointAuthMethodsSupported := ["none", "client_secret_basic"]
  claimsSupported := ["sub", "iss", "aud", "exp", "iat", "auth_time", "nonce", "email", "groups"]
  grantTypesSupported := ["authorization_code", "refresh_token"]
  codeChallengeMethodsSupported := ["S256"]

/-- The derived serialisation: an absent `userinfo_endpoint` is left out. -/
def toJson (config : OpenidConfiguration) : Json :=
  let strings := fun values : List String => Json.arr (values.map .str)
  .obj ([("issuer", .str config.issuer),
    ("client_id_metadata_document_supported", .bool config.clientIdMetadataDocumentSupported),
    ("authorization_response_iss_parameter_supported",
      .bool config.authorizationResponseIssParameterSupported),
    ("authorization_endpoint", .str config.authorizationEndpoint),
    ("token_endpoint", .str config.tokenEndpoint)] ++
    (config.userinfoEndpoint.toList.map fun endpoint => ("userinfo_endpoint", .str endpoint)) ++
    [("response_modes_supported", strings config.responseModesSupported),
    ("jwks_uri", .str config.jwksUri),
    ("response_types_supported", strings config.responseTypesSupported),
    ("subject_types_supported", strings config.subjectTypesSupported),
    ("id_token_signing_alg_values_supported", strings config.idTokenSigningAlgValuesSupported),
    ("scopes_supported", strings config.scopesSupported),
    ("token_endpoint_auth_methods_supported", strings config.tokenEndpointAuthMethodsSupported),
    ("claims_supported", strings config.claimsSupported),
    ("grant_types_supported", strings config.grantTypesSupported),
    ("code_challenge_methods_supported", strings config.codeChallengeMethodsSupported)])

/-- What the document invites a client to ask for. -/
structure Offers (config : OpenidConfiguration) (request : AuthorizationRequest) : Prop where
  responseType : request.responseType ∈ config.responseTypesSupported
  method : ∃ method ∈ config.codeChallengeMethodsSupported, request.codeChallengeMethod = some method
  scopes : ∃ tokens, Tokens request.effectiveScope tokens ∧ tokens ≠ [] ∧
    tokens ⊆ config.scopesSupported

end OpenidConfiguration

/-! ## Requests -/

/-- What acceptance asks of a request that no document can advertise. -/
structure Addressed (U : UrlCrate) (request : AuthorizationRequest) (client : Client)
    (requirement : ResourceRequirement) : Prop where
  clientId : request.clientId = client.clientId
  redirectUri : client.allowsRedirect U request.redirectUri = true
  resource : ∀ text, request.resource = some text → ∃ url, U.parse text = some url ∧ IsResource url
  noResource : request.resource = none → client.cimd = false ∧ requirement ≠ .always
  challenge : ∃ challenge, request.codeChallenge = some challenge ∧ IsChallenge challenge

theorem scopesSupported_token {issuer scope : String}
    (h : scope ∈ (OpenidConfiguration.new issuer).scopesSupported) : IsScopeToken scope := by
  have hall : ∀ scope ∈ ["openid", "email", "profile", "groups", "offline_access"],
      validScope scope = true := by decide
  exact validScope_iff.mp (hall scope h)

theorem checkScopes_supported {issuer : String} {scopes : List String} :
    checkScopes (.supported (OpenidConfiguration.new issuer).scopesSupported) scopes = .ok () ↔
      scopes ⊆ (OpenidConfiguration.new issuer).scopesSupported := by
  rw [checkScopes_ok]
  constructor
  · intro h scope hscope
    exact (h scope hscope).2 _ rfl
  · rintro h scope hscope
    refine ⟨scopesSupported_token (h hscope), ?_⟩
    rintro allowed ⟨⟩
    exact h hscope

/-- Advertised is what is accepted. -/
theorem offered_iff {U : UrlCrate} {issuer : String} {request : AuthorizationRequest}
    {client : Client} {requirement : ResourceRequirement} :
    (∃ p, validateAuthorizationRequest U request client
        ⟨.supported (OpenidConfiguration.new issuer).scopesSupported, requirement⟩ = .ok p) ↔
      (OpenidConfiguration.new issuer).Offers request ∧
        Addressed U request client requirement := by
  simp only [validateAuthorizationRequest_steps, checkResource_ok, checkScopes_supported]
  constructor
  · rintro ⟨p, hid, htype, hredirect, ⟨hresource, hnone⟩, tokens, challenge, hparse, hscopes,
      hchallenge, -⟩
    obtain ⟨htokens, hne⟩ := parseScopes_ok.mp hparse
    obtain ⟨hgiven, hmethod, hform⟩ := checkChallenge_ok.mp hchallenge
    exact ⟨⟨htype ▸ List.mem_singleton_self _, ⟨_, List.mem_singleton_self _, hmethod⟩,
      tokens, htokens, hne, hscopes⟩, ⟨hid, hredirect, hresource, hnone, challenge, hgiven, hform⟩⟩
  · rintro ⟨⟨htype, ⟨method, hin, hmethod⟩, tokens, htokens, hne, hscopes⟩, h⟩
    obtain ⟨challenge, hgiven, hform⟩ := h.challenge
    obtain rfl := List.mem_singleton.mp hin
    exact ⟨_, h.clientId, List.mem_singleton.mp htype, h.redirectUri, ⟨h.resource, h.noResource⟩,
      tokens, challenge, parseScopes_ok.mpr ⟨htokens, hne⟩, hscopes,
      checkChallenge_ok.mpr ⟨hgiven, hmethod, hform⟩, rfl⟩

/-! ## Tokens -/

theorem mintId_ok {S : SigningCrates} {issuer : TokenIssuer} {key : SigningKey}
    {principal : Principal} {request : IdTokenRequest} {now : DateTime} {token : String}
    (h : issuer.mintIdToken S key principal request now = some (.ok token)) :
    ∃ limit, now.plusHours tokenTtlHours = some limit ∧
      S.encode { alg := .es256, kid := some key.kid, typ := some "JWT" }
        (issuer.idTokenClaims principal request now limit).toJson key.encodingKey = .ok token := by
  obtain ⟨limit, hlimit, hsign⟩ := Option.map_eq_some_iff.mp h
  refine ⟨limit, hlimit, ?_⟩
  unfold SigningKey.sign at hsign
  split at hsign
  · cases hsign
  · rename_i signed hencode
    cases hsign
    exact hencode

/-- The claims that every ID token has. -/
def idTokenNames : List String := ["iss", "sub", "aud", "exp", "iat", "auth_time", "nonce"]

theorem claimsSupported_iff {issuer name : String} :
    name ∈ (OpenidConfiguration.new issuer).claimsSupported ↔
      name ∈ idTokenNames ∨ name = "email" ∨ name = "groups" := by
  simp only [OpenidConfiguration.new, idTokenNames, List.mem_cons, List.not_mem_nil, or_false]
  tauto

theorem IdTokenClaims.names (claims : IdTokenClaims) :
    ∃ members, claims.toJson = .obj members ∧ ∀ name, name ∈ members.map Prod.fst ↔
      name ∈ idTokenNames ∨ name = "email" ∧ claims.email.isSome ∨
        name = "groups" ∧ claims.groups.isSome := by
  obtain ⟨iss, sub, aud, exp, iat, authTime, nonce, email, groups⟩ := claims
  refine ⟨_, rfl, fun name => ?_⟩
  cases email <;> cases groups <;> simp [idTokenNames, or_assoc]

/-- An ID token has the advertised claims: all of them but for an email address that is not known, and
for groups that are not granted. -/
theorem idToken_claims (issuer : TokenIssuer) (principal : Principal) (request : IdTokenRequest)
    (now limit : DateTime) :
    ∃ members, (issuer.idTokenClaims principal request now limit).toJson = .obj members ∧
      ∀ name, name ∈ members.map Prod.fst ↔
        name ∈ (OpenidConfiguration.new issuer.issuer).claimsSupported ∧
          (name = "email" → principal.email.isSome) ∧
          (name = "groups" → request.includeGroups = true) := by
  obtain ⟨members, hmembers, hnames⟩ :=
    (issuer.idTokenClaims principal request now limit).names
  refine ⟨members, hmembers, fun name => ?_⟩
  have hgroups : (issuer.idTokenClaims principal request now limit).groups.isSome ↔
      request.includeGroups = true := by
    simp [TokenIssuer.idTokenClaims]
  have hemail : "email" ∉ idTokenNames := by decide
  have hgroup : "groups" ∉ idTokenNames := by decide
  rw [hnames, hgroups, claimsSupported_iff]
  constructor
  · rintro (hname | ⟨rfl, hsome⟩ | ⟨rfl, hgranted⟩)
    · exact ⟨.inl hname, fun h => absurd (h ▸ hname) hemail, fun h => absurd (h ▸ hname) hgroup⟩
    · exact ⟨.inr (.inl rfl), fun _ => hsome, fun h => absurd h (by decide)⟩
    · exact ⟨.inr (.inr rfl), fun h => absurd h (by decide), fun _ => hgranted⟩
  · rintro ⟨hname | rfl | rfl, hsome, hgranted⟩
    · exact .inl hname
    · exact .inr (.inl ⟨rfl, hsome rfl⟩)
    · exact .inr (.inr ⟨rfl, hgranted rfl⟩)

/-! ## The document as a whole -/

/-- **The metadata is truthful.** With the advertised scopes, exactly the requests that the document
offers are accepted, as far as a document can tell; ID tokens are signed with an advertised algorithm
and have exactly the advertised claims, but for an unknown email address and groups that are not
granted; and an access token for no resource is for the advertised endpoint. -/
theorem metadata_truthful (issuer : TokenIssuer) (S : SigningCrates) (J : JsonWebToken)
    (hS : S.Documented J) :
    (∀ (U : UrlCrate) (request : AuthorizationRequest) (client : Client)
      (requirement : ResourceRequirement),
      (∃ p, validateAuthorizationRequest U request client
          ⟨.supported (OpenidConfiguration.new issuer.issuer).scopesSupported, requirement⟩ = .ok p) ↔
        (OpenidConfiguration.new issuer.issuer).Offers request ∧
          Addressed U request client requirement) ∧
    (∀ (key : SigningKey) (principal : Principal) (request : IdTokenRequest) (now : DateTime)
      (token : String), issuer.mintIdToken S key principal request now = some (.ok token) →
      ∃ header members, J.decodeHeader token = some header ∧
        header.alg.debug ∈
          (OpenidConfiguration.new issuer.issuer).idTokenSigningAlgValuesSupported ∧
        J.payload token = some (.obj members) ∧
        ∀ name, name ∈ members.map Prod.fst ↔
          name ∈ (OpenidConfiguration.new issuer.issuer).claimsSupported ∧
            (name = "email" → principal.email.isSome) ∧
            (name = "groups" → request.includeGroups = true)) ∧
    ∀ (key : SigningKey) (principal : Principal) (request : AccessTokenRequest)
      (now expiresAt : DateTime) (jti : List UInt8) (token : String), request.resource = none →
      issuer.mintAccessTokenUntil S key principal request now expiresAt jti = some (.ok token) →
      ∃ claims, J.payload token = some claims ∧
        claims.get? "aud" =
          (OpenidConfiguration.new issuer.issuer).userinfoEndpoint.map .str := by
  refine ⟨fun U request client requirement => offered_iff, ?_, ?_⟩
  · intro key principal request now token hmint
    obtain ⟨limit, -, hencode⟩ := mintId_ok hmint
    obtain ⟨members, hmembers, hnames⟩ := idToken_claims issuer principal request now limit
    exact ⟨_, members, hS.header hencode, List.mem_singleton_self _,
      (hS.payload hencode).trans (congrArg some hmembers), hnames⟩
  · intro key principal request now expiresAt jti token hresource hmint
    obtain ⟨limit, -, hencode⟩ := mint_ok hmint
    refine ⟨_, hS.payload hencode, ?_⟩
    change some (Json.str (request.resource.getD (issuer.issuer ++ "/userinfo"))) = _
    rw [hresource]
    rfl

/-! ## An ID token -/

/-- What a client is told of alice when she signs in. -/
def signIn : IdTokenRequest :=
  { audience := "https://client.example/client.json", nonce := some "n-0S6_WzA2Mj"
    authenticatedAt := instant 1699999900 (by decide), includeGroups := false }

def signInClaims : IdTokenClaims :=
  { iss := "https://idfrog.example", sub := "entra:tenant-id:object-id"
    aud := "https://client.example/client.json", exp := 1700003600, iat := 1700000000
    authTime := 1699999900, nonce := some "n-0S6_WzA2Mj", email := some "alice@example.com"
    groups := none }

def idToken : String :=
  "eyJ0eXAiOiJKV1QiLCJhbGciOiJFUzI1NiIsImtpZCI6ImNvbmZpZ3VyZWQta2V5In0.eyJpc3MiOiJo" ++
    "dHRwczovL2lkZnJvZy5leGFtcGxlIiwic3ViIjoiZW50cmE6dGVuYW50LWlkOm9iamVjdC1pZCIsImF1" ++
    "ZCI6Imh0dHBzOi8vY2xpZW50LmV4YW1wbGUvY2xpZW50Lmpzb24iLCJleHAiOjE3MDAwMDM2MDAsImlh" ++
    "dCI6MTcwMDAwMDAwMCwiYXV0aF90aW1lIjoxNjk5OTk5OTAwLCJub25jZSI6Im4tMFM2X1d6QTJNaiIs" ++
    "ImVtYWlsIjoiYWxpY2VAZXhhbXBsZS5jb20ifQ.AmJ7ttrgo9P_HrTv-ysCSQPgSl0qexg7s8X4Dprou" ++
    "b7A6zZNjrgI0F2goAvM-jCAcOPShY-EMV04pz4yyrKx1Q"

/-- Claims with a nonce and an email address, read back. -/
def readIdClaims : Json → Option IdTokenClaims
  | .obj [("iss", .str iss), ("sub", .str sub), ("aud", .str aud), ("exp", .int exp),
      ("iat", .int iat), ("auth_time", .int authTime), ("nonce", .str nonce),
      ("email", .str email)] =>
    some ⟨iss, sub, aud, exp, iat, authTime, some nonce, some email, none⟩
  | _ => none

theorem readIdClaims_some {p : Json} {claims : IdTokenClaims} (h : readIdClaims p = some claims) :
    p = claims.toJson := by
  unfold readIdClaims at h
  split at h
  · cases h
    rfl
  · cases h

/-- `p256` at the signing key, and the encoder at one set of claims. -/
def identityCrates (claims : IdTokenClaims) (token : String) : SigningCrates where
  publicPoint der := if der = signingDer then some (signingX, signingY) else none
  encode h given der :=
    if h = ⟨⟨.es256, some "configured-key"⟩, some "JWT"⟩ ∧ readIdClaims given = some claims ∧
      der = signingDer then .ok token else .error (.other "not signed here")

def signedIdToken (claims : IdTokenClaims) (token : String) : JsonWebToken.Signed :=
  ⟨token, ⟨.es256, some "configured-key"⟩, claims.toJson, "configured-key"⟩

def identityCrate (claims : IdTokenClaims) (token : String) : JsonWebToken :=
  { JsonWebToken.known [signedIdToken claims token] with
    fromJwk := fun jwk =>
      if jwk.algorithm = .ellipticCurve .p256 (Base64.encode signingX) (Base64.encode signingY) then
        some "configured-key"
      else none }

theorem identityCrates_documented (claims : IdTokenClaims) (token : String) :
    (identityCrates claims token).Documented (identityCrate claims token) := by
  have hok : ∀ {h : TokenHeader} {given : Json} {der : List UInt8} {token' : String},
      (identityCrates claims token).encode h given der = .ok token' → token' = token ∧
        h = ⟨⟨.es256, some "configured-key"⟩, some "JWT"⟩ ∧ given = claims.toJson ∧
        der = signingDer := by
    intro h given der token' hencode
    simp only [identityCrates] at hencode
    split at hencode
    · rename_i hall
      cases hencode
      exact ⟨rfl, hall.1, readIdClaims_some hall.2.1, hall.2.2⟩
    · cases hencode
  refine ⟨fun hencode => ?_, fun hencode => ?_, fun hencode halg hpoint hjwk => ?_⟩
  · obtain ⟨rfl, rfl, -, -⟩ := hok hencode
    exact JsonWebToken.known_header (signedIdToken claims _)
  · obtain ⟨rfl, -, rfl, -⟩ := hok hencode
    exact JsonWebToken.known_payload (signedIdToken claims _)
  · obtain ⟨rfl, -, -, rfl⟩ := hok hencode
    cases hpoint
    exact ⟨"configured-key", if_pos hjwk, JsonWebToken.known_verify (signedIdToken claims _)⟩

theorem idToken_minted :
    idfrog.mintIdToken (identityCrates signInClaims idToken) signingKey alice signIn
      (instant 1700000000 (by decide)) = some (.ok idToken) := by
  decide +kernel

/-- The token discloses the email address and not the groups. -/
theorem metadata_truthful_signIn :
    ∃ members, (identityCrate signInClaims idToken).payload idToken = some (.obj members) ∧
      "email" ∈ members.map Prod.fst ∧ "groups" ∉ members.map Prod.fst := by
  obtain ⟨-, members, -, -, hpayload, hnames⟩ :=
    (metadata_truthful idfrog _ _ (identityCrates_documented signInClaims idToken)).2.1 signingKey
      alice signIn (instant 1700000000 (by decide)) idToken idToken_minted
  refine ⟨members, hpayload, (hnames "email").mpr ⟨by decide, fun _ => rfl, fun h => ?_⟩, ?_⟩
  · exact absurd h (by decide)
  · intro hgroups
    exact absurd (((hnames "groups").mp hgroups).2.2 rfl) (by decide)

end Authzoo.Oauth
