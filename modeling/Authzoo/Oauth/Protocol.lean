import Authzoo.Oauth.Document

/-!
# Authzoo.Oauth.Protocol

Authorization requests (`protocol.rs`): `validate_authorization_request`, `validate_resource` and
`validate_pending_client`.

`metadata_client_confined` is the guarantee for clients that come from a metadata document: what is
answered stays with the client, an https resource, and a host that the document lists.
-/

namespace Authzoo.Oauth

structure AuthorizationRequest where
  resource : Option String
  responseType : String
  clientId : String
  redirectUri : String
  scope : String
  state : Option String
  nonce : Option String
  codeChallenge : Option String
  codeChallengeMethod : Option String

structure PendingAuthorizationRequest where
  resource : Option String
  clientId : String
  redirectUri : String
  scopes : List String
  state : Option String
  nonce : Option String
  codeChallenge : String
  deriving DecidableEq

inductive ScopePolicy where
  | supported (allowed : List String)
  | resourceDefined

inductive ResourceRequirement where
  | always
  | metadataClients
  deriving DecidableEq

structure AuthorizationPolicy where
  scopes : ScopePolicy
  resourceRequirement : ResourceRequirement

inductive ProtocolError where
  | badRequest (text : String)
  | oAuth (code : String)
  deriving DecidableEq

/-- The bytes of the scope-token syntax are all ASCII. -/
def validScope (scope : String) : Bool :=
  !scope.isEmpty && scope.toList.all fun c =>
    c.val = 0x21 || (0x23 ≤ c.val && c.val ≤ 0x5b) || (0x5d ≤ c.val && c.val ≤ 0x7e)

def ScopePolicy.supports : ScopePolicy → String → Bool
  | .supported allowed, scope => allowed.contains scope
  | .resourceDefined, _ => true

def parseScopes (scope : String) : Except ProtocolError (List String) :=
  let scopes := ((scope.toList.splitOn ' ').filter (· ≠ [])).map String.ofList
  if scopes = [] then .error (.badRequest "scope must not be empty") else .ok scopes

/-- The loop over the scopes. -/
def checkScopes (policy : ScopePolicy) : List String → Except ProtocolError Unit
  | [] => .ok ()
  | scope :: rest =>
    if !validScope scope || !policy.supports scope then
      .error (.badRequest ("scope '" ++ scope ++ "' is not supported"))
    else checkScopes policy rest

def isChallenge (codeChallenge : String) : Bool :=
  codeChallenge.utf8ByteSize = 43 &&
    codeChallenge.toList.all fun c => c.isAlphanum || c = '-' || c = '_'

/-- The PKCE part of `validate_authorization_request`. -/
def checkChallenge (request : AuthorizationRequest) : Except ProtocolError String :=
  match request.codeChallenge, request.codeChallengeMethod with
  | none, _ => .error (.badRequest "code_challenge is required")
  | some _, none => .error (.badRequest "code_challenge_method is required")
  | some codeChallenge, some method =>
    if method ≠ "S256" then
      .error (.badRequest "Only PKCE code_challenge_method=S256 is supported")
    else if !isChallenge codeChallenge then
      .error (.badRequest "code_challenge must be a base64url-encoded S256 digest")
    else .ok codeChallenge

section

variable (U : UrlCrate)

def validateResource (resource : String) : Except ProtocolError Unit :=
  match U.parse resource with
  | none => .error (.oAuth "invalid_target")
  | some url =>
    if url.scheme ≠ "https" ∨ url.hostStr = none ∨ url.fragment ≠ none ∨ url.query ≠ none ∨
        url.username ≠ "" ∨ url.password ≠ none then
      .error (.oAuth "invalid_target")
    else .ok ()

/-- The resource part of `validate_authorization_request`. -/
def checkResource (resource : Option String) (client : Client) (policy : AuthorizationPolicy) :
    Except ProtocolError Unit :=
  match resource with
  | some resource => validateResource U resource
  | none =>
    if client.cimd ∨ policy.resourceRequirement = .always then .error (.oAuth "invalid_target")
    else .ok ()

def validateAuthorizationRequest (request : AuthorizationRequest) (client : Client)
    (policy : AuthorizationPolicy) : Except ProtocolError PendingAuthorizationRequest :=
  if request.clientId ≠ client.clientId then .error (.oAuth "invalid_client")
  else if request.responseType ≠ "code" then
    .error (.badRequest "Only response_type=code is supported")
  else if !client.allowsRedirect U request.redirectUri then
    .error (.badRequest "redirect_uri is not registered for this client")
  else do
    checkResource U request.resource client policy
    let scope := if request.scope.isEmpty && request.resource.isSome then "email" else request.scope
    let scopes ← parseScopes scope
    checkScopes policy.scopes scopes
    let codeChallenge ← checkChallenge request
    return { clientId := client.clientId, resource := request.resource
             redirectUri := request.redirectUri, scopes, state := request.state
             nonce := request.nonce, codeChallenge }

def validatePendingClient (pending : PendingAuthorizationRequest) (client : Client) :
    Except ProtocolError Unit :=
  if client.clientId ≠ pending.clientId ∨ client.allowsRedirect U pending.redirectUri = false then
    .error (.oAuth "invalid_request")
  else .ok ()

end

/-! ## What an accepted request says -/

/-- What `validate_resource` asks of a resource. -/
structure IsResource (url : Url) : Prop where
  scheme : url.scheme = "https"
  host : url.hostStr.isSome
  fragment : url.fragment = none
  query : url.query = none
  username : url.username = ""
  password : url.password = none

theorem validateResource_ok {U : UrlCrate} {resource : String}
    (h : validateResource U resource = .ok ()) :
    ∃ url, U.parse resource = some url ∧ IsResource url := by
  unfold validateResource at h
  split at h
  · cases h
  · rename_i url hparse
    simp only [Outcome.guard_eq_ok, not_or, not_not] at h
    obtain ⟨⟨hscheme, hhost, hfragment, hquery, husername, hpassword⟩, -⟩ := h
    exact ⟨url, hparse, hscheme, Option.isSome_iff_ne_none.mpr hhost, hfragment, hquery, husername,
      hpassword⟩

theorem checkResource_cimd {U : UrlCrate} {resource : Option String} {client : Client}
    {policy : AuthorizationPolicy} (hcimd : client.cimd = true)
    (h : checkResource U resource client policy = .ok ()) :
    ∃ text url, resource = some text ∧ U.parse text = some url ∧ IsResource url := by
  cases resource with
  | none => simp [checkResource, hcimd] at h
  | some text =>
    obtain ⟨url, hparse, hurl⟩ := validateResource_ok h
    exact ⟨text, url, rfl, hparse, hurl⟩

/-- Everything an accepted request has passed. -/
theorem validateAuthorizationRequest_ok {U : UrlCrate} {request : AuthorizationRequest}
    {client : Client} {policy : AuthorizationPolicy} {p : PendingAuthorizationRequest}
    (h : validateAuthorizationRequest U request client policy = .ok p) :
    request.clientId = client.clientId ∧ request.responseType = "code" ∧
      client.allowsRedirect U request.redirectUri = true ∧
      checkResource U request.resource client policy = .ok () ∧
      checkScopes policy.scopes p.scopes = .ok () ∧
      checkChallenge request = .ok p.codeChallenge ∧
      p.clientId = client.clientId ∧ p.resource = request.resource ∧
      p.redirectUri = request.redirectUri ∧ p.state = request.state ∧ p.nonce = request.nonce := by
  simp only [validateAuthorizationRequest, Outcome.guard_eq_ok, Outcome.bind_eq_ok] at h
  obtain ⟨hid, htype, hredirect, ⟨⟩, hresource, scopes, -, ⟨⟩, hscopes, codeChallenge, hchallenge,
    hok⟩ := h
  obtain rfl := Except.ok.inj hok
  exact ⟨by simpa using hid, by simpa using htype, by simpa using hredirect, hresource, hscopes,
    hchallenge, rfl, rfl, rfl, rfl, rfl⟩

theorem allowsRedirect_valid {U : UrlCrate} {client : Client} {requested : String}
    (hvalid : ∀ uri ∈ client.redirectUris, validRedirect U uri = true)
    (h : client.allowsRedirect U requested = true) : validRedirect U requested = true := by
  cases allowsRedirect_iff.mp h with
  | inl hin => exact hvalid requested hin
  | inr hloop =>
    obtain ⟨-, registered, -, text, -, hu⟩ := hloop
    obtain ⟨url, h, p, r, hl, -⟩ := loopbackWithoutPort_some hu
    exact hl.valid

/-- An allowed redirect has the scheme and host of a registered one. -/
theorem allowsRedirect_same_host {U : UrlCrate} (hU : U.Whatwg) {client : Client}
    {requested : String} (hvalid : ∀ uri ∈ client.redirectUris, validRedirect U uri = true)
    (h : client.allowsRedirect U requested = true) :
    ∃ registered ∈ client.redirectUris, ∃ a b, U.parse requested = some a ∧
      U.parse registered = some b ∧ a.scheme = b.scheme ∧ a.hostPart = b.hostPart := by
  cases allowsRedirect_iff.mp h with
  | inl hin =>
    obtain ⟨url, hurl, -⟩ := (validRedirect_iff.mp (hvalid requested hin)).parsed
    exact ⟨requested, hin, url, url, hurl, hurl, rfl, rfl⟩
  | inr hloop =>
    obtain ⟨-, registered, hin, text, hr, hu⟩ := hloop
    obtain ⟨a, b, h, p, q, r, ha, hb, hhost, -⟩ := same_host hU hu hr
    exact ⟨registered, hin, a, b, ha.parsed, hb.parsed, (ha.scheme hU).trans (hb.scheme hU).symm,
      hhost⟩

/-- A request that was accepted for a client is accepted again when it is resumed. -/
theorem validatePendingClient_accepted {U : UrlCrate} {request : AuthorizationRequest}
    {client : Client} {policy : AuthorizationPolicy} {p : PendingAuthorizationRequest}
    (h : validateAuthorizationRequest U request client policy = .ok p) :
    validatePendingClient U p client = .ok () := by
  obtain ⟨-, -, hallowed, -, -, -, hid, -, huri, -⟩ := validateAuthorizationRequest_ok h
  simp [validatePendingClient, hid, huri, hallowed]

/-- **Confinement.** A request accepted for the client of a document names the document's
identifier and an https resource, and answers to a valid redirect on a scheme and host that the
document lists. -/
theorem metadata_client_confined {U : UrlCrate} (hU : U.Whatwg)
    (fromSlice : List UInt8 → Option Json) (id : String) (bytes : List UInt8)
    (request : AuthorizationRequest) (client : Client) (policy : AuthorizationPolicy)
    (p : PendingAuthorizationRequest) (hclient : parseDocument U fromSlice id bytes = .ok client)
    (h : validateAuthorizationRequest U request client policy = .ok p) :
    p.clientId = id ∧ p.clientId = request.clientId ∧
    (∃ text url, p.resource = some text ∧ U.parse text = some url ∧ IsResource url) ∧
    validRedirect U p.redirectUri = true ∧ IsRedirect U p.redirectUri ∧
    ∃ doc, (fromSlice bytes).bind Document.ofJson = some doc ∧ ∃ listed ∈ doc.redirectUris,
      ∃ a b, U.parse p.redirectUri = some a ∧ U.parse listed = some b ∧ a.scheme = b.scheme ∧
        a.hostPart = b.hostPart := by
  obtain ⟨hvetted, doc, hdoc, huris⟩ := parseDocument_ok hclient
  obtain ⟨hid, -, hallowed, hresource, -, -, hpid, hpresource, hpuri, -⟩ :=
    validateAuthorizationRequest_ok h
  have hvalid : validRedirect U p.redirectUri = true :=
    hpuri ▸ allowsRedirect_valid hvetted.valid hallowed
  obtain ⟨listed, hin, hsame⟩ := allowsRedirect_same_host hU hvetted.valid hallowed
  refine ⟨hpid.trans hvetted.clientId, hpid.trans hid.symm, ?_, hvalid, validRedirect_iff.mp hvalid,
    doc, hdoc, listed, huris ▸ hin, ?_⟩
  · rw [hpresource]
    exact checkResource_cimd hvetted.cimd hresource
  · rw [hpuri]
    exact hsame

def exampleRequest : AuthorizationRequest :=
  { resource := some "https://api.example/", responseType := "code", clientId := exampleId
    redirectUri := "http://127.0.0.1:8080/cb", scope := "", state := none, nonce := none
    codeChallenge := some "E9Melhoa2OwvFrEMTJguCHaoeK1t8URWbuGJSstw-cM"
    codeChallengeMethod := some "S256" }

theorem metadata_client_confined_native :
    validRedirect exampleCrate "http://127.0.0.1:8080/cb" = true :=
  (metadata_client_confined exampleCrate_whatwg exampleSlice exampleId exampleBytes exampleRequest _
    ⟨.resourceDefined, .metadataClients⟩
    ⟨some "https://api.example/", exampleId, "http://127.0.0.1:8080/cb", ["email"], none, none,
      "E9Melhoa2OwvFrEMTJguCHaoeK1t8URWbuGJSstw-cM"⟩
    exampleDocument_parsed (by decide)).2.2.2.1

end Authzoo.Oauth
