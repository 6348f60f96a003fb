import Authzoo.Lib.Ascii
import Authzoo.Lib.Words
import Authzoo.Oauth.Protocol

/-!
# Authzoo.Oauth.Request

Exactly which authorization requests are accepted, and what a pending request is worth when it is
resumed.

* `IsScopeToken`, `IsChallenge` and `Tokens` say in bytes and words what the recognisers of
  `protocol.rs` test.
* `validateAuthorizationRequest_iff` : a request is accepted if and only if it is `Safe`, and the
  pending request carries its fields.
* `pending_fixed_point` : submitted again, a pending request comes out as it went in.
* `resumption_iff` : `validate_pending_client` does not look at the resource again, so a pending
  request without one outlives its client's turning into a metadata client.
-/

namespace Authzoo.Oauth

/-! ## What the recognisers accept -/

/-- The `scope-token` of RFC 6749. -/
def IsScopeToken (scope : String) : Prop :=
  scope ≠ "" ∧ ∀ b ∈ Ascii.bytes scope, b = 0x21 ∨ (0x23 ≤ b ∧ b ≤ 0x5b) ∨ (0x5d ≤ b ∧ b ≤ 0x7e)

/-- The base64url alphabet. -/
def IsBase64Url (b : UInt8) : Prop :=
  (0x41 ≤ b ∧ b ≤ 0x5a) ∨ (0x61 ≤ b ∧ b ≤ 0x7a) ∨ (0x30 ≤ b ∧ b ≤ 0x39) ∨ b = 0x2d ∨ b = 0x5f

def IsChallenge (challenge : String) : Prop :=
  (Ascii.bytes challenge).length = 43 ∧ ∀ b ∈ Ascii.bytes challenge, IsBase64Url b

/-- The space-separated tokens of a scope string. -/
def Tokens (scope : String) (tokens : List String) : Prop :=
  Words.Separates ' ' scope.toList (tokens.map String.toList)

theorem validScope_iff {scope : String} : validScope scope = true ↔ IsScopeToken scope := by
  have hascii : ∀ b : UInt8, (b = 0x21 ∨ (0x23 ≤ b ∧ b ≤ 0x5b) ∨ (0x5d ≤ b ∧ b ≤ 0x7e)) →
      b.toNat < 128 := by
    intro b hb
    simp [← UInt8.toNat_inj, UInt8.le_iff_toNat_le] at hb
    omega
  simp only [validScope, IsScopeToken, Ascii.all_bytes hascii, Bool.and_eq_true, List.all_eq_true]
  refine and_congr (by simp) (forall₂_congr fun c _ => ?_)
  simp [← UInt8.toNat_inj, UInt8.le_iff_toNat_le, ← UInt32.toNat_inj, UInt32.le_iff_toNat_le]
  omega

theorem IsBase64Url.ascii {b : UInt8} (h : IsBase64Url b) : b.toNat < 128 := by
  simp [IsBase64Url, ← UInt8.toNat_inj, UInt8.le_iff_toNat_le] at h
  omega

theorem isChallenge_iff {challenge : String} :
    isChallenge challenge = true ↔ IsChallenge challenge := by
  simp only [isChallenge, IsChallenge, Ascii.all_bytes fun _ => IsBase64Url.ascii,
    Bool.and_eq_true, List.all_eq_true]
  refine and_congr (by simp [Ascii.bytes_length]) (forall₂_congr fun c _ => ?_)
  simp [IsBase64Url, Ascii.isAlphanum_iff, ← UInt8.toNat_inj, UInt8.le_iff_toNat_le,
    ← Char.toNat_inj]
  omega

theorem tokens_iff {scope : String} {tokens : List String} :
    Tokens scope tokens ↔ (Words.words ' ' scope.toList).map String.ofList = tokens := by
  rw [Tokens, Words.separates_iff]
  constructor
  · intro h
    rw [h, List.map_map]
    simp [Function.comp_def]
  · intro h
    rw [← h, List.map_map]
    simp [Function.comp_def]

theorem parseScopes_ok {scope : String} {tokens : List String} :
    parseScopes scope = .ok tokens ↔ Tokens scope tokens ∧ tokens ≠ [] := by
  rw [tokens_iff]
  simp only [parseScopes, Outcome.guard_eq_ok, Words.words, Except.ok.injEq]
  constructor
  · rintro ⟨hne, rfl⟩
    exact ⟨rfl, hne⟩
  · rintro ⟨rfl, hne⟩
    exact ⟨hne, rfl⟩

/-- What a policy admits as the scope of a grant. -/
def ScopePolicy.Admits (policy : ScopePolicy) (scope : String) : Prop :=
  ∀ allowed, policy = .supported allowed → scope ∈ allowed

theorem supports_iff {policy : ScopePolicy} {scope : String} :
    policy.supports scope = true ↔ policy.Admits scope := by
  cases policy with
  | supported allowed => simp [ScopePolicy.supports, ScopePolicy.Admits]
  | resourceDefined => simp [ScopePolicy.supports, ScopePolicy.Admits]

theorem checkScopes_ok {policy : ScopePolicy} {scopes : List String} :
    checkScopes policy scopes = .ok () ↔
      ∀ scope ∈ scopes, IsScopeToken scope ∧ policy.Admits scope := by
  induction scopes with
  | nil => simp [checkScopes]
  | cons scope rest ih =>
    simp only [checkScopes, Outcome.guard_eq_ok, ih, List.forall_mem_cons, ← validScope_iff,
      ← supports_iff]
    simp

theorem validateResource_iff {U : UrlCrate} {resource : String} :
    validateResource U resource = .ok () ↔ ∃ url, U.parse resource = some url ∧ IsResource url := by
  constructor
  · exact validateResource_ok
  · rintro ⟨url, hparse, hurl⟩
    have hhost := Option.isSome_iff_ne_none.mp hurl.host
    simp [validateResource, hparse, hurl.scheme, hhost, hurl.fragment, hurl.query, hurl.username,
      hurl.password]

theorem checkChallenge_ok {request : AuthorizationRequest} {challenge : String} :
    checkChallenge request = .ok challenge ↔ request.codeChallenge = some challenge ∧
      request.codeChallengeMethod = some "S256" ∧ IsChallenge challenge := by
  rw [← isChallenge_iff]
  unfold checkChallenge
  cases request.codeChallenge with
  | none => simp
  | some given =>
    cases request.codeChallengeMethod with
    | none => simp
    | some method =>
      simp only [Outcome.guard_eq_ok, Except.ok.injEq, Option.some.injEq]
      constructor
      · rintro ⟨hmethod, hgiven, rfl⟩
        exact ⟨rfl, by simpa using hmethod, by simpa using hgiven⟩
      · rintro ⟨rfl, hmethod, hgiven⟩
        exact ⟨by simpa using hmethod, by simpa using hgiven, rfl⟩

/-! ## Exactly the safe requests -/

/-- An empty scope asks for the email address where a resource is named. -/
def AuthorizationRequest.effectiveScope (request : AuthorizationRequest) : String :=
  if request.scope = "" ∧ request.resource ≠ none then "email" else request.scope

/-- All that acceptance asks of a request apart from its PKCE challenge. -/
structure Grantable (U : UrlCrate) (request : AuthorizationRequest) (client : Client)
    (policy : AuthorizationPolicy) : Prop where
  clientId : request.clientId = client.clientId
  responseType : request.responseType = "code"
  redirectUri : client.allowsRedirect U request.redirectUri = true
  resource : ∀ text, request.resource = some text → ∃ url, U.parse text = some url ∧ IsResource url
  noResource : request.resource = none →
    client.cimd = false ∧ policy.resourceRequirement ≠ .always
  scopes : ∃ tokens, Tokens request.effectiveScope tokens ∧ tokens ≠ [] ∧
    ∀ scope ∈ tokens, IsScopeToken scope ∧ policy.scopes.Admits scope

structure Safe (U : UrlCrate) (request : AuthorizationRequest) (client : Client)
    (policy : AuthorizationPolicy) : Prop extends Grantable U request client policy where
  method : request.codeChallengeMethod = some "S256"
  challenge : ∃ challenge, request.codeChallenge = some challenge ∧ IsChallenge challenge

/-- The pending request has the client's identifier and the request's fields. -/
structure Carries (request : AuthorizationRequest) (client : Client)
    (p : PendingAuthorizationRequest) : Prop where
  clientId : p.clientId = client.clientId
  redirectUri : p.redirectUri = request.redirectUri
  resource : p.resource = request.resource
  state : p.state = request.state
  nonce : p.nonce = request.nonce
  codeChallenge : request.codeChallenge = some p.codeChallenge
  scopes : Tokens request.effectiveScope p.scopes

theorem Tokens.unique {scope : String} {tokens tokens' : List String} (h : Tokens scope tokens)
    (h' : Tokens scope tokens') : tokens = tokens' :=
  (tokens_iff.mp h).symm.trans (tokens_iff.mp h')

theorem checkResource_ok {U : UrlCrate} {request : AuthorizationRequest} {client : Client}
    {policy : AuthorizationPolicy} :
    checkResource U request.resource client policy = .ok () ↔
      (∀ text, request.resource = some text → ∃ url, U.parse text = some url ∧ IsResource url) ∧
      (request.resource = none → client.cimd = false ∧ policy.resourceRequirement ≠ .always) := by
  cases request.resource with
  | none => simp [checkResource]
  | some text => simp [checkResource, validateResource_iff]

/-- What the checks compute, with the pending request that they build. -/
theorem validateAuthorizationRequest_steps {U : UrlCrate} {request : AuthorizationRequest}
    {client : Client} {policy : AuthorizationPolicy} {p : PendingAuthorizationRequest} :
    validateAuthorizationRequest U request client policy = .ok p ↔
      request.clientId = client.clientId ∧ request.responseType = "code" ∧
      client.allowsRedirect U request.redirectUri = true ∧
      checkResource U request.resource client policy = .ok () ∧
      ∃ scopes challenge, parseScopes request.effectiveScope = .ok scopes ∧
        checkScopes policy.scopes scopes = .ok () ∧ checkChallenge request = .ok challenge ∧
        p = { clientId := client.clientId, resource := request.resource
              redirectUri := request.redirectUri, scopes, state := request.state
              nonce := request.nonce, codeChallenge := challenge } := by
  have hscope : (if (request.scope.isEmpty && request.resource.isSome) = true then "email"
      else request.scope) = request.effectiveScope := by
    simp [AuthorizationRequest.effectiveScope, Option.isSome_iff_ne_none]
  simp only [validateAuthorizationRequest, Outcome.guard_eq_ok, Outcome.bind_eq_ok, hscope]
  constructor
  · rintro ⟨hid, htype, hredirect, ⟨⟩, hresource, scopes, hparse, ⟨⟩, hscopes, challenge, hchallenge,
      hok⟩
    exact ⟨by simpa using hid, by simpa using htype, by simpa using hredirect, hresource, scopes,
      challenge, hparse, hscopes, hchallenge, (Except.ok.inj hok).symm⟩
  · rintro ⟨hid, htype, hredirect, hresource, scopes, challenge, hparse, hscopes, hchallenge, rfl⟩
    exact ⟨by simpa using hid, by simpa using htype, by simpa using hredirect, (), hresource, scopes,
      hparse, (), hscopes, challenge, hchallenge, rfl⟩

section

variable {U : UrlCrate} {request : AuthorizationRequest} {client : Client}
  {policy : AuthorizationPolicy} {p : PendingAuthorizationRequest}

theorem safe_of_accepted (h : validateAuthorizationRequest U request client policy = .ok p) :
    Safe U request client policy ∧ Carries request client p := by
  rw [validateAuthorizationRequest_steps, checkResource_ok] at h
  obtain ⟨hid, htype, hredirect, ⟨hresource, hnone⟩, scopes, challenge, hparse, hscopes, hchallenge,
    rfl⟩ := h
  obtain ⟨htokens, hne⟩ := parseScopes_ok.mp hparse
  obtain ⟨hgiven, hmethod, hform⟩ := checkChallenge_ok.mp hchallenge
  exact ⟨⟨⟨hid, htype, hredirect, hresource, hnone, scopes, htokens, hne,
    checkScopes_ok.mp hscopes⟩, hmethod, challenge, hgiven, hform⟩,
    ⟨rfl, rfl, rfl, rfl, rfl, hgiven, htokens⟩⟩

theorem Safe.accepted (hsafe : Safe U request client policy) (hcarries : Carries request client p) :
    validateAuthorizationRequest U request client policy = .ok p := by
  rw [validateAuthorizationRequest_steps, checkResource_ok]
  obtain ⟨tokens, htokens, hne, hscopes⟩ := hsafe.scopes
  obtain ⟨challenge, hgiven, hform⟩ := hsafe.challenge
  refine ⟨hsafe.clientId, hsafe.responseType, hsafe.redirectUri,
    ⟨hsafe.resource, hsafe.noResource⟩, tokens, challenge, parseScopes_ok.mpr ⟨htokens, hne⟩,
    checkScopes_ok.mpr hscopes, checkChallenge_ok.mpr ⟨hgiven, hsafe.method, hform⟩, ?_⟩
  obtain rfl : challenge = p.codeChallenge :=
    Option.some.inj (hgiven.symm.trans hcarries.codeChallenge)
  obtain rfl : tokens = p.scopes := htokens.unique hcarries.scopes
  rw [← hcarries.clientId, ← hcarries.redirectUri, ← hcarries.resource, ← hcarries.state,
    ← hcarries.nonce]

end

/-- **Exactly the safe requests are accepted**, and the pending request carries their fields. -/
theorem validateAuthorizationRequest_iff (U : UrlCrate) (request : AuthorizationRequest)
    (client : Client) (policy : AuthorizationPolicy) (p : PendingAuthorizationRequest) :
    validateAuthorizationRequest U request client policy = .ok p ↔
      Safe U request client policy ∧ Carries request client p :=
  ⟨safe_of_accepted, fun h => h.1.accepted h.2⟩

/-! ## Resuming a pending request -/

/-- A pending request, submitted again. -/
def PendingAuthorizationRequest.resubmission (p : PendingAuthorizationRequest) :
    AuthorizationRequest :=
  { resource := p.resource, responseType := "code", clientId := p.clientId
    redirectUri := p.redirectUri, scope := " ".intercalate p.scopes, state := p.state
    nonce := p.nonce, codeChallenge := some p.codeChallenge, codeChallengeMethod := some "S256" }

theorem IsScopeToken.no_space {scope : String} (h : IsScopeToken scope) : ' ' ∉ scope.toList := by
  have hvalid := validScope_iff.mpr h
  simp only [validScope, Bool.and_eq_true, List.all_eq_true] at hvalid
  intro hspace
  exact absurd (hvalid.2 ' ' hspace) (by decide)

/-- Scope tokens joined by a space are read back. -/
theorem tokens_join {scopes : List String} (h : ∀ scope ∈ scopes, IsScopeToken scope) :
    Tokens (" ".intercalate scopes) scopes := by
  have hne : ∀ w ∈ scopes.map String.toList, w ≠ [] := by
    intro w hw
    obtain ⟨scope, hscope, rfl⟩ := List.mem_map.mp hw
    simpa using (h scope hscope).1
  have hspace : ∀ w ∈ scopes.map String.toList, ' ' ∉ w := by
    intro w hw
    obtain ⟨scope, hscope, rfl⟩ := List.mem_map.mp hw
    exact (h scope hscope).no_space
  rw [Tokens, String.toList_intercalate, Words.separates_iff]
  exact Words.words_intercalate hne hspace

theorem join_ne_empty {scopes : List String} (h : ∀ scope ∈ scopes, IsScopeToken scope)
    (hne : scopes ≠ []) : " ".intercalate scopes ≠ "" := by
  intro hempty
  have htokens := tokens_join h
  rw [hempty] at htokens
  exact hne ((tokens_iff.mp htokens).symm)

/-- The scope of a resubmission is never empty, so nothing is put in its place. -/
theorem PendingAuthorizationRequest.resubmission_effectiveScope (p : PendingAuthorizationRequest)
    (h : ∀ scope ∈ p.scopes, IsScopeToken scope) (hne : p.scopes ≠ []) :
    p.resubmission.effectiveScope = p.resubmission.scope :=
  if_neg fun hempty => join_ne_empty h hne hempty.1

theorem Safe.carried {U : UrlCrate} {request : AuthorizationRequest} {client : Client}
    {policy : AuthorizationPolicy} {p : PendingAuthorizationRequest}
    (h : Safe U request client policy) (hp : Carries request client p) :
    p.scopes ≠ [] ∧ ∀ scope ∈ p.scopes, IsScopeToken scope ∧ policy.scopes.Admits scope := by
  obtain ⟨tokens, htokens, hne, hscopes⟩ := h.scopes
  rw [← htokens.unique hp.scopes]
  exact ⟨hne, hscopes⟩

/-- A pending request that still belongs to its client is accepted again, unchanged, unless it
names no resource and the client has become a metadata client. -/
theorem resubmission_accepted {U : UrlCrate} {request : AuthorizationRequest}
    {client client' : Client} {policy : AuthorizationPolicy} {p : PendingAuthorizationRequest}
    (h : validateAuthorizationRequest U request client policy = .ok p)
    (hpending : validatePendingClient U p client' = .ok ())
    (hresource : p.resource = none → client'.cimd = false) :
    validateAuthorizationRequest U p.resubmission client' policy = .ok p := by
  obtain ⟨hsafe, hcarries⟩ := safe_of_accepted h
  obtain ⟨hne, hscopes⟩ := hsafe.carried hcarries
  have htoken : ∀ scope ∈ p.scopes, IsScopeToken scope := fun scope hin => (hscopes scope hin).1
  have htokens : Tokens p.resubmission.effectiveScope p.scopes := by
    rw [p.resubmission_effectiveScope htoken hne]
    exact tokens_join htoken
  simp only [validatePendingClient, Outcome.guard_eq_ok, not_or, not_not,
    Bool.not_eq_false] at hpending
  obtain ⟨⟨hid, hallowed⟩, -⟩ := hpending
  obtain ⟨challenge, hgiven, hform⟩ := hsafe.challenge
  obtain rfl := Option.some.inj (hgiven.symm.trans hcarries.codeChallenge)
  refine Safe.accepted ⟨⟨hid.symm, rfl, hallowed, ?_, ?_, p.scopes, htokens, hne, hscopes⟩, rfl, _,
    rfl, hform⟩ ⟨hid.symm, rfl, rfl, rfl, rfl, rfl, htokens⟩
  · intro text htext
    exact hsafe.resource text (hcarries.resource.symm.trans htext)
  · intro hnone
    exact ⟨hresource hnone, (hsafe.noResource (hcarries.resource.symm.trans hnone)).2⟩

/-- **A pending request is a fixed point.** Submitted again for the same client it is accepted and
comes out as it is, and it can be resumed; its scope string reads back as its scopes. -/
theorem pending_fixed_point (U : UrlCrate) (request : AuthorizationRequest) (client : Client)
    (policy : AuthorizationPolicy) (p : PendingAuthorizationRequest)
    (h : validateAuthorizationRequest U request client policy = .ok p) :
    validateAuthorizationRequest U p.resubmission client policy = .ok p ∧
      validatePendingClient U p client = .ok () ∧
      p.resubmission.effectiveScope = p.resubmission.scope ∧
      parseScopes p.resubmission.scope = .ok p.scopes := by
  obtain ⟨hsafe, hcarries⟩ := safe_of_accepted h
  obtain ⟨hne, hscopes⟩ := hsafe.carried hcarries
  have htoken : ∀ scope ∈ p.scopes, IsScopeToken scope := fun scope hin => (hscopes scope hin).1
  have hpending := validatePendingClient_accepted h
  refine ⟨resubmission_accepted h hpending fun hnone => ?_, hpending,
    p.resubmission_effectiveScope htoken hne, parseScopes_ok.mpr ⟨tokens_join htoken, hne⟩⟩
  exact (hsafe.noResource (hcarries.resource.symm.trans hnone)).1

/-- The client of the example document. -/
def metadataClient : Client := ⟨exampleId, "Example", ["http://127.0.0.1/cb"], true, .native⟩

/-- What the example request with a challenge is stored as. -/
def examplePending (challenge : String) : PendingAuthorizationRequest :=
  ⟨some "https://api.example/", exampleId, "http://127.0.0.1:8080/cb", ["email"], none, none,
    challenge⟩

/-- The example request, whose empty scope has become the email address. -/
theorem pending_fixed_point_email :
    validateAuthorizationRequest exampleCrate { exampleRequest with scope := "email" }
      metadataClient ⟨.resourceDefined, .metadataClients⟩ =
        .ok (examplePending "E9Melhoa2OwvFrEMTJguCHaoeK1t8URWbuGJSstw-cM") :=
  (pending_fixed_point exampleCrate exampleRequest metadataClient
    ⟨.resourceDefined, .metadataClients⟩
    (examplePending "E9Melhoa2OwvFrEMTJguCHaoeK1t8URWbuGJSstw-cM") (by decide)).1

/-- **When resumption is as strict as the request was.** What `validate_pending_client` lets
continue would be accepted again, and names a resource if its client is a metadata client, exactly
when the request named a resource, or the client is not a metadata client by now, or it fails the
checks that are repeated. -/
theorem resumption_iff (U : UrlCrate) (request : AuthorizationRequest) (client client' : Client)
    (policy : AuthorizationPolicy) (p : PendingAuthorizationRequest)
    (h : validateAuthorizationRequest U request client policy = .ok p) :
    ((validatePendingClient U p client' = .ok () →
        ∃ p', validateAuthorizationRequest U p.resubmission client' policy = .ok p') ∧
      (client'.cimd = true → p.resource = none → validatePendingClient U p client' ≠ .ok ())) ↔
    (request.resource ≠ none ∨ client'.cimd = false ∨ client'.clientId ≠ request.clientId ∨
      client'.allowsRedirect U request.redirectUri = false) := by
  obtain ⟨hid, -, -, -, -, -, hpid, hpresource, hpuri, -⟩ := validateAuthorizationRequest_ok h
  have hpending : validatePendingClient U p client' = .ok () ↔ client'.clientId = request.clientId ∧
      client'.allowsRedirect U request.redirectUri = true := by
    simp [validatePendingClient, hpid, hpuri, hid]
  rw [hpresource]
  constructor
  · rintro ⟨-, hmetadata⟩
    by_contra hno
    simp only [not_or, ne_eq, not_not, Bool.not_eq_false] at hno
    obtain ⟨hnone, hcimd, hsame, hallowed⟩ := hno
    exact hmetadata hcimd hnone (hpending.mpr ⟨hsame, hallowed⟩)
  · intro hcond
    have hresource : validatePendingClient U p client' = .ok () → request.resource = none →
        client'.cimd = false := by
      intro hp hnone
      obtain ⟨hsame, hallowed⟩ := hpending.mp hp
      rcases hcond with hsome | hcimd | hother | hrefused
      · exact absurd hnone hsome
      · exact hcimd
      · exact absurd hsame hother
      · rw [hallowed] at hrefused
        cases hrefused
    refine ⟨fun hp => ⟨p, resubmission_accepted h hp ?_⟩, fun hcimd hnone hp => ?_⟩
    · rw [hpresource]
      exact hresource hp
    · rw [hresource hp hnone] at hcimd
      cases hcimd

/-! ## A client that turns into a metadata client -/

/-- The client of the document, as an application had registered it. -/
def registeredClient : Client := ⟨exampleId, "Example", ["http://127.0.0.1/cb"], false, .native⟩

def unboundRequest : AuthorizationRequest :=
  { exampleRequest with
    resource := none, redirectUri := "http://127.0.0.1/cb", scope := "openid profile" }

def openidPolicy : AuthorizationPolicy :=
  ⟨.supported ["openid", "profile", "email"], .metadataClients⟩

def unboundPending : PendingAuthorizationRequest :=
  { resource := none, clientId := exampleId, redirectUri := "http://127.0.0.1/cb"
    scopes := ["openid", "profile"], state := none, nonce := none
    codeChallenge := "E9Melhoa2OwvFrEMTJguCHaoeK1t8URWbuGJSstw-cM" }

theorem unboundRequest_accepted : validateAuthorizationRequest exampleCrate unboundRequest
    registeredClient openidPolicy = .ok unboundPending := by decide

/-- While the client stays registered, resumption is as strict as the request. -/
theorem resumption_iff_registered :
    ∃ p', validateAuthorizationRequest exampleCrate unboundPending.resubmission registeredClient
      openidPolicy = .ok p' :=
  ((resumption_iff exampleCrate unboundRequest registeredClient registeredClient openidPolicy
    unboundPending unboundRequest_accepted).mpr (.inr (.inl rfl))).1
      (validatePendingClient_accepted unboundRequest_accepted)

/-- The application drops its registration; the identifier now resolves to the metadata document,
and the pending request continues without a resource. -/
theorem resumption_without_resource :
    ∃ client', parseDocument exampleCrate exampleSlice exampleId exampleBytes = .ok client' ∧
      validatePendingClient exampleCrate unboundPending client' = .ok () ∧
      client'.cimd = true ∧ unboundPending.resource = none ∧
      validateAuthorizationRequest exampleCrate unboundPending.resubmission client' openidPolicy =
        .error (.oAuth "invalid_target") ∧
      ¬ ∀ (U : UrlCrate) (request : AuthorizationRequest) (client client' : Client)
        (policy : AuthorizationPolicy) (p : PendingAuthorizationRequest),
        validateAuthorizationRequest U request client policy = .ok p →
        validatePendingClient U p client' = .ok () →
          ∃ p', validateAuthorizationRequest U p.resubmission client' policy = .ok p' := by
  have hpending : validatePendingClient exampleCrate unboundPending
      ⟨exampleId, "Example", ["http://127.0.0.1/cb"], true, .native⟩ = .ok () := by decide
  have hrefused : validateAuthorizationRequest exampleCrate unboundPending.resubmission
      ⟨exampleId, "Example", ["http://127.0.0.1/cb"], true, .native⟩ openidPolicy =
        .error (.oAuth "invalid_target") := by decide
  refine ⟨_, exampleDocument_parsed, hpending, rfl, rfl, hrefused, fun hclaim => ?_⟩
  obtain ⟨p', hp'⟩ := hclaim _ _ _ _ _ _ unboundRequest_accepted hpending
  rw [hrefused] at hp'
  cases hp'

end Authzoo.Oauth
