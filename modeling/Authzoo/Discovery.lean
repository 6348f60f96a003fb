import Authzoo.Config
import Authzoo.KeyCache
import Authzoo.Lib.Text

/-!
# Authzoo.Discovery

Validation key discovery (`discovery.rs`): the OpenID configuration of the role's issuer names a
JWKS, one key of it is selected for the token's `kid` and algorithm, and the selected key is kept in
the process-wide cache.

Files, HTTP and the clock are the `Environment` and the `World`. Nothing panics while the cache's
lock is held, so the lock is never poisoned and that branch is left out; so are log lines.
-/

namespace Authzoo

def kubernetesServiceHost : String := "https://kubernetes.default.svc"

def kubernetesServiceHostAliases : List String :=
  [kubernetesServiceHost, "https://kubernetes.default.svc.cluster.local"]

def kubernetesCaCertPath : String := "/var/run/secrets/kubernetes.io/serviceaccount/ca.crt"

def kubernetesTokenPath : String := "/var/run/secrets/kubernetes.io/serviceaccount/token"

def jwksKeyCacheCapacity : Nat := 100

def jwksKeyCacheTtl : Duration := Duration.fromSecs (60 * 60)

structure OpenIdConfiguration where
  jwksUri : String
  deriving DecidableEq

/-- How a request for a JSON document ends. -/
inductive Fetch (α : Type) where
  | sendFailed
  | errorStatus
  | parseFailed
  | ok (value : α)

/-- What `discovery_client` configures. -/
structure DiscoveryClient where
  rootCertificate : Option (List UInt8)
  authorization : Option String
  deriving DecidableEq

structure Environment where
  read : String → Option (List UInt8)
  readToString : String → Option String
  certificateParses : List UInt8 → Bool
  headerValueValid : String → Bool
  clientBuilds : DiscoveryClient → Bool
  openidConfiguration : DiscoveryClient → String → Fetch OpenIdConfiguration
  jwks : DiscoveryClient → String → Fetch JwkSet

/-- A host without a service account and without network. -/
def Environment.offline : Environment where
  read _ := none
  readToString _ := none
  certificateParses _ := false
  headerValueValid _ := true
  clientBuilds _ := true
  openidConfiguration _ _ := .sendFailed
  jwks _ _ := .sendFailed

/-- The static cache, and the coming readings of the monotonic clock. -/
structure World where
  keyCache : JwksKeyCache
  clock : Nat → Instant

namespace World

/-- A process that has not used its cache yet. -/
def start (clock : Nat → Instant) : World :=
  { keyCache := .new jwksKeyCacheCapacity jwksKeyCacheTtl, clock }

def now (w : World) : Instant := w.clock 0

/-- The world after an operation on the cache that read the clock once. -/
def tick (w : World) (keyCache : JwksKeyCache) : World :=
  { keyCache, clock := fun n => w.clock (n + 1) }

end World

/-- `.context(..)?` on a result whose own error text is not shown. -/
def context {α : Type} (message : String) : Option α → Except AuthzooError α
  | some a => .ok a
  | none => .error (.other message)

def Fetch.json {α : Type} (what url : String) : Fetch α → Except AuthzooError α
  | .sendFailed => .error (.other ("failed to fetch " ++ what ++ " from '" ++ url ++ "'"))
  | .errorStatus => .error (.other (what ++ " request to '" ++ url ++ "' returned an error status"))
  | .parseFailed => .error (.other ("failed to parse " ++ what ++ " from '" ++ url ++ "'"))
  | .ok value => .ok value

/-! ## The HTTP client -/

def isKubernetesServiceIssuer (issuer : String) : Bool :=
  kubernetesServiceHostAliases.contains (Text.trimEndMatches (· = '/') issuer)

def addRootCertificate (env : Environment) (builder : DiscoveryClient) :
    Except AuthzooError DiscoveryClient :=
  match env.read kubernetesCaCertPath with
  | none => .ok builder
  | some caCertPem =>
    if env.certificateParses caCertPem then .ok { builder with rootCertificate := some caCertPem }
    else
      .error (.other ("failed to parse Kubernetes CA certificate bundle at '" ++
        kubernetesCaCertPath ++ "'"))

def addAuthorization (env : Environment) (builder : DiscoveryClient) :
    Except AuthzooError DiscoveryClient :=
  match env.readToString kubernetesTokenPath with
  | none => .ok builder
  | some serviceAccountToken =>
    let token := Text.trim serviceAccountToken
    if token.isEmpty then .ok builder
    else if env.headerValueValid ("Bearer " ++ token) then
      .ok { builder with authorization := some ("Bearer " ++ token) }
    else
      .error (.other ("failed to build Authorization header from Kubernetes token at '" ++
        kubernetesTokenPath ++ "'"))

def configureInClusterClient (env : Environment) (builder : DiscoveryClient) :
    Except AuthzooError DiscoveryClient := do
  let builder ← addRootCertificate env builder
  addAuthorization env builder

def discoveryClient (env : Environment) (role : RoleConfig) : Except AuthzooError DiscoveryClient := do
  let builder : DiscoveryClient := { rootCertificate := none, authorization := none }
  let builder ←
    if isKubernetesServiceIssuer role.issuer then configureInClusterClient env builder
    else .ok builder
  if env.clientBuilds builder then .ok builder
  else .error (.other "failed to build HTTP client for validation key discovery")

/-! ## Key selection -/

def keyAlgorithmForAlgorithm : Algorithm → KeyAlgorithm
  | .hs256 => .hs256 | .hs384 => .hs384 | .hs512 => .hs512
  | .rs256 => .rs256 | .rs384 => .rs384 | .rs512 => .rs512
  | .ps256 => .ps256 | .ps384 => .ps384 | .ps512 => .ps512
  | .es256 => .es256 | .es384 => .es384
  | .edDsa => .edDsa

def keyAlgorithmMatches (jwk : Jwk) (algorithm : Algorithm) : Bool :=
  match jwk.common.keyAlgorithm with
  | some keyAlgorithm => keyAlgorithm = keyAlgorithmForAlgorithm algorithm
  | none => true

/-- The key type that an algorithm signs with. -/
def AlgorithmParameters.signs : AlgorithmParameters → Algorithm → Bool
  | .octetKey _, .hs256 | .octetKey _, .hs384 | .octetKey _, .hs512 => true
  | .rsa _ _, .rs256 | .rsa _ _, .rs384 | .rsa _ _, .rs512 => true
  | .rsa _ _, .ps256 | .rsa _ _, .ps384 | .rsa _ _, .ps512 => true
  | .ellipticCurve _ _ _, .es256 | .ellipticCurve _ _ _, .es384 => true
  | .octetKeyPair _ _, .edDsa => true
  | _, _ => false

def jwkMatchesAlgorithm (jwk : Jwk) (algorithm : Algorithm) : Bool :=
  (match jwk.common.publicKeyUse with
    | some publicKeyUse => publicKeyUse = .signature
    | none => true) &&
  keyAlgorithmMatches jwk algorithm && jwk.algorithm.signs algorithm

def Jwk.keyIdOr (jwk : Jwk) : String := jwk.common.keyId.getD "<no kid>"

def ensureJwkCompatible (jwk : Jwk) (algorithm : Algorithm) : Except AuthzooError Unit :=
  if jwkMatchesAlgorithm jwk algorithm then .ok ()
  else
    .error (.other ("discovered JWK '" ++ jwk.keyIdOr ++ "' is not compatible with algorithm '" ++
      algorithm.debug ++ "'"))

def selectJwkForToken (jwks : JwkSet) (kid : Option String) (algorithm : Algorithm) :
    Except AuthzooError Jwk :=
  match kid with
  | some kid => do
    let jwk ← context ("no JWK found for token kid '" ++ kid ++ "'") (jwks.find kid)
    ensureJwkCompatible jwk algorithm
    return jwk
  | none =>
    match jwks.keys.filter (jwkMatchesAlgorithm · algorithm) with
    | [] =>
      .error (.other ("no compatible JWK found for algorithm '" ++ algorithm.debug ++ "'"))
    | [jwk] => .ok jwk
    | _ :: _ :: _ =>
      .error (.other ("multiple compatible JWKs found for algorithm '" ++ algorithm.debug ++
        "' but the token header did not include a kid"))

/-! ## The two uses of the cache -/

/-- `cached_jwks_key` inside the lock. -/
def cachedJwksKey (cache : JwksKeyCache) (cacheKey : JwksKeyCacheKey) (algorithm : Algorithm)
    (now : Instant) : Option Jwk × JwksKeyCache :=
  match cache.get cacheKey now with
  | (none, cache) => (none, cache)
  | (some jwk, cache) =>
    match ensureJwkCompatible jwk algorithm with
    | .ok () => (some jwk, cache)
    | .error _ => (none, cache)

/-- `cache_jwks_key` inside the lock. -/
def cacheJwksKey (cache : JwksKeyCache) (cacheKey : JwksKeyCacheKey) (jwk : Jwk) (now : Instant) :
    JwksKeyCache :=
  cache.insert cacheKey jwk now

/-! ## Discovery -/

/-- What a discovery knows before it turns to the keys. -/
structure Located where
  kid : Option String
  client : DiscoveryClient
  jwksUri : String

section

variable (J : JsonWebToken) (env : Environment)

/-- `discovery_decoding_key` up to the cache lookup. -/
def locateJwks (role : RoleConfig) (token : String) : Except AuthzooError Located := do
  let header ← context "failed to decode token header for key discovery" (J.decodeHeader token)
  let openidConfigurationUrl :=
    Text.trimEndMatches (· = '/') role.issuer ++ "/.well-known/openid-configuration"
  let client ← discoveryClient env role
  let openidConfiguration ← (env.openidConfiguration client openidConfigurationUrl).json
    "OpenID configuration" openidConfigurationUrl
  return { kid := header.kid, client, jwksUri := openidConfiguration.jwksUri }

/-- `discovery_decoding_key` between a miss and the insertion. -/
def fetchJwk (found : Located) (algorithm : Algorithm) : Except AuthzooError Jwk := do
  let jwks ← (env.jwks found.client found.jwksUri).json "JWKS" found.jwksUri
  selectJwkForToken jwks found.kid algorithm

def constructDecodingKey (origin : String) (jwk : Jwk) : Except AuthzooError J.DecodingKey :=
  context ("failed to construct decoding key from " ++ origin ++ " JWK '" ++ jwk.keyIdOr ++ "'")
    (J.fromJwk jwk)

def discoveryDecodingKey (role : RoleConfig) (token : String) (algorithm : Algorithm) (w : World) :
    Except AuthzooError J.DecodingKey × World :=
  match locateJwks J env role token with
  | .error e => (.error e, w)
  | .ok found =>
    let cacheKey := JwksKeyCacheKey.new found.jwksUri found.kid algorithm
    match cachedJwksKey w.keyCache cacheKey algorithm w.now with
    | (some jwk, cache) => (constructDecodingKey J "cached" jwk, w.tick cache)
    | (none, cache) =>
      let w := w.tick cache
      match fetchJwk env found algorithm with
      | .error e => (.error e, w)
      | .ok jwk =>
        (constructDecodingKey J "discovered" jwk,
          w.tick (cacheJwksKey w.keyCache cacheKey jwk w.now))

end

/-! ## What a selection says -/

theorem context_ok {α : Type} {message : String} {x : Option α} {a : α} :
    context message x = .ok a ↔ x = some a := by
  cases x <;> simp [context]

theorem context_toOption {α : Type} {message : String} {x : Option α} :
    (context message x).toOption = x := by
  cases x <;> rfl

theorem ensureJwkCompatible_ok {jwk : Jwk} {algorithm : Algorithm} :
    ensureJwkCompatible jwk algorithm = .ok () ↔ jwkMatchesAlgorithm jwk algorithm = true := by
  unfold ensureJwkCompatible
  split
  · rename_i h
    simp [h]
  · rename_i h
    simp [h]

theorem selectJwkForToken_kid {jwks : JwkSet} {kid : String} {algorithm : Algorithm} {jwk : Jwk} :
    selectJwkForToken jwks (some kid) algorithm = .ok jwk ↔
      jwks.find kid = some jwk ∧ jwkMatchesAlgorithm jwk algorithm = true := by
  simp only [selectJwkForToken]
  cases hf : jwks.find kid with
  | none => simp [context, bind, Except.bind]
  | some found =>
    cases hc : ensureJwkCompatible found algorithm with
    | error e =>
      have hno : ¬ jwkMatchesAlgorithm found algorithm = true := by
        intro h
        rw [ensureJwkCompatible_ok.mpr h] at hc
        cases hc
      simp only [context, bind, Except.bind, hc, Option.some.injEq]
      constructor
      · intro h
        cases h
      · intro h
        exact absurd (h.1 ▸ h.2) hno
    | ok u =>
      have hyes := ensureJwkCompatible_ok.mp hc
      simp only [context, bind, Except.bind, hc, pure, Except.pure, Except.ok.injEq,
        Option.some.injEq]
      constructor
      · intro h
        exact ⟨h, h ▸ hyes⟩
      · intro h
        exact h.1

theorem selectJwkForToken_none {jwks : JwkSet} {algorithm : Algorithm} {jwk : Jwk} :
    selectJwkForToken jwks none algorithm = .ok jwk ↔
      jwks.keys.filter (jwkMatchesAlgorithm · algorithm) = [jwk] := by
  simp only [selectJwkForToken]
  split <;> rename_i h <;> simp [h]

theorem selectJwkForToken_compatible {jwks : JwkSet} {kid : Option String} {algorithm : Algorithm}
    {jwk : Jwk} (h : selectJwkForToken jwks kid algorithm = .ok jwk) :
    jwkMatchesAlgorithm jwk algorithm = true := by
  cases kid with
  | some kid => exact (selectJwkForToken_kid.mp h).2
  | none =>
    have hmem : jwk ∈ jwks.keys.filter (jwkMatchesAlgorithm · algorithm) := by
      rw [selectJwkForToken_none.mp h]
      exact List.mem_singleton_self jwk
    exact (List.mem_filter.mp hmem).2

theorem cachedJwksKey_some {cache cache' : JwksKeyCache} {cacheKey : JwksKeyCacheKey}
    {algorithm : Algorithm} {now : Instant} {jwk : Jwk}
    (h : cachedJwksKey cache cacheKey algorithm now = (some jwk, cache')) :
    cache.get cacheKey now = (some jwk, cache') ∧ jwkMatchesAlgorithm jwk algorithm = true := by
  unfold cachedJwksKey at h
  split at h
  · cases h
  · rename_i found after hget
    split at h
    · rename_i hc
      cases h
      exact ⟨hget, ensureJwkCompatible_ok.mp hc⟩
    · cases h

theorem cachedJwksKey_cache (cache : JwksKeyCache) (cacheKey : JwksKeyCacheKey)
    (algorithm : Algorithm) (now : Instant) :
    (cachedJwksKey cache cacheKey algorithm now).2 = (cache.get cacheKey now).2 := by
  unfold cachedJwksKey
  split
  · rename_i h
    rw [h]
  · rename_i h
    split <;> rw [h]

/-! ## The ways a discovery goes -/

theorem fetchJwk_served {env : Environment} {found : Located} {set : JwkSet}
    (h : env.jwks found.client found.jwksUri = .ok set) (algorithm : Algorithm) :
    fetchJwk env found algorithm = selectJwkForToken set found.kid algorithm := by
  simp [fetchJwk, h, Fetch.json, bind, Except.bind]

theorem fetchJwk_ok {env : Environment} {found : Located} {algorithm : Algorithm} {jwk : Jwk} :
    fetchJwk env found algorithm = .ok jwk ↔ ∃ set, env.jwks found.client found.jwksUri = .ok set ∧
      selectJwkForToken set found.kid algorithm = .ok jwk := by
  unfold fetchJwk
  cases env.jwks found.client found.jwksUri with
  | sendFailed | errorStatus | parseFailed => simp [Fetch.json, bind, Except.bind]
  | ok set => simp [Fetch.json, bind, Except.bind]

section Ways

variable {J : JsonWebToken} {env : Environment} {role : RoleConfig} {token : String}
  {algorithm : Algorithm} {w : World} {found : Located} {cache : JwksKeyCache} {jwk : Jwk}
  {e : AuthzooError}

theorem discovery_unlocated (h : locateJwks J env role token = .error e) :
    discoveryDecodingKey J env role token algorithm w = (.error e, w) := by
  simp only [discoveryDecodingKey, h]

theorem discovery_hit (h : locateJwks J env role token = .ok found)
    (hc : cachedJwksKey w.keyCache (.new found.jwksUri found.kid algorithm) algorithm w.now =
      (some jwk, cache)) :
    discoveryDecodingKey J env role token algorithm w =
      (constructDecodingKey J "cached" jwk, w.tick cache) := by
  simp only [discoveryDecodingKey, h, hc]

theorem discovery_unfetched (h : locateJwks J env role token = .ok found)
    (hc : cachedJwksKey w.keyCache (.new found.jwksUri found.kid algorithm) algorithm w.now =
      (none, cache)) (hf : fetchJwk env found algorithm = .error e) :
    discoveryDecodingKey J env role token algorithm w = (.error e, w.tick cache) := by
  simp only [discoveryDecodingKey, h, hc, hf]

theorem discovery_fetched (h : locateJwks J env role token = .ok found)
    (hc : cachedJwksKey w.keyCache (.new found.jwksUri found.kid algorithm) algorithm w.now =
      (none, cache)) (hf : fetchJwk env found algorithm = .ok jwk) :
    discoveryDecodingKey J env role token algorithm w =
      (constructDecodingKey J "discovered" jwk, (w.tick cache).tick
        (cacheJwksKey cache (.new found.jwksUri found.kid algorithm) jwk (w.tick cache).now)) := by
  simp only [discoveryDecodingKey, h, hc, hf, World.tick]

end Ways

/-! ## What a cache key says -/

theorem JwksKeyCacheKey.new_inj {uri uri' : String} {kid kid' : Option String}
    {algorithm algorithm' : Algorithm}
    (h : JwksKeyCacheKey.new uri kid algorithm = JwksKeyCacheKey.new uri' kid' algorithm') :
    uri = uri' ∧ kid = kid' ∧ (kid = none → algorithm = algorithm') := by
  simp only [new, JwksKeyCacheKey.mk.injEq] at h
  obtain ⟨huri, hsel⟩ := h
  refine ⟨huri, ?_⟩
  have hlist := congrArg String.toList hsel
  cases kid with
  | some kid =>
    cases kid' with
    | some kid' =>
      simp only [String.toList_append, List.append_cancel_left_eq] at hlist
      exact ⟨congrArg some (String.toList_inj.mp hlist), nofun⟩
    | none => simp [String.toList_append] at hlist
  | none =>
    cases kid' with
    | some kid' => simp [String.toList_append] at hlist
    | none =>
      simp only [String.toList_append, List.append_cancel_left_eq] at hlist
      exact ⟨rfl, fun _ => Algorithm.debug_inj (String.toList_inj.mp hlist)⟩

end Authzoo
