import Authzoo.Discovery
import Authzoo.KeyCacheLru
import Authzoo.Lib.Base64
import Authzoo.Lib.Outcome

/-!
# Authzoo.DiscoveryFailures

What a failed discovery leaves in the cache. Every failing step of `discovery_decoding_key` but the
last comes before the insertion; the key itself is tried after it. `PublishesUnusable` is the one
way to a new entry in a call that fails (`leavesNothing_of_usable`), and the entry makes the calls
after it fail for as long as it lives, whatever the issuer serves by then (`unusable_persists`).

`Calls` are the histories without such a call: they hold usable keys only.
-/

namespace Authzoo

/-! ## What the operations leave in the cache -/

namespace JwksKeyCache

/-- Every entry of `c` is one of `before`. -/
def Within (c before : JwksKeyCache) : Prop :=
  c.Holds fun key entry => before.entries.lookup key = some entry

theorem get_within (c : JwksKeyCache) (key : JwksKeyCacheKey) (now : Instant) :
    (c.get key now).2.Within c :=
  get_holds (fun _ _ h => h) key now

/-- The entry of an insertion is the most recently used one, and it is not expired. -/
theorem insert_lookup {c : JwksKeyCache} (h : c.Linked) (hcap : 0 < c.capacity) (httl : 0 < c.ttl)
    (key : JwksKeyCacheKey) (jwk : Jwk) (now : Instant) :
    (c.insert key jwk now).entries.lookup key = some ⟨jwk, now + c.ttl⟩ := by
  have hmem := Lru.Cache.mem_insert hcap httl (c.toLru h) key jwk now
  rw [← insert_refines h] at hmem
  exact (mem_slots (insert_linked h key jwk now)).mp hmem

theorem run_ttl (c : JwksKeyCache) (ops : List CacheOp) : (c.run ops).ttl = c.ttl := by
  induction ops generalizing c with
  | nil => rfl
  | cons op ops ih => exact (ih (c.apply op)).trans (apply_settings c op).2

/-- A static cache in a state that some operations have left. -/
def Reachable (c : JwksKeyCache) : Prop :=
  ∃ ops, c = (new jwksKeyCacheCapacity jwksKeyCacheTtl).run ops

namespace Reachable

variable {c : JwksKeyCache}

theorem linked (h : c.Reachable) : c.Linked := by
  obtain ⟨ops, rfl⟩ := h
  exact (run_inv (new_inv _ _) ops).linked

theorem capacity (h : c.Reachable) : c.capacity = jwksKeyCacheCapacity := by
  obtain ⟨ops, rfl⟩ := h
  exact run_capacity _ ops

theorem ttl (h : c.Reachable) : c.ttl = jwksKeyCacheTtl := by
  obtain ⟨ops, rfl⟩ := h
  exact run_ttl _ ops

theorem get (h : c.Reachable) (key : JwksKeyCacheKey) (now : Instant) :
    (c.get key now).2.Reachable := by
  obtain ⟨ops, rfl⟩ := h
  exact ⟨ops ++ [.get key now], by rw [run, run, List.foldl_append]; rfl⟩

end Reachable

end JwksKeyCache

/-- A lookup misses when the entry is absent, expired or not for the algorithm. -/
theorem cachedJwksKey_none {cache : JwksKeyCache} {cacheKey : JwksKeyCacheKey}
    {algorithm : Algorithm} {now : Instant} :
    (cachedJwksKey cache cacheKey algorithm now).1 = none ↔
      ∀ entry, cache.entries.lookup cacheKey = some entry →
        entry.expiresAt ≤ now ∨ jwkMatchesAlgorithm entry.jwk algorithm = false := by
  unfold cachedJwksKey JwksKeyCache.get
  cases cache.entries.lookup cacheKey with
  | none => simp
  | some entry =>
    by_cases hexp : entry.expiresAt ≤ now
    · simp [hexp]
    · cases hm : jwkMatchesAlgorithm entry.jwk algorithm <;>
        simp [hexp, hm, ensureJwkCompatible]

/-! ## The failing steps -/

section

variable (J : JsonWebToken) (env : Environment) (role : RoleConfig) (token : String)
  (algorithm : Algorithm) (w : World)

/-- A failed call leaves no entry that was not there before. -/
def LeavesNothing : Prop :=
  (∃ e, (discoveryDecodingKey J env role token algorithm w).1 = .error e) →
    (discoveryDecodingKey J env role token algorithm w).2.keyCache.Within w.keyCache

def configurationUrl : String :=
  Text.trimEndMatches (· = '/') role.issuer ++ "/.well-known/openid-configuration"

/-- No live entry answers the call, and the key that the issuer serves for it is selected although
no decoding key can be made of it. -/
def PublishesUnusable : Prop :=
  ∃ header client configuration set jwk,
    J.decodeHeader token = some header ∧ discoveryClient env role = .ok client ∧
    env.openidConfiguration client (configurationUrl role) = .ok configuration ∧
    (∀ entry, w.keyCache.entries.lookup (.new configuration.jwksUri header.kid algorithm) =
      some entry → entry.expiresAt ≤ w.now ∨ jwkMatchesAlgorithm entry.jwk algorithm = false) ∧
    env.jwks client configuration.jwksUri = .ok set ∧
    selectJwkForToken set header.kid algorithm = .ok jwk ∧ J.fromJwk jwk = none

end

theorem Fetch.json_ok {α : Type} {what url : String} {fetch : Fetch α} {a : α} :
    fetch.json what url = .ok a ↔ fetch = .ok a := by
  cases fetch <;> simp [Fetch.json]

section

variable {J : JsonWebToken} {env : Environment} {role : RoleConfig} {token : String}
  {algorithm : Algorithm} {w : World} {found : Located}

theorem locateJwks_ok : locateJwks J env role token = .ok found ↔
    ∃ header client configuration, J.decodeHeader token = some header ∧
      discoveryClient env role = .ok client ∧
      env.openidConfiguration client (configurationUrl role) = .ok configuration ∧
      found = ⟨header.kid, client, configuration.jwksUri⟩ := by
  simp only [locateJwks, Outcome.bind_eq_ok, context_ok, Fetch.json_ok, configurationUrl]
  constructor
  · rintro ⟨header, hh, client, hc, configuration, hf, hok⟩
    exact ⟨header, client, configuration, hh, hc, hf, (Except.ok.inj hok).symm⟩
  · rintro ⟨header, client, configuration, hh, hc, hf, rfl⟩
    exact ⟨header, hh, client, hc, configuration, hf, rfl⟩

/-- The condition in the terms of the function's own steps. -/
theorem publishesUnusable_iff : PublishesUnusable J env role token algorithm w ↔
    ∃ found jwk, locateJwks J env role token = .ok found ∧
      (cachedJwksKey w.keyCache (.new found.jwksUri found.kid algorithm) algorithm w.now).1 = none ∧
      fetchJwk env found algorithm = .ok jwk ∧ J.fromJwk jwk = none := by
  simp only [locateJwks_ok, cachedJwksKey_none, fetchJwk_ok]
  constructor
  · rintro ⟨header, client, configuration, set, jwk, hh, hc, hf, hmiss, hset, hsel, hkey⟩
    exact ⟨_, jwk, ⟨header, client, configuration, hh, hc, hf, rfl⟩, hmiss, ⟨set, hset, hsel⟩, hkey⟩
  · rintro ⟨_, jwk, ⟨header, client, configuration, hh, hc, hf, rfl⟩, hmiss, ⟨set, hset, hsel⟩, hkey⟩
    exact ⟨header, client, configuration, set, jwk, hh, hc, hf, hmiss, hset, hsel, hkey⟩

/-- The whole of such a call: it fails, and the key it selected stays. -/
theorem unusable_inserted (hcache : w.keyCache.Reachable) {jwk : Jwk}
    (hloc : locateJwks J env role token = .ok found)
    (hmiss : (cachedJwksKey w.keyCache (.new found.jwksUri found.kid algorithm) algorithm
      w.now).1 = none)
    (hfetch : fetchJwk env found algorithm = .ok jwk) (hkey : J.fromJwk jwk = none) :
    (∃ e, (discoveryDecodingKey J env role token algorithm w).1 = .error e) ∧
    (discoveryDecodingKey J env role token algorithm w).2.keyCache.entries.lookup
      (.new found.jwksUri found.kid algorithm) = some ⟨jwk, w.clock 1 + jwksKeyCacheTtl⟩ := by
  have hl : cachedJwksKey w.keyCache (.new found.jwksUri found.kid algorithm) algorithm w.now =
      (none, (w.keyCache.get (.new found.jwksUri found.kid algorithm) w.now).2) :=
    Prod.ext hmiss (cachedJwksKey_cache _ _ _ _)
  have hmid := hcache.get (.new found.jwksUri found.kid algorithm) w.now
  have hheld := JwksKeyCache.insert_lookup hmid.linked (by rw [hmid.capacity]; decide)
    (by rw [hmid.ttl]; decide) (.new found.jwksUri found.kid algorithm) jwk (w.clock 1)
  rw [hmid.ttl] at hheld
  rw [discovery_fetched hloc hl hfetch, constructDecodingKey, hkey]
  exact ⟨⟨_, rfl⟩, hheld⟩

/-- A call leaves nothing new, or it inserts the key that it fetched after a miss. -/
theorem discoveryDecodingKey_cases :
    (discoveryDecodingKey J env role token algorithm w).2.keyCache.Within w.keyCache ∨
    ∃ found jwk, locateJwks J env role token = .ok found ∧
      (cachedJwksKey w.keyCache (.new found.jwksUri found.kid algorithm) algorithm w.now).1 = none ∧
      fetchJwk env found algorithm = .ok jwk ∧
      (discoveryDecodingKey J env role token algorithm w).1 =
        constructDecodingKey J "discovered" jwk ∧
      (discoveryDecodingKey J env role token algorithm w).2.keyCache =
        (w.keyCache.get (.new found.jwksUri found.kid algorithm) w.now).2.insert
          (.new found.jwksUri found.kid algorithm) jwk (w.clock 1) := by
  cases hloc : locateJwks J env role token with
  | error e =>
    rw [discovery_unlocated hloc]
    exact .inl fun _ _ h => h
  | ok found =>
    have hget := cachedJwksKey_cache w.keyCache (.new found.jwksUri found.kid algorithm) algorithm
      w.now
    have hwithin := JwksKeyCache.get_within w.keyCache (.new found.jwksUri found.kid algorithm) w.now
    cases hl : cachedJwksKey w.keyCache (.new found.jwksUri found.kid algorithm) algorithm w.now with
    | mk result cache =>
      rw [hl] at hget
      obtain rfl : cache = _ := hget
      cases result with
      | some jwk =>
        rw [discovery_hit hloc hl]
        exact .inl hwithin
      | none =>
        cases hf : fetchJwk env found algorithm with
        | error e =>
          rw [discovery_unfetched hloc hl hf]
          exact .inl hwithin
        | ok jwk =>
          rw [discovery_fetched hloc hl hf]
          exact .inr ⟨found, jwk, rfl, by rw [hl], hf, rfl, rfl⟩

theorem constructDecodingKey_error {J : JsonWebToken} {origin : String} {jwk : Jwk} :
    (∃ e, constructDecodingKey J origin jwk = .error e) ↔ J.fromJwk jwk = none := by
  cases h : J.fromJwk jwk <;> simp [constructDecodingKey, context, h]

theorem leavesNothing_of_usable (h : ¬ PublishesUnusable J env role token algorithm w) :
    LeavesNothing J env role token algorithm w := by
  rintro ⟨e, he⟩
  rcases discoveryDecodingKey_cases with hwithin | ⟨found, jwk, hloc, hmiss, hf, hresult, -⟩
  · exact hwithin
  · rw [hresult] at he
    have hkey := constructDecodingKey_error.mp ⟨e, he⟩
    exact absurd (publishesUnusable_iff.mpr ⟨found, jwk, hloc, hmiss, hf, hkey⟩) h

/-- An entry that a call inserts can not have been there: it would have been a hit. -/
theorem not_leavesNothing (hcache : w.keyCache.Reachable) (hclock : w.clock 0 ≤ w.clock 1)
    (h : PublishesUnusable J env role token algorithm w) :
    ¬ LeavesNothing J env role token algorithm w := by
  obtain ⟨found, jwk, hloc, hmiss, hfetch, hkey⟩ := publishesUnusable_iff.mp h
  obtain ⟨herror, hheld⟩ := unusable_inserted hcache hloc hmiss hfetch hkey
  intro hleaves
  have hbefore := hleaves herror _ _ hheld
  obtain ⟨set, -, hsel⟩ := fetchJwk_ok.mp hfetch
  rcases cachedJwksKey_none.mp hmiss _ hbefore with hexpired | hother
  · have hlive : w.now < w.clock 1 + jwksKeyCacheTtl :=
      Nat.lt_of_le_of_lt hclock (Nat.lt_add_of_pos_right (by decide))
    exact absurd hexpired (Nat.not_le.mpr hlive)
  · rw [selectJwkForToken_compatible hsel] at hother
    cases hother

/-! ## The calls after it -/

/-- Until the entry expires, every call for the same key fails, whatever is served by then. -/
theorem unusable_persists (hcache : w.keyCache.Reachable) {jwk : Jwk}
    (hloc : locateJwks J env role token = .ok found)
    (hmiss : (cachedJwksKey w.keyCache (.new found.jwksUri found.kid algorithm) algorithm
      w.now).1 = none)
    (hfetch : fetchJwk env found algorithm = .ok jwk) (hkey : J.fromJwk jwk = none)
    {env' : Environment} {role' : RoleConfig} {token' : String} {found' : Located} {w' : World}
    (hloc' : locateJwks J env' role' token' = .ok found') (huri : found'.jwksUri = found.jwksUri)
    (hkid : found'.kid = found.kid)
    (hafter : w'.keyCache = (discoveryDecodingKey J env role token algorithm w).2.keyCache)
    (hlive : w'.now < w.clock 1 + jwksKeyCacheTtl) :
    ∃ e, (discoveryDecodingKey J env' role' token' algorithm w').1 = .error e := by
  obtain ⟨-, hheld⟩ := unusable_inserted hcache hloc hmiss hfetch hkey
  obtain ⟨set, -, hsel⟩ := fetchJwk_ok.mp hfetch
  rw [← hafter, ← huri, ← hkid] at hheld
  obtain ⟨cache, hhit⟩ : ∃ cache, cachedJwksKey w'.keyCache
      (.new found'.jwksUri found'.kid algorithm) algorithm w'.now = (some jwk, cache) := by
    simp [cachedJwksKey, JwksKeyCache.get, hheld, Nat.not_le.mpr hlive, ensureJwkCompatible,
      selectJwkForToken_compatible hsel]
  rw [discovery_hit hloc' hhit, constructDecodingKey, hkey]
  exact ⟨_, rfl⟩

end

/-! ## Histories without such a call -/

/-- The worlds that calls can reach of which none publishes an unusable key. -/
inductive Calls (J : JsonWebToken) : World → Prop where
  | start (clock : Nat → Instant) : Calls J (.start clock)
  | call {w : World} (env : Environment) (role : RoleConfig) (token : String)
      (algorithm : Algorithm) (h : Calls J w)
      (husable : ¬ PublishesUnusable J env role token algorithm w) :
      Calls J (discoveryDecodingKey J env role token algorithm w).2

/-- A decoding key can be made of every cached JWK. -/
def HoldsUsable (J : JsonWebToken) (cache : JwksKeyCache) : Prop :=
  cache.Holds fun _ entry => J.fromJwk entry.jwk ≠ none

theorem holdsUsable_call {J : JsonWebToken} {env : Environment} {role : RoleConfig} {token : String}
    {algorithm : Algorithm} {w : World} (h : HoldsUsable J w.keyCache)
    (husable : ¬ PublishesUnusable J env role token algorithm w) :
    HoldsUsable J (discoveryDecodingKey J env role token algorithm w).2.keyCache := by
  rcases discoveryDecodingKey_cases with hwithin | ⟨found, jwk, hloc, hmiss, hf, -, hafter⟩
  · intro key entry he
    exact h key entry (hwithin key entry he)
  · rw [hafter]
    refine JwksKeyCache.insert_holds (JwksKeyCache.get_holds h _ _) ?_
    intro hkey
    exact husable (publishesUnusable_iff.mpr ⟨found, jwk, hloc, hmiss, hf, hkey⟩)

theorem Calls.holdsUsable {J : JsonWebToken} {w : World} (h : Calls J w) :
    HoldsUsable J w.keyCache := by
  induction h with
  | start clock => exact fun key entry he => by cases he
  | call env role token algorithm _ husable ih => exact holdsUsable_call ih husable

/-- Over usable entries, a call for which the issuer serves a usable key succeeds. -/
theorem discovery_succeeds {J : JsonWebToken} {env : Environment} {role : RoleConfig} {token : String}
    {algorithm : Algorithm} {w : World} (h : HoldsUsable J w.keyCache) {found : Located} {jwk : Jwk}
    (hloc : locateJwks J env role token = .ok found) (hf : fetchJwk env found algorithm = .ok jwk)
    (hkey : J.fromJwk jwk ≠ none) :
    ∃ key, (discoveryDecodingKey J env role token algorithm w).1 = .ok key := by
  have hbuilds : ∀ origin built, J.fromJwk built ≠ none →
      ∃ key, constructDecodingKey J origin built = .ok key := by
    intro origin built hbuilt
    obtain ⟨key, hkey⟩ := Option.ne_none_iff_exists'.mp hbuilt
    exact ⟨key, context_ok.mpr hkey⟩
  cases hl : cachedJwksKey w.keyCache (.new found.jwksUri found.kid algorithm) algorithm w.now with
  | mk result cache =>
    cases result with
    | some cached =>
      obtain ⟨entry, he, rfl, -⟩ := JwksKeyCache.get_some (by rw [(cachedJwksKey_some hl).1])
      rw [discovery_hit hloc hl]
      exact hbuilds _ _ (h _ entry he)
    | none =>
      rw [discovery_fetched hloc hl hf]
      exact hbuilds _ _ hkey

/-- The calls for the role and token that come next succeed once the issuer serves a usable key. -/
def Recovers (J : JsonWebToken) (env : Environment) (role : RoleConfig) (token : String)
    (algorithm : Algorithm) (w : World) : Prop :=
  ∀ env' w' found jwk,
    w'.keyCache = (discoveryDecodingKey J env role token algorithm w).2.keyCache →
    locateJwks J env' role token = .ok found → fetchJwk env' found algorithm = .ok jwk →
    J.fromJwk jwk ≠ none →
      ∃ key, (discoveryDecodingKey J env' role token algorithm w').1 = .ok key

/-- **When a failure leaves nothing behind.** From every reachable cache state, exactly the calls that
select an unusable key from what the issuer serves fail and leave a new entry. In a history without
such calls the next call takes up whatever usable key the issuer serves by then. -/
theorem failed_discovery_iff (J : JsonWebToken) (env : Environment) (role : RoleConfig)
    (token : String) (algorithm : Algorithm) (w : World) (hcache : w.keyCache.Reachable)
    (hclock : w.clock 0 ≤ w.clock 1) :
    (LeavesNothing J env role token algorithm w ↔
      ¬ PublishesUnusable J env role token algorithm w) ∧
    (Calls J w → ¬ PublishesUnusable J env role token algorithm w →
      Recovers J env role token algorithm w) := by
  refine ⟨⟨?_, leavesNothing_of_usable⟩, ?_⟩
  · intro hleaves hunusable
    exact not_leavesNothing hcache hclock hunusable hleaves
  · intro hcalls husable env' w' found jwk hafter hloc hf hkey
    have hholds := holdsUsable_call hcalls.holdsUsable husable
    rw [← hafter] at hholds
    exact discovery_succeeds hholds hloc hf hkey

/-! ## A malformed modulus -/

def builderToken : JsonWebToken.Signed where
  token := "eyJhbGciOiJSUzI1NiIsImtpZCI6Im9uZSJ9.eyJzdWIiOiJidWlsZGVyIn0.c2ln"
  header := { alg := .rs256, kid := some "one" }
  payload := .obj [("sub", .str "builder")]
  secret := "sXch.AQAB"

/-- The crate with its reading of RSA JWKs, whose components are base64url. -/
def rsaCrate : JsonWebToken :=
  { JsonWebToken.known [builderToken] with
    fromJwk := fun jwk =>
      match jwk.algorithm with
      | .rsa n e =>
        if n.toList.all Base64.isDigit && e.toList.all Base64.isDigit then some (n ++ "." ++ e)
        else none
      | _ => none }

def discoveredRole : RoleConfig :=
  { name := "deploy", audience := "https://api.example", issuer := "https://issuer.example"
    validationKey := none, algorithms := [.rs256], claims := ∅ }

/-- The issuer's key with a modulus. -/
def issuerJwk (n : String) : Jwk := ⟨⟨some .signature, some .rs256, some "one"⟩, .rsa n "AQAB"⟩

def issuerServes (n : String) : Environment :=
  { Environment.offline with
    openidConfiguration := fun _ _ => .ok ⟨"https://issuer.example/jwks"⟩
    jwks := fun _ _ => .ok ⟨[issuerJwk n]⟩ }

/-- A process whose clock moves by one at each reading. -/
def startedWorld : World := .start id

theorem startedWorld_reachable : startedWorld.keyCache.Reachable := ⟨[], rfl⟩

/-- After a call that cached the issuer's key. -/
def filledWorld : World :=
  (discoveryDecodingKey rsaCrate (issuerServes "sXch") discoveredRole builderToken.token .rs256
    startedWorld).2

theorem filledWorld_reachable : filledWorld.keyCache.Reachable :=
  ⟨[.get (.new "https://issuer.example/jwks" (some "one") .rs256) 0,
    .insert (.new "https://issuer.example/jwks" (some "one") .rs256) (issuerJwk "sXch") 1], rfl⟩

/-- The issuer names another `jwks_uri`, which refuses the request. -/
def issuerRefuses : Environment :=
  { Environment.offline with
    openidConfiguration := fun _ _ => .ok ⟨"https://issuer.example/keys"⟩
    jwks := fun _ _ => .errorStatus }

/-- A call that fails over a filled cache leaves what was there. -/
theorem failed_discovery_iff_refused :
    (discoveryDecodingKey rsaCrate issuerRefuses discoveredRole builderToken.token .rs256
      filledWorld).1 =
      .error (.other "JWKS request to 'https://issuer.example/keys' returned an error status") ∧
    filledWorld.keyCache.entries.lookup (.new "https://issuer.example/jwks" (some "one") .rs256) =
      some ⟨issuerJwk "sXch", 1 + jwksKeyCacheTtl⟩ ∧
    (discoveryDecodingKey rsaCrate issuerRefuses discoveredRole builderToken.token .rs256
      filledWorld).2.keyCache.Within filledWorld.keyCache := by
  have hfailed : (discoveryDecodingKey rsaCrate issuerRefuses discoveredRole builderToken.token .rs256
      filledWorld).1 =
      .error (.other "JWKS request to 'https://issuer.example/keys' returned an error status") := by
    rfl
  refine ⟨hfailed, by decide, (failed_discovery_iff rsaCrate issuerRefuses discoveredRole
    builderToken.token .rs256 filledWorld filledWorld_reachable (by decide)).1.mpr ?_ ⟨_, hfailed⟩⟩
  rw [publishesUnusable_iff]
  rintro ⟨found, jwk, hloc, -, hfetch, -⟩
  cases hloc
  cases hfetch

/-- The modulus is published with a letter outside the alphabet and then corrected under the same
`kid`: discovery from an empty cache would succeed, but the call fails with the cached key. -/
theorem failed_discovery_outlasts_correction :
    let failed := discoveryDecodingKey rsaCrate (issuerServes "sXch*") discoveredRole
      builderToken.token .rs256 startedWorld
    failed.1 = .error (.other "failed to construct decoding key from discovered JWK 'one'") ∧
    failed.2.keyCache.entries.lookup (.new "https://issuer.example/jwks" (some "one") .rs256) =
      some ⟨issuerJwk "sXch*", 1 + jwksKeyCacheTtl⟩ ∧
    (discoveryDecodingKey rsaCrate (issuerServes "sXch") discoveredRole builderToken.token .rs256
      failed.2).1 = .error (.other "failed to construct decoding key from cached JWK 'one'") ∧
    (discoveryDecodingKey rsaCrate (issuerServes "sXch") discoveredRole builderToken.token .rs256
      startedWorld).1 = .ok "sXch.AQAB" ∧
    ¬ ∀ (J : JsonWebToken) (env : Environment) (role : RoleConfig) (token : String)
        (algorithm : Algorithm) (w : World), w.keyCache.Reachable →
        (∀ n, w.clock n ≤ w.clock (n + 1)) → LeavesNothing J env role token algorithm w := by
  intro failed
  have herror : failed.1 =
      .error (.other "failed to construct decoding key from discovered JWK 'one'") := rfl
  have hheld : failed.2.keyCache.entries.lookup
      (.new "https://issuer.example/jwks" (some "one") .rs256) =
        some ⟨issuerJwk "sXch*", 1 + jwksKeyCacheTtl⟩ := by decide
  refine ⟨herror, hheld, rfl, rfl, ?_⟩
  intro hclaim
  have hbefore := hclaim rsaCrate (issuerServes "sXch*") discoveredRole builderToken.token .rs256
    startedWorld startedWorld_reachable (fun n => Nat.le_succ n) ⟨_, herror⟩ _ _ hheld
  cases hbefore

end Authzoo
