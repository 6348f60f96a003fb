import Authzoo.Effects
import Authzoo.Issued

/-!
# Authzoo.Rotation

Issuers that change their keys. Over a history of calls hosts may answer anything at any time; what
a call does to the cache is a sequence of `World.Step`s.

* `rotation_transparent` : the cache changes no answer for a token with a `kid`, as long as the issuer
  never gave this `kid` to another key.
* `minted_accepted_after_rotation` : so tokens of `authzoo-oauth` are accepted across rotations exactly
  when their grant justifies it.
* `withdrawn_key_refused` : a key that is no longer published is refused one TTL later.
-/

namespace Authzoo

/-! ## What a call does to the cache -/

/-- A look-up, or the insertion of a key selected from an answer, each at a reading of the clock. -/
inductive World.Step (env : Environment) : World → World → Prop where
  | lookup {w : World} (key : JwksKeyCacheKey) (algorithm : Algorithm) :
      Step env w (w.tick (cachedJwksKey w.keyCache key algorithm w.now).2)
  | insert {w : World} {client : DiscoveryClient} {uri : String} {set : JwkSet}
      {kid : Option String} {algorithm : Algorithm} {jwk : Jwk}
      (hserved : env.jwks client uri = .ok set)
      (hselect : selectJwkForToken set kid algorithm = .ok jwk) :
      Step env w (w.tick (cacheJwksKey w.keyCache (.new uri kid algorithm) jwk w.now))

def World.Steps (env : Environment) : World → World → Prop := Relation.ReflTransGen (World.Step env)

section

variable {J : JsonWebToken} {env : Environment}

theorem discovery_steps (role : RoleConfig) (token : String) (algorithm : Algorithm) (w : World) :
    World.Steps env w (discoveryDecodingKey J env role token algorithm w).2 := by
  cases hlocate : locateJwks J env role token with
  | error e =>
    rw [discovery_unlocated hlocate]
    exact .refl
  | ok found =>
    have hlookup : World.Steps env w (w.tick (cachedJwksKey w.keyCache
        (.new found.jwksUri found.kid algorithm) algorithm w.now).2) := .single (.lookup _ _)
    cases hl : cachedJwksKey w.keyCache (.new found.jwksUri found.kid algorithm) algorithm w.now with
    | mk result cache =>
      rw [hl] at hlookup
      cases result with
      | some jwk =>
        rw [discovery_hit hlocate hl]
        exact hlookup
      | none =>
        cases hfetch : fetchJwk env found algorithm with
        | error e =>
          rw [discovery_unfetched hlocate hl hfetch]
          exact hlookup
        | ok jwk =>
          obtain ⟨set, hserved, hselect⟩ := fetchJwk_ok.mp hfetch
          rw [discovery_fetched hlocate hl hfetch]
          exact hlookup.tail (.insert hserved hselect)

theorem token_steps (now : Nat) (role : RoleConfig) (token : String) (w : World) :
    World.Steps env w (validateTokenForRole J env now role token w).2 := by
  unfold validateTokenForRole resolvingDecodingKey
  cases J.decodeHeader token with
  | none => exact .refl
  | some header =>
    by_cases hallow : role.allowsAlgorithm header.alg = true
    · have hsteps : World.Steps env w
          (discoveryDecodingKey J env role token header.alg w).2 := discovery_steps ..
      simp only [hallow, if_true]
      cases role.validationKey with
      | some validationKey =>
        dsimp only
        cases decodingKeyForAlgorithm J validationKey header.alg with
        | error e | ok key => exact .refl
      | none =>
        dsimp only
        cases hd : discoveryDecodingKey J env role token header.alg w with
        | mk result w' =>
          rw [hd] at hsteps
          cases result with
          | error e | ok key => exact hsteps
    · simp only [hallow]
      exact .refl

theorem roles_steps (now : Nat) (token : String) (roles : List (String × RoleConfig)) :
    ∀ w : World, World.Steps env w (TokenValidator.validateRoles J env now token roles w).2 := by
  induction roles with
  | nil => exact fun w => .refl
  | cons head roles ih =>
    intro w
    obtain ⟨name, role⟩ := head
    have hsteps : World.Steps env w (validateTokenForRole J env now role token w).2 :=
      token_steps ..
    simp only [TokenValidator.validateRoles]
    cases hv : validateTokenForRole J env now role token w with
    | mk result w' =>
      rw [hv] at hsteps
      cases result with
      | error e | ok c => exact hsteps.trans (ih w')

end

theorem Call.run_steps (J : JsonWebToken) (call : Call) (w : World) :
    World.Steps call.env w (call.run J w) := by
  unfold Call.run TokenValidator.validateForRole
  cases call.roleName with
  | none => exact roles_steps call.now call.token call.validator.roles.toList w
  | some roleName =>
    dsimp only
    cases call.validator.roles[roleName]? with
    | none => exact .refl
    | some role => exact token_steps call.now role call.token w

theorem World.Steps.keeps {env : Environment} {I : World → Prop}
    (h : ∀ w w', I w → World.Step env w w' → I w') {w w' : World} (hsteps : World.Steps env w w')
    (hw : I w) : I w' := by
  induction hsteps with
  | refl => exact hw
  | tail _ hstep hmid => exact h _ _ hmid hstep

/-- What every step of every call keeps, every history keeps. -/
theorem history_keeps {J : JsonWebToken} {I : World → Prop} {history : List Call}
    (h : ∀ call ∈ history, ∀ w w', I w → World.Step call.env w w' → I w') {w : World} (hw : I w) :
    I (history.foldl (Call.run J) w) := by
  induction history generalizing w with
  | nil => exact hw
  | cons call history ih =>
    exact ih (fun c hc => h c (List.mem_cons_of_mem _ hc))
      ((call.run_steps J w).keeps (h call List.mem_cons_self) hw)

/-! ## Entries of one `kid` -/

/-- What is cached for the URI and the `kid`, under whatever algorithm, satisfies `P`. -/
def World.Caches (uri kid : String) (P : CachedJwksKey → Prop) (w : World) : Prop :=
  w.keyCache.Holds fun key entry => ∀ algorithm, key = .new uri (some kid) algorithm → P entry

theorem start_caches (uri kid : String) (P : CachedJwksKey → Prop) (clock : Nat → Instant) :
    (World.start clock).Caches uri kid P := by
  intro key entry h
  cases h

/-- Only a key set with this `kid` can put something there. -/
theorem step_caches {env : Environment} {uri kid : String} {P : CachedJwksKey → Prop} {w w' : World}
    (hw : w.Caches uri kid P) (hstep : World.Step env w w')
    (hnew : ∀ client set jwk, env.jwks client uri = .ok set → set.find kid = some jwk →
      P ⟨jwk, w.now + w.keyCache.ttl⟩) : w'.Caches uri kid P := by
  cases hstep with
  | lookup key algorithm =>
    intro k entry hentry
    rw [World.tick, cachedJwksKey_cache] at hentry
    exact JwksKeyCache.get_holds hw key w.now k entry hentry
  | @insert client uri' set kid' algorithm jwk hserved hselect =>
    refine JwksKeyCache.insert_holds hw fun algorithm' hkey => ?_
    obtain ⟨rfl, rfl, -⟩ := JwksKeyCacheKey.new_inj hkey
    exact hnew client set jwk hserved (selectJwkForToken_kid.mp hselect).1

/-! ## Stable `kid`s -/

/-- The answer gives the key for the `kid`. -/
def Fetch.Binds (answer : Fetch JwkSet) (kid : String) (jwk : Jwk) : Prop :=
  ∃ set, answer = .ok set ∧ set.find kid = some jwk

/-- With a `kid` whose cached keys are what the issuer publishes now, discovery answers as it does
without a cache. -/
theorem discovery_bound {J : JsonWebToken} {env : Environment} {role : RoleConfig} {token : String}
    {w : World} {found : Located} {kid : String} (hlocate : locateJwks J env role token = .ok found)
    (hkid : found.kid = some kid) (hw : w.Caches found.jwksUri kid fun entry =>
      (env.jwks found.client found.jwksUri).Binds kid entry.jwk) (algorithm : Algorithm) :
    (discoveryDecodingKey J env role token algorithm w).1.toOption =
      directDecodingKey J env role token algorithm := by
  rw [directDecodingKey_located hlocate]
  cases hl : cachedJwksKey w.keyCache (.new found.jwksUri found.kid algorithm) algorithm w.now with
  | mk result cache =>
    cases result with
    | some jwk =>
      obtain ⟨hget, hcompat⟩ := cachedJwksKey_some hl
      obtain ⟨entry, hentry, rfl, -⟩ := JwksKeyCache.get_some (by rw [hget])
      obtain ⟨set, hserved, hfind⟩ := hw _ _ hentry algorithm (by rw [hkid])
      rw [discovery_hit hlocate hl, fetchJwk_served hserved, hkid,
        selectJwkForToken_kid.mpr ⟨hfind, hcompat⟩]
      exact context_toOption
    | none =>
      cases hfetch : fetchJwk env found algorithm with
      | error e =>
        rw [discovery_unfetched hlocate hl hfetch]
        rfl
      | ok jwk =>
        rw [discovery_fetched hlocate hl hfetch]
        exact context_toOption

theorem locateJwks_kid {J : JsonWebToken} {env : Environment} {role : RoleConfig} {token : String}
    {found : Located} (h : locateJwks J env role token = .ok found) :
    ∃ header, J.decodeHeader token = some header ∧ found.kid = header.kid := by
  unfold locateJwks at h
  simp only [Outcome.bind_eq_ok] at h
  obtain ⟨header, hheader, client, -, config, -, hok⟩ := h
  obtain rfl := Except.ok.inj hok
  exact ⟨header, context_ok.mp hheader, rfl⟩

/-- The world's key for the role's tokens is the one that the issuer publishes. -/
theorem token_direct {J : JsonWebToken} {env : Environment} (now : Nat) {role : RoleConfig}
    {token : String} {w : World}
    (h : ∀ algorithm, (discoveryDecodingKey J env role token algorithm w).1.toOption =
      directDecodingKey J env role token algorithm) :
    (validateTokenForRole J env now role token w).1.toOption = directForRole J env now role token := by
  unfold validateTokenForRole directForRole
  cases J.decodeHeader token with
  | none => rfl
  | some header =>
    by_cases hallow : role.allowsAlgorithm header.alg = true
    · have hkey : (resolvingDecodingKey J env role token header.alg w).1.toOption =
          directResolvingKey J env role token header.alg := by
        unfold resolvingDecodingKey directResolvingKey
        cases role.validationKey with
        | some validationKey => rfl
        | none => exact h header.alg
      simp only [hallow, if_true, Option.bind_eq_bind, Option.bind_some, ← hkey]
      cases resolvingDecodingKey J env role token header.alg w with
      | mk result w' =>
        cases result with
        | error e | ok key => rfl
    · simp only [hallow, Option.bind_eq_bind, Option.bind_some]
      rfl

/-- No key that was ever answered for the `kid`, under the URI that the issuer names now, differs from
the one that is published. -/
def KidStable (J : JsonWebToken) (history : List Call) (env : Environment) (role : RoleConfig)
    (token kid : String) : Prop :=
  ∀ found, locateJwks J env role token = .ok found →
    ∀ call ∈ history, ∀ client jwk, (call.env.jwks client found.jwksUri).Binds kid jwk →
      (env.jwks found.client found.jwksUri).Binds kid jwk

theorem history_direct {J : JsonWebToken} (history : List Call) {env : Environment} (now : Nat)
    {role : RoleConfig} {token kid : String} {algorithm : Algorithm}
    (hheader : J.decodeHeader token = some ⟨algorithm, some kid⟩)
    (hstable : KidStable J history env role token kid) (clock : Nat → Instant) :
    (validateTokenForRole J env now role token
        (history.foldl (Call.run J) (World.start clock))).1.toOption =
      directForRole J env now role token := by
  refine token_direct now fun algorithm => ?_
  cases hlocate : locateJwks J env role token with
  | error e =>
    rw [discovery_unlocated hlocate]
    simp only [directDecodingKey, hlocate]
    rfl
  | ok found =>
    have hkid : found.kid = some kid := by
      obtain ⟨header, hdecoded, hkid⟩ := locateJwks_kid hlocate
      rw [hheader] at hdecoded
      cases hdecoded
      exact hkid
    refine discovery_bound hlocate hkid (history_keeps ?_ (start_caches _ _ _ clock)) algorithm
    intro call hmem w w' hw hstep
    exact step_caches hw hstep fun client set jwk hserved hfind =>
      hstable found hlocate call hmem client jwk ⟨set, hserved, hfind⟩

/-- **Transparent under rotation.** Whatever the hosts answered before, and however the issuer's key
set changed, `validate_for_role` has the outcome that it has with an empty cache for every token
whose `kid` was never given to another key. -/
theorem rotation_transparent (J : JsonWebToken) (history : List Call) (env : Environment) (now : Nat)
    (v : TokenValidator) (roleName token kid : String) (algorithm : Algorithm)
    (hheader : J.decodeHeader token = some ⟨algorithm, some kid⟩)
    (hstable : ∀ role, v.roles[roleName]? = some role → KidStable J history env role token kid)
    (clock fresh : Nat → Instant) :
    (v.validateForRole J env now roleName token
        (history.foldl (Call.run J) (World.start clock))).1.toOption =
      (v.validateForRole J env now roleName token (World.start fresh)).1.toOption := by
  unfold TokenValidator.validateForRole
  cases hrole : v.roles[roleName]? with
  | none => rfl
  | some role =>
    dsimp only
    rw [history_direct history now hheader (hstable role hrole) clock]
    exact (history_direct [] now hheader nofun fresh).symm

/-! ## Withdrawn keys -/

namespace Oauth

theorem Publishes.bound {S : SigningCrates} {env : Environment} {role : RoleConfig} {key : SigningKey}
    {kid : String} {der : List UInt8} (h : Publishes env role key)
    (hkey : SigningKey.fromPkcs8 S kid der = .ok key) :
    ∃ client uri jwk, discoveryClient env role = .ok client ∧
      env.openidConfiguration client (openidConfigurationUrl role) = .ok ⟨uri⟩ ∧
      (env.jwks client uri).Binds key.kid jwk ∧ key.publicJwk.read = some jwk := by
  obtain ⟨client, uri, set, jwk, hclient, hconfig, hserved, hread, hin, honly⟩ := h
  obtain ⟨x, y, jwk', -, hread', hcommon, -⟩ := fromPkcs8_ok hkey
  rw [hread] at hread'
  obtain rfl := Option.some.inj hread'
  have hkid : jwk.common.keyId = some key.kid := by rw [hcommon]
  refine ⟨client, uri, jwk, hclient, hconfig, ⟨set, hserved, ?_⟩, hread⟩
  cases hfind : set.find key.kid with
  | none => exact absurd hkid (by simpa using List.find?_eq_none.mp hfind jwk hin)
  | some other =>
    have hother : other.common.keyId = some key.kid := by simpa using List.find?_some hfind
    rw [honly other (List.mem_of_find?_eq_some hfind) hother]

/-- **Accepted across rotations.** Key sets may have changed in any way before, as long as the
issuer never gave the signing key's `kid` to another key: a minted token is accepted exactly when its
grant justifies it, up to the end of its lifetime and the leeway. -/
theorem minted_accepted_after_rotation (J : JsonWebToken) (S : SigningCrates) (key : SigningKey)
    (issuer : TokenIssuer) (principal : Principal) (request : AccessTokenRequest)
    (now expiresAt : DateTime) (token : String) (env : Environment) (role : RoleConfig)
    (fresh clock : Nat → Instant)
    (h : Presented J S key issuer principal request now expiresAt token env role (World.start fresh))
    (history : List Call)
    (hstable : ∀ client uri, discoveryClient env role = .ok client →
      env.openidConfiguration client (openidConfigurationUrl role) = .ok ⟨uri⟩ →
      ∀ call ∈ history, ∀ client' jwk, (call.env.jwks client' uri).Binds key.kid jwk →
        key.publicJwk.read = some jwk)
    (v : TokenValidator) (roleName : String) (hrole : v.roles[roleName]? = some role) (tau : Nat) :
    (∃ c, (v.validateForRole J env tau roleName token
        (history.foldl (Call.run J) (World.start clock))).1 = .ok c) ↔
      0 ≤ min expiresAt.timestamp (now.timestamp + 3600) ∧
      (tau : Int) ≤ min expiresAt.timestamp (now.timestamp + 3600) + (role.validation .es256).leeway ∧
      ∀ (name : String) (requirement : ClaimRequirement), role.claims[name]? = some requirement →
        ∃ a ∈ requirement.acceptable, Justified principal request name a := by
  obtain ⟨kid, der, hkey⟩ := h.loaded
  obtain ⟨jti, hmint⟩ := h.minted
  obtain ⟨limit, -, hencode⟩ := mint_ok hmint
  have hheader : J.decodeHeader token = some ⟨.es256, some key.kid⟩ := h.signing.header hencode
  have hkid : KidStable J history env role token key.kid := by
    intro found hlocate call hmem client jwk hbinds
    obtain ⟨hclient, hconfig⟩ := locateJwks_of hlocate
    obtain ⟨client', uri', jwk', hclient', hconfig', hbinds', hread'⟩ := h.published.bound hkey
    rw [hclient] at hclient'
    obtain rfl := Except.ok.inj hclient'
    rw [hconfig] at hconfig'
    cases hconfig'
    have hread := hstable _ _ hclient hconfig call hmem client jwk hbinds
    rw [hread'] at hread
    rwa [Option.some.inj hread] at hbinds'
  have hsame := (history_direct history tau hheader hkid clock).trans
    (history_direct [] tau hheader nofun fresh).symm
  rw [← h.accepted_iff tau, ← toOption_isSome, ← toOption_isSome]
  simp only [TokenValidator.validateForRole, hrole]
  exact iff_of_eq (congrArg (·.isSome = true) hsame)

/-! ## A rotation -/

def toolsCrate : JsonWebToken := verifyingCrate (toolsClaims 1700003600 1700000000) toolsToken

def toolsCall (keys : List Authzoo.Jwk) : Call :=
  { env := { idfrogEnvironment with jwks := fun _ _ => .ok ⟨keys⟩ }, now := 1700000000
    validator := toolsValidator, roleName := some "tools", token := toolsToken }

/-- The key before the rotation. -/
def previousJwk : Authzoo.Jwk :=
  { readJwk with common := ⟨some .signature, some .es256, some "previous-key"⟩ }

theorem toolsCrate_header :
    toolsCrate.decodeHeader toolsToken = some ⟨.es256, some "configured-key"⟩ := by
  dsimp only [toolsCrate, verifyingCrate]
  exact JsonWebToken.known_header (signedToken (toolsClaims 1700003600 1700000000) toolsToken)

theorem toolsValidator_tools : toolsValidator.roles["tools"]? = some toolsRole :=
  TokenValidator.roles_add (by decide)

/-- The key sets that were served before the previous key was withdrawn. -/
def rotatedKeys : List (List Authzoo.Jwk) := [[previousJwk], [previousJwk, readJwk]]

/-- Both keep to one key of the `kid`. -/
theorem rotatedKeys_bound {keys : List Authzoo.Jwk} (hkeys : keys ∈ rotatedKeys)
    {client : DiscoveryClient} {uri : String} {jwk : Authzoo.Jwk}
    (hbinds : ((toolsCall keys).env.jwks client uri).Binds "configured-key" jwk) : jwk = readJwk := by
  obtain ⟨set, hserved, hfind⟩ := hbinds
  cases hserved
  simp only [rotatedKeys, List.mem_cons, List.not_mem_nil, or_false] at hkeys
  rcases hkeys with rfl | rfl
  · cases hfind
  · exact (Option.some.inj hfind).symm

/-- The key is in the cache when the previous one is withdrawn, and no token is answered otherwise
for it. -/
theorem rotation_transparent_tools :
    let w := (rotatedKeys.map toolsCall).foldl (Call.run toolsCrate) (World.start id)
    (cachedJwksKey w.keyCache (.new "https://idfrog.example/jwks.json" (some "configured-key") .es256)
        .es256 w.now).1 = some readJwk ∧
      (toolsValidator.validateForRole toolsCrate idfrogEnvironment 1700000000 "tools" toolsToken
          w).1.toOption =
        (toolsValidator.validateForRole toolsCrate idfrogEnvironment 1700000000 "tools" toolsToken
          (World.start id)).1.toOption := by
  refine ⟨by decide +kernel, rotation_transparent toolsCrate _ _ _ _ _ _ "configured-key" .es256
    toolsCrate_header ?_ _ _⟩
  intro role _ found _ call hcall client jwk hbinds
  obtain ⟨keys, hkeys, rfl⟩ := List.mem_map.mp hcall
  obtain rfl := rotatedKeys_bound hkeys hbinds
  exact ⟨⟨[readJwk]⟩, rfl, rfl⟩

/-- The token of a member is accepted after the rotation as before. -/
theorem minted_accepted_after_rotation_member :
    ∃ c, (toolsValidator.validateForRole toolsCrate idfrogEnvironment 1700003660 "tools" toolsToken
      ((rotatedKeys.map toolsCall).foldl (Call.run toolsCrate) (World.start id))).1 = .ok c := by
  refine (minted_accepted_after_rotation _ _ _ _ _ _ _ _ _ _ _ _ _
    (tools_presented toolsToken_minted) _ ?_ toolsValidator "tools" toolsValidator_tools
    1700003660).mpr ⟨by decide, by decide, fun _ _ h => toolsRole_justified h⟩
  intro client uri _ _ call hcall client' jwk hbinds
  obtain ⟨keys, hkeys, rfl⟩ := List.mem_map.mp hcall
  obtain rfl := rotatedKeys_bound hkeys hbinds
  rfl

end Oauth

end Authzoo
