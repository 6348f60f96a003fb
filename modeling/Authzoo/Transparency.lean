import Authzoo.Binding

/-!
# Authzoo.Transparency

The key cache changes no answer. `directForRole` decides a token without a cache; `Sound` says that
every entry is what the selection from its key set gives, under whatever algorithm it was made. Each
operation keeps `Sound` and answers as `directForRole` does, so any history of calls leaves the
answers of an empty cache.

* `SelectedFrom.reuse` : an entry found for another algorithm is reused only where the selection
  would give it again.
* `validate_direct` : the roles a token may assume, as a filter of the configured roles.
-/

namespace Authzoo

/-! ## Deciding without a cache -/

section

variable (J : JsonWebToken) (env : Environment) (now : Nat)

def directDecodingKey (role : RoleConfig) (token : String) (algorithm : Algorithm) :
    Option J.DecodingKey := do
  let found ← (locateJwks J env role token).toOption
  let jwk ← (fetchJwk env found algorithm).toOption
  J.fromJwk jwk

def directResolvingKey (role : RoleConfig) (token : String) (algorithm : Algorithm) :
    Option J.DecodingKey :=
  match role.validationKey with
  | some validationKey => (decodingKeyForAlgorithm J validationKey algorithm).toOption
  | none => directDecodingKey J env role token algorithm

def directForRole (role : RoleConfig) (token : String) : Option ValidatedClaims := do
  let header ← J.decodeHeader token
  if role.allowsAlgorithm header.alg then
    let key ← directResolvingKey J env role token header.alg
    (decodeForRole J now role token header.alg key).toOption
  else none

end

/-! ## Entries and selections -/

/-- The entry is the key that a selection from its key set gave when it was made. -/
def SelectedFrom (jwks : String → Fetch JwkSet) (key : JwksKeyCacheKey) (entry : CachedJwksKey) :
    Prop :=
  ∃ uri kid algorithm set, key = .new uri kid algorithm ∧ jwks uri = .ok set ∧
    selectJwkForToken set kid algorithm = .ok entry.jwk

/-- An entry that is compatible with the algorithm at hand is what selecting for it gives now. -/
theorem SelectedFrom.reuse {jwks : String → Fetch JwkSet} {uri : String} {kid : Option String}
    {algorithm : Algorithm} {entry : CachedJwksKey}
    (h : SelectedFrom jwks (.new uri kid algorithm) entry)
    (hcompat : jwkMatchesAlgorithm entry.jwk algorithm = true) :
    ∃ set, jwks uri = .ok set ∧ selectJwkForToken set kid algorithm = .ok entry.jwk := by
  obtain ⟨uri', kid', algorithm', set, hkey, hset, hsel⟩ := h
  obtain ⟨huri, hkid, halg⟩ := JwksKeyCacheKey.new_inj hkey
  subst huri hkid
  refine ⟨set, hset, ?_⟩
  cases kid with
  | some kid => exact selectJwkForToken_kid.mpr ⟨(selectJwkForToken_kid.mp hsel).1, hcompat⟩
  | none =>
    cases halg rfl
    exact hsel

/-- Every entry agrees with the key sets that the issuers publish. -/
def Sound (jwks : String → Fetch JwkSet) (w : World) : Prop := w.keyCache.Holds (SelectedFrom jwks)

theorem start_sound (jwks : String → Fetch JwkSet) (clock : Nat → Instant) :
    Sound jwks (World.start clock) := by
  intro key entry h
  cases h

section Sound

variable {J : JsonWebToken} {env : Environment} (now : Nat) {jwks : String → Fetch JwkSet}

theorem directDecodingKey_located {role : RoleConfig} {token : String} {found : Located}
    (h : locateJwks J env role token = .ok found) (algorithm : Algorithm) :
    directDecodingKey J env role token algorithm =
      (fetchJwk env found algorithm).toOption.bind J.fromJwk := by
  simp only [directDecodingKey, h]
  rfl

theorem discovery_direct (henv : ∀ client uri, env.jwks client uri = jwks uri) {w : World}
    (hw : Sound jwks w) (role : RoleConfig) (token : String) (algorithm : Algorithm) :
    (discoveryDecodingKey J env role token algorithm w).1.toOption =
        directDecodingKey J env role token algorithm ∧
      Sound jwks (discoveryDecodingKey J env role token algorithm w).2 := by
  cases hloc : locateJwks J env role token with
  | error e =>
    rw [discovery_unlocated hloc]
    exact ⟨by simp only [directDecodingKey, hloc]; rfl, hw⟩
  | ok found =>
    have hkept := JwksKeyCache.get_holds hw (.new found.jwksUri found.kid algorithm) w.now
    rw [← cachedJwksKey_cache _ _ algorithm] at hkept
    cases hl : cachedJwksKey w.keyCache (.new found.jwksUri found.kid algorithm) algorithm w.now with
    | mk result cache =>
      rw [hl] at hkept
      cases result with
      | some jwk =>
        -- the entry is what the fetch and the selection would give
        obtain ⟨hget, hcompat⟩ := cachedJwksKey_some hl
        obtain ⟨entry, he, hjwk, -⟩ := JwksKeyCache.get_some (by rw [hget])
        subst hjwk
        obtain ⟨set, hset, hsel⟩ := (hw _ _ he).reuse hcompat
        have hfetch : fetchJwk env found algorithm = .ok entry.jwk :=
          fetchJwk_ok.mpr ⟨set, (henv _ _).trans hset, hsel⟩
        rw [discovery_hit hloc hl]
        refine ⟨?_, hkept⟩
        rw [directDecodingKey_located hloc, hfetch]
        exact context_toOption
      | none =>
        cases hfetch : fetchJwk env found algorithm with
        | error e =>
          rw [discovery_unfetched hloc hl hfetch]
          exact ⟨by rw [directDecodingKey_located hloc, hfetch]; rfl, hkept⟩
        | ok jwk =>
          obtain ⟨set, hset, hsel⟩ := fetchJwk_ok.mp hfetch
          rw [discovery_fetched hloc hl hfetch]
          refine ⟨?_, JwksKeyCache.insert_holds hkept
            ⟨found.jwksUri, found.kid, algorithm, set, rfl, (henv _ _).symm.trans hset, hsel⟩⟩
          rw [directDecodingKey_located hloc, hfetch]
          exact context_toOption

theorem resolvingKey_direct (henv : ∀ client uri, env.jwks client uri = jwks uri) {w : World}
    (hw : Sound jwks w) (role : RoleConfig) (token : String) (algorithm : Algorithm) :
    (resolvingDecodingKey J env role token algorithm w).1.toOption =
        directResolvingKey J env role token algorithm ∧
      Sound jwks (resolvingDecodingKey J env role token algorithm w).2 := by
  unfold resolvingDecodingKey directResolvingKey
  cases role.validationKey with
  | some validationKey => exact ⟨rfl, hw⟩
  | none => exact discovery_direct henv hw role token algorithm

theorem validateTokenForRole_direct (henv : ∀ client uri, env.jwks client uri = jwks uri) {w : World}
    (hw : Sound jwks w) (role : RoleConfig) (token : String) :
    (validateTokenForRole J env now role token w).1.toOption = directForRole J env now role token ∧
      Sound jwks (validateTokenForRole J env now role token w).2 := by
  unfold validateTokenForRole directForRole
  cases J.decodeHeader token with
  | none => exact ⟨rfl, hw⟩
  | some header =>
    by_cases hallow : role.allowsAlgorithm header.alg = true
    · obtain ⟨hkey, hsound⟩ := resolvingKey_direct (J := J) henv hw role token header.alg
      simp only [hallow, if_true, Option.bind_eq_bind, Option.bind_some, ← hkey]
      cases hr : resolvingDecodingKey J env role token header.alg w with
      | mk result w' =>
        rw [hr] at hsound
        cases result with
        | error e => exact ⟨rfl, hsound⟩
        | ok key => exact ⟨rfl, hsound⟩
    · simp only [hallow, Option.bind_eq_bind, Option.bind_some]
      exact ⟨rfl, hw⟩

theorem validateForRole_direct (henv : ∀ client uri, env.jwks client uri = jwks uri) {w : World}
    (hw : Sound jwks w) (v : TokenValidator) (roleName token : String) :
    (v.validateForRole J env now roleName token w).1.toOption =
        (v.roles[roleName]?).bind (directForRole J env now · token) ∧
      Sound jwks (v.validateForRole J env now roleName token w).2 := by
  unfold TokenValidator.validateForRole
  cases v.roles[roleName]? with
  | none => exact ⟨rfl, hw⟩
  | some role => exact validateTokenForRole_direct now henv hw role token

/-- The roles that `validate` lists are those that pass without a cache, in map order. -/
theorem validateRoles_direct (henv : ∀ client uri, env.jwks client uri = jwks uri) (token : String)
    (roles : List (String × RoleConfig)) :
    ∀ w : World, Sound jwks w →
      (TokenValidator.validateRoles J env now token roles w).1 =
          (roles.filter fun r => (directForRole J env now r.2 token).isSome).map Prod.fst ∧
        Sound jwks (TokenValidator.validateRoles J env now token roles w).2 := by
  induction roles with
  | nil => exact fun w hw => ⟨rfl, hw⟩
  | cons head roles ih =>
    intro w hw
    obtain ⟨name, role⟩ := head
    obtain ⟨hdirect, hsound⟩ := validateTokenForRole_direct (J := J) now henv hw role token
    simp only [TokenValidator.validateRoles]
    cases hv : validateTokenForRole J env now role token w with
    | mk result w' =>
      rw [hv] at hdirect hsound
      obtain ⟨hnames, hafter⟩ := ih w' hsound
      cases result with
      | error e =>
        rw [List.filter_cons_of_neg (by simp [← hdirect, Except.toOption])]
        exact ⟨hnames, hafter⟩
      | ok c =>
        rw [List.filter_cons_of_pos (by simp [← hdirect, Except.toOption])]
        exact ⟨by rw [List.map_cons, ← hnames], hafter⟩

theorem validate_direct (henv : ∀ client uri, env.jwks client uri = jwks uri) {w : World}
    (hw : Sound jwks w) (v : TokenValidator) (token : String) :
    (v.validate J env now token w).1 =
        (v.roles.toList.filter fun r => (directForRole J env now r.2 token).isSome).map Prod.fst ∧
      Sound jwks (v.validate J env now token w).2 :=
  validateRoles_direct now henv token v.roles.toList w hw

end Sound

/-! ## Histories -/

/-- A call of a validator of this process: for one role, or for all. -/
structure Call where
  env : Environment
  now : Nat
  validator : TokenValidator
  roleName : Option String
  token : String

def Call.run (J : JsonWebToken) (w : World) (call : Call) : World :=
  match call.roleName with
  | some roleName => (call.validator.validateForRole J call.env call.now roleName call.token w).2
  | none => (call.validator.validate J call.env call.now call.token w).2

theorem history_sound {J : JsonWebToken} {jwks : String → Fetch JwkSet} {history : List Call}
    (h : ∀ call ∈ history, ∀ client uri, call.env.jwks client uri = jwks uri) {w : World}
    (hw : Sound jwks w) : Sound jwks (history.foldl (Call.run J) w) := by
  induction history generalizing w with
  | nil => exact hw
  | cons call history ih =>
    refine ih (fun c hc => h c (List.mem_cons_of_mem call hc)) ?_
    have henv := h call List.mem_cons_self
    unfold Call.run
    cases call.roleName with
    | some roleName =>
      exact (validateForRole_direct call.now henv hw call.validator roleName call.token).2
    | none => exact (validate_direct call.now henv hw call.validator call.token).2

theorem toOption_isSome {ε α : Type} {x : Except ε α} :
    x.toOption.isSome = true ↔ ∃ a, x = .ok a := by
  cases x <;> simp [Except.toOption]

theorem keys_ascending (roles : BTreeMap String RoleConfig) :
    (roles.toList.map Prod.fst).Pairwise (· < ·) := by
  rw [Std.ExtTreeMap.map_fst_toList_eq_keys]
  refine Std.ExtTreeMap.ordered_keys.imp ?_
  intro a b h
  exact compareOfLessAndEq_eq_lt.mp h

/-- **The key cache is transparent.** If the answers of a JWKS URI do not change, then after any
history of calls, by any validators, `validate_for_role` has the outcome it has with an empty cache,
and `validate` lists, in ascending order and once each, the roles for which it succeeds. -/
theorem validate_transparent (J : JsonWebToken) (jwks : String → Fetch JwkSet)
    (clock fresh : Nat → Instant) (history : List Call)
    (hhistory : ∀ call ∈ history, ∀ client uri, call.env.jwks client uri = jwks uri)
    (env : Environment) (henv : ∀ client uri, env.jwks client uri = jwks uri) (now : Nat)
    (v : TokenValidator) (token : String) :
    let w := history.foldl (Call.run J) (World.start clock)
    (∀ roleName, (v.validateForRole J env now roleName token w).1.toOption =
      (v.validateForRole J env now roleName token (World.start fresh)).1.toOption) ∧
    (v.validate J env now token w).1.Pairwise (· < ·) ∧
    (∀ roleName, roleName ∈ (v.validate J env now token w).1 ↔
      ∃ c, (v.validateForRole J env now roleName token (World.start fresh)).1 = .ok c) := by
  intro w
  have hw : Sound jwks w := history_sound hhistory (start_sound jwks clock)
  have hfresh := start_sound jwks fresh
  have hlist := (validate_direct (J := J) now henv hw v token).1
  refine ⟨?_, ?_, ?_⟩
  · intro roleName
    rw [(validateForRole_direct now henv hw v roleName token).1,
      (validateForRole_direct now henv hfresh v roleName token).1]
  · rw [hlist]
    exact (keys_ascending v.roles).sublist (List.Sublist.map _ List.filter_sublist)
  · intro roleName
    rw [← toOption_isSome, (validateForRole_direct now henv hfresh v roleName token).1, hlist]
    simp only [List.mem_map, List.mem_filter, Prod.exists, exists_and_right, exists_eq_right]
    constructor
    · intro h
      obtain ⟨role, hmem, hpass⟩ := h
      rw [Std.ExtTreeMap.mem_toList_iff_getElem?_eq_some.mp hmem]
      exact hpass
    · intro h
      cases hrole : v.roles[roleName]? with
      | none =>
        rw [hrole] at h
        cases h
      | some role =>
        rw [hrole] at h
        exact ⟨role, Std.ExtTreeMap.mem_toList_iff_getElem?_eq_some.mpr hrole, h⟩

/-! ## A key that one call leaves for the next -/

def publishedJwk : Jwk := ⟨⟨none, none, none⟩, .octetKey "c2hhcmVkLXNlY3JldA"⟩

def publishingEnvironment : Environment :=
  { Environment.offline with
    openidConfiguration := fun _ _ => .ok ⟨"https://issuer.example/jwks"⟩
    jwks := fun _ _ => .ok ⟨[publishedJwk]⟩ }

def discoveringRole : RoleConfig := { releaseRole with validationKey := none }

def discoveringValidator : TokenValidator := TokenValidator.empty.add discoveringRole (by decide)

def discoveringCrate : JsonWebToken :=
  { JsonWebToken.known [boundToken] with
    fromJwk := fun jwk => if jwk = publishedJwk then some "shared-secret" else none }

def discoveringCall : Call :=
  { env := publishingEnvironment, now := 1700000000, validator := discoveringValidator
    roleName := none, token := boundToken.token }

/-- The second of two equal calls finds the key of the first in the cache and accepts the token, as
it would without a cache. -/
theorem validate_transparent_again :
    let w := [discoveringCall].foldl (Call.run discoveringCrate) (World.start id)
    (cachedJwksKey w.keyCache (.new "https://issuer.example/jwks" none .hs256) .hs256 w.now).1 =
      some publishedJwk ∧
    (discoveringValidator.validateForRole discoveringCrate publishingEnvironment 1700000000
        "release" boundToken.token w).1.toOption =
      (discoveringValidator.validateForRole discoveringCrate publishingEnvironment 1700000000
        "release" boundToken.token (World.start id)).1.toOption ∧
    ∃ c, (discoveringValidator.validateForRole discoveringCrate publishingEnvironment 1700000000
      "release" boundToken.token w).1 = .ok c := by
  intro w
  have hsame := (validate_transparent discoveringCrate (fun _ => .ok ⟨[publishedJwk]⟩) id id
    [discoveringCall] (fun call hcall client uri => by rw [List.mem_singleton.mp hcall]; rfl)
    publishingEnvironment (fun _ _ => rfl) 1700000000 discoveringValidator boundToken.token).1
    "release"
  have hfresh : (discoveringValidator.validateForRole discoveringCrate publishingEnvironment
      1700000000 "release" boundToken.token (World.start id)).1.toOption.isSome = true := by
    decide +kernel
  refine ⟨by decide +kernel, hsame, toOption_isSome.mp ?_⟩
  rw [hsame]
  exact hfresh

end Authzoo
