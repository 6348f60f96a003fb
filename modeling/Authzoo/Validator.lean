import Authzoo.Keys

/-!
# Authzoo.Validator

`TokenValidator` (`validator.rs`): a map of checked roles, and the decision whether a token may
assume one of them or which of them it may assume.

The `exp` claim is judged at the argument `now`; the monotonic clock of the key cache is part of the
`World`.
-/

namespace Authzoo

/-- Roles by name; each passed `RoleConfig::validate` and stands under its own name. -/
structure TokenValidator where
  roles : BTreeMap String RoleConfig
  checked : ∀ (name : String) (role : RoleConfig), roles[name]? = some role →
    role.name = name ∧ role.validate = .ok ()

namespace TokenValidator

def empty : TokenValidator := ⟨∅, fun _ _ h => by simp at h⟩

def add (self : TokenValidator) (role : RoleConfig) (h : role.validate = .ok ()) : TokenValidator :=
  ⟨self.roles.insert role.name role, fun name found hfound => by
    rw [Std.ExtTreeMap.getElem?_insert] at hfound
    split at hfound
    · rename_i hname
      cases hfound
      exact ⟨Std.LawfulEqCmp.eq_of_compare hname, h⟩
    · exact self.checked name found hfound⟩

/-- The loop of `new`; `names` are the names seen. -/
def newLoop (names : List String) (self : TokenValidator) :
    List RoleConfig → Except AuthzooError TokenValidator
  | [] => .ok self
  | role :: roles =>
    match h : role.validate with
    | .error e => .error e
    | .ok () =>
      if names.contains role.name then .error (.duplicateRole role.name)
      else newLoop (role.name :: names) (self.add role h) roles

def new (roles : List RoleConfig) : Except AuthzooError TokenValidator := newLoop [] empty roles

def tryFrom (config : Config) : Except AuthzooError TokenValidator := new config.roles

def ensureRolesExist (self : TokenValidator) : List String → Except AuthzooError Unit
  | [] => .ok ()
  | roleName :: roleNames =>
    if self.roles.contains roleName then self.ensureRolesExist roleNames
    else .error (.unknownRole roleName)

theorem newLoop_cons {names : List String} {self : TokenValidator} {role : RoleConfig}
    {roles : List RoleConfig} (h : role.validate = .ok ()) (hn : names.contains role.name = false) :
    newLoop names self (role :: roles) = newLoop (role.name :: names) (self.add role h) roles := by
  rw [newLoop]
  split
  · rename_i e he
    rw [h] at he
    cases he
  · rw [if_neg (by simpa using hn)]

theorem roles_add {self : TokenValidator} {role : RoleConfig} (h : role.validate = .ok ()) :
    (self.add role h).roles[role.name]? = some role :=
  Std.ExtTreeMap.getElem?_insert_self

end TokenValidator

/-! ## Checking a token -/

/-- The settings that `validate_token_for_role` hands to `decode`. -/
def RoleConfig.validation (role : RoleConfig) (algorithm : Algorithm) : Validation :=
  ((Validation.new algorithm).setAudience [role.audience]).setIssuer [role.issuer]

section

variable (J : JsonWebToken) (env : Environment) (now : Nat)

/-- `validate_token_for_role` once the key is known. -/
def decodeForRole (role : RoleConfig) (token : String) (algorithm : Algorithm)
    (decodingKey : J.DecodingKey) : Except AuthzooError ValidatedClaims :=
  match J.decode ValidatedClaims.deserialize now token decodingKey (role.validation algorithm) with
  | .error source => .error (.tokenValidation role.name source)
  | .ok claims =>
    match claims.requireClaims role.claims with
    | .error e => .error e
    | .ok () => .ok claims

def validateTokenForRole (role : RoleConfig) (token : String) (w : World) :
    Except AuthzooError ValidatedClaims × World :=
  match J.decodeHeader token with
  | none => (.error (.other ("failed to decode token header for role '" ++ role.name ++ "'")), w)
  | some header =>
    if role.allowsAlgorithm header.alg then
      match resolvingDecodingKey J env role token header.alg w with
      | (.error e, w) => (.error e, w)
      | (.ok decodingKey, w) => (decodeForRole J now role token header.alg decodingKey, w)
    else (.error (.algorithmNotAllowed role.name header.alg), w)

namespace TokenValidator

def validateForRole (self : TokenValidator) (roleName token : String) (w : World) :
    Except AuthzooError ValidatedClaims × World :=
  match self.roles[roleName]? with
  | none => (.error (.unknownRole roleName), w)
  | some role => validateTokenForRole J env now role token w

/-- The `filter_map` of `validate`, in map order. -/
def validateRoles (token : String) : List (String × RoleConfig) → World → List String × World
  | [], w => ([], w)
  | (name, role) :: roles, w =>
    match validateTokenForRole J env now role token w with
    | (.ok _, w) =>
      let (names, w) := validateRoles token roles w
      (name :: names, w)
    | (.error _, w) => validateRoles token roles w

def validate (self : TokenValidator) (token : String) (w : World) : List String × World :=
  validateRoles J env now token self.roles.toList w

end TokenValidator

end

/-! ## What acceptance says -/

theorem decodeForRole_ok {J : JsonWebToken} (hJ : J.Documented) {now : Nat} {role : RoleConfig}
    {token : String} {algorithm : Algorithm} {key : J.DecodingKey} {c : ValidatedClaims} :
    decodeForRole J now role token algorithm key = .ok c ↔
      ∃ h p, J.decodeHeader token = some h ∧ h.alg = algorithm ∧
        J.verify token key h.alg = true ∧ J.payload token = some p ∧
        J.accepts (role.validation algorithm) now p = true ∧
        ValidatedClaims.deserialize p = some c ∧ c.requireClaims role.claims = .ok () := by
  unfold decodeForRole
  cases hd : J.decode ValidatedClaims.deserialize now token key (role.validation algorithm) with
  | error source =>
    constructor
    · intro h
      cases h
    · intro h
      obtain ⟨header, p, hh, halg, hv, hp, ha, hc, -⟩ := h
      have hok := (hJ.decode_ok ValidatedClaims.deserialize now token key
        (role.validation algorithm) c).mpr ⟨header, p, hh, halg, hv, hp, ha, hc⟩
      rw [hd] at hok
      cases hok
  | ok claims =>
    obtain ⟨header, p, hh, halg, hv, hp, ha, hc⟩ := (hJ.decode_ok _ _ _ _ _ _).mp hd
    dsimp only
    constructor
    · intro h
      split at h
      · cases h
      · rename_i hreq
        cases h
        exact ⟨header, p, hh, halg, hv, hp, ha, hc, hreq⟩
    · intro h
      obtain ⟨header', p', -, -, -, hp', -, hc', hreq⟩ := h
      rw [hp] at hp'
      cases hp'
      rw [hc] at hc'
      cases hc'
      simp only [hreq]

theorem validateTokenForRole_ok {J : JsonWebToken} {env : Environment} {now : Nat}
    {role : RoleConfig} {token : String} {w : World} {c : ValidatedClaims} :
    (validateTokenForRole J env now role token w).1 = .ok c ↔
      ∃ header key, J.decodeHeader token = some header ∧ role.allowsAlgorithm header.alg = true ∧
        (resolvingDecodingKey J env role token header.alg w).1 = .ok key ∧
        decodeForRole J now role token header.alg key = .ok c := by
  unfold validateTokenForRole
  cases hh : J.decodeHeader token with
  | none => simp
  | some header =>
    by_cases hallow : role.allowsAlgorithm header.alg = true
    · simp only [hallow, if_true, Option.some.injEq]
      cases hkey : resolvingDecodingKey J env role token header.alg w with
      | mk result w' =>
        cases result with
        | error e =>
          constructor
          · intro h
            cases h
          · intro h
            obtain ⟨header', key, rfl, -, hkey', -⟩ := h
            rw [hkey] at hkey'
            cases hkey'
        | ok key =>
          constructor
          · intro h
            exact ⟨header, key, rfl, hallow, by rw [hkey], h⟩
          · intro h
            obtain ⟨header', key', rfl, -, hkey', hc⟩ := h
            rw [hkey] at hkey'
            cases hkey'
            exact hc
    · simp only [hallow, Option.some.injEq]
      constructor
      · intro h
        cases h
      · intro h
        obtain ⟨header', key, rfl, hallow', -⟩ := h
        exact absurd hallow' hallow

end Authzoo
