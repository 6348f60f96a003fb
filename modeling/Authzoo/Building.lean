import Authzoo.Lib.Outcome
import Authzoo.Validator

/-!
# Authzoo.Building

Building a `TokenValidator` (`validator.rs`): all the roles of a list are taken over, or the first
one that is refused decides.

* `Fresh` is what the loop of `new` has checked of the roles behind it.
* `newLoop_ok`, `newLoop_error` : the loop ends well for fresh roles, and otherwise at the first role
  that makes them stale.
* `validator_new` : the whole of it, with what the validator then knows of a name.
-/

namespace Authzoo

/-! ## The loop -/

namespace TokenValidator

/-- The roles are valid, and their names differ from each other and from those taken. -/
structure Fresh (names : List String) (roles : List RoleConfig) : Prop where
  valid : ∀ role ∈ roles, role.validate = .ok ()
  distinct : (roles.map (·.name)).Nodup
  untaken : ∀ role ∈ roles, role.name ∉ names

/-- The error that the first refused role gives. -/
def Refused (names : List String) (roles : List RoleConfig) (e : AuthzooError) : Prop :=
  ∃ before role after, roles = before ++ role :: after ∧ Fresh names before ∧
    (role.validate = .error e ∨ role.validate = .ok () ∧
      (role.name ∈ names ∨ role.name ∈ before.map (·.name)) ∧ e = .duplicateRole role.name)

def insertAll (roles : List RoleConfig) (map : BTreeMap String RoleConfig) :
    BTreeMap String RoleConfig :=
  roles.foldl (fun map role => map.insert role.name role) map

variable {names : List String} {self v : TokenValidator} {role : RoleConfig}
  {roles : List RoleConfig} {e : AuthzooError}

theorem ext_roles {v v' : TokenValidator} (h : v.roles = v'.roles) : v = v' := by
  cases v
  cases v'
  cases h
  rfl

theorem fresh_nil : Fresh names [] := ⟨nofun, .nil, nofun⟩

theorem fresh_cons : Fresh names (role :: roles) ↔
    role.validate = .ok () ∧ role.name ∉ names ∧ Fresh (role.name :: names) roles := by
  constructor
  · rintro ⟨hvalid, hdistinct, huntaken⟩
    rw [List.map_cons, List.nodup_cons] at hdistinct
    rw [List.forall_mem_cons] at hvalid huntaken
    refine ⟨hvalid.1, huntaken.1, hvalid.2, hdistinct.2, fun other hin htaken => ?_⟩
    rcases List.mem_cons.mp htaken with hsame | htaken
    · exact hdistinct.1 (hsame ▸ List.mem_map_of_mem hin)
    · exact huntaken.2 other hin htaken
  · rintro ⟨hvalid, huntaken, hrest⟩
    refine ⟨List.forall_mem_cons.mpr ⟨hvalid, hrest.valid⟩, ?_,
      List.forall_mem_cons.mpr ⟨huntaken, fun other hin htaken =>
        hrest.untaken other hin (List.mem_cons_of_mem _ htaken)⟩⟩
    rw [List.map_cons, List.nodup_cons]
    refine ⟨fun hin => ?_, hrest.distinct⟩
    obtain ⟨other, hin, hsame⟩ := List.mem_map.mp hin
    exact hrest.untaken other hin (hsame ▸ List.mem_cons_self)

theorem newLoop_invalid (h : role.validate = .error e) :
    newLoop names self (role :: roles) = .error e := by
  rw [newLoop]
  split
  · rename_i e' he
    rw [h] at he
    exact congrArg _ (Except.error.inj he).symm
  · rename_i hok
    rw [h] at hok
    cases hok

theorem newLoop_duplicate (h : role.validate = .ok ()) (hn : role.name ∈ names) :
    newLoop names self (role :: roles) = .error (.duplicateRole role.name) := by
  rw [newLoop]
  split
  · rename_i e he
    rw [h] at he
    cases he
  · rw [if_pos (List.contains_iff_mem.mpr hn)]

theorem newLoop_fresh (h : role.validate = .ok ()) (hn : role.name ∉ names) :
    newLoop names self (role :: roles) = newLoop (role.name :: names) (self.add role h) roles :=
  newLoop_cons h (by simpa using hn)

theorem newLoop_ok : newLoop names self roles = .ok v ↔
    Fresh names roles ∧ v.roles = insertAll roles self.roles := by
  induction roles generalizing names self with
  | nil =>
    rw [newLoop, Except.ok.injEq]
    constructor
    · rintro rfl
      exact ⟨fresh_nil, rfl⟩
    · rintro ⟨-, h⟩
      exact ext_roles h.symm
  | cons role roles ih =>
    rw [fresh_cons]
    cases hvalid : role.validate with
    | error e =>
      rw [newLoop_invalid hvalid]
      simp
    | ok u =>
      by_cases hn : role.name ∈ names
      · rw [newLoop_duplicate hvalid hn]
        simp [hn]
      · rw [newLoop_fresh hvalid hn, ih]
        simp only [hn, not_false_eq_true, true_and]
        rfl

theorem taken_cons {before : List RoleConfig} {other : String} :
    (other ∈ names ∨ other ∈ (role :: before).map (·.name)) ↔
      (other ∈ role.name :: names ∨ other ∈ before.map (·.name)) := by
  simp only [List.map_cons, List.mem_cons]
  tauto

/-- A list is refused at its head, or behind it. -/
theorem refused_cons : Refused names (role :: roles) e ↔
    role.validate = .error e ∨
    role.validate = .ok () ∧ role.name ∈ names ∧ e = .duplicateRole role.name ∨
    role.validate = .ok () ∧ role.name ∉ names ∧ Refused (role.name :: names) roles e := by
  constructor
  · rintro ⟨before, bad, after, hsplit, hfresh, hbad⟩
    cases before with
    | nil =>
      obtain ⟨rfl, rfl⟩ := List.cons.inj hsplit
      rcases hbad with hbad | ⟨hvalid, htaken, he⟩
      · exact .inl hbad
      · exact .inr (.inl ⟨hvalid, htaken.resolve_right List.not_mem_nil, he⟩)
    | cons first before =>
      obtain ⟨rfl, rfl⟩ := List.cons.inj hsplit
      obtain ⟨hvalid, huntaken, hfresh⟩ := fresh_cons.mp hfresh
      rw [taken_cons] at hbad
      exact .inr (.inr ⟨hvalid, huntaken, before, bad, after, rfl, hfresh, hbad⟩)
  · rintro (hbad | ⟨hvalid, htaken, rfl⟩ | ⟨hvalid, huntaken, before, bad, after, rfl, hfresh, hbad⟩)
    · exact ⟨[], role, roles, rfl, fresh_nil, .inl hbad⟩
    · exact ⟨[], role, roles, rfl, fresh_nil, .inr ⟨hvalid, .inl htaken, rfl⟩⟩
    · rw [← taken_cons] at hbad
      exact ⟨role :: before, bad, after, rfl, fresh_cons.mpr ⟨hvalid, huntaken, hfresh⟩, hbad⟩

theorem newLoop_error : newLoop names self roles = .error e ↔ Refused names roles e := by
  induction roles generalizing names self with
  | nil =>
    rw [newLoop]
    constructor
    · intro h
      cases h
    · rintro ⟨before, role, after, h, -⟩
      simp at h
  | cons role roles ih =>
    rw [refused_cons]
    cases hvalid : role.validate with
    | error e' =>
      rw [newLoop_invalid hvalid]
      simp
    | ok u =>
      by_cases hn : role.name ∈ names
      · rw [newLoop_duplicate hvalid hn]
        simp [hn, eq_comm]
      · rw [newLoop_fresh hvalid hn, ih]
        simp [hn]

theorem Fresh.not_refused (h : Fresh names roles) : ¬ Refused names roles e := by
  rintro ⟨before, role, after, rfl, -, hbad⟩
  have hin : role ∈ before ++ role :: after := List.mem_append_right _ List.mem_cons_self
  rcases hbad with hbad | ⟨-, htaken | htaken, -⟩
  · rw [h.valid role hin] at hbad
    cases hbad
  · exact h.untaken role hin htaken
  · have hdistinct := h.distinct
    rw [List.map_append, List.nodup_append] at hdistinct
    exact hdistinct.2.2 _ htaken _ (List.mem_map_of_mem List.mem_cons_self) rfl

/-! ## The map -/

/-- Inserting roles of different names: each stands under its own. -/
theorem insertAll_lookup {map : BTreeMap String RoleConfig} (h : (roles.map (·.name)).Nodup)
    {name : String} : (insertAll roles map)[name]? = some role ↔
      role ∈ roles ∧ role.name = name ∨ name ∉ roles.map (·.name) ∧ map[name]? = some role := by
  induction roles generalizing map with
  | nil => simp [insertAll]
  | cons first roles ih =>
    rw [List.map_cons, List.nodup_cons] at h
    have hstep : insertAll (first :: roles) map = insertAll roles (map.insert first.name first) := rfl
    rw [hstep, ih h.2, Std.ExtTreeMap.getElem?_insert, List.mem_cons, List.map_cons, List.mem_cons]
    simp only [Std.LawfulEqCmp.compare_eq_iff_eq]
    by_cases hname : first.name = name
    · subst hname
      have hno : ∀ role ∈ roles, role.name ≠ first.name := fun role hin hsame =>
        h.1 (hsame ▸ List.mem_map_of_mem hin)
      simp only [h.1, if_true, not_false_eq_true, true_and, Option.some.injEq, not_true,
        false_and, or_false]
      constructor
      · rintro (⟨hin, hsame⟩ | rfl)
        · exact absurd hsame (hno role hin)
        · exact ⟨.inl rfl, rfl⟩
      · rintro ⟨rfl | hin, hsame⟩
        · exact .inr rfl
        · exact absurd hsame (hno role hin)
    · have hne : role = first → role.name ≠ name := fun heq => heq ▸ hname
      rw [if_neg hname]
      simp only [Ne.symm hname, false_or]
      tauto

theorem insertAll_perm {roles' : List RoleConfig} (h : (roles.map (·.name)).Nodup)
    (hperm : roles.Perm roles') (map : BTreeMap String RoleConfig) :
    insertAll roles map = insertAll roles' map := by
  refine Std.ExtTreeMap.ext_getElem? fun name => Option.ext fun role => ?_
  rw [insertAll_lookup h, insertAll_lookup ((hperm.map _).nodup_iff.mp h), hperm.mem_iff,
    (hperm.map _).mem_iff]

theorem fresh_perm {roles' : List RoleConfig} (hperm : roles.Perm roles') (h : Fresh names roles) :
    Fresh names roles' where
  valid role hin := h.valid role (hperm.mem_iff.mpr hin)
  distinct := (hperm.map _).nodup_iff.mp h.distinct
  untaken role hin := h.untaken role (hperm.mem_iff.mpr hin)

theorem ensureRolesExist_ok {roleNames : List String} : v.ensureRolesExist roleNames = .ok () ↔
    ∀ name ∈ roleNames, v.roles.contains name = true := by
  induction roleNames with
  | nil => simp [ensureRolesExist]
  | cons name roleNames ih =>
    rw [ensureRolesExist, List.forall_mem_cons]
    split
    · rename_i h
      rw [ih]
      exact (and_iff_right h).symm
    · rename_i h
      simp [h]

end TokenValidator

/-! ## A known role is never reported as unknown -/

def NamesUnknown (e : AuthzooError) : Prop := ∃ name, e = .unknownRole name

section Known

variable {α : Type} {J : JsonWebToken} {env : Environment} {role : RoleConfig} {token : String}
  {algorithm : Algorithm} {w : World}

theorem other_known (message : String) : ¬ NamesUnknown (.other message) := nofun

theorem context_known (message : String) (x : Option α) :
    Outcome.Avoids NamesUnknown (context message x) := by
  cases x with
  | none => exact .error (other_known _)
  | some a => exact .ok a

theorem json_known (what url : String) (x : Fetch α) :
    Outcome.Avoids NamesUnknown (x.json what url) := by
  cases x with
  | sendFailed | errorStatus | parseFailed => exact .error (other_known _)
  | ok value => exact .ok value

theorem decodingKeyForAlgorithm_known (validationKey : String) (algorithm : Algorithm) :
    Outcome.Avoids NamesUnknown (decodingKeyForAlgorithm J validationKey algorithm) := by
  cases algorithm with
  | hs256 | hs384 | hs512 => exact .ite (.error (other_known _)) (.ok _)
  | rs256 | rs384 | rs512 | ps256 | ps384 | ps512 | es256 | es384 | edDsa =>
    exact context_known _ _

theorem addRootCertificate_known (builder : DiscoveryClient) :
    Outcome.Avoids NamesUnknown (addRootCertificate env builder) := by
  unfold addRootCertificate
  split
  · exact .ok _
  · exact .ite (.ok _) (.error (other_known _))

theorem addAuthorization_known (builder : DiscoveryClient) :
    Outcome.Avoids NamesUnknown (addAuthorization env builder) := by
  unfold addAuthorization
  split
  · exact .ok _
  · exact .ite (.ok _) (.ite (.ok _) (.error (other_known _)))

theorem configureInClusterClient_known (builder : DiscoveryClient) :
    Outcome.Avoids NamesUnknown (configureInClusterClient env builder) :=
  .bind (addRootCertificate_known builder) addAuthorization_known

theorem discoveryClient_known : Outcome.Avoids NamesUnknown (discoveryClient env role) := by
  have hbuild : ∀ builder, Outcome.Avoids NamesUnknown
      (if env.clientBuilds builder then .ok builder
        else .error (.other "failed to build HTTP client for validation key discovery")) :=
    fun _ => .ite (.ok _) (.error (other_known _))
  exact .ite (.bind (configureInClusterClient_known _) hbuild) (.bind (.ok _) hbuild)

theorem locateJwks_known : Outcome.Avoids NamesUnknown (locateJwks J env role token) :=
  .bind (context_known _ _) fun _ => .bind discoveryClient_known fun _ =>
    .bind (json_known _ _ _) fun _ => .ok _

theorem selectJwkForToken_known (jwks : JwkSet) (kid : Option String) :
    Outcome.Avoids NamesUnknown (selectJwkForToken jwks kid algorithm) := by
  unfold selectJwkForToken
  cases kid with
  | some kid =>
    exact .bind (context_known _ _) fun _ =>
      .bind (.ite (.ok _) (.error (other_known _))) fun _ => .ok _
  | none =>
    dsimp only
    split
    · exact .error (other_known _)
    · exact .ok _
    · exact .error (other_known _)

theorem fetchJwk_known (found : Located) :
    Outcome.Avoids NamesUnknown (fetchJwk env found algorithm) :=
  .bind (json_known _ _ _) fun jwks => selectJwkForToken_known jwks found.kid

theorem discoveryDecodingKey_known :
    Outcome.Avoids NamesUnknown (discoveryDecodingKey J env role token algorithm w).1 := by
  unfold discoveryDecodingKey
  split
  · rename_i e hlocate
    exact locateJwks_known.passed hlocate
  · dsimp only
    split
    · exact context_known _ _
    · split
      · rename_i e hfetch
        exact (fetchJwk_known _).passed hfetch
      · exact context_known _ _

theorem resolvingDecodingKey_known :
    Outcome.Avoids NamesUnknown (resolvingDecodingKey J env role token algorithm w).1 := by
  unfold resolvingDecodingKey
  split
  · exact decodingKeyForAlgorithm_known _ _
  · exact discoveryDecodingKey_known

theorem requireClaims_known (claims : ValidatedClaims) (required : BTreeMap String ClaimRequirement) :
    Outcome.Avoids NamesUnknown (claims.requireClaims required) := by
  unfold ValidatedClaims.requireClaims
  split
  · exact .error nofun
  · exact .ok _

theorem decodeForRole_known (now : Nat) (decodingKey : J.DecodingKey) :
    Outcome.Avoids NamesUnknown (decodeForRole J now role token algorithm decodingKey) := by
  unfold decodeForRole
  split
  · exact .error nofun
  · split
    · rename_i e hclaims
      exact (requireClaims_known _ _).passed hclaims
    · exact .ok _

theorem validateTokenForRole_known (now : Nat) :
    Outcome.Avoids NamesUnknown (validateTokenForRole J env now role token w).1 := by
  unfold validateTokenForRole
  split
  · exact .error (other_known _)
  · split
    · split
      · rename_i e w' hkey
        exact resolvingDecodingKey_known.passed (congrArg Prod.fst hkey)
      · exact decodeForRole_known _ _
    · exact .error nofun

end Known

/-! ## Building a validator -/

/-- The names that a validator does not know are those it reports as unknown. -/
theorem validateForRole_unknown {J : JsonWebToken} {env : Environment} {now : Nat}
    {v : TokenValidator} {roleName token other : String} {w : World} :
    (v.validateForRole J env now roleName token w).1 = .error (.unknownRole other) ↔
      other = roleName ∧ v.roles[roleName]? = none := by
  unfold TokenValidator.validateForRole
  split
  · rename_i h
    simp [h, eq_comm]
  · rename_i role h
    simp only [h, reduceCtorEq, and_false, iff_false]
    exact fun herr => validateTokenForRole_known now _ herr ⟨other, rfl⟩

theorem fresh_start {roles : List RoleConfig} : TokenValidator.Fresh [] roles ↔
    (∀ role ∈ roles, role.validate = .ok ()) ∧ (roles.map (·.name)).Nodup :=
  ⟨fun h => ⟨h.valid, h.distinct⟩, fun h => ⟨h.1, h.2, fun _ _ => List.not_mem_nil⟩⟩

/-- **All roles or none.** A validator is built when the roles are valid and no two have one name;
the first role that is invalid or repeats a name decides the error, the role's own defect first. The
validator holds exactly the given roles, knows exactly their names, and does not depend on their
order. -/
theorem validator_new (roles : List RoleConfig) :
    ((∃ v, TokenValidator.new roles = .ok v) ↔
      (∀ role ∈ roles, role.validate = .ok ()) ∧ (roles.map (·.name)).Nodup) ∧
    (∀ e, TokenValidator.new roles = .error e ↔ ∃ before role after,
      roles = before ++ role :: after ∧
      (∀ role ∈ before, role.validate = .ok ()) ∧ (before.map (·.name)).Nodup ∧
      (role.validate = .error e ∨ role.validate = .ok () ∧ role.name ∈ before.map (·.name) ∧
        e = .duplicateRole role.name)) ∧
    ∀ v, TokenValidator.new roles = .ok v →
      (∀ name role, v.roles[name]? = some role ↔ role ∈ roles ∧ role.name = name) ∧
      (∀ roleNames, v.ensureRolesExist roleNames = .ok () ↔
        ∀ name ∈ roleNames, name ∈ roles.map (·.name)) ∧
      (∀ (J : JsonWebToken) (env : Environment) (now : Nat) (roleName token other : String)
        (w : World), (v.validateForRole J env now roleName token w).1 = .error (.unknownRole other) ↔
          other = roleName ∧ roleName ∉ roles.map (·.name)) ∧
      ∀ roles', roles.Perm roles' → TokenValidator.new roles' = .ok v := by
  refine ⟨?_, fun e => ?_, fun v hnew => ?_⟩
  · rw [← fresh_start]
    constructor
    · rintro ⟨v, hnew⟩
      exact (TokenValidator.newLoop_ok.mp hnew).1
    · intro hfresh
      cases hnew : TokenValidator.new roles with
      | ok v => exact ⟨v, rfl⟩
      | error e => exact absurd (TokenValidator.newLoop_error.mp hnew) hfresh.not_refused
  · refine TokenValidator.newLoop_error.trans ?_
    simp only [TokenValidator.Refused, fresh_start, List.not_mem_nil, false_or, and_assoc]
  · obtain ⟨hfresh, hroles⟩ := TokenValidator.newLoop_ok.mp hnew
    have hlookup : ∀ name role, v.roles[name]? = some role ↔ role ∈ roles ∧ role.name = name := by
      intro name role
      rw [hroles, TokenValidator.insertAll_lookup hfresh.distinct]
      simp [TokenValidator.empty]
    have hunknown : ∀ name, v.roles[name]? = none ↔ name ∉ roles.map (·.name) := by
      intro name
      rw [Option.eq_none_iff_forall_ne_some]
      simp only [ne_eq, hlookup, List.mem_map, not_exists]
    refine ⟨hlookup, fun roleNames => ?_, fun J env now roleName token other w => ?_,
      fun roles' hperm => ?_⟩
    · rw [TokenValidator.ensureRolesExist_ok]
      refine forall₂_congr fun name _ => ?_
      rw [← not_iff_not, ← hunknown, Std.ExtTreeMap.contains_eq_isSome_getElem?, Bool.not_eq_true,
        Option.isSome_eq_false_iff, Option.isNone_iff_eq_none]
    · rw [validateForRole_unknown, hunknown]
    · refine TokenValidator.newLoop_ok.mpr ⟨TokenValidator.fresh_perm hperm hfresh, ?_⟩
      rw [hroles, TokenValidator.insertAll_perm hfresh.distinct hperm]

end Authzoo
