import Authzoo.Building

/-!
# Authzoo.ErrorTexts

What errors say (`error.rs`, and how `config.rs` displays a requirement). How `{:?}` writes a list of
texts and how the `jsonwebtoken` crate writes its errors are parameters.

* `display_role` : an error that is about a role names it.
* `new_names` : so whoever configures a validator is told which role is at fault.
-/

namespace Authzoo

section

variable (debug : List String → String) (source : ErrorKind → String)

def ClaimRequirement.display : ClaimRequirement → String
  | .equals value => "equals '" ++ value ++ "'"
  | .anyOf values => "one of " ++ debug values
  | .detailed requirement => "one of " ++ debug requirement.anyOf
  | .contains requirement => "contains '" ++ requirement.contains ++ "'"

def quoted (role : String) : String := "role '" ++ role ++ "'"

def AuthzooError.display : AuthzooError → String
  | .emptyRoleName => "role names must not be empty"
  | .emptyAudience role => quoted role ++ " audience must not be empty"
  | .emptyIssuer role => quoted role ++ " issuer must not be empty"
  | .emptyValidationKey role => quoted role ++ " validation-key must not be empty"
  | .emptyAlgorithms role => quoted role ++ " must allow at least one algorithm"
  | .emptyClaimName role => quoted role ++ " claim names must not be empty"
  | .emptyClaimRequirement role claim =>
    quoted role ++ (" claim '" ++ claim ++ "' must define at least one acceptable value")
  | .duplicateRole role => "duplicate " ++ quoted role
  | .unknownRole role => "unknown " ++ quoted role
  | .algorithmNotAllowed role algorithm =>
    "token algorithm '" ++ algorithm.debug ++ "' is not allowed for " ++ quoted role
  | .tokenValidation role kind =>
    "failed to validate token for " ++ quoted role ++ (": " ++ source kind)
  | .missingClaim claim requirement =>
    "claim '" ++ claim ++ "' must satisfy " ++ requirement.display debug
  | .other context => context

end

namespace AuthzooError

def role : AuthzooError → Option String
  | .emptyAudience role | .emptyIssuer role | .emptyValidationKey role | .emptyAlgorithms role
  | .emptyClaimName role | .emptyClaimRequirement role _ | .duplicateRole role | .unknownRole role
  | .algorithmNotAllowed role _ | .tokenValidation role _ => some role
  | .emptyRoleName | .missingClaim _ _ | .other _ => none

/-- The name stands in the text as `role '…'`. -/
def Names (text role : String) : Prop := (quoted role).toList <:+: text.toList

namespace Names

variable {text role : String}

theorem self (role : String) : Names (quoted role) role := List.infix_rfl

theorem before (h : Names text role) (rest : String) : Names (text ++ rest) role := by
  unfold Names
  rw [String.toList_append]
  exact h.trans (List.prefix_append _ _).isInfix

theorem behind (h : Names text role) (start : String) : Names (start ++ text) role := by
  unfold Names
  rw [String.toList_append]
  exact h.trans (List.suffix_append _ _).isInfix

end Names

theorem display_role (debug : List String → String) (source : ErrorKind → String) {e : AuthzooError}
    {name : String} (h : e.role = some name) : Names (e.display debug source) name := by
  cases e with
  | emptyRoleName | missingClaim | other => cases h
  | duplicateRole | unknownRole | algorithmNotAllowed =>
    cases h
    exact (Names.self _).behind _
  | tokenValidation =>
    cases h
    exact ((Names.self _).behind _).before _
  | _ =>
    cases h
    exact (Names.self _).before _

end AuthzooError

theorem ClaimRequirement.validate_role {requirement : ClaimRequirement} {role claim : String}
    {e : AuthzooError} (h : requirement.validate role claim = .error e) : e.role = some role := by
  unfold validate at h
  split at h
  · cases h
    rfl
  · cases h

namespace RoleConfig

theorem validateClaims_role {role : String} {claims : List (String × ClaimRequirement)}
    {e : AuthzooError} (h : validateClaims role claims = .error e) : e.role = some role := by
  induction claims with
  | nil => cases h
  | cons head rest ih =>
    obtain ⟨claim, requirement⟩ := head
    rw [validateClaims] at h
    split at h
    · cases h
      rfl
    · cases hv : requirement.validate role claim with
      | error e' =>
        rw [hv] at h
        cases h
        exact requirement.validate_role hv
      | ok u =>
        rw [hv] at h
        exact ih h

theorem validate_role {role : RoleConfig} {e : AuthzooError} (h : role.validate = .error e) :
    (e = .emptyRoleName ∧ role.name = "") ∨ e.role = some role.name := by
  unfold validate at h
  split at h
  · rename_i hname
    cases h
    exact .inl ⟨rfl, String.isEmpty_iff.mp hname⟩
  · refine .inr ?_
    split at h
    · cases h
      rfl
    · split at h
      · cases h
        rfl
      · split at h
        · cases h
          rfl
        · split at h
          · cases h
            rfl
          · exact validateClaims_role h

end RoleConfig

/-- A role without a name cannot be named; every other refusal names the role at fault. -/
theorem TokenValidator.new_names (debug : List String → String) (source : ErrorKind → String)
    {roles : List RoleConfig} {e : AuthzooError} (h : new roles = .error e) :
    ∃ role ∈ roles, (e = .emptyRoleName ∧ role.name = "") ∨
      AuthzooError.Names (e.display debug source) role.name := by
  obtain ⟨before, role, after, rfl, -, hbad⟩ := newLoop_error.mp h
  refine ⟨role, by simp, ?_⟩
  rcases hbad with hinvalid | ⟨-, -, rfl⟩
  · exact (RoleConfig.validate_role hinvalid).imp id (AuthzooError.display_role debug source)
  · exact .inr (AuthzooError.display_role debug source rfl)

end Authzoo
