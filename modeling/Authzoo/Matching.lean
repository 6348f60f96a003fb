import Authzoo.Lib.Choice
import Authzoo.Requirement

/-!
# Authzoo.Matching

Claim requirements in plain terms (`claims.rs`): what each form needs of a claim's value, which
unmet claim `require_claims` reports, and which requirement maps some token can meet.

* `claim_matching` : every path through the matchers decides by `Needs`.
* `role_assumable_iff` : a checked role can be assumed by some claims unless it looks for an element
  in the subject, which is always a string.
-/

namespace Authzoo

/-- What a requirement needs of a claim's value. -/
def ClaimRequirement.Needs : ClaimRequirement → Option Json → Prop
  | .equals required, value => value = some (.str required)
  | .anyOf required, value => ∃ s ∈ required, value = some (.str s)
  | .detailed required, value => ∃ s ∈ required.anyOf, value = some (.str s)
  | .contains required, value =>
    ∃ elements, value = some (.arr elements) ∧ .str required.contains ∈ elements

theorem ClaimRequirement.metBy_iff {requirement : ClaimRequirement} {value : Option Json} :
    requirement.MetBy value ↔ requirement.Needs value := by
  cases requirement with
  | equals required => simp [MetBy, Needs, Acceptable.OfferedBy]
  | anyOf required => simp [MetBy, Needs, Acceptable.OfferedBy]
  | detailed required => simp [MetBy, Needs, Acceptable.OfferedBy]
  | contains required =>
    simp only [MetBy, mem_contains, exists_eq_left, Acceptable.OfferedBy, Needs]
    constructor
    · rintro ⟨given, rfl, elements, rfl, hin⟩
      exact ⟨elements, rfl, hin⟩
    · rintro ⟨elements, rfl, hin⟩
      exact ⟨_, rfl, elements, rfl, hin⟩

namespace ValidatedClaims

variable {self : ValidatedClaims}

theorem satisfies_needs {claimName : String} {requirement : ClaimRequirement} :
    self.satisfies claimName requirement = true ↔ requirement.Needs (self.value claimName) :=
  satisfies_iff.trans ClaimRequirement.metBy_iff

theorem requireClaims_needs {requiredClaims : BTreeMap String ClaimRequirement} :
    self.requireClaims requiredClaims = .ok () ↔
      ∀ (claimName : String) (requirement : ClaimRequirement),
        requiredClaims[claimName]? = some requirement → requirement.Needs (self.value claimName) := by
  simp only [requireClaims_ok, ClaimRequirement.metBy_iff]

/-- The first unmet claim of the ordered map. -/
theorem firstMissingRequiredClaim_some {requiredClaims : BTreeMap String ClaimRequirement}
    {claimName : String} {requirement : ClaimRequirement} :
    self.firstMissingRequiredClaim requiredClaims = some (claimName, requirement) ↔
      requiredClaims[claimName]? = some requirement ∧
      ¬ requirement.Needs (self.value claimName) ∧
      ∀ (other : String) (requirement' : ClaimRequirement), other < claimName →
        requiredClaims[other]? = some requirement' → requirement'.Needs (self.value other) := by
  have hunmet : ∀ entry : String × ClaimRequirement,
      (!self.satisfies entry.1 entry.2) = true ↔ ¬ entry.2.Needs (self.value entry.1) := by
    intro entry
    rw [Bool.not_eq_true', ← Bool.not_eq_true, satisfies_needs]
  have hlt : ∀ a b : String, compare a b = .lt ↔ a < b := fun a b => compareOfLessAndEq_eq_lt
  have hasymm : ∀ a b : String × ClaimRequirement, a.1 < b.1 → ¬ b.1 < a.1 :=
    fun a b => String.lt_asymm
  have hordered : requiredClaims.toList.Pairwise fun a b => a.1 < b.1 := by
    simpa only [hlt] using Std.ExtTreeMap.ordered_keys_toList (t := requiredClaims)
  have hfind : self.firstMissingRequiredClaim requiredClaims =
      requiredClaims.toList.find? fun entry => !self.satisfies entry.1 entry.2 := rfl
  rw [hfind, Choice.find_iff_least hasymm hordered]
  simp only [hunmet, Prod.forall, Std.ExtTreeMap.mem_toList_iff_getElem?_eq_some]
  refine and_congr_right fun hrequired => and_congr (hunmet (claimName, requirement)) ?_
  constructor
  · intro hleast other requirement' hother hrequired'
    by_contra hneeds
    rcases hleast other requirement' hrequired' hneeds with heq | hafter
    · cases heq
      exact String.lt_irrefl claimName hother
    · exact String.lt_asymm hother hafter
  · intro hbefore other requirement' hrequired' hneeds
    have hle : claimName ≤ other := String.not_lt.mp fun hlt =>
      hneeds (hbefore other requirement' hlt hrequired')
    by_cases hafter : claimName < other
    · exact .inr hafter
    · obtain rfl : claimName = other := String.le_antisymm hle (String.not_lt.mp hafter)
      rw [hrequired] at hrequired'
      exact .inl (by rw [Option.some.inj hrequired'])

theorem requireClaims_error {requiredClaims : BTreeMap String ClaimRequirement} {e : AuthzooError} :
    self.requireClaims requiredClaims = .error e ↔
      ∃ claimName requirement, e = .missingClaim claimName requirement ∧
        self.firstMissingRequiredClaim requiredClaims = some (claimName, requirement) := by
  unfold requireClaims
  cases self.firstMissingRequiredClaim requiredClaims with
  | none => simp
  | some entry =>
    constructor
    · intro h
      exact ⟨entry.1, entry.2, (Except.error.inj h).symm, rfl⟩
    · rintro ⟨claimName, requirement, rfl, hentry⟩
      cases hentry
      rfl

/-- The string accessor and the string matcher decide as the internal ones do, but for elements. -/
theorem satisfies_eq_matchesStr {claimName : String} {requirement : ClaimRequirement}
    (h : ∀ required, requirement ≠ .contains required) :
    self.satisfies claimName requirement = requirement.matchesStr (self.claimValue claimName) := by
  unfold satisfies claimValue
  by_cases hsub : claimName = "sub"
  · rw [if_pos hsub, if_pos hsub]
  · rw [if_neg hsub, if_neg hsub]
    cases requirement with
    | contains required => exact absurd rfl (h required)
    | _ => rfl

/-- One acceptable value can be written in three ways. -/
theorem satisfies_single {claimName required : String} :
    self.satisfies claimName (.anyOf [required]) = self.satisfies claimName (.equals required) ∧
      self.satisfies claimName (.detailed ⟨[required]⟩) =
        self.satisfies claimName (.equals required) := by
  constructor
  · rw [Bool.eq_iff_iff, satisfies_needs, satisfies_needs]
    simp [ClaimRequirement.Needs]
  · rw [Bool.eq_iff_iff, satisfies_needs, satisfies_needs]
    simp [ClaimRequirement.Needs]

end ValidatedClaims

/-- **Claim matching.** A requirement map is met when every entry is; otherwise the least unmet claim
is reported with its own requirement. The public accessor and matcher agree with the decision for
every form that compares texts, and a single acceptable value means the same in each of them. -/
theorem claim_matching (self : ValidatedClaims) :
    (∀ requiredClaims : BTreeMap String ClaimRequirement,
      (self.requireClaims requiredClaims = .ok () ↔
        ∀ (claimName : String) (requirement : ClaimRequirement),
          requiredClaims[claimName]? = some requirement →
            requirement.Needs (self.value claimName)) ∧
      ∀ e, self.requireClaims requiredClaims = .error e ↔
        ∃ (claimName : String) (requirement : ClaimRequirement),
          e = .missingClaim claimName requirement ∧
          requiredClaims[claimName]? = some requirement ∧
          ¬ requirement.Needs (self.value claimName) ∧
          ∀ (other : String) (requirement' : ClaimRequirement), other < claimName →
            requiredClaims[other]? = some requirement' →
              requirement'.Needs (self.value other)) ∧
    (∀ (claimName : String) (requirement : ClaimRequirement),
      (self.satisfies claimName requirement = true ↔
        requirement.Needs (self.value claimName)) ∧
      ((∀ required, requirement ≠ .contains required) →
        self.satisfies claimName requirement =
          requirement.matchesStr (self.claimValue claimName))) ∧
    ∀ claimName required : String,
      self.satisfies claimName (.anyOf [required]) = self.satisfies claimName (.equals required) ∧
      self.satisfies claimName (.detailed ⟨[required]⟩) =
        self.satisfies claimName (.equals required) := by
  refine ⟨fun requiredClaims => ⟨self.requireClaims_needs, fun e => ?_⟩, fun claimName requirement =>
    ⟨self.satisfies_needs, self.satisfies_eq_matchesStr⟩, fun _ _ => self.satisfies_single⟩
  simp only [ValidatedClaims.requireClaims_error, ValidatedClaims.firstMissingRequiredClaim_some]

/-! ## Requirements that some claims meet -/

namespace ClaimRequirement

/-- A value that meets a checked requirement. -/
def offer : ClaimRequirement → Json
  | .equals required => .str required
  | .anyOf required => .str (required.headD "")
  | .detailed required => .str (required.anyOf.headD "")
  | .contains required => .arr [.str required.contains]

theorem headD_mem {l : List String} (h : l.isEmpty = false) : l.headD "" ∈ l := by
  cases l with
  | nil => cases h
  | cons s l => exact List.mem_cons_self

theorem needs_offer {requirement : ClaimRequirement} (h : requirement.isEmpty = false) :
    requirement.Needs (some requirement.offer) := by
  cases requirement with
  | equals required => rfl
  | anyOf required =>
    simp only [isEmpty, Bool.or_eq_false_iff] at h
    exact ⟨_, headD_mem h.1, rfl⟩
  | detailed required =>
    simp only [isEmpty, Bool.or_eq_false_iff] at h
    exact ⟨_, headD_mem h.1, rfl⟩
  | contains required => exact ⟨_, rfl, List.mem_singleton_self _⟩

theorem offer_str {requirement : ClaimRequirement}
    (h : ∀ required, requirement ≠ .contains required) : ∃ s, requirement.offer = .str s := by
  cases requirement with
  | contains required => exact absurd rfl (h required)
  | _ => exact ⟨_, rfl⟩

end ClaimRequirement

namespace RoleConfig

/-- The other claims of a token made for the role. -/
def offers (role : RoleConfig) : List (String × Json) :=
  (role.claims.toList.filter (·.1 ≠ "sub")).map fun entry => (entry.1, entry.2.offer)

theorem offers_name {role : RoleConfig} {entry : String × Json} (h : entry ∈ role.offers) :
    entry.1 ≠ "sub" := by
  obtain ⟨claim, hclaim, rfl⟩ := List.mem_map.mp h
  simpa using (List.mem_filter.mp hclaim).2

/-- A token made for the role, with a given subject. -/
def offered (role : RoleConfig) (sub : String) : ValidatedClaims :=
  ⟨sub, .ofList role.offers⟩

theorem offered_decoded (role : RoleConfig) (sub : String) :
    ValidatedClaims.deserialize (.obj (("sub", .str sub) :: role.offers)) =
      some (role.offered sub) := by
  have hsub : (("sub", Json.str sub) :: role.offers).filter (·.1 = "sub") = [("sub", .str sub)] := by
    rw [List.filter_cons_of_pos (by simp), List.filter_eq_nil_iff.mpr]
    exact fun entry h => by simpa using offers_name h
  have hrest : (("sub", Json.str sub) :: role.offers).filter (·.1 ≠ "sub") = role.offers := by
    rw [List.filter_cons_of_neg (by simp), List.filter_eq_self]
    exact fun entry h => by simpa using offers_name h
  simp only [ValidatedClaims.deserialize, hsub, hrest]
  rfl

theorem offered_value {role : RoleConfig} {sub claim : String} {requirement : ClaimRequirement}
    (h : role.claims[claim]? = some requirement) (hclaim : claim ≠ "sub") :
    (role.offered sub).value claim = some requirement.offer := by
  have hmem : (claim, requirement.offer) ∈ role.offers :=
    List.mem_map.mpr ⟨(claim, requirement), List.mem_filter.mpr
      ⟨Std.ExtTreeMap.mem_toList_iff_getElem?_eq_some.mpr h, decide_eq_true hclaim⟩, rfl⟩
  have hdistinct : role.offers.Pairwise fun a b => ¬ compare a.1 b.1 = .eq :=
    (Std.ExtTreeMap.distinct_keys_toList.filter _).map _ fun _ _ hne => hne
  rw [ValidatedClaims.value, if_neg hclaim]
  exact Std.ExtTreeMap.getElem?_ofList_of_mem (by simp) hdistinct hmem

/-- The subject that a role asks for, if it asks for one. -/
theorem exists_subject {role : RoleConfig} (h : role.validate = .ok ())
    (hsub : ∀ required, role.claims["sub"]? ≠ some (.contains required)) :
    ∃ sub : String, ∀ requirement, role.claims["sub"]? = some requirement →
      requirement.Needs (some (.str sub)) := by
  cases hclaim : role.claims["sub"]? with
  | none => exact ⟨"", fun _ hr => by cases hr⟩
  | some requirement =>
    obtain ⟨s, hs⟩ := requirement.offer_str fun required heq => hsub required (heq ▸ hclaim)
    refine ⟨s, fun requirement' hr => ?_⟩
    obtain rfl := Option.some.inj hr
    rw [← hs]
    exact ClaimRequirement.needs_offer (validate_claims h hclaim).2

theorem offered_accepted {role : RoleConfig} (h : role.validate = .ok ()) {sub : String}
    (hsub : ∀ requirement, role.claims["sub"]? = some requirement →
      requirement.Needs (some (.str sub))) :
    (role.offered sub).requireClaims role.claims = .ok () := by
  rw [ValidatedClaims.requireClaims_needs]
  intro claim requirement hclaim
  by_cases hname : claim = "sub"
  · subst hname
    exact hsub requirement hclaim
  · rw [offered_value hclaim hname]
    exact ClaimRequirement.needs_offer (validate_claims h hclaim).2

end RoleConfig

/-- **Which checked roles can be assumed.** Some payload decodes to claims that meet a checked role
exactly if the role does not look for an element in the subject. -/
theorem role_assumable_iff (role : RoleConfig) (h : role.validate = .ok ()) :
    (∃ payload c, ValidatedClaims.deserialize payload = some c ∧
      c.requireClaims role.claims = .ok ()) ↔
    ∀ required, role.claims["sub"]? ≠ some (.contains required) := by
  constructor
  · rintro ⟨payload, c, -, hc⟩ required hsub
    obtain ⟨elements, hvalue, -⟩ := ValidatedClaims.requireClaims_needs.mp hc "sub" _ hsub
    cases hvalue
  · intro hsub
    obtain ⟨sub, hsub⟩ := role.exists_subject h hsub
    exact ⟨_, _, role.offered_decoded sub, role.offered_accepted h hsub⟩

/-- A role for members of a group, whoever they are. -/
def groupRole (claim : String) : RoleConfig :=
  { name := "release-approvers", audience := "artifact-service", issuer := "https://issuer.example"
    validationKey := some "shared-secret", algorithms := [.hs256]
    claims := .ofList [(claim, ClaimRequirement.contains ⟨"release-approvers"⟩)] }

theorem role_assumable_iff_groups :
    ∃ payload c, ValidatedClaims.deserialize payload = some c ∧
      c.requireClaims (groupRole "groups").claims = .ok () := by
  refine (role_assumable_iff (groupRole "groups") (by decide)).mpr fun required hsub => ?_
  rw [groupRole, BTreeMap.getElem?_ofList] at hsub
  cases hsub

/-- A role that looks for its group in the subject is valid, and nobody can assume it. -/
theorem role_without_members :
    (groupRole "sub").validate = .ok () ∧
    (¬ ∃ c : ValidatedClaims, c.requireClaims (groupRole "sub").claims = .ok ()) ∧
    ¬ ∀ role : RoleConfig, role.validate = .ok () →
      ∃ c : ValidatedClaims, c.requireClaims role.claims = .ok () := by
  have hvalid : (groupRole "sub").validate = .ok () := by decide
  have hnobody : ¬ ∃ c : ValidatedClaims, c.requireClaims (groupRole "sub").claims = .ok () := by
    rintro ⟨c, hc⟩
    have hsub : (groupRole "sub").claims["sub"]? = some (.contains ⟨"release-approvers"⟩) := by
      rw [groupRole, BTreeMap.getElem?_ofList]
      rfl
    obtain ⟨elements, hvalue, -⟩ := ValidatedClaims.requireClaims_needs.mp hc "sub" _ hsub
    cases hvalue
  exact ⟨hvalid, hnobody, fun hclaim => hnobody (hclaim _ hvalid)⟩

end Authzoo
