import Mathlib.Data.Set.Insert
import Authzoo.Config
import Authzoo.Lib.Outcome

/-!
# Authzoo.Requirement

What a claim requirement means. The four forms of `config.rs` are one notion: a set of acceptable
values, of which the claim must offer one. A text is offered by a string claim, an element by an
array claim.

* `matchesValue_iff`, `matchesStr_iff` : the matching functions test exactly that.
* `requireClaims_ok` : what `require_claims` has checked when it succeeds.
* `validateClaims_ok` : what a checked configuration guarantees about its requirements.
-/

namespace Authzoo

inductive Acceptable where
  | text (s : String)
  | element (s : String)

namespace Acceptable

@[simp] def string : Acceptable → String
  | .text s => s
  | .element s => s

/-- A claim with this value offers what is asked for. -/
def OfferedBy : Acceptable → Json → Prop
  | .text s, value => value = .str s
  | .element s, value => ∃ elements, value = .arr elements ∧ .str s ∈ elements

end Acceptable

namespace ClaimRequirement

def acceptable : ClaimRequirement → Set Acceptable
  | .equals value => {.text value}
  | .anyOf values => {a | ∃ value ∈ values, a = .text value}
  | .detailed requirement => {a | ∃ value ∈ requirement.anyOf, a = .text value}
  | .contains requirement => {.element requirement.contains}

@[simp] theorem mem_equals {value : String} {a : Acceptable} :
    a ∈ (equals value).acceptable ↔ a = .text value := Iff.rfl

@[simp] theorem mem_anyOf {values : List String} {a : Acceptable} :
    a ∈ (anyOf values).acceptable ↔ ∃ value ∈ values, a = .text value := Iff.rfl

@[simp] theorem mem_detailed {requirement : DetailedClaimRequirement} {a : Acceptable} :
    a ∈ (detailed requirement).acceptable ↔ ∃ value ∈ requirement.anyOf, a = .text value := Iff.rfl

@[simp] theorem mem_contains {requirement : ContainsClaimRequirement} {a : Acceptable} :
    a ∈ (contains requirement).acceptable ↔ a = .element requirement.contains := Iff.rfl

def MetBy (requirement : ClaimRequirement) (value : Option Json) : Prop :=
  ∃ a ∈ requirement.acceptable, ∃ given, value = some given ∧ a.OfferedBy given

theorem MetBy.mono {r r' : ClaimRequirement} (h : r'.acceptable ⊆ r.acceptable)
    {value : Option Json} (hmet : r'.MetBy value) : r.MetBy value := by
  obtain ⟨a, ha, given⟩ := hmet
  exact ⟨a, h ha, given⟩

end ClaimRequirement

theorem Json.asStr_eq_some {value : Json} {s : String} : value.asStr = some s ↔ value = .str s := by
  cases value <;> simp [Json.asStr]

theorem Json.asArray_eq_some {value : Json} {elements : List Json} :
    value.asArray = some elements ↔ value = .arr elements := by
  cases value <;> simp [Json.asArray]

namespace ClaimRequirement

theorem matchesStr_iff {requirement : ClaimRequirement} {value : Option String} :
    requirement.matchesStr value = true ↔
      ∃ s, value = some s ∧ Acceptable.text s ∈ requirement.acceptable := by
  cases requirement with
  | equals required => simp [matchesStr]
  | anyOf required => simp [matchesStr, and_comm]
  | detailed required => simp [matchesStr, and_comm]
  | contains required => simp [matchesStr]

theorem metBy_text {requirement : ClaimRequirement} {value : Option Json}
    (h : ∀ a ∈ requirement.acceptable, ∃ s, a = .text s) :
    requirement.MetBy value ↔
      ∃ s, value.bind Json.asStr = some s ∧ Acceptable.text s ∈ requirement.acceptable := by
  constructor
  · rintro ⟨a, ha, given, rfl, hoffered⟩
    obtain ⟨s, rfl⟩ := h a ha
    exact ⟨s, Json.asStr_eq_some.mpr hoffered, ha⟩
  · rintro ⟨s, hs, hin⟩
    obtain ⟨given, rfl, hgiven⟩ := Option.bind_eq_some_iff.mp hs
    exact ⟨_, hin, given, rfl, Json.asStr_eq_some.mp hgiven⟩

theorem metBy_contains {required : ContainsClaimRequirement} {value : Option Json} :
    (contains required).MetBy value ↔
      ∃ elements, value.bind Json.asArray = some elements ∧ .str required.contains ∈ elements := by
  constructor
  · rintro ⟨a, ha, given, rfl, hoffered⟩
    obtain rfl := mem_contains.mp ha
    obtain ⟨elements, harr, hin⟩ := hoffered
    exact ⟨elements, Json.asArray_eq_some.mpr harr, hin⟩
  · rintro ⟨elements, harr, hin⟩
    obtain ⟨given, rfl, hgiven⟩ := Option.bind_eq_some_iff.mp harr
    exact ⟨_, rfl, given, rfl, elements, Json.asArray_eq_some.mp hgiven, hin⟩

theorem matchesValue_iff {requirement : ClaimRequirement} {value : Option Json} :
    requirement.matchesValue value = true ↔ requirement.MetBy value := by
  cases requirement with
  | equals required =>
    rw [metBy_text fun a ha => ⟨required, mem_equals.mp ha⟩, ← matchesStr_iff]
    rfl
  | anyOf required =>
    have htext : ∀ a ∈ (anyOf required).acceptable, ∃ s, a = .text s := by
      intro a ha
      obtain ⟨s, -, h⟩ := mem_anyOf.mp ha
      exact ⟨s, h⟩
    rw [metBy_text htext, ← matchesStr_iff]
    rfl
  | detailed required =>
    have htext : ∀ a ∈ (detailed required).acceptable, ∃ s, a = .text s := by
      intro a ha
      obtain ⟨s, -, h⟩ := mem_detailed.mp ha
      exact ⟨s, h⟩
    rw [metBy_text htext, ← matchesStr_iff]
    rfl
  | contains required =>
    rw [metBy_contains]
    simp only [matchesValue]
    cases value.bind Json.asArray with
    | none => simp
    | some elements => simp [Json.asStr_eq_some]

end ClaimRequirement

/-! ## Decoded claims -/

section

variable {K V : Type} [Ord K] [DecidableEq K] [Std.TransOrd K] [Std.LawfulEqOrd K]

theorem BTreeMap.getElem?_insertMany (m : BTreeMap K V) (l : List (K × V)) (k : K) :
    (m.insertMany l)[k]? = (l.reverse.lookup k).or m[k]? := by
  induction l generalizing m with
  | nil => simp
  | cons head l ih =>
    obtain ⟨a, b⟩ := head
    rw [Std.ExtTreeMap.insertMany_cons, ih, List.reverse_cons, List.lookup_append, Option.or_assoc,
      Std.ExtTreeMap.getElem?_insert]
    by_cases h : k = a
    · subst h
      simp
    · have hcmp : compare a k ≠ .eq := fun heq => h (Std.LawfulEqCmp.eq_of_compare heq).symm
      have hbeq : (k == a) = false := beq_false_of_ne h
      simp [hcmp, List.lookup_cons, hbeq]

/-- The last value of a repeated key counts. -/
theorem BTreeMap.getElem?_ofList (l : List (K × V)) (k : K) :
    (Std.ExtTreeMap.ofList l compare)[k]? = l.reverse.lookup k := by
  rw [Std.ExtTreeMap.ofList_eq_insertMany_empty, BTreeMap.getElem?_insertMany]
  simp

end

namespace ValidatedClaims

/-- The value of a claim, the subject included. -/
def value (self : ValidatedClaims) (claimName : String) : Option Json :=
  if claimName = "sub" then some (.str self.sub) else self.claims[claimName]?

theorem satisfies_iff {self : ValidatedClaims} {claimName : String}
    {requirement : ClaimRequirement} :
    self.satisfies claimName requirement = true ↔ requirement.MetBy (self.value claimName) := by
  unfold satisfies value
  split
  · rw [← ClaimRequirement.matchesValue_iff]
    cases requirement with
    | contains required =>
      simp [ClaimRequirement.matchesStr, ClaimRequirement.matchesValue, Json.asArray]
    | _ => rfl
  · exact ClaimRequirement.matchesValue_iff

theorem requireClaims_ok {self : ValidatedClaims}
    {requiredClaims : BTreeMap String ClaimRequirement} :
    self.requireClaims requiredClaims = .ok () ↔
      ∀ (claimName : String) (requirement : ClaimRequirement),
        requiredClaims[claimName]? = some requirement → requirement.MetBy (self.value claimName) := by
  have hfound : self.requireClaims requiredClaims = .ok () ↔
      self.firstMissingRequiredClaim requiredClaims = none := by
    unfold requireClaims
    cases self.firstMissingRequiredClaim requiredClaims <;> simp
  rw [hfound, firstMissingRequiredClaim, List.find?_eq_none]
  simp only [Prod.forall, Std.ExtTreeMap.mem_toList_iff_getElem?_eq_some, Bool.not_eq_true',
    Bool.not_eq_false, satisfies_iff]

theorem deserialize_ok {p : Json} {c : ValidatedClaims} (h : deserialize p = some c) :
    ∃ members, p = .obj members ∧ members.filter (·.1 = "sub") = [("sub", .str c.sub)] ∧
      c.claims = .ofList (members.filter (·.1 ≠ "sub")) := by
  cases p with
  | obj members =>
    simp only [deserialize] at h
    split at h
    · rename_i name sub hsub
      cases h
      have hname : (name, Json.str sub) ∈ members.filter (·.1 = "sub") :=
        hsub ▸ List.mem_singleton_self _
      have hname : name = "sub" := by simpa using (List.mem_filter.mp hname).2
      exact ⟨members, rfl, hname ▸ hsub, rfl⟩
    · cases h
  | _ => cases h

/-- A decoded claim is a member of the payload. -/
theorem value_mem {p : Json} {c : ValidatedClaims} (h : deserialize p = some c) {claimName : String}
    {given : Json} (hgiven : c.value claimName = some given) :
    ∃ members, p = .obj members ∧ (claimName, given) ∈ members := by
  obtain ⟨members, rfl, hsub, hclaims⟩ := deserialize_ok h
  refine ⟨members, rfl, ?_⟩
  unfold value at hgiven
  split at hgiven
  · rename_i hname
    cases hgiven
    have hmem : ("sub", Json.str c.sub) ∈ members.filter (·.1 = "sub") :=
      hsub ▸ List.mem_singleton_self _
    exact hname ▸ (List.mem_filter.mp hmem).1
  · rw [hclaims, BTreeMap.getElem?_ofList] at hgiven
    obtain ⟨before, after, hsplit, -⟩ := List.lookup_eq_some_iff.mp hgiven
    have hmem : (claimName, given) ∈ (members.filter (·.1 ≠ "sub")).reverse := by
      rw [hsplit]
      exact List.mem_append_right _ List.mem_cons_self
    exact (List.mem_filter.mp (List.mem_reverse.mp hmem)).1

end ValidatedClaims

/-! ## Checked requirements -/

/-- A requirement that passes `validate` accepts no empty text. -/
theorem ClaimRequirement.string_ne_empty {requirement : ClaimRequirement}
    (h : requirement.isEmpty = false) {a : Acceptable} (ha : a ∈ requirement.acceptable) :
    a.string ≠ "" := by
  cases requirement with
  | equals required =>
    rw [mem_equals.mp ha]
    simpa [isEmpty] using h
  | anyOf required =>
    obtain ⟨s, hs, rfl⟩ := mem_anyOf.mp ha
    simp only [isEmpty, Bool.or_eq_false_iff, List.any_eq_false] at h
    simpa using h.2 s hs
  | detailed required =>
    obtain ⟨s, hs, rfl⟩ := mem_detailed.mp ha
    simp only [isEmpty, Bool.or_eq_false_iff, List.any_eq_false] at h
    simpa using h.2 s hs
  | contains required =>
    rw [mem_contains.mp ha]
    simpa [isEmpty] using h

theorem RoleConfig.validateClaims_cons {role claim : String} {requirement : ClaimRequirement}
    {rest : List (String × ClaimRequirement)} :
    validateClaims role ((claim, requirement) :: rest) = .ok () ↔
      (claim ≠ "" ∧ requirement.isEmpty = false) ∧ validateClaims role rest = .ok () := by
  simp only [validateClaims, ClaimRequirement.validate, Outcome.guard_eq_ok]
  cases requirement.isEmpty <;> simp

theorem RoleConfig.validateClaims_ok {role : String} {claims : List (String × ClaimRequirement)} :
    validateClaims role claims = .ok () ↔
      ∀ entry ∈ claims, entry.1 ≠ "" ∧ entry.2.isEmpty = false := by
  induction claims with
  | nil => simp [validateClaims]
  | cons entry rest ih => rw [List.forall_mem_cons, ← ih, ← validateClaims_cons]

theorem RoleConfig.validate_claims {role : RoleConfig} (h : role.validate = .ok ()) {claim : String}
    {requirement : ClaimRequirement} (hclaim : role.claims[claim]? = some requirement) :
    claim ≠ "" ∧ requirement.isEmpty = false := by
  simp only [validate, Outcome.guard_eq_ok] at h
  obtain ⟨-, -, -, -, -, hclaims⟩ := h
  exact validateClaims_ok.mp hclaims (claim, requirement)
    (Std.ExtTreeMap.mem_toList_iff_getElem?_eq_some.mpr hclaim)

end Authzoo
