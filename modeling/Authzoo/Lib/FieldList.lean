import Authzoo.Lib.Text

/-!
# Lib.FieldList

HTTP fields that are comma-separated lists of directives, as RFC 9110 reads them: the lines of a
field are one list, a comma inside a quoted string does not end an element, and an element is a name
in any letter case with an optional argument after `=`.

* `cut_subset` : the elements consist of characters of the text.
* `directive_lower` : an element is its name and argument again, up to letter case and blanks.
-/

namespace FieldList

/-- One field value for the lines of a field. -/
def join (lines : List (List Char)) : List Char := [','].intercalate lines

/-- The elements of a list; `quoted` says whether the text begins inside a quoted string. -/
def cut : Bool → List Char → List (List Char)
  | _, [] => [[]]
  | true, '\\' :: c :: s => (cut true s).modifyHead fun e => '\\' :: c :: e
  | false, ',' :: s => [] :: cut false s
  | quoted, '"' :: s => (cut (!quoted) s).modifyHead ('"' :: ·)
  | quoted, c :: s => (cut quoted s).modifyHead (c :: ·)

def isBlank (c : Char) : Bool := c = ' ' || c = '\t'

def trim (s : List Char) : List Char := (s.dropWhile isBlank).rdropWhile isBlank

/-- A name in lower case, and what follows the first `=`. -/
structure Directive where
  name : String
  argument : Option (List Char)
  deriving DecidableEq

def directive (element : List Char) : Directive where
  name := .ofList (((trim element).takeWhile (· ≠ '=')).map Char.toLower)
  argument :=
    match (trim element).dropWhile (· ≠ '=') with
    | [] => none
    | _ :: argument => some argument

def directives (value : List Char) : List Directive := (cut false value).map directive

/-- An argument that is an unsigned decimal number, possibly as a quoted string. -/
def IsSeconds (argument : List Char) (n : Nat) : Prop :=
  ∃ digits, (argument = digits ∨ argument = '"' :: digits ++ ['"']) ∧ digits ≠ [] ∧
    (∀ c ∈ digits, c.isDigit = true) ∧ Text.decimal digits = n

/-! ## Elements -/

theorem modifyHead_subset (added : List Char) {s : List Char} {l : List (List Char)}
    (h : ∀ e ∈ l, e ⊆ s) :
    ∀ e ∈ l.modifyHead (added ++ ·), e ⊆ added ++ s := by
  cases l with
  | nil => simp
  | cons a l =>
    intro e he
    rcases List.mem_cons.mp he with rfl | he
    · exact List.append_subset.mpr ⟨List.subset_append_left _ _,
        List.Subset.trans (h a List.mem_cons_self) (List.subset_append_right _ _)⟩
    · exact List.Subset.trans (h e (List.mem_cons_of_mem a he)) (List.subset_append_right _ _)

theorem cut_subset (quoted : Bool) (s : List Char) : ∀ e ∈ cut quoted s, e ⊆ s := by
  induction quoted, s using cut.induct with
  | case1 quoted => simp [cut]
  | case2 c s ih =>
    rw [cut]
    exact modifyHead_subset ['\\', c] ih
  | case3 s ih =>
    intro e he
    rw [cut] at he
    rcases List.mem_cons.mp he with rfl | he
    · exact List.nil_subset _
    · exact List.Subset.trans (ih e he) (List.subset_cons_self _ _)
  | case4 quoted s ih =>
    rw [cut]
    exact modifyHead_subset ['"'] ih
  | case5 quoted c s hescape hcomma hquote ih =>
    rw [cut]
    · exact modifyHead_subset [c] ih
    all_goals assumption

/-! ## Directives -/

/-- The element in lower case is its name, followed by `=` and the argument if there is one. -/
theorem directive_lower (element : List Char) :
    (trim element).map Char.toLower = (directive element).name.toList ++
      ((directive element).argument.elim [] fun a => '=' :: a.map Char.toLower) := by
  have hsplit := List.takeWhile_append_dropWhile (p := (· ≠ '=')) (l := trim element)
  simp only [directive, String.toList_ofList]
  split
  · rename_i hdrop
    rw [hdrop, List.append_nil] at hsplit
    rw [hsplit]
    simp
  · rename_i c argument hdrop
    have hc : c = '=' := by
      have hhead := List.head?_dropWhile_not (· ≠ '=') (trim element)
      rw [hdrop] at hhead
      simpa using hhead
    rw [hdrop, hc] at hsplit
    conv_lhs => rw [← hsplit]
    simp

/-- Only the sign itself has a sign as its lower case. -/
theorem toLower_sign {c d : Char} (hd : d.isLower = false) (h : c.toLower = d) : c = d := by
  unfold Char.toLower at h
  split at h
  · rename_i hupper
    simp only [ge_iff_le, UInt32.le_iff_toNat_le] at hupper
    have hval : d.val.toNat = c.val.toNat + 32 := by
      rw [← h]
      simp only [UInt32.toNat_add]
      have hle : c.val.toNat ≤ 90 := hupper.2
      exact Nat.mod_eq_of_lt (by omega : c.val.toNat + 32 < 2 ^ 32)
    have hge : 65 ≤ c.val.toNat := hupper.1
    have hle : c.val.toNat ≤ 90 := hupper.2
    have hlower : d.isLower = true := by
      delta Char.isLower
      simp only [ge_iff_le, UInt32.le_iff_toNat_le, Bool.and_eq_true, decide_eq_true_eq]
      exact ⟨(by omega : 97 ≤ d.val.toNat), (by omega : d.val.toNat ≤ 122)⟩
    rw [hlower] at hd
    cases hd
  · exact h

theorem name_no_eq (element : List Char) : '=' ∉ (directive element).name.toList := by
  intro h
  simp only [directive, String.toList_ofList, List.mem_map] at h
  obtain ⟨c, hc, hlower⟩ := h
  have hne : c ≠ '=' := by simpa using List.mem_takeWhile_imp hc
  exact hne (toLower_sign rfl hlower)

theorem toLower_digit {c : Char} (h : c.isDigit = true) : c.toLower = c := by
  unfold Char.toLower
  split
  · rename_i hupper
    simp only [Char.isDigit, ge_iff_le, UInt32.le_iff_toNat_le, Bool.and_eq_true,
      decide_eq_true_eq] at h hupper
    have hle : c.val.toNat ≤ 57 := h.2
    have hge : 65 ≤ c.val.toNat := hupper.1
    omega
  · rfl

theorem IsSeconds.lower {argument : List Char} {n : Nat} (h : IsSeconds argument n) :
    argument.map Char.toLower = argument := by
  obtain ⟨digits, hform, -, hdigits, -⟩ := h
  have hmap : digits.map Char.toLower = digits :=
    (List.map_congr_left fun c hc => toLower_digit (hdigits c hc)).trans (List.map_id digits)
  rcases hform with rfl | rfl
  · exact hmap
  · simp only [List.map_append, List.map_cons, List.map_nil, hmap]
    rfl

/-- The digits are what is left of the argument without its quotes. -/
theorem IsSeconds.trimMatches {argument : List Char} {n : Nat} (h : IsSeconds argument n) :
    ∃ digits, Text.trimMatches (· = '"') (.ofList argument) = .ofList digits ∧ digits ≠ [] ∧
      (∀ c ∈ digits, c.isDigit = true) ∧ Text.decimal digits = n := by
  obtain ⟨digits, hform, hne, hdigits, hvalue⟩ := h
  have hquote : ∀ c ∈ digits, decide (c = '"') = false := by
    intro c hc
    refine decide_eq_false fun hq => ?_
    have hdigit := hdigits c hc
    rw [hq] at hdigit
    cases hdigit
  refine ⟨digits, ?_, hne, hdigits, hvalue⟩
  rcases hform with rfl | rfl
  · simpa using Text.trimMatches_append (a := []) (b := []) (by simp) (by simp) hne hquote
  · exact Text.trimMatches_append (a := ['"']) (by simp) (by simp) hne hquote

end FieldList
