import Mathlib.Data.List.DropRight

/-!
# Lib.Text

Text operations of a standard library that Lean's own strings do not have in this form, over lists
of characters, and how a search for a marker relates to a test for it at the start.

* `trim` removes Unicode white space, `trimEndMatches` and `trimMatches` remove given characters.
* `dropInfix_start` : after skipping white space a text starts with a marker exactly when only white
  space stands before the marker's first occurrence.
-/

namespace Text

/-- The Unicode property `White_Space`. -/
def isWhitespace (c : Char) : Bool :=
  (9 ≤ c.val ∧ c.val ≤ 13) ∨ c.val = 0x20 ∨ c.val = 0x85 ∨ c.val = 0xA0 ∨ c.val = 0x1680 ∨
    (0x2000 ≤ c.val ∧ c.val ≤ 0x200A) ∨ c.val = 0x2028 ∨ c.val = 0x2029 ∨ c.val = 0x202F ∨
    c.val = 0x205F ∨ c.val = 0x3000

def trimStart (s : String) : String := .ofList (s.toList.dropWhile isWhitespace)

def trim (s : String) : String := .ofList ((s.toList.dropWhile isWhitespace).rdropWhile isWhitespace)

def trimEndMatches (p : Char → Bool) (s : String) : String := .ofList (s.toList.rdropWhile p)

def trimMatches (p : Char → Bool) (s : String) : String :=
  .ofList ((s.toList.dropWhile p).rdropWhile p)

def startsWith (s marker : String) : Bool := (s.toList.dropPrefix? marker.toList).isSome

def contains (s : String) (c : Char) : Bool := s.toList.contains c

/-- The number a list of decimal digits stands for. -/
def decimal (digits : List Char) : Nat := digits.foldl (fun n c => 10 * n + (c.toNat - 48)) 0

/-- What stands between skipped characters, if it has none of them. -/
theorem trimMatches_append {p : Char → Bool} {a inner b : List Char}
    (ha : ∀ c ∈ a, p c = true) (hb : ∀ c ∈ b, p c = true) (hne : inner ≠ [])
    (hinner : ∀ c ∈ inner, p c = false) :
    trimMatches p (.ofList (a ++ inner ++ b)) = .ofList inner := by
  have hself : inner.rdropWhile p = inner := by
    refine List.rdropWhile_eq_self_iff.mpr fun hne => ?_
    rw [hinner _ (List.getLast_mem hne)]
    exact Bool.false_ne_true
  have hbehind : (inner ++ b).rdropWhile p = inner.rdropWhile p := by
    rw [List.rdropWhile, List.reverse_append, List.dropWhile_append_of_pos (by simpa using hb)]
    rfl
  obtain ⟨c, rest, rfl⟩ := List.exists_cons_of_ne_nil hne
  have hfirst : (c :: rest ++ b).dropWhile p = c :: rest ++ b :=
    List.dropWhile_cons_of_neg (by rw [hinner c List.mem_cons_self]; exact Bool.false_ne_true)
  rw [trimMatches, String.toList_ofList, List.append_assoc, List.dropWhile_append_of_pos ha,
    hfirst, hbehind, hself]

section

variable {α : Type}

theorem dropWhile_congr {p q : α → Bool} {l : List α} (h : ∀ x ∈ l, p x = q x) :
    l.dropWhile p = l.dropWhile q := by
  induction l with
  | nil => rfl
  | cons a l ih =>
    rw [List.dropWhile_cons, List.dropWhile_cons, h a List.mem_cons_self,
      ih fun x hx => h x (List.mem_cons_of_mem a hx)]

/-- Removing at both ends depends only on which elements of the list are removed. -/
theorem strip_congr {p q : α → Bool} {l : List α} (h : ∀ x ∈ l, p x = q x) :
    (l.dropWhile p).rdropWhile p = (l.dropWhile q).rdropWhile q := by
  rw [dropWhile_congr h, List.rdropWhile, List.rdropWhile]
  congr 1
  refine dropWhile_congr fun x hx => h x ?_
  exact (List.dropWhile_sublist _).subset (List.mem_reverse.mp hx)

/-- Where the elements that are taken end. -/
theorem takeWhile_append {f : α → Bool} {s t : List α} (h : ∀ x ∈ s, f x = true)
    (ht : ∀ x, t.head? = some x → f x = false) :
    (s ++ t).takeWhile f = s ∧ (s ++ t).dropWhile f = t := by
  rw [List.takeWhile_append_of_pos h, List.dropWhile_append_of_pos h]
  cases t with
  | nil => simp
  | cons x t => simp [ht x rfl]

/-- A test tells two elements apart. -/
theorem ne_of_test {p : α → Bool} {a b : α} (ha : p a = true) (hb : p b = false) : a ≠ b :=
  ne_of_apply_ne p (by simp [ha, hb])

theorem takeWhile_ne [DecidableEq α] {a : α} {front back : List α} (h : a ∉ front) :
    (front ++ a :: back).takeWhile (· ≠ a) = front := by
  have hall : ∀ x ∈ front, decide (x ≠ a) = true := fun x hx =>
    decide_eq_true fun he => h (he ▸ hx)
  refine (takeWhile_append hall fun x hx => ?_).1
  obtain rfl : a = x := Option.some.inj hx
  exact decide_eq_false fun hne => hne rfl

end

section Marker

variable {α : Type} [DecidableEq α]

theorem dropPrefix_eq_some {s marker rest : List α} :
    s.dropPrefix? marker = some rest ↔ s = marker ++ rest := by
  rw [List.dropPrefix?_eq_some_iff]
  constructor
  · intro h
    obtain ⟨marker', hs, he⟩ := h
    rw [hs, eq_of_beq he]
  · intro h
    exact ⟨marker, h, beq_self_eq_true marker⟩

theorem dropPrefix_isSome {s marker : List α} :
    (s.dropPrefix? marker).isSome = true ↔ marker <+: s := by
  rw [Option.isSome_iff_exists]
  constructor
  · intro h
    obtain ⟨rest, hrest⟩ := h
    exact ⟨rest, (dropPrefix_eq_some.mp hrest).symm⟩
  · intro h
    obtain ⟨rest, hrest⟩ := h
    exact ⟨rest, dropPrefix_eq_some.mpr hrest.symm⟩

/-- What is dropped to reach a marker, and that no shorter prefix reaches it. -/
theorem dropInfix_spec {s marker before rest : List α}
    (h : s.dropInfix? marker = some (before, rest)) :
    s = before ++ (marker ++ rest) ∧
      ∀ before' rest', s = before' ++ (marker ++ rest') → before.length ≤ before'.length := by
  obtain ⟨⟨marker', hs, he⟩, hmin⟩ := List.dropInfix?_eq_some_iff.mp h
  rw [eq_of_beq he, List.append_assoc] at hs
  refine ⟨hs, fun before' rest' hs' => ?_⟩
  exact hmin before' marker rest' (by rw [hs', List.append_assoc]) (beq_self_eq_true marker)

/-- A marker is first found behind a text that does not contain its first element. -/
theorem dropInfix_append {a : α} {before : List α} (h : a ∉ before) (marker rest : List α) :
    (before ++ (a :: marker ++ rest)).dropInfix? (a :: marker) = some (before, rest) := by
  rw [List.dropInfix?_eq_some_iff]
  refine ⟨⟨a :: marker, by simp, beq_self_eq_true _⟩, fun before' marker' rest' hs he => ?_⟩
  rw [eq_of_beq he, List.append_assoc] at hs
  by_contra hlt
  have hto : before' ++ [a] <+: before' ++ (a :: marker ++ rest') := ⟨marker ++ rest', by simp⟩
  have hin : before' ++ [a] <+: before := by
    refine List.prefix_of_prefix_length_le hto (hs ▸ List.prefix_append _ _) ?_
    simp only [List.length_append, List.length_singleton]
    omega
  exact h (List.IsPrefix.subset hin (by simp))

/-- A marker that starts with no skipped element is found after skipping exactly when everything
before its first occurrence is skipped. -/
theorem dropInfix_start {skip : α → Bool} {a : α} {marker s before rest : List α}
    (ha : skip a = false) (h : s.dropInfix? (a :: marker) = some (before, rest)) :
    a :: marker <+: s.dropWhile skip ↔ ∀ x ∈ before, skip x = true := by
  obtain ⟨hs, hmin⟩ := dropInfix_spec h
  constructor
  · intro hpre
    obtain ⟨rest', hrest'⟩ := hpre
    have hsplit : s = s.takeWhile skip ++ (a :: marker ++ rest') := by
      rw [hrest', List.takeWhile_append_dropWhile]
    have hlen := hmin _ _ hsplit
    have hbefore : before <+: s.takeWhile skip :=
      List.prefix_of_prefix_length_le ⟨_, hs.symm⟩ (List.takeWhile_prefix skip) hlen
    intro x hx
    exact List.mem_takeWhile_imp (List.IsPrefix.subset hbefore hx)
  · intro hall
    rw [hs, List.dropWhile_append_of_pos hall, List.cons_append,
      List.dropWhile_cons_of_neg (by simp [ha])]
    exact List.prefix_append (a :: marker) rest

end Marker

end Text
