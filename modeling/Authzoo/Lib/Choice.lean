import Mathlib.Data.List.Basic

/-!
# Lib.Choice

Choosing an element of a list by a test: the first that passes, or the only one.

* `find_iff_mem` : where all that pass are one element, the first is found by membership.
* `exists_perm_find` : in some order of the list any element that passes is the first.
* `find_iff_least` : in an ordered list the first element that passes is the least.
* `filter_eq_singleton_perm` : the only element that passes is the same in every order.
-/

namespace Choice

variable {α : Type} {p : α → Bool} {l l' : List α} {a : α}

theorem find_iff_mem (h : ∀ x ∈ l, ∀ y ∈ l, p x = true → p y = true → x = y) :
    l.find? p = some a ↔ a ∈ l ∧ p a = true := by
  constructor
  · intro hf
    exact ⟨List.mem_of_find?_eq_some hf, List.find?_some hf⟩
  · rintro ⟨ha, hpa⟩
    cases hf : l.find? p with
    | none => exact absurd hpa (List.find?_eq_none.mp hf a ha)
    | some b => rw [h b (List.mem_of_find?_eq_some hf) a ha (List.find?_some hf) hpa]

theorem exists_perm_find (ha : a ∈ l) (hp : p a = true) :
    ∃ l' : List α, l'.Perm l ∧ l'.find? p = some a := by
  obtain ⟨before, after, rfl⟩ := List.append_of_mem ha
  exact ⟨a :: (before ++ after), List.perm_middle.symm, List.find?_cons_of_pos hp⟩

theorem find_iff_least {r : α → α → Prop} (hr : ∀ x y, r x y → ¬ r y x) (h : l.Pairwise r) :
    l.find? p = some a ↔ a ∈ l ∧ p a = true ∧ ∀ x ∈ l, p x = true → x = a ∨ r a x := by
  constructor
  · intro hf
    obtain ⟨hp, before, after, rfl, hbefore⟩ := List.find?_eq_some_iff_append.mp hf
    refine ⟨List.mem_append_right _ List.mem_cons_self, hp, fun x hx hpx => ?_⟩
    rcases List.mem_append.mp hx with hx | hx
    · exact absurd hpx (by simpa using hbefore x hx)
    · rcases List.mem_cons.mp hx with rfl | hx
      · exact .inl rfl
      · exact .inr (List.rel_of_pairwise_cons (List.pairwise_append.mp h).2.1 hx)
  · rintro ⟨ha, hp, hleast⟩
    cases hf : l.find? p with
    | none => exact absurd hp (List.find?_eq_none.mp hf a ha)
    | some b =>
      -- whatever is found stands before `a` or is `a`
      obtain ⟨hpb, before, after, rfl, hbefore⟩ := List.find?_eq_some_iff_append.mp hf
      rcases List.mem_append.mp ha with ha | ha
      · exact absurd hp (by simpa using hbefore a ha)
      · rcases List.mem_cons.mp ha with rfl | ha
        · rfl
        · have hba := List.rel_of_pairwise_cons (List.pairwise_append.mp h).2.1 ha
          rcases hleast b (List.mem_append_right _ List.mem_cons_self) hpb with rfl | hab
          · rfl
          · exact absurd hab (hr b a hba)

theorem filter_eq_singleton_perm (h : l.Perm l') : l.filter p = [a] ↔ l'.filter p = [a] := by
  have hfilter := h.filter p
  constructor
  · intro hl
    exact List.perm_singleton.mp (hl ▸ hfilter.symm)
  · intro hl
    exact List.perm_singleton.mp (hl ▸ hfilter)

end Choice
