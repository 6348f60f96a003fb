import Mathlib.Data.List.Nodup
import Mathlib.Data.List.Perm.Basic

/-!
# Lib.Assoc

Association lists whose keys are distinct.

* `lookup_iff_mem` : the entries are what `List.lookup` finds.
* `lookup_perm` : the order of the entries does not matter.
* `filter_key` : a key has one entry.
-/

namespace Assoc

variable {K V : Type} {l l' : List (K × V)} {k k' : K} {v : V}

def Distinct (l : List (K × V)) : Prop := (l.map Prod.fst).Nodup

theorem Distinct.perm (h : Distinct l) (hp : l.Perm l') : Distinct l' := (hp.map _).nodup_iff.mp h

variable [DecidableEq K]

theorem lookup_mem (h : l.lookup k = some v) : (k, v) ∈ l := by
  obtain ⟨before, after, rfl, -⟩ := List.lookup_eq_some_iff.mp h
  exact List.mem_append_right _ List.mem_cons_self

theorem lookup_iff_mem (h : Distinct l) : l.lookup k = some v ↔ (k, v) ∈ l := by
  refine ⟨lookup_mem, fun hin => ?_⟩
  obtain ⟨before, after, rfl⟩ := List.append_of_mem hin
  refine List.lookup_eq_some_iff.mpr ⟨before, after, rfl, fun entry hentry => ?_⟩
  rw [Distinct, List.map_append, List.map_cons] at h
  have hnew : k ∉ before.map Prod.fst := fun hk =>
    (List.nodup_append.mp h).2.2 k hk k List.mem_cons_self rfl
  exact bne_iff_ne.mpr fun hsame => hnew (hsame ▸ List.mem_map_of_mem hentry)

theorem lookup_perm (h : Distinct l) (hp : l.Perm l') : l'.lookup k = l.lookup k := by
  refine Option.ext fun v => ?_
  rw [lookup_iff_mem h, lookup_iff_mem (h.perm hp), hp.mem_iff]

theorem filter_key (h : Distinct l) (hin : (k, v) ∈ l) : l.filter (·.1 = k) = [(k, v)] := by
  obtain ⟨before, after, rfl⟩ := List.append_of_mem hin
  rw [Distinct, List.map_append, List.map_cons] at h
  obtain ⟨-, hafter, hdisjoint⟩ := List.nodup_append.mp h
  have hbefore : before.filter (·.1 = k) = [] := List.filter_eq_nil_iff.mpr fun entry hentry hk =>
    hdisjoint entry.1 (List.mem_map_of_mem hentry) k List.mem_cons_self (of_decide_eq_true hk)
  have hrest : after.filter (·.1 = k) = [] := List.filter_eq_nil_iff.mpr fun entry hentry hk =>
    (List.nodup_cons.mp hafter).1
      (List.mem_map.mpr ⟨entry, hentry, of_decide_eq_true hk⟩)
  rw [List.filter_append, List.filter_cons_of_pos (by simp), hbefore, hrest, List.nil_append]

theorem lookup_filter_ne (h : k ≠ k') : (l.filter (·.1 ≠ k')).lookup k = l.lookup k := by
  induction l with
  | nil => rfl
  | cons entry l ih =>
    obtain ⟨key, value⟩ := entry
    by_cases hkey : key = k'
    · subst hkey
      rw [List.filter_cons_of_neg (by simp), ih, List.lookup_cons, beq_false_of_ne h]
    · rw [List.filter_cons_of_pos (by simpa using hkey), List.lookup_cons, List.lookup_cons, ih]

end Assoc
