import Mathlib.Data.List.Basic

/-!
# Lib.Words

The words of a text between occurrences of a separator, over any alphabet.

* `Separates` says what the words are: the longest stretches without the separator, in order.
* `words` computes them by splitting and dropping the empty pieces; `separates_iff` says that the
  two agree.
* `words_intercalate` : words joined by a separator are read back.
-/

namespace Words

variable {α : Type} [DecidableEq α] {sep : α}

def words (sep : α) (text : List α) : List (List α) := (text.splitOn sep).filter (· ≠ [])

inductive Separates (sep : α) : List α → List (List α) → Prop where
  | nil : Separates sep [] []
  | skip {text : List α} {ws : List (List α)} (h : Separates sep text ws) :
      Separates sep (sep :: text) ws
  | last {w : List α} (hne : w ≠ []) (hsep : sep ∉ w) : Separates sep w [w]
  | word {w text : List α} {ws : List (List α)} (hne : w ≠ []) (hsep : sep ∉ w)
      (h : Separates sep text ws) : Separates sep (w ++ sep :: text) (w :: ws)

theorem words_nil : words sep [] = [] := rfl

theorem words_append_sep (x y : List α) : words sep (x ++ sep :: y) = words sep x ++ words sep y := by
  simp only [words, List.splitOn_append_cons_self, List.filter_append]

theorem words_sep (text : List α) : words sep (sep :: text) = words sep text :=
  words_append_sep [] text

theorem words_single {w : List α} (hne : w ≠ []) (hsep : sep ∉ w) : words sep w = [w] := by
  simp [words, List.splitOn_eq_singleton hsep, hne]

theorem separates_words (sep : α) (text : List α) : Separates sep text (words sep text) := by
  induction h : text.length using Nat.strongRecOn generalizing text with
  | ind n ih =>
    by_cases hsep : sep ∈ text
    · obtain ⟨w, rest, rfl, hw⟩ := List.eq_append_cons_of_mem hsep
      have hlen : rest.length < n := by
        rw [← h, List.length_append, List.length_cons]
        omega
      have hrest := ih _ hlen rest rfl
      rw [words_append_sep]
      by_cases hne : w = []
      · subst hne
        exact .skip hrest
      · rw [words_single hne hw]
        exact .word hne hw hrest
    · by_cases hne : text = []
      · subst hne
        exact .nil
      · rw [words_single hne hsep]
        exact .last hne hsep

theorem separates_iff {text : List α} {ws : List (List α)} :
    Separates sep text ws ↔ words sep text = ws := by
  constructor
  · intro h
    induction h with
    | nil => exact words_nil
    | skip h ih => rw [words_sep, ih]
    | last hne hsep => exact words_single hne hsep
    | word hne hsep h ih => rw [words_append_sep, words_single hne hsep, ih, List.singleton_append]
  · intro h
    exact h ▸ separates_words sep text

/-- Joining and splitting: words joined by the separator are read back. -/
theorem words_intercalate {ws : List (List α)} (hne : ∀ w ∈ ws, w ≠ []) (hsep : ∀ w ∈ ws, sep ∉ w) :
    words sep ([sep].intercalate ws) = ws := by
  by_cases hnil : ws = []
  · subst hnil
    rfl
  · rw [words, List.splitOn_intercalate sep hsep hnil, List.filter_eq_self]
    simpa using hne

end Words
