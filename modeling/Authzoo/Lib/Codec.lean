import Mathlib.Data.List.Forall2

/-!
# Lib.Codec

Encodings that can be read back: a value is what decoding its encoding gives.

* `encode_inj` : different values have different encodings.
* `mapM_encode`, `mapM_entries` : lists and keyed entries of values are read back as well.
* `mapM_eq_some` : where nothing but encodings can be read, a list that can be read is a list of them.
* `mapM_iff` : a list is decoded element by element.
-/

structure Codec (T α : Type) where
  encode : α → T
  decode : T → Option α
  decode_encode : ∀ a, decode (encode a) = some a

namespace Codec

variable {T α : Type} (c : Codec T α)

theorem encode_inj {a b : α} (h : c.encode a = c.encode b) : a = b := by
  have hdecode := congrArg c.decode h
  rwa [c.decode_encode, c.decode_encode, Option.some.injEq] at hdecode

theorem mapM_encode (as : List α) : (as.map c.encode).mapM c.decode = some as := by
  induction as with
  | nil => rfl
  | cons a as ih => simp [List.mapM_cons, c.decode_encode, ih]

theorem mapM_eq_some (h : ∀ t a, c.decode t = some a → t = c.encode a) {ts : List T} {as : List α}
    (hts : ts.mapM c.decode = some as) : ts = as.map c.encode := by
  induction ts generalizing as with
  | nil =>
    cases hts
    rfl
  | cons t ts ih =>
    simp only [List.mapM_cons, bind, Option.bind_eq_some_iff, pure, Option.some.injEq] at hts
    obtain ⟨a, ha, rest, hrest, rfl⟩ := hts
    rw [h t a ha, ih hrest, List.map_cons]

/-- An entry keeps its key. -/
def entry {K : Type} (decode : T → Option α) : K × T → Option (K × α)
  | (key, t) => (decode t).map fun a => (key, a)

theorem mapM_entries {K : Type} (entries : List (K × α)) :
    (entries.map fun (key, a) => (key, c.encode a)).mapM (entry c.decode) = some entries := by
  induction entries with
  | nil => rfl
  | cons head entries ih => simp [List.mapM_cons, entry, c.decode_encode, ih]

theorem mapM_iff {decode : T → Option α} {ts : List T} {as : List α} :
    ts.mapM decode = some as ↔ List.Forall₂ (fun t a => decode t = some a) ts as := by
  induction ts generalizing as with
  | nil => simp [eq_comm]
  | cons t ts ih =>
    simp only [List.mapM_cons, bind, Option.bind_eq_some_iff, pure, Option.some.injEq,
      List.forall₂_cons_left_iff, ih]
    constructor
    · rintro ⟨a, ha, rest, hrest, rfl⟩
      exact ⟨a, rest, ha, hrest, rfl⟩
    · rintro ⟨a, rest, ha, hrest, rfl⟩
      exact ⟨a, ha, rest, hrest, rfl⟩

end Codec
