import Mathlib.Logic.Basic

/-!
# Lib.Outcome

Computations that end at their first failed check.

* `bind_eq_ok` : a sequence succeeds when its first step does and the rest does.
* `guard_eq_ok` : a guarded computation succeeds when the condition of the guard is false.
* `mapError_eq_ok` : it succeeds alike whatever is made of its errors.
* `Avoids` : no error of a kind is ever the result, step by step.
-/

namespace Outcome

variable {ε α β : Type}

theorem bind_eq_ok {x : Except ε α} {f : α → Except ε β} {b : β} :
    (x >>= f) = .ok b ↔ ∃ a, x = .ok a ∧ f a = .ok b := by
  cases x with
  | error e => simp [bind, Except.bind]
  | ok a => simp [bind, Except.bind]

theorem ok_bind (a : α) (f : α → Except ε β) : (Except.ok a >>= f) = f a := rfl

variable {c : Prop} [Decidable c] {e : ε} {x : Except ε α} {a : α}

theorem guard_eq_ok : (if c then .error e else x) = .ok a ↔ ¬ c ∧ x = .ok a := by
  by_cases hc : c
  · simp [hc]
  · simp [hc]

theorem mapError_eq_ok {ε' : Type} {f : ε → ε'} : x.mapError f = .ok a ↔ x = .ok a := by
  cases x with
  | error e => exact ⟨nofun, nofun⟩
  | ok a' => exact ⟨fun h => congrArg _ (Except.ok.inj h), fun h => congrArg _ (Except.ok.inj h)⟩

/-! ## Errors that a computation never ends with -/

def Avoids (bad : ε → Prop) (x : Except ε α) : Prop := ∀ e, x = .error e → ¬ bad e

namespace Avoids

variable {bad : ε → Prop}

theorem ok (a : α) : Avoids bad (.ok a : Except ε α) := nofun

theorem error {e : ε} (h : ¬ bad e) : Avoids bad (.error e : Except ε α) := by
  intro e' he
  cases he
  exact h

/-- An error that is passed on. -/
theorem passed {e : ε} (hx : Avoids bad x) (he : x = .error e) :
    Avoids bad (.error e : Except ε β) :=
  error (hx e he)

theorem ite {y : Except ε α} (hx : Avoids bad x) (hy : Avoids bad y) :
    Avoids bad (if c then x else y) := by
  split
  · exact hx
  · exact hy

theorem mapError {ε' : Type} {bad : ε' → Prop} {f : ε → ε'} (hx : Avoids (fun e => bad (f e)) x) :
    Avoids bad (x.mapError f) := by
  cases x with
  | error e => exact error (hx e rfl)
  | ok a => exact ok a

theorem bind {x : Except ε α} {f : α → Except ε β} (hx : Avoids bad x) (hf : ∀ a, Avoids bad (f a)) :
    Avoids bad (x >>= f) := by
  cases x with
  | error e => exact hx.passed rfl
  | ok a => exact hf a

end Avoids

end Outcome
