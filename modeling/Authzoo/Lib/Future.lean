import Mathlib.Logic.Basic

/-!
# Lib.Future

Asynchronous computations as an executor drives them. A poll may change the world it runs in; it is
either pending or gives the result, and a computation that gave its result is not polled again. An
executor may also end a poll of `select` or `timeout` before it comes to a branch, when the task has
used up its budget; that is assumed not to happen.

* `Poller.select`, `Poller.timeout` : the first of two computations, and one under a timer.
* `Poller.run` : turn after turn, until the result is there.
* `Poller.Triple` : what holds after a poll that is pending, and after one that gave a result.
  `Triple.select`, `Triple.timeout` and `Triple.run` are the rules.
-/

namespace Future

inductive Poll (α : Type) where
  | pending
  | ready (a : α)
  deriving DecidableEq

/-- One poll, in a world `σ`. -/
def Poller (σ α : Type) : Type := σ → σ × Poll α

namespace Poller

variable {σ α β : Type}

/-- `g` has its turn if `f` is pending. -/
def orElse (f : Poller σ α) (g : Poller σ β) : Poller σ (α ⊕ β) := fun w =>
  match f w with
  | (w, .ready a) => (w, .ready (.inl a))
  | (w, .pending) =>
    match g w with
    | (w, .ready b) => (w, .ready (.inr b))
    | (w, .pending) => (w, .pending)

/-- Whichever is ready first, where the order of the polls is not fixed. -/
def select (first : Bool) (f : Poller σ α) (g : Poller σ β) : Poller σ (α ⊕ β) := fun w =>
  if first then f.orElse g w
  else
    match g.orElse f w with
    | (w, .ready (.inl b)) => (w, .ready (.inr b))
    | (w, .ready (.inr a)) => (w, .ready (.inl a))
    | (w, .pending) => (w, .pending)

/-- A computation is polled before the timer, so a result in the turn the timer goes off counts. -/
def timeout (f : Poller σ α) (timer : Poller σ β) : Poller σ (α ⊕ β) := f.orElse timer

/-- Turn after turn, until the result is there. -/
def run {ε : Type} (f : ε → Poller σ α) : List ε → Poller σ α
  | [], w => (w, .pending)
  | t :: turns, w =>
    match f t w with
    | (w, .pending) => run f turns w
    | (w, .ready a) => (w, .ready a)

/-! ## Assertions -/

/-- `J` if the computation is pending, `A a` if it ended with `a`. -/
def Ends (J : σ → Prop) (A : α → σ → Prop) : σ × Poll α → Prop
  | (w, .pending) => J w
  | (w, .ready a) => A a w

/-- A poll that starts with `I` leaves `J` when it is pending and `A` when it is ready. -/
def Triple (I : σ → Prop) (f : Poller σ α) (J : σ → Prop) (A : α → σ → Prop) : Prop :=
  ∀ w, I w → Ends J A (f w)

variable {I J J' K : σ → Prop} {A : α → σ → Prop} {B : β → σ → Prop} {f : Poller σ α}
  {g : Poller σ β}

/-- What holds in both ends. -/
theorem Ends.always {Q : σ → Prop} {x : σ × Poll α} (h : Ends J A x) (hJ : ∀ w, J w → Q w)
    (hA : ∀ a w, A a w → Q w) : Q x.1 := by
  obtain ⟨w, answer⟩ := x
  cases answer with
  | pending => exact hJ w h
  | ready a => exact hA a w h

theorem Triple.mono {A' : α → σ → Prop} (hf : Triple I f J A) (hJ : ∀ w, J w → K w)
    (hA : ∀ a w, A a w → A' a w) : Triple I f K A' := by
  intro w hw
  have hends := hf w hw
  cases h : f w with
  | mk w' answer =>
    rw [h] at hends
    cases answer with
    | pending => exact hJ w' hends
    | ready a => exact hA a w' hends

theorem Triple.orElse (hf : Triple I f J A) (hg : Triple J g K B) :
    Triple I (f.orElse g) K fun r w => r.elim (A · w) (B · w) := by
  intro w hw
  have hfirst := hf w hw
  unfold Poller.orElse
  cases h : f w with
  | mk w₁ answer =>
    rw [h] at hfirst
    cases answer with
    | ready a => exact hfirst
    | pending =>
      have hsecond := hg w₁ hfirst
      dsimp only
      cases h' : g w₁ with
      | mk w₂ answer' =>
        rw [h'] at hsecond
        cases answer' with
        | ready b => exact hsecond
        | pending => exact hsecond

theorem Triple.timeout (hf : Triple I f J A) (hg : Triple J g K B) :
    Triple I (f.timeout g) K fun r w => r.elim (A · w) (B · w) := hf.orElse hg

/-- Either computation may be the one that is polled second. -/
theorem Triple.select (first : Bool) (hf : Triple I f J A) (hg' : Triple J g K B)
    (hg : Triple I g J' B) (hf' : Triple J' f K A) :
    Triple I (f.select first g) K fun r w => r.elim (A · w) (B · w) := by
  intro w hw
  unfold Poller.select
  cases first with
  | true => exact hf.orElse hg' w hw
  | false =>
    have hswapped := hg.orElse hf' w hw
    rw [if_neg Bool.false_ne_true]
    cases h : g.orElse f w with
    | mk w' answer =>
      rw [h] at hswapped
      cases answer with
      | pending => exact hswapped
      | ready r =>
        cases r with
        | inl b => exact hswapped
        | inr a => exact hswapped

variable {ε : Type} {step : ε → Poller σ α}

theorem Triple.run {turns : List ε} (h : ∀ t ∈ turns, Triple I (step t) I A) :
    Triple I (run step turns) I A := by
  induction turns with
  | nil => exact fun w hw => hw
  | cons t turns ih =>
    intro w hw
    have hturn := h t List.mem_cons_self w hw
    unfold Poller.run
    cases hp : step t w with
    | mk w' answer =>
      rw [hp] at hturn
      cases answer with
      | ready a => exact hturn
      | pending => exact ih (fun t ht => h t (List.mem_cons_of_mem _ ht)) w' hturn

/-- A further turn changes nothing once the result is there. -/
theorem run_concat (turns : List ε) (t : ε) (w : σ) : run step (turns ++ [t]) w =
    match run step turns w with
    | (w', .pending) => step t w'
    | (w', .ready a) => (w', .ready a) := by
  induction turns generalizing w with
  | nil =>
    simp only [List.nil_append, run]
    split
    · rename_i hp
      exact hp.symm
    · rename_i hp
      exact hp.symm
  | cons u turns ih =>
    rw [List.cons_append, run, run]
    cases step u w with
    | mk w' answer =>
      cases answer with
      | pending => exact ih w'
      | ready a => rfl

end Poller

end Future
