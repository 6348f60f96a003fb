import Mathlib.Logic.Basic

/-!
# Lib.Logged

Computations that may fail and that write a log.

* `result_bind` : what a computation comes to does not depend on what was logged.
* `Tells` : every failure is reported, in the last line, and all other lines are notes. Its rules
  follow the computation.
-/

structure Logged (L ε α : Type) where
  lines : List L
  result : Except ε α

namespace Logged

variable {L ε α β : Type}

def bind (x : Logged L ε α) (f : α → Logged L ε β) : Logged L ε β :=
  match x.result with
  | .error e => ⟨x.lines, .error e⟩
  | .ok a => ⟨x.lines ++ (f a).lines, (f a).result⟩

instance : Monad (Logged L ε) where
  pure a := ⟨[], .ok a⟩
  bind := bind

def note (line : L) : Logged L ε Unit := ⟨[line], .ok ()⟩

def fail (line : L) (e : ε) : Logged L ε α := ⟨[line], .error e⟩

@[simp] theorem result_pure (a : α) : (pure a : Logged L ε α).result = .ok a := rfl

@[simp] theorem result_note (line : L) : (note line : Logged L ε Unit).result = .ok () := rfl

@[simp] theorem result_fail (line : L) (e : ε) : (fail line e : Logged L ε α).result = .error e := rfl

@[simp] theorem result_bind (x : Logged L ε α) (f : α → Logged L ε β) :
    (x >>= f).result = x.result >>= fun a => (f a).result := by
  change (x.bind f).result = x.result.bind fun a => (f a).result
  unfold bind
  cases x.result with
  | error e => rfl
  | ok a => rfl

@[simp] theorem result_ite {c : Prop} [Decidable c] (x y : Logged L ε α) :
    (if c then x else y).result = if c then x.result else y.result :=
  apply_ite result c x y

/-- Failures are reported once, at the end. -/
def Tells (isNote : L → Prop) (report : ε → L → Prop) (x : Logged L ε α) : Prop :=
  match x.result with
  | .ok _ => ∀ line ∈ x.lines, isNote line
  | .error e => ∃ notes last, x.lines = notes ++ [last] ∧ (∀ line ∈ notes, isNote line) ∧
      report e last

namespace Tells

variable {isNote : L → Prop} {report : ε → L → Prop}

theorem pure (a : α) : Tells isNote report (pure a : Logged L ε α) := List.forall_mem_nil _

theorem note {line : L} (h : isNote line) : Tells isNote report (note line : Logged L ε Unit) :=
  List.forall_mem_singleton.mpr h

theorem fail {line : L} {e : ε} (h : report e line) :
    Tells isNote report (fail line e : Logged L ε α) :=
  ⟨[], line, rfl, List.forall_mem_nil _, h⟩

theorem ite {c : Prop} [Decidable c] {x y : Logged L ε α} (hx : Tells isNote report x)
    (hy : Tells isNote report y) : Tells isNote report (if c then x else y) := by
  split
  · exact hx
  · exact hy

theorem bind {x : Logged L ε α} {f : α → Logged L ε β} (hx : Tells isNote report x)
    (hf : ∀ a, Tells isNote report (f a)) : Tells isNote report (x >>= f) := by
  change Tells isNote report (x.bind f)
  obtain ⟨lines, result⟩ := x
  cases result with
  | error e => exact hx
  | ok a =>
    have hnotes : ∀ line ∈ lines, isNote line := hx
    have hrest := hf a
    unfold Logged.bind
    dsimp only
    unfold Tells at hrest ⊢
    dsimp only
    cases hresult : (f a).result with
    | ok b =>
      rw [hresult] at hrest
      exact List.forall_mem_append.mpr ⟨hnotes, hrest⟩
    | error e =>
      rw [hresult] at hrest
      obtain ⟨notes, last, hlines, hmore, hlast⟩ := hrest
      refine ⟨lines ++ notes, last, ?_, List.forall_mem_append.mpr ⟨hnotes, hmore⟩, hlast⟩
      rw [hlines, List.append_assoc]

end Tells

end Logged
