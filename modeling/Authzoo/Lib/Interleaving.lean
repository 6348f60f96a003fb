import Mathlib.Logic.Function.Basic
import Mathlib.Logic.Relation

/-!
# Lib.Interleaving

Any number of tasks over one shared state. A task is its local state; it acts in atomic steps, each
of which may change the shared state, and the scheduler interleaves the steps of all tasks freely.

* `Reachable.sound` : the rely-guarantee rule. An invariant of the shared state and an assertion
  about each task hold throughout, if every step keeps the invariant, re-establishes the assertion of
  the task that takes it and does not disturb the assertions of the others.
* `Reachable.sound_fresh` : the same where a task that has not started has left no trace yet.
* `Reachable.embedded` : tasks that run another program as a part run it under every interleaving.
* `Reachable.of_restrict` : runs whose steps all meet a condition are runs.
* `Reachable.restrict_trans` : runs whose steps all meet one condition are runs whose steps all meet
  another, if an invariant of the former lets each step that meets the one meet the other.
* `Reachable.solo` : a task that runs alone for a while is one of the interleavings.
-/

namespace Interleaving

variable {σ τ : Type}

structure Config (σ τ : Type) where
  shared : σ
  tasks : Nat → Option τ

/-- How a task may start, and what one task may do in one step. -/
structure Program (σ τ : Type) where
  start : τ → Prop
  step : Nat → σ → τ → σ → τ → Prop

namespace Program

variable (P : Program σ τ)

inductive Step : Config σ τ → Config σ τ → Prop where
  | spawn {c : Config σ τ} {i : Nat} {t : τ} (hfree : c.tasks i = none) (hstart : P.start t) :
      Step c ⟨c.shared, Function.update c.tasks i (some t)⟩
  | act {c : Config σ τ} {i : Nat} {t t' : τ} {s' : σ} (htask : c.tasks i = some t)
      (hstep : P.step i c.shared t s' t') : Step c ⟨s', Function.update c.tasks i (some t')⟩

inductive Reachable (s₀ : σ) : Config σ τ → Prop where
  | init : Reachable s₀ ⟨s₀, fun _ => none⟩
  | step {c c' : Config σ τ} (h : Reachable s₀ c) (hstep : P.Step c c') : Reachable s₀ c'

/-- Steps of one task in a row. -/
def Solo (i : Nat) : σ × τ → σ × τ → Prop :=
  Relation.ReflTransGen fun a b => P.step i a.1 a.2 b.1 b.2

/-- `I` is kept by every step and `A` is stable: the premises of the rely-guarantee rule. -/
structure Stable (I : σ → Prop) (A : Nat → σ → τ → Prop) : Prop where
  start : ∀ {i s t}, I s → P.start t → A i s t
  keep : ∀ {i s t s' t'}, I s → A i s t → P.step i s t s' t' → I s'
  own : ∀ {i s t s' t'}, I s → A i s t → P.step i s t s' t' → A i s' t'
  other : ∀ {i j s t s' t' u}, I s → P.step i s t s' t' → A j s u → A j s' u

variable {P} {I : σ → Prop} {A : Nat → σ → τ → Prop} {s₀ : σ} {c : Config σ τ}

theorem update_cases {tasks : Nat → Option τ} {i j : Nat} {t u : τ}
    (h : Function.update tasks i (some t) j = some u) :
    (j = i ∧ u = t) ∨ (j ≠ i ∧ tasks j = some u) := by
  by_cases hj : j = i
  · subst hj
    rw [Function.update_self] at h
    cases h
    exact Or.inl ⟨rfl, rfl⟩
  · rw [Function.update_of_ne hj] at h
    exact Or.inr ⟨hj, h⟩

theorem update_none {tasks : Nat → Option τ} {i j : Nat} {t : τ}
    (h : Function.update tasks i (some t) j = none) : j ≠ i ∧ tasks j = none := by
  by_cases hj : j = i
  · subst hj
    rw [Function.update_self] at h
    cases h
  · rw [Function.update_of_ne hj] at h
    exact ⟨hj, h⟩

theorem Reachable.spawn {i : Nat} {t : τ} (h : P.Reachable s₀ c) (hfree : c.tasks i = none)
    (hstart : P.start t) : P.Reachable s₀ ⟨c.shared, Function.update c.tasks i (some t)⟩ :=
  h.step (.spawn hfree hstart)

theorem Reachable.sound (hP : P.Stable I A) (hI : I s₀) (h : P.Reachable s₀ c) :
    I c.shared ∧ ∀ i t, c.tasks i = some t → A i c.shared t := by
  induction h with
  | init => exact ⟨hI, fun i t ht => by cases ht⟩
  | step _ hstep ih =>
    obtain ⟨hinv, hassert⟩ := ih
    cases hstep with
    | spawn hfree hstart =>
      refine ⟨hinv, fun j u hu => ?_⟩
      cases update_cases hu with
      | inl hown =>
        obtain ⟨rfl, rfl⟩ := hown
        exact hP.start hinv hstart
      | inr hother => exact hassert j u hother.2
    | act htask hstep =>
      have hmine := hassert _ _ htask
      refine ⟨hP.keep hinv hmine hstep, fun j u hu => ?_⟩
      cases update_cases hu with
      | inl hown =>
        obtain ⟨rfl, rfl⟩ := hown
        exact hP.own hinv hmine hstep
      | inr hother => exact hP.other hinv hstep (hassert j u hother.2)

/-! ## Tasks without a trace -/

/-- `Stable` where a new task may rely on `F`: that it has left no trace yet. -/
structure FreshStable (P : Program σ τ) (F : Nat → σ → Prop) (I : σ → Prop)
    (A : Nat → σ → τ → Prop) : Prop where
  start : ∀ {i s t}, I s → F i s → P.start t → A i s t
  keep : ∀ {i s t s' t'}, I s → A i s t → P.step i s t s' t' → I s'
  own : ∀ {i s t s' t'}, I s → A i s t → P.step i s t s' t' → A i s' t'
  other : ∀ {i j s t s' t' u}, j ≠ i → I s → P.step i s t s' t' → A j s u → A j s' u
  fresh : ∀ {i j s t s' t'}, j ≠ i → P.step i s t s' t' → F j s → F j s'

theorem Reachable.sound_fresh {F : Nat → σ → Prop} (hP : P.FreshStable F I A) (hI : I s₀)
    (hF : ∀ i, F i s₀) (h : P.Reachable s₀ c) :
    I c.shared ∧ (∀ i t, c.tasks i = some t → A i c.shared t) ∧
      ∀ i, c.tasks i = none → F i c.shared := by
  induction h with
  | init => exact ⟨hI, fun _ _ ht => absurd ht (by simp), fun i _ => hF i⟩
  | step _ hstep ih =>
    obtain ⟨hinv, hassert, hfresh⟩ := ih
    cases hstep with
    | spawn hfree hstart =>
      refine ⟨hinv, fun j u hu => ?_, fun j hj => ?_⟩
      · cases update_cases hu with
        | inl hown =>
          obtain ⟨rfl, rfl⟩ := hown
          exact hP.start hinv (hfresh _ hfree) hstart
        | inr hother => exact hassert j u hother.2
      · exact hfresh j (update_none hj).2
    | act htask hstep =>
      have hmine := hassert _ _ htask
      refine ⟨hP.keep hinv hmine hstep, fun j u hu => ?_, fun j hj => ?_⟩
      · cases update_cases hu with
        | inl hown =>
          obtain ⟨rfl, rfl⟩ := hown
          exact hP.own hinv hmine hstep
        | inr hother => exact hP.other hother.1 hinv hstep (hassert j u hother.2)
      · obtain ⟨hne, hfree⟩ := update_none hj
        exact hP.fresh hne hstep (hfresh j hfree)

/-! ## A program as a part of another -/

section

variable {σ' τ' : Type} {Q : Program σ' τ'} {view : σ → σ'} {part : τ → Option τ'}

/-- What a step of task `i` is to the embedded program. -/
inductive Seen (Q : Program σ' τ') (i : Nat) : σ' → Option τ' → σ' → Option τ' → Prop where
  | idle {s : σ'} {o : Option τ'} : Seen Q i s o s o
  | enter {s : σ'} {u : τ'} (hstart : Q.start u) : Seen Q i s none s (some u)
  | act {s s' : σ'} {u u' : τ'} (hstep : Q.step i s u s' u') : Seen Q i s (some u) s' (some u')

/-- The tasks of `P` run `Q` as a part, each at most once. -/
structure Embeds (P : Program σ τ) (Q : Program σ' τ') (view : σ → σ') (part : τ → Option τ') :
    Prop where
  start : ∀ {t}, P.start t → part t = none
  step : ∀ {i s t s' t'}, P.step i s t s' t' → Q.Seen i (view s) (part t) (view s') (part t')

theorem part_update (tasks : Nat → Option τ) (i : Nat) (t : τ) :
    (fun j => (Function.update tasks i (some t) j).bind part) =
      Function.update (fun j => (tasks j).bind part) i (part t) := by
  funext j
  by_cases hj : j = i
  · subst hj
    simp
  · simp [Function.update_of_ne hj]

theorem Reachable.embedded (hP : P.Embeds Q view part) (h : P.Reachable s₀ c) :
    Q.Reachable (view s₀) ⟨view c.shared, fun i => (c.tasks i).bind part⟩ := by
  induction h with
  | init => exact .init
  | @step c c' _ hstep ih =>
    cases hstep with
    | @spawn i t hfree hstart =>
      have hsame : Function.update (fun j => (c.tasks j).bind part) i (part t) =
          fun j => (c.tasks j).bind part := by
        rw [hP.start hstart]
        exact Function.update_eq_self_iff.mpr (by rw [hfree]; rfl)
      rw [part_update, hsame]
      exact ih
    | @act i t t' s' htask hstep =>
      have hmine : (c.tasks i).bind part = part t := by rw [htask]; rfl
      rw [part_update]
      generalize hs : view c.shared = s, ho : part t = o, hs' : view s' = v', ho' : part t' = o'
      have hseen := hP.step hstep
      rw [hs, ho, hs', ho'] at hseen
      rw [ho] at hmine
      rw [hs] at ih
      cases hseen with
      | idle =>
        rw [Function.update_eq_self_iff.mpr hmine.symm]
        exact ih
      | enter hstart => exact ih.spawn hmine hstart
      | act hact => exact ih.step (.act hmine hact)

end

/-! ## Runs under a condition -/

/-- The program when its steps are limited to those that meet `G`. -/
def restrict (P : Program σ τ) (G : Nat → σ → τ → σ → τ → Prop) : Program σ τ where
  start := P.start
  step i s t s' t' := P.step i s t s' t' ∧ G i s t s' t'

theorem Reachable.of_restrict {G : Nat → σ → τ → σ → τ → Prop}
    (h : (P.restrict G).Reachable s₀ c) : P.Reachable s₀ c := by
  induction h with
  | init => exact .init
  | step _ hstep ih =>
    cases hstep with
    | spawn hfree hstart => exact ih.spawn hfree hstart
    | act htask hstep => exact ih.step (.act htask hstep.1)

theorem Reachable.restrict_trans {G G' : Nat → σ → τ → σ → τ → Prop} (hI : I s₀)
    (hstep : ∀ {i s t s' t'}, I s → P.step i s t s' t' → G i s t s' t' → G' i s t s' t' ∧ I s')
    (h : (P.restrict G).Reachable s₀ c) : (P.restrict G').Reachable s₀ c ∧ I c.shared := by
  induction h with
  | init => exact ⟨.init, hI⟩
  | step _ hnext ih =>
    obtain ⟨hrun, hinv⟩ := ih
    cases hnext with
    | spawn hfree hstart => exact ⟨hrun.spawn hfree hstart, hinv⟩
    | act htask hact =>
      obtain ⟨hmeets, hinv⟩ := hstep hinv hact.1 hact.2
      exact ⟨hrun.step (.act htask ⟨hact.1, hmeets⟩), hinv⟩

/-! ## Tasks that run alone -/

theorem Solo.of_restrict {G : Nat → σ → τ → σ → τ → Prop} {i : Nat} {a b : σ × τ}
    (h : (P.restrict G).Solo i a b) : P.Solo i a b :=
  Relation.ReflTransGen.mono (fun _ _ hstep => And.left hstep) a b h

theorem Solo.act {i : Nat} {a : σ × τ} {s s' : σ} {t t' : τ} (h : P.Solo i a (s, t))
    (hstep : P.step i s t s' t') : P.Solo i a (s', t') :=
  Relation.ReflTransGen.tail h hstep

theorem Reachable.solo {i : Nat} {t t' : τ} {s s' : σ} {tasks : Nat → Option τ}
    (h : P.Reachable s₀ ⟨s, Function.update tasks i (some t)⟩) (hrun : P.Solo i (s, t) (s', t')) :
    P.Reachable s₀ ⟨s', Function.update tasks i (some t')⟩ := by
  generalize ha : (s, t) = a at hrun
  generalize hb : (s', t') = b at hrun
  induction hrun generalizing s' t' with
  | refl =>
    subst ha
    cases hb
    exact h
  | @tail mid last _ hstep ih =>
    subst hb
    have hmid : P.Reachable s₀ ⟨mid.1, Function.update tasks i (some mid.2)⟩ := ih rfl
    have hact := hmid.step (.act (Function.update_self i (some mid.2) tasks) hstep)
    rwa [Function.update_idem] at hact

end Program

end Interleaving
