import Authzoo.KeyCache
import Authzoo.Lib.Future

/-!
# Authzoo.Server.Shutdown

`drain` and `Signals::wait` (`shutdown.rs`), poll by poll, in a task whose budget lasts. The server,
the signals, the timer and the order in which `select!` polls its branches are parameters, turn by
turn.

* `Serving`, `Draining`, `Ended` : what a shutdown may look like, as the history of its polls.
* `drain_history` : every run looks like that, so shutdown begins once and only when asked for, the
  server's own result is the result, and only an overdue server is given up.
* `drain_wakes` : a run that waits has polled all that can end its wait.
* `drain_bounded` : so no run waits longer than the grace period.
* `drain_asked` : shutdown has begun exactly if one of the two signals has come.
-/

namespace Authzoo.Server

open Future

def gracePeriod : Duration := .fromSecs 25

/-! ## Polls -/

inductive Event (E : Type) where
  | server (answer : Poll (Except E Unit))
  | signal (answer : Poll Unit)
  | beginShutdown (started : Instant)
  | timer (answer : Poll Instant)

/-- What `drain` is given. `begin_shutdown` acts on the server. -/
structure Parts (ι S G E : Type) where
  server : ι → Poller S (Except E Unit)
  signal : ι → Poller G Unit
  beginShutdown : S → S

/-- What decides about one poll of `drain`. `started` and `checked` are readings of the clock. -/
structure Turn (ι : Type) where
  input : ι
  serverFirst : Bool
  started : Instant
  checked : Instant
  fired : Instant → Bool

/-- Timers do not go off early. -/
def Turn.Punctual {ι : Type} (t : Turn ι) : Prop :=
  ∀ deadline, t.fired deadline = true → deadline ≤ t.checked

/-- Where `drain` waits. -/
inductive Await where
  | serving
  | draining (deadline : Instant)
  deriving DecidableEq

structure Drain (S G E : Type) where
  server : S
  signal : G
  await : Await
  log : List (Event E)

namespace Drain

variable {ι S G E : Type} (P : Parts ι S G E)

def record (d : Drain S G E) (event : Event E) : Drain S G E := { d with log := d.log ++ [event] }

def pollServer (t : Turn ι) : Poller (Drain S G E) (Except E Unit) := fun d =>
  let (server, answer) := P.server t.input d.server
  ({ d with server }.record (.server answer), answer)

def pollSignal (t : Turn ι) : Poller (Drain S G E) Unit := fun d =>
  let (signal, answer) := P.signal t.input d.signal
  ({ d with signal }.record (.signal answer), answer)

def pollTimer (t : Turn ι) (deadline : Instant) : Poller (Drain S G E) Unit := fun d =>
  if t.fired deadline then (d.record (.timer (.ready t.checked)), .ready ())
  else (d.record (.timer .pending), .pending)

def beginShutdown (t : Turn ι) (d : Drain S G E) : Drain S G E :=
  { d with server := P.beginShutdown d.server }.record (.beginShutdown t.started)

/-- `timeout(grace_period, server).await` and what follows it. -/
def finish (t : Turn ι) (deadline : Instant) : Poller (Drain S G E) (Except E Unit) := fun d =>
  match (pollServer P t).timeout (pollTimer t deadline) d with
  | (d, .pending) => ({ d with await := .draining deadline }, .pending)
  | (d, .ready (.inl (.error e))) => (d, .ready (.error e))
  | (d, .ready (.inl (.ok ()))) => (d, .ready (.ok ()))
  | (d, .ready (.inr ())) => (d, .ready (.ok ()))

/-- From one await to the next. -/
def poll (gracePeriod : Duration) (t : Turn ι) : Poller (Drain S G E) (Except E Unit) := fun d =>
  match d.await with
  | .serving =>
    match (pollServer P t).select t.serverFirst (pollSignal P t) d with
    | (d, .pending) => (d, .pending)
    | (d, .ready (.inl result)) => (d, .ready result)
    | (d, .ready (.inr ())) => finish P t (t.started + gracePeriod) (beginShutdown P t d)
  | .draining deadline => finish P t deadline d

end Drain

def drain {ι S G E : Type} (P : Parts ι S G E) (gracePeriod : Duration) (turns : List (Turn ι))
    (server : S) (signal : G) : Drain S G E × Poll (Except E Unit) :=
  Poller.run (Drain.poll P gracePeriod) turns { server, signal, await := .serving, log := [] }

/-- `Signals::wait`, where a signal that arrived is what `recv` gives. -/
def Signals.wait {ι G : Type} (terminateFirst : ι → Bool)
    (terminate interrupt : ι → Poller G (Option Unit)) (input : ι) : Poller G Unit := fun g =>
  match (terminate input).select (terminateFirst input) (interrupt input) g with
  | (g, .pending) => (g, .pending)
  | (g, .ready (.inl _)) | (g, .ready (.inr _)) => (g, .ready ())

/-- Whichever of the two signals arrives ends the wait, and as long as none does both are polled. -/
theorem Signals.wait_triple {ι G : Type} {terminateFirst : ι → Bool}
    {terminate interrupt : ι → Poller G (Option Unit)} {input : ι} {I J J' K : G → Prop}
    {A B : Option Unit → G → Prop} (ht : Poller.Triple I (terminate input) J A)
    (hi' : Poller.Triple J (interrupt input) K B) (hi : Poller.Triple I (interrupt input) J' B)
    (ht' : Poller.Triple J' (terminate input) K A) :
    Poller.Triple I (wait terminateFirst terminate interrupt input) K
      fun _ g => ∃ received, A received g ∨ B received g := by
  intro g hg
  have hends := ht.select (terminateFirst input) hi' hi ht' g hg
  unfold wait
  cases h : (terminate input).select (terminateFirst input) (interrupt input) g with
  | mk g' answer =>
    rw [h] at hends
    cases answer with
    | pending => exact hends
    | ready r =>
      cases r with
      | inl received => exact ⟨received, .inl hends⟩
      | inr received => exact ⟨received, .inr hends⟩

/-! ## Histories -/

section

variable {E : Type}

/-- The server runs and nobody asked it to stop. -/
def Serving (log : List (Event E)) : Prop :=
  ∀ event ∈ log, event = .server .pending ∨ event = .signal .pending

/-- A signal came, shutdown began, and the server is not done yet. -/
def Draining (gracePeriod : Duration) (deadline : Instant) (log : List (Event E)) : Prop :=
  ∃ before started after, Serving before ∧ deadline = started + gracePeriod ∧
    (∀ event ∈ after, event = .server .pending ∨ event = .timer .pending) ∧
    log = before ++ .signal (.ready ()) :: .beginShutdown started :: after

inductive Ended (gracePeriod : Duration) : Except E Unit → List (Event E) → Prop where
  | stopped {result : Except E Unit} {log : List (Event E)} (h : Serving log) :
    Ended gracePeriod result (log ++ [.server (.ready result)])
  | drained {result : Except E Unit} {deadline : Instant} {log : List (Event E)}
      (h : Draining gracePeriod deadline log) :
    Ended gracePeriod result (log ++ [.server (.ready result)])
  | forced {deadline now : Instant} {log : List (Event E)} (h : Draining gracePeriod deadline log)
      (hlate : deadline ≤ now) :
    Ended gracePeriod (.ok ()) (log ++ [.server .pending] ++ [.timer (.ready now)])

/-- What the log of a run that waits looks like. -/
def Waits (gracePeriod : Duration) (await : Await) (log : List (Event E)) : Prop :=
  match await with
  | .serving => Serving log
  | .draining deadline => Draining gracePeriod deadline log

end

section

variable {E : Type} {log : List (Event E)} {gracePeriod : Duration} {deadline : Instant}

theorem Serving.snoc (h : Serving log) {event : Event E}
    (hevent : event = .server .pending ∨ event = .signal .pending) : Serving (log ++ [event]) :=
  List.forall_mem_append.mpr ⟨h, List.forall_mem_singleton.mpr hevent⟩

theorem Serving.begin (h : Serving log) (started : Instant) :
    Draining gracePeriod (started + gracePeriod)
      (log ++ [.signal (.ready ())] ++ [.beginShutdown started]) :=
  ⟨log, started, [], h, rfl, List.forall_mem_nil _, by rw [List.append_assoc]; rfl⟩

theorem Draining.snoc (h : Draining gracePeriod deadline log) {event : Event E}
    (hevent : event = .server .pending ∨ event = .timer .pending) :
    Draining gracePeriod deadline (log ++ [event]) := by
  obtain ⟨before, started, after, hbefore, hdeadline, hafter, rfl⟩ := h
  refine ⟨before, started, after ++ [event], hbefore, hdeadline, ?_, ?_⟩
  · exact List.forall_mem_append.mpr ⟨hafter, List.forall_mem_singleton.mpr hevent⟩
  · rw [List.append_assoc]
    rfl

/-- A shutdown has started at one time only. -/
theorem Draining.deadline_eq (h : Draining gracePeriod deadline log) {started : Instant}
    (hbegun : .beginShutdown started ∈ log) : deadline = started + gracePeriod := by
  obtain ⟨before, first, after, hbefore, rfl, hafter, rfl⟩ := h
  simp only [List.mem_append, List.mem_cons, reduceCtorEq, false_or, Event.beginShutdown.injEq]
    at hbegun
  rcases hbegun with hin | rfl | hin
  · rcases hbefore _ hin with h | h <;> cases h
  · rfl
  · rcases hafter _ hin with h | h <;> cases h

end

/-! ## One turn -/

/-- A log that `R` describes, and one more event. -/
def Then {E : Type} (R : List (Event E) → Prop) (event : Event E) (log : List (Event E)) : Prop :=
  ∃ before, R before ∧ log = before ++ [event]

namespace Drain

variable {ι S G E : Type} {P : Parts ι S G E} {t : Turn ι} {await : Await}
  {R : List (Event E) → Prop} {gracePeriod : Duration} {deadline : Instant}

def At (await : Await) (R : List (Event E) → Prop) (d : Drain S G E) : Prop :=
  d.await = await ∧ R d.log

theorem pollServer_triple : Poller.Triple (At await R) (pollServer P t)
    (At await (Then R (.server .pending))) fun r => At await (Then R (.server (.ready r))) := by
  intro d hd
  unfold pollServer
  cases P.server t.input d.server with
  | mk server answer =>
    cases answer with
    | pending => exact ⟨hd.1, d.log, hd.2, rfl⟩
    | ready r => exact ⟨hd.1, d.log, hd.2, rfl⟩

theorem pollSignal_triple : Poller.Triple (At await R) (pollSignal P t)
    (At await (Then R (.signal .pending))) fun u => At await (Then R (.signal (.ready u))) := by
  intro d hd
  unfold pollSignal
  cases P.signal t.input d.signal with
  | mk signal answer =>
    cases answer with
    | pending => exact ⟨hd.1, d.log, hd.2, rfl⟩
    | ready u => exact ⟨hd.1, d.log, hd.2, rfl⟩

theorem pollTimer_triple (t : Turn ι) (deadline : Instant) :
    Poller.Triple (At (S := S) (G := G) await R) (pollTimer t deadline)
    (fun d => t.fired deadline = false ∧ At await (Then R (.timer .pending)) d)
    fun _ d => t.fired deadline = true ∧ At await (Then R (.timer (.ready t.checked))) d := by
  intro d hd
  unfold pollTimer
  by_cases h : t.fired deadline = true
  · rw [if_pos h]
    exact ⟨h, hd.1, d.log, hd.2, rfl⟩
  · rw [if_neg h]
    exact ⟨eq_false_of_ne_true h, hd.1, d.log, hd.2, rfl⟩

/-- The server and the timer were polled, and neither is done. -/
def Left (t : Turn ι) (deadline : Instant) (R : List (Event E) → Prop) (d : Drain S G E) : Prop :=
  t.fired deadline = false ∧
    At (.draining deadline) (Then (Then R (.server .pending)) (.timer .pending)) d

/-- The server is done, or it is not and the timer went off. -/
def Finished (t : Turn ι) (deadline : Instant) (R : List (Event E) → Prop) (result : Except E Unit)
    (d : Drain S G E) : Prop :=
  Then R (.server (.ready result)) d.log ∨ (result = .ok () ∧ t.fired deadline = true ∧
    Then (Then R (.server .pending)) (.timer (.ready t.checked)) d.log)

theorem finish_triple : Poller.Triple (At await R) (finish P t deadline) (Left t deadline R)
    (Finished t deadline R) := by
  intro d hd
  have hends := (pollServer_triple (P := P) (t := t)).timeout (pollTimer_triple t deadline) d hd
  unfold finish
  cases h : (pollServer P t).timeout (pollTimer t deadline) d with
  | mk d' answer =>
    rw [h] at hends
    cases answer with
    | pending => exact ⟨hends.1, rfl, hends.2.2⟩
    | ready r =>
      cases r with
      | inl result =>
        cases result with
        | error e => exact .inl hends.2
        | ok u => exact .inl hends.2
      | inr u => exact .inr ⟨rfl, hends.1, hends.2.2⟩

/-- Both branches were polled, in one of the two orders. -/
def Both (R : List (Event E) → Prop) (log : List (Event E)) : Prop :=
  Then (Then R (.server .pending)) (.signal .pending) log ∨
    Then (Then R (.signal .pending)) (.server .pending) log

/-- The other branch was polled before, or not at all. -/
def Perhaps (R : List (Event E) → Prop) (event : Event E) (log : List (Event E)) : Prop :=
  R log ∨ Then R event log

theorem select_triple : Poller.Triple (At await R)
    ((pollServer P t).select t.serverFirst (pollSignal P t)) (At await (Both R)) fun r d =>
      r.elim (fun result => At await (Then (Perhaps R (.signal .pending)) (.server (.ready result))) d)
        fun u => At await (Then (Perhaps R (.server .pending)) (.signal (.ready u))) d := by
  have hperhaps : ∀ {event last : Event E} {d : Drain S G E},
      (At await (Then R last) d → At await (Then (Perhaps R event) last) d) ∧
        (At await (Then (Then R event) last) d → At await (Then (Perhaps R event) last) d) := by
    intro event last d
    constructor
    · rintro ⟨hawait, log, hlog, hlast⟩
      exact ⟨hawait, log, .inl hlog, hlast⟩
    · rintro ⟨hawait, log, hlog, hlast⟩
      exact ⟨hawait, log, .inr hlog, hlast⟩
  have hserver : Poller.Triple (At await R) (pollServer P t) (At await (Then R (.server .pending)))
      fun r => At await (Then (Perhaps R (.signal .pending)) (.server (.ready r))) :=
    pollServer_triple.mono (fun _ => id) fun _ _ => hperhaps.1
  have hsignal : Poller.Triple (At await R) (pollSignal P t) (At await (Then R (.signal .pending)))
      fun u => At await (Then (Perhaps R (.server .pending)) (.signal (.ready u))) :=
    pollSignal_triple.mono (fun _ => id) fun _ _ => hperhaps.1
  refine hserver.select t.serverFirst ?_ hsignal ?_
  · exact pollSignal_triple.mono (fun _ hd => ⟨hd.1, .inl hd.2⟩) fun _ _ => hperhaps.2
  · exact pollServer_triple.mono (fun _ hd => ⟨hd.1, .inr hd.2⟩) fun _ _ => hperhaps.2

/-- The log when `finish` starts in the turn in which the signal came. -/
def Begun (t : Turn ι) (R : List (Event E) → Prop) : List (Event E) → Prop :=
  Then (Then (Perhaps R (.server .pending)) (.signal (.ready ()))) (.beginShutdown t.started)

theorem poll_serving : Poller.Triple (At .serving R) (poll P gracePeriod t)
    (fun d => At .serving (Both R) d ∨ Left t (t.started + gracePeriod) (Begun t R) d)
    fun result d => Then (Perhaps R (.signal .pending)) (.server (.ready result)) d.log ∨
      Finished t (t.started + gracePeriod) (Begun t R) result d := by
  intro d hd
  have hends := select_triple (P := P) (t := t) d hd
  rw [poll, hd.1]
  dsimp only
  cases h : (pollServer P t).select t.serverFirst (pollSignal P t) d with
  | mk d' answer =>
    rw [h] at hends
    cases answer with
    | pending => exact .inl hends
    | ready r =>
      cases r with
      | inl result => exact .inl hends.2
      | inr u =>
        have hbegun : At .serving (Begun t R) (beginShutdown P t d') :=
          ⟨hends.1, d'.log, hends.2, rfl⟩
        exact (finish_triple.mono (fun _ => .inr) fun _ _ => .inr) _ hbegun

theorem poll_draining : Poller.Triple (At (.draining deadline) R) (poll P gracePeriod t)
    (Left t deadline R) (Finished t deadline R) := by
  intro d hd
  rw [poll, hd.1]
  exact finish_triple d hd

/-- What was polled in a turn that ends in waiting. Of a shutdown that begins in this turn the server
is told before its last poll. -/
def Polled (t : Turn ι) (await : Await) (events : List (Event E)) : Prop :=
  match await with
  | .serving => events = [.server .pending, .signal .pending] ∨
      events = [.signal .pending, .server .pending]
  | .draining deadline => t.fired deadline = false ∧
      ∃ before, events = before ++ [.server .pending, .timer .pending]

theorem Left.polled {before : List (Event E)} {R : List (Event E) → Prop} {d : Drain S G E}
    (h : Left t deadline R d) (hR : ∀ log, R log → ∃ events, log = before ++ events) :
    ∃ events, d.log = before ++ events ∧ Polled t d.await events := by
  obtain ⟨hfired, hawait, -, ⟨log, hlog, rfl⟩, hlast⟩ := h
  obtain ⟨events, rfl⟩ := hR log hlog
  refine ⟨events ++ [.server .pending, .timer .pending], by rw [hlast]; simp, ?_⟩
  rw [hawait]
  exact ⟨hfired, events, rfl⟩

theorem poll_wakes (d : Drain S G E) : Poller.Ends (fun d' => ∃ events, d'.log = d.log ++ events ∧
    Polled t d'.await events) (fun _ _ => True) (poll P gracePeriod t d) := by
  cases hawait : d.await with
  | serving =>
    refine poll_serving.mono (fun d' hd' => ?_) (fun _ _ _ => trivial) d
      (⟨hawait, rfl⟩ : At .serving (· = d.log) d)
    rcases hd' with ⟨hserving, hboth⟩ | hleft
    · rw [hserving]
      rcases hboth with ⟨_, ⟨_, rfl, rfl⟩, hlast⟩ | ⟨_, ⟨_, rfl, rfl⟩, hlast⟩
      · exact ⟨[.server .pending, .signal .pending], by rw [hlast]; simp, .inl rfl⟩
      · exact ⟨[.signal .pending, .server .pending], by rw [hlast]; simp, .inr rfl⟩
    · refine hleft.polled ?_
      rintro _ ⟨_, ⟨_, rfl | ⟨_, rfl, rfl⟩, rfl⟩, rfl⟩
      · exact ⟨[.signal (.ready ()), .beginShutdown t.started], by simp⟩
      · exact ⟨[.server .pending, .signal (.ready ()), .beginShutdown t.started], by simp⟩
  | draining deadline =>
    refine poll_draining.mono (fun d' hd' => ?_) (fun _ _ _ => trivial) d
      (⟨hawait, rfl⟩ : At (.draining deadline) (· = d.log) d)
    exact hd'.polled fun log hlog => ⟨[], by rw [hlog, List.append_nil]⟩

/-! ## Who asks for it -/

/-- What the signals have said, and whether shutdown has begun. -/
structure Hears (await : Await) (K : G → Prop) (begun : Prop) (d : Drain S G E) : Prop where
  await : d.await = await
  signal : K d.signal
  begun : (∃ started, .beginShutdown started ∈ d.log) ↔ begun

section

variable {K Idle Heard : G → Prop} {begun : Prop}

theorem Hears.record {d : Drain S G E} (h : Hears await K begun d) {event : Event E}
    (hevent : ∀ started, event ≠ .beginShutdown started) :
    Hears await K begun (d.record event) := by
  refine ⟨h.await, h.signal, Iff.trans ?_ h.begun⟩
  constructor
  · rintro ⟨started, hin⟩
    rcases List.mem_append.mp hin with hin | hin
    · exact ⟨started, hin⟩
    · exact absurd (List.mem_singleton.mp hin).symm (hevent started)
  · rintro ⟨started, hin⟩
    exact ⟨started, List.mem_append_left _ hin⟩

theorem Hears.begin {d : Drain S G E} (h : Hears await K begun d) (P : Parts ι S G E) (t : Turn ι) :
    Hears await K True (beginShutdown P t d) :=
  ⟨h.await, h.signal, iff_of_true ⟨t.started, List.mem_concat_self⟩ trivial⟩

theorem hears_server : Poller.Triple (Hears await K begun) (pollServer P t) (Hears await K begun)
    fun _ => Hears await K begun := by
  intro d hd
  unfold pollServer
  cases P.server t.input d.server with
  | mk server answer =>
    have hserver : Hears await K begun { d with server } := ⟨hd.await, hd.signal, hd.begun⟩
    cases answer with
    | pending | ready => exact hserver.record nofun

theorem hears_signal (hs : Poller.Triple Idle (P.signal t.input) Idle fun _ => Heard) :
    Poller.Triple (Hears await Idle begun) (pollSignal P t) (Hears await Idle begun)
      fun _ => Hears await Heard begun := by
  intro d hd
  have hends := hs d.signal hd.signal
  unfold pollSignal
  cases h : P.signal t.input d.signal with
  | mk signal answer =>
    rw [h] at hends
    cases answer with
    | pending =>
      have hsignal : Hears await Idle begun { d with signal } := ⟨hd.await, hends, hd.begun⟩
      exact hsignal.record nofun
    | ready =>
      have hsignal : Hears await Heard begun { d with signal } := ⟨hd.await, hends, hd.begun⟩
      exact hsignal.record nofun

theorem hears_timer (t : Turn ι) (deadline : Instant) :
    Poller.Triple (Hears (S := S) (E := E) await K begun) (pollTimer t deadline)
      (Hears await K begun) fun _ => Hears await K begun := by
  intro d hd
  unfold pollTimer
  split
  · exact hd.record nofun
  · exact hd.record nofun

theorem hears_finish : Poller.Triple (Hears await K begun) (finish P t deadline)
    (Hears (.draining deadline) K begun) fun _ => Hears await K begun := by
  intro d hd
  have hends := (hears_server (P := P) (t := t)).timeout (hears_timer t deadline) d hd
  unfold finish
  cases h : (pollServer P t).timeout (pollTimer t deadline) d with
  | mk d' answer =>
    rw [h] at hends
    cases answer with
    | pending => exact ⟨rfl, hends.signal, hends.begun⟩
    | ready r =>
      cases r with
      | inl result => cases result <;> exact hends
      | inr u => exact hends

/-- While serving no signal has come, and while draining one has. -/
def Hearing (Idle Heard : G → Prop) (d : Drain S G E) : Prop :=
  Hears .serving Idle False d ∨ ∃ deadline, Hears (.draining deadline) Heard True d

/-- Shutdown has begun if a signal has come, and not before. -/
def Asked (Idle Heard : G → Prop) (d : Drain S G E) : Prop :=
  Idle d.signal ∧ (∀ started, .beginShutdown started ∉ d.log) ∨
    Heard d.signal ∧ ∃ started, .beginShutdown started ∈ d.log

theorem Hears.idle {d : Drain S G E} (h : Hears await Idle False d) : Asked Idle Heard d :=
  .inl ⟨h.signal, fun started hin => h.begun.mp ⟨started, hin⟩⟩

theorem Hears.heard {d : Drain S G E} (h : Hears await Heard True d) : Asked Idle Heard d :=
  .inr ⟨h.signal, h.begun.mpr trivial⟩

theorem Hearing.asked {d : Drain S G E} (h : Hearing Idle Heard d) : Asked Idle Heard d := by
  rcases h with h | ⟨deadline, h⟩
  · exact h.idle
  · exact h.heard

theorem poll_hearing (hs : Poller.Triple Idle (P.signal t.input) Idle fun _ => Heard) :
    Poller.Triple (Hearing Idle Heard) (poll P gracePeriod t) (Hearing Idle Heard)
      fun _ => Asked Idle Heard := by
  rintro d (hd | ⟨deadline, hd⟩)
  · have hends := (hears_server (P := P) (t := t)).select t.serverFirst (hears_signal hs)
      (hears_signal hs) hears_server d hd
    rw [poll, hd.await]
    dsimp only
    cases h : (pollServer P t).select t.serverFirst (pollSignal P t) d with
    | mk d' answer =>
      rw [h] at hends
      cases answer with
      | pending => exact .inl hends
      | ready r =>
        cases r with
        | inl result => exact hends.idle
        | inr u =>
          exact (hears_finish.mono (fun _ h => .inr ⟨_, h⟩) fun _ _ h => h.heard) _
            (hends.begin P t)
  · rw [poll, hd.await]
    exact (hears_finish.mono (fun _ h => .inr ⟨_, h⟩) fun _ _ h => h.heard) d hd

end

/-! ## Whole runs -/

theorem Left.draining {R : List (Event E) → Prop} {d : Drain S G E} (h : Left t deadline R d)
    (hR : ∀ log, R log → Draining gracePeriod deadline log) : Waits gracePeriod d.await d.log := by
  obtain ⟨-, hawait, -, ⟨log, hlog, rfl⟩, hlast⟩ := h
  unfold Waits
  rw [hawait, hlast]
  exact ((hR log hlog).snoc (.inl rfl)).snoc (.inr rfl)

theorem Finished.ended {R : List (Event E) → Prop} {result : Except E Unit} {d : Drain S G E}
    (h : Finished t deadline R result d) (ht : t.Punctual)
    (hR : ∀ log, R log → Draining gracePeriod deadline log) : Ended gracePeriod result d.log := by
  rcases h with ⟨log, hlog, hlast⟩ | ⟨rfl, hfired, -, ⟨log, hlog, rfl⟩, hlast⟩
  · rw [hlast]
    exact .drained (hR log hlog)
  · rw [hlast]
    exact .forced (hR log hlog) (ht deadline hfired)

theorem poll_history (ht : t.Punctual) : Poller.Triple
    (fun d : Drain S G E => Waits gracePeriod d.await d.log) (poll P gracePeriod t)
    (fun d => Waits gracePeriod d.await d.log) fun result d => Ended gracePeriod result d.log := by
  intro d hd
  cases hawait : d.await with
  | serving =>
    rw [hawait] at hd
    have hbegun : ∀ log, Begun t Serving log →
        Draining (E := E) gracePeriod (t.started + gracePeriod) log := by
      rintro _ ⟨_, ⟨log, hlog | ⟨before, hbefore, rfl⟩, rfl⟩, rfl⟩
      · exact hlog.begin t.started
      · exact (hbefore.snoc (.inl rfl)).begin t.started
    refine poll_serving.mono (fun d' hd' => ?_) (fun result d' hd' => ?_) d ⟨hawait, hd⟩
    · rcases hd' with ⟨hserving, hboth⟩ | hleft
      · unfold Waits
        rw [hserving]
        rcases hboth with ⟨_, ⟨log, hlog, rfl⟩, hlast⟩ | ⟨_, ⟨log, hlog, rfl⟩, hlast⟩
        · exact hlast ▸ (hlog.snoc (.inl rfl)).snoc (.inr rfl)
        · exact hlast ▸ (hlog.snoc (.inr rfl)).snoc (.inl rfl)
      · exact hleft.draining hbegun
    · rcases hd' with ⟨log, hlog | ⟨before, hbefore, rfl⟩, hlast⟩ | hfinished
      · exact hlast ▸ .stopped hlog
      · exact hlast ▸ .stopped (hbefore.snoc (.inr rfl))
      · exact hfinished.ended ht hbegun
  | draining deadline =>
    rw [hawait] at hd
    exact poll_draining.mono (fun d' hd' => hd'.draining fun _ => id)
      (fun result d' hd' => hd'.ended ht fun _ => id) d ⟨hawait, hd⟩

theorem run_history {turns : List (Turn ι)} (hturns : ∀ t ∈ turns, t.Punctual) : Poller.Triple
    (fun d : Drain S G E => Waits gracePeriod d.await d.log) (Poller.run (poll P gracePeriod) turns)
    (fun d => Waits gracePeriod d.await d.log) fun result d => Ended gracePeriod result d.log :=
  Poller.Triple.run fun t ht => poll_history (hturns t ht)

theorem run_wakes (P : Parts ι S G E) (gracePeriod : Duration) (turns : List (Turn ι)) (t : Turn ι)
    (d : Drain S G E) : Poller.Ends
    (fun d' => ∃ events, d'.log = (Poller.run (poll P gracePeriod) turns d).1.log ++ events ∧
      Polled t d'.await events) (fun _ _ => True)
    (Poller.run (poll P gracePeriod) (turns ++ [t]) d) := by
  rw [Poller.run_concat]
  cases Poller.run (poll P gracePeriod) turns d with
  | mk d' answer =>
    cases answer with
    | ready result => trivial
    | pending => exact poll_wakes d'

end Drain

section

variable {ι S G E : Type} (P : Parts ι S G E) (gracePeriod : Duration) (server : S) (signal : G)

/-- A turn that ends in waiting polled the server, and the signal or the timer: none was ready. While
draining these are its last polls, so a server that is told to stop is polled once more. -/
theorem drain_wakes (turns : List (Turn ι)) (t : Turn ι) :
    Poller.Ends (fun d => ∃ events, d.log = (drain P gracePeriod turns server signal).1.log ++ events ∧
      Drain.Polled t d.await events) (fun _ _ => True)
      (drain P gracePeriod (turns ++ [t]) server signal) :=
  Drain.run_wakes P gracePeriod turns t _

/-- Shutdown begins at most once, right after a signal and never for a server that is done. The
result is what the server gave when it was last polled, or the server was still pending and its
grace period was over. -/
theorem drain_history {turns : List (Turn ι)} (hturns : ∀ t ∈ turns, t.Punctual) :
    Poller.Ends (fun d => Waits gracePeriod d.await d.log)
      (fun result d => Ended gracePeriod result d.log) (drain P gracePeriod turns server signal) := by
  refine Drain.run_history hturns _ ?_
  exact List.forall_mem_nil _

/-- With a timer that is on time, whoever is still waiting is within the grace period. -/
theorem drain_bounded {turns : List (Turn ι)} {t : Turn ι}
    (hturns : ∀ u ∈ turns ++ [t], ∀ deadline, u.fired deadline = true ↔ deadline ≤ u.checked) :
    Poller.Ends (fun d => ∀ started, .beginShutdown started ∈ d.log →
        t.checked < started + gracePeriod) (fun _ _ => True)
      (drain P gracePeriod (turns ++ [t]) server signal) := by
  let start : Drain S G E := ⟨server, signal, .serving, []⟩
  have hserving : Waits gracePeriod start.await start.log := List.forall_mem_nil _
  have hhistory := Drain.run_history (P := P) (fun u hu deadline => (hturns u hu deadline).mp)
    start hserving
  have hwakes := Drain.run_wakes P gracePeriod turns t start
  unfold drain
  cases hrun : Poller.run (Drain.poll P gracePeriod) (turns ++ [t]) start with
  | mk d answer =>
    rw [hrun] at hhistory hwakes
    cases answer with
    | ready result => trivial
    | pending =>
      intro started hbegun
      obtain ⟨events, -, hpolled⟩ := hwakes
      have hwaits : Waits gracePeriod d.await d.log := hhistory
      cases hawait : d.await with
      | serving =>
        unfold Waits at hwaits
        rw [hawait] at hwaits
        rcases hwaits _ hbegun with h | h <;> cases h
      | draining deadline =>
        unfold Waits at hwaits
        rw [hawait] at hwaits hpolled
        obtain rfl := hwaits.deadline_eq hbegun
        have hlast := hturns t (List.mem_append_right _ (List.mem_singleton_self t))
          (started + gracePeriod)
        rw [hpolled.1] at hlast
        exact Nat.lt_of_not_le fun hle => Bool.false_ne_true (hlast.mpr hle)

/-- With the two signals of the operating system, after every turn and at the end: shutdown has begun
and one of them has come, or it has not and none has. -/
theorem drain_asked {Idle Heard : G → Prop} (turns : List (Turn ι)) (beginShutdown : S → S)
    (serve : ι → Poller S (Except E Unit)) (terminateFirst : ι → Bool)
    (terminate interrupt : ι → Poller G (Option Unit))
    (hterminate : ∀ input, Poller.Triple Idle (terminate input) Idle fun _ => Heard)
    (hinterrupt : ∀ input, Poller.Triple Idle (interrupt input) Idle fun _ => Heard)
    (hidle : Idle signal) :
    Drain.Asked Idle Heard
      (drain ⟨serve, Signals.wait terminateFirst terminate interrupt, beginShutdown⟩ gracePeriod
        turns server signal).1 := by
  have hwait (input : ι) : Poller.Triple Idle
      (Signals.wait terminateFirst terminate interrupt input) Idle fun _ => Heard :=
    (Signals.wait_triple (hterminate input) (hinterrupt input) (hinterrupt input)
      (hterminate input)).mono (fun _ => id) fun _ _ ⟨_, h⟩ => h.elim id id
  let P : Parts ι S G E :=
    ⟨serve, Signals.wait terminateFirst terminate interrupt, beginShutdown⟩
  have hstart : Drain.Hearing Idle Heard (⟨server, signal, .serving, []⟩ : Drain S G E) :=
    .inl ⟨rfl, hidle, by simp⟩
  have hturns : ∀ t ∈ turns, Poller.Triple (Drain.Hearing Idle Heard) (Drain.poll P gracePeriod t)
      (Drain.Hearing Idle Heard) fun _ => Drain.Asked Idle Heard :=
    fun t _ => Drain.poll_hearing (hwait t.input)
  exact (Poller.Triple.run hturns _ hstart).always (fun _ h => h.asked) fun _ _ h => h

end

-- A server that never gets done: an interrupt comes in the second turn, and 25 seconds later the
-- server is given up.
section

/-- A receiver, and the signals that were taken from both. -/
def recv (name : String) (arrived : Bool × Bool → Bool) (input : Bool × Bool) :
    Poller (List String) (Option Unit) := fun received =>
  if arrived input then (received ++ [name], .ready (some ())) else (received, .pending)

def stuck : Parts (Bool × Bool) Unit (List String) String where
  server _ s := (s, .pending)
  signal := Signals.wait (fun _ => true) (recv "SIGTERM" (·.1)) (recv "SIGINT" (·.2))
  beginShutdown := id

def turnAt (seconds : Nat) (interrupted : Bool) : Turn (Bool × Bool) where
  input := (false, interrupted)
  serverFirst := interrupted
  started := Duration.fromSecs seconds
  checked := Duration.fromSecs seconds
  fired deadline := deadline ≤ Duration.fromSecs seconds

theorem drain_history_stuck :
    let turns := [turnAt 1 false, turnAt 2 true, turnAt 9 false, turnAt 27 false]
    (drain stuck gracePeriod turns () []).2 = .ready (.ok ()) ∧
      Ended gracePeriod (.ok ()) (drain stuck gracePeriod turns () []).1.log := by
  have hturns : ∀ t ∈ [turnAt 1 false, turnAt 2 true, turnAt 9 false, turnAt 27 false],
      t.Punctual := by
    simp [Turn.Punctual, turnAt]
  exact ⟨rfl, drain_history stuck gracePeriod () [] hturns⟩

theorem drain_asked_stuck :
    let d := (drain stuck gracePeriod [turnAt 1 false, turnAt 2 true] () []).1
    d.signal = ["SIGINT"] ∧ ∃ started, .beginShutdown started ∈ d.log := by
  have hrecv : ∀ name arrived input, Poller.Triple (· = []) (recv name arrived input) (· = [])
      fun _ received => received ≠ [] := by
    rintro name arrived input _ rfl
    unfold recv
    split
    · exact List.cons_ne_nil _ _
    · exact rfl
  refine ⟨rfl, ?_⟩
  rcases drain_asked gracePeriod () [] [turnAt 1 false, turnAt 2 true] id stuck.server
    (fun _ => true) (recv "SIGTERM" (·.1)) (recv "SIGINT" (·.2)) (hrecv _ _) (hrecv _ _) rfl with
    ⟨hidle, -⟩ | ⟨-, hbegun⟩
  · cases hidle
  · exact hbegun

theorem drain_bounded_stuck :
    let turns := [turnAt 1 false, turnAt 2 true] ++ [turnAt 26 false]
    (drain stuck gracePeriod turns () []).2 = .pending ∧ ∀ started,
      .beginShutdown started ∈ (drain stuck gracePeriod turns () []).1.log →
        Duration.fromSecs 26 < started + gracePeriod := by
  have hturns : ∀ u ∈ [turnAt 1 false, turnAt 2 true] ++ [turnAt 26 false],
      ∀ deadline, u.fired deadline = true ↔ deadline ≤ u.checked := by
    simp [turnAt]
  exact ⟨rfl, drain_bounded stuck gracePeriod () [] hturns⟩

end

end Authzoo.Server
