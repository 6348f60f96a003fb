import Authzoo.Oauth.MetadataRuns

/-!
# Authzoo.Oauth.Registry

`ClientMetadataService::resolve` of `client_metadata.rs`: the application's registry is asked first,
and an identifier that it does not know is resolved by its metadata document.

The registry belongs to the application and may answer differently at any time. So a run of `resolve`
calls keeps a record of what each was answered, and embeds a run of `resolve_metadata` calls.

* `resolve_solo` : the sequential function is one of these runs.
* `registry_governs` : what the registry answers decides the call, and nothing is requested or cached
  for a call that it did not send on.
-/

namespace Authzoo.Oauth

/-- The application's registered clients. -/
structure ClientRegistry (ε : Type) where
  findClient : String → Except ε (Option Client)

/-- A registry for deployments that accept metadata documents only. It cannot fail. -/
def noRegisteredClients : ClientRegistry Empty where
  findClient _ := .ok none

inductive ResolveError (ε : Type) where
  | registry (source : ε)
  | metadata (source : MetadataError)

structure ResolveOutcome (ε : Type) where
  result : Except (ResolveError ε) Client
  cache : MetadataCache
  sent : Option HttpRequest

variable {ε : Type}

def resolve (U : UrlCrate) (fromSlice : List UInt8 → Option Json) (registry : ClientRegistry ε)
    (net : Network) (clock : Readings) (cache : MetadataCache) (id : String) : ResolveOutcome ε :=
  match registry.findClient id with
  | .error e => ⟨.error (.registry e), cache, none⟩
  | .ok (some client) => ⟨.ok client, cache, none⟩
  | .ok none =>
    let outcome := resolveMetadata U fromSlice net clock cache id
    ⟨outcome.result.mapError .metadata, outcome.cache, outcome.sent⟩

namespace Registered

inductive Phase (ε : Type) where
  | asking
  | registered (client : Client)
  | unavailable (e : ε)
  | metadata (task : Resolution.Task)

structure Task (ε : Type) where
  id : String
  phase : Phase ε

/-- What `find_client` answered a call. -/
structure Asked (ε : Type) where
  task : Nat
  id : String
  answer : Except ε (Option Client)

structure Shared (ε : Type) where
  metadata : Resolution.Shared
  asked : List (Asked ε)

namespace Shared

def initial (epoch : Instant) : Shared ε := ⟨.initial epoch, []⟩

def recordAsked (s : Shared ε) (asked : Asked ε) : Shared ε := { s with asked := asked :: s.asked }

end Shared

section

variable (U : UrlCrate) (fromSlice : List UInt8 → Option Json)

/-- One atomic action of call `i`: the registry answers whatever it does then, or the metadata part
takes a step. -/
inductive ResolveStep (i : Nat) : Shared ε → Task ε → Shared ε → Task ε → Prop where
  | found {s : Shared ε} {id : String} (client : Client) :
      ResolveStep i s ⟨id, .asking⟩ (s.recordAsked ⟨i, id, .ok (some client)⟩)
        ⟨id, .registered client⟩
  | lost {s : Shared ε} {id : String} (e : ε) :
      ResolveStep i s ⟨id, .asking⟩ (s.recordAsked ⟨i, id, .error e⟩) ⟨id, .unavailable e⟩
  | unknown {s : Shared ε} {id : String} :
      ResolveStep i s ⟨id, .asking⟩ (s.recordAsked ⟨i, id, .ok none⟩)
        ⟨id, .metadata ⟨id, .waiting, []⟩⟩
  | resolve {s : Shared ε} {id : String} {m : Resolution.Shared} {task task' : Resolution.Task}
      (hstep : Resolution.ResolutionStep U fromSlice i s.metadata task m task') :
      ResolveStep i s ⟨id, .metadata task⟩ { s with metadata := m } ⟨id, .metadata task'⟩

def resolving : Interleaving.Program (Shared ε) (Task ε) where
  start t := t.phase = .asking
  step := ResolveStep U fromSlice

end

/-- What the call returns, once it has ended. -/
def Task.result (t : Task ε) : Option (Except (ResolveError ε) Client) :=
  match t.phase with
  | .asking => none
  | .registered client => some (.ok client)
  | .unavailable e => some (.error (.registry e))
  | .metadata task =>
    match task.phase with
    | .resolved client _ => some (.ok client)
    | .failed e => some (.error (.metadata e))
    | .waiting | .missed _ | .answered _ => none

def Task.part (t : Task ε) : Option Resolution.Task :=
  match t.phase with
  | .metadata task => some task
  | .asking | .registered _ | .unavailable _ => none

variable {U : UrlCrate} {fromSlice : List UInt8 → Option Json}

/-- The calls that the registry sends on are a run of `resolve_metadata` calls. -/
theorem resolving_embeds : (resolving (ε := ε) U fromSlice).Embeds
    (Resolution.resolution U fromSlice) Shared.metadata Task.part where
  start := by
    intro t hstart
    simp only [Task.part, show t.phase = .asking from hstart]
  step := by
    intro i s t s' t' hstep
    cases hstep with
    | found | lost => exact .idle
    | unknown => exact .enter ⟨rfl, rfl⟩
    | resolve hstep => exact .act hstep

/-! ## The invariant -/

/-- What the registry must have answered call `i` for it to be where it is. -/
def Task.answers (i : Nat) (t : Task ε) : List (Asked ε) :=
  match t.phase with
  | .asking => []
  | .registered client => [⟨i, t.id, .ok (some client)⟩]
  | .unavailable e => [⟨i, t.id, .error e⟩]
  | .metadata _ => [⟨i, t.id, .ok none⟩]

/-- The answers that call `i` got. -/
def Shared.answered (s : Shared ε) (i : Nat) : List (Asked ε) := s.asked.filter (·.task = i)

/-- Documents are requested by calls that the registry sent on. -/
def Shared.SentOn (s : Shared ε) : Prop :=
  ∀ x ∈ s.metadata.answers, ⟨x.task, x.id, .ok none⟩ ∈ s.asked

def Shared.Untouched (i : Nat) (s : Shared ε) : Prop :=
  s.answered i = [] ∧ ∀ x ∈ s.metadata.answers, x.task ≠ i

structure Task.Governed (i : Nat) (s : Shared ε) (t : Task ε) : Prop where
  answers : s.answered i = t.answers i
  identifier : ∀ task, t.part = some task → task.id = t.id
  quiet : t.part = none → ∀ x ∈ s.metadata.answers, x.task ≠ i

namespace Shared

variable {s : Shared ε} {i j : Nat}

theorem answered_own (id : String) (answer : Except ε (Option Client)) :
    (s.recordAsked ⟨i, id, answer⟩).answered i = ⟨i, id, answer⟩ :: s.answered i := by
  simp [answered, recordAsked]

theorem answered_other (hne : j ≠ i) (id : String) (answer : Except ε (Option Client)) :
    (s.recordAsked ⟨i, id, answer⟩).answered j = s.answered j := by
  simp [answered, recordAsked, hne.symm]

end Shared

theorem Task.Governed.sent {i : Nat} {s : Shared ε} {id : String} {task : Resolution.Task}
    (h : Governed i s ⟨id, .metadata task⟩) : ⟨i, task.id, .ok none⟩ ∈ s.asked := by
  have hmem : ⟨i, id, .ok none⟩ ∈ s.answered i := by
    rw [h.answers]
    exact List.mem_singleton_self _
  rw [h.identifier task rfl]
  exact (List.mem_filter.mp hmem).1

end Registered

namespace Resolution

variable {U : UrlCrate} {fromSlice : List UInt8 → Option Json} {i : Nat} {s s' : Shared} {t t' : Task}

theorem ResolutionStep.id_eq (h : ResolutionStep U fromSlice i s t s' t') : t'.id = t.id := by
  cases h <;> rfl

/-- A step records at most that its own call was answered. -/
theorem ResolutionStep.answers_eq (h : ResolutionStep U fromSlice i s t s' t') {x : Answered}
    (hx : x ∈ s'.answers) : x ∈ s.answers ∨ x.task = i ∧ x.id = t.id := by
  cases h with
  | reject | hit | miss | unprepared | unanswered | refuse | skip | insert => exact Or.inl hx
  | answer =>
    cases hx with
    | head => exact Or.inr ⟨rfl, rfl⟩
    | tail _ hx => exact Or.inl hx

end Resolution

namespace Registered

variable {U : UrlCrate} {fromSlice : List UInt8 → Option Json}

theorem resolving_keep {i : Nat} {s s' : Shared ε} {t t' : Task ε} (h : s.SentOn)
    (ht : t.Governed i s) (hstep : ResolveStep U fromSlice i s t s' t') : s'.SentOn := by
  cases hstep with
  | found | lost | unknown => exact fun x hx => List.mem_cons_of_mem _ (h x hx)
  | resolve hstep =>
    intro x hx
    cases hstep.answers_eq hx with
    | inl hold => exact h x hold
    | inr hnew =>
      obtain ⟨task, id, response⟩ := x
      obtain ⟨rfl, rfl⟩ := hnew
      exact ht.sent

theorem resolving_own {i : Nat} {s s' : Shared ε} {t t' : Task ε}
    (ht : t.Governed i s) (hstep : ResolveStep U fromSlice i s t s' t') : t'.Governed i s' := by
  cases hstep with
  | found | lost =>
    exact ⟨by rw [Shared.answered_own, ht.answers]; rfl, nofun, fun _ => ht.quiet rfl⟩
  | unknown =>
    refine ⟨by rw [Shared.answered_own, ht.answers]; rfl, ?_, nofun⟩
    rintro task ⟨⟩
    rfl
  | @resolve id m task task' hstep =>
    refine ⟨ht.answers, ?_, nofun⟩
    rintro task ⟨⟩
    exact hstep.id_eq.trans (ht.identifier _ rfl)

theorem resolving_stable : (resolving U fromSlice).FreshStable Shared.Untouched
    (Shared.SentOn (ε := ε)) Task.Governed where
  start := by
    intro i s t _ hfresh hstart
    have hphase : t.phase = .asking := hstart
    exact ⟨by rw [hfresh.1, Task.answers, hphase], by simp [Task.part, hphase], fun _ => hfresh.2⟩
  keep := resolving_keep
  own _ := resolving_own
  other := by
    intro i j s t s' t' u hne _ hstep hu
    cases hstep with
    | found | lost | unknown =>
      exact ⟨by rw [Shared.answered_other hne, hu.answers], hu.identifier, hu.quiet⟩
    | resolve hstep =>
      refine ⟨hu.answers, hu.identifier, fun hpart x hx => ?_⟩
      cases hstep.answers_eq hx with
      | inl hold => exact hu.quiet hpart x hold
      | inr hnew => exact fun hj => hne (hj.symm.trans hnew.1)
  fresh := by
    intro i j s t s' t' hne hstep hfresh
    cases hstep with
    | found | lost | unknown => exact ⟨by rw [Shared.answered_other hne, hfresh.1], hfresh.2⟩
    | resolve hstep =>
      refine ⟨hfresh.1, fun x hx => ?_⟩
      cases hstep.answers_eq hx with
      | inl hold => exact hfresh.2 x hold
      | inr hnew => exact fun hj => hne (hj.symm.trans hnew.1)

/-! ## All interleavings -/

theorem governed {epoch : Instant} {c : Interleaving.Config (Shared ε) (Task ε)}
    (h : (resolving U fromSlice).Reachable (.initial epoch) c) :
    c.shared.SentOn ∧ ∀ i t, c.tasks i = some t → t.Governed i c.shared := by
  have hsent : (Shared.initial (ε := ε) epoch).SentOn := fun _ hx => absurd hx List.not_mem_nil
  have hfresh : ∀ i, (Shared.initial (ε := ε) epoch).Untouched i :=
    fun _ => ⟨rfl, fun _ hx => absurd hx List.not_mem_nil⟩
  obtain ⟨hinv, hall, -⟩ := h.sound_fresh resolving_stable hsent hfresh
  exact ⟨hinv, hall⟩

/-- Every client in the cache and every client of a finished metadata call was sent to some call that
the registry had sent on for exactly that identifier. -/
theorem client_sentOn {epoch : Instant} {c : Interleaving.Config (Shared ε) (Task ε)}
    (h : (resolving U fromSlice).Reachable (.initial epoch) c) {inserted : Resolution.Inserted}
    (hmem : inserted ∈ c.shared.metadata.inserts) :
    Resolution.SentTo U fromSlice c.shared.metadata inserted.task inserted.response inserted.id
        inserted.client ∧
      ⟨inserted.task, inserted.id, .ok none⟩ ∈ c.shared.asked := by
  have hinv := ((h.embedded resolving_embeds).sound Resolution.resolution_stable
    (Resolution.initial_inv epoch)).1
  have hgenuine := hinv.genuine inserted hmem
  exact ⟨hgenuine.sentTo, (governed h).1 _ hgenuine.answered⟩

/-- **The registry governs.** In every interleaving a call that has ended asked the registry once. A
registered client is returned whatever the cache holds, and a failed lookup is an error; neither
requests a document. Any other client was sent, as a document, to a call that the registry did not
know this identifier for, and so was every client in the cache. -/
theorem registry_governs {epoch : Instant} {c : Interleaving.Config (Shared ε) (Task ε)}
    (h : (resolving U fromSlice).Reachable (.initial epoch) c) :
    (∀ i t, c.tasks i = some t → t.result ≠ none →
      ∃ answer, c.shared.answered i = [⟨i, t.id, answer⟩] ∧
        (∀ client, answer = .ok (some client) → t.result = some (.ok client)) ∧
        (∀ e, answer = .error e → t.result = some (.error (.registry e))) ∧
        (answer ≠ .ok none → ∀ x ∈ c.shared.metadata.answers, x.task ≠ i) ∧
        ∀ client, answer = .ok none → t.result = some (.ok client) →
          ∃ j response, Resolution.SentTo U fromSlice c.shared.metadata j response t.id client ∧
            ⟨j, t.id, .ok none⟩ ∈ c.shared.asked) ∧
    ∀ id expiry client, c.shared.metadata.cache.lookup id = some (expiry, client) →
      ∃ j response, Resolution.SentTo U fromSlice c.shared.metadata j response id client ∧
        ⟨j, id, .ok none⟩ ∈ c.shared.asked := by
  have hrun := (h.embedded resolving_embeds).sound Resolution.resolution_stable
    (Resolution.initial_inv epoch)
  refine ⟨fun i t ht hended => ?_, fun id expiry client hlookup => ?_⟩
  · have hgoverned := (governed h).2 i t ht
    obtain ⟨id, phase⟩ := t
    cases phase with
    | asking => exact absurd rfl hended
    | registered client =>
      refine ⟨_, hgoverned.answers, ?_, nofun, fun _ => hgoverned.quiet rfl, nofun⟩
      rintro _ ⟨⟩
      rfl
    | unavailable e =>
      refine ⟨_, hgoverned.answers, nofun, ?_, fun _ => hgoverned.quiet rfl, nofun⟩
      rintro _ ⟨⟩
      rfl
    | metadata task =>
      refine ⟨_, hgoverned.answers, nofun, nofun, fun hne => absurd rfl hne, ?_⟩
      intro client _ hresult
      have htask : task.id = id := hgoverned.identifier task rfl
      have hjust := hrun.2 i task (by simp [ht, Task.part])
      obtain ⟨tid, phase, sections⟩ := task
      obtain rfl := htask
      cases phase with
      | waiting | missed | answered | failed => cases hresult
      | resolved client origin =>
        cases hresult
        cases origin with
        | fetched response =>
          exact ⟨i, response, ⟨hjust.1, Response.client_ok.mp hjust.2⟩, hgoverned.sent⟩
        | cached lookup =>
          obtain ⟨inserted, hmem, hid, hclient, -⟩ := hjust
          have hsent := client_sentOn h hmem
          rw [hid, hclient] at hsent
          exact ⟨_, _, hsent⟩
  · obtain ⟨inserted, hlatest, hentry⟩ := hrun.1.latest _ _ hlookup
    obtain ⟨rfl, rfl⟩ := Prod.mk.inj hentry
    obtain ⟨hmem, rfl⟩ := Resolution.latest_some hlatest
    exact ⟨_, _, client_sentOn h hmem⟩

/-! ## The sequential function is a run -/

theorem metadata_solo {i : Nat} {asked : List (Asked ε)} {id : String}
    {a b : Resolution.Shared × Resolution.Task}
    (h : (Resolution.resolution U fromSlice).Solo i a b) :
    (resolving U fromSlice).Solo i (⟨a.1, asked⟩, ⟨id, .metadata a.2⟩)
      (⟨b.1, asked⟩, ⟨id, .metadata b.2⟩) := by
  induction h with
  | refl => exact .refl
  | tail _ hstep ih => exact ih.act (.resolve hstep)

/-- A call of `resolve` that nothing interrupts is a run of its task. -/
theorem resolve_solo (registry : ClientRegistry ε) (net : Network) {clock : Readings} (id : String)
    {s : Shared ε} (htime : s.metadata.time ≤ clock.lookup)
    (hclock : ∀ key, clock.lookup ≤ clock.retain key ∧ clock.retain key ≤ clock.insert) (i : Nat) :
    ∃ s' phase, (resolving U fromSlice).Solo i (s, ⟨id, .asking⟩) (s', ⟨id, phase⟩) ∧
      s'.metadata.cache =
        (resolve U fromSlice registry net clock s.metadata.cache id).cache ∧
      Task.result ⟨id, phase⟩ =
        some (resolve U fromSlice registry net clock s.metadata.cache id).result := by
  cases hanswer : registry.findClient id with
  | error e =>
    refine ⟨_, _, .single (.lost e), ?_⟩
    simp [resolve, hanswer, Task.result]
  | ok found =>
    cases found with
    | some client =>
      refine ⟨_, _, .single (.found client), ?_⟩
      simp [resolve, hanswer, Task.result]
    | none =>
      obtain ⟨m, phase, sections, hrun, hcache, hphase⟩ :=
        Resolution.resolveMetadata_solo U fromSlice net id htime hclock i
      have hsent : (resolving U fromSlice).Solo i (s, ⟨id, .asking⟩)
          (s.recordAsked ⟨i, id, .ok none⟩, ⟨id, .metadata ⟨id, .waiting, []⟩⟩) :=
        .single .unknown
      refine ⟨_, _, hsent.trans (metadata_solo hrun), ?_, ?_⟩
      · simpa [resolve, hanswer] using hcache
      · cases phase with
        | waiting | missed | answered => exact hphase.elim
        | resolved client origin | failed e =>
          simp [resolve, hanswer, Task.result, hphase, Except.mapError]

/-! ## A failing registry -/

/-- The registry does not know the identifier, then fails: the second call returns the failure,
although the cache still holds the client of the first. -/
theorem registry_governs_failure :
    ∃ c : Interleaving.Config (Shared Unit) (Task Unit),
      (resolving exampleCrate exampleSlice).Reachable (.initial 0) c ∧
      c.shared.metadata.cache.fresh exampleId 7 = some documentClient ∧
      (∀ x ∈ c.shared.metadata.answers, x.task ≠ 1) ∧
      ∃ j response, Resolution.SentTo exampleCrate exampleSlice c.shared.metadata j response exampleId
          documentClient ∧ ⟨j, exampleId, .ok none⟩ ∈ c.shared.asked := by
  have hinit : (resolving (ε := Unit) exampleCrate exampleSlice).Reachable (.initial 0)
      ⟨.initial 0, fun _ => none⟩ := .init
  have hstart : (resolving (ε := Unit) exampleCrate exampleSlice).start ⟨exampleId, .asking⟩ := rfl
  have hall : Resolution.Allows (fun _ _ _ _ _ => True) [] :=
    ⟨fun _ _ => trivial, fun _ => trivial, fun _ _ => trivial⟩
  obtain ⟨sections, hrun⟩ := Resolution.example_first hall (by decide)
  have hfirst := ((hinit.spawn (i := 0) rfl hstart).solo (.single .unknown)).solo
    (metadata_solo hrun.of_restrict)
  have hsecond := (hfirst.spawn (i := 1) rfl hstart).solo (.single (.lost ()))
  have hfresh : (Resolution.exampleShared []).cache.fresh exampleId 7 = some documentClient :=
    MetadataCache.store_fresh (by decide)
  obtain ⟨hcalls, hcache⟩ := registry_governs hsecond
  refine ⟨_, hsecond, hfresh, ?_, ?_⟩
  · obtain ⟨answer, hanswer, -, hfailed, hquiet, -⟩ := hcalls 1 _ rfl nofun
    refine hquiet ?_
    rintro rfl
    cases hanswer
  · obtain ⟨expiry, hlookup, -⟩ := MetadataCache.fresh_some hfresh
    exact hcache exampleId expiry documentClient hlookup

end Registered
end Authzoo.Oauth
