import Authzoo.Lib.Interleaving
import Authzoo.Oauth.CacheControl

/-!
# Authzoo.Oauth.MetadataRuns

Any number of `resolve_metadata` calls at once. A call looks the cache up in one critical section,
sends its request on a miss, and stores the client in another; between them other calls run and hosts
serve other documents. The clock is read inside the lock, so it does not decrease from one critical
section to the next.

The shared state keeps a record of what was answered and stored, and each call a record of its
critical sections.

* `Shared.Inv`, `Task.Justified` : every cache entry comes from an insertion, every insertion from an
  answer, and the client of a call from one of the two.
* `Shared.Latest` : an entry is what was stored last under its identifier.
* `Shared.InTime` : it expires five minutes less the age of its answer later at the most, which is so
  throughout a run exactly if the code can read the age of every answer that is stored (`AgeFits`).
* `resolveMetadata_solo` : the sequential function is one of these runs.
-/

namespace Authzoo.Oauth
namespace Resolution

/-- How the client that a call returns was obtained. -/
inductive Origin where
  | cached (lookup : Instant)
  | fetched (response : Response)

inductive Phase where
  | waiting
  | missed (url : Url)
  | answered (response : Response)
  | resolved (client : Client) (origin : Origin)
  | failed (e : MetadataError)

/-- The cache as a critical section of a call found and left it. -/
structure Section where
  before : MetadataCache
  after : MetadataCache

structure Task where
  id : String
  phase : Phase
  sections : List Section

structure Answered where
  task : Nat
  id : String
  response : Response

structure Inserted where
  task : Nat
  id : String
  response : Response
  client : Client
  time : Instant

/-- The cache with its last clock reading, and the record of the run. -/
structure Shared where
  cache : MetadataCache
  time : Instant
  answers : List Answered
  inserts : List Inserted

namespace Shared

def initial (epoch : Instant) : Shared := { cache := ∅, time := epoch, answers := [], inserts := [] }

def tick (s : Shared) (now : Instant) : Shared := { s with time := now }

def recordAnswer (s : Shared) (answered : Answered) : Shared :=
  { s with answers := answered :: s.answers }

def recordInsert (s : Shared) (cache : MetadataCache) (inserted : Inserted) : Shared :=
  { s with cache, time := inserted.time, inserts := inserted :: s.inserts }

variable (s : Shared)

@[simp] theorem tick_cache (now : Instant) : (s.tick now).cache = s.cache := rfl

@[simp] theorem recordAnswer_cache (answered : Answered) :
    (s.recordAnswer answered).cache = s.cache := rfl

@[simp] theorem recordInsert_cache (cache : MetadataCache) (inserted : Inserted) :
    (s.recordInsert cache inserted).cache = cache := rfl

end Shared

/-! ## What was stored last -/

/-- The last insertion under an identifier. -/
def latest (inserts : List Inserted) (id : String) : Option Inserted :=
  inserts.find? (·.id = id)

/-- Every entry is the last one stored under its identifier. -/
def Shared.Latest (s : Shared) : Prop :=
  ∀ id entry, s.cache.lookup id = some entry →
    ∃ x, latest s.inserts id = some x ∧ entry = (x.time + x.response.ttl, x.client)

theorem latest_own (inserts : List Inserted) (x : Inserted) : latest (x :: inserts) x.id = some x :=
  List.find?_cons_of_pos (by simp)

theorem latest_other {inserts : List Inserted} {x : Inserted} {id : String} (h : x.id ≠ id) :
    latest (x :: inserts) id = latest inserts id :=
  List.find?_cons_of_neg (by simpa using h)

theorem latest_some {inserts : List Inserted} {id : String} {x : Inserted}
    (h : latest inserts id = some x) : x ∈ inserts ∧ x.id = id :=
  ⟨List.mem_of_find?_eq_some h, by simpa using List.find?_some h⟩

section

variable (U : UrlCrate) (fromSlice : List UInt8 → Option Json)

/-- One atomic action of call `i`. The network of `answer` is whatever it is then. -/
inductive ResolutionStep (i : Nat) : Shared → Task → Shared → Task → Prop where
  | reject {s : Shared} {id : String} {sections : List Section} {e : MetadataError}
      (hurl : metadataUrl U id = .error e) :
      ResolutionStep i s ⟨id, .waiting, sections⟩ s ⟨id, .failed e, sections⟩
  | hit {s : Shared} {id : String} {sections : List Section} {url : Url} {now : Instant}
      {client : Client} (hurl : metadataUrl U id = .ok url) (hclock : s.time ≤ now)
      (hfresh : s.cache.fresh id now = some client) :
      ResolutionStep i s ⟨id, .waiting, sections⟩ (s.tick now)
        ⟨id, .resolved client (.cached now), ⟨s.cache, s.cache⟩ :: sections⟩
  | miss {s : Shared} {id : String} {sections : List Section} {url : Url} {now : Instant}
      (hurl : metadataUrl U id = .ok url) (hclock : s.time ≤ now)
      (hfresh : s.cache.fresh id now = none) :
      ResolutionStep i s ⟨id, .waiting, sections⟩ (s.tick now)
        ⟨id, .missed url, ⟨s.cache, s.cache⟩ :: sections⟩
  | unprepared {s : Shared} {id : String} {sections : List Section} {url : Url} (net : Network)
      {e : MetadataError} (hprepare : prepare net url = .error e) :
      ResolutionStep i s ⟨id, .missed url, sections⟩ s ⟨id, .failed e, sections⟩
  | unanswered {s : Shared} {id : String} {sections : List Section} {url : Url} (net : Network)
      {request : HttpRequest} {e : MetadataError} (hprepare : prepare net url = .ok request)
      (hsend : (net.send request).received = .error e) :
      ResolutionStep i s ⟨id, .missed url, sections⟩ s ⟨id, .failed e, sections⟩
  | answer {s : Shared} {id : String} {sections : List Section} {url : Url} (net : Network)
      {request : HttpRequest} {response : Response} (hprepare : prepare net url = .ok request)
      (hsend : (net.send request).received = .ok response) :
      ResolutionStep i s ⟨id, .missed url, sections⟩ (s.recordAnswer ⟨i, id, response⟩)
        ⟨id, .answered response, sections⟩
  | refuse {s : Shared} {id : String} {sections : List Section} {response : Response}
      {e : MetadataError} (hclient : response.client U fromSlice id = .error e) :
      ResolutionStep i s ⟨id, .answered response, sections⟩ s ⟨id, .failed e, sections⟩
  | skip {s : Shared} {id : String} {sections : List Section} {response : Response} {client : Client}
      (hclient : response.client U fromSlice id = .ok client) (httl : response.ttl = 0) :
      ResolutionStep i s ⟨id, .answered response, sections⟩ s
        ⟨id, .resolved client (.fetched response), sections⟩
  | insert {s : Shared} {id : String} {sections : List Section} {response : Response}
      {client : Client} {reading : String → Instant} {now : Instant}
      (hclient : response.client U fromSlice id = .ok client) (httl : response.ttl ≠ 0)
      (hreading : ∀ key, s.time ≤ reading key ∧ reading key ≤ now) :
      ResolutionStep i s ⟨id, .answered response, sections⟩
        (s.recordInsert (s.cache.store id client response.ttl reading now)
          ⟨i, id, response, client, now⟩)
        ⟨id, .resolved client (.fetched response),
          ⟨s.cache, s.cache.store id client response.ttl reading now⟩ :: sections⟩

def resolution : Interleaving.Program Shared Task where
  start t := t.phase = .waiting ∧ t.sections = []
  step := ResolutionStep U fromSlice

/-! ## The invariant -/

/-- The insertion is of the client in a document that its call was sent for this identifier. -/
structure Inserted.Genuine (s : Shared) (inserted : Inserted) : Prop where
  answered : ⟨inserted.task, inserted.id, inserted.response⟩ ∈ s.answers
  parsed : inserted.response.client U fromSlice inserted.id = .ok inserted.client
  past : inserted.time ≤ s.time

structure Shared.Inv (s : Shared) : Prop where
  bounded : s.cache.keys.length ≤ maxCacheEntries
  genuine : ∀ inserted ∈ s.inserts, inserted.Genuine U fromSlice s
  latest : s.Latest

/-- The client is the parse of what the call itself was answered, or of what was inserted for the
same identifier and still lives at the lookup. -/
def Justified (s : Shared) (i : Nat) (id : String) (client : Client) : Origin → Prop
  | .fetched response => ⟨i, id, response⟩ ∈ s.answers ∧
      response.client U fromSlice id = .ok client
  | .cached lookup => ∃ inserted ∈ s.inserts, inserted.id = id ∧ inserted.client = client ∧
      inserted.Genuine U fromSlice s ∧ inserted.time ≤ lookup ∧
      lookup < inserted.time + inserted.response.ttl

/-- None of the call's critical sections changed the cache. -/
def Task.Untouched (t : Task) : Prop := ∀ x ∈ t.sections, x.after = x.before

def Task.Justified (i : Nat) (s : Shared) (t : Task) : Prop :=
  match t.phase with
  | .waiting | .missed _ | .failed _ => t.Untouched
  | .answered response => t.Untouched ∧ ⟨i, t.id, response⟩ ∈ s.answers
  | .resolved client origin => Resolution.Justified U fromSlice s i t.id client origin

end

section

variable {U : UrlCrate} {fromSlice : List UInt8 → Option Json}

/-- The record only grows. -/
structure Shared.Grows (s s' : Shared) : Prop where
  time : s.time ≤ s'.time
  answers : s.answers ⊆ s'.answers
  inserts : s.inserts ⊆ s'.inserts

theorem ResolutionStep.grows {i : Nat} {s s' : Shared} {t t' : Task}
    (h : ResolutionStep U fromSlice i s t s' t') : s.Grows s' := by
  cases h with
  | reject | unprepared | unanswered | refuse | skip =>
    exact ⟨Nat.le_refl _, fun _ h => h, fun _ h => h⟩
  | hit _ hclock | miss _ hclock => exact ⟨hclock, fun _ h => h, fun _ h => h⟩
  | answer => exact ⟨Nat.le_refl _, List.subset_cons_self _ _, fun _ h => h⟩
  | insert _ _ hreading =>
    have hclock := hreading ""
    exact ⟨hclock.1.trans hclock.2, fun _ h => h, List.subset_cons_self _ _⟩

/-- A step that changes the cache ends its call with a client. -/
theorem ResolutionStep.cache_eq {i : Nat} {s s' : Shared} {t t' : Task}
    (h : ResolutionStep U fromSlice i s t s' t') (hne : s'.cache ≠ s.cache) :
    (∃ client origin, t'.phase = .resolved client origin) ∧
      t'.sections = ⟨s.cache, s'.cache⟩ :: t.sections := by
  cases h with
  | reject | hit | miss | unprepared | unanswered | answer | refuse | skip => exact absurd rfl hne
  | insert => exact ⟨⟨_, _, rfl⟩, rfl⟩

theorem Inserted.Genuine.grow {s s' : Shared} {inserted : Inserted}
    (h : inserted.Genuine U fromSlice s) (hs : s.Grows s') : inserted.Genuine U fromSlice s' :=
  ⟨hs.answers h.answered, h.parsed, h.past.trans hs.time⟩

theorem Task.Justified.grow {i : Nat} {s s' : Shared} {t : Task}
    (h : t.Justified U fromSlice i s) (hs : s.Grows s') : t.Justified U fromSlice i s' := by
  obtain ⟨id, phase, sections⟩ := t
  cases phase with
  | waiting | missed | failed => exact h
  | answered response => exact ⟨h.1, hs.answers h.2⟩
  | resolved client origin =>
    cases origin with
    | fetched response => exact ⟨hs.answers h.1, h.2⟩
    | cached lookup =>
      obtain ⟨inserted, hmem, hid, hclient, hgenuine, hrest⟩ := h
      exact ⟨inserted, hs.inserts hmem, hid, hclient, hgenuine.grow hs, hrest⟩

/-! ## One step -/

/-- A hit is an insertion for the same identifier whose lifetime has not passed. -/
theorem hit_justified {s : Shared} (h : s.Inv U fromSlice) {i : Nat} {id : String} {now : Instant}
    {client : Client} (hclock : s.time ≤ now) (hfresh : s.cache.fresh id now = some client) :
    Justified U fromSlice s i id client (.cached now) := by
  obtain ⟨expiry, hlookup, hlive⟩ := MetadataCache.fresh_some hfresh
  obtain ⟨inserted, hlatest, hentry⟩ := h.latest _ _ hlookup
  obtain ⟨rfl, rfl⟩ := Prod.mk.inj hentry
  obtain ⟨hmem, hid⟩ := latest_some hlatest
  have hgenuine := h.genuine inserted hmem
  exact ⟨inserted, hmem, hid, rfl, hgenuine, hgenuine.past.trans hclock, hlive⟩

theorem initial_inv (epoch : Instant) : (Shared.initial epoch).Inv U fromSlice where
  bounded := Nat.zero_le _
  genuine inserted h := by cases h
  latest key entry h := by cases h

theorem Shared.Inv.grow {s s' : Shared} (h : s.Inv U fromSlice) (hs : s.Grows s')
    (hcache : s'.cache = s.cache) (hinserts : s'.inserts = s.inserts) : s'.Inv U fromSlice where
  bounded := hcache ▸ h.bounded
  genuine inserted hmem := (h.genuine inserted (hinserts ▸ hmem)).grow hs
  latest key entry hlookup := hinserts ▸ h.latest key entry (hcache ▸ hlookup)

theorem latest_keep {i : Nat} {s s' : Shared} {t t' : Task} (h : s.Latest)
    (hstep : ResolutionStep U fromSlice i s t s' t') : s'.Latest := by
  cases hstep with
  | reject | hit | miss | unprepared | unanswered | answer | refuse | skip => exact h
  | @insert id sections response client reading now hclient httl hreading =>
    intro key entry hlookup
    by_cases hkey : id = key
    · subst hkey
      obtain rfl := Option.some.inj (MetadataCache.store_own.symm.trans hlookup)
      exact ⟨_, latest_own _ ⟨i, id, response, client, now⟩, rfl⟩
    · cases MetadataCache.store_lookup hlookup with
      | inl hnew => exact absurd hnew.1.symm hkey
      | inr hold =>
        obtain ⟨x, hlatest, hentry⟩ := h key entry hold.1
        exact ⟨x, (latest_other (x := ⟨i, id, response, client, now⟩) hkey).trans hlatest, hentry⟩

theorem resolution_keep {i : Nat} {s s' : Shared} {t t' : Task} (h : s.Inv U fromSlice)
    (ht : t.Justified U fromSlice i s) (hstep : ResolutionStep U fromSlice i s t s' t') :
    s'.Inv U fromSlice := by
  have hgrows := hstep.grows
  have hlatest := latest_keep h.latest hstep
  cases hstep with
  | reject | unprepared | unanswered | refuse | skip => exact h
  | hit | miss | answer => exact h.grow hgrows rfl rfl
  | @insert id sections response client reading now hclient httl hreading =>
    refine ⟨MetadataCache.store_length _ _ _ _ _ _, fun x hx => ?_, hlatest⟩
    cases hx with
    | head => exact ⟨ht.2, hclient, Nat.le_refl now⟩
    | tail _ hx => exact (h.genuine x hx).grow hgrows

theorem Task.Untouched.cons {t : Task} (h : t.Untouched) (cache : MetadataCache) :
    ∀ x ∈ (⟨cache, cache⟩ : Section) :: t.sections, x.after = x.before := by
  intro x hx
  cases hx with
  | head => rfl
  | tail _ hx => exact h x hx

theorem resolution_own {i : Nat} {s s' : Shared} {t t' : Task} (h : s.Inv U fromSlice)
    (ht : t.Justified U fromSlice i s) (hstep : ResolutionStep U fromSlice i s t s' t') :
    t'.Justified U fromSlice i s' := by
  have hgrows := hstep.grows
  cases hstep with
  | reject | unprepared | unanswered => exact ht
  | @hit id sections url now client hurl hclock hfresh =>
    have hjust : Task.Justified U fromSlice i s ⟨id, .resolved client (.cached now), []⟩ :=
      hit_justified (i := i) h hclock hfresh
    exact hjust.grow hgrows
  | miss => exact Task.Untouched.cons ht _
  | answer => exact ⟨ht, List.mem_cons_self⟩
  | refuse => exact ht.1
  | skip hclient httl => exact ⟨ht.2, hclient⟩
  | insert hclient httl hreading => exact ⟨ht.2, hclient⟩

theorem resolution_stable :
    (resolution U fromSlice).Stable (Shared.Inv U fromSlice) (Task.Justified U fromSlice) where
  start := by
    intro i s t _ hstart
    obtain ⟨hphase, hsections⟩ := hstart
    simp only [Task.Justified, hphase, Task.Untouched, hsections]
    intro x hx
    cases hx
  keep := resolution_keep
  own := resolution_own
  other := by
    intro i j s t s' t' u _ hstep hu
    exact hu.grow (ResolutionStep.grows hstep)

/-! ## All interleavings -/

/-- The client is the parse of a document that call `i` was sent for the identifier. -/
def SentTo (U : UrlCrate) (fromSlice : List UInt8 → Option Json) (s : Shared) (i : Nat)
    (response : Response) (id : String) (client : Client) : Prop :=
  ⟨i, id, response⟩ ∈ s.answers ∧
    ∃ bytes, response.bytes = .ok bytes ∧ parseDocument U fromSlice id bytes = .ok client

theorem Inserted.Genuine.sentTo {s : Shared} {inserted : Inserted}
    (h : inserted.Genuine U fromSlice s) :
    SentTo U fromSlice s inserted.task inserted.response inserted.id inserted.client :=
  ⟨h.answered, Response.client_ok.mp h.parsed⟩

theorem SentTo.vetted {s : Shared} {i : Nat} {response : Response} {id : String} {client : Client}
    (h : SentTo U fromSlice s i response id client) : Vetted U id client := by
  obtain ⟨-, bytes, -, hparse⟩ := h
  exact (parseDocument_ok hparse).1

/-! ## The age of what is stored -/

/-- Every entry expires at most 300 seconds less the age of its answer after it was stored. -/
def Shared.InTime (s : Shared) : Prop :=
  ∀ id entry x, s.cache.lookup id = some entry → latest s.inserts id = some x →
    entry.1 + Duration.fromSecs x.response.declaredAge ≤ x.time + Duration.fromSecs 300

/-- The code can read the age of the answer that the call holds, if it is going to store a client
from it. -/
def AgeFits (U : UrlCrate) (fromSlice : List UInt8 → Option Json) (_ : Nat) (_ : Shared) (t : Task)
    (_ : Shared) (_ : Task) : Prop :=
  ∀ response client, t.phase = .answered response → response.client U fromSlice t.id = .ok client →
    cacheTtl response.cacheControl ≠ 0 → response.declaredAge < 2 ^ 64

/-- The step leaves every entry in time. -/
def StaysInTime (_ : Nat) (_ : Shared) (_ : Task) (s' : Shared) (_ : Task) : Prop := s'.InTime

theorem initial_inTime (epoch : Instant) : (Shared.initial epoch).InTime :=
  fun _ _ _ hlookup => by cases hlookup

/-- A lifetime that is left is what the age leaves of five minutes, if the code can read the age. -/
theorem ttl_add_age {r : Response} (hage : r.declaredAge < 2 ^ 64) (httl : r.ttl ≠ 0) :
    r.ttl + Duration.fromSecs r.declaredAge ≤ Duration.fromSecs 300 := by
  have hle := cacheTtl_le r.cacheControl
  have hread : r.ttl = cacheTtl r.cacheControl - Duration.fromSecs r.declaredAge := by
    rw [Response.ttl, age_eq, if_pos hage]
  rw [hread] at httl ⊢
  rw [Nat.sub_add_cancel (Nat.lt_of_sub_ne_zero httl).le]
  exact hle

/-- An age that the code can not read is not subtracted. -/
theorem ttl_unread {r : Response} (hage : ¬ r.declaredAge < 2 ^ 64) :
    r.ttl = cacheTtl r.cacheControl := by
  rw [Response.ttl, age_eq, if_neg hage]
  exact Nat.sub_zero _

theorem inTime_keep {i : Nat} {s s' : Shared} {t t' : Task} (h : s.InTime)
    (hstep : ResolutionStep U fromSlice i s t s' t') (hfits : AgeFits U fromSlice i s t s' t') :
    s'.InTime := by
  cases hstep with
  | reject | hit | miss | unprepared | unanswered | answer | refuse | skip => exact h
  | @insert id sections response client reading now hclient httl hreading =>
    have hcache : cacheTtl response.cacheControl ≠ 0 := fun hzero => httl (by
      rw [Response.ttl, hzero]
      exact Nat.zero_sub _)
    have hage := hfits response client rfl hclient hcache
    intro key entry x hlookup hx
    by_cases hkey : id = key
    · subst hkey
      obtain rfl := Option.some.inj (MetadataCache.store_own.symm.trans hlookup)
      obtain rfl := Option.some.inj ((latest_own _ ⟨i, id, response, client, now⟩).symm.trans hx)
      have hleft := ttl_add_age hage httl
      show now + response.ttl + _ ≤ now + _
      rw [Nat.add_assoc]
      exact Nat.add_le_add_left hleft _
    · rw [Shared.recordInsert, latest_other (x := ⟨i, id, response, client, now⟩) hkey] at hx
      cases MetadataCache.store_lookup hlookup with
      | inl hnew => exact absurd hnew.1.symm hkey
      | inr hold => exact h key entry x hold.1 hx

/-- A client stored from an answer whose age is lost outlives what the age allows. -/
theorem ageFits_of_inTime {i : Nat} {s s' : Shared} {t t' : Task}
    (hstep : ResolutionStep U fromSlice i s t s' t') (h : s'.InTime) :
    AgeFits U fromSlice i s t s' t' := by
  intro response client hphase hclient hcache
  by_contra hage
  cases hstep with
  | reject | hit | miss | unprepared | unanswered | answer => cases hphase
  | refuse herror =>
    cases hphase
    rw [herror] at hclient
    cases hclient
  | skip _ hzero =>
    cases hphase
    exact hcache ((ttl_unread hage).symm.trans hzero)
  | @insert id sections response' client' reading now _ _ hreading =>
    cases hphase
    have hlate := h id _ ⟨i, id, response, client', now⟩ MetadataCache.store_own (latest_own _ _)
    have hold : Duration.fromSecs 300 < Duration.fromSecs response.declaredAge :=
      Nat.mul_lt_mul_of_pos_right (by omega) (by decide)
    have hsum : response.ttl + Duration.fromSecs response.declaredAge ≤ Duration.fromSecs 300 :=
      Nat.le_of_add_le_add_left ((Nat.add_assoc now _ _).symm.trans_le hlate)
    exact absurd ((Nat.le_add_left _ _).trans hsum) (Nat.not_le.mpr hold)

/-! ## The cache over whole runs -/

/-- **A sound cache.** In every interleaving the cache stays within its limit, every entry is a
vetted client that was stored last under its identifier and sent to some call for exactly that, every
returned client was sent to the call itself or inserted less than five minutes before its lookup, and
a call that failed changed nothing. The entries stay within the age of their answers throughout
exactly the runs in which the code can read the age of each answer that is stored. -/
theorem cache_sound {epoch : Instant} {c : Interleaving.Config Shared Task}
    (h : (resolution U fromSlice).Reachable (.initial epoch) c) :
    c.shared.cache.keys.length ≤ maxCacheEntries ∧
    (∀ id expiry client, c.shared.cache.lookup id = some (expiry, client) →
      Vetted U id client ∧ ∃ inserted, latest c.shared.inserts id = some inserted ∧
        inserted.client = client ∧ expiry = inserted.time + inserted.response.ttl ∧
        SentTo U fromSlice c.shared inserted.task inserted.response id client) ∧
    (((resolution U fromSlice).restrict (AgeFits U fromSlice)).Reachable (.initial epoch) c →
      c.shared.InTime) ∧
    (((resolution U fromSlice).restrict (AgeFits U fromSlice)).Reachable (.initial epoch) c ↔
      ((resolution U fromSlice).restrict StaysInTime).Reachable (.initial epoch) c) ∧
    (∀ i t client origin, c.tasks i = some t → t.phase = .resolved client origin →
      match origin with
      | .fetched response => SentTo U fromSlice c.shared i response t.id client
      | .cached lookup => ∃ inserted ∈ c.shared.inserts, inserted.id = t.id ∧
          inserted.client = client ∧
          SentTo U fromSlice c.shared inserted.task inserted.response t.id client ∧
          inserted.time ≤ lookup ∧ lookup < inserted.time + Duration.fromSecs 300) ∧
    (∀ i t e, c.tasks i = some t → t.phase = .failed e → t.Untouched) ∧
    (∀ i t s' t', c.tasks i = some t → (resolution U fromSlice).step i c.shared t s' t' →
      s'.cache ≠ c.shared.cache → t'.sections = ⟨c.shared.cache, s'.cache⟩ :: t.sections) := by
  obtain ⟨hinv, hall⟩ := h.sound resolution_stable (initial_inv epoch)
  have hfits : ((resolution U fromSlice).restrict (AgeFits U fromSlice)).Reachable (.initial epoch) c →
      ((resolution U fromSlice).restrict StaysInTime).Reachable (.initial epoch) c ∧
        c.shared.InTime :=
    Interleaving.Program.Reachable.restrict_trans (initial_inTime epoch) fun hs hstep hage =>
      have hs' := inTime_keep hs hstep hage
      ⟨hs', hs'⟩
  refine ⟨hinv.bounded, ?_, fun hrun => (hfits hrun).2, ⟨fun hrun => (hfits hrun).1, fun hrun => ?_⟩,
    ?_, ?_, ?_⟩
  · intro id expiry client hlookup
    obtain ⟨inserted, hx, hentry⟩ := hinv.latest id _ hlookup
    obtain ⟨rfl, rfl⟩ := Prod.mk.inj hentry
    obtain ⟨hmem, rfl⟩ := latest_some hx
    have hsent := (hinv.genuine inserted hmem).sentTo
    exact ⟨hsent.vetted, inserted, hx, rfl, rfl, hsent⟩
  · exact (Interleaving.Program.Reachable.restrict_trans (I := fun _ => True) trivial
      (fun _ hstep hs' => ⟨ageFits_of_inTime hstep hs', trivial⟩) hrun).1
  · intro i t client origin ht hphase
    have hjust := hall i t ht
    rw [Task.Justified, hphase] at hjust
    cases origin with
    | fetched response => exact ⟨hjust.1, Response.client_ok.mp hjust.2⟩
    | cached lookup =>
      obtain ⟨inserted, hmem, hid, hclient, hgenuine, hpast, hlive⟩ := hjust
      have hsent := hgenuine.sentTo
      rw [hid, hclient] at hsent
      have httl := inserted.response.ttl_le.trans (Nat.sub_le _ _)
      exact ⟨inserted, hmem, hid, hclient, hsent, hpast,
        hlive.trans_le (Nat.add_le_add_left httl _)⟩
  · intro i t e ht hphase
    have hjust := hall i t ht
    rwa [Task.Justified, hphase] at hjust
  · intro i t s' t' _ hstep hne
    exact (ResolutionStep.cache_eq hstep hne).2

end

/-! ## A reused client -/

/-- After call 0 stored its client. -/
def exampleShared (headers : List (String × List UInt8)) : Shared :=
  let s := (Shared.initial 0).tick 3
  (s.recordAnswer ⟨0, exampleId, responseWith headers⟩).recordInsert
    (s.cache.store exampleId documentClient (responseWith headers).ttl (fun _ => 4) 5)
    ⟨0, exampleId, responseWith headers, documentClient, 5⟩

/-- `G` allows the steps of the calls below. -/
structure Allows (G : Nat → Shared → Task → Shared → Task → Prop)
    (headers : List (String × List UInt8)) : Prop where
  waiting : ∀ {i s t s' t'}, t.phase = .waiting → s'.inserts = s.inserts → G i s t s' t'
  missed : ∀ {i s sections s'}, s'.inserts = s.inserts →
    G i s ⟨exampleId, .missed (httpsUrl "client.example" "/metadata"), sections⟩ s'
      ⟨exampleId, .answered (responseWith headers), sections⟩
  answered : ∀ {i s t s' t'}, s.inserts = [] → t.phase = .answered (responseWith headers) →
    G i s t s' t'

section

variable {G : Nat → Shared → Task → Shared → Task → Prop} {headers : List (String × List UInt8)}

theorem example_first (hG : Allows G headers) (httl : (responseWith headers).ttl ≠ 0) :
    ∃ sections, ((resolution exampleCrate exampleSlice).restrict G).Solo 0
      (.initial 0, ⟨exampleId, .waiting, []⟩)
      (exampleShared headers,
        ⟨exampleId, .resolved documentClient (.fetched (responseWith headers)), sections⟩) := by
  have hmissed : ((resolution exampleCrate exampleSlice).restrict G).Solo 0
      (.initial 0, ⟨exampleId, .waiting, []⟩)
      ((Shared.initial 0).tick 3,
        ⟨exampleId, .missed (httpsUrl "client.example" "/metadata"), [⟨∅, ∅⟩]⟩) :=
    .single ⟨.miss exampleId_url (by decide) rfl, hG.waiting rfl rfl⟩
  have hsend : ((networkWith headers).send exampleSent).received = .ok (responseWith headers) := rfl
  have hanswered : ((resolution exampleCrate exampleSlice).restrict G).Solo 0
      (.initial 0, ⟨exampleId, .waiting, []⟩)
      (((Shared.initial 0).tick 3).recordAnswer ⟨0, exampleId, responseWith headers⟩,
        ⟨exampleId, .answered (responseWith headers), [⟨∅, ∅⟩]⟩) :=
    hmissed.act ⟨.answer (networkWith headers) (prepare_with headers) hsend, hG.missed rfl⟩
  have hclock : ∀ key : String, ((Shared.initial 0).tick 3).time ≤ (fun _ => 4) key ∧
      (fun _ => 4) key ≤ 5 := fun _ => (by decide : 3 ≤ 4 ∧ 4 ≤ 5)
  exact ⟨_, hanswered.act ⟨.insert (responseWith_client headers) httl hclock, hG.answered rfl rfl⟩⟩

/-- One call stores its client, and a second one finds it two ticks later. -/
theorem example_reused (hG : Allows G headers) (hlive : 7 < 5 + (responseWith headers).ttl) :
    ∃ c : Interleaving.Config Shared Task,
      ((resolution exampleCrate exampleSlice).restrict G).Reachable (.initial 0) c ∧
      c.shared.time = 7 ∧
      c.shared.cache.lookup exampleId = some (5 + (responseWith headers).ttl, documentClient) ∧
      latest c.shared.inserts exampleId =
        some ⟨0, exampleId, responseWith headers, documentClient, 5⟩ ∧
      ∃ t, c.tasks 1 = some t ∧ t.id = exampleId ∧
        t.phase = .resolved documentClient (.cached 7) := by
  have hstart : ((resolution exampleCrate exampleSlice).restrict G).start
      ⟨exampleId, .waiting, []⟩ := ⟨rfl, rfl⟩
  have hinit : ((resolution exampleCrate exampleSlice).restrict G).Reachable (.initial 0)
      ⟨.initial 0, fun _ => none⟩ := .init
  have httl : (responseWith headers).ttl ≠ 0 := fun hzero => by
    rw [hzero] at hlive
    exact absurd hlive (by decide)
  obtain ⟨sections, hfirst⟩ := example_first hG httl
  have hrun := (hinit.spawn (i := 0) rfl hstart).solo hfirst
  have hhit : ((resolution exampleCrate exampleSlice).restrict G).Solo 1
      (exampleShared headers, ⟨exampleId, .waiting, []⟩)
      ((exampleShared headers).tick 7, ⟨exampleId, .resolved documentClient (.cached 7),
        [⟨(exampleShared headers).cache, (exampleShared headers).cache⟩]⟩) :=
    .single ⟨.hit exampleId_url (show 5 ≤ 7 by decide) (MetadataCache.store_fresh hlive),
      hG.waiting rfl rfl⟩
  exact ⟨_, (hrun.spawn (i := 1) rfl hstart).solo hhit, rfl, MetadataCache.store_own,
    latest_own _ ⟨0, exampleId, responseWith headers, documentClient, 5⟩, _, rfl, rfl, rfl⟩

end

def aged (age : String) : List (String × List UInt8) := [("age", Ascii.bytes age)]

theorem aged_three : (responseWith (aged "3")).declaredAge = 3 := by
  decide

/-- A second call returns the client that the first stored two ticks before, which expires within
the 297 seconds that its age leaves. -/
theorem cache_sound_reused :
    ∃ c : Interleaving.Config Shared Task,
      (resolution exampleCrate exampleSlice).Reachable (.initial 0) c ∧
      (∃ inserted ∈ c.shared.inserts, inserted.client = documentClient ∧ inserted.time ≤ 7 ∧
        7 < inserted.time + Duration.fromSecs 300) ∧
      ∃ expiry, c.shared.cache.lookup exampleId = some (expiry, documentClient) ∧
        expiry + Duration.fromSecs 3 ≤ 5 + Duration.fromSecs 300 := by
  have hfits : Allows (AgeFits exampleCrate exampleSlice) (aged "3") := by
    constructor
    · intro i s t s' t' hphase _ response client hanswered
      rw [hphase] at hanswered
      cases hanswered
    · intro i s sections s' _ response client hanswered
      cases hanswered
    · intro i s t s' t' _ hphase response client hanswered _ _
      rw [hphase] at hanswered
      cases hanswered
      rw [aged_three]
      decide
  obtain ⟨c, hrun, -, hlookup, hlatest, t, ht, -, hphase⟩ := example_reused hfits (by decide)
  obtain ⟨-, -, hintime, -, hresolved, -⟩ := cache_sound hrun.of_restrict
  obtain ⟨inserted, hmem, -, hclient, -, hpast, hlive⟩ := hresolved 1 t _ (.cached 7) ht hphase
  have hbound := hintime hrun exampleId _ _ hlookup hlatest
  rw [aged_three] at hbound
  exact ⟨c, hrun.of_restrict, ⟨inserted, hmem, hclient, hpast, hlive⟩, _, hlookup, hbound⟩

/-- A client whose age is 2^64 seconds is kept for five minutes. -/
theorem cache_outlives_age :
    ∃ c : Interleaving.Config Shared Task,
      (resolution exampleCrate exampleSlice).Reachable (.initial 0) c ∧
      latest c.shared.inserts exampleId =
        some ⟨0, exampleId, responseWith (aged "18446744073709551616"), documentClient, 5⟩ ∧
      (responseWith (aged "18446744073709551616")).declaredAge = 2 ^ 64 ∧
      c.shared.cache.lookup exampleId = some (5 + Duration.fromSecs 300, documentClient) ∧
      ¬ c.shared.InTime := by
  have hall : Allows (fun _ _ _ _ _ => True) (aged "18446744073709551616") :=
    ⟨fun _ _ => trivial, fun _ => trivial, fun _ _ => trivial⟩
  obtain ⟨c, hrun, -, hlookup, hlatest, -⟩ := example_reused hall (by decide)
  have httl : (responseWith (aged "18446744073709551616")).ttl = Duration.fromSecs 300 := by decide
  rw [httl] at hlookup
  refine ⟨c, hrun.of_restrict, hlatest, by decide, hlookup, fun hintime => ?_⟩
  exact absurd (hintime exampleId _ _ hlookup hlatest) (by decide)

/-! ## The sequential function is a run -/

/-- A call of `resolve_metadata` that nothing interrupts is a run of its task. -/
theorem resolveMetadata_solo (U : UrlCrate) (fromSlice : List UInt8 → Option Json) (net : Network)
    {clock : Readings} (id : String) {s : Shared} (htime : s.time ≤ clock.lookup)
    (hclock : ∀ key, clock.lookup ≤ clock.retain key ∧ clock.retain key ≤ clock.insert) (i : Nat) :
    ∃ s' phase sections, (resolution U fromSlice).Solo i (s, ⟨id, .waiting, []⟩)
        (s', ⟨id, phase, sections⟩) ∧
      s'.cache = (resolveMetadata U fromSlice net clock s.cache id).cache ∧
      match phase with
      | .resolved client _ => (resolveMetadata U fromSlice net clock s.cache id).result = .ok client
      | .failed e => (resolveMetadata U fromSlice net clock s.cache id).result = .error e
      | _ => False := by
  cases hurl : metadataUrl U id with
  | error e =>
    refine ⟨s, .failed e, [], .single (.reject hurl), ?_⟩
    simp [resolveMetadata, hurl]
  | ok url =>
    cases hfresh : s.cache.fresh id clock.lookup with
    | some client =>
      refine ⟨_, _, _, .single (.hit hurl htime hfresh), ?_⟩
      simp [resolveMetadata, hurl, hfresh]
    | none =>
      have hmiss : (resolution U fromSlice).Solo i (s, ⟨id, .waiting, []⟩)
          (s.tick clock.lookup, ⟨id, .missed url, [⟨s.cache, s.cache⟩]⟩) :=
        .single (.miss hurl htime hfresh)
      cases hprepare : prepare net url with
      | error e =>
        refine ⟨_, _, _, hmiss.act (.unprepared net hprepare), ?_⟩
        simp [resolveMetadata, hurl, hfresh, hprepare]
      | ok request =>
        cases hsend : (net.send request).received with
        | error e =>
          refine ⟨_, _, _, hmiss.act (.unanswered net hprepare hsend), ?_⟩
          simp [resolveMetadata, hurl, hfresh, hprepare, hsend]
        | ok response =>
          have hanswer := hmiss.act (.answer net hprepare hsend)
          cases hclient : response.client U fromSlice id with
          | error e =>
            refine ⟨_, _, _, hanswer.act (.refuse hclient), ?_⟩
            simp [resolveMetadata, hurl, hfresh, hprepare, hsend, hclient]
          | ok client =>
            by_cases httl : response.ttl = 0
            · refine ⟨_, _, _, hanswer.act (.skip hclient httl), ?_⟩
              simp [resolveMetadata, hurl, hfresh, hprepare, hsend, hclient, httl]
            · refine ⟨_, _, _, hanswer.act (.insert hclient httl hclock), ?_⟩
              simp [resolveMetadata, hurl, hfresh, hprepare, hsend, hclient, httl]

end Resolution
end Authzoo.Oauth
