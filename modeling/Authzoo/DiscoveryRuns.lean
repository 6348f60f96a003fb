import Authzoo.Discovery
import Authzoo.Lib.Interleaving

/-!
# Authzoo.DiscoveryRuns

Any number of discovery calls at once. A call looks the cache up in one critical section, fetches
the key set on a miss, and inserts in another; between them other calls run and issuers publish
other keys. The clock is read inside the lock, so it does not decrease between cache operations.

The shared state keeps a record of what was fetched and inserted. `Shared.Inv` ties every cache
entry to an insertion and every insertion to a fetch; `Task.Justified` says where a call's key
comes from. `discoveryDecodingKey_solo` shows that the sequential function is one of these runs.
-/

namespace Authzoo
namespace Discovery

/-- What a call asks for once its issuer's configuration is known. -/
structure Request where
  jwksUri : String
  kid : Option String
  algorithm : Algorithm

namespace Request

def cacheKey (r : Request) : JwksKeyCacheKey := .new r.jwksUri r.kid r.algorithm

def ofLocated (found : Located) (algorithm : Algorithm) : Request :=
  { jwksUri := found.jwksUri, kid := found.kid, algorithm }

end Request

/-- How the key that a call builds from was obtained. -/
inductive Origin where
  | cached (lookup : Instant)
  | fetched (set : JwkSet)

inductive Phase where
  | waiting
  | missed
  | fetched (set : JwkSet)
  | built (jwk : Jwk) (origin : Origin)
  | failed

structure Task where
  request : Request
  phase : Phase

structure Fetched where
  task : Nat
  jwksUri : String
  set : JwkSet

structure Inserted where
  task : Nat
  request : Request
  set : JwkSet
  jwk : Jwk
  time : Instant

/-- The cache with its last clock reading, and the record of the run. -/
structure Shared where
  cache : JwksKeyCache
  time : Instant
  fetches : List Fetched
  inserts : List Inserted

namespace Shared

def initial (epoch : Instant) : Shared :=
  { cache := .new jwksKeyCacheCapacity jwksKeyCacheTtl, time := epoch, fetches := [], inserts := [] }

/-- The state after a cache operation at `now`. -/
def tick (s : Shared) (cache : JwksKeyCache) (now : Instant) : Shared :=
  { s with cache, time := now }

def recordFetch (s : Shared) (i : Nat) (r : Request) (set : JwkSet) : Shared :=
  { s with fetches := ⟨i, r.jwksUri, set⟩ :: s.fetches }

def recordInsert (s : Shared) (inserted : Inserted) : Shared :=
  { s with inserts := inserted :: s.inserts }

end Shared

/-- One atomic action of call `i`. The document of `fetch` is whatever the issuer serves then. -/
inductive DiscoveryStep (i : Nat) : Shared → Task → Shared → Task → Prop where
  | hit {s : Shared} {r : Request} {now : Instant} {jwk : Jwk} {cache : JwksKeyCache}
      (hclock : s.time ≤ now)
      (hlookup : cachedJwksKey s.cache r.cacheKey r.algorithm now = (some jwk, cache)) :
      DiscoveryStep i s ⟨r, .waiting⟩ (s.tick cache now) ⟨r, .built jwk (.cached now)⟩
  | miss {s : Shared} {r : Request} {now : Instant} {cache : JwksKeyCache}
      (hclock : s.time ≤ now)
      (hlookup : cachedJwksKey s.cache r.cacheKey r.algorithm now = (none, cache)) :
      DiscoveryStep i s ⟨r, .waiting⟩ (s.tick cache now) ⟨r, .missed⟩
  | fetch {s : Shared} {r : Request} (set : JwkSet) :
      DiscoveryStep i s ⟨r, .missed⟩ (s.recordFetch i r set) ⟨r, .fetched set⟩
  | unfetched {s : Shared} {r : Request} : DiscoveryStep i s ⟨r, .missed⟩ s ⟨r, .failed⟩
  | unselected {s : Shared} {r : Request} {set : JwkSet} {e : AuthzooError}
      (hselect : selectJwkForToken set r.kid r.algorithm = .error e) :
      DiscoveryStep i s ⟨r, .fetched set⟩ s ⟨r, .failed⟩
  | insert {s : Shared} {r : Request} {set : JwkSet} {jwk : Jwk} {now : Instant}
      (hclock : s.time ≤ now) (hselect : selectJwkForToken set r.kid r.algorithm = .ok jwk) :
      DiscoveryStep i s ⟨r, .fetched set⟩
        ((s.tick (cacheJwksKey s.cache r.cacheKey jwk now) now).recordInsert ⟨i, r, set, jwk, now⟩)
        ⟨r, .built jwk (.fetched set)⟩

def discovery : Interleaving.Program Shared Task where
  start t := t.phase = .waiting
  step := DiscoveryStep

/-! ## The invariant -/

/-- The insertion is of a key selected from a document that its call really fetched. -/
structure Inserted.Genuine (s : Shared) (inserted : Inserted) : Prop where
  fetched : ⟨inserted.task, inserted.request.jwksUri, inserted.set⟩ ∈ s.fetches
  selected : selectJwkForToken inserted.set inserted.request.kid inserted.request.algorithm =
    .ok inserted.jwk
  past : inserted.time ≤ s.time

/-- The entry is the result of a recorded insertion under its key. -/
def EntryOf (inserts : List Inserted) (key : JwksKeyCacheKey) (entry : CachedJwksKey) : Prop :=
  ∃ inserted ∈ inserts, key = inserted.request.cacheKey ∧ entry.jwk = inserted.jwk ∧
    entry.expiresAt = inserted.time + jwksKeyCacheTtl

structure Shared.Inv (s : Shared) : Prop where
  ttl : s.cache.ttl = jwksKeyCacheTtl
  genuine : ∀ inserted ∈ s.inserts, inserted.Genuine s
  entries : s.cache.Holds (EntryOf s.inserts)

/-- The key was selected for the request from a document that the call itself fetched, or that was
fetched for the same URI by a call with the same `kid` whose insertion is recent at the lookup. -/
def Justified (s : Shared) (i : Nat) (r : Request) (jwk : Jwk) : Origin → Prop
  | .fetched set => ⟨i, r.jwksUri, set⟩ ∈ s.fetches ∧
      selectJwkForToken set r.kid r.algorithm = .ok jwk
  | .cached lookup => ∃ inserted ∈ s.inserts, inserted.request.jwksUri = r.jwksUri ∧
      inserted.request.kid = r.kid ∧ inserted.jwk = jwk ∧
      ⟨inserted.task, r.jwksUri, inserted.set⟩ ∈ s.fetches ∧
      selectJwkForToken inserted.set r.kid r.algorithm = .ok jwk ∧
      inserted.time ≤ lookup ∧ lookup < inserted.time + jwksKeyCacheTtl

def Task.Justified (i : Nat) (s : Shared) (t : Task) : Prop :=
  match t.phase with
  | .fetched set => ⟨i, t.request.jwksUri, set⟩ ∈ s.fetches
  | .built jwk origin => Discovery.Justified s i t.request jwk origin
  | _ => True

/-- The record only grows. -/
structure Shared.Grows (s s' : Shared) : Prop where
  time : s.time ≤ s'.time
  fetches : s.fetches ⊆ s'.fetches
  inserts : s.inserts ⊆ s'.inserts

theorem DiscoveryStep.grows {i : Nat} {s s' : Shared} {t t' : Task} (h : DiscoveryStep i s t s' t') :
    s.Grows s' := by
  cases h with
  | hit hclock | miss hclock => exact ⟨hclock, fun _ h => h, fun _ h => h⟩
  | fetch set => exact ⟨Nat.le_refl _, List.subset_cons_self _ _, fun _ h => h⟩
  | unfetched | unselected => exact ⟨Nat.le_refl _, fun _ h => h, fun _ h => h⟩
  | insert hclock => exact ⟨hclock, fun _ h => h, List.subset_cons_self _ _⟩

theorem Inserted.Genuine.grow {s s' : Shared} {inserted : Inserted} (h : inserted.Genuine s)
    (hs : s.Grows s') : inserted.Genuine s' :=
  ⟨hs.fetches h.fetched, h.selected, Nat.le_trans h.past hs.time⟩

theorem EntryOf.grow {inserts inserts' : List Inserted} {key : JwksKeyCacheKey}
    {entry : CachedJwksKey} (h : EntryOf inserts key entry) (hs : inserts ⊆ inserts') :
    EntryOf inserts' key entry := by
  obtain ⟨inserted, hmem, hrest⟩ := h
  exact ⟨inserted, hs hmem, hrest⟩

theorem Task.Justified.grow {i : Nat} {s s' : Shared} {t : Task} (h : t.Justified i s)
    (hs : s.Grows s') : t.Justified i s' := by
  obtain ⟨r, phase⟩ := t
  cases phase with
  | waiting | missed | failed => trivial
  | fetched set => exact hs.fetches h
  | built jwk origin =>
    cases origin with
    | fetched set => exact ⟨hs.fetches h.1, h.2⟩
    | cached lookup =>
      obtain ⟨inserted, hmem, huri, hkid, hjwk, hfetch, hrest⟩ := h
      exact ⟨inserted, hs.inserts hmem, huri, hkid, hjwk, hs.fetches hfetch, hrest⟩

/-! ## One step -/

theorem cachedJwksKey_holds {cache cache' : JwksKeyCache}
    {P : JwksKeyCacheKey → CachedJwksKey → Prop} (h : cache.Holds P) {key : JwksKeyCacheKey}
    {algorithm : Algorithm} {now : Instant} {found : Option Jwk}
    (hl : cachedJwksKey cache key algorithm now = (found, cache')) :
    cache'.Holds P ∧ cache'.ttl = cache.ttl := by
  have hc := cachedJwksKey_cache cache key algorithm now
  rw [hl] at hc
  dsimp only at hc
  rw [hc]
  exact ⟨JwksKeyCache.get_holds h key now, JwksKeyCache.get_ttl cache key now⟩

/-- A hit is a recent insertion under the same URI and `kid`, and selects again what it inserted. -/
theorem hit_justified {s : Shared} (h : s.Inv) {i : Nat} {r : Request} {now : Instant} {jwk : Jwk}
    {cache : JwksKeyCache} (hclock : s.time ≤ now)
    (hl : cachedJwksKey s.cache r.cacheKey r.algorithm now = (some jwk, cache)) :
    Justified s i r jwk (.cached now) := by
  obtain ⟨hget, hcompat⟩ := cachedJwksKey_some hl
  obtain ⟨entry, he, hjwk, hlive⟩ := JwksKeyCache.get_some (by rw [hget])
  obtain ⟨inserted, hmem, hkey, hsame, hexp⟩ := h.entries _ _ he
  obtain ⟨hfetch, hsel, hpast⟩ := h.genuine inserted hmem
  obtain ⟨huri, hkid, halg⟩ := JwksKeyCacheKey.new_inj hkey
  have hinserted : inserted.jwk = jwk := hsame.symm.trans hjwk
  rw [hexp] at hlive
  rw [← huri] at hfetch
  refine ⟨inserted, hmem, huri.symm, hkid.symm, hinserted, hfetch, ?_, Nat.le_trans hpast hclock,
    hlive⟩
  rw [← hkid, hinserted] at hsel
  cases hk : r.kid with
  | some kid =>
    rw [hk] at hsel
    exact selectJwkForToken_kid.mpr ⟨(selectJwkForToken_kid.mp hsel).1, hcompat⟩
  | none =>
    rw [hk, ← halg hk] at hsel
    exact hsel

theorem initial_inv (epoch : Instant) : (Shared.initial epoch).Inv where
  ttl := rfl
  genuine inserted h := by cases h
  entries key entry h := by cases h

theorem discovery_keep {i : Nat} {s s' : Shared} {t t' : Task} (h : s.Inv) (ht : t.Justified i s)
    (hstep : DiscoveryStep i s t s' t') : s'.Inv := by
  have hgrows := hstep.grows
  cases hstep with
  | hit hclock hl | miss hclock hl =>
    obtain ⟨hholds, httl⟩ := cachedJwksKey_holds h.entries hl
    exact ⟨httl.trans h.ttl, fun x hx => (h.genuine x hx).grow hgrows, hholds⟩
  | fetch set => exact ⟨h.ttl, fun x hx => (h.genuine x hx).grow hgrows, h.entries⟩
  | unfetched | unselected => exact h
  | @insert r set jwk now hclock hselect =>
    refine ⟨(JwksKeyCache.insert_ttl _ _ _ _).trans h.ttl, ?_, ?_⟩
    · intro x hx
      cases hx with
      | head => exact ⟨ht, hselect, Nat.le_refl now⟩
      | tail _ hx => exact (h.genuine x hx).grow hgrows
    · refine JwksKeyCache.insert_holds
        (fun key entry he => (h.entries key entry he).grow hgrows.inserts) ?_
      exact ⟨⟨i, r, set, jwk, now⟩, List.mem_cons_self, rfl, rfl, by rw [h.ttl]⟩

theorem discovery_own {i : Nat} {s s' : Shared} {t t' : Task} (h : s.Inv) (ht : t.Justified i s)
    (hstep : DiscoveryStep i s t s' t') : t'.Justified i s' := by
  have hgrows := hstep.grows
  cases hstep with
  | hit hclock hl =>
    have hjust : Task.Justified i s ⟨_, .built _ (.cached _)⟩ := hit_justified (i := i) h hclock hl
    exact hjust.grow hgrows
  | miss | unfetched | unselected => trivial
  | fetch set => exact List.mem_cons_self
  | insert hclock hselect => exact ⟨ht, hselect⟩

theorem discovery_stable : discovery.Stable Shared.Inv Task.Justified where
  start := by
    intro i s t _ hstart
    unfold Task.Justified
    rw [show t.phase = .waiting from hstart]
    trivial
  keep := discovery_keep
  own := discovery_own
  other := by
    intro i j s t s' t' u _ hstep hu
    exact hu.grow (DiscoveryStep.grows hstep)

/-! ## All interleavings -/

/-- **Bounded staleness.** In every interleaving, the JWK a call builds its key from is what
`select_jwk_for_token` gives, for the call's `kid` and algorithm, on a document really fetched from
the call's URI: by the call itself, or by a call with the same `kid` that inserted it less than the
TTL before the lookup. -/
theorem built_jwk_justified {epoch : Instant} {c : Interleaving.Config Shared Task}
    (h : discovery.Reachable (.initial epoch) c) {i : Nat} {r : Request} {jwk : Jwk}
    {origin : Origin} (ht : c.tasks i = some ⟨r, .built jwk origin⟩) :
    jwkMatchesAlgorithm jwk r.algorithm = true ∧
    ∃ j set, ⟨j, r.jwksUri, set⟩ ∈ c.shared.fetches ∧
      selectJwkForToken set r.kid r.algorithm = .ok jwk ∧
      match origin with
      | .fetched own => j = i ∧ set = own
      | .cached lookup => ∃ inserted ∈ c.shared.inserts, inserted.task = j ∧ inserted.set = set ∧
          inserted.jwk = jwk ∧ inserted.request.jwksUri = r.jwksUri ∧
          inserted.request.kid = r.kid ∧ inserted.time ≤ lookup ∧
          lookup < inserted.time + jwksKeyCacheTtl := by
  obtain ⟨-, hall⟩ := h.sound discovery_stable (initial_inv epoch)
  have hjust := hall i _ ht
  cases origin with
  | fetched own =>
    obtain ⟨hfetch, hsel⟩ := hjust
    exact ⟨selectJwkForToken_compatible hsel, i, own, hfetch, hsel, rfl, rfl⟩
  | cached lookup =>
    obtain ⟨inserted, hmem, huri, hkid, hjwk, hfetch, hsel, hpast, hlive⟩ := hjust
    exact ⟨selectJwkForToken_compatible hsel, inserted.task, inserted.set, hfetch, hsel, inserted,
      hmem, rfl, rfl, hjwk, huri, hkid, hpast, hlive⟩

/-! ## A reused key -/

def rotatedRequest : Request :=
  { jwksUri := "https://issuer.example/jwks", kid := some "one", algorithm := .hs256 }

def rotatedJwk : Jwk :=
  ⟨⟨some .signature, some .hs256, some "one"⟩, .octetKey "c2hhcmVkLXNlY3JldA"⟩

/-- After call 0 missed and fetched. -/
def rotatedFetch : Shared :=
  ((Shared.initial 0).tick (.new jwksKeyCacheCapacity jwksKeyCacheTtl) 3).recordFetch 0
    rotatedRequest ⟨[rotatedJwk]⟩

/-- After call 0 inserted its key. -/
def rotatedShared : Shared :=
  (rotatedFetch.tick (cacheJwksKey rotatedFetch.cache rotatedRequest.cacheKey rotatedJwk 5)
    5).recordInsert ⟨0, rotatedRequest, ⟨[rotatedJwk]⟩, rotatedJwk, 5⟩

theorem rotated_first : discovery.Solo 0 (.initial 0, ⟨rotatedRequest, .waiting⟩)
    (rotatedShared, ⟨rotatedRequest, .built rotatedJwk (.fetched ⟨[rotatedJwk]⟩)⟩) := by
  have hmiss : discovery.Solo 0 (.initial 0, ⟨rotatedRequest, .waiting⟩)
      ((Shared.initial 0).tick (.new jwksKeyCacheCapacity jwksKeyCacheTtl) 3,
        ⟨rotatedRequest, .missed⟩) :=
    .single (DiscoveryStep.miss (Nat.zero_le 3) rfl)
  have hfetch : discovery.Solo 0 (.initial 0, ⟨rotatedRequest, .waiting⟩)
      (rotatedFetch, ⟨rotatedRequest, .fetched ⟨[rotatedJwk]⟩⟩) :=
    hmiss.act (.fetch ⟨[rotatedJwk]⟩)
  exact hfetch.act (.insert (by decide) rfl)

theorem rotated_second : discovery.Solo 1 (rotatedShared, ⟨rotatedRequest, .waiting⟩)
    (rotatedShared.tick (rotatedShared.cache.get rotatedRequest.cacheKey 7).2 7,
      ⟨rotatedRequest, .built rotatedJwk (.cached 7)⟩) :=
  .single (DiscoveryStep.hit (by decide) rfl)

/-- A second call builds from the key that the first inserted two ticks before. -/
theorem built_jwk_justified_reused :
    ∃ c : Interleaving.Config Shared Task, discovery.Reachable (.initial 0) c ∧
      c.tasks 1 = some ⟨rotatedRequest, .built rotatedJwk (.cached 7)⟩ ∧
      ∃ inserted ∈ c.shared.inserts, inserted.jwk = rotatedJwk ∧ inserted.time ≤ 7 ∧
        7 < inserted.time + jwksKeyCacheTtl := by
  have hinit : discovery.Reachable (.initial 0) ⟨.initial 0, fun _ => none⟩ := .init
  have hstart : discovery.start ⟨rotatedRequest, .waiting⟩ := rfl
  have hfirst := (hinit.spawn (i := 0) rfl hstart).solo rotated_first
  have hsecond := (hfirst.spawn (i := 1) rfl hstart).solo rotated_second
  refine ⟨_, hsecond, rfl, ?_⟩
  obtain ⟨-, j, set, -, -, inserted, hmem, -, -, hjwk, -, -, hpast, hlive⟩ :=
    built_jwk_justified hsecond (i := 1) rfl
  exact ⟨inserted, hmem, hjwk, hpast, hlive⟩

/-! ## The sequential function is a run -/

/-- A call of `discovery_decoding_key` that nothing interrupts is a run of its task. -/
theorem discoveryDecodingKey_solo {J : JsonWebToken} {env : Environment} {role : RoleConfig}
    {token : String} {algorithm : Algorithm} {w : World} {found : Located}
    (hloc : locateJwks J env role token = .ok found) {s : Shared} (hcache : s.cache = w.keyCache)
    (htime : s.time ≤ w.clock 0) (hclock : w.clock 0 ≤ w.clock 1) (i : Nat) :
    ∃ s' phase, discovery.Solo i (s, ⟨.ofLocated found algorithm, .waiting⟩)
        (s', ⟨.ofLocated found algorithm, phase⟩) ∧
      s'.cache = (discoveryDecodingKey J env role token algorithm w).2.keyCache ∧
      match phase with
      | .built jwk _ =>
        (discoveryDecodingKey J env role token algorithm w).1.toOption = J.fromJwk jwk
      | .failed => (discoveryDecodingKey J env role token algorithm w).1.toOption = none
      | _ => False := by
  cases hl : cachedJwksKey w.keyCache (.new found.jwksUri found.kid algorithm) algorithm w.now with
  | mk result cache =>
    have hlookup : cachedJwksKey s.cache (Request.ofLocated found algorithm).cacheKey algorithm
        (w.clock 0) = (result, cache) := hcache ▸ hl
    cases result with
    | some jwk =>
      rw [discovery_hit hloc hl]
      exact ⟨_, _, .single (.hit htime hlookup), rfl, context_toOption⟩
    | none =>
      have hmiss : discovery.Solo i (s, ⟨.ofLocated found algorithm, .waiting⟩)
          (s.tick cache (w.clock 0), ⟨.ofLocated found algorithm, .missed⟩) :=
        .single (.miss htime hlookup)
      cases hserved : env.jwks found.client found.jwksUri with
      | sendFailed | errorStatus | parseFailed =>
        obtain ⟨e, he⟩ : ∃ e, fetchJwk env found algorithm = .error e := by
          simp [fetchJwk, hserved, Fetch.json, bind, Except.bind]
        rw [discovery_unfetched hloc hl he]
        exact ⟨_, .failed, hmiss.act .unfetched, rfl, rfl⟩
      | ok set =>
        have hfetch : discovery.Solo i (s, ⟨.ofLocated found algorithm, .waiting⟩)
            ((s.tick cache (w.clock 0)).recordFetch i (.ofLocated found algorithm) set,
              ⟨.ofLocated found algorithm, .fetched set⟩) :=
          hmiss.act (.fetch set)
        cases hselect : selectJwkForToken set found.kid algorithm with
        | error e =>
          rw [discovery_unfetched hloc hl ((fetchJwk_served hserved algorithm).trans hselect)]
          exact ⟨_, .failed, hfetch.act (.unselected hselect), rfl, rfl⟩
        | ok jwk =>
          rw [discovery_fetched hloc hl ((fetchJwk_served hserved algorithm).trans hselect)]
          exact ⟨_, .built jwk (.fetched set), hfetch.act (.insert hclock hselect), rfl,
            context_toOption⟩

end Discovery
end Authzoo
