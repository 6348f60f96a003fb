import Authzoo.KeyCache

/-!
# Authzoo.KeyCacheLru

`JwksKeyCache` refines the ordered LRU list of `Lib.Lru`. The abstraction reads the queue and looks
each key up (`slots`); every operation of the cache is the list's operation on it (`get_refines`,
`insert_refines`), so the list's characterisation of a hit carries over to every history of the
cache (`get_some_iff`).
-/

namespace Authzoo
namespace JwksKeyCache

abbrev Slot := Lru.Slot JwksKeyCacheKey Jwk
abbrev Event := Lru.Event JwksKeyCacheKey Jwk

def slot (entries : HashMap JwksKeyCacheKey CachedJwksKey) (key : JwksKeyCacheKey) : Option Slot :=
  (entries.lookup key).map fun entry => ⟨key, entry.jwk, entry.expiresAt⟩

def slots (self : JwksKeyCache) : List Slot := self.recency.filterMap (slot self.entries)

theorem slot_isSome {c : JwksKeyCache} (h : c.Linked) {key : JwksKeyCacheKey}
    (hk : key ∈ c.recency) : (slot c.entries key).isSome := by
  rw [slot, Option.isSome_map]
  exact AList.lookup_isSome.mpr ((h.mem_iff key).mp hk)

theorem slot_eq_some {entries : HashMap JwksKeyCacheKey CachedJwksKey} {key : JwksKeyCacheKey}
    {s : Slot} : slot entries key = some s ↔
      s.key = key ∧ entries.lookup key = some ⟨s.value, s.expiry⟩ := by
  rw [slot, Option.map_eq_some_iff]
  constructor
  · rintro ⟨entry, he, rfl⟩
    exact ⟨rfl, he⟩
  · rintro ⟨rfl, he⟩
    exact ⟨_, he, rfl⟩

theorem map_key_filterMap {entries : HashMap JwksKeyCacheKey CachedJwksKey}
    {recency : List JwksKeyCacheKey} (h : ∀ k ∈ recency, (slot entries k).isSome) :
    (recency.filterMap (slot entries)).map Lru.Slot.key = recency := by
  induction recency with
  | nil => rfl
  | cons key recency ih =>
    obtain ⟨s, hs⟩ := Option.isSome_iff_exists.mp (h key (by simp))
    rw [List.filterMap_cons_some hs, List.map_cons, ih fun k hk => h k (by simp [hk]),
      (slot_eq_some.mp hs).1]

theorem map_key_slots {c : JwksKeyCache} (h : c.Linked) : c.slots.map Lru.Slot.key = c.recency :=
  map_key_filterMap fun _ hk => slot_isSome h hk

/-- The ordered list that a linked cache stands for. -/
def toLru (c : JwksKeyCache) (h : c.Linked) : Lru.Cache JwksKeyCacheKey Jwk :=
  ⟨c.slots, by rw [map_key_slots h]; exact h.nodup⟩

theorem mem_slots {c : JwksKeyCache} (h : c.Linked) {s : Slot} :
    s ∈ c.slots ↔ c.entries.lookup s.key = some ⟨s.value, s.expiry⟩ := by
  simp only [slots, List.mem_filterMap]
  constructor
  · rintro ⟨key, -, hs⟩
    obtain ⟨rfl, he⟩ := slot_eq_some.mp hs
    exact he
  · intro he
    refine ⟨s.key, (h.mem_iff s.key).mpr (AList.lookup_isSome.mp (by rw [he]; rfl)), ?_⟩
    exact slot_eq_some.mpr ⟨rfl, he⟩

/-! ## One lemma for each private operation -/

/-- Changing the map at `key` only, and taking `key` out of the queue, takes its slot out. -/
theorem filterMap_without {entries entries' : HashMap JwksKeyCacheKey CachedJwksKey}
    {key : JwksKeyCacheKey} (h : ∀ k, k ≠ key → entries'.lookup k = entries.lookup k)
    (recency : List JwksKeyCacheKey) :
    (recency.filter (· ≠ key)).filterMap (slot entries') =
      (recency.filterMap (slot entries)).filter fun s => s.key ≠ key := by
  induction recency with
  | nil => rfl
  | cons k recency ih =>
    by_cases hk : k = key
    · rw [List.filter_cons_of_neg (by simpa using hk), ih, List.filterMap_cons]
      cases hs : slot entries k with
      | none => rfl
      | some s =>
        have hkey : s.key = key := (slot_eq_some.mp hs).1.trans hk
        simp [hkey]
    · have he : slot entries' k = slot entries k := by rw [slot, slot, h k hk]
      rw [List.filter_cons_of_pos (by simpa using hk), List.filterMap_cons, List.filterMap_cons, he]
      cases hs : slot entries k with
      | none => exact ih
      | some s =>
        have hkey : s.key ≠ key := fun e => hk ((slot_eq_some.mp hs).1.symm.trans e)
        rw [List.filter_cons_of_pos (by simpa using hkey), ← ih]

theorem remove_slots (c : JwksKeyCache) (key : JwksKeyCacheKey) :
    (c.remove key).slots = c.slots.filter fun s => s.key ≠ key :=
  filterMap_without (fun _ hk => AList.lookup_erase_ne hk) c.recency

theorem markUsed_slots {c : JwksKeyCache} {entries : HashMap JwksKeyCacheKey CachedJwksKey}
    {key : JwksKeyCacheKey} {entry : CachedJwksKey} (hkey : entries.lookup key = some entry)
    (h : ∀ k, k ≠ key → entries.lookup k = c.entries.lookup k) :
    ({ c with entries := entries }.markUsed key).slots =
      (c.slots.filter fun s => s.key ≠ key) ++ [⟨key, entry.jwk, entry.expiresAt⟩] := by
  have hs : slot entries key = some ⟨key, entry.jwk, entry.expiresAt⟩ := by rw [slot, hkey]; rfl
  simp only [slots, markUsed, removeFromRecency, List.filterMap_append, filterMap_without h]
  rw [List.filterMap_cons_some hs, List.filterMap_nil]

theorem foldl_remove_slots (c : JwksKeyCache) (keys : List JwksKeyCacheKey) :
    (keys.foldl remove c).slots = c.slots.filter fun s => s.key ∉ keys := by
  induction keys generalizing c with
  | nil => simp
  | cons key keys ih =>
    rw [List.foldl_cons, ih, remove_slots, List.filter_filter]
    refine List.filter_congr fun s _ => ?_
    by_cases h1 : s.key = key <;> by_cases h2 : s.key ∈ keys <;> simp [h1, h2]

theorem mem_expiredKeys {c : JwksKeyCache} {now : Instant} {key : JwksKeyCacheKey} :
    key ∈ c.expiredKeys now ↔ ∃ entry, c.entries.lookup key = some entry ∧ entry.expiresAt ≤ now := by
  simp only [expiredKeys, List.mem_filterMap]
  constructor
  · rintro ⟨⟨k, entry⟩, hmem, hs⟩
    split at hs
    · rename_i hle
      cases hs
      exact ⟨entry, AList.mem_lookup_iff.mpr hmem, hle⟩
    · cases hs
  · rintro ⟨entry, he, hle⟩
    exact ⟨⟨key, entry⟩, AList.mem_lookup_iff.mp he, by rw [if_pos hle]⟩

theorem evictExpired_slots {c : JwksKeyCache} (h : c.Linked) (now : Instant) :
    (c.evictExpired now).slots = c.slots.filter fun s => now < s.expiry := by
  rw [evictExpired, foldl_remove_slots]
  refine List.filter_congr fun s hs => ?_
  have he := (mem_slots h).mp hs
  have hexp : s.key ∈ c.expiredKeys now ↔ s.expiry ≤ now := by
    rw [mem_expiredKeys]
    constructor
    · rintro ⟨entry, he', hle⟩
      rw [he, Option.some.injEq] at he'
      subst he'
      exact hle
    · exact fun hle => ⟨_, he, hle⟩
  rw [decide_eq_decide, hexp, Nat.not_le]

theorem drop_filterMap_slot {entries : HashMap JwksKeyCacheKey CachedJwksKey}
    {recency : List JwksKeyCacheKey} (h : ∀ k ∈ recency, (slot entries k).isSome) (n : Nat) :
    (recency.drop n).filterMap (slot entries) = (recency.filterMap (slot entries)).drop n := by
  induction recency generalizing n with
  | nil => simp
  | cons key recency ih =>
    obtain ⟨s, hs⟩ := Option.isSome_iff_exists.mp (h key (by simp))
    cases n with
    | zero => rfl
    | succ n =>
      rw [List.filterMap_cons_some hs, List.drop_succ_cons, List.drop_succ_cons]
      exact ih (fun k hk => h k (by simp [hk])) n

theorem evictLru_slots {c : JwksKeyCache} (h : c.Linked) :
    c.evictLru.slots = c.slots.drop (c.slots.length - c.capacity) := by
  obtain ⟨-, hpopped, hrec, -, hlookup⟩ := evictLruOutcome_spec h
  have hlen : c.slots.length = c.recency.length := by rw [← map_key_slots h, List.length_map]
  have hcongr : ∀ k ∈ c.evictLruOutcome.recency,
      slot c.evictLruOutcome.entries k = slot c.entries k := by
    intro k hk
    rw [slot, slot, hlookup k]
    rw [hrec] at hk
    rw [hpopped]
    -- the keys left in the queue are not among the popped ones
    have hnd := h.nodup
    rw [← List.take_append_drop (c.recency.length - c.capacity) c.recency,
      List.nodup_append] at hnd
    exact fun hin => hnd.2.2 k hin k hk rfl
  simp only [slots, evictLru]
  rw [List.filterMap_congr hcongr, hrec, drop_filterMap_slot fun k hk => slot_isSome h hk]
  simp only [slots] at hlen
  rw [hlen]

/-! ## The refinement -/

theorem get_refines {c : JwksKeyCache} (h : c.Linked) (key : JwksKeyCacheKey) (now : Instant) :
    (c.get key now).1 = ((c.toLru h).get key now).1 ∧
      (c.get key now).2.toLru (get_linked h key now) = ((c.toLru h).get key now).2 := by
  have hfind : ∀ s, (c.slots.find? fun s => s.key = key) = some s →
      c.entries.lookup key = some ⟨s.value, s.expiry⟩ ∧ s.key = key := by
    intro s hs
    have hk : s.key = key := by simpa using List.find?_some hs
    exact ⟨hk ▸ (mem_slots h).mp (List.mem_of_find?_eq_some hs), hk⟩
  cases hf : c.slots.find? fun s => s.key = key with
  | none =>
    have hnone : c.entries.lookup key = none := by
      cases he : c.entries.lookup key with
      | none => rfl
      | some entry =>
        have hmem : (⟨key, entry.jwk, entry.expiresAt⟩ : Slot) ∈ c.slots := (mem_slots h).mpr he
        have hne := List.find?_eq_none.mp hf _ hmem
        simp at hne
    have hl : (c.toLru h).get key now = (none, c.toLru h) := by
      simp only [Lru.Cache.get, toLru, hf]
    have hc : c.get key now = (none, c) := by simp only [get, hnone]
    exact ⟨by rw [hl, hc], by rw [hl]; exact Lru.Cache.ext (by simp only [toLru, hc])⟩
  | some s =>
    obtain ⟨he, hk⟩ := hfind s hf
    by_cases hx : s.expiry ≤ now
    · have hl : (c.toLru h).get key now = (none, (c.toLru h).without key) := by
        simp only [Lru.Cache.get, toLru, hf, if_pos hx]
      have hc : c.get key now = (none, c.remove key) := by simp only [get, he, if_pos hx]
      refine ⟨by rw [hl, hc], ?_⟩
      rw [hl]
      refine Lru.Cache.ext ?_
      simp only [toLru, hc]
      exact remove_slots c key
    · have hl : (c.toLru h).get key now = (some s.value, (c.toLru h).use s) := by
        simp only [Lru.Cache.get, toLru, hf, if_neg hx]
      have hc : c.get key now = (some s.value, c.markUsed key) := by
        simp only [get, he, if_neg hx]
      refine ⟨by rw [hl, hc], ?_⟩
      rw [hl]
      refine Lru.Cache.ext ?_
      simp only [toLru, hc]
      have hs := markUsed_slots (c := c) he fun _ _ => rfl
      subst hk
      exact hs

theorem insertUnbounded_slots {c : JwksKeyCache} (h : c.Linked) (key : JwksKeyCacheKey) (jwk : Jwk)
    (now : Instant) : (c.insertUnbounded key jwk now).slots =
      (((c.toLru h).use ⟨key, jwk, now + c.ttl⟩).keep fun s => now < s.expiry).slots := by
  have hl : ({ c with entries := c.entries.insert key ⟨jwk, now + c.ttl⟩ }.markUsed key).Linked :=
    markUsed_linked h (by rw [AList.keys_insert])
  rw [insertUnbounded, evictExpired_slots hl,
    markUsed_slots (AList.lookup_insert _) fun _ hk => AList.lookup_insert_ne hk]
  rfl

theorem insert_refines {c : JwksKeyCache} (h : c.Linked) (key : JwksKeyCacheKey) (jwk : Jwk)
    (now : Instant) : (c.insert key jwk now).toLru (insert_linked h key jwk now) =
      (c.toLru h).insert c.capacity c.ttl key jwk now := by
  refine Lru.Cache.ext ?_
  simp only [toLru, insert, Lru.Cache.insert]
  split
  · rfl
  · rw [evictLru_slots (insertUnbounded_linked h key jwk now), insertUnbounded_slots h,
      insertUnbounded_capacity]
    rfl

/-! ## Histories -/

def event (c : JwksKeyCache) : CacheOp → Event
  | .get key now => .get key now (c.get key now).1
  | .insert key jwk now => .insert key jwk now

/-- What happened in a run, newest event first, before the events of `history`. -/
def events (c : JwksKeyCache) (history : List Event) : List CacheOp → List Event
  | [] => history
  | op :: ops => (c.apply op).events (c.event op :: history) ops

theorem apply_linked {c : JwksKeyCache} (h : c.Linked) (op : CacheOp) : (c.apply op).Linked := by
  cases op with
  | get key now => exact get_linked h key now
  | insert key jwk now => exact insert_linked h key jwk now

theorem apply_refines {c : JwksKeyCache} (h : c.Linked) (history : List Event) (op : CacheOp) :
    Lru.step c.capacity c.ttl (c.toLru h, history) op =
      ((c.apply op).toLru (apply_linked h op), c.event op :: history) := by
  cases op with
  | get key now =>
    obtain ⟨h1, h2⟩ := get_refines h key now
    simp only [Lru.step, event, apply, h1, h2]
  | insert key jwk now => simp only [Lru.step, event, apply, insert_refines h key jwk now]

theorem apply_settings (c : JwksKeyCache) (op : CacheOp) :
    (c.apply op).capacity = c.capacity ∧ (c.apply op).ttl = c.ttl := by
  cases op with
  | get key now => exact ⟨get_capacity c key now, get_ttl c key now⟩
  | insert key jwk now => exact ⟨insert_capacity c key jwk now, insert_ttl c key jwk now⟩

/-- A whole run of the cache is a run of the list, with the same history. -/
theorem run_refines {c : JwksKeyCache} (h : c.Linked) (history : List Event) (ops : List CacheOp) :
    ∃ h' : (c.run ops).Linked, Lru.run c.capacity c.ttl (c.toLru h, history) ops =
      ((c.run ops).toLru h', c.events history ops) := by
  induction ops generalizing c history with
  | nil => exact ⟨h, rfl⟩
  | cons op ops ih =>
    obtain ⟨h', hrun⟩ := ih (apply_linked h op) (c.event op :: history)
    obtain ⟨hcap, httl⟩ := apply_settings c op
    refine ⟨h', ?_⟩
    rw [hcap, httl] at hrun
    rw [Lru.run, List.foldl_cons, apply_refines h history op]
    exact hrun

/-- After a run with a non-decreasing clock, the cache's list tracks the history. -/
theorem run_tracks {capacity : Nat} (hcap : 1 ≤ capacity) (ttl : Duration) {ops : List CacheOp}
    {now : Instant} (hmono : (ops.map Lru.Op.time ++ [now]).Pairwise (· ≤ ·)) :
    ∃ h : ((new capacity ttl).run ops).Linked,
      Lru.Tracks capacity ttl now (((new capacity ttl).run ops).toLru h)
        ((new capacity ttl).events [] ops) := by
  obtain ⟨h, hrun⟩ := run_refines (new_linked capacity ttl) [] ops
  refine ⟨h, ?_⟩
  have hempty : (new capacity ttl).toLru (new_linked capacity ttl) = Lru.Cache.empty := rfl
  rw [hempty] at hrun
  rw [List.pairwise_append] at hmono
  have ht := Lru.run_tracks hcap (σ := (Lru.Cache.empty, []))
    (Lru.empty_tracks (K := JwksKeyCacheKey) (V := Jwk) capacity ttl 0)
    (List.pairwise_cons.mpr ⟨fun _ _ => Nat.zero_le _, hmono.1⟩) now
    (fun op hop => hmono.2.2 op.time (List.mem_map_of_mem hop) now (by simp)) (Nat.zero_le now)
  simp only [new] at hrun ht ⊢
  rwa [hrun] at ht

/-- **LRU with expiry, exactly.** After any history with a non-decreasing clock, `get` answers the
JWK of the key's latest insertion if that is unexpired and no insertion since the key's last use
found `capacity` other keys used since then and unexpired; in particular a live key survives while
fewer than `capacity` other keys are used after it. When an insertion comes to evict, no expired
key is held. -/
theorem get_some_iff (capacity : Nat) (hcap : 1 ≤ capacity) (ttl : Duration) (ops : List CacheOp)
    (now : Instant) (hmono : (ops.map Lru.Op.time ++ [now]).Pairwise (· ≤ ·))
    (key : JwksKeyCacheKey) (jwk : Jwk) :
    let c := (new capacity ttl).run ops
    let history := (new capacity ttl).events [] ops
    ((c.get key now).1 = some jwk ↔
      (∃ t, Lru.latestInsert key history = some (jwk, t) ∧ now < t + ttl) ∧
        ¬ Lru.CrowdedOut capacity ttl key history) ∧
    ((∃ t, Lru.latestInsert key history = some (jwk, t) ∧ now < t + ttl) →
      (Lru.rivals key history).toFinset.card < capacity → (c.get key now).1 = some jwk) ∧
    (∀ key' jwk', ∀ k ∈ (c.insertUnbounded key' jwk' now).evictLruOutcome.popped,
      ∀ held entry, (c.insertUnbounded key' jwk' now).entries.lookup held = some entry →
        now < entry.expiresAt) := by
  intro c history
  obtain ⟨h, ht⟩ := run_tracks hcap ttl hmono
  have hiff := Lru.get_iff ht (Nat.le_refl now) key jwk
  rw [← (get_refines h key now).1] at hiff
  refine ⟨hiff, ?_, ?_⟩
  · intro hlive hfew
    refine hiff.mpr ⟨hlive, fun hc => ?_⟩
    exact absurd (Lru.card_rivals_of_crowdedOut hc) (Nat.not_le.mpr hfew)
  · intro key' jwk' k _ held entry he
    have hl := insertUnbounded_linked h key' jwk' now
    have hmem := (mem_slots hl (s := ⟨held, entry.jwk, entry.expiresAt⟩)).mpr he
    rw [insertUnbounded_slots h] at hmem
    simpa using (List.mem_filter.mp hmem).2

def testKey (kid : String) : JwksKeyCacheKey :=
  { jwksUri := "https://issuer.example/jwks", selector := "kid:" ++ kid }

def testJwk (kid : String) : Jwk := ⟨⟨some .signature, some .hs256, some kid⟩, .octetKey "c2hhcmVk"⟩

/-- Three insertions with a use of the first before the third. -/
def refreshedOps : List CacheOp :=
  [.insert (testKey "one") (testJwk "one") 0, .insert (testKey "two") (testJwk "two") 0,
    .get (testKey "one") 1, .insert (testKey "three") (testJwk "three") 2]

/-- With room for two keys, the oldest insertion survives because it was used in between. -/
theorem get_some_iff_refreshed :
    (((new 2 60).run refreshedOps).get (testKey "one") 3).1 = some (testJwk "one") ∧
    ¬ Lru.CrowdedOut 2 60 (testKey "one") ((new 2 60).events [] refreshedOps) := by
  have hit : (((new 2 60).run refreshedOps).get (testKey "one") 3).1 = some (testJwk "one") := by
    decide
  exact ⟨hit, ((get_some_iff 2 (by decide) 60 refreshedOps 3 (by decide) _ _).1.mp hit).2⟩

end JwksKeyCache
end Authzoo
