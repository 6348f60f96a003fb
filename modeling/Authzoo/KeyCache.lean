import Mathlib.Data.List.AList
import Authzoo.Jwt
import Authzoo.Lib.Lru

/-!
# Authzoo.KeyCache

`JwksKeyCache` of `discovery.rs`: a hash map of keys with expiry times and a queue of the same
keys, least recently used first.

`Linked` is the representation invariant between the two structures; `run_inv` carries it and the
capacity bound through every sequence of operations from `JwksKeyCache.new`. `insert` breaks the
bound in the middle: `evictLruLoop_spec` says what its closing loop does from there, for any overrun.
-/

namespace Authzoo

/-- Nanoseconds since an arbitrary origin of the monotonic clock. -/
abbrev Instant := Nat

abbrev Duration := Nat

def Duration.fromSecs (secs : Nat) : Duration := secs * 1000000000

/-- Rust's hash map. No code modelled here depends on its iteration order. -/
abbrev HashMap (K V : Type) := AList fun _ : K => V

structure JwksKeyCacheKey where
  jwksUri : String
  selector : String
  deriving DecidableEq

def JwksKeyCacheKey.new (jwksUri : String) (kid : Option String) (algorithm : Algorithm) :
    JwksKeyCacheKey :=
  { jwksUri
    selector :=
      match kid with
      | some kid => "kid:" ++ kid
      | none => "algorithm:" ++ algorithm.debug }

structure CachedJwksKey where
  jwk : Jwk
  expiresAt : Instant
  deriving DecidableEq

structure JwksKeyCache where
  entries : HashMap JwksKeyCacheKey CachedJwksKey
  recency : List JwksKeyCacheKey
  capacity : Nat
  ttl : Duration

namespace JwksKeyCache

def new (capacity : Nat) (ttl : Duration) : JwksKeyCache :=
  { entries := ∅, recency := [], capacity, ttl }

def len (entries : HashMap JwksKeyCacheKey CachedJwksKey) : Nat := entries.keys.length

def removeFromRecency (self : JwksKeyCache) (key : JwksKeyCacheKey) : JwksKeyCache :=
  { self with recency := self.recency.filter (· ≠ key) }

/-- The two removals that `get` and `evict_expired` make together. -/
def remove (self : JwksKeyCache) (key : JwksKeyCacheKey) : JwksKeyCache :=
  { self with entries := self.entries.erase key }.removeFromRecency key

def markUsed (self : JwksKeyCache) (key : JwksKeyCacheKey) : JwksKeyCache :=
  { self.removeFromRecency key with recency := (self.removeFromRecency key).recency ++ [key] }

def get (self : JwksKeyCache) (key : JwksKeyCacheKey) (now : Instant) :
    Option Jwk × JwksKeyCache :=
  match self.entries.lookup key with
  | none => (none, self)
  | some entry =>
    if entry.expiresAt ≤ now then (none, self.remove key)
    else (some entry.jwk, self.markUsed key)

def expiredKeys (self : JwksKeyCache) (now : Instant) : List JwksKeyCacheKey :=
  self.entries.entries.filterMap fun ⟨key, entry⟩ =>
    if entry.expiresAt ≤ now then some key else none

def evictExpired (self : JwksKeyCache) (now : Instant) : JwksKeyCache :=
  (self.expiredKeys now).foldl remove self

/-- What the loop of `evict_lru` leaves, the keys it popped, and whether it ended in `break`. -/
structure EvictLru where
  entries : HashMap JwksKeyCacheKey CachedJwksKey
  recency : List JwksKeyCacheKey
  popped : List JwksKeyCacheKey
  broke : Bool

def evictLruLoop (capacity : Nat) (entries : HashMap JwksKeyCacheKey CachedJwksKey) :
    List JwksKeyCacheKey → EvictLru
  | [] => { entries, recency := [], popped := [], broke := capacity < len entries }
  | key :: recency =>
    if capacity < len entries then
      let rest := evictLruLoop capacity (entries.erase key) recency
      { rest with popped := key :: rest.popped }
    else { entries, recency := key :: recency, popped := [], broke := false }

def evictLruOutcome (self : JwksKeyCache) : EvictLru :=
  evictLruLoop self.capacity self.entries self.recency

def evictLru (self : JwksKeyCache) : JwksKeyCache :=
  { self with entries := self.evictLruOutcome.entries, recency := self.evictLruOutcome.recency }

/-- `insert` up to its call of `evict_lru`. -/
def insertUnbounded (self : JwksKeyCache) (key : JwksKeyCacheKey) (jwk : Jwk) (now : Instant) :
    JwksKeyCache :=
  ({ self with entries := self.entries.insert key ⟨jwk, now + self.ttl⟩ }.markUsed
    key).evictExpired now

def insert (self : JwksKeyCache) (key : JwksKeyCacheKey) (jwk : Jwk) (now : Instant) :
    JwksKeyCache :=
  if self.capacity = 0 then self else (self.insertUnbounded key jwk now).evictLru

/-! ## The representation invariant -/

/-- The queue lists exactly the keys of the map, each once (the keys of the map are distinct). -/
def Linked (self : JwksKeyCache) : Prop := self.entries.keys.Perm self.recency

namespace Linked

variable {c : JwksKeyCache}

theorem nodup (h : c.Linked) : c.recency.Nodup :=
  (List.Perm.nodup_iff h).mp c.entries.keys_nodup

theorem mem_iff (h : c.Linked) (key : JwksKeyCacheKey) : key ∈ c.recency ↔ key ∈ c.entries :=
  (List.Perm.mem_iff h).symm.trans AList.mem_keys.symm

theorem len_eq (h : c.Linked) : len c.entries = c.recency.length := List.Perm.length_eq h

end Linked

theorem recency_removeFromRecency {c : JwksKeyCache} (h : c.recency.Nodup)
    (key : JwksKeyCacheKey) : (c.removeFromRecency key).recency = c.recency.erase key := by
  rw [h.erase_eq_filter]
  refine List.filter_congr fun k _ => ?_
  by_cases hk : k = key <;> simp [hk]

theorem new_linked (capacity : Nat) (ttl : Duration) : (new capacity ttl).Linked := by
  simp [Linked, new]

theorem remove_linked {c : JwksKeyCache} (h : c.Linked) (key : JwksKeyCacheKey) :
    (c.remove key).Linked := by
  have hr : (c.remove key).recency = c.recency.erase key :=
    recency_removeFromRecency (c := { c with entries := c.entries.erase key }) h.nodup key
  unfold Linked
  rw [hr]
  simp only [remove, removeFromRecency, AList.keys_erase]
  exact h.erase key

/-- `mark_used` restores the link for the key that was just written. -/
theorem markUsed_linked {c : JwksKeyCache} {entries : HashMap JwksKeyCacheKey CachedJwksKey}
    {key : JwksKeyCacheKey} (h : c.Linked) (hk : entries.keys.Perm (key :: c.entries.keys.erase key)) :
    ({ c with entries := entries }.markUsed key).Linked := by
  have hr := recency_removeFromRecency (c := c) h.nodup key
  simp only [removeFromRecency] at hr
  simp only [Linked, markUsed, removeFromRecency, hr]
  refine hk.trans (((h.erase key).cons key).trans ?_)
  exact (List.perm_append_singleton key _).symm

theorem foldl_remove_linked {c : JwksKeyCache} (keys : List JwksKeyCacheKey) (h : c.Linked) :
    (keys.foldl remove c).Linked := by
  induction keys generalizing c with
  | nil => exact h
  | cons key keys ih => exact ih (remove_linked h key)

theorem evictExpired_linked {c : JwksKeyCache} (h : c.Linked) (now : Instant) :
    (c.evictExpired now).Linked :=
  foldl_remove_linked _ h

theorem get_linked {c : JwksKeyCache} (h : c.Linked) (key : JwksKeyCacheKey) (now : Instant) :
    (c.get key now).2.Linked := by
  unfold get
  split
  · exact h
  · rename_i entry he
    split
    · exact remove_linked h key
    · have hmem : key ∈ c.entries.keys :=
        AList.mem_keys.mp (AList.lookup_isSome.mp (by rw [he]; rfl))
      exact markUsed_linked h (List.perm_cons_erase hmem)

theorem insertUnbounded_linked {c : JwksKeyCache} (h : c.Linked) (key : JwksKeyCacheKey) (jwk : Jwk)
    (now : Instant) : (c.insertUnbounded key jwk now).Linked := by
  refine evictExpired_linked (markUsed_linked h ?_) now
  rw [AList.keys_insert]

/-- From linked structures the loop pops the overrun from the front of the queue, keeps the link
and the other entries, and never finds the queue empty. -/
theorem evictLruLoop_spec (capacity : Nat) (recency : List JwksKeyCacheKey) :
    ∀ entries : HashMap JwksKeyCacheKey CachedJwksKey, entries.keys.Perm recency →
      let out := evictLruLoop capacity entries recency
      out.broke = false ∧ out.popped = recency.take (recency.length - capacity) ∧
        out.recency = recency.drop (recency.length - capacity) ∧
        out.entries.keys.Perm out.recency ∧
        ∀ k ∉ out.popped, out.entries.lookup k = entries.lookup k := by
  induction recency with
  | nil =>
    intro entries h
    have : len entries = 0 := h.length_eq
    simp [evictLruLoop, this, h]
  | cons key recency ih =>
    intro entries h
    have hlen : len entries = recency.length + 1 := h.length_eq
    have herase : (entries.erase key).keys.Perm recency := by
      rw [AList.keys_erase]
      simpa using h.erase key
    obtain ⟨hbroke, hpopped, hrecency, hperm, hlookup⟩ := ih _ herase
    simp only [evictLruLoop, hlen, List.length_cons]
    split
    · have e : recency.length + 1 - capacity = recency.length - capacity + 1 := by omega
      rw [e]
      refine ⟨hbroke, by rw [hpopped]; rfl, by rw [hrecency]; rfl, hperm, ?_⟩
      intro k hk
      obtain ⟨hne, hk⟩ := List.ne_and_not_mem_of_not_mem_cons hk
      rw [hlookup k hk, AList.lookup_erase_ne hne]
    · have e : recency.length + 1 - capacity = 0 := by omega
      rw [e]
      exact ⟨rfl, rfl, rfl, h, fun k _ => rfl⟩

theorem evictLruOutcome_spec {c : JwksKeyCache} (h : c.Linked) :
    c.evictLruOutcome.broke = false ∧
      c.evictLruOutcome.popped = c.recency.take (c.recency.length - c.capacity) ∧
      c.evictLruOutcome.recency = c.recency.drop (c.recency.length - c.capacity) ∧
      c.evictLruOutcome.entries.keys.Perm c.evictLruOutcome.recency ∧
      ∀ k ∉ c.evictLruOutcome.popped, c.evictLruOutcome.entries.lookup k = c.entries.lookup k :=
  evictLruLoop_spec c.capacity c.recency c.entries h

theorem evictLru_linked {c : JwksKeyCache} (h : c.Linked) : c.evictLru.Linked :=
  (evictLruOutcome_spec h).2.2.2.1

theorem insert_linked {c : JwksKeyCache} (h : c.Linked) (key : JwksKeyCacheKey) (jwk : Jwk)
    (now : Instant) : (c.insert key jwk now).Linked := by
  unfold insert
  split
  · exact h
  · exact evictLru_linked (insertUnbounded_linked h key jwk now)

/-! ## Settings and sizes -/

@[simp] theorem remove_capacity (c : JwksKeyCache) (key : JwksKeyCacheKey) :
    (c.remove key).capacity = c.capacity := rfl

@[simp] theorem remove_ttl (c : JwksKeyCache) (key : JwksKeyCacheKey) :
    (c.remove key).ttl = c.ttl := rfl

theorem foldl_remove_settings (c : JwksKeyCache) (keys : List JwksKeyCacheKey) :
    (keys.foldl remove c).capacity = c.capacity ∧ (keys.foldl remove c).ttl = c.ttl := by
  induction keys generalizing c with
  | nil => exact ⟨rfl, rfl⟩
  | cons key keys ih => exact ih (c.remove key)

@[simp] theorem insertUnbounded_capacity (c : JwksKeyCache) (key : JwksKeyCacheKey) (jwk : Jwk)
    (now : Instant) : (c.insertUnbounded key jwk now).capacity = c.capacity :=
  (foldl_remove_settings _ _).1

@[simp] theorem insertUnbounded_ttl (c : JwksKeyCache) (key : JwksKeyCacheKey) (jwk : Jwk)
    (now : Instant) : (c.insertUnbounded key jwk now).ttl = c.ttl :=
  (foldl_remove_settings _ _).2

@[simp] theorem get_capacity (c : JwksKeyCache) (key : JwksKeyCacheKey) (now : Instant) :
    (c.get key now).2.capacity = c.capacity := by
  unfold get
  split
  · rfl
  · split <;> rfl

@[simp] theorem get_ttl (c : JwksKeyCache) (key : JwksKeyCacheKey) (now : Instant) :
    (c.get key now).2.ttl = c.ttl := by
  unfold get
  split
  · rfl
  · split <;> rfl

@[simp] theorem insert_capacity (c : JwksKeyCache) (key : JwksKeyCacheKey) (jwk : Jwk)
    (now : Instant) : (c.insert key jwk now).capacity = c.capacity := by
  unfold insert
  split
  · rfl
  · exact insertUnbounded_capacity c key jwk now

@[simp] theorem insert_ttl (c : JwksKeyCache) (key : JwksKeyCacheKey) (jwk : Jwk)
    (now : Instant) : (c.insert key jwk now).ttl = c.ttl := by
  unfold insert
  split
  · rfl
  · exact insertUnbounded_ttl c key jwk now

theorem foldl_remove_length (c : JwksKeyCache) (keys : List JwksKeyCacheKey) :
    (keys.foldl remove c).recency.length ≤ c.recency.length := by
  induction keys generalizing c with
  | nil => exact Nat.le_refl _
  | cons key keys ih => exact Nat.le_trans (ih (c.remove key)) (List.length_filter_le _ _)

theorem markUsed_length (c : JwksKeyCache) (key : JwksKeyCacheKey) :
    (c.markUsed key).recency.length ≤ c.recency.length + 1 := by
  have := List.length_filter_le (fun k => decide (k ≠ key)) c.recency
  simp only [markUsed, removeFromRecency, List.length_append, List.length_singleton]
  omega

theorem insertUnbounded_length (c : JwksKeyCache) (key : JwksKeyCacheKey) (jwk : Jwk)
    (now : Instant) : (c.insertUnbounded key jwk now).recency.length ≤ c.recency.length + 1 :=
  Nat.le_trans (foldl_remove_length _ _) (markUsed_length _ key)

/-! ## Entries -/

/-- Every entry satisfies `P`. -/
def Holds (c : JwksKeyCache) (P : JwksKeyCacheKey → CachedJwksKey → Prop) : Prop :=
  ∀ key entry, c.entries.lookup key = some entry → P key entry

theorem lookup_erase_some {entries : HashMap JwksKeyCacheKey CachedJwksKey}
    {key k : JwksKeyCacheKey} {entry : CachedJwksKey}
    (h : (entries.erase key).lookup k = some entry) : entries.lookup k = some entry := by
  by_cases hk : k = key
  · rw [hk, AList.lookup_erase] at h
    cases h
  · rwa [AList.lookup_erase_ne hk] at h

theorem foldl_remove_lookup {c : JwksKeyCache} (keys : List JwksKeyCacheKey) {k : JwksKeyCacheKey}
    {entry : CachedJwksKey} (h : (keys.foldl remove c).entries.lookup k = some entry) :
    c.entries.lookup k = some entry := by
  induction keys generalizing c with
  | nil => exact h
  | cons key keys ih => exact lookup_erase_some (ih h)

theorem evictLruLoop_lookup {capacity : Nat} {recency : List JwksKeyCacheKey}
    {entries : HashMap JwksKeyCacheKey CachedJwksKey} {k : JwksKeyCacheKey} {entry : CachedJwksKey}
    (h : (evictLruLoop capacity entries recency).entries.lookup k = some entry) :
    entries.lookup k = some entry := by
  induction recency generalizing entries with
  | nil => exact h
  | cons key recency ih =>
    simp only [evictLruLoop] at h
    split at h
    · exact lookup_erase_some (ih h)
    · exact h

/-- A hit answers an unexpired entry of the key. -/
theorem get_some {c : JwksKeyCache} {key : JwksKeyCacheKey} {now : Instant} {jwk : Jwk}
    (h : (c.get key now).1 = some jwk) :
    ∃ entry, c.entries.lookup key = some entry ∧ entry.jwk = jwk ∧ now < entry.expiresAt := by
  unfold get at h
  split at h
  · cases h
  · rename_i entry he
    split at h
    · cases h
    · rename_i hlive
      cases h
      exact ⟨entry, he, rfl, Nat.lt_of_not_le hlive⟩

theorem get_holds {c : JwksKeyCache} {P : JwksKeyCacheKey → CachedJwksKey → Prop} (h : c.Holds P)
    (key : JwksKeyCacheKey) (now : Instant) : (c.get key now).2.Holds P := by
  unfold get
  split
  · exact h
  · split
    · exact fun k entry hk => h k entry (lookup_erase_some hk)
    · exact h

theorem insert_holds {c : JwksKeyCache} {P : JwksKeyCacheKey → CachedJwksKey → Prop} (h : c.Holds P)
    {key : JwksKeyCacheKey} {jwk : Jwk} {now : Instant} (hnew : P key ⟨jwk, now + c.ttl⟩) :
    (c.insert key jwk now).Holds P := by
  unfold insert
  split
  · exact h
  · intro k entry hk
    have hmid := foldl_remove_lookup _ (evictLruLoop_lookup hk)
    by_cases hkey : k = key
    · subst hkey
      simp only [markUsed, removeFromRecency, AList.lookup_insert, Option.some.injEq] at hmid
      exact hmid ▸ hnew
    · simp only [markUsed, removeFromRecency, AList.lookup_insert_ne hkey] at hmid
      exact h k entry hmid

/-! ## Runs -/

structure Inv (c : JwksKeyCache) : Prop where
  linked : c.Linked
  bounded : len c.entries ≤ c.capacity

theorem Inv.recency_bounded {c : JwksKeyCache} (h : c.Inv) : c.recency.length ≤ c.capacity := by
  have := h.bounded
  rwa [h.linked.len_eq] at this

theorem new_inv (capacity : Nat) (ttl : Duration) : (new capacity ttl).Inv :=
  ⟨new_linked capacity ttl, by simp [len, new]⟩

/-- One insertion overruns the capacity by at most one key. -/
theorem insertUnbounded_overrun {c : JwksKeyCache} (h : c.Inv) (key : JwksKeyCacheKey) (jwk : Jwk)
    (now : Instant) : (c.insertUnbounded key jwk now).recency.length ≤ c.capacity + 1 := by
  have h1 := insertUnbounded_length c key jwk now
  have h2 := h.recency_bounded
  omega

theorem get_inv {c : JwksKeyCache} (h : c.Inv) (key : JwksKeyCacheKey) (now : Instant) :
    (c.get key now).2.Inv := by
  have hl := get_linked h.linked key now
  refine ⟨hl, ?_⟩
  rw [hl.len_eq, get_capacity]
  refine Nat.le_trans ?_ h.recency_bounded
  unfold get
  split
  · exact Nat.le_refl _
  · rename_i entry he
    split
    · exact List.length_filter_le _ _
    · have hmem : key ∈ c.recency :=
        (h.linked.mem_iff key).mpr (AList.lookup_isSome.mp (by rw [he]; rfl))
      have hr := recency_removeFromRecency h.linked.nodup key
      have hlen := List.length_erase_add_one hmem
      simp only [removeFromRecency] at hr
      simp only [markUsed, removeFromRecency, hr, List.length_append, List.length_singleton]
      omega

theorem insert_inv {c : JwksKeyCache} (h : c.Inv) (key : JwksKeyCacheKey) (jwk : Jwk)
    (now : Instant) : (c.insert key jwk now).Inv := by
  have hl := insert_linked h.linked key jwk now
  refine ⟨hl, ?_⟩
  rw [hl.len_eq, insert_capacity]
  unfold insert
  split
  · exact h.recency_bounded
  · obtain ⟨-, -, hrec, -⟩ := evictLruOutcome_spec (insertUnbounded_linked h.linked key jwk now)
    simp only [evictLru, hrec, List.length_drop, insertUnbounded_capacity]
    omega

abbrev CacheOp := Lru.Op JwksKeyCacheKey Jwk

def apply (self : JwksKeyCache) : CacheOp → JwksKeyCache
  | .get key now => (self.get key now).2
  | .insert key jwk now => self.insert key jwk now

def run (self : JwksKeyCache) (ops : List CacheOp) : JwksKeyCache := ops.foldl apply self

theorem apply_inv {c : JwksKeyCache} (h : c.Inv) (op : CacheOp) : (c.apply op).Inv := by
  cases op with
  | get key now => exact get_inv h key now
  | insert key jwk now => exact insert_inv h key jwk now

theorem run_inv {c : JwksKeyCache} (h : c.Inv) (ops : List CacheOp) : (c.run ops).Inv := by
  induction ops generalizing c with
  | nil => exact h
  | cons op ops ih => exact ih (apply_inv h op)

theorem run_capacity (c : JwksKeyCache) (ops : List CacheOp) :
    (c.run ops).capacity = c.capacity := by
  induction ops generalizing c with
  | nil => rfl
  | cons op ops ih =>
    refine (ih (c.apply op)).trans ?_
    cases op with
    | get key now => exact get_capacity c key now
    | insert key jwk now => exact insert_capacity c key jwk now

/-- **The representation invariant.** After any operations, with any clock values, the queue is
duplicate-free and lists exactly the keys held, at most `capacity` of them; and an insertion from
there runs its `evict_lru` loop without the `break`, popping at most one key. -/
theorem run_representation (capacity : Nat) (ttl : Duration) (ops : List CacheOp) :
    let c := (new capacity ttl).run ops
    c.recency.Nodup ∧ (∀ key, key ∈ c.recency ↔ key ∈ c.entries) ∧ len c.entries ≤ capacity ∧
      ∀ key jwk now, (c.insertUnbounded key jwk now).evictLruOutcome.broke = false ∧
        (c.insertUnbounded key jwk now).evictLruOutcome.popped.length ≤ 1 := by
  intro c
  have hinv : c.Inv := run_inv (new_inv capacity ttl) ops
  have hcap : c.capacity = capacity := run_capacity _ ops
  refine ⟨hinv.linked.nodup, hinv.linked.mem_iff, hcap ▸ hinv.bounded, ?_⟩
  intro key jwk now
  obtain ⟨hbroke, hpopped, -, -⟩ :=
    evictLruOutcome_spec (insertUnbounded_linked hinv.linked key jwk now)
  have hover := insertUnbounded_overrun hinv key jwk now
  refine ⟨hbroke, ?_⟩
  rw [hpopped, List.length_take, insertUnbounded_capacity]
  omega

end JwksKeyCache

end Authzoo
