import Mathlib.Data.Finset.Card
import Mathlib.Data.Finset.Dedup
import Mathlib.Data.List.Nodup

/-!
# Authzoo.Lib.Lru

A least-recently-used cache with expiry, as one ordered list of slots, and what it answers in
terms of the history of operations alone.

* `latestInsert`, `rivals`, `CrowdedOut` read a history (newest event first): the last value
  written under a key, the keys used since a key's last use, and whether some later insertion
  found `cap` of those unexpired.
* `Tracks` ties a cache to its history; `step_tracks` keeps it over one operation.
* `get_iff` is the characterisation of a hit that `Tracks` yields.
-/

namespace Lru

variable {K V : Type} [DecidableEq K]

/-! ## Histories -/

inductive Event (K V : Type) where
  | insert (key : K) (value : V) (now : Nat)
  | get (key : K) (now : Nat) (result : Option V)

namespace Event

def time : Event K V → Nat
  | .insert _ _ now => now
  | .get _ now _ => now

/-- The key an event uses: the one it inserts, or the one it finds. -/
def uses : Event K V → Option K
  | .insert key _ _ => some key
  | .get key _ (some _) => some key
  | .get _ _ none => none

end Event

/-- The value and time of the newest insertion of a key. -/
def latestInsert (key : K) : List (Event K V) → Option (V × Nat)
  | [] => none
  | .insert k v t :: h => if k = key then some (v, t) else latestInsert key h
  | .get _ _ _ :: h => latestInsert key h

def Live (ttl now : Nat) (h : List (Event K V)) (key : K) : Prop :=
  ∃ v t, latestInsert key h = some (v, t) ∧ now < t + ttl

instance (ttl now : Nat) (h : List (Event K V)) (key : K) : Decidable (Live ttl now h key) :=
  match e : latestInsert key h with
  | none => isFalse fun ⟨_, _, he, _⟩ => by rw [e] at he; cases he
  | some (v, t) =>
    if ht : now < t + ttl then isTrue ⟨v, t, e, ht⟩
    else isFalse fun ⟨_, _, he, hlt⟩ => by rw [e] at he; cases he; exact ht hlt

/-- The keys used since the last use of `key`. -/
def rivals (key : K) (h : List (Event K V)) : List K :=
  (h.takeWhile fun e => e.uses ≠ some key).filterMap Event.uses

/-- The distinct unexpired keys among the rivals of `key`. -/
def crowd (ttl now : Nat) (key : K) (h : List (Event K V)) : Finset K :=
  (rivals key h).toFinset.filter (Live ttl now h)

/-- Some insertion since the last use of `key` found at least `cap` other keys that were used
since that use and are unexpired. -/
def CrowdedOut (cap ttl : Nat) (key : K) (h : List (Event K V)) : Prop :=
  ∃ later k v now earlier, h = later ++ .insert k v now :: earlier ∧
    (∀ e ∈ later ++ [.insert k v now], e.uses ≠ some key) ∧
    cap ≤ (crowd ttl now key (.insert k v now :: earlier)).card

theorem rivals_cons (key : K) (e : Event K V) (h : List (Event K V)) :
    rivals key (e :: h) = if e.uses = some key then [] else e.uses.toList ++ rivals key h := by
  unfold rivals
  by_cases he : e.uses = some key
  · simp [he]
  · cases hu : e.uses with
    | none => simp [hu]
    | some k =>
      have hk : k ≠ key := fun hk => he (by rw [hu, hk])
      simp [hu, hk]

theorem mem_rivals_cons {key k : K} {e : Event K V} {h : List (Event K V)} :
    k ∈ rivals key (e :: h) ↔ e.uses ≠ some key ∧ (e.uses = some k ∨ k ∈ rivals key h) := by
  rw [rivals_cons]
  by_cases he : e.uses = some key
  · simp [he]
  · simp [he]

theorem rivals_irrefl (key : K) (h : List (Event K V)) : key ∉ rivals key h := by
  induction h with
  | nil => simp [rivals]
  | cons e h ih =>
    rw [mem_rivals_cons]
    rintro ⟨hne, he | hmem⟩
    · exact hne he
    · exact ih hmem

/-- Of two keys, only one was used since the other's last use. -/
theorem rivals_asymm {a b : K} {h : List (Event K V)} (hb : b ∈ rivals a h) : a ∉ rivals b h := by
  induction h with
  | nil => simp [rivals] at hb
  | cons e h ih =>
    rw [mem_rivals_cons] at hb ⊢
    obtain ⟨hna, hb⟩ := hb
    rintro ⟨hnb, ha⟩
    rcases hb with hb | hb
    · exact hnb hb
    · rcases ha with ha | ha
      · exact hna ha
      · exact ih hb ha

theorem rivals_subset {a b : K} {h : List (Event K V)} (hb : b ∈ rivals a h) :
    ∀ k ∈ rivals b h, k ∈ rivals a h := by
  induction h with
  | nil => simp [rivals] at hb
  | cons e h ih =>
    intro k hk
    rw [mem_rivals_cons] at hb hk ⊢
    obtain ⟨hna, hb⟩ := hb
    obtain ⟨hnb, hk⟩ := hk
    refine ⟨hna, ?_⟩
    rcases hb with hb | hb
    · exact absurd hb hnb
    · exact hk.imp_right (ih hb k)

theorem crowd_subset {ttl now : Nat} {a b : K} {h : List (Event K V)} (hb : b ∈ rivals a h) :
    crowd ttl now b h ⊆ crowd ttl now a h := by
  intro k hk
  simp only [crowd, Finset.mem_filter, List.mem_toFinset] at hk ⊢
  exact ⟨rivals_subset hb k hk.1, hk.2⟩

section CrowdedOut

variable {cap ttl : Nat} {key : K} {h : List (Event K V)}

theorem not_crowdedOut_of_uses {e : Event K V} (he : e.uses = some key) :
    ¬ CrowdedOut cap ttl key (e :: h) := by
  rintro ⟨later, k, v, now, earlier, hh, hno, -⟩
  cases later with
  | nil =>
    simp only [List.nil_append, List.cons.injEq] at hh
    exact hno _ (by simp) (hh.1 ▸ he)
  | cons e' later =>
    simp only [List.cons_append, List.cons.injEq] at hh
    exact hno e' (by simp) (hh.1 ▸ he)

theorem crowdedOut_get_iff {k : K} {now : Nat} {result : Option V}
    (hne : (Event.get k now result).uses ≠ some key) :
    CrowdedOut cap ttl key (.get k now result :: h) ↔ CrowdedOut cap ttl key h := by
  constructor
  · rintro ⟨later, k', v, now', earlier, hh, hno, hcap⟩
    cases later with
    | nil => simp at hh
    | cons e later =>
      simp only [List.cons_append, List.cons.injEq] at hh
      exact ⟨later, k', v, now', earlier, hh.2, fun e he => hno e (by simp_all), hcap⟩
  · rintro ⟨later, k', v, now', earlier, hh, hno, hcap⟩
    refine ⟨.get k now result :: later, k', v, now', earlier, by rw [hh]; rfl, ?_, hcap⟩
    intro e he
    rcases List.mem_cons.mp he with rfl | he
    · exact hne
    · exact hno e he

theorem crowdedOut_insert_iff {k : K} {v : V} {now : Nat} (hne : k ≠ key) :
    CrowdedOut cap ttl key (.insert k v now :: h) ↔
      cap ≤ (crowd ttl now key (.insert k v now :: h)).card ∨ CrowdedOut cap ttl key h := by
  constructor
  · rintro ⟨later, k', v', now', earlier, hh, hno, hcap⟩
    cases later with
    | nil =>
      simp only [List.nil_append, List.cons.injEq] at hh
      obtain ⟨he, rfl⟩ := hh
      cases he
      exact .inl hcap
    | cons e later =>
      simp only [List.cons_append, List.cons.injEq] at hh
      exact .inr ⟨later, k', v', now', earlier, hh.2, fun e he => hno e (by simp_all), hcap⟩
  · have hu : (Event.insert k v now).uses ≠ some key := by
      simpa [Event.uses] using hne
    rintro (hcap | ⟨later, k', v', now', earlier, hh, hno, hcap⟩)
    · exact ⟨[], k, v, now, h, rfl, by simpa using hu, hcap⟩
    · refine ⟨.insert k v now :: later, k', v', now', earlier, by rw [hh]; rfl, ?_, hcap⟩
      intro e he
      rcases List.mem_cons.mp he with rfl | he
      · exact hu
      · exact hno e he

/-- A key used after `key` is crowded out only if `key` is. -/
theorem crowdedOut_of_rival {k : K} (hk : k ∈ rivals key h) (hc : CrowdedOut cap ttl k h) :
    CrowdedOut cap ttl key h := by
  induction h with
  | nil => simp [rivals] at hk
  | cons e h ih =>
    have hk' := mem_rivals_cons.mp hk
    obtain ⟨hne, hu | hkh⟩ := hk'
    · exact absurd hc (not_crowdedOut_of_uses hu)
    · by_cases hu : e.uses = some k
      · exact absurd hc (not_crowdedOut_of_uses hu)
      · cases e with
        | insert k0 v now =>
          have h0 : k0 ≠ k := by simpa [Event.uses] using hu
          have h1 : k0 ≠ key := by simpa [Event.uses] using hne
          rw [crowdedOut_insert_iff h1]
          rcases (crowdedOut_insert_iff h0).mp hc with hcap | hc
          · exact .inl (hcap.trans (Finset.card_le_card (crowd_subset hk)))
          · exact .inr (ih hkh hc)
        | get k0 now result =>
          rw [crowdedOut_get_iff hne]
          exact ih hkh ((crowdedOut_get_iff hu).mp hc)

/-- Being crowded out takes `cap` distinct rivals. -/
theorem card_rivals_of_crowdedOut (hc : CrowdedOut cap ttl key h) :
    cap ≤ (rivals key h).toFinset.card := by
  obtain ⟨later, k, v, now, earlier, rfl, hno, hcap⟩ := hc
  refine hcap.trans (Finset.card_le_card ?_)
  intro x hx
  simp only [crowd, Finset.mem_filter, List.mem_toFinset] at hx ⊢
  have hlater : ∀ e ∈ later, e.uses ≠ some key := fun e he => hno e (by simp [he])
  clear hcap hno
  induction later with
  | nil => exact hx.1
  | cons e later ih =>
    exact mem_rivals_cons.mpr ⟨hlater e (by simp), .inr (ih fun e he => hlater e (by simp [he]))⟩

end CrowdedOut

/-! ## The cache -/

structure Slot (K V : Type) where
  key : K
  value : V
  expiry : Nat

/-- Slots with distinct keys, least recently used first. -/
structure Cache (K V : Type) where
  slots : List (Slot K V)
  nodup : (slots.map Slot.key).Nodup

namespace Cache

omit [DecidableEq K] in
@[ext] theorem ext {c d : Cache K V} (h : c.slots = d.slots) : c = d := by
  cases c; cases d; cases h; rfl

def empty : Cache K V := ⟨[], by simp⟩

/-- The slots that satisfy a condition, in their order. -/
def keep (c : Cache K V) (p : Slot K V → Bool) : Cache K V :=
  ⟨c.slots.filter p, c.nodup.sublist (List.filter_sublist.map _)⟩

def without (c : Cache K V) (key : K) : Cache K V := c.keep fun s => s.key ≠ key

/-- Make `s` the most recently used slot, in place of any slot with its key. -/
def use (c : Cache K V) (s : Slot K V) : Cache K V :=
  ⟨(c.without s.key).slots ++ [s], by
    rw [List.map_append, List.nodup_append]
    refine ⟨(c.without s.key).nodup, by simp, ?_⟩
    intro a ha b hb
    simp only [without, keep, List.mem_map, List.mem_filter, List.mem_singleton,
      List.map_cons, List.map_nil] at ha hb
    obtain ⟨t, ⟨-, ht⟩, rfl⟩ := ha
    subst hb
    simpa using ht⟩

def last (c : Cache K V) (cap : Nat) : Cache K V :=
  ⟨c.slots.drop (c.slots.length - cap), c.nodup.sublist ((List.drop_sublist _ _).map _)⟩

def get (c : Cache K V) (key : K) (now : Nat) : Option V × Cache K V :=
  match c.slots.find? fun s => s.key = key with
  | none => (none, c)
  | some s => if s.expiry ≤ now then (none, c.without key) else (some s.value, c.use s)

def insert (cap ttl : Nat) (c : Cache K V) (key : K) (value : V) (now : Nat) : Cache K V :=
  if cap = 0 then c else ((c.use ⟨key, value, now + ttl⟩).keep fun s => now < s.expiry).last cap

theorem mem_without {c : Cache K V} {key : K} {s : Slot K V} :
    s ∈ (c.without key).slots ↔ s ∈ c.slots ∧ s.key ≠ key := by
  simp [without, keep, List.mem_filter]

theorem mem_use {c : Cache K V} {s t : Slot K V} :
    t ∈ (c.use s).slots ↔ (t ∈ c.slots ∧ t.key ≠ s.key) ∨ t = s := by
  simp only [use, List.mem_append, List.mem_singleton, mem_without]

omit [DecidableEq K] in
/-- The slots that `last` retains are those with fewer than `cap` slots behind them. -/
theorem mem_last {c : Cache K V} {cap : Nat} {s : Slot K V} :
    s ∈ (c.last cap).slots ↔
      ∃ before behind, c.slots = before ++ s :: behind ∧ behind.length < cap := by
  simp only [last]
  constructor
  · intro h
    obtain ⟨a, b, hab⟩ := List.append_of_mem h
    refine ⟨c.slots.take (c.slots.length - cap) ++ a, b, ?_, ?_⟩
    · rw [List.append_assoc, ← hab, List.take_append_drop]
    · have hl := congrArg List.length hab
      simp only [List.length_drop, List.length_append, List.length_cons] at hl
      omega
  · rintro ⟨a, b, hab, hlt⟩
    rw [hab, List.drop_append_of_le_length]
    · simp
    · simp only [List.length_append, List.length_cons]
      omega

/-- A slot that does not expire at once is held when it has been inserted. -/
theorem mem_insert {cap ttl : Nat} (hcap : 0 < cap) (httl : 0 < ttl) (c : Cache K V) (key : K)
    (value : V) (now : Nat) : ⟨key, value, now + ttl⟩ ∈ (c.insert cap ttl key value now).slots := by
  have hlive : now < now + ttl := by omega
  rw [insert, if_neg (by omega), mem_last]
  refine ⟨(c.without key).slots.filter fun s => now < s.expiry, [], ?_, hcap⟩
  simp [keep, use, hlive]

end Cache

/-! ## A cache and its history -/

inductive Op (K V : Type) where
  | get (key : K) (now : Nat)
  | insert (key : K) (value : V) (now : Nat)

def Op.time : Op K V → Nat
  | .get _ now => now
  | .insert _ _ now => now

def step (cap ttl : Nat) (σ : Cache K V × List (Event K V)) : Op K V →
    Cache K V × List (Event K V)
  | .get key now => ((σ.1.get key now).2, .get key now (σ.1.get key now).1 :: σ.2)
  | .insert key value now => (σ.1.insert cap ttl key value now, .insert key value now :: σ.2)

def run (cap ttl : Nat) (σ : Cache K V × List (Event K V)) (ops : List (Op K V)) :
    Cache K V × List (Event K V) :=
  ops.foldl (step cap ttl) σ

/-- What the slots of a cache say about the history that led to it, at time `now`. -/
structure Tracks (cap ttl now : Nat) (c : Cache K V) (h : List (Event K V)) : Prop where
  value : ∀ s ∈ c.slots, ∃ t, latestInsert s.key h = some (s.value, t) ∧ s.expiry = t + ttl
  order : c.slots.Pairwise fun a b => b.key ∈ rivals a.key h
  kept : ∀ s ∈ c.slots, ¬ CrowdedOut cap ttl s.key h
  present : ∀ key, Live ttl now h key → ¬ CrowdedOut cap ttl key h → ∃ s ∈ c.slots, s.key = key

section Tracks

variable {cap ttl now : Nat} {c : Cache K V} {h : List (Event K V)}

theorem empty_tracks (cap ttl now : Nat) : Tracks cap ttl now (Cache.empty (K := K) (V := V)) [] where
  value := by simp [Cache.empty]
  order := by simp [Cache.empty]
  kept := by simp [Cache.empty]
  present := by
    rintro key ⟨v, t, he, -⟩
    cases he

theorem Live.mono {now' : Nat} {key : K} (hle : now ≤ now') (hl : Live ttl now' h key) :
    Live ttl now h key := by
  obtain ⟨v, t, he, hlt⟩ := hl
  exact ⟨v, t, he, by omega⟩

theorem latestInsert_get (key k : K) (now : Nat) (result : Option V) (h : List (Event K V)) :
    latestInsert key (.get k now result :: h) = latestInsert key h := rfl

theorem live_insert_of_ne {key k : K} {v : V} {now now' : Nat} (hne : k ≠ key) :
    Live ttl now' (.insert k v now :: h) key ↔ Live ttl now' h key := by
  simp [Live, latestInsert, hne]

/-- Using a slot's key moves it behind all others in the order of last use. -/
theorem Tracks.order_use (ht : Tracks cap ttl now c h) {e : Event K V} {s : Slot K V}
    (he : e.uses = some s.key) :
    (c.use s).slots.Pairwise fun a b => b.key ∈ rivals a.key (e :: h) := by
  have hne : ∀ a ∈ (c.without s.key).slots, e.uses ≠ some a.key := by
    intro a ha hu
    rw [he, Option.some.injEq] at hu
    exact (Cache.mem_without.mp ha).2 hu.symm
  refine List.pairwise_append.mpr ⟨?_, by simp, ?_⟩
  · have hold : (c.without s.key).slots.Pairwise fun a b => b.key ∈ rivals a.key h :=
      ht.order.sublist List.filter_sublist
    refine hold.imp_of_mem ?_
    intro a b ha _ hab
    exact mem_rivals_cons.mpr ⟨hne a ha, .inr hab⟩
  · intro a ha b hb
    rw [List.mem_singleton] at hb
    subst hb
    exact mem_rivals_cons.mpr ⟨hne a ha, .inl he⟩

theorem get_tracks (ht : Tracks cap ttl now c h) {now' : Nat} (hle : now ≤ now') (key : K) :
    Tracks cap ttl now' (c.get key now').2 (.get key now' (c.get key now').1 :: h) := by
  unfold Cache.get
  split
  · -- no slot: the history gains an event that uses nothing
    refine ⟨ht.value, ?_, ?_, ?_⟩
    · exact ht.order.imp fun hab => mem_rivals_cons.mpr ⟨by simp [Event.uses], .inr hab⟩
    · intro s hs
      rw [crowdedOut_get_iff (by simp [Event.uses])]
      exact ht.kept s hs
    · intro k hl hc
      rw [crowdedOut_get_iff (by simp [Event.uses])] at hc
      exact ht.present k (Live.mono hle hl) hc
  · rename_i s hfind
    have hs : s ∈ c.slots := List.mem_of_find?_eq_some hfind
    have hkey : s.key = key := by simpa using List.find?_some hfind
    split
    · -- an expired slot: dropped, and nothing is used
      rename_i hexp
      refine ⟨?_, ?_, ?_, ?_⟩
      · intro t hmem
        exact ht.value t (Cache.mem_without.mp hmem).1
      · refine List.Pairwise.sublist List.filter_sublist (ht.order.imp ?_)
        exact fun hab => mem_rivals_cons.mpr ⟨by simp [Event.uses], .inr hab⟩
      · intro t hmem
        rw [crowdedOut_get_iff (by simp [Event.uses])]
        exact ht.kept t (Cache.mem_without.mp hmem).1
      · intro k hl hc
        rw [crowdedOut_get_iff (by simp [Event.uses])] at hc
        obtain ⟨t, hmem, rfl⟩ := ht.present k (Live.mono hle hl) hc
        refine ⟨t, Cache.mem_without.mpr ⟨hmem, ?_⟩, rfl⟩
        intro hk
        obtain ⟨v, t0, he, hlt⟩ := hl
        obtain ⟨t1, hv, hx⟩ := ht.value s hs
        rw [latestInsert_get, hk, ← hkey, hv, Option.some.injEq, Prod.mk.injEq] at he
        omega
    · -- a hit: the slot becomes the most recently used
      have hu : (Event.get key now' (some s.value)).uses = some s.key := by simp [Event.uses, hkey]
      have hmem : ∀ t ∈ (c.use s).slots, t ∈ c.slots := by
        intro t hmem
        rcases Cache.mem_use.mp hmem with ⟨hmem, -⟩ | rfl
        · exact hmem
        · exact hs
      refine ⟨fun t hin => ht.value t (hmem t hin), ht.order_use hu, ?_, ?_⟩
      · intro t hin
        by_cases hk : t.key = s.key
        · exact not_crowdedOut_of_uses (by rw [hu, hk])
        · rw [crowdedOut_get_iff (by rw [hu]; simpa using fun e => hk e.symm)]
          exact ht.kept t (hmem t hin)
      · intro k hl hc
        by_cases hk : s.key = k
        · exact ⟨s, Cache.mem_use.mpr (.inr rfl), hk⟩
        · rw [crowdedOut_get_iff (by rw [hu]; simpa using hk)] at hc
          obtain ⟨t, hin, rfl⟩ := ht.present k (Live.mono hle hl) hc
          exact ⟨t, Cache.mem_use.mpr (.inl ⟨hin, fun e => hk e.symm⟩), rfl⟩

/-- Before `last`: the slots an insertion leaves, tracked by the lengthened history except for the
insertion's own crowding. -/
theorem insert_order (ht : Tracks cap ttl now c h) (key : K) (v : V) (now' : Nat) :
    ((c.use ⟨key, v, now' + ttl⟩).keep fun s => now' < s.expiry).slots.Pairwise
      fun a b => b.key ∈ rivals a.key (.insert key v now' :: h) :=
  (ht.order_use (s := ⟨key, v, now' + ttl⟩) rfl).sublist List.filter_sublist

theorem insert_value (ht : Tracks cap ttl now c h) {key : K} {v : V} {now' : Nat} {s : Slot K V}
    (hs : s ∈ (c.use ⟨key, v, now' + ttl⟩).slots) :
    ∃ t, latestInsert s.key (.insert key v now' :: h) = some (s.value, t) ∧ s.expiry = t + ttl := by
  rcases Cache.mem_use.mp hs with ⟨hs, hne⟩ | rfl
  · obtain ⟨t, hv, hx⟩ := ht.value s hs
    refine ⟨t, ?_, hx⟩
    simp only [latestInsert, if_neg (fun e : key = s.key => hne e.symm), hv]
  · exact ⟨now', by simp [latestInsert], rfl⟩

/-- An unexpired rival of a slot is itself in a slot: it cannot have been crowded out first. -/
theorem rival_present (ht : Tracks cap ttl now c h) {s : Slot K V} (hs : s ∈ c.slots) {k : K}
    (hk : k ∈ rivals s.key h) (hl : Live ttl now h k) : ∃ t ∈ c.slots, t.key = k :=
  ht.present k hl fun hc => ht.kept s hs (crowdedOut_of_rival hk hc)

/-- The crowd of a slot at an insertion is exactly the keys of the slots behind it. -/
theorem insert_crowd (ht : Tracks cap ttl now c h) {key : K} {v : V} {now' : Nat}
    (hle : now ≤ now') {s : Slot K V} {before behind : List (Slot K V)}
    (hsplit : ((c.use ⟨key, v, now' + ttl⟩).keep fun s => now' < s.expiry).slots =
      before ++ s :: behind) (hne : s.key ≠ key) :
    crowd ttl now' s.key (.insert key v now' :: h) = (behind.map Slot.key).toFinset := by
  have hord := insert_order ht key v now'
  rw [hsplit, List.pairwise_append, List.pairwise_cons] at hord
  obtain ⟨-, ⟨hbehind, -⟩, hbefore⟩ := hord
  have hmem : ∀ t, t ∈ before ++ s :: behind ↔
      t ∈ (c.use ⟨key, v, now' + ttl⟩).slots ∧ now' < t.expiry := by
    intro t
    rw [← hsplit]
    simp [Cache.keep]
  have hs : s ∈ c.slots := by
    rcases Cache.mem_use.mp ((hmem s).mp (by simp)).1 with ⟨hs, -⟩ | rfl
    · exact hs
    · exact absurd rfl hne
  ext k
  simp only [crowd, Finset.mem_filter, List.mem_toFinset, List.mem_map]
  constructor
  · rintro ⟨hr, hl⟩
    -- the rival's slot is kept, and it cannot stand before `s` in the order of last use
    have hslot : ∃ t, t ∈ before ++ s :: behind ∧ t.key = k := by
      by_cases hk : key = k
      · obtain ⟨v', t, he, hlt⟩ := hl
        simp only [latestInsert, hk, if_true, Option.some.injEq, Prod.mk.injEq] at he
        refine ⟨⟨key, v, now' + ttl⟩, (hmem _).mpr ⟨Cache.mem_use.mpr (.inr rfl), ?_⟩, hk⟩
        simp only
        omega
      · have hrh : k ∈ rivals s.key h := by
          rcases (mem_rivals_cons.mp hr).2 with hu | hr
          · exact absurd (Option.some.inj hu) hk
          · exact hr
        rw [live_insert_of_ne hk] at hl
        obtain ⟨t, ht', rfl⟩ := rival_present ht hs hrh (Live.mono hle hl)
        refine ⟨t, (hmem t).mpr ⟨Cache.mem_use.mpr (.inl ⟨ht', fun e => hk e.symm⟩), ?_⟩, rfl⟩
        obtain ⟨v', t0, he, hlt⟩ := hl
        obtain ⟨t1, hv, hx⟩ := ht.value t ht'
        rw [hv, Option.some.injEq, Prod.mk.injEq] at he
        omega
    obtain ⟨t, ht', rfl⟩ := hslot
    refine ⟨t, ?_, rfl⟩
    rcases List.mem_append.mp ht' with ht' | ht'
    · exact absurd (hbefore t ht' s (by simp)) (rivals_asymm hr)
    · rcases List.mem_cons.mp ht' with rfl | ht'
      · exact absurd hr (rivals_irrefl _ _)
      · exact ht'
  · rintro ⟨t, ht', rfl⟩
    obtain ⟨huse, hexp⟩ := (hmem t).mp (by simp [ht'])
    obtain ⟨t0, hv, hx⟩ := insert_value ht huse
    exact ⟨hbehind t ht', t.value, t0, hv, by omega⟩

theorem insert_crowd_card (ht : Tracks cap ttl now c h) {key : K} {v : V} {now' : Nat}
    (hle : now ≤ now') {s : Slot K V} {before behind : List (Slot K V)}
    (hsplit : ((c.use ⟨key, v, now' + ttl⟩).keep fun s => now' < s.expiry).slots =
      before ++ s :: behind) (hne : s.key ≠ key) :
    (crowd ttl now' s.key (.insert key v now' :: h)).card = behind.length := by
  have hnodup := ((c.use ⟨key, v, now' + ttl⟩).keep fun s => now' < s.expiry).nodup
  rw [hsplit, List.map_append, List.nodup_append, List.map_cons, List.nodup_cons] at hnodup
  rw [insert_crowd ht hle hsplit hne, List.toFinset_card_of_nodup hnodup.2.1.2, List.length_map]

theorem insert_tracks (ht : Tracks cap ttl now c h) (hcap : 1 ≤ cap) {now' : Nat}
    (hle : now ≤ now') (key : K) (v : V) :
    Tracks cap ttl now' (c.insert cap ttl key v now') (.insert key v now' :: h) := by
  have hz : cap ≠ 0 := by omega
  simp only [Cache.insert, if_neg hz]
  refine ⟨?_, ?_, ?_, ?_⟩
  · intro s hs
    exact insert_value ht (List.mem_of_mem_filter (List.mem_of_mem_drop hs))
  · exact (insert_order ht key v now').sublist (List.drop_sublist _ _)
  · intro s hs
    obtain ⟨before, behind, hsplit, hlt⟩ := Cache.mem_last.mp hs
    by_cases hk : s.key = key
    · exact not_crowdedOut_of_uses (by rw [hk]; rfl)
    · rw [crowdedOut_insert_iff fun e => hk e.symm, insert_crowd_card ht hle hsplit hk]
      rintro (hge | hc)
      · omega
      · have hin := List.mem_of_mem_filter (List.mem_of_mem_drop hs)
        rcases Cache.mem_use.mp hin with ⟨hin, -⟩ | rfl
        · exact ht.kept s hin hc
        · exact hk rfl
  · intro k hl hc
    by_cases hk : key = k
    · -- the new slot stands last
      obtain ⟨v', t, he, hlt⟩ := hl
      simp only [latestInsert, hk, if_true, Option.some.injEq, Prod.mk.injEq] at he
      refine ⟨⟨key, v, now' + ttl⟩, Cache.mem_last.mpr
        ⟨(c.without key).slots.filter fun s => now' < s.expiry, [], ?_, hcap⟩, hk⟩
      have hlive : now' < now' + ttl := by omega
      simp only [Cache.keep, Cache.use, List.filter_append]
      rw [List.filter_cons_of_pos (by simpa using hlive), List.filter_nil]
    · rw [crowdedOut_insert_iff hk] at hc
      rw [live_insert_of_ne hk] at hl
      obtain ⟨s, hs, rfl⟩ := ht.present k (Live.mono hle hl) fun h' => hc (.inr h')
      have hin : s ∈ ((c.use ⟨key, v, now' + ttl⟩).keep fun s => now' < s.expiry).slots := by
        obtain ⟨v', t, he, hlt⟩ := hl
        obtain ⟨t1, hv, hx⟩ := ht.value s hs
        rw [hv, Option.some.injEq, Prod.mk.injEq] at he
        refine List.mem_filter.mpr ⟨Cache.mem_use.mpr (.inl ⟨hs, fun e => hk e.symm⟩), ?_⟩
        simp only [decide_eq_true_eq]
        omega
      obtain ⟨before, behind, hsplit⟩ := List.append_of_mem hin
      have hcard := insert_crowd_card ht hle hsplit fun e => hk e.symm
      refine ⟨s, Cache.mem_last.mpr ⟨before, behind, hsplit, ?_⟩, rfl⟩
      by_contra hge
      exact hc (.inl (by omega))

theorem step_tracks (ht : Tracks cap ttl now c h) (hcap : 1 ≤ cap) (op : Op K V)
    (hle : now ≤ op.time) :
    Tracks cap ttl op.time (step cap ttl (c, h) op).1 (step cap ttl (c, h) op).2 := by
  cases op with
  | get key now' => exact get_tracks ht hle key
  | insert key v now' => exact insert_tracks ht hcap hle key v

theorem run_tracks (hcap : 1 ≤ cap) {ops : List (Op K V)} :
    ∀ {now : Nat} {σ : Cache K V × List (Event K V)}, Tracks cap ttl now σ.1 σ.2 →
      (now :: ops.map Op.time).Pairwise (· ≤ ·) → ∀ now', (∀ op ∈ ops, op.time ≤ now') →
      now ≤ now' → Tracks cap ttl now' (run cap ttl σ ops).1 (run cap ttl σ ops).2 := by
  induction ops with
  | nil =>
    intro now σ ht _ now' _ hle
    exact ⟨ht.value, ht.order, ht.kept, fun k hl hc => ht.present k (Live.mono hle hl) hc⟩
  | cons op ops ih =>
    intro now σ ht hmono now' hops hle
    simp only [List.map_cons, List.pairwise_cons] at hmono
    have hop : now ≤ op.time := hmono.1 op.time (by simp)
    have hstep : Tracks cap ttl op.time (step cap ttl σ op).1 (step cap ttl σ op).2 :=
      step_tracks ht hcap op hop
    exact ih hstep (List.pairwise_cons.mpr hmono.2) now'
      (fun o ho => hops o (by simp [ho])) (hops op (by simp))

/-- A hit, from the history alone. -/
theorem get_iff (ht : Tracks cap ttl now c h) {now' : Nat} (hle : now ≤ now') (key : K) (v : V) :
    (c.get key now').1 = some v ↔
      (∃ t, latestInsert key h = some (v, t) ∧ now' < t + ttl) ∧ ¬ CrowdedOut cap ttl key h := by
  unfold Cache.get
  constructor
  · intro hget
    split at hget
    · cases hget
    · rename_i s hfind
      have hs : s ∈ c.slots := List.mem_of_find?_eq_some hfind
      have hkey : s.key = key := by simpa using List.find?_some hfind
      split at hget
      · cases hget
      · obtain ⟨t, hv, hx⟩ := ht.value s hs
        have hkept := ht.kept s hs
        rw [hkey] at hv hkept
        cases hget
        exact ⟨⟨t, hv, by omega⟩, hkept⟩
  · rintro ⟨⟨t, hv, hlt⟩, hc⟩
    obtain ⟨s, hs, hk⟩ := ht.present key ⟨v, t, hv, by omega⟩ hc
    split
    · rename_i hnone
      rw [List.find?_eq_none] at hnone
      exact absurd hk (by simpa using hnone s hs)
    · rename_i s' hfind
      have hs' : s' ∈ c.slots := List.mem_of_find?_eq_some hfind
      have hkey : s'.key = key := by simpa using List.find?_some hfind
      obtain ⟨t', hv', hx⟩ := ht.value s' hs'
      rw [hkey, hv, Option.some.injEq, Prod.mk.injEq] at hv'
      obtain ⟨rfl, rfl⟩ := hv'
      rw [if_neg (by omega)]

end Tracks

end Lru
