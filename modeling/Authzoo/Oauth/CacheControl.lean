import Authzoo.Lib.Ascii
import Authzoo.Lib.FieldList
import Authzoo.Oauth.Metadata

/-!
# Authzoo.Oauth.CacheControl

How long `resolve_metadata` keeps a client, against what its response allows. The directives are
those of all the lines of `Cache-Control` together (`Response.directives`); the code reads the first
line only, cut at every comma (`Response.parts`), and knows no argument of `no-cache`.

* `FirstLineTells` : the responses whose first line says what the whole field does.
* `Missed` : the kinds of responses whose directives, or age, the code does not see.
* `kept_iff` : what a fetch leaves in the cache, in terms of the lifetime that the code computes.
* `directives_honoured_iff` : for which responses the lifetime is within the directives.
-/

namespace Authzoo.Oauth

/-! ## What a response allows -/

/-- `no-store`, or `no-cache` with or without an argument. -/
def Forbids (directives : List FieldList.Directive) : Prop :=
  ∃ d ∈ directives, d = ⟨"no-store", none⟩ ∨ d.name = "no-cache"

def OnlyMaxAge (directives : List FieldList.Directive) (n : Nat) : Prop :=
  ∃ argument, directives.filter (·.name = "max-age") = [⟨"max-age", some argument⟩] ∧
    FieldList.IsSeconds argument n

def withoutSign : List Char → List Char
  | '+' :: digits => digits
  | digits => digits

/-- The number that `str::parse` reads where it fits. -/
def unsigned (s : String) : Option Nat :=
  let digits := withoutSign s.toList
  if digits ≠ [] ∧ digits.all Char.isDigit then some (Text.decimal digits) else none

namespace Response

/-- The lines of a field, one character for each byte. -/
def lines (r : Response) (name : String) : List (List Char) :=
  (r.headers.filter (·.1 = name)).map fun header => header.2.map fun b => .ofNat b.toNat

def directives (r : Response) : List FieldList.Directive :=
  FieldList.directives (FieldList.join (r.lines "cache-control"))

/-- The age in seconds, however large it is. -/
def declaredAge (r : Response) : Nat :=
  (((r.headers.lookup "age").bind headerText).bind unsigned).getD 0

end Response

/-- The directives allow at most `n` seconds. -/
def Asks (directives : List FieldList.Directive) (n : Nat) : Prop :=
  Forbids directives ∧ n = 0 ∨ OnlyMaxAge directives n

/-! ## When the first line tells -/

/-- The first line of `Cache-Control`, if it is a text. -/
def Response.firstLine (r : Response) : Option String :=
  (r.headers.lookup "cache-control").bind headerText

/-- Neither `no-store` nor `no-cache` without an argument. -/
def NoneBare (text : String) : Prop :=
  ∀ d ∈ FieldList.directives text.toList, d ≠ ⟨"no-store", none⟩ ∧ d ≠ ⟨"no-cache", none⟩

/-- The first line is a text without a comma in a quoted string, and it has a bare directive if the
field forbids the reuse, and the `max-age` if the field has a single one; the age is below 2^64. -/
structure FirstLineTells (r : Response) (text : String) : Prop where
  first : r.firstLine = some text
  plain : FieldList.cut false text.toList = text.toList.splitOn ','
  bare : Forbids r.directives → ∃ d ∈ FieldList.directives text.toList,
    d = ⟨"no-store", none⟩ ∨ d = ⟨"no-cache", none⟩
  single : ∀ n, OnlyMaxAge r.directives n → OnlyMaxAge (FieldList.directives text.toList) n
  age : r.declaredAge < 2 ^ 64

/-- The responses whose directives ask for less than the code grants: the first line is no text; it
has none of the directives that decide, or only a `no-cache` with an argument; a quoted string in it
reads as a `max-age`; or the age has no 64 bits. -/
inductive Missed (r : Response) : Prop where
  | unread {n : Nat} (hasks : Asks r.directives n) (hshort : max n r.declaredAge < 300)
      (hfirst : r.firstLine = none)
  | elsewhere {n : Nat} {text : String} (hasks : Asks r.directives n)
      (hshort : max n r.declaredAge < 300) (hfirst : r.firstLine = some text)
      (hplain : FieldList.cut false text.toList = text.toList.splitOn ',') (hbare : NoneBare text)
      (hnone : ∀ d ∈ FieldList.directives text.toList, d.name ≠ "max-age")
  | quoted {n m : Nat} {text : String} {before after : List (List Char)} {inside : List Char}
      (hasks : Asks r.directives n) (hshort : max n r.declaredAge < min m 300)
      (hfirst : r.firstLine = some text)
      (hparts : text.toList.splitOn ',' = before ++ inside :: after)
      (hread : maxAge (Text.trim (.ofList inside)) = some m)
      (hbefore : ∀ e ∈ before, maxAge (Text.trim (.ofList e)) = none)
      (hstops : ∀ e ∈ text.toList.splitOn ',', toAsciiLowercase (Text.trim (.ofList e)) ∉
        ["no-store", "no-cache"])
  | tooOld {n k : Nat} {text : String} (hasks : Asks r.directives k) (hage : 2 ^ 64 ≤ r.declaredAge)
      (hfirst : r.firstLine = some text)
      (hplain : FieldList.cut false text.toList = text.toList.splitOn ',') (hbare : NoneBare text)
      (honly : OnlyMaxAge (FieldList.directives text.toList) n) (hpos : 0 < n) (hfits : n < 2 ^ 64)

/-! ## What a fetch may leave -/

/-- A response with a client came from the network. -/
def Fetched (U : UrlCrate) (fromSlice : List UInt8 → Option Json) (net : Network) (clock : Readings)
    (cache : MetadataCache) (id : String) (response : Response) (client : Client) : Prop :=
  ∃ url request, metadataUrl U id = .ok url ∧ cache.fresh id clock.lookup = none ∧
    prepare net url = .ok request ∧ (net.send request).received = .ok response ∧
    response.client U fromSlice id = .ok client

/-- Whatever is new in the cache is the client under its identifier, for at most `n` seconds less the
age and at most 300 seconds less the age. -/
def Kept (r : Response) (n : Nat) (id : String) (now : Instant) (before after : MetadataCache) :
    Prop :=
  ∀ key entry, after.lookup key = some entry → before.lookup key = some entry ∨
    key = id ∧ r.declaredAge < min n 300 ∧
      entry.1 ≤ now + Duration.fromSecs (min n 300 - r.declaredAge)

/-- The directives are honoured. -/
structure Honours (r : Response) (id : String) (now : Instant) (before after : MetadataCache) :
    Prop where
  forbidden : Forbids r.directives →
    ∀ key entry, after.lookup key = some entry → before.lookup key = some entry
  limited : ∀ n, OnlyMaxAge r.directives n → Kept r n id now before after

/-! ## What the code reads -/

namespace Response

def parts (r : Response) : List String :=
  (r.cacheControl.toList.splitOn ',').map fun d => Text.trim (.ofList d)

/-- A part of the first line is `no-store` or `no-cache`. -/
def Stops (r : Response) : Prop :=
  ∃ part ∈ r.parts, toAsciiLowercase part = "no-store" ∨ toAsciiLowercase part = "no-cache"

/-- The first part that reads as a `max-age` reads as at most `n` seconds. -/
def Leads (r : Response) (n : Nat) : Prop :=
  ∃ before part after m, r.parts = before ++ part :: after ∧ (∀ x ∈ before, maxAge x = none) ∧
    maxAge part = some m ∧ m ≤ n

/-- The largest lifetime before the subtraction of the age that leaves at most `n` seconds; an age
of 2^64 seconds or more is not subtracted. -/
def allowed (r : Response) (n : Nat) : Nat :=
  if r.declaredAge < 2 ^ 64 then max n r.declaredAge else 0

/-- What the code reads of the response is as strict as each of its directives. -/
def ReadsEnough (r : Response) : Prop :=
  r.Stops ∨ ∀ n, Asks r.directives n → 300 ≤ r.allowed n ∨ r.Leads (r.allowed n)

end Response

theorem fromSecs_le {m n : Nat} : Duration.fromSecs m ≤ Duration.fromSecs n ↔ m ≤ n :=
  Nat.mul_le_mul_right_iff (by decide)

/-- The first part that reads as a `max-age` decides. -/
theorem leads_iff {r : Response} {before after : List String} {part : String} {m n : Nat}
    (hparts : r.parts = before ++ part :: after) (hbefore : ∀ x ∈ before, maxAge x = none)
    (hm : maxAge part = some m) : r.Leads n ↔ m ≤ n := by
  constructor
  · rintro ⟨before', part', after', m', hparts', hbefore', hm', hle⟩
    have hfirst := List.findSome?_eq_some_iff.mpr ⟨before, part, after, hparts, hm, hbefore⟩
    have hfirst' := List.findSome?_eq_some_iff.mpr ⟨before', part', after', hparts', hm', hbefore'⟩
    rw [hfirst, Option.some.injEq] at hfirst'
    omega
  · intro hle
    exact ⟨before, part, after, m, hparts, hbefore, hm, hle⟩

theorem cacheTtl_le_iff (r : Response) (n : Nat) :
    cacheTtl r.cacheControl ≤ .fromSecs n ↔ r.Stops ∨ 300 ≤ n ∨ r.Leads n := by
  have hfind : cacheTtl r.cacheControl = if r.parts.any (fun d =>
      toAsciiLowercase d = "no-store" || toAsciiLowercase d = "no-cache") then 0
      else .fromSecs (min ((r.parts.findSome? maxAge).getD 300) 300) := rfl
  have hstops : r.parts.any (fun d =>
      toAsciiLowercase d = "no-store" || toAsciiLowercase d = "no-cache") = true ↔ r.Stops := by
    simp [Response.Stops]
  rw [hfind]
  by_cases hs : r.Stops
  · simp [hstops.mpr hs, hs]
  · rw [if_neg (fun h => hs (hstops.mp h)), fromSecs_le]
    cases hf : r.parts.findSome? maxAge with
    | none =>
      have hno : ¬ r.Leads n := by
        rintro ⟨before, part, after, m, hparts, -, hm, -⟩
        have hnone := List.findSome?_eq_none_iff.mp hf part (by rw [hparts]; simp)
        rw [hm] at hnone
        cases hnone
      simp [hs, hno]
    | some m =>
      obtain ⟨before, part, after, hparts, hm, hbefore⟩ := List.findSome?_eq_some_iff.mp hf
      simp only [Option.getD_some, hs, leads_iff hparts hbefore hm, false_or]
      omega

theorem cacheTtl_secs (header : String) : ∃ s ≤ 300, cacheTtl header = .fromSecs s := by
  simp only [cacheTtl]
  split
  · exact ⟨0, Nat.zero_le _, rfl⟩
  · exact ⟨_, Nat.min_le_right _ _, rfl⟩

theorem parseU64_eq (s : String) : parseU64 s = (unsigned s).filter (· < 2 ^ 64) := by
  have hparse : parseU64 s = if withoutSign s.toList ≠ [] ∧ (withoutSign s.toList).all Char.isDigit ∧
      Text.decimal (withoutSign s.toList) < 2 ^ 64 then some (Text.decimal (withoutSign s.toList))
      else none := rfl
  rw [hparse, unsigned]
  by_cases hform : withoutSign s.toList ≠ [] ∧ (withoutSign s.toList).all Char.isDigit = true
  · by_cases hfits : Text.decimal (withoutSign s.toList) < 2 ^ 64
    · rw [if_pos ⟨hform.1, hform.2, hfits⟩, if_pos hform, Option.filter_some,
        if_pos (by simpa using hfits)]
    · rw [if_neg (fun h => hfits h.2.2), if_pos hform, Option.filter_some,
        if_neg (by simpa using hfits)]
  · rw [if_neg (fun h => hform ⟨h.1, h.2.1⟩), if_neg hform, Option.filter_none]

theorem age_eq (r : Response) : r.age = if r.declaredAge < 2 ^ 64 then r.declaredAge else 0 := by
  have hsome : ∀ text : Option String, (text.bind parseU64).getD 0 =
      if (text.bind unsigned).getD 0 < 2 ^ 64 then (text.bind unsigned).getD 0 else 0 := by
    intro text
    cases text with
    | none => rfl
    | some text =>
      simp only [Option.bind_some, parseU64_eq]
      cases unsigned text with
      | none => rfl
      | some n =>
        rw [Option.filter_some, Option.getD_some]
        by_cases hn : n < 2 ^ 64
        · rw [if_pos (decide_eq_true hn), if_pos hn, Option.getD_some]
        · rw [if_neg (by simpa using hn), if_neg hn, Option.getD_none]
  exact hsome _

theorem ttl_le_iff (r : Response) (n : Nat) :
    r.ttl ≤ .fromSecs (min n 300 - r.declaredAge) ↔ r.Stops ∨ 300 ≤ r.allowed n ∨
      r.Leads (r.allowed n) := by
  obtain ⟨s, hs, hsecs⟩ := cacheTtl_secs r.cacheControl
  rw [← cacheTtl_le_iff, Response.ttl, hsecs, fromSecs_le, Duration.fromSecs, Duration.fromSecs,
    ← Nat.sub_mul, ← Duration.fromSecs, fromSecs_le, age_eq, Response.allowed]
  split <;> omega

/-! ## What a fetch leaves in the cache -/

section

variable {U : UrlCrate} {fromSlice : List UInt8 → Option Json} {net : Network} {clock : Readings}
  {cache : MetadataCache} {id : String} {response : Response} {client : Client}

theorem Fetched.cache_eq (h : Fetched U fromSlice net clock cache id response client) :
    (resolveMetadata U fromSlice net clock cache id).cache =
      if response.ttl = 0 then cache
      else cache.store id client response.ttl clock.retain clock.insert := by
  obtain ⟨url, request, hurl, hfresh, hprepare, hsend, hclient⟩ := h
  simp only [resolveMetadata, hurl, hfresh, hprepare, hsend, hclient]
  split <;> rfl

/-- An entry that lives after the fetch can not have been there: the look-up would have found it. -/
theorem Fetched.expired (h : Fetched U fromSlice net clock cache id response client)
    {entry : Instant × Client} (hentry : cache.lookup id = some entry) : entry.1 ≤ clock.lookup := by
  obtain ⟨url, request, -, hfresh, -⟩ := h
  simp only [MetadataCache.fresh, hentry] at hfresh
  by_contra hlive
  rw [if_pos (Nat.lt_of_not_le hlive)] at hfresh
  cases hfresh

theorem kept_iff (h : Fetched U fromSlice net clock cache id response client)
    (hclock : clock.lookup ≤ clock.insert) (n : Nat) :
    Kept response n id clock.insert cache (resolveMetadata U fromSlice net clock cache id).cache ↔
      response.ttl ≤ .fromSecs (min n 300 - response.declaredAge) := by
  rw [h.cache_eq]
  by_cases hzero : response.ttl = 0
  · rw [if_pos hzero, hzero]
    exact ⟨fun _ => Nat.zero_le _, fun _ _ _ hentry => .inl hentry⟩
  · rw [if_neg hzero]
    constructor
    · intro hkept
      have hnew := hkept id (clock.insert + response.ttl, client)
        (by simp only [MetadataCache.store, AList.lookup_insert])
      rcases hnew with hold | ⟨-, -, hle⟩
      · have hlive : clock.lookup < clock.insert + response.ttl :=
          Nat.lt_of_le_of_lt hclock (Nat.lt_add_of_pos_right (Nat.pos_of_ne_zero hzero))
        exact absurd (h.expired hold) (Nat.not_le.mpr hlive)
      · exact Nat.le_of_add_le_add_left hle
    · intro hle key entry hentry
      rcases MetadataCache.store_lookup hentry with ⟨hkey, rfl⟩ | ⟨hold, -⟩
      · have hpos : min n 300 - response.declaredAge ≠ 0 := by
          intro hno
          rw [hno, Duration.fromSecs, Nat.zero_mul] at hle
          exact hzero (Nat.le_zero.mp hle)
        exact .inr ⟨hkey, by omega, Nat.add_le_add_left hle _⟩
      · exact .inl hold

/-- To keep nothing is to keep for zero seconds. -/
theorem kept_zero {r : Response} {now : Instant} {before after : MetadataCache} :
    Kept r 0 id now before after ↔
      ∀ key entry, after.lookup key = some entry → before.lookup key = some entry := by
  constructor
  · intro h key entry hentry
    rcases h key entry hentry with hold | ⟨-, hage, -⟩
    · exact hold
    · omega
  · exact fun h key entry hentry => .inl (h key entry hentry)

theorem honours_iff (h : Fetched U fromSlice net clock cache id response client)
    (hclock : clock.lookup ≤ clock.insert) :
    Honours response id clock.insert cache (resolveMetadata U fromSlice net clock cache id).cache ↔
      response.ReadsEnough := by
  have hlimit := fun n => (kept_iff h hclock n).trans (ttl_le_iff response n)
  constructor
  · rintro ⟨hforbidden, hlimited⟩
    by_cases hs : response.Stops
    · exact .inl hs
    · refine .inr fun n hasks => ?_
      rcases hasks with ⟨hf, rfl⟩ | hn
      · exact ((hlimit 0).mp (kept_zero.mpr (hforbidden hf))).resolve_left hs
      · exact ((hlimit n).mp (hlimited n hn)).resolve_left hs
  · intro hcond
    refine ⟨fun hf => kept_zero.mp ((hlimit 0).mpr ?_), fun n hn => (hlimit n).mpr ?_⟩
    · exact hcond.imp_right fun hc => hc 0 (.inl ⟨hf, rfl⟩)
    · exact hcond.imp_right fun hc => hc n (.inr hn)

end

/-! ## The first line as the code reads it -/

theorem headerText_visible {value : List UInt8} {text : String} (h : headerText value = some text) :
    ∀ c ∈ text.toList, 32 ≤ c.toNat ∧ c.toNat < 127 ∨ c.toNat = 9 := by
  unfold headerText at h
  split at h
  · rename_i hall
    obtain rfl := Option.some.inj h
    intro c hc
    rw [String.toList_ofList, List.mem_map] at hc
    obtain ⟨b, hb, rfl⟩ := hc
    have hvisible := List.all_eq_true.mp hall b hb
    simp only [Bool.or_eq_true, Bool.and_eq_true, decide_eq_true_eq, UInt8.le_iff_toNat_le,
      UInt8.lt_iff_toNat_lt, ← UInt8.toNat_inj] at hvisible
    rw [Ascii.toNat_ofNat]
    exact hvisible
  · cases h

theorem isWhitespace_visible {c : Char} (h : 32 ≤ c.toNat ∧ c.toNat < 127 ∨ c.toNat = 9) :
    Text.isWhitespace c = FieldList.isBlank c := by
  have hval : c.val.toNat = c.toNat := rfl
  rw [Bool.eq_iff_iff]
  simp only [Text.isWhitespace, FieldList.isBlank, decide_eq_true_eq, Bool.or_eq_true,
    UInt32.le_iff_toNat_le, ← UInt32.toNat_inj, ← Char.toNat_inj, hval, UInt32.reduceToNat,
    Char.reduceToNat]
  omega

theorem trim_visible {e : List Char} (h : ∀ c ∈ e, Text.isWhitespace c = FieldList.isBlank c) :
    Text.trim (.ofList e) = .ofList (FieldList.trim e) := by
  rw [Text.trim, FieldList.trim, String.toList_ofList, Text.strip_congr h]

section

variable {e : List Char}

/-- A part in lower case is what its directive says. -/
theorem part_lower (h : ∀ c ∈ e, Text.isWhitespace c = FieldList.isBlank c) :
    (toAsciiLowercase (Text.trim (.ofList e))).toList = (FieldList.directive e).name.toList ++
      ((FieldList.directive e).argument.elim [] fun a => '=' :: a.map Char.toLower) := by
  rw [trim_visible h, toAsciiLowercase, String.toList_ofList, String.toList_ofList,
    FieldList.directive_lower]

theorem withoutSign_digits {digits : List Char} (h : ∀ c ∈ digits, c.isDigit = true) :
    withoutSign digits = digits := by
  unfold withoutSign
  split
  · exact absurd (h '+' List.mem_cons_self) (by decide)
  · rfl

theorem parseU64_digits {digits : List Char} (hne : digits ≠ [])
    (h : ∀ c ∈ digits, c.isDigit = true) : parseU64 (.ofList digits) =
      if Text.decimal digits < 2 ^ 64 then some (Text.decimal digits) else none := by
  have hform : unsigned (.ofList digits) = some (Text.decimal digits) := by
    rw [unsigned, String.toList_ofList, withoutSign_digits h]
    exact if_pos ⟨hne, List.all_eq_true.mpr h⟩
  rw [parseU64_eq, hform, Option.filter_some]
  simp only [decide_eq_true_eq]

theorem maxAge_seconds (h : ∀ c ∈ e, Text.isWhitespace c = FieldList.isBlank c) {argument : List Char}
    {n : Nat} (hd : FieldList.directive e = ⟨"max-age", some argument⟩)
    (hn : FieldList.IsSeconds argument n) :
    maxAge (Text.trim (.ofList e)) = if n < 2 ^ 64 then some n else none := by
  have hlower := part_lower h
  rw [hd, Option.elim_some, hn.lower] at hlower
  have hdrop : (toAsciiLowercase (Text.trim (.ofList e))).toList.dropPrefix? "max-age=".toList =
      some argument := Text.dropPrefix_eq_some.mpr (hlower.trans (by simp))
  obtain ⟨digits, htrim, hne, hdigits, rfl⟩ := hn.trimMatches
  simp only [maxAge, hdrop, htrim]
  exact parseU64_digits hne hdigits

theorem maxAge_name (h : ∀ c ∈ e, Text.isWhitespace c = FieldList.isBlank c) {m : Nat}
    (hm : maxAge (Text.trim (.ofList e)) = some m) : (FieldList.directive e).name = "max-age" := by
  have hlower := part_lower h
  unfold maxAge at hm
  split at hm
  · cases hm
  · rename_i number hdrop
    rw [Text.dropPrefix_eq_some.mp hdrop] at hlower
    have hname := FieldList.name_no_eq e
    have hmarker : "max-age=".toList ++ number = "max-age".toList ++ '=' :: number := by simp
    rw [hmarker] at hlower
    cases harg : (FieldList.directive e).argument with
    | none =>
      rw [harg, Option.elim_none, List.append_nil] at hlower
      exact absurd (hlower ▸ by simp) hname
    | some argument =>
      rw [harg, Option.elim_some] at hlower
      have hmark : '=' ∉ "max-age".toList := by decide
      have hsame := congrArg (List.takeWhile (· ≠ '=')) hlower
      rw [Text.takeWhile_ne hmark, Text.takeWhile_ne hname] at hsame
      exact (String.toList_inj.mp hsame).symm

end

section

variable {r : Response} {text : String}

theorem parts_first (hfirst : r.firstLine = some text) :
    r.parts = (text.toList.splitOn ',').map fun e => Text.trim (.ofList e) := by
  have hcontrol : r.cacheControl = text := by
    rw [Response.cacheControl, ← Response.firstLine, hfirst, Option.getD_some]
  rw [Response.parts, hcontrol]

theorem parts_eq (hfirst : r.firstLine = some text)
    (hplain : FieldList.cut false text.toList = text.toList.splitOn ',') :
    r.parts = (FieldList.cut false text.toList).map fun e => Text.trim (.ofList e) := by
  rw [hplain, parts_first hfirst]

theorem firstLine_blank (hfirst : r.firstLine = some text) {e : List Char}
    (he : e ∈ FieldList.cut false text.toList) :
    ∀ c ∈ e, Text.isWhitespace c = FieldList.isBlank c := by
  obtain ⟨value, -, hvalue⟩ := Option.bind_eq_some_iff.mp hfirst
  intro c hc
  exact isWhitespace_visible (headerText_visible hvalue c (FieldList.cut_subset _ _ e he hc))

/-- A bare directive of the first line stops the code. -/
theorem FirstLineTells.stops (h : FirstLineTells r text) (hf : Forbids r.directives) : r.Stops := by
  obtain ⟨d, hd, hbare⟩ := h.bare hf
  obtain ⟨e, he, rfl⟩ := List.mem_map.mp hd
  have hlower := part_lower (firstLine_blank h.first he)
  refine ⟨Text.trim (.ofList e), by rw [parts_eq h.first h.plain]; exact List.mem_map_of_mem he, ?_⟩
  rcases hbare with hbare | hbare
  · rw [hbare, Option.elim_none, List.append_nil] at hlower
    exact .inl (String.toList_inj.mp hlower)
  · rw [hbare, Option.elim_none, List.append_nil] at hlower
    exact .inr (String.toList_inj.mp hlower)

/-- The only `max-age` of the first line is the first that the code reads. -/
theorem FirstLineTells.leads (h : FirstLineTells r text) {n : Nat} (hfits : n < 2 ^ 64)
    (hn : OnlyMaxAge r.directives n) : r.Leads n := by
  obtain ⟨argument, hfilter, hseconds⟩ := h.single n hn
  rw [FieldList.directives, List.filter_map, List.map_eq_singleton_iff] at hfilter
  obtain ⟨e, hfilter, hd⟩ := hfilter
  obtain ⟨before, after, hcut, hbefore, -, -⟩ := List.filter_eq_cons_iff.mp hfilter
  have hmem : ∀ x, x ∈ before ∨ x = e → x ∈ FieldList.cut false text.toList := by
    intro x hx
    rw [hcut, List.mem_append, List.mem_cons]
    exact hx.imp_right .inl
  refine ⟨before.map fun e => Text.trim (.ofList e), Text.trim (.ofList e),
    after.map fun e => Text.trim (.ofList e), n, ?_, ?_, ?_, Nat.le_refl n⟩
  · rw [parts_eq h.first h.plain, hcut, List.map_append, List.map_cons]
  · intro part hpart
    obtain ⟨x, hx, rfl⟩ := List.mem_map.mp hpart
    cases hm : maxAge (Text.trim (.ofList x)) with
    | none => rfl
    | some m =>
      have hname := maxAge_name (firstLine_blank h.first (hmem x (.inl hx))) hm
      exact absurd (decide_eq_true hname) (hbefore x hx)
  · rw [maxAge_seconds (firstLine_blank h.first (hmem e (.inr rfl))) hd hseconds, if_pos hfits]

theorem FirstLineTells.readsEnough (h : FirstLineTells r text) : r.ReadsEnough := by
  by_cases hf : Forbids r.directives
  · exact .inl (h.stops hf)
  · refine .inr fun n hasks => ?_
    have hn := hasks.resolve_left fun hforbids => hf hforbids.1
    have hallowed : n ≤ r.allowed n := by
      rw [Response.allowed, if_pos h.age]
      exact Nat.le_max_left _ _
    by_cases hfits : n < 2 ^ 64
    · obtain ⟨before, part, after, m, hparts, hbefore, hm, hle⟩ := h.leads hfits hn
      exact .inr ⟨before, part, after, m, hparts, hbefore, hm, Nat.le_trans hle hallowed⟩
    · exact .inl (by omega)

/-! ## What the code misses -/

theorem not_readsEnough {n : Nat} (hasks : Asks r.directives n) (hshort : r.allowed n < 300)
    (hstops : ¬ r.Stops) (hleads : ¬ r.Leads (r.allowed n)) : ¬ r.ReadsEnough := by
  rintro (hs | hall)
  · exact hstops hs
  · rcases hall n hasks with hlong | hl
    · exact absurd hlong (Nat.not_le.mpr hshort)
    · exact hleads hl

theorem not_leads_of_none (h : ∀ part ∈ r.parts, maxAge part = none) (k : Nat) : ¬ r.Leads k := by
  rintro ⟨before, part, after, m, hparts, -, hm, -⟩
  rw [h part (by rw [hparts]; simp)] at hm
  cases hm

theorem allowed_young {n : Nat} (h : max n r.declaredAge < 300) : r.allowed n = max n r.declaredAge :=
  if_pos (by omega)

/-- A part that is `no-store` or `no-cache` to the code is that directive without an argument. -/
theorem bare_of_lower {e : List Char} (h : ∀ c ∈ e, Text.isWhitespace c = FieldList.isBlank c)
    {name : String} (hname : '=' ∉ name.toList)
    (hlower : toAsciiLowercase (Text.trim (.ofList e)) = name) :
    FieldList.directive e = ⟨name, none⟩ := by
  have hparts := part_lower h
  rw [hlower] at hparts
  cases hd : FieldList.directive e with
  | mk found argument =>
    rw [hd] at hparts
    cases argument with
    | none =>
      rw [Option.elim_none, List.append_nil] at hparts
      rw [String.toList_inj.mp hparts]
    | some argument =>
      rw [Option.elim_some] at hparts
      exact absurd (by rw [hparts]; simp) hname

theorem NoneBare.not_stops (h : NoneBare text) (hfirst : r.firstLine = some text)
    (hplain : FieldList.cut false text.toList = text.toList.splitOn ',') : ¬ r.Stops := by
  rintro ⟨part, hpart, hlower⟩
  rw [parts_eq hfirst hplain] at hpart
  obtain ⟨e, he, rfl⟩ := List.mem_map.mp hpart
  have hbare := h _ (List.mem_map_of_mem he)
  have hblank := firstLine_blank hfirst he
  rcases hlower with hlower | hlower
  · exact hbare.1 (bare_of_lower hblank (by decide) hlower)
  · exact hbare.2 (bare_of_lower hblank (by decide) hlower)

theorem Missed.not_readsEnough (h : Missed r) : ¬ r.ReadsEnough := by
  cases h with
  | unread hasks hshort hfirst =>
    have hcontrol : r.cacheControl = "" := by
      rw [Response.cacheControl, ← Response.firstLine, hfirst, Option.getD_none]
    have hparts : r.parts = [""] := by
      rw [Response.parts, hcontrol]
      decide
    refine Oauth.not_readsEnough hasks (by rwa [allowed_young hshort]) ?_
      (not_leads_of_none (by rw [hparts]; decide) _)
    rw [Response.Stops, hparts]
    decide
  | elsewhere hasks hshort hfirst hplain hbare hnone =>
    refine Oauth.not_readsEnough hasks (by rwa [allowed_young hshort])
      (hbare.not_stops hfirst hplain) (not_leads_of_none (fun part hpart => ?_) _)
    rw [parts_eq hfirst hplain] at hpart
    obtain ⟨e, he, rfl⟩ := List.mem_map.mp hpart
    cases hm : maxAge (Text.trim (.ofList e)) with
    | none => rfl
    | some m =>
      have hname := maxAge_name (firstLine_blank hfirst he) hm
      exact absurd hname (hnone _ (List.mem_map_of_mem he))
  | @quoted n m text before after inside hasks hshort hfirst hparts hread hbefore hstops =>
    have hallowed := allowed_young (r := r) (n := n) (by omega)
    refine Oauth.not_readsEnough hasks (by omega) ?_ ?_
    · rintro ⟨part, hpart, hlower⟩
      rw [parts_first hfirst] at hpart
      obtain ⟨e, he, rfl⟩ := List.mem_map.mp hpart
      exact hstops e he (by simpa using hlower)
    · have hcut : r.parts = (before.map fun e => Text.trim (.ofList e)) ++
          Text.trim (.ofList inside) :: after.map fun e => Text.trim (.ofList e) := by
        rw [parts_first hfirst, hparts, List.map_append, List.map_cons]
      rw [leads_iff hcut (List.forall_mem_map.mpr hbefore) hread]
      omega
  | @tooOld n k text hasks hage hfirst hplain hbare honly hpos hfits =>
    have hallowed : r.allowed k = 0 := if_neg (Nat.not_lt.mpr hage)
    refine Oauth.not_readsEnough hasks (by omega) (hbare.not_stops hfirst hplain) ?_
    rintro ⟨before, part, after, m, hparts, -, hm, hle⟩
    have hpart : part ∈ r.parts := by rw [hparts]; simp
    rw [parts_eq hfirst hplain] at hpart
    obtain ⟨e, he, rfl⟩ := List.mem_map.mp hpart
    have hblank := firstLine_blank hfirst he
    obtain ⟨argument, hfilter, hseconds⟩ := honly
    have hin : FieldList.directive e ∈
        (FieldList.directives text.toList).filter (·.name = "max-age") :=
      List.mem_filter.mpr ⟨List.mem_map_of_mem he, decide_eq_true (maxAge_name hblank hm)⟩
    rw [hfilter, List.mem_singleton] at hin
    rw [maxAge_seconds hblank hin hseconds, if_pos hfits, Option.some.injEq] at hm
    omega

end

/-- **When the directives are honoured.** After a successful fetch the cache respects the directives
when the first line, as a text without commas in quoted strings, has the directives that decide and
they are bare. It does not when these are missed. In general it does exactly if the code reads a
limit as strict as each of them. -/
theorem directives_honoured_iff (U : UrlCrate) (fromSlice : List UInt8 → Option Json) (net : Network)
    (clock : Readings) (cache : MetadataCache) (id : String) (response : Response) (client : Client)
    (h : Fetched U fromSlice net clock cache id response client)
    (hclock : clock.lookup ≤ clock.insert) :
    (∀ text, FirstLineTells response text →
      Honours response id clock.insert cache
        (resolveMetadata U fromSlice net clock cache id).cache) ∧
    (Missed response →
      ¬ Honours response id clock.insert cache
        (resolveMetadata U fromSlice net clock cache id).cache) ∧
    (Honours response id clock.insert cache (resolveMetadata U fromSlice net clock cache id).cache ↔
      response.ReadsEnough) := by
  have hiff := honours_iff h hclock
  exact ⟨fun text htells => hiff.mpr htells.readsEnough,
    fun hmissed hhonours => hmissed.not_readsEnough (hiff.mp hhonours), hiff⟩

/-! ## Responses for the example document -/

def responseWith (headers : List (String × List UInt8)) : Response :=
  ⟨200, none, headers, .chunk exampleBytes .done⟩

def networkWith (headers : List (String × List UInt8)) : Network :=
  { exampleNetwork with send := fun _ => .response (responseWith headers) }

def documentClient : Client := ⟨exampleId, "Example", ["http://127.0.0.1/cb"], true, .native⟩

theorem responseWith_client (headers : List (String × List UInt8)) :
    (responseWith headers).client exampleCrate exampleSlice exampleId = .ok documentClient := by
  have hbytes : (responseWith headers).bytes = (responseWith []).bytes := rfl
  have hread : (responseWith []).bytes = .ok exampleBytes := by decide +kernel
  exact Response.client_ok.mpr ⟨exampleBytes, hbytes.trans hread, exampleDocument_parsed⟩

theorem prepare_with (headers : List (String × List UInt8)) :
    prepare (networkWith headers) (httpsUrl "client.example" "/metadata") = .ok exampleSent := by
  have hsame : prepare (networkWith headers) (httpsUrl "client.example" "/metadata") =
      prepare exampleNetwork (httpsUrl "client.example" "/metadata") := rfl
  exact hsame.trans (by decide)

theorem exampleId_url :
    metadataUrl exampleCrate exampleId = .ok (httpsUrl "client.example" "/metadata") := by
  decide

theorem fetched_with (headers : List (String × List UInt8)) :
    Fetched exampleCrate exampleSlice (networkWith headers) ⟨0, fun _ => 0, 0⟩ ∅ exampleId
      (responseWith headers) documentClient :=
  ⟨httpsUrl "client.example" "/metadata", exampleSent, exampleId_url, rfl, prepare_with headers, rfl,
    responseWith_client headers⟩

/-- Ten seconds, of which three have passed. -/
def agedHeaders : List (String × List UInt8) :=
  [("cache-control", Ascii.bytes "public, Max-Age=\"10\""), ("age", Ascii.bytes "3")]

theorem agedHeaders_directives : (responseWith agedHeaders).directives =
    [⟨"public", none⟩, ⟨"max-age", some ['"', '1', '0', '"']⟩] := by decide

theorem agedHeaders_tells : FirstLineTells (responseWith agedHeaders) "public, Max-Age=\"10\"" where
  first := by decide
  plain := by decide
  bare h := by
    obtain ⟨d, hd, hforbids⟩ := h
    rw [agedHeaders_directives] at hd
    simp only [List.mem_cons, List.not_mem_nil, or_false] at hd
    rcases hd with rfl | rfl <;> simp at hforbids
  single n h := by
    have hsame : FieldList.directives "public, Max-Age=\"10\"".toList =
        (responseWith agedHeaders).directives := by decide
    exact hsame ▸ h
  age := by decide

/-- The entry lives for the seven seconds that are left. -/
theorem directives_honoured_iff_aged :
    Kept (responseWith agedHeaders) 10 exampleId 0 ∅
      (resolveMetadata exampleCrate exampleSlice (networkWith agedHeaders) ⟨0, fun _ => 0, 0⟩ ∅
        exampleId).cache := by
  have hsingle : OnlyMaxAge (responseWith agedHeaders).directives 10 :=
    ⟨['"', '1', '0', '"'], by rw [agedHeaders_directives]; rfl, ['1', '0'], .inr rfl, nofun,
      by simp, rfl⟩
  exact ((directives_honoured_iff exampleCrate exampleSlice (networkWith agedHeaders)
    ⟨0, fun _ => 0, 0⟩ ∅ exampleId (responseWith agedHeaders) documentClient
    (fetched_with agedHeaders) (Nat.le_refl 0)).1 _ agedHeaders_tells).limited 10 hsingle

/-- The second line forbids to store. -/
def splitHeaders : List (String × List UInt8) :=
  [("cache-control", Ascii.bytes "public, max-age=300"), ("cache-control", Ascii.bytes "no-store")]

/-- The argument names the fields that may not be reused. -/
def argumentHeaders : List (String × List UInt8) :=
  [("cache-control", Ascii.bytes "no-cache=\"set-cookie\"")]

/-- A response with any of these headers is kept for 300 seconds. -/
theorem directives_missed :
    Forbids (responseWith splitHeaders).directives ∧
    Forbids (responseWith argumentHeaders).directives ∧
    (∀ headers ∈ [splitHeaders, argumentHeaders],
      (resolveMetadata exampleCrate exampleSlice (networkWith headers) ⟨0, fun _ => 0, 0⟩ ∅
        exampleId).cache.lookup exampleId = some (Duration.fromSecs 300, documentClient)) ∧
    ¬ ∀ (U : UrlCrate) (fromSlice : List UInt8 → Option Json) (net : Network) (clock : Readings)
        (cache : MetadataCache) (id : String) (response : Response) (client : Client),
      Fetched U fromSlice net clock cache id response client → clock.lookup ≤ clock.insert →
        Honours response id clock.insert cache
          (resolveMetadata U fromSlice net clock cache id).cache := by
  have hsplit : Forbids (responseWith splitHeaders).directives :=
    ⟨⟨"no-store", none⟩, by decide, .inl rfl⟩
  have hargument : Forbids (responseWith argumentHeaders).directives :=
    ⟨⟨"no-cache", some "\"set-cookie\"".toList⟩, by decide, .inr rfl⟩
  have hstored : ∀ headers, (responseWith headers).ttl = .fromSecs 300 →
      (resolveMetadata exampleCrate exampleSlice (networkWith headers) ⟨0, fun _ => 0, 0⟩ ∅
        exampleId).cache.lookup exampleId = some (Duration.fromSecs 300, documentClient) := by
    intro headers httl
    rw [(fetched_with headers).cache_eq, httl, if_neg (by decide)]
    simp only [MetadataCache.store, AList.lookup_insert, Nat.zero_add]
  have hsplitTtl : (responseWith splitHeaders).ttl = .fromSecs 300 := by decide
  have hargumentTtl : (responseWith argumentHeaders).ttl = .fromSecs 300 := by decide
  refine ⟨hsplit, hargument, ?_, ?_⟩
  · intro headers hin
    simp only [List.mem_cons, List.not_mem_nil, or_false] at hin
    rcases hin with rfl | rfl
    · exact hstored _ hsplitTtl
    · exact hstored _ hargumentTtl
  · intro hclaim
    have hnothing := (hclaim _ _ _ _ _ _ _ _ (fetched_with splitHeaders) (Nat.le_refl 0)).forbidden
      hsplit _ _ (hstored _ hsplitTtl)
    cases hnothing

end Authzoo.Oauth
