import Authzoo.Lib.Ascii
import Authzoo.Lib.Text

/-!
# Lib.HttpUrl

How the URL standard cuts the text after `http://` into parts, over lists of characters, and what a
port written into the text changes.

* `split` : the parts. Trailing blanks are trimmed, tabs and newlines removed and leading slashes
  skipped; the authority ends at `/`, `\`, `?` or `#`; a port follows a `:` outside brackets.
* `Cut` : a text cut at its first `/`, `?` or `#` only, into a host text, a port and the rest.
* `Cut.port_only` : two texts that differ in the port text have the same host and query, and the same
  path unless the host text has a backslash.
* `Cut.port_removed` : the user name and the fragment stay when the port text is taken out.
* `IsHost.split` : the parts of a text whose host text is a host and nothing else.
-/

namespace HttpUrl

/-- C0 controls and the space. -/
def isBlank (c : Char) : Bool := c.val ≤ 0x20

def isRemoved (c : Char) : Bool := c = '\t' || c = '\n' || c = '\r'

def isSlash (c : Char) : Bool := c = '/' || c = '\\'

def endsAuthority (c : Char) : Bool := c = '/' || c = '\\' || c = '?' || c = '#'

def clean (s : List Char) : List Char := (s.rdropWhile isBlank).filter (!isRemoved ·)

/-- A port follows the first `:` outside brackets. -/
def splitPort : Bool → List Char → List Char × Option (List Char)
  | _, [] => ([], none)
  | inside, c :: s =>
    if c = ':' ∧ inside = false then ([], some s)
    else
      let (host, port) := splitPort (c = '[' || (inside && c ≠ ']')) s
      (c :: host, port)

structure Parts where
  userinfo : Option (List Char)
  host : List Char
  port : Option (List Char)
  path : List Char
  query : Option (List Char)
  fragment : Option (List Char)

def after (s : List Char) : Option (List Char) :=
  match s with
  | [] => none
  | _ :: s => some s

/-- The authority and what follows it. -/
def splitAuthority (rest : List Char) : List Char × List Char :=
  let s := (clean rest).dropWhile isSlash
  (s.takeWhile (!endsAuthority ·), s.dropWhile (!endsAuthority ·))

/-- The text before the last `@`, and the host and port after it. -/
def splitUserinfo (authority : List Char) : Option (List Char) × List Char :=
  (if '@' ∈ authority then some (authority.rdropWhile (· ≠ '@')).dropLast else none,
    authority.rtakeWhile (· ≠ '@'))

def assemble (authority tail : List Char) : Parts :=
  let (userinfo, hostPort) := splitUserinfo authority
  let (host, port) := splitPort false hostPort
  let resource := tail.takeWhile (· ≠ '#')
  { userinfo, host, port
    path := resource.takeWhile (· ≠ '?')
    query := after (resource.dropWhile (· ≠ '?'))
    fragment := after (tail.dropWhile (· ≠ '#')) }

def split (rest : List Char) : Parts := assemble (splitAuthority rest).1 (splitAuthority rest).2

/-! ## Cutting out a port -/

def endsHostText (c : Char) : Bool := c = '/' || c = '?' || c = '#'

/-- A port text: nothing, or `:` and digits. -/
def IsPort (p : List Char) : Prop := p = [] ∨ ∃ digits, p = ':' :: digits ∧ digits ≠ [] ∧
  ∀ c ∈ digits, c.isDigit = true

/-- A host text that ends before the first `:`, or is bracketed. -/
def IsHostText (h : List Char) : Prop :=
  (∀ c ∈ h, endsHostText c = false) ∧
    (':' ∉ h ∧ h.head? ≠ some '[' ∨ ∃ x, h = '[' :: x ++ [']'] ∧ ']' ∉ x)

/-- `h`, `p` and `r` are the host text, port and rest of a text. -/
structure Cut (h p r : List Char) : Prop where
  host : IsHostText h
  port : IsPort p
  rest : ∀ c, r.head? = some c → endsHostText c = true

/-- The host text as the parser sees it: without tabs and newlines, after leading slashes. -/
def seen (h : List Char) : List Char := (h.filter (!isRemoved ·)).dropWhile isSlash

/-- What every accepted host looks like. -/
structure Plausible (host : List Char) : Prop where
  nonempty : host ≠ []
  solid : ∀ c ∈ host, isBlank c = false
  closed : '[' ∈ host → host.getLast? = some ']'

/-- No user name: nothing before the `@`, or a password only. -/
def Anonymous (userinfo : Option (List Char)) : Prop := ∀ c s, userinfo = some (c :: s) → c = ':'

theorem isBlank_of_isRemoved {c : Char} (h : isRemoved c = true) : isBlank c = true := by
  simp only [isRemoved, Bool.or_eq_true, decide_eq_true_eq] at h
  obtain (rfl | rfl) | rfl := h <;> decide

theorem isPort_solid {p : List Char} (h : IsPort p) : ∀ c ∈ p, isBlank c = false := by
  intro c hc
  cases h with
  | inl h =>
    subst h
    cases hc
  | inr h =>
    obtain ⟨digits, rfl, -, hd⟩ := h
    cases hc with
    | head => decide
    | tail _ hc =>
      have := hd c hc
      simp only [Char.isDigit, Bool.and_eq_true, decide_eq_true_eq] at this
      simp only [isBlank, decide_eq_false_iff_not, UInt32.not_le]
      exact UInt32.lt_of_lt_of_le (by decide) this.1

/-! ## Cleaning -/

theorem rdropWhile_append {f : Char → Bool} {s t : List Char} (h : ∃ c ∈ t, f c = false) :
    (s ++ t).rdropWhile f = s ++ t.rdropWhile f := by
  obtain ⟨c, hc, hf⟩ := h
  have hne : (t.reverse.dropWhile f).isEmpty = false := by
    rw [Bool.eq_false_iff]
    intro hempty
    rw [List.isEmpty_iff, List.dropWhile_eq_nil_iff] at hempty
    have := hempty c (List.mem_reverse.mpr hc)
    rw [hf] at this
    cases this
  rw [List.rdropWhile, List.reverse_append, List.dropWhile_append, hne, List.rdropWhile]
  simp

theorem filter_solid {p : List Char} (h : ∀ c ∈ p, isBlank c = false) :
    p.filter (!isRemoved ·) = p := by
  rw [List.filter_eq_self]
  intro c hc
  cases hr : isRemoved c with
  | false => rfl
  | true =>
    have := isBlank_of_isRemoved hr
    rw [h c hc] at this
    cases this

theorem clean_solid {p : List Char} (h : ∀ c ∈ p, isBlank c = false) (r : List Char) :
    clean (p ++ r) = p ++ clean r := by
  by_cases hr : ∃ c ∈ r, isBlank c = false
  · rw [clean, rdropWhile_append hr, List.filter_append, filter_solid h]
    rfl
  · have hblank : ∀ c ∈ r, isBlank c = true := by
      intro c hc
      by_contra hsolid
      exact hr ⟨c, hc, by simpa using hsolid⟩
    have hnil : r.rdropWhile isBlank = [] := List.rdropWhile_eq_nil_iff.mpr hblank
    have hp : (p ++ r).rdropWhile isBlank = p := by
      rw [List.rdropWhile, List.reverse_append, List.dropWhile_append_of_pos
        fun c hc => hblank c (List.mem_reverse.mp hc), ← List.rdropWhile,
        List.rdropWhile_eq_self_iff]
      intro hne hlast
      rw [h _ (List.getLast_mem hne)] at hlast
      cases hlast
    rw [clean, clean, hp, hnil, filter_solid h, List.filter_nil, List.append_nil]

theorem clean_append {h t : List Char} (ht : ∃ c ∈ t, isBlank c = false) :
    clean (h ++ t) = h.filter (!isRemoved ·) ++ clean t := by
  rw [clean, rdropWhile_append ht, List.filter_append]
  rfl

/-- What trimming takes off is blank. -/
theorem clean_trim (h : List Char) : ∃ junk, h.filter (!isRemoved ·) = clean h ++ junk ∧
    ∀ c ∈ junk, isBlank c = true := by
  refine ⟨(h.rtakeWhile isBlank).filter (!isRemoved ·), ?_, ?_⟩
  · rw [clean, ← List.filter_append, List.rdropWhile_append_rtakeWhile]
  · intro c hc
    exact List.mem_rtakeWhile_imp (List.mem_filter.mp hc).1

theorem clean_subset {s : List Char} : clean s ⊆ s := fun _ hc =>
  (List.rdropWhile_prefix _ _).subset (List.mem_filter.mp hc).1

/-! ## Authority, user name and port -/

theorem splitPort_plain {k : List Char} (h : ':' ∉ k) (b : Bool) : splitPort b k = (k, none) := by
  induction k generalizing b with
  | nil => rfl
  | cons c k ih =>
    have hc : c ≠ ':' := fun hc => h (by simp [hc])
    simp only [splitPort, hc, false_and, if_false]
    rw [ih fun hin => h (List.mem_cons_of_mem c hin)]

theorem splitPort_some {p : List Char} (hp : IsPort p) : splitPort false p = ([], after p) := by
  cases hp with
  | inl hp =>
    subst hp
    rfl
  | inr hp =>
    obtain ⟨digits, rfl, -, -⟩ := hp
    simp [splitPort, after]

theorem splitPort_isPort {p : List Char} (h : IsPort p) : (splitPort false p).1 = [] :=
  congrArg Prod.fst (splitPort_some h)

theorem not_mem_digits {digits : List Char} {c : Char} (h : ∀ c ∈ digits, c.isDigit = true)
    (hc : c.isDigit = false) : c ∉ digits := by
  intro hin
  rw [h c hin] at hc
  cases hc

/-- Whether a bracket is open at the end of a text. -/
def bracketOpen : Bool → List Char → Bool
  | inside, [] => inside
  | inside, c :: s => bracketOpen (c = '[' || (inside && c ≠ ']')) s

theorem mem_of_bracketOpen {k : List Char} {b : Bool} (h : bracketOpen b k = true) :
    b = true ∨ '[' ∈ k := by
  induction k generalizing b with
  | nil => exact Or.inl h
  | cons c k ih =>
    cases ih h with
    | inl hb =>
      simp only [Bool.or_eq_true, decide_eq_true_eq, Bool.and_eq_true] at hb
      cases hb with
      | inl hc => exact Or.inr (by simp [hc])
      | inr hb => exact Or.inl hb.1
    | inr hin => exact Or.inr (List.mem_cons_of_mem c hin)

/-- The port is cut off, unless an open bracket swallows it. -/
theorem splitPort_port {k p : List Char} (hk : ':' ∉ k) (hp : IsPort p) (b : Bool) :
    (splitPort b (k ++ p)).1 = if bracketOpen b k then k ++ p else k := by
  induction k generalizing b with
  | nil =>
    cases b with
    | false => exact splitPort_isPort hp
    | true =>
      cases hp with
      | inl hp =>
        subst hp
        rfl
      | inr hp =>
        obtain ⟨digits, rfl, -, hd⟩ := hp
        simp [splitPort, bracketOpen, splitPort_plain (not_mem_digits hd (by decide))]
  | cons c k ih =>
    have hc : c ≠ ':' := fun hc => hk (by simp [hc])
    simp only [List.cons_append, splitPort, bracketOpen, hc, false_and, if_false]
    rw [ih fun hin => hk (List.mem_cons_of_mem c hin)]
    exact apply_ite (List.cons c) _ _ _

theorem splitPort_closed {x p : List Char} (hx : ']' ∉ x) (hp : IsPort p) :
    splitPort true (x ++ ']' :: p) = (x ++ [']'], after p) := by
  induction x with
  | nil => simp [splitPort, splitPort_some hp]
  | cons c x ih =>
    have hc : c ≠ ']' := fun hc => hx (by simp [hc])
    have ih := ih fun hin => hx (List.mem_cons_of_mem c hin)
    simp only [List.cons_append, splitPort, Bool.true_eq_false, and_false, if_false]
    simp only [hc, ne_eq, not_false_eq_true, decide_true, Bool.true_and, Bool.or_true]
    rw [ih]

theorem splitPort_bracketed {x p : List Char} (hx : ']' ∉ x) (hp : IsPort p) :
    splitPort false (('[' :: x ++ [']']) ++ p) = ('[' :: x ++ [']'], after p) := by
  simp [splitPort, splitPort_closed hx hp]

theorem no_at_reverse {p : List Char} (hp : '@' ∉ p) :
    ∀ c ∈ p.reverse, decide (c ≠ '@') = true := by
  intro c hc
  have : c ≠ '@' := fun h => hp (h ▸ List.mem_reverse.mp hc)
  simpa using this

theorem rtakeWhile_append {k p : List Char} (hp : '@' ∉ p) :
    (k ++ p).rtakeWhile (· ≠ '@') = k.rtakeWhile (· ≠ '@') ++ p := by
  rw [List.rtakeWhile, List.rtakeWhile, List.reverse_append,
    List.takeWhile_append_of_pos (no_at_reverse hp)]
  simp

theorem rtakeWhile_eq_self {k : List Char} (hk : '@' ∉ k) : k.rtakeWhile (· ≠ '@') = k := by
  have h := rtakeWhile_append (k := []) hk
  simpa using h

theorem splitUserinfo_at {a : List Char} (h : '@' ∈ a) :
    ∃ userinfo, (splitUserinfo a).1 = some userinfo ∧
      a = userinfo ++ '@' :: (splitUserinfo a).2 := by
  have hne : a.rdropWhile (· ≠ '@') ≠ [] := by
    rw [ne_eq, List.rdropWhile_eq_nil_iff]
    intro hall
    have := hall '@' h
    simp at this
  have hlast : (a.rdropWhile (· ≠ '@')).getLast hne = '@' := by
    simpa using List.rdropWhile_last_not _ _ hne
  refine ⟨(a.rdropWhile (· ≠ '@')).dropLast, by simp only [splitUserinfo, if_pos h], ?_⟩
  have hsplit : a.rdropWhile (· ≠ '@') ++ a.rtakeWhile (· ≠ '@') = a :=
    List.rdropWhile_append_rtakeWhile
  rw [← List.dropLast_append_getLast hne, hlast, List.append_assoc] at hsplit
  exact hsplit.symm

/-- An anonymous authority that starts with a bracket has no user name to cut off. -/
theorem anonymous_bracketed {x : List Char} (h : Anonymous (splitUserinfo ('[' :: x)).1) :
    '@' ∉ '[' :: x := by
  intro hin
  obtain ⟨userinfo, hui, hsplit⟩ := splitUserinfo_at hin
  cases userinfo with
  | nil => simp at hsplit
  | cons c s =>
    have hc := h c s hui
    simp only [List.cons_append, List.cons.injEq] at hsplit
    rw [← hsplit.1] at hc
    exact absurd hc (by decide)

/-! ## Texts that differ in the port -/

/-- The query of the text after an authority. -/
def queryText (tail : List Char) : Option (List Char) :=
  after ((tail.takeWhile (· ≠ '#')).dropWhile (· ≠ '?'))

theorem assemble_query (authority tail : List Char) :
    (assemble authority tail).query = queryText tail := rfl

theorem assemble_host (authority tail : List Char) :
    (assemble authority tail).host = (splitPort false (splitUserinfo authority).2).1 := rfl

theorem queryText_append {s tail : List Char} (h : ∀ c ∈ s, c ≠ '?' ∧ c ≠ '#') :
    queryText (s ++ tail) = queryText tail := by
  simp only [queryText]
  rw [List.takeWhile_append_of_pos (by simpa using fun c hc => (h c hc).2),
    List.dropWhile_append_of_pos (by simpa using fun c hc => (h c hc).1)]

theorem dropWhile_append {f : Char → Bool} {s t : List Char} (h : s.dropWhile f ≠ []) :
    (s ++ t).dropWhile f = s.dropWhile f ++ t := by
  rw [List.dropWhile_append, if_neg (by simpa [List.isEmpty_iff] using h)]

theorem clean_head {r : List Char} (hr : ∀ c, r.head? = some c → endsHostText c = true) :
    ∀ c, (clean r).head? = some c → endsHostText c = true := by
  cases r with
  | nil => exact fun c hc => by cases hc
  | cons d r =>
    have hd := hr d rfl
    have hsolid : ∀ c ∈ [d], isBlank c = false := by
      intro c hc
      rw [List.mem_singleton.mp hc]
      simp only [endsHostText, Bool.or_eq_true, decide_eq_true_eq] at hd
      obtain (rfl | rfl) | rfl := hd <;> decide
    have hclean := clean_solid hsolid r
    intro c hc
    rw [List.singleton_append] at hclean
    rw [hclean] at hc
    simp only [List.singleton_append, List.head?_cons, Option.some.injEq] at hc
    exact hc ▸ hd

theorem exists_solid {p r : List Char} (hp : IsPort p)
    (hr : ∀ c, r.head? = some c → endsHostText c = true) (hne : p ≠ [] ∨ r ≠ []) :
    ∃ c ∈ p ++ r, isBlank c = false := by
  cases p with
  | cons d p => exact ⟨d, by simp, isPort_solid hp d (by simp)⟩
  | nil =>
    cases r with
    | nil => simp at hne
    | cons d r =>
      have hd := hr d rfl
      refine ⟨d, by simp, ?_⟩
      simp only [endsHostText, Bool.or_eq_true, decide_eq_true_eq] at hd
      obtain (rfl | rfl) | rfl := hd <;> decide

/-- With something behind the host text, cleaning leaves the port as it is. -/
theorem clean_cut {h p r : List Char} (hp : IsPort p)
    (hr : ∀ c, r.head? = some c → endsHostText c = true) (hne : p ≠ [] ∨ r ≠ []) :
    clean (h ++ (p ++ r)) = h.filter (!isRemoved ·) ++ (p ++ clean r) := by
  rw [clean_append (exists_solid hp hr hne), clean_solid (isPort_solid hp)]

/-- The same holds for any port when the host text does not end in a blank. -/
theorem clean_cut_solid {h p r : List Char} (hp : IsPort p)
    (hr : ∀ c, r.head? = some c → endsHostText c = true)
    (hlast : ∀ c, (h.filter (!isRemoved ·)).getLast? = some c → isBlank c = false) :
    clean (h ++ (p ++ r)) = h.filter (!isRemoved ·) ++ (p ++ clean r) := by
  by_cases hne : p ≠ [] ∨ r ≠ []
  · exact clean_cut hp hr hne
  · simp only [ne_eq, not_or, not_not] at hne
    obtain ⟨rfl, rfl⟩ := hne
    obtain ⟨junk, hjunk, hblank⟩ := clean_trim h
    have hnil : junk = [] := by
      by_contra hne
      have hl := hlast (junk.getLast hne) (by
        rw [hjunk, List.getLast?_append, List.getLast?_eq_some_getLast hne]
        rfl)
      rw [hblank _ (List.getLast_mem hne)] at hl
      cases hl
    have hempty : clean [] = [] := rfl
    rw [hnil, List.append_nil] at hjunk
    rw [hempty, hjunk]
    simp

theorem isPort_no_at {p : List Char} (h : IsPort p) : '@' ∉ p := by
  cases h with
  | inl h => simp [h]
  | inr h =>
    obtain ⟨digits, rfl, -, hd⟩ := h
    have := not_mem_digits hd (c := '@') (by decide)
    simp [this]

theorem isPort_not_end {p : List Char} (h : IsPort p) : ∀ c ∈ p, endsAuthority c = false := by
  cases h with
  | inl h => simp [h]
  | inr h =>
    obtain ⟨digits, rfl, -, hd⟩ := h
    intro c hc
    cases hc with
    | head => decide
    | tail _ hc =>
      cases he : endsAuthority c with
      | false => rfl
      | true =>
        have hdigit := hd c hc
        simp only [endsAuthority, Bool.or_eq_true, decide_eq_true_eq] at he
        obtain ((rfl | rfl) | rfl) | rfl := he <;> exact absurd hdigit (by decide)

theorem seen_subset {h : List Char} : ∀ c ∈ seen h, c ∈ h := by
  intro c hc
  exact (List.mem_filter.mp (List.IsSuffix.subset (List.dropWhile_suffix _) hc)).1

theorem seen_not_end {h : List Char} (hh : IsHostText h) (hslash : '\\' ∉ seen h) :
    ∀ c ∈ seen h, endsAuthority c = false := by
  intro c hc
  have hends := hh.1 c (seen_subset c hc)
  have hne : c ≠ '\\' := fun he => hslash (he ▸ hc)
  simp only [endsHostText, Bool.or_eq_false_iff, decide_eq_false_iff_not] at hends
  simp [endsAuthority, hends, hne]

theorem endsAuthority_of {c : Char} (h : endsHostText c = true) : endsAuthority c = true := by
  simp only [endsHostText, Bool.or_eq_true, decide_eq_true_eq] at h
  obtain (rfl | rfl) | rfl := h <;> decide

/-- Without a backslash the authority is the host text with the port. -/
theorem splitAuthority_plain {h p r : List Char} (hh : IsHostText h) (hp : IsPort p)
    (hr : ∀ c, r.head? = some c → endsHostText c = true) (hslash : '\\' ∉ seen h)
    (hseen : seen h ≠ [])
    (hclean : clean (h ++ (p ++ r)) = h.filter (!isRemoved ·) ++ (p ++ clean r)) :
    splitAuthority (h ++ (p ++ r)) = (seen h ++ p, clean r) := by
  have hdrop : (clean (h ++ (p ++ r))).dropWhile isSlash = seen h ++ p ++ clean r := by
    rw [hclean, dropWhile_append hseen, List.append_assoc]
    rfl
  have hall : ∀ c ∈ seen h ++ p, (!endsAuthority c) = true := by
    intro c hc
    rw [List.mem_append] at hc
    cases hc with
    | inl hc => simp [seen_not_end hh hslash c hc]
    | inr hc => simp [isPort_not_end hp c hc]
  obtain ⟨htake, hdropped⟩ := Text.takeWhile_append (f := (!endsAuthority ·)) hall (t := clean r)
    (fun c hc => by simp [endsAuthority_of (clean_head hr c hc)])
  simp only [splitAuthority, hdrop, htake, hdropped]

theorem isPort_last {p : List Char} (h : IsPort p) (hne : p ≠ []) (k : List Char) :
    ∃ d, (k ++ p).getLast? = some d ∧ d ≠ ']' := by
  cases h with
  | inl h => exact absurd h hne
  | inr h =>
    obtain ⟨digits, rfl, hnil, hd⟩ := h
    refine ⟨digits.getLast hnil, ?_, ?_⟩
    · rw [List.getLast?_append, List.getLast?_cons_of_ne_nil hnil,
        List.getLast?_eq_some_getLast hnil]
      rfl
    · intro he
      have := hd _ (List.getLast_mem hnil)
      rw [he] at this
      exact absurd this (by decide)

theorem seen_bracketed (x : List Char) :
    seen ('[' :: x ++ [']']) = '[' :: x.filter (!isRemoved ·) ++ [']'] := by
  have hopen : (!isRemoved '[') = true := by decide
  have hclose : (!isRemoved ']') = true := by decide
  simp only [seen, List.cons_append, List.filter_cons, hopen, if_true, List.filter_append, hclose,
    List.filter_nil]
  rw [List.dropWhile_cons_of_neg (by decide)]

theorem seen_no_colon {h : List Char} (hcolon : ':' ∉ h) : ':' ∉ (splitUserinfo (seen h)).2 :=
  fun hin => hcolon (seen_subset _ (List.IsSuffix.subset (List.rtakeWhile_suffix _ _) hin))

/-- A port that leaves a plausible host leaves the host that every port leaves. -/
theorem assemble_host_port {h p p' : List Char} (hh : IsHostText h) (hp : IsPort p) (hne : p ≠ [])
    (hui : Anonymous (splitUserinfo (seen h ++ p)).1) {t : List Char}
    (hhost : Plausible (assemble (seen h ++ p) t).host) (hp' : IsPort p') (t' : List Char) :
    (assemble (seen h ++ p') t').host = (splitUserinfo (seen h)).2 := by
  have hafter : ∀ q, IsPort q →
      (splitUserinfo (seen h ++ q)).2 = (splitUserinfo (seen h)).2 ++ q :=
    fun q hq => rtakeWhile_append (isPort_no_at hq)
  rw [assemble_host, hafter p' hp']
  rw [assemble_host, hafter p hp] at hhost
  cases hh.2 with
  | inl hplain =>
    have hcolon := seen_no_colon hplain.1
    rw [splitPort_port hcolon hp] at hhost
    rw [splitPort_port hcolon hp']
    cases hopen : bracketOpen false (splitUserinfo (seen h)).2 with
    | false => rfl
    | true =>
      rw [hopen] at hhost
      have hin := (mem_of_bracketOpen hopen).resolve_left (by decide)
      have hlast := hhost.closed (List.mem_append_left p hin)
      obtain ⟨d, hd, hne'⟩ := isPort_last hp hne (splitUserinfo (seen h)).2
      rw [if_pos rfl, hd] at hlast
      cases hlast
      exact absurd rfl hne'
  | inr hbracket =>
    obtain ⟨x, rfl, hx⟩ := hbracket
    rw [seen_bracketed] at hui ⊢
    have hat := anonymous_bracketed hui
    have hself : (splitUserinfo ('[' :: x.filter (!isRemoved ·) ++ [']'])).2 =
        '[' :: x.filter (!isRemoved ·) ++ [']'] :=
      rtakeWhile_eq_self fun hin => hat (List.mem_append_left p hin)
    rw [hself]
    exact congrArg Prod.fst (splitPort_bracketed (fun hin => hx (List.mem_filter.mp hin).1) hp')

theorem split_first {s : List Char} {c : Char} (h : c ∈ s) :
    ∃ x y, s = x ++ c :: y ∧ c ∉ x := by
  induction s with
  | nil => cases h
  | cons d s ih =>
    by_cases hd : d = c
    · exact ⟨[], s, by simp [hd], by simp⟩
    · obtain ⟨x, y, hs, hx⟩ := ih ((List.mem_cons.mp h).resolve_left (Ne.symm hd))
      exact ⟨d :: x, y, by simp [hs], by simp [hx, Ne.symm hd]⟩

/-- What cleaning leaves of the host text reaches beyond its backslash. -/
theorem clean_backslash {h p r x y : List Char} (hp : IsPort p)
    (hr : ∀ c, r.head? = some c → endsHostText c = true)
    (hxy : h.filter (!isRemoved ·) = x ++ '\\' :: y) :
    ∃ y' z, clean (h ++ (p ++ r)) = x ++ '\\' :: (y' ++ (z ++ clean r)) ∧
      (∀ c ∈ y', c ∈ y) ∧ (z = [] ∨ z = p) := by
  by_cases hne : p ≠ [] ∨ r ≠ []
  · exact ⟨y, p, by rw [clean_cut hp hr hne, hxy]; simp, fun c hc => hc, Or.inr rfl⟩
  · simp only [ne_eq, not_or, not_not] at hne
    obtain ⟨rfl, rfl⟩ := hne
    obtain ⟨junk, hjunk, hblank⟩ := clean_trim h
    rw [hxy] at hjunk
    have hempty : clean [] = [] := rfl
    cases List.append_eq_append_iff.mp hjunk with
    | inl hlong =>
      obtain ⟨u, hu, hrest⟩ := hlong
      cases u with
      | nil =>
        -- then the backslash would have been trimmed
        rw [List.nil_append] at hrest
        have := hblank '\\' (by simp [← hrest])
        exact absurd this (by decide)
      | cons d u =>
        simp only [List.cons_append, List.cons.injEq] at hrest
        obtain ⟨rfl, hy⟩ := hrest
        refine ⟨u, [], ?_, fun c hc => by rw [hy]; simp [hc], Or.inl rfl⟩
        rw [hempty]
        simp [hu]
    | inr hshort =>
      obtain ⟨u, -, hrest⟩ := hshort
      have := hblank '\\' (by simp [hrest])
      exact absurd this (by decide)

/-- With a backslash the authority ends there, and the port is left to the path. -/
theorem splitAuthority_backslash {h p r x y : List Char} (hh : IsHostText h) (hp : IsPort p)
    (hr : ∀ c, r.head? = some c → endsHostText c = true) (hxy : seen h = x ++ '\\' :: y)
    (hx : '\\' ∉ x) : ∃ s, (splitAuthority (h ++ (p ++ r))).1 = x ∧
      (splitAuthority (h ++ (p ++ r))).2 = s ++ clean r ∧ ∀ c ∈ s, c ≠ '?' ∧ c ≠ '#' := by
  have hslashes : h.filter (!isRemoved ·) =
      ((h.filter (!isRemoved ·)).takeWhile isSlash ++ x) ++ '\\' :: y := by
    rw [List.append_assoc, ← hxy]
    exact List.takeWhile_append_dropWhile.symm
  obtain ⟨y', z, hclean, hy', hz⟩ := clean_backslash hp hr hslashes
  have hseen : ∀ c ∈ x ++ '\\' :: y, endsHostText c = false :=
    fun c hc => hh.1 c (seen_subset c (hxy ▸ hc))
  have hxend : ∀ c ∈ x, (!endsAuthority c) = true := by
    intro c hc
    have hends := hseen c (List.mem_append_left _ hc)
    have hne : c ≠ '\\' := fun he => hx (he ▸ hc)
    simp only [endsHostText, Bool.or_eq_false_iff, decide_eq_false_iff_not] at hends
    simp [endsAuthority, hends, hne]
  have hxne : x ≠ [] := by
    rintro rfl
    have hhead := List.head?_dropWhile_not isSlash (h.filter (!isRemoved ·))
    rw [show (h.filter (!isRemoved ·)).dropWhile isSlash = '\\' :: y from hxy] at hhead
    simp [isSlash] at hhead
  have hxhead : ∀ c, x.head? = some c → isSlash c = false := by
    intro c hc
    have hin : c ∈ x := List.mem_of_mem_head? hc
    have hends := hxend c hin
    simp only [endsAuthority, Bool.not_eq_true', Bool.or_eq_false_iff] at hends
    simp [isSlash, hends.1.1.1, hends.1.1.2]
  have hdrop : (clean (h ++ (p ++ r))).dropWhile isSlash =
      x ++ '\\' :: (y' ++ (z ++ clean r)) := by
    rw [hclean, List.append_assoc, List.dropWhile_append_of_pos
      (fun c hc => List.mem_takeWhile_imp hc)]
    cases x with
    | nil => exact absurd rfl hxne
    | cons c x =>
      rw [List.cons_append, List.dropWhile_cons_of_neg (by simp [hxhead c rfl])]
  obtain ⟨htake, hdropped⟩ := Text.takeWhile_append (f := (!endsAuthority ·)) hxend
    (t := '\\' :: (y' ++ (z ++ clean r))) (fun c hc => by cases hc; decide)
  refine ⟨'\\' :: (y' ++ z), ?_, ?_, ?_⟩
  · simp only [splitAuthority, hdrop, htake]
  · simp only [splitAuthority, hdrop, hdropped]
    simp
  · intro c hc
    have hends : endsHostText c = false := by
      cases hc with
      | head => decide
      | tail _ hc =>
        cases List.mem_append.mp hc with
        | inl hc => exact hseen c (by simp [hy' c hc])
        | inr hc =>
          cases hz with
          | inl hz => simp [hz] at hc
          | inr hz =>
            have := isPort_not_end hp c (hz ▸ hc)
            simp only [endsAuthority, Bool.or_eq_false_iff, decide_eq_false_iff_not] at this
            simp [endsHostText, this]
    simp only [endsHostText, Bool.or_eq_false_iff, decide_eq_false_iff_not] at hends
    exact ⟨hends.1.2, hends.2⟩

/-- A host text that a plausible host ends does not end in a blank. -/
theorem last_solid {h p : List Char} (hh : IsHostText h) (hp : IsPort p) (hne : p ≠ [])
    (hseen : seen h ≠ []) (hui : Anonymous (splitUserinfo (seen h ++ p)).1) {t : List Char}
    (hhost : Plausible (assemble (seen h ++ p) t).host) :
    ∀ c, (h.filter (!isRemoved ·)).getLast? = some c → isBlank c = false := by
  intro c hc
  have hlast : (seen h).getLast? = some c := by
    rw [← hc, ← List.takeWhile_append_dropWhile (p := isSlash) (l := h.filter (!isRemoved ·)),
      List.getLast?_append]
    have : ((h.filter (!isRemoved ·)).dropWhile isSlash).getLast? = some ((seen h).getLast hseen) :=
      List.getLast?_eq_some_getLast hseen
    rw [this]
    exact List.getLast?_eq_some_getLast hseen
  by_cases hat : c = '@'
  · subst hat
    decide
  · have hkept : c ∈ (splitUserinfo (seen h)).2 := by
      obtain ⟨s, hs⟩ := List.getLast?_eq_some_iff.mp hlast
      rw [hs]
      simp only [splitUserinfo]
      rw [rtakeWhile_append (by simpa using Ne.symm hat)]
      simp
    rw [assemble_host_port hh hp hne hui hhost hp t] at hhost
    exact hhost.solid c hkept

/-- Without a backslash, a port that leaves a plausible host and any other port are cut off alike. -/
theorem Cut.authority {h p p' r : List Char} (hc : Cut h p r) (hp' : IsPort p') (hne : p ≠ [])
    (hui : Anonymous (split (h ++ (p ++ r))).userinfo)
    (hhost : Plausible (split (h ++ (p ++ r))).host) (hslash : '\\' ∉ seen h) :
    splitAuthority (h ++ (p ++ r)) = (seen h ++ p, clean r) ∧
      splitAuthority (h ++ (p' ++ r)) = (seen h ++ p', clean r) := by
  have hclean := clean_cut (h := h) hc.port hc.rest (Or.inl hne)
  have hseen : seen h ≠ [] := by
    intro hnil
    refine hhost.nonempty ?_
    have hslashes : ∀ c ∈ h.filter (!isRemoved ·), isSlash c = true :=
      List.dropWhile_eq_nil_iff.mp hnil
    obtain ⟨digits, hp, -, -⟩ := hc.port.resolve_left hne
    have hdrop : (clean (h ++ (p ++ r))).dropWhile isSlash = p ++ clean r := by
      rw [hclean, List.dropWhile_append_of_pos hslashes, hp, List.cons_append,
        List.dropWhile_cons_of_neg (by decide)]
    have hall : ∀ c ∈ p, (!endsAuthority c) = true :=
      fun c hc' => by simp [isPort_not_end hc.port c hc']
    have htake := (Text.takeWhile_append (f := (!endsAuthority ·)) hall (t := clean r)
      (fun c hc' => by simp [endsAuthority_of (clean_head hc.rest c hc')])).1
    rw [split, assemble_host]
    simp only [splitAuthority, hdrop, htake, splitUserinfo,
      rtakeWhile_eq_self (isPort_no_at hc.port)]
    exact splitPort_isPort hc.port
  have hsplit := splitAuthority_plain hc.host hc.port hc.rest hslash hseen hclean
  rw [split, hsplit] at hui hhost
  exact ⟨hsplit, splitAuthority_plain hc.host hp' hc.rest hslash hseen
    (clean_cut_solid hp' hc.rest (last_solid hc.host hc.port hne hseen hui hhost))⟩

/-- **A port in the text.** Two accepted texts with one host text and rest have the same host and
query, and the same path unless the host text has a backslash behind its leading slashes. -/
theorem Cut.port_only {h p p' r : List Char} (hc : Cut h p r) (hp' : IsPort p') (hne : p ≠ [])
    (hui : Anonymous (split (h ++ (p ++ r))).userinfo)
    (hhost : Plausible (split (h ++ (p ++ r))).host) :
    (split (h ++ (p' ++ r))).host = (split (h ++ (p ++ r))).host ∧
      (split (h ++ (p' ++ r))).query = (split (h ++ (p ++ r))).query ∧
      ('\\' ∉ seen h → (split (h ++ (p' ++ r))).path = (split (h ++ (p ++ r))).path) := by
  by_cases hslash : '\\' ∈ seen h
  · obtain ⟨x, y, hxy, hx⟩ := split_first hslash
    obtain ⟨s, hauth, htail, hs⟩ := splitAuthority_backslash hc.host hc.port hc.rest hxy hx
    obtain ⟨s', hauth', htail', hs'⟩ := splitAuthority_backslash hc.host hp' hc.rest hxy hx
    refine ⟨?_, ?_, fun hno => absurd hslash hno⟩
    · rw [split, split, assemble_host, assemble_host, hauth, hauth']
    · rw [split, split, assemble_query, assemble_query, htail, htail', queryText_append hs,
        queryText_append hs']
  · obtain ⟨hsplit, hsplit'⟩ := hc.authority hp' hne hui hhost hslash
    rw [split, hsplit] at hui hhost
    refine ⟨?_, ?_, fun _ => ?_⟩
    · rw [split, split, hsplit, hsplit', assemble_host_port hc.host hc.port hne hui hhost hp',
        assemble_host_port hc.host hc.port hne hui hhost hc.port]
    · rw [split, split, hsplit, hsplit']
      rfl
    · rw [split, split, hsplit, hsplit']
      rfl

/-- The text without its port determines the host text and the rest. -/
theorem Cut.unique {h p r h' p' r' : List Char} (hc : Cut h p r) (hc' : Cut h' p' r')
    (heq : h ++ r = h' ++ r') : h = h' ∧ r = r' := by
  have htake := Text.takeWhile_append (f := (!endsHostText ·)) (s := h) (t := r)
    (fun c hin => by simp [hc.host.1 c hin]) (fun c hin => by simp [hc.rest c hin])
  have htake' := Text.takeWhile_append (f := (!endsHostText ·)) (s := h') (t := r')
    (fun c hin => by simp [hc'.host.1 c hin]) (fun c hin => by simp [hc'.rest c hin])
  rw [heq] at htake
  exact ⟨htake.1.symm.trans htake'.1, htake.2.symm.trans htake'.2⟩

/-! ## A host alone -/

/-- A host text from which the parser takes nothing away. -/
structure IsHost (h : List Char) : Prop where
  shape : ':' ∉ h ∧ '[' ∉ h ∨ ∃ x, h = '[' :: x ++ [']'] ∧ ']' ∉ x
  whole : ∀ c ∈ h, isBlank c = false ∧ endsAuthority c = false ∧ c ≠ '@'
  nonempty : h ≠ []

theorem splitPort_unbracketed {k p : List Char} (hcolon : ':' ∉ k) (hopen : '[' ∉ k)
    (hp : IsPort p) : splitPort false (k ++ p) = (k, after p) := by
  induction k with
  | nil => exact splitPort_some hp
  | cons c k ih =>
    have hc : c ≠ ':' := fun hc => hcolon (by simp [hc])
    have hc' : c ≠ '[' := fun hc => hopen (by simp [hc])
    have ih := ih (fun hin => hcolon (List.mem_cons_of_mem c hin))
      (fun hin => hopen (List.mem_cons_of_mem c hin))
    simp [splitPort, hc, hc', ih]

namespace IsHost

variable {h p r : List Char}

theorem isHostText (hh : IsHost h) : IsHostText h := by
  refine ⟨fun c hc => ?_, hh.shape.imp_left fun hplain => ⟨hplain.1, fun hopen => ?_⟩⟩
  · have hends := (hh.whole c hc).2.1
    simp only [endsAuthority, Bool.or_eq_false_iff] at hends
    simp [endsHostText, hends.1.1.1, hends.1.2, hends.2]
  · exact hplain.2 (List.mem_of_mem_head? hopen)

theorem splitPort (hh : IsHost h) (hp : IsPort p) :
    HttpUrl.splitPort false (h ++ p) = (h, after p) := by
  obtain ⟨hcolon, hopen⟩ | ⟨x, rfl, hx⟩ := hh.shape
  · exact splitPort_unbracketed hcolon hopen hp
  · exact splitPort_bracketed hx hp

theorem seen (hh : IsHost h) : HttpUrl.seen h = h := by
  rw [HttpUrl.seen, filter_solid fun c hc => (hh.whole c hc).1]
  obtain ⟨c, h, rfl⟩ := List.exists_cons_of_ne_nil hh.nonempty
  have hends := (hh.whole c List.mem_cons_self).2.1
  simp only [endsAuthority, Bool.or_eq_false_iff] at hends
  exact List.dropWhile_cons_of_neg (by simp [isSlash, hends.1.1.1, hends.1.1.2])

/-- The parts of a host with a port and a rest. -/
theorem split (hh : IsHost h) (hp : IsPort p)
    (hr : ∀ c, r.head? = some c → endsHostText c = true) :
    (HttpUrl.split (h ++ (p ++ r))).userinfo = none ∧ (HttpUrl.split (h ++ (p ++ r))).host = h ∧
      (HttpUrl.split (h ++ (p ++ r))).port = after p ∧
      (HttpUrl.split (h ++ (p ++ r))).fragment = after ((clean r).dropWhile (· ≠ '#')) := by
  have hsolid : ∀ c ∈ h, isBlank c = false := fun c hc => (hh.whole c hc).1
  have hslash : '\\' ∉ HttpUrl.seen h := by
    rw [hh.seen]
    intro hin
    have hends := (hh.whole _ hin).2.1
    revert hends
    decide
  have hclean : clean (h ++ (p ++ r)) = h.filter (!isRemoved ·) ++ (p ++ clean r) := by
    rw [clean_solid hsolid, clean_solid (isPort_solid hp), filter_solid hsolid]
  have hat : '@' ∉ h ++ p := by
    rw [List.mem_append, not_or]
    exact ⟨fun hin => (hh.whole _ hin).2.2 rfl, isPort_no_at hp⟩
  have hseen : HttpUrl.seen h ≠ [] := by
    rw [hh.seen]
    exact hh.nonempty
  have huserinfo : splitUserinfo (h ++ p) = (none, h ++ p) := by
    rw [splitUserinfo, if_neg hat, rtakeWhile_eq_self hat]
  rw [HttpUrl.split, splitAuthority_plain hh.isHostText hp hr hslash hseen hclean, hh.seen]
  simp only [assemble, huserinfo, hh.splitPort hp, and_self]

end IsHost

/-- The characters of domain names and addresses. -/
def isHostChar (c : Char) : Bool := c.isAlphanum || c = '.' || c = ':'

theorem isHostChar_whole {c : Char} (h : isHostChar c = true) :
    isBlank c = false ∧ endsAuthority c = false ∧ c ≠ '@' := by
  refine ⟨?_, ?_, Text.ne_of_test h (by decide)⟩
  · simp only [isHostChar, Bool.or_eq_true, decide_eq_true_eq, Ascii.isAlphanum_iff] at h
    obtain (h | rfl) | rfl := h
    · simp [isBlank, UInt32.le_iff_toNat_le]
      omega
    · decide
    · decide
  · simp [endsAuthority, Text.ne_of_test h (b := '/') (by decide),
      Text.ne_of_test h (b := '\\') (by decide), Text.ne_of_test h (b := '?') (by decide),
      Text.ne_of_test h (b := '#') (by decide)]

/-- A domain name or an address, with a bracketed one where it has colons. -/
def IsAddress (h : List Char) : Prop :=
  (∀ c ∈ h, isHostChar c = true) ∧ ':' ∉ h ∨
    ∃ x, h = '[' :: x ++ [']'] ∧ ∀ c ∈ x, isHostChar c = true

theorem IsAddress.mem {h : List Char} (ha : IsAddress h) {c : Char} (hc : c ∈ h) :
    isHostChar c = true ∨ c = '[' ∨ c = ']' := by
  obtain ⟨hall, -⟩ | ⟨x, rfl, hall⟩ := ha
  · exact .inl (hall c hc)
  · simp only [List.cons_append, List.mem_cons, List.mem_append, List.not_mem_nil, or_false] at hc
    obtain rfl | hc | rfl := hc
    · exact .inr (.inl rfl)
    · exact .inl (hall c hc)
    · exact .inr (.inr rfl)

theorem IsAddress.isHost {h : List Char} (ha : IsAddress h) (hne : h ≠ []) : IsHost h := by
  refine ⟨?_, fun c hc => ?_, hne⟩
  · obtain ⟨hall, hcolon⟩ | ⟨x, rfl, hall⟩ := ha
    · exact .inl ⟨hcolon, fun hin => Text.ne_of_test (hall _ hin) (by decide) rfl⟩
    · exact .inr ⟨x, rfl, fun hin => Text.ne_of_test (hall _ hin) (by decide) rfl⟩
  · obtain hchar | rfl | rfl := ha.mem hc
    · exact isHostChar_whole hchar
    · decide
    · decide

/-! ## A text without its port -/

/-- The fragment of the text after an authority. -/
def fragmentText (tail : List Char) : Option (List Char) := after (tail.dropWhile (· ≠ '#'))

theorem assemble_fragment (authority tail : List Char) :
    (assemble authority tail).fragment = fragmentText tail := rfl

theorem assemble_userinfo (authority tail : List Char) :
    (assemble authority tail).userinfo = (splitUserinfo authority).1 := rfl

theorem assemble_port (authority tail : List Char) :
    (assemble authority tail).port = (splitPort false (splitUserinfo authority).2).2 := rfl

theorem fragmentText_append {s tail : List Char} (h : ∀ c ∈ s, c ≠ '?' ∧ c ≠ '#') :
    fragmentText (s ++ tail) = fragmentText tail := by
  rw [fragmentText, List.dropWhile_append_of_pos (by simpa using fun c hc => (h c hc).2)]
  rfl

theorem splitUserinfo_append {k p : List Char} (hp : '@' ∉ p) :
    (splitUserinfo (k ++ p)).1 = (splitUserinfo k).1 := by
  have hdrop : (k ++ p).rdropWhile (· ≠ '@') = k.rdropWhile (· ≠ '@') := by
    rw [List.rdropWhile, List.reverse_append, List.dropWhile_append_of_pos (no_at_reverse hp)]
    rfl
  simp only [splitUserinfo, hdrop, List.mem_append, hp, or_false]

/-- Where the host text has no port, none is found. -/
theorem splitUserinfo_no_port {h : List Char} (hh : IsHostText h)
    (hui : Anonymous (splitUserinfo (seen h)).1) :
    (splitPort false (splitUserinfo (seen h)).2).2 = none := by
  obtain hplain | ⟨x, rfl, hx⟩ := hh.2
  · rw [splitPort_plain (seen_no_colon hplain.1)]
  · rw [seen_bracketed] at hui ⊢
    have hself : (splitUserinfo ('[' :: x.filter (!isRemoved ·) ++ [']'])).2 =
        '[' :: x.filter (!isRemoved ·) ++ [']'] := rtakeWhile_eq_self (anonymous_bracketed hui)
    have hnone : ']' ∉ x.filter (!isRemoved ·) := fun hin => hx (List.mem_filter.mp hin).1
    have hport := splitPort_bracketed hnone (p := []) (.inl rfl)
    rw [List.append_nil] at hport
    rw [hself, hport]
    rfl

/-- **A port taken out of the text.** What stays is the user name and the fragment; a port that is
left was left of a backslash, and is the same. -/
theorem Cut.port_removed {h p r : List Char} (hc : Cut h p r) (hne : p ≠ [])
    (hui : Anonymous (split (h ++ (p ++ r))).userinfo)
    (hhost : Plausible (split (h ++ (p ++ r))).host) :
    (split (h ++ ([] ++ r))).userinfo = (split (h ++ (p ++ r))).userinfo ∧
      (split (h ++ ([] ++ r))).fragment = (split (h ++ (p ++ r))).fragment ∧
      ((split (h ++ ([] ++ r))).port = (split (h ++ (p ++ r))).port ∨
        (split (h ++ ([] ++ r))).port = none) := by
  have hnil : IsPort [] := .inl rfl
  by_cases hslash : '\\' ∈ seen h
  · obtain ⟨x, y, hxy, hx⟩ := split_first hslash
    obtain ⟨s, hauth, htail, hs⟩ := splitAuthority_backslash hc.host hc.port hc.rest hxy hx
    obtain ⟨s', hauth', htail', hs'⟩ := splitAuthority_backslash hc.host hnil hc.rest hxy hx
    refine ⟨?_, ?_, .inl ?_⟩
    · rw [split, split, assemble_userinfo, assemble_userinfo, hauth, hauth']
    · rw [split, split, assemble_fragment, assemble_fragment, htail, htail', fragmentText_append hs,
        fragmentText_append hs']
    · rw [split, split, assemble_port, assemble_port, hauth, hauth']
  · obtain ⟨hsplit, hsplit'⟩ := hc.authority hnil hne hui hhost hslash
    rw [split, hsplit, assemble_userinfo, splitUserinfo_append (isPort_no_at hc.port)] at hui
    rw [split, split, hsplit, hsplit', List.append_nil]
    refine ⟨?_, rfl, .inr (splitUserinfo_no_port hc.host hui)⟩
    rw [assemble_userinfo, assemble_userinfo, splitUserinfo_append (isPort_no_at hc.port)]

end HttpUrl
