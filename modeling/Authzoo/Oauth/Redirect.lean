import Authzoo.Oauth.Url

/-!
# Authzoo.Oauth.Redirect

Which redirect URIs a client may use (`client_metadata.rs`): a registered one, or for a native
client one that equals a registered loopback URI after the port is cut out of both texts.

`loopback_without_port` cuts the raw text at `/`, `?`, `#`, `:` and `]`, the URL parser also at a
backslash. `loopback_port_only_iff` says for which texts nothing but the port can differ.
-/

namespace Authzoo.Oauth

inductive ApplicationType where
  | web
  | native
  deriving DecidableEq

structure Client where
  clientId : String
  name : String
  redirectUris : List String
  cimd : Bool
  applicationType : ApplicationType
  deriving DecidableEq

section

variable (U : UrlCrate)

def validRedirect (uri : String) : Bool :=
  match U.parse uri with
  | none => false
  | some url =>
    let loopback := (url.host.map Host.isLoopback).getD false
    !Text.contains uri '*' && url.hostStr.isSome && url.fragment.isNone && url.username.isEmpty &&
      url.password.isNone && (url.scheme = "https" || (url.scheme = "http" && loopback))

/-- The authority cut behind a bracketed host or before the first `:`. -/
def splitHost : List Char → Option (List Char × List Char)
  | '[' :: authority =>
    match authority.dropWhile (· ≠ ']') with
    | [] => none
    | bracket :: port => some ('[' :: authority.takeWhile (· ≠ ']') ++ [bracket], port)
  | authority => some (authority.takeWhile (· ≠ ':'), authority.dropWhile (· ≠ ':'))

def isPortText : List Char → Bool
  | [] => true
  | ':' :: number => !number.isEmpty && number.all Char.isDigit
  | _ => false

/-- `loopback_without_port` on the text after `http://`. -/
def removePort (remainder : List Char) : Option (List Char) :=
  let authority := remainder.takeWhile (!HttpUrl.endsHostText ·)
  let rest := remainder.dropWhile (!HttpUrl.endsHostText ·)
  match splitHost authority with
  | none => none
  | some (host, port) => if isPortText port then some (host ++ rest) else none

def loopbackWithoutPort (uri : String) : Option String :=
  if !validRedirect U uri then none
  else
    match (U.parse uri).bind Url.host with
    | none => none
    | some host =>
      if !host.isLoopback then none
      else
        match uri.toList.dropPrefix? "http://".toList with
        | none => none
        | some remainder => (removePort remainder).map fun text => .ofList ("http://".toList ++ text)

def Client.allowsRedirect (self : Client) (requested : String) : Bool :=
  self.redirectUris.any fun registered =>
    if registered = requested then true
    else if self.applicationType ≠ .native then false
    else
      match loopbackWithoutPort U registered, loopbackWithoutPort U requested with
      | some registered, some requested => registered = requested
      | _, _ => false

end

/-- What `valid_redirect` asks of a text. -/
structure IsRedirect (U : UrlCrate) (uri : String) : Prop where
  noWildcard : '*' ∉ uri.toList
  parsed : ∃ url, U.parse uri = some url ∧ url.hostStr.isSome ∧ url.fragment = none ∧
    url.username = "" ∧ url.password = none ∧
    (url.scheme = "https" ∨
      url.scheme = "http" ∧ ∃ host, url.host = some host ∧ host.isLoopback = true)

theorem validRedirect_iff {U : UrlCrate} {uri : String} :
    validRedirect U uri = true ↔ IsRedirect U uri := by
  unfold validRedirect
  constructor
  · intro h
    split at h
    · cases h
    · rename_i url hparse
      simp only [Bool.and_eq_true, Bool.or_eq_true, Bool.not_eq_true', decide_eq_true_eq,
        Option.isNone_iff_eq_none, String.isEmpty_iff] at h
      obtain ⟨⟨⟨⟨⟨hwild, hhost⟩, hfragment⟩, husername⟩, hpassword⟩, hscheme⟩ := h
      refine ⟨by simpa [Text.contains] using hwild, url, hparse, hhost, hfragment, husername,
        hpassword, hscheme.imp id (And.imp id fun hloop => ?_)⟩
      cases hurl : url.host with
      | none => simp [hurl] at hloop
      | some host => exact ⟨host, rfl, by simpa [hurl] using hloop⟩
  · rintro ⟨hwild, url, hparse, hhost, hfragment, husername, hpassword, hscheme⟩
    rw [hparse]
    obtain hscheme | ⟨hscheme, host, hurl, hloop⟩ := hscheme
    · simp [Text.contains, hwild, hhost, hfragment, husername, hpassword, hscheme]
    · simp [Text.contains, hwild, hhost, hfragment, husername, hpassword, hscheme, hurl, hloop]

/-! ## What the cut says -/

theorem isPort_of_isPortText {p : List Char} (h : isPortText p = true) : HttpUrl.IsPort p := by
  unfold isPortText at h
  split at h
  · exact Or.inl rfl
  · rename_i number
    simp only [Bool.and_eq_true, Bool.not_eq_true', List.all_eq_true] at h
    exact Or.inr ⟨number, rfl, by simpa [List.isEmpty_iff] using h.1, h.2⟩
  · cases h

theorem splitHost_some {authority host port : List Char}
    (h : splitHost authority = some (host, port)) : authority = host ++ port ∧
      (':' ∉ host ∧ host.head? ≠ some '[' ∨ ∃ x, host = '[' :: x ++ [']'] ∧ ']' ∉ x) := by
  unfold splitHost at h
  split at h
  · rename_i authority
    split at h
    · cases h
    · rename_i bracket port' hdrop
      simp only [Option.some.injEq, Prod.mk.injEq] at h
      obtain ⟨rfl, rfl⟩ := h
      have hsplit : authority.takeWhile (· ≠ ']') ++ authority.dropWhile (· ≠ ']') = authority :=
        List.takeWhile_append_dropWhile
      have hbracket : bracket = ']' := by
        have hnot := List.head?_dropWhile_not (fun c => decide (c ≠ ']')) authority
        rw [hdrop] at hnot
        simpa using hnot
      rw [hdrop, hbracket] at hsplit
      subst hbracket
      refine ⟨by simpa using hsplit.symm, Or.inr ⟨_, rfl, fun hin => ?_⟩⟩
      have := List.mem_takeWhile_imp hin
      simp at this
  · rename_i hhead
    simp only [Option.some.injEq, Prod.mk.injEq] at h
    obtain ⟨rfl, rfl⟩ := h
    refine ⟨List.takeWhile_append_dropWhile.symm, Or.inl ⟨fun hin => ?_, fun hbracket => ?_⟩⟩
    · have := List.mem_takeWhile_imp hin
      simp at this
    · cases authority with
      | nil => cases hbracket
      | cons c authority =>
        rw [List.takeWhile_cons] at hbracket
        split at hbracket
        · simp only [List.head?_cons, Option.some.injEq] at hbracket
          exact hhead authority (by rw [hbracket])
        · cases hbracket

/-- What is left without the port, and how the text was cut. -/
theorem removePort_some {remainder text : List Char} (h : removePort remainder = some text) :
    ∃ host port rest, HttpUrl.Cut host port rest ∧ remainder = host ++ (port ++ rest) ∧
      text = host ++ rest := by
  simp only [removePort] at h
  split at h
  · cases h
  · rename_i host port hsplit
    obtain ⟨hport, htext⟩ := Option.ite_none_right_eq_some.mp h
    obtain ⟨hauth, hshape⟩ := splitHost_some hsplit
    have hall : ∀ c ∈ host, HttpUrl.endsHostText c = false := by
      intro c hc
      have hin : c ∈ remainder.takeWhile (!HttpUrl.endsHostText ·) := by
        rw [hauth]
        exact List.mem_append_left _ hc
      simpa using List.mem_takeWhile_imp hin
    refine ⟨host, port, _, ⟨⟨hall, hshape⟩, isPort_of_isPortText hport, ?_⟩, ?_,
      (Option.some.inj htext).symm⟩
    · intro c hc
      have hnot := List.head?_dropWhile_not (!HttpUrl.endsHostText ·) remainder
      rw [hc] at hnot
      simpa using hnot
    · rw [← List.append_assoc, ← hauth]
      exact List.takeWhile_append_dropWhile.symm

/-- The text behind `http://`. -/
def remainderOf (uri : String) : List Char := uri.toList.drop 7

theorem remainderOf_http (rest : List Char) :
    remainderOf (.ofList ("http://".toList ++ rest)) = rest := by
  rw [remainderOf, String.toList_ofList]
  rfl

/-- A text over `http` with host text, port and rest. -/
def httpText (h p r : List Char) : String := .ofList ("http://".toList ++ (h ++ (p ++ r)))

theorem httpText_toList (h p r : List Char) :
    (httpText h p r).toList = "http://".toList ++ (h ++ (p ++ r)) :=
  String.toList_ofList

theorem remainderOf_httpText (h p r : List Char) : remainderOf (httpText h p r) = h ++ (p ++ r) := by
  rw [remainderOf, httpText_toList]
  rfl

/-- A valid redirect to a loopback host over `http`, with its parsed form and its cut. -/
structure LoopbackRedirect (U : UrlCrate) (uri : String) (url : Url) (h p r : List Char) : Prop where
  valid : validRedirect U uri = true
  parsed : U.parse uri = some url
  loopback : ∃ host, url.host = some host ∧ host.isLoopback = true
  cut : HttpUrl.Cut h p r
  text : uri = httpText h p r

theorem loopbackWithoutPort_some {U : UrlCrate} {uri text : String}
    (h : loopbackWithoutPort U uri = some text) :
    ∃ url host port rest, LoopbackRedirect U uri url host port rest ∧
      text = .ofList ("http://".toList ++ (host ++ rest)) := by
  unfold loopbackWithoutPort at h
  rw [Option.ite_none_left_eq_some] at h
  obtain ⟨hvalid, h⟩ := h
  cases hhost : (U.parse uri).bind Url.host with
  | none =>
    rw [hhost] at h
    cases h
  | some host =>
    obtain ⟨url, hparse, hurl⟩ := Option.bind_eq_some_iff.mp hhost
    simp only [hhost, Option.ite_none_left_eq_some] at h
    obtain ⟨hloop, h⟩ := h
    cases hdrop : uri.toList.dropPrefix? "http://".toList with
    | none =>
      rw [hdrop] at h
      cases h
    | some remainder =>
      rw [hdrop] at h
      obtain ⟨without, hport, rfl⟩ := Option.map_eq_some_iff.mp h
      obtain ⟨h', p, r, hcut, hrem, rfl⟩ := removePort_some hport
      refine ⟨url, h', p, r, ⟨by simpa using hvalid, hparse, ⟨host, hurl, by simpa using hloop⟩,
        hcut, ?_⟩, rfl⟩
      unfold httpText
      rw [← hrem, ← Text.dropPrefix_eq_some.mp hdrop, String.ofList_toList]

namespace LoopbackRedirect

variable {U : UrlCrate} {uri : String} {url : Url} {h p r : List Char}

theorem valid_parts (hl : LoopbackRedirect U uri url h p r) :
    url.fragment = none ∧ url.username = "" ∧ url.password = none := by
  obtain ⟨url', hparse, -, hfragment, husername, hpassword, -⟩ :=
    (validRedirect_iff.mp hl.valid).parsed
  obtain rfl := Option.some.inj (hl.parsed.symm.trans hparse)
  exact ⟨hfragment, husername, hpassword⟩

theorem parsed_http (hl : LoopbackRedirect U uri url h p r) (hU : U.Whatwg) :
    U.http (h ++ (p ++ r)) = some url := by
  have hparsed := hl.parsed
  rw [hl.text] at hparsed
  exact (hU.http _).symm.trans hparsed

theorem scheme (hl : LoopbackRedirect U uri url h p r) (hU : U.Whatwg) : url.scheme = "http" :=
  (UrlCrate.http_some (hl.parsed_http hU)).1

end LoopbackRedirect

theorem authority_not_end {h p r : List Char} (hc : HttpUrl.Cut h p r) :
    ∀ c ∈ h ++ p, (!HttpUrl.endsHostText c) = true := by
  intro c hin
  cases List.mem_append.mp hin with
  | inl hin => simp [hc.host.1 c hin]
  | inr hin =>
    have := HttpUrl.isPort_not_end hc.port c hin
    simp only [HttpUrl.endsAuthority, Bool.or_eq_false_iff] at this
    simp [HttpUrl.endsHostText, this]

/-- A backslash in the authority text, behind its leading slashes. -/
def backslashInAuthority (uri : String) : Bool :=
  (HttpUrl.seen ((remainderOf uri).takeWhile (!HttpUrl.endsHostText ·))).contains '\\'

theorem backslashInAuthority_cut {h p r : List Char} (hc : HttpUrl.Cut h p r)
    (hno : backslashInAuthority (httpText h p r) = false) :
    '\\' ∉ HttpUrl.seen h := by
  have htake := (Text.takeWhile_append (authority_not_end hc) (t := r)
    (fun c hin => by simp [hc.rest c hin])).1
  rw [backslashInAuthority, remainderOf_httpText, ← List.append_assoc, htake] at hno
  intro hin
  have hne : (h.filter (!HttpUrl.isRemoved ·)).dropWhile HttpUrl.isSlash ≠ [] :=
    List.ne_nil_of_mem hin
  have : '\\' ∈ HttpUrl.seen (h ++ p) := by
    rw [HttpUrl.seen, List.filter_append, HttpUrl.dropWhile_append hne]
    exact List.mem_append_left _ hin
  simp [this] at hno

/-! ## Two texts with one port-free text -/

/-- Two loopback redirects over `http` that agree in every component but the port. -/
def DifferInPortOnly (U : UrlCrate) (u r : String) : Prop :=
  ∃ a b, U.parse u = some a ∧ U.parse r = some b ∧ a.scheme = "http" ∧ b.scheme = "http" ∧
    (∃ host, a.host = some host ∧ host.isLoopback = true) ∧
    (∃ host, b.host = some host ∧ host.isLoopback = true) ∧
    a.hostPart = b.hostPart ∧ a.path = b.path ∧ a.query = b.query ∧ a.fragment = none ∧
    b.fragment = none

/-- Of two valid texts, the one with a port fixes what the parser takes for the host, the query and,
without a backslash, the path. -/
theorem same_parts_of_port {U : UrlCrate} (hU : U.Whatwg) {u : String} {a : Url} {h p q r : List Char}
    (hu : LoopbackRedirect U u a h p r) (hq : HttpUrl.IsPort q) (hp : p ≠ []) :
    (HttpUrl.split (h ++ (q ++ r))).host = (HttpUrl.split (h ++ (p ++ r))).host ∧
      (HttpUrl.split (h ++ (q ++ r))).query = (HttpUrl.split (h ++ (p ++ r))).query ∧
      ('\\' ∉ HttpUrl.seen h →
        (HttpUrl.split (h ++ (q ++ r))).path = (HttpUrl.split (h ++ (p ++ r))).path) := by
  obtain ⟨-, hhost, hsome, -⟩ := UrlCrate.http_some (hu.parsed_http hU)
  obtain ⟨part, hpart⟩ := Option.isSome_iff_exists.mp hsome
  exact hu.cut.port_only hq hp
    (UrlCrate.http_anonymous hU (hu.parsed_http hU) hu.valid_parts.2.1)
    (hU.host _ part (hhost.symm.trans hpart))

theorem same_parts {U : UrlCrate} (hU : U.Whatwg) {u v : String} {a b : Url} {h p q r : List Char}
    (hu : LoopbackRedirect U u a h p r) (hv : LoopbackRedirect U v b h q r) :
    (HttpUrl.split (h ++ (q ++ r))).host = (HttpUrl.split (h ++ (p ++ r))).host ∧
      (HttpUrl.split (h ++ (q ++ r))).query = (HttpUrl.split (h ++ (p ++ r))).query ∧
      ('\\' ∉ HttpUrl.seen h →
        (HttpUrl.split (h ++ (q ++ r))).path = (HttpUrl.split (h ++ (p ++ r))).path) := by
  by_cases hp : p = []
  · by_cases hq : q = []
    · rw [hp, hq]
      exact ⟨rfl, rfl, fun _ => rfl⟩
    · obtain ⟨hhost, hquery, hpath⟩ := same_parts_of_port hU hv hu.cut.port hq
      exact ⟨hhost.symm, hquery.symm, fun hslash => (hpath hslash).symm⟩
  · exact same_parts_of_port hU hu hv.cut.port hp

theorem same_host {U : UrlCrate} (hU : U.Whatwg) {u v text : String}
    (hu : loopbackWithoutPort U u = some text) (hv : loopbackWithoutPort U v = some text) :
    ∃ a b h p q r, LoopbackRedirect U u a h p r ∧ LoopbackRedirect U v b h q r ∧
      a.hostPart = b.hostPart ∧ a.query = b.query := by
  obtain ⟨a, h, p, r, hu, htext⟩ := loopbackWithoutPort_some hu
  obtain ⟨b, h', q, r', hv, htext'⟩ := loopbackWithoutPort_some hv
  have heq : h ++ r = h' ++ r' := by
    have := congrArg remainderOf (htext.symm.trans htext')
    rwa [remainderOf_http, remainderOf_http] at this
  obtain ⟨rfl, rfl⟩ := hu.cut.unique hv.cut heq
  obtain ⟨-, hahost, -, -, -, haquery⟩ := UrlCrate.http_some (hu.parsed_http hU)
  obtain ⟨-, hbhost, -, -, -, hbquery⟩ := UrlCrate.http_some (hv.parsed_http hU)
  obtain ⟨hhost, hquery, -⟩ := same_parts hU hu hv
  exact ⟨a, b, h, p, q, r, hu, hv, by rw [hahost, hbhost, hhost], by rw [haquery, hbquery, hquery]⟩

theorem allowsRedirect_iff {U : UrlCrate} {client : Client} {requested : String} :
    client.allowsRedirect U requested = true ↔ requested ∈ client.redirectUris ∨
      client.applicationType = .native ∧ ∃ registered ∈ client.redirectUris,
        ∃ text, loopbackWithoutPort U registered = some text ∧
          loopbackWithoutPort U requested = some text := by
  simp only [Client.allowsRedirect, List.any_eq_true]
  constructor
  · rintro ⟨registered, hin, h⟩
    split at h
    · rename_i heq
      exact Or.inl (heq ▸ hin)
    · split at h
      · cases h
      · rename_i hnative
        split at h
        · rename_i text text' hr hu
          have htext : text = text' := by simpa using h
          exact Or.inr ⟨by simpa using hnative, registered, hin, text, hr, htext ▸ hu⟩
        · cases h
  · rintro (hin | ⟨hnative, registered, hin, text, hr, hu⟩)
    · exact ⟨requested, hin, by simp⟩
    · exact ⟨registered, hin, by simp [hnative, hr, hu]⟩

/-! ## Which texts keep the promise -/

theorem isPortText_of_isPort {p : List Char} (h : HttpUrl.IsPort p) : isPortText p = true := by
  cases h with
  | inl h =>
    subst h
    rfl
  | inr h =>
    obtain ⟨digits, rfl, hne, hdigit⟩ := h
    simpa [isPortText, hne] using hdigit

theorem splitHost_cut {h p : List Char} (hh : HttpUrl.IsHostText h) (hp : HttpUrl.IsPort p) :
    splitHost (h ++ p) = some (h, p) := by
  cases hh.2 with
  | inl hplain =>
    obtain ⟨hcolon, hbracket⟩ := hplain
    have hall : ∀ c ∈ h, decide (c ≠ ':') = true := by
      intro c hc
      have : c ≠ ':' := fun he => hcolon (he ▸ hc)
      simpa using this
    have hhead : ∀ c, p.head? = some c → decide (c ≠ ':') = false := by
      intro c hc
      cases hp with
      | inl hp =>
        subst hp
        cases hc
      | inr hp =>
        obtain ⟨digits, rfl, -⟩ := hp
        simpa using hc.symm
    obtain ⟨htake, hdrop⟩ := Text.takeWhile_append hall hhead
    unfold splitHost
    split
    · rename_i authority heq
      cases h with
      | nil =>
        -- a port does not start with a bracket
        cases hp with
        | inl hp =>
          subst hp
          cases heq
        | inr hp =>
          obtain ⟨digits, rfl, -⟩ := hp
          simp at heq
      | cons c h =>
        simp only [List.cons_append, List.cons.injEq] at heq
        exact absurd (by rw [heq.1]; rfl) hbracket
    · rw [htake, hdrop]
  | inr hclosed =>
    obtain ⟨x, rfl, hx⟩ := hclosed
    have hall : ∀ c ∈ x, decide (c ≠ ']') = true := by
      intro c hc
      have : c ≠ ']' := fun he => hx (he ▸ hc)
      simpa using this
    obtain ⟨htake, hdrop⟩ := Text.takeWhile_append hall (t := ']' :: p)
      (fun c hc => by simpa using hc.symm)
    simp only [List.cons_append, List.append_assoc, List.nil_append, splitHost, hdrop, htake]

theorem removePort_cut {h p r : List Char} (hc : HttpUrl.Cut h p r) :
    removePort (h ++ (p ++ r)) = some (h ++ r) := by
  obtain ⟨htake, hdrop⟩ := Text.takeWhile_append (authority_not_end hc) (t := r)
    (fun c hin => by simp [hc.rest c hin])
  rw [← List.append_assoc, removePort]
  simp only [htake, hdrop, splitHost_cut hc.host hc.port, isPortText_of_isPort hc.port, if_true]

theorem LoopbackRedirect.of_valid {U : UrlCrate} (hU : U.Whatwg) {h p r : List Char}
    (hc : HttpUrl.Cut h p r) (hv : validRedirect U (httpText h p r) = true) :
    ∃ url, LoopbackRedirect U (httpText h p r) url h p r := by
  obtain ⟨url, hparse, -, -, -, -, hscheme⟩ := (validRedirect_iff.mp hv).parsed
  have hhttp := (UrlCrate.http_some ((hU.http _).symm.trans hparse)).1
  obtain ⟨-, hloop⟩ := hscheme.resolve_left (by rw [hhttp]; decide)
  exact ⟨url, hv, hparse, hloop, hc, rfl⟩

theorem loopbackWithoutPort_httpText {U : UrlCrate} (hU : U.Whatwg) {h p r : List Char}
    (hc : HttpUrl.Cut h p r) (hv : validRedirect U (httpText h p r) = true) :
    loopbackWithoutPort U (httpText h p r) = some (.ofList ("http://".toList ++ (h ++ r))) := by
  obtain ⟨url, hl⟩ := LoopbackRedirect.of_valid hU hc hv
  obtain ⟨host, hhost, hloop⟩ := hl.loopback
  have htext : (httpText h p r).toList.dropPrefix? "http://".toList = some (h ++ (p ++ r)) :=
    Text.dropPrefix_eq_some.mpr (httpText_toList h p r)
  simp only [loopbackWithoutPort, hv, hl.parsed, hhost, hloop, htext, removePort_cut hc,
    Option.bind_some, Option.map_some, Bool.not_true, Bool.false_eq_true, if_false]

/-- The text that the parser reads the path of comes to the same path whatever port stands in it. -/
def PortLeavesPath (U : UrlCrate) (u : String) : Prop :=
  ∀ h p q r, HttpUrl.Cut h p r → HttpUrl.IsPort q → u = httpText h p r →
    validRedirect U u = true → validRedirect U (httpText h q r) = true →
    U.parsePath (HttpUrl.split (h ++ (q ++ r))).path =
      U.parsePath (HttpUrl.split (h ++ (p ++ r))).path

/-- Without a backslash the port is no part of that text. -/
theorem portLeavesPath_of_plain {U : UrlCrate} (hU : U.Whatwg) {u : String}
    (hplain : backslashInAuthority u = false) : PortLeavesPath U u := by
  intro h p q r hc hq hu hvalid hvalid'
  subst hu
  obtain ⟨a, ha⟩ := LoopbackRedirect.of_valid hU hc hvalid
  obtain ⟨b, hb⟩ := LoopbackRedirect.of_valid hU ⟨hc.host, hq, hc.rest⟩ hvalid'
  rw [(same_parts hU ha hb).2.2 (backslashInAuthority_cut hc hplain)]

/-- What a native client may use beyond its registered texts differs from one of them in the port
only. -/
def PortOnly (U : UrlCrate) (u : String) : Prop :=
  ∀ client : Client, client.applicationType = .native → client.allowsRedirect U u = true →
    u ∉ client.redirectUris → ∃ r ∈ client.redirectUris, DifferInPortOnly U u r

theorem portOnly_of_leaves {U : UrlCrate} (hU : U.Whatwg) {u : String} (h : PortLeavesPath U u) :
    PortOnly U u := by
  intro client hnative hallowed hnew
  obtain ⟨-, registered, hin, text, hr, hu⟩ := (allowsRedirect_iff.mp hallowed).resolve_left hnew
  obtain ⟨a, b, host, p, q, r, ha, hb, hhost, hquery⟩ := same_host hU hu hr
  obtain ⟨-, -, -, -, hapath, -⟩ := UrlCrate.http_some (ha.parsed_http hU)
  obtain ⟨-, -, -, -, hbpath, -⟩ := UrlCrate.http_some (hb.parsed_http hU)
  have hpath := h host p q r ha.cut hb.cut.port ha.text ha.valid (hb.text ▸ hb.valid)
  exact ⟨registered, hin, a, b, ha.parsed, hb.parsed, ha.scheme hU, hb.scheme hU, ha.loopback,
    hb.loopback, hhost, by rw [hapath, hbpath, hpath], hquery, ha.valid_parts.1, hb.valid_parts.1⟩

/-- A text without a backslash in its authority keeps the promise. -/
theorem portOnly_of_plain {U : UrlCrate} (hU : U.Whatwg) {u : String}
    (hplain : backslashInAuthority u = false) : PortOnly U u :=
  portOnly_of_leaves hU (portLeavesPath_of_plain hU hplain)

/-- **The port only.** What a native client may use beyond its registered texts differs from one
of them in the port only, for exactly the texts in which no port changes the path; in particular for
those whose authority has no backslash. -/
theorem loopback_port_only_iff {U : UrlCrate} (hU : U.Whatwg) (u : String) :
    (PortOnly U u ↔ PortLeavesPath U u) ∧ (backslashInAuthority u = false → PortOnly U u) := by
  refine ⟨⟨?_, portOnly_of_leaves hU⟩, portOnly_of_plain hU⟩
  intro hall h p q r hc hq hu hvalid hvalid'
  subst hu
  by_cases hne : httpText h q r = httpText h p r
  · have hrest := congrArg remainderOf hne
    rw [remainderOf_httpText, remainderOf_httpText] at hrest
    rw [hrest]
  obtain ⟨registered, hin, hdiffer⟩ := hall
    ⟨"", "", [httpText h q r], true, .native⟩ rfl
    (allowsRedirect_iff.mpr (Or.inr ⟨rfl, _, List.mem_singleton_self _, _,
      loopbackWithoutPort_httpText hU ⟨hc.host, hq, hc.rest⟩ hvalid',
      loopbackWithoutPort_httpText hU hc hvalid⟩))
    (fun hin => hne (List.mem_singleton.mp hin).symm)
  obtain rfl := List.mem_singleton.mp hin
  obtain ⟨a, b, ha, hb, -, -, -, -, -, hpath, -⟩ := hdiffer
  obtain ⟨-, -, -, -, hapath, -⟩ := UrlCrate.http_some ((hU.http _).symm.trans ha)
  obtain ⟨-, -, -, -, hbpath, -⟩ := UrlCrate.http_some ((hU.http _).symm.trans hb)
  exact (hbpath.symm.trans hpath.symm).trans hapath

/-- A crate that knows no scheme but `http`. -/
def localCrate : UrlCrate := .sample fun _ => none

theorem localCrate_whatwg : localCrate.Whatwg := UrlCrate.sample_whatwg _

def nativeClient (redirectUri : String) : Client :=
  ⟨"https://client.example/metadata", "Example", [redirectUri], true, .native⟩

theorem loopback_port_only_iff_plain :
    ∃ r ∈ (nativeClient "http://127.0.0.1/cb").redirectUris,
      DifferInPortOnly localCrate "http://127.0.0.1:8080/cb" r :=
  (loopback_port_only_iff localCrate_whatwg "http://127.0.0.1:8080/cb").2 (by decide)
    (nativeClient "http://127.0.0.1/cb") rfl (by decide) (by decide)

/-- A backslash ends the host for the parser only, so the port becomes part of the path. -/
theorem loopback_port_in_path :
    localCrate.Whatwg ∧
    (nativeClient "http://127.0.0.1\\cb").allowsRedirect localCrate "http://127.0.0.1\\cb:80" =
      true ∧
    "http://127.0.0.1\\cb:80" ∉ (nativeClient "http://127.0.0.1\\cb").redirectUris ∧
    ¬ ∃ r ∈ (nativeClient "http://127.0.0.1\\cb").redirectUris,
      DifferInPortOnly localCrate "http://127.0.0.1\\cb:80" r := by
  refine ⟨localCrate_whatwg, by decide, by decide, ?_⟩
  rintro ⟨r, hr, hdiffer⟩
  obtain rfl := List.mem_singleton.mp hr
  obtain ⟨a, b, ha, hb, -, -, -, -, -, hpath, -⟩ := hdiffer
  have hpaths : (localCrate.parse "http://127.0.0.1\\cb:80").map Url.path =
      (localCrate.parse "http://127.0.0.1\\cb").map Url.path := by
    rw [ha, hb, Option.map_some, Option.map_some, hpath]
  exact absurd hpaths (by decide)

end Authzoo.Oauth
