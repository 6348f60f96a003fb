import Authzoo.Oauth.Redirect

/-!
# Authzoo.Oauth.RedirectPorts

What `loopback_without_port` forgets (`client_metadata.rs`): the port, and nothing else.

* `validRedirect_loopback` : a loopback host with any port and rest is a valid redirect.
* `loopbackWithoutPort_idempotent` : a text without its port is its own port-free text.
* `port_is_forgotten` : which texts a registered loopback text stands for.
-/

namespace Authzoo.Oauth

/-- `localhost` in any letter case, a dotted address, or a bracketed one, that the parser reads as a
loopback host. -/
structure LoopbackHost (U : UrlCrate) (h : List Char) : Prop where
  address : HttpUrl.IsAddress h
  read : ∃ part, U.parseHost h = some part ∧ part.host.isLoopback = true

/-- No port, or one of decimal digits in the range of ports, with or without leading zeros. -/
structure PortText (p : List Char) : Prop where
  text : HttpUrl.IsPort p
  range : Text.decimal (p.drop 1) ≤ 65535

/-- What may follow the authority of a redirect. -/
structure RestText (r : List Char) : Prop where
  start : ∀ c, r.head? = some c → c = '/' ∨ c = '?'
  noFragment : '#' ∉ r
  noWildcard : '*' ∉ r

section

variable {U : UrlCrate} {h h' p q r r' : List Char}

theorem RestText.cut (hr : RestText r) :
    ∀ c, r.head? = some c → HttpUrl.endsHostText c = true := by
  intro c hc
  obtain rfl | rfl := hr.start c hc <;> decide

theorem LoopbackHost.isHost (hU : U.Whatwg) (hh : LoopbackHost U h) : HttpUrl.IsHost h := by
  obtain ⟨part, hpart, -⟩ := hh.read
  exact hh.address.isHost (hU.host h part hpart).nonempty

theorem LoopbackHost.cut (hU : U.Whatwg) (hh : LoopbackHost U h) (hp : PortText p)
    (hr : RestText r) : HttpUrl.Cut h p r :=
  ⟨(hh.isHost hU).isHostText, hp.text, hr.cut⟩

theorem PortText.parsed (hp : PortText p) :
    ∃ port, UrlCrate.parsePort (HttpUrl.after p) = some port := by
  obtain rfl | ⟨digits, rfl, hne, hdigits⟩ := hp.text
  · exact ⟨none, rfl⟩
  · have hall : digits.all Char.isDigit = true := List.all_eq_true.mpr hdigits
    obtain ⟨d, rest, rfl⟩ := List.exists_cons_of_ne_nil hne
    exact ⟨_, if_pos ⟨hall, hp.range⟩⟩

theorem no_wildcard (hh : LoopbackHost U h) (hp : PortText p) (hr : RestText r) :
    '*' ∉ (httpText h p r).toList := by
  have hhost : '*' ∉ h := fun hin => by
    obtain hchar | hchar | hchar := hh.address.mem hin <;> revert hchar <;> decide
  have hport : '*' ∉ p := by
    obtain rfl | ⟨digits, rfl, -, hdigits⟩ := hp.text
    · exact List.not_mem_nil
    · have hno := HttpUrl.not_mem_digits hdigits (c := '*') (by decide)
      simpa using hno
  rw [httpText_toList]
  simp only [List.mem_append, hhost, hport, hr.noWildcard, or_false]
  decide

/-- A loopback host over `http` is a valid redirect, whatever port it is given. -/
theorem validRedirect_loopback (hU : U.Whatwg) (hh : LoopbackHost U h) (hp : PortText p)
    (hr : RestText r) : validRedirect U (httpText h p r) = true := by
  obtain ⟨part, hpart, hloop⟩ := hh.read
  obtain ⟨port, hport⟩ := hp.parsed
  obtain ⟨huserinfo, hhost, hportText, hfragment⟩ := (hh.isHost hU).split hp.text hr.cut
  have hnone : (HttpUrl.split (h ++ (p ++ r))).fragment = none := by
    have hdrop : (HttpUrl.clean r).dropWhile (· ≠ '#') = [] := by
      refine List.dropWhile_eq_nil_iff.mpr fun c hc => decide_eq_true fun hsharp => ?_
      exact hr.noFragment (hsharp ▸ HttpUrl.clean_subset hc)
    rw [hfragment, hdrop]
    rfl
  have hparse := (hU.http _).trans (UrlCrate.http_eq_some.mpr
    ⟨part, port, hhost ▸ hpart, hportText ▸ hport, rfl⟩)
  refine validRedirect_iff.mpr ⟨no_wildcard hh hp hr, _, hparse, rfl, ?_, ?_, ?_,
    .inr ⟨rfl, part.host, rfl, hloop⟩⟩
  · simp [hnone]
  · simp [huserinfo]
  · simp [huserinfo]

/-- A text is cut in one way. -/
theorem httpText_inj (hc : HttpUrl.Cut h p r) (hc' : HttpUrl.Cut h' q r')
    (heq : httpText h p r = httpText h' q r') : h = h' ∧ r = r' := by
  have hremainder := congrArg (removePort ∘ remainderOf) heq
  simp only [Function.comp_apply, remainderOf_httpText, removePort_cut hc, removePort_cut hc',
    Option.some.injEq] at hremainder
  exact hc.unique hc' hremainder

/-- Without its port a valid text is still valid. -/
theorem LoopbackRedirect.without {u : String} {url : Url} (hU : U.Whatwg)
    (hl : LoopbackRedirect U u url h p r) (hne : p ≠ []) :
    validRedirect U (httpText h [] r) = true := by
  obtain ⟨hfragment, husername, hpassword⟩ := hl.valid_parts
  obtain ⟨host, hhost, hloop⟩ := hl.loopback
  have hanonymous := UrlCrate.http_anonymous hU (hl.parsed_http hU) husername
  obtain ⟨part, port, hpart, hport, rfl⟩ := UrlCrate.http_eq_some.mp (hl.parsed_http hU)
  have hplausible := hU.host _ part hpart
  have hsame := (hl.cut.port_only (.inl rfl) hne hanonymous hplausible).1
  obtain ⟨huserinfo', hfragment', hport'⟩ := hl.cut.port_removed hne hanonymous hplausible
  have hparsed : ∃ port', UrlCrate.parsePort (HttpUrl.split (h ++ ([] ++ r))).port = some port' := by
    obtain hport' | hport' := hport'
    · exact ⟨port, hport' ▸ hport⟩
    · exact ⟨none, by rw [hport']; rfl⟩
  obtain ⟨port', hparsed⟩ := hparsed
  have hparse := (hU.http _).trans (UrlCrate.http_eq_some.mpr
    ⟨part, port', hsame ▸ hpart, hparsed, rfl⟩)
  have hwild : '*' ∉ (httpText h [] r).toList := by
    have hno := (validRedirect_iff.mp hl.valid).noWildcard
    rw [hl.text, httpText_toList] at hno
    rw [httpText_toList]
    simp only [List.mem_append, not_or, List.not_mem_nil, not_false_eq_true, true_and] at hno ⊢
    exact ⟨hno.1, hno.2.1, hno.2.2.2⟩
  refine validRedirect_iff.mpr ⟨hwild, _, hparse, rfl, ?_, ?_, ?_, .inr ⟨rfl, host, hhost, hloop⟩⟩
  · exact (congrArg (Option.map U.encodeFragment) hfragment').trans hfragment
  · exact (congrArg (fun x => ((x.map U.encodeUserinfo).getD ("", none)).1) huserinfo').trans
      husername
  · exact (congrArg (fun x => ((x.map U.encodeUserinfo).getD ("", none)).2) huserinfo').trans
      hpassword

/-- A text without its port is a text whose port-free text it is. -/
theorem loopbackWithoutPort_idempotent (hU : U.Whatwg) {u v : String}
    (huv : loopbackWithoutPort U u = some v) : loopbackWithoutPort U v = some v := by
  obtain ⟨url, h, p, r, hl, hv⟩ := loopbackWithoutPort_some huv
  have hbare : v = httpText h [] r := hv
  by_cases hp : p = []
  · obtain rfl : v = u := by rw [hbare, hl.text, hp]
    exact huv
  · have hvalid := hl.without hU hp
    rw [hbare, loopbackWithoutPort_httpText hU ⟨hl.cut.host, .inl rfl, hl.cut.rest⟩ hvalid]
    rfl

theorem single_allowsRedirect {client : Client} (hnative : client.applicationType = .native)
    {registered requested : String} :
    ({ client with redirectUris := [registered] }).allowsRedirect U requested = true ↔
      requested = registered ∨ ∃ text, loopbackWithoutPort U registered = some text ∧
        loopbackWithoutPort U requested = some text := by
  simp [allowsRedirect_iff, hnative]

end

/-- **The port is forgotten, and nothing else.** What a loopback text that a native client has
registered allows is the same host and rest as text, with any ports or none. A text without its port
is canonical. -/
theorem port_is_forgotten {U : UrlCrate} (hU : U.Whatwg) :
    (∀ (client : Client) (h h' p q r r' : List Char), client.applicationType = .native →
      LoopbackHost U h → LoopbackHost U h' → PortText p → PortText q → RestText r → RestText r' →
        (({ client with redirectUris := [httpText h p r] }).allowsRedirect U (httpText h' q r') =
          true ↔ h = h' ∧ r = r')) ∧
    (∀ (client : Client) (requested : String), client.allowsRedirect U requested =
      client.redirectUris.any fun registered =>
        ({ client with redirectUris := [registered] }).allowsRedirect U requested) ∧
    ∀ u v, loopbackWithoutPort U u = some v → loopbackWithoutPort U v = some v := by
  refine ⟨fun client h h' p q r r' hnative hh hh' hp hq hr hr' => ?_, fun client requested => ?_,
    fun u v => loopbackWithoutPort_idempotent hU⟩
  · have hc := hh.cut hU hp hr
    have hc' := hh'.cut hU hq hr'
    rw [single_allowsRedirect hnative,
      loopbackWithoutPort_httpText hU hc (validRedirect_loopback hU hh hp hr),
      loopbackWithoutPort_httpText hU hc' (validRedirect_loopback hU hh' hq hr')]
    constructor
    · rintro (hsame | ⟨text, htext, htext'⟩)
      · exact httpText_inj hc hc' hsame.symm
      · have hsame := congrArg remainderOf (Option.some.inj (htext.trans htext'.symm))
        rw [remainderOf_http, remainderOf_http] at hsame
        exact hc.unique hc' hsame
    · rintro ⟨rfl, rfl⟩
      exact .inr ⟨_, rfl, rfl⟩
  · simp [Client.allowsRedirect]

theorem localCrate_host : LoopbackHost localCrate "127.0.0.1".toList := by
  have hall : "127.0.0.1".toList.all HttpUrl.isHostChar = true := by decide
  exact ⟨.inl ⟨List.all_eq_true.mp hall, by decide⟩, ⟨.ipv4 ⟨127, 0, 0, 1⟩, "127.0.0.1"⟩,
    by decide, rfl⟩

theorem port_is_forgotten_padded :
    (nativeClient (httpText "127.0.0.1".toList [] "/cb".toList)).allowsRedirect localCrate
      (httpText "127.0.0.1".toList ":08080".toList "/cb".toList) = true := by
  have hrest : RestText "/cb".toList := ⟨fun c hc => by cases hc; exact .inl rfl, by decide, by decide⟩
  have hdigits : "08080".toList.all Char.isDigit = true := by decide
  have hport : PortText ":08080".toList :=
    ⟨.inr ⟨"08080".toList, rfl, by decide, List.all_eq_true.mp hdigits⟩, by decide⟩
  exact ((port_is_forgotten localCrate_whatwg).1 (nativeClient "") _ _ [] _ _ _ rfl localCrate_host
    localCrate_host ⟨.inl rfl, by decide⟩ hport hrest hrest).mpr ⟨rfl, rfl⟩

end Authzoo.Oauth
