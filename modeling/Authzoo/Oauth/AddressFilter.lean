import Authzoo.Lib.Outcome
import Authzoo.Oauth.Metadata

/-!
# Authzoo.Oauth.AddressFilter

Which public IPv4 addresses `public_ip` refuses. Its test for the protocol assignments in
`192.0.0.0/24` leaves the third octet out and takes all of `192.0.0.0/16`; there is no other public
address that it refuses (`publicIp_v4_outside`).

`metadata_address_is_not_public` is answered for such an address and for no other reason
(`resolveMetadata_notPublic`).
-/

namespace Authzoo.Oauth

instance : (ip : IpAddr) → Decidable ip.OutsideSpecial
  | .v4 ip => inferInstanceAs (Decidable (∀ block ∈ specialV4, ¬ block.Contains ip.toNat))
  | .v6 ip => inferInstanceAs (Decidable (globalUnicastV6.Contains ip.toNat ∧
      ∀ block ∈ specialV6, ¬ block.Contains ip.toNat))

/-- The block that the test for protocol assignments cuts out. -/
def assignmentsV4 : Cidr.Block 32 := Ipv4Addr.block ⟨192, 0, 0, 0⟩ ⟨16, by omega⟩

theorem rejectedV4_special : ∀ b ∈ rejectedV4, b = assignmentsV4 ∨ b ∈ specialV4 := by
  simp [rejectedV4, specialV4, assignmentsV4]

theorem publicIp_v4_outside {ip : Ipv4Addr} (h : (IpAddr.v4 ip).OutsideSpecial) :
    publicIp (.v4 ip) = true ↔ ¬ assignmentsV4.Contains ip.toNat := by
  rw [publicIp_v4_iff]
  constructor
  · intro hall
    exact hall assignmentsV4 (by simp [rejectedV4, assignmentsV4])
  · intro hout b hb
    rcases rejectedV4_special b hb with rfl | hspecial
    · exact hout
    · exact h b hspecial

/-! ## One reason apart from the others -/

theorem append_ne {a b c d : String} (n : Nat) (ha : n ≤ a.toList.length) (hc : n ≤ c.toList.length)
    (h : a.toList.take n ≠ c.toList.take n) : a ++ b ≠ c ++ d := by
  intro hsame
  have hlist := congrArg (fun s => s.toList.take n) hsame
  simp only [String.toList_append, List.take_append_of_le_length ha,
    List.take_append_of_le_length hc] at hlist
  exact h hlist

theorem detail_ne {reason : Reason} (h : reason ≠ .metadataAddressIsNotPublic) :
    reason.detail ≠ Reason.detail .metadataAddressIsNotPublic := by
  cases reason with
  | metadataAddressIsNotPublic => exact absurd rfl h
  | metadataHttpStatus status =>
    have hstatus : Reason.detail (.metadataHttpStatus status) =
        "The application's client metadata endpoint returned HTTP " ++ toString status ++
          " instead of a successful response. Metadata must be served directly without redirects." :=
      rfl
    rw [hstatus, String.append_assoc]
    exact append_ne 40 (by decide) (by decide) (by decide)
  | _ => decide

theorem invalid_ne {reason : Reason} (h : reason ≠ .metadataAddressIsNotPublic) :
    invalid reason ≠ invalid .metadataAddressIsNotPublic := by
  intro hsame
  exact detail_ne h (congrArg MetadataError.detail hsame)

/-- The computation does not end with the address filter's error. -/
def Unfiltered {α : Type} (x : Except MetadataError α) : Prop :=
  x ≠ .error (invalid .metadataAddressIsNotPublic)

namespace Unfiltered

variable {α β : Type} {x : Except MetadataError α}

theorem iff_avoids :
    Unfiltered x ↔ Outcome.Avoids (· = invalid .metadataAddressIsNotPublic) x := by
  constructor
  · rintro hx e he rfl
    exact hx he
  · intro hx hsame
    exact hx _ hsame rfl

theorem ok (a : α) : Unfiltered (.ok a : Except MetadataError α) := nofun

theorem of_checks {x : Except Reason α} (h : Outcome.Avoids (· = .metadataAddressIsNotPublic) x) :
    Unfiltered (x.mapError invalid) :=
  iff_avoids.mpr (.mapError fun reason he => invalid_ne (h reason he))

/-- An error that is passed on. -/
theorem passed {e : MetadataError} (hx : Unfiltered x) (he : x = .error e) :
    Unfiltered (.error e : Except MetadataError β) :=
  iff_avoids.mpr ((iff_avoids.mp hx).passed he)

theorem bind {f : α → Except MetadataError β} (hx : Unfiltered x) (hf : ∀ a, Unfiltered (f a)) :
    Unfiltered (x >>= f) :=
  iff_avoids.mpr (.bind (iff_avoids.mp hx) fun a => iff_avoids.mp (hf a))

end Unfiltered

theorem metadataUrl_unfiltered (U : UrlCrate) (id : String) : Unfiltered (metadataUrl U id) := by
  refine .of_checks ?_
  unfold Checks.metadataUrl
  split
  · exact .error nofun
  · exact .ite (.error nofun) (.ok _)

theorem received_unfiltered (sent : Sent) : Unfiltered sent.received := by
  refine .of_checks ?_
  cases sent with
  | response r => exact .ok r
  | _ => exact .error nofun

theorem Checks.readBody_unfiltered (read : List UInt8) (body : Body) :
    Outcome.Avoids (· = .metadataAddressIsNotPublic) (Checks.readBody read body) := by
  induction body generalizing read with
  | done => exact .ok _
  | failed => exact .error nofun
  | chunk chunk rest ih =>
    have hchunk : Outcome.Avoids (· = .metadataAddressIsNotPublic) (Checks.readChunk read chunk) :=
      .ite (.error nofun) (.ok _)
    rw [Checks.readBody]
    split
    · rename_i reason hreason
      exact hchunk.passed hreason
    · exact ih _

theorem bytes_unfiltered (r : Response) : Unfiltered r.bytes :=
  .of_checks (.ite (.error nofun) (.ite (.error nofun) (Checks.readBody_unfiltered _ _)))

theorem check_unfiltered (U : UrlCrate) (id : String) (doc : Document) :
    Unfiltered (doc.check U id) := by
  refine .of_checks (.bind ?_ fun _ => .bind (.ite (.error nofun) (.ok _)) fun _ => ?_)
  · exact .ite (.error nofun) (.ite (.error nofun) (.ite (.error nofun) (.ite (.error nofun)
      (.ite (.error nofun) (.ok _)))))
  · exact .ite (.error nofun) (.ok _)

theorem client_unfiltered (U : UrlCrate) (fromSlice : List UInt8 → Option Json) (r : Response)
    (id : String) : Unfiltered (r.client U fromSlice id) := by
  have hdecode : ∀ bytes, Outcome.Avoids (· = .metadataAddressIsNotPublic)
      (Checks.decode fromSlice bytes) := by
    intro bytes
    unfold Checks.decode
    split
    · exact .error nofun
    · exact .ok _
  unfold Response.client
  split
  · rename_i e hbytes
    exact (bytes_unfiltered r).passed hbytes
  · exact .bind (.of_checks (hdecode _)) fun doc => check_unfiltered U id doc

/-! ## When the filter answers -/

/-- What the name server says about the host of a URL. -/
def Resolves (net : Network) (url : Url) (addresses : List SocketAddr) : Prop :=
  ∃ host, url.hostStr = some host ∧
    net.lookupHost (Text.trimMatches (fun c => c = '[' || c = ']') host)
      (url.portOrKnownDefault.getD 443) = .found addresses

theorem Resolves.unique {net : Network} {url : Url} {addresses addresses' : List SocketAddr}
    (h : Resolves net url addresses) (h' : Resolves net url addresses') : addresses = addresses' := by
  obtain ⟨host, hhost, hlookup⟩ := h
  obtain ⟨host', hhost', hlookup'⟩ := h'
  obtain rfl : host = host' := Option.some.inj (hhost.symm.trans hhost')
  exact Lookup.found.inj (hlookup.symm.trans hlookup')

/-- Only the filter gives the filter's error. -/
theorem mapError_notPublic {α : Type} {x : Except Reason α} :
    x.mapError invalid = .error (invalid .metadataAddressIsNotPublic) ↔
      x = .error .metadataAddressIsNotPublic := by
  constructor
  · intro h
    by_contra hne
    refine Unfiltered.of_checks (fun reason he hreason => ?_) h
    exact hne (hreason ▸ he)
  · rintro rfl
    rfl

theorem prepare_notPublic {net : Network} {url : Url} :
    prepare net url = .error (invalid .metadataAddressIsNotPublic) ↔
      ∃ addresses, Resolves net url addresses ∧ ∃ a ∈ addresses, publicIp a.ip = false := by
  rw [prepare, mapError_notPublic]
  constructor
  · intro h
    unfold Checks.prepare at h
    split at h
    · cases h
    · rename_i host hhost
      split at h
      · cases h
      · cases h
      · rename_i addresses hlookup
        refine ⟨addresses, ⟨host, hhost, hlookup⟩, ?_⟩
        by_contra hpublic
        have hno : ¬ addresses.any (fun a => !publicIp a.ip) = true := by simpa using hpublic
        rw [if_neg hno] at h
        split at h
        · cases h
        · split at h <;> cases h
  · rintro ⟨addresses, ⟨host, hhost, hlookup⟩, a, ha, hprivate⟩
    have hany : addresses.any (fun a => !publicIp a.ip) = true :=
      List.any_eq_true.mpr ⟨a, ha, by rw [hprivate]; rfl⟩
    simp only [Checks.prepare, hhost, hlookup, hany, List.ne_nil_of_mem ha, if_false, if_true]

theorem resolveMetadata_notPublic {U : UrlCrate} {fromSlice : List UInt8 → Option Json}
    {net : Network} {clock : Readings} {cache : MetadataCache} {id : String} :
    (resolveMetadata U fromSlice net clock cache id).result =
        .error (invalid .metadataAddressIsNotPublic) ↔
      ∃ url addresses, metadataUrl U id = .ok url ∧ cache.fresh id clock.lookup = none ∧
        Resolves net url addresses ∧ ∃ a ∈ addresses, publicIp a.ip = false := by
  cases hurl : metadataUrl U id with
  | error e =>
    simp only [resolveMetadata, hurl]
    constructor
    · intro h
      exact absurd h ((metadataUrl_unfiltered U id).passed hurl)
    · rintro ⟨url, addresses, hok, -⟩
      cases hok
  | ok url =>
    cases hfresh : cache.fresh id clock.lookup with
    | some client => simp [resolveMetadata, hurl, hfresh]
    | none =>
      have hprepared : (resolveMetadata U fromSlice net clock cache id).result =
          .error (invalid .metadataAddressIsNotPublic) ↔
            prepare net url = .error (invalid .metadataAddressIsNotPublic) := by
        cases hprepare : prepare net url with
        | error e => simp [resolveMetadata, hurl, hfresh, hprepare]
        | ok request =>
          simp only [resolveMetadata, hurl, hfresh, hprepare, reduceCtorEq, iff_false]
          cases hreceived : (net.send request).received with
          | error e => exact (received_unfiltered (net.send request)).passed hreceived
          | ok response =>
            cases hclient : response.client U fromSlice id with
            | error e =>
              simp only [hclient]
              exact (client_unfiltered U fromSlice response id).passed hclient
            | ok client =>
              simp only [hclient]
              split <;> exact Unfiltered.ok client
      rw [hprepared, prepare_notPublic]
      simp

/-- The answer of the name server has only public IPv4 addresses. -/
def AllPublicV4 (addresses : List SocketAddr) : Prop :=
  ∀ a ∈ addresses, ∃ ip, a.ip = .v4 ip ∧ (IpAddr.v4 ip).OutsideSpecial

/-- **Which public IPv4 addresses pass.** Those outside `192.0.0.0/16`; and exactly the answers of
such addresses never lead to `metadata_address_is_not_public`. -/
theorem public_ipv4_accepted_iff (addresses : List SocketAddr) (hall : AllPublicV4 addresses) :
    (∀ a ∈ addresses, ∀ ip, a.ip = .v4 ip →
      (publicIp a.ip = true ↔ ¬ assignmentsV4.Contains ip.toNat)) ∧
    ∀ (U : UrlCrate) (fromSlice : List UInt8 → Option Json) (net : Network) (id : String) (url : Url),
      metadataUrl U id = .ok url → Resolves net url addresses →
        ((∀ clock cache, (resolveMetadata U fromSlice net clock cache id).result ≠
            .error (invalid .metadataAddressIsNotPublic)) ↔
          ∀ a ∈ addresses, ∀ ip, a.ip = .v4 ip → ¬ assignmentsV4.Contains ip.toNat) := by
  have haddress : ∀ a ∈ addresses, ∀ ip, a.ip = .v4 ip →
      (publicIp a.ip = true ↔ ¬ assignmentsV4.Contains ip.toNat) := by
    intro a ha ip hip
    obtain ⟨ip', hip', houtside⟩ := hall a ha
    obtain rfl : ip = ip' := IpAddr.v4.inj (hip.symm.trans hip')
    rw [hip]
    exact publicIp_v4_outside houtside
  refine ⟨haddress, ?_⟩
  intro U fromSlice net id url hurl hresolves
  constructor
  · intro hnever a ha ip hip hin
    have hprivate : publicIp a.ip = false := by
      rw [← Bool.not_eq_true, haddress a ha ip hip, not_not]
      exact hin
    exact hnever ⟨0, fun _ => 0, 0⟩ ∅ (resolveMetadata_notPublic.mpr
      ⟨url, addresses, hurl, rfl, hresolves, a, ha, hprivate⟩)
  · intro hout clock cache hresult
    obtain ⟨url', addresses', hurl', -, hresolves', a, ha, hprivate⟩ :=
      resolveMetadata_notPublic.mp hresult
    obtain rfl : url = url' := Except.ok.inj (hurl.symm.trans hurl')
    obtain rfl : addresses = addresses' := hresolves.unique hresolves'
    obtain ⟨ip, hip, -⟩ := hall a ha
    rw [← Bool.not_eq_true, haddress a ha ip hip, not_not] at hprivate
    exact hout a ha ip hip hprivate

/-- The example network answers with a public address, which passes. -/
theorem public_ipv4_accepted_iff_example :
    publicIp exampleAddress.ip = true ∧
    ∀ clock cache, (resolveMetadata exampleCrate exampleSlice exampleNetwork clock cache
      exampleId).result ≠ .error (invalid .metadataAddressIsNotPublic) := by
  have hall : AllPublicV4 [exampleAddress] := by
    intro a ha
    obtain rfl := List.mem_singleton.mp ha
    exact ⟨⟨93, 184, 216, 34⟩, rfl, by decide⟩
  obtain ⟨haddress, hanswer⟩ := public_ipv4_accepted_iff [exampleAddress] hall
  refine ⟨(haddress exampleAddress (by simp) ⟨93, 184, 216, 34⟩ rfl).mpr (by decide), ?_⟩
  refine (hanswer exampleCrate exampleSlice exampleNetwork exampleId
    (httpsUrl "client.example" "/metadata") (by decide) ⟨"client.example", rfl, rfl⟩).mpr ?_
  intro a ha ip hip
  obtain rfl := List.mem_singleton.mp ha
  obtain rfl := IpAddr.v4.inj hip
  decide

/-- An address of a hosting provider. -/
def hostedAddress : SocketAddr := ⟨.v4 ⟨192, 0, 66, 2⟩, 443⟩

def hostedNetwork : Network :=
  { exampleNetwork with
    lookupHost := fun host port =>
      if host = "client.example" ∧ port = 443 then .found [hostedAddress] else .failed }

/-- It is public, and a client metadata document that is served from it is refused. -/
theorem public_ipv4_refused :
    hostedAddress.ip.OutsideSpecial ∧ publicIp hostedAddress.ip = false ∧
    (resolveMetadata exampleCrate exampleSlice hostedNetwork ⟨0, fun _ => 0, 0⟩ ∅ exampleId).result =
      .error (invalid .metadataAddressIsNotPublic) ∧
    ¬ ∀ ip : Ipv4Addr, (IpAddr.v4 ip).OutsideSpecial → publicIp (.v4 ip) = true := by
  have houtside : hostedAddress.ip.OutsideSpecial := by decide
  have hprivate : publicIp hostedAddress.ip = false := by decide
  refine ⟨houtside, hprivate, ?_, ?_⟩
  · exact resolveMetadata_notPublic.mpr ⟨httpsUrl "client.example" "/metadata", [hostedAddress],
      by decide, rfl, ⟨"client.example", rfl, rfl⟩, hostedAddress, by simp, hprivate⟩
  · intro hclaim
    have hpublic := hclaim ⟨192, 0, 66, 2⟩ houtside
    rw [show publicIp (.v4 ⟨192, 0, 66, 2⟩) = false from hprivate] at hpublic
    cases hpublic

end Authzoo.Oauth
