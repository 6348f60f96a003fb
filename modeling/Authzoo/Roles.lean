import Authzoo.Binding
import Authzoo.Building
import Authzoo.Requirement

/-!
# Authzoo.Roles

What the roles of a validator guarantee, whatever the token.

* `RoleConfig.Tightens` compares two roles by the sets of values that their requirements accept;
  `tightened_role_admits_less` : a tightened role admits no token that the other refuses.
* `required_claims_substantiated` : a role of a validator never takes an absent, empty or mistyped
  claim for a satisfied requirement.
-/

namespace Authzoo

/-! ## Tightening -/

/-- `r'` asks at least what `r` asks, of the same issuer, for the same audience. -/
structure RoleConfig.Tightens (r' r : RoleConfig) : Prop where
  issuer : r'.issuer = r.issuer
  audience : r'.audience = r.audience
  validationKey : r'.validationKey = r.validationKey
  algorithms : ∀ algorithm ∈ r'.algorithms, r.allowsAlgorithm algorithm.toAlgorithm = true
  claims : ∀ (name : String) (requirement : ClaimRequirement), r.claims[name]? = some requirement →
    ∃ requirement', r'.claims[name]? = some requirement' ∧
      requirement'.acceptable ⊆ requirement.acceptable

section

variable {J : JsonWebToken} {env : Environment} {r r' : RoleConfig}

theorem RoleConfig.Tightens.allowsAlgorithm (h : r'.Tightens r) {algorithm : Algorithm}
    (hallow : r'.allowsAlgorithm algorithm = true) : r.allowsAlgorithm algorithm = true := by
  obtain ⟨allowed, hin, heq⟩ := List.any_eq_true.mp hallow
  exact of_decide_eq_true heq ▸ h.algorithms allowed hin

theorem RoleConfig.Tightens.requireClaims (h : r'.Tightens r) {c : ValidatedClaims}
    (hc : c.requireClaims r'.claims = .ok ()) : c.requireClaims r.claims = .ok () := by
  rw [ValidatedClaims.requireClaims_ok] at hc ⊢
  intro name requirement hrequired
  obtain ⟨requirement', hrequired', hsub⟩ := h.claims name requirement hrequired
  exact (hc name requirement' hrequired').mono hsub

/-- Discovery sees nothing of a role but its issuer. -/
theorem discoveryDecodingKey_issuer (h : r'.issuer = r.issuer) (token : String)
    (algorithm : Algorithm) (w : World) :
    discoveryDecodingKey J env r' token algorithm w =
      discoveryDecodingKey J env r token algorithm w := by
  have hclient : discoveryClient env r' = discoveryClient env r := by
    simp only [discoveryClient, h]
  have hlocate : locateJwks J env r' token = locateJwks J env r token := by
    simp only [locateJwks, h, hclient]
  simp only [discoveryDecodingKey, hlocate]

theorem RoleConfig.Tightens.resolvingKey (h : r'.Tightens r) (token : String)
    (algorithm : Algorithm) (w : World) :
    resolvingDecodingKey J env r' token algorithm w =
      resolvingDecodingKey J env r token algorithm w := by
  simp only [resolvingDecodingKey, h.validationKey]
  cases r.validationKey with
  | some validationKey => rfl
  | none => exact discoveryDecodingKey_issuer h.issuer token algorithm w

theorem RoleConfig.Tightens.decode (h : r'.Tightens r) {now : Nat} {token : String}
    {algorithm : Algorithm} {key : J.DecodingKey} {c : ValidatedClaims}
    (hc : decodeForRole J now r' token algorithm key = .ok c) :
    decodeForRole J now r token algorithm key = .ok c := by
  have hsettings : r'.validation algorithm = r.validation algorithm := by
    simp only [RoleConfig.validation, h.issuer, h.audience]
  unfold decodeForRole at hc ⊢
  rw [hsettings] at hc
  cases hd : J.decode ValidatedClaims.deserialize now token key (r.validation algorithm) with
  | error e =>
    rw [hd] at hc
    cases hc
  | ok claims =>
    rw [hd] at hc
    cases hreq : claims.requireClaims r'.claims with
    | error e =>
      simp only [hreq] at hc
      cases hc
    | ok u =>
      simp only [hreq] at hc
      simp only [h.requireClaims hreq]
      exact hc

end

/-- **Tightening a role never admits more tokens.** Whatever is accepted for the tightened role is
accepted for the other, with the same claims. -/
theorem tightened_role_admits_less (J : JsonWebToken) (env : Environment) (now : Nat)
    (r r' : RoleConfig) (h : r'.Tightens r) (token : String) (w : World) (c : ValidatedClaims)
    (hc : (validateTokenForRole J env now r' token w).1 = .ok c) :
    (validateTokenForRole J env now r token w).1 = .ok c := by
  obtain ⟨header, key, hheader, hallow, hkey, hdecode⟩ := validateTokenForRole_ok.mp hc
  rw [h.resolvingKey] at hkey
  exact validateTokenForRole_ok.mpr
    ⟨header, key, hheader, h.allowsAlgorithm hallow, hkey, h.decode hdecode⟩

/-! ## A role for members of a group -/

/-- Two subjects may release. -/
def staffRole : RoleConfig :=
  { releaseRole with claims := .ofList [("sub", ClaimRequirement.anyOf ["builder", "deployer"])] }

/-- One of them, as a member of the group. -/
def memberRole : RoleConfig :=
  { releaseRole with
    claims := .ofList
      [("groups", ClaimRequirement.contains ⟨"admins"⟩), ("sub", ClaimRequirement.equals "builder")] }

def memberToken : JsonWebToken.Signed :=
  { token := "eyJhbGciOiJIUzI1NiIsInR5cCI6IkpXVCJ9." ++
      "eyJzdWIiOiJidWlsZGVyIiwiaXNzIjoiaHR0cHM6Ly9pc3N1ZXIuZXhhbXBsZSIs" ++
      "ImF1ZCI6Imh0dHBzOi8vYXBpLmV4YW1wbGUiLCJleHAiOjQxMDI0NDQ4MDAsImdyb3VwcyI6WyJhZG1pbnMiXX0." ++
      "abnhDxHlwS-eA7FvAcKH2CanlwF7DbUq7wJukCgwCzQ"
    header := { alg := .hs256, kid := none }
    payload := .obj [("sub", .str "builder"), ("iss", .str "https://issuer.example"),
      ("aud", .str "https://api.example"), ("exp", .int 4102444800),
      ("groups", .arr [.str "admins"])]
    secret := "shared-secret" }

theorem staffRole_claims {name : String} {requirement : ClaimRequirement}
    (h : staffRole.claims[name]? = some requirement) :
    name = "sub" ∧ requirement = .anyOf ["builder", "deployer"] := by
  rw [staffRole, BTreeMap.getElem?_ofList] at h
  by_cases hsub : name = "sub"
  · subst hsub
    simpa [List.lookup_cons, eq_comm] using h
  · simp [List.lookup_cons, beq_false_of_ne hsub] at h

theorem memberRole_claims {name : String} {requirement : ClaimRequirement} :
    memberRole.claims[name]? = some requirement ↔
      name = "sub" ∧ requirement = .equals "builder" ∨
      name = "groups" ∧ requirement = .contains ⟨"admins"⟩ := by
  rw [memberRole, BTreeMap.getElem?_ofList]
  by_cases hsub : name = "sub"
  · subst hsub
    simp [eq_comm]
  · by_cases hgroups : name = "groups"
    · subst hgroups
      simp [List.lookup_cons, eq_comm]
    · simp [List.lookup_cons, beq_false_of_ne, hsub, hgroups]

theorem memberRole_tightens : memberRole.Tightens staffRole where
  issuer := rfl
  audience := rfl
  validationKey := rfl
  algorithms := by decide
  claims name requirement h := by
    obtain ⟨rfl, rfl⟩ := staffRole_claims h
    refine ⟨.equals "builder", memberRole_claims.mpr (.inl ⟨rfl, rfl⟩), fun a ha => ?_⟩
    rw [ClaimRequirement.mem_equals] at ha
    exact ClaimRequirement.mem_anyOf.mpr ⟨"builder", List.mem_cons_self, ha⟩

theorem memberToken_decoded : ∃ c, ValidatedClaims.deserialize memberToken.payload = some c ∧
    c.requireClaims memberRole.claims = .ok () := by
  refine ⟨_, rfl, ValidatedClaims.requireClaims_ok.mpr fun name requirement h => ?_⟩
  rcases memberRole_claims.mp h with ⟨rfl, rfl⟩ | ⟨rfl, rfl⟩
  · exact ⟨.text "builder", rfl, .str "builder", rfl, rfl⟩
  · refine ClaimRequirement.metBy_contains.mpr ⟨[.str "admins"], ?_, List.mem_singleton_self _⟩
    rw [ValidatedClaims.value, if_neg (by decide), BTreeMap.getElem?_ofList]
    rfl

theorem memberToken_release : Release memberToken := by
  obtain ⟨c, hc, -⟩ := memberToken_decoded
  exact ⟨rfl, rfl, by decide, rfl, c, hc, by
    rw [ValidatedClaims.requireClaims_ok]
    simp⟩

/-- The token of the member is accepted for the role that has the deployer too. -/
theorem tightened_role_admits_less_member :
    ∃ c, (validateTokenForRole (.known [memberToken]) .offline 1700000000 staffRole
      memberToken.token (World.start fun _ => 0)).1 = .ok c := by
  have hpasses := memberToken_release.passes
  obtain ⟨c, hc⟩ := (validateTokenForRole_accepts (J := .known [memberToken])
    (JsonWebToken.known_documented [memberToken])).mpr ⟨_, JsonWebToken.known_payload memberToken,
      (⟨hpasses.verified, hpasses.unrepeated, hpasses.unexpired, memberToken_decoded⟩ :
        PassesOtherChecks (.known [memberToken]) .offline 1700000000 memberRole memberToken.token
          (World.start fun _ => 0) memberToken.payload),
      fun _ => ⟨_, rfl, List.mem_singleton_self _⟩, fun _ => ⟨_, rfl, List.mem_singleton_self _⟩⟩
  exact ⟨c, tightened_role_admits_less _ _ _ _ memberRole memberRole_tightens _ _ c hc⟩

/-! ## Requirements are never met by nothing -/

/-- The claim is a non-empty text of the requirement, or an array that has its non-empty text. -/
def ClaimRequirement.Substantiated : ClaimRequirement → Json → Prop
  | .equals required, value => value = .str required ∧ required ≠ ""
  | .anyOf required, value => ∃ s ∈ required, value = .str s ∧ s ≠ ""
  | .detailed required, value => ∃ s ∈ required.anyOf, value = .str s ∧ s ≠ ""
  | .contains required, value =>
    ∃ elements, value = .arr elements ∧ .str required.contains ∈ elements ∧ required.contains ≠ ""

theorem ClaimRequirement.MetBy.substantiated {requirement : ClaimRequirement} {value : Option Json}
    (h : requirement.MetBy value) (hempty : requirement.isEmpty = false) :
    ∃ given, value = some given ∧ requirement.Substantiated given := by
  obtain ⟨a, ha, given, hgiven, hoffered⟩ := h
  refine ⟨given, hgiven, ?_⟩
  have hne := ClaimRequirement.string_ne_empty hempty ha
  cases requirement with
  | equals required =>
    obtain rfl := mem_equals.mp ha
    exact ⟨hoffered, hne⟩
  | anyOf required =>
    obtain ⟨s, hs, rfl⟩ := mem_anyOf.mp ha
    exact ⟨s, hs, hoffered, hne⟩
  | detailed required =>
    obtain ⟨s, hs, rfl⟩ := mem_detailed.mp ha
    exact ⟨s, hs, hoffered, hne⟩
  | contains required =>
    obtain rfl := mem_contains.mp ha
    obtain ⟨elements, harr, hin⟩ := hoffered
    exact ⟨elements, harr, hin, hne⟩

/-- **Requirements are never satisfied vacuously.** For every role of a validator, a decoded payload
that satisfies `require_claims` has each required claim as a member, with a non-empty text that the
requirement asks for. -/
theorem required_claims_substantiated (roles : List RoleConfig) (v : TokenValidator)
    (hnew : TokenValidator.new roles = .ok v) (role : RoleConfig) (hrole : role ∈ roles) (p : Json)
    (c : ValidatedClaims) (hp : ValidatedClaims.deserialize p = some c)
    (hc : c.requireClaims role.claims = .ok ()) (name : String) (requirement : ClaimRequirement)
    (hrequired : role.claims[name]? = some requirement) :
    ∃ members given, p = .obj members ∧ (name, given) ∈ members ∧ c.value name = some given ∧
      requirement.Substantiated given := by
  have hvalid := (TokenValidator.newLoop_ok.mp hnew).1.valid role hrole
  have hmet := ValidatedClaims.requireClaims_ok.mp hc name requirement hrequired
  obtain ⟨given, hgiven, hsubst⟩ := hmet.substantiated (role.validate_claims hvalid hrequired).2
  obtain ⟨members, hobj, hmem⟩ := ValidatedClaims.value_mem hp hgiven
  exact ⟨members, given, hobj, hmem, hgiven, hsubst⟩

theorem memberRole_valid : memberRole.validate = .ok () := by decide

/-- The member of a group has the group in its token. -/
theorem required_claims_substantiated_member :
    ∃ members given, memberToken.payload = .obj members ∧ ("groups", given) ∈ members ∧
      (ClaimRequirement.contains ⟨"admins"⟩).Substantiated given := by
  obtain ⟨c, hp, hc⟩ := memberToken_decoded
  obtain ⟨members, given, hobj, hmem, -, hsubst⟩ := required_claims_substantiated [memberRole]
    (TokenValidator.empty.add memberRole memberRole_valid)
    (TokenValidator.newLoop_cons memberRole_valid rfl) memberRole (List.mem_singleton_self _)
    memberToken.payload c hp hc "groups" (.contains ⟨"admins"⟩)
    (memberRole_claims.mpr (.inr ⟨rfl, rfl⟩))
  exact ⟨members, given, hobj, hmem, hsubst⟩

end Authzoo
