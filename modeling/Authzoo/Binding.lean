import Authzoo.Validator

/-!
# Authzoo.Binding

Which tokens a role accepts, and when acceptance ties the token to the role's issuer and audience.

`validate_token_for_role` sets the expected issuer and audience but leaves `required_spec_claims` at
its default, so `decode` compares `iss` and `aud` only when the payload has them in a form that
parses. `validateTokenForRole_accepts` is the exact acceptance condition and
`validateForRole_bound_iff` says which tokens slip through.
-/

namespace Authzoo

/-- The payload carries `claim` as a string or a list of strings. -/
def Json.Parses (p : Json) (claim : String) : Prop := ∃ given, (p.get? claim).bind names = some given

/-- The payload's `claim` is `expected`, or a list that contains it. -/
def Json.Names (p : Json) (claim expected : String) : Prop :=
  ∃ given, (p.get? claim).bind names = some given ∧ expected ∈ given

theorem Json.Names.parses {p : Json} {claim expected : String} (h : p.Names claim expected) :
    p.Parses claim := by
  obtain ⟨given, hgiven, -⟩ := h
  exact ⟨given, hgiven⟩

/-- All that acceptance asks of a token apart from its issuer and audience. -/
structure PassesOtherChecks (J : JsonWebToken) (env : Environment) (now : Nat) (role : RoleConfig)
    (token : String) (w : World) (p : Json) : Prop where
  verified : ∃ header key, J.decodeHeader token = some header ∧
    role.allowsAlgorithm header.alg = true ∧
    (resolvingDecodingKey J env role token header.alg w).1 = .ok key ∧
    J.verify token key header.alg = true
  unrepeated : p.unrepeated JsonWebToken.registered = true
  unexpired : ∃ exp, (p.get? "exp").bind J.numericDate = some exp ∧ now ≤ exp + 60
  claims : ∃ c, ValidatedClaims.deserialize p = some c ∧ c.requireClaims role.claims = .ok ()

/-- No parsed `iss` or `aud` is wrong, but one of the two is absent or names no string. -/
def SlipsThrough (role : RoleConfig) (p : Json) : Prop :=
  (p.Parses "iss" → p.Names "iss" role.issuer) ∧ (p.Parses "aud" → p.Names "aud" role.audience) ∧
    ¬ (p.Parses "iss" ∧ p.Parses "aud")

/-! ## The registered claims under this code's settings -/

theorem issAccepted_iff {role : RoleConfig} {a : Algorithm} {p : Json} :
    JsonWebToken.issAccepted (role.validation a) p = true ↔
      (p.Parses "iss" → p.Names "iss" role.issuer) := by
  simp only [JsonWebToken.issAccepted, RoleConfig.validation, Validation.setIssuer, Json.Parses,
    Json.Names]
  cases (p.get? "iss").bind Json.names with
  | none => simp
  | some given => simp

theorem audAccepted_iff {role : RoleConfig} {a : Algorithm} {p : Json} :
    JsonWebToken.audAccepted (role.validation a) p = true ↔
      (p.Parses "aud" → p.Names "aud" role.audience) := by
  simp only [JsonWebToken.audAccepted, RoleConfig.validation, Validation.setIssuer,
    Validation.setAudience, Json.Parses, Json.Names]
  cases (p.get? "aud").bind Json.names with
  | none => simp
  | some given => simp

theorem expiry_iff {J : JsonWebToken} {role : RoleConfig} {a : Algorithm} {now : Nat} {p : Json} :
    (role.validation a).requiredSpecClaims.all (J.present p) = true ∧
        J.expNotPast (role.validation a) now p = true ↔
      ∃ exp, (p.get? "exp").bind J.numericDate = some exp ∧ now ≤ exp + 60 := by
  simp only [RoleConfig.validation, Validation.setIssuer, Validation.setAudience, Validation.new,
    List.all_cons, List.all_nil, Bool.and_true, JsonWebToken.present, JsonWebToken.expNotPast]
  cases (p.get? "exp").bind J.numericDate with
  | none => simp
  | some exp =>
    simp only [Option.isSome_some, true_and, Option.some.injEq, exists_eq_left']
    exact decide_eq_true_iff

theorem accepts_iff {J : JsonWebToken} {role : RoleConfig} {a : Algorithm} {now : Nat} {p : Json} :
    J.accepts (role.validation a) now p = true ↔
      p.unrepeated JsonWebToken.registered = true ∧
      (∃ exp, (p.get? "exp").bind J.numericDate = some exp ∧ now ≤ exp + 60) ∧
      (p.Parses "iss" → p.Names "iss" role.issuer) ∧
      (p.Parses "aud" → p.Names "aud" role.audience) := by
  simp only [JsonWebToken.accepts, Bool.and_eq_true, issAccepted_iff, audAccepted_iff]
  rw [← expiry_iff]
  constructor
  · intro h
    obtain ⟨⟨⟨⟨hu, hr⟩, he⟩, hi⟩, ha⟩ := h
    exact ⟨hu, ⟨hr, he⟩, hi, ha⟩
  · intro h
    obtain ⟨hu, ⟨hr, he⟩, hi, ha⟩ := h
    exact ⟨⟨⟨⟨hu, hr⟩, he⟩, hi⟩, ha⟩

/-! ## Acceptance -/

theorem validateTokenForRole_accepts {J : JsonWebToken} (hJ : J.Documented) {env : Environment}
    {now : Nat} {role : RoleConfig} {token : String} {w : World} :
    (∃ c, (validateTokenForRole J env now role token w).1 = .ok c) ↔
      ∃ p, J.payload token = some p ∧ PassesOtherChecks J env now role token w p ∧
        (p.Parses "iss" → p.Names "iss" role.issuer) ∧
        (p.Parses "aud" → p.Names "aud" role.audience) := by
  constructor
  · intro h
    obtain ⟨c, hc⟩ := h
    obtain ⟨header, key, hh, hallow, hkey, hdec⟩ := validateTokenForRole_ok.mp hc
    obtain ⟨header', p, hh', -, hv, hp, hacc, hde, hreq⟩ := (decodeForRole_ok hJ).mp hdec
    rw [hh] at hh'
    cases hh'
    obtain ⟨hu, hexp, hiss, haud⟩ := accepts_iff.mp hacc
    exact ⟨p, hp, ⟨⟨header, key, hh, hallow, hkey, hv⟩, hu, hexp, ⟨c, hde, hreq⟩⟩, hiss, haud⟩
  · intro h
    obtain ⟨p, hp, hother, hiss, haud⟩ := h
    obtain ⟨header, key, hh, hallow, hkey, hv⟩ := hother.verified
    obtain ⟨c, hde, hreq⟩ := hother.claims
    have hacc := accepts_iff (J := J) (a := header.alg).mpr
      ⟨hother.unrepeated, hother.unexpired, hiss, haud⟩
    refine ⟨c, validateTokenForRole_ok.mpr ⟨header, key, hh, hallow, hkey, ?_⟩⟩
    exact (decodeForRole_ok hJ).mpr ⟨header, p, hh, rfl, hv, hp, hacc, hde, hreq⟩

/-- **Binding to issuer and audience, exactly.** An accepted token names the role's issuer and
audience unless it slips through: it passes every other check, no `iss` or `aud` that parses is
wrong, and one of the two is absent or names no string. -/
theorem validateForRole_bound_iff (J : JsonWebToken) (hJ : J.Documented) (v : TokenValidator)
    (roleName token : String) (env : Environment) (now : Nat) (w : World) :
    (∀ c, (v.validateForRole J env now roleName token w).1 = .ok c →
      ∃ role p, v.roles[roleName]? = some role ∧ J.payload token = some p ∧
        p.Names "iss" role.issuer ∧ p.Names "aud" role.audience) ↔
    ∀ role p, v.roles[roleName]? = some role → J.payload token = some p →
      PassesOtherChecks J env now role token w p → ¬ SlipsThrough role p := by
  constructor
  · intro hbound role p hrole hp hother hslip
    obtain ⟨hiss, haud, hmissing⟩ := hslip
    obtain ⟨c, hc⟩ := (validateTokenForRole_accepts hJ).mpr ⟨p, hp, hother, hiss, haud⟩
    obtain ⟨role', p', hrole', hp', hiss', haud'⟩ :=
      hbound c (by simpa only [TokenValidator.validateForRole, hrole] using hc)
    rw [hp] at hp'
    cases hp'
    exact hmissing ⟨hiss'.parses, haud'.parses⟩
  · intro hcond c hc
    cases hrole : v.roles[roleName]? with
    | none =>
      simp only [TokenValidator.validateForRole, hrole] at hc
      cases hc
    | some role =>
      simp only [TokenValidator.validateForRole, hrole] at hc
      obtain ⟨p, hp, hother, hiss, haud⟩ := (validateTokenForRole_accepts hJ).mp ⟨c, hc⟩
      have hparsed : p.Parses "iss" ∧ p.Parses "aud" := by
        by_contra hmissing
        exact hcond role p hrole hp hother ⟨hiss, haud, hmissing⟩
      exact ⟨role, p, rfl, hp, hiss hparsed.1, haud hparsed.2⟩

/-! ## A token bound to nothing -/

def releaseRole : RoleConfig :=
  { name := "release", audience := "https://api.example", issuer := "https://issuer.example"
    validationKey := some "shared-secret", algorithms := [.hs256], claims := ∅ }

theorem releaseRole_valid : releaseRole.validate = .ok () := by decide

def releaseValidator : TokenValidator := TokenValidator.empty.add releaseRole releaseRole_valid

/-- A token whose payload has neither `iss` nor `aud`. -/
def unboundToken : JsonWebToken.Signed :=
  { token := "eyJhbGciOiJIUzI1NiIsInR5cCI6IkpXVCJ9." ++
      "eyJzdWIiOiJidWlsZGVyIiwiZXhwIjo0MTAyNDQ0ODAwfQ." ++
      "RIAr5BcUvJNDwoi_nq-AWHEcCeIRAktFBhg2fep_jwM"
    header := { alg := .hs256, kid := none }
    payload := .obj [("sub", .str "builder"), ("exp", .int 4102444800)]
    secret := "shared-secret" }

def boundToken : JsonWebToken.Signed :=
  { token := "eyJhbGciOiJIUzI1NiIsInR5cCI6IkpXVCJ9." ++
      "eyJzdWIiOiJidWlsZGVyIiwiaXNzIjoiaHR0cHM6Ly9pc3N1ZXIuZXhhbXBsZSIs" ++
      "ImF1ZCI6Imh0dHBzOi8vYXBpLmV4YW1wbGUiLCJleHAiOjQxMDI0NDQ4MDB9." ++
      "jqU3T6qdUngIitZnj6GWLdDXFgjsFhJzdmlQQCLv0_I"
    header := { alg := .hs256, kid := none }
    payload := .obj [("sub", .str "builder"), ("iss", .str "https://issuer.example"),
      ("aud", .str "https://api.example"), ("exp", .int 4102444800)]
    secret := "shared-secret" }

/-- A token signed with the role's secret that expires in 2100. -/
structure Release (s : JsonWebToken.Signed) : Prop where
  header : s.header = { alg := .hs256, kid := none }
  secret : s.secret = "shared-secret"
  unrepeated : s.payload.unrepeated JsonWebToken.registered = true
  expiry : s.payload.get? "exp" = some (.int 4102444800)
  claims : ∃ c, ValidatedClaims.deserialize s.payload = some c ∧ c.requireClaims ∅ = .ok ()

theorem Release.passes {s : JsonWebToken.Signed} (h : Release s) :
    PassesOtherChecks (.known [s]) .offline 1700000000 releaseRole s.token
      (World.start fun _ => 0) s.payload where
  verified := by
    have halg : s.header.alg = .hs256 := by rw [h.header]
    have hkey : (resolvingDecodingKey (.known [s]) .offline releaseRole s.token s.header.alg
        (World.start fun _ => 0)).1 = .ok ((JsonWebToken.known [s]).fromSecret s.secret) := by
      rw [halg, h.secret]
      exact decodingKey_unguarded _ (s := "shared-secret") (a := .hs256) rfl (by decide)
    refine ⟨s.header, _, JsonWebToken.known_header s, ?_, hkey, JsonWebToken.known_verify s⟩
    rw [halg]
    decide
  unrepeated := h.unrepeated
  unexpired := by
    rw [h.expiry]
    exact ⟨4102444800, (JsonWebToken.known_documented [s]).numericDate_int 4102444800, by decide⟩
  claims := h.claims

theorem unboundToken_release : Release unboundToken :=
  ⟨rfl, rfl, by decide, rfl, ⟨_, rfl, by decide⟩⟩

theorem boundToken_release : Release boundToken :=
  ⟨rfl, rfl, by decide, rfl, ⟨_, rfl, by decide⟩⟩

theorem releaseValidator_accepts {s : JsonWebToken.Signed} (h : Release s)
    (hiss : s.payload.Parses "iss" → s.payload.Names "iss" releaseRole.issuer)
    (haud : s.payload.Parses "aud" → s.payload.Names "aud" releaseRole.audience) :
    ∃ c, (releaseValidator.validateForRole (.known [s]) .offline 1700000000 "release" s.token
      (World.start fun _ => 0)).1 = .ok c := by
  have hrole : releaseValidator.roles["release"]? = some releaseRole :=
    TokenValidator.roles_add releaseRole_valid
  simp only [TokenValidator.validateForRole, hrole]
  exact (validateTokenForRole_accepts (JsonWebToken.known_documented [s])).mpr
    ⟨_, JsonWebToken.known_payload s, h.passes, hiss, haud⟩

/-- A token with the right `iss` and `aud` is accepted, and acceptance binds it. -/
theorem validateForRole_bound_iff_bound :
    ∃ c, (releaseValidator.validateForRole (.known [boundToken]) .offline 1700000000 "release"
        boundToken.token (World.start fun _ => 0)).1 = .ok c ∧
      ∃ role p, releaseValidator.roles["release"]? = some role ∧
        (JsonWebToken.known [boundToken]).payload boundToken.token = some p ∧
        p.Names "iss" role.issuer ∧ p.Names "aud" role.audience := by
  obtain ⟨c, hc⟩ := releaseValidator_accepts boundToken_release
    (fun _ => ⟨_, rfl, List.mem_singleton_self _⟩) (fun _ => ⟨_, rfl, List.mem_singleton_self _⟩)
  refine ⟨c, hc, (validateForRole_bound_iff (.known [boundToken]) (JsonWebToken.known_documented _)
    releaseValidator "release" boundToken.token .offline 1700000000 (World.start fun _ => 0)).mpr
      ?_ c hc⟩
  intro role p hrole hp _ hslip
  rw [JsonWebToken.known_payload] at hp
  cases hp
  exact hslip.2.2 ⟨⟨_, rfl⟩, ⟨_, rfl⟩⟩

/-- A role accepts a token whose payload has neither `iss` nor `aud`. -/
theorem validateForRole_accepts_unbound :
    TokenValidator.new [releaseRole] = .ok releaseValidator ∧
    (∃ c, (releaseValidator.validateForRole (.known [unboundToken]) .offline 1700000000 "release"
      unboundToken.token (World.start fun _ => 0)).1 = .ok c) ∧
    unboundToken.payload.get? "iss" = none ∧ unboundToken.payload.get? "aud" = none ∧
    ¬ ∀ J : JsonWebToken, J.Documented → ∀ (v : TokenValidator) (roleName token : String)
      (env : Environment) (now : Nat) (w : World) (c : ValidatedClaims),
      (v.validateForRole J env now roleName token w).1 = .ok c →
        ∃ role p, v.roles[roleName]? = some role ∧ J.payload token = some p ∧
          p.Names "iss" role.issuer ∧ p.Names "aud" role.audience := by
  have hdoc := JsonWebToken.known_documented [unboundToken]
  have hp := JsonWebToken.known_payload unboundToken
  have hiss : ¬ unboundToken.payload.Parses "iss" := by
    intro h
    obtain ⟨given, hgiven⟩ := h
    cases hgiven
  have haud : ¬ unboundToken.payload.Parses "aud" := by
    intro h
    obtain ⟨given, hgiven⟩ := h
    cases hgiven
  obtain ⟨c, haccept⟩ := releaseValidator_accepts unboundToken_release (fun h => absurd h hiss)
    (fun h => absurd h haud)
  refine ⟨TokenValidator.newLoop_cons releaseRole_valid rfl, ⟨c, haccept⟩, rfl, rfl, ?_⟩
  intro hclaim
  obtain ⟨role, p, -, hp', hnames, -⟩ := hclaim _ hdoc releaseValidator "release"
    unboundToken.token .offline 1700000000 _ c haccept
  rw [hp] at hp'
  cases hp'
  exact hiss hnames.parses

end Authzoo
