import Authzoo.Discovery

/-!
# Authzoo.Keys

Which key verifies a token (`keys.rs`): the role's configured key, read as a shared secret or as PEM
by the token's algorithm, or a discovered one.

`looks_like_pem` is the guard that keeps a public key from being used as a shared secret. It tests
for the armor at the start of the text, the PEM loaders look for it anywhere; `hmac_refused_iff`
says for which accepted keys the two agree.
-/

namespace Authzoo

def pemMarker : String := "-----BEGIN "

def looksLikePem (value : String) : Bool := Text.startsWith (Text.trimStart value) pemMarker

section

variable (J : JsonWebToken)

def decodingKeyForAlgorithm (validationKey : String) (algorithm : Algorithm) :
    Except AuthzooError J.DecodingKey :=
  match algorithm with
  | .hs256 | .hs384 | .hs512 =>
    if looksLikePem validationKey then
      .error (.other ("refusing to validate HMAC token with PEM validation key; " ++
        "issuer token algorithm was '" ++ algorithm.debug ++ "'"))
    else .ok (J.fromSecret validationKey)
  | .rs256 | .rs384 | .rs512 | .ps256 | .ps384 | .ps512 =>
    context "failed to parse RSA validation key" (J.fromRsaPem validationKey)
  | .es256 | .es384 => context "failed to parse EC validation key" (J.fromEcPem validationKey)
  | .edDsa => context "failed to parse EdDSA validation key" (J.fromEdPem validationKey)

def resolvingDecodingKey (env : Environment) (role : RoleConfig) (token : String)
    (algorithm : Algorithm) (w : World) : Except AuthzooError J.DecodingKey × World :=
  match role.validationKey with
  | some validationKey => (decodingKeyForAlgorithm J validationKey algorithm, w)
  | none => discoveryDecodingKey J env role token algorithm w

end

/-! ## The armor -/

/-- The text before the first armor marker and the text from the marker on. -/
def splitArmor (s : String) : Option (String × String) :=
  (s.toList.dropInfix? pemMarker.toList).map fun (before, rest) =>
    (.ofList before, .ofList (pemMarker.toList ++ rest))

/-- Whatever a PEM loader reads has an armor marker. -/
structure JsonWebToken.NeedsArmor (J : JsonWebToken) : Prop where
  rsa : ∀ {s key}, J.fromRsaPem s = some key → ∃ parts, splitArmor s = some parts
  ec : ∀ {s key}, J.fromEcPem s = some key → ∃ parts, splitArmor s = some parts
  ed : ∀ {s key}, J.fromEdPem s = some key → ∃ parts, splitArmor s = some parts

/-- The PEM loaders ignore what precedes the marker. A dash there could be read as one of its own. -/
structure JsonWebToken.IgnoresPreamble (J : JsonWebToken) : Prop where
  rsa : ∀ {before}, '-' ∉ before.toList → ∀ rest,
    J.fromRsaPem (before ++ (pemMarker ++ rest)) = J.fromRsaPem (pemMarker ++ rest)
  ec : ∀ {before}, '-' ∉ before.toList → ∀ rest,
    J.fromEcPem (before ++ (pemMarker ++ rest)) = J.fromEcPem (pemMarker ++ rest)
  ed : ∀ {before}, '-' ∉ before.toList → ∀ rest,
    J.fromEdPem (before ++ (pemMarker ++ rest)) = J.fromEdPem (pemMarker ++ rest)

theorem looksLikePem_iff {s before armored : String} (h : splitArmor s = some (before, armored)) :
    looksLikePem s = true ↔ ∀ c ∈ before.toList, Text.isWhitespace c = true := by
  simp only [splitArmor, Option.map_eq_some_iff, Prod.exists] at h
  obtain ⟨skipped, rest, hdrop, hpair⟩ := h
  cases hpair
  simp only [looksLikePem, Text.startsWith, Text.trimStart, String.toList_ofList,
    Text.dropPrefix_isSome]
  exact Text.dropInfix_start (by decide) hdrop

/-- Whatever loader accepts a key, the key has an armor marker. -/
theorem splitArmor_of_loaded {J : JsonWebToken} (hJ : J.NeedsArmor) {s : String}
    {algorithm : Algorithm} {key : J.DecodingKey} (ha : algorithm.isHmac = false)
    (h : decodingKeyForAlgorithm J s algorithm = .ok key) :
    ∃ parts, splitArmor s = some parts := by
  cases algorithm with
  | hs256 | hs384 | hs512 => cases ha
  | rs256 | rs384 | rs512 | ps256 | ps384 | ps512 => exact hJ.rsa (context_ok.mp h)
  | es256 | es384 => exact hJ.ec (context_ok.mp h)
  | edDsa => exact hJ.ed (context_ok.mp h)

theorem decodingKey_unguarded (J : JsonWebToken) {s : String} {a : Algorithm}
    (hh : a.isHmac = true) (h : looksLikePem s = false) :
    decodingKeyForAlgorithm J s a = .ok (J.fromSecret s) := by
  cases a with
  | hs256 | hs384 | hs512 => simp [decodingKeyForAlgorithm, h]
  | _ => cases hh

theorem decodingKey_hmac {J : JsonWebToken} {s : String} {algorithm : Algorithm}
    (hh : algorithm.isHmac = true) :
    (∃ e, decodingKeyForAlgorithm J s algorithm = .error e) ↔ looksLikePem s = true := by
  cases algorithm with
  | hs256 | hs384 | hs512 =>
    cases hp : looksLikePem s <;> simp [decodingKeyForAlgorithm, hp]
  | _ => cases hh

/-- **Exactly when the guard holds.** A key that some PEM loader accepts is refused as a shared
secret, by every HMAC algorithm and for every role that configures it, if and only if the text
before its first armor marker is all white space. -/
theorem hmac_refused_iff (J : JsonWebToken) (hJ : J.NeedsArmor) (s : String)
    (a h : Algorithm) (ha : a.isHmac = false) (hh : h.isHmac = true)
    (hload : ∃ key, decodingKeyForAlgorithm J s a = .ok key) :
    ((∃ e, decodingKeyForAlgorithm J s h = .error e) ∧
      ∀ (role : RoleConfig) (env : Environment) (token : String) (w : World),
        role.validationKey = some s →
          ∃ e, (resolvingDecodingKey J env role token h w).1 = .error e) ↔
    ∃ before armored, splitArmor s = some (before, armored) ∧
      ∀ c ∈ before.toList, Text.isWhitespace c = true := by
  obtain ⟨key, hkey⟩ := hload
  obtain ⟨⟨before, armored⟩, hsplit⟩ := splitArmor_of_loaded hJ ha hkey
  have hguard := (decodingKey_hmac (J := J) (s := s) hh).trans (looksLikePem_iff hsplit)
  constructor
  · intro hrefused
    exact ⟨before, armored, hsplit, hguard.mp hrefused.1⟩
  · intro hwhite
    obtain ⟨before', armored', hsplit', hall⟩ := hwhite
    rw [hsplit] at hsplit'
    cases hsplit'
    obtain ⟨e, he⟩ := hguard.mpr hall
    refine ⟨⟨e, he⟩, fun role env token w hrole => ⟨e, ?_⟩⟩
    simp only [resolvingDecodingKey, hrole]
    exact he

/-! ## A public key in plain sight -/

theorem splitArmor_append {before : String} (h : '-' ∉ before.toList) (rest : String) :
    splitArmor (before ++ (pemMarker ++ rest)) = some (before, pemMarker ++ rest) := by
  have hdrop := Text.dropInfix_append h ['-', '-', '-', '-', 'B', 'E', 'G', 'I', 'N', ' '] rest.toList
  have hmarker : pemMarker.toList = ['-', '-', '-', '-', '-', 'B', 'E', 'G', 'I', 'N', ' '] := by
    decide
  simp only [splitArmor, String.toList_append, hmarker, hdrop, Option.map_some, String.ofList_toList,
    Option.some.injEq, Prod.mk.injEq, true_and]
  rw [← hmarker, String.ofList_append, String.ofList_toList, String.ofList_toList]

def ed25519Pem : String :=
  pemMarker ++ ("PUBLIC KEY-----\nMCowBQYDK2VwAyEAGb9ECWmEzf6FQbrBZ9w7lshQhqowtrbLDFw4rXAxZuE=\n" ++
    "-----END PUBLIC KEY-----\n")

/-- The crate with its Ed25519 loader, as far as the start of the key's encoding. -/
def ed25519Crate : JsonWebToken :=
  { JsonWebToken.known [] with
    fromEdPem := fun s => (splitArmor s).bind fun (_, armored) =>
      if Text.startsWith armored "-----BEGIN PUBLIC KEY-----\nMCowBQYDK2VwAyEA" then some armored
      else none }

theorem ed25519Crate_needsArmor : ed25519Crate.NeedsArmor where
  rsa h := by cases h
  ec h := by cases h
  ed h := by
    obtain ⟨parts, hparts, -⟩ := Option.bind_eq_some_iff.mp h
    exact ⟨parts, hparts⟩

theorem ed25519Crate_ignoresPreamble : ed25519Crate.IgnoresPreamble where
  rsa _ _ := rfl
  ec _ _ := rfl
  ed hdash rest := by
    have hempty : '-' ∉ "".toList := by decide
    have hbare := splitArmor_append hempty rest
    rw [String.empty_append] at hbare
    simp only [ed25519Crate, splitArmor_append hdash, hbare, Option.bind_some]

theorem ed25519Crate_loads {before : String} (h : '-' ∉ before.toList) :
    decodingKeyForAlgorithm ed25519Crate (before ++ ed25519Pem) .edDsa = .ok ed25519Pem := by
  have hstart : Text.startsWith ed25519Pem
      "-----BEGIN PUBLIC KEY-----\nMCowBQYDK2VwAyEA" = true := by decide
  refine context_ok.mpr ?_
  simp only [ed25519Crate, ed25519Pem, splitArmor_append h, Option.bind_some]
  exact if_pos hstart

/-- At the bare key the guard holds. -/
theorem hmac_refused_iff_bare :
    ∃ e, decodingKeyForAlgorithm ed25519Crate ("" ++ ed25519Pem) .hs256 = .error e :=
  ((hmac_refused_iff ed25519Crate ed25519Crate_needsArmor ("" ++ ed25519Pem) .edDsa .hs256 rfl rfl
    ⟨ed25519Pem, ed25519Crate_loads (by decide)⟩).mpr
      ⟨"", ed25519Pem, splitArmor_append (by decide) _, fun c hc => by simp at hc⟩).1

/-- A key file that describes the key before the armor. -/
def annotatedPem : String := "Ed25519 key of the issuer\n" ++ ed25519Pem

def annotatedRole : RoleConfig :=
  { name := "deploy", audience := "https://api.example", issuer := "https://issuer.example"
    validationKey := some annotatedPem, algorithms := [.edDsa, .hs256], claims := ∅ }

/-- The guard does not hold for every accepted key: a role that passes `validate` and allows EdDSA
and HS256 verifies HS256 tokens with the text of its public key as the shared secret. -/
theorem hmac_accepts_annotated_pem :
    annotatedRole.validate = .ok () ∧
    annotatedRole.allowsAlgorithm .edDsa = true ∧ annotatedRole.allowsAlgorithm .hs256 = true ∧
    decodingKeyForAlgorithm ed25519Crate annotatedPem .edDsa = .ok ed25519Pem ∧
    decodingKeyForAlgorithm ed25519Crate annotatedPem .hs256 =
      .ok (ed25519Crate.fromSecret annotatedPem) ∧
    ¬ ∀ (J : JsonWebToken), J.NeedsArmor → J.IgnoresPreamble → ∀ (s : String) (h a : Algorithm),
      h.isHmac = true → a.isHmac = false → (∃ key, decodingKeyForAlgorithm J s a = .ok key) →
        ∃ e, decodingKeyForAlgorithm J s h = .error e := by
  have hload : decodingKeyForAlgorithm ed25519Crate annotatedPem .edDsa = .ok ed25519Pem :=
    ed25519Crate_loads (by decide)
  have hlooks : looksLikePem annotatedPem = false := by
    rw [Bool.eq_false_iff]
    intro hlooks
    have hwhite := (looksLikePem_iff (splitArmor_append (by decide) _)).mp hlooks 'E' (by decide)
    exact absurd hwhite (by decide)
  have hsecret := decodingKey_unguarded ed25519Crate (s := annotatedPem) (a := .hs256) rfl hlooks
  refine ⟨by decide, by decide, by decide, hload, hsecret, ?_⟩
  intro hclaim
  obtain ⟨e, he⟩ := hclaim ed25519Crate ed25519Crate_needsArmor ed25519Crate_ignoresPreamble _
    .hs256 .edDsa rfl rfl ⟨_, hload⟩
  rw [hsecret] at he
  cases he

end Authzoo
