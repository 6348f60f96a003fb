import Authzoo.Lib.Base64
import Authzoo.Oauth.Request

/-!
# Authzoo.Oauth.Pkce

Proof keys for code exchange (`protocol.rs`): `valid_verifier` and `verify_pkce`, and how they fit
the challenge that `validate_authorization_request` stores. SHA-256 is a parameter of which only the
length of a digest is known.

`verify_pkce` compares digests of the two challenges, so it is exact as far as those two texts do
not collide. The challenge check is not: it takes the length and the alphabet of a digest's encoding
for the encoding (`challenge_is_digest_iff`).
-/

namespace Authzoo.Oauth

structure Sha256 where
  digest : List UInt8 → List UInt8
  length : ∀ message, (digest message).length = 32

def validVerifier (value : String) : Bool :=
  43 ≤ value.utf8ByteSize && value.utf8ByteSize ≤ 128 &&
    value.toList.all fun c => c.isAlphanum || c = '-' || c = '.' || c = '_' || c = '~'

section

variable (H : Sha256)

/-- The S256 challenge of a verifier. -/
def s256 (codeVerifier : String) : String := Base64.encode (H.digest (Ascii.bytes codeVerifier))

def verifyPkce (codeVerifier expectedChallenge : String) : Bool :=
  let challenge := s256 H codeVerifier
  H.digest (Ascii.bytes challenge) = H.digest (Ascii.bytes expectedChallenge)

/-- The two texts have different digests, or are one. -/
def NoCollision (a b : String) : Prop :=
  H.digest (Ascii.bytes a) = H.digest (Ascii.bytes b) → Ascii.bytes a = Ascii.bytes b

/-- The length of an encoded digest in bytes. -/
theorem s256_bytes (codeVerifier : String) : (Ascii.bytes (s256 H codeVerifier)).length = 43 := by
  have hascii : ∀ c ∈ (s256 H codeVerifier).toList, c.toNat < 128 := fun c hc =>
    Base64.isDigit_ascii (Base64.encode_alphabet _ c hc)
  rw [Ascii.bytes_ascii hascii, List.length_map, s256, Base64.encode_length, H.length]

/-- Whatever the verifier, its challenge passes the challenge check. -/
theorem s256_challenge (codeVerifier : String) : IsChallenge (s256 H codeVerifier) := by
  refine isChallenge_iff.mp ?_
  have hlength := s256_bytes H codeVerifier
  rw [Ascii.bytes_length] at hlength
  simp only [isChallenge, hlength, decide_true, Bool.true_and, List.all_eq_true]
  exact fun c hc => Base64.encode_alphabet _ c hc

theorem verifyPkce_s256 (codeVerifier : String) :
    verifyPkce H codeVerifier (s256 H codeVerifier) = true := decide_eq_true rfl

theorem verifyPkce_exact {codeVerifier challenge : String}
    (hfree : NoCollision H (s256 H codeVerifier) challenge) :
    verifyPkce H codeVerifier challenge = true ↔ challenge = s256 H codeVerifier := by
  constructor
  · intro h
    exact (Ascii.bytes_inj (hfree (of_decide_eq_true h))).symm
  · rintro rfl
    exact verifyPkce_s256 H codeVerifier

/-- **PKCE end to end.** The challenge of a valid verifier is accepted in every otherwise acceptable
request, stored unchanged and verified; and only the verifiers of a stored challenge verify it. -/
theorem pkce_end_to_end (U : UrlCrate) (request : AuthorizationRequest) (client : Client)
    (policy : AuthorizationPolicy) :
    (∀ v, validVerifier v = true → Grantable U request client policy →
      request.codeChallengeMethod = some "S256" → request.codeChallenge = some (s256 H v) →
      ∃ p, validateAuthorizationRequest U request client policy = .ok p ∧
        p.codeChallenge = s256 H v ∧ verifyPkce H v p.codeChallenge = true) ∧
    ∀ w p, validateAuthorizationRequest U request client policy = .ok p →
      NoCollision H (s256 H w) p.codeChallenge →
      verifyPkce H w p.codeChallenge = true → p.codeChallenge = s256 H w := by
  constructor
  · intro v _ hgrant hmethod hchallenge
    obtain ⟨tokens, htokens, -, -⟩ := hgrant.scopes
    have hsafe : Safe U request client policy :=
      ⟨hgrant, hmethod, _, hchallenge, s256_challenge H v⟩
    exact ⟨⟨request.resource, client.clientId, request.redirectUri, tokens, request.state,
      request.nonce, s256 H v⟩, hsafe.accepted
        ⟨rfl, rfl, rfl, rfl, rfl, hchallenge, htokens⟩, rfl, verifyPkce_s256 H v⟩
  · intro w p _ hfree hverified
    exact (verifyPkce_exact H hfree).mp hverified

end

/-! ## The vector of RFC 7636 -/

def rfcVerifier : String := "dBjftJeZ4CVP-mB92K27uhbUJU1p1r_wW1gFWFOEjXk"

def rfcChallenge : String := "E9Melhoa2OwvFrEMTJguCHaoeK1t8URWbuGJSstw-cM"

/-- The digests of the two texts. -/
def rfcSha256 : Sha256 where
  digest message :=
    if message = Ascii.bytes rfcVerifier then
      [19, 211, 30, 150, 26, 26, 216, 236, 47, 22, 177, 12, 76, 152, 46, 8,
        118, 168, 120, 173, 109, 241, 68, 86, 110, 225, 137, 74, 203, 112, 249, 195]
    else if message = Ascii.bytes rfcChallenge then
      [13, 41, 155, 30, 181, 72, 112, 141, 4, 83, 78, 126, 5, 12, 66, 123,
        86, 237, 250, 21, 209, 54, 55, 163, 72, 75, 221, 97, 186, 191, 131, 132]
    else List.replicate 32 0
  length message := by
    split
    · rfl
    · split <;> rfl

/-- The vector passes through the example request, and back. -/
theorem pkce_end_to_end_vector :
    ∃ p, validateAuthorizationRequest exampleCrate exampleRequest
        ⟨exampleId, "Example", ["http://127.0.0.1/cb"], true, .native⟩
        ⟨.resourceDefined, .metadataClients⟩ = .ok p ∧
      verifyPkce rfcSha256 rfcVerifier p.codeChallenge = true ∧
      p.codeChallenge = s256 rfcSha256 rfcVerifier := by
  have hok : validateAuthorizationRequest exampleCrate exampleRequest
      ⟨exampleId, "Example", ["http://127.0.0.1/cb"], true, .native⟩
      ⟨.resourceDefined, .metadataClients⟩ =
        .ok ⟨some "https://api.example/", exampleId, "http://127.0.0.1:8080/cb", ["email"], none, none,
          "E9Melhoa2OwvFrEMTJguCHaoeK1t8URWbuGJSstw-cM"⟩ := by decide
  have hgrant := (safe_of_accepted hok).1.toGrantable
  obtain ⟨hforth, hback⟩ := pkce_end_to_end rfcSha256 exampleCrate exampleRequest
    ⟨exampleId, "Example", ["http://127.0.0.1/cb"], true, .native⟩
    ⟨.resourceDefined, .metadataClients⟩
  obtain ⟨p, hp, hstored, hverified⟩ := hforth rfcVerifier (by decide) hgrant rfl (by decide)
  exact ⟨p, hp, hverified, hback rfcVerifier p hp (fun _ => by rw [hstored]) hverified⟩

/-! ## Challenges of no digest -/

/-- 32 bytes leave two bits of the last character unused; they are zero in a digest's challenge. -/
def endsInFullBytes (challenge : String) : Prop :=
  ∃ c, challenge.toList.getLast? = some c ∧ c ∈ "AEIMQUYcgkosw048".toList

theorem IsChallenge.digest_iff {challenge : String} (h : IsChallenge challenge) :
    (∃ digest : List UInt8, digest.length = 32 ∧ Base64.encode digest = challenge) ↔
      endsInFullBytes challenge := by
  have hchallenge := isChallenge_iff.mpr h
  simp only [isChallenge, Bool.and_eq_true, List.all_eq_true] at hchallenge
  have hdigits : ∀ c ∈ challenge.toList, Base64.isDigit c = true := hchallenge.2
  have hascii : ∀ c ∈ challenge.toList, c.toNat < 128 := fun c hc =>
    Base64.isDigit_ascii (hdigits c hc)
  have hlength : challenge.toList.length = 43 := by
    have hbytes := h.1
    rwa [Ascii.bytes_ascii hascii, List.length_map] at hbytes
  have hencode : ∀ digest, Base64.encode digest = challenge ↔
      Base64.digits digest = challenge.toList := by
    intro digest
    rw [← String.toList_inj, Base64.encode, String.toList_ofList]
  simp only [hencode, Base64.exists_encode_iff, hlength]
  rw [Base64.canonical_iff_last (by rw [hlength])]
  constructor
  · rintro ⟨-, ⟨c, hlast, hzero⟩, -⟩
    exact ⟨c, hlast, (Base64.value_mod_four (hdigits c (List.mem_of_getLast? hlast))).mp hzero⟩
  · rintro ⟨c, hlast, hin⟩
    exact ⟨hdigits, ⟨c, hlast,
      (Base64.value_mod_four (hdigits c (List.mem_of_getLast? hlast))).mpr hin⟩, trivial⟩

/-- **Which challenges are digests.** An otherwise acceptable request passes only with the encoding
of a 32-byte digest, exactly if its challenge is not 43 characters of the alphabet or its last
character leaves no bits over; and with 43 characters of the alphabet it always passes. -/
theorem challenge_is_digest_iff (U : UrlCrate) (request : AuthorizationRequest) (client : Client)
    (policy : AuthorizationPolicy) (hgrant : Grantable U request client policy)
    (hmethod : request.codeChallengeMethod = some "S256") (challenge : String)
    (hchallenge : request.codeChallenge = some challenge) :
    ((∃ p, validateAuthorizationRequest U request client policy = .ok p) ↔
      IsChallenge challenge) ∧
    (((∃ p, validateAuthorizationRequest U request client policy = .ok p) →
        ∃ digest : List UInt8, digest.length = 32 ∧ Base64.encode digest = challenge) ↔
      (IsChallenge challenge → endsInFullBytes challenge)) := by
  have haccepted : (∃ p, validateAuthorizationRequest U request client policy = .ok p) ↔
      IsChallenge challenge := by
    constructor
    · rintro ⟨p, hp⟩
      obtain ⟨given, hgiven, hform⟩ := (safe_of_accepted hp).1.challenge
      rw [hchallenge] at hgiven
      exact Option.some.inj hgiven ▸ hform
    · intro hform
      obtain ⟨tokens, htokens, -, -⟩ := hgrant.scopes
      exact ⟨⟨request.resource, client.clientId, request.redirectUri, tokens, request.state,
        request.nonce, challenge⟩, Safe.accepted
          ⟨hgrant, hmethod, challenge, hchallenge, hform⟩ ⟨rfl, rfl, rfl, rfl, rfl, hchallenge,
            htokens⟩⟩
  refine ⟨haccepted, ?_⟩
  rw [haccepted]
  exact forall_congr' IsChallenge.digest_iff

/-- The challenge of the vector is a digest. -/
theorem challenge_is_digest_iff_vector :
    ∃ digest : List UInt8, digest.length = 32 ∧ Base64.encode digest = rfcChallenge := by
  have hok : validateAuthorizationRequest exampleCrate exampleRequest metadataClient
      ⟨.resourceDefined, .metadataClients⟩ = .ok (examplePending rfcChallenge) := by decide
  have hgrant := (safe_of_accepted hok).1.toGrantable
  exact (challenge_is_digest_iff exampleCrate exampleRequest metadataClient
    ⟨.resourceDefined, .metadataClients⟩ hgrant rfl rfcChallenge rfl).2.mpr
      (fun _ => ⟨'M', by decide, by decide⟩) ⟨_, hok⟩

/-- The challenge of the vector with one of the spare bits set. -/
def spareChallenge : String := "E9Melhoa2OwvFrEMTJguCHaoeK1t8URWbuGJSstw-cN"

/-- It is accepted, and no digest has it. -/
theorem spare_bits_accepted :
    validateAuthorizationRequest exampleCrate
      { exampleRequest with codeChallenge := some spareChallenge } metadataClient
      ⟨.resourceDefined, .metadataClients⟩ = .ok (examplePending spareChallenge) ∧
    (¬ ∃ digest : List UInt8, digest.length = 32 ∧ Base64.encode digest = spareChallenge) ∧
    ¬ ∀ (U : UrlCrate) (request : AuthorizationRequest) (client : Client)
        (policy : AuthorizationPolicy) (challenge : String), Grantable U request client policy →
      request.codeChallengeMethod = some "S256" → request.codeChallenge = some challenge →
      (∃ p, validateAuthorizationRequest U request client policy = .ok p) →
        ∃ digest : List UInt8, digest.length = 32 ∧ Base64.encode digest = challenge := by
  have hok : validateAuthorizationRequest exampleCrate
      { exampleRequest with codeChallenge := some spareChallenge } metadataClient
      ⟨.resourceDefined, .metadataClients⟩ = .ok (examplePending spareChallenge) := by decide
  have hsafe := (safe_of_accepted hok).1
  have hnone : ¬ ∃ digest : List UInt8, digest.length = 32 ∧
      Base64.encode digest = spareChallenge := by
    rw [(isChallenge_iff.mp (by decide : isChallenge spareChallenge = true)).digest_iff]
    rintro ⟨c, hlast, hin⟩
    obtain rfl : 'N' = c := Option.some.inj hlast
    exact absurd hin (by decide)
  exact ⟨hok, hnone, fun hclaim =>
    hnone (hclaim _ _ _ _ spareChallenge hsafe.toGrantable rfl rfl ⟨_, hok⟩)⟩

end Authzoo.Oauth
