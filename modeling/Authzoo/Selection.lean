import Authzoo.Discovery
import Authzoo.Lib.Choice

/-!
# Authzoo.Selection

Which key `select_jwk_for_token` takes from a key set.

With a `kid` it takes the first key of that name and then looks whether the key fits the algorithm;
without one it looks for the keys that fit. So a shared `kid` makes the order of the set decide
(`selection_orderless_iff`). Neither way looks at the curve of a key: `Usable` is what the
algorithms' registrations ask of one, and `Misfit` is what the code takes for usable beyond that.
-/

namespace Authzoo

/-! ## The order of the set -/

/-- The key has the token's `kid`, if there is one. -/
def Jwk.named (jwk : Jwk) : Option String → Bool
  | some kid => jwk.common.keyId = some kid
  | none => true

section

variable (jwks : JwkSet) (kid : Option String) (algorithm : Algorithm)

/-- The same key is selected from every permutation of the set, or none is from any. -/
def OrderFree : Prop :=
  ∀ keys : List Jwk, keys.Perm jwks.keys → ∀ jwk,
    selectJwkForToken ⟨keys⟩ kid algorithm = .ok jwk ↔ selectJwkForToken jwks kid algorithm = .ok jwk

/-- The only key that has the name and is compatible is selected. -/
def FindsCompatible : Prop :=
  ∀ jwk, jwks.keys.filter (fun jwk => jwk.named kid && jwkMatchesAlgorithm jwk algorithm) = [jwk] →
    selectJwkForToken jwks kid algorithm = .ok jwk

/-- A `kid` names one key, or no key that is compatible. -/
def KidDecides : Prop :=
  ∀ name, kid = some name →
    (∀ jwk ∈ jwks.keys, jwk.common.keyId = some name → jwkMatchesAlgorithm jwk algorithm = false) ∨
    ∀ jwk ∈ jwks.keys, ∀ jwk' ∈ jwks.keys, jwk.common.keyId = some name →
      jwk'.common.keyId = some name → jwk = jwk'

end

section

variable {jwks : JwkSet} {kid : Option String} {algorithm : Algorithm}

theorem orderFree_none : OrderFree jwks none algorithm := by
  intro keys hperm jwk
  rw [selectJwkForToken_none, selectJwkForToken_none]
  exact Choice.filter_eq_singleton_perm hperm

theorem findsCompatible_none : FindsCompatible jwks none algorithm :=
  fun _ h => selectJwkForToken_none.mpr h

/-- Where a `kid` names one key, selection is by membership. -/
theorem selectJwkForToken_mem {name : String} {jwk : Jwk}
    (h : ∀ jwk ∈ jwks.keys, ∀ jwk' ∈ jwks.keys, jwk.common.keyId = some name →
      jwk'.common.keyId = some name → jwk = jwk') :
    selectJwkForToken jwks (some name) algorithm = .ok jwk ↔
      jwk ∈ jwks.keys ∧ jwk.common.keyId = some name ∧ jwkMatchesAlgorithm jwk algorithm = true := by
  have hfind : jwks.find name = some jwk ↔ jwk ∈ jwks.keys ∧ jwk.common.keyId = some name := by
    rw [JwkSet.find, Choice.find_iff_mem, decide_eq_true_eq]
    intro x hx y hy hxname hyname
    exact h x hx y hy (of_decide_eq_true hxname) (of_decide_eq_true hyname)
  rw [selectJwkForToken_kid, hfind, and_assoc]

/-- No order of the set selects a key when none of the name is compatible. -/
theorem selectJwkForToken_incompatible {name : String} {jwk : Jwk}
    (h : ∀ jwk ∈ jwks.keys, jwk.common.keyId = some name →
      jwkMatchesAlgorithm jwk algorithm = false) :
    selectJwkForToken jwks (some name) algorithm ≠ .ok jwk := by
  intro hok
  obtain ⟨hfind, hmatch⟩ := selectJwkForToken_kid.mp hok
  have hname := List.find?_some hfind
  rw [h jwk (List.mem_of_find?_eq_some hfind) (of_decide_eq_true hname)] at hmatch
  cases hmatch

theorem KidDecides.orderFree (h : KidDecides jwks kid algorithm) : OrderFree jwks kid algorithm := by
  cases kid with
  | none => exact orderFree_none
  | some name =>
    intro keys hperm jwk
    rcases h name rfl with hnone | hone
    · have hnone' : ∀ jwk ∈ keys, jwk.common.keyId = some name →
          jwkMatchesAlgorithm jwk algorithm = false := fun jwk hin => hnone jwk (hperm.subset hin)
      exact iff_of_false (selectJwkForToken_incompatible hnone')
        (selectJwkForToken_incompatible hnone)
    · have hone' : ∀ jwk ∈ keys, ∀ jwk' ∈ keys, jwk.common.keyId = some name →
          jwk'.common.keyId = some name → jwk = jwk' := fun jwk hin jwk' hin' =>
        hone jwk (hperm.subset hin) jwk' (hperm.subset hin')
      rw [selectJwkForToken_mem hone, selectJwkForToken_mem hone', hperm.mem_iff]

theorem KidDecides.findsCompatible (h : KidDecides jwks kid algorithm) :
    FindsCompatible jwks kid algorithm := by
  cases kid with
  | none => exact findsCompatible_none
  | some name =>
    intro jwk honly
    have hin : jwk ∈ jwks.keys.filter fun jwk =>
        jwk.named (some name) && jwkMatchesAlgorithm jwk algorithm :=
      honly ▸ List.mem_singleton_self jwk
    obtain ⟨hmem, hfits⟩ := List.mem_filter.mp hin
    simp only [Jwk.named, Bool.and_eq_true, decide_eq_true_eq] at hfits
    rcases h name rfl with hnone | hone
    · rw [hnone jwk hmem hfits.1] at hfits
      cases hfits.2
    · exact (selectJwkForToken_mem hone).mpr ⟨hmem, hfits⟩

/-- The set is ordered so that a given key of the name comes first. -/
theorem exists_order {name : String} {jwk : Jwk} (hin : jwk ∈ jwks.keys)
    (hname : jwk.common.keyId = some name) :
    ∃ keys : List Jwk, keys.Perm jwks.keys ∧ (JwkSet.mk keys).find name = some jwk :=
  Choice.exists_perm_find hin (decide_eq_true hname)

theorem OrderFree.kidDecides (h : OrderFree jwks kid algorithm) :
    KidDecides jwks kid algorithm := by
  rintro name rfl
  rw [or_iff_not_imp_left]
  intro hsome
  push Not at hsome
  obtain ⟨fit, hin, hname, hfit⟩ := hsome
  have hfit : jwkMatchesAlgorithm fit algorithm = true := by simpa using hfit
  obtain ⟨keys, hperm, hfirst⟩ := exists_order hin hname
  have hselected := (h keys hperm fit).mp (selectJwkForToken_kid.mpr ⟨hfirst, hfit⟩)
  -- whichever key of the name is put first, the selected one is still the compatible one
  have hall : ∀ jwk ∈ jwks.keys, jwk.common.keyId = some name → jwk = fit := by
    intro jwk hin' hname'
    obtain ⟨keys', hperm', hfirst'⟩ := exists_order hin' hname'
    have hfound := (selectJwkForToken_kid.mp ((h keys' hperm' fit).mpr hselected)).1
    rw [hfirst'] at hfound
    exact Option.some.inj hfound
  intro jwk hin' jwk' hin'' hname' hname''
  rw [hall jwk hin' hname', hall jwk' hin'' hname'']

end

/-- **When the order of the set does not matter**, and the compatible key is found: exactly when a
`kid` names one key only, or no compatible one. -/
theorem selection_orderless_iff (jwks : JwkSet) (kid : Option String) (algorithm : Algorithm) :
    (OrderFree jwks kid algorithm ∧ FindsCompatible jwks kid algorithm) ↔
      KidDecides jwks kid algorithm :=
  ⟨fun h => h.1.kidDecides, fun h => ⟨h.orderFree, h.findsCompatible⟩⟩

def sharedRsa : Jwk := ⟨⟨some .signature, none, some "one"⟩, .rsa "sXch" "AQAB"⟩

def sharedEc : Jwk :=
  ⟨⟨some .signature, none, some "one"⟩, .ellipticCurve .p256 "f83OJ3D2" "x_FEzRu9"⟩

/-- Two key types share a `kid`: the EC key is found when it comes first only. -/
theorem selection_depends_on_order :
    selectJwkForToken ⟨[sharedEc, sharedRsa]⟩ (some "one") .es256 = .ok sharedEc ∧
    selectJwkForToken ⟨[sharedRsa, sharedEc]⟩ (some "one") .es256 =
      .error (.other "discovered JWK 'one' is not compatible with algorithm 'ES256'") ∧
    [sharedRsa, sharedEc].filter (fun jwk => jwk.named (some "one") &&
      jwkMatchesAlgorithm jwk .es256) = [sharedEc] ∧
    ¬ ∀ (jwks : JwkSet) (kid : Option String) (algorithm : Algorithm),
      OrderFree jwks kid algorithm ∧ FindsCompatible jwks kid algorithm := by
  have hrefused : selectJwkForToken ⟨[sharedRsa, sharedEc]⟩ (some "one") .es256 =
      .error (.other "discovered JWK 'one' is not compatible with algorithm 'ES256'") := rfl
  have honly : [sharedRsa, sharedEc].filter (fun jwk => jwk.named (some "one") &&
      jwkMatchesAlgorithm jwk .es256) = [sharedEc] := rfl
  refine ⟨rfl, hrefused, honly, fun hclaim => ?_⟩
  have hfound := (hclaim ⟨[sharedRsa, sharedEc]⟩ (some "one") .es256).2 sharedEc honly
  rw [hrefused] at hfound
  cases hfound

/-! ## The curve of a key -/

/-- The key type and the curve that RFC 7518 and RFC 8037 prescribe for the algorithm. -/
def Prescribed (algorithm : Algorithm) : AlgorithmParameters → Prop
  | .octetKey _ => algorithm ∈ [.hs256, .hs384, .hs512]
  | .rsa _ _ => algorithm ∈ [.rs256, .rs384, .rs512, .ps256, .ps384, .ps512]
  | .ellipticCurve curve _ _ =>
    algorithm = .es256 ∧ curve = .p256 ∨ algorithm = .es384 ∧ curve = .p384
  | .octetKeyPair curve _ => algorithm = .edDsa ∧ curve = .ed25519

instance (algorithm : Algorithm) : DecidablePred (Prescribed algorithm)
  | .octetKey _ => inferInstanceAs (Decidable (_ ∈ _))
  | .rsa _ _ => inferInstanceAs (Decidable (_ ∈ _))
  | .ellipticCurve _ _ _ => inferInstanceAs (Decidable (_ ∨ _))
  | .octetKeyPair _ _ => inferInstanceAs (Decidable (_ ∧ _))

/-- A key that the algorithm can use. -/
def Usable (algorithm : Algorithm) (jwk : Jwk) : Prop :=
  (jwk.common.publicKeyUse = none ∨ jwk.common.publicKeyUse = some .signature) ∧
    (jwk.common.keyAlgorithm = none ∨
      jwk.common.keyAlgorithm = some (keyAlgorithmForAlgorithm algorithm)) ∧
    Prescribed algorithm jwk.algorithm

instance (algorithm : Algorithm) : DecidablePred (Usable algorithm) := fun _ =>
  inferInstanceAs (Decidable (_ ∧ _))

/-- A key that the code takes for compatible although it is on another curve. -/
def Misfit (algorithm : Algorithm) (jwk : Jwk) : Prop :=
  jwkMatchesAlgorithm jwk algorithm = true ∧ ¬ Prescribed algorithm jwk.algorithm

instance (algorithm : Algorithm) : DecidablePred (Misfit algorithm) := fun _ =>
  inferInstanceAs (Decidable (_ ∧ _))

section

variable (jwks : JwkSet) (kid : Option String) (algorithm : Algorithm)

/-- A selected key is usable. -/
def SelectsUsable : Prop :=
  ∀ jwk, selectJwkForToken jwks kid algorithm = .ok jwk → Usable algorithm jwk

/-- Without a `kid` the only usable key is selected. -/
def FindsUsable : Prop :=
  kid = none → ∀ jwk, jwks.keys.filter (Usable algorithm ·) = [jwk] →
    selectJwkForToken jwks kid algorithm = .ok jwk

/-- The first key with the token's `kid` is no misfit. Without a `kid` the set has no misfit, or
selection fails as it must: with several usable keys, or with none and several misfits. -/
def CurvesFit : Prop :=
  match kid with
  | some name => ∀ jwk, jwks.find name = some jwk → ¬ Misfit algorithm jwk
  | none => (∀ jwk ∈ jwks.keys, ¬ Misfit algorithm jwk) ∨
      2 ≤ (jwks.keys.filter (Usable algorithm ·)).length ∨
      jwks.keys.filter (Usable algorithm ·) = [] ∧
        2 ≤ (jwks.keys.filter (Misfit algorithm ·)).length

end

section

variable {jwks : JwkSet} {kid : Option String} {algorithm : Algorithm} {jwk : Jwk}

/-- The code's test, but for the curve. -/
theorem jwkMatchesAlgorithm_iff : jwkMatchesAlgorithm jwk algorithm = true ↔
    (jwk.common.publicKeyUse = none ∨ jwk.common.publicKeyUse = some .signature) ∧
    (jwk.common.keyAlgorithm = none ∨
      jwk.common.keyAlgorithm = some (keyAlgorithmForAlgorithm algorithm)) ∧
    jwk.algorithm.signs algorithm = true := by
  obtain ⟨⟨use, alg, id⟩, parameters⟩ := jwk
  simp only [jwkMatchesAlgorithm, keyAlgorithmMatches, Bool.and_eq_true, and_assoc]
  cases use <;> cases alg <;> simp

theorem Prescribed.signs {parameters : AlgorithmParameters} (h : Prescribed algorithm parameters) :
    parameters.signs algorithm = true := by
  cases parameters with
  | octetKey value =>
    simp only [Prescribed, List.mem_cons, List.not_mem_nil, or_false] at h
    rcases h with rfl | rfl | rfl <;> rfl
  | rsa n e =>
    simp only [Prescribed, List.mem_cons, List.not_mem_nil, or_false] at h
    rcases h with rfl | rfl | rfl | rfl | rfl | rfl <;> rfl
  | ellipticCurve curve x y =>
    rcases h with ⟨rfl, -⟩ | ⟨rfl, -⟩ <;> rfl
  | octetKeyPair curve x =>
    obtain ⟨rfl, -⟩ := h
    rfl

theorem usable_iff : Usable algorithm jwk ↔
    jwkMatchesAlgorithm jwk algorithm = true ∧ ¬ Misfit algorithm jwk := by
  rw [Misfit, jwkMatchesAlgorithm_iff]
  constructor
  · rintro ⟨huse, halg, hparameters⟩
    exact ⟨⟨huse, halg, hparameters.signs⟩, fun h => h.2 hparameters⟩
  · rintro ⟨hmatch, hfits⟩
    exact ⟨hmatch.1, hmatch.2.1, not_not.mp fun h => hfits ⟨hmatch, h⟩⟩

/-- The keys that the code takes for compatible are the usable ones and the misfits. -/
theorem length_compatible (algorithm : Algorithm) (keys : List Jwk) :
    (keys.filter (jwkMatchesAlgorithm · algorithm)).length =
      (keys.filter (Usable algorithm ·)).length + (keys.filter (Misfit algorithm ·)).length := by
  rw [List.length_eq_length_filter_add (Usable algorithm ·), List.filter_filter, List.filter_filter]
  congr 2
  · refine List.filter_congr fun jwk _ => ?_
    rw [Bool.eq_iff_iff]
    simp only [Bool.and_eq_true, decide_eq_true_eq, usable_iff]
    tauto
  · refine List.filter_congr fun jwk _ => ?_
    rw [Bool.eq_iff_iff]
    simp only [Bool.and_eq_true, Bool.not_eq_true', decide_eq_false_iff_not, decide_eq_true_eq,
      usable_iff]
    constructor
    · rintro ⟨h, hmatch⟩
      exact not_not.mp fun hfits => h ⟨hmatch, hfits⟩
    · intro h
      exact ⟨fun hu => hu.2 h, h.1⟩

theorem compatible_eq_usable {keys : List Jwk} (h : ∀ jwk ∈ keys, ¬ Misfit algorithm jwk) :
    keys.filter (jwkMatchesAlgorithm · algorithm) = keys.filter (Usable algorithm ·) := by
  refine List.filter_congr fun jwk hin => ?_
  rw [Bool.eq_iff_iff, decide_eq_true_eq, usable_iff]
  exact ⟨fun hmatch => ⟨hmatch, h jwk hin⟩, And.left⟩

theorem CurvesFit.selectsUsable (h : CurvesFit jwks kid algorithm) :
    SelectsUsable jwks kid algorithm := by
  intro jwk hok
  have hmatch := selectJwkForToken_compatible hok
  cases kid with
  | some name => exact usable_iff.mpr ⟨hmatch, h jwk (selectJwkForToken_kid.mp hok).1⟩
  | none =>
    have honly := selectJwkForToken_none.mp hok
    have hlength := length_compatible algorithm jwks.keys
    rw [honly, List.length_singleton] at hlength
    rcases h with hfits | htwo | ⟨-, htwo⟩
    · have hin : jwk ∈ jwks.keys.filter (jwkMatchesAlgorithm · algorithm) :=
        honly ▸ List.mem_singleton_self jwk
      exact usable_iff.mpr ⟨hmatch, hfits jwk (List.mem_filter.mp hin).1⟩
    · omega
    · omega

theorem CurvesFit.findsUsable (h : CurvesFit jwks kid algorithm) :
    FindsUsable jwks kid algorithm := by
  rintro rfl jwk honly
  rcases h with hfits | htwo | ⟨hnone, -⟩
  · exact selectJwkForToken_none.mpr ((compatible_eq_usable hfits).trans honly)
  · rw [honly, List.length_singleton] at htwo
    omega
  · rw [honly] at hnone
    cases hnone

theorem curvesFit_of (hselects : SelectsUsable jwks kid algorithm)
    (hfinds : FindsUsable jwks kid algorithm) : CurvesFit jwks kid algorithm := by
  cases kid with
  | some name =>
    intro jwk hfind hmisfit
    exact (usable_iff.mp (hselects jwk (selectJwkForToken_kid.mpr ⟨hfind, hmisfit.1⟩))).2 hmisfit
  | none =>
    by_contra hno
    simp only [CurvesFit, not_or, not_and, not_le, not_forall, not_not] at hno
    obtain ⟨⟨misfit, hin, hmisfit⟩, hfew, hnone⟩ := hno
    have hlength := length_compatible algorithm jwks.keys
    have hcompatible : misfit ∈ jwks.keys.filter (jwkMatchesAlgorithm · algorithm) :=
      List.mem_filter.mpr ⟨hin, hmisfit.1⟩
    -- the set has no usable key or one
    cases husable : jwks.keys.filter (Usable algorithm ·) with
    | nil =>
      have hone := hnone husable
      rw [husable, List.length_nil] at hlength
      have hpos := List.length_pos_of_mem hcompatible
      obtain ⟨jwk, hsingle⟩ := List.length_eq_one_iff.mp
        (by omega : (jwks.keys.filter (jwkMatchesAlgorithm · algorithm)).length = 1)
      have hselected := hselects jwk (selectJwkForToken_none.mpr hsingle)
      rw [hsingle, List.mem_singleton] at hcompatible
      exact (usable_iff.mp hselected).2 (hcompatible ▸ hmisfit)
    | cons jwk rest =>
      rw [husable, List.length_cons] at hfew
      obtain rfl : rest = [] := List.length_eq_zero_iff.mp (by omega)
      have hselected := hfinds rfl jwk husable
      rw [selectJwkForToken_none.mp hselected, List.mem_singleton] at hcompatible
      exact (usable_iff.mp (hselects jwk hselected)).2 (hcompatible ▸ hmisfit)

end

/-- **When a selected key is usable**, and the only usable key is selected without a `kid`: exactly
when no misfit gets in the way. -/
theorem selection_usable_iff (jwks : JwkSet) (kid : Option String) (algorithm : Algorithm) :
    (SelectsUsable jwks kid algorithm ∧ FindsUsable jwks kid algorithm) ↔
      CurvesFit jwks kid algorithm :=
  ⟨fun h => curvesFit_of h.1 h.2, fun h => ⟨h.selectsUsable, h.findsUsable⟩⟩

def plainEc (curve : EllipticCurve) : Jwk :=
  ⟨⟨some .signature, none, none⟩, .ellipticCurve curve "f83OJ3D2" "x_FEzRu9"⟩

/-- A P-384 key is selected for ES256 when it is alone, and makes the selection of the P-256 key
ambiguous when it is not. -/
theorem selection_ignores_curves :
    selectJwkForToken ⟨[plainEc .p384]⟩ none .es256 = .ok (plainEc .p384) ∧
    ¬ Usable .es256 (plainEc .p384) ∧
    [plainEc .p256, plainEc .p384].filter (Usable .es256 ·) = [plainEc .p256] ∧
    selectJwkForToken ⟨[plainEc .p256, plainEc .p384]⟩ none .es256 =
      .error (.other ("multiple compatible JWKs found for algorithm 'ES256' but the token header" ++
        " did not include a kid")) ∧
    (¬ ∀ (jwks : JwkSet) (kid : Option String) (algorithm : Algorithm),
      SelectsUsable jwks kid algorithm) ∧
    ¬ ∀ (jwks : JwkSet) (kid : Option String) (algorithm : Algorithm),
      FindsUsable jwks kid algorithm := by
  have hselected : selectJwkForToken ⟨[plainEc .p384]⟩ none .es256 = .ok (plainEc .p384) := rfl
  have hunusable : ¬ Usable .es256 (plainEc .p384) := by decide
  have honly : [plainEc .p256, plainEc .p384].filter (Usable .es256 ·) = [plainEc .p256] := by decide
  have hambiguous : selectJwkForToken ⟨[plainEc .p256, plainEc .p384]⟩ none .es256 =
      .error (.other ("multiple compatible JWKs found for algorithm 'ES256' but the token header" ++
        " did not include a kid")) := by decide
  refine ⟨hselected, hunusable, honly, hambiguous, fun hclaim => ?_, fun hclaim => ?_⟩
  · exact hunusable (hclaim _ _ _ _ hselected)
  · have hfound := hclaim ⟨[plainEc .p256, plainEc .p384]⟩ none .es256 rfl _ honly
    rw [hambiguous] at hfound
    cases hfound

end Authzoo
