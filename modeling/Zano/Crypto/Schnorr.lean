import Mathlib
import Zano.Lib.SigmaProtocol
import Zano.Crypto.Scalars

/-! # Schnorr-like proofs

Proofs of knowledge of multiples of generators, one or several under one challenge: of one multiple,
of two of two points, of two that sum to one point together with a third one. The proof that the
amounts of a range proof are those of the outputs is of this kind too.
-/

namespace Zano.Crypto

open Transactions (Scalar groupOrder scalar1div8)

variable {P : Type*} [AddCommGroup P] [Module Scalar P]

/-! ## The signatures -/

/-- The numbers of a signature as they are received, which may be not reduced. -/
structure GenericSig (k : ℕ) where
  c : ℕ
  y : Fin k → ℕ
  deriving DecidableEq

abbrev GenericDoubleSchnorrSig := GenericSig 2

abbrev GenericLinearCompositionAndSchnorrSig := GenericSig 3

def isReduced (s : ℕ) : Bool := s < groupOrder

/-- The points proved to be an image, and those announced. -/
def announcedPoints {k : ℕ} {V : Type*} [AddCommGroup V] [Module Scalar V]
    (φ : (Fin k → Scalar) →ₗ[Scalar] V) (statement : V) (sig : GenericSig k) : V :=
  SigmaProtocol.announcement φ statement (sig.c : Scalar) fun i => (sig.y i : Scalar)

def generateGenericSig {k : ℕ} {V : Type*} [AddCommGroup V] [Module Scalar V]
    (hs : List (HsItem P) → Scalar) (φ : (Fin k → Scalar) →ₗ[Scalar] V)
    (points : V → List (HsItem P)) (m : List UInt8) (statement : V) (secrets r : Fin k → Scalar) :
    GenericSig k :=
  let c := hs (.hash m :: points statement ++ points (φ r))
  { c := c.val, y := fun i => (r i - c * secrets i).val }

def verifyGenericSig {k : ℕ} {V : Type*} [AddCommGroup V] [Module Scalar V]
    (hs : List (HsItem P) → Scalar) (φ : (Fin k → Scalar) →ₗ[Scalar] V)
    (points : V → List (HsItem P)) (m : List UInt8) (statement : V) (sig : GenericSig k) : Bool :=
  if !isReduced sig.c || !(List.finRange k).all (fun i => isReduced (sig.y i)) then false
  else sig.c = (hs (.hash m :: points statement ++ points (announcedPoints φ statement sig))).val

section Instances

variable (hs : List (HsItem P) → Scalar) (gen0 gen1 gen2 : P) (m : List UInt8)

def multiple {k : ℕ} (i : Fin k) (gen : P) : (Fin k → Scalar) →ₗ[Scalar] P :=
  (LinearMap.proj i).smulRight gen

def doubleSchnorrMap : (Fin 2 → Scalar) →ₗ[Scalar] P × P :=
  (multiple ⟨0, Nat.two_pos⟩ gen0).prod (multiple ⟨1, Nat.one_lt_two⟩ gen1)

def linearCompositionMap : (Fin 3 → Scalar) →ₗ[Scalar] P × P :=
  (multiple 0 gen0 + multiple 1 gen1).prod (multiple 2 gen2)

def twoPoints (p : P × P) : List (HsItem P) := [.point p.1, .point p.2]

def generateDoubleSchnorrSig (A : P) (secretA : Scalar) (B : P) (secretB r0 r1 : Scalar) :
    GenericDoubleSchnorrSig :=
  generateGenericSig hs (doubleSchnorrMap gen0 gen1) twoPoints m (A, B)
    ![secretA, secretB] ![r0, r1]

def verifyDoubleSchnorrSig (A B : P) (sig : GenericDoubleSchnorrSig) : Bool :=
  verifyGenericSig hs (doubleSchnorrMap gen0 gen1) twoPoints m (A, B) sig

def generateLinearCompositionAndSchnorrSig (A : P) (secretA0 secretA1 : Scalar) (B : P)
    (secretB r0 r1 r2 : Scalar) :
    GenericLinearCompositionAndSchnorrSig :=
  generateGenericSig hs (linearCompositionMap gen0 gen1 gen2) twoPoints m (A, B)
    ![secretA0, secretA1, secretB] ![r0, r1, r2]

def verifyLinearCompositionAndSchnorrSig (A B : P)
    (sig : GenericLinearCompositionAndSchnorrSig) : Bool :=
  verifyGenericSig hs (linearCompositionMap gen0 gen1 gen2) twoPoints m (A, B) sig

end Instances

@[simp]
theorem val_cast_of_isReduced {s : ℕ} (reduced : isReduced s = true) : (s : Scalar).val = s :=
  ZMod.val_cast_of_lt (of_decide_eq_true reduced)

@[simp]
theorem isReduced_val (s : Scalar) : isReduced s.val = true := decide_eq_true (ZMod.val_lt s)

section Generic

variable {k : ℕ} {V : Type*} [AddCommGroup V] [Module Scalar V]

omit [AddCommGroup P] [Module Scalar P] in
theorem verifyGenericSig_eq_true (hs : List (HsItem P) → Scalar) (φ : (Fin k → Scalar) →ₗ[Scalar] V)
    (points : V → List (HsItem P)) (m : List UInt8) (statement : V) (sig : GenericSig k) :
    verifyGenericSig hs φ points m statement sig = true ↔
      (isReduced sig.c = true ∧ ∀ i, isReduced (sig.y i) = true) ∧
        SigmaProtocol.Verified φ
          (fun announced => hs (.hash m :: points statement ++ points announced)) statement
          ((sig.c : Scalar), fun i => (sig.y i : Scalar)) := by
  have cast (reduced : isReduced sig.c = true) (c : Scalar) : sig.c = c.val ↔
      (sig.c : Scalar) = c := by
    constructor
    · rintro isC
      rw [isC, ZMod.natCast_val, ZMod.cast_id', id]
    · rintro rfl
      rw [val_cast_of_isReduced reduced]
  rw [verifyGenericSig, SigmaProtocol.Verified, ← announcedPoints]
  by_cases reducedC : isReduced sig.c = true
  · by_cases reducedY : ∀ i, isReduced (sig.y i) = true
    · simp [reducedC, reducedY, cast reducedC]
    · have notAll : (List.finRange k).all (fun i => isReduced (sig.y i)) = false := by
        simpa [List.all_eq_true] using reducedY
      simp [reducedC, reducedY, notAll]
  · simp [reducedC]

omit [AddCommGroup P] [Module Scalar P] in
/-- Exactly the signatures that could have been made with the secrets are accepted, each
in one form only. -/
theorem exists_generateGenericSig_iff (hs : List (HsItem P) → Scalar)
    {φ : (Fin k → Scalar) →ₗ[Scalar] V} (points : V → List (HsItem P)) (m : List UInt8)
    {statement : V} {secrets : Fin k → Scalar} (areSecrets : φ secrets = statement)
    (sig : GenericSig k) :
    (∃ r, generateGenericSig hs φ points m statement secrets r = sig) ↔
      verifyGenericSig hs φ points m statement sig = true := by
  rw [verifyGenericSig_eq_true, ← SigmaProtocol.exists_prove_iff φ areSecrets]
  constructor
  · rintro ⟨r, rfl⟩
    refine ⟨⟨by simp [generateGenericSig], fun i => by simp [generateGenericSig]⟩, r, ?_⟩
    ext1
    · simp [SigmaProtocol.prove, generateGenericSig]
    · funext i
      simp [SigmaProtocol.prove, generateGenericSig]
  · rintro ⟨⟨reducedC, reducedY⟩, r, made⟩
    have isC := congrArg Prod.fst made
    have isY (i : Fin k) := congrFun (congrArg Prod.snd made) i
    simp only [SigmaProtocol.prove, Pi.sub_apply, Pi.smul_apply, smul_eq_mul] at isC isY
    refine ⟨r, ?_⟩
    obtain ⟨c, y⟩ := sig
    simp only [generateGenericSig, GenericSig.mk.injEq]
    refine ⟨by rw [isC, val_cast_of_isReduced reducedC], funext fun i => ?_⟩
    rw [isY, val_cast_of_isReduced (reducedY i)]

/-- The secrets from two signatures for one announcement. -/
def extractedSecrets (sig sig' : GenericSig k) : Fin k → Scalar :=
  SigmaProtocol.extract (sig.c : Scalar) (sig'.c : Scalar) (fun i => (sig.y i : Scalar)) fun i =>
    (sig'.y i : Scalar)

omit [AddCommGroup P] [Module Scalar P] in
/-- Where two signatures for one announcement are accepted with different challenges, the secrets
can be computed from them. -/
theorem map_extractedSecrets {hs hs' : List (HsItem P) → Scalar} {φ : (Fin k → Scalar) →ₗ[Scalar] V}
    {points : V → List (HsItem P)} {m : List UInt8} {statement : V} {sig sig' : GenericSig k}
    (verified : verifyGenericSig hs φ points m statement sig = true)
    (verified' : verifyGenericSig hs' φ points m statement sig' = true)
    (announced : announcedPoints φ statement sig = announcedPoints φ statement sig')
    (distinct : sig.c ≠ sig'.c) :
    φ (extractedSecrets sig sig') = statement := by
  obtain ⟨⟨reduced, -⟩, -⟩ := (verifyGenericSig_eq_true hs φ points m statement sig).mp verified
  obtain ⟨⟨reduced', -⟩, -⟩ := (verifyGenericSig_eq_true hs' φ points m statement sig').mp verified'
  refine SigmaProtocol.map_extract φ (fun same => distinct ?_) announced
  rw [← val_cast_of_isReduced reduced, same, val_cast_of_isReduced reduced']

end Generic

/-- Who knows both secrets of a double signature can make every one that is
accepted, and no other. -/
theorem generateDoubleSchnorrSig_iff (hs : List (HsItem P) → Scalar) (gen0 gen1 : P)
    (m : List UInt8) (secretA secretB : Scalar) (sig : GenericDoubleSchnorrSig) :
    (∃ r0 r1, generateDoubleSchnorrSig hs gen0 gen1 m (secretA • gen0) secretA (secretB • gen1)
      secretB r0 r1 = sig) ↔
      verifyDoubleSchnorrSig hs gen0 gen1 m (secretA • gen0) (secretB • gen1) sig = true := by
  have areSecrets :
      doubleSchnorrMap gen0 gen1 ![secretA, secretB] = (secretA • gen0, secretB • gen1) := rfl
  rw [verifyDoubleSchnorrSig, ← exists_generateGenericSig_iff hs twoPoints m areSecrets sig]
  constructor
  · rintro ⟨r0, r1, made⟩
    exact ⟨![r0, r1], made⟩
  · rintro ⟨r, made⟩
    refine ⟨r 0, r 1, ?_⟩
    rwa [generateDoubleSchnorrSig, ← List.ofFn_inj.mp (show List.ofFn r =
      List.ofFn ![r 0, r 1] by simp)]

/-- Two signatures for one announcement that are accepted with different challenges give the secrets
of both points away. -/
theorem secrets_of_verifyLinearCompositionAndSchnorrSig {hs hs' : List (HsItem P) → Scalar}
    {gen0 gen1 gen2 : P} {m : List UInt8} {A B : P}
    {sig sig' : GenericLinearCompositionAndSchnorrSig}
    (verified : verifyLinearCompositionAndSchnorrSig hs gen0 gen1 gen2 m A B sig = true)
    (verified' : verifyLinearCompositionAndSchnorrSig hs' gen0 gen1 gen2 m A B sig' = true)
    (announced : announcedPoints (linearCompositionMap gen0 gen1 gen2) (A, B) sig =
      announcedPoints (linearCompositionMap gen0 gen1 gen2) (A, B) sig')
        (distinct : sig.c ≠ sig'.c) :
    A = extractedSecrets sig sig' 0 • gen0 + extractedSecrets sig sig' 1 • gen1 ∧
      B = extractedSecrets sig sig' 2 • gen2 := by
  obtain ⟨isA, isB⟩ := Prod.mk.inj (map_extractedSecrets verified verified' announced distinct)
  exact ⟨isA.symm, isB.symm⟩

/-- Of the secrets 3, 4 and 5. -/
def smallLinearComposition (c : Scalar) : GenericLinearCompositionAndSchnorrSig :=
  let s (secret : ℕ) : Scalar := secret
  generateLinearCompositionAndSchnorrSig (fun _ => c) (s 2) (s 7) 1 [] (s 34) (s 3) (s 4) (s 5)
    (s 5) (s 10) (s 11) (s 12)

/-- From the answers to the challenges 1 and 2. -/
theorem secrets_of_verifyLinearCompositionAndSchnorrSig_small :
    let secrets := extractedSecrets (smallLinearComposition 1) (smallLinearComposition 2)
    (34 : Scalar) = secrets 0 • 2 + secrets 1 • 7 ∧ (5 : Scalar) = secrets 2 • 1 := by
  have verified : verifyLinearCompositionAndSchnorrSig (fun _ => 1) 2 (7 : Scalar) 1 [] 34 5
      (smallLinearComposition 1) =
      true := by decide
  have verified' : verifyLinearCompositionAndSchnorrSig (fun _ => 2) 2 (7 : Scalar) 1 [] 34 5
      (smallLinearComposition 2) =
      true := by decide
  exact secrets_of_verifyLinearCompositionAndSchnorrSig verified verified' (by decide) (by decide)

end Zano.Crypto
