import Mathlib.Algebra.Module.Submodule.Range
import Mathlib.Algebra.Field.Basic
import Mathlib.Tactic.Module

/-! # Proofs of a preimage under a linear map

A prover that knows a preimage announces the image of random ones, and answers the challenge by the
random ones less the challenge times the preimage. The announcement can be computed back from the
challenge and the answer, so that it need not be sent where the challenge is its hash.

Whoever knows a preimage can give every answer that is accepted, so that the answer tells nothing of
it. One announcement that is answered for two challenges gives a preimage away, which is computed
from the challenges and the answers alone.
-/

namespace SigmaProtocol

variable {F W V : Type*} [Field F] [AddCommGroup W] [Module F W] [AddCommGroup V] [Module F V]

variable (φ : W →ₗ[F] V)

def announcement (statement : V) (challenge : F) (answer : W) : V :=
  φ answer + challenge • statement

/-- With the hash `h` of the announcement as the challenge. -/
def prove (h : V → F) (secret random : W) : F × W := (h (φ random), random - h (φ random) • secret)

def Verified (h : V → F) (statement : V) (proof : F × W) : Prop :=
  proof.1 = h (announcement φ statement proof.1 proof.2)

theorem announcement_answer (statement : V) (challenge : F) (secret random : W) :
    announcement φ statement challenge (random - challenge • secret) =
      φ random + challenge • (statement - φ secret) := by
  rw [announcement, map_sub, map_smul]
  module

theorem announcement_of_secret {statement : V} {secret : W} (isSecret : φ secret = statement)
    (challenge : F) (random : W) :
    announcement φ statement challenge (random - challenge • secret) = φ random := by
  rw [announcement_answer, isSecret, sub_self, smul_zero, add_zero]

/-- What is accepted is what could have been made from a preimage. -/
theorem exists_prove_iff {statement : V} {secret : W} (isSecret : φ secret = statement) (h : V → F)
    (proof : F × W) :
    (∃ random, prove φ h secret random = proof) ↔ Verified φ h statement proof := by
  constructor
  · rintro ⟨random, rfl⟩
    rw [Verified, prove, announcement_of_secret φ isSecret]
  · intro verified
    have random : φ (proof.2 + proof.1 • secret) = announcement φ statement proof.1 proof.2 := by
      rw [announcement, map_add, map_smul, isSecret]
    refine ⟨proof.2 + proof.1 • secret, ?_⟩
    rw [prove, random, ← verified, add_sub_cancel_right]

/-- The preimage from two answers to one announcement. -/
def extract (challenge challenge' : F) (answer answer' : W) : W :=
  (challenge' - challenge)⁻¹ • (answer - answer')

theorem map_extract {statement : V} {challenge challenge' : F} {answer answer' : W}
    (distinct : challenge ≠ challenge') (same : announcement φ statement challenge answer =
      announcement φ statement challenge' answer') :
    φ (extract challenge challenge' answer answer') = statement := by
  have nonzero : challenge' - challenge ≠ 0 := sub_ne_zero.mpr distinct.symm
  have difference : φ (answer - answer') = (challenge' - challenge) • statement := by
    rw [announcement, announcement] at same
    rw [map_sub, sub_smul, sub_eq_sub_iff_add_eq_add, same, add_comm]
  rw [extract, map_smul, difference, smul_smul, inv_mul_cancel₀ nonzero, one_smul]

end SigmaProtocol
