import Mathlib

/-! # Amounts in a free module of points

Points are the elements of a free module with two blinding generators and one generator per asset. A
term is an amount of a point; the point may carry blinding, and it may be no asset at all. The
coordinates of a balanced set of terms vanish, and over `ZMod` that is an equation between exact
integer sums as long as the sums stay below the modulus.

Nothing here knows how a point is encoded or how membership in a span is proved.
-/

namespace Commitment

/-- Two generators that hide amounts and assets, and one generator for each asset. -/
inductive Generator (ι : Type*) where
  | G
  | X
  | asset (a : ι)
  deriving DecidableEq

abbrev Point (F ι : Type*) [Zero F] := Generator ι →₀ F

section Coordinates

variable {F ι : Type*} [CommRing F]

noncomputable def base (g : Generator ι) : Point F ι := Finsupp.single g 1

noncomputable def coordinate (a : ι) : Point F ι →ₗ[F] F := Finsupp.lapply (.asset a)

/-- What blinding can add to a point. -/
noncomputable def blinding : Submodule F (Point F ι) := Submodule.span F {base .G, base .X}

variable {a b : ι} {p : Point F ι}

theorem coordinate_base_asset [DecidableEq ι] :
    coordinate a (base (F := F) (.asset b)) = if a = b then 1 else 0 := by
  simp only [coordinate, base, Finsupp.lapply_apply, Finsupp.single_apply, Generator.asset.injEq]
  by_cases same : a = b
  · simp [same]
  · simp [same, Ne.symm same]

theorem coordinate_of_mem_blinding (inside : p ∈ blinding) : coordinate a p = 0 := by
  induction inside using Submodule.span_induction with
  | mem q isBase =>
      obtain rfl | rfl := isBase <;> simp [coordinate, base]
  | zero => exact map_zero _
  | add q r _ _ first second => rw [map_add, first, second, add_zero]
  | smul c q _ scaled => rw [map_smul, scaled, smul_zero]

theorem span_le_blinding {g : Generator ι} (blinds : g = .G ∨ g = .X) :
    Submodule.span F {base g} ≤ (blinding : Submodule F (Point F ι)) := by
  refine Submodule.span_mono ?_
  obtain rfl | rfl := blinds <;> simp

theorem asset_unique [Nontrivial F] (first : p - base (.asset a) ∈ blinding)
    (second : p - base (.asset b) ∈ blinding) : a = b := by
  classical
  have difference := Submodule.sub_mem _ first second
  rw [sub_sub_sub_cancel_left] at difference
  have vanishes := coordinate_of_mem_blinding (a := b) difference
  rw [map_sub, coordinate_base_asset, coordinate_base_asset, if_pos rfl] at vanishes
  by_contra different
  rw [if_neg (Ne.symm different), sub_zero] at vanishes
  exact one_ne_zero vanishes

end Coordinates

/-! ## Terms -/

/-- An amount of a point. A term of an asset has that asset's coordinates, whatever its blinding. -/
structure Term (F ι : Type*) [CommRing F] where
  point : Point F ι
  amount : Nat
  asset : Option ι
  valid : ∀ b, asset = some b → point - base (.asset b) ∈ blinding

section Terms

variable {F ι : Type*} [CommRing F]

open Classical in
/-- The asset that this point is, up to what may hide it. -/
noncomputable def assetWithin (cover : Submodule F (Point F ι)) (p : Point F ι) : Option ι :=
  if known : ∃ a, p - base (.asset a) ∈ cover then some known.choose else none

theorem mem_of_assetWithin {cover : Submodule F (Point F ι)} {p : Point F ι} {a : ι}
    (isAsset : assetWithin cover p = some a) : p - base (.asset a) ∈ cover := by
  unfold assetWithin at isAsset
  split at isAsset
  · rename_i known
    exact Option.some.inj isAsset ▸ known.choose_spec
  · cases isAsset

theorem assetWithin_eq_none {cover : Submodule F (Point F ι)} {p : Point F ι}
    (noAsset : ∀ a, p - base (.asset a) ∉ cover) : assetWithin cover p = none :=
  dif_neg fun known => noAsset known.choose known.choose_spec

theorem assetWithin_eq_some [Nontrivial F] {cover : Submodule F (Point F ι)} {p : Point F ι} {a : ι}
    (hides : cover ≤ blinding) (inside : p - base (.asset a) ∈ cover) :
    assetWithin cover p = some a := by
  have known : ∃ a, p - base (.asset a) ∈ cover := ⟨a, inside⟩
  unfold assetWithin
  rw [dif_pos known]
  exact congrArg some (asset_unique (hides known.choose_spec) (hides inside))

noncomputable def Term.within (cover : Submodule F (Point F ι)) (hides : cover ≤ blinding)
    (p : Point F ι) (amount : Nat) : Term F ι where
  point := p
  amount := amount
  asset := assetWithin cover p
  valid := fun _ isAsset => hides (mem_of_assetWithin isAsset)

/-- An amount under an asset id in the clear. -/
noncomputable def Term.explicit (p : Point F ι) (amount : Nat) : Term F ι :=
  Term.within ⊥ bot_le p amount

/-- An amount under an asset id that may be hidden by the generator `X`. -/
noncomputable def Term.blinded (p : Point F ι) (amount : Nat) : Term F ι :=
  Term.within (Submodule.span F {base .X}) (span_le_blinding (Or.inr rfl)) p amount

@[simp] theorem Term.explicit_point (p : Point F ι) (amount : Nat) :
    (Term.explicit p amount).point = p := rfl

@[simp] theorem Term.explicit_amount (p : Point F ι) (amount : Nat) :
    (Term.explicit p amount).amount = amount := rfl

@[simp] theorem Term.blinded_point (p : Point F ι) (amount : Nat) :
    (Term.blinded p amount).point = p := rfl

@[simp] theorem Term.blinded_amount (p : Point F ι) (amount : Nat) :
    (Term.blinded p amount).amount = amount := rfl

theorem Term.explicit_asset [Nontrivial F] (a : ι) (amount : Nat) :
    (Term.explicit (base (F := F) (.asset a)) amount).asset = some a :=
  assetWithin_eq_some bot_le (by simp)

theorem Term.blinded_asset [Nontrivial F] {p : Point F ι} {a : ι} (amount : Nat)
    (inside : p - base (.asset a) ∈ Submodule.span F {base .X}) :
    (Term.blinded p amount).asset = some a :=
  assetWithin_eq_some (span_le_blinding (Or.inr rfl)) inside

noncomputable def value (terms : List (Term F ι)) : Point F ι :=
  (terms.map fun term => (term.amount : F) • term.point).sum

/-- The exact sum of the amounts of one asset. -/
def total [DecidableEq ι] (b : ι) (terms : List (Term F ι)) : Nat :=
  (terms.map fun term => if term.asset = some b then term.amount else 0).sum

/-- What the terms that are of no asset put on the coordinate of this asset. -/
noncomputable def stray (b : ι) (terms : List (Term F ι)) : F :=
  (terms.map fun term =>
    if term.asset = none then (term.amount : F) * coordinate b term.point else 0).sum

@[simp]
theorem value_cons (term : Term F ι) (terms : List (Term F ι)) :
    value (term :: terms) = (term.amount : F) • term.point + value terms := by
  simp [value]

@[simp] theorem value_nil : value ([] : List (Term F ι)) = 0 := rfl

@[simp]
theorem value_append (first second : List (Term F ι)) :
    value (first ++ second) = value first + value second := by
  simp [value]

theorem stray_eq_zero (b : ι) {terms : List (Term F ι)} (none : ∀ term ∈ terms, term.asset ≠ none) :
    stray b terms = 0 := by
  refine List.sum_eq_zero ?_
  intro part inside
  obtain ⟨term, among, rfl⟩ := List.mem_map.mp inside
  simp [none term among]

variable [DecidableEq ι]

theorem Term.coordinate_point {term : Term F ι} {a : ι} (of : term.asset = some a) (b : ι) :
    coordinate b term.point = if b = a then 1 else 0 := by
  have blinded := coordinate_of_mem_blinding (a := b) (term.valid a of)
  rw [map_sub, coordinate_base_asset, sub_eq_zero] at blinded
  exact blinded

theorem coordinate_value (b : ι) (terms : List (Term F ι)) :
    coordinate b (value terms) = (total b terms : F) + stray b terms := by
  induction terms with
  | nil => simp [value, total, stray]
  | cons term terms inductionHypothesis =>
      rw [value_cons, map_add, map_smul, smul_eq_mul, inductionHypothesis]
      simp only [total, stray, List.map_cons, List.sum_cons, Nat.cast_add]
      cases of : term.asset with
      | none => simp; ring
      | some a =>
          rw [term.coordinate_point of]
          by_cases same : b = a
          · simp [same]; ring
          · simp [same, Ne.symm same]

theorem total_le (b : ι) {terms : List (Term F ι)} {bound : Nat}
    (bounded : ∀ term ∈ terms, term.amount ≤ bound) : total b terms ≤ terms.length * bound := by
  refine (List.sum_le_card_nsmul _ bound ?_).trans (by simp)
  intro amount inside
  obtain ⟨term, among, rfl⟩ := List.mem_map.mp inside
  split
  · exact bounded term among
  · exact Nat.zero_le bound

theorem balance_coordinates {ins outs : List (Term F ι)}
    (balanced : value ins - value outs ∈ blinding) (b : ι) :
    (total b ins : F) + stray b ins = total b outs + stray b outs := by
  have vanishes := coordinate_of_mem_blinding (a := b) balanced
  rw [map_sub, coordinate_value, coordinate_value, sub_eq_zero] at vanishes
  exact vanishes

end Terms

/-- Balanced terms conserve an asset exactly when the terms of no asset cancel on its coordinate. -/
theorem total_eq_iff {ι : Type*} [DecidableEq ι] {modulus : Nat}
    {ins outs : List (Term (ZMod modulus) ι)} {b : ι} (balanced : value ins - value outs ∈ blinding)
    (insBound : total b ins < modulus) (outsBound : total b outs < modulus) :
    total b ins = total b outs ↔ stray b ins = stray b outs := by
  have equation := balance_coordinates balanced b
  constructor
  · intro same
    rw [same] at equation
    exact add_left_cancel equation
  · intro cancel
    rw [cancel] at equation
    have congruent := (ZMod.natCast_eq_natCast_iff' _ _ _).mp (add_right_cancel equation)
    rwa [Nat.mod_eq_of_lt insBound, Nat.mod_eq_of_lt outsBound] at congruent

end Commitment
