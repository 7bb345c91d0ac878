import Mathlib
import Zano.Lib.Commitment
import Zano.Transactions.BalanceProof

/-! # What the balance proof conserves

The inputs and outputs of a transaction become two lists of terms: explicit amounts under explicit
asset ids, and hidden amounts with the openings that the range proofs and ring signatures stand for.
An accepted balance proof says that the two lists balance up to blinding.

A gateway output may carry any point as its asset id. Terms of no asset therefore stay in the
equation, and assets are conserved exactly when such terms cancel.
-/

namespace Zano.Transactions

open Commitment

abbrev CurvePoint (ι : Type*) := Commitment.Point Scalar ι

noncomputable def GeneratorTag.point {ι : Type*} : GeneratorTag → CurvePoint ι
  | .G => base .G
  | .X => base .X

/-- An output on the chain that a ring signature spends, with its amount. -/
structure RealOutput (ι : Type*) where
  blindedAssetId : CurvePoint ι
  amountCommitment : CurvePoint ι
  amount : Nat

/-- The amounts that a transaction hides: the spent outputs, the confidential
outputs, the operation. -/
structure HiddenAmounts (ι : Type*) where
  inputs : List (RealOutput ι)
  outputs : List Nat
  operation : Nat

section Reading

variable {ι Hash Sig : Type*} [DecidableEq ι]

/-- Acceptance by the crypto library, read as membership in spans. -/
structure ReadsSpans (crypto : Crypto (CurvePoint ι) Hash Sig) (native : ι) : Prop where
  native : (8 : Scalar) • crypto.nativeCoinAssetId1div8 = base (.asset native)
  doubleSchnorr : ∀ {gen0 gen1 txId A B sig},
    crypto.verifyDoubleSchnorrSig gen0 gen1 txId A B sig = true →
      A ∈ Submodule.span Scalar {gen0.point} ∧ B ∈ Submodule.span Scalar {gen1.point}
  linearComposition : ∀ {gen0 gen1 gen2 txId A B sig},
    crypto.verifyLinearCompositionAndSchnorrSig gen0 gen1 gen2 txId A B sig = true →
      A ∈ Submodule.span Scalar {gen0.point, gen1.point} ∧ B ∈ Submodule.span Scalar {gen2.point}
  bge : ∀ {txId ring sig}, crypto.verifyBGEProof txId ring sig = true →
    ∃ member ∈ ring, member ∈ Submodule.span Scalar {base .X}

/-- A range proof over an amount commitment. -/
def Opens (blindedAssetId amountCommitment : CurvePoint ι) (amount : Nat) : Prop :=
  amount < 2 ^ 64 ∧
    (8 : Scalar) • amountCommitment - (amount : Scalar) • (8 : Scalar) • blindedAssetId ∈
      Submodule.span Scalar {base .G}

/-- A CLSAG signature with this real ring member. -/
def Spends (pseudoOut : CurvePoint ι × CurvePoint ι) (real : RealOutput ι) : Prop :=
  (8 : Scalar) • real.amountCommitment -
    (8 : Scalar) • pseudoOut.1 ∈ Submodule.span Scalar {base .G} ∧
    (8 : Scalar) • real.blindedAssetId -
      (8 : Scalar) • pseudoOut.2 ∈ Submodule.span Scalar {base .X}

structure HiddenAmounts.Explain (hidden : HiddenAmounts ι) (crypto : Crypto (CurvePoint ι) Hash Sig)
    (tx : Transaction (CurvePoint ι) Sig) : Prop where
  spends : List.Forall₂ Spends (pseudoOuts crypto tx.signatures) hidden.inputs
  inputs : ∀ real ∈ hidden.inputs, Opens real.blindedAssetId real.amountCommitment real.amount
  outputs :
    List.Forall₂ (fun out amount => Opens out.1 out.2 amount) (zarcanumOuts tx.vout) hidden.outputs
  operation : ∀ ado commitment, tx.assetOperation = some ado →
    ado.optAmountCommitment = some commitment →
    hidden.operation < 2 ^ 64 ∧ ∃ assetId, ado.assetIdPt = some assetId ∧
      (8 : Scalar) • commitment -
        (hidden.operation : Scalar) • assetId ∈ Submodule.span Scalar {base .G}

/-! ## The terms of a transaction -/

noncomputable def explicitInput (native : ι) : TxinV (CurvePoint ι) → Option (Term Scalar ι)
  | .toKey amount => some (Term.explicit (base (.asset native)) amount.toNat)
  | .gateway assetId amount => some (Term.explicit ((8 : Scalar) • assetId) amount.toNat)
  | _ => none

noncomputable def explicitOut (native : ι) : TxOutV (CurvePoint ι) → Option (Term Scalar ι)
  | .bare amount => some (Term.explicit (base (.asset native)) amount.toNat)
  | .gateway assetId amount => some (Term.explicit ((8 : Scalar) • assetId) amount.toNat)
  | .zarcanum _ _ => none

noncomputable def hiddenInput (real : RealOutput ι) : Term Scalar ι :=
  Term.blinded ((8 : Scalar) • real.blindedAssetId) real.amount

noncomputable def hiddenOut (out : CurvePoint ι × CurvePoint ι) (amount : Nat) : Term Scalar ι :=
  Term.blinded ((8 : Scalar) • out.1) amount

/-- The amount of an asset operation, on the side where its type belongs. -/
noncomputable def operationTerms (side : AssetOperationType → Bool)
    (ado : Option (AssetDescriptorOperation (CurvePoint ι)))
    (amount : Nat) : List (Term Scalar ι) :=
  match ado with
  | some ⟨type, some _, some assetId⟩ => if side type then [Term.explicit assetId amount] else []
  | _ => []

def emits (type : AssetOperationType) : Bool := type = .register ∨ type = .emit

def burns (type : AssetOperationType) : Bool := type = .publicBurn

noncomputable def inputTerms (native : ι) (additional : UInt64)
    (tx : Transaction (CurvePoint ι) Sig) (hidden : HiddenAmounts ι) : List (Term Scalar ι) :=
  Term.explicit (base (.asset native)) additional.toNat ::
    (tx.vin.filterMap (explicitInput native) ++ hidden.inputs.map hiddenInput ++
      operationTerms emits tx.assetOperation hidden.operation)

noncomputable def outputTerms (native : ι) (tx : Transaction (CurvePoint ι) Sig)
    (hidden : HiddenAmounts ι) : List (Term Scalar ι) :=
  Term.explicit (base (.asset native)) (tx.getTxFee.getD 0).toNat ::
    (tx.vout.filterMap (explicitOut native) ++
      List.zipWith hiddenOut (zarcanumOuts tx.vout) hidden.outputs ++
      operationTerms burns tx.assetOperation hidden.operation)

/-- Inputs and emission equal outputs, burning and fee, as exact sums, for every asset. -/
def Conserves (native : ι) (additional : UInt64) (tx : Transaction (CurvePoint ι) Sig)
    (hidden : HiddenAmounts ι) : Prop :=
  ∀ asset, total asset (inputTerms native additional tx hidden) =
    total asset (outputTerms native tx hidden)

/-- The amounts under ids that are no asset's cancel on the coordinates of every asset. -/
def StraysCancel (native : ι) (additional : UInt64) (tx : Transaction (CurvePoint ι) Sig)
    (hidden : HiddenAmounts ι) : Prop :=
  ∀ asset, stray asset (inputTerms native additional tx hidden) =
    stray asset (outputTerms native tx hidden)

end Reading

/-! ## The loops over the inputs and outputs -/

theorem assignAddWithOverflowCheck_eq_some {value result sum : UInt64}
    (fits : assignAddWithOverflowCheck value result = some sum) :
    sum.toNat = result.toNat + value.toNat := by
  unfold assignAddWithOverflowCheck at fits
  split at fits
  · cases fits
  · rename_i noWrap
    cases fits
    rw [UInt64.lt_iff_toNat_lt, UInt64.toNat_add] at noWrap
    rw [UInt64.toNat_add]
    have := result.toNat_lt
    have := value.toNat_lt
    omega

section Loops

variable {ι Hash Sig : Type*} [DecidableEq ι] {crypto : Crypto (CurvePoint ι) Hash Sig} {native : ι}

theorem tallyInputs_value (reads : ReadsSpans crypto native) {vin : List (TxinV (CurvePoint ι))}
    {start final : InputsTally (CurvePoint ι)}
    (ran : vin.foldlM (tallyInput crypto) start = some final) :
    (final.bareInputsNativeAmountsSum.toNat : Scalar) • base (.asset native) +
        (8 : Scalar) • final.inputsCommitmentsSum =
      (start.bareInputsNativeAmountsSum.toNat : Scalar) • base (.asset native) +
        (8 : Scalar) • start.inputsCommitmentsSum + value (vin.filterMap (explicitInput native)) ∧
      final.zcInputsCount ≤ start.zcInputsCount + vin.length := by
  induction vin generalizing start with
  | nil =>
      cases ran
      simp
  | cons input vin inductionHypothesis =>
      rw [List.foldlM_cons, Option.bind_eq_bind, Option.bind_eq_some_iff] at ran
      obtain ⟨next, stepped, rest⟩ := ran
      obtain ⟨valueEq, counted⟩ := inductionHypothesis rest
      rw [valueEq, List.length_cons]
      cases input with
      | gen =>
          cases stepped
          exact ⟨rfl, by omega⟩
      | multisig => cases stepped
      | zcInput =>
          cases stepped
          exact ⟨rfl, by dsimp only at counted; omega⟩
      | toKey amount =>
          obtain ⟨sum, fits, rfl⟩ := Option.map_eq_some_iff.mp stepped
          refine ⟨?_, by dsimp only at counted; omega⟩
          simp only [assignAddWithOverflowCheck_eq_some fits, explicitInput, List.filterMap_cons,
            value_cons, Term.explicit_amount, Term.explicit_point, Nat.cast_add]
          module
      | gateway assetId amount =>
          simp only [tallyInput] at stepped
          split at stepped
          · rename_i isNative
            obtain ⟨sum, fits, rfl⟩ := Option.map_eq_some_iff.mp stepped
            refine ⟨?_, by dsimp only at counted; omega⟩
            simp only [assignAddWithOverflowCheck_eq_some fits, explicitInput, List.filterMap_cons,
              value_cons, Term.explicit_amount, Term.explicit_point, Nat.cast_add, isNative,
                reads.native]
            module
          · cases stepped
            refine ⟨?_, by dsimp only at counted; omega⟩
            simp only [explicitInput, List.filterMap_cons, value_cons, Term.explicit_amount,
              Term.explicit_point]
            module

theorem tallyOuts_value (reads : ReadsSpans crypto native) {vout : List (TxOutV (CurvePoint ι))}
    (noBare : ∀ amount, .bare amount ∉ vout) {start final : OutsTally (CurvePoint ι)}
    (ran : vout.foldlM (tallyOut crypto) start = some final) :
    (final.bareOutsNativeAmountsSum.toNat : Scalar) • base (.asset native) +
        (8 : Scalar) • final.outsCommitmentsSum =
      (start.bareOutsNativeAmountsSum.toNat : Scalar) • base (.asset native) +
        (8 : Scalar) • start.outsCommitmentsSum + value (vout.filterMap (explicitOut native)) +
        (8 : Scalar) • ((zarcanumOuts vout).map (·.2)).sum := by
  induction vout generalizing start with
  | nil =>
      cases ran
      simp [zarcanumOuts]
  | cons out vout inductionHypothesis =>
      rw [List.foldlM_cons, Option.bind_eq_bind, Option.bind_eq_some_iff] at ran
      obtain ⟨next, stepped, rest⟩ := ran
      rw [inductionHypothesis (fun amount inside =>
        noBare amount (List.mem_cons_of_mem _ inside)) rest]
      cases out with
      | bare amount => exact absurd (List.mem_cons_self ..) (noBare amount)
      | zarcanum blindedAssetId amountCommitment =>
          cases stepped
          simp only [explicitOut, zarcanumOuts, List.filterMap_cons, List.map_cons, List.sum_cons]
          module
      | gateway assetId amount =>
          simp only [tallyOut] at stepped
          split at stepped
          · rename_i isNative
            obtain ⟨sum, fits, rfl⟩ := Option.map_eq_some_iff.mp stepped
            simp only [assignAddWithOverflowCheck_eq_some fits, explicitOut, zarcanumOuts,
              List.filterMap_cons, value_cons, Term.explicit_amount, Term.explicit_point,
                Nat.cast_add,
              isNative, reads.native]
            module
          · cases stepped
            simp only [explicitOut, zarcanumOuts, List.filterMap_cons, value_cons,
              Term.explicit_amount, Term.explicit_point]
            module

/-! ## Hidden amounts against their commitments -/

omit [DecidableEq ι] in
theorem hiddenInputs_value {pseudo : List (CurvePoint ι × CurvePoint ι)}
    {reals : List (RealOutput ι)} (spends : List.Forall₂ Spends pseudo reals)
    (opens : ∀ real ∈ reals, Opens real.blindedAssetId real.amountCommitment real.amount) :
    value (reals.map hiddenInput) - (8 : Scalar) • (pseudo.map (·.1)).sum ∈
      (blinding : Submodule Scalar (CurvePoint ι)) := by
  induction spends with
  | nil => simp
  | @cons out real pseudo reals spent _ inductionHypothesis =>
      have first := (opens real List.mem_cons_self).2
      have rest :=
        inductionHypothesis fun other inside => opens other (List.mem_cons_of_mem _ inside)
      have difference := Submodule.sub_mem _ (span_le_blinding (Or.inl rfl) spent.1)
        (span_le_blinding (Or.inl rfl) first)
      have together := Submodule.add_mem _ difference rest
      rw [List.map_cons, List.map_cons, value_cons, List.sum_cons]
      convert together using 1
      simp only [hiddenInput, Term.blinded_amount, Term.blinded_point]
      module

omit [DecidableEq ι] in
theorem hiddenOuts_value {outs : List (CurvePoint ι × CurvePoint ι)} {amounts : List Nat}
    (opens : List.Forall₂ (fun out amount => Opens out.1 out.2 amount) outs amounts) :
    (8 : Scalar) • (outs.map (·.2)).sum - value (List.zipWith hiddenOut outs amounts) ∈
      (blinding : Submodule Scalar (CurvePoint ι)) := by
  induction opens with
  | nil => simp
  | @cons out amount outs amounts opened _ inductionHypothesis =>
      have first := span_le_blinding (Or.inl rfl) opened.2
      have together := Submodule.add_mem _ first inductionHypothesis
      rw [List.map_cons, List.sum_cons, List.zipWith_cons_cons, value_cons]
      convert together using 1
      simp only [hiddenOut, Term.blinded_amount, Term.blinded_point]
      module

omit [DecidableEq ι] in
theorem operation_value {ado : Option (AssetDescriptorOperation (CurvePoint ι))} {amount : Nat}
    {emitted burned : CurvePoint ι} {hasAssetOperation : Bool}
    (found : assetOperationCommitments ado = some (emitted, burned, hasAssetOperation))
    (opens : ∀ operation commitment, ado = some operation →
      operation.optAmountCommitment = some commitment → amount < 2 ^ 64 ∧
        ∃ assetId, operation.assetIdPt = some assetId ∧
          (8 : Scalar) • commitment -
            (amount : Scalar) • assetId ∈ Submodule.span Scalar {base .G}) :
    (value (operationTerms emits ado amount) - value (operationTerms burns ado amount)) -
        ((8 : Scalar) • emitted - (8 : Scalar) • burned) ∈
      (blinding : Submodule Scalar (CurvePoint ι)) := by
  cases ado with
  | none =>
      cases found
      simp [operationTerms]
  | some operation =>
      obtain ⟨type, commitment, assetId⟩ := operation
      cases commitment with
      | none =>
          cases type <;> cases found <;> simp [operationTerms]
      | some commitment =>
          obtain ⟨-, id, rfl, opened⟩ := opens _ commitment rfl rfl
          have negated := Submodule.neg_mem _ opened
          cases type with
          | register | emit =>
              cases found
              refine span_le_blinding (Or.inl rfl) ?_
              convert negated using 1
              simp [operationTerms, emits, burns]
          | publicBurn =>
              cases found
              refine span_le_blinding (Or.inl rfl) ?_
              convert opened using 1
              simp [operationTerms, emits, burns]
              abel
          | undefined | update =>
              cases found
              simp [operationTerms, emits, burns]

end Loops

/-! ## The balance of an accepted transaction -/

section Accepted

variable {ι Hash Sig : Type*} [DecidableEq ι] {crypto : Crypto (CurvePoint ι) Hash Sig} {native : ι}
  {tx : Transaction (CurvePoint ι) Sig} {txId : Hash} {additional : UInt64}
  {hidden : HiddenAmounts ι}

omit [DecidableEq ι] in
theorem tag_le_blinding (tag : GeneratorTag) :
    Submodule.span Scalar {tag.point} ≤ (blinding : Submodule Scalar (CurvePoint ι)) := by
  cases tag with
  | G => exact span_le_blinding (Or.inl rfl)
  | X => exact span_le_blinding (Or.inr rfl)

/-- Whichever proof is asked for, the commitment is left with blinding only. -/
theorem checkBalanceProof_blinding (reads : ReadsSpans crypto native)
    {inputs : InputsTally (CurvePoint ι)} {outsCount : Nat} {hasAssetOperation : Bool}
    {toZero : CurvePoint ι}
    (checked : checkBalanceProof crypto tx txId inputs outsCount hasAssetOperation toZero = true) :
    toZero ∈ (blinding : Submodule Scalar (CurvePoint ι)) := by
  simp only [checkBalanceProof] at checked
  split at checked
  · split at checked
    · split at checked
      · cases checked
      · exact tag_le_blinding .G (reads.doubleSchnorr checked).1
    · split at checked
      · simp only [Bool.and_eq_true, decide_eq_true_eq] at checked
        exact checked.1 ▸ Submodule.zero_mem _
      · split at checked
        · cases checked
        · exact (reads.linearComposition checked).1
  · split at checked
    · cases checked
    · exact tag_le_blinding .X (reads.doubleSchnorr checked).1

/-- What acceptance says before the amounts are opened. -/
theorem verifyBalanceProofHf6_eq_true
    (accepted : verifyBalanceProofHf6 crypto tx txId additional = true) :
    ∃ inputs outs emitted burned hasAssetOperation,
      tx.vin.foldlM (tallyInput crypto) ⟨0, 0, additional, 0, true⟩ = some inputs ∧
      tx.vout.foldlM (tallyOut crypto) ⟨0, 0, 0⟩ = some outs ∧
      assetOperationCommitments tx.assetOperation = some (emitted, burned, hasAssetOperation) ∧
      inputs.zcInputsCount = (pseudoOuts crypto tx.signatures).length ∧
      checkBalanceProof crypto tx txId inputs outs.confidentialOutsCount hasAssetOperation
        (commitmentToZero crypto inputs.bareInputsNativeAmountsSum (tx.getTxFee.getD 0)
          outs.bareOutsNativeAmountsSum
          (inputs.inputsCommitmentsSum + emitted +
            ((pseudoOuts crypto tx.signatures).map (·.1)).sum)
          (outs.outsCommitmentsSum + burned)) = true := by
  unfold verifyBalanceProofHf6 at accepted
  split at accepted
  · cases accepted
  · split at accepted
    · rename_i inputs outs emitted burned hasAssetOperation ranInputs ranOuts found
      simp only at accepted
      split at accepted
      · cases accepted
      · split at accepted
        · cases accepted
        · split at accepted
          · cases accepted
          · rename_i sameCount
            exact ⟨inputs, outs, emitted, burned, hasAssetOperation, ranInputs, ranOuts, found,
              not_not.mp sameCount, accepted⟩
    · cases accepted

theorem accepted_balanced (reads : ReadsSpans crypto native)
    (noBare : ∀ amount, .bare amount ∉ tx.vout) (explained : hidden.Explain crypto tx)
    (accepted : verifyBalanceProofHf6 crypto tx txId additional = true) :
    value (inputTerms native additional tx hidden) - value (outputTerms native tx hidden) ∈
      (blinding : Submodule Scalar (CurvePoint ι)) := by
  obtain ⟨inputs, outs, emitted, burned, hasAssetOperation, ranInputs, ranOuts, found, -,
      checked⟩ :=
    verifyBalanceProofHf6_eq_true accepted
  have toZero := checkBalanceProof_blinding reads checked
  have ins := (tallyInputs_value reads ranInputs).1
  have outsEq := tallyOuts_value reads noBare ranOuts
  have spent := hiddenInputs_value explained.spends explained.inputs
  have created := hiddenOuts_value explained.outputs
  have operated := operation_value found explained.operation
  have together := Submodule.add_mem _ (Submodule.add_mem _ toZero spent)
    (Submodule.add_mem _ created operated)
  convert together using 1
  simp only [inputTerms, outputTerms, value_cons, value_append, Term.explicit_amount,
    Term.explicit_point, commitmentToZero, reads.native, sub_smul, smul_add, smul_zero,
      add_zero] at ins outsEq ⊢
  rw [UInt64.toNat_zero, Nat.cast_zero, zero_smul, zero_add] at outsEq
  rw [← sub_eq_iff_eq_add'.mpr ins, ← sub_eq_iff_eq_add.mpr outsEq]
  module

/-! ## Exactness of the sums -/

omit [DecidableEq ι] in
theorem explicitInput_amount {vin : List (TxinV (CurvePoint ι))} {term : Term Scalar ι}
    (inside : term ∈ vin.filterMap (explicitInput native)) : term.amount < 2 ^ 64 := by
  obtain ⟨input, -, isTerm⟩ := List.mem_filterMap.mp inside
  cases input with
  | gen | multisig | zcInput => cases isTerm
  | toKey amount | gateway _ amount =>
      cases isTerm
      exact amount.toNat_lt

omit [DecidableEq ι] in
theorem explicitOut_amount {vout : List (TxOutV (CurvePoint ι))} {term : Term Scalar ι}
    (inside : term ∈ vout.filterMap (explicitOut native)) : term.amount < 2 ^ 64 := by
  obtain ⟨out, -, isTerm⟩ := List.mem_filterMap.mp inside
  cases out with
  | zarcanum => cases isTerm
  | bare amount | gateway _ amount =>
      cases isTerm
      exact amount.toNat_lt

omit [DecidableEq ι] in
theorem hiddenOuts_amount {outs : List (CurvePoint ι × CurvePoint ι)} {amounts : List Nat}
    (opens : List.Forall₂ (fun out amount => Opens out.1 out.2 amount) outs amounts) :
    ∀ term ∈ List.zipWith hiddenOut outs amounts, term.amount < 2 ^ 64 := by
  induction opens with
  | nil => simp
  | cons opened _ inductionHypothesis =>
      intro term inside
      obtain rfl | later := List.mem_cons.mp inside
      · exact opened.1
      · exact inductionHypothesis term later

omit [DecidableEq ι] in
theorem operationTerms_spec {side : AssetOperationType → Bool} {term : Term Scalar ι}
    {ado : Option (AssetDescriptorOperation (CurvePoint ι))} {amount : Nat}
    (inside : term ∈ operationTerms side ado amount) :
    ∃ operation commitment assetId, ado = some operation ∧
      operation.optAmountCommitment = some commitment ∧ operation.assetIdPt = some assetId ∧
      term = Term.explicit assetId amount := by
  unfold operationTerms at inside
  split at inside
  · rename_i type commitment assetId
    split at inside
    · exact ⟨_, commitment, assetId, rfl, rfl, rfl, List.mem_singleton.mp inside⟩
    · cases inside
  · cases inside

omit [DecidableEq ι] in
theorem operationTerms_length (side : AssetOperationType → Bool)
    (ado : Option (AssetDescriptorOperation (CurvePoint ι))) (amount : Nat) :
    (operationTerms side ado amount).length ≤ 1 := by
  unfold operationTerms
  split
  · split <;> simp
  · simp

theorem groupOrder_large : 2 ^ 252 < groupOrder := by decide

theorem total_inputTerms_lt (reads : ReadsSpans crypto native)
    (explained : hidden.Explain crypto tx)
    (accepted : verifyBalanceProofHf6 crypto tx txId additional = true)
    (size : tx.vin.length < 2 ^ 64) (asset : ι) :
    total asset (inputTerms native additional tx hidden) < groupOrder := by
  obtain ⟨inputs, _, _, _, _, ranInputs, -, -, sameCount, -⟩ :=
    verifyBalanceProofHf6_eq_true accepted
  have counted := (tallyInputs_value reads ranInputs).2
  dsimp only at counted
  have lengths := explained.spends.length_eq
  have bounded : ∀ term ∈ inputTerms native additional tx hidden, term.amount ≤ 2 ^ 64 := by
    intro term inside
    simp only [inputTerms, List.mem_cons, List.mem_append, List.mem_map] at inside
    obtain rfl | (isExplicit | ⟨real, among, rfl⟩) | isOperation := inside
    · exact additional.toNat_lt.le
    · exact (explicitInput_amount isExplicit).le
    · exact (explained.inputs real among).1.le
    · obtain ⟨operation, commitment, assetId, found, has, -, rfl⟩ := operationTerms_spec isOperation
      exact (explained.operation operation commitment found has).1.le
  have atMost := total_le asset bounded
  have length : (inputTerms native additional tx hidden).length ≤ 2 * tx.vin.length + 2 := by
    have explicit := List.length_filterMap_le (explicitInput native) tx.vin
    have operation := operationTerms_length emits tx.assetOperation hidden.operation
    simp only [inputTerms, List.length_cons, List.length_append, List.length_map]
    omega
  have order := groupOrder_large
  omega

omit [DecidableEq ι] in
theorem zarcanumOuts_length (vout : List (TxOutV (CurvePoint ι))) :
    (zarcanumOuts vout).length ≤ vout.length := List.length_filterMap_le _ _

theorem total_outputTerms_lt (explained : hidden.Explain crypto tx) (size : tx.vout.length < 2 ^ 64)
    (asset : ι) : total asset (outputTerms native tx hidden) < groupOrder := by
  have bounded : ∀ term ∈ outputTerms native tx hidden, term.amount ≤ 2 ^ 64 := by
    intro term inside
    simp only [outputTerms, List.mem_cons, List.mem_append] at inside
    obtain rfl | (isExplicit | isHidden) | isOperation := inside
    · exact (UInt64.toNat_lt _).le
    · exact (explicitOut_amount isExplicit).le
    · exact (hiddenOuts_amount explained.outputs term isHidden).le
    · obtain ⟨operation, commitment, assetId, found, has, -, rfl⟩ := operationTerms_spec isOperation
      exact (explained.operation operation commitment found has).1.le
  have atMost := total_le asset bounded
  have length : (outputTerms native tx hidden).length ≤ 2 * tx.vout.length + 2 := by
    have explicit := List.length_filterMap_le (explicitOut native) tx.vout
    have zarcanum := zarcanumOuts_length tx.vout
    have operation := operationTerms_length burns tx.assetOperation hidden.operation
    simp only [outputTerms, List.length_cons, List.length_append, List.length_zipWith]
    omega
  have order := groupOrder_large
  omega

/-! ## The asset surjection proof leaves no stray output -/

instance : Nontrivial Scalar := ZMod.nontrivial_iff.mpr (by decide)

/-- Every gateway asset id is the id of an asset. -/
def GatewayIdsKnown (tx : Transaction (CurvePoint ι) Sig) : Prop :=
  (∀ assetId amount, .gateway assetId amount ∈ tx.vin →
    ∃ asset, (8 : Scalar) • assetId = base (.asset asset)) ∧
  (∀ assetId amount, .gateway assetId amount ∈ tx.vout →
    ∃ asset, (8 : Scalar) • assetId = base (.asset asset))

/-- What the chain knows: the spent outputs are of assets, and so is the operation. -/
structure HiddenAmounts.OfAssets (hidden : HiddenAmounts ι) (tx : Transaction (CurvePoint ι) Sig) :
    Prop where
  inputs : ∀ real ∈ hidden.inputs, ∃ asset,
    (8 : Scalar) • real.blindedAssetId - base (.asset asset) ∈ Submodule.span Scalar {base .X}
  operation : ∀ ado assetId, tx.assetOperation = some ado → ado.assetIdPt = some assetId →
    ∃ asset, assetId = base (.asset asset)

omit [DecidableEq ι] in
theorem explicit_known {p : CurvePoint ι} (amount : Nat)
    (known : ∃ asset, p = base (.asset asset)) :
    (Term.explicit p amount).asset ≠ none := by
  obtain ⟨asset, rfl⟩ := known
  rw [Term.explicit_asset]
  exact Option.some_ne_none _

omit [DecidableEq ι] in
theorem inputTerms_known (ids : GatewayIdsKnown tx) (ofAssets : hidden.OfAssets tx) :
    ∀ term ∈ inputTerms native additional tx hidden, term.asset ≠ none := by
  intro term inside
  simp only [inputTerms, List.mem_cons, List.mem_append, List.mem_map] at inside
  obtain rfl | (isExplicit | ⟨real, among, rfl⟩) | isOperation := inside
  · exact explicit_known _ ⟨native, rfl⟩
  · obtain ⟨input, among, isTerm⟩ := List.mem_filterMap.mp isExplicit
    cases input with
    | gen | multisig | zcInput => cases isTerm
    | toKey amount =>
        cases isTerm
        exact explicit_known _ ⟨native, rfl⟩
    | gateway assetId amount =>
        cases isTerm
        exact explicit_known _ (ids.1 assetId amount among)
  · obtain ⟨asset, isAsset⟩ := ofAssets.inputs real among
    rw [hiddenInput, Term.blinded_asset _ isAsset]
    exact Option.some_ne_none _
  · obtain ⟨operation, commitment, assetId, found, -, has, rfl⟩ := operationTerms_spec isOperation
    exact explicit_known _ (ofAssets.operation operation assetId found has)

theorem eight_mul_scalar1div8 : (8 : Scalar) * scalar1div8 = 1 := by
  have exact8 : 8 * ((groupOrder * 3 + 1) / 8) = groupOrder * 3 + 1 := by decide
  rw [scalar1div8, show (8 : Scalar) = ((8 : Nat) : Scalar) by norm_num, ← Nat.cast_mul, exact8]
  simp

omit [DecidableEq ι] in
theorem mem_of_scalar1div8_smul_mem {p : CurvePoint ι} {space : Submodule Scalar (CurvePoint ι)}
    (inside : scalar1div8 • p ∈ space) : p ∈ space := by
  have scaled := space.smul_mem (8 : Scalar) inside
  rwa [smul_smul, eight_mul_scalar1div8, one_smul] at scaled

theorem tallyRing_mem {vin : List (TxinV (CurvePoint ι))} {start final : RingTally (CurvePoint ι)}
    (ran : vin.foldlM (tallyRing crypto) start = some final) :
    ∀ member ∈ final.ring, member ∈ start.ring ∨
      ∃ assetId amount, .gateway assetId amount ∈ vin ∧ member = (8 : Scalar) • assetId := by
  induction vin generalizing start with
  | nil =>
      cases ran
      exact fun member inside => Or.inl inside
  | cons input vin inductionHypothesis =>
      rw [List.foldlM_cons, Option.bind_eq_bind, Option.bind_eq_some_iff] at ran
      obtain ⟨next, stepped, rest⟩ := ran
      intro member inside
      obtain earlier | ⟨assetId, amount, among, isId⟩ := inductionHypothesis rest member inside
      · cases input with
        | gen | toKey | zcInput =>
            cases stepped
            exact Or.inl earlier
        | multisig => cases stepped
        | gateway assetId amount =>
            simp only [tallyRing] at stepped
            split at stepped
            · cases stepped
              exact Or.inl earlier
            · cases stepped
              obtain older | isNew := List.mem_append.mp earlier
              · exact Or.inl older
              · exact Or.inr ⟨assetId, amount, List.mem_cons_self, List.mem_singleton.mp isNew⟩
      · exact Or.inr ⟨assetId, amount, List.mem_cons_of_mem _ among, isId⟩

omit [DecidableEq ι] in
theorem verifyRings_mem (reads : ReadsSpans crypto native) {ring : List (CurvePoint ι)}
    {outs : List (CurvePoint ι × CurvePoint ι)} {bgeProofs : List Sig}
    (verified : verifyRings crypto txId ring outs bgeProofs = true) :
    ∀ out ∈ outs, ∃ member ∈ ring,
      member - (8 : Scalar) • out.1 ∈ Submodule.span Scalar {base .X} := by
  induction outs generalizing bgeProofs with
  | nil => simp
  | cons out outs inductionHypothesis =>
      cases bgeProofs with
      | nil => cases verified
      | cons bgeProof bgeProofs =>
          simp only [verifyRings, Bool.and_eq_true] at verified
          intro other inside
          obtain rfl | later := List.mem_cons.mp inside
          · obtain ⟨difference, among, hidden⟩ := reads.bge verified.1
            obtain ⟨member, isMember, rfl⟩ := List.mem_map.mp among
            exact ⟨member, isMember, mem_of_scalar1div8_smul_mem hidden⟩
          · exact inductionHypothesis verified.2 other later

omit [DecidableEq ι] in
theorem exists_real {pseudo : List (CurvePoint ι × CurvePoint ι)} {reals : List (RealOutput ι)}
    (spends : List.Forall₂ Spends pseudo reals) {out : CurvePoint ι × CurvePoint ι}
    (inside : out ∈ pseudo) :
    ∃ real ∈ reals, Spends out real := by
  induction spends with
  | nil => cases inside
  | cons spent _ inductionHypothesis =>
      obtain rfl | later := List.mem_cons.mp inside
      · exact ⟨_, List.mem_cons_self, spent⟩
      · obtain ⟨real, among, spentLater⟩ := inductionHypothesis later
        exact ⟨real, List.mem_cons_of_mem _ among, spentLater⟩

omit [DecidableEq ι] in
theorem pseudoOut_known (explained : hidden.Explain crypto tx) (ofAssets : hidden.OfAssets tx)
    {member : CurvePoint ι} (isPseudo : member ∈ confidentialRing tx.signatures) :
    ∃ asset, member - base (.asset asset) ∈ Submodule.span Scalar {base .X} := by
  obtain ⟨signature, among, isMember⟩ := List.mem_filterMap.mp isPseudo
  cases signature with
  | zarcanumSig | other => cases isMember
  | zcSig commitment blindedAssetId =>
      cases isMember
      have listed : (commitment, blindedAssetId) ∈ pseudoOuts crypto tx.signatures :=
        List.mem_filterMap.mpr ⟨_, among, rfl⟩
      obtain ⟨real, isReal, spent⟩ := exists_real explained.spends listed
      obtain ⟨asset, isAsset⟩ := ofAssets.inputs real isReal
      refine ⟨asset, ?_⟩
      have difference := Submodule.sub_mem _ isAsset spent.2
      convert difference using 1
      abel

omit [DecidableEq ι] in
theorem emission_known (ofAssets : hidden.OfAssets tx) {emitted : List (CurvePoint ι)}
    (isEmitted : emittedRingMember tx.assetOperation = some emitted) {member : CurvePoint ι}
    (inside : member ∈ emitted) : ∃ asset, member = base (.asset asset) := by
  cases found : tx.assetOperation with
  | none =>
      rw [found] at isEmitted
      cases isEmitted
      cases inside
  | some operation =>
      simp only [found, emittedRingMember] at isEmitted
      split at isEmitted
      · obtain ⟨assetId, has, rfl⟩ := Option.map_eq_some_iff.mp isEmitted
        rw [List.mem_singleton.mp inside]
        exact ofAssets.operation operation assetId found has
      · cases isEmitted
        cases inside

/-- Every confidential output is of an asset that the inputs or an emission brought in. -/
theorem zarcanumOuts_known (reads : ReadsSpans crypto native) (explained : hidden.Explain crypto tx)
    (ids : GatewayIdsKnown tx) (ofAssets : hidden.OfAssets tx)
    (surjective : verifyAssetSurjectionProofHf6 crypto tx txId = true) :
    ∀ out ∈ zarcanumOuts tx.vout, ∃ asset,
      (8 : Scalar) • out.1 - base (.asset asset) ∈ Submodule.span Scalar {base .X} := by
  intro out inside
  unfold verifyAssetSurjectionProofHf6 at surjective
  split at surjective
  · cases surjective
  · split at surjective
    · cases surjective
    · rename_i tally ran
      simp only at surjective
      split at surjective
      · cases surjective
      · rename_i explicitNative
        split at surjective
        · rename_i onlyNative
          have onlyBare : tally.hasOnlyNativeCoinBareInputs = true := by
            obtain noOuts | onlyBare := onlyNative
            · rw [noOuts] at inside
              cases inside
            · exact onlyBare
          have allNative := not_not.mp fun some => explicitNative ⟨onlyBare, some⟩
          have isNative := of_decide_eq_true (List.all_eq_true.mp allNative out inside)
          exact ⟨native, by rw [isNative, reads.native, sub_self]; exact Submodule.zero_mem _⟩
        · split at surjective
          · rename_i emitted bgeProofs isEmitted isProof
            split at surjective
            · cases surjective
            · obtain ⟨member, among, sameBlinded⟩ := verifyRings_mem reads surjective out inside
              suffices known : ∃ asset,
                  member - base (.asset asset) ∈ Submodule.span Scalar {base .X} by
                obtain ⟨asset, isAsset⟩ := known
                refine ⟨asset, ?_⟩
                have difference := Submodule.sub_mem _ isAsset sameBlinded
                convert difference using 1
                abel
              have exactly {p : CurvePoint ι} (known : ∃ asset, p = base (.asset asset)) :
                  ∃ asset, p - base (.asset asset) ∈ Submodule.span Scalar {base .X} := by
                obtain ⟨asset, rfl⟩ := known
                exact ⟨asset, by simp⟩
              simp only [List.mem_append] at among
              obtain ((isGateway | isNative) | isPseudo) | isEmission := among
              · obtain older | ⟨assetId, amount, isInput, rfl⟩ := tallyRing_mem ran member isGateway
                · cases older
                · exact exactly (ids.1 assetId amount isInput)
              · split at isNative
                · rw [List.mem_singleton.mp isNative, reads.native]
                  exact exactly ⟨native, rfl⟩
                · cases isNative
              · exact pseudoOut_known explained ofAssets isPseudo
              · exact exactly (emission_known ofAssets isEmitted isEmission)
          · cases surjective

theorem outputTerms_known (reads : ReadsSpans crypto native) (explained : hidden.Explain crypto tx)
    (noBare : ∀ amount, .bare amount ∉ tx.vout) (ids : GatewayIdsKnown tx)
    (ofAssets : hidden.OfAssets tx)
    (surjective : verifyAssetSurjectionProofHf6 crypto tx txId = true) :
    ∀ term ∈ outputTerms native tx hidden, term.asset ≠ none := by
  intro term inside
  simp only [outputTerms, List.mem_cons, List.mem_append] at inside
  obtain rfl | (isExplicit | isHidden) | isOperation := inside
  · exact explicit_known _ ⟨native, rfl⟩
  · obtain ⟨out, among, isTerm⟩ := List.mem_filterMap.mp isExplicit
    cases out with
    | zarcanum => cases isTerm
    | bare amount => exact absurd among (noBare amount)
    | gateway assetId amount =>
        cases isTerm
        exact explicit_known _ (ids.2 assetId amount among)
  · rw [← List.map_uncurry_zip_eq_zipWith, List.mem_map] at isHidden
    obtain ⟨⟨out, amount⟩, zipped, rfl⟩ := isHidden
    obtain ⟨asset, isAsset⟩ :=
      zarcanumOuts_known reads explained ids ofAssets surjective out (List.of_mem_zip zipped).1
    rw [Function.uncurry_apply_pair, hiddenOut, Term.blinded_asset _ isAsset]
    exact Option.some_ne_none _
  · obtain ⟨operation, commitment, assetId, found, -, has, rfl⟩ := operationTerms_spec isOperation
    exact explicit_known _ (ofAssets.operation operation assetId found has)

/-- An accepted transaction conserves every asset exactly when the amounts under ids of no asset
cancel. There are no such amounts when every gateway asset id is known and the transaction spends
and emits assets only. -/
theorem hf6_conserves (reads : ReadsSpans crypto native) (explained : hidden.Explain crypto tx)
    (noBare : ∀ amount, .bare amount ∉ tx.vout)
    (vinSize : tx.vin.length < 2 ^ 64) (voutSize : tx.vout.length < 2 ^ 64)
    (balanced : verifyBalanceProofHf6 crypto tx txId additional = true)
    (surjective : verifyAssetSurjectionProofHf6 crypto tx txId = true) :
    (Conserves native additional tx hidden ↔ StraysCancel native additional tx hidden) ∧
      (GatewayIdsKnown tx → hidden.OfAssets tx → Conserves native additional tx hidden) := by
  have asset_iff (asset : ι) := total_eq_iff (accepted_balanced reads noBare explained balanced)
    (total_inputTerms_lt reads explained balanced vinSize asset)
    (total_outputTerms_lt explained voutSize asset)
  refine ⟨forall_congr' asset_iff, fun ids ofAssets asset => (asset_iff asset).mpr ?_⟩
  rw [stray_eq_zero asset (inputTerms_known ids ofAssets),
    stray_eq_zero asset (outputTerms_known reads explained noBare ids ofAssets surjective)]

end Accepted

/-! ## A gateway asset id that is no asset -/

noncomputable def accepts (p : Prop) : Bool := @decide p (Classical.propDecidable p)

theorem accepts_iff {p : Prop} : accepts p = true ↔ p :=
  @decide_eq_true_iff p (Classical.propDecidable p)

/-- Verifiers that accept exactly what the spans allow, with the native coin as the only asset. -/
noncomputable def spanCrypto : Crypto (CurvePoint Unit) Unit Unit where
  nativeCoinAssetId1div8 := scalar1div8 • base (.asset ())
  nullPkey := 0
  verifyDoubleSchnorrSig gen0 gen1 _ A B _ :=
    accepts (A ∈ Submodule.span Scalar {gen0.point} ∧ B ∈ Submodule.span Scalar {gen1.point})
  verifyLinearCompositionAndSchnorrSig gen0 gen1 gen2 _ A B _ :=
    accepts (A ∈ Submodule.span Scalar {gen0.point, gen1.point} ∧
      B ∈ Submodule.span Scalar {gen2.point})
  verifyBGEProof _ ring _ := accepts (∃ member ∈ ring, member ∈ Submodule.span Scalar {base .X})

theorem spanCrypto_reads : ReadsSpans spanCrypto () where
  native := by
    rw [spanCrypto, smul_smul, eight_mul_scalar1div8, one_smul]
  doubleSchnorr := accepts_iff.mp
  linearComposition := accepts_iff.mp
  bge := accepts_iff.mp

/-- A bare input of 10 that pays this fee and these outputs. -/
noncomputable def bareTransaction (fee : UInt64) (vout : List (TxOutV (CurvePoint Unit))) :
    Transaction (CurvePoint Unit) Unit where
  version := 4
  vin := [.toKey 10]
  vout := vout
  extra := [.zarcanumTxDataV1 fee]
  signatures := []
  proofs := [.zcBalanceProof ()]

theorem eight_smul_native :
    (8 : Scalar) • spanCrypto.nativeCoinAssetId1div8 = base (.asset ()) := spanCrypto_reads.native

theorem neg_native_ne : -spanCrypto.nativeCoinAssetId1div8 ≠ spanCrypto.nativeCoinAssetId1div8 := by
  intro same
  have scaled := congrArg (fun p => coordinate () ((8 : Scalar) • p)) same
  simp only [smul_neg, eight_smul_native, map_neg, coordinate_base_asset, if_true] at scaled
  exact absurd scaled (by decide)

theorem explained_nothing {fee : UInt64} {vout : List (TxOutV (CurvePoint Unit))}
    (noZarcanum : zarcanumOuts vout = []) :
    HiddenAmounts.Explain ⟨[], [], 0⟩ spanCrypto (bareTransaction fee vout) where
  spends := List.Forall₂.nil
  inputs := by simp
  outputs := by
    rw [bareTransaction, noZarcanum]
    exact List.Forall₂.nil
  operation := by simp [bareTransaction, Transaction.assetOperation]

theorem bareTransaction_ofAssets (fee : UInt64) (vout : List (TxOutV (CurvePoint Unit)))
    (outputs : List Nat) :
    HiddenAmounts.OfAssets ⟨[], outputs, 0⟩ (bareTransaction fee vout) where
  inputs := by simp
  operation := by simp [bareTransaction, Transaction.assetOperation]

theorem bareTransaction_accepted {fee : UInt64} {vout : List (TxOutV (CurvePoint Unit))}
    {outs : OutsTally (CurvePoint Unit)}
    (ranOuts : vout.foldlM (tallyOut spanCrypto) ⟨0, 0, 0⟩ = some outs)
    (toZero :
      commitmentToZero spanCrypto 10 fee outs.bareOutsNativeAmountsSum 0 outs.outsCommitmentsSum ∈
      Submodule.span Scalar {base .G}) :
    verifyBalanceProofHf6 spanCrypto (bareTransaction fee vout) () 0 = true := by
  have ranInputs :
      (bareTransaction fee vout).vin.foldlM (tallyInput spanCrypto) ⟨0, 0, 0, 0, true⟩ =
      some ⟨0, 0, 10, 0, true⟩ := rfl
  have hasFee : (bareTransaction fee vout).getTxFee = some fee := by
    simp [bareTransaction, Transaction.getTxFee, Transaction.isCoinbase]
  have noOperation : (bareTransaction fee vout).assetOperation = none := rfl
  have noSigs : pseudoOuts spanCrypto (bareTransaction fee vout).signatures = [] := rfl
  have isVout : (bareTransaction fee vout).vout = vout := rfl
  have current : ¬ (bareTransaction fee vout).version < transactionVersionPostHf6 := Nat.lt_irrefl 4
  unfold verifyBalanceProofHf6
  rw [if_neg current, ranInputs, isVout, ranOuts, hasFee, noOperation, noSigs]
  simp only [assetOperationCommitments, Option.isNone_some, Option.getD_some, List.map_nil,
    List.sum_nil, add_zero]
  have checked : checkBalanceProof spanCrypto (bareTransaction fee vout) () ⟨0, 0, 10, 0, true⟩
      outs.confidentialOutsCount false
      (commitmentToZero spanCrypto 10 fee outs.bareOutsNativeAmountsSum 0 outs.outsCommitmentsSum) =
        true :=
    accepts_iff.mpr ⟨toZero, Submodule.zero_mem _⟩
  simp [checked]

theorem bareTransaction_surjective {fee : UInt64} {vout : List (TxOutV (CurvePoint Unit))}
    (areNative : ∀ out ∈ zarcanumOuts vout, out.1 = spanCrypto.nativeCoinAssetId1div8) :
    verifyAssetSurjectionProofHf6 spanCrypto (bareTransaction fee vout) () = true := by
  have ran : (bareTransaction fee vout).vin.foldlM (tallyRing spanCrypto) ⟨[], true, false⟩ =
      some ⟨[], true, true⟩ := rfl
  have isVout : (bareTransaction fee vout).vout = vout := rfl
  have current : ¬ (bareTransaction fee vout).version < transactionVersionPostHf6 := Nat.lt_irrefl 4
  unfold verifyAssetSurjectionProofHf6
  rw [if_neg current, ran, isVout]
  simpa using areNative

theorem total_explicit_native (amount : Nat) (terms : List (Term Scalar Unit)) :
    total () (Term.explicit (base (.asset ())) amount :: terms) = amount + total () terms := by
  simp [total, Term.explicit_asset]

/-- A gateway output under minus the native id lets another one create 5 native coins: the inputs
and the fee are 10, and the native coin goes out at 15. -/
theorem minus_native_inflates :
    let tx := bareTransaction 10
      [.gateway spanCrypto.nativeCoinAssetId1div8 5,
        .gateway (-spanCrypto.nativeCoinAssetId1div8) 5]
    HiddenAmounts.Explain ⟨[], [], 0⟩ spanCrypto tx ∧ HiddenAmounts.OfAssets ⟨[], [], 0⟩ tx ∧
      verifyBalanceProofHf6 spanCrypto tx () 0 = true ∧
      verifyAssetSurjectionProofHf6 spanCrypto tx () = true ∧
      total () (inputTerms () 0 tx ⟨[], [], 0⟩) = 10 ∧
        total () (outputTerms () tx ⟨[], [], 0⟩) = 15 := by
  intro tx
  refine ⟨explained_nothing rfl, bareTransaction_ofAssets _ _ _, ?_,
    bareTransaction_surjective nofun, ?_, ?_⟩
  · have ranOuts : tx.vout.foldlM (tallyOut spanCrypto) ⟨0, 0, 0⟩ =
        some ⟨5, 0 + (UInt64.toNat 5 : Scalar) • -spanCrypto.nativeCoinAssetId1div8, 0⟩ := by
      simp only [tx, bareTransaction, List.foldlM_cons, List.foldlM_nil, tallyOut,
        if_neg neg_native_ne]
      rfl
    have toZero : commitmentToZero spanCrypto 10 10 5 0
        (0 + (UInt64.toNat 5 : Scalar) • -spanCrypto.nativeCoinAssetId1div8) = 0 := by
      simp only [commitmentToZero]
      module
    refine bareTransaction_accepted ranOuts ?_
    rw [toZero]
    exact Submodule.zero_mem _
  · have noStray : tx.vin.filterMap (explicitInput ()) = [Term.explicit (base (.asset ())) 10] :=
      rfl
    simp only [inputTerms, noStray, List.map_nil, List.append_nil, List.singleton_append,
      total_explicit_native]
    rfl
  · have notNative :
        (Term.explicit ((8 : Scalar) • -spanCrypto.nativeCoinAssetId1div8) 5).asset = none := by
      refine assetWithin_eq_none ?_
      intro asset inside
      have same := sub_eq_zero.mp ((Submodule.mem_bot Scalar).mp inside)
      rw [smul_neg, eight_smul_native] at same
      have coordinates := congrArg (coordinate ()) same
      rw [map_neg, coordinate_base_asset] at coordinates
      exact absurd coordinates (by decide)
    have outs : outputTerms () tx ⟨[], [], 0⟩ = [Term.explicit (base (.asset ())) 10,
        Term.explicit ((8 : Scalar) • spanCrypto.nativeCoinAssetId1div8) 5,
        Term.explicit ((8 : Scalar) • -spanCrypto.nativeCoinAssetId1div8) 5] := rfl
    rw [outs, eight_smul_native, total_explicit_native, total_explicit_native]
    simp only [total, List.map_cons, List.map_nil, notNative]
    rfl

/-- Five native coins under a mask. -/
noncomputable def hiddenCommitment : CurvePoint Unit :=
  (5 : ℕ) • spanCrypto.nativeCoinAssetId1div8 + (3 : ℕ) • base .G

/-- Of the input of 10, the fee takes 3, a gateway output 2 and a hidden one the rest. -/
theorem hf6_conserves_native :
    Conserves () 0 (bareTransaction 3 [.gateway spanCrypto.nativeCoinAssetId1div8 2,
      .zarcanum spanCrypto.nativeCoinAssetId1div8 hiddenCommitment]) ⟨[], [5], 0⟩ := by
  let tx := bareTransaction 3 [.gateway spanCrypto.nativeCoinAssetId1div8 2,
    .zarcanum spanCrypto.nativeCoinAssetId1div8 hiddenCommitment]
  have ranOuts :
      tx.vout.foldlM (tallyOut spanCrypto) ⟨0, 0, 0⟩ = some ⟨2, 0 + hiddenCommitment, 1⟩ := by
    simp only [tx, bareTransaction, List.foldlM_cons, List.foldlM_nil, tallyOut]
    rfl
  have toZero : commitmentToZero spanCrypto 10 3 2 0 (0 + hiddenCommitment) ∈ Submodule.span Scalar
      {base .G} := by
    have left :
        ((UInt64.toNat 10 : Scalar) - (UInt64.toNat 3 : Scalar) - (UInt64.toNat 2 : Scalar)) =
          5 := by
      decide
    refine Submodule.mem_span_singleton.mpr ⟨-24, ?_⟩
    rw [commitmentToZero, left, hiddenCommitment]
    module
  have opened : Opens spanCrypto.nativeCoinAssetId1div8 hiddenCommitment 5 := by
    refine ⟨by decide, Submodule.mem_span_singleton.mpr ⟨24, ?_⟩⟩
    rw [hiddenCommitment]
    module
  have explained : HiddenAmounts.Explain ⟨[], [5], 0⟩ spanCrypto tx := {
    spends := List.Forall₂.nil
    inputs := by simp
    outputs := List.Forall₂.cons opened List.Forall₂.nil
    operation := by simp [tx, bareTransaction, Transaction.assetOperation] }
  have ids : GatewayIdsKnown tx := by
    refine ⟨by simp [tx, bareTransaction], fun assetId amount inside => ?_⟩
    simp only [tx, bareTransaction, List.mem_cons, TxOutV.gateway.injEq, List.not_mem_nil, or_false,
      reduceCtorEq] at inside
    obtain ⟨rfl, -⟩ := inside
    exact ⟨(), eight_smul_native⟩
  have surjective : verifyAssetSurjectionProofHf6 spanCrypto tx () = true := by
    refine bareTransaction_surjective fun out inside => ?_
    rw [List.mem_singleton.mp
      (show out ∈ [(spanCrypto.nativeCoinAssetId1div8, hiddenCommitment)] from inside)]
  exact (hf6_conserves spanCrypto_reads explained (by simp [tx, bareTransaction]) (by decide)
    (by decide)
    (bareTransaction_accepted ranOuts toZero) surjective).2 ids (bareTransaction_ofAssets _ _ _)

end Zano.Transactions
