import Zano.Wallet.Rings

/-! # What the rings are

Whatever a daemon answers, the decoys of an input have different indexes, none of which is that of
the output that is spent. From this alone follows the form of the ring.
-/

namespace Zano.Wallet.Rings

open Serialization Checks KeyOrder
open Decoys (RequestBatch)
open KeyOffsets
  (TxoutRefV absoluteSortedOutputOffsetsToRelativeInPlace relativeOutputOffsetsToAbsolute relative)

/-- At most so many decoys, of which each has its own index. -/
structure AreDecoys (realGindex : UInt64) (most : ℕ) (decoys : List OutEntry) : Prop where
  distinct : (decoys.map (·.globalAmountIndex)).Nodup
  notReal : ∀ oe ∈ decoys, oe.globalAmountIndex ≠ realGindex
  atMost : decoys.length ≤ most

/-! ## Picked decoys -/

/-- The used indexes are those of the decoys and that of the real output. -/
def Picks.Tracks (realGindex : UInt64) (s : Picks) : Prop :=
  s.usedGindices.Nodup ∧
    s.usedGindices.Perm (realGindex :: s.decoyStorageOut.map (·.globalAmountIndex))

theorem Picks.Tracks.add {realGindex : UInt64} {s : Picks} (tracks : s.Tracks realGindex)
    {cand : OutEntry} (isNew : cand.globalAmountIndex ∉ s.usedGindices) :
    (s.add cand).Tracks realGindex := by
  obtain ⟨distinct, same⟩ := tracks
  refine ⟨List.nodup_cons.mpr ⟨isNew, distinct⟩, ?_⟩
  have swapped :=
    (same.cons cand.globalAmountIndex).trans (.swap realGindex cand.globalAmountIndex _)
  refine swapped.trans (List.Perm.cons realGindex ?_)
  rw [Picks.add, List.map_append]
  exact (List.perm_append_singleton _ _).symm

theorem Picks.Tracks.areDecoys {realGindex : UInt64} {s : Picks} (tracks : s.Tracks realGindex)
    {most : ℕ} (atMost : s.decoyStorageOut.length ≤ most) :
    AreDecoys realGindex most s.decoyStorageOut := by
  obtain ⟨notReal, distinct⟩ := List.nodup_cons.mp (tracks.2.nodup_iff.mp tracks.1)
  refine ⟨distinct, fun oe isDecoy same => notReal ?_, atMost⟩
  exact same ▸ List.mem_map_of_mem isDecoy

theorem takeNextUnique_tracks {realGindex : UInt64} (pool : List OutEntry) {s : Picks}
    (tracks : s.Tracks realGindex) :
    (takeNextUnique pool s).1.Tracks realGindex ∧
      (takeNextUnique pool s).1.decoyStorageOut.length ≤ s.decoyStorageOut.length + 1 := by
  induction pool with
  | nil => exact ⟨tracks, Nat.le_succ _⟩
  | cons cand pool inductionHypothesis =>
      rw [takeNextUnique]
      split
      next isUsed => exact inductionHypothesis
      next isNew => exact ⟨tracks.add isNew, by simp [Picks.add]⟩

theorem takeUniques_tracks {realGindex : UInt64} {wanted : ℕ} (pool : List OutEntry) {s : Picks}
    (tracks : s.Tracks realGindex) (atMost : s.decoyStorageOut.length ≤ wanted) :
    (takeUniques wanted pool s).Tracks realGindex ∧
      (takeUniques wanted pool s).decoyStorageOut.length ≤ wanted := by
  induction pool generalizing s with
  | nil => exact ⟨tracks, atMost⟩
  | cons cand pool inductionHypothesis =>
      rw [takeUniques]
      split
      next enough => exact ⟨tracks, atMost⟩
      next less =>
          split
          next isUsed => exact inductionHypothesis tracks atMost
          next isNew =>
              refine inductionHypothesis (tracks.add isNew) ?_
              rw [Picks.add, List.length_append, List.length_singleton]
              omega

theorem pickDecoysFromPools_areDecoys (draws : Draws)
    (coinbaseCandidates noncbCandidates : List OutEntry) {wanted : ℕ} (someWanted : 0 < wanted)
    (realGindex : UInt64) (preferCoinbase : Bool) :
    AreDecoys realGindex wanted
      (pickDecoysFromPools draws coinbaseCandidates noncbCandidates wanted realGindex
        preferCoinbase) := by
  have start : Picks.Tracks realGindex ⟨[realGindex], []⟩ := ⟨List.nodup_singleton _, .refl _⟩
  rw [pickDecoysFromPools]
  generalize (if preferCoinbase then _ else _ : List OutEntry) = opposite
  generalize (if preferCoinbase then _ else _ : List OutEntry) = preferred
  generalize isFirst : (if draws.opposite % 100 < walletNoncbSetProbPercent ∧ opposite ≠ [] then
    takeNextUnique opposite ⟨[realGindex], []⟩ else (⟨[realGindex], []⟩, opposite)) = first
  have fromFirst : first.1.Tracks realGindex ∧ first.1.decoyStorageOut.length ≤ wanted := by
    subst isFirst
    split
    · obtain ⟨tracks, one⟩ := takeNextUnique_tracks opposite start
      exact ⟨tracks, one.trans someWanted⟩
    · exact ⟨start, Nat.zero_le _⟩
  obtain ⟨tracks, atMost⟩ := takeUniques_tracks preferred fromFirst.1 fromFirst.2
  obtain ⟨tracks, atMost⟩ := takeUniques_tracks first.2 tracks atMost
  exact tracks.areDecoys atMost

/-! ## Bare candidates -/

def IndexedOutputs.Distinct (outputs : IndexedOutputs) : Prop :=
  (outputs.map (·.output.globalAmountIndex)).Nodup

theorem indexBlock_distinct {blockHeight : UInt64} {outs : List OutEntry}
    {outputs result : IndexedOutputs} (distinct : outputs.Distinct)
    (passed : indexBlock blockHeight outs outputs = .ok result) : result.Distinct := by
  induction outs generalizing outputs with
  | nil =>
      cases passed
      exact distinct
  | cons output rest inductionHypothesis =>
      obtain ⟨-, passed⟩ := require_bind_eq_ok.mp passed
      obtain ⟨isNew, passed⟩ := require_bind_eq_ok.mp passed
      refine inductionHypothesis ?_ passed
      rw [IndexedOutputs.Distinct, List.map_append, List.nodup_append]
      refine ⟨distinct, List.nodup_singleton _, ?_⟩
      rw [IndexedOutputs.find, Option.isNone_iff_eq_none, List.find?_eq_none] at isNew
      intro index isThere other isOther same
      obtain ⟨o, isOutput, rfl⟩ := List.mem_map.mp isThere
      obtain rfl := List.mem_singleton.mp isOther
      exact isNew o isOutput (decide_eq_true same)

theorem indexBlocks_distinct {hf4Height : UInt64} {blocks : List OutputsInBlock}
    {outputs result : IndexedOutputs} (distinct : outputs.Distinct)
    (passed : indexBlocks hf4Height blocks outputs = .ok result) : result.Distinct := by
  induction blocks generalizing outputs with
  | nil =>
      cases passed
      exact distinct
  | cons block rest inductionHypothesis =>
      obtain ⟨-, passed⟩ := require_bind_eq_ok.mp passed
      obtain ⟨next, first, passed⟩ := bind_eq_ok.mp passed
      exact inductionHypothesis (indexBlock_distinct distinct first) passed

theorem indexBatch_distinct {hf4Height : UInt64} {response : List (List OutputsInBlock)} {i : ℕ}
    {requested : RequestBatch} {outputs : IndexedOutputs}
    (passed : indexBatch hf4Height response i requested = .ok outputs) : outputs.Distinct := by
  rw [indexBatch] at passed
  split at passed
  · cases passed
    exact List.nodup_nil
  · obtain ⟨blocks, -, passed⟩ := found_bind_eq_ok.mp passed
    obtain ⟨outputs', isIndexed, passed⟩ := bind_eq_ok.mp passed
    obtain ⟨-, passed⟩ := require_bind_eq_ok.mp passed
    cases passed
    have empty : IndexedOutputs.Distinct [] := List.nodup_nil
    exact indexBlocks_distinct empty isIndexed

theorem indexBatches_distinct {hf4Height : UInt64} {response : List (List OutputsInBlock)} {i : ℕ}
    {batches : List RequestBatch} {indexed : List IndexedOutputs}
    (passed : indexBatches hf4Height response i batches = .ok indexed) :
    ∀ outputs ∈ indexed, outputs.Distinct := by
  induction batches generalizing i indexed with
  | nil =>
      cases passed
      exact nofun
  | cons requested rest inductionHypothesis =>
      obtain ⟨outputs, first, passed⟩ := bind_eq_ok.mp passed
      obtain ⟨later, isLater, passed⟩ := bind_eq_ok.mp passed
      cases passed
      exact List.forall_mem_cons.mpr ⟨indexBatch_distinct first, inductionHypothesis isLater⟩

theorem bareDecoys_areDecoys {draws : Draws} {plan : MixInputPlan} {outputs : IndexedOutputs}
    {decoys : List OutEntry} (distinct : outputs.Distinct)
    (passed : bareDecoys draws plan outputs = .ok decoys) :
    AreDecoys plan.td.globalOutputIndex plan.targetDecoyCount decoys := by
  obtain ⟨real, -, passed⟩ := found_bind_eq_ok.mp passed
  obtain ⟨-, passed⟩ := require_bind_eq_ok.mp passed
  obtain ⟨ownKey, -, passed⟩ := found_bind_eq_ok.mp passed
  obtain ⟨-, passed⟩ := require_bind_eq_ok.mp passed
  cases passed
  have shuffled := draws.localDecoys.perm
    ((outputs.map (·.output)).filter fun output =>
      output.globalAmountIndex ≠ plan.td.globalOutputIndex)
  refine ⟨?_, fun oe isDecoy => ?_, List.length_take_le _ _⟩
  · refine List.Nodup.sublist ((List.take_sublist _ _).map _) ?_
    refine ((shuffled.map _).nodup_iff).mpr (List.Nodup.sublist (List.filter_sublist.map _) ?_)
    rwa [List.map_map]
  · have isOther := shuffled.mem_iff.mp (List.mem_of_mem_take isDecoy)
    exact of_decide_eq_true (List.mem_filter.mp isOther).2

/-- Whichever way they were asked for. -/
theorem localDecoys_areDecoys {w : Wallet2} {draws : Draws} {response : List (List OutputsInBlock)}
    {indexed : List IndexedOutputs} {plan : MixInputPlan} {decoys : List OutEntry}
    (distinct : ∀ outputs ∈ indexed, outputs.Distinct)
    (passed : localDecoys w draws response indexed plan = .ok decoys) :
    AreDecoys plan.td.globalOutputIndex plan.targetDecoyCount decoys := by
  rw [localDecoys] at passed
  split at passed
  next needed =>
      obtain ⟨batchIdx, -, passed⟩ := found_bind_eq_ok.mp passed
      obtain ⟨blocks, -, passed⟩ := found_bind_eq_ok.mp passed
      split at passed
      · obtain ⟨outputs, isIndexed, passed⟩ := found_bind_eq_ok.mp passed
        exact bareDecoys_areDecoys (distinct outputs (List.mem_of_getElem? isIndexed)) passed
      · cases passed
        exact pickDecoysFromPools_areDecoys _ _ _ (of_decide_eq_true needed) _ _
  next =>
      cases passed
      exact ⟨List.nodup_nil, nofun, Nat.zero_le _⟩

/-! ## The members in their order -/

def indexKey (oe : OutEntry) : ℕ := oe.globalAmountIndex.toNat

theorem ascending_sortDecoys {decoys : List OutEntry}
    (distinct : (decoys.map (·.globalAmountIndex)).Nodup) :
    Ascending indexKey (sortDecoys decoys) := by
  refine ascending_insertionSort ?_ fun l r => ?_
  · have distinctNumbers := distinct.map fun _ _ => UInt64.toNat_inj.mp
    rwa [List.map_map] at distinctNumbers
  · rw [UInt64.le_iff_toNat_le, indexKey, indexKey]

theorem AreDecoys.of_perm {realGindex : UInt64} {most : ℕ} {decoys others : List OutEntry}
    (areDecoys : AreDecoys realGindex most decoys) (same : others.Perm decoys) :
    AreDecoys realGindex most others where
  distinct := (same.map _).nodup_iff.mpr areDecoys.distinct
  notReal oe isDecoy := areDecoys.notReal oe (same.mem_iff.mp isDecoy)
  atMost := same.length_eq.trans_le areDecoys.atMost

theorem sortDecoys_perm (decoys : List OutEntry) : (sortDecoys decoys).Perm decoys :=
  List.perm_insertionSort _ decoys

/-- The loop copies all decoys, since they are not too many. -/
theorem addDecoys_eq {realGindex : UInt64} {target : ℕ} {decoys : List OutEntry}
    {outputs : List TxOutputEntry} (notReal : ∀ oe ∈ decoys, oe.globalAmountIndex ≠ realGindex)
    (atMost : outputs.length + decoys.length ≤ target) :
    addDecoys realGindex target decoys outputs = outputs ++ decoys.map decoyEntry := by
  induction decoys generalizing outputs with
  | nil => simp [addDecoys]
  | cons decoy rest inductionHypothesis =>
      obtain ⟨here, later⟩ := List.forall_mem_cons.mp notReal
      rw [List.length_cons] at atMost
      rw [addDecoys, if_neg here.symm]
      split
      next enough =>
          have noMore : rest = [] := List.length_eq_zero_iff.mp (by omega)
          simp [noMore]
      next less =>
          rw [inductionHypothesis later (by simpa [Nat.add_assoc, Nat.add_comm 1] using atMost),
            List.append_assoc, List.map_cons, List.singleton_append]

/-- What is known of an entry that refers to the own output. -/
def IsOwn (td : TransferDetails) (e : TxOutputEntry) : Prop :=
  e.outReference = .globalIndex td.globalOutputIndex ∧
    match td.tx.vout[td.internalOutputIndex]? with
    | some (.inl ⟨_, .inl o⟩) =>
        e.stealthAddress = o.key ∧ e.concealingPoint = nullPkey ∧ e.amountCommitment = nullPkey ∧
          e.blindedAssetId = nullPkey
    | some (.inr (.inl o)) =>
        e.stealthAddress = o.stealthAddress ∧ e.concealingPoint = o.concealingPoint ∧
          e.amountCommitment = o.amountCommitment ∧ e.blindedAssetId = o.blindedAssetId
    | _ => False

theorem realEntry_isOwn {td : TransferDetails} {e : TxOutputEntry}
    (passed : realEntry td = .ok e) : IsOwn td e := by
  have notGateway := td.notGateway
  rw [IsOwn, td.isOut]
  rw [realEntry] at passed
  generalize td.out = out at notGateway passed ⊢
  obtain ⟨amount, o | o⟩ | o | o := out
  · cases passed
    exact ⟨rfl, rfl, rfl, rfl, rfl⟩
  · cases passed
  · obtain ⟨-, passed⟩ := require_bind_eq_ok.mp passed
    cases passed
    exact ⟨rfl, rfl, rfl, rfl, rfl⟩
  · cases notGateway

/-- A ring for a transfer: its references are in strict order, and the own output is where it is
said to be and nowhere else. -/
structure IsRing (td : TransferDetails) (targetDecoyCount : ℕ) (src : TxSourceEntry) : Prop where
  ascending : ∃ indexes : List UInt64, src.outputs.map (·.outReference) = indexes.map .globalIndex ∧
    indexes.Pairwise (· < ·)
  own : ∃ e, src.outputs[src.realOutput]? = some e ∧ IsOwn td e
  once : ∀ (i : ℕ) (e : TxOutputEntry), src.outputs[i]? = some e →
    e.outReference = .globalIndex td.globalOutputIndex → i = src.realOutput
  atMost : src.outputs.length ≤ targetDecoyCount + 1

/-- An entry by a global index is like that of a decoy. -/
theorem exists_decoyEntry {e : TxOutputEntry} {index : UInt64}
    (isIndex : e.outReference = .globalIndex index) :
    ∃ oe : OutEntry, oe.globalAmountIndex = index ∧ decoyEntry oe = e := by
  obtain ⟨reference, stealthAddress, concealingPoint, amountCommitment, blindedAssetId⟩ := e
  cases isIndex
  exact ⟨⟨index, stealthAddress, concealingPoint, amountCommitment, blindedAssetId, 0⟩, rfl, rfl⟩

theorem sourceEntry_isRing {td : TransferDetails} {transferIndex : UInt64} {target : ℕ}
    {decoys : List OutEntry} {realOe : TxOutputEntry} (ascending : Ascending indexKey decoys)
    (areDecoys : AreDecoys td.globalOutputIndex target decoys) (isOwn : IsOwn td realOe) :
    IsRing td target (sourceEntry td transferIndex (decoys.map decoyEntry) realOe) := by
  obtain ⟨own, isIndex, rfl⟩ := exists_decoyEntry isOwn.1
  have position : (decoys.map decoyEntry).findIdx (isNotBefore td.globalOutputIndex) =
      decoys.findIdx fun oe => td.globalOutputIndex ≤ oe.globalAmountIndex := List.findIdx_map _ _ _
  have isOutputs : (sourceEntry td transferIndex (decoys.map decoyEntry) (decoyEntry own)).outputs =
      (decoys.insertIdx (decoys.findIdx fun oe => td.globalOutputIndex ≤ oe.globalAmountIndex)
        own).map decoyEntry := by
    rw [List.map_insertIdx, ← position]
    rfl
  have isRealOutput :
      (sourceEntry td transferIndex (decoys.map decoyEntry) (decoyEntry own)).realOutput =
      decoys.findIdx fun oe => td.globalOutputIndex ≤ oe.globalAmountIndex := position
  have inOrder := ascending.insertIdx (a := own)
    (fun oe isDecoy same => areDecoys.notReal oe isDecoy ((UInt64.toNat_inj.mp same).trans isIndex))
    (fun oe => td.globalOutputIndex ≤ oe.globalAmountIndex)
    fun oe _ => by rw [decide_eq_true_iff, UInt64.le_iff_toNat_le, indexKey, indexKey, isIndex]
  have isOwnPosition :=
    getElem?_insertIdx_findIdx decoys own fun oe => td.globalOutputIndex ≤ oe.globalAmountIndex
  refine ⟨⟨_, ?_, List.pairwise_map.mpr (inOrder.imp UInt64.lt_iff_toNat_lt.mpr)⟩,
    ⟨_, ?_, isOwn⟩, ?_, ?_⟩
  · rw [isOutputs, List.map_map, List.map_map]
    rfl
  · rw [isOutputs, isRealOutput, List.getElem?_map, isOwnPosition, Option.map_some]
  · intro i e isEntry refersToOwn
    rw [isOutputs, List.getElem?_map] at isEntry
    obtain ⟨oe, isMember, rfl⟩ := Option.map_eq_some_iff.mp isEntry
    rw [isRealOutput]
    refine inOrder.index_eq isMember isOwnPosition ?_
    rw [indexKey, indexKey, isIndex]
    exact congrArg UInt64.toNat (TxoutRefV.globalIndex.inj refersToOwn)
  · rw [isOutputs, List.length_map, length_insertIdx_findIdx]
    exact Nat.succ_le_succ areDecoys.atMost

/-! ## All sources -/

/-- A source for a plan, with all the decoys that it wants unless fewer are allowed. -/
structure IsSource (td : TransferDetails) (target : ℕ) (useAll : Bool) (trIdx : UInt64)
    (src : TxSourceEntry) : Prop
    extends IsRing td target src where
  isTransfer : src.transferIndex = trIdx
  exact_ : useAll = false → src.outputs.length = target + 1

theorem length_outputs_sourceEntry (td : TransferDetails) (transferIndex : UInt64)
    (decoys : List TxOutputEntry) (realOe : TxOutputEntry) :
    (sourceEntry td transferIndex decoys realOe).outputs.length = decoys.length + 1 :=
  length_insertIdx_findIdx decoys realOe _

theorem buildSource_isSource {w : Wallet2} {draws : Draws} {response : List (List OutputsInBlock)}
    {indexed : List IndexedOutputs} {useAll : Bool} {plan : MixInputPlan} {src : TxSourceEntry}
    (distinct : ∀ outputs ∈ indexed, outputs.Distinct)
    (passed : buildSource w draws response indexed useAll plan = .ok src) :
    IsSource plan.td plan.targetDecoyCount useAll plan.transferIndex src := by
  obtain ⟨decoys, isLocal, passed⟩ := bind_eq_ok.mp passed
  have areDecoys := localDecoys_areDecoys distinct isLocal
  have sorted := areDecoys.of_perm (sortDecoys_perm decoys)
  rw [addDecoys_eq sorted.notReal (by simpa using sorted.atMost), List.nil_append] at passed
  obtain ⟨enough, passed⟩ := require_bind_eq_ok.mp passed
  obtain ⟨realOe, isReal, passed⟩ := bind_eq_ok.mp passed
  cases passed
  refine ⟨sourceEntry_isRing (ascending_sortDecoys areDecoys.distinct) sorted
    (realEntry_isOwn isReal), rfl, fun exact_ => ?_⟩
  rw [length_outputs_sourceEntry, List.length_map]
  rw [exact_, List.length_map] at enough
  exact congrArg (· + 1) (Nat.le_antisymm sorted.atMost (enough.resolve_left Bool.false_ne_true))

theorem buildSources_areSources {w : Wallet2} {draws : ℕ → Draws}
    {response : List (List OutputsInBlock)} {indexed : List IndexedOutputs} {useAll : Bool}
    {plans : List MixInputPlan} {sources : List TxSourceEntry}
    (distinct : ∀ outputs ∈ indexed, outputs.Distinct)
    (passed : buildSources w draws response indexed useAll plans = .ok sources) :
    List.Forall₂ (fun plan src => IsSource plan.td plan.targetDecoyCount useAll plan.transferIndex
      src) plans sources := by
  induction plans generalizing sources with
  | nil =>
      cases passed
      exact .nil
  | cons plan rest inductionHypothesis =>
      obtain ⟨src, first, passed⟩ := bind_eq_ok.mp passed
      obtain ⟨later, isLater, passed⟩ := bind_eq_ok.mp passed
      cases passed
      exact .cons (buildSource_isSource distinct first) (inductionHypothesis isLater)

/-- The plan of a transfer. -/
structure IsPlan (w : Wallet2) (fakeOutputsCount : ℕ) (trIdx : UInt64)
    (plan : MixInputPlan) : Prop where
  isTransfer : w.transfers trIdx = some plan.td
  index : plan.transferIndex = trIdx
  target : plan.targetDecoyCount = targetOutputs w fakeOutputsCount plan.td

theorem planInput_isPlan {w : Wallet2} {draws : Draws} {fakeOutputsCount : ℕ}
    {bareCandidatesEnabled : Bool} {pos : ℕ} {trIdx : UInt64} {batches : List RequestBatch}
    {result : MixInputPlan × List RequestBatch}
    (passed :
      planInput w draws fakeOutputsCount bareCandidatesEnabled pos trIdx batches = .ok result) :
    IsPlan w fakeOutputsCount trIdx result.1 := by
  obtain ⟨td, isTransfer, passed⟩ := found_bind_eq_ok.mp passed
  dsimp only at passed
  split at passed
  next needed =>
      cases isBatch : requestBatch w draws td (targetOutputs w fakeOutputsCount td)
          (0 < targetOutputs w fakeOutputsCount td && !td.isZc && bareCandidatesEnabled) with
      | error failure => simp [isBatch, Except.map] at passed
      | ok batch =>
          rw [isBatch] at passed
          cases passed
          exact ⟨isTransfer, rfl, rfl⟩
  next =>
      cases passed
      exact ⟨isTransfer, rfl, rfl⟩

theorem planInputs_arePlans {w : Wallet2} {draws : ℕ → Draws} {fakeOutputsCount : ℕ}
    {bareCandidatesEnabled : Bool} {pos : ℕ} {selected : List UInt64} {batches : List RequestBatch}
    {result : List MixInputPlan × List RequestBatch}
    (passed :
      planInputs w draws fakeOutputsCount bareCandidatesEnabled pos selected batches = .ok result) :
    List.Forall₂ (IsPlan w fakeOutputsCount) selected result.1 := by
  induction selected generalizing pos batches result with
  | nil =>
      cases passed
      exact .nil
  | cons trIdx rest inductionHypothesis =>
      obtain ⟨⟨plan, next⟩, first, passed⟩ := bind_eq_ok.mp passed
      obtain ⟨⟨plans, last⟩, isLater, passed⟩ := bind_eq_ok.mp passed
      cases passed
      exact .cons (planInput_isPlan first) (inductionHypothesis isLater)

/-- What the sources are for the selected transfers. -/
def AreSources (w : Wallet2) (fakeOutputsCount : ℕ) (useAll : Bool) (selected : List UInt64)
    (sources : List TxSourceEntry) : Prop :=
  List.Forall₂ (fun trIdx src => ∃ td, w.transfers trIdx = some td ∧
    IsSource td (targetOutputs w fakeOutputsCount td) useAll trIdx src) selected sources

theorem areSources {w : Wallet2} {fakeOutputsCount : ℕ} {useAll : Bool} {selected : List UInt64}
    {plans : List MixInputPlan} {sources : List TxSourceEntry}
    (arePlans : List.Forall₂ (IsPlan w fakeOutputsCount) selected plans)
    (built : List.Forall₂ (fun plan src =>
      IsSource plan.td plan.targetDecoyCount useAll plan.transferIndex src) plans
      sources) : AreSources w fakeOutputsCount useAll selected sources := by
  induction arePlans generalizing sources with
  | nil =>
      cases built
      exact .nil
  | cons isPlan _ inductionHypothesis =>
      cases built with
      | cons isSource rest =>
          refine .cons ⟨_, isPlan.isTransfer, ?_⟩ (inductionHypothesis rest)
          rw [← isPlan.target, ← isPlan.index]
          exact isSource

theorem prepareTxSources_areSources {w : Wallet2} {draws : ℕ → Draws}
    {daemon : Request → Option Response} {fakeOutputsCount : ℕ} {useAll : Bool}
    {sources result : List TxSourceEntry} {selected : List UInt64}
    (passed :
      prepareTxSources w draws daemon fakeOutputsCount useAll sources selected = .ok result) :
    ∃ built, result = sources ++ built ∧ AreSources w fakeOutputsCount useAll selected built := by
  obtain ⟨_, -, passed⟩ := bind_eq_ok.mp passed
  obtain ⟨⟨plans, req4⟩, planned, passed⟩ := bind_eq_ok.mp passed
  obtain ⟨response, -, passed⟩ := bind_eq_ok.mp passed
  obtain ⟨indexed, isIndexed, passed⟩ := bind_eq_ok.mp passed
  obtain ⟨built, isBuilt, passed⟩ := bind_eq_ok.mp passed
  cases passed
  obtain ⟨⟨plans', batches⟩, arePlans, planned⟩ := bind_eq_ok.mp planned
  cases planned
  have builtSources := buildSources_areSources (indexBatches_distinct isIndexed) isBuilt
  exact ⟨built, rfl, areSources (planInputs_arePlans arePlans) builtSources⟩

/-! ## The ring of a stake -/

/-- The offsets stand for indexes in strict order, among which the own one is where it is said to be
and nowhere else, and there the ring has the own output. -/
structure IsStakeRing (w : Wallet2) (td : TransferDetails) (stakeOut : TxOutZarcanum)
    (result : StakeRing) : Prop where
  ascending : ∃ indexes : List UInt64,
    relativeOutputOffsetsToAbsolute result.keyOffsets = some (indexes.map .globalIndex) ∧
      indexes.Pairwise (· < ·) ∧
      indexes.length = result.ring.length ∧
      ∀ i : ℕ, indexes[i]? = some td.globalOutputIndex ↔ i = result.secretIndex
  own : result.ring[result.secretIndex]? = some (stakeRef stakeOut)
  size : result.ring.length = if w.isAuditable then 1 else requiredDecoysCount w + 1

theorem secretIndex_eq {globalOutputIndex : UInt64} {i index : ℕ} {entries : List OutEntry}
    (noneOf : ∀ el ∈ entries, el.globalAmountIndex ≠ globalOutputIndex) :
    secretIndex globalOutputIndex i entries index = index := by
  induction entries generalizing i with
  | nil => rfl
  | cons el rest inductionHypothesis =>
      obtain ⟨here, later⟩ := List.forall_mem_cons.mp noneOf
      rw [secretIndex, if_neg here]
      exact inductionHypothesis later

theorem secretIndex_of_ascending {globalOutputIndex : UInt64} {i index k : ℕ}
    {entries : List OutEntry} {el : OutEntry} (ascending : Ascending indexKey entries)
    (isMember : entries[k]? = some el) (isOwn : el.globalAmountIndex = globalOutputIndex) :
    secretIndex globalOutputIndex i entries index = i + k := by
  induction entries generalizing i index k with
  | nil => simp at isMember
  | cons first rest inductionHypothesis =>
      obtain ⟨before, later⟩ := List.pairwise_cons.mp ascending
      rw [secretIndex]
      cases k with
      | zero =>
          cases isMember
          rw [if_pos isOwn]
          refine secretIndex_eq fun other isLater same => ?_
          exact absurd (congrArg UInt64.toNat (isOwn.trans same.symm))
            (ne_of_lt (before other isLater))
      | succ k =>
          rw [List.getElem?_cons_succ] at isMember
          rw [inductionHypothesis later isMember]
          omega

/-- The offsets that are written are read as the indexes. -/
theorem absolute_of_increasing {indexes : List UInt64} {offsets : List (TxoutRefV RefById)}
    (same : offsets = indexes.map .globalIndex) (increasing : indexes.Pairwise (· < ·)) :
    relativeOutputOffsetsToAbsolute (absoluteSortedOutputOffsetsToRelativeInPlace offsets).2 =
      some (indexes.map .globalIndex) := by
  have mixed_ : KeyOffsets.mixed indexes [] = offsets := by
    rw [same, KeyOffsets.mixed, List.map_nil, List.append_nil]
  rw [← same, ← mixed_, KeyOffsets.relativeInPlace_mixed increasing]
  exact KeyOffsets.absolute_relative

theorem requiredDecoysCount_pos (w : Wallet2) : 0 < requiredDecoysCount w := by
  rw [requiredDecoysCount]
  split <;> omega

theorem stakeRing_isStakeRing {w : Wallet2} {td : TransferDetails} {stakeOut : TxOutZarcanum}
    {decoys : List OutEntry} (notAuditable : w.isAuditable = false)
    (areDecoys : AreDecoys td.globalOutputIndex (requiredDecoysCount w) decoys)
    (required : decoys.length = requiredDecoysCount w) :
    let decoyStorage := sortDecoys (decoys ++ [stakeEntry td stakeOut])
    IsStakeRing w td stakeOut
      ⟨(absoluteSortedOutputOffsetsToRelativeInPlace
          (decoyStorage.map fun el => .globalIndex el.globalAmountIndex)).2,
        decoyStorage.map inputRef, secretIndex td.globalOutputIndex 0 decoyStorage 0⟩ := by
  intro decoyStorage
  have distinct : ((decoys ++ [stakeEntry td stakeOut]).map (·.globalAmountIndex)).Nodup := by
    refine ((List.perm_append_singleton (stakeEntry td stakeOut) decoys).map _).nodup_iff.mpr ?_
    refine List.nodup_cons.mpr ⟨fun isDecoy => ?_, areDecoys.distinct⟩
    obtain ⟨oe, isMember, same⟩ := List.mem_map.mp isDecoy
    exact areDecoys.notReal oe isMember same
  have ascending : Ascending indexKey decoyStorage := ascending_sortDecoys distinct
  have sameMembers : decoyStorage.Perm (decoys ++ [stakeEntry td stakeOut]) := sortDecoys_perm _
  obtain ⟨k, isStake⟩ : ∃ k : ℕ, decoyStorage[k]? = some (stakeEntry td stakeOut) :=
    List.mem_iff_getElem?.mp (sameMembers.mem_iff.mpr (by simp))
  have isOwn : (stakeEntry td stakeOut).globalAmountIndex = td.globalOutputIndex := rfl
  have isSecret : secretIndex td.globalOutputIndex 0 decoyStorage 0 = k := by
    rw [secretIndex_of_ascending ascending isStake isOwn, Nat.zero_add]
  have increasing : (decoyStorage.map (·.globalAmountIndex)).Pairwise (· < ·) :=
    List.pairwise_map.mpr (ascending.imp UInt64.lt_iff_toNat_lt.mpr)
  rw [isSecret]
  refine ⟨⟨decoyStorage.map (·.globalAmountIndex), ?_,
    increasing, by rw [List.length_map, List.length_map], fun i => ?_⟩, ?_, ?_⟩
  · exact absolute_of_increasing (by rw [List.map_map]; rfl) increasing
  · rw [List.getElem?_map, Option.map_eq_some_iff]
    constructor
    · rintro ⟨el, isMember, same⟩
      exact ascending.index_eq isMember isStake (congrArg UInt64.toNat (same.trans isOwn.symm))
    · rintro rfl
      exact ⟨_, isStake, isOwn⟩
  · rw [List.getElem?_map, isStake]
    rfl
  · rw [notAuditable, List.length_map, sameMembers.length_eq, List.length_append, required]
    rfl

theorem preparePosZcInputAndRing_isStakeRing {w : Wallet2} {draws : Draws}
    {daemon : Request → Option Response} {td : TransferDetails} {stakeOut : TxOutZarcanum}
    {result : StakeRing}
    (passed : preparePosZcInputAndRing w draws daemon td stakeOut = .ok result) :
    IsStakeRing w td stakeOut result := by
  rw [preparePosZcInputAndRing] at passed
  split at passed
  next isAuditable =>
      cases passed
      refine ⟨⟨[td.globalOutputIndex], rfl, List.pairwise_singleton _ _, rfl, fun i => ?_⟩, rfl,
        (if_pos isAuditable).symm⟩
      cases i <;> simp
  next notAuditable =>
      obtain ⟨heights, -, passed⟩ := found_bind_eq_ok.mp passed
      obtain ⟨blocksBatches, -, passed⟩ := bind_eq_ok.mp passed
      obtain ⟨blocks, -, passed⟩ := found_bind_eq_ok.mp passed
      obtain ⟨-, passed⟩ := require_bind_eq_ok.mp passed
      obtain ⟨required, passed⟩ := require_bind_eq_ok.mp passed
      obtain ⟨-, passed⟩ := require_bind_eq_ok.mp passed
      cases passed
      refine stakeRing_isStakeRing (Bool.eq_false_iff.mpr notAuditable) ?_ required
      exact pickDecoysFromPools_areDecoys _ _ _ (requiredDecoysCount_pos w) _ _

/-- Whatever is drawn and answered, there is an exception, or there are the sources, and
likewise for a stake. -/
theorem rings_wellFormed (w : Wallet2) (draws : ℕ → Draws) (daemon : Request → Option Response) :
    (∀ (fakeOutputsCount : ℕ) (useAll : Bool) (sources : List TxSourceEntry)
      (selected : List UInt64), (∃ failure,
        prepareTxSources w draws daemon fakeOutputsCount useAll sources selected = .error failure) ∨
        ∃ built, prepareTxSources w draws daemon fakeOutputsCount useAll sources selected =
          .ok (sources ++ built) ∧
          AreSources w fakeOutputsCount useAll selected built) ∧
    ∀ (i : ℕ) (td : TransferDetails) (stakeOut : TxOutZarcanum),
      (∃ failure, preparePosZcInputAndRing w (draws i) daemon td stakeOut = .error failure) ∨
        ∃ result, preparePosZcInputAndRing w (draws i) daemon td stakeOut = .ok result ∧
          IsStakeRing w td stakeOut result := by
  constructor
  · intro fakeOutputsCount useAll sources selected
    cases answer : prepareTxSources w draws daemon fakeOutputsCount useAll sources selected with
    | error failure => exact .inl ⟨failure, rfl⟩
    | ok result =>
        obtain ⟨built, rfl, areSources⟩ := prepareTxSources_areSources answer
        exact .inr ⟨built, rfl, areSources⟩
  · intro i td stakeOut
    cases answer : preparePosZcInputAndRing w (draws i) daemon td stakeOut with
    | error failure => exact .inl ⟨failure, rfl⟩
    | ok result => exact .inr ⟨result, rfl, preparePosZcInputAndRing_isStakeRing answer⟩

/-! ## A daemon that repeats itself -/

def ownTransfer : TransferDetails where
  tx :=
    { version := 1
      hardforkId := 0
      vin := []
      extra := []
      vout := [.inl ⟨10, .inl ⟨Blob.filled 32 1, 0⟩⟩] }
  blockHeight := 5
  internalOutputIndex := 0
  globalOutputIndex := 7
  amount := 10
  zcInfo := none
  out := .inl ⟨10, .inl ⟨Blob.filled 32 1, 0⟩⟩
  isOut := rfl
  notGateway := rfl

def smallWallet : Wallet2 where
  transfers i := if i = 3 then some ownTransfer else none
  isAuditable := false
  hf4MinimumMixins := 15
  hf4Height := 100
  lastPowBlockH := 50
  bareOutputCountByAmount _ := none

def noShuffle {α : Type} : Shuffle α := ⟨id, fun _ => .refl _⟩

def fixedDraws : Draws where
  heights := some []
  positions _ := 0
  globalOffsets := noShuffle
  localDecoys := noShuffle
  coinbaseCandidates := noShuffle
  noncbCandidates := noShuffle
  opposite := 0

def decoyAt (index : UInt64) : OutEntry := ⟨index, nullPkey, nullPkey, nullPkey, nullPkey, 0⟩

/-- It has the own output among its decoys, and one of them twice. -/
def repetitiveDaemon (_ : Request) : Option Response :=
  some ⟨[[⟨4, [decoyAt 9, decoyAt 7, decoyAt 9, decoyAt 2]⟩]], .ok⟩

/-- The own output is between two decoys. -/
example :
    ((prepareTxSources smallWallet (fun _ => fixedDraws) repetitiveDaemon 2 true [] [3]).toOption
      |>.map fun sources => sources.map fun src =>
        (src.outputs.length, src.realOutput)) = some [(3, 1)] := by
  decide +kernel

end Zano.Wallet.Rings
