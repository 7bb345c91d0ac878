import Zano.Blockchain.Storage

/-! # The footprints of inputs

What an input does to the stores is fixed by its footprint: a key image, a spent flag and a multisig
output. Adding and purging inputs are folds of total operations over footprints, and this file is
about these folds: purging takes the key images back and leaves the marks unspent, whatever they
were before.
-/

namespace Zano.Blockchain

structure Footprint (Hash KeyImage : Type*) where
  key : Option KeyImage
  flag : Option (Hash × Nat)
  multisig : Option Hash

namespace Stores

variable {Hash KeyImage : Type*} [DecidableEq Hash]

/-! ## Marks as total operations -/

def setFlag (flag : Option (Hash × Nat)) (spent : Bool)
    (s : Stores Hash KeyImage) : Stores Hash KeyImage :=
  match flag with
  | none => s
  | some (txId, n) => s.setTransaction txId
      ((s.transactions txId).map fun tce => { tce with spentFlags := tce.spentFlags.set n spent })

def setSpentHeight (multisig : Option Hash) (height : Nat) (s : Stores Hash KeyImage) :
    Stores Hash KeyImage :=
  match multisig with
  | none => s
  | some id => s.setMultisigOut id
      ((s.multisigOuts id).map fun msoe => { msoe with spentHeight := height % 2 ^ 32 })

/-- The flag, when the output that it belongs to exists. -/
def flagOf (s : Stores Hash KeyImage) (txId : Hash) (n : Nat) : Option (Hash × Nat) :=
  (s.transactions txId).bind fun tce => if n < tce.spentFlags.length then some (txId, n) else none

def directSpend (s : Stores Hash KeyImage) (amount : UInt64) :
    List (TxoutRefV Hash) → Option (Option (Hash × Nat))
  | [.refById txId n] => (s.flagOf txId n).map some
  | [.globalIndex index] =>
      if amount = 0 then some none
      else (s.outputs amount)[index]?.bind fun out => (s.flagOf out.txId out.outNo).map some
  | _ => some none

def footprint (s : Stores Hash KeyImage) : TxinV Hash KeyImage → Option (Footprint Hash KeyImage)
  | .gen => some ⟨none, none, none⟩
  | .toKey amount keyOffsets kImage =>
      (s.directSpend amount keyOffsets).map fun flag => ⟨some kImage, flag, none⟩
  | .zcInput keyOffsets kImage =>
      (s.directSpend 0 keyOffsets).map fun flag => ⟨some kImage, flag, none⟩
  | .multisig id => (s.multisigOuts id).bind fun msoe =>
      (s.flagOf msoe.txId msoe.outNo).map fun flag => ⟨none, some flag, some id⟩

/-! ### How the marks commute -/

variable {s : Stores Hash KeyImage}

theorem setFlag_setFlag (flag : Option (Hash × Nat)) (first second : Bool) :
    setFlag flag second (setFlag flag first s) = setFlag flag second s := by
  cases flag with
  | none => rfl
  | some flag =>
      ext : 1 <;> simp only [setFlag, setTransaction, Function.update_self, Function.update_idem]
      simp [Option.map_map, Function.comp_def, List.set_set]

theorem setFlag_comm (flag other : Option (Hash × Nat)) (spent : Bool) :
    setFlag flag spent (setFlag other spent s) = setFlag other spent (setFlag flag spent s) := by
  cases flag with
  | none => rfl
  | some flag =>
      cases other with
      | none => rfl
      | some other =>
          obtain ⟨txId, n⟩ := flag
          obtain ⟨otherId, m⟩ := other
          by_cases sameTx : txId = otherId
          · subst sameTx
            ext :
              1 <;> simp only [setFlag, setTransaction, Function.update_self, Function.update_idem]
            by_cases same : n = m
            · rw [same]
            · simp [Option.map_map, Function.comp_def, List.set_comm _ _ same]
          · ext : 1 <;> simp only [setFlag, setTransaction]
            rw [Function.update_of_ne sameTx, Function.update_of_ne (Ne.symm sameTx),
              Function.update_comm sameTx]

theorem setSpentHeight_setSpentHeight (multisig : Option Hash) (first second : Nat) :
    setSpentHeight multisig second (setSpentHeight multisig first s) =
      setSpentHeight multisig second s := by
  cases multisig with
  | none => rfl
  | some id =>
      ext :
        1 <;> simp only [setSpentHeight, setMultisigOut, Function.update_self, Function.update_idem]
      simp [Option.map_map, Function.comp_def]

theorem setSpentHeight_comm (multisig other : Option Hash) (height : Nat) :
    setSpentHeight multisig height (setSpentHeight other height s) =
      setSpentHeight other height (setSpentHeight multisig height s) := by
  cases multisig with
  | none => rfl
  | some id =>
      cases other with
      | none => rfl
      | some otherId =>
          by_cases same : id = otherId
          · rw [same]
          · ext : 1 <;> simp only [setSpentHeight, setMultisigOut]
            rw [Function.update_of_ne same, Function.update_of_ne (Ne.symm same),
              Function.update_comm same]

theorem setFlag_setSpentHeight (flag : Option (Hash × Nat)) (multisig : Option Hash) (spent : Bool)
    (height : Nat) : setFlag flag spent (setSpentHeight multisig height s) =
      setSpentHeight multisig height (setFlag flag spent s) := by
  cases flag <;> cases multisig <;> rfl

end Stores

/-! ## Footprints as operations -/

namespace Footprint

variable {Hash KeyImage : Type*} [DecidableEq Hash] [DecidableEq KeyImage]

def setKey (f : Footprint Hash KeyImage) (height : Option Nat) (s : Stores Hash KeyImage) :
    Stores Hash KeyImage :=
  match f.key with
  | none => s
  | some kImage => s.setSpentKey kImage height

/-- What adding an input does. -/
def apply (f : Footprint Hash KeyImage) (blHeight : Nat)
    (s : Stores Hash KeyImage) : Stores Hash KeyImage :=
  Stores.setFlag f.flag (f.multisig.isNone || decide (blHeight ≠ 0))
    (Stores.setSpentHeight f.multisig blHeight (f.setKey (some blHeight) s))

omit [DecidableEq KeyImage] in
/-- The marks set to unspent. -/
def unmark (f : Footprint Hash KeyImage) (s : Stores Hash KeyImage) : Stores Hash KeyImage :=
  Stores.setFlag f.flag false (Stores.setSpentHeight f.multisig 0 s)

/-- What purging an input does. -/
def revert (f : Footprint Hash KeyImage) (s : Stores Hash KeyImage) : Stores Hash KeyImage :=
  f.unmark (f.setKey none s)

variable {s : Stores Hash KeyImage}

omit [DecidableEq KeyImage] in
theorem unmark_unmark (f : Footprint Hash KeyImage) : f.unmark (f.unmark s) = f.unmark s := by
  simp only [unmark, ← Stores.setFlag_setSpentHeight, Stores.setFlag_setFlag,
    Stores.setSpentHeight_setSpentHeight]

omit [DecidableEq KeyImage] in
theorem unmark_comm (f g : Footprint Hash KeyImage) :
    f.unmark (g.unmark s) = g.unmark (f.unmark s) := by
  simp only [unmark]
  rw [← Stores.setFlag_setSpentHeight, Stores.setFlag_comm, Stores.setSpentHeight_comm,
    Stores.setFlag_setSpentHeight f.flag, Stores.setFlag_setSpentHeight g.flag]

theorem setKey_unmark (f g : Footprint Hash KeyImage) (height : Option Nat) :
    f.setKey height (g.unmark s) = g.unmark (f.setKey height s) := by
  obtain ⟨key, _, _⟩ := f
  obtain ⟨_, flag, multisig⟩ := g
  cases key <;> cases flag <;> cases multisig <;> rfl

omit [DecidableEq Hash] in
theorem setKey_comm (f g : Footprint Hash KeyImage) :
    f.setKey none (g.setKey none s) = g.setKey none (f.setKey none s) := by
  obtain ⟨key, _, _⟩ := f
  obtain ⟨other, _, _⟩ := g
  cases key with
  | none => rfl
  | some kImage =>
      cases other with
      | none => rfl
      | some otherImage =>
          by_cases same : kImage = otherImage
          · subst same
            rfl
          · ext : 1 <;> simp only [setKey, Stores.setSpentKey]
            exact (Function.update_comm same _ _ _).symm

theorem revert_unmark (f g : Footprint Hash KeyImage) :
    f.revert (g.unmark s) = g.unmark (f.revert s) := by
  rw [revert, setKey_unmark, unmark_comm, revert]

theorem revert_comm (f g : Footprint Hash KeyImage) :
    f.revert (g.revert s) = g.revert (f.revert s) := by
  rw [revert.eq_1 g, revert_unmark, revert, setKey_comm, revert, revert.eq_1 f, setKey_unmark,
    unmark_comm]

/-- Purging an input right after adding it takes the key image back and leaves its marks unspent. -/
theorem revert_apply (f : Footprint Hash KeyImage) (blHeight : Nat)
    (fresh : ∀ kImage, f.key = some kImage → s.spentKeys kImage = none) :
    f.revert (f.apply blHeight s) = f.unmark s := by
  have keyed : f.setKey none (f.apply blHeight s) =
      Stores.setFlag f.flag (f.multisig.isNone || decide (blHeight ≠ 0))
        (Stores.setSpentHeight f.multisig blHeight s) := by
    obtain ⟨key, flag, multisig⟩ := f
    cases key with
    | none => rfl
    | some kImage =>
        have free := fresh kImage rfl
        cases flag <;> cases multisig <;> ext : 1 <;>
          simp [setKey, apply, Stores.setFlag, Stores.setSpentHeight, Stores.setSpentKey,
            Stores.setTransaction, Stores.setMultisigOut, ← free]
  rw [revert, keyed, unmark, ← Stores.setFlag_setSpentHeight, Stores.setFlag_setFlag,
    Stores.setSpentHeight_setSpentHeight, unmark]

/-! ### Lists of footprints -/

variable {fs : List (Footprint Hash KeyImage)}

theorem foldl_revert (f : Footprint Hash KeyImage) (fs : List (Footprint Hash KeyImage)) :
    fs.foldl (fun s g => g.revert s) (f.revert s) =
      f.revert (fs.foldl (fun s g => g.revert s) s) := by
  induction fs generalizing s with
  | nil => rfl
  | cons g fs inductionHypothesis =>
      rw [List.foldl_cons, List.foldl_cons, revert_comm, inductionHypothesis]

theorem revert_foldl_unmark (f : Footprint Hash KeyImage) (fs : List (Footprint Hash KeyImage)) :
    f.revert (fs.foldl (fun s g => g.unmark s) s) =
      fs.foldl (fun s g => g.unmark s) (f.revert s) := by
  induction fs generalizing s with
  | nil => rfl
  | cons g fs inductionHypothesis =>
      rw [List.foldl_cons, List.foldl_cons, inductionHypothesis, revert_unmark]

omit [DecidableEq KeyImage] in
theorem foldl_unmark_comm (f : Footprint Hash KeyImage) (fs : List (Footprint Hash KeyImage)) :
    fs.foldl (fun s g => g.unmark s) (f.unmark s) =
      f.unmark (fs.foldl (fun s g => g.unmark s) s) := by
  induction fs generalizing s with
  | nil => rfl
  | cons g fs inductionHypothesis =>
      rw [List.foldl_cons, List.foldl_cons, unmark_comm, inductionHypothesis]

/-- The key images of the footprints are new to the stores and different from each other. -/
def FreshKeys (fs : List (Footprint Hash KeyImage)) (s : Stores Hash KeyImage) : Prop :=
  (fs.filterMap (·.key)).Nodup ∧ ∀ kImage ∈ fs.filterMap (·.key), s.spentKeys kImage = none

theorem spentKeys_apply (f : Footprint Hash KeyImage) (blHeight : Nat) {kImage : KeyImage}
    (other : f.key ≠ some kImage) : (f.apply blHeight s).spentKeys kImage = s.spentKeys kImage := by
  obtain ⟨key, flag, multisig⟩ := f
  cases key with
  | none => cases flag <;> cases multisig <;> rfl
  | some own =>
      have different : kImage ≠ own := fun same => other (congrArg some same.symm)
      cases flag <;> cases multisig <;> exact Function.update_of_ne different _ _

theorem spentKeys_apply_self {f : Footprint Hash KeyImage} {blHeight : Nat} {kImage : KeyImage}
    (own : f.key = some kImage) : (f.apply blHeight s).spentKeys kImage = some blHeight := by
  obtain ⟨_, flag, multisig⟩ := f
  cases own
  cases flag <;> cases multisig <;> exact Function.update_self ..

theorem FreshKeys.tail {f : Footprint Hash KeyImage} {blHeight : Nat}
    (fresh : FreshKeys (f :: fs) s) :
    FreshKeys fs (f.apply blHeight s) := by
  cases key : f.key with
  | none =>
      rw [FreshKeys, List.filterMap_cons_none key] at fresh
      refine ⟨fresh.1, fun kImage inside => ?_⟩
      rw [spentKeys_apply f blHeight (by simp [key])]
      exact fresh.2 kImage inside
  | some own =>
      rw [FreshKeys, List.filterMap_cons_some key, List.nodup_cons] at fresh
      refine ⟨fresh.1.2, fun kImage inside => ?_⟩
      have different : f.key ≠ some kImage := by
        rw [key]
        intro same
        exact fresh.1.1 (Option.some.inj same ▸ inside)
      rw [spentKeys_apply f blHeight different]
      exact fresh.2 kImage (List.mem_cons_of_mem _ inside)

omit [DecidableEq Hash] [DecidableEq KeyImage] in
theorem FreshKeys.head {f : Footprint Hash KeyImage} (fresh : FreshKeys (f :: fs) s) :
    ∀ kImage, f.key = some kImage → s.spentKeys kImage = none := by
  intro kImage key
  exact fresh.2 kImage (by rw [List.filterMap_cons_some key]; exact List.mem_cons_self)

/-- The induction is on the inputs: the last one added is purged first, and its
leftover moves out. -/
theorem foldl_revert_apply {blHeight : Nat} (fresh : FreshKeys fs s) :
    fs.foldl (fun s f => f.revert s) (fs.foldl (fun s f => f.apply blHeight s) s) =
      fs.foldl (fun s f => f.unmark s) s := by
  induction fs generalizing s with
  | nil => rfl
  | cons f fs inductionHypothesis =>
      rw [List.foldl_cons, List.foldl_cons, List.foldl_cons, foldl_revert,
        inductionHypothesis fresh.tail, revert_foldl_unmark, revert_apply f blHeight fresh.head]

end Footprint

end Zano.Blockchain
