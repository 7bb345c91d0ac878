import Mathlib

/-! # Multisig outputs spent in the pool

A wallet marks a multisig output as spent when a transaction of the pool spends it, and takes the
mark back when that transaction is gone. Three containers decide about it: the transactions of the
pool that the wallet has seen and takes an interest in, the multisig outputs that the present scan
came across, and those of the scan before. A transaction that was seen before is passed over, so the
present scan does not come across the outputs that it spends.

What a transaction spends is a function of its id here. Whether it has expired, whether it moves
coins of the wallet or is encrypted for it, and where handling it throws depends on the rest of the
wallet, so the pool that a scan is given brings the answers along.
-/

namespace Zano.Wallet.MultisigSpends

variable {Hash MultisigId : Type*}

/-- The part of `transfer_details_base` that a spend changes: the flag and the height, which is zero
as long as the spend is not confirmed. -/
structure MultisigTransfer where
  spent : Bool
  spentHeight : Nat
  deriving DecidableEq, Repr

structure WalletState (Hash MultisigId : Type*) where
  topHeight : Nat
  multisigTransfers : MultisigId → Option MultisigTransfer
  unconfirmedInTransfers : List Hash
  unconfirmedMultisigTransfers : List MultisigId

/-- `throwsAfter` counts the multisig inputs that are handled before the handler throws; one more
than there are stands for the end, when the transaction is noted already. -/
structure PoolTx (Hash : Type*) where
  tx : Hash
  isExpired : Bool
  concernsWallet : Bool
  throwsAfter : Option Nat
  deriving DecidableEq, Repr

/-- A transaction of a block with its multisig outputs that are the wallet's. -/
structure BlockTx (Hash MultisigId : Type*) where
  tx : Hash
  multisigOuts : List MultisigId
  deriving DecidableEq, Repr

/-- A scan at work: the wallet and `unconfirmed_multisig_transfers_from_tx_pool`. -/
structure Scan (Hash MultisigId : Type*) where
  wallet : WalletState Hash MultisigId
  fromTxPool : List MultisigId

variable [DecidableEq Hash] [DecidableEq MultisigId]

/-! ## The scan -/

/-- One multisig input in `handle_unconfirmed_tx`; the flag is `new_multisig_spend_detected`. -/
def handleMultisigInput (s : Scan Hash MultisigId) (detected : Bool) (id : MultisigId) :
    Scan Hash MultisigId × Bool :=
  match s.wallet.multisigTransfers id with
  | none => (s, detected)
  | some _ =>
      let fromTxPool := s.fromTxPool.insert id
      if id ∈ s.wallet.unconfirmedMultisigTransfers then
        ({ s with fromTxPool := fromTxPool }, detected)
      else
        (⟨{ s.wallet with
          multisigTransfers := Function.update s.wallet.multisigTransfers id (some ⟨true, 0⟩) },
            fromTxPool⟩, true)

def handleMultisigInputs :
    List MultisigId → Scan Hash MultisigId → Bool → Scan Hash MultisigId × Bool
  | [], s, detected => (s, detected)
  | id :: rest, s, detected =>
      let (next, detected) := handleMultisigInput s detected id
      handleMultisigInputs rest next detected

def noteTransaction (s : Scan Hash MultisigId) (tx : Hash) : Scan Hash MultisigId :=
  { s with
    wallet :=
      { s.wallet with unconfirmedInTransfers := s.wallet.unconfirmedInTransfers.insert tx } }

/-- `handle_unconfirmed_tx`, with `false` when it throws. -/
def handleUnconfirmedTx (multisigInputs : Hash → List MultisigId) (s : Scan Hash MultisigId)
    (e : PoolTx Hash) :
    Bool × Scan Hash MultisigId :=
  let (handled, detected) := handleMultisigInputs (multisigInputs e.tx) s false
  let noted :=
    if !e.isExpired && (detected || e.concernsWallet) then noteTransaction handled e.tx else handled
  match e.throwsAfter with
  | none => (true, noted)
  | some count =>
      if (multisigInputs e.tx).length < count then (false, noted)
      else (false, (handleMultisigInputs ((multisigInputs e.tx).take count) s false).1)

/-- The loop over the pool. `seen` is what `m_unconfirmed_in_transfers` held before the scan. -/
def scanTxs (multisigInputs : Hash → List MultisigId) (seen : List Hash) :
    List (PoolTx Hash) → Scan Hash MultisigId → Bool × Scan Hash MultisigId
  | [], s => (true, s)
  | e :: rest, s =>
      if e.tx ∈ seen then scanTxs multisigInputs seen rest (noteTransaction s e.tx)
      else
        match handleUnconfirmedTx multisigInputs s e with
        | (true, next) => scanTxs multisigInputs seen rest next
        | (false, next) => (false, next)

/-- An output whose spend disappeared from the pool: the flag goes unless a
block holds the spend. -/
def clearSpent (transfers : MultisigId → Option MultisigTransfer) (id : MultisigId) :
    MultisigId → Option MultisigTransfer :=
  match transfers id with
  | none => transfers
  | some tdb =>
      if tdb.spent ∧ tdb.spentHeight = 0 then
        Function.update transfers id (some { tdb with spent := false })
      else transfers

/-- What `scan_tx_pool` does after the loop. -/
def compareUnconfirmed (multisigInputs : Hash → List MultisigId) (s : Scan Hash MultisigId) :
    WalletState Hash MultisigId :=
  let unconfirmedIn := s.wallet.unconfirmedInTransfers.flatMap multisigInputs
  let disappeared := s.wallet.unconfirmedMultisigTransfers.filter fun id =>
    !(s.fromTxPool.contains id || unconfirmedIn.contains id)
  { s.wallet with
    multisigTransfers := disappeared.foldl clearSpent s.wallet.multisigTransfers
    unconfirmedMultisigTransfers := s.fromTxPool }

/-- `scan_tx_pool`, with `false` when it throws. -/
def scanTxPool (multisigInputs : Hash → List MultisigId) (w : WalletState Hash MultisigId)
    (pool : List (PoolTx Hash)) :
    Bool × WalletState Hash MultisigId :=
  match scanTxs multisigInputs w.unconfirmedInTransfers pool
    ⟨{ w with unconfirmedInTransfers := [] }, []⟩ with
  | (true, s) => (true, compareUnconfirmed multisigInputs s)
  | (false, s) => (false, s.wallet)

/-! ## Blocks -/

def spendInBlock (height : Nat) (transfers : MultisigId → Option MultisigTransfer)
    (id : MultisigId) :
    MultisigId → Option MultisigTransfer :=
  match transfers id with
  | none => transfers
  | some _ => Function.update transfers id (some ⟨true, height⟩)

/-- An entry that exists already keeps its flag and its height. -/
def receiveInBlock (transfers : MultisigId → Option MultisigTransfer) (id : MultisigId) :
    MultisigId → Option MultisigTransfer :=
  match transfers id with
  | none => Function.update transfers id (some ⟨false, 0⟩)
  | some _ => transfers

/-- `process_new_transaction`, as far as multisig outputs go. -/
def processNewTransaction (multisigInputs : Hash → List MultisigId) (height : Nat)
    (transfers : MultisigId → Option MultisigTransfer) (t : BlockTx Hash MultisigId) :
    MultisigId → Option MultisigTransfer :=
  t.multisigOuts.foldl receiveInBlock ((multisigInputs t.tx).foldl (spendInBlock height) transfers)

/-- A block on top of the chain. The genesis block is below. -/
def processNewBlock (multisigInputs : Hash → List MultisigId) (w : WalletState Hash MultisigId)
    (txs : List (BlockTx Hash MultisigId)) : WalletState Hash MultisigId :=
  let height := w.topHeight + 1
  { w with
    topHeight := height
    multisigTransfers :=
      txs.foldl (processNewTransaction multisigInputs height) w.multisigTransfers }

inductive Request (Hash MultisigId : Type*) where
  | newBlock (txs : List (BlockTx Hash MultisigId))
  | scanTxPool (pool : List (PoolTx Hash))
  deriving DecidableEq, Repr

def step (multisigInputs : Hash → List MultisigId) (w : WalletState Hash MultisigId) :
    Request Hash MultisigId → WalletState Hash MultisigId
  | .newBlock txs => processNewBlock multisigInputs w txs
  | .scanTxPool pool => (scanTxPool multisigInputs w pool).2

def newWallet : WalletState Hash MultisigId := ⟨0, fun _ => none, [], []⟩

/-- The wallet after a sequence of blocks and scans. -/
def after (multisigInputs : Hash → List MultisigId) (requests : List (Request Hash MultisigId)) :
    WalletState Hash MultisigId :=
  requests.foldl (step multisigInputs) newWallet

def SpentInBlocks (multisigInputs : Hash → List MultisigId)
    (requests : List (Request Hash MultisigId)) (id : MultisigId) : Prop :=
  ∃ txs, .newBlock txs ∈ requests ∧ ∃ t ∈ txs, id ∈ multisigInputs t.tx

def SpentInPool (multisigInputs : Hash → List MultisigId) (pool : List (PoolTx Hash))
    (id : MultisigId) : Prop :=
  ∃ e ∈ pool, id ∈ multisigInputs e.tx

instance (multisigInputs : Hash → List MultisigId) (pool : List (PoolTx Hash)) (id : MultisigId) :
    Decidable (SpentInPool multisigInputs pool id) :=
  inferInstanceAs (Decidable (∃ e ∈ pool, id ∈ multisigInputs e.tx))

/-! ## What a scan marks -/

/-- Handling inputs that spend these outputs. An output that the scan before came across
is left as it is. -/
structure Marks (ids : List MultisigId) (s next : Scan Hash MultisigId) : Prop where
  transfers : ∀ id, next.wallet.multisigTransfers id =
    if id ∈ ids ∧ id ∉ s.wallet.unconfirmedMultisigTransfers then
      (s.wallet.multisigTransfers id).map fun _ => ⟨true, 0⟩
    else s.wallet.multisigTransfers id
  fromTxPool : ∀ id, id ∈ next.fromTxPool ↔
    id ∈ s.fromTxPool ∨ id ∈ ids ∧ (s.wallet.multisigTransfers id).isSome
  scanBefore : next.wallet.unconfirmedMultisigTransfers = s.wallet.unconfirmedMultisigTransfers

variable {multisigInputs : Hash → List MultisigId} {s next final : Scan Hash MultisigId}

omit [DecidableEq Hash] in
theorem Marks.nil (s : Scan Hash MultisigId) : Marks [] s s := by
  refine ⟨fun id => ?_, fun id => ?_, rfl⟩ <;> simp

omit [DecidableEq Hash] in
theorem Marks.known {ids : List MultisigId} (marks : Marks ids s next) (id : MultisigId) :
    (next.wallet.multisigTransfers id).isSome = (s.wallet.multisigTransfers id).isSome := by
  rw [marks.transfers id]
  split
  · exact Option.isSome_map
  · rfl

omit [DecidableEq Hash] in
theorem Marks.append {first second : List MultisigId} (marksFirst : Marks first s next)
    (marksSecond : Marks second next final) : Marks (first ++ second) s final where
  transfers id := by
    rw [marksSecond.transfers id, marksFirst.scanBefore, marksFirst.transfers id]
    cases s.wallet.multisigTransfers id <;> grind
  fromTxPool id := by
    rw [marksSecond.fromTxPool id, marksFirst.known id, marksFirst.fromTxPool id, List.mem_append]
    tauto
  scanBefore := marksSecond.scanBefore.trans marksFirst.scanBefore

omit [DecidableEq Hash] in
theorem marks_handleMultisigInput (s : Scan Hash MultisigId) (detected : Bool) (id : MultisigId) :
    Marks [id] s (handleMultisigInput s detected id).1 := by
  unfold handleMultisigInput
  cases known : s.wallet.multisigTransfers id with
  | none =>
      refine ⟨fun other => ?_, fun other => ?_, rfl⟩
      · by_cases same : other = id
        · subst same
          rw [known]
          split <;> rfl
        · simp [same]
      · by_cases same : other = id
        · subst same
          simp [known]
        · simp [same]
  | some tdb =>
      by_cases before : id ∈ s.wallet.unconfirmedMultisigTransfers
      · simp only [if_pos before]
        refine ⟨fun other => ?_, fun other => ?_, rfl⟩
        · by_cases same : other = id
          · subst same
            simp [before]
          · simp [same]
        · by_cases same : other = id
          · subst same
            simp [known]
          · simp [same]
      · simp only [if_neg before]
        refine ⟨fun other => ?_, fun other => ?_, rfl⟩
        · by_cases same : other = id
          · subst same
            simp [before, known]
          · simp [same]
        · by_cases same : other = id
          · subst same
            simp [known]
          · simp [same]

omit [DecidableEq Hash] in
theorem marks_handleMultisigInputs (ids : List MultisigId) (s : Scan Hash MultisigId)
    (detected : Bool) :
    Marks ids s (handleMultisigInputs ids s detected).1 := by
  induction ids generalizing s detected with
  | nil => exact Marks.nil s
  | cons id rest inductionHypothesis =>
      exact (marks_handleMultisigInput s detected id).append (inductionHypothesis _ _)

theorem marks_noteTransaction {ids : List MultisigId} (marks : Marks ids s next) (tx : Hash) :
    Marks ids s (noteTransaction next tx) :=
  ⟨marks.transfers, marks.fromTxPool, marks.scanBefore⟩

/-- A handler that throws has marked what a part of the inputs spends. -/
theorem marks_handleUnconfirmedTx (multisigInputs : Hash → List MultisigId)
    (s : Scan Hash MultisigId) (e : PoolTx Hash) :
    ∃ ids, Marks ids s (handleUnconfirmedTx multisigInputs s e).2 ∧
      ((handleUnconfirmedTx multisigInputs s e).1 = true → ids = multisigInputs e.tx) := by
  have handled := marks_handleMultisigInputs (multisigInputs e.tx) s false
  unfold handleUnconfirmedTx
  have noted : Marks (multisigInputs e.tx) s
      (if !e.isExpired &&
        ((handleMultisigInputs (multisigInputs e.tx) s false).2 || e.concernsWallet) then
        noteTransaction (handleMultisigInputs (multisigInputs e.tx) s false).1 e.tx
      else (handleMultisigInputs (multisigInputs e.tx) s false).1) := by
    split
    · exact marks_noteTransaction handled e.tx
    · exact handled
  cases e.throwsAfter with
  | none => exact ⟨multisigInputs e.tx, noted, fun _ => rfl⟩
  | some count =>
      dsimp only
      split
      · exact ⟨multisigInputs e.tx, noted, fun _ => rfl⟩
      · refine ⟨_, marks_handleMultisigInputs ((multisigInputs e.tx).take count) s false, ?_⟩
        intro completed
        cases completed

/-- The outputs that the loop comes across: what the transactions spend that
were not seen before. -/
def comeAcross (multisigInputs : Hash → List MultisigId) (seen : List Hash)
    (pool : List (PoolTx Hash)) :
    List MultisigId :=
  (pool.filter (·.tx ∉ seen)).flatMap fun e => multisigInputs e.tx

theorem marks_scanTxs (multisigInputs : Hash → List MultisigId) (seen : List Hash)
    (pool : List (PoolTx Hash)) (s : Scan Hash MultisigId) :
    ∃ ids, Marks ids s (scanTxs multisigInputs seen pool s).2 ∧
      ((scanTxs multisigInputs seen pool s).1 = true →
        ids = comeAcross multisigInputs seen pool) := by
  induction pool generalizing s with
  | nil => exact ⟨[], Marks.nil s, fun _ => rfl⟩
  | cons e rest inductionHypothesis =>
      rw [scanTxs]
      by_cases before : e.tx ∈ seen
      · rw [if_pos before]
        obtain ⟨ids, marks, all⟩ := inductionHypothesis (noteTransaction s e.tx)
        refine ⟨ids, ⟨marks.transfers, marks.fromTxPool, marks.scanBefore⟩, fun completed => ?_⟩
        rw [all completed, comeAcross, comeAcross, List.filter_cons_of_neg (by simpa using before)]
      · rw [if_neg before]
        obtain ⟨ids, marks, all⟩ := marks_handleUnconfirmedTx multisigInputs s e
        rcases outcome : handleUnconfirmedTx multisigInputs s e with ⟨completed, next⟩
        rw [outcome] at marks all
        cases completed with
        | false => exact ⟨ids, marks, fun completed => nomatch completed⟩
        | true =>
            obtain ⟨others, marksOthers, allOthers⟩ := inductionHypothesis next
            refine ⟨ids ++ others, marks.append marksOthers, fun completed => ?_⟩
            rw [all rfl, allOthers completed, comeAcross, comeAcross,
              List.filter_cons_of_pos (by simpa using before), List.flatMap_cons]

/-! ## What a scan notes -/

omit [DecidableEq Hash] in
theorem handleMultisigInputs_noted (ids : List MultisigId) (s : Scan Hash MultisigId)
    (detected : Bool) :
    (handleMultisigInputs ids s detected).1.wallet.unconfirmedInTransfers =
      s.wallet.unconfirmedInTransfers := by
  induction ids generalizing s detected with
  | nil => rfl
  | cons id rest inductionHypothesis =>
      rw [handleMultisigInputs, inductionHypothesis]
      unfold handleMultisigInput
      split
      · rfl
      · dsimp only
        split <;> rfl

omit [DecidableEq MultisigId] in
theorem mem_noteTransaction (tx other : Hash) :
    other ∈ (noteTransaction s tx).wallet.unconfirmedInTransfers ↔
      other = tx ∨ other ∈ s.wallet.unconfirmedInTransfers := List.mem_insert_iff

theorem handleUnconfirmedTx_noted (multisigInputs : Hash → List MultisigId)
    (s : Scan Hash MultisigId) (e : PoolTx Hash) (other : Hash) :
    (other ∈ s.wallet.unconfirmedInTransfers →
      other ∈ (handleUnconfirmedTx multisigInputs s e).2.wallet.unconfirmedInTransfers) ∧
    (other ∈ (handleUnconfirmedTx multisigInputs s e).2.wallet.unconfirmedInTransfers →
      other = e.tx ∨ other ∈ s.wallet.unconfirmedInTransfers) := by
  have same : ∀ ids, (handleMultisigInputs ids s false).1.wallet.unconfirmedInTransfers =
      s.wallet.unconfirmedInTransfers := fun ids => handleMultisigInputs_noted ids s false
  have noted :=
    mem_noteTransaction (s := (handleMultisigInputs (multisigInputs e.tx) s false).1) e.tx other
  rw [same] at noted
  unfold handleUnconfirmedTx
  dsimp only
  constructor
  · intro before
    split
    · split
      · exact noted.mpr (Or.inr before)
      · rwa [same]
    · split
      · split
        · exact noted.mpr (Or.inr before)
        · rwa [same]
      · rwa [same]
  · intro there
    split at there
    · split at there
      · exact noted.mp there
      · exact Or.inr (by rwa [same] at there)
    · split at there
      · split at there
        · exact noted.mp there
        · exact Or.inr (by rwa [same] at there)
      · exact Or.inr (by rwa [same] at there)

/-- After the loop the noted transactions are of the pool, those among them that
were noted before. -/
theorem scanTxs_noted {seen : List Hash} {pool : List (PoolTx Hash)}
    (completed : scanTxs multisigInputs seen pool s = (true, final)) (other : Hash) :
    (other ∈ s.wallet.unconfirmedInTransfers ∨ (∃ e ∈ pool, e.tx = other) ∧ other ∈ seen →
      other ∈ final.wallet.unconfirmedInTransfers) ∧
    (other ∈ final.wallet.unconfirmedInTransfers →
      other ∈ s.wallet.unconfirmedInTransfers ∨ ∃ e ∈ pool, e.tx = other) := by
  induction pool generalizing s with
  | nil =>
      cases completed
      simp
  | cons e rest inductionHypothesis =>
      rw [scanTxs] at completed
      by_cases before : e.tx ∈ seen
      · rw [if_pos before] at completed
        obtain ⟨kept, only⟩ := inductionHypothesis completed
        rw [mem_noteTransaction] at kept only
        grind
      · rw [if_neg before] at completed
        have step := handleUnconfirmedTx_noted multisigInputs s e other
        rcases outcome : handleUnconfirmedTx multisigInputs s e with ⟨handled, next⟩
        rw [outcome] at step completed
        cases handled with
        | false => cases completed
        | true =>
            obtain ⟨kept, only⟩ := inductionHypothesis completed
            grind

/-! ## The comparison after the loop -/

def cleared (tdb : MultisigTransfer) : MultisigTransfer :=
  if tdb.spentHeight = 0 then { tdb with spent := false } else tdb

theorem cleared_cleared (tdb : MultisigTransfer) : cleared (cleared tdb) = cleared tdb := by
  unfold cleared
  split <;> simp

theorem clearSpent_apply (transfers : MultisigId → Option MultisigTransfer)
    (id other : MultisigId) :
    clearSpent transfers id other = if other = id then (transfers id).map cleared
      else transfers other := by
  unfold clearSpent
  by_cases same : other = id
  · subst same
    rw [if_pos rfl]
    rcases known : transfers other with _ | ⟨spent, height⟩
    · simp [known]
    · cases spent <;> by_cases unconfirmed : height = 0 <;> simp [unconfirmed, known, cleared]
  · rw [if_neg same]
    rcases transfers id with _ | ⟨spent, height⟩
    · rfl
    · dsimp only
      split
      · rw [Function.update_of_ne same]
      · rfl

theorem foldl_clearSpent (ids : List MultisigId) (transfers : MultisigId → Option MultisigTransfer)
    (other : MultisigId) :
    ids.foldl clearSpent transfers other =
      if other ∈ ids then (transfers other).map cleared else transfers other := by
  induction ids generalizing transfers with
  | nil => rfl
  | cons id rest inductionHypothesis =>
      rw [List.foldl_cons, inductionHypothesis, clearSpent_apply]
      by_cases same : other = id
      · subst same
        simp only [if_true, List.mem_cons, true_or, Option.map_map]
        split
        · congr 1
          funext tdb
          exact cleared_cleared tdb
        · rfl
      · rw [if_neg same]
        simp only [List.mem_cons, same, false_or]

/-! ## The marks after a scan -/

variable {w : WalletState Hash MultisigId} {pool : List (PoolTx Hash)}
  {requests : List (Request Hash MultisigId)} {id : MultisigId}

omit [DecidableEq MultisigId] in
theorem mem_comeAcross {seen : List Hash} :
    id ∈ comeAcross multisigInputs seen pool ↔
      ∃ e ∈ pool, e.tx ∉ seen ∧ id ∈ multisigInputs e.tx := by
  simp only [comeAcross, List.mem_flatMap, List.mem_filter, decide_eq_true_eq, and_assoc]

/-- A completed scan, by its loop. -/
theorem scanTxPool_eq (completed : (scanTxPool multisigInputs w pool).1 = true) :
    ∃ final, (scanTxPool multisigInputs w pool).2 = compareUnconfirmed multisigInputs final ∧
      Marks (comeAcross multisigInputs w.unconfirmedInTransfers pool)
        ⟨{ w with unconfirmedInTransfers := [] }, []⟩ final ∧
      ∀ tx, ((∃ e ∈ pool, e.tx = tx) ∧ tx ∈ w.unconfirmedInTransfers →
        tx ∈ final.wallet.unconfirmedInTransfers) ∧
        (tx ∈ final.wallet.unconfirmedInTransfers → ∃ e ∈ pool, e.tx = tx) := by
  obtain ⟨ids, marks, all⟩ := marks_scanTxs multisigInputs w.unconfirmedInTransfers pool
    ⟨{ w with unconfirmedInTransfers := [] }, []⟩
  unfold scanTxPool at completed ⊢
  rcases outcome : scanTxs multisigInputs w.unconfirmedInTransfers pool
      ⟨{ w with unconfirmedInTransfers := [] }, []⟩
    with ⟨loopCompleted, final⟩
  rw [outcome] at completed marks all
  cases loopCompleted with
  | false => cases completed
  | true =>
      obtain rfl := all rfl
      refine ⟨final, rfl, marks, fun tx => ?_⟩
      obtain ⟨kept, only⟩ := scanTxs_noted outcome tx
      refine ⟨fun there => kept (Or.inr there), fun there => ?_⟩
      exact (only there).resolve_left List.not_mem_nil

/-- An output that the scan comes across is marked, unless the scan before came across it too. One
that the scan does not come across is cleared if the scan before did and no transaction that was
seen earlier spends it. -/
theorem scanTxPool_transfers (completed : (scanTxPool multisigInputs w pool).1 = true)
    (id : MultisigId) :
    (scanTxPool multisigInputs w pool).2.multisigTransfers id =
      if id ∈ comeAcross multisigInputs w.unconfirmedInTransfers pool then
        if id ∈ w.unconfirmedMultisigTransfers then w.multisigTransfers id
        else (w.multisigTransfers id).map fun _ => ⟨true, 0⟩
      else if id ∈ w.unconfirmedMultisigTransfers ∧ ¬ SpentInPool multisigInputs pool id then
        (w.multisigTransfers id).map cleared
      else w.multisigTransfers id := by
  obtain ⟨final, same, marks, noted⟩ := scanTxPool_eq completed
  have transfers := marks.transfers id
  have fromTxPool := marks.fromTxPool id
  dsimp only at transfers fromTxPool
  rw [same, compareUnconfirmed]
  dsimp only
  rw [foldl_clearSpent, transfers]
  simp only [List.mem_filter, marks.scanBefore, fromTxPool, List.not_mem_nil, false_or,
    Bool.not_eq_true', Bool.or_eq_false_iff, List.contains_eq_mem, decide_eq_false_iff_not]
  by_cases across : id ∈ comeAcross multisigInputs w.unconfirmedInTransfers pool
  · simp only [across, true_and, if_true]
    cases w.multisigTransfers id with
    | none => simp
    | some tdb => by_cases before : id ∈ w.unconfirmedMultisigTransfers <;> simp [before]
  · have stillSpent : id ∈ final.wallet.unconfirmedInTransfers.flatMap multisigInputs ↔
        SpentInPool multisigInputs pool id := by
      rw [List.mem_flatMap]
      constructor
      · rintro ⟨tx, there, spends⟩
        obtain ⟨e, inside, rfl⟩ := (noted tx).2 there
        exact ⟨e, inside, spends⟩
      · rintro ⟨e, inside, spends⟩
        have seen : e.tx ∈ w.unconfirmedInTransfers := by
          by_contra new
          exact across (mem_comeAcross.mpr ⟨e, inside, new, spends⟩)
        exact ⟨e.tx, (noted e.tx).1 ⟨⟨e, inside, rfl⟩, seen⟩, spends⟩
    simp only [across, false_and, if_false, not_false_eq_true, true_and, stillSpent]

theorem scanTxPool_before (completed : (scanTxPool multisigInputs w pool).1 = true) :
    id ∈ (scanTxPool multisigInputs w pool).2.unconfirmedMultisigTransfers ↔
      id ∈ comeAcross multisigInputs w.unconfirmedInTransfers pool ∧
        (w.multisigTransfers id).isSome := by
  obtain ⟨final, same, marks, -⟩ := scanTxPool_eq completed
  rw [same]
  refine (marks.fromTxPool id).trans ?_
  simp only [List.not_mem_nil, false_or]

/-- A scan that throws marks outputs and clears none. -/
theorem scanTxPool_thrown (thrown : (scanTxPool multisigInputs w pool).1 = false) :
    (scanTxPool multisigInputs w pool).2.unconfirmedMultisigTransfers =
      w.unconfirmedMultisigTransfers ∧
      ∀ id, (scanTxPool multisigInputs w pool).2.multisigTransfers id = w.multisigTransfers id ∨
        (scanTxPool multisigInputs w pool).2.multisigTransfers id =
          (w.multisigTransfers id).map fun _ => ⟨true, 0⟩ := by
  obtain ⟨ids, marks, -⟩ := marks_scanTxs multisigInputs w.unconfirmedInTransfers pool
    ⟨{ w with unconfirmedInTransfers := [] }, []⟩
  unfold scanTxPool at thrown ⊢
  rcases outcome : scanTxs multisigInputs w.unconfirmedInTransfers pool
      ⟨{ w with unconfirmedInTransfers := [] }, []⟩
    with ⟨loopCompleted, final⟩
  rw [outcome] at thrown marks
  cases loopCompleted with
  | true => cases thrown
  | false =>
      refine ⟨marks.scanBefore, fun id => ?_⟩
      have transfers := marks.transfers id
      dsimp only at transfers ⊢
      rw [transfers]
      split
      · exact Or.inr rfl
      · exact Or.inl rfl

/-! ## Blocks -/

theorem foldl_spendInBlock (height : Nat) (ids : List MultisigId)
    (transfers : MultisigId → Option MultisigTransfer) (id : MultisigId) :
    ids.foldl (spendInBlock height) transfers id =
      if id ∈ ids then (transfers id).map fun _ => ⟨true, height⟩ else transfers id := by
  induction ids generalizing transfers with
  | nil => rfl
  | cons first rest inductionHypothesis =>
      rw [List.foldl_cons, inductionHypothesis]
      have one : spendInBlock height transfers first id =
          if id = first then (transfers id).map fun _ => ⟨true, height⟩ else transfers id := by
        unfold spendInBlock
        cases known : transfers first <;> by_cases same : id = first <;> simp_all
      rw [one]
      by_cases same : id = first
      · cases transfers id <;> simp [same]
      · simp [same]

theorem foldl_receiveInBlock (ids : List MultisigId)
    (transfers : MultisigId → Option MultisigTransfer) (id : MultisigId) :
    ids.foldl receiveInBlock transfers id =
      (transfers id).or (if id ∈ ids then some ⟨false, 0⟩ else none) := by
  induction ids generalizing transfers with
  | nil => cases known : transfers id <;> simp [known]
  | cons first rest inductionHypothesis =>
      rw [List.foldl_cons, inductionHypothesis]
      have one : receiveInBlock transfers first id =
          (transfers id).or (if id = first then some ⟨false, 0⟩ else none) := by
        unfold receiveInBlock
        by_cases same : id = first
        · subst same
          cases known : transfers id <;> simp [known]
        · cases transfers first <;> simp [same]
      rw [one]
      by_cases same : id = first
      · cases transfers id <;> simp [same]
      · cases transfers id <;> simp [same]

omit [DecidableEq Hash] in
theorem processNewTransaction_apply (height : Nat)
    (transfers : MultisigId → Option MultisigTransfer) (t : BlockTx Hash MultisigId)
    (id : MultisigId) :
    processNewTransaction multisigInputs height transfers t id =
      (if id ∈ multisigInputs t.tx then (transfers id).map fun _ => ⟨true, height⟩
        else transfers id).or
        (if id ∈ t.multisigOuts then some ⟨false, 0⟩ else none) := by
  rw [processNewTransaction, foldl_receiveInBlock, foldl_spendInBlock]

omit [DecidableEq Hash] in
/-- A block takes no mark away. -/
theorem processNewBlock_marked (txs : List (BlockTx Hash MultisigId)) (height : Nat)
    (transfers : MultisigId → Option MultisigTransfer)
    (marked : ∃ tdb, transfers id = some tdb ∧ tdb.spent = true) :
    ∃ tdb, txs.foldl (processNewTransaction multisigInputs height) transfers id = some tdb ∧
      tdb.spent = true := by
  induction txs generalizing transfers with
  | nil => exact marked
  | cons t rest inductionHypothesis =>
      apply inductionHypothesis
      obtain ⟨tdb, known, spent⟩ := marked
      rw [processNewTransaction_apply, known]
      split
      · exact ⟨⟨true, height⟩, rfl, rfl⟩
      · exact ⟨tdb, rfl, spent⟩

omit [DecidableEq Hash] in
theorem processNewBlock_unconfirmed (txs : List (BlockTx Hash MultisigId)) (height : Nat)
    (transfers : MultisigId → Option MultisigTransfer)
    (unspent : ∀ t ∈ txs, id ∉ multisigInputs t.tx)
    (unconfirmed : ∀ tdb ∈ transfers id, tdb.spentHeight = 0) :
    ∀ tdb ∈ txs.foldl (processNewTransaction multisigInputs height) transfers id,
      tdb.spentHeight = 0 := by
  induction txs generalizing transfers with
  | nil => exact unconfirmed
  | cons t rest inductionHypothesis =>
      apply inductionHypothesis _ fun t inside => unspent t (List.mem_cons_of_mem _ inside)
      intro tdb known
      rw [processNewTransaction_apply, if_neg (unspent t List.mem_cons_self)] at known
      cases before : transfers id with
      | some tdb' =>
          rw [before] at known unconfirmed
          cases known
          exact unconfirmed _ rfl
      | none =>
          rw [before, Option.none_or] at known
          obtain ⟨-, same⟩ := Option.ite_none_right_eq_some.mp known
          cases same
          rfl

/-! ## Runs -/

/-- What the scan before came across is marked, and only a block gives a spend a height. -/
structure Invariant (multisigInputs : Hash → List MultisigId)
    (requests : List (Request Hash MultisigId))
    (w : WalletState Hash MultisigId) : Prop where
  marked : ∀ id ∈ w.unconfirmedMultisigTransfers, ∃ tdb, w.multisigTransfers id = some tdb ∧
    tdb.spent = true
  unconfirmed : ∀ id, ¬ SpentInBlocks multisigInputs requests id →
    ∀ tdb ∈ w.multisigTransfers id, tdb.spentHeight = 0

omit [DecidableEq Hash] in
theorem Invariant.newBlock (invariant : Invariant multisigInputs requests w)
    (txs : List (BlockTx Hash MultisigId)) :
    Invariant multisigInputs (requests ++ [.newBlock txs])
      (processNewBlock multisigInputs w txs) where
  marked id before := processNewBlock_marked txs _ _ (invariant.marked id before)
  unconfirmed id unspent := by
    apply processNewBlock_unconfirmed txs
    · intro t inside spends
      exact unspent ⟨txs, by simp, t, inside, spends⟩
    · apply invariant.unconfirmed id
      rintro ⟨txs', inside, spends⟩
      exact unspent ⟨txs', List.mem_append_left _ inside, spends⟩

theorem Invariant.scanTxPool (invariant : Invariant multisigInputs requests w)
    (pool : List (PoolTx Hash)) :
    Invariant multisigInputs (requests ++ [.scanTxPool pool])
      (scanTxPool multisigInputs w pool).2 := by
  have unspentBefore : ∀ id, ¬ SpentInBlocks multisigInputs (requests ++ [.scanTxPool pool]) id →
      ¬ SpentInBlocks multisigInputs requests id := by
    rintro id unspent ⟨txs, inside, spends⟩
    exact unspent ⟨txs, List.mem_append_left _ inside, spends⟩
  cases outcome : (MultisigSpends.scanTxPool multisigInputs w pool).1 with
  | false =>
      obtain ⟨sameBefore, transfers⟩ := scanTxPool_thrown outcome
      constructor
      · intro id before
        rw [sameBefore] at before
        obtain ⟨tdb, known, spent⟩ := invariant.marked id before
        rcases transfers id with same | marked
        · exact ⟨tdb, same.trans known, spent⟩
        · exact ⟨⟨true, 0⟩, by rw [marked, known]; rfl, rfl⟩
      · intro id unspent tdb known
        rcases transfers id with same | marked
        · rw [same] at known
          exact invariant.unconfirmed id (unspentBefore id unspent) tdb known
        · rw [marked] at known
          obtain ⟨-, -, rfl⟩ := Option.map_eq_some_iff.mp known
          rfl
  | true =>
      constructor
      · intro id before
        obtain ⟨across, known⟩ := (scanTxPool_before outcome).mp before
        rw [scanTxPool_transfers outcome, if_pos across]
        split
        · next scanBefore => exact invariant.marked id scanBefore
        · obtain ⟨tdb, isThere⟩ := Option.isSome_iff_exists.mp known
          exact ⟨⟨true, 0⟩, by rw [isThere]; rfl, rfl⟩
      · intro id unspent tdb known
        have unconfirmed := invariant.unconfirmed id (unspentBefore id unspent)
        rw [scanTxPool_transfers outcome] at known
        split at known
        · split at known
          · exact unconfirmed tdb known
          · obtain ⟨-, -, rfl⟩ := Option.map_eq_some_iff.mp known
            rfl
        · split at known
          · obtain ⟨tdb', isThere, rfl⟩ := Option.map_eq_some_iff.mp known
            have zero := unconfirmed tdb' isThere
            unfold cleared
            rw [if_pos zero]
            exact zero
          · exact unconfirmed tdb known

theorem invariant_after (requests : List (Request Hash MultisigId)) :
    Invariant multisigInputs requests (after multisigInputs requests) := by
  induction requests using List.reverseRecOn with
  | nil =>
      constructor
      · intro id before
        cases before
      · intro id _ tdb known
        cases known
  | append_singleton earlier request inductionHypothesis =>
      have unfolded : after multisigInputs (earlier ++ [request]) =
          step multisigInputs (after multisigInputs earlier) request := List.foldl_concat _ _ _ _
      rw [unfolded]
      cases request with
      | newBlock txs => exact inductionHypothesis.newBlock txs
      | scanTxPool pool => exact inductionHypothesis.scanTxPool pool

/-- One output, in a scan from a wallet that keeps the invariant. -/
theorem scanTxPool_spent_iff (completed : (scanTxPool multisigInputs w pool).1 = true)
    (marked : ∀ id ∈ w.unconfirmedMultisigTransfers, ∃ tdb, w.multisigTransfers id = some tdb ∧
      tdb.spent = true)
    {tdb : MultisigTransfer} (known : w.multisigTransfers id = some tdb)
    (unconfirmed : tdb.spentHeight = 0) :
    ∃ tdb', (scanTxPool multisigInputs w pool).2.multisigTransfers id = some tdb' ∧
      ((tdb'.spent = true ↔ SpentInPool multisigInputs pool id) ↔
        (¬ SpentInPool multisigInputs pool id → tdb.spent = true →
          id ∈ w.unconfirmedMultisigTransfers) ∧
        (SpentInPool multisigInputs pool id →
          (∀ e ∈ pool, id ∈ multisigInputs e.tx → e.tx ∈ w.unconfirmedInTransfers) →
            tdb.spent = true)) := by
  have isMarked : id ∈ w.unconfirmedMultisigTransfers → tdb.spent = true := by
    intro before
    obtain ⟨tdb', known', spent⟩ := marked id before
    rw [known] at known'
    cases known'
    exact spent
  have acrossIff : (∀ e ∈ pool, id ∈ multisigInputs e.tx → e.tx ∈ w.unconfirmedInTransfers) ↔
      id ∉ comeAcross multisigInputs w.unconfirmedInTransfers pool := by
    rw [mem_comeAcross]
    grind
  rw [scanTxPool_transfers completed, known, acrossIff]
  by_cases across : id ∈ comeAcross multisigInputs w.unconfirmedInTransfers pool
  · obtain ⟨e, inside, -, spends⟩ := mem_comeAcross.mp across
    have inPool : SpentInPool multisigInputs pool id := ⟨e, inside, spends⟩
    rw [if_pos across]
    split
    · next before => exact ⟨tdb, rfl, by simp [inPool, isMarked before, across]⟩
    · exact ⟨⟨true, 0⟩, rfl, by simp [inPool, across]⟩
  · rw [if_neg across]
    by_cases inPool : SpentInPool multisigInputs pool id
    · rw [if_neg fun gone => gone.2 inPool]
      exact ⟨tdb, rfl, by simp [inPool, across]⟩
    · by_cases before : id ∈ w.unconfirmedMultisigTransfers
      · rw [if_pos ⟨before, inPool⟩]
        exact ⟨cleared tdb, rfl, by simp [cleared, unconfirmed, inPool, before]⟩
      · rw [if_neg fun gone => before gone.1]
        exact ⟨tdb, rfl, by simp [inPool, before]⟩

theorem scanTxPool_unknown (completed : (scanTxPool multisigInputs w pool).1 = true)
    (unknown : w.multisigTransfers id = none) :
    (scanTxPool multisigInputs w pool).2.multisigTransfers id = none := by
  rw [scanTxPool_transfers completed, unknown]
  simp

/-- What the wallet has to remember for a scan to set and clear every mark: an output that no
transaction of the pool spends any more, if it is marked, was come across by the scan before, and
one that only transactions seen earlier spend is marked. -/
def Remembered (multisigInputs : Hash → List MultisigId) (requests : List (Request Hash MultisigId))
    (pool : List (PoolTx Hash)) : Prop :=
  ∀ id, ∀ tdb ∈ (after multisigInputs requests).multisigTransfers id,
    ¬ SpentInBlocks multisigInputs requests id →
    (¬ SpentInPool multisigInputs pool id → tdb.spent = true →
      id ∈ (after multisigInputs requests).unconfirmedMultisigTransfers) ∧
    (SpentInPool multisigInputs pool id →
      (∀ e ∈ pool, id ∈ multisigInputs e.tx →
        e.tx ∈ (after multisigInputs requests).unconfirmedInTransfers) →
      tdb.spent = true)

/-- After a scan the outputs not spent in the chain are marked that the pool
spends, and no others. -/
def MarksRight (multisigInputs : Hash → List MultisigId) (requests : List (Request Hash MultisigId))
    (pool : List (PoolTx Hash)) : Prop :=
  ∀ id, ∀ tdb ∈ (after multisigInputs (requests ++ [.scanTxPool pool])).multisigTransfers id,
    ¬ SpentInBlocks multisigInputs requests id →
      (tdb.spent = true ↔ SpentInPool multisigInputs pool id)

/-- A transaction that two scans find in the pool leaves its mark behind when it is
gone at the third. -/
theorem mark_left_behind :
    ¬ ∀ (multisigInputs : Nat →
      List Nat) (requests : List (Request Nat Nat)) (pool : List (PoolTx Nat)),
      (scanTxPool multisigInputs (after multisigInputs requests) pool).1 = true →
      MarksRight multisigInputs requests pool := by
  intro always
  have right := always (fun tx => [tx])
    [.newBlock [⟨0, [7]⟩], .scanTxPool [⟨7, false, false, none⟩],
      .scanTxPool [⟨7, false, false, none⟩]] [] (by decide)
  have unspent : ¬ SpentInBlocks (fun tx => [tx])
      ([.newBlock [⟨0, [7]⟩], .scanTxPool [⟨7, false, false, none⟩],
        .scanTxPool [⟨7, false, false, none⟩]] : List (Request Nat Nat)) 7 := by
    simp [SpentInBlocks]
  obtain ⟨e, inside, -⟩ := (right 7 ⟨true, 0⟩ (by decide) unspent).mp rfl
  cases inside

/-- In whatever order blocks and scans came before, a scan gets all marks right exactly when the
wallet remembers enough. -/
theorem scan_marks_right_iff (multisigInputs : Hash → List MultisigId)
    (requests : List (Request Hash MultisigId)) (pool : List (PoolTx Hash))
    (completed : (scanTxPool multisigInputs (after multisigInputs requests) pool).1 = true) :
    MarksRight multisigInputs requests pool ↔ Remembered multisigInputs requests pool := by
  have invariant : Invariant multisigInputs requests (after multisigInputs requests) :=
    invariant_after requests
  have unfolded : after multisigInputs (requests ++ [.scanTxPool pool]) =
      (scanTxPool multisigInputs (after multisigInputs requests) pool).2 :=
        List.foldl_concat _ _ _ _
  unfold MarksRight Remembered
  rw [unfolded]
  apply forall_congr'
  intro id
  cases known : (after multisigInputs requests).multisigTransfers id with
  | none =>
      rw [scanTxPool_unknown completed known]
      simp
  | some tdb =>
      by_cases spent : SpentInBlocks multisigInputs requests id
      · simp [spent]
      · obtain ⟨tdb', known', iff⟩ := scanTxPool_spent_iff completed invariant.marked known
          (invariant.unconfirmed id spent tdb known)
        rw [known']
        simpa [spent] using iff

/-- A spend that one scan finds and the next one does not. -/
theorem scan_marks_right_vanished :
    MarksRight (fun tx : Nat => [tx])
      [.newBlock [⟨0, [7]⟩], .scanTxPool [⟨7, false, false, none⟩]] [] := by
  refine (scan_marks_right_iff (fun tx => [tx]) _ [] (by decide)).mpr ?_
  intro id tdb known unspent
  refine ⟨fun _ _ => ?_, fun ⟨e, inside, _⟩ => nomatch inside⟩
  by_cases same : id = 7
  · subst same
    decide
  · have unknown : (after (fun tx : Nat => [tx])
        [.newBlock [⟨0, [7]⟩], .scanTxPool [⟨7, false, false, none⟩]]).multisigTransfers id =
          none := by
      change Function.update
        (Function.update (fun _ => none) 7 (some (⟨false, 0⟩ : MultisigTransfer))) 7
        (some ⟨true, 0⟩) id = none
      rw [Function.update_of_ne same, Function.update_of_ne same]
    rw [unknown] at known
    cases known

end Zano.Wallet.MultisigSpends
