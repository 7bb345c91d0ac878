import Mathlib
import Zano.Lib.Transition
import Zano.Wallet.ReceivedOutputs

/-! # Where incomes come from

Every income that the wallet reports, in the history or as a payment, comes from outputs that it has
entered in its table, and a reorganization takes both back together. Blocks add at the end of the
tables in the order of their heights; that is what lets one cut find the same place in all of them.
-/

namespace Zano.Wallet.ReceivedOutputs

variable (generateKeyImage : PublicKey → KeyImage)

/-! ## What the inputs leave alone -/

def WalletState.outputs (w : WalletState) : List ReceivedOutput :=
  w.transfers.map fun e => e.2.toReceivedOutput

/-- The one-time keys on record with the key images that they were entered with. -/
def WalletState.images (w : WalletState) : List (PublicKey × Option KeyImage) :=
  w.transfers.map fun e => (e.2.outKey, e.2.keyImage)

/-- The wallets differ in spent marks and multisig outputs only. -/
structure SameRecords (w w' : WalletState) : Prop where
  outputs : w'.outputs = w.outputs
  images : w'.images = w.images
  keyImages : w'.keyImages = w.keyImages
  pendingKeyImages : w'.pendingKeyImages = w.pendingKeyImages
  watchOnly : w'.watchOnly = w.watchOnly
  auditable : w'.auditable = w.auditable
  transferHistory : w'.transferHistory = w.transferHistory
  payments : w'.payments = w.payments
  currentSize : w'.currentSize = w.currentSize

variable {w w' w'' : WalletState} {c c' : Context} {tx : Tx} {height index : Nat}

theorem SameRecords.refl (w : WalletState) : SameRecords w w := by
  constructor <;> rfl

theorem SameRecords.trans (first : SameRecords w w')
    (second : SameRecords w' w'') : SameRecords w w'' where
  outputs := second.outputs.trans first.outputs
  images := second.images.trans first.images
  keyImages := second.keyImages.trans first.keyImages
  pendingKeyImages := second.pendingKeyImages.trans first.pendingKeyImages
  watchOnly := second.watchOnly.trans first.watchOnly
  auditable := second.auditable.trans first.auditable
  transferHistory := second.transferHistory.trans first.transferHistory
  payments := second.payments.trans first.payments
  currentSize := second.currentSize.trans first.currentSize

theorem modifyTransfer_outputs (w : WalletState) (tid : Nat) {f : TransferDetails → TransferDetails}
    (keeps : ∀ td, (f td).toReceivedOutput = td.toReceivedOutput) :
    (w.modifyTransfer tid f).outputs = w.outputs := by
  simp only [WalletState.outputs, WalletState.modifyTransfer, List.map_map]
  apply List.map_congr_left
  intro e _
  by_cases same : e.1 = tid <;> simp [same, keeps]

theorem modifyTransfer_images (w : WalletState) (tid : Nat) {f : TransferDetails → TransferDetails}
    (keeps : ∀ td, ((f td).outKey, (f td).keyImage) = (td.outKey, td.keyImage)) :
    (w.modifyTransfer tid f).images = w.images := by
  simp only [WalletState.images, WalletState.modifyTransfer, List.map_map]
  apply List.map_congr_left
  intro e _
  by_cases same : e.1 = tid
  · simpa [same] using keeps e.2
  · simp [same]

theorem modifyTransfer_spend (w : WalletState) (tid height : Nat) :
    SameRecords w (w.modifyTransfer tid (·.spend height)) where
  outputs := modifyTransfer_outputs w tid fun _ => rfl
  images := modifyTransfer_images w tid fun _ => rfl
  keyImages := rfl
  pendingKeyImages := rfl
  watchOnly := rfl
  auditable := rfl
  transferHistory := rfl
  payments := rfl
  currentSize := rfl

/-- What the inputs have added up: nothing received, and no balance raised. -/
structure OnlySpends (c : Context) : Prop where
  receive : c.receive = []
  lowered : ∀ change ∈ c.balanceChanges, change.2.2 ≤ 0

theorem processInput_spec {input : TxIn} (onlySpends : OnlySpends c)
    (processed : processInput height w c index input = some (w', c')) :
    SameRecords w w' ∧ OnlySpends c' := by
  cases input with
  | spend keyImage amount keyOffsets =>
      simp only [processInput] at processed
      split at processed
      · cases processed
      · cases processed
        exact ⟨.refl w, onlySpends⟩
      · split at processed
        · cases processed
        · cases processed
          refine ⟨modifyTransfer_spend _ _ _, onlySpends.receive, ?_⟩
          intro change inside
          rcases List.mem_append.mp inside with before | added
          · exact onlySpends.lowered change before
          · rw [List.mem_singleton.mp added]
            simp
  | multisig id =>
      simp only [processInput] at processed
      split at processed
      · cases processed
        exact ⟨.refl w, onlySpends.receive, onlySpends.lowered⟩
      · cases processed
        exact ⟨.refl w, onlySpends⟩
  | other =>
      cases processed
      exact ⟨.refl w, onlySpends⟩

theorem processInputs_spec {inputs : List TxIn} (onlySpends : OnlySpends c)
    (processed : processInputs height w c index inputs = some (w', c')) :
    SameRecords w w' ∧ OnlySpends c' := by
  induction inputs generalizing w c index with
  | nil =>
      cases processed
      exact ⟨.refl _, onlySpends⟩
  | cons input rest inductionHypothesis =>
      obtain ⟨next, first, later⟩ := Option.bind_eq_some_iff.mp processed
      obtain ⟨same, spends⟩ := processInput_spec onlySpends first
      obtain ⟨sameLater, spendsLater⟩ := inductionHypothesis spends later
      exact ⟨same.trans sameLater, spendsLater⟩

theorem onlySpends_initial : OnlySpends Context.initial := ⟨rfl, fun _ inside => nomatch inside⟩

/-! ## What the outputs add -/

def ReceivedOutput.entry (output : ReceivedOutput) : EmployedEntry :=
  ⟨output.internalOutputIndex, output.amount, output.assetId, output.paymentId⟩

def ReceivedOutput.change (output : ReceivedOutput) : Nat × AssetId × Int :=
  (output.paymentId, output.assetId, output.amount)

def ReceivedOutput.IsFrom (output : ReceivedOutput) (txHash : Hash) (height : Nat) : Prop :=
  output.txHash = txHash ∧ output.blockHeight = height

/-- The outputs of the loop are exactly those in `entered`, in the tables and in
the context alike. -/
structure Enters (txHash : Hash) (height : Nat) (w : WalletState) (c : Context) (w' : WalletState)
    (c' : Context)
    (entered : List ReceivedOutput) : Prop where
  outputs : w'.outputs = w.outputs ++ entered
  receive : c'.receive = c.receive ++ entered.map (·.entry)
  balanceChanges : c'.balanceChanges = c.balanceChanges ++ entered.map (·.change)
  isFrom : ∀ output ∈ entered, output.IsFrom txHash height
  transferHistory : w'.transferHistory = w.transferHistory
  payments : w'.payments = w.payments
  currentSize : w'.currentSize = w.currentSize

theorem Enters.nothing {txHash : Hash} (outputs : w'.outputs = w.outputs)
    (transferHistory : w'.transferHistory = w.transferHistory) (payments : w'.payments = w.payments)
    (currentSize : w'.currentSize = w.currentSize) : Enters txHash height w c w' c [] where
  outputs := by simpa using outputs
  receive := by simp
  balanceChanges := by simp
  isFrom := fun _ inside => nomatch inside
  transferHistory := transferHistory
  payments := payments
  currentSize := currentSize

theorem Enters.trans {txHash : Hash} {c'' : Context} {first second : List ReceivedOutput}
    (enters : Enters txHash height w c w' c' first)
    (later : Enters txHash height w' c' w'' c'' second) :
    Enters txHash height w c w'' c'' (first ++ second) where
  outputs := by rw [later.outputs, enters.outputs, List.append_assoc]
  receive := by rw [later.receive, enters.receive, List.map_append, List.append_assoc]
  balanceChanges := by
    rw [later.balanceChanges, enters.balanceChanges, List.map_append, List.append_assoc]
  isFrom output inside :=
    (List.mem_append.mp inside).elim (enters.isFrom output) (later.isFrom output)
  transferHistory := later.transferHistory.trans enters.transferHistory
  payments := later.payments.trans enters.payments
  currentSize := later.currentSize.trans enters.currentSize

theorem processOut_enters {out : OwnOut}
    (processed : processOut generateKeyImage height tx w c out = some (w', c')) :
    ∃ entered, Enters tx.hash height w c w' c' entered := by
  have skipped : ∀ {r : WalletState × Context}, some (w, c) = some r → ∃ entered,
    Enters tx.hash height w c r.1 r.2 entered := by
    intro r same
    cases same
    exact ⟨[], .nothing rfl rfl rfl rfl⟩
  unfold processOut at processed
  split at processed
  case h_3 =>
    cases processed
    exact ⟨[], .nothing rfl rfl rfl rfl⟩
  case h_4 => exact skipped processed
  all_goals
    dsimp only at processed
    split at processed
    · exact skipped processed
    · split at processed
      · exact skipped processed
      · obtain ⟨gindex, -, same⟩ := Option.map_eq_some_iff.mp processed
        cases same
        refine ⟨[out.received tx height gindex], ?_, rfl, rfl, ?_, rfl, rfl, rfl⟩
        · simp [WalletState.outputs, WalletState.enter]
        · intro output inside
          rw [List.mem_singleton.mp inside]
          exact ⟨rfl, rfl⟩

theorem processOuts_enters {outs : List OwnOut}
    (processed : processOuts generateKeyImage height tx w c outs = some (w', c')) :
    ∃ entered, Enters tx.hash height w c w' c' entered := by
  induction outs generalizing w c with
  | nil =>
      cases processed
      exact ⟨[], .nothing rfl rfl rfl rfl⟩
  | cons out rest inductionHypothesis =>
      obtain ⟨next, first, later⟩ := Option.bind_eq_some_iff.mp processed
      obtain ⟨entered, enters⟩ := processOut_enters generateKeyImage first
      obtain ⟨others, entersLater⟩ := inductionHypothesis later
      exact ⟨entered ++ others, enters.trans entersLater⟩

/-! ## Incomes and the outputs that they come from -/

def PaymentId.covers (paymentId : PaymentId) (id : Nat) : Bool :=
  match paymentId with
  | .intrinsic own => id = own
  | .txWide _ => true

/-- What the outputs of one asset bring in under a payment id. -/
def received (paymentId : PaymentId) (assetId : AssetId) (entered : List ReceivedOutput) : Nat :=
  ((entered.filter fun output => paymentId.covers output.paymentId && output.assetId = assetId).map
    (·.amount)).sum

def PaymentDetails.amountOf (payment : PaymentDetails) (assetId : AssetId) : Nat :=
  if assetId = nativeCoinAssetId then payment.amount
  else (payment.subtransfers.lookup assetId).getD 0

theorem total_append (first second : List (AssetId × Int)) (assetId : AssetId) :
    total (first ++ second) assetId = total first assetId + total second assetId := by
  simp [total]

theorem total_nonpos {changes : List (AssetId × Int)} (lowered : ∀ change ∈ changes, change.2 ≤ 0)
    (assetId : AssetId) :
    total changes assetId ≤ 0 := by
  have lists : ∀ amounts : List Int, (∀ amount ∈ amounts, amount ≤ 0) → amounts.sum ≤ 0 := by
    intro amounts all
    induction amounts with
    | nil => exact le_refl _
    | cons amount rest inductionHypothesis =>
        rw [List.sum_cons]
        have first := all amount List.mem_cons_self
        have others :=
          inductionHypothesis fun amount inside => all amount (List.mem_cons_of_mem _ inside)
        omega
  apply lists
  intro amount inside
  obtain ⟨change, kept, rfl⟩ := List.mem_map.mp inside
  exact lowered change (List.mem_of_mem_filter kept)

theorem changesOf_eq (c : Context) (paymentId : PaymentId) :
    c.changesOf paymentId =
      (c.balanceChanges.filter fun change => paymentId.covers change.1).map (·.2) := by
  cases paymentId with
  | intrinsic id => rfl
  | txWide id => simp [Context.changesOf, PaymentId.covers]

theorem total_entered (paymentId : PaymentId) (assetId : AssetId) (entered : List ReceivedOutput) :
    total (((entered.map (·.change)).filter fun change => paymentId.covers change.1).map (·.2))
      assetId =
      (received paymentId assetId entered : Int) := by
  induction entered with
  | nil => rfl
  | cons output rest inductionHypothesis =>
      rw [List.map_cons, List.filter_cons]
      unfold received at inductionHypothesis ⊢
      cases covered : paymentId.covers output.paymentId with
      | false => simpa [ReceivedOutput.change, covered] using inductionHypothesis
      | true =>
          rw [if_pos (by simpa [ReceivedOutput.change] using covered), List.map_cons,
            List.filter_cons]
          have split : ∀ rest', total ((output.change).2 :: rest') assetId =
              (if output.assetId = assetId then (output.amount : Int) else 0) +
                total rest' assetId := by
            intro rest'
            by_cases same : output.assetId = assetId <;> simp [total, ReceivedOutput.change, same]
          rw [split, inductionHypothesis]
          by_cases same : output.assetId = assetId <;> simp [covered, same]

/-- The context of a transaction accounts for the outputs that were entered and for no others. -/
structure Accounts (c : Context) (entered : List ReceivedOutput) : Prop where
  receive : c.receive = entered.map (·.entry)
  total :
    ∀ paymentId assetId, total (c.changesOf paymentId) assetId ≤ received paymentId assetId entered

theorem Enters.accounts {txHash : Hash} {entered : List ReceivedOutput} (onlySpends : OnlySpends c)
    (enters : Enters txHash height w c w' c' entered) : Accounts c' entered where
  receive := by rw [enters.receive, onlySpends.receive, List.nil_append]
  total paymentId assetId := by
    rw [changesOf_eq, enters.balanceChanges, List.filter_append, List.map_append, total_append,
      total_entered]
    have spends :
        total ((c.balanceChanges.filter fun change => paymentId.covers change.1).map (·.2))
          assetId ≤ 0 := by
      apply total_nonpos
      intro change inside
      obtain ⟨whole, kept, rfl⟩ := List.mem_map.mp inside
      exact onlySpends.lowered whole (List.mem_of_mem_filter kept)
    omega

theorem castAmount_le {amount : Int} (positive : 0 < amount) :
    (castAmount amount : Int) ≤ amount := by
  have bound : castAmount amount ≤ amount.natAbs := Nat.mod_le _ _
  omega

theorem mem_totals {changes : List (AssetId × Int)} {change : AssetId × Int}
    (inside : change ∈ totals changes) :
    change.2 = total changes change.1 := by
  obtain ⟨assetId, -, rfl⟩ := List.mem_map.mp inside
  rfl

theorem mem_incomes {changes : List (AssetId × Int)} {income : AssetId × Nat}
    (inside : income ∈ incomes changes) :
    (income.2 : Int) ≤ total changes income.1 := by
  obtain ⟨change, kept, rfl⟩ := List.mem_map.mp inside
  obtain ⟨isTotal, positive⟩ := List.mem_filter.mp kept
  rw [← mem_totals isTotal]
  exact castAmount_le (of_decide_eq_true positive)

theorem mem_of_lookup {changes : List (AssetId × Nat)} {assetId : AssetId} {amount : Nat}
    (found : changes.lookup assetId = some amount) : (assetId, amount) ∈ changes := by
  obtain ⟨before, after, rfl, -⟩ := List.lookup_eq_some_iff.mp found
  simp

theorem lookup_getD_le {incomes : List (AssetId × Nat)} {assetId : AssetId} {bound : Nat}
    (all : ∀ amount, (assetId, amount) ∈ incomes → amount ≤ bound) :
    (incomes.lookup assetId).getD 0 ≤ bound := by
  cases found : incomes.lookup assetId with
  | none => exact Nat.zero_le _
  | some amount => exact all amount (mem_of_lookup found)

theorem Accounts.payment {entered : List ReceivedOutput} (accounts : Accounts c entered)
    (paymentId : PaymentId) (assetId : AssetId) :
    (paymentOf height tx c (c.changesOf paymentId)).amountOf assetId ≤
      received paymentId assetId entered := by
  have bounded : ∀ amount, (assetId, amount) ∈ incomes (c.changesOf paymentId) →
      amount ≤ received paymentId assetId entered := by
    intro amount inside
    have upTo := mem_incomes inside
    have most := accounts.total paymentId assetId
    exact_mod_cast upTo.trans most
  unfold PaymentDetails.amountOf paymentOf
  split
  · next native =>
      subst native
      exact lookup_getD_le bounded
  · exact lookup_getD_le fun amount inside => bounded amount (List.mem_of_mem_filter inside)

theorem Accounts.subtransfers {entered : List ReceivedOutput} (accounts : Accounts c entered)
    {paymentId : PaymentId} {transfer : SubTransfer}
    (inside : transfer ∈ subtransfersOf paymentId (c.changesOf paymentId))
    (isIncome : transfer.isIncome = true) :
    transfer.amount ≤ received transfer.paymentId transfer.assetId entered := by
  obtain ⟨change, kept, rfl⟩ := List.mem_map.mp inside
  have isTotal := mem_totals (List.mem_of_mem_filter kept)
  have upTo := castAmount_le (of_decide_eq_true isIncome)
  have most := accounts.total paymentId change.1
  rw [← isTotal] at most
  exact_mod_cast upTo.trans most

/-- An entry of the history reports outputs that are on record, and no income
beyond what they bring. -/
def TransferInfo.Entered (wti : TransferInfo) (outputs : List ReceivedOutput) : Prop :=
  ∃ entered : List ReceivedOutput, entered.Sublist outputs ∧
    (∀ output ∈ entered, output.IsFrom wti.txHash wti.height) ∧
    wti.receive = entered.map (·.entry) ∧
    ∀ transfer ∈ wti.subtransfers, transfer.isIncome = true →
      transfer.amount ≤ received transfer.paymentId transfer.assetId entered

def PaymentDetails.Entered (payment : PaymentDetails) (paymentId : PaymentId)
    (outputs : List ReceivedOutput) : Prop :=
  ∃ entered : List ReceivedOutput, entered.Sublist outputs ∧
    (∀ output ∈ entered, output.IsFrom payment.txHash payment.blockHeight) ∧
    ∀ assetId, payment.amountOf assetId ≤ received paymentId assetId entered

structure IncomesEntered (w : WalletState) : Prop where
  history : ∀ wti ∈ w.transferHistory, wti.Entered w.outputs
  payments : ∀ p ∈ w.payments, p.2.Entered p.1 w.outputs

theorem TransferInfo.Entered.mono {wti : TransferInfo} {outputs outputs' : List ReceivedOutput}
    (isEntered : wti.Entered outputs) (sublist : outputs.Sublist outputs') :
    wti.Entered outputs' := by
  obtain ⟨entered, kept, rest⟩ := isEntered
  exact ⟨entered, kept.trans sublist, rest⟩

theorem PaymentDetails.Entered.mono {payment : PaymentDetails} {paymentId : PaymentId}
    {outputs outputs' : List ReceivedOutput} (isEntered : payment.Entered paymentId outputs)
    (sublist : outputs.Sublist outputs') : payment.Entered paymentId outputs' := by
  obtain ⟨entered, kept, rest⟩ := isEntered
  exact ⟨entered, kept.trans sublist, rest⟩

/-! ## A block adds at the end -/

/-- All that a transaction of a block at `height` does to the records. -/
structure Grows (height : Nat) (w w' : WalletState) : Prop where
  outputs :
    ∃ entered, w'.outputs = w.outputs ++ entered ∧ ∀ output ∈ entered, output.blockHeight = height
  history : ∃ items, w'.transferHistory = w.transferHistory ++ items ∧
    ∀ wti ∈ items, wti.height = height ∧ wti.Entered w'.outputs
  payments : ∃ items, w'.payments = w.payments ++ items ∧
    ∀ p ∈ items, p.2.blockHeight = height ∧ p.2.Entered p.1 w'.outputs
  currentSize : w'.currentSize = w.currentSize

theorem Grows.refl (height : Nat) (w : WalletState) : Grows height w w where
  outputs := ⟨[], by simp⟩
  history := ⟨[], by simp⟩
  payments := ⟨[], by simp⟩
  currentSize := rfl

theorem Grows.outputs_sublist (grows : Grows height w w') : w.outputs.Sublist w'.outputs := by
  obtain ⟨entered, outputs, -⟩ := grows.outputs
  rw [outputs]
  exact List.sublist_append_left _ _

theorem Grows.trans (first : Grows height w w')
    (second : Grows height w' w'') : Grows height w w'' := by
  obtain ⟨entered, outputs, atHeight⟩ := first.outputs
  obtain ⟨entered', outputs', atHeight'⟩ := second.outputs
  obtain ⟨items, history, areItems⟩ := first.history
  obtain ⟨items', history', areItems'⟩ := second.history
  obtain ⟨paid, payments, arePaid⟩ := first.payments
  obtain ⟨paid', payments', arePaid'⟩ := second.payments
  refine ⟨⟨entered ++ entered', ?_, ?_⟩, ⟨items ++ items', ?_, ?_⟩, ⟨paid ++ paid', ?_, ?_⟩,
    second.currentSize.trans first.currentSize⟩
  · rw [outputs', outputs, List.append_assoc]
  · intro output inside
    exact (List.mem_append.mp inside).elim (atHeight output) (atHeight' output)
  · rw [history', history, List.append_assoc]
  · intro wti inside
    rcases List.mem_append.mp inside with before | later
    · obtain ⟨same, isEntered⟩ := areItems wti before
      exact ⟨same, isEntered.mono second.outputs_sublist⟩
    · exact areItems' wti later
  · rw [payments', payments, List.append_assoc]
  · intro p inside
    rcases List.mem_append.mp inside with before | later
    · obtain ⟨same, isEntered⟩ := arePaid p before
      exact ⟨same, isEntered.mono second.outputs_sublist⟩
    · exact arePaid' p later

theorem SameRecords.grows (same : SameRecords w w') (height : Nat) : Grows height w w' where
  outputs := ⟨[], by simp [same.outputs]⟩
  history := ⟨[], by simp [same.transferHistory]⟩
  payments := ⟨[], by simp [same.payments]⟩
  currentSize := same.currentSize

theorem Enters.grows {txHash : Hash} {entered : List ReceivedOutput}
    (enters : Enters txHash height w c w' c' entered) :
    Grows height w w' where
  outputs := ⟨entered, enters.outputs, fun output inside => (enters.isFrom output inside).2⟩
  history := ⟨[], by simp [enters.transferHistory]⟩
  payments := ⟨[], by simp [enters.payments]⟩
  currentSize := enters.currentSize

theorem handleMoney_grows {entered : List ReceivedOutput} (accounts : Accounts c entered)
    (sublist : entered.Sublist w.outputs)
    (isFrom : ∀ output ∈ entered, output.IsFrom tx.hash height) :
    Grows height w (handleMoney height tx w c) where
  outputs := ⟨[], by simp [handleMoney, WalletState.outputs]⟩
  history := by
    refine ⟨_, rfl, ?_⟩
    intro wti inside
    rw [List.mem_singleton.mp inside]
    refine ⟨rfl, entered, sublist, isFrom, accounts.receive, ?_⟩
    intro transfer inSome isIncome
    obtain ⟨paymentId, -, inGroup⟩ := List.mem_flatMap.mp inSome
    exact accounts.subtransfers inGroup isIncome
  payments := by
    refine ⟨_, rfl, ?_⟩
    intro p inside
    obtain ⟨paymentId, -, rfl⟩ := List.mem_map.mp inside
    exact ⟨rfl, entered, sublist, isFrom, accounts.payment paymentId⟩
  currentSize := rfl

theorem processNewTransaction_grows {hf6Active : Bool}
    (processed : processNewTransaction generateKeyImage hf6Active height w tx = some w') :
    Grows height w w' := by
  obtain ⟨⟨afterInputs, c⟩, inputs, rest⟩ := Option.bind_eq_some_iff.mp processed
  obtain ⟨same, onlySpends⟩ := processInputs_spec onlySpends_initial inputs
  have first : Grows height w afterInputs := same.grows height
  dsimp only at rest
  split at rest
  · cases rest
    exact first
  · split at rest
    · cases rest
      exact first
    · split at rest
      · cases rest
      · obtain ⟨⟨afterOuts, c'⟩, outs, done⟩ := Option.map_eq_some_iff.mp rest
        obtain ⟨entered, enters⟩ := processOuts_enters generateKeyImage outs
        have second : Grows height afterInputs afterOuts := enters.grows
        have sublist : entered.Sublist afterOuts.outputs := by
          rw [enters.outputs]
          exact List.sublist_append_right _ _
        dsimp only at done
        split at done
        · rw [← done]
          exact first.trans
            (second.trans (handleMoney_grows (enters.accounts onlySpends) sublist enters.isFrom))
        · rw [← done]
          exact first.trans second

theorem processTransactions_grows {hf6Active : Bool} {txs : List Tx}
    (processed : txs.foldlM (processNewTransaction generateKeyImage hf6Active height) w = some w') :
    Grows height w w' := by
  induction txs generalizing w with
  | nil =>
      cases processed
      exact .refl height _
  | cons tx rest inductionHypothesis =>
      rw [List.foldlM_cons] at processed
      obtain ⟨next, first, later⟩ := Option.bind_eq_some_iff.mp processed
      exact (processNewTransaction_grows generateKeyImage first).trans (inductionHypothesis later)

/-! ## Heights are in order -/

structure Ordered (w : WalletState) : Prop where
  outputs : (w.outputs.map (·.blockHeight)).Pairwise (· ≤ ·)
  history : (w.transferHistory.map (·.height)).Pairwise (· ≤ ·)
  outputsBelow : ∀ output ∈ w.outputs, output.blockHeight < w.currentSize
  historyBelow : ∀ wti ∈ w.transferHistory, wti.height < w.currentSize

theorem pairwise_append_constant {heights added : List Nat} {height : Nat}
    (ordered : heights.Pairwise (· ≤ ·)) (below : ∀ h ∈ heights, h ≤ height)
    (constant : ∀ h ∈ added, h = height) :
    (heights ++ added).Pairwise (· ≤ ·) := by
  apply List.pairwise_append.mpr
  refine ⟨ordered, ?_, ?_⟩
  · apply List.pairwise_of_forall_mem_list
    intro a first b second
    rw [constant a first, constant b second]
  · intro a first b second
    rw [constant b second]
    exact below a first

/-- Whatever the size of the chain becomes, it is above the block that was added. -/
theorem Grows.ordered (grows : Grows height w w') (ordered : Ordered w)
    (above : w.currentSize ≤ height + 1) :
    Ordered { w' with currentSize := height + 1 } := by
  obtain ⟨entered, outputs, atHeight⟩ := grows.outputs
  obtain ⟨items, history, areItems⟩ := grows.history
  have outputsBelow : ∀ output ∈ w.outputs, output.blockHeight ≤ height := by
    intro output inside
    have below := ordered.outputsBelow output inside
    omega
  have historyBelow : ∀ wti ∈ w.transferHistory, wti.height ≤ height := by
    intro wti inside
    have below := ordered.historyBelow wti inside
    omega
  have sameOutputs : ({ w' with currentSize := height + 1 } : WalletState).outputs = w'.outputs :=
    rfl
  constructor
  · rw [sameOutputs, outputs, List.map_append]
    apply pairwise_append_constant ordered.outputs
    · simpa using outputsBelow
    · simpa using atHeight
  · change (w'.transferHistory.map (·.height)).Pairwise (· ≤ ·)
    rw [history, List.map_append]
    apply pairwise_append_constant ordered.history
    · simpa using historyBelow
    · simpa using fun wti inside => (areItems wti inside).1
  · intro output inside
    rw [sameOutputs, outputs] at inside
    rcases List.mem_append.mp inside with before | added
    · exact Nat.lt_succ_of_le (outputsBelow output before)
    · exact Nat.lt_succ_of_le (atHeight output added).le
  · intro wti inside
    change wti ∈ w'.transferHistory at inside
    rw [history] at inside
    rcases List.mem_append.mp inside with before | added
    · exact Nat.lt_succ_of_le (historyBelow wti before)
    · exact Nat.lt_succ_of_le (areItems wti added).1.le

theorem Grows.incomes (grows : Grows height w w')
    (incomes : IncomesEntered w) : IncomesEntered w' := by
  obtain ⟨items, history, areItems⟩ := grows.history
  obtain ⟨paid, payments, arePaid⟩ := grows.payments
  constructor
  · intro wti inside
    rw [history] at inside
    rcases List.mem_append.mp inside with before | added
    · exact (incomes.history wti before).mono grows.outputs_sublist
    · exact (areItems wti added).2
  · intro p inside
    rw [payments] at inside
    rcases List.mem_append.mp inside with before | added
    · exact (incomes.payments p before).mono grows.outputs_sublist
    · exact (arePaid p added).2

theorem takeWhile_eq_filter {α : Type*} (height : α → Nat) (bound : Nat) {items : List α}
    (ordered : (items.map height).Pairwise (· ≤ ·)) :
    (items.takeWhile fun item => height item < bound) = items.filter fun item =>
      height item < bound := by
  induction items with
  | nil => rfl
  | cons item rest inductionHypothesis =>
      rw [List.map_cons, List.pairwise_cons] at ordered
      rw [List.takeWhile_cons, List.filter_cons]
      by_cases below : height item < bound
      · simp [below, inductionHypothesis ordered.2]
      · have others : (rest.filter fun item => height item < bound) = [] := by
          apply List.filter_eq_nil_iff.mpr
          intro other inside
          have above := ordered.1 (height other) (List.mem_map_of_mem inside)
          simp only [decide_eq_true_eq]
          omega
        simp [below, others]

theorem rdropWhile_eq_filter {α : Type*} (height : α → Nat) (bound : Nat) {items : List α}
    (ordered : (items.map height).Pairwise (· ≤ ·)) :
    (items.rdropWhile fun item => bound ≤ height item) = items.filter fun item =>
      height item < bound := by
  induction items using List.reverseRecOn with
  | nil => rfl
  | append_singleton earlier item inductionHypothesis =>
      rw [List.map_append, List.pairwise_append] at ordered
      rw [List.rdropWhile_concat, List.filter_append]
      by_cases below : height item < bound
      · have all : (earlier.filter fun item => height item < bound) = earlier := by
          apply List.filter_eq_self.mpr
          intro other inside
          have under :=
            ordered.2.2 (height other) (List.mem_map_of_mem inside) (height item) (by simp)
          simp only [decide_eq_true_eq]
          omega
        simp [Nat.not_le.mpr below, below, all]
      · simp [Nat.not_lt.mp below, below, inductionHypothesis ordered.1]

theorem unconfirmSpend_toReceivedOutput (td : TransferDetails) (includingHeight : Nat) :
    (td.unconfirmSpend includingHeight).toReceivedOutput = td.toReceivedOutput := by
  unfold TransferDetails.unconfirmSpend
  split <;> rfl

/-- A detach keeps what is below the height, and nothing else. -/
theorem detachBlockchain_spec {includingHeight : Nat} (ordered : Ordered w)
    (detached : detachBlockchain w includingHeight = some w') :
    w'.outputs = (w.outputs.filter fun output => output.blockHeight < includingHeight) ∧
      w'.transferHistory = (w.transferHistory.filter fun wti => wti.height < includingHeight) ∧
      w'.payments = (w.payments.filter fun p => p.2.blockHeight < includingHeight) ∧
      w'.currentSize = includingHeight := by
  obtain ⟨keyImages, -, rfl⟩ := Option.map_eq_some_iff.mp detached
  refine ⟨?_, ?_, rfl, rfl⟩
  · have inOrder : (w.transfers.map fun e => e.2.blockHeight).Pairwise (· ≤ ·) := by
      simpa [WalletState.outputs, List.map_map, Function.comp_def] using ordered.outputs
    simp only [WalletState.outputs]
    rw [takeWhile_eq_filter (fun e : Nat × TransferDetails => e.2.blockHeight)
      includingHeight inOrder, List.filter_map, List.map_map]
    apply List.map_congr_left
    intro e _
    exact unconfirmSpend_toReceivedOutput e.2 includingHeight
  · exact rdropWhile_eq_filter (fun wti : TransferInfo => wti.height) includingHeight
      ordered.history

theorem sublist_filter_below {entered outputs : List ReceivedOutput} {height bound : Nat}
    {txHash : Hash} (sublist : entered.Sublist outputs)
    (isFrom : ∀ output ∈ entered, output.IsFrom txHash height) (below : height < bound) :
    entered.Sublist (outputs.filter fun output => output.blockHeight < bound) := by
  have all : (entered.filter fun output => output.blockHeight < bound) = entered := by
    apply List.filter_eq_self.mpr
    intro output inside
    rw [(isFrom output inside).2]
    exact decide_eq_true below
  rw [← all]
  exact sublist.filter _

theorem detachBlockchain_keeps {includingHeight : Nat} (ordered : Ordered w)
    (incomes : IncomesEntered w) (detached : detachBlockchain w includingHeight = some w') :
    Ordered w' ∧ IncomesEntered w' := by
  obtain ⟨outputs, history, payments, currentSize⟩ := detachBlockchain_spec ordered detached
  refine ⟨⟨?_, ?_, ?_, ?_⟩, ⟨?_, ?_⟩⟩
  · rw [outputs]
    exact ordered.outputs.sublist (List.filter_sublist.map _)
  · rw [history]
    exact ordered.history.sublist (List.filter_sublist.map _)
  · intro output inside
    rw [outputs] at inside
    rw [currentSize]
    exact of_decide_eq_true (List.mem_filter.mp inside).2
  · intro wti inside
    rw [history] at inside
    rw [currentSize]
    exact of_decide_eq_true (List.mem_filter.mp inside).2
  · intro wti inside
    rw [history] at inside
    obtain ⟨before, below⟩ := List.mem_filter.mp inside
    obtain ⟨entered, sublist, isFrom, rest⟩ := incomes.history wti before
    rw [outputs]
    exact ⟨entered, sublist_filter_below sublist isFrom (of_decide_eq_true below), isFrom, rest⟩
  · intro p inside
    rw [payments] at inside
    obtain ⟨before, below⟩ := List.mem_filter.mp inside
    obtain ⟨entered, sublist, isFrom, rest⟩ := incomes.payments p before
    rw [outputs]
    exact ⟨entered, sublist_filter_below sublist isFrom (of_decide_eq_true below), isFrom, rest⟩

/-! ## Every run -/

theorem newBlock_cases {b : Block} (processed : step generateKeyImage w (.newBlock b) = some w') :
    ∃ next, (if w.minimumHeight < b.height then
        b.txs.foldlM (processNewTransaction generateKeyImage b.hf6Active b.height) w = some next
      else next = w) ∧ w' = { next with currentSize := b.height + 1 } ∧
        w.currentSize ≤ b.height + 1 := by
  simp only [step] at processed
  split at processed
  · next comes =>
      unfold processNewBlockchainEntry at processed
      split at processed
      · cases processed
      · obtain ⟨next, txs, done⟩ := Option.bind_eq_some_iff.mp processed
        split at done
        · cases done
        · refine ⟨next, ?_, (Option.some.inj done).symm, by omega⟩
          split at txs
          · next above =>
              rw [if_pos above]
              exact txs
          · next notAbove =>
              rw [if_neg notAbove]
              exact (Option.some.inj txs).symm
  · cases processed

theorem genesis_cases {genesis : Tx}
    (processed : step generateKeyImage w (.genesis genesis) = some w') :
    w.currentSize = 1 ∧
      (w' = w ∨ processNewTransaction generateKeyImage false 0 w genesis = some w') := by
  simp only [step, processGenesisIfNeeded] at processed
  split at processed
  · next fresh =>
      refine ⟨fresh, ?_⟩
      split at processed
      · exact .inl (Option.some.inj processed).symm
      · split at processed
        · cases processed
        · have same : { w with currentSize := 1 } = w := by rw [← fresh]
          rw [same] at processed
          exact .inr processed
  · cases processed

theorem newBlock_grows {b : Block} (processed : step generateKeyImage w (.newBlock b) = some w') :
    ∃ next, Grows b.height w next ∧ w' = { next with currentSize := b.height + 1 } ∧
      w.currentSize ≤ b.height + 1 := by
  obtain ⟨next, txs, same, above⟩ := newBlock_cases generateKeyImage processed
  refine ⟨next, ?_, same, above⟩
  split at txs
  · exact processTransactions_grows generateKeyImage txs
  · rw [txs]
    exact .refl _ _

theorem genesis_grows {genesis : Tx}
    (processed : step generateKeyImage w (.genesis genesis) = some w') :
    w.currentSize = 1 ∧ Grows 0 w w' := by
  obtain ⟨fresh, same | added⟩ := genesis_cases generateKeyImage processed
  · rw [same]
    exact ⟨fresh, .refl 0 _⟩
  · exact ⟨fresh, processNewTransaction_grows generateKeyImage added⟩

/-- Learning key images changes none of the records that a credit is read from. -/
structure SameCredits (w w' : WalletState) : Prop where
  outputs : w'.outputs = w.outputs
  transferHistory : w'.transferHistory = w.transferHistory
  payments : w'.payments = w.payments
  currentSize : w'.currentSize = w.currentSize
  watchOnly : w'.watchOnly = w.watchOnly

theorem SameCredits.refl (w : WalletState) : SameCredits w w := by
  constructor <;> rfl

theorem SameCredits.trans (first : SameCredits w w')
    (second : SameCredits w' w'') : SameCredits w w'' where
  outputs := second.outputs.trans first.outputs
  transferHistory := second.transferHistory.trans first.transferHistory
  payments := second.payments.trans first.payments
  currentSize := second.currentSize.trans first.currentSize
  watchOnly := second.watchOnly.trans first.watchOnly

theorem addPendingKeyImages_same (pairs : List (PublicKey × KeyImage)) (w : WalletState) :
    SameCredits w (pairs.foldl addPendingKeyImage w) := by
  induction pairs generalizing w with
  | nil => exact .refl w
  | cons pair rest inductionHypothesis =>
      rw [List.foldl_cons]
      refine SameCredits.trans ?_ (inductionHypothesis (addPendingKeyImage w pair))
      unfold addPendingKeyImage
      split
      · exact .refl w
      · constructor <;> rfl

theorem associateKeyImages_same {pairs : List (Nat × KeyImage)}
    (done : pairs.foldlM associateKeyImage w = some w') :
    SameCredits w w' := by
  induction pairs generalizing w with
  | nil =>
      cases done
      exact .refl _
  | cons pair rest inductionHypothesis =>
      rw [List.foldlM_cons] at done
      obtain ⟨next, first, later⟩ := Option.bind_eq_some_iff.mp done
      refine SameCredits.trans ?_ (inductionHypothesis later)
      unfold associateKeyImage at first
      split at first
      · cases first
        refine ⟨?_, rfl, rfl, rfl, rfl⟩
        exact modifyTransfer_outputs w pair.1 (f := fun td => { td with keyImage := some pair.2 })
          fun _ => rfl
      · cases first

theorem submitTransfer_same {outKeyImages : List (PublicKey × KeyImage)}
    {inputKeyImages : List (Nat × KeyImage)}
    (submitted : submitTransfer w outKeyImages inputKeyImages = some w') :
    w.watchOnly = true ∧ SameCredits w w' := by
  unfold submitTransfer at submitted
  split at submitted
  · next isWatchOnly =>
      exact ⟨isWatchOnly,
        (addPendingKeyImages_same outKeyImages w).trans (associateKeyImages_same submitted)⟩
  · cases submitted

theorem step_incomes {request : Request} (ordered : Ordered w) (incomes : IncomesEntered w)
    (stepped : step generateKeyImage w request = some w') : Ordered w' ∧ IncomesEntered w' := by
  cases request with
  | genesis tx =>
      obtain ⟨fresh, grows⟩ := genesis_grows generateKeyImage stepped
      have inOrder := grows.ordered ordered (by omega)
      have size : w'.currentSize = 1 := grows.currentSize.trans fresh
      have same : { w' with currentSize := 0 + 1 } = w' := by rw [Nat.zero_add, ← size]
      rw [same] at inOrder
      exact ⟨inOrder, grows.incomes incomes⟩
  | newBlock b =>
      obtain ⟨next, grows, rfl, above⟩ := newBlock_grows generateKeyImage stepped
      have isIn := grows.incomes incomes
      exact ⟨grows.ordered ordered above, isIn.history, isIn.payments⟩
  | detach includingHeight =>
      simp only [step] at stepped
      split at stepped
      · exact detachBlockchain_keeps ordered incomes stepped
      · cases stepped
  | submitTransfer outKeyImages inputKeyImages =>
      obtain ⟨-, same⟩ := submitTransfer_same stepped
      constructor
      · constructor
        · rw [same.outputs]
          exact ordered.outputs
        · rw [same.transferHistory]
          exact ordered.history
        · rw [same.outputs, same.currentSize]
          exact ordered.outputsBelow
        · rw [same.transferHistory, same.currentSize]
          exact ordered.historyBelow
      · constructor
        · rw [same.outputs, same.transferHistory]
          exact incomes.history
        · rw [same.outputs, same.payments]
          exact incomes.payments

end Zano.Wallet.ReceivedOutputs
