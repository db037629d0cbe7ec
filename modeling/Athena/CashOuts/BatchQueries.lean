import Athena.CashOuts.Store
import Athena.Lib.Numeral

/-!
# Statements on a Cash Out batch

The checks of `store/position_cash_out_batches.go` on what a request brings, and the rows
that its `UPDATE` statements write.  The condition of a statement is checked by the
transaction that runs it, which holds the row of the batch locked since it read it.
-/

namespace Athena.CashOuts

open Athena.Lib

/-! ## Requests -/

def maxPositionCashOutBatchWallets : ℕ := 20

def maxPositionCashOutBatchItems : ℕ := 1000

def maxPositionCashOutBatchTextLength : ℕ := 500

def Reason : Type := { code : String // code ≠ "" }

instance : DecidableEq Reason := inferInstanceAs (DecidableEq { code : String // code ≠ "" })

/-- `normalizePositionCashOutCode` of a code that is required. -/
def requiredCode (value : String) : Except StoreError Reason :=
  if h : validCode value true ∧ value ≠ "" then .ok ⟨value, h.2⟩ else .error .invalid

def batchTerminated : Reason := ⟨"BATCH_TERMINATED", by decide⟩

/-- A Wallet of a batch that is to be created, `PositionCashOutBatchWalletInput`. -/
structure WalletInput extends Display where
  walletId : ℕ
  address : String
  deriving DecidableEq

def WalletInput.normalize (w : WalletInput) : WalletInput :=
  { w with
    remark := Text.trimSpace w.remark, avatarKind := Text.trimSpace w.avatarKind
    avatarPresetId := Text.trimSpace w.avatarPresetId, avatarUrl := Text.trimSpace w.avatarUrl }

def Display.valid (d : Display) : Bool :=
  d.remark.length ≤ maxPositionCashOutBatchTextLength &&
    d.avatarKind.utf8ByteSize ≤ maxPositionCashOutCodeLength &&
    d.avatarPresetId.utf8ByteSize ≤ maxPositionCashOutCodeLength &&
    d.avatarUrl.length ≤ maxPositionCashOutBatchTextLength

def normalizePositionCashOutBatchWalletInputs (inputs : List WalletInput) :
    Except StoreError (List WalletInput) := do
  ensure (0 < inputs.length ∧ inputs.length ≤ maxPositionCashOutBatchWallets) .invalid
  let wallets := inputs.map WalletInput.normalize
  ensure (∀ w ∈ wallets, validWalletReference w.walletId w.address) .invalid
  ensure (wallets.map fun w => w.walletId).Nodup .invalid
  ensure (wallets.map fun w => w.address).Nodup .invalid
  ensure (∀ w ∈ wallets, w.toDisplay.valid) .invalid
  pure wallets

/-- A position that is to become an item, `PositionCashOutBatchItemInput`. -/
structure ItemInput extends Position where
  walletOrdinal : ℕ
  positionOrdinal : ℕ
  walletRemark : String
  marketTitle : String
  providerState : String
  deriving DecidableEq

namespace ItemInput

def normalize (i : ItemInput) : ItemInput := { i with marketTitle := Text.trimSpace i.marketTitle }

def matchesWallet (i : ItemInput) (w : BatchWallet) : Bool :=
  i.walletId = w.walletId && i.walletAddress = w.address &&
    i.credentialVersion = w.credentialVersion && i.walletRemark = w.remark

def valid (i : ItemInput) : Bool :=
  validPublicKey i.positionPubkey true && validPublicKey i.positionRequestPubkey false &&
    validPublicKey i.marketConditionId true && i.marketTitle ≠ "" &&
    i.marketTitle.length ≤ maxPositionCashOutBatchTextLength && 0 < i.positionCreatedAt &&
    validShares i.shares && validCode i.providerState false

/-- The item may follow `last`: Wallets in their order, and the positions of a Wallet
numbered from 1 and newest first. -/
def follows (i : ItemInput) : Option ItemInput → Bool
  | none => i.positionOrdinal = 1
  | some last =>
    if i.walletOrdinal = last.walletOrdinal then
      i.positionOrdinal = last.positionOrdinal + 1 && i.positionCreatedAt ≤ last.positionCreatedAt
    else last.walletOrdinal < i.walletOrdinal && i.positionOrdinal = 1

def item (i : ItemInput) (ordinal : ℕ) : Item where
  toItemRow := { i with ordinal }
  checked := ⟨nofun, rfl, nofun⟩

end ItemInput

/-- The loop of `normalizePositionCashOutBatchItems`. -/
def validItems (wallets : List BatchWallet) :
    Option ItemInput → List String → List ItemInput → Bool
  | _, _, [] => true
  | last, seen, i :: rest =>
    ((wallets.find? fun w => w.ordinal = i.walletOrdinal).any i.matchesWallet) &&
      i.follows last && i.valid && i.positionPubkey ∉ seen &&
      validItems wallets (some i) (i.positionPubkey :: seen) rest

def normalizePositionCashOutBatchItems (inputs : List ItemInput) (wallets : List BatchWallet) :
    Except StoreError (List ItemInput) := do
  ensure (0 < inputs.length ∧ inputs.length ≤ maxPositionCashOutBatchItems) .invalid
  ensure (0 < wallets.length ∧ wallets.length ≤ maxPositionCashOutBatchWallets) .batchClaim
  let items := inputs.map ItemInput.normalize
  ensure (validItems wallets none [] items) .invalid
  ensure ((items.map fun i => i.walletOrdinal).dedup.length = wallets.length) .invalid
  pure items

/-! ## Balances -/

def positionCashOutBatchUSDCMint : String := "EPjFWdd5AufqSSqeM2qN1xzybapC8G4wEGGkZwyTDt1v"

/-- `normalizePositionCashOutBatchBalance`, as a test: what passes is not changed. -/
def validBalance (e : Balance) : Bool :=
  e.mint = positionCashOutBatchUSDCMint && e.decimals = 6 && e.observedSlot ≠ 0 &&
    e.observedSlot ≤ 2 ^ 63 - 1 && e.atomicAmount.utf8ByteSize ≠ 0 &&
    e.atomicAmount.utf8ByteSize ≤ maxPositionCashOutDecimalLength &&
    (e.atomicAmount.toList.head? ≠ some '0' || e.atomicAmount = "0") &&
    (Numeral.readInt? e.atomicAmount).any fun amount => 0 ≤ amount

/-- `SetString(amount, 10)`, of an amount that was accepted. -/
def Balance.amount (e : Balance) : ℤ := (Numeral.readInt? e.atomicAmount).getD 0

def balanceGate (baseline observed : Balance) : Bool :=
  observed.mint = baseline.mint && observed.decimals = baseline.decimals &&
    baseline.observedSlot < observed.observedSlot && baseline.amount < observed.amount

def balanceDelta (baseline observed : Balance) : String :=
  Numeral.showInt (observed.amount - baseline.amount)

/-! ## Statements on items -/

namespace Queries

/-- `MarkCurrentPositionCashOutBatchItemNotExecuted`, and
`MarkRemainingPositionCashOutBatchItemsNotExecuted` for one item. -/
def markNotExecuted (reason : Reason) (now : Time) (i : Item) : Item where
  toItemRow := { i.toItemRow with
    state := .notExecuted, reasonCode := reason.val, completedAt := some now }
  checked := ⟨nofun, rfl, fun _ => reason.property⟩

/-- `MarkRemainingPositionCashOutBatchItemsNotExecuted` -/
def markRemaining (items : Table (fun i : Item => i.ordinal)) (reason : Reason) (now : Time) :
    Table (fun i : Item => i.ordinal) :=
  items.update (fun i => if i.state = .pending then markNotExecuted reason now i else i)
    (by intro i; split <;> rfl)

/-- The number of items that are still `PENDING`. -/
def pendingCount (items : Table (fun i : Item => i.ordinal)) : ℕ :=
  items.rows.countP fun i => i.state = .pending

/-- `ActivatePositionCashOutBatchItem` -/
def activatedItem (i : ItemRow) (cashOut : UUID) (providerState : String) : ItemRow :=
  { i with state := .preflighting, reasonCode := "", child := some cashOut, providerState }

/-- `SetPositionCashOutBatchItemBalanceBaseline` -/
def baselineItem (i : ItemRow) (baseline : Balance) : ItemRow :=
  { i with state := .closing, baseline := some baseline }

/-- `RecordPositionCashOutBatchItemState` -/
def recordedItem (i : ItemRow) (next : ItemState) (reason providerState : String)
    (deadline : Option Time) (now : Time) : ItemRow :=
  { i with
    state := next, reasonCode := reason, providerState
    balanceStartedAt :=
      if next = .awaitingBalance then i.balanceStartedAt.or (some now) else i.balanceStartedAt
    balanceDeadlineAt :=
      if next = .awaitingBalance then i.balanceDeadlineAt.or deadline else i.balanceDeadlineAt }

/-- `RecordPositionCashOutBatchObservedBalance` -/
def observedItem (i : ItemRow) (observed : Balance) : ItemRow :=
  { i with observed := some observed }

/-- `CompletePositionCashOutBatchItemBalance` -/
def completedItem (i : ItemRow) (observed : Balance) (delta : String) (now : Time) : ItemRow :=
  { i with
    state := .completed, reasonCode := "", observed := some observed, delta
    balanceConfirmedAt := some now, completedAt := some now }

/-- `MarkPositionCashOutBatchItemBlocking` -/
def blockedItem (i : ItemRow) (next : ItemState) (reason : Reason) (now : Time) : ItemRow :=
  { i with
    state := next, reasonCode := reason.val
    completedAt := if next = .failed then some now else none }

/-! ## Statements on batches -/

/-- `EndPositionCashOutBatchAuthorization` and `SupersedePositionCashOutBatchAuthorization` -/
def endAuthorizations (l : List Authorization) (state : AuthorizationState) (reason : String)
    (now : Time) : List Authorization :=
  l.map fun a => a.finish state reason now

/-- `CompletePositionCashOutBatchBuild` -/
def builtBatch (b : BatchRow) (positionCount : ℕ) (authorizationExpiresAt now : Time) : BatchRow :=
  { b with
    state := .awaitingAuthorization, revision := b.revision + 1, buildStage := "COMPLETED"
    frozen := true, positionCount, nextItem := some 1, currentItem := none
    authorizationExpiresAt, nextPollAt := none, claim := none, updatedAt := now }

/-- `FailPositionCashOutBatchBuild`, with the release of the Wallet locks. -/
def failedBuild (b : BatchRow) (reason : Reason) (buildStage : String) (now : Time) : BatchRow :=
  { b with
    state := .failed, revision := b.revision + 1, reasonCode := reason.val, buildStage
    nextPollAt := none, claim := none, completedAt := some now, updatedAt := now, locks := [] }

/-- `QueueAuthorizedPositionCashOutBatch` -/
def queuedBatch (b : BatchRow) (now : Time) : BatchRow :=
  { b with
    state := if b.state = .awaitingAuthorization then .queued else b.state
    revision := b.revision + 1, reasonCode := "", authorizedAt := some now
    nextPollAt := if b.state = .awaitingAuthorization then some now else b.nextPollAt
    updatedAt := now }

/-- `ListRecoverablePositionCashOutBatchKeys`, its condition. -/
def listable (b : BatchRow) (now : Time) : Bool :=
  (match b.state with
    | .building | .queued | .running | .pauseRequested => b.nextPollAt.all fun p => p ≤ now
    | .terminateRequested => (b.nextPollAt.any fun p => p ≤ now) || b.checkRequestedAt.isSome
    | .reconciliationRequired | .paused => b.checkRequestedAt.isSome
    | _ => false) &&
  claimable b.claim now

/-- `ClaimPositionCashOutBatch`, its condition. -/
def claimableBatch (b : BatchRow) (now : Time) : Bool :=
  (match b.state with
    | .building | .queued | .running | .pauseRequested => true
    | .terminateRequested => b.nextPollAt.isSome || b.checkRequestedAt.isSome
    | .reconciliationRequired | .paused => b.checkRequestedAt.isSome
    | _ => false) &&
  ((b.nextPollAt.all fun p => p ≤ now) || b.checkRequestedAt.isSome) && claimable b.claim now

/-- `ClaimPositionCashOutBatch` -/
def claimedBatch (b : BatchRow) (k : Claim) (now : Time) : BatchRow :=
  { b with
    state := if b.state = .queued then .running else b.state
    revision := b.revision + 1
    executionStartedAt :=
      if b.state = .queued then b.executionStartedAt.or (some now) else b.executionStartedAt
    claim := some k, updatedAt := now }

def renewable : BatchState → Bool
  | .building | .running | .pauseRequested | .paused | .terminateRequested
  | .reconciliationRequired => true
  | _ => false

/-- Release the claim until the next poll: `SetPositionCashOutBatchNextPoll`,
`DeferPositionCashOutBatchPreflight` and `DeferPositionCashOutBatchCheck`. -/
def scheduledBatch (b : BatchRow) (nextPollAt checkRequestedAt : Option Time) (now : Time) :
    BatchRow :=
  { b with nextPollAt, checkRequestedAt, claim := none, updatedAt := now }

/-- `ResumePositionCashOutBatchBalanceAfterReconciliation` -/
def resumedBatch (b : BatchRow) (nextPollAt now : Time) : BatchRow :=
  { b with
    state := if b.state = .terminateRequested then .terminateRequested else .pauseRequested
    revision := b.revision + 1, reasonCode := "", nextPollAt := some nextPollAt
    checkRequestedAt := none, claim := none, updatedAt := now }

/-- `SetPositionCashOutBatchCurrentItem` -/
def activatedBatch (b : BatchRow) (ordinal : ℕ) (nextPollAt now : Time) : BatchRow :=
  { b with
    currentItem := some ordinal, nextPollAt := some nextPollAt, claim := none, updatedAt := now }

/-- `TouchPositionCashOutBatchAfterDispatch` -/
def touchedBatch (b : BatchRow) (nextPollAt now : Time) : BatchRow :=
  { b with revision := b.revision + 1, nextPollAt := some nextPollAt, updatedAt := now }

/-- `AdvancePositionCashOutBatchAfterBalance` -/
def advancedBatch (b : BatchRow) (nextItem : ℕ) (now : Time) : BatchRow :=
  { b with
    revision := b.revision + 1, completedCount := b.completedCount + 1, currentItem := none
    nextItem := if b.completedCount + 1 < b.positionCount then some nextItem else none
    state :=
      match b.state with
      | .paused | .reconciliationRequired | .pauseRequested => .paused
      | .terminateRequested => .terminateRequested
      | _ => .running
    reasonCode :=
      match b.state with
      | .paused | .reconciliationRequired => "BALANCE_CONFIRMED"
      | .pauseRequested => ""
      | _ => b.reasonCode
    nextPollAt :=
      match b.state with
      | .paused | .reconciliationRequired | .pauseRequested => none
      | _ => some now
    checkRequestedAt := none, claim := none, updatedAt := now }

/-- `PausePositionCashOutBatchForBalance` -/
def pausedForBalance (b : BatchRow) (now : Time) : BatchRow :=
  { b with
    state := if b.state = .terminateRequested then .terminateRequested else .paused
    revision := b.revision + 1, reasonCode := "USDC_CREDIT_NOT_OBSERVED", nextPollAt := none
    checkRequestedAt := none, claim := none, updatedAt := now }

/-- `MarkPositionCashOutBatchBlocking` for a state other than `FAILED`. -/
def blockedBatch (b : BatchRow) (next : BatchState) (ordinal : ℕ) (reason : Reason) (now : Time) :
    BatchRow :=
  { b with
    state := next, revision := b.revision + 1, reasonCode := reason.val, nextPollAt := none
    checkRequestedAt := none, claim := none, currentItem := b.currentItem.or (some ordinal)
    completedAt := none, updatedAt := now }

/-- `MarkPositionCashOutBatchBlocking` for `FAILED`, with the release of the Wallet locks
and the end of the authorization. -/
def failedBatch (b : BatchRow) (notExecutedCount : ℕ) (reason : Reason) (now : Time) : BatchRow :=
  { b with
    state := .failed, revision := b.revision + 1, reasonCode := reason.val, notExecutedCount
    nextPollAt := none, checkRequestedAt := none, claim := none, currentItem := none
    nextItem := none, completedAt := some now, updatedAt := now, locks := []
    authorizations := endAuthorizations b.authorizations .consumed reason.val now }

/-- What a command of the user does to the columns of a batch. -/
structure Control where
  next : BatchState
  reasonCode : String
  nextPollAt : Option Time
  checkRequestedAt : Option Time
  deriving DecidableEq

def terminable : BatchState → Bool
  | .queued | .running | .pauseRequested | .paused | .reconciliationRequired
  | .terminateRequested => true
  | _ => false

def positionCashOutBatchControlTransition (b : BatchRow) (kind : BatchCommandKind) (now : Time) :
    Except StoreError Control :=
  match kind with
  | .cancel => do
      ensure (b.state = .building ∨ b.state = .awaitingAuthorization) .batchRevision
      pure ⟨.cancelled, "", none, none⟩
  | .pause => do
      ensure (b.state = .running ∨ b.state = .queued) .batchRevision
      pure (if b.currentItem.isSome then ⟨.pauseRequested, "", b.nextPollAt, none⟩
        else ⟨.paused, "", none, none⟩)
  | .continue_ => do
      ensure (b.state = .paused ∧ b.currentItem = none) .batchRevision
      pure ⟨.queued, "", some now, none⟩
  | .terminate => do
      ensure (terminable b.state) .batchRevision
      pure (if b.currentItem.isSome then ⟨.terminateRequested, b.reasonCode, b.nextPollAt, none⟩
        else ⟨.terminated, "", none, none⟩)
  | .checkStatus => do
      ensure ((b.state = .paused ∨ b.state = .reconciliationRequired ∨
        b.state = .terminateRequested) ∧ b.currentItem.isSome) .batchRevision
      pure ⟨b.state, b.reasonCode, some now, some now⟩
  | .create | .authorize => throw .batchRevision

/-- `ApplyPositionCashOutBatchControl` -/
def controlledBatch (b : BatchRow) (k : Control) (now : Time) : BatchRow :=
  { b with
    state := k.next, revision := b.revision + 1, reasonCode := k.reasonCode
    nextPollAt := k.nextPollAt, checkRequestedAt := k.checkRequestedAt
    completedAt :=
      if k.next = .terminated ∨ k.next = .cancelled then some now else b.completedAt
    updatedAt := now }

/-- `CompletePositionCashOutBatch` -/
def completedBatch (b : BatchRow) (terminal : BatchState) (notExecutedCount : ℕ) (now : Time) :
    BatchRow :=
  { b with
    state := terminal, revision := b.revision + 1, reasonCode := "", notExecutedCount
    nextItem := none, currentItem := none, nextPollAt := none, checkRequestedAt := none
    claim := none, completedAt := some now, updatedAt := now }

/-- Release the Wallet locks of a batch that has ended, and end its authorization. -/
def releasedBatch (b : BatchRow) (reason : String) (now : Time) : BatchRow :=
  { b with
    locks := [], authorizations := endAuthorizations b.authorizations .consumed reason now }

/-- `PausePositionCashOutBatchAtBoundary` -/
def pausedAtBoundary (b : BatchRow) (now : Time) : BatchRow :=
  { b with
    state := .paused, revision := b.revision + 1, reasonCode := "", nextPollAt := none
    checkRequestedAt := none, claim := none, updatedAt := now }

/-- `ExpirePositionCashOutBatches`, with the release of the Wallet locks. -/
def expiredBatch (b : BatchRow) (now : Time) : BatchRow :=
  { b with
    state := .expired, revision := b.revision + 1, reasonCode := "AUTHORIZATION_EXPIRED"
    nextPollAt := none, checkRequestedAt := none, claim := none, completedAt := some now
    updatedAt := now, locks := [] }

/-- `FailUndispatchedPositionCashOutBatchChild` -/
def failedChild (c : CashOutRow) (now : Time) : CashOutRow :=
  { c with
    state := .failed, revision := c.revision + 1, reasonCode := "BATCH_TERMINATED"
    nextPollAt := none, claim := none, completedAt := c.completedAt.or (some now)
    updatedAt := now }

end Queries
end Athena.CashOuts
