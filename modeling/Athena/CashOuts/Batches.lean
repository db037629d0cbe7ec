import Athena.CashOuts.BatchQueries
import Mathlib.Data.List.Sort

/-!
# The Cash Out batch store

The transactions of `store/position_cash_out_batches.go`.  A batch closes the positions
of its Wallets one after another: the item that it works on is its current item, whose
Close is a child Cash Out, and the batch goes on to the next item only after an observed
balance confirmed the Close.
-/

namespace Athena.CashOuts.Store

open Athena.Lib Queries

/-! ## Creation and build -/

/-- The request of `CreatePositionCashOutBatch`. -/
structure BatchCreateRequest where
  owner : UUID
  command : UUID
  wallets : List WalletInput
  authorizationExpiresAt : Time
  deriving DecidableEq

/-- The Wallet rows of a batch, numbered from `ordinal`. -/
def batchWallets (connections : List Connection) (ordinal : ℕ) :
    List WalletInput → Except StoreError (List BatchWallet)
  | [] => pure []
  | w :: rest => do
      let credentialVersion ← activeVersion connections w.walletId w.address
      let wallets ← batchWallets connections (ordinal + 1) rest
      pure ({ w with ordinal, credentialVersion } :: wallets)

/-- The row that `CreatePositionCashOutBatch` inserts. -/
def BatchCreateRequest.row (req : BatchCreateRequest) (id : UUID) (wallets : List BatchWallet)
    (now : Time) : BatchRow where
  id := id
  owner := req.owner
  authorizationExpiresAt := req.authorizationExpiresAt
  nextPollAt := some now
  createdAt := now
  updatedAt := now
  wallets := wallets
  locks := wallets.map fun w => w.walletId

def createPositionCashOutBatch (req : BatchCreateRequest) (adm : Admission) (id : UUID)
    (t : Tables) (now : Time) : Except StoreError (Tables × Batch) := do
  let wallets ← normalizePositionCashOutBatchWalletInputs req.wallets
  ensure (now < req.authorizationExpiresAt) .invalid
  let walletIds := (wallets.map fun w => w.walletId).insertionSort (· ≤ ·)
  match t.batchCommands.find? fun k => k.id = req.command with
  | some k =>
    ensure (k.owner = req.owner ∧ k.kind = .create ∧ k.request = .create walletIds)
      .batchCommandConflict
    let b ← found (t.batch k.operation) .batchNotFound
    pure (t, b)
  | none =>
    ensure (∀ w ∈ wallets, adm.selects w.walletId w.address) .walletNotSelected
    ensure (adm.executionLocks.countP (fun w => w ∈ walletIds) = 0) .batchExecutionActive
    ensure (t.countActivePositionCashOutsForWallets walletIds = 0) .batchCashOutActive
    ensure (t.countActivePositionCashOutBatchWalletLocks walletIds = 0) .batchWalletActive
    let rows ← batchWallets adm.connections 1 wallets
    ensure (∀ b ∈ t.batches.rows, b.state.terminal ∨ b.owner ≠ req.owner) .batchOwnerActive
    let b ← Batch.write (req.row id rows now)
    let batches ← found (t.batches.insert? b) .constraint
    pure ({ t with
      batches, batchCommands := t.batchCommands ++ [⟨req.command, id, req.owner, .create,
        .create walletIds, b.revision⟩] }, b)

def onBatch (t : Tables) (id : UUID) (e : StoreError) (f : Batch → Except StoreError BatchRow) :
    Except StoreError (Tables × Batch) := do
  let b ← found (t.batch id) e
  let row ← f b
  let b ← Batch.write row
  pure (t.putBatch b, b)

/-- The request of `CompletePositionCashOutBatchBuild`. -/
structure BuildRequest where
  batch : UUID
  claim : ℕ
  authorizationExpiresAt : Time
  items : List ItemInput
  deriving DecidableEq

def countedWallets (wallets : List BatchWallet) (items : List ItemInput) : List BatchWallet :=
  wallets.map fun w =>
    { w with
      positionCount := items.countP fun i => i.walletOrdinal = w.ordinal, completedCount := 0 }

def completePositionCashOutBatchBuild (req : BuildRequest) (t : Tables) (now : Time) :
    Except StoreError (Tables × Batch) := do
  ensure (now < req.authorizationExpiresAt) .invalid
  onBatch t req.batch .batchNotFound fun b => do
    ensure (b.state = .building ∧ heldBy b.claim req.claim) .batchClaim
    let inputs ← normalizePositionCashOutBatchItems req.items b.wallets
    let items ← found (Table.ofList? (inputs.mapIdx fun k i => i.item (k + 1))) .constraint
    pure (builtBatch { b.toBatchRow with items, wallets := countedWallets b.wallets inputs }
      inputs.length req.authorizationExpiresAt now)

def failPositionCashOutBatchBuild (batch : UUID) (claim : ℕ) (reasonCode buildStage : String)
    (t : Tables) (now : Time) : Except StoreError (Tables × Batch) := do
  let reason ← requiredCode reasonCode
  ensure (validCode buildStage true) .invalid
  onBatch t batch .batchNotFound fun b => do
    ensure (b.state = .building ∧ heldBy b.claim claim) .batchClaim
    pure (failedBuild b.toBatchRow reason buildStage now)

/-! ## Commands of the user -/

/-- The request of `AuthorizePositionCashOutBatch`. -/
structure BatchAuthorizeRequest where
  owner : UUID
  batch : UUID
  command : UUID
  expectedRevision : ℕ
  proofKind : String
  session : Digest
  accessRevision : ℕ
  authorization : UUID
  deriving DecidableEq

def BatchAuthorizeRequest.digest (req : BatchAuthorizeRequest) : BatchCommandRequest :=
  .authorize req.batch req.expectedRevision req.proofKind req.session req.accessRevision

def BatchAuthorizeRequest.row (req : BatchAuthorizeRequest) (b : BatchRow) (now : Time) :
    BatchRow :=
  queuedBatch
    { b with
      authorizations := endAuthorizations b.authorizations .superseded "REAUTHORIZED" now ++
        [{ id := req.authorization, proofKind := req.proofKind, session := req.session
           accessRevision := req.accessRevision, authorizedAt := now }] }
    now

def authorizePositionCashOutBatch (req : BatchAuthorizeRequest) (t : Tables) (now : Time) :
    Except StoreError (Tables × Batch) := do
  ensure (validCode req.proofKind true ∧ 0 < req.expectedRevision ∧ 0 < req.accessRevision) .invalid
  let b ← found (t.batch req.batch) .batchNotFound
  match t.batchCommands.find? fun k => k.id = req.command with
  | some k =>
    ensure (k.owner = req.owner ∧ k.operation = req.batch ∧ k.kind = .authorize ∧
      k.request = req.digest) .batchCommandConflict
    pure (t, b)
  | none =>
    ensure (b.owner = req.owner) .batchNotFound
    ensure (b.revision = req.expectedRevision ∧
      (b.state = .awaitingAuthorization ∨ b.state = .paused)) .batchRevision
    ensure (b.state = .awaitingAuthorization → now < b.authorizationExpiresAt) .expired
    ensure b.frozen .batchRevision
    let b ← Batch.write (req.row b.toBatchRow now)
    pure ({ t.putBatch b with
      batchCommands := t.batchCommands ++ [⟨req.command, req.batch, req.owner, .authorize,
        req.digest, b.revision⟩] }, b)

/-- The request of `ControlPositionCashOutBatch`. -/
structure ControlRequest where
  owner : UUID
  batch : UUID
  command : UUID
  expectedRevision : ℕ
  kind : BatchCommandKind
  deriving DecidableEq

def ControlRequest.digest (req : ControlRequest) : BatchCommandRequest :=
  .control req.batch req.expectedRevision req.kind

def validPositionCashOutBatchControlKind : BatchCommandKind → Bool
  | .cancel | .pause | .continue_ | .terminate | .checkStatus => true
  | .create | .authorize => false

def batchEndText : BatchState → String
  | .cancelled => "CANCELLED"
  | .completed => "COMPLETED"
  | _ => "TERMINATED"

/-- The command terminates a batch that works on no item, so what is left is marked. -/
def marksRemaining (b : BatchRow) (kind : BatchCommandKind) : Bool :=
  kind = .terminate && b.currentItem.isNone

def markedCount (b : BatchRow) (kind : BatchCommandKind) : ℕ :=
  if marksRemaining b kind then pendingCount b.items else 0

/-- The row that `ControlPositionCashOutBatch` writes.  The number of marked items is
recorded when there are any. -/
def controlRow (b : BatchRow) (kind : BatchCommandKind) (k : Control) (now : Time) : BatchRow :=
  let items := if marksRemaining b kind then markRemaining b.items batchTerminated now else b.items
  let row := controlledBatch { b with items } k now
  let row :=
    if markedCount b kind ≠ 0 then completedBatch row .terminated (markedCount b kind) now else row
  if k.next.terminal then releasedBatch row (batchEndText k.next) now else row

def controlPositionCashOutBatch (req : ControlRequest) (t : Tables) (now : Time) :
    Except StoreError (Tables × Batch) := do
  ensure (0 < req.expectedRevision ∧ validPositionCashOutBatchControlKind req.kind) .invalid
  let b ← found (t.batch req.batch) .batchNotFound
  match t.batchCommands.find? fun k => k.id = req.command with
  | some k =>
    ensure (k.owner = req.owner ∧ k.operation = req.batch ∧ k.kind = req.kind ∧
      k.request = req.digest) .batchCommandConflict
    pure (t, b)
  | none =>
    ensure (b.owner = req.owner) .batchNotFound
    ensure (b.revision = req.expectedRevision ∧ b.claim = none) .batchRevision
    let k ← positionCashOutBatchControlTransition b.toBatchRow req.kind now
    let b ← Batch.write (controlRow b.toBatchRow req.kind k now)
    pure ({ t.putBatch b with
      batchCommands := t.batchCommands ++ [⟨req.command, req.batch, req.owner, req.kind,
        req.digest, b.revision⟩] }, b)

/-! ## Claims -/

def claimPositionCashOutBatch (batch : UUID) (k : Claim) (t : Tables) (now : Time) :
    Except StoreError (Tables × Batch) := do
  ensure (now < k.expiresAt) .invalid
  onBatch t batch .batchClaim fun b => do
    ensure (claimableBatch b.toBatchRow now) .batchClaim
    pure (claimedBatch b.toBatchRow k now)

def renewPositionCashOutBatchClaim (batch : UUID) (k : Claim) (t : Tables) (now : Time) :
    Except StoreError (Tables × Batch) := do
  ensure (now < k.expiresAt) .invalid
  onBatch t batch .batchClaim fun b => do
    ensure (leasedTo b.claim k.id now ∧ (b.claim.any fun k' => k'.owner = k.owner) ∧
      renewable b.state) .batchClaim
    pure { b.toBatchRow with claim := some k, updatedAt := now }

def deferPositionCashOutBatchPreflight (ref : ItemRef) (claim : ℕ) (t : Tables) (now : Time) :
    Except StoreError (Tables × Batch) :=
  onBatch t ref.batch .batchClaim fun b => do
    let i ← found (b.items.get? ref.ordinal) .batchClaim
    ensure (b.state = .running ∧ heldBy b.claim claim ∧ b.currentItem = none ∧
      b.nextItem = some i.ordinal ∧ i.state = .pending ∧ i.child = none) .batchClaim
    pure (scheduledBatch b.toBatchRow (some (now + second)) none now)

def deferPositionCashOutBatchCheck (batch : UUID) (claim : ℕ) (t : Tables) (now : Time) :
    Except StoreError (Tables × Batch) :=
  onBatch t batch .batchClaim fun b => do
    let i ← found (b.currentItem.bind b.items.get?) .batchClaim
    ensure ((b.state = .paused ∨ b.state = .reconciliationRequired ∨
        b.state = .terminateRequested) ∧
      heldBy b.claim claim ∧ i.state = .reconciliationRequired ∧ i.child.isSome) .batchClaim
    pure (scheduledBatch b.toBatchRow (some (now + second)) (some now) now)

/-! ## The item that the batch works on -/

/-- The request of `ActivatePositionCashOutBatchItem`. -/
structure ActivateRequest where
  item : ItemRef
  claim : ℕ
  cashOut : UUID
  providerState : String
  nextPollAt : Time
  deriving DecidableEq

/-- `9999-12-31 23:59:59+00`, the deadline of a Cash Out that belongs to a batch. -/
def childDeadline : Time := 253402300799 * second

/-- The row that `CreateBatchChildPositionCashOut` inserts. -/
def childRow (b : BatchRow) (i : ItemRow) (cashOut : UUID) (providerState : String) (now : Time) :
    CashOutRow :=
  { i.toPosition with
    id := cashOut, owner := b.owner, state := .queued, providerState
    authorizationExpiresAt := childDeadline, executionExpiresAt := some childDeadline
    authorizedAt := some now, nextPollAt := some now, createdAt := now, updatedAt := now
    source := some ⟨b.id, i.ordinal⟩ }

def activatePositionCashOutBatchItem (req : ActivateRequest) (connections : List Connection)
    (t : Tables) (now : Time) : Except StoreError (Tables × Batch) := do
  ensure (validCode req.providerState false ∧ now < req.nextPollAt) .invalid
  let b ← found (t.batch req.item.batch) .batchNotFound
  ensure (heldBy b.claim req.claim ∧ b.currentItem = none ∧ b.state = .running) .batchClaim
  let i ← found (b.items.get? req.item.ordinal) .batchClaim
  ensure (i.state = .pending ∧ b.nextItem = some i.ordinal) .batchClaim
  let version ← activeVersion connections i.walletId i.walletAddress
  ensure (version = i.credentialVersion) .connectionChanged
  let child ← CashOut.write (childRow b.toBatchRow i.toItemRow req.cashOut req.providerState now)
  let t ← t.insertCashOut child .batchClaim .batchClaim .constraint
  ensure (i.child = none) .constraint
  let i ← Item.write (activatedItem i.toItemRow req.cashOut req.providerState)
  let b ← Batch.write (activatedBatch { b.toBatchRow with items := b.items.put i } i.ordinal
    req.nextPollAt now)
  pure (t.putBatch b, b)

/-- The request of `DispatchPositionCashOutBatchAttempt`. -/
structure BatchDispatchRequest where
  item : ItemRef
  cashOut : UUID
  attempt : UUID
  claim : ℕ
  baseline : Balance
  nextPollAt : Time
  deriving DecidableEq

def dispatchPositionCashOutBatchAttempt (req : BatchDispatchRequest) (t : Tables) (now : Time) :
    Except StoreError (Tables × Attempt) := do
  ensure (validBalance req.baseline) .invalid
  let b ← found (t.batch req.item.batch) .batchClaim
  ensure ((b.state = .running ∨ b.state = .pauseRequested) ∧ b.currentItem.isSome) .batchClaim
  let i ← found (b.items.get? req.item.ordinal) .batchClaim
  ensure (i.child = some req.cashOut ∧ b.currentItem = some i.ordinal) .batchClaim
  let c ← found (t.cashOut req.cashOut) .claim
  let (c, a) ← Queries.dispatchPositionCashOutAttempt c req.attempt req.claim now
  ensure ((i.state = .preflighting ∨ i.state = .closing) ∧ i.baseline = none) .constraint
  let i ← Item.write (baselineItem i.toItemRow req.baseline)
  let b ← Batch.write (touchedBatch { b.toBatchRow with items := b.items.put i }
    (max now req.nextPollAt) now)
  pure ((t.putCashOut c).putBatch b, a)

def validPositionCashOutBatchItemTransition (expected next : ItemState) : Bool :=
  match expected with
  | .preflighting => next = .closing || next = .awaitingPosition
  | .closing => next = .closing || next = .awaitingPosition || next = .awaitingBalance
  | .awaitingPosition => next = .awaitingPosition || next = .awaitingBalance
  | .reconciliationRequired => next = .awaitingBalance
  | _ => false

def positionCashOutBatchBalanceWait : Time := 120 * second

/-- The request of `RecordPositionCashOutBatchItemState`. -/
structure ItemStateRequest where
  item : ItemRef
  claim : ℕ
  expectedState : ItemState
  nextState : ItemState
  reasonCode : String := ""
  providerState : String := ""
  balanceDeadlineAt : Option Time := none
  nextPollAt : Time
  deriving DecidableEq

/-- The checks that `RecordPositionCashOutBatchItemState` makes before its transaction. -/
def ItemStateRequest.valid (req : ItemStateRequest) (now : Time) : Bool :=
  validPositionCashOutBatchItemTransition req.expectedState req.nextState &&
    validCode req.reasonCode (req.nextState = .failed || req.nextState = .reconciliationRequired) &&
    validCode req.providerState false &&
    (req.nextState ≠ .awaitingBalance ||
      req.balanceDeadlineAt.any fun d => d ≤ now + positionCashOutBatchBalanceWait) &&
    now < req.nextPollAt

def currentItem (b : Batch) (ref : ItemRef) (claim : ℕ) : Except StoreError Item := do
  let i ← found (b.items.get? ref.ordinal) .batchClaim
  ensure (heldBy b.claim claim ∧ b.currentItem = some i.ordinal) .batchClaim
  pure i

def recordPositionCashOutBatchItemState (req : ItemStateRequest) (t : Tables) (now : Time) :
    Except StoreError (Tables × Batch) := do
  ensure (req.valid now) .invalid
  onBatch t req.item.batch .batchNotFound fun b => do
    let i ← currentItem b req.item req.claim
    ensure (i.state = req.expectedState) .batchClaim
    let i ← Item.write (recordedItem i.toItemRow req.nextState req.reasonCode req.providerState
      req.balanceDeadlineAt now)
    let row := { b.toBatchRow with items := b.items.put i }
    if req.expectedState = .reconciliationRequired ∧ req.nextState = .awaitingBalance then do
      ensure (b.state = .paused ∨ b.state = .reconciliationRequired ∨ b.state = .terminateRequested)
        .batchClaim
      pure (resumedBatch row req.nextPollAt now)
    else pure (scheduledBatch row (some req.nextPollAt) none now)

/-! ## The balance gate -/

/-- The current item while its credit is awaited, with its baseline and its deadline. -/
def awaitingItem (b : Batch) (ref : ItemRef) (claim : ℕ) :
    Except StoreError (Item × Balance × Time) := do
  let i ← currentItem b ref claim
  ensure (i.state = .awaitingBalance) .batchClaim
  let baseline ← found i.baseline .batchClaim
  let deadline ← found i.balanceDeadlineAt .batchClaim
  pure (i, baseline, deadline)

/-- `IncrementPositionCashOutBatchWalletCompleted` -/
def incrementWallets (wallets : List BatchWallet) (ordinal : ℕ) :
    Except StoreError (List BatchWallet) := do
  ensure (wallets.countP (fun w => w.ordinal = ordinal ∧ w.completedCount < w.positionCount) = 1)
    .batchClaim
  pure (wallets.map fun w =>
    if w.ordinal = ordinal ∧ w.completedCount < w.positionCount then
      { w with completedCount := w.completedCount + 1 }
    else w)

/-- The request of `RecordPositionCashOutBatchBalance`. -/
structure BalanceRequest where
  item : ItemRef
  claim : ℕ
  observed : Balance
  timedOut : Bool
  deriving DecidableEq

def recordPositionCashOutBatchBalance (req : BalanceRequest) (t : Tables) (now : Time) :
    Except StoreError (Tables × Batch) := do
  ensure (validBalance req.observed) .invalid
  onBatch t req.item.batch .batchNotFound fun b => do
    let (i, baseline, deadline) ← awaitingItem b req.item req.claim
    if balanceGate baseline req.observed then do
      let i ← Item.write (completedItem i.toItemRow req.observed
        (balanceDelta baseline req.observed) now)
      let wallets ← incrementWallets b.wallets i.walletOrdinal
      pure (advancedBatch { b.toBatchRow with items := b.items.put i, wallets } (i.ordinal + 1) now)
    else do
      let i ← Item.write (observedItem i.toItemRow req.observed)
      let row := { b.toBatchRow with items := b.items.put i }
      pure (if req.timedOut ∨ deadline ≤ now then pausedForBalance row now
        else scheduledBatch row (some (now + 2 * second)) none now)

def deferPositionCashOutBatchBalance (ref : ItemRef) (claim : ℕ) (timedOut : Bool) (t : Tables)
    (now : Time) : Except StoreError (Tables × Batch) :=
  onBatch t ref.batch .batchNotFound fun b => do
    let (_, _, deadline) ← awaitingItem b ref claim
    pure (if timedOut ∨ deadline ≤ now then pausedForBalance b.toBatchRow now
      else scheduledBatch b.toBatchRow
        (if (b.state = .running ∨ b.state = .pauseRequested ∨ b.state = .terminateRequested) ∧
            b.reasonCode = "" then some (now + 2 * second)
          else none)
        none now)

/-! ## Blocking, boundaries and expiry -/

/-- The request of `RecordPositionCashOutBatchBlocking`. -/
structure BlockingRequest where
  item : ItemRef
  claim : ℕ
  itemState : ItemState
  batchState : BatchState
  reasonCode : String
  deriving DecidableEq

/-- The states that `RecordPositionCashOutBatchBlocking` accepts. -/
def BlockingRequest.valid (req : BlockingRequest) : Bool :=
  (req.itemState = .failed || req.itemState = .reconciliationRequired) &&
    (req.batchState = .paused || req.batchState = .failed ||
      req.batchState = .reconciliationRequired || req.batchState = .terminateRequested) &&
    (req.batchState ≠ .terminateRequested || req.itemState = .reconciliationRequired)

def recordPositionCashOutBatchBlocking (req : BlockingRequest) (t : Tables) (now : Time) :
    Except StoreError (Tables × Batch) := do
  ensure req.valid .invalid
  let reason ← requiredCode req.reasonCode
  onBatch t req.item.batch .batchNotFound fun b => do
    ensure (heldBy b.claim req.claim) .batchClaim
    let i ← found (b.items.get? req.item.ordinal) .batchClaim
    ensure (b.currentItem = some i.ordinal ∨
      (b.currentItem = none ∧ b.nextItem = some i.ordinal ∧ i.state = .pending)) .batchClaim
    ensure (i.state.ended = false) .constraint
    let i ← Item.write (blockedItem i.toItemRow req.itemState reason now)
    let items := b.items.put i
    pure (if req.batchState = .failed then
        failedBatch { b.toBatchRow with items := markRemaining items reason now }
          (b.notExecutedCount + pendingCount items) reason now
      else blockedBatch { b.toBatchRow with items } req.batchState i.ordinal reason now)

def failUndispatchedChild (t : Tables) (b : Batch) (i : Item) (now : Time) :
    Except StoreError Tables :=
  match i.child with
  | none => pure t
  | some child => do
      let c ← found (t.cashOut child) .batchClaim
      ensure (c.source = some ⟨b.id, i.ordinal⟩ ∧
        (c.state = .failed ∨ c.state = .reconciliationRequired)) .batchClaim
      ensure (wasDispatched c.attempt = false) .batchClaim
      ensure (claimable c.claim now) .batchClaim
      let c ← CashOut.write (failedChild c.toCashOutRow now)
      pure (t.putCashOut c)

/-- `terminateUndispatchedPositionCashOutBatchCurrent`: the tables, the items and the
number of items that it ended. -/
def terminateUndispatchedPositionCashOutBatchCurrent (t : Tables) (b : Batch) (now : Time) :
    Except StoreError (Tables × Table (fun i : Item => i.ordinal) × ℕ) :=
  match b.currentItem with
  | none => pure (t, b.items, 0)
  | some ordinal => do
      let i ← found (b.items.get? ordinal) .batchClaim
      ensure (i.state = .failed ∨ i.state = .reconciliationRequired) .batchClaim
      let t ← failUndispatchedChild t b i now
      pure (t, b.items.put (markNotExecuted batchTerminated now i), 1)

def completePositionCashOutBatchBoundary (batch : UUID) (claim : ℕ) (t : Tables) (now : Time) :
    Except StoreError (Tables × Batch) := do
  let b ← found (t.batch batch) .batchNotFound
  ensure (heldBy b.claim claim) .batchClaim
  match b.state with
  | .pauseRequested => do
      ensure (b.currentItem = none) .batchClaim
      let b ← Batch.write (pausedAtBoundary b.toBatchRow now)
      pure (t.putBatch b, b)
  | .terminateRequested => do
      let (t, items, ended) ← terminateUndispatchedPositionCashOutBatchCurrent t b now
      let b ← Batch.write (releasedBatch (completedBatch
        { b.toBatchRow with items := markRemaining items batchTerminated now } .terminated
        (pendingCount items + ended) now) (batchEndText .terminated) now)
      pure (t.putBatch b, b)
  | .running => do
      ensure (b.currentItem = none ∧ b.completedCount = b.positionCount ∧ b.positionCount ≠ 0)
        .batchClaim
      let b ← Batch.write (releasedBatch (completedBatch b.toBatchRow .completed 0 now)
        (batchEndText .completed) now)
      pure (t.putBatch b, b)
  | _ => throw .batchClaim

/-- A batch that `ExpirePositionCashOutBatches` may end. -/
def expirableBatch (b : Batch) (now : Time) : Bool :=
  (b.state = .building || b.state = .awaitingAuthorization) && b.authorizationExpiresAt ≤ now &&
    claimable b.claim now

def expireOneBatch (picked : List UUID) (now : Time) (b : Batch) : Batch :=
  if b.id ∈ picked ∧ expirableBatch b now then
    if h : (expiredBatch b.toBatchRow now).Checked then ⟨_, h⟩ else b
  else b

theorem expireOneBatch_id (picked : List UUID) (now : Time) (b : Batch) :
    (expireOneBatch picked now b).id = b.id := by
  unfold expireOneBatch
  split
  · split <;> rfl
  · rfl

/-- `ExpirePositionCashOutBatches`, with the same choice as `expirePositionCashOuts`. -/
def expirePositionCashOutBatches (picked : List UUID) (t : Tables) (now : Time) : Tables :=
  { t with batches := t.batches.update (expireOneBatch picked now) (expireOneBatch_id picked now) }

end Athena.CashOuts.Store
