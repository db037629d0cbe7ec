import Athena.CashOuts.Operations

/-!
# What a transaction does to a batch

A transaction that succeeds moves Cash Outs, moves batches, or does both at once when it
activates an item, dispatches a child or ends one.  `Tables.Change` says so, and the
invariants of the tables are derived from it alone.
-/

namespace Athena.CashOuts

open Athena.Lib Queries Store

abbrev Items : Type := Table (fun i : Item => i.ordinal)

structure BatchRow.SameCourse (b b' : BatchRow) : Prop where
  id : b'.id = b.id
  owner : b'.owner = b.owner
  positionCount : b'.positionCount = b.positionCount
  completedCount : b'.completedCount = b.completedCount
  notExecutedCount : b'.notExecutedCount = b.notExecutedCount
  nextItem : b'.nextItem = b.nextItem
  currentItem : b'.currentItem = b.currentItem
  wallets : b'.wallets = b.wallets
  locks : b'.locks = b.locks

/-- The claim query accepts the batch at `t` once its claim has lapsed. -/
def BatchRow.Retakable (b : BatchRow) (t : Time) : Prop :=
  b.claim.isSome → claimableBatch { b with claim := none } t

/-- A poll that the operation leaves on a claimed batch is due by `t`. -/
def Operation.DueBy (now t : Time) : Operation → Prop
  | .claimBatch .. => now ≤ t
  | .dispatchBatch req => max now req.nextPollAt ≤ t
  | _ => True

structure BatchRow.Steers (op : Operation) (now : Time) (b b' : BatchRow) : Prop where
  course : b.SameCourse b'
  before : b.state.terminal = false
  after : b'.state.terminal = false
  building : b'.state = .building ↔ b.state = .building
  authorizedAt : b'.authorizedAt = none → b.authorizedAt = none
  retakable : ∀ t, op.DueBy now t → b.Retakable t → b'.Retakable t

structure BatchRow.Ends (b b' : BatchRow) : Prop where
  id : b'.id = b.id
  owner : b'.owner = b.owner
  positionCount : b'.positionCount = b.positionCount
  completedCount : b'.completedCount = b.completedCount
  wallets : b'.wallets = b.wallets
  authorizedAt : b'.authorizedAt = b.authorizedAt
  locks : b'.locks = []
  before : b.state.terminal = false
  after : b'.state.terminal

/-- What a transaction can write to the item that a batch works on. -/
inductive Item.Move (op : Operation) (now : Time) (i i' : Item) : Prop
  | recorded (req : ItemStateRequest) (hop : op = .recordItem req)
      (hordinal : i.ordinal = req.item.ordinal) (hvalid : req.valid now)
      (hstate : i.state = req.expectedState)
      (hrow : i'.toItemRow = recordedItem i.toItemRow req.nextState req.reasonCode
        req.providerState req.balanceDeadlineAt now)
  | observed (req : BalanceRequest) (hop : op = .recordBalance req)
      (hstate : i.state = .awaitingBalance)
      (hrow : i'.toItemRow = observedItem i.toItemRow req.observed)

/-- The item that the batch works on, or would take next. -/
def Batch.Faces (b : Batch) (i : Item) : Prop :=
  b.currentItem = some i.ordinal ∨
    (b.currentItem = none ∧ b.nextItem = some i.ordinal ∧ i.state = .pending)

inductive Batch.Move (op : Operation) (now : Time) (b b' : Batch) : Prop
  | steered (hsteers : b.Steers op now b'.toBatchRow) (hitems : b'.items = b.items)
  | built (req : BuildRequest) (inputs : List ItemInput) (items : Items)
      (hop : op = .build req) (hstate : b.state = .building)
      (hinputs : normalizePositionCashOutBatchItems req.items b.wallets = .ok inputs)
      (hitems : items.rows = inputs.mapIdx fun k i => i.item (k + 1))
      (hrow : b'.toBatchRow =
        builtBatch { b.toBatchRow with items, wallets := countedWallets b.wallets inputs }
          inputs.length req.authorizationExpiresAt now)
  | dropped (hends : b.Ends b'.toBatchRow)
      (hstate : b.state = .building ∨ b.state = .awaitingAuthorization)
      (hstate' : (b'.state = .failed ∧ b.state = .building) ∨ b'.state = .cancelled ∨
        b'.state = .expired)
      (hcount : b'.notExecutedCount = b.notExecutedCount) (hitems : b'.items = b.items)
  | itemed (i i' : Item) (hsteers : b.Steers op now b'.toBatchRow) (hi : i ∈ b.items)
      (hid : ∀ req, op = .recordItem req → b.id = req.item.batch)
      (hcurrent : b.currentItem = some i.ordinal) (hmove : i.Move op now i')
      (hitems : b'.items = b.items.put i')
  | advanced (req : BalanceRequest) (i i' : Item) (baseline : Balance) (wallets : List BatchWallet)
      (hop : op = .recordBalance req) (hvalid : validBalance req.observed)
      (hi : i ∈ b.items) (hcurrent : b.currentItem = some i.ordinal)
      (hstate : i.state = .awaitingBalance) (hbaseline : i.baseline = some baseline)
      (hgate : balanceGate baseline req.observed)
      (hrow' : i'.toItemRow = completedItem i.toItemRow req.observed
        (balanceDelta baseline req.observed) now)
      (hwallets : incrementWallets b.wallets i.walletOrdinal = .ok wallets)
      (hopen : b.state.terminal = false)
      (hrow : b'.toBatchRow = advancedBatch { b.toBatchRow with items := b.items.put i', wallets }
        (i.ordinal + 1) now)
  | blocked (req : BlockingRequest) (i i' : Item) (reason : Reason)
      (hop : op = .recordBlocking req) (hvalid : req.valid) (hstate : req.batchState ≠ .failed)
      (hi : i ∈ b.items) (hid : b.id = req.item.batch) (hordinal : i.ordinal = req.item.ordinal)
      (hplace : b.Faces i) (hended : i.state.ended = false) (hopen : b.state.terminal = false)
      (hrow' : i'.toItemRow = blockedItem i.toItemRow req.itemState reason now)
      (hrow : b'.toBatchRow = blockedBatch { b.toBatchRow with items := b.items.put i' }
        req.batchState i.ordinal reason now)
  | failed (req : BlockingRequest) (i i' : Item) (reason : Reason) (hends : b.Ends b'.toBatchRow)
      (hop : op = .recordBlocking req) (hvalid : req.valid) (hstate : req.batchState = .failed)
      (hi : i ∈ b.items) (hid : b.id = req.item.batch) (hordinal : i.ordinal = req.item.ordinal)
      (hplace : b.Faces i) (hended : i.state.ended = false)
      (hrow' : i'.toItemRow = blockedItem i.toItemRow req.itemState reason now)
      (hstate' : b'.state = .failed)
      (hcount : b'.notExecutedCount = b.notExecutedCount + pendingCount (b.items.put i'))
      (hitems : b'.items = markRemaining (b.items.put i') reason now)
  | completed (hends : b.Ends b'.toBatchRow) (hstate : b.state = .running)
      (hcurrent : b.currentItem = none) (hfull : b.completedCount = b.positionCount)
      (hstate' : b'.state = .completed) (hcount : b'.notExecutedCount = 0)
      (hitems : b'.items = b.items)
  | terminated (hends : b.Ends b'.toBatchRow) (hstate : terminable b.state)
      (hcurrent : b.currentItem = none) (hstate' : b'.state = .terminated)
      (hcount : b'.notExecutedCount = pendingCount b.items ∨
        pendingCount b.items = 0 ∧ b'.notExecutedCount = b.notExecutedCount)
      (hitems : b'.items = markRemaining b.items batchTerminated now)

/-- The batch starts to work on an item, whose child is created. -/
structure Batch.Activates (req : ActivateRequest) (now : Time) (b b' : Batch) (i i' : Item) :
    Prop where
  mem : i ∈ b.items
  ordinal : i.ordinal = req.item.ordinal
  state : b.state = .running
  current : b.currentItem = none
  next : b.nextItem = some i.ordinal
  pending : i.state = .pending
  child : i.child = none
  item : i'.toItemRow = activatedItem i.toItemRow req.cashOut req.providerState
  row : b'.toBatchRow = activatedBatch { b.toBatchRow with items := b.items.put i' }
    i.ordinal req.nextPollAt now

/-- The baseline of the current item is stored with the dispatch of its child. -/
structure Batch.Dispatches (req : BatchDispatchRequest) (now : Time) (b b' : Batch)
    (i i' : Item) : Prop where
  steers : b.Steers (.dispatchBatch req) now b'.toBatchRow
  mem : i ∈ b.items
  ordinal : i.ordinal = req.item.ordinal
  state : b.state = .running ∨ b.state = .pauseRequested
  current : b.currentItem = some i.ordinal
  child : i.child = some req.cashOut
  itemState : i.state = .preflighting ∨ i.state = .closing
  baseline : i.baseline = none
  valid : validBalance req.baseline
  item : i'.toItemRow = baselineItem i.toItemRow req.baseline
  items : b'.items = b.items.put i'

/-- A termination ends a batch together with its current item. -/
structure Batch.Halts (now : Time) (b b' : Batch) (i : Item) : Prop where
  ends : b.Ends b'.toBatchRow
  state : b.state = .terminateRequested
  mem : i ∈ b.items
  current : b.currentItem = some i.ordinal
  itemState : i.state = .failed ∨ i.state = .reconciliationRequired
  state' : b'.state = .terminated
  count : b'.notExecutedCount =
    pendingCount (b.items.put (markNotExecuted batchTerminated now i)) + 1
  items : b'.items = markRemaining (b.items.put (markNotExecuted batchTerminated now i))
    batchTerminated now

def Operation.commands (batch : UUID) : Operation → Prop
  | .authorizeBatch req => req.batch = batch
  | .control req => req.batch = batch
  | _ => False

/-- Why a transaction may write a batch: it holds or takes its claim, or it is a command of
the owner about it.  The activation and the dispatch of a child need only a batch that works,
and a batch that was never authorized expires by itself. -/
inductive Batch.Writer (op : Operation) (now : Time) (b : Batch) : Prop
  | claims (k : Claim) (hop : op = .claimBatch b.id k) (h : claimableBatch b.toBatchRow now)
  | holds (k : ℕ) (h : heldBy b.claim k)
  | commands (h : op.commands b.id)
  | works (h : b.state = .running ∨ b.state = .pauseRequested)
  | expires (h : expirableBatch b now)

inductive Tables.Change (adm : Admission) (op : Operation) (now : Time) (t t' : Tables) : Prop
  | cashOuts (hlone : ∀ req, op ≠ .dispatchBatch req)
      (hcashOuts : Table.Rel (fun c c' => c' = c ∨ c.Move op now c') t.cashOuts t'.cashOuts)
      (hbatches : t'.batches = t.batches)
  | same (hcashOuts : t'.cashOuts = t.cashOuts) (hbatches : t'.batches = t.batches)
  | created (req : CreateRequest) (c : CashOut) (hop : op = .create req c.id)
      (hrow : c.toCashOutRow = req.row c.id now)
      (hlocks : req.position.walletId ∉ adm.executionLocks)
      (hactive : ∀ d ∈ t.cashOuts, d.state.terminal ∨ d.walletId ≠ c.walletId)
      (hfree : ∀ b ∈ t.batches, c.walletId ∉ b.locks)
      (hcashOuts : t.cashOuts.insert? c = some t'.cashOuts) (hbatches : t'.batches = t.batches)
  | batches (hcashOuts : t'.cashOuts = t.cashOuts)
      (hbatches :
        Table.Rel (fun b b' => b' = b ∨ b.Writer op now ∧ b.Move op now b') t.batches t'.batches)
  | batchCreated (req : BatchCreateRequest) (wallets : List BatchWallet) (b : Batch)
      (hop : op = .createBatch req b.id)
      (hrow : b.toBatchRow = req.row b.id wallets now)
      (hordinals : wallets.map (fun w => w.ordinal) = List.range' 1 wallets.length)
      (hwallets : (wallets.map fun w => w.walletId).Nodup)
      (hempty : ∀ w ∈ wallets, w.positionCount = 0 ∧ w.completedCount = 0)
      (hlocks : ∀ w ∈ wallets, w.walletId ∉ adm.executionLocks)
      (hactive : ∀ d ∈ t.cashOuts, d.state.terminal ∨ ∀ w ∈ wallets, d.walletId ≠ w.walletId)
      (hfree : ∀ d ∈ t.batches, ∀ w ∈ wallets, w.walletId ∉ d.locks)
      (hcashOuts : t'.cashOuts = t.cashOuts) (hbatches : t.batches.insert? b = some t'.batches)
  | activated (req : ActivateRequest) (b b' : Batch) (i i' : Item) (c : CashOut)
      (hop : op = .activate req) (hb : b ∈ t.batches) (hid : b.id = req.item.batch)
      (hmove : b.Activates req now b' i i')
      (hrow : c.toCashOutRow = childRow b.toBatchRow i.toItemRow req.cashOut req.providerState now)
      (hcashOuts : t.cashOuts.insert? c = some t'.cashOuts)
      (hbatches : t'.batches = t.batches.put b')
  | dispatched (req : BatchDispatchRequest) (b b' : Batch) (i i' : Item) (c c' : CashOut)
      (hop : op = .dispatchBatch req) (hb : b ∈ t.batches) (hid : b.id = req.item.batch)
      (hmove : b.Dispatches req now b' i i') (hc : c ∈ t.cashOuts) (hchild : c.id = req.cashOut)
      (hmove' : c.Move op now c') (hundispatched : wasDispatched c.attempt = false)
      (hdispatched : wasDispatched c'.attempt)
      (hcashOuts : t'.cashOuts = t.cashOuts.put c') (hbatches : t'.batches = t.batches.put b')
  | halted (b b' : Batch) (i : Item) (claim : ℕ) (hop : op = .boundary b.id claim)
      (hb : b ∈ t.batches) (hheld : heldBy b.claim claim) (hmove : b.Halts now b' i)
      (hcashOuts : (i.child = none ∧ t'.cashOuts = t.cashOuts) ∨
        ∃ c ∈ t.cashOuts, ∃ c', i.child = some c.id ∧ c.source = some ⟨b.id, i.ordinal⟩ ∧
          c.Move op now c' ∧ c'.state = .failed ∧ t'.cashOuts = t.cashOuts.put c')
      (hbatches : t'.batches = t.batches.put b')

end Athena.CashOuts
