import Athena.Execution.Exposure

/-!
# Rows of the Cash Out store

The durable data of a position Cash Out and of a batch of them, as the migrations
declare it.  A Cash Out carries its authorization and its one Close attempt.  A batch
carries its Wallets, its items, the Wallet locks it holds and its authorizations, and a
Cash Out that belongs to an item of a batch names the item as its source.

A `CashOut`, an `Item` or a `Batch` is a row together with the proof of the `CHECK`
constraints on it.  The SHA-256 of a request is represented by the request.
-/

namespace Athena.CashOuts

open Athena.Lib
export Athena.Execution (UUID Digest Time second isNonNegativeDecimalString)

/-! ## Claims -/

/-- A lease of a row.  `id` is the turn of the worker that took it, `owner` the worker. -/
structure Claim where
  id : ℕ
  owner : UUID
  expiresAt : Time
  deriving DecidableEq

/-- `claim_id IS NULL OR claim_expires_at <= now` -/
def claimable (claim : Option Claim) (now : Time) : Bool := claim.all fun k => k.expiresAt ≤ now

/-- `claim_id = id` -/
def heldBy (claim : Option Claim) (id : ℕ) : Bool := claim.any fun k => k.id = id

/-- `claim_id = id AND claim_expires_at > now` -/
def leasedTo (claim : Option Claim) (id : ℕ) (now : Time) : Bool :=
  claim.any fun k => k.id = id ∧ now < k.expiresAt

theorem heldBy_of_leasedTo {claim : Option Claim} {id : ℕ} {now : Time}
    (h : leasedTo claim id now) : heldBy claim id := by
  cases claim with
  | none => cases h
  | some =>
    simp only [leasedTo, heldBy, Option.any_some, decide_eq_true_eq] at h ⊢
    exact h.1

theorem heldBy_iff {claim : Option Claim} {id : ℕ} :
    heldBy claim id ↔ ∃ k, claim = some k ∧ k.id = id := by
  cases claim <;> simp [heldBy]

/-! ## Positions -/

/-- The identity and the lifecycle of a margin position, `MarginPositionCashOutTarget`.
The creation time is in seconds. -/
structure Target where
  positionPubkey : String
  positionRequestPubkey : Option String
  marketConditionId : String
  isYes : Bool
  createdAt : ℕ
  totalShares : String
  isClosed : Bool
  isLiquidated : Bool
  deriving DecidableEq

/-- The position that a row freezes.  An empty request key stands for none. -/
structure Position where
  walletId : ℕ
  walletAddress : String
  credentialVersion : ℕ
  positionPubkey : String
  marketConditionId : String
  isYes : Bool
  positionCreatedAt : Time
  positionRequestPubkey : String
  shares : String
  deriving DecidableEq

/-- `positionCashOutFrozenTarget` and `positionCashOutBatchFrozenTarget` -/
def Position.target (p : Position) (isClosed isLiquidated : Bool) : Target where
  positionPubkey := p.positionPubkey
  positionRequestPubkey :=
    if p.positionRequestPubkey = "" then none else some p.positionRequestPubkey
  marketConditionId := p.marketConditionId
  isYes := p.isYes
  createdAt := p.positionCreatedAt / second
  totalShares := p.shares
  isClosed := isClosed
  isLiquidated := isLiquidated

/-- The request of a whole-position market Close, which has no price. -/
structure CloseRequest where
  positionPubkey : String
  deriving DecidableEq

structure ItemRef where
  batch : UUID
  ordinal : ℕ
  deriving DecidableEq

/-! ## Attempts and authorizations -/

inductive Outcome
  | acknowledged | rejected | outcomeUnknown
  deriving DecidableEq

/-- The state of an attempt with the times that belong to it. -/
inductive AttemptStatus
  | prepared
  | dispatched (time : Time)
  | resolved (outcome : Outcome) (dispatchedAt completedAt : Time)
  deriving DecidableEq

/-- A row of `worm_position_cash_out_attempts`. -/
structure Attempt where
  id : UUID
  request : CloseRequest
  preparedAt : Time
  status : AttemptStatus := .prepared
  httpStatus : ℕ := 0
  providerCode : ℤ := 0
  providerSlug : String := ""
  providerState : String := ""
  errorCode : String := ""
  deriving DecidableEq

def Attempt.wasDispatched (a : Attempt) : Bool := a.status ≠ .prepared

/-- `positionCashOutBatchMutationWasDispatched`, of the attempt of a Cash Out. -/
def wasDispatched (a : Option Attempt) : Bool := a.any Attempt.wasDispatched

/-- The attempt is in the state `REJECTED`. -/
def Attempt.isRejected (a : Attempt) : Bool :=
  match a.status with
  | .resolved .rejected _ _ => true
  | _ => false

inductive AuthorizationState
  | authorized | consumed | revoked | superseded
  deriving DecidableEq

structure Authorization where
  id : UUID
  proofKind : String
  session : Digest
  accessRevision : ℕ
  authorizedAt : Time
  state : AuthorizationState := .authorized
  endedAt : Option Time := none
  endReasonCode : String := ""
  deriving DecidableEq

def Authorization.finish (a : Authorization) (state : AuthorizationState) (reason : String)
    (now : Time) : Authorization :=
  if a.state = .authorized then { a with state, endedAt := some now, endReasonCode := reason }
  else a

/-! ## Cash Outs -/

inductive State
  | awaitingAuthorization | queued | preflighting | closing | awaitingCompletion
  | completed | failed | reconciliationRequired | expired
  deriving DecidableEq

namespace State

def terminal : State → Bool
  | .completed | .failed | .expired => true
  | _ => false

def authorized : State → Bool
  | .queued | .preflighting | .closing | .awaitingCompletion | .reconciliationRequired => true
  | _ => false

def polled : State → Bool
  | .awaitingCompletion | .reconciliationRequired => true
  | _ => false

def reasoned : State → Bool
  | .failed | .reconciliationRequired | .expired => true
  | _ => false

end State

/-- A row of `worm_position_cash_outs` with its authorization and its attempt. -/
structure CashOutRow extends Position where
  id : UUID
  owner : UUID
  state : State
  revision : ℕ := 1
  reasonCode : String := ""
  providerState : String := ""
  providerIsClosed : Bool := false
  providerIsLiquidated : Bool := false
  authorizationExpiresAt : Time
  executionExpiresAt : Option Time := none
  authorizedAt : Option Time := none
  nextPollAt : Option Time := none
  pollCount : ℕ := 0
  reconcileRequestedAt : Option Time := none
  claim : Option Claim := none
  completedAt : Option Time := none
  createdAt : Time
  updatedAt : Time
  source : Option ItemRef := none
  authorization : Option Authorization := none
  attempt : Option Attempt := none
  deriving DecidableEq

/-- The `CHECK` constraints of the table that relate several columns. -/
@[mk_iff]
structure CashOutRow.Checked (c : CashOutRow) : Prop where
  deadline : c.createdAt < c.authorizationExpiresAt
  window : c.executionExpiresAt.all fun e => c.authorizedAt.any fun a => a < e
  waiting : c.state = .awaitingAuthorization → c.authorizedAt = none ∧ c.executionExpiresAt = none
  authorized : c.state.authorized → c.authorizedAt.isSome ∧ c.executionExpiresAt.isSome
  ended : c.state = .completed ∨ c.state = .failed →
    c.authorizedAt.isSome = c.executionExpiresAt.isSome
  completedAt : c.completedAt.isSome = c.state.terminal
  released : c.state.terminal → c.claim = none
  closed : c.state = .completed → c.providerIsClosed ∧ c.providerIsLiquidated = false
  polled : c.state.polled → c.nextPollAt.isSome
  reasoned : c.state.reasoned → c.reasonCode ≠ ""

instance (c : CashOutRow) : Decidable c.Checked := decidable_of_iff' _ c.checked_iff

structure CashOut extends CashOutRow where
  checked : toCashOutRow.Checked
  deriving DecidableEq

/-! ## Batch items -/

structure Balance where
  mint : String
  decimals : ℕ
  atomicAmount : String
  observedSlot : ℕ
  deriving DecidableEq

inductive ItemState
  | pending | preflighting | closing | awaitingPosition | awaitingBalance
  | completed | failed | reconciliationRequired | notExecuted
  deriving DecidableEq

namespace ItemState

def ended : ItemState → Bool
  | .completed | .failed | .notExecuted => true
  | _ => false

def inFlight : ItemState → Bool
  | .preflighting | .closing | .awaitingPosition | .awaitingBalance
  | .reconciliationRequired => true
  | _ => false

def reasoned : ItemState → Bool
  | .failed | .reconciliationRequired | .notExecuted => true
  | _ => false

end ItemState

/-- A row of `worm_position_cash_out_batch_items`. -/
structure ItemRow extends Position where
  ordinal : ℕ
  walletOrdinal : ℕ
  positionOrdinal : ℕ
  walletRemark : String
  marketTitle : String
  providerState : String
  state : ItemState := .pending
  reasonCode : String := ""
  child : Option UUID := none
  baseline : Option Balance := none
  observed : Option Balance := none
  delta : String := ""
  balanceStartedAt : Option Time := none
  balanceDeadlineAt : Option Time := none
  balanceConfirmedAt : Option Time := none
  completedAt : Option Time := none
  deriving DecidableEq

/-- The `CHECK` constraints of the table that relate several columns. -/
@[mk_iff]
structure ItemRow.Checked (i : ItemRow) : Prop where
  confirmed : i.state = .completed → i.balanceConfirmedAt.isSome ∧ i.delta ≠ ""
  completedAt : i.completedAt.isSome = i.state.ended
  reasoned : i.state.reasoned → i.reasonCode ≠ ""

instance (i : ItemRow) : Decidable i.Checked := decidable_of_iff' _ i.checked_iff

structure Item extends ItemRow where
  checked : toItemRow.Checked
  deriving DecidableEq

/-! ## Batches -/

inductive BatchState
  | building | awaitingAuthorization | queued | running | pauseRequested | paused
  | terminateRequested | completed | failed | reconciliationRequired | terminated
  | cancelled | expired
  deriving DecidableEq

namespace BatchState

def terminal : BatchState → Bool
  | .completed | .failed | .terminated | .cancelled | .expired => true
  | _ => false

def frozen : BatchState → Bool
  | .building | .failed | .cancelled | .expired => false
  | _ => true

def authorized : BatchState → Bool
  | .queued | .running | .pauseRequested | .paused | .terminateRequested | .completed
  | .reconciliationRequired | .terminated => true
  | _ => false

def unauthorized : BatchState → Bool
  | .building | .awaitingAuthorization | .cancelled | .expired => true
  | _ => false

def reasoned : BatchState → Bool
  | .failed | .reconciliationRequired | .expired => true
  | _ => false

end BatchState

structure Display where
  remark : String
  avatarKind : String
  avatarPresetId : String
  avatarUrl : String
  deriving DecidableEq

/-- A row of `worm_position_cash_out_batch_wallets`. -/
structure BatchWallet extends Display where
  ordinal : ℕ
  walletId : ℕ
  address : String
  credentialVersion : ℕ
  positionCount : ℕ := 0
  completedCount : ℕ := 0
  deriving DecidableEq

/-- A row of `worm_position_cash_out_batches` with its Wallets, its items, the Wallet
locks it holds and its authorizations.  `frozen` says that the digest of the frozen order
is present. -/
structure BatchRow where
  id : UUID
  owner : UUID
  state : BatchState := .building
  revision : ℕ := 1
  reasonCode : String := ""
  buildStage : String := "WALLETS"
  frozen : Bool := false
  positionCount : ℕ := 0
  completedCount : ℕ := 0
  notExecutedCount : ℕ := 0
  nextItem : Option ℕ := none
  currentItem : Option ℕ := none
  authorizationExpiresAt : Time
  authorizedAt : Option Time := none
  executionStartedAt : Option Time := none
  nextPollAt : Option Time := none
  checkRequestedAt : Option Time := none
  claim : Option Claim := none
  completedAt : Option Time := none
  createdAt : Time
  updatedAt : Time
  wallets : List BatchWallet
  locks : List ℕ := []
  items : Table (fun i : Item => i.ordinal) := .empty
  authorizations : List Authorization := []

/-- The `CHECK` constraints of the batch and of its Wallets that relate several columns. -/
@[mk_iff]
structure BatchRow.Checked (b : BatchRow) : Prop where
  deadline : b.createdAt < b.authorizationExpiresAt
  positions : b.positionCount ≤ 1000
  counts : b.completedCount + b.notExecutedCount ≤ b.positionCount
  walletCounts : ∀ w ∈ b.wallets, w.completedCount ≤ w.positionCount
  building : b.state = .building → b.frozen = false
  frozen : b.state.frozen → b.frozen
  authorized : b.state.authorized → b.authorizedAt.isSome
  unauthorized : b.state.unauthorized → b.authorizedAt = none
  completedAt : b.completedAt.isSome = b.state.terminal
  released : b.state.terminal → b.claim = none
  reasoned : b.state.reasoned → b.reasonCode ≠ ""

instance (b : BatchRow) : Decidable b.Checked := decidable_of_iff' _ b.checked_iff

structure Batch extends BatchRow where
  checked : toBatchRow.Checked

/-! ## Commands and the store -/

inductive CommandKind
  | create | authorize | reconcile
  deriving DecidableEq

inductive BatchCommandKind
  | create | authorize | cancel | pause | continue_ | terminate | checkStatus
  deriving DecidableEq

/-- What a Cash Out command asks for, in place of its digest. -/
inductive CommandRequest
  | create (walletId : ℕ) (walletAddress positionPubkey : String)
  | authorize (cashOut : UUID) (expectedRevision : ℕ) (proofKind : String) (session : Digest)
      (accessRevision : ℕ)
  | reconcile (cashOut : UUID) (expectedRevision : ℕ)
  deriving DecidableEq

inductive BatchCommandRequest
  | create (walletIds : List ℕ)
  | authorize (batch : UUID) (expectedRevision : ℕ) (proofKind : String) (session : Digest)
      (accessRevision : ℕ)
  | control (batch : UUID) (expectedRevision : ℕ) (kind : BatchCommandKind)
  deriving DecidableEq

/-- A row of a command table: who asked for what, about which operation, and the
revision it led to. -/
structure Command (κ ρ : Type) where
  id : UUID
  operation : UUID
  owner : UUID
  kind : κ
  request : ρ
  revisionAfter : ℕ
  deriving DecidableEq

structure Tables where
  cashOuts : Table (fun c : CashOut => c.id) := .empty
  batches : Table (fun b : Batch => b.id) := .empty
  commands : List (Command CommandKind CommandRequest) := []
  batchCommands : List (Command BatchCommandKind BatchCommandRequest) := []

/-- The errors of the store.  `unavailable` stands for every failure of the database
itself, after which the transaction may or may not have been committed. -/
inductive StoreError
  | invalid | notFound | commandConflict | walletNotSelected | connectionChanged
  | executionActive | walletActive | batchActive | revision | expired | claim
  | batchNotFound | batchCommandConflict | batchOwnerActive | batchExecutionActive
  | batchCashOutActive | batchWalletActive | batchRevision | batchClaim
  | constraint | unavailable
  deriving DecidableEq

def CashOut.write (r : CashOutRow) : Except StoreError CashOut :=
  if h : r.Checked then .ok ⟨r, h⟩ else .error .constraint

def Item.write (r : ItemRow) : Except StoreError Item :=
  if h : r.Checked then .ok ⟨r, h⟩ else .error .constraint

def Batch.write (r : BatchRow) : Except StoreError Batch :=
  if h : r.Checked then .ok ⟨r, h⟩ else .error .constraint

theorem CashOut.write_eq_ok {r : CashOutRow} {c : CashOut} :
    CashOut.write r = .ok c ↔ c.toCashOutRow = r := by
  rw [CashOut.write, dite_eq_ok]
  constructor
  · rintro ⟨_, rfl⟩
    rfl
  · rintro rfl
    exact ⟨c.checked, rfl⟩

theorem Item.write_eq_ok {r : ItemRow} {i : Item} : Item.write r = .ok i ↔ i.toItemRow = r := by
  rw [Item.write, dite_eq_ok]
  constructor
  · rintro ⟨_, rfl⟩
    rfl
  · rintro rfl
    exact ⟨i.checked, rfl⟩

theorem Batch.write_eq_ok {r : BatchRow} {b : Batch} :
    Batch.write r = .ok b ↔ b.toBatchRow = r := by
  rw [Batch.write, dite_eq_ok]
  constructor
  · rintro ⟨_, rfl⟩
    rfl
  · rintro rfl
    exact ⟨b.checked, rfl⟩

namespace Tables

def cashOut (t : Tables) (id : UUID) : Option CashOut := t.cashOuts.get? id

def batch (t : Tables) (id : UUID) : Option Batch := t.batches.get? id

def item (t : Tables) (ref : ItemRef) : Option Item :=
  (t.batch ref.batch).bind fun b => b.items.get? ref.ordinal

variable {t : Tables} {id : UUID}

theorem cashOut_eq_some {c : CashOut} : t.cashOut id = some c ↔ c ∈ t.cashOuts ∧ c.id = id :=
  Table.get?_eq_some

theorem batch_eq_some {b : Batch} : t.batch id = some b ↔ b ∈ t.batches ∧ b.id = id :=
  Table.get?_eq_some

end Tables
end Athena.CashOuts
