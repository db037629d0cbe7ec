import Athena.CashOuts.Types

/-!
# The Cash Out store

The transactions of `store/position_cash_outs.go` on a single Cash Out, with the `UPDATE`
statements they run in `Queries`.  A statement whose `WHERE` clause no row meets is the
error that the Go function returns for it.

What a transaction reads of other parts of the service is an `Admission`: the Wallet
selection and connections, and the Wallet locks of execution Runs.  Identifiers that the
store generates are arguments too.
-/

namespace Athena.CashOuts

open Athena.Lib

/-! ## Validation -/

def maxPositionCashOutCodeLength : ℕ := 100

def maxPositionCashOutDecimalLength : ℕ := 128

def maxWalletAddressLength : ℕ := 64

/-- `normalizePositionCashOutCode`, as a test: what passes is not changed. -/
def validCode (value : String) (required : Bool) : Bool :=
  Text.trimSpace value = value && (!required || value ≠ "") &&
    value.utf8ByteSize ≤ maxPositionCashOutCodeLength &&
    value.toList.all fun c => 0x20 ≤ c.toNat && c.toNat ≠ 0x7f

def canonicalPublicKey (value : String) : Bool :=
  Text.isBase58Key value && value ≠ "11111111111111111111111111111111"

/-- `validatePositionCashOutPublicKey` -/
def validPublicKey (value : String) (required : Bool) : Bool :=
  if value = "" then !required else Text.trimSpace value = value && canonicalPublicKey value

/-- `validateWalletReference` -/
def validWalletReference (walletId : ℕ) (address : String) : Bool :=
  0 < walletId && address ≠ "" && Text.trimSpace address = address &&
    address.utf8ByteSize ≤ maxWalletAddressLength

def validShares (shares : String) : Bool :=
  shares.utf8ByteSize ≤ maxPositionCashOutDecimalLength && isNonNegativeDecimalString shares &&
    shares.toList.any fun c => '1' ≤ c && c ≤ '9'

/-! ## What other parts of the service provide -/

/-- A row of `worm_wallet_connections` with the version of its active credential. -/
structure Connection where
  walletId : ℕ
  address : String
  connected : Bool
  activeCredential : Option ℕ
  deriving DecidableEq

/-- The tables of other parts of the service that the admission of an operation reads. -/
structure Admission where
  selection : List (ℕ × String)
  connections : List Connection
  executionLocks : List ℕ
  deriving DecidableEq

def Admission.selects (adm : Admission) (walletId : ℕ) (address : String) : Bool :=
  adm.selection.contains (walletId, address)

/-- The version of the active credential of a Wallet that is connected at its address. -/
def activeVersion (connections : List Connection) (walletId : ℕ) (address : String) :
    Except StoreError ℕ := do
  let k ← found (connections.find? fun k => k.walletId = walletId) .connectionChanged
  ensure (k.address = address ∧ k.connected) .connectionChanged
  found k.activeCredential .connectionChanged

namespace Tables

def putCashOut (t : Tables) (c : CashOut) : Tables := { t with cashOuts := t.cashOuts.put c }

def putBatch (t : Tables) (b : Batch) : Tables := { t with batches := t.batches.put b }

def countActivePositionCashOutsForWallets (t : Tables) (walletIds : List ℕ) : ℕ :=
  t.cashOuts.rows.countP fun c => c.state.terminal = false ∧ c.walletId ∈ walletIds

def countActivePositionCashOutBatchWalletLocks (t : Tables) (walletIds : List ℕ) : ℕ :=
  (t.batches.rows.flatMap fun b => b.locks).countP fun w => w ∈ walletIds

/-- Insert a Cash Out that has not ended.  The partial unique indexes admit one such row
for each Wallet and for each position, and one row for each item of a batch. -/
def insertCashOut (t : Tables) (c : CashOut) (taken itemTaken positionTaken : StoreError) :
    Except StoreError Tables := do
  ensure (c.state.terminal ∨ ∀ d ∈ t.cashOuts.rows, d.state.terminal ∨ d.walletId ≠ c.walletId)
    taken
  ensure (c.state.terminal ∨ ∀ d ∈ t.cashOuts.rows,
    d.state.terminal ∨ d.positionPubkey ≠ c.positionPubkey) positionTaken
  ensure (c.source = none ∨ ∀ d ∈ t.cashOuts.rows, d.source ≠ c.source) itemTaken
  let cashOuts ← found (t.cashOuts.insert? c) .constraint
  pure { t with cashOuts }

end Tables

/-! ## Statements -/

namespace Queries

/-- `QueueAuthorizedPositionCashOut`, with the new authorization. -/
def queueAuthorizedPositionCashOut (c : CashOut) (a : Authorization) (expectedRevision : ℕ)
    (executionExpiresAt now : Time) : Except StoreError CashOut := do
  ensure (c.authorization = none) .constraint
  ensure (c.revision = expectedRevision ∧ c.state = .awaitingAuthorization ∧
    now < c.authorizationExpiresAt) .revision
  CashOut.write { c.toCashOutRow with
    state := .queued, revision := c.revision + 1, authorizedAt := some now
    executionExpiresAt := some executionExpiresAt, nextPollAt := some now, updatedAt := now
    authorization := some a }

def endPositionCashOutAuthorization (c : CashOutRow) (state : AuthorizationState)
    (reason : String) (now : Time) : CashOutRow :=
  { c with authorization := c.authorization.map fun a => a.finish state reason now }

def recoverable (c : CashOut) (now : Time) : Bool :=
  match c.state with
  | .queued => true
  | .preflighting | .closing => claimable c.claim now
  | .awaitingCompletion | .reconciliationRequired =>
    (c.nextPollAt.any fun p => p ≤ now) && claimable c.claim now
  | _ => false

def claimPositionCashOut (c : CashOut) (k : Claim) (now : Time) : Except StoreError CashOut := do
  ensure (c.authorizedAt.isSome ∧ c.executionExpiresAt.isSome ∧ recoverable c now) .claim
  CashOut.write { c.toCashOutRow with
    state := if c.state = .queued then .preflighting else c.state
    revision := c.revision + 1, claim := some k, updatedAt := now }

def renewPositionCashOutClaim (c : CashOut) (k : Claim) (now : Time) :
    Except StoreError CashOut := do
  ensure (leasedTo c.claim k.id now ∧ (c.claim.any fun k' => k'.owner = k.owner) ∧
    (c.state = .preflighting ∨ c.state = .closing ∨ c.state = .awaitingCompletion ∨
      c.state = .reconciliationRequired)) .claim
  CashOut.write { c.toCashOutRow with claim := some k, updatedAt := now }

def inWindow (c : CashOut) (claim : ℕ) (now : Time) : Bool :=
  leasedTo c.claim claim now && c.executionExpiresAt.any fun e => now < e

def beginPositionCashOutClosing (c : CashOut) (claim : ℕ) (providerState : String) (now : Time) :
    Except StoreError CashOut := do
  ensure (c.state = .preflighting ∧ inWindow c claim now) .claim
  CashOut.write { c.toCashOutRow with
    state := .closing, revision := c.revision + 1, reasonCode := "", providerState
    providerIsClosed := false, providerIsLiquidated := false, pollCount := c.pollCount + 1
    nextPollAt := none, updatedAt := now }

/-- `DispatchPositionCashOutAttempt` and `TouchPositionCashOutAfterDispatch` -/
def dispatchPositionCashOutAttempt (c : CashOut) (attempt : UUID) (claim : ℕ) (now : Time) :
    Except StoreError (CashOut × Attempt) := do
  let a ← found c.attempt .claim
  ensure (a.id = attempt ∧ a.status = .prepared ∧ c.state = .closing ∧ inWindow c claim now) .claim
  let a := { a with status := .dispatched now }
  let c ← CashOut.write { c.toCashOutRow with
    revision := c.revision + 1, updatedAt := now, attempt := some a }
  pure (c, a)

structure Resolution where
  outcome : Outcome
  httpStatus : ℕ
  providerCode : ℤ
  providerSlug : String
  providerState : String
  errorCode : String
  deriving DecidableEq

def resolvePositionCashOutAttempt (c : CashOut) (attempt : UUID) (r : Resolution) (now : Time) :
    Except StoreError Attempt := do
  let a ← found c.attempt .claim
  ensure (a.id = attempt) .claim
  let dispatchedAt ← match a.status with
    | .dispatched time => pure time
    | _ => throw .claim
  ensure (r.httpStatus = 0 ∨ 100 ≤ r.httpStatus) .constraint
  pure { a with
    status := .resolved r.outcome dispatchedAt now, httpStatus := r.httpStatus
    providerCode := r.providerCode, providerSlug := r.providerSlug
    providerState := r.providerState, errorCode := r.errorCode }

structure Observation where
  expectedState : State
  nextState : State
  reasonCode : String := ""
  providerState : String := ""
  providerIsClosed : Bool := false
  providerIsLiquidated : Bool := false
  nextPollAt : Option Time := none
  deriving DecidableEq

/-- The row that `RecordPositionCashOutObservation` writes. -/
def observed (c : CashOutRow) (o : Observation) (now : Time) : CashOutRow :=
  { c with
    state := o.nextState, revision := c.revision + 1, reasonCode := o.reasonCode
    providerState := o.providerState, providerIsClosed := o.providerIsClosed
    providerIsLiquidated := o.providerIsLiquidated, nextPollAt := o.nextPollAt
    pollCount := c.pollCount + 1, reconcileRequestedAt := none, claim := none
    completedAt :=
      if o.nextState = .completed ∨ o.nextState = .failed then some now else none
    updatedAt := now }

/-- `RecordPositionCashOutObservation`, its condition. -/
def observable (c : CashOut) (claim : ℕ) (o : Observation) : Bool :=
  c.state = o.expectedState && heldBy c.claim claim &&
    (o.nextState = .awaitingCompletion || o.nextState = .completed || o.nextState = .failed ||
      o.nextState = .reconciliationRequired) &&
    (o.nextState ≠ .completed || o.providerIsClosed) &&
    ((o.nextState ≠ .failed && o.nextState ≠ .reconciliationRequired) || o.reasonCode ≠ "")

def requestPositionCashOutReconciliation (c : CashOut) (expectedRevision : ℕ) (now : Time) :
    Except StoreError CashOut := do
  ensure (c.revision = expectedRevision ∧ c.state = .reconciliationRequired ∧ c.claim = none ∧
    c.reconcileRequestedAt = none) .revision
  CashOut.write { c.toCashOutRow with
    revision := c.revision + 1, reconcileRequestedAt := some now, nextPollAt := some now
    updatedAt := now }

end Queries

/-! ## Transactions -/

namespace Store

open Queries

/-- The request of `CreatePositionCashOut`. -/
structure CreateRequest where
  owner : UUID
  command : UUID
  position : Position
  providerState : String
  providerIsClosed : Bool
  providerIsLiquidated : Bool
  authorizationExpiresAt : Time
  deriving DecidableEq

/-- `normalizePositionCashOutCreateRequest` -/
def CreateRequest.valid (req : CreateRequest) (now : Time) : Bool :=
  validWalletReference req.position.walletId req.position.walletAddress &&
    0 < req.position.credentialVersion && validPublicKey req.position.positionPubkey true &&
    validPublicKey req.position.marketConditionId true &&
    validPublicKey req.position.positionRequestPubkey false &&
    0 < req.position.positionCreatedAt && validShares req.position.shares &&
    validCode req.providerState false && now < req.authorizationExpiresAt

def CreateRequest.digest (req : CreateRequest) : CommandRequest :=
  .create req.position.walletId req.position.walletAddress req.position.positionPubkey

/-- The row that `CreatePositionCashOut` inserts. -/
def CreateRequest.row (req : CreateRequest) (id : UUID) (now : Time) : CashOutRow :=
  { req.position with
    id, owner := req.owner
    state :=
      if req.providerIsLiquidated then .failed
      else if req.providerIsClosed then .completed
      else .awaitingAuthorization
    reasonCode := if req.providerIsLiquidated then "POSITION_LIQUIDATED" else ""
    providerState := req.providerState, providerIsClosed := req.providerIsClosed
    providerIsLiquidated := req.providerIsLiquidated
    authorizationExpiresAt := req.authorizationExpiresAt
    completedAt := if req.providerIsLiquidated ∨ req.providerIsClosed then some now else none
    createdAt := now, updatedAt := now }

def createPositionCashOut (req : CreateRequest) (adm : Admission) (id : UUID) (t : Tables)
    (now : Time) : Except StoreError (Tables × CashOut) := do
  ensure (req.valid now) .invalid
  match t.commands.find? fun k => k.id = req.command with
  | some k =>
    ensure (k.owner = req.owner ∧ k.kind = .create ∧ k.request = req.digest) .commandConflict
    let c ← found (t.cashOut k.operation) .notFound
    pure (t, c)
  | none =>
    ensure (adm.selects req.position.walletId req.position.walletAddress) .walletNotSelected
    let version ← activeVersion adm.connections req.position.walletId req.position.walletAddress
    ensure (version = req.position.credentialVersion) .connectionChanged
    ensure (adm.executionLocks.countP (fun w => w = req.position.walletId) = 0) .executionActive
    ensure (t.countActivePositionCashOutsForWallets [req.position.walletId] = 0) .walletActive
    ensure (t.countActivePositionCashOutBatchWalletLocks [req.position.walletId] = 0) .batchActive
    let c ← CashOut.write (req.row id now)
    let t ← t.insertCashOut c .walletActive .constraint .walletActive
    pure ({ t with commands := t.commands ++ [⟨req.command, id, req.owner, .create, req.digest,
      c.revision⟩] }, c)

/-- The request of `AuthorizePositionCashOut`. -/
structure AuthorizeRequest where
  owner : UUID
  cashOut : UUID
  command : UUID
  expectedRevision : ℕ
  proofKind : String
  session : Digest
  accessRevision : ℕ
  executionExpiresAt : Time
  authorization : UUID
  deriving DecidableEq

def AuthorizeRequest.digest (req : AuthorizeRequest) : CommandRequest :=
  .authorize req.cashOut req.expectedRevision req.proofKind req.session req.accessRevision

def authorizePositionCashOut (req : AuthorizeRequest) (t : Tables) (now : Time) :
    Except StoreError (Tables × CashOut) := do
  ensure (validCode req.proofKind true ∧ 0 < req.accessRevision ∧ now < req.executionExpiresAt ∧
    0 < req.expectedRevision) .invalid
  let c ← found (t.cashOut req.cashOut) .notFound
  ensure (c.owner = req.owner) .notFound
  match t.commands.find? fun k => k.id = req.command with
  | some k =>
    ensure (k.owner = req.owner ∧ k.operation = req.cashOut ∧ k.kind = .authorize ∧
      k.request = req.digest) .commandConflict
    pure (t, c)
  | none =>
    ensure (c.revision = req.expectedRevision ∧ c.state = .awaitingAuthorization) .revision
    ensure (now < c.authorizationExpiresAt) .expired
    let a : Authorization :=
      { id := req.authorization, proofKind := req.proofKind, session := req.session
        accessRevision := req.accessRevision, authorizedAt := now }
    let c ← queueAuthorizedPositionCashOut c a req.expectedRevision req.executionExpiresAt now
    pure ({ t.putCashOut c with commands := t.commands ++ [⟨req.command, req.cashOut, req.owner,
      .authorize, req.digest, c.revision⟩] }, c)

def onCashOut (t : Tables) (id : UUID) (e : StoreError)
    (f : CashOut → Except StoreError CashOut) : Except StoreError (Tables × CashOut) := do
  let c ← found (t.cashOut id) e
  let c ← f c
  pure (t.putCashOut c, c)

def claimPositionCashOut (id : UUID) (k : Claim) (t : Tables) (now : Time) :
    Except StoreError (Tables × CashOut) := do
  ensure (now < k.expiresAt) .invalid
  onCashOut t id .claim fun c => Queries.claimPositionCashOut c k now

def renewPositionCashOutClaim (id : UUID) (k : Claim) (t : Tables) (now : Time) :
    Except StoreError (Tables × CashOut) := do
  ensure (now < k.expiresAt) .invalid
  onCashOut t id .claim fun c => Queries.renewPositionCashOutClaim c k now

def beginPositionCashOutClosing (id : UUID) (claim : ℕ) (providerState : String) (t : Tables)
    (now : Time) : Except StoreError (Tables × CashOut) := do
  ensure (validCode providerState false) .invalid
  onCashOut t id .claim fun c => Queries.beginPositionCashOutClosing c claim providerState now

def preparePositionCashOutAttempt (id attempt : UUID) (claim : ℕ) (request : CloseRequest)
    (t : Tables) (now : Time) : Except StoreError (Tables × Attempt) := do
  let c ← found (t.cashOut id) .constraint
  ensure (c.state = .closing ∧ inWindow c claim now) .constraint
  match c.attempt with
  | some a =>
    ensure (a.id = attempt ∧ a.status = .prepared ∧ a.request = request) .claim
    pure (t, a)
  | none =>
    ensure (∀ d ∈ t.cashOuts.rows, d.attempt.all fun a => a.id ≠ attempt) .constraint
    let a : Attempt := { id := attempt, request, preparedAt := now }
    let c ← CashOut.write { c.toCashOutRow with attempt := some a }
    pure (t.putCashOut c, a)

def dispatchPositionCashOutAttempt (id attempt : UUID) (claim : ℕ) (t : Tables) (now : Time) :
    Except StoreError (Tables × Attempt) := do
  let c ← found (t.cashOut id) .claim
  let (c, a) ← Queries.dispatchPositionCashOutAttempt c attempt claim now
  pure (t.putCashOut c, a)

def validResolution (r : Resolution) : Bool :=
  r.httpStatus ≤ 599 && validCode r.providerSlug false && validCode r.providerState false &&
    validCode r.errorCode false

def resolvePositionCashOutAttempt (id attempt : UUID) (r : Resolution) (t : Tables) (now : Time) :
    Except StoreError (Tables × Attempt) := do
  ensure (validResolution r) .invalid
  let c ← found (t.cashOut id) .claim
  let a ← Queries.resolvePositionCashOutAttempt c attempt r now
  let c ← CashOut.write { c.toCashOutRow with attempt := some a }
  pure (t.putCashOut c, a)

/-- The observation of a Close that the provider answered with a closed position. -/
def closedObservation : Observation where
  expectedState := .closing
  nextState := .completed
  providerState := "closed"
  providerIsClosed := true

def completePositionCashOutDispatch (id attempt : UUID) (claim : ℕ) (r : Resolution) (t : Tables)
    (now : Time) : Except StoreError (Tables × CashOut) := do
  ensure (validResolution r ∧ r.providerState = "closed" ∧ r.outcome = .acknowledged) .invalid
  onCashOut t id .claim fun c => do
    let a ← Queries.resolvePositionCashOutAttempt c attempt r now
    ensure (observable c claim closedObservation) .claim
    CashOut.write (endPositionCashOutAuthorization
      (observed { c.toCashOutRow with attempt := some a } closedObservation now)
      .consumed "COMPLETED" now)

def validPositionCashOutObservationTransition (expected next : State) : Bool :=
  match expected with
  | .preflighting => next = .completed || next = .failed
  | .closing | .awaitingCompletion =>
    next = .awaitingCompletion || next = .completed || next = .failed ||
      next = .reconciliationRequired
  | .reconciliationRequired =>
    next = .completed || next = .failed || next = .reconciliationRequired
  | _ => false

/-- The checks that `RecordPositionCashOutObservation` makes before its transaction. -/
def validObservation (o : Observation) (now : Time) : Bool :=
  validPositionCashOutObservationTransition o.expectedState o.nextState &&
    validCode o.reasonCode (o.nextState = .failed || o.nextState = .reconciliationRequired) &&
    validCode o.providerState false &&
    (o.nextState ≠ .completed || (o.providerIsClosed && !o.providerIsLiquidated)) &&
    ((o.nextState ≠ .awaitingCompletion && o.nextState ≠ .reconciliationRequired) ||
      o.nextPollAt.any fun p => now < p)

def endText : State → String
  | .completed => "COMPLETED"
  | _ => "FAILED"

def recordPositionCashOutObservation (id : UUID) (claim : ℕ) (o : Observation) (t : Tables)
    (now : Time) : Except StoreError (Tables × CashOut) := do
  ensure (validObservation o now) .invalid
  onCashOut t id .claim fun c => do
    ensure (observable c claim o) .claim
    CashOut.write (if o.nextState.terminal then
      endPositionCashOutAuthorization (observed c.toCashOutRow o now) .consumed
        (endText o.nextState) now
      else observed c.toCashOutRow o now)

/-- The request of `RequestPositionCashOutReconciliation`. -/
structure ReconcileRequest where
  owner : UUID
  cashOut : UUID
  command : UUID
  expectedRevision : ℕ
  deriving DecidableEq

def requestPositionCashOutReconciliation (req : ReconcileRequest) (t : Tables) (now : Time) :
    Except StoreError (Tables × CashOut) := do
  ensure (0 < req.expectedRevision) .invalid
  let c ← found (t.cashOut req.cashOut) .notFound
  ensure (c.owner = req.owner) .notFound
  let digest : CommandRequest := .reconcile req.cashOut req.expectedRevision
  match t.commands.find? fun k => k.id = req.command with
  | some k =>
    ensure (k.owner = req.owner ∧ k.operation = req.cashOut ∧ k.kind = .reconcile ∧
      k.request = digest) .commandConflict
    pure (t, c)
  | none =>
    let c ← Queries.requestPositionCashOutReconciliation c req.expectedRevision now
    pure ({ t.putCashOut c with commands := t.commands ++ [⟨req.command, req.cashOut, req.owner,
      .reconcile, digest, c.revision⟩] }, c)

/-- A Cash Out that `ExpirePositionCashOuts` may end. -/
def expirable (c : CashOut) (now : Time) : Bool :=
  match c.state with
  | .awaitingAuthorization => c.authorizationExpiresAt ≤ now
  | .queued | .preflighting | .closing =>
    (c.executionExpiresAt.any fun e => e ≤ now) && !wasDispatched c.attempt
  | _ => false

/-- The row that `ExpirePositionCashOuts` writes. -/
def expiredRow (c : CashOutRow) (now : Time) : CashOutRow :=
  if c.state = .awaitingAuthorization then
    { c with
      state := .expired, revision := c.revision + 1, reasonCode := "AUTHORIZATION_EXPIRED"
      completedAt := some now, claim := none, updatedAt := now }
  else
    endPositionCashOutAuthorization
      { c with
        state := .failed, revision := c.revision + 1, reasonCode := "AUTHORIZATION_EXPIRED"
        completedAt := some now, claim := none, updatedAt := now }
      .revoked "AUTHORIZATION_EXPIRED" now

theorem expiredRow_id (c : CashOutRow) (now : Time) : (expiredRow c now).id = c.id := by
  unfold expiredRow
  split <;> rfl

def expireOne (picked : List UUID) (now : Time) (c : CashOut) : CashOut :=
  if c.id ∈ picked ∧ expirable c now then
    if h : (expiredRow c.toCashOutRow now).Checked then ⟨_, h⟩ else c
  else c

theorem expireOne_id (picked : List UUID) (now : Time) (c : CashOut) :
    (expireOne picked now c).id = c.id := by
  unfold expireOne
  split
  · split
    · exact expiredRow_id c.toCashOutRow now
    · rfl
  · rfl

/-- `ExpirePositionCashOuts`.  `picked` is the choice that the order, the limit and the
locks of other transactions make among the rows that are due. -/
def expirePositionCashOuts (picked : List UUID) (t : Tables) (now : Time) : Tables :=
  { t with cashOuts := t.cashOuts.update (expireOne picked now) (expireOne_id picked now) }

def getPositionCashOut (t : Tables) (owner id : UUID) : Except StoreError CashOut := do
  let c ← found (t.cashOut id) .notFound
  ensure (c.owner = owner) .notFound
  pure c

end Store
end Athena.CashOuts
