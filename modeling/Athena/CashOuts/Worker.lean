import Athena.CashOuts.Provider
import Athena.Lib.Program

/-!
# The Cash Out worker

A turn of the worker on one Cash Out, from the claim of the row to the record of what
became of it: a `Program` over the calls it makes, so that it is defined for every answer.

The attempt of a claimed row is read in a statement of its own after the claim.  A claim
of a turn has the number of the turn as its identifier.
-/

namespace Athena.CashOuts

open Athena.Lib Queries Store

/-! ## Calls -/

structure Credential where
  id : ℕ
  version : ℕ
  active : Bool
  deriving DecidableEq

/-- `WalletConnectionSnapshot`, with the address that is in effect. -/
structure Snapshot where
  connected : Bool
  address : String
  credential : Option Credential
  deriving DecidableEq

structure Client where
  walletId : ℕ
  credential : ℕ
  deriving DecidableEq

/-- An element of the answer of `BatchGetBalances`. -/
structure WalletBalance where
  walletId : ℕ
  address : String
  available : Bool
  decimals : ℕ
  observedSlot : ℕ
  atomicAmount : String
  deriving DecidableEq

/-- A position of a page, with its title.  `mapped` says that
`wormOpenPositionFromProvider` accepts it. -/
structure ListedPosition extends MarginPosition where
  title : String
  mapped : Bool
  deriving DecidableEq

structure PositionPage where
  positions : List ListedPosition
  limit : ℕ
  nextCursor : Option String
  deriving DecidableEq

inductive WorkerCall
  | now
  | uuid
  | alive
  | store (op : Operation) (now : Time)
  /-- `GetPositionCashOut`, its row. -/
  | cashOut (owner cashOut : UUID)
  /-- `GetPositionCashOutAttempt` -/
  | attempt (cashOut : UUID)
  /-- `GetPositionCashOutBatchItemByOrdinal` -/
  | item (ref : ItemRef)
  /-- `ListPositionCashOutBatchItems` -/
  | items (owner batch : UUID) (page pageSize : ℕ)
  /-- `GetWalletConnectionSnapshot` -/
  | connection (walletId : ℕ) (address : String)
  /-- Decrypt a credential and make a client for it. -/
  | client (walletId credential : ℕ)
  | reconnect (walletId : ℕ) (address : String) (credential : ℕ)
  | balances (walletId : ℕ) (address : String)
  | positions (client : Client) (cursor : String)
  /-- `GetMarginPosition` -/
  | position (client : Client) (pubkey : String)
  /-- Send the Close of a Cash Out. -/
  | close (cashOut : UUID) (client : Client) (request : CloseRequest)

@[reducible] def WorkerCall.Reply : WorkerCall → Type
  | .now => Time
  | .uuid => UUID
  | .alive => Bool
  | .store op _ => Except StoreError op.Reply
  | .cashOut .. => Except StoreError CashOut
  | .attempt .. => Except StoreError (Option Attempt)
  | .item .. => Except StoreError Item
  | .items .. => Except StoreError (List Item × ℕ)
  | .connection .. => Except StoreError Snapshot
  | .client .. => Bool
  | .reconnect .. => Unit
  | .balances .. => Except WormError (List WalletBalance)
  | .positions .. => Except WormError (Option PositionPage)
  | .position .. => Except WormError (Option MarginPosition)
  | .close .. => Option CloseResult × Option WormError

/-- Why a turn stops: an error of the store or of the provider, a failure to build a batch
that is recorded with its stage and reason, a cancelled context, or any other error. -/
inductive WorkerError
  | store (e : StoreError)
  | worm (e : WormError)
  | build (stage reasonCode : String)
  | cancelled
  | other

abbrev Worker (α : Type) : Type := Program WorkerCall WorkerCall.Reply WorkerError α

/-- `positionCashOutFrozenTarget` -/
def CashOutRow.frozenTarget (c : CashOutRow) : Target :=
  c.toPosition.target c.providerIsClosed c.providerIsLiquidated

/-- The credential of a connection that can be used; `version` is checked when it is
given. -/
def Snapshot.usable (s : Snapshot) (version : Option ℕ) : Option Credential :=
  match s.credential with
  | some k => if s.connected ∧ k.active ∧ (version.all fun v => k.version = v) then some k else none
  | none => none

def Target.freeze (target : Target) (walletId : ℕ) (address : String) (version : ℕ) : Position where
  walletId := walletId
  walletAddress := address
  credentialVersion := version
  positionPubkey := target.positionPubkey
  marketConditionId := target.marketConditionId
  isYes := target.isYes
  positionCreatedAt := target.createdAt * second
  positionRequestPubkey := target.positionRequestPubkey.getD ""
  shares := target.totalShares

def CashOutRow.withAttempt (c : CashOutRow) (a : Option Attempt) : CashOutRow :=
  { c with attempt := a }

@[simp] theorem CashOutRow.withAttempt_id (c : CashOutRow) (a : Option Attempt) :
    (c.withAttempt a).id = c.id := rfl

namespace Worker

def positionCashOutClaimLease : Time := 45 * second

def positionCashOutPendingPoll : Time := second

def ask (c : WorkerCall) : Worker c.Reply := Program.ask c

def storeAt (op : Operation) (now : Time) : Worker op.Reply := do
  match ← ask (.store op now) with
  | .ok a => pure a
  | .error e => .fail (.store e)

def store (op : Operation) : Worker op.Reply := do
  let now ← ask .now
  storeAt op now

def commit (op : Operation) : Worker Unit := do
  let _ ← store op
  pure ()

/-- `loadPositionCashOut`, of a row that a statement returned. -/
def loadPositionCashOut (c : CashOut) : Worker CashOutRow := do
  match ← ask (.attempt c.id) with
  | .ok a => pure (c.toCashOutRow.withAttempt a)
  | .error e => .fail (.store e)

def claimPositionCashOut (i : ℕ) (worker cashOut : UUID) (leaseExpiresAt now : Time) :
    Worker CashOutRow := do
  let c ← storeAt (.claim cashOut ⟨i, worker, leaseExpiresAt⟩) now
  loadPositionCashOut c

def getPositionCashOut (owner cashOut : UUID) : Worker CashOutRow := do
  match ← ask (.cashOut owner cashOut) with
  | .ok c => loadPositionCashOut c
  | .error e => .fail (.store e)

/-! ## Clients and reads -/

/-- `positionCashOutClient`, when there is one. -/
def positionCashOutClient (c : CashOutRow) : Worker (Option Client) := do
  match ← ask (.connection c.walletId c.walletAddress) with
  | .error _ => pure none
  | .ok s =>
    match s.usable (if wasDispatched c.attempt then none else some c.credentialVersion) with
    | none => pure none
    | some k =>
      if ← ask (.client c.walletId k.id) then pure (some ⟨c.walletId, k.id⟩) else pure none

def observeMarginPositionCashOut (client : Client) (target : Target) :
    Worker (Except WormError Target) := do
  if target.valid then
    match ← ask (.position client target.positionPubkey) with
    | .ok p => pure (observedTarget target p)
    | .error e => pure (.error e)
  else pure (.error .other)

def observePositionCashOut (client : Client) (c : CashOutRow) : Worker (Except WormError Target) :=
  observeMarginPositionCashOut client c.frozenTarget

/-- Mark that the Wallet has to be reconnected when the provider refused the credential. -/
def markReconnect (client : Client) (address : String) (e : WormError) : Worker Unit :=
  if e.isAuthentication then ask (.reconnect client.walletId address client.credential)
  else pure ()

/-- `markReconnect`, when there was an error. -/
def markReconnectAfter (client : Client) (address : String) : Option WormError → Worker Unit
  | some e => markReconnect client address e
  | none => pure ()

def canonicalNonNegativeAtomicAmount (value : String) : Bool :=
  (Numeral.readInt? value).any fun n => 0 ≤ n ∧ Numeral.showInt n = value

def readPositionCashOutBatchBalance (walletId : ℕ) (address : String) : Worker Balance := do
  match ← ask (.balances walletId address) with
  | .error e => .fail (.worm e)
  | .ok [b] =>
    if b.walletId = walletId ∧ b.address = address ∧ b.available ∧ b.decimals = 6 ∧
        b.observedSlot ≠ 0 ∧ canonicalNonNegativeAtomicAmount b.atomicAmount then
      pure ⟨positionCashOutBatchUSDCMint, b.decimals, b.atomicAmount, b.observedSlot⟩
    else .fail .other
  | .ok _ => .fail .other

/-! ## Records -/

def recordPositionCashOutState (i : ℕ) (c : CashOutRow) (nextState : State)
    (reasonCode providerState : String) (observed : Target) (nextPollAt : Option Time) :
    Worker Unit :=
  commit (.observe c.id i
    { expectedState := c.state, nextState, reasonCode, providerState
      providerIsClosed := observed.isClosed, providerIsLiquidated := observed.isLiquidated
      nextPollAt })

def recordPositionCashOutFailure (i : ℕ) (c : CashOutRow) (reasonCode providerState : String) :
    Worker Unit :=
  recordPositionCashOutState i c .failed reasonCode providerState c.frozenTarget none

def recordPositionCashOutReconciliation (i : ℕ) (c : CashOutRow)
    (reasonCode providerState : String) (observed : Target) : Worker Unit := do
  let now ← ask .now
  recordPositionCashOutState i c .reconciliationRequired reasonCode providerState observed
    (some (now + positionCashOutPendingPoll))

def handlePositionCashOutPreflightError (i : ℕ) (client : Client) (c : CashOutRow) (e : WormError) :
    Worker Unit := do
  markReconnect client c.walletAddress e
  if e.isAuthentication then recordPositionCashOutFailure i c "WORM_CONNECTION_CHANGED" ""
  else if e.isNotFound then recordPositionCashOutFailure i c "POSITION_NOT_FOUND" ""
  -- nothing was sent: the claim runs out, and a later turn repeats the read
  else if e.isTemporary then .fail (.worm e)
  else recordPositionCashOutFailure i c "POSITION_CHANGED" ""

def positionCashOutBatchMutationNotDispatched (c : CashOutRow) : Bool :=
  c.source.isSome && !wasDispatched c.attempt

def isRejected (a : Option Attempt) : Bool := a.any Attempt.isRejected

def isUndecided (a : Option Attempt) : Bool :=
  a.any fun a => match a.status with
    | .dispatched _ | .resolved .outcomeUnknown _ _ => true
    | _ => false

/-- `reconcileClaimedPositionCashOut`, after the read. -/
def reconcileObserved (i : ℕ) (c : CashOutRow) (observed : Target) : Worker Unit := do
  let providerState := positionCashOutProviderState observed
  if observed.isLiquidated then
    if positionCashOutBatchMutationNotDispatched c then
      recordPositionCashOutFailure i c "POSITION_LIQUIDATED" providerState
    else recordPositionCashOutState i c .failed "POSITION_LIQUIDATED" providerState observed none
  else if observed.isClosed then
    if positionCashOutBatchMutationNotDispatched c then
      recordPositionCashOutFailure i c "POSITION_CHANGED" providerState
    else recordPositionCashOutState i c .completed "" providerState observed none
  else if isRejected c.attempt then
    recordPositionCashOutState i c .failed "CLOSE_REJECTED" providerState observed none
  else if c.state = .reconciliationRequired ∨ isUndecided c.attempt then
    recordPositionCashOutReconciliation i c "CLOSE_OUTCOME_UNKNOWN" providerState observed
  else
    let now ← ask .now
    recordPositionCashOutState i c .awaitingCompletion "" providerState observed
      (some (now + positionCashOutPendingPoll))

def reconcileClaimedPositionCashOut (i : ℕ) (client : Client) (c : CashOutRow) : Worker Unit := do
  match ← observePositionCashOut client c with
  | .ok observed => reconcileObserved i c observed
  | .error e =>
    markReconnect client c.walletAddress e
    recordPositionCashOutReconciliation i c
      (if e.isNotFound then "POSITION_NOT_FOUND" else "CLOSE_OUTCOME_UNKNOWN") "" c.frozenTarget

/-! ## Dispatch -/

def preparedAttempt (i : ℕ) (c : CashOutRow) (command : CloseRequest) : Worker Attempt :=
  match c.attempt with
  | some a => pure a
  | none => do
      let id ← ask .uuid
      store (.prepare c.id id i command)

/-- Dispatch the attempt, with the baseline of the balance for the child of a batch. -/
def dispatchAttempt (i : ℕ) (c : CashOutRow) (attempt : UUID) : Worker Attempt :=
  match c.source with
  | none => store (.dispatch c.id attempt i)
  | some item => do
      let baseline ← readPositionCashOutBatchBalance c.walletId c.walletAddress
      let now ← ask .now
      storeAt (.dispatchBatch
        { item, cashOut := c.id, attempt, claim := i, baseline, nextPollAt := now }) now

/-- What `dispatchPreparedPositionCashOut` does with the answer to the Close. -/
def resolveDispatch (i : ℕ) (client : Client) (c : CashOutRow) (attempt : UUID)
    (observation : Option DispatchObservation) (e : Option WormError) : Worker Unit := do
  markReconnectAfter client c.walletAddress e
  if e = none ∧ (observation.any fun o => o.positionPubkey = c.positionPubkey ∧ o.isClosed) then
    commit (.completeDispatch c.id attempt i (dispatchResolution e "closed"))
  else
    let a ← store (.resolve c.id attempt (dispatchResolution e (dispatchState observation)))
    reconcileClaimedPositionCashOut i client (c.withAttempt (some a))

def dispatchPreparedPositionCashOut (i : ℕ) (client : Client) (c : CashOutRow)
    (command : CloseRequest) : Worker Unit := do
  let prepared ← preparedAttempt i c command
  match ← (dispatchAttempt i (c.withAttempt (some prepared)) prepared.id).attempt with
  | .ok dispatched =>
    let answer ← ask (.close c.id client command)
    let (observation, e) := dispatchResult command answer
    resolveDispatch i client (c.withAttempt (some dispatched)) prepared.id observation e
  -- the batch refused the mutation, which is still prepared
  | .error (.store .batchClaim) =>
    if c.source = none then .fail (.store .batchClaim)
    else recordPositionCashOutFailure i c "BATCH_TERMINATED" c.providerState
  | .error e => .fail e

/-! ## Preflight -/

/-- The read before a Close, with what the worker records unless the position can be
closed. -/
def whenClosable (i : ℕ) (client : Client) (c : CashOutRow) (next : Target → Worker Unit) :
    Worker Unit := do
  match ← observePositionCashOut client c with
  | .error e => handlePositionCashOutPreflightError i client c e
  | .ok observed =>
    let providerState := positionCashOutProviderState observed
    if c.source.isSome ∧ observed.totalShares ≠ c.shares then
      recordPositionCashOutFailure i c "POSITION_CHANGED" providerState
    else if observed.isLiquidated then
      if c.source.isSome then
        recordPositionCashOutFailure i c "POSITION_LIQUIDATED" providerState
      else recordPositionCashOutState i c .failed "POSITION_LIQUIDATED" providerState observed none
    else if observed.isClosed then
      if c.source.isSome then recordPositionCashOutFailure i c "POSITION_CHANGED" providerState
      else recordPositionCashOutState i c .completed "" providerState observed none
    else next observed

def withCommand (i : ℕ) (c : CashOutRow) (observed : Target) (next : CloseRequest → Worker Unit) :
    Worker Unit :=
  match prepareMarginPositionCashOut observed with
  | none =>
    recordPositionCashOutFailure i c "INVALID_RESPONSE" (positionCashOutProviderState observed)
  | some command => next command

/-- A Cash Out in `PREFLIGHTING`. -/
def preflight (i : ℕ) (client : Client) (c : CashOutRow) : Worker Unit :=
  whenClosable i client c fun observed => do
    let now ← ask .now
    if c.executionExpiresAt.all (fun e => e < now) then pure ()
    else withCommand i c observed fun command => do
      let closing ← store (.beginClosing c.id i (positionCashOutProviderState observed))
      let c ← loadPositionCashOut closing
      dispatchPreparedPositionCashOut i client c command

/-- A Cash Out in `CLOSING` whose mutation was not dispatched.  The read is repeated, so
that it stands right before the Close. -/
def resumeClosing (i : ℕ) (client : Client) (c : CashOutRow) : Worker Unit :=
  whenClosable i client c fun observed => do
    let now ← ask .now
    if c.executionExpiresAt.all (fun e => e ≤ now) then pure ()
    else withCommand i c observed fun command =>
      if c.attempt.any fun a => a.request ≠ command then
        recordPositionCashOutReconciliation i c "INVALID_RESPONSE"
          (positionCashOutProviderState observed) observed
      else dispatchPreparedPositionCashOut i client c command

def processClaimedPositionCashOut (i : ℕ) (c : CashOutRow) : Worker Unit := do
  match ← positionCashOutClient c with
  | none =>
    if wasDispatched c.attempt then
      recordPositionCashOutReconciliation i c "WORM_CONNECTION_CHANGED" "" c.frozenTarget
    else recordPositionCashOutFailure i c "WORM_CONNECTION_CHANGED" ""
  | some client =>
    if c.state = .preflighting then preflight i client c
    else if c.state = .closing ∧ wasDispatched c.attempt = false then resumeClosing i client c
    else reconcileClaimedPositionCashOut i client c

/-- A turn of `runPositionCashOutRecoveryPass` on one row. -/
def cashOutTurn (i : ℕ) (worker cashOut : UUID) : Worker Unit := do
  let lease ← ask .now
  let now ← ask .now
  let c ← claimPositionCashOut i worker cashOut (lease + positionCashOutClaimLease) now
  processClaimedPositionCashOut i c

/-! ## Creation -/

def positionCashOutAuthorizationTTL : Time := 300 * second

/-- `readPositionCashOutTarget`: the position and the version of the credential. -/
def readPositionCashOutTarget (walletId : ℕ) (address pubkey : String) : Worker (Target × ℕ) := do
  match ← ask (.connection walletId address) with
  | .error e => .fail (.store e)
  | .ok s =>
    match s.usable none with
    | none => .fail .other
    | some k =>
      if ← ask (.client walletId k.id) then
        match ← ask (.position ⟨walletId, k.id⟩ pubkey) with
        | .error e =>
          markReconnect ⟨walletId, k.id⟩ address e
          .fail (.worm e)
        | .ok p =>
          match inspectMarginPositionCashOutTarget p with
          | .ok target =>
            if target.positionPubkey = pubkey ∧ 0 < k.version then pure (target, k.version)
            else .fail .other
          | .error e => .fail (.worm e)
      else .fail .other

/-- `CreatePositionCashOut` of the service, when the command is not a replay. -/
def createTurn (owner command : UUID) (walletId : ℕ) (address pubkey : String) : Worker Unit := do
  let (target, version) ← readPositionCashOutTarget walletId address pubkey
  let now ← ask .now
  let id ← ask .uuid
  let _ ← storeAt (.create
    { owner, command, position := target.freeze walletId address version
      providerState := positionCashOutProviderState target
      providerIsClosed := target.isClosed, providerIsLiquidated := target.isLiquidated
      authorizationExpiresAt := now + positionCashOutAuthorizationTTL } id) now
  pure ()

end Worker
end Athena.CashOuts
