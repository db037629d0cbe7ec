import Athena.CashOuts.Worker

/-!
# The batch worker

A turn of the worker on one batch: it builds the frozen order of a new batch, activates
the next item, or follows the child of the current item up to the balance gate.

The current item of a claimed batch is read in a statement of its own after the claim.
The child of a blocked item is claimed inside the turn, under the number of the turn; a
claim of a batch and one of a Cash Out are never compared.
-/

namespace Athena.CashOuts

open Athena.Lib Queries Store

/-- `positionCashOutBatchFrozenTarget` -/
def ItemRow.frozenTarget (i : ItemRow) : Target := i.toPosition.target false false

def positionCashOutBatchChildMatches (b : BatchRow) (i : ItemRow) (c : CashOutRow) : Bool :=
  some c.id = i.child && c.source = some ⟨b.id, i.ordinal⟩ && c.owner = b.owner &&
    c.toPosition = i.toPosition

def positionCashOutBatchPreservedBlockingState (b : BatchRow) (fallback : BatchState) :
    BatchState :=
  match b.state with
  | .terminateRequested | .paused | .reconciliationRequired => b.state
  | _ => fallback

def positionCashOutBatchChildReason (c : CashOutRow) (fallback : String) : String :=
  if Text.trimSpace c.reasonCode = "" then fallback else Text.trimSpace c.reasonCode

def positionCashOutBatchWalletByOrdinal (b : BatchRow) (ordinal : ℕ) : Option BatchWallet :=
  b.wallets.find? fun w => w.ordinal = ordinal

namespace Worker

def positionCashOutBatchClaimLease : Time := 45 * second

def positionCashOutBatchAuthorizationTTL : Time := 300 * second

def positionCashOutBatchItemPollInterval : Time := second

/-- `positionCashOutBatchImmediatePoll`, a millisecond. -/
def positionCashOutBatchImmediatePoll : Time := 1000

def positionCashOutBatchBalancePoll : Time := 2 * second

def positionCashOutBatchBalanceTimeout : Time := 120 * second

def positionCashOutBatchMaximumPositions : ℕ := 1000

def wormPositionPageSize : ℕ := 100

/-! ## Records -/

def blockPositionCashOutBatch (i : ℕ) (b : Batch) (item : Item) (itemState : ItemState)
    (batchState : BatchState) (reasonCode : String) : Worker Unit :=
  commit (.recordBlocking
    { item := ⟨b.id, item.ordinal⟩, claim := i, itemState, batchState, reasonCode })

def recordPositionCashOutBatchItemProgress (i : ℕ) (b : Batch) (item : Item) (nextState : ItemState)
    (providerState : String) (balanceDeadlineAt : Option Time) (pollAfter : Time) :
    Worker Unit := do
  let now ← ask .now
  let _ ← storeAt (.recordItem
    { item := ⟨b.id, item.ordinal⟩, claim := i, expectedState := item.state
      nextState := if item.state = nextState ∧ nextState = .preflighting then .closing
        else nextState
      providerState, balanceDeadlineAt, nextPollAt := now + pollAfter }) now
  pure ()

def completePositionCashOutBatchBoundary (i : ℕ) (b : Batch) : Worker Unit :=
  commit (.boundary b.id i)

/-- `positionCashOutBatchWalletClient`; a Wallet whose connection changed is a failure of
the build. -/
def positionCashOutBatchWalletClient (w : BatchWallet) : Worker Client := do
  match ← ask (.connection w.walletId w.address) with
  | .error e => .fail (.store e)
  | .ok s =>
    match s.usable (some w.credentialVersion) with
    | none => .fail (.build "WALLET_PREFLIGHT" "WORM_CONNECTION_CHANGED")
    | some k =>
      if s.address ≠ w.address then .fail (.build "WALLET_PREFLIGHT" "WORM_CONNECTION_CHANGED")
      else if ← ask (.client w.walletId k.id) then pure ⟨w.walletId, k.id⟩
      else .fail (.build "WALLET_PREFLIGHT" "WORM_CONNECTION_CHANGED")

/-! ## Build -/

def renewPositionCashOutBatchClaim (i : ℕ) (worker batch : UUID) : Worker Unit := do
  let now ← ask .now
  let _ ← storeAt (.renewBatch batch ⟨i, worker, now + positionCashOutBatchClaimLease⟩) now
  pure ()

def isCanonicalNonEmptyString (value : String) : Bool :=
  value ≠ "" && value = Text.trimSpace value &&
    value.toList.all fun c => 0x20 ≤ c.toNat && (c.toNat < 0x7f || 0x9f < c.toNat)

/-- `nextExecutionPreviewCursor`: the next cursor, or none after the last page. -/
def nextExecutionPreviewCursor (current : String) (page : PositionPage) (seen : List String) :
    Option (Option String) :=
  if page.limit ≠ wormPositionPageSize then none
  else
    match page.nextCursor with
    | none | some "" => some none
    | some next =>
      if isCanonicalNonEmptyString next = false ∨ 4096 < next.utf8ByteSize ∨ next = current ∨
          next ∈ seen then none
      else some (some next)

def itemInput (w : BatchWallet) (target : Target) (title : String) : ItemInput :=
  { target.freeze w.walletId w.address w.credentialVersion with
    walletOrdinal := w.ordinal, positionOrdinal := 0, walletRemark := w.remark
    marketTitle := title, providerState := "open" }

/-- The positions of a page after those of the pages before, or the reason why not. -/
def addPositions (w : BatchWallet) (acc : List ItemInput) :
    List ListedPosition → Except String (List ItemInput)
  | [] => .ok acc
  | p :: ps =>
    match inspectMarginPositionCashOutTarget (some p.toMarginPosition) with
    | .error _ => .error "INVALID_RESPONSE"
    | .ok target =>
      if p.mapped = false ∨ p.isClosed ∨ p.isLiquidated then .error "INVALID_RESPONSE"
      else if acc.any fun a => a.positionPubkey = target.positionPubkey then
        .error "INVALID_RESPONSE"
      else if positionCashOutBatchMaximumPositions < acc.length + 1 then
        .error "POSITION_LIMIT_EXCEEDED"
      else addPositions w (acc ++ [itemInput w target p.title]) ps

def ordered (a b : ItemInput) : Bool :=
  if a.positionCreatedAt = b.positionCreatedAt then a.positionPubkey ≤ b.positionPubkey
  else b.positionCreatedAt < a.positionCreatedAt

def numbered (positions : List ItemInput) : List ItemInput :=
  (positions.insertionSort fun a b => ordered a b).mapIdx fun k p =>
    { p with positionOrdinal := k + 1 }

/-- The loop of `scanPositionCashOutBatchWallet`, for at most `pages` more pages. -/
def scanPages (i : ℕ) (worker batch : UUID) (client : Client) (w : BatchWallet) :
    (pages : ℕ) → (cursor : String) → (seen : List String) → List ItemInput →
      Worker (List ItemInput)
  | 0, _, _, _ => .fail (.build "POSITION_SCAN" "INVALID_RESPONSE")
  | pages + 1, cursor, seen, acc => do
      renewPositionCashOutBatchClaim i worker batch
      match ← ask (.positions client cursor) with
      | .error e =>
        markReconnect client w.address e
        .fail (.build "POSITION_SCAN" "POSITION_SCAN_FAILED")
      | .ok none => .fail (.build "POSITION_SCAN" "INVALID_RESPONSE")
      | .ok (some page) =>
        if wormPositionPageSize < page.positions.length then
          .fail (.build "POSITION_SCAN" "INVALID_RESPONSE")
        else
          match addPositions w acc page.positions with
          | .error reason => .fail (.build "POSITION_SCAN" reason)
          | .ok acc =>
            match nextExecutionPreviewCursor cursor page seen with
            | none => .fail (.build "POSITION_SCAN" "INVALID_RESPONSE")
            | some none => pure acc
            | some (some next) =>
              if page.positions = [] then .fail (.build "POSITION_SCAN" "INVALID_RESPONSE")
              else scanPages i worker batch client w pages next (next :: seen) acc

def scanPositionCashOutBatchWallet (i : ℕ) (worker batch : UUID) (client : Client)
    (w : BatchWallet) : Worker (List ItemInput) :=
  numbered <$> scanPages i worker batch client w
    (positionCashOutBatchMaximumPositions / wormPositionPageSize + 1) "" [] []

def unlessCancelled {α : Type} (p : Worker α) : Worker α := do
  match ← p.attempt with
  | .ok a => pure a
  | .error e => if ← ask .alive then .fail e else .fail .cancelled

/-- The loop of `buildClaimedPositionCashOutBatch` over the Wallets. -/
def buildWallets (i : ℕ) (worker batch : UUID) :
    (place : ℕ) → List BatchWallet → List ItemInput → Worker (List ItemInput)
  | _, [], items => pure items
  | place, w :: ws, items => do
      if w.ordinal ≠ place ∨ w.walletId = 0 ∨ w.address = "" ∨ w.credentialVersion = 0 then
        .fail (.build "WALLET_PREFLIGHT" "INVALID_RESPONSE")
      else
        renewPositionCashOutBatchClaim i worker batch
        let client ← positionCashOutBatchWalletClient w
        let positions ← unlessCancelled (scanPositionCashOutBatchWallet i worker batch client w)
        if positions = [] then .fail (.build "POSITION_SCAN" "NO_OPEN_POSITIONS")
        else if positionCashOutBatchMaximumPositions < items.length + positions.length then
          .fail (.build "POSITION_SCAN" "POSITION_LIMIT_EXCEEDED")
        else buildWallets i worker batch (place + 1) ws (items ++ positions)

def buildClaimedPositionCashOutBatch (i : ℕ) (worker : UUID) (b : Batch) : Worker Unit := do
  if b.wallets = [] ∨ 20 < b.wallets.length then
    commit (.failBuild b.id i "INVALID_RESPONSE" "WALLET_PREFLIGHT")
  else
    match ← (buildWallets i worker b.id 1 b.wallets []).attempt with
    | .ok items =>
      let now ← ask .now
      let _ ← storeAt (.build
        { batch := b.id, claim := i, items
          authorizationExpiresAt := now + positionCashOutBatchAuthorizationTTL }) now
      pure ()
    | .error (.build stage reason) => commit (.failBuild b.id i reason stage)
    | .error e => .fail e

/-! ## Activation -/

def loadPositionCashOutBatchItemByOrdinal (b : Batch) (ordinal : ℕ) : Worker Item := do
  if ordinal = 0 ∨ b.positionCount < ordinal then .fail .other
  else
    match ← ask (.items b.owner b.id ((ordinal - 1) / 100 + 1) 100) with
    | .error e => .fail (.store e)
    | .ok (items, total) =>
      if total ≠ b.positionCount then .fail .other
      else
        match items.find? fun item => item.ordinal = ordinal with
        | some item => pure item
        | none => .fail .other

def blockNext (i : ℕ) (b : Batch) (item : Item) (reasonCode : String) : Worker Unit :=
  blockPositionCashOutBatch i b item .reconciliationRequired .paused reasonCode

/-- What `activateNextPositionCashOutBatchItem` does when the position cannot be read. -/
def activationUnread (i : ℕ) (b : Batch) (item : Item) (client : Client) (e : WormError) :
    Worker Unit := do
  if ← ask .alive then
    if e.isTemporary then commit (.deferPreflight ⟨b.id, item.ordinal⟩ i)
    else
      markReconnect client item.walletAddress e
      blockNext i b item
        (if e.isAuthentication then "WORM_CONNECTION_CHANGED"
         else if e.isNotFound then "POSITION_NOT_FOUND" else "POSITION_CHANGED")
  else .fail .cancelled

/-- `activateNextPositionCashOutBatchItem`, with the client of the Wallet. -/
def activateWith (i : ℕ) (b : Batch) (item : Item) (client : Client) : Worker Unit := do
  match ← observeMarginPositionCashOut client item.frozenTarget with
  | .error e => activationUnread i b item client e
  | .ok observed =>
    if observed.totalShares ≠ item.shares then blockNext i b item "POSITION_CHANGED"
    else if observed.isLiquidated ∨ observed.isClosed then
      blockNext i b item
        (if observed.isLiquidated then "POSITION_LIQUIDATED" else "POSITION_CHANGED")
    else
      let now ← ask .now
      let cashOut ← ask .uuid
      let _ ← storeAt (.activate
        { item := ⟨b.id, item.ordinal⟩, claim := i, cashOut, providerState := "open"
          nextPollAt := now + positionCashOutBatchItemPollInterval }) now
      pure ()

def activateNextPositionCashOutBatchItem (i : ℕ) (b : Batch) : Worker Unit := do
  let item ← loadPositionCashOutBatchItemByOrdinal b (b.nextItem.getD 0)
  if item.state ≠ .pending ∨ item.child ≠ none then .fail .other
  else
    match positionCashOutBatchWalletByOrdinal b.toBatchRow item.walletOrdinal with
    | none => blockNext i b item "CHILD_OPERATION_MISMATCH"
    | some w =>
      if w.walletId ≠ item.walletId ∨ w.address ≠ item.walletAddress ∨
          w.credentialVersion ≠ item.credentialVersion then
        blockNext i b item "CHILD_OPERATION_MISMATCH"
      else
        match ← (positionCashOutBatchWalletClient w).attempt with
        | .ok client => activateWith i b item client
        | .error (.build _ reason) => blockNext i b item reason
        | .error e => .fail e

/-! ## The current item -/

/-- Block the current item, and keep a state that the batch is blocked in already. -/
def blockCurrent (i : ℕ) (b : Batch) (item : Item) (fallback : BatchState) (reasonCode : String) :
    Worker Unit :=
  blockPositionCashOutBatch i b item .reconciliationRequired
    (positionCashOutBatchPreservedBlockingState b.toBatchRow fallback) reasonCode

def observePositionCashOutBatchBalance (i : ℕ) (b : Batch) (item : Item) : Worker Unit := do
  let now ← ask .now
  let timedOut : Bool := item.balanceDeadlineAt.any fun d => d ≤ now
  match ← (readPositionCashOutBatchBalance item.walletId item.walletAddress).attempt with
  | .ok observed =>
    let _ ← storeAt (.recordBalance
      { item := ⟨b.id, item.ordinal⟩, claim := i, observed, timedOut }) now
    pure ()
  | .error e =>
    let _ ← storeAt (.deferBalance ⟨b.id, item.ordinal⟩ i timedOut) now
    if timedOut then pure () else .fail e

def processCompletedChild (i : ℕ) (b : Batch) (item : Item) (c : CashOutRow) : Worker Unit :=
  match c.completedAt with
  | none => blockCurrent i b item .reconciliationRequired "CHILD_OPERATION_MISMATCH"
  | some completedAt =>
    if c.providerIsClosed = false ∨ c.providerIsLiquidated ∨ wasDispatched c.attempt = false ∨
        item.baseline = none then
      blockCurrent i b item .reconciliationRequired "CHILD_OPERATION_MISMATCH"
    else if item.state = .awaitingBalance then observePositionCashOutBatchBalance i b item
    else do
      let deadline := completedAt + positionCashOutBatchBalanceTimeout
      let now ← ask .now
      recordPositionCashOutBatchItemProgress i b item .awaitingBalance "closed" (some deadline)
        (if deadline ≤ now then positionCashOutBatchImmediatePoll
         else positionCashOutBatchBalancePoll)

def processChildState (i : ℕ) (b : Batch) (item : Item) (c : CashOutRow) : Worker Unit :=
  let progress (next : ItemState) : Worker Unit :=
    recordPositionCashOutBatchItemProgress i b item next (Text.trimSpace c.providerState) none
      positionCashOutBatchItemPollInterval
  match c.state with
  | .queued | .preflighting | .closing =>
    progress (if item.state = .awaitingPosition then .awaitingPosition else .closing)
  | .awaitingCompletion => progress .awaitingPosition
  | .completed => processCompletedChild i b item c
  | .failed | .expired =>
    let reason := positionCashOutBatchChildReason c "POSITION_CASH_OUT_FAILED"
    if wasDispatched c.attempt then blockPositionCashOutBatch i b item .failed .failed reason
    else blockCurrent i b item .paused reason
  | .reconciliationRequired =>
    blockCurrent i b item .reconciliationRequired
      (positionCashOutBatchChildReason c "CLOSE_OUTCOME_UNKNOWN")
  | .awaitingAuthorization =>
    blockCurrent i b item .reconciliationRequired "CHILD_OPERATION_MISMATCH"

def reconcileBlockedPositionCashOutBatchChild (i : ℕ) (worker : UUID) (c : CashOutRow) :
    Worker CashOutRow := do
  if c.source = none ∨ c.state ≠ .reconciliationRequired then .fail .other
  else
    let now ← ask .now
    let claimed ← claimPositionCashOut i worker c.id (now + positionCashOutClaimLease) now
    processClaimedPositionCashOut i claimed
    getPositionCashOut c.owner c.id

/-- `checkBlockedPositionCashOutBatchChild`: the reason to block the item with. -/
def checkBlockedPositionCashOutBatchChild (c : CashOutRow) (fallback : String) : Worker String := do
  match ← positionCashOutClient c with
  | none => pure "WORM_CONNECTION_CHANGED"
  | some client =>
    let observed ← observePositionCashOut client c
    if ← ask .alive then
      match observed with
      | .error e =>
        markReconnect client c.walletAddress e
        pure (if e.isAuthentication then "WORM_CONNECTION_CHANGED"
          else if e.isNotFound then "POSITION_NOT_FOUND" else fallback)
      | .ok o =>
        pure (if o.isLiquidated then "POSITION_LIQUIDATED"
          else if wasDispatched c.attempt then "CLOSE_OUTCOME_UNKNOWN" else "POSITION_CHANGED")
    else .fail .cancelled

def checkBlockedItem (i : ℕ) (b : Batch) (item : Item) (client : Client) : Worker Unit := do
  let observed ← observeMarginPositionCashOut client item.frozenTarget
  if ← ask .alive then
    match observed with
    | .error e =>
      markReconnect client item.walletAddress e
      blockPositionCashOutBatch i b item .reconciliationRequired b.state
        (if e.isAuthentication then "WORM_CONNECTION_CHANGED"
         else if e.isNotFound then "POSITION_NOT_FOUND"
         else if item.reasonCode = "" then "POSITION_CHANGED" else item.reasonCode)
    | .ok o =>
      blockPositionCashOutBatch i b item .reconciliationRequired b.state
        (if o.isLiquidated then "POSITION_LIQUIDATED" else "POSITION_CHANGED")
  else .fail .cancelled

def processBlockedPositionCashOutBatchItem (i : ℕ) (b : Batch) (item : Item) : Worker Unit := do
  if b.state = .terminateRequested then completePositionCashOutBatchBoundary i b
  else if item.state ≠ .reconciliationRequired ∨
      (b.state ≠ .paused ∧ b.state ≠ .reconciliationRequired) then .fail .other
  else
    match positionCashOutBatchWalletByOrdinal b.toBatchRow item.walletOrdinal with
    | none =>
      blockPositionCashOutBatch i b item .reconciliationRequired b.state "CHILD_OPERATION_MISMATCH"
    | some w =>
      match ← (positionCashOutBatchWalletClient w).attempt with
      | .ok client => checkBlockedItem i b item client
      | .error (.build _ reason) =>
        blockPositionCashOutBatch i b item .reconciliationRequired b.state reason
      | .error e => .fail e

def waits (b : Batch) : Bool :=
  b.state = .paused || b.state = .reconciliationRequired || b.state = .terminateRequested

def blockAgain (i : ℕ) (b : Batch) (item : Item) (reasonCode : String) : Worker Unit :=
  blockCurrent i b item b.state reasonCode

/-- An item that needs reconciliation, whose child needs it too: the child is reconciled
in this turn. -/
def reconcileBlockedItem (i : ℕ) (worker : UUID) (b : Batch) (item : Item) (c : CashOutRow) :
    Worker Unit := do
  match ← (reconcileBlockedPositionCashOutBatchChild i worker c).attempt with
  | .error e =>
    -- the check that was asked for stays due
    commit (.deferCheck b.id i)
    .fail e
  | .ok c' =>
    if positionCashOutBatchChildMatches b.toBatchRow item.toItemRow c' = false then
      blockCurrent i b item .reconciliationRequired "CHILD_OPERATION_MISMATCH"
    else if c'.state = .completed then processChildState i b item c'
    else blockAgain i b item (positionCashOutBatchChildReason c'
      (positionCashOutBatchChildReason c "CLOSE_OUTCOME_UNKNOWN"))

def processUnreconciled (i : ℕ) (worker : UUID) (b : Batch) (item : Item) (c : CashOutRow) :
    Worker Unit := do
  let reason := positionCashOutBatchChildReason c "CLOSE_OUTCOME_UNKNOWN"
  if waits b then
    if c.state = .reconciliationRequired then reconcileBlockedItem i worker b item c
    else
      let reason ← checkBlockedPositionCashOutBatchChild c reason
      blockAgain i b item reason
  else blockAgain i b item reason

/-- `processPositionCashOutBatchItem`, with the child. -/
def processChild (i : ℕ) (worker : UUID) (b : Batch) (item : Item) (c : CashOutRow) : Worker Unit :=
  if positionCashOutBatchChildMatches b.toBatchRow item.toItemRow c = false then
    blockCurrent i b item .reconciliationRequired "CHILD_OPERATION_MISMATCH"
  else if b.state = .terminateRequested ∧ wasDispatched c.attempt = false ∧
      (c.state = .failed ∨ c.state = .reconciliationRequired) then
    completePositionCashOutBatchBoundary i b
  else if item.state = .reconciliationRequired ∧ c.state ≠ .completed then
    processUnreconciled i worker b item c
  else processChildState i b item c

def processPositionCashOutBatchItem (i : ℕ) (worker : UUID) (b : Batch) (item : Item) :
    Worker Unit := do
  match item.child with
  | none => processBlockedPositionCashOutBatchItem i b item
  | some child =>
    match ← (getPositionCashOut b.owner child).attempt with
    | .error _ => blockCurrent i b item .reconciliationRequired "CHILD_OPERATION_MISMATCH"
    | .ok c => processChild i worker b item c

/-! ## Turns -/

/-- `loadPositionCashOutBatch`: the current item of a batch that a statement returned. -/
def loadPositionCashOutBatch (b : Batch) : Worker (Option Item) := do
  match b.currentItem with
  | none => pure none
  | some ordinal =>
    match ← ask (.item ⟨b.id, ordinal⟩) with
    | .ok item => pure (some item)
    | .error e => .fail (.store e)

def processClaimedPositionCashOutBatch (i : ℕ) (worker : UUID) (b : Batch)
    (currentItem : Option Item) : Worker Unit :=
  match b.state with
  | .building => buildClaimedPositionCashOutBatch i worker b
  | .running | .pauseRequested | .terminateRequested =>
    match currentItem with
    | none =>
      if b.state ≠ .running ∨ b.completedCount = b.positionCount then
        completePositionCashOutBatchBoundary i b
      else activateNextPositionCashOutBatchItem i b
    | some item => processPositionCashOutBatchItem i worker b item
  | .paused | .reconciliationRequired =>
    match currentItem with
    | none => .fail .other
    | some item => processPositionCashOutBatchItem i worker b item
  | _ => .fail .other

/-- A turn of `runPositionCashOutBatchRecoveryPass` on one batch. -/
def batchTurn (i : ℕ) (worker batch : UUID) : Worker Unit := do
  let lease ← ask .now
  let now ← ask .now
  let b ← storeAt (.claimBatch batch ⟨i, worker, lease + positionCashOutBatchClaimLease⟩) now
  let currentItem ← loadPositionCashOutBatch b
  processClaimedPositionCashOutBatch i worker b currentItem

end Worker
end Athena.CashOuts
