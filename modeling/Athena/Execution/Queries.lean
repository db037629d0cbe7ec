import Athena.Execution.Types

/-!
# Statements of the execution store

Each definition is one statement of `queries/execution_runs.sql`, as a function
of the Run it addresses.  An `UPDATE` whose `WHERE` clause matches no row fails
with the error its caller gives for that case.  A written row has to pass the
`CHECK` constraints of its table.  Bookkeeping times that no modelled function
reads are left out.
-/

namespace Athena.Execution

open Athena.Lib

/-! ## Writing rows -/

namespace Run

def withRow (r : Run) (row : RunRow) (h : row.Checked) : Run :=
  { r with toRunRow := row, checked := h }

def writeRow (r : Run) (f : RunRow → RunRow) : Except StoreError Run :=
  if h : (f r.toRunRow).Checked then .ok (r.withRow (f r.toRunRow) h) else .error .constraint

@[simp] theorem writeRow_eq_ok {r r' : Run} {f : RunRow → RunRow} :
    r.writeRow f = .ok r' ↔ ∃ h, r.withRow (f r.toRunRow) h = r' := by
  unfold writeRow
  split <;> simp_all

def putStep (r : Run) (s : Step) : Run := { r with steps := r.steps.put s }

end Run

def Step.write (s : Step) (f : StepRow → StepRow) : Except StoreError Step :=
  if h : (f s.toStepRow).Checked then .ok ⟨f s.toStepRow, h⟩ else .error .constraint

@[simp] theorem Step.write_eq_ok {s s' : Step} {f : StepRow → StepRow} :
    s.write f = .ok s' ↔ s'.toStepRow = f s.toStepRow := by
  unfold Step.write
  constructor
  · split
    · rintro ⟨⟩; rfl
    · rintro ⟨⟩
  · intro h
    rw [dif_pos (h ▸ s'.checked)]
    cases s'
    simp only at h
    simp only [← h]

namespace Queries

/-! ## Runs -/

/-- The Run has an authorization for this session and access revision that was
given for its frozen plan. -/
def authorizes (r : Run) (session : Digest) (accessRevision : ℕ) : Bool :=
  r.authorizations.any fun a => a.state = .authorized && a.session = session &&
    a.accessRevision = accessRevision && a.planVersion = r.planVersion &&
    a.planDigest = r.planDigest

def authorizeExecutionRun (r : Run) (expectedRevision : ℕ) (now : Time) :
    Except StoreError Run := do
  ensure (r.revision = expectedRevision ∧ (r.state = .awaitingAuthorization ∨
    r.state = .authorized ∨ r.state = .paused ∨ r.state = .reconciliationRequired)) .revision
  r.writeRow fun row => { row with
    state := if row.state = .awaitingAuthorization then .authorized else row.state
    revision := row.revision + 1
    authorizedAt := some now }

def startExecutionRun (r : Run) (expectedRevision : ℕ) (session : Digest)
    (accessRevision : ℕ) (now : Time) : Except StoreError Run := do
  ensure (r.revision = expectedRevision ∧ r.state = .authorized ∧
    authorizes r session accessRevision) .revision
  r.writeRow fun row => { row with
    state := .running, revision := row.revision + 1, startedAt := some now }

def resumeExecutionRun (r : Run) (expectedRevision : ℕ) (session : Digest)
    (accessRevision : ℕ) : Except StoreError Run := do
  ensure (r.revision = expectedRevision ∧ r.state = .paused ∧
    authorizes r session accessRevision) .revision
  r.writeRow fun row => { row with
    state := .running, revision := row.revision + 1, pauseCode := .empty, pausedAt := none }

/-- The columns the three pausing statements set: a Run that is `busy` waits for
its Step, any other Run is paused at once. -/
def pausing (busy : Bool) (pauseCode : Code) (now : Time) (row : RunRow) : RunRow :=
  { row with
    state := if busy then .pauseRequested else .paused
    revision := row.revision + 1
    pauseCode := pauseCode
    pausedAt := if busy then none else some now }

def requestExecutionRunPause (r : Run) (expectedRevision : ℕ) (pauseCode : Code) (now : Time) :
    Except StoreError Run := do
  ensure (r.revision = expectedRevision ∧ r.state = .running) .revision
  r.writeRow (pausing r.hasActiveStep pauseCode now)

def pauseExecutionRunForReauthorization (r : Run) (now : Time) : Except StoreError Run := do
  ensure (r.state = .running ∨ r.state = .pauseRequested) .authorization
  r.writeRow (pausing r.hasActiveStep .authorizationRequired now)

/-- `PauseExecutionRunForFailure`.  Unlike the two statements above it does not
count a Step in its preflight as busy, and it takes no revision. -/
def pauseExecutionRunForFailure (r : Run) (pauseCode : Code) (now : Time) :
    Except StoreError Run := do
  ensure (r.state = .running) .conflict
  r.writeRow (pausing r.hasMutatingStep pauseCode now)

def checkpointExecutionRunPaused (r : Run) (now : Time) : Except StoreError Run := do
  ensure (r.state = .pauseRequested) .noRows
  r.writeRow fun row => { row with
    state := .paused, revision := row.revision + 1, pausedAt := some now }

def requestExecutionRunTermination (r : Run) (expectedRevision : ℕ) (now : Time) :
    Except StoreError Run := do
  ensure (r.revision = expectedRevision ∧ (r.state = .awaitingAuthorization ∨
    r.state = .authorized ∨ r.state = .running ∨ r.state = .pauseRequested ∨
    r.state = .paused ∨ r.state = .reconciliationRequired)) .revision
  let idle : Bool := r.startedAt.isNone || !r.hasActiveStep
  r.writeRow fun row => { row with
    state := if idle then .terminated else .terminateRequested
    revision := row.revision + 1
    completedAt := if idle then some now else none
    blockCode := if row.state = .reconciliationRequired then row.blockCode else .empty
    pauseCode := .empty }

def hasUnresolvedIsolation (r : Run) : Bool :=
  r.steps.rows.any fun s => s.isolations.any (·.unresolved)

def completeExecutionRunTermination (r : Run) (now : Time) : Except StoreError Run := do
  ensure (r.state = .terminateRequested) .noRows
  r.writeRow fun row => { row with
    state := .terminated
    revision := row.revision + 1
    completedAt := some now
    pauseCode := .empty
    blockCode :=
      if hasUnresolvedIsolation r then
        if row.blockCode.text = "" then .outcomeUnknown else row.blockCode
      else .empty }

def countState (r : Run) (state : StepState) : ℕ :=
  r.steps.rows.countP fun s => s.state = state

/-- `MIN(ordinal) FILTER (WHERE state = 'PENDING')` -/
def minPending (r : Run) : Option ℕ :=
  ((r.steps.rows.filter fun s => s.state = .pending).map fun s => s.ordinal).min?

def refreshExecutionRunProgress (r : Run) : Except StoreError Run :=
  r.writeRow fun row => { row with
    counts :=
      { terminal := r.steps.rows.countP fun s => s.state.terminal
        completed := countState r .completed
        satisfied := countState r .satisfied
        skipped := countState r .skipped
        failed := countState r .failed
        notExecuted := countState r .notExecuted }
    nextStepOrdinal := minPending r }

def completeExecutionRun (r : Run) (now : Time) : Except StoreError Run := do
  ensure (r.state = .running ∧ r.counts.terminal = r.totalStepCount) .noRows
  r.writeRow fun row => { row with
    state := .completed, revision := row.revision + 1
    currentStepOrdinal := none, nextStepOrdinal := none
    completedAt := some now, pauseCode := .empty, blockCode := .empty }

def completeReconciledExecutionRun (r : Run) (now : Time) : Except StoreError Run := do
  ensure (r.state = .reconciliationRequired ∧ r.counts.terminal = r.totalStepCount ∧
    hasUnresolvedIsolation r = false) .noRows
  r.writeRow fun row => { row with
    state := .completed, revision := row.revision + 1
    currentStepOrdinal := none, nextStepOrdinal := none
    completedAt := some now, pauseCode := .empty, blockCode := .empty }

def markExecutionRunReconciliationRequired (r : Run) (blockCode : Code) (now : Time) :
    Except StoreError Run := do
  ensure (r.state = .running ∨ r.state = .pauseRequested ∨ r.state = .terminateRequested) .noRows
  r.writeRow fun row => { row with
    state := if row.state = .terminateRequested then .terminated else .reconciliationRequired
    revision := row.revision + 1
    blockCode := blockCode
    pauseCode := .empty
    completedAt := if row.state = .terminateRequested then some now else row.completedAt }

def resolveExecutionRunReconciliation (r : Run) (now : Time) : Except StoreError Run := do
  ensure (r.state = .reconciliationRequired ∧ hasUnresolvedIsolation r = false) .noRows
  r.writeRow fun row => { row with
    state := .paused, revision := row.revision + 1, blockCode := .empty
    pauseCode := .lit "RECONCILED", pausedAt := some now }

def setExecutionRunCurrentStep (r : Run) (ordinal : ℕ) : Except StoreError Run :=
  r.writeRow fun row => { row with currentStepOrdinal := some ordinal, nextStepOrdinal := none }

def touchExecutionRunRevision (r : Run) : Except StoreError Run :=
  r.writeRow fun row => { row with revision := row.revision + 1 }

def releaseExecutionRunLocks (r : Run) : Run :=
  { r with walletLocks := [], combinationLock := none }

/-! ## Authorizations and coordinators -/

def endAuthorizations (r : Run) (state : AuthorizationState) : Run :=
  { r with
    authorizations := r.authorizations.map fun a =>
      if a.state = .authorized then { a with state := state } else a }

def supersedeExecutionAuthorization (r : Run) : Run := endAuthorizations r .superseded

def invalidateExecutionAuthorization (r : Run) : Run := endAuthorizations r .superseded

def endExecutionRunAuthorization (r : Run) : Run := endAuthorizations r .consumed

/-- `CreateExecutionAuthorization`, under the unique index on active ones. -/
def createExecutionAuthorization (r : Run) (id : UUID) (proofKind : Code) (session : Digest)
    (accessRevision : ℕ) : Except StoreError Run := do
  ensure (r.activeAuthorization = none) .constraint
  pure { r with authorizations := r.authorizations ++
    [{ id, proofKind, session, accessRevision, planVersion := r.planVersion,
       planDigest := r.planDigest, state := .authorized }] }

def releaseExecutionCoordinator (r : Run) : Run :=
  { r with
    coordinators := r.coordinators.map fun c =>
      if c.state = .active then { c with state := .released } else c }

/-- `COALESCE(MAX(generation), 0) + 1` -/
def nextGeneration (r : Run) : ℕ := (r.coordinators.map fun c => c.generation).foldl max 0 + 1

/-- `CreateExecutionCoordinator`, under the unique index on active ones. -/
def createExecutionCoordinator (r : Run) (id : UUID) (token session : Digest)
    (accessRevision : ℕ) (leaseExpiresAt : Time) : Except StoreError (Run × Coordinator) := do
  ensure (r.activeCoordinator = none) .constraint
  let c : Coordinator := { id, generation := nextGeneration r, token, session, accessRevision,
                           state := .active, leaseExpiresAt }
  pure ({ r with coordinators := r.coordinators ++ [c] }, c)

def heartbeatExecutionCoordinator (r : Run) (token session : Digest) (accessRevision : ℕ)
    (leaseExpiresAt now : Time) : Except StoreError Run := do
  let live (c : Coordinator) : Bool := c.state = .active && c.token = token &&
    c.session = session && c.accessRevision = accessRevision && now < c.leaseExpiresAt
  ensure (r.coordinators.any live) .coordinator
  pure { r with
    coordinators := r.coordinators.map fun c => if live c then { c with leaseExpiresAt } else c }

/-! ## Commands -/

/-- Update the command `id` when it satisfies `p`. -/
def updateCommand (r : Run) (id : UUID) (p : Command → Bool) (f : Command → Command) :
    Except StoreError Run := do
  ensure (r.commands.any fun c => c.id = id && p c) .noRows
  pure { r with commands := r.commands.map fun c => if c.id = id && p c then f c else c }

def createExecutionCommand (r : Run) (id : UUID) (kind : CommandKind) (request : RequestDigest)
    (stepOrdinal : ℕ) : Run :=
  { r with commands := r.commands ++
    [{ id, kind, state := .accepted, request, runRevisionBefore := r.revision, stepOrdinal }] }

def beginExecutionCommand (r : Run) (id : UUID) : Except StoreError Run :=
  updateCommand r id (fun c => c.state = .accepted) fun c => { c with state := .inProgress }

def bindExecutionCommandCoordinator (r : Run) (id : UUID) (coordinator : Coordinator) :
    Except StoreError Run :=
  updateCommand r id (fun c => c.state = .inProgress && c.coordinator.isNone &&
      r.coordinators.any fun k => k.id = coordinator.id && k.generation = coordinator.generation)
    fun c => { c with coordinator := some (coordinator.id, coordinator.generation) }

/-- `CompleteExecutionCommand`, with the only state its callers give. -/
def completeExecutionCommand (r : Run) (id : UUID) (resultCode : Code) : Except StoreError Run :=
  updateCommand r id (fun c => c.state = .accepted || c.state = .inProgress) fun c =>
    { c with state := .applied, runRevisionAfter := r.revision, resultCode }

/-! ## Steps -/

inductive PendingEnd | skipped | notExecuted
  deriving DecidableEq

def PendingEnd.state : PendingEnd → StepState
  | .skipped => .skipped
  | .notExecuted => .notExecuted

def endPending (s : Step) (e : PendingEnd) (reasonCode : Code) (now : Time)
    (h : s.state = .pending) : Step where
  toStepRow := { s.toStepRow with state := e.state, reasonCode, completedAt := some now }
  checked := by
    have hc := s.checked.completion
    simp only [h, reduceCtorEq, iff_false] at hc
    cases e <;> exact ⟨s.checked.source, rfl, nofun, nofun, ⟨fun h' => absurd h' hc, nofun⟩,
      s.checked.kinds⟩

/-- End a Step that was never started and satisfies `p`. -/
def endPendingIf (p : Step → Bool) (e : PendingEnd) (reasonCode : Code) (now : Time) (s : Step) :
    Step :=
  if h : s.state = .pending ∧ p s then endPending s e reasonCode now h.1 else s

theorem ordinal_endPendingIf (p : Step → Bool) (e : PendingEnd) (reasonCode : Code) (now : Time)
    (s : Step) : (endPendingIf p e reasonCode now s).ordinal = s.ordinal := by
  unfold endPendingIf
  split <;> rfl

/-- End the unstarted Steps that satisfy `p`. -/
def endPendingWhere (r : Run) (p : Step → Bool) (e : PendingEnd) (reasonCode : Code)
    (now : Time) : Run :=
  { r with
    steps := r.steps.update (endPendingIf p e reasonCode now)
      (ordinal_endPendingIf p e reasonCode now) }

def markPendingExecutionRunStepsNotExecuted (r : Run) (reasonCode : Code) (now : Time) : Run :=
  endPendingWhere r (fun _ => true) .notExecuted reasonCode now

def skipScopedPendingExecutionSteps (r : Run) (source : StepRow) (scope : StepScope)
    (reasonCode : Code) (now : Time) : Run :=
  let market (s : StepRow) := (r.itemOf s).map fun i => i.market
  endPendingWhere r (fun s =>
      source.ordinal < s.ordinal && (market source).isSome && (market s.toStepRow).isSome &&
      match scope with
      | .remainingWallet => s.walletOrdinal = source.walletOrdinal
      | .remainingMarket => market s.toStepRow = market source
      | .current => false)
    .skipped reasonCode now

/-- `ClaimFreshExecutionRunStep`.  `isolated` says whether an unresolved isolation
of any Run blocks a Wallet-market pair. -/
def claimFreshExecutionRunStep (isolated : ℕ × String → Bool) (r : Run) (ordinal : ℕ)
    (command : UUID) (expectedRevision : ℕ) (token session : Digest) (accessRevision : ℕ)
    (claimExpiresAt now : Time) : Except StoreError (Run × Step) := do
  let s ← found (r.steps.get? ordinal) .revision
  ensure (s.state = .pending ∧ r.state = .running ∧ r.revision = expectedRevision ∧
    r.nextStepOrdinal = some s.ordinal) .revision
  ensure (r.coordinators.any fun c => c.state = .active && c.token = token &&
    c.session = session && c.accessRevision = accessRevision && now < c.leaseExpiresAt) .revision
  ensure (authorizes r session accessRevision) .revision
  ensure (r.commands.any fun c => c.id = command && c.kind = .executeNext &&
    c.state = .inProgress && c.stepOrdinal = s.ordinal) .revision
  ensure ((r.pairOf s.toStepRow).any isolated = false) .revision
  let s' ← s.write fun row => { row with
    state := .preflighting
    activeCommand := some command
    claim := some ⟨.command command, coordinatorOwner, claimExpiresAt⟩ }
  pure (r.putStep s', s')

def claimExecutionRunStepForRecovery (r : Run) (ordinal : ℕ) (claim : Claim) (now : Time) :
    Except StoreError (Run × Step) := do
  let s ← found (r.steps.get? ordinal) .conflict
  ensure (s.state.recoverable) .conflict
  ensure (s.claim.all fun c => c.owner = coordinatorOwner || c.expiresAt ≤ now ||
    (c.id = claim.id && c.owner = claim.owner)) .conflict
  ensure (r.state = .running ∨ r.state = .pauseRequested ∨ r.state = .terminateRequested ∨
    r.state = .reconciliationRequired ∨ r.state = .terminated) .conflict
  ensure (r.currentStepOrdinal = some s.ordinal) .conflict
  ensure (s.state = .outcomeUnknown → s.reconcileRequestedAt.isSome) .conflict
  ensure (s.state = .awaitingCompletion → s.nextPollAt.any (· ≤ now)) .conflict
  let s' ← s.write fun row => { row with claim := some claim }
  pure (r.putStep s', s')

def renewExecutionRunStepClaim (r : Run) (ordinal : ℕ) (claim : Claim) (now : Time) :
    Except StoreError (Run × Step) := do
  let s ← found (r.steps.get? ordinal) .conflict
  ensure (s.claim.any fun c => c.id = claim.id && c.owner = claim.owner && now < c.expiresAt)
    .conflict
  ensure (s.state.recoverable) .conflict
  let s' ← s.write fun row => { row with claim := some claim }
  pure (r.putStep s', s')

def completeExecutionStepPreflight (r : Run) (ordinal : ℕ) (claimId : ClaimId)
    (nextState : StepState) (reasonCode : Code) (now : Time) : Except StoreError (Run × Step) := do
  let s ← found (r.steps.get? ordinal) .conflict
  ensure (s.state = .preflighting ∧ s.claim.any fun c => c.id = claimId) .conflict
  let s' ← s.write fun row => { row with
    state := nextState
    reasonCode := reasonCode
    activeCommand := if nextState = .opening then row.activeCommand else none
    claim := if nextState = .opening then row.claim else none
    completedAt :=
      if nextState = .satisfied ∨ nextState = .skipped ∨ nextState = .failed then some now
      else none }
  pure (r.putStep s', s')

/-- The unique index on `(run_id, wallet_ordinal, position_request_id)` admits the update
of a row: the row keeps its request, or no other row has the new one. -/
def requestIdFree (r : Run) (s s' : StepRow) : Bool :=
  s'.positionRequestId = s.positionRequestId || s'.positionRequestId = 0 ||
    r.steps.rows.all fun t => t.ordinal = s'.ordinal || t.walletOrdinal ≠ s'.walletOrdinal ||
      t.positionRequestId ≠ s'.positionRequestId

def recordExecutionRunStepOpened (r : Run) (ordinal : ℕ) (claimId : ClaimId)
    (positionRequestId : ℕ) (transactionDigest : Digest) (providerState providerOrderState : Code) :
    Except StoreError (Run × Step) := do
  let s ← found (r.steps.get? ordinal) .conflict
  ensure (s.state = .opening ∧ s.claim.any fun c => c.id = claimId) .conflict
  ensure (s.openAttempt.any fun a => a.status.result? = some .succeeded &&
    a.positionRequestId = positionRequestId) .conflict
  let s' ← s.write fun row => { row with
    state := .opened, positionRequestId, transactionDigest := some transactionDigest
    providerState, providerOrderState }
  ensure (requestIdFree r s.toStepRow s'.toStepRow) .constraint
  pure (r.putStep s', s')

def markExecutionRunStepSigning (r : Run) (ordinal : ℕ) (claimId : ClaimId) :
    Except StoreError (Run × Step) := do
  let s ← found (r.steps.get? ordinal) .conflict
  ensure (s.state = .opened ∧ s.claim.any fun c => c.id = claimId) .conflict
  let s' ← s.write fun row => { row with state := .signing }
  pure (r.putStep s', s')

def recordExecutionRunStepSigned (r : Run) (ordinal : ℕ) (claimId : ClaimId)
    (signer : SignerMetadata) : Except StoreError (Run × Step) := do
  let s ← found (r.steps.get? ordinal) .conflict
  ensure (s.state = .signing ∧ s.claim.any fun c => c.id = claimId) .conflict
  let s' ← s.write fun row => { row with state := .finalizing, signer := some signer }
  pure (r.putStep s', s')

def requestExecutionRunStepReconciliation (r : Run) (stepId : UUID) (ordinal : ℕ)
    (command : UUID) (now : Time) : Except StoreError (Run × Step) := do
  let s ← found (r.steps.get? ordinal) .conflict
  ensure (s.id = stepId ∧ s.state = .outcomeUnknown ∧ s.reconcileRequestedAt = none ∧
    s.claim = none ∧ s.isolations.any (·.unresolved)) .conflict
  let s' ← s.write fun row => { row with
    activeCommand := some command, reconcileRequestedAt := some now, nextPollAt := some now }
  pure (r.putStep s', s')

/-! ## Mutation attempts -/

def attemptById (s : StepRow) (id : UUID) : Option Attempt :=
  (s.openAttempt.filter fun a => a.id = id).or (s.finalizeAttempt.filter fun a => a.id = id)

def phase : MutationKind → StepState
  | .open => .opening
  | .finalize => .finalizing

/-- `CreateExecutionMutationAttempt` with the unique index on the kind.  An attempt
of this kind that exists is returned when it froze the same request.  `taken` says
which attempt identifiers are in use. -/
def createExecutionMutationAttempt (taken : UUID → Bool) (r : Run) (ordinal : ℕ) (id : UUID)
    (command : UUID) (claimId : ClaimId) (kind : MutationKind) (request : MutationRequest)
    (positionRequestId : ℕ) (now : Time) : Except StoreError (Run × Attempt) := do
  let s ← found (r.steps.get? ordinal) .conflict
  let c ← found (r.commands.find? fun c => c.id = command && c.kind = .executeNext &&
    c.state = .inProgress && s.activeCommand = some c.id && c.stepOrdinal = s.ordinal) .conflict
  let k ← found (r.coordinators.find? fun k => c.coordinator = some (k.id, k.generation)) .conflict
  ensure (s.claim.any fun x => x.id = claimId && now < x.expiresAt) .conflict
  ensure (kind = .finalize → positionRequestId ≠ 0 ∧ s.positionRequestId = positionRequestId)
    .conflict
  ensure (s.state = phase kind) .conflict
  match s.attempt kind with
  | some existing =>
    ensure (existing.request = request) .commandConflict
    pure (r, existing)
  | none =>
    ensure (taken id = false) .constraint
    let a : Attempt := { id, coordinator := (k.id, k.generation), command := c.id, kind,
                         status := .prepared, request, positionRequestId }
    let s' ← s.write fun row => row.setAttempt kind a
    pure (r.putStep s', a)

def dispatchExecutionMutationAttempt (r : Run) (ordinal : ℕ) (id : UUID) (claimId : ClaimId)
    (now : Time) : Except StoreError (Run × Attempt) := do
  let s ← found (r.steps.get? ordinal) .conflict
  let a ← found (attemptById s.toStepRow id) .conflict
  ensure (a.status = .prepared ∧ s.activeCommand = some a.command) .conflict
  ensure (s.claim.any fun c => c.id = claimId && now < c.expiresAt) .conflict
  ensure (s.state = phase a.kind) .conflict
  let a' := { a with status := .dispatched now }
  let s' ← s.write fun row => row.setAttempt a.kind a'
  pure (r.putStep s', a')

/-- `CompleteExecutionMutationAttempt`, for the attempt `a` of the Step `s`. -/
def completeExecutionMutationAttempt (r : Run) (s : Step) (a : Attempt) (result : MutationResult)
    (positionRequestId httpStatus : ℕ) (providerSlug errorCode : Code) (now : Time) :
    Except StoreError (Run × Step × Attempt) := do
  match a.status with
  | .dispatched dispatchedAt =>
    ensure (a.positionRequestId = 0 ∨ positionRequestId = 0 ∨
      a.positionRequestId = positionRequestId) .conflict
    ensure (a.kind ≠ .open ∨ result ≠ .succeeded ∨ positionRequestId ≠ 0) .conflict
    ensure (httpStatus = 0 ∨ 100 ≤ httpStatus) .constraint
    let a' := { a with
      status := .resolved result dispatchedAt now
      positionRequestId := if a.positionRequestId = 0 then positionRequestId
        else a.positionRequestId
      httpStatus, providerSlug, errorCode }
    let s' ← s.write fun row => row.setAttempt a.kind a'
    pure (r.putStep s', s', a')
  | _ => throw .conflict

/-! ## Isolations -/

/-- `CreateExecutionStepIsolation`, under the primary key and the unique index on
unresolved pairs.  `taken` says which isolation identifiers are in use. -/
def createExecutionStepIsolation (isolated : ℕ × String → Bool) (taken : UUID → Bool) (r : Run)
    (ordinal : ℕ) (id attempt : UUID) (reasonCode : Code) : Except StoreError Run := do
  let s ← found (r.steps.get? ordinal) .noRows
  ensure (s.state = .outcomeUnknown ∧
    (attemptById s.toStepRow attempt).any fun a => a.isResolved) .noRows
  let pair ← found (r.pairOf s.toStepRow) .noRows
  ensure (isolated pair = false ∧ taken id = false) .constraint
  let s' ← s.write fun row => { row with
    isolations := row.isolations ++
      [{ id, owner := r.owner, walletId := pair.1, market := pair.2, attempt, reasonCode }] }
  pure (r.putStep s')

/-- The isolation with its resolution, if it is the one that is named. -/
def resolvedIsolation (id : UUID) (code : Code) (now : Time) (i : Isolation) : Isolation :=
  if i.id = id && i.unresolved then { i with resolvedAt := some now, resolutionCode := code } else i

def resolveExecutionStepIsolation (r : Run) (ordinal : ℕ) (id : UUID) (resolutionCode : Code)
    (now : Time) : Except StoreError Run := do
  let s ← found (r.steps.get? ordinal) .isolation
  ensure (s.isolations.any fun i => i.id = id && i.unresolved) .isolation
  let s' ← s.write fun row => { row with
    isolations := row.isolations.map (resolvedIsolation id resolutionCode now) }
  pure (r.putStep s')

/-! ## Provider observations -/

/-- The arguments of `RecordExecutionRunProviderObservation`. -/
structure Observation where
  ordinal : ℕ
  claimId : ClaimId
  expectedState : StepState
  nextState : StepState
  reasonCode : Code
  providerState : Code
  providerOrderState : Code
  positionRequestId : ℕ
  completion : Option CompletionEvidence
  nextPollAt : Option Time

/-- `lower(provider_state) IN ('failed', 'cancelled', 'canceled')` -/
def terminalFailureText (state : String) : Bool :=
  Text.toLower state = "failed" || Text.toLower state = "cancelled" ||
    Text.toLower state = "canceled"

def wasDispatched (a : Attempt) : Bool := a.status.dispatchedAt?.isSome

def admitsRequest (s : StepRow) (o : Observation) : Bool :=
  o.positionRequestId = 0 ||
    (o.expectedState = .opening &&
      (s.positionRequestId = 0 || s.positionRequestId = o.positionRequestId) &&
      s.openAttempt.any fun a => a.positionRequestId = o.positionRequestId &&
        ((o.nextState = .outcomeUnknown && a.isResolved) ||
         ((o.nextState = .awaitingCompletion || o.nextState = .completed) && a.isResolved) ||
         (o.nextState = .failed && (a.status.result? = some .succeeded ||
            a.status.result? = some .definiteFailure) &&
            terminalFailureText o.providerState.text)))

/-- Completion needs evidence created no earlier than the second of the dispatch. -/
def admitsCompletion (s : StepRow) (o : Observation) : Bool :=
  match o.completion with
  | none => o.nextState ≠ .completed
  | some e => o.nextState = .completed && s.openAttempt.any fun a => a.isResolved &&
      a.status.dispatchedAt?.any fun t => truncSecond t ≤ e.positionCreatedAt

def admitsSkip (s : StepRow) (o : Observation) : Bool :=
  o.nextState ≠ .skipped ||
    (o.expectedState = .opening && !s.openAttempt.any wasDispatched)

def admitsResult (o : Observation) (a : Attempt) : Bool :=
  (o.nextState = .failed && a.status.result? = some .definiteFailure) ||
  (o.expectedState = .opening && o.nextState = .failed && a.status.result? = some .succeeded &&
    terminalFailureText o.providerState.text) ||
  (o.nextState = .outcomeUnknown && a.isResolved) ||
  ((o.nextState = .awaitingCompletion || o.nextState = .completed) &&
    (a.status.result? = some .succeeded || a.status.result? = some .outcomeUnknown)) ||
  (o.expectedState = .opening && o.nextState = .completed &&
    a.status.result? = some .definiteFailure)

def admitsTransition (s : StepRow) (o : Observation) : Bool :=
  (o.expectedState = .opened || o.expectedState = .signing ||
    o.expectedState = .awaitingCompletion || o.expectedState = .outcomeUnknown) ||
  (o.nextState = .completed && s.openAttempt.any (·.isResolved)) ||
  (o.expectedState = .finalizing && o.nextState = .awaitingCompletion &&
    !s.finalizeAttempt.any wasDispatched) ||
  (o.expectedState = .opening && o.nextState = .skipped && !s.openAttempt.any wasDispatched) ||
  (o.expectedState = .finalizing &&
    (o.nextState = .completed ||
      (o.nextState = .failed && terminalFailureText o.providerState.text)) &&
    s.finalizeAttempt.all fun a => a.status = .prepared) ||
  (o.nextState = .outcomeUnknown && s.openAttempt.any (·.isResolved)) ||
  (s.attempt (if o.expectedState = .opening then .open else .finalize)).any (admitsResult o)

/-- The columns `RecordExecutionRunProviderObservation` sets. -/
def observed (o : Observation) (now : Time) (row : StepRow) : StepRow :=
  { row with
    state := o.nextState
    reasonCode := o.reasonCode
    positionRequestId := if o.positionRequestId = 0 then row.positionRequestId
      else o.positionRequestId
    providerState := if o.providerState.text = "" then row.providerState else o.providerState
    providerOrderState := if o.providerOrderState.text = "" then row.providerOrderState
      else o.providerOrderState
    completion := o.completion
    nextPollAt := if o.nextState = .awaitingCompletion then o.nextPollAt else none
    pollCount := row.pollCount + 1
    activeCommand := if o.nextState = .awaitingCompletion then row.activeCommand else none
    claim := none
    reconcileRequestedAt := none
    completedAt :=
      if o.nextState = .completed ∨ o.nextState = .satisfied ∨ o.nextState = .skipped ∨
        o.nextState = .failed then some now else none }

/-- `RecordExecutionRunProviderObservation`, under the unique indexes on the
completion pubkeys.  `taken` says which of them other Steps carry. -/
def recordExecutionRunProviderObservation (taken : CompletionEvidence → Bool) (r : Run)
    (o : Observation) (now : Time) : Except StoreError (Run × Step) := do
  let s ← found (r.steps.get? o.ordinal) .conflict
  ensure (s.state = o.expectedState ∧ s.claim.any fun c => c.id = o.claimId) .conflict
  ensure (admitsRequest s.toStepRow o ∧ admitsCompletion s.toStepRow o ∧
    admitsSkip s.toStepRow o ∧ admitsTransition s.toStepRow o) .conflict
  let s' ← s.write (observed o now)
  ensure (requestIdFree r s.toStepRow s'.toStepRow) .constraint
  ensure (o.completion.any taken = false) .conflict
  pure (r.putStep s', s')

end Queries
end Athena.Execution
