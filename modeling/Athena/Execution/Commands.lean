import Athena.Execution.Create

/-!
# Commands on a Run

The eight commands of an owner.  Every command runs in one transaction that locks
the Run, looks its command id up in the journal, and either replays the recorded
command or journals a new one and applies it.  `runCommand` is that frame; each
command supplies what a replay answers and what the first submission does.
-/

namespace Athena.Execution

open Athena.Lib Queries

/-- `ExecutionRunCommandRequest` -/
structure CommandRequest where
  owner : UUID
  run : UUID
  command : UUID
  expectedRevision : ℕ
  deriving DecidableEq

/-- The session and access revision a command was made under. -/
structure Binding where
  session : Digest
  accessRevision : ℕ
  deriving DecidableEq

def executionCoordinatorLease : Time := 30 * second

namespace Store

/-! ## The frame -/

/-- `beginExecutionRunCommand`: the locked Run, and the command if it was recorded
before.  A command that was not is journalled.  The expected revision is only
checked to be positive: comparing it is left to the statements that follow. -/
def beginExecutionRunCommand (t : Tables) (req : CommandRequest) (kind : CommandKind)
    (digest : RequestDigest) (stepOrdinal : ℕ) : Except StoreError (Run × Option Command) := do
  ensure (0 < req.expectedRevision) .invalid
  let r ← found ((t.runs.get? req.run).filter fun r => r.owner = req.owner) .notFound
  match t.commandOf req.command with
  | some (runId, c) =>
    ensure (runId = req.run ∧ c.kind = kind ∧ c.request = digest ∧
      (c.state = .applied ∨ c.state = .inProgress)) .commandConflict
    pure (r, some c)
  | none =>
    let r' ← beginExecutionCommand
      (createExecutionCommand r req.command kind digest stepOrdinal) req.command
    pure (r', none)

def runCommand {α : Type} (t : Tables) (req : CommandRequest) (kind : CommandKind)
    (digest : RequestDigest) (stepOrdinal : ℕ)
    (replay : Run → Command → Except StoreError (Run × α))
    (fresh : Run → Except StoreError (Run × α)) : Except StoreError (Tables × α) := do
  let (r, recorded) ← beginExecutionRunCommand t req kind digest stepOrdinal
  let (r', a) ← match recorded with
    | some c => replay r c
    | none => fresh r
  pure (⟨t.runs.put r'⟩, a)

def closeTerminalExecutionRun (r : Run) : Run :=
  endExecutionRunAuthorization
    (releaseExecutionCoordinator (releaseExecutionRunLocks r))

def endPendingSteps (r : Run) (now : Time) : Except StoreError Run :=
  refreshExecutionRunProgress
    (markPendingExecutionRunStepsNotExecuted r .runTerminated now)

/-! ## Authorization and start -/

/-- `AuthorizeExecutionRun`, after its command was journalled. -/
def applyAuthorize (req : CommandRequest) (proofKind : Code) (b : Binding) (authorizationId : UUID)
    (now : Time) (r : Run) : Except StoreError (Run × Run) := do
  let r ← createExecutionAuthorization (supersedeExecutionAuthorization r)
    authorizationId proofKind b.session b.accessRevision
  let r ← Queries.authorizeExecutionRun r req.expectedRevision now
  let r ← completeExecutionCommand r req.command (.lit "AUTHORIZED")
  pure (r, r)

def authorizeExecutionRun (t : Tables) (req : CommandRequest) (proofKind : Code) (b : Binding)
    (authorizationId : UUID) (now : Time) : Except StoreError (Tables × Run) := do
  ensure (proofKind.text ≠ "" ∧ 0 < b.accessRevision) .invalid
  runCommand t req .authorize
    (.authorize req.run req.command req.expectedRevision proofKind b.session b.accessRevision) 0
    (fun r _ => pure (r, r)) (applyAuthorize req proofKind b authorizationId now)

def rotateCoordinator (r : Run) (b : Binding) (coordinatorId : UUID) (token : Digest) (now : Time) :
    Except StoreError (Run × Coordinator) :=
  createExecutionCoordinator (releaseExecutionCoordinator r) coordinatorId token
    b.session b.accessRevision (now + executionCoordinatorLease)

def authorizationHolds (r : Run) (b : Binding) : Bool :=
  r.activeAuthorization.any fun a => a.session = b.session &&
    a.accessRevision = b.accessRevision && a.planVersion = r.planVersion &&
    a.planDigest = r.planDigest

/-- The replay of a start or resume.  The raw token of the first answer cannot be
given again, so the Run gets a new coordinator. -/
def replayStart (b : Binding) (coordinatorId : UUID) (token : Digest) (now : Time) (r : Run) :
    Except StoreError (Run × Run) := do
  ensure (r.state = .running) .coordinator
  ensure (authorizationHolds r b) .authorization
  let (r, _) ← rotateCoordinator r b coordinatorId token now
  pure (r, r)

def applyStart (resume : Bool) (req : CommandRequest) (b : Binding) (coordinatorId : UUID)
    (token : Digest) (now : Time) (r : Run) : Except StoreError (Run × Run) := do
  let r ← if resume then
      resumeExecutionRun r req.expectedRevision b.session b.accessRevision
    else startExecutionRun r req.expectedRevision b.session b.accessRevision now
  let (r, k) ← rotateCoordinator r b coordinatorId token now
  let r ← bindExecutionCommandCoordinator r req.command k
  let r ← completeExecutionCommand r req.command
    (if resume then .lit "RESUME" else .lit "START")
  pure (r, r)

def startOrResumeExecutionRun (t : Tables) (resume : Bool) (req : CommandRequest) (b : Binding)
    (coordinatorId : UUID) (token : Digest) (now : Time) : Except StoreError (Tables × Run) := do
  ensure (0 < b.accessRevision) .invalid
  let kind : CommandKind := if resume then .resume else .start
  runCommand t req kind
    (.startOrResume req.run req.command req.expectedRevision b.session b.accessRevision kind) 0
    (fun r _ => replayStart b coordinatorId token now r)
    (applyStart resume req b coordinatorId token now)

/-! ## Pause and termination -/

/-- `PauseExecutionRun`, after its command was journalled. -/
def applyPause (req : CommandRequest) (now : Time) (r : Run) : Except StoreError (Run × Run) := do
  let r ← requestExecutionRunPause r req.expectedRevision (.lit "USER_REQUESTED") now
  let r := if r.state = .paused then releaseExecutionCoordinator r else r
  let r ← completeExecutionCommand r req.command (.lit "PAUSE_REQUESTED")
  pure (r, r)

def pauseExecutionRun (t : Tables) (req : CommandRequest) (now : Time) :
    Except StoreError (Tables × Run) :=
  runCommand t req .pause (.control req.owner req.run req.command req.expectedRevision) 0
    (fun r _ => pure (r, r)) (applyPause req now)

/-- `TerminateExecutionRun`, after its command was journalled. -/
def applyTerminate (req : CommandRequest) (now : Time) (r : Run) :
    Except StoreError (Run × Run) := do
  let r ← requestExecutionRunTermination r req.expectedRevision now
  if r.state = .terminated then
    let r ← endPendingSteps r now
    let r ← completeExecutionCommand (closeTerminalExecutionRun r) req.command
      (.lit "TERMINATED")
    pure (r, r)
  else
    let r ← completeExecutionCommand r req.command (.lit "TERMINATE_REQUESTED")
    pure (r, r)

def terminateExecutionRun (t : Tables) (req : CommandRequest) (now : Time) :
    Except StoreError (Tables × Run) :=
  runCommand t req .terminate (.control req.owner req.run req.command req.expectedRevision) 0
    (fun r _ => pure (r, r)) (applyTerminate req now)

/-! ## Commands of the coordinator -/

def presentedCoordinator (r : Run) (token : Digest) (now : Time) :
    Except StoreError Coordinator := do
  let k ← found r.activeCoordinator .coordinator
  ensure (k.token = token ∧ now < k.leaseExpiresAt) .coordinator
  pure k

/-- The session or access revision is no longer the one the Run was started under. -/
def bindingChanged (r : Run) (k : Coordinator) (b : Binding) : Bool :=
  k.session ≠ b.session || k.accessRevision ≠ b.accessRevision || !authorizationHolds r b

def pauseExecutionRunForReauthorization (r : Run) (now : Time) : Except StoreError Run := do
  let r ← Queries.pauseExecutionRunForReauthorization (invalidateExecutionAuthorization r)
    now
  pure (releaseExecutionCoordinator r)

def requireAuthorization (r : Run) (command : UUID) (now : Time) : Except StoreError Run := do
  let r ← pauseExecutionRunForReauthorization r now
  completeExecutionCommand r command .authorizationRequired

/-- `HeartbeatExecutionCoordinator`, after its command was journalled. -/
def applyHeartbeat (req : CommandRequest) (token : Digest) (b : Binding) (now : Time) (r : Run) :
    Except StoreError (Run × Run) := do
  let k ← presentedCoordinator r token now
  let r ← bindExecutionCommandCoordinator r req.command k
  if bindingChanged r k b then
    let r ← requireAuthorization r req.command now
    pure (r, r)
  else
    let r ← Queries.heartbeatExecutionCoordinator r token b.session b.accessRevision
      (now + executionCoordinatorLease) now
    let r ← touchExecutionRunRevision r
    let r ← completeExecutionCommand r req.command (.lit "HEARTBEAT")
    pure (r, r)

def heartbeatExecutionCoordinator (t : Tables) (req : CommandRequest) (token : Digest) (b : Binding)
    (now : Time) : Except StoreError (Tables × Run) := do
  ensure (0 < b.accessRevision) .invalid
  runCommand t req .heartbeat (.heartbeat req.owner req.run req.command req.expectedRevision token
      b.session b.accessRevision) 0
    (fun r _ => pure (r, r)) (applyHeartbeat req token b now)

/-- `claimExecutionStep`, after its command was journalled.  A changed binding
commits the pause and answers with an error. -/
def applyClaim (isolated : ℕ × String → Bool) (req : CommandRequest) (ordinal : ℕ) (token : Digest)
    (b : Binding) (now : Time) (r : Run) :
    Except StoreError (Run × Except StoreError Step) := do
  let k ← presentedCoordinator r token now
  let r ← bindExecutionCommandCoordinator r req.command k
  if bindingChanged r k b then
    let r ← requireAuthorization r req.command now
    pure (r, .error .authorization)
  else
    let (r, s) ← claimFreshExecutionRunStep isolated r ordinal req.command
      req.expectedRevision token b.session b.accessRevision (now + executionCoordinatorLease) now
    let r ← setExecutionRunCurrentStep r ordinal
    pure (r, .ok s)

/-- The replay of `claimExecutionStep` answers with the Step as it is now. -/
def replayClaim (ordinal : ℕ) (r : Run) (c : Command) :
    Except StoreError (Run × Except StoreError Step) :=
  if c.resultCode.text = "AUTHORIZATION_REQUIRED" then pure (r, .error .authorization)
  else do
    let s ← found (r.steps.get? ordinal) .noRows
    pure (r, .ok s)

/-- `BeginExecutionStep`, which is `claimExecutionStep` with the lease of a coordinator. -/
def beginExecutionStep (t : Tables) (req : CommandRequest) (ordinal : ℕ) (token : Digest)
    (b : Binding) (now : Time) : Except StoreError (Tables × Except StoreError Step) := do
  ensure (0 < ordinal ∧ 0 < b.accessRevision) .invalid
  runCommand t req .executeNext
    (.executeNext req.run req.command req.expectedRevision ordinal token b.session b.accessRevision)
    ordinal (replayClaim ordinal) (applyClaim t.pairIsolated req ordinal token b now)

/-! ## Reconciliation -/

/-- `BeginExecutionStepReconciliation`, after its command was journalled.  The
command stays in progress until the worker has looked at the provider. -/
def applyReconcile (req : CommandRequest) (stepId : UUID) (ordinal : ℕ) (now : Time) (r : Run) :
    Except StoreError (Run × Step) := do
  ensure (r.state = .reconciliationRequired ∨ (r.state = .terminated ∧ r.blockCode.text ≠ ""))
    .conflict
  requestExecutionRunStepReconciliation r stepId ordinal req.command now

/-- The replay of `BeginExecutionStepReconciliation`. -/
def replayReconcile (stepId : UUID) (ordinal : ℕ) (r : Run) : Except StoreError (Run × Step) := do
  let s ← found (r.steps.rows.find? fun s => s.id = stepId) .conflict
  ensure (s.ordinal = ordinal) .conflict
  pure (r, s)

def beginExecutionStepReconciliation (t : Tables) (req : CommandRequest) (stepId : UUID)
    (ordinal : ℕ) (now : Time) : Except StoreError (Tables × Step) := do
  ensure (0 < ordinal) .invalid
  runCommand t req .reconcile
    (.reconcile req.run req.command req.expectedRevision stepId ordinal) ordinal
    (fun r _ => replayReconcile stepId ordinal r) (applyReconcile req stepId ordinal now)

end Store

end Athena.Execution
