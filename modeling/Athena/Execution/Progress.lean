import Athena.Execution.Commands

/-!
# Worker-facing methods of the store

What a worker calls while it holds the claim of a Step: taking the claim over,
the end of the preflight, the journal of the two provider mutations, the phases
in between, and the observation that ends a Step or isolates it.
-/

namespace Athena.Execution

open Athena.Lib Queries

structure StepRef where
  run : UUID
  ordinal : ℕ
  deriving DecidableEq

/-- `CompleteExecutionPreflightRequest` -/
structure PreflightRequest where
  step : StepRef
  command : UUID
  claim : ClaimId
  nextState : StepState
  skipScope : Option StepScope := none
  reasonCode : Code := .empty

/-- `PrepareExecutionMutationRequest` -/
structure PrepareRequest where
  attempt : UUID
  step : StepRef
  command : UUID
  claim : ClaimId
  kind : MutationKind
  request : MutationRequest
  positionRequestId : ℕ := 0

/-- `DispatchExecutionMutationRequest` -/
structure DispatchRequest where
  attempt : UUID
  step : StepRef
  claim : ClaimId
  deriving DecidableEq

/-- `ResolveExecutionMutationRequest` -/
structure ResolveRequest where
  attempt : UUID
  result : MutationResult
  positionRequestId : ℕ := 0
  httpStatus : ℕ := 0
  providerSlug : Code := .empty
  errorCode : Code := .empty

/-- `RecordExecutionStepOpenedRequest` -/
structure OpenedRequest where
  attempt : UUID
  step : StepRef
  claim : ClaimId
  positionRequestId : ℕ
  transactionDigest : Digest
  providerState : Code
  providerOrderState : Code
  httpStatus : ℕ
  providerSlug : Code := .empty

/-- `RecordExecutionProviderObservationRequest`.  The completion source, pubkeys
and creation time of the request are one optional piece of evidence. -/
structure ObservationRequest where
  step : StepRef
  command : UUID
  claim : ClaimId
  expectedState : StepState
  nextState : StepState
  reasonCode : Code := .empty
  providerState : Code := .empty
  providerOrderState : Code := .empty
  positionRequestId : ℕ := 0
  completion : Option CompletionEvidence := none
  nextPollAt : Option Time := none
  skipScope : Option StepScope := none
  isolation : Option UUID := none
  attempt : Option UUID := none
  resolveIsolation : Option UUID := none
  resolutionCode : Code := .empty

def StepScope.wide : StepScope → Bool
  | .current => false
  | .remainingWallet | .remainingMarket => true

def ObservationRequest.statement (req : ObservationRequest) : Queries.Observation where
  ordinal := req.step.ordinal
  claimId := req.claim
  expectedState := req.expectedState
  nextState := req.nextState
  reasonCode := req.reasonCode
  providerState := req.providerState
  providerOrderState := req.providerOrderState
  positionRequestId := req.positionRequestId
  completion := req.completion
  nextPollAt := req.nextPollAt

namespace Store

/-! ## Claims -/

def validWorker (owner : String) : Bool :=
  Text.trimSpace owner = owner && owner ≠ "" && owner.utf8ByteSize ≤ 200

def recoverExecutionStep (t : Tables) (step : StepRef) (claim : Claim) (now : Time) :
    Except StoreError (Tables × Step) := do
  ensure (0 < step.ordinal ∧ validWorker claim.owner ∧ now < claim.expiresAt) .invalid
  t.onRun step.run .conflict fun r =>
    claimExecutionRunStepForRecovery r step.ordinal claim now

def renewExecutionStepClaim (t : Tables) (step : StepRef) (claim : Claim) (now : Time) :
    Except StoreError (Tables × Step) := do
  ensure (0 < step.ordinal ∧ validWorker claim.owner ∧ now < claim.expiresAt) .invalid
  t.onRun step.run .conflict fun r => renewExecutionRunStepClaim r step.ordinal claim now

/-! ## The end of a Step -/

/-- The part of `finalizeExecutionStepProgress` that depends on the Run's state,
after the progress was counted. -/
def settleRun (r : Run) (now : Time) : Except StoreError Run :=
  match r.state with
  | .pauseRequested => do
      let r ← checkpointExecutionRunPaused r now
      pure (releaseExecutionCoordinator r)
  | .terminateRequested => do
      let r ← endPendingSteps r now
      let r ← completeExecutionRunTermination r now
      pure (closeTerminalExecutionRun r)
  | .running =>
    if r.counts.terminal = r.totalStepCount then do
      let r ← completeExecutionRun r now
      pure (closeTerminalExecutionRun r)
    else touchExecutionRunRevision r
  | _ => touchExecutionRunRevision r

def finalizeExecutionStepProgress (r : Run) (now : Time) : Except StoreError Run := do
  let r ← refreshExecutionRunProgress r
  settleRun r now

/-- The name of a Step state, which is the result of the command that reached it. -/
def stepStateName : StepState → Code
  | .pending => .lit "PENDING"
  | .preflighting => .lit "PREFLIGHTING"
  | .opening => .lit "OPENING"
  | .opened => .lit "OPENED"
  | .signing => .lit "SIGNING"
  | .finalizing => .lit "FINALIZING"
  | .awaitingCompletion => .lit "AWAITING_COMPLETION"
  | .completed => .lit "COMPLETED"
  | .satisfied => .lit "SATISFIED"
  | .skipped => .lit "SKIPPED"
  | .failed => .lit "FAILED"
  | .notExecuted => .lit "NOT_EXECUTED"
  | .outcomeUnknown => .outcomeUnknown

/-- `SkipScopedPendingExecutionSteps` for an optional scope. -/
def skipScope (r : Run) (s : StepRow) (scope : Option StepScope) (reasonCode : Code) (now : Time) :
    Run :=
  match scope with
  | some scope =>
    if scope.wide then skipScopedPendingExecutionSteps r s scope reasonCode now
    else r
  | none => r

/-- `CompleteExecutionPreflight`, on the locked Run. -/
def applyPreflight (req : PreflightRequest) (now : Time) (r : Run) :
    Except StoreError (Run × Step) := do
  let prior ← found (r.steps.get? req.step.ordinal) .conflict
  ensure (prior.claim.any (fun c => c.id = req.claim) ∧ prior.activeCommand = some req.command)
    .conflict
  let (r, s) ← completeExecutionStepPreflight r req.step.ordinal req.claim req.nextState
    req.reasonCode now
  if req.nextState = .opening then pure (r, s)
  else
    let r ← finalizeExecutionStepProgress (skipScope r s.toStepRow req.skipScope req.reasonCode now)
      now
    let r ← completeExecutionCommand r req.command (stepStateName req.nextState)
    pure (r, s)

/-- `CompleteExecutionPreflight`.  It does not read the state of the Run. -/
def completeExecutionPreflight (t : Tables) (req : PreflightRequest) (now : Time) :
    Except StoreError (Tables × Step) := do
  ensure (0 < req.step.ordinal) .invalid
  ensure (req.nextState = .opening ∨ req.nextState = .satisfied ∨ req.nextState = .skipped ∨
    req.nextState = .failed) .invalid
  ensure (req.nextState = .opening → req.skipScope = none ∨ req.skipScope = some .current) .invalid
  ensure (req.nextState ≠ .opening → req.reasonCode.text ≠ "") .invalid
  t.onRun req.step.run .conflict (applyPreflight req now)

/-- `PauseExecutionRunForFailure`, on the locked Run. -/
def applyFailurePause (pauseCode : Code) (now : Time) (r : Run) :
    Except StoreError (Run × Run) := do
  let r ← Queries.pauseExecutionRunForFailure r pauseCode now
  let r := releaseExecutionCoordinator r
  pure (r, r)

/-- `PauseExecutionRunForFailure`.  It takes neither a claim nor a revision. -/
def pauseExecutionRunForFailure (t : Tables) (run : UUID) (pauseCode : Code) (now : Time) :
    Except StoreError (Tables × Run) := do
  ensure (pauseCode.text ≠ "") .invalid
  t.onRun run .conflict (applyFailurePause pauseCode now)

/-! ## Mutations -/

def prepareExecutionMutation (t : Tables) (req : PrepareRequest) (now : Time) :
    Except StoreError (Tables × Attempt) := do
  ensure (0 < req.step.ordinal) .invalid
  ensure (req.kind = .finalize → 0 < req.positionRequestId) .invalid
  t.onRun req.step.run .conflict fun r =>
    createExecutionMutationAttempt t.attemptTaken r req.step.ordinal req.attempt req.command
      req.claim req.kind req.request req.positionRequestId now

def dispatchExecutionMutation (t : Tables) (req : DispatchRequest) (now : Time) :
    Except StoreError (Tables × Attempt) := do
  ensure (0 < req.step.ordinal) .invalid
  t.onRun req.step.run .conflict fun r =>
    dispatchExecutionMutationAttempt r req.step.ordinal req.attempt req.claim now

def attemptHome (t : Tables) (id : UUID) : Option StepRef :=
  t.runs.rows.findSome? fun r =>
    (r.steps.rows.find? fun s => (attemptById s.toStepRow id).isSome).map fun s =>
      ⟨r.id, s.ordinal⟩

/-- `ResolveExecutionMutation`, on the Run of the attempt. -/
def applyResolve (req : ResolveRequest) (ordinal : ℕ) (now : Time) (r : Run) :
    Except StoreError (Run × Attempt) := do
  let s ← found (r.steps.get? ordinal) .conflict
  let a ← found (attemptById s.toStepRow req.attempt) .conflict
  ensure (¬(a.kind = .open ∧ req.result = .succeeded)) .invalid
  let (r, _, a) ← completeExecutionMutationAttempt r s a req.result req.positionRequestId
    req.httpStatus req.providerSlug req.errorCode now
  pure (r, a)

/-- `ResolveExecutionMutation`.  The attempt is found by its identifier alone. -/
def resolveExecutionMutation (t : Tables) (req : ResolveRequest) (now : Time) :
    Except StoreError (Tables × Attempt) := do
  ensure (req.result ≠ .succeeded → req.errorCode.text ≠ "") .invalid
  ensure (req.httpStatus ≤ 599) .invalid
  let home ← found (attemptHome t req.attempt) .conflict
  t.onRun home.run .conflict (applyResolve req home.ordinal now)

def resolveOpened (req : OpenedRequest) (now : Time) (r : Run) (s : Step) (a : Attempt) :
    Except StoreError (Run × Attempt) :=
  match a.status with
  | .dispatched _ => do
      let (r, _, a) ← completeExecutionMutationAttempt r s a .succeeded
        req.positionRequestId req.httpStatus req.providerSlug .empty now
      pure (r, a)
  | _ => .ok (r, a)

/-- `RecordExecutionStepOpened`, on the locked Run. -/
def applyOpened (req : OpenedRequest) (now : Time) (r : Run) : Except StoreError (Run × Step) := do
  let prior ← found (r.steps.get? req.step.ordinal) .conflict
  let a ← found (attemptById prior.toStepRow req.attempt) .conflict
  ensure (a.kind = .open) .conflict
  if prior.state = .opened then
    ensure (prior.positionRequestId = req.positionRequestId ∧
      prior.transactionDigest = some req.transactionDigest ∧
      prior.providerState = req.providerState ∧ prior.providerOrderState = req.providerOrderState ∧
      prior.claim.any (fun c => c.id = req.claim) ∧ a.status.result? = some .succeeded ∧
      a.positionRequestId = req.positionRequestId) .commandConflict
    pure (r, prior)
  else
    ensure (prior.state = .opening ∧ prior.claim.any fun c => c.id = req.claim) .conflict
    let (r, a) ← resolveOpened req now r prior a
    ensure (a.status.result? = some .succeeded ∧ a.positionRequestId = req.positionRequestId)
      .conflict
    recordExecutionRunStepOpened r req.step.ordinal req.claim req.positionRequestId
      req.transactionDigest req.providerState req.providerOrderState

def recordExecutionStepOpened (t : Tables) (req : OpenedRequest) (now : Time) :
    Except StoreError (Tables × Step) := do
  ensure (0 < req.step.ordinal ∧ 0 < req.positionRequestId) .invalid
  ensure (200 ≤ req.httpStatus ∧ req.httpStatus ≤ 299) .invalid
  t.onRun req.step.run .conflict (applyOpened req now)

def markExecutionStepSigning (t : Tables) (step : StepRef) (claim : ClaimId) :
    Except StoreError (Tables × Step) := do
  ensure (0 < step.ordinal) .invalid
  t.onRun step.run .conflict fun r => markExecutionRunStepSigning r step.ordinal claim

def recordExecutionStepSigned (t : Tables) (step : StepRef) (claim : ClaimId)
    (signer : SignerMetadata) : Except StoreError (Tables × Step) := do
  ensure (0 < step.ordinal ∧ signer.transactionVersion.text.utf8ByteSize ≤ 20) .invalid
  t.onRun step.run .conflict fun r =>
    recordExecutionRunStepSigned r step.ordinal claim signer

/-! ## Observations -/

def transitionAllowed (expected next : StepState) : Bool :=
  match expected, next with
  | .opening, .awaitingCompletion | .opening, .completed | .opening, .skipped
  | .opening, .failed | .opening, .outcomeUnknown => true
  | .opened, .awaitingCompletion | .opened, .completed | .opened, .failed
  | .opened, .outcomeUnknown => true
  | .signing, .awaitingCompletion | .signing, .completed | .signing, .failed
  | .signing, .outcomeUnknown => true
  | .finalizing, .awaitingCompletion | .finalizing, .completed | .finalizing, .failed
  | .finalizing, .outcomeUnknown => true
  | .awaitingCompletion, .awaitingCompletion | .awaitingCompletion, .completed
  | .awaitingCompletion, .failed | .awaitingCompletion, .outcomeUnknown => true
  | .outcomeUnknown, .completed | .outcomeUnknown, .satisfied | .outcomeUnknown, .failed
  | .outcomeUnknown, .outcomeUnknown => true
  | _, _ => false

/-- `normalizeExecutionCompletionPubkey` accepts the text. -/
def validPubkey (s : String) : Bool :=
  Text.trimSpace s = s && 32 ≤ s.utf8ByteSize && s.utf8ByteSize ≤ 64 &&
    s.toList.all fun c => 0x21 ≤ c.toNat && c.toNat ≠ 0x7f

def executionStoreProviderTerminalFailure (state : Code) : Bool :=
  terminalFailureText state.text

def observationData (req : ObservationRequest) (now : Time) : Bool :=
  (req.nextState ≠ .awaitingCompletion || req.providerState.text ≠ "") &&
  (!(req.nextState = .skipped || req.nextState = .failed || req.nextState = .outcomeUnknown) ||
    req.reasonCode.text ≠ "") &&
  (match req.completion with
    | some e => req.nextState = .completed && validPubkey e.positionPubkey &&
        (e.positionRequestPubkey = "" || validPubkey e.positionRequestPubkey) &&
        second ≤ e.positionCreatedAt
    | none => req.nextState ≠ .completed) &&
  (req.nextState ≠ .awaitingCompletion || req.nextPollAt.any (now < ·))

def observationScope (req : ObservationRequest) : Bool :=
  (req.positionRequestId = 0 || (req.expectedState = .opening &&
    (req.nextState = .awaitingCompletion || req.nextState = .completed ||
      req.nextState = .failed || req.nextState = .outcomeUnknown))) &&
  (!(req.expectedState = .opening && req.nextState = .failed && 0 < req.positionRequestId) ||
    executionStoreProviderTerminalFailure req.providerState) &&
  (if req.nextState = .skipped then
    req.expectedState = .opening && req.skipScope = some .remainingWallet &&
      req.positionRequestId = 0 && (req.reasonCode.text = "MARKET_POSITION_EXISTS" ||
        req.reasonCode.text = "WALLET_REQUEST_IN_FLIGHT")
  else req.nextState = .failed || req.skipScope = none)

def observationIsolation (req : ObservationRequest) : Bool :=
  (!(req.nextState = .outcomeUnknown && req.expectedState ≠ .outcomeUnknown) ||
    (req.isolation.isSome && req.attempt.isSome)) &&
  (!(req.expectedState = .outcomeUnknown && req.nextState ≠ .outcomeUnknown) ||
    (req.resolveIsolation.isSome && req.resolutionCode.text ≠ ""))

def skipExecutionTerminalScope (r : Run) (s : StepRow) (nextState : StepState)
    (scope : Option StepScope) (reasonCode : Code) (now : Time) : Run :=
  if nextState = .failed ∨ (nextState = .skipped ∧ scope = some .remainingWallet) then
    skipScope r s scope reasonCode now
  else r

def settleUnknown (r : Run) (now : Time) : Except StoreError Run :=
  if r.state = .terminated then do
    let r ← endPendingSteps r now
    pure (closeTerminalExecutionRun r)
  else .ok r

def isolateUnknown (t : Tables) (req : ObservationRequest) (now : Time) (r : Run) :
    Except StoreError Run := do
  let isolation ← found req.isolation .invalid
  let attempt ← found req.attempt .invalid
  let r ← createExecutionStepIsolation t.pairIsolated t.isolationTaken r req.step.ordinal
    isolation attempt req.reasonCode
  let r ← markExecutionRunReconciliationRequired r req.reasonCode now
  let r ← settleUnknown (releaseExecutionCoordinator r) now
  completeExecutionCommand r req.command req.reasonCode

def staysUnknown (req : ObservationRequest) (r : Run) : Except StoreError Run := do
  let r ← touchExecutionRunRevision r
  completeExecutionCommand r req.command req.reasonCode

/-- What becomes of the Run of a reconciled Step, after the progress was counted. -/
def settleReconciled (r : Run) (now : Time) : Except StoreError Run :=
  if r.state = .terminated then touchExecutionRunRevision r
  else if r.counts.terminal = r.totalStepCount then do
    let r ← completeReconciledExecutionRun r now
    pure (closeTerminalExecutionRun r)
  else resolveExecutionRunReconciliation r now

def reconciled (req : ObservationRequest) (s : StepRow) (now : Time) (r : Run) :
    Except StoreError Run := do
  let isolation ← found req.resolveIsolation .invalid
  let r ← resolveExecutionStepIsolation r req.step.ordinal isolation req.resolutionCode now
  let r ← refreshExecutionRunProgress
    (skipExecutionTerminalScope r s req.nextState req.skipScope req.reasonCode now)
  let r ← settleReconciled r now
  completeExecutionCommand r req.command (stepStateName req.nextState)

def concluded (req : ObservationRequest) (s : StepRow) (now : Time) (r : Run) :
    Except StoreError Run := do
  let r ← finalizeExecutionStepProgress
    (skipExecutionTerminalScope r s req.nextState req.skipScope req.reasonCode now) now
  completeExecutionCommand r req.command (stepStateName req.nextState)

/-- `RecordExecutionProviderObservation`, on the locked Run. -/
def applyObservation (t : Tables) (req : ObservationRequest) (now : Time) (r : Run) :
    Except StoreError (Run × Step) := do
  let prior ← found (r.steps.get? req.step.ordinal) .conflict
  ensure (prior.state = req.expectedState ∧ prior.activeCommand = some req.command ∧
    prior.claim.any fun c => c.id = req.claim) .conflict
  ensure (req.positionRequestId = 0 ∨ prior.positionRequestId = 0 ∨
    prior.positionRequestId = req.positionRequestId) .conflict
  ensure (req.expectedState = .outcomeUnknown →
    r.state = .reconciliationRequired ∨ r.state = .terminated) .conflict
  let (r, s) ← recordExecutionRunProviderObservation t.completionTaken r req.statement now
  let r ←
    -- the execute-next command stays in progress while the Step is polled
    if req.nextState = .awaitingCompletion then pure r
    else if req.nextState = .outcomeUnknown then
      if req.expectedState = .outcomeUnknown then staysUnknown req r
      else isolateUnknown t req now r
    else if req.expectedState = .outcomeUnknown then reconciled req s.toStepRow now r
    else concluded req s.toStepRow now r
  pure (r, s)

def recordExecutionProviderObservation (t : Tables) (req : ObservationRequest) (now : Time) :
    Except StoreError (Tables × Step) := do
  ensure (0 < req.step.ordinal) .invalid
  ensure (transitionAllowed req.expectedState req.nextState) .invalid
  ensure (observationData req now ∧ observationScope req ∧ observationIsolation req) .invalid
  t.onRun req.step.run .notFound (applyObservation t req now)

end Store
end Athena.Execution
