import Athena.Execution.Enabled
import Athena.Execution.Scopes

/-!
# A rejected Open, recorded at once or after a crash

The worker that receives a definite rejection of its Open commits the attempt as a definite
failure, and then ends the Step with the code of the rejection, together with the Steps that are
bound to be rejected as well.  A worker that recovers the Step does not know the rejection.
-/

namespace Athena.Execution

open Athena.Lib Table Queries Store Option Run

/-! ## Rejections -/

namespace Code
def webAuthRejected : Code := .lit "WORM_WEB_AUTH_REJECTED"
def webUnavailable : Code := .lit "WORM_WEB_UNAVAILABLE"
def webResponseInvalid : Code := .lit "WORM_WEB_INVALID_RESPONSE"
def rateLimited : Code := .lit "RATE_LIMITED"
def openRejected : Code := .lit "WORM_OPEN_REJECTED"
def providerFailed : Code := .lit "WORM_REQUEST_FAILED"
def openOutcomeUnknown : Code := .lit "OPEN_OUTCOME_UNKNOWN"
end Code

/-- `executionWebError` -/
structure WebError where
  code : Code
  definiteClient : Bool
  temporary : Bool

/-- `classifyExecutionWebError` of a `WebAPIError`; no other error is definite. -/
def classifyExecutionWebError (statusCode : ℕ) (structuredJSON : Bool) : WebError :=
  if statusCode = 401 ∨ statusCode = 403 then ⟨.webAuthRejected, structuredJSON, false⟩
  else if statusCode = 429 then ⟨.rateLimited, false, true⟩
  else if statusCode = 408 ∨ statusCode = 409 ∨ statusCode = 425 ∨ 500 ≤ statusCode then
    ⟨.webUnavailable, false, true⟩
  else if 400 ≤ statusCode then ⟨.openRejected, true, false⟩
  else ⟨.webResponseInvalid, false, false⟩

/-- `WebPositionRequestObservation` -/
structure PositionRequest where
  state : Code
  orderState : Code

def PositionRequest.isCompleted (o : PositionRequest) : Bool := o.state.text = "completed"

def PositionRequest.isTerminalFailure (o : PositionRequest) : Bool :=
  o.state.text = "failed" || o.state.text = "cancelled"

/-- What the provider can answer to an Open that it definitely rejects: an error, or a request that
has failed already. -/
inductive Rejection
  | refused (statusCode : ℕ) (structuredJSON : Bool)
  | failed (positionRequestId : ℕ) (request : PositionRequest)

namespace Rejection

/-- The provider did not execute the Open, and will not. -/
def definite : Rejection → Bool
  | refused status json => (classifyExecutionWebError status json).definiteClient &&
      !(classifyExecutionWebError status json).temporary
  | failed number request => 0 < number && request.isTerminalFailure

/-- The number that the attempt is committed with. -/
def positionRequestId : Rejection → ℕ
  | refused .. => 0
  | failed number _ => number

/-- The request in the answer, if it was no error. -/
def request? : Rejection → Option PositionRequest
  | refused .. => none
  | failed _ request => some request

/-- The code that the Step fails with in the turn that received the answer. -/
def reason : Rejection → Code
  | refused status json => (classifyExecutionWebError status json).code
  | failed .. => .providerFailed

/-- The Steps that are bound to be rejected as well. -/
def scope : Rejection → StepScope
  | refused status json =>
    if (classifyExecutionWebError status json).code = .webAuthRejected then .remainingWallet
    else .remainingMarket
  | failed .. => .current

end Rejection

/-! ## What the two workers record -/

/-- `executionWorkerTask`: the Step that a worker has in hand. -/
structure OpenTask where
  run : UUID
  step : Step
  command : UUID
  claim : ClaimId

namespace OpenTask

/-- The observation by which a worker records that a Step failed. -/
def failure (k : OpenTask) (expected : StepState) (reason : Code) (scope : StepScope)
    (request : ℕ) (state order : Code) : ObservationRequest where
  step := ⟨k.run, k.step.ordinal⟩
  command := k.command
  claim := k.claim
  expectedState := expected
  nextState := .failed
  reasonCode := reason
  providerState := state
  providerOrderState := order
  positionRequestId := request
  skipScope := some scope

def executionProviderTerminalFailure (state : Code) : Bool :=
  Text.toLower (Text.trimSpace state.text) = "failed" ||
    Text.toLower (Text.trimSpace state.text) = "cancelled"

/-- `recordExecutionProviderFailure`, for an attempt that is a definite failure. -/
def recordExecutionProviderFailure (k : OpenTask) (expected : StepState) (a : Attempt)
    (reason : Code) (scope : StepScope) (observation : Option PositionRequest) :
    ObservationRequest :=
  k.failure expected reason scope
    (if expected = .opening ∧ observation.any fun o => executionProviderTerminalFailure o.state then
      a.positionRequestId
    else 0)
    (observation.elim k.step.providerState PositionRequest.state)
    (observation.elim k.step.providerOrderState PositionRequest.orderState)

/-- `executeWormOpen`, after it resolved the attempt and found no position. -/
def executeWormOpen (k : OpenTask) (a : Attempt) (rejection : Rejection) : ObservationRequest :=
  k.recordExecutionProviderFailure k.step.state a rejection.reason rejection.scope
    rejection.request?

/-- `markExecutionOutcomeUnknownWithProvider` -/
def markExecutionOutcomeUnknown (k : OpenTask) (a : Attempt) (o : PositionRequest)
    (isolation : UUID) : ObservationRequest :=
  { unknownObservation k.run k.step.toStepRow k.command k.claim a.id isolation
      .openOutcomeUnknown with
    providerState := o.state
    providerOrderState := o.orderState
    positionRequestId := if k.step.state = .opening ∧ k.step.positionRequestId = 0 then
      a.positionRequestId else 0 }

/-- `recoverDefiniteOpen`, when it finds no position.  A request that has a number is read again;
the reading can fail, and the request need not be a failure any more. -/
def recoverDefiniteOpen (k : OpenTask) (a : Attempt) (reading : Except Code PositionRequest)
    (isolation : UUID) : Operation :=
  if a.positionRequestId = 0 then
    .observe (k.recordExecutionProviderFailure k.step.state a .openRejected .current none)
  else match reading with
    | .error code => .failurePause k.run code
    | .ok o =>
      if o.isTerminalFailure then
        .observe (k.failure .opening .providerFailed .current a.positionRequestId o.state
          o.orderState)
      else if o.isCompleted then .observe (k.markExecutionOutcomeUnknown a o isolation)
      else .failurePause k.run .webResponseInvalid

end OpenTask

/-- The tables after another worker has recovered a Step in `OPENING` whose Open is a definite
failure. -/
def recoverWormOpen (ref : StepRef) (claim : Claim) (command isolation : UUID)
    (reading : Except Code PositionRequest) (t : Tables) (now now' : Time) :
    Except StoreError Tables := do
  let (t, s) ← exec (.recover ref claim) t now
  let a ← found (s.openAttempt.filter fun a =>
    s.state = .opening && a.status.result? = some .definiteFailure) .conflict
  let op := (OpenTask.mk ref.run s command claim.id).recoverDefiniteOpen a reading isolation
  let (t, _) ← exec op t now'
  pure t

/-! ## The Steps that end -/

/-- A Step by its ordinal, and how it ended if it was skipped or failed. -/
abbrev Outcome : Type := ℕ × Option (StepState × Code)

def Step.outcome (u : Step) : Outcome :=
  (u.ordinal, if u.state = .skipped ∨ u.state = .failed then some (u.state, u.reasonCode) else none)

/-- The outcomes of the Steps of a Run, in their order. -/
def Tables.outcomes (t : Tables) (run : UUID) : Option (List Outcome) :=
  (t.runs.get? run).map fun r => r.steps.rows.map Step.outcome

/-- The outcome of a Step when the one at `ordinal` fails and no other ends. -/
def Step.outcomeIf (ordinal : ℕ) (reason : Code) (u : Step) : Outcome :=
  if u.ordinal = ordinal then (ordinal, some (.failed, reason)) else u.outcome

theorem outcome_closing (r : Run) (now : Time) (u : Step) :
    (r.closing now u).outcome = u.outcome := by
  unfold closing
  split
  · -- a Step that is not executed is neither skipped nor failed
    unfold endPendingIf
    split
    · rename_i hu
      simp [Step.outcome, endPending, PendingEnd.state, hu.1]
    · rfl
  · rfl

section recorded
variable {t t' : Tables} {r : Run} {s : Step} {reason : Code} {scope : StepScope} {now : Time}

theorem outcome_endsWith {s' u : Step} (hord : s'.ordinal = s.ordinal)
    (hfailed : s'.state = .failed) (hreason : s'.reasonCode = reason)
    (hscope : u.state = .pending → r.scoped s.toStepRow scope u = false) :
    (r.endsWith s s' scope reason now u).outcome = u.outcomeIf s.ordinal reason := by
  by_cases hu : u.ordinal = s.ordinal
  · simp [endsWith, Step.outcomeIf, Step.outcome, hord, hu, hfailed, hreason]
  · have hkept : ¬(u.state = .pending ∧ r.scoped s.toStepRow scope u) := fun h => by
      simp [hscope h.1] at h
    simp [endsWith, Step.outcomeIf, hu, outcome_closing, endPendingIf, hkept]

theorem outcomes_of_failure {k : OpenTask} {op : Operation} {expected : StepState} {request : ℕ}
    {state order : Code} {x : op.Reply} (h : exec op t now = .ok (t', x))
    (hop : op = .observe (k.failure expected reason scope request state order))
    (hr : t.runs.get? k.run = some r) (hs : r.steps.get? k.step.ordinal = some s)
    (hscope : ∀ u ∈ r.steps, u.state = .pending → r.scoped s.toStepRow scope u = false) :
    t'.outcomes k.run = some (r.steps.rows.map (Step.outcomeIf s.ordinal reason)) := by
  subst hop
  simp only [exec, recordExecutionProviderObservation, Tables.onRun, committed, Prod.exists] at h
  obtain ⟨-, hallowed, ⟨hdata, hvalid, -⟩, r₀, hr₀, r', x', happly, rfl, -⟩ := h
  obtain rfl := Option.mem_unique hr₀ hr
  obtain ⟨v, s', hget, hstate, hends⟩ := ends_applyObservation hallowed hdata hvalid rfl happly
  obtain rfl := Option.mem_unique hget hs
  obtain ⟨hmem, hid⟩ := get?_eq_some.mp hr
  have hget' : (⟨t.runs.put r'⟩ : Tables).runs.get? k.run = some r' := by
    rw [← hid, ← hends.id]
    exact get?_put_self hmem hends.id.symm
  rw [Tables.outcomes, hget', map_some, hends.rows, List.map_map]
  exact congrArg some (List.map_congr_left fun u hu =>
    outcome_endsWith hends.ordinal hstate hends.reasonCode (hscope u hu))

/-- The claim of the recovering worker is all that changes. -/
theorem outcomes_of_recover {ref : StepRef} {claim : Claim} {y : Step} (reason : Code)
    (h : exec (.recover ref claim) t now = .ok (t', y)) (hr : t.runs.get? ref.run = some r)
    (hs : r.steps.get? ref.ordinal = some s) :
    y.openAttempt = s.openAttempt ∧
      ∃ r', t'.runs.get? ref.run = some r' ∧ r'.steps.get? ref.ordinal = some y ∧
        r'.steps.rows.map (Step.outcomeIf y.ordinal reason) =
          r.steps.rows.map (Step.outcomeIf s.ordinal reason) := by
  simp only [exec, recoverExecutionStep, Tables.onRun, claimExecutionRunStepForRecovery, committed,
    Step.write_eq_ok, Prod.exists] at h
  obtain ⟨-, r₀, hr₀, r', x', ⟨u, hu, -, -, -, -, -, -, y', hrow, rfl, rfl⟩, rfl, rfl⟩ := h
  obtain rfl := mem_unique hr₀ hr
  obtain rfl := mem_unique hu hs
  obtain ⟨hmem, hid⟩ := get?_eq_some.mp hr
  obtain ⟨humem, hord⟩ := get?_eq_some.mp hu
  have hord' : y'.ordinal = u.ordinal := by rw [hrow]
  refine ⟨by rw [hrow], r₀.putStep y', ?_, ?_, ?_⟩
  · rw [← hid]
    exact get?_put_self hmem rfl
  · rw [← hord, ← hord']
    exact get?_put_self humem hord'.symm
  · refine (List.map_map ..).trans (List.map_congr_left fun v _ => ?_)
    by_cases hv : v.ordinal = u.ordinal <;> simp [Step.outcomeIf, hord', hv]

end recorded

/-! ## The two ways compared -/

/-- The recovery ends the same Steps for the same reasons: the rejection is no rejection of the
session, and no Step of the same market is left behind it; or it is a request that is still a
failure when it is read again. -/
def Rejection.Recovers (r : Run) (s : StepRow) (reading : Except Code PositionRequest) :
    Rejection → Prop
  | refused status _ => (status ≠ 401 ∧ status ≠ 403) ∧
      ∀ u ∈ r.steps, u.state = .pending → r.scoped s .remainingMarket u = false
  | failed .. => ∃ o, reading = .ok o ∧ o.isTerminalFailure

theorem code_of_definite {status : ℕ} {json : Bool} (h : (Rejection.refused status json).definite)
    (hauth : status ≠ 401 ∧ status ≠ 403) :
    (classifyExecutionWebError status json).code = .openRejected := by
  simp only [Rejection.definite, classifyExecutionWebError] at h ⊢
  split_ifs at h ⊢ <;> simp_all

namespace Sample

/-- The sample Open was definitely rejected. -/
def rejected (rejection : Rejection) : Tables := after (started ++ dispatched ++
  [(.resolve ⟨401, .definiteFailure, rejection.positionRequestId, 0, .empty, .openRejected⟩, 9)])

def openTask (s : Step) : OpenTask := ⟨1, s, 103, .worker 1⟩

/-- The tables after the worker that received the rejection recorded it. -/
def atOnce (rejection : Rejection) : Except StoreError Tables := do
  let r ← found ((rejected rejection).runs.get? 1) .notFound
  let s ← found (r.steps.get? 1) .notFound
  let a ← found s.openAttempt .notFound
  ensure (a.positionRequestId = rejection.positionRequestId) .conflict
  let (t, _) ← exec (.observe ((openTask s).executeWormOpen a rejection)) (rejected rejection) 10
  pure t

/-- The tables after another worker recovered a Step. -/
def afterCrash (ordinal : ℕ) (rejection : Rejection) (reading : Except Code PositionRequest) :
    Except StoreError Tables :=
  recoverWormOpen ⟨1, ordinal⟩ ⟨.worker 2, "worker", 300⟩ 103 7 reading (rejected rejection) 200 201

def failedRequest : PositionRequest := ⟨.lit "failed", .empty⟩

end Sample

open Sample

end Athena.Execution
