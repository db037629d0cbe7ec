import Athena.Lib.Exclusive
import Athena.Lib.Table
import Athena.Lib.Text

/-!
# Rows of the execution store

The durable data of an execution Run, as the migrations declare it.  Tables that
carry a `run_id` are kept inside the Run they belong to, and a Step carries its
own attempts and isolations, so a transaction on one Run is a function of that
Run and cannot touch another.

Constraints of the schema are part of the types wherever a value can carry them:
a `Step` or a `Run` is a row together with the proof of the `CHECK` constraints on
it.  A nullable positive number is a natural number whose zero stands for `NULL`,
which is how the Go layer reads and writes those columns.  Times are microseconds.
-/

namespace Athena.Execution

open Athena.Lib

abbrev UUID := ℕ

abbrev Digest := ℕ

abbrev Time := ℕ

def second : Time := 1000000

/-- `date_trunc('second', t)`. -/
def truncSecond (t : Time) : Time := t / second * second

/-! ## Codes -/

/-- The bound of `normalizeExecutionCode`. -/
def maxExecutionRunCodeLength : ℕ := 100

/-- A bounded code: a text without surrounding space of at most 100 bytes. -/
structure Code where
  text : String
  trimmed : Text.trimSpace text = text
  bounded : text.utf8ByteSize ≤ maxExecutionRunCodeLength
  deriving DecidableEq

namespace Code

def empty : Code := ⟨"", by decide, by decide⟩

instance : Inhabited Code := ⟨empty⟩

def lit (text : String) (trimmed : Text.trimSpace text = text := by decide)
    (bounded : text.utf8ByteSize ≤ maxExecutionRunCodeLength := by decide) : Code :=
  ⟨text, trimmed, bounded⟩

def ready : Code := .lit "READY"

def runTerminated : Code := .lit "RUN_TERMINATED"

def authorizationRequired : Code := .lit "AUTHORIZATION_REQUIRED"

def timeout : Code := .lit "TIMEOUT"

def outcomeUnknown : Code := .lit "OUTCOME_UNKNOWN"

end Code

/-! ## Enumerations -/

inductive RunState
  | awaitingAuthorization | authorized | running | pauseRequested | paused
  | terminateRequested | reconciliationRequired | completed | terminated | failed
  deriving DecidableEq

def RunState.terminal : RunState → Bool
  | .completed | .terminated | .failed => true
  | _ => false

inductive StepState
  | pending | preflighting | opening | opened | signing | finalizing
  | awaitingCompletion | completed | satisfied | skipped | failed | notExecuted
  | outcomeUnknown
  deriving DecidableEq

namespace StepState

def active : StepState → Bool
  | .preflighting | .opening | .opened | .signing | .finalizing | .awaitingCompletion => true
  | _ => false

def mutating : StepState → Bool
  | .opening | .opened | .signing | .finalizing | .awaitingCompletion => true
  | _ => false

def terminal : StepState → Bool
  | .completed | .satisfied | .skipped | .failed | .notExecuted => true
  | _ => false

def requested : StepState → Bool
  | .opened | .signing | .finalizing | .awaitingCompletion => true
  | _ => false

def signed : StepState → Bool
  | .finalizing | .awaitingCompletion => true
  | _ => false

def recoverable : StepState → Bool
  | .outcomeUnknown => true
  | s => s.active

theorem active_of_mutating {s : StepState} (h : s.mutating) : s.active := by
  cases s <;> simp_all [mutating, active]

theorem mutating_of_requested {s : StepState} (h : s.requested) : s.mutating := by
  cases s <;> simp_all [mutating, requested]

theorem not_terminal_of_active {s : StepState} (h : s.active) : s.terminal = false := by
  cases s <;> simp_all [terminal, active]

end StepState

inductive Disposition | ready | skipped
  deriving DecidableEq

inductive StepScope | current | remainingWallet | remainingMarket
  deriving DecidableEq

inductive MutationKind | open | finalize
  deriving DecidableEq

inductive MutationResult | succeeded | definiteFailure | outcomeUnknown
  deriving DecidableEq

inductive CommandKind
  | authorize | start | pause | resume | terminate | heartbeat | executeNext | reconcile
  deriving DecidableEq

inductive CommandState | accepted | inProgress | applied | failed | abandoned
  deriving DecidableEq

inductive AuthorizationState | authorized | consumed | revoked | superseded
  deriving DecidableEq

inductive CoordinatorState | active | released | expired
  deriving DecidableEq

inductive FinalizeMode | signature | signedTransaction
  deriving DecidableEq

/-! ## Journal rows -/

/-- What a command's `request_sha256` digests, one constructor for each shape
the commands marshal.  Equality of digests is equality of these values. -/
inductive RequestDigest
  | create (owner plan command : UUID) (expectedRevision : ℕ)
  | authorize (run command : UUID) (expectedRevision : ℕ) (proofKind : Code)
      (session : Digest) (accessRevision : ℕ)
  | startOrResume (run command : UUID) (expectedRevision : ℕ) (session : Digest)
      (accessRevision : ℕ) (kind : CommandKind)
  | control (owner run command : UUID) (expectedRevision : ℕ)
  | heartbeat (owner run command : UUID) (expectedRevision : ℕ) (token session : Digest)
      (accessRevision : ℕ)
  | executeNext (run command : UUID) (expectedRevision stepOrdinal : ℕ) (token session : Digest)
      (accessRevision : ℕ)
  | reconcile (run command : UUID) (expectedRevision : ℕ) (stepId : UUID) (stepOrdinal : ℕ)
  deriving DecidableEq

/-- A row of `worm_execution_commands`. -/
structure Command where
  id : UUID
  coordinator : Option (UUID × ℕ) := none
  kind : CommandKind
  state : CommandState
  request : RequestDigest
  runRevisionBefore : ℕ
  runRevisionAfter : ℕ := 0
  stepOrdinal : ℕ := 0
  resultCode : Code := .empty
  deriving DecidableEq

/-- A row of `worm_execution_authorizations`. -/
structure Authorization where
  id : UUID
  proofKind : Code
  session : Digest
  accessRevision : ℕ
  planVersion : ℕ
  planDigest : Digest
  state : AuthorizationState
  deriving DecidableEq

/-- A row of `worm_execution_coordinators`. -/
structure Coordinator where
  id : UUID
  generation : ℕ
  token : Digest
  session : Digest
  accessRevision : ℕ
  state : CoordinatorState
  leaseExpiresAt : Time
  deriving DecidableEq

/-- The request an attempt froze, which `request_sha256` digests. -/
inductive MutationRequest
  | open (market funds : String) (isYes : Bool)
  | finalize (positionRequestId : ℕ) (mode : FinalizeMode) (payload : String)
  deriving DecidableEq

/-- The status of an attempt with the times its `CHECK` constraint attaches to it. -/
inductive AttemptStatus
  | prepared
  | dispatched (dispatchedAt : Time)
  | resolved (result : MutationResult) (dispatchedAt completedAt : Time)
  deriving DecidableEq

namespace AttemptStatus

/-- `dispatched_at`. -/
def dispatchedAt? : AttemptStatus → Option Time
  | .prepared => none
  | .dispatched t => some t
  | .resolved _ t _ => some t

def result? : AttemptStatus → Option MutationResult
  | .resolved r _ _ => some r
  | _ => none

end AttemptStatus

/-- A row of `worm_execution_mutation_attempts`. -/
structure Attempt where
  id : UUID
  coordinator : UUID × ℕ
  command : UUID
  kind : MutationKind
  status : AttemptStatus
  request : MutationRequest
  positionRequestId : ℕ
  httpStatus : ℕ := 0
  providerSlug : Code := .empty
  errorCode : Code := .empty
  deriving DecidableEq

def Attempt.isResolved (a : Attempt) : Bool := a.status.result?.isSome

/-- A row of `worm_execution_step_isolations`, kept with the Step it isolates. -/
structure Isolation where
  id : UUID
  owner : UUID
  walletId : ℕ
  market : String
  attempt : UUID
  reasonCode : Code
  resolvedAt : Option Time := none
  resolutionCode : Code := .empty
  deriving DecidableEq

def Isolation.unresolved (i : Isolation) : Bool := i.resolvedAt.isNone

/-! ## Steps -/

/-- The identity of a claim.  A fresh claim takes the UUID of its `execute-next`
command; a worker's claim is a UUID the worker drew, which no command carries. -/
inductive ClaimId
  | command (id : UUID)
  | worker (id : UUID)
  deriving DecidableEq

/-- `claim_id`, `claim_owner` and `claim_expires_at`, which are set together. -/
structure Claim where
  id : ClaimId
  owner : String
  expiresAt : Time
  deriving DecidableEq

def coordinatorOwner : String := "COORDINATOR"

structure SignerMetadata where
  mode : FinalizeMode
  transactionVersion : Code
  requiredSignatureCount : ℕ
  walletSignerIndex : ℕ
  version_ne : transactionVersion.text ≠ ""
  index_lt : walletSignerIndex < requiredSignatureCount
  deriving DecidableEq

structure CompletionEvidence where
  positionPubkey : String
  positionRequestPubkey : String
  positionCreatedAt : Time
  pubkey_ne : positionPubkey ≠ ""
  created_pos : 0 < positionCreatedAt
  deriving DecidableEq

/-- A row of `worm_execution_run_steps` with its attempts and isolations.  The
unique index on `(run_id, step_ordinal, kind)` allows one attempt of each kind. -/
structure StepRow where
  id : UUID
  ordinal : ℕ
  walletOrdinal : ℕ
  itemOrdinal : ℕ
  sourceDisposition : Disposition
  sourceReasonCode : Code
  state : StepState
  reasonCode : Code
  positionRequestId : ℕ := 0
  transactionDigest : Option Digest := none
  signer : Option SignerMetadata := none
  providerState : Code := .empty
  providerOrderState : Code := .empty
  activeCommand : Option UUID := none
  claim : Option Claim := none
  nextPollAt : Option Time := none
  reconcileRequestedAt : Option Time := none
  pollCount : ℕ := 0
  completion : Option CompletionEvidence := none
  completedAt : Option Time := none
  openAttempt : Option Attempt := none
  finalizeAttempt : Option Attempt := none
  isolations : List Isolation := []
  deriving DecidableEq

/-- The `CHECK` constraints of the Step table that relate several columns, and that
an attempt is kept under its kind. -/
@[mk_iff]
structure StepRow.Checked (s : StepRow) : Prop where
  source : s.sourceDisposition = .ready ↔ s.sourceReasonCode.text = ""
  completed : s.completedAt.isSome = s.state.terminal
  request : s.state.requested → s.positionRequestId ≠ 0 ∧ s.transactionDigest.isSome
  signer : s.state.signed → s.signer.isSome
  completion : s.completion.isSome ↔ s.state = .completed
  kinds : (s.openAttempt.all fun a => a.kind = .open) ∧
    s.finalizeAttempt.all fun a => a.kind = .finalize

instance (s : StepRow) : Decidable s.Checked := decidable_of_iff' _ s.checked_iff

structure Step extends StepRow where
  checked : toStepRow.Checked
  deriving DecidableEq

namespace StepRow

def attempt (s : StepRow) : MutationKind → Option Attempt
  | .open => s.openAttempt
  | .finalize => s.finalizeAttempt

def setAttempt (s : StepRow) (k : MutationKind) (a : Attempt) : StepRow :=
  match k with
  | .open => { s with openAttempt := some a }
  | .finalize => { s with finalizeAttempt := some a }

def unresolvedIsolations (s : StepRow) : List Isolation := s.isolations.filter (·.unresolved)

end StepRow

/-! ## Runs -/

/-- A row of `worm_execution_run_wallets`, the columns the store and worker read. -/
structure RunWallet where
  ordinal : ℕ
  walletId : ℕ
  address : String
  credentialVersion : ℕ
  deriving DecidableEq

/-- A row of `worm_execution_run_items`, the columns the store and worker read. -/
structure RunItem where
  ordinal : ℕ
  market : String
  isYes : Bool
  backend : String
  funds : String
  leverage : String
  event : String
  state : Code
  deriving DecidableEq

structure StepCounts where
  terminal : ℕ
  completed : ℕ
  satisfied : ℕ
  skipped : ℕ
  failed : ℕ
  notExecuted : ℕ
  deriving DecidableEq

/-- A row of `worm_execution_runs`. -/
structure RunRow where
  id : UUID
  owner : UUID
  planId : UUID
  planVersion : ℕ
  planDigest : Digest
  idempotencyKey : UUID
  request : RequestDigest
  combinationId : UUID
  combinationRevision : ℕ
  state : RunState
  revision : ℕ
  currentStepOrdinal : Option ℕ := none
  nextStepOrdinal : Option ℕ
  walletCount : ℕ
  itemCount : ℕ
  totalStepCount : ℕ
  actionableStepCount : ℕ
  counts : StepCounts
  pauseCode : Code := .empty
  blockCode : Code := .empty
  authorizedAt : Option Time := none
  startedAt : Option Time := none
  pausedAt : Option Time := none
  completedAt : Option Time := none
  deriving DecidableEq

/-- Which of `authorized_at` and `started_at` a state requires. -/
def RunState.lifecycle (authorizedAt startedAt : Option Time) : RunState → Bool
  | .awaitingAuthorization => authorizedAt.isNone && startedAt.isNone
  | .authorized => authorizedAt.isSome && startedAt.isNone
  | .terminated => true
  | _ => authorizedAt.isSome && startedAt.isSome

def RunState.allowsBlock (blockCode : Code) : RunState → Bool
  | .reconciliationRequired => blockCode.text ≠ ""
  | .terminated => true
  | _ => blockCode.text = ""

/-- The `CHECK` constraints of the Run table that relate several columns. -/
@[mk_iff]
structure RunRow.Checked (r : RunRow) : Prop where
  actionable : r.actionableStepCount ≤ r.totalStepCount
  terminal : r.counts.terminal ≤ r.totalStepCount
  sum : r.counts.completed + r.counts.satisfied + r.counts.skipped + r.counts.failed +
    r.counts.notExecuted = r.counts.terminal
  lifecycle : r.state.lifecycle r.authorizedAt r.startedAt
  completed : r.completedAt.isSome = r.state.terminal
  paused : r.state = .paused → r.pausedAt.isSome
  block : r.state.allowsBlock r.blockCode

instance (r : RunRow) : Decidable r.Checked := decidable_of_iff' _ r.checked_iff

/-- A Run: its row with the proof of its constraints, and the rows of the tables
that refer to it. -/
structure Run extends RunRow where
  checked : toRunRow.Checked
  wallets : List RunWallet
  items : List RunItem
  steps : Table fun s : Step => s.ordinal
  authorizations : List Authorization := []
  coordinators : List Coordinator := []
  commands : List Command := []
  walletLocks : List ℕ := []
  combinationLock : Option UUID := none

namespace Run

def walletOf (r : Run) (s : StepRow) : Option RunWallet :=
  r.wallets.find? fun w => w.ordinal = s.walletOrdinal

def itemOf (r : Run) (s : StepRow) : Option RunItem :=
  r.items.find? fun i => i.ordinal = s.itemOrdinal

def pairOf (r : Run) (s : StepRow) : Option (ℕ × String) := do
  let w ← r.walletOf s
  let i ← r.itemOf s
  pure (w.walletId, i.market)

/-- `state = 'AUTHORIZED'`, which a unique index allows once per Run. -/
def activeAuthorization (r : Run) : Option Authorization :=
  r.authorizations.find? fun a => a.state = .authorized

/-- `state = 'ACTIVE'`, which a unique index allows once per Run. -/
def activeCoordinator (r : Run) : Option Coordinator :=
  r.coordinators.find? fun c => c.state = .active

def hasActiveStep (r : Run) : Bool := r.steps.rows.any fun s => s.state.active

def hasMutatingStep (r : Run) : Bool := r.steps.rows.any fun s => s.state.mutating

end Run

/-! ## Errors -/

/-- The errors of the store.  `noRows` is a statement that matched no row where
the store gives that no meaning of its own, `constraint` a row the database
refuses, and `unavailable` any failure of the connection. -/
inductive StoreError
  | invalid
  | noRows
  | notFound
  | conflict
  | commandConflict
  | revision
  | coordinator
  | authorization
  | isolation
  | walletSelectionChanged
  | walletConnectionChanged
  | walletCashOutActive
  | walletCashOutBatchActive
  | constraint
  | unavailable
  deriving DecidableEq

end Athena.Execution
