import Athena.Execution.Queries
import Mathlib.Data.List.Sort

/-!
# Creating a Run

`CreateExecutionRun` consumes a READY plan.  In one transaction it takes the
advisory locks of the plan's Wallets, checks that no other operation holds them,
copies the plan into a Run and takes the durable locks.  What it reads from other
tables is collected in an `Admission`.
-/

namespace Athena.Execution

open Athena.Lib

/-- The execution tables: every Run with the rows that refer to it. -/
structure Tables where
  runs : Table fun r : Run => r.id

namespace Tables

def empty : Tables := ⟨.empty⟩

def pairIsolated (t : Tables) (pair : ℕ × String) : Bool :=
  t.runs.rows.any fun r => r.steps.rows.any fun s => s.isolations.any fun i =>
    i.unresolved && i.walletId = pair.1 && i.market = pair.2

/-- `GetExecutionCommand`, with the Run the command belongs to. -/
def commandOf (t : Tables) (id : UUID) : Option (UUID × Command) :=
  t.runs.rows.findSome? fun r => (r.commands.find? fun c => c.id = id).map fun c => (r.id, c)

def attemptTaken (t : Tables) (id : UUID) : Bool :=
  t.runs.rows.any fun r => r.steps.rows.any fun s => (Queries.attemptById s.toStepRow id).isSome

def isolationTaken (t : Tables) (id : UUID) : Bool :=
  t.runs.rows.any fun r => r.steps.rows.any fun s => s.isolations.any fun i => i.id = id

def completionTaken (t : Tables) (e : CompletionEvidence) : Bool :=
  t.runs.rows.any fun r => r.steps.rows.any fun s => s.completion.any fun c =>
    c.positionPubkey = e.positionPubkey ||
      (e.positionRequestPubkey ≠ "" && c.positionRequestPubkey = e.positionRequestPubkey)

/-- A row of `worm_execution_wallet_locks` holds the Wallet. -/
def walletLocked (t : Tables) (w : ℕ) : Bool := t.runs.rows.any fun r => r.walletLocks.contains w

/-- Run a transaction on one Run; an unknown Run is the error `e`. -/
def onRun {α : Type} (t : Tables) (id : UUID) (e : StoreError)
    (f : Run → Except StoreError (Run × α)) : Except StoreError (Tables × α) := do
  let r ← found (t.runs.get? id) e
  let (r', a) ← f r
  pure (⟨t.runs.put r'⟩, a)

end Tables

/-! ## Source plans -/

/-- A row of `worm_execution_plan_steps`. -/
structure PlanStep where
  ordinal : ℕ
  walletOrdinal : ℕ
  itemOrdinal : ℕ
  disposition : Disposition
  reasonCode : Code
  deriving DecidableEq

/-- A READY plan with its children, as `MarkExecutionPlanReady` leaves it: the
Steps are the Wallet-major product of Wallets and items. -/
structure Plan where
  id : UUID
  owner : UUID
  expiresAt : Time
  combinationId : UUID
  combinationRevision : ℕ
  /-- The revision of the source combination now. -/
  sourceRevision : ℕ
  walletCount : ℕ
  itemCount : ℕ
  totalStepCount : ℕ
  readyStepCount : ℕ
  digest : Digest
  wallets : List RunWallet
  items : List RunItem
  steps : List PlanStep
  major : ∀ s ∈ steps, 0 < s.walletOrdinal ∧ 0 < s.itemOrdinal ∧ s.itemOrdinal ≤ itemCount ∧
    s.ordinal = (s.walletOrdinal - 1) * itemCount + s.itemOrdinal
  ordered : (steps.map fun s => s.ordinal).Pairwise (· < ·)
  walletKeys : (wallets.map fun w => w.ordinal).Nodup
  itemKeys : (items.map fun i => i.ordinal).Nodup

/-- What `CreateExecutionRun` reads outside the execution tables. -/
structure Admission where
  plans : List Plan
  /-- `CountInvalidSelectedWalletReferencesAtRevision` -/
  invalidSelectedWallets : ℕ
  /-- `CountInvalidExecutionRunWalletSnapshots` -/
  invalidWalletSnapshots : ℕ
  /-- `CountActivePositionCashOutsForWallets` -/
  activeCashOuts : List ℕ → ℕ
  /-- `CountActivePositionCashOutBatchWalletLocks` -/
  activeBatchLocks : List ℕ → ℕ

structure CreateRequest where
  owner : UUID
  planId : UUID
  commandId : UUID
  expectedRevision : ℕ

namespace Store

def getExecutionRunSourcePlanForUpdate (plans : List Plan) (req : CreateRequest) (now : Time) :
    Option Plan :=
  plans.find? fun p => p.id = req.planId && p.owner = req.owner && now < p.expiresAt &&
    0 < p.readyStepCount && p.combinationRevision = req.expectedRevision &&
    p.sourceRevision = p.combinationRevision

def snapshotStep (p : PlanStep) (id : UUID) (now : Time) : StepRow where
  id := id
  ordinal := p.ordinal
  walletOrdinal := p.walletOrdinal
  itemOrdinal := p.itemOrdinal
  sourceDisposition := p.disposition
  sourceReasonCode := p.reasonCode
  state := if p.disposition = .ready then .pending else .skipped
  reasonCode := p.reasonCode
  completedAt := if p.disposition = .skipped then some now else none

/-- `SnapshotExecutionRunSteps`; `stepId` gives the generated identifiers. -/
def snapshotExecutionRunSteps (stepId : ℕ → UUID) (now : Time) :
    List PlanStep → Except StoreError (List Step)
  | [] => .ok []
  | p :: ps => do
      let row := snapshotStep p (stepId p.ordinal) now
      let rest ← snapshotExecutionRunSteps stepId now ps
      if h : row.Checked then pure (⟨row, h⟩ :: rest) else throw .constraint

def sortedWalletIds (p : Plan) : List ℕ := (p.wallets.map fun w => w.walletId).insertionSort (· ≤ ·)

/-- The row `CreateExecutionRun` inserts. -/
def newRunRow (req : CreateRequest) (p : Plan) (runId : UUID) (next skipped : ℕ) : RunRow where
  id := runId
  owner := req.owner
  planId := p.id
  planVersion := 5
  planDigest := p.digest
  idempotencyKey := req.commandId
  request := .create req.owner req.planId req.commandId req.expectedRevision
  combinationId := p.combinationId
  combinationRevision := p.combinationRevision
  state := .awaitingAuthorization
  revision := 1
  nextStepOrdinal := some next
  walletCount := p.walletCount
  itemCount := p.itemCount
  totalStepCount := p.totalStepCount
  actionableStepCount := p.readyStepCount
  counts := ⟨skipped, 0, 0, skipped, 0, 0⟩

/-- `CountBlockedExecutionRunStepPairs` is not zero: an isolation blocks the pair
of a Step that the plan would execute.  Steps the plan skipped are not counted. -/
def blockedPairs (isolated : ℕ × String → Bool) (r : Run) : Bool :=
  r.steps.rows.any fun s => s.sourceDisposition = .ready && (r.pairOf s.toStepRow).any isolated

def linked (p : Plan) (s : Step) : Bool :=
  (p.wallets.any fun w => w.ordinal = s.walletOrdinal) &&
    p.items.any fun i => i.ordinal = s.itemOrdinal

def buildRun (row : RunRow) (p : Plan) (steps : List Step) : Except StoreError Run :=
  if h : row.Checked ∧ (steps.map fun s => s.ordinal).Nodup ∧ steps.all (linked p) then
    .ok { toRunRow := row
          checked := h.1
          wallets := p.wallets
          items := p.items
          steps := ⟨steps, h.2.1⟩ }
  else .error .constraint

/-- The part of `CreateExecutionRun` that follows the idempotency check. -/
def admitExecutionRun (env : Admission) (t : Tables) (req : CreateRequest) (runId : UUID)
    (stepId : ℕ → UUID) (now : Time) : Except StoreError (Tables × Run) := do
  let p ← found (getExecutionRunSourcePlanForUpdate env.plans req now) .conflict
  let ws := sortedWalletIds p
  ensure (ws.length = p.walletCount) .conflict
  ensure ((∀ w ∈ ws, 0 < w) ∧ ws.Nodup) .conflict
  ensure (env.invalidSelectedWallets = 0) .walletSelectionChanged
  ensure (env.activeCashOuts ws = 0) .walletCashOutActive
  ensure (env.activeBatchLocks ws = 0) .walletCashOutBatchActive
  let first ← found (p.steps.find? fun s => s.disposition = .ready) .conflict
  ensure (p.steps.length = p.totalStepCount) .conflict
  let skipped := p.steps.countP fun s => s.disposition = .skipped
  -- one Run for each plan, and one Run that has not ended for each owner
  ensure (t.runs.rows.all fun r => r.planId ≠ p.id && (r.owner ≠ req.owner || r.state.terminal))
    .conflict
  ensure (p.wallets.length = p.walletCount ∧ p.items.length = p.itemCount) .conflict
  let steps ← snapshotExecutionRunSteps stepId now p.steps
  let r ← buildRun (newRunRow req p runId first.ordinal skipped) p steps
  ensure (env.invalidWalletSnapshots = 0) .walletConnectionChanged
  ensure (blockedPairs t.pairIsolated r = false) .isolation
  ensure (t.runs.rows.all fun r => r.combinationLock ≠ some p.combinationId) .conflict
  ensure (ws.all fun w => !t.walletLocked w) .conflict
  let r := { r with combinationLock := some p.combinationId, walletLocks := ws }
  let runs ← found (t.runs.insert? r) .constraint
  pure (⟨runs⟩, r)

/-- `CreateExecutionRun`.  `runId` and `stepId` are the generated identifiers. -/
def createExecutionRun (env : Admission) (t : Tables) (req : CreateRequest) (runId : UUID)
    (stepId : ℕ → UUID) (now : Time) : Except StoreError (Tables × Run) := do
  ensure (0 < req.expectedRevision) .invalid
  match t.runs.rows.find? fun r => r.owner = req.owner && r.idempotencyKey = req.commandId with
  | some existing =>
    ensure (existing.request = .create req.owner req.planId req.commandId req.expectedRevision)
      .commandConflict
    pure (t, existing)
  | none => admitExecutionRun env t req runId stepId now

end Store
end Athena.Execution
