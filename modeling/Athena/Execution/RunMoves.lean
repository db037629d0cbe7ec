import Athena.Execution.StepMoves

/-!
# What can happen to a Run

An abstract model of a Run's life, in seven moves.  `Run.Move` forgets which
command or worker made a transaction and keeps what it did to the sequence of
Steps, to the state of the Run and to its locks.  Every transaction of the store
is one of these moves (`Athena.Execution.Transactions`), so an invariant is proved
once, over the moves.
-/

namespace Athena.Execution

open Athena.Lib Queries

/-- The Step waits for a worker: it is active, or its reconciliation was requested. -/
def StepRow.Working (s : StepRow) : Prop :=
  s.state.active ∨ (s.state = .outcomeUnknown ∧ s.reconcileRequestedAt.isSome)

/-- The command that works on a Step. -/
def StepRow.commandKind (s : StepRow) : CommandKind :=
  if s.state = .outcomeUnknown then .reconcile else .executeNext

theorem StepRow.Hold.commandKind {e : Event} {s s' : StepRow} (h : Hold e s s') :
    s'.commandKind = s.commandKind := by
  cases h with
  | observe o now h hnext =>
    have hallowed := h.allowed
    have hnext' : (observed o now s).state = o.nextState := rfl
    rw [StepRow.commandKind, StepRow.commandKind, hnext', h.state]
    rcases hnext with hnext | ⟨hnext, hwas⟩
    · rw [hnext] at hallowed ⊢
      cases hwas : o.expectedState <;> rw [hwas] at hallowed <;> first | rfl | cases hallowed
    · rw [hnext, hwas]
  | _ => simp_all [StepRow.commandKind]

def StepState.busy (s : StepState) : Bool := s.active || s = .outcomeUnknown

/-- One Step went from `s` to `s'`; of the others some ended before they started. -/
inductive Step.Sweep (s s' : Step) : Step → Step → Prop
  | self : Sweep s s' s s'
  | other {u : Step} (h : u.ordinal ≠ s.ordinal) : Sweep s s' u u
  | ended {u u' : Step} (h : u.ordinal ≠ s.ordinal) (e : u.toStepRow.Ended u'.toStepRow) :
      Sweep s s' u u'

def Step.Left (s s' : Step) : Prop := s' = s ∨ s.toStepRow.Ended s'.toStepRow

def Run.stepCounts (r : Run) : StepCounts where
  terminal := r.steps.rows.countP fun s => s.state.terminal
  completed := countState r .completed
  satisfied := countState r .satisfied
  skipped := countState r .skipped
  failed := countState r .failed
  notExecuted := countState r .notExecuted

theorem Run.stepCounts_of_rel {r r' : Run} (h : r.steps.Rel (fun u v : Step =>
    v.state = u.state ∨ u.state.terminal = false ∧ v.state.terminal = false) r'.steps) :
    r'.stepCounts = r.stepCounts := by
  have hcount (p : StepState → Bool) (hp : ∀ st, st.terminal = false → p st = false) :
      r'.steps.rows.countP (fun s => p s.state) = r.steps.rows.countP fun s => p s.state := by
    refine h.countP ?_
    rintro u v (hs | ⟨hu, hv⟩)
    · rw [hs]
    · rw [hp _ hu, hp _ hv]
  have hstate (st : StepState) (hst : st.terminal) : countState r' st = countState r st :=
    hcount (fun x => x = st) fun x hx => by
      refine decide_eq_false ?_
      rintro rfl
      simp [hx] at hst
  simp only [stepCounts, hstate .completed rfl, hstate .satisfied rfl, hstate .skipped rfl,
    hstate .failed rfl, hstate .notExecuted rfl, hcount StepState.terminal fun _ h => h]

/-- A row of the Run table that differs in its state and bookkeeping only. -/
structure RunRow.Steers (row row' : RunRow) : Prop where
  id : row'.id = row.id
  owner : row'.owner = row.owner
  planId : row'.planId = row.planId
  combination : row'.combinationId = row.combinationId
  idempotencyKey : row'.idempotencyKey = row.idempotencyKey
  itemCount : row'.itemCount = row.itemCount
  totalStepCount : row'.totalStepCount = row.totalStepCount
  current : row'.currentStepOrdinal = row.currentStepOrdinal
  next : row'.nextStepOrdinal = row.nextStepOrdinal
  counts : row'.counts = row.counts

namespace Run

variable {t : Tables} {command : UUID} {r r' r'' : Run}

def CommandOpen (r : Run) (s : StepRow) : Prop :=
  ∃ c ∈ r.commands, s.activeCommand = some c.id ∧ c.state = .inProgress ∧
    c.kind = s.commandKind ∧ c.stepOrdinal = s.ordinal

def record (r : Run) (id : UUID) : Option (CommandKind × RequestDigest) :=
  (r.commands.find? fun c => c.id = id).map fun c => (c.kind, c.request)

/-- What was journalled stays, and a new entry has an id that was free. -/
structure Records (t : Tables) (r r' : Run) : Prop where
  kept : ∀ id, (r.record id).isSome → r'.record id = r.record id
  added : ∀ id, r.record id = none → (r'.record id).isSome → t.commandOf id = none

theorem Records.of_eq (h : r'.record = r.record) : r.Records t r' :=
  ⟨fun id _ => congrFun h id, fun id hnone hsome => by simp [congrFun h id, hnone] at hsome⟩

theorem Records.trans (h : r.Records t r') (h' : r'.Records t r'') : r.Records t r'' where
  kept := by
    intro id hsome
    have heq := h.kept id hsome
    rw [h'.kept id (heq ▸ hsome), heq]
  added := by
    intro id hnone hsome
    cases hmid : r'.record id with
    | none => exact h'.added id hmid hsome
    | some => exact h.added id hnone (by rw [hmid]; rfl)

def activeCoordinators (r : Run) : ℕ := r.coordinators.countP fun c => c.state = .active

def usableAuthorizations (r : Run) : ℕ := r.authorizations.countP fun a => a.state = .authorized

def Retired (r : Run) : Prop := r.activeCoordinators = 0 ∧ r.usableAuthorizations = 0

/-- What every transaction does to the coordinators and authorizations of its Run. -/
structure Tidies (r r' : Run) : Prop where
  combination : r'.combinationId = r.combinationId
  retired : (r.state.terminal → r.Retired) → r'.state.terminal → r'.Retired
  coordinators : r.activeCoordinators ≤ 1 → r'.activeCoordinators ≤ 1
  authorizations : r.usableAuthorizations ≤ 1 → r'.usableAuthorizations ≤ 1

theorem Tidies.refl (r : Run) : r.Tidies r := ⟨rfl, fun h => h, fun h => h, fun h => h⟩

theorem Tidies.trans (h : r.Tidies r') (h' : r'.Tidies r'') : r.Tidies r'' where
  combination := h'.combination.trans h.combination
  retired := fun hr => h'.retired (h.retired hr)
  coordinators := fun hr => h'.coordinators (h.coordinators hr)
  authorizations := fun hr => h'.authorizations (h.authorizations hr)

section
variable (hc : r'.combinationId = r.combinationId)
include hc

theorem Tidies.of_le (hstate : r'.state.terminal → r.state.terminal)
    (hk : r'.activeCoordinators ≤ r.activeCoordinators)
    (ha : r'.usableAuthorizations ≤ r.usableAuthorizations) : r.Tidies r' where
  combination := hc
  retired := by
    intro hr hterm
    obtain ⟨h₁, h₂⟩ := hr (hstate hterm)
    exact ⟨by omega, by omega⟩
  coordinators := by omega
  authorizations := by omega

theorem Tidies.of_eq (hstate : r'.state = r.state) (hk : r'.coordinators = r.coordinators)
    (ha : r'.authorizations = r.authorizations) : r.Tidies r' :=
  .of_le hc (by rw [hstate]; exact id) (by rw [activeCoordinators, hk]; exact le_rfl)
    (by rw [usableAuthorizations, ha]; exact le_rfl)

theorem Tidies.of_open (hopen : r'.state.terminal = false) (hk : r'.coordinators = r.coordinators)
    (ha : r'.authorizations = r.authorizations) : r.Tidies r' :=
  .of_le hc (by simp [hopen]) (by rw [activeCoordinators, hk]; exact le_rfl)
    (by rw [usableAuthorizations, ha]; exact le_rfl)

theorem Tidies.of_retired (h : r'.Retired) : r.Tidies r' where
  combination := hc
  retired := fun _ _ => h
  coordinators := by rw [h.1]; omega
  authorizations := by rw [h.2]; omega

end

@[simp] theorem activeCoordinators_release :
    (releaseExecutionCoordinator r).activeCoordinators = 0 := by
  simp only [activeCoordinators, releaseExecutionCoordinator, List.countP_map, List.countP_eq_zero]
  intro c _
  by_cases h : c.state = .active <;> simp [h]

theorem usableAuthorizations_end {state : AuthorizationState} (hs : state ≠ .authorized) :
    (endAuthorizations r state).usableAuthorizations = 0 := by
  simp only [usableAuthorizations, endAuthorizations, List.countP_map, List.countP_eq_zero]
  intro a _
  by_cases h : a.state = .authorized <;> simp [h, hs]

theorem tidies_release : r.Tidies (releaseExecutionCoordinator r) :=
  .of_le rfl id (by simp) le_rfl

theorem tidies_endAuthorizations {state : AuthorizationState} (hs : state ≠ .authorized) :
    r.Tidies (endAuthorizations r state) :=
  .of_le rfl id le_rfl (by rw [usableAuthorizations_end hs]; exact Nat.zero_le _)

theorem tidies_close (hc : r'.combinationId = r.combinationId) :
    r.Tidies (Store.closeTerminalExecutionRun r') :=
  .of_retired hc ⟨activeCoordinators_release (r := releaseExecutionRunLocks r'),
    usableAuthorizations_end (by decide)⟩

structure Frozen (t : Tables) (r r' : Run) : Prop where
  id : r'.id = r.id
  owner : r'.owner = r.owner
  planId : r'.planId = r.planId
  idempotencyKey : r'.idempotencyKey = r.idempotencyKey
  wallets : r'.wallets = r.wallets
  items : r'.items = r.items
  itemCount : r'.itemCount = r.itemCount
  totalStepCount : r'.totalStepCount = r.totalStepCount
  records : r.Records t r'
  tidies : r.Tidies r'

def LocksKept (r r' : Run) : Prop :=
  r'.walletLocks = r.walletLocks ∧ r'.combinationLock = r.combinationLock

def Released (r : Run) : Prop := r.walletLocks = [] ∧ r.combinationLock = none

/-- The frozen data, the place in the sequence, the counters and the locks stay. -/
structure Keeps (t : Tables) (r r' : Run) : Prop extends Frozen t r r' where
  current : r'.currentStepOrdinal = r.currentStepOrdinal
  next : r'.nextStepOrdinal = r.nextStepOrdinal
  counts : r'.counts = r.counts
  locks : r.LocksKept r'

theorem Frozen.refl (t : Tables) (r : Run) : r.Frozen t r :=
  ⟨rfl, rfl, rfl, rfl, rfl, rfl, rfl, rfl, .of_eq rfl, .refl r⟩

theorem Frozen.trans (h : r.Frozen t r') (h' : r'.Frozen t r'') : r.Frozen t r'' :=
  ⟨h'.id.trans h.id, h'.owner.trans h.owner, h'.planId.trans h.planId,
    h'.idempotencyKey.trans h.idempotencyKey, h'.wallets.trans h.wallets, h'.items.trans h.items,
    h'.itemCount.trans h.itemCount, h'.totalStepCount.trans h.totalStepCount,
    h.records.trans h'.records, h.tidies.trans h'.tidies⟩

theorem LocksKept.trans (h : r.LocksKept r') (h' : r'.LocksKept r'') :
    r.LocksKept r'' := ⟨h'.1.trans h.1, h'.2.trans h.2⟩

theorem Keeps.refl (t : Tables) (r : Run) : r.Keeps t r := ⟨.refl t r, rfl, rfl, rfl, rfl, rfl⟩

theorem Keeps.trans (h : r.Keeps t r') (h' : r'.Keeps t r'') : r.Keeps t r'' :=
  ⟨h.toFrozen.trans h'.toFrozen, h'.current.trans h.current, h'.next.trans h.next,
    h'.counts.trans h.counts, h.locks.trans h'.locks⟩

theorem Keeps.withSteps (t : Tables) (r : Run) (steps : Table fun s : Step => s.ordinal) :
    r.Keeps t { r with steps } :=
  ⟨⟨rfl, rfl, rfl, rfl, rfl, rfl, rfl, rfl, .of_eq rfl, .of_eq rfl rfl rfl rfl⟩, rfl, rfl, rfl, rfl,
    rfl⟩

theorem Keeps.withRow {row : RunRow} (hc : row.Checked) (h : r.toRunRow.Steers row)
    (open_ : row.state.terminal = false) : r.Keeps t (r.withRow row hc) :=
  ⟨⟨h.id, h.owner, h.planId, h.idempotencyKey, rfl, rfl, h.itemCount, h.totalStepCount,
    .of_eq rfl, .of_open h.combination open_ rfl rfl⟩, h.current, h.next, h.counts, rfl, rfl⟩

/-- A Run is closed in the transaction that ends it, so only the two together are tidy. -/
theorem Frozen.close {row : RunRow} (hc : row.Checked) (h : r.toRunRow.Steers row)
    (h' : (r.withRow row hc).Frozen t r') : r.Frozen t (Store.closeTerminalExecutionRun r') :=
  ⟨h'.id.trans h.id, h'.owner.trans h.owner, h'.planId.trans h.planId,
    h'.idempotencyKey.trans h.idempotencyKey, h'.wallets, h'.items, h'.itemCount.trans h.itemCount,
    h'.totalStepCount.trans h.totalStepCount, ⟨h'.records.kept, h'.records.added⟩,
    tidies_close (h'.tidies.combination.trans h.combination)⟩

/-- Nothing changes but the revision, the authorizations, the coordinators and one
command. -/
structure Touches (t : Tables) (command : UUID) (r r' : Run) : Prop extends Keeps t r r' where
  steps : r'.steps = r.steps
  state : r'.state = r.state
  startedAt : r'.startedAt = r.startedAt
  commands : ∀ c ∈ r.commands, c.id ≠ command → c ∈ r'.commands

theorem Touches.refl (t : Tables) (command : UUID) (r : Run) : r.Touches t command r :=
  ⟨.refl t r, rfl, rfl, rfl, fun _ h _ => h⟩

section
variable (row : r'.toRunRow = r.toRunRow) (wallets : r'.wallets = r.wallets)
  (items : r'.items = r.items) (steps : r'.steps = r.steps)
  (walletLocks : r'.walletLocks = r.walletLocks)
  (combinationLock : r'.combinationLock = r.combinationLock)
include row wallets items steps walletLocks combinationLock

theorem Touches.of_row (commands : ∀ c ∈ r.commands, c.id ≠ command → c ∈ r'.commands)
    (records : r.Records t r') (tidies : r.Tidies r') : r.Touches t command r' where
  id := by rw [row]
  owner := by rw [row]
  planId := by rw [row]
  idempotencyKey := by rw [row]
  wallets := wallets
  items := items
  itemCount := by rw [row]
  totalStepCount := by rw [row]
  records := records
  tidies := tidies
  current := by rw [row]
  next := by rw [row]
  counts := by rw [row]
  locks := ⟨walletLocks, combinationLock⟩
  steps := steps
  state := by rw [row]
  startedAt := by rw [row]
  commands := commands

theorem Touches.of_journal (commands : r'.commands = r.commands) (tidies : r.Tidies r') :
    r.Touches t command r' :=
  .of_row row wallets items steps walletLocks combinationLock (fun _ h _ => commands ▸ h)
    (.of_eq (by unfold record; rw [commands])) tidies

end

theorem Touches.trans (h : r.Touches t command r') (h' : r'.Touches t command r'') :
    r.Touches t command r'' :=
  ⟨h.toKeeps.trans h'.toKeeps, h'.steps.trans h.steps, h'.state.trans h.state,
    h'.startedAt.trans h.startedAt, fun c hc hne => h'.commands c (h.commands c hc hne) hne⟩

/-- The progress of the Run was counted: its counters and its next Step are those
of its Steps. -/
structure Refreshed (r : Run) : Prop where
  counts : r.counts = r.stepCounts
  next : r.nextStepOrdinal = minPending r

theorem Refreshed.congr (h : r.Refreshed) (steps : r'.steps = r.steps)
    (counts : r'.counts = r.counts) (next : r'.nextStepOrdinal = r.nextStepOrdinal) :
    r'.Refreshed where
  counts := by rw [counts, h.counts]; simp only [stepCounts, countState, steps]
  next := by rw [next, h.next]; simp only [minPending, steps]

theorem Refreshed.of_touches (h : r.Refreshed) (ht : r.Touches t command r') : r'.Refreshed :=
  h.congr ht.steps ht.counts ht.next

/-- Some Steps may have ended and the progress was counted; the rest stays. -/
structure Recounts (t : Tables) (r r' : Run) : Prop extends Frozen t r r' where
  current : r'.currentStepOrdinal = r.currentStepOrdinal
  state : r'.state = r.state
  locks : r.LocksKept r'
  commands : r'.commands = r.commands
  refreshed : r'.Refreshed

/-- The states a command or a pausing worker can give a Run while no Step changes. -/
inductive Control (r : Run) : RunState → Prop
  | same : Control r r.state
  | authorize (h : r.state = .awaitingAuthorization) : Control r .authorized
  | start (h : r.state = .authorized) : Control r .running
  | resume (h : r.state = .paused) : Control r .running
  | pause (h : r.state = .running ∨ r.state = .pauseRequested) (idle : r.hasActiveStep = false) :
      Control r .paused
  | awaitPause (h : r.state = .running ∨ r.state = .pauseRequested) (busy : r.hasActiveStep) :
      Control r .pauseRequested
  | failurePause (h : r.state = .running) (idle : r.hasMutatingStep = false) : Control r .paused
  | awaitTermination (h : r.state.terminal = false) (busy : r.hasActiveStep) :
      Control r .terminateRequested

inductive Settled (r r' : Run) : Prop
  | paused (h : r.state = .pauseRequested) (h' : r'.state = .paused) (refreshed : r'.Refreshed)
      (locks : r.LocksKept r')
  | terminated (h : r.state = .terminateRequested) (h' : r'.state = .terminated)
      (refreshed : r'.Refreshed) (swept : ∀ s ∈ r'.steps, s.state ≠ .pending)
      (released : r'.Released)
  | completed (h : r.state = .running) (h' : r'.state = .completed)
      (counts : r'.counts = r'.stepCounts) (next : r'.nextStepOrdinal = none)
      (all : r'.counts.terminal = r'.totalStepCount)
      (released : r'.Released)
  | continued (h : r.state ≠ .pauseRequested) (h' : r'.state = r.state) (refreshed : r'.Refreshed)
      (locks : r.LocksKept r')

/-- What becomes of a Run when the outcome of its active Step is unknown. -/
inductive Blocked (r r' : Run) : Prop
  | reconciliation (h : r.state = .running ∨ r.state = .pauseRequested)
      (h' : r'.state = .reconciliationRequired) (next : r'.nextStepOrdinal = r.nextStepOrdinal)
      (counts : r'.counts = r.counts) (locks : r.LocksKept r')
      (stepCounts : r'.stepCounts = r.stepCounts)
  | terminated (h : r.state = .terminateRequested) (h' : r'.state = .terminated)
      (refreshed : r'.Refreshed) (swept : ∀ s ∈ r'.steps, s.state ≠ .pending)
      (released : r'.Released)

inductive Resolved (r r' : Run) : Prop
  | terminated (h : r.state = .terminated) (h' : r'.state = .terminated)
      (refreshed : r'.Refreshed) (locks : r.LocksKept r')
  | completed (h : r.state = .reconciliationRequired) (h' : r'.state = .completed)
      (counts : r'.counts = r'.stepCounts) (next : r'.nextStepOrdinal = none)
      (all : r'.counts.terminal = r'.totalStepCount) (released : r'.Released)
  | paused (h : r.state = .reconciliationRequired) (h' : r'.state = .paused)
      (refreshed : r'.Refreshed) (locks : r.LocksKept r')

/-- One transaction of a Run among the tables `t`.  The index says
what event it is. -/
inductive Move (t : Tables) : Event → Run → Run → Prop
  /-- A command that leaves every Step as it is. -/
  | control {e : Event} {r r' : Run} (keeps : r.Keeps t r') (steps : r'.steps = r.steps)
      (commands : ∀ c ∈ r.commands, c ∈ r'.commands) (state : r.Control r'.state)
      (ofCommand : e.ofCommand) : Move t e r r'
  /-- The termination of a Run without an active Step. -/
  | terminate {r r' : Run} (frozen : r.Frozen t r') (open_ : r.state.terminal = false)
      (idle : r.startedAt = none ∨ r.hasActiveStep = false) (state : r'.state = .terminated)
      (current : r'.currentStepOrdinal = r.currentStepOrdinal)
      (steps : r.steps.Rel Step.Left r'.steps) (swept : ∀ s ∈ r'.steps, s.state ≠ .pending)
      (refreshed : r'.Refreshed) (released : r'.Released)
      (commands : ∀ c ∈ r.commands, c ∈ r'.commands) : Move t .plain r r'
  /-- The claim of the next Step. -/
  | claim {r r' : Run} (s s' : Step) (command : UUID) (c : Claim) (mem : s ∈ r.steps)
      (pending : s.state = .pending) (running : r.state = .running)
      (isNext : r.nextStepOrdinal = some s.ordinal)
      (free : (r.pairOf s.toStepRow).any t.pairIsolated = false)
      (row : s'.toStepRow = { s.toStepRow with
        state := .preflighting, activeCommand := some command, claim := some c })
      (steps : r'.steps = r.steps.put s') (frozen : r.Frozen t r')
      (current : r'.currentStepOrdinal = some s.ordinal) (next : r'.nextStepOrdinal = none)
      (state : r'.state = r.state) (counts : r'.counts = r.counts) (locks : r.LocksKept r')
      (commandOpen : r'.CommandOpen s'.toStepRow) : Move t .starting r r'
  /-- A Step that stays unfinished. -/
  | hold {r r' : Run} (o : Event) (s s' : Step) (mem : s ∈ r.steps)
      (held : StepRow.Hold o s.toStepRow s'.toStepRow) (steps : r'.steps = r.steps.put s')
      (keeps : r.Keeps t r')
      (state : r'.state = r.state)
      (commands : (s.Working → r.CommandOpen s.toStepRow) →
        s'.Working → r'.CommandOpen s'.toStepRow)
      (others : s.state.busy ∨ ∀ c ∈ r.commands, c ∈ r'.commands)
      (fresh : ∀ k a, s.attempt k = none → s'.attempt k = some a → t.attemptTaken a.id = false) :
      Move t o r r'
  /-- The end of the active Step. -/
  | finish {r r' : Run} (o : Event) (s s' : Step) (mem : s ∈ r.steps)
      (active : s.state.active) (finished : StepRow.Finish o s.toStepRow s'.toStepRow)
      (steps : r.steps.Rel (Step.Sweep s s') r'.steps) (frozen : r.Frozen t r')
      (settled : r.Settled r')
      (fresh : ∀ e, s'.completion = some e → s.completion = some e ∨ t.completionTaken e = false) :
      Move t o r r'
  /-- The outcome of the active Step became unknown. -/
  | isolate {r r' : Run} (o : Observation) (now : Time) (i : Isolation) (s s' : Step)
      (mem : s ∈ r.steps) (active : s.state.active) (observes : s.Observes o)
      (unknown : o.nextState = .outcomeUnknown)
      (row : s'.toStepRow =
        { observed o now s.toStepRow with isolations := s.isolations ++ [i] })
      (unresolved : i.unresolved) (owner : i.owner = r.owner)
      (pair : r.pairOf s.toStepRow = some (i.walletId, i.market))
      (free : t.pairIsolated (i.walletId, i.market) = false)
      (steps : r.steps.Rel (Step.Sweep s s') r'.steps) (frozen : r.Frozen t r')
      (current : r'.currentStepOrdinal = r.currentStepOrdinal) (blocked : r.Blocked r') :
      Move t (.observe o) r r'
  /-- An unknown outcome was found. -/
  | reconcile {r r' : Run} (o : Observation) (now : Time) (s s' : Step) (id : UUID) (code : Code)
      (mem : s ∈ r.steps) (was : s.state = .outcomeUnknown) (observes : s.Observes o)
      (terminal : o.nextState.terminal)
      (row : s'.toStepRow = { observed o now s.toStepRow with
        isolations := s.isolations.map (resolvedIsolation id code now) })
      (named : s.isolations.any fun i => i.id = id && i.unresolved)
      (steps : r.steps.Rel (Step.Sweep s s') r'.steps) (frozen : r.Frozen t r')
      (done : r.Resolved r') (fresh : o.completion.any t.completionTaken = false) :
      Move t (.observe o) r r'

theorem Move.refl {e : Event} (h : e.ofCommand) : Move t e r r :=
  .control (.refl t r) rfl (fun _ h => h) .same h

end Run
end Athena.Execution
