import Athena.Execution.Invariants

/-!
# The operations of the execution store

The store as one machine: its operations are the transactions that users and
workers can run, in any order and any number.  A failed transaction leaves the
tables as they were.  Every successful one creates a Run or is a move of one Run,
which is all that the invariants of the tables need to know about it.
-/

namespace Athena.Execution

open Athena.Lib Option List

/-- A transaction of the execution store, with its arguments. -/
inductive Operation
  | create (env : Admission) (req : CreateRequest) (runId : UUID) (stepId : ℕ → UUID)
  | authorize (req : CommandRequest) (proofKind : Code) (b : Binding) (authorizationId : UUID)
  | startOrResume (resume : Bool) (req : CommandRequest) (b : Binding) (coordinatorId : UUID)
      (token : Digest)
  | pause (req : CommandRequest)
  | terminate (req : CommandRequest)
  | heartbeat (req : CommandRequest) (token : Digest) (b : Binding)
  | executeNext (req : CommandRequest) (ordinal : ℕ) (token : Digest) (b : Binding)
  | reconcile (req : CommandRequest) (stepId : UUID) (ordinal : ℕ)
  | recover (step : StepRef) (claim : Claim)
  | renew (step : StepRef) (claim : Claim)
  | preflight (req : PreflightRequest)
  | failurePause (run : UUID) (pauseCode : Code)
  | prepare (req : PrepareRequest)
  | dispatch (req : DispatchRequest)
  | resolve (req : ResolveRequest)
  | opened (req : OpenedRequest)
  | signing (step : StepRef) (claim : ClaimId)
  | signed (step : StepRef) (claim : ClaimId) (signer : SignerMetadata)
  | observe (req : ObservationRequest)

namespace Operation

@[reducible] def Reply : Operation → Type
  | .create .. | .authorize .. | .startOrResume .. | .pause .. | .terminate .. | .heartbeat ..
  | .failurePause .. => Run
  | .executeNext .. => Except StoreError Step
  | .reconcile .. | .recover .. | .renew .. | .preflight .. | .opened .. | .signing .. | .signed ..
  | .observe .. => Step
  | .prepare .. | .dispatch .. | .resolve .. => Attempt

def event : Operation → Event
  | .executeNext .. => .starting
  | .preflight req => if req.nextState = .opening then .opening else .plain
  | .observe req => .observe req.statement
  | _ => .plain

def home : Operation → Option UUID
  | .create .. | .resolve .. => none
  | .authorize req .. | .startOrResume _ req .. | .pause req | .terminate req | .heartbeat req ..
  | .executeNext req .. | .reconcile req .. => some req.run
  | .recover step _ | .renew step _ | .signing step _ | .signed step .. => some step.run
  | .failurePause run _ => some run
  | .preflight req => some req.step.run
  | .prepare req => some req.step.run
  | .dispatch req => some req.step.run
  | .opened req => some req.step.run
  | .observe req => some req.step.run

end Operation

def Store.exec : (op : Operation) → Tables → Time → Except StoreError (Tables × op.Reply)
  | .create env req runId stepId, t, now => createExecutionRun env t req runId stepId now
  | .authorize req proofKind b id, t, now => authorizeExecutionRun t req proofKind b id now
  | .startOrResume resume req b id token, t, now =>
    startOrResumeExecutionRun t resume req b id token now
  | .pause req, t, now => pauseExecutionRun t req now
  | .terminate req, t, now => terminateExecutionRun t req now
  | .heartbeat req token b, t, now => heartbeatExecutionCoordinator t req token b now
  | .executeNext req ordinal token b, t, now => beginExecutionStep t req ordinal token b now
  | .reconcile req stepId ordinal, t, now =>
    beginExecutionStepReconciliation t req stepId ordinal now
  | .recover step claim, t, now => recoverExecutionStep t step claim now
  | .renew step claim, t, now => renewExecutionStepClaim t step claim now
  | .preflight req, t, now => completeExecutionPreflight t req now
  | .failurePause run code, t, now => pauseExecutionRunForFailure t run code now
  | .prepare req, t, now => prepareExecutionMutation t req now
  | .dispatch req, t, now => dispatchExecutionMutation t req now
  | .resolve req, t, now => resolveExecutionMutation t req now
  | .opened req, t, now => recordExecutionStepOpened t req now
  | .signing step claim, t, _ => markExecutionStepSigning t step claim
  | .signed step claim signer, t, _ => recordExecutionStepSigned t step claim signer
  | .observe req, t, now => recordExecutionProviderObservation t req now

/-! ## Created Runs -/

/-- A Run as `CreateExecutionRun` leaves it among the tables `t`. -/
structure Tables.Created (t : Tables) (r : Run) : Prop where
  admitted : ∃ env req runId stepId now t',
    Store.admitExecutionRun env t req runId stepId now = .ok (t', r)
  inv : r.Inv
  state : r.state = .awaitingAuthorization
  fresh : ∀ s ∈ r.steps, s.openAttempt = none ∧ s.finalizeAttempt = none ∧ s.isolations = [] ∧
    s.completion = none ∧ s.positionRequestId = 0 ∧ s.state.busy = false
  commands : r.commands = []
  free : ∀ s ∈ r.steps, s.sourceDisposition = .ready →
    (r.pairOf s.toStepRow).any t.pairIsolated = false
  unlocked : ∀ w ∈ r.walletLocks, t.walletLocked w = false

namespace Store

section create
variable {stepId : ℕ → UUID} {now : Time}

variable {steps : List Step}

theorem snapshotExecutionRunSteps_ok {ps : List PlanStep}
    (h : snapshotExecutionRunSteps stepId now ps = .ok steps) :
    steps.map (fun s => s.toStepRow) = ps.map fun p => snapshotStep p (stepId p.ordinal) now := by
  induction ps generalizing steps with
  | nil => cases h; rfl
  | cons _ _ ih =>
    simp only [snapshotExecutionRunSteps, bind_eq_ok] at h
    obtain ⟨rest, hrest, h⟩ := h
    split at h
    · simp only [pure_eq_ok] at h
      subst h
      simp only [map_cons, ih hrest]
    · simp at h

theorem exists_planStep {ps : List PlanStep}
    (h : snapshotExecutionRunSteps stepId now ps = .ok steps) {s : Step} (hs : s ∈ steps) :
    ∃ p ∈ ps, s.toStepRow = snapshotStep p (stepId p.ordinal) now := by
  have hmem : s.toStepRow ∈ steps.map fun s => s.toStepRow := List.mem_map_of_mem hs
  rw [snapshotExecutionRunSteps_ok h, List.mem_map] at hmem
  obtain ⟨p, hp, heq⟩ := hmem
  exact ⟨p, hp, heq.symm⟩

section snapshot
variable {p : PlanStep} {id : UUID}

theorem state_snapshotStep : (snapshotStep p id now).state = .pending ↔ p.disposition = .ready := by
  unfold snapshotStep
  split <;> simp_all

theorem not_busy_snapshotStep : (snapshotStep p id now).state.busy = false := by
  unfold snapshotStep
  dsimp only
  split <;> rfl

theorem journal_snapshotStep : (snapshotStep p id now).Journal where
  early := fun _ => ⟨rfl, rfl⟩
  unsigned := fun _ => rfl
  skipped := by
    intro h
    have h : p.disposition = .skipped := h
    exact ⟨by simp [snapshotStep, h], rfl, rfl⟩
  opened := by
    rintro (h | h)
    · have hbusy := StepState.busy_of_active
        (StepState.active_of_mutating (StepState.mutating_of_requested h))
      exact absurd hbusy (by simp [not_busy_snapshotStep])
    · simp [snapshotStep] at h
  openInFlight := by simp [snapshotStep]
  finalizeInFlight := by simp [snapshotStep]
  claimed := by simp [snapshotStep]
  evidence := by simp [snapshotStep]

end snapshot

theorem le_of_find? {α : Type} {l : List α} {q : α → Bool} {f : α → ℕ} {a b : α}
    (h : l.find? q = some a) (hl : (l.map f).Pairwise (· < ·)) (hb : b ∈ l) (hq : q b) :
    f a ≤ f b := by
  obtain ⟨-, as, bs, rfl, has⟩ := find?_eq_some_iff_append.mp h
  rcases mem_append.mp hb with hb | hb
  · simpa [hq] using has b hb
  · rw [map_append, pairwise_append] at hl
    rcases mem_cons.mp hb with rfl | hb
    · exact le_rfl
    · exact (rel_of_pairwise_cons hl.2.1 (mem_map_of_mem hb)).le

variable {r : Run} {p : Plan} {first : PlanStep} {req : CreateRequest} {runId : UUID}
  {skipped : ℕ}

theorem minPending_created
    (hsteps : snapshotExecutionRunSteps stepId now p.steps = .ok r.steps.rows)
    (hfirst : p.steps.find? (fun s => s.disposition = .ready) = some first) :
    Queries.minPending r = some first.ordinal := by
  refine List.min?_eq_some_iff.mpr ⟨?_, ?_⟩
  · have hready : first.disposition = .ready := by simpa using List.find?_some hfirst
    have hmem : snapshotStep first (stepId first.ordinal) now ∈
        r.steps.rows.map fun s => s.toStepRow := by
      rw [snapshotExecutionRunSteps_ok hsteps]
      exact List.mem_map_of_mem (List.mem_of_find?_eq_some hfirst)
    obtain ⟨s, hs, hrow⟩ := List.mem_map.mp hmem
    refine List.mem_map.mpr ⟨s, List.mem_filter.mpr ⟨hs, ?_⟩, by rw [hrow]; rfl⟩
    simpa [hrow] using state_snapshotStep.mpr hready
  · intro n hn
    simp only [List.mem_map, List.mem_filter, decide_eq_true_eq] at hn
    obtain ⟨s, ⟨hs, hpending⟩, rfl⟩ := hn
    obtain ⟨q, hq, hrow⟩ := exists_planStep hsteps hs
    rw [hrow] at hpending ⊢
    exact le_of_find? hfirst p.ordered hq (by simpa using state_snapshotStep.mp hpending)

theorem pairOf_isSome_of_linked {s : Step} (hwallets : r.wallets = p.wallets)
    (hitems : r.items = p.items) (h : linked p s) : (r.pairOf s.toStepRow).isSome := by
  simp only [linked, check_iff, List.any_eq_true] at h
  obtain ⟨⟨w, hw, hwo⟩, i, hi, hio⟩ := h
  have hwallet : (r.walletOf s.toStepRow).isSome := by
    rw [Run.walletOf, hwallets, List.find?_isSome]
    exact ⟨w, hw, by simpa using hwo⟩
  have hitem : (r.itemOf s.toStepRow).isSome := by
    rw [Run.itemOf, hitems, List.find?_isSome]
    exact ⟨i, hi, by simpa using hio⟩
  obtain ⟨w, hw⟩ := isSome_iff_exists.mp hwallet
  obtain ⟨i, hi⟩ := isSome_iff_exists.mp hitem
  simp [Run.pairOf, hw, hi]

theorem inv_created (hrow : r.toRunRow = newRunRow req p runId first.ordinal skipped)
    (hwallets : r.wallets = p.wallets) (hitems : r.items = p.items)
    (hsteps : snapshotExecutionRunSteps stepId now p.steps = .ok r.steps.rows)
    (hlinked : ∀ s ∈ r.steps, linked p s)
    (hfirst : p.steps.find? (fun s => s.disposition = .ready) = some first)
    (hlength : p.steps.length = p.totalStepCount) (hlocks : r.walletLocks = sortedWalletIds p)
    (hcombination : r.combinationLock.isSome) : r.Inv := by
  have hstate : r.state = .awaitingAuthorization := by rw [hrow]; rfl
  have plan {s : Step} (hs : s ∈ r.steps) := exists_planStep hsteps hs
  have idle : ∀ s ∈ r.steps, s.state.busy = false := by
    intro s hs
    obtain ⟨q, -, heq⟩ := plan hs
    rw [heq]
    exact not_busy_snapshotStep
  exact
    { journal := by
        intro s hs
        obtain ⟨q, -, heq⟩ := plan hs
        rw [heq]
        exact journal_snapshotStep
      sequential :=
        { current := by
            intro s hs hb
            simp [idle s hs] at hb
          next := by
            intro n hn
            rw [hrow] at hn
            exact ⟨idle, hn ▸ minPending_created hsteps hfirst⟩ }
      stated := Run.stated_of_idle idle (by simp [hstate]) (by simp [hstate]) (by simp [hstate])
      isolates := by
        intro s hs
        obtain ⟨q, -, heq⟩ := plan hs
        refine ⟨fun hu => ?_, fun _ => by rw [heq]; rfl⟩
        have := idle s hs
        simp [hu, StepState.busy] at this
      locks :=
        { held := by
            intro _
            refine ⟨?_, hcombination⟩
            intro w hw
            rw [hlocks, sortedWalletIds, mem_insertionSort]
            exact mem_map_of_mem (hwallets ▸ hw)
          released := by simp [hstate, RunState.terminal] }
      snapshot :=
        { wallets := hwallets ▸ p.walletKeys
          items := hitems ▸ p.itemKeys
          linked := fun s hs => pairOf_isSome_of_linked hwallets hitems (hlinked s hs)
          major := by
            intro s hs
            obtain ⟨q, hq, heq⟩ := plan hs
            rw [heq, hrow]
            exact p.major q hq
          total := by
            have := congrArg List.length (snapshotExecutionRunSteps_ok hsteps)
            rw [length_map, length_map, hlength] at this
            rw [this, hrow]
            rfl }
      commands := Run.commandOpen_of_idle idle }

theorem buildRun_ok {row : RunRow} (h : buildRun row p steps = .ok r) :
    r.toRunRow = row ∧ r.wallets = p.wallets ∧ r.items = p.items ∧ r.steps.rows = steps ∧
      r.commands = [] ∧ ∀ s ∈ r.steps, linked p s := by
  unfold buildRun at h
  split at h
  · rename_i hchecks
    cases h
    exact ⟨rfl, rfl, rfl, rfl, rfl, all_eq_true.mp hchecks.2.2⟩
  · cases h

theorem admitExecutionRun_ok {env : Admission} {t t' : Tables}
    (h : admitExecutionRun env t req runId stepId now = .ok (t', r)) :
    t.Created r ∧ t.runs.insert? r = some t'.runs := by
  have hadmitted := h
  simp only [admitExecutionRun, committed] at h
  obtain ⟨p, -, -, -, -, -, -, first, hfirst, hlength, -, -, steps, hsnapshot, r₀, hbuild, -,
    hblocked, -, hunlocked, runs, hinsert, rfl, rfl⟩ := h
  obtain ⟨hrow, hwallets, hitems, rfl, hcommands, hlinked⟩ := buildRun_ok hbuild
  refine ⟨?_, hinsert⟩
  exact
    { admitted := ⟨env, req, runId, stepId, now, _, hadmitted⟩
      inv := inv_created hrow hwallets hitems hsnapshot hlinked hfirst hlength rfl rfl
      state := by
        show r₀.state = _
        rw [hrow]; rfl
      fresh := by
        intro s hs
        obtain ⟨q, -, heq⟩ := exists_planStep hsnapshot hs
        rw [heq]
        exact ⟨rfl, rfl, rfl, rfl, rfl, not_busy_snapshotStep⟩
      commands := hcommands
      free := by
        intro s hs hready
        have hall := any_eq_false.mp hblocked s hs
        simpa [hready, Run.pairOf, Run.walletOf, Run.itemOf] using hall
      unlocked := by
        intro w hw
        simpa using all_eq_true.mp hunlocked w hw }

end create

end Store

/-! ## What a transaction can do -/

/-- The tables after a successful transaction: a new Run, a move of one Run, or
nothing. -/
inductive Tables.Change (t : Tables) (op : Operation) : Tables → Prop
  | same : Change t op t
  | created {runs : Table fun r : Run => r.id} (r : Run) (new : t.Created r)
      (insert : t.runs.insert? r = some runs) : Change t op ⟨runs⟩
  | moved (r r' : Run) (mem : r ∈ t.runs) (home : ∀ id, op.home = some id → r.id = id)
      (move : r.Move t op.event r') : Change t op ⟨t.runs.put r'⟩

namespace Store

section change
variable {t t' : Tables} {op : Operation}

variable {r r' : Run} {ordinal : ℕ}

theorem id_of_get? {id : UUID} (h : t.runs.get? id = some r) : r.id = id :=
  (Table.get?_eq_some.mp h).2

theorem change_onRun {α : Type} {id : UUID} {e : StoreError}
    {f : Run → Except StoreError (Run × α)} {a : α} (hhome : ∀ i, op.home = some i → id = i)
    (hmove : ∀ r r' a, f r = .ok (r', a) → r.Move t op.event r')
    (h : t.onRun id e f = .ok (t', a)) : t.Change op t' := by
  simp only [Tables.onRun, committed, Prod.exists] at h
  obtain ⟨r, hget, r', a, hf, rfl, -⟩ := h
  exact .moved r r' (Table.mem_of_get? hget)
    (fun i hi => (id_of_get? hget).trans (hhome i hi)) (hmove r r' a hf)

theorem change_runCommand {α : Type} {req : CommandRequest} {kind : CommandKind}
    {digest : RequestDigest} {ordinal : ℕ} {replay : Run → Command → Except StoreError (Run × α)}
    {fresh : Run → Except StoreError (Run × α)} {a : α} (hhome : op.home = some req.run)
    (hreplay : ∀ r c r' a, replay r c = .ok (r', a) → r.Move t op.event r')
    (hfresh : ∀ r r' a, (∀ c ∈ r.commands, c.id ≠ req.command) → t.commandOf req.command = none →
      fresh (journalled r req kind digest ordinal) = .ok (r', a) → r.Move t op.event r')
    (h : runCommand t req kind digest ordinal replay fresh = .ok (t', a)) : t.Change op t' := by
  obtain ⟨r, r', hget, -, rfl, hcase⟩ := runCommand_ok h
  have hid : ∀ id, op.home = some id → r.id = id := by
    intro id hid
    rw [hhome] at hid
    cases hid
    exact id_of_get? hget
  have mem := Table.mem_of_get? hget
  rcases hcase with ⟨c, -, -, -, hr⟩ | ⟨hfree, hr⟩
  · exact .moved r r' mem hid (hreplay r c r' a hr)
  · exact .moved r r' mem hid (hfresh r r' a (hfree r mem) (commandOf_eq_none.mpr hfree) hr)

theorem move_same {a : Run} (h : (pure (r, r) : Except StoreError (Run × Run)) = .ok (r', a)) :
    r.Move t .plain r' := by
  simp only [pure_pair] at h
  obtain ⟨rfl, -⟩ := h
  exact .refl rfl

theorem eq_of_replayClaim {c : Command} {a : Except StoreError Step}
    (h : replayClaim ordinal r c = .ok (r', a)) : r' = r := by
  unfold replayClaim at h
  split at h
  · simp only [pure_pair] at h
    exact h.1.symm
  · simp only [committed] at h
    obtain ⟨s, -, rfl, -⟩ := h
    rfl

theorem move_replayClaim {c : Command} {a : Except StoreError Step}
    (h : replayClaim ordinal r c = .ok (r', a)) : r.Move t .starting r' := by
  rw [eq_of_replayClaim h]
  exact .refl rfl

theorem move_replayReconcile {stepId : UUID} {a : Step}
    (h : replayReconcile stepId ordinal r = .ok (r', a)) : r.Move t .plain r' := by
  simp only [replayReconcile, committed] at h
  obtain ⟨s, -, -, rfl, -⟩ := h
  exact .refl rfl

theorem exec_change {now : Time} {a : op.Reply} (h : exec op t now = .ok (t', a)) :
    t.Change op t' := by
  cases op with
  | create =>
    obtain ⟨-, h⟩ := of_ensure h
    split at h
    · simp only [committed] at h
      obtain ⟨-, rfl, -⟩ := h
      exact .same
    · obtain ⟨hnew, hinsert⟩ := admitExecutionRun_ok h
      exact .created a hnew hinsert
  | authorize =>
    refine change_runCommand rfl (fun _ _ _ _ => move_same) ?_ (of_ensure h).2
    exact fun r r' a hfresh hfree =>
      move_applyAuthorize hfresh (touches_journalled _ _ _ _ hfree)
  | startOrResume =>
    refine change_runCommand rfl (fun _ _ _ _ => move_replayStart) ?_ (of_ensure h).2
    exact fun r r' a hfresh hfree => move_applyStart hfresh (touches_journalled _ _ _ _ hfree)
  | pause =>
    refine change_runCommand rfl (fun _ _ _ _ => move_same) ?_ h
    exact fun r r' a hfresh hfree => move_applyPause hfresh (touches_journalled _ _ _ _ hfree)
  | terminate =>
    refine change_runCommand rfl (fun _ _ _ _ => move_same) ?_ h
    exact fun r r' a hfresh hfree =>
      move_applyTerminate hfresh (touches_journalled _ _ _ _ hfree)
  | heartbeat =>
    refine change_runCommand rfl (fun _ _ _ _ => move_same) ?_ (of_ensure h).2
    exact fun r r' a hfresh hfree =>
      move_applyHeartbeat hfresh (touches_journalled _ _ _ _ hfree)
  | executeNext =>
    refine change_runCommand rfl (fun _ _ _ _ => move_replayClaim) ?_ (of_ensure h).2
    exact fun r r' a hfresh hfree => move_applyClaim hfresh (touches_journalled _ _ _ _ hfree)
  | reconcile =>
    simp only [exec, beginExecutionStepReconciliation, committed] at h
    refine change_runCommand rfl (fun _ _ _ _ => move_replayReconcile) ?_ h.2
    exact fun r r' a _ hfree => move_applyReconcile hfree
  | recover =>
    exact change_onRun (fun _ => some.inj)
      (fun _ _ _ => move_claimExecutionRunStepForRecovery) (of_ensure h).2
  | renew =>
    exact change_onRun (fun _ => some.inj) (fun _ _ _ => move_renewExecutionRunStepClaim)
      (of_ensure h).2
  | preflight =>
    simp only [exec, completeExecutionPreflight, committed] at h
    obtain ⟨-, hnext, -, -, h⟩ := h
    exact change_onRun (fun _ => some.inj) (fun _ _ _ => move_applyPreflight hnext) h
  | failurePause =>
    exact change_onRun (fun _ => some.inj) (fun _ _ _ => move_applyFailurePause) (of_ensure h).2
  | prepare =>
    exact change_onRun (fun _ => some.inj)
      (fun _ _ _ => move_createExecutionMutationAttempt) (of_ensure (of_ensure h).2).2
  | dispatch =>
    exact change_onRun (fun _ => some.inj)
      (fun _ _ _ => move_dispatchExecutionMutationAttempt) (of_ensure h).2
  | resolve =>
    simp only [exec, resolveExecutionMutation, committed] at h
    obtain ⟨-, -, home, -, h⟩ := h
    exact change_onRun (fun _ h => by cases h) (fun _ _ _ => move_applyResolve) h
  | opened =>
    exact change_onRun (fun _ => some.inj) (fun _ _ _ => move_applyOpened)
      (of_ensure (of_ensure h).2).2
  | signing =>
    exact change_onRun (fun _ => some.inj)
      (fun _ _ _ => move_markExecutionRunStepSigning) (of_ensure h).2
  | signed =>
    exact change_onRun (fun _ => some.inj)
      (fun _ _ _ => move_recordExecutionRunStepSigned) (of_ensure h).2
  | observe =>
    simp only [exec, recordExecutionProviderObservation, committed] at h
    obtain ⟨-, hallowed, ⟨hdata, -⟩, h⟩ := h
    exact change_onRun (fun _ => some.inj)
      (fun _ _ _ => move_applyObservation hallowed hdata) h

end change

end Store
end Athena.Execution
