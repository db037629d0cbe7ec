import Athena.Execution.Reachable

/-!
# When transactions commit

Which state of the tables lets a statement or a transaction succeed, constraints of the
schema included.  The last one is the transaction that records an unknown outcome together
with its isolation.
-/

namespace Athena.Execution

open Athena.Lib Table Queries Option List StepRow RunState

/-! ## Unanswered mutations -/

/-- The observation by which a worker records that the outcome of a Step is unknown. -/
def unknownObservation (run : UUID) (s : StepRow) (command : UUID) (claim : ClaimId)
    (attempt isolation : UUID) (code : Code) : ObservationRequest where
  step := ⟨run, s.ordinal⟩
  command := command
  claim := claim
  expectedState := s.state
  nextState := .outcomeUnknown
  reasonCode := code
  isolation := some isolation
  attempt := some attempt

def unknownResult (attempt : UUID) (httpStatus : ℕ) (slug code : Code) : ResolveRequest where
  attempt := attempt
  result := .outcomeUnknown
  httpStatus := httpStatus
  providerSlug := slug
  errorCode := code

namespace Store

variable {t : Tables} {r : Run} {s : Step} {now : Time}

/-! ## Commands -/

variable {id : UUID}

theorem updateCommand_eq {p : Command → Bool} {f : Command → Command}
    (h : r.commands.any fun c => c.id = id && p c) : updateCommand r id p f = .ok
      { r with commands := r.commands.map fun c => if c.id = id && p c then f c else c } := by
  rw [updateCommand, ensure_of h]
  rfl

def InProgress (r : Run) (id : UUID) : Prop :=
  r.commands.any fun c => c.id = id && c.state = .inProgress

theorem completeExecutionCommand_enabled (h : InProgress r id) (code : Code) :
    ∃ r', completeExecutionCommand r id code = .ok r' ∧ r'.toRunRow = r.toRunRow := by
  refine ⟨_, updateCommand_eq ?_, rfl⟩
  obtain ⟨c, hc, hid⟩ := any_eq_true.mp h
  refine any_eq_true.mpr ⟨c, hc, ?_⟩
  simp only [check_iff] at hid
  simp [hid]

/-! ## The row of a Run -/

theorem touchExecutionRunRevision_enabled (r : Run) :
    ∃ r', touchExecutionRunRevision r = .ok r' ∧ r'.id = r.id ∧
      r'.revision = r.revision + 1 ∧ r'.commands = r.commands :=
  have h := r.checked
  ⟨_, Run.writeRow_eq_ok.mpr
    ⟨⟨h.actionable, h.terminal, h.sum, h.lifecycle, h.completed, h.paused, h.block⟩, rfl⟩,
    rfl, rfl, rfl⟩

theorem checked_pausing {row : RunRow} (h : row.Checked)
    (hstate : row.state = .running ∨ row.state = .pauseRequested) (busy : Bool) (code : Code)
    (now : Time) : (pausing busy code now row).Checked := by
  have hlife := h.lifecycle
  have hdone := h.completed
  have hblock := h.block
  refine ⟨h.actionable, h.terminal, h.sum, ?_, ?_, ?_, ?_⟩ <;>
    rcases hstate with hs | hs <;> cases busy <;>
      simp_all [pausing, lifecycle, terminal, allowsBlock]

theorem sum_countP_terminal (l : List Step) :
    (l.countP fun s => s.state = .completed) + (l.countP fun s => s.state = .satisfied) +
      (l.countP fun s => s.state = .skipped) + (l.countP fun s => s.state = .failed) +
      (l.countP fun s => s.state = .notExecuted) = l.countP fun s => s.state.terminal := by
  induction l with
  | nil => rfl
  | cons s =>
    have hone : (if s.state = .completed then 1 else 0) + (if s.state = .satisfied then 1 else 0) +
        (if s.state = .skipped then 1 else 0) + (if s.state = .failed then 1 else 0) +
        (if s.state = .notExecuted then 1 else 0) = if s.state.terminal then 1 else 0 := by
      cases s.state <;> rfl
    simp only [countP_cons, decide_eq_true_eq]
    omega

theorem refreshExecutionRunProgress_enabled (h : r.steps.rows.length = r.totalStepCount) :
    ∃ r', refreshExecutionRunProgress r = .ok r' ∧ r'.commands = r.commands := by
  have hc := r.checked
  have hle : (r.steps.rows.countP fun s => s.state.terminal) ≤ r.totalStepCount :=
    h ▸ countP_le_length
  exact ⟨_, Run.writeRow_eq_ok.mpr ⟨⟨hc.actionable, hle, sum_countP_terminal _, hc.lifecycle,
    hc.completed, hc.paused, hc.block⟩, rfl⟩, rfl⟩

theorem settleUnknown_enabled (h : r.steps.rows.length = r.totalStepCount) (now : Time) :
    ∃ r', settleUnknown r now = .ok r' ∧ r'.commands = r.commands := by
  unfold settleUnknown
  split
  · have hlength : (markPendingExecutionRunStepsNotExecuted r .runTerminated
        now).steps.rows.length = r.totalStepCount := by
      simpa [markPendingExecutionRunStepsNotExecuted, endPendingWhere, Table.update] using h
    obtain ⟨r₁, hrefresh, hcommands⟩ := refreshExecutionRunProgress_enabled hlength
    exact ⟨closeTerminalExecutionRun r₁, by simp [endPendingSteps, hrefresh, pure, Except.pure],
      hcommands⟩
  · exact ⟨r, rfl, rfl⟩

theorem markExecutionRunReconciliationRequired_enabled {code : Code} (hcode : code.text ≠ "")
    (hstate : r.state = .running ∨ r.state = .pauseRequested ∨ r.state = .terminateRequested)
    (now : Time) : ∃ r', markExecutionRunReconciliationRequired r code now = .ok r' ∧
      r'.steps = r.steps ∧ r'.totalStepCount = r.totalStepCount ∧ r'.commands = r.commands := by
  simp only [markExecutionRunReconciliationRequired, committed, Run.writeRow_eq_ok]
  have hc := r.checked
  have hlife := hc.lifecycle
  have hdone := hc.completed
  refine ⟨_, ⟨hstate, ⟨hc.actionable, hc.terminal, hc.sum, ?_, ?_, ?_, ?_⟩, rfl⟩, rfl, rfl, rfl⟩ <;>
    rcases hstate with hs | hs | hs <;>
      simp_all [lifecycle, terminal, allowsBlock]

/-! ## An unknown outcome -/

theorem createExecutionStepIsolation_enabled {isolated : ℕ × String → Bool} {taken : UUID → Bool}
    {attempt : UUID} {pair : ℕ × String} (hs : s ∈ r.steps) (hstate : s.state = .outcomeUnknown)
    (hresolved : (attemptById s.toStepRow attempt).any fun a => a.isResolved)
    (hpair : r.pairOf s.toStepRow = some pair) (hfree : isolated pair = false)
    (hid : taken id = false) (code : Code) :
    ∃ r', createExecutionStepIsolation isolated taken r s.ordinal id attempt code = .ok r' ∧
      r'.toRunRow = r.toRunRow ∧ r'.steps.rows.length = r.steps.rows.length ∧
      r'.commands = r.commands := by
  have hc := s.checked
  let s' : Step := ⟨{ s.toStepRow with isolations := s.isolations ++
    [{ id, owner := r.owner, walletId := pair.1, market := pair.2, attempt, reasonCode := code }] },
    hc.source, hc.completed, hc.request, hc.signer, hc.completion, hc.kinds⟩
  refine ⟨r.putStep s', ?_, rfl, by simp [Run.putStep], rfl⟩
  simp only [createExecutionStepIsolation, committed, Step.write_eq_ok]
  exact ⟨s, get?_of_mem hs, ⟨hstate, hresolved⟩, pair, hpair, ⟨hfree, hid⟩, s', rfl, rfl⟩

theorem isolateUnknown_enabled {req : ObservationRequest} {attempt : UUID} {pair : ℕ × String}
    (hs : s ∈ r.steps) (hord : req.step.ordinal = s.ordinal) (hstate : s.state = .outcomeUnknown)
    (hisolation : req.isolation = some id) (hattempt : req.attempt = some attempt)
    (hresolved : (attemptById s.toStepRow attempt).any fun a => a.isResolved)
    (hpair : r.pairOf s.toStepRow = some pair) (hfree : t.pairIsolated pair = false)
    (hid : t.isolationTaken id = false)
    (hrun : r.state = .running ∨ r.state = .pauseRequested ∨ r.state = .terminateRequested)
    (hcode : req.reasonCode.text ≠ "") (htotal : r.steps.rows.length = r.totalStepCount)
    (hopen : InProgress r req.command) (now : Time) :
    ∃ r', isolateUnknown t req now r = .ok r' := by
  obtain ⟨r₁, hcreate, hrow₁, hlength₁, hcommands₁⟩ :=
    createExecutionStepIsolation_enabled hs hstate hresolved hpair hfree hid req.reasonCode
  obtain ⟨r₂, hmark, hsteps₂, htotal₂, hcommands₂⟩ :=
    markExecutionRunReconciliationRequired_enabled hcode (hrow₁.symm ▸ hrun) now
  have hlength : (releaseExecutionCoordinator r₂).steps.rows.length =
      (releaseExecutionCoordinator r₂).totalStepCount := by
    change r₂.steps.rows.length = r₂.totalStepCount
    rw [hsteps₂, htotal₂, hlength₁, hrow₁, htotal]
  obtain ⟨r₃, hsettle, hcommands₃⟩ := settleUnknown_enabled hlength now
  have hopen₃ : InProgress r₃ req.command := by
    unfold InProgress at *
    rw [hcommands₃]
    change r₂.commands.any _
    rwa [hcommands₂, hcommands₁]
  obtain ⟨r', hcomplete, -⟩ := completeExecutionCommand_enabled hopen₃ req.reasonCode
  exact ⟨r', by simp [isolateUnknown, hisolation, hattempt, hord, hcreate, hmark, hsettle,
    hcomplete]⟩

section unknown
variable {command attempt isolation : UUID} {claim : ClaimId} {code : Code}

def unknownStep (o : Queries.Observation) (now : Time) (s : Step)
    (hnext : o.nextState = .outcomeUnknown) (hevidence : o.completion = none) : Step where
  toStepRow := observed o now s.toStepRow
  checked :=
    { source := s.checked.source
      completed := by simp [observed, hnext, StepState.terminal]
      request := by simp [observed, hnext, StepState.requested]
      signer := by simp [observed, hnext, StepState.signed]
      completion := by simp [observed, hnext, hevidence]
      kinds := s.checked.kinds }

theorem record_unknown_enabled (taken : CompletionEvidence → Bool) (o : Queries.Observation)
    (hnext : o.nextState = .outcomeUnknown) (hevidence : o.completion = none)
    (hrequest : o.positionRequestId = 0) (hs : s ∈ r.steps) (hord : o.ordinal = s.ordinal)
    (hexpected : o.expectedState = s.state) (hclaim : s.claim.any fun c => c.id = o.claimId)
    (hopen : s.openAttempt.any fun a => a.isResolved) (now : Time) :
    recordExecutionRunProviderObservation taken r o now =
      .ok (r.putStep (unknownStep o now s hnext hevidence),
        unknownStep o now s hnext hevidence) := by
  simp only [recordExecutionRunProviderObservation, committed, Step.write_eq_ok]
  refine ⟨s, hord ▸ get?_of_mem hs, ⟨hexpected.symm, hclaim⟩, ⟨?_, ?_, ?_, ?_⟩, _, rfl, ?_, ?_,
    rfl, rfl⟩
  · simp [admitsRequest, hrequest]
  · simp [admitsCompletion, hevidence, hnext]
  · simp [admitsSkip, hnext]
  · simp [admitsTransition, hnext, hopen]
  · simp [requestIdFree, unknownStep, observed, hrequest]
  · simp [hevidence]

/-- The unknown outcome of a resolved mutation can be recorded, with its isolation, as
long as the Run is not paused. -/
theorem observe_unknown_enabled (ht : t.Inv) (hr : r ∈ t.runs) (hs : s ∈ r.steps)
    (hstate : s.state = .opening ∨ s.state = .finalizing) (hrun : r.state ≠ .paused)
    (hactive : s.activeCommand = some command) (hcommand : InProgress r command)
    (hclaim : s.claim.any fun c => c.id = claim) (hopen : s.openAttempt.any fun a => a.isResolved)
    (hresolved : (attemptById s.toStepRow attempt).any fun a => a.isResolved)
    (hid : t.isolationTaken isolation = false) (hcode : code.text ≠ "") (now : Time) :
    ∃ r' s', exec (.observe (unknownObservation r.id s.toStepRow command claim attempt isolation
        code)) t now = .ok (⟨t.runs.put r'⟩, s') ∧
      r.Move t (.observe (unknownObservation r.id s.toStepRow command claim attempt isolation
        code).statement) r' := by
  have hinv := ht.runs r hr
  have hactiveState : s.state.active := by rcases hstate with h | h <;> rw [h] <;> rfl
  have hrun : r.state = .running ∨ r.state = .pauseRequested ∨ r.state = .terminateRequested := by
    rcases hinv.stated.active s hs hactiveState with h | h | h | h
    · exact .inl h
    · exact .inr (.inl h)
    · exact .inr (.inr h)
    · exact absurd h hrun
  obtain ⟨pair, hpair⟩ := isSome_iff_exists.mp (hinv.snapshot.linked s hs)
  have hfree : t.pairIsolated pair = false := by
    simpa [hpair] using ht.free r hr s hs hactiveState
  have hpos : 0 < s.ordinal := by
    obtain ⟨-, hitem, -, heq⟩ := hinv.snapshot.major s hs
    omega
  let req := unknownObservation r.id s.toStepRow command claim attempt isolation code
  let s' := unknownStep req.statement now s rfl rfl
  have hrecord : recordExecutionRunProviderObservation t.completionTaken r req.statement now
      = .ok (r.putStep s', s') :=
    record_unknown_enabled t.completionTaken req.statement rfl rfl rfl hs rfl rfl hclaim hopen now
  have hmem : s' ∈ (r.putStep s').steps := mem_put_self hs rfl
  have htotal : (r.putStep s').steps.rows.length = (r.putStep s').totalStepCount := by
    simpa [Run.putStep] using hinv.snapshot.total
  have hprogress : InProgress (r.putStep s') req.command := hcommand
  obtain ⟨r', hisolate⟩ : ∃ r', isolateUnknown t req now (r.putStep s') = .ok r' :=
    isolateUnknown_enabled hmem rfl rfl rfl rfl hresolved hpair hfree hid hrun hcode htotal
      hprogress now
  have happly : applyObservation t req now r = .ok (r', s') := by
    have hget : r.steps.get? req.step.ordinal = some s := get?_of_mem hs
    have hnot : req.expectedState ≠ .outcomeUnknown := by
      rcases hstate with h | h <;> simp [req, unknownObservation, h]
    simp only [applyObservation, committed, Prod.exists]
    refine ⟨s, hget, ⟨rfl, hactive, hclaim⟩, .inl rfl, fun h => absurd h hnot, _, _, hrecord, ?_⟩
    have hnext : req.nextState = .outcomeUnknown := rfl
    simp [hnext, hnot, hisolate]
  have hallowed : transitionAllowed req.expectedState req.nextState := by
    rcases hstate with h | h <;> simp [req, unknownObservation, h, transitionAllowed]
  have hdata : observationData req now := by simp [req, observationData, unknownObservation, hcode]
  refine ⟨r', s', ?_, move_applyObservation hallowed hdata happly⟩
  simp only [exec, recordExecutionProviderObservation, Tables.onRun, committed]
  refine ⟨hpos, hallowed, ⟨hdata, ?_, ?_⟩, r, get?_of_mem hr, _, happly, rfl, rfl⟩
  · simp [observationScope, unknownObservation]
  · simp [observationIsolation, unknownObservation]

/-! The attempt is found by its identifier. -/

theorem exists_attempt_of_isSome {s : Step} {id : UUID}
    (h : (attemptById s.toStepRow id).isSome) : ∃ k a, s.attempt k = some a ∧ a.id = id := by
  obtain ⟨a, ha⟩ := isSome_iff_exists.mp h
  exact ⟨a.kind, a, (attempt_of_attemptById ha).2, (attempt_of_attemptById ha).1⟩

variable {k : MutationKind} {a : Attempt}

section
variable (ht : t.Inv) (hr : r ∈ t.runs) (hs : s ∈ r.steps) (ha : s.attempt k = some a)
include ht hr hs ha

theorem attemptById_of_attempt : attemptById s.toStepRow a.id = some a := by
  obtain ⟨b, hb⟩ := isSome_iff_exists.mp (attemptById_isSome ha)
  obtain ⟨hid, hkind⟩ := attempt_of_attemptById hb
  have hplace := ht.attempts (p := (r.id, s.ordinal, k)) (q := (r.id, s.ordinal, b.kind))
    ⟨r, hr, rfl, s, hs, rfl, a, ha, rfl⟩ ⟨r, hr, rfl, s, hs, rfl, b, hkind, hid⟩
  have hk : b.kind = k := (congrArg (fun p => p.2.2) hplace).symm
  rw [hk, ha] at hkind
  cases hkind
  exact hb

theorem attemptHome_of_attempt : attemptHome t a.id = some ⟨r.id, s.ordinal⟩ := by
  cases hhome : attemptHome t a.id with
  | none =>
    have hnone := findSome?_eq_none_iff.mp hhome r hr
    simp only [map_eq_none_iff, find?_eq_none] at hnone
    exact absurd (attemptById_isSome ha) (hnone s hs)
  | some =>
    obtain ⟨u, hu, hfind⟩ := exists_of_findSome?_eq_some hhome
    obtain ⟨v, hv, rfl⟩ := map_eq_some_iff.mp hfind
    have hsome : (attemptById v.toStepRow a.id).isSome := by simpa using find?_some hv
    obtain ⟨k', b, hb, hid⟩ := exists_attempt_of_isSome hsome
    have hplace := ht.attempts (p := (u.id, v.ordinal, k')) (q := (r.id, s.ordinal, k))
      ⟨u, hu, rfl, v, mem_of_find?_eq_some hv, rfl, b, hb, hid⟩
      ⟨r, hr, rfl, s, hs, rfl, a, ha, rfl⟩
    simp only [Prod.mk.injEq] at hplace
    rw [hplace.1, hplace.2.1]

def withAttempt (s : Step) (a : Attempt) : Step where
  toStepRow := s.setAttempt a.kind a
  checked := by
    have hc := s.checked
    cases hkind : a.kind with
    | «open» => exact ⟨hc.source, hc.completed, hc.request, hc.signer, hc.completion,
        by simp [StepRow.setAttempt, hkind], hc.kinds.2⟩
    | finalize => exact ⟨hc.source, hc.completed, hc.request, hc.signer, hc.completion, hc.kinds.1,
        by simp [StepRow.setAttempt, hkind]⟩

theorem resolve_unknown_enabled {d : Time} (hstatus : a.status = .dispatched d) {http : ℕ}
    (hhttp : http = 0 ∨ 100 ≤ http ∧ http ≤ 599) (slug : Code) (hcode : code.text ≠ "")
    (now : Time) :
    ∃ b, exec (.resolve (unknownResult a.id http slug code)) t now =
        .ok (⟨t.runs.put (r.putStep (withAttempt s b))⟩, b) ∧
      b.kind = a.kind ∧ b.id = a.id ∧ b.isResolved := by
  have hbyId := attemptById_of_attempt ht hr hs ha
  have hhome := attemptHome_of_attempt ht hr hs ha
  let b : Attempt := { a with
    status := .resolved .outcomeUnknown d now
    positionRequestId := if a.positionRequestId = 0 then 0 else a.positionRequestId
    httpStatus := http, providerSlug := slug, errorCode := code }
  refine ⟨b, ?_, rfl, rfl, rfl⟩
  have hcomplete : completeExecutionMutationAttempt r s a .outcomeUnknown 0 http slug code now
      = .ok (r.putStep (withAttempt s b), withAttempt s b, b) := by
    simp only [completeExecutionMutationAttempt, hstatus, committed, Step.write_eq_ok]
    exact ⟨by simp, by simp, hhttp.imp_right And.left, withAttempt s b, rfl, rfl, rfl, rfl⟩
  have happly : applyResolve (unknownResult a.id http slug code) s.ordinal now r =
      .ok (r.putStep (withAttempt s b), b) := by
    simp only [applyResolve, committed, Prod.exists]
    exact ⟨s, get?_of_mem hs, a, hbyId, by simp [unknownResult], _, _, _, hcomplete, rfl, rfl⟩
  simp only [exec, resolveExecutionMutation, Tables.onRun, committed, Prod.exists]
  refine ⟨fun _ => hcode, ?_, _, hhome, r, get?_of_mem hr, _, _, happly, rfl, rfl⟩
  rcases hhttp with h | h
  · simp [unknownResult, h]
  · exact h.2

end

theorem kind_of_attempt (h : s.attempt k = some a) : a.kind = k := by
  have hkinds := s.checked.kinds
  cases k with
  | «open» => simpa [show s.openAttempt = some a from h] using hkinds.1
  | finalize => simpa [show s.finalizeAttempt = some a from h] using hkinds.2

theorem open_resolved_withAttempt {b : Attempt} (hj : s.Journal) (hk : b.kind = k)
    (ha : (s.attempt k).isSome) (hb : b.isResolved) :
    (withAttempt s b).openAttempt.any fun a => a.isResolved := by
  cases k with
  | «open» => simp [withAttempt, setAttempt, hk, hb]
  | finalize => simpa [withAttempt, setAttempt, hk] using hj.opened (.inr ha)

theorem isolationTaken_eq_false {id : UUID} : t.isolationTaken id = false ↔
    ∀ r ∈ t.runs, ∀ s ∈ r.steps, ∀ i ∈ s.isolations, i.id ≠ id := by
  simp [Tables.isolationTaken, ← mem_rows]

/-- A mutation in flight can be resolved as unknown, and the unknown outcome of its Step
recorded, by the worker that holds the claim. -/
theorem unknown_enabled (ht : t.Inv) (hr : r ∈ t.runs) (hs : s ∈ r.steps) (hrun : r.state ≠ .paused)
    {c : Claim} (hclaim : s.claim = some c) (ha : s.attempt k = some a) {d : Time}
    (hstatus : a.status = .dispatched d) (hphase : s.state = phase k) {http : ℕ}
    (hhttp : http = 0 ∨ 100 ≤ http ∧ http ≤ 599) (slug : Code) (hcode : code.text ≠ "")
    (hid : t.isolationTaken isolation = false) (now now' : Time) :
    ∃ command t₁ b t₂ v, s.activeCommand = some command ∧
      exec (.resolve (unknownResult a.id http slug code)) t now = .ok (t₁, b) ∧
      exec (.observe (unknownObservation r.id s.toStepRow command c.id a.id isolation code)) t₁ now'
        = .ok (t₂, v) ∧
      t₂.stepState r.id s.ordinal = some .outcomeUnknown := by
  obtain ⟨b, hresolve, hkind, hbid, hb⟩ :=
    resolve_unknown_enabled ht hr hs ha hstatus hhttp slug hcode now
  have hinv := ht.runs r hr
  have hactive : s.state.active := by rw [hphase]; cases k <;> rfl
  obtain ⟨command, hmem, hcommand, hprogress⟩ := hinv.commands s hs (.inl hactive)
  -- the tables between the two transactions
  let s₁ := withAttempt s b
  let r₁ := r.putStep s₁
  let t₁ : Tables := ⟨t.runs.put r₁⟩
  have ht₁ : t₁.Inv := (exec_change hresolve).inv ht
  have hord : s₁.ordinal = s.ordinal := ordinal_setAttempt ..
  have hstate₁ : s₁.state = s.state := state_setAttempt ..
  have hr₁ : r₁ ∈ t₁.runs := mem_put_self hr rfl
  have hs₁ : s₁ ∈ r₁.steps := mem_put_self hs hord.symm
  have hphase₁ : s₁.state = .opening ∨ s₁.state = .finalizing := by
    rw [hstate₁, hphase]
    cases k <;> simp [phase]
  have hresolved₁ : (attemptById s₁.toStepRow a.id).any fun a => a.isResolved := by
    have hself : s₁.attempt b.kind = some b := attempt_setAttempt_self ..
    rw [← hbid, attemptById_of_attempt ht₁ hr₁ hs₁ hself]
    exact hb
  have hid₁ : t₁.isolationTaken isolation = false := by
    rw [isolationTaken_eq_false] at hid ⊢
    intro u hu v hv
    rcases eq_or_mem_of_mem_put hu with rfl | ⟨hu, -⟩
    · rcases eq_or_mem_of_mem_put hv with rfl | ⟨hv, -⟩
      · rw [show s₁.isolations = s.isolations from isolations_setAttempt ..]
        exact hid r hr s hs
      · exact hid r hr v hv
    · exact hid u hu v hv
  have hopen₁ := open_resolved_withAttempt (hinv.journal s hs) (hkind.trans (kind_of_attempt ha))
    (by rw [ha]; rfl) hb
  have hcommand₁ : s₁.activeCommand = some command.id :=
    (activeCommand_setAttempt ..).trans hcommand
  have hprogress₁ : InProgress r₁ command.id :=
    any_eq_true.mpr ⟨command, hmem, by simp [hprogress]⟩
  have hclaim₁ : s₁.claim.any fun x => x.id = c.id := by
    rw [show s₁.claim = some c from (claim_setAttempt ..).trans hclaim]
    simp
  obtain ⟨r₂, v, hobserve, hmove⟩ := observe_unknown_enabled ht₁ hr₁ hs₁ hphase₁ hrun hcommand₁
    hprogress₁ hclaim₁ hopen₁ hresolved₁ hid₁ hcode now'
  have hsame : unknownObservation r₁.id s₁.toStepRow command.id c.id a.id isolation code =
      unknownObservation r.id s.toStepRow command.id c.id a.id isolation code := by
    unfold unknownObservation
    rw [hord, hstate₁]
    rfl
  rw [hsame] at hobserve hmove
  obtain ⟨u, v', hu, hobs, hord', hunknown, -, steps⟩ := hmove.recorded
  refine ⟨command.id, t₁, b, _, v, hcommand, hresolve, hobserve, ?_⟩
  exact Tables.stepState_eq_some.mpr ⟨r₂, mem_put_self hr₁ hmove.frozen.id.symm,
    hmove.frozen.id, v', Run.mem_sweep_self hu steps, hord'.trans hobs.ordinal, hunknown⟩

end unknown

end Store
end Athena.Execution
