import Athena.Execution.Reachable

/-!
# The Steps that end with a Step

A Step that ends can take unstarted Steps behind it along: those of its wallet, or those of its
market.  The same transaction settles the Run, and if that was asked to terminate the Steps that
are left end there too, without being executed.
-/

namespace Athena.Execution

open Athena.Lib Table Queries Store Run

/-- The Steps behind `source` that a scope ends with it. -/
def Run.scoped (r : Run) (source : StepRow) (scope : StepScope) (u : Step) : Bool :=
  source.ordinal < u.ordinal && ((r.itemOf source).map (·.market)).isSome &&
    ((r.itemOf u.toStepRow).map (·.market)).isSome &&
    match scope with
    | .remainingWallet => u.walletOrdinal = source.walletOrdinal
    | .remainingMarket =>
      (r.itemOf u.toStepRow).map (·.market) = (r.itemOf source).map (·.market)
    | .current => false

@[simp] theorem Run.scoped_current (r : Run) (source : StepRow) (u : Step) :
    r.scoped source .current u = false := by
  simp [Run.scoped]

/-- What the settlement of the Run makes of a Step. -/
def Run.closing (r : Run) (now : Time) : Step → Step :=
  if r.state = .terminateRequested then
    endPendingIf (fun _ => true) .notExecuted .runTerminated now
  else id

/-- What becomes of a Step of the Run when `s` ends as `s'`. -/
def Run.endsWith (r : Run) (s s' : Step) (scope : StepScope) (code : Code) (now : Time) (u : Step) :
    Step :=
  if u.ordinal = s.ordinal then s'
  else r.closing now (endPendingIf (r.scoped s.toStepRow scope) .skipped code now u)

/-- In the Run `r` the Step `s` ended as `s'`, together with a scope. -/
structure Run.Ends (r : Run) (s s' : Step) (scope : StepScope) (code : Code) (now : Time)
    (r' : Run) : Prop where
  id : r'.id = r.id
  ordinal : s'.ordinal = s.ordinal
  terminal : s'.state.terminal
  reasonCode : s'.reasonCode = code
  attempts : ∀ k, s'.attempt k = s.attempt k
  rows : r'.steps.rows = r.steps.rows.map (r.endsWith s s' scope code now)

/-- The Step that an operation ends together with a scope, and the code that the scope is
skipped with. -/
def Operation.ending : Operation → Option (StepRef × StepScope × Code)
  | .preflight req =>
    if req.nextState = .opening then none
    else req.skipScope.map fun scope => (req.step, scope, req.reasonCode)
  | .observe req => req.skipScope.map fun scope => (req.step, scope, req.reasonCode)
  | _ => none

section rows
variable {r r' : Run} {s s' : Step} {code : Code} {scope : StepScope} {now : Time}

theorem closing_of_ne (h : s.state ≠ .pending) : r.closing now s = s := by
  unfold closing
  split
  · exact dif_neg fun hp => h hp.1
  · rfl

theorem map_closing (h : r.state ≠ .terminateRequested) (l : List Step) :
    l.map (r.closing now) = l := by
  simp [closing, h]

theorem rows_settleRun (h : settleRun r now = .ok r') :
    r'.steps.rows = r.steps.rows.map (r.closing now) := by
  unfold settleRun at h
  split at h
  · rename_i hstate
    simp only [checkpointExecutionRunPaused, committed, writeRow_eq_ok] at h
    obtain ⟨_, ⟨-, hc, rfl⟩, rfl⟩ := h
    exact (map_closing (by simp [hstate]) _).symm
  · rename_i hstate
    simp only [completeExecutionRunTermination, endPendingSteps, refreshExecutionRunProgress,
      committed, writeRow_eq_ok] at h
    obtain ⟨_, ⟨hc', rfl⟩, _, ⟨-, hc, rfl⟩, rfl⟩ := h
    rw [closing, if_pos hstate]
    rfl
  · rename_i hstate
    rw [map_closing (by simp [hstate])]
    split at h
    · simp only [completeExecutionRun, committed, writeRow_eq_ok] at h
      obtain ⟨_, ⟨-, hc, rfl⟩, rfl⟩ := h
      rfl
    · obtain ⟨hc, rfl⟩ := writeRow_eq_ok.mp h
      rfl
  · rw [map_closing (by assumption)]
    obtain ⟨hc, rfl⟩ := writeRow_eq_ok.mp h
    rfl

theorem rows_skipScope (r : Run) (source : StepRow) (scope : StepScope) (code : Code) (now : Time) :
    (skipScope r source (some scope) code now).steps.rows =
      r.steps.rows.map (endPendingIf (r.scoped source scope) .skipped code now) := by
  cases scope with
  | current => exact (List.map_id'' (fun u => dif_neg (by simp)) _).symm
  | remainingWallet | remainingMarket => rfl

theorem rows_endsWith (source : StepRow) (hord : s'.ordinal = s.ordinal)
    (hended : s'.state ≠ .pending)
    (hscoped : ∀ u, (r.putStep s').scoped source scope u = r.scoped s.toStepRow scope u)
    (h : r'.steps.rows = (skipScope (r.putStep s') source (some scope) code now).steps.rows.map
      (r.closing now)) :
    r'.steps.rows = r.steps.rows.map (r.endsWith s s' scope code now) := by
  have hput : (r.putStep s').steps.rows =
      r.steps.rows.map fun u => if u.ordinal = s'.ordinal then s' else u := rfl
  rw [h, rows_skipScope, hput, List.map_map, List.map_map]
  refine List.map_congr_left fun u _ => ?_
  dsimp only [Function.comp, endsWith]
  by_cases hu : u.ordinal = s.ordinal
  · -- the Step that ends is not pending, so neither the scope nor the settlement touches it
    simp [hord, hu, endPendingIf, hended, closing_of_ne]
  · simp [hord, hu, funext hscoped]

theorem rows_finalize {source : StepRow} (hord : s'.ordinal = s.ordinal)
    (hended : s'.state ≠ .pending)
    (hscoped : ∀ u, (r.putStep s').scoped source scope u = r.scoped s.toStepRow scope u)
    (h : finalizeExecutionStepProgress
      (skipScope (r.putStep s') source (some scope) code now) now = .ok r') :
    r'.steps.rows = r.steps.rows.map (r.endsWith s s' scope code now) := by
  refine rows_endsWith source hord hended hscoped ?_
  simp only [finalizeExecutionStepProgress, bind_eq_ok] at h
  obtain ⟨r₁, hrefresh, hsettle⟩ := h
  obtain ⟨steps, heq, -⟩ := skipScope_eq (r.putStep s') source (some scope) code now
  rw [heq] at hrefresh ⊢
  obtain ⟨hc, rfl⟩ := writeRow_eq_ok.mp hrefresh
  exact rows_settleRun hsettle

end rows

section ends
variable {t : Tables} {r r' : Run} {s s' x : Step} {scope : StepScope} {now : Time}

theorem ends_applyPreflight {req : PreflightRequest} (hne : req.nextState ≠ .opening)
    (hnext : req.nextState = .opening ∨ req.nextState = .satisfied ∨ req.nextState = .skipped ∨
      req.nextState = .failed) (hscope : req.skipScope = some scope)
    (h : applyPreflight req now r = .ok (r', x)) :
    ∃ s s', r.steps.get? req.step.ordinal = some s ∧
      r.Ends s s' scope req.reasonCode now r' := by
  have hid := (move_applyPreflight (t := .empty) hnext h).frozen.id
  simp only [applyPreflight, completeExecutionStepPreflight, committed, Prod.exists,
    Step.write_eq_ok, hne, if_false, hscope] at h
  obtain ⟨-, -, -, _, _, ⟨s, hget, -, s', hrow, rfl, rfl⟩, r₁, hsettle, r₂, hcomplete, rfl, -⟩ := h
  have hterm : s'.state.terminal := by
    rw [hrow]
    rcases hnext.resolve_left hne with h | h | h <;> simp [h, StepState.terminal]
  refine ⟨s, s', hget, hid, by rw [hrow], hterm, by rw [hrow],
    fun k => by rw [hrow]; cases k <;> rfl, ?_⟩
  rw [(touches_completeExecutionCommand (t := .empty) hcomplete).steps]
  exact rows_finalize (by rw [hrow]) (ne_pending_of_terminal hterm)
    (fun u => by rw [hrow]; rfl) hsettle

section observation
variable {req : ObservationRequest}

theorem skipExecutionTerminalScope_of_scope (h : observationScope req)
    (hscope : req.skipScope = some scope) (r : Run) (source : StepRow) (code : Code) (now : Time) :
    req.nextState.terminal ∧ skipExecutionTerminalScope r source req.nextState req.skipScope code
      now = skipScope r source (some scope) code now := by
  simp only [observationScope, hscope, Bool.and_eq_true] at h
  by_cases hskip : req.nextState = .skipped
  · simp_all [skipExecutionTerminalScope, StepState.terminal]
  · simp_all [skipExecutionTerminalScope, StepState.terminal]

theorem rows_reconciled (mem : s ∈ r.steps) (hobs : s.Observes req.statement)
    (hrow : s'.toStepRow = Queries.observed req.statement now s.toStepRow)
    (hterm : req.nextState.terminal)
    (hstate : r.state = .reconciliationRequired ∨ r.state = .terminated)
    (hskip : ∀ r source, skipExecutionTerminalScope r source req.nextState req.skipScope
      req.reasonCode now = skipScope r source (some scope) req.reasonCode now)
    (h : reconciled req s'.toStepRow now (r.putStep s') = .ok r') :
    ∃ s'' : Step, s''.toStepRow = { s'.toStepRow with isolations := s''.isolations } ∧
      r'.steps.rows = r.steps.rows.map (r.endsWith s s'' scope req.reasonCode now) := by
  simp only [reconciled, committed, hskip] at h
  obtain ⟨id, -, r₁, hresolve, r₂, hrefresh, r₃, hend, hcomplete⟩ := h
  obtain ⟨u, s'', hget, -, hrow'', rfl⟩ := resolveExecutionStepIsolation_ok hresolve
  have hord' : s'.ordinal = s.ordinal := by rw [hrow]; rfl
  obtain rfl := get?_putStep mem hord' hobs.ordinal hget
  have hord'' : s''.ordinal = u.ordinal := by rw [hrow'']
  rw [putStep_putStep hord''.symm] at hrefresh
  obtain ⟨steps, heq, -⟩ := skipScope_eq (r.putStep s'') u.toStepRow (some scope) req.reasonCode now
  obtain ⟨hrec, hsteps⟩ := refreshExecutionRunProgress_ok .empty hrefresh
  have hstate₂ : r₂.state = .reconciliationRequired ∨ r₂.state = .terminated := by
    rw [hrec.state, heq]
    exact hstate
  obtain ⟨-, hsteps₃, -⟩ := resolved_of_refreshed (t := .empty) hrec.refreshed hstate₂ hend
    (touches_completeExecutionCommand hcomplete)
  refine ⟨s'', by rw [hrow''], rows_endsWith u.toStepRow (hord''.trans hord') ?_ (fun v => ?_) ?_⟩
  · rw [hrow'', hrow]
    exact ne_pending_of_terminal hterm
  · rw [hrow]
    rfl
  · rw [hsteps₃, hsteps, map_closing]
    rcases hstate with h | h <;> simp [h]

theorem ends_applyObservation (hallowed : transitionAllowed req.expectedState req.nextState)
    (hdata : observationData req now) (hvalid : observationScope req)
    (hscope : req.skipScope = some scope) (h : applyObservation t req now r = .ok (r', x)) :
    ∃ s s', r.steps.get? req.step.ordinal = some s ∧ s'.state = req.nextState ∧
      r.Ends s s' scope req.reasonCode now r' := by
  have hid := (move_applyObservation hallowed hdata h).frozen.id
  have hskip := skipExecutionTerminalScope_of_scope hvalid hscope
  have hterm := (hskip r x.toStepRow .empty now).1
  have hnot : req.nextState ≠ .awaitingCompletion ∧ req.nextState ≠ .outcomeUnknown := by
    constructor <;> (intro h; simp [h, StepState.terminal] at hterm)
  simp only [applyObservation, committed, Prod.exists, hnot, if_false]
    at h
  obtain ⟨_, hget, -, -, hstate, r₁, s', hrecord, h⟩ := h
  obtain ⟨s, mem, hobs, hrow, -, rfl⟩ := recordExecutionRunProviderObservation_ok
    (o := req.statement) hallowed (polled_of_observationData hdata) hrecord
  obtain rfl := eq_of_key_eq mem (mem_of_get? hget)
    (hobs.ordinal.trans (get?_eq_some.mp hget).2.symm)
  split at h
  · rename_i hwas
    simp only [committed] at h
    obtain ⟨_, h, rfl, -⟩ := h
    obtain ⟨s'', hrow'', hrows⟩ := rows_reconciled mem hobs hrow hterm (hstate hwas)
      (fun r source => (hskip r source _ _).2) h
    rw [hrow] at hrow''
    exact ⟨s, s'', hget, by rw [hrow'']; rfl, hid, by rw [hrow'']; rfl,
      by rw [hrow'']; exact hterm, by rw [hrow'']; rfl,
      fun k => by rw [hrow'']; cases k <;> rfl, hrows⟩
  · simp only [concluded, committed, (hskip _ _ _ _).2] at h
    obtain ⟨_, ⟨r₂, hsettle, hcomplete⟩, rfl, -⟩ := h
    refine ⟨s, s', hget, by rw [hrow]; rfl, hid, by rw [hrow]; rfl, by rw [hrow]; exact hterm,
      by rw [hrow]; rfl, fun k => by rw [hrow]; cases k <;> rfl, ?_⟩
    rw [(touches_completeExecutionCommand (t := .empty) hcomplete).steps]
    exact rows_finalize (by rw [hrow]; rfl)
      (ne_pending_of_terminal (by rw [hrow]; exact hterm)) (fun u => by rw [hrow]; rfl) hsettle

end observation
end ends

/-- A transaction that ends a Step with a scope writes no other Run, ends exactly the Steps that
are pending behind it and share its wallet or its market, and keeps every other Step unless the
Run was asked to terminate. -/
theorem scope_ends_exactly {op : Operation} {t t' : Tables} {step : StepRef} {scope : StepScope}
    {code : Code} {now : Time} {a : op.Reply} (ht : Reachable t)
    (hend : op.ending = some (step, scope, code)) (h : exec op t now = .ok (t', a)) :
    ∃ r s s' r', t.runs.get? step.run = some r ∧ r.steps.get? step.ordinal = some s ∧
      (∀ u ∈ r.steps, (r.itemOf u.toStepRow).isSome) ∧ r.Ends s s' scope code now r' ∧
      t' = ⟨t.runs.put r'⟩ := by
  have hlinked {r : Run} (hr : t.runs.get? step.run = some r) (u : Step) (hu : u ∈ r.steps) :
      (r.itemOf u.toStepRow).isSome := by
    have := (ht.inv.runs r (mem_of_get? hr)).snapshot.linked u hu
    simp only [pairOf, Option.bind_eq_bind] at this
    cases hi : r.itemOf u.toStepRow with
    | none => simp [hi] at this
    | some => rfl
  cases op with
  | preflight =>
    simp only [Operation.ending] at hend
    split at hend
    · cases hend
    · rename_i hne
      obtain ⟨scope, hscope, ⟨⟩⟩ := Option.map_eq_some_iff.mp hend
      simp only [exec, completeExecutionPreflight, Tables.onRun, committed, Prod.exists] at h
      obtain ⟨-, hnext, -, -, r, hr, r', x, happly, rfl, -⟩ := h
      obtain ⟨s, s', hs, hends⟩ := ends_applyPreflight hne hnext hscope happly
      exact ⟨r, s, s', r', hr, hs, hlinked hr, hends, rfl⟩
  | observe =>
    obtain ⟨scope, hscope, ⟨⟩⟩ := Option.map_eq_some_iff.mp hend
    simp only [exec, recordExecutionProviderObservation, Tables.onRun, committed, Prod.exists] at h
    obtain ⟨-, hallowed, ⟨hdata, hvalid, -⟩, r, hr, r', x, happly, rfl, -⟩ := h
    obtain ⟨s, s', hs, -, hends⟩ := ends_applyObservation hallowed hdata hvalid hscope happly
    exact ⟨r, s, s', r', hr, hs, hlinked hr, hends, rfl⟩
  | _ => cases hend

namespace Sample

def claimed : List (Operation × Time) := started ++ [(claim 103 3 1, 4)]

def ending (scope : StepScope) : Operation :=
  .preflight ⟨⟨1, 1⟩, 103, .command 103, .skipped, some scope, .timeout⟩

end Sample

open Sample

theorem scope_ends_exactly_sample : ∃ t' a r s s' r',
    exec (ending .remainingWallet) (after claimed) 5 = .ok (t', a) ∧
    Run.Ends r s s' .remainingWallet .timeout 5 r' ∧
    t' = ⟨(after claimed).runs.put r'⟩ := by
  obtain ⟨⟨t', a⟩, h, -⟩ := exists_of_commitsWith (p := fun _ => true)
    (by decide +kernel :
      commitsWith (exec (ending .remainingWallet) (after claimed) 5) _)
  obtain ⟨r, s, s', r', -, -, -, hends, heq⟩ :=
    scope_ends_exactly (reachable_after claimed) rfl h
  exact ⟨t', a, r, s, s', r', h, hends, heq⟩

def Sample.terminating : Tables :=
  after (claimed ++ [(.terminate (request 105 3), 5)])

/-- The second Step is of another market than the first, and it ends with the first because the
Run was asked to terminate. -/
theorem scope_and_termination :
    ((terminating.runs.get? 1).any fun r => (r.steps.get? 1).any fun s =>
      (r.steps.get? 2).any fun u =>
        u.state = .pending && !r.scoped s.toStepRow .remainingMarket u) ∧
    commitsWith (exec (ending .remainingMarket) terminating 6) fun result =>
      (result.1.runs.get? 1).any fun r => (r.steps.get? 2).any fun u => u.state = .notExecuted :=
  ⟨by decide +kernel, by decide +kernel⟩

end Athena.Execution
