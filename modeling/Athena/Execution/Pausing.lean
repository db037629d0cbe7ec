import Athena.Execution.Enabled

/-!
# Pausing a Run

A pause should wait for the Step in flight.  A command that pauses counts every active
Step as in flight, but `PauseExecutionRunForFailure` leaves out the Steps in their
preflight, and the end of a preflight does not look at the state of the Run.  So a
worker that lost its claim can pause the Run of a Step that its successor then opens,
and the outcome of that Open cannot be recorded.  `paused_is_quiet` says that this is
the only way.
-/

namespace Athena.Execution

open Athena.Lib Table Queries StepState

/-! ## Paused Runs -/

def Run.Quiet (r : Run) : Prop := r.state = .paused → ∀ s ∈ r.steps, s.state.mutating = false

namespace Run

variable {t : Tables} {e : Event} {r r' : Run}

theorem not_mutating_of_not_busy (h : ∀ s ∈ r.steps, s.state.busy = false) :
    ∀ s ∈ r.steps, s.state.mutating = false := by
  intro s hs
  by_contra hm
  have hb := busy_of_active (active_of_mutating (by simpa using hm))
  simp [h s hs] at hb

theorem not_mutating_of_not_active (h : r.hasActiveStep = false) :
    ∀ s ∈ r.steps, s.state.mutating = false := by
  intro s hs
  by_contra hm
  exact List.any_eq_false.mp h s hs (active_of_mutating (by simpa using hm))

theorem mutating_of_hold {s s' : StepRow} (h : StepRow.Hold e s s') (he : e ≠ .opening)
    (hm : s'.state.mutating) : s.state.mutating := by
  cases h with
  | claim | reconcile => exact hm
  | prepare | dispatch | resolve => simpa using hm
  | opening => exact absurd rfl he
  | opened _ _ _ _ _ h | respond _ _ _ _ _ _ _ h | signing h | signed _ h => rw [h]; rfl
  | observe _ _ h hnext =>
    rcases hnext with hnext | ⟨hnext, -⟩
    · rcases (StepRow.transitionAllowed_spec h.allowed).2 with ⟨-, hm⟩ | hn | hn
      · exact h.state ▸ hm
      · simp [hnext] at hn
      · simp [hnext, terminal] at hn
    · simp [observed, hnext, mutating] at hm

theorem Move.quiet (h : Move t e r r') (hseq : r.Sequential) (hr : r.Quiet)
    (he : e = .opening → r.state ≠ .paused) : r'.Quiet := by
  intro hpaused
  have not_paused {P : Prop} {state : RunState} (h : r'.state = state) (hne : state ≠ .paused) :
      P := absurd (h.symm.trans hpaused) hne
  cases h with
  | control _ steps _ state =>
    rw [steps]
    rw [hpaused] at state
    generalize hstate : RunState.paused = target at state
    cases state with
    | same => exact hr hstate.symm
    | pause _ idle => exact not_mutating_of_not_active idle
    | failurePause _ idle =>
      intro s hs
      simpa using List.any_eq_false.mp idle s hs
    | _ => cases hstate
  | terminate _ _ _ state => exact not_paused state nofun
  | claim _ _ _ _ _ _ running _ _ _ _ _ _ _ state => exact not_paused (state.trans running) nofun
  | hold _ s _ mem held steps _ state =>
    have hquiet := hr (state.symm.trans hpaused)
    intro v hv
    rw [steps] at hv
    rcases eq_or_mem_of_mem_put hv with rfl | ⟨hv, -⟩
    · by_contra hm
      have := mutating_of_hold held (fun h => he h (state.symm.trans hpaused)) (by simpa using hm)
      simp [hquiet s mem] at this
    · exact hquiet v hv
  | finish _ _ _ mem active finished steps =>
    exact not_mutating_of_not_busy (not_busy_of_finished hseq mem
      (busy_of_active active) steps (Store.terminal_of_finish finished))
  | isolate _ _ _ _ _ _ _ _ _ _ _ _ _ _ _ _ _ blocked =>
    cases blocked with
    | reconciliation _ h => exact not_paused h nofun
    | terminated _ h => exact not_paused h nofun
  | reconcile _ _ _ _ _ _ mem was _ terminal row _ steps =>
    exact not_mutating_of_not_busy (not_busy_of_finished hseq mem (by rw [was]; rfl) steps
      (by rw [row]; exact terminal))

end Run

/-! ## Runs without a late Open -/

def Operation.opensPaused (op : Operation) (t : Tables) : Bool :=
  match op with
  | .preflight req => req.nextState = .opening &&
      (t.runs.get? req.step.run).any fun r => r.state = .paused
  | _ => false

namespace Store

def CommitsTimely (t t' : Tables) : Prop :=
  ∃ op now a, op.opensPaused t = false ∧ exec op t now = .ok (t', a)

/-- Some sequence of transactions, none of which lets a Step of a paused Run open, leads
to these tables. -/
def ReachableTimely (t : Tables) : Prop := Relation.ReflTransGen CommitsTimely .empty t

variable {t t' : Tables}

theorem ReachableTimely.reachable (h : ReachableTimely t) : Reachable t := by
  induction h with
  | refl => exact .refl
  | tail _ hstep ih =>
    obtain ⟨op, now, a, -, h⟩ := hstep
    exact ih.tail ⟨op, now, a, h⟩

theorem not_paused_of_opening {op : Operation} (hop : op.opensPaused t = false)
    (he : op.event = .opening) {r : Run} (hr : r ∈ t.runs)
    (home : ∀ id, op.home = some id → r.id = id) : r.state ≠ .paused := by
  intro hpaused
  cases op with
  | preflight req =>
    have hnext : req.nextState = .opening := by
      by_contra hne
      simp [Operation.event, hne] at he
    have hget : t.runs.get? req.step.run = some r := home _ rfl ▸ get?_of_mem hr
    simp [Operation.opensPaused, hnext, hget, hpaused] at hop
  | _ => cases he

theorem CommitsTimely.quiet (h : CommitsTimely t t') (ht : t.Inv) (hq : ∀ r ∈ t.runs, r.Quiet) :
    ∀ r ∈ t'.runs, r.Quiet := by
  obtain ⟨op, now, a, hop, h⟩ := h
  cases exec_change h with
  | same => exact hq
  | created r new insert =>
    intro u hu
    rcases (Table.mem_insert? insert).mp hu with hu | rfl
    · exact hq u hu
    · intro hpaused
      rw [new.state] at hpaused
      cases hpaused
  | moved r _ mem home move =>
    intro u hu
    rcases eq_or_mem_of_mem_put hu with rfl | ⟨hu, -⟩
    · exact move.quiet (ht.runs r mem).sequential (hq r mem)
        fun he => not_paused_of_opening hop he mem home
    · exact hq u hu

theorem ReachableTimely.quiet (h : ReachableTimely t) : ∀ r ∈ t.runs, r.Quiet := by
  induction h with
  | refl => intro r hr; simp [Tables.empty] at hr
  | tail hrest hstep ih => exact hstep.quiet (ReachableTimely.reachable hrest).inv ih

theorem mutating_of_dispatch {req : DispatchRequest} {now : Time} {a : Attempt}
    (h : exec (.dispatch req) t now = .ok (t', a)) {r : Run} (hr : r ∈ t.runs)
    (hid : r.id = req.step.run) : ∃ s ∈ r.steps, s.state.mutating := by
  simp only [exec, dispatchExecutionMutation, Tables.onRun,
    Queries.dispatchExecutionMutationAttempt, committed]
    at h
  obtain ⟨-, r', hget, _, ⟨s, hs, b, -, -, -, hstate, -⟩, -⟩ := h
  rw [← hid, get?_of_mem hr, Option.some.injEq] at hget
  subst hget
  exact ⟨s, mem_of_get? hs, by rw [hstate]; cases b.kind <;> rfl⟩

theorem phase_of_inFlight {s : Step} (hj : s.Journal) {c : Claim} (hclaim : s.claim = some c)
    {k : MutationKind} {a : Attempt} (ha : s.attempt k = some a) {d : Time}
    (hstatus : a.status = .dispatched d) : s.state = phase k ∨ s.state = .outcomeUnknown := by
  cases k with
  | «open» => exact .inl (hj.openInFlight a d ha hstatus)
  | finalize =>
    rcases hj.finalizeInFlight a d ha hstatus with h | h | h
    · exact .inl h
    · exact .inr h
    · have hclaimed := hj.claimed (by rw [hclaim]; rfl)
      cases hs : s.state <;>
        simp_all [recoverable, terminal, active]

/-- The worker with this claim can resolve the attempt as unknown and then record the
outcome of the Step as unknown with an isolation: both transactions commit, whatever
their codes and their times. -/
def CanRecordUnknown (t : Tables) (r : Run) (s : Step) (claim : ClaimId) (a : Attempt) : Prop :=
  ∀ (http : ℕ) (slug code : Code) (isolation : UUID) (now now' : Time),
    http = 0 ∨ 100 ≤ http ∧ http ≤ 599 → code.text ≠ "" → t.isolationTaken isolation = false →
    ∃ command t₁ b t₂ v, s.activeCommand = some command ∧
      exec (.resolve (unknownResult a.id http slug code)) t now = .ok (t₁, b) ∧
      exec (.observe (unknownObservation r.id s.toStepRow command claim a.id isolation code)) t₁
        now' = .ok (t₂, v) ∧
      ∃ r₂ ∈ t₂.runs, r₂.id = r.id ∧ ∃ s₂ ∈ r₂.steps, s₂.ordinal = s.ordinal ∧
        s₂.state = .outcomeUnknown ∧ ∃ i, s₂.unresolvedIsolations = [i]

/-- While no preflight lets a Step of a paused Run open, a paused Run has no Step past
its preflight and nothing is dispatched for it, and the holder of a claim can record an
unanswered mutation as unknown with its isolation, unless that was done before. -/
theorem paused_is_quiet (ht : ReachableTimely t) :
    (∀ r ∈ t.runs, r.state = .paused → ∀ s ∈ r.steps, s.state.mutating = false) ∧
    (∀ req now t' a, exec (.dispatch req) t now = .ok (t', a) →
      ∀ r ∈ t.runs, r.id = req.step.run → r.state ≠ .paused) ∧
    (∀ r ∈ t.runs, ∀ s ∈ r.steps, ∀ c k a d, s.claim = some c → s.attempt k = some a →
      a.status = .dispatched d → CanRecordUnknown t r s c.id a ∨
        (s.state = .outcomeUnknown ∧ ∃ i, s.unresolvedIsolations = [i])) := by
  have hinv := ht.reachable.inv
  have hquiet := ht.quiet
  refine ⟨hquiet, ?_, ?_⟩
  · intro req now t' a h r hr hid hpaused
    obtain ⟨s, hs, hm⟩ := mutating_of_dispatch h hr hid
    simp [hquiet r hr hpaused s hs] at hm
  · intro r hr s hs c k a d hclaim ha hstatus
    have hrun := hinv.runs r hr
    rcases phase_of_inFlight (hrun.journal s hs) hclaim ha hstatus with hphase | hunknown
    · left
      have hpaused : r.state ≠ .paused := by
        intro hpaused
        have hm := hquiet r hr hpaused s hs
        rw [hphase] at hm
        cases k <;> cases hm
      intro http slug code isolation now now' hhttp hcode hid
      obtain ⟨command, t₁, b, t₂, v, hcommand, hresolve, hobserve, hstate⟩ :=
        unknown_enabled hinv hr hs hpaused hclaim ha hstatus hphase hhttp slug hcode hid now now'
      refine ⟨command, t₁, b, t₂, v, hcommand, hresolve, hobserve, ?_⟩
      obtain ⟨r₂, hr₂, hid₂, s₂, hs₂, hord₂, hstate₂⟩ := Tables.stepState_eq_some.mp hstate
      have hinv₂ := (exec_change hobserve).inv ((exec_change hresolve).inv hinv)
      obtain ⟨i, hi, -⟩ := ((hinv₂.runs r₂ hr₂).isolates s₂ hs₂).unknown hstate₂
      exact ⟨r₂, hr₂, hid₂, s₂, hs₂, hord₂, hstate₂, i, hi⟩
    · obtain ⟨i, hi, -⟩ := (hrun.isolates s hs).unknown hunknown
      exact .inr ⟨hunknown, i, hi⟩

/-! ## A late Open -/

/-- None of the transactions, tried one after the other, lets a Step of a paused Run
open. -/
def timely : List (Operation × Time) → Tables → Bool
  | [], _ => true
  | first :: rest, t => !first.1.opensPaused t && timely rest (attempt t first)

theorem reachesTimely_foldl {ops : List (Operation × Time)} (h : timely ops t) :
    Relation.ReflTransGen CommitsTimely t (ops.foldl attempt t) := by
  induction ops generalizing t with
  | nil => exact .refl
  | cons _ _ ih =>
    simp only [timely, Bool.and_eq_true, Bool.not_eq_true'] at h
    refine .trans ?_ (ih h.2)
    unfold attempt
    split
    · rename_i t' a hexec
      exact .single ⟨_, _, a, h.1, hexec⟩
    · exact .refl

end Store

namespace Sample

def paused : List (Operation × Time) :=
  started ++ [(claim 103 3 1, 4), (.failurePause 1 .timeout, 5)]

/-- A second worker takes the claim of the first, which then pauses the Run; the second
one ends the preflight and prepares its Open. -/
def lateOpen : Tables := Store.after <| started ++
  [(claim 103 3 1, 4), (.recover ⟨1, 1⟩ ⟨.worker 1, "first", 20⟩, 5),
    (.recover ⟨1, 1⟩ ⟨.worker 2, "second", 100⟩, 30), (.failurePause 1 .timeout, 31),
    (.preflight ⟨⟨1, 1⟩, 103, .worker 2, .opening, none, .empty⟩, 32),
    (.prepare ⟨401, ⟨1, 1⟩, 103, .worker 2, .open, .open market "5" true, 0⟩, 33)]

def lateUnknown : Tables := [(.dispatch ⟨401, ⟨1, 1⟩, .worker 2⟩, 34),
  (.resolve (unknownResult 401 0 .empty .timeout), 35)].foldl Store.attempt lateOpen

end Sample

namespace Store

open Sample

theorem paused_is_quiet_sample :
    ((after paused).runs.get? 1).map (fun r => r.state) = some .paused ∧
    (after paused).stepState 1 1 = some .preflighting ∧
    ∀ r ∈ (after paused).runs, r.state = .paused → ∀ s ∈ r.steps, s.state.mutating = false :=
  ⟨by decide, by decide, (paused_is_quiet (reachesTimely_foldl (by decide))).1⟩

/-- A paused Run has a Step in OPENING, its Open is dispatched, and the unknown outcome
cannot be recorded by the worker that holds the claim. -/
theorem paused_run_opens : Reachable lateOpen ∧
    (lateOpen.runs.get? 1).map (fun r => r.state) = some .paused ∧
    lateOpen.stepState 1 1 = some .opening ∧
    (exec (.dispatch ⟨401, ⟨1, 1⟩, .worker 2⟩) lateOpen 34).isOk ∧
    (exec (.observe
      { step := ⟨1, 1⟩, command := 103, claim := .worker 2, expectedState := .opening
        nextState := .outcomeUnknown, reasonCode := .timeout, isolation := some 501
        attempt := some 401 }) lateUnknown 36).isOk = false :=
  ⟨reachable_after _, by decide, by decide, by decide, by decide⟩

end Store

end Athena.Execution
