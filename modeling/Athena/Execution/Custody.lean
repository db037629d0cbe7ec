import Athena.Execution.Reachable

/-!
# What a Run holds until it ends

A Run that has not ended holds the lock of its combination and one lock for each of its
Wallets.  When it ends it holds no lock and nobody coordinates it, and its counters are
those of its Steps all the time.
-/

namespace Athena.Execution

open Athena.Lib Queries List

namespace Run

/-! ## Counters and locks -/

section moves
variable {t : Tables} {o : Event} {r r' : Run}

theorem Move.counted (h : Move t o r r') (hr : r.counts = r.stepCounts) :
    r'.counts = r'.stepCounts := by
  have kept (counts : r'.counts = r.counts) (stepCounts : r'.stepCounts = r.stepCounts) :
      r'.counts = r'.stepCounts := by rw [counts, stepCounts, hr]
  cases h with
  | control keeps steps =>
    exact kept keeps.counts (by simp only [stepCounts, countState, steps])
  | terminate _ _ _ _ _ _ _ refreshed => exact refreshed.counts
  | claim s s' _ _ mem pending _ _ _ row steps _ _ _ _ counts =>
    have hord : s'.ordinal = s.ordinal := by rw [row]
    have hopen : s.state.terminal = false ∧ s'.state.terminal = false := by
      rw [pending, row]; exact ⟨rfl, rfl⟩
    exact kept counts (Store.stepCounts_put mem hord (.inr hopen) steps)
  | hold _ _ _ mem held steps keeps =>
    refine kept keeps.counts (Store.stepCounts_put mem held.evolves.ordinal ?_ steps)
    refine held.held.state.imp_right fun h => ?_
    obtain ⟨hactive, hmutating⟩ := h
    exact ⟨StepState.not_terminal_of_active hactive,
      StepState.not_terminal_of_active (StepState.active_of_mutating hmutating)⟩
  | finish _ _ _ _ _ _ _ _ settled =>
    cases settled with
    | paused _ _ refreshed | terminated _ _ refreshed | continued _ _ refreshed =>
      exact refreshed.counts
    | completed _ _ counts => exact counts
  | isolate _ _ _ _ _ _ _ _ _ _ _ _ _ _ _ _ _ blocked =>
    cases blocked with
    | reconciliation _ _ _ counts _ stepCounts => exact kept counts stepCounts
    | terminated _ _ refreshed => exact refreshed.counts
  | reconcile _ _ _ _ _ _ _ _ _ _ _ _ _ _ done =>
    cases done with
    | terminated _ _ refreshed | paused _ _ refreshed => exact refreshed.counts
    | completed _ _ counts => exact counts

end moves

structure Custody (r : Run) : Prop where
  held : r.state.terminal = false → r.combinationLock = some r.combinationId ∧
    r.walletLocks.Perm (r.wallets.map fun w => w.walletId) ∧ r.walletLocks.Nodup
  released : r.state.terminal → r.Released ∧ r.Retired
  coordinators : r.activeCoordinators ≤ 1
  authorizations : r.usableAuthorizations ≤ 1
  counted : r.counts = r.stepCounts

theorem Custody.step {t : Tables} {o : Event} {r r' : Run} (hr : r.Custody)
    (hmove : Move t o r r') : r'.Custody where
  held := by
    intro hopen
    rcases hmove.locks_cases with ⟨⟨hwallets, hcombination⟩, hterm⟩ | ⟨-, hterm⟩
    · obtain ⟨hlock, hperm, hnodup⟩ := hr.held (hterm ▸ hopen)
      rw [hwallets, hcombination, hmove.frozen.tidies.combination, hmove.frozen.wallets]
      exact ⟨hlock, hperm, hnodup⟩
    · simp [hopen] at hterm
  released := by
    intro hterm
    refine ⟨?_, hmove.frozen.tidies.retired (fun h => (hr.released h).2) hterm⟩
    rcases hmove.locks_cases with ⟨⟨hwallets, hcombination⟩, heq⟩ | ⟨hreleased, -⟩
    · obtain ⟨hw, hc⟩ := (hr.released (heq ▸ hterm)).1
      exact ⟨hwallets.trans hw, hcombination.trans hc⟩
    · exact hreleased
  coordinators := hmove.frozen.tidies.coordinators hr.coordinators
  authorizations := hmove.frozen.tidies.authorizations hr.authorizations
  counted := hmove.counted hr.counted

end Run

namespace Store

open Run

/-! ## A new Run -/

section create
variable {stepId : ℕ → UUID} {now : Time} {p : Plan}

theorem countP_snapshot {ps : List PlanStep} {steps : List Step}
    (h : snapshotExecutionRunSteps stepId now ps = .ok steps) (f : StepState → Bool) :
    (steps.countP fun s => f s.state) =
      ps.countP fun q => f (if q.disposition = .ready then .pending else .skipped) := by
  have hrows := congrArg (countP fun s : StepRow => f s.state) (snapshotExecutionRunSteps_ok h)
  rw [countP_map, countP_map] at hrows
  exact hrows

theorem stepCounts_created {r : Run}
    (h : snapshotExecutionRunSteps stepId now p.steps = .ok r.steps.rows) :
    r.stepCounts = ⟨p.steps.countP fun s => s.disposition = .skipped, 0, 0,
      p.steps.countP fun s => s.disposition = .skipped, 0, 0⟩ := by
  have hskipped (f : StepState → Bool) (hp : f .pending = false) (hs : f .skipped = true) :
      (r.steps.rows.countP fun s => f s.state) =
        p.steps.countP fun s => s.disposition = .skipped := by
    rw [countP_snapshot h]
    congr 1
    funext q
    cases q.disposition <;> simp [hp, hs]
  have hnone (f : StepState → Bool) (hp : f .pending = false) (hs : f .skipped = false) :
      (r.steps.rows.countP fun s => f s.state) = 0 := by
    rw [countP_snapshot h, countP_eq_zero]
    intro q _
    split <;> simp [hp, hs]
  unfold stepCounts countState
  rw [hskipped (fun s => s.terminal) rfl rfl, hskipped (fun s => s = .skipped) rfl rfl,
    hnone (fun s => s = .completed) rfl rfl, hnone (fun s => s = .satisfied) rfl rfl,
    hnone (fun s => s = .failed) rfl rfl, hnone (fun s => s = .notExecuted) rfl rfl]

theorem custody_admitted {env : Admission} {t t' : Tables} {req : CreateRequest} {runId : UUID}
    {r : Run} (h : admitExecutionRun env t req runId stepId now = .ok (t', r)) : r.Custody := by
  simp only [admitExecutionRun, committed] at h
  obtain ⟨p, -, -, ⟨-, hnodup⟩, -, -, -, first, -, -, -, -, steps, hsnapshot, r₀, hbuild, -, -, -,
    -, runs, -, -, rfl⟩ := h
  unfold buildRun at hbuild
  split at hbuild
  · cases hbuild
    exact
      { held := fun _ => ⟨rfl, perm_insertionSort .., hnodup⟩
        released := by simp [newRunRow, RunState.terminal]
        coordinators := Nat.zero_le 1
        authorizations := Nat.zero_le 1
        counted := (stepCounts_created (p := p) hsnapshot).symm }
  · cases hbuild

end create

/-! ## Every transaction -/

section upkeep
variable {t t' : Tables}

theorem exec_custody {op : Operation} {now : Time} {a : op.Reply}
    (h : exec op t now = .ok (t', a)) (ht : ∀ r ∈ t.runs, r.Custody) :
    ∀ r ∈ t'.runs, r.Custody := by
  intro u hu
  cases exec_change h with
  | same => exact ht u hu
  | created r new insert =>
    rcases (Table.mem_insert? insert).mp hu with hu | rfl
    · exact ht u hu
    · obtain ⟨_, _, _, _, _, _, hadmitted⟩ := new.admitted
      exact custody_admitted hadmitted
  | moved r _ hr _ hmove =>
    rcases Table.eq_or_mem_of_mem_put hu with rfl | ⟨hu, -⟩
    · exact (ht r hr).step hmove
    · exact ht u hu

theorem Reachable.custody (h : Reachable t) : ∀ r ∈ t.runs, r.Custody := by
  induction h with
  | refl => simp [Tables.empty]
  | tail _ hstep ih =>
    obtain ⟨op, now, a, hexec⟩ := hstep
    exact exec_custody hexec ih

/-- A Run that has not ended holds the lock of its combination and exactly one lock for
each Wallet of its snapshot; one that has ended holds nothing and cannot be driven any
more.  The counters are those of the Steps, a completed Run has only ended Steps, and a
terminated one has none that waits to be started. -/
theorem holds_until_ended (ht : Reachable t) : ∀ r ∈ t.runs,
    (r.state.terminal = false → r.combinationLock = some r.combinationId ∧
      r.walletLocks.Perm (r.wallets.map fun w => w.walletId) ∧ r.walletLocks.Nodup) ∧
    (r.state = .completed ∨ r.state = .terminated →
      r.combinationLock = none ∧ r.walletLocks = [] ∧
      (∀ k ∈ r.coordinators, k.state ≠ .active) ∧
      ∀ a ∈ r.authorizations, a.state ≠ .authorized) ∧
    r.counts =
      { terminal := r.steps.rows.countP fun s => s.state.terminal
        completed := r.steps.rows.countP fun s => s.state = .completed
        satisfied := r.steps.rows.countP fun s => s.state = .satisfied
        skipped := r.steps.rows.countP fun s => s.state = .skipped
        failed := r.steps.rows.countP fun s => s.state = .failed
        notExecuted := r.steps.rows.countP fun s => s.state = .notExecuted } ∧
    (r.state = .completed → ∀ s ∈ r.steps, s.state.terminal) ∧
    (r.state = .terminated → ∀ s ∈ r.steps, s.state ≠ .pending) := by
  intro r hr
  have hcustody := ht.custody r hr
  have hstated := (ht.inv.runs r hr).stated
  refine ⟨hcustody.held, ?_, hcustody.counted, hstated.completed, hstated.terminated⟩
  intro hend
  obtain ⟨⟨hwallets, hcombination⟩, hcoordinators, hauthorizations⟩ :=
    hcustody.released (by rcases hend with h | h <;> rw [h] <;> rfl)
  refine ⟨hcombination, hwallets, ?_, ?_⟩
  · simpa using countP_eq_zero.mp hcoordinators
  · simpa using countP_eq_zero.mp hauthorizations

open Sample in
/-- The sample Run was started and then terminated: it holds no lock any more. -/
theorem holds_until_ended_sample :
    ((after (started ++ [(.terminate (request 105 3), 11)])).runs.get? 1).map
      (fun r => r.state) = some .terminated ∧
    ∀ r ∈ (after (started ++ [(.terminate (request 105 3), 11)])).runs,
      r.state = .completed ∨ r.state = .terminated →
        r.combinationLock = none ∧ r.walletLocks = [] :=
  ⟨by decide, fun r hr hend =>
    have h := (holds_until_ended (reachable_after _) r hr).2.1 hend
    ⟨h.1, h.2.1⟩⟩

end upkeep

end Store
end Athena.Execution
