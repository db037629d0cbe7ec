import Athena.Execution.Passage
import Athena.Lib.Listing

/-!
# Recovery

A worker finds the Steps whose claim lapsed by a listing, and takes each by a claim.  The listing
joins the command that works on a Step.  Whatever users and workers do, a Step that is being
worked on is the current one of its Run and has its command in progress, so the listing and the
claim accept it once its claim lapsed and its poll is due.
-/

namespace Athena.Execution

open Athena.Lib Table Queries

/-! ## The listing -/

namespace RunState

/-- The states of a Run in which its Steps are recovered. -/
def recovers : RunState → Bool
  | .running | .pauseRequested | .terminateRequested | .reconciliationRequired | .terminated => true
  | _ => false

end RunState

/-- What `ListRecoverableExecutionRunStepKeys` asks of a Step and its Run. -/
def recoverable (now : Time) (x : Run × Step) : Bool :=
  x.1.commands.any (fun c => x.2.activeCommand = some c.id && c.stepOrdinal = x.2.ordinal &&
    c.state = .inProgress) &&
  x.2.state.recoverable && x.1.state.recovers && x.1.currentStepOrdinal = some x.2.ordinal &&
  (x.2.state ≠ .awaitingCompletion || x.2.nextPollAt.any (· ≤ now)) &&
  (x.2.state ≠ .outcomeUnknown || x.2.reconcileRequestedAt.isSome) &&
  x.2.claim.all fun c => c.owner = coordinatorOwner || c.expiresAt ≤ now

/-- `ORDER BY COALESCE(next_poll_at, claim_expires_at, updated_at), run_id, ordinal`, where
`updatedAt` are the times of the last updates, which nothing else reads. -/
def recoveryOrder (updatedAt : StepRef → Time) (x : Run × Step) : ℕ ×ₗ ℕ ×ₗ ℕ :=
  toLex ((x.2.nextPollAt.or (x.2.claim.map fun c => c.expiresAt)).getD
    (updatedAt ⟨x.1.id, x.2.ordinal⟩), toLex (x.1.id, x.2.ordinal))

def Tables.runSteps (t : Tables) : List (Run × Step) :=
  t.runs.rows.flatMap fun r => r.steps.rows.map fun s => (r, s)

def listRecoverableExecutionRunStepKeys (t : Tables) (updatedAt : StepRef → Time) (now : Time)
    (limit : ℕ) : List (Run × Step) :=
  listing (recoveryOrder updatedAt) (recoverable now) limit t.runSteps

section listing
variable {t : Tables} {r : Run} {s : Step}

theorem mem_runSteps : (r, s) ∈ t.runSteps ↔ r ∈ t.runs ∧ s ∈ r.steps := by
  simp [Tables.runSteps, ← mem_rows]

theorem recoveryOrder_inj {updatedAt : StepRef → Time} {x y : Run × Step} (hx : x ∈ t.runSteps)
    (hy : y ∈ t.runSteps) (h : recoveryOrder updatedAt x = recoveryOrder updatedAt y) : x = y := by
  obtain ⟨r, s⟩ := x
  obtain ⟨u, v⟩ := y
  simp only [recoveryOrder, EmbeddingLike.apply_eq_iff_eq, Prod.mk.injEq] at h
  rw [mem_runSteps] at hx hy
  obtain rfl := eq_of_key_eq hx.1 hy.1 h.2.1
  rw [eq_of_key_eq hx.2 hy.2 h.2.2]

theorem nodup_runSteps : t.runSteps.Nodup := by
  refine List.nodup_flatMap.mpr ⟨?_, ?_⟩
  · intro r _
    exact (List.Nodup.of_map _ r.steps.nodup).map fun _ _ h => (Prod.mk.inj h).2
  · refine (List.Nodup.of_map _ t.runs.nodup).imp fun {r u} hne => ?_
    intro x hx hx'
    obtain ⟨s, -, rfl⟩ := List.mem_map.mp hx
    obtain ⟨v, -, heq⟩ := List.mem_map.mp hx'
    exact hne (Prod.mk.inj heq).1.symm

end listing

/-! ## Polls -/

def StepRow.Polled (s : StepRow) : Prop := s.state = .awaitingCompletion → s.nextPollAt.isSome

theorem StepRow.Passes.polled {e : Event} {s s' : StepRow} (h : s.Passes e s') (hs : s.Polled) :
    s'.Polled := by
  have observed {o : Observation} (now : Time) (h : s.Observes o) : (observed o now s).Polled := by
    intro hnext
    have hnext : o.nextState = .awaitingCompletion := hnext
    simpa [Queries.observed, hnext] using h.polled hnext
  cases h with
  | same => exact hs
  | ended h =>
    obtain ⟨p, code, now, rfl⟩ := h.row
    cases p <;> exact nofun
  | claimed => exact nofun
  | finished h =>
    cases h with
    | preflight next code now h hnext => rcases hnext with rfl | rfl | rfl <;> exact nofun
    | observe o now h => exact observed now h
  | concluded _ now _ _ h => exact observed now h
  | held h =>
    cases h with
    | claim => exact hs
    | opening | opened | respond | signing | signed => exact nofun
    | prepare k => cases k <;> exact hs
    | dispatch a => cases hk : a.kind <;> exact hs
    | resolve a => cases hk : a.kind <;> exact hs
    | reconcile command now h =>
      intro hstate
      cases h.symm.trans hstate
    | observe o now h => exact observed now h

theorem Store.Reachable.polled {t : Tables} (h : Store.Reachable t) {ref : StepRef} {s : Step}
    (hs : t.step ref = some s) : s.Polled := by
  induction h generalizing s with
  | refl => cases hs
  | tail _ hstep ih =>
    obtain ⟨op, now, a, hexec⟩ := hstep
    rcases (Store.exec_change hexec).step hs with ⟨-, -, -, -, -, hb⟩ | ⟨u, hu, rfl | ⟨hp, -⟩⟩
    · intro hstate
      rw [hstate] at hb
      cases hb
    · exact ih hu
    · exact hp.polled (ih hu)

/-! ## Steps that are being worked on -/

namespace Store

variable {t : Tables} {r : Run} {s : Step} {now : Time}

/-- A Step that nobody holds any more, and whose poll is due. -/
structure Lapsed (s : StepRow) (now : Time) : Prop where
  claim : s.claim.all fun c => c.expiresAt ≤ now
  poll : s.nextPollAt.all (· ≤ now)

section
variable (ht : Reachable t) (hr : r ∈ t.runs) (hs : s ∈ r.steps)
include ht hr hs

theorem poll_due (hlapsed : Lapsed s.toStepRow now) :
    s.state = .awaitingCompletion → s.nextPollAt.any (· ≤ now) := by
  intro hstate
  have hstep : t.step ⟨r.id, s.ordinal⟩ = some s := Tables.step_eq_some.mpr ⟨r, hr, rfl, hs, rfl⟩
  obtain ⟨p, hp⟩ := Option.isSome_iff_exists.mp (ht.polled hstep hstate)
  have := hlapsed.poll
  rw [hp] at this ⊢
  exact this

theorem recoverable_of_lapsed (hworking : s.Working) (hlapsed : Lapsed s.toStepRow now)
    (hstate : r.state.recovers) : recoverable now (r, s) := by
  have hinv := ht.inv.runs r hr
  obtain ⟨c, hc, hid, hprogress, -, hordinal⟩ := hinv.commands s hs hworking
  have hclaim : s.claim.all fun c => c.owner = coordinatorOwner || c.expiresAt ≤ now := by
    have := hlapsed.claim
    cases h : s.claim <;> simp_all
  simp only [recoverable, check_iff, List.any_eq_true]
  refine ⟨⟨⟨⟨⟨⟨⟨c, hc, ⟨hid, hordinal⟩, hprogress⟩, ?_⟩, hstate⟩,
    hinv.sequential.current s hs hworking.busy⟩, ?_⟩, ?_⟩, hclaim⟩
  · rcases hworking with hactive | ⟨hunknown, -⟩
    · cases h : s.state <;> simp_all [StepState.recoverable, StepState.active]
    · rw [hunknown]
      rfl
  · by_cases h : s.state = .awaitingCompletion
    · exact .inr (poll_due ht hr hs hlapsed h)
    · exact .inl h
  · rcases hworking with hactive | ⟨-, hrequested⟩
    · exact .inl fun h => by simp [h, StepState.active] at hactive
    · exact .inr hrequested

theorem recover_enabled (hdue : recoverable now (r, s)) {claim : Claim}
    (howner : validWorker claim.owner) (hlease : now < claim.expiresAt) :
    ∃ t' a, exec (.recover ⟨r.id, s.ordinal⟩ claim) t now = .ok (t', a) := by
  simp only [recoverable, check_iff] at hdue
  obtain ⟨⟨⟨⟨⟨⟨-, hstate⟩, hrun⟩, hcurrent⟩, hpoll⟩, hrequested⟩, hclaim⟩ := hdue
  have hpositive : 0 < s.ordinal := by
    obtain ⟨-, hitem, -, heq⟩ := (ht.inv.runs r hr).snapshot.major s hs
    omega
  have hchecked : ({ s.toStepRow with claim := some claim } : StepRow).Checked :=
    ⟨s.checked.source, s.checked.completed, s.checked.request, s.checked.signer,
      s.checked.completion, s.checked.kinds⟩
  let s' : Step := ⟨{ s.toStepRow with claim := some claim }, hchecked⟩
  have hwrite : s.write (fun row => { row with claim := some claim }) = .ok s' :=
    Step.write_eq_ok.mpr rfl
  refine ⟨⟨t.runs.put (r.putStep s')⟩, s', ?_⟩
  simp only [exec, recoverExecutionStep, Tables.onRun, claimExecutionRunStepForRecovery, committed]
  refine ⟨⟨hpositive, howner, hlease⟩, r, get?_of_mem hr, (r.putStep s', s'), ?_, rfl, rfl⟩
  refine ⟨s, get?_of_mem hs, hstate, ?_, ?_, hcurrent, ?_, ?_, s', hwrite, rfl⟩
  · cases h : s.claim <;> simp_all
  · cases h : r.state <;> simp_all [RunState.recovers]
  · exact fun h => hrequested.resolve_left (by simp [h])
  · exact fun h => hpoll.resolve_left (by simp [h])

end

/-- A Step that is being worked on is the current one of its Run, has the command that works on it
in progress and can be recovered: as soon as its claim lapsed and its poll is due, the listing has
it in its turn and every worker can claim it, in each state of the Run in which Steps are
recovered, which are all that the Run can be in unless it is paused. -/
theorem working_steps_recoverable (ht : Reachable t) : ∀ r ∈ t.runs, ∀ s ∈ r.steps,
    (s.state.active → r.currentStepOrdinal = some s.ordinal ∧
      ∃ c ∈ r.commands, s.activeCommand = some c.id ∧ c.state = .inProgress ∧
        c.kind = .executeNext ∧ c.stepOrdinal = s.ordinal) ∧
    (s.state = .outcomeUnknown → s.reconcileRequestedAt.isSome →
      r.currentStepOrdinal = some s.ordinal ∧
      ∃ c ∈ r.commands, s.activeCommand = some c.id ∧ c.state = .inProgress ∧
        c.kind = .reconcile ∧ c.stepOrdinal = s.ordinal) ∧
    (s.state = .awaitingCompletion → s.nextPollAt.isSome) ∧
    (s.Working → r.state.recovers ∨ r.state = .paused) ∧
    ∀ now, s.Working → Lapsed s.toStepRow now → r.state.recovers →
      (∀ updatedAt limit,
        rank (recoveryOrder updatedAt) (recoverable now) t.runSteps (r, s) < limit →
          (r, s) ∈ listRecoverableExecutionRunStepKeys t updatedAt now limit) ∧
      ∀ claim : Claim, validWorker claim.owner → now < claim.expiresAt →
        ∃ t' a, exec (.recover ⟨r.id, s.ordinal⟩ claim) t now = .ok (t', a) := by
  intro r hr s hs
  have hinv := ht.inv.runs r hr
  have hstep : t.step ⟨r.id, s.ordinal⟩ = some s := Tables.step_eq_some.mpr ⟨r, hr, rfl, hs, rfl⟩
  have hcurrent (hworking : s.Working) := hinv.sequential.current s hs hworking.busy
  refine ⟨?_, ?_, ht.polled hstep, ?_, ?_⟩
  · intro hactive
    obtain ⟨c, hc, hid, hprogress, hkind, hordinal⟩ := hinv.commands s hs (.inl hactive)
    refine ⟨hcurrent (.inl hactive), c, hc, hid, hprogress, hkind.trans (if_neg ?_), hordinal⟩
    intro h
    simp [h, StepState.active] at hactive
  · intro hunknown hrequested
    obtain ⟨c, hc, hid, hprogress, hkind, hordinal⟩ :=
      hinv.commands s hs (.inr ⟨hunknown, hrequested⟩)
    exact ⟨hcurrent (.inr ⟨hunknown, hrequested⟩), c, hc, hid, hprogress,
      hkind.trans (if_pos hunknown), hordinal⟩
  · rintro (hactive | ⟨hunknown, -⟩)
    · rcases hinv.stated.active s hs hactive with h | h | h | h <;> simp [h, RunState.recovers]
    · rcases hinv.stated.unknown s hs hunknown with h | h <;> simp [h, RunState.recovers]
  · intro now hworking hlapsed hstate
    have hdue := recoverable_of_lapsed ht hr hs hworking hlapsed hstate
    exact ⟨fun updatedAt limit hrank => mem_listing_of_rank
        (fun _ hx _ hy => recoveryOrder_inj hx hy) nodup_runSteps (mem_runSteps.mpr ⟨hr, hs⟩) hdue
        hrank,
      fun claim howner hlease => recover_enabled ht hr hs hdue howner hlease⟩

open Sample in
/-- The Step that was opened in the sample is recovered once the claim of its worker lapsed. -/
theorem sample_step_recovered : ∃ t' a,
    exec (.recover ⟨1, 1⟩ ⟨.worker 2, "other", 300⟩) (after (started ++ dispatched)) 200 =
      .ok (t', a) := by
  have ht := reachable_after (started ++ dispatched)
  obtain ⟨r, hget, hr⟩ := (Option.any_eq_true _ _).mp
    (by decide +kernel : ((after (started ++ dispatched)).runs.get? 1).any fun r =>
      r.state.recovers && (r.steps.get? 1).any fun s => s.state.active &&
        (s.claim.all fun c => c.expiresAt ≤ 200) && s.nextPollAt.all (· ≤ 200))
  simp only [Bool.and_eq_true, Option.any_eq_true] at hr
  obtain ⟨hstate, s, hs, ⟨hactive, hclaim⟩, hpoll⟩ := hr
  obtain ⟨hmem, hid⟩ := get?_eq_some.mp hget
  obtain ⟨hsmem, hordinal⟩ := get?_eq_some.mp hs
  have hrecovers := ((working_steps_recoverable ht r hmem s hsmem).2.2.2.2 200 (.inl hactive)
    ⟨hclaim, hpoll⟩ hstate).2 ⟨.worker 2, "other", 300⟩ (by decide) (by decide)
  rwa [hid, hordinal] at hrecovers

end Store
end Athena.Execution
