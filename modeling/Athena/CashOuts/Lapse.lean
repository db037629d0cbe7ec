import Athena.CashOuts.Script

/-!
# Claims that lapse

A turn that stops leaves its claim on the batch, and no command of the owner is accepted
while a claim is there.  Every write that leaves a claim also leaves the batch in a state in
which the claim query takes it, as soon as the claim has expired (`BatchRow.Retakable`).
-/

namespace Athena.CashOuts

open Athena.Lib Queries Store Pool

variable {adm : Admission} {op : Operation} {now u : Time} {t t' : Tables} {b b' : Batch}

/-! ## One transaction -/

theorem BatchRow.Ends.retakable (h : b.Ends b'.toBatchRow) (u : Time) : b'.Retakable u :=
  .of_released (b'.checked.released h.after) u

theorem Batch.Move.retakable (h : b.Move op now b') (hu : op.DueBy now u) (hb : b.Retakable u) :
    b'.Retakable u := by
  cases h with
  | steered hsteers | itemed _ _ hsteers => exact hsteers.retakable u hu hb
  | built _ _ _ _ _ _ _ hrow | advanced _ _ _ _ _ _ _ _ _ _ _ _ _ _ _ hrow
  | blocked _ _ _ _ _ _ _ _ _ _ _ _ _ _ hrow => exact .of_released (by rw [hrow]; rfl) u
  | dropped hends | failed _ _ _ _ hends | completed hends | terminated hends =>
    exact hends.retakable u

theorem Tables.Change.retakable (h : Tables.Change adm op now t t') (hu : op.DueBy now u)
    (ht : ∀ b ∈ t.batches, b.Retakable u) : ∀ b ∈ t'.batches, b.Retakable u := by
  intro b' hb'
  obtain hsteps | ⟨d, -, hclaim, hinsert⟩ := h.steps
  · obtain ⟨b, hb, hstep⟩ := hsteps.exists_of_mem' hb'
    cases hstep with
    | same h => exact h ▸ ht b hb
    | moved _ hmove => exact hmove.retakable hu (ht b hb)
    | activated _ _ _ _ _ hmove => exact .of_released (by rw [hmove.row]; rfl) u
    | dispatched _ _ _ hop hmove => exact hmove.batch.steers.retakable u (hop ▸ hu) (ht b hb)
    | halted _ _ _ hmove => exact hmove.ends.retakable u
  · obtain hmem | rfl := (Table.mem_insert? hinsert).mp hb'
    · exact ht b' hmem
    · exact .of_released hclaim u

/-! ## Every run -/

/-- The clock as a call of a turn reads it, or hands it to the store. -/
def clockReading (e : Event) : Option Time :=
  match e.cause with
  | some (_, ⟨.now, p⟩) => some p
  | some (_, ⟨.store _ p, _⟩) => some p
  | _ => none

/-- No clock has shown a time after `u`. -/
def Until (log : List Event) (u : Time) : Prop := ∀ e ∈ log, ∀ p, clockReading e = some p → p ≤ u

theorem dueBy_of_permitted {w : World} {i : ℕ} (hpermitted : Permitted i (history w.log i) op)
    (hnow : now ≤ u) (hlog : Until w.log u) : op.DueBy now u := by
  cases op with
  | claimBatch => exact hnow
  | dispatchBatch =>
    obtain ⟨e, he, hcause⟩ := exists_event_of_mem_history hpermitted.2
    exact max_le hnow (hlog e he _ (by simp [clockReading, hcause]))
  | _ => trivial

theorem dueBy_of_isCommand (h : op.isCommand) (now u : Time) : op.DueBy now u := by
  cases op <;> trivial

theorem World.Reachable.retakable {w : World} (hw : w.Reachable) (hu : Until w.log u) :
    ∀ b ∈ w.shared.batches, b.Retakable u := by
  revert hu
  refine Pool.Reachable.of_events (J := fun t log => Until log u → ∀ b ∈ t.batches, b.Retakable u)
    keeps_of_starts ?_ ?_ hw
  · exact fun _ b hb => absurd hb (Table.not_mem_empty b)
  rintro w ⟨cause, before, after⟩ hw ih rfl hlawful hrule hlog
  have hlog' : Until w.log u := fun e he => hlog e (List.mem_append_left _ he)
  have hlast := hlog _ (List.mem_append_right _ (List.mem_singleton.mpr rfl))
  cases cause with
  | none =>
    obtain ⟨adm, op, now, r, hop, h⟩ := hlawful
    exact (exec_change h).retakable (dueBy_of_isCommand hop now u) (ih hlog')
  | some cause =>
    obtain ⟨i, x⟩ := cause
    have hserves : serves w.shared x.1 x.2 after := hlawful
    obtain rfl | ⟨op, now, r, adm, a, rfl, -, h⟩ := eq_or_exec_of_serves hserves
    · exact ih hlog'
    · have hpermitted : Permitted i (history w.log i) op :=
        hrule i _ rfl (World.Reachable.fair hw)
      exact (exec_change h).retakable (dueBy_of_permitted hpermitted (hlast now rfl) hlog')
        (ih hlog')

theorem claimedBatch_checked {b : BatchRow} (h : b.Checked) (hopen : b.state.terminal = false)
    (k : Claim) (now : Time) : (claimedBatch b k now).Checked := by
  obtain ⟨h₁, h₂, h₃, h₄, h₅, h₆, h₇, h₈, h₉, h₁₀, h₁₁⟩ := h
  refine ⟨h₁, h₂, h₃, h₄, ?_, ?_, ?_, ?_, ?_, ?_, ?_⟩
  all_goals cases hs : b.state <;> simp_all [claimedBatch] <;>
    first | rfl | exact h₆ | exact h₇ | exact h₈ | exact h₁₁

/-- Once the claim on a batch has expired, a worker can take the batch, whatever the turn that
left the claim was doing. -/
theorem lapsed_claim_is_retaken (adm : Admission) {w : World} (hw : w.Reachable) {b : Batch}
    (hb : b ∈ w.shared.batches) {k : Claim} (hk : b.claim = some k) {now : Time}
    (hexpired : k.expiresAt ≤ now) (hnow : Until w.log now) :
    claimableBatch b.toBatchRow now ∧ ∀ k' : Claim, now < k'.expiresAt → ∃ t' b',
      exec adm (.claimBatch b.id k') w.shared now = .ok (t', b') ∧ b'.claim = some k' := by
  have hready := hw.retakable hnow b hb (by rw [hk]; rfl)
  have hclaimable : claimableBatch b.toBatchRow now := by
    simp only [claimableBatch, Bool.and_eq_true] at hready ⊢
    exact ⟨hready.1, by simpa [claimable, hk] using hexpired⟩
  refine ⟨hclaimable, fun k' hk' => ?_⟩
  have hopen : b.state.terminal = false := by
    cases hs : b.state.terminal with
    | false => rfl
    | true => rw [b.checked.released hs] at hk; cases hk
  have hchecked := claimedBatch_checked b.checked hopen k' now
  refine ⟨w.shared.putBatch ⟨_, hchecked⟩, ⟨_, hchecked⟩, ?_, rfl⟩
  simp only [exec, claimPositionCashOutBatch, onBatch, committed, Batch.write_eq_ok]
  exact ⟨hk', b, Tables.batch_eq_some.mpr ⟨hb, rfl⟩, _, ⟨hclaimable, rfl⟩, _, rfl, rfl, rfl⟩

/-- A turn stops as soon as it has claimed the batch. -/
def Sample.stopped : List Scene :=
  Sample.built [Sample.first] ++ [Sample.authorized, .batch 1 1 100 (Sample.surroundings 110) 3]

theorem lapsed_claim_is_retaken_after_stop : ∃ b ∈ (script Sample.stopped).shared.batches,
    b.claim = some ⟨1, 1, 155 * second⟩ ∧ claimableBatch b.toBatchRow (155 * second) := by
  obtain ⟨hrows, hclocks⟩ : ((script Sample.stopped).shared.batches.rows.head?.any fun b =>
      b.claim = some ⟨1, 1, 155 * second⟩) ∧
    ∀ e ∈ (script Sample.stopped).log, (clockReading e).all fun p => p ≤ 155 * second := by
      decide +kernel
  obtain ⟨b, hb, hk⟩ := (Option.any_eq_true _ _).mp hrows
  have hmem := List.mem_of_head? hb
  have hk := of_decide_eq_true hk
  refine ⟨b, hmem, hk, ?_⟩
  refine (lapsed_claim_is_retaken Sample.admission (reachable_script _) hmem hk le_rfl ?_).1
  exact fun e he p hp => by simpa [hp] using hclocks e he

end Athena.CashOuts
