import Athena.CashOuts.Sequence

/-!
# The accounts of a batch

The counters of a batch are the numbers of its items in each state, and they add up when
the batch has ended.  A batch that has ended leaves nothing half done, except that one
which was cancelled or expired before its authorization keeps the items it never came to.
-/

namespace Athena.CashOuts

open Athena.Lib Table Queries Store List Sample

def Batch.count (b : Batch) (s : ItemState) : ℕ := b.items.rows.countP fun i => i.state = s

namespace Batch.Course

variable {b : Batch} {i : Item} (h : b.Course)
include h

theorem length_items : b.items.rows.length = b.positionCount := by
  have := congrArg List.length h.ordinals
  simpa using this

theorem count_eq {s : ItemState} {m : ℕ} (hs : ∀ i ∈ b.items, i.state = s ↔ m < i.ordinal) :
    b.count s = b.positionCount - m :=
  countP_of_keys_eq_range' h.ordinals fun i hi => by simpa using hs i hi

theorem completed_iff (hi : i ∈ b.items) : i.state = .completed ↔ i.ordinal ≤ b.completedCount :=
  ⟨h.ordinal_le_of_completed hi, fun hle => (h.done i hi hle).1⟩

theorem count_completed : b.count .completed = b.completedCount := by
  have hrest : b.items.rows.countP (fun i => ¬i.state = .completed) =
      b.positionCount - b.completedCount := by
    refine countP_of_keys_eq_range' h.ordinals fun i hi => ?_
    rw [decide_eq_true_eq, h.completed_iff hi, not_le]
  have hsum := b.items.rows.length_eq_countP_add_countP fun i => decide (i.state = .completed)
  have hcounts := b.checked.counts
  simp only [decide_eq_true_eq] at hsum
  rw [h.length_items, hrest] at hsum
  unfold Batch.count
  omega

theorem ended_state (hterminal : b.state.terminal) (hi : i ∈ b.items)
    (hlt : b.completedCount < i.ordinal) :
    i.state = if i.ordinal = b.completedCount + 1 then b.state.stop else b.state.rest := by
  split
  · exact h.stopped i hi ‹_› hterminal
  · exact (h.rest i hi (by omega)).1

theorem pending_of_withdrawn (hb : b.state = .cancelled ∨ b.state = .expired) :
    b.authorizedAt = none ∧ ∀ i ∈ b.items, i.state = .pending := by
  have hnone := b.checked.unauthorized (by obtain hb | hb := hb <;> rw [hb] <;> rfl)
  refine ⟨hnone, fun i hi => ?_⟩
  have hordinal := h.mem_ordinals hi
  have hcount := (h.idle hnone).1
  obtain hb | hb := hb
  all_goals
    rw [h.ended_state (by rw [hb]; rfl) hi (by omega), hb]
    split <;> rfl

theorem ended_cases (hterminal : b.state.terminal) (hi : i ∈ b.items) :
    i.state.ended ∨ ((b.state = .cancelled ∨ b.state = .expired) ∧ i.state = .pending) := by
  by_cases hle : i.ordinal ≤ b.completedCount
  · rw [(h.done i hi hle).1]
    exact .inl rfl
  have hstate := h.ended_state hterminal hi (by omega)
  cases hb : b.state with
  | completed =>
    have := (h.completed_count hb).1
    have := h.mem_ordinals hi
    omega
  | failed | terminated =>
    rw [hb] at hstate
    refine .inl ?_
    rw [hstate]
    split <;> rfl
  | cancelled => exact .inr ⟨.inl rfl, (h.pending_of_withdrawn (.inl hb)).2 i hi⟩
  | expired => exact .inr ⟨.inr rfl, (h.pending_of_withdrawn (.inr hb)).2 i hi⟩
  | _ => rw [hb] at hterminal; cases hterminal

theorem notExecuted_iff_of_terminated (hb : b.state = .terminated) (hi : i ∈ b.items) :
    i.state = .notExecuted ↔ b.completedCount < i.ordinal := by
  constructor
  · intro hstate
    by_contra hle
    cases hstate.symm.trans (h.done i hi (by omega)).1
  · intro hlt
    rw [h.ended_state (by rw [hb]; rfl) hi hlt, hb]
    split <;> rfl

theorem notExecuted_iff_of_failed (hb : b.state = .failed) (hi : i ∈ b.items) :
    i.state = .notExecuted ↔ b.completedCount + 1 < i.ordinal := by
  have hterminal : b.state.terminal := by rw [hb]; rfl
  constructor
  · intro hstate
    by_contra hle
    by_cases hplace : i.ordinal = b.completedCount + 1
    · have hstop := h.stopped i hi hplace hterminal
      rw [hb] at hstop
      cases hstate.symm.trans hstop
    · cases hstate.symm.trans (h.done i hi (by omega)).1
  · intro hlt
    rw [(h.rest i hi hlt).1, hb]
    rfl

theorem failed_iff_of_failed (hb : b.state = .failed) (hi : i ∈ b.items) :
    i.state = .failed ↔ i.ordinal = b.completedCount + 1 := by
  constructor
  · intro hstate
    by_contra hne
    by_cases hle : i.ordinal ≤ b.completedCount
    · cases hstate.symm.trans (h.done i hi hle).1
    · cases hstate.symm.trans ((h.notExecuted_iff_of_failed hb hi).mpr (by omega))
  · intro hplace
    rw [h.stopped i hi hplace (by rw [hb]; rfl), hb]
    rfl

theorem count_failed (hb : b.state = .failed)
    (hsum : b.completedCount + b.notExecutedCount + 1 = b.positionCount) : b.count .failed = 1 := by
  have hcount (p : ℕ → Bool) :
      b.items.rows.countP (fun i => p i.ordinal) = (range' 1 b.positionCount).countP p := by
    rw [← h.ordinals, countP_map]
    rfl
  have hplace : b.count .failed = b.items.rows.countP fun i => i.ordinal == b.completedCount + 1 :=
    countP_congr fun i hi => by simpa using h.failed_iff_of_failed hb hi
  rw [hplace, hcount fun k => k == b.completedCount + 1, ← count_eq_countP]
  refine count_eq_one_of_mem nodup_range' ?_
  rw [mem_range'_1]
  omega

end Batch.Course

/-- The accounts of every batch in every reachable state. -/
theorem batch_accounts {w : World} (hw : w.Reachable) {b : Batch} (hb : b ∈ w.shared.batches) :
    b.items.rows.length = b.positionCount ∧ b.count .completed = b.completedCount ∧
    (b.state = .completed → b.completedCount = b.positionCount) ∧
    (b.state = .terminated → b.count .notExecuted = b.notExecutedCount ∧
      b.completedCount + b.notExecutedCount = b.positionCount) ∧
    (b.state = .failed → b.authorizedAt.isSome → b.count .notExecuted = b.notExecutedCount ∧
      b.count .failed = 1 ∧ b.completedCount + b.notExecutedCount + 1 = b.positionCount) ∧
    (b.state.terminal →
      (∀ i ∈ b.items, i.state.ended ∨
        ((b.state = .cancelled ∨ b.state = .expired) ∧ i.state = .pending)) ∧
      ∀ c ∈ w.shared.cashOuts, ∀ ordinal, c.source = some ⟨b.id, ordinal⟩ → c.state.terminal) ∧
    (b.state = .cancelled ∨ b.state = .expired →
      b.authorizedAt = none ∧ ∀ i ∈ b.items, i.state = .pending) ∧
    (b.wallets.map fun k => k.completedCount).sum = b.completedCount ∧
    b.locks = if b.state.terminal then [] else b.wallets.map fun k => k.walletId := by
  have hfamily := hw.family
  have hcourse := hfamily.course b hb
  refine ⟨hcourse.length_items, hcourse.count_completed, fun h => (hcourse.completed_count h).1,
    ?_, ?_, ?_, hcourse.pending_of_withdrawn, hcourse.walletCounts, hcourse.locks⟩
  · intro hstate
    have hsum := hcourse.terminated_count hstate
    refine ⟨?_, hsum⟩
    rw [hcourse.count_eq fun i hi => hcourse.notExecuted_iff_of_terminated hstate hi]
    omega
  · intro hstate hauthorized
    obtain ⟨hnone, -⟩ | hsum := hcourse.failed_count hstate
    · rw [hnone] at hauthorized
      cases hauthorized
    · refine ⟨?_, hcourse.count_failed hstate hsum, hsum⟩
      rw [hcourse.count_eq fun i hi => hcourse.notExecuted_iff_of_failed hstate hi]
      omega
  · intro hterminal
    refine ⟨fun i hi => hcourse.ended_cases hterminal hi, fun c hc ordinal href => ?_⟩
    obtain ⟨d, hd, i, hi, hsource, hchild⟩ := hfamily.sourced c hc _ href
    obtain rfl : b = d := eq_of_key_eq hb hd (ItemRef.mk.inj hsource).1
    obtain hended | ⟨-, hpending⟩ := hcourse.ended_cases hterminal hi
    · exact (hfamily.pair hb hi hc hchild).ended hended
    · cases (hcourse.pending i hi hpending).1.symm.trans hchild

def Sample.control (revision : ℕ) (kind : BatchCommandKind) (now : ℕ) : Scene :=
  .command Sample.admission (.control ⟨1, 100, 12, revision, kind⟩) (now * second)

/-- A batch that is terminated before it has activated anything. -/
theorem batch_accounts_terminated :
    ∃ b ∈ (script (Sample.built [Sample.first] ++
        [Sample.authorized, Sample.control 4 .terminate 103])).shared.batches,
      b.state = .terminated ∧ b.positionCount = 1 ∧
        b.completedCount + b.notExecutedCount = b.positionCount := by
  obtain ⟨b, hb, hstate, hcount⟩ : ∃ b ∈ (script (built [first] ++
      [authorized, control 4 .terminate 103])).shared.batches.rows,
      b.state = .terminated ∧ b.positionCount = 1 := by decide +kernel
  rw [mem_rows] at hb
  exact ⟨b, hb, hstate, hcount, ((batch_accounts (reachable_script _) hb).2.2.2.1 hstate).2⟩

/-- A batch that is cancelled before it was authorized has ended with an item that is still
`PENDING`. -/
theorem cancelled_batch_keeps_pending : ∃ w : World, w.Reachable ∧ ∃ b ∈ w.shared.batches,
    b.state = .cancelled ∧ b.state.terminal ∧ ∃ i ∈ b.items, i.state = .pending := by
  refine ⟨script (built [first] ++ [control 3 .cancel 103]),
    reachable_script _, ?_⟩
  have h : ∃ b ∈ (script (built [first] ++
      [control 3 .cancel 103])).shared.batches.rows,
      b.state = .cancelled ∧ b.state.terminal ∧ ∃ i ∈ b.items.rows, i.state = .pending := by
    decide +kernel
  exact h

end Athena.CashOuts
