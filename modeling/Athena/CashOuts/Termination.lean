import Athena.CashOuts.Accounting
import Athena.Lib.Listing

/-!
# The termination of a batch

A `TERMINATE` of a batch that works on no item ends it at once.  Otherwise the batch waits
for a worker, which finds it in the listing of the batches that are due.
-/

namespace Athena.CashOuts

open Athena.Lib Queries Store Sample

/-! ## Batches that are due -/

/-- `ORDER BY COALESCE(next_poll_at, updated_at), created_at, id` -/
def recoveryOrder (b : Batch) : ℕ ×ₗ ℕ ×ₗ ℕ :=
  toLex (b.nextPollAt.getD b.updatedAt, toLex (b.createdAt, b.id))

def listRecoverablePositionCashOutBatches (t : Tables) (now : Time) (limit : ℕ) : List Batch :=
  listing recoveryOrder (fun b => listable b.toBatchRow now) limit t.batches.rows

theorem recoveryOrder_inj {t : Tables} {a b : Batch} (ha : a ∈ t.batches) (hb : b ∈ t.batches)
    (h : recoveryOrder a = recoveryOrder b) : a = b := by
  simp only [recoveryOrder, EmbeddingLike.apply_eq_iff_eq, Prod.mk.injEq] at h
  exact Table.eq_of_key_eq ha hb h.2.2

theorem mem_listRecoverable {t : Tables} {b : Batch} {now : Time} {limit : ℕ}
    (hb : b ∈ t.batches) (hdue : listable b.toBatchRow now)
    (hrank : rank recoveryOrder (fun b => listable b.toBatchRow now) t.batches.rows b < limit) :
    b ∈ listRecoverablePositionCashOutBatches t now limit :=
  mem_listing_of_rank (fun _ ha _ hc => recoveryOrder_inj ha hc)
    (List.Nodup.of_map _ t.batches.nodup)
    hb hdue hrank

/-! ## What happens to a batch that waits -/

/-- Transactions that satisfy `P` lead from some tables to others. -/
def Runs (P : Operation → Prop) : Tables → Tables → Prop :=
  Relation.ReflTransGen fun t t' => ∃ adm op now r, P op ∧ exec adm op t now = .ok (t', r)

section waiting
variable {P : Operation → Prop} {t t' : Tables} {b : Batch}

/-- A batch that is to be terminated and that nobody holds stays as it is until it is claimed
or its owner commands. -/
theorem stays_of_runs (hb : b ∈ t.batches) (hstate : b.state = .terminateRequested)
    (hclaim : b.claim = none)
    (hP : ∀ op, P op → ¬op.commands b.id ∧
      ∀ k, op = .claimBatch b.id k → ∀ now, claimableBatch b.toBatchRow now = false)
    (h : Runs P t t') : b ∈ t'.batches := by
  induction h with
  | refl => exact hb
  | tail _ hstep ih =>
    obtain ⟨adm, op, now, r, hop, h⟩ := hstep
    obtain ⟨hcommand, hclaims⟩ := hP op hop
    obtain hmem | hwriter := (exec_change h).writes ih
    · exact hmem
    · cases hwriter with
      | claims k hop' hclaimable => cases (hclaims k hop' now).symm.trans hclaimable
      | holds k hheld => rw [hclaim] at hheld; cases hheld
      | commands hcommand' => exact absurd hcommand' hcommand
      | works hstate' => rw [hstate] at hstate'; obtain h | h := hstate' <;> cases h
      | expires hexpirable => simp [expirableBatch, hstate] at hexpirable

/-- A batch that is to be terminated and waits for no poll is never listed, whatever happens
without its owner. -/
theorem not_listed_of_unpolled (hb : b ∈ t.batches) (hstate : b.state = .terminateRequested)
    (hclaim : b.claim = none) (hpoll : b.nextPollAt = none) (hcheck : b.checkRequestedAt = none)
    (h : Runs (fun op => ¬op.commands b.id) t t') (later : Time) (limit : ℕ) :
    ∀ d ∈ listRecoverablePositionCashOutBatches t' later limit, d.id ≠ b.id := by
  have hclaimable (now : Time) : claimableBatch b.toBatchRow now = false := by
    simp [claimableBatch, hstate, hpoll, hcheck]
  have hb' : b ∈ t'.batches :=
    stays_of_runs hb hstate hclaim (fun op hop => ⟨hop, fun _ _ now => hclaimable now⟩) h
  intro d hd hid
  obtain ⟨hmem, hdue⟩ := mem_of_mem_listing hd
  obtain rfl : d = b := Table.eq_of_key_eq hmem hb' hid
  simp [listable, hstate, hpoll, hcheck] at hdue

theorem listable_of_polled {p later : Time} (hstate : b.state = .terminateRequested)
    (hclaim : b.claim = none) (hpoll : b.nextPollAt = some p) (hlater : p ≤ later) :
    listable b.toBatchRow later := by
  simp [listable, claimable, hstate, hclaim, hpoll, hlater]

end waiting

/-! ## The command -/

theorem terminate_ok {adm : Admission} {req : ControlRequest} {t t' : Tables} {now : Time}
    {b' : Batch} (hkind : req.kind = .terminate) (hnew : ∀ k ∈ t.batchCommands, k.id ≠ req.command)
    (h : exec adm (.control req) t now = .ok (t', b')) :
    ∃ b ∈ t.batches, b.id = req.batch ∧ b'.id = b.id ∧ b' ∈ t'.batches ∧
      (b.currentItem = none → b'.state = .terminated) ∧
      (b.currentItem ≠ none → b'.state = .terminateRequested ∧ b'.claim = none ∧
        b'.nextPollAt = b.nextPollAt ∧ b'.checkRequestedAt = none) := by
  simp only [exec, controlPositionCashOutBatch, committed] at h
  obtain ⟨-, b, hb, h⟩ := h
  obtain ⟨hmem, hid⟩ := Tables.batch_eq_some.mp hb
  split at h
  · rename_i k hk
    have hid : k.id = req.command := by simpa using List.find?_some hk
    exact absurd hid (hnew k (List.mem_of_find?_eq_some hk))
  simp only [committed, Batch.write_eq_ok, hkind] at h
  obtain ⟨-, ⟨-, hclaim⟩, k, hk, b₁, hrow, rfl, rfl⟩ := h
  have hid' : b₁.id = b.id := (controlRow_move (.control req) hk hclaim hrow).1
  simp only [positionCashOutBatchControlTransition, committed] at hk
  obtain ⟨-, rfl⟩ := hk
  refine ⟨b, hmem, hid, hid', Table.mem_put_self hmem hid'.symm, ?_, ?_⟩
  · intro hnone
    rw [hrow]
    exact (controlRow_terminated now _ (by simp [hnone]) hnone).1
  · intro hsome
    have hk : b.currentItem.isSome := Option.isSome_iff_ne_none.mpr hsome
    rw [if_pos hk, controlRow_open now rfl fun _ => hsome] at hrow
    rw [hrow]
    exact ⟨rfl, hclaim, rfl, rfl⟩

/-- A `TERMINATE` that is accepted, and not a replay, ends the batch at once when it works on
no item.  Otherwise the batch is to be terminated: when it waits for a poll, it stays as it is
until a worker claims it or its owner commands, and from the time of the poll on it is listed
as soon as fewer than `limit` batches come before it.  When it waits for no poll, it is never
listed until its owner commands. -/
theorem termination_is_picked_up {adm : Admission} {req : ControlRequest} {t t' : Tables}
    {now : Time} {b' : Batch} (hkind : req.kind = .terminate)
    (hnew : ∀ k ∈ t.batchCommands, k.id ≠ req.command)
    (h : exec adm (.control req) t now = .ok (t', b')) :
    ∃ b ∈ t.batches, b.id = req.batch ∧ b'.id = b.id ∧
      (b.currentItem = none → b'.state = .terminated) ∧
      (b.currentItem ≠ none → b'.state = .terminateRequested) ∧
      (b.currentItem ≠ none → ∀ p, b.nextPollAt = some p → ∀ t'',
        Runs (fun op => ¬op.commands b.id ∧ ∀ k, op ≠ .claimBatch b.id k) t' t'' →
          b' ∈ t''.batches ∧ ∀ later, p ≤ later → ∀ limit,
            rank recoveryOrder (fun d => listable d.toBatchRow later) t''.batches.rows b' < limit →
              b' ∈ listRecoverablePositionCashOutBatches t'' later limit) ∧
      (b.currentItem ≠ none → b.nextPollAt = none → ∀ t'',
        Runs (fun op => ¬op.commands b.id) t' t'' → ∀ later limit,
          ∀ d ∈ listRecoverablePositionCashOutBatches t'' later limit, d.id ≠ b.id) := by
  obtain ⟨b, hb, hid, hid', hb', hnone, hsome⟩ := terminate_ok hkind hnew h
  refine ⟨b, hb, hid, hid', hnone, fun hcurrent => (hsome hcurrent).1, ?_, ?_⟩
  · intro hcurrent p hp t'' hruns
    obtain ⟨hstate, hclaim, hpoll, -⟩ := hsome hcurrent
    have hstays : b' ∈ t''.batches :=
      stays_of_runs hb' hstate hclaim
        (fun op hop => hid' ▸ ⟨hop.1, fun k hk => absurd hk (hop.2 k)⟩)
        hruns
    refine ⟨hstays, fun later hlater limit hrank => mem_listRecoverable hstays ?_ hrank⟩
    exact listable_of_polled hstate hclaim (hpoll.trans hp) hlater
  · intro hcurrent hpoll t'' hruns later limit
    obtain ⟨hstate, hclaim, hpoll', hcheck⟩ := hsome hcurrent
    rw [← hid'] at hruns ⊢
    exact not_listed_of_unpolled hb' hstate hclaim (hpoll'.trans hpoll) hcheck hruns later limit

def Sample.working : List Scene :=
  Sample.built [Sample.first] ++ [Sample.authorized, Sample.activated 1 110 Sample.first]

def Sample.terminate (revision : ℕ) : ControlRequest := ⟨1, 100, 12, revision, .terminate⟩

/-- A batch that works on an item is due again a second after the activation. -/
theorem termination_is_picked_up_working : ∃ t' b',
    exec Sample.admission (.control (Sample.terminate 5)) (script Sample.working).shared
        (111 * second) = .ok (t', b') ∧ b'.id = 100 ∧
      ∃ later, ∀ limit, rank recoveryOrder (fun d => listable d.toBatchRow later) t'.batches.rows b'
        < limit → b' ∈ listRecoverablePositionCashOutBatches t' later limit := by
  obtain ⟨hok, hnew, hwaits⟩ :
      commitsWith (exec admission (.control (terminate 5)) (script working).shared (111 * second))
        (fun _ => true) ∧
      (∀ k ∈ (script working).shared.batchCommands, k.id ≠ 12) ∧
      ∀ b ∈ (script working).shared.batches.rows,
        b.currentItem ≠ none ∧ b.nextPollAt = some (111 * second) := by decide +kernel
  obtain ⟨⟨t', b'⟩, h, -⟩ := exists_of_commitsWith hok
  obtain ⟨b, hb, hid, hid', -, -, hlisted, -⟩ := termination_is_picked_up rfl hnew h
  obtain ⟨hcurrent, hpoll⟩ := hwaits b hb
  exact ⟨t', b', h, hid'.trans hid, 111 * second,
    (hlisted hcurrent _ hpoll t' .refl).2 _ le_rfl⟩

def Sample.blocked : List Scene :=
  Sample.built [Sample.first] ++ [Sample.authorized,
    .batch 1 1 100 { Sample.surroundings 110 with position := .error (.provider 404 0 "missing") }
      20]

/-- A batch that is blocked on an item accepts the command and is never listed without
another one. -/
theorem termination_of_blocked_batch_waits : ∃ w : World, w.Reachable ∧ ∃ t' b',
    exec Sample.admission (.control (Sample.terminate 6)) w.shared (111 * second) = .ok (t', b') ∧
      b'.state = .terminateRequested ∧ ∀ t'', Runs (fun op => ¬op.commands b'.id) t' t'' →
        ∀ later limit, ∀ d ∈ listRecoverablePositionCashOutBatches t'' later limit,
          d.id ≠ b'.id := by
  refine ⟨script blocked, reachable_script _, ?_⟩
  obtain ⟨hok, hnew, hwaits⟩ :
      commitsWith (exec admission (.control (terminate 6)) (script blocked).shared (111 * second))
        (fun _ => true) ∧
      (∀ k ∈ (script blocked).shared.batchCommands, k.id ≠ 12) ∧
      ∀ b ∈ (script blocked).shared.batches.rows,
        b.currentItem ≠ none ∧ b.nextPollAt = none := by decide +kernel
  obtain ⟨⟨t', b'⟩, h, -⟩ := exists_of_commitsWith hok
  obtain ⟨b, hb, -, -, hb', -, hsome⟩ := terminate_ok rfl hnew h
  obtain ⟨hcurrent, hpoll⟩ := hwaits b hb
  obtain ⟨hstate, hclaim, hpoll', hcheck⟩ := hsome hcurrent
  refine ⟨t', b', h, hstate, fun t'' hruns => ?_⟩
  exact not_listed_of_unpolled hb' hstate hclaim (hpoll'.trans hpoll) hcheck hruns

end Athena.CashOuts
