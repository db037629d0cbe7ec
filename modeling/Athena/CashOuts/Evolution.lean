import Athena.CashOuts.Family

/-!
# Cash Outs over time

What the rows of Cash Outs keep through every transaction of the store, and what the
answer of a transaction says about the rows after it.
-/

namespace Athena.CashOuts

open Athena.Lib Table Queries Store Batch

def Tables.Evolves (t t' : Tables) : Prop := ∀ c ∈ t.cashOuts, ∃ c' ∈ t'.cashOuts, c.Evolves c'

inductive CashOut.New (op : Operation) (now : Time) (c : CashOut) : Prop
  | created (req : CreateRequest) (hop : op = .create req c.id)
      (hrow : c.toCashOutRow = req.row c.id now)
  | activated (req : ActivateRequest) (b : Batch) (i : Item) (hop : op = .activate req)
      (hrow : c.toCashOutRow = childRow b.toBatchRow i.toItemRow req.cashOut req.providerState now)

variable {op : Operation} {now : Time} {c : CashOut}

theorem CashOut.New.unclaimed (h : c.New op now) : c.attempt = none ∧ c.claim = none := by
  cases h with
  | created _ _ hrow | activated _ _ _ _ hrow => rw [hrow]; exact ⟨rfl, rfl⟩

namespace Tables

variable {adm : Admission} {op : Operation} {now : Time} {t t' t'' : Tables}

theorem Evolves.refl (t : Tables) : t.Evolves t := fun c hc => ⟨c, hc, .refl c⟩

theorem Evolves.trans (h : t.Evolves t') (h' : t'.Evolves t'') : t.Evolves t'' := by
  intro c hc
  obtain ⟨c', hc', he⟩ := h c hc
  obtain ⟨c'', hc'', he'⟩ := h' c' hc'
  exact ⟨c'', hc'', he.trans he'⟩

variable {c c' : CashOut}

theorem Evolves.row (h : t.Evolves t') (hc : c ∈ t.cashOuts) (hc' : c' ∈ t'.cashOuts)
    (hid : c'.id = c.id) : c.Evolves c' := by
  obtain ⟨d, hd, he⟩ := h c hc
  obtain rfl : d = c' := eq_of_key_eq hd hc' (he.id.trans hid.symm)
  exact he

variable (h : t.Change adm op now t')
include h

/-- The rows after a transaction: each is as it was or moved, or there is one more. -/
theorem Change.rows :
    t.cashOuts.Rel (fun c c' => c' = c ∨ c.Move op now c') t'.cashOuts ∨
      ∃ c : CashOut, c.New op now ∧ t.cashOuts.insert? c = some t'.cashOuts := by
  have same (heq : t'.cashOuts = t.cashOuts) :
      t.cashOuts.Rel (fun c c' => c' = c ∨ c.Move op now c') t'.cashOuts :=
    heq ▸ .refl fun _ _ => .inl rfl
  have put {c d : CashOut} (hc : c ∈ t.cashOuts) (hmove : c.Move op now d)
      (heq : t'.cashOuts = t.cashOuts.put d) :
      t.cashOuts.Rel (fun c c' => c' = c ∨ c.Move op now c') t'.cashOuts :=
    heq ▸ rel_put hc hmove.evolves.id (.inr hmove) fun _ _ _ => .inl rfl
  cases h with
  | cashOuts _ hcashOuts => exact .inl hcashOuts
  | same hcashOuts | batches hcashOuts | batchCreated _ _ _ _ _ _ _ _ _ _ _ hcashOuts =>
    exact .inl (same hcashOuts)
  | created req c hop hrow _ _ _ hcashOuts => exact .inr ⟨c, .created req hop hrow, hcashOuts⟩
  | activated req b _ i _ c hop _ _ _ hrow hcashOuts =>
    exact .inr ⟨c, .activated req b i hop hrow, hcashOuts⟩
  | dispatched _ _ _ _ _ _ _ _ _ _ _ hc _ hmove' _ _ hcashOuts =>
    exact .inl (put hc hmove' hcashOuts)
  | halted _ _ _ _ _ _ _ _ hcashOuts =>
    obtain ⟨-, hcashOuts⟩ | ⟨c, hc, c₁, -, -, hmove', -, hcashOuts⟩ := hcashOuts
    · exact .inl (same hcashOuts)
    · exact .inl (put hc hmove' hcashOuts)

theorem Change.evolves : t.Evolves t' := by
  intro c hc
  obtain hrows | ⟨d, -, hinsert⟩ := h.rows
  · obtain ⟨c', hc', rfl | hmove⟩ := hrows.exists_of_mem hc
    · exact ⟨c', hc', .refl c'⟩
    · exact ⟨c', hc', hmove.evolves⟩
  · exact ⟨c, (mem_insert? hinsert).mpr (.inl hc), .refl c⟩

theorem Change.origin (hc' : c' ∈ t'.cashOuts) :
    (∃ c ∈ t.cashOuts, c' = c ∨ c.Move op now c') ∨ c'.New op now := by
  obtain hrows | ⟨d, hnew, hinsert⟩ := h.rows
  · exact .inl (hrows.exists_of_mem' hc')
  · obtain hc' | rfl := (mem_insert? hinsert).mp hc'
    · exact .inl ⟨c', hc', .inl rfl⟩
    · exact .inr hnew

end Tables

open Tables

/-! ## Batches and items -/

structure Item.Dispatched (req : BatchDispatchRequest) (now : Time) (t t' : Tables) (b b' : Batch)
    (i i' : Item) : Prop where
  batch : b.Dispatches req now b' i i'
  child : ∃ c ∈ t.cashOuts, ∃ c' ∈ t'.cashOuts, c.id = req.cashOut ∧ c'.id = req.cashOut ∧
    wasDispatched c.attempt = false ∧ wasDispatched c'.attempt

/-- What a transaction does to the row of a batch. -/
inductive Batch.Step (op : Operation) (now : Time) (t t' : Tables) (b b' : Batch) : Prop
  | same (h : b' = b)
  | moved (hwriter : b.Writer op now) (hmove : b.Move op now b')
  | activated (req : ActivateRequest) (i i' : Item) (hop : op = .activate req)
      (hbatch : b.id = req.item.batch) (hmove : b.Activates req now b' i i')
  | dispatched (req : BatchDispatchRequest) (i i' : Item) (hop : op = .dispatchBatch req)
      (hmove : Item.Dispatched req now t t' b b' i i')
  | halted (i : Item) (claim : ℕ) (hheld : heldBy b.claim claim) (hmove : b.Halts now b' i)

variable {adm : Admission} {t t' : Tables} {b b' : Batch}

theorem Batch.Step.id (h : Step op now t t' b b') : b'.id = b.id := by
  cases h with
  | same h => rw [h]
  | moved _ hmove => exact hmove.id
  | activated _ _ _ _ _ hmove => rw [hmove.row]; rfl
  | dispatched _ _ _ _ hmove => exact hmove.batch.steers.course.id
  | halted _ _ _ hmove => exact hmove.ends.id

/-- The batches after a transaction: each has taken a step, or there is one more, which has
neither items nor a claim. -/
theorem Tables.Change.steps (h : t.Change adm op now t') :
    t.batches.Rel (Step op now t t') t'.batches ∨
      ∃ b : Batch, b.items = .empty ∧ b.claim = none ∧ t.batches.insert? b = some t'.batches := by
  have same (heq : t'.batches = t.batches) : t.batches.Rel (Step op now t t') t'.batches :=
    heq ▸ .refl fun _ _ => .same rfl
  have put {b d : Batch} (hb : b ∈ t.batches) (hstep : Step op now t t' b d)
      (heq : t'.batches = t.batches.put d) : t.batches.Rel (Step op now t t') t'.batches :=
    heq ▸ rel_put hb hstep.id hstep fun _ _ _ => .same rfl
  cases h with
  | cashOuts _ _ hbatches | same _ hbatches | created _ _ _ _ _ _ _ _ hbatches =>
    exact .inl (same hbatches)
  | batches _ hbatches =>
    refine .inl (hbatches.mono fun b _ b' _ h => ?_)
    obtain rfl | ⟨hwriter, hmove⟩ := h
    · exact .same rfl
    · exact .moved hwriter hmove
  | batchCreated _ _ b _ hrow _ _ _ _ _ _ _ hbatches =>
    exact .inr ⟨b, by rw [hrow]; rfl, by rw [hrow]; rfl, hbatches⟩
  | activated req _ _ i j _ hop hb hid hmove _ _ hbatches =>
    exact .inl (put hb (.activated req i j hop hid hmove) hbatches)
  | dispatched req _ _ i j c c' hop hb _ hmove hc hchild hmove' hundispatched hdispatched hcashOuts
      hbatches =>
    have hid' : c'.id = c.id := hmove'.evolves.id
    have hc' : c' ∈ t'.cashOuts := hcashOuts ▸ mem_put_self hc hid'.symm
    exact .inl (put hb (.dispatched req i j hop ⟨hmove, c, hc, c', hc', hchild, hid'.trans hchild,
      hundispatched, hdispatched⟩) hbatches)
  | halted _ _ i claim _ hb hheld hmove _ hbatches =>
    exact .inl (put hb (.halted i claim hheld hmove) hbatches)

/-- A transaction that changes the row of a batch is a `Batch.Writer` of it. -/
theorem Tables.Change.writes (h : Change adm op now t t') (hb : b ∈ t.batches) :
    b ∈ t'.batches ∨ b.Writer op now := by
  obtain hsteps | ⟨d, -, -, hinsert⟩ := h.steps
  on_goal 2 => exact .inl ((mem_insert? hinsert).mpr (.inl hb))
  obtain ⟨b', hb', hstep⟩ := hsteps.exists_of_mem hb
  cases hstep with
  | same h => exact .inl (h ▸ hb')
  | moved hwriter => exact .inr hwriter
  | activated _ _ _ _ _ hmove => exact .inr (.works (.inl hmove.state))
  | dispatched _ _ _ _ hmove => exact .inr (.works hmove.batch.state)
  | halted _ claim hheld => exact .inr (.holds claim hheld)

/-- What a transaction can do to the child and the baseline of an item. -/
inductive Item.Step (op : Operation) (now : Time) (t t' : Tables) (b b' : Batch) (i i' : Item) :
    Prop
  | kept (hkeeps : i.Keeps i')
  | activated (req : ActivateRequest) (hop : op = .activate req) (hbatch : b.id = req.item.batch)
      (hmove : b.Activates req now b' i i')
  | dispatched (req : BatchDispatchRequest) (hop : op = .dispatchBatch req)
      (hmove : Item.Dispatched req now t t' b b' i i')

theorem Batch.Step.item (h : Step op now t t' b b') {i' : Item} (hi' : i' ∈ b'.items) :
    i'.Untouched ∨ ∃ i ∈ b.items, i'.ordinal = i.ordinal ∧ Item.Step op now t t' b b' i i' := by
  have put {i j : Item} (hi : i ∈ b.items) (hordinal : j.ordinal = i.ordinal)
      (hitems : b'.items = b.items.put j) (hstep : Item.Step op now t t' b b' i j) :
      ∃ i ∈ b.items, i'.ordinal = i.ordinal ∧ Item.Step op now t t' b b' i i' := by
    rw [hitems] at hi'
    obtain rfl | ⟨hi', -⟩ := eq_or_mem_of_mem_put hi'
    · exact ⟨i, hi, hordinal, hstep⟩
    · exact ⟨i', hi', rfl, .kept (.refl i')⟩
  cases h with
  | same h => exact .inr ⟨i', h ▸ hi', rfl, .kept (.refl i')⟩
  | moved _ hmove =>
    obtain ⟨-, hfresh⟩ | hitems := hmove.items
    · exact .inl (hfresh i' hi').2
    · obtain ⟨i, hi, hturn⟩ := hitems.exists_of_mem' hi'
      exact .inr ⟨i, hi, hturn.keeps.ordinal, .kept hturn.keeps⟩
  | activated req i j hop hbatch hmove =>
    exact .inr (put hmove.mem (by rw [hmove.item]; rfl) (by rw [hmove.row]; rfl)
      (.activated req hop hbatch hmove))
  | dispatched req i j hop hmove =>
    exact .inr (put hmove.batch.mem (by rw [hmove.batch.item]; rfl) hmove.batch.items
      (.dispatched req hop hmove))
  | halted _ _ _ hmove =>
    obtain ⟨j, hj, ⟨rfl, rfl⟩ | ⟨-, hturn⟩⟩ := (hmove.items_rel op).exists_of_mem' hi'
    · exact .inr ⟨j, hj, rfl, .kept ⟨rfl, rfl, rfl, rfl⟩⟩
    · exact .inr ⟨j, hj, hturn.keeps.ordinal, .kept hturn.keeps⟩

theorem Tables.Change.item (h : t.Change adm op now t') (hb' : b' ∈ t'.batches) {i' : Item}
    (hi' : i' ∈ b'.items) : i'.Untouched ∨ ∃ b ∈ t.batches, b'.id = b.id ∧ ∃ i ∈ b.items,
      i'.ordinal = i.ordinal ∧ Item.Step op now t t' b b' i i' := by
  obtain hsteps | ⟨d, hempty, -, hinsert⟩ := h.steps
  · obtain ⟨b, hb, hstep⟩ := hsteps.exists_of_mem' hb'
    exact (hstep.item hi').imp_right fun hi => ⟨b, hb, hstep.id, hi⟩
  · obtain hb' | rfl := (mem_insert? hinsert).mp hb'
    · exact .inr ⟨b', hb', rfl, i', hi', rfl, .kept (.refl i')⟩
    · rw [hempty] at hi'
      exact absurd hi' (not_mem_empty i')

/-! ## Before a Close is prepared -/

def State.early : State → Bool
  | .awaitingAuthorization | .queued | .preflighting => true
  | _ => false

def Tables.Early (t : Tables) : Prop := ∀ c ∈ t.cashOuts, c.state.early → c.attempt = none

theorem CashOut.Move.early {c' : CashOut} (h : c.Move op now c')
    (hc : c.state.early → c.attempt = none) (hc' : c'.state.early) : c'.attempt = none := by
  have keep {r : CashOutRow} (hrow : c'.toCashOutRow = r) (hstate : r.state.early → c.state.early)
      (hattempt : r.attempt = c.attempt) : c'.attempt = none := by
    subst hrow
    rw [hattempt]
    exact hc (hstate hc')
  have late {r : CashOutRow} (hrow : c'.toCashOutRow = r) (hstate : r.state.early = false)
      {p : Prop} : p := by
    subst hrow
    rw [hstate] at hc'
    cases hc'
  cases h with
  | authorized _ _ _ _ hstate hrow => exact keep hrow (fun _ => by rw [hstate]; rfl) rfl
  | claimed _ _ _ hrow =>
    refine keep hrow (fun h => ?_) rfl
    dsimp only at h
    split_ifs at h with hqueued
    · rw [hqueued]; rfl
    · exact h
  | renewed _ _ _ _ hrow | reconcileRequested _ _ _ _ hrow => exact keep hrow (fun h => h) rfl
  | closing _ _ _ _ _ hrow | completedDispatch _ _ _ _ _ _ _ _ _ _ _ _ _ hrow
  | failedByBatch _ _ _ _ _ hrow => exact late hrow rfl
  | prepared _ _ _ hstate _ _ _ hrow | dispatched _ _ _ hstate _ _ _ hrow =>
    exact late hrow (by dsimp only; rw [hstate]; rfl)
  | resolved _ _ _ _ _ hattempt _ _ _ _ hrow =>
    -- an attempt that was dispatched was not there in an early state
    have hnot : c.state.early = false := by
      cases he : c.state.early with
      | false => rfl
      | true => cases (hc he).symm.trans hattempt
    exact late hrow hnot
  | observed _ o _ _ hobservable hrow =>
    simp only [observable, check_iff] at hobservable
    obtain ⟨⟨⟨-, hnext⟩, -⟩, -⟩ := hobservable
    have hlate : o.nextState.early = false := by
      obtain ((h | h) | h) | h := hnext <;> rw [h] <;> rfl
    split at hrow <;> exact late hrow hlate
  | expired _ _ _ hrow =>
    unfold expiredRow at hrow
    split at hrow <;> exact late hrow rfl

theorem Tables.Change.early (h : t.Change adm op now t')
    (ht : t.Early) : t'.Early := by
  intro c' hc' he
  obtain ⟨c, hc, rfl | hmove⟩ | hnew := h.origin hc'
  · exact ht c' hc he
  · exact hmove.early (ht c hc) he
  · exact hnew.unclaimed.1

/-! ## Answers -/

namespace Store

variable {adm : Admission} {now : Time} {t t' : Tables}

variable {id : UUID}

theorem exec_claim {k : Claim} (h : exec adm (.claim id k) t now = .ok (t', c)) :
    c ∈ t'.cashOuts ∧ c.id = id := by
  obtain ⟨c₀, hc, rfl, hf, rfl⟩ := onCashOut_ok (of_ensure h).2
  simp only [Queries.claimPositionCashOut, committed, CashOut.write_eq_ok] at hf
  have hid : c.id = c₀.id := by rw [hf.2]
  exact ⟨mem_put_self (mem_of_get? hc) hid.symm, hid⟩

theorem exec_beginClosing {k : ℕ} {state : String}
    (h : exec adm (.beginClosing id k state) t now = .ok (t', c)) : c ∈ t'.cashOuts ∧ c.id = id ∧
      ∃ c₀ ∈ t.cashOuts, c₀.state = .preflighting ∧ c.attempt = c₀.attempt := by
  obtain ⟨c₀, hc, rfl, hf, rfl⟩ := onCashOut_ok (of_ensure h).2
  simp only [Queries.beginPositionCashOutClosing, committed, CashOut.write_eq_ok] at hf
  obtain ⟨⟨hstate, -⟩, hrow⟩ := hf
  have hid : c.id = c₀.id := by rw [hrow]
  exact ⟨mem_put_self (mem_of_get? hc) hid.symm, hid, c₀, mem_of_get? hc, hstate,
    by rw [hrow]⟩

theorem exec_resolve {attempt : UUID} {r : Resolution} {a : Attempt}
    (h : exec adm (.resolve id attempt r) t now = .ok (t', a)) :
    (∃ c ∈ t'.cashOuts, c.id = id ∧ c.attempt = some a) ∧ a.wasDispatched := by
  simp only [exec, resolvePositionCashOutAttempt, committed, CashOut.write_eq_ok] at h
  obtain ⟨-, c, hc, a', h, c', hrow, rfl, rfl⟩ := h
  obtain ⟨a₀, d, -, -, -, -, -, hstatus⟩ := resolveAttempt_ok h
  have hid : c'.id = c.id := by rw [hrow]
  refine ⟨⟨c', mem_put_self (mem_of_get? hc) hid.symm, ?_, by rw [hrow]⟩, ?_⟩
  · exact hid.trans (cashOut_eq_some.mp hc).2
  · simp [Attempt.wasDispatched, hstatus]

theorem exec_dispatches {op : Operation} {attempt : UUID} {k : ℕ} {a : op.Reply}
    (hop : op.dispatches id attempt k) (h : exec adm op t now = .ok (t', a)) :
    ∃ c ∈ t.cashOuts, ∃ c' ∈ t'.cashOuts, c.id = id ∧ c'.id = id ∧
      wasDispatched c.attempt = false ∧ wasDispatched c'.attempt := by
  have written {c c' : CashOut} {op : Operation} (hc : t.cashOut id = some c)
      (hm : c.Move op now c' ∧ wasDispatched c.attempt = false ∧ wasDispatched c'.attempt)
      (ht : t'.cashOuts = t.cashOuts.put c') :
      ∃ c ∈ t.cashOuts, ∃ c' ∈ t'.cashOuts, c.id = id ∧ c'.id = id ∧
        wasDispatched c.attempt = false ∧ wasDispatched c'.attempt := by
    obtain ⟨hmem, rfl⟩ := cashOut_eq_some.mp hc
    have hid : c'.id = c.id := hm.1.evolves.id
    exact ⟨c, hmem, c', ht ▸ mem_put_self hmem hid.symm, rfl, hid, hm.2⟩
  obtain rfl | ⟨req, rfl, rfl, rfl, rfl⟩ := hop
  · simp only [exec, dispatchPositionCashOutAttempt, committed, Prod.exists] at h
    obtain ⟨c, hc, c', a', h, rfl, -⟩ := h
    obtain ⟨-, rfl⟩ := cashOut_eq_some.mp hc
    exact written hc (dispatchAttempt_ok h (.inl rfl)) rfl
  · simp only [exec, dispatchPositionCashOutBatchAttempt, committed, Prod.exists, Item.write_eq_ok,
      write_eq_ok] at h
    obtain ⟨-, b, -, -, i, -, -, c, hc, c', a', h, -, i', -, b', -, rfl, -⟩ := h
    obtain ⟨-, hid⟩ := cashOut_eq_some.mp hc
    exact written hc (dispatchAttempt_ok h (.inr ⟨req, rfl, hid.symm, rfl, rfl⟩)) rfl

end Store
end Athena.CashOuts
