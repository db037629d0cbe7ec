import Athena.CashOuts.Script

/-!
# A batch goes through its items one after another

In every interleaving the items of a batch are activated in their order, and each only
after the credit of all that come before it was confirmed.  The child of an item is bound
to the position of the item, and only the current item of a batch has a child that still
works.
-/

namespace Athena.CashOuts

open Athena.Lib Table Queries Store Option Tables Sample World.Reachable

def Activates (e : Event) (ref : ItemRef) : Prop :=
  (∃ i, e.before.item ref = some i ∧ i.child = none) ∧
    ∃ i, e.after.item ref = some i ∧ i.child ≠ none

/-- The event dispatches the Close of a Cash Out and stores the baseline of an item. -/
def StoresBaseline (e : Event) (ref : ItemRef) (id : UUID) (baseline : Balance) : Prop :=
  (∃ i, e.before.item ref = some i ∧ i.baseline = none) ∧
    (∃ i, e.after.item ref = some i ∧ i.baseline = some baseline) ∧
    ∃ c ∈ e.before.cashOuts, ∃ c' ∈ e.after.cashOuts, c.id = id ∧ c'.id = id ∧
      wasDispatched c.attempt = false ∧ wasDispatched c'.attempt

theorem Tables.item_eq_some {t : Tables} {ref : ItemRef} {i : Item} :
    t.item ref = some i ↔ ∃ b ∈ t.batches, i ∈ b.items ∧ ref = ⟨b.id, i.ordinal⟩ := by
  rw [item, bind_eq_some_iff]
  constructor
  · rintro ⟨b, hb, hi⟩
    obtain ⟨hb, hid⟩ := batch_eq_some.mp hb
    obtain ⟨hi, hordinal⟩ := get?_eq_some.mp hi
    exact ⟨b, hb, hi, by rw [hid, hordinal]⟩
  · rintro ⟨b, hb, hi, rfl⟩
    exact ⟨b, batch_eq_some.mpr ⟨hb, rfl⟩, get?_eq_some.mpr ⟨hi, rfl⟩⟩

namespace Tables.Family

variable {t : Tables} {b : Batch} {i : Item}

theorem place_of_child (h : t.Family) (hb : b ∈ t.batches) (hi : i ∈ b.items)
    (hchild : i.child ≠ none) : i.ordinal ≤ b.completedCount + 1 := by
  by_contra hlt
  exact hchild ((h.course b hb).rest i hi (by omega)).2.1

theorem current_of_open_child (h : t.Family) (hb : b ∈ t.batches) (hi : i ∈ b.items) {c : CashOut}
    (hc : c ∈ t.cashOuts) (hchild : i.child = some c.id) (hopen : c.state.terminal = false) :
    b.currentItem = some i.ordinal := by
  have hcourse := h.course b hb
  have hpair := h.pair hb hi hc hchild
  have hchild' : i.child ≠ none := by rw [hchild]; exact some_ne_none _
  have hended : i.state.ended = false := by
    cases hended : i.state.ended with
    | false => rfl
    | true => cases hopen.symm.trans (hpair.ended hended)
  have hpending : i.state ≠ .pending := fun hp => hchild' (hcourse.pending i hi hp).1
  -- it is not among those that are completed, so it is the next one
  have hplace : i.ordinal = b.completedCount + 1 := by
    have hle := h.place_of_child hb hi hchild'
    by_contra hne
    have hdone := (hcourse.done i hi (by omega)).1
    rw [hdone] at hended
    cases hended
  cases hterminal : b.state.terminal with
  | true =>
    have hstop := hcourse.stopped i hi hplace hterminal
    cases hstate : b.state <;> rw [hstate] at hstop <;>
      first
      | exact absurd hstop hpending
      | (rw [hstop] at hended; cases hended)
  | false =>
    obtain hnone | hsome := hcourse.current hterminal
    · exact absurd (hcourse.waiting i hi hplace hterminal hnone) hpending
    · rw [hsome, hplace]

end Tables.Family

section events
variable {w : World} {e e' : Event} {ref ref' : ItemRef} (hw : w.Reachable)
include hw

section
variable (he : e ∈ w.log) (h : Activates e ref)
include he h

theorem Activates.activates :
    ∃ b ∈ e.before.batches, ∃ i ∈ b.items, ref = ⟨b.id, i.ordinal⟩ ∧ b.currentItem = none ∧
      b.state.terminal = false ∧ b.nextItem = some i.ordinal := by
  obtain ⟨⟨i, hi, hnone⟩, i', hi', hsome⟩ := h
  obtain heq | ⟨adm, op, now, hchange⟩ := hw.change he
  · rw [heq, hi] at hi'
    rw [← some.inj hi'] at hsome
    exact absurd hnone hsome
  obtain ⟨b, hb, hmem, rfl⟩ := item_eq_some.mp hi
  obtain ⟨b', hb', hmem', href⟩ := item_eq_some.mp hi'
  obtain ⟨hid, hordinal⟩ := ItemRef.mk.inj href
  obtain huntouched | ⟨d, hd, hid', j, hj, hordinal', hstep⟩ := hchange.item hb' hmem'
  · exact absurd huntouched.1 hsome
  obtain rfl : d = b := eq_of_key_eq hd hb (hid'.symm.trans hid.symm)
  obtain rfl : j = i := eq_of_key_eq hj hmem (hordinal'.symm.trans hordinal.symm)
  cases hstep with
  | kept hkeeps => exact absurd (hkeeps.child.trans hnone) hsome
  | activated _ _ _ hmove =>
    exact ⟨d, hb, j, hmem, rfl, hmove.current, by rw [hmove.state]; rfl, hmove.next⟩
  | dispatched _ _ hmove => cases hnone.symm.trans hmove.batch.child

theorem Activates.done :
    ∃ b ∈ e.before.batches, b.id = ref.batch ∧ b.currentItem = none ∧ b.state.terminal = false ∧
      ref.ordinal = b.completedCount + 1 := by
  obtain ⟨b, hb, i, hi, rfl, hcurrent, hopen, hnext⟩ := h.activates hw he
  have hcourse := ((steady hw).events e he).1.family.course b hb
  exact ⟨b, hb, rfl, hcurrent, hopen, hcourse.next_ordinal hopen hnext⟩

theorem Activates.child_later {t : Tables} (ht : t.Family) (hev : e.after.Evolves t) :
    ∃ b ∈ t.batches, ∃ i ∈ b.items, ref = ⟨b.id, i.ordinal⟩ ∧ i.child ≠ none := by
  obtain ⟨-, i, hi, hsome⟩ := h
  obtain ⟨b, hb, hmem, rfl⟩ := item_eq_some.mp hi
  obtain ⟨x, hx⟩ := ne_none_iff_exists'.mp hsome
  have hfamily := ((steady hw).events e he).2.family
  obtain ⟨c, hc, hpair⟩ := hfamily.paired b hb i hmem x hx
  obtain ⟨c', hc', hev'⟩ := hev c hc
  obtain ⟨b', hb', i', hi', href, hchild⟩ := ht.sourced c' hc' _ (hev'.source.trans hpair.source)
  exact ⟨b', hb', i', hi', href, by rw [hchild]; exact some_ne_none _⟩

end

theorem Activates.lt (he : e ∈ w.log) (he' : e' ∈ w.log) (hev : e.after.Evolves e'.before)
    (h : Activates e ref) (h' : Activates e' ref') (hbatch : ref.batch = ref'.batch) :
    ref.ordinal < ref'.ordinal := by
  obtain ⟨b, hb, hid, hcurrent, hopen, hordinal⟩ := h'.done hw he'
  have hfamily := ((steady hw).events e' he').1.family
  obtain ⟨d, hd, i, hi, rfl, hchild⟩ := h.child_later hw he hfamily hev
  obtain rfl : d = b := eq_of_key_eq hd hb (hbatch.trans hid.symm)
  have hcourse := hfamily.course d hb
  -- nothing is being worked on, so what has a child is completed
  have hle := hfamily.place_of_child hb hi hchild
  have hne : i.ordinal ≠ d.completedCount + 1 := fun heq =>
    hchild (hcourse.pending i hi (hcourse.waiting i hi heq hopen hcurrent)).1
  dsimp only
  omega

theorem exists_activates {b : Batch} (hb : b ∈ w.shared.batches) {i : Item} (hi : i ∈ b.items)
    (hchild : i.child ≠ none) : ∃ e ∈ w.log, Activates e ⟨b.id, i.ordinal⟩ := by
  let P (t : Tables) : Prop := ∃ j, t.item ⟨b.id, i.ordinal⟩ = some j ∧ j.child ≠ none
  have hinit : ¬P pool.init := by
    rintro ⟨j, hj, -⟩
    obtain ⟨d, hd, -⟩ := item_eq_some.mp hj
    exact absurd hd (not_mem_empty d)
  have hnow : P w.shared := ⟨i, item_eq_some.mpr ⟨b, hb, hi, rfl⟩, hchild⟩
  obtain ⟨l₁, e, l₂, hlog, hbefore, j, hj, hsome⟩ := Pool.Reachable.exists_event hw hinit hnow
  have he : e ∈ w.log := by rw [hlog]; simp
  refine ⟨e, he, ?_, j, hj, hsome⟩
  obtain heq | ⟨adm, op, now, hchange⟩ := hw.change he
  · exact absurd ⟨j, heq ▸ hj, hsome⟩ hbefore
  obtain ⟨d, hd, hmem, href⟩ := item_eq_some.mp hj
  obtain huntouched | ⟨d₀, hd₀, hid, j₀, hj₀, hordinal, -⟩ := hchange.item hd hmem
  · exact absurd huntouched.1 hsome
  have hitem : e.before.item ⟨b.id, i.ordinal⟩ = some j₀ :=
    item_eq_some.mpr ⟨d₀, hd₀, hj₀, by rw [href, hid, hordinal]⟩
  refine ⟨j₀, hitem, ?_⟩
  by_contra hchild₀
  exact hbefore ⟨j₀, hitem, hchild₀⟩

theorem exists_storesBaseline {b : Batch} (hb : b ∈ w.shared.batches) {i : Item} (hi : i ∈ b.items)
    {c : CashOut} (hchild : i.child = some c.id) {baseline : Balance}
    (hbaseline : i.baseline = some baseline) :
    ∃ e ∈ w.log, StoresBaseline e ⟨b.id, i.ordinal⟩ c.id baseline := by
  let P (t : Tables) : Prop := ∃ j, t.item ⟨b.id, i.ordinal⟩ = some j ∧ j.baseline = some baseline
  have hinit : ¬P pool.init := by
    rintro ⟨j, hj, -⟩
    obtain ⟨d, hd, -⟩ := item_eq_some.mp hj
    exact absurd hd (not_mem_empty d)
  have hnow : P w.shared := ⟨i, item_eq_some.mpr ⟨b, hb, hi, rfl⟩, hbaseline⟩
  obtain ⟨l₁, e, l₂, hlog, hbefore, j, hj, hsome⟩ := Pool.Reachable.exists_event hw hinit hnow
  have he : e ∈ w.log := by rw [hlog]; simp
  have hsteady := steady hw
  obtain heq | ⟨adm, op, now, hchange⟩ := hw.change he
  · exact absurd ⟨j, heq ▸ hj, hsome⟩ hbefore
  obtain ⟨d, hd, hmem, href⟩ := item_eq_some.mp hj
  obtain ⟨hdid, hjordinal⟩ := ItemRef.mk.inj href
  obtain huntouched | ⟨d₀, hd₀, hid, j₀, hj₀, hordinal, hstep⟩ := hchange.item hd hmem
  · cases huntouched.2.symm.trans hsome
  have hitem : e.before.item ⟨b.id, i.ordinal⟩ = some j₀ :=
    item_eq_some.mpr ⟨d₀, hd₀, hj₀, by rw [href, hid, hordinal]⟩
  cases hstep with
  | kept hkeeps => exact absurd ⟨j₀, hitem, hkeeps.baseline.symm.trans hsome⟩ hbefore
  | activated _ _ _ hmove =>
    have hsame : j.baseline = j₀.baseline := by rw [hmove.item]; rfl
    exact absurd ⟨j₀, hitem, hsame.symm.trans hsome⟩ hbefore
  | dispatched req _ hmove =>
    obtain ⟨c₀, hc₀, c₁, hc₁, hid₀, hid₁, hundispatched, hdispatched⟩ := hmove.child
    have hchild₁ : j.child = some req.cashOut := by
      rw [hmove.batch.item]; exact hmove.batch.child
    have hchild' : i.child = some req.cashOut :=
      (hsteady.events e he).2.family.child_of_evolves hsteady.holds.family (hsteady.now e he) hd
        hmem hchild₁ hb hi hdid hjordinal
    have hcid : req.cashOut = c.id := mem_unique hchild' hchild
    exact ⟨e, he, ⟨j₀, hitem, hmove.batch.baseline⟩, ⟨j, hj, hsome⟩, c₀, hc₀, c₁, hc₁,
      hid₀.trans hcid, hid₁.trans hcid, hundispatched, hdispatched⟩

end events

/-! ## Order -/

/-- The items of a batch are activated in increasing order, and each only when those before
it are completed with a balance that passed the gate.  A child belongs to an item that was
activated and is bound to the item's position, and the only child of a batch that has not
ended is the child of its current item. -/
theorem items_activated_in_order {w : World} (hw : w.Reachable) :
    (w.log.Pairwise fun e e' => ∀ ref ref', Activates e ref → Activates e' ref' →
      ref.batch = ref'.batch → ref.ordinal < ref'.ordinal) ∧
    (∀ e ∈ w.log, ∀ ref, Activates e ref → ∃ b ∈ e.before.batches, b.id = ref.batch ∧
      ∀ i ∈ b.items, i.ordinal < ref.ordinal → i.state = .completed ∧ i.Confirmed) ∧
    (∀ c ∈ w.shared.cashOuts, ∀ ref, c.source = some ref →
      (∃ e ∈ w.log, Activates e ref) ∧ ∃ i, w.shared.item ref = some i ∧ i.child = some c.id ∧
        c.toPosition = i.toPosition) ∧
    ∀ b ∈ w.shared.batches, ∀ c ∈ w.shared.cashOuts, ∀ ordinal, c.source = some ⟨b.id, ordinal⟩ →
      c.state.terminal = false → b.currentItem = some ordinal ∧
        ∀ c' ∈ w.shared.cashOuts, ∀ ordinal', c'.source = some ⟨b.id, ordinal'⟩ →
          c'.state.terminal = false → c' = c := by
  have hsteady := hw.steady
  have hfamily := hw.family
  refine ⟨?_, ?_, ?_, ?_⟩
  · refine hsteady.order.imp_of_mem fun {e e'} he he' hev ref ref' h h' hbatch => ?_
    exact h.lt hw he he' hev h' hbatch
  · intro e he ref h
    obtain ⟨b, hb, hid, -, -, hordinal⟩ := h.done hw he
    refine ⟨b, hb, hid, fun i hi hlt => ?_⟩
    exact ((hsteady.events e he).1.family.course b hb).done i hi (by omega)
  · intro c hc ref href
    obtain ⟨b, hb, i, hi, rfl, hchild⟩ := hfamily.sourced c hc ref href
    refine ⟨exists_activates hw hb hi (by rw [hchild]; exact some_ne_none _), i,
      item_eq_some.mpr ⟨b, hb, hi, rfl⟩, hchild, (hfamily.pair hb hi hc hchild).position⟩
  · have current (b : Batch) (hb : b ∈ w.shared.batches) (c : CashOut)
        (hc : c ∈ w.shared.cashOuts) (ordinal : ℕ) (href : c.source = some ⟨b.id, ordinal⟩)
        (hopen : c.state.terminal = false) : b.currentItem = some ordinal := by
      obtain ⟨d, hd, i, hi, hsource, hchild⟩ := hfamily.sourced c hc _ href
      obtain ⟨hid, rfl⟩ := ItemRef.mk.inj hsource
      obtain rfl : b = d := eq_of_key_eq hb hd hid
      exact hfamily.current_of_open_child hb hi hc hchild hopen
    intro b hb c hc ordinal href hopen
    have hcurrent := current b hb c hc ordinal href hopen
    refine ⟨hcurrent, fun c' hc' ordinal' href' hopen' => ?_⟩
    have hcurrent' := current b hb c' hc' ordinal' href' hopen'
    obtain rfl : ordinal = ordinal' := mem_unique hcurrent hcurrent'
    obtain ⟨d, hd, i, hi, hsource, hchild⟩ := hfamily.sourced c hc _ href
    obtain ⟨d', hd', i', hi', hsource', hchild'⟩ := hfamily.sourced c' hc' _ href'
    obtain ⟨hid, hordinal⟩ := ItemRef.mk.inj (hsource.symm.trans hsource')
    obtain rfl : d = d' := eq_of_key_eq hd hd' hid
    obtain rfl : i = i' := eq_of_key_eq hi hi' hordinal
    exact eq_of_key_eq hc' hc (mem_unique hchild' hchild)

theorem Sample.tour_items : ∃ b ∈ (script tour).shared.batches.rows, ∃ i ∈ b.items.rows,
    i.state = .completed ∧ i.delta = "4" ∧ ∃ j ∈ b.items.rows, i.ordinal < j.ordinal ∧
      j.child ≠ none := by decide +kernel

theorem items_activated_in_order_tour :
    (∃ b ∈ (script Sample.tour).shared.batches.rows, ∃ i ∈ b.items.rows, i.state = .completed ∧
      ∃ j ∈ b.items.rows, i.ordinal < j.ordinal ∧ j.child ≠ none) ∧
    ((script Sample.tour).log.Pairwise fun e e' => ∀ ref ref', Activates e ref →
      Activates e' ref' → ref.batch = ref'.batch → ref.ordinal < ref'.ordinal) := by
  obtain ⟨b, hb, i, hi, hstate, -, hnext⟩ := tour_items
  exact ⟨⟨b, hb, i, hi, hstate, hnext⟩, (items_activated_in_order (reachable_script tour)).1⟩

/-! ## Credits -/

theorem validBalance_amount {e : Balance} (h : validBalance e) :
    Numeral.readInt? e.atomicAmount = some e.amount ∧ 0 ≤ e.amount := by
  simp only [validBalance, Bool.and_eq_true] at h
  obtain ⟨amount, hread, hnonneg⟩ := (any_eq_true _ _).mp h.2
  simp only [Balance.amount, hread, getD_some, true_and]
  exact of_decide_eq_true hnonneg

/-- Behind a completed item stand a child that is completed with closed evidence, a baseline
that was stored when the child was dispatched, and a later balance of the same mint and
decimals that exceeds it by exactly the delta of the item. -/
theorem credit_of_completed_item {w : World} (hw : w.Reachable) {b : Batch}
    (hb : b ∈ w.shared.batches) {i : Item} (hi : i ∈ b.items) (hstate : i.state = .completed) :
    ∃ c ∈ w.shared.cashOuts, i.child = some c.id ∧ c.source = some ⟨b.id, i.ordinal⟩ ∧
      c.state = .completed ∧ c.providerIsClosed ∧ c.providerIsLiquidated = false ∧
      ∃ baseline observed : Balance, i.baseline = some baseline ∧ i.observed = some observed ∧
        validBalance baseline ∧ validBalance observed ∧
        (∃ e ∈ w.log, StoresBaseline e ⟨b.id, i.ordinal⟩ c.id baseline) ∧
        observed.mint = baseline.mint ∧ observed.decimals = baseline.decimals ∧
        baseline.observedSlot < observed.observedSlot ∧
        ∃ before after : ℤ, Numeral.readInt? baseline.atomicAmount = some before ∧
          Numeral.readInt? observed.atomicAmount = some after ∧ before < after ∧
          i.delta = Numeral.showInt (after - before) ∧
          Numeral.readInt? i.delta = some (after - before) := by
  have hfamily := hw.family
  have hcourse := hfamily.course b hb
  have hcredited : i.state.credited := by rw [hstate]; rfl
  obtain ⟨x, hx⟩ := ne_none_iff_exists'.mp (hfamily.credited b hb i hi hcredited)
  obtain ⟨c, hc, hpair⟩ := hfamily.paired b hb i hi x hx
  have hcompleted := (hpair.credited hcredited).1
  obtain ⟨hclosed, hliquidated⟩ := c.checked.closed hcompleted
  obtain ⟨baseline, observed, hbaseline, hobserved, hvalid, hgate, hdelta⟩ :=
    (hcourse.done i hi (hcourse.ordinal_le_of_completed hi hstate)).2
  have hvalid' := hcourse.baselines i hi baseline hbaseline
  simp only [balanceGate, check_iff] at hgate
  obtain ⟨⟨⟨hmint, hdecimals⟩, hslot⟩, hamount⟩ := hgate
  refine ⟨c, hc, hpair.child, hpair.source, hcompleted, hclosed, hliquidated, baseline, observed,
    hbaseline, hobserved, hvalid', hvalid, ?_, hmint, hdecimals, hslot, baseline.amount,
    observed.amount, (validBalance_amount hvalid').1, (validBalance_amount hvalid).1, hamount,
    hdelta, ?_⟩
  · exact exists_storesBaseline hw hb hi hpair.child hbaseline
  · rw [hdelta, balanceDelta, Numeral.readInt?_showInt]

/-- The first item of the tour is credited with what the balance gained. -/
theorem credit_of_completed_item_tour :
    ∃ b ∈ (script Sample.tour).shared.batches, ∃ i ∈ b.items, i.delta = "4" ∧
      i.state = .completed ∧ ∃ c ∈ (script Sample.tour).shared.cashOuts,
        i.child = some c.id ∧ c.state = .completed := by
  obtain ⟨b, hb, i, hi, hstate, hdelta, -⟩ := tour_items
  rw [mem_rows] at hb hi
  obtain ⟨c, hc, hchild, -, hcompleted, -⟩ :=
    credit_of_completed_item (reachable_script tour) hb hi hstate
  exact ⟨b, hb, i, hi, hdelta, hstate, c, hc, hchild, hcompleted⟩

end Athena.CashOuts
