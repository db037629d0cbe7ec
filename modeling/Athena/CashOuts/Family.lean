import Athena.CashOuts.Course

/-!
# A batch and its children

The item that a batch works on and the child Cash Out that closes its position are two
rows that different transactions write.  `Tables.Family` says how they agree: a child
names its item and freezes the item's position, the baseline of the item is stored
exactly when the child is dispatched, and an item that has ended has a child that has.

What the invariant needs of the transactions that the worker runs is `Tables.Licensed`.
-/

namespace Athena.CashOuts

open Athena.Lib Table Queries Store Option

/-! ## What a transaction does to an item -/

/-- The columns of an item that link it to its batch, its position and its child. -/
structure Item.Keeps (i i' : Item) : Prop where
  ordinal : i'.ordinal = i.ordinal
  position : i'.toPosition = i.toPosition
  child : i'.child = i.child
  baseline : i'.baseline = i.baseline

def ItemState.credited : ItemState → Bool
  | .awaitingBalance | .completed => true
  | _ => false

theorem ItemState.eq_awaitingBalance {s : ItemState} (h : s.credited) (h' : s.inFlight) :
    s = .awaitingBalance := by
  cases s <;> first | rfl | exact absurd h (by decide) | exact absurd h' (by decide)

theorem ItemState.not_ended_of_inFlight {s : ItemState} (h : s.inFlight) : s.ended = false := by
  cases s <;> first | rfl | cases h

inductive Item.Turn (op : Operation) (b : Batch) (i i' : Item) : Prop
  | same (h : i' = i)
  | worked (hkeeps : i.Keeps i') (hopen : i.state.ended = false) (hflight : i'.state.inFlight)
      (hcredit : i'.state.credited → i.state.credited ∨ ∃ req, op = .recordItem req ∧
        req.nextState = .awaitingBalance ∧ req.item = ⟨b.id, i.ordinal⟩)
  | completed (hkeeps : i.Keeps i') (hstate : i.state = .awaitingBalance)
      (hstate' : i'.state = .completed)
  | failed (hkeeps : i.Keeps i') (req : BlockingRequest) (hop : op = .recordBlocking req)
      (hitem : req.item = ⟨b.id, i.ordinal⟩) (hopen : i.state.ended = false)
      (hreq : req.itemState = .failed) (hstate' : i'.state = .failed)
  | unexecuted (hkeeps : i.Keeps i') (hstate : i.state = .pending)
      (hstate' : i'.state = .notExecuted)

namespace Item

variable {op : Operation} {now : Time} {b b' : Batch} {i i' j : Item}

theorem Keeps.refl (i : Item) : i.Keeps i := ⟨rfl, rfl, rfl, rfl⟩

theorem Turn.keeps (h : i.Turn op b i') : i.Keeps i' := by
  cases h with
  | same h => exact h ▸ .refl i
  | worked hkeeps | completed hkeeps | failed hkeeps | unexecuted hkeeps => exact hkeeps

theorem Turn.eq_of_pending (h : i.Turn op b i') (hpending : i'.state = .pending) : i' = i := by
  cases h with
  | same h => exact h
  | worked _ _ hflight => rw [hpending] at hflight; cases hflight
  | completed _ _ hstate' | failed _ _ _ _ _ _ hstate' | unexecuted _ _ hstate' =>
    cases hpending.symm.trans hstate'

theorem turn_of_blocked {req : BlockingRequest} {reason : Reason}
    (hop : op = .recordBlocking req) (hitem : req.item = ⟨b.id, i.ordinal⟩)
    (hstate : req.itemState = .failed ∨ req.itemState = .reconciliationRequired)
    (hopen : i.state.ended = false)
    (hrow : i'.toItemRow = blockedItem i.toItemRow req.itemState reason now) :
    i.Turn op b i' := by
  have hkeeps : i.Keeps i' :=
    ⟨by rw [hrow]; rfl, by rw [hrow]; rfl, by rw [hrow]; rfl, by rw [hrow]; rfl⟩
  have hstate' : i'.state = req.itemState := by rw [hrow]; rfl
  obtain h | h := hstate
  · exact .failed hkeeps req hop hitem hopen h (hstate'.trans h)
  · refine .worked hkeeps hopen (by rw [hstate', h]; rfl) fun hc => ?_
    rw [hstate', h] at hc
    cases hc

theorem Move.turn (h : i.Move op now i')
    (hid : ∀ req, op = .recordItem req → b.id = req.item.batch) :
    i.Turn op b i' := by
  obtain ⟨hordinal, hchild, hbaseline, hposition, hflight⟩ := Batch.Course.item_move h
  have hkeeps : i.Keeps i' := ⟨hordinal, hposition, hchild, hbaseline⟩
  cases h with
  | recorded req hop hreq hvalid hstate hrow =>
    have hopen : i.state.ended = false := by
      simp only [ItemStateRequest.valid, Bool.and_eq_true] at hvalid
      obtain ⟨⟨⟨⟨hvalid, -⟩, -⟩, -⟩, -⟩ := hvalid
      rw [hstate]
      cases he : req.expectedState <;> first | rfl | (rw [he] at hvalid; cases hvalid)
    refine .worked hkeeps hopen hflight fun hc => .inr ⟨req, hop, ?_, ?_⟩
    · have hstate' : i'.state = req.nextState := by rw [hrow]; rfl
      rw [hstate'] at hc hflight
      exact ItemState.eq_awaitingBalance hc hflight
    · rw [hid req hop, hreq]
  | observed _ _ hstate =>
    exact .worked hkeeps (by rw [hstate]; rfl) hflight fun _ => .inl (by rw [hstate]; rfl)

end Item

namespace Batch

variable {op : Operation} {now : Time} {b b' : Batch} {i i' : Item}

theorem rel_put_turn (hi : i ∈ b.items) (hturn : i.Turn op b i') :
    b.items.Rel (Item.Turn op b) (b.items.put i') :=
  rel_put hi hturn.keeps.ordinal hturn fun _ _ _ => .same rfl

theorem rel_markRemaining {R S : Item → Item → Prop} {items items' : Items} {reason : Reason}
    (h : items.Rel R items') (hsame : ∀ i j, R i j → S i j)
    (hmark : ∀ i j, R i j → j.state = .pending → S i (markNotExecuted reason now j)) :
    items.Rel S (markRemaining items' reason now) := by
  refine h.trans (rel_update _ _ fun _ _ => rfl) ?_
  rintro i j _ hij rfl
  by_cases hj : j.state = .pending
  · simpa [hj] using hmark i j hij hj
  · simpa [hj] using hsame i j hij

theorem rel_remaining {items : Items} {reason : Reason} (h : b.items.Rel (Item.Turn op b) items) :
    b.items.Rel (Item.Turn op b) (markRemaining items reason now) :=
  rel_markRemaining h (fun _ _ hturn => hturn) fun i j hturn hpending => by
    obtain rfl := hturn.eq_of_pending hpending
    exact .unexecuted ⟨rfl, rfl, rfl, rfl⟩ hpending rfl

/-- The items of a batch that halts: the current one is marked, the others take their turn. -/
theorem Halts.items_rel (op : Operation) (h : b.Halts now b' i) : b.items.Rel (fun j j' =>
    (j = i ∧ j' = markNotExecuted batchTerminated now i) ∨
      (j.ordinal ≠ i.ordinal ∧ j.Turn op b j')) b'.items := by
  rw [h.items]
  refine rel_markRemaining (rel_put h.mem rfl (.inl ⟨rfl, rfl⟩) fun j _ hne => ?_)
    (fun _ _ hjj' => hjj') fun j j' hjj' hpending => ?_
  · exact .inr ⟨hne, .same rfl⟩
  · obtain ⟨-, rfl⟩ | ⟨hne, hturn⟩ := hjj'
    · cases hpending
    · obtain rfl := hturn.eq_of_pending hpending
      exact .inr ⟨hne, .unexecuted ⟨rfl, rfl, rfl, rfl⟩ hpending rfl⟩

theorem Move.id (hm : b.Move op now b') : b'.id = b.id := by
  cases hm with
  | steered hsteers => exact hsteers.course.id
  | built _ _ _ _ _ _ _ hrow | advanced _ _ _ _ _ _ _ _ _ _ _ _ _ _ _ hrow
  | blocked _ _ _ _ _ _ _ _ _ _ _ _ _ _ hrow => rw [hrow]; rfl
  | dropped hends | failed _ _ _ _ hends | completed hends | terminated hends => exact hends.id
  | itemed i j hsteers => exact hsteers.course.id

theorem Move.items (hm : b.Move op now b') :
    (b.state = .building ∧ ∀ i' ∈ b'.items, i'.state = .pending ∧ i'.Untouched) ∨
      b.items.Rel (Item.Turn op b) b'.items := by
  have same : b.items.Rel (Item.Turn op b) b.items := .refl fun _ _ => .same rfl
  cases hm with
  | steered _ hitems | dropped _ _ _ _ hitems | completed _ _ _ _ _ _ hitems =>
    exact .inr (hitems ▸ same)
  | built _ _ items _ hstate _ hitems hrow =>
    refine .inl ⟨hstate, fun i' hi' => ?_⟩
    have hitems' : b'.items = items := by rw [hrow]; rfl
    rw [hitems', ← mem_rows, hitems, List.mem_mapIdx] at hi'
    obtain ⟨k, _, rfl⟩ := hi'
    exact ⟨rfl, rfl, rfl⟩
  | itemed _ _ _ hi hid _ hmove hitems => exact .inr (hitems ▸ rel_put_turn hi (hmove.turn hid))
  | advanced _ _ j _ _ _ _ hi _ hstate _ _ hrow' _ _ hrow =>
      have hitems : b'.items = b.items.put j := by rw [hrow]; rfl
      refine .inr (hitems ▸ rel_put_turn hi (.completed ?_ hstate (by rw [hrow']; rfl)))
      exact ⟨by rw [hrow']; rfl, by rw [hrow']; rfl, by rw [hrow']; rfl, by rw [hrow']; rfl⟩
  | blocked _ _ j _ hop hvalid _ hi hid hordinal _ hended _ hrow' hrow =>
    have hitems : b'.items = b.items.put j := by rw [hrow]; rfl
    simp only [BlockingRequest.valid, check_iff] at hvalid
    exact .inr (hitems ▸ rel_put_turn hi
      (Item.turn_of_blocked hop (by rw [hid, hordinal]) hvalid.1.1 hended hrow'))
  | failed _ _ _ _ _ hop hvalid _ hi hid hordinal _ hended hrow' _ _ hitems =>
      simp only [BlockingRequest.valid, check_iff] at hvalid
      exact .inr (hitems ▸ rel_remaining (rel_put_turn hi
        (Item.turn_of_blocked hop (by rw [hid, hordinal]) hvalid.1.1 hended hrow')))
  | terminated _ _ _ _ _ hitems => exact .inr (hitems ▸ rel_remaining same)

theorem Move.exists_item (hc : b.Course) (hm : b.Move op now b') (hi : i ∈ b.items) :
    ∃ i' ∈ b'.items, i.Turn op b i' := by
  obtain ⟨hbuilding, -⟩ | hitems := hm.items
  · exact hc.no_items hbuilding hi
  · exact hitems.exists_of_mem hi

end Batch

/-! ## Items and children -/

structure Item.Paired (b : Batch) (i : Item) (c : CashOut) : Prop where
  child : i.child = some c.id
  source : c.source = some ⟨b.id, i.ordinal⟩
  position : c.toPosition = i.toPosition
  baseline : i.baseline.isSome = wasDispatched c.attempt
  credited : i.state.credited → c.state = .completed ∧ wasDispatched c.attempt
  ended : i.state.ended → c.state.terminal

structure Tables.Family (t : Tables) : Prop where
  course : ∀ b ∈ t.batches, b.Course
  paired : ∀ b ∈ t.batches, ∀ i ∈ b.items, ∀ x, i.child = some x → ∃ c ∈ t.cashOuts, i.Paired b c
  credited : ∀ b ∈ t.batches, ∀ i ∈ b.items, i.state.credited → i.child ≠ none
  sourced : ∀ c ∈ t.cashOuts, ∀ ref, c.source = some ref →
    ∃ b ∈ t.batches, ∃ i ∈ b.items, ref = ⟨b.id, i.ordinal⟩ ∧ i.child = some c.id

/-- What the worker knows when it runs a transaction on the tables. -/
structure Tables.Licensed (t : Tables) (op : Operation) : Prop where
  dispatch : ∀ id attempt claim, op = .dispatch id attempt claim →
    ∀ c ∈ t.cashOuts, c.id = id → c.source = none
  credit : ∀ req, op = .recordItem req → req.nextState = .awaitingBalance →
    ∀ b ∈ t.batches, ∀ i ∈ b.items, req.item = ⟨b.id, i.ordinal⟩ →
      ∃ c ∈ t.cashOuts, i.child = some c.id ∧ c.state = .completed ∧ wasDispatched c.attempt
  fail : ∀ req, op = .recordBlocking req → req.itemState = .failed →
    ∀ b ∈ t.batches, ∀ i ∈ b.items, req.item = ⟨b.id, i.ordinal⟩ →
      ∃ c ∈ t.cashOuts, i.child = some c.id ∧ c.state.terminal
  fails : ∀ req, op = .recordBlocking req → req.batchState = .failed → req.itemState = .failed

namespace Item.Paired

variable {op : Operation} {now : Time} {b b' : Batch} {i i' : Item} {c c' : CashOut}

theorem cashOut (h : i.Paired b c) (he : c.Evolves c')
    (hd : wasDispatched c'.attempt = wasDispatched c.attempt) : i.Paired b c' where
  child := he.id ▸ h.child
  source := he.source.trans h.source
  position := he.position.trans h.position
  baseline := hd ▸ h.baseline
  credited hi := by
    obtain ⟨hstate, hdispatched⟩ := h.credited hi
    exact ⟨(he.terminal (by rw [hstate]; rfl)).trans hstate, hd ▸ hdispatched⟩
  ended hi := by
    have hc := h.ended hi
    rw [he.terminal hc]
    exact hc

theorem item (h : i.Paired b c) (hk : i.Keeps i') (hid : b'.id = b.id)
    (hcredited : i'.state.credited → c.state = .completed ∧ wasDispatched c.attempt)
    (hended : i'.state.ended → c.state.terminal) : i'.Paired b' c where
  child := hk.child.trans h.child
  source := by rw [hid, hk.ordinal]; exact h.source
  position := h.position.trans hk.position.symm
  baseline := hk.baseline ▸ h.baseline
  credited := hcredited
  ended := hended

end Item.Paired

theorem CashOut.Move.wasDispatched_eq {op : Operation} {now : Time} {c c' : CashOut}
    (h : c.Move op now c') (hlone : ∀ a k, op ≠ .dispatch c.id a k)
    (hbatch : ∀ req, op ≠ .dispatchBatch req) :
    wasDispatched c'.attempt = wasDispatched c.attempt := by
  cases hd : wasDispatched c.attempt with
  | true => exact h.evolves.attempt.wasDispatched hd
  | false =>
    by_contra hd'
    obtain ⟨a, k, hop | ⟨req, hop, -⟩, -⟩ := h.dispatched_by hd (by simpa using hd')
    · exact hlone _ k hop
    · exact hbatch req hop

namespace Tables.Family

variable {adm : Admission} {op : Operation} {now : Time} {t t' : Tables} {b b' : Batch} {i i' :
      Item}
  {c c' : CashOut}

theorem mem_put_batch {d : Batch} (hid : b'.id = b.id) (hd : d ∈ t.batches.put b') :
    d = b' ∨ (d ∈ t.batches ∧ d ≠ b) := by
  obtain rfl | ⟨hd, hne⟩ := eq_or_mem_of_mem_put hd
  · exact .inl rfl
  · exact .inr ⟨hd, fun heq => hne (heq ▸ hid.symm)⟩

variable (h : t.Family)
include h

theorem pair (hb : b ∈ t.batches) (hi : i ∈ b.items) (hc : c ∈ t.cashOuts)
    (hchild : i.child = some c.id) : i.Paired b c := by
  obtain ⟨d, hd, hpaired⟩ := h.paired b hb i hi c.id hchild
  obtain rfl : d = c :=
    eq_of_key_eq hd hc (some.inj (hpaired.child.symm.trans hchild))
  exact hpaired

theorem eq_of_source {d : Batch} (hb : b ∈ t.batches) (hd : d ∈ t.batches) {j : Item}
    (hi : i ∈ b.items) (hj : j ∈ d.items) (hc : c ∈ t.cashOuts) (hic : i.child = some c.id)
    (hjc : j.child = some c.id) : b = d ∧ i = j := by
  have hi' := (h.pair hb hi hc hic).source
  have hj' := (h.pair hd hj hc hjc).source
  obtain ⟨hbatch, hordinal⟩ := ItemRef.mk.inj (mem_unique hi' hj')
  obtain rfl : b = d := eq_of_key_eq hb hd hbatch
  exact ⟨rfl, eq_of_key_eq hi hj hordinal⟩

theorem created (hsource : c.source = none) (hcashOuts : t.cashOuts.insert? c = some t'.cashOuts)
    (hbatches : t'.batches = t.batches) : t'.Family where
  course b hb := h.course b (hbatches ▸ hb)
  credited b hb := h.credited b (hbatches ▸ hb)
  paired b hb i hi x hchild := by
    obtain ⟨d, hd, hpair⟩ := h.paired b (hbatches ▸ hb) i hi x hchild
    exact ⟨d, (mem_insert? hcashOuts).mpr (.inl hd), hpair⟩
  sourced d hd ref href := by
    rw [hbatches]
    obtain hd | rfl := (mem_insert? hcashOuts).mp hd
    · exact h.sourced d hd ref href
    · cases hsource.symm.trans href

variable (hl : t.Licensed op)
include hl

theorem turn (hb : b ∈ t.batches) (hid : b'.id = b.id) (hi : i ∈ b.items) (hturn : i.Turn op b i')
    (hc : c ∈ t.cashOuts) (hchild : i.child = some c.id) : i'.Paired b' c := by
  have hpair := h.pair hb hi hc hchild
  have unique {d : CashOut} (hd : d ∈ t.cashOuts) (hdchild : i.child = some d.id) : d = c :=
    eq_of_key_eq hd hc (mem_unique hdchild hchild)
  cases hturn with
  | same heq =>
    subst heq
    exact hpair.item (.refl _) hid hpair.credited hpair.ended
  | worked hkeeps _ hflight hcredit =>
    refine hpair.item hkeeps hid (fun hi' => ?_) fun hended => ?_
    · obtain hcredited | ⟨req, hop, hnext, hitem⟩ := hcredit hi'
      · exact hpair.credited hcredited
      · obtain ⟨d, hd, hdchild, hstate, hdispatched⟩ := hl.credit req hop hnext b hb i hi hitem
        obtain rfl := unique hd hdchild
        exact ⟨hstate, hdispatched⟩
    · rw [ItemState.not_ended_of_inFlight hflight] at hended
      cases hended
  | completed hkeeps hstate =>
    have hcredited := hpair.credited (by rw [hstate]; rfl)
    exact hpair.item hkeeps hid (fun _ => hcredited) fun _ => by rw [hcredited.1]; rfl
  | failed hkeeps req hop hitem _ hreq hstate' =>
    obtain ⟨d, hd, hdchild, hterminal⟩ := hl.fail req hop hreq b hb i hi hitem
    obtain rfl := unique hd hdchild
    exact hpair.item hkeeps hid (fun hi' => by rw [hstate'] at hi'; cases hi') fun _ => hterminal
  | unexecuted _ hstate => cases ((h.course b hb).pending i hi hstate).1.symm.trans hchild

theorem turn_credited (hb : b ∈ t.batches) (hi : i ∈ b.items) (hturn : i.Turn op b i')
    (hcredited : i'.state.credited) : i'.child ≠ none := by
  intro hnone
  have hchild : i.child = none := hturn.keeps.child.symm.trans hnone
  cases hturn with
  | same heq => subst heq; exact h.credited b hb i' hi hcredited hchild
  | worked _ _ _ hcredit =>
    obtain hi' | ⟨req, hop, hnext, hitem⟩ := hcredit hcredited
    · exact h.credited b hb i hi hi' hchild
    · obtain ⟨c, -, hc, -⟩ := hl.credit req hop hnext b hb i hi hitem
      cases hchild.symm.trans hc
  | completed _ hstate => exact h.credited b hb i hi (by rw [hstate]; rfl) hchild
  | failed _ _ _ _ _ _ hstate' | unexecuted _ _ hstate' =>
    rw [hstate'] at hcredited; cases hcredited

theorem cashOut_step (hlone : ∀ req, op ≠ .dispatchBatch req) (hb : b ∈ t.batches)
    (hi : i ∈ b.items) (hc : c ∈ t.cashOuts) (hchild : i.child = some c.id)
    (hstep : c' = c ∨ c.Move op now c') : i.Paired b c' := by
  have hpair := h.pair hb hi hc hchild
  obtain rfl | hmove := hstep
  · exact hpair
  · refine hpair.cashOut hmove.evolves (hmove.wasDispatched_eq (fun a k hop => ?_) hlone)
    cases (hl.dispatch _ _ _ hop c hc rfl).symm.trans hpair.source

theorem cashOuts (hlone : ∀ req, op ≠ .dispatchBatch req)
    (hcashOuts : Rel (fun c c' => c' = c ∨ c.Move op now c') t.cashOuts t'.cashOuts)
    (hbatches : t'.batches = t.batches) : t'.Family where
  course b hb := h.course b (hbatches ▸ hb)
  credited b hb := h.credited b (hbatches ▸ hb)
  paired b hb i hi x hchild := by
    rw [hbatches] at hb
    obtain ⟨c, hc, hpair⟩ := h.paired b hb i hi x hchild
    obtain ⟨c', hc', hstep⟩ := hcashOuts.exists_of_mem hc
    exact ⟨c', hc', h.cashOut_step hl hlone hb hi hc hpair.child hstep⟩
  sourced c' hc' ref href := by
    obtain ⟨c, hc, hstep⟩ := hcashOuts.exists_of_mem' hc'
    have he : c.Evolves c' := by
      obtain rfl | hmove := hstep
      · exact .refl _
      · exact hmove.evolves
    obtain ⟨b, hb, i, hi, hitem, hchild⟩ := h.sourced c hc ref (he.source ▸ href)
    exact ⟨b, hbatches ▸ hb, i, hi, hitem, he.id ▸ hchild⟩

theorem of_batches (hcashOuts : t'.cashOuts = t.cashOuts) (hcourse : ∀ b ∈ t'.batches, b.Course)
    (hback : ∀ b' ∈ t'.batches, ∀ i' ∈ b'.items, (i'.state = .pending ∧ i'.Untouched) ∨
      ∃ b ∈ t.batches, b'.id = b.id ∧ ∃ i ∈ b.items, i.Turn op b i')
    (hforth : ∀ b ∈ t.batches, ∃ b' ∈ t'.batches, b'.id = b.id ∧ ∀ i ∈ b.items, ∃ i' ∈ b'.items,
      i.Turn op b i') :
    t'.Family where
  course := hcourse
  credited b' hb' i' hi' hcredited := by
    obtain ⟨hpending, -⟩ | ⟨b, hb, -, i, hi, hturn⟩ := hback b' hb' i' hi'
    · rw [hpending] at hcredited; cases hcredited
    · exact h.turn_credited hl hb hi hturn hcredited
  paired b' hb' i' hi' x hchild := by
    rw [hcashOuts]
    obtain ⟨-, huntouched⟩ | ⟨b, hb, hid, i, hi, hturn⟩ := hback b' hb' i' hi'
    · cases huntouched.1.symm.trans hchild
    · obtain ⟨c, hc, hpair⟩ := h.paired b hb i hi x (hturn.keeps.child ▸ hchild)
      exact ⟨c, hc, h.turn hl hb hid hi hturn hc hpair.child⟩
  sourced c hc ref href := by
    obtain ⟨b, hb, i, hi, rfl, hchild⟩ := h.sourced c (hcashOuts ▸ hc) ref href
    obtain ⟨b', hb', hid, hitems⟩ := hforth b hb
    obtain ⟨i', hi', hturn⟩ := hitems i hi
    exact ⟨b', hb', i', hi', by rw [hid, hturn.keeps.ordinal], hturn.keeps.child.trans hchild⟩

theorem batches (hcashOuts : t'.cashOuts = t.cashOuts)
    (hbatches : Rel (fun b b' => b' = b ∨ b.Writer op now ∧ b.Move op now b')
      t.batches t'.batches) :
    t'.Family := by
  refine h.of_batches hl hcashOuts ?_ ?_ ?_
  · intro b' hb'
    obtain ⟨b, hb, rfl | ⟨-, hmove⟩⟩ := hbatches.exists_of_mem' hb'
    · exact h.course b' hb
    · exact (h.course b hb).move hl.fails hmove
  · intro b' hb' i' hi'
    obtain ⟨b, hb, rfl | ⟨-, hmove⟩⟩ := hbatches.exists_of_mem' hb'
    · exact .inr ⟨b', hb, rfl, i', hi', .same rfl⟩
    · obtain ⟨-, hfresh⟩ | hitems := hmove.items
      · exact .inl (hfresh i' hi')
      · exact .inr ⟨b, hb, hmove.id, hitems.exists_of_mem' hi'⟩
  · intro b hb
    obtain ⟨b', hb', rfl | ⟨-, hmove⟩⟩ := hbatches.exists_of_mem hb
    · exact ⟨b', hb', rfl, fun i hi => ⟨i, hi, .same rfl⟩⟩
    · exact ⟨b', hb', hmove.id, fun i hi => hmove.exists_item (h.course b hb) hi⟩

theorem batchCreated {req : BatchCreateRequest} {wallets : List BatchWallet}
    (hrow : b.toBatchRow = req.row b.id wallets now)
    (hempty : ∀ w ∈ wallets, w.positionCount = 0 ∧ w.completedCount = 0)
    (hcashOuts : t'.cashOuts = t.cashOuts) (hbatches : t.batches.insert? b = some t'.batches) :
    t'.Family := by
  have hitems : b.items = .empty := by rw [hrow]; rfl
  refine h.of_batches hl hcashOuts ?_ ?_ ?_
  · intro d hd
    obtain hd | rfl := (mem_insert? hbatches).mp hd
    · exact h.course d hd
    · exact .created hrow hempty
  · intro d hd i hi
    obtain hd | rfl := (mem_insert? hbatches).mp hd
    · exact .inr ⟨d, hd, rfl, i, hi, .same rfl⟩
    · rw [hitems] at hi
      exact absurd hi (not_mem_empty i)
  · intro d hd
    exact ⟨d, (mem_insert? hbatches).mpr (.inl hd), rfl, fun i hi => ⟨i, hi, .same rfl⟩⟩

section
variable (hb : b ∈ t.batches)
include hb

theorem of_joint (hid : b'.id = b.id) (hcourse : b'.Course) (hi : i ∈ b.items)
    (hothers : ∀ k ∈ t.cashOuts, i.child ≠ some k.id → k ∈ t'.cashOuts)
    (hsources : ∀ k' ∈ t'.cashOuts, (∃ k ∈ t.cashOuts, k'.id = k.id ∧ k'.source = k.source) ∨
      ∃ j' ∈ b'.items, j'.Paired b' k')
    (hback : ∀ j' ∈ b'.items, (j'.state.credited = false ∧ ∀ x, j'.child = some x →
      ∃ c' ∈ t'.cashOuts, j'.Paired b' c') ∨ ∃ j ∈ b.items, j.ordinal ≠ i.ordinal ∧ j.Turn op b j')
    (hforth : ∀ j ∈ b.items, ∀ x, j.child = some x → ∃ j' ∈ b'.items, j'.ordinal = j.ordinal ∧
      j'.child = some x)
    (hbatches : t'.batches = t.batches.put b') : t'.Family := by
  -- An item that is not the current one has another child, which the step leaves alone.
  have hother {d : Batch} (hd : d ∈ t.batches) {j : Item} (hj : j ∈ d.items)
      (hne : d ≠ b ∨ j.ordinal ≠ i.ordinal) {c : CashOut} (hc : c ∈ t.cashOuts)
      (hchild : j.child = some c.id) : c ∈ t'.cashOuts := by
    refine hothers c hc fun hic => ?_
    obtain ⟨hdb, hji⟩ := h.eq_of_source hd hb hj hi hc hchild hic
    obtain hne | hne := hne
    · exact hne hdb
    · exact hne (hji ▸ rfl)
  have hkeep {d : Batch} (hd : d ∈ t.batches) (hdb : d ≠ b) : d ∈ t'.batches := by
    refine hbatches ▸ mem_put.mpr (.inr ⟨hd, fun heq => hdb ?_⟩)
    exact eq_of_key_eq hd hb (heq.trans hid)
  constructor
  case course =>
    intro d hd
    rw [hbatches] at hd
    obtain rfl | ⟨hd, -⟩ := mem_put_batch hid hd
    · exact hcourse
    · exact h.course d hd
  case credited =>
    intro d hd j' hj' hcredited hnone
    rw [hbatches] at hd
    obtain rfl | ⟨hd, -⟩ := mem_put_batch hid hd
    · obtain ⟨hstate, -⟩ | ⟨j, hj, -, hturn⟩ := hback j' hj'
      · rw [hstate] at hcredited; cases hcredited
      · exact h.turn_credited hl hb hj hturn hcredited hnone
    · exact h.credited d hd j' hj' hcredited hnone
  case paired =>
    intro d hd j' hj' x hchild
    rw [hbatches] at hd
    obtain rfl | ⟨hd, hdb⟩ := mem_put_batch hid hd
    · obtain ⟨-, hpair⟩ | ⟨j, hj, hne, hturn⟩ := hback j' hj'
      · exact hpair x hchild
      · obtain ⟨c, hc, hpair⟩ := h.paired b hb j hj x (hturn.keeps.child ▸ hchild)
        exact ⟨c, hother hb hj (.inr hne) hc hpair.child, h.turn hl hb hid hj hturn hc hpair.child⟩
    · obtain ⟨c, hc, hpair⟩ := h.paired d hd j' hj' x hchild
      exact ⟨c, hother hd hj' (.inl hdb) hc hpair.child, hpair⟩
  case sourced =>
    intro k' hk' ref href
    have hmem : b' ∈ t'.batches := hbatches ▸ mem_put_self hb hid.symm
    obtain ⟨k, hk, hkid, hsource⟩ | ⟨j', hj', hpair⟩ := hsources k' hk'
    on_goal 2 => exact ⟨b', hmem, j', hj', mem_unique href hpair.source, hpair.child⟩
    obtain ⟨d, hd, j, hj, rfl, hchild⟩ := h.sourced k hk ref (hsource ▸ href)
    by_cases hdb : d = b
    · subst hdb
      obtain ⟨j', hj', hordinal, hchild'⟩ := hforth j hj k.id hchild
      exact ⟨b', hmem, j', hj', by rw [hid, hordinal], by rw [hchild', hkid]⟩
    · exact ⟨d, hkeep hd hdb, j, hj, rfl, hkid ▸ hchild⟩

/-- One item of the batch is put in its place together with its child. -/
theorem of_put (hid : b'.id = b.id) (hcourse : b'.Course) (hi : i ∈ b.items)
    (hordinal : i'.ordinal = i.ordinal) (hitems : b'.items = b.items.put i')
    (hstate : i'.state.credited = false) (hchild : ∀ x, i.child = some x → i'.child = some x)
    (hnew : i'.Paired b' c') (hc' : c' ∈ t'.cashOuts)
    (hothers : ∀ k ∈ t.cashOuts, i.child ≠ some k.id → k ∈ t'.cashOuts)
    (hcashOuts : ∀ k ∈ t'.cashOuts, k = c' ∨ k ∈ t.cashOuts)
    (hbatches : t'.batches = t.batches.put b') : t'.Family := by
  have hi' : i' ∈ b'.items := hitems ▸ mem_put_self hi hordinal.symm
  refine h.of_joint hl hb hid hcourse hi hothers ?_ ?_ ?_ hbatches
  · intro k hk
    obtain rfl | hk := hcashOuts k hk
    · exact .inr ⟨i', hi', hnew⟩
    · exact .inl ⟨k, hk, rfl, rfl⟩
  · intro j hj
    rw [hitems] at hj
    obtain rfl | ⟨hj, hne⟩ := eq_or_mem_of_mem_put hj
    · exact .inl ⟨hstate, fun _ _ => ⟨c', hc', hnew⟩⟩
    · exact .inr ⟨j, hj, hordinal ▸ hne, .same rfl⟩
  · intro j hj x hx
    by_cases heq : j.ordinal = i.ordinal
    · obtain rfl : j = i := eq_of_key_eq hj hi heq
      exact ⟨i', hi', hordinal, hchild x hx⟩
    · exact ⟨j, hitems ▸ mem_put.mpr (.inr ⟨hj, hordinal ▸ heq⟩), rfl, hx⟩

theorem activated {req : ActivateRequest} (hmove : b.Activates req now b' i i')
    (hrow : c.toCashOutRow = childRow b.toBatchRow i.toItemRow req.cashOut req.providerState now)
    (hcashOuts : t.cashOuts.insert? c = some t'.cashOuts)
    (hbatches : t'.batches = t.batches.put b') :
    t'.Family := by
  have hid : b'.id = b.id := by rw [hmove.row]; rfl
  have hordinal : i'.ordinal = i.ordinal := by rw [hmove.item]; rfl
  have hstate : i'.state = .preflighting := by rw [hmove.item]; rfl
  have hbaseline : i'.baseline = none := by
    rw [hmove.item]; exact ((h.course b hb).pending i hmove.mem hmove.pending).2
  have hnew : i'.Paired b' c := by
    refine ⟨?_, ?_, ?_, ?_, fun hs => ?_, fun hs => ?_⟩
    · rw [hmove.item, hrow]; rfl
    · rw [hid, hordinal, hrow]; rfl
    · rw [hmove.item, hrow]; rfl
    · rw [hbaseline, hrow]; rfl
    · rw [hstate] at hs; cases hs
    · rw [hstate] at hs; cases hs
  refine h.of_put hl hb hid ((h.course b hb).activates hmove) hmove.mem hordinal
    (by rw [hmove.row]; rfl) (by rw [hstate]; rfl) (fun x hx => ?_) hnew
    ((mem_insert? hcashOuts).mpr (.inr rfl))
    (fun k hk _ => (mem_insert? hcashOuts).mpr (.inl hk))
    (fun k hk => ((mem_insert? hcashOuts).mp hk).symm) hbatches
  -- the item that is taken up had no child
  cases hmove.child.symm.trans hx

theorem dispatched {req : BatchDispatchRequest} (hmove : b.Dispatches req now b' i i')
    (hc : c ∈ t.cashOuts) (hchild : c.id = req.cashOut) (hmove' : c.Move op now c')
    (hdispatched : wasDispatched c'.attempt) (hcashOuts : t'.cashOuts = t.cashOuts.put c')
    (hbatches : t'.batches = t.batches.put b') : t'.Family := by
  have hid : b'.id = b.id := hmove.steers.course.id
  have he := hmove'.evolves
  have hordinal : i'.ordinal = i.ordinal := by rw [hmove.item]; rfl
  have hchild' : i.child = some c.id := hchild ▸ hmove.child
  have hpair := h.pair hb hmove.mem hc hchild'
  have hnew : i'.Paired b' c' := by
    refine ⟨?_, ?_, ?_, ?_, fun hs => ?_, fun hs => ?_⟩
    · rw [he.id, hmove.item]; exact hchild'
    · rw [hid, hordinal, he.source]; exact hpair.source
    · rw [he.position, hmove.item]; exact hpair.position
    · rw [hdispatched, hmove.item]; rfl
    · rw [hmove.item] at hs; cases hs
    · rw [hmove.item] at hs; cases hs
  refine h.of_put hl hb hid ((h.course b hb).dispatches hmove) hmove.mem hordinal hmove.items
    (by rw [hmove.item]; rfl) (fun x hx => by rw [hmove.item]; exact hx) hnew
    (hcashOuts ▸ mem_put_self hc he.id.symm) (fun k hk hne => ?_) (fun k hk => ?_) hbatches
  · refine hcashOuts ▸ mem_put.mpr (.inr ⟨hk, fun heq => hne ?_⟩)
    rw [heq, he.id]; exact hchild'
  · rw [hcashOuts] at hk
    exact (eq_or_mem_of_mem_put hk).imp_right And.left

theorem halted {claim : ℕ} (hop : op = .boundary b.id claim) (hmove : b.Halts now b' i)
    (hcashOuts : (i.child = none ∧ t'.cashOuts = t.cashOuts) ∨ ∃ c ∈ t.cashOuts, ∃ c', i.child =
      some c.id ∧ c.source = some ⟨b.id, i.ordinal⟩ ∧ c.Move op now c' ∧ c'.state = .failed ∧
      t'.cashOuts = t.cashOuts.put c')
    (hbatches : t'.batches = t.batches.put b') : t'.Family := by
  have hid : b'.id = b.id := hmove.ends.id
  refine h.of_joint hl hb hid ((h.course b hb).halts hmove) hmove.mem ?_ ?_ ?_ ?_ hbatches
  · intro k hk hne
    obtain ⟨-, hsame⟩ | ⟨c, hc, c', hchild, -, hmove', -, hput⟩ := hcashOuts
    · exact hsame ▸ hk
    · refine hput ▸ mem_put.mpr (.inr ⟨hk, fun heq => hne ?_⟩)
      rw [heq, hmove'.evolves.id]; exact hchild
  · intro k' hk'
    obtain ⟨-, hsame⟩ | ⟨c, hc, c', -, -, hmove', -, hput⟩ := hcashOuts
    · exact .inl ⟨k', hsame ▸ hk', rfl, rfl⟩
    · rw [hput] at hk'
      obtain rfl | ⟨hk, -⟩ := eq_or_mem_of_mem_put hk'
      · exact .inl ⟨c, hc, hmove'.evolves.id, hmove'.evolves.source⟩
      · exact .inl ⟨k', hk, rfl, rfl⟩
  · intro j' hj'
    obtain ⟨j, hj, ⟨rfl, rfl⟩ | hturn⟩ := (hmove.items_rel op).exists_of_mem' hj'
    on_goal 2 => exact .inr ⟨j, hj, hturn⟩
    refine .inl ⟨rfl, fun x hx => ?_⟩
    obtain ⟨hnone, -⟩ | ⟨c, hc, c', hchild, hsource, hmove', hfailed, hput⟩ := hcashOuts
    · cases hnone.symm.trans hx
    · have he := hmove'.evolves
      have hpair := h.pair hb hmove.mem hc hchild
      have hd := hmove'.wasDispatched_eq (by simp [hop]) (by simp [hop])
      refine ⟨c', hput ▸ mem_put_self hc he.id.symm, ?_⟩
      exact ⟨he.id ▸ hchild, by rw [hid, he.source]; exact hsource,
        he.position.trans hpair.position, hd ▸ hpair.baseline, nofun, fun _ => by rw [hfailed]; rfl⟩
  · intro j hj x hx
    obtain ⟨j', hj', ⟨rfl, rfl⟩ | ⟨-, hturn⟩⟩ :=
      (hmove.items_rel op).exists_of_mem hj
    · exact ⟨_, hj', rfl, hx⟩
    · exact ⟨j', hj', hturn.keeps.ordinal, hturn.keeps.child.trans hx⟩

end

theorem change (hchange : t.Change adm op now t') : t'.Family := by
  cases hchange with
  | cashOuts hlone hcashOuts hbatches => exact h.cashOuts hl hlone hcashOuts hbatches
  | same hcashOuts hbatches =>
    obtain ⟨h₁, h₂, h₃, h₄⟩ := h
    exact ⟨hbatches ▸ h₁, by rw [hbatches, hcashOuts]; exact h₂, hbatches ▸ h₃,
      by rw [hbatches, hcashOuts]; exact h₄⟩
  | created _ _ _ hrow _ _ _ hcashOuts hbatches =>
    exact h.created (by rw [hrow]; rfl) hcashOuts hbatches
  | batches hcashOuts hbatches => exact h.batches hl hcashOuts hbatches
  | batchCreated _ _ _ _ hrow _ _ hempty _ _ _ hcashOuts hbatches =>
      exact h.batchCreated hl hrow hempty hcashOuts hbatches
  | activated _ _ _ _ _ _ _ hb _ hmove hrow hcashOuts hbatches =>
    exact h.activated hl hb hmove hrow hcashOuts hbatches
  | dispatched _ _ _ _ _ _ _ _ hb _ hmove hc hchild hmove' _ hdispatched hcashOuts hbatches =>
      exact h.dispatched hl hb hmove hc hchild hmove' hdispatched hcashOuts hbatches
  | halted _ _ _ _ hop hb _ hmove hcashOuts hbatches =>
    exact h.halted hl hb hop hmove hcashOuts hbatches

end Tables.Family
end Athena.CashOuts
