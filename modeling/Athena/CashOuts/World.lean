import Athena.CashOuts.BatchRules
import Athena.CashOuts.Evolution
import Athena.Lib.Turns

/-!
# Cash Outs under concurrent turns

Any number of turns of the two workers and of creations run side by side over one store,
each interrupted between two of its calls, or for good.  The commands of users and the
expiry passes come at any time.  A transaction that the store answers with an unknown
outcome may have been committed; an admission is any at each transaction.
-/

namespace Athena.CashOuts

open Athena.Lib Table Queries Store Pool Tables

/-! ## The environment -/

/-- A page of `ListPositionCashOutBatchItems` and the number of items. -/
def listPositionCashOutBatchItems (t : Tables) (owner batch : UUID) (page pageSize : ℕ) :
    Except StoreError (List Item × ℕ) := do
  let b ← found (t.batch batch) .batchNotFound
  ensure (b.owner = owner) .batchNotFound
  pure ((b.items.rows.drop ((page - 1) * pageSize)).take pageSize, b.items.rows.length)

def Committed (t : Tables) (op : Operation) (now : Time) (t' : Tables) :
    Except StoreError op.Reply → Prop
  | .ok a => ∃ adm, exec adm op t now = .ok (t', a)
  | .error e => (t' = t ∧ ∃ adm, exec adm op t now = .error e) ∨
      (e = .unavailable ∧ (t' = t ∨ ∃ adm a, exec adm op t now = .ok (t', a)))

def Answers {α : Type} (value reply : Except StoreError α) : Prop :=
  reply = value ∨ reply = .error .unavailable

/-- How the calls of a turn are served.  What is outside the store may answer anything. -/
def serves (t : Tables) : (c : WorkerCall) → c.Reply → Tables → Prop
  | .store op now, r, t' => Committed t op now t' r
  | .cashOut owner id, r, t' => t' = t ∧ Answers (getPositionCashOut t owner id) r
  | .attempt id, r, t' => t' = t ∧ Answers (.ok ((t.cashOut id).bind fun c => c.attempt)) r
  | .item ref, r, t' => t' = t ∧ Answers (found (t.item ref) .constraint) r
  | .items owner batch page pageSize, r, t' =>
    t' = t ∧ Answers (listPositionCashOutBatchItems t owner batch page pageSize) r
  | _, _, t' => t' = t

def Operation.isCommand : Operation → Bool
  | .authorize .. | .reconcile .. | .expire .. | .createBatch .. | .authorizeBatch .. | .control ..
  | .expireBatches .. => true
  | _ => false

def pool : Pool Tables WorkerCall WorkerCall.Reply WorkerError where
  init := {}
  starts i p :=
    (∃ worker cashOut, p = Worker.cashOutTurn i worker cashOut) ∨
      (∃ worker batch, p = Worker.batchTurn i worker batch) ∨
      ∃ owner command walletId address pubkey,
        p = Worker.createTurn owner command walletId address pubkey
  serves := serves
  drifts t t' := ∃ adm op now r, op.isCommand ∧ exec adm op t now = .ok (t', r)

abbrev World : Type := Pool.World Tables WorkerCall.Reply WorkerError

abbrev Event : Type := Pool.Event Tables WorkerCall.Reply

abbrev World.Reachable (w : World) : Prop := pool.Reachable w

theorem keeps_of_starts (i : ℕ) (p : Worker Unit) (h : pool.starts i p) :
    p.Guards (Rule i) (fun _ _ => True) [] := by
  obtain ⟨worker, cashOut, rfl⟩ | ⟨worker, batch, rfl⟩ | ⟨owner, command, walletId, address, pubkey,
    rfl⟩ := h
  · exact keeps_cashOutTurn
  · exact keeps_batchTurn
  · exact keeps_createTurn

/-! ## What an event does -/

section served
variable {t t' : Tables}

/-- A call leaves the tables as they are, or commits a transaction.  A transaction that was
committed was answered so, or its outcome is unknown. -/
theorem eq_or_exec_of_serves {x : WorkerEntry} (h : serves t x.1 x.2 t') :
    t' = t ∨ ∃ op now r adm a, x = ⟨.store op now, r⟩ ∧ (∀ e, r = .error e → e = .unavailable) ∧
      exec adm op t now = .ok (t', a) := by
  obtain ⟨c, r⟩ := x
  cases c with
  | store op now =>
    cases r with
    | ok a =>
      obtain ⟨adm, h⟩ := h
      exact .inr ⟨op, now, _, adm, a, rfl, nofun, h⟩
    | error e =>
      obtain ⟨rfl, -⟩ | ⟨rfl, rfl | ⟨adm, a, h⟩⟩ := h
      · exact .inl rfl
      · exact .inl rfl
      · exact .inr ⟨op, now, _, adm, a, rfl, fun _ he => (Except.error.inj he).symm, h⟩
  | cashOut | attempt | item | items => exact .inl h.1
  | now | uuid | alive | connection | client | reconnect | balances | positions | position
  | close => exact .inl h

theorem answers_ok {α : Type} {value : Except StoreError α} {a : α} (h : Answers value (.ok a)) :
    value = .ok a := by
  obtain h | h := h
  · exact h.symm
  · cases h

theorem serves_cashOut_ok {owner id : UUID} {c : CashOut}
    (h : serves t (.cashOut owner id) (.ok c) t') : t' = t ∧ t.cashOut id = some c := by
  have hvalue := answers_ok h.2
  simp only [getPositionCashOut, committed] at hvalue
  obtain ⟨c', hc', -, rfl⟩ := hvalue
  exact ⟨h.1, hc'⟩

theorem serves_attempt_ok {id : UUID} {a : Option Attempt}
    (h : serves t (.attempt id) (.ok a) t') :
    t' = t ∧ ((t.cashOut id).bind fun c => c.attempt) = a :=
  ⟨h.1, Except.ok.inj (answers_ok h.2)⟩

theorem serves_item_ok {ref : ItemRef} {i : Item} (h : serves t (.item ref) (.ok i) t') :
    t' = t ∧ ∃ b ∈ t.batches, i ∈ b.items ∧ ref = ⟨b.id, i.ordinal⟩ := by
  have hitem := found_eq_ok.mp (answers_ok h.2)
  rw [item, Option.bind_eq_some_iff] at hitem
  obtain ⟨b, hb, hi⟩ := hitem
  obtain ⟨hb, hid⟩ := batch_eq_some.mp hb
  obtain ⟨hi, hordinal⟩ := get?_eq_some.mp hi
  refine ⟨h.1, b, hb, hi, ?_⟩
  cases ref
  simp_all

theorem fair_of_serves {x : WorkerEntry} (h : serves t x.1 x.2 t') : ¬UnfairEntry x := by
  intro hunfair
  cases hunfair with
  | resolved _ _ _ _ _ ha =>
    obtain ⟨adm, h⟩ := h
    rw [(exec_resolve h).2] at ha
    cases ha
  | closing _ _ _ _ _ hc =>
    obtain ⟨adm, h⟩ := h
    exact hc (exec_beginClosing h).2.1
  | cashOut _ _ _ hc => exact hc (cashOut_eq_some.mp (serves_cashOut_ok h).2).2
  | item _ _ hi =>
    obtain ⟨-, b, -, -, rfl⟩ := serves_item_ok h
    exact hi rfl

end served

/-! ## Every reachable world -/

/-- What the tables keep: batches and their children agree, and nothing is prepared
early. -/
structure Tables.Good (t : Tables) : Prop where
  family : t.Family
  early : t.Early

theorem Tables.good_init : (pool.init : Tables).Good where
  family :=
    { course := fun b hb => absurd hb (not_mem_empty b)
      paired := fun b hb => absurd hb (not_mem_empty b)
      credited := fun b hb => absurd hb (not_mem_empty b)
      sourced := fun c hc => absurd hc (not_mem_empty c) }
  early := fun c hc => absurd hc (not_mem_empty c)

theorem Tables.Family.child_of_evolves {t t' : Tables} (h : t.Family) (h' : t'.Family)
    (he : t.Evolves t') {b b' : Batch} {i i' : Item} {x : UUID} (hb : b ∈ t.batches)
    (hi : i ∈ b.items) (hchild : i.child = some x) (hb' : b' ∈ t'.batches) (hi' : i' ∈ b'.items)
    (hid : b'.id = b.id) (hordinal : i'.ordinal = i.ordinal) : i'.child = some x := by
  obtain ⟨c, hc, hpair⟩ := h.paired b hb i hi x hchild
  obtain ⟨c', hc', hev⟩ := he c hc
  obtain ⟨d, hd, j, hj, href, hj'⟩ := h'.sourced c' hc' _ (hev.source.trans hpair.source)
  obtain ⟨hbid, hjord⟩ := ItemRef.mk.inj href
  obtain rfl : d = b' := eq_of_key_eq hd hb' (hbid.symm.trans hid.symm)
  obtain rfl : j = i' := eq_of_key_eq hj hi' (hjord.symm.trans hordinal.symm)
  rw [hj', hev.id, ← hpair.child, hchild]

def World.Steady (w : World) : Prop := Pool.Steady Tables.Good Tables.Evolves w.shared w.log

section knowledge
variable {w : World} {i : ℕ} {r : CashOutRow} {id : UUID}

theorem World.Steady.entry (hs : w.Steady) (hw : w.Reachable) {x : WorkerEntry}
    (hx : x ∈ history w.log i) :
    ∃ t t', serves t x.1 x.2 t' ∧ t.Good ∧ t'.Good ∧ t'.Evolves w.shared := by
  obtain ⟨e, he, hcause⟩ := exists_event_of_mem_history hx
  have hserves := (hw.chronicle.lawful e he).serves hcause
  exact ⟨e.before, e.after, hserves, (hs.events e he).1, (hs.events e he).2, hs.now e he⟩

theorem World.Reachable.fair (hw : w.Reachable) : Fair (history w.log i) := by
  intro x hx
  obtain ⟨e, he, hcause⟩ := exists_event_of_mem_history hx
  exact fair_of_serves ((hw.chronicle.lawful e he).serves hcause)

variable (hs : w.Steady)
include hs

theorem World.Steady.seen (hw : w.Reachable) (hr : Seen (history w.log i) r) :
    ∃ c' ∈ w.shared.cashOuts, c'.id = r.id ∧ c'.toPosition = r.toPosition ∧
      c'.source = r.source := by
  obtain ⟨x, hx, c, hshows, hid, hposition, hsource⟩ := hr
  obtain ⟨t, t', hserves, -, -, hev⟩ := hs.entry hw hx
  have hc : c ∈ t'.cashOuts := by
    cases hshows with
    | claimed =>
      obtain ⟨adm, h⟩ := hserves
      exact (exec_claim h).1
    | closing =>
      obtain ⟨adm, h⟩ := hserves
      exact (exec_beginClosing h).1
  obtain ⟨c', hc', he⟩ := hev c hc
  exact ⟨c', hc', he.id.trans hid.symm, he.position.trans hposition.symm,
    he.source.trans hsource.symm⟩

theorem World.Steady.read (hw : w.Reachable) {owner : UUID} {c : CashOut}
    (hx : (⟨.cashOut owner id, .ok c⟩ : WorkerEntry) ∈ history w.log i) :
    ∃ c' ∈ w.shared.cashOuts, c'.id = id ∧ c.Evolves c' := by
  obtain ⟨t, t', hserves, -, -, hev⟩ := hs.entry hw hx
  obtain ⟨rfl, hrow⟩ := serves_cashOut_ok hserves
  obtain ⟨hc, rfl⟩ := cashOut_eq_some.mp hrow
  obtain ⟨c', hc', he⟩ := hev c hc
  exact ⟨c', hc', he.id, he⟩

theorem World.Steady.attempt (hw : w.Reachable) {a : Attempt}
    (hx : (⟨.attempt id, .ok (some a)⟩ : WorkerEntry) ∈ history w.log i) :
    ∃ c', c' ∈ w.shared.cashOuts ∧ c'.id = id ∧ AttemptEvolves (some a) c'.attempt := by
  obtain ⟨t, t', hserves, -, -, hev⟩ := hs.entry hw hx
  obtain ⟨rfl, hread⟩ := serves_attempt_ok hserves
  obtain ⟨c, hrow, ha⟩ := Option.bind_eq_some_iff.mp hread
  obtain ⟨hc, rfl⟩ := cashOut_eq_some.mp hrow
  obtain ⟨c', hc', he⟩ := hev c hc
  exact ⟨c', hc', he.id, ha ▸ he.attempt⟩

theorem World.Steady.child (hw : w.Reachable) {ref : ItemRef} {j : Item} {x : UUID}
    (hx : (⟨.item ref, .ok j⟩ : WorkerEntry) ∈ history w.log i) (hchild : j.child = some x)
    {b : Batch} (hb : b ∈ w.shared.batches) {j' : Item} (hj' : j' ∈ b.items)
    (href : ref = ⟨b.id, j'.ordinal⟩) : j'.child = some x := by
  obtain ⟨t, t', hserves, hgood, -, hev⟩ := hs.entry hw hx
  obtain ⟨rfl, b₀, hb₀, hj, rfl⟩ := serves_item_ok hserves
  obtain ⟨hid, hordinal⟩ := ItemRef.mk.inj href
  exact hgood.family.child_of_evolves hs.holds.family hev hb₀ hj hchild hb hj' hid.symm
    hordinal.symm

theorem World.Steady.licensed (hw : w.Reachable) {op : Operation}
    (hop : Permitted i (history w.log i) op) : w.shared.Licensed op where
  dispatch := by
    rintro id attempt claim rfl c hc rfl
    obtain ⟨-, r, hr, hid, hsource⟩ := hop
    obtain ⟨c', hc', hid', -, hsource'⟩ := hs.seen hw hr
    obtain rfl : c' = c := eq_of_key_eq hc' hc (hid'.trans hid)
    exact hsource'.trans hsource
  credit := by
    rintro req rfl hnext b hb j hj href
    obtain ⟨j₀, owner, x, c, a, hj₀, hchild, hc, hstate, ha, hd⟩ := hop hnext
    obtain ⟨c', hc', rfl, he⟩ := hs.read hw hc
    cases a with
    | none => cases hd
    | some =>
      obtain ⟨d, hd', hid, hev⟩ := hs.attempt hw ha
      obtain rfl : d = c' := eq_of_key_eq hd' hc' hid
      have hterminal := he.terminal (by rw [hstate]; rfl)
      exact ⟨d, hc', hs.child hw hj₀ hchild hb hj href, hterminal.trans hstate,
        hev.wasDispatched hd⟩
  fail := by
    rintro req rfl hnext b hb j hj href
    obtain ⟨j₀, owner, x, c, hj₀, hchild, hc, hstate⟩ := hop.2 hnext
    obtain ⟨c', hc', rfl, he⟩ := hs.read hw hc
    exact ⟨c', hc', hs.child hw hj₀ hchild hb hj href, by rw [he.terminal hstate]; exact hstate⟩
  fails := by
    rintro req rfl
    exact hop.1

end knowledge

theorem Tables.licensed_of_isCommand {t : Tables} {op : Operation} (h : op.isCommand) :
    t.Licensed op where
  dispatch := by rintro id attempt claim rfl; cases h
  credit := by rintro req rfl; cases h
  fail := by rintro req rfl; cases h
  fails := by rintro req rfl; cases h

theorem World.Reachable.steady {w : World} (hw : w.Reachable) : w.Steady := by
  refine Pool.Reachable.of_events keeps_of_starts (.nil good_init) ?_ hw
  rintro w ⟨cause, before, after⟩ hw hs rfl hlawful hrule
  refine Pool.Steady.snoc .refl .trans hs ?_
  have commit {op : Operation} {now : Time} {adm : Admission} {a : op.Reply}
      (hop : w.shared.Licensed op) (h : exec adm op w.shared now = .ok (after, a)) :
      after.Good ∧ w.shared.Evolves after := by
    have hchange := exec_change h
    exact ⟨⟨hs.holds.family.change hop hchange, hchange.early hs.holds.early⟩, hchange.evolves⟩
  cases cause with
  | none =>
    obtain ⟨adm, op, now, r, hop, h⟩ := hlawful
    exact commit (licensed_of_isCommand hop) h
  | some cause =>
    obtain ⟨i, x⟩ := cause
    have hserves : serves w.shared x.1 x.2 after := hlawful
    obtain rfl | ⟨op, now, r, adm, a, rfl, -, h⟩ := eq_or_exec_of_serves hserves
    · exact ⟨hs.holds, .refl _⟩
    · have hfair : Fair (history w.log i) := World.Reachable.fair hw
      exact commit (World.Steady.licensed hs hw (hrule i _ rfl hfair)) h

theorem World.Reachable.change {w : World} (hw : w.Reachable) {e : Event} (he : e ∈ w.log) :
    e.after = e.before ∨ ∃ adm op now, e.before.Change adm op now e.after := by
  have hlawful := hw.chronicle.lawful e he
  obtain ⟨_ | ⟨i, x⟩, before, after⟩ := e
  · obtain ⟨adm, op, now, r, -, h⟩ := hlawful
    exact .inr ⟨adm, op, now, exec_change h⟩
  · obtain h | ⟨op, now, r, adm, a, -, -, h⟩ := eq_or_exec_of_serves hlawful
    · exact .inl h
    · exact .inr ⟨adm, op, now, exec_change h⟩

theorem World.Reachable.evolves {w : World} (hw : w.Reachable) {e : Event} (he : e ∈ w.log) :
    e.before.Evolves w.shared := by
  have hnow := hw.steady.now e he
  obtain heq | ⟨adm, op, now, hchange⟩ := hw.change he
  · rwa [heq] at hnow
  · exact hchange.evolves.trans hnow

/-- The world in which an event happened, and what the event did there: nothing, a command of
a user, or a transaction that a turn may run. -/
theorem World.Reachable.event {w : World} (hw : w.Reachable) {l₁ l₂ : List Event} {e : Event}
    (hlog : w.log = l₁ ++ e :: l₂) :
    ∃ w₁ : World, w₁.Reachable ∧ w₁.log = l₁ ∧ w₁.shared = e.before ∧
      (e.after = e.before ∨
        (∃ adm op now, op.isCommand ∧ e.before.Change adm op now e.after) ∨
        ∃ i op now r adm, e.cause = some (i, ⟨.store op now, r⟩) ∧
          Permitted i (history l₁ i) op ∧ e.before.Change adm op now e.after) := by
  obtain ⟨w₁, hw₁, rfl, hbefore⟩ := Pool.Reachable.cut hw hlog
  refine ⟨w₁, hw₁, rfl, hbefore, ?_⟩
  have hlawful := hw.chronicle.lawful e (by rw [hlog]; simp)
  have hrule := (Pool.Reachable.guarded hw keeps_of_starts).log w₁.log e l₂
  obtain ⟨_ | ⟨i, x⟩, before, after⟩ := e
  · obtain ⟨adm, op, now, r, hop, h⟩ := hlawful
    exact .inr (.inl ⟨adm, op, now, hop, exec_change h⟩)
  · obtain h | ⟨op, now, r, adm, a, rfl, -, h⟩ := eq_or_exec_of_serves hlawful
    · exact .inl h
    · have hpermitted : Permitted i (history w₁.log i) op :=
        hrule i _ hlog rfl (World.Reachable.fair hw₁)
      exact .inr (.inr ⟨i, op, now, r, adm, rfl, hpermitted, exec_change h⟩)

theorem World.Reachable.family {w : World} (hw : w.Reachable) : w.shared.Family :=
  hw.steady.holds.family

end Athena.CashOuts
