import Athena.Lib.Program
import Mathlib.Data.List.Pairwise
import Mathlib.Logic.Function.Basic
import Mathlib.Logic.Relation

/-!
# Turns over a shared state

Any number of turns run side by side over one shared state.  A turn is a program that
makes its calls one after another; between two of its calls any other turn may make
any number of calls, and the shared state may change for reasons of its own.  A turn
may stop for good after any of its calls.

The log of a pool records every change of the shared state with the states before and
after it, and every call of a turn with its reply.  A rule that a program keeps becomes
a rule about the log (`Pool.Reachable.guarded`).
-/

namespace Athena.Lib

open List Function

open Program (Entry)

structure Pool (σ C : Type) (R : C → Type) (ε : Type) where
  init : σ
  starts : ℕ → Program C R ε Unit → Prop
  serves : σ → (c : C) → R c → σ → Prop
  drifts : σ → σ → Prop

namespace Pool

variable {σ C : Type} {R : C → Type} {ε : Type}

/-- A change of the shared state, or a call that left it as it was.  The cause is a
call of a turn, or nothing that a turn did. -/
structure Event (σ : Type) (R : C → Type) where
  cause : Option (ℕ × Entry R)
  before : σ
  after : σ

def Event.turn (e : Event σ R) : Option ℕ := e.cause.map Prod.fst

def Event.entry (i : ℕ) (e : Event σ R) : Option (Entry R) :=
  match e.cause with
  | some (j, x) => if j = i then some x else none
  | none => none

variable {i : ℕ} {e d : Event σ R} {x : Entry R} {l l₁ l₂ : List (Event σ R)} {I : σ → Prop}
  {F : σ → σ → Prop} {α : Type}

theorem Event.entry_eq_some : e.entry i = some x ↔ e.cause = some (i, x) := by
  rcases e with ⟨_ | ⟨j, y⟩, b, a⟩ <;> simp [Event.entry]

theorem Event.turn_of_cause (h : e.cause = some (i, x)) : e.turn = some i := by simp [Event.turn, h]

theorem Event.entry_of_turn_ne (h : e.turn ≠ some i) : e.entry i = none := by
  rcases e with ⟨_ | ⟨j, y⟩, b, a⟩ <;> simp_all [Event.entry, Event.turn]

def history (log : List (Event σ R)) (i : ℕ) : List (Entry R) := log.filterMap (Event.entry i)

theorem history_append (l l' : List (Event σ R)) (i : ℕ) :
    history (l ++ l') i = history l i ++ history l' i := filterMap_append

theorem history_snoc (l : List (Event σ R)) (e : Event σ R) (i : ℕ) :
    history (l ++ [e]) i = history l i ++ (e.entry i).toList := by
  rw [history_append]
  cases h : e.entry i <;> simp [history, h]

theorem history_snoc_self (h : e.cause = some (i, x)) :
    history (l ++ [e]) i = history l i ++ [x] := by
  rw [history_snoc, Event.entry_eq_some.mpr h, Option.toList_some]

theorem history_snoc_of_ne {j : ℕ} (h : e.cause = some (j, x)) (hij : i ≠ j) :
    history (l ++ [e]) i = history l i := by
  have hturn : e.turn ≠ some i := by simp [Event.turn, h, Ne.symm hij]
  rw [history_snoc, Event.entry_of_turn_ne hturn, Option.toList_none, append_nil]

theorem exists_event_of_mem_history (h : x ∈ history l i) : ∃ e ∈ l, e.cause = some (i, x) := by
  obtain ⟨e, he, hx⟩ := mem_filterMap.mp h
  exact ⟨e, he, Event.entry_eq_some.mp hx⟩

theorem snoc_eq_append_cons {l l₁ l₂ : List α} {d e : α} (h : l ++ [d] = l₁ ++ e :: l₂) :
    (l = l₁ ∧ d = e) ∨ ∃ l₃, l₂ = l₃ ++ [d] ∧ l = l₁ ++ e :: l₃ := by
  rcases eq_nil_or_concat l₂ with rfl | ⟨l₃, x, rfl⟩
  · obtain ⟨rfl, he⟩ := append_inj' h rfl
    exact .inl ⟨rfl, (cons.inj he).1⟩
  · rw [concat_eq_append, ← cons_append, ← append_assoc] at h
    obtain ⟨rfl, hx⟩ := append_inj' h rfl
    obtain rfl := (cons.inj hx).1
    exact .inr ⟨l₃, concat_eq_append, rfl⟩

theorem exists_split_of_history {h₁ h₂ : List (Entry R)} (h : history l i = h₁ ++ x :: h₂) :
    ∃ l₁ e l₂, l = l₁ ++ e :: l₂ ∧ e.cause = some (i, x) ∧ history l₁ i = h₁ ∧
      history l₂ i = h₂ := by
  obtain ⟨l₁, l', rfl, h₁, hrest⟩ := filterMap_eq_append_iff.mp h
  obtain ⟨l₂, e, l₃, rfl, hnone, he, h₂⟩ := filterMap_eq_cons_iff.mp hrest
  refine ⟨l₁ ++ l₂, e, l₃, by simp, Event.entry_eq_some.mp he, ?_, h₂⟩
  rw [history_append, history, h₁, history, filterMap_eq_nil_iff.mpr hnone, append_nil]

theorem turn_ne_of_history_nil (h : history l i = []) (he : e ∈ l) : e.turn ≠ some i := by
  intro hturn
  obtain ⟨⟨j, x⟩, hcause, rfl⟩ := Option.map_eq_some_iff.mp hturn
  have : e.entry j = none := filterMap_eq_nil_iff.mp h e he
  simp [Event.entry_eq_some.mpr hcause] at this

/-! ## Interleavings -/

/-- The shared state, the turns that still run, and the log so far. -/
structure World (σ : Type) (R : C → Type) (ε : Type) where
  shared : σ
  turns : ℕ → Option (Program C R ε Unit)
  log : List (Event σ R)

variable (S : Pool σ C R ε)

def initial : World σ R ε := ⟨S.init, fun _ => none, []⟩

inductive Step : World σ R ε → World σ R ε → Prop
  | start {w : World σ R ε} (i : ℕ) (p : Program C R ε Unit) (fresh : history w.log i = [])
      (starts : S.starts i p) : Step w { w with turns := Function.update w.turns i (some p) }
  | crash {w : World σ R ε} (i : ℕ) : Step w { w with turns := Function.update w.turns i none }
  | serve {w : World σ R ε} {c : C} {next : R c → Program C R ε Unit} (i : ℕ) (r : R c) (s : σ)
      (running : w.turns i = some (.call c next)) (serves : S.serves w.shared c r s) :
      Step w ⟨s, Function.update w.turns i (some (next r)),
        w.log ++ [⟨some (i, ⟨c, r⟩), w.shared, s⟩]⟩
  | drift {w : World σ R ε} (s : σ) (drifts : S.drifts w.shared s) :
      Step w { w with shared := s, log := w.log ++ [⟨none, w.shared, s⟩] }

def Reachable (w : World σ R ε) : Prop := Relation.ReflTransGen S.Step S.initial w

def Next (s s' : σ) : Prop := S.drifts s s' ∨ ∃ (c : C) (r : R c), S.serves s c r s'

def Later : σ → σ → Prop := Relation.ReflTransGen S.Next

variable {S} {w : World σ R ε} {P : σ → Prop}

def Event.Lawful (S : Pool σ C R ε) (e : Event σ R) : Prop :=
  match e.cause with
  | some (_, x) => S.serves e.before x.1 x.2 e.after
  | none => S.drifts e.before e.after

theorem Event.Lawful.next (h : e.Lawful S) : S.Next e.before e.after := by
  rcases e with ⟨_ | ⟨i, x⟩, b, a⟩
  · exact .inl h
  · exact .inr ⟨x.1, x.2, h⟩

theorem Event.Lawful.serves (h : e.Lawful S) (hcause : e.cause = some (i, x)) :
    S.serves e.before x.1 x.2 e.after := by
  simpa only [Event.Lawful, hcause] using h

/-! ## Rules of programs -/

section rules
variable {P : ℕ → List (Entry R) → C → Prop}

structure Obedient (P : ℕ → List (Entry R) → C → Prop) (w : World σ R ε) : Prop where
  turns : ∀ i p, w.turns i = some p → p.Guards (P i) (fun _ _ => True) (history w.log i)
  log : ∀ l₁ e l₂ i x, w.log = l₁ ++ e :: l₂ → e.cause = some (i, x) → P i (history l₁ i) x.1

/-- The rest of a turn guards what its program did. -/
theorem Reachable.keeps {Q : ℕ → List (Entry R) → Except ε Unit → Prop} (h : S.Reachable w)
    (hP : ∀ i p, S.starts i p → p.Guards (P i) (Q i) []) {p : Program C R ε Unit}
    (hp : w.turns i = some p) : p.Guards (P i) (Q i) (history w.log i) := by
  induction h generalizing i p with
  | refl => cases hp
  | @tail w w' _ hstep ih =>
    cases hstep with
    | start j q fresh starts =>
      simp only [update_apply] at hp
      split_ifs at hp with hij
      · cases hp
        subst hij
        rw [fresh]
        exact hP i p starts
      · exact ih hp
    | crash j =>
      simp only [update_apply] at hp
      split_ifs at hp
      exact ih hp
    | @serve c next j r s running serves =>
      simp only [update_apply] at hp
      rw [history_snoc]
      split_ifs at hp with hij
      · cases hp
        subst hij
        simpa [Event.entry] using (ih running).2 r
      · simpa [Event.entry, Ne.symm hij] using ih hp
    | drift s drifts =>
      rw [history_snoc]
      simpa [Event.entry] using ih hp

/-- Induction over the log, by the rules of the turns. -/
theorem Reachable.of_events {J : σ → List (Event σ R) → Prop}
    (hP : ∀ i p, S.starts i p → p.Guards (P i) (fun _ _ => True) []) (hinit : J S.init [])
    (hstep : ∀ (w : World σ R ε) (e : Event σ R), S.Reachable w → J w.shared w.log →
      e.before = w.shared → e.Lawful S →
      (∀ i x, e.cause = some (i, x) → P i (history w.log i) x.1) → J e.after (w.log ++ [e]))
    (h : S.Reachable w) : J w.shared w.log := by
  induction h with
  | refl => exact hinit
  | @tail w w' hw hs ih =>
    cases hs with
    | start | crash => exact ih
    | @serve c next i r s running serves =>
      refine hstep w ⟨some (i, ⟨c, r⟩), w.shared, s⟩ hw ih rfl serves ?_
      rintro j x ⟨rfl⟩
      exact (Reachable.keeps (Q := fun _ _ _ => True) hw hP running).1
    | drift s drifts => exact hstep w ⟨none, w.shared, s⟩ hw ih rfl drifts nofun

/-- The rules of the programs are rules of the log. -/
theorem Reachable.guarded (h : S.Reachable w)
    (hP : ∀ i p, S.starts i p → p.Guards (P i) (fun _ _ => True) []) : Obedient P w := by
  refine ⟨fun i p hp => h.keeps (Q := fun _ _ _ => True) hP hp, ?_⟩
  refine h.of_events (J := fun _ log => ∀ l₁ e l₂ i x, log = l₁ ++ e :: l₂ →
    e.cause = some (i, x) → P i (history l₁ i) x.1) hP (by simp) ?_
  intro w d _ ih _ _ hrule l₁ e l₂ i x hlog hcause
  obtain ⟨rfl, rfl⟩ | ⟨l₃, -, hlog⟩ := snoc_eq_append_cons hlog
  · exact hrule i x hcause
  · exact ih l₁ e l₃ i x hlog hcause

end rules

/-- Induction over the log. -/
theorem Reachable.of_log {J : σ → List (Event σ R) → Prop} (hinit : J S.init [])
    (hstep : ∀ (w : World σ R ε) (e : Event σ R), S.Reachable w → J w.shared w.log →
      e.before = w.shared → e.Lawful S → J e.after (w.log ++ [e])) (h : S.Reachable w) :
    J w.shared w.log :=
  h.of_events (P := fun _ _ _ => True)
    (fun _ _ _ => Program.guards_of_forall (fun _ _ => trivial) fun _ _ => trivial) hinit
    fun w e hw hJ hbefore hlawful _ => hstep w e hw hJ hbefore hlawful

/-! ## Invariants -/

/-- A property of the state now and at every event, and a relation between the states at
two times. -/
structure Steady (I : σ → Prop) (F : σ → σ → Prop) (s : σ) (log : List (Event σ R)) : Prop where
  holds : I s
  events : ∀ e ∈ log, I e.before ∧ I e.after
  order : log.Pairwise fun e e' => F e.after e'.before
  now : ∀ e ∈ log, F e.after s

theorem Steady.nil {s : σ} (h : I s) : Steady (R := R) I F s [] :=
  ⟨h, fun _ he => absurd he not_mem_nil, .nil, fun _ he => absurd he not_mem_nil⟩

theorem Steady.snoc (hrefl : ∀ s, F s s) (htrans : ∀ {s s' s''}, F s s' → F s' s'' → F s s'')
    {log : List (Event σ R)} (h : Steady I F e.before log) (he : I e.after ∧ F e.before e.after) :
    Steady I F e.after (log ++ [e]) where
  holds := he.1
  events := by
    intro d hd
    rcases mem_append.mp hd with hd | hd
    · exact h.events d hd
    · rw [mem_singleton.mp hd]
      exact ⟨h.holds, he.1⟩
  order := by
    refine pairwise_append.mpr ⟨h.order, pairwise_singleton _ _, ?_⟩
    intro d hd d' hd'
    rw [mem_singleton.mp hd']
    exact h.now d hd
  now := by
    intro d hd
    rcases mem_append.mp hd with hd | hd
    · exact htrans (h.now d hd) he.2
    · rw [mem_singleton.mp hd]
      exact hrefl _

/-- What every change keeps holds at all times. -/
theorem Reachable.steady (hrefl : ∀ s, F s s) (htrans : ∀ {s s' s''}, F s s' → F s' s'' → F s s'')
    (hinit : I S.init) (hstep : ∀ {s s'}, S.Next s s' → I s → I s' ∧ F s s') (h : S.Reachable w) :
    Steady I F w.shared w.log := by
  refine h.of_log (J := Steady I F) (.nil hinit) ?_
  rintro w ⟨cause, _, after⟩ _ ih rfl hlawful
  exact Steady.snoc hrefl htrans ih (hstep hlawful.next ih.holds)

theorem Steady.before_after {s : σ} {log : List (Event σ R)} (h : Steady I F s log)
    (hlog : log = l₁ ++ e :: l₂) (hd : d ∈ l₂) : F e.after d.before := by
  have horder := h.order
  rw [hlog] at horder
  exact (pairwise_cons.mp (pairwise_append.mp horder).2.1).1 d hd

structure Chronicle (S : Pool σ C R ε) (w : World σ R ε) : Prop where
  lawful : ∀ e ∈ w.log, e.Lawful S
  origin : ∀ e ∈ w.log, S.Later S.init e.before
  order : w.log.Pairwise fun e e' => S.Later e.after e'.before
  now : ∀ e ∈ w.log, S.Later e.after w.shared
  shared : S.Later S.init w.shared

theorem Reachable.chronicle (h : S.Reachable w) : Chronicle S w := by
  have hs : Steady (S.Later S.init) S.Later w.shared w.log :=
    h.steady (fun _ => .refl) (fun h h' => h.trans h') .refl
      fun hnext hs => ⟨hs.tail hnext, .single hnext⟩
  refine ⟨?_, fun e he => (hs.events e he).1, hs.order, hs.now, hs.holds⟩
  refine h.of_log (J := fun _ log => ∀ e ∈ log, e.Lawful S) nofun fun w d _ ih _ hlawful => ?_
  exact forall_mem_append.mpr ⟨ih, forall_mem_singleton.mpr hlawful⟩

/-- The log up to an event is that of a reachable world. -/
theorem Reachable.cut (h : S.Reachable w) (hlog : w.log = l₁ ++ e :: l₂) :
    ∃ w₁ : World σ R ε, S.Reachable w₁ ∧ w₁.log = l₁ ∧ w₁.shared = e.before := by
  refine h.of_log (J := fun _ log => ∀ l₂, log = l₁ ++ e :: l₂ → ∃ w₁ : World σ R ε,
    S.Reachable w₁ ∧ w₁.log = l₁ ∧ w₁.shared = e.before) (by simp) ?_ l₂ hlog
  intro w d hw ih hbefore _ l₂ hlog
  -- the event is the last one, or the cut is in the log before
  obtain ⟨rfl, rfl⟩ | ⟨l₃, -, hlog⟩ := snoc_eq_append_cons hlog
  · exact ⟨w, hw, rfl, hbefore.symm⟩
  · exact ih l₃ hlog

/-- What came to hold was brought about by an event. -/
theorem Reachable.exists_event (h : S.Reachable w) (hinit : ¬P S.init) (hnow : P w.shared) :
    ∃ l₁ e l₂, w.log = l₁ ++ e :: l₂ ∧ ¬P e.before ∧ P e.after := by
  refine h.of_log (J := fun s log => P s → ∃ l₁ e l₂, log = l₁ ++ e :: l₂ ∧ ¬P e.before ∧ P e.after)
    (fun hP => absurd hP hinit) ?_ hnow
  intro w d _ ih hbefore _ hP
  by_cases hw : P w.shared
  · obtain ⟨l₁, e, l₂, hlog, he⟩ := ih hw
    exact ⟨l₁, e, l₂ ++ [d], by simp [hlog], he⟩
  · exact ⟨w.log, d, [], rfl, hbefore ▸ hw, hP⟩

/-- What no later event destroys still holds. -/
theorem Reachable.persists (h : S.Reachable w) (hlog : w.log = l₁ ++ d :: l₂) (hd : P d.after)
    (hkeep : ∀ l₃ f l₄, l₂ = l₃ ++ f :: l₄ → P f.before → P f.after) : P w.shared := by
  refine h.of_log (J := fun s log => ∀ l₂, log = l₁ ++ d :: l₂ →
    (∀ l₃ f l₄, l₂ = l₃ ++ f :: l₄ → P f.before → P f.after) → P s) (by simp) ?_ l₂ hlog hkeep
  intro w f _ ih hf _ l₂ hlog hkeep
  obtain ⟨-, rfl⟩ | ⟨l₃, rfl, hbefore⟩ := snoc_eq_append_cons hlog
  · exact hd
  · refine hkeep l₃ f [] rfl (hf ▸ ih l₃ hbefore fun l₅ g l₆ hl => ?_)
    exact hkeep l₅ g (l₆ ++ [f]) (by simp [hl])

theorem Reachable.arises (h : S.Reachable w) (hlog : w.log = l₁ ++ d :: l₂) (hd : ¬P d.after)
    (hnow : P w.shared) : ∃ l₃ f l₄, l₂ = l₃ ++ f :: l₄ ∧ ¬P f.before ∧ P f.after := by
  by_contra hnone
  push Not at hnone
  exact h.persists (P := fun s => ¬P s) hlog hd hnone hnow

def World.states (w : World σ R ε) : List σ := w.log.map Event.before ++ [w.shared]

theorem World.shared_mem_states (w : World σ R ε) : w.shared ∈ w.states := by simp [states]

theorem Reachable.after_mem_states (h : S.Reachable w) (he : e ∈ w.log) : e.after ∈ w.states := by
  refine h.of_log (J := fun s log => ∀ e ∈ log, e.after ∈ log.map Event.before ++ [s]) nofun ?_ e he
  intro w d _ ih hbefore _
  refine forall_mem_append.mpr ⟨fun e he => ?_, by simp⟩
  rw [map_append, map_singleton, hbefore]
  exact mem_append_left _ (ih e he)

theorem Reachable.states_pairwise (htrans : ∀ {s s' s''}, F s s' → F s' s'' → F s s'')
    (hinit : I S.init) (hstep : ∀ {s s'}, S.Next s s' → I s → I s' ∧ F s s') (h : S.Reachable w) :
    (∀ s ∈ w.states, I s) ∧ w.states.Pairwise F := by
  refine h.of_log (J := fun s log => (∀ x ∈ log.map Event.before ++ [s], I x) ∧
    (log.map Event.before ++ [s]).Pairwise F) (by simpa using hinit) ?_
  intro w d _ ih hbefore hlawful
  -- a state at the end of the log comes after all the others
  obtain ⟨hI, hF⟩ := hstep (hbefore ▸ hlawful.next) (ih.1 _ (by simp))
  rw [map_append, map_singleton, hbefore]
  refine ⟨forall_mem_append.mpr ⟨ih.1, forall_mem_singleton.mpr hI⟩,
    pairwise_append.mpr ⟨ih.2, pairwise_singleton _ _, ?_⟩⟩
  intro x hx y hy
  rw [mem_singleton.mp hy]
  rcases mem_append.mp hx with hx' | hx'
  · exact htrans ((pairwise_append.mp ih.2).2.2 x hx' _ (by simp)) hF
  · rw [mem_singleton.mp hx']; exact hF

/-! ## At most once -/

/-- An event that uses up its condition happens once. -/
theorem Reachable.pairwise_not {T : σ → Prop} {p : Event σ R → Prop}
    (hkeep : ∀ {s s'}, S.Next s s' → T s → T s')
    (honce : ∀ e ∈ w.log, p e → ¬T e.before ∧ T e.after) (h : S.Reachable w) :
    w.log.Pairwise fun e e' => ¬(p e ∧ p e') := by
  have hlater {s s' : σ} (hs : S.Later s s') (hT : T s) : T s' := by
    induction hs with
    | refl => exact hT
    | tail _ hnext ih => exact hkeep hnext ih
  refine h.chronicle.order.imp_of_mem ?_
  rintro e e' he he' horder ⟨hp, hp'⟩
  exact (honce e' he' hp').1 (hlater horder (honce e he hp).2)

theorem Reachable.pairwise_not_cause {T : σ → Prop} {p : ℕ × Entry R → Prop}
    (hkeep : ∀ {s s'}, S.Next s s' → T s → T s')
    (honce : ∀ e : Event σ R, e.Lawful S → ∀ x, e.cause = some x → p x → ¬T e.before ∧ T e.after)
    (h : S.Reachable w) : w.log.Pairwise fun e e' =>
      ¬((∃ x, e.cause = some x ∧ p x) ∧ ∃ x, e'.cause = some x ∧ p x) := by
  refine h.pairwise_not hkeep ?_
  rintro e he ⟨x, hx, hpx⟩
  exact honce e (h.chronicle.lawful e he) x hx hpx

theorem eq_of_pairwise_not {l : List α} {p : α → Prop}
    (honce : l.Pairwise fun e e' => ¬(p e ∧ p e')) {e e' : α} (he : e ∈ l) (he' : e' ∈ l) (hp : p e)
    (hp' : p e') : e = e' := by
  by_contra hne
  have hsymm : Std.Symm fun e e' => ¬(p e ∧ p e') := ⟨fun _ _ hnot hand => hnot hand.symm⟩
  exact honce.forall he he' hne ⟨hp, hp'⟩

theorem eq_of_mem_history {l : List (Event σ R)} {x : Entry R}
    (honce : l.Pairwise fun e e' => ¬((∃ y, e.cause = some y ∧ y.2 = x) ∧
      ∃ y, e'.cause = some y ∧ y.2 = x)) {i j : ℕ} (hi : x ∈ history l i)
    (hj : x ∈ history l j) : i = j := by
  obtain ⟨e, he, hei⟩ := exists_event_of_mem_history hi
  obtain ⟨d, hd, hdj⟩ := exists_event_of_mem_history hj
  obtain rfl := eq_of_pairwise_not honce he hd ⟨_, hei, rfl⟩ ⟨_, hdj, rfl⟩
  exact congrArg Prod.fst (Option.mem_unique hei hdj)

theorem pairwise_of_splits {r : α → α → Prop} {l : List α}
    (h : ∀ l₁ e l₂ e' l₃, l = l₁ ++ e :: l₂ ++ e' :: l₃ → r e e') : l.Pairwise r := by
  induction l with
  | nil => exact .nil
  | cons a l ih =>
    refine pairwise_cons.mpr ⟨fun e' he' => ?_, ih fun l₁ e l₂ e' l₃ hl => ?_⟩
    · obtain ⟨l₂, l₃, rfl⟩ := append_of_mem he'
      exact h [] a l₂ e' l₃ rfl
    · exact h (a :: l₁) e l₂ e' l₃ (by simp [hl])

/-- What a turn does only right after something that happens once, happens once. -/
theorem pairwise_not_of_follows {p q : ℕ × Entry R → Prop}
    (honce : l.Pairwise fun e e' =>
      ¬((∃ x, e.cause = some x ∧ q x) ∧ ∃ x, e'.cause = some x ∧ q x))
    (hafter : ∀ l₁ e l₂ i x, l = l₁ ++ e :: l₂ → e.cause = some (i, x) → p (i, x) →
      ∃ h y, history l₁ i = h ++ [y] ∧ q (i, y)) :
    l.Pairwise fun e e' => ¬((∃ x, e.cause = some x ∧ p x) ∧ ∃ x, e'.cause = some x ∧ p x) := by
  refine pairwise_of_splits ?_
  rintro l₁ e l₂ e' l₃ rfl ⟨⟨⟨i, x⟩, hx, hpx⟩, ⟨j, x'⟩, hx', hpx'⟩
  obtain ⟨_, y, hy, hqy⟩ := hafter l₁ e _ i x (append_assoc ..) hx hpx
  obtain ⟨_, y', hy', hqy'⟩ := hafter _ e' l₃ j x' rfl hx' hpx'
  obtain ⟨d, hd, hdy⟩ := exists_event_of_mem_history (by simp [hy] : y ∈ history l₁ i)
  rw [history_append] at hy'
  -- the last entry of the later turn stands before `e`, or not
  rcases eq_nil_or_concat (history (e :: l₂) j) with hnil | ⟨_, z, hz⟩
  · rw [hnil, append_nil] at hy'
    obtain ⟨d', hd', hdy'⟩ := exists_event_of_mem_history (by simp [hy'] : y' ∈ history l₁ j)
    obtain rfl := eq_of_pairwise_not honce (by simp [hd]) (by simp [hd']) ⟨_, hdy, hqy⟩
      ⟨_, hdy', hqy'⟩
    cases hdy.symm.trans hdy'
    exact turn_ne_of_history_nil hnil mem_cons_self (Event.turn_of_cause hx)
  · rw [hz, concat_eq_append, ← append_assoc] at hy'
    obtain ⟨-, hzy⟩ := append_inj' hy' rfl
    obtain ⟨d', hd', hdy'⟩ := exists_event_of_mem_history
      (by simp [hz, hzy] : y' ∈ history (e :: l₂) j)
    exact (pairwise_append.mp (pairwise_append.mp honce).1).2.2 d hd d' hd'
      ⟨⟨_, hdy, hqy⟩, _, hdy', hqy'⟩

/-! ## Scripted interleavings -/

variable (S)

structure Oracle where
  answer : σ → (c : C) → R c × σ
  lawful : ∀ s c, S.serves s c (answer s c).1 (answer s c).2

variable {S}

def Oracle.serve (o : S.Oracle) (i : ℕ) (w : World σ R ε) : World σ R ε :=
  match w.turns i with
  | some (.call c next) =>
    let a := o.answer w.shared c
    ⟨a.2, Function.update w.turns i (some (next a.1)),
      w.log ++ [⟨some (i, ⟨c, a.1⟩), w.shared, a.2⟩]⟩
  | _ => w

theorem Oracle.reachable_serve (o : S.Oracle) (i : ℕ) (h : S.Reachable w) :
    S.Reachable (o.serve i w) := by
  unfold Oracle.serve
  split
  · rename_i c next running
    exact h.tail (.serve i _ _ running (o.lawful w.shared c))
  · exact h

/-- Answer the next `n` calls of a turn. -/
def Oracle.serves (o : S.Oracle) (i : ℕ) : ℕ → World σ R ε → World σ R ε
  | 0, w => w
  | n + 1, w => o.serves i n (o.serve i w)

theorem Oracle.reachable_serves (o : S.Oracle) (i n : ℕ) (h : S.Reachable w) :
    S.Reachable (o.serves i n w) := by
  induction n generalizing w with
  | zero => exact h
  | succ n ih => exact ih (o.reachable_serve i h)

def World.begin (w : World σ R ε) (i : ℕ) (p : Program C R ε Unit) : World σ R ε :=
  if (history w.log i).isEmpty then { w with turns := Function.update w.turns i (some p) } else w

theorem Reachable.begin (h : S.Reachable w) {p : Program C R ε Unit} (starts : S.starts i p) :
    S.Reachable (w.begin i p) := by
  unfold World.begin
  split
  · rename_i fresh
    exact h.tail (.start i p (isEmpty_iff.mp fresh) starts)
  · exact h

end Pool
end Athena.Lib
