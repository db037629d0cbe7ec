import Athena.Execution.Operations

/-!
# Reachable tables

The invariant of the execution tables as a whole: every Run satisfies its own
invariant, and what the Runs share is held exclusively.  A Wallet is locked by one
Run, a command id, an attempt id and a completion pubkey name one row.  From the
exclusive Wallet locks it follows that no other Run can isolate the pair of an
active Step.
-/

namespace Athena.Execution

open Athena.Lib Table Queries Run Option List StepState

/-! ## Who holds what -/

namespace Run

def locksWallet (r : Run) (_ : Unit) (w : ℕ) : Prop := w ∈ r.walletLocks

def journals (r : Run) (_ : Unit) (id : UUID) : Prop := (r.record id).isSome

def attempts (r : Run) (place : ℕ × MutationKind) (id : UUID) : Prop :=
  ∃ s ∈ r.steps, s.ordinal = place.1 ∧ ∃ a, s.attempt place.2 = some a ∧ a.id = id

def completes (r : Run) (ordinal : ℕ) (pubkey : String) : Prop :=
  ∃ s ∈ r.steps, s.ordinal = ordinal ∧ ∃ e, s.completion = some e ∧ e.positionPubkey = pubkey

end Run

def StepRow.Blocks (s : StepRow) (pair : ℕ × String) : Prop :=
  ∃ i ∈ s.isolations, i.unresolved ∧ (i.walletId, i.market) = pair

variable {t : Tables} {e : CompletionEvidence} {o : Event} {pair : ℕ × String} {id : UUID}

theorem Tables.pairIsolated_iff :
    t.pairIsolated pair ↔ ∃ r ∈ t.runs, ∃ s ∈ r.steps, s.Blocks pair := by
  simp [Tables.pairIsolated, StepRow.Blocks, Prod.ext_iff, mem_rows, and_assoc]

theorem Tables.any_pairIsolated_eq_false {x : Option (ℕ × String)} :
    x.any t.pairIsolated = false ↔
      ∀ pair, x = some pair → ∀ r ∈ t.runs, ∀ s ∈ r.steps, ¬s.Blocks pair := by
  rw [Option.any_eq_false]
  simp only [← Bool.not_eq_true, pairIsolated_iff, not_exists, not_and]

namespace Tables

def Holds {P K : Type} (f : Run → P → K → Prop) (t : Tables) (place : UUID × P) (k : K) : Prop :=
  ∃ r ∈ t.runs, r.id = place.1 ∧ f r place.2 k

section holds
variable {P K : Type} {f : Run → P → K → Prop} {t : Tables} {r r' : Run}

theorem Holds.put (h : Exclusive (Holds f t)) (mem : r ∈ t.runs) (hid : r'.id = r.id) (p₀ : P)
    (hstep : ∀ p k, f r' p k → f r p k ∨ (p = p₀ ∧ ∀ q, ¬Holds f t q k)) :
    Exclusive (Holds f ⟨t.runs.put r'⟩) := by
  refine h.take (r.id, p₀) ?_
  rintro ⟨id, p⟩ k ⟨u, hu, rfl, hf⟩
  rcases eq_or_mem_of_mem_put hu with rfl | ⟨hu, -⟩
  · rcases hstep p k hf with hf | ⟨rfl, hfree⟩
    · exact .inl ⟨r, mem, hid.symm, hf⟩
    · exact .inr ⟨by rw [hid], hfree⟩
  · exact .inl ⟨u, hu, rfl, hf⟩

theorem Holds.insert {runs : Table fun r : Run => r.id} (h : Exclusive (Holds f t))
    (hinsert : t.runs.insert? r = some runs) (p₀ : P)
    (hfree : ∀ p k, f r p k → p = p₀ ∧ ∀ q, ¬Holds f t q k) : Exclusive (Holds f ⟨runs⟩) := by
  refine h.take (r.id, p₀) ?_
  rintro ⟨id, p⟩ k ⟨u, hu, rfl, hf⟩
  rcases (Table.mem_insert? hinsert).mp hu with hu | rfl
  · exact .inl ⟨u, hu, rfl, hf⟩
  · obtain ⟨rfl, hnone⟩ := hfree p k hf
    exact .inr ⟨rfl, hnone⟩

end holds

/-- What holds of the execution tables after any transactions. -/
structure Inv (t : Tables) : Prop where
  runs : ∀ r ∈ t.runs, r.Inv
  wallets : Exclusive (Holds Run.locksWallet t)
  commands : Exclusive (Holds Run.journals t)
  attempts : Exclusive (Holds Run.attempts t)
  completions : Exclusive (Holds Run.completes t)
  free : ∀ r ∈ t.runs, ∀ s ∈ r.steps, s.state.active →
    (r.pairOf s.toStepRow).any t.pairIsolated = false

theorem inv_empty : empty.Inv :=
  have hnone {P K : Type} (f : Run → P → K → Prop) : Exclusive (Holds f empty) := by
    rintro _ _ _ ⟨r, hr, -⟩
    simp [empty] at hr
  ⟨by simp [empty], hnone _, hnone _, hnone _, hnone _, by simp [empty]⟩

end Tables

/-! ## What a move adds -/

namespace StepRow

variable {s s' : StepRow}

theorem Ended.attempt (h : Ended s s') : s'.attempt = s.attempt := by
  obtain ⟨e, code, now, rfl⟩ := h.row
  rfl

theorem Ended.completion (h : Ended s s') : s'.completion = s.completion := by
  obtain ⟨e, code, now, rfl⟩ := h.row
  rfl

theorem Finish.attempt (h : Finish o s s') :
    s'.attempt = s.attempt := by cases h <;> rfl

theorem attemptById_isSome {k : MutationKind} {a : Attempt} (h : s.attempt k = some a) :
    (attemptById s a.id).isSome := by
  cases k with
  | «open» => simp [attemptById, show s.openAttempt = some a from h]
  | finalize => simp [attemptById, show s.finalizeAttempt = some a from h]

theorem Hold.attempts (h : Hold o s s') : ∃ k₀, ∀ k a', s'.attempt k = some a' →
      (∃ a, s.attempt k = some a ∧ a.id = a'.id) ∨ (k = k₀ ∧ s.attempt k = none) := by
  have set {k₀ : MutationKind} {b : Attempt} (hb : ∀ a, s.attempt k₀ = some a → a.id = b.id) :
      ∀ k a', (s.setAttempt k₀ b).attempt k = some a' →
        (∃ a, s.attempt k = some a ∧ a.id = a'.id) ∨ (k = k₀ ∧ s.attempt k = none) := by
    intro k a' ha'
    by_cases hk : k = k₀
    · subst hk
      rw [s.attempt_setAttempt_self k b] at ha'
      cases ha'
      cases ha : s.attempt k with
      | none => exact .inr ⟨rfl, rfl⟩
      | some a => exact .inl ⟨a, rfl, hb a ha⟩
    · rw [s.attempt_setAttempt_of_ne b hk] at ha'
      exact .inl ⟨a', ha', rfl⟩
  cases h with
  | prepare k _ _ _ hnone => exact ⟨k, set (by simp [hnone])⟩
  | dispatch a _ _ ha => exact ⟨a.kind, set (by rw [ha]; rintro _ ⟨⟩; rfl)⟩
  | resolve a _ _ ha _ hb => exact ⟨a.kind, set (by rw [ha]; rintro _ ⟨⟩; exact hb.id.symm)⟩
  | respond a b _ _ _ _ _ _ ha _ hb =>
    refine ⟨.open, fun k a' ha' => set (b := b) ?_ k a' ?_⟩
    · rw [show s.attempt .open = some a from ha]
      rintro _ ⟨⟩
      exact hb.id.symm
    · cases k <;> exact ha'
  | claim | opening | opened | signing | signed | reconcile | observe =>
    exact ⟨.open, fun k a' ha' => .inl ⟨a', by cases k <;> exact ha', rfl⟩⟩

theorem Observes.completed {o : Observation} (h : s.Observes o) (hne : o.nextState ≠ .completed) :
    o.completion = none := by
  have := h.completion
  unfold admitsCompletion at this
  split at this
  · assumption
  · simp [hne] at this

theorem Hold.completion (h : Hold o s s') (he : s'.completion = some e) :
    s.completion = some e := by
  cases h with
  | prepare k => cases k <;> exact he
  | dispatch a | resolve a => cases hk : a.kind <;> simpa [setAttempt, hk] using he
  | observe o _ h hnext =>
    have he : o.completion = some e := he
    rw [h.completed (by rcases hnext with hn | ⟨hn, -⟩ <;> simp [hn])] at he
    cases he
  | _ => exact he

end StepRow

namespace Run

section moves
variable {t : Tables} {o : Event} {r r' : Run}

theorem Move.locksWallet (h : Move t o r r') {w : ℕ} (hw : w ∈ r'.walletLocks) :
    w ∈ r.walletLocks := by
  obtain ⟨kept, -⟩ | ⟨released, -⟩ := h.locks_cases
  · exact kept.1 ▸ hw
  · simp [released.1] at hw

theorem record_eq_none : r.record id = none ↔ ∀ c ∈ r.commands, c.id ≠ id := by
  simp [record]

theorem Move.journals (h : Move t o r r') (hsome : (r'.record id).isSome) :
    (r.record id).isSome ∨ ∀ q, ¬Tables.Holds Run.journals t q id := by
  cases hr : r.record id with
  | some => exact .inl rfl
  | none =>
    have hfree := Store.commandOf_eq_none.mp (h.frozen.records.added id hr hsome)
    refine .inr ?_
    rintro q ⟨u, hu, -, hj⟩
    rw [Run.journals, record_eq_none.mpr (hfree u hu)] at hj
    cases hj

variable {s : Step}

theorem columns_of_left {u v : Step} (h : u.Left v) : v.ordinal = u.ordinal ∧
    v.attempt = u.attempt ∧ v.completion = u.completion ∧ v.isolations = u.isolations := by
  rcases h with rfl | e
  · exact ⟨rfl, rfl, rfl, rfl⟩
  · exact ⟨e.evolves.ordinal, e.attempt, e.completion, e.isolations⟩

theorem StepMove.attempts {s s' : Step} (h : StepMove t r s s' o) :
    ∃ k₀, ∀ k a', s'.attempt k = some a' → (∃ a, s.attempt k = some a ∧ a.id = a'.id) ∨
      (k = k₀ ∧ t.attemptTaken a'.id = false) := by
  have same (h : s'.attempt = s.attempt) : ∃ k₀, ∀ k a', s'.attempt k = some a' →
      (∃ a, s.attempt k = some a ∧ a.id = a'.id) ∨ (k = k₀ ∧ t.attemptTaken a'.id = false) :=
    ⟨.open, fun k a' ha' => .inl ⟨a', h ▸ ha', rfl⟩⟩
  cases h with
  | claimed _ _ _ _ _ row => exact same (by rw [row]; rfl)
  | held hold fresh =>
    obtain ⟨k₀, hk⟩ := hold.attempts
    exact ⟨k₀, fun k a' ha' => (hk k a' ha').imp_right fun h => ⟨h.1, fresh k a' h.2 ha'⟩⟩
  | finished _ finish => exact same finish.attempt
  | isolated _ _ _ _ _ _ row | reconciled _ _ _ _ _ _ _ row => exact same (by rw [row]; rfl)

theorem Move.attempts (h : Move t o r r') : ∃ p₀, ∀ p id, r'.attempts p id →
    r.attempts p id ∨ (p = p₀ ∧ t.attemptTaken id = false) := by
  have left {u v : Step} (hu : u ∈ r.steps) (h : u.Left v) {p : ℕ × MutationKind} {a : Attempt}
      (hplace : v.ordinal = p.1) (ha : v.attempt p.2 = some a) : r.attempts p a.id :=
    ⟨u, hu, (columns_of_left h).1.symm.trans hplace, a, (columns_of_left h).2.1 ▸ ha, rfl⟩
  obtain hleft | ⟨s, mem, s', hmoved, hsweep⟩ := h.sweeps
  · refine ⟨(0, .open), ?_⟩
    rintro p _ ⟨v, hv, hplace, a, ha, rfl⟩
    obtain ⟨u, hu, hl⟩ := hleft.exists_of_mem' hv
    exact .inl (left hu hl hplace ha)
  · obtain ⟨k₀, hself⟩ := hmoved.attempts
    have hord := hmoved.grows.1.ordinal
    refine ⟨(s.ordinal, k₀), ?_⟩
    rintro p _ ⟨v, hv, hplace, a', ha', rfl⟩
    rcases mem_of_sweep hsweep hv with rfl | ⟨u, hu, -, hl⟩
    · rcases hself p.2 a' ha' with ⟨a, ha, hid⟩ | ⟨hk, hfree⟩
      · exact .inl ⟨s, mem, hord.symm.trans hplace, a, ha, hid⟩
      · exact .inr ⟨Prod.ext (hplace.symm.trans hord) hk, hfree⟩
    · exact .inl (left hu hl hplace ha')

theorem StepMove.completion {s s' : Step} (h : StepMove t r s s' o) (he : s'.completion = some e) :
    s.completion = some e ∨ t.completionTaken e = false := by
  cases h with
  | claimed _ _ _ _ _ row => exact .inl (by rw [row] at he; exact he)
  | held hold => exact .inl (hold.completion he)
  | finished _ _ fresh => exact fresh e he
  | isolated o _ _ _ observes unknown row =>
    have he : o.completion = some e := by rw [row] at he; exact he
    rw [observes.completed (by simp [unknown])] at he
    cases he
  | reconciled o _ _ _ _ _ _ row _ fresh =>
    have he : o.completion = some e := by rw [row] at he; exact he
    exact .inr (by simpa [he] using fresh)

theorem Move.completes (h : Move t o r r') : ∃ n₀, ∀ n pubkey, r'.completes n pubkey →
    r.completes n pubkey ∨ (n = n₀ ∧ ∃ e : CompletionEvidence, e.positionPubkey = pubkey ∧
      t.completionTaken e = false) := by
  have left {u v : Step} (hu : u ∈ r.steps) (h : u.Left v) {e : CompletionEvidence}
      (he : v.completion = some e) : r.completes v.ordinal e.positionPubkey :=
    ⟨u, hu, (columns_of_left h).1.symm, e, (columns_of_left h).2.2.1 ▸ he, rfl⟩
  obtain hleft | ⟨s, mem, s', hmoved, hsweep⟩ := h.sweeps
  · refine ⟨0, ?_⟩
    rintro _ _ ⟨v, hv, rfl, e, he, rfl⟩
    obtain ⟨u, hu, hl⟩ := hleft.exists_of_mem' hv
    exact .inl (left hu hl he)
  · have hord := hmoved.grows.1.ordinal
    refine ⟨s.ordinal, ?_⟩
    rintro _ _ ⟨v, hv, rfl, e, he, rfl⟩
    rcases mem_of_sweep hsweep hv with rfl | ⟨u, hu, -, hl⟩
    · rcases hmoved.completion he with he | hfree
      · exact .inl ⟨s, mem, hord.symm, e, he, rfl⟩
      · exact .inr ⟨hord, e, rfl, hfree⟩
    · exact .inl (left hu hl he)

theorem Move.blocks (h : Move t o r r') (hseq : r.Sequential) {v : Step} (hv : v ∈ r'.steps)
    (hb : v.Blocks pair) : (∃ u ∈ r.steps, u.Blocks pair) ∨
      ((∃ s ∈ r.steps, s.state.active ∧ r.pairOf s.toStepRow = some pair) ∧
        ∀ w ∈ r'.steps, w.state.active = false) := by
  have same {u : Step} (hu : u ∈ r.steps) (h : v.isolations = u.isolations) :
      ∃ u ∈ r.steps, u.Blocks pair :=
    ⟨u, hu, by unfold StepRow.Blocks at *; rwa [← h]⟩
  obtain hleft | ⟨s, mem, s', hmoved, hsweep⟩ := h.sweeps
  · obtain ⟨u, hu, hl⟩ := hleft.exists_of_mem' hv
    exact .inl (same hu (columns_of_left hl).2.2.2)
  rcases mem_of_sweep hsweep hv with rfl | ⟨u, hu, -, hl⟩
  on_goal 2 => exact .inl (same hu (columns_of_left hl).2.2.2)
  cases hmoved with
  | claimed _ _ _ _ _ row => exact .inl (same mem (by rw [row]))
  | held hold => exact .inl (same mem hold.held.isolations)
  | finished _ finish => exact .inl (same mem finish.isolations)
  | isolated o _ _ active _ unknown row _ _ hpair =>
    obtain ⟨j, hj, hun, rfl⟩ := hb
    rw [row] at hj
    rcases mem_append.mp hj with hj | hj
    · exact .inl ⟨s, mem, j, hj, hun, rfl⟩
    · rw [mem_singleton.mp hj]
      refine .inr ⟨⟨s, mem, active, hpair⟩, fun w hw => ?_⟩
      by_contra hne
      have ha : w.state.active := by simpa using hne
      rw [hseq.eq_of_sweep mem (StepState.busy_of_active active) hsweep hw
        (StepState.busy_of_active ha), row] at ha
      have ha : o.nextState.active := ha
      simp [unknown, StepState.active] at ha
  | reconciled _ _ id _ _ _ _ row =>
    obtain ⟨j, hj, hun, rfl⟩ := hb
    rw [row] at hj
    obtain ⟨i, hi, rfl⟩ := mem_map.mp hj
    by_cases hid : (decide (i.id = id) && i.unresolved) = true
    · rw [resolvedIsolation, if_pos hid] at hun
      cases hun
    · rw [resolvedIsolation, if_neg hid] at hun ⊢
      exact .inl ⟨s, mem, i, hi, hun, rfl⟩

theorem Move.free (h : Move t o r r')
    (hr : ∀ s ∈ r.steps, s.state.active → (r.pairOf s.toStepRow).any t.pairIsolated = false)
    {v : Step} (hv : v ∈ r'.steps) (ha : v.state.active) :
    (r'.pairOf v.toStepRow).any t.pairIsolated = false := by
  rw [pairOf_of_frozen h.frozen]
  obtain ⟨u, hu, rfl | e⟩ | ⟨s, mem, hmoved⟩ := h.step_cases hv
  · exact hr v hu ha
  · exact absurd (busy_of_active ha)
      (by simp [not_busy_of_terminal e.terminal])
  rw [pairOf_of_evolves hmoved.grows.1]
  cases hmoved with
  | claimed _ _ _ _ free => exact free
  | held hold =>
    rcases hold.held.state with h | ⟨h, -⟩
    · exact hr s mem (h ▸ ha)
    · exact hr s mem h
  | finished _ finish =>
    exact absurd (busy_of_active ha)
      (by simp [not_busy_of_terminal (Store.terminal_of_finish finish)])
  | isolated _ _ _ _ _ unknown row =>
    rw [row] at ha
    simp [observed, unknown, active] at ha
  | reconciled _ _ _ _ _ _ terminal row =>
    rw [row] at ha
    exact absurd (busy_of_active ha)
      (by simp [not_busy_of_terminal terminal, observed])

theorem Inv.locksWallet (hr : r.Inv) (hs : s ∈ r.steps) (ha : s.state.active)
    (hpair : r.pairOf s.toStepRow = some pair) : pair.1 ∈ r.walletLocks := by
  have hopen : r.state.terminal = false := by
    rcases hr.stated.active s hs ha with h | h | h | h <;> rw [h] <;> rfl
  simp only [pairOf, walletOf, bind_eq_bind, bind_eq_some_iff] at hpair
  obtain ⟨w, hw, i, -, hpair⟩ := hpair
  cases hpair
  exact (hr.locks.held hopen).1 w (mem_of_find?_eq_some hw)

end moves

end Run

/-! ## The invariant of the tables -/

namespace Tables

variable {t t' : Tables} {op : Operation}

theorem not_holds_attempts (h : t.attemptTaken id = false) (q) : ¬Holds attempts t q id := by
  rintro ⟨r, hr, -, s, hs, -, a, ha, rfl⟩
  have hfree := List.any_eq_false.mp h r hr
  simp only [List.any_eq_true, not_exists, not_and] at hfree
  exact hfree s hs (StepRow.attemptById_isSome ha)

theorem not_holds_completes (h : t.completionTaken e = false) (q) :
    ¬Holds completes t q e.positionPubkey := by
  rintro ⟨r, hr, -, s, hs, -, f, hf, hpub⟩
  have hfree := List.any_eq_false.mp h r hr
  simp only [List.any_eq_true, not_exists, not_and] at hfree
  exact hfree s hs (by simp [hf, hpub])

theorem not_holds_locks {w : ℕ} (h : t.walletLocked w = false) (q) :
    ¬Holds locksWallet t q w := by
  rintro ⟨r, hr, -, hw⟩
  have hfree := any_eq_false.mp h r hr
  exact hfree (contains_iff_mem.mpr hw)

theorem Inv.free_moved (ht : t.Inv) {r r' : Run} (mem : r ∈ t.runs) (move : r.Move t o r') :
    ∀ u ∈ (t.runs.put r'), ∀ s ∈ u.steps, s.state.active →
      (u.pairOf s.toStepRow).any (pairIsolated ⟨t.runs.put r'⟩) = false := by
  intro u hu s hs ha
  have hr := ht.runs r mem
  -- the pair was free before the move
  have hfree : (u.pairOf s.toStepRow).any t.pairIsolated = false := by
    rcases eq_or_mem_of_mem_put hu with rfl | ⟨hu, -⟩
    · exact move.free (ht.free r mem) hs ha
    · exact ht.free u hu s hs ha
  refine any_pairIsolated_eq_false.mpr fun pair hpair v hv x hx hb => ?_
  replace hfree := any_pairIsolated_eq_false.mp hfree pair hpair
  rcases eq_or_mem_of_mem_put hv with rfl | ⟨hv, -⟩
  · rcases move.blocks hr.sequential hx hb with ⟨y, hy, hb⟩ | ⟨⟨y, hy, hya, hyp⟩, idle⟩
    · exact hfree r mem y hy hb
    · rcases eq_or_mem_of_mem_put hu with rfl | ⟨hu, hne⟩
      · simp [idle s hs] at ha
      · have hlock := (ht.runs u hu).locksWallet hs ha hpair
        have := ht.wallets (p := (u.id, ())) (q := (r.id, ())) ⟨u, hu, rfl, hlock⟩
          ⟨r, mem, rfl, hr.locksWallet hy hya hyp⟩
        exact hne ((congrArg Prod.fst this).trans move.frozen.id.symm)
  · exact hfree v hv x hx hb

theorem Change.inv (h : t.Change op t') (ht : t.Inv) : t'.Inv := by
  cases h with
  | same => exact ht
  | @created runs r new insert =>
    have mem {u : Run} (hu : u ∈ runs) := (Table.mem_insert? insert).mp hu
    have nothing {s : Step} (hs : s ∈ r.steps) := new.fresh s hs
    exact
      { runs := by
          intro u hu
          rcases mem hu with hu | rfl
          · exact ht.runs u hu
          · exact new.inv
        wallets := Holds.insert ht.wallets insert ()
          fun _ w hw => ⟨rfl, not_holds_locks (new.unlocked w hw)⟩
        commands := by
          refine Holds.insert ht.commands insert () fun _ id hj => ?_
          simp [journals, record, new.commands] at hj
        attempts := by
          refine Holds.insert ht.attempts insert (0, .open) ?_
          rintro ⟨n, k⟩ id ⟨s, hs, -, a, ha, -⟩
          cases k <;> simp [StepRow.attempt, nothing hs] at ha
        completions := by
          refine Holds.insert ht.completions insert 0 ?_
          rintro n pubkey ⟨s, hs, -, e, he, -⟩
          simp [nothing hs] at he
        free := by
          intro u hu s hs ha
          rcases mem hu with hu | rfl
          · refine any_pairIsolated_eq_false.mpr fun pair hpair v hv x hx hb => ?_
            rcases mem hv with hv | rfl
            · exact any_pairIsolated_eq_false.mp (ht.free u hu s hs ha) pair hpair v hv x hx hb
            · obtain ⟨i, hi, -⟩ := hb
              simp [nothing hx] at hi
          · exact absurd (busy_of_active ha) (by simp [nothing hs]) }
  | moved r _ mem _ move =>
    have hid := move.frozen.id
    exact
      { runs := by
          intro u hu
          rcases eq_or_mem_of_mem_put hu with rfl | ⟨hu, -⟩
          · exact move.inv (ht.runs r mem)
          · exact ht.runs u hu
        wallets := Holds.put ht.wallets mem hid () fun _ w hw => .inl (move.locksWallet hw)
        commands := Holds.put ht.commands mem hid ()
          fun _ id hj => (move.journals hj).imp_right fun h => ⟨rfl, h⟩
        attempts := by
          obtain ⟨p₀, hstep⟩ := move.attempts
          exact Holds.put ht.attempts mem hid p₀ fun p id ha =>
            (hstep p id ha).imp_right fun h => ⟨h.1, not_holds_attempts h.2⟩
        completions := by
          obtain ⟨n₀, hstep⟩ := move.completes
          refine Holds.put ht.completions mem hid n₀ fun n pubkey hc => ?_
          refine (hstep n pubkey hc).imp_right ?_
          rintro ⟨rfl, e, rfl, hfree⟩
          exact ⟨rfl, not_holds_completes hfree⟩
        free := ht.free_moved mem move }

end Tables

def Tables.stepState (t : Tables) (run : UUID) (n : ℕ) : Option StepState :=
  ((t.runs.get? run).bind fun r => r.steps.get? n).map fun s => s.state

theorem Tables.stepState_eq_some {run : UUID} {n : ℕ} {state : StepState} :
    t.stepState run n = some state ↔
      ∃ r ∈ t.runs, r.id = run ∧ ∃ s ∈ r.steps, s.ordinal = n ∧ s.state = state := by
  simp only [stepState, map_eq_some_iff, bind_eq_some_iff, get?_eq_some]
  constructor
  · rintro ⟨s, ⟨r, ⟨hr, hid⟩, hs, hord⟩, hstate⟩
    exact ⟨r, hr, hid, s, hs, hord, hstate⟩
  · rintro ⟨r, hr, hid, s, hs, hord, hstate⟩
    exact ⟨s, ⟨r, ⟨hr, hid⟩, hs, hord⟩, hstate⟩

/-! ## Sequences of transactions -/

structure Run.Later (r r' : Run) : Prop where
  id : r'.id = r.id
  owner : r'.owner = r.owner
  wallets : r'.wallets = r.wallets
  items : r'.items = r.items
  steps : r.steps.Rel Grows r'.steps
  record : ∀ id, (r.record id).isSome → r'.record id = r.record id

def Tables.Later (t t' : Tables) : Prop := ∀ r ∈ t.runs, ∃ r' ∈ t'.runs, r.Later r'

theorem Run.Later.refl (r : Run) : r.Later r :=
  ⟨rfl, rfl, rfl, rfl, .refl fun s _ => grows_refl s, fun _ _ => rfl⟩

theorem Run.Later.trans {r r' r'' : Run} (h : r.Later r') (h' : r'.Later r'') : r.Later r'' where
  id := h'.id.trans h.id
  owner := h'.owner.trans h.owner
  wallets := h'.wallets.trans h.wallets
  items := h'.items.trans h.items
  steps := h.steps.trans h'.steps fun _ _ _ hab hbc =>
    ⟨hab.1.trans hbc.1, fun hj => hbc.2 (hab.2 hj)⟩
  record := by
    intro id hsome
    have heq := h.record id hsome
    rw [h'.record id (heq ▸ hsome), heq]

theorem Run.Move.later {r r' : Run} (h : r.Move t o r') : r.Later r' :=
  ⟨h.frozen.id, h.frozen.owner, h.frozen.wallets, h.frozen.items, h.grows, h.frozen.records.kept⟩

theorem Tables.Change.later {t' : Tables} {op : Operation} (h : t.Change op t') : t.Later t' := by
  intro u hu
  cases h with
  | same => exact ⟨u, hu, .refl u⟩
  | created _ _ insert => exact ⟨u, (Table.mem_insert? insert).mpr (.inl hu), .refl u⟩
  | moved _ r' mem _ move =>
    by_cases hid : u.id = r'.id
    · obtain rfl := eq_of_key_eq hu mem (hid.trans move.frozen.id)
      exact ⟨r', mem_put_self hu hid, move.later⟩
    · exact ⟨u, mem_put.mpr (.inr ⟨hu, hid⟩), .refl u⟩

namespace Store

def Commits (t t' : Tables) : Prop := ∃ op now a, exec op t now = .ok (t', a)

def Reaches : Tables → Tables → Prop := Relation.ReflTransGen Commits

def Reachable (t : Tables) : Prop := Reaches .empty t

variable {t t' : Tables}

theorem Commits.inv (h : Commits t t') (ht : t.Inv) : t'.Inv := by
  obtain ⟨op, now, a, h⟩ := h
  exact (exec_change h).inv ht

theorem Commits.later (h : Commits t t') : t.Later t' := by
  obtain ⟨op, now, a, h⟩ := h
  exact (exec_change h).later

theorem Reachable.inv (h : Reachable t) : t.Inv := by
  induction h with
  | refl => exact Tables.inv_empty
  | tail _ hstep ih => exact hstep.inv ih

theorem Reaches.later (h : Reaches t t') : t.Later t' := by
  induction h with
  | refl => exact fun r hr => ⟨r, hr, .refl r⟩
  | tail _ hstep ih =>
    intro r hr
    obtain ⟨r', hr', hlater⟩ := ih r hr
    obtain ⟨r'', hr'', hlater'⟩ := hstep.later r' hr'
    exact ⟨r'', hr'', hlater.trans hlater'⟩

def attempt (t : Tables) (op : Operation × Time) : Tables :=
  match exec op.1 t op.2 with
  | .ok (t', _) => t'
  | .error _ => t

def after (ops : List (Operation × Time)) : Tables := ops.foldl attempt .empty

theorem commits_attempt {op : Operation} {now : Time} (h : (exec op t now).isOk) :
    Commits t (attempt t (op, now)) := by
  unfold attempt
  cases hexec : exec op t now with
  | error => simp [hexec, Except.isOk, Except.toBool] at h
  | ok result => exact ⟨op, now, result.2, hexec⟩

theorem reaches_foldl (ops : List (Operation × Time)) (t : Tables) :
    Reaches t (ops.foldl attempt t) := by
  induction ops generalizing t with
  | nil => exact .refl
  | cons first _ ih =>
    refine .trans ?_ (ih (attempt t first))
    unfold attempt
    split
    · rename_i t' a h
      exact .single ⟨_, _, a, h⟩
    · exact .refl

theorem reachable_after (ops : List (Operation × Time)) : Reachable (after ops) :=
  reaches_foldl ops .empty

end Store

/-! ## A sample Run -/

namespace Sample

def market : String := "So11111111111111111111111111111111111111112"

def otherMarket : String := "11111111111111111111111111111112"

def address : String := "11111111111111111111111111111113"

def plan : Plan where
  id := 1
  owner := 1
  expiresAt := 1000
  combinationId := 1
  combinationRevision := 1
  sourceRevision := 1
  walletCount := 1
  itemCount := 2
  totalStepCount := 2
  readyStepCount := 2
  digest := 1
  wallets := [⟨1, 7, address, 1⟩]
  items := [⟨1, market, true, "polymarket", "5", "1", market, .ready⟩,
    ⟨2, otherMarket, false, "polymarket", "5", "1", otherMarket, .ready⟩]
  steps := [⟨1, 1, 1, .ready, .empty⟩, ⟨2, 1, 2, .ready, .empty⟩]
  major := by decide
  ordered := by decide
  walletKeys := by decide
  itemKeys := by decide

def admission (p : Plan) : Admission := ⟨[p], 0, 0, fun _ => 0, fun _ => 0⟩

def request (id revision : ℕ) : CommandRequest := ⟨1, 1, id, revision⟩

def binding : Binding := ⟨5, 1⟩

def started : List (Operation × Time) :=
  [(.create (admission plan) ⟨1, 1, 100, 1⟩ 1 fun n => 10 + n, 1),
    (.authorize (request 101 1) (.lit "PASSWORD") binding 201, 2),
    (.startOrResume false (request 102 2) binding 301 9, 3)]

def claim (id revision ordinal : ℕ) : Operation :=
  .executeNext (request id revision) ordinal 9 binding

def dispatched : List (Operation × Time) :=
  [(claim 103 3 1, 4), (.recover ⟨1, 1⟩ ⟨.worker 1, "worker", 100⟩, 5),
    (.preflight ⟨⟨1, 1⟩, 103, .worker 1, .opening, none, .empty⟩, 6),
    (.prepare ⟨401, ⟨1, 1⟩, 103, .worker 1, .open, .open market "5" true, 0⟩, 7),
    (.dispatch ⟨401, ⟨1, 1⟩, .worker 1⟩, 8)]

def unknown : List (Operation × Time) :=
  [(.resolve ⟨401, .outcomeUnknown, 0, 0, .empty, .timeout⟩, 9),
    (.observe
      { step := ⟨1, 1⟩, command := 103, claim := .worker 1, expectedState := .opening
        nextState := .outcomeUnknown, reasonCode := .timeout, isolation := some 501
        attempt := some 401 }, 10)]

end Sample
end Athena.Execution
