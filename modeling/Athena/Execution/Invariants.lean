import Athena.Execution.WorkerTransactions

/-!
# The invariant of a Run

`Run.Inv` holds of every Run the store can reach.  It says how the Steps of a Run
relate to its state, to its place in the sequence, to its isolations and to its
locks.  Each group of facts is preserved by every move, for its own reason, and the
proofs below are one lemma for each group with one case for each move.
-/

namespace Athena.Execution

open Athena.Lib Table Queries List StepState StepRow

/-! ## What a held, finished or swept Step keeps -/

/-- A Step that was held: it is where it was, or further in its active phases. -/
structure StepRow.Held (s s' : StepRow) : Prop where
  evolves : s.Evolves s'
  isolations : s'.isolations = s.isolations
  state : s'.state = s.state ∨ (s.state.active ∧ s'.state.mutating)
  journal : s.Journal → s'.Journal

variable {s s' : StepRow}

theorem StepRow.Hold.held {o : Event} (h : Hold o s s') : s.Held s' := by
  refine ⟨h.evolves, ?_, ?_, h.journal⟩
  · cases h with
    | prepare | dispatch | resolve => simp
    | _ => rfl
  · cases h with
    | claim | reconcile => exact .inl rfl
    | prepare | dispatch | resolve => exact .inl (by simp)
    | opening code h | opened a q d st ord h | respond a b t q d st ord h | signing h
    | signed _ h => exact .inr ⟨by rw [h]; rfl, rfl⟩
    | observe _ _ h hnext =>
      rcases hnext with hnext | ⟨hnext, hwas⟩
      · rcases (transitionAllowed_spec h.allowed).2 with ⟨-, hm⟩ | hn | hn
        · exact .inr ⟨h.state ▸ active_of_mutating hm, by simp [observed, hnext, mutating]⟩
        · simp [hnext] at hn
        · simp [hnext, terminal] at hn
      · exact .inl (by simp [observed, hnext, h.state, hwas])

theorem StepRow.Finish.isolations {o : Event} (h : Finish o s s') :
    s'.isolations = s.isolations := by cases h <;> rfl

theorem StepRow.Ended.terminal (h : Ended s s') : s'.state.terminal := by
  obtain ⟨e, code, now, rfl⟩ := h.row
  cases e <;> rfl

theorem StepRow.Ended.isolations (h : Ended s s') : s'.isolations = s.isolations := by
  obtain ⟨e, code, now, rfl⟩ := h.row
  rfl

theorem StepRow.Hold.recorded {o : Observation} (h : Hold (.observe o) s s') :
    s.Observes o ∧ s'.ordinal = s.ordinal ∧ s'.state = o.nextState ∧
      s'.completion = o.completion := by
  cases h with
  | observe _ _ h => exact ⟨h, rfl, rfl, rfl⟩

theorem StepRow.Finish.recorded {o : Observation} (h : Finish (.observe o) s s') :
    s.Observes o ∧ s'.ordinal = s.ordinal ∧ s'.state = o.nextState ∧
      s'.completion = o.completion := by
  cases h with
  | observe _ _ h => exact ⟨h, rfl, rfl, rfl⟩

theorem StepState.not_busy_of_terminal {s : StepState} (h : s.terminal) : s.busy = false := by
  cases s <;> simp_all [terminal, busy, active]

theorem StepState.busy_of_active {s : StepState} (h : s.active) : s.busy := by
  simp [busy, h]

theorem StepRow.Working.busy (h : s.Working) : s.state.busy := by
  rcases h with h | ⟨h, -⟩
  · exact busy_of_active h
  · rw [h]; rfl

theorem StepRow.Evolves.withIsolations (h : s.Evolves s') (l : List Isolation) :
    s.Evolves { s' with isolations := l } :=
  ⟨h.id, h.ordinal, h.walletOrdinal, h.itemOrdinal, h.sourceDisposition, h.attempt, h.pending,
    h.terminal, h.request⟩

theorem StepRow.Journal.withIsolations (h : s.Journal) (l : List Isolation) :
    ({ s with isolations := l } : StepRow).Journal :=
  ⟨h.early, h.unsigned, h.skipped, h.opened, h.openInFlight, h.finalizeInFlight, h.claimed,
    h.evidence⟩

theorem StepRow.Journal.claimed_fresh (h : s.Journal) (hp : s.state = .pending) (command : UUID)
    (c : Claim) : ({ s with
      state := .preflighting, activeCommand := some command, claim := some c } : StepRow).Journal :=
  h.ofEarly (.inl hp) rfl rfl rfl rfl rfl fun _ => rfl

theorem StepRow.evolves_fresh (hp : s.state = .pending) (command : UUID) (c : Claim) :
    s.Evolves { s with
      state := .preflighting, activeCommand := some command, claim := some c } := by
  refine .of_columns rfl rfl rfl rfl rfl rfl rfl nofun (by rw [hp]; rfl) ?_
  simp [hp, pastOpen]

theorem mem_of_sweep {s s' : Step} {t t' : Table fun s : Step => s.ordinal}
    (h : t.Rel (Step.Sweep s s') t') {v : Step} (hv : v ∈ t') :
    v = s' ∨ ∃ u ∈ t, u.ordinal ≠ s.ordinal ∧ (v = u ∨ u.toStepRow.Ended v.toStepRow) := by
  obtain ⟨u, hu, hsweep⟩ := h.exists_of_mem' hv
  cases hsweep with
  | self => exact .inl rfl
  | other hne => exact .inr ⟨v, hu, hne, .inl rfl⟩
  | ended hne e => exact .inr ⟨u, hu, hne, .inr e⟩

/-! ## The invariant -/

def StepRow.WalletMajor (itemCount : ℕ) (s : StepRow) : Prop :=
  0 < s.walletOrdinal ∧ 0 < s.itemOrdinal ∧ s.itemOrdinal ≤ itemCount ∧
    s.ordinal = (s.walletOrdinal - 1) * itemCount + s.itemOrdinal

namespace Run

structure Sequential (r : Run) : Prop where
  current : ∀ s ∈ r.steps, s.state.busy → r.currentStepOrdinal = some s.ordinal
  next : ∀ n, r.nextStepOrdinal = some n →
    (∀ s ∈ r.steps, s.state.busy = false) ∧ minPending r = some n

structure Stated (r : Run) : Prop where
  active : ∀ s ∈ r.steps, s.state.active → r.state = .running ∨ r.state = .pauseRequested ∨
    r.state = .terminateRequested ∨ r.state = .paused
  unknown : ∀ s ∈ r.steps, s.state = .outcomeUnknown →
    r.state = .reconciliationRequired ∨ r.state = .terminated
  terminated : r.state = .terminated → ∀ s ∈ r.steps, s.state ≠ .pending
  completed : r.state = .completed → ∀ s ∈ r.steps, s.state.terminal
  failed : r.state ≠ .failed

/-- A Step has an unresolved isolation exactly while its outcome is unknown. -/
structure Isolates (r : Run) (s : StepRow) : Prop where
  unknown : s.state = .outcomeUnknown → ∃ i, s.unresolvedIsolations = [i] ∧
    i.owner = r.owner ∧ r.pairOf s = some (i.walletId, i.market)
  clear : s.state ≠ .outcomeUnknown → s.unresolvedIsolations = []

structure Locks (r : Run) : Prop where
  held : r.state.terminal = false →
    (∀ w ∈ r.wallets, w.walletId ∈ r.walletLocks) ∧ r.combinationLock.isSome
  released : r.state.terminal → r.Released

structure Snapshot (r : Run) : Prop where
  wallets : (r.wallets.map fun w => w.ordinal).Nodup
  items : (r.items.map fun i => i.ordinal).Nodup
  linked : ∀ s ∈ r.steps, (r.pairOf s.toStepRow).isSome
  major : ∀ s ∈ r.steps, s.WalletMajor r.itemCount
  total : r.steps.rows.length = r.totalStepCount

structure Inv (r : Run) : Prop where
  journal : ∀ s ∈ r.steps, s.Journal
  sequential : r.Sequential
  stated : r.Stated
  isolates : ∀ s ∈ r.steps, r.Isolates s.toStepRow
  locks : r.Locks
  snapshot : r.Snapshot
  commands : ∀ s ∈ r.steps, s.Working → r.CommandOpen s.toStepRow

/-! ## Every move lets Steps evolve -/

section moves
variable {t : Tables} {o : Event} {r r' : Run}

def Grows (u v : Step) : Prop := u.Evolves v.toStepRow ∧ (u.Journal → v.Journal)

theorem grows_refl (u : Step) : Grows u u := ⟨.refl _, fun h => h⟩

theorem grows_of_left {u v : Step} (h : u.Left v) : Grows u v := by
  rcases h with rfl | h
  · exact grows_refl v
  · exact ⟨h.evolves, h.journal⟩

theorem grows_of_sweep {s s' u v : Step} (hs : Grows s s') (h : Step.Sweep s s' u v) :
    Grows u v := by
  cases h with
  | self => exact hs
  | other => exact grows_refl u
  | ended _ e => exact ⟨e.evolves, e.journal⟩

/-- What a move does to the Step that it is about. -/
inductive StepMove (t : Tables) (r : Run) (s s' : Step) : Event → Prop
  | claimed (command : UUID) (c : Claim) (pending : s.state = .pending)
      (isNext : r.nextStepOrdinal = some s.ordinal)
      (free : (r.pairOf s.toStepRow).any t.pairIsolated = false)
      (row : s'.toStepRow = { s.toStepRow with
        state := .preflighting, activeCommand := some command, claim := some c }) :
      StepMove t r s s' .starting
  | held {e : Event} (hold : StepRow.Hold e s.toStepRow s'.toStepRow)
      (fresh : ∀ k a, s.attempt k = none → s'.attempt k = some a → t.attemptTaken a.id = false) :
      StepMove t r s s' e
  | finished {e : Event} (active : s.state.active)
      (finish : StepRow.Finish e s.toStepRow s'.toStepRow)
      (fresh : ∀ e, s'.completion = some e → s.completion = some e ∨ t.completionTaken e = false) :
      StepMove t r s s' e
  | isolated (o : Observation) (now : Time) (i : Isolation) (active : s.state.active)
      (observes : s.Observes o) (unknown : o.nextState = .outcomeUnknown)
      (row : s'.toStepRow =
        { observed o now s.toStepRow with isolations := s.isolations ++ [i] })
      (unresolved : i.unresolved) (owner : i.owner = r.owner)
      (pair : r.pairOf s.toStepRow = some (i.walletId, i.market)) : StepMove t r s s' (.observe o)
  | reconciled (o : Observation) (now : Time) (id : UUID) (code : Code)
      (was : s.state = .outcomeUnknown) (observes : s.Observes o) (terminal : o.nextState.terminal)
      (row : s'.toStepRow = { observed o now s.toStepRow with
        isolations := s.isolations.map (resolvedIsolation id code now) })
      (named : s.isolations.any fun i => i.id = id && i.unresolved)
      (fresh : o.completion.any t.completionTaken = false) : StepMove t r s s' (.observe o)

theorem Move.sweeps (h : Move t o r r') : r.steps.Rel Step.Left r'.steps ∨
    ∃ s ∈ r.steps, ∃ s', StepMove t r s s' o ∧ r.steps.Rel (Step.Sweep s s') r'.steps := by
  cases h with
  | control _ steps => exact .inl (steps ▸ .refl fun _ _ => .inl rfl)
  | terminate _ _ _ _ _ steps => exact .inl steps
  | claim s s' command c mem pending _ isNext free row steps =>
    exact .inr ⟨s, mem, s', .claimed command c pending isNext free row,
      steps ▸ Store.rel_sweep_put mem (by rw [row])⟩
  | hold _ s s' mem hold steps _ _ _ _ fresh =>
    exact .inr ⟨s, mem, s', .held hold fresh, steps ▸ Store.rel_sweep_put mem hold.evolves.ordinal⟩
  | finish _ s s' mem active finished steps _ _ fresh =>
    exact .inr ⟨s, mem, s', .finished active finished fresh, steps⟩
  | isolate o now i s s' mem active observes unknown row unresolved owner pair _ steps =>
    exact .inr ⟨s, mem, s',
      .isolated o now i active observes unknown row unresolved owner pair, steps⟩
  | reconcile o now s s' id code mem was observes terminal row named steps _ _ fresh =>
    exact .inr ⟨s, mem, s', .reconciled o now id code was observes terminal row named fresh, steps⟩

/-- A Step after a move was left alone, ended with the others that wait, or is the one that the
move is about. -/
theorem Move.step_cases (h : Move t o r r') {v : Step} (hv : v ∈ r'.steps) :
    (∃ u ∈ r.steps, u.Left v) ∨ ∃ s ∈ r.steps, StepMove t r s v o := by
  obtain hleft | ⟨s, mem, s', hmoved, hsweep⟩ := h.sweeps
  · exact .inl (hleft.exists_of_mem' hv)
  · rcases mem_of_sweep hsweep hv with rfl | ⟨u, hu, -, hleft⟩
    · exact .inr ⟨s, mem, hmoved⟩
    · exact .inl ⟨u, hu, hleft⟩

theorem StepMove.grows {s s' : Step} (h : StepMove t r s s' o) : Grows s s' := by
  cases h with
  | claimed command c pending _ _ row =>
    refine ⟨?_, ?_⟩
    · rw [row]; exact evolves_fresh pending command c
    · rw [row]; exact fun hj => hj.claimed_fresh pending command c
  | held hold => exact ⟨hold.held.evolves, hold.held.journal⟩
  | finished _ finish => exact ⟨finish.evolves, finish.journal⟩
  | isolated o now i _ observes _ row | reconciled o now id code _ observes _ row =>
    refine ⟨?_, ?_⟩
    · rw [row]; exact (observes.evolves now).withIsolations _
    · rw [row]; exact fun hj => (observes.journal hj now).withIsolations _

theorem Move.grows (h : Move t o r r') : r.steps.Rel Grows r'.steps := by
  obtain hleft | ⟨s, -, s', hmoved, hsweep⟩ := h.sweeps
  · exact hleft.mono fun _ _ _ _ h => grows_of_left h
  · exact hsweep.mono fun _ _ _ _ h => grows_of_sweep hmoved.grows h

theorem mem_sweep_self {s s' : Step} (mem : s ∈ r.steps)
    (steps : r.steps.Rel (Step.Sweep s s') r'.steps) : s' ∈ r'.steps := by
  obtain ⟨v, hv, hsweep⟩ := steps.exists_of_mem mem
  cases hsweep with
  | self => exact hv
  | other hne => exact absurd rfl hne
  | ended hne => exact absurd rfl hne

theorem Move.recorded {ob : Observation} (h : Move t (.observe ob) r r') :
    ∃ s s' : Step, s ∈ r.steps ∧ s.Observes ob ∧ s'.ordinal = s.ordinal ∧
      s'.state = ob.nextState ∧ s'.completion = ob.completion ∧
      r.steps.Rel (Step.Sweep s s') r'.steps := by
  cases h with
  | control _ _ _ _ ofCommand => cases ofCommand
  | hold _ s s' mem held steps =>
    obtain ⟨obs, hord, hstate, hcompletion⟩ := held.recorded
    exact ⟨s, s', mem, obs, hord, hstate, hcompletion, steps ▸ Store.rel_sweep_put mem hord⟩
  | finish _ s s' mem _ finished steps =>
    obtain ⟨obs, hord, hstate, hcompletion⟩ := finished.recorded
    exact ⟨s, s', mem, obs, hord, hstate, hcompletion, steps⟩
  | isolate _ _ _ s s' mem _ obs _ row _ _ _ _ steps
  | reconcile _ _ s s' _ _ mem _ obs _ row _ steps =>
    exact ⟨s, s', mem, obs, by rw [row]; rfl, by rw [row]; rfl, by rw [row]; rfl, steps⟩

theorem Move.journal (h : Move t o r r') (hr : ∀ s ∈ r.steps, s.Journal) :
    ∀ s ∈ r'.steps, s.Journal := by
  intro s hs
  obtain ⟨u, hu, hgrows⟩ := h.grows.exists_of_mem' hs
  exact hgrows.2 (hr u hu)

theorem Move.frozen (h : Move t o r r') : r.Frozen t r' := by
  cases h with
  | control keeps => exact keeps.toFrozen
  | terminate frozen | claim _ _ _ _ _ _ _ _ _ _ _ frozen | finish _ _ _ _ _ _ _ frozen
  | isolate _ _ _ _ _ _ _ _ _ _ _ _ _ _ _ frozen | reconcile _ _ _ _ _ _ _ _ _ _ _ _ _ frozen =>
    exact frozen
  | hold _ _ _ _ _ _ keeps => exact keeps.toFrozen

theorem pairOf_of_frozen (h : r.Frozen t r') (s : StepRow) : r'.pairOf s = r.pairOf s := by
  simp only [pairOf, walletOf, itemOf, h.wallets, h.items]

theorem pairOf_of_evolves (h : s.Evolves s') : r.pairOf s' = r.pairOf s := by
  simp only [pairOf, walletOf, itemOf, h.walletOrdinal, h.itemOrdinal]

theorem Move.snapshot (h : Move t o r r') (hr : r.Snapshot) : r'.Snapshot where
  wallets := h.frozen.wallets ▸ hr.wallets
  items := h.frozen.items ▸ hr.items
  linked := by
    intro s hs
    obtain ⟨u, hu, hgrows⟩ := h.grows.exists_of_mem' hs
    rw [pairOf_of_frozen h.frozen, pairOf_of_evolves hgrows.1]
    exact hr.linked u hu
  major := by
    intro s hs
    obtain ⟨u, hu, hgrows⟩ := h.grows.exists_of_mem' hs
    obtain ⟨hw, hi, hle, hord⟩ := hr.major u hu
    have he := hgrows.1
    exact ⟨he.walletOrdinal ▸ hw, he.itemOrdinal ▸ hi,
      by rw [he.itemOrdinal, h.frozen.itemCount]; exact hle,
      by rw [he.ordinal, he.walletOrdinal, he.itemOrdinal, h.frozen.itemCount]; exact hord⟩
  total := by
    rw [h.frozen.totalStepCount, ← hr.total]
    exact (List.Forall₂.length_eq h.grows).symm

/-! ## The sequence -/

theorem exists_of_minPending {n : ℕ} (h : minPending r = some n) :
    ∃ s ∈ r.steps, s.state = .pending ∧ s.ordinal = n := by
  have hmem := List.min?_mem h
  simp only [List.mem_map, List.mem_filter, decide_eq_true_eq] at hmem
  obtain ⟨s, ⟨hs, hp⟩, rfl⟩ := hmem
  exact ⟨s, hs, hp, rfl⟩

theorem minPending_le {n : ℕ} (h : minPending r = some n) {s : Step} (hs : s ∈ r.steps)
    (hp : s.state = .pending) : n ≤ s.ordinal := by
  obtain ⟨-, hle⟩ := List.min?_eq_some_iff.mp h
  exact hle _ (List.mem_map.mpr ⟨s, List.mem_filter.mpr ⟨hs, by simpa using hp⟩, rfl⟩)

theorem minPending_congr (h : r.steps.Rel (fun u v : Step => v.ordinal = u.ordinal ∧
    (v.state = .pending ↔ u.state = .pending)) r'.steps) : minPending r' = minPending r := by
  unfold minPending
  congr 1
  unfold Table.Rel at h
  generalize r.steps.rows = l at h ⊢
  generalize r'.steps.rows = l' at h ⊢
  induction h with
  | nil => rfl
  | @cons u v _ _ huv _ ih =>
    by_cases hp : u.state = .pending
    · simp [hp, huv.2.mpr hp, huv.1, ih]
    · simp [hp, mt huv.2.mp hp, ih]

theorem Sequential.ordinal_eq (hr : r.Sequential) {s u : Step} (hs : s ∈ r.steps) (hu : u ∈ r.steps)
    (hsb : s.state.busy) (hub : u.state.busy) : s.ordinal = u.ordinal :=
  Option.some.inj ((hr.current s hs hsb).symm.trans (hr.current u hu hub))

theorem Sequential.eq_of_sweep (hr : r.Sequential) {s s' : Step} (mem : s ∈ r.steps)
    (hbusy : s.state.busy) (steps : r.steps.Rel (Step.Sweep s s') r'.steps) {v : Step}
    (hv : v ∈ r'.steps) (hvb : v.state.busy) : v = s' := by
  rcases mem_of_sweep steps hv with h | ⟨u, hu, hne, rfl | hend⟩
  · exact h
  · exact absurd (hr.ordinal_eq hu mem hvb hbusy) hne
  · simp [not_busy_of_terminal hend.terminal] at hvb

theorem not_busy_of_finished (hr : r.Sequential) {s s' : Step} (mem : s ∈ r.steps)
    (hbusy : s.state.busy) (steps : r.steps.Rel (Step.Sweep s s') r'.steps)
    (hterm : s'.state.terminal) : ∀ v ∈ r'.steps, v.state.busy = false := by
  intro v hv
  by_contra hvb
  have hvb : v.state.busy := by simpa using hvb
  have := hr.eq_of_sweep mem hbusy steps hv hvb
  simp [this, not_busy_of_terminal hterm] at hvb

theorem sequential_of_refreshed (hnone : ∀ v ∈ r.steps, v.state.busy = false)
    (hnext : r.nextStepOrdinal = minPending r ∨ r.nextStepOrdinal = none) : r.Sequential where
  current := by
    intro s hs hb
    simp [hnone s hs] at hb
  next := by
    intro n hn
    rcases hnext with h | h
    · exact ⟨hnone, h ▸ hn⟩
    · simp [h] at hn

theorem Settled.next (h : r.Settled r') :
    r'.nextStepOrdinal = minPending r' ∨ r'.nextStepOrdinal = none := by
  cases h with
  | paused _ _ hr | terminated _ _ hr | continued _ _ hr => exact .inl hr.next
  | completed _ _ _ hn => exact .inr hn

theorem Resolved.next (h : r.Resolved r') :
    r'.nextStepOrdinal = minPending r' ∨ r'.nextStepOrdinal = none := by
  cases h with
  | terminated _ _ hr | paused _ _ hr => exact .inl hr.next
  | completed _ _ _ hn => exact .inr hn

theorem Move.sequential (h : Move t o r r') (hr : r.Sequential) : r'.Sequential := by
  cases h with
  | control keeps steps =>
    constructor
    · intro s hs hb
      rw [keeps.current]
      exact hr.current s (steps ▸ hs) hb
    · intro n hn
      have hmin : minPending r' = minPending r := by simp only [minPending, steps]
      rw [steps, hmin]
      exact hr.next n (keeps.next ▸ hn)
  | terminate _ _ _ _ current steps swept refreshed =>
    constructor
    · intro v hv hb
      obtain ⟨u, hu, rfl | hend⟩ := steps.exists_of_mem' hv
      · rw [current]; exact hr.current v hu hb
      · simp [not_busy_of_terminal hend.terminal] at hb
    · intro n hn
      obtain ⟨s, hs, hp, -⟩ := exists_of_minPending (refreshed.next ▸ hn)
      exact absurd hp (swept s hs)
  | claim _ _ _ _ _ _ _ isNext _ row steps _ current next =>
    constructor
    · intro v hv hb
      rw [steps] at hv
      rcases eq_or_mem_of_mem_put hv with rfl | ⟨hv, -⟩
      · rw [current, row]
      · simp [(hr.next _ isNext).1 v hv] at hb
    · intro n hn
      simp [next] at hn
  | hold _ s s' mem hold steps keeps =>
    have held := hold.held
    have hbusy : s'.state.busy → s.state.busy := by
      intro hb
      rcases held.state with h | ⟨h, -⟩
      · exact h ▸ hb
      · exact busy_of_active h
    constructor
    · intro v hv hb
      rw [keeps.current]
      rw [steps] at hv
      rcases eq_or_mem_of_mem_put hv with rfl | ⟨hv, -⟩
      · rw [held.evolves.ordinal]; exact hr.current s mem (hbusy hb)
      · exact hr.current v hv hb
    · intro n hn
      obtain ⟨hnone, hmin⟩ := hr.next n (keeps.next ▸ hn)
      refine ⟨?_, ?_⟩
      · intro v hv
        rw [steps] at hv
        rcases eq_or_mem_of_mem_put hv with rfl | ⟨hv, -⟩
        · have := hnone s mem
          cases hb : v.state.busy
          · rfl
          · simp [hbusy hb] at this
        · exact hnone v hv
      · rw [← hmin]
        refine minPending_congr ?_
        rw [steps]
        refine rel_put mem held.evolves.ordinal ⟨held.evolves.ordinal, held.evolves.pending, ?_⟩
          fun _ _ _ => ⟨rfl, Iff.rfl⟩
        intro hp
        rcases held.state with h | ⟨h, -⟩
        · exact h.trans hp
        · simp [hp, active] at h
  | finish _ _ _ mem active finished steps _ settled =>
    exact sequential_of_refreshed (not_busy_of_finished hr mem (busy_of_active active)
      steps (Store.terminal_of_finish finished)) settled.next
  | isolate _ _ _ s s' mem active _ _ row _ _ _ _ steps _ current blocked =>
    have hbusy := busy_of_active active
    have hord : s'.ordinal = s.ordinal := by rw [row]; rfl
    constructor
    · intro v hv hb
      rw [hr.eq_of_sweep mem hbusy steps hv hb, current, hord]
      exact hr.current s mem hbusy
    · intro n hn
      cases blocked with
      | reconciliation _ _ next =>
        have := (hr.next n (next ▸ hn)).1 s mem
        simp [hbusy] at this
      | terminated _ _ refreshed swept =>
        obtain ⟨u, hu, hp, -⟩ := exists_of_minPending (refreshed.next ▸ hn)
        exact absurd hp (swept u hu)
  | reconcile _ _ _ _ _ _ mem was _ terminal row _ steps _ done =>
    refine sequential_of_refreshed (not_busy_of_finished hr mem ?_ steps ?_) done.next
    · rw [was]; rfl
    · rw [row]; exact terminal

/-! ## States -/

theorem all_terminal_of_counts (hcounts : r.counts = r.stepCounts)
    (hall : r.counts.terminal = r.totalStepCount)
    (htotal : r.steps.rows.length = r.totalStepCount) :
    ∀ s ∈ r.steps, s.state.terminal := by
  rw [hcounts, ← htotal] at hall
  exact countP_eq_length.mp hall

theorem Stated.started (hr : r.Stated) {s : Step} (hs : s ∈ r.steps) (ha : s.state.active) :
    r.startedAt ≠ none := by
  intro hnone
  have hlife := r.checked.lifecycle
  rw [hnone] at hlife
  rcases hr.active s hs ha with h | h | h | h <;> simp [h, RunState.lifecycle] at hlife

theorem hasActiveStep_of_mem {s : Step} (hs : s ∈ r.steps) (ha : s.state.active) :
    r.hasActiveStep := any_eq_true.mpr ⟨s, hs, ha⟩

theorem stated_of_control {state : RunState} (hc : r.Control state) (hr : r.Stated) :
    (∀ s ∈ r.steps, s.state.active → state = .running ∨ state = .pauseRequested ∨
        state = .terminateRequested ∨ state = .paused) ∧
      (∀ s ∈ r.steps, s.state = .outcomeUnknown →
        state = .reconciliationRequired ∨ state = .terminated) ∧
      (state = r.state ∨ state.terminal = false) := by
  have noActive {p : Prop} (h : r.state = .awaitingAuthorization ∨ r.state = .authorized ∨
      r.hasActiveStep = false) : ∀ s ∈ r.steps, s.state.active → p := by
    intro s hs ha
    have hact := hr.active s hs ha
    rcases h with h | h | h
    · simp [h] at hact
    · simp [h] at hact
    · simp [hasActiveStep_of_mem hs ha] at h
  have noUnknown {p : Prop} (h : r.state ≠ .reconciliationRequired ∧ r.state ≠ .terminated) :
      ∀ s ∈ r.steps, s.state = .outcomeUnknown → p := by
    intro s hs hu
    rcases hr.unknown s hs hu with h' | h'
    · exact absurd h' h.1
    · exact absurd h' h.2
  cases hc with
  | same => exact ⟨hr.active, hr.unknown, .inl rfl⟩
  | authorize h => exact ⟨noActive (.inl h), noUnknown (by simp [h]), .inr rfl⟩
  | start h => exact ⟨noActive (.inr (.inl h)), noUnknown (by simp [h]), .inr rfl⟩
  | resume h => exact ⟨fun _ _ _ => .inl rfl, noUnknown (by simp [h]), .inr rfl⟩
  | pause h idle =>
    refine ⟨noActive (.inr (.inr idle)), noUnknown ?_, .inr rfl⟩
    rcases h with h | h <;> simp [h]
  | awaitPause h =>
    refine ⟨fun _ _ _ => .inr (.inl rfl), noUnknown ?_, .inr rfl⟩
    rcases h with h | h <;> simp [h]
  | failurePause h =>
    exact ⟨fun _ _ _ => .inr (.inr (.inr rfl)), noUnknown (by simp [h]), .inr rfl⟩
  | awaitTermination h busy =>
    refine ⟨fun _ _ _ => .inr (.inr (.inl rfl)), noUnknown ?_, .inr rfl⟩
    -- an active Step excludes the states in which an outcome can be unknown
    obtain ⟨u, hu, ha⟩ := any_eq_true.mp busy
    rcases hr.active u hu ha with h | h | h | h <;> simp [h]

theorem stated_of_idle (idle : ∀ s ∈ r.steps, s.state.busy = false)
    (terminated : r.state = .terminated → ∀ s ∈ r.steps, s.state ≠ .pending)
    (completed : r.state = .completed → ∀ s ∈ r.steps, s.state.terminal)
    (failed : r.state ≠ .failed) : r.Stated where
  active := by
    intro s hs ha
    exact absurd (busy_of_active ha) (by simp [idle s hs])
  unknown := by
    intro s hs hu
    have := idle s hs
    simp [hu, busy] at this
  terminated := terminated
  completed := completed
  failed := failed

theorem Move.stated (h : Move t o r r') (hseq : r.Sequential) (hsnap : r.Snapshot)
    (hr : r.Stated) : r'.Stated := by
  have htotal := (h.snapshot hsnap).total
  cases h with
  | control _ steps _ state =>
    obtain ⟨ha, hu, hstate⟩ := stated_of_control state hr
    rw [← steps] at ha hu
    refine ⟨ha, hu, ?_, ?_, ?_⟩
    · intro hterm
      rcases hstate with h | h
      · rw [steps]; exact hr.terminated (h ▸ hterm)
      · simp [hterm, RunState.terminal] at h
    · intro hcomp
      rcases hstate with h | h
      · rw [steps]; exact hr.completed (h ▸ hcomp)
      · simp [hcomp, RunState.terminal] at h
    · intro hfail
      rcases hstate with h | h
      · exact hr.failed (h ▸ hfail)
      · simp [hfail, RunState.terminal] at h
  | terminate _ _ idle state _ steps swept =>
    refine ⟨?_, fun _ _ _ => .inr state, fun _ => swept, ?_, ?_⟩
    · intro v hv ha
      obtain ⟨u, hu, rfl | hend⟩ := steps.exists_of_mem' hv
      · rcases idle with h | h
        · exact absurd h (hr.started hu ha)
        · simp [hasActiveStep_of_mem hu ha] at h
      · exact absurd (StepState.busy_of_active ha)
          (by simp [StepState.not_busy_of_terminal hend.terminal])
    · simp [state]
    · simp [state]
  | claim _ _ _ _ _ _ running isNext _ row steps _ _ _ state =>
    refine ⟨fun _ _ _ => .inl (state.trans running), ?_, ?_, ?_, ?_⟩
    · intro v hv hu
      rw [steps] at hv
      rcases eq_or_mem_of_mem_put hv with rfl | ⟨hv, -⟩
      · simp [row] at hu
      · have := (hseq.next _ isNext).1 v hv
        simp [hu, StepState.busy] at this
    · simp [state, running]
    · simp [state, running]
    · simp [state, running]
  | hold _ s s' mem hold steps _ state =>
    have held := hold.held
    have cases_of {v : Step} (hv : v ∈ r'.steps) : v = s' ∨ v ∈ r.steps := by
      rw [steps] at hv
      exact (eq_or_mem_of_mem_put hv).imp_right And.left
    refine ⟨?_, ?_, ?_, ?_, ?_⟩
    · intro v hv ha
      rw [state]
      rcases cases_of hv with rfl | hv
      · rcases held.state with h | ⟨h, -⟩
        · exact hr.active s mem (h ▸ ha)
        · exact hr.active s mem h
      · exact hr.active v hv ha
    · intro v hv hu
      rw [state]
      rcases cases_of hv with rfl | hv
      · rcases held.state with h | ⟨-, h⟩
        · exact hr.unknown s mem (h ▸ hu)
        · simp [hu, StepState.mutating] at h
      · exact hr.unknown v hv hu
    · intro hterm v hv
      rcases cases_of hv with rfl | hv
      · exact fun hp => hr.terminated (state ▸ hterm) s mem (held.evolves.pending hp)
      · exact hr.terminated (state ▸ hterm) v hv
    · intro hcomp v hv
      rcases cases_of hv with rfl | hv
      · have hs := hr.completed (state ▸ hcomp) s mem
        rw [(held.evolves.terminal hs).1]
        exact hs
      · exact hr.completed (state ▸ hcomp) v hv
    · exact state ▸ hr.failed
  | finish _ s _ mem active finished steps _ settled =>
    have idle := not_busy_of_finished hseq mem (StepState.busy_of_active active) steps
      (Store.terminal_of_finish finished)
    have hact := hr.active s mem active
    refine stated_of_idle idle ?_ ?_ ?_
    · intro hterm
      cases settled with
      | paused _ h' | completed _ h' => simp [h'] at hterm
      | terminated _ _ _ swept => exact swept
      | continued _ h' => simp [← h', hterm] at hact
    · intro hcomp
      cases settled with
      | paused _ h' | terminated _ h' => simp [h'] at hcomp
      | completed _ _ counts _ all => exact all_terminal_of_counts counts all htotal
      | continued _ h' => simp [← h', hcomp] at hact
    · cases settled with
      | paused _ h' | terminated _ h' | completed _ h' => simp [h']
      | continued _ h' => exact h' ▸ hr.failed
  | isolate _ _ _ _ s' mem active _ unknown row _ _ _ _ steps _ _ blocked =>
    have hunknown : s'.state = .outcomeUnknown := by rw [row]; exact unknown
    refine ⟨?_, ?_, ?_, ?_, ?_⟩
    · intro v hv ha
      rw [hseq.eq_of_sweep mem (StepState.busy_of_active active) steps hv
        (StepState.busy_of_active ha)] at ha
      simp [hunknown, StepState.active] at ha
    · intro _ _ _
      cases blocked with
      | reconciliation _ h' => exact .inl h'
      | terminated _ h' => exact .inr h'
    · intro hterm
      cases blocked with
      | reconciliation _ h' => simp [h'] at hterm
      | terminated _ _ _ swept => exact swept
    · cases blocked with
      | reconciliation _ h' | terminated _ h' => simp [h']
    · cases blocked with
      | reconciliation _ h' | terminated _ h' => simp [h']
  | reconcile _ _ _ s' _ _ mem was _ terminal row _ steps _ done =>
    have hend : s'.state.terminal := by rw [row]; exact terminal
    refine stated_of_idle (not_busy_of_finished hseq mem (by rw [was]; rfl) steps hend) ?_ ?_ ?_
    · intro hterm v hv hp
      cases done with
      | completed _ h' | paused _ h' => simp [h'] at hterm
      | terminated h =>
        rcases mem_of_sweep steps hv with rfl | ⟨u, hu, -, rfl | e⟩
        · simp [hp, StepState.terminal] at hend
        · exact hr.terminated h v hu hp
        · simpa [hp, StepState.terminal] using e.terminal
    · intro hcomp
      cases done with
      | terminated _ h' | paused _ h' => simp [h'] at hcomp
      | completed _ _ counts _ all => exact all_terminal_of_counts counts all htotal
    · cases done with
      | terminated _ h' | completed _ h' | paused _ h' => simp [h']

/-! ## Isolations -/

/-- A Step that keeps its isolations keeps their account when it neither enters nor
leaves the unknown outcome. -/
theorem Isolates.congr (h : r.Isolates s) (frozen : r.Frozen t r') (evolves : s.Evolves s')
    (same : s'.isolations = s.isolations)
    (state : s'.state = .outcomeUnknown ↔ s.state = .outcomeUnknown) : r'.Isolates s' := by
  have hlist : s'.unresolvedIsolations = s.unresolvedIsolations := by
    simp only [unresolvedIsolations, same]
  constructor
  · intro hu
    rw [hlist, frozen.owner, pairOf_of_frozen frozen, pairOf_of_evolves evolves]
    exact h.unknown (state.mp hu)
  · intro hu
    rw [hlist]
    exact h.clear (mt state.mpr hu)

theorem Isolates.of_left {s s' : Step} (h : r.Isolates s.toStepRow) (frozen : r.Frozen t r')
    (left : s.Left s') : r'.Isolates s'.toStepRow := by
  rcases left with rfl | e
  · exact h.congr frozen (.refl _) rfl Iff.rfl
  · refine h.congr frozen e.evolves e.isolations ?_
    have := e.terminal
    simp only [e.pending, reduceCtorEq, iff_false]
    rintro hu
    simp [hu, terminal] at this

theorem unresolved_resolved {l : List Isolation} {i : Isolation} {id : UUID} {now : Time}
    {code : Code} (hone : l.filter (·.unresolved) = [i])
    (hnamed : l.any fun i => i.id = id && i.unresolved) :
    (l.map (resolvedIsolation id code now)).filter (·.unresolved) = [] := by
  have only {j : Isolation} (hj : j ∈ l) (hu : j.unresolved) : j = i := by
    have : j ∈ l.filter (·.unresolved) := mem_filter.mpr ⟨hj, hu⟩
    simpa [hone] using this
  obtain ⟨j, hj, hid⟩ := any_eq_true.mp hnamed
  simp only [check_iff] at hid
  obtain rfl := only hj hid.2
  refine filter_eq_nil_iff.mpr ?_
  simp only [mem_map]
  rintro _ ⟨k, hk, rfl⟩
  by_cases hu : k.unresolved
  · obtain rfl := only hk hu
    rw [resolvedIsolation, if_pos (by simp [hid])]
    simp [Isolation.unresolved]
  · simp [resolvedIsolation, hu]

theorem Move.isolates (h : Move t o r r') (hr : ∀ s ∈ r.steps, r.Isolates s.toStepRow) :
    ∀ s ∈ r'.steps, r'.Isolates s.toStepRow := by
  intro v hv
  have frozen := h.frozen
  obtain ⟨u, hu, left⟩ | ⟨s, mem, hmoved⟩ := h.step_cases hv
  · exact (hr u hu).of_left frozen left
  have hs := hr s mem
  have hevolves := hmoved.grows.1
  cases hmoved with
  | claimed _ _ pending _ _ row =>
    refine hs.congr frozen hevolves (by rw [row]) ?_
    simp [pending, row]
  | held hold =>
    refine hs.congr frozen hevolves hold.held.isolations ?_
    rcases hold.held.state with h | ⟨ha, hm⟩
    · rw [h]
    · constructor <;> intro hu
      · simp [hu, StepState.mutating] at hm
      · simp [hu, StepState.active] at ha
  | finished active finish =>
    refine hs.congr frozen hevolves finish.isolations ?_
    have hterm := Store.terminal_of_finish finish
    constructor <;> intro hu
    · simp [hu, StepState.terminal] at hterm
    · simp [hu, StepState.active] at active
  | isolated _ _ i active _ unknown row unresolved owner pair =>
    have hclear : s.unresolvedIsolations = [] := by
      refine hs.clear fun hu => ?_
      simp [hu, StepState.active] at active
    refine ⟨fun _ => ⟨i, ?_, ?_, ?_⟩, fun hne => absurd (by rw [row]; exact unknown) hne⟩
    · simp only [unresolvedIsolations, row, filter_append] at hclear ⊢
      simp [hclear, unresolved]
    · rw [owner, frozen.owner]
    · rw [pairOf_of_frozen frozen, pairOf_of_evolves hevolves, pair]
  | reconciled _ _ _ _ was _ terminal row named =>
    obtain ⟨i, hone, -⟩ := hs.unknown was
    rw [row]
    refine ⟨fun hu => ?_, fun _ => unresolved_resolved hone named⟩
    simp only [observed] at hu
    simp [hu, StepState.terminal] at terminal

/-! ## Locks -/

theorem Locks.of_kept (h : r.Locks) (frozen : r.Frozen t r') (kept : r.LocksKept r')
    (hstate : r'.state.terminal = r.state.terminal) : r'.Locks := by
  constructor
  · rw [hstate, frozen.wallets, kept.1, kept.2]
    exact h.held
  · rw [hstate, Released, kept.1, kept.2]
    exact h.released

theorem Locks.of_released (h : r.Released) (hstate : r.state.terminal) : r.Locks :=
  ⟨by simp [hstate], fun _ => h⟩

theorem Control.terminal_eq {state : RunState} (h : r.Control state) :
    state.terminal = r.state.terminal := by
  cases h with
  | same => rfl
  | authorize h | start h | resume h | failurePause h => simp [h, RunState.terminal]
  | pause h | awaitPause h => rcases h with h | h <;> simp [h, RunState.terminal]
  | awaitTermination h => rw [h]; rfl

theorem Move.locks_cases (h : Move t o r r') :
    (r.LocksKept r' ∧ r'.state.terminal = r.state.terminal) ∨
      (r'.Released ∧ r'.state.terminal) := by
  cases h with
  | control keeps _ _ state => exact .inl ⟨keeps.locks, state.terminal_eq⟩
  | terminate _ _ _ state _ _ _ _ released => exact .inr ⟨released, by rw [state]; rfl⟩
  | claim _ _ _ _ _ _ _ _ _ _ _ _ _ _ state _ locks => exact .inl ⟨locks, by rw [state]⟩
  | hold _ _ _ _ _ _ keeps state => exact .inl ⟨keeps.locks, by rw [state]⟩
  | finish _ _ _ _ _ _ _ _ settled =>
    cases settled with
    | paused h h' _ locks => exact .inl ⟨locks, by rw [h, h']; rfl⟩
    | terminated _ h' _ _ released => exact .inr ⟨released, by rw [h']; rfl⟩
    | completed _ h' _ _ _ released => exact .inr ⟨released, by rw [h']; rfl⟩
    | continued _ h' _ locks => exact .inl ⟨locks, by rw [h']⟩
  | isolate _ _ _ _ _ _ _ _ _ _ _ _ _ _ _ _ _ blocked =>
    cases blocked with
    | reconciliation h h' _ _ locks =>
      refine .inl ⟨locks, ?_⟩
      rcases h with h | h <;> rw [h, h'] <;> rfl
    | terminated _ h' _ _ released => exact .inr ⟨released, by rw [h']; rfl⟩
  | reconcile _ _ _ _ _ _ _ _ _ _ _ _ _ _ done =>
    cases done with
    | terminated h h' _ locks => exact .inl ⟨locks, by rw [h, h']⟩
    | completed _ h' _ _ _ released => exact .inr ⟨released, by rw [h']; rfl⟩
    | paused h h' _ locks => exact .inl ⟨locks, by rw [h, h']; rfl⟩

theorem Move.locks (h : Move t o r r') (hr : r.Locks) : r'.Locks := by
  obtain ⟨kept, hstate⟩ | ⟨released, hstate⟩ := h.locks_cases
  · exact hr.of_kept h.frozen kept hstate
  · exact .of_released released hstate

/-! ## Commands -/

theorem CommandOpen.mono (h : r.CommandOpen s) (commands : ∀ c ∈ r.commands, c ∈ r'.commands) :
    r'.CommandOpen s := by
  obtain ⟨c, hc, hid, hstate⟩ := h
  exact ⟨c, commands c hc, hid, hstate⟩

theorem commandOpen_of_idle (idle : ∀ s ∈ r.steps, s.state.busy = false) :
    ∀ s ∈ r.steps, s.Working → r.CommandOpen s.toStepRow := by
  intro s hs hw
  exact absurd hw.busy (by simp [idle s hs])

theorem Move.commands (h : Move t o r r') (hseq : r.Sequential)
    (hr : ∀ s ∈ r.steps, s.Working → r.CommandOpen s.toStepRow) :
    ∀ s ∈ r'.steps, s.Working → r'.CommandOpen s.toStepRow := by
  cases h with
  | control _ steps commands =>
    intro v hv hw
    exact (hr v (steps ▸ hv) hw).mono commands
  | terminate _ _ _ _ _ steps _ _ _ commands =>
    intro v hv hw
    obtain ⟨u, hu, rfl | e⟩ := steps.exists_of_mem' hv
    · exact (hr v hu hw).mono commands
    · exact absurd hw.busy (by simp [StepState.not_busy_of_terminal e.terminal])
  | claim _ _ _ _ _ _ _ isNext _ _ steps _ _ _ _ _ _ commandOpen =>
    intro v hv hw
    rw [steps] at hv
    rcases eq_or_mem_of_mem_put hv with rfl | ⟨hv, -⟩
    · exact commandOpen
    · exact absurd hw.busy (by simp [(hseq.next _ isNext).1 v hv])
  | hold _ s _ mem hold steps _ _ commands others =>
    intro v hv hw
    rw [steps] at hv
    rcases eq_or_mem_of_mem_put hv with rfl | ⟨hv, hne⟩
    · exact commands (hr s mem) hw
    · rcases others with busy | others
      · have hord := hold.held.evolves.ordinal
        exact absurd ((hseq.ordinal_eq hv mem hw.busy busy).trans hord.symm) hne
      · exact (hr v hv hw).mono others
  | finish _ _ _ mem active finished steps =>
    exact commandOpen_of_idle (not_busy_of_finished hseq mem (StepState.busy_of_active active)
      steps (Store.terminal_of_finish finished))
  | isolate _ _ _ _ _ mem active _ unknown row _ _ _ _ steps =>
    -- the only Step in progress waits for a command to reconcile it
    intro v hv hw
    rw [hseq.eq_of_sweep mem (StepState.busy_of_active active) steps hv hw.busy, row] at hw
    simp [Working, observed, unknown, StepState.active] at hw
  | reconcile _ _ _ _ _ _ mem was _ terminal row _ steps =>
    exact commandOpen_of_idle (not_busy_of_finished hseq mem (by rw [was]; rfl) steps
      (by rw [row]; exact terminal))

theorem Move.inv (h : Move t o r r') (hr : r.Inv) : r'.Inv where
  journal := h.journal hr.journal
  sequential := h.sequential hr.sequential
  stated := h.stated hr.sequential hr.snapshot hr.stated
  isolates := h.isolates hr.isolates
  locks := h.locks hr.locks
  snapshot := h.snapshot hr.snapshot
  commands := h.commands hr.sequential hr.commands

end moves

end Run
end Athena.Execution
