import Athena.Execution.Reachable

/-!
# The order of the Steps

A Run executes the Steps of its plan one at a time, Wallet by Wallet.  The next
Step is named only while none is in progress, and it is the first of those that
were not started.  Since a Step that was started is never pending again, the
starts of a Run increase strictly along every sequence of transactions.
-/

namespace Athena.Execution

open Athena.Lib Table Queries StepState

namespace Run

variable {t : Tables} {o : Event} {r r' : Run}

/-- Only the claim of the next Step takes a Step from PENDING to PREFLIGHTING, and
it needs a pair that is free. -/
theorem Move.starts (h : Move t o r r') {s v : Step} (hs : s ∈ r.steps)
    (hpending : s.state = .pending) (hv : v ∈ r'.steps) (hord : v.ordinal = s.ordinal)
    (hstarted : v.state = .preflighting) : r.nextStepOrdinal = some s.ordinal ∧
      (r.pairOf s.toStepRow).any t.pairIsolated = false := by
  have hself {u : Step} (hu : u ∈ r.steps) (huv : v.ordinal = u.ordinal) : u = s :=
    eq_of_key_eq hu hs (huv.symm.trans hord)
  obtain ⟨u, hu, rfl | e⟩ | ⟨u, mem, hmoved⟩ := h.step_cases hv
  · simp [hself hu rfl, hpending] at hstarted
  · have := e.terminal
    simp [hstarted, StepState.terminal] at this
  obtain rfl := hself mem hmoved.grows.1.ordinal
  cases hmoved with
  | claimed _ _ _ isNext free => exact ⟨isNext, free⟩
  | held hold =>
    rcases hold.held.state with h | ⟨h, -⟩
    · simp [h, hpending] at hstarted
    · simp [hpending, StepState.active] at h
  | finished active | isolated _ _ _ active => simp [hpending, StepState.active] at active
  | reconciled _ _ _ _ was => simp [hpending] at was

end Run

namespace Store

def Starts (t t' : Tables) (run : UUID) (n : ℕ) : Prop :=
  Commits t t' ∧ t.stepState run n = some .pending ∧ t'.stepState run n = some .preflighting

variable {t t₁ t₂ t₃ : Tables} {run : UUID} {m n : ℕ}

theorem Starts.isNext (h : Starts t t₁ run n) : ∃ r ∈ t.runs, r.id = run ∧
    r.nextStepOrdinal = some n ∧ ∃ s ∈ r.steps, s.ordinal = n ∧
      (r.pairOf s.toStepRow).any t.pairIsolated = false := by
  obtain ⟨⟨op, now, a, hexec⟩, hbefore, hafter⟩ := h
  obtain ⟨r, hr, hid, s, hs, rfl, hpending⟩ := Tables.stepState_eq_some.mp hbefore
  obtain ⟨r', hr', hid', v, hv, hord, hstarted⟩ := Tables.stepState_eq_some.mp hafter
  refine ⟨r, hr, hid, ?_⟩
  have unchanged (h : r' ∈ t.runs) : False := by
    obtain rfl := eq_of_key_eq h hr (hid'.trans hid.symm)
    obtain rfl := eq_of_key_eq hv hs hord
    simp [hpending] at hstarted
  cases exec_change hexec with
  | same => exact (unchanged hr').elim
  | created _ _ insert =>
    rcases (Table.mem_insert? insert).mp hr' with h | rfl
    · exact (unchanged h).elim
    · exact absurd (hid.trans hid'.symm) ((insert?_eq_some insert).1 r hr)
  | moved _ _ mem _ move =>
    rcases eq_or_mem_of_mem_put hr' with rfl | ⟨h, -⟩
    · obtain rfl := eq_of_key_eq mem hr (move.frozen.id.symm.trans (hid'.trans hid.symm))
      obtain ⟨hnext, hfree⟩ := move.starts hs hpending hv hord hstarted
      exact ⟨hnext, s, hs, rfl, hfree⟩
    · exact (unchanged h).elim

theorem pending_of_later (h : t.Later t₁) {r r₁ : Run} (hr : r ∈ t.runs) (hr₁ : r₁ ∈ t₁.runs)
    (hid : r₁.id = r.id) {v : Step} (hv : v ∈ r₁.steps) (hpending : v.state = .pending) :
    ∃ u ∈ r.steps, u.ordinal = v.ordinal ∧ u.state = .pending := by
  obtain ⟨r', hr', hlater⟩ := h r hr
  obtain rfl := eq_of_key_eq hr' hr₁ (hlater.id.trans hid.symm)
  obtain ⟨u, hu, hgrows⟩ := hlater.steps.exists_of_mem' hv
  exact ⟨u, hu, hgrows.1.ordinal.symm, hgrows.1.pending hpending⟩

theorem Starts.lt (ht : t.Inv) (h₁ : Starts t t₁ run m) (h : Reaches t₁ t₂)
    (h₂ : Starts t₂ t₃ run n) : m < n := by
  obtain ⟨r, hr, hid, hnext, -⟩ := h₁.isNext
  obtain ⟨hcommit, -, hafter⟩ := h₁
  obtain ⟨r₁, hr₁, hid₁, u, hu, rfl, hstarted⟩ := Tables.stepState_eq_some.mp hafter
  obtain ⟨r₂, hr₂, hid₂, s, hs, rfl, hpending⟩ := Tables.stepState_eq_some.mp h₂.2.1
  obtain ⟨u₁, hu₁, hord₁, hpending₁⟩ :=
    pending_of_later h.later hr₁ hr₂ (hid₂.trans hid₁.symm) hs hpending
  obtain ⟨u₀, hu₀, hord₀, hpending₀⟩ :=
    pending_of_later hcommit.later hr hr₁ (hid₁.trans hid.symm) hu₁ hpending₁
  have hmin := ((ht.runs r hr).sequential.next _ hnext).2
  have hle := Run.minPending_le hmin hu₀ hpending₀
  rw [hord₀, hord₁] at hle
  refine lt_of_le_of_ne hle fun heq => ?_
  obtain rfl := eq_of_key_eq hu hu₁ (heq.trans hord₁.symm)
  simp [hpending₁] at hstarted

/-- In every reachable state at most one Step of a Run is in progress, a next Step
is named only while none is and is the first pending one, Steps start in strictly
increasing Wallet-major order, and what the plan skipped has no attempt. -/
theorem steps_in_order (ht : Reachable t) :
    (∀ r ∈ t.runs, ∀ s ∈ r.steps, ∀ u ∈ r.steps, s.state.active → u.state.active → s = u) ∧
    (∀ r ∈ t.runs, ∀ n, r.nextStepOrdinal = some n →
      (∀ s ∈ r.steps, s.state.active = false) ∧
        (∃ s ∈ r.steps, s.state = .pending ∧ s.ordinal = n) ∧
        ∀ s ∈ r.steps, s.state = .pending → n ≤ s.ordinal) ∧
    (∀ t₁ t₂ t₃ run m n, Starts t t₁ run m → Reaches t₁ t₂ → Starts t₂ t₃ run n → m < n) ∧
    (∀ r ∈ t.runs, ∀ s ∈ r.steps, s.WalletMajor r.itemCount) ∧
    (∀ r ∈ t.runs, ∀ s ∈ r.steps, s.sourceDisposition = .skipped →
      s.openAttempt = none ∧ s.finalizeAttempt = none) := by
  have hinv := ht.inv
  refine ⟨?_, ?_, ?_, ?_, ?_⟩
  · intro r hr s hs u hu hsa hua
    exact eq_of_key_eq hs hu ((hinv.runs r hr).sequential.ordinal_eq hs hu
      (busy_of_active hsa) (busy_of_active hua))
  · intro r hr n hn
    obtain ⟨idle, hmin⟩ := (hinv.runs r hr).sequential.next n hn
    refine ⟨?_, Run.exists_of_minPending hmin, fun s hs hp => Run.minPending_le hmin hs hp⟩
    intro s hs
    by_contra ha
    have := idle s hs
    simp [busy, ha] at this
  · exact fun t₁ t₂ t₃ run m n h₁ h h₂ => h₁.lt hinv h h₂
  · exact fun r hr => (hinv.runs r hr).snapshot.major
  · exact fun r hr s hs hskip => ((hinv.runs r hr).journal s hs).skipped hskip |>.2

end Store

def Sample.skip : Operation × Time :=
  (.preflight ⟨⟨1, 1⟩, 103, .command 103, .skipped, none, .timeout⟩, 5)

namespace Store

open Sample

/-- The two Steps of the sample Run start one after the other. -/
theorem steps_in_order_sample :
    Starts (after started) (attempt (after started) (claim 103 3 1, 4)) 1 1 ∧ 1 < 2 :=
  have first : Starts (after started)
      (attempt (after started) (claim 103 3 1, 4)) 1 1 :=
    ⟨commits_attempt (by decide), by decide, by decide⟩
  have second : Starts (after (started ++ [(claim 103 3 1, 4), skip]))
      (attempt (after (started ++ [(claim 103 3 1, 4), skip]))
        (claim 104 4 2, 6)) 1 2 :=
    ⟨commits_attempt (by decide), by decide, by decide⟩
  ⟨first, (steps_in_order (reachable_after started)).2.2.1 _ _ _ 1 1 2 first
    (reaches_foldl [skip] _) second⟩

end Store
end Athena.Execution
