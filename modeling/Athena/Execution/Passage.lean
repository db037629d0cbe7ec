import Athena.Execution.Reachable

/-!
# One Step through one transaction

What one transaction of the store can do to one Step, whichever Run and Step it is about.
The facts below say which transaction gave a Step what it has: an attempt appears
prepared and is dispatched from prepared, and a Step starts by a claim.
-/

namespace Athena.Execution

open Athena.Lib Table Queries Run

def Tables.step (t : Tables) (ref : StepRef) : Option Step :=
  (t.runs.get? ref.run).bind fun r => r.steps.get? ref.ordinal

inductive StepRow.Passes (e : Event) (s : StepRow) : StepRow → Prop
  | same : Passes e s s
  | ended {s' : StepRow} (h : s.Ended s') : Passes e s s'
  | claimed (command : UUID) (c : Claim) (event : e = .starting) (h : s.state = .pending) :
      Passes e s { s with state := .preflighting, activeCommand := some command, claim := some c }
  | held {s' : StepRow} (h : Hold e s s') : Passes e s s'
  | finished {s' : StepRow} (h : Finish e s s') : Passes e s s'
  | concluded (o : Observation) (now : Time) (l : List Isolation) (event : e = .observe o)
      (h : s.Observes o) : Passes e s { observed o now s with isolations := l }

namespace StepRow.Passes

variable {e : Event} {s s' : StepRow}

theorem evolves (h : s.Passes e s') : s.Evolves s' := by
  cases h with
  | same => exact .refl s
  | ended h | held h | finished h => exact h.evolves
  | claimed command c _ h => exact evolves_fresh h command c
  | concluded o now l _ h => exact (h.evolves now).withIsolations l

theorem attempt_of_set {k k₀ : MutationKind} {a b : Attempt}
    (h : (s.setAttempt k₀ a).attempt k = some b) : k = k₀ ∧ b = a ∨ s.attempt k = some b := by
  by_cases hk : k = k₀
  · subst hk
    rw [s.attempt_setAttempt_self k a] at h
    exact .inl ⟨rfl, (Option.some.inj h).symm⟩
  · rw [s.attempt_setAttempt_of_ne a hk] at h
    exact .inr h

theorem attempt (h : s.Passes e s') {k : MutationKind} {b : Attempt} (hb : s'.attempt k = some b) :
    s.attempt k = some b ∨ (s.attempt k = none ∧ b.status = .prepared ∧ (k = .finalize →
        b.positionRequestId ≠ 0 ∧ s.positionRequestId = b.positionRequestId)) ∨
      ∃ a, s.attempt k = some a ∧ a.Grows b ∧
        ((∃ t, a.status = .prepared ∧ b = { a with status := .dispatched t }) ∨
          ∃ t, a.status = .dispatched t) := by
  cases h with
  | same => exact .inl hb
  | ended h | finished h => exact .inl (h.attempt ▸ hb)
  | claimed | concluded => exact .inl (by cases k <;> exact hb)
  | held h =>
    cases h with
    | prepare k₀ a hk hs hnone hstatus hrequest =>
      rcases attempt_of_set hb with ⟨rfl, rfl⟩ | hb
      · exact .inr (.inl ⟨hnone, hstatus, hrequest⟩)
      · exact .inl hb
    | dispatch a now hs ha hstatus =>
      rcases attempt_of_set hb with ⟨rfl, rfl⟩ | hb
      · exact .inr (.inr ⟨a, ha, ⟨rfl, rfl, rfl, rfl, hstatus ▸ .prepared _, fun _ => rfl⟩,
          .inl ⟨now, hstatus, rfl⟩⟩)
      · exact .inl hb
    | resolve a c t ha hstatus hc =>
      rcases attempt_of_set hb with ⟨rfl, rfl⟩ | hb
      · exact .inr (.inr ⟨a, ha, hc, .inr ⟨t, hstatus⟩⟩)
      · exact .inl hb
    | respond a c t q d st ord hs ha hstatus hc =>
      cases k with
      | «open» =>
        cases hb
        exact .inr (.inr ⟨a, ha, hc, .inr ⟨t, hstatus⟩⟩)
      | finalize => exact .inl hb
    | claim | opening | opened | signing | signed | reconcile | observe =>
      exact .inl (by cases k <;> exact hb)

theorem not_pending {o : Observation} (h : s.Observes o) : s.state ≠ .pending := by
  intro hs
  have hallowed := h.allowed
  rw [← h.state, hs] at hallowed
  cases hallowed

theorem starting (h : s.Passes e s') (hs : s.state = .pending) (hs' : s'.state = .preflighting) :
    e = .starting := by
  cases h with
  | same => simp [hs] at hs'
  | ended h =>
    obtain ⟨p, code, now, rfl⟩ := h.row
    cases p <;> cases hs'
  | claimed _ _ event => exact event
  | held h =>
    cases h with
    | observe o now h => exact absurd hs (not_pending h)
    | _ => simp_all
  | finished h =>
    cases h with
    | preflight _ _ _ h => simp [hs] at h
    | observe o now h => exact absurd hs (not_pending h)
  | concluded _ _ _ _ h => exact absurd hs (not_pending h)

end StepRow.Passes

theorem Run.Move.passes {t : Tables} {e : Event} {r r' : Run} (h : r.Move t e r') {v : Step}
    (hv : v ∈ r'.steps) : ∃ u ∈ r.steps, u.Passes e v.toStepRow := by
  obtain ⟨u, hu, rfl | hend⟩ | ⟨s, mem, hmoved⟩ := h.step_cases hv
  · exact ⟨v, hu, .same⟩
  · exact ⟨u, hu, .ended hend⟩
  refine ⟨s, mem, ?_⟩
  cases hmoved with
  | claimed command c pending _ _ row => exact row ▸ .claimed command c rfl pending
  | held hold => exact .held hold
  | finished _ finish => exact .finished finish
  | isolated o now _ _ observes _ row | reconciled o now _ _ _ observes _ row =>
    exact row ▸ .concluded o now _ rfl observes

namespace Tables

variable {t t' : Tables} {op : Operation} {ref : StepRef}

theorem step_eq_some {s : Step} : t.step ref = some s ↔
    ∃ r ∈ t.runs, r.id = ref.run ∧ s ∈ r.steps ∧ s.ordinal = ref.ordinal := by
  simp only [step, Option.bind_eq_some_iff, get?_eq_some]
  constructor
  · rintro ⟨r, ⟨hr, hid⟩, hs⟩
    exact ⟨r, hr, hid, hs⟩
  · rintro ⟨r, hr, hid, hs⟩
    exact ⟨r, ⟨hr, hid⟩, hs⟩

/-- A Step after a transaction is new, or was passed on by it; the transaction is then
about the Run of the Step, if it names one and changed the Step. -/
theorem Change.step (h : t.Change op t') {s' : Step} (hs' : t'.step ref = some s') :
    (t.step ref = none ∧ s'.openAttempt = none ∧ s'.finalizeAttempt = none ∧
        s'.completion = none ∧ s'.positionRequestId = 0 ∧ s'.state.busy = false) ∨
      ∃ s, t.step ref = some s ∧ (s' = s ∨
        s.Passes op.event s'.toStepRow ∧ ∀ id, op.home = some id → ref.run = id) := by
  obtain ⟨r', hr', hid, hmem, hord⟩ := step_eq_some.mp hs'
  cases h with
  | same => exact .inr ⟨s', hs', .inl rfl⟩
  | created r new insert =>
    rcases (Table.mem_insert? insert).mp hr' with hr | rfl
    · exact .inr ⟨s', step_eq_some.mpr ⟨r', hr, hid, hmem, hord⟩, .inl rfl⟩
    · have hnone : t.runs.get? ref.run = none :=
        get?_eq_none.mpr fun u hu =>
          (insert?_eq_some insert).1 u hu ∘ fun h => h.trans hid.symm
      obtain ⟨ho, hf, -, hc, hq, hb⟩ := new.fresh s' hmem
      exact .inl ⟨by simp [Tables.step, hnone], ho, hf, hc, hq, hb⟩
  | moved r _ mem home move =>
    rcases eq_or_mem_of_mem_put hr' with rfl | ⟨hr, -⟩
    · obtain ⟨u, hu, hp⟩ := move.passes hmem
      have hrid : r.id = ref.run := move.frozen.id.symm.trans hid
      exact .inr ⟨u, step_eq_some.mpr ⟨r, mem, hrid, hu, hp.evolves.ordinal.symm.trans hord⟩,
        .inr ⟨hp, fun id hhome => hrid.symm.trans (home id hhome)⟩⟩
    · exact .inr ⟨s', step_eq_some.mpr ⟨r', hr, hid, hmem, hord⟩, .inl rfl⟩

end Tables
end Athena.Execution
