import Athena.Execution.Ordering

/-!
# Isolated pairs

A Step whose outcome is unknown blocks its Wallet-market pair through one
unresolved isolation, from the observation that could not tell to the
reconciliation that could.  The isolation outlives its Run: termination leaves it,
and until it is resolved the pair can be executed neither by a new Run nor by a
Run that exists.
-/

namespace Athena.Execution

open Athena.Lib Table Queries List

namespace Run

variable {t : Tables} {o : Event} {r r' : Run}

theorem Move.isolated_of_terminated (h : Move t o r r') (hwas : r.state ≠ .terminated)
    (hnow : r'.state = .terminated) {s : Step} (hs : s ∈ r.steps) {i : Isolation}
    (hi : i ∈ s.isolations) : ∃ v ∈ r'.steps, v.ordinal = s.ordinal ∧ i ∈ v.isolations := by
  have left {u v : Step} (hv : v ∈ r'.steps) (hu : u = s) (h : u.Left v) :
      ∃ v ∈ r'.steps, v.ordinal = s.ordinal ∧ i ∈ v.isolations := by
    subst hu
    rcases h with rfl | e
    · exact ⟨v, hv, rfl, hi⟩
    · exact ⟨v, hv, e.evolves.ordinal, e.isolations ▸ hi⟩
  have sweep {u u' : Step} (hord : u'.ordinal = u.ordinal)
      (hkeep : i ∈ u.isolations → i ∈ u'.isolations)
      (steps : r.steps.Rel (Step.Sweep u u') r'.steps) :
      ∃ v ∈ r'.steps, v.ordinal = s.ordinal ∧ i ∈ v.isolations := by
    obtain ⟨v, hv, hsweep⟩ := steps.exists_of_mem hs
    cases hsweep with
    | self => exact ⟨_, hv, hord, hkeep hi⟩
    | other => exact left hv rfl (.inl rfl)
    | ended _ e => exact left hv rfl (.inr e)
  cases h with
  | control _ _ _ state =>
    rw [hnow] at state
    generalize hst : RunState.terminated = st at state
    cases state <;> simp_all
  | terminate _ _ _ _ _ steps =>
    obtain ⟨v, hv, h⟩ := steps.exists_of_mem hs
    exact left hv rfl h
  | claim _ _ _ _ _ _ running _ _ _ _ _ _ _ state => simp [state, running] at hnow
  | hold _ _ _ _ _ _ _ state => exact absurd (state ▸ hnow) hwas
  | finish _ _ _ _ _ finished steps =>
    exact sweep finished.evolves.ordinal (fun h => finished.isolations ▸ h) steps
  | isolate _ _ _ _ _ _ _ _ _ row _ _ _ _ steps =>
    refine sweep (by rw [row]; rfl) ?_ steps
    rw [row]
    exact fun h => mem_append_left _ h
  | reconcile _ _ _ _ _ _ _ _ _ _ _ _ _ _ done =>
    cases done with
    | terminated h => exact absurd h hwas
    | completed _ h' | paused _ h' => simp [h'] at hnow

theorem Inv.unknown_iff (hr : r.Inv) {s : Step} (hs : s ∈ r.steps) : s.state = .outcomeUnknown ↔
    ∃ i, s.unresolvedIsolations = [i] ∧ i.owner = r.owner ∧
      r.pairOf s.toStepRow = some (i.walletId, i.market) := by
  refine ⟨(hr.isolates s hs).unknown, ?_⟩
  rintro ⟨i, hone, -⟩
  by_contra hne
  simp [(hr.isolates s hs).clear hne] at hone

theorem Inv.unknown_of_unresolved (hr : r.Inv) {s : Step} (hs : s ∈ r.steps) {i : Isolation}
    (hi : i ∈ s.unresolvedIsolations) : s.state = .outcomeUnknown := by
  by_contra hne
  simp [(hr.isolates s hs).clear hne] at hi

end Run

namespace Store

variable {t t' : Tables}

theorem isolation_survives (ht : t.Inv) {op : Operation} {now : Time} {a : op.Reply}
    (h : exec op t now = .ok (t', a)) {r r' : Run} (hr : r ∈ t.runs) (hr' : r' ∈ t'.runs)
    (hid : r'.id = r.id) (hwas : r.state ≠ .terminated) (hnow : r'.state = .terminated) {s : Step}
    (hs : s ∈ r.steps) {i : Isolation} (hi : i ∈ s.unresolvedIsolations) :
    ∃ v ∈ r'.steps, v.ordinal = s.ordinal ∧ v.state = .outcomeUnknown ∧
      i ∈ v.unresolvedIsolations := by
  have hchange := exec_change h
  have hinv := hchange.inv ht
  have unchanged (h : r' ∈ t.runs) : False := by
    obtain rfl := eq_of_key_eq h hr hid
    exact hwas hnow
  obtain ⟨hmem, hun⟩ := mem_filter.mp hi
  have found : ∃ v ∈ r'.steps, v.ordinal = s.ordinal ∧ i ∈ v.isolations := by
    cases hchange with
    | same => exact (unchanged hr').elim
    | created _ _ insert =>
      rcases (Table.mem_insert? insert).mp hr' with h | rfl
      · exact (unchanged h).elim
      · exact absurd hid.symm ((insert?_eq_some insert).1 r hr)
    | moved _ _ mem _ move =>
      rcases eq_or_mem_of_mem_put hr' with rfl | ⟨h, -⟩
      · obtain rfl := eq_of_key_eq mem hr (move.frozen.id.symm.trans hid)
        exact move.isolated_of_terminated hwas hnow hs hmem
      · exact (unchanged h).elim
  obtain ⟨v, hv, hord, hiv⟩ := found
  have hun' : i ∈ v.unresolvedIsolations := mem_filter.mpr ⟨hiv, hun⟩
  exact ⟨v, hv, hord, (hinv.runs r' hr').unknown_of_unresolved hv hun', hun'⟩

theorem created_avoids_isolated {env : Admission} {req : CreateRequest} {runId : UUID}
    {stepId : ℕ → UUID} {now : Time} {r : Run}
    (h : exec (.create env req runId stepId) t now = .ok (t', r)) (hnew : r ∉ t.runs)
    {pair : ℕ × String} (hpair : t.pairIsolated pair) {s : Step} (hs : s ∈ r.steps)
    (hready : s.sourceDisposition = .ready) : r.pairOf s.toStepRow ≠ some pair := by
  obtain ⟨-, h⟩ := of_ensure h
  split at h
  · rename_i existing hfind
    simp only [committed] at h
    obtain ⟨-, -, rfl⟩ := h
    exact absurd (mem_of_find?_eq_some hfind) hnew
  · intro heq
    have := (admitExecutionRun_ok h).1.free s hs hready
    simp [heq, hpair] at this

/-- In every reachable state a Step is OUTCOME_UNKNOWN exactly when it has one
unresolved isolation, which carries the owner of its Run and its pair.  The isolation
survives the termination of the Run; while it is there no new Run executes the pair
and no Step of the pair starts; and the Run waits for a reconciliation or is
terminated. -/
theorem unknown_iff_isolated (ht : Reachable t) :
    (∀ r ∈ t.runs, ∀ s ∈ r.steps, s.state = .outcomeUnknown ↔
      ∃ i, s.unresolvedIsolations = [i] ∧ i.owner = r.owner ∧
        r.pairOf s.toStepRow = some (i.walletId, i.market)) ∧
    (∀ op now t' a, exec op t now = .ok (t', a) → ∀ r ∈ t.runs, ∀ r' ∈ t'.runs, r'.id = r.id →
      r.state ≠ .terminated → r'.state = .terminated → ∀ s ∈ r.steps,
        ∀ i ∈ s.unresolvedIsolations, ∃ v ∈ r'.steps, v.ordinal = s.ordinal ∧
          v.state = .outcomeUnknown ∧ i ∈ v.unresolvedIsolations) ∧
    (∀ r ∈ t.runs, ∀ s ∈ r.steps, ∀ i ∈ s.unresolvedIsolations,
      (∀ env req runId stepId now t' new,
        exec (.create env req runId stepId) t now = .ok (t', new) → new ∉ t.runs →
          ∀ v ∈ new.steps, v.sourceDisposition = .ready →
            new.pairOf v.toStepRow ≠ some (i.walletId, i.market)) ∧
      ∀ t' run n, Starts t t' run n → ∀ u ∈ t.runs, u.id = run → ∀ v ∈ u.steps, v.ordinal = n →
        u.pairOf v.toStepRow ≠ some (i.walletId, i.market)) ∧
    (∀ r ∈ t.runs, ∀ s ∈ r.steps, s.state = .outcomeUnknown →
      r.state = .reconciliationRequired ∨ r.state = .terminated) := by
  have hinv := ht.inv
  refine ⟨fun r hr s hs => (hinv.runs r hr).unknown_iff hs, ?_, ?_,
    fun r hr => (hinv.runs r hr).stated.unknown⟩
  · intro op now t' a h r hr r' hr' hid hwas hnow s hs i hi
    exact isolation_survives hinv h hr hr' hid hwas hnow hs hi
  · intro r hr s hs i hi
    obtain ⟨hmem, hun⟩ := mem_filter.mp hi
    have hpair : t.pairIsolated (i.walletId, i.market) :=
      Tables.pairIsolated_iff.mpr ⟨r, hr, s, hs, i, hmem, hun, rfl⟩
    refine ⟨?_, ?_⟩
    · intro env req runId stepId now t' new h hnew v hv hready
      exact created_avoids_isolated h hnew hpair hv hready
    · rintro t' run n hstarts u hu rfl v hv rfl heq
      obtain ⟨u', hu', hid, -, v', hv', hord, hfree⟩ := hstarts.isNext
      obtain rfl := eq_of_key_eq hu' hu hid
      obtain rfl := eq_of_key_eq hv' hv hord
      simp [heq, hpair] at hfree

end Store

namespace Sample

def abandoned : Tables :=
  Store.after (started ++ dispatched ++ unknown ++ [(.terminate (request 105 4), 11)])

/-- The sample plan, of which the first Step is skipped. -/
def skippingPlan : Plan :=
  { plan with
    id := 2, readyStepCount := 1, digest := 2
    steps := [⟨1, 1, 1, .skipped, .timeout⟩, ⟨2, 1, 2, .ready, .empty⟩]
    major := by decide
    ordered := by decide }

end Sample

namespace Store

open Sample

/-- The sample Run waits for a reconciliation, as its unknown Step requires. -/
theorem unknown_iff_isolated_sample :
    (after (started ++ dispatched ++ unknown)).stepState 1 1 = some .outcomeUnknown ∧
    ∀ r ∈ (after (started ++ dispatched ++ unknown)).runs, ∀ s ∈ r.steps,
      s.state = .outcomeUnknown → r.state = .reconciliationRequired ∨ r.state = .terminated :=
  ⟨by decide, (unknown_iff_isolated (reachable_after _)).2.2.2⟩

/-- A new Run may contain an isolated pair as a Step it will not execute. -/
theorem created_contains_isolated : Reachable abandoned ∧
    abandoned.pairIsolated (7, market) ∧
    ∃ t' new, exec (.create (admission skippingPlan) ⟨1, 2, 106, 1⟩ 2 fun n => 20 + n)
        abandoned 12 = .ok (t', new) ∧
      (∀ r ∈ abandoned.runs, r.id ≠ new.id) ∧
      ∃ v ∈ new.steps, new.pairOf v.toStepRow = some (7, market) := by
  refine ⟨reachable_after _, by decide, ?_⟩
  obtain ⟨⟨t', new⟩, hexec, hcheck⟩ := exists_of_commitsWith (p := fun result =>
    (abandoned.runs.rows.all fun r => r.id ≠ result.2.id) &&
      result.2.steps.rows.any fun v => result.2.pairOf v.toStepRow = some (7, market))
    (by decide : commitsWith (exec (.create (admission skippingPlan) ⟨1, 2, 106, 1⟩ 2
      fun n => 20 + n) abandoned 12) _)
  simp only [check_iff, all_eq_true, any_eq_true] at hcheck
  exact ⟨t', new, hexec, hcheck⟩

end Store
end Athena.Execution
