import Athena.Execution.Transactions

/-!
# Transactions of a worker are moves

The methods a worker calls, each as one move of the Run it addresses.
-/

namespace Athena.Execution

open Athena.Lib Table Queries StepRow Step Run

variable {a : Step} {o : Event}

namespace Store

variable {t : Tables} {r r' : Run} {now : Time}

/-! ## Steps that stay unfinished -/

theorem move_putStep {s s' : Step} {row : StepRow} (mem : s ∈ r.steps) (hrow : s'.toStepRow = row)
    (held : Hold o s.toStepRow row) (command : row.activeCommand = s.activeCommand)
    (working : row.Working → s.Working)
    (fresh : ∀ k a, s.attempt k = none → row.attempt k = some a → t.attemptTaken a.id = false) :
    Move t o r (r.putStep s') := by
  subst hrow
  refine .hold o s s' mem held rfl (.withSteps t r _) rfl ?_ (.inr fun _ hc => hc) fresh
  intro hopen hw
  obtain ⟨c, hc, hid, hstate, hkind, hordinal⟩ := hopen (working hw)
  exact ⟨c, hc, command.trans hid, hstate, hkind.trans held.commandKind.symm,
    hordinal.trans held.evolves.ordinal.symm⟩

theorem fresh_same {s s' : StepRow} (h : s'.attempt = s.attempt) :
    ∀ k a, s.attempt k = none → s'.attempt k = some a → t.attemptTaken a.id = false := by
  intro k a hnone hsome
  simp [h, hnone] at hsome

theorem fresh_setAttempt {s : StepRow} {a b : Attempt} {k : MutationKind}
    (ha : s.attempt k = some a) : ∀ k' c, s.attempt k' = none →
      (s.setAttempt k b).attempt k' = some c → t.attemptTaken c.id = false := by
  intro k' c hnone hsome
  have hne : k' ≠ k := by
    rintro rfl
    simp [ha] at hnone
  simp [s.attempt_setAttempt_of_ne b hne, hnone] at hsome

theorem working_of_active {s : StepRow} (h : s.state.active) : s.Working := .inl h

variable {ordinal : ℕ} {id command : UUID} {claimId : ClaimId} {code : Code}

theorem move_claimExecutionRunStepForRecovery {claim : Claim}
    (h : claimExecutionRunStepForRecovery r ordinal claim now = .ok (r', a)) :
    Move t .plain r r' := by
  simp only [claimExecutionRunStepForRecovery, committed, write_eq_ok] at h
  obtain ⟨s, hget, hrec, -, -, -, -, -, s', hrow, rfl, rfl⟩ := h
  exact move_putStep (mem_of_get? hget) hrow (.claim claim hrec) rfl (fun h => h) (fresh_same rfl)

theorem move_renewExecutionRunStepClaim {claim : Claim}
    (h : renewExecutionRunStepClaim r ordinal claim now = .ok (r', a)) :
    Move t .plain r r' := by
  simp only [renewExecutionRunStepClaim, committed, write_eq_ok] at h
  obtain ⟨s, hget, -, hrec, s', hrow, rfl, rfl⟩ := h
  exact move_putStep (mem_of_get? hget) hrow (.claim claim hrec) rfl (fun h => h) (fresh_same rfl)

theorem attempt_of_attemptById {s : Step} {a : Attempt}
    (h : attemptById s.toStepRow id = some a) : a.id = id ∧ s.attempt a.kind = some a := by
  have hk := s.checked.kinds
  simp only [attemptById, Option.or_eq_some_iff, Option.filter_eq_some_iff,
    decide_eq_true_eq] at h
  rcases h with ⟨ha, hid⟩ | ⟨-, ha, hid⟩
  · have hkind : a.kind = .open := by simpa [ha] using hk.1
    exact ⟨hid, by simpa [hkind, attempt] using ha⟩
  · have hkind : a.kind = .finalize := by simpa [ha] using hk.2
    exact ⟨hid, by simpa [hkind, attempt] using ha⟩

theorem move_createExecutionMutationAttempt {ordinal : ℕ} {id command : UUID}
    {claimId : ClaimId} {kind : MutationKind} {request : MutationRequest} {requestId : ℕ}
    {a : Attempt}
    (h : createExecutionMutationAttempt t.attemptTaken r ordinal id command claimId kind
      request requestId now = .ok (r', a)) : Move t .plain r r' := by
  simp only [createExecutionMutationAttempt, committed] at h
  obtain ⟨s, hget, c, -, k, -, -, hrequest, hstate, h⟩ := h
  cases hatt : s.attempt kind with
  | some =>
    simp only [hatt, committed] at h
    obtain ⟨-, rfl, -⟩ := h
    exact .refl rfl
  | none =>
    simp only [hatt, committed, write_eq_ok] at h
    obtain ⟨hfree, s', hrow, rfl, -⟩ := h
    refine move_putStep (mem_of_get? hget) hrow (.prepare kind _ rfl hstate hatt rfl hrequest)
      (by simp) (by simp [Working]) ?_
    intro k b hnone hsome
    by_cases hk : k = kind
    · subst hk
      rw [attempt_setAttempt_self] at hsome
      cases hsome
      exact hfree
    · rw [attempt_setAttempt_of_ne _ _ hk, hnone] at hsome
      cases hsome

theorem move_dispatchExecutionMutationAttempt {a : Attempt}
    (h : dispatchExecutionMutationAttempt r ordinal id claimId now = .ok (r', a)) :
    Move t .plain r r' := by
  simp only [dispatchExecutionMutationAttempt, committed, write_eq_ok] at h
  obtain ⟨s, hget, b, hb, ⟨hstatus, -⟩, -, hstate, s', hrow, rfl, -⟩ := h
  have hattempt := (attempt_of_attemptById hb).2
  exact move_putStep (mem_of_get? hget) hrow (.dispatch b now hstate hattempt hstatus)
    (by simp) (by simp [Working]) (fresh_setAttempt hattempt)

theorem completeExecutionMutationAttempt_ok {s : Step} {a : Attempt} {result : MutationResult}
    {requestId status : ℕ} {slug code : Code} {s' : Step} {b : Attempt}
    (h : completeExecutionMutationAttempt r s a result requestId status slug code now =
      .ok (r', s', b)) :
    ∃ t, a.status = .dispatched t ∧ a.Grows b ∧ b.status = .resolved result t now ∧
      s'.toStepRow = s.setAttempt a.kind b ∧ r' = r.putStep s' := by
  unfold completeExecutionMutationAttempt at h
  split at h
  · rename_i t hstatus
    simp only [committed, write_eq_ok] at h
    obtain ⟨-, -, -, s₁, hrow, rfl, rfl, rfl⟩ := h
    exact ⟨t, hstatus, ⟨rfl, rfl, rfl, rfl, hstatus ▸ .resolving _ _ _, fun ha => if_neg ha⟩, rfl,
      hrow, rfl⟩
  · simp at h

theorem move_applyResolve {req : ResolveRequest} {b : Attempt}
    (h : applyResolve req ordinal now r = .ok (r', b)) : Move t .plain r r' := by
  simp only [applyResolve, committed, Prod.exists] at h
  obtain ⟨s, hget, a, ha, hnot, r₁, s', b', hcomplete, rfl, rfl⟩ := h
  obtain ⟨_, hstatus, hgrows, hres, hrow, rfl⟩ := completeExecutionMutationAttempt_ok hcomplete
  have hattempt := (attempt_of_attemptById ha).2
  exact move_putStep (mem_of_get? hget) hrow (.resolve a b' _ hattempt hstatus hgrows
    (by simp [Attempt.isResolved, hres, AttemptStatus.result?])
    (fun hopen hsucceeded => hnot ⟨hopen, by simpa [hres, AttemptStatus.result?] using hsucceeded⟩))
    (by simp) (by simp [Working]) (fresh_setAttempt hattempt)

theorem ordinal_of_get? {s : Step} (h : r.steps.get? ordinal = some s) :
    s.ordinal = ordinal := (get?_eq_some.mp h).2

theorem get?_putStep {s s' u : Step} (mem : s ∈ r.steps) (hord : s'.ordinal = s.ordinal)
    (hs : s.ordinal = ordinal) (hget : (r.putStep s').steps.get? ordinal = some u) : u = s' := by
  have hself := get?_put_self mem hord.symm
  rw [hord, hs] at hself
  exact Option.mem_unique hget hself

theorem putStep_putStep {s s' : Step} (h : s.ordinal = s'.ordinal) :
    (r.putStep s).putStep s' = r.putStep s' := by
  simp only [putStep]
  rw [put_put]
  exact h

theorem recordExecutionRunStepOpened_ok {ordinal : ℕ} {claimId : ClaimId} {requestId : ℕ}
    {digest : Digest} {st order : Code} {s' : Step}
    (h : recordExecutionRunStepOpened r ordinal claimId requestId digest st order =
      .ok (r', s')) :
    ∃ s a, r.steps.get? ordinal = some s ∧ s.state = .opening ∧ s.openAttempt = some a ∧
      a.status.result? = some .succeeded ∧ a.positionRequestId = requestId ∧
      s'.toStepRow = { s.toStepRow with
        state := .opened, positionRequestId := requestId, transactionDigest := some digest
        providerState := st, providerOrderState := order } ∧ r' = r.putStep s' := by
  simp only [recordExecutionRunStepOpened, committed, write_eq_ok] at h
  obtain ⟨s, hget, ⟨hstate, -⟩, hattempt, s₁, hrow, -, rfl, rfl⟩ := h
  obtain ⟨a, ha, hres⟩ := (Option.any_eq_true _ _).mp hattempt
  simp only [check_iff] at hres
  exact ⟨s, a, hget, hstate, ha, hres.1, hres.2, hrow, rfl⟩

theorem move_applyOpened {req : OpenedRequest} (h : applyOpened req now r = .ok (r', a)) :
    Move t .plain r r' := by
  simp only [applyOpened, committed] at h
  obtain ⟨s, hget, b, hb, hkind, h⟩ := h
  split at h
  · simp only [committed] at h
    obtain ⟨-, rfl, -⟩ := h
    exact .refl rfl
  · simp only [committed, Prod.exists] at h
    obtain ⟨-, r₁, b₁, hresolve, -, hrecord⟩ := h
    obtain ⟨s₁, a₁, hget₁, hstate, ha₁, hres₁, hreq, hrow₁, rfl⟩ :=
      recordExecutionRunStepOpened_ok hrecord
    have hs := mem_of_get? hget
    have hactive : s₁.Working := working_of_active (by rw [hstate]; rfl)
    unfold resolveOpened at hresolve
    split at hresolve
    · -- the attempt was still in flight: it is resolved first
      simp only [committed, Prod.exists] at hresolve
      obtain ⟨_, s₂, _, hcomplete, rfl, rfl⟩ := hresolve
      obtain ⟨now', hstatus, hgrows, hres, hrow, rfl⟩ :=
        completeExecutionMutationAttempt_ok hcomplete
      have hord : s₂.ordinal = s.ordinal := by rw [hrow]; simp
      obtain rfl := get?_putStep hs hord (ordinal_of_get? hget) hget₁
      have hord₁ : s₁.ordinal = a.ordinal := by rw [hrow₁]
      rw [hkind] at hrow
      have hopen : s.openAttempt = some b := by
        have := (attempt_of_attemptById hb).2
        rwa [hkind] at this
      rw [hrow] at hstate ha₁ hrow₁
      cases ha₁
      rw [putStep_putStep hord₁]
      refine move_putStep hs hrow₁
        (.respond b a₁ now' _ _ _ _ hstate hopen hstatus hgrows hres₁ hreq)
        rfl ?_ ?_
      · exact fun _ => working_of_active (by rw [show s.state = .opening from hstate]; rfl)
      · intro k c hnone hsome
        cases k with
        | «open» => simp [attempt, hopen] at hnone
        | finalize => simp_all [attempt, setAttempt]
    · cases hresolve
      cases hget.symm.trans hget₁
      exact move_putStep hs hrow₁ (.opened a₁ _ _ _ _ hstate ha₁ hres₁ hreq) rfl (fun _ => hactive)
        (fresh_same rfl)

theorem move_markExecutionRunStepSigning
    (h : markExecutionRunStepSigning r ordinal claimId = .ok (r', a)) : Move t .plain r r' := by
  simp only [markExecutionRunStepSigning, committed, write_eq_ok] at h
  obtain ⟨s, hget, ⟨hstate, -⟩, s', hrow, rfl, rfl⟩ := h
  refine move_putStep (mem_of_get? hget) hrow (.signing hstate) rfl (fun _ => ?_) (fresh_same rfl)
  exact working_of_active (by rw [hstate]; rfl)

theorem move_recordExecutionRunStepSigned {m : SignerMetadata}
    (h : recordExecutionRunStepSigned r ordinal claimId m = .ok (r', a)) :
    Move t .plain r r' := by
  simp only [recordExecutionRunStepSigned, committed, write_eq_ok] at h
  obtain ⟨s, hget, ⟨hstate, -⟩, s', hrow, rfl, rfl⟩ := h
  refine move_putStep (mem_of_get? hget) hrow (.signed m hstate) rfl (fun _ => ?_) (fresh_same rfl)
  exact working_of_active (by rw [hstate]; rfl)

/-! ## The end of a Step -/

theorem settled_touches {r₃ : Run} (h : r.Settled r₃) (ht : r₃.Touches t command r') :
    r.Settled r' := by
  cases h with
  | paused h h' hr hl =>
    exact .paused h (ht.state.trans h') (hr.of_touches ht) (hl.trans ht.locks)
  | terminated h h' hr swept released =>
    exact .terminated h (ht.state.trans h') (hr.of_touches ht) (ht.steps ▸ swept)
      ⟨ht.locks.1.trans released.1, ht.locks.2.trans released.2⟩
  | completed h h' counts next all released =>
    refine .completed h (ht.state.trans h') ?_ (ht.next.trans next) ?_
      ⟨ht.locks.1.trans released.1, ht.locks.2.trans released.2⟩
    · rw [ht.counts, counts]
      simp only [stepCounts, countState, ht.steps]
    · rw [ht.counts, ht.totalStepCount, all]
  | continued h h' hr hl =>
    exact .continued h (ht.state.trans h') (hr.of_touches ht) (hl.trans ht.locks)

theorem terminal_of_finish {s s' : StepRow} (h : Finish o s s') : s'.state.terminal := by
  cases h with
  | preflight _ _ _ _ hnext => rcases hnext with rfl | rfl | rfl <;> rfl
  | observe _ _ _ hnext => exact hnext

theorem ne_pending_of_terminal {s : StepState} (h : s.terminal) : s ≠ .pending := by
  rintro rfl
  cases h

theorem move_finish {s s' : Step} {r₃ : Run} {steps : Table fun s : Step => s.ordinal}
    (mem : s ∈ r.steps) (active : s.state.active)
    (finished : Finish o s.toStepRow s'.toStepRow)
    (left : (r.putStep s').steps.Rel Left steps)
    (settle : finalizeExecutionStepProgress { r with steps := steps } now = .ok r₃)
    (after : r₃.Touches t command r')
    (fresh : ∀ e, s'.completion = some e → s.completion = some e ∨ t.completionTaken e = false) :
    Move t o r r' := by
  obtain ⟨hfrozen, hleft, hsettled⟩ := finalizeExecutionStepProgress_ok t settle
  have hpend := ne_pending_of_terminal (terminal_of_finish finished)
  have hfirst : r.Frozen t { r with steps := steps } := (Keeps.withSteps t r steps).toFrozen
  refine .finish o s s' mem active finished ?_ (hfirst.trans (hfrozen.trans after.toFrozen))
    (settled_touches (settled_congr hsettled rfl ⟨rfl, rfl⟩) after) fresh
  rw [after.steps]
  exact rel_sweep_left (rel_sweep_left (rel_sweep_put mem finished.evolves.ordinal) left hpend)
    hleft hpend

theorem move_applyPreflight {req : PreflightRequest}
    (hnext : req.nextState = .opening ∨ req.nextState = .satisfied ∨ req.nextState = .skipped ∨
      req.nextState = .failed)
    (h : applyPreflight req now r = .ok (r', a)) :
    Move t (if req.nextState = .opening then .opening else .plain) r r' := by
  simp only [applyPreflight, completeExecutionStepPreflight, committed, Prod.exists,
    write_eq_ok] at h
  obtain ⟨-, -, -, _, _, ⟨s, hget, ⟨hstate, -⟩, s', hrow, rfl, rfl⟩, h⟩ := h
  have mem := mem_of_get? hget
  split at h
  · rename_i hopening
    simp only [pure_pair] at h
    obtain ⟨rfl, -⟩ := h
    simp only [hopening, if_true, reduceCtorEq, or_self, if_false] at hrow ⊢
    refine move_putStep mem hrow (.opening req.reasonCode hstate) rfl (fun _ => ?_) (fresh_same rfl)
    exact working_of_active (by rw [hstate]; rfl)
  · rename_i hne
    simp only [committed] at h
    obtain ⟨r₃, hsettle, r₄, hcomplete, rfl, -⟩ := h
    have hnext := hnext.resolve_left hne
    simp only [hne, if_false, hnext, if_true] at hrow ⊢
    obtain ⟨steps, hskip, hleft⟩ := skipScope_eq (r.putStep s') s'.toStepRow req.skipScope
      req.reasonCode now
    rw [hskip] at hsettle
    exact move_finish mem (by rw [hstate]; rfl)
      (hrow ▸ .preflight req.nextState req.reasonCode now hstate hnext) hleft hsettle
      (touches_completeExecutionCommand hcomplete) (fun e he => .inl (by rw [hrow] at he; exact he))

/-! ## Observations -/

theorem recordExecutionRunProviderObservation_ok {taken : CompletionEvidence → Bool}
    {o : Observation} {s' : Step}
    (hallowed : transitionAllowed o.expectedState o.nextState)
    (hpolled : o.nextState = .awaitingCompletion → o.nextPollAt.isSome)
    (h : recordExecutionRunProviderObservation taken r o now = .ok (r', s')) :
    ∃ s ∈ r.steps, s.Observes o ∧
      s'.toStepRow = observed o now s.toStepRow ∧ o.completion.any taken = false ∧
      r' = r.putStep s' := by
  simp only [recordExecutionRunProviderObservation, committed, write_eq_ok] at h
  obtain ⟨s, hget, ⟨hstate, hclaim⟩, ⟨hreq, hcomp, hskip, htrans⟩, s₁, hrow, -, hfree, rfl, rfl⟩ :=
    h
  exact ⟨s, mem_of_get? hget,
    ⟨ordinal_of_get? hget, hstate, hclaim, hreq, hcomp, hskip, htrans, hallowed, hpolled⟩,
    hrow, hfree, rfl⟩

theorem createExecutionStepIsolation_ok {taken : UUID → Bool} {attempt : UUID}
    (h : createExecutionStepIsolation isolated taken r ordinal id attempt code = .ok r') :
    ∃ s i s', r.steps.get? ordinal = some s ∧ i.unresolved ∧ i.owner = r.owner ∧
      r.pairOf s.toStepRow = some (i.walletId, i.market) ∧
      isolated (i.walletId, i.market) = false ∧
      s'.toStepRow = { s.toStepRow with isolations := s.isolations ++ [i] } ∧
      r' = r.putStep s' := by
  simp only [createExecutionStepIsolation, committed, write_eq_ok] at h
  obtain ⟨s, hget, -, pair, hpair, ⟨hfree, -⟩, s', hrow, rfl⟩ := h
  exact ⟨s, _, s', hget, rfl, rfl, hpair, hfree, hrow, rfl⟩

theorem markExecutionRunReconciliationRequired_ok
    (h : markExecutionRunReconciliationRequired r code now = .ok r') :
    ∃ row hc, r' = r.withRow row hc ∧ r.toRunRow.Steers row ∧
      (((r.state = .running ∨ r.state = .pauseRequested) ∧ row.state = .reconciliationRequired) ∨
        (r.state = .terminateRequested ∧ row.state = .terminated)) := by
  simp only [markExecutionRunReconciliationRequired, committed, writeRow_eq_ok] at h
  obtain ⟨hstate, hc, rfl⟩ := h
  refine ⟨_, hc, rfl, by constructor <;> rfl, ?_⟩
  rcases hstate with h | h | h
  · exact .inl ⟨.inl h, by simp [h]⟩
  · exact .inl ⟨.inr h, by simp [h]⟩
  · exact .inr ⟨h, by simp [h]⟩

theorem blocked_of_mark {r₁ r₂ : Run}
    (hmark : markExecutionRunReconciliationRequired r code now = .ok r₁)
    (hend : settleUnknown (releaseExecutionCoordinator r₁) now = .ok r₂)
    (after : r₂.Touches t command r') :
    r.Frozen t r' ∧ r'.currentStepOrdinal = r.currentStepOrdinal ∧
      r.steps.Rel Left r'.steps ∧ r.Blocked r' := by
  obtain ⟨row, hc, rfl, hsteers, hcase⟩ := markExecutionRunReconciliationRequired_ok hmark
  have hrelease : (r.withRow row hc).Keeps t _ := keeps_releaseExecutionCoordinator
  rcases hcase with ⟨hwas, hstate⟩ | ⟨hwas, hstate⟩
  · have hne : (releaseExecutionCoordinator (r.withRow row hc)).state ≠ .terminated := by
      show row.state ≠ _
      rw [hstate]; nofun
    simp only [settleUnknown, hne, if_false, Except.ok.injEq] at hend
    subst hend
    have hkeeps := (Keeps.withRow hc hsteers (by rw [hstate]; rfl)).trans hrelease
    have hsame : r'.steps = r.steps := after.steps
    refine ⟨hkeeps.toFrozen.trans after.toFrozen, after.current.trans hkeeps.current, ?_,
      .reconciliation hwas (after.state.trans hstate) (after.next.trans hkeeps.next)
        (after.counts.trans hkeeps.counts) (hkeeps.locks.trans after.locks) ?_⟩
    · rw [hsame]
      exact .refl fun _ _ => .inl rfl
    · simp only [stepCounts, countState, hsame]
  · have heq : (releaseExecutionCoordinator (r.withRow row hc)).state = .terminated := hstate
    simp only [settleUnknown, heq, if_true, committed] at hend
    obtain ⟨r₃, hend, rfl⟩ := hend
    obtain ⟨hrec, hleft, hswept⟩ := endPendingSteps_ok t hend
    have hclosed : r.Frozen t (closeTerminalExecutionRun r₃) :=
      .close hc hsteers (hrelease.toFrozen.trans hrec.toFrozen)
    have hrefreshed : (closeTerminalExecutionRun r₃).Refreshed := hrec.refreshed.congr rfl rfl rfl
    refine ⟨hclosed.trans after.toFrozen, after.current.trans (hrec.current.trans hsteers.current),
      ?_, .terminated hwas (after.state.trans (hrec.state.trans hstate))
        (hrefreshed.of_touches after) ?_ ⟨after.locks.1, after.locks.2⟩⟩
    · rw [after.steps]
      exact hleft
    · rw [after.steps]
      exact hswept

theorem resolveExecutionStepIsolation_ok
    (h : resolveExecutionStepIsolation r ordinal id code now = .ok r') :
    ∃ s s', r.steps.get? ordinal = some s ∧ s.isolations.any (fun i => i.id = id && i.unresolved) ∧
      s'.toStepRow = { s.toStepRow with
        isolations := s.isolations.map (resolvedIsolation id code now) } ∧
      r' = r.putStep s' := by
  simp only [resolveExecutionStepIsolation, committed, write_eq_ok] at h
  obtain ⟨s, hget, hany, s', hrow, rfl⟩ := h
  exact ⟨s, s', hget, hany, hrow, rfl⟩

theorem resolved_of_refreshed {r₁ : Run} (hr : r.Refreshed)
    (hwas : r.state = .reconciliationRequired ∨ r.state = .terminated)
    (h : settleReconciled r now = .ok r₁) (after : r₁.Touches t command r') :
    r.Frozen t r' ∧ r'.steps = r.steps ∧ r.Resolved r' := by
  unfold settleReconciled at h
  split at h
  · rename_i hterm
    have ht := (touches_touchExecutionRunRevision h).trans after
    exact ⟨ht.toFrozen, ht.steps, .terminated hterm (ht.state.trans hterm) (hr.of_touches ht)
      ht.locks⟩
  · rename_i hterm
    have hrecon := hwas.resolve_right hterm
    split at h
    · rename_i hall
      simp only [completeReconciledExecutionRun, committed, writeRow_eq_ok] at h
      obtain ⟨_, ⟨-, hc, rfl⟩, rfl⟩ := h
      have hfirst : r.Frozen t (closeTerminalExecutionRun (r.withRow _ hc)) :=
        ⟨rfl, rfl, rfl, rfl, rfl, rfl, rfl, rfl, .of_eq rfl, tidies_close rfl⟩
      refine ⟨hfirst.trans after.toFrozen, after.steps,
        .completed hrecon after.state ?_ after.next ?_
        ⟨after.locks.1, after.locks.2⟩⟩
      · rw [after.counts]
        simp only [stepCounts, countState, after.steps]
        exact hr.counts
      · rw [after.counts, after.totalStepCount]
        exact hall
    · simp only [resolveExecutionRunReconciliation, committed, writeRow_eq_ok] at h
      obtain ⟨-, hc, rfl⟩ := h
      have hfirst : r.Frozen t (r.withRow _ hc) :=
        ⟨rfl, rfl, rfl, rfl, rfl, rfl, rfl, rfl, .of_eq rfl, .of_open rfl rfl rfl rfl⟩
      have hrefreshed : (r.withRow _ hc).Refreshed := hr.congr rfl rfl rfl
      exact ⟨hfirst.trans after.toFrozen, after.steps, .paused hrecon after.state
        (hrefreshed.of_touches after) after.locks⟩

theorem skipExecutionTerminalScope_eq (r : Run) (s : StepRow) (next : StepState)
    (scope : Option StepScope) (code : Code) (now : Time) :
    ∃ steps, skipExecutionTerminalScope r s next scope code now = { r with steps := steps } ∧
      r.steps.Rel Left steps := by
  unfold skipExecutionTerminalScope
  split
  · exact skipScope_eq r s scope code now
  · exact ⟨r.steps, rfl, .refl fun _ _ => .inl rfl⟩

theorem resolved_congr {r₀ : Run} (h : r.Resolved r') (state : r.state = r₀.state)
    (locks : r₀.LocksKept r) : r₀.Resolved r' := by
  cases h with
  | terminated h h' hr hl => exact .terminated (state ▸ h) h' hr (locks.trans hl)
  | completed h h' counts next all released =>
    exact .completed (state ▸ h) h' counts next all released
  | paused h h' hr hl => exact .paused (state ▸ h) h' hr (locks.trans hl)

section observation
variable {t : Tables} {req : ObservationRequest} {s s' : Step}

theorem active_of_observes {o : Observation} (h : s.Observes o)
    (hne : o.expectedState ≠ .outcomeUnknown) : s.state.active := by
  rw [h.state]
  exact StepState.active_of_mutating
    ((transitionAllowed_spec h.allowed).1.resolve_right hne)

section
variable (mem : s ∈ r.steps) (hobs : s.Observes req.statement)
  (hrow : s'.toStepRow = Queries.observed req.statement now s.toStepRow)
include mem hobs hrow

theorem move_awaits (hnext : req.nextState = .awaitingCompletion) :
    Move t (.observe req.statement) r (r.putStep s') := by
  refine move_putStep mem hrow (.observe req.statement now hobs (.inl hnext)) ?_ ?_ (fresh_same rfl)
  · simp [observed, ObservationRequest.statement, hnext]
  · intro _
    refine working_of_active (active_of_observes hobs ?_)
    intro hunknown
    have := hobs.allowed
    rw [hunknown, show req.statement.nextState = .awaitingCompletion from hnext] at this
    cases this

theorem move_staysUnknown (hnext : req.nextState = .outcomeUnknown)
    (hwas : req.expectedState = .outcomeUnknown) (h : staysUnknown req (r.putStep s') = .ok r') :
    Move t (.observe req.statement) r r' := by
  simp only [staysUnknown, bind_eq_ok] at h
  obtain ⟨r₁, htouch, hcomplete⟩ := h
  have ht : (r.putStep s').Touches t req.command r' :=
    (touches_touchExecutionRunRevision htouch).trans (touches_completeExecutionCommand hcomplete)
  have hput : r.Keeps t (r.putStep s') := .withSteps t r _
  refine .hold _ s s' mem (hrow ▸ .observe req.statement now hobs (.inr ⟨hnext, hwas⟩)) ht.steps
    (hput.trans ht.toKeeps) ht.state ?_ (.inl ?_) (fresh_same (by rw [hrow]; rfl))
  · intro _ hw
    simp [hrow, Working, observed, ObservationRequest.statement, hnext,
      StepState.active] at hw
  · rw [hobs.state.trans hwas]; rfl

theorem move_isolateUnknown (hnext : req.nextState = .outcomeUnknown)
    (hwas : req.expectedState ≠ .outcomeUnknown)
    (h : isolateUnknown t req now (r.putStep s') = .ok r') :
    Move t (.observe req.statement) r r' := by
  simp only [isolateUnknown, committed] at h
  obtain ⟨id, -, attempt, -, r₁, hcreate, r₂, hmark, r₃, hend, hcomplete⟩ := h
  obtain ⟨u, i, s'', hget, hun, howner, hpair, hfree, hrow'', rfl⟩ :=
    createExecutionStepIsolation_ok hcreate
  have hord' : s'.ordinal = s.ordinal := by rw [hrow]; rfl
  obtain rfl := get?_putStep mem hord' hobs.ordinal hget
  have hord'' : s''.ordinal = u.ordinal := by rw [hrow'']
  rw [putStep_putStep hord''.symm] at hmark
  have after : r₃.Touches t req.command r' := touches_completeExecutionCommand hcomplete
  obtain ⟨hfrozen, hcurrent, hleft, hblocked⟩ := blocked_of_mark hmark hend after
  have hput : r.Frozen t (r.putStep s'') := (Keeps.withSteps t r _).toFrozen
  have hrow₂ : s''.toStepRow = { observed req.statement now s.toStepRow with
      isolations := s.isolations ++ [i] } := by rw [hrow'', hrow]; rfl
  have hpend : s''.state ≠ .pending := by
    rw [hrow₂]
    simp [observed, ObservationRequest.statement, hnext]
  have hpair' : r.pairOf s.toStepRow = some (i.walletId, i.market) := by rw [← hpair, hrow]; rfl
  refine .isolate req.statement now i s s'' mem (active_of_observes hobs hwas) hobs hnext hrow₂ hun
    howner hpair' hfree (rel_sweep_left (rel_sweep_put mem (hord''.trans hord')) hleft hpend)
    (hput.trans hfrozen) hcurrent ?_
  cases hblocked with
  | reconciliation h h' next counts locks stepCounts =>
    refine .reconciliation h h' next counts locks (stepCounts.trans ?_)
    refine stepCounts_put mem (hord''.trans hord') (.inr ⟨hobs.not_terminal, ?_⟩) rfl
    simp [hrow₂, observed, ObservationRequest.statement, hnext, StepState.terminal]
  | terminated h h' refreshed swept released => exact .terminated h h' refreshed swept released

theorem move_reconciled (hnext : req.nextState.terminal)
    (hwas : req.expectedState = .outcomeUnknown)
    (hstate : r.state = .reconciliationRequired ∨ r.state = .terminated)
    (hfresh : req.completion.any t.completionTaken = false)
    (h : reconciled req s'.toStepRow now (r.putStep s') = .ok r') :
    Move t (.observe req.statement) r r' := by
  simp only [reconciled, committed] at h
  obtain ⟨id, -, r₁, hresolve, r₂, hrefresh, r₃, hend, hcomplete⟩ := h
  obtain ⟨u, s'', hget, hany, hrow'', rfl⟩ := resolveExecutionStepIsolation_ok hresolve
  have hord' : s'.ordinal = s.ordinal := by rw [hrow]; rfl
  obtain rfl := get?_putStep mem hord' hobs.ordinal hget
  have hord'' : s''.ordinal = u.ordinal := by rw [hrow'']
  rw [putStep_putStep hord''.symm] at hrefresh
  obtain ⟨steps, hskip, hleft⟩ := skipExecutionTerminalScope_eq (r.putStep s'') u.toStepRow
    req.nextState req.skipScope req.reasonCode now
  rw [hskip] at hrefresh
  obtain ⟨hrec, hsteps⟩ := refreshExecutionRunProgress_ok t hrefresh
  have hstate₂ : r₂.state = .reconciliationRequired ∨ r₂.state = .terminated := by
    rw [hrec.state]
    exact hstate
  obtain ⟨hfrozen, hsteps₃, hresolved⟩ := resolved_of_refreshed hrec.refreshed hstate₂ hend
    (touches_completeExecutionCommand hcomplete)
  have hrow₂ : s''.toStepRow = { observed req.statement now s.toStepRow with
      isolations := s.isolations.map (resolvedIsolation id req.resolutionCode now) } := by
    rw [hrow'', hrow]; rfl
  have hpend : s''.state ≠ .pending := by
    rw [hrow₂]
    exact ne_pending_of_terminal hnext
  have hany' : s.isolations.any fun i => i.id = id && i.unresolved := by
    rw [hrow] at hany
    exact hany
  have hput : r.Frozen t { r.putStep s'' with steps := steps } :=
    (Keeps.withSteps t r steps).toFrozen
  refine .reconcile req.statement now s s'' id req.resolutionCode mem (hobs.state.trans hwas) hobs
    hnext hrow₂ hany' ?_ (hput.trans (hrec.toFrozen.trans hfrozen))
    (resolved_congr hresolved hrec.state hrec.locks) hfresh
  rw [hsteps₃, hsteps]
  exact rel_sweep_left (rel_sweep_put mem (hord''.trans hord')) hleft hpend

theorem move_concluded (hnext : req.nextState.terminal) (hwas : req.expectedState ≠ .outcomeUnknown)
    (hfresh : req.completion.any t.completionTaken = false)
    (h : concluded req s'.toStepRow now (r.putStep s') = .ok r') :
    Move t (.observe req.statement) r r' := by
  simp only [concluded, bind_eq_ok] at h
  obtain ⟨r₁, hsettle, hcomplete⟩ := h
  obtain ⟨steps, hskip, hleft⟩ := skipExecutionTerminalScope_eq (r.putStep s') s'.toStepRow
    req.nextState req.skipScope req.reasonCode now
  rw [hskip] at hsettle
  refine move_finish mem (active_of_observes hobs hwas)
    (hrow ▸ .observe req.statement now hobs hnext)
    hleft hsettle (touches_completeExecutionCommand hcomplete) ?_
  intro e he
  have he : req.completion = some e := by rw [hrow] at he; exact he
  exact .inr (by simpa [he] using hfresh)

end

theorem polled_of_observationData (h : observationData req now)
    (hnext : req.nextState = .awaitingCompletion) : req.nextPollAt.isSome := by
  simp only [observationData, check_iff] at h
  obtain ⟨-, h | h⟩ := h
  · simp [hnext] at h
  · obtain ⟨t, ht, -⟩ := (Option.any_eq_true _ _).mp h
    rw [ht]
    rfl

theorem move_applyObservation (hallowed : transitionAllowed req.expectedState req.nextState)
    (hdata : observationData req now) (h : applyObservation t req now r = .ok (r', a)) :
    Move t (.observe req.statement) r r' := by
  simp only [applyObservation, committed, Prod.exists] at h
  obtain ⟨prior, hget, hprior, -, hstate, r₁, s', hrecord, h⟩ := h
  obtain ⟨s, mem, hobs, hrow, hfresh, rfl⟩ :=
    recordExecutionRunProviderObservation_ok (o := req.statement) hallowed
      (polled_of_observationData hdata) hrecord
  have hnext := (transitionAllowed_spec hallowed).2
  split at h
  · rename_i hawait
    simp only [committed] at h
    obtain ⟨_, rfl, rfl, -⟩ := h
    exact move_awaits mem hobs hrow hawait
  · rename_i hawait
    split at h
    · rename_i hunknown
      split at h
      · rename_i hwas
        simp only [committed] at h
        obtain ⟨_, h, rfl, -⟩ := h
        exact move_staysUnknown mem hobs hrow hunknown hwas h
      · rename_i hwas
        simp only [committed] at h
        obtain ⟨_, h, rfl, -⟩ := h
        exact move_isolateUnknown mem hobs hrow hunknown hwas h
    · rename_i hunknown
      have hterm : req.nextState.terminal := by simpa [hawait, hunknown] using hnext
      split at h
      · rename_i hwas
        simp only [committed] at h
        obtain ⟨_, h, rfl, -⟩ := h
        exact move_reconciled mem hobs hrow hterm hwas (hstate hwas) hfresh h
      · rename_i hwas
        simp only [committed] at h
        obtain ⟨_, h, rfl, -⟩ := h
        exact move_concluded mem hobs hrow hterm hwas hfresh h

end observation

end Store
end Athena.Execution
