import Athena.Execution.Passage

/-!
# The request of a Step at the provider

A Step learns the number of its request from the answer to its Open, which is recorded in one
transaction: the attempt succeeds, and the Step is opened with the number and the digest of the
transaction to sign.  Nothing else lets an Open succeed or a Step be opened, the number stays,
and a Finalize is about the same number.
-/

namespace Athena.Execution

open Athena.Lib Queries List

structure StepRow.Recorded (s : StepRow) : Prop where
  unset : s.state.pastOpen = false → s.positionRequestId = 0
  succeeded : ∀ a, s.openAttempt = some a → a.status.result? = some .succeeded → s.state.pastOpen
  finalize : ∀ a, s.finalizeAttempt = some a →
    a.positionRequestId = s.positionRequestId ∧ a.positionRequestId ≠ 0

/-- A Step is opened by the answer to its Open, which succeeds by that. -/
structure StepRow.Opens (s s' : StepRow) (a : Attempt) : Prop where
  before : s.state = .opening
  after : s'.state = .opened
  pending : ∃ b, s.openAttempt = some b ∧ b.id = a.id ∧ b.status.result? = none
  stored : s'.openAttempt = some a
  succeeded : a.status.result? = some .succeeded
  request : s'.positionRequestId = a.positionRequestId
  digest : s'.transactionDigest.isSome

namespace StepRow.Passes

variable {e : Event} {s s' : StepRow}

theorem ne_opened {o : Observation} (h : s.Observes o) : o.nextState ≠ .opened := by
  intro hopened
  have := (transitionAllowed_spec h.allowed).2
  simp [hopened, StepState.terminal] at this

variable (h : s.Passes e s')
include h

theorem opens_or_kept (hr : s.Recorded) : (∃ a, s.Opens s' a) ∨
    (s'.state = .opened → s.state = .opened) ∧
      ∀ a, s'.openAttempt = some a → a.status.result? = some .succeeded →
        s.openAttempt = some a := by
  cases h with
  | same => exact .inr ⟨fun hs => hs, fun _ ha _ => ha⟩
  | ended h =>
    obtain ⟨p, code, now, rfl⟩ := h.row
    exact .inr ⟨by cases p <;> exact nofun, fun _ ha _ => ha⟩
  | claimed => exact .inr ⟨nofun, fun _ ha _ => ha⟩
  | finished h =>
    cases h with
    | preflight next code now h hnext =>
      refine .inr ⟨?_, fun _ ha _ => ha⟩
      rcases hnext with rfl | rfl | rfl <;> exact nofun
    | observe o now h => exact .inr ⟨fun hs => absurd hs (ne_opened h), fun _ ha _ => ha⟩
  | concluded _ _ _ _ h => exact .inr ⟨fun hs => absurd hs (ne_opened h), fun _ ha _ => ha⟩
  | held h =>
    cases h with
    | claim => exact .inr ⟨fun hs => hs, fun _ ha _ => ha⟩
    | opening | signing | signed => exact .inr ⟨nofun, fun _ ha _ => ha⟩
    | reconcile => exact .inr ⟨fun hs => hs, fun _ ha _ => ha⟩
    | observe o now h => exact .inr ⟨fun hs => absurd hs (ne_opened h), fun _ ha _ => ha⟩
    | prepare k a hk hs hnone hstatus =>
      refine .inr ⟨by simp, fun b hb hsucceeded => ?_⟩
      rcases attempt_of_set (k := .open) hb with ⟨-, rfl⟩ | hb
      · simp [hstatus, AttemptStatus.result?] at hsucceeded
      · exact hb
    | dispatch a now hs ha hstatus =>
      refine .inr ⟨by simp, fun b hb hsucceeded => ?_⟩
      rcases attempt_of_set (k := .open) hb with ⟨-, rfl⟩ | hb
      · cases hsucceeded
      · exact hb
    | resolve a c t ha hstatus hc hres hopen =>
      refine .inr ⟨by simp, fun b hb hsucceeded => ?_⟩
      rcases attempt_of_set (k := .open) hb with ⟨hk, rfl⟩ | hb
      · exact absurd hsucceeded (hopen hk.symm)
      · exact hb
    | opened a request digest st order h ha hres =>
      -- a Step that is still to be opened has no Open that succeeded
      have := hr.succeeded a ha hres
      rw [h] at this
      cases this
    | respond a b t request digest st order h ha hstatus hb hres hreq =>
      exact .inl ⟨b, h, rfl, ⟨a, ha, hb.id.symm, by rw [hstatus]; rfl⟩, rfl, hres, hreq.symm, rfl⟩

theorem unset (hr : s.Recorded) (hs' : s'.state.pastOpen = false) : s'.positionRequestId = 0 := by
  have hs : s.state.pastOpen = false := by
    by_contra hpast
    have := (h.evolves.request (by simpa using hpast)).1
    simp [hs'] at this
  have hzero := hr.unset hs
  have later {o : Observation} (h : s.Observes o) (hnext : o.nextState.pastOpen = false)
    {p : Prop} :
      p := by
    have := (transitionAllowed_spec h.allowed).2
    cases hn : o.nextState <;> simp_all [StepState.terminal, StepState.pastOpen]
  cases h with
  | same => exact hzero
  | ended h =>
    obtain ⟨p, code, now, rfl⟩ := h.row
    exact hzero
  | claimed => exact hzero
  | finished h =>
    cases h with
    | preflight => exact hzero
    | observe o now h => exact later h hs'
  | concluded _ _ _ _ h => exact later h hs'
  | held h =>
    cases h with
    | observe o now h => exact later h hs'
    | opened | respond => cases hs'
    | prepare | dispatch | resolve => simpa using hzero
    | claim | opening | signing | signed | reconcile => exact hzero

theorem request (hr : s.Recorded) (hs : s.positionRequestId ≠ 0) :
    s'.positionRequestId = s.positionRequestId := by
  have hpast : s.state.pastOpen := by
    by_contra hpast
    exact hs (hr.unset (by simpa using hpast))
  exact (h.evolves.request hpast).2

theorem recorded (hr : s.Recorded) : s'.Recorded where
  unset := h.unset hr
  succeeded := by
    intro a ha hsucceeded
    rcases h.opens_or_kept hr with ⟨b, hopens⟩ | ⟨-, hkept⟩
    · rw [hopens.after]
      rfl
    · exact (h.evolves.request (hr.succeeded a (hkept a ha hsucceeded) hsucceeded)).1
  finalize := by
    intro b hb
    have carried {a : Attempt} (ha : s.finalizeAttempt = some a)
        (hab : a.positionRequestId ≠ 0 → b.positionRequestId = a.positionRequestId) :
        b.positionRequestId = s'.positionRequestId ∧ b.positionRequestId ≠ 0 := by
      obtain ⟨heq, hne⟩ := hr.finalize a ha
      rw [hab hne, h.request hr (heq ▸ hne)]
      exact ⟨heq, hne⟩
    rcases h.attempt (k := .finalize) hb with hs | ⟨-, -, hnew⟩ | ⟨a, ha, hgrows, -⟩
    · exact carried hs fun _ => rfl
    · obtain ⟨hne, heq⟩ := hnew rfl
      exact ⟨by rw [h.request hr (heq ▸ hne), heq], hne⟩
    · exact carried ha hgrows.positionRequestId

theorem resolved_kept {a : Attempt} (ha : s.openAttempt = some a) (hres : a.isResolved) :
    s'.openAttempt = some a := by
  obtain ⟨b, hb, -⟩ := h.evolves.attempt .open a ha
  rcases h.attempt (k := .open) hb with hs | ⟨hnone, -⟩ | ⟨c, hc, -, ⟨t, hstatus, -⟩ | ⟨t, hstatus⟩⟩
  · rw [show s.openAttempt = some b from hs] at ha
    exact ha ▸ hb
  · simp [show s.openAttempt = none from hnone] at ha
  all_goals
    cases (show s.openAttempt = some c from hc).symm.trans ha
    simp [Attempt.isResolved, hstatus, AttemptStatus.result?] at hres

end StepRow.Passes

namespace Store

variable {t t' : Tables} {ref : StepRef} {s s' : Step}

theorem Commits.step (h : Commits t t') (hs' : t'.step ref = some s') :
    (t.step ref = none ∧ s'.Recorded ∧ s'.openAttempt = none ∧ s'.state ≠ .opened) ∨
      ∃ s e, t.step ref = some s ∧ s.Passes e s'.toStepRow := by
  obtain ⟨op, now, a, h⟩ := h
  rcases (exec_change h).step hs' with ⟨hnone, ho, hf, -, hq, hb⟩ | ⟨s, hs, rfl | ⟨hp, -⟩⟩
  · refine .inl ⟨hnone, ⟨fun _ => hq, by simp [ho], by simp [hf]⟩, ho, ?_⟩
    rintro hopened
    rw [hopened] at hb
    cases hb
  · exact .inr ⟨s', .plain, hs, .same⟩
  · exact .inr ⟨s, _, hs, hp⟩

theorem Commits.step_of_step (h : Commits t t') (hs : t.step ref = some s) :
    ∃ s' e, t'.step ref = some s' ∧ s.Passes e s'.toStepRow := by
  obtain ⟨r, hr, hid, hmem, hord⟩ := Tables.step_eq_some.mp hs
  obtain ⟨r', hr', hlater⟩ := h.later r hr
  obtain ⟨s', hs', hgrows⟩ := hlater.steps.exists_of_mem hmem
  have hstep : t'.step ref = some s' := Tables.step_eq_some.mpr
    ⟨r', hr', hlater.id.trans hid, hs', hgrows.1.ordinal.trans hord⟩
  rcases h.step hstep with ⟨hnone, -⟩ | ⟨u, e, hu, hp⟩
  · cases hnone.symm.trans hs
  · cases hu.symm.trans hs
    exact ⟨s', e, hstep, hp⟩

theorem Reachable.recorded (h : Reachable t) (hs : t.step ref = some s) : s.Recorded := by
  induction h generalizing s with
  | refl => cases hs
  | tail _ hstep ih =>
    rcases hstep.step hs with ⟨-, hr, -⟩ | ⟨u, e, hu, hp⟩
    · exact hr
    · exact hp.recorded (ih hu)

/-! ## Histories -/

/-- The transactions that led to the tables, each with the tables before and after it. -/
inductive History : List (Tables × Tables) → Tables → Prop
  | nil : History [] .empty
  | snoc {l : List (Tables × Tables)} {t t' : Tables} (h : History l t) (hstep : Commits t t') :
      History (l ++ [(t, t')]) t'

/-- A transaction opened a Step, and its Open succeeded by that. -/
def OpenedIn (x : Tables × Tables) (ref : StepRef) (a : Attempt) : Prop :=
  ∃ s s' : Step, x.1.step ref = some s ∧ x.2.step ref = some s' ∧ s.Opens s'.toStepRow a ∧
    a.positionRequestId ≠ 0

namespace History

variable {l : List (Tables × Tables)}

theorem reachable (h : History l t) : Reachable t := by
  induction h with
  | nil => exact .refl
  | snoc _ hstep ih => exact ih.tail hstep

theorem exists_of_reachable (h : Reachable t) : ∃ l, History l t := by
  induction h with
  | refl => exact ⟨[], .nil⟩
  | tail _ hstep ih =>
    obtain ⟨l, hl⟩ := ih
    exact ⟨_, hl.snoc hstep⟩

theorem mem (h : History l t) {x : Tables × Tables} (hx : x ∈ l) :
    Reachable x.1 ∧ Commits x.1 x.2 := by
  induction h with
  | nil => cases hx
  | snoc h hstep ih =>
    rcases mem_append.mp hx with hx | hx
    · exact ih hx
    · cases mem_singleton.mp hx
      exact ⟨h.reachable, hstep⟩

/-- What a Step has after a transaction it has from then on. -/
theorem persists (h : History l t) {x : Tables × Tables} (hx : x ∈ l) (hs : x.2.step ref = some s) :
    ∃ s', t.step ref = some s' ∧
      (∀ a, s.openAttempt = some a → a.isResolved → s'.openAttempt = some a) ∧
      (s.positionRequestId ≠ 0 → s'.positionRequestId = s.positionRequestId) := by
  induction h with
  | nil => cases hx
  | snoc h hstep ih =>
    rcases mem_append.mp hx with hx | hx
    · obtain ⟨u, hu, hopen, hrequest⟩ := ih hx
      obtain ⟨s', e, hs', hp⟩ := hstep.step_of_step hu
      refine ⟨s', hs', fun a ha hres => hp.resolved_kept (hopen a ha hres) hres, fun hne => ?_⟩
      have heq := hrequest hne
      rw [hp.request (h.reachable.recorded hu) (heq ▸ hne), heq]
    · cases mem_singleton.mp hx
      exact ⟨s, hs, fun a ha _ => ha, fun _ => rfl⟩

theorem openedIn (hs : t.step ref = some s) (hs' : t'.step ref = some s')
    {a : Attempt} (h : s.Opens s'.toStepRow a) : OpenedIn (t, t') ref a := by
  have hrequest := s'.checked.request (by rw [h.after]; rfl)
  exact ⟨s, s', hs, hs', h, h.request ▸ hrequest.1⟩

theorem exists_opened (h : History l t) (hs : t.step ref = some s) {a : Attempt}
    (ha : s.openAttempt = some a) (hsucceeded : a.status.result? = some .succeeded) :
    ∃ x ∈ l, OpenedIn x ref a := by
  induction h generalizing s with
  | nil => cases hs
  | snoc h hstep ih =>
    rcases hstep.step hs with ⟨-, -, hnone, -⟩ | ⟨u, e, hu, hp⟩
    · simp [hnone] at ha
    rcases hp.opens_or_kept (h.reachable.recorded hu) with ⟨b, hopens⟩ | ⟨-, hkept⟩
    · cases hopens.stored.symm.trans ha
      exact ⟨_, mem_append_right _ (mem_singleton_self _), openedIn hu hs hopens⟩
    · obtain ⟨x, hx, hopened⟩ := ih hu (hkept a ha hsucceeded)
      exact ⟨x, mem_append_left _ hx, hopened⟩

end History

/-- An Open succeeded exactly when one transaction of the history opened its Step with the number
of its request and a digest; a Step is opened only by such a transaction; the number of a Step's
request never changes once it is set; and a Finalize carries the number of its Step. -/
theorem open_recorded_with_step {l : List (Tables × Tables)} (h : History l t) :
    (∀ ref s a, t.step ref = some s → s.openAttempt = some a →
      (a.status.result? = some .succeeded ↔
        ∃ x ∈ l, ∃ a₀ : Attempt, a₀.id = a.id ∧ OpenedIn x ref a₀)) ∧
    (∀ x ∈ l, ∀ ref s', x.2.step ref = some s' → s'.state = .opened →
      (∃ s, x.1.step ref = some s ∧ s.state = .opened) ∨ ∃ a, OpenedIn x ref a) ∧
    (∀ x ∈ l, ∀ ref s, x.2.step ref = some s → s.positionRequestId ≠ 0 →
      ∃ s', t.step ref = some s' ∧ s'.positionRequestId = s.positionRequestId) ∧
    (∀ ref s a, t.step ref = some s → s.finalizeAttempt = some a →
      a.positionRequestId = s.positionRequestId ∧ a.positionRequestId ≠ 0) := by
  refine ⟨?_, ?_, ?_, fun ref s a hs => (h.reachable.recorded hs).finalize a⟩
  · intro ref s a hs ha
    constructor
    · intro hsucceeded
      obtain ⟨x, hx, hopened⟩ := h.exists_opened hs ha hsucceeded
      exact ⟨x, hx, a, rfl, hopened⟩
    · -- what the transaction stored is still there: a resolved Open stays as it is
      rintro ⟨x, hx, a₀, -, u, u', -, hu', hopens, -⟩
      obtain ⟨s', hs', hkept, -⟩ := h.persists hx hu'
      cases hs'.symm.trans hs
      have hresolved : a₀.isResolved := by
        simp [Attempt.isResolved, hopens.succeeded]
      cases (hkept a₀ hopens.stored hresolved).symm.trans ha
      exact hopens.succeeded
  · intro x hx ref s' hs' hopened
    obtain ⟨hreachable, hstep⟩ := h.mem hx
    rcases hstep.step hs' with ⟨-, -, -, hne⟩ | ⟨s, e, hs, hp⟩
    · exact absurd hopened hne
    rcases hp.opens_or_kept (hreachable.recorded hs) with ⟨a, hopens⟩ | ⟨hstate, -⟩
    · exact .inr ⟨a, History.openedIn hs hs' hopens⟩
    · exact .inl ⟨s, hs, hstate hopened⟩
  · intro x hx ref s hs hne
    obtain ⟨s', hs', -, hrequest⟩ := h.persists hx hs
    exact ⟨s', hs', hrequest hne⟩

end Store

/-- The sample Open succeeded as request 8. -/
def Sample.opened : Tables := Store.after (started ++ dispatched ++
  [(.opened ⟨401, ⟨1, 1⟩, .worker 1, 8, 9, .empty, .empty, 200, .empty⟩, 9)])

namespace Store

open Sample

/-- The sample Step is opened with the number of its request. -/
theorem sample_opened_with_step : ∃ l, ∃ a : Attempt, History l opened ∧
    a.positionRequestId = 8 ∧ ∃ x ∈ l, ∃ a₀ : Attempt, a₀.id = a.id ∧ OpenedIn x ⟨1, 1⟩ a₀ := by
  obtain ⟨l, hl⟩ := History.exists_of_reachable
    (reachable_after (started ++ dispatched ++
      [(.opened ⟨401, ⟨1, 1⟩, .worker 1, 8, 9, .empty, .empty, 200, .empty⟩, 9)]))
  obtain ⟨s, hs, hopen⟩ := (Option.any_eq_true _ _).mp
    (by decide +kernel : (opened.step ⟨1, 1⟩).any fun s => s.openAttempt.any fun a =>
      a.positionRequestId = 8 && a.status.result? = some .succeeded)
  obtain ⟨a, ha, hresult⟩ := (Option.any_eq_true _ _).mp hopen
  simp only [check_iff] at hresult
  exact ⟨l, a, hl, hresult.1,
    ((open_recorded_with_step hl).1 ⟨1, 1⟩ s a hs ha).mp hresult.2⟩

/-- Whatever is committed later, a Step that has ended keeps its state and its evidence, and an
attempt stays with its Step: it keeps its id, command and request, its status only moves on, and
no other attempt has its id. -/
theorem attempt_stays_with_step (ht : Reachable t) (h : Reaches t t') (hs : t.step ref = some s) :
    ∃ s', t'.step ref = some s' ∧
      (s.state.terminal → s'.state = s.state ∧ s'.completion = s.completion) ∧
      ∀ k a, s.attempt k = some a → ∃ a', s'.attempt k = some a' ∧ a.Grows a' ∧
        ∀ ref' u k' b, t'.step ref' = some u → u.attempt k' = some b → b.id = a.id →
          ref' = ref ∧ k' = k := by
  obtain ⟨r, hr, hrun, hmem, hord⟩ := Tables.step_eq_some.mp hs
  obtain ⟨r', hr', hlater⟩ := h.later r hr
  obtain ⟨s', hs', hev, -⟩ := hlater.steps.exists_of_mem hmem
  have hrun' := hlater.id.trans hrun
  have hord' := hev.ordinal.trans hord
  refine ⟨s', Tables.step_eq_some.mpr ⟨r', hr', hrun', hs', hord'⟩, hev.terminal, ?_⟩
  intro k a ha
  obtain ⟨a', ha', hgrow⟩ := hev.attempt k a ha
  refine ⟨a', ha', hgrow, fun ref' u k' b hu hb hid => ?_⟩
  obtain ⟨q, hq, hq₁, hu', hq₂⟩ := Tables.step_eq_some.mp hu
  have hplace := (Reachable.inv (ht.trans h)).attempts (p := (ref'.run, ref'.ordinal, k'))
    (q := (ref.run, ref.ordinal, k)) ⟨q, hq, hq₁, u, hu', hq₂, b, hb, hid⟩
    ⟨r', hr', hrun', s', hs', hord', a', ha', hgrow.id⟩
  cases ref'
  cases ref
  simp_all

/-- An Open in flight stays through a termination. -/
theorem sample_attempt_stays : ∃ s a,
    (attempt (after (started ++ dispatched)) (.terminate (request 105 3), 11)).step
      ⟨1, 1⟩ = some s ∧ s.openAttempt = some a ∧ a.id = 401 := by
  obtain ⟨s, hs, hopen⟩ := (Option.any_eq_true _ _).mp
    (by decide +kernel : ((after (started ++ dispatched)).step ⟨1, 1⟩).any fun s =>
      s.openAttempt.any fun a => a.id = 401)
  obtain ⟨a, ha, hid⟩ := (Option.any_eq_true _ _).mp hopen
  obtain ⟨s', hs', -, hstays⟩ := attempt_stays_with_step (reachable_after _)
    (reaches_foldl [(.terminate (request 105 3), 11)] _) hs
  obtain ⟨a', ha', hgrow, -⟩ := hstays .open a ha
  exact ⟨s', a', hs', ha', hgrow.id.trans (of_decide_eq_true hid)⟩

end Store
end Athena.Execution
