import Athena.Execution.Progress
import Mathlib.Logic.Relation

/-!
# What can happen to a Step

Every statement that changes a Step is one of the moves below.  `StepRow.Hold`
collects those that leave a started Step unfinished, `StepRow.Finish` those that
end it.  Only an observation of the provider carries evidence, and only the end of
a preflight lets a Step open.

`StepRow.Evolves` is what survives any sequence of moves, and `StepRow.Journal`
relates the attempts of a Step to its state.
-/

namespace Athena.Execution

open Athena.Lib Queries Option StepState Attempt

/-! ## Growth of the journal -/

inductive AttemptStatus.Le : AttemptStatus → AttemptStatus → Prop
  | prepared (st : AttemptStatus) : Le .prepared st
  | dispatched (t : Time) : Le (.dispatched t) (.dispatched t)
  | resolving (r : MutationResult) (t t' : Time) : Le (.dispatched t) (.resolved r t t')
  | resolved (r : MutationResult) (t t' : Time) : Le (.resolved r t t') (.resolved r t t')

namespace AttemptStatus

theorem Le.refl (st : AttemptStatus) : st.Le st := by cases st <;> constructor

theorem Le.trans {a b c : AttemptStatus} (h : a.Le b) (h' : b.Le c) : a.Le c := by
  cases h <;> cases h' <;> constructor

end AttemptStatus

open AttemptStatus

structure Attempt.Grows (a b : Attempt) : Prop where
  id : b.id = a.id
  kind : b.kind = a.kind
  command : b.command = a.command
  request : b.request = a.request
  status : a.status.Le b.status
  positionRequestId : a.positionRequestId ≠ 0 → b.positionRequestId = a.positionRequestId

theorem Attempt.Grows.refl (a : Attempt) : a.Grows a := ⟨rfl, rfl, rfl, rfl, .refl _, fun _ => rfl⟩

theorem Attempt.Grows.trans {a b c : Attempt} (h : a.Grows b) (h' : b.Grows c) : a.Grows c :=
  ⟨h'.id.trans h.id, h'.kind.trans h.kind, h'.command.trans h.command,
    h'.request.trans h.request, h.status.trans h'.status, fun ha =>
      (h'.positionRequestId (h.positionRequestId ha ▸ ha)).trans (h.positionRequestId ha)⟩

def StepState.pastOpen : StepState → Bool
  | .pending | .preflighting | .opening => false
  | _ => true

/-- The states from the preflight on in which a Finalize cannot have been prepared. -/
def StepState.unsigned : StepState → Bool
  | .opening | .opened | .signing => true
  | _ => false

structure StepRow.Evolves (s s' : StepRow) : Prop where
  id : s'.id = s.id
  ordinal : s'.ordinal = s.ordinal
  walletOrdinal : s'.walletOrdinal = s.walletOrdinal
  itemOrdinal : s'.itemOrdinal = s.itemOrdinal
  sourceDisposition : s'.sourceDisposition = s.sourceDisposition
  attempt : ∀ k a, s.attempt k = some a → ∃ a', s'.attempt k = some a' ∧ a.Grows a'
  pending : s'.state = .pending → s.state = .pending
  terminal : s.state.terminal → s'.state = s.state ∧ s'.completion = s.completion
  request : s.state.pastOpen → s'.state.pastOpen ∧ s'.positionRequestId = s.positionRequestId

/-- What a transaction shows of itself: that it may let a Step start, that it let a Step
open, or the observation it recorded. -/
inductive Event
  | plain
  | starting
  | opening
  | observe (o : Observation)

def Event.ofCommand : Event → Bool
  | plain | starting => true
  | opening | observe _ => false

variable {o : Observation}

namespace StepRow

theorem Evolves.refl (s : StepRow) : s.Evolves s :=
  ⟨rfl, rfl, rfl, rfl, rfl, fun _ a h => ⟨a, h, .refl a⟩, fun h => h,
    fun _ => ⟨rfl, rfl⟩, fun h => ⟨h, rfl⟩⟩

variable {s s' : StepRow} {a : Attempt}

theorem Evolves.trans {t u : StepRow} (h : s.Evolves t) (h' : t.Evolves u) : s.Evolves u where
  id := h'.id.trans h.id
  ordinal := h'.ordinal.trans h.ordinal
  walletOrdinal := h'.walletOrdinal.trans h.walletOrdinal
  itemOrdinal := h'.itemOrdinal.trans h.itemOrdinal
  sourceDisposition := h'.sourceDisposition.trans h.sourceDisposition
  attempt := by
    intro k a ha
    obtain ⟨b, hb, hab⟩ := h.attempt k a ha
    obtain ⟨c, hc, hbc⟩ := h'.attempt k b hb
    exact ⟨c, hc, hab.trans hbc⟩
  pending := fun hu => h.pending (h'.pending hu)
  terminal := by
    intro hs
    obtain ⟨hst, hcomp⟩ := h.terminal hs
    obtain ⟨hst', hcomp'⟩ := h'.terminal (hst ▸ hs)
    exact ⟨hst'.trans hst, hcomp'.trans hcomp⟩
  request := by
    intro hs
    obtain ⟨ht, hreq⟩ := h.request hs
    obtain ⟨hu, hreq'⟩ := h'.request ht
    exact ⟨hu, hreq'.trans hreq⟩

/-- A change that touches neither attempts nor frozen columns evolves when it keeps
a terminal state and a provider request. -/
theorem Evolves.of_columns (hid : s'.id = s.id) (hord : s'.ordinal = s.ordinal)
    (hw : s'.walletOrdinal = s.walletOrdinal) (hi : s'.itemOrdinal = s.itemOrdinal)
    (hd : s'.sourceDisposition = s.sourceDisposition) (ho : s'.openAttempt = s.openAttempt)
    (hf : s'.finalizeAttempt = s.finalizeAttempt) (hpend : s'.state = .pending → s.state = .pending)
    (hterm : s.state.terminal = false)
    (hreq : s.state.pastOpen → s'.state.pastOpen ∧ s'.positionRequestId = s.positionRequestId) :
    s.Evolves s' where
  id := hid
  ordinal := hord
  walletOrdinal := hw
  itemOrdinal := hi
  sourceDisposition := hd
  attempt := by
    intro k a ha
    refine ⟨a, ?_, .refl a⟩
    cases k <;> simp_all [StepRow.attempt]
  pending := hpend
  terminal := by simp [hterm]
  request := hreq

@[simp] theorem attempt_setAttempt_self (s : StepRow) (k : MutationKind) (a : Attempt) :
    (s.setAttempt k a).attempt k = some a := by cases k <;> rfl

theorem attempt_setAttempt_of_ne (s : StepRow) {k k' : MutationKind} (a : Attempt) (h : k' ≠ k) :
    (s.setAttempt k a).attempt k' = s.attempt k' := by
  cases k <;> cases k' <;> simp_all [setAttempt, attempt]

section setAttempt
variable (s : StepRow) (k : MutationKind) (a : Attempt)
@[simp] theorem id_setAttempt : (s.setAttempt k a).id = s.id := by cases k <;> rfl
@[simp] theorem ordinal_setAttempt : (s.setAttempt k a).ordinal = s.ordinal := by cases k <;> rfl
@[simp] theorem walletOrdinal_setAttempt : (s.setAttempt k a).walletOrdinal = s.walletOrdinal := by
  cases k <;> rfl
@[simp] theorem itemOrdinal_setAttempt : (s.setAttempt k a).itemOrdinal = s.itemOrdinal := by
  cases k <;> rfl
@[simp] theorem sourceDisposition_setAttempt :
    (s.setAttempt k a).sourceDisposition = s.sourceDisposition := by cases k <;> rfl
@[simp] theorem state_setAttempt : (s.setAttempt k a).state = s.state := by cases k <;> rfl
@[simp] theorem completion_setAttempt : (s.setAttempt k a).completion = s.completion := by
  cases k <;> rfl
@[simp] theorem positionRequestId_setAttempt :
    (s.setAttempt k a).positionRequestId = s.positionRequestId := by cases k <;> rfl
@[simp] theorem claim_setAttempt : (s.setAttempt k a).claim = s.claim := by cases k <;> rfl
@[simp] theorem activeCommand_setAttempt : (s.setAttempt k a).activeCommand = s.activeCommand := by
  cases k <;> rfl
@[simp] theorem isolations_setAttempt : (s.setAttempt k a).isolations = s.isolations := by
  cases k <;> rfl
@[simp] theorem reconcileRequestedAt_setAttempt :
    (s.setAttempt k a).reconcileRequestedAt = s.reconcileRequestedAt := by cases k <;> rfl
end setAttempt

theorem Evolves.setAttempt {k : MutationKind} (h : ∀ b, s.attempt k = some b → b.Grows a) :
    s.Evolves (s.setAttempt k a) where
  id := s.id_setAttempt k a
  ordinal := s.ordinal_setAttempt k a
  walletOrdinal := s.walletOrdinal_setAttempt k a
  itemOrdinal := s.itemOrdinal_setAttempt k a
  sourceDisposition := s.sourceDisposition_setAttempt k a
  attempt := by
    intro k' b hb
    by_cases hk : k' = k
    · subst hk
      exact ⟨a, s.attempt_setAttempt_self k' a, h b hb⟩
    · exact ⟨b, (s.attempt_setAttempt_of_ne a hk).trans hb, .refl b⟩
  pending := by simp
  terminal := by simp
  request := by simp

/-! ## Moves -/

structure Observes (s : StepRow) (o : Observation) : Prop where
  ordinal : s.ordinal = o.ordinal
  state : s.state = o.expectedState
  claim : s.claim.any fun c => c.id = o.claimId
  request : admitsRequest s o
  completion : admitsCompletion s o
  skip : admitsSkip s o
  transition : admitsTransition s o
  allowed : Store.transitionAllowed o.expectedState o.nextState
  polled : o.nextState = .awaitingCompletion → o.nextPollAt.isSome

/-- The moves after which a started Step is still unfinished. -/
inductive Hold : Event → StepRow → StepRow → Prop
  | claim {s : StepRow} (c : Claim) (h : s.state.recoverable) :
      Hold .plain s { s with claim := some c }
  | opening {s : StepRow} (code : Code) (h : s.state = .preflighting) :
      Hold .opening s { s with state := .opening, reasonCode := code, completedAt := none }
  | prepare {s : StepRow} (k : MutationKind) (a : Attempt) (hk : a.kind = k)
      (hs : s.state = phase k) (hnone : s.attempt k = none) (hstatus : a.status = .prepared)
      (hrequest : k = .finalize → a.positionRequestId ≠ 0 ∧
        s.positionRequestId = a.positionRequestId) :
      Hold .plain s (s.setAttempt k a)
  | dispatch {s : StepRow} (a : Attempt) (now : Time) (hs : s.state = phase a.kind)
      (ha : s.attempt a.kind = some a) (hstatus : a.status = .prepared) :
      Hold .plain s (s.setAttempt a.kind { a with status := .dispatched now })
  | resolve {s : StepRow} (a b : Attempt) (t : Time) (ha : s.attempt a.kind = some a)
      (hstatus : a.status = .dispatched t) (hb : a.Grows b) (hres : b.isResolved)
      (hopen : a.kind = .open → b.status.result? ≠ some .succeeded) :
      Hold .plain s (s.setAttempt a.kind b)
  | opened {s : StepRow} (a : Attempt) (request : ℕ) (digest : Digest) (st order : Code)
      (h : s.state = .opening) (ha : s.openAttempt = some a)
      (hres : a.status.result? = some .succeeded) (hreq : a.positionRequestId = request) :
      Hold .plain s { s with
        state := .opened, positionRequestId := request, transactionDigest := some digest
        providerState := st, providerOrderState := order }
  /-- The response of the Open resolves its attempt in the same transaction. -/
  | respond {s : StepRow} (a b : Attempt) (t : Time) (request : ℕ) (digest : Digest)
      (st order : Code) (h : s.state = .opening) (ha : s.openAttempt = some a)
      (hstatus : a.status = .dispatched t) (hb : a.Grows b)
      (hres : b.status.result? = some .succeeded) (hreq : b.positionRequestId = request) :
      Hold .plain s { s with
        openAttempt := some b, state := .opened, positionRequestId := request
        transactionDigest := some digest, providerState := st, providerOrderState := order }
  | signing {s : StepRow} (h : s.state = .opened) : Hold .plain s { s with state := .signing }
  | signed {s : StepRow} (m : SignerMetadata) (h : s.state = .signing) :
      Hold .plain s { s with state := .finalizing, signer := some m }
  | reconcile {s : StepRow} (command : UUID) (now : Time) (h : s.state = .outcomeUnknown) :
      Hold .plain s { s with
        activeCommand := some command, reconcileRequestedAt := some now, nextPollAt := some now }
  | observe {s : StepRow} (o : Observation) (now : Time) (h : s.Observes o)
      (hnext : o.nextState = .awaitingCompletion ∨
        (o.nextState = .outcomeUnknown ∧ o.expectedState = .outcomeUnknown)) :
      Hold (.observe o) s (observed o now s)

inductive Finish : Event → StepRow → StepRow → Prop
  | preflight {s : StepRow} (next : StepState) (code : Code) (now : Time)
      (h : s.state = .preflighting)
      (hnext : next = .satisfied ∨ next = .skipped ∨ next = .failed) :
      Finish .plain s { s with
        state := next, reasonCode := code, activeCommand := none, claim := none
        completedAt := some now }
  | observe {s : StepRow} (o : Observation) (now : Time) (h : s.Observes o)
      (hnext : o.nextState.terminal) : Finish (.observe o) s (observed o now s)

structure Ended (s s' : StepRow) : Prop where
  pending : s.state = .pending
  row : ∃ (e : PendingEnd) (code : Code) (now : Time),
    s' = { s with state := e.state, reasonCode := code, completedAt := some now }

/-! ## Every move evolves -/

theorem transitionAllowed_spec {e n : StepState} (h : Store.transitionAllowed e n) :
    (e.mutating ∨ e = .outcomeUnknown) ∧
      ((n = .awaitingCompletion ∧ e.mutating) ∨ n = .outcomeUnknown ∨ n.terminal) := by
  unfold Store.transitionAllowed at h
  split at h <;> simp_all [mutating, terminal]

theorem Observes.not_terminal (h : s.Observes o) : s.state.terminal = false := by
  rw [h.state]
  rcases (transitionAllowed_spec h.allowed).1 with hm | hu
  · exact not_terminal_of_active (active_of_mutating hm)
  · rw [hu]; rfl

theorem Observes.evolves (h : s.Observes o) (now : Time) : s.Evolves (observed o now s) := by
  refine .of_columns rfl rfl rfl rfl rfl rfl rfl ?_ h.not_terminal ?_
  · intro hp
    have hp : o.nextState = .pending := hp
    have := (transitionAllowed_spec h.allowed).2
    simp [hp, terminal] at this
  · intro hpast
    have hreq := h.request
    simp only [admitsRequest, check_iff] at hreq
    refine ⟨?_, ?_⟩
    · have hnext := (transitionAllowed_spec h.allowed).2
      show o.nextState.pastOpen
      cases hn : o.nextState <;> simp_all [terminal, pastOpen]
    · rcases hreq with h0 | ⟨⟨hopening, -⟩, -⟩
      · simp [observed, h0]
      · simp [h.state, hopening, pastOpen] at hpast

theorem evolves_opened (h : s.state = .opening) (request : ℕ) (digest : Digest) (st order : Code) :
    s.Evolves { s with
      state := .opened, positionRequestId := request, transactionDigest := some digest
      providerState := st, providerOrderState := order } :=
  .of_columns rfl rfl rfl rfl rfl rfl rfl nofun (by rw [h]; rfl) (by simp [h, pastOpen])

theorem Hold.evolves {o : Event} (h : Hold o s s') : s.Evolves s' := by
  cases h with
  | claim c h =>
    refine .of_columns rfl rfl rfl rfl rfl rfl rfl (fun h => h) ?_ (fun h => ⟨h, rfl⟩)
    cases hs : s.state <;> simp_all [recoverable, terminal, active]
  | opening _ h | signing h | signed _ h =>
    exact .of_columns rfl rfl rfl rfl rfl rfl rfl (by simp) (by rw [h]; rfl)
      (by simp [h, pastOpen])
  | prepare _ _ _ _ hnone => exact .setAttempt (by simp [hnone])
  | dispatch _ _ _ ha hstatus =>
    apply Evolves.setAttempt
    rw [ha]
    rintro b ⟨⟩
    exact ⟨rfl, rfl, rfl, rfl, hstatus ▸ .prepared _, fun _ => rfl⟩
  | resolve _ _ _ ha _ hb =>
    apply Evolves.setAttempt
    rw [ha]
    rintro c ⟨⟩
    exact hb
  | opened a request digest st order h => exact evolves_opened h request digest st order
  | respond a b _ request digest st order h ha _ hb =>
    have hset : s.Evolves (s.setAttempt .open b) := by
      apply Evolves.setAttempt
      rw [show s.attempt .open = some a from ha]
      rintro c ⟨⟩
      exact hb
    have hopening : (s.setAttempt .open b).state = .opening := h
    exact hset.trans (evolves_opened hopening request digest st order)
  | reconcile _ _ h =>
    exact .of_columns rfl rfl rfl rfl rfl rfl rfl (by simp [h]) (by rw [h]; rfl)
      (fun h => ⟨h, rfl⟩)
  | observe o now h => exact h.evolves now

theorem Finish.evolves {o : Event} (h : Finish o s s') : s.Evolves s' := by
  cases h with
  | preflight _ _ _ h hnext =>
    refine .of_columns rfl rfl rfl rfl rfl rfl rfl ?_ (by rw [h]; rfl)
      (by simp [h, pastOpen])
    rcases hnext with rfl | rfl | rfl <;> nofun
  | observe o now h => exact h.evolves now

theorem Ended.evolves (h : Ended s s') : s.Evolves s' := by
  obtain ⟨e, code, now, rfl⟩ := h.row
  refine .of_columns rfl rfl rfl rfl rfl rfl rfl (fun _ => h.pending) ?_
    (by simp [h.pending, pastOpen])
  rw [h.pending]; rfl

/-! ## Attempts and states -/

structure Journal (s : StepRow) : Prop where
  early : s.state = .pending ∨ s.state = .preflighting →
    s.openAttempt = none ∧ s.finalizeAttempt = none
  unsigned : s.state.unsigned → s.finalizeAttempt = none
  skipped : s.sourceDisposition = .skipped →
    s.state = .skipped ∧ s.openAttempt = none ∧ s.finalizeAttempt = none
  opened : s.state.requested ∨ s.finalizeAttempt.isSome → s.openAttempt.any (·.isResolved)
  openInFlight : ∀ a t, s.openAttempt = some a → a.status = .dispatched t → s.state = .opening
  finalizeInFlight : ∀ a t, s.finalizeAttempt = some a → a.status = .dispatched t →
    s.state = .finalizing ∨ s.state = .outcomeUnknown ∨ s.state.terminal
  claimed : s.claim.isSome → s.state.recoverable
  evidence : ∀ e, s.completion = some e → ∃ a t, s.openAttempt = some a ∧ a.isResolved ∧
    a.status.dispatchedAt? = some t ∧ truncSecond t ≤ e.positionCreatedAt

theorem isResolved_of_admitsResult (h : admitsResult o a) : a.isResolved := by
  simp only [admitsResult, check_iff] at h
  unfold isResolved
  rcases h with (((h | h) | h) | h) | h
  · simp [h.2]
  · simp [h.1.2]
  · exact h.2
  · rcases h.2 with h | h <;> simp [h]
  · simp [h.2]

theorem Observes.open_resolved (h : s.Observes o) (hs : s.state = .opening)
    (hn : o.nextState ≠ .skipped) : s.openAttempt.any (·.isResolved) := by
  have he : o.expectedState = .opening := h.state ▸ hs
  have ht := h.transition
  simp only [admitsTransition, he, hn, reduceCtorEq, decide_false, decide_true, Bool.false_and,
    Bool.or_false, Bool.false_or, Bool.true_and, check_iff, if_true, StepRow.attempt] at ht
  rcases ht with (h | h) | h
  · exact h.2
  · exact h.2
  · obtain ⟨a, ha, hres⟩ := any_eq_true _ _ |>.mp h
    exact any_eq_true _ _ |>.mpr ⟨a, ha, isResolved_of_admitsResult hres⟩

theorem not_inFlight_of_resolved {t : Time} (h : a.isResolved) : a.status ≠ .dispatched t := by
  intro hst
  simp [isResolved, hst, result?] at h

theorem Observes.finalize_settled (h : s.Observes o) (hs : s.state = .finalizing)
    (hn : o.nextState = .awaitingCompletion) {t : Time} (ha : s.finalizeAttempt = some a) :
    a.status ≠ .dispatched t := by
  have he : o.expectedState = .finalizing := h.state ▸ hs
  have ht := h.transition
  intro hst
  simp only [admitsTransition, he, hn, ha, hst, reduceCtorEq, decide_false, decide_true,
    Bool.false_and, Bool.or_false, Bool.false_or, Bool.true_and, if_false, StepRow.attempt,
    any_some, wasDispatched, dispatchedAt?, isSome_some, Bool.not_true,
    Bool.and_false] at ht
  exact not_inFlight_of_resolved (isResolved_of_admitsResult ht) hst

theorem Observes.journal (h : s.Observes o) (hj : s.Journal) (now : Time) :
    (observed o now s).Journal where
  early := by
    have := (transitionAllowed_spec h.allowed).2
    rintro (hp | hp) <;> simp_all [observed, terminal]
  unsigned := by
    intro hp
    have hp : o.nextState.unsigned := hp
    rcases (transitionAllowed_spec h.allowed).2 with ⟨hn, -⟩ | hn | hn
    · simp [hn, unsigned] at hp
    · simp [hn, unsigned] at hp
    · cases hs : o.nextState <;> simp_all [unsigned, terminal]
  skipped := by
    intro hsk
    have := h.not_terminal
    rw [(hj.skipped hsk).1] at this
    cases this
  opened := by
    intro hor
    by_cases hs : s.state = .opening
    · rcases hor with hr | hf
      · refine h.open_resolved hs ?_
        intro hn
        simp [observed, hn, requested] at hr
      · simp [observed, hj.unsigned (by rw [hs]; rfl)] at hf
    · apply hj.opened
      refine hor.imp_left fun hr => ?_
      have hn : o.nextState = .awaitingCompletion := by
        have := (transitionAllowed_spec h.allowed).2
        have hr : o.nextState.requested := hr
        cases hn : o.nextState <;> simp_all [requested, terminal]
      have hm := (transitionAllowed_spec h.allowed).2
      rw [← h.state] at hm
      cases hst : s.state <;> simp_all [requested, mutating, terminal]
  openInFlight := by
    intro a t ha hst
    have ha : s.openAttempt = some a := ha
    have hs := hj.openInFlight a t ha hst
    by_cases hn : o.nextState = .skipped
    · have hskip := h.skip
      simp [admitsSkip, hn, ha, wasDispatched, hst, dispatchedAt?] at hskip
    · have hres := h.open_resolved hs hn
      rw [ha] at hres
      exact absurd hst (not_inFlight_of_resolved hres)
  finalizeInFlight := by
    intro a t ha hst
    have ha : s.finalizeAttempt = some a := ha
    show o.nextState = _ ∨ o.nextState = _ ∨ _
    rcases (transitionAllowed_spec h.allowed).2 with ⟨hn, hm⟩ | hn | hn
    · rw [← h.state] at hm
      rcases hj.finalizeInFlight a t ha hst with hs | hs | hs
      · exact absurd hst (h.finalize_settled hs hn ha)
      · simp [hs, mutating] at hm
      · simp [h.not_terminal] at hs
    · exact .inr (.inl hn)
    · exact .inr (.inr hn)
  claimed := by simp [observed]
  evidence := by
    intro e he
    have hc := h.completion
    have he : o.completion = some e := he
    simp only [admitsCompletion, he, Bool.and_eq_true, any_eq_true] at hc
    obtain ⟨-, a, ha, hres, t, ht, hle⟩ := hc
    exact ⟨a, t, ha, hres, ht, by simpa using hle⟩

theorem Journal.advance (hj : s.Journal) (hd : s'.sourceDisposition = s.sourceDisposition)
    (ho : s'.openAttempt = s.openAttempt) (hf : s'.finalizeAttempt = s.finalizeAttempt)
    (hc : s'.completion = s.completion) (hact : s.state.active) (hmut : s'.state.mutating)
    (hopened : s'.state.requested → s.openAttempt.any (·.isResolved))
    (hunsigned : s'.state.unsigned → s.finalizeAttempt = none) (hfinal : s.state ≠ .finalizing) :
    s'.Journal where
  early := by rintro (h | h) <;> simp [h, mutating] at hmut
  unsigned := fun h => hf.trans (hunsigned h)
  skipped := by
    intro h
    have := (hj.skipped (hd ▸ h)).1
    simp [this, active] at hact
  opened := by
    rintro (h | h)
    · exact ho ▸ hopened h
    · exact ho ▸ hj.opened (.inr (hf ▸ h))
  openInFlight := by
    intro a t ha hst
    by_contra hne
    have hreq : s'.state.requested := by
      cases h : s'.state <;> simp_all [mutating, requested]
    have hres := hopened hreq
    rw [← ho, ha] at hres
    exact not_inFlight_of_resolved hres hst
  finalizeInFlight := by
    intro a t ha hst
    rcases hj.finalizeInFlight a t (hf ▸ ha) hst with h | h | h
    · exact absurd h hfinal
    · simp [h, active] at hact
    · simp [not_terminal_of_active hact] at h
  claimed := by
    intro _
    have := active_of_mutating hmut
    cases h : s'.state <;> simp_all [recoverable]
  evidence := by rw [hc, ho]; exact hj.evidence

theorem Journal.setOpen (hj : s.Journal) (a : Attempt) (hs : s.state = .opening)
    (hun : ∀ b, s.openAttempt = some b → ¬b.isResolved) :
    ({ s with openAttempt := some a } : StepRow).Journal where
  early := by simp [hs]
  unsigned := hj.unsigned
  skipped := by
    intro h
    have := (hj.skipped h).1
    simp [hs] at this
  opened := by simp [hs, requested, hj.unsigned (by rw [hs]; rfl)]
  openInFlight := fun _ _ _ _ => hs
  finalizeInFlight := by simp [hj.unsigned (by rw [hs]; rfl)]
  claimed := hj.claimed
  evidence := by
    intro e he
    obtain ⟨b, t, hb, hres, -⟩ := hj.evidence e he
    exact absurd hres (hun b hb)

theorem Journal.setFinalize (hj : s.Journal) (a : Attempt)
    (hs : s.state = .finalizing ∨ s.state = .outcomeUnknown ∨ s.state.terminal)
    (hopen : s.openAttempt.any (·.isResolved)) :
    ({ s with finalizeAttempt := some a } : StepRow).Journal where
  early := by rintro (h | h) <;> simp_all [StepState.terminal]
  unsigned := by
    intro h
    have h : s.state.unsigned := h
    cases hst : s.state <;> simp_all [StepState.terminal, StepState.unsigned]
  skipped := by
    intro h
    simp [(hj.skipped h).2.1] at hopen
  opened := fun _ => hopen
  openInFlight := hj.openInFlight
  finalizeInFlight := fun _ _ _ _ => hs
  claimed := hj.claimed
  evidence := hj.evidence

theorem Journal.open (hj : s.Journal) (h : s.state = .opening) (ha : s.openAttempt = some a)
    (hres : a.status.result? = some .succeeded) (request : ℕ) (digest : Digest) (st order : Code) :
    ({ s with
      state := .opened, positionRequestId := request, transactionDigest := some digest
      providerState := st, providerOrderState := order } : StepRow).Journal := by
  refine hj.advance rfl rfl rfl rfl (by rw [h]; rfl) rfl (fun _ => ?_)
    (fun _ => hj.unsigned (by rw [h]; rfl)) (by simp [h])
  simp [ha, isResolved, hres]

theorem Hold.journal {o : Event} (h : Hold o s s') (hj : s.Journal) : s'.Journal := by
  cases h with
  | claim c h => exact { hj with claimed := fun _ => h }
  | opening _ h =>
    have hnone := hj.early (.inr h)
    exact hj.advance rfl rfl rfl rfl (by rw [h]; rfl) rfl nofun (fun _ => hnone.2) (by simp [h])
  | prepare k a _ hs hnone =>
    cases k with
    | «open» => exact hj.setOpen a hs (by simp [show s.openAttempt = none from hnone])
    | finalize =>
      exact hj.setFinalize a (.inl hs) (hj.opened (.inl (by rw [hs]; rfl)))
  | dispatch a _ hs ha hstatus =>
    cases hk : a.kind with
    | «open» =>
      rw [hk] at hs ha
      refine hj.setOpen _ hs ?_
      intro b hb
      cases ha.symm.trans hb
      simp [isResolved, hstatus, result?]
    | finalize =>
      rw [hk] at hs
      exact hj.setFinalize _ (.inl hs) (hj.opened (.inl (by rw [hs]; rfl)))
  | resolve a b t ha hstatus =>
    cases hk : a.kind with
    | «open» =>
      rw [hk] at ha
      refine hj.setOpen b (hj.openInFlight a t ha hstatus) ?_
      intro c hc
      cases ha.symm.trans hc
      simp [isResolved, hstatus, result?]
    | finalize =>
      rw [hk] at ha
      exact hj.setFinalize b (hj.finalizeInFlight a t ha hstatus)
        (hj.opened (.inr (by rw [show s.finalizeAttempt = some a from ha]; rfl)))
  | opened a request digest st order h ha hres => exact hj.open h ha hres request digest st order
  | respond _ b _ request digest st order h ha hstatus _ hres =>
    have hset : ({ s with openAttempt := some b } : StepRow).Journal := by
      refine hj.setOpen b h ?_
      intro c hc
      cases ha.symm.trans hc
      simp [isResolved, hstatus, result?]
    exact hset.open h rfl hres request digest st order
  | signing h =>
    exact hj.advance rfl rfl rfl rfl (by rw [h]; rfl) rfl
      (fun _ => hj.opened (.inl (by rw [h]; rfl))) (fun _ => hj.unsigned (by rw [h]; rfl))
      (by simp [h])
  | signed m h =>
    exact hj.advance rfl rfl rfl rfl (by rw [h]; rfl) rfl
      (fun _ => hj.opened (.inl (by rw [h]; rfl))) nofun (by simp [h])
  | reconcile => exact { hj with }
  | observe o now h => exact h.journal hj now

/-- A Step that was not opened yet has no attempts to account for. -/
theorem Journal.ofEarly (hj : s.Journal) (hs : s.state = .pending ∨ s.state = .preflighting)
    (hd : s'.sourceDisposition = s.sourceDisposition) (ho : s'.openAttempt = s.openAttempt)
    (hf : s'.finalizeAttempt = s.finalizeAttempt) (hc : s'.completion = s.completion)
    (hreq : s'.state.requested = false) (hclaim : s'.claim.isSome → s'.state.recoverable) :
    s'.Journal := by
  have hnone := hj.early hs
  rw [← ho, ← hf] at hnone
  exact
    { early := fun _ => hnone
      unsigned := fun _ => hnone.2
      skipped := by
        intro hsk
        simp [(hj.skipped (hd ▸ hsk)).1] at hs
      opened := by simp [hreq, hnone.2]
      openInFlight := by simp [hnone.1]
      finalizeInFlight := by simp [hnone.2]
      claimed := hclaim
      evidence := by rw [hc, ho]; exact hj.evidence }

theorem Finish.journal {o : Event} (h : Finish o s s') (hj : s.Journal) : s'.Journal := by
  cases h with
  | preflight _ _ _ h hnext =>
    refine hj.ofEarly (.inr h) rfl rfl rfl rfl ?_ nofun
    rcases hnext with rfl | rfl | rfl <;> rfl
  | observe o now h => exact h.journal hj now

theorem Ended.journal (h : Ended s s') (hj : s.Journal) : s'.Journal := by
  obtain ⟨e, code, now, rfl⟩ := h.row
  refine hj.ofEarly (.inl h.pending) rfl rfl rfl rfl (by cases e <;> rfl) fun hc => ?_
  have := hj.claimed hc
  simp [h.pending, recoverable, active] at this

end StepRow
end Athena.Execution
