import Athena.Execution.Enabled

/-!
# Laws of the command journal

A command whose expected revision is out of date should be rejected: five commands compare
the revision, three do not, and `stale_rejected_iff` says exactly when a stale command
still has an effect.  A command that was recorded answers from the journal and leaves the
Run alone, but for the coordinator that the replay of a start or resume replaces.
-/

namespace Athena.Execution

open Athena.Lib Table Queries Option

variable {t t' : Tables} {r r' : Run} {req : CommandRequest} {now : Time} {c : Command}

namespace Operation

/-- The request of a command, with the kind and the digest it is journalled under. -/
def command : Operation → Option (CommandRequest × CommandKind × RequestDigest)
  | .authorize req proofKind b _ => some (req, .authorize,
      .authorize req.run req.command req.expectedRevision proofKind b.session b.accessRevision)
  | .startOrResume resume req b _ _ => some (req, if resume then .resume else .start,
      .startOrResume req.run req.command req.expectedRevision b.session b.accessRevision
        (if resume then .resume else .start))
  | .pause req => some (req, .pause,
      .control req.owner req.run req.command req.expectedRevision)
  | .terminate req => some (req, .terminate,
      .control req.owner req.run req.command req.expectedRevision)
  | .heartbeat req token b => some (req, .heartbeat,
      .heartbeat req.owner req.run req.command req.expectedRevision token b.session
        b.accessRevision)
  | .executeNext req ordinal token b => some (req, .executeNext,
      .executeNext req.run req.command req.expectedRevision ordinal token b.session
        b.accessRevision)
  | .reconcile req stepId ordinal => some (req, .reconcile,
      .reconcile req.run req.command req.expectedRevision stepId ordinal)
  | _ => none

end Operation

open Operation

namespace Store

/-! ## The frame of a command -/

section frame
variable {α : Type} {kind : CommandKind} {digest : RequestDigest} {ordinal : ℕ}
  {replay : Run → Command → Except StoreError (Run × α)}
  {fresh : Run → Except StoreError (Run × α)}

theorem beginExecutionCommand_enabled (hfresh : ∀ c ∈ r.commands, c.id ≠ req.command) :
    beginExecutionCommand (createExecutionCommand r req.command kind digest ordinal)
      req.command = .ok (journalled r req kind digest ordinal) := by
  have hany : (createExecutionCommand r req.command kind digest ordinal).commands.any
      fun c => c.id = req.command && c.state = .accepted := by
    simp [createExecutionCommand]
  have h : beginExecutionCommand (createExecutionCommand r req.command kind digest
      ordinal) req.command = .ok _ := updateCommand_eq hany
  rw [h, beginExecutionCommand_createExecutionCommand hfresh h]

theorem runCommand_eq_fresh (hpos : 0 < req.expectedRevision) (hget : t.runs.get? req.run = some r)
    (howner : r.owner = req.owner) (hfree : t.commandOf req.command = none) :
    runCommand t req kind digest ordinal replay fresh = (do
      let (r', a) ← fresh (journalled r req kind digest ordinal)
      pure (⟨t.runs.put r'⟩, a)) := by
  have hfresh := commandOf_eq_none.mp hfree r (mem_of_get? hget)
  simp only [runCommand, beginExecutionRunCommand, hget, hfree, howner, ensure_of hpos,
    filter_some, decide_true, if_true, found_some, bind_ok, beginExecutionCommand_enabled hfresh]
  rfl

theorem runCommand_eq_ok_fresh (hget : t.runs.get? req.run = some r)
    (hfree : t.commandOf req.command = none) {a : α} :
    runCommand t req kind digest ordinal replay fresh = .ok (t', a) ↔
      0 < req.expectedRevision ∧ r.owner = req.owner ∧
        ∃ r', fresh (journalled r req kind digest ordinal) = .ok (r', a) ∧
          ⟨t.runs.put r'⟩ = t' := by
  by_cases hpos : 0 < req.expectedRevision
  · by_cases howner : r.owner = req.owner
    · simp only [runCommand_eq_fresh hpos hget howner hfree, committed, hpos, howner, true_and]
      constructor
      · rintro ⟨⟨r', a'⟩, h, rfl, rfl⟩
        exact ⟨r', h, rfl⟩
      · rintro ⟨r', h, rfl⟩
        exact ⟨(r', a), h, rfl, rfl⟩
    · simp [runCommand, beginExecutionRunCommand, hget, howner, ensure_of hpos]
  · simp [runCommand, beginExecutionRunCommand, hpos]

end frame

/-! ## Statements that succeed -/

variable {k : Coordinator} {id : UUID} {token : Digest} {x : Run × Run}

theorem bindExecutionCommandCoordinator_enabled (hk : k ∈ r.coordinators) (req : CommandRequest)
    (kind : CommandKind) (digest : RequestDigest) (ordinal : ℕ) :
    ∃ r', bindExecutionCommandCoordinator (journalled r req kind digest ordinal)
        req.command k = .ok r' ∧
      r'.toRunRow = r.toRunRow ∧ r'.authorizations = r.authorizations ∧
      r'.coordinators = r.coordinators ∧ InProgress r' req.command := by
  have hcoordinator : (journalled r req kind digest ordinal).coordinators.any fun c =>
      c.id = k.id && c.generation = k.generation :=
    List.any_eq_true.mpr ⟨k, hk, by simp⟩
  refine ⟨_, updateCommand_eq ?_, rfl, rfl, rfl, ?_⟩
  · simp only [hcoordinator, Bool.and_true]
    simp [journalled]
  · simp only [InProgress, hcoordinator, Bool.and_true]
    simp [journalled]

def pausable (r : Run) : Bool := r.state = .running || r.state = .pauseRequested

theorem requireAuthorization_enabled (hopen : InProgress r id) (hstate : pausable r) (now : Time) :
    ∃ r', requireAuthorization r id now = .ok r' ∧ r'.id = r.id ∧
      r'.revision = r.revision + 1 := by
  have hstate : r.state = .running ∨ r.state = .pauseRequested := by simpa [pausable] using hstate
  obtain ⟨r₁, hpause, hid, hrevision, hcommands⟩ : ∃ r₁,
      pauseExecutionRunForReauthorization r now = .ok r₁ ∧ r₁.id = r.id ∧
        r₁.revision = r.revision + 1 ∧ r₁.commands = r.commands := by
    simp only [pauseExecutionRunForReauthorization, Queries.pauseExecutionRunForReauthorization,
      committed, Run.writeRow_eq_ok]
    exact ⟨_, ⟨_, ⟨hstate, checked_pausing r.checked hstate _ _ _, rfl⟩, rfl⟩, rfl, rfl, rfl⟩
  have hopen₁ : InProgress r₁ id := by unfold InProgress at *; rwa [hcommands]
  obtain ⟨r', hcomplete, hrow⟩ :=
    completeExecutionCommand_enabled hopen₁ .authorizationRequired
  refine ⟨r', bind_eq_ok.mpr ⟨r₁, hpause, hcomplete⟩, ?_, ?_⟩
  · rw [hrow, hid]
  · rw [hrow, hrevision]

def presented (r : Run) (token : Digest) (now : Time) : Option Coordinator :=
  r.activeCoordinator.filter fun k => k.token = token && now < k.leaseExpiresAt

theorem presentedCoordinator_eq_ok :
    presentedCoordinator r token now = .ok k ↔ presented r token now = some k := by
  simp only [presentedCoordinator, presented, committed, filter_eq_some_iff, check_iff]
  constructor
  · rintro ⟨k, hk, hlive, rfl⟩
    exact ⟨hk, hlive⟩
  · rintro ⟨hk, hlive⟩
    exact ⟨k, hk, hlive, rfl⟩

theorem mem_of_presented (h : presented r token now = some k) :
    k ∈ r.coordinators ∧ k.state = .active ∧ k.token = token ∧ now < k.leaseExpiresAt := by
  simp only [presented, filter_eq_some_iff, check_iff] at h
  exact ⟨List.mem_of_find?_eq_some h.1, by simpa using List.find?_some h.1, h.2⟩

theorem bindingChanged_congr (hrow : r'.toRunRow = r.toRunRow)
    (hauth : r'.authorizations = r.authorizations) (k : Coordinator) (b : Binding) :
    bindingChanged r' k b = bindingChanged r k b := by
  simp only [bindingChanged, authorizationHolds, Run.activeAuthorization, hrow, hauth]

/-! ## Stale commands -/

section stale
variable {token : Digest} {b : Binding} {kind : CommandKind} {digest : RequestDigest} {ordinal : ℕ}

theorem ne_of_revision (h : r'.revision = r.revision + 1) : r' ≠ r := by
  rintro rfl
  omega

variable {k : Coordinator} {n : ℕ}

theorem applyHeartbeat_enabled (hk : presented r token now = some k)
    (hpause : bindingChanged r k b → pausable r) :
    ∃ r' a, applyHeartbeat req token b now (journalled r req kind digest ordinal) = .ok (r', a) ∧
      r'.id = r.id ∧ r' ≠ r := by
  obtain ⟨hmem, hactive, htoken, hlease⟩ := mem_of_presented hk
  obtain ⟨r₂, hbind, hrow, hauth, hcoordinators, hopen⟩ :=
    bindExecutionCommandCoordinator_enabled hmem req kind digest ordinal
  have hpresented : presentedCoordinator (journalled r req kind digest ordinal) token now = .ok k :=
    presentedCoordinator_eq_ok.mpr hk
  simp only [applyHeartbeat, hpresented, hbind, bind_ok, bindingChanged_congr hrow hauth]
  by_cases hchanged : bindingChanged r k b
  · have hstate : pausable r₂ := by
      unfold pausable
      rw [hrow]
      exact hpause hchanged
    obtain ⟨r', hrequire, hid, hrevision⟩ := requireAuthorization_enabled hopen hstate now
    exact ⟨r', r', by simp [hchanged, hrequire], by rw [hid, hrow],
      ne_of_revision (by rw [hrevision, hrow])⟩
  · have hsame : k.session = b.session ∧ k.accessRevision = b.accessRevision := by
      simp only [bindingChanged, check_iff, not_or, not_not] at hchanged
      exact hchanged.1
    obtain ⟨r₃, hbeat, hrow₃, hcommands₃⟩ : ∃ r₃, Queries.heartbeatExecutionCoordinator r₂ token
        b.session b.accessRevision (now + executionCoordinatorLease) now = .ok r₃ ∧
          r₃.toRunRow = r₂.toRunRow ∧ r₃.commands = r₂.commands := by
      simp only [Queries.heartbeatExecutionCoordinator, committed]
      refine ⟨_, ⟨List.any_eq_true.mpr ⟨k, hcoordinators ▸ hmem, ?_⟩, rfl⟩, rfl, rfl⟩
      simp [hactive, htoken, hlease, hsame]
    obtain ⟨r₄, htouch, hid, hrevision, hcommands⟩ := touchExecutionRunRevision_enabled r₃
    have hopen₄ : InProgress r₄ req.command := by
      unfold InProgress at *
      rwa [hcommands, hcommands₃]
    obtain ⟨r', hcomplete, hrow'⟩ := completeExecutionCommand_enabled hopen₄ (.lit "HEARTBEAT")
    exact ⟨r', r', by simp [hchanged, hbeat, htouch, hcomplete], by rw [hrow', hid, hrow₃, hrow],
      ne_of_revision (by rw [hrow', hrevision, hrow₃, hrow])⟩

theorem bound_of_journalled {k : Coordinator} {r₂ : Run}
    (h : bindExecutionCommandCoordinator (journalled r req kind digest ordinal)
      req.command k = .ok r₂) :
    r₂.toRunRow = r.toRunRow ∧ r₂.authorizations = r.authorizations := by
  simp only [bindExecutionCommandCoordinator, updateCommand, committed] at h
  obtain ⟨-, rfl⟩ := h
  exact ⟨rfl, rfl⟩

theorem pausable_of_requireAuthorization {id : UUID} (h : requireAuthorization r id now = .ok r') :
    pausable r := by
  simp only [requireAuthorization, pauseExecutionRunForReauthorization,
    Queries.pauseExecutionRunForReauthorization, committed] at h
  obtain ⟨-, ⟨-, ⟨hstate, -⟩, -⟩, -⟩ := h
  have hstate : r.state = .running ∨ r.state = .pauseRequested := hstate
  simpa [pausable] using hstate

/-- A heartbeat needs the token of the active coordinator, and a Run that can be
paused if its binding changed. -/
theorem presented_of_applyHeartbeat {x : Run × Run}
    (h : applyHeartbeat req token b now (journalled r req kind digest ordinal) = .ok x) :
    ∃ k, presented r token now = some k ∧ (bindingChanged r k b → pausable r) := by
  simp only [applyHeartbeat, bind_eq_ok] at h
  obtain ⟨k, hk, r₂, hbind, h⟩ := h
  obtain ⟨hrow, hauth⟩ := bound_of_journalled hbind
  refine ⟨k, presentedCoordinator_eq_ok.mp hk, fun hchanged => ?_⟩
  rw [bindingChanged_congr hrow hauth, if_pos hchanged, bind_eq_ok] at h
  obtain ⟨r', hrequire, -⟩ := h
  have := pausable_of_requireAuthorization hrequire
  unfold pausable at this ⊢
  rwa [hrow] at this

/-- A Step is claimed only under the current revision; a changed binding pauses the
Run before the revision is looked at. -/
theorem presented_of_applyClaim {isolated : ℕ × String → Bool} {x : Run × Except StoreError Step}
    (hstale : req.expectedRevision ≠ r.revision)
    (h : applyClaim isolated req n token b now (journalled r req kind digest ordinal) = .ok x) :
    ∃ k, presented r token now = some k ∧ bindingChanged r k b ∧ pausable r := by
  simp only [applyClaim, bind_eq_ok] at h
  obtain ⟨k, hk, r₂, hbind, h⟩ := h
  obtain ⟨hrow, hauth⟩ := bound_of_journalled hbind
  rw [bindingChanged_congr hrow hauth] at h
  by_cases hchanged : bindingChanged r k b
  · rw [if_pos hchanged, bind_eq_ok] at h
    obtain ⟨r', hrequire, -⟩ := h
    have := pausable_of_requireAuthorization hrequire
    unfold pausable at this
    rw [hrow] at this
    exact ⟨k, presentedCoordinator_eq_ok.mp hk, hchanged, this⟩
  · simp only [if_neg hchanged, claimFreshExecutionRunStep, committed] at h
    obtain ⟨-, ⟨s, -, ⟨-, -, hrevision, -⟩, -⟩, -⟩ := h
    rw [hrow] at hrevision
    exact absurd hrevision.symm hstale

theorem applyClaim_enabled {isolated : ℕ × String → Bool} (hk : presented r token now = some k)
    (hchanged : bindingChanged r k b) (hpause : pausable r) :
    ∃ r' a, applyClaim isolated req n token b now (journalled r req kind digest ordinal) =
      .ok (r', a) ∧ r'.id = r.id ∧ r' ≠ r := by
  obtain ⟨r₂, hbind, hrow, hauth, -, hopen⟩ :=
    bindExecutionCommandCoordinator_enabled (mem_of_presented hk).1 req kind digest ordinal
  have hpresented : presentedCoordinator (journalled r req kind digest ordinal) token now = .ok k :=
    presentedCoordinator_eq_ok.mpr hk
  have hstate : pausable r₂ := by
    unfold pausable
    rwa [hrow]
  obtain ⟨r', hrequire, hid, hrevision⟩ := requireAuthorization_enabled hopen hstate now
  refine ⟨r', .error .authorization, ?_, by rw [hid, hrow],
    ne_of_revision (by rw [hrevision, hrow])⟩
  simp [applyClaim, hpresented, hbind, bindingChanged_congr hrow hauth, hchanged, hrequire]

/-- The Run and its Step at `ordinal` wait for an owner to ask for a reconciliation. -/
def reconcilable (r : Run) (stepId : UUID) (ordinal : ℕ) : Bool :=
  (r.state = .reconciliationRequired || (r.state = .terminated && r.blockCode.text ≠ "")) &&
    (r.steps.get? ordinal).any fun s => s.id = stepId && s.state = .outcomeUnknown &&
      s.reconcileRequestedAt.isNone && s.claim.isNone && s.isolations.any (·.unresolved)

theorem reconcilable_of_applyReconcile {stepId : UUID} {x : Run × Step}
    (h : applyReconcile req stepId n now (journalled r req kind digest ordinal) = .ok x) :
    reconcilable r stepId n := by
  simp only [applyReconcile, requestExecutionRunStepReconciliation, committed] at h
  obtain ⟨hstate, s, hs, ⟨hid, hunknown, hrequested, hclaim, hisolated⟩, -⟩ := h
  have hs : r.steps.get? n = some s := hs
  have hstate : r.state = .reconciliationRequired ∨
      (r.state = .terminated ∧ r.blockCode.text ≠ "") :=
    hstate
  simp only [reconcilable, hs, any_some, hid, hunknown, hrequested, hclaim, hisolated]
  simpa using hstate

theorem applyReconcile_enabled {stepId : UUID} (h : reconcilable r stepId n) :
    ∃ r' a, applyReconcile req stepId n now (journalled r req kind digest ordinal) = .ok (r', a) ∧
      r'.id = r.id ∧ r' ≠ r := by
  simp only [reconcilable, check_iff, any_eq_true, isNone_iff_eq_none] at h
  obtain ⟨hstate, s, hs, ⟨⟨⟨hid, hunknown⟩, hrequested⟩, hclaim⟩, hisolated⟩ := h
  have hc := s.checked
  let s' : Step := ⟨{ s.toStepRow with
    activeCommand := some req.command, reconcileRequestedAt := some now, nextPollAt := some now },
    hc.source, hc.completed, hc.request, hc.signer, hc.completion, hc.kinds⟩
  refine ⟨(journalled r req kind digest ordinal).putStep s', s', ?_, rfl, ?_⟩
  · simp only [applyReconcile, requestExecutionRunStepReconciliation, committed, Step.write_eq_ok]
    exact ⟨hstate, s, hs, ⟨hid, hunknown, hrequested, hclaim, hisolated⟩, s', rfl, rfl, rfl⟩
  · intro heq
    have := congrArg (fun r : Run => r.commands.length) heq
    simp [journalled, Run.putStep] at this

end stale

/-! The commands that compare the revision. -/

theorem revision_of_applyAuthorize {proofKind : Code} {b : Binding}
    (h : applyAuthorize req proofKind b id now r = .ok x) : r.revision = req.expectedRevision := by
  simp only [applyAuthorize, createExecutionAuthorization, Queries.authorizeExecutionRun,
    committed] at h
  obtain ⟨_, ⟨-, rfl⟩, _, ⟨hrevision, -⟩, -⟩ := h
  exact hrevision.1

theorem revision_of_applyStart {resume : Bool} {b : Binding}
    (h : applyStart resume req b id token now r = .ok x) : r.revision = req.expectedRevision := by
  cases resume with
  | false =>
    simp only [applyStart, Bool.false_eq_true, if_false, startExecutionRun, committed] at h
    obtain ⟨_, ⟨hrevision, -⟩, -⟩ := h
    exact hrevision.1
  | true =>
    simp only [applyStart, if_true, resumeExecutionRun, committed] at h
    obtain ⟨_, ⟨hrevision, -⟩, -⟩ := h
    exact hrevision.1

theorem revision_of_applyPause (h : applyPause req now r = .ok x) :
    r.revision = req.expectedRevision := by
  simp only [applyPause, requestExecutionRunPause, committed] at h
  obtain ⟨_, ⟨hrevision, -⟩, -⟩ := h
  exact hrevision.1

theorem revision_of_applyTerminate (h : applyTerminate req now r = .ok x) :
    r.revision = req.expectedRevision := by
  simp only [applyTerminate, requestExecutionRunTermination, committed] at h
  obtain ⟨_, ⟨hrevision, -⟩, -⟩ := h
  exact hrevision.1

def Rejects (t : Tables) (op : Operation) (now : Time) : Prop :=
  (exec op t now).isOk = false ∧ attempt t (op, now) = t

theorem rejects_of_error {op : Operation} (h : ∀ x, exec op t now ≠ .ok x) : Rejects t op now := by
  unfold Rejects attempt
  cases hexec : exec op t now with
  | ok x => exact absurd hexec (h x)
  | error => exact ⟨rfl, rfl⟩

theorem attempt_ne_self {op : Operation} {a : op.Reply} (hr : r ∈ t.runs)
    (h : exec op t now = .ok (⟨t.runs.put r'⟩, a)) (hid : r'.id = r.id) (hne : r' ≠ r) :
    attempt t (op, now) ≠ t := by
  have hput := put_ne_self hr hid.symm hne
  simp only [attempt, h]
  exact fun heq => hput (congrArg Tables.runs heq)

end Store

/-- The command has an effect on the Run without comparing a revision.  A heartbeat
and a reconciliation never do, an execute-next command does not when the session or
the access of the owner changed. -/
def Operation.ignoresRevision (op : Operation) (r : Run) (now : Time) : Bool :=
  match op with
  | .heartbeat _ token b => 0 < b.accessRevision &&
      (Store.presented r token now).any fun k => !Store.bindingChanged r k b || Store.pausable r
  | .executeNext _ ordinal token b => 0 < ordinal && 0 < b.accessRevision &&
      (Store.presented r token now).any fun k => Store.bindingChanged r k b && Store.pausable r
  | .reconcile _ stepId ordinal => 0 < ordinal && Store.reconcilable r stepId ordinal
  | _ => false

namespace Store

section stale
variable {op : Operation} {kind : CommandKind} {digest : RequestDigest}

section
variable (hcommand : op.command = some (req, kind, digest)) (hget : t.runs.get? req.run = some r)
  (hfree : t.commandOf req.command = none)
include hcommand hget hfree

theorem changes_of_ignoresRevision (hpos : 0 < req.expectedRevision) (howner : r.owner = req.owner)
    (h : op.ignoresRevision r now) : attempt t (op, now) ≠ t := by
  have hr := mem_of_get? hget
  cases op with
  | heartbeat _ _ b =>
    cases hcommand
    simp only [ignoresRevision, check_iff, any_eq_true, Bool.not_eq_true'] at h
    obtain ⟨haccess, k, hk, hpause⟩ := h
    have hpause : bindingChanged r k b → pausable r :=
      fun hchanged => hpause.resolve_left (by simp [hchanged])
    obtain ⟨r', a, hfresh, hid, hne⟩ := applyHeartbeat_enabled hk hpause
    refine attempt_ne_self (a := a) hr ?_ hid hne
    simp only [exec, heartbeatExecutionCoordinator, ensure_of haccess, bind_ok]
    exact (runCommand_eq_ok_fresh hget hfree).mpr ⟨hpos, howner, r', hfresh, rfl⟩
  | executeNext =>
    cases hcommand
    simp only [ignoresRevision, check_iff, any_eq_true] at h
    obtain ⟨hvalid, k, hk, hchanged, hpause⟩ := h
    obtain ⟨r', a, hfresh, hid, hne⟩ := applyClaim_enabled hk hchanged hpause
    refine attempt_ne_self (a := a) hr ?_ hid hne
    simp only [exec, beginExecutionStep, ensure_of hvalid, bind_ok]
    exact (runCommand_eq_ok_fresh hget hfree).mpr ⟨hpos, howner, r', hfresh, rfl⟩
  | reconcile =>
    cases hcommand
    simp only [ignoresRevision, check_iff] at h
    obtain ⟨r', a, hfresh, hid, hne⟩ := applyReconcile_enabled h.2
    refine attempt_ne_self (a := a) hr ?_ hid hne
    simp only [exec, beginExecutionStepReconciliation, ensure_of h.1, bind_ok]
    exact (runCommand_eq_ok_fresh hget hfree).mpr ⟨hpos, howner, r', hfresh, rfl⟩
  | _ => cases h

theorem ignoresRevision_of_ok (hstale : req.expectedRevision ≠ r.revision) {a : op.Reply}
    (h : exec op t now = .ok (t', a)) :
    0 < req.expectedRevision ∧ r.owner = req.owner ∧ op.ignoresRevision r now := by
  cases op with
  | authorize =>
    cases hcommand
    obtain ⟨-, -, r', hfresh, -⟩ := (runCommand_eq_ok_fresh hget hfree).mp (of_ensure h).2
    exact absurd (revision_of_applyAuthorize hfresh).symm hstale
  | startOrResume =>
    cases hcommand
    obtain ⟨-, -, r', hfresh, -⟩ := (runCommand_eq_ok_fresh hget hfree).mp (of_ensure h).2
    exact absurd (revision_of_applyStart hfresh).symm hstale
  | pause =>
    cases hcommand
    simp only [exec, pauseExecutionRun, runCommand_eq_ok_fresh hget hfree] at h
    obtain ⟨-, -, r', hfresh, -⟩ := h
    exact absurd (revision_of_applyPause hfresh).symm hstale
  | terminate =>
    cases hcommand
    simp only [exec, terminateExecutionRun, runCommand_eq_ok_fresh hget hfree] at h
    obtain ⟨-, -, r', hfresh, -⟩ := h
    exact absurd (revision_of_applyTerminate hfresh).symm hstale
  | heartbeat =>
    cases hcommand
    obtain ⟨haccess, h⟩ := of_ensure h
    obtain ⟨hpos, howner, r', hfresh, -⟩ := (runCommand_eq_ok_fresh hget hfree).mp h
    obtain ⟨k, hk, hpause⟩ := presented_of_applyHeartbeat hfresh
    refine ⟨hpos, howner, ?_⟩
    simp only [ignoresRevision, haccess, hk, decide_true, Bool.true_and,
      any_some, Bool.or_eq_true, Bool.not_eq_true']
    exact (Bool.eq_false_or_eq_true _).symm.imp_right hpause
  | executeNext =>
    cases hcommand
    obtain ⟨hvalid, h⟩ := of_ensure h
    obtain ⟨hpos, howner, r', hfresh, -⟩ := (runCommand_eq_ok_fresh hget hfree).mp h
    obtain ⟨k, hk, hchanged, hpause⟩ := presented_of_applyClaim hstale hfresh
    exact ⟨hpos, howner, by simp [ignoresRevision, hvalid, hk, hchanged, hpause]⟩
  | reconcile =>
    cases hcommand
    obtain ⟨hordinal, h⟩ := of_ensure h
    obtain ⟨hpos, howner, r', hfresh, -⟩ := (runCommand_eq_ok_fresh hget hfree).mp h
    exact ⟨hpos, howner, by
      simp [ignoresRevision, hordinal, reconcilable_of_applyReconcile hfresh]⟩
  | _ => cases hcommand

end

/-- A first command with an outdated revision is rejected exactly when it is one that
looks at the revision: a heartbeat, a reconciliation and an execute-next command of a
changed session are applied all the same. -/
theorem stale_rejected_iff (hcommand : op.command = some (req, kind, digest))
    (hget : t.runs.get? req.run = some r) (hfree : t.commandOf req.command = none)
    (hstale : req.expectedRevision ≠ r.revision) :
    Rejects t op now ↔
      ¬(0 < req.expectedRevision ∧ r.owner = req.owner ∧ op.ignoresRevision r now) := by
  constructor
  · rintro hrejects ⟨hpos, howner, hignores⟩
    exact changes_of_ignoresRevision hcommand hget hfree hpos howner hignores hrejects.2
  · intro h
    refine rejects_of_error ?_
    rintro ⟨t', a⟩ hok
    exact h (ignoresRevision_of_ok hcommand hget hfree hstale hok)

open Sample

/-- A pause with an outdated revision is rejected. -/
theorem stale_rejected_iff_pause :
    Rejects (after started) (.pause (request 110 1)) 4 := by
  obtain ⟨r, hget, hrevision⟩ := (any_eq_true _ _).mp
    (by decide : ((after started).runs.get? 1).any fun r => r.revision = 3)
  refine (stale_rejected_iff rfl hget (by decide) ?_).mpr (by rintro ⟨-, -, ⟨⟩⟩)
  simp only [decide_eq_true_eq] at hrevision
  simp [hrevision, request]

/-- The Run is at its third revision, and a heartbeat that expects the first one is
applied. -/
theorem stale_heartbeat_applied : Reachable (after started) ∧
    ((after started).runs.get? 1).map (fun r => r.revision) = some 3 ∧
    (after started).commandOf 110 = none ∧
    ¬Rejects (after started) (.heartbeat (request 110 1) 9 binding) 4 ∧
    ((attempt (after started) (.heartbeat (request 110 1) 9 binding, 4)).runs.get?
      1).map (fun r => r.revision) = some 4 := by
  refine ⟨reachable_after _, by decide, by decide, ?_, by decide⟩
  rintro ⟨hfail, -⟩
  exact absurd hfail (by decide)

end stale

/-! ## Replayed commands -/

theorem record_of_commandOf {id run : UUID} (h : t.commandOf id = some (run, c)) :
    ∃ r ∈ t.runs, r.id = run ∧ r.record id = some (c.kind, c.request) := by
  simp only [Tables.commandOf] at h
  obtain ⟨r, hr, hfind⟩ := List.exists_of_findSome?_eq_some h
  obtain ⟨c', hc', heq⟩ := map_eq_some_iff.mp hfind
  cases heq
  exact ⟨r, hr, rfl, by simp [Run.record, hc']⟩

theorem commandOf_later (hinv : t'.Inv) (hlater : t.Later t') {id run : UUID}
    (h : t.commandOf id = some (run, c)) :
    ∃ c', t'.commandOf id = some (run, c') ∧ c'.kind = c.kind ∧ c'.request = c.request := by
  obtain ⟨r, hr, rfl, hrecord⟩ := record_of_commandOf h
  obtain ⟨r', hr', hkeep⟩ := hlater r hr
  have hrecord' : r'.record id = some (c.kind, c.request) := by
    rw [hkeep.record id (by simp [hrecord]), hrecord]
  cases hfound : t'.commandOf id with
  | none =>
    rw [Run.record_eq_none.mpr (commandOf_eq_none.mp hfound r' hr')] at hrecord'
    cases hrecord'
  | some found =>
    obtain ⟨run, c'⟩ := found
    obtain ⟨u, hu, rfl, hurecord⟩ := record_of_commandOf hfound
    -- the id is journalled once, so it is the journal of the same Run
    have hold : Tables.Holds Run.journals t' (u.id, ()) id :=
      ⟨u, hu, rfl, by simp [Run.journals, hurecord]⟩
    have hold' : Tables.Holds Run.journals t' (r'.id, ()) id :=
      ⟨r', hr', rfl, by simp [Run.journals, hrecord']⟩
    have hid : u.id = r'.id := congrArg Prod.fst (hinv.commands hold hold')
    obtain rfl := eq_of_key_eq hu hr' hid
    rw [hurecord, some.injEq, Prod.mk.injEq] at hrecord'
    exact ⟨c', by rw [hkeep.id], hrecord'⟩

end Store

/-- The command replaces the coordinator of the Run when it is replayed: it is a start
or a resume, and the Run runs under the authorization the command presents. -/
def Operation.rotates (op : Operation) (r : Run) : Bool :=
  match op with
  | .startOrResume _ _ b _ _ => r.state = .running && Store.authorizationHolds r b
  | _ => false

/-- The Run after its active coordinator was released and another became active. -/
def Run.Rotated (r r' : Run) : Prop :=
  ∃ k : Coordinator, k.state = .active ∧
    r' = { r with coordinators := (releaseExecutionCoordinator r).coordinators ++ [k] }

namespace Store

section replay
variable {op : Operation} {kind : CommandKind} {digest : RequestDigest} {t' : Tables}

theorem rotated_of_replayStart {b : Binding} {id : UUID} {token : Digest} {x : Run × Run}
    (h : replayStart b id token now r = .ok x) :
    r.state = .running ∧ authorizationHolds r b ∧ r.Rotated x.1 := by
  simp only [replayStart, rotateCoordinator, createExecutionCoordinator, committed] at h
  obtain ⟨hstate, hholds, ⟨r', k⟩, ⟨-, heq⟩, rfl⟩ := h
  cases heq
  exact ⟨hstate, hholds, _, rfl, rfl⟩

/-- A recorded command answers under its kind and digest only, and leaves the Run
alone unless it rotates the coordinator. -/
theorem replayed_of_ok (hcommand : op.command = some (req, kind, digest)) {run : UUID}
    (hrec : t.commandOf req.command = some (run, c)) {a : op.Reply}
    (h : exec op t now = .ok (t', a)) :
    (req.run = run ∧ kind = c.kind ∧ digest = c.request) ∧
      ∃ r ∈ t.runs, r.id = run ∧
        (t' = t ∨ (op.rotates r ∧ ∃ r', r.Rotated r' ∧ t' = ⟨t.runs.put r'⟩)) := by
  -- one command: how its transaction frames the replay, and what the replay does
  have frame {α : Type} {ordinal : ℕ} {replay : Run → Command → Except StoreError (Run × α)}
      {fresh : Run → Except StoreError (Run × α)} {a : α}
      (h : runCommand t req kind digest ordinal replay fresh = .ok (t', a))
      (hreplay : ∀ r r', replay r c = .ok (r', a) → r' = r ∨ (op.rotates r ∧ r.Rotated r')) :
      (req.run = run ∧ kind = c.kind ∧ digest = c.request) ∧ ∃ r ∈ t.runs, r.id = run ∧
        (t' = t ∨ (op.rotates r ∧ ∃ r', r.Rotated r' ∧ t' = ⟨t.runs.put r'⟩)) := by
    obtain ⟨r, r', hget, -, rfl, ⟨c', hrec', rfl, rfl, hr⟩ | ⟨hfree, -⟩⟩ := runCommand_ok h
    · rw [hrec] at hrec'
      cases hrec'
      refine ⟨⟨rfl, rfl, rfl⟩, r, mem_of_get? hget, id_of_get? hget, ?_⟩
      rcases hreplay r r' hr with rfl | ⟨hrotates, hrotated⟩
      · exact .inl (by rw [put_eq_self (mem_of_get? hget)])
      · exact .inr ⟨hrotates, r', hrotated, rfl⟩
    · rw [commandOf_eq_none.mpr hfree] at hrec
      cases hrec
  have same (r r' a : Run) (h : (pure (r, r) : Except StoreError (Run × Run)) = .ok (r', a)) :
      r' = r := by
    cases h
    rfl
  cases op with
  | authorize | heartbeat =>
    cases hcommand
    exact frame (of_ensure h).2 fun r r' hr => .inl (same r r' _ hr)
  | startOrResume =>
    cases hcommand
    refine frame (of_ensure h).2 fun r r' hr => ?_
    obtain ⟨hstate, hholds, hrotated⟩ := rotated_of_replayStart hr
    exact .inr ⟨by simp [rotates, hstate, hholds], hrotated⟩
  | pause =>
    cases hcommand
    simp only [exec, pauseExecutionRun] at h
    exact frame h fun r r' hr => .inl (same r r' _ hr)
  | terminate =>
    cases hcommand
    simp only [exec, terminateExecutionRun] at h
    exact frame h fun r r' hr => .inl (same r r' _ hr)
  | executeNext =>
    cases hcommand
    exact frame (of_ensure h).2 fun r r' hr => .inl (eq_of_replayClaim hr)
  | reconcile =>
    cases hcommand
    refine frame (of_ensure h).2 fun r r' hr => .inl ?_
    simp only [replayReconcile, committed] at hr
    obtain ⟨_, -, -, rfl, -⟩ := hr
    rfl
  | _ => cases hcommand

/-- Submitting a recorded command again changes nothing, in every later state: under
another Run, kind or digest it is rejected, and under its own it leaves the tables as
they are, but for the coordinator that a start or a resume releases for a new one while the
Run runs. -/
theorem replay_changes_nothing (ht : Reachable t) {run : UUID} {c : Command}
    (hrec : t.commandOf req.command = some (run, c)) (hlater : Reaches t t')
    (hcommand : op.command = some (req, kind, digest)) (now : Time) :
    (¬(req.run = run ∧ kind = c.kind ∧ digest = c.request) → Rejects t' op now) ∧
      (attempt t' (op, now) = t' ∨ ∃ r ∈ t'.runs, r.id = run ∧ op.rotates r ∧
        ∃ r', r.Rotated r' ∧ attempt t' (op, now) = ⟨t'.runs.put r'⟩) := by
  have hinv : t'.Inv := Reachable.inv (Relation.ReflTransGen.trans ht hlater)
  obtain ⟨c', hrec', hkind, hdigest⟩ := commandOf_later hinv hlater.later hrec
  cases hexec : exec op t' now with
  | error =>
    have hsame : attempt t' (op, now) = t' := by simp only [attempt, hexec]
    exact ⟨fun _ => ⟨by rw [hexec]; rfl, hsame⟩, .inl hsame⟩
  | ok x =>
    obtain ⟨t'', a⟩ := x
    have hafter : attempt t' (op, now) = t'' := by simp only [attempt, hexec]
    obtain ⟨⟨hrun, hkind', hdigest'⟩, r, hr, hid, heffect⟩ := replayed_of_ok hcommand hrec' hexec
    refine ⟨fun hother => absurd ⟨hrun, hkind'.trans hkind, hdigest'.trans hdigest⟩ hother, ?_⟩
    rw [hafter]
    exact heffect.imp_right fun ⟨hrotates, hput⟩ => ⟨r, hr, hid, hrotates, hput⟩

open Sample

/-- The sample authorization is submitted again after the start. -/
theorem replay_changes_nothing_sample :
    attempt (after started)
      (.authorize (request 101 1) (.lit "PASSWORD") binding 202, 4) =
      after started := by
  obtain ⟨⟨run, c⟩, hrec⟩ := isSome_iff_exists.mp
    (by decide : ((after started).commandOf (request 101 1).command).isSome)
  refine (replay_changes_nothing (reachable_after started) hrec .refl rfl 4).2.resolve_right ?_
  rintro ⟨_, -, -, ⟨⟩, -⟩

/-- A start that is submitted again gives the Run another active coordinator. -/
theorem replayed_start_rotates : Reachable (after started) ∧
    Operation.command (.startOrResume false (request 102 2) binding 302 11) =
      Operation.command (.startOrResume false (request 102 2) binding 301 9) ∧
    ((after started).commandOf 102).map (fun p => (p.2.kind, p.2.request)) =
      (Operation.command (.startOrResume false (request 102 2) binding 301 9)).map
        (fun p => p.2) ∧
    ((after started).runs.get? 1).bind (fun r => r.activeCoordinator.map fun k => k.id) =
      some 301 ∧
    ((attempt (after started) (.startOrResume false (request 102 2) binding 302 11,
      4)).runs.get? 1).bind (fun r => r.activeCoordinator.map fun k => k.id) = some 302 :=
  ⟨reachable_after _, rfl, by decide, by decide, by decide⟩

end replay

end Store
end Athena.Execution
