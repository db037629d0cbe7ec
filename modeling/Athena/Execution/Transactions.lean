import Athena.Execution.RunMoves

/-!
# Transactions are moves

Each transaction of the store, once it succeeds, is one move of the Run it locked.
The lemmas follow the code: first the statements that touch nothing a move speaks
of, then the frame of a command, then each command and each method of a worker.
-/

namespace Athena.Execution

open Athena.Lib Table Queries Option List Run Step

namespace Store

/-! ## Statements that only touch a Run -/

section touches
variable {t : Tables} {command : UUID} {r r' : Run}

variable {id : UUID}

theorem record_map {l : List Command} {f : Command → Command}
    (hf : ∀ c, (f c).id = c.id ∧ (f c).kind = c.kind ∧ (f c).request = c.request) :
    (((l.map f).find? fun c => c.id = id).map fun c => (c.kind, c.request)) =
      (l.find? fun c => c.id = id).map fun c => (c.kind, c.request) := by
  induction l with
  | nil => rfl
  | cons c l ih =>
    obtain ⟨hid, hkind, hrequest⟩ := hf c
    by_cases h : c.id = id
    · simp only [map_cons, find?_cons, hid, h, decide_true, map_some, hkind,
        hrequest]
    · simp only [map_cons, find?_cons, hid, h, decide_false, ih]

theorem touches_updateCommand {p : Command → Bool} {f : Command → Command}
    (h : updateCommand r command p f = .ok r')
    (hf : ∀ c, (f c).id = c.id ∧ (f c).kind = c.kind ∧ (f c).request = c.request) :
    r.Touches t command r' := by
  simp only [updateCommand, committed] at h
  obtain ⟨-, rfl⟩ := h
  refine .of_row rfl rfl rfl rfl rfl rfl ?_ (.of_eq (funext fun id => record_map ?_))
    (.of_eq rfl rfl rfl rfl)
  · intro c hc hne
    exact mem_map.mpr ⟨c, hc, by simp [hne]⟩
  · intro c
    split
    · exact hf c
    · exact ⟨rfl, rfl, rfl⟩

theorem touches_completeExecutionCommand {code : Code}
    (h : completeExecutionCommand r command code = .ok r') : r.Touches t command r' :=
  touches_updateCommand h fun _ => ⟨rfl, rfl, rfl⟩

theorem touches_bindExecutionCommandCoordinator {k : Coordinator}
    (h : bindExecutionCommandCoordinator r command k = .ok r') : r.Touches t command r' :=
  touches_updateCommand h fun _ => ⟨rfl, rfl, rfl⟩

theorem keeps_releaseExecutionCoordinator : r.Keeps t (releaseExecutionCoordinator r) :=
  ⟨⟨rfl, rfl, rfl, rfl, rfl, rfl, rfl, rfl, .of_eq rfl, tidies_release⟩, rfl, rfl, rfl, rfl, rfl⟩

theorem touches_releaseExecutionCoordinator :
    r.Touches t command (releaseExecutionCoordinator r) :=
  ⟨keeps_releaseExecutionCoordinator, rfl, rfl, rfl, fun _ h _ => h⟩

theorem touches_supersedeExecutionAuthorization :
    r.Touches t command (supersedeExecutionAuthorization r) :=
  .of_journal rfl rfl rfl rfl rfl rfl rfl (tidies_endAuthorizations (by decide))

theorem touches_createExecutionAuthorization {id : UUID} {proofKind : Code} {session : Digest}
    {accessRevision : ℕ} (hopen : r'.state.terminal = false)
    (h : createExecutionAuthorization (supersedeExecutionAuthorization r) id
      proofKind session accessRevision = .ok r') : r.Touches t command r' := by
  simp only [createExecutionAuthorization, committed] at h
  obtain ⟨-, rfl⟩ := h
  have hzero : (endAuthorizations r .superseded).usableAuthorizations = 0 :=
    usableAuthorizations_end (by decide)
  refine .of_journal rfl rfl rfl rfl rfl rfl rfl ⟨rfl, fun _ h => ?_, fun h => h, fun _ => ?_⟩
  · exact Bool.noConfusion (h.symm.trans hopen)
  · rw [usableAuthorizations] at hzero
    simp [usableAuthorizations, supersedeExecutionAuthorization, countP_append,
      hzero]

theorem touches_rotateCoordinator {b : Binding} {token : Digest} {now : Time} {k : Coordinator}
    (hopen : r.state.terminal = false) (h : rotateCoordinator r b id token now = .ok (r', k)) :
    r.Touches t command r' := by
  simp only [rotateCoordinator, createExecutionCoordinator, committed] at h
  obtain ⟨-, rfl, -⟩ := h
  have hzero := activeCoordinators_release (r := r)
  refine .of_journal rfl rfl rfl rfl rfl rfl rfl ⟨rfl, fun _ h => ?_, fun _ => ?_, fun h => h⟩
  · exact Bool.noConfusion (h.symm.trans hopen)
  · rw [activeCoordinators] at hzero
    simp [activeCoordinators, countP_append, hzero]

theorem touches_heartbeatExecutionCoordinator {token session : Digest} {accessRevision : ℕ}
    {lease now : Time} (h : Queries.heartbeatExecutionCoordinator r token session accessRevision
      lease now = .ok r') : r.Touches t command r' := by
  simp only [Queries.heartbeatExecutionCoordinator, committed] at h
  obtain ⟨-, rfl⟩ := h
  refine .of_journal rfl rfl rfl rfl rfl rfl rfl (.of_le rfl (fun h => h) ?_ le_rfl)
  simp only [activeCoordinators, countP_map]
  refine (countP_mono_left ?_).trans le_rfl
  intro c _ hc
  dsimp only [Function.comp] at hc
  split at hc <;> simpa using hc

theorem touches_touchExecutionRunRevision (h : touchExecutionRunRevision r = .ok r') :
    r.Touches t command r' := by
  obtain ⟨hc, rfl⟩ := writeRow_eq_ok.mp h
  exact ⟨⟨⟨rfl, rfl, rfl, rfl, rfl, rfl, rfl, rfl, .of_eq rfl, .of_eq rfl rfl rfl rfl⟩, rfl, rfl,
    rfl, rfl, rfl⟩, rfl, rfl, rfl,
    fun _ h _ => h⟩

end touches

/-! ## The frame of a command -/

def journalled (r : Run) (req : CommandRequest) (kind : CommandKind) (digest : RequestDigest)
    (stepOrdinal : ℕ) : Run :=
  { r with commands := r.commands ++
    [{ id := req.command, kind, state := .inProgress, request := digest
       runRevisionBefore := r.revision, stepOrdinal }] }

theorem commandOf_eq_none {t : Tables} {id : UUID} :
    t.commandOf id = none ↔ ∀ r ∈ t.runs, ∀ c ∈ r.commands, c.id ≠ id := by
  simp [Tables.commandOf, ← mem_rows]

theorem beginExecutionCommand_createExecutionCommand {r r' : Run} {req : CommandRequest}
    {kind : CommandKind} {digest : RequestDigest} {ordinal : ℕ}
    (hfresh : ∀ c ∈ r.commands, c.id ≠ req.command)
    (h : beginExecutionCommand
      (createExecutionCommand r req.command kind digest ordinal) req.command = .ok r') :
    r' = journalled r req kind digest ordinal := by
  simp only [beginExecutionCommand, updateCommand, committed] at h
  obtain ⟨-, rfl⟩ := h
  have hsame : (r.commands.map fun c => if c.id = req.command && c.state = .accepted then
      { c with state := .inProgress } else c) = r.commands := by
    conv_rhs => rw [← map_id r.commands]
    apply map_congr_left
    intro c hc
    simp [hfresh c hc]
  simp only [createExecutionCommand, journalled, map_append, hsame, map_cons,
    map_nil]
  simp

/-- What a successful command did: it replayed a recorded command, or it journalled
a new one and applied it. -/
theorem runCommand_ok {α : Type} {t t' : Tables} {req : CommandRequest} {kind : CommandKind}
    {digest : RequestDigest} {ordinal : ℕ} {replay : Run → Command → Except StoreError (Run × α)}
    {fresh : Run → Except StoreError (Run × α)} {a : α}
    (h : runCommand t req kind digest ordinal replay fresh = .ok (t', a)) :
    ∃ r r', t.runs.get? req.run = some r ∧ r.owner = req.owner ∧ t' = ⟨t.runs.put r'⟩ ∧
      ((∃ c, t.commandOf req.command = some (req.run, c) ∧ c.kind = kind ∧ c.request = digest ∧
          replay r c = .ok (r', a)) ∨
        ((∀ u ∈ t.runs, ∀ c ∈ u.commands, c.id ≠ req.command) ∧
          fresh (journalled r req kind digest ordinal) = .ok (r', a))) := by
  simp only [runCommand, beginExecutionRunCommand, committed, filter_eq_some_iff,
    decide_eq_true_eq, Prod.exists] at h
  obtain ⟨r₁, recorded, ⟨-, r, ⟨hget, howner⟩, hbegin⟩, hrest⟩ := h
  cases hc : t.commandOf req.command with
  | none =>
    simp only [hc, committed] at hbegin
    obtain ⟨r₂, hbegin, rfl, rfl⟩ := hbegin
    have hfresh := commandOf_eq_none.mp hc
    rw [beginExecutionCommand_createExecutionCommand (hfresh r (mem_of_get? hget)) hbegin]
      at hrest
    simp only [committed, Prod.exists] at hrest
    obtain ⟨r', a, hrest, rfl, rfl⟩ := hrest
    exact ⟨r, r', hget, howner, rfl, .inr ⟨hfresh, hrest⟩⟩
  | some found =>
    obtain ⟨runId, c⟩ := found
    simp only [hc, committed]
      at hbegin
    obtain ⟨⟨rfl, hkind, hdigest, -⟩, rfl, rfl⟩ := hbegin
    simp only [committed, Prod.exists] at hrest
    obtain ⟨r', a, hrest, rfl, rfl⟩ := hrest
    exact ⟨r, r', hget, howner, rfl, .inl ⟨c, rfl, hkind, hdigest, hrest⟩⟩

/-! ## Commands that leave every Step as it is -/

section control
variable {t : Tables} {command : UUID} {r r₁ r₂ r' : Run}

theorem touches_journalled (req : CommandRequest) (kind : CommandKind) (digest : RequestDigest)
    (ordinal : ℕ) (hfree : t.commandOf req.command = none) :
    r.Touches t req.command (journalled r req kind digest ordinal) := by
  refine .of_row rfl rfl rfl rfl rfl rfl (fun _ h _ => mem_append_left _ h) ⟨?_, ?_⟩
    (.of_eq rfl rfl rfl rfl)
  · intro id hsome
    unfold record at *
    rw [isSome_map] at hsome
    obtain ⟨c, hc⟩ := isSome_iff_exists.mp hsome
    simp only [journalled, find?_append, hc, some_or]
  · intro id hnone hsome
    by_cases hid : id = req.command
    · exact hid ▸ hfree
    · have hne : ¬req.command = id := fun h => hid h.symm
      simp only [record, map_eq_none_iff] at hnone
      simp [record, journalled, find?_append, hnone, hne] at hsome

theorem hasActiveStep_of_touches (h : r.Touches t command r₁) :
    r₁.hasActiveStep = r.hasActiveStep := by simp [hasActiveStep, h.steps]

theorem hasMutatingStep_of_touches (h : r.Touches t command r₁) :
    r₁.hasMutatingStep = r.hasMutatingStep := by simp [hasMutatingStep, h.steps]

theorem control_of_touches (h : r.Touches t command r₁) {state : RunState}
    (hc : r₁.Control state) : r.Control state := by
  have hs := h.state
  have ha := hasActiveStep_of_touches h
  have hm := hasMutatingStep_of_touches h
  cases hc with
  | same => exact hs ▸ .same
  | authorize h => exact .authorize (hs ▸ h)
  | start h => exact .start (hs ▸ h)
  | resume h => exact .resume (hs ▸ h)
  | pause h idle => exact .pause (hs ▸ h) (ha ▸ idle)
  | awaitPause h busy => exact .awaitPause (hs ▸ h) (ha ▸ busy)
  | failurePause h idle => exact .failurePause (hs ▸ h) (hm ▸ idle)
  | awaitTermination h busy => exact .awaitTermination (hs ▸ h) (ha ▸ busy)

variable {e : Event} {id : UUID} {token : Digest} {code : Code} {req : CommandRequest} {b : Binding}
  {now : Time} {a : Run}

theorem pausing_not_terminal {busy : Bool} {row : RunRow} :
    (pausing busy code now row).state.terminal = false := by
  cases busy <;> rfl

theorem control_pausing (h : r.state = .running ∨ r.state = .pauseRequested) :
    r.Control (pausing r.hasActiveStep code now r.toRunRow).state := by
  cases ha : r.hasActiveStep
  · exact .pause h ha
  · exact .awaitPause h ha

theorem move_replayStart (h : replayStart b id token now r = .ok (r', a)) :
    Move t .plain r r' := by
  simp only [replayStart, committed, Prod.exists] at h
  obtain ⟨hstate, -, r₁, k, hrotate, rfl, -⟩ := h
  have htouch : r.Touches t k.id r₁ := touches_rotateCoordinator (by rw [hstate]; rfl) hrotate
  refine .control htouch.toKeeps htouch.steps ?_ (htouch.state ▸ .same) rfl
  simp only [rotateCoordinator, createExecutionCoordinator, committed] at hrotate
  obtain ⟨-, rfl, -⟩ := hrotate
  exact fun _ h => h

theorem move_applyFailurePause (h : applyFailurePause code now r = .ok (r', a)) :
    Move t .plain r r' := by
  simp only [applyFailurePause, Queries.pauseExecutionRunForFailure, committed,
    writeRow_eq_ok] at h
  obtain ⟨_, ⟨hstate, hc, rfl⟩, rfl, -⟩ := h
  have hkeeps : r.Keeps t (r.withRow _ hc) :=
    .withRow hc (by constructor <;> rfl) pausing_not_terminal
  refine .control (hkeeps.trans keeps_releaseExecutionCoordinator) rfl
    (fun _ h => h) ?_ rfl
  show r.Control (pausing r.hasMutatingStep code now r.toRunRow).state
  cases hm : r.hasMutatingStep
  · exact .failurePause hstate hm
  · refine .awaitPause (.inl hstate) ?_
    obtain ⟨s, hs, hmut⟩ := any_eq_true.mp hm
    exact any_eq_true.mpr ⟨s, hs, StepState.active_of_mutating hmut⟩

section
variable (he : e.ofCommand) (hfresh : ∀ c ∈ r.commands, c.id ≠ command)
include he hfresh

theorem move_control (before : r.Touches t command r₁) (keeps : r₁.Keeps t r₂)
    (steps : r₂.steps = r₁.steps) (commands : r₂.commands = r₁.commands)
    (state : r₁.Control r₂.state) (after : r₂.Touches t command r') : Move t e r r' := by
  refine .control (before.toKeeps.trans (keeps.trans after.toKeeps))
    (after.steps.trans (steps.trans before.steps)) ?_
    (after.state ▸ control_of_touches before state) he
  intro c hc
  exact after.commands c (commands ▸ before.commands c hc (hfresh c hc)) (hfresh c hc)

theorem move_steered (before : r.Touches t command r₁) {row : RunRow} {hc : row.Checked}
    (after : (r₁.withRow row hc).Touches t command r') (steers : r₁.toRunRow.Steers row)
    (open_ : row.state.terminal = false) (state : r₁.Control row.state) : Move t e r r' :=
  move_control he hfresh before (.withRow hc steers open_) rfl rfl state after

theorem move_touches (h : r.Touches t command r') : Move t e r r' :=
  move_control he hfresh (.refl t _ r) (.refl t r) rfl rfl .same h

theorem move_requireAuthorization (before : r.Touches t command r₁)
    (h : requireAuthorization r₁ command now = .ok r') : Move t e r r' := by
  simp only [requireAuthorization, pauseExecutionRunForReauthorization,
    Queries.pauseExecutionRunForReauthorization, committed, writeRow_eq_ok] at h
  obtain ⟨_, ⟨_, ⟨hstate, hc, rfl⟩, rfl⟩, hcomplete⟩ := h
  exact move_steered he hfresh (before.trans touches_supersedeExecutionAuthorization)
    (touches_releaseExecutionCoordinator.trans (touches_completeExecutionCommand hcomplete))
    (by constructor <;> rfl) pausing_not_terminal (control_pausing hstate)

end

variable (hfresh : ∀ c ∈ r.commands, c.id ≠ req.command) (before : r.Touches t req.command r₁)
include hfresh before

theorem move_applyAuthorize {proofKind : Code}
    (h : applyAuthorize req proofKind b id now r₁ = .ok (r', a)) : Move t .plain r r' := by
  simp only [applyAuthorize, Queries.authorizeExecutionRun, committed, writeRow_eq_ok] at h
  obtain ⟨r₂, hcreate, r₃, ⟨⟨-, hstate⟩, hc, rfl⟩, r₄, hcomplete, rfl, -⟩ := h
  have hopen : r₂.state.terminal = false := by
    rcases hstate with h | h | h | h <;> rw [h] <;> rfl
  have htouch : r.Touches t req.command r₂ :=
    before.trans (touches_createExecutionAuthorization hopen hcreate)
  refine move_steered rfl hfresh htouch (touches_completeExecutionCommand hcomplete)
    (by constructor <;> rfl) ?_ ?_
  all_goals dsimp only; split
  · rfl
  · exact hopen
  · exact .authorize ‹_›
  · exact .same

theorem move_applyStart {resume : Bool}
    (h : applyStart resume req b id token now r₁ = .ok (r', a)) : Move t .plain r r' := by
  have after {r₂ r₃ r₄ r₅ : Run} {k : Coordinator} (hrunning : r₂.state = .running)
      (hrotate : rotateCoordinator r₂ b id token now = .ok (r₃, k))
      (hbind : bindExecutionCommandCoordinator r₃ req.command k = .ok r₄) {code : Code}
      (hcomplete : completeExecutionCommand r₄ req.command code = .ok r₅) :
      r₂.Touches t req.command r₅ :=
    (touches_rotateCoordinator (by rw [hrunning]; rfl) hrotate).trans
      ((touches_bindExecutionCommandCoordinator hbind).trans
        (touches_completeExecutionCommand hcomplete))
  cases resume
  · simp only [applyStart, Bool.false_eq_true, if_false, startExecutionRun, committed,
      writeRow_eq_ok, Prod.exists] at h
    obtain ⟨_, ⟨⟨-, hstate, -⟩, hc, rfl⟩, r₃, k, hrotate, r₄, hbind, r₅, hcomplete, rfl, -⟩ := h
    exact move_steered rfl hfresh before (after rfl hrotate hbind hcomplete)
      (by constructor <;> rfl) rfl (.start hstate)
  · simp only [applyStart, if_true, resumeExecutionRun, committed, writeRow_eq_ok,
      Prod.exists] at h
    obtain ⟨_, ⟨⟨-, hstate, -⟩, hc, rfl⟩, r₃, k, hrotate, r₄, hbind, r₅, hcomplete, rfl, -⟩ := h
    exact move_steered rfl hfresh before (after rfl hrotate hbind hcomplete)
      (by constructor <;> rfl) rfl (.resume hstate)

theorem move_applyPause (h : applyPause req now r₁ = .ok (r', a)) : Move t .plain r r' := by
  simp only [applyPause, requestExecutionRunPause, committed, writeRow_eq_ok] at h
  obtain ⟨r₂, ⟨⟨-, hstate⟩, hc, rfl⟩, r₃, hcomplete, rfl, -⟩ := h
  have release : (r₁.withRow _ hc).Touches t req.command (if (r₁.withRow _ hc).state = .paused then
      releaseExecutionCoordinator (r₁.withRow _ hc) else r₁.withRow _ hc) := by
    split
    · exact touches_releaseExecutionCoordinator
    · exact .refl _ _ _
  exact move_steered rfl hfresh before (release.trans (touches_completeExecutionCommand hcomplete))
    (by constructor <;> rfl) pausing_not_terminal (control_pausing (.inl hstate))

theorem move_applyHeartbeat (h : applyHeartbeat req token b now r₁ = .ok (r', a)) :
    Move t .plain r r' := by
  simp only [applyHeartbeat, bind_eq_ok] at h
  obtain ⟨k, -, r₂, hbind, h⟩ := h
  have htouch := before.trans (touches_bindExecutionCommandCoordinator hbind)
  split at h
  · simp only [committed] at h
    obtain ⟨r₃, hrequire, rfl, -⟩ := h
    exact move_requireAuthorization rfl hfresh htouch hrequire
  · simp only [committed] at h
    obtain ⟨r₃, hbeat, r₄, hrevision, r₅, hcomplete, rfl, -⟩ := h
    exact move_touches rfl hfresh (htouch.trans ((touches_heartbeatExecutionCoordinator hbeat).trans
      ((touches_touchExecutionRunRevision hrevision).trans
        (touches_completeExecutionCommand hcomplete))))

end control

/-! ## Counting and ending -/

section ending
variable {r r' : Run} {now : Time}

theorem refreshExecutionRunProgress_ok (t : Tables) (h : refreshExecutionRunProgress r = .ok r') :
    r.Recounts t r' ∧ r'.steps = r.steps := by
  obtain ⟨hc, rfl⟩ := writeRow_eq_ok.mp h
  exact ⟨⟨⟨rfl, rfl, rfl, rfl, rfl, rfl, rfl, rfl, .of_eq rfl, .of_eq rfl rfl rfl rfl⟩, rfl, rfl,
    ⟨rfl, rfl⟩, rfl, rfl, rfl⟩, rfl⟩

variable {s s' : Step}

theorem mem_endPendingWhere {p : Step → Bool} {e : PendingEnd} {code : Code} :
    s ∈ (endPendingWhere r p e code now).steps ↔
      ∃ u ∈ r.steps, endPendingIf p e code now u = s :=
  (mem_update : s ∈ r.steps.update _ (ordinal_endPendingIf p e code now) ↔ _)

theorem rel_endPendingWhere (p : Step → Bool) (e : PendingEnd) (code : Code) :
    r.steps.Rel Left (endPendingWhere r p e code now).steps := by
  refine rel_update _ (ordinal_endPendingIf p e code now) ?_
  intro s _
  unfold endPendingIf
  split
  · rename_i h
    exact .inr ⟨h.1, e, code, now, rfl⟩
  · exact .inl rfl

theorem not_pending_of_markPending {code : Code} :
    ∀ s ∈ (markPendingExecutionRunStepsNotExecuted r code now).steps,
      s.state ≠ .pending := by
  intro s hs
  obtain ⟨u, -, rfl⟩ := mem_endPendingWhere.mp hs
  unfold endPendingIf
  split
  · simp [endPending, PendingEnd.state]
  · rename_i h
    simpa using h

theorem endPendingSteps_ok (t : Tables) (h : endPendingSteps r now = .ok r') :
    r.Recounts t r' ∧ r.steps.Rel Left r'.steps ∧ ∀ s ∈ r'.steps, s.state ≠ .pending := by
  obtain ⟨hrec, hsteps⟩ := refreshExecutionRunProgress_ok t h
  have hfirst : r.Frozen t (markPendingExecutionRunStepsNotExecuted r
      .runTerminated now) := (Keeps.withSteps t r _).toFrozen
  refine ⟨⟨hfirst.trans hrec.toFrozen, hrec.current, hrec.state, hrec.locks, hrec.commands,
    hrec.refreshed⟩, ?_, ?_⟩
  · rw [hsteps]
    exact rel_endPendingWhere _ _ _
  · rw [hsteps]
    exact not_pending_of_markPending

theorem settleRun_ok (t : Tables) (hr : r.Refreshed) (h : settleRun r now = .ok r') :
    r.Frozen t r' ∧ r.steps.Rel Left r'.steps ∧ r.Settled r' := by
  have left : r.steps.Rel Left r.steps := .refl fun _ _ => .inl rfl
  unfold settleRun at h
  split at h
  · rename_i hstate
    simp only [checkpointExecutionRunPaused, committed, writeRow_eq_ok] at h
    obtain ⟨_, ⟨-, hc, rfl⟩, rfl⟩ := h
    have hkeeps : r.Keeps t (r.withRow _ hc) :=
      .withRow hc (by constructor <;> rfl) rfl
    exact ⟨hkeeps.toFrozen.trans keeps_releaseExecutionCoordinator.toFrozen, left,
      .paused hstate rfl (hr.congr rfl rfl rfl) ⟨rfl, rfl⟩⟩
  · rename_i hstate
    simp only [completeExecutionRunTermination, committed, writeRow_eq_ok] at h
    obtain ⟨r₁, hend, _, ⟨-, hc, rfl⟩, rfl⟩ := h
    obtain ⟨hrec, hleft, hswept⟩ := endPendingSteps_ok t hend
    have hlast : r₁.Frozen t (closeTerminalExecutionRun (r₁.withRow _ hc)) :=
      ⟨rfl, rfl, rfl, rfl, rfl, rfl, rfl, rfl, .of_eq rfl, tidies_close rfl⟩
    exact ⟨hrec.toFrozen.trans hlast, hleft,
      .terminated hstate rfl (hrec.refreshed.congr rfl rfl rfl) hswept ⟨rfl, rfl⟩⟩
  · rename_i hstate
    split at h
    · rename_i hall
      simp only [completeExecutionRun, committed, writeRow_eq_ok] at h
      obtain ⟨_, ⟨-, hc, rfl⟩, rfl⟩ := h
      exact ⟨⟨rfl, rfl, rfl, rfl, rfl, rfl, rfl, rfl, .of_eq rfl, tidies_close rfl⟩, left,
        .completed hstate rfl hr.counts rfl hall ⟨rfl, rfl⟩⟩
    · obtain ⟨hc, rfl⟩ := writeRow_eq_ok.mp h
      exact ⟨⟨rfl, rfl, rfl, rfl, rfl, rfl, rfl, rfl, .of_eq rfl, .of_eq rfl rfl rfl rfl⟩, left,
        .continued (by simp [hstate]) rfl (hr.congr rfl rfl rfl) ⟨rfl, rfl⟩⟩
  · rename_i hpause _ _
    obtain ⟨hc, rfl⟩ := writeRow_eq_ok.mp h
    exact ⟨⟨rfl, rfl, rfl, rfl, rfl, rfl, rfl, rfl, .of_eq rfl, .of_eq rfl rfl rfl rfl⟩, left,
      .continued hpause rfl (hr.congr rfl rfl rfl) ⟨rfl, rfl⟩⟩

theorem settled_congr {r₀ : Run} (h : r.Settled r') (state : r.state = r₀.state)
    (locks : r₀.LocksKept r) : r₀.Settled r' := by
  cases h with
  | paused h h' hr hl => exact .paused (state ▸ h) h' hr (locks.trans hl)
  | terminated h h' hr swept released => exact .terminated (state ▸ h) h' hr swept released
  | completed h h' counts next all released =>
    exact .completed (state ▸ h) h' counts next all released
  | continued h h' hr hl => exact .continued (state ▸ h) (h'.trans state) hr (locks.trans hl)

theorem finalizeExecutionStepProgress_ok (t : Tables)
    (h : finalizeExecutionStepProgress r now = .ok r') :
    r.Frozen t r' ∧ r.steps.Rel Left r'.steps ∧ r.Settled r' := by
  simp only [finalizeExecutionStepProgress, bind_eq_ok] at h
  obtain ⟨r₁, hrefresh, h⟩ := h
  obtain ⟨hrec, hsteps⟩ := refreshExecutionRunProgress_ok t hrefresh
  obtain ⟨hfrozen, hleft, hsettled⟩ := settleRun_ok t hrec.refreshed h
  exact ⟨hrec.toFrozen.trans hfrozen, hsteps ▸ hleft,
    settled_congr hsettled hrec.state hrec.locks⟩

theorem rel_sweep_left {t t' t'' : Table fun s : Step => s.ordinal} (h : t.Rel (Sweep s s') t')
    (h' : t'.Rel Left t'') (hs : s'.state ≠ .pending) : t.Rel (Sweep s s') t'' := by
  refine h.trans h' ?_
  intro a b c hab hbc
  rcases hbc with rfl | hend
  · exact hab
  · cases hab with
    | self => exact absurd hend.pending hs
    | other hne => exact .ended hne hend
    | ended _ hfirst =>
      obtain ⟨e, code, now, hrow⟩ := hfirst.row
      have := hend.pending
      rw [hrow] at this
      cases e <;> cases this

theorem rel_sweep_put (hs : s ∈ r.steps) (hord : s'.ordinal = s.ordinal) :
    r.steps.Rel (Sweep s s') (r.steps.put s') :=
  rel_put hs hord .self fun _ _ hne => .other hne

theorem stepCounts_put (hs : s ∈ r.steps) (hord : s'.ordinal = s.ordinal)
    (hstate : s'.state = s.state ∨ s.state.terminal = false ∧ s'.state.terminal = false)
    (steps : r'.steps = r.steps.put s') : r'.stepCounts = r.stepCounts :=
  stepCounts_of_rel (steps ▸ rel_put hs hord hstate fun _ _ _ => .inl rfl)

theorem skipScope_eq (r : Run) (s : StepRow) (scope : Option StepScope) (code : Code) (now : Time) :
    ∃ steps, skipScope r s scope code now = { r with steps := steps } ∧ r.steps.Rel Left steps := by
  unfold skipScope
  split
  · split
    · exact ⟨_, rfl, rel_endPendingWhere _ _ _⟩
    · exact ⟨_, rfl, .refl fun _ _ => .inl rfl⟩
  · exact ⟨_, rfl, .refl fun _ _ => .inl rfl⟩

end ending

/-! ## Termination, claims and reconciliation -/

section commands
variable {t : Tables} {r r₁ r' : Run} {req : CommandRequest} {now : Time}

theorem requestExecutionRunTermination_ok {revision : ℕ}
    (h : requestExecutionRunTermination r revision now = .ok r') :
    r.state.terminal = false ∧ ∃ row hc, r' = r.withRow row hc ∧ r.toRunRow.Steers row ∧
      ((row.state = .terminated ∧ (r.startedAt = none ∨ r.hasActiveStep = false)) ∨
        (row.state = .terminateRequested ∧ r.hasActiveStep)) := by
  simp only [requestExecutionRunTermination, committed, writeRow_eq_ok] at h
  obtain ⟨⟨-, hstate⟩, hc, rfl⟩ := h
  refine ⟨?_, _, hc, rfl, by constructor <;> rfl, ?_⟩
  · rcases hstate with h | h | h | h | h | h <;> rw [h] <;> rfl
  · cases hidle : r.startedAt.isNone || !r.hasActiveStep
    · simp only [Bool.or_eq_false_iff, Bool.not_eq_false'] at hidle
      exact .inr ⟨rfl, hidle.2⟩
    · exact .inl (by simpa using hidle)

theorem move_applyReconcile {stepId : UUID} {ordinal : ℕ} {a : Step} {digest : RequestDigest}
    (hfree : t.commandOf req.command = none)
    (h : applyReconcile req stepId ordinal now (journalled r req .reconcile digest ordinal) =
      .ok (r', a)) : Move t .plain r r' := by
  simp only [applyReconcile, requestExecutionRunStepReconciliation, committed,
    write_eq_ok] at h
  obtain ⟨-, s, hget, ⟨-, hunknown, -⟩, s', hrow, rfl, -⟩ := h
  have hput : (journalled r req .reconcile digest ordinal).Keeps t
      ((journalled r req .reconcile digest ordinal).putStep s') := .withSteps t _ _
  refine .hold .plain s s' (mem_of_get? hget) (hrow ▸ .reconcile _ _ hunknown) rfl
    ((touches_journalled req .reconcile digest ordinal hfree).toKeeps.trans hput) rfl ?_
    (.inl (by rw [hunknown]; rfl)) ?_
  · intro _ _
    refine ⟨_, mem_append_right _ (mem_singleton_self _), ?_, rfl, ?_, ?_⟩
    · rw [hrow]
    · simp [hrow, StepRow.commandKind, hunknown]
    · rw [hrow]
      exact (get?_eq_some.mp hget).2.symm
  · intro k a hnone hsome
    have hsome : s.attempt k = some a := by rw [hrow] at hsome; cases k <;> exact hsome
    simp [hnone] at hsome

variable (hfresh : ∀ c ∈ r.commands, c.id ≠ req.command) (before : r.Touches t req.command r₁)
include hfresh before

theorem move_applyTerminate {a : Run} (h : applyTerminate req now r₁ = .ok (r', a)) :
    Move t .plain r r' := by
  simp only [applyTerminate, bind_eq_ok] at h
  obtain ⟨_, hrequest, h⟩ := h
  obtain ⟨hopen, row, hc, rfl, hsteers, hcase⟩ := requestExecutionRunTermination_ok hrequest
  rcases hcase with ⟨hstate, hidle⟩ | ⟨hstate, hbusy⟩
  · simp only [withRow, hstate, if_true, committed] at h
    obtain ⟨r₃, hend, r₄, hcomplete, rfl, -⟩ := h
    obtain ⟨hrec, hleft, hswept⟩ := endPendingSteps_ok t hend
    have after : (closeTerminalExecutionRun r₃).Touches t req.command r₄ :=
      touches_completeExecutionCommand hcomplete
    have hclosed : r₁.Frozen t (closeTerminalExecutionRun r₃) := .close hc hsteers hrec.toFrozen
    have hrefreshed : (closeTerminalExecutionRun r₃).Refreshed := hrec.refreshed.congr rfl rfl rfl
    refine .terminate (before.toFrozen.trans (hclosed.trans after.toFrozen))
      (before.state ▸ hopen) ?_ (after.state.trans (hrec.state.trans hstate)) ?_ ?_ ?_
      (hrefreshed.of_touches after) ⟨after.locks.1, after.locks.2⟩ ?_
    · rw [← before.startedAt, ← hasActiveStep_of_touches before]
      exact hidle
    · exact after.current.trans (hrec.current.trans (hsteers.current.trans before.current))
    · rw [after.steps, ← before.steps]
      exact hleft
    · rw [after.steps]
      exact hswept
    · intro c hmem
      have hkept := before.commands c hmem (hfresh c hmem)
      exact after.commands c (hrec.commands.symm ▸ hkept) (hfresh c hmem)
  · simp only [withRow, hstate, reduceCtorEq, if_false, committed] at h
    obtain ⟨r₃, hcomplete, rfl, -⟩ := h
    exact move_steered rfl hfresh before (touches_completeExecutionCommand hcomplete) hsteers
      (by rw [hstate]; rfl) (hstate ▸ .awaitTermination hopen hbusy)

theorem move_applyClaim {ordinal : ℕ} {token : Digest} {b : Binding} {a : Except StoreError Step}
    (h : applyClaim t.pairIsolated req ordinal token b now r₁ = .ok (r', a)) :
    Move t .starting r r' := by
  simp only [applyClaim, bind_eq_ok] at h
  obtain ⟨k, -, r₂, hbind, h⟩ := h
  have htouch := before.trans (touches_bindExecutionCommandCoordinator hbind)
  split at h
  · simp only [committed] at h
    obtain ⟨r₃, hrequire, rfl, -⟩ := h
    exact move_requireAuthorization rfl hfresh htouch hrequire
  · simp only [claimFreshExecutionRunStep, setExecutionRunCurrentStep, committed, Prod.exists,
      writeRow_eq_ok, write_eq_ok] at h
    obtain ⟨_, _, ⟨s, hget, ⟨hpending, hrunning, -, hnext⟩, -, -, hcommand, hfree, s', hrow, rfl,
      rfl⟩, _, ⟨hc, rfl⟩, rfl, -⟩ := h
    obtain ⟨hmem, hord⟩ := get?_eq_some.mp hget
    obtain ⟨c, hcmem, hcid⟩ := any_eq_true.mp hcommand
    simp only [check_iff] at hcid
    have hpair : r₂.pairOf s.toStepRow = r.pairOf s.toStepRow := by
      simp only [pairOf, walletOf, itemOf, htouch.wallets, htouch.items]
    refine .claim s s' req.command _ (htouch.steps ▸ hmem) hpending (htouch.state ▸ hrunning)
      (htouch.next ▸ hnext) (hpair ▸ hfree) hrow ?_ ?_ ?_ rfl htouch.state htouch.counts
      htouch.locks ?_
    · rw [← htouch.steps]; rfl
    · exact htouch.toFrozen.trans ⟨rfl, rfl, rfl, rfl, rfl, rfl, rfl, rfl, .of_eq rfl,
        .of_eq rfl rfl rfl rfl⟩
    · exact congrArg some hord.symm
    · refine ⟨c, hcmem, by rw [hrow, hcid.1.1.1], hcid.1.2, ?_, ?_⟩
      · rw [hrow]
        exact hcid.1.1.2
      · rw [hrow]
        exact hcid.2

end commands

end Store
end Athena.Execution
