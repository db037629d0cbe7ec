import Athena.Execution.Custody
import Athena.Execution.Passage
import Athena.Execution.CommandLaws

/-!
# Who may start a Step

A Step leaves `PENDING` for its preflight only when the coordinator of the Run asks for it:
the one that is active, presents its token within its lease, and still acts under the
session and the access revision that the Run was authorized for.  When these have changed,
the same command pauses the Run and takes its authorization away.
-/

namespace Athena.Execution

open Athena.Lib Table Queries Run Option

theorem filter_eq_singleton {α : Type} {p : α → Bool} {l : List α} {a : α} (h : l.countP p ≤ 1)
    (ha : a ∈ l) (hp : p a) : l.filter p = [a] := by
  rw [List.countP_eq_length_filter] at h
  have hmem : a ∈ l.filter p := List.mem_filter.mpr ⟨ha, hp⟩
  obtain ⟨c, hc⟩ := List.length_eq_one_iff.mp (le_antisymm h (List.length_pos_of_mem hmem))
  rw [hc] at hmem ⊢
  rw [List.mem_singleton.mp hmem]

namespace Store

section claim
variable {t t' : Tables} {r r' : Run} {req : CommandRequest} {ordinal : ℕ} {token : Digest}
  {b : Binding} {now : Time}

theorem bound_of_bind {r₁ : Run} {k : Coordinator}
    (h : bindExecutionCommandCoordinator r₁ req.command k = .ok r') :
    ∃ c ∈ r'.commands, c.id = req.command ∧ c.coordinator = some (k.id, k.generation) := by
  simp only [bindExecutionCommandCoordinator, updateCommand, committed] at h
  obtain ⟨hany, rfl⟩ := h
  obtain ⟨c, hc, hp⟩ := List.any_eq_true.mp hany
  refine ⟨_, List.mem_map_of_mem hc, ?_⟩
  rw [if_pos hp]
  simp only [check_iff] at hp
  exact ⟨hp.1, rfl⟩

structure Entitled (r : Run) (token : Digest) (b : Binding) (now : Time) (k : Coordinator)
    (a : Authorization) : Prop where
  running : r.state = .running
  coordinator : r.coordinators.filter (fun k => k.state = .active) = [k]
  token : k.token = token
  lease : now < k.leaseExpiresAt
  session : k.session = b.session ∧ k.accessRevision = b.accessRevision
  authorization : r.authorizations.filter (fun a => a.state = .authorized) = [a]
  binding : a.session = b.session ∧ a.accessRevision = b.accessRevision
  plan : a.planVersion = r.planVersion ∧ a.planDigest = r.planDigest

theorem entitled_of_applyClaim {isolated : ℕ × String → Bool} {kind : CommandKind}
    {digest : RequestDigest} {n : ℕ} {a : Except StoreError Step} (hr : r.Custody)
    (h : applyClaim isolated req ordinal token b now (journalled r req kind digest n) =
      .ok (r', a)) :
    r'.steps = r.steps ∨ (∃ s', r'.steps = r.steps.put s' ∧ s'.ordinal = ordinal) ∧
      ∃ k auth, Entitled r token b now k auth ∧
        ∃ c ∈ r'.commands, c.id = req.command ∧ c.coordinator = some (k.id, k.generation) := by
  simp only [applyClaim, bind_eq_ok] at h
  obtain ⟨k, hk, r₂, hbind, h⟩ := h
  obtain ⟨hrow, hauths⟩ := bound_of_journalled hbind
  obtain ⟨hmem, hactive, htoken, hlease⟩ := mem_of_presented (presentedCoordinator_eq_ok.mp hk)
  have hsteps : r₂.steps = r.steps :=
    (touches_bindExecutionCommandCoordinator (t := .empty) hbind).steps
  split at h
  · simp only [requireAuthorization, pauseExecutionRunForReauthorization,
      Queries.pauseExecutionRunForReauthorization, committed, Run.writeRow_eq_ok] at h
    obtain ⟨r₃, ⟨r₄, ⟨_, ⟨-, hc, rfl⟩, rfl⟩, hcomplete⟩, rfl, -⟩ := h
    have := (touches_completeExecutionCommand (t := .empty) hcomplete).steps
    exact .inl (this.trans hsteps)
  · rename_i hsame
    rw [bindingChanged_congr hrow hauths] at hsame
    simp only [claimFreshExecutionRunStep, setExecutionRunCurrentStep, committed, Prod.exists,
      Run.writeRow_eq_ok, Step.write_eq_ok] at h
    obtain ⟨_, _, ⟨s, hget, ⟨-, hrunning, -⟩, -, hauthorizes, -, -, s', hs', rfl, rfl⟩, _,
      ⟨hc, rfl⟩, rfl, -⟩ := h
    obtain ⟨auth, hauth, hholds⟩ := List.any_eq_true.mp hauthorizes
    simp only [check_iff, hrow] at hholds
    obtain ⟨⟨⟨⟨hstate, hsession⟩, haccess⟩, hversion⟩, hplan⟩ := hholds
    simp only [bindingChanged, check_iff, not_or, not_not] at hsame
    have hbound : ∃ c ∈ r₂.commands, c.id = req.command ∧
        c.coordinator = some (k.id, k.generation) := bound_of_bind hbind
    refine .inr ⟨⟨s', by rw [← hsteps]; rfl, by rw [hs']; exact (get?_eq_some.mp hget).2⟩,
      k, auth, ?_, hbound⟩
    exact
      { running := by rw [← hrow]; exact hrunning
        coordinator := filter_eq_singleton hr.coordinators hmem (by simpa using hactive)
        token := htoken
        lease := hlease
        session := hsame.1
        authorization := filter_eq_singleton hr.authorizations (hauths ▸ hauth)
          (by simpa using hstate)
        binding := ⟨hsession, haccess⟩
        plan := ⟨hversion, hplan⟩ }

theorem entitled_of_started (ht : Reachable t) {op : Operation} {a : op.Reply}
    (h : exec op t now = .ok (t', a)) {ref : StepRef} {s s' : Step} (hs : t.step ref = some s)
    (hs' : t'.step ref = some s') (hpending : s.state = .pending)
    (hstarted : s'.state = .preflighting) :
    ∃ req token b, op = .executeNext req ref.ordinal token b ∧ req.run = ref.run ∧
      ∃ r r' k auth, t.runs.get? ref.run = some r ∧ t'.runs.get? ref.run = some r' ∧
        Entitled r token b now k auth ∧
        ∃ c ∈ r'.commands, c.id = req.command ∧ c.coordinator = some (k.id, k.generation) := by
  have hne : s' ≠ s := by
    rintro rfl
    simp [hpending] at hstarted
  have hstarting : op.event = .starting ∧ ∀ id, op.home = some id → ref.run = id := by
    rcases (exec_change h).step hs' with ⟨hnone, -⟩ | ⟨u, hu, rfl | ⟨hp, hhome⟩⟩
    · simp [hnone] at hs
    · exact absurd (mem_unique hu hs) hne
    · cases hu.symm.trans hs
      exact ⟨hp.starting hpending hstarted, hhome⟩
  obtain ⟨hevent, hhome⟩ := hstarting
  cases op with
  | executeNext req n token b =>
    have hrun := hhome req.run rfl
    obtain ⟨r, r', hget, -, rfl, hcase⟩ := runCommand_ok (of_ensure h).2
    have hr := mem_of_get? hget
    have hstep (u : Run) (hu : u.id = r.id) :
        (⟨t.runs.put u⟩ : Tables).step ref = u.steps.get? ref.ordinal := by
      have : (t.runs.put u).get? ref.run = some u := by
        rw [hrun, ← id_of_get? hget, ← hu]
        exact get?_put_self hr hu.symm
      simp [Tables.step, this]
    have hold : t.step ref = r.steps.get? ref.ordinal := by simp [Tables.step, hrun, hget]
    rcases hcase with ⟨c, -, -, -, hreplay⟩ | ⟨hnew, hfresh⟩
    · rw [eq_of_replayClaim hreplay, hstep r rfl, ← hold] at hs'
      exact absurd (mem_unique hs' hs) hne
    · have hmove := move_applyClaim (hnew r hr)
        (touches_journalled _ _ _ _ (commandOf_eq_none.mpr hnew)) hfresh
      have hid : r'.id = r.id := hmove.frozen.id
      rw [hstep r' hid] at hs'
      rcases entitled_of_applyClaim (ht.custody r hr) hfresh with hsteps | ⟨⟨v, hput, hv⟩, k, auth,
        hentitled, hbound⟩
      · rw [hsteps, ← hold] at hs'
        exact absurd (mem_unique hs' hs) hne
      · have hn : n = ref.ordinal := by
          by_contra hn
          rw [hput, get?_put_of_ne (by rw [hv]; exact fun h => hn h.symm), ← hold] at hs'
          exact hne (mem_unique hs' hs)
        subst hn
        refine ⟨req, token, b, rfl, hrun.symm, r, r', k, auth, hrun ▸ hget, ?_, hentitled, hbound⟩
        rw [hrun, ← id_of_get? hget, ← hid]
        exact get?_put_self hr hid.symm
  | preflight =>
    simp only [Operation.event] at hevent
    split at hevent <;> cases hevent
  | _ => cases hevent

structure Suspended (r r' : Run) : Prop where
  id : r'.id = r.id
  steps : r'.steps = r.steps
  state : r'.state = if r.hasActiveStep then .pauseRequested else .paused
  unauthorized : ∀ a ∈ r'.authorizations, a.state ≠ .authorized

theorem suspended_of_requireAuthorization {command : UUID}
    (h : requireAuthorization r command now = .ok r') : Suspended r r' := by
  simp only [requireAuthorization, pauseExecutionRunForReauthorization,
    Queries.pauseExecutionRunForReauthorization, completeExecutionCommand, updateCommand, committed,
    Run.writeRow_eq_ok] at h
  obtain ⟨_, ⟨_, ⟨-, hc, rfl⟩, rfl⟩, -, rfl⟩ := h
  have hended : ∀ a ∈ (endAuthorizations r .superseded).authorizations, a.state ≠ .authorized := by
    simpa using List.countP_eq_zero.mp (usableAuthorizations_end (r := r) (by decide))
  exact ⟨rfl, rfl, rfl, hended⟩

theorem suspended_of_applyClaim {isolated : ℕ × String → Bool} {kind : CommandKind}
    {digest : RequestDigest} {n : ℕ} {a : Except StoreError Step} {k : Coordinator}
    (hk : presented r token now = some k) (hchanged : bindingChanged r k b)
    (h : applyClaim isolated req ordinal token b now (journalled r req kind digest n) =
      .ok (r', a)) : pausable r ∧ a = .error .authorization ∧ Suspended r r' := by
  simp only [applyClaim, bind_eq_ok] at h
  obtain ⟨k', hk', r₂, hbind, h⟩ := h
  have hkk : k' = k := some.inj ((presentedCoordinator_eq_ok.mp hk').symm.trans hk)
  subst hkk
  obtain ⟨hrow, hauths⟩ := bound_of_journalled hbind
  have hsteps : r₂.steps = r.steps :=
    (touches_bindExecutionCommandCoordinator (t := .empty) hbind).steps
  rw [bindingChanged_congr hrow hauths, if_pos hchanged, bind_eq_ok] at h
  obtain ⟨r₃, hrequire, h⟩ := h
  simp only [pure_pair] at h
  obtain ⟨rfl, rfl⟩ := h
  have hpausable := pausable_of_requireAuthorization hrequire
  have hsuspended := suspended_of_requireAuthorization hrequire
  refine ⟨by unfold pausable at hpausable ⊢; rwa [hrow] at hpausable, rfl, ?_⟩
  exact
    { id := by rw [hsuspended.id, hrow]
      steps := hsuspended.steps.trans hsteps
      state := by rw [hsuspended.state, hasActiveStep, hsteps]; rfl
      unauthorized := hsuspended.unauthorized }

/-- The session or the access revision of the caller is not the one of the coordinator, or
not the one of an authorization of the Run. -/
def Mismatched (r : Run) (k : Coordinator) (b : Binding) : Prop :=
  (k.session ≠ b.session ∨ k.accessRevision ≠ b.accessRevision) ∨
    ∀ a ∈ r.authorizations, a.state = .authorized →
      a.session ≠ b.session ∨ a.accessRevision ≠ b.accessRevision

theorem bindingChanged_of_mismatched {k : Coordinator} (h : Mismatched r k b) :
    bindingChanged r k b := by
  simp only [bindingChanged, check_iff]
  rcases h with h | h
  · exact .inl h
  · refine .inr ?_
    simp only [authorizationHolds, Bool.not_eq_true', any_eq_false]
    intro a ha
    have hmem := List.mem_of_find?_eq_some ha
    have hstate : a.state = .authorized := by simpa using List.find?_some ha
    rcases h a hmem hstate with h | h <;> simp [h]

/-- A Step is started only by the one coordinator of a running Run, within its lease and under
the session, access revision and plan that the Run is authorized for.  When the session or
the access revision of the caller differ, the command suspends the Run instead, or fails
where the Run cannot be paused. -/
theorem started_by_coordinator (ht : Reachable t) :
    (∀ op now t' a ref s s', exec op t now = .ok (t', a) → t.step ref = some s →
      t'.step ref = some s' → s.state = .pending → s'.state = .preflighting →
      ∃ req token b, op = .executeNext req ref.ordinal token b ∧ req.run = ref.run ∧
        ∃ r r' k auth, t.runs.get? ref.run = some r ∧ t'.runs.get? ref.run = some r' ∧
          Entitled r token b now k auth ∧
          ∃ c ∈ r'.commands, c.id = req.command ∧ c.coordinator = some (k.id, k.generation)) ∧
    (∀ req ordinal token b now r k, t.runs.get? req.run = some r → r.owner = req.owner →
      t.commandOf req.command = none → 0 < req.expectedRevision → 0 < ordinal →
      0 < b.accessRevision → presented r token now = some k → Mismatched r k b →
      (pausable r → ∃ r', exec (.executeNext req ordinal token b) t now =
        .ok (⟨t.runs.put r'⟩, .error .authorization) ∧ Suspended r r') ∧
      (pausable r = false → ∃ e, exec (.executeNext req ordinal token b) t now = .error e)) := by
  refine ⟨fun op now t' a ref s s' h hs hs' => entitled_of_started ht h hs hs', ?_⟩
  intro req ordinal token b now r k hget howner hfree hpos hord haccess hk hmismatch
  have hchanged := bindingChanged_of_mismatched hmismatch
  have hexec : exec (.executeNext req ordinal token b) t now = (do
      let (r', a) ← applyClaim t.pairIsolated req ordinal token b now (journalled r req .executeNext
        (.executeNext req.run req.command req.expectedRevision ordinal token b.session
          b.accessRevision) ordinal)
      pure (⟨t.runs.put r'⟩, a)) := by
    simp only [exec, beginExecutionStep, ensure_of (⟨hord, haccess⟩ : 0 < ordinal ∧ _), bind_ok]
    exact runCommand_eq_fresh hpos hget howner hfree
  rw [hexec]
  constructor
  · intro hpause
    have hclaims : ∃ r' a, applyClaim t.pairIsolated req ordinal token b now
        (journalled r req .executeNext (.executeNext req.run req.command req.expectedRevision
          ordinal token b.session b.accessRevision) ordinal) = .ok (r', a) ∧
          r'.id = r.id ∧ r' ≠ r := applyClaim_enabled hk hchanged hpause
    obtain ⟨r', a, hclaim, -⟩ := hclaims
    obtain ⟨-, rfl, hsuspended⟩ := suspended_of_applyClaim hk hchanged hclaim
    exact ⟨r', by rw [hclaim]; rfl, hsuspended⟩
  · intro hpause
    cases hclaim : applyClaim t.pairIsolated req ordinal token b now _ with
    | error e => exact ⟨e, rfl⟩
    | ok x =>
      obtain ⟨r', a⟩ := x
      have := (suspended_of_applyClaim hk hchanged hclaim).1
      simp [hpause] at this

open Sample

/-- The sample Run starts its first Step, and is suspended when that is asked for under another
session. -/
theorem started_by_coordinator_sample :
    (∃ t' a r' k, exec (claim 103 3 1) (after started) 4 = .ok (t', a) ∧
      t'.runs.get? 1 = some r' ∧ ∃ c ∈ r'.commands, c.id = 103 ∧ c.coordinator = some k) ∧
    ∃ r', exec (.executeNext (request 103 3) 1 9 ⟨6, 1⟩) (after started) 4 =
        .ok (⟨(after started).runs.put r'⟩, .error .authorization) ∧
      ∀ a ∈ r'.authorizations, a.state ≠ .authorized := by
  obtain ⟨hstarted, hsuspends⟩ := started_by_coordinator (reachable_after started)
  constructor
  · obtain ⟨⟨t', a⟩, hexec, hafter⟩ := exists_of_commitsWith
      (p := fun result => (result.1.step ⟨1, 1⟩).any fun s => s.state = .preflighting)
      (by decide +kernel : commitsWith (exec (claim 103 3 1) (after started) 4) _)
    obtain ⟨s', hs', hpreflighting⟩ := (any_eq_true _ _).mp hafter
    obtain ⟨s, hs, hpending⟩ := (any_eq_true _ _).mp
      (by decide : ((after started).step ⟨1, 1⟩).any fun s => s.state = .pending)
    obtain ⟨_, _, _, heq, -, _, r', k, _, -, hr', -, hcommand⟩ := hstarted _ _ _ _ _ _ _ hexec hs
      hs' (of_decide_eq_true hpending) (of_decide_eq_true hpreflighting)
    cases heq
    exact ⟨t', a, r', _, hexec, hr', hcommand⟩
  · obtain ⟨r, hget, hr⟩ := (any_eq_true _ _).mp
      (by decide : ((after started).runs.get? 1).any fun r => r.owner = 1 && pausable r &&
        (presented r 9 4).any fun k => k.session = 5)
    simp only [check_iff, any_eq_true] at hr
    obtain ⟨⟨howner, hpausable⟩, k, hk, hsession⟩ := hr
    obtain ⟨r', hexec, hsuspended⟩ := (hsuspends (request 103 3) 1 9 ⟨6, 1⟩ 4 r k hget howner
      (by decide) (by decide) (by decide) (by decide) hk (.inl (.inl (by simp [hsession])))).1
      hpausable
    exact ⟨r', hexec, hsuspended.unauthorized⟩

end claim

end Store
end Athena.Execution
