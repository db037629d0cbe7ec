import Mathlib.Data.List.Induction

/-!
# The lease guard of a preview build

While a worker builds a plan that it has claimed, a second goroutine renews the lease.  When
the build is done the context of the renewals is cancelled, and the builder waits for the
goroutine and takes the error that it left for the error of the build.  A renewal that the
cancellation interrupts leaves such an error.

What the store answers, when the ticker fires and when the service shuts down is any.
-/

namespace Athena.Preview.Lease

open Option

/-- The errors of the store that `buildClaimedExecutionPlan` tells apart, and the error of a
cancelled context. -/
inductive StoreError
  | buildLease | revision | combinationChanged | walletSelectionChanged | walletConnectionChanged
  | credentialChanged | canceled | other
  deriving DecidableEq

def executionPlanFailureStoreUnavailable : String := "STORE_UNAVAILABLE"

/-- The failure that an error of `MarkExecutionPlanReady` is recorded as. -/
def markFailure : StoreError → String
  | .revision | .combinationChanged => "PLAN_SOURCE_CHANGED"
  | .walletSelectionChanged => "WALLET_SELECTION_CHANGED"
  | .walletConnectionChanged => "WALLET_NOT_CONNECTED"
  | .credentialChanged => "WALLET_CREDENTIAL_UNAVAILABLE"
  | _ => executionPlanFailureStoreUnavailable

/-- The goroutine of `start`: in its `select`, inside `renew`, or gone. -/
inductive Heartbeat
  | waiting | renewing | exited
  deriving DecidableEq

/-- Where `buildClaimedExecutionPlan` is.  `staging` is inside the renewal of a `setStage`. -/
inductive Builder (ρ : Type)
  | constructing
  | staging
  | stopping (built : Except String ρ)
  | marking (request : ρ)
  | failing (code : String)
  | returned

/-- The calls of `MarkExecutionPlanReady` and `MarkExecutionPlanFailed` are kept. -/
structure State (ρ : Type) where
  heartbeat : Heartbeat := .waiting
  builder : Builder ρ := .constructing
  err : Option StoreError := none
  ready : List ρ := []
  failed : List String := []

inductive Event (ρ : Type)
  | tick
  | quit
  | renewed (r : Except StoreError Unit)
  | interrupted
  | setStage
  | staged (r : Except StoreError Unit)
  | constructed (r : Except String ρ)
  | joined (alive : Bool)
  | marked (r : Except StoreError Unit) (alive : Bool)
  | reported

variable {ρ : Type}

def Builder.isStaging : Builder ρ → Bool
  | .staging => true
  | _ => false

def Builder.isStopping : Builder ρ → Bool
  | .stopping _ => true
  | _ => false

/-- `setError` keeps the first error. -/
def State.setError (s : State ρ) (e : StoreError) : State ρ := { s with err := s.err.or (some e) }

/-- The end of `buildClaimedExecutionPlan` with an error. -/
def State.fail (s : State ρ) (alive : Bool) (code : String) : State ρ :=
  if alive then { s with builder := .failing code, failed := s.failed ++ [code] }
  else { s with builder := .returned }

def step (s : State ρ) : Event ρ → Option (State ρ)
  -- the `select` may see the ticker although its context is cancelled
  | .tick =>
    if s.heartbeat = .waiting ∧ s.builder.isStaging = false then
      some { s with heartbeat := .renewing }
    else none
  | .quit =>
    if s.heartbeat = .waiting ∧ s.builder.isStopping then some { s with heartbeat := .exited }
    else none
  | .renewed r =>
    if s.heartbeat = .renewing then
      match r with
      | .ok _ => some { s with heartbeat := .waiting }
      | .error e => some { s.setError e with heartbeat := .exited }
    else none
  -- the context of the renewal is cancelled by `stop`
  | .interrupted =>
    if s.heartbeat = .renewing ∧ s.builder.isStopping then
      some { s.setError .canceled with heartbeat := .exited }
    else none
  | .setStage => match s.builder with
    | .constructing =>
      if s.heartbeat = .renewing then none else some { s with builder := .staging }
    | _ => none
  | .staged r => match s.builder, r with
    | .staging, .ok _ => some { s with builder := .constructing }
    | .staging, .error e =>
      some { s.setError e with builder := .stopping (.error executionPlanFailureStoreUnavailable) }
    | _, _ => none
  | .constructed r => match s.builder with
    | .constructing => some { s with builder := .stopping r }
    | _ => none
  | .joined alive => match s.heartbeat, s.builder, s.err with
    | .exited, .stopping _, some .buildLease => some { s with builder := .returned }
    | .exited, .stopping _, some _ => some (s.fail alive executionPlanFailureStoreUnavailable)
    | .exited, .stopping (.error code), none => some (s.fail alive code)
    | .exited, .stopping (.ok request), none =>
      some (if alive then { s with builder := .marking request, ready := s.ready ++ [request] }
        else { s with builder := .returned })
    | _, _, _ => none
  | .marked r alive => match s.builder, r with
    | .marking _, .ok _ => some { s with builder := .returned }
    | .marking _, .error .buildLease => some { s with builder := .returned }
    | .marking _, .error e => some (s.fail alive (markFailure e))
    | _, _ => none
  | .reported => match s.builder with
    | .failing _ => some { s with builder := .returned }
    | _ => none

/-- An interleaving of the two goroutines. -/
def run (es : List (Event ρ)) : Option (State ρ) := es.foldlM step {}

/-- Every call of the store that `stop` does not interrupt succeeds. -/
def Event.Answered : Event ρ → Prop
  | .renewed r | .staged r | .marked r _ => r = .ok ()
  | _ => True

def Inv (es : List (Event ρ)) (s : State ρ) : Prop :=
  (s.err = none ↔ .interrupted ∉ es) ∧
  match s.builder with
  | .constructing | .staging => s.err = none ∧ s.ready = [] ∧ s.failed = [] ∧
      (∀ r, .constructed r ∉ es) ∧ ∀ alive, .joined alive ∉ es
  | .stopping built => s.ready = [] ∧ s.failed = [] ∧ (∀ r, .constructed r ∈ es → r = built) ∧
      ∀ alive, .joined alive ∉ es
  | .marking req => s.err = none ∧ s.ready = [req] ∧ s.failed = [] ∧
      (∀ r, .constructed r ∈ es → r = .ok req) ∧ .joined false ∉ es
  | .failing _ => s.ready = [] ∧ (s.err = none → ∀ req, .constructed (.ok req) ∉ es)
  | .returned => ∀ req, .constructed (.ok req) ∈ es →
      (s.ready = [req] ∧ s.failed = [] ↔ s.err = none ∧ .joined false ∉ es)

theorem inv_step {es : List (Event ρ)} {s s' : State ρ} {e : Event ρ} (h : Inv es s)
    (hanswered : e.Answered) (hs : step s e = some s') : Inv (es ++ [e]) s' := by
  obtain ⟨heartbeat, builder, err, ready, failed⟩ := s
  cases e with
  | tick | quit =>
    simp only [step, ite_none_right_eq_some, some.injEq] at hs
    obtain ⟨-, rfl⟩ := hs
    simpa [Inv] using h
  | renewed =>
    subst hanswered
    simp only [step, ite_none_right_eq_some, some.injEq] at hs
    obtain ⟨-, rfl⟩ := hs
    simpa [Inv] using h
  | interrupted =>
    simp only [step, ite_none_right_eq_some, some.injEq] at hs
    obtain ⟨⟨-, hstopping⟩, rfl⟩ := hs
    cases builder with
    | stopping built => simpa [Inv, State.setError] using h.2
    | _ => cases hstopping
  | setStage =>
    cases builder with
    | constructing =>
      simp only [step, ite_none_left_eq_some, some.injEq] at hs
      obtain ⟨-, rfl⟩ := hs
      simpa [Inv] using h
    | _ => cases hs
  | staged =>
    subst hanswered
    cases builder with
    | staging =>
      cases hs
      simpa [Inv] using h
    | _ => cases hs
  | constructed =>
    cases builder with
    | constructing =>
      cases hs
      obtain ⟨herr, -, hready, hfailed, hconstructed, hjoined⟩ := h
      simp_all [Inv]
    | _ => cases hs
  | joined alive =>
    simp only [step] at hs
    split at hs <;> simp only [some.injEq, reduceCtorEq] at hs <;> subst hs
    all_goals
      obtain ⟨herr, hready, hfailed, hconstructed, hjoined⟩ := h
      cases alive <;> simp_all [Inv, State.fail]
    · exact fun req hreq => by simpa using hconstructed _ hreq
    · exact hconstructed
  | marked =>
    subst hanswered
    cases builder with
    | marking req =>
      cases hs
      obtain ⟨herr, hnone, hready, hfailed, hconstructed, hjoined⟩ := h
      simp_all [Inv]
      exact fun req' hreq => (Except.ok.inj (hconstructed _ hreq)).symm
    | _ => cases hs
  | reported =>
    cases builder with
    | failing code =>
      cases hs
      obtain ⟨herr, hready, hconstructed⟩ := h
      simp_all [Inv]
      exact fun req hreq hnot => absurd hreq (hconstructed hnot req)
    | _ => cases hs

theorem inv_of_run {es : List (Event ρ)} {s : State ρ} (h : run es = some s)
    (hanswered : ∀ e ∈ es, e.Answered) : Inv es s := by
  induction es using List.reverseRecOn generalizing s with
  | nil =>
    cases h
    simp [Inv]
  | append_singleton _ e ih =>
    simp only [run, List.foldlM_append, bind_eq_bind, bind_eq_some_iff,
      List.foldlM_cons, List.foldlM_nil, pure_def, some.injEq] at h
    obtain ⟨s₀, h₀, s₁, hs, rfl⟩ := h
    exact inv_step (ih h₀ fun e he => hanswered e (by simp [he])) (hanswered e (by simp)) hs

/-- A build that succeeds, with every call of the store answered, is passed to
`MarkExecutionPlanReady` and never marked failed, exactly when `stop` interrupts no renewal
and the service does not shut down first. -/
theorem ready_iff_uninterrupted {es : List (Event ρ)} {s : State ρ} {req : ρ}
    (h : run es = some s) (hreturned : s.builder = .returned)
    (hbuilt : .constructed (.ok req) ∈ es) (hanswered : ∀ e ∈ es, e.Answered) :
    s.ready = [req] ∧ s.failed = [] ↔ .interrupted ∉ es ∧ .joined false ∉ es := by
  obtain ⟨herr, hrest⟩ := inv_of_run h hanswered
  rw [hreturned] at hrest
  rw [← herr]
  exact hrest req hbuilt

/-- The heartbeat waits for its ticker when the guard is stopped. -/
def Sample.idle : List (Event ℕ) :=
  [.tick, .renewed (.ok ()), .setStage, .staged (.ok ()), .constructed (.ok 7), .quit,
    .joined true, .marked (.ok ()) true]

theorem ready_iff_uninterrupted_idle : ∃ s, run Sample.idle = some s ∧ s.ready = [7] ∧
    s.failed = [] := by
  have h : run Sample.idle = some { heartbeat := .exited, builder := .returned, ready := [7] } :=
    rfl
  refine ⟨_, h, (ready_iff_uninterrupted h rfl ?_ ?_).mpr ?_⟩
  all_goals simp [Sample.idle, Event.Answered]

/-- The ticker fires right before the build is done, and the renewal still runs when the guard
is stopped: a build that succeeded is marked failed. -/
theorem interrupted_renewal_fails_build : ∃ (es : List (Event ℕ)) (s : State ℕ),
    run es = some s ∧ s.builder = .returned ∧ .constructed (.ok 7) ∈ es ∧
      (∀ e ∈ es, e.Answered) ∧ s.ready = [] ∧ s.failed = ["STORE_UNAVAILABLE"] := by
  refine ⟨[.tick, .constructed (.ok 7), .interrupted, .joined true, .reported], _, rfl, rfl, ?_,
    ?_, rfl, rfl⟩
  all_goals simp [Event.Answered]

end Athena.Preview.Lease
