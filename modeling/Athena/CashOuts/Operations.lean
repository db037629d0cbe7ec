import Athena.CashOuts.Batches

/-!
# The operations of the Cash Out store

The store as one machine, as for the execution store: its operations are the transactions
on Cash Outs and on batches, and a failed transaction leaves the tables as they were.
Here stands what a transaction can do to one Cash Out.
-/

namespace Athena.CashOuts

open Athena.Lib Queries Store CashOuts

inductive Operation
  | create (req : CreateRequest) (id : UUID)
  | authorize (req : AuthorizeRequest)
  | claim (cashOut : UUID) (k : Claim)
  | renew (cashOut : UUID) (k : Claim)
  | beginClosing (cashOut : UUID) (claim : ℕ) (providerState : String)
  | prepare (cashOut attempt : UUID) (claim : ℕ) (request : CloseRequest)
  | dispatch (cashOut attempt : UUID) (claim : ℕ)
  | resolve (cashOut attempt : UUID) (r : Resolution)
  | completeDispatch (cashOut attempt : UUID) (claim : ℕ) (r : Resolution)
  | observe (cashOut : UUID) (claim : ℕ) (o : Observation)
  | reconcile (req : ReconcileRequest)
  | expire (picked : List UUID)
  | createBatch (req : BatchCreateRequest) (id : UUID)
  | build (req : BuildRequest)
  | failBuild (batch : UUID) (claim : ℕ) (reasonCode buildStage : String)
  | authorizeBatch (req : BatchAuthorizeRequest)
  | control (req : ControlRequest)
  | claimBatch (batch : UUID) (k : Claim)
  | renewBatch (batch : UUID) (k : Claim)
  | deferPreflight (item : ItemRef) (claim : ℕ)
  | deferCheck (batch : UUID) (claim : ℕ)
  | activate (req : ActivateRequest)
  | dispatchBatch (req : BatchDispatchRequest)
  | recordItem (req : ItemStateRequest)
  | recordBalance (req : BalanceRequest)
  | deferBalance (item : ItemRef) (claim : ℕ) (timedOut : Bool)
  | recordBlocking (req : BlockingRequest)
  | boundary (batch : UUID) (claim : ℕ)
  | expireBatches (picked : List UUID)

@[reducible] def Operation.Reply : Operation → Type
  | .create .. | .authorize .. | .claim .. | .renew .. | .beginClosing .. | .completeDispatch ..
  | .observe .. | .reconcile .. => CashOut
  | .prepare .. | .dispatch .. | .resolve .. | .dispatchBatch .. => Attempt
  | .expire .. | .expireBatches .. => Unit
  | .createBatch .. | .build .. | .failBuild .. | .authorizeBatch .. | .control .. | .claimBatch ..
  | .renewBatch .. | .deferPreflight .. | .deferCheck .. | .activate .. | .recordItem ..
  | .recordBalance .. | .deferBalance .. | .recordBlocking .. | .boundary .. => Batch

/-- What a transaction does at a time, with what it reads of other parts of the service. -/
def Store.exec (adm : Admission) :
    (op : Operation) → Tables → Time → Except StoreError (Tables × op.Reply)
  | .create req id, t, now => createPositionCashOut req adm id t now
  | .authorize req, t, now => authorizePositionCashOut req t now
  | .claim id k, t, now => claimPositionCashOut id k t now
  | .renew id k, t, now => renewPositionCashOutClaim id k t now
  | .beginClosing id claim state, t, now => beginPositionCashOutClosing id claim state t now
  | .prepare id attempt claim request, t, now =>
    preparePositionCashOutAttempt id attempt claim request t now
  | .dispatch id attempt claim, t, now => dispatchPositionCashOutAttempt id attempt claim t now
  | .resolve id attempt r, t, now => resolvePositionCashOutAttempt id attempt r t now
  | .completeDispatch id attempt claim r, t, now =>
    completePositionCashOutDispatch id attempt claim r t now
  | .observe id claim o, t, now => recordPositionCashOutObservation id claim o t now
  | .reconcile req, t, now => requestPositionCashOutReconciliation req t now
  | .expire picked, t, now => .ok (expirePositionCashOuts picked t now, ())
  | .createBatch req id, t, now => createPositionCashOutBatch req adm id t now
  | .build req, t, now => completePositionCashOutBatchBuild req t now
  | .failBuild batch claim reason stage, t, now =>
    failPositionCashOutBatchBuild batch claim reason stage t now
  | .authorizeBatch req, t, now => authorizePositionCashOutBatch req t now
  | .control req, t, now => controlPositionCashOutBatch req t now
  | .claimBatch batch k, t, now => claimPositionCashOutBatch batch k t now
  | .renewBatch batch k, t, now => renewPositionCashOutBatchClaim batch k t now
  | .deferPreflight item claim, t, now => deferPositionCashOutBatchPreflight item claim t now
  | .deferCheck batch claim, t, now => deferPositionCashOutBatchCheck batch claim t now
  | .activate req, t, now => activatePositionCashOutBatchItem req adm.connections t now
  | .dispatchBatch req, t, now => dispatchPositionCashOutBatchAttempt req t now
  | .recordItem req, t, now => recordPositionCashOutBatchItemState req t now
  | .recordBalance req, t, now => recordPositionCashOutBatchBalance req t now
  | .deferBalance item claim timedOut, t, now =>
    deferPositionCashOutBatchBalance item claim timedOut t now
  | .recordBlocking req, t, now => recordPositionCashOutBatchBlocking req t now
  | .boundary batch claim, t, now => completePositionCashOutBatchBoundary batch claim t now
  | .expireBatches picked, t, now => .ok (expirePositionCashOutBatches picked t now, ())

def Operation.dispatches (op : Operation) (cashOut attempt : UUID) (claim : ℕ) : Prop :=
  op = .dispatch cashOut attempt claim ∨
    ∃ req, op = .dispatchBatch req ∧ req.cashOut = cashOut ∧ req.attempt = attempt ∧
      req.claim = claim

/-! ## What a transaction does to a Cash Out -/

inductive CashOut.Move (op : Operation) (now : Time) (c c' : CashOut) : Prop
  | authorized (req : AuthorizeRequest) (a : Authorization) (hop : op = .authorize req)
      (hid : req.cashOut = c.id) (hstate : c.state = .awaitingAuthorization)
      (hrow : c'.toCashOutRow = { c.toCashOutRow with
        state := .queued, revision := c.revision + 1, authorizedAt := some now
        executionExpiresAt := some req.executionExpiresAt, nextPollAt := some now
        updatedAt := now, authorization := some a })
  | claimed (k : Claim) (hop : op = .claim c.id k) (hnow : recoverable c now)
      (hrow : c'.toCashOutRow = { c.toCashOutRow with
        state := if c.state = .queued then .preflighting else c.state
        revision := c.revision + 1, claim := some k, updatedAt := now })
  | renewed (k : Claim) (hop : op = .renew c.id k) (hlease : leasedTo c.claim k.id now)
      (hstate : c.state.terminal = false)
      (hrow : c'.toCashOutRow = { c.toCashOutRow with claim := some k, updatedAt := now })
  | closing (k : ℕ) (providerState : String) (hop : op = .beginClosing c.id k providerState)
      (hstate : c.state = .preflighting) (hwindow : inWindow c k now)
      (hrow : c'.toCashOutRow = { c.toCashOutRow with
        state := .closing, revision := c.revision + 1, reasonCode := "", providerState
        providerIsClosed := false, providerIsLiquidated := false, pollCount := c.pollCount + 1
        nextPollAt := none, updatedAt := now })
  | prepared (a : Attempt) (k : ℕ) (hop : op = .prepare c.id a.id k a.request)
      (hstate : c.state = .closing) (hwindow : inWindow c k now) (hnone : c.attempt = none)
      (hprepared : a.status = .prepared)
      (hrow : c'.toCashOutRow = { c.toCashOutRow with attempt := some a })
  | dispatched (a : Attempt) (k : ℕ) (hop : op.dispatches c.id a.id k)
      (hstate : c.state = .closing) (hwindow : inWindow c k now) (hattempt : c.attempt = some a)
      (hprepared : a.status = .prepared)
      (hrow : c'.toCashOutRow = { c.toCashOutRow with
        revision := c.revision + 1, updatedAt := now
        attempt := some { a with status := .dispatched now } })
  | resolved (a a' : Attempt) (dispatchedAt : Time) (r : Resolution)
      (hop : op = .resolve c.id a.id r) (hattempt : c.attempt = some a)
      (hdispatched : a.status = .dispatched dispatchedAt) (hid : a'.id = a.id)
      (hrequest : a'.request = a.request)
      (hstatus : a'.status = .resolved r.outcome dispatchedAt now)
      (hrow : c'.toCashOutRow = { c.toCashOutRow with attempt := some a' })
  | completedDispatch (a a' : Attempt) (k : ℕ) (dispatchedAt : Time) (r : Resolution)
      (hop : op = .completeDispatch c.id a.id k r) (hattempt : c.attempt = some a)
      (hdispatched : a.status = .dispatched dispatchedAt) (hid : a'.id = a.id)
      (hrequest : a'.request = a.request)
      (hstatus : a'.status = .resolved .acknowledged dispatchedAt now)
      (hstate : c.state = .closing) (hheld : heldBy c.claim k)
      (hrow : c'.toCashOutRow = endPositionCashOutAuthorization
        (observed { c.toCashOutRow with attempt := some a' } closedObservation now)
        .consumed "COMPLETED" now)
  | observed (k : ℕ) (o : Observation) (hop : op = .observe c.id k o)
      (hvalid : validObservation o now) (hobservable : observable c k o)
      (hrow : c'.toCashOutRow = if o.nextState.terminal then
        endPositionCashOutAuthorization (Queries.observed c.toCashOutRow o now) .consumed
          (endText o.nextState) now
        else Queries.observed c.toCashOutRow o now)
  | reconcileRequested (req : ReconcileRequest) (hop : op = .reconcile req)
      (hstate : c.state = .reconciliationRequired) (hclaim : c.claim = none)
      (hrow : c'.toCashOutRow = { c.toCashOutRow with
        revision := c.revision + 1, reconcileRequestedAt := some now, nextPollAt := some now
        updatedAt := now })
  | expired (picked : List UUID) (hop : op = .expire picked) (hexpirable : expirable c now)
      (hrow : c'.toCashOutRow = expiredRow c.toCashOutRow now)
  | failedByBatch (batch : UUID) (k : ℕ) (hop : op = .boundary batch k)
      (hstate : c.state = .failed ∨ c.state = .reconciliationRequired)
      (hundispatched : wasDispatched c.attempt = false)
      (hrow : c'.toCashOutRow = failedChild c.toCashOutRow now)

/-! ## What every move keeps -/

/-- A status may follow another one: an attempt is dispatched once and resolved once. -/
def AttemptStatus.Leads : AttemptStatus → AttemptStatus → Prop
  | .prepared, _ => True
  | .dispatched time, s => s = .dispatched time ∨ ∃ o d, s = .resolved o time d
  | .resolved o d e, s => s = .resolved o d e

theorem AttemptStatus.Leads.refl (s : AttemptStatus) : s.Leads s := by
  cases s with
  | prepared => trivial
  | dispatched => exact .inl rfl
  | resolved => rfl

theorem AttemptStatus.Leads.trans {s s' s'' : AttemptStatus} (h : s.Leads s') (h' : s'.Leads s'') :
    s.Leads s'' := by
  cases s with
  | prepared => trivial
  | dispatched =>
    obtain rfl | ⟨o, d, rfl⟩ := h
    · exact h'
    · exact .inr ⟨o, d, h'⟩
  | resolved => cases h; exact h'

def AttemptEvolves (x x' : Option Attempt) : Prop :=
  ∀ a, x = some a → ∃ a', x' = some a' ∧ a'.id = a.id ∧ a'.request = a.request ∧
    a.status.Leads a'.status

theorem AttemptEvolves.refl (x : Option Attempt) : AttemptEvolves x x :=
  fun a ha => ⟨a, ha, rfl, rfl, .refl _⟩

theorem AttemptEvolves.trans {x x' x'' : Option Attempt} (h : AttemptEvolves x x')
    (h' : AttemptEvolves x' x'') : AttemptEvolves x x'' := by
  intro a ha
  obtain ⟨a', ha', hid, hrequest, hstatus⟩ := h a ha
  obtain ⟨a'', ha'', hid', hrequest', hstatus'⟩ := h' a' ha'
  exact ⟨a'', ha'', hid'.trans hid, hrequest'.trans hrequest, hstatus.trans hstatus'⟩

theorem attemptEvolves_some {x : Option Attempt} {a a' : Attempt} (hx : x = some a)
    (hid : a'.id = a.id) (hrequest : a'.request = a.request) (h : a.status.Leads a'.status) :
    AttemptEvolves x (some a') := by
  rintro b hb
  obtain rfl : a = b := Option.mem_unique hx hb
  exact ⟨a', rfl, hid, hrequest, h⟩

theorem AttemptEvolves.wasDispatched {x x' : Option Attempt} (h : AttemptEvolves x x')
    (hx : wasDispatched x) : wasDispatched x' := by
  cases x with
  | none => cases hx
  | some a =>
    obtain ⟨a', rfl, -, -, hstatus⟩ := h a rfl
    simp only [CashOuts.wasDispatched, Option.any_some, Attempt.wasDispatched, ne_eq,
      decide_eq_true_eq] at hx ⊢
    intro hprepared
    rw [hprepared] at hstatus
    cases hs : a.status with
    | prepared => exact hx hs
    | dispatched time => rw [hs] at hstatus; obtain h | ⟨o, d, h⟩ := hstatus <;> cases h
    | resolved o d e => rw [hs] at hstatus; cases hstatus

structure CashOut.Evolves (c c' : CashOut) : Prop where
  id : c'.id = c.id
  owner : c'.owner = c.owner
  position : c'.toPosition = c.toPosition
  source : c'.source = c.source
  attempt : AttemptEvolves c.attempt c'.attempt
  terminal : c.state.terminal → c'.state = c.state

namespace CashOut

variable {op : Operation} {now : Time} {c c' c'' : CashOut}

theorem Evolves.refl (c : CashOut) : c.Evolves c := ⟨rfl, rfl, rfl, rfl, .refl _, fun _ => rfl⟩

theorem Evolves.trans (h : c.Evolves c') (h' : c'.Evolves c'') : c.Evolves c'' where
  id := h'.id.trans h.id
  owner := h'.owner.trans h.owner
  position := h'.position.trans h.position
  source := h'.source.trans h.source
  attempt := h.attempt.trans h'.attempt
  terminal hc := by
    have hstate := h.terminal hc
    rw [← hstate] at hc
    exact (h'.terminal hc).trans hstate

theorem not_terminal_of_observation {o : Observation} (h : validObservation o now) :
    o.expectedState.terminal = false := by
  simp only [validObservation, validPositionCashOutObservationTransition, Bool.and_eq_true] at h
  obtain ⟨⟨⟨⟨h, -⟩, -⟩, -⟩, -⟩ := h
  cases hstate : o.expectedState <;> simp_all [State.terminal]

theorem not_terminal_of_expirable (h : expirable c now) : c.state.terminal = false := by
  unfold expirable at h
  cases hstate : c.state <;> simp_all [State.terminal]

theorem observable_iff {k : ℕ} {o : Observation} (h : observable c k o) :
    c.state = o.expectedState ∧ heldBy c.claim k := by
  simp only [observable, check_iff] at h
  exact ⟨h.1.1.1.1, h.1.1.1.2⟩

theorem Move.evolves (h : Move op now c c') : c.Evolves c' := by
  have keep {r : CashOutRow} (hrow : c'.toCashOutRow = r) (hid : r.id = c.id)
      (howner : r.owner = c.owner) (hposition : r.toPosition = c.toPosition)
      (hsource : r.source = c.source) (hattempt : AttemptEvolves c.attempt r.attempt)
      (hterminal : c.state.terminal → r.state = c.state) : c.Evolves c' := by
    subst hrow
    exact ⟨hid, howner, hposition, hsource, hattempt, hterminal⟩
  have open_ {s : State} (hs : c.state = s) (h : s.terminal = false) {p : Prop} :
      c.state.terminal → p := by
    rw [hs, h]; exact nofun
  cases h with
  | authorized _ _ _ _ hstate hrow | closing _ _ _ hstate _ hrow
  | reconcileRequested _ _ hstate _ hrow =>
    exact keep hrow rfl rfl rfl rfl (.refl _) (open_ hstate rfl)
  | claimed _ _ _ hrow =>
    refine keep hrow rfl rfl rfl rfl (.refl _) fun hc => ?_
    have : c.state ≠ .queued := by rintro hq; simp [hq, State.terminal] at hc
    exact if_neg this
  | renewed _ _ _ _ hrow => exact keep hrow rfl rfl rfl rfl (.refl _) fun _ => rfl
  | prepared _ _ _ _ _ hnone _ hrow =>
    exact keep hrow rfl rfl rfl rfl (by rintro b hb; cases hnone.symm.trans hb) fun _ => rfl
  | dispatched _ _ _ _ _ hattempt hprepared hrow =>
    exact keep hrow rfl rfl rfl rfl
      (attemptEvolves_some hattempt rfl rfl (by rw [hprepared]; trivial)) fun _ => rfl
  | resolved _ _ _ _ _ hattempt hdispatched hid hrequest hstatus hrow =>
    exact keep hrow rfl rfl rfl rfl
      (attemptEvolves_some hattempt hid hrequest
        (by rw [hdispatched, hstatus]; exact .inr ⟨_, _, rfl⟩)) fun _ => rfl
  | completedDispatch _ _ _ _ _ _ hattempt hdispatched hid hrequest hstatus hstate _ hrow =>
    exact keep hrow rfl rfl rfl rfl
      (attemptEvolves_some hattempt hid hrequest
        (by rw [hdispatched, hstatus]; exact .inr ⟨_, _, rfl⟩)) (open_ hstate rfl)
  | observed _ o _ hvalid hobservable hrow =>
    have hopen : o.expectedState.terminal = false := not_terminal_of_observation hvalid
    split at hrow <;>
      exact keep hrow rfl rfl rfl rfl (.refl _) (open_ (observable_iff hobservable).1 hopen)
  | expired _ _ hexpirable hrow =>
    have hopen : c.state.terminal = false := not_terminal_of_expirable hexpirable
    unfold expiredRow at hrow
    split at hrow <;> exact keep hrow rfl rfl rfl rfl (.refl _) (open_ rfl hopen)
  | failedByBatch _ _ _ hstate _ hrow =>
    refine keep hrow rfl rfl rfl rfl (.refl _) ?_
    obtain h | h := hstate
    · exact fun _ => h.symm
    · exact open_ h rfl

theorem Move.heldBy (h : Move op now c c') {i : ℕ} (hi : heldBy c'.claim i) :
    heldBy c.claim i ∨ ∃ k, op = .claim c.id k ∧ k.id = i := by
  have keep {r : CashOutRow} (hrow : c'.toCashOutRow = r) (hclaim : r.claim = c.claim) :
      CashOuts.heldBy c.claim i ∨ ∃ k, op = .claim c.id k ∧ k.id = i := by
    subst hrow
    exact .inl (hclaim ▸ hi)
  have drop {r : CashOutRow} (hrow : c'.toCashOutRow = r) (hclaim : r.claim = none) {p : Prop} :
      p := by
    subst hrow
    rw [hclaim] at hi
    cases hi
  cases h with
  | authorized _ _ _ _ _ hrow | closing _ _ _ _ _ hrow | prepared _ _ _ _ _ _ _ hrow
  | dispatched _ _ _ _ _ _ _ hrow | resolved _ _ _ _ _ _ _ _ _ _ hrow
  | reconcileRequested _ _ _ _ hrow => exact keep hrow rfl
  | claimed k hop _ hrow =>
    rw [hrow] at hi
    exact .inr ⟨k, hop, by simpa [CashOuts.heldBy] using hi⟩
  | renewed k _ hlease _ hrow =>
    rw [hrow] at hi
    have hk : k.id = i := by simpa [CashOuts.heldBy] using hi
    exact .inl (hk ▸ heldBy_of_leasedTo hlease)
  | completedDispatch _ _ _ _ _ _ _ _ _ _ _ _ _ hrow | failedByBatch _ _ _ _ _ hrow =>
    exact drop hrow rfl
  | observed _ _ _ _ _ hrow => split at hrow <;> exact drop hrow rfl
  | expired _ _ _ hrow =>
    unfold expiredRow at hrow
    split at hrow <;> exact drop hrow rfl

theorem Move.dispatched_by (h : Move op now c c') (hc : wasDispatched c.attempt = false)
    (hc' : wasDispatched c'.attempt) :
    ∃ a k, op.dispatches c.id a.id k ∧ c.state = .closing ∧ inWindow c k now ∧ c.attempt = some a ∧
      c'.toCashOutRow = { c.toCashOutRow with
        revision := c.revision + 1, updatedAt := now
        attempt := some { a with status := .dispatched now } } := by
  have same {r : CashOutRow} (hrow : c'.toCashOutRow = r) (hattempt : r.attempt = c.attempt)
      {p : Prop} : p := by
    subst hrow
    rw [hattempt, hc] at hc'
    cases hc'
  have undispatched {a : Attempt} {d : Time} (hattempt : c.attempt = some a)
      (hstatus : a.status = .dispatched d) {p : Prop} : p := by
    simp [wasDispatched, Attempt.wasDispatched, hattempt, hstatus] at hc
  cases h with
  | authorized _ _ _ _ _ hrow | claimed _ _ _ hrow | renewed _ _ _ _ hrow | closing _ _ _ _ _ hrow
  | reconcileRequested _ _ _ _ hrow | failedByBatch _ _ _ _ _ hrow => exact same hrow rfl
  | prepared _ _ _ _ _ _ hprepared hrow =>
    rw [hrow] at hc'
    simp [wasDispatched, Attempt.wasDispatched, hprepared] at hc'
  | dispatched a k hop hstate hwindow hattempt _ hrow =>
    exact ⟨a, k, hop, hstate, hwindow, hattempt, hrow⟩
  | resolved _ _ _ _ _ hattempt hdispatched | completedDispatch _ _ _ _ _ _ hattempt hdispatched =>
    exact undispatched hattempt hdispatched
  | observed _ _ _ _ _ hrow => split at hrow <;> exact same hrow rfl
  | expired _ _ _ hrow =>
    unfold expiredRow at hrow
    split at hrow <;> exact same hrow rfl

end CashOut
end Athena.CashOuts
