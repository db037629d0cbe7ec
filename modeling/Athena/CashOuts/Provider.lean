import Athena.CashOuts.Operations

/-!
# The provider as the Cash Out worker sees it

Positions and Close responses of the provider, with the checks of
`util/worm/margin_position_cash_out_stages.go` on them, and the errors of its interface,
each kept as the class that `classifyWormError` finds it in.
-/

namespace Athena.CashOuts

open Athena.Lib

/-! ## Errors -/

/-- An error of the provider's interface: a cancelled context, a deadline, an error the
provider answered with, a text that says the response is invalid, or any other. -/
inductive WormError
  | cancelled
  | timeout
  | provider (status : ℕ) (code : ℤ) (slug : String)
  | invalid
  | other
  deriving DecidableEq

def classifyWormError : WormError → String
  | .cancelled => "CANCELLED"
  | .timeout => "TIMEOUT"
  | .provider status _ _ =>
    if status = 401 ∨ status = 403 then "RECONNECT_REQUIRED"
    else if status = 429 then "RATE_LIMITED"
    else if status = 408 ∨ status = 425 ∨ 500 ≤ status then "WORM_UNAVAILABLE"
    else "WORM_REJECTED"
  | .invalid => "INVALID_RESPONSE"
  | .other => "WORM_UNAVAILABLE"

namespace WormError

/-- `isWormAuthenticationError` -/
def isAuthentication (e : WormError) : Bool := classifyWormError e = "RECONNECT_REQUIRED"

/-- `isWormNotFoundError` -/
def isNotFound : WormError → Bool
  | .provider status _ _ => status = 404
  | _ => false

/-- `positionCashOutBatchTemporaryPreflightError`, and the same test of
`handlePositionCashOutPreflightError`. -/
def isTemporary (e : WormError) : Bool :=
  classifyWormError e ∈ ["RATE_LIMITED", "WORM_UNAVAILABLE", "TIMEOUT", "CANCELLED"]

/-- `errors.Join`, of an error of a request and one of its response.  The class of the
request wins, unless only its text decides. -/
def join : Option WormError → Option WormError → Option WormError
  | none, e => e
  | some .other, some .invalid => some .invalid
  | some e, _ => some e

end WormError

/-! ## Positions -/

structure MarginPosition where
  pubkey : String
  positionRequestPubkey : Option String
  conditionId : String
  isYes : Bool
  created : Option ℤ
  totalShares : String
  isClosed : Bool
  isLiquidated : Bool
  deriving DecidableEq

/-- `validateMarginPositionCashOutTarget`.  The decimal of the shares is checked as the
store checks it. -/
def Target.valid (target : Target) : Bool :=
  canonicalPublicKey target.positionPubkey && canonicalPublicKey target.marketConditionId &&
    target.positionRequestPubkey.all canonicalPublicKey && 0 < target.createdAt &&
    validShares target.totalShares

def inspectMarginPositionCashOutTarget (position : Option MarginPosition) :
    Except WormError Target := do
  let p ← found position .other
  let created ← found p.created .other
  let target : Target :=
    { positionPubkey := p.pubkey, positionRequestPubkey := p.positionRequestPubkey
      marketConditionId := p.conditionId, isYes := p.isYes, createdAt := created.toNat
      totalShares := p.totalShares, isClosed := p.isClosed, isLiquidated := p.isLiquidated }
  ensure target.valid .other
  pure target

/-- `validateMarginPositionCashOutIdentity` -/
def Target.sameIdentity (expected observed : Target) : Bool :=
  observed.positionPubkey = expected.positionPubkey &&
    observed.marketConditionId = expected.marketConditionId && observed.isYes = expected.isYes &&
    observed.createdAt = expected.createdAt &&
    observed.positionRequestPubkey = expected.positionRequestPubkey

/-- What `ObserveMarginPositionCashOut` makes of the position that the provider returned. -/
def observedTarget (target : Target) (position : Option MarginPosition) :
    Except WormError Target := do
  let observed ← inspectMarginPositionCashOutTarget position
  ensure (target.sameIdentity observed) .other
  pure observed

def prepareMarginPositionCashOut (target : Target) : Option CloseRequest :=
  if target.valid ∧ target.isLiquidated = false ∧ target.isClosed = false then
    some ⟨target.positionPubkey⟩
  else none

def positionCashOutProviderState (target : Target) : String :=
  if target.isLiquidated then "liquidated" else if target.isClosed then "closed" else "open"

/-! ## Closes -/

/-- `CloseMarginPositionResult` -/
structure CloseResult where
  positionPubkey : String
  closeType : String
  isClosed : Bool
  deriving DecidableEq

/-- `MarginPositionCashOutDispatchObservation`; the close type is not used. -/
structure DispatchObservation where
  positionPubkey : String
  isClosed : Bool
  deriving DecidableEq

def normalizeMarginPositionCashOutResult (result : Option CloseResult) (expected : String) :
    Option DispatchObservation × Option WormError :=
  match result with
  | none => (none, some .other)
  | some r =>
    if canonicalPublicKey r.positionPubkey = false then (some ⟨"", r.isClosed⟩, some .other)
    else if r.positionPubkey ≠ expected then (some ⟨r.positionPubkey, r.isClosed⟩, some .other)
    else if r.closeType ≠ "zero" ∧ r.closeType ≠ "order" then
      (some ⟨r.positionPubkey, r.isClosed⟩, some .invalid)
    else (some ⟨r.positionPubkey, r.isClosed⟩, none)

/-- What `DispatchMarginPositionCashOut` makes of the answer to a Close. -/
def dispatchResult (request : CloseRequest) (answer : Option CloseResult × Option WormError) :
    Option DispatchObservation × Option WormError :=
  let (observation, e) := normalizeMarginPositionCashOutResult answer.1 request.positionPubkey
  (observation, WormError.join answer.2 e)

/-- `classifyPositionCashOutDispatch`, whether the provider refused the Close. -/
def explicitlyRejected : WormError → Bool
  | .provider status _ _ =>
    status = 0 || (400 ≤ status && status < 500 && status ≠ 408 && status ≠ 429)
  | _ => false

def dispatchOutcome : Option WormError → Outcome
  | none => .acknowledged
  | some e => if explicitlyRejected e then .rejected else .outcomeUnknown

/-- `classifyPositionCashOutDispatch`, as it is stored with the attempt. -/
def dispatchResolution (e : Option WormError) (providerState : String) : Queries.Resolution :=
  let errorCode := (e.map classifyWormError).getD ""
  match e with
  | some (.provider status code slug) =>
    { outcome := dispatchOutcome e, httpStatus := status, providerCode := code
      providerSlug := slug, providerState, errorCode }
  | _ =>
    { outcome := dispatchOutcome e, httpStatus := 0, providerCode := 0, providerSlug := ""
      providerState, errorCode }

def dispatchState : Option DispatchObservation → String
  | none => ""
  | some o => if o.isClosed then "closed" else "closing"

/-! ## What the checks establish -/

theorem observedTarget_eq_ok {target observed : Target} {position : Option MarginPosition}
    (h : observedTarget target position = .ok observed) :
    inspectMarginPositionCashOutTarget position = .ok observed ∧
      observed.positionPubkey = target.positionPubkey ∧
      observed.marketConditionId = target.marketConditionId := by
  simp only [observedTarget, committed] at h
  obtain ⟨o, ho, hsame, rfl⟩ := h
  simp only [Target.sameIdentity, check_iff] at hsame
  exact ⟨ho, hsame.1.1.1.1, hsame.1.1.1.2⟩

theorem WormError.join_eq_none {e e' : Option WormError} (h : join e e' = none) :
    e = none ∧ e' = none := by
  cases e with
  | none => exact ⟨rfl, h⟩
  | some => unfold join at h; split at h <;> simp_all

theorem dispatchResult_eq_none {request : CloseRequest}
    {answer : Option CloseResult × Option WormError} {o : Option DispatchObservation}
    (h : dispatchResult request answer = (o, none)) :
    ∃ result, answer = (some result, none) ∧ o = some ⟨result.positionPubkey, result.isClosed⟩ := by
  obtain ⟨result, e⟩ := answer
  simp only [dispatchResult, Prod.mk.injEq] at h
  obtain ⟨rfl, hjoin⟩ := h
  obtain ⟨rfl, hnormal⟩ := WormError.join_eq_none hjoin
  cases result with
  | none => cases hnormal
  | some r =>
    refine ⟨r, rfl, ?_⟩
    simp only [normalizeMarginPositionCashOutResult] at hnormal ⊢
    split_ifs at hnormal ⊢
    rfl

end Athena.CashOuts
