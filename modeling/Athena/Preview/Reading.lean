import Athena.Lib.Listing
import Athena.Lib.Paging
import Athena.Preview.Builder
import Mathlib.Data.String.Basic

/-!
# Reading a Wallet's exposure

The open positions and the requests in flight are two lists that the provider gives page by
page.  Both are read by the reader of `Athena.Lib.Paging`, each with the checks of its own items.
A request that some position already carries is left out, so that one trade is not counted twice.
-/

namespace Athena.Preview

open Athena.Lib Athena.Lib.Paging Athena.Execution

/-! ## What the provider gives -/

structure MarketSummary where
  conditionID : String
  title : String
  lastTradePrice : Option String

structure MarginPosition where
  pubkey : String
  positionRequestPubkey : Option String
  market : MarketSummary
  isYes : Bool
  leverage : String
  totalShares : String
  avgEntryPrice : String
  userLiquidity : String
  totalLiquidity : String
  liquidationPrice : Option String
  unrealizedPnL : Option String
  realizedPnL : String
  isClosed : Bool
  created : Option ℤ

structure PositionRequest where
  pubkey : String
  type : String
  state : String
  market : Option MarketSummary
  isYes : Bool
  leverage : String
  funds : String
  price : Option String
  shares : Option String

/-- The pattern of `isNonNegativeDecimalString`, maybe after a minus sign. -/
def isDecimalString (value : String) : Bool :=
  isNonNegativeDecimalString value ||
    (value.toList.head? = some '-' && isNonNegativeDecimalString (String.ofList value.toList.tail))

def MarketSummary.valid (market : MarketSummary) : Bool :=
  isCanonicalNonEmptyString market.conditionID && isCanonicalNonEmptyString market.title &&
    market.lastTradePrice.all isNonNegativeDecimalString

/-- Whether `wormOpenPositionFromProvider` succeeds. -/
def wormOpenPositionFromProvider (p : MarginPosition) : Bool :=
  isCanonicalNonEmptyString p.pubkey && p.market.valid &&
    [p.leverage, p.totalShares, p.avgEntryPrice, p.userLiquidity, p.totalLiquidity].all
      isNonNegativeDecimalString &&
    isDecimalString p.realizedPnL && p.liquidationPrice.all isNonNegativeDecimalString &&
    p.unrealizedPnL.all isDecimalString

/-- Whether `wormInFlightRequestFromProvider` succeeds. -/
def wormInFlightRequestFromProvider (q : PositionRequest) : Bool :=
  isCanonicalNonEmptyString q.pubkey &&
    Text.toLower (Text.trimSpace q.type) ∈ ["market", "limit"] &&
    isCanonicalNonEmptyString q.state && q.market.any MarketSummary.valid &&
    [q.leverage, q.funds].all isNonNegativeDecimalString &&
    q.price.all isNonNegativeDecimalString && q.shares.all isNonNegativeDecimalString

def isInFlightPositionRequestState (state : String) : Bool :=
  Text.toLower (Text.trimSpace state) ∈
    ["created", "funding_processing", "processing", "order_placed", "refund_processing"]

/-! ## The two lists -/

inductive ItemError
  | closedPosition
  | invalidPosition
  | invalidPositionRequestPubkey
  | terminalRequest
  | invalidRequest

/-- A position as it is kept, with its market. -/
def acceptPosition (p : MarginPosition) : Except ItemError (String × ExposedPosition) := do
  ensure (p.isClosed = false) .closedPosition
  ensure (wormOpenPositionFromProvider p ∧ validExecutionPreviewConditionID p.pubkey ∧
    validExecutionPreviewConditionID p.market.conditionID) .invalidPosition
  ensure (p.positionRequestPubkey.all validExecutionPreviewConditionID)
    .invalidPositionRequestPubkey
  pure (p.market.conditionID,
    { pubkey := p.pubkey
      positionRequestPubkey := p.positionRequestPubkey.getD ""
      isYes := p.isYes
      leverage := p.leverage
      created := (p.created.filter (0 < ·)).map Int.toNat })

def acceptRequest (q : PositionRequest) : Except ItemError ExposedRequest := do
  ensure (isInFlightPositionRequestState q.state) .terminalRequest
  ensure (wormInFlightRequestFromProvider q ∧ validExecutionPreviewConditionID q.pubkey)
    .invalidRequest
  let market ← found q.market .invalidRequest
  ensure (validExecutionPreviewConditionID market.conditionID) .invalidRequest
  pure { pubkey := q.pubkey, market := market.conditionID, isYes := q.isYes }

def executionPreviewPageSize : ℕ := 100

def executionPreviewCursorMaxSize : ℕ := 4096

def positionReader : Reader ItemError MarginPosition (String × ExposedPosition) where
  pageSize := executionPreviewPageSize
  maxCursorSize := executionPreviewCursorMaxSize
  canonical := isCanonicalNonEmptyString
  accept := acceptPosition
  key := fun p => p.2.pubkey

def requestReader : Reader ItemError PositionRequest ExposedRequest where
  pageSize := executionPreviewPageSize
  maxCursorSize := executionPreviewCursorMaxSize
  canonical := isCanonicalNonEmptyString
  accept := acceptRequest
  key := ExposedRequest.pubkey

/-! ## The exposure -/

/-- The requests that no position carries. -/
def suppressExecutionPreviewPositionBackedRequests (positionRequestPubkeys : List String)
    (requests : List ExposedRequest) : List ExposedRequest :=
  requests.filter fun q => q.pubkey ∉ positionRequestPubkeys

def exposureOf (positions : List (String × ExposedPosition)) (requests : List ExposedRequest) :
    WalletExposure where
  positions := fun market isYes =>
    orderBy ExposedPosition.pubkey
      ((positions.filter fun p => p.1 = market && p.2.isYes = isYes).map Prod.snd)
  requests := orderBy ExposedRequest.pubkey
    (suppressExecutionPreviewPositionBackedRequests
      ((positions.map fun p => p.2.positionRequestPubkey).filter (· ≠ "")) requests)

/-- Which of the two lists could not be read. -/
inductive ExposureError
  | positions (e : PagingError ItemError)
  | requests (e : PagingError ItemError)

def fetchExecutionPreviewWalletExposure (positions : ℕ → Reply MarginPosition)
    (requests : ℕ → Reply PositionRequest) (fuel : ℕ) :
    Option (Except ExposureError WalletExposure) := do
  match ← positionReader.read positions fuel with
  | .error e => some (.error (.positions e))
  | .ok ps =>
    match ← requestReader.read requests fuel with
    | .error e => some (.error (.requests e))
    | .ok qs => some (.ok (exposureOf ps qs))

theorem lists_of_fetch {positions : ℕ → Reply MarginPosition} {requests : ℕ → Reply PositionRequest}
    {fuel : ℕ} {x : WalletExposure}
    (h : fetchExecutionPreviewWalletExposure positions requests fuel = some (.ok x)) :
    ∃ ps qs, positionReader.Lists positions ps ∧ requestReader.Lists requests qs ∧
      x = exposureOf ps qs := by
  unfold fetchExecutionPreviewWalletExposure at h
  rcases hps : positionReader.read positions fuel with _ | _ | ps <;> rw [hps] at h
  · cases h
  · cases h
  rcases hqs : requestReader.read requests fuel with _ | _ | qs <;> rw [hqs] at h
  · cases h
  · cases h
  cases h
  exact ⟨ps, qs, Reader.lists_of_read hps, Reader.lists_of_read hqs, rfl⟩

theorem exists_fetch (positions : ℕ → Reply MarginPosition) (requests : ℕ → Reply PositionRequest) :
    ∃ result, fetchExecutionPreviewWalletExposure positions requests
      (positionReader.cursors + 1) = some result := by
  -- both lists have the same bound on their cursors
  have hcursors : requestReader.cursors = positionReader.cursors := rfl
  obtain ⟨ps, hps⟩ := positionReader.exists_read positions
  obtain ⟨qs, hqs⟩ := requestReader.exists_read requests
  rw [hcursors] at hqs
  unfold fetchExecutionPreviewWalletExposure
  rw [hps, hqs]
  rcases ps with e | ps
  · exact ⟨_, rfl⟩
  · rcases qs with e | qs <;> exact ⟨_, rfl⟩

theorem pubkey_ne_empty {replies : ℕ → Reply PositionRequest} {qs : List ExposedRequest}
    (h : requestReader.Lists replies qs) : ∀ q ∈ qs, q.pubkey ≠ "" := by
  intro q hq
  obtain ⟨pages, -, haccepted, -⟩ := h
  obtain ⟨a, -, ha⟩ := (mem_of_mapM haccepted).mp hq
  simp only [requestReader, acceptRequest, committed] at ha
  obtain ⟨-, ⟨-, hpubkey⟩, _, -, -, rfl⟩ := ha
  exact ne_empty_of_valid hpubkey

/-- Whatever the provider answers, a bounded number of calls is made, and a reading that succeeds
has each position of all pages once, under its market and side, and each request of all pages once
unless a position carries it. -/
theorem exposure_is_complete :
    (∃ fuel, ∀ positions requests,
      ∃ result, fetchExecutionPreviewWalletExposure positions requests fuel = some result) ∧
    ∀ positions requests fuel x,
      fetchExecutionPreviewWalletExposure positions requests fuel = some (.ok x) →
      ∃ ps qs, positionReader.Lists positions ps ∧ requestReader.Lists requests qs ∧
        (∀ market isYes, (x.positions market isYes).Perm
          ((ps.filter fun p => p.1 = market && p.2.isYes = isYes).map Prod.snd)) ∧
        x.requests.Perm (qs.filter fun q => ∀ p ∈ ps, p.2.positionRequestPubkey ≠ q.pubkey) := by
  refine ⟨⟨_, exists_fetch⟩, fun positions requests fuel x h => ?_⟩
  obtain ⟨ps, qs, hps, hqs, rfl⟩ := lists_of_fetch h
  refine ⟨ps, qs, hps, hqs, fun market isYes => perm_orderBy _ _, ?_⟩
  refine (perm_orderBy _ _).trans (.of_eq (List.filter_congr fun q hq => ?_))
  have := pubkey_ne_empty hqs q hq
  simp only [List.mem_filter, List.mem_map, decide_eq_true_eq, decide_eq_decide]
  grind

namespace Sample

def market : MarketSummary := ⟨key '2', "m", none⟩

/-- One position, on the first of two pages. -/
def positions (n : ℕ) : Reply MarginPosition :=
  some (some
    { items := [⟨key '3', some (key '4'), market, true, "1", "5", "0.5", "2.5", "2.5", none,
        none, "-0.1", false, some 7⟩].drop n
      limit := 100
      nextCursor := if n = 0 then some "c" else none })

def request (c : Char) : PositionRequest :=
  ⟨key c, "market", "processing", some market, true, "1", "5", none, none⟩

def requests (_ : ℕ) : Reply PositionRequest := some (some ⟨[request '5', request '4'], 100, none⟩)

end Sample

open Sample

theorem sample_exposure : ∃ (x : WalletExposure) (ps : List (String × ExposedPosition))
    (qs : List ExposedRequest),
    fetchExecutionPreviewWalletExposure positions requests 2 = some (.ok x) ∧
      x.requests.map ExposedRequest.pubkey = [key '5'] ∧
      x.requests.Perm (qs.filter fun q => ∀ p ∈ ps, p.2.positionRequestPubkey ≠ q.pubkey) := by
  have hreads : (fetchExecutionPreviewWalletExposure positions requests 2).any
      (commitsWith · fun x => x.requests.map ExposedRequest.pubkey = [key '5']) := by
    decide +kernel
  obtain ⟨result, hresult, hok⟩ := (Option.any_eq_true _ _).mp hreads
  obtain ⟨x, rfl, hx⟩ := exists_of_commitsWith hok
  obtain ⟨ps, qs, -, -, -, hperm⟩ := exposure_is_complete.2 _ _ _ _ hresult
  exact ⟨x, ps, qs, hresult, of_decide_eq_true hx, hperm⟩

end Athena.Preview
