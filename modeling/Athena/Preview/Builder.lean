import Athena.Execution.Exposure

/-!
# The preview of an execution

A preview says, for every wallet and every market of the plan, in order, whether an order would
be placed.  It estimates every market once, reads the exposure of every wallet once, and then
goes through the markets of each wallet with the USDC that is left.  An existing position in the
market, or any request in flight, blocks the rest of the wallet; so does a step that the wallet
cannot pay.  A market that is unavailable, or whose estimate was rejected, is passed over.
-/

namespace Athena.Preview

open Athena.Lib
open Athena.Execution (WalletExposure ExposedPosition parseExecutionPreviewDecimal
  executionPreviewOne validExecutionPreviewConditionID)

/-! ## Outcomes and errors -/

inductive Outcome
  | marketPositionExists
  | walletRequestInFlight
  | marketUnavailable
  | estimateRejected
  | insufficientUSDC
  | skippedAfterInsufficientUSDC
  | ready
  deriving DecidableEq

def Outcome.code : Outcome → String
  | .marketPositionExists => "MARKET_POSITION_EXISTS"
  | .walletRequestInFlight => "WALLET_REQUEST_IN_FLIGHT"
  | .marketUnavailable => "MARKET_UNAVAILABLE"
  | .estimateRejected => "ESTIMATE_REJECTED"
  | .insufficientUSDC => "INSUFFICIENT_USDC"
  | .skippedAfterInsufficientUSDC => "SKIPPED_AFTER_INSUFFICIENT_USDC"
  | .ready => "READY"

inductive EstimateError
  | provider
  | emptyResponse
  | invalid (field : String)
  | liquidationPrice
  | userFundsNeeded
  deriving DecidableEq

/-- Why the builder returns no preview.  A wallet or a market is named by its ordinal.  The
last two are not returned but panics. -/
inductive BuildError
  | noWallet
  | noMarket
  | walletInvalid (wallet : ℕ)
  | readClientRequired (wallet : ℕ)
  | duplicateWalletID (wallet : ℕ)
  | duplicateAddress (wallet : ℕ)
  | usdcBalanceInvalid (wallet : ℕ)
  | solBalanceInvalid (wallet : ℕ)
  | eventConditionID (market : ℕ)
  | conditionID (market : ℕ)
  | duplicateConditionID (market : ℕ)
  | backendInvalid (market : ℕ)
  | fundsInvalid (market : ℕ)
  | selectableConfiguration (market : ℕ)
  | unavailableCodeRequired (market : ℕ)
  | fundsDoNotMatchBackend (market : ℕ)
  | unsupportedBackendFunds (market : ℕ)
  | estimatePhase (marketConditionID : String) (e : EstimateError)
  | walletExposurePhase (walletOrdinal : ℕ) (walletID : ℤ)
  | mismatchedObservations
  | stepCount
  | normalizedEstimateInvalid (market : ℕ)
  | subtractionUnderflow
  | normalizationFailed
  deriving DecidableEq

/-! ## Amounts -/

/-- `decimalAmount.Subtract`.  The difference is written and parsed again. -/
def subtract (d other : Decimal) : Except BuildError Decimal := do
  ensure (d.cmp other ≠ .lt) .subtractionUnderflow
  found (parseExecutionPreviewDecimal (d.sub other).text) .normalizationFailed

theorem value_subtract {d other result : Decimal} (h : subtract d other = .ok result) :
    result.value = d.value - other.value := by
  obtain ⟨u, hensure, hfound⟩ := bind_eq_ok.mp h
  have hle : other.value ≤ d.value := by
    rw [← not_lt, ← Decimal.cmp_eq_lt_iff]
    exact ensure_eq_ok.mp hensure
  have htext := Execution.denotes_of_parse (found_eq_ok.mp hfound)
  rw [← Decimal.value_sub d other hle]
  exact htext.unique (Decimal.denotes_text _)

/-! ## Input -/

structure WalletInput where
  walletID : ℤ
  address : String
  usdcBalance : String
  solBalance : String
  hasClient : Bool := true

structure ItemInput where
  eventConditionID : String
  marketConditionID : String
  isYes : Bool
  backend : String
  funds : String
  selectable : Bool
  unavailableCode : String := ""

structure Input where
  wallets : List WalletInput
  items : List ItemInput

/-- `normalizedExecutionPreviewWallet` -/
structure Wallet extends WalletInput where
  usdc : Decimal

def isCanonicalNonEmptyString (value : String) : Bool :=
  value ≠ "" && value = Text.trimSpace value && !value.toList.any Text.isControl

/-- `normalizeWormWalletReference`, which changes nothing. -/
def validWalletReference (walletID : ℤ) (address : String) : Bool :=
  0 < walletID && address ≠ "" && address = Text.trimSpace address && Text.isBase58Key address

def executionPreviewFundsForBackend : String → String × Bool
  | "polymarket" => ("5", true)
  | "hyperliquid" => ("1", true)
  | _ => ("0", false)

def normalizeWallet (ordinal : ℕ) (seen : List Wallet) (w : WalletInput) :
    Except BuildError Wallet := do
  ensure (validWalletReference w.walletID w.address) (.walletInvalid ordinal)
  ensure w.hasClient (.readClientRequired ordinal)
  ensure (¬seen.any (·.walletID = w.walletID)) (.duplicateWalletID ordinal)
  ensure (¬seen.any (·.address = w.address)) (.duplicateAddress ordinal)
  let usdc ← found (parseExecutionPreviewDecimal w.usdcBalance) (.usdcBalanceInvalid ordinal)
  let sol ← found (parseExecutionPreviewDecimal w.solBalance) (.solBalanceInvalid ordinal)
  pure { w with usdcBalance := usdc.text, solBalance := sol.text, usdc }

def normalizeWallets (seen : List Wallet) : List WalletInput → Except BuildError (List Wallet)
  | [] => pure []
  | w :: rest => do
      let wallet ← normalizeWallet (seen.length + 1) seen w
      let wallets ← normalizeWallets (seen ++ [wallet]) rest
      pure (wallet :: wallets)

def checkFunds (ordinal : ℕ) (item : ItemInput) (funds : Decimal) : Except BuildError Unit :=
  let (expectedFunds, supportedBackend) := executionPreviewFundsForBackend item.backend
  if item.selectable then
    ensure (supportedBackend ∧ funds.text = expectedFunds ∧ item.unavailableCode = "")
      (.selectableConfiguration ordinal)
  else do
    ensure (isCanonicalNonEmptyString item.unavailableCode) (.unavailableCodeRequired ordinal)
    if supportedBackend then ensure (funds.text = expectedFunds) (.fundsDoNotMatchBackend ordinal)
    else ensure (funds.coefficient = 0) (.unsupportedBackendFunds ordinal)

/-- One market, after those that were seen.  A backend with capital letters beyond ASCII, which
the program refuses, passes here as an unsupported one. -/
def normalizeItem (ordinal : ℕ) (seen : List ItemInput) (item : ItemInput) :
    Except BuildError ItemInput := do
  ensure (validExecutionPreviewConditionID item.eventConditionID) (.eventConditionID ordinal)
  ensure (validExecutionPreviewConditionID item.marketConditionID) (.conditionID ordinal)
  ensure (¬seen.any (·.marketConditionID = item.marketConditionID)) (.duplicateConditionID ordinal)
  ensure (Text.toLower (Text.trimSpace item.backend) = item.backend ∧
    (item.backend = "" ∨ isCanonicalNonEmptyString item.backend)) (.backendInvalid ordinal)
  let funds ← found (parseExecutionPreviewDecimal item.funds) (.fundsInvalid ordinal)
  checkFunds ordinal item funds
  pure { item with funds := funds.text }

def normalizeItems (seen : List ItemInput) : List ItemInput → Except BuildError (List ItemInput)
  | [] => pure []
  | i :: rest => do
      let item ← normalizeItem (seen.length + 1) seen i
      let items ← normalizeItems (seen ++ [item]) rest
      pure (item :: items)

def normalizeExecutionPreviewInput (input : Input) :
    Except BuildError (List Wallet × List ItemInput) := do
  ensure (input.wallets ≠ []) .noWallet
  ensure (input.items ≠ []) .noMarket
  let wallets ← normalizeWallets [] input.wallets
  let items ← normalizeItems [] input.items
  pure (wallets, items)

/-! ## Estimates -/

/-- `worm.MarginPositionEstimate` -/
structure ProviderEstimate where
  averagePrice : String
  totalShares : String
  totalCost : String
  bestAsk : String
  worstFillPrice : String
  isFullyFilled : Bool
  feeAmount : String
  userFundsNeeded : String
  liquidationPrice : Option String := none

/-- The provider answers with an estimate, or fails, with a status if it was reached. -/
inductive ProviderReply
  | estimate (e : Option ProviderEstimate)
  | failure (statusCode : Option ℕ)

/-- `ExecutionPreviewMarketEstimate` -/
structure MarketEstimate where
  marketOrdinal : ℕ
  marketConditionID : String
  isYes : Bool
  funds : String
  averagePrice : String := ""
  totalShares : String := ""
  totalCost : String := ""
  bestAsk : String := ""
  worstFillPrice : String := ""
  isFullyFilled : Bool := false
  feeAmount : String := ""
  userFundsNeeded : String := ""
  rejectionCode : String := ""

def wormErrorRejected : String := "WORM_REJECTED"

def isExecutionPreviewEstimateRejection (statusCode : Option ℕ) : Bool :=
  statusCode.any fun c => 400 ≤ c && c < 500 && c ∉ [401, 403, 408, 425, 429]

def amountField (name value : String) : Except EstimateError String := do
  let amount ← found (parseExecutionPreviewDecimal value) (.invalid name)
  pure amount.text

def priceField (name value : String) : Except EstimateError String := do
  let price ← found (parseExecutionPreviewDecimal value) (.invalid name)
  ensure (price.cmp executionPreviewOne ≠ .gt) (.invalid name)
  pure price.text

def normalizeExecutionPreviewEstimate (base : MarketEstimate) (provider : ProviderEstimate) :
    Except EstimateError MarketEstimate := do
  let averagePrice ← priceField "average_price" provider.averagePrice
  let bestAsk ← priceField "best_ask" provider.bestAsk
  let worstFillPrice ← priceField "worst_fill_price" provider.worstFillPrice
  let totalShares ← amountField "total_shares" provider.totalShares
  let totalCost ← amountField "total_cost" provider.totalCost
  let feeAmount ← amountField "fee_amount" provider.feeAmount
  let userFundsNeeded ← amountField "user_funds_needed" provider.userFundsNeeded
  ensure (provider.liquidationPrice = none) .liquidationPrice
  let funds ← found (parseExecutionPreviewDecimal base.funds) (.invalid "funds")
  let fee ← found (parseExecutionPreviewDecimal feeAmount) (.invalid "fee_amount")
  let needed ← found (parseExecutionPreviewDecimal userFundsNeeded) (.invalid "user_funds_needed")
  ensure (funds.sumEquals fee needed) .userFundsNeeded
  pure { base with averagePrice, bestAsk, worstFillPrice, totalShares, totalCost, feeAmount,
                   userFundsNeeded, isFullyFilled := provider.isFullyFilled }

/-- `executionPreviewEstimateKey`, without the leverage, which is always one. -/
def executionPreviewEstimateKey (item : ItemInput) : String × Bool × String :=
  (item.marketConditionID, item.isYes, item.funds)

def estimateOf (base : MarketEstimate) : ProviderReply → Except EstimateError MarketEstimate
  | .failure statusCode =>
    if isExecutionPreviewEstimateRejection statusCode then
      pure { base with rejectionCode := wormErrorRejected }
    else .error .provider
  | .estimate none => .error .emptyResponse
  | .estimate (some provider) => normalizeExecutionPreviewEstimate base provider

/-- The estimates of the markets from an ordinal on.  The provider is asked once for each. -/
def fetchEstimates (reply : ℕ → ProviderReply) (ordinal : ℕ)
    (cache : List ((String × Bool × String) × MarketEstimate)) :
    List ItemInput → Except BuildError (List MarketEstimate)
  | [] => pure []
  | item :: rest => do
      let base : MarketEstimate :=
        { marketOrdinal := ordinal, marketConditionID := item.marketConditionID
          isYes := item.isYes, funds := item.funds }
      let key := executionPreviewEstimateKey item
      if !item.selectable then
        let estimates ← fetchEstimates reply (ordinal + 1) cache rest
        pure (base :: estimates)
      else
        match cache.lookup key with
        | some cached =>
          let estimates ← fetchEstimates reply (ordinal + 1) cache rest
          pure ({ cached with marketOrdinal := ordinal } :: estimates)
        | none =>
          let estimate ← (estimateOf base (reply ordinal)).mapError
            (.estimatePhase item.marketConditionID)
          let estimates ← fetchEstimates reply (ordinal + 1) ((key, estimate) :: cache) rest
          pure (estimate :: estimates)

/-! ## Steps -/

/-- `ExecutionPreviewStep` -/
structure Step where
  ordinal : ℕ
  walletOrdinal : ℕ
  marketOrdinal : ℕ
  walletID : ℤ
  marketConditionID : String
  isYes : Bool
  outcome : Outcome
  reasonCode : String := ""
  existingKind : String := ""
  existingPubkey : String := ""
  funds : String
  userFundsNeeded : String
  feeAmount : String
  usdcBalanceBefore : String
  usdcBalanceAfter : String

/-- What the loop over the markets of a wallet carries along. -/
structure Progress where
  remaining : Decimal
  blockedForUSDC : Bool := false
  blockedForWalletReason : Option Outcome := none

abbrev Row : Type := ItemInput × MarketEstimate

def firstExecutionPreviewMarketPosition (x : WalletExposure) (market : String) :
    Option ExposedPosition :=
  match x.positions market false, x.positions market true with
  | [], [] => none
  | [], yes :: _ => some yes
  | no :: _, [] => some no
  | no :: _, yes :: _ => if no.pubkey < yes.pubkey then some no else some yes

def Step.init (ordinal walletOrdinal marketOrdinal : ℕ) (wallet : Wallet) (row : Row)
    (remaining : Decimal) : Step where
  ordinal := ordinal
  walletOrdinal := walletOrdinal
  marketOrdinal := marketOrdinal
  walletID := wallet.walletID
  marketConditionID := row.1.marketConditionID
  isYes := row.1.isYes
  outcome := .ready
  funds := row.1.funds
  userFundsNeeded := row.2.userFundsNeeded
  feeAmount := row.2.feeAmount
  usdcBalanceBefore := remaining.text
  usdcBalanceAfter := remaining.text

def Step.skip (step : Step) (outcome : Outcome) (reasonCode : String) : Step :=
  { step with outcome, reasonCode }

def Step.skipExisting (step : Step) (outcome : Outcome) (existingKind existingPubkey : String) :
    Step :=
  { step with outcome, reasonCode := outcome.code, existingKind, existingPubkey }

def classify (x : WalletExposure) (row : Row) (step : Step) (p : Progress) :
    Except BuildError (Step × Progress) :=
  match p.blockedForWalletReason with
  | some reason => pure (step.skip reason reason.code, p)
  | none =>
  match firstExecutionPreviewMarketPosition x row.1.marketConditionID with
  | some position =>
    pure (step.skipExisting .marketPositionExists "POSITION" position.pubkey,
      { p with blockedForWalletReason := some .marketPositionExists })
  | none =>
  match x.requests with
  | request :: _ =>
    pure (step.skipExisting .walletRequestInFlight "REQUEST" request.pubkey,
      { p with blockedForWalletReason := some .walletRequestInFlight })
  | [] =>
  if p.blockedForUSDC then
    pure (step.skip .skippedAfterInsufficientUSDC Outcome.insufficientUSDC.code, p)
  else if !row.1.selectable then
    pure (step.skip .marketUnavailable row.1.unavailableCode, p)
  else if row.2.rejectionCode ≠ "" then
    pure (step.skip .estimateRejected row.2.rejectionCode, p)
  else do
    let needed ← found (parseExecutionPreviewDecimal row.2.userFundsNeeded)
      (.normalizedEstimateInvalid step.marketOrdinal)
    if p.remaining.cmp needed = .lt then
      pure (step.skip .insufficientUSDC Outcome.insufficientUSDC.code,
        { p with blockedForUSDC := true })
    else
      let remaining ← subtract p.remaining needed
      pure ({ step with usdcBalanceAfter := remaining.text }, { p with remaining })

def buildWalletSteps (walletOrdinal : ℕ) (wallet : Wallet) (x : WalletExposure) :
    ℕ → ℕ → List Row → Progress → Except BuildError (List Step)
  | _, _, [], _ => pure []
  | ordinal, marketOrdinal, row :: rows, p => do
      let step := Step.init ordinal walletOrdinal marketOrdinal wallet row p.remaining
      let (step, p) ← classify x row step p
      let steps ← buildWalletSteps walletOrdinal wallet x (ordinal + 1) (marketOrdinal + 1) rows p
      pure (step :: steps)

def buildAllSteps (rows : List Row) :
    ℕ → ℕ → List (Wallet × WalletExposure) → Except BuildError (List Step)
  | _, _, [] => pure []
  | ordinal, walletOrdinal, (wallet, x) :: rest => do
      let steps ← buildWalletSteps walletOrdinal wallet x ordinal 1 rows ⟨wallet.usdc, false, none⟩
      let more ← buildAllSteps rows (ordinal + rows.length) (walletOrdinal + 1) rest
      pure (steps ++ more)

def buildExecutionPreviewSteps (wallets : List Wallet) (items : List ItemInput)
    (estimates : List MarketEstimate) (exposures : List WalletExposure) :
    Except BuildError (List Step) := do
  ensure (estimates.length = items.length ∧ exposures.length = wallets.length)
    .mismatchedObservations
  ensure (wallets.length * items.length < 2 ^ 63) .stepCount
  buildAllSteps (items.zip estimates) 1 1 (wallets.zip exposures)

/-! ## The builder -/

/-- What the providers answer: the estimate of a market and the exposure of a wallet, by
ordinal. -/
structure Readings where
  estimate : ℕ → ProviderReply
  exposure : ℕ → Option WalletExposure

structure Result where
  estimates : List MarketEstimate
  steps : List Step

def fetchExposures (exposure : ℕ → Option WalletExposure) :
    ℕ → List Wallet → Except BuildError (List WalletExposure)
  | _, [] => pure []
  | ordinal, wallet :: rest => do
      let x ← found (exposure ordinal) (.walletExposurePhase ordinal wallet.walletID)
      let exposures ← fetchExposures exposure (ordinal + 1) rest
      pure (x :: exposures)

def build (readings : Readings) (input : Input) : Except BuildError Result := do
  let (wallets, items) ← normalizeExecutionPreviewInput input
  let estimates ← fetchEstimates readings.estimate 1 [] items
  let exposures ← fetchExposures readings.exposure 1 wallets
  let steps ← buildExecutionPreviewSteps wallets items estimates exposures
  pure ⟨estimates, steps⟩

/-- A key that the builder accepts. -/
def Sample.key (c : Char) : String := String.ofList (List.replicate 31 '1' ++ [c])

end Athena.Preview
