import Athena.Preview.Ledger

/-!
# The preview and the guard of the worker

Right before it opens a position the worker reads the exposure of the wallet again, and asks
whether the market of the Step is blocked.  The preview makes the same decision for the first
market of a wallet that is blocked, and then skips the rest of the wallet; so does the execution.
-/

namespace Athena.Preview

open Athena.Lib List
open Athena.Execution (WalletExposure Code executionPreOpenGuard)

def Outcome.exposureCode : Outcome → Option Code
  | .marketPositionExists => some .marketPositionExists
  | .walletRequestInFlight => some .walletRequestInFlight
  | _ => none

def guardAll (x : WalletExposure) (items : List ItemInput) : Option Code :=
  items.findSome? fun item => executionPreOpenGuard x item.marketConditionID

/-- The loop has stopped at the markets before for a reason, or has not. -/
inductive Progress.Stopped : Option Code → Progress → Prop
  | running (remaining : Decimal) (blocked : Bool) : Stopped none ⟨remaining, blocked, none⟩
  | stopped (remaining : Decimal) (blocked : Bool) (outcome : Outcome) (code : Code)
      (h : outcome.exposureCode = some code) :
      Stopped (some code) ⟨remaining, blocked, some outcome⟩

/-- The step of a wallet and a market, which is skipped for the given exposure, if any. -/
structure Step.Blames (s : Step) (wallet market : ℕ) (code : Option Code) : Prop where
  wallet : s.walletOrdinal = wallet
  market : s.marketOrdinal = market
  code : s.outcome.exposureCode = code
  reason : s.outcome.exposureCode.isSome → s.reasonCode = s.outcome.code

theorem blames_of_classify {x : WalletExposure} {row : Row} {step s : Step} {p p' : Progress}
    {g : Option Code} (hready : step.outcome = .ready) (hp : p.Stopped g)
    (h : classify x row step p = .ok (s, p')) :
    p'.Stopped (g.or (executionPreOpenGuard x row.1.marketConditionID)) ∧
      s.Blames step.walletOrdinal step.marketOrdinal
        (g.or (executionPreOpenGuard x row.1.marketConditionID)) := by
  cases hp with
  | stopped _ _ outcome code hcode =>
    obtain ⟨rfl, rfl⟩ : step.skip outcome outcome.code = s ∧ _ = p' := by simpa [classify] using h
    exact ⟨.stopped _ _ _ _ hcode, rfl, rfl, hcode, fun _ => rfl⟩
  | running remaining blocked =>
    unfold classify at h
    dsimp only at h
    cases hfirst : firstExecutionPreviewMarketPosition x row.1.marketConditionID with
    | some position =>
      have hguard : executionPreOpenGuard x row.1.marketConditionID =
          some .marketPositionExists := by
        refine if_pos fun hnone => ?_
        simp [firstExecutionPreviewMarketPosition_eq_none.mpr hnone] at hfirst
      rw [hfirst] at h
      obtain ⟨rfl, rfl⟩ := pure_pair.mp h
      rw [hguard]
      exact ⟨.stopped _ _ _ _ rfl, rfl, rfl, rfl, fun _ => rfl⟩
    | none =>
      have hnone := firstExecutionPreviewMarketPosition_eq_none.mp hfirst
      rw [hfirst] at h
      cases hrequests : x.requests with
      | cons request rest =>
        have hguard : executionPreOpenGuard x row.1.marketConditionID =
            some .walletRequestInFlight := by
          simp [executionPreOpenGuard, hnone, hrequests]
        rw [hrequests] at h
        obtain ⟨rfl, rfl⟩ := pure_pair.mp h
        rw [hguard]
        exact ⟨.stopped _ _ _ _ rfl, rfl, rfl, rfl, fun _ => rfl⟩
      | nil =>
        have hguard : executionPreOpenGuard x row.1.marketConditionID = none := by
          simp [executionPreOpenGuard, hnone, hrequests]
        rw [hrequests] at h
        dsimp only at h
        rw [hguard]
        -- the other outcomes do not speak of the exposure
        have hother (s₁ : Step) (remaining : Decimal) (blocked : Bool)
            (heq : (pure (s₁, ⟨remaining, blocked, none⟩) : Except BuildError _) = .ok (s, p'))
            (hwallet : s₁.walletOrdinal = step.walletOrdinal)
            (hmarket : s₁.marketOrdinal = step.marketOrdinal)
            (hcode : s₁.outcome.exposureCode = none) :
            p'.Stopped none ∧ s.Blames step.walletOrdinal step.marketOrdinal none := by
          obtain ⟨rfl, rfl⟩ := pure_pair.mp heq
          exact ⟨.running _ _, hwallet, hmarket, hcode, fun hsome => by simp [hcode] at hsome⟩
        split_ifs at h
        · exact hother _ _ _ h rfl rfl rfl
        · exact hother _ _ _ h rfl rfl rfl
        · exact hother _ _ _ h rfl rfl rfl
        · obtain ⟨needed, -, h⟩ := bind_eq_ok.mp h
          split_ifs at h
          · exact hother _ _ _ h rfl rfl rfl
          · obtain ⟨left, -, h⟩ := bind_eq_ok.mp h
            exact hother _ _ _ h rfl rfl (by rw [hready]; rfl)

theorem blames_of_walletSteps {x : WalletExposure} {wallet : Wallet} {rows : List Row}
    {walletOrdinal ordinal marketOrdinal : ℕ} {p : Progress} {steps : List Step} {g : Option Code}
    (hp : p.Stopped g)
    (h : buildWalletSteps walletOrdinal wallet x ordinal marketOrdinal rows p = .ok steps) :
    steps.length = rows.length ∧ ∀ (k : ℕ) (s : Step), steps[k]? = some s →
      s.Blames walletOrdinal (marketOrdinal + k)
        (g.or (guardAll x ((rows.take (k + 1)).map Prod.fst))) := by
  induction rows generalizing ordinal marketOrdinal p steps g with
  | nil =>
    obtain rfl : [] = steps := by simpa [buildWalletSteps] using h
    simp
  | cons row _ ih =>
    simp only [buildWalletSteps, committed, Prod.exists] at h
    obtain ⟨s, p', hclassify, rest, hrest, rfl⟩ := h
    obtain ⟨hp', hwallet, hmarket, hcode, hreason⟩ := blames_of_classify rfl hp hclassify
    obtain ⟨hlength, hrest⟩ := ih hp' hrest
    refine ⟨by simp [hlength], fun k s' hs' => ?_⟩
    cases k with
    | zero =>
      obtain rfl : s = s' := by simpa using hs'
      refine ⟨hwallet, hmarket, ?_, hreason⟩
      rw [hcode]
      cases g <;> simp [guardAll]
    | succ k =>
      obtain ⟨hwallet', hmarket', hcode', hreason'⟩ := hrest k s' (by simpa using hs')
      refine ⟨hwallet', by omega, ?_, hreason'⟩
      rw [hcode']
      cases g with
      | some code => simp
      | none =>
        simp only [guardAll, take_succ_cons, map_cons, findSome?_cons]
        cases executionPreOpenGuard x row.1.marketConditionID <;> rfl

theorem blames_of_allSteps {rows : List Row} {ordinal walletOrdinal : ℕ}
    {pairs : List (Wallet × WalletExposure)} {steps : List Step}
    (h : buildAllSteps rows ordinal walletOrdinal pairs = .ok steps) {w : ℕ} {wallet : Wallet}
    {x : WalletExposure} (hw : pairs[w]? = some (wallet, x)) {k : ℕ} (hk : k < rows.length) :
    ∃ s, steps[w * rows.length + k]? = some s ∧ s.Blames (walletOrdinal + w) (1 + k)
      (guardAll x ((rows.take (k + 1)).map Prod.fst)) := by
  induction pairs generalizing ordinal walletOrdinal steps w with
  | nil => simp at hw
  | cons pair _ ih =>
    obtain ⟨wallet', x'⟩ := pair
    simp only [buildAllSteps, committed] at h
    obtain ⟨first, hfirst, rest, hrest, rfl⟩ := h
    obtain ⟨hlength, hsteps⟩ := blames_of_walletSteps (.running _ _) hfirst
    cases w with
    | zero =>
      obtain ⟨rfl, rfl⟩ : wallet' = wallet ∧ x' = x := by simpa using hw
      have hk' : k < first.length := hlength ▸ hk
      have hget := getElem?_eq_getElem hk'
      refine ⟨first[k], ?_, by simpa using hsteps k _ hget⟩
      rw [Nat.zero_mul, Nat.zero_add, getElem?_append_left hk', hget]
    | succ w =>
      obtain ⟨s, hs, hblames⟩ := ih hrest (by simpa using hw)
      refine ⟨s, ?_, Nat.succ_add_eq_add_succ walletOrdinal w ▸ hblames⟩
      rw [Nat.succ_mul, getElem?_append_right (by omega), ← hs]
      congr 1
      omega

/-- In every preview, the step of a wallet and a market is skipped for the exposure of the
wallet exactly when the guard blocks its market or an earlier one, and for the reason that the
guard gives for the first. -/
theorem preview_agrees_with_guard (wallets : List Wallet) (items : List ItemInput)
    (estimates : List MarketEstimate) (exposures : List WalletExposure) (steps : List Step)
    (h : buildExecutionPreviewSteps wallets items estimates exposures = .ok steps) :
    ∀ w x, exposures[w]? = some x → ∀ k < items.length,
      ∃ s, steps[w * items.length + k]? = some s ∧ s.walletOrdinal = w + 1 ∧
        s.marketOrdinal = k + 1 ∧ s.outcome.exposureCode = guardAll x (items.take (k + 1)) ∧
        (s.outcome.exposureCode.isSome → s.reasonCode = s.outcome.code) := by
  simp only [buildExecutionPreviewSteps, committed] at h
  obtain ⟨⟨hestimates, hexposures⟩, -, h⟩ := h
  intro w x hx k hk
  have hrows : (items.zip estimates).length = items.length := by simp [hestimates]
  have hw : w < wallets.length := by
    rw [← hexposures]
    exact (List.getElem?_eq_some_iff.mp hx).1
  have hpair : (wallets.zip exposures)[w]? = some (wallets[w], x) :=
    List.getElem?_zip_eq_some.mpr ⟨List.getElem?_eq_getElem hw, hx⟩
  obtain ⟨s, hs, hwallet, hmarket, hcode, hreason⟩ :=
    blames_of_allSteps h hpair (hrows ▸ hk)
  rw [hrows] at hs
  have hmap : ((items.zip estimates).take (k + 1)).map Prod.fst = items.take (k + 1) := by
    rw [List.map_take, List.map_fst_zip (by omega)]
  exact ⟨s, hs, by omega, by omega, hmap ▸ hcode, hreason⟩

/-! ## Two markets -/

namespace Sample

def wallet : Wallet :=
  { walletID := 1, address := key '3', usdcBalance := "0", solBalance := "0", usdc := ⟨0, 0⟩ }

def item (c : Char) : ItemInput := { polymarket c with funds := "5" }

def marketEstimate (c : Char) : MarketEstimate :=
  { marketOrdinal := 1, marketConditionID := key c, isYes := true, funds := "5"
    userFundsNeeded := "5" }

/-- One position in a market, and the given requests. -/
def exposure (c : Char) (requests : List Execution.ExposedRequest) : WalletExposure :=
  ⟨fun m isYes => if m = key c && isYes then [⟨key '9', "", true, "1", none⟩] else [], requests⟩

def steps (x : WalletExposure) : Except BuildError (List Step) :=
  buildExecutionPreviewSteps [wallet] [item '5', item '6'] [marketEstimate '5', marketEstimate '6']
    [x]

end Sample

open Sample

theorem sample_preview : ∃ l, steps (exposure '5' []) = .ok l ∧
    ∃ s, l[1]? = some s ∧ s.outcome.exposureCode = some .marketPositionExists := by
  obtain ⟨l, hl, -⟩ := exists_of_commitsWith (x := steps (exposure '5' []))
    (p := fun _ => true) (by decide +kernel)
  obtain ⟨s, hs, -, -, hcode, -⟩ := preview_agrees_with_guard _ _ _ _ l hl 0 _ rfl 1 (by decide)
  refine ⟨l, hl, s, hs, hcode.trans ?_⟩
  decide +kernel

/-- A step is skipped although the guard lets its market through, and another for a reason that
is not the one the guard gives for its market. -/
theorem preview_differs_from_guard :
    (commitsWith (steps (exposure '5' [])) fun l =>
        l[1]?.any fun s => s.outcome = .marketPositionExists) ∧
      executionPreOpenGuard (exposure '5' []) (key '6') = none ∧
      (commitsWith (steps (exposure '6' [⟨key '7', key '5', true⟩])) fun l =>
        l[1]?.any fun s => s.outcome = .walletRequestInFlight) ∧
      executionPreOpenGuard (exposure '6' [⟨key '7', key '5', true⟩]) (key '6') =
        some .marketPositionExists := by
  refine ⟨by decide +kernel, ?_, by decide +kernel, ?_⟩ <;> decide +kernel

end Athena.Preview
