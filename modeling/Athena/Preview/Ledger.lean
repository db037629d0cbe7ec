import Athena.Preview.Builder

/-!
# The ledger of a wallet

The steps of a wallet are the entries of an account.  The first starts with the balance of
the wallet, each starts where the one before ended, a step that is ready takes what it
needs, and a step that is skipped takes nothing.  A step is skipped exactly when something
blocks it: a position in its market or an earlier one, a request of the wallet in flight, a
step that could not be paid, or its own market.
-/

namespace Athena.Preview

open Athena.Lib List
open Athena.Execution (WalletExposure parseExecutionPreviewDecimal denotes_of_parse)

variable {x : WalletExposure} {row : Row} {step step' : Step} {p p' : Progress}

/-! ## One market -/

theorem firstExecutionPreviewMarketPosition_eq_none {market : String} :
    firstExecutionPreviewMarketPosition x market = none ↔ x.positionsIn market = [] := by
  unfold firstExecutionPreviewMarketPosition WalletExposure.positionsIn
  split <;> simp_all
  split <;> simp

structure Unblocked (x : WalletExposure) (row : Row) (p : Progress) : Prop where
  wallet : p.blockedForWalletReason = none
  position : x.positionsIn row.1.marketConditionID = []
  requests : x.requests = []

inductive Classifies (x : WalletExposure) (row : Row) (step : Step) (p : Progress) :
    Step → Progress → Prop
  | blocked (reason : Outcome) (h : p.blockedForWalletReason = some reason) :
      Classifies x row step p (step.skip reason reason.code) p
  | position (pubkey : String) (h : x.positionsIn row.1.marketConditionID ≠ []) :
      Classifies x row step p (step.skipExisting .marketPositionExists "POSITION" pubkey)
        { p with blockedForWalletReason := some .marketPositionExists }
  | request (pubkey : String) (h : x.requests ≠ []) :
      Classifies x row step p (step.skipExisting .walletRequestInFlight "REQUEST" pubkey)
        { p with blockedForWalletReason := some .walletRequestInFlight }
  | afterInsufficient (h : Unblocked x row p) (hblocked : p.blockedForUSDC) :
      Classifies x row step p
        (step.skip .skippedAfterInsufficientUSDC Outcome.insufficientUSDC.code) p
  | unavailable (h : Unblocked x row p) (hblocked : p.blockedForUSDC = false)
      (hitem : row.1.selectable = false) :
      Classifies x row step p (step.skip .marketUnavailable row.1.unavailableCode) p
  | rejected (h : Unblocked x row p) (hblocked : p.blockedForUSDC = false)
      (hestimate : row.2.rejectionCode ≠ "") :
      Classifies x row step p (step.skip .estimateRejected row.2.rejectionCode) p
  | insufficient (h : Unblocked x row p) (hitem : row.1.selectable)
      (hestimate : row.2.rejectionCode = "") (needed : ℚ)
      (hneeded : Decimal.Denotes row.2.userFundsNeeded needed) (hlt : p.remaining.value < needed) :
      Classifies x row step p (step.skip .insufficientUSDC Outcome.insufficientUSDC.code)
        { p with blockedForUSDC := true }
  | ready (h : Unblocked x row p) (hblocked : p.blockedForUSDC = false) (hitem : row.1.selectable)
      (hestimate : row.2.rejectionCode = "") (needed : ℚ)
      (hneeded : Decimal.Denotes row.2.userFundsNeeded needed) (hle : needed ≤ p.remaining.value)
      (remaining : Decimal) (hremaining : remaining.value = p.remaining.value - needed) :
      Classifies x row step p { step with usdcBalanceAfter := remaining.text }
        { p with remaining }

theorem classifies_of_ok (h : classify x row step p = .ok (step', p')) :
    Classifies x row step p step' p' := by
  unfold classify at h
  split at h
  · cases h
    exact .blocked _ ‹_›
  rename_i hwallet
  split at h
  · rename_i position hposition
    cases h
    exact .position position.pubkey fun hnil => by
      simp [firstExecutionPreviewMarketPosition_eq_none.mpr hnil] at hposition
  rename_i hposition
  split at h
  · rename_i request rest hrequests
    cases h
    exact .request request.pubkey (by simp [hrequests])
  rename_i hrequests
  have hopen : Unblocked x row p :=
    ⟨hwallet, firstExecutionPreviewMarketPosition_eq_none.mp hposition, hrequests⟩
  split at h
  · cases h
    exact .afterInsufficient hopen ‹_›
  rename_i hblocked
  have hblocked : p.blockedForUSDC = false := by simpa using hblocked
  split at h
  · rename_i hitem
    cases h
    exact .unavailable hopen hblocked (by simpa using hitem)
  rename_i hitem
  have hitem : row.1.selectable := by simpa using hitem
  split at h
  · cases h
    exact .rejected hopen hblocked ‹_›
  rename_i hestimate
  have hestimate : row.2.rejectionCode = "" := not_not.mp hestimate
  obtain ⟨needed, hneeded, h⟩ := bind_eq_ok.mp h
  have hdenotes := denotes_of_parse (found_eq_ok.mp hneeded)
  split at h
  · rename_i hlt
    cases h
    exact .insufficient hopen hitem hestimate needed.value hdenotes
      (Decimal.cmp_eq_lt_iff _ _ |>.mp hlt)
  · rename_i hlt
    obtain ⟨remaining, hremaining, h⟩ := bind_eq_ok.mp h
    cases h
    have hle : needed.value ≤ p.remaining.value := by
      rw [← not_lt, ← Decimal.cmp_eq_lt_iff]
      exact hlt
    exact .ready hopen hblocked hitem hestimate needed.value hdenotes hle remaining
      (value_subtract hremaining)

/-! ## Reasons -/

def LacksFunds (r : Row × Step) : Prop :=
  r.1.1.selectable ∧ r.1.2.rejectionCode = "" ∧ ∃ before needed,
    Decimal.Denotes r.2.usdcBalanceBefore before ∧ Decimal.Denotes r.2.userFundsNeeded needed ∧
      before < needed

/-- The step is covered by what an outcome stands for.  A position covers the step of its
market and all later ones, a request in flight covers all steps of the wallet, a step that
cannot be paid covers itself and all later ones, and a market covers its own step. -/
def Reason (x : WalletExposure) (before : List (Row × Step)) (r : Row × Step) : Outcome → Prop
  | .marketPositionExists => ∃ r' ∈ before ++ [r], x.positionsIn r'.1.1.marketConditionID ≠ []
  | .walletRequestInFlight => x.requests ≠ []
  | .marketUnavailable => r.1.1.selectable = false
  | .estimateRejected => r.1.2.rejectionCode ≠ ""
  | .insufficientUSDC => LacksFunds r
  | .skippedAfterInsufficientUSDC => ∃ r' ∈ before, LacksFunds r'
  | .ready => False

/-- A step is for its market, and is skipped exactly when there is a reason, for a reason that
there is. -/
structure Classified (x : WalletExposure) (before : List (Row × Step)) (r : Row × Step) : Prop where
  market : r.2.marketConditionID = r.1.1.marketConditionID
  needed : r.2.userFundsNeeded = r.1.2.userFundsNeeded
  skipped : r.2.outcome ≠ .ready → Reason x before r r.2.outcome
  covered : (∃ reason, Reason x before r reason) → r.2.outcome ≠ .ready

structure Seen (x : WalletExposure) (before : List (Row × Step)) (p : Progress) : Prop where
  reason : ∀ o, p.blockedForWalletReason = some o →
    (o = .marketPositionExists ∧ ∃ r ∈ before, x.positionsIn r.1.1.marketConditionID ≠ []) ∨
      (o = .walletRequestInFlight ∧ x.requests ≠ [])
  passed : p.blockedForWalletReason = none →
    (∀ r ∈ before, x.positionsIn r.1.1.marketConditionID = []) ∧
      (p.blockedForUSDC ↔ ∃ r ∈ before, LacksFunds r)

theorem seen_nil (x : WalletExposure) (remaining : Decimal) : Seen x [] ⟨remaining, false, none⟩ :=
  ⟨fun _ h => by simp at h, fun _ => by simp⟩

structure Begins (row : Row) (p : Progress) (step : Step) : Prop where
  outcome : step.outcome = .ready
  market : step.marketConditionID = row.1.marketConditionID
  needed : step.userFundsNeeded = row.2.userFundsNeeded
  before : step.usdcBalanceBefore = p.remaining.text
  after : step.usdcBalanceAfter = p.remaining.text

theorem begins_init (ordinal walletOrdinal marketOrdinal : ℕ) (wallet : Wallet) (row : Row)
    (p : Progress) :
    Begins row p (.init ordinal walletOrdinal marketOrdinal wallet row p.remaining) :=
  ⟨rfl, rfl, rfl, rfl, rfl⟩

section classified
variable {before : List (Row × Step)} (hbegins : Begins row p step)
include hbegins

theorem not_lacksFunds_of_ready {needed : ℚ} {after : String}
    (hneeded : Decimal.Denotes row.2.userFundsNeeded needed) (hle : needed ≤ p.remaining.value) :
    ¬LacksFunds (row, { step with usdcBalanceAfter := after }) := by
  rintro ⟨-, -, q, n, hq, hn, hlt⟩
  have hq : q = p.remaining.value := hq.unique (hbegins.before ▸ p.remaining.denotes_text)
  have hn : n = needed := hn.unique (hbegins.needed ▸ hneeded)
  rw [hq, hn] at hlt
  exact absurd hle (not_le.mpr hlt)

theorem classified_of_classifies (hseen : Seen x before p) (h : Classifies x row step p step' p') :
    Classified x before (row, step') := by
  have hskip {o : Outcome} {reason : String} (ho : o ≠ .ready)
      (hreason : Reason x before (row, step.skip o reason) o) :
      Classified x before (row, step.skip o reason) :=
    ⟨hbegins.market, hbegins.needed, fun _ => hreason, fun _ => ho⟩
  have hexisting {o : Outcome} {kind pubkey : String} (ho : o ≠ .ready)
      (hreason : Reason x before (row, step.skipExisting o kind pubkey) o) :
      Classified x before (row, step.skipExisting o kind pubkey) :=
    ⟨hbegins.market, hbegins.needed, fun _ => hreason, fun _ => ho⟩
  cases h with
  | blocked reason h =>
    obtain ⟨rfl, r, hr, hposition⟩ | ⟨rfl, hrequests⟩ := hseen.reason reason h
    · exact hskip (by decide) ⟨r, mem_append_left _ hr, hposition⟩
    · exact hskip (by decide) hrequests
  | position _ h => exact hexisting (by decide) ⟨_, mem_concat_self, h⟩
  | request _ h => exact hexisting (by decide) h
  | afterInsufficient h hblocked =>
    exact hskip (by decide) ((hseen.passed h.wallet).2.mp hblocked)
  | unavailable _ _ hitem => exact hskip (by decide) hitem
  | rejected _ _ hestimate => exact hskip (by decide) hestimate
  | insufficient h hitem hestimate needed hneeded hlt =>
    refine hskip (by decide) ⟨hitem, hestimate, _, needed, ?_, hbegins.needed ▸ hneeded, hlt⟩
    exact hbegins.before ▸ p.remaining.denotes_text
  | ready h hblocked hitem hestimate needed hneeded hle =>
    refine ⟨hbegins.market, hbegins.needed, fun hne => absurd hbegins.outcome hne, ?_⟩
    rintro ⟨o, ho⟩ -
    obtain ⟨hpositions, hfunds⟩ := hseen.passed h.wallet
    cases o with
    | marketPositionExists =>
      obtain ⟨r, hr, hposition⟩ := ho
      rcases mem_append.mp hr with hr | hr
      · exact hposition (hpositions r hr)
      · exact hposition (mem_singleton.mp hr ▸ h.position)
    | walletRequestInFlight => exact ho h.requests
    | marketUnavailable => exact absurd (hitem.symm.trans ho) (by decide)
    | estimateRejected => exact ho hestimate
    | insufficientUSDC => exact not_lacksFunds_of_ready hbegins hneeded hle ho
    | skippedAfterInsufficientUSDC => exact absurd (hblocked.symm.trans (hfunds.mpr ho)) (by decide)
    | ready => exact ho

theorem seen_of_classifies (hseen : Seen x before p) (h : Classifies x row step p step' p') :
    Seen x (before ++ [(row, step')]) p' := by
  -- while nothing blocks the wallet, what is known of the funds is all that changes
  have hopen {funds : Bool} {remaining : Decimal} (h : Unblocked x row p)
      (hfunds : funds ↔ (∃ r ∈ before, LacksFunds r) ∨ LacksFunds (row, step')) :
      Seen x (before ++ [(row, step')]) ⟨remaining, funds, p.blockedForWalletReason⟩ := by
    refine ⟨fun o ho => absurd (h.wallet.symm.trans ho) (by simp), fun _ => ⟨?_, ?_⟩⟩
    · intro r hr
      rcases mem_append.mp hr with hr | hr
      · exact (hseen.passed h.wallet).1 r hr
      · exact mem_singleton.mp hr ▸ h.position
    · rw [hfunds]
      simp only [mem_append, mem_singleton, or_and_right, exists_or, exists_eq_left]
  have hsame (h : Unblocked x row p) (hno : ¬LacksFunds (row, step')) :
      p.blockedForUSDC ↔ (∃ r ∈ before, LacksFunds r) ∨ LacksFunds (row, step') := by
    rw [(hseen.passed h.wallet).2, or_iff_left hno]
  cases h with
  | blocked reason h =>
    refine ⟨fun o ho => ?_, fun hnone => absurd (h.symm.trans hnone) (by simp)⟩
    obtain ⟨rfl, r, hr, hposition⟩ | hrequests := hseen.reason o ho
    · exact .inl ⟨rfl, r, mem_append_left _ hr, hposition⟩
    · exact .inr hrequests
  | position _ h =>
    refine ⟨fun o ho => .inl ⟨(Option.some.inj ho).symm, _, mem_concat_self, h⟩, ?_⟩
    exact fun hnone => absurd hnone (by simp)
  | request _ h =>
    exact ⟨fun o ho => .inr ⟨(Option.some.inj ho).symm, h⟩, fun hnone => absurd hnone (by simp)⟩
  | afterInsufficient h hblocked =>
    exact hopen h ⟨fun hb => .inl ((hseen.passed h.wallet).2.mp hb), fun _ => hblocked⟩
  | unavailable h _ hitem =>
    exact hopen h (hsame h fun hlacks => absurd (hitem.symm.trans hlacks.1) (by decide))
  | rejected h _ hestimate => exact hopen h (hsame h fun hlacks => hestimate hlacks.2.1)
  | insufficient h hitem hestimate needed hneeded hlt =>
    refine hopen h ⟨fun _ => .inr ⟨hitem, hestimate, _, needed, ?_, ?_, hlt⟩, fun _ => rfl⟩
    · exact hbegins.before ▸ p.remaining.denotes_text
    · exact hbegins.needed ▸ hneeded
  | ready h _ _ _ _ hneeded hle =>
    exact hopen h (hsame h (not_lacksFunds_of_ready hbegins hneeded hle))

end classified

/-! ## The markets of a wallet -/

/-- Steps as the entries of an account that starts with a balance. -/
inductive Ledger : ℚ → List Step → Prop
  | nil (balance : ℚ) : Ledger balance []
  | cons {before after : ℚ} {step : Step} {rest : List Step}
      (hbefore : Decimal.Denotes step.usdcBalanceBefore before)
      (hafter : Decimal.Denotes step.usdcBalanceAfter after) (nonneg : 0 ≤ before ∧ 0 ≤ after)
      (ready : step.outcome = .ready →
        ∃ needed, Decimal.Denotes step.userFundsNeeded needed ∧ after = before - needed)
      (skipped : step.outcome ≠ .ready → after = before) (hrest : Ledger after rest) :
      Ledger before (step :: rest)

theorem Ledger.cons_of_classifies {before : List (Row × Step)} {rest : List Step}
    (hbegins : Begins row p step) (hseen : Seen x before p)
    (h : Classifies x row step p step' p') (hrest : Ledger p'.remaining.value rest) :
    Ledger p.remaining.value (step' :: rest) := by
  have hdenotes := p.remaining.denotes_text
  have hsame {step' : Step} (hb : step'.usdcBalanceBefore = step.usdcBalanceBefore)
      (ha : step'.usdcBalanceAfter = step.usdcBalanceAfter) (houtcome : step'.outcome ≠ .ready)
      (hrest : Ledger p.remaining.value rest) : Ledger p.remaining.value (step' :: rest) :=
    .cons (hb ▸ hbegins.before ▸ hdenotes) (ha ▸ hbegins.after ▸ hdenotes)
      ⟨hdenotes.nonneg, hdenotes.nonneg⟩ (fun ho => absurd ho houtcome) (fun _ => rfl) hrest
  cases h with
  | blocked reason h =>
    refine hsame rfl rfl ?_ hrest
    obtain ⟨rfl, -⟩ | ⟨rfl, -⟩ := hseen.reason reason h <;> simp [Step.skip]
  | ready _ _ _ _ needed hneeded _ remaining hremaining =>
    have hafter := remaining.denotes_text
    refine .cons (hbegins.before ▸ hdenotes) hafter ⟨hdenotes.nonneg, hafter.nonneg⟩
      (fun _ => ⟨needed, hbegins.needed ▸ hneeded, hremaining⟩)
      (fun hne => absurd hbegins.outcome hne) hrest
  | position | request => exact hsame rfl rfl (by simp [Step.skipExisting]) hrest
  | _ => exact hsame rfl rfl (by simp [Step.skip]) hrest

variable {wallet : Wallet} {walletOrdinal ordinal marketOrdinal : ℕ}

variable {rows : List Row} {steps : List Step}

theorem walletSteps_cons
    (h : buildWalletSteps walletOrdinal wallet x ordinal marketOrdinal (row :: rows) p =
      .ok steps) :
    ∃ step' p' rest, steps = step' :: rest ∧
      Classifies x row
        (.init ordinal walletOrdinal marketOrdinal wallet row p.remaining) p step' p' ∧
      buildWalletSteps walletOrdinal wallet x (ordinal + 1) (marketOrdinal + 1) rows p' =
        .ok rest := by
  obtain ⟨⟨step', p'⟩, hclassify, h⟩ := bind_eq_ok.mp h
  obtain ⟨rest, hrest, h⟩ := bind_eq_ok.mp h
  cases h
  exact ⟨step', p', rest, rfl, classifies_of_ok hclassify, hrest⟩

theorem walletSteps_ledger {before : List (Row × Step)} (hseen : Seen x before p)
    (h : buildWalletSteps walletOrdinal wallet x ordinal marketOrdinal rows p = .ok steps) :
    Ledger p.remaining.value steps ∧ steps.length = rows.length ∧
      ∀ l₁ r l₂, rows.zip steps = l₁ ++ r :: l₂ → Classified x (before ++ l₁) r := by
  induction rows generalizing ordinal marketOrdinal p before steps with
  | nil =>
    cases h
    exact ⟨.nil _, rfl, fun l₁ r l₂ hsplit => by simp at hsplit⟩
  | cons row _ ih =>
    obtain ⟨step', p', rest, rfl, hclassifies, hrest⟩ := walletSteps_cons h
    have hbegins := begins_init ordinal walletOrdinal marketOrdinal wallet row p
    obtain ⟨hledger, hlength, hall⟩ := ih (seen_of_classifies hbegins hseen hclassifies) hrest
    refine ⟨hledger.cons_of_classifies hbegins hseen hclassifies, by simp [hlength], ?_⟩
    intro l₁ r l₂ hsplit
    cases l₁ with
    | nil =>
      obtain ⟨rfl, -⟩ := cons.inj hsplit
      rw [append_nil]
      exact classified_of_classifies hbegins hseen hclassifies
    | cons r' l₁ =>
      obtain ⟨rfl, htail⟩ := cons.inj hsplit
      have hr := hall l₁ r l₂ htail
      rwa [append_assoc] at hr

theorem walletOrdinal_of_walletSteps
    (h : buildWalletSteps walletOrdinal wallet x ordinal marketOrdinal rows p = .ok steps) :
    ∀ s ∈ steps, s.walletOrdinal = walletOrdinal := by
  induction rows generalizing ordinal marketOrdinal p steps with
  | nil =>
    cases h
    exact fun s hs => absurd hs not_mem_nil
  | cons _ _ ih =>
    obtain ⟨step', p', rest, rfl, hclassifies, hrest⟩ := walletSteps_cons h
    have hstep : step'.walletOrdinal = walletOrdinal := by cases hclassifies <;> rfl
    exact forall_mem_cons.mpr ⟨hstep, ih hrest⟩

/-! ## All wallets -/

def stepsOf (steps : List Step) (walletOrdinal : ℕ) : List Step :=
  steps.filter fun s => s.walletOrdinal = walletOrdinal

theorem stepsOf_allSteps {wallets : List (Wallet × WalletExposure)}
    (h : buildAllSteps rows ordinal walletOrdinal wallets = .ok steps) :
    (∀ s ∈ steps, walletOrdinal ≤ s.walletOrdinal) ∧
      ∀ k wallet x, wallets[k]? = some (wallet, x) → ∃ ordinal',
        buildWalletSteps (walletOrdinal + k) wallet x ordinal' 1 rows ⟨wallet.usdc, false, none⟩ =
          .ok (stepsOf steps (walletOrdinal + k)) := by
  induction wallets generalizing ordinal walletOrdinal steps with
  | nil =>
    cases h
    exact ⟨fun s hs => absurd hs not_mem_nil, fun k wallet x hk => by simp at hk⟩
  | cons first _ ih =>
    obtain ⟨mine, hmine, h⟩ := bind_eq_ok.mp h
    obtain ⟨more, hmore, h⟩ := bind_eq_ok.mp h
    cases h
    have hown := walletOrdinal_of_walletSteps hmine
    obtain ⟨hlater, hsteps⟩ := ih hmore
    refine ⟨fun s hs => ?_, fun k wallet x hk => ?_⟩
    · rcases mem_append.mp hs with hs | hs
      · exact (hown s hs).ge
      · exact Nat.le_of_succ_le (hlater s hs)
    · cases k with
      | zero =>
        obtain rfl : first = (wallet, x) := by simpa using hk
        have hmore : stepsOf more walletOrdinal = [] := by
          refine filter_eq_nil_iff.mpr fun s hs => ?_
          have := hlater s hs
          simp only [decide_eq_true_eq]
          omega
        have hall : stepsOf mine walletOrdinal = mine :=
          filter_eq_self.mpr fun s hs => by simp [hown s hs]
        refine ⟨ordinal, ?_⟩
        rw [Nat.add_zero, stepsOf, filter_append]
        rw [stepsOf] at hmore hall
        rw [hmore, hall, append_nil]
        exact hmine
      | succ k =>
        obtain ⟨ordinal', hk'⟩ := hsteps k wallet x (by simpa using hk)
        have hmine : stepsOf mine (walletOrdinal + (k + 1)) = [] := by
          refine filter_eq_nil_iff.mpr fun s hs => ?_
          have := hown s hs
          simp only [decide_eq_true_eq]
          omega
        refine ⟨ordinal', ?_⟩
        rw [stepsOf, filter_append]
        rw [stepsOf] at hmine
        rw [hmine, nil_append, show walletOrdinal + (k + 1) = walletOrdinal + 1 + k by omega]
        exact hk'

theorem usdc_of_normalizeWallets {seen wallets : List Wallet} {inputs : List WalletInput}
    (h : normalizeWallets seen inputs = .ok wallets) :
    List.Forall₂ (fun w wallet => parseExecutionPreviewDecimal w.usdcBalance = some wallet.usdc)
      inputs wallets := by
  induction inputs generalizing seen wallets with
  | nil =>
    cases h
    exact .nil
  | cons _ _ ih =>
    obtain ⟨wallet, hwallet, h⟩ := bind_eq_ok.mp h
    obtain ⟨rest, hrest, h⟩ := bind_eq_ok.mp h
    cases h
    refine .cons ?_ (ih hrest)
    simp only [normalizeWallet, committed] at hwallet
    obtain ⟨-, -, -, -, usdc, husdc, sol, -, rfl⟩ := hwallet
    exact husdc

theorem getElem?_fetchExposures {exposure : ℕ → Option WalletExposure} {wallets : List Wallet}
    {exposures : List WalletExposure}
    (h : fetchExposures exposure ordinal wallets = .ok exposures) :
    exposures.length = wallets.length ∧
      ∀ k, k < wallets.length → exposures[k]? = exposure (ordinal + k) := by
  induction wallets generalizing ordinal exposures with
  | nil =>
    cases h
    exact ⟨rfl, fun k hk => absurd hk (Nat.not_lt_zero k)⟩
  | cons _ _ ih =>
    obtain ⟨x, hx, h⟩ := bind_eq_ok.mp h
    obtain ⟨rest, hrest, h⟩ := bind_eq_ok.mp h
    cases h
    obtain ⟨hlength, hget⟩ := ih hrest
    refine ⟨by simp [hlength], fun k hk => ?_⟩
    cases k with
    | zero => exact (found_eq_ok.mp hx).symm
    | succ k =>
      rw [getElem?_cons_succ, hget k (by simpa using hk)]
      congr 1
      omega

theorem markets_of_normalizeItems {seen items inputs : List ItemInput}
    (h : normalizeItems seen inputs = .ok items) :
    List.Forall₂ (fun i item => item.marketConditionID = i.marketConditionID ∧
      item.selectable = i.selectable) inputs items := by
  induction inputs generalizing seen items with
  | nil =>
    cases h
    exact .nil
  | cons _ _ ih =>
    obtain ⟨item, hitem, h⟩ := bind_eq_ok.mp h
    obtain ⟨rest, hrest, h⟩ := bind_eq_ok.mp h
    cases h
    refine .cons ?_ (ih hrest)
    simp only [normalizeItem, committed] at hitem
    obtain ⟨-, -, -, -, funds, -, -, -, rfl⟩ := hitem
    exact ⟨rfl, rfl⟩

/-! ## Every preview -/

/-- In every preview that is built, the steps of every wallet are a ledger that starts with its
USDC balance, there is one for every market, and each is skipped exactly when something
covers it. -/
theorem build_ledger {readings : Readings} {input : Input} {result : Result}
    (h : build readings input = .ok result) {k : ℕ} {w : WalletInput}
    (hw : input.wallets[k]? = some w) :
    ∃ balance x items, Decimal.Denotes w.usdcBalance balance ∧ readings.exposure (k + 1) = some x ∧
      List.Forall₂ (fun i item => item.marketConditionID = i.marketConditionID ∧
        item.selectable = i.selectable) input.items items ∧
      Ledger balance (stepsOf result.steps (k + 1)) ∧
      (stepsOf result.steps (k + 1)).length = items.length ∧
      ∀ l₁ r l₂, (items.zip result.estimates).zip (stepsOf result.steps (k + 1)) = l₁ ++ r :: l₂ →
        Classified x l₁ r := by
  obtain ⟨⟨_, _⟩, hnormalize, h⟩ := bind_eq_ok.mp h
  obtain ⟨estimates, -, h⟩ := bind_eq_ok.mp h
  obtain ⟨exposures, hexposures, h⟩ := bind_eq_ok.mp h
  obtain ⟨steps, hsteps, h⟩ := bind_eq_ok.mp h
  cases h
  simp only [normalizeExecutionPreviewInput, committed] at hnormalize
  obtain ⟨-, -, wallets, hwallets, items, hitems, rfl, rfl⟩ := hnormalize
  obtain ⟨u, hensure, hsteps⟩ := bind_eq_ok.mp hsteps
  obtain ⟨-, -, hsteps⟩ := bind_eq_ok.mp hsteps
  obtain ⟨hestimates, -⟩ := ensure_eq_ok.mp hensure
  have husdc := usdc_of_normalizeWallets hwallets
  obtain ⟨hlength, hget⟩ := getElem?_fetchExposures hexposures
  have hk : k < input.wallets.length := (List.getElem?_eq_some_iff.mp hw).1
  have hk' : k < wallets.length := husdc.length_eq ▸ hk
  have hx : k < exposures.length := hlength ▸ hk'
  have hzip : (wallets.zip exposures)[k]? = some (wallets[k], exposures[k]) := by
    simp [hk', hx]
  obtain ⟨ordinal', hwallet⟩ := (stepsOf_allSteps hsteps).2 k _ _ hzip
  rw [Nat.add_comm 1 k] at hwallet
  obtain ⟨hledger, hsize, hall⟩ := walletSteps_ledger (seen_nil _ _) hwallet
  have hbalance : parseExecutionPreviewDecimal w.usdcBalance = some wallets[k].usdc := by
    have := husdc.get hk hk'
    rw [List.getElem?_eq_getElem hk, Option.some.injEq] at hw
    simpa [hw] using this
  refine ⟨_, exposures[k], items, denotes_of_parse hbalance, ?_, markets_of_normalizeItems hitems,
    hledger, ?_, fun l₁ r l₂ hsplit => hall l₁ r l₂ hsplit⟩
  · rw [Nat.add_comm k 1, ← hget k hk', List.getElem?_eq_getElem hx]
  · rw [hsize, List.length_zip, hestimates, Nat.min_self]

namespace Sample

def polymarket (c : Char) : ItemInput := ⟨key '2', key c, true, "polymarket", "5.0", true, ""⟩

def input : Input where
  wallets := [⟨1, key '3', "12.50", "0", true⟩, ⟨2, key '4', "100", "0", true⟩]
  items := [polymarket '5',
    { polymarket '6' with selectable := false, unavailableCode := "CLOSED" },
    polymarket '7', polymarket '8']

def estimate (feeAmount userFundsNeeded : String) : ProviderReply :=
  .estimate (some ⟨"0.5", "10", "5", "0.5", "0.5", true, feeAmount, userFundsNeeded, none⟩)

/-- The third market costs more than the first wallet has left, and the second wallet has a
position in the last market. -/
def readings : Readings where
  estimate
    | 3 => estimate "2.30" "7.30"
    | _ => estimate "0.25" "5.25"
  exposure
    | 1 => some ⟨fun _ _ => [], []⟩
    | _ => some ⟨fun market isYes => if market = key '8' && isYes then
        [⟨key '9', "", true, "1", none⟩] else [], []⟩

end Sample

/-- The first wallet pays one step and cannot pay the third.  The second wallet pays two, and is
blocked by its position. -/
theorem sample_ledger : ∃ result, build Sample.readings Sample.input = .ok result ∧
    (stepsOf result.steps 1).map (·.outcome) =
      [.ready, .marketUnavailable, .insufficientUSDC, .skippedAfterInsufficientUSDC] ∧
    (stepsOf result.steps 2).map (fun s => (s.outcome, s.usdcBalanceAfter)) =
      [(.ready, "94.75"), (.marketUnavailable, "94.75"), (.ready, "87.45"),
        (.marketPositionExists, "87.45")] ∧
    Ledger (25 / 2) (stepsOf result.steps 1) := by
  have hbuild : commitsWith (build Sample.readings Sample.input) fun result =>
      (stepsOf result.steps 1).map (·.outcome) =
        [.ready, .marketUnavailable, .insufficientUSDC, .skippedAfterInsufficientUSDC] &&
      (stepsOf result.steps 2).map (fun s => (s.outcome, s.usdcBalanceAfter)) =
        [(.ready, "94.75"), (.marketUnavailable, "94.75"), (.ready, "87.45"),
          (.marketPositionExists, "87.45")] := by decide +kernel
  obtain ⟨result, hok, hsteps⟩ := exists_of_commitsWith hbuild
  simp only [check_iff] at hsteps
  have hw : Sample.input.wallets[0]? = some ⟨1, Sample.key '3', "12.50", "0", true⟩ := rfl
  obtain ⟨balance, x, items, hbalance, -, -, hledger, -⟩ := build_ledger hok hw
  have hparse : parseExecutionPreviewDecimal "12.50" = some ⟨125, 1⟩ := by decide +kernel
  have hvalue : balance = 25 / 2 := by
    rw [hbalance.unique (denotes_of_parse hparse), Decimal.value]
    norm_num
  exact ⟨result, hok, hsteps.1, hsteps.2, hvalue ▸ hledger⟩

end Athena.Preview
