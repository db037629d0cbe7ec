import Athena.Execution.Queries
import Athena.Lib.Decimal

/-!
# Wallet exposure

One read of a Wallet's exposure lists its open positions and its requests that are
still in flight.  The worker consults such a read before it opens a position.
-/

namespace Athena.Execution

open Athena.Lib List

/-! ## Texts -/

def validExecutionPreviewConditionID (value : String) : Bool :=
  value ≠ "" && Text.trimSpace value = value && Text.isBase58Key value

theorem ne_empty_of_valid {value : String} (h : validExecutionPreviewConditionID value) :
    value ≠ "" := by
  simp only [validExecutionPreviewConditionID, check_iff] at h
  exact h.1.1

/-- `isNonNegativeDecimalString`: an integer without leading zeros, and after a point,
if there is one, at least one digit. -/
def isNonNegativeDecimalString (value : String) : Bool :=
  let whole := value.toList.takeWhile (· ≠ '.')
  let rest := value.toList.dropWhile (· ≠ '.')
  (whole = ['0'] || (whole.head?.any (fun c => '1' ≤ c && c ≤ '9') && whole.all Decimal.isDigit)) &&
    (rest = [] || (rest.drop 1 ≠ [] && (rest.drop 1).all Decimal.isDigit))

/-- The bound of `parseExecutionPreviewDecimal`. -/
def executionPreviewDecimalMaxLength : ℕ := 128

def parseExecutionPreviewDecimal (value : String) : Option Decimal :=
  if executionPreviewDecimalMaxLength < value.utf8ByteSize || !isNonNegativeDecimalString value then
    none
  else
    some (Decimal.read (value.toList.takeWhile (· ≠ '.'))
      ((value.toList.dropWhile (· ≠ '.')).drop 1))

theorem denotes_of_parse {value : String} {d : Decimal}
    (h : parseExecutionPreviewDecimal value = some d) : Decimal.Denotes value d.value := by
  unfold parseExecutionPreviewDecimal at h
  split at h
  · cases h
  · rename_i hvalid
    simp only [check_iff, Bool.not_eq_true', not_or, Bool.not_eq_false,
      isNonNegativeDecimalString] at hvalid
    obtain ⟨-, hwhole, hrest⟩ := hvalid
    cases h
    refine ⟨_, _, ?_, ?_, ?_, Decimal.value_read _ _⟩
    · rcases hwhole with h | h
      · rw [h]; rfl
      · exact h.2
    · rcases hrest with h | h
      · rw [h]; rfl
      · exact h.2
    · have hsplit := takeWhile_append_dropWhile (p := fun c => decide (c ≠ '.'))
        (l := value.toList)
      rcases hd : value.toList.dropWhile (· ≠ '.') with _ | ⟨c, cs⟩
      · left
        rw [hd, append_nil] at hsplit
        exact ⟨hsplit.symm, rfl⟩
      · right
        have hc : ¬ decide (c ≠ '.') = true := by
          have := List.head?_dropWhile_not (fun c => decide (c ≠ '.')) value.toList
          rw [hd] at this
          simpa using this
        rw [hd] at hsplit
        simp only [ne_eq, decide_not, Bool.not_eq_true', decide_eq_false_iff_not, not_not] at hc
        subst hc
        exact hsplit.symm

def executionPreviewOne : Decimal := ⟨1, 0⟩

/-! ## Exposure -/

/-- `executionPreviewPosition`: an open position, with the second it was created in. -/
structure ExposedPosition where
  pubkey : String
  positionRequestPubkey : String
  isYes : Bool
  leverage : String
  created : Option ℕ

/-- `executionPreviewRequest`: a request that is still in flight. -/
structure ExposedRequest where
  pubkey : String
  market : String
  isYes : Bool

/-- `executionPreviewWalletExposure`: the positions of each market and side, and the
requests of the whole Wallet. -/
structure WalletExposure where
  positions : String → Bool → List ExposedPosition
  requests : List ExposedRequest

def WalletExposure.positionsIn (x : WalletExposure) (market : String) : List ExposedPosition :=
  x.positions market false ++ x.positions market true

namespace Code
def marketPositionExists : Code := .lit "MARKET_POSITION_EXISTS"
def walletRequestInFlight : Code := .lit "WALLET_REQUEST_IN_FLIGHT"
end Code

def executionPreOpenGuard (x : WalletExposure) (market : String) : Option Code :=
  if x.positionsIn market ≠ [] then some .marketPositionExists
  else if x.requests ≠ [] then some .walletRequestInFlight
  else none

end Athena.Execution
