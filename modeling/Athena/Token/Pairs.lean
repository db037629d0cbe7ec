import Athena.Indexers.Chain

/-!
# Swap pairs

A project has two pairs whose swaps are sampled, one against the wrapped coin and one against
the stable coin.  A pair collects samples until there are a hundred, or until it expires: when
it never swaps, when it no longer swaps, or when it has been observed for long enough.

The constraints of the table are part of the model.  A comparison with a column that is null is
neither true nor false, and a constraint fails only when it is false.
-/

namespace Athena.Token

open Athena.Indexers (Address)

inductive PairKind
  | weth
  | usdt
deriving DecidableEq

inductive PairStatus
  | collecting
  | completed
  | expired
deriving DecidableEq

inductive ExpiredReason
  | noSwap
  | inactive
  | maxDuration
deriving DecidableEq

/-- A row of the pairs.  Times are those of blocks, in seconds. -/
structure ProjectSwapPair where
  id : ℕ
  projectID : ℕ
  chainID : ℤ
  kind : PairKind
  address : Address
  startBlockNumber : ℕ
  startBlockTime : ℕ
  swapBlockCount : ℕ := 0
  status : PairStatus := .collecting
  firstSwapBlockNumber : Option ℕ := none
  firstSwapBlockTime : Option ℕ := none
  lastSwapBlockNumber : Option ℕ := none
  lastSwapBlockTime : Option ℕ := none
  absoluteExpiryBlockTime : ℕ
  nextExpiryBlockTime : Option ℕ
  completedBlockNumber : Option ℕ := none
  completedBlockTime : Option ℕ := none
  expiredBlockNumber : Option ℕ := none
  expiredBlockTime : Option ℕ := none
  expiredReason : Option ExpiredReason := none
deriving DecidableEq

/-- `FirstSwapTimeout`, in seconds. -/
def firstSwapTimeout : ℕ := 24 * 60 * 60

/-- `AbsoluteObservationTimeout`, in seconds. -/
def absoluteObservationTimeout : ℕ := 7 * 24 * 60 * 60

/-- A comparison that a null does not violate. -/
def NotAfter (a b : Option ℕ) : Prop := ∀ m ∈ a, ∀ n ∈ b, m ≤ n

instance (a b : Option ℕ) : Decidable (NotAfter a b) := by
  unfold NotAfter
  infer_instance

def NotApart (a b : Option ℕ) : Prop := ∀ m ∈ a, ∀ n ∈ b, m = n

instance (a b : Option ℕ) : Decidable (NotApart a b) := by
  unfold NotApart
  infer_instance

namespace ProjectSwapPair

variable (p : ProjectSwapPair)

def Placed : Prop :=
  p.address ≠ 0 ∧ 0 < p.startBlockNumber ∧ p.swapBlockCount ≤ 100 ∧
    p.startBlockTime < p.absoluteExpiryBlockTime ∧
    ∀ t ∈ p.nextExpiryBlockTime, p.startBlockTime < t ∧ t ≤ p.absoluteExpiryBlockTime

def Observed : Prop :=
  NotAfter (some p.startBlockNumber) p.firstSwapBlockNumber ∧
    NotAfter (some p.startBlockTime) p.firstSwapBlockTime ∧
    NotAfter p.firstSwapBlockNumber p.lastSwapBlockNumber ∧
    NotAfter p.firstSwapBlockTime p.lastSwapBlockTime ∧
    ((p.swapBlockCount = 0 ∧ p.firstSwapBlockNumber = none ∧ p.firstSwapBlockTime = none ∧
        p.lastSwapBlockNumber = none ∧ p.lastSwapBlockTime = none) ∨
      (0 < p.swapBlockCount ∧ p.firstSwapBlockNumber.isSome ∧ p.firstSwapBlockTime.isSome ∧
        p.lastSwapBlockNumber.isSome ∧ p.lastSwapBlockTime.isSome))

def Settled : Prop :=
  (p.status = .collecting ∧ p.swapBlockCount < 100 ∧ p.nextExpiryBlockTime.isSome ∧
      p.completedBlockNumber = none ∧ p.completedBlockTime = none ∧
      p.expiredBlockNumber = none ∧ p.expiredBlockTime = none ∧ p.expiredReason = none) ∨
    (p.status = .completed ∧ p.swapBlockCount = 100 ∧ p.nextExpiryBlockTime = none ∧
      p.completedBlockNumber.isSome ∧ p.completedBlockTime.isSome ∧
      p.expiredBlockNumber = none ∧ p.expiredBlockTime = none ∧ p.expiredReason = none) ∨
    (p.status = .expired ∧ p.swapBlockCount < 100 ∧ p.nextExpiryBlockTime = none ∧
      p.completedBlockNumber = none ∧ p.completedBlockTime = none ∧
      p.expiredBlockNumber.isSome ∧ p.expiredBlockTime.isSome ∧ p.expiredReason.isSome)

def Ended : Prop :=
  (p.completedBlockNumber = none ∨ (NotApart p.completedBlockNumber p.lastSwapBlockNumber ∧
      NotApart p.completedBlockTime p.lastSwapBlockTime)) ∧
    (p.expiredBlockNumber = none ∨
      (NotAfter (some (p.lastSwapBlockNumber.getD p.startBlockNumber)) p.expiredBlockNumber ∧
        NotAfter (some (p.lastSwapBlockTime.getD p.startBlockTime)) p.expiredBlockTime))

/-- The constraints of the table. -/
def Checked : Prop := p.Placed ∧ p.Observed ∧ p.Settled ∧ p.Ended

instance : Decidable p.Checked := by
  unfold Checked Placed Observed Settled Ended
  infer_instance

end ProjectSwapPair
end Athena.Token
