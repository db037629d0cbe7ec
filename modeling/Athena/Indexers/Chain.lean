import Mathlib.Algebra.Order.Ring.Nat
import Mathlib.Data.List.Basic
import Mathlib.Order.Lattice

/-!
# A finalized chain

What a node of the chain answers: headers, blocks with their transactions, receipts and logs.
The hash of a block and the sender of a transaction are fields.

A chain is fixed up to its height.  Its blocks are linked by their parent hashes, every
transaction has one receipt, which names its position, and every log belongs to a transaction.
-/

namespace Athena.Indexers

abbrev Hash : Type := BitVec 256

abbrev Address : Type := BitVec 160

structure Header where
  number : Option ℕ
  hash : Hash
  time : ℕ
deriving DecidableEq

/-- `header.Number.Uint64()`, which keeps the low 64 bits. -/
def Header.uint64 (header : Header) : ℕ := header.number.getD 0 % 2 ^ 64

/-- A transaction.  There is no recipient when it creates a contract, and no sender when its
signature is not valid for the chain. -/
structure Transaction where
  hash : Hash
  recipient : Option Address
  value : ℕ
  data : List UInt8
  sender : Option Address
deriving DecidableEq

/-- A block.  A node may answer `null` in the place of a transaction. -/
structure Block where
  number : ℕ
  hash : Hash
  parentHash : Hash
  time : ℕ
  transactions : List (Option Transaction)
deriving DecidableEq

/-- `block.NumberU64()`. -/
def Block.numberU64 (block : Block) : ℕ := block.number % 2 ^ 64

structure Receipt where
  status : ℕ
  blockHash : Hash
  transactionIndex : ℕ
deriving DecidableEq

structure Log where
  blockNumber : ℕ
  blockHash : Hash
  txHash : Hash
  txIndex : ℕ
  index : ℕ
  topics : List Hash
  removed : Bool
deriving DecidableEq

structure Chain where
  height : ℕ
  block : ℕ → Block
  receipt : Hash → Receipt
  logs : ℕ → List Log
  number : ∀ n ≤ height, (block n).number = n
  linked : ∀ n < height, (block (n + 1)).parentHash = (block n).hash
  hash_injective : ∀ n ≤ height, ∀ m ≤ height, (block n).hash = (block m).hash → n = m
  receipt_position : ∀ n ≤ height, ∀ i t, (block n).transactions[i]? = some (some t) →
    (receipt t.hash).blockHash = (block n).hash ∧ (receipt t.hash).transactionIndex = i
  log_position : ∀ n ≤ height, ∀ l ∈ logs n, l.blockNumber = n ∧ l.blockHash = (block n).hash ∧
    ∃ t, (block n).transactions[l.txIndex]? = some (some t) ∧ t.hash = l.txHash

namespace Chain

variable (chain : Chain)

def header (n : ℕ) : Header := ⟨some n, (chain.block n).hash, (chain.block n).time⟩

structure At (n i : ℕ) (t : Transaction) : Prop where
  le : n ≤ chain.height
  get : (chain.block n).transactions[i]? = some (some t)

variable {chain}

theorem At.eq_of_hash_eq {n m i j : ℕ} {t u : Transaction} (ht : chain.At n i t)
    (hu : chain.At m j u) (h : t.hash = u.hash) : n = m ∧ i = j ∧ t = u := by
  have hti := chain.receipt_position n ht.le i t ht.get
  have huj := chain.receipt_position m hu.le j u hu.get
  rw [← h] at huj
  obtain rfl : n = m := chain.hash_injective n ht.le m hu.le (hti.1.symm.trans huj.1)
  obtain rfl : i = j := hti.2.symm.trans huj.2
  have := ht.get.symm.trans hu.get
  simp only [Option.some.injEq] at this
  exact ⟨rfl, rfl, this⟩

theorem At.eq_of_position_eq {n i : ℕ} {t u : Transaction} (ht : chain.At n i t)
    (hu : chain.At n i u) : t = u := by
  have := ht.get.symm.trans hu.get
  simpa only [Option.some.injEq] using this

end Chain
end Athena.Indexers
