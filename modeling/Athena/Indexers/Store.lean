import Athena.Indexers.Chain
import Athena.Lib.Table

/-!
# The store of an indexer

The two indexers keep one row that says how far the chain was scanned, and a table of
transactions.  A batch of transactions is written together with the cursor, in one transaction
that expects the cursor where the batch begins.  The store needs of a row its hash, its
position, and whether it can be written.
-/

namespace Athena.Indexers

open Athena.Lib List

inductive Failure
  -- a call that failed, a query without a row, and a statement that violates a constraint
  | node
  | database
  | noRows
  | constraint (name : String)
  -- the answers of the node
  | invalidFinalizedHeader
  | invalidHeader (number : ℕ)
  | invalidBlock (number : ℕ)
  | emptyReceipt (transactionHash : Hash)
  | invalidLogRange (start stop : ℕ)
  -- the scanners
  | finalizedHeight
  | emptyBatch
  | parentHash (number : ℕ)
  | sender (transactionHash : Hash)
  | receiptPosition (transactionHash : Hash)
  | checkpointHash (number : ℕ)
  | logRemoved (transactionHash : Hash) (index : ℕ)
  | logOutside (number start stop : ℕ)
  | logTopic (transactionHash : Hash) (index : ℕ)
  | logEmptyHash (number : ℕ)
  | logPositions (transactionHash : Hash)
  | blockNotFetched (number : ℕ)
  | blockHash (number : ℕ)
  | transactionIndex (index number : ℕ)
  | transactionPosition (transactionHash : Hash)
  -- the store
  | cursorMustAdvance (cursor expected : ℕ)
  | exceedsInt64 (field : String)
  | valueMustBePositive (transactionHash : Hash)
  | checkpointConflict

def uint64ToInt64 (field : String) (value : ℕ) : Except Failure ℕ := do
  ensure (value ≤ maxInt64) (.exceedsInt64 field)
  pure value

/-- What the store needs of a row: its columns with constraints, and the checks that it passes
before it is written. -/
class Record (ρ : Type) where
  transactionHash : ρ → Hash
  blockNumber : ρ → ℕ
  transactionIndex : ρ → ℕ
  transactionParams : ρ → Except Failure Unit

def Record.position {ρ : Type} [Record ρ] (row : ρ) : ℕ × ℕ :=
  (blockNumber row, transactionIndex row)

def positionParams (blockNumber blockTimestamp transactionIndex : ℕ) : Except Failure Unit := do
  let _ ← uint64ToInt64 "block_number" blockNumber
  let _ ← uint64ToInt64 "block_timestamp" blockTimestamp
  let _ ← uint64ToInt64 "transaction_index" transactionIndex

structure Checkpoint where
  startBlockNumber : ℕ
  cursorBlockNumber : ℕ
  cursorBlockHash : Hash
  cursorBlockTimestamp : ℕ
deriving DecidableEq

/-- The constraints of the table.  The sum is computed as a BIGINT, and fails when it is none. -/
def Checkpoint.check (c : Checkpoint) : Except Failure Unit := do
  ensure (0 < c.startBlockNumber) (.constraint "start_block_number_check")
  ensure (c.cursorBlockNumber + 1 ≤ maxInt64) (.constraint "bigint out of range")
  ensure (c.startBlockNumber ≤ c.cursorBlockNumber + 1) (.constraint "cursor_before_start_check")

structure Database (ρ : Type) [Record ρ] where
  checkpoint : Option Checkpoint := none
  transactions : Table (Record.transactionHash (ρ := ρ)) := .empty
  positions : transactions.Unique Record.position := by exact Table.unique_empty

section Store

variable {ρ : Type} [Record ρ]

/-- `InitializeScanCheckpoint` with the conversions before it: the row that is inserted, or no
row when there is one already. -/
def initializeScanCheckpoint (d : Database ρ) (checkpoint : Checkpoint) :
    Except Failure (Database ρ × Checkpoint) := do
  let _ ← uint64ToInt64 "start_block_number" checkpoint.startBlockNumber
  let _ ← uint64ToInt64 "cursor_block_number" checkpoint.cursorBlockNumber
  let _ ← uint64ToInt64 "cursor_block_timestamp" checkpoint.cursorBlockTimestamp
  checkpoint.check
  ensure (d.checkpoint = none) .noRows
  pure ({ d with checkpoint := some checkpoint }, checkpoint)

def insertTransaction (d : Database ρ) (row : ρ) : Except Failure (Database ρ) := do
  Record.transactionParams row
  match h : d.transactions.insert? row with
  | none => pure d
  | some transactions =>
    if hfree : ∀ a ∈ d.transactions.rows, Record.position a ≠ Record.position row then
      pure { d with transactions, positions := d.positions.insert? h hfree }
    else throw (.constraint "block_position_uidx")

def advanceScanCheckpoint (d : Database ρ) (expected : ℕ) (checkpoint : Checkpoint) :
    Except Failure (Database ρ) := do
  let current ← found (d.checkpoint.filter (·.cursorBlockNumber = expected)) .checkpointConflict
  let advanced := { checkpoint with startBlockNumber := current.startBlockNumber }
  advanced.check
  pure { d with checkpoint := some advanced }

def commitBatch (d : Database ρ) (expectedCursor : ℕ) (transactions : List ρ)
    (checkpoint : Checkpoint) : Except Failure (Database ρ × Unit) := do
  ensure (expectedCursor < checkpoint.cursorBlockNumber)
    (.cursorMustAdvance checkpoint.cursorBlockNumber expectedCursor)
  let expected ← uint64ToInt64 "expected_cursor_block_number" expectedCursor
  let _ ← uint64ToInt64 "cursor_block_number" checkpoint.cursorBlockNumber
  let _ ← uint64ToInt64 "cursor_block_timestamp" checkpoint.cursorBlockTimestamp
  let d ← transactions.foldlM insertTransaction d
  let d ← advanceScanCheckpoint d expected checkpoint
  pure (d, ())

/-! ## What the transactions write -/

@[simp] theorem uint64ToInt64_eq_ok {field : String} {value n : ℕ} :
    uint64ToInt64 field value = .ok n ↔ value ≤ maxInt64 ∧ value = n := by
  simp [uint64ToInt64]

theorem initializeScanCheckpoint_ok {d d' : Database ρ} {checkpoint row : Checkpoint}
    (h : initializeScanCheckpoint d checkpoint = .ok (d', row)) :
    row = checkpoint ∧ d.checkpoint = none ∧ d'.checkpoint = some checkpoint ∧
      d'.transactions = d.transactions := by
  simp only [initializeScanCheckpoint, committed] at h
  obtain ⟨-, -, -, -, -, -, -, -, hnone, rfl, rfl⟩ := h
  exact ⟨rfl, hnone, rfl, rfl⟩

/-- Rows that were inserted, one after another.  Rows stay, a new row is one of those given, and
every row given is there or another with its hash. -/
structure Inserted (d : Database ρ) (rows : List ρ) (d' : Database ρ) : Prop where
  checkpoint : d'.checkpoint = d.checkpoint
  mono : ∀ row ∈ d.transactions, row ∈ d'.transactions
  source : ∀ row ∈ d'.transactions, row ∈ d.transactions ∨ row ∈ rows
  present : ∀ row ∈ rows, ∃ row' ∈ d'.transactions,
    Record.transactionHash row' = Record.transactionHash row

theorem insertTransaction_ok {d d' : Database ρ} {row : ρ}
    (h : insertTransaction d row = .ok d') : Inserted d [row] d' := by
  simp only [insertTransaction, bind_eq_ok] at h
  obtain ⟨⟨⟩, -, h⟩ := h
  split at h
  · rename_i hnone
    obtain rfl := pure_eq_ok.mp h
    obtain ⟨row', hrow', hhash⟩ := Table.insert?_eq_none.mp hnone
    refine ⟨rfl, fun _ => id, fun _ => .inl, fun r hr => ?_⟩
    rw [mem_singleton.mp hr]
    exact ⟨row', hrow', hhash⟩
  · rename_i transactions hsome
    split at h
    · obtain rfl := pure_eq_ok.mp h
      have hmem (r : ρ) : r ∈ transactions ↔ r ∈ d.transactions ∨ r = row := Table.mem_insert? hsome
      refine ⟨rfl, fun r hr => (hmem r).mpr (.inl hr), fun r hr => ?_, fun r hr => ?_⟩
      · exact ((hmem r).mp hr).imp_right mem_singleton.mpr
      · exact ⟨r, (hmem r).mpr (.inr (mem_singleton.mp hr)), rfl⟩
    · simp at h

theorem insertTransactions_ok {d d' : Database ρ} {rows : List ρ}
    (h : rows.foldlM insertTransaction d = .ok d') : Inserted d rows d' := by
  induction rows generalizing d with
  | nil =>
    obtain rfl := pure_eq_ok.mp h
    exact ⟨rfl, fun _ => id, fun _ => .inl, fun _ hr => absurd hr not_mem_nil⟩
  | cons row _ ih =>
    rw [foldlM_cons, bind_eq_ok] at h
    obtain ⟨e, hrow, h⟩ := h
    have hfirst := insertTransaction_ok hrow
    have hrest := ih h
    refine ⟨hrest.checkpoint.trans hfirst.checkpoint, fun r hr => ?_, fun r hr => ?_, ?_⟩
    · exact hrest.mono r (hfirst.mono r hr)
    · rcases hrest.source r hr with hr | hr
      · exact (hfirst.source r hr).imp_right fun hr =>
          mem_cons.mpr (.inl (mem_singleton.mp hr))
      · exact .inr (mem_cons_of_mem row hr)
    · intro r hr
      rcases mem_cons.mp hr with rfl | hr
      · obtain ⟨r', hr', hhash⟩ := hfirst.present r mem_cons_self
        exact ⟨r', hrest.mono r' hr', hhash⟩
      · exact hrest.present r hr

/-- A batch was written: the cursor moves forward, from where it was expected. -/
structure Committed (d : Database ρ) (expected : ℕ) (rows : List ρ) (next : Checkpoint)
    (d' : Database ρ) : Prop where
  forward : expected < next.cursorBlockNumber
  inserted : ∃ e, Inserted d rows e ∧ d'.transactions = e.transactions
  advanced : ∃ current, d.checkpoint = some current ∧ current.cursorBlockNumber = expected ∧
    d'.checkpoint = some { next with startBlockNumber := current.startBlockNumber }

theorem commitBatch_ok {d d' : Database ρ} {expected : ℕ} {rows : List ρ} {next : Checkpoint}
    {u : Unit} (h : commitBatch d expected rows next = .ok (d', u)) :
    Committed d expected rows next d' := by
  simp only [commitBatch, advanceScanCheckpoint, bind_eq_ok, ensure_eq_ok, found_eq_ok,
    uint64ToInt64_eq_ok, pure_eq_ok, Prod.mk.injEq, Option.filter_eq_some_iff,
    decide_eq_true_eq] at h
  obtain ⟨⟨⟩, hforward, _, ⟨-, rfl⟩, _, -, _, -, e, hrows, _,
    ⟨current, ⟨hcurrent, hcursor⟩, ⟨⟩, -, rfl⟩,
    rfl, -⟩ := h
  have hinserted := insertTransactions_ok hrows
  exact ⟨hforward, ⟨e, hinserted, rfl⟩, current, hinserted.checkpoint ▸ hcurrent, hcursor, rfl⟩

end Store
end Athena.Indexers
