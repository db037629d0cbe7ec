import Athena.Indexers.World
import Athena.Lib.Listing
import Mathlib.Data.List.Dedup

/-!
# The swap indexer

The scanner checks that the block of the cursor is still the one that was committed, asks for
the swap logs of a batch, and looks up their transactions in their blocks, at the positions
that the logs name.

The candidates are collected in a map in the source, and sorted by their positions.  Two
candidates at one position have two hashes, so the batch fails, in whatever order they are
looked up.
-/

namespace Athena.Indexers

open Athena.Lib List

structure SwapTransaction where
  transactionHash : Hash
  blockNumber : ℕ
  blockHash : Hash
  blockTimestamp : ℕ
  transactionIndex : ℕ
  fromAddress : Address
deriving DecidableEq

namespace Swap

def transactionParams (t : SwapTransaction) : Except Failure Unit :=
  positionParams t.blockNumber t.blockTimestamp t.transactionIndex

instance : Record SwapTransaction where
  transactionHash := SwapTransaction.transactionHash
  blockNumber := SwapTransaction.blockNumber
  transactionIndex := SwapTransaction.transactionIndex
  transactionParams := transactionParams

/-! ## The scanner -/

def scanBatchSize : ℕ := 100

structure SwapCandidate where
  blockNumber : ℕ
  blockHash : Hash
  transactionHash : Hash
  transactionIndex : ℕ
deriving DecidableEq

def swapCandidate (item : Log) : SwapCandidate :=
  ⟨item.blockNumber, item.blockHash, item.txHash, item.txIndex⟩

/-- One round of the loop over the logs.  The logs of a transaction name one position. -/
def addCandidate (start stop : ℕ) (candidates : List SwapCandidate) (item : Log) :
    Except Failure (List SwapCandidate) := do
  ensure (¬item.removed) (.logRemoved item.txHash item.index)
  ensure (start ≤ item.blockNumber ∧ item.blockNumber ≤ stop)
    (.logOutside item.blockNumber start stop)
  ensure (item.topics.head? = some v2SwapTopic) (.logTopic item.txHash item.index)
  ensure (item.blockHash ≠ 0 ∧ item.txHash ≠ 0) (.logEmptyHash item.blockNumber)
  match candidates.find? (·.transactionHash = item.txHash) with
  | some existing =>
    ensure (existing = swapCandidate item) (.logPositions item.txHash)
    pure candidates
  | none => pure (candidates ++ [swapCandidate item])

/-- The candidates in the order of their positions, and the blocks that they are in. -/
def collectCandidates (logs : List Log) (start stop : ℕ) :
    Except Failure (List SwapCandidate × List ℕ) := do
  let candidates ← logs.foldlM (addCandidate start stop) []
  pure (orderBy (fun c => toLex (c.blockNumber, c.transactionIndex)) candidates,
    orderBy id (candidates.map (·.blockNumber)).dedup)

def fetchBlocks (numbers : List ℕ) : Handler SwapTransaction (List (ℕ × Block)) :=
  .each (fun number => do
    let block ← blockByNumber number
    pure (number, block)) numbers

def swapTransaction (blocks : List (ℕ × Block)) (candidate : SwapCandidate) :
    Except Failure SwapTransaction := do
  let (_, block) ← found (blocks.find? (·.1 = candidate.blockNumber))
    (.blockNotFetched candidate.blockNumber)
  ensure (block.hash = candidate.blockHash) (.blockHash candidate.blockNumber)
  let entry ← found block.transactions[candidate.transactionIndex]?
    (.transactionIndex candidate.transactionIndex candidate.blockNumber)
  let transaction ← found entry (.transactionPosition candidate.transactionHash)
  ensure (transaction.hash = candidate.transactionHash)
    (.transactionPosition candidate.transactionHash)
  let sender ← found transaction.sender (.sender transaction.hash)
  pure ⟨transaction.hash, block.numberU64, block.hash, block.time, candidate.transactionIndex,
    sender⟩

def swapTransactionsFromCandidates (candidates : List SwapCandidate) (blocks : List (ℕ × Block)) :
    Except Failure (List SwapTransaction) :=
  candidates.mapM (swapTransaction blocks)

def runOnce : Handler SwapTransaction Bool := do
  let checkpoint ← currentCheckpoint
  let finalized ← finalizedHeader
  if finalized.uint64 ≤ checkpoint.cursorBlockNumber then
    pure false
  else
    let start := checkpoint.cursorBlockNumber + 1
    let stop := batchEnd scanBatchSize start finalized.uint64
    let anchor ← headerByNumber (start - 1)
    accept (ensure (anchor.hash = checkpoint.cursorBlockHash) (.checkpointHash (start - 1)))
    let logs ← filterSwapLogs start stop
    let (candidates, blockNumbers) ← accept (collectCandidates logs start stop)
    let blocks ← fetchBlocks blockNumbers
    let transactions ← accept (swapTransactionsFromCandidates candidates blocks)
    let endHeader ← headerByNumber stop
    accept (← ask (.commitBatch checkpoint.cursorBlockNumber transactions
      ⟨checkpoint.startBlockNumber, stop, endHeader.hash, endHeader.time⟩))
    pure true

def run : ℕ → Handler SwapTransaction Unit
  | 0 => pure ()
  | n + 1 => do
      let _ ← runOnce.attempt
      run n

/-! ## What was read -/

def Fetched (h : List (Entry SwapTransaction)) (number : ℕ) (x : ℕ × Block) : Prop :=
  x.1 = number ∧ HasBlock h number x.2

def Collected (h : List (Entry SwapTransaction)) (start stop : ℕ) (logs : List Log)
    (rows : List SwapTransaction) : Prop :=
  ∃ candidates numbers blocks, collectCandidates logs start stop = .ok (candidates, numbers) ∧
    List.Forall₂ (Fetched h) numbers blocks ∧
    swapTransactionsFromCandidates candidates blocks = .ok rows

/-- A batch begins after a checkpoint, whose block was read again.  Its rows are those collected
from the logs up to the next cursor, and the block of that was read too. -/
structure Batch (h : List (Entry SwapTransaction)) (c : Checkpoint) (rows : List SwapTransaction)
    (next : Checkpoint) : Prop where
  anchor : ∃ header, HasHeader h c.cursorBlockNumber header ∧ header.hash = c.cursorBlockHash
  collected : ∃ logs, (⟨.filterLogs (c.cursorBlockNumber + 1) next.cursorBlockNumber v2SwapTopic,
    .ok logs⟩ : Entry SwapTransaction) ∈ h ∧
    Collected h (c.cursorBlockNumber + 1) next.cursorBlockNumber logs rows
  last : ∃ header, HasHeader h next.cursorBlockNumber header ∧
    next = ⟨c.startBlockNumber, next.cursorBlockNumber, header.hash, header.time⟩

open Program

variable {h : List (Entry SwapTransaction)}

abbrev rule : List (Entry SwapTransaction) → Call SwapTransaction → Prop := Rule Batch

variable {numbers : List ℕ} {start stop : ℕ}

theorem yields_fetchBlocks :
    Yields rule (fetchBlocks numbers) h fun h' blocks =>
      List.Forall₂ (Fetched h') numbers blocks := by
  refine yields_each (T := Fetched) (fun hh hx => ⟨hx.1, hx.2.mono hh⟩) (fun h number => ?_) numbers
  exact yields_blockByNumber.bind fun h' block _ hblock => yields_pure ⟨rfl, hblock⟩

theorem yields_runOnce : Yields rule runOnce h fun _ _ => True := by
  refine yields_currentCheckpoint.bind fun h₁ checkpoint _ hcheckpoint => ?_
  refine yields_finalizedHeader.bind fun h₂ finalized hh₂ _ => ?_
  split
  · exact yields_pure trivial
  · refine yields_headerByNumber.bind fun h₃ anchor hh₃ hanchor => ?_
    refine yields_ofExcept_bind fun _ hhash => ?_
    refine yields_filterSwapLogs.bind fun h₄ logs hh₄ hlogs => ?_
    refine yields_ofExcept_bind fun collected hcollected => ?_
    refine yields_fetchBlocks.bind fun h₅ blocks hh₅ hblocks => ?_
    refine yields_ofExcept_bind fun rows hrows => ?_
    refine yields_headerByNumber.bind fun h₆ endHeader hh₆ hend =>
      yields_ask_bind ?_ fun reply => ?_
    · refine ⟨checkpoint, hcheckpoint.mono (hh₂.trans (hh₃.trans (hh₄.trans (hh₅.trans hh₆)))), rfl,
        ⟨anchor, ?_, ensure_eq_ok.mp hhash⟩, ⟨logs, (hh₅.trans hh₆).subset hlogs, ?_⟩,
        endHeader, hend, rfl⟩
      · exact hanchor.mono (hh₄.trans (hh₅.trans hh₆))
      · refine ⟨collected.1, collected.2, blocks, hcollected, ?_, hrows⟩
        exact hblocks.imp fun _ _ hx => ⟨hx.1, hx.2.mono hh₆⟩
    · exact yields_ofExcept_bind fun _ _ => yields_pure trivial

theorem yields_run (rounds : ℕ) : Yields rule (run rounds) h fun _ _ => True := by
  induction rounds generalizing h with
  | zero => exact yields_pure trivial
  | succ _ ih => exact yields_runOnce.attempt_bind (fun _ _ _ _ => ih) fun _ _ _ => ih

/-! ## Batches of a chain -/

variable {chain : Chain} {logs : List Log}

/-- The transactions of a chain that are collected: one of their logs is a swap, and the sender
is known. -/
def Selects (chain : Chain) (n : ℕ) (row : SwapTransaction) : Prop :=
  ∃ i t sender, chain.At n i t ∧ t.sender = some sender ∧
    (∃ l ∈ chain.logs n, l.txIndex = i ∧ l.topics.head? = some v2SwapTopic) ∧
    row = ⟨t.hash, n, (chain.block n).hash, (chain.block n).time, i, sender⟩

theorem Selects.eq_of_hash_eq {n m : ℕ} {row row' : SwapTransaction} (h : Selects chain n row)
    (h' : Selects chain m row') (hhash : row.transactionHash = row'.transactionHash) :
    row = row' := by
  obtain ⟨i, t, sender, ht, hsender, -, rfl⟩ := h
  obtain ⟨j, t', sender', ht', hsender', -, rfl⟩ := h'
  obtain ⟨rfl, rfl, rfl⟩ := ht.eq_of_hash_eq ht' hhash
  obtain rfl := Option.mem_unique hsender hsender'
  rfl

theorem mem_of_addCandidate {candidates candidates' : List SwapCandidate} {item : Log}
    (h : addCandidate start stop candidates item = .ok candidates') (c : SwapCandidate) :
    c ∈ candidates' ↔ c ∈ candidates ∨ c = swapCandidate item := by
  simp only [addCandidate, bind_eq_ok] at h
  obtain ⟨⟨⟩, -, ⟨⟩, -, ⟨⟩, -, ⟨⟩, -, h⟩ := h
  split at h
  · rename_i existing hexisting
    simp only [committed] at h
    obtain ⟨⟨⟩, rfl, rfl⟩ := h
    have hmem := mem_of_find?_eq_some hexisting
    exact ⟨.inl, fun hc => hc.elim id fun hc => hc ▸ hmem⟩
  · obtain rfl := pure_eq_ok.mp h
    simp

theorem mem_of_addCandidates {candidates candidates' : List SwapCandidate}
    (h : logs.foldlM (addCandidate start stop) candidates = .ok candidates') (c : SwapCandidate) :
    c ∈ candidates' ↔ c ∈ candidates ∨ ∃ l ∈ logs, c = swapCandidate l := by
  induction logs generalizing candidates with
  | nil =>
    obtain rfl := pure_eq_ok.mp h
    simp
  | cons _ _ ih =>
    rw [foldlM_cons, bind_eq_ok] at h
    obtain ⟨next, hitem, h⟩ := h
    rw [ih h, mem_of_addCandidate hitem]
    simp only [mem_cons, exists_eq_or_imp, or_assoc]

theorem mem_of_collectCandidates {candidates : List SwapCandidate}
    (h : collectCandidates logs start stop = .ok (candidates, numbers)) (c : SwapCandidate) :
    c ∈ candidates ↔ ∃ l ∈ logs, c = swapCandidate l := by
  simp only [collectCandidates, committed] at h
  obtain ⟨cs, hcs, rfl, -⟩ := h
  rw [mem_orderBy, mem_of_addCandidates hcs]
  simp

variable {x : ℕ × Block} (hanswers : ∀ x ∈ h, chain.Answers x.1 x.2)
include hanswers

theorem block_of_chain {blocks : List (ℕ × Block)}
    (hblocks : List.Forall₂ (Fetched h) numbers blocks) (hx : x ∈ blocks) :
    x.1 ≤ chain.height ∧ x.2 = chain.block x.1 ∧ x.2.numberU64 = x.1 := by
  obtain ⟨n, -, rfl, hblock⟩ := exists_of_forall₂ hblocks.flip hx
  obtain ⟨hle, heq⟩ := hanswers _ hblock.1 x.2 rfl
  exact ⟨hle, heq, hblock.2⟩

theorem row_of_chain {blocks : List (ℕ × Block)} (hblocks : List.Forall₂ (Fetched h) numbers blocks)
    {c : SwapCandidate} {row : SwapTransaction} (hrow : swapTransaction blocks c = .ok row) :
    ∃ t sender, chain.At c.blockNumber c.transactionIndex t ∧ t.sender = some sender ∧
      row = ⟨t.hash, c.blockNumber, (chain.block c.blockNumber).hash,
        (chain.block c.blockNumber).time, c.transactionIndex, sender⟩ := by
  simp only [swapTransaction, committed] at hrow
  obtain ⟨⟨n, block⟩, hfind, hhash, entry, hentry, t, rfl, -, sender, hsender, rfl⟩ := hrow
  have hnumber : n = c.blockNumber := by simpa using find?_some hfind
  subst hnumber
  obtain ⟨hle, hblock, hnumber⟩ := block_of_chain hanswers hblocks (mem_of_find?_eq_some hfind)
  simp only at hle hblock hnumber
  subst hblock
  exact ⟨t, sender, ⟨hle, hentry⟩, hsender, by rw [hnumber]⟩

theorem mem_of_collected {rows : List SwapTransaction}
    (hlogs : (⟨.filterLogs start stop v2SwapTopic, .ok logs⟩ : Entry SwapTransaction) ∈ h)
    (hcollected : Collected h start stop logs rows) (row : SwapTransaction) :
    row ∈ rows ↔ ∃ n, start ≤ n ∧ n ≤ stop ∧ Selects chain n row := by
  obtain ⟨candidates, numbers, blocks, hcandidates, hblocks, hrows⟩ := hcollected
  have hlogs := hanswers _ hlogs logs rfl
  constructor
  · intro hrow
    obtain ⟨c, hc, hrow⟩ := (mem_of_mapM hrows).mp hrow
    obtain ⟨l, hl, rfl⟩ := (mem_of_collectCandidates hcandidates c).mp hc
    obtain ⟨n, hn, hn', hle, hl, htopic⟩ := (hlogs l).mp hl
    obtain ⟨rfl, -, -⟩ := chain.log_position n hle l hl
    obtain ⟨t, sender, hat, hsender, rfl⟩ := row_of_chain hanswers hblocks hrow
    exact ⟨l.blockNumber, hn, hn', l.txIndex, t, sender, hat, hsender, ⟨l, hl, rfl, htopic⟩, rfl⟩
  · rintro ⟨n, hn, hn', i, t, sender, hat, hsender, ⟨l, hl, rfl, htopic⟩, rfl⟩
    obtain ⟨rfl, -, -⟩ := chain.log_position n hat.le l hl
    have hc := (mem_of_collectCandidates hcandidates (swapCandidate l)).mpr
      ⟨l, (hlogs l).mpr ⟨_, hn, hn', hat.le, hl, htopic⟩, rfl⟩
    -- the candidate was looked up, and found where it is in the chain
    obtain ⟨row, hmem, hrow⟩ := exists_of_mapM hrows hc
    obtain ⟨t', sender', hat', hsender', rfl⟩ := row_of_chain hanswers hblocks hrow
    obtain rfl := hat.eq_of_position_eq hat'
    obtain rfl := Option.mem_unique hsender hsender'
    exact hmem

theorem Batch.faithful {c next : Checkpoint} {rows : List SwapTransaction}
    (hb : Batch h c rows next) : Faithful chain (Selects chain) c rows next := by
  obtain ⟨header, hheader, hnext⟩ := hb.last
  obtain ⟨hle, rfl⟩ := hanswers _ hheader.1 header rfl
  obtain ⟨logs, hlogs, hcollected⟩ := hb.collected
  exact ⟨hle, congrArg Checkpoint.cursorBlockHash hnext,
    mem_of_collected hanswers hlogs hcollected⟩

end Swap
end Athena.Indexers
