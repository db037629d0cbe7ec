import Athena.Indexers.World

/-!
# The inbound indexer

The scanner fetches every block of a batch, checks that each is the parent of the next, and
collects the transactions that do nothing but move more than a hundredth of a coin to an
address, and succeeded.  The blocks and the receipts of a batch are fetched side by side in the
source and kept in their order, so fetching them one after another gives the same.
-/

namespace Athena.Indexers

open Athena.Lib Option

structure InboundNormalTransaction where
  transactionHash : Hash
  blockNumber : ℕ
  blockHash : Hash
  blockTimestamp : ℕ
  transactionIndex : ℕ
  fromAddress : Address
  toAddress : Address
  valueWei : ℕ
deriving DecidableEq

namespace Inbound

def minimumInboundValueWei : ℕ := 10000000000000000

def transactionParams (t : InboundNormalTransaction) : Except Failure Unit := do
  positionParams t.blockNumber t.blockTimestamp t.transactionIndex
  ensure (0 < t.valueWei) (.valueMustBePositive t.transactionHash)
  ensure (t.valueWei < 10 ^ 78) (.constraint "numeric field overflow")
  ensure (10000000000000000 < t.valueWei) (.constraint "value_wei_check")

instance : Record InboundNormalTransaction where
  transactionHash := InboundNormalTransaction.transactionHash
  blockNumber := InboundNormalTransaction.blockNumber
  transactionIndex := InboundNormalTransaction.transactionIndex
  transactionParams := transactionParams

/-! ## The scanner -/

def fetchBlocks (start stop : ℕ) : Handler InboundNormalTransaction (List Block) :=
  .each blockByNumber (List.range' start (stop - start + 1))

def verifyBlockContinuity : Hash → List Block → Except Failure Unit
  | _, [] => pure ()
  | expectedParent, block :: blocks => do
      ensure (block.parentHash = expectedParent) (.parentHash block.numberU64)
      verifyBlockContinuity block.hash blocks

structure ReceiptCandidate where
  block : Block
  transaction : Transaction
  transactionIndex : ℕ
  fromAddress : Address
  toAddress : Address

def inboundAddress (t : Transaction) : Option Address :=
  if minimumInboundValueWei < t.value ∧ t.data = [] then t.recipient else none

/-- The transactions of a block that move value to an address, with their indexes. -/
def inboundTransactions (block : Block) : List (Block × Transaction × ℕ × Address) :=
  block.transactions.zipIdx.filterMap fun (t?, i) => do
    let t ← t?
    let address ← inboundAddress t
    pure (block, t, i, address)

def receiptCandidates (blocks : List Block) : Except Failure (List ReceiptCandidate) :=
  (blocks.flatMap inboundTransactions).mapM fun (block, t, i, address) => do
    let sender ← found t.sender (.sender t.hash)
    pure ⟨block, t, i, sender, address⟩

def receiptStatusSuccessful : ℕ := 1

def inboundNormalTransaction : ReceiptCandidate × Receipt → Except Failure InboundNormalTransaction
  | (candidate, receipt) => do
      ensure (receipt.blockHash = candidate.block.hash ∧
        receipt.transactionIndex = candidate.transactionIndex)
        (.receiptPosition candidate.transaction.hash)
      pure ⟨candidate.transaction.hash, candidate.block.numberU64, candidate.block.hash,
        candidate.block.time, candidate.transactionIndex, candidate.fromAddress,
        candidate.toAddress, candidate.transaction.value⟩

def successfulTransactions (candidates : List (ReceiptCandidate × Receipt)) :
    Except Failure (List InboundNormalTransaction) :=
  (candidates.filter fun x => x.2.status = receiptStatusSuccessful).mapM inboundNormalTransaction

def collectTransactions (blocks : List Block) :
    Handler InboundNormalTransaction (List InboundNormalTransaction) := do
  let candidates ← accept (receiptCandidates blocks)
  let received ← .each (fun c => do
    let receipt ← transactionReceipt c.transaction.hash
    pure (c, receipt)) candidates
  accept (successfulTransactions received)

def runOnce (batchSize : ℕ) : Handler InboundNormalTransaction Bool := do
  let checkpoint ← currentCheckpoint
  let finalized ← finalizedHeader
  if finalized.uint64 ≤ checkpoint.cursorBlockNumber then
    pure false
  else
    let start := checkpoint.cursorBlockNumber + 1
    let blocks ← fetchBlocks start (batchEnd batchSize start finalized.uint64)
    accept (verifyBlockContinuity checkpoint.cursorBlockHash blocks)
    let transactions ← collectTransactions blocks
    let lastBlock ← accept (found blocks.getLast? .emptyBatch)
    accept (← ask (.commitBatch checkpoint.cursorBlockNumber transactions
      ⟨checkpoint.startBlockNumber, lastBlock.numberU64, lastBlock.hash, lastBlock.time⟩))
    pure true

def run (batchSize : ℕ) : ℕ → Handler InboundNormalTransaction Unit
  | 0 => pure ()
  | n + 1 => do
      let _ ← (runOnce batchSize).attempt
      run batchSize n

/-! ## What was read -/

def Linked : Hash → List Block → Prop
  | _, [] => True
  | expectedParent, block :: blocks => block.parentHash = expectedParent ∧ Linked block.hash blocks

theorem linked_of_verifyBlockContinuity {previousHash : Hash} {blocks : List Block} {u : Unit}
    (h : verifyBlockContinuity previousHash blocks = .ok u) : Linked previousHash blocks := by
  induction blocks generalizing previousHash with
  | nil => trivial
  | cons _ _ ih =>
    simp only [verifyBlockContinuity, bind_eq_ok, ensure_eq_ok] at h
    obtain ⟨⟨⟩, hparent, h⟩ := h
    exact ⟨hparent, ih h⟩

def Received (h : List (Entry InboundNormalTransaction)) (c : ReceiptCandidate)
    (x : ReceiptCandidate × Receipt) : Prop := x.1 = c ∧ HasReceipt h c.transaction.hash x.2

def Collected (h : List (Entry InboundNormalTransaction)) (blocks : List Block)
    (rows : List InboundNormalTransaction) : Prop :=
  ∃ candidates received, receiptCandidates blocks = .ok candidates ∧
    List.Forall₂ (Received h) candidates received ∧
    successfulTransactions received = .ok rows

/-- A batch begins after a checkpoint.  Its blocks were read one after another, the first
follows the block of the checkpoint, and each is the parent of the next.  Its rows are those
collected from the blocks, and the next cursor is the last of them. -/
structure Batch (h : List (Entry InboundNormalTransaction)) (c : Checkpoint) (blocks : List Block)
    (rows : List InboundNormalTransaction) (next : Checkpoint) : Prop where
  fetched : List.Forall₂ (HasBlock h) (List.range' (c.cursorBlockNumber + 1) blocks.length) blocks
  linked : Linked c.cursorBlockHash blocks
  collected : Collected h blocks rows
  last : ∃ last, blocks.getLast? = some last ∧
    next = ⟨c.startBlockNumber, last.numberU64, last.hash, last.time⟩

open Program

variable {h : List (Entry InboundNormalTransaction)}

abbrev rule : List (Entry InboundNormalTransaction) → Call InboundNormalTransaction → Prop :=
  Rule fun h c rows next => ∃ blocks, Batch h c blocks rows next

theorem yields_fetchBlocks {start stop : ℕ} :
    Yields rule (fetchBlocks start stop) h fun h' blocks =>
      List.Forall₂ (HasBlock h') (List.range' start blocks.length) blocks := by
  refine (yields_each (T := HasBlock) HasBlock.mono (fun h n => yields_blockByNumber) _).conseq ?_
  intro h' blocks _ hblocks
  have hlength := hblocks.length_eq
  rw [List.length_range'] at hlength
  exact hlength ▸ hblocks

theorem yields_collectTransactions {blocks : List Block} :
    Yields rule (collectTransactions blocks) h fun h' rows => Collected h' blocks rows := by
  refine yields_ofExcept_bind fun candidates hcandidates => ?_
  refine (yields_each (T := Received) (fun hh hx => ⟨hx.1, hx.2.mono hh⟩) (fun h c => ?_)
    candidates).bind fun h' received _ hreceived => ?_
  · exact yields_transactionReceipt.bind fun h' receipt _ hreceipt => yields_pure ⟨rfl, hreceipt⟩
  · exact yields_ofExcept fun rows hrows => ⟨candidates, received, hcandidates, hreceived, hrows⟩

theorem yields_runOnce {batchSize : ℕ} :
    Yields rule (runOnce batchSize) h fun _ _ => True := by
  refine yields_currentCheckpoint.bind fun h₁ checkpoint _ hcheckpoint => ?_
  refine yields_finalizedHeader.bind fun h₂ finalized hh₂ _ => ?_
  split
  · exact yields_pure trivial
  · refine yields_fetchBlocks.bind fun h₃ blocks hh₃ hblocks => ?_
    refine yields_ofExcept_bind fun _ hlinked => ?_
    refine yields_collectTransactions.bind fun h₄ rows hh₄ hrows => ?_
    refine yields_ofExcept_bind fun last hlast => yields_ask_bind ?_ fun reply => ?_
    · refine ⟨checkpoint, hcheckpoint.mono (hh₂.trans (hh₃.trans hh₄)), rfl, blocks, ?_, ?_, hrows,
        last, found_eq_ok.mp hlast, rfl⟩
      · exact hblocks.imp fun _ _ => HasBlock.mono hh₄
      · exact linked_of_verifyBlockContinuity hlinked
    · exact yields_ofExcept_bind fun _ _ => yields_pure trivial

theorem yields_run (batchSize rounds : ℕ) :
    Yields rule (run batchSize rounds) h fun _ _ => True := by
  induction rounds generalizing h with
  | zero => exact yields_pure trivial
  | succ _ ih => exact yields_runOnce.attempt_bind (fun _ _ _ _ => ih) fun _ _ _ => ih

/-! ## Batches of a chain -/

variable {chain : Chain}

/-- The transactions of a chain that are collected: what they move goes to an address, is more
than the minimum and comes without data, the sender is known, and they succeeded. -/
def Selects (chain : Chain) (n : ℕ) (row : InboundNormalTransaction) : Prop :=
  ∃ i t sender address, chain.At n i t ∧ t.recipient = some address ∧
    minimumInboundValueWei < t.value ∧ t.data = [] ∧ t.sender = some sender ∧
    (chain.receipt t.hash).status = receiptStatusSuccessful ∧
    row = ⟨t.hash, n, (chain.block n).hash, (chain.block n).time, i, sender, address, t.value⟩

theorem Selects.eq_of_hash_eq {n m : ℕ} {row row' : InboundNormalTransaction}
    (h : Selects chain n row) (h' : Selects chain m row')
    (hhash : row.transactionHash = row'.transactionHash) : row = row' := by
  obtain ⟨i, t, sender, address, ht, haddress, -, -, hsender, -, rfl⟩ := h
  obtain ⟨j, t', sender', address', ht', haddress', -, -, hsender', -, rfl⟩ := h'
  obtain ⟨rfl, rfl, rfl⟩ := ht.eq_of_hash_eq ht' hhash
  obtain rfl := mem_unique haddress haddress'
  obtain rfl := mem_unique hsender hsender'
  rfl

theorem inboundAddress_eq_some {t : Transaction} {address : Address} :
    inboundAddress t = some address ↔
      t.recipient = some address ∧ minimumInboundValueWei < t.value ∧ t.data = [] := by
  unfold inboundAddress
  split <;> simp_all

theorem mem_inboundTransactions {block b : Block} {t : Transaction} {i : ℕ} {address : Address} :
    (b, t, i, address) ∈ inboundTransactions block ↔
      b = block ∧ block.transactions[i]? = some (some t) ∧ inboundAddress t = some address := by
  simp only [inboundTransactions, List.mem_filterMap, Prod.exists, List.mem_zipIdx_iff_getElem?,
    bind_eq_bind, bind_eq_some_iff, pure_def, some.injEq,
    Prod.mk.injEq]
  constructor
  · rintro ⟨_, _, hget, t, rfl, address, haddress, rfl, rfl, rfl, rfl⟩
    exact ⟨rfl, hget, haddress⟩
  · rintro ⟨rfl, hget, haddress⟩
    exact ⟨some t, i, hget, t, rfl, address, haddress, rfl, rfl, rfl, rfl⟩

variable (hanswers : ∀ x ∈ h, chain.Answers x.1 x.2)
include hanswers

theorem blocks_of_chain {numbers : List ℕ} {blocks : List Block}
    (hblocks : List.Forall₂ (HasBlock h) numbers blocks) :
    blocks = numbers.map chain.block ∧
      ∀ n ∈ numbers, n ≤ chain.height ∧ (chain.block n).numberU64 = n := by
  induction hblocks with
  | nil => simp
  | @cons n block numbers blocks hblock _ ih =>
    obtain ⟨hle, rfl⟩ := hanswers _ hblock.1 block rfl
    obtain ⟨rfl, hrest⟩ := ih
    refine ⟨rfl, ?_⟩
    simp only [List.mem_cons, forall_eq_or_imp]
    exact ⟨⟨hle, hblock.2⟩, hrest⟩

theorem received_of_chain {candidates : List ReceiptCandidate}
    {received : List (ReceiptCandidate × Receipt)}
    (hreceived : List.Forall₂ (Received h) candidates received) :
    received = candidates.map fun c => (c, chain.receipt c.transaction.hash) := by
  induction hreceived with
  | nil => rfl
  | @cons c x candidates received hx _ ih =>
    obtain ⟨x₁, receipt⟩ := x
    obtain ⟨rfl, hreceipt⟩ := hx
    have hanswer : receipt = chain.receipt x₁.transaction.hash := hanswers _ hreceipt receipt rfl
    rw [ih, List.map_cons, hanswer]

theorem mem_of_collected {numbers : List ℕ} {rows : List InboundNormalTransaction}
    (hnumbers : ∀ n ∈ numbers, n ≤ chain.height ∧ (chain.block n).numberU64 = n)
    (hcollected : Collected h (numbers.map chain.block) rows) (row : InboundNormalTransaction) :
    row ∈ rows ↔ ∃ n ∈ numbers, Selects chain n row := by
  obtain ⟨candidates, received, hcandidates, hreceived, hrows⟩ := hcollected
  obtain rfl := received_of_chain hanswers hreceived
  rw [mem_of_mapM hrows]
  simp only [List.mem_filter, List.mem_map, decide_eq_true_eq]
  constructor
  · rintro ⟨_, ⟨⟨c, hc, rfl⟩, hstatus⟩, hrow⟩
    obtain ⟨⟨block, t, i, address⟩, hmem, hsender⟩ := (mem_of_mapM hcandidates).mp hc
    obtain ⟨_, hblock, hmem⟩ := List.mem_flatMap.mp hmem
    obtain ⟨n, hn, rfl⟩ := List.mem_map.mp hblock
    obtain ⟨rfl, hget, haddress⟩ := mem_inboundTransactions.mp hmem
    simp only [committed] at hsender
    obtain ⟨sender, hsender, rfl⟩ := hsender
    simp only [inboundNormalTransaction, committed, (hnumbers n hn).2] at hrow
    obtain ⟨⟨⟩, -, rfl⟩ := hrow
    obtain ⟨hrecipient, hvalue, hdata⟩ := inboundAddress_eq_some.mp haddress
    exact ⟨n, hn, i, t, sender, address, ⟨(hnumbers n hn).1, hget⟩, hrecipient, hvalue, hdata,
      hsender, hstatus, rfl⟩
  · rintro ⟨n, hn, i, t, sender, address, hat, hrecipient, hvalue, hdata, hsender, hstatus, rfl⟩
    refine ⟨_, ⟨⟨⟨chain.block n, t, i, sender, address⟩, ?_, rfl⟩, hstatus⟩, ?_⟩
    · refine (mem_of_mapM hcandidates).mpr ⟨(chain.block n, t, i, address), ?_, ?_⟩
      · refine List.mem_flatMap.mpr ⟨chain.block n, List.mem_map_of_mem hn, ?_⟩
        refine mem_inboundTransactions.mpr ⟨rfl, hat.get, ?_⟩
        exact inboundAddress_eq_some.mpr ⟨hrecipient, hvalue, hdata⟩
      · simp [hsender]
    · have hposition := chain.receipt_position n hat.le i t hat.get
      simp [inboundNormalTransaction, hposition, (hnumbers n hn).2]

theorem Batch.faithful {c next : Checkpoint} {blocks : List Block}
    {rows : List InboundNormalTransaction} (hb : Batch h c blocks rows next) :
    Faithful chain (Selects chain) c rows next := by
  obtain ⟨hblocks, hnumbers⟩ := blocks_of_chain hanswers hb.fetched
  obtain ⟨last, hlast, rfl⟩ := hb.last
  have hlength : 0 < blocks.length := by
    rw [List.length_pos_iff]
    rintro rfl
    simp at hlast
  -- the last block is the one at the end of the range
  have hmem : c.cursorBlockNumber + blocks.length ∈
      List.range' (c.cursorBlockNumber + 1) blocks.length :=
    List.mem_range'_1.mpr ⟨by omega, by omega⟩
  obtain ⟨hle, hnumber⟩ := hnumbers _ hmem
  obtain rfl : chain.block (c.cursorBlockNumber + blocks.length) = last := by
    rw [hblocks, List.getLast?_map, List.getLast?_range', if_neg (by omega)] at hlast
    have hend :
      c.cursorBlockNumber + 1 + blocks.length - 1 = c.cursorBlockNumber + blocks.length := by
      omega
    simpa [hend] using hlast
  refine ⟨hnumber.symm ▸ hle, by simp only [hnumber], fun row => ?_⟩
  rw [mem_of_collected hanswers hnumbers (hblocks ▸ hb.collected)]
  simp only [List.mem_range'_1, hnumber, and_assoc]
  refine exists_congr fun n => and_congr (by omega) (and_congr_left fun _ => by omega)

end Inbound
end Athena.Indexers
