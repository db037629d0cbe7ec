import Athena.Lib.Table
import Athena.Lib.Utf8
import Athena.Token.Inspection
import Athena.Token.Pairs

/-!
# The commit of a block

One transaction writes what was found in a block: every candidate with its outcome; for every
accepted one its project, two swap pairs, the state of its research, the schedules of its data,
the wallets around it; and the cursor.  A statement that violates a constraint fails the whole
transaction, and the block is tried again.
-/

namespace Athena.Token

open Athena.Indexers (Address Hash)
open Athena.Lib

/-! ## Tables -/

inductive CandidateStatus
  | validated
  | rejected
deriving DecidableEq

structure CandidateRow where
  candidate : ProjectCandidate
  status : CandidateStatus

def CandidateRow.key (row : CandidateRow) : ℤ × Address :=
  (row.candidate.chainID, row.candidate.contract)

structure Project where
  id : ℕ
  chainID : ℤ
  contract : Address
  txSender : Address
  txHash : Hash
  txIndex : ℕ
  deploymentNonce : ℕ
  blockNumber : ℕ
  blockTime : ℕ
  codeHash : Hash
  name : Bytes
  symbol : Bytes
  decimals : ℕ
  totalSupply : ℕ
  wethPair : Option Address
  usdtPair : Option Address

/-- The columns that a conflict overwrites. -/
def Project.overwrite (existing row : Project) : Project :=
  { existing with
    codeHash := row.codeHash
    name := row.name
    symbol := row.symbol
    decimals := row.decimals
    totalSupply := row.totalSupply
    wethPair := row.wethPair
    usdtPair := row.usdtPair }

inductive ResearchStatus
  | researching
  | selected
  | rejected
  | expired
deriving DecidableEq

structure ResearchState where
  projectID : ℕ
  status : ResearchStatus := .researching
  attentionExpiryBlockTime : ℕ
  expiredBlockNumber : Option ℕ := none
  expiredBlockTime : Option ℕ := none

inductive DataType
  | ave
  | chainState
  | walletAssetState
  | simulationResult
  | contractCodeSource
  | walletNormalTransactions
deriving DecidableEq

structure Schedule where
  projectID : ℕ
  dataType : DataType
  retryIntervalSeconds : ℕ
  nextRunAt : Option ℤ

structure RelatedWalletRow where
  projectID : ℕ
  wallet : Address
  role : Role

structure InitialRecipientRow where
  projectID : ℕ
  wallet : Address
  ratioBPS : Int64
  rankIndex : ℕ
  sourceTxHash : Hash
  sourceBlockNumber : ℕ

inductive ProcessingStatus
  | running
  | stopped
deriving DecidableEq

structure ChainCheckpoint where
  chainID : ℤ
  cursorBlockNumber : ℕ
  status : ProcessingStatus

structure Database where
  chains : List ℤ := []
  checkpoints : Table ChainCheckpoint.chainID := .empty
  candidates : Table CandidateRow.key := .empty
  contractCodes : List Hash := []
  nextProject : ℕ := 1
  projects : Table Project.id := .empty
  nextSwapPair : ℕ := 1
  swapPairs : Table ProjectSwapPair.id := .empty
  researchStates : Table ResearchState.projectID := .empty
  schedules : Table (fun s : Schedule => (s.projectID, s.dataType)) := .empty
  relatedWallets : Table (fun w : RelatedWalletRow => (w.projectID, w.wallet, w.role)) := .empty
  initialRecipients : Table (fun r : InitialRecipientRow => (r.projectID, r.wallet)) := .empty

/-! ## Statements -/

namespace Queries

variable (d : Database)

def upsertProjectCandidate (row : CandidateRow) : Except Failure Database := do
  ensure (row.candidate.chainID ∈ d.chains) (.constraint "project_candidate_chain_fk")
  ensure (∀ r ∈ d.candidates.rows, r.key ≠ row.key →
      (r.candidate.chainID, r.candidate.txHash) ≠ (row.candidate.chainID, row.candidate.txHash))
    (.constraint "project_candidate_chain_id_tx_hash_uidx")
  pure { d with candidates := d.candidates.upsert row }

def upsertContractCode (codeHash : Hash) : Database :=
  if codeHash ∈ d.contractCodes then d
  else { d with contractCodes := d.contractCodes ++ [codeHash] }

/-- The constraints of a project. -/
def checkProject (row : Project) : Except Failure Unit := do
  ensure (Utf8.storable row.name ∧ Utf8.storable row.symbol)
    (.constraint "invalid byte sequence for encoding")
  ensure (row.totalSupply < 10 ^ 78) (.constraint "numeric field overflow")
  ensure (row.decimals ≤ 255) (.constraint "project_decimals_check")
  ensure (row.chainID ∈ d.chains) (.constraint "project_chain_fk")
  ensure (row.codeHash ∈ d.contractCodes) (.constraint "project_contract_code_fk")

/-- Insert a project, or write the columns that may change of the one with its contract. -/
def writeProject (row : Project) : Except Failure (Database × Project) :=
  match d.projects.rows.find? fun p => p.chainID = row.chainID ∧ p.contract = row.contract with
  | some existing =>
    let written := existing.overwrite row
    pure ({ d with projects := d.projects.put written, nextProject := d.nextProject + 1 }, written)
  | none => do
      ensure (∀ p ∈ d.projects.rows, (p.chainID, p.txHash) ≠ (row.chainID, row.txHash))
        (.constraint "project_chain_id_tx_hash_uidx")
      let inserted := { row with id := d.nextProject }
      let projects ← found (d.projects.insert? inserted) (.constraint "project_id_uidx")
      pure ({ d with projects, nextProject := d.nextProject + 1 }, inserted)

def upsertProject (row : Project) : Except Failure (Database × Project) := do
  checkProject d row
  writeProject d row

def createProjectSwapPair (row : ProjectSwapPair) : Except Failure Database := do
  let inserted := { row with id := d.nextSwapPair }
  ensure inserted.Checked (.constraint "project_swap_pair_check")
  ensure (∀ p ∈ d.swapPairs.rows, (p.projectID, p.kind) ≠ (row.projectID, row.kind))
    (.constraint "project_swap_pair_project_id_pair_kind_uidx")
  let swapPairs ← found (d.swapPairs.insert? inserted) (.constraint "project_swap_pair_id_uidx")
  pure { d with swapPairs, nextSwapPair := d.nextSwapPair + 1 }

def createProjectResearchState (projectID attentionExpiryBlockTime : ℕ) : Database :=
  match d.researchStates.get? projectID with
  | some _ => d
  | none =>
    { d with researchStates := d.researchStates.upsert { projectID, attentionExpiryBlockTime } }

def upsertProjectDataCollectionSchedule (row : Schedule) : Except Failure Database := do
  ensure (0 < row.retryIntervalSeconds) (.constraint "retry_interval_seconds_check")
  ensure row.nextRunAt.isSome (.constraint "next_run_at_check")
  let written := (d.schedules.get? (row.projectID, row.dataType)).elim row fun existing =>
    { existing with retryIntervalSeconds := row.retryIntervalSeconds }
  pure { d with schedules := d.schedules.upsert written }

def upsertProjectRelatedWallet (row : RelatedWalletRow) : Database :=
  { d with relatedWallets := d.relatedWallets.upsert row }

def deleteProjectInitialRecipientsByProject (projectID : ℕ) : Database :=
  { d with initialRecipients := d.initialRecipients.filter fun r => r.projectID ≠ projectID }

def upsertProjectInitialRecipient (row : InitialRecipientRow) : Except Failure Database := do
  ensure (0 ≤ row.ratioBPS.toInt) (.constraint "project_initial_recipient_ratio_bps_check")
  pure { d with initialRecipients := d.initialRecipients.upsert row }

/-- The research of a chain that is due ends. -/
def expireProjectResearchStatesForBlock (chainID : ℤ) (blockNumber blockTime : ℕ) : Database :=
  let due (r : ResearchState) : Bool :=
    r.status = .researching && r.attentionExpiryBlockTime ≤ blockTime &&
      d.projects.rows.any fun p => p.id = r.projectID && p.chainID = chainID
  { d with
    researchStates := d.researchStates.update
      (fun r => if due r then { r with
          status := .expired
          expiredBlockNumber := some blockNumber
          expiredBlockTime := some blockTime } else r)
      (fun r => by split <;> rfl) }

def upsertChainProcessingCheckpointCursor (chainID : ℤ) (cursorBlockNumber : ℕ)
    (status : ProcessingStatus) : Except Failure Database := do
  ensure (chainID ∈ d.chains) (.constraint "chain_processing_checkpoint_chain_fk")
  let status := (d.checkpoints.get? chainID).elim status ChainCheckpoint.status
  pure { d with checkpoints := d.checkpoints.upsert { chainID, cursorBlockNumber, status } }

end Queries

/-! ## The store -/

def uint64ToInt64 (field : String) (value : ℕ) : Except Failure ℕ := do
  ensure (value ≤ maxInt64) (.exceedsInt64 field)
  pure value

/-- The time after a duration, which is given in nanoseconds.  The sum is computed in 64 bits. -/
def addDuration (field : String) (blockTime : ℕ) (duration : ℤ) : Except Failure ℕ := do
  ensure (0 < duration ∧ duration % 1000000000 = 0) .duration
  let result := blockTime + (duration / 1000000000).toNat
  ensure (result < 2 ^ 64) .timeOverflow
  uint64ToInt64 field result

/-- What is collected for every new project. -/
structure ScheduleSeed where
  dataType : DataType
  retryIntervalSeconds : ℕ
  nextRunAt : Option ℤ

structure BlockHeader where
  number : ℕ
  timestamp : ℕ

structure CommitProcessedBlockCommand where
  checkpoint : ChainCheckpoint
  block : BlockHeader
  inspections : List CandidateInspection
  schedules : List ScheduleSeed
  researchTTL : ℤ

/-- The candidate must be one of the block. -/
def prepareCandidateInspection (checkpoint : ChainCheckpoint) (block : BlockHeader)
    (inspection : CandidateInspection) : Except Failure CandidateRow := do
  let candidate := inspection.candidate
  ensure (candidate.chainID = checkpoint.chainID) (.candidateChain candidate.chainID)
  ensure (candidate.blockNumber = checkpoint.cursorBlockNumber)
    (.candidateBlock candidate.blockNumber)
  ensure (candidate.blockNumber = block.number ∧ candidate.blockTime = block.timestamp)
    (.candidatePosition candidate.blockNumber candidate.blockTime)
  let _ ← uint64ToInt64 "tx_index" candidate.txIndex
  let _ ← uint64ToInt64 "deployment_nonce" candidate.deploymentNonce
  let _ ← uint64ToInt64 "block_number" candidate.blockNumber
  let _ ← uint64ToInt64 "block_time" candidate.blockTime
  pure ⟨candidate, if inspection.accepted then .validated else .rejected⟩

def optionalAddress (address : Address) : Option Address :=
  if address = 0 then none else some address

def inspectedProject (inspection : CandidateInspection) : Project where
  id := 0
  chainID := inspection.candidate.chainID
  contract := inspection.candidate.contract
  txSender := inspection.candidate.txSender
  txHash := inspection.candidate.txHash
  txIndex := inspection.candidate.txIndex
  deploymentNonce := inspection.candidate.deploymentNonce
  blockNumber := inspection.candidate.blockNumber
  blockTime := inspection.candidate.blockTime
  codeHash := inspection.codeHash
  name := inspection.name
  symbol := inspection.symbol
  decimals := inspection.decimals.toNat
  totalSupply := inspection.totalSupply.toNat
  wethPair := optionalAddress inspection.wethPair
  usdtPair := optionalAddress inspection.usdtPair

def newPair (candidate : ProjectCandidate) (projectID : ℕ) (kind : PairKind) (address : Address)
    (absoluteExpiryBlockTime nextExpiryBlockTime : ℕ) : ProjectSwapPair where
  id := 0
  projectID := projectID
  chainID := candidate.chainID
  kind := kind
  address := address
  startBlockNumber := candidate.blockNumber
  startBlockTime := candidate.blockTime
  absoluteExpiryBlockTime := absoluteExpiryBlockTime
  nextExpiryBlockTime := some nextExpiryBlockTime

def writeRelatedWallets (d : Database) (projectID : ℕ) (wallets : List RelatedWallet) : Database :=
  (wallets.filter fun w => w.wallet ≠ 0).foldl
    (fun d w => Queries.upsertProjectRelatedWallet d ⟨projectID, w.wallet, w.role⟩) d

def writeInitialRecipient (projectID : ℕ) (d : Database) (r : InitialRecipient) :
    Except Failure Database := do
  let sourceBlockNumber ← uint64ToInt64 "source_block_number" r.sourceBlockNumber
  Queries.upsertProjectInitialRecipient d
    ⟨projectID, r.wallet, r.ratioBPS, r.rankIndex, r.sourceTxHash, sourceBlockNumber⟩

def writeInitialRecipients (d : Database) (projectID : ℕ) (recipients : List InitialRecipient) :
    Except Failure Database :=
  (recipients.filter fun r => r.wallet ≠ 0).foldlM (writeInitialRecipient projectID)
    (Queries.deleteProjectInitialRecipientsByProject d projectID)

/-- A project with its pairs, its research and its schedules. -/
def initializeProject (d : Database) (inspection : CandidateInspection)
    (schedules : List ScheduleSeed) (researchTTL : ℤ) : Except Failure (Database × Project) := do
  let candidate := inspection.candidate
  ensure (inspection.wethPair ≠ 0) (.noWethPair candidate.contract)
  ensure (inspection.usdtPair ≠ 0) (.noUsdtPair candidate.contract)
  let _ ← uint64ToInt64 "tx_index" candidate.txIndex
  let _ ← uint64ToInt64 "deployment_nonce" candidate.deploymentNonce
  let _ ← uint64ToInt64 "block_number" candidate.blockNumber
  let _ ← uint64ToInt64 "block_time" candidate.blockTime
  let d := Queries.upsertContractCode d inspection.codeHash
  let (d, project) ← Queries.upsertProject d (inspectedProject inspection)
  let attention ← addDuration "attention_expiry_block_time" candidate.blockTime researchTTL
  let absolute ← addDuration "swap_expiry_block_time" candidate.blockTime
    (absoluteObservationTimeout * 1000000000)
  let next ← addDuration "swap_expiry_block_time" candidate.blockTime
    (firstSwapTimeout * 1000000000)
  let d ← Queries.createProjectSwapPair d
    (newPair candidate project.id .weth inspection.wethPair absolute next)
  let d ← Queries.createProjectSwapPair d
    (newPair candidate project.id .usdt inspection.usdtPair absolute next)
  let d := Queries.createProjectResearchState d project.id attention
  let d ← schedules.foldlM (fun d s => Queries.upsertProjectDataCollectionSchedule d
    ⟨project.id, s.dataType, s.retryIntervalSeconds, s.nextRunAt⟩) d
  pure (d, project)

def initializeInspectedProject (schedules : List ScheduleSeed) (researchTTL : ℤ) (d : Database)
    (inspection : CandidateInspection) : Except Failure Database := do
  let (d, project) ← initializeProject d inspection schedules researchTTL
  let d := writeRelatedWallets d project.id inspection.relatedWallets
  writeInitialRecipients d project.id inspection.initialRecipients

/-- The transaction of a block. -/
def commitProcessedBlock (d : Database) (command : CommitProcessedBlockCommand) :
    Except Failure Database := do
  let checkpoint := command.checkpoint
  ensure (command.block.number = checkpoint.cursorBlockNumber)
    (.blockMismatch command.block.number checkpoint.cursorBlockNumber)
  let cursorBlockNumber ← uint64ToInt64 "cursor_block_number" checkpoint.cursorBlockNumber
  let blockTime ← uint64ToInt64 "block_time" command.block.timestamp
  let rows ← command.inspections.mapM (prepareCandidateInspection checkpoint command.block)
  let d ← rows.foldlM Queries.upsertProjectCandidate d
  let d ← (command.inspections.filter (·.accepted)).foldlM
    (initializeInspectedProject command.schedules command.researchTTL) d
  let d := Queries.expireProjectResearchStatesForBlock d checkpoint.chainID cursorBlockNumber
    blockTime
  Queries.upsertChainProcessingCheckpointCursor d checkpoint.chainID cursorBlockNumber
    checkpoint.status

/-! ## The loop over the blocks -/

/-- What is found in a block: its contracts, what is answered of them, and what the node answers
while they are inspected. -/
structure ProjectBlock where
  header : BlockHeader
  tokens : List (ProjectCandidate × AthenaToken)
  view : View

def inspectCandidates (block : ProjectBlock) : Except Failure (List CandidateInspection) :=
  block.tokens.mapM fun x => inspectCandidate block.view x.1 x.2

/-- What a run of the processor reads: the last block, where to begin when there is no cursor,
and the blocks. -/
structure Reading where
  latest : ℕ
  estimate : ℕ
  schedules : List ScheduleSeed
  researchTTL : ℤ
  block : ℕ → Except Failure ProjectBlock

/-- One block: found, inspected and committed. -/
def processBlock (reading : Reading) (chainID : ℤ) (next : ℕ) (d : Database) :
    Except Failure Database := do
  let checkpoint ← found (d.checkpoints.get? chainID) .noRows
  ensure (checkpoint.status = .running) .noRows
  let block ← reading.block next
  ensure (block.header.number = next) (.blockMismatch block.header.number next)
  let inspections ← inspectCandidates block
  commitProcessedBlock d
    ⟨⟨chainID, next, .running⟩, block.header, inspections, reading.schedules, reading.researchTTL⟩

/-- Up to a number of blocks; the first failure ends the run. -/
def processBlocks (reading : Reading) (chainID : ℤ) : ℕ → ℕ → Database → Database
  | 0, _, d => d
  | n + 1, next, d =>
    match processBlock reading chainID next d with
    | .ok d' => processBlocks reading chainID n (next + 1) d'
    | .error _ => d

/-- `RunOnce`.  A chain that was never processed begins before the estimated block. -/
def runOnce (reading : Reading) (chainID : ℤ) (d : Database) : Database :=
  match d.checkpoints.get? chainID with
  | none => d
  | some checkpoint =>
    if checkpoint.status = .running then
      let checkpoint := if checkpoint.cursorBlockNumber = 0 then
        { checkpoint with cursorBlockNumber := reading.estimate - 1 } else checkpoint
      processBlocks reading chainID (reading.latest - checkpoint.cursorBlockNumber)
        (checkpoint.cursorBlockNumber + 1)
        { d with checkpoints := d.checkpoints.put checkpoint }
    else d

end Athena.Token
