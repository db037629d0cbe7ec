import Athena.Indexers.Store
import Athena.Lib.Turns

/-!
# What the scanners have in common

A scanner reads the checkpoint, or makes the first one: it looks for the first block of the last
thirty days by bisection.  Every answer of the node is checked for the number that was asked for.

The rule of a scanner says what it has read when it writes.  A first checkpoint is the block
before the start.  A batch begins at a checkpoint that was read; what else is known of it is a
parameter.
-/

namespace Athena.Indexers

open Athena.Lib List

/-- The requests to the node and the transactions of the store. -/
inductive Call (ρ : Type)
  | finalizedHeader
  | headerByNumber (number : ℕ)
  | blockByNumber (number : ℕ)
  | transactionReceipt (transactionHash : Hash)
  | filterLogs (fromBlock toBlock : ℕ) (topic : Hash)
  | getScanCheckpoint
  | initializeScanCheckpoint (checkpoint : Checkpoint)
  | commitBatch (expectedCursor : ℕ) (transactions : List ρ) (checkpoint : Checkpoint)

@[reducible] def Call.Reply {ρ : Type} : Call ρ → Type
  | .finalizedHeader | .headerByNumber _ => Except Failure (Option Header)
  | .blockByNumber _ => Except Failure (Option Block)
  | .transactionReceipt _ => Except Failure (Option Receipt)
  | .filterLogs .. => Except Failure (List Log)
  | .getScanCheckpoint | .initializeScanCheckpoint _ => Except Failure Checkpoint
  | .commitBatch .. => Except Failure Unit

abbrev Handler (ρ : Type) := Program (Call ρ) Call.Reply Failure

abbrev Entry (ρ : Type) : Type := Program.Entry (Call.Reply (ρ := ρ))

section Scanner

variable {ρ : Type}

def ask (c : Call ρ) : Handler ρ c.Reply := Program.ask c

def accept {α : Type} (x : Except Failure α) : Handler ρ α := .ofExcept x

/-! ## The node -/

def finalizedHeader : Handler ρ Header := do
  let reply : Option Header ← accept (← ask .finalizedHeader)
  let header ← accept (found reply .invalidFinalizedHeader)
  accept (ensure (∃ n ∈ header.number, n < 2 ^ 64) .invalidFinalizedHeader)
  pure header

def headerByNumber (number : ℕ) : Handler ρ Header := do
  let reply : Option Header ← accept (← ask (.headerByNumber number))
  let header ← accept (found reply (.invalidHeader number))
  accept (ensure (header.number.isSome ∧ header.uint64 = number) (.invalidHeader number))
  pure header

def blockByNumber (number : ℕ) : Handler ρ Block := do
  let reply : Option Block ← accept (← ask (.blockByNumber number))
  let block ← accept (found reply (.invalidBlock number))
  accept (ensure (block.numberU64 = number) (.invalidBlock number))
  pure block

def transactionReceipt (transactionHash : Hash) : Handler ρ Receipt := do
  let reply : Option Receipt ← accept (← ask (.transactionReceipt transactionHash))
  accept (found reply (.emptyReceipt transactionHash))

def v2SwapTopic : Hash := 0xd78ad95fa46c994b6551d0da85fc275fe613ce37657fb8d5e3d130840159d822#256

def filterSwapLogs (start stop : ℕ) : Handler ρ (List Log) := do
  accept (ensure (start ≤ stop) (.invalidLogRange start stop))
  accept (← ask (.filterLogs start stop v2SwapTopic))

/-! ## The first checkpoint -/

/-- The loop of `findFirstBlockAtOrAfter`.  Every round makes the interval smaller. -/
def bisect (targetTimestamp : ℕ) : ℕ → ℕ → ℕ → Handler ρ ℕ
  | 0, low, _ => pure low
  | fuel + 1, low, high =>
    if low < high then do
      let mid := low + (high - low) / 2
      let header ← headerByNumber mid
      if header.time < targetTimestamp then bisect targetTimestamp fuel (mid + 1) high
      else bisect targetTimestamp fuel low mid
    else pure low

def findFirstBlockAtOrAfter (high targetTimestamp : ℕ) : Handler ρ ℕ :=
  bisect targetTimestamp high 0 high

/-- `defaultInitialLookback`, thirty days in seconds. -/
def lookbackSeconds : ℕ := 30 * 24 * 60 * 60

def targetTimestamp (finalized : Header) : ℕ :=
  if lookbackSeconds < finalized.time then finalized.time - lookbackSeconds else 0

/-- `InitializeCheckpoint` of the store: the row that was inserted, or the one that is there. -/
def storeCheckpoint (checkpoint : Checkpoint) : Handler ρ Checkpoint := do
  match ← ask (.initializeScanCheckpoint checkpoint) with
  | .ok row => pure row
  | .error .noRows => accept (← ask .getScanCheckpoint)
  | .error e => .fail e

def initializeCheckpoint : Handler ρ Checkpoint := do
  let finalized ← finalizedHeader
  accept (ensure (finalized.uint64 ≠ 0) .finalizedHeight)
  let startBlock ← findFirstBlockAtOrAfter finalized.uint64 (targetTimestamp finalized)
  let startBlock := if startBlock = 0 then 1 else startBlock
  let previous ← headerByNumber (startBlock - 1)
  storeCheckpoint ⟨startBlock, startBlock - 1, previous.hash, previous.time⟩

def currentCheckpoint : Handler ρ Checkpoint := do
  match ← ask .getScanCheckpoint with
  | .ok checkpoint => pure checkpoint
  | .error .noRows => initializeCheckpoint
  | .error e => .fail e

def batchEnd (batchSize start finalizedNumber : ℕ) : ℕ :=
  if batchSize < finalizedNumber - start + 1 then start + batchSize - 1 else finalizedNumber

/-! ## What was read -/

def HasFinalized (h : List (Entry ρ)) (header : Header) : Prop :=
  (⟨.finalizedHeader, .ok (some header)⟩ : Entry ρ) ∈ h ∧ header.number = some header.uint64

def HasHeader (h : List (Entry ρ)) (number : ℕ) (header : Header) : Prop :=
  (⟨.headerByNumber number, .ok (some header)⟩ : Entry ρ) ∈ h ∧ header.uint64 = number

def HasBlock (h : List (Entry ρ)) (number : ℕ) (block : Block) : Prop :=
  (⟨.blockByNumber number, .ok (some block)⟩ : Entry ρ) ∈ h ∧ block.numberU64 = number

def HasReceipt (h : List (Entry ρ)) (transactionHash : Hash) (receipt : Receipt) : Prop :=
  (⟨.transactionReceipt transactionHash, .ok (some receipt)⟩ : Entry ρ) ∈ h

def HasCheckpoint (h : List (Entry ρ)) (checkpoint : Checkpoint) : Prop :=
  (⟨.getScanCheckpoint, .ok checkpoint⟩ : Entry ρ) ∈ h ∨
    ∃ c, (⟨.initializeScanCheckpoint c, .ok checkpoint⟩ : Entry ρ) ∈ h

variable {h h' : List (Entry ρ)}

theorem HasFinalized.mono {header : Header} (hh : h <+: h') (hheader : HasFinalized h header) :
    HasFinalized h' header := hheader.imp_left fun hmem => hh.subset hmem

theorem HasHeader.mono {n : ℕ} {header : Header} (hh : h <+: h') (hheader : HasHeader h n header) :
    HasHeader h' n header := hheader.imp_left fun hmem => hh.subset hmem

theorem HasBlock.mono {n : ℕ} {block : Block} (hh : h <+: h') (hblock : HasBlock h n block) :
    HasBlock h' n block := hblock.imp_left fun hmem => hh.subset hmem

theorem HasReceipt.mono {transactionHash : Hash} {receipt : Receipt} (hh : h <+: h')
    (hreceipt : HasReceipt h transactionHash receipt) : HasReceipt h' transactionHash receipt :=
  hh.subset hreceipt

theorem HasCheckpoint.mono {checkpoint : Checkpoint} (hh : h <+: h')
    (hcheckpoint : HasCheckpoint h checkpoint) : HasCheckpoint h' checkpoint :=
  hcheckpoint.imp (fun hmem => hh.subset hmem) fun ⟨c, hmem⟩ => ⟨c, hh.subset hmem⟩

/-- Where the first checkpoint is.  The block before the start is the cursor.  The start is the
first block of the last thirty days before a block that was finalized, as far as the bisection
looked: the block before it is older, unless it is the very first, and a block that is not after
the start is not older, unless the start is the finalized block. -/
structure Anchored (h : List (Entry ρ)) (c : Checkpoint) : Prop where
  start : c.startBlockNumber = c.cursorBlockNumber + 1
  cursor : ∃ header, HasHeader h c.cursorBlockNumber header ∧ c.cursorBlockHash = header.hash ∧
    c.cursorBlockTimestamp = header.time
  bisected : ∃ finalized, HasFinalized h finalized ∧ c.startBlockNumber ≤ finalized.uint64 ∧
    (c.startBlockNumber = 1 ∨ ∃ header, HasHeader h c.cursorBlockNumber header ∧
      header.time < targetTimestamp finalized) ∧
    (c.startBlockNumber = finalized.uint64 ∨ ∃ number ≤ c.startBlockNumber, ∃ header,
      HasHeader h number header ∧ targetTimestamp finalized ≤ header.time)

def Rule (batch : List (Entry ρ) → Checkpoint → List ρ → Checkpoint → Prop)
    (h : List (Entry ρ)) : Call ρ → Prop
  | .initializeScanCheckpoint c => Anchored h c
  | .commitBatch expected rows next => ∃ c, HasCheckpoint h c ∧ expected = c.cursorBlockNumber ∧
      batch h c rows next
  | _ => True

/-! ## The rule is kept -/

open Program

variable {batch : List (Entry ρ) → Checkpoint → List ρ → Checkpoint → Prop}

theorem yields_finalizedHeader :
    Yields (Rule batch) (finalizedHeader (ρ := ρ)) h HasFinalized := by
  refine yields_ask_bind trivial fun reply => yields_ofExcept_bind fun found? hreply => ?_
  obtain rfl := hreply
  refine yields_ofExcept_bind fun header hheader => yields_ofExcept_bind fun _ hnumber =>
    yields_pure ?_
  obtain rfl := found_eq_ok.mp hheader
  obtain ⟨n, hn, hlt⟩ := ensure_eq_ok.mp hnumber
  refine ⟨mem_append_right h mem_cons_self, ?_⟩
  rw [Header.uint64, Option.mem_def.mp hn, Option.getD_some, Nat.mod_eq_of_lt hlt]

theorem yields_headerByNumber {number : ℕ} :
    Yields (Rule batch) (headerByNumber (ρ := ρ) number) h fun h' header =>
      HasHeader h' number header := by
  refine yields_ask_bind trivial fun reply => yields_ofExcept_bind fun found? hreply => ?_
  obtain rfl := hreply
  refine yields_ofExcept_bind fun header hheader => yields_ofExcept_bind fun _ hnumber =>
    yields_pure ?_
  obtain rfl := found_eq_ok.mp hheader
  exact ⟨mem_append_right h mem_cons_self, (ensure_eq_ok.mp hnumber).2⟩

theorem yields_blockByNumber {number : ℕ} :
    Yields (Rule batch) (blockByNumber (ρ := ρ) number) h fun h' block =>
      HasBlock h' number block := by
  refine yields_ask_bind trivial fun reply => yields_ofExcept_bind fun found? hreply => ?_
  obtain rfl := hreply
  refine yields_ofExcept_bind fun block hblock => yields_ofExcept_bind fun _ hnumber =>
    yields_pure ?_
  obtain rfl := found_eq_ok.mp hblock
  exact ⟨mem_append_right h mem_cons_self, ensure_eq_ok.mp hnumber⟩

theorem yields_transactionReceipt {transactionHash : Hash} :
    Yields (Rule batch) (transactionReceipt (ρ := ρ) transactionHash) h fun h' receipt =>
      HasReceipt h' transactionHash receipt := by
  refine yields_ask_bind trivial fun reply => yields_ofExcept_bind fun found? hreply => ?_
  obtain rfl := hreply
  refine yields_ofExcept fun receipt hreceipt => ?_
  obtain rfl := found_eq_ok.mp hreceipt
  exact mem_append_right h mem_cons_self

theorem yields_filterSwapLogs {start stop : ℕ} :
    Yields (Rule batch) (filterSwapLogs (ρ := ρ) start stop) h fun h' logs =>
      (⟨.filterLogs start stop v2SwapTopic, .ok logs⟩ : Entry ρ) ∈ h' := by
  refine yields_ofExcept_bind fun _ _ => yields_ask_bind trivial fun reply => ?_
  refine yields_ofExcept fun logs hlogs => ?_
  obtain rfl := hlogs
  exact mem_append_right h mem_cons_self

/-- What the bisection knows of its bounds: the block before the lower one is too old, and the
upper one is not, unless it is the first upper bound. -/
structure Bisected (h : List (Entry ρ)) (target top low high : ℕ) : Prop where
  le : low ≤ high
  le_top : high ≤ top
  low : low = 0 ∨ ∃ header, HasHeader h (low - 1) header ∧ header.time < target
  high : high = top ∨ ∃ header, HasHeader h high header ∧ target ≤ header.time

theorem Bisected.mono {target top low high : ℕ} (hh : h <+: h')
    (hb : Bisected h target top low high) : Bisected h' target top low high where
  le := hb.le
  le_top := hb.le_top
  low := hb.low.imp_right fun ⟨header, hheader, ht⟩ => ⟨header, hheader.mono hh, ht⟩
  high := hb.high.imp_right fun ⟨header, hheader, ht⟩ => ⟨header, hheader.mono hh, ht⟩

theorem yields_bisect {target top fuel low high : ℕ} (hfuel : high - low ≤ fuel)
    (hb : Bisected h target top low high) :
    Yields (Rule batch) (bisect (ρ := ρ) target fuel low high) h fun h' r =>
      Bisected h' target top r r := by
  induction fuel generalizing h low high with
  | zero =>
    obtain rfl : low = high := by have := hb.le; omega
    exact yields_pure hb
  | succ _ ih =>
    unfold bisect
    split
    · rename_i hlt
      refine yields_headerByNumber.bind fun h' header hh' hheader => ?_
      have hb' := hb.mono hh'
      have hmid : low + (high - low) / 2 < high := by omega
      split
      · rename_i hold
        refine ih (by omega) ⟨hmid, hb'.le_top, .inr ⟨header, ?_, hold⟩, hb'.high⟩
        exact hheader
      · rename_i hnew
        refine ih (by omega) ⟨by omega, by have := hb.le_top; omega, hb'.low, .inr ⟨header, ?_⟩⟩
        exact ⟨hheader, Nat.le_of_not_lt hnew⟩
    · obtain rfl : low = high := by have := hb.le; omega
      exact yields_pure hb

theorem yields_findFirstBlockAtOrAfter {high target : ℕ} :
    Yields (Rule batch) (findFirstBlockAtOrAfter (ρ := ρ) high target) h fun h' r =>
      Bisected h' target high r r :=
  yields_bisect (by omega) ⟨Nat.zero_le high, le_refl high, .inl rfl, .inl rfl⟩

theorem yields_storeCheckpoint {c : Checkpoint} (hc : Anchored h c) :
    Yields (Rule batch) (storeCheckpoint (ρ := ρ) c) h HasCheckpoint := by
  refine yields_ask_bind hc fun reply => ?_
  rcases reply with e | row
  · cases e with
    | noRows =>
      refine yields_ask_bind trivial fun reply => yields_ofExcept fun row hrow => ?_
      obtain rfl := hrow
      exact .inl (mem_append_right _ mem_cons_self)
    | _ => exact yields_fail
  · exact yields_pure (.inr ⟨c, mem_append_right h mem_cons_self⟩)

theorem yields_initializeCheckpoint :
    Yields (Rule batch) (initializeCheckpoint (ρ := ρ)) h HasCheckpoint := by
  refine yields_finalizedHeader.bind fun h₁ finalized _ hfinalized => ?_
  refine yields_ofExcept_bind fun _ hheight => ?_
  have hheight := ensure_eq_ok.mp hheight
  refine yields_findFirstBlockAtOrAfter.bind fun h₂ startBlock hh₂ hb => ?_
  refine yields_headerByNumber.bind fun h₃ previous hh₃ hprevious => yields_storeCheckpoint ?_
  have hb := hb.mono hh₃
  by_cases hzero : startBlock = 0
  · subst hzero
    obtain ⟨header, hheader, htime⟩ := hb.high.resolve_left (Ne.symm hheight)
    refine ⟨rfl, ⟨previous, hprevious, rfl, rfl⟩, finalized, ?_, ?_, .inl rfl, .inr ?_⟩
    · exact hfinalized.mono (hh₂.trans hh₃)
    · exact Nat.one_le_iff_ne_zero.mpr hheight
    · exact ⟨0, Nat.zero_le _, header, hheader, htime⟩
  · simp only [hzero, if_false] at hprevious ⊢
    refine ⟨?_, ⟨previous, hprevious, rfl, rfl⟩, finalized, ?_, hb.le_top, ?_, ?_⟩
    · exact (Nat.succ_pred_eq_of_ne_zero hzero).symm
    · exact hfinalized.mono (hh₂.trans hh₃)
    · exact .inr (hb.low.resolve_left hzero)
    · exact hb.high.imp_right fun ⟨header, hheader, htime⟩ =>
        ⟨startBlock, le_refl _, header, hheader, htime⟩

theorem yields_currentCheckpoint :
    Yields (Rule batch) (currentCheckpoint (ρ := ρ)) h HasCheckpoint := by
  refine yields_ask_bind trivial fun reply => ?_
  rcases reply with e | row
  · cases e with
    | noRows => exact yields_initializeCheckpoint
    | _ => exact yields_fail
  · exact yields_pure (.inl (mem_append_right h mem_cons_self))

end Scanner
end Athena.Indexers
