import Athena.Indexers.Inbound
import Athena.Indexers.Swap

/-!
# Every transaction once

However many scanners run over a database, and wherever they stop: the rows of an indexer are
those that its collector selects from the blocks between the first start and the cursor, as long
as the node answers from one chain.  Of any node, the inbound indexer accepts only blocks that
are linked to each other and to the block of the stored cursor.
-/

namespace Athena.Indexers

open Athena.Lib Pool Inbound

inductive Inbound.Starts : Handler InboundNormalTransaction Unit → Prop
  | scanner (batchSize rounds : ℕ) (positive : 0 < batchSize) : Starts (run batchSize rounds)

inductive Swap.Starts : Handler SwapTransaction Unit → Prop
  | scanner (rounds : ℕ) : Starts (run rounds)

abbrev Inbound.indexer (answers : (c : Call InboundNormalTransaction) → c.Reply → Prop) :
    Pool (Database InboundNormalTransaction) (Call InboundNormalTransaction) Call.Reply Failure :=
  pool answers Inbound.Starts

abbrev Swap.indexer (answers : (c : Call SwapTransaction) → c.Reply → Prop) :
    Pool (Database SwapTransaction) (Call SwapTransaction) Call.Reply Failure :=
  pool answers Swap.Starts

theorem Inbound.guards_of_starts (p : Handler InboundNormalTransaction Unit) (h : Starts p) :
    p.Guards rule (fun _ _ => True) [] := by
  cases h with
  | scanner batchSize rounds => exact (yields_run batchSize rounds).guards

theorem Swap.guards_of_starts (p : Handler SwapTransaction Unit) (h : Starts p) :
    p.Guards rule (fun _ _ => True) [] := by
  cases h with
  | scanner rounds => exact (yields_run rounds).guards

/-- No transaction is stored twice, and no two have one position. -/
structure StoredOnce {ρ : Type} [Record ρ] (d : Database ρ) : Prop where
  hashes : (d.transactions.rows.map Record.transactionHash).Nodup
  positions : (d.transactions.rows.map Record.position).Nodup

theorem storedOnce {ρ : Type} [Record ρ] (d : Database ρ) : StoredOnce d where
  hashes := d.transactions.nodup
  positions := by
    refine List.Nodup.map_on ?_ d.transactions.nodup.of_map
    exact fun a ha b hb heq => d.positions a ha b hb heq

/-- A commit of the inbound indexer that changes the database writes a batch that begins at the
stored checkpoint. -/
theorem Inbound.batch_of_commit {answers : (c : Call InboundNormalTransaction) → c.Reply → Prop}
    {w : World InboundNormalTransaction} (hw : (indexer answers).Reachable w)
    {l₁ l₂ : List (Event InboundNormalTransaction)} {e : Event InboundNormalTransaction} {i : ℕ}
    {expected : ℕ} {rows : List InboundNormalTransaction} {next : Checkpoint}
    {r : Except Failure Unit} (hlog : w.log = l₁ ++ e :: l₂)
    (hcause : e.cause = some (i, ⟨.commitBatch expected rows next, r⟩))
    (hchange : e.after ≠ e.before) :
    ∃ c blocks, e.before.checkpoint = some c ∧ expected = c.cursorBlockNumber ∧
      Batch (history l₁ i) c blocks rows next := by
  have he : e ∈ w.log := by simp [hlog]
  have hobedient : Pool.Obedient (fun _ => rule) w := hw.guarded fun _ p hp => guards_of_starts p hp
  obtain ⟨c, hc, rfl, blocks, hb⟩ := hobedient.log l₁ e l₂ i _ hlog hcause
  obtain ⟨w₁, hw₁, rfl, hshared⟩ := hw.cut hlog
  have hserves : serves answers e.before (.commitBatch c.cursorBlockNumber rows next) r e.after :=
    (hw.chronicle.lawful e he).serves hcause
  obtain hsame | ⟨_, hinit, -⟩ | ⟨expected, rows', next', hcall, hcommit⟩ := serves_cases hserves
  · exact absurd hsame hchange
  · cases hinit
  · cases hcall
    obtain ⟨current, hcurrent, hcursor, -⟩ := hcommit.advanced
    obtain rfl := checkpoint_eq_of_cursor_eq hw₁ hc (hshared ▸ hcurrent) hcursor
    exact ⟨current, blocks, hcurrent, rfl, hb⟩

/-- When the node answers from one chain, the rows of both indexers are exactly those that are
selected from the blocks between the start and the cursor, each of them once, the hash of the
cursor is that of its block, the start stays and the cursor never decreases.  Whatever the node
answers, a batch of the inbound indexer that changes the database consists of blocks that follow
the stored checkpoint, each the parent of the next. -/
theorem indexers_exactly_once :
    (∀ (chain : Chain) (w : World InboundNormalTransaction),
      (Inbound.indexer chain.Answers).Reachable w →
      Exact chain (Inbound.Selects chain) w.shared ∧ StoredOnce w.shared ∧
        w.states.Pairwise Advances) ∧
    (∀ (chain : Chain) (w : World SwapTransaction), (Swap.indexer chain.Answers).Reachable w →
      Exact chain (Swap.Selects chain) w.shared ∧ StoredOnce w.shared ∧
        w.states.Pairwise Advances) ∧
    ∀ (answers : (c : Call InboundNormalTransaction) → c.Reply → Prop)
      (w : World InboundNormalTransaction), (Inbound.indexer answers).Reachable w →
      ∀ l₁ e l₂ i expected rows next r, w.log = l₁ ++ e :: l₂ →
        e.cause = some (i, ⟨.commitBatch expected rows next, r⟩) → e.after ≠ e.before →
        ∃ c blocks, e.before.checkpoint = some c ∧ expected = c.cursorBlockNumber ∧
          Inbound.Linked c.cursorBlockHash blocks ∧
          Inbound.Batch (history l₁ i) c blocks rows next := by
  refine ⟨fun chain w hw => ⟨?_, storedOnce _, states_advance hw⟩,
    fun chain w hw => ⟨?_, storedOnce _, states_advance hw⟩, ?_⟩
  · exact exact_of_reachable Selects.eq_of_hash_eq guards_of_starts
      (fun hanswers ⟨_, hb⟩ => hb.faithful hanswers) hw
  · exact exact_of_reachable Swap.Selects.eq_of_hash_eq Swap.guards_of_starts
      (fun hanswers hb => hb.faithful hanswers) hw
  · intro answers w hw l₁ e l₂ i expected rows next r hlog hcause hchange
    obtain ⟨c, blocks, hc, hexpected, hb⟩ := batch_of_commit hw hlog hcause hchange
    exact ⟨c, blocks, hc, hexpected, hb.linked, hb⟩

/-! ## A small chain -/

/-- A node that answers every request from a chain, and a database that loses no answer. -/
def Chain.answer {ρ : Type} [Record ρ] (chain : Chain) (d : Database ρ) :
    (c : Call ρ) → c.Reply × Database ρ
  | .finalizedHeader => (.ok (some (chain.header chain.height)), d)
  | .headerByNumber number =>
    (.ok (if number ≤ chain.height then some (chain.header number) else none), d)
  | .blockByNumber number =>
    (.ok (if number ≤ chain.height then some (chain.block number) else none), d)
  | .transactionReceipt hash => (.ok (some (chain.receipt hash)), d)
  | .filterLogs start stop topic => (.ok (((List.range (chain.height + 1)).filter fun n =>
    start ≤ n ∧ n ≤ stop).flatMap fun n => (chain.logs n).filter fun l =>
      l.topics.head? = some topic), d)
  | .getScanCheckpoint => (found d.checkpoint .noRows, d)
  | .initializeScanCheckpoint c => outcome (initializeScanCheckpoint d c) d
  | .commitBatch expected rows next => outcome (commitBatch d expected rows next) d

theorem Chain.serves_answer {ρ : Type} [Record ρ] (chain : Chain) (d : Database ρ) (c : Call ρ) :
    serves chain.Answers d c (chain.answer d c).1 (chain.answer d c).2 := by
  cases c with
  | finalizedHeader =>
    refine ⟨fun header hheader => ?_, rfl⟩
    exact ⟨chain.height, le_refl _, (by simpa [Chain.answer] using hheader.symm)⟩
  | headerByNumber =>
    refine ⟨fun header hheader => ?_, rfl⟩
    simpa [Chain.answer, eq_comm] using hheader
  | blockByNumber =>
    refine ⟨fun block hblock => ?_, rfl⟩
    simpa [Chain.answer, eq_comm] using hblock
  | transactionReceipt =>
    refine ⟨fun receipt hreceipt => ?_, rfl⟩
    simpa [Chain.answer, eq_comm] using hreceipt
  | filterLogs =>
    refine ⟨?_, rfl⟩
    rintro logs ⟨rfl⟩ l
    simp only [List.mem_flatMap, List.mem_filter, List.mem_range, decide_eq_true_eq]
    refine exists_congr fun n => ?_
    rw [Nat.lt_succ_iff]
    tauto
  | getScanCheckpoint => exact ⟨.inl rfl, rfl⟩
  | initializeScanCheckpoint | commitBatch => exact served_outcome _ _ _

def Chain.responder {ρ : Type} [Record ρ] (chain : Chain) (starts : Handler ρ Unit → Prop) :
    (pool chain.Answers starts).Responder where
  answer d c := some (chain.answer d c)
  lawful {d c r d'} h := by
    obtain ⟨rfl, rfl⟩ := Prod.mk.inj (Option.some.inj h)
    exact chain.serves_answer d c

namespace Sample

def transfer : Transaction := ⟨11, some 7, 20000000000000000, [], some 8⟩

def creation : Transaction := ⟨12, none, 0, [1], some 8⟩

def swapLog : Log := ⟨1, 2, 11, 0, 0, [v2SwapTopic], false⟩

def block : ℕ → Block
  | 0 => ⟨0, 1, 0, 0, []⟩
  | 1 => ⟨1, 2, 1, 3, [some transfer]⟩
  | n => ⟨n, 3, 2, 6, [some creation]⟩

def chain : Chain where
  height := 2
  block := block
  receipt hash := if hash = 11 then ⟨1, 2, 0⟩ else ⟨1, 3, 0⟩
  logs n := if n = 1 then [swapLog] else []
  number := by decide
  linked := by decide
  hash_injective := by decide
  receipt_position n hn i t h := by
    obtain rfl | rfl | rfl : n = 0 ∨ n = 1 ∨ n = 2 := by omega
    · simp [block] at h
    · obtain ⟨rfl, rfl⟩ : i = 0 ∧ transfer = t := by
        simpa [block, List.getElem?_singleton] using h
      decide
    · obtain ⟨rfl, rfl⟩ : i = 0 ∧ creation = t := by
        simpa [block, List.getElem?_singleton] using h
      decide
  log_position n hn l hl := by
    obtain ⟨rfl, rfl⟩ : n = 1 ∧ l = swapLog := by simpa using hl
    exact ⟨rfl, rfl, transfer, rfl, rfl⟩

/-- Two scanners of inbound transactions begin side by side.  The second commits the batch, and
the commit of the first fails. -/
def inbound : World InboundNormalTransaction :=
  let answers := chain.responder Inbound.Starts
  script (S := Inbound.indexer chain.Answers)
    [.start 0 _ (.scanner 5 1 (by decide)), .start 1 _ (.scanner 4 1 (by decide)),
      .calls answers 0 9, .calls answers 1 20, .calls answers 0 20]

def swaps : World SwapTransaction :=
  script (S := Swap.indexer chain.Answers)
    [.start 0 _ (.scanner 2), .calls (chain.responder Swap.Starts) 0 30]

def transferRow : InboundNormalTransaction := ⟨11, 1, 2, 3, 0, 8, 7, 20000000000000000⟩

def swapRow : SwapTransaction := ⟨11, 1, 2, 3, 0, 8⟩

def checkpoint : Checkpoint := ⟨1, 2, 3, 6⟩

def commits (e : Event InboundNormalTransaction) : Bool :=
  match e.cause with
  | some (_, ⟨.commitBatch .., _⟩) => e.after.checkpoint ≠ e.before.checkpoint
  | _ => false

end Sample

open Sample

/-- Two scanners race for one batch, whose transfer is stored once; the swap of the same
transaction is stored by the other indexer. -/
theorem sample_stored_once :
    (Sample.inbound.shared.checkpoint = some Sample.checkpoint ∧
      Exact Sample.chain (Inbound.Selects Sample.chain) Sample.inbound.shared ∧
      Sample.transferRow ∈ Sample.inbound.shared.transactions ∧
      Inbound.Selects Sample.chain 1 Sample.transferRow) ∧
    (Sample.swaps.shared.checkpoint = some Sample.checkpoint ∧
      Exact Sample.chain (Swap.Selects Sample.chain) Sample.swaps.shared ∧
      Sample.swapRow ∈ Sample.swaps.shared.transactions) ∧
    ∃ e ∈ Sample.inbound.log, e.after ≠ e.before ∧ ∃ c blocks, e.before.checkpoint = some c ∧
      Inbound.Linked c.cursorBlockHash blocks ∧ blocks ≠ [] := by
  have hinbound : (indexer chain.Answers).Reachable inbound :=
    reachable_script _
  have hswaps : (Swap.indexer chain.Answers).Reachable swaps :=
    reachable_script _
  obtain ⟨hexact, hexactSwaps, hlinked⟩ := indexers_exactly_once
  have hcheckpoint : inbound.shared.checkpoint = some checkpoint := by decide +kernel
  have htransfer : transferRow ∈ inbound.shared.transactions.rows := by decide +kernel
  have hselects : Selects chain 1 transferRow :=
    ⟨0, transfer, 8, 7, ⟨by decide, rfl⟩, rfl, by decide, rfl, rfl, rfl, rfl⟩
  have hswap : swapRow ∈ swaps.shared.transactions.rows := by decide +kernel
  refine ⟨⟨hcheckpoint, (hexact _ _ hinbound).1, htransfer, hselects⟩,
    ⟨by decide +kernel, (hexactSwaps _ _ hswaps).1, hswap⟩, ?_⟩
  have hcommits : inbound.log.any commits := by decide +kernel
  obtain ⟨e, hlog, he⟩ := split_at_first hcommits
  unfold commits at he
  split at he
  · rename_i i expected rows next r hcause
    have hchange : e.after ≠ e.before := by
      intro heq
      simp [heq] at he
    obtain ⟨c, blocks, hc, -, hlinked, hb⟩ :=
      hlinked _ _ hinbound _ e _ i expected rows next r hlog hcause hchange
    refine ⟨e, by rw [hlog]; simp, hchange, c, blocks, hc, hlinked, ?_⟩
    rintro rfl
    obtain ⟨last, hlast, -⟩ := hb.last
    simp at hlast
  · cases he

end Athena.Indexers
