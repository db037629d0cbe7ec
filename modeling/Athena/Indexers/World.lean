import Athena.Indexers.Scanner
import Athena.Lib.Scripts
import Mathlib.Order.Bounds.Defs

/-!
# Scanners side by side

Any number of scanners of one indexer run over one database, and stop anywhere.  What the node
answers is a parameter; it changes nothing that is stored.  A transaction of the store runs as a
whole, and its answer may be lost.

With every change of the checkpoint the cursor moves forward, so the cursor that a commit expects
stands for the whole checkpoint.  For a node that answers from one chain, a commit that is
faithful to the chain keeps the stored rows exact.
-/

namespace Athena.Indexers

open Athena.Lib Pool Option

section World

variable {ρ : Type} [Record ρ]

def serves (answers : (c : Call ρ) → c.Reply → Prop) (d : Database ρ) :
    (c : Call ρ) → c.Reply → Database ρ → Prop
  | .finalizedHeader, r, d' => answers .finalizedHeader r ∧ d' = d
  | .headerByNumber number, r, d' => answers (.headerByNumber number) r ∧ d' = d
  | .blockByNumber number, r, d' => answers (.blockByNumber number) r ∧ d' = d
  | .transactionReceipt hash, r, d' => answers (.transactionReceipt hash) r ∧ d' = d
  | .filterLogs start stop topic, r, d' => answers (.filterLogs start stop topic) r ∧ d' = d
  | .getScanCheckpoint, r, d' =>
    (r = found d.checkpoint .noRows ∨ r = .error .database) ∧ d' = d
  | .initializeScanCheckpoint c, r, d' => Served (initializeScanCheckpoint d c) .database d r d'
  | .commitBatch expected rows next, r, d' =>
    Served (commitBatch d expected rows next) .database d r d'

def pool (answers : (c : Call ρ) → c.Reply → Prop) (starts : Handler ρ Unit → Prop) :
    Pool (Database ρ) (Call ρ) Call.Reply Failure where
  init := {}
  starts _ p := starts p
  serves := serves answers
  drifts _ _ := False

abbrev World (ρ : Type) [Record ρ] : Type := Pool.World (Database ρ) (Call.Reply (ρ := ρ)) Failure

abbrev Event (ρ : Type) [Record ρ] : Type := Pool.Event (Database ρ) (Call.Reply (ρ := ρ))

variable {answers : (c : Call ρ) → c.Reply → Prop} {starts : Handler ρ Unit → Prop}
  {d d' d'' : Database ρ}

/-! ## The cursor -/

def Advances (d d' : Database ρ) : Prop :=
  ∀ c, d.checkpoint = some c → ∃ c', d'.checkpoint = some c' ∧
    c'.startBlockNumber = c.startBlockNumber ∧
    (c' = c ∨ c.cursorBlockNumber < c'.cursorBlockNumber)

theorem Advances.refl (d : Database ρ) : Advances d d := fun c hc => ⟨c, hc, rfl, .inl rfl⟩

theorem Advances.trans (h : Advances d d') (h' : Advances d' d'') : Advances d d'' := by
  intro c hc
  obtain ⟨c', hc', hstart, hcursor⟩ := h c hc
  obtain ⟨c'', hc'', hstart', hcursor'⟩ := h' c' hc'
  refine ⟨c'', hc'', hstart'.trans hstart, ?_⟩
  rcases hcursor with rfl | hlt
  · exact hcursor'
  · rcases hcursor' with rfl | hlt'
    · exact .inr hlt
    · exact .inr (hlt.trans hlt')

theorem serves_cases {c : Call ρ} {r : c.Reply} (h : serves answers d c r d') :
    d' = d ∨ (∃ checkpoint, c = .initializeScanCheckpoint checkpoint ∧ d.checkpoint = none ∧
        d'.checkpoint = some checkpoint ∧ d'.transactions = d.transactions) ∨
      ∃ expected rows next, c = .commitBatch expected rows next ∧
        Committed d expected rows next d' := by
  cases c with
  | initializeScanCheckpoint checkpoint =>
    obtain rfl | ⟨row, hrow⟩ := Served.cases h
    · exact .inl rfl
    · exact .inr (.inl ⟨checkpoint, rfl, (initializeScanCheckpoint_ok hrow).2⟩)
  | commitBatch expected rows next =>
    obtain rfl | ⟨u, hu⟩ := Served.cases h
    · exact .inl rfl
    · exact .inr (.inr ⟨expected, rows, next, rfl, commitBatch_ok hu⟩)
  | _ => exact .inl h.2

theorem next_advances (h : (pool answers starts).Next d d') : Advances d d' := by
  obtain hdrift | ⟨c, r, hserves⟩ := h
  · exact hdrift.elim
  · obtain rfl | ⟨checkpoint, -, hnone, -⟩ | ⟨expected, rows, next, -, hcommit⟩ :=
      serves_cases hserves
    · exact .refl _
    · intro c hc
      simp [hnone] at hc
    · obtain ⟨current, hcurrent, rfl, hadvanced⟩ := hcommit.advanced
      intro c hc
      obtain rfl := mem_unique hcurrent hc
      exact ⟨_, hadvanced, rfl, .inr hcommit.forward⟩

theorem later_advances (h : (pool answers starts).Later d d') : Advances d d' := by
  induction h with
  | refl => exact .refl d
  | tail _ hnext ih => exact ih.trans (next_advances hnext)

variable {w : World ρ} {c : Checkpoint}

theorem stored_of_hasCheckpoint (hw : (pool answers starts).Reachable w) {i : ℕ}
    (hc : HasCheckpoint (history w.log i) c) :
    ∃ s : Database ρ, s.checkpoint = some c ∧ Advances s w.shared := by
  have hchronicle := hw.chronicle
  rcases hc with hget | ⟨c', hinit⟩
  · obtain ⟨e, he, hcause⟩ := exists_event_of_mem_history hget
    obtain ⟨hreply, hsame⟩ := (hchronicle.lawful e he).serves hcause
    have hfound : Except.ok c = found e.before.checkpoint Failure.noRows := by simpa using hreply
    refine ⟨e.after, ?_, later_advances (hchronicle.now e he)⟩
    rw [hsame]
    exact found_eq_ok.mp hfound.symm
  · obtain ⟨e, he, hcause⟩ := exists_event_of_mem_history hinit
    have hserved := (hchronicle.lawful e he).serves hcause
    refine ⟨e.after, ?_, later_advances (hchronicle.now e he)⟩
    rcases hserved with ⟨row, hrow, hr | hr⟩ | ⟨-, hr | ⟨_, _, hr⟩⟩
    · obtain rfl := Except.ok.inj hr
      obtain ⟨rfl, -, hstored, -⟩ := initializeScanCheckpoint_ok hrow
      exact hstored
    all_goals cases hr

theorem checkpoint_eq_of_cursor_eq (hw : (pool answers starts).Reachable w) {i : ℕ}
    {current : Checkpoint} (hc : HasCheckpoint (history w.log i) c)
    (hcurrent : w.shared.checkpoint = some current)
    (hcursor : current.cursorBlockNumber = c.cursorBlockNumber) : current = c := by
  obtain ⟨s, hs, hadvances⟩ := stored_of_hasCheckpoint hw hc
  obtain ⟨c', hc', -, heq | hlt⟩ := hadvances c hs
  · exact some.inj (hcurrent.symm.trans (heq ▸ hc'))
  · obtain rfl := mem_unique hcurrent hc'
    omega

theorem states_advance (hw : (pool answers starts).Reachable w) :
    w.states.Pairwise Advances :=
  (hw.states_pairwise (I := fun _ => True) (F := Advances) Advances.trans trivial
    fun hnext _ => ⟨trivial, next_advances hnext⟩).2

/-! ## One chain -/

/-- The node answers from one chain, when it answers.  The last block that it calls finalized may
be any block of the chain. -/
def Chain.Answers (chain : Chain) : (c : Call ρ) → c.Reply → Prop
  | .finalizedHeader, r => ∀ header, r = .ok (some header) →
      ∃ n ≤ chain.height, header = chain.header n
  | .headerByNumber number, r => ∀ header, r = .ok (some header) →
      number ≤ chain.height ∧ header = chain.header number
  | .blockByNumber number, r => ∀ block, r = .ok (some block) →
      number ≤ chain.height ∧ block = chain.block number
  | .transactionReceipt hash, r => ∀ receipt, r = .ok (some receipt) → receipt = chain.receipt hash
  | .filterLogs start stop topic, r => ∀ logs, r = .ok logs → ∀ l, l ∈ logs ↔
      ∃ n, start ≤ n ∧ n ≤ stop ∧ n ≤ chain.height ∧ l ∈ chain.logs n ∧ l.topics.head? = some topic
  | .getScanCheckpoint, _ => True
  | .initializeScanCheckpoint _, _ => True
  | .commitBatch .., _ => True

variable {chain : Chain}

theorem answers_of_mem_history (hw : (pool chain.Answers starts).Reachable w) {i : ℕ} {x : Entry ρ}
    (hx : x ∈ history w.log i) : chain.Answers x.1 x.2 := by
  obtain ⟨e, he, hcause⟩ := exists_event_of_mem_history hx
  have hserves := (hw.chronicle.lawful e he).serves hcause
  obtain ⟨c, r⟩ := x
  cases c with
  | getScanCheckpoint | initializeScanCheckpoint | commitBatch => trivial
  | _ => exact hserves.1

/-- The rows are those selected from the blocks from the start to the cursor, and the hash of
the cursor is that of its block.  Nothing is stored before the first checkpoint is. -/
structure Exact (chain : Chain) (selects : ℕ → ρ → Prop) (d : Database ρ) : Prop where
  empty : d.checkpoint = none → ∀ row, row ∉ d.transactions
  cursor : ∀ c, d.checkpoint = some c → c.startBlockNumber ≤ c.cursorBlockNumber + 1 ∧
    c.cursorBlockNumber ≤ chain.height ∧
    c.cursorBlockHash = (chain.block c.cursorBlockNumber).hash
  rows : ∀ c, d.checkpoint = some c → ∀ row, row ∈ d.transactions ↔
    ∃ n, c.startBlockNumber ≤ n ∧ n ≤ c.cursorBlockNumber ∧ selects n row

structure Faithful (chain : Chain) (selects : ℕ → ρ → Prop) (c : Checkpoint) (rows : List ρ)
    (next : Checkpoint) : Prop where
  le : next.cursorBlockNumber ≤ chain.height
  hash : next.cursorBlockHash = (chain.block next.cursorBlockNumber).hash
  rows : ∀ row, row ∈ rows ↔
    ∃ n, c.cursorBlockNumber < n ∧ n ≤ next.cursorBlockNumber ∧ selects n row

variable {selects : ℕ → ρ → Prop}

theorem exact_of_initialized {h : List (Entry ρ)} (hd : Exact chain selects d)
    (hanswers : ∀ x ∈ h, chain.Answers x.1 x.2) (hc : Anchored h c) (hnone : d.checkpoint = none)
    (hcheckpoint : d'.checkpoint = some c) (hrows : d'.transactions = d.transactions) :
    Exact chain selects d' := by
  obtain ⟨header, ⟨hmem, -⟩, hhash, -⟩ := hc.cursor
  obtain ⟨hle, rfl⟩ := hanswers _ hmem header rfl
  refine ⟨fun h => by simp [hcheckpoint] at h, ?_, ?_⟩
  · intro c' hc'
    obtain rfl := mem_unique hcheckpoint hc'
    exact ⟨hc.start.le, hle, hhash⟩
  · intro c' hc' row
    obtain rfl := mem_unique hcheckpoint hc'
    have hstart := hc.start
    refine iff_of_false ?_ ?_
    · rw [hrows]
      exact hd.empty hnone row
    · rintro ⟨n, hn, hn', -⟩
      omega

variable
  (hinj : ∀ {n m row row'}, selects n row → selects m row' → Record.transactionHash row =
      Record.transactionHash row' → row = row')
include hinj

theorem exact_of_committed {next : Checkpoint} {rows : List ρ} (hd : Exact chain selects d)
    (hc : d.checkpoint = some c) (hcommit : Committed d c.cursorBlockNumber rows next d')
    (hfaithful : Faithful chain selects c rows next) : Exact chain selects d' := by
  obtain ⟨current, hcurrent, -, hadvanced⟩ := hcommit.advanced
  obtain rfl := mem_unique hc hcurrent
  obtain ⟨e, hinserted, he⟩ := hcommit.inserted
  obtain ⟨hstart, -, -⟩ := hd.cursor c hc
  have hforward := hcommit.forward
  refine ⟨fun h => by simp [hadvanced] at h, ?_, ?_⟩
  · intro c' hc'
    obtain rfl := mem_unique hadvanced hc'
    exact ⟨by simp only; omega, hfaithful.le, hfaithful.hash⟩
  · intro c' hc' row
    obtain rfl := mem_unique hadvanced hc'
    rw [he]
    constructor
    · intro hrow
      rcases hinserted.source row hrow with hrow | hrow
      · obtain ⟨n, hn, hn', hselects⟩ := (hd.rows c hc row).mp hrow
        exact ⟨n, hn, by simp only; omega, hselects⟩
      · obtain ⟨n, hn, hn', hselects⟩ := (hfaithful.rows row).mp hrow
        exact ⟨n, by simp only; omega, hn', hselects⟩
    · rintro ⟨n, hn, hn', hselects⟩
      by_cases hold : n ≤ c.cursorBlockNumber
      · exact hinserted.mono row ((hd.rows c hc row).mpr ⟨n, hn, hold, hselects⟩)
      · -- a row with its hash is stored; it was selected too, so it is the same row
        have hrow := (hfaithful.rows row).mpr ⟨n, by omega, hn', hselects⟩
        obtain ⟨row', hrow', hhash⟩ := hinserted.present row hrow
        rcases hinserted.source row' hrow' with hsource | hsource
        · obtain ⟨m, -, -, hm⟩ := (hd.rows c hc row').mp hsource
          exact hinj hm hselects hhash ▸ hrow'
        · obtain ⟨m, -, -, hm⟩ := (hfaithful.rows row').mp hsource
          exact hinj hm hselects hhash ▸ hrow'

theorem exact_of_reachable {batch : List (Entry ρ) → Checkpoint → List ρ → Checkpoint → Prop}
    (hstarts : ∀ p, starts p → p.Guards (Rule batch) (fun _ _ => True) [])
    (hbatch : ∀ {h c rows next}, (∀ x ∈ h, chain.Answers x.1 x.2) → batch h c rows next →
      Faithful chain selects c rows next)
    (hw : (pool chain.Answers starts).Reachable w) : Exact chain selects w.shared := by
  refine Pool.Reachable.of_events (P := fun _ => Rule batch) (J := fun d _ => Exact chain selects d)
    (fun _ p hp => hstarts p hp) ?_ ?_ hw
  · exact ⟨fun _ row => Table.not_mem_empty row, nofun, nofun⟩
  · rintro w e hw hexact hbefore hlawful hrule
    cases hcause : e.cause with
    | none => simp only [Pool.Event.Lawful, hcause, pool] at hlawful
    | some x =>
      obtain ⟨i, c, r⟩ := x
      have hrule := hrule i ⟨c, r⟩ hcause
      have hanswers : ∀ x ∈ history w.log i, chain.Answers x.1 x.2 :=
        fun x hx => answers_of_mem_history hw hx
      have hserves := hlawful.serves hcause
      rw [hbefore] at hserves
      obtain heq | ⟨checkpoint, rfl, hnone, hstored, hrows⟩ |
          ⟨expected, rows, next, rfl, hcommit⟩ :=
        serves_cases hserves
      · exact heq ▸ hexact
      · exact exact_of_initialized hexact hanswers hrule hnone hstored hrows
      · obtain ⟨c, hc, rfl, hb⟩ := hrule
        obtain ⟨current, hcurrent, hcursor, -⟩ := hcommit.advanced
        obtain rfl := checkpoint_eq_of_cursor_eq hw hc hcurrent hcursor
        exact exact_of_committed hinj hexact hcurrent hcommit (hbatch hanswers hb)

end World
end Athena.Indexers
