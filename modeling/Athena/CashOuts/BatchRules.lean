import Athena.CashOuts.WorkerRules

/-!
# What a batch turn knows when it acts

The turns of the batch worker and the creations of the service keep the rules too.  A
batch turn moves an item behind the balance gate only after it read that the child was
completed by its own attempt, and fails an item only after it read that the child ended.
-/

namespace Athena.CashOuts

open Athena.Lib Queries Store Worker

def ChildRead (h : WorkerHistory) (ref : ItemRef) (item : Item) (r : CashOutRow) : Prop :=
  ∃ owner x c a, (⟨.item ref, .ok item⟩ : WorkerEntry) ∈ h ∧ item.child = some x ∧
    (⟨.cashOut owner x, .ok c⟩ : WorkerEntry) ∈ h ∧ (⟨.attempt c.id, .ok a⟩ : WorkerEntry) ∈ h ∧
    r = c.toCashOutRow.withAttempt a

/-- A turn that has claimed no Cash Out and dispatched nothing. -/
structure Fresh (h : WorkerHistory) : Prop where
  claims : ∀ x ∈ h, ¬Claims x
  idle : ∀ x ∈ h, ¬MayDispatch x

theorem fresh_nil : Fresh [] := ⟨by simp, by simp⟩

theorem Fresh.quiet {h h' : WorkerHistory} (hf : Fresh h) (hq : Quiet h h') : Fresh h' :=
  ⟨hq.claims hf.claims, hq.mayDispatch hf.idle⟩

section reads
variable {h h' : WorkerHistory} {ref : ItemRef} {item : Item} {r : CashOutRow}
  (hr : ChildRead h ref item r)
include hr

theorem ChildRead.ordinal (hf : Fair h) : item.ordinal = ref.ordinal := by
  obtain ⟨owner, x, c, a, hitem, -⟩ := hr
  by_contra hne
  exact hf _ hitem (.item ref item hne)

theorem ChildRead.credited (hf : Fair h) (hstate : r.state = .completed)
    (hd : wasDispatched r.attempt) : Credited h ref := by
  obtain ⟨owner, x, c, a, hitem, hchild, hc, ha, rfl⟩ := hr
  have hx : c.id = x := by
    by_contra hne
    exact hf _ hc (.cashOut owner x c hne)
  exact ⟨item, owner, x, c, a, hitem, hchild, hc, hstate, hx ▸ ha, hd⟩

theorem ChildRead.ended (hstate : r.state.terminal) : Ended h ref := by
  obtain ⟨owner, x, c, a, hitem, hchild, hc, ha, rfl⟩ := hr
  exact ⟨item, owner, x, c, hitem, hchild, hc, hstate⟩

end reads

section parts
variable {i : ℕ} {h : WorkerHistory} {b : Batch} {item : Item} {r : CashOutRow} {worker : UUID}
  {reason : String}

variable {client : Client} {ref : ItemRef} {batch : UUID}

theorem peeks_observe {target : Target} :
    Peeks i (observeMarginPositionCashOut client target) h := by
  unfold observeMarginPositionCashOut
  split
  · refine peeks_free_bind rfl fun h' reply => ?_
    cases reply <;> exact .refl h'
  · exact .refl h

theorem peeks_walletClient {w : BatchWallet} :
    Peeks i (positionCashOutBatchWalletClient w) h := by
  refine peeks_free_bind rfl fun h₁ reply => ?_
  split
  · exact .refl h₁
  · split
    · exact .refl h₁
    · split_ifs
      · exact .refl h₁
      · refine peeks_free_bind rfl fun h₂ made => ?_
        cases made <;> exact .refl h₂

theorem keeps_block {state : BatchState} (hstate : state ≠ .failed) :
    Keeps i (blockPositionCashOutBatch i b item .reconciliationRequired state reason) h :=
  keeps_commit fun _ _ _ _ => ⟨fun h => absurd h hstate, fun h => nomatch h⟩

theorem preserved_ne_failed {fallback : BatchState} (h : fallback ≠ .failed) :
    positionCashOutBatchPreservedBlockingState b.toBatchRow fallback ≠ .failed := by
  unfold positionCashOutBatchPreservedBlockingState
  split <;> simp_all

theorem keeps_blockCurrent {fallback : BatchState} (hfallback : fallback ≠ .failed) :
    Keeps i (blockCurrent i b item fallback reason) h :=
  keeps_block (preserved_ne_failed hfallback)

theorem keeps_progress {next : ItemState} {state : String} {deadline : Option Time} {poll : Time}
    (hnext : Fair h → next = .awaitingBalance → Credited h ⟨b.id, item.ordinal⟩) :
    Keeps i (recordPositionCashOutBatchItemProgress i b item next state deadline poll) h := by
  refine guards_free_bind rfl fun t => ?_
  have hh : h <+: h ++ [⟨.now, t⟩] := List.prefix_append _ _
  refine keeps_storeAt_bind (fun hf hstate => ?_) fun _ _ => trivial
  have hbalance : next = .awaitingBalance := by
    dsimp only at hstate
    split_ifs at hstate
    exact hstate
  obtain ⟨j, owner, x, c, a, hj, hchild, hc, hstate, ha, hd⟩ :=
    hnext (hf.of_prefix hh) hbalance
  exact ⟨j, owner, x, c, a, hh.subset hj, hchild, hh.subset hc, hstate, hh.subset ha, hd⟩

theorem keeps_observeBalance : Keeps i (observePositionCashOutBatchBalance i b item) h := by
  refine guards_free_bind rfl fun t => ?_
  refine keeps_attempt_bind peeks_readBalance fun h' res _ => ?_
  cases res with
  | ok =>
    exact keeps_storeAt_bind (fun _ => trivial) fun _ _ => trivial
  | error =>
    refine keeps_storeAt_bind (fun _ => trivial) fun _ _ => ?_
    split_ifs <;> trivial

theorem keeps_completedChild
    (hcredit : Fair h → wasDispatched r.attempt → Credited h ⟨b.id, item.ordinal⟩) :
    Keeps i (processCompletedChild i b item r) h := by
  unfold processCompletedChild
  split
  · exact keeps_blockCurrent (by decide)
  split_ifs with hmismatch
  · exact keeps_blockCurrent (by decide)
  · exact keeps_observeBalance
  · refine guards_free_bind rfl fun t => keeps_progress fun hf _ => ?_
    have hh : h <+: h ++ [⟨.now, t⟩] := List.prefix_append _ _
    have hd : wasDispatched r.attempt := by
      simp only [not_or, Bool.not_eq_false] at hmismatch
      exact hmismatch.2.2.1
    obtain ⟨j, owner, x, c, a, hj, hchild, hc, hstate, ha, hd⟩ := hcredit (hf.of_prefix hh) hd
    exact ⟨j, owner, x, c, a, hh.subset hj, hchild, hh.subset hc, hstate, hh.subset ha, hd⟩

theorem keeps_endedChild (hended : Fair h → Ended h ⟨b.id, item.ordinal⟩) :
    Keeps i (if wasDispatched r.attempt then
      blockPositionCashOutBatch i b item .failed .failed reason
      else blockCurrent i b item .paused reason) h := by
  split_ifs
  · refine keeps_commit fun h' _ hq hf => ⟨fun _ => rfl, fun _ => ?_⟩
    obtain ⟨j, owner, x, c, hj, hchild, hc, hstate⟩ := hended (hf.of_prefix hq.extends)
    exact ⟨j, owner, x, c, hq.extends.subset hj, hchild, hq.extends.subset hc, hstate⟩
  · exact keeps_blockCurrent (by decide)

theorem keeps_childState (hr : ChildRead h ref item r) (hid : ref.batch = b.id) :
    Keeps i (processChildState i b item r) h := by
  have href (hf : Fair h) : ref = ⟨b.id, item.ordinal⟩ := by
    rw [hr.ordinal hf, ← hid]
  have hclosing : Keeps i (recordPositionCashOutBatchItemProgress i b item
      (if item.state = .awaitingPosition then .awaitingPosition else .closing)
      (Text.trimSpace r.providerState) none positionCashOutBatchItemPollInterval) h :=
    keeps_progress fun _ h => by split_ifs at h
  unfold processChildState
  cases hstate : r.state with
  | queued | preflighting | closing => exact hclosing
  | awaitingCompletion => exact keeps_progress fun _ h => nomatch h
  | completed => exact keeps_completedChild fun hf hd => href hf ▸ hr.credited hf hstate hd
  | failed | expired => exact keeps_endedChild fun hf => href hf ▸ hr.ended (by rw [hstate]; rfl)
  | reconciliationRequired | awaitingAuthorization => exact keeps_blockCurrent (by decide)

/-! ## Reconciliation inside a batch turn -/

theorem guards_getPositionCashOut {owner x : UUID} :
    (getPositionCashOut owner x).Guards (Rule i)
      (fun h' res => Quiet h h' ∧ ∀ r, res = .ok r → ∃ c a,
        (⟨.cashOut owner x, .ok c⟩ : WorkerEntry) ∈ h' ∧
        (⟨.attempt c.id, .ok a⟩ : WorkerEntry) ∈ h' ∧ r = c.toCashOutRow.withAttempt a) h := by
  refine guards_free_bind rfl fun reply => ?_
  have hq := Quiet.ask h (.cashOut owner x) reply rfl
  cases reply with
  | error => exact ⟨hq, fun _ hr => nomatch hr⟩
  | ok c =>
    refine guards_loadPositionCashOut.conseq fun h' res _ ⟨hq', hres⟩ =>
      ⟨hq.trans hq', fun r hr => ?_⟩
    obtain ⟨a, rfl, rfl⟩ := hres r hr
    exact ⟨c, a, by simp, by simp, rfl⟩

theorem guards_reconcileChild (hfresh : Fresh h) :
    (reconcileBlockedPositionCashOutBatchChild i worker r).Guards (Rule i)
      (fun h' res => h <+: h' ∧ ∀ r', res = .ok r' → ∃ c a,
        (⟨.cashOut r.owner r.id, .ok c⟩ : WorkerEntry) ∈ h' ∧
        (⟨.attempt c.id, .ok a⟩ : WorkerEntry) ∈ h' ∧ r' = c.toCashOutRow.withAttempt a) h := by
  unfold reconcileBlockedPositionCashOutBatchChild
  split_ifs
  · exact ⟨List.prefix_refl h, fun _ hr => nomatch hr⟩
  refine guards_free_bind rfl fun t => ?_
  have hq := Quiet.ask h .now t rfl
  have hfresh₁ := hfresh.quiet hq
  refine (guards_claimPositionCashOut hfresh₁.claims hfresh₁.idle).bind ?_ fun h' e hh _ =>
    ⟨hq.extends.trans hh, fun _ hr => nomatch hr⟩
  rintro h₁ claimed hh₁ ⟨-, hclaimed⟩
  refine (keeps_processClaimed (hclaimed claimed rfl)).bind ?_ fun h' e hh _ =>
    ⟨(hq.extends.trans hh₁).trans hh, fun _ hr => nomatch hr⟩
  intro h₂ _ hh₂ _
  exact guards_getPositionCashOut.conseq fun h' res hh hres =>
    ⟨((hq.extends.trans hh₁).trans hh₂).trans hh, hres.2⟩

theorem keeps_checkChild {fallback : String} :
    Keeps i (checkBlockedPositionCashOutBatchChild r fallback) h := by
  refine keeps_bind guards_positionCashOutClient fun h₁ client _ => ?_
  cases client with
  | none => trivial
  | some =>
    refine keeps_bind guards_observePositionCashOut fun h₂ observed _ => ?_
    refine guards_free_bind rfl fun alive => ?_
    cases alive with
    | false => trivial
    | true =>
      cases observed with
      | error e => exact keeps_bind peeks_markReconnect fun _ _ _ => trivial
      | ok o => trivial

theorem keeps_reconcileBlocked (hfresh : Fresh h) (hb : b.state ≠ .failed)
    (hr : ChildRead h ref item r) (hid : ref.batch = b.id)
    (hmatch : positionCashOutBatchChildMatches b.toBatchRow item.toItemRow r) :
    Keeps i (reconcileBlockedItem i worker b item r) h := by
  refine keeps_attempt_bind (guards_reconcileChild hfresh) ?_
  rintro h₁ res ⟨hh, hres⟩
  cases res with
  | error => exact keeps_bind (keeps_commit fun _ _ _ _ => trivial) fun _ _ _ => trivial
  | ok r' =>
    dsimp only
    split_ifs
    · exact keeps_blockCurrent (by decide)
    · obtain ⟨c, a, hc, ha, rfl⟩ := hres r' rfl
      obtain ⟨-, x, -, -, hitem, hchild, -⟩ := hr
      simp only [positionCashOutBatchChildMatches, check_iff] at hmatch
      have hread := hh.subset hitem
      exact keeps_childState ⟨r.owner, r.id, c, a, hread, hmatch.1.1.1.symm, hc, ha, rfl⟩ hid
    · exact keeps_blockCurrent hb

theorem keeps_processChild (hfresh : Fresh h) (hb : b.state ≠ .failed) (hr : ChildRead h ref item r)
    (hid : ref.batch = b.id) : Keeps i (processChild i worker b item r) h := by
  unfold processChild
  split_ifs with hmatch
  · exact keeps_blockCurrent (by decide)
  · exact keeps_commit fun _ _ _ _ => trivial
  · unfold processUnreconciled
    dsimp only
    split_ifs
    · exact keeps_reconcileBlocked hfresh hb hr hid (by simpa using hmatch)
    · exact keeps_bind keeps_checkChild fun _ _ _ => keeps_blockCurrent hb
    · exact keeps_blockCurrent hb
  · exact keeps_childState hr hid

/-! ## A batch turn -/

theorem keeps_checkBlockedItem (hb : b.state ≠ .failed) :
    Keeps i (checkBlockedItem i b item client) h := by
  refine keeps_bind peeks_observe fun h₁ observed _ => ?_
  refine guards_free_bind rfl fun alive => ?_
  cases alive with
  | false => trivial
  | true =>
    cases observed with
    | error e => exact keeps_bind peeks_markReconnect fun _ _ _ => keeps_block hb
    | ok o => exact keeps_block hb

theorem keeps_blockedItem (hb : b.state ≠ .failed) :
    Keeps i (processBlockedPositionCashOutBatchItem i b item) h := by
  unfold processBlockedPositionCashOutBatchItem
  split_ifs
  · exact keeps_commit fun _ _ _ _ => trivial
  · trivial
  split
  · exact keeps_block hb
  refine keeps_attempt_bind peeks_walletClient fun h₁ res _ => ?_
  split
  · exact keeps_checkBlockedItem hb
  · exact keeps_block hb
  · trivial

theorem keeps_processItem (hfresh : Fresh h) (hb : b.state ≠ .failed)
    (hitem : (⟨.item ref, .ok item⟩ : WorkerEntry) ∈ h) (hid : ref.batch = b.id) :
    Keeps i (processPositionCashOutBatchItem i worker b item) h := by
  unfold processPositionCashOutBatchItem
  split
  · exact keeps_blockedItem hb
  · rename_i child hchild
    refine keeps_attempt_bind guards_getPositionCashOut ?_
    rintro h₁ res ⟨hq, hres⟩
    cases res with
    | error => exact keeps_blockCurrent (by decide)
    | ok r =>
      obtain ⟨c, a, hc, ha, hr⟩ := hres r rfl
      exact keeps_processChild (hfresh.quiet hq) hb
        ⟨b.owner, child, c, a, hq.extends.subset hitem, hchild, hc, ha, hr⟩ hid

theorem peeks_loadItem {ordinal : ℕ} :
    Peeks i (loadPositionCashOutBatchItemByOrdinal b ordinal) h := by
  unfold loadPositionCashOutBatchItemByOrdinal
  split_ifs
  · exact .refl h
  refine peeks_free_bind rfl fun h' reply => ?_
  split
  · exact .refl h'
  · split_ifs
    · exact .refl h'
    · split <;> exact .refl h'

theorem keeps_activateWith : Keeps i (activateWith i b item client) h := by
  refine keeps_bind peeks_observe fun h₁ observed _ => ?_
  cases observed with
  | error =>
    refine guards_free_bind rfl fun alive => ?_
    cases alive with
    | false => trivial
    | true =>
      rw [if_pos rfl]
      split
      · exact keeps_commit fun _ _ _ _ => trivial
      · exact keeps_bind peeks_markReconnect fun _ _ _ => keeps_block (by decide)
  | ok =>
    dsimp only
    split
    · exact keeps_block (by decide)
    split
    · exact keeps_block (by decide)
    refine guards_free_bind rfl fun t => guards_free_bind rfl fun id => ?_
    exact keeps_storeAt_bind (fun _ => trivial) fun _ _ => trivial

theorem keeps_activateNext : Keeps i (activateNextPositionCashOutBatchItem i b) h := by
  refine keeps_bind peeks_loadItem fun h₁ item _ => ?_
  split_ifs
  · trivial
  split
  · exact keeps_block (by decide)
  split_ifs
  · exact keeps_block (by decide)
  refine keeps_attempt_bind peeks_walletClient fun h₂ res _ => ?_
  split
  · exact keeps_activateWith
  · exact keeps_block (by decide)
  · trivial

theorem keeps_renewBatch : Keeps i (renewPositionCashOutBatchClaim i worker batch) h := by
  refine guards_free_bind rfl fun t => ?_
  exact keeps_storeAt_bind (fun _ => trivial) fun _ _ => trivial

theorem keeps_scanPages {w : BatchWallet} {pages : ℕ} {cursor : String} {seen : List String}
    {acc : List ItemInput} :
    Keeps i (scanPages i worker batch client w pages cursor seen acc) h := by
  induction pages generalizing h cursor seen acc with
  | zero => trivial
  | succ _ ih =>
    refine keeps_bind keeps_renewBatch fun h₁ _ _ => ?_
    refine guards_free_bind rfl fun reply => ?_
    split
    · exact keeps_bind peeks_markReconnect fun _ _ _ => trivial
    · trivial
    split
    · trivial
    split
    · trivial
    split
    · trivial
    · trivial
    split
    · trivial
    · exact ih

theorem keeps_buildWallets {place : ℕ} {wallets : List BatchWallet} {items : List ItemInput} :
    Keeps i (buildWallets i worker batch place wallets items) h := by
  induction wallets generalizing h place items with
  | nil => trivial
  | cons w _ ih =>
    unfold buildWallets
    split_ifs
    · trivial
    refine keeps_bind keeps_renewBatch fun h₁ _ _ => ?_
    refine keeps_bind peeks_walletClient fun h₂ client _ => ?_
    have hscan : Keeps i (unlessCancelled
        (scanPositionCashOutBatchWallet i worker batch client w)) h₂ := by
      refine keeps_attempt_bind (Q := fun _ _ => True)
        (Program.guards_map.mpr keeps_scanPages) fun h₃ res _ => ?_
      cases res with
      | ok a => trivial
      | error e =>
        refine guards_free_bind rfl fun alive => ?_
        cases alive <;> trivial
    refine keeps_bind hscan fun h₃ positions _ => ?_
    split_ifs
    · trivial
    · trivial
    · exact ih

theorem keeps_build : Keeps i (buildClaimedPositionCashOutBatch i worker b) h := by
  unfold buildClaimedPositionCashOutBatch
  split_ifs
  · exact keeps_commit fun _ _ _ _ => trivial
  refine keeps_attempt_bind keeps_buildWallets fun h₁ res _ => ?_
  split
  · refine guards_free_bind rfl fun t => ?_
    exact keeps_storeAt_bind (fun _ => trivial) fun _ _ => trivial
  · exact keeps_commit fun _ _ _ _ => trivial
  · trivial

theorem keeps_processClaimedBatch {current : Option Item} (hfresh : Fresh h)
    (hcurrent : ∀ item, current = some item → ∃ ref, (⟨.item ref, .ok item⟩ : WorkerEntry) ∈ h ∧
      ref.batch = b.id) :
    Keeps i (processClaimedPositionCashOutBatch i worker b current) h := by
  have hitem {item : Item} (hc : current = some item) (hb : b.state ≠ .failed) :
      Keeps i (processPositionCashOutBatchItem i worker b item) h := by
    obtain ⟨ref, href, hid⟩ := hcurrent item hc
    exact keeps_processItem hfresh hb href hid
  have hidle (state : BatchState) :
      Keeps i (if state ≠ .running ∨ b.completedCount = b.positionCount then
      completePositionCashOutBatchBoundary i b
      else activateNextPositionCashOutBatchItem i b) h := by
    split_ifs
    · exact keeps_commit fun _ _ _ _ => trivial
    · exact keeps_activateNext
  unfold processClaimedPositionCashOutBatch
  cases current with
  | none =>
    cases b.state with
    | building => exact keeps_build
    | running | pauseRequested | terminateRequested => exact hidle _
    | _ => trivial
  | some =>
    cases hstate : b.state with
    | building => exact keeps_build
    | running | pauseRequested | terminateRequested | paused | reconciliationRequired =>
      exact hitem rfl (by simp [hstate])
    | _ => trivial

theorem keeps_batchTurn : Keeps i (batchTurn i worker batch) [] := by
  refine guards_free_bind rfl fun lease => guards_free_bind rfl fun t => ?_
  have hq := (Quiet.ask [] .now lease rfl).snoc (x := ⟨.now, t⟩) rfl
  have hfresh := fresh_nil.quiet hq
  refine keeps_bind (Q := fun h' res => ∀ b, res = .ok b → Fresh h')
    (guards_storeAt (fun _ => trivial) (fun b _ _ => ?_) fun _ _ hr => nomatch hr) ?_
  · refine ⟨List.forall_mem_append.mpr ⟨hfresh.claims, List.forall_mem_singleton.mpr ?_⟩,
      not_mayDispatch_snoc _ _ hfresh.idle rfl⟩
    rintro ⟨_, _, _, heq⟩
    cases heq
  · intro h₁ b hb
    have hfresh₁ := hb b rfl
    have hload : (loadPositionCashOutBatch b).Guards (Rule i) (fun h' res => Quiet h₁ h' ∧
        ∀ item, res = .ok (some item) → ∃ ref, (⟨.item ref, .ok item⟩ : WorkerEntry) ∈ h' ∧
          ref.batch = b.id) h₁ := by
      unfold loadPositionCashOutBatch
      split
      · exact ⟨.refl h₁, fun _ hr => nomatch hr⟩
      · rename_i ordinal _
        refine guards_free_bind rfl fun reply => ?_
        have hq := Quiet.ask h₁ (.item ⟨b.id, ordinal⟩) reply rfl
        cases reply with
        | error => exact ⟨hq, fun _ hr => nomatch hr⟩
        | ok =>
          refine ⟨hq, fun item' hitem => ⟨⟨b.id, ordinal⟩, ?_, rfl⟩⟩
          rw [← Option.some.inj (Except.ok.inj hitem)]
          simp
    refine keeps_bind hload ?_
    rintro h₂ current ⟨hq₂, hcurrent⟩
    exact keeps_processClaimedBatch (hfresh₁.quiet hq₂) fun item hc => hcurrent item (by rw [hc])

end parts

/-! ## Creation -/

theorem keeps_createTurn {i : ℕ} {owner command : UUID} {walletId : ℕ} {address pubkey : String} :
    Keeps i (createTurn owner command walletId address pubkey) [] := by
  have hread : (readPositionCashOutTarget walletId address pubkey).Guards (Rule i)
      (fun h' res => ∀ target version, res = .ok (target, version) → ∃ client p,
        (⟨.position client pubkey, .ok p⟩ : WorkerEntry) ∈ h' ∧ client.walletId = walletId ∧
        inspectMarginPositionCashOutTarget p = .ok target ∧ target.positionPubkey = pubkey) [] := by
    refine guards_free_bind rfl fun reply => ?_
    split
    · exact fun _ _ hr => nomatch hr
    split
    · exact fun _ _ hr => nomatch hr
    rename_i s k _
    refine guards_free_bind rfl fun made => ?_
    cases made with
    | false => exact fun _ _ hr => nomatch hr
    | true =>
      refine guards_free_bind rfl fun reply' => ?_
      cases reply' with
      | error e =>
        exact peeks_markReconnect.bind (fun _ _ _ _ _ _ hr => nomatch hr)
          fun _ _ _ _ _ _ hr => nomatch hr
      | ok p =>
        dsimp only
        split
        · rename_i target htarget
          split_ifs with hpubkey
          · intro target' version hr
            obtain ⟨rfl, rfl⟩ := pure_pair.mp hr
            exact ⟨⟨walletId, k.id⟩, p, by simp, rfl, htarget, hpubkey.1⟩
          · exact fun _ _ hr => nomatch hr
        · exact fun _ _ hr => nomatch hr
  refine keeps_bind hread ?_
  rintro h₁ ⟨target, version⟩ hres
  obtain ⟨client, p, hx, hclient, hp, hpubkey⟩ := hres target version rfl
  refine guards_free_bind rfl fun t => guards_free_bind rfl fun id => ?_
  refine keeps_storeAt_bind (fun _ => ?_) fun _ _ => trivial
  refine ⟨client, p, target, ?_, hclient, hp, rfl, rfl, rfl, rfl⟩
  rw [show (target.freeze walletId address version).positionPubkey = pubkey from hpubkey]
  simp [hx]

end Athena.CashOuts
