import Athena.CashOuts.Changes

/-!
# Every batch transaction is a change

The transactions on batches, and `Store.exec_change`: every transaction that succeeds
changes the tables in one of the ways that `Tables.Change` lists.
-/

namespace Athena.CashOuts

open Athena.Lib Table Queries Store Option Batch BatchState

variable {adm : Admission} {op : Operation} {now : Time} {t t' : Tables} {b b' : Batch} {k : ℕ}

theorem BatchRow.Retakable.of_released {b : BatchRow} (h : b.claim = none) (t : Time) :
    b.Retakable t := by
  intro hsome
  rw [h] at hsome
  cases hsome

theorem Batch.open_of_heldBy (h : heldBy b.claim k) : b.state.terminal = false := by
  cases hstate : b.state.terminal with
  | false => rfl
  | true => rw [b.checked.released hstate] at h; cases h

theorem BatchState.terminal_of_terminable {s : BatchState} (h : terminable s) :
    s.terminal = false := by
  cases s <;> first | rfl | cases h

namespace Store

open Tables

theorem onBatch_ok {id : UUID} {e : StoreError} {f : Batch → Except StoreError BatchRow}
    (h : onBatch t id e f = .ok (t', b')) :
    ∃ b row, t.batch id = some b ∧ f b = .ok row ∧ b'.toBatchRow = row ∧ t' = t.putBatch b' := by
  simp only [onBatch, committed, write_eq_ok] at h
  obtain ⟨b, hb, row, hf, b₁, hrow, ht, rfl⟩ := h
  exact ⟨b, row, hb, hf, hrow, ht.symm⟩

/-! ## Build -/

theorem completePositionCashOutBatchBuild_change {req : BuildRequest}
    (h : completePositionCashOutBatchBuild req t now = .ok (t', b')) :
    Change adm (.build req) now t t' := by
  obtain ⟨-, h⟩ := of_ensure h
  obtain ⟨b, row, hb, hf, hrow, rfl⟩ := onBatch_ok h
  simp only [committed] at hf
  obtain ⟨⟨hstate, hheld⟩, inputs, hinputs, items, hitems, rfl⟩ := hf
  refine .ofBatch hb (by rw [hrow]; rfl) (.holds req.claim hheld) ?_ rfl rfl
  exact .built req inputs items rfl hstate hinputs (ofList?_eq_some.mp hitems) hrow

variable {batch : UUID} {kind : BatchCommandKind} {row : BatchRow} {ref : ItemRef} {i : Item}

theorem failPositionCashOutBatchBuild_change {reason stage : String}
    (h : failPositionCashOutBatchBuild batch k reason stage t now = .ok (t', b')) :
    Change adm (.failBuild batch k reason stage) now t t' := by
  simp only [failPositionCashOutBatchBuild, committed] at h
  obtain ⟨r, -, -, h⟩ := h
  obtain ⟨b, row, hb, hf, hrow, rfl⟩ := onBatch_ok h
  simp only [committed] at hf
  obtain ⟨⟨hstate, hheld⟩, rfl⟩ := hf
  have hends : b.Ends b'.toBatchRow := by
    rw [hrow]
    exact ⟨rfl, rfl, rfl, rfl, rfl, rfl, rfl, by rw [hstate]; rfl, rfl⟩
  refine .ofBatch hb hends.id (.holds k hheld)
    (.dropped hends (.inl hstate) (.inl ⟨?_, hstate⟩) ?_ ?_) rfl rfl
  all_goals rw [hrow]; rfl

/-! ## Commands of the user -/

theorem authorizePositionCashOutBatch_change {req : BatchAuthorizeRequest}
    (h : authorizePositionCashOutBatch req t now = .ok (t', b')) :
    Change adm (.authorizeBatch req) now t t' := by
  simp only [authorizePositionCashOutBatch, committed] at h
  obtain ⟨-, b, hb, h⟩ := h
  split at h
  · simp only [committed] at h
    obtain ⟨-, rfl, -⟩ := h
    exact .same rfl rfl
  · simp only [committed, write_eq_ok] at h
    obtain ⟨-, ⟨-, hstate⟩, -, -, b₁, hrow, rfl, -⟩ := h
    have hsteers : b.Steers (.authorizeBatch req) now b₁.toBatchRow := by
      rw [hrow]
      refine ⟨⟨rfl, rfl, rfl, rfl, rfl, rfl, rfl, rfl, rfl⟩, ?_, ?_, ?_,
        by simp [BatchAuthorizeRequest.row, queuedBatch], fun u _ h hsome => ?_⟩
      -- nobody holds a batch that awaits its authorization
      on_goal 4 => specialize h hsome
      all_goals
        obtain hstate | hstate := hstate <;>
          simp_all [BatchAuthorizeRequest.row, queuedBatch, terminal, claimableBatch]
    exact .ofBatch hb hsteers.course.id (.commands (batch_eq_some.mp hb).2.symm)
      (.steered hsteers (by rw [hrow]; rfl)) rfl rfl

theorem controlRow_open (now : Time) {k : Control} (hnext : k.next.terminal = false)
    (hkind : kind = .terminate → b.currentItem ≠ none) :
    controlRow b.toBatchRow kind k now = controlledBatch b.toBatchRow k now := by
  have hmarks : marksRemaining b.toBatchRow kind = false := by
    unfold marksRemaining
    by_cases h : kind = .terminate
    · simpa [h, isSome_iff_ne_none] using hkind h
    · simp [h]
  simp [controlRow, markedCount, hmarks, hnext]

theorem controlRow_steers (op : Operation) (now : Time) {k : Control} (hclaim : b.claim = none)
    (hopen : b.state.terminal = false) (hnext : k.next.terminal = false)
    (hbuilding : k.next = .building ↔ b.state = .building)
    (hkind : kind = .terminate → b.currentItem ≠ none) :
    b.Steers op now (controlRow b.toBatchRow kind k now) ∧
      (controlRow b.toBatchRow kind k now).items = b.items := by
  rw [controlRow_open now hnext hkind]
  exact ⟨⟨⟨rfl, rfl, rfl, rfl, rfl, rfl, rfl, rfl, rfl⟩, hopen, hnext, hbuilding, id,
    fun u _ _ => .of_released (b := controlledBatch b.toBatchRow k now) hclaim u⟩, rfl⟩

theorem controlRow_ends (now : Time) (kind : BatchCommandKind) {k : Control}
    (hopen : b.state.terminal = false) (hnext : k.next = .cancelled ∨ k.next = .terminated) :
    b.Ends (controlRow b.toBatchRow kind k now) := by
  have hterminal : k.next.terminal := by obtain h | h := hnext <;> rw [h] <;> rfl
  simp only [controlRow, hterminal, if_true]
  cases markedCount b.toBatchRow kind with
  | zero => exact ⟨rfl, rfl, rfl, rfl, rfl, rfl, rfl, hopen, hterminal⟩
  | succ => exact ⟨rfl, rfl, rfl, rfl, rfl, rfl, rfl, hopen, rfl⟩

theorem controlRow_terminated (now : Time) (k : Control) (hnext : k.next = .terminated)
    (hcurrent : b.currentItem = none) :
    (controlRow b.toBatchRow .terminate k now).state = .terminated ∧
      ((controlRow b.toBatchRow .terminate k now).notExecutedCount = pendingCount b.items ∨
        pendingCount b.items = 0 ∧
          (controlRow b.toBatchRow .terminate k now).notExecutedCount = b.notExecutedCount) ∧
      (controlRow b.toBatchRow .terminate k now).items =
        markRemaining b.items batchTerminated now := by
  have hmarks : marksRemaining b.toBatchRow .terminate := by simp [marksRemaining, hcurrent]
  simp only [controlRow, markedCount, hmarks, hnext, if_true, terminal]
  split
  · exact ⟨rfl, .inl rfl, rfl⟩
  · rename_i hcount
    exact ⟨hnext, .inr ⟨not_not.mp hcount, rfl⟩, rfl⟩

theorem controlRow_cancelled (b : Batch) (now : Time) (k : Control) (hnext : k.next = .cancelled) :
    (controlRow b.toBatchRow .cancel k now).state = .cancelled ∧
      (controlRow b.toBatchRow .cancel k now).notExecutedCount = b.notExecutedCount ∧
      (controlRow b.toBatchRow .cancel k now).items = b.items := by
  simp [controlRow, markedCount, marksRemaining, hnext, terminal, releasedBatch,
    controlledBatch]

theorem controlRow_move (op : Operation) {k : Control}
    (h : positionCashOutBatchControlTransition b.toBatchRow kind now = .ok k)
    (hclaim : b.claim = none) (hrow : b'.toBatchRow = controlRow b.toBatchRow kind k now) :
    b'.id = b.id ∧ b.Move op now b' := by
  have steer (hopen : b.state.terminal = false) (hnext : k.next.terminal = false)
      (hbuilding : k.next = .building ↔ b.state = .building)
      (hkind : kind = .terminate → b.currentItem ≠ none) : b'.id = b.id ∧ b.Move op now b' := by
    obtain ⟨hsteers, hitems⟩ := controlRow_steers op now hclaim hopen hnext hbuilding hkind
    rw [← hrow] at hsteers hitems
    exact ⟨hsteers.course.id, .steered hsteers hitems⟩
  cases kind <;> simp only [positionCashOutBatchControlTransition, committed, reduceCtorEq] at h
  case cancel =>
    obtain ⟨hstate, rfl⟩ := h
    have hopen : b.state.terminal = false := by obtain h | h := hstate <;> rw [h] <;> rfl
    have hends := controlRow_ends now .cancel hopen
      (.inl (rfl : (⟨.cancelled, "", none, none⟩ : Control).next = _))
    obtain ⟨hstate', hcount, hitems⟩ := controlRow_cancelled b now ⟨.cancelled, "", none, none⟩ rfl
    rw [← hrow] at hends hstate' hcount hitems
    exact ⟨hends.id, .dropped hends hstate (.inr (.inl hstate')) hcount hitems⟩
  case pause =>
    obtain ⟨hstate, rfl⟩ := h
    refine steer ?_ ?_ ?_ (by simp)
    · obtain h | h := hstate <;> rw [h] <;> rfl
    · split <;> rfl
    · obtain h | h := hstate <;> split <;> simp [h]
  case continue_ =>
    obtain ⟨⟨hstate, -⟩, rfl⟩ := h
    exact steer (by rw [hstate]; rfl) rfl (by simp [hstate]) (by simp)
  case terminate =>
    obtain ⟨hstate, hk⟩ := h
    have hopen : b.state.terminal = false := terminal_of_terminable hstate
    cases hcurrent : b.currentItem with
    | some =>
      simp only [hcurrent, isSome_some, if_true] at hk
      subst hk
      refine steer hopen rfl ?_ fun _ => by simp [hcurrent]
      constructor
      · intro h; cases h
      · intro h; rw [h] at hstate; cases hstate
    | none =>
      simp only [hcurrent, isSome_none, Bool.false_eq_true, if_false] at hk
      have hnext : k.next = .terminated := by rw [← hk]
      have hends := controlRow_ends now .terminate hopen (.inr hnext)
      obtain ⟨hstate', hcount, hitems⟩ := controlRow_terminated now k hnext hcurrent
      rw [← hrow] at hends hstate' hcount hitems
      exact ⟨hends.id, .terminated hends hstate hcurrent hstate' hcount hitems⟩
  case checkStatus =>
    obtain ⟨⟨hstate, -⟩, rfl⟩ := h
    have hopen : b.state.terminal = false := by obtain h | h | h := hstate <;> rw [h] <;> rfl
    exact steer hopen hopen Iff.rfl (by simp)

theorem controlPositionCashOutBatch_change {req : ControlRequest}
    (h : controlPositionCashOutBatch req t now = .ok (t', b')) :
    Change adm (.control req) now t t' := by
  simp only [controlPositionCashOutBatch, committed] at h
  obtain ⟨-, b, hb, h⟩ := h
  split at h
  · simp only [committed] at h
    obtain ⟨-, rfl, -⟩ := h
    exact .same rfl rfl
  · simp only [committed, write_eq_ok] at h
    obtain ⟨-, ⟨-, hclaim⟩, k, hk, b₁, hrow, rfl, -⟩ := h
    obtain ⟨hid, hmove⟩ := controlRow_move (.control req) hk hclaim hrow
    exact .ofBatch hb hid (.commands (batch_eq_some.mp hb).2.symm) hmove rfl rfl

/-! ## Claims -/

theorem steered_of_same_state (hcourse : b.SameCourse row) (hopen : b.state.terminal = false)
    (hstate : row.state = b.state) (hauthorized : row.authorizedAt = b.authorizedAt)
    (hretakable : ∀ u, op.DueBy now u → b.Retakable u → row.Retakable u) : b.Steers op now row where
  course := hcourse
  before := hopen
  after := hstate ▸ hopen
  building := by rw [hstate]
  authorizedAt h := hauthorized ▸ h
  retakable := hretakable

theorem claimedBatch_ready {b : BatchRow} {k : Claim} {u : Time} (h : claimableBatch b now)
    (hu : now ≤ u) : claimableBatch { claimedBatch b k now with claim := none } u := by
  simp only [claimableBatch, claimedBatch, check_iff] at h ⊢
  obtain ⟨⟨hstate, hpoll⟩, -⟩ := h
  refine ⟨⟨?_, hpoll.imp_left fun hp => ?_⟩, rfl⟩
  · cases hs : b.state <;> simp_all
  · simp only [all_eq_true, decide_eq_true_eq] at hp ⊢
    exact fun p hp' => (hp p hp').trans hu

theorem claimPositionCashOutBatch_change {k : Claim}
    (h : claimPositionCashOutBatch batch k t now = .ok (t', b')) :
    Change adm (.claimBatch batch k) now t t' := by
  obtain ⟨-, h⟩ := of_ensure h
  obtain ⟨b, row, hb, hf, hrow, rfl⟩ := onBatch_ok h
  simp only [committed] at hf
  obtain ⟨hclaimable, rfl⟩ := hf
  have hsteers : b.Steers (.claimBatch batch k) now b'.toBatchRow := by
    rw [hrow]
    have hopen : b.state.terminal = false := by
      simp only [claimableBatch, Bool.and_eq_true] at hclaimable
      obtain ⟨⟨hstate, -⟩, -⟩ := hclaimable
      cases hs : b.state <;> first | rfl | (rw [hs] at hstate; cases hstate)
    refine ⟨⟨rfl, rfl, rfl, rfl, rfl, rfl, rfl, rfl, rfl⟩, hopen, ?_, ?_, id,
      fun u hu _ _ => claimedBatch_ready hclaimable hu⟩
    all_goals by_cases hqueued : b.state = .queued <;> simp [claimedBatch, hqueued]
    · rfl
    · exact hopen
  exact .ofBatch hb hsteers.course.id (.claims k (by rw [(batch_eq_some.mp hb).2]) hclaimable)
    (.steered hsteers (by rw [hrow]; rfl)) rfl rfl

theorem change_of_same_state (hb : t.batch batch = some b) (hcourse : b.SameCourse b'.toBatchRow)
    (hheld : heldBy b.claim k) (hstate : b'.state = b.state)
    (hauthorized : b'.authorizedAt = b.authorizedAt) (hitems : b'.items = b.items)
    (hretakable : ∀ u, b.Retakable u → b'.Retakable u) : Change adm op now t (t.putBatch b') :=
  .ofBatch hb hcourse.id (.holds k hheld)
    (.steered (steered_of_same_state hcourse (open_of_heldBy hheld) hstate hauthorized
      fun u _ => hretakable u) hitems) rfl rfl

theorem renewPositionCashOutBatchClaim_change {k : Claim}
    (h : renewPositionCashOutBatchClaim batch k t now = .ok (t', b')) :
    Change adm (.renewBatch batch k) now t t' := by
  obtain ⟨-, h⟩ := of_ensure h
  obtain ⟨b, row, hb, hf, hrow, rfl⟩ := onBatch_ok h
  simp only [committed] at hf
  obtain ⟨⟨hlease, -, -⟩, rfl⟩ := hf
  refine change_of_same_state hb (by rw [hrow]; constructor <;> rfl) (heldBy_of_leasedTo hlease)
    (by rw [hrow]) (by rw [hrow]) (by rw [hrow]) fun u h _ => ?_
  rw [hrow]
  exact h (isSome_of_any hlease)

theorem deferPositionCashOutBatchPreflight_change
    (h : deferPositionCashOutBatchPreflight ref k t now = .ok (t', b')) :
    Change adm (.deferPreflight ref k) now t t' := by
  obtain ⟨b, row, hb, hf, hrow, rfl⟩ := onBatch_ok h
  simp only [committed] at hf
  obtain ⟨i, -, ⟨-, hheld, -⟩, rfl⟩ := hf
  exact change_of_same_state hb (by rw [hrow]; constructor <;> rfl) hheld
    (by rw [hrow]; rfl) (by rw [hrow]; rfl) (by rw [hrow]; rfl)
    fun u _ => .of_released (by rw [hrow]; rfl) u

theorem deferPositionCashOutBatchCheck_change
    (h : deferPositionCashOutBatchCheck batch k t now = .ok (t', b')) :
    Change adm (.deferCheck batch k) now t t' := by
  obtain ⟨b, row, hb, hf, hrow, rfl⟩ := onBatch_ok h
  simp only [committed] at hf
  obtain ⟨i, -, ⟨-, hheld, -⟩, rfl⟩ := hf
  exact change_of_same_state hb (by rw [hrow]; constructor <;> rfl) hheld
    (by rw [hrow]; rfl) (by rw [hrow]; rfl) (by rw [hrow]; rfl)
    fun u _ => .of_released (by rw [hrow]; rfl) u

/-! ## The current item -/

theorem activatePositionCashOutBatchItem_change {req : ActivateRequest}
    (h : activatePositionCashOutBatchItem req adm.connections t now = .ok (t', b')) :
    Change adm (.activate req) now t t' := by
  simp only [activatePositionCashOutBatchItem, committed, CashOut.write_eq_ok, Item.write_eq_ok,
    write_eq_ok] at h
  obtain ⟨-, b, hb, ⟨-, hcurrent, hstate⟩, i, hi, ⟨hpending, hnext⟩, version, -, -, c, hrow'', t₁,
    hinsert, hchild, i', hrow', b₁, hrow, rfl, -⟩ := h
  obtain ⟨hcashOuts, hbatches⟩ := insertCashOut_ok hinsert
  obtain ⟨hmem, hid⟩ := batch_eq_some.mp hb
  have hordinal : i'.ordinal = i.ordinal := by rw [hrow']; rfl
  rw [hordinal] at hrow
  refine .activated req b b₁ i i' c rfl hmem hid ?_ hrow'' hcashOuts ?_
  · exact ⟨mem_of_get? hi, (get?_eq_some.mp hi).2, hstate, hcurrent, hnext, hpending,
      hchild, hrow', hrow⟩
  · rw [← hbatches]; rfl

theorem dispatchPositionCashOutBatchAttempt_change {req : BatchDispatchRequest} {a : Attempt}
    (h : dispatchPositionCashOutBatchAttempt req t now = .ok (t', a)) :
    Change adm (.dispatchBatch req) now t t' := by
  simp only [dispatchPositionCashOutBatchAttempt, committed, Item.write_eq_ok, write_eq_ok,
    Prod.exists] at h
  obtain ⟨hvalid, b, hb, ⟨hstate, -⟩, i, hi, ⟨hchild, hcurrent⟩, c, hc, c', a', hdispatch,
    ⟨hitem, hbaseline⟩, i', hrow', b₁, hrow, rfl, -⟩ := h
  obtain ⟨hmem, hid⟩ := batch_eq_some.mp hb
  obtain ⟨hcmem, hcid⟩ := cashOut_eq_some.mp hc
  obtain ⟨hmove, hundispatched, hdispatched⟩ :=
    dispatchAttempt_ok hdispatch (.inr ⟨req, rfl, hcid.symm, rfl, rfl⟩)
  have hopen : b.state.terminal = false := by obtain h | h := hstate <;> rw [h] <;> rfl
  refine .dispatched req b b₁ i i' c c' rfl hmem hid ?_ hcmem hcid hmove hundispatched hdispatched
    rfl rfl
  refine ⟨?_, mem_of_get? hi, (get?_eq_some.mp hi).2, hstate, hcurrent, hchild, hitem,
    hbaseline, hvalid, hrow', by rw [hrow]; rfl⟩
  refine steered_of_same_state (by rw [hrow]; constructor <;> rfl) hopen (by rw [hrow]; rfl)
    (by rw [hrow]; rfl) fun u hu _ _ => ?_
  rw [hrow]
  obtain h | h := hstate <;> simp_all [claimableBatch, touchedBatch, claimable, Operation.DueBy]

theorem currentItem_ok (h : currentItem b ref k = .ok i) :
    i ∈ b.items ∧ i.ordinal = ref.ordinal ∧ heldBy b.claim k ∧
      b.currentItem = some i.ordinal := by
  simp only [currentItem, committed] at h
  obtain ⟨i₀, hi, ⟨hheld, hcurrent⟩, rfl⟩ := h
  obtain ⟨hmem, hordinal⟩ := get?_eq_some.mp hi
  exact ⟨hmem, hordinal, hheld, hcurrent⟩

theorem recordPositionCashOutBatchItemState_change {req : ItemStateRequest}
    (h : recordPositionCashOutBatchItemState req t now = .ok (t', b')) :
    Change adm (.recordItem req) now t t' := by
  obtain ⟨hvalid, h⟩ := of_ensure h
  obtain ⟨b, row, hb, hf, hrow, rfl⟩ := onBatch_ok h
  simp only [committed, Item.write_eq_ok] at hf
  obtain ⟨i, hi, hstate, i', hrow', hf⟩ := hf
  obtain ⟨hmem, hordinal, hheld, hcurrent⟩ := currentItem_ok hi
  have hopen := open_of_heldBy hheld
  have hid : b.id = req.item.batch := (batch_eq_some.mp hb).2
  have done (hsteers : b.Steers (.recordItem req) now b'.toBatchRow)
      (hitems : b'.items = b.items.put i') : Change adm (.recordItem req) now t (t.putBatch b') :=
    .ofBatch hb hsteers.course.id (.holds req.claim hheld)
      (.itemed i i' hsteers hmem (by rintro _ ⟨⟩; exact hid) hcurrent
        (.recorded req rfl hordinal hvalid hstate hrow') hitems) rfl rfl
  split at hf
  · simp only [committed] at hf
    obtain ⟨hstates, rfl⟩ := hf
    refine done ?_ (by rw [hrow]; rfl)
    rw [hrow]
    refine ⟨by constructor <;> rfl, hopen, ?_, ?_, id, fun u _ _ => .of_released rfl u⟩
    all_goals
      obtain h | h | h := hstates <;> simp [resumedBatch, h, terminal]
  · obtain rfl := pure_eq_ok.mp hf
    exact done (steered_of_same_state (by rw [hrow]; constructor <;> rfl) hopen (by rw [hrow]; rfl)
      (by rw [hrow]; rfl) fun u _ _ => .of_released (by rw [hrow]; rfl) u) (by rw [hrow]; rfl)

/-! ## Balances -/

theorem awaitingItem_ok {baseline : Balance} {deadline : Time}
    (h : awaitingItem b ref k = .ok (i, baseline, deadline)) :
    i ∈ b.items ∧ heldBy b.claim k ∧ b.currentItem = some i.ordinal ∧
      i.state = .awaitingBalance ∧ i.baseline = some baseline := by
  simp only [awaitingItem, committed] at h
  obtain ⟨i, hi, hstate, baseline, hbaseline, deadline, -, rfl, rfl, rfl⟩ := h
  obtain ⟨hmem, -, hheld, hcurrent⟩ := currentItem_ok hi
  exact ⟨hmem, hheld, hcurrent, hstate, hbaseline⟩

theorem pausedForBalance_steers (hcourse : b.SameCourse row)
    (hauthorized : row.authorizedAt = b.authorizedAt) (hopen : b.state.terminal = false)
    (hbuilding : b.state ≠ .building) : b.Steers op now (pausedForBalance row now) := by
  obtain ⟨h₁, h₂, h₃, h₄, h₅, h₆, h₇, h₈, h₉⟩ := hcourse
  refine ⟨⟨h₁, h₂, h₃, h₄, h₅, h₆, h₇, h₈, h₉⟩, hopen, ?_, ?_, fun h => hauthorized ▸ h,
    fun u _ _ => .of_released rfl u⟩
  all_goals
    by_cases h : row.state = .terminateRequested <;>
      simp [pausedForBalance, h, hbuilding, terminal]

theorem not_building_of_write (h : b'.toBatchRow = row)
    (hauthorized : row.authorizedAt = b.authorizedAt) (hstate : row.state.authorized) :
    b.state ≠ .building := by
  intro hb
  have hnone := b.checked.unauthorized (by rw [hb]; rfl)
  have hsome := b'.checked.authorized (by rw [h]; exact hstate)
  rw [h, hauthorized, hnone] at hsome
  cases hsome

theorem pausedForBalance_authorized (row : BatchRow) (now : Time) :
    (pausedForBalance row now).state.authorized := by
  unfold pausedForBalance
  dsimp only
  split <;> rfl

theorem recordPositionCashOutBatchBalance_change {req : BalanceRequest}
    (h : recordPositionCashOutBatchBalance req t now = .ok (t', b')) :
    Change adm (.recordBalance req) now t t' := by
  obtain ⟨hvalid, h⟩ := of_ensure h
  obtain ⟨b, row, hb, hf, hrow, rfl⟩ := onBatch_ok h
  simp only [bind_eq_ok, Prod.exists] at hf
  obtain ⟨i, baseline, deadline, hi, hf⟩ := hf
  obtain ⟨hmem, hheld, hcurrent, hstate, hbaseline⟩ := awaitingItem_ok hi
  have hopen := open_of_heldBy hheld
  split at hf
  · rename_i hgate
    simp only [committed, Item.write_eq_ok] at hf
    obtain ⟨i', hrow', wallets, hwallets, rfl⟩ := hf
    have hordinal : i'.ordinal = i.ordinal := by rw [hrow']; rfl
    have hwallet : i'.walletOrdinal = i.walletOrdinal := by rw [hrow']; rfl
    rw [hordinal] at hrow
    rw [hwallet] at hwallets
    exact .ofBatch hb (by rw [hrow]; rfl) (.holds req.claim hheld)
      (.advanced req i i' baseline wallets rfl hvalid hmem hcurrent hstate hbaseline hgate hrow'
        hwallets hopen hrow) rfl rfl
  · simp only [committed, Item.write_eq_ok] at hf
    obtain ⟨i', hrow', rfl⟩ := hf
    have done (hsteers : b.Steers (.recordBalance req) now b'.toBatchRow)
        (hitems : b'.items = b.items.put i') :
          Change adm (.recordBalance req) now t (t.putBatch b') :=
      .ofBatch hb hsteers.course.id (.holds req.claim hheld)
        (.itemed i i' hsteers hmem (by simp) hcurrent (.observed req rfl hstate hrow') hitems)
        rfl rfl
    split at hrow
    · refine done ?_ (by rw [hrow]; rfl)
      have hbuilding := not_building_of_write hrow rfl (pausedForBalance_authorized _ _)
      rw [hrow]
      exact pausedForBalance_steers (by constructor <;> rfl) rfl hopen hbuilding
    · exact done (steered_of_same_state (by rw [hrow]; constructor <;> rfl) hopen
        (by rw [hrow]; rfl) (by rw [hrow]; rfl) fun u _ _ => .of_released (by rw [hrow]; rfl) u)
        (by rw [hrow]; rfl)

theorem deferPositionCashOutBatchBalance_change {timedOut : Bool}
    (h : deferPositionCashOutBatchBalance ref k timedOut t now = .ok (t', b')) :
    Change adm (.deferBalance ref k timedOut) now t t' := by
  obtain ⟨b, row, hb, hf, hrow, rfl⟩ := onBatch_ok h
  simp only [committed, Prod.exists] at hf
  obtain ⟨i, baseline, deadline, hi, rfl⟩ := hf
  obtain ⟨-, hheld, -⟩ := awaitingItem_ok hi
  have hopen := open_of_heldBy hheld
  split at hrow
  · have hbuilding := not_building_of_write hrow rfl (pausedForBalance_authorized _ _)
    have hsteers : b.Steers (.deferBalance ref k timedOut) now b'.toBatchRow := by
      rw [hrow]
      exact pausedForBalance_steers (by constructor <;> rfl) rfl hopen hbuilding
    exact .ofBatch hb hsteers.course.id (.holds k hheld)
      (.steered hsteers (by rw [hrow]; rfl)) rfl rfl
  · exact change_of_same_state hb (by rw [hrow]; constructor <;> rfl) hheld (by rw [hrow]; rfl)
      (by rw [hrow]; rfl) (by rw [hrow]; rfl) fun u _ => .of_released (by rw [hrow]; rfl) u

/-! ## Blocking, boundaries and expiry -/

theorem recordPositionCashOutBatchBlocking_change {req : BlockingRequest}
    (h : recordPositionCashOutBatchBlocking req t now = .ok (t', b')) :
    Change adm (.recordBlocking req) now t t' := by
  simp only [recordPositionCashOutBatchBlocking, committed] at h
  obtain ⟨hvalid, reason, -, h⟩ := h
  obtain ⟨b, row, hb, hf, hrow, rfl⟩ := onBatch_ok h
  simp only [committed, Item.write_eq_ok] at hf
  obtain ⟨hheld, i, hi, hplace, hended, i', hrow', rfl⟩ := hf
  obtain ⟨hmem, hordinal⟩ := get?_eq_some.mp hi
  have hid : b.id = req.item.batch := (batch_eq_some.mp hb).2
  have hopen := open_of_heldBy hheld
  split at hrow
  · rename_i hstate
    have hends : b.Ends b'.toBatchRow := by
      rw [hrow]
      exact ⟨rfl, rfl, rfl, rfl, rfl, rfl, rfl, hopen, rfl⟩
    exact .ofBatch hb hends.id (.holds req.claim hheld)
      (.failed req i i' reason hends rfl hvalid hstate hmem hid hordinal hplace hended hrow'
        (by rw [hrow]; rfl) (by rw [hrow]; rfl) (by rw [hrow]; rfl)) rfl rfl
  · rename_i hstate
    have hordinal' : i'.ordinal = i.ordinal := by rw [hrow']; rfl
    rw [hordinal'] at hrow
    exact .ofBatch hb (by rw [hrow]; rfl) (.holds req.claim hheld)
      (.blocked req i i' reason rfl hvalid hstate hmem hid hordinal hplace hended hopen hrow' hrow)
      rfl rfl

theorem failUndispatchedChild_ok (h : failUndispatchedChild t b i now = .ok t') (claim : ℕ) :
    t'.batches = t.batches ∧ ((i.child = none ∧ t'.cashOuts = t.cashOuts) ∨
      ∃ c ∈ t.cashOuts, ∃ c', i.child = some c.id ∧ c.source = some ⟨b.id, i.ordinal⟩ ∧
        c.Move (.boundary b.id claim) now c' ∧ c'.state = .failed ∧
        t'.cashOuts = t.cashOuts.put c') := by
  unfold failUndispatchedChild at h
  split at h
  · rename_i hchild
    obtain rfl := pure_eq_ok.mp h
    exact ⟨rfl, .inl ⟨hchild, rfl⟩⟩
  · rename_i child hchild
    simp only [committed, CashOut.write_eq_ok] at h
    obtain ⟨c, hc, ⟨hsource, hstate⟩, hundispatched, -, c', hrow, rfl⟩ := h
    obtain ⟨hmem, hid⟩ := cashOut_eq_some.mp hc
    exact ⟨rfl, .inr ⟨c, hmem, c', hid ▸ hchild, hsource,
      .failedByBatch b.id claim rfl hstate hundispatched hrow, by rw [hrow]; rfl, rfl⟩⟩

theorem completePositionCashOutBatchBoundary_change
    (h : completePositionCashOutBatchBoundary batch k t now = .ok (t', b')) :
    Change adm (.boundary batch k) now t t' := by
  simp only [completePositionCashOutBatchBoundary, committed] at h
  obtain ⟨b, hb, hheld, h⟩ := h
  have hopen := open_of_heldBy hheld
  have hwriter : b.Writer (.boundary batch k) now := .holds k hheld
  obtain ⟨hmem, hid⟩ := batch_eq_some.mp hb
  split at h
  · rename_i hstate
    simp only [committed, write_eq_ok] at h
    obtain ⟨-, b₁, hrow, rfl, -⟩ := h
    have hsteers : b.Steers (.boundary batch k) now b₁.toBatchRow := by
      rw [hrow]
      exact ⟨by constructor <;> rfl, hopen, rfl, by simp [pausedAtBoundary, hstate], id,
        fun u _ _ => .of_released rfl u⟩
    exact .ofBatch hb hsteers.course.id hwriter (.steered hsteers (by rw [hrow]; rfl)) rfl rfl
  · rename_i hstate
    simp only [committed, write_eq_ok, Prod.exists] at h
    obtain ⟨t₁, items, ended, hcurrent, b₁, hrow, rfl, -⟩ := h
    have hends : b.Ends b₁.toBatchRow := by
      rw [hrow]
      exact ⟨rfl, rfl, rfl, rfl, rfl, rfl, rfl, hopen, rfl⟩
    unfold terminateUndispatchedPositionCashOutBatchCurrent at hcurrent
    split at hcurrent
    · rename_i hnone
      simp only [pure_pair] at hcurrent
      obtain ⟨rfl, rfl, rfl⟩ := hcurrent
      exact .ofBatch hb hends.id hwriter (.terminated hends (by rw [hstate]; rfl) hnone
        (by rw [hrow]; rfl) (.inl (by rw [hrow]; rfl)) (by rw [hrow]; rfl)) rfl rfl
    · rename_i ordinal hsome
      simp only [committed] at hcurrent
      obtain ⟨i, hi, hitem, t₂, hfail, rfl, rfl, rfl⟩ := hcurrent
      obtain ⟨himem, rfl⟩ := get?_eq_some.mp hi
      obtain ⟨hbatches, hcashOuts⟩ := failUndispatchedChild_ok hfail k
      subst hid
      refine .halted b b₁ i k rfl hmem hheld ?_ hcashOuts (by rw [← hbatches]; rfl)
      exact ⟨hends, hstate, himem, hsome, hitem, by rw [hrow]; rfl, by rw [hrow]; rfl,
        by rw [hrow]; rfl⟩
  · rename_i hstate
    simp only [committed, write_eq_ok] at h
    obtain ⟨⟨hcurrent, hfull, -⟩, b₁, hrow, rfl, -⟩ := h
    have hends : b.Ends b₁.toBatchRow := by
      rw [hrow]
      exact ⟨rfl, rfl, rfl, rfl, rfl, rfl, rfl, hopen, rfl⟩
    exact .ofBatch hb hends.id hwriter (.completed hends hstate hcurrent hfull (by rw [hrow]; rfl)
      (by rw [hrow]; rfl) (by rw [hrow]; rfl)) rfl rfl
  · cases h

theorem expirePositionCashOutBatches_change (picked : List UUID) :
    Change adm (.expireBatches picked) now t (expirePositionCashOutBatches picked t now) := by
  refine .batches rfl (rel_update _ (expireOneBatch_id picked now) ?_)
  intro b _
  unfold expireOneBatch
  split
  · rename_i hpicked
    have hstate : b.state = .building ∨ b.state = .awaitingAuthorization := by
      simp only [expirableBatch, check_iff] at hpicked
      exact hpicked.2.1.1
    have hopen : b.state.terminal = false := by obtain h | h := hstate <;> rw [h] <;> rfl
    split
    · exact .inr ⟨.expires hpicked.2, .dropped ⟨rfl, rfl, rfl, rfl, rfl, rfl, rfl, hopen, rfl⟩
        hstate (.inr (.inr rfl)) rfl rfl⟩
    · exact .inl rfl
  · exact .inl rfl

/-! ## All transactions -/

theorem exec_change {r : op.Reply} (h : exec adm op t now = .ok (t', r)) :
    Change adm op now t t' := by
  cases op with
  | create => exact createPositionCashOut_change h
  | authorize => exact authorizePositionCashOut_change h
  | claim => exact claimPositionCashOut_change h
  | renew => exact renewPositionCashOutClaim_change h
  | beginClosing => exact beginPositionCashOutClosing_change h
  | prepare => exact preparePositionCashOutAttempt_change h
  | dispatch => exact dispatchPositionCashOutAttempt_change h
  | resolve => exact resolvePositionCashOutAttempt_change h
  | completeDispatch => exact completePositionCashOutDispatch_change h
  | observe => exact recordPositionCashOutObservation_change h
  | reconcile => exact requestPositionCashOutReconciliation_change h
  | expire picked => cases h; exact expirePositionCashOuts_change picked
  | createBatch => exact createPositionCashOutBatch_change h
  | build => exact completePositionCashOutBatchBuild_change h
  | failBuild => exact failPositionCashOutBatchBuild_change h
  | authorizeBatch => exact authorizePositionCashOutBatch_change h
  | control => exact controlPositionCashOutBatch_change h
  | claimBatch => exact claimPositionCashOutBatch_change h
  | renewBatch => exact renewPositionCashOutBatchClaim_change h
  | deferPreflight => exact deferPositionCashOutBatchPreflight_change h
  | deferCheck => exact deferPositionCashOutBatchCheck_change h
  | activate => exact activatePositionCashOutBatchItem_change h
  | dispatchBatch => exact dispatchPositionCashOutBatchAttempt_change h
  | recordItem => exact recordPositionCashOutBatchItemState_change h
  | recordBalance => exact recordPositionCashOutBatchBalance_change h
  | deferBalance => exact deferPositionCashOutBatchBalance_change h
  | recordBlocking => exact recordPositionCashOutBatchBlocking_change h
  | boundary => exact completePositionCashOutBatchBoundary_change h
  | expireBatches picked => cases h; exact expirePositionCashOutBatches_change picked

end Store
end Athena.CashOuts
