import Athena.CashOuts.BatchChanges

/-!
# The course of a batch

`Batch.Course` says where each item of a batch stands: those that are counted as completed
have a confirmed credit, at most the next one is being worked on, and the rest has not been
touched.  It also says what the counters and the Wallet locks are.  Every move keeps it.
-/

namespace Athena.CashOuts

open Athena.Lib Table Queries Store Function Option BatchState

def Item.Untouched (i : Item) : Prop := i.child = none ∧ i.baseline = none

def Item.Confirmed (i : Item) : Prop :=
  ∃ baseline observed, i.baseline = some baseline ∧ i.observed = some observed ∧
    validBalance observed ∧ balanceGate baseline observed ∧ i.delta = balanceDelta baseline observed

def Item.Working (i : Item) : Prop := i.state.inFlight ∨ i.state = .failed

theorem ItemState.inFlight_of_transition {expected next : ItemState}
    (h : validPositionCashOutBatchItemTransition expected next) : next.inFlight := by
  cases expected <;> cases next <;> first | rfl | cases h

def BatchState.rest : BatchState → ItemState
  | .failed | .terminated => .notExecuted
  | _ => .pending

theorem BatchState.rest_of_open {s : BatchState} (h : s.terminal = false) : s.rest = .pending := by
  cases s <;> first | rfl | cases h

def BatchState.stop : BatchState → ItemState
  | .failed => .failed
  | .terminated => .notExecuted
  | _ => .pending

/-- Where the items, the counters and the locks of a batch stand. -/
structure Batch.Course (b : Batch) : Prop where
  ordinals : b.items.rows.map (fun i => i.ordinal) = List.range' 1 b.positionCount
  baselines : ∀ i ∈ b.items, ∀ baseline, i.baseline = some baseline → validBalance baseline
  members : ∀ i ∈ b.items, ∃ w ∈ b.wallets, w.walletId = i.walletId
  pending : ∀ i ∈ b.items, i.state = .pending → i.Untouched
  done : ∀ i ∈ b.items, i.ordinal ≤ b.completedCount → i.state = .completed ∧ i.Confirmed
  rest : ∀ i ∈ b.items, b.completedCount + 1 < i.ordinal → i.state = b.state.rest ∧ i.Untouched
  waiting : ∀ i ∈ b.items, i.ordinal = b.completedCount + 1 → b.state.terminal = false →
    b.currentItem = none → i.state = .pending
  working : ∀ i ∈ b.items, i.ordinal = b.completedCount + 1 → b.state.terminal = false →
    b.currentItem ≠ none → i.Working
  stopped : ∀ i ∈ b.items, i.ordinal = b.completedCount + 1 → b.state.terminal →
    i.state = b.state.stop
  current : b.state.terminal = false →
    b.currentItem = none ∨ b.currentItem = some (b.completedCount + 1)
  next : b.state.terminal = false → b.state ≠ .building → b.nextItem =
    if b.completedCount < b.positionCount then some (b.completedCount + 1) else none
  building : b.state = .building → b.positionCount = 0 ∧ b.nextItem = none
  idle : b.authorizedAt = none →
    b.completedCount = 0 ∧ (b.state.terminal = false → b.currentItem = none)
  open_count : b.state.terminal = false → b.notExecutedCount = 0
  completed_count : b.state = .completed →
    b.completedCount = b.positionCount ∧ b.notExecutedCount = 0
  terminated_count : b.state = .terminated →
    b.completedCount + b.notExecutedCount = b.positionCount
  failed_count : b.state = .failed →
    (b.authorizedAt = none ∧ b.positionCount = 0) ∨
      b.completedCount + b.notExecutedCount + 1 = b.positionCount
  walletCounts : (b.wallets.map fun w => w.completedCount).sum = b.completedCount
  locks : b.locks = if b.state.terminal then [] else b.wallets.map fun w => w.walletId

namespace Batch.Course

variable {op : Operation} {now : Time} {b b' : Batch} {i i' : Item}

theorem item_move (hmove : i.Move op now i') : i'.ordinal = i.ordinal ∧ i'.child = i.child ∧
    i'.baseline = i.baseline ∧ i'.toPosition = i.toPosition ∧ i'.state.inFlight := by
  cases hmove with
  | recorded req _ _ hvalid _ hrow =>
    refine ⟨by rw [hrow]; rfl, by rw [hrow]; rfl, by rw [hrow]; rfl, by rw [hrow]; rfl, ?_⟩
    have hnext : i'.state = req.nextState := by rw [hrow]; rfl
    simp only [ItemStateRequest.valid, Bool.and_eq_true] at hvalid
    obtain ⟨⟨⟨⟨hvalid, -⟩, -⟩, -⟩, -⟩ := hvalid
    rw [hnext]
    exact ItemState.inFlight_of_transition hvalid
  | observed _ _ hstate hrow =>
    refine ⟨by rw [hrow]; rfl, by rw [hrow]; rfl, by rw [hrow]; rfl, by rw [hrow]; rfl, ?_⟩
    have hsame : i'.state = i.state := by rw [hrow]; rfl
    rw [hsame, hstate]
    rfl

theorem mem_markRemaining {items : Items} {reason : Reason} {j : Item}
    (hj : j ∈ markRemaining items reason now) :
    ∃ i ∈ items, (j = i ∧ i.state ≠ .pending) ∨
      (j = markNotExecuted reason now i ∧ i.state = .pending) := by
  obtain ⟨i, hi, rfl⟩ := mem_update.mp hj
  refine ⟨i, hi, ?_⟩
  by_cases h : i.state = .pending
  · exact .inr ⟨if_pos h, h⟩
  · exact .inl ⟨if_neg h, h⟩

theorem ordinals_markRemaining (items : Items) (reason : Reason) (now : Time) :
    (markRemaining items reason now).rows.map (fun i => i.ordinal) =
      items.rows.map fun i => i.ordinal := by
  unfold markRemaining Table.update
  rw [List.map_map]
  apply List.map_congr_left
  intro i _
  dsimp only [comp]
  split <;> rfl

theorem pendingCount_eq {items : Items} {n m : ℕ}
    (hordinals : items.rows.map (fun i => i.ordinal) = List.range' 1 n)
    (h : ∀ i ∈ items, i.state = .pending ↔ m < i.ordinal) : pendingCount items = n - m :=
  countP_of_keys_eq_range' hordinals fun i hi => by simpa using h i hi

theorem validItems_wallet {wallets : List BatchWallet} {inputs : List ItemInput} :
    ∀ {last : Option ItemInput} {seen : List String}, validItems wallets last seen inputs →
      ∀ i ∈ inputs, ∃ w ∈ wallets, w.walletId = i.walletId := by
  induction inputs with
  | nil => exact fun _ => nofun
  | cons _ _ ih =>
    intro last seen h i hi
    simp only [validItems, Bool.and_eq_true, any_eq_true] at h
    obtain ⟨⟨⟨⟨⟨w, hfind, hwallet⟩, -⟩, -⟩, -⟩, hrest⟩ := h
    rcases List.mem_cons.mp hi with rfl | hi
    · simp only [ItemInput.matchesWallet, check_iff] at hwallet
      exact ⟨w, List.mem_of_find?_eq_some hfind, hwallet.1.1.1.symm⟩
    · exact ih hrest i hi

theorem normalizeItems_ok {inputs items : List ItemInput} {wallets : List BatchWallet}
    (h : normalizePositionCashOutBatchItems inputs wallets = .ok items) :
    0 < items.length ∧ ∀ i ∈ items, ∃ w ∈ wallets, w.walletId = i.walletId := by
  simp only [normalizePositionCashOutBatchItems, committed] at h
  obtain ⟨⟨hpos, -⟩, -, hvalid, -, rfl⟩ := h
  exact ⟨by simpa using hpos, validItems_wallet hvalid⟩

theorem ordinals_items (inputs : List ItemInput) :
    (inputs.mapIdx fun k i => i.item (k + 1)).map (fun i => i.ordinal) =
      List.range' 1 inputs.length := by
  apply List.ext_getElem
  · simp
  · intro k _ _
    simp [ItemInput.item, Nat.add_comm]

theorem incrementWallets_ok {wallets wallets' : List BatchWallet} {ordinal : ℕ}
    (h : incrementWallets wallets ordinal = .ok wallets') :
    (wallets'.map fun w => w.completedCount).sum = (wallets.map fun w => w.completedCount).sum + 1 ∧
      (wallets'.map fun w => w.walletId) = wallets.map fun w => w.walletId := by
  simp only [incrementWallets, committed] at h
  obtain ⟨hone, rfl⟩ := h
  have hsum (l : List BatchWallet) :
      ((l.map fun w => if w.ordinal = ordinal ∧ w.completedCount < w.positionCount then
          { w with completedCount := w.completedCount + 1 } else w).map
        fun w => w.completedCount).sum =
      (l.map fun w => w.completedCount).sum +
        l.countP fun w => w.ordinal = ordinal ∧ w.completedCount < w.positionCount := by
    induction l with
    | nil => rfl
    | cons w _ ih =>
      simp only [List.map_cons, List.sum_cons, ih, List.countP_cons]
      by_cases hw : w.ordinal = ordinal ∧ w.completedCount < w.positionCount
      · simp only [hw, and_self, if_true, decide_true]
        omega
      · simp only [hw, if_false, decide_false, Bool.false_eq_true]
        omega
  constructor
  · rw [hsum, hone]
  · rw [List.map_map]
    apply List.map_congr_left
    intro w _
    dsimp only [comp]
    split <;> rfl

theorem created {req : BatchCreateRequest} {wallets : List BatchWallet}
    (hrow : b.toBatchRow = req.row b.id wallets now)
    (hempty : ∀ w ∈ wallets, w.positionCount = 0 ∧ w.completedCount = 0) : b.Course := by
  have hitems : b.items = .empty := by rw [hrow]; rfl
  have hstate : b.state = .building := by rw [hrow]; rfl
  have hnone {j : Item} (hj : j ∈ b.items) {p : Prop} : p := by
    rw [hitems] at hj
    exact absurd hj (not_mem_empty j)
  have hsum : (wallets.map fun w => w.completedCount).sum = 0 := by
    rw [List.sum_eq_zero]
    intro n hn
    obtain ⟨w, hw, rfl⟩ := List.mem_map.mp hn
    exact (hempty w hw).2
  constructor
  case ordinals => rw [hitems, hrow]; rfl
  case baselines | members | pending | done | rest | waiting | working | stopped =>
    intro j hj; exact hnone hj
  case current => intro _; rw [hrow]; exact .inl rfl
  case next => intro _ hb; exact absurd hstate hb
  case building => intro _; rw [hrow]; exact ⟨rfl, rfl⟩
  case idle => intro _; rw [hrow]; exact ⟨rfl, fun _ => rfl⟩
  case open_count => intro _; rw [hrow]; rfl
  case completed_count | terminated_count | failed_count => intro hb; cases hb.symm.trans hstate
  case walletCounts => rw [hrow]; exact hsum
  case locks => rw [hrow]; rfl

theorem authorizedAt_ne_none (h : b.state.authorized) : b.authorizedAt ≠ none := by
  intro hnone
  have hsome := b.checked.authorized h
  rw [hnone] at hsome
  cases hsome

variable (h : b.Course)
include h

theorem mem_ordinals (hi : i ∈ b.items) : 1 ≤ i.ordinal ∧ i.ordinal ≤ b.positionCount := by
  have hmem : i.ordinal ∈ b.items.rows.map (fun i => i.ordinal) := List.mem_map_of_mem hi
  rw [h.ordinals, List.mem_range'_1] at hmem
  omega

theorem ordinal_le_of_completed (hi : i ∈ b.items) (hstate : i.state = .completed) :
    i.ordinal ≤ b.completedCount := by
  by_contra hlt
  obtain hrest | hplace : b.completedCount + 1 < i.ordinal ∨ i.ordinal = b.completedCount + 1 := by
    omega
  · have hrest := (h.rest i hi hrest).1
    rw [hstate] at hrest
    cases hb : b.state <;> rw [hb] at hrest <;> cases hrest
  · cases hterminal : b.state.terminal with
    | true =>
      have hstop := h.stopped i hi hplace hterminal
      rw [hstate] at hstop
      cases hb : b.state <;> rw [hb] at hstop <;> cases hstop
    | false =>
      by_cases hcurrent : b.currentItem = none
      · cases hstate.symm.trans (h.waiting i hi hplace hterminal hcurrent)
      · obtain hwork | hwork := h.working i hi hplace hterminal hcurrent <;>
          rw [hstate] at hwork <;> cases hwork

theorem no_items (hb : b.state = .building) (hi : i ∈ b.items) {p : Prop} : p := by
  have := h.mem_ordinals hi
  have := (h.building hb).1
  omega

theorem current_ordinal (hopen : b.state.terminal = false)
    (hcurrent : b.currentItem = some i.ordinal) : i.ordinal = b.completedCount + 1 := by
  obtain hnone | hsome := h.current hopen
  · cases hcurrent.symm.trans hnone
  · exact mem_unique hcurrent hsome

theorem next_ordinal (hopen : b.state.terminal = false) (hnext : b.nextItem = some i.ordinal) :
    i.ordinal = b.completedCount + 1 := by
  have hbuilding : b.state ≠ .building := by
    intro hb
    cases hnext.symm.trans (h.building hb).2
  rw [h.next hopen hbuilding] at hnext
  split at hnext
  · exact (some.inj hnext).symm
  · cases hnext

theorem place_ordinal (hopen : b.state.terminal = false) (hplace : b.Faces i) :
    i.ordinal = b.completedCount + 1 := by
  obtain hcurrent | ⟨-, hnext, -⟩ := hplace
  · exact h.current_ordinal hopen hcurrent
  · exact h.next_ordinal hopen hnext

/-- The batch stays open, and at most its current item changes. -/
theorem of_open (hcourse : b.SameCourse { b'.toBatchRow with currentItem := b.currentItem })
    (hopen : b.state.terminal = false) (hopen' : b'.state.terminal = false)
    (hbuilding : b'.state = .building ↔ b.state = .building)
    (hcurrent : b'.currentItem = b.currentItem ∨
      b'.authorizedAt ≠ none ∧ b'.currentItem = some (b.completedCount + 1))
    (hauthorized : b'.authorizedAt = none → b.authorizedAt = none)
    (hordinals : b'.items.rows.map (fun i => i.ordinal) = b.items.rows.map fun i => i.ordinal)
    (hitems : ∀ j ∈ b'.items,
      (j ∈ b.items ∧ (j.ordinal = b.completedCount + 1 → b'.currentItem = b.currentItem)) ∨
      (j.ordinal = b.completedCount + 1 ∧ b'.currentItem ≠ none ∧ j.Working ∧
        (∃ i ∈ b.items, i.walletId = j.walletId) ∧ ∀ baseline, j.baseline = some baseline →
        validBalance baseline)) : b'.Course := by
  obtain ⟨-, -, hN, hn, hne, hnext, -, hwallets, hlocks⟩ := hcourse
  dsimp only at hN hn hne hnext hwallets hlocks
  constructor
  case ordinals => rw [hordinals, h.ordinals, hN]
  case baselines =>
    intro j hj
    obtain ⟨hj, -⟩ | ⟨-, -, -, -, hvalid⟩ := hitems j hj
    · exact h.baselines j hj
    · exact hvalid
  case members =>
    intro j hj
    rw [hwallets]
    obtain ⟨hj, -⟩ | ⟨-, -, -, ⟨i, hi, hwallet⟩, -⟩ := hitems j hj
    · exact h.members j hj
    · exact hwallet ▸ h.members i hi
  case pending =>
    intro j hj hpending
    obtain ⟨hj, -⟩ | ⟨-, -, hwork, -⟩ := hitems j hj
    · exact h.pending j hj hpending
    · obtain h | h := hwork <;> rw [hpending] at h <;> cases h
  case done =>
    intro j hj hle
    rw [hn] at hle
    obtain ⟨hj, -⟩ | ⟨heq, -⟩ := hitems j hj
    · exact h.done j hj hle
    · omega
  case rest =>
    intro j hj hlt
    rw [hn] at hlt
    obtain ⟨hj, -⟩ | ⟨heq, -⟩ := hitems j hj
    · rw [rest_of_open hopen', ← rest_of_open hopen]
      exact h.rest j hj hlt
    · omega
  case waiting =>
    intro j hj heq _ hnone
    rw [hn] at heq
    obtain ⟨hj, hsame⟩ | ⟨-, hsome, -⟩ := hitems j hj
    · exact h.waiting j hj heq hopen (hsame heq ▸ hnone)
    · exact absurd hnone hsome
  case working =>
    intro j hj heq _ hsome
    rw [hn] at heq
    obtain ⟨hj, hsame⟩ | ⟨-, -, hwork, -⟩ := hitems j hj
    · exact h.working j hj heq hopen (hsame heq ▸ hsome)
    · exact hwork
  case stopped => intro j _ _ hterminal; rw [hopen'] at hterminal; cases hterminal
  case current =>
    intro _
    rw [hn]
    obtain hsame | ⟨-, hsome⟩ := hcurrent
    · exact hsame ▸ h.current hopen
    · exact .inr hsome
  case next =>
    intro _ hb
    rw [hnext, hn, hN]
    exact h.next hopen (mt hbuilding.mpr hb)
  case building =>
    intro hb
    rw [hN, hnext]
    exact h.building (hbuilding.mp hb)
  case idle =>
    intro hnone
    obtain ⟨hzero, hidle⟩ := h.idle (hauthorized hnone)
    obtain hsame | ⟨hsome, -⟩ := hcurrent
    · exact ⟨hn.trans hzero, fun _ => hsame.trans (hidle hopen)⟩
    · exact absurd hnone hsome
  case open_count => intro _; rw [hne]; exact h.open_count hopen
  case completed_count | terminated_count | failed_count =>
    intro hb; simp [hb, terminal] at hopen'
  case walletCounts => rw [hwallets, hn]; exact h.walletCounts
  case locks => rw [hlocks, hwallets, hopen', h.locks, hopen]

theorem of_steers {op : Operation} {now : Time} (hs : b.Steers op now b'.toBatchRow)
    (hordinals : b'.items.rows.map (fun i => i.ordinal) = b.items.rows.map fun i => i.ordinal)
    (hitems : ∀ j ∈ b'.items, j ∈ b.items ∨ (b.currentItem = some j.ordinal ∧ j.Working ∧
      (∃ i ∈ b.items, i.walletId = j.walletId) ∧ ∀ baseline, j.baseline = some baseline →
      validBalance baseline)) : b'.Course := by
  have hcurrent := hs.course.currentItem
  refine h.of_open (hcurrent ▸ hs.course) hs.before hs.after hs.building (.inl hcurrent)
    hs.authorizedAt hordinals fun j hj => ?_
  obtain hj | ⟨hplace, hwork⟩ := hitems j hj
  · exact .inl ⟨hj, fun _ => hcurrent⟩
  · exact .inr ⟨h.current_ordinal hs.before hplace, by rw [hcurrent, hplace]; exact some_ne_none _,
      hwork⟩

theorem of_taken (hi : i ∈ b.items) (hordinal : i.ordinal = b.completedCount + 1)
    (hopen : b.state.terminal = false) (hbuilding : b.state ≠ .building)
    (hopen' : b'.state.terminal = false) (hauthorized : b'.state.authorized)
    (hcourse : b.SameCourse { b'.toBatchRow with currentItem := b.currentItem })
    (hcurrent : b'.currentItem = some i.ordinal) (hi' : i'.ordinal = i.ordinal)
    (hwork : i'.Working) (hbaseline : i'.baseline = i.baseline)
    (hwallet : i'.walletId = i.walletId) (hitems : b'.items = b.items.put i') : b'.Course := by
  have hsome := authorizedAt_ne_none hauthorized
  have hbuilding' : b'.state ≠ .building := by intro hb; rw [hb] at hauthorized; cases hauthorized
  refine h.of_open hcourse hopen hopen' (by simp [hbuilding, hbuilding'])
    (.inr ⟨hsome, hordinal ▸ hcurrent⟩) (fun hnone => absurd hnone hsome)
    (by rw [hitems, keys_put]) fun j hj => ?_
  rw [hitems] at hj
  obtain rfl | ⟨hj, hne⟩ := eq_or_mem_of_mem_put hj
  · exact .inr ⟨hi'.trans hordinal, by rw [hcurrent]; exact some_ne_none _, hwork,
      ⟨i, hi, hwallet.symm⟩, hbaseline ▸ h.baselines i hi⟩
  · exact .inl ⟨hj, fun heq => by omega⟩

theorem activates {req : ActivateRequest} (ha : b.Activates req now b' i i') : b'.Course := by
  have hopen : b.state.terminal = false := by rw [ha.state]; rfl
  have hstate' : b'.state = .running := by rw [ha.row]; exact ha.state
  have hwork : i'.Working := .inl (by rw [ha.item]; rfl)
  refine h.of_taken ha.mem (h.next_ordinal hopen ha.next) hopen (by rw [ha.state]; decide)
    (by rw [hstate']; rfl) (by rw [hstate']; rfl) (by rw [ha.row]; constructor <;> rfl) ?_ ?_ hwork
    ?_ ?_ ?_
  case refine_2 | refine_3 | refine_4 => rw [ha.item]; rfl
  all_goals rw [ha.row]; rfl

theorem blocked {req : BlockingRequest} {reason : Reason} (hvalid : req.valid)
    (hfailed : req.batchState ≠ .failed) (hi : i ∈ b.items)
    (hplace : b.Faces i) (hopen : b.state.terminal = false)
    (hrow' : i'.toItemRow = blockedItem i.toItemRow req.itemState reason now)
    (hrow : b'.toBatchRow = blockedBatch { b.toBatchRow with items := b.items.put i' }
      req.batchState i.ordinal reason now) : b'.Course := by
  simp only [BlockingRequest.valid, check_iff] at hvalid
  obtain ⟨⟨hitem, hbatch⟩, -⟩ := hvalid
  have hstate' : b'.state = req.batchState := by rw [hrow]; rfl
  have hauthorized : b'.state.authorized ∧ b'.state.terminal = false := by
    rw [hstate']
    rcases hbatch with ((h | h) | h) | h
    · rw [h]; exact ⟨rfl, rfl⟩
    · exact absurd h hfailed
    · rw [h]; exact ⟨rfl, rfl⟩
    · rw [h]; exact ⟨rfl, rfl⟩
  have hbuilding : b.state ≠ .building :=
    not_building_of_write hrow rfl (by rw [← hrow]; exact hauthorized.1)
  have hwork : i'.Working := by
    have hi' : i'.state = req.itemState := by rw [hrow']; rfl
    unfold Item.Working
    rw [hi']
    obtain h | h := hitem
    · exact .inr h
    · rw [h]; exact .inl rfl
  have hcurrent : b'.currentItem = some i.ordinal := by
    rw [hrow]
    obtain h | ⟨h, -, -⟩ := hplace
    · simp [blockedBatch, h]
    · simp [blockedBatch, h]
  refine h.of_taken hi (h.place_ordinal hopen hplace) hopen hbuilding hauthorized.2 hauthorized.1
    (by rw [hrow]; constructor <;> rfl) hcurrent ?_ hwork ?_ ?_ (by rw [hrow]; rfl)
  all_goals rw [hrow']; rfl

theorem dispatches {req : BatchDispatchRequest} {now : Time} (hd : b.Dispatches req now b' i i') :
    b'.Course := by
  have hordinal : i'.ordinal = i.ordinal := by rw [hd.item]; rfl
  refine h.of_steers hd.steers (by rw [hd.items, keys_put]) ?_
  intro j hj
  rw [hd.items] at hj
  obtain rfl | ⟨hj, -⟩ := eq_or_mem_of_mem_put hj
  · refine .inr ⟨hordinal ▸ hd.current, .inl (by rw [hd.item]; rfl),
      ⟨i, hd.mem, by rw [hd.item]; rfl⟩, ?_⟩
    intro baseline hbaseline
    rw [hd.item] at hbaseline
    obtain rfl := some.inj hbaseline
    exact hd.valid
  · exact .inl hj

/-! ## Steps that end a batch -/

theorem of_ends (he : b.Ends b'.toBatchRow)
    (hordinals : b'.items.rows.map (fun i => i.ordinal) = b.items.rows.map fun i => i.ordinal)
    (hitems : ∀ j ∈ b'.items, ∃ i ∈ b.items, i.ordinal = j.ordinal ∧ j.child = i.child ∧
      j.baseline = i.baseline ∧ j.walletId = i.walletId ∧
      (j = i ∨ (j.state.ended ∧ b.completedCount < i.ordinal)))
    (hrest : ∀ j ∈ b'.items, b.completedCount + 1 < j.ordinal → j.state = b'.state.rest)
    (hstopped : ∀ j ∈ b'.items, j.ordinal = b.completedCount + 1 → j.state = b'.state.stop)
    (hcompleted : b'.state = .completed →
      b.completedCount = b.positionCount ∧ b'.notExecutedCount = 0)
    (hterminated : b'.state = .terminated →
      b.completedCount + b'.notExecutedCount = b.positionCount)
    (hfailed : b'.state = .failed → (b.authorizedAt = none ∧ b.positionCount = 0) ∨
      b.completedCount + b'.notExecutedCount + 1 = b.positionCount) : b'.Course := by
  obtain ⟨hid, howner, hN, hn, hwallets, hauthorized, hlocks, hopen, hterminal⟩ := he
  have closed {p : Prop} (hopen' : b'.state.terminal = false) : p := by
    rw [hterminal] at hopen'; cases hopen'
  constructor
  case ordinals => rw [hordinals, h.ordinals, hN]
  case baselines =>
    intro j hj
    obtain ⟨i, hi, -, -, hbaseline, -, -⟩ := hitems j hj
    exact hbaseline ▸ h.baselines i hi
  case members =>
    intro j hj
    obtain ⟨i, hi, -, -, -, hwallet, -⟩ := hitems j hj
    rw [hwallets, hwallet]
    exact h.members i hi
  case pending =>
    intro j hj hpending
    obtain ⟨i, hi, -, -, -, -, rfl | ⟨hended, -⟩⟩ := hitems j hj
    · exact h.pending j hi hpending
    · rw [hpending] at hended; cases hended
  case done =>
    intro j hj hle
    rw [hn] at hle
    obtain ⟨i, hi, hordinal, -, -, -, rfl | ⟨-, hlt⟩⟩ := hitems j hj
    · exact h.done j hi hle
    · omega
  case rest =>
    intro j hj hlt
    rw [hn] at hlt
    obtain ⟨i, hi, hordinal, hchild, hbaseline, -, -⟩ := hitems j hj
    obtain ⟨-, huntouched⟩ := h.rest i hi (hordinal ▸ hlt)
    exact ⟨hrest j hj hlt, hchild.trans huntouched.1, hbaseline.trans huntouched.2⟩
  case waiting | working => intro _ _ _ hopen'; exact closed hopen'
  case stopped => intro j hj heq _; exact hstopped j hj (hn ▸ heq)
  case current | next | open_count => intro hopen'; exact closed hopen'
  case building => intro hb; rw [hb] at hterminal; cases hterminal
  case idle =>
    intro hnone
    rw [hauthorized] at hnone
    exact ⟨hn ▸ (h.idle hnone).1, fun hopen' => closed hopen'⟩
  case completed_count => intro hb; rw [hn, hN]; exact hcompleted hb
  case terminated_count => intro hb; rw [hn, hN]; exact hterminated hb
  case failed_count => intro hb; rw [hn, hN, hauthorized]; exact hfailed hb
  case walletCounts => rw [hwallets, hn]; exact h.walletCounts
  case locks => rw [hlocks, hterminal]; rfl

theorem dropped (he : b.Ends b'.toBatchRow)
    (hstate : b.state = .building ∨ b.state = .awaitingAuthorization)
    (hstate' : (b'.state = .failed ∧ b.state = .building) ∨ b'.state = .cancelled ∨ b'.state =
      .expired)
    (hitems : b'.items = b.items) : b'.Course := by
  have hnone : b.authorizedAt = none :=
    b.checked.unauthorized (by obtain h | h := hstate <;> rw [h] <;> rfl)
  obtain ⟨hn, hcurrent⟩ := h.idle hnone
  have hcurrent := hcurrent he.before
  refine h.of_ends he (by rw [hitems]) ?_ ?_ ?_ ?_ ?_ ?_
  · intro j hj
    exact ⟨j, hitems ▸ hj, rfl, rfl, rfl, rfl, .inl rfl⟩
  · intro j hj hlt
    rw [hitems] at hj
    rcases hstate' with ⟨-, hb⟩ | hb | hb
    · exact h.no_items hb hj
    all_goals rw [(h.rest j hj hlt).1, rest_of_open he.before, hb]; rfl
  · intro j hj heq
    rw [hitems] at hj
    rcases hstate' with ⟨-, hb⟩ | hb | hb
    · exact h.no_items hb hj
    all_goals rw [h.waiting j hj heq he.before hcurrent, hb]; rfl
  · intro hb; rcases hstate' with ⟨h, -⟩ | h | h <;> cases hb.symm.trans h
  · intro hb; rcases hstate' with ⟨h, -⟩ | h | h <;> cases hb.symm.trans h
  · intro hb
    rcases hstate' with ⟨-, hbuilding⟩ | hb' | hb'
    · exact .inl ⟨hnone, (h.building hbuilding).1⟩
    all_goals cases hb.symm.trans hb'

theorem completed (he : b.Ends b'.toBatchRow) (hfull : b.completedCount = b.positionCount)
    (hstate' : b'.state = .completed) (hcount : b'.notExecutedCount = 0)
    (hitems : b'.items = b.items) : b'.Course := by
  have hbeyond {j : Item} (hj : j ∈ b'.items) {p : Prop} (hlt : b.completedCount < j.ordinal) :
      p := by
    have := h.mem_ordinals (hitems ▸ hj)
    omega
  refine h.of_ends he (by rw [hitems]) ?_ ?_ ?_ (fun _ => ⟨hfull, hcount⟩) ?_ ?_
  · intro j hj
    exact ⟨j, hitems ▸ hj, rfl, rfl, rfl, rfl, .inl rfl⟩
  · intro j hj hlt; exact hbeyond hj (by omega)
  · intro j hj heq; exact hbeyond hj (by omega)
  · intro hb; cases hb.symm.trans hstate'
  · intro hb; cases hb.symm.trans hstate'

theorem pending_iff (hopen : b.state.terminal = false) (hcurrent : b.currentItem = none)
    (hi : i ∈ b.items) : i.state = .pending ↔ b.completedCount < i.ordinal := by
  constructor
  · intro hpending
    by_contra hle
    obtain ⟨hstate, -⟩ := h.done i hi (by omega)
    cases hpending.symm.trans hstate
  · intro hlt
    by_cases heq : i.ordinal = b.completedCount + 1
    · exact h.waiting i hi heq hopen hcurrent
    · rw [(h.rest i hi (by omega)).1, rest_of_open hopen]

theorem terminated (he : b.Ends b'.toBatchRow) (hcurrent : b.currentItem = none)
    (hstate' : b'.state = .terminated)
    (hcount : b'.notExecutedCount = pendingCount b.items ∨ pendingCount b.items = 0 ∧
      b'.notExecutedCount = b.notExecutedCount)
    (hitems : b'.items = markRemaining b.items batchTerminated now) : b'.Course := by
  have hpending {i : Item} (hi : i ∈ b.items) := h.pending_iff he.before hcurrent hi
  have hcount' : b'.notExecutedCount = b.positionCount - b.completedCount := by
    have hp := pendingCount_eq h.ordinals fun i hi => hpending hi
    obtain hcount | ⟨hzero, hcount⟩ := hcount
    · rw [hcount, hp]
    · rw [hcount, h.open_count he.before, ← hp, hzero]
  have hmarked {j : Item} (hj : j ∈ b'.items) (hlt : b.completedCount < j.ordinal) :
      j.state = .notExecuted := by
    rw [hitems] at hj
    obtain ⟨i, hi, ⟨rfl, hne⟩ | ⟨rfl, -⟩⟩ := mem_markRemaining hj
    · exact absurd ((hpending hi).mpr hlt) hne
    · rfl
  refine h.of_ends he (by rw [hitems, ordinals_markRemaining]) ?_ ?_ ?_ ?_ ?_ ?_
  · intro j hj
    rw [hitems] at hj
    obtain ⟨i, hi, ⟨rfl, -⟩ | ⟨rfl, hp⟩⟩ := mem_markRemaining hj
    · exact ⟨j, hi, rfl, rfl, rfl, rfl, .inl rfl⟩
    · exact ⟨i, hi, rfl, rfl, rfl, rfl, .inr ⟨rfl, (hpending hi).mp hp⟩⟩
  · intro j hj hlt; rw [hstate']; exact hmarked hj (by omega)
  · intro j hj heq; rw [hstate']; exact hmarked hj (by omega)
  · intro hb; cases hb.symm.trans hstate'
  · intro _
    have := b.checked.counts
    omega
  · intro hb; cases hb.symm.trans hstate'

theorem pending_put_iff (hopen : b.state.terminal = false)
    (hordinal : i.ordinal = b.completedCount + 1) (hi' : i'.ordinal = i.ordinal)
    (hstate : i'.state ≠ .pending) {j : Item} (hj : j ∈ b.items.put i') :
    j.state = .pending ↔ b.completedCount + 1 < j.ordinal := by
  obtain rfl | ⟨hj, hne⟩ := eq_or_mem_of_mem_put hj
  · exact ⟨fun hp => absurd hp hstate, fun hlt => by omega⟩
  · constructor
    · intro hpending
      by_contra hle
      obtain ⟨hdone, -⟩ := h.done j hj (by omega)
      cases hpending.symm.trans hdone
    · intro hlt
      rw [(h.rest j hj hlt).1, rest_of_open hopen]

theorem of_stop {reason : Reason} (he : b.Ends b'.toBatchRow) (hi : i ∈ b.items)
    (hordinal : i.ordinal = b.completedCount + 1) (hi' : i'.ordinal = i.ordinal)
    (hchild : i'.child = i.child) (hbaseline : i'.baseline = i.baseline)
    (hwallet : i'.walletId = i.walletId) (hended : i'.state.ended)
    (hstop : i'.state = b'.state.stop) (hstate' : b'.state = .failed ∨ b'.state = .terminated)
    (hcount : b'.state = .failed → b'.notExecutedCount = pendingCount (b.items.put i'))
    (hcount' : b'.state = .terminated → b'.notExecutedCount = pendingCount (b.items.put i') + 1)
    (hitems : b'.items = markRemaining (b.items.put i') reason now) : b'.Course := by
  have hstate : i'.state ≠ .pending := by intro hp; rw [hp] at hended; cases hended
  have hp := pendingCount_eq (by rw [keys_put, h.ordinals])
    fun j hj => h.pending_put_iff he.before hordinal hi' hstate hj
  have hbound := (h.mem_ordinals hi).2
  have hrest' : b'.state.rest = .notExecuted := by
    obtain h | h := hstate' <;> rw [h] <;> rfl
  refine h.of_ends he (by rw [hitems, ordinals_markRemaining, keys_put]) ?_ ?_ ?_ ?_ ?_ ?_
  · intro j hj
    rw [hitems] at hj
    obtain ⟨k, hk, hjk⟩ := mem_markRemaining hj
    have hlt : k.state = .pending → b.completedCount < k.ordinal := fun hk' => by
      have := (h.pending_put_iff he.before hordinal hi' hstate hk).mp hk'
      omega
    obtain rfl | ⟨hk, hne⟩ := eq_or_mem_of_mem_put hk
    · obtain ⟨rfl, -⟩ | ⟨-, hk'⟩ := hjk
      · exact ⟨i, hi, hi'.symm, hchild, hbaseline, hwallet, .inr ⟨hended, by omega⟩⟩
      · exact absurd hk' hstate
    · obtain ⟨rfl, -⟩ | ⟨rfl, hk'⟩ := hjk
      · exact ⟨j, hk, rfl, rfl, rfl, rfl, .inl rfl⟩
      · exact ⟨k, hk, rfl, rfl, rfl, rfl, .inr ⟨rfl, hlt hk'⟩⟩
  · intro j hj hlt
    rw [hitems] at hj
    obtain ⟨k, hk, ⟨rfl, hne⟩ | ⟨rfl, -⟩⟩ := mem_markRemaining hj
    · exact absurd ((h.pending_put_iff he.before hordinal hi' hstate hk).mpr hlt) hne
    · exact hrest'.symm
  · intro j hj heq
    rw [hitems] at hj
    obtain ⟨k, hk, ⟨rfl, -⟩ | ⟨rfl, hk'⟩⟩ := mem_markRemaining hj
    · obtain rfl | ⟨-, hne⟩ := eq_or_mem_of_mem_put hk
      · exact hstop
      · omega
    · have := (h.pending_put_iff he.before hordinal hi' hstate hk).mp hk'
      have : k.ordinal = b.completedCount + 1 := heq
      omega
  · intro hb; obtain h | h := hstate' <;> cases hb.symm.trans h
  · intro hb
    rw [hcount' hb, hp]
    omega
  · intro hb
    rw [hcount hb, hp]
    exact .inr (by omega)

theorem halts (hh : b.Halts now b' i) : b'.Course := by
  have hi' : (markNotExecuted batchTerminated now i).ordinal = i.ordinal := rfl
  refine h.of_stop hh.ends hh.mem (h.current_ordinal hh.ends.before hh.current) hi' rfl rfl rfl rfl
    (by rw [hh.state']; rfl) (.inr hh.state') ?_ (fun _ => hh.count) hh.items
  intro hb
  cases hb.symm.trans hh.state'

theorem failed {req : BlockingRequest} {reason : Reason} (he : b.Ends b'.toBatchRow)
    (hfailed : req.itemState = .failed) (hi : i ∈ b.items)
    (hplace : b.Faces i)
    (hrow' : i'.toItemRow = blockedItem i.toItemRow req.itemState reason now)
    (hstate' : b'.state = .failed)
    (hcount : b'.notExecutedCount = b.notExecutedCount + pendingCount (b.items.put i'))
    (hitems : b'.items = markRemaining (b.items.put i') reason now) : b'.Course := by
  have hi' : i'.state = .failed := by rw [hrow']; exact hfailed
  rw [h.open_count he.before, Nat.zero_add] at hcount
  refine h.of_stop he hi (h.place_ordinal he.before hplace) (by rw [hrow']; rfl)
    (by rw [hrow']; rfl)
    (by rw [hrow']; rfl) (by rw [hrow']; rfl) (by rw [hi']; rfl) (by rw [hi', hstate']; rfl)
    (.inl hstate')
    (fun _ => hcount) ?_ hitems
  intro hb
  cases hb.symm.trans hstate'

/-! ## Build and balances -/

theorem built {req : BuildRequest} {inputs : List ItemInput} {items : Items}
    (hstate : b.state = .building)
    (hinputs : normalizePositionCashOutBatchItems req.items b.wallets = .ok inputs)
    (hitems : items.rows = inputs.mapIdx fun k i => i.item (k + 1))
    (hrow : b'.toBatchRow =
      builtBatch { b.toBatchRow with items, wallets := countedWallets b.wallets inputs }
        inputs.length req.authorizationExpiresAt now) : b'.Course := by
  have hopen : b.state.terminal = false := by rw [hstate]; rfl
  have hstate' : b'.state = .awaitingAuthorization := by rw [hrow]; rfl
  have hn : b'.completedCount = 0 := by
    rw [hrow]
    exact (h.idle (b.checked.unauthorized (by rw [hstate]; rfl))).1
  have hcurrent : b'.currentItem = none := by rw [hrow]; rfl
  have hN : b'.positionCount = inputs.length := by rw [hrow]; rfl
  have hitems' : b'.items = items := by rw [hrow]; rfl
  have hfresh {j : Item} (hj : j ∈ b'.items) : j.state = .pending ∧ j.Untouched := by
    rw [hitems', ← mem_rows, hitems, List.mem_mapIdx] at hj
    obtain ⟨k, _, rfl⟩ := hj
    exact ⟨rfl, rfl, rfl⟩
  obtain ⟨hnonempty, hwallets⟩ := normalizeItems_ok hinputs
  constructor
  case ordinals => rw [hitems', hitems, hN]; exact ordinals_items inputs
  case baselines =>
    intro j hj baseline hbaseline
    cases (hfresh hj).2.2.symm.trans hbaseline
  case members =>
    intro j hj
    rw [hitems', ← mem_rows, hitems, List.mem_mapIdx] at hj
    obtain ⟨k, hk, rfl⟩ := hj
    obtain ⟨w, hw, hwallet⟩ := hwallets _ (List.getElem_mem hk)
    rw [hrow]
    exact ⟨_, List.mem_map_of_mem hw, hwallet⟩
  case pending => intro j hj _; exact (hfresh hj).2
  case done =>
    intro j hj hle
    rw [hitems', ← mem_rows, hitems, List.mem_mapIdx] at hj
    obtain ⟨k, _, rfl⟩ := hj
    have : k + 1 ≤ b'.completedCount := hle
    omega
  case rest => intro j hj _; rw [hstate']; exact hfresh hj
  case waiting => intro j hj _ _ _; exact (hfresh hj).1
  case working => intro j _ _ _ hne; exact absurd hcurrent hne
  case stopped => intro j _ _ hterminal; rw [hstate'] at hterminal; cases hterminal
  case current => intro _; exact .inl hcurrent
  case next =>
    intro _ _
    rw [hn, hN, if_pos hnonempty, hrow]
    rfl
  case building | completed_count | terminated_count | failed_count =>
    intro hb; cases hb.symm.trans hstate'
  case idle => intro _; exact ⟨hn, fun _ => hcurrent⟩
  case open_count => intro _; rw [hrow]; exact h.open_count hopen
  case walletCounts =>
    rw [hn, hrow]
    simp [builtBatch, countedWallets, comp_def]
  case locks =>
    have hlocks : b'.locks = b.locks := by rw [hrow]; rfl
    rw [hlocks, h.locks, hopen, hstate', hrow]
    simp [builtBatch, countedWallets, comp_def, terminal]

theorem advanced {req : BalanceRequest} {baseline : Balance} {wallets : List BatchWallet}
    (hvalid : validBalance req.observed) (hi : i ∈ b.items)
    (hcurrent : b.currentItem = some i.ordinal) (hbaseline : i.baseline = some baseline)
    (hgate : balanceGate baseline req.observed)
    (hrow' : i'.toItemRow =
      completedItem i.toItemRow req.observed (balanceDelta baseline req.observed) now)
    (hwallets : incrementWallets b.wallets i.walletOrdinal = .ok wallets)
    (hopen : b.state.terminal = false)
    (hrow : b'.toBatchRow = advancedBatch { b.toBatchRow with items := b.items.put i', wallets }
      (i.ordinal + 1) now) : b'.Course := by
  have hordinal := h.current_ordinal hopen hcurrent
  obtain ⟨hsum, hids⟩ := incrementWallets_ok hwallets
  have hi' : i'.ordinal = i.ordinal := by rw [hrow']; rfl
  have hwallet : i'.walletId = i.walletId := by rw [hrow']; rfl
  have hn : b'.completedCount = b.completedCount + 1 := by rw [hrow]; rfl
  have hN : b'.positionCount = b.positionCount := by rw [hrow]; rfl
  have hnone : b'.currentItem = none := by rw [hrow]; rfl
  have hne : b'.notExecutedCount = b.notExecutedCount := by rw [hrow]; rfl
  have hwallets' : b'.wallets = wallets := by rw [hrow]; rfl
  have hstate' : b'.state = .paused ∨ b'.state = .terminateRequested ∨ b'.state = .running := by
    rw [hrow]
    cases hs : b.state <;> simp [advancedBatch, hs]
  have hauthorized : b'.state.authorized ∧ b'.state.terminal = false := by
    rcases hstate' with h | h | h <;> rw [h] <;> exact ⟨rfl, rfl⟩
  have hmem {j : Item} (hj : j ∈ b'.items) : j = i' ∨ (j ∈ b.items ∧ j.ordinal ≠ i.ordinal) := by
    rw [hrow] at hj
    exact hi' ▸ eq_or_mem_of_mem_put hj
  have hahead {j : Item} (hj : j ∈ b'.items) (hlt : b'.completedCount < j.ordinal) :
      j.state = .pending ∧ j.Untouched := by
    rw [hn] at hlt
    obtain rfl | ⟨hj, hne⟩ := hmem hj
    · omega
    · rw [← rest_of_open hopen]
      exact h.rest j hj (by omega)
  constructor
  case ordinals =>
    have hitems : b'.items = b.items.put i' := by rw [hrow]; rfl
    rw [hitems, keys_put, h.ordinals, hN]
  case baselines =>
    intro j hj
    obtain rfl | ⟨hj, -⟩ := hmem hj
    · rw [hrow']; exact h.baselines i hi
    · exact h.baselines j hj
  case members =>
    intro j hj
    have hmember : ∃ w ∈ b.wallets, w.walletId = j.walletId := by
      obtain rfl | ⟨hj, -⟩ := hmem hj
      · rw [hwallet]; exact h.members i hi
      · exact h.members j hj
    obtain ⟨w, hw, heq⟩ := hmember
    have : j.walletId ∈ wallets.map fun w => w.walletId := by
      rw [hids]; exact List.mem_map.mpr ⟨w, hw, heq⟩
    rw [hwallets']
    exact List.mem_map.mp this
  case pending =>
    intro j hj hpending
    obtain rfl | ⟨hj, -⟩ := hmem hj
    · rw [hrow'] at hpending; cases hpending
    · exact h.pending j hj hpending
  case done =>
    intro j hj hle
    rw [hn] at hle
    obtain rfl | ⟨hj, hne⟩ := hmem hj
    · rw [Item.Confirmed, hrow']
      exact ⟨rfl, baseline, req.observed, hbaseline, rfl, hvalid, hgate, rfl⟩
    · exact h.done j hj (by omega)
  case rest =>
    intro j hj hlt
    rw [rest_of_open hauthorized.2]
    exact hahead hj (by omega)
  case waiting => intro j hj heq _ _; exact (hahead hj (by omega)).1
  case working => intro j _ _ _ hcur; exact absurd hnone hcur
  case stopped => intro j _ _ hterminal; rw [hauthorized.2] at hterminal; cases hterminal
  case current => intro _; exact .inl hnone
  case next =>
    intro _ _
    rw [hn, hN, ← hordinal, hrow]
    simp only [advancedBatch, hordinal]
  case building | completed_count | terminated_count | failed_count =>
    intro hb; rcases hstate' with h | h | h <;> cases hb.symm.trans h
  case idle => intro hnone; exact absurd hnone (authorizedAt_ne_none hauthorized.1)
  case open_count => intro _; rw [hne]; exact h.open_count hopen
  case walletCounts => rw [hwallets', hsum, hn, h.walletCounts]
  case locks =>
    have hlocks : b'.locks = b.locks := by rw [hrow]; rfl
    rw [hlocks, hwallets', hids, hauthorized.2, h.locks, hopen]

theorem move
    (hfails : ∀ req, op = .recordBlocking req → req.batchState = .failed → req.itemState = .failed)
    (hm : b.Move op now b') : b'.Course := by
  cases hm with
  | steered hsteers hitems =>
    exact h.of_steers hsteers (by rw [hitems]) fun j hj => .inl (hitems ▸ hj)
  | built _ _ _ _ hstate hinputs hitems hrow => exact h.built hstate hinputs hitems hrow
  | dropped hends hstate hstate' _ hitems => exact h.dropped hends hstate hstate' hitems
  | itemed i _ hsteers hi _ hcurrent hmove hitems =>
    obtain ⟨hordinal, -, hbaseline, hposition, hflight⟩ := item_move hmove
    refine h.of_steers hsteers (by rw [hitems, keys_put]) ?_
    intro j hj
    rw [hitems] at hj
    obtain rfl | ⟨hj, -⟩ := eq_or_mem_of_mem_put hj
    · exact .inr ⟨hordinal ▸ hcurrent, .inl hflight,
        ⟨i, hi, congrArg Position.walletId hposition.symm⟩, hbaseline ▸ h.baselines i hi⟩
    · exact .inl hj
  | advanced _ _ _ _ _ _ hvalid hi hcurrent _ hbaseline hgate hrow' hwallets hopen hrow =>
      exact h.advanced hvalid hi hcurrent hbaseline hgate hrow' hwallets hopen hrow
  | blocked _ _ _ _ _ hvalid hstate hi _ _ hplace _ hopen hrow' hrow =>
    exact h.blocked hvalid hstate hi hplace hopen hrow' hrow
  | failed req _ _ _ hends hop _ hstate hi _ _ hplace _ hrow' hstate' hcount hitems =>
      exact h.failed hends (hfails req hop hstate) hi hplace hrow' hstate' hcount hitems
  | completed hends _ _ hfull hstate' hcount hitems =>
    exact h.completed hends hfull hstate' hcount hitems
  | terminated hends _ hcurrent hstate' hcount hitems =>
    exact h.terminated hends hcurrent hstate' hcount hitems

end Batch.Course
end Athena.CashOuts
