import Athena.Lib.Listing
import Athena.Lib.Table
import Athena.Lib.Text
import Mathlib.Data.String.Basic

/-!
# The synchronization of the markets

A pass walks the provider's listing page by page, stores each page when it has it, and announces
the events of which it inserted the first market, unless the store was empty when it began.  A
pass that fails leaves what it has stored, and announces nothing.

The loop stops at an error, at a page that names no next one, and at a cursor it has just asked
with.  Past sports events are listed by the same loop.
-/

namespace Athena.Markets

open Athena.Lib Table List

/-! ## Following cursors -/

section walk
variable {σ α : Type} (act : σ → α → σ) (ends : α → Bool) (next : α → String)

def Stops (cursor : String) (a : α) : Prop := ends a ∨ next a = "" ∨ next a = cursor

instance (cursor : String) (a : α) : Decidable (Stops ends next cursor a) :=
  inferInstanceAs (Decidable (_ ∨ _))

/-- Handle one answer after the other up to one that stops the loop.  There is no result while
answers are missing. -/
def walk : String → σ → List α → Option σ
  | _, _, [] => none
  | cursor, s, a :: rest =>
    if Stops ends next cursor a then some (act s a) else walk (next a) (act s a) rest

/-- The cursor of the `n`-th call, when no call before it stopped the loop. -/
def asked (cursor : String) (a : ℕ → α) : ℕ → String
  | 0 => cursor
  | n + 1 => next (a n)

/-- The `n`-th answer stops the loop, when no answer before it did. -/
def StopsAt (cursor : String) (a : ℕ → α) (n : ℕ) : Prop :=
  Stops ends next (asked next cursor a n) (a n)

variable {act ends next} {cursor : String} {s s' : σ} {a : ℕ → α}

theorem walk_isSome_iff {n : ℕ} : (walk act ends next cursor s ((range n).map a)).isSome ↔
    ∃ m < n, StopsAt ends next cursor a m := by
  induction n generalizing cursor s a with
  | zero => simp [walk]
  | succ n ih =>
    have hshift (m : ℕ) : StopsAt ends next (next (a 0)) (a ∘ Nat.succ) m ↔
        StopsAt ends next cursor a (m + 1) := by
      cases m <;> rfl
    have hzero : StopsAt ends next cursor a 0 ↔ Stops ends next cursor (a 0) := .rfl
    rw [range_succ_eq_map, map_cons, map_map, Nat.exists_lt_succ_left, walk]
    by_cases hfirst : Stops ends next cursor (a 0)
    · simp [hzero, hfirst]
    · simp only [if_neg hfirst, ih, hshift]
      simp [hzero, hfirst]

theorem walk_returns_iff : (∃ n, (walk act ends next cursor s ((range n).map a)).isSome) ↔
    ∃ n, StopsAt ends next cursor a n := by
  simp only [walk_isSome_iff]
  constructor
  · rintro ⟨n, m, -, hm⟩
    exact ⟨m, hm⟩
  · rintro ⟨m, hm⟩
    exact ⟨m + 1, m, m.lt_succ_self, hm⟩

theorem walk_append {l l' : List α} (h : walk act ends next cursor s l = some s') :
    walk act ends next cursor s (l ++ l') = some s' := by
  induction l generalizing cursor s with
  | nil => cases h
  | cons x rest ih =>
    rw [walk] at h
    rw [cons_append, walk]
    split
    · rwa [if_pos ‹_›] at h
    · exact ih (by rwa [if_neg ‹_›] at h)

theorem walk_mono {n m : ℕ} (hnm : n ≤ m)
    (h : walk act ends next cursor s ((range n).map a) = some s') :
    walk act ends next cursor s ((range m).map a) = some s' := by
  obtain ⟨k, rfl⟩ := Nat.exists_eq_add_of_le hnm
  rw [range_add, map_append]
  exact walk_append h

theorem walk_induction {P : σ → Prop} (hact : ∀ s x, P s → P (act s x)) {answers : List α}
    (hs : P s) (h : walk act ends next cursor s answers = some s') : P s' := by
  induction answers generalizing cursor s with
  | nil => cases h
  | cons x rest ih =>
    rw [walk] at h
    split at h
    · cases h
      exact hact s x hs
    · exact ih (hact s x hs) h

end walk

/-! ## The markets -/

structure EventSummary where
  conditionID : String
  title : String

structure MarketSummary where
  conditionID : String
  title : String
  state : String
  category : String
  event : Option EventSummary

structure WormMarket where
  conditionID : String
  title : String
  eventConditionID : String
  eventTitle : String
  lastSeenAt : ℕ
  deriving DecidableEq

abbrev Store := Table WormMarket.conditionID

def countWormMarkets (s : Store) : ℕ := s.rows.length

def listWormEventConditionIDs (s : Store) : List String :=
  (s.rows.map WormMarket.eventConditionID).filter (· ≠ "")

structure Notification where
  eventConditionID : String
  title : String
  body : String
  deriving DecidableEq

def firstNonEmptyWormValue (values : List String) : String :=
  ((values.map Text.trimSpace).find? (· ≠ "")).getD "-"

def newWormEventNotification (m : WormMarket) : Notification :=
  let eventTitle := firstNonEmptyWormValue [m.eventTitle, m.title, m.eventConditionID]
  { eventConditionID := m.eventConditionID
    title := s!"Worm new event: {eventTitle}"
    body := "\n".intercalate [s!"Event: {eventTitle}",
      s!"Event condition ID: {m.eventConditionID}",
      s!"Market: {firstNonEmptyWormValue [m.title, m.conditionID]}",
      s!"Market condition ID: {m.conditionID}"] }

def newWormEventNotifications (events : List WormMarket) : List Notification :=
  (orderBy WormMarket.eventConditionID events).map newWormEventNotification

structure Page where
  markets : List MarketSummary
  nextCursor : Option String

/-- One turn of the loop: the page that is due, and which of the calls succeed. -/
structure Round where
  page : Page
  lists : Bool := true
  upserts : Bool := true
  samples : Bool := true

def Round.ends (r : Round) : Bool := !(r.lists && r.upserts && r.samples)

def Round.next (r : Round) : String := Text.trimSpace (r.page.nextCursor.getD "")

/-- What a pass has stored so far, with the markets that it inserted. -/
structure Progress where
  store : Store
  seen : List String := []
  inserted : List WormMarket := []
  newEvents : List WormMarket := []
  failed : Bool := false

section pass
-- the comparison of texts that ignores case
variable (equalFold : String → String → Bool)

def isSyncedWormMarket (m : MarketSummary) : Bool :=
  Text.trimSpace m.conditionID ≠ "" && (m.event.any fun e => Text.trimSpace e.conditionID ≠ "") &&
    equalFold (Text.trimSpace m.state) "open" && equalFold (Text.trimSpace m.category) "sports"

def MarketSummary.item (startedAt : ℕ) (m : MarketSummary) : WormMarket :=
  ⟨m.conditionID, m.title, (m.event.map EventSummary.conditionID).getD "",
    (m.event.map EventSummary.title).getD "", startedAt⟩

def newItems (startedAt : ℕ) : List String → List MarketSummary → List WormMarket
  | _, [] => []
  | seen, m :: rest =>
    if isSyncedWormMarket equalFold m && m.conditionID ∉ seen then
      m.item startedAt :: newItems startedAt (m.conditionID :: seen) rest
    else newItems startedAt seen rest

/-- Add the first inserted market of every event that was not known before. -/
def collect (existing : List String) (newEvents inserted : List WormMarket) : List WormMarket :=
  inserted.foldl (fun events m =>
    if m.eventConditionID ∈ existing ∨ m.eventConditionID ∈ events.map WormMarket.eventConditionID
    then events else events ++ [m]) newEvents

def Progress.act (existing : List String) (startedAt : ℕ) (p : Progress) (r : Round) : Progress :=
  if ¬r.lists then { p with failed := true } else
  let items := newItems equalFold startedAt p.seen r.page.markets
  let seen := items.map WormMarket.conditionID ++ p.seen
  if ¬r.upserts then { p with seen, failed := true } else
  let inserted := items.filter fun m => (p.store.get? m.conditionID).isNone
  { store := items.foldl upsert p.store
    seen
    inserted := p.inserted ++ inserted
    newEvents := collect existing p.newEvents inserted
    failed := ¬r.samples }

structure Pass where
  startedAt : ℕ
  rounds : List Round
  counts : Bool := true
  deletes : Bool := true

/-- The markets of the listing that are kept, whether or not the pass gets to them. -/
def items (startedAt : ℕ) : String → List String → List Round → List WormMarket
  | _, _, [] => []
  | cursor, seen, r :: rest =>
    let page := newItems equalFold startedAt seen r.page.markets
    page ++ if r.next = "" ∨ r.next = cursor then [] else
      items startedAt r.next (page.map WormMarket.conditionID ++ seen) rest

/-- The events of the listing. -/
def Pass.listed (pass : Pass) : List String :=
  (items equalFold pass.startedAt "" [] pass.rounds).map WormMarket.eventConditionID

/-- None of the calls of the pass fails. -/
def Pass.completes (pass : Pass) : Bool :=
  pass.counts && pass.deletes && pass.rounds.all fun r => !r.ends

/-- A call fails before the first page is stored. -/
def Pass.storesNothing (pass : Pass) : Bool :=
  !pass.counts || pass.rounds.head?.any fun r => !(r.lists && r.upserts)

/-- An event that has left the listing does not come back. -/
def Steady : List (List String) → Prop
  | l :: l' :: rest => (∀ e ∈ l, e ∉ l' → ∀ k ∈ rest, e ∉ k) ∧ Steady (l' :: rest)
  | _ => True

structure Result where
  before : Store
  after : Store
  inserted : List WormMarket := []
  failed : Bool := true
  notifications : List Notification := []

def listMarkets (existing : List String) (startedAt : ℕ) (p : Progress) (rounds : List Round) :
    Option Progress :=
  walk (Progress.act equalFold existing startedAt) Round.ends Round.next "" p rounds

def syncWormMarketsOnce (s : Store) (pass : Pass) : Option Result :=
  if ¬pass.counts then some { before := s, after := s } else do
    let p ← listMarkets equalFold (listWormEventConditionIDs s) pass.startedAt { store := s }
      pass.rounds
    if p.failed || ¬pass.deletes then
      return { before := s, after := p.store, inserted := p.inserted }
    return {
      before := s
      after := p.store.filter fun m => pass.startedAt ≤ m.lastSeenAt
      inserted := p.inserted
      failed := false
      notifications :=
        if countWormMarkets s = 0 then [] else newWormEventNotifications p.newEvents }

def syncs : Store → List Pass → Option (List Result)
  | _, [] => some []
  | s, pass :: rest => do
    let r ← syncWormMarketsOnce equalFold s pass
    return r :: (← syncs r.after rest)

end pass

variable {equalFold : String → String → Bool} {s : Store}

/-! ## Announcements -/

def Result.announced (r : Result) : List String := r.notifications.map Notification.eventConditionID

/-- The events of which the pass inserted the first market. -/
def Result.firstInserted (r : Result) : List String :=
  (r.inserted.map WormMarket.eventConditionID).filter (· ∉ listWormEventConditionIDs r.before)

/-- The collected markets stand for the events that were inserted and not known, each once. -/
structure Collected (existing : List String) (inserted events : List WormMarket) : Prop where
  nodup : (events.map WormMarket.eventConditionID).Nodup
  mem : ∀ e, e ∈ events.map WormMarket.eventConditionID ↔
    e ∈ inserted.map WormMarket.eventConditionID ∧ e ∉ existing

theorem Collected.collect {existing : List String} {l inserted events : List WormMarket}
    (h : Collected existing inserted events) :
    Collected existing (inserted ++ l) (collect existing events l) := by
  induction l generalizing inserted events with
  | nil => simpa [Markets.collect] using h
  | cons m rest ih =>
    rw [Markets.collect, foldl_cons, ← Markets.collect, append_cons]
    apply ih
    split
    · rename_i hknown
      refine ⟨h.nodup, fun e => ?_⟩
      have := h.mem e
      have := h.mem m.eventConditionID
      grind
    · rename_i hnew
      have := h.nodup
      refine ⟨?_, fun e => ?_⟩
      · simp only [map_append, map_cons, map_nil]
        grind
      · have := h.mem e
        simp only [map_append, map_cons, map_nil, mem_append]
        grind

theorem collected_of_listMarkets {existing : List String} {startedAt : ℕ} {rounds : List Round}
    {p : Progress} (h : listMarkets equalFold existing startedAt { store := s } rounds = some p) :
    Collected existing p.inserted p.newEvents := by
  refine walk_induction (P := fun p => Collected existing p.inserted p.newEvents) ?_ ?_ h
  · intro p r hp
    unfold Progress.act
    split
    · exact hp
    · dsimp only
      split
      · exact hp
      · exact hp.collect
  · exact ⟨nodup_nil, by simp⟩

/-- A pass announces the events of which it inserted the first market, each once, or nothing. -/
theorem announced_of_sync {pass : Pass} {r : Result}
    (h : syncWormMarketsOnce equalFold s pass = some r) : r.before = s ∧ r.announced.Nodup ∧
      (countWormMarkets s = 0 → r.announced = []) ∧ (∀ e ∈ r.announced, e ∈ r.firstInserted) ∧
      (r.failed = false → countWormMarkets s ≠ 0 → ∀ e ∈ r.firstInserted, e ∈ r.announced) := by
  unfold syncWormMarketsOnce at h
  split at h
  · cases h
    simp [Result.announced]
  · obtain ⟨p, hp, h⟩ := Option.bind_eq_some_iff.mp h
    have hc := collected_of_listMarkets hp
    split at h
    · cases h
      simp [Result.announced]
    · cases h
      by_cases hcount : countWormMarkets s = 0
      · simp [Result.announced, hcount]
      · have hperm :
          ((newWormEventNotifications p.newEvents).map Notification.eventConditionID).Perm
            (p.newEvents.map WormMarket.eventConditionID) := by
          rw [newWormEventNotifications, List.map_map]
          exact (perm_orderBy _ _).map _
        simp only [Result.announced, Result.firstInserted, hcount, if_false, List.mem_filter,
          hperm.mem_iff, hc.mem, hperm.nodup_iff, decide_eq_true_eq]
        exact ⟨trivial, hc.nodup, nofun, fun _ he => he, fun _ _ _ he => he⟩

/-! ## Passes that complete -/

section completing
variable {startedAt : ℕ} {seen : List String} {m : WormMarket}

theorem mem_newItems {l : List MarketSummary} (h : m ∈ newItems equalFold startedAt seen l) :
    m.lastSeenAt = startedAt ∧ m.eventConditionID ≠ "" ∧ m.conditionID ∉ seen := by
  induction l generalizing seen with
  | nil => cases h
  | cons x rest ih =>
    rw [newItems] at h
    split at h
    · rename_i hx
      obtain rfl | h := mem_cons.mp h
      · simp only [isSyncedWormMarket, check_iff, Option.any_eq_true] at hx
        obtain ⟨⟨⟨⟨-, e, he, hne⟩, -⟩, -⟩, hseen⟩ := hx
        refine ⟨rfl, ?_, hseen⟩
        rintro (hempty : (x.event.map EventSummary.conditionID).getD "" = "")
        rw [he, Option.map_some, Option.getD_some] at hempty
        rw [hempty] at hne
        exact hne (by decide +kernel)
      · obtain ⟨hat, hne, hseen⟩ := ih h
        exact ⟨hat, hne, fun hmem => hseen (mem_cons_of_mem _ hmem)⟩
    · exact ih h

theorem nodup_newItems {l : List MarketSummary} :
    ((newItems equalFold startedAt seen l).map WormMarket.conditionID).Nodup := by
  induction l generalizing seen with
  | nil => exact nodup_nil
  | cons x rest ih =>
    rw [newItems]
    split
    · refine nodup_cons.mpr ⟨fun hmem => ?_, ih⟩
      obtain ⟨m, hm, hid⟩ := mem_map.mp hmem
      exact (mem_newItems hm).2.2 (hid ▸ mem_cons_self)
    · exact ih

/-- When no call fails, the loop stores the markets of the listing, and inserts no others. -/
theorem walk_stores {existing : List String} {rounds : List Round} {cursor : String}
    {p p' : Progress} (hrounds : ∀ r ∈ rounds, r.ends = false) (hfailed : p.failed = false)
    (h : walk (Progress.act equalFold existing startedAt) Round.ends Round.next cursor p rounds =
      some p') : p'.failed = false ∧
      (∀ m ∈ p'.inserted, m ∈ p.inserted ∨ m ∈ items equalFold startedAt cursor p.seen rounds) ∧
      (∀ m ∈ p.store, m.conditionID ∈ p.seen → m ∈ p'.store) ∧
      ∀ m ∈ items equalFold startedAt cursor p.seen rounds,
        m ∈ p'.store ∧ m.lastSeenAt = startedAt ∧ m.eventConditionID ≠ "" := by
  induction rounds generalizing cursor p with
  | nil => cases h
  | cons r rest ih =>
    obtain ⟨hr, hrest⟩ := forall_mem_cons.mp hrounds
    have hstops : Stops Round.ends Round.next cursor r ↔ r.next = "" ∨ r.next = cursor := by
      simp [Stops, hr]
    simp only [Round.ends, Bool.not_eq_false', Bool.and_eq_true] at hr
    simp only [walk, hstops, Progress.act, hr, not_true, if_false] at h
    rw [items]
    generalize hpage : newItems equalFold startedAt p.seen r.page.markets = page at *
    have hmem {m : WormMarket} : m ∈ page.foldl upsert p.store ↔
        m ∈ page ∨ (m ∈ p.store ∧ m.conditionID ∉ page.map WormMarket.conditionID) :=
      mem_foldl_upsert (hpage ▸ nodup_newItems)
    have hkept {m : WormMarket} (hm : m ∈ p.store) (hseen : m.conditionID ∈ p.seen) :
        m ∈ page.foldl upsert p.store := by
      refine hmem.mpr (.inr ⟨hm, fun hnew => ?_⟩)
      obtain ⟨m', hm', hid⟩ := mem_map.mp hnew
      rw [← hpage] at hm'
      exact (mem_newItems hm').2.2 (hid ▸ hseen)
    have hnew {m : WormMarket} (hm : m ∈ page) :
        m.lastSeenAt = startedAt ∧ m.eventConditionID ≠ "" := by
      rw [← hpage] at hm
      exact ⟨(mem_newItems hm).1, (mem_newItems hm).2.1⟩
    split at h <;> rename_i hlast
    · cases h
      simp only [hlast, if_true, append_nil]
      refine ⟨by simp, fun m hm => ?_, fun m => hkept, fun m hm => ⟨hmem.mpr (.inl hm), hnew hm⟩⟩
      exact (mem_append.mp hm).imp_right mem_of_mem_filter
    · obtain ⟨hok, hinserted, hstore, hitems⟩ := ih hrest (by simp) h
      simp only [hlast, if_false, mem_append]
      refine ⟨hok, fun m hm => ?_, fun m hm hseen => ?_, fun m hm => ?_⟩
      · obtain hm | hm := hinserted m hm
        · exact (mem_append.mp hm).imp_right fun hm => .inl (mem_of_mem_filter hm)
        · exact .inr (.inr hm)
      · exact hstore m (hkept hm hseen) (mem_append_right _ hseen)
      · obtain hm | hm := hm
        · exact ⟨hstore m (hmem.mpr (.inl hm)) (mem_append_left _ (mem_map_of_mem hm)), hnew hm⟩
        · exact hitems m hm

/-- After a pass that completes, the events of its listing are stored, and what it inserted is
of the listing. -/
theorem sync_of_completes {pass : Pass} {r : Result} (hpass : pass.completes)
    (h : syncWormMarketsOnce equalFold s pass = some r) : r.failed = false ∧
      (∀ e ∈ r.firstInserted, e ∈ pass.listed equalFold) ∧
      ∀ e ∈ pass.listed equalFold, e ∈ listWormEventConditionIDs r.after := by
  simp only [Pass.completes, check_iff, all_eq_true, Bool.not_eq_true'] at hpass
  obtain ⟨⟨hcounts, hdeletes⟩, hrounds⟩ := hpass
  simp only [syncWormMarketsOnce, hcounts, hdeletes, not_true, if_false] at h
  obtain ⟨p, hp, h⟩ := Option.bind_eq_some_iff.mp h
  obtain ⟨hfailed, hinserted, -, hstored⟩ := walk_stores hrounds rfl hp
  simp only [hfailed, Bool.false_or, decide_false, Bool.false_eq_true, if_false] at h
  cases h
  refine ⟨rfl, fun e he => ?_, fun e he => ?_⟩
  · obtain ⟨m, hm, rfl⟩ := mem_map.mp (mem_of_mem_filter he)
    exact mem_map_of_mem ((hinserted m hm).resolve_left not_mem_nil)
  · obtain ⟨m, hm, rfl⟩ := mem_map.mp he
    obtain ⟨hmem, hat, hne⟩ := hstored m hm
    have hmem : m ∈ p.store.filter fun m => pass.startedAt ≤ m.lastSeenAt :=
      Table.mem_filter.mpr ⟨hmem, by simp [hat]⟩
    exact mem_filter.mpr ⟨mem_map_of_mem hmem, by simpa using hne⟩

theorem sync_of_storesNothing {pass : Pass} {r : Result} (hpass : pass.storesNothing)
    (h : syncWormMarketsOnce equalFold s pass = some r) :
    r.after = s ∧ r.firstInserted = [] ∧ r.announced = [] := by
  by_cases hcounts : pass.counts
  · simp only [Pass.storesNothing, hcounts, Bool.not_true, Bool.false_or] at hpass
    obtain ⟨r₁, hr₁, hfails⟩ := (Option.any_eq_true _ _).mp hpass
    obtain ⟨rest, hrest⟩ := head?_eq_some_iff.mp hr₁
    have hstops (cursor : String) : Stops Round.ends Round.next cursor r₁ := by
      simp only [Bool.not_eq_true', Bool.and_eq_false_iff] at hfails
      obtain h | h := hfails <;> simp [Stops, Round.ends, h]
    simp only [syncWormMarketsOnce, hcounts, not_true, if_false, listMarkets, hrest, walk, hstops,
      if_true, Option.bind_eq_bind, Option.bind_some] at h
    cases hlists : r₁.lists <;> cases hupserts : r₁.upserts
    all_goals simp_all [Progress.act, Result.firstInserted, Result.announced]
    all_goals subst h; simp
  · simp only [syncWormMarketsOnce, hcounts] at h
    cases h
    simp [Result.firstInserted, Result.announced]

end completing

theorem results_of_syncs {passes : List Pass} {rs : List Result}
    (h : syncs equalFold s passes = some rs) :
    ∀ r ∈ rs, ∃ pass ∈ passes, syncWormMarketsOnce equalFold r.before pass = some r := by
  induction passes generalizing s rs with
  | nil =>
    cases h
    simp
  | cons pass rest ih =>
    obtain ⟨r, hr, h⟩ := Option.bind_eq_some_iff.mp h
    obtain ⟨rs, hrs, h⟩ := Option.bind_eq_some_iff.mp h
    cases h
    obtain ⟨rfl, -⟩ := announced_of_sync hr
    refine forall_mem_cons.mpr ⟨⟨pass, mem_cons_self, hr⟩, fun r' hr' => ?_⟩
    obtain ⟨pass', hpass', h'⟩ := ih hrs r' hr'
    exact ⟨pass', mem_cons_of_mem _ hpass', h'⟩

/-- From a store that has the events of a listing on, those events are not announced, and every
event that is inserted is announced once. -/
theorem announced_once_from {known : List String} {passes : List Pass} {rs : List Result}
    (h : syncs equalFold s passes = some rs)
    (hknown : ∀ e ∈ known, e ∈ listWormEventConditionIDs s) (hsome : known ≠ [])
    (hpasses : ∀ pass ∈ passes, pass.completes ∨ pass.storesNothing)
    (hlisted : ∀ pass ∈ passes, pass.completes → pass.listed equalFold ≠ [])
    (hsteady : Steady (known :: (passes.filter Pass.completes).map (Pass.listed equalFold))) :
    (∀ l r l', rs = l ++ r :: l' → ∀ e ∈ r.firstInserted,
      ((r :: l').flatMap Result.announced).count e = 1) ∧
    ∀ e ∈ known, ∀ r ∈ rs, e ∉ r.announced := by
  induction passes generalizing s known rs with
  | nil =>
    cases h
    simp
  | cons pass rest ih =>
    obtain ⟨r, hr, h⟩ := Option.bind_eq_some_iff.mp h
    obtain ⟨rs, hrs, h⟩ := Option.bind_eq_some_iff.mp h
    cases h
    obtain ⟨hpass, hrest⟩ := forall_mem_cons.mp hpasses
    obtain ⟨hone, hlisted⟩ := forall_mem_cons.mp hlisted
    by_cases hcompletes : pass.completes
    · obtain ⟨hok, hfirst, hafter⟩ := sync_of_completes hcompletes hr
      obtain ⟨hbefore, hnodup, -, hsub, hall⟩ := announced_of_sync hr
      rw [filter_cons_of_pos hcompletes, map_cons, Steady] at hsteady
      obtain ⟨honce, hnever⟩ := ih hrs hafter (hone hcompletes) hrest hlisted hsteady.2
      refine ⟨fun l r' l' heq e he => ?_, fun e he => forall_mem_cons.mpr ⟨fun hmem => ?_, ?_⟩⟩
      · cases l with
        | cons _ l =>
          obtain ⟨-, heq⟩ := cons.inj heq
          exact honce l r' l' heq e he
        | nil =>
          -- the pass announces it, and no later one does
          obtain ⟨rfl, rfl⟩ := cons.inj heq
          have hcount : countWormMarkets s ≠ 0 := by
            obtain ⟨e, he⟩ := exists_mem_of_ne_nil _ hsome
            obtain ⟨m, hm, -⟩ := mem_map.mp (mem_of_mem_filter (hknown e he))
            exact (length_pos_of_mem hm).ne'
          have hlater : (rs.flatMap Result.announced).count e = 0 := by
            rw [count_eq_zero, mem_flatMap]
            rintro ⟨r', hr', he'⟩
            exact hnever e (hfirst e he) r' hr' he'
          rw [flatMap_cons, count_append, hlater,
            count_eq_one_of_mem hnodup (hall hok hcount e he)]
      · -- the store had it before the pass
        have hnew := (mem_filter.mp (hsub e hmem)).2
        rw [hbefore] at hnew
        simp [hknown e he] at hnew
      · intro r' hr' hmem
        by_cases hstays : e ∈ pass.listed equalFold
        · exact hnever e hstays r' hr' hmem
        -- it has left, and does not come back
        obtain ⟨pass', hpass', hsync⟩ := results_of_syncs hrs r' hr'
        obtain hdone | hnothing := hrest pass' hpass'
        · refine hsteady.1 e he hstays _ (mem_map_of_mem (mem_filter.mpr ⟨hpass', hdone⟩)) ?_
          exact (sync_of_completes hdone hsync).2.1 e ((announced_of_sync hsync).2.2.2.1 e hmem)
        · rw [(sync_of_storesNothing hnothing hsync).2.2] at hmem
          cases hmem
    · obtain ⟨hafter, hfirst, hannounced⟩ :=
        sync_of_storesNothing (hpass.resolve_left hcompletes) hr
      rw [filter_cons_of_neg hcompletes] at hsteady
      obtain ⟨honce, hnever⟩ := ih (hafter ▸ hrs) hknown hsome hrest hlisted hsteady
      refine ⟨fun l r' l' heq e he => ?_, fun e he => forall_mem_cons.mpr
        ⟨by simp [hannounced], hnever e he⟩⟩
      cases l with
      | cons _ l => exact honce l r' l' (cons.inj heq).2 e he
      | nil =>
        obtain ⟨rfl, -⟩ := cons.inj heq
        simp [hfirst] at he

/-- A run begins on an empty store with a pass that completes, and each later pass completes or
fails before it stores anything; a listing is never empty, and no event comes back after it has
left the listing.  Then every event that is inserted is announced once, and those of the first
listing never. -/
theorem new_events_announced_once {first : Pass} {passes : List Pass} {r₀ : Result}
    {rs : List Result} (h : syncs equalFold .empty (first :: passes) = some (r₀ :: rs))
    (hfirst : first.completes) (hpasses : ∀ pass ∈ passes, pass.completes ∨ pass.storesNothing)
    (hlisted : ∀ pass ∈ first :: passes, pass.completes → pass.listed equalFold ≠ [])
    (hsteady : Steady (((first :: passes).filter Pass.completes).map (Pass.listed equalFold))) :
    (∀ l r l', rs = l ++ r :: l' → ∀ e ∈ r.firstInserted,
      ((r :: l').flatMap Result.announced).count e = 1) ∧
    ∀ e ∈ first.listed equalFold, ∀ r ∈ r₀ :: rs, e ∉ r.announced := by
  obtain ⟨r, hr, h⟩ := Option.bind_eq_some_iff.mp h
  obtain ⟨_, hrs, h⟩ := Option.bind_eq_some_iff.mp h
  cases h
  obtain ⟨hone, hlisted⟩ := forall_mem_cons.mp hlisted
  rw [filter_cons_of_pos hfirst, map_cons] at hsteady
  obtain ⟨honce, hnever⟩ := announced_once_from hrs (sync_of_completes hfirst hr).2.2
    (hone hfirst) hpasses hlisted hsteady
  refine ⟨honce, fun e he => forall_mem_cons.mpr ⟨?_, hnever e he⟩⟩
  rw [(announced_of_sync hr).2.2.1 rfl]
  exact not_mem_nil

namespace Sample

def market (id event : String) : MarketSummary :=
  ⟨id, "Title", "open", "sports", some ⟨event, "Event"⟩⟩

def same (s t : String) : Bool := s = t

/-- Two pages, of which the second is there only if the call for it succeeds. -/
def pass (startedAt : ℕ) (lists : Bool) (more : List MarketSummary) : Pass where
  startedAt := startedAt
  rounds := [{ page := ⟨[market "m1" "e1"], some "next"⟩ },
    { page := ⟨market "m2" "e2" :: more, none⟩, lists := lists }]

def later : Pass := pass 2 true [market "m3" "e3"]

end Sample

open Sample

theorem new_events_announced_once_sample :
    ∃ r₀ r, syncs Sample.same .empty [Sample.pass 1 true [], Sample.later] = some [r₀, r] ∧
      r.announced.count "e3" = 1 ∧ "e1" ∉ r.announced := by
  obtain ⟨rs, hrs, hfits⟩ := (Option.any_eq_true (fun rs : List Result => rs.length = 2 ∧
    rs[1]?.any fun r => r.firstInserted = ["e3"])
    (syncs same .empty [pass 1 true [], later])).mp (by decide +kernel)
  obtain ⟨hlength, hfits⟩ := of_decide_eq_true hfits
  obtain ⟨r₀, r, rfl⟩ := length_eq_two.mp hlength
  have hfirst : r.firstInserted = ["e3"] := of_decide_eq_true hfits
  obtain ⟨honce, hnever⟩ := new_events_announced_once hrs (by decide +kernel) (by decide +kernel)
    (by decide +kernel) ⟨by simp, trivial⟩
  refine ⟨r₀, r, hrs, ?_, hnever "e1" (by decide +kernel) r (by simp)⟩
  simpa using honce [] r [] rfl "e3" (by simp [hfirst])

/-- The second page of the first listing cannot be had.  The next pass announces its event. -/
theorem partial_population_announced :
    "e2" ∈ (Sample.pass 1 false []).listed Sample.same ∧
      (syncs Sample.same .empty [Sample.pass 1 false [], Sample.pass 2 true []]).map
        (List.map Result.announced) = some [[], ["e2"]] := by
  decide +kernel

/-! ## Loops that do not return -/

section sports
variable {ε σ : Type}

structure EventPage (ε : Type) where
  events : List ε
  nextCursor : Option String

/-- What a call answers: nothing when it fails, and then maybe no page. -/
abbrev EventReply (ε : Type) := Option (Option (EventPage ε))

def EventReply.ends (r : EventReply ε) : Bool := r.join.all fun page => page.events.isEmpty

def EventReply.next (r : EventReply ε) : String :=
  Text.trimSpace ((r.join.bind EventPage.nextCursor).getD "")

/-- What was collected, or nothing after an error. -/
def EventReply.act (add : σ → ε → σ) (s : Option σ) : EventReply ε → Option σ
  | none => none
  | some none => s
  | some (some page) => s.map (page.events.foldl add)

def listSportsHistoryEvents (add : σ → ε → σ) (s : Option σ) (replies : List (EventReply ε)) :
    Option (Option σ) :=
  walk (EventReply.act add) EventReply.ends EventReply.next "" s replies

/-- The events that are closed are listed first, then those that are not. -/
def fetchSportsHistoryEvents (add : σ → ε → σ) (s : σ) (replies : Bool → List (EventReply ε)) :
    Option (Option σ) := do
  match ← listSportsHistoryEvents add (some s) (replies true) with
  | none => return none
  | some s => listSportsHistoryEvents add (some s) (replies false)

abbrev EventReply.StopsAt (replies : ℕ → EventReply ε) : ℕ → Prop :=
  Markets.StopsAt EventReply.ends EventReply.next "" replies

variable {add : σ → ε → σ} {s : σ}

/-- When both loops return, the events are fetched, or an error is. -/
theorem fetchSportsHistoryEvents_returns {replies : Bool → ℕ → EventReply ε}
    (h : ∀ closed, ∃ n, EventReply.StopsAt (replies closed) n) :
    ∃ n, (fetchSportsHistoryEvents add s fun closed =>
      (range n).map (replies closed)).isSome := by
  have hreturns (s : Option σ) (closed : Bool) : ∃ n s',
      listSportsHistoryEvents add s ((range n).map (replies closed)) = some s' := by
    simpa only [listSportsHistoryEvents, Option.isSome_iff_exists]
      using walk_returns_iff.mpr (h closed)
  obtain ⟨n, o, hn⟩ := hreturns (some s) true
  cases o with
  | none => exact ⟨n, by simp [fetchSportsHistoryEvents, hn]⟩
  | some s' =>
    obtain ⟨m, o, hm⟩ := hreturns (some s') false
    refine ⟨max n m, ?_⟩
    have hclosed := walk_mono (le_max_left n m) hn
    have hopen := walk_mono (le_max_right n m) hm
    simp [fetchSportsHistoryEvents, listSportsHistoryEvents, hclosed, hopen]

end sports

/-- Whatever the answers are, the loop over the markets returns exactly if some call fails, or
some page names no next one or the cursor it was asked with.  The loop over the past events
returns exactly if some call fails, an answer has no page or an empty one, or it names no next
page or the cursor it was asked with; when the loops over both kinds of events do, the fetch of
them returns. -/
theorem listing_returns_iff :
    (∀ (existing : List String) (startedAt : ℕ) (p : Progress) (rounds : ℕ → Round),
      (∃ n, (listMarkets equalFold existing startedAt p ((List.range n).map rounds)).isSome) ↔
        ∃ n, StopsAt Round.ends Round.next "" rounds n) ∧
    ∀ (ε σ : Type) (add : σ → ε → σ),
      (∀ (s : Option σ) (replies : ℕ → EventReply ε),
        (∃ n, (listSportsHistoryEvents add s ((List.range n).map replies)).isSome) ↔
          ∃ n, EventReply.StopsAt replies n) ∧
      ∀ (s : σ) (replies : Bool → ℕ → EventReply ε),
        (∀ closed, ∃ n, EventReply.StopsAt (replies closed) n) →
          ∃ n, (fetchSportsHistoryEvents add s fun closed =>
            (List.range n).map (replies closed)).isSome :=
  ⟨fun _ _ _ _ => walk_returns_iff,
    fun _ _ _ => ⟨fun _ _ => walk_returns_iff, fun _ _ => fetchSportsHistoryEvents_returns⟩⟩

def Sample.turn (n : ℕ) : String := if n % 2 = 0 then "a" else "b"

theorem Sample.walk_turn {σ α : Type} {act : σ → α → σ} {ends : α → Bool} {next : α → String}
    (a : ℕ → α) (hends : ∀ n, ends (a n) = false) (hnext : ∀ n, next (a n) = turn n) (s : σ)
    (n : ℕ) :
    walk act ends next "" s ((range n).map a) = none := by
  have hne (n : ℕ) : turn n ≠ "" := by
    unfold turn
    split <;> decide
  rw [← Option.not_isSome_iff_eq_none, walk_isSome_iff]
  rintro ⟨m, -, hm⟩
  rw [StopsAt, Stops, hends, hnext] at hm
  obtain hm | hm | hm := hm
  · cases hm
  · exact hne m hm
  · cases m with
    | zero => exact hne 0 hm
    | succ m =>
      rw [asked, hnext, turn, turn] at hm
      split at hm <;> split at hm <;> first | omega | exact absurd hm (by decide)

/-- Two cursors in turn keep both loops going, whatever the pages hold. -/
theorem cursor_cycle_never_returns :
    (∃ rounds : ℕ → Round, (∀ n, (rounds n).page.markets ≠ [] ∧ (rounds n).next ∈ ["a", "b"]) ∧
      ∀ n, listMarkets Sample.same [] 0 { store := .empty } ((List.range n).map rounds) = none) ∧
    ∃ replies : ℕ → EventReply Unit, (∀ n, (replies n).next ∈ ["a", "b"]) ∧
      ∀ n, fetchSportsHistoryEvents (fun k _ => k + 1) 0 (fun _ => (List.range n).map replies) =
        none := by
  have hmem (n : ℕ) : Text.trimSpace (turn n) ∈ ["a", "b"] := by
    unfold turn
    split <;> decide
  have hnext (n : ℕ) : Text.trimSpace (turn n) = turn n := by
    unfold turn
    split <;> decide
  let rounds (n : ℕ) : Round := { page := ⟨[market "m1" "e1"], some (turn n)⟩ }
  let replies (n : ℕ) : EventReply Unit := some (some ⟨[()], some (turn n)⟩)
  refine ⟨⟨rounds, fun n => ⟨cons_ne_nil _ _, hmem n⟩, walk_turn rounds (fun _ => rfl) hnext _⟩,
    replies, hmem, fun n => ?_⟩
  have hlist : listSportsHistoryEvents (fun k _ => k + 1) (some 0) ((range n).map replies) = none :=
    walk_turn replies (fun _ => rfl) hnext _ n
  simp only [fetchSportsHistoryEvents, hlist, Option.bind_eq_bind, Option.bind_none]

end Athena.Markets
