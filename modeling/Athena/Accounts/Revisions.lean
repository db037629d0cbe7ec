import Athena.Accounts.World

/-!
# Access revisions in memory

An update publishes what the store committed for it without a look at what is in memory by
then; a registration leaves a newer revision alone.  The updates of one process exclude
each other, so the revision of an account in memory falls only if another process
committed a newer one and a registration brought it in.
-/

namespace Athena.Accounts

open Athena.Lib Pool Option List Pool.Event Shared
open Athena.Lib.Pool (history)

variable {db : Database} {accounts : ℕ → Option (Option String)} {w : World} {i account : ℕ}
  {s s' : Shared} {e : Event}

/-! ## What a call changes in memory -/

theorem access_of_serves (account : ℕ) {c : Call} {r : c.Reply} (h : serves s c r s') :
    s'.memory.access account = s.memory.access account ∨
      (∃ a, c = .publishAccess account a ∧ s'.memory.access account = some a) ∨
      ∃ a, c = .registerAccess account a ∧ s'.memory.access account = some a ∧
        ∀ b, s.memory.access account = some b → b.revision < a.revision := by
  have hframe (hp : c.writes .access = false) :
      s'.memory.access account = s.memory.access account :=
    congrFun (same_of_serves h .access hp) account
  cases c with
  | publishAccess account' a =>
    rw [h]
    by_cases ha : account = account'
    · subst ha
      exact .inr (.inl ⟨a, rfl, s.publish_access_self account a⟩)
    · exact .inl (s.publish_access_of_ne ha a)
  | registerAccess account' a =>
    obtain ⟨current, -, -, hregister⟩ | ⟨hnewer, hregister⟩ := s.register_cases account' a
    · obtain ⟨-, rfl⟩ := Prod.mk.inj (h.trans hregister)
      exact .inl rfl
    · obtain ⟨-, rfl⟩ := Prod.mk.inj (h.trans hregister)
      by_cases ha : account = account'
      · subst ha
        exact .inr (.inr ⟨a, rfl, s.publish_access_self account a, hnewer⟩)
      · exact .inl (s.publish_access_of_ne ha a)
  | _ => exact .inl (hframe rfl)

theorem le_of_registers {a r : Access} (h : serves s (.registerAccess account a) r s') :
    ∃ b, s'.memory.access account = some b ∧ a.revision ≤ b.revision := by
  obtain ⟨current, hcurrent, hle, hregister⟩ | ⟨-, hregister⟩ := s.register_cases account a
  · obtain ⟨-, rfl⟩ := Prod.mk.inj (h.trans hregister)
    exact ⟨current, hcurrent, hle⟩
  · obtain ⟨-, rfl⟩ := Prod.mk.inj (h.trans hregister)
    exact ⟨a, s.publish_access_self account a, le_rfl⟩

/-! ## One update at a time -/

theorem holdsUpdates_snoc {h : List Entry} {x : Entry} (hx : HoldsUpdates i (h ++ [x])) :
    (h = [] ∧ x = ⟨.lockUpdates i, ()⟩) ∨ (HoldsUpdates i h ∧ x ≠ ⟨.unlockUpdates i, ()⟩) := by
  obtain ⟨rest, heq, hnot⟩ := hx
  cases h with
  | nil => exact .inl ⟨rfl, (cons.inj heq).1⟩
  | cons y h =>
    obtain ⟨rfl, rfl⟩ := cons.inj heq
    exact .inr ⟨⟨h, rfl, fun hmem => hnot (mem_append_left _ hmem)⟩,
      fun hx => hnot (mem_append_right _ (by simp [hx]))⟩

theorem updates_of_drifts (h : Drifts s s') : s'.updates = s.updates := by
  obtain ⟨account, next, expected, persisted, db, -, rfl⟩ | ⟨row, table, -, rfl⟩ := h <;> rfl

theorem updates_of_holds (hw : (pool db accounts).Reachable w)
    (h : HoldsUpdates i (history w.log i)) : w.shared.updates = some i := by
  suffices hJ : ∀ i, HoldsUpdates i (history w.log i) → w.shared.updates = some i from hJ i h
  refine Pool.Reachable.of_events (P := Rule)
    (J := fun s log => ∀ i, HoldsUpdates i (history log i) → s.updates = some i)
    obeys_of_starts (by simp [HoldsUpdates, history]) ?_ hw
  rintro w ⟨cause, before, after⟩ hw hJ rfl hlawful hrule i hi
  rw [history_snoc] at hi
  cases cause with
  | none =>
    have hi : HoldsUpdates i (history w.log i) := by simpa [entry] using hi
    exact (updates_of_drifts hlawful).trans (hJ i hi)
  | some jx =>
    obtain ⟨j, c, r⟩ := jx
    have hrule := hrule j _ rfl
    have hserves : serves w.shared c r after := hlawful
    -- the history of a turn that holds the mutex after the call
    have hhold : (j = i ∧ HoldsUpdates i (history w.log i ++ [⟨c, r⟩])) ∨
        (j ≠ i ∧ HoldsUpdates i (history w.log i)) := by
      by_cases hij : j = i <;> simpa [entry, hij] using hi
    by_cases hlock : ∃ turn, c = .lockUpdates turn
    · obtain ⟨turn, rfl⟩ := hlock
      obtain ⟨rfl, -⟩ := hrule
      obtain ⟨rfl, -⟩ | ⟨-, hi⟩ := hhold
      · rw [hserves.2]
      · exact absurd ((hJ i hi).symm.trans hserves.1) (some_ne_none i)
    by_cases hunlock : ∃ turn, c = .unlockUpdates turn
    · obtain ⟨turn, rfl⟩ := hunlock
      obtain ⟨rfl, hheld, -⟩ := hrule
      obtain ⟨rfl, hi⟩ | ⟨hne, hi⟩ := hhold
      · obtain ⟨-, heq⟩ | ⟨-, hne⟩ := holdsUpdates_snoc hi
        · cases heq
        · exact absurd rfl hne
      · exact absurd (some.inj ((hJ turn hheld).symm.trans (hJ i hi))) hne
    have hsame : after.updates = w.shared.updates :=
      same_of_serves hserves .updates (by
        cases c with
        | lockUpdates turn => exact absurd ⟨turn, rfl⟩ hlock
        | unlockUpdates turn => exact absurd ⟨turn, rfl⟩ hunlock
        | _ => rfl)
    rw [hsame]
    obtain ⟨rfl, hi⟩ | ⟨-, hi⟩ := hhold
    · obtain ⟨-, heq⟩ | ⟨hi, -⟩ := holdsUpdates_snoc hi
      · exact absurd ⟨j, congrArg Sigma.fst heq⟩ hlock
      · exact hJ j hi
    · exact hJ i hi

/-! ## The database is never behind -/

def Shared.Advances (s s' : Shared) : Prop :=
  ∀ account a, s.db.accessOf account = some a →
    ∃ a', s'.db.accessOf account = some a' ∧ a.revision ≤ a'.revision

def Shared.Behind (s : Shared) : Prop :=
  ∀ account a, s.memory.access account = some a →
    ∃ d, s.db.accessOf account = some d ∧ a.revision ≤ d.revision

theorem Shared.Advances.refl (s : Shared) : s.Advances s := fun _ a ha => ⟨a, ha, le_rfl⟩

theorem Shared.Advances.trans {s s' s'' : Shared} (h : s.Advances s') (h' : s'.Advances s'') :
    s.Advances s'' := by
  intro account a ha
  obtain ⟨b, hb, hab⟩ := h account a ha
  obtain ⟨c, hc, hbc⟩ := h' account b hb
  exact ⟨c, hc, hab.trans hbc⟩

theorem advances_of_access_eq (h : s'.db.access = s.db.access) : s.Advances s' := by
  intro account a ha
  exact ⟨a, by rw [← ha, Database.accessOf, h, Database.accessOf], le_rfl⟩

theorem advances_of_update {next persisted : Access} {expected : ℕ} {db' : Database}
    (h : updateAccountAccess s.db account next expected = .ok (persisted, db')) :
    s.Advances { s with db := db' } := by
  intro account' a ha
  have haccess := accessOf_updateAccountAccess h account'
  by_cases heq : account' = account
  · subst heq
    obtain ⟨-, -, -, ⟨head, hhead, hrevision⟩, -⟩ := updateAccountAccess_ok h
    rw [hhead, some.injEq] at ha
    refine ⟨persisted, by rw [haccess, if_pos rfl], ?_⟩
    rw [revision_updateAccountAccess h, ← ha]
    omega
  · exact ⟨a, by rw [haccess, if_neg heq, ha], le_rfl⟩

theorem advances_of_serves {c : Call} {r : c.Reply} (h : serves s c r s') : s.Advances s' := by
  by_cases hupdate : ∃ account next expected, c = .updateAccountAccess account next expected
  · obtain ⟨account, next, expected, rfl⟩ := hupdate
    obtain ⟨db, rfl, rfl | ⟨a, hx⟩, -⟩ := Committed.cases h
    · exact .refl s
    · exact advances_of_update hx
  · refine advances_of_access_eq (same_of_serves h .heads ?_)
    cases c with
    | updateAccountAccess account next expected =>
      exact absurd ⟨account, next, expected, rfl⟩ hupdate
    | _ => rfl

theorem advances_of_drifts (h : Drifts s s') : s.Advances s' := by
  obtain ⟨account, next, expected, persisted, db, hupdate, rfl⟩ | ⟨row, table, hinsert, rfl⟩ := h
  · exact advances_of_update hupdate
  · intro account a ha
    obtain ⟨old, hold, rfl⟩ := map_eq_some_iff.mp ha
    refine ⟨old.access, ?_, le_rfl⟩
    have hmem : old ∈ table := (Table.mem_insert? hinsert).mpr (.inl (Table.mem_of_get? hold))
    rw [Database.accessOf, ← Table.key_of_get? hold, Table.get?_of_mem hmem]
    rfl

theorem memory_of_drifts (h : Drifts s s') : s'.memory = s.memory := by
  obtain ⟨account, next, expected, persisted, db, -, rfl⟩ | ⟨row, table, -, rfl⟩ := h <;> rfl

theorem accessOf_of_read {a : Access} (h : serves s (.getAccountAccess account) (.ok a) s') :
    s' = s ∧ s.db.accessOf account = some a := by
  obtain ⟨hr | hr, rfl⟩ := h
  · simp only [getAccountAccess] at hr
    have hr := hr.symm
    rw [bind_eq_ok] at hr
    obtain ⟨b, hb, hvalid⟩ := hr
    split at hvalid
    · cases hvalid
      exact ⟨rfl, found_eq_ok.mp hb⟩
    · cases hvalid
  · cases hr

theorem accessOf_of_commit {next persisted : Access} {expected : ℕ}
    (h : serves s (.updateAccountAccess account next expected) (.ok persisted) s') :
    s'.db.accessOf account = some persisted ∧ persisted.revision = expected + 1 := by
  obtain ⟨db, rfl, -, hok⟩ := Committed.cases h
  have hx := hok persisted rfl
  exact ⟨by rw [accessOf_updateAccountAccess hx, if_pos rfl], revision_updateAccountAccess hx⟩

theorem steady_of_reachable (hw : (pool db accounts).Reachable w) :
    Pool.Steady Behind Advances w.shared w.log := by
  refine Pool.Reachable.of_events (P := Rule)
    (J := fun s log => Pool.Steady Behind Advances s log)
    obeys_of_starts (.nil fun account a ha => ⟨a, ha, le_rfl⟩) ?_ hw
  rintro w ⟨cause, before, after⟩ hw hs rfl hlawful hrule
  refine Pool.Steady.snoc Advances.refl Advances.trans hs ?_
  cases cause with
  | none =>
    refine ⟨fun account a ha => ?_, advances_of_drifts hlawful⟩
    rw [memory_of_drifts hlawful] at ha
    obtain ⟨d, hd, hle⟩ := hs.holds account a ha
    obtain ⟨d', hd', hle'⟩ := advances_of_drifts hlawful account d hd
    exact ⟨d', hd', hle.trans hle'⟩
  | some jx =>
    obtain ⟨j, c, r⟩ := jx
    have hserves : serves w.shared c r after := hlawful
    have hrule := hrule j _ rfl
    have hadvances := advances_of_serves hserves
    refine ⟨fun account a ha => ?_, hadvances⟩
    -- what a function was shown of the store earlier is durable, or older
    have hseen {e : Event} (he : e ∈ w.log) (hdurable : e.after.db.accessOf account = some a) :
        ∃ d, after.db.accessOf account = some d ∧ a.revision ≤ d.revision :=
      ((hs.now e he).trans hadvances) account a hdurable
    obtain hsame | ⟨b, rfl, hb⟩ | ⟨b, rfl, hb, -⟩ := access_of_serves account hserves
    · obtain ⟨d, hd, hle⟩ := hs.holds account a (hsame ▸ ha)
      obtain ⟨d', hd', hle'⟩ := hadvances account d hd
      exact ⟨d', hd', hle.trans hle'⟩
    · obtain rfl : b = a := mem_unique hb ha
      obtain ⟨current, next, expected, hhistory, -⟩ := hrule
      obtain ⟨e, he, hcause⟩ := exists_event_of_mem_history (l := w.log) (i := j)
        (x := ⟨.updateAccountAccess account next expected, .ok b⟩) (by rw [hhistory]; simp)
      exact hseen he (accessOf_of_commit ((hw.chronicle.lawful e he).serves hcause)).1
    · obtain rfl : b = a := mem_unique hb ha
      obtain ⟨e, he, hcause⟩ := exists_event_of_mem_history (l := w.log) (i := j)
        (x := ⟨.getAccountAccess account, .ok b⟩)
        (by rw [show history w.log j = _ from hrule]; simp)
      obtain ⟨hsame, hread⟩ := accessOf_of_read ((hw.chronicle.lawful e he).serves hcause)
      exact hseen he (by rw [hsame]; exact hread)

/-! ## Where a revision falls -/

def Shared.AtLeast (account n : ℕ) (s : Shared) : Prop :=
  ∃ a, s.memory.access account = some a ∧ n ≤ a.revision

/-- After the event the memory holds an older revision of an account than before, or none. -/
def Falls (account : ℕ) (e : Event) : Prop :=
  ∃ n, e.before.AtLeast account n ∧ ¬e.after.AtLeast account n

def Commits (i account : ℕ) (persisted : Access) (e : Event) : Prop :=
  ∃ next expected, e.cause = some (i, ⟨.updateAccountAccess account next expected, .ok persisted⟩)

def Publishes (i account : ℕ) (persisted : Access) (e : Event) : Prop :=
  e.cause = some (i, ⟨.publishAccess account persisted, ()⟩)

def Registers (account : ℕ) (persisted : Access) (e : Event) : Prop :=
  ∃ i current, e.cause = some (i, ⟨.registerAccess account persisted, current⟩)

/-- An update is published after a registration brought a newer revision, since its own was
committed. -/
def Overtaken (account : ℕ) (past : List Event) (e : Event) : Prop :=
  ∃ i persisted l c m, past = l ++ c :: m ∧ Commits i account persisted c ∧
    Publishes i account persisted e ∧
    ∃ d ∈ m, ∃ newer, Registers account newer d ∧ persisted.revision < newer.revision

section
variable (hlawful : e.Lawful (pool db accounts))
include hlawful

theorem publishes_of_falls (h : Falls account e) :
    ∃ i p, Publishes i account p e ∧
      e.before.AtLeast account (p.revision + 1) := by
  obtain ⟨cause, before, after⟩ := e
  obtain ⟨n, ⟨a, ha, hn⟩, hafter⟩ := h
  cases cause with
  | none =>
    refine absurd ⟨a, ?_, hn⟩ hafter
    rw [memory_of_drifts hlawful, ha]
  | some jx =>
    obtain ⟨j, c, r⟩ := jx
    obtain hsame | ⟨p, rfl, hp⟩ | ⟨p, rfl, hp, hnewer⟩ :=
      access_of_serves account (show serves before c r after from hlawful)
    · exact absurd ⟨a, hsame.trans ha, hn⟩ hafter
    · refine ⟨j, p, rfl, a, ha, ?_⟩
      by_contra hlt
      exact hafter ⟨p, hp, by omega⟩
    · have := hnewer a ha
      exact absurd ⟨p, hp, by omega⟩ hafter

theorem registers_of_rises {n : ℕ} (hbefore : ¬e.before.AtLeast account n)
    (hafter : e.after.AtLeast account n) (hnot : ∀ i p, ¬Publishes i account p e) :
    ∃ p, Registers account p e ∧ n ≤ p.revision := by
  obtain ⟨cause, before, after⟩ := e
  obtain ⟨a, ha, hle⟩ := hafter
  cases cause with
  | none => exact absurd ⟨a, memory_of_drifts hlawful ▸ ha, hle⟩ hbefore
  | some jx =>
    obtain ⟨j, c, r⟩ := jx
    obtain hsame | ⟨p, rfl, -⟩ | ⟨p, rfl, hp, -⟩ :=
      access_of_serves account (show serves before c r after from hlawful)
    · exact absurd ⟨a, hsame ▸ ha, hle⟩ hbefore
    · exact absurd rfl (hnot j p)
    · obtain rfl : p = a := mem_unique hp ha
      exact ⟨p, ⟨j, r, rfl⟩, hle⟩

theorem falls_of_publishes {p : Access} (h : Publishes i account p e)
    (hnewer : e.before.AtLeast account (p.revision + 1)) : Falls account e := by
  refine ⟨_, hnewer, ?_⟩
  rintro ⟨a, ha, hle⟩
  have hserves : e.after = e.before.publish account p := hlawful.serves h
  rw [hserves, publish_access_self, some.injEq] at ha
  subst ha
  omega

end

theorem not_publishes_between (hw : (pool db accounts).Reachable w) {l m : List Event} {c : Event}
    (hlog : w.log = l ++ c :: m) {p : Access}
    (hcommitted : Unpublished i account p (history w.log i))
    (hlast : history m i = []) {l₁ l₂ : List Event} {f : Event} (hm : m = l₁ ++ f :: l₂)
    {j account' : ℕ} {q : Access} : ¬Publishes j account' q f := by
  intro hpublishes
  have hcut : w.log = (l ++ c :: l₁) ++ f :: l₂ := by simp [hlog, hm]
  obtain ⟨w₁, hw₁, hlog₁, -⟩ := hw.cut hcut
  have hrule : Unpublished j account' q (history w₁.log j) := by
    rw [hlog₁]
    exact (hw.guarded obeys_of_starts).log _ f _ j _ hcut hpublishes
  -- the update has made no call since it was committed
  have hsame : history w₁.log i = history w.log i := by
    rw [hm, history_append] at hlast
    obtain ⟨hl₁, hf⟩ := append_eq_nil_iff.mp hlast
    rw [hlog₁, hcut, history_append _ (f :: l₂), hf, append_nil]
  have hholds {k account : ℕ} {p : Access} (h : Unpublished k account p (history w₁.log k)) :
      w₁.shared.updates = some k := by
    obtain ⟨current, next, expected, hhistory, -⟩ := h
    exact updates_of_holds hw₁ ⟨_, hhistory, by simp⟩
  obtain rfl : i = j :=
    some.inj ((hholds (hsame ▸ hcommitted)).symm.trans (hholds hrule))
  exact turn_ne_of_history_nil hlast (by simp [hm]) (turn_of_cause hpublishes)

theorem last_of_commits {l m : List Event} {c : Event} {p q : Access}
    (hcommits : Commits i account q c) (h : Unpublished i account p (history (l ++ c :: m) i)) :
    history m i = [] := by
  obtain ⟨next, expected, hcause⟩ := hcommits
  obtain ⟨current, next', expected', hhistory, -⟩ := h
  have hc : entry i c = some ⟨.updateAccountAccess account next expected, .ok q⟩ :=
    entry_eq_some.mpr hcause
  rw [history_append, history, history, filterMap_cons, hc] at hhistory
  -- the two calls before it are no commits, and there is no fourth one
  generalize l.filterMap (entry i) = before at hhistory
  rcases before with _ | ⟨_, _ | ⟨_, _ | ⟨_, rest⟩⟩⟩
  · simp at hhistory
  · simp at hhistory
  · exact (cons.inj (cons.inj (cons.inj hhistory).2).2).2
  · simp at hhistory

/-- The revision of an account in memory falls exactly when an update is published after a
registration has brought a newer one since the update was committed. -/
theorem falls_iff_overtaken (hw : (pool db accounts).Reachable w) {l₁ l₂ : List Event}
    (hlog : w.log = l₁ ++ e :: l₂) (account : ℕ) : Falls account e ↔ Overtaken account l₁ e := by
  have hlawful : e.Lawful (pool db accounts) := hw.chronicle.lawful e (by simp [hlog])
  have hrule {i : ℕ} {p : Access} (hpublishes : Publishes i account p e) :
      Unpublished i account p (history l₁ i) :=
    (hw.guarded obeys_of_starts).log l₁ e l₂ i _ hlog hpublishes
  obtain ⟨w₁, hw₁, rfl, hshared⟩ := hw.cut hlog
  constructor
  · intro hfalls
    obtain ⟨i, p, hpublishes, hnewer⟩ := publishes_of_falls hlawful hfalls
    have hcommitted := hrule hpublishes
    obtain ⟨current, next, expected, hhistory, -⟩ := id hcommitted
    have hends : history w₁.log i = [⟨.lockUpdates i, ()⟩, ⟨.readAccess account, current⟩] ++
        ⟨.updateAccountAccess account next expected, .ok p⟩ :: [] := hhistory
    obtain ⟨l, c, m, hsplit, hcause, -, hlast⟩ := exists_split_of_history hends
    -- when it was committed, nothing newer was in memory
    have hc : c ∈ w₁.log := by simp [hsplit]
    have hdurable := (accessOf_of_commit ((hw₁.chronicle.lawful c hc).serves hcause)).1
    have hlow : ¬c.after.AtLeast account (p.revision + 1) := by
      rintro ⟨a, ha, hle⟩
      obtain ⟨d, hd, hle'⟩ := ((steady_of_reachable hw₁).events c hc).2 account a ha
      obtain rfl : p = d := mem_unique hdurable hd
      omega
    obtain ⟨l₃, f, l₄, hm, hbefore, hafter⟩ := hw₁.arises hsplit hlow (hshared ▸ hnewer)
    refine ⟨i, p, l, c, m, hsplit, ⟨next, expected, hcause⟩, hpublishes, f, by simp [hm], ?_⟩
    exact registers_of_rises (hw₁.chronicle.lawful f (by simp [hsplit, hm])) hbefore hafter
      fun j q => not_publishes_between hw₁ hsplit hcommitted hlast hm
  · rintro ⟨i, p, l, c, m, hsplit, hcommits, hpublishes, d, hd, newer, ⟨j, current, hcause⟩, hlt⟩
    have hcommitted := hrule hpublishes
    have hlast : history m i = [] := last_of_commits hcommits (hsplit ▸ hcommitted)
    obtain ⟨m₁, m₂, hm⟩ := append_of_mem hd
    have hcut : w₁.log = (l ++ c :: m₁) ++ d :: m₂ := by simp [hsplit, hm]
    refine falls_of_publishes hlawful hpublishes (hshared ▸ hw₁.persists hcut ?_ ?_)
    · obtain ⟨b, hb, hle⟩ := le_of_registers
        ((hw₁.chronicle.lawful d (by simp [hsplit, hm])).serves hcause)
      exact ⟨b, hb, by omega⟩
    · intro l₃ f l₄ hm₂ hbefore
      by_contra hafter
      obtain ⟨k, q, hq, -⟩ := publishes_of_falls
        (hw₁.chronicle.lawful f (by simp [hsplit, hm, hm₂]))
        ⟨_, hbefore, hafter⟩
      have hf : m = (m₁ ++ d :: l₃) ++ f :: l₄ := by simp [hm, hm₂]
      exact not_publishes_between hw₁ hsplit hcommitted hlast hf hq

/-- In every interleaving the revision of an account in memory falls only when an update is
overtaken, and never otherwise: what was in memory once is there, or a newer revision. -/
theorem revision_never_falls_unless_overtaken (hw : (pool db accounts).Reachable w) (account : ℕ) :
    (∀ l₁ e l₂, w.log = l₁ ++ e :: l₂ → (Falls account e ↔ Overtaken account l₁ e)) ∧
      ((∀ l₁ e l₂, w.log = l₁ ++ e :: l₂ → ¬Overtaken account l₁ e) →
        ∀ e ∈ w.log, ∀ n, e.before.AtLeast account n → w.shared.AtLeast account n) := by
  refine ⟨fun l₁ e l₂ hlog => falls_iff_overtaken hw hlog account, fun hclean e he n hbefore => ?_⟩
  have hkeep {l₁ l₂ : List Event} {f : Event} (hlog : w.log = l₁ ++ f :: l₂)
      (hf : f.before.AtLeast account n) : f.after.AtLeast account n := by
    by_contra hafter
    exact hclean l₁ f l₂ hlog ((falls_iff_overtaken hw hlog account).mp ⟨n, hf, hafter⟩)
  obtain ⟨l₁, l₂, hlog⟩ := append_of_mem he
  refine hw.persists hlog (hkeep hlog hbefore) fun l₃ f l₄ hl => ?_
  have hcut : w.log = (l₁ ++ e :: l₃) ++ f :: l₄ := by simp [hlog, hl]
  exact hkeep hcut

instance (s : Shared) (account n : ℕ) : Decidable (s.AtLeast account n) :=
  inferInstanceAs (Decidable (∃ a ∈ s.memory.access account, n ≤ a.revision))

/-! ## An update that is overtaken -/

namespace Sample

def access (loginEnabled : Bool) (revision : ℕ) : Access where
  administrator := false
  loginEnabled := loginEnabled
  apiKeyEnabled := true
  profitSharingEnabled := false
  modules := noModuleAccess
  revision := revision

def database : Database where
  access := ⟨[⟨1, access true 1⟩], by simp⟩

def bindings (account : ℕ) : Option (Option String) :=
  if account = 1 then some (some "binding") else none

/-- An update is committed at revision 2.  Another process disables the login at revision 3,
which a registration brings in.  Then the update publishes what it committed. -/
def overtaken : World := script (S := pool database bindings)
  [Act.update 0 1 (access true 1) 1, Act.calls {} 0 3, Act.elsewhere 1 (access false 2) 2,
    Act.register 1 1, Act.calls {} 1 2, Act.calls {} 0 1]

theorem reachable_overtaken : (pool database bindings).Reachable overtaken :=
  reachable_script _

theorem exists_falls : ∃ e ∈ overtaken.log, Falls 1 e := by
  have h : ∃ e ∈ overtaken.log, e.before.AtLeast 1 3 ∧ ¬e.after.AtLeast 1 3 := by decide +kernel
  obtain ⟨e, he, hfalls⟩ := h
  exact ⟨e, he, 3, hfalls⟩

end Sample

/-- Another process disabled the login of the account, and this process knew; then the memory
is back at the revision of its own update, with the login enabled. -/
theorem login_enabled_again : (pool Sample.database Sample.bindings).Reachable Sample.overtaken ∧
    (∃ e ∈ Sample.overtaken.log, Falls 1 e) ∧
    (Sample.overtaken.shared.db.accessOf 1).map (fun a => (a.loginEnabled, a.revision)) =
      some (false, 3) ∧
    (Sample.overtaken.shared.memory.access 1).map (fun a => (a.loginEnabled, a.revision)) =
      some (true, 2) := by
  refine ⟨Sample.reachable_overtaken, Sample.exists_falls, ?_, ?_⟩ <;> decide +kernel

/-- The fall of the script is the publication that the registration overtook. -/
theorem overtaken_publication : ∃ l₁ e l₂, Sample.overtaken.log = l₁ ++ e :: l₂ ∧
    Overtaken 1 l₁ e := by
  obtain ⟨e, he, hfalls⟩ := Sample.exists_falls
  obtain ⟨l₁, l₂, hlog⟩ := append_of_mem he
  have hiff := (revision_never_falls_unless_overtaken Sample.reachable_overtaken 1).1 l₁ e l₂ hlog
  exact ⟨l₁, e, l₂, hlog, hiff.mp hfalls⟩

end Athena.Accounts
