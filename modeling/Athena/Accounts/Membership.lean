import Athena.Accounts.Revisions

/-!
# What authentication accepts

A token is checked against the memory of the process.  When every store call that was
committed is acknowledged, the memory agrees with the database whenever no function runs.
A deletion or an access update that is committed and answered with an error leaves the
memory as it was, and the next request is still accepted.
-/

namespace Athena.Accounts

open Athena.Lib Function Pool Option Shared CredentialManager
open Athena.Lib.Pool (history)

variable {db : Database} {accounts : ℕ → Option (Option String)} {w : World} {i account : ℕ}
  {s s' : Shared} {p : Access}

def Call.registers : Call → Bool
  | .registerAccess .. => true
  | _ => false

def Alone (log : List Event) : Prop :=
  ∀ e ∈ log, e.cause.any fun p => !p.2.1.registers

def Call.failed : (c : Call) → c.Reply → Bool
  | .updateAccountAccess .., .error _ => true
  | .deleteAPIKeyMetadata .., .error _ => true
  | _, _ => false

/-- An access update or a deletion that was answered with an error was not committed. -/
def Acknowledged (log : List Event) : Prop :=
  ∀ e ∈ log, ∀ i x, e.cause = some (i, x) → x.1.failed x.2 → e.after = e.before

def Returned (w : World) : Prop :=
  ∀ i, history w.log i ≠ [] → ((w.turns i).bind Program.result?).isSome

/-! ## Access -/

theorem publishes_next {h : List Entry} {c : Call} (hu : Unpublished i account p h)
    (hrule : Rule i h c) : c = .publishAccess account p := by
  obtain ⟨current, next, expected, rfl, hp⟩ := id hu
  cases c with
  | publishAccess =>
    obtain ⟨current', next', expected', heq, -⟩ := hrule
    obtain ⟨-, heq⟩ := List.cons.inj heq
    obtain ⟨-, heq⟩ := List.cons.inj heq
    obtain ⟨heq, -⟩ := List.cons.inj heq
    cases heq
    rfl
  | unlockUpdates => exact absurd hu (hrule.2.2 account p)
  | lockUpdates | readAccess | registerAccess | getAccountAccess | updateAccountAccess | record
  | lockRecord => simp [Rule] at hrule
  | unlockRecord | issue | createAPIKeyMetadata | deleteAPIKeyMetadata =>
    simp [Rule, HoldsRecord] at hrule

theorem unpublished_snoc {h : List Entry} {x : Entry} (hu : Unpublished i account p (h ++ [x])) :
    (∃ next expected, x = ⟨.updateAccountAccess account next expected, .ok p⟩) ∧
      ∀ account' p', ¬Unpublished i account' p' h := by
  obtain ⟨current, next, expected, heq, -⟩ := hu
  have hsplit : h ++ [x] = [⟨.lockUpdates i, ()⟩, ⟨.readAccess account, current⟩] ++
      [⟨.updateAccountAccess account next expected, .ok p⟩] := heq
  obtain ⟨rfl, hx⟩ := List.append_inj' hsplit rfl
  exact ⟨⟨next, expected, (List.cons.inj hx).1⟩, by simp [Unpublished]⟩

/-- The access of the account in memory is the durable one, or an update of it waits to be
published. -/
structure AccessCurrent (s : Shared) (log : List Event) (account : ℕ) : Prop where
  current : ∀ a, s.memory.access account = some a →
    s.db.accessOf account = some a ∨ ∃ i p, Unpublished i account p (history log i)
  pending : ∀ i p, Unpublished i account p (history log i) → s.db.accessOf account = some p

theorem Alone.of_snoc {log : List Event} {e : Event} (h : Alone (log ++ [e])) : Alone log :=
  fun d hd => h d (List.mem_append_left _ hd)

theorem Acknowledged.of_snoc {log : List Event} {e : Event} (h : Acknowledged (log ++ [e])) :
    Acknowledged log := fun d hd => h d (List.mem_append_left _ hd)

section step
variable {e : Event} {j : ℕ} {c : Call} {r : c.Reply}

/-- A call of a turn that has no update of the account to publish, and commits none. -/
theorem AccessCurrent.quiet (h : AccessCurrent w.shared w.log account)
    (hcause : e.cause = some (j, ⟨c, r⟩))
    (hbefore : ∀ p, ¬Unpublished j account p (history w.log j))
    (hcommit : ∀ next expected p,
      (⟨c, r⟩ : Entry) ≠ ⟨.updateAccountAccess account next expected, .ok p⟩)
    (haccess : e.after.memory.access account = w.shared.memory.access account)
    (hdb : e.after.db.accessOf account = w.shared.db.accessOf account) :
    AccessCurrent e.after (w.log ++ [e]) account := by
  have hiff {i : ℕ} {p : Access} : Unpublished i account p (history (w.log ++ [e]) i) ↔
      Unpublished i account p (history w.log i) := by
    by_cases hij : i = j
    · subst hij
      rw [history_snoc_self hcause]
      refine ⟨fun hu => ?_, fun hu => absurd hu (hbefore p)⟩
      obtain ⟨⟨next, expected, hx⟩, -⟩ := unpublished_snoc hu
      exact absurd hx (hcommit _ _ _)
    · rw [history_snoc_of_ne hcause hij]
  refine ⟨?_, ?_⟩
  · simpa only [hiff, haccess, hdb] using h.current
  · simpa only [hiff, hdb] using h.pending

variable (h : ∀ account, AccessCurrent w.shared w.log account)
include h

theorem accessCurrent_publish (hcause : Publishes j account p e)
    (hafter : e.after = w.shared.publish account p)
    (hrule : Unpublished j account p (history w.log j)) (account' : ℕ) :
    AccessCurrent e.after (w.log ++ [e]) account' := by
  by_cases hne : account' = account
  · subst hne
    refine ⟨fun a ha => ?_, fun i p' hu => ?_⟩
    · rw [hafter, publish_access_self, some.injEq] at ha
      subst ha
      rw [hafter]
      exact .inl ((h account').pending j p hrule)
    · by_cases hij : i = j
      · subst hij
        rw [history_snoc_self hcause] at hu
        exact absurd hrule ((unpublished_snoc hu).2 account' p)
      · rw [history_snoc_of_ne hcause hij] at hu
        rw [hafter]
        exact (h account').pending i p' hu
  · refine (h account').quiet hcause (fun p' hu => hne ?_) (by simp) ?_ (by rw [hafter]; rfl)
    · cases publishes_next hu (c := .publishAccess account p) hrule
      rfl
    · rw [hafter, publish_access_of_ne _ hne]

theorem accessCurrent_commit (hw : (pool db accounts).Reachable w) {expected : ℕ} {next : Access}
    (hcause : e.cause = some (j, ⟨.updateAccountAccess account next expected, .ok p⟩))
    (hserves : serves w.shared (.updateAccountAccess account next expected) (.ok p) e.after)
    (hrule : Rule j (history w.log j) (.updateAccountAccess account next expected))
    (account' : ℕ) : AccessCurrent e.after (w.log ++ [e]) account' := by
  obtain ⟨current, hhistory⟩ := hrule
  obtain ⟨db', hafter, -, hok⟩ := Committed.cases hserves
  have hx := hok p rfl
  have hdb : e.after.db.accessOf account' =
      if account' = account then some p else w.shared.db.accessOf account' := by
    rw [hafter]
    exact accessOf_updateAccountAccess hx account'
  by_cases hne : account' = account
  · subst hne
    have hself := history_snoc_self (l := w.log) hcause
    refine ⟨fun a ha => .inr ⟨j, p, ?_⟩, fun i p' hu => ?_⟩
    · rw [hself, hhistory]
      refine ⟨current, next, expected, rfl, ?_, validate_updateAccountAccess hx⟩
      rw [revision_updateAccountAccess hx]
      omega
    · by_cases hij : i = j
      · subst hij
        rw [hself] at hu
        obtain ⟨⟨next', expected', hentry⟩, -⟩ := unpublished_snoc hu
        cases hentry
        rw [hdb, if_pos rfl]
      · -- another update would hold the mutex too
        rw [history_snoc_of_ne hcause hij] at hu
        obtain ⟨current', next', expected', hhistory', -⟩ := hu
        have hi := updates_of_holds hw (i := i) ⟨_, hhistory', by simp⟩
        have hj := updates_of_holds hw (i := j) ⟨_, hhistory, by simp⟩
        exact absurd (mem_unique hi hj) hij
  · refine (h account').quiet hcause ?_ ?_ (by rw [hafter]) (hdb.trans (if_neg hne))
    · simp [Unpublished, hhistory]
    · simp [Ne.symm hne]

theorem accessCurrent_snoc (hw : (pool db accounts).Reachable w)
    (hcause : e.cause = some (j, ⟨c, r⟩))
    (hserves : serves w.shared c r e.after) (hrule : Rule j (history w.log j) c)
    (hregister : c.registers = false) (hack : c.failed r → e.after = w.shared) :
    ∀ account, AccessCurrent e.after (w.log ++ [e]) account := by
  have hbefore (hc : ∀ account p, c ≠ .publishAccess account p) (account : ℕ) (p : Access)
      (hu : Unpublished j account p (history w.log j)) : False :=
    hc account p (publishes_next hu hrule)
  cases c with
  | publishAccess => exact accessCurrent_publish h hcause hserves hrule
  | registerAccess => cases hregister
  | updateAccountAccess =>
    cases r with
    | ok p => exact accessCurrent_commit h hw hcause hserves hrule
    | error e =>
      have hafter := hack rfl
      exact fun account => (h account).quiet hcause (hbefore (by simp) account) (by simp)
        (by rw [hafter]) (by rw [hafter])
  | _ =>
    refine fun account => (h account).quiet hcause (hbefore (by simp) account) (by simp) ?_ ?_
    · rw [same_of_serves hserves .access rfl]
    · rw [Database.accessOf, same_of_serves hserves .heads rfl, Database.accessOf]

end step

/-! ## API Keys -/

def Shared.tokens (s : Shared) (account : ℕ) : Option (List Token) :=
  (s.memory.records account).map Record.tokens

/-- The rows behind the tokens that a turn found, after what it did to them. -/
structure Durable (db : Database) (account : ℕ) (tokens : List Token) (rest : List Entry) :
    Prop where
  kept : ∀ t ∈ tokens, t ∈ db.tokensOf account ∨
    rest = [⟨.deleteAPIKeyMetadata account t.id, .ok ()⟩]
  created : ∀ x token, rest = [x, ⟨.createAPIKeyMetadata account token, .ok ()⟩] →
    token ∈ db.tokensOf account

/-- The tokens of the account in memory have their rows.  While a turn holds its mutex, the
tokens that the turn found are in memory. -/
structure KeysCurrent (s : Shared) (log : List Event) (account : ℕ) : Prop where
  held : ∀ i tokens rest, HoldsRecord i account tokens rest (history log i) →
    s.holders account = some i ∧ s.tokens account = some tokens ∧ Durable s.db account tokens rest
  holder : ∀ i, s.holders account = some i →
    ∃ tokens rest, HoldsRecord i account tokens rest (history log i)
  free : ∀ tokens, s.tokens account = some tokens → s.holders account = none →
    ∀ t ∈ tokens, t ∈ s.db.tokensOf account
  distinct : ∀ tokens, s.tokens account = some tokens → (tokens.map Token.id).Nodup

theorem holdsRecord_snoc {h : List Entry} {x : Entry} {tokens : List Token} {rest : List Entry}
    (hx : HoldsRecord i account tokens rest (h ++ [x])) :
    (h = [⟨.record account, true⟩] ∧ x = ⟨.lockRecord i account, tokens⟩ ∧ rest = []) ∨
      ∃ rest', rest = rest' ++ [x] ∧ HoldsRecord i account tokens rest' h := by
  obtain ⟨heq, hnot⟩ := hx
  rcases h with _ | ⟨y, _ | ⟨z, h⟩⟩
  · simp at heq
  · obtain ⟨rfl, htail⟩ := List.cons.inj heq
    obtain ⟨rfl, rfl⟩ := List.cons.inj htail
    exact .inl ⟨rfl, rfl, rfl⟩
  · obtain ⟨rfl, htail⟩ := List.cons.inj heq
    obtain ⟨rfl, rfl⟩ := List.cons.inj htail
    exact .inr ⟨h, rfl, rfl, fun written hmem => hnot written (List.mem_append_left _ hmem)⟩

theorem HoldsRecord.unique {h : List Entry} {account' : ℕ} {tokens tokens' : List Token}
    {rest rest' : List Entry} (hx : HoldsRecord i account tokens rest h)
    (hx' : HoldsRecord i account' tokens' rest' h) :
    account' = account ∧ tokens' = tokens ∧ rest' = rest := by
  obtain ⟨rfl, -⟩ := hx
  obtain ⟨heq, -⟩ := hx'
  obtain ⟨-, heq⟩ := List.cons.inj heq
  obtain ⟨hlock, rfl⟩ := List.cons.inj heq
  cases hlock
  exact ⟨rfl, rfl, rfl⟩

section step
variable {e : Event} {j : ℕ} {c : Call} {r : c.Reply}

/-- A call of a turn that neither holds the mutex of the account nor takes it. -/
theorem KeysCurrent.idle (h : KeysCurrent w.shared w.log account)
    (hcause : e.cause = some (j, ⟨c, r⟩))
    (hbefore : ∀ tokens rest, ¬HoldsRecord j account tokens rest (history w.log j))
    (hcall : c ≠ .lockRecord j account)
    (hholders : e.after.holders account = w.shared.holders account)
    (htokens : e.after.tokens account = w.shared.tokens account)
    (hdb : ∀ t, t ∈ e.after.db.tokensOf account ↔ t ∈ w.shared.db.tokensOf account) :
    KeysCurrent e.after (w.log ++ [e]) account := by
  have hiff {i : ℕ} {tokens : List Token} {rest : List Entry} :
      HoldsRecord i account tokens rest (history (w.log ++ [e]) i) ↔
        HoldsRecord i account tokens rest (history w.log i) := by
    by_cases hij : i = j
    · subst hij
      rw [history_snoc_self hcause]
      refine ⟨fun hi => ?_, fun hi => absurd hi (hbefore tokens rest)⟩
      obtain ⟨-, hx, -⟩ | ⟨rest', -, hi⟩ := holdsRecord_snoc hi
      · exact absurd (congrArg Sigma.fst hx) hcall
      · exact absurd hi (hbefore tokens rest')
    · rw [history_snoc_of_ne hcause hij]
  refine ⟨fun i tokens rest hi => ?_, fun i hi => ?_, ?_, ?_⟩
  · obtain ⟨hholder, hfound, hrows⟩ := h.held i tokens rest (hiff.mp hi)
    rw [hholders, htokens]
    exact ⟨hholder, hfound, by simpa only [hdb] using hrows.kept,
      by simpa only [hdb] using hrows.created⟩
  · obtain ⟨tokens, rest, hi⟩ := h.holder i (hholders ▸ hi)
    exact ⟨tokens, rest, hiff.mpr hi⟩
  · simpa only [htokens, hholders, hdb] using h.free
  · simpa only [htokens] using h.distinct

variable (h : ∀ account, KeysCurrent w.shared w.log account)
include h

theorem keysCurrent_worked (hcause : e.cause = some (j, ⟨c, r⟩)) {tokens : List Token}
    {rest : List Entry} (hheld : HoldsRecord j account tokens rest (history w.log j))
    (hcall : ∀ account, c ≠ .lockRecord j account ∧ ∀ written, c ≠ .unlockRecord j account written)
    (hholders : e.after.holders = w.shared.holders)
    (hrecords : e.after.memory.records = w.shared.memory.records)
    (hdurable : Durable w.shared.db account tokens rest →
      Durable e.after.db account tokens (rest ++ [⟨c, r⟩]))
    (hdb : ∀ account', account' ≠ account → ∀ t, t ∈ e.after.db.tokensOf account' ↔
      t ∈ w.shared.db.tokensOf account') (account' : ℕ) :
    KeysCurrent e.after (w.log ++ [e]) account' := by
  have htokens (account' : ℕ) : e.after.tokens account' = w.shared.tokens account' := by
    rw [Shared.tokens, hrecords, Shared.tokens]
  by_cases hne : account' = account
  · subst hne
    obtain ⟨hj, hfound, hrows⟩ := (h account').held j tokens rest hheld
    have hnow : HoldsRecord j account' tokens (rest ++ [⟨c, r⟩]) (history (w.log ++ [e]) j) := by
      rw [history_snoc_self hcause]
      refine ⟨by rw [hheld.1]; rfl, fun written hmem => ?_⟩
      rcases List.mem_append.mp hmem with hmem | hmem
      · exact hheld.2 written hmem
      · exact (hcall account').2 written (congrArg Sigma.fst (List.mem_singleton.mp hmem)).symm
    refine ⟨fun i tokens' rest' hi => ?_, fun i hi => ?_, fun _ _ hfree => ?_, ?_⟩
    · by_cases hij : i = j
      · subst hij
        obtain ⟨-, rfl, rfl⟩ := hnow.unique hi
        rw [hholders, htokens]
        exact ⟨hj, hfound, hdurable hrows⟩
      · rw [history_snoc_of_ne hcause hij] at hi
        exact absurd (mem_unique ((h account').held i tokens' rest' hi).1 hj) hij
    · obtain rfl := mem_unique (hholders ▸ hi) hj
      exact ⟨tokens, _, hnow⟩
    · simp [hholders, hj] at hfree
    · simpa only [htokens] using (h account').distinct
  · exact (h account').idle hcause (fun _ _ hx => hne (hheld.unique hx).1) (hcall account').1
      (by rw [hholders]) (htokens account') (hdb account' hne)

theorem keysCurrent_lock {tokens : List Token}
    (hcause : e.cause = some (j, ⟨.lockRecord j account, tokens⟩))
    (hserves : serves w.shared (.lockRecord j account) tokens e.after)
    (hhistory : history w.log j = [⟨.record account, true⟩]) (account' : ℕ) :
    KeysCurrent e.after (w.log ++ [e]) account' := by
  obtain ⟨hfree, hfound, hafter⟩ := hserves
  by_cases hne : account' = account
  · subst hne
    have hnow : HoldsRecord j account' tokens [] (history (w.log ++ [e]) j) := by
      rw [history_snoc_self hcause, hhistory]
      exact ⟨rfl, by simp⟩
    have hholder : e.after.holders account' = some j := by
      rw [hafter]
      exact update_self ..
    refine ⟨fun i tokens' rest' hi => ?_, fun i hi => ?_, fun _ _ hnone => ?_, ?_⟩
    · by_cases hij : i = j
      · subst hij
        obtain ⟨-, rfl, rfl⟩ := hnow.unique hi
        refine ⟨hholder, by rw [hafter]; exact hfound, fun t ht => .inl ?_, by simp⟩
        rw [hafter]
        exact (h account').free tokens' hfound hfree t ht
      · rw [history_snoc_of_ne hcause hij] at hi
        exact absurd ((h account').held i tokens' rest' hi).1 (by simp [hfree])
    · obtain rfl := mem_unique hi hholder
      exact ⟨tokens, [], hnow⟩
    · simp [hholder] at hnone
    · rw [hafter]
      exact (h account').distinct
  · refine (h account').idle hcause ?_ (by simpa using Ne.symm hne) ?_ ?_ ?_
    · simp [hhistory, HoldsRecord]
    all_goals rw [hafter]
    · exact update_of_ne hne ..
    · rfl
    · exact fun _ => Iff.rfl

end step

theorem mem_eraseToken {tokens : List Token} {id : String} {t : Token}
    (hdistinct : (tokens.map Token.id).Nodup)
    (ht : t ∈ eraseToken tokens id) : t ∈ tokens ∧ t.id ≠ id := by
  refine ⟨List.mem_of_mem_eraseP ht, ?_⟩
  induction tokens with
  | nil => simp [eraseToken] at ht
  | cons a _ ih =>
    rw [List.map_cons, List.nodup_cons] at hdistinct
    by_cases ha : a.id = id
    · -- the first token is erased, and no other has its identifier
      rw [eraseToken, List.eraseP_cons_of_pos (by simpa using ha)] at ht
      rintro rfl
      exact hdistinct.1 (ha ▸ List.mem_map_of_mem ht)
    · rw [eraseToken, List.eraseP_cons_of_neg (by simpa using ha)] at ht
      rcases List.mem_cons.mp ht with rfl | ht
      · exact ha
      · exact ih hdistinct.2 ht

theorem Settles.durable {db : Database} {tokens written : List Token} {rest : List Entry}
    (hs : Settles account tokens rest written) (hd : Durable db account tokens rest)
    (hdistinct : (tokens.map Token.id).Nodup) :
    (∀ t ∈ written, t ∈ db.tokensOf account) ∧ (written.map Token.id).Nodup := by
  cases hs with
  | unchanged _ hrest =>
    refine ⟨fun t ht => ?_, hdistinct⟩
    exact (hd.kept t ht).resolve_right (hrest t.id)
  | issued _ _ token hfresh =>
    refine ⟨fun t ht => ?_, ?_⟩
    · rcases List.mem_append.mp ht with ht | ht
      · exact (hd.kept t ht).resolve_right (by simp)
      · rw [List.mem_singleton.mp ht]
        exact hd.created _ token rfl
    · rw [List.map_append, List.nodup_append]
      refine ⟨hdistinct, by simp, ?_⟩
      intro x hx y hy hxy
      obtain ⟨t, ht, rfl⟩ := List.mem_map.mp hx
      rw [List.map_singleton, List.mem_singleton] at hy
      exact hfresh t ht (hxy.trans hy)
  | deleted id =>
    refine ⟨fun t ht => ?_, hdistinct.sublist ((List.eraseP_sublist).map Token.id)⟩
    obtain ⟨ht, hne⟩ := mem_eraseToken hdistinct ht
    refine (hd.kept t ht).resolve_right fun heq => hne ?_
    simpa using heq.symm

theorem tokens_release (s : Shared) {tokens : List Token} (h : s.tokens account = some tokens)
    (written : List Token) (account' : ℕ) :
    (s.release account written).tokens account' =
      if account' = account then some written else s.tokens account' := by
  unfold Shared.tokens Shared.release
  by_cases hne : account' = account
  · subst hne
    obtain ⟨record, hrecord, -⟩ := map_eq_some_iff.mp h
    simp [hrecord]
  · simp [hne]

section step
variable {e : Event} {j : ℕ} {c : Call} {r : c.Reply}

theorem keysCurrent_unlock (h : ∀ account, KeysCurrent w.shared w.log account)
    {tokens written : List Token} {rest : List Entry}
    (hcause : e.cause = some (j, ⟨.unlockRecord j account written, ()⟩))
    (hafter : e.after = w.shared.release account written)
    (hheld : HoldsRecord j account tokens rest (history w.log j))
    (hsettles : Settles account tokens rest written) (account' : ℕ) :
    KeysCurrent e.after (w.log ++ [e]) account' := by
  obtain ⟨hj, hfound, hrows⟩ := (h account).held j tokens rest hheld
  have htokens := tokens_release w.shared hfound written account'
  rw [← hafter] at htokens
  by_cases hne : account' = account
  · subst hne
    obtain ⟨hwritten, hdistinct⟩ := hsettles.durable hrows ((h account').distinct tokens hfound)
    rw [if_pos rfl] at htokens
    refine ⟨fun i tokens' rest' hi => ?_, fun i hi => ?_, fun _ hx _ => ?_, fun _ hx => ?_⟩
    · by_cases hij : i = j
      · rw [hij, history_snoc_self hcause, hheld.1] at hi
        exact absurd hi ((released_record rest).2 account' tokens' rest')
      · rw [history_snoc_of_ne hcause hij] at hi
        exact absurd (mem_unique ((h account').held i tokens' rest' hi).1 hj) hij
    · simp [hafter, release] at hi
    · obtain rfl := mem_unique htokens hx
      rw [hafter]
      exact hwritten
    · obtain rfl := mem_unique htokens hx
      exact hdistinct
  · refine (h account').idle hcause (fun _ _ hx => hne (hheld.unique hx).1) (by simp) ?_
      (htokens.trans (if_neg hne)) ?_
    all_goals rw [hafter]
    · exact update_of_ne hne ..
    · exact fun _ => Iff.rfl

theorem tokensOf_eq {db db' : Database} {changed : ℕ}
    (h : ∀ r, r.account ≠ changed → (r ∈ db'.keys ↔ r ∈ db.keys)) (hne : account ≠ changed)
    {t : Token} : t ∈ db'.tokensOf account ↔ t ∈ db.tokensOf account := by
  simp only [mem_tokensOf]
  constructor
  · rintro ⟨r, hr, rfl, ht⟩
    exact ⟨r, (h r hne).mp hr, rfl, ht⟩
  · rintro ⟨r, hr, rfl, ht⟩
    exact ⟨r, (h r hne).mpr hr, rfl, ht⟩

def Call.ofRecord : Call → Bool
  | .lockRecord .. | .unlockRecord .. | .issue .. | .createAPIKeyMetadata ..
  | .deleteAPIKeyMetadata .. => true
  | _ => false

theorem not_holdsRecord_of_rule {h : List Entry} (hrule : Rule j h c) (hc : c.ofRecord = false)
    (account : ℕ) (tokens : List Token) (rest : List Entry) :
    ¬HoldsRecord j account tokens rest h := by
  rintro ⟨rfl, -⟩
  cases c <;> simp [Rule, HoldsUpdates, Unpublished, Call.ofRecord] at hrule hc

theorem keysCurrent_snoc (h : ∀ account, KeysCurrent w.shared w.log account)
    (hcause : e.cause = some (j, ⟨c, r⟩))
    (hserves : serves w.shared c r e.after) (hrule : Rule j (history w.log j) c)
    (hack : c.failed r → e.after = w.shared) :
    ∀ account, KeysCurrent e.after (w.log ++ [e]) account := by
  have hframe (p : Part) (hp : c.writes p = false) := same_of_serves hserves p hp
  cases c with
  | lockRecord =>
    obtain ⟨rfl, hhistory⟩ := hrule
    exact keysCurrent_lock h hcause hserves hhistory
  | unlockRecord =>
    obtain ⟨rfl, tokens, rest, hheld, hsettles⟩ := hrule
    exact keysCurrent_unlock h hcause hserves hheld hsettles
  | issue =>
    obtain ⟨tokens, hheld⟩ := hrule
    refine keysCurrent_worked h hcause hheld (by simp) (hframe .holders rfl)
      (hframe .records rfl) ?_ ?_
    · rw [show e.after = w.shared from hserves]
      intro hrows
      exact ⟨fun t ht => .inl ((hrows.kept t ht).resolve_right (by simp)), by simp⟩
    · rw [show e.after = w.shared from hserves]
      simp
  | createAPIKeyMetadata account =>
    obtain ⟨tokens, expiresIn, reply, hheld⟩ := hrule
    obtain ⟨db', hafter, hdb, hok⟩ := Committed.cases hserves
    -- rows are only added
    have hrows : (∀ r ∈ w.shared.db.keys, r ∈ db'.keys) ∧
        ∀ r ∈ db'.keys, r.account ≠ account → r ∈ w.shared.db.keys := by
      obtain rfl | ⟨_, hx⟩ := hdb
      · exact ⟨fun _ => id, fun _ hr _ => hr⟩
      · have := (createAPIKeyMetadata_ok (bare_eq_ok.mp hx)).2.2
        exact ⟨fun r hr => (this r).mpr (.inl hr), fun r hr hne =>
          ((this r).mp hr).resolve_right fun hnew => hne hnew.1⟩
    refine keysCurrent_worked h hcause hheld (by simp) (hframe .holders rfl)
      (hframe .records rfl) ?_ ?_
    · rw [hafter]
      intro hdurable
      refine ⟨fun t ht => .inl ?_, ?_⟩
      · obtain ⟨r, hr, hrow⟩ := mem_tokensOf.mp ((hdurable.kept t ht).resolve_right (by simp))
        exact mem_tokensOf.mpr ⟨r, hrows.1 r hr, hrow⟩
      · intro x token' hrest
        obtain ⟨-, hcreated⟩ := List.cons.inj hrest
        cases (List.cons.inj hcreated).1
        have hx := createAPIKeyMetadata_ok (bare_eq_ok.mp (hok () rfl))
        exact mem_tokensOf.mpr hx.2.1
    · rw [hafter]
      intro account' hne t
      exact tokensOf_eq (fun r hr => ⟨fun hmem => hrows.2 r hmem hr, hrows.1 r⟩) hne
  | deleteAPIKeyMetadata _ id =>
    obtain ⟨tokens, hheld⟩ := hrule
    cases r with
    | error e =>
      have hafter := hack rfl
      refine keysCurrent_worked h hcause hheld (by simp) (by rw [hafter])
        (by rw [hafter]) ?_ ?_
      · rw [hafter]
        refine fun hdurable => ⟨fun t ht => .inl ?_, by simp⟩
        exact (hdurable.kept t ht).resolve_right (by simp)
      · simp [hafter]
    | ok _ =>
      obtain ⟨db', hafter, -, hok⟩ := Committed.cases hserves
      have hrows := (deleteAPIKeyMetadata_ok (bare_eq_ok.mp (hok () rfl))).2
      refine keysCurrent_worked h hcause hheld (by simp) (hframe .holders rfl)
        (hframe .records rfl) ?_ ?_
      · rw [hafter]
        refine fun hdurable => ⟨fun t ht => ?_, by simp⟩
        by_cases hid : t.id = id
        · exact .inr (by rw [hid]; rfl)
        · obtain ⟨r, hr, rfl, rfl⟩ :=
            mem_tokensOf.mp ((hdurable.kept t ht).resolve_right (by simp))
          refine .inl (mem_tokensOf.mpr ⟨r, (hrows r).mpr ⟨hr, ?_⟩, rfl, rfl⟩)
          simp [KeyRow.key, hid]
      · rw [hafter]
        intro account' hne t
        refine tokensOf_eq (fun r hr => ?_) hne
        simp [hrows r, KeyRow.key, hr]
  | _ =>
    refine fun account => (h account).idle hcause (not_holdsRecord_of_rule hrule rfl account)
      (by simp) ?_ ?_ ?_
    · rw [hframe .holders rfl]
    · rw [Shared.tokens, hframe .records rfl, Shared.tokens]
    · rw [Database.tokensOf, hframe .keys rfl, Database.tokensOf]
      exact fun _ => Iff.rfl

end step

/-! ## Every history of one process -/

theorem current_of_reachable (hw : (pool db accounts).Reachable w) (halone : Alone w.log)
    (hack : Acknowledged w.log) :
    (∀ account, AccessCurrent w.shared w.log account) ∧
      ∀ account, KeysCurrent w.shared w.log account := by
  refine Pool.Reachable.of_events (P := Rule) (J := fun s log => Alone log → Acknowledged log →
    (∀ account, AccessCurrent s log account) ∧ ∀ account, KeysCurrent s log account)
    obeys_of_starts ?_ ?_ hw halone hack
  · intro _ _
    refine ⟨fun account => ⟨fun a ha => .inl ha, ?_⟩, fun account => ⟨?_, nofun, ?_, ?_⟩⟩
    · simp [Unpublished, history]
    · simp [HoldsRecord, history]
    · rintro tokens hfound -
      obtain ⟨record, hrecord, rfl⟩ := map_eq_some_iff.mp hfound
      obtain ⟨binding, -, rfl⟩ := map_eq_some_iff.mp hrecord
      exact fun t => id
    · intro tokens hfound
      obtain ⟨record, hrecord, rfl⟩ := map_eq_some_iff.mp hfound
      obtain ⟨binding, -, rfl⟩ := map_eq_some_iff.mp hrecord
      exact nodup_tokensOf db account
  · rintro w ⟨cause, before, after⟩ hw ih rfl hlawful hrule halone hack
    have hlast : (⟨cause, w.shared, after⟩ : Event) ∈ w.log ++ [⟨cause, w.shared, after⟩] := by simp
    obtain ⟨⟨j, c, r⟩, hcause, hregister⟩ := (any_eq_true ..).mp (halone _ hlast)
    obtain ⟨haccess, hkeys⟩ := ih halone.of_snoc hack.of_snoc
    have hserves : serves w.shared c r after := hlawful.serves hcause
    have hrule := hrule j _ hcause
    have hanswered : c.failed r → after = w.shared := hack _ hlast j _ hcause
    exact ⟨accessCurrent_snoc haccess hw hcause hserves hrule (by simpa using hregister) hanswered,
      keysCurrent_snoc hkeys hcause hserves hrule hanswered⟩

theorem released_of_returned (hw : (pool db accounts).Reachable w) (hreturned : Returned w)
    (i : ℕ) : Released i (history w.log i) := by
  by_cases hcalls : history w.log i = []
  · rw [hcalls]
    simp [Released, HoldsUpdates, HoldsRecord]
  · obtain ⟨result, hresult⟩ := isSome_iff_exists.mp (hreturned i hcalls)
    obtain ⟨p, hturn, hp⟩ := bind_eq_some_iff.mp hresult
    have hkeeps := hw.keeps (Q := fun i h _ => Released i h) keeps_of_starts hturn
    rw [Program.result?_eq_some.mp hp] at hkeeps
    exact Program.guards_ofExcept.mp hkeeps

/-- In every history of one process that is told of its committed deletions and access
updates: when all calls have returned, an accepted API Key has its metadata row, and the
durable access of the account enables the capability of an accepted token. -/
theorem accepts_only_current (hw : (pool db accounts).Reachable w) (halone : Alone w.log)
    (hack : Acknowledged w.log) (hreturned : Returned w) {isTokenRevoked : String → Bool}
    {parsed : ParsedToken} {credential : AuthenticatedCredential}
    (haccepted : authenticateToken w.shared.memory isTokenRevoked parsed = .ok credential) :
    (parsed.capability = .apiKey →
      ∃ row ∈ w.shared.db.keys, row.account = parsed.account ∧ row.token.jti = parsed.jti) ∧
    ∃ access, w.shared.db.accessOf parsed.account = some access ∧
      access.enables parsed.capability := by
  obtain ⟨haccess, hkeys⟩ := current_of_reachable hw halone hack
  obtain ⟨⟨access, hmemory, henables⟩, record, hrecord, htoken⟩ := authenticateToken_ok haccepted
  refine ⟨fun hcapability => ?_, access, ?_, henables⟩
  · obtain ⟨t, ht, hjti⟩ := htoken hcapability
    have hfree : w.shared.holders parsed.account = none := by
      by_contra hheld
      obtain ⟨i, hi⟩ := ne_none_iff_exists'.mp hheld
      obtain ⟨tokens, rest, hholds⟩ := (hkeys _).holder i hi
      exact (released_of_returned hw hreturned i).2 _ _ _ hholds
    have hdurable : t ∈ w.shared.db.tokensOf parsed.account :=
      (hkeys parsed.account).free record.tokens (by rw [tokens, hrecord]; rfl) hfree t ht
    obtain ⟨row, hrow, haccount, rfl⟩ := mem_tokensOf.mp hdurable
    exact ⟨row, hrow, haccount, hjti⟩
  · obtain hdurable | ⟨i, p, current, next, expected, hhistory, -⟩ :=
      (haccess _).current access hmemory
    · exact hdurable
    · exact absurd ⟨_, hhistory, by simp⟩ (released_of_returned hw hreturned i).1

/-! ## A deletion whose acknowledgement is lost -/

namespace Sample

def key : Token := ⟨"key", "jti", 1, 0⟩

def keyed : Database where
  access := database.access
  keys := ⟨[⟨1, key, by decide⟩], by simp⟩

def request : ParsedToken := ⟨1, .apiKey, "jti", ""⟩

def credential : AuthenticatedCredential := ⟨1, .apiKey, "jti", "", 1⟩

def lostDeletion : World := script (S := pool keyed bindings)
  [Act.deleteAPIKey 0 1 "key", Act.calls { lost := true } 0 4]

def issued : World := script (S := pool database bindings)
  [Act.issueAPIKey 0 1 "key" 0, Act.calls { issued := some ⟨"bearer", "jti", 1, 0⟩ } 0 5]

theorem returned_of_first {w : World} (hlog : ∀ e ∈ w.log, e.turn = some 0)
    (hended : ((w.turns 0).bind Program.result?).isSome) : Returned w := by
  intro i hcalls
  by_cases hi : i = 0
  · rwa [hi]
  · refine absurd (List.filterMap_eq_nil_iff.mpr fun e he => ?_) hcalls
    exact Pool.Event.entry_of_turn_ne (by simp [hlog e he, Ne.symm hi])

theorem returned_lostDeletion : Returned lostDeletion :=
  returned_of_first (by decide +kernel) (by decide +kernel)

theorem returned_issued : Returned issued :=
  returned_of_first (by decide +kernel) (by decide +kernel)

theorem acknowledged_issued : Acknowledged issued.log := by
  have h : ∀ e ∈ issued.log, e.cause.all fun p => !p.2.1.failed p.2.2 := by decide +kernel
  intro e he i x hcause hfailed
  have := h e he
  simp [hcause, hfailed] at this

end Sample

open Sample

/-- The deletion of the API Key was committed, and the key is still accepted. -/
theorem deleted_key_accepted :
    (pool Sample.keyed Sample.bindings).Reachable Sample.lostDeletion ∧
      Alone Sample.lostDeletion.log ∧ Returned Sample.lostDeletion ∧
      Sample.lostDeletion.shared.db.keys.rows.length = 0 ∧
      authenticateToken Sample.lostDeletion.shared.memory (fun _ => false) Sample.request =
        .ok Sample.credential := by
  refine ⟨reachable_script _, ?_, returned_lostDeletion, ?_, ?_⟩
  · unfold Alone
    decide +kernel
  · decide +kernel
  · decide +kernel

/-- An API Key that was issued is accepted, and has its metadata row. -/
theorem issued_key_accepted :
    authenticateToken Sample.issued.shared.memory (fun _ => false) Sample.request =
        .ok Sample.credential ∧
      (∃ row ∈ Sample.issued.shared.db.keys, row.account = 1 ∧ row.token.jti = "jti") ∧
      ∃ access, Sample.issued.shared.db.accessOf 1 = some access ∧ access.enables .apiKey := by
  have haccepted : authenticateToken issued.shared.memory (fun _ => false) request =
      .ok credential := by decide +kernel
  have halone : Alone issued.log := by
    unfold Alone
    decide +kernel
  have h := accepts_only_current
    (reachable_script (S := pool database bindings) _) halone acknowledged_issued returned_issued
    haccepted
  exact ⟨haccepted, h.1 rfl, h.2⟩

end Athena.Accounts
