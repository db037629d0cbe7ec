import Athena.Accounts.Controller
import Athena.Lib.Scripts

/-!
# A process over the account-state store

Any number of calls of the access controller and the credential manager run side by side in
one process, over its memory and the database.  Other processes commit access updates and
open accounts at any time.  A store call may fail before its transaction is committed, or
after it: the caller is told the same.
-/

namespace Athena.Accounts

open Athena.Lib Handler Function List Program

/-! ## The environment -/

/-- The memory of a process and the database, with the holders of the mutexes. -/
structure Shared where
  db : Database
  memory : Memory
  updates : Option ℕ := none
  holders : ℕ → Option ℕ := fun _ => none

namespace Shared

/-- A process that has loaded the database.  The identity bindings of the accounts come
with them. -/
def load (db : Database) (accounts : ℕ → Option (Option String)) : Shared where
  db := db
  memory :=
    { access := db.accessOf
      records := fun account => (accounts account).map fun binding =>
        ⟨binding, db.tokensOf account⟩ }

def publish (s : Shared) (account : ℕ) (a : Access) : Shared :=
  { s with memory := { s.memory with access := update s.memory.access account (some a) } }

@[simp] theorem publish_access_self (s : Shared) (account : ℕ) (a : Access) :
    (s.publish account a).memory.access account = some a := update_self ..

theorem publish_access_of_ne (s : Shared) {account account' : ℕ} (h : account' ≠ account)
    (a : Access) : (s.publish account a).memory.access account' = s.memory.access account' :=
  update_of_ne h ..

def register (s : Shared) (account : ℕ) (a : Access) : Access × Shared :=
  match s.memory.access account with
  | some current => if current.revision < a.revision then (a, s.publish account a) else (current, s)
  | none => (a, s.publish account a)

theorem register_cases (s : Shared) (account : ℕ) (a : Access) :
    (∃ current, s.memory.access account = some current ∧ a.revision ≤ current.revision ∧
      s.register account a = (current, s)) ∨
    (∀ b, s.memory.access account = some b → b.revision < a.revision) ∧
      s.register account a = (a, s.publish account a) := by
  unfold register
  cases hcurrent : s.memory.access account with
  | none => exact .inr ⟨nofun, rfl⟩
  | some current =>
    by_cases hlt : current.revision < a.revision
    · exact .inr ⟨by rintro _ ⟨rfl⟩; exact hlt, if_pos hlt⟩
    · exact .inl ⟨current, rfl, by omega, if_neg hlt⟩

def hold (s : Shared) (account turn : ℕ) : Shared :=
  { s with holders := update s.holders account (some turn) }

def release (s : Shared) (account : ℕ) (tokens : List Token) : Shared :=
  { s with
    holders := update s.holders account none
    memory := { s.memory with
      records := update s.memory.records account
        ((s.memory.records account).map fun r => { r with tokens := tokens }) } }

end Shared

/-- How a transaction is answered.  One whose outcome is not known may be committed. -/
def Committed {α : Type} (x : Except StoreError (α × Database)) (s : Shared)
    (r : Except StoreError α) (s' : Shared) : Prop :=
  match x with
  | .ok (a, db) => (r = .ok a ∧ s' = { s with db := db }) ∨
      (r = .error .unavailable ∧ (s' = s ∨ s' = { s with db := db }))
  | .error e => (r = .error e ∨ r = .error .unavailable) ∧ s' = s

def bare (x : Except StoreError Database) : Except StoreError (Unit × Database) :=
  x.map fun db => ((), db)

/-- How the calls of the functions are served.  A mutex that is held is waited for. -/
def serves (s : Shared) : (c : Call) → c.Reply → Shared → Prop
  | .lockUpdates turn, _, s' => s.updates = none ∧ s' = { s with updates := some turn }
  | .unlockUpdates _, _, s' => s' = { s with updates := none }
  | .readAccess account, r, s' => r = s.memory.access account ∧ s' = s
  | .publishAccess account a, _, s' => s' = s.publish account a
  | .registerAccess account a, r, s' => (r, s') = s.register account a
  | .getAccountAccess account, r, s' =>
    (r = getAccountAccess s.db account ∨ r = .error .unavailable) ∧ s' = s
  | .updateAccountAccess account next expected, r, s' =>
    Committed (updateAccountAccess s.db account next expected) s r s'
  | .record account, r, s' => r = (s.memory.records account).isSome ∧ s' = s
  | .lockRecord turn account, r, s' =>
    s.holders account = none ∧ (s.memory.records account).map Record.tokens = some r ∧
      s' = s.hold account turn
  | .unlockRecord _ account tokens, _, s' => s' = s.release account tokens
  | .issue .., _, s' => s' = s
  | .createAPIKeyMetadata account token, r, s' =>
    Committed (bare (createAPIKeyMetadata s.db account token)) s r s'
  | .deleteAPIKeyMetadata account id, r, s' =>
    Committed (bare (deleteAPIKeyMetadata s.db account id)) s r s'

def Drifts (s s' : Shared) : Prop :=
  (∃ account next expected persisted db,
    updateAccountAccess s.db account next expected = .ok (persisted, db) ∧
      s' = { s with db := db }) ∨
  ∃ row table, s.db.access.insert? row = some table ∧
    s' = { s with db := { s.db with access := table } }

def pool (db : Database) (accounts : ℕ → Option (Option String)) :
    Pool Shared Call Call.Reply Failure where
  init := .load db accounts
  starts i p :=
    (∃ account next expected, p = (fun _ => ()) <$> Controller.update i account next expected) ∨
      (∃ account, p = (fun _ => ()) <$> Controller.register account) ∨
      (∃ account id expiresIn,
        p = (fun _ => ()) <$> CredentialManager.issueAPIKey i account id expiresIn) ∨
      ∃ account id, p = CredentialManager.deleteAPIKey i account id
  serves := serves
  drifts := Drifts

abbrev World : Type := Pool.World Shared Call.Reply Failure

abbrev Event : Type := Pool.Event Shared Call.Reply

/-! ## What a call leaves as it is -/

section served
variable {s s' : Shared}

theorem Committed.cases {α : Type} {x : Except StoreError (α × Database)}
    {r : Except StoreError α} (h : Committed x s r s') :
    ∃ db, s' = { s with db := db } ∧ (db = s.db ∨ ∃ a, x = .ok (a, db)) ∧
      ∀ a, r = .ok a → x = .ok (a, db) := by
  unfold Committed at h
  split at h
  · obtain ⟨rfl, rfl⟩ | ⟨rfl, rfl | rfl⟩ := h
    · exact ⟨_, rfl, .inr ⟨_, rfl⟩, by rintro _ ⟨rfl⟩; rfl⟩
    · exact ⟨s'.db, rfl, .inl rfl, nofun⟩
    · exact ⟨_, rfl, .inr ⟨_, rfl⟩, nofun⟩
  · obtain ⟨rfl | rfl, rfl⟩ := h
    · exact ⟨s'.db, rfl, .inl rfl, nofun⟩
    · exact ⟨s'.db, rfl, .inl rfl, nofun⟩

theorem bare_eq_ok {x : Except StoreError Database} {u : Unit} {db : Database} :
    bare x = .ok (u, db) ↔ x = .ok db := by
  cases x <;> simp [bare, Except.map]

inductive Part
  | updates | holders | access | records | heads | keys

def Call.writes : Call → Part → Bool
  | .lockUpdates _, .updates | .unlockUpdates _, .updates => true
  | .publishAccess .., .access | .registerAccess .., .access => true
  | .lockRecord .., .holders | .unlockRecord .., .holders | .unlockRecord .., .records => true
  | .updateAccountAccess .., .heads => true
  | .createAPIKeyMetadata .., .keys | .deleteAPIKeyMetadata .., .keys => true
  | _, _ => false

def Shared.Same (s s' : Shared) : Part → Prop
  | .updates => s'.updates = s.updates
  | .holders => s'.holders = s.holders
  | .access => s'.memory.access = s.memory.access
  | .records => s'.memory.records = s.memory.records
  | .heads => s'.db.access = s.db.access
  | .keys => s'.db.keys = s.db.keys

theorem Shared.Same.refl (s : Shared) (p : Part) : s.Same s p := by cases p <;> rfl

theorem same_of_serves {c : Call} {r : c.Reply} (h : serves s c r s') (p : Part)
    (hp : c.writes p = false) : s.Same s' p := by
  cases c with
  | lockUpdates => obtain ⟨-, rfl⟩ := h; cases p <;> first | rfl | cases hp
  | unlockUpdates | publishAccess | unlockRecord => cases h; cases p <;> first | rfl | cases hp
  | readAccess | getAccountAccess | record => obtain ⟨-, rfl⟩ := h; exact .refl _ p
  | registerAccess account a =>
    obtain ⟨current, -, -, hregister⟩ | ⟨-, hregister⟩ := s.register_cases account a <;>
    · obtain ⟨-, rfl⟩ := Prod.mk.inj (h.trans hregister)
      cases p <;> first | rfl | cases hp
  | updateAccountAccess =>
    obtain ⟨db, rfl, rfl | ⟨a, hx⟩, -⟩ := Committed.cases h
    · exact .refl _ p
    · have hkeys := keys_updateAccountAccess hx
      cases p <;> first | exact hkeys | rfl | cases hp
  | lockRecord => obtain ⟨-, -, rfl⟩ := h; cases p <;> first | rfl | cases hp
  | issue => cases h; exact .refl _ p
  | createAPIKeyMetadata =>
    obtain ⟨db, rfl, rfl | ⟨a, hx⟩, -⟩ := Committed.cases h
    · exact .refl _ p
    · have hheads := (createAPIKeyMetadata_ok (bare_eq_ok.mp hx)).1
      cases p <;> first | exact hheads | rfl | cases hp
  | deleteAPIKeyMetadata =>
    obtain ⟨db, rfl, rfl | ⟨a, hx⟩, -⟩ := Committed.cases h
    · exact .refl _ p
    · have hheads := (deleteAPIKeyMetadata_ok (bare_eq_ok.mp hx)).1
      cases p <;> first | exact hheads | rfl | cases hp

end served

/-! ## The rules of the functions -/

/-- The updates mutex is held after a history: it was taken first and not released. -/
def HoldsUpdates (i : ℕ) (h : List Entry) : Prop :=
  ∃ rest, h = ⟨.lockUpdates i, ()⟩ :: rest ∧ (⟨.unlockUpdates i, ()⟩ : Entry) ∉ rest

/-- The mutex of an account was taken after the account was found, with what it held, and
was not released. -/
def HoldsRecord (i account : ℕ) (tokens : List Token) (rest h : List Entry) : Prop :=
  h = ⟨.record account, true⟩ :: ⟨.lockRecord i account, tokens⟩ :: rest ∧
    ∀ written, (⟨.unlockRecord i account written, ()⟩ : Entry) ∉ rest

def Unpublished (i account : ℕ) (persisted : Access) (h : List Entry) : Prop :=
  ∃ current next expected, h = [⟨.lockUpdates i, ()⟩, ⟨.readAccess account, current⟩,
    ⟨.updateAccountAccess account next expected, .ok persisted⟩] ∧
    expected < persisted.revision ∧ persisted.validate = .ok ()

/-- What the tokens of an account become when its mutex is released, after what was done
under it. -/
inductive Settles (account : ℕ) (tokens : List Token) : List Entry → List Token → Prop
  | unchanged (rest) (h : ∀ id, rest ≠ [⟨.deleteAPIKeyMetadata account id, .ok ()⟩]) :
      Settles account tokens rest tokens
  | issued (expiresIn : ℤ) (reply : Option Issued) (token : Token)
      (h : ∀ t ∈ tokens, t.id ≠ token.id) :
      Settles account tokens
        [⟨.issue account expiresIn, reply⟩, ⟨.createAPIKeyMetadata account token, .ok ()⟩]
        (tokens ++ [token])
  | deleted (id : String) :
      Settles account tokens [⟨.deleteAPIKeyMetadata account id, .ok ()⟩]
        (CredentialManager.eraseToken tokens id)

def Rule (i : ℕ) (h : List Entry) : Call → Prop
  | .lockUpdates turn => turn = i ∧ h = []
  | .unlockUpdates turn => turn = i ∧ HoldsUpdates i h ∧ ∀ account p, ¬Unpublished i account p h
  | .publishAccess account p => Unpublished i account p h
  | .updateAccountAccess account _ _ =>
    ∃ current, h = [⟨.lockUpdates i, ()⟩, ⟨.readAccess account, current⟩]
  | .registerAccess account p => h = [⟨.getAccountAccess account, .ok p⟩]
  | .lockRecord turn account => turn = i ∧ h = [⟨.record account, true⟩]
  | .createAPIKeyMetadata account _ => ∃ tokens expiresIn reply,
      HoldsRecord i account tokens [⟨.issue account expiresIn, reply⟩] h
  | .deleteAPIKeyMetadata account _ => ∃ tokens, HoldsRecord i account tokens [] h
  | .unlockRecord turn account written =>
    turn = i ∧ ∃ tokens rest, HoldsRecord i account tokens rest h ∧
      Settles account tokens rest written
  | .issue account _ => ∃ tokens, HoldsRecord i account tokens [] h
  | .readAccess _ => h = [⟨.lockUpdates i, ()⟩]
  | .record _ | .getAccountAccess _ => h = []

def Released (i : ℕ) (h : List Entry) : Prop :=
  ¬HoldsUpdates i h ∧ ∀ account tokens rest, ¬HoldsRecord i account tokens rest h

section programs
variable {i account : ℕ}

theorem guards_require_bind {α : Type} {P : List Entry → Call → Prop}
    {Q : List Entry → Except Failure α → Prop} {h : List Entry} {p : Prop} [Decidable p]
    {e : Failure} {f : Unit → Handler α} (hQ : ¬p → Q h (.error e)) (hf : p → (f ()).Guards P Q h) :
    (require p e >>= f).Guards P Q h := by
  refine guards_ofExcept_bind.mpr ⟨fun _ hp => hf (ensure_eq_ok.mp hp), ?_⟩
  rintro e' he
  rw [ensure_eq_error] at he
  exact he.2 ▸ hQ he.1

theorem guards_accept_bind {ε α β : Type} {P : List Entry → Call → Prop}
    {Q : List Entry → Except Failure β → Prop} {h : List Entry} {reply : Except ε α}
    {e : ε → Failure} {f : α → Handler β} (hQ : ∀ x, reply = .error x → Q h (.error (e x)))
    (hf : ∀ a, reply = .ok a → (f a).Guards P Q h) : (accept reply e >>= f).Guards P Q h := by
  cases reply with
  | ok a => exact hf a rfl
  | error x => exact hQ x rfl

theorem keeps_register :
    ((fun _ => ()) <$> Controller.register account).Guards (Rule i)
      (fun h _ => Released i h) [] := by
  refine guards_map.mpr (guards_ask_bind.mpr ⟨rfl, fun reply => ?_⟩)
  have hreleased : Released i [⟨.getAccountAccess account, reply⟩] := by
    simp [Released, HoldsUpdates, HoldsRecord]
  refine guards_accept_bind (fun _ _ => hreleased) fun persisted hpersisted => ?_
  refine guards_require_bind (fun _ => hreleased) fun _ => ?_
  refine guards_accept_bind (fun _ _ => hreleased) fun _ _ => ?_
  refine ⟨by simp [Rule, hpersisted], fun current => ?_⟩
  simp [Released, HoldsUpdates, HoldsRecord, Program.Guards]

theorem unlocks_updates (rest : List Entry)
    (hrest : (⟨.unlockUpdates i, ()⟩ : Entry) ∉ rest)
    (hpublished : ∀ account p, ¬Unpublished i account p (⟨.lockUpdates i, ()⟩ :: rest)) :
    Rule i (⟨.lockUpdates i, ()⟩ :: rest) (.unlockUpdates i) ∧
      ∀ reply, Released i (⟨.lockUpdates i, ()⟩ :: rest ++ [⟨.unlockUpdates i, reply⟩]) := by
  refine ⟨⟨rfl, ⟨rest, rfl, hrest⟩, hpublished⟩, fun _ => ⟨?_, ?_⟩⟩
  · rintro ⟨rest', heq, hnot⟩
    obtain ⟨-, rfl⟩ := cons.inj heq
    simp at hnot
  · simp [HoldsRecord]

theorem keeps_update {next : Access} {expected : ℕ} :
    ((fun _ => ()) <$> Controller.update i account next expected).Guards (Rule i)
      (fun h _ => Released i h) [] := by
  have hreleased : Released i [] := by simp [Released, HoldsUpdates, HoldsRecord]
  refine guards_map.mpr (guards_require_bind (fun _ => hreleased) fun _ => ?_)
  refine guards_require_bind (fun _ => hreleased) fun _ => ?_
  refine guards_accept_bind (fun _ _ => hreleased) fun _ _ => ?_
  refine guards_ask_bind.mpr ⟨⟨rfl, rfl⟩, fun _ => guards_deferring.mpr ?_⟩
  refine guards_ask_bind.mpr ⟨rfl, fun current => ?_⟩
  have hread := unlocks_updates (i := i) [⟨.readAccess account, current⟩] (by simp)
    (by simp [Unpublished])
  refine guards_ofExcept_bind.mpr ⟨fun found _ => ?_, fun _ _ => hread⟩
  refine guards_require_bind (fun _ => hread) fun _ => ?_
  refine guards_require_bind (fun _ => hread) fun _ => ?_
  refine guards_ask_bind.mpr ⟨⟨current, rfl⟩, fun reply => ?_⟩
  -- what the store committed is published, unless it is not what an update commits
  have hstored (hbad : ∀ p, reply = .ok p → ¬(expected < p.revision ∧ p.validate = .ok ())) :=
    unlocks_updates (i := i)
      [⟨.readAccess account, current⟩, ⟨.updateAccountAccess account next expected, reply⟩]
      (by simp) (by
        rintro account' p ⟨current', next', expected', heq, hp⟩
        obtain ⟨-, heq⟩ := cons.inj heq
        obtain ⟨-, heq⟩ := cons.inj heq
        obtain ⟨heq, -⟩ := cons.inj heq
        cases heq
        exact hbad p rfl hp)
  refine guards_accept_bind (fun e he => hstored (by simp [he])) fun persisted hok => ?_
  subst hok
  refine guards_require_bind (fun hnew => hstored ?_) fun hnew => ?_
  · rintro _ ⟨rfl⟩ ⟨hlt, -⟩
    exact hnew hlt
  refine guards_accept_bind (fun e he => hstored ?_) fun _ hvalid => ?_
  · rintro _ ⟨rfl⟩ ⟨-, hok⟩
    simp [hok] at he
  exact ⟨⟨current, next, expected, rfl, hnew, hvalid⟩, fun _ =>
    unlocks_updates [_, _, _] (by simp) (by simp [Unpublished])⟩

theorem released_record {tokens written : List Token} (rest : List Entry) :
    Released i (⟨.record account, true⟩ :: ⟨.lockRecord i account, tokens⟩ :: rest ++
      [⟨.unlockRecord i account written, ()⟩]) := by
  refine ⟨by simp [HoldsUpdates], ?_⟩
  rintro account' tokens' rest' ⟨heq, hnot⟩
  obtain ⟨hrecord, heq⟩ := cons.inj heq
  obtain ⟨-, rfl⟩ := cons.inj heq
  cases hrecord
  exact hnot written (by simp)

theorem keeps_deleteAPIKey {id : String} :
    (CredentialManager.deleteAPIKey i account id).Guards (Rule i) (fun h _ => Released i h) [] := by
  refine guards_ask_bind.mpr ⟨rfl, fun exists? => ?_⟩
  refine guards_require_bind (fun _ => by simp [Released, HoldsUpdates, HoldsRecord])
    fun hrecord => ?_
  subst hrecord
  refine guards_ask_bind.mpr ⟨⟨rfl, rfl⟩, fun tokens => ?_⟩
  split
  · refine guards_ask_bind.mpr ⟨⟨tokens, rfl, by simp⟩, fun reply => ?_⟩
    cases reply with
    | error =>
      exact ⟨⟨rfl, tokens, _, ⟨rfl, by simp⟩, .unchanged _ (by simp)⟩,
        fun _ => released_record [_]⟩
    | ok => exact ⟨⟨rfl, tokens, _, ⟨rfl, by simp⟩, .deleted id⟩, fun _ => released_record [_]⟩
  · exact ⟨⟨rfl, tokens, [], ⟨rfl, by simp⟩, .unchanged _ (by simp)⟩,
      fun _ => released_record []⟩

theorem keeps_issueAPIKey {id : String} {expiresIn : ℤ} :
    ((fun _ => ()) <$> CredentialManager.issueAPIKey i account id expiresIn).Guards (Rule i)
      (fun h _ => Released i h) [] := by
  refine guards_map.mpr (guards_ask_bind.mpr ⟨rfl, fun exists? => ?_⟩)
  have hreleased : Released i [⟨.record account, exists?⟩] := by
    simp [Released, HoldsUpdates, HoldsRecord]
  refine guards_require_bind (fun _ => hreleased) fun hrecord => ?_
  subst hrecord
  refine guards_require_bind (fun _ => hreleased) fun _ => ?_
  refine guards_ask_bind.mpr ⟨⟨rfl, rfl⟩, fun tokens => ?_⟩
  split
  · exact ⟨⟨rfl, tokens, [], ⟨rfl, by simp⟩, .unchanged _ (by simp)⟩,
      fun _ => released_record []⟩
  rename_i hfree
  refine guards_ask_bind.mpr ⟨⟨tokens, rfl, by simp⟩, fun reply => ?_⟩
  cases reply with
  | none =>
    exact ⟨⟨rfl, tokens, _, ⟨rfl, by simp⟩, .unchanged _ (by simp)⟩,
      fun _ => released_record [_]⟩
  | some issued =>
    refine guards_ask_bind.mpr
      ⟨⟨tokens, expiresIn, some issued, rfl, by simp⟩, fun reply => ?_⟩
    cases reply with
    | error e =>
      exact ⟨⟨rfl, tokens, _, ⟨rfl, by simp⟩, .unchanged _ (by simp)⟩,
        fun _ => released_record [_, _]⟩
    | ok _ =>
      refine ⟨⟨rfl, tokens, _, ⟨rfl, by simp⟩, .issued _ _ _ ?_⟩,
        fun _ => released_record [_, _]⟩
      simpa using hfree

theorem keeps_of_starts {db : Database} {accounts : ℕ → Option (Option String)} (i : ℕ)
    (p : Handler Unit) (h : (pool db accounts).starts i p) :
    p.Guards (Rule i) (fun h _ => Released i h) [] := by
  obtain ⟨account, next, expected, rfl⟩ | ⟨account, rfl⟩ | ⟨account, id, expiresIn, rfl⟩ |
    ⟨account, id, rfl⟩ := h
  · exact keeps_update
  · exact keeps_register
  · exact keeps_issueAPIKey
  · exact keeps_deleteAPIKey

theorem obeys_of_starts {db : Database} {accounts : ℕ → Option (Option String)} (i : ℕ)
    (p : Handler Unit) (h : (pool db accounts).starts i p) :
    p.Guards (Rule i) (fun _ _ => True) [] :=
  (keeps_of_starts i p h).conseq fun _ _ _ _ => trivial

end programs

/-! ## Answers of a script -/

/-- How calls are answered in a script: whether the acknowledgement of a commit is lost, and
what the token codec issues. -/
structure Manner where
  lost : Bool := false
  issued : Option Issued := none

namespace Manner

def commit {α : Type} (m : Manner) (x : Except StoreError (α × Database)) (s : Shared) :
    Except StoreError α × Shared :=
  match x with
  | .ok (a, db) => (if m.lost then .error .unavailable else .ok a, { s with db := db })
  | .error e => (.error e, s)

theorem committed_commit {α : Type} (m : Manner) (x : Except StoreError (α × Database))
    (s : Shared) : Committed x s (m.commit x s).1 (m.commit x s).2 := by
  unfold commit Committed
  rcases x with e | ⟨a, db⟩
  · exact ⟨.inl rfl, rfl⟩
  · cases m.lost
    · exact .inl ⟨rfl, rfl⟩
    · exact .inr ⟨rfl, .inr rfl⟩

def answer (m : Manner) (s : Shared) : (c : Call) → Option (c.Reply × Shared)
  | .lockUpdates turn =>
    if s.updates = none then some ((), { s with updates := some turn }) else none
  | .unlockUpdates _ => some ((), { s with updates := none })
  | .readAccess account => some (s.memory.access account, s)
  | .publishAccess account a => some ((), s.publish account a)
  | .registerAccess account a => some (s.register account a)
  | .getAccountAccess account => some (getAccountAccess s.db account, s)
  | .updateAccountAccess account next expected =>
    some (m.commit (updateAccountAccess s.db account next expected) s)
  | .record account => some ((s.memory.records account).isSome, s)
  | .lockRecord turn account =>
    match s.holders account, s.memory.records account with
    | none, some record => some (record.tokens, s.hold account turn)
    | _, _ => none
  | .unlockRecord _ account tokens => some ((), s.release account tokens)
  | .issue .. => some (m.issued, s)
  | .createAPIKeyMetadata account token =>
    some (m.commit (bare (createAPIKeyMetadata s.db account token)) s)
  | .deleteAPIKeyMetadata account id =>
    some (m.commit (bare (deleteAPIKeyMetadata s.db account id)) s)

theorem lawful (m : Manner) {s : Shared} {c : Call} {r : c.Reply} {s' : Shared}
    (h : m.answer s c = some (r, s')) : serves s c r s' := by
  have hcommit {α : Type} {x : Except StoreError (α × Database)} {r : Except StoreError α}
      (h : some (m.commit x s) = some (r, s')) : Committed x s r s' := by
    have := m.committed_commit x s
    rwa [Option.some.inj h] at this
  cases c with
  | lockUpdates =>
    simp only [answer] at h
    split at h
    · rename_i hfree
      cases h
      exact ⟨hfree, rfl⟩
    · cases h
  | updateAccountAccess | createAPIKeyMetadata | deleteAPIKeyMetadata => exact hcommit h
  | lockRecord =>
    simp only [answer] at h
    split at h
    · rename_i record hfree hrecord
      cases h
      exact ⟨hfree, by rw [hrecord]; rfl, rfl⟩
    · cases h
  | unlockUpdates | publishAccess | unlockRecord | issue => cases h; rfl
  | readAccess | record => cases h; exact ⟨rfl, rfl⟩
  | registerAccess => exact (Option.some.inj h).symm
  | getAccountAccess => cases h; exact ⟨.inl rfl, rfl⟩

def responder (m : Manner) (db : Database) (accounts : ℕ → Option (Option String)) :
    (pool db accounts).Responder := ⟨m.answer, m.lawful⟩

end Manner

/-! ## Acts of a script -/

namespace Act
variable {db : Database} {accounts : ℕ → Option (Option String)}

def update (i account : ℕ) (next : Access) (expected : ℕ) : (pool db accounts).Act :=
  Pool.Act.start i _ (Or.inl ⟨account, next, expected, rfl⟩)

def register (i account : ℕ) : (pool db accounts).Act :=
  Pool.Act.start i _ (Or.inr (Or.inl ⟨account, rfl⟩))

def issueAPIKey (i account : ℕ) (id : String) (expiresIn : ℤ) : (pool db accounts).Act :=
  Pool.Act.start i _ (Or.inr (Or.inr (Or.inl ⟨account, id, expiresIn, rfl⟩)))

def deleteAPIKey (i account : ℕ) (id : String) : (pool db accounts).Act :=
  Pool.Act.start i _ (Or.inr (Or.inr (Or.inr ⟨account, id, rfl⟩)))

def calls (m : Manner) (i n : ℕ) : (pool db accounts).Act := .calls (m.responder db accounts) i n

def elsewhere (account : ℕ) (next : Access) (expected : ℕ) : (pool db accounts).Act :=
  .drift
    (fun s => (updateAccountAccess s.db account next expected).toOption.map fun r =>
      { s with db := r.2 })
    (by
      intro s s' h
      obtain ⟨⟨persisted, db⟩, hr, rfl⟩ := Option.map_eq_some_iff.mp h
      refine .inl ⟨account, next, expected, persisted, db, ?_, rfl⟩
      cases hx : updateAccountAccess s.db account next expected with
      | ok => rw [hx] at hr; cases hr; rfl
      | error => rw [hx] at hr; cases hr)

end Act

end Athena.Accounts
