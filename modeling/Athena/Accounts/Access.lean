import Athena.Lib.Table
import Athena.Lib.Text

/-!
# Account access and API Key metadata

The access aggregate of an account, its validation, and the transactions of the
account-state store.  An access head is kept together with the module rows of its account
and with the administrator column of the account, which every read joins to it.

The module matrix is a partial map over the known modules, so a module or a level that the
product does not have cannot be written down.
-/

namespace Athena.Accounts

open Athena.Lib Table Athena.Lib.Text

/-! ## Access -/

inductive Module
  | marketRadar | sportsLive | sportsHistory | managedOO | wormMarkets | wormTrading
  | worldCupCorners | token | wallet
  deriving DecidableEq

inductive AccessLevel
  | none | read | readWrite
  deriving DecidableEq

def allModules : List Module :=
  [.marketRadar, .sportsLive, .sportsHistory, .managedOO, .wormMarkets, .wormTrading,
    .worldCupCorners, .token, .wallet]

def maxAccessLevel : Module → AccessLevel
  | .marketRadar | .sportsLive | .wormMarkets | .worldCupCorners => .read
  | .sportsHistory | .managedOO | .wormTrading | .token | .wallet => .readWrite

/-- A complete module matrix with every level set to `none`. -/
def noModuleAccess : Module → Option AccessLevel := fun _ => some .none

/-- One durable account's complete effective access aggregate. -/
structure Access where
  administrator : Bool
  loginEnabled : Bool
  apiKeyEnabled : Bool
  profitSharingEnabled : Bool
  modules : Module → Option AccessLevel
  revision : ℕ

inductive AccessError
  | moduleCount
  | moduleMissing (m : Module)
  | readWriteUnsupported (m : Module)
  | administratorFlags
  | administratorModule (m : Module)
  deriving DecidableEq

def validateModuleAccessLevel (m : Module) (level : AccessLevel) : Except AccessError Unit :=
  match level with
  | .none | .read => .ok ()
  | .readWrite => ensure (maxAccessLevel m = .readWrite) (.readWriteUnsupported m)

namespace Access

/-- Exactly one valid level for every known product module, and nothing but the login for
an administrator. -/
def validate (a : Access) : Except AccessError Unit := do
  ensure ((allModules.filter fun m => (a.modules m).isSome).length = allModules.length) .moduleCount
  allModules.forM fun m => do
    let level ← found (a.modules m) (.moduleMissing m)
    validateModuleAccessLevel m level
  if a.administrator then
    ensure (a.loginEnabled ∧ ¬a.apiKeyEnabled ∧ ¬a.profitSharingEnabled) .administratorFlags
    allModules.forM fun m => ensure (a.modules m = some .none) (.administratorModule m)

end Access

/-! ## The account-state store -/

/-- Bearer-secret-free durable metadata for an issued API Key. -/
structure Token where
  id : String
  jti : String
  issuedAt : ℤ
  expiresAt : ℤ := 0
  deriving DecidableEq

structure AccessRow where
  account : ℕ
  access : Access

/-- A row of API Key metadata.  The table checks the token identifier. -/
structure KeyRow where
  account : ℕ
  token : Token
  jti_check : trimSpace token.jti ≠ ""

def KeyRow.key (r : KeyRow) : ℕ × String := (r.account, r.token.id)

structure Database where
  access : Table AccessRow.account := .empty
  keys : Table KeyRow.key := .empty

inductive StoreError
  | unavailable
  | notFound
  | revisionRange
  | revisionMismatch
  | administratorSupplied
  | invalid (e : AccessError)
  | revisionConflict
  | displayId
  | jti
  | issueTime
  | expiry
  | apiKeyAccessDisabled
  | constraint
  | noRows
  deriving DecidableEq

namespace Database

def accessOf (db : Database) (account : ℕ) : Option Access :=
  (db.access.get? account).map AccessRow.access

def tokensOf (db : Database) (account : ℕ) : List Token :=
  (db.keys.rows.filter fun r => r.account = account).map KeyRow.token

end Database

/-- The display identifiers `^[A-Za-z0-9][A-Za-z0-9._-]{0,63}$`. -/
def isValidAPIKeyDisplayID (id : String) : Bool :=
  match id.toList with
  | [] => false
  | c :: cs => c.isAlphanum && cs.length ≤ 63 &&
      cs.all fun d => d.isAlphanum || d = '.' || d = '_' || d = '-'

section transactions
variable (db : Database) (account : ℕ)

def getAccountAccess : Except StoreError Access := do
  let access ← found (db.accessOf account) .notFound
  match access.validate with
  | .ok () => pure access
  | .error e => .error (.invalid e)

/-- Replace one ordinary account's full access aggregate, by compare-and-set on its
revision. -/
def updateAccountAccess (next : Access) (expected : ℕ) :
    Except StoreError (Access × Database) := do
  ensure (0 < expected ∧ expected < maxInt64) .revisionRange
  ensure (next.revision = expected) .revisionMismatch
  ensure (¬next.administrator) .administratorSupplied
  match next.validate with
  | .error e => .error (.invalid e)
  | .ok () => do
      let head ← found (db.accessOf account) .revisionConflict
      ensure (¬head.administrator ∧ head.revision = expected) .revisionConflict
      let persisted := { next with administrator := false, revision := expected + 1 }
      pure (persisted, { db with access := db.access.put ⟨account, persisted⟩ })

/-- Commit API Key metadata, only while both login and API Key access are enabled. -/
def createAPIKeyMetadata (token : Token) : Except StoreError Database := do
  ensure (isValidAPIKeyDisplayID token.id) .displayId
  if h : trimSpace token.jti ≠ "" ∧ token.jti = trimSpace token.jti then
    ensure (0 < token.issuedAt) .issueTime
    ensure (token.expiresAt = 0 ∨ token.issuedAt < token.expiresAt) .expiry
    let access ← found (db.accessOf account) .apiKeyAccessDisabled
    ensure (access.loginEnabled ∧ access.apiKeyEnabled) .apiKeyAccessDisabled
    ensure (∀ r ∈ db.keys.rows, r.token.jti ≠ token.jti) .constraint
    let keys ← found (db.keys.insert? ⟨account, token, h.1⟩) .constraint
    pure { db with keys := keys }
  else .error .jti

def deleteAPIKeyMetadata (id : String) : Except StoreError Database := do
  let row ← found (db.keys.get? (account, id)) .noRows
  -- the token identifier that the statement returns is checked after it; the table does not
  -- hold an empty one
  ensure (trimSpace row.token.jti ≠ "") .jti
  pure { db with keys := db.keys.filter fun r => r.key ≠ (account, id) }

end transactions

/-! ## What a transaction commits -/

section committed
variable {db db' : Database} {account : ℕ} {next persisted : Access} {expected : ℕ} {token : Token}
  {id : String}

section
variable (h : updateAccountAccess db account next expected = .ok (persisted, db'))
include h

theorem updateAccountAccess_ok :
    persisted = { next with administrator := false, revision := expected + 1 } ∧
      next.administrator = false ∧ next.validate = .ok () ∧
      (∃ head, db.accessOf account = some head ∧ head.revision = expected) ∧
      db' = { db with access := db.access.put ⟨account, persisted⟩ } := by
  simp only [updateAccountAccess, committed] at h
  obtain ⟨-, -, hadmin, h⟩ := h
  split at h
  · cases h
  · rename_i hvalid
    simp only [committed] at h
    obtain ⟨head, hhead, ⟨-, hrevision⟩, rfl, rfl⟩ := h
    exact ⟨rfl, by simpa using hadmin, hvalid, ⟨head, hhead, hrevision⟩, rfl⟩

theorem accessOf_updateAccountAccess (a : ℕ) :
    db'.accessOf a = if a = account then some persisted else db.accessOf a := by
  obtain ⟨-, -, -, ⟨head, hhead, -⟩, rfl⟩ := updateAccountAccess_ok h
  obtain ⟨row, hrow, -⟩ := Option.map_eq_some_iff.mp hhead
  unfold Database.accessOf
  by_cases ha : a = account
  · subst ha
    rw [if_pos rfl, get?_put_self (a := ⟨a, persisted⟩) (mem_of_get? hrow)
      (key_of_get? hrow)]
    rfl
  · rw [if_neg ha, get?_put_of_ne ha]

theorem revision_updateAccountAccess : persisted.revision = expected + 1 :=
  congrArg Access.revision (updateAccountAccess_ok h).1

theorem validate_updateAccountAccess : persisted.validate = .ok () := by
  obtain ⟨rfl, hadmin, hvalid, -⟩ := updateAccountAccess_ok h
  have : ({ next with administrator := false, revision := expected + 1 } : Access).validate =
      next.validate := by
    simp only [Access.validate, hadmin]
  rw [this, hvalid]

theorem keys_updateAccountAccess : db'.keys = db.keys := by
  obtain ⟨-, -, -, -, rfl⟩ := updateAccountAccess_ok h
  rfl

end

theorem createAPIKeyMetadata_ok (h : createAPIKeyMetadata db account token = .ok db') :
    db'.access = db.access ∧ (∃ r ∈ db'.keys, r.account = account ∧ r.token = token) ∧
      ∀ r, r ∈ db'.keys ↔ r ∈ db.keys ∨ (r.account = account ∧ r.token = token) := by
  obtain ⟨-, h⟩ := of_ensure h
  split at h
  · rename_i hjti
    simp only [committed] at h
    obtain ⟨-, -, -, -, -, -, keys, hkeys, rfl⟩ := h
    refine ⟨rfl, ⟨⟨account, token, hjti.1⟩, ?_, rfl, rfl⟩, fun r => ?_⟩
    · exact (Table.mem_insert? hkeys).mpr (.inr rfl)
    rw [Table.mem_insert? hkeys]
    refine or_congr_right ⟨?_, ?_⟩
    · rintro rfl
      exact ⟨rfl, rfl⟩
    · obtain ⟨account', token', hjti⟩ := r
      rintro ⟨rfl, rfl⟩
      rfl
  · cases h

theorem deleteAPIKeyMetadata_ok (h : deleteAPIKeyMetadata db account id = .ok db') :
    db'.access = db.access ∧ ∀ r, r ∈ db'.keys ↔ r ∈ db.keys ∧ r.key ≠ (account, id) := by
  simp only [deleteAPIKeyMetadata, committed] at h
  obtain ⟨row, -, -, rfl⟩ := h
  exact ⟨rfl, fun r => by simp⟩

theorem mem_tokensOf : token ∈ db.tokensOf account ↔
    ∃ r ∈ db.keys, r.account = account ∧ r.token = token := by
  simp [Database.tokensOf, mem_rows, and_assoc]

theorem nodup_tokensOf (db : Database) (account : ℕ) :
    ((db.tokensOf account).map Token.id).Nodup := by
  rw [Database.tokensOf, List.map_map]
  refine List.Nodup.map_on ?_ (db.keys.nodup.of_map.filter _)
  intro r hr r' hr' hid
  rw [List.mem_filter, decide_eq_true_eq] at hr hr'
  exact eq_of_key_eq hr.1 hr'.1 (Prod.ext (hr.2.trans hr'.2.symm) hid)

end committed

end Athena.Accounts
