import Athena.Accounts.Access
import Athena.Lib.Program

/-!
# The access controller and the credential manager of a process

A process keeps the access and the tokens of every account in memory, and publishes a
change there after the store has committed it.  A mutex is taken and released by a call,
and what is done under the short map lock is one call.  The token list of an account is
read when its mutex is taken and written when it is released.
-/

namespace Athena.Accounts

open Athena.Lib Athena.Lib.Text

/-! ## Calls -/

structure Issued where
  tokenString : String
  jti : String
  issuedAt : ℤ
  expiresAt : ℤ

/-- The steps of the modelled functions.  A mutex is held in the name of a turn. -/
inductive Call
  | lockUpdates (turn : ℕ)
  | unlockUpdates (turn : ℕ)
  | readAccess (account : ℕ)
  | publishAccess (account : ℕ) (access : Access)
  | registerAccess (account : ℕ) (access : Access)
  | getAccountAccess (account : ℕ)
  | updateAccountAccess (account : ℕ) (next : Access) (expected : ℕ)
  | record (account : ℕ)
  | lockRecord (turn account : ℕ)
  | unlockRecord (turn account : ℕ) (tokens : List Token)
  | issue (account : ℕ) (expiresIn : ℤ)
  | createAPIKeyMetadata (account : ℕ) (token : Token)
  | deleteAPIKeyMetadata (account : ℕ) (id : String)

@[reducible] def Call.Reply : Call → Type
  | .lockUpdates _ | .unlockUpdates _ | .publishAccess .. | .unlockRecord .. => Unit
  | .readAccess _ => Option Access
  | .registerAccess .. => Access
  | .getAccountAccess _ | .updateAccountAccess .. => Except StoreError Access
  | .record _ => Bool
  | .lockRecord .. => List Token
  | .issue .. => Option Issued
  | .createAPIKeyMetadata .. | .deleteAPIKeyMetadata .. => Except StoreError Unit

inductive Failure
  | revisionMismatch
  | revisionRange
  | invalid (e : AccessError)
  | accountNotFound
  | administratorFixed
  | revisionConflict
  | store (e : StoreError)
  | notIncremented
  | zeroRevision
  | invalidPersisted (e : AccessError)
  | invalidDisplayId
  | tokenExists
  | tokenNotFound
  | issue
  deriving DecidableEq

abbrev Handler := Program Call Call.Reply Failure

abbrev Entry : Type := Program.Entry Call.Reply

namespace Handler

def ask (c : Call) : Handler c.Reply := Program.ask c

def require (p : Prop) [Decidable p] (e : Failure) : Handler Unit := .ofExcept (ensure p e)

def accept {ε α : Type} (reply : Except ε α) (f : ε → Failure) : Handler α :=
  .ofExcept (reply.mapError f)

end Handler

open Handler

/-! ## The access controller -/

namespace Controller

/-- Publish a newly committed durable account.  A newer revision already present is never
overwritten. -/
def register (account : ℕ) : Handler Access := do
  let persisted ← accept (← ask (.getAccountAccess account)) .store
  require (persisted.revision ≠ 0) .zeroRevision
  accept persisted.validate .invalidPersisted
  ask (.registerAccess account persisted)

/-- The part of `update` under its mutex. -/
def updateLocked (account : ℕ) (next : Access) (expected : ℕ) : Handler Access := do
  let current ← Program.ofExcept (found (← ask (.readAccess account)) .accountNotFound)
  require (¬current.administrator) .administratorFixed
  require (current.revision = expected) .revisionConflict
  let persisted ← accept (← ask (.updateAccountAccess account next expected)) .store
  require (expected < persisted.revision) .notIncremented
  accept persisted.validate .invalidPersisted
  ask (.publishAccess account persisted)
  pure persisted

def update (turn account : ℕ) (next : Access) (expected : ℕ) : Handler Access := do
  require (next.revision = expected) .revisionMismatch
  require (expected < maxInt64) .revisionRange
  accept next.validate .invalid
  ask (.lockUpdates turn)
  (updateLocked account next expected).deferring (.unlockUpdates turn)

end Controller

/-! ## The credential manager -/

namespace CredentialManager

def eraseToken (tokens : List Token) (id : String) : List Token :=
  tokens.eraseP fun t => t.id = id

def issueAPIKey (turn account : ℕ) (id : String) (expiresIn : ℤ) : Handler String := do
  require ((← ask (.record account)) = true) .accountNotFound
  require (isValidAPIKeyDisplayID id) .invalidDisplayId
  let tokens : List Token ← ask (.lockRecord turn account)
  if tokens.any fun t => t.id = id then
    ask (.unlockRecord turn account tokens)
    .fail .tokenExists
  else
    match ← ask (.issue account expiresIn) with
    | none =>
      ask (.unlockRecord turn account tokens)
      .fail .issue
    | some issued =>
      let metadata : Token := ⟨id, issued.jti, issued.issuedAt, issued.expiresAt⟩
      match ← ask (.createAPIKeyMetadata account metadata) with
      | .error e =>
        ask (.unlockRecord turn account tokens)
        .fail (.store e)
      | .ok () =>
        ask (.unlockRecord turn account (tokens ++ [metadata]))
        pure issued.tokenString

def deleteAPIKey (turn account : ℕ) (id : String) : Handler Unit := do
  require ((← ask (.record account)) = true) .accountNotFound
  let tokens : List Token ← ask (.lockRecord turn account)
  if tokens.any fun t => t.id = id then
    match ← ask (.deleteAPIKeyMetadata account id) with
    | .error e =>
      ask (.unlockRecord turn account tokens)
      .fail (.store e)
    | .ok () => ask (.unlockRecord turn account (eraseToken tokens id))
  else
    ask (.unlockRecord turn account tokens)
    .fail .tokenNotFound

end CredentialManager

/-! ## Authentication -/

inductive Capability
  | login | apiKey | development
  deriving DecidableEq

/-- The projection of a signed token whose signature and shape the codec has checked. -/
structure ParsedToken where
  account : ℕ
  capability : Capability
  jti : String
  identityBinding : String

/-- The projection of the credential that authenticated a request. -/
structure AuthenticatedCredential where
  account : ℕ
  capability : Capability
  jti : String
  identityBinding : String
  accessRevision : ℕ
  deriving DecidableEq

/-- An account in memory: the binding of its external identity, if it has one, and its API
Keys. -/
structure Record where
  identityBinding : Option String
  tokens : List Token

structure Memory where
  access : ℕ → Option Access
  records : ℕ → Option Record

inductive AuthError
  | accountNotFound
  | maintenance
  | apiKeyDisabled
  | bindingChanged
  | unknownJti
  | unsupportedCapability
  | revoked
  deriving DecidableEq

def validateCredential (m : Memory) (account : ℕ) (capability : Capability)
    (jti tokenIdentityBinding : String) : Except AuthError Unit := do
  let record ← found (m.records account) .accountNotFound
  match capability with
  | .login => ensure (record.identityBinding = some tokenIdentityBinding) .bindingChanged
  | .apiKey => ensure (record.tokens.any fun t => t.jti = jti) .unknownJti
  | .development => .error .unsupportedCapability

/-- Check a parsed token against the memory of the process and its revoked tokens. -/
def authenticateToken (m : Memory) (isTokenRevoked : String → Bool) (parsed : ParsedToken) :
    Except AuthError AuthenticatedCredential := do
  let access ← found (m.access parsed.account) .accountNotFound
  ensure access.loginEnabled .maintenance
  ensure (¬(parsed.capability = .apiKey ∧ ¬access.apiKeyEnabled)) .apiKeyDisabled
  validateCredential m parsed.account parsed.capability parsed.jti parsed.identityBinding
  ensure (¬(parsed.jti = "" ∨ isTokenRevoked parsed.jti)) .revoked
  pure ⟨parsed.account, parsed.capability, parsed.jti, parsed.identityBinding, access.revision⟩

def Access.enables (a : Access) : Capability → Bool
  | .apiKey => a.loginEnabled && a.apiKeyEnabled
  | _ => a.loginEnabled

theorem authenticateToken_ok {m : Memory} {isTokenRevoked : String → Bool} {parsed : ParsedToken}
    {credential : AuthenticatedCredential}
    (h : authenticateToken m isTokenRevoked parsed = .ok credential) :
    (∃ access, m.access parsed.account = some access ∧ access.enables parsed.capability) ∧
      ∃ record, m.records parsed.account = some record ∧
        (parsed.capability = .apiKey → ∃ t ∈ record.tokens, t.jti = parsed.jti) := by
  obtain ⟨account, capability, jti, binding⟩ := parsed
  simp only [authenticateToken, validateCredential, committed] at h
  obtain ⟨access, haccess, hlogin, hkey, _, ⟨record, hrecord, hvalid⟩, -⟩ := h
  refine ⟨⟨access, haccess, ?_⟩, record, hrecord, ?_⟩
  · cases capability <;> simp_all [Access.enables]
  · rintro rfl
    simpa using hvalid

end Athena.Accounts
