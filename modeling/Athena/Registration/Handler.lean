import Athena.Lib.Program
import Athena.Registration.Directory

/-!
# Registration of external identities

A provider that has verified an identity without an account leaves a ticket in Redis, under
a random id that only the browser knows.  A submission of a username claims the ticket for a
minute, registers the account in PostgreSQL, and completes the ticket.  Submissions, retries
and cancellations for one ticket, and tickets for one identity, run side by side.

Every Redis script, every SQL statement and every access to the memory of a process is one
call.
-/

namespace Athena.Registration

open Athena.Lib

/-- What the functions are configured with: the reserved usernames, and the path that a
browser is sent to in a realm. -/
structure Rules where
  blocklist : List String
  returnToForRealm : String → Realm → String

/-! ## Tickets -/

/-- An identity that waits for a username. -/
structure Ticket where
  identity : Identity
  returnTo : String
  csrfSecret : String
  createdAt : ℕ
  deriving DecidableEq

def registrationTTL : ℕ := 900

def registrationClaimTTL : ℕ := 60

inductive RegistrationError
  | notFound
  | inProgress
  | unavailable
  | invalid
  deriving DecidableEq

def validateTicket (rules : Rules) (ticket : Ticket) : Bool :=
  ticket.identity.isValid && ticket.returnTo ≠ "" &&
    ticket.returnTo = rules.returnToForRealm ticket.returnTo ticket.identity.realm &&
    ticket.csrfSecret ≠ ""

def registrationFresh (now createdAt : ℕ) : Bool :=
  createdAt ≤ now + 60 && now ≤ createdAt + registrationTTL

/-- A ticket must be valid, and not too old. -/
def decodeTicket (rules : Rules) (now : ℕ) (ticket : Ticket) : Except RegistrationError Ticket :=
  if !validateTicket rules ticket then .error .invalid
  else if !registrationFresh now ticket.createdAt then .error .notFound
  else .ok ticket

def constantTimeEqual (left right : String) : Bool := left ≠ "" && left = right

/-- `ValidOpaqueValue`: 32 bytes in unpadded URL-safe base 64.  Line breaks are skipped. -/
def validOpaqueValue (value : String) : Bool :=
  let digits := value.toList.filter fun c => c ≠ '\r' && c ≠ '\n'
  digits.length = 43 && digits.all fun c => isUsernameLetter c || c = '-' || c = '_'

/-! ## Failures -/

inductive Constraint
  | username
  | singleAdministrator
  deriving DecidableEq

/-- Why the statement that creates an account returns no row. -/
inductive CreateError
  | noRows
  | unique (constraint : Constraint)
  | database
  deriving DecidableEq

inductive RegisterError
  | usernameInvalid
  | usernameUnavailable
  | identityNotAllowed
  | other
  deriving DecidableEq

inductive LoginError
  | maintenance
  | identityNotAllowed
  | other
  deriving DecidableEq

inductive Reason
  | usernameInvalid
  | usernameUnavailable
  | registrationExpired
  | registrationUnavailable
  | googleNotAllowed
  | maintenance
  deriving DecidableEq

/-- Why a function fails: what the store or the directory says, or the response of a handler
with its status. -/
inductive Failure
  | registration (e : RegistrationError)
  | register (e : RegisterError)
  | response (status : ℕ) (reason : Reason)
  deriving DecidableEq

/-! ## Calls -/

/-- What a handler can ask of its environment. -/
inductive Call
  | now
  | random
  | setTicket (id : String) (ticket : Ticket)
  | getTicket (id : String)
  | claim (id claimID : String)
  | releaseClaim (id claimID : String)
  | complete (id claimID : String)
  | deleteTicket (id : String)
  | memoryIdentity (process : ℕ) (key : IdentityKey)
  | memoryGet (process account : ℕ)
  | publish (process : ℕ) (account : Account)
  | accountByIdentity (key : IdentityKey)
  | createAccount (username : String) (identity : Identity)
  | listAccounts
  | registerAccess (process account : ℕ)
  | createLogin (process account : ℕ) (identity : Identity)

@[reducible] def Call.Reply : Call → Type
  | .now => ℕ
  | .random => Option String
  | .setTicket .. => Except RegistrationError Bool
  | .getTicket _ | .claim .. => Except RegistrationError Ticket
  | .releaseClaim .. | .complete .. | .deleteTicket _ => Except RegistrationError Unit
  | .memoryIdentity .. => Option ℕ
  | .memoryGet .. => Option Account
  | .publish .. | .registerAccess .. => Bool
  | .accountByIdentity _ => Except RegisterError (Option Account)
  | .createAccount .. => Except CreateError Account
  | .listAccounts => Except RegisterError (List Account)
  | .createLogin .. => Except LoginError Unit

abbrev Handler := Program Call Call.Reply Failure

abbrev Entry : Type := Program.Entry Call.Reply

def ask (c : Call) : Handler c.Reply := Program.ask c

def require (p : Prop) [Decidable p] (e : Failure) : Handler Unit := .ofExcept (ensure p e)

def stored {α : Type} (reply : Except RegistrationError α) : Handler α :=
  .ofExcept (reply.mapError .registration)

def listed {α : Type} (reply : Except RegisterError α) : Handler α :=
  .ofExcept (reply.mapError .register)

def expect {α : Type} (value : Option α) (e : Failure) : Handler α := .ofExcept (found value e)

/-! ## Accounts -/

namespace SQLStore

/-- What a row that could not be added means. -/
def resolveRegistrationConflict (identity : Identity) (e : CreateError) : Handler Account := do
  let existing : Option Account ← listed (← ask (.accountByIdentity identity.key))
  match existing with
  | some account => pure account
  | none =>
    match e with
    | .noRows | .database => .fail (.register .other)
    | .unique constraint =>
      if identity.realm.administrator then
        let accounts : List Account ← listed (← ask .listAccounts)
        require (¬accounts.any (·.administrator)) (.register .identityNotAllowed)
      match constraint with
      | .username => .fail (.register .usernameUnavailable)
      | .singleAdministrator => .fail (.register .identityNotAllowed)

def registerExternalAccount (rules : Rules) (identity : Identity) (username : String) :
    Handler Account := do
  let identity ← expect (normalizeExternalIdentity identity) (.register .other)
  require (identity.realm.administrator → identity.provider = .google) (.register .other)
  require (validateUsername rules.blocklist username identity.realm.administrator)
    (.register .usernameInvalid)
  let existing : Option Account ← listed (← ask (.accountByIdentity identity.key))
  match existing with
  | some account => pure account
  | none =>
    let created : Except CreateError Account ← ask (.createAccount username identity)
    match created with
    | .error e => resolveRegistrationConflict identity e
    | .ok account =>
      require (account.username = username ∧ account.key = some identity.key) (.register .other)
      pure account

end SQLStore

namespace CredentialManager

def publishAndGet (process : ℕ) (account : Account) : Handler Account := do
  let published : Bool ← ask (.publish process account)
  require published (.register .other)
  expect (← ask (.memoryGet process account.id)) (.register .other)

/-- By the memory of the process, or else by the directory. -/
def getByIdentity (process : ℕ) (identity : Identity) : Handler (Option Account) := do
  match normalizeIdentitySubject identity.provider identity.subject with
  | none => pure none
  | some subject =>
    let key : IdentityKey := ⟨identity.provider, subject, identity.realm⟩
    let known : Option ℕ ← ask (.memoryIdentity process key)
    match known with
    | some id =>
      let account ← expect (← ask (.memoryGet process id)) (.register .other)
      pure (some account)
    | none =>
      let durable : Option Account ← listed (← ask (.accountByIdentity key))
      match durable with
      | none => pure none
      | some account =>
        require (account.key = some key) (.register .other)
        let account ← publishAndGet process account
        pure (some account)

def registerExternalAccount (rules : Rules) (process : ℕ) (identity : Identity)
    (username : String) : Handler Account := do
  let identity ← expect (normalizeExternalIdentity identity) (.register .identityNotAllowed)
  require (identity.realm.administrator → identity.provider = .google)
    (.register .identityNotAllowed)
  let existing ← getByIdentity process identity
  match existing with
  | some account => pure account
  | none =>
    require (validateUsername rules.blocklist username identity.realm.administrator)
      (.register .usernameInvalid)
    let account ← SQLStore.registerExternalAccount rules identity username
    require (account.key = some identity.key) (.register .other)
    publishAndGet process account

end CredentialManager

/-! ## Tickets and claims -/

namespace Store

def get (rules : Rules) (id : String) : Handler Ticket := do
  let ticket : Ticket ← stored (← ask (.getTicket id))
  let now : ℕ ← ask .now
  stored (decodeTicket rules now ticket)

def claim (rules : Rules) (id claimID : String) : Handler Ticket := do
  let ticket : Ticket ← stored (← ask (.claim id claimID))
  let now : ℕ ← ask .now
  match decodeTicket rules now ticket with
  | .ok ticket => pure ticket
  | .error e =>
    let _ ← ask (.releaseClaim id claimID)
    .fail (.registration e)

end Store

/-! ## The handlers -/

def ticketFromRequest (rules : Rules) (cookie : Option String) : Handler (String × Ticket) := do
  let id ← expect (cookie.filter fun value => validOpaqueValue value)
    (.response 401 .registrationExpired)
  let ticket : Except Failure Ticket ← (Store.get rules id).attempt
  match ticket with
  | .ok ticket => pure (id, ticket)
  | .error (.registration .notFound) => .fail (.response 401 .registrationExpired)
  | .error _ => .fail (.response 503 .registrationUnavailable)

def claimFailed : RegistrationError → Failure
  | .notFound => .response 401 .registrationExpired
  | .inProgress => .response 409 .registrationUnavailable
  | .unavailable | .invalid => .response 503 .registrationUnavailable

def registerFailed (provider : Provider) : RegisterError → Failure
  | .usernameInvalid => .response 400 .usernameInvalid
  | .usernameUnavailable => .response 409 .usernameUnavailable
  | .identityNotAllowed =>
    if provider = .google then .response 403 .googleNotAllowed
    else .response 503 .registrationUnavailable
  | .other => .response 503 .registrationUnavailable

def failed (provider : Provider) : Failure → Failure
  | .registration e => claimFailed e
  | .register e => registerFailed provider e
  | .response status reason => .response status reason

structure Submission where
  username : String
  csrfToken : String

/-- Register the account, and consume the ticket. -/
def submit (rules : Rules) (process : ℕ) (id claimID : String) (ticket : Ticket)
    (username : String) : Handler Account := do
  let account ← CredentialManager.registerExternalAccount rules process ticket.identity username
  let published : Bool ← ask (.registerAccess process account.id)
  require published (.response 503 .registrationUnavailable)
  stored (← ask (.complete id claimID))
  pure account

def login (process account : ℕ) (identity : Identity) : Handler Unit := do
  let reply : Except LoginError Unit ← ask (.createLogin process account identity)
  match reply with
  | .ok _ => pure ()
  | .error .maintenance => .fail (.response 503 .maintenance)
  | .error .identityNotAllowed =>
    if identity.provider = .google then .fail (.response 403 .googleNotAllowed)
    else .fail (.response 503 .registrationUnavailable)
  | .error .other => .fail (.response 503 .registrationUnavailable)

/-- A submission.  Unless the ticket was consumed, its claim is released at the end. -/
def create (rules : Rules) (process : ℕ) (cookie : Option String) (body : Option Submission) :
    Handler Unit := do
  let (id, ticket) ← ticketFromRequest rules cookie
  let input ← expect body (.response 400 .usernameInvalid)
  require (constantTimeEqual input.csrfToken ticket.csrfSecret) (.response 403 .registrationExpired)
  require (validateUsername rules.blocklist input.username ticket.identity.realm.administrator)
    (.response 400 .usernameInvalid)
  let claimID ← expect (← ask .random) (.response 503 .registrationUnavailable)
  let claimed : Except Failure Ticket ← (Store.claim rules id claimID).attempt
  match claimed with
  | .error e => .fail (failed ticket.identity.provider e)
  | .ok ticket =>
    if constantTimeEqual input.csrfToken ticket.csrfSecret then
      let account : Except Failure Account ←
        (submit rules process id claimID ticket input.username).attempt
      match account with
      | .error e =>
        let _ ← ask (.releaseClaim id claimID)
        .fail (failed ticket.identity.provider e)
      | .ok account => login process account.id ticket.identity
    else
      let _ ← ask (.releaseClaim id claimID)
      .fail (.response 403 .registrationExpired)

/-- A cancellation. -/
def delete (rules : Rules) (cookie : Option String) (csrfToken : String) : Handler Unit := do
  let (id, ticket) ← ticketFromRequest rules cookie
  require (constantTimeEqual csrfToken ticket.csrfSecret) (.response 403 .registrationExpired)
  let deleted : Except RegistrationError Unit ← ask (.deleteTicket id)
  match deleted with
  | .ok _ => pure ()
  | .error e => .fail (claimFailed e)

/-- `Handler.Begin`: leave a ticket for an identity that has no account. -/
def beginRegistration (rules : Rules) (identity : Identity) (returnTo : String) : Handler Unit := do
  require identity.isValid (.registration .invalid)
  let id ← expect (← ask .random) (.registration .unavailable)
  let csrfSecret ← expect (← ask .random) (.registration .unavailable)
  let now : ℕ ← ask .now
  let ticket : Ticket :=
    ⟨identity, rules.returnToForRealm returnTo identity.realm, csrfSecret, now⟩
  require (validateTicket rules ticket) (.registration .invalid)
  let created : Bool ← stored (← ask (.setTicket id ticket))
  require created (.registration .unavailable)

end Athena.Registration
