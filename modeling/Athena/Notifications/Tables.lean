import Athena.Lib.Listing
import Athena.Lib.Table
import Athena.Lib.Text

/-!
# Account notifications: tables and queries

An account binds a Telegram identity by an attempt: a token that is good for some time and
that the identity presents to the bot.  A notification for an account is a delivery that
carries the chat and the revision of the binding it was enqueued for.

The check constraints are fields of the rows and the unique constraints fields of the database.
-/

namespace Athena.Notifications

open Athena.Lib

/-! ## Rows -/

/-- Where a notification goes: an account, a chat, and the revision of the binding that
connects them. -/
structure Address where
  account : ℕ
  telegramChatID : ℤ
  revision : ℕ
  deriving DecidableEq

inductive BindingStatus
  | connected
  | unreachable
  deriving DecidableEq

def BindingStatus.parse : String → Option BindingStatus
  | "connected" => some .connected
  | "unreachable" => some .unreachable
  | _ => none

/-- A row of `telegram_bindings`. -/
structure TelegramBinding where
  account : ℕ
  telegramUserID : ℤ
  telegramChatID : ℤ
  telegramUsername : Option String
  telegramDisplayName : String
  status : BindingStatus
  revision : ℕ
  boundAt : ℤ
  updatedAt : ℤ
  lastError : Option String
  user_check : 0 < telegramUserID
  chat_check : 0 < telegramChatID
  revision_check : 0 < revision

def TelegramBinding.address (b : TelegramBinding) : Address :=
  ⟨b.account, b.telegramChatID, b.revision⟩

def TelegramBinding.mark (b : TelegramBinding) (now : ℤ) (status : BindingStatus)
    (lastError : Option String) : TelegramBinding :=
  { b with status, updatedAt := now, lastError }

inductive FailureReason
  | expired
  | telegramIdentityInUse
  deriving DecidableEq

inductive AttemptStatus
  | pending
  | failed (reason : FailureReason)
  deriving DecidableEq

/-- A row of `telegram_binding_attempts`. -/
structure TelegramBindingAttempt where
  id : ℕ
  account : ℕ
  tokenDigest : List UInt8
  status : AttemptStatus
  expiresAt : ℤ
  createdAt : ℤ
  updatedAt : ℤ
  digest_check : tokenDigest.length = 32

inductive Severity
  | info
  | warning
  | error
  | critical
  deriving DecidableEq

inductive DeliveryStatus
  | pending
  | sent
  | failed
  | cancelled
  deriving DecidableEq

structure Message where
  source : String
  severity : Severity
  title : String
  body : String
  link : String

/-- A row of `account_notification_deliveries`. -/
structure AccountNotificationDelivery where
  id : ℕ
  account : ℕ
  idempotencyKey : String
  payloadDigest : List UInt8
  source : String
  severity : Severity
  title : Option String
  body : String
  link : Option String
  status : DeliveryStatus
  telegramChatID : ℤ
  bindingRevision : ℕ
  providerMessageID : Option String
  errorMessage : Option String
  createdAt : ℤ
  sentAt : Option ℤ
  attempts : ℕ
  nextAttemptAt : ℤ
  lastAttemptAt : Option ℤ
  lockedAt : Option ℤ
  lockedBy : Option String
  digest_check : payloadDigest.length = 32

namespace AccountNotificationDelivery

def idempotency (d : AccountNotificationDelivery) : ℕ × String × String :=
  (d.account, d.source, d.idempotencyKey)

def message (d : AccountNotificationDelivery) : Message :=
  ⟨d.source, d.severity, d.title.getD "", d.body, d.link.getD ""⟩

def address (d : AccountNotificationDelivery) : Address :=
  ⟨d.account, d.telegramChatID, d.bindingRevision⟩

def lock (d : AccountNotificationDelivery) (now : ℤ) (lockedBy : String) :
    AccountNotificationDelivery :=
  { d with
    lockedAt := some now, lockedBy := some lockedBy, attempts := d.attempts + 1
    lastAttemptAt := some now }

def markSent (d : AccountNotificationDelivery) (now : ℤ) (providerMessageID : String) :
    AccountNotificationDelivery :=
  { d with
    status := .sent, providerMessageID := some providerMessageID, errorMessage := none
    sentAt := some now, lockedAt := none, lockedBy := none }

def settle (d : AccountNotificationDelivery) (status : DeliveryStatus) (errorMessage : String)
    (nextAttemptAt : Option ℤ) : AccountNotificationDelivery :=
  { d with
    status, errorMessage := some errorMessage
    nextAttemptAt := nextAttemptAt.getD d.nextAttemptAt, lockedAt := none, lockedBy := none }

end AccountNotificationDelivery

/-! ## The database -/

/-- The tables of the store.  An account without a row in `telegram_binding_versions` has
the version 0. -/
structure Database where
  bindings : Table TelegramBinding.account := .empty
  users_unique : bindings.Unique TelegramBinding.telegramUserID := by exact Table.unique_empty
  chats_unique : bindings.Unique TelegramBinding.telegramChatID := by exact Table.unique_empty
  versions : ℕ → ℕ := fun _ => 0
  attempts : Table TelegramBindingAttempt.account := .empty
  attempt_ids_unique : attempts.Unique TelegramBindingAttempt.id := by exact Table.unique_empty
  tokens_unique : attempts.Unique TelegramBindingAttempt.tokenDigest := by
    exact Table.unique_empty
  deliveries : Table AccountNotificationDelivery.id := .empty
  keys_unique : deliveries.Unique AccountNotificationDelivery.idempotency := by
    exact Table.unique_empty
  nextDelivery : ℕ := 1

/-- Why a function of the store fails.  `database` stands for a statement that fails and for
a connection that is lost. -/
inductive StoreError
  | attemptInvalid
  | attemptExpired
  | identityInUse
  | idempotencyConflict
  | unsupportedStatus (status : String)
  | database
  deriving DecidableEq

namespace Database

variable (db : Database)

def setVersion (account revision : ℕ) : Database :=
  { db with versions := Function.update db.versions account revision }

def mapBindings (f : TelegramBinding → TelegramBinding) (haccount : ∀ b, (f b).account = b.account)
    (huser : ∀ b, (f b).telegramUserID = b.telegramUserID)
    (hchat : ∀ b, (f b).telegramChatID = b.telegramChatID) : Database :=
  { db with
    bindings := db.bindings.update f haccount
    users_unique := db.users_unique.update huser
    chats_unique := db.chats_unique.update hchat }

theorem mem_mapBindings {db : Database} {f : TelegramBinding → TelegramBinding}
    {haccount : ∀ b, (f b).account = b.account}
    {huser : ∀ b, (f b).telegramUserID = b.telegramUserID}
    {hchat : ∀ b, (f b).telegramChatID = b.telegramChatID} {b' : TelegramBinding} :
    b' ∈ (db.mapBindings f haccount huser hchat).bindings ↔ ∃ b ∈ db.bindings, f b = b' := by
  simp only [mapBindings, Table.mem_update]

def mapDeliveries (f : AccountNotificationDelivery → AccountNotificationDelivery)
    (hid : ∀ d, (f d).id = d.id) (hkey : ∀ d, (f d).idempotency = d.idempotency) : Database :=
  { db with
    deliveries := db.deliveries.update f hid
    keys_unique := db.keys_unique.update hkey }

theorem mem_mapDeliveries {db : Database}
    {f : AccountNotificationDelivery → AccountNotificationDelivery} {hid : ∀ d, (f d).id = d.id}
    {hkey : ∀ d, (f d).idempotency = d.idempotency} {d' : AccountNotificationDelivery} :
    d' ∈ (db.mapDeliveries f hid hkey).deliveries ↔ ∃ d ∈ db.deliveries, f d = d' := by
  simp only [mapDeliveries, Table.mem_update]

def mapAttempts (f : TelegramBindingAttempt → TelegramBindingAttempt)
    (haccount : ∀ a, (f a).account = a.account) (hid : ∀ a, (f a).id = a.id)
    (htoken : ∀ a, (f a).tokenDigest = a.tokenDigest) : Database :=
  { db with
    attempts := db.attempts.update f haccount
    attempt_ids_unique := db.attempt_ids_unique.update hid
    tokens_unique := db.tokens_unique.update htoken }

def filterAttempts (p : TelegramBindingAttempt → Bool) : Database :=
  { db with
    attempts := db.attempts.filter p
    attempt_ids_unique := db.attempt_ids_unique.filter p
    tokens_unique := db.tokens_unique.filter p }

end Database

/-! ## Requests -/

structure CreateTelegramBindingAttemptRequest where
  id : ℕ
  account : ℕ
  tokenDigest : List UInt8
  expiresAt : ℤ

structure CreateAccountNotificationDeliveryRequest where
  account : ℕ
  idempotencyKey : String
  payloadDigest : List UInt8
  message : Message
  status : DeliveryStatus

structure ClaimDeliveriesOptions where
  limit : ℤ
  lockedBy : String
  lockTimeout : ℤ

def second : ℤ := 1000000000

def normalizeClaimOptions (opts : ClaimDeliveriesOptions) : ℕ × ℤ :=
  ((if opts.limit < 1 then 1 else opts.limit).toNat,
    if opts.lockTimeout ≤ 0 then 60 * second else opts.lockTimeout)

structure ClaimedAccountNotificationDelivery where
  id : ℕ
  account : ℕ
  message : Message
  telegramChatID : ℤ
  bindingRevision : ℕ
  attempts : ℕ

def ClaimedAccountNotificationDelivery.address (d : ClaimedAccountNotificationDelivery) : Address :=
  ⟨d.account, d.telegramChatID, d.bindingRevision⟩

/-- A text that is stored as `NULL` when it is blank. -/
def nullableText (value : String) : Option String :=
  if Text.trimSpace value = "" then none else some (Text.trimSpace value)

namespace Queries

/-! ## Queries on bindings -/

section Bindings
variable (db : Database)

def getTelegramBinding (account : ℕ) : Option TelegramBinding := db.bindings.get? account

def getTelegramBindingByIdentity (user chat : ℤ) : Option TelegramBinding :=
  db.bindings.rows.find? fun b => b.telegramUserID = user && b.telegramChatID = chat

def listTelegramBindingsByIdentityForShare (user chat : ℤ) : List TelegramBinding :=
  db.bindings.rows.filter fun b => b.telegramUserID = user || b.telegramChatID = chat

def nextTelegramBindingRevision (account : ℕ) : Except StoreError (Database × ℕ) :=
  if db.versions account < maxInt64 then
    .ok (db.setVersion account (db.versions account + 1), db.versions account + 1)
  else .error .database

def replaceTelegramBinding (now : ℤ) (account : ℕ) (user chat : ℤ) (username : Option String)
    (displayName : String) (revision : ℕ) : Except StoreError (Database × TelegramBinding) :=
  if h : (0 < user ∧ 0 < chat ∧ 0 < revision) ∧ ∀ b ∈ db.bindings.rows, b.account ≠ account →
      b.telegramUserID ≠ user ∧ b.telegramChatID ≠ chat then
    let b : TelegramBinding :=
      { account, telegramUserID := user, telegramChatID := chat, telegramUsername := username
        telegramDisplayName := displayName, status := .connected, revision
        boundAt := now, updatedAt := now, lastError := none
        user_check := h.1.1, chat_check := h.1.2.1, revision_check := h.1.2.2 }
    .ok ({ db with
      bindings := db.bindings.upsert b
      users_unique := db.users_unique.upsert fun c hc hne => (h.2 c hc hne).1
      chats_unique := db.chats_unique.upsert fun c hc hne => (h.2 c hc hne).2 }, b)
  else .error .database

def deleteTelegramBinding (account : ℕ) : Database :=
  { db with
    bindings := db.bindings.filter fun b => b.account ≠ account
    users_unique := db.users_unique.filter _
    chats_unique := db.chats_unique.filter _ }

/-- Set the status of the bindings that satisfy a condition and do not have it yet. -/
def markTelegramBindings (now : ℤ) (p : TelegramBinding → Bool) (status : BindingStatus)
    (lastError : Option String) : Database :=
  db.mapBindings (fun b => if p b && b.status ≠ status then b.mark now status lastError else b)
    (by intro b; split <;> rfl) (by intro b; split <;> rfl) (by intro b; split <;> rfl)

def markTelegramBindingUnreachable (now : ℤ) (address : Address) (lastError : String) : Database :=
  markTelegramBindings db now (fun b => b.address = address) .unreachable (some lastError)

def markTelegramBindingUnreachableByIdentity (now user chat : ℤ) (lastError : String) : Database :=
  markTelegramBindings db now (fun b => b.telegramUserID = user && b.telegramChatID = chat)
    .unreachable (some lastError)

def markTelegramBindingConnectedByIdentity (now user chat : ℤ) : Database :=
  markTelegramBindings db now (fun b => b.telegramUserID = user && b.telegramChatID = chat)
    .connected none

end Bindings

/-! ## Queries on attempts -/

section Attempts
variable (db : Database)

def upsertTelegramBindingAttempt (now : ℤ) (req : CreateTelegramBindingAttemptRequest) :
    Except StoreError (Database × TelegramBindingAttempt) :=
  if h : req.tokenDigest.length = 32 ∧ ∀ a ∈ db.attempts.rows, a.account ≠ req.account →
      a.id ≠ req.id ∧ a.tokenDigest ≠ req.tokenDigest then
    let a : TelegramBindingAttempt :=
      { id := req.id, account := req.account, tokenDigest := req.tokenDigest, status := .pending
        expiresAt := req.expiresAt, createdAt := now, updatedAt := now, digest_check := h.1 }
    .ok ({ db with
      attempts := db.attempts.upsert a
      attempt_ids_unique := db.attempt_ids_unique.upsert fun c hc hne => (h.2 c hc hne).1
      tokens_unique := db.tokens_unique.upsert fun c hc hne => (h.2 c hc hne).2 }, a)
  else .error .database

def getTelegramBindingAttemptByToken (tokenDigest : List UInt8) : Option TelegramBindingAttempt :=
  db.attempts.rows.find? fun a => a.tokenDigest = tokenDigest

def failTelegramBindingAttempt (now : ℤ) (id : ℕ) (reason : FailureReason) : Database :=
  db.mapAttempts (fun a => if a.id = id then { a with status := .failed reason, updatedAt := now }
      else a)
    (by intro a; split <;> rfl) (by intro a; split <;> rfl) (by intro a; split <;> rfl)

def deleteTelegramBindingAttemptByAccount (account : ℕ) : Database :=
  db.filterAttempts fun a => a.account ≠ account

def deleteTelegramBindingAttemptByID (id : ℕ) : Database := db.filterAttempts fun a => a.id ≠ id

end Attempts

/-! ## Queries on deliveries -/

section Deliveries
variable (db : Database)

/-- Enqueue a delivery for a binding, unless one with its idempotency key exists. -/
def createAccountNotificationDelivery (now : ℤ) (req : CreateAccountNotificationDeliveryRequest)
    (chat : ℤ) (revision : ℕ) :
    Except StoreError (Option (Database × AccountNotificationDelivery)) :=
  if hcheck : req.payloadDigest.length = 32 ∧ ∀ d ∈ db.deliveries.rows, d.id ≠ db.nextDelivery then
    let d : AccountNotificationDelivery :=
      { id := db.nextDelivery, account := req.account, idempotencyKey := req.idempotencyKey
        payloadDigest := req.payloadDigest, source := req.message.source
        severity := req.message.severity, title := nullableText req.message.title
        body := req.message.body, link := nullableText req.message.link, status := req.status
        telegramChatID := chat, bindingRevision := revision
        providerMessageID := none, errorMessage := none, createdAt := now, sentAt := none
        attempts := 0, nextAttemptAt := now, lastAttemptAt := none, lockedAt := none
        lockedBy := none, digest_check := hcheck.1 }
    if hkey : ∀ c ∈ db.deliveries.rows, c.idempotency ≠ d.idempotency then
      .ok (some ({ db with
        deliveries := db.deliveries.upsert d
        keys_unique := db.keys_unique.upsert fun c hc _ => hkey c hc
        nextDelivery := db.nextDelivery + 1 }, d))
    else .ok none
  else .error .database

def getAccountNotificationDeliveryByIdempotency (account : ℕ) (source idempotencyKey : String) :
    Option AccountNotificationDelivery :=
  db.deliveries.rows.find? fun d => d.idempotency = (account, source, idempotencyKey)

def isReady (now lockTimeout : ℤ) (d : AccountNotificationDelivery) : Bool :=
  d.status = .pending && d.nextAttemptAt ≤ now &&
    (match d.lockedAt with
      | none => true
      | some lockedAt => lockedAt < now - lockTimeout) &&
    db.bindings.rows.any fun b => b.address = d.address && b.status = .connected

/-- Lock deliveries that are ready.  Rows that another transaction holds are skipped. -/
def claimPendingAccountNotificationDeliveries (now : ℤ) (opts : ClaimDeliveriesOptions)
    (held : List ℕ) : Database × List ClaimedAccountNotificationDelivery :=
  let (limit, lockTimeout) := normalizeClaimOptions opts
  let ready := listing (fun d => toLex (d.createdAt, d.id))
    (fun d => isReady db now lockTimeout d && !held.contains d.id) limit db.deliveries.rows
  (db.mapDeliveries (fun d => if ready.any (·.id = d.id) then d.lock now opts.lockedBy else d)
      (by intro d; split <;> rfl) (by intro d; split <;> rfl),
    ready.map fun d =>
      ⟨d.id, d.account, d.message, d.telegramChatID, d.bindingRevision, d.attempts + 1⟩)

def getPendingAccountNotificationDeliveryForUpdate (id : ℕ) (address : Address) :
    Option AccountNotificationDelivery :=
  db.deliveries.rows.find? fun d => d.id = id && d.address = address && d.status = .pending

def markAccountNotificationDeliverySent (now : ℤ) (id : ℕ) (providerMessageID : String) :
    Database :=
  db.mapDeliveries (fun d => if d.id = id then d.markSent now providerMessageID else d)
    (by intro d; split <;> rfl) (by intro d; split <;> rfl)

/-- End or postpone the pending deliveries that satisfy a condition, and unlock them. -/
def settlePending (p : AccountNotificationDelivery → Bool) (status : DeliveryStatus)
    (errorMessage : String) (nextAttemptAt : Option ℤ) : Database :=
  db.mapDeliveries
    (fun d => if p d && d.status = .pending then d.settle status errorMessage nextAttemptAt else d)
    (by intro d; split <;> rfl) (by intro d; split <;> rfl)

def scheduleAccountNotificationDeliveryRetry (id : ℕ) (address : Address) (errorMessage : String)
    (nextAttemptAt : ℤ) : Database :=
  settlePending db (fun d => d.id = id && d.address = address) .pending errorMessage
    (some nextAttemptAt)

def markAccountNotificationDeliveryFailed (id : ℕ) (address : Address) (errorMessage : String) :
    Database :=
  settlePending db (fun d => d.id = id && d.address = address) .failed errorMessage none

def cancelPendingAccountNotificationDeliveries (account : ℕ) : Database :=
  settlePending db (fun d => d.account = account) .cancelled "telegram binding disconnected" none

def cancelPendingAccountNotificationDeliveriesForBinding (address : Address) : Database :=
  settlePending db (fun d => d.address = address) .cancelled "telegram recipient is unreachable"
    none

end Deliveries

end Queries
end Athena.Notifications
