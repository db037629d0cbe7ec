import Athena.Lib.Scripts
import Athena.Notifications.Store

/-!
# Account notifications: workers and the transactions around them

Any number of workers claim deliveries and send them.  By the time a worker sends, its lock may
have expired, another worker may hold the delivery, and the binding may be gone.  Bindings are
made, deleted and marked at any time.

The message is sent in the middle of a transaction that holds the lock of the account and writes
its outcome, and that may fail after the message was sent.  System notifications are in other
tables.
-/

namespace Athena.Notifications

open Athena.Lib

/-- Why a message could not be sent, as far as the worker looks at it. -/
structure SendFailure where
  recipientUnreachable : Bool
  retryAfter : ℤ
  message : String

inductive SendError
  | bindingChanged
  | failed (failure : SendFailure)

inductive Call
  | now
  | enqueue (req : CreateAccountNotificationDeliveryRequest)
  | createAttempt (req : CreateTelegramBindingAttemptRequest)
  | deleteAttempt (account : ℕ)
  | deleteBinding (account : ℕ)
  | attemptAccountByToken (tokenDigest : List UInt8)
  | complete (account : ℕ) (req : CompleteTelegramBindingAttemptRequest)
  | bindingByIdentity (user chat : ℤ)
  | markStatus (observed : ℕ) (user chat : ℤ) (status reason : String)
  | markUnreachable (address : Address) (deliveryID : ℕ) (reason : String)
  | claim (opts : ClaimDeliveriesOptions)
  | send (address : Address) (deliveryID : ℕ) (message : Message)
  | markFailed (delivery : ClaimedAccountNotificationDelivery) (message : String)
  | scheduleRetry (delivery : ClaimedAccountNotificationDelivery) (message : String)
      (nextAttemptAt : ℤ)

@[reducible] def Call.Reply : Call → Type
  | .now => ℤ
  | .enqueue _ => Except StoreError EnqueueAccountNotificationResult
  | .createAttempt _ => Except StoreError TelegramBindingAttempt
  | .deleteAttempt _ | .deleteBinding _ => Except StoreError Bool
  | .attemptAccountByToken _ | .bindingByIdentity .. => Except StoreError (Option ℕ)
  | .complete .. => Except StoreError Completion
  | .claim _ => Except StoreError (List ClaimedAccountNotificationDelivery)
  | .send .. => Except SendError String
  | .markStatus .. | .markUnreachable .. | .markFailed .. | .scheduleRetry .. =>
    Except StoreError Unit

abbrev Handler := Program Call Call.Reply StoreError

def ask (c : Call) : Handler c.Reply := Program.ask c

def accept {α : Type} (reply : Except StoreError α) : Handler α := .ofExcept reply

/-! ## Bindings -/

/-- The attempt is looked up for its account, and again under the lock of that account. -/
def completeTelegramBindingAttempt (req : CompleteTelegramBindingAttemptRequest) :
    Handler TelegramBinding := do
  let account : Option ℕ ← accept (← ask (.attemptAccountByToken req.tokenDigest))
  match account with
  | none => .fail .attemptInvalid
  | some account =>
    let completion : Completion ← accept (← ask (.complete account req))
    accept completion.result

/-- The binding is looked up for its account, and again under the lock of that account. -/
def markTelegramBindingStatusByIdentity (user chat : ℤ) (status reason : String) :
    Handler Unit := do
  let account : Option ℕ ← accept (← ask (.bindingByIdentity user chat))
  match account with
  | none => pure ()
  | some account => accept (← ask (.markStatus account user chat status reason))

/-! ## Workers -/

structure WorkerConfig where
  batchSize : ℕ
  maxAttempts : ℕ
  lockTimeout : ℤ
  workerID : String

def retryDelay (attempts : ℕ) (failure : SendFailure) : ℤ :=
  if 0 < failure.retryAfter then failure.retryAfter
  else min (2 ^ min (max attempts 1) 5 * second) (32 * second)

def processClaimedAccountNotification (config : WorkerConfig)
    (d : ClaimedAccountNotificationDelivery) : Handler Unit := do
  let sent : Except SendError String ← ask (.send d.address d.id d.message)
  match sent with
  | .ok _ => pure ()
  | .error .bindingChanged => pure ()
  | .error (.failed failure) =>
    if failure.recipientUnreachable then
      let _ ← ask (.markUnreachable d.address d.id failure.message)
    else if config.maxAttempts ≤ d.attempts then
      let _ ← ask (.markFailed d failure.message)
    else
      let now : ℤ ← ask .now
      let _ ← ask (.scheduleRetry d failure.message (now + retryDelay d.attempts failure))

def processClaimed (config : WorkerConfig) : List ClaimedAccountNotificationDelivery → Handler Unit
  | [] => pure ()
  | d :: rest => do
      processClaimedAccountNotification config d
      processClaimed config rest

def accountLimit (config : WorkerConfig) (preferAccount : Bool) : ℕ :=
  if preferAccount then config.batchSize - config.batchSize / 2 else config.batchSize / 2

/-- Claim the account notifications of a batch.  A claim that fails claims nothing. -/
def claimBatch (config : WorkerConfig) (preferAccount : Bool) :
    Handler (List ClaimedAccountNotificationDelivery) := do
  if accountLimit config preferAccount = 0 then pure []
  else
    let claimed : Except StoreError (List ClaimedAccountNotificationDelivery) ←
      ask (.claim ⟨accountLimit config preferAccount, config.workerID, config.lockTimeout⟩)
    match claimed with
    | .ok claimed => pure claimed
    | .error _ => pure []

def runWorker (config : WorkerConfig) (preferAccount : Bool) : ℕ → Handler Unit
  | 0 => pure ()
  | n + 1 => do
      let claimed ← claimBatch config preferAccount
      processClaimed config claimed
      runWorker config (!preferAccount) n

/-! ## The environment -/

/-- A message that the provider was asked to send, whether it took it, and whether the worker
was told that it did. -/
structure Post where
  address : Address
  delivery : ℕ
  message : Message
  accepted : Bool
  reported : Bool

/-- The database, the clock, and what the provider was asked to send, oldest first. -/
structure Shared where
  db : Database := {}
  now : ℤ := 0
  posts : List Post := []

namespace Shared

def withDb (s : Shared) (db : Database) : Shared := { s with db := db }

def post (s : Shared) (p : Post) : Shared := { s with posts := s.posts ++ [p] }

def Runs {α : Type} (s : Shared) (x : Except StoreError (Database × α)) (r : Except StoreError α)
    (s' : Shared) : Prop :=
  ∃ db, Served x .database s.db r db ∧ s' = s.withDb db

end Shared

/-- How a delivery is sent.  The transaction may fail before the message is sent, when it is
sent, or after it was; in the last case it may have been committed.  A message that the
provider takes may be reported as failed. -/
def Sends (s : Shared) (address : Address) (deliveryID : ℕ) (message : Message)
    (r : Except SendError String) (s' : Shared) : Prop :=
  (∃ f, r = .error (.failed f) ∧ s' = s) ∨
    (SQLStore.mayStillSend s.db address deliveryID = false ∧ r = .error .bindingChanged ∧ s' = s) ∨
    (SQLStore.mayStillSend s.db address deliveryID ∧ ∃ accepted reported : Bool,
      (reported → accepted) ∧
      (((∃ f, r = .error (.failed f)) ∧
          s' = s.post ⟨address, deliveryID, message, accepted, reported⟩) ∨
        ∃ id, (r = .ok id ∨ ∃ f, r = .error (.failed f)) ∧ reported ∧
          s' = (s.post ⟨address, deliveryID, message, accepted, reported⟩).withDb
            (Queries.markAccountNotificationDeliverySent s.db s.now deliveryID id)))

def serves (s : Shared) : (c : Call) → c.Reply → Shared → Prop
  | .now, r, s' => r = s.now ∧ s' = s
  | .enqueue req, r, s' => s.Runs (SQLStore.enqueueAccountNotification s.db s.now req) r s'
  | .createAttempt req, r, s' => s.Runs (SQLStore.createTelegramBindingAttempt s.db s.now req) r s'
  | .deleteAttempt account, r, s' =>
    s.Runs (SQLStore.deleteTelegramBindingAttempt s.db account) r s'
  | .deleteBinding account, r, s' => s.Runs (SQLStore.deleteTelegramBinding s.db account) r s'
  | .attemptAccountByToken tokenDigest, r, s' => s' = s ∧ (r = .error .database ∨
      r = .ok ((Queries.getTelegramBindingAttemptByToken s.db tokenDigest).map (·.account)))
  | .complete account req, r, s' =>
    s.Runs (SQLStore.completeTelegramBindingAttempt s.db s.now account req) r s'
  | .bindingByIdentity user chat, r, s' => s' = s ∧ (r = .error .database ∨
      r = .ok ((Queries.getTelegramBindingByIdentity s.db user chat).map (·.account)))
  | .markStatus observed user chat status reason, r, s' =>
    s.Runs (SQLStore.markTelegramBindingStatusByIdentity s.db s.now observed user chat status
      reason) r s'
  | .markUnreachable address deliveryID reason, r, s' =>
    s.Runs (SQLStore.markTelegramBindingUnreachable s.db s.now address deliveryID reason) r s'
  | .claim opts, r, s' => ∃ held,
      s.Runs (SQLStore.claimPendingAccountNotificationDeliveries s.db s.now opts held) r s'
  | .send address deliveryID message, r, s' => Sends s address deliveryID message r s'
  | .markFailed d message, r, s' =>
    s.Runs (SQLStore.markAccountNotificationDeliveryFailed s.db d message) r s'
  | .scheduleRetry d message nextAttemptAt, r, s' =>
    s.Runs (SQLStore.scheduleAccountNotificationDeliveryRetry s.db d message nextAttemptAt) r s'

/-- The clock is set, or the sequence of delivery ids advances, as it does in transactions
that are rolled back. -/
inductive Drifts (s : Shared) : Shared → Prop
  | clock (t : ℤ) : Drifts s { s with now := t }
  | sequence (n : ℕ) (h : s.db.nextDelivery ≤ n) :
      Drifts s (s.withDb { s.db with nextDelivery := n })

/-- What runs in the pool: a function of the store, or a worker. -/
inductive Starts : Handler Unit → Prop
  | enqueue (req) : Starts (do let _ ← ask (.enqueue req))
  | createAttempt (req) : Starts (do let _ ← ask (.createAttempt req))
  | deleteAttempt (account) : Starts (do let _ ← ask (.deleteAttempt account))
  | deleteBinding (account) : Starts (do let _ ← ask (.deleteBinding account))
  | complete (req) : Starts (do let _ ← completeTelegramBindingAttempt req)
  | markStatus (user chat status reason) :
      Starts (markTelegramBindingStatusByIdentity user chat status reason)
  | markUnreachable (address deliveryID reason) :
      Starts (do let _ ← ask (.markUnreachable address deliveryID reason))
  | worker (config preferAccount rounds) : Starts (runWorker config preferAccount rounds)

def pool : Pool Shared Call Call.Reply StoreError where
  init := {}
  starts _ p := Starts p
  serves := serves
  drifts := Drifts

abbrev World : Type := Pool.World Shared Call.Reply StoreError

abbrev Event : Type := Pool.Event Shared Call.Reply

end Athena.Notifications
