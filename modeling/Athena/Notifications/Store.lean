import Athena.Notifications.Tables

/-!
# Account notifications: transactions

Every transaction that writes bindings, attempts or the outcome of a delivery first takes
the advisory lock of its account, so the transactions of one account follow one another and
each is one function of the database.  The statements in it fail as a whole: an error
carries no database.
-/

namespace Athena.Notifications

open Athena.Lib Queries

structure CompleteTelegramBindingAttemptRequest where
  tokenDigest : List UInt8
  telegramUserID : ℤ
  telegramChatID : ℤ
  telegramUsername : String
  telegramDisplayName : String

/-- How an attempt ends.  An attempt that expired or whose identity is in use is marked
failed, and that is committed. -/
inductive Completion
  | bound (b : TelegramBinding)
  | expired
  | identityInUse

def Completion.result : Completion → Except StoreError TelegramBinding
  | .bound b => .ok b
  | .expired => .error .attemptExpired
  | .identityInUse => .error .identityInUse

inductive RecipientStatus
  | connected
  | notBound
  | unreachable
  deriving DecidableEq

structure EnqueueAccountNotificationResult where
  recipientStatus : RecipientStatus
  delivery : Option AccountNotificationDelivery := none
  created : Bool := false

namespace SQLStore

variable (db : Database) (now : ℤ)

def createTelegramBindingAttempt (req : CreateTelegramBindingAttemptRequest) :
    Except StoreError (Database × TelegramBindingAttempt) :=
  upsertTelegramBindingAttempt db now req

def deleteTelegramBindingAttempt (account : ℕ) : Except StoreError (Database × Bool) :=
  .ok (deleteTelegramBindingAttemptByAccount db account,
    db.attempts.rows.any (·.account = account))

/-- Forget the binding of an account and its attempt, and cancel its pending deliveries. -/
def deleteTelegramBinding (account : ℕ) : Except StoreError (Database × Bool) :=
  let unbound := Queries.deleteTelegramBinding db account
  let cleared := deleteTelegramBindingAttemptByAccount unbound account
  .ok (cancelPendingAccountNotificationDeliveries cleared account,
    (getTelegramBinding db account).isSome)

def cancelSuperseded (old : Option TelegramBinding) : Database :=
  match old with
  | some b => cancelPendingAccountNotificationDeliveriesForBinding db b.address
  | none => db

/-- Bind the identity that presented a token.  The account was read with the token before
the transaction, for the lock. -/
def completeTelegramBindingAttempt (attemptAccount : ℕ)
    (req : CompleteTelegramBindingAttemptRequest) : Except StoreError (Database × Completion) := do
  let attempt ← found (getTelegramBindingAttemptByToken db req.tokenDigest) .attemptInvalid
  ensure (attempt.account = attemptAccount) .attemptInvalid
  ensure (attempt.status = .pending) .attemptInvalid
  if attempt.expiresAt ≤ now then
    pure (failTelegramBindingAttempt db now attempt.id .expired, .expired)
  else
    let old := getTelegramBinding db attempt.account
    if (listTelegramBindingsByIdentityForShare db req.telegramUserID
        req.telegramChatID).any (·.account ≠ attempt.account) then
      pure (failTelegramBindingAttempt db now attempt.id .telegramIdentityInUse,
        .identityInUse)
    else
      let numbered ← nextTelegramBindingRevision db attempt.account
      let replaced ← replaceTelegramBinding (cancelSuperseded numbered.1 old) now
        attempt.account req.telegramUserID req.telegramChatID (nullableText req.telegramUsername)
        (Text.trimSpace req.telegramDisplayName) numbered.2
      pure (deleteTelegramBindingAttemptByID replaced.1 attempt.id, .bound replaced.2)

/-- Mark a binding unreachable, with the delivery that showed it, and cancel the others. -/
def markTelegramBindingUnreachable (address : Address) (deliveryID : ℕ) (reason : String) :
    Except StoreError (Database × Unit) :=
  let marked := Queries.markTelegramBindingUnreachable db now address reason
  let failed := if 0 < deliveryID then
    Queries.markAccountNotificationDeliveryFailed marked deliveryID address reason else marked
  .ok (cancelPendingAccountNotificationDeliveriesForBinding failed address, ())

/-- Set the status of the binding with an identity.  The binding was read with the identity
before the transaction; when its account has another one by then, nothing is done. -/
def markTelegramBindingStatusByIdentity (observed : ℕ) (user chat : ℤ) (status reason : String) :
    Except StoreError (Database × Unit) :=
  match getTelegramBinding db observed with
  | none => .ok (db, ())
  | some current =>
    if current.telegramUserID ≠ user ∨ current.telegramChatID ≠ chat then .ok (db, ())
    else match BindingStatus.parse status with
      | some .connected =>
        if current.status ≠ .connected then
          .ok (markTelegramBindingConnectedByIdentity db now user chat, ())
        else .ok (db, ())
      | some .unreachable =>
        let marked := if current.status ≠ .unreachable then
          markTelegramBindingUnreachableByIdentity db now user chat reason else db
        .ok (cancelPendingAccountNotificationDeliveriesForBinding marked
          current.address, ())
      | none => .error (.unsupportedStatus status)

def existing (d : AccountNotificationDelivery) (payloadDigest : List UInt8) :
    Except StoreError (Database × EnqueueAccountNotificationResult) := do
  ensure (d.payloadDigest = payloadDigest) .idempotencyConflict
  pure (db, ⟨.connected, some d, false⟩)

def enqueueAccountNotification (req : CreateAccountNotificationDeliveryRequest) :
    Except StoreError (Database × EnqueueAccountNotificationResult) :=
  match getAccountNotificationDeliveryByIdempotency db req.account req.message.source
      req.idempotencyKey with
  | some d => existing db d req.payloadDigest
  | none =>
    match getTelegramBinding db req.account with
    | none => .ok (db, ⟨.notBound, none, false⟩)
    | some binding =>
      if binding.status ≠ .connected then .ok (db, ⟨.unreachable, none, false⟩)
      else do
        let created ← createAccountNotificationDelivery db now req
          binding.telegramChatID binding.revision
        match created with
        | some (db', d) => pure (db', ⟨.connected, some d, true⟩)
        | none =>
          let d ← found (getAccountNotificationDeliveryByIdempotency db req.account
            req.message.source req.idempotencyKey) .database
          existing db d req.payloadDigest

def claimPendingAccountNotificationDeliveries (opts : ClaimDeliveriesOptions) (held : List ℕ) :
    Except StoreError (Database × List ClaimedAccountNotificationDelivery) :=
  .ok (Queries.claimPendingAccountNotificationDeliveries db now opts held)

/-- The binding is connected and the delivery is still pending for it: the test that comes
before the message is sent, under the lock that is held until its outcome is written. -/
def mayStillSend (address : Address) (deliveryID : ℕ) : Bool :=
  match getTelegramBinding db address.account with
  | none => false
  | some binding =>
    binding.status = .connected && binding.telegramChatID = address.telegramChatID &&
      binding.revision = address.revision &&
      (getPendingAccountNotificationDeliveryForUpdate db deliveryID address).isSome

def markAccountNotificationDeliveryFailed (d : ClaimedAccountNotificationDelivery)
    (message : String) : Except StoreError (Database × Unit) :=
  .ok (Queries.markAccountNotificationDeliveryFailed db d.id d.address message, ())

def scheduleAccountNotificationDeliveryRetry (d : ClaimedAccountNotificationDelivery)
    (message : String) (nextAttemptAt : ℤ) : Except StoreError (Database × Unit) :=
  .ok (Queries.scheduleAccountNotificationDeliveryRetry db d.id d.address message nextAttemptAt, ())

end SQLStore

/-! ## What the transactions do -/

namespace SQLStore

variable {db db' : Database} {now : ℤ}

theorem completeTelegramBindingAttempt_ok {account : ℕ}
    {req : CompleteTelegramBindingAttemptRequest} {c : Completion}
    (h : completeTelegramBindingAttempt db now account req = .ok (db', c)) :
    (∃ id reason, db' = failTelegramBindingAttempt db now id reason ∧ ∀ b, c ≠ .bound b) ∨
      ∃ id numbered replaced, nextTelegramBindingRevision db account = .ok numbered ∧
        replaceTelegramBinding
          (cancelSuperseded numbered.1 (getTelegramBinding db account)) now account
          req.telegramUserID req.telegramChatID (nullableText req.telegramUsername)
          (Text.trimSpace req.telegramDisplayName) numbered.2 = .ok replaced ∧
        db' = deleteTelegramBindingAttemptByID replaced.1 id ∧ c = .bound replaced.2 := by
  simp only [completeTelegramBindingAttempt, bind_eq_ok, exists_ensure,
    found_eq_ok] at h
  obtain ⟨attempt, -, rfl, -, h⟩ := h
  split at h
  · obtain ⟨rfl, rfl⟩ := pure_pair.mp h
    exact .inl ⟨_, _, rfl, by simp⟩
  split at h
  · obtain ⟨rfl, rfl⟩ := pure_pair.mp h
    exact .inl ⟨_, _, rfl, by simp⟩
  simp only [committed] at h
  obtain ⟨numbered, hnumbered, replaced, hreplaced, rfl, rfl⟩ := h
  exact .inr ⟨_, numbered, replaced, hnumbered, hreplaced, rfl, rfl⟩

theorem enqueueAccountNotification_ok {req : CreateAccountNotificationDeliveryRequest}
    {result : EnqueueAccountNotificationResult}
    (h : enqueueAccountNotification db now req = .ok (db', result)) :
    db' = db ∨ ∃ binding d, getTelegramBinding db req.account = some binding ∧
      binding.status = .connected ∧ createAccountNotificationDelivery db now req
        binding.telegramChatID binding.revision = .ok (some (db', d)) := by
  have hexisting {d : AccountNotificationDelivery}
      (h : existing db d req.payloadDigest = .ok (db', result)) : db' = db := by
    simp only [existing, committed] at h
    exact h.2.1.symm
  unfold enqueueAccountNotification at h
  split at h
  · exact .inl (hexisting h)
  split at h
  · exact .inl (pure_pair.mp h).1.symm
  rename_i binding hbinding
  split at h
  · exact .inl (pure_pair.mp h).1.symm
  rename_i hstatus
  obtain ⟨created, hcreated, h⟩ := bind_eq_ok.mp h
  split at h
  · rename_i created d
    obtain ⟨rfl, -⟩ := pure_pair.mp h
    exact .inr ⟨binding, d, hbinding, not_not.mp hstatus, hcreated⟩
  · obtain ⟨d, -, h⟩ := bind_eq_ok.mp h
    exact .inl (hexisting h)

theorem of_mayStillSend {address : Address} {id : ℕ} (h : mayStillSend db address id) :
    (∃ b ∈ db.bindings, b.status = .connected ∧ b.address = address) ∧
      ∃ d ∈ db.deliveries, d.id = id ∧ d.status = .pending ∧ d.address = address := by
  unfold mayStillSend at h
  split at h
  · cases h
  rename_i b hb
  obtain ⟨hmem, haccount⟩ := Table.get?_eq_some.mp hb
  simp only [check_iff] at h
  obtain ⟨⟨⟨hstatus, hchat⟩, hrevision⟩, hd⟩ := h
  obtain ⟨d, hd⟩ := Option.isSome_iff_exists.mp hd
  have hfound := List.find?_some hd
  simp only [check_iff] at hfound
  refine ⟨⟨b, hmem, hstatus, ?_⟩, d, List.mem_of_find?_eq_some hd, hfound.1.1, hfound.2, hfound.1.2⟩
  rw [TelegramBinding.address, haccount, hchat, hrevision]

end SQLStore
end Athena.Notifications
