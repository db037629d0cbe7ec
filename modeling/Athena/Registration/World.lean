import Athena.Lib.Scripts
import Athena.Registration.Handler

/-!
# Registrations side by side

Redis holds tickets and claims until their time to live has passed, PostgreSQL the accounts,
and every process the accounts it has seen.  A Redis operation may fail, and one that fails
may have been done; so may the statement that creates an account.  Random values are new.
-/

namespace Athena.Registration

open Athena.Lib Function CredentialManager

/-- The shared state.  A key with a time to live is kept with the time at which it expires, and
is not there any more when that has come. -/
structure Shared where
  now : ℕ := 0
  issued : List String := []
  tickets : String → Option (Ticket × ℕ) := fun _ => none
  claims : String → Option (String × ℕ) := fun _ => none
  directory : Directory := {}
  memory : ℕ → Table Account.id := fun _ => .empty

namespace Shared

variable (s : Shared)

def liveTicket (id : String) : Option Ticket :=
  ((s.tickets id).filter fun entry => s.now < entry.2).map Prod.fst

def liveClaim (id : String) : Option String :=
  ((s.claims id).filter fun entry => s.now < entry.2).map Prod.fst

def setTicket (id : String) (entry : Option (Ticket × ℕ)) : Shared :=
  { s with tickets := update s.tickets id entry }

def setClaim (id : String) (entry : Option (String × ℕ)) : Shared :=
  { s with claims := update s.claims id entry }

def setDirectory (d : Directory) : Shared := { s with directory := d }

def setMemory (process : ℕ) (m : Table Account.id) : Shared :=
  { s with memory := update s.memory process m }

end Shared

/-! ## The scripts -/

namespace Redis

variable (s : Shared) (id claimID : String)

/-- `SET … NX EX`. -/
def create (ticket : Ticket) : Except RegistrationError (Shared × Bool) :=
  match s.liveTicket id with
  | some _ => .ok (s, false)
  | none => .ok (s.setTicket id (some (ticket, s.now + registrationTTL)), true)

def get : Except RegistrationError (Shared × Ticket) :=
  match s.liveTicket id with
  | none => .error .notFound
  | some ticket => .ok (s, ticket)

def claim : Except RegistrationError (Shared × Ticket) :=
  match s.liveTicket id with
  | none => .error .notFound
  | some ticket =>
    match s.liveClaim id with
    | some _ => .error .inProgress
    | none => .ok (s.setClaim id (some (claimID, s.now + registrationClaimTTL)), ticket)

def releaseClaim : Except RegistrationError (Shared × Unit) :=
  if s.liveClaim id = some claimID then .ok (s.setClaim id none, ()) else .ok (s, ())

def complete : Except RegistrationError (Shared × Unit) :=
  match s.liveTicket id with
  | none => .error .notFound
  | some _ =>
    if s.liveClaim id ≠ some claimID then .error .inProgress
    else .ok ((s.setTicket id none).setClaim id none, ())

def delete : Except RegistrationError (Shared × Unit) :=
  match s.liveTicket id with
  | none => .error .notFound
  | some _ =>
    match s.liveClaim id with
    | some _ => .error .inProgress
    | none => .ok (s.setTicket id none, ())

end Redis

/-! ## The directory and the processes -/

/-- The statement that creates an account.  Where the row breaks several constraints, any of
them is reported. -/
def CreatesAccount (s : Shared) (username : String) (identity : Identity)
    (r : Except CreateError Account) (s' : Shared) : Prop :=
  (∃ id d, s.directory.insert? (.ofRegistration id username identity) = some d ∧
      s' = s.setDirectory d ∧
      (r = .ok (.ofRegistration id username identity) ∨ r = .error .database)) ∨
    (s' = s ∧ (r = .error .database ∨
      (r = .error .noRows ∧ ∃ a ∈ s.directory.accounts, a.key = some identity.key) ∨
      (r = .error (.unique .username) ∧
        ∃ a ∈ s.directory.accounts, Text.toLower a.username = Text.toLower username) ∨
      (r = .error (.unique .singleAdministrator) ∧ identity.realm.administrator ∧
        ∃ a ∈ s.directory.accounts, a.administrator)))

def isPublishable (rules : Rules) (a : Account) : Bool :=
  match a.provider with
  | .development => a.subject = none && a.username = (if a.administrator then "local-admin" else
      "local-user")
  | _ => validateUsername rules.blocklist a.username a.administrator &&
      (⟨a.provider, a.subject.getD "", a.verifiedEmail, a.realm⟩ : Identity).isValid

def publish (rules : Rules) (m : Table Account.id) (a : Account) : Option (Table Account.id) :=
  if !isPublishable rules a then none
  else if m.rows.any fun b => a.key.isSome && b.key = a.key && b.id ≠ a.id then none
  else match m.get? a.id with
    | none => some (m.upsert a)
    | some previous =>
      if previous.username = a.username ∧ previous.key = a.key ∧
          previous.administrator = a.administrator then some (m.upsert a)
      else none

/-! ## The environment -/

/-- What a call may answer, and what it leaves. -/
def serves (rules : Rules) (s : Shared) : (c : Call) → c.Reply → Shared → Prop
  | .now, r, s' => r = s.now ∧ s' = s
  | .random, r, s' => (r = none ∧ s' = s) ∨
      ∃ v, v ∉ s.issued ∧ r = some v ∧ s' = { s with issued := v :: s.issued }
  | .setTicket id ticket, r, s' => Served (Redis.create s id ticket) .unavailable s r s'
  | .getTicket id, r, s' => Served (Redis.get s id) .unavailable s r s'
  | .claim id claimID, r, s' => Served (Redis.claim s id claimID) .unavailable s r s'
  | .releaseClaim id claimID, r, s' => Served (Redis.releaseClaim s id claimID) .unavailable s r s'
  | .complete id claimID, r, s' => Served (Redis.complete s id claimID) .unavailable s r s'
  | .deleteTicket id, r, s' => Served (Redis.delete s id) .unavailable s r s'
  | .memoryIdentity process key, r, s' => s' = s ∧
      r = ((s.memory process).rows.find? fun a => a.key = some key).map Account.id
  | .memoryGet process account, r, s' => s' = s ∧ r = (s.memory process).get? account
  | .publish process a, r, s' =>
    (∃ m, publish rules (s.memory process) a = some m ∧ r = true ∧ s' = s.setMemory process m) ∨
      (publish rules (s.memory process) a = none ∧ r = false ∧ s' = s)
  | .accountByIdentity key, r, s' => s' = s ∧
      (r = .error .other ∨ r = .ok (s.directory.byIdentity key))
  | .createAccount username identity, r, s' => CreatesAccount s username identity r s'
  | .listAccounts, r, s' => s' = s ∧ (r = .error .other ∨ r = .ok s.directory.accounts.rows)
  | .registerAccess .., _, s' => s' = s
  | .createLogin _ account identity, _, s' =>
    s' = s ∨ s' = s.setDirectory (s.directory.recordLogin account identity)

/-- What happens without these functions: time passes, a process starts and loads the
accounts, an account for development is created, or someone logs in. -/
inductive Drifts (s : Shared) : Shared → Prop
  | tick (t : ℕ) (h : s.now ≤ t) : Drifts s { s with now := t }
  | load (process : ℕ) : Drifts s (s.setMemory process s.directory.accounts)
  | develop (a : Account) (d : Directory) (hsubject : a.subject = none)
      (h : s.directory.insert? a = some d) : Drifts s (s.setDirectory d)
  | login (account : ℕ) (identity : Identity) :
      Drifts s (s.setDirectory (s.directory.recordLogin account identity))

/-- The requests of a browser. -/
inductive Starts (rules : Rules) : Handler Unit → Prop
  | begins (identity returnTo) : Starts rules (beginRegistration rules identity returnTo)
  | create (process cookie body) : Starts rules (create rules process cookie body)
  | delete (cookie csrfToken) : Starts rules (delete rules cookie csrfToken)

def pool (rules : Rules) : Pool Shared Call Call.Reply Failure where
  init := {}
  starts _ p := Starts rules p
  serves := serves rules
  drifts := Drifts

abbrev World : Type := Pool.World Shared Call.Reply Failure

abbrev Event : Type := Pool.Event Shared Call.Reply

/-! ## The rules of the functions -/

/-- The row was read from the directory. -/
def Read (h : List Entry) (a : Account) : Prop :=
  (∃ key, (⟨.accountByIdentity key, .ok (some a)⟩ : Entry) ∈ h) ∨
    ∃ username identity, (⟨.createAccount username identity, .ok a⟩ : Entry) ∈ h

def Known (h : List Entry) (id : ℕ) (key : IdentityKey) : Prop :=
  (∃ process, (⟨.memoryIdentity process key, some id⟩ : Entry) ∈ h) ∨
    ∃ a : Account, a.id = id ∧ a.key = some key ∧ Read h a

/-- The account was found in the memory of a process, by an id that is known to have an
identity. -/
def Given (h : List Entry) (account : ℕ) (key : IdentityKey) : Prop :=
  ∃ process id a, (⟨.memoryGet process id, some a⟩ : Entry) ∈ h ∧ a.id = account ∧ Known h id key

variable {h h' : List Entry} {cookie : Option String} {username : String}

theorem Read.mono {a : Account} (hr : Read h a) (hsub : h ⊆ h') : Read h' a :=
  hr.imp (fun ⟨key, hk⟩ => ⟨key, hsub hk⟩) fun ⟨u, i, hk⟩ => ⟨u, i, hsub hk⟩

theorem Known.mono {id : ℕ} {key : IdentityKey} (hk : Known h id key) (hsub : h ⊆ h') :
    Known h' id key :=
  hk.imp (fun ⟨p, hp⟩ => ⟨p, hsub hp⟩) fun ⟨a, hid, hkey, hr⟩ => ⟨a, hid, hkey, hr.mono hsub⟩

theorem Given.mono {account : ℕ} {key : IdentityKey} (hg : Given h account key) (hsub : h ⊆ h') :
    Given h' account key := by
  obtain ⟨process, id, a, hget, haccount, hknown⟩ := hg
  exact ⟨process, id, a, hsub hget, haccount, hknown.mono hsub⟩

/-- A ticket of the identity was claimed and completed. -/
def Consumed (h : List Entry) (identity : Identity) : Prop :=
  ∃ id claimID ticket, ticket.identity = identity ∧
    (⟨.claim id claimID, .ok ticket⟩ : Entry) ∈ h ∧ (⟨.complete id claimID, .ok ()⟩ : Entry) ∈ h

theorem Consumed.mono {identity : Identity} (hc : Consumed h identity) (hsub : h ⊆ h') :
    Consumed h' identity := by
  obtain ⟨id, claimID, ticket, hidentity, hclaim, hcomplete⟩ := hc
  exact ⟨id, claimID, ticket, hidentity, hsub hclaim, hsub hcomplete⟩

/-- When a handler makes a call. -/
def Rule (h : List Entry) : Call → Prop
  | .setTicket id _ => ∃ csrfSecret now,
      h = [⟨.random, some id⟩, ⟨.random, some csrfSecret⟩, ⟨.now, now⟩]
  | .claim _ claimID | .releaseClaim _ claimID => (⟨.random, some claimID⟩ : Entry) ∈ h
  | .complete id claimID => (⟨.random, some claimID⟩ : Entry) ∈ h ∧
      ∃ ticket, (⟨.claim id claimID, .ok ticket⟩ : Entry) ∈ h
  | .publish _ a => Read h a
  | .createLogin _ account identity => Given h account identity.key ∧ Consumed h identity
  | _ => True

section programs

open Program

variable {rules : Rules} {process : ℕ} {h : List Entry}

theorem yields_publishAndGet {account : Account} (hread : Read h account) :
    Yields Rule (publishAndGet process account) h fun h' a =>
      (⟨.memoryGet process account.id, some a⟩ : Entry) ∈ h' := by
  refine yields_ask_bind hread fun published => yields_ofExcept_bind fun _ _ => ?_
  refine yields_ask_bind trivial fun found => yields_ofExcept fun a ha => ?_
  obtain rfl := found_eq_ok.mp ha
  simp

variable {identity : Identity}

theorem yields_getByIdentity
    (hsubject :
      normalizeIdentitySubject identity.provider identity.subject = some identity.subject) :
    Yields Rule (getByIdentity process identity) h fun h' found =>
      ∀ a, found = some a → Given h' a.id identity.key := by
  unfold getByIdentity
  rw [hsubject]
  refine yields_ask_bind trivial fun known => ?_
  cases known with
  | some id =>
    refine yields_ask_bind trivial fun found => yields_ofExcept_bind fun a ha => ?_
    obtain rfl := found_eq_ok.mp ha
    refine yields_pure ?_
    rintro _ ⟨rfl⟩
    exact ⟨process, id, a, by simp, rfl, .inl ⟨process, by simp [Identity.key]⟩⟩
  | none =>
    refine yields_ask_bind trivial fun reply => yields_ofExcept_bind fun durable hdurable => ?_
    cases durable with
    | none => exact yields_pure (by simp)
    | some account =>
      refine yields_ofExcept_bind fun _ hkey => ?_
      obtain rfl := mapError_eq_ok.mp hdurable
      have hread : Read (h ++ [⟨.memoryIdentity process identity.key, none⟩] ++
          [⟨.accountByIdentity identity.key, .ok (some account)⟩]) account :=
        .inl ⟨identity.key, by simp⟩
      refine (yields_publishAndGet hread).bind fun h' a hh' hget => yields_pure ?_
      rintro _ ⟨rfl⟩
      refine ⟨process, account.id, a, hget, rfl, .inr ⟨account, rfl, ensure_eq_ok.mp hkey, ?_⟩⟩
      exact hread.mono hh'.subset

theorem yields_resolveRegistrationConflict {e : CreateError} :
    Yields Rule (SQLStore.resolveRegistrationConflict identity e) h fun h' a => Read h' a := by
  refine yields_ask_bind trivial fun reply => yields_ofExcept_bind fun existing hexisting => ?_
  cases existing with
  | some =>
    obtain rfl := mapError_eq_ok.mp hexisting
    exact yields_pure (.inl ⟨identity.key, by simp⟩)
  | none =>
    cases e with
    | noRows => exact yields_fail
    | database => exact yields_fail
    | unique constraint =>
      dsimp only
      split
      · refine yields_ask_bind trivial fun reply => yields_ofExcept_bind fun accounts _ => ?_
        refine yields_ofExcept_bind fun _ _ => ?_
        cases constraint <;> exact yields_fail
      · cases constraint <;> exact yields_fail

theorem yields_store_registerExternalAccount :
    Yields Rule (SQLStore.registerExternalAccount rules identity username) h fun h' a =>
      Read h' a := by
  refine yields_ofExcept_bind fun identity _ => yields_ofExcept_bind fun _ _ => ?_
  refine yields_ofExcept_bind fun _ _ => yields_ask_bind trivial fun reply => ?_
  refine yields_ofExcept_bind fun existing hexisting => ?_
  cases existing with
  | some =>
    obtain rfl := mapError_eq_ok.mp hexisting
    exact yields_pure (.inl ⟨identity.key, by simp⟩)
  | none =>
    refine yields_ask_bind trivial fun created => ?_
    cases created with
    | error e => exact yields_resolveRegistrationConflict
    | ok account =>
      refine yields_ofExcept_bind fun _ _ => yields_pure (.inr ⟨username, identity, ?_⟩)
      simp

theorem yields_registerExternalAccount (hvalid : identity.isValid) :
    Yields Rule (registerExternalAccount rules process identity username) h
      fun h' a => Given h' a.id identity.key := by
  have hnormal : normalizeExternalIdentity identity = some identity := by
    simpa [Identity.isValid] using hvalid
  refine yields_ofExcept_bind fun identity' hidentity => ?_
  obtain rfl : identity = identity' := by
    rw [found_eq_ok, hnormal] at hidentity
    exact Option.some.inj hidentity
  refine yields_ofExcept_bind fun _ _ => ?_
  refine (yields_getByIdentity (normalizeExternalIdentity_subject hnormal)).bind
    fun h₁ existing _ hexisting => ?_
  cases existing with
  | some account => exact yields_pure (hexisting account rfl)
  | none =>
    refine yields_ofExcept_bind fun _ _ => ?_
    refine yields_store_registerExternalAccount.bind fun h₂ account _ hread => ?_
    refine yields_ofExcept_bind fun _ hkey => ?_
    refine (yields_publishAndGet hread).conseq fun h₃ a hh₃ hget => ?_
    exact ⟨process, account.id, a, hget, rfl,
      .inr ⟨account, rfl, ensure_eq_ok.mp hkey, hread.mono hh₃.subset⟩⟩

theorem decodeTicket_ok {now : ℕ} {ticket ticket' : Ticket}
    (h : decodeTicket rules now ticket = .ok ticket') :
    ticket' = ticket ∧ ticket.identity.isValid := by
  unfold decodeTicket at h
  split at h
  · cases h
  split at h
  · cases h
  rename_i hvalid _
  simp only [validateTicket, Bool.not_eq_true, Bool.not_eq_false', Bool.and_eq_true] at hvalid
  exact ⟨(Except.ok.inj h).symm, hvalid.1.1.1⟩

theorem yields_submit {id claimID : String} {ticket : Ticket} (hvalid : ticket.identity.isValid)
    (hclaimID : (⟨.random, some claimID⟩ : Entry) ∈ h)
    (hclaim : (⟨.claim id claimID, .ok ticket⟩ : Entry) ∈ h) :
    Yields Rule (submit rules process id claimID ticket username) h fun h' a =>
      Given h' a.id ticket.identity.key ∧ Consumed h' ticket.identity := by
  refine (yields_registerExternalAccount hvalid).bind fun h₁ account hh₁ hgiven => ?_
  refine yields_ask_bind trivial fun published => yields_ofExcept_bind fun _ _ => ?_
  have hsub : h ⊆ h₁ ++ [⟨.registerAccess process account.id, published⟩] :=
    List.Subset.trans hh₁.subset (List.subset_append_left _ _)
  refine yields_ask_bind ⟨hsub hclaimID, ticket, hsub hclaim⟩ fun reply => ?_
  refine yields_ofExcept_bind fun _ hreply => yields_pure ⟨hgiven.mono ?_, ?_⟩
  · exact List.Subset.trans (List.subset_append_left _ _) (List.subset_append_left _ _)
  · obtain rfl := mapError_eq_ok.mp hreply
    exact ⟨id, claimID, ticket, rfl, List.mem_append_left _ (hsub hclaim), by simp⟩

theorem yields_claim {id claimID : String} (hclaimID : (⟨.random, some claimID⟩ : Entry) ∈ h) :
    Yields Rule (Store.claim rules id claimID) h fun h' ticket => ticket.identity.isValid ∧
      (⟨.claim id claimID, .ok ticket⟩ : Entry) ∈ h' := by
  refine yields_ask_bind hclaimID fun reply => yields_ofExcept_bind fun ticket hreply => ?_
  obtain rfl := mapError_eq_ok.mp hreply
  refine yields_ask_bind trivial fun now => ?_
  cases hdecode : decodeTicket rules now ticket with
  | ok =>
    obtain ⟨rfl, hvalid⟩ := decodeTicket_ok hdecode
    exact yields_pure ⟨hvalid, by simp⟩
  | error => exact yields_ask_bind (by simp [Rule, hclaimID]) fun _ => yields_fail

theorem yields_ticketFromRequest :
    Yields Rule (ticketFromRequest rules cookie) h fun _ _ => True := by
  refine yields_ofExcept_bind fun id _ => ?_
  have hget : Yields Rule (Store.get rules id) h fun _ _ => True :=
    yields_ask_bind trivial fun _ => yields_ofExcept_bind fun _ _ =>
      yields_ask_bind trivial fun _ => yields_ofExcept fun _ _ => trivial
  refine hget.attempt_bind (fun h' ticket _ _ => yields_pure trivial) fun h' e _ => ?_
  cases e with
  | registration e => cases e <;> exact yields_fail
  | register | response => exact yields_fail

theorem yields_login {account : ℕ} (hgiven : Given h account identity.key ∧ Consumed h identity) :
    Yields Rule (login process account identity) h fun _ _ => True := by
  refine yields_ask_bind hgiven fun reply => ?_
  rcases reply with e | _
  · cases e with
    | maintenance => exact yields_fail
    | other => exact yields_fail
    | identityNotAllowed =>
      dsimp only
      split <;> exact yields_fail
  · exact yields_pure trivial

theorem yields_create {body : Option Submission} :
    Yields Rule (create rules process cookie body) h fun _ _ => True := by
  refine yields_ticketFromRequest.bind fun h₁ request _ _ => ?_
  obtain ⟨id, ticket⟩ := request
  refine yields_ofExcept_bind fun input _ => yields_ofExcept_bind fun _ _ => ?_
  refine yields_ofExcept_bind fun _ _ => yields_ask_bind trivial fun random => ?_
  refine yields_ofExcept_bind fun claimID hrandom => ?_
  obtain rfl := found_eq_ok.mp hrandom
  have hclaimID : (⟨.random, some claimID⟩ : Entry) ∈ h₁ ++ [⟨.random, some claimID⟩] := by simp
  refine (yields_claim hclaimID).attempt_bind (fun h₂ claimed hh₂ hclaim => ?_)
    fun _ _ _ => yields_fail
  have hclaimID := hh₂.subset hclaimID
  dsimp only
  split
  · refine Yields.attempt_bind (yields_submit hclaim.1 hclaimID hclaim.2) ?_ ?_
    · exact fun h₃ account _ hgiven => yields_login hgiven
    · exact fun h₃ e hh₃ => yields_ask_bind (hh₃.subset hclaimID) fun _ => yields_fail
  · exact yields_ask_bind hclaimID fun _ => yields_fail

theorem yields_delete {csrfToken : String} :
    Yields Rule (delete rules cookie csrfToken) h fun _ _ => True := by
  refine yields_ticketFromRequest.bind fun h₁ request _ _ => ?_
  refine yields_ofExcept_bind fun _ _ => yields_ask_bind trivial fun deleted => ?_
  cases deleted with
  | ok => exact yields_pure trivial
  | error => exact yields_fail

theorem yields_beginRegistration {returnTo : String} :
    Yields Rule (beginRegistration rules identity returnTo) [] fun _ _ => True := by
  refine yields_ofExcept_bind fun _ _ => yields_ask_bind trivial fun random => ?_
  refine yields_ofExcept_bind fun id hid => yields_ask_bind trivial fun random' => ?_
  refine yields_ofExcept_bind fun csrfSecret hcsrf => yields_ask_bind trivial fun now => ?_
  obtain rfl := found_eq_ok.mp hid
  obtain rfl := found_eq_ok.mp hcsrf
  refine yields_ofExcept_bind fun _ _ => yields_ask_bind ⟨csrfSecret, now, rfl⟩ fun reply => ?_
  exact yields_ofExcept_bind fun _ _ => yields_ofExcept fun _ _ => trivial

theorem obeys_of_starts (i : ℕ) (p : Handler Unit) (h : (pool rules).starts i p) :
    p.Guards Rule (fun _ _ => True) [] := by
  cases h with
  | begins => exact yields_beginRegistration.guards
  | create => exact yields_create.guards
  | delete => exact yields_delete.guards

end programs

end Athena.Registration
