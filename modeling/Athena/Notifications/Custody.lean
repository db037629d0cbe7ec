import Athena.Notifications.World
import Mathlib.Data.Set.Basic

/-!
# Account notifications follow bindings

An address is *live* while a connected binding has it, and *outstanding* while a delivery is
pending for it.  Every transaction keeps the outstanding addresses among the live ones.  A
delivery that is not pending stays so, and the revisions of an account only grow, so an address
that is no longer live never gets a message again for what was enqueued before.
-/

namespace Athena.Notifications

open Athena.Lib Table Queries Function Pool SQLStore Database TelegramBinding Shared

def Database.live (db : Database) : Set Address :=
  {a | ∃ b ∈ db.bindings, b.status = .connected ∧ b.address = a}

def Database.outstanding (db : Database) : Set Address :=
  {a | ∃ d ∈ db.deliveries, d.status = .pending ∧ d.address = a}

/-- What no transaction changes of a delivery, and that its outcome is final. -/
structure AccountNotificationDelivery.Becomes (d d' : AccountNotificationDelivery) : Prop where
  id : d'.id = d.id
  address : d'.address = d.address
  idempotency : d'.idempotency = d.idempotency
  payload : d'.payloadDigest = d.payloadDigest
  final : d.status ≠ .pending → d'.status = d.status

namespace AccountNotificationDelivery.Becomes

variable {d d' d'' : AccountNotificationDelivery}

theorem refl (d : AccountNotificationDelivery) : d.Becomes d := ⟨rfl, rfl, rfl, rfl, fun _ => rfl⟩

theorem trans (h : d.Becomes d') (h' : d'.Becomes d'') : d.Becomes d'' where
  id := h'.id.trans h.id
  address := h'.address.trans h.address
  idempotency := h'.idempotency.trans h.idempotency
  payload := h'.payload.trans h.payload
  final hd := by
    have hd' := h.final hd
    exact (h'.final (by simpa [hd'] using hd)).trans hd'

theorem pending (h : d.Becomes d') (hd' : d'.status = .pending) : d.status = .pending := by
  by_contra hd
  exact hd ((h.final hd).symm.trans hd')

end AccountNotificationDelivery.Becomes

/-! ## What holds at all times -/

structure Sound (db : Database) : Prop where
  pending : db.outstanding ⊆ db.live
  versions : ∀ b ∈ db.bindings, b.revision ≤ db.versions b.account

structure Kept (db db' : Database) : Prop where
  versions : ∀ account, db.versions account ≤ db'.versions account
  deliveries : ∀ d ∈ db.deliveries, ∃ d' ∈ db'.deliveries, d.Becomes d'

variable {db db' db'' : Database} {now : ℤ} {a : Address}

namespace Kept

theorem of_eq (hversions : db'.versions = db.versions)
    (hdeliveries : db'.deliveries = db.deliveries) :
    Kept db db' where
  versions account := by rw [hversions]
  deliveries d hd := ⟨d, hdeliveries ▸ hd, .refl d⟩

theorem refl (db : Database) : Kept db db := of_eq rfl rfl

theorem trans (h : Kept db db') (h' : Kept db' db'') : Kept db db'' where
  versions account := (h.versions account).trans (h'.versions account)
  deliveries d hd := by
    obtain ⟨d', hd', hb⟩ := h.deliveries d hd
    obtain ⟨d'', hd'', hb'⟩ := h'.deliveries d' hd'
    exact ⟨d'', hd'', hb.trans hb'⟩

theorem mapDeliveries {f : AccountNotificationDelivery → AccountNotificationDelivery}
    {hid : ∀ d, (f d).id = d.id} {hkey : ∀ d, (f d).idempotency = d.idempotency}
    (h : ∀ d ∈ db.deliveries, d.Becomes (f d)) : Kept db (db.mapDeliveries f hid hkey) where
  versions _ := le_rfl
  deliveries d hd := ⟨f d, mem_mapDeliveries.mpr ⟨d, hd, rfl⟩, h d hd⟩

end Kept

/-! ## Deliveries that are settled -/

section Settle
variable {p : AccountNotificationDelivery → Bool} {status : DeliveryStatus} {message : String}
  {next : Option ℤ}

theorem kept_settlePending : Kept db (settlePending db p status message next) := by
  refine Kept.mapDeliveries fun d _ => ?_
  split
  · rename_i h
    have hpending : d.status = .pending := by simpa using (Bool.and_eq_true_iff.mp h).2
    exact ⟨rfl, rfl, rfl, rfl, fun hd => absurd hpending hd⟩
  · exact .refl d

theorem pending_of_settlePending {d' : AccountNotificationDelivery}
    (hd' : d' ∈ (settlePending db p status message next).deliveries)
    (hpending : d'.status = .pending) :
    ∃ d ∈ db.deliveries, d.status = .pending ∧ d'.address = d.address ∧
      (p d → status = .pending) := by
  obtain ⟨d, hd, rfl⟩ := mem_mapDeliveries.mp hd'
  split at hpending
  · rename_i h
    rw [if_pos h]
    exact ⟨d, hd, by simpa using (Bool.and_eq_true_iff.mp h).2, rfl, fun _ => hpending⟩
  · rename_i h
    rw [if_neg h]
    refine ⟨d, hd, hpending, rfl, fun hp => ?_⟩
    exact absurd (by simp [hp, hpending]) h

theorem outstanding_settlePending_subset :
    (settlePending db p status message next).outstanding ⊆ db.outstanding := by
  rintro a ⟨d', hd', hpending, rfl⟩
  obtain ⟨d, hd, hdp, haddress, -⟩ := pending_of_settlePending hd' hpending
  exact ⟨d, hd, hdp, haddress.symm⟩

end Settle

theorem notMem_outstanding_cancelForBinding :
    a ∉ (cancelPendingAccountNotificationDeliveriesForBinding db a).outstanding := by
  rintro ⟨d', hd', hpending, rfl⟩
  obtain ⟨d, -, -, haddress, hstatus⟩ := pending_of_settlePending hd' hpending
  exact absurd (hstatus (by simp [haddress])) (by simp)

variable {account : ℕ} {e : Event}

theorem notMem_outstanding_cancel (ha : a.account = account) :
    a ∉ (cancelPendingAccountNotificationDeliveries db account).outstanding := by
  rintro ⟨d', hd', hpending, rfl⟩
  obtain ⟨d, -, -, haddress, hstatus⟩ := pending_of_settlePending hd' hpending
  have hd : d.account = account := by rw [haddress] at ha; exact ha
  exact absurd (hstatus (by simp [hd])) (by simp)

/-! ## Bindings that are marked -/

section Mark
variable {p : TelegramBinding → Bool} {status : BindingStatus} {lastError : Option String}

theorem exists_of_mem_markTelegramBindings {b' : TelegramBinding}
    (hb' : b' ∈ (markTelegramBindings db now p status lastError).bindings) :
    ∃ b ∈ db.bindings, b'.address = b.address := by
  obtain ⟨b, hb, rfl⟩ := mem_mapBindings.mp hb'
  refine ⟨b, hb, ?_⟩
  split <;> rfl

theorem Sound.versions_mark (h : Sound db) :
    ∀ b' ∈ (markTelegramBindings db now p status lastError).bindings,
      b'.revision ≤ db.versions b'.account := by
  intro b' hb'
  obtain ⟨b, hb, haddress⟩ := exists_of_mem_markTelegramBindings hb'
  simp only [address, Address.mk.injEq] at haddress
  rw [haddress.1, haddress.2.2]
  exact h.versions b hb

theorem mem_live_mark (ha : a ∈ db.live)
    (hp : ∀ b ∈ db.bindings, b.address = a → p b → status = .connected) :
    a ∈ (markTelegramBindings db now p status lastError).live := by
  obtain ⟨b, hb, hconnected, rfl⟩ := ha
  refine ⟨_, mem_mapBindings.mpr ⟨b, hb, rfl⟩, ?_⟩
  split
  · rename_i h
    exact ⟨hp b hb rfl (Bool.and_eq_true_iff.mp h).1, rfl⟩
  · exact ⟨hconnected, rfl⟩

end Mark

/-! ## What the transactions keep -/

namespace Sound

variable (h : Sound db)
include h

theorem of_eq (hbindings : db'.bindings = db.bindings) (hversions : db'.versions = db.versions)
    (hdeliveries : db'.deliveries = db.deliveries) : Sound db' ∧ Kept db db' := by
  refine ⟨⟨?_, ?_⟩, .of_eq hversions hdeliveries⟩
  · rw [outstanding, live, hbindings, hdeliveries]
    exact h.pending
  · rw [hbindings, hversions]
    exact h.versions

theorem mapDeliveries {f : AccountNotificationDelivery → AccountNotificationDelivery}
    {hid : ∀ d, (f d).id = d.id} {hkey : ∀ d, (f d).idempotency = d.idempotency}
    (hf : ∀ d ∈ db.deliveries, d.Becomes (f d)) :
    Sound (db.mapDeliveries f hid hkey) ∧ Kept db (db.mapDeliveries f hid hkey) := by
  refine ⟨⟨?_, h.versions⟩, Kept.mapDeliveries hf⟩
  rintro a ⟨d', hd', hpending, rfl⟩
  obtain ⟨d, hd, rfl⟩ := mem_mapDeliveries.mp hd'
  rw [(hf d hd).address]
  exact h.pending ⟨d, hd, (hf d hd).pending hpending, rfl⟩

theorem enqueue {req : CreateAccountNotificationDeliveryRequest}
    {result : EnqueueAccountNotificationResult}
    (hok : enqueueAccountNotification db now req = .ok (db', result)) :
    Sound db' ∧ Kept db db' := by
  obtain rfl | ⟨binding, d, hbinding, hconnected, hcreate⟩ :=
    enqueueAccountNotification_ok hok
  · exact ⟨h, .refl _⟩
  obtain ⟨hmem, haccount⟩ := get?_eq_some.mp hbinding
  unfold createAccountNotificationDelivery at hcreate
  split at hcreate
  on_goal 2 => cases hcreate
  rename_i hcheck
  dsimp only at hcreate
  split at hcreate
  on_goal 2 => cases hcreate
  obtain ⟨rfl, -⟩ := Prod.mk.inj (Option.some.inj (Except.ok.inj hcreate))
  refine ⟨⟨?_, h.versions⟩, fun _ => le_rfl, fun d hd => ⟨d, ?_, .refl d⟩⟩
  · rintro a ⟨d', hd', hpending, rfl⟩
    rcases mem_upsert.mp hd' with rfl | ⟨hd', -⟩
    · exact ⟨binding, hmem, hconnected, by simp [address,
        AccountNotificationDelivery.address, haccount]⟩
    · exact h.pending ⟨d', hd', hpending, rfl⟩
  · exact mem_upsert.mpr (.inr ⟨hd, hcheck.2 d hd⟩)

theorem withdraw {A : Set Address} (houtstanding : db'.outstanding ⊆ db.outstanding)
    (hcancelled : ∀ a ∈ db'.outstanding, a ∉ A) (hlive : ∀ a ∈ db.live, a ∉ A → a ∈ db'.live) :
    db'.outstanding ⊆ db'.live := by
  intro a ha
  exact hlive a (h.pending (houtstanding ha)) (hcancelled a ha)

theorem deleteBinding {account : ℕ} {deleted : Bool}
    (hok : SQLStore.deleteTelegramBinding db account = .ok (db', deleted)) :
    Sound db' ∧ Kept db db' := by
  obtain ⟨rfl, -⟩ := pure_pair.mp hok
  have hunbound : Kept db (deleteTelegramBindingAttemptByAccount
      (Queries.deleteTelegramBinding db account) account) := .of_eq rfl rfl
  refine ⟨⟨h.withdraw (A := {a | a.account = account}) outstanding_settlePending_subset ?_ ?_, ?_⟩,
    hunbound.trans kept_settlePending⟩
  · exact fun a ha heq => notMem_outstanding_cancel heq ha
  · rintro a ⟨b, hb, hconnected, rfl⟩ hne
    exact ⟨b, mem_filter.mpr ⟨hb, by simpa [address] using hne⟩, hconnected, rfl⟩
  · exact fun b hb => h.versions b (mem_filter.mp hb).1

/-- The binding at an address is marked unreachable and its deliveries are cancelled, among
other deliveries that end. -/
theorem unreachable {p : TelegramBinding → Bool} {lastError : Option String}
    (hp : ∀ b ∈ db.bindings, p b → b.address = a) (hkept : Kept db db')
    (hbindings : db'.bindings = (markTelegramBindings db now p .unreachable lastError).bindings)
    (hversions : db'.versions = db.versions) (houtstanding : db'.outstanding ⊆ db.outstanding)
    (hcancelled : a ∉ db'.outstanding) : Sound db' ∧ Kept db db' := by
  refine ⟨⟨h.withdraw (A := {a}) houtstanding ?_ ?_, ?_⟩, hkept⟩
  · rintro a' ha' rfl
    exact hcancelled ha'
  · intro a' ha' hne
    rw [live, hbindings]
    refine mem_live_mark ha' fun b hb haddress hpb => ?_
    exact absurd (haddress.symm.trans (hp b hb hpb)) hne
  · rw [hbindings, hversions]
    exact h.versions_mark

theorem markUnreachable {address : Address} {deliveryID : ℕ} {reason : String}
    (hok : markTelegramBindingUnreachable db now address deliveryID reason = .ok (db', ()))
      :
    Sound db' ∧ Kept db db' := by
  obtain ⟨rfl, -⟩ := pure_pair.mp hok
  have hmarked : Kept db (Queries.markTelegramBindingUnreachable db now address reason) :=
    .of_eq rfl rfl
  by_cases hid : 0 < deliveryID
  · simp only [hid, if_true]
    refine h.unreachable (a := address) (p := fun b => b.address = address) (by simp)
      ((hmarked.trans kept_settlePending).trans kept_settlePending) rfl rfl ?_
      notMem_outstanding_cancelForBinding
    exact outstanding_settlePending_subset.trans outstanding_settlePending_subset
  · simp only [hid, if_false]
    exact h.unreachable (a := address) (p := fun b => b.address = address) (by simp)
      (hmarked.trans kept_settlePending) rfl rfl outstanding_settlePending_subset
      notMem_outstanding_cancelForBinding

theorem markStatus {observed : ℕ} {user chat : ℤ} {status reason : String}
    (hok : SQLStore.markTelegramBindingStatusByIdentity db now observed user chat status reason =
      .ok (db', ())) :
    Sound db' ∧ Kept db db' := by
  unfold SQLStore.markTelegramBindingStatusByIdentity at hok
  split at hok
  · obtain ⟨rfl, -⟩ := pure_pair.mp hok
    exact ⟨h, .refl _⟩
  rename_i current hcurrent
  split at hok
  · obtain ⟨rfl, -⟩ := pure_pair.mp hok
    exact ⟨h, .refl _⟩
  rename_i hidentity
  push Not at hidentity
  split at hok
  · split at hok
    · obtain ⟨rfl, -⟩ := pure_pair.mp hok
      refine ⟨⟨fun a ha => mem_live_mark (h.pending ha) fun _ _ _ _ => rfl, h.versions_mark⟩, ?_⟩
      exact .of_eq rfl rfl
    · obtain ⟨rfl, -⟩ := pure_pair.mp hok
      exact ⟨h, .refl _⟩
  · obtain ⟨rfl, -⟩ := pure_pair.mp hok
    by_cases hstatus : current.status ≠ .unreachable
    · simp only [hstatus, ne_eq, not_false_eq_true, if_true]
      have hmarked : Kept db (markTelegramBindingUnreachableByIdentity db now user chat
        reason) := .of_eq rfl rfl
      -- the identity is that of the current binding, and no other binding has its user
      refine h.unreachable (a := current.address)
        (p := fun b => b.telegramUserID = user && b.telegramChatID = chat) ?_
        (hmarked.trans kept_settlePending) rfl rfl outstanding_settlePending_subset
        notMem_outstanding_cancelForBinding
      intro b hb hp
      have huser : b.telegramUserID = user := by simpa using (Bool.and_eq_true_iff.mp hp).1
      rw [db.users_unique b hb current (mem_of_get? hcurrent)
        (huser.trans hidentity.1.symm)]
    · simp only [hstatus, if_false]
      refine ⟨⟨fun a ha => h.pending (outstanding_settlePending_subset ha), h.versions⟩, ?_⟩
      exact kept_settlePending
  · cases hok

theorem markSent {address : Address} {id : ℕ} {providerMessageID : String}
    (hsend : mayStillSend db address id) :
    Sound (markAccountNotificationDeliverySent db now id providerMessageID) ∧
      Kept db (markAccountNotificationDeliverySent db now id providerMessageID) := by
  obtain ⟨-, d, hd, rfl, hpending, -⟩ := of_mayStillSend hsend
  refine h.mapDeliveries fun c hc => ?_
  split
  · rename_i heq
    obtain rfl : c = d := eq_of_key_eq hc hd heq
    exact ⟨rfl, rfl, rfl, rfl, fun hc => absurd hpending hc⟩
  · exact .refl c

theorem claim {opts : ClaimDeliveriesOptions} {held : List ℕ}
    {claimed : List ClaimedAccountNotificationDelivery}
    (hok : SQLStore.claimPendingAccountNotificationDeliveries db now opts held = .ok (db', claimed))
      :
    Sound db' ∧ Kept db db' := by
  obtain ⟨rfl, -⟩ := pure_pair.mp hok
  have hlock (c : Bool) (d : AccountNotificationDelivery) :
      d.Becomes (if c then d.lock now opts.lockedBy else d) := by
    cases c with
    | true => exact ⟨rfl, rfl, rfl, rfl, fun _ => rfl⟩
    | false => exact .refl d
  exact h.mapDeliveries fun d _ => hlock _ d

theorem settle {p : AccountNotificationDelivery → Bool} {status : DeliveryStatus} {message : String}
    {next : Option ℤ} :
    Sound (settlePending db p status message next) ∧
      Kept db (settlePending db p status message next) :=
  ⟨⟨fun _ ha => h.pending (outstanding_settlePending_subset ha), h.versions⟩, kept_settlePending⟩

end Sound

/-! ## Bindings that are made -/

/-- An account is bound: its new binding takes the place of the old one under a revision that
no binding of the account had, and the deliveries for the old one are cancelled. -/
structure Rebinds (db db' : Database) (b : TelegramBinding) : Prop where
  revision : b.revision = db.versions b.account + 1
  connected : b.status = .connected
  bindings : ∀ c, c ∈ db'.bindings ↔ c = b ∨ (c ∈ db.bindings ∧ c.account ≠ b.account)
  versions : db'.versions = update db.versions b.account b.revision
  outstanding : db'.outstanding ⊆ db.outstanding
  cancelled : ∀ old ∈ db.bindings, old.account = b.account → old.address ∉ db'.outstanding
  kept : Kept db db'

theorem nextTelegramBindingRevision_ok {numbered : Database × ℕ}
    (h : nextTelegramBindingRevision db account = .ok numbered) :
    numbered = (db.setVersion account (db.versions account + 1), db.versions account + 1) := by
  unfold nextTelegramBindingRevision at h
  split at h
  · exact (Except.ok.inj h).symm
  · cases h

theorem replaceTelegramBinding_ok {account : ℕ} {user chat : ℤ} {username : Option String}
    {displayName : String} {revision : ℕ} {replaced : Database × TelegramBinding}
    (h : replaceTelegramBinding db now account user chat username displayName revision =
      .ok replaced) :
    replaced.2.account = account ∧ replaced.2.revision = revision ∧
      replaced.2.status = .connected ∧ replaced.1.bindings = db.bindings.upsert replaced.2 ∧
      replaced.1.versions = db.versions ∧ replaced.1.deliveries = db.deliveries := by
  unfold replaceTelegramBinding at h
  split at h
  · obtain rfl := Except.ok.inj h
    exact ⟨rfl, rfl, rfl, rfl, rfl, rfl⟩
  · cases h

theorem outstanding_congr (h : db'.deliveries = db.deliveries) :
    db'.outstanding = db.outstanding := by
  rw [outstanding, outstanding, h]

theorem cancelSuperseded_bindings (old : Option TelegramBinding) :
    (cancelSuperseded db old).bindings = db.bindings := by cases old <;> rfl

theorem cancelSuperseded_versions (old : Option TelegramBinding) :
    (cancelSuperseded db old).versions = db.versions := by cases old <;> rfl

theorem cancelSuperseded_spec (db db' : Database) (account : ℕ) :
    (cancelSuperseded db' (getTelegramBinding db account)).outstanding ⊆
        db'.outstanding ∧
      Kept db' (cancelSuperseded db' (getTelegramBinding db account)) ∧
      ∀ old ∈ db.bindings, old.account = account → old.address ∉
        (cancelSuperseded db' (getTelegramBinding db account)).outstanding := by
  cases hold : getTelegramBinding db account with
  | none =>
    refine ⟨subset_rfl, .refl _, fun old hmem haccount => ?_⟩
    exact absurd haccount (get?_eq_none.mp hold old hmem)
  | some b =>
    refine ⟨outstanding_settlePending_subset, kept_settlePending, fun old hmem haccount => ?_⟩
    have heq : old = b := eq_of_key_eq hmem (mem_of_get? hold)
      (haccount.trans (key_of_get? hold).symm)
    rw [heq]
    exact notMem_outstanding_cancelForBinding

theorem completeTelegramBindingAttempt_spec {req : CompleteTelegramBindingAttemptRequest}
    {c : Completion}
    (h : SQLStore.completeTelegramBindingAttempt db now account req = .ok (db', c)) :
    ((∀ b, c ≠ .bound b) ∧ db'.bindings = db.bindings ∧ db'.versions = db.versions ∧
        db'.deliveries = db.deliveries) ∨
      ∃ b, c = .bound b ∧ b.account = account ∧ Rebinds db db' b := by
  obtain ⟨id, reason, rfl, hc⟩ | ⟨id, numbered, replaced, hnumbered, hreplaced, rfl, rfl⟩ :=
    SQLStore.completeTelegramBindingAttempt_ok h
  · exact .inl ⟨hc, rfl, rfl, rfl⟩
  right
  obtain rfl := nextTelegramBindingRevision_ok hnumbered
  let numbered := db.setVersion account (db.versions account + 1)
  obtain ⟨houtstanding, hkept, hcancelled⟩ := cancelSuperseded_spec db numbered account
  obtain ⟨rfl, hrevision, hconnected, hbindings, hversions, hdeliveries⟩ :=
    replaceTelegramBinding_ok hreplaced
  refine ⟨replaced.2, rfl, rfl, ⟨hrevision, hconnected, fun c => ?_, ?_, ?_, ?_, ?_⟩⟩
  · have hupsert : replaced.1.bindings = db.bindings.upsert replaced.2 :=
      hbindings.trans (congrArg (·.upsert replaced.2) (cancelSuperseded_bindings _))
    change c ∈ replaced.1.bindings ↔ _
    rw [hupsert, mem_upsert]
  · rw [hrevision]
    exact hversions.trans (cancelSuperseded_versions _)
  · exact (outstanding_congr hdeliveries).trans_subset houtstanding
  · intro old hmem haccount hold
    exact hcancelled old hmem haccount ((outstanding_congr hdeliveries).subset hold)
  · have hnumber : Kept db numbered := by
      refine ⟨fun account => ?_, fun d hd => ⟨d, hd, .refl d⟩⟩
      by_cases heq : account = replaced.2.account
      · simp [numbered, setVersion, heq]
      · simp [numbered, setVersion, heq]
    have hwritten : Kept _ replaced.1 := .of_eq hversions hdeliveries
    exact (hnumber.trans hkept).trans (hwritten.trans (.of_eq rfl rfl))

theorem Rebinds.sound {b : TelegramBinding} (hb : Rebinds db db' b) (h : Sound db) : Sound db' where
  pending a ha := by
    obtain ⟨old, hold, hconnected, rfl⟩ := h.pending (hb.outstanding ha)
    have hne : old.account ≠ b.account := fun heq => hb.cancelled old hold heq ha
    exact ⟨old, (hb.bindings old).mpr (.inr ⟨hold, hne⟩), hconnected, rfl⟩
  versions c hc := by
    rw [hb.versions]
    rcases (hb.bindings c).mp hc with rfl | ⟨hc, hne⟩
    · simp
    · rw [update_of_ne hne]
      exact h.versions c hc

theorem Sound.complete (h : Sound db) {req : CompleteTelegramBindingAttemptRequest} {c : Completion}
    (hok : SQLStore.completeTelegramBindingAttempt db now account req = .ok (db', c)) :
    Sound db' ∧ Kept db db' := by
  obtain ⟨-, hbindings, hversions, hdeliveries⟩ | ⟨b, -, -, hb⟩ :=
    completeTelegramBindingAttempt_spec hok
  · exact h.of_eq hbindings hversions hdeliveries
  · exact ⟨hb.sound h, hb.kept⟩

/-! ## Interleavings -/

variable {w : World} {s s' : Shared}

theorem Shared.Runs.keeps {α : Type} {x : Except StoreError (Database × α)}
    {r : Except StoreError α} (h : s.Runs x r s') (hs : Sound s.db)
    (hx : ∀ {db' result}, x = .ok (db', result) → Sound db' ∧ Kept s.db db') :
    Sound s'.db ∧ Kept s.db s'.db := by
  obtain ⟨db, hserved, rfl⟩ := h
  obtain rfl | ⟨result, hok⟩ := hserved.cases
  · exact ⟨hs, .refl _⟩
  · exact hx hok

theorem Sends.keeps {address : Address} {id : ℕ} {message : Message} {r : Except SendError String}
    (h : Sends s address id message r s') (hs : Sound s.db) : Sound s'.db ∧ Kept s.db s'.db := by
  obtain ⟨f, -, rfl⟩ | ⟨-, -, rfl⟩ | ⟨hsend, accepted, reported, -, ⟨-, rfl⟩ |
    ⟨messageID, -, -, rfl⟩⟩ := h
  · exact ⟨hs, .refl _⟩
  · exact ⟨hs, .refl _⟩
  · exact ⟨hs, .refl _⟩
  · exact hs.markSent hsend

theorem keeps_of_serves {c : Call} {r : c.Reply} (h : serves s c r s') (hs : Sound s.db) :
    Sound s'.db ∧ Kept s.db s'.db := by
  cases c with
  | now => rw [h.2]; exact ⟨hs, .refl _⟩
  | enqueue => exact Runs.keeps h hs fun hok => hs.enqueue hok
  | createAttempt =>
    refine Runs.keeps h hs fun hok => ?_
    simp only [createTelegramBindingAttempt, upsertTelegramBindingAttempt,
      dite_eq_ok] at hok
    obtain ⟨hcheck, hok⟩ := hok
    obtain ⟨rfl, -⟩ := Prod.mk.inj hok
    exact hs.of_eq rfl rfl rfl
  | deleteAttempt =>
    refine Runs.keeps h hs fun hok => ?_
    obtain ⟨rfl, -⟩ := pure_pair.mp hok
    exact hs.of_eq rfl rfl rfl
  | deleteBinding => exact Runs.keeps h hs fun hok => hs.deleteBinding hok
  | attemptAccountByToken | bindingByIdentity => rw [h.1]; exact ⟨hs, .refl _⟩
  | complete => exact Runs.keeps h hs fun hok => hs.complete hok
  | markStatus => exact Runs.keeps h hs fun hok => hs.markStatus hok
  | markUnreachable => exact Runs.keeps h hs fun hok => hs.markUnreachable hok
  | claim =>
    obtain ⟨held, h⟩ := h
    exact Runs.keeps h hs fun hok => hs.claim hok
  | send => exact Sends.keeps h hs
  | markFailed | scheduleRetry =>
    refine Runs.keeps h hs fun hok => ?_
    obtain ⟨rfl, -⟩ := pure_pair.mp hok
    exact hs.settle

theorem keeps_of_drifts (h : Drifts s s') (hs : Sound s.db) : Sound s'.db ∧ Kept s.db s'.db := by
  cases h with
  | clock => exact ⟨hs, .refl _⟩
  | sequence => exact hs.of_eq rfl rfl rfl

theorem keeps_of_next (h : pool.Next s s') (hs : Sound s.db) : Sound s'.db ∧ Kept s.db s'.db := by
  obtain hdrifts | ⟨c, r, hserves⟩ := h
  · exact keeps_of_drifts hdrifts hs
  · exact keeps_of_serves hserves hs

theorem kept_of_lawful (h : e.Lawful pool) (hbefore : Sound e.before.db) :
    Kept e.before.db e.after.db := (keeps_of_next h.next hbefore).2

theorem steady_of_reachable (hw : pool.Reachable w) :
    Pool.Steady (fun s => Sound s.db) (fun s s' => Kept s.db s'.db) w.shared w.log := by
  refine hw.steady (fun s => .refl s.db) Kept.trans ⟨?_, by simp [pool]⟩ keeps_of_next
  rintro a ⟨d, hd, -⟩
  exact absurd hd (not_mem_empty d)

/-! ## Messages, bindings and their ends -/

def Posts (p : Post) (e : Event) : Prop := e.after.posts = e.before.posts ++ [p]

def Binds (account revision : ℕ) (e : Event) : Prop :=
  ∃ i req reply b, e.cause = some (i, ⟨.complete account req, reply⟩) ∧
    SQLStore.completeTelegramBindingAttempt e.before.db e.before.now account req =
      .ok (e.after.db, .bound b) ∧ b.revision = revision

/-- With the event the binding of an account is deleted, replaced or unreachable. -/
def Ends (account : ℕ) (e : Event) : Prop :=
  (∀ b ∈ e.after.db.bindings, b.account ≠ account) ∨ (∃ revision, Binds account revision e) ∨
    ∃ b ∈ e.after.db.bindings, b.account = account ∧ b.status = .unreachable

theorem rebinds_of_binds {revision : ℕ} (h : Binds account revision e) :
    ∃ b, b.account = account ∧ b.revision = revision ∧ Rebinds e.before.db e.after.db b := by
  obtain ⟨i, req, reply, b, -, hok, hrevision⟩ := h
  obtain ⟨hnot, -⟩ | ⟨b', hc, haccount, hrebinds⟩ := completeTelegramBindingAttempt_spec hok
  · exact absurd rfl (hnot b)
  · obtain rfl := Completion.bound.inj hc
    exact ⟨b, haccount, hrevision, hrebinds⟩

/-- An event asks the provider for nothing, or to send one message, for a pending delivery
whose binding is connected. -/
theorem posts_cases (hlawful : e.Lawful pool) : e.after.posts = e.before.posts ∨
      ∃ p, Posts p e ∧ mayStillSend e.before.db p.address p.delivery := by
  obtain ⟨cause, before, after⟩ := e
  cases cause with
  | none =>
    cases (show Drifts before after from hlawful) with
    | clock t => exact .inl rfl
    | sequence n hn => exact .inl rfl
  | some jx =>
    obtain ⟨j, c, r⟩ := jx
    have hserves : serves before c r after := hlawful
    have hruns {α : Type} {x : Except StoreError (Database × α)} {r : Except StoreError α}
        (h : before.Runs x r after) : after.posts = before.posts := by
      obtain ⟨db, -, rfl⟩ := h
      rfl
    cases c with
    | send address deliveryID message =>
      obtain ⟨f, -, rfl⟩ | ⟨-, -, rfl⟩ | ⟨hsend, accepted, reported, -, ⟨-, rfl⟩ |
        ⟨messageID, -, -, rfl⟩⟩ := hserves
      · exact .inl rfl
      · exact .inl rfl
      · exact .inr ⟨_, rfl, hsend⟩
      · exact .inr ⟨_, rfl, hsend⟩
    | now => exact .inl (by rw [hserves.2])
    | attemptAccountByToken tokenDigest => exact .inl (by rw [hserves.1])
    | bindingByIdentity user chat => exact .inl (by rw [hserves.1])
    | claim opts =>
      obtain ⟨held, hclaim⟩ := hserves
      exact .inl (hruns hclaim)
    | _ => exact .inl (hruns hserves)

theorem maySend_of_posts (hlawful : e.Lawful pool) {p : Post} (h : Posts p e) :
    mayStillSend e.before.db p.address p.delivery := by
  obtain heq | ⟨q, hq, hsend⟩ := posts_cases hlawful
  · simp [Posts, heq] at h
  · obtain rfl := List.singleton_inj.mp (List.append_cancel_left (h.symm.trans hq))
    exact hsend

theorem not_pending_of_ends (hbefore : Sound e.before.db) (hafter : Sound e.after.db)
    (hends : Ends account e) {d d' : AccountNotificationDelivery} (hd : d ∈ e.before.db.deliveries)
    (haccount : d.account = account) (hd' : d' ∈ e.after.db.deliveries) (hbecomes : d.Becomes d') :
    d'.status ≠ .pending := by
  intro hpending
  have houtstanding : d.address ∈ e.after.db.outstanding :=
    ⟨d', hd', hpending, hbecomes.address⟩
  obtain ⟨c, hc, hconnected, haddress⟩ := hafter.pending houtstanding
  have hsame : c.account = account := (congrArg Address.account haddress).trans haccount
  obtain hdeleted | ⟨revision, hbinds⟩ | ⟨b, hb, hbaccount, hunreachable⟩ := hends
  · exact hdeleted c hc hsame
  · obtain ⟨b, hbaccount, -, hrebinds⟩ := rebinds_of_binds hbinds
    obtain ⟨old, hold, -, holdaddress⟩ :=
      hbefore.pending ⟨d, hd, hbecomes.pending hpending, rfl⟩
    have holdaccount : old.account = b.account :=
      (congrArg Address.account holdaddress).trans (haccount.trans hbaccount.symm)
    exact hrebinds.cancelled old hold holdaccount (holdaddress ▸ houtstanding)
  · obtain rfl : c = b := eq_of_key_eq hc hb (hsame.trans hbaccount.symm)
    rw [hconnected] at hunreachable
    cases hunreachable

theorem not_posts_of_ends (hw : pool.Reachable w) {l₁ l₂ : List Event} {f : Event}
    (hlog : w.log = l₁ ++ e :: l₂) (hends : Ends account e) {d : AccountNotificationDelivery}
    (hd : d ∈ e.before.db.deliveries) (haccount : d.account = account) (hf : f ∈ l₂) {p : Post}
    (hposts : Posts p f) : p.delivery ≠ d.id := by
  have hsteady := steady_of_reachable hw
  have he : e ∈ w.log := by simp [hlog]
  have hfw : f ∈ w.log := by simp [hlog, hf]
  obtain ⟨hbefore, hafter⟩ := hsteady.events e he
  have hkept : Kept e.before.db e.after.db := kept_of_lawful (hw.chronicle.lawful e he) hbefore
  obtain ⟨d₁, hd₁, hbecomes₁⟩ := hkept.deliveries d hd
  obtain ⟨d₂, hd₂, hbecomes₂⟩ := (hsteady.before_after hlog hf).deliveries d₁ hd₁
  intro hid
  -- the delivery that is sent is pending, so it was pending when the binding ended
  obtain ⟨-, d₃, hd₃, hid₃, hpending, -⟩ :=
    of_mayStillSend (maySend_of_posts (hw.chronicle.lawful f hfw) hposts)
  obtain rfl : d₃ = d₂ := by
    refine eq_of_key_eq hd₃ hd₂ ?_
    rw [hid₃, hid, hbecomes₂.id, hbecomes₁.id]
  exact not_pending_of_ends hbefore hafter hends hd haccount hd₁ hbecomes₁
    (hbecomes₂.pending hpending)

theorem pairwise_binds (hw : pool.Reachable w) :
    w.log.Pairwise fun e f => ∀ account revision revision',
      Binds account revision e → Binds account revision' f → revision < revision' := by
  refine (steady_of_reachable hw).order.imp fun {e f} hkept account revision revision' he hf => ?_
  obtain ⟨b, hb, rfl, hrebinds⟩ := rebinds_of_binds he
  obtain ⟨b', hb', rfl, hrebinds'⟩ := rebinds_of_binds hf
  have hle := hkept.versions account
  have hversion : e.after.db.versions account = b.revision := by
    rw [hrebinds.versions, hb, update_self]
  have hnext := hrebinds'.revision
  rw [hb'] at hnext
  omega

/-- In every interleaving of the store's functions and any number of workers, every pending
delivery is for a connected binding of its account, and messages are sent only for such
deliveries; once the binding of an account is deleted, replaced or unreachable, nothing that
was enqueued for the account before is sent; the revisions of an account grow from binding to
binding; and no identity is bound to two accounts. -/
theorem deliveries_follow_bindings (hw : pool.Reachable w) :
    (∀ d ∈ w.shared.db.deliveries, d.status = .pending →
      ∃ b ∈ w.shared.db.bindings, b.account = d.account ∧ b.telegramChatID = d.telegramChatID ∧
        b.revision = d.bindingRevision ∧ b.status = .connected) ∧
    (∀ e ∈ w.log, ∀ p, Posts p e →
      (∃ d ∈ e.before.db.deliveries, d.id = p.delivery ∧ d.status = .pending ∧
        d.address = p.address) ∧
      ∃ b ∈ e.before.db.bindings, b.status = .connected ∧ b.address = p.address) ∧
    (∀ l₁ e l₂, w.log = l₁ ++ e :: l₂ → ∀ account, Ends account e →
      ∀ d ∈ e.before.db.deliveries, d.account = account →
      ∀ f ∈ l₂, ∀ p, Posts p f → p.delivery ≠ d.id) ∧
    (w.log.Pairwise fun e f => ∀ account revision revision',
      Binds account revision e → Binds account revision' f → revision < revision') ∧
    ∀ b ∈ w.shared.db.bindings, ∀ b' ∈ w.shared.db.bindings,
      b.telegramUserID = b'.telegramUserID ∨ b.telegramChatID = b'.telegramChatID →
      b.account = b'.account := by
  refine ⟨?_, ?_, ?_, pairwise_binds hw, ?_⟩
  · intro d hd hpending
    obtain ⟨b, hb, hconnected, haddress⟩ :=
      (steady_of_reachable hw).holds.pending ⟨d, hd, hpending, rfl⟩
    simp only [address, AccountNotificationDelivery.address,
      Address.mk.injEq] at haddress
    exact ⟨b, hb, haddress.1, haddress.2.1, haddress.2.2, hconnected⟩
  · intro e he p hposts
    obtain ⟨hbinding, hdelivery⟩ :=
      of_mayStillSend (maySend_of_posts (hw.chronicle.lawful e he) hposts)
    exact ⟨hdelivery, hbinding⟩
  · intro l₁ e l₂ hlog account hends d hd haccount f hf p hposts
    exact not_posts_of_ends hw hlog hends hd haccount hf hposts
  · rintro b hb b' hb' (huser | hchat)
    · rw [w.shared.db.users_unique b hb b' hb' huser]
    · rw [w.shared.db.chats_unique b hb b' hb' hchat]

/-! ## A binding that is deleted while a worker holds its deliveries -/

def answer (s : Shared) : (c : Call) → c.Reply × Shared
  | .now => (s.now, s)
  | .enqueue req => commit (SQLStore.enqueueAccountNotification s.db s.now req)
  | .createAttempt req => commit (SQLStore.createTelegramBindingAttempt s.db s.now req)
  | .deleteAttempt account => commit (SQLStore.deleteTelegramBindingAttempt s.db account)
  | .deleteBinding account => commit (SQLStore.deleteTelegramBinding s.db account)
  | .attemptAccountByToken tokenDigest =>
    (.ok ((getTelegramBindingAttemptByToken s.db tokenDigest).map (·.account)), s)
  | .complete account req =>
    commit (SQLStore.completeTelegramBindingAttempt s.db s.now account req)
  | .bindingByIdentity user chat =>
    (.ok ((getTelegramBindingByIdentity s.db user chat).map (·.account)), s)
  | .markStatus observed user chat status reason =>
    commit (SQLStore.markTelegramBindingStatusByIdentity s.db s.now observed user chat status
      reason)
  | .markUnreachable address deliveryID reason =>
    commit (SQLStore.markTelegramBindingUnreachable s.db s.now address deliveryID reason)
  | .claim opts =>
    commit (SQLStore.claimPendingAccountNotificationDeliveries s.db s.now opts [])
  | .send address deliveryID message =>
    if SQLStore.mayStillSend s.db address deliveryID then
      (.ok "1", (s.post ⟨address, deliveryID, message, true, true⟩).withDb
        (markAccountNotificationDeliverySent s.db s.now deliveryID "1"))
    else (.error .bindingChanged, s)
  | .markFailed d message => commit (SQLStore.markAccountNotificationDeliveryFailed s.db d message)
  | .scheduleRetry d message nextAttemptAt =>
    commit (SQLStore.scheduleAccountNotificationDeliveryRetry s.db d message nextAttemptAt)
where
  commit {α : Type} (x : Except StoreError (Database × α)) : Except StoreError α × Shared :=
    let (r, db) := outcome x s.db
    (r, s.withDb db)

theorem runs_commit {α : Type} (s : Shared) (x : Except StoreError (Database × α)) :
    s.Runs x (answer.commit s x).1 (answer.commit s x).2 :=
  ⟨_, served_outcome x .database s.db, rfl⟩

theorem serves_answer (s : Shared) (c : Call) : serves s c (answer s c).1 (answer s c).2 := by
  cases c with
  | now => exact ⟨rfl, rfl⟩
  | attemptAccountByToken | bindingByIdentity => exact ⟨rfl, .inr rfl⟩
  | claim => exact ⟨[], runs_commit s _⟩
  | send address deliveryID =>
    by_cases h : mayStillSend s.db address deliveryID
    · simp only [answer, h, if_true]
      exact .inr (.inr ⟨h, true, true, id, .inr ⟨"1", .inl rfl, rfl, rfl⟩⟩)
    · simp only [answer, h]
      exact .inr (.inl ⟨by simpa using h, rfl, rfl⟩)
  | _ => exact runs_commit s _

namespace Sample

def responder : pool.Responder where
  answer s c := some (answer s c)
  lawful {s c r s'} h := by
    obtain ⟨rfl, rfl⟩ := Prod.mk.inj (Option.some.inj h)
    exact serves_answer s c

def digest : List UInt8 := List.replicate 32 0

def message : Message := ⟨"test", .info, "", "body", ""⟩

/-- Account 1 is bound and two notifications are enqueued for it.  A worker claims both and
sends the first; then the binding is deleted, and the worker goes on. -/
def unbound : World := script (S := pool)
  [.start 0 _ (.createAttempt ⟨1, 1, digest, 10⟩), .calls responder 0 1,
    .start 1 _ (.complete ⟨digest, 7, 7, "", "name"⟩), .calls responder 1 2,
    .start 2 _ (.enqueue ⟨1, "first", digest, message, .pending⟩), .calls responder 2 1,
    .start 3 _ (.enqueue ⟨1, "second", digest, message, .pending⟩), .calls responder 3 1,
    .start 4 _ (.worker ⟨4, 5, 0, "worker"⟩ true 1), .calls responder 4 2,
    .start 5 _ (.deleteBinding 1), .calls responder 5 1,
    .calls responder 4 1]

def deletes (e : Event) : Bool :=
  e.after.db.bindings.rows.isEmpty && e.before.db.deliveries.rows.any fun d =>
    d.id = 2 && d.account = 1 && d.status = .pending

end Sample

/-- The first message is sent.  The second delivery is pending and claimed when the binding is
deleted, and is not sent after. -/
theorem unbound_not_sent :
    Sample.unbound.shared.posts.map (·.delivery) = [1] ∧
      ∃ l₁ e l₂, Sample.unbound.log = l₁ ++ e :: l₂ ∧ Ends 1 e ∧
        (∃ d ∈ e.before.db.deliveries, d.id = 2 ∧ d.account = 1 ∧ d.status = .pending) ∧
        ∀ f ∈ l₂, ∀ p, Posts p f → p.delivery ≠ 2 := by
  have hposts : Sample.unbound.shared.posts.map (·.delivery) = [1] := by decide +kernel
  have hdeletes : Sample.unbound.log.any Sample.deletes := by decide +kernel
  obtain ⟨e, hlog, he⟩ := split_at_first hdeletes
  obtain ⟨hempty, hpending⟩ := Bool.and_eq_true_iff.mp he
  obtain ⟨d, hd, hrow⟩ := List.any_eq_true.mp hpending
  simp only [check_iff] at hrow
  obtain ⟨⟨hid, haccount⟩, hstatus⟩ := hrow
  have hends : Ends 1 e := by
    refine .inl fun b hb => ?_
    rw [← mem_rows, List.isEmpty_iff.mp hempty] at hb
    exact absurd hb List.not_mem_nil
  have hw : pool.Reachable Sample.unbound := reachable_script _
  have h := deliveries_follow_bindings hw
  exact ⟨hposts, _, e, _, hlog, hends, ⟨d, hd, hid, haccount, hstatus⟩,
    fun f hf p hp => hid ▸ h.2.2.1 _ e _ hlog 1 hends d hd haccount f hf p hp⟩

end Athena.Notifications
