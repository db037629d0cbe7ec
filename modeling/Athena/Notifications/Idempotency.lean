import Athena.Notifications.Custody

/-!
# One delivery for a notification

A notification is known to its sender by an account, a source and an idempotency key.  It has
at most one delivery, which every call that enqueues it again is given, unless it says
something else.  A delivery is sent under the lock of its account and only while it is
pending, so a worker whose lock expired sends nothing that another worker has marked sent.
-/

namespace Athena.Notifications

open Athena.Lib Pool Option List SQLStore

variable {w : World} {s s' : Shared} {e : Event}

/-! ## Deliveries at all times -/

theorem delivery_of_enqueue {db db' : Database} {now : ℤ}
    {req : CreateAccountNotificationDeliveryRequest} {result : EnqueueAccountNotificationResult}
    {d : AccountNotificationDelivery}
    (h : enqueueAccountNotification db now req = .ok (db', result))
    (hd : result.delivery = some d) :
    d ∈ db'.deliveries ∧ d.idempotency = (req.account, req.message.source, req.idempotencyKey) ∧
      d.payloadDigest = req.payloadDigest := by
  have hexisting {c : AccountNotificationDelivery}
      (hfound : Queries.getAccountNotificationDeliveryByIdempotency db req.account
        req.message.source req.idempotencyKey = some c)
      (h : existing db c req.payloadDigest = .ok (db', result)) :
      d ∈ db'.deliveries ∧ d.idempotency = (req.account, req.message.source, req.idempotencyKey) ∧
        d.payloadDigest = req.payloadDigest := by
    simp only [existing, committed] at h
    obtain ⟨hdigest, rfl, rfl⟩ := h
    obtain rfl := some.inj hd
    have hkey := find?_some hfound
    exact ⟨mem_of_find?_eq_some hfound, by simpa using hkey, hdigest⟩
  unfold enqueueAccountNotification at h
  split at h
  · rename_i c hfound
    exact hexisting hfound h
  split at h
  · obtain ⟨-, rfl⟩ := pure_pair.mp h
    cases hd
  split at h
  · obtain ⟨-, rfl⟩ := pure_pair.mp h
    cases hd
  obtain ⟨created, hcreated, h⟩ := bind_eq_ok.mp h
  split at h
  · rename_i db'' c
    obtain ⟨rfl, rfl⟩ := pure_pair.mp h
    obtain rfl := some.inj hd
    unfold Queries.createAccountNotificationDelivery at hcreated
    split at hcreated
    · dsimp only at hcreated
      split at hcreated
      · obtain ⟨rfl, rfl⟩ := Prod.mk.inj (some.inj (Except.ok.inj hcreated))
        exact ⟨Table.mem_upsert.mpr (.inl rfl), rfl, rfl⟩
      · cases hcreated
    · cases hcreated
  · obtain ⟨c, hfound, h⟩ := bind_eq_ok.mp h
    exact hexisting (found_eq_ok.mp hfound) h

theorem kept_states (hw : pool.Reachable w) :
    w.states.Pairwise fun s s' => Kept s.db s'.db := by
  have hinit : Sound pool.init.db := by
    refine ⟨?_, by simp [pool]⟩
    rintro a ⟨d, hd, -⟩
    exact absurd hd (Table.not_mem_empty d)
  exact (hw.states_pairwise (I := fun s => Sound s.db) (F := fun s s' => Kept s.db s'.db) Kept.trans
    hinit keeps_of_next).2

theorem kept_now (hw : pool.Reachable w) (hs : s ∈ w.states) : Kept s.db w.shared.db := by
  rcases mem_append.mp hs with hs | hs
  · exact (pairwise_append.mp (kept_states hw)).2.2 s hs w.shared (by simp)
  · rw [mem_singleton.mp hs]
    exact .refl _

theorem same_delivery (hw : pool.Reachable w) (hs : s ∈ w.states) (hs' : s' ∈ w.states)
    {d d' : AccountNotificationDelivery} (hd : d ∈ s.db.deliveries) (hd' : d' ∈ s'.db.deliveries)
    (hkey : d.idempotency = d'.idempotency) :
    d.id = d'.id ∧ d.payloadDigest = d'.payloadDigest := by
  obtain ⟨c, hc, hbecomes⟩ := (kept_now hw hs).deliveries d hd
  obtain ⟨c', hc', hbecomes'⟩ := (kept_now hw hs').deliveries d' hd'
  have hsame : c.idempotency = c'.idempotency := by
    rw [hbecomes.idempotency, hbecomes'.idempotency, hkey]
  obtain rfl := w.shared.db.keys_unique c hc c' hc' hsame
  exact ⟨hbecomes.id.symm.trans hbecomes'.id, hbecomes.payload.symm.trans hbecomes'.payload⟩

/-! ## Messages -/

/-- After the worker was told that a message was taken, the transaction that marks its delivery
sent is committed. -/
def CommitsSent (log : List Event) : Prop :=
  ∀ e ∈ log, ∀ p, Posts p e → p.reported →
    ∃ d ∈ e.after.db.deliveries, d.id = p.delivery ∧ d.status = .sent

def Reports (log : List Event) : Prop := ∀ e ∈ log, ∀ p, Posts p e → p.accepted → p.reported

def Accepts (w : World) (key : ℕ × String × String) (e : Event) : Prop :=
  ∃ p, Posts p e ∧ p.accepted ∧
    ∃ s ∈ w.states, ∃ d ∈ s.db.deliveries, d.id = p.delivery ∧ d.idempotency = key

def Sent (id : ℕ) (s : Shared) : Prop :=
  Sound s.db ∧ ∃ d ∈ s.db.deliveries, d.id = id ∧ d.status = .sent

theorem Sent.next {id : ℕ} (h : Sent id s) (hnext : pool.Next s s') : Sent id s' := by
  obtain ⟨hsound, d, hd, hid, hsent⟩ := h
  obtain ⟨hsound', hkept⟩ := keeps_of_next hnext hsound
  obtain ⟨d', hd', hbecomes⟩ := hkept.deliveries d hd
  refine ⟨hsound', d', hd', hbecomes.id.trans hid, (hbecomes.final ?_).trans hsent⟩
  rw [hsent]
  exact nofun

theorem accepted_once (hw : pool.Reachable w) (hcommits : CommitsSent w.log)
    (hreports : Reports w.log) (id : ℕ) : w.log.Pairwise fun e e' =>
      ¬((∃ p, Posts p e ∧ p.accepted ∧ p.delivery = id) ∧
        ∃ p, Posts p e' ∧ p.accepted ∧ p.delivery = id) := by
  refine hw.pairwise_not (T := Sent id) (fun hnext hsent => hsent.next hnext) ?_
  rintro e he ⟨p, hposts, haccepted, rfl⟩
  constructor
  · rintro ⟨-, d, hd, hid, hsent⟩
    obtain ⟨-, d', hd', hid', hpending, -⟩ :=
      of_mayStillSend (maySend_of_posts (hw.chronicle.lawful e he) hposts)
    obtain rfl : d = d' := Table.eq_of_key_eq hd hd' (hid.trans hid'.symm)
    rw [hsent] at hpending
    cases hpending
  · exact ⟨((steady_of_reachable hw).events e he).2,
      hcommits e he p hposts (hreports e he p hposts haccepted)⟩

/-! ## The guarantees -/

/-- For every notification, in every interleaving: it has at most one delivery; a call that
enqueues it and returns a delivery says what that delivery says; when no crash or failed
commit comes between a message that the worker knows was taken and the commit that marks it
sent, and no message is taken that the worker is told failed, the provider takes at most one
message for it; and a delivery that was sent, failed or was cancelled stays so. -/
theorem deliveries_idempotent (hw : pool.Reachable w) (key : ℕ × String × String) :
    (∀ s ∈ w.states, ∀ s' ∈ w.states, ∀ d ∈ s.db.deliveries, ∀ d' ∈ s'.db.deliveries,
      d.idempotency = key → d'.idempotency = key → d.id = d'.id) ∧
    (∀ e ∈ w.log, ∀ i req result d, e.cause = some (i, ⟨.enqueue req, .ok result⟩) →
      result.delivery = some d → (req.account, req.message.source, req.idempotencyKey) = key →
      d.idempotency = key ∧ ∀ s ∈ w.states, ∀ d' ∈ s.db.deliveries, d'.idempotency = key →
        d'.payloadDigest = req.payloadDigest) ∧
    (CommitsSent w.log → Reports w.log →
      w.log.Pairwise fun e e' => ¬(Accepts w key e ∧ Accepts w key e')) ∧
    w.states.Pairwise fun s s' => ∀ d ∈ s.db.deliveries, d.idempotency = key →
      d.status ≠ .pending → ∃ d' ∈ s'.db.deliveries, d'.id = d.id ∧ d'.status = d.status := by
  refine ⟨?_, ?_, ?_, ?_⟩
  · intro s hs s' hs' d hd d' hd' hkey hkey'
    exact (same_delivery hw hs hs' hd hd' (hkey.trans hkey'.symm)).1
  · rintro e he i req result d hcause hresult rfl
    obtain ⟨db, hserved, hafter⟩ := (hw.chronicle.lawful e he).serves hcause
    have hok : enqueueAccountNotification e.before.db e.before.now req =
        .ok (db, result) := by
      obtain ⟨a, ha, hr | hr⟩ | ⟨-, hr | ⟨e, -, hr⟩⟩ := hserved
      · rw [ha, Except.ok.inj hr]
      all_goals cases hr
    obtain ⟨hd, hkey, hdigest⟩ := delivery_of_enqueue hok hresult
    have hmem : d ∈ e.after.db.deliveries := by rw [hafter]; exact hd
    refine ⟨hkey, fun s hs d' hd' hkey' => ?_⟩
    have hsame := same_delivery hw hs (hw.after_mem_states he) hd' hmem (hkey'.trans hkey.symm)
    exact hsame.2.trans hdigest
  · intro hcommits hreports
    refine pairwise_of_splits fun l₁ e l₂ e' l₃ hlog => ?_
    rintro ⟨⟨p, hp, haccepted, s, hs, d, hd, hid, hkey⟩,
      p', hp', haccepted', s', hs', d', hd', hid', hkey'⟩
    -- the two messages are for one delivery
    have hsame := (same_delivery hw hs hs' hd hd' (hkey.trans hkey'.symm)).1
    have honce := accepted_once hw hcommits hreports p.delivery
    rw [hlog, append_assoc, cons_append] at honce
    refine (pairwise_cons.mp (pairwise_append.mp honce).2.1).1 e' (by simp) ⟨?_, ?_⟩
    · exact ⟨p, hp, haccepted, rfl⟩
    · exact ⟨p', hp', haccepted', by rw [← hid', ← hid, hsame]⟩
  · refine (kept_states hw).imp fun {s s'} hkept d hd _ hfinal => ?_
    obtain ⟨d', hd', hbecomes⟩ := hkept.deliveries d hd
    exact ⟨d', hd', hbecomes.id, hbecomes.final hfinal⟩

/-! ## Workers that share a delivery -/

/-- Every transaction commits.  The provider takes every message; the first one is reported as
failed. -/
def answerUnreported (s : Shared) : (c : Call) → c.Reply × Shared
  | .send address deliveryID message =>
    if s.posts.isEmpty && mayStillSend s.db address deliveryID then
      (.error (.failed ⟨false, 0, "timeout"⟩), s.post ⟨address, deliveryID, message, true, false⟩)
    else answer s (.send address deliveryID message)
  | c => answer s c

theorem serves_answerUnreported (s : Shared) (c : Call) :
    serves s c (answerUnreported s c).1 (answerUnreported s c).2 := by
  cases c with
  | send address deliveryID =>
    by_cases hfirst : s.posts.isEmpty && mayStillSend s.db address deliveryID
    · simp only [answerUnreported, hfirst, if_true]
      have hsend := (Bool.and_eq_true_iff.mp hfirst).2
      exact .inr (.inr ⟨hsend, true, false, by simp, .inl ⟨⟨_, rfl⟩, rfl⟩⟩)
    · simp only [answerUnreported, hfirst, Bool.false_eq_true, if_false]
      exact serves_answer s _
  | _ => exact serves_answer s _

namespace Sample

def unreportedResponder : pool.Responder where
  answer s c := some (answerUnreported s c)
  lawful {s c r s'} h := by
    obtain ⟨rfl, rfl⟩ := Prod.mk.inj (some.inj h)
    exact serves_answerUnreported s c

/-- What the two runs begin with: account 1 is bound, and a notification is enqueued for it. -/
def enqueued (r : pool.Responder) : List pool.Act :=
  [.start 0 _ (.createAttempt ⟨1, 1, digest, 20⟩), .calls r 0 1,
    .start 1 _ (.complete ⟨digest, 8, 8, "", "name"⟩), .calls r 1 2,
    .start 2 _ (.enqueue ⟨1, "key", digest, message, .pending⟩), .calls r 2 1]

def later : pool.Act :=
  .drift (fun s => some { s with now := s.now + 61 * second }) (by
    rintro s _ ⟨rfl⟩
    exact .clock _)

/-- A worker claims the delivery and stalls.  Its lock expires, a second worker sends the
message, and then the first goes on.  The notification is enqueued again. -/
def shared : World := script (S := pool) (enqueued responder ++
  [.start 3 _ (.worker ⟨4, 5, 0, "first"⟩ true 1), .calls responder 3 1, later,
    .start 4 _ (.worker ⟨4, 5, 0, "second"⟩ true 1), .calls responder 4 2,
    .calls responder 3 1,
    .start 5 _ (.enqueue ⟨1, "key", digest, message, .pending⟩), .calls responder 5 1])

/-- A worker sends the message, is told that it failed, and sends it again later. -/
def unreported : World := script (S := pool) (enqueued unreportedResponder ++
  [.start 3 _ (.worker ⟨4, 5, 0, "worker"⟩ true 2), .calls unreportedResponder 3 4, later,
    .calls unreportedResponder 3 2])

def key : ℕ × String × String := (1, "test", "key")

def posted (e : Event) : Option Post := e.after.posts[e.before.posts.length]?

theorem posted_of_posts {e : Event} {p : Post} (h : Posts p e) : posted e = some p := by
  have h : e.after.posts = e.before.posts ++ [p] := h
  rw [posted, h, getElem?_concat_length]

theorem posts_of_posted {e : Event} {p : Post} (hlawful : e.Lawful pool)
    (h : posted e = some p) : Posts p e := by
  obtain heq | ⟨q, hq, -⟩ := posts_cases hlawful
  · simp [posted, heq] at h
  · rw [posted_of_posts hq] at h
    exact some.inj h ▸ hq

def takes (e : Event) : Bool := (posted e).any fun p => p.accepted && p.delivery = 1

def commits (e : Event) : Bool :=
  (posted e).all fun p => !p.reported ||
    e.after.db.deliveries.rows.any fun d => d.id = p.delivery && d.status = .sent

def reports (e : Event) : Bool := (posted e).all fun p => !p.accepted || p.reported

theorem commitsSent_of_all {log : List Event} (h : log.all commits) : CommitsSent log := by
  intro e he p hposts hreported
  have hcommits := List.all_eq_true.mp h e he
  simp only [commits, posted_of_posts hposts, all_some, hreported, Bool.not_true, Bool.false_or,
    List.any_eq_true, check_iff] at hcommits
  exact hcommits

theorem reports_of_all {log : List Event} (h : log.all reports) : Reports log := by
  intro e he p hposts haccepted
  have hreports := all_eq_true.mp h e he
  simpa only [reports, posted_of_posts hposts, all_some, haccepted, Bool.not_true,
    Bool.false_or] using hreports

def returns (e : Event) : Bool :=
  match e.cause with
  | some (5, ⟨.enqueue req, .ok result⟩) =>
    (req.account, req.message.source, req.idempotencyKey) = key &&
      result.delivery.any fun d => d.status = .sent
  | _ => false

def keyed (s : Shared) : Bool := s.db.deliveries.rows.any fun d => d.id = 1 && d.idempotency = key

end Sample

open Sample

/-- The provider takes one message, though two workers held the delivery, and the notification
that is enqueued again has the delivery that was sent. -/
theorem shared_sent_once :
    Sample.shared.log.any Sample.takes ∧
    (Sample.shared.log.Pairwise fun e e' =>
      ¬(Accepts Sample.shared Sample.key e ∧ Accepts Sample.shared Sample.key e')) ∧
    ∃ e ∈ Sample.shared.log, ∃ req result d, e.cause = some (5, ⟨.enqueue req, .ok result⟩) ∧
      result.delivery = some d ∧ d.status = .sent ∧ ∀ s ∈ Sample.shared.states,
        ∀ d' ∈ s.db.deliveries, d'.idempotency = Sample.key →
          d'.payloadDigest = req.payloadDigest := by
  have hw : pool.Reachable shared := reachable_script _
  obtain ⟨-, henqueue, honce, -⟩ := deliveries_idempotent hw key
  have htakes : shared.log.any takes := by decide +kernel
  have hcommits : shared.log.all commits := by decide +kernel
  have hreports : shared.log.all reports := by decide +kernel
  have hreturns : shared.log.any returns := by decide +kernel
  refine ⟨htakes, honce (commitsSent_of_all hcommits) (reports_of_all hreports), ?_⟩
  obtain ⟨e, he, hreturn⟩ := any_eq_true.mp hreturns
  unfold returns at hreturn
  split at hreturn
  · rename_i req result hcause
    simp only [check_iff] at hreturn
    obtain ⟨hkey, hsent⟩ := hreturn
    cases hd : result.delivery with
    | none => simp [hd] at hsent
    | some d =>
      refine ⟨e, he, req, result, d, hcause, hd, by simpa [hd] using hsent, ?_⟩
      exact (henqueue e he 5 req result d hcause hd hkey).2
  · cases hreturn

/-- No commit fails and no worker stops, but a message that the provider took was reported as
failed: it is sent again, and the provider takes two messages for one notification. -/
theorem unreported_sent_twice :
    pool.Reachable Sample.unreported ∧ CommitsSent Sample.unreported.log ∧
      ¬Sample.unreported.log.Pairwise fun e e' =>
        ¬(Accepts Sample.unreported Sample.key e ∧ Accepts Sample.unreported Sample.key e') := by
  have hw : pool.Reachable unreported := reachable_script _
  have hcommits : unreported.log.all commits := by decide +kernel
  have hkeyed : keyed unreported.shared := by decide +kernel
  have htwo : (unreported.log.filter takes).length = 2 := by decide +kernel
  refine ⟨hw, commitsSent_of_all hcommits, fun honce => ?_⟩
  have haccepts {e : Event} (he : e ∈ unreported.log.filter takes) :
      Accepts unreported key e := by
    obtain ⟨he, htakes⟩ := mem_filter.mp he
    obtain ⟨d, hd, hrow⟩ := any_eq_true.mp hkeyed
    cases hp : posted e with
    | none => simp [takes, hp] at htakes
    | some p =>
      simp only [takes, hp, any_some, check_iff] at htakes hrow
      exact ⟨p, posts_of_posted (hw.chronicle.lawful e he) hp, htakes.1, _,
        Pool.World.shared_mem_states _, d, hd, hrow.1.trans htakes.2.symm, hrow.2⟩
  obtain ⟨a, b, hab⟩ := length_eq_two.mp htwo
  have hpair := honce.sublist (filter_sublist (p := takes))
  rw [hab] at hpair haccepts
  have ha : a ∈ [a, b] := by simp
  have hb : b ∈ [a, b] := by simp
  exact (pairwise_cons.mp hpair).1 b (by simp) ⟨haccepts ha, haccepts hb⟩

end Athena.Notifications
