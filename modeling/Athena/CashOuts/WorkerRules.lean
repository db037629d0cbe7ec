import Athena.CashOuts.BatchWorker

/-!
# What a Cash Out turn knows when it acts

The rules that the turns of both workers and the creations of the service keep, whatever
they are answered, in terms of the history of the turn alone.  The only answers that are
excluded are ones the store never gives: a transaction answers with the row it is about,
and a resolved attempt is resolved.
-/

namespace Athena.CashOuts

open Athena.Lib Queries Store List Worker

abbrev WorkerEntry : Type := Program.Entry WorkerCall.Reply

abbrev WorkerHistory : Type := List WorkerEntry

def Operation.isDispatch : Operation → Bool
  | .dispatch .. | .dispatchBatch .. => true
  | _ => false

/-! ## Knowledge -/

inductive Shows (c : CashOut) : WorkerEntry → Prop
  | claimed (id : UUID) (k : Claim) (now : Time) : Shows c ⟨.store (.claim id k) now, .ok c⟩
  | closing (id : UUID) (k : ℕ) (state : String) (now : Time) :
      Shows c ⟨.store (.beginClosing id k state) now, .ok c⟩

def Seen (h : WorkerHistory) (r : CashOutRow) : Prop :=
  ∃ x ∈ h, ∃ c, Shows c x ∧ r.id = c.id ∧ r.toPosition = c.toPosition ∧ r.source = c.source

def Claims (x : WorkerEntry) : Prop := ∃ id k now, x.1 = .store (.claim id k) now

/-- The call may have dispatched an attempt: it succeeded, or its outcome is unknown. -/
def MayDispatch (x : WorkerEntry) : Prop :=
  ∃ op now r, x = ⟨.store op now, r⟩ ∧ op.isDispatch ∧ ∀ e, r = .error e → e = .unavailable

/-- An answer from which the attempt of a Cash Out was not dispatched. -/
inductive ShowsUndispatched (id : UUID) : WorkerEntry → Prop
  | read (a : Option Attempt) (h : wasDispatched a = false) :
      ShowsUndispatched id ⟨.attempt id, .ok a⟩
  | closing (k : ℕ) (state : String) (now : Time) (c : CashOut) :
      ShowsUndispatched id ⟨.store (.beginClosing id k state) now, .ok c⟩

/-- The turn claimed the Cash Out, was then shown that its attempt was not dispatched, and
did not dispatch it. -/
def Undispatched (h : WorkerHistory) (id : UUID) : Prop :=
  (∃ h₁ x h₂, h = h₁ ++ x :: h₂ ∧ (∃ y ∈ h₁, Claims y) ∧ ShowsUndispatched id x) ∧
    ∀ y ∈ h, ¬MayDispatch y

def Dispatched (i : ℕ) (h : WorkerHistory) (id : UUID) : Prop :=
  (∃ a, (⟨.attempt id, .ok a⟩ : WorkerEntry) ∈ h ∧ wasDispatched a) ∨
    ∃ op now r attempt, (⟨.store op now, .ok r⟩ : WorkerEntry) ∈ h ∧ op.dispatches id attempt i

def Rejected (h : WorkerHistory) (id : UUID) : Prop :=
  (∃ a, (⟨.attempt id, .ok (some a)⟩ : WorkerEntry) ∈ h ∧ a.isRejected) ∨
    ∃ attempt r now a, (⟨.store (.resolve id attempt r) now, .ok a⟩ : WorkerEntry) ∈ h ∧
      a.isRejected

/-- The turn read the position of the Cash Out, through a client of its Wallet, and what it
knew before satisfies `P`. -/
def Looked (h : WorkerHistory) (id : UUID) (P : WorkerHistory → Prop) (target : Target) : Prop :=
  ∃ h₁ h₂ client p r r',
    h = h₁ ++ ⟨.position client target.positionPubkey, .ok p⟩ :: h₂ ∧ P h₁ ∧
      (Seen h₁ r ∧ r.id = id ∧ client.walletId = r.walletId) ∧ (Seen h₁ r' ∧ r'.id = id ∧
        target.positionPubkey = r'.positionPubkey ∧
        target.marketConditionId = r'.marketConditionId) ∧
      inspectMarginPositionCashOutTarget p = .ok target

def Standalone (h : WorkerHistory) (id : UUID) : Prop :=
  ∃ r, Seen h r ∧ r.id = id ∧ r.source = none

/-! ## What stands behind a record -/

structure Observes (i : ℕ) (h : WorkerHistory) (id : UUID) (o : Observation) : Prop where
  completed : o.nextState = .completed → ∃ target : Target,
    Looked h id (fun h₁ => Standalone h₁ id ∨ Dispatched i h₁ id) target ∧ target.isClosed ∧
      target.isLiquidated = false
  failed : o.nextState = .failed → o.expectedState = .preflighting ∨ Undispatched h id ∨
    (∃ target, Looked h id (fun _ => True) target ∧ target.isLiquidated) ∨
      ∃ target, Looked h id (fun h₁ => Rejected h₁ id) target ∧ target.isClosed = false ∧
        target.isLiquidated = false

/-- The last transaction of the turn dispatched the attempt, and nothing was sent since. -/
def Armed (i : ℕ) (h : WorkerHistory) (id : UUID) : Prop :=
  ∃ h₁ op now r attempt, h = h₁ ++ [⟨.store op now, .ok r⟩] ∧ op.dispatches id attempt i

def Echoed (h : WorkerHistory) (id : UUID) : Prop :=
  ∃ client request result r, (⟨.close id client request, (some result, none)⟩ : WorkerEntry) ∈ h ∧
    result.isClosed ∧ Seen h r ∧ r.id = id ∧ result.positionPubkey = r.positionPubkey

def Introduced (h : WorkerHistory) (req : CreateRequest) : Prop :=
  ∃ client p target, (⟨.position client req.position.positionPubkey, .ok p⟩ : WorkerEntry) ∈ h ∧
    client.walletId = req.position.walletId ∧
    inspectMarginPositionCashOutTarget p = .ok target ∧
    target.positionPubkey = req.position.positionPubkey ∧
    target.marketConditionId = req.position.marketConditionId ∧
    target.isClosed = req.providerIsClosed ∧ target.isLiquidated = req.providerIsLiquidated

/-- The turn read the item and its child, and the child was completed by its attempt. -/
def Credited (h : WorkerHistory) (ref : ItemRef) : Prop :=
  ∃ i owner x c a, (⟨.item ref, .ok i⟩ : WorkerEntry) ∈ h ∧ i.child = some x ∧
    (⟨.cashOut owner x, .ok c⟩ : WorkerEntry) ∈ h ∧ c.state = .completed ∧
    (⟨.attempt x, .ok a⟩ : WorkerEntry) ∈ h ∧ wasDispatched a

def Ended (h : WorkerHistory) (ref : ItemRef) : Prop :=
  ∃ i owner x c, (⟨.item ref, .ok i⟩ : WorkerEntry) ∈ h ∧ i.child = some x ∧
    (⟨.cashOut owner x, .ok c⟩ : WorkerEntry) ∈ h ∧ c.state.terminal

/-! ## Rules -/

inductive UnfairEntry : WorkerEntry → Prop
  | resolved (id attempt : UUID) (r : Resolution) (now : Time) (a : Attempt)
      (h : a.wasDispatched = false) : UnfairEntry ⟨.store (.resolve id attempt r) now, .ok a⟩
  | closing (id : UUID) (k : ℕ) (state : String) (now : Time) (c : CashOut) (h : c.id ≠ id) :
      UnfairEntry ⟨.store (.beginClosing id k state) now, .ok c⟩
  | cashOut (owner id : UUID) (c : CashOut) (h : c.id ≠ id) :
      UnfairEntry ⟨.cashOut owner id, .ok c⟩
  | item (ref : ItemRef) (i : Item) (h : i.ordinal ≠ ref.ordinal) : UnfairEntry ⟨.item ref, .ok i⟩

def Fair (h : WorkerHistory) : Prop := ∀ x ∈ h, ¬UnfairEntry x

def Permitted (i : ℕ) (h : WorkerHistory) : Operation → Prop
  | .create req _ => Introduced h req
  | .claim _ k => k.id = i ∧ ∀ x ∈ h, ¬Claims x
  | .dispatch id _ k => k = i ∧ Standalone h id
  | .dispatchBatch req => req.claim = i ∧ (⟨.now, req.nextPollAt⟩ : WorkerEntry) ∈ h
  | .completeDispatch id _ k _ => k = i ∧ Echoed h id
  | .observe id k o => k = i ∧ Observes i h id o
  | .recordItem req => req.nextState = .awaitingBalance → Credited h req.item
  | .recordBlocking req =>
    (req.batchState = .failed → req.itemState = .failed) ∧
      (req.itemState = .failed → Ended h req.item)
  | _ => True

def Licence (i : ℕ) (h : WorkerHistory) : WorkerCall → Prop
  | .store op _ => Permitted i h op
  | .close id _ _ => Armed i h id
  | _ => True

def Rule (i : ℕ) (h : WorkerHistory) (c : WorkerCall) : Prop := Fair h → Licence i h c

/-! ## Knowledge lasts -/

section mono
variable {i : ℕ} {h h' d : WorkerHistory} {id : UUID} {r : CashOutRow}

theorem Fair.of_prefix (hf : Fair h') (hh : h <+: h') : Fair h :=
  fun x hx => hf x (hh.subset hx)

theorem Seen.mono (hs : Seen h r) (hh : h <+: h') : Seen h' r := by
  obtain ⟨x, hx, hs⟩ := hs
  exact ⟨x, hh.subset hx, hs⟩

theorem Dispatched.mono (hd : Dispatched i h id) (hh : h <+: h') : Dispatched i h' id := by
  rcases hd with ⟨a, ha, hd⟩ | ⟨op, now, r, attempt, hx, hd⟩
  · exact .inl ⟨a, hh.subset ha, hd⟩
  · exact .inr ⟨op, now, r, attempt, hh.subset hx, hd⟩

theorem Rejected.mono (hr : Rejected h id) (hh : h <+: h') : Rejected h' id := by
  rcases hr with ⟨a, ha, hr⟩ | ⟨attempt, r, now, a, hx, hr⟩
  · exact .inl ⟨a, hh.subset ha, hr⟩
  · exact .inr ⟨attempt, r, now, a, hh.subset hx, hr⟩

theorem Looked.mono {P : WorkerHistory → Prop} {target : Target} (hl : Looked h id P target)
    (hh : h <+: h') : Looked h' id P target := by
  obtain ⟨h₁, h₂, client, p, r, r', rfl, hl⟩ := hl
  obtain ⟨h₃, rfl⟩ := hh
  exact ⟨h₁, h₂ ++ h₃, client, p, r, r', by simp, hl⟩

theorem Undispatched.append (hu : Undispatched h id) (hd : ∀ x ∈ d, ¬MayDispatch x) :
    Undispatched (h ++ d) id := by
  obtain ⟨⟨h₁, x, h₂, rfl, hx⟩, hnone⟩ := hu
  exact ⟨⟨h₁, x, h₂ ++ d, by simp, hx⟩, forall_mem_append.mpr ⟨hnone, hd⟩⟩

end mono

def WorkerCall.isStore : WorkerCall → Bool
  | .store .. => true
  | _ => false

def Reads (x : WorkerEntry) : Prop := x.1.isStore = false

theorem Reads.not_mayDispatch {x : WorkerEntry} (hx : Reads x) : ¬MayDispatch x := by
  rintro ⟨op, now, r, rfl, -⟩
  cases hx

theorem Reads.not_claims {x : WorkerEntry} (hx : Reads x) : ¬Claims x := by
  rintro ⟨id, k, now, h⟩
  rw [Reads, h] at hx
  cases hx

def Quiet (h h' : WorkerHistory) : Prop := ∃ d, h' = h ++ d ∧ ∀ x ∈ d, Reads x

section quiet
variable {h h' h'' : WorkerHistory}

theorem Quiet.refl (h : WorkerHistory) : Quiet h h := ⟨[], by simp, by simp⟩

variable (hq : Quiet h h')
include hq

theorem Quiet.extends : h <+: h' := by
  obtain ⟨d, rfl, -⟩ := hq
  exact prefix_append h d

theorem Quiet.trans (hq' : Quiet h' h'') : Quiet h h'' := by
  obtain ⟨d, rfl, hd⟩ := hq
  obtain ⟨d', rfl, hd'⟩ := hq'
  exact ⟨d ++ d', by simp, forall_mem_append.mpr ⟨hd, hd'⟩⟩

theorem Quiet.snoc {x : WorkerEntry} (hx : Reads x) : Quiet h (h' ++ [x]) :=
  hq.trans ⟨[x], rfl, by simpa using hx⟩

theorem Quiet.claims (hh : ∀ x ∈ h, ¬Claims x) : ∀ x ∈ h', ¬Claims x := by
  obtain ⟨d, rfl, hd⟩ := hq
  exact forall_mem_append.mpr ⟨hh, fun x hx => (hd x hx).not_claims⟩

theorem Quiet.mayDispatch (hh : ∀ x ∈ h, ¬MayDispatch x) : ∀ x ∈ h', ¬MayDispatch x := by
  obtain ⟨d, rfl, hd⟩ := hq
  exact forall_mem_append.mpr ⟨hh, fun x hx => (hd x hx).not_mayDispatch⟩

end quiet

variable {h h' : WorkerHistory} {i : ℕ} {r : CashOutRow} {id : UUID} {c : WorkerCall}

theorem Undispatched.quiet (hu : Undispatched h id) (hq : Quiet h h') : Undispatched h' id := by
  obtain ⟨d, rfl, hd⟩ := hq
  exact hu.append fun x hx => (hd x hx).not_mayDispatch

/-! ## What a turn holds of its row -/

structure Standing (i : ℕ) (r : CashOutRow) (h : WorkerHistory) : Prop where
  seen : Seen h r
  dispatched : wasDispatched r.attempt → Dispatched i h r.id
  undispatched : wasDispatched r.attempt = false → r.state = .preflighting ∨ Undispatched h r.id
  rejected : isRejected r.attempt → Rejected h r.id

def Serves (client : Client) (r : CashOutRow) (h : WorkerHistory) : Prop :=
  ∃ r', Seen h r' ∧ r'.id = r.id ∧ client.walletId = r'.walletId

theorem Standing.quiet (hs : Standing i r h) (hq : Quiet h h') : Standing i r h' where
  seen := hs.seen.mono hq.extends
  dispatched hd := (hs.dispatched hd).mono hq.extends
  undispatched hd := (hs.undispatched hd).imp_right fun hu => hu.quiet hq
  rejected hr := (hs.rejected hr).mono hq.extends

theorem Serves.mono {client : Client} (hs : Serves client r h) (hh : h <+: h') :
    Serves client r h' := by
  obtain ⟨r', hr', hs⟩ := hs
  exact ⟨r', hr'.mono hh, hs⟩

abbrev Keeps {α : Type} (i : ℕ) (p : Worker α) (h : WorkerHistory) : Prop :=
  p.Guards (Rule i) (fun _ _ => True) h

abbrev Peeks {α : Type} (i : ℕ) (p : Worker α) (h : WorkerHistory) : Prop :=
  p.Guards (Rule i) (fun h' _ => Quiet h h') h

section parts
variable {α β : Type} {i : ℕ} {h h' : WorkerHistory}

theorem guards_worker_ask {Q : WorkerHistory → Except WorkerError c.Reply → Prop} (hP : Rule i h c)
    (hQ : ∀ r, Q (h ++ [⟨c, r⟩]) (.ok r)) :
    (ask c).Guards (Rule i) Q h := ⟨hP, hQ⟩

theorem guards_ask_bind {f : c.Reply → Worker β} {Q : WorkerHistory → Except WorkerError β → Prop}
    (hP : Rule i h c) (hf : ∀ r, (f r).Guards (Rule i) Q (h ++ [⟨c, r⟩])) :
    (ask c >>= f).Guards (Rule i) Q h :=
  Program.guards_bind.mpr (guards_worker_ask hP hf)

def WorkerCall.isFree : WorkerCall → Bool
  | .store .. | .close .. => false
  | _ => true

theorem guards_free_bind {f : c.Reply → Worker β} {Q : WorkerHistory → Except WorkerError β → Prop}
    (hc : c.isFree) (hf : ∀ r, (f r).Guards (Rule i) Q (h ++ [⟨c, r⟩])) :
    (ask c >>= f).Guards (Rule i) Q h := by
  refine guards_ask_bind (fun _ => ?_) hf
  cases c <;> trivial

variable {op : Operation}

theorem guards_storeAt {now : Time} {Q : WorkerHistory → Except WorkerError op.Reply → Prop}
    (hP : Rule i h (.store op now)) (hok : ∀ a, Q (h ++ [⟨.store op now, .ok a⟩]) (.ok a))
    (herr : ∀ e, Q (h ++ [⟨.store op now, .error e⟩]) (.error (.store e))) :
    (storeAt op now).Guards (Rule i) Q h := by
  refine guards_ask_bind hP fun r => ?_
  cases r with
  | ok a => exact hok a
  | error e => exact herr e

theorem guards_store {Q : WorkerHistory → Except WorkerError op.Reply → Prop}
    (hP : ∀ t, Rule i (h ++ [⟨.now, t⟩]) (.store op t))
    (hok : ∀ t a, Q (h ++ [⟨.now, t⟩] ++ [⟨.store op t, .ok a⟩]) (.ok a))
    (herr : ∀ t e, Q (h ++ [⟨.now, t⟩] ++ [⟨.store op t, .error e⟩]) (.error (.store e))) :
    (store op).Guards (Rule i) Q h :=
  guards_free_bind rfl fun t => guards_storeAt (hP t) (hok t) (herr t)

theorem keeps_bind {p : Worker α} {f : α → Worker β}
    {Q : WorkerHistory → Except WorkerError α → Prop}
    (hp : p.Guards (Rule i) Q h) (hok : ∀ h' a, Q h' (.ok a) → Keeps i (f a) h') :
    Keeps i (p >>= f) h :=
  hp.bind (fun h' a _ => hok h' a) fun _ _ _ _ => trivial

theorem keeps_attempt_bind {p : Worker α} {f : Except WorkerError α → Worker β}
    {Q : WorkerHistory → Except WorkerError α → Prop} (hp : p.Guards (Rule i) Q h)
    (hf : ∀ h' res, Q h' res → Keeps i (f res) h') : Keeps i (p.attempt >>= f) h :=
  Program.guards_bind.mpr (Program.guards_attempt.mpr (hp.conseq fun h' res _ => hf h' res))

theorem keeps_storeAt_bind {now : Time} {f : op.Reply → Worker β} (hP : Rule i h (.store op now))
    (hf : ∀ h' a, Keeps i (f a) h') : Keeps i (storeAt op now >>= f) h :=
  keeps_bind (Q := fun _ _ => True) (guards_storeAt hP (fun _ => trivial) fun _ => trivial)
    fun h' a _ => hf h' a

theorem Quiet.ask (h : WorkerHistory) (c : WorkerCall) (r : c.Reply)
    (hc : c.isStore = false) : Quiet h (h ++ [⟨c, r⟩]) :=
  (Quiet.refl h).snoc hc

theorem peeks_free_bind {f : c.Reply → Worker β} (hc : c.isFree) (hf : ∀ h' r, Peeks i (f r) h') :
    Peeks i (ask c >>= f) h :=
  guards_free_bind hc fun r => (hf _ r).conseq fun _ _ _ hq =>
    (Quiet.ask h c r (by cases c <;> first | rfl | cases hc)).trans hq

theorem keeps_commit (hP : ∀ h' t, Quiet h h' → Rule i h' (.store op t)) :
    Keeps i (commit op) h :=
  keeps_bind (Q := fun _ _ => True)
    (guards_store (fun t => hP _ t (.ask h .now t rfl)) (fun _ _ => trivial) fun _ _ => trivial)
    fun _ _ _ => trivial

end parts

/-! ## The parts of a Cash Out turn -/

theorem Observes.of_open {o : Observation} (hc : o.nextState ≠ .completed)
    (hf : o.nextState ≠ .failed) : Observes i h id o :=
  ⟨fun h => absurd h hc, fun h => absurd h hf⟩

section records
variable {i : ℕ} {h h₀ : WorkerHistory} {r : CashOutRow} {client : Client} {observed : Target}
  {reason state : String}

theorem keeps_recordState {next : State} {poll : Option Time}
    (ho : ∀ h' o, Quiet h h' → Fair h' → o.nextState = next → o.expectedState = r.state →
      Observes i h' r.id o) :
    Keeps i (recordPositionCashOutState i r next reason state observed poll) h :=
  keeps_commit fun h' _ hq hf => ⟨rfl, ho h' _ hq hf rfl rfl⟩

theorem keeps_failure
    (hu : Fair h → r.state = .preflighting ∨ Undispatched h r.id) :
    Keeps i (recordPositionCashOutFailure i r reason state) h := by
  refine keeps_recordState fun h' o hq hf hnext hexpected => ⟨fun hc => ?_, fun _ => ?_⟩
  · cases hnext.symm.trans hc
  · rcases hu (hf.of_prefix hq.extends) with hu | hu
    · exact .inl (hexpected.trans hu)
    · exact .inr (.inl (hu.quiet hq))

theorem keeps_reconciliation :
    Keeps i (recordPositionCashOutReconciliation i r reason state observed) h := by
  refine guards_free_bind rfl fun t => keeps_recordState fun h' o _ _ hnext _ => ?_
  exact .of_open (by rw [hnext]; nofun) (by rw [hnext]; nofun)

theorem peeks_markReconnect {address : String} {e : WormError} :
    Peeks i (markReconnect client address e) h := by
  unfold markReconnect
  split
  · exact guards_worker_ask (fun _ => trivial) fun u =>
      .ask h (.reconnect client.walletId address client.credential) u rfl
  · exact .refl h

theorem guards_observePositionCashOut :
    (observePositionCashOut client r).Guards (Rule i)
      (fun h' res => Quiet h h' ∧ ∀ target, res = .ok (.ok target) → Seen h r → Serves client r h →
        ∀ P : WorkerHistory → Prop, P h → Looked h' r.id P target) h := by
  unfold observePositionCashOut observeMarginPositionCashOut
  split
  · refine guards_free_bind rfl fun reply => ?_
    have hquiet := Quiet.ask h (.position client r.frozenTarget.positionPubkey) reply rfl
    cases reply with
    | error => exact ⟨hquiet, nofun⟩
    | ok p =>
      refine ⟨hquiet, fun target htarget hseen ⟨r', hr', hid, hclient⟩ P hP => ?_⟩
      obtain ⟨hp, hpubkey, hmarket⟩ := observedTarget_eq_ok (Except.ok.inj htarget)
      refine ⟨h, [], client, p, r', r, ?_, hP, ⟨hr', hid, hclient⟩,
        ⟨hseen, rfl, hpubkey, hmarket⟩, hp⟩
      rw [hpubkey]
  · exact ⟨.refl h, nofun⟩

theorem keeps_reconcileObserved (hq : Quiet h₀ h) (hs : Fair h₀ → Standing i r h₀)
    (hl : Fair h₀ → ∀ P : WorkerHistory → Prop, P h₀ → Looked h r.id P observed) :
    Keeps i (reconcileObserved i r observed) h := by
  have hundispatched (hd : positionCashOutBatchMutationNotDispatched r) (hf : Fair h) :
      r.state = .preflighting ∨ Undispatched h r.id := by
    simp only [positionCashOutBatchMutationNotDispatched, Bool.and_eq_true,
      Bool.not_eq_true'] at hd
    exact ((hs (hf.of_prefix hq.extends)).quiet hq).undispatched hd.2
  unfold reconcileObserved
  dsimp only
  split_ifs with hliquidated hnot hclosed hnot hrejected
  · exact keeps_failure (hundispatched hnot)
  · refine keeps_recordState fun h' o hq' hf hnext _ => ⟨fun hc => ?_, fun _ => ?_⟩
    · cases hnext.symm.trans hc
    · have hf₀ := hf.of_prefix (hq.trans hq').extends
      exact .inr (.inr (.inl ⟨observed, (hl hf₀ _ trivial).mono hq'.extends, hliquidated⟩))
  · exact keeps_failure (hundispatched hnot)
  · refine keeps_recordState fun h' o hq' hf hnext _ => ⟨fun _ => ?_, fun hc => ?_⟩
    · have hf₀ := hf.of_prefix (hq.trans hq').extends
      refine ⟨observed, (hl hf₀ _ ?_).mono hq'.extends, hclosed, by simpa using hliquidated⟩
      cases hd : wasDispatched r.attempt with
      | true => exact .inr ((hs hf₀).dispatched hd)
      | false =>
        refine .inl ⟨r, (hs hf₀).seen, rfl, ?_⟩
        simpa [positionCashOutBatchMutationNotDispatched, hd] using hnot
    · cases hnext.symm.trans hc
  · refine keeps_recordState fun h' o hq' hf hnext _ => ⟨fun hc => ?_, fun _ => ?_⟩
    · cases hnext.symm.trans hc
    · have hf₀ := hf.of_prefix (hq.trans hq').extends
      exact .inr (.inr (.inr ⟨observed, (hl hf₀ _ ((hs hf₀).rejected hrejected)).mono hq'.extends,
        by simpa using hclosed, by simpa using hliquidated⟩))
  · exact keeps_reconciliation
  · refine guards_free_bind rfl fun t => keeps_recordState fun h' o _ _ hnext _ => ?_
    exact .of_open (by rw [hnext]; nofun) (by rw [hnext]; nofun)

theorem keeps_reconcileClaimed (hs : Fair h → Standing i r h) (hc : Fair h → Serves client r h) :
    Keeps i (reconcileClaimedPositionCashOut i client r) h := by
  refine keeps_bind guards_observePositionCashOut ?_
  rintro h' res ⟨hq, hl⟩
  cases res with
  | ok target =>
    exact keeps_reconcileObserved hq hs fun hf P hP => hl target rfl (hs hf).seen (hc hf) P hP
  | error => exact keeps_bind peeks_markReconnect fun _ _ _ => keeps_reconciliation

end records

section dispatch
variable {i : ℕ} {h : WorkerHistory} {r : CashOutRow} {client : Client} {attempt : UUID}

theorem Armed.dispatched (ha : Armed i h id) : Dispatched i h id := by
  obtain ⟨h₁, op, now, a, attempt, rfl, hop⟩ := ha
  exact .inr ⟨op, now, a, attempt, by simp, hop⟩

theorem Dispatched.standing {a : Attempt} (hd : Dispatched i h r.id) (hseen : Seen h r)
    (ha : a.wasDispatched) (hr : a.isRejected → Rejected h r.id) :
    Standing i (r.withAttempt (some a)) h where
  seen := hseen
  dispatched _ := hd
  undispatched h := by simp [CashOutRow.withAttempt, wasDispatched, ha] at h
  rejected := hr

theorem keeps_resolveDispatch {o : Option DispatchObservation} {e : Option WormError}
    (hd : Dispatched i h r.id) (hseen : Fair h → Seen h r) (hc : Fair h → Serves client r h)
    (hecho : Fair h → e = none → (o.any fun o => o.positionPubkey = r.positionPubkey ∧ o.isClosed) →
      Echoed h r.id) :
    Keeps i (resolveDispatch i client r attempt o e) h := by
  have hmark : Peeks i (markReconnectAfter client r.walletAddress e) h := by
    cases e with
    | none => exact .refl h
    | some => exact peeks_markReconnect
  refine keeps_bind hmark fun h₁ _ hq => ?_
  split_ifs with hclosed
  · refine keeps_commit fun h' _ hq' hf => ⟨rfl, ?_⟩
    obtain ⟨client, request, result, r', hx, hresult, hr', hecho⟩ :=
      hecho (hf.of_prefix (hq.trans hq').extends) hclosed.1 hclosed.2
    exact ⟨client, request, result, r', (hq.trans hq').extends.subset hx, hresult,
      hr'.mono (hq.trans hq').extends, hecho⟩
  · refine keeps_bind (Q := fun h' res => ∀ a, res = .ok a → h <+: h' ∧
        ∃ res t, (⟨.store (.resolve r.id attempt res) t, .ok a⟩ : WorkerEntry) ∈ h')
      (guards_store (fun _ _ => trivial) (fun t a => ?_) fun _ _ => nofun) ?_
    · rintro _ ⟨rfl⟩
      exact ⟨hq.extends.trans (by simp), _, t, mem_append_right _ (mem_singleton_self _)⟩
    · intro h' a ha
      obtain ⟨hh, res, t, hx⟩ := ha a rfl
      refine keeps_reconcileClaimed (fun hf => ?_) fun hf => (hc (hf.of_prefix hh)).mono hh
      refine (hd.mono hh).standing ((hseen (hf.of_prefix hh)).mono hh) ?_ fun hr =>
        .inr ⟨attempt, res, t, a, hx, hr⟩
      by_contra hnot
      exact hf _ hx (.resolved r.id attempt res t a (by simpa using hnot))

theorem guards_preparedAttempt {command : CloseRequest} :
    (preparedAttempt i r command).Guards (Rule i)
      (fun h' _ => h <+: h' ∧ ∀ id, Undispatched h id → Undispatched h' id) h := by
  have hprepare {h' : WorkerHistory} {op : Operation} {t : Time} (hq : Quiet h h')
      (hop : op.isDispatch = false) (reply : Except StoreError op.Reply) :
      h <+: h' ++ [⟨.store op t, reply⟩] ∧ ∀ id, Undispatched h id →
        Undispatched (h' ++ [⟨.store op t, reply⟩]) id := by
    refine ⟨hq.extends.trans (prefix_append _ _), fun id hu => (hu.quiet hq).append ?_⟩
    rintro x hx ⟨op', now, r, rfl, hop', -⟩
    cases mem_singleton.mp hx
    rw [hop] at hop'
    cases hop'
  unfold preparedAttempt
  cases r.attempt with
  | some => exact ⟨prefix_refl h, fun _ hu => hu⟩
  | none =>
    refine guards_free_bind rfl fun id => ?_
    have hq (t : Time) : Quiet h (h ++ [⟨.uuid, id⟩] ++ [⟨.now, t⟩]) :=
      (Quiet.ask h .uuid id rfl).snoc rfl
    exact guards_store (fun _ _ => trivial) (fun t a => hprepare (hq t) rfl _) fun t e =>
      hprepare (hq t) rfl _

structure DispatchEnds (i : ℕ) (id : UUID) (h h' : WorkerHistory)
    (res : Except WorkerError Attempt) :
    Prop where
  extends_ : h <+: h'
  armed : ∀ a, res = .ok a → Armed i h' id
  refused : res = .error (.store .batchClaim) → ∀ id, Undispatched h id → Undispatched h' id

theorem dispatchEnds_store {h' : WorkerHistory} {op : Operation} {t : Time} (hq : Quiet h h')
    (hop : op.dispatches id attempt i) :
    (∀ a : op.Reply, ∀ a', DispatchEnds i id h (h' ++ [⟨.store op t, .ok a⟩]) (.ok a')) ∧
      ∀ e, DispatchEnds i id h (h' ++ [⟨.store op t, .error e⟩]) (.error (.store e)) := by
  refine ⟨fun a a' => ?_, fun e => ?_⟩
  · refine ⟨hq.extends.trans (prefix_append _ _), fun _ _ => ?_, nofun⟩
    exact ⟨h', op, t, a, attempt, rfl, hop⟩
  · refine ⟨hq.extends.trans (prefix_append _ _), nofun, fun he id hu => ?_⟩
    refine (hu.quiet hq).append fun x hx hmay => ?_
    rw [mem_singleton.mp hx] at hmay
    obtain ⟨op', now, reply, hx, -, hreply⟩ := hmay
    cases hx
    cases hreply e rfl
    cases he

theorem peeks_readBalance {walletId : ℕ} {address : String} :
    Peeks i (readPositionCashOutBatchBalance walletId address) h := by
  refine peeks_free_bind rfl fun h' reply => ?_
  split
  · exact .refl h'
  · split_ifs <;> exact .refl h'
  · exact .refl h'

theorem guards_dispatchAttempt (hseen : Fair h → Seen h r) :
    (dispatchAttempt i r attempt).Guards (Rule i) (DispatchEnds i r.id h) h := by
  unfold dispatchAttempt
  split
  · rename_i hsource
    have hends (t : Time) := dispatchEnds_store (t := t) (.ask h .now t rfl)
      (.inl rfl : (Operation.dispatch r.id attempt i).dispatches r.id attempt i)
    refine guards_store (fun t hf => ⟨rfl, r, ?_, rfl, hsource⟩) (fun t a => (hends t).1 a a)
      fun t e => (hends t).2 e
    have hh := (Quiet.ask h .now t rfl).extends
    exact (hseen (hf.of_prefix hh)).mono hh
  · rename_i item hsource
    refine peeks_readBalance.bind (fun h₁ baseline _ hq => ?_) fun h₁ e _ hq => ?_
    · refine guards_free_bind rfl fun t => ?_
      have hends := dispatchEnds_store (t := t) (hq.snoc (x := ⟨.now, t⟩) rfl)
        (.inr ⟨{ item, cashOut := r.id, attempt, claim := i, baseline, nextPollAt := t }, rfl, rfl,
          rfl, rfl⟩ : Operation.dispatches _ r.id attempt i)
      exact guards_storeAt (fun _ => ⟨rfl, by simp⟩) (fun a => hends.1 a a) fun e => hends.2 e
    · exact ⟨hq.extends, nofun, fun _ _ hu => hu.quiet hq⟩

theorem keeps_dispatchPrepared {command : CloseRequest} (hseen : Fair h → Seen h r)
    (hu : Fair h → Undispatched h r.id) (hc : Fair h → Serves client r h) :
    Keeps i (dispatchPreparedPositionCashOut i client r command) h := by
  refine keeps_bind guards_preparedAttempt fun h₁ prepared ⟨hh₁, hu₁⟩ => ?_
  have hseen₁ (hf : Fair h₁) : Seen h₁ (r.withAttempt (some prepared)) :=
    (hseen (hf.of_prefix hh₁)).mono hh₁
  refine keeps_attempt_bind (guards_dispatchAttempt hseen₁) fun h₂ res hends => ?_
  have hh₂ : h <+: h₂ := hh₁.trans hends.extends_
  dsimp only
  split
  · rename_i dispatched
    have harmed := hends.armed dispatched rfl
    refine guards_ask_bind (fun _ => harmed) fun answer => ?_
    have hh₃ : h₂ <+: h₂ ++ [⟨.close r.id client command, answer⟩] := prefix_append _ _
    have hh := hh₂.trans hh₃
    rcases hresult : dispatchResult command answer with ⟨o, e⟩
    refine keeps_resolveDispatch (r := r.withAttempt (some dispatched))
      (harmed.dispatched.mono hh₃) (fun hf => (hseen (hf.of_prefix hh)).mono hh)
      (fun hf => (hc (hf.of_prefix hh)).mono hh) ?_
    rintro hf rfl ho
    obtain ⟨result, rfl, rfl⟩ := dispatchResult_eq_none hresult
    simp only [Option.any_some, decide_eq_true_eq] at ho
    exact ⟨client, command, result, r, by simp, ho.2, (hseen (hf.of_prefix hh)).mono hh, rfl, ho.1⟩
  · split_ifs
    · trivial
    · exact keeps_failure fun hf => .inr (hends.refused rfl _ (hu₁ _ (hu (hf.of_prefix hh₂))))
  · trivial

end dispatch

/-! ## A Cash Out turn -/

/-- What a turn holds of a row from its claim on, as long as it dispatched nothing. -/
structure Holds (i : ℕ) (r : CashOutRow) (h : WorkerHistory) : Prop where
  claimed : ∃ x ∈ h, Claims x
  idle : ∀ x ∈ h, ¬MayDispatch x
  standing : Standing i r h

theorem Holds.quiet (hh : Holds i r h) (hq : Quiet h h') : Holds i r h' where
  claimed := by
    obtain ⟨x, hx, hc⟩ := hh.claimed
    exact ⟨x, hq.extends.subset hx, hc⟩
  idle := hq.mayDispatch hh.idle
  standing := hh.standing.quiet hq

section turn
variable {i : ℕ} {h : WorkerHistory} {r : CashOutRow} {client : Client} {observed : Target}

variable {c : CashOut}

theorem guards_loadPositionCashOut : (loadPositionCashOut c).Guards (Rule i)
      (fun h' res => Quiet h h' ∧ ∀ r, res = .ok r → ∃ a, r = c.toCashOutRow.withAttempt a ∧
        h' = h ++ [⟨.attempt c.id, .ok a⟩]) h := by
  refine guards_free_bind rfl fun reply => ?_
  have hq := Quiet.ask h (.attempt c.id) reply rfl
  cases reply with
  | ok a => exact ⟨hq, fun r hr => ⟨a, (Except.ok.inj hr).symm, rfl⟩⟩
  | error => exact ⟨hq, fun _ hr => nomatch hr⟩

theorem standing_of_loaded {c : CashOut} {a : Option Attempt}
    (hseen : Seen h c.toCashOutRow)
    (hu : wasDispatched a = false → c.state = .preflighting ∨
      Undispatched (h ++ [⟨.attempt c.id, .ok a⟩]) c.id) :
    Standing i (c.toCashOutRow.withAttempt a) (h ++ [⟨.attempt c.id, .ok a⟩]) where
  seen := Seen.mono hseen (prefix_append _ _)
  dispatched hd := .inl ⟨a, by simp, hd⟩
  undispatched := hu
  rejected hr := by
    cases a with
    | none => cases hr
    | some a => exact .inl ⟨a, by simp, hr⟩

theorem seen_of_shows {x : WorkerEntry} (hx : x ∈ h) (hs : Shows c x) :
    Seen h c.toCashOutRow := ⟨x, hx, c, hs, rfl, rfl, rfl⟩

theorem not_mayDispatch_snoc {op : Operation} (t : Time) (reply : Except StoreError op.Reply)
    (hidle : ∀ x ∈ h, ¬MayDispatch x) (hop : op.isDispatch = false) :
    ∀ x ∈ h ++ [⟨.store op t, reply⟩], ¬MayDispatch x := by
  refine forall_mem_append.mpr ⟨hidle, forall_mem_singleton.mpr ?_⟩
  rintro ⟨op', now, r, heq, hop', -⟩
  cases heq
  rw [hop] at hop'
  cases hop'

theorem guards_claimPositionCashOut {worker : UUID} {lease now : Time}
    (hclaims : ∀ x ∈ h, ¬Claims x) (hidle : ∀ x ∈ h, ¬MayDispatch x) :
    (claimPositionCashOut i worker id lease now).Guards (Rule i)
      (fun h' res => h <+: h' ∧ ∀ r, res = .ok r → Holds i r h') h := by
  have hrule : Rule i h (.store (.claim id ⟨i, worker, lease⟩) now) := fun _ => ⟨rfl, hclaims⟩
  refine (guards_storeAt (Q := fun h' res => ∀ c, res = .ok c →
    h' = h ++ [⟨.store (.claim id ⟨i, worker, lease⟩) now, .ok c⟩]) hrule ?_ ?_).bind ?_ ?_
  · intro c c' hc
    rw [Except.ok.inj hc]
  · intro e c hc
    cases hc
  · intro h₁ c hh hc
    obtain rfl := hc c rfl
    refine guards_loadPositionCashOut.conseq fun h' res _ ⟨hq, hres⟩ =>
      ⟨hh.trans hq.extends, fun r hr => ?_⟩
    obtain ⟨a, rfl, rfl⟩ := hres r hr
    have hclaim : Claims ⟨.store (.claim id ⟨i, worker, lease⟩) now, .ok c⟩ := ⟨_, _, _, rfl⟩
    have hidle₁ := not_mayDispatch_snoc now (.ok c) hidle
      (rfl : (Operation.claim id ⟨i, worker, lease⟩).isDispatch = false)
    refine ⟨⟨_, by simp, hclaim⟩, hq.mayDispatch hidle₁, standing_of_loaded
      (seen_of_shows (by simp) (.claimed id ⟨i, worker, lease⟩ now)) fun ha =>
        .inr ⟨?_, hq.mayDispatch hidle₁⟩⟩
    exact ⟨_, _, [], rfl, ⟨_, by simp, hclaim⟩, .read a ha⟩
  · exact fun h' e hh _ => ⟨hh, fun _ hr => nomatch hr⟩

theorem guards_positionCashOutClient :
    (positionCashOutClient r).Guards (Rule i)
      (fun h' res => Quiet h h' ∧ ∀ client, res = .ok (some client) →
        client.walletId = r.walletId) h := by
  refine guards_free_bind rfl fun reply => ?_
  have hq := Quiet.ask h (.connection r.walletId r.walletAddress) reply rfl
  split
  · exact ⟨hq, fun _ hr => nomatch hr⟩
  · split
    · exact ⟨hq, fun _ hr => nomatch hr⟩
    · refine guards_free_bind rfl fun b => ?_
      cases b with
      | true =>
        refine ⟨hq.snoc rfl, ?_⟩
        rintro _ ⟨rfl⟩
        rfl
      | false => exact ⟨hq.snoc rfl, fun _ hr => nomatch hr⟩

theorem keeps_preflightError {e : WormError}
    (hu : Fair h → r.state = .preflighting ∨ Undispatched h r.id) :
    Keeps i (handlePositionCashOutPreflightError i client r e) h := by
  refine keeps_bind peeks_markReconnect fun h₁ _ hq => ?_
  have hu₁ (hf : Fair h₁) : r.state = .preflighting ∨ Undispatched h₁ r.id :=
    (hu (hf.of_prefix hq.extends)).imp_right fun hu => hu.quiet hq
  split_ifs
  · exact keeps_failure hu₁
  · exact keeps_failure hu₁
  · trivial
  · exact keeps_failure hu₁

theorem keeps_whenClosable {next : Target → Worker Unit} (hseen : Seen h r)
    (hc : Serves client r h) (hu : r.state = .preflighting ∨ Undispatched h r.id)
    (hnext : ∀ h' observed, Quiet h h' → Keeps i (next observed) h') :
    Keeps i (whenClosable i client r next) h := by
  refine keeps_bind guards_observePositionCashOut ?_
  rintro h₁ res ⟨hq, hl⟩
  have hu₁ (_ : Fair h₁) : r.state = .preflighting ∨ Undispatched h₁ r.id :=
    hu.imp_right fun hu => hu.quiet hq
  cases res with
  | error => exact keeps_preflightError hu₁
  | ok observed =>
    dsimp only
    split_ifs with hshares hliquidated hsource hclosed hsource
    · exact keeps_failure hu₁
    · exact keeps_failure hu₁
    · refine keeps_recordState fun h' o hq' _ hnext _ => ⟨fun hc => ?_, fun _ => ?_⟩
      · cases hnext.symm.trans hc
      · exact .inr (.inr (.inl ⟨observed, (hl _ rfl hseen hc _ trivial).mono hq'.extends,
          hliquidated⟩))
    · exact keeps_failure hu₁
    · refine keeps_recordState fun h' o hq' _ hnext _ => ⟨fun _ => ?_, fun hc => ?_⟩
      · refine ⟨observed, (hl _ rfl hseen hc _ (.inl ⟨r, hseen, rfl, ?_⟩)).mono hq'.extends,
          hclosed,
          by simpa using hliquidated⟩
        simpa using hsource
      · cases hnext.symm.trans hc
    · exact hnext h₁ observed hq

theorem keeps_withCommand {next : CloseRequest → Worker Unit}
    (hu : Fair h → r.state = .preflighting ∨ Undispatched h r.id)
    (hnext : ∀ command, Keeps i (next command) h) :
    Keeps i (withCommand i r observed next) h := by
  unfold withCommand
  split
  · exact keeps_failure hu
  · exact hnext _

theorem keeps_preflight (hh : Holds i r h) (hc : Serves client r h)
    (hstate : r.state = .preflighting) :
    Keeps i (preflight i client r) h := by
  refine keeps_whenClosable hh.standing.seen hc (.inl hstate) fun h₁ observed hq => ?_
  refine guards_free_bind rfl fun t => ?_
  have hh₁ := hh.quiet (hq.snoc (x := ⟨.now, t⟩) rfl)
  split_ifs
  · trivial
  refine keeps_withCommand (fun _ => .inl hstate) fun command => ?_
  generalize positionCashOutProviderState observed = state
  refine keeps_bind (Q := fun h' res => ∀ c, res = .ok c → ∃ h₂ t', Quiet h h₂ ∧
      h' = h₂ ++ [⟨.store (.beginClosing r.id i state) t', .ok c⟩])
    (guards_store (fun _ _ => trivial) ?_ fun _ _ _ hr => nomatch hr) ?_
  · intro t' c c' hc'
    rw [← Except.ok.inj hc']
    exact ⟨_, t', (hq.snoc (x := ⟨.now, t⟩) rfl).snoc (x := ⟨.now, t'⟩) rfl, rfl⟩
  · intro h' c hc'
    obtain ⟨h₂, t', hq₂, rfl⟩ := hc' c rfl
    have hh₂ := hh.quiet hq₂
    refine keeps_bind guards_loadPositionCashOut ?_
    rintro h₃ r' ⟨hq₃, hr'⟩
    obtain ⟨a, rfl, -⟩ := hr' r' rfl
    -- the row that the transaction showed was not dispatched under the claim
    have hidle := not_mayDispatch_snoc t' (.ok c) hh₂.idle
      (rfl : (Operation.beginClosing r.id i state).isDispatch = false)
    have hclosing (hf : Fair h₃) : c.id = r.id := by
      by_contra hne
      exact hf _ (hq₃.extends.subset (by simp)) (.closing r.id i state t' c hne)
    refine keeps_dispatchPrepared
      (fun _ => (seen_of_shows (by simp) (.closing r.id i state t')).mono hq₃.extends)
      (fun hf => ?_)
      fun hf => ?_
    · rw [show (c.toCashOutRow.withAttempt a).id = r.id from hclosing hf]
      exact Undispatched.quiet ⟨⟨h₂, _, [], rfl, hh₂.claimed, .closing i state t' c⟩, hidle⟩ hq₃
    · obtain ⟨r₀, hr₀, hid, hwallet⟩ := hc
      have hprefix : h <+: h₃ :=
        (hq₂.extends.trans (prefix_append _ _)).trans hq₃.extends
      exact ⟨r₀, hr₀.mono hprefix, hid.trans (hclosing hf).symm, hwallet⟩

theorem keeps_resumeClosing (hh : Holds i r h) (hc : Serves client r h) (hu : Undispatched h r.id) :
    Keeps i (resumeClosing i client r) h := by
  refine keeps_whenClosable hh.standing.seen hc (.inr hu) fun h₁ observed hq => ?_
  refine guards_free_bind rfl fun t => ?_
  have hq₁ := hq.snoc (x := ⟨.now, t⟩) rfl
  split_ifs
  · trivial
  refine keeps_withCommand (fun _ => .inr (hu.quiet hq₁)) fun command => ?_
  split_ifs
  · exact keeps_reconciliation
  · exact keeps_dispatchPrepared (fun _ => hh.standing.seen.mono hq₁.extends)
      (fun _ => hu.quiet hq₁) fun _ => hc.mono hq₁.extends

theorem keeps_processClaimed (hh : Holds i r h) :
    Keeps i (processClaimedPositionCashOut i r) h := by
  refine keeps_bind guards_positionCashOutClient ?_
  rintro h₁ res ⟨hq, hclient⟩
  have hh₁ := hh.quiet hq
  cases res with
  | none =>
    dsimp only
    split_ifs with hd
    · exact keeps_reconciliation
    · exact keeps_failure fun _ => hh₁.standing.undispatched (by simpa using hd)
  | some client =>
    have hc : Serves client r h₁ := ⟨r, hh₁.standing.seen, rfl, hclient client rfl⟩
    dsimp only
    split_ifs with hpreflight hclosing
    · exact keeps_preflight hh₁ hc hpreflight
    · refine keeps_resumeClosing hh₁ hc ((hh₁.standing.undispatched hclosing.2).resolve_left ?_)
      exact hpreflight
    · exact keeps_reconcileClaimed (fun _ => hh₁.standing) fun _ => hc

theorem keeps_cashOutTurn {worker : UUID} : Keeps i (cashOutTurn i worker id) [] := by
  refine guards_free_bind rfl fun lease => guards_free_bind rfl fun t => ?_
  have hq := (Quiet.ask [] .now lease rfl).snoc (x := ⟨.now, t⟩) rfl
  refine keeps_bind (guards_claimPositionCashOut (hq.claims (by simp)) (hq.mayDispatch (by simp)))
    ?_
  rintro h' r ⟨-, hr⟩
  exact keeps_processClaimed (hr r rfl)

end turn

end Athena.CashOuts
