import Athena.RunProof.World

/-!
# A stored proof authorizes once

A value that a flow stored is taken away by the one script that returns it, so one request
at most goes on with it, and a request authorizes at most once.  What the request passes on
is what was stored, and it has looked at the clock, the login session, the account and, for a
wallet, the Run after it took the value.
-/

namespace Athena.RunProof

open Athena.Lib Pool Option List
open Athena.Lib.Pool (history)
open Athena.Registration (Identity)

variable {rules : Rules} {requests : ℕ → Request} {w : World} {s s' : Shared} {e : Event} {f : Flow}
    {id : String}
  {c : Option Call}

/-! ## What an event can change -/

namespace Shared

@[simp] theorem slots_setSlot_self (s : Shared) (f : Flow) (id : String)
    (slot : Option (Slot f.Value)) : (s.setSlot f id slot).slots f id = slot := by
  simp [setSlot]

theorem slots_setSlot_of_ne (s : Shared) {f f' : Flow} {id id' : String}
    (slot : Option (Slot f.Value)) (h : (f', id') ≠ (f, id)) :
    (s.setSlot f id slot).slots f' id' = s.slots f' id' := by
  by_cases hf : f' = f
  · subst hf
    have hid : id' ≠ id := fun hid => h (by rw [hid])
    simp [setSlot, Function.update_of_ne hid]
  · simp [setSlot, Function.update_of_ne hf]

end Shared

/-- The changes of the values in Redis, each with the call that makes it. -/
inductive Moves (s : Shared) (c : Option Call) (s' : Shared) : Prop
  | same (hslots : s'.slots = s.slots) (hstored : s'.stored = s.stored)
  | put (f : Flow) (id : String) (value : f.Value) (expiresAt : ℕ)
      (hcall : c = some (.create f id value))
      (hslots : s'.slots = (s.setSlot f id (some ⟨value, expiresAt, s.stored⟩)).slots)
      (hstored : s'.stored = s.stored + 1)
  | clear (f : Flow) (id : String) (hslots : s'.slots = (s.setSlot f id none).slots)
      (hstored : s'.stored = s.stored)

theorem moves_create (s : Shared) (f : Flow) (id : String) (value : f.Value) :
    Moves s (some (.create f id value)) (Redis.create s f id value).1 := by
  unfold Redis.create
  split
  · exact .same rfl rfl
  · dsimp only
    split
    · exact .same rfl rfl
    · unfold Redis.set
      split
      · exact .same rfl rfl
      · exact .put f id value _ rfl rfl rfl

theorem moves_consume (s : Shared) (f : Flow) (id : String) (c : Option Call) :
    Moves s c (Redis.consume s f id).1 := by
  unfold Redis.consume
  split
  · exact .clear f id rfl rfl
  · exact .same rfl rfl

theorem moves_of_serves {c : Call} {r : c.Reply} (h : serves s c r s') : Moves s (some c) s' := by
  cases c with
  | now => rw [h.2]; exact .same rfl rfl
  | randomOpaqueValue | randomNonce | generateVerifier | exchange => rw [h]; exact .same rfl rfl
  | authenticate | getAccount | loadDescriptor => rw [h.1]; exact .same rfl rfl
  | create f id value =>
    rcases Served.cases h with rfl | ⟨a, ha⟩
    · exact .same rfl rfl
    · have := moves_create s f id value
      rwa [Except.ok.inj ha] at this
  | consume f id =>
    rcases Served.cases h with rfl | ⟨a, ha⟩
    · exact .same rfl rfl
    · have := moves_consume s f id (some (.consume f id))
      rwa [Except.ok.inj ha] at this
  | authorize =>
    obtain ⟨runs, rfl⟩ := h
    exact .same rfl rfl

theorem moves_of_drifts (h : Drifts s s') : Moves s none s' := by
  cases h with
  | tick | others => exact .same rfl rfl
  | evict f id => exact .clear f id rfl rfl

theorem moves_of_next (h : (pool rules requests).Next s s') : ∃ c, Moves s c s' := by
  rcases h with h | ⟨c, r, h⟩
  · exact ⟨none, moves_of_drifts h⟩
  · exact ⟨some c, moves_of_serves h⟩

/-! ## The numbers of the values -/

/-- No two values in Redis have one number, and the next number is new. -/
structure Numbered (s : Shared) : Prop where
  below : ∀ f id slot, s.slots f id = some slot → slot.serial < s.stored
  distinct : ∀ f id slot f' id' slot', s.slots f id = some slot → s.slots f' id' = some slot' →
    slot.serial = slot'.serial → (f, id) = (f', id')

def Gone (n : ℕ) (s : Shared) : Prop :=
  n < s.stored ∧ ∀ f id slot, s.slots f id = some slot → slot.serial ≠ n

theorem slots_cases {x : Option (Slot f.Value)} {f' : Flow} {id' : String} {slot : Slot f'.Value}
    (h : (s.setSlot f id x).slots f' id' = some slot) :
    ((f', id') = (f, id) ∧ HEq x (some slot)) ∨
      ((f', id') ≠ (f, id) ∧ s.slots f' id' = some slot) := by
  by_cases heq : (f', id') = (f, id)
  · cases heq
    rw [Shared.slots_setSlot_self] at h
    exact .inl ⟨rfl, heq_of_eq h⟩
  · rw [Shared.slots_setSlot_of_ne s x heq] at h
    exact .inr ⟨heq, h⟩

/-- A value that is there afterwards was there, or it is new and has the next number. -/
theorem Moves.slot (h : Moves s c s') {slot : Slot f.Value} (hslot : s'.slots f id = some slot) :
    s.slots f id = some slot ∨
      (slot.serial = s.stored ∧ c = some (.create f id slot.value) ∧ s'.stored = s.stored + 1) := by
  cases h with
  | same hslots => exact .inl (hslots ▸ hslot)
  | clear _ _ hslots =>
    rw [hslots] at hslot
    rcases slots_cases hslot with ⟨heq, hx⟩ | ⟨-, hx⟩
    · cases heq
      cases hx
    · exact .inl hx
  | put _ _ _ _ hcall hslots hstored =>
    rw [hslots] at hslot
    rcases slots_cases hslot with ⟨heq, hx⟩ | ⟨-, hx⟩
    · cases heq
      cases hx
      exact .inr ⟨rfl, hcall, hstored⟩
    · exact .inl hx

theorem Moves.stored (h : Moves s c s') : s.stored ≤ s'.stored := by
  cases h <;> omega

theorem Numbered.moves (h : Numbered s) (hmove : Moves s c s') : Numbered s' := by
  have hle := hmove.stored
  constructor
  · intro f id slot hslot
    obtain hold | ⟨hserial, -, hstored⟩ := hmove.slot hslot
    · exact (h.below f id slot hold).trans_le hle
    · omega
  · intro f id slot f' id' slot' hslot hslot' hserial
    obtain hold | ⟨hnew, hcall, -⟩ := hmove.slot hslot <;>
      obtain hold' | ⟨hnew', hcall', -⟩ := hmove.slot hslot'
    · exact h.distinct f id slot f' id' slot' hold hold' hserial
    · have := h.below f id slot hold
      omega
    · have := h.below f' id' slot' hold'
      omega
    · obtain ⟨hf, hid, -⟩ := Call.create.inj (some.inj (hcall.symm.trans hcall'))
      rw [hf, hid]

theorem Gone.moves {n : ℕ} (h : Gone n s) (hmove : Moves s c s') : Gone n s' := by
  have hlt := h.1
  refine ⟨hlt.trans_le hmove.stored, fun f id slot hslot => ?_⟩
  obtain hold | ⟨hnew, -⟩ := hmove.slot hslot
  · exact h.2 f id slot hold
  · omega

theorem numbered_of_reachable (h : (pool rules requests).Reachable w) :
    Numbered w.shared ∧ ∀ e ∈ w.log, Numbered e.before := by
  have hsteady : Pool.Steady Numbered (fun _ _ => True) w.shared w.log := by
    have hinit : Numbered (pool rules requests).init := by
      constructor
      · intro f id slot hslot
        cases hslot
      · intro f id slot f' id' slot' hslot
        cases hslot
    refine h.steady (fun _ => trivial) (fun _ _ => trivial) hinit fun hnext hn => ?_
    obtain ⟨c, hmove⟩ := moves_of_next hnext
    exact ⟨hn.moves hmove, trivial⟩
  exact ⟨hsteady.holds, fun e he => (hsteady.events e he).1⟩

theorem obeys_of_starts (i : ℕ) (p : Handler Unit) (hp : (pool rules requests).starts i p) :
    p.Guards (Rule rules (requests i)) (fun _ _ => True) [] := hp ▸ obeys_handle

/-! ## Values that are stored and taken -/

def Takes (n i : ℕ) (f : Flow) (id : String) (value : f.Value) (d : Event) : Prop :=
  d.cause = some (i, ⟨.consume f id, .ok (some value)⟩) ∧
    ∃ slot, d.before.slots f id = some slot ∧ slot.value = value ∧ slot.serial = n

variable {i : ℕ} {value : f.Value} {l₁ l₂ : List Event}

theorem takes_of_cause {d : Event} (hlawful : d.Lawful (pool rules requests))
    (hcause : d.cause = some (i, ⟨.consume f id, .ok (some value)⟩)) :
    d.after = d.before.setSlot f id none ∧ ∃ n, Takes n i f id value d := by
  have hserves : Served (.ok (Redis.consume d.before f id)) StoreError.unavailable d.before
    (.ok (some value)) d.after := hlawful.serves hcause
  rcases hserves with ⟨a, ha, hr⟩ | ⟨-, hr | ⟨e, he, -⟩⟩
  · obtain rfl : some value = a := by simpa using hr
    have hconsume := Except.ok.inj ha
    unfold Redis.consume at hconsume
    split at hconsume
    · rename_i slot hlive
      obtain ⟨hafter, hvalue⟩ := Prod.mk.inj hconsume
      have hslot := (filter_eq_some_iff.mp hlive).1
      exact ⟨hafter.symm, slot.serial, hcause, slot, hslot, some.inj hvalue, rfl⟩
    · simp at hconsume
  · cases hr
  · cases he

theorem taken_once (h : (pool rules requests).Reachable w) (n : ℕ) : w.log.Pairwise fun d d' =>
    ¬((∃ i f id value, Takes n i f id value d) ∧ ∃ i f id value, Takes n i f id value d') := by
  refine h.pairwise_not (T := Gone n) (fun hnext hgone => ?_) fun d hd htakes => ?_
  · obtain ⟨c, hmove⟩ := moves_of_next hnext
    exact hgone.moves hmove
  · obtain ⟨i, f, id, value, hcause, slot, hslot, -, rfl⟩ := htakes
    have hnumbered := (numbered_of_reachable h).2 d hd
    refine ⟨fun hgone => hgone.2 f id slot hslot rfl, ?_⟩
    rw [(takes_of_cause (h.chronicle.lawful d hd) hcause).1]
    refine ⟨hnumbered.below f id slot hslot, fun f' id' slot' hslot' hserial => ?_⟩
    rcases slots_cases hslot' with ⟨heq, hx⟩ | ⟨hne, hx⟩
    · cases heq
      cases hx
    · exact hne (hnumbered.distinct f' id' slot' f id slot hx hslot hserial)

def Observed (l : List Event) (i : ℕ) (p : Shared → Prop) : Prop :=
  ∃ x ∈ l, x.turn = some i ∧ p x.before

def InSession (rules : Rules) (q : Request) (b : Binding) (s : Shared) : Prop :=
  ∃ c, s.sessions q.login = some c ∧ SameSession rules b c

def StoredFor (rules : Rules) (requests : ℕ → Request) (l : List Event) (n : ℕ) (f : Flow)
    (id : String) (value : f.Value) : Prop :=
  ∃ l₁ c l₂ k r, l = l₁ ++ c :: l₂ ∧ c.cause = some (k, ⟨.create f id value, r⟩) ∧
    c.before.stored = n ∧ (∃ slot, c.after.slots f id = some slot ∧ slot.value = value ∧
      slot.serial = n) ∧ Observed l₁ k (InSession rules (requests k) (f.binding value))

theorem StoredFor.append {l : List Event} {n : ℕ} (h : StoredFor rules requests l n f id value)
    (d : Event) : StoredFor rules requests (l ++ [d]) n f id value := by
  obtain ⟨l₁, c, l₂, k, r, rfl, hrest⟩ := h
  exact ⟨l₁, c, l₂ ++ [d], k, r, by simp, hrest⟩

theorem observed_of_mem (h : (pool rules requests).Reachable w) (hlog : w.log = l₁ ++ l₂)
    {x : Entry}
    (hx : x ∈ history l₁ i) {p : Shared → Prop} (hp : ∀ s s', serves s x.1 x.2 s' → p s) :
    Observed l₁ i p := by
  obtain ⟨d, hd, hcause⟩ := exists_event_of_mem_history hx
  have hlawful := h.chronicle.lawful d (hlog ▸ mem_append_left _ hd)
  exact ⟨d, hd, Pool.Event.turn_of_cause hcause, hp _ _ (hlawful.serves hcause)⟩

theorem Recognised.observed (h : (pool rules requests).Reachable w) (hlog : w.log = l₁ ++ l₂)
    {b : Binding}
    {q : Request} (hknown : Recognised rules q (history l₁ i) b) :
    Observed l₁ i (InSession rules q b) := by
  obtain ⟨c, hentry, hsame⟩ := hknown
  refine observed_of_mem h hlog hentry fun s s' hserves => ⟨c, ?_, hsame⟩
  obtain ⟨-, hr | hr⟩ := hserves
  · cases hr
  · exact hr.symm

theorem storedFor_of_slots (h : (pool rules requests).Reachable w) : ∀ f id slot,
    w.shared.slots f id = some slot →
      StoredFor rules requests w.log slot.serial f id slot.value := by
  refine Pool.Reachable.of_events (P := fun i => Rule rules (requests i))
    (J := fun s log => ∀ f id slot, s.slots f id = some slot →
      StoredFor rules requests log slot.serial f id slot.value) obeys_of_starts ?_ ?_ h
  · intro f id slot hslot
    cases hslot
  · intro w e hw ih hbefore hlawful hrule f id slot hslot
    have hmove : Moves e.before (e.cause.map fun x => x.2.1) e.after := by
      obtain ⟨_ | ⟨i, x⟩, s, s'⟩ := e
      · exact moves_of_drifts hlawful
      · exact moves_of_serves hlawful
    obtain hold | ⟨hserial, hcall, -⟩ := hmove.slot hslot
    · exact (ih f id slot (hbefore ▸ hold)).append e
    · -- this is the event that stored the value
      obtain ⟨⟨k, c, r⟩, hcause, hc⟩ := map_eq_some_iff.mp hcall
      obtain rfl : c = .create f id slot.value := hc
      have hknown : Recognised rules (requests k) (history w.log k) (f.binding slot.value) :=
        hrule k _ hcause
      exact ⟨w.log, e, [], k, r, rfl, hcause, hserial.symm, ⟨slot, hslot, rfl, rfl⟩,
        hknown.observed hw (append_nil _).symm⟩

/-! ## The guarantees -/

def AuthorizesFor (log : List Event) (n : ℕ) (e : Event) : Prop :=
  ∃ i request r, e.cause = some (i, ⟨.authorize request, r⟩) ∧
    ∃ d ∈ log, ∃ f id value, Takes n i f id value d

def Confirmed (rules : Rules) (q : Request) (l : List Event) (i : ℕ)
    (request : AuthorizationRequest) : (f : Flow) → f.Value → Prop
  | .solana, value => ∃ identity planDigest,
      (Observed l i fun s => s.accounts value.accountID = some identity) ∧
      (Observed l i fun s => ∃ run, s.runs value.runID = some run ∧
        run.planDigestSHA256 = planDigest) ∧
      Signed rules q value identity planDigest ∧ request.planDigestSHA256 = some planDigest
  | .google, value => ∃ identity r token, q = .callback r ∧
      (Observed l i fun s => s.accounts value.accountID = some identity) ∧
      (⟨.exchange r.code value.verifier, some token⟩ : Entry) ∈ history l i ∧
      Vouched value identity token

theorem exists_run_of_descriptor {request : DescriptorRequest} {descriptor : Descriptor}
    (h : s.descriptor request = some descriptor) :
    ∃ run, s.runs request.runID = some run ∧
      run.planDigestSHA256 = descriptor.planDigestSHA256 := by
  simp only [Shared.descriptor, bind_eq_bind, bind_eq_some_iff] at h
  obtain ⟨runID, hrunID, run, hrun, h⟩ := h
  obtain rfl : request.runID = runID := by
    unfold canonicalWormExecutionID at hrunID
    split at hrunID
    · cases hrunID
    · exact some.inj hrunID
  split at h
  · cases h
    exact ⟨run, hrun, rfl⟩
  · cases h

theorem Proved.confirmed (h : (pool rules requests).Reachable w) (hlog : w.log = l₁ ++ l₂)
    {q : Request} {request : AuthorizationRequest}
    (hproved : Proved rules q (history l₁ i) request f value) :
    Confirmed rules q l₁ i request f value := by
  have haccount {accountID : String} {identity : Identity}
      (hentry : (⟨.getAccount accountID, some identity⟩ : Entry) ∈ history l₁ i) :
      Observed l₁ i fun s => s.accounts accountID = some identity := by
    refine observed_of_mem h hlog hentry fun s s' hserves => ?_
    obtain ⟨-, hr | hr⟩ := hserves
    · cases hr
    · exact hr.symm
  cases f with
  | solana =>
    obtain ⟨identity, dr, descriptor, hget, hload, hrun, hsigned, hplan⟩ := hproved
    refine ⟨identity, _, haccount hget, ?_, hsigned, hplan⟩
    refine observed_of_mem h hlog hload fun s s' hserves => ?_
    obtain ⟨-, hr | hr⟩ := hserves
    · cases hr
    · exact hrun ▸ exists_run_of_descriptor hr.symm
  | google =>
    obtain ⟨identity, r, token, hq, hget, hrest⟩ := hproved
    exact ⟨identity, r, token, hq, haccount hget, hrest⟩

theorem no_authorize_of_rule {q : Request} {h : List Entry} {request : AuthorizationRequest}
    (hrule : Rule rules q h (.authorize request)) {request' : AuthorizationRequest}
    {r : (Call.authorize request').Reply} : (⟨.authorize request', r⟩ : Entry) ∉ h := by
  obtain ⟨f, id, value, now, c, rest, -, rfl, hrest, -⟩ := hrule
  intro hmem
  rcases mem_append.mp hmem with hmem | hmem
  · simp at hmem
  · exact hrest _ hmem request' r rfl

def Bound (rules : Rules) (requests : ℕ → Request) (l : List Event) (i : ℕ)
    (request : AuthorizationRequest) : Prop :=
  ∃ f id value n, (requests i).Presents f id ∧
    (∃ a d b, l = a ++ d :: b ∧ Takes n i f id value d ∧ StoredFor rules requests a n f id value) ∧
    Carries (f.binding value) request ∧ (Observed l i fun s => f.Fresh value s.now) ∧
    Observed l i (InSession rules (requests i) (f.binding value)) ∧
    Confirmed rules (requests i) l i request f value

/-- In every interleaving of requests of the two flows, however often a challenge or a state is
presented: for a value that was stored there is at most one authorization.  Each one is by a
request that presents the value in its cookie or state, and took it; a request in the same login
session stored it; the values passed on are the stored ones; and the request found that the value
had not expired, that the session of its login was there, and who the account was.  In the Solana
flow the signature of the request is that of the wallet of this account on the stored message,
which names the Run and the plan that the Run then had. -/
theorem authorizations_bound (h : (pool rules requests).Reachable w) :
    (∀ n, w.log.Pairwise fun e e' => ¬(AuthorizesFor w.log n e ∧ AuthorizesFor w.log n e')) ∧
    ∀ l₁ e l₂ i request r, w.log = l₁ ++ e :: l₂ →
      e.cause = some (i, ⟨.authorize request, r⟩) → Bound rules requests l₁ i request := by
  have hobeys := h.guarded (P := fun i => Rule rules (requests i)) obeys_of_starts
  constructor
  · refine fun n => pairwise_of_splits fun l₁ e l₂ e' l₃ hlog => ?_
    rintro ⟨⟨i, request, r, hcause, d, hd, f, id, value, htakes⟩,
      i', request', r', hcause', d', hd', f', id', value', htakes'⟩
    obtain rfl := eq_of_pairwise_not (taken_once h n) hd hd' ⟨i, f, id, value, htakes⟩
      ⟨i', f', id', value', htakes'⟩
    obtain rfl : i = i' := congrArg Prod.fst (some.inj (htakes.1.symm.trans htakes'.1))
    refine no_authorize_of_rule (hobeys.log _ e' l₃ i _ hlog hcause') (r := r) ?_
    exact mem_filterMap.mpr ⟨e, by simp, Pool.Event.entry_eq_some.mpr hcause⟩
  · intro l₁ e l₂ i request r hlog hcause
    obtain ⟨f, id, value, now, c, rest, hpresents, hhistory, -, hfresh, hsame, hcarries, hproved⟩ :=
      hobeys.log _ e l₂ i _ hlog hcause
    have htaken : history l₁ i = [] ++ ⟨.consume f id, .ok (some value)⟩ :: _ := hhistory
    obtain ⟨a, d, b, rfl, hd, -, -⟩ := exists_split_of_history htaken
    have hlog' : w.log = a ++ d :: (b ++ e :: l₂) := by simp [hlog]
    obtain ⟨-, n, htakes⟩ := takes_of_cause (h.chronicle.lawful d (by simp [hlog'])) hd
    refine ⟨f, id, value, n, hpresents, ⟨a, d, b, rfl, htakes, ?_⟩, hcarries, ?_, ?_,
      hproved.confirmed h hlog⟩
    · obtain ⟨w₁, hw₁, rfl, hshared⟩ := h.cut hlog'
      obtain ⟨-, slot, hslot, rfl, rfl⟩ := htakes
      exact storedFor_of_slots hw₁ f id slot (hshared ▸ hslot)
    · have hnow : (⟨.now, now⟩ : Entry) ∈ history (a ++ d :: b) i := by simp [hhistory]
      refine observed_of_mem h hlog hnow fun s s' hserves => ?_
      rw [← hserves.1]
      exact hfresh
    · exact Recognised.observed h hlog ⟨c, by simp [hhistory], hsame⟩

/-! ## A challenge that is presented twice -/

namespace Sample

def runID : String := "00000000-0000-0000-0000-000000000001"
def commandID : String := "00000000-0000-0000-0000-000000000002"
def accountID : String := "00000000-0000-0000-0000-000000000003"
def address : String := String.ofList (List.replicate 32 '1')
def cookie : String := String.ofList (List.replicate 43 'a')
def digest : Bytes := List.replicate 32 7
def signature : Bytes := List.replicate 64 9

def deployment : Rules where
  domain := "athena"
  publicOrigin := "https://athena"
  returnToForRealm returnTo _ := returnTo
  formatTime _ := "now"
  sha256 _ := digest
  decodeBase64 _ := some signature
  encodeBase64 _ := "signature"
  decodeBase58 _ := some (List.replicate 32 1)
  verify _ _ bytes := bytes = signature

def sessions (login : String) : Option Credential :=
  if login = "login" then some ⟨.login, "jti", accountID, 1⟩ else none

def accounts (id : String) : Option Identity :=
  if id = accountID then some ⟨.solanaWallet, address, "", .member⟩ else none

def runs (id : String) : Option Run :=
  if id = runID then some ⟨accountID, 4, digest, true⟩ else none

/-- One request starts a proof, and all others end it. -/
def requested : ℕ → Request
  | 0 => .challenge ⟨.post, "https://athena", true, ⟨runID, ""⟩, "login", some (commandID, 4, "/")⟩
  | _ => .verify
    ⟨.post, "https://athena", ⟨runID, ""⟩, some cookie, "login", true, some "signature"⟩

def answer (s : Shared) : (c : Call) → c.Reply × Shared
  | .now => (s.now, s)
  | .randomOpaqueValue => (some cookie, s)
  | .randomNonce => (some (String.ofList (List.replicate 32 '0')), s)
  | .generateVerifier => ("verifier", s)
  | .authenticate login => (s.sessions login, s)
  | .getAccount id => (s.accounts id, s)
  | .loadDescriptor request => (s.descriptor request, s)
  | .create f id value => outcome (.ok (Redis.create s f id value)) s
  | .consume f id => outcome (.ok (Redis.consume s f id)) s
  | .exchange .. => (none, s)
  | .authorize _ => (true, { s with runs := s.runs })

def responder : (pool deployment requested).Responder where
  answer s c := some (answer s c)
  lawful {s c r s'} h := by
    obtain ⟨rfl, rfl⟩ := Prod.mk.inj (some.inj h)
    cases c with
    | now => exact ⟨rfl, rfl⟩
    | authenticate | getAccount | loadDescriptor => exact ⟨rfl, .inr rfl⟩
    | create | consume => exact served_outcome _ StoreError.unavailable s
    | authorize => exact ⟨s.runs, rfl⟩
    | _ => rfl

/-- A challenge is stored.  Two requests present it side by side, and the second of them takes
it. -/
def twice : World := script (S := pool deployment requested)
  [.drift (fun s => some { s with now := s.now + unixEpoch }) (by
      rintro s _ ⟨rfl⟩
      exact .tick _ (Nat.le_add_right _ _)),
    .drift (fun s => some { s with sessions, accounts, runs }) (by
      rintro s _ ⟨rfl⟩
      exact .others ..),
    .start 0 _ rfl, .calls responder 0 7, .start 1 _ rfl, .start 2 _ rfl, .calls responder 2 2,
    .calls responder 1 6, .calls responder 2 4]

def authorizes (e : Event) : Bool :=
  match e.cause with
  | some (2, ⟨.authorize request, _⟩) => request.runID = runID && request.proofKind = .phantom
  | _ => false

end Sample

open Sample

/-- The request that took the challenge authorizes the Run, and nobody else does. -/
theorem challenge_authorizes_once :
    (∀ n, Sample.twice.log.Pairwise fun e e' =>
      ¬(AuthorizesFor Sample.twice.log n e ∧ AuthorizesFor Sample.twice.log n e')) ∧
    ∃ l₁ e l₂ request r, Sample.twice.log = l₁ ++ e :: l₂ ∧
      e.cause = some (2, ⟨.authorize request, r⟩) ∧ request.runID = Sample.runID ∧
      Bound Sample.deployment Sample.requested l₁ 2 request := by
  have hw : (pool deployment requested).Reachable twice := reachable_script _
  have ha : twice.log.any authorizes := by decide +kernel
  obtain ⟨honce, hbound⟩ := authorizations_bound hw
  obtain ⟨e, hlog, he⟩ := split_at_first ha
  unfold authorizes at he
  split at he
  · rename_i request r hcause
    simp only [check_iff] at he
    exact ⟨honce, _, e, _, request, r, hlog, hcause, he.1, hbound _ e _ 2 request r hlog hcause⟩
  · cases he

end Athena.RunProof
