import Athena.Registration.World

/-!
# One account for an identity

A ticket is created once, since its id is drawn once.  It is consumed at most once, by the
submission that holds its live claim, and nobody else takes the ticket or the claim away
while the claim lives.  The account that a submission logs in to is the one row of the
directory that has the identity of the ticket.
-/

namespace Athena.Registration

open Athena.Lib Function Pool Option List Directory
open Athena.Lib.Pool (history)

variable {rules : Rules} {w : World} {s s' : Shared} {l₁ l₂ : List Event} {e : Event} {u : Unit}

/-! ## What a call can change -/

/-- The changes of the shared state, each with the call that makes it and what the call finds. -/
inductive Writes (s : Shared) : Call → Shared → Prop
  | nothing (c : Call) : Writes s c s
  | random (v : String) (hv : v ∉ s.issued) :
      Writes s .random { s with issued := v :: s.issued }
  | setTicket (id : String) (ticket : Ticket) (hticket : s.liveTicket id = none) :
      Writes s (.setTicket id ticket) (s.setTicket id (some (ticket, s.now + registrationTTL)))
  | claim (id claimID : String) (hclaim : s.liveClaim id = none) :
      Writes s (.claim id claimID) (s.setClaim id (some (claimID, s.now + registrationClaimTTL)))
  | releaseClaim (id claimID : String) (hclaim : s.liveClaim id = some claimID) :
      Writes s (.releaseClaim id claimID) (s.setClaim id none)
  | complete (id claimID : String) (hticket : s.liveTicket id ≠ none)
      (hclaim : s.liveClaim id = some claimID) :
      Writes s (.complete id claimID) ((s.setTicket id none).setClaim id none)
  | deleteTicket (id : String) (hclaim : s.liveClaim id = none) :
      Writes s (.deleteTicket id) (s.setTicket id none)
  | publish (process : ℕ) (a : Account) :
      Writes s (.publish process a) (s.setMemory process ((s.memory process).upsert a))
  | createAccount (id : ℕ) (username : String) (identity : Identity) (d : Directory)
      (hd : s.directory.insert? (.ofRegistration id username identity) = some d) :
      Writes s (.createAccount username identity) (s.setDirectory d)
  | createLogin (process account : ℕ) (identity : Identity) :
      Writes s (.createLogin process account identity)
        (s.setDirectory (s.directory.recordLogin account identity))

namespace Redis

variable {id claimID : String} {ticket : Ticket}

theorem create_ok {b : Bool} (h : create s id ticket = .ok (s', b)) :
    Writes s (.setTicket id ticket) s' := by
  unfold create at h
  split at h <;> cases h
  · exact .nothing _
  · exact .setTicket id ticket ‹_›

theorem get_ok (h : get s id = .ok (s', ticket)) : s' = s := by
  unfold get at h
  split at h <;> cases h
  rfl

theorem claim_ok (h : claim s id claimID = .ok (s', ticket)) :
    Writes s (.claim id claimID) s' := by
  unfold claim at h
  split at h
  · cases h
  · split at h <;> cases h
    exact .claim id claimID ‹_›

theorem releaseClaim_ok (h : releaseClaim s id claimID = .ok (s', u)) :
    Writes s (.releaseClaim id claimID) s' := by
  unfold releaseClaim at h
  split at h <;> cases h
  · exact .releaseClaim id claimID ‹_›
  · exact .nothing _

theorem complete_ok (h : complete s id claimID = .ok (s', u)) :
    s.liveTicket id ≠ none ∧ s.liveClaim id = some claimID ∧
      s' = (s.setTicket id none).setClaim id none := by
  unfold complete at h
  split at h
  · cases h
  · rename_i ticket hticket
    split at h <;> cases h
    rename_i hclaim
    exact ⟨by simp [hticket], not_not.mp hclaim, rfl⟩

theorem delete_ok (h : delete s id = .ok (s', u)) : Writes s (.deleteTicket id) s' := by
  unfold delete at h
  split at h
  · cases h
  · split at h <;> cases h
    exact .deleteTicket id ‹_›

end Redis

open Redis

variable {a : Account} {i j : ℕ}

theorem publish_eq_some {m m' : Table Account.id} (h : publish rules m a = some m') :
    m' = m.upsert a := by
  unfold publish at h
  split at h
  · cases h
  split at h
  · cases h
  split at h
  · exact (some.inj h).symm
  · split at h <;> cases h
    rfl

theorem writes_of_serves {c : Call} {r : c.Reply} (h : serves rules s c r s') :
    Writes s c s' := by
  cases c with
  | random =>
    obtain ⟨-, rfl⟩ | ⟨v, hv, -, rfl⟩ := h
    · exact .nothing _
    · exact .random v hv
  | setTicket =>
    obtain rfl | ⟨b, hb⟩ := h.cases
    · exact .nothing _
    · exact create_ok hb
  | getTicket =>
    obtain rfl | ⟨ticket, hticket⟩ := h.cases
    · exact .nothing _
    · exact get_ok hticket ▸ .nothing _
  | claim =>
    obtain rfl | ⟨ticket, hticket⟩ := h.cases
    · exact .nothing _
    · exact claim_ok hticket
  | releaseClaim =>
    obtain rfl | ⟨u, hu⟩ := h.cases
    · exact .nothing _
    · exact releaseClaim_ok hu
  | complete id claimID =>
    obtain rfl | ⟨u, hu⟩ := h.cases
    · exact .nothing _
    · obtain ⟨hticket, hclaim, rfl⟩ := complete_ok hu
      exact .complete id claimID hticket hclaim
  | deleteTicket =>
    obtain rfl | ⟨u, hu⟩ := h.cases
    · exact .nothing _
    · exact delete_ok hu
  | publish process a =>
    obtain ⟨m, hm, -, rfl⟩ | ⟨-, -, rfl⟩ := h
    · exact publish_eq_some hm ▸ .publish process a
    · exact .nothing _
  | createAccount username identity =>
    obtain ⟨id, d, hd, rfl, -⟩ | ⟨rfl, -⟩ := h
    · exact .createAccount id username identity d hd
    · exact .nothing _
  | createLogin process account identity =>
    obtain rfl | rfl := h
    · exact .nothing _
    · exact .createLogin process account identity
  | now => exact h.2 ▸ .nothing _
  | memoryIdentity | memoryGet | accountByIdentity | listAccounts => exact h.1 ▸ .nothing _
  | registerAccess => exact h ▸ .nothing _

theorem extends_of_next (h : (pool rules).Next s s') : s.directory.Extends s'.directory := by
  obtain hdrift | ⟨c, r, hserves⟩ := h
  · cases hdrift with
    | tick | load => exact .refl _
    | develop _ _ _ hd => exact extends_insert? hd
    | login => exact extends_recordLogin _ _ _
  · cases writes_of_serves hserves with
    | createAccount _ _ _ _ hd => exact extends_insert? hd
    | createLogin => exact extends_recordLogin _ _ _
    | _ => exact .refl _

theorem issued_of_next (h : (pool rules).Next s s') : s.issued ⊆ s'.issued := by
  obtain hdrift | ⟨c, r, hserves⟩ := h
  · cases hdrift <;> exact List.Subset.refl _
  · cases writes_of_serves hserves with
    | random => exact subset_cons_self _ _
    | _ => exact List.Subset.refl _

theorem setTicket_of_arises (h : e.Lawful (pool rules)) {id : String}
    (hbefore : e.before.tickets id = none) (hafter : e.after.tickets id ≠ none) :
    ∃ i ticket r, e.cause = some (i, ⟨.setTicket id ticket, r⟩) := by
  obtain ⟨_ | ⟨i, c, r⟩, s, s'⟩ := e
  · have hdrift : Drifts s s' := h
    cases hdrift <;> exact absurd hbefore hafter
  · have hgone (id' : String) : (s.setTicket id' none).tickets id = none := by
      by_cases hid : id = id'
      · subst hid
        exact update_self ..
      · exact (update_of_ne hid ..).trans hbefore
    have hserves : serves rules s c r s' := h
    cases writes_of_serves hserves with
    | setTicket id' ticket =>
      by_cases hid : id = id'
      · subst hid
        exact ⟨i, ticket, r, rfl⟩
      · exact absurd ((update_of_ne hid ..).trans hbefore) hafter
    | complete id' | deleteTicket id' => exact absurd (hgone id') hafter
    | _ => exact absurd hbefore hafter

/-! ## Random values -/

theorem eq_of_drawn (h : (pool rules).Reachable w) {v : String}
    (hi : (⟨.random, some v⟩ : Entry) ∈ history w.log i)
    (hj : (⟨.random, some v⟩ : Entry) ∈ history w.log j) : i = j := by
  refine eq_of_mem_history ?_ hi hj
  refine h.pairwise_not_cause (T := fun s => v ∈ s.issued)
    (fun hnext hv => issued_of_next hnext hv) ?_
  rintro e hlawful ⟨k, x⟩ hcause rfl
  obtain ⟨hnone, -⟩ | ⟨v', hv', hv, hs⟩ := hlawful.serves hcause
  · cases hnone
  · obtain rfl := some.inj hv
    exact ⟨hv', hs ▸ mem_cons_self⟩

theorem setTicket_once (h : (pool rules).Reachable w) (hlog : w.log = l₁ ++ e :: l₂) {id : String}
    {ticket ticket' : Ticket} {r r' : Except RegistrationError Bool} {d : Event} (hd : d ∈ l₂)
    (he : e.cause = some (i, ⟨.setTicket id ticket, r⟩)) :
    d.cause ≠ some (j, ⟨.setTicket id ticket', r'⟩) := by
  intro hd'
  obtain ⟨l₃, l₄, rfl⟩ := append_of_mem hd
  have hlog' : w.log = (l₁ ++ e :: l₃) ++ d :: l₄ := by simp [hlog]
  have hrules := (h.guarded obeys_of_starts).log
  obtain ⟨csrf, now, hi⟩ := hrules _ _ _ _ _ hlog he
  obtain ⟨csrf', now', hj⟩ := hrules _ _ _ _ _ hlog' hd'
  obtain ⟨w₁, hw₁, hlog₁, -⟩ := h.cut hlog'
  -- both were made as the fourth call of the turn that drew the id
  have hgrows : history (l₁ ++ e :: l₃) i =
      history l₁ i ++ ⟨.setTicket id ticket, r⟩ :: history l₃ i := by
    rw [← singleton_append, ← append_assoc, history_append,
      history_snoc_self he, append_assoc, singleton_append]
  obtain rfl : i = j := by
    refine eq_of_drawn hw₁ (v := id) ?_ ?_ <;> rw [hlog₁]
    · simp [hgrows, hi]
    · simp [hj]
  have hlength := congrArg List.length (hgrows.symm.trans hj)
  simp [hi] at hlength

/-! ## Claims -/

/-- The live claim of the ticket was drawn by the turn. -/
def HeldBy (log : List Event) (s : Shared) (i : ℕ) (id : String) : Prop :=
  ∃ claimID, s.liveClaim id = some claimID ∧ (⟨.random, some claimID⟩ : Entry) ∈ history log i

theorem HeldBy.eq (h : (pool rules).Reachable w) {s : Shared} {id : String}
    (hi : HeldBy w.log s i id) (hj : HeldBy w.log s j id) : i = j := by
  obtain ⟨c, hc, hdrawn⟩ := hi
  obtain ⟨c', hc', hdrawn'⟩ := hj
  obtain rfl : c = c' := mem_unique hc hc'
  exact eq_of_drawn h hdrawn hdrawn'

/-- A turn completes a ticket: the script has its effect, whether or not the turn is told. -/
def Completes (e : Event) (i : ℕ) (id : String) : Prop :=
  ∃ claimID r, e.cause = some (i, ⟨.complete id claimID, r⟩) ∧
    (r = .ok () ∨ e.after.tickets id ≠ e.before.tickets id)

/-- A turn releases a claim or cancels a ticket. -/
def Frees (e : Event) (i : ℕ) : Prop :=
  (∃ id claimID r, e.cause = some (i, ⟨.releaseClaim id claimID, r⟩)) ∨
    ∃ id r, e.cause = some (i, ⟨.deleteTicket id, r⟩)

theorem Completes.found (h : e.Lawful (pool rules)) {id : String} (hcompletes : Completes e i id) :
    ∃ claimID r, e.cause = some (i, ⟨.complete id claimID, r⟩) ∧
      e.before.liveTicket id ≠ none ∧ e.before.liveClaim id = some claimID ∧
      e.after.tickets id = none := by
  obtain ⟨claimID, r, hcause, heffect⟩ := hcompletes
  have hserves : Served (complete e.before id claimID) .unavailable e.before r e.after :=
    h.serves hcause
  have hok : ∃ u, complete e.before id claimID = .ok (e.after, u) := by
    obtain ⟨u, hu, -⟩ | ⟨hsame, hr⟩ := hserves
    · exact ⟨u, hu⟩
    · obtain rfl | hne := heffect
      · simp at hr
      · exact absurd (congrArg (fun s => Shared.tickets s id) hsame) hne
  obtain ⟨u, hu⟩ := hok
  obtain ⟨hticket, hclaim, hafter⟩ := complete_ok hu
  refine ⟨claimID, r, hcause, hticket, hclaim, ?_⟩
  rw [hafter]
  exact update_self ..

theorem tickets_of_liveTicket {id : String} (h : s.liveTicket id ≠ none) : s.tickets id ≠ none := by
  intro hnone
  simp [Shared.liveTicket, hnone] at h

section
variable (h : (pool rules).Reachable w) (hlog : w.log = l₁ ++ e :: l₂)
include h hlog

theorem Completes.heldBy {id : String} (hcompletes : Completes e i id) :
    HeldBy l₁ e.before i id := by
  have hlawful := h.chronicle.lawful e (by simp [hlog])
  obtain ⟨claimID, r, hcause, -, hclaim, -⟩ := hcompletes.found hlawful
  exact ⟨claimID, hclaim, ((h.guarded obeys_of_starts).log _ _ _ _ _ hlog hcause).1⟩

theorem Completes.once {id : String} (hcompletes : Completes e i id) {d : Event} (hd : d ∈ l₂) :
    ¬Completes d j id := by
  intro hagain
  obtain ⟨l₃, l₄, rfl⟩ := append_of_mem hd
  have hlog' : w.log = (l₁ ++ e :: l₃) ++ d :: l₄ := by simp [hlog]
  have hlawful {f : Event} (hf : f ∈ w.log) : f.Lawful (pool rules) := h.chronicle.lawful f hf
  obtain ⟨-, -, -, hticket, -, hgone⟩ := hcompletes.found (hlawful (by simp [hlog]))
  obtain ⟨-, -, -, hticket', -⟩ := hagain.found (hlawful (by simp [hlog']))
  obtain ⟨w₁, hw₁, hlog₁, hshared₁⟩ := h.cut hlog
  obtain ⟨w₂, hw₂, hlog₂, hshared₂⟩ := h.cut hlog'
  -- it was created before the first completion, and again between the two
  obtain ⟨a, f, b, hf, hfbefore, hfafter⟩ := hw₁.exists_event (P := fun s => s.tickets id ≠ none)
    (fun hinit => hinit rfl) (hshared₁ ▸ tickets_of_liveTicket hticket)
  obtain ⟨a', f', b', hf', hfbefore', hfafter'⟩ := hw₂.arises (P := fun s => s.tickets id ≠ none)
    hlog₂ (fun hne => hne hgone) (hshared₂ ▸ tickets_of_liveTicket hticket')
  have hl₁ : l₁ = a ++ f :: b := hlog₁ ▸ hf
  obtain ⟨k, ticket, r, hcreate⟩ :=
    setTicket_of_arises (hlawful (by simp [hlog, hl₁])) (not_not.mp hfbefore) hfafter
  obtain ⟨k', ticket', r', hcreate'⟩ :=
    setTicket_of_arises (hlawful (by simp [hlog, hf'])) (not_not.mp hfbefore') hfafter'
  have hsplit : w.log = a ++ f :: (b ++ e :: (l₃ ++ d :: l₄)) := by simp [hlog, hl₁]
  exact setTicket_once h hsplit (by simp [hf']) hcreate hcreate'

theorem Frees.keeps {id : String} (hfrees : Frees e i) (hij : j ≠ i)
    (hheld : HeldBy l₁ e.before j id) :
    e.after.tickets id = e.before.tickets id ∧ e.after.claims id = e.before.claims id := by
  have hlawful := h.chronicle.lawful e (by simp [hlog])
  obtain ⟨cause, s, s'⟩ := e
  obtain ⟨id', claimID, r, rfl⟩ | ⟨id', r, rfl⟩ := hfrees
  · have hserves : serves rules s (.releaseClaim id' claimID) r s' := hlawful
    cases writes_of_serves hserves with
    | nothing => exact ⟨rfl, rfl⟩
    | releaseClaim _ _ hclaim =>
      refine ⟨rfl, update_of_ne ?_ ..⟩
      rintro rfl
      obtain ⟨w₁, hw₁, rfl, -⟩ := h.cut hlog
      have hdrawn := (h.guarded obeys_of_starts).log _ _ _ _ _ hlog rfl
      exact hij (hheld.eq hw₁ ⟨claimID, hclaim, hdrawn⟩)
  · have hserves : serves rules s (.deleteTicket id') r s' := hlawful
    cases writes_of_serves hserves with
    | nothing => exact ⟨rfl, rfl⟩
    | deleteTicket _ hclaim =>
      refine ⟨update_of_ne ?_ .., rfl⟩
      rintro rfl
      obtain ⟨c, hc, -⟩ := hheld
      rw [hclaim] at hc
      cases hc

/-! ## Accounts -/

def Stored (s : Shared) (a : Account) : Prop := ∃ row ∈ s.directory.accounts, a.Same row

end

theorem Stored.next (h : Stored s a) (hnext : (pool rules).Next s s') : Stored s' a := by
  obtain ⟨row, hrow, hsame⟩ := h
  obtain ⟨row', hrow', hsame'⟩ := extends_of_next hnext row hrow
  exact ⟨row', hrow', hsame.trans hsame'⟩

theorem Stored.later (h : Stored s a) (hlater : (pool rules).Later s s') : Stored s' a := by
  induction hlater with
  | refl => exact h
  | tail _ hnext ih => exact ih.next hnext

section
variable (h : (pool rules).Reachable w)
include h

theorem stored_of_event {x : Entry} (hx : x ∈ history w.log i)
    (hstored : ∀ s s', serves rules s x.1 x.2 s' → Stored s' a) : Stored w.shared a := by
  obtain ⟨e, he, hcause⟩ := exists_event_of_mem_history hx
  have hserves := (h.chronicle.lawful e he).serves hcause
  exact (hstored _ _ hserves).later (h.chronicle.now e he)

theorem Read.stored (hread : Read (history w.log i) a) : Stored w.shared a := by
  obtain ⟨key, hkey⟩ | ⟨username, identity, hcreate⟩ := hread
  · refine stored_of_event h hkey fun s s' hserves => ?_
    obtain ⟨rfl, hr | hr⟩ := hserves
    · cases hr
    · have hfound := Except.ok.inj hr
      exact ⟨a, (byIdentity_eq_some hfound.symm).1, .refl a⟩
  · refine stored_of_event h hcreate fun s s' hserves => ?_
    obtain ⟨id, d, hd, rfl, hr | hr⟩ | ⟨rfl, hr⟩ := hserves
    · obtain rfl := Except.ok.inj hr
      exact ⟨_, (mem_insert? hd).mpr (.inr rfl), .refl _⟩
    · cases hr
    · simp at hr

theorem stored_of_memory : ∀ process, ∀ a ∈ w.shared.memory process, Stored w.shared a := by
  refine Pool.Reachable.of_events (J := fun s _ => ∀ process, ∀ a ∈ s.memory process, Stored s a)
    obeys_of_starts (by simp [pool]) ?_ h
  intro w e hw hmemory hbefore hlawful hrule
  have hkeep {a : Account} (ha : Stored e.before a) : Stored e.after a := ha.next hlawful.next
  rw [← hbefore] at hmemory
  -- only a process that starts, and one that takes an account in, gets a new account
  have hupdate {process : ℕ} {m : Table Account.id} (hm : ∀ a ∈ m, Stored e.before a)
      (hafter : e.after.memory = update e.before.memory process m) :
      ∀ process', ∀ a ∈ e.after.memory process', Stored e.after a := by
    intro process' a ha
    rw [hafter] at ha
    by_cases heq : process' = process
    · subst heq
      rw [update_self] at ha
      exact hkeep (hm a ha)
    · rw [update_of_ne heq] at ha
      exact hkeep (hmemory process' a ha)
  have hsame (hafter : e.after.memory = e.before.memory) :
      ∀ process, ∀ a ∈ e.after.memory process, Stored e.after a := by
    intro process a ha
    rw [hafter] at ha
    exact hkeep (hmemory process a ha)
  obtain ⟨_ | ⟨i, c, r⟩, s, s'⟩ := e
  · have hdrift : Drifts s s' := hlawful
    cases hdrift with
    | load => exact hupdate (fun a ha => ⟨a, ha, .refl a⟩) rfl
    | tick | develop | login => exact hsame rfl
  · have hserves : serves rules s c r s' := hlawful
    cases writes_of_serves hserves with
    | publish process a =>
      have hread : Read (history w.log i) a := hrule i _ rfl
      refine hupdate (fun b hb => ?_) rfl
      rcases Table.mem_upsert.mp hb with rfl | ⟨hb, -⟩
      · exact hbefore ▸ hread.stored hw
      · exact hmemory process b hb
    | _ => exact hsame rfl

theorem Known.stored {id : ℕ} {key : IdentityKey} (hknown : Known (history w.log i) id key) :
    ∃ a, a.id = id ∧ a.key = some key ∧ Stored w.shared a := by
  obtain ⟨process, hentry⟩ | ⟨a, hid, hkey, hread⟩ := hknown
  · obtain ⟨e, he, hcause⟩ := exists_event_of_mem_history hentry
    obtain ⟨l₁, l₂, hlog⟩ := append_of_mem he
    obtain ⟨w₁, hw₁, -, hshared₁⟩ := h.cut hlog
    obtain ⟨hafter, hfound⟩ := (h.chronicle.lawful e he).serves hcause
    obtain ⟨a, ha, rfl⟩ := map_eq_some_iff.mp hfound.symm
    have hmem : a ∈ e.before.memory process := mem_of_find?_eq_some ha
    refine ⟨a, rfl, by simpa using find?_some ha, ?_⟩
    have hstored := stored_of_memory hw₁ process a (hshared₁ ▸ hmem)
    exact (hafter ▸ hshared₁ ▸ hstored : Stored e.after a).later (h.chronicle.now e he)
  · exact ⟨a, hid, hkey, hread.stored h⟩

theorem row_of_given {account : ℕ} {key : IdentityKey}
    (hgiven : Given (history w.log i) account key) :
    ∃ row ∈ w.shared.directory.accounts, row.id = account ∧ row.key = some key := by
  obtain ⟨process, id, a, hget, rfl, hknown⟩ := hgiven
  obtain ⟨e, he, hcause⟩ := exists_event_of_mem_history hget
  obtain ⟨-, hfound⟩ := (h.chronicle.lawful e he).serves hcause
  obtain ⟨b, hid, hkey, row, hrow, hsame⟩ := hknown.stored h
  refine ⟨row, hrow, ?_, hsame.2.2.1.trans hkey⟩
  exact hsame.1.trans (hid.trans (Table.key_of_get? hfound.symm).symm)

end

/-! ## The guarantees -/

/-- In every interleaving of submissions, retries and cancellations, with claims that expire
and functions that stop anywhere: a ticket is completed at most once, and by the one turn
that holds its live claim; releasing and cancelling leave the tickets and the claims that
other turns hold; and whoever gets as far as logging in has consumed a ticket for the
identity, and logs in to the only account that has it. -/
theorem registrations_agree (h : (pool rules).Reachable w) :
    (∀ l₁ e l₂ i id, w.log = l₁ ++ e :: l₂ → Completes e i id →
      (∀ j, HeldBy l₁ e.before j id ↔ j = i) ∧ ∀ d ∈ l₂, ∀ j, ¬Completes d j id) ∧
    (∀ l₁ e l₂ i, w.log = l₁ ++ e :: l₂ → Frees e i →
      ∀ j id, j ≠ i → HeldBy l₁ e.before j id →
        e.after.tickets id = e.before.tickets id ∧ e.after.claims id = e.before.claims id) ∧
    ∀ i process account identity r,
      (⟨.createLogin process account identity, r⟩ : Entry) ∈ history w.log i →
      Consumed (history w.log i) identity ∧
      ∃ row ∈ w.shared.directory.accounts, row.id = account ∧ row.key = some identity.key ∧
        ∀ row' ∈ w.shared.directory.accounts, row'.key = some identity.key → row' = row := by
  refine ⟨fun l₁ e l₂ i id hlog hcompletes => ⟨fun j => ⟨fun hheld => ?_, ?_⟩, ?_⟩, ?_, ?_⟩
  · obtain ⟨w₁, hw₁, rfl, -⟩ := h.cut hlog
    exact hheld.eq hw₁ (hcompletes.heldBy h hlog)
  · rintro rfl
    exact hcompletes.heldBy h hlog
  · exact fun d hd j => hcompletes.once h hlog hd
  · exact fun l₁ e l₂ i hlog hfrees j id hij hheld => hfrees.keeps h hlog hij hheld
  · intro i process account identity r hlogin
    obtain ⟨e, he, hcause⟩ := exists_event_of_mem_history hlogin
    obtain ⟨l₁, l₂, hlog⟩ := append_of_mem he
    obtain ⟨hgiven, hconsumed⟩ := (h.guarded obeys_of_starts).log _ _ _ _ _ hlog hcause
    have hsub : history l₁ i ⊆ history w.log i := by
      rw [hlog, history_append]
      exact subset_append_left _ _
    obtain ⟨row, hrow, hid, hkey⟩ := row_of_given h (hgiven.mono hsub)
    refine ⟨hconsumed.mono hsub, row, hrow, hid, hkey, fun row' hrow' hkey' => ?_⟩
    refine w.shared.directory.identities row' hrow' row hrow ?_ ?_ (hkey'.trans hkey.symm)
    · simp [hkey']
    · simp [hkey]

/-! ## A retry -/

def draw (s : Shared) : String :=
  String.ofList (List.replicate 43 (Char.ofNat (97 + s.issued.length)))

def answer (rules : Rules) (s : Shared) : (c : Call) → c.Reply × Shared
  | .now => (s.now, s)
  | .random =>
    if draw s ∈ s.issued then (none, s)
    else (some (draw s), { s with issued := draw s :: s.issued })
  | .setTicket id ticket => outcome (Redis.create s id ticket) s
  | .getTicket id => outcome (Redis.get s id) s
  | .claim id claimID => outcome (Redis.claim s id claimID) s
  | .releaseClaim id claimID => outcome (Redis.releaseClaim s id claimID) s
  | .complete id claimID => outcome (Redis.complete s id claimID) s
  | .deleteTicket id => outcome (Redis.delete s id) s
  | .memoryIdentity process key =>
    (((s.memory process).rows.find? fun a => a.key = some key).map Account.id, s)
  | .memoryGet process account => ((s.memory process).get? account, s)
  | .publish process a =>
    match publish rules (s.memory process) a with
    | some m => (true, s.setMemory process m)
    | none => (false, s)
  | .accountByIdentity key => (.ok (s.directory.byIdentity key), s)
  | .createAccount username identity =>
    let account : Account :=
      .ofRegistration (s.directory.accounts.rows.length + 1) username identity
    match s.directory.insert? account with
    | some d => (.ok account, s.setDirectory d)
    | none => (.error .database, s)
  | .listAccounts => (.ok s.directory.accounts.rows, s)
  | .registerAccess .. => (true, s)
  | .createLogin _ account identity =>
    (.ok (), s.setDirectory (s.directory.recordLogin account identity))

theorem serves_answer (rules : Rules) (s : Shared) (c : Call) :
    serves rules s c (answer rules s c).1 (answer rules s c).2 := by
  cases c with
  | now | memoryIdentity | memoryGet => exact ⟨rfl, rfl⟩
  | random =>
    by_cases h : draw s ∈ s.issued
    · simp only [answer, h, if_true]
      exact .inl ⟨rfl, rfl⟩
    · simp only [answer, h, if_false]
      exact .inr ⟨draw s, h, rfl, rfl⟩
  | publish process a =>
    cases h : publish rules (s.memory process) a with
    | some m =>
      simp only [answer, h]
      exact .inl ⟨m, h, rfl, rfl⟩
    | none =>
      simp only [answer, h]
      exact .inr ⟨h, rfl, rfl⟩
  | accountByIdentity | listAccounts => exact ⟨rfl, .inr rfl⟩
  | createAccount username identity =>
    cases h : s.directory.insert? (.ofRegistration (s.directory.accounts.rows.length + 1) username
        identity) with
    | some d =>
      simp only [answer, h]
      exact .inl ⟨_, d, h, rfl, .inl rfl⟩
    | none =>
      simp only [answer, h]
      exact .inr ⟨rfl, .inl rfl⟩
  | registerAccess => rfl
  | createLogin => exact .inr rfl
  | _ => exact served_outcome _ RegistrationError.unavailable s

namespace Sample

def noBlocklist : Rules := ⟨[], fun returnTo _ => returnTo⟩

def responder : (pool noBlocklist).Responder where
  answer s c := some (answer noBlocklist s c)
  lawful {s c r s'} h := by
    obtain ⟨rfl, rfl⟩ := Prod.mk.inj (some.inj h)
    exact serves_answer noBlocklist s c

def identity : Identity := ⟨.google, "subject", "mail", .member⟩

/-- The values in the order in which they are drawn: the id of the ticket, the secret in it,
and the owner of the first claim. -/
def id : String := String.ofList (List.replicate 43 'a')
def csrfSecret : String := String.ofList (List.replicate 43 'b')
def owner : String := String.ofList (List.replicate 43 'c')

/-- A submission creates the account and stalls.  A cancellation is refused.  When the claim
has expired a retry at another process completes the ticket, and the first submission goes
on. -/
def retried : World := script (S := pool noBlocklist)
  [.start 0 _ (.begins identity "/"), .calls responder 0 4,
    .start 1 _ (.create 0 (some id) (some ⟨"alice", csrfSecret⟩)), .calls responder 1 9,
    .start 2 _ (.delete (some id) csrfSecret), .calls responder 2 3,
    .drift (fun s => some { s with now := s.now + 61 }) (by
      rintro s _ ⟨rfl⟩
      exact .tick _ (Nat.le_add_right _ _)),
    .start 3 _ (.create 1 (some id) (some ⟨"alice", csrfSecret⟩)), .calls responder 3 13,
    .calls responder 1 9]

def completes (e : Event) : Bool :=
  match e.cause with
  | some (3, ⟨.complete id' _, .ok _⟩) => id' = id
  | _ => false

def cancels (e : Event) : Bool :=
  match e.cause with
  | some (2, ⟨.deleteTicket _, _⟩) => e.before.liveClaim id = some owner
  | _ => false

def draws (i : ℕ) (v : String) (e : Event) : Bool :=
  match e.cause with
  | some (j, ⟨.random, some v'⟩) => j = i && v' = v
  | _ => false

theorem drawn_of_draws {i : ℕ} {v : String} {l : List Event} (h : l.any (draws i v)) :
    (⟨.random, some v⟩ : Entry) ∈ history l i := by
  obtain ⟨e, he, hdraws⟩ := any_eq_true.mp h
  refine mem_filterMap.mpr ⟨e, he, Pool.Event.entry_eq_some.mpr ?_⟩
  unfold draws at hdraws
  split at hdraws
  · simp_all
  · cases hdraws

def logsIn (e : Event) : Bool :=
  match e.cause with
  | some (3, ⟨.createLogin 1 1 identity', .ok _⟩) => identity' = identity
  | _ => false

end Sample

/-- The retry completes the ticket and is given the account that the first submission
created; the cancellation left the claim of the first submission. -/
theorem retry_completes :
    (∃ l₁ e l₂, Sample.retried.log = l₁ ++ e :: l₂ ∧ Completes e 3 Sample.id ∧
      (∀ j, HeldBy l₁ e.before j Sample.id ↔ j = 3) ∧ ∀ d ∈ l₂, ∀ j, ¬Completes d j Sample.id) ∧
    (∃ l₁ e l₂, Sample.retried.log = l₁ ++ e :: l₂ ∧ Frees e 2 ∧
      HeldBy l₁ e.before 1 Sample.id ∧ e.after.tickets Sample.id = e.before.tickets Sample.id ∧
      e.after.claims Sample.id = e.before.claims Sample.id) ∧
    ∃ row ∈ Sample.retried.shared.directory.accounts, row.id = 1 ∧
      ∀ row' ∈ Sample.retried.shared.directory.accounts,
        row'.key = some Sample.identity.key → row' = row := by
  have hw : (pool Sample.noBlocklist).Reachable Sample.retried := reachable_script _
  obtain ⟨hcompletes, hfrees, hlogins⟩ := registrations_agree hw
  have hc : Sample.retried.log.any Sample.completes := by decide +kernel
  have hd : Sample.retried.log.any Sample.cancels := by decide +kernel
  have hl : Sample.retried.log.any Sample.logsIn := by decide +kernel
  have hdrawn : (Sample.retried.log.takeWhile fun e => !Sample.cancels e).any
      (Sample.draws 1 Sample.owner) := by decide +kernel
  refine ⟨?_, ?_, ?_⟩
  · obtain ⟨e, hlog, he⟩ := split_at_first hc
    have he : Completes e 3 Sample.id := by
      unfold Sample.completes at he
      split at he
      · rename_i id' claimID _ hcause
        obtain rfl : id' = Sample.id := by simpa using he
        exact ⟨claimID, _, hcause, .inl rfl⟩
      · cases he
    exact ⟨_, e, _, hlog, he, hcompletes _ e _ 3 Sample.id hlog he⟩
  · obtain ⟨e, hlog, he⟩ := split_at_first hd
    unfold Sample.cancels at he
    split at he
    · rename_i id' r hcause
      have hfree : Frees e 2 := .inr ⟨id', r, hcause⟩
      have hheld : HeldBy _ e.before 1 Sample.id :=
        ⟨_, by simpa using he, Sample.drawn_of_draws hdrawn⟩
      exact ⟨_, e, _, hlog, hfree, hheld, hfrees _ e _ 2 hlog hfree 1 Sample.id (by decide) hheld⟩
    · cases he
  · obtain ⟨e, he, hlogs⟩ := any_eq_true.mp hl
    unfold Sample.logsIn at hlogs
    split at hlogs
    · rename_i identity' _ hcause
      obtain rfl : identity' = Sample.identity := by simpa using hlogs
      have hentry := mem_filterMap.mpr ⟨e, he, Pool.Event.entry_eq_some.mpr hcause⟩
      obtain ⟨-, row, hrow, hid, -, hunique⟩ := hlogins 3 1 1 Sample.identity _ hentry
      exact ⟨row, hrow, hid, hunique⟩
    · cases hlogs

end Athena.Registration
