import Athena.Sessions.State
import Mathlib.Data.Sigma.Basic

/-!
# Revoked tokens stay revoked

A token that was revoked in a process is revoked there until it expires: either the
revocation is still pending, or Redis holds it and the synchronization in progress, if
there is one, will find it.  The second is kept from one synchronization to the next
because a key of Redis outlives the token, and a scan reports what was there all the time.
-/

namespace Athena.Sessions

open Athena.Lib Table Function Pool Option Program Shared
open Athena.Lib.Pool (history)

/-! ## The rules of the functions -/

def Noted (h : List Entry) (n : Notice) : Prop :=
  (∃ p, (⟨.enter p n, ()⟩ : Entry) ∈ h) ∨
    ∃ p l, (⟨.readPending p, l⟩ : Entry) ∈ h ∧ n ∈ l

/-- A key is written for a revocation, with the time that was left at an earlier time. -/
def Rule (_ : ℕ) (h : List Entry) : Call → Prop
  | .enter _ n => n.id ≠ ""
  | .set id ttl => ∃ t, (⟨.now, t⟩ : Entry) ∈ h ∧ Noted h ⟨id, t + ttl⟩
  | _ => True

section programs
variable {i : ℕ} {h : List Entry}

theorem guards_accept_bind {α : Type} {reply : Except RedisError Unit} {f : Unit → Handler α}
    (hf : (f ()).Guards (Rule i) (fun _ _ => True) h) :
    (accept reply >>= f).Guards (Rule i) (fun _ _ => True) h := by
  cases reply with
  | ok => exact hf
  | error => trivial

variable {process : ℕ}

theorem keeps_revokeToken {configured : Bool} {id : String} {expiringAt : ℤ} :
    (revokeToken configured process id expiringAt).Guards (Rule i) (fun _ _ => True) [] := by
  unfold revokeToken
  split
  · trivial
  split
  · trivial
  rename_i hvalid
  refine guards_ask_bind.mpr ⟨trivial, fun now => ?_⟩
  refine guards_ask_bind.mpr ⟨fun hid => hvalid (.inl hid), fun _ => ?_⟩
  refine guards_ask_bind.mpr ⟨⟨now, by simp, .inl ⟨process, by simp⟩⟩, fun _ => ?_⟩
  refine guards_accept_bind (guards_ask_bind.mpr ⟨trivial, fun reply => ?_⟩)
  cases reply <;> trivial

theorem keeps_receiveNotice {notice : Notice} :
    (receiveNotice process notice).Guards (Rule i) (fun _ _ => True) [] := by
  unfold receiveNotice
  split
  · trivial
  rename_i hid
  refine guards_ask_bind.mpr ⟨trivial, fun now => ?_⟩
  split
  · exact ⟨hid, fun _ => trivial⟩
  · trivial

theorem keeps_persistAll (process : ℕ) {now : ℕ} (pending : List Notice) {rest : List Notice}
    (hpending : (⟨.readPending process, pending⟩ : Entry) ∈ h) (hnow : (⟨.now, now⟩ : Entry) ∈ h)
    (hrest : rest ⊆ pending) :
    (persistAll now rest).Guards (Rule i) (fun _ _ => True) h := by
  induction rest generalizing h with
  | nil => trivial
  | cons _ _ ih =>
    obtain ⟨hn, hrest⟩ := List.cons_subset.mp hrest
    unfold persistAll
    split
    · rename_i hlt
      refine guards_ask_bind.mpr ⟨⟨now, hnow, .inr ⟨process, pending, hpending, ?_⟩⟩,
        fun _ => guards_accept_bind (ih ?_ ?_ hrest)⟩
      · rwa [Nat.add_sub_of_le hlt.le]
      · exact List.mem_append_left _ hpending
      · exact List.mem_append_left _ hnow
    · exact ih hpending hnow hrest

theorem keeps_loadRevokedTokens :
    (loadRevokedTokens process).Guards (Rule i) (fun _ _ => True) h := by
  have hpersist : (persistPendingRevocations process).Guards (Rule i) (fun _ _ => True) h := by
    refine guards_ask_bind.mpr ⟨trivial, fun pending => ?_⟩
    refine guards_ask_bind.mpr ⟨trivial, fun now => ?_⟩
    exact keeps_persistAll process pending (by simp) (by simp)
      (List.Subset.refl _)
  refine hpersist.bind (fun h' _ _ _ => ?_) fun _ _ _ _ => trivial
  refine guards_ask_bind.mpr ⟨trivial, fun _ => ?_⟩
  refine guards_ask_bind.mpr ⟨trivial, fun reply => guards_accept_bind ?_⟩
  exact ⟨trivial, fun _ => trivial⟩

theorem keeps_synchronize {n : ℕ} :
    (synchronize process n).Guards (Rule i) (fun _ _ => True) h := by
  induction n generalizing h with
  | zero => trivial
  | succ n ih =>
    have hload : (loadRevokedTokens process).attempt.Guards (Rule i) (fun _ _ => True) h :=
      guards_attempt.mpr keeps_loadRevokedTokens
    exact hload.bind (fun h' _ _ _ => ih) fun _ _ _ _ => trivial

theorem keeps_of_starts {requests : ℕ → Request} (i : ℕ) (p : Handler Unit)
    (hp : (pool requests).starts i p) : p.Guards (Rule i) (fun _ _ => True) [] := by
  obtain ⟨process, n, -, rfl⟩ | ⟨j, -, rfl⟩ := hp
  · exact keeps_synchronize
  · cases requests j with
    | revoke => exact keeps_revokeToken
    | receive => exact keeps_receiveNotice

end programs

/-! ## What a call changes -/

def Shared.assign (s : Shared) (q : ℕ) (process : Process) (scan : Option Scan) : Shared :=
  { s with processes := update s.processes q process, scans := update s.scans q scan }

/-- What a call makes of the memory and of the scan of a process. -/
inductive Changes (s : Shared) (q : ℕ) : Call → Process → Option Scan → Prop
  | enter (n : Notice) : Changes s q (.enter q n) ((s.processes q).enter n) (s.scans q)
  | install (found : List String) : (s.processes q).found = some found →
      Changes s q (.install q) ((s.processes q).install s.now found) (s.scans q)
  | reset {c} : Changes s q c { s.processes q with found := none } none
  | begins {c} : Changes s q c { s.processes q with found := none }
      (some ⟨s.keysAt s.now, s.keysAt s.now⟩)
  | ends {c} (scan : Scan) (found : List String) : s.scans q = some scan →
      scan.since ⊆ found → found ⊆ scan.ever →
      Changes s q c { s.processes q with found := some (found.filter (· ≠ "")) } none

theorem serves_cases {s s' : Shared} {c : Call} {r : c.Reply} (h : serves s c r s') :
    s' = s ∨ (∃ id ttl, c = .set id ttl ∧ s' = s.set id ttl) ∨
      ∃ q process scan, Changes s q c process scan ∧ s' = s.assign q process scan := by
  have hkept (q : ℕ) (f : Process → Process) :
      s.modify q f = s.assign q (f (s.processes q)) (s.scans q) := by
    simp [Shared.modify, Shared.assign]
  cases c with
  | now => exact .inl h.2
  | publish => exact .inl h
  | set id ttl =>
    obtain ⟨-, h⟩ | ⟨-, h | h⟩ := h
    · exact .inr (.inl ⟨id, ttl, rfl, h⟩)
    · exact .inl h
    · exact .inr (.inl ⟨id, ttl, rfl, h⟩)
  | enter q n => exact .inr (.inr ⟨q, _, _, .enter n, h.trans (hkept ..)⟩)
  | readPending q => exact .inr (.inr ⟨q, _, _, .reset, h.2⟩)
  | scanBegin q => exact .inr (.inr ⟨q, _, _, .begins, h⟩)
  | scanEnd q =>
    obtain ⟨-, h⟩ | ⟨-, scan, found, hscan, hsince, hever, h⟩ := h
    · exact .inr (.inr ⟨q, _, _, .reset, h⟩)
    · exact .inr (.inr ⟨q, _, _, .ends scan found hscan hsince hever, h⟩)
  | install q =>
    obtain ⟨found, hfound, h⟩ := h
    exact .inr (.inr ⟨q, _, _, .install found hfound, h.trans (hkept ..)⟩)

/-! ## Expiries -/

def SameExpiry (expiry : String → ℕ) (log : List Event) : Prop :=
  ∀ e ∈ log, ∀ i p n, e.cause = some (i, ⟨.enter p n, ()⟩) → n.expiresAt = expiry n.id

def Shared.HasKey (s : Shared) (id : String) : Prop := ∃ k ∈ s.redis, k.id = id

/-- What is pending carries the expiry of its token, and what Redis holds reaches it.  What
a scan reports is in Redis. -/
structure Agrees (expiry : String → ℕ) (s : Shared) : Prop where
  pending : ∀ p, ∀ n ∈ (s.processes p).pendingRevocations, n.expiresAt = expiry n.id
  redis : ∀ k ∈ s.redis, expiry k.id ≤ k.expires
  ever : ∀ p scan id, s.scans p = some scan → id ∈ scan.ever → s.HasKey id
  found : ∀ p l id, (s.processes p).found = some l → id ∈ l → s.HasKey id
  ended : ∀ p, (s.processes p).found.isSome → s.scans p = none

variable {requests : ℕ → Request} {expiry : String → ℕ} {s s' : Shared} {w : World} {p : ℕ}
    {id : String}
variable {c : Call} {e : Event} {t : ℕ}

theorem Shared.HasKey.set (h : s.HasKey id) (id' : String) (ttl : ℕ) :
    (s.set id' ttl).HasKey id := by
  obtain ⟨k, hk, rfl⟩ := h
  by_cases hid : k.id = id'
  · exact ⟨⟨id', s.now + ttl⟩, mem_upsert.mpr (.inl rfl), hid.symm⟩
  · exact ⟨k, mem_upsert.mpr (.inr ⟨hk, hid⟩), rfl⟩

theorem Shared.hasKey_set (s : Shared) (id : String) (ttl : ℕ) : (s.set id ttl).HasKey id :=
  ⟨⟨id, s.now + ttl⟩, mem_upsert.mpr (.inl rfl), rfl⟩

theorem Shared.mem_keysAt : id ∈ s.keysAt t ↔ ∃ k ∈ s.redis, t < k.expires ∧ k.id = id := by
  simp [keysAt, mem_rows, and_assoc]

theorem Agrees.set (h : Agrees expiry s) {ttl : ℕ} (hexpiry : expiry id ≤ s.now + ttl) :
    Agrees expiry (s.set id ttl) where
  pending := h.pending
  redis := by
    intro k hk
    obtain rfl | ⟨hk, -⟩ := mem_upsert.mp hk
    · exact hexpiry
    · exact h.redis k hk
  ever := by
    intro p scan id' hscan hever
    obtain ⟨scan', hscan', rfl⟩ := map_eq_some_iff.mp hscan
    obtain rfl | hever := List.mem_cons.mp hever
    · exact s.hasKey_set id' ttl
    · exact (h.ever p scan' id' hscan' hever).set id ttl
  found := fun p l id' hl hmem => (h.found p l id' hl hmem).set id ttl
  ended := fun p hp => by simp [Shared.set, h.ended p hp]

theorem Agrees.tick (h : Agrees expiry s) (t : ℕ) : Agrees expiry (s.tick t) where
  pending := h.pending
  redis := h.redis
  ever := by
    intro p scan id hscan hever
    obtain ⟨scan', hscan', rfl⟩ := map_eq_some_iff.mp hscan
    exact h.ever p scan' id hscan' hever
  found := h.found
  ended := fun p hp => by simp [Shared.tick, h.ended p hp]

theorem Agrees.assign (h : Agrees expiry s) {process : Process} {scan : Option Scan}
    (hpending : ∀ n ∈ process.pendingRevocations, n.expiresAt = expiry n.id)
    (hever : ∀ sc id, scan = some sc → id ∈ sc.ever → s.HasKey id)
    (hfound : ∀ l id, process.found = some l → id ∈ l → s.HasKey id)
    (hended : process.found.isSome → scan = none) : Agrees expiry (s.assign p process scan) := by
  refine ⟨fun q => ?_, h.redis, fun q sc id => ?_, fun q l id => ?_, fun q => ?_⟩ <;>
    obtain rfl | hq := eq_or_ne q p
  · simpa [Shared.assign] using hpending
  · simpa [Shared.assign, hq] using h.pending q
  · simpa [Shared.assign, Shared.HasKey] using hever sc id
  · simpa [Shared.assign, hq, Shared.HasKey] using h.ever q sc id
  · simpa [Shared.assign, Shared.HasKey] using hfound l id
  · simpa [Shared.assign, hq, Shared.HasKey] using h.found q l id
  · simpa [Shared.assign] using hended
  · simpa [Shared.assign, hq] using h.ended q

theorem Agrees.serves (h : Agrees expiry s) {r : c.Reply} (hserves : serves s c r s')
    (henter : ∀ p n, c = .enter p n → n.expiresAt = expiry n.id)
    (hset : ∀ id ttl, c = .set id ttl → expiry id ≤ s.now + ttl) : Agrees expiry s' := by
  obtain rfl | ⟨id, ttl, rfl, rfl⟩ | ⟨q, process, scan, hchange, rfl⟩ := serves_cases hserves
  · exact h
  · exact h.set (hset id ttl rfl)
  cases hchange with
  | enter =>
    refine h.assign (fun m hm => ?_) (h.ever q) (h.found q) (h.ended q)
    obtain rfl | ⟨hm, -⟩ := mem_upsert.mp hm
    · exact henter q _ rfl
    · exact h.pending q m hm
  | install =>
    exact h.assign (fun m hm => h.pending q m (mem_filter.mp hm).1) (h.ever q) nofun nofun
  | reset => exact h.assign (h.pending q) nofun nofun nofun
  | begins =>
    refine h.assign (h.pending q) ?_ nofun nofun
    rintro _ id ⟨rfl⟩ hlive
    obtain ⟨k, hk, -, rfl⟩ := mem_keysAt.mp hlive
    exact ⟨k, hk, rfl⟩
  | ends scan _ hscan _ hever =>
    refine h.assign (h.pending q) nofun ?_ fun _ => rfl
    rintro _ id ⟨rfl⟩ hid
    exact h.ever q scan id hscan (hever (List.mem_of_mem_filter hid))

theorem now_of_serves {r : c.Reply} (hserves : serves s c r s') : s'.now = s.now := by
  obtain rfl | ⟨_, _, -, rfl⟩ | ⟨_, _, _, -, rfl⟩ := serves_cases hserves <;> rfl

theorem steady_of_reachable (hw : (pool requests).Reachable w) (hsame : SameExpiry expiry w.log) :
    Pool.Steady (Agrees expiry) (fun s s' => s.now ≤ s'.now) w.shared w.log := by
  refine Pool.Reachable.of_events (P := Rule) (J := fun s log => SameExpiry expiry log →
    Pool.Steady (Agrees expiry) (fun s s' => s.now ≤ s'.now) s log) keeps_of_starts ?_ ?_ hw hsame
  · intro _
    refine .nil ⟨fun p n hn => ?_, fun k hk => ?_, nofun, nofun, nofun⟩
    · exact absurd hn (not_mem_empty n)
    · exact absurd hk (not_mem_empty k)
  rintro w ⟨cause, before, after⟩ hw ih rfl hlawful hrule hsame
  have hlast : (⟨cause, w.shared, after⟩ : Event) ∈ w.log ++ [⟨cause, w.shared, after⟩] := by simp
  have hs := ih fun e he => hsame e (List.mem_append_left _ he)
  refine Pool.Steady.snoc (fun s => le_refl s.now) (fun h h' => h.trans h') hs ?_
  cases cause with
  | none =>
    obtain ⟨t, ht, hafter⟩ : ∃ t, w.shared.now ≤ t ∧ after = w.shared.tick t := hlawful
    subst hafter
    exact ⟨hs.holds.tick t, ht⟩
  | some jx =>
    obtain ⟨j, c, r⟩ := jx
    have hserves : serves w.shared c r after := hlawful
    refine ⟨hs.holds.serves hserves ?_ ?_, (now_of_serves hserves).ge⟩
    · rintro p n rfl
      exact hsame _ hlast j p n rfl
    · rintro id ttl rfl
      obtain ⟨t, ht, hnoted⟩ := hrule j _ rfl
      -- the time to live was taken at an earlier time
      have hbefore : t ≤ w.shared.now := by
        obtain ⟨e, he, hcause⟩ := exists_event_of_mem_history ht
        obtain ⟨rfl, hsame⟩ := (hw.chronicle.lawful e he).serves hcause
        exact hsame ▸ hs.now e he
      have hexpiry : t + ttl = expiry id := by
        obtain ⟨p, hmem⟩ | ⟨p, l, hmem, hn⟩ := hnoted
        · obtain ⟨e, he, hcause⟩ := exists_event_of_mem_history hmem
          exact hsame e (List.mem_append_left _ he) j p _ hcause
        · obtain ⟨e, he, hcause⟩ := exists_event_of_mem_history hmem
          obtain ⟨hperm, -⟩ := (hw.chronicle.lawful e he).serves hcause
          exact (hs.events e he).1.pending p _ (hperm.subset hn)
      exact hexpiry ▸ Nat.add_le_add_right hbefore ttl

/-! ## What the next synchronization finds -/

/-- Redis holds the token, and what the synchronization of the process in progress has found
or will find contains it. -/
structure Covered (p : ℕ) (id : String) (s : Shared) : Prop where
  key : s.HasKey id
  scan : ∀ scan, s.scans p = some scan → id ∈ scan.since
  found : ∀ l, (s.processes p).found = some l → id ∈ l

def Revoked (p : ℕ) (id : String) (s : Shared) : Prop := (s.processes p).revokedTokens id

def IsPending (p : ℕ) (id : String) (s : Shared) : Prop :=
  ∃ n ∈ (s.processes p).pendingRevocations, n.id = id

theorem Agrees.mem_keysAt (h : Agrees expiry s) (hkey : s.HasKey id) (ht : t < expiry id) :
    id ∈ s.keysAt t := by
  obtain ⟨k, hk, rfl⟩ := hkey
  exact mem_keysAt.mpr ⟨k, hk, ht.trans_le (h.redis k hk), rfl⟩

theorem Covered.tick (h : Agrees expiry s) (ht : t < expiry id) (hc : Covered p id s) :
    Covered p id (s.tick t) where
  key := hc.key
  scan := by
    intro scan hscan
    obtain ⟨scan', hscan', rfl⟩ := map_eq_some_iff.mp hscan
    simp [hc.scan scan' hscan', h.mem_keysAt hc.key ht]
  found := hc.found

theorem Covered.assign (hc : Covered p id s) {q : ℕ} {process : Process} {scan : Option Scan}
    (hscan : q = p → ∀ sc, scan = some sc → id ∈ sc.since)
    (hfound : q = p → ∀ l, process.found = some l → id ∈ l) :
    Covered p id (s.assign q process scan) := by
  refine ⟨hc.key, ?_, ?_⟩ <;> obtain rfl | hq := eq_or_ne p q
  · simpa [Shared.assign] using hscan rfl
  · simpa [Shared.assign, hq] using hc.scan
  · simpa [Shared.assign] using hfound rfl
  · simpa [Shared.assign, hq] using hc.found

theorem Covered.set (hc : Covered p id s) (id' : String) (ttl : ℕ) :
    Covered p id (s.set id' ttl) where
  key := hc.key.set id' ttl
  scan := by
    intro scan hscan
    obtain ⟨scan', hscan', rfl⟩ := map_eq_some_iff.mp hscan
    exact hc.scan scan' hscan'
  found := hc.found

theorem Covered.serves {r : c.Reply} (hid : id ≠ "") (h : Agrees expiry s)
    (ht : s.now < expiry id) (hserves : serves s c r s') (hc : Covered p id s) :
    Covered p id s' := by
  obtain rfl | ⟨id, ttl, rfl, rfl⟩ | ⟨q, process, scan, hchange, rfl⟩ := serves_cases hserves
  · exact hc
  · exact hc.set id ttl
  cases hchange with
  | enter =>
    refine hc.assign ?_ ?_
    · rintro rfl
      exact hc.scan
    · rintro rfl
      exact hc.found
  | install =>
    refine hc.assign ?_ fun _ => nofun
    rintro rfl
    exact hc.scan
  | reset => exact hc.assign (fun _ => nofun) fun _ => nofun
  | begins =>
    refine hc.assign ?_ fun _ => nofun
    rintro - _ ⟨rfl⟩
    exact h.mem_keysAt hc.key ht
  | ends scan _ hscan hsince =>
    refine hc.assign (fun _ => nofun) ?_
    rintro rfl _ ⟨rfl⟩
    exact List.mem_filter.mpr ⟨hsince (hc.scan scan hscan), by simpa using hid⟩

/-! ## Revoked tokens -/

theorem process_of_serves {r : c.Reply} (hserves : serves s c r s') (p : ℕ) :
    (∃ n, c = .enter p n ∧ s'.processes p = (s.processes p).enter n) ∨
      (∃ found, c = .install p ∧ (s.processes p).found = some found ∧
        s'.processes p = (s.processes p).install s.now found) ∨
      ∃ found, s'.processes p = { s.processes p with found := found } := by
  have hsame (h : s'.processes p = s.processes p) :
      ∃ found, s'.processes p = { s.processes p with found := found } :=
    ⟨(s.processes p).found, h⟩
  obtain rfl | ⟨id, ttl, -, rfl⟩ | ⟨q, process, scan, hchange, rfl⟩ := serves_cases hserves
  · exact .inr (.inr (hsame rfl))
  · exact .inr (.inr (hsame rfl))
  by_cases hq : p = q
  · subst hq
    simp only [assign, update_self]
    cases hchange with
    | enter n => exact .inl ⟨n, rfl, rfl⟩
    | install found hfound => exact .inr (.inl ⟨found, rfl, hfound, rfl⟩)
    | _ => exact .inr (.inr ⟨_, rfl⟩)
  · exact .inr (.inr (hsame (by simp [assign, hq])))

/-- The token is revoked in the process, and will be after the next synchronization. -/
def Held (p : ℕ) (id : String) (s : Shared) : Prop :=
  Revoked p id s ∧ (IsPending p id s ∨ Covered p id s)

theorem held_of_enters {n : Notice} (h : s'.processes p = (s.processes p).enter n) :
    Held p n.id s' := by
  refine ⟨?_, .inl ⟨n, ?_, rfl⟩⟩
  · rw [Revoked, h]
    exact update_self ..
  · rw [h]
    exact mem_upsert.mpr (.inl rfl)

theorem Held.serves {r : c.Reply} (hid : id ≠ "") (h : Agrees expiry s) (ht : s.now < expiry id)
    (hserves : serves s c r s') (hh : Held p id s) : Held p id s' := by
  obtain ⟨hrevoked, hheld⟩ := hh
  obtain ⟨n, -, hn⟩ | ⟨found, rfl, hfound, hinstall⟩ | ⟨found, hsame⟩ := process_of_serves hserves p
  · refine ⟨?_, hheld.imp ?_ (Covered.serves hid h ht hserves)⟩
    · rw [Revoked, hn]
      by_cases hne : id = n.id
      · subst hne
        exact update_self ..
      · simpa [Process.enter, hne, Revoked] using hrevoked
    · rintro ⟨m, hm, rfl⟩
      rw [IsPending, hn]
      by_cases hne : m.id = n.id
      · exact ⟨n, mem_upsert.mpr (.inl rfl), hne.symm⟩
      · exact ⟨m, mem_upsert.mpr (.inr ⟨hm, hne⟩), rfl⟩
  · -- what is pending and not found stays pending; what is found is in Redis
    have hs' : s' = s.modify p fun process => process.install s.now found := by
      obtain ⟨found', hfound', hs'⟩ := hserves
      rwa [mem_unique hfound' hfound] at hs'
    by_cases hmem : id ∈ found
    · refine ⟨by simp [Revoked, hinstall, Process.install, hmem], .inr ⟨?_, ?_, ?_⟩⟩
      · rw [hs']
        exact h.found p found id hfound hmem
      · rw [hs', Shared.modify, h.ended p (by simp [hfound])]
        exact nofun
      · rw [hinstall]
        exact nofun
    · have hpending : IsPending p id s := hheld.resolve_right fun hc => hmem (hc.found found hfound)
      obtain ⟨n, hn, rfl⟩ := hpending
      have hexpires : s.now < n.expiresAt := by rw [h.pending p n hn]; exact ht
      refine ⟨?_, .inl ⟨n, ?_, rfl⟩⟩
      · rw [Revoked, hinstall, Process.install, Bool.or_eq_true, List.any_eq_true]
        exact .inr ⟨n, hn, by simp [hexpires]⟩
      · rw [hinstall]
        exact mem_filter.mpr ⟨hn, by simp [hexpires, hmem]⟩
  · refine ⟨by rw [Revoked, hsame]; exact hrevoked, hheld.imp ?_ (Covered.serves hid h ht hserves)⟩
    rw [IsPending, IsPending, hsame]
    exact fun hp => hp

theorem Held.tick (h : Agrees expiry s) (ht : t < expiry id) (hh : Held p id s) :
    Held p id (s.tick t) :=
  ⟨hh.1, hh.2.imp_right (Covered.tick h ht)⟩

/-! ## The guarantees of a process -/

theorem now_lt_of_lawful (hlawful : e.Lawful (pool requests)) (ht : e.after.now < expiry id) :
    e.before.now < expiry id := by
  obtain ⟨t, hle, hafter⟩ | ⟨c, r, hserves⟩ := hlawful.next
  · rw [hafter] at ht
    exact lt_of_le_of_lt hle ht
  · exact now_of_serves hserves ▸ ht

/-- What answers and ticks keep before the expiry of a token holds until then. -/
theorem until_expiry (hw : (pool requests).Reachable w) (hsame : SameExpiry expiry w.log)
    {P : Shared → Prop}
    (hserves : ∀ {s s' c} {r : c.Reply}, Agrees expiry s → s.now < expiry id → serves s c r s' →
      P s → P s')
    (htick : ∀ {s t}, Agrees expiry s → t < expiry id → P s → P (s.tick t)) {l₁ l₂ : List Event}
    {d : Event} (hlog : w.log = l₁ ++ d :: l₂) (hd : P d.after) (ht : w.shared.now < expiry id) :
    P w.shared := by
  refine hw.persists (P := fun s => s.now < expiry id → P s) hlog (fun _ => hd) ?_ ht
  rintro l₃ f l₄ rfl hf hnow
  have hmem : f ∈ w.log := by simp [hlog]
  have hlawful := hw.chronicle.lawful f hmem
  have hagrees := ((steady_of_reachable hw hsame).events f hmem).1
  have hbefore := now_lt_of_lawful hlawful hnow
  obtain ⟨t, -, hafter⟩ | ⟨c, r, hserved⟩ := hlawful.next
  · rw [hafter] at hnow ⊢
    exact htick hagrees hnow (hf hbefore)
  · exact hserves hagrees hbefore hserved (hf hbefore)

def NeverLoaded (p : ℕ) (log : List Event) : Prop :=
  ∀ e ∈ log, ∀ i, e.cause ≠ some (i, ⟨.install p, ()⟩)

def Entered (p : ℕ) (id : String) (log : List Event) : Prop :=
  ∃ e ∈ log, ∃ i n, e.cause = some (i, ⟨.enter p n, ()⟩) ∧ n.id = id

/-- The turn that is to revoke a token has made its write, or has returned. -/
def Proceeded (i : ℕ) (w : World) : Prop :=
  (∃ e ∈ w.log, ∃ id ttl r, e.cause = some (i, ⟨.set id ttl, r⟩)) ∨
    ∃ p x, w.turns i = some p ∧ p.result? = some x

def Writes (id : String) (e : Event) : Prop :=
  ∃ i ttl, e.cause = some (i, ⟨.set id ttl, .ok ()⟩)

def Resynced (p : ℕ) (log : List Event) : Prop :=
  ∃ l b m, log = l ++ b :: m ∧ (∃ i r, b.cause = some (i, ⟨.readPending p, r⟩)) ∧
    ∃ f ∈ m, ∃ i, f.cause = some (i, ⟨.install p, ()⟩)

theorem not_initialized_of_neverLoaded (hw : (pool requests).Reachable w)
    (h : NeverLoaded p w.log) :
    (w.shared.processes p).initialized = false := by
  refine Pool.Reachable.of_events (P := Rule) (J := fun s log => NeverLoaded p log →
    (s.processes p).initialized = false) keeps_of_starts (fun _ => rfl) ?_ hw h
  rintro w e hw ih hbefore hlawful - hnever
  have hloaded := ih fun e he => hnever e (List.mem_append_left _ he)
  obtain ⟨_ | ⟨j, c, r⟩, before, after⟩ := e
  · obtain ⟨t, -, hafter⟩ : ∃ t, before.now ≤ t ∧ after = before.tick t := hlawful
    subst hafter hbefore
    exact hloaded
  · subst hbefore
    obtain ⟨n, -, hn⟩ | ⟨found, rfl, -⟩ | ⟨found, hsame⟩ :=
      process_of_serves (show serves w.shared c r after from hlawful) p
    · rw [hn]
      exact hloaded
    · exact absurd rfl (hnever _ (List.mem_append_right _ (List.mem_singleton_self _)) j)
    · rw [hsame]
      exact hloaded

/-- A revocation that is requested is entered before it is written or returns. -/
theorem entered_of_proceeded (hw : (pool requests).Reachable w) {j : ℕ} {expiringAt : ℤ}
    (hrequest : requests j = .revoke true p id expiringAt) (hid : id ≠ "") (hpos : 0 < expiringAt)
    (h : Proceeded (2 * j + 1) w) : Entered p id w.log := by
  let Q (i : ℕ) (h : List Entry) : Prop :=
    i = 2 * j + 1 → ∃ n : Notice, n.id = id ∧ (⟨.enter p n, ()⟩ : Entry) ∈ h
  let P (i : ℕ) (h : List Entry) (c : Call) : Prop := ∀ k ttl, c = .set k ttl → Q i h
  have hstarts (i : ℕ) (q : Handler Unit) (hq : (pool requests).starts i q) :
      q.Guards (P i) (fun h _ => Q i h) [] := by
    by_cases hi : i = 2 * j + 1
    · obtain ⟨process, n, hprocess, -⟩ | ⟨j', hj', rfl⟩ := hq
      · omega
      obtain rfl : j' = j := by omega
      have hvalid : ¬(id = "" ∨ expiringAt ≤ 0) := by simp [hid, hpos]
      simp only [hrequest, Request.handler, revokeToken, not_true, if_false, if_neg hvalid]
      refine guards_ask_bind.mpr ⟨nofun, fun now => guards_ask_bind.mpr ⟨nofun, fun _ => ?_⟩⟩
      have hentered {h : List Entry} : Q i ([⟨.now, now⟩] ++
          [⟨.enter p ⟨id, now + expiringAt.toNat⟩, ()⟩] ++ h) :=
        fun _ => ⟨⟨id, now + expiringAt.toNat⟩, rfl, by simp⟩
      refine guards_ask_bind.mpr ⟨fun _ _ _ => hentered (h := []), fun reply => ?_⟩
      cases reply with
      | error => exact hentered
      | ok =>
        refine guards_ask_bind.mpr ⟨nofun, fun reply => ?_⟩
        cases reply <;> exact hentered (h := [_, _])
    · exact guards_of_forall (fun _ _ _ _ _ h => absurd h hi) fun _ _ h => absurd h hi
  have hlogged {l : List Event} (hl : l ⊆ w.log) (hQ : Q (2 * j + 1) (history l (2 * j + 1))) :
      Entered p id w.log := by
    obtain ⟨n, hn, hmem⟩ := hQ rfl
    obtain ⟨e, he, hcause⟩ := exists_event_of_mem_history hmem
    exact ⟨e, hl he, 2 * j + 1, n, hcause, hn⟩
  obtain ⟨e, he, k, ttl, r, hcause⟩ | ⟨q, x, hq, hx⟩ := h
  · obtain ⟨l₁, l₂, hlog⟩ := List.append_of_mem he
    have hobeys := hw.guarded fun i q hq => (hstarts i q hq).conseq fun _ _ _ _ => trivial
    exact hlogged (by simp [hlog]) (hobeys.log l₁ e l₂ _ _ hlog hcause k ttl rfl)
  · have hkeeps := hw.keeps hstarts hq
    rw [result?_eq_some.mp hx, guards_ofExcept] at hkeeps
    exact hlogged (List.Subset.refl _) hkeeps

theorem revoked_of_entered (hw : (pool requests).Reachable w) (hsame : SameExpiry expiry w.log)
    (h : Entered p id w.log) (ht : w.shared.now < expiry id) : Revoked p id w.shared := by
  obtain ⟨d, hd, i, n, hcause, rfl⟩ := h
  obtain ⟨l₁, l₂, hlog⟩ := List.append_of_mem hd
  have hid : n.id ≠ "" := (hw.guarded keeps_of_starts).log l₁ d l₂ i _ hlog hcause
  have hentered : d.after.processes p = (d.before.processes p).enter n := by
    have hafter : d.after = d.before.modify p (·.enter n) :=
      (hw.chronicle.lawful d hd).serves hcause
    simp [hafter, Shared.modify]
  exact (until_expiry hw hsame (Held.serves hid) Held.tick hlog (held_of_enters hentered) ht).1

theorem hasKey_of_lawful (hlawful : e.Lawful (pool requests)) (h : e.before.HasKey id) :
    e.after.HasKey id := by
  obtain ⟨t, -, hafter⟩ | ⟨c, r, hserves⟩ := hlawful.next
  · exact hafter ▸ h
  obtain hafter | ⟨id', ttl, -, hafter⟩ | ⟨_, _, _, -, hafter⟩ := serves_cases hserves
  · exact hafter ▸ h
  · exact hafter ▸ h.set id' ttl
  · exact hafter ▸ h

theorem covered_of_begins {i : ℕ} {r : List Notice} (hlawful : e.Lawful (pool requests))
    (hcause : e.cause = some (i, ⟨.readPending p, r⟩)) (h : e.before.HasKey id) :
    Covered p id e.after := by
  have hafter : e.after = e.before.beginLoad p := (hlawful.serves hcause).2
  refine ⟨hasKey_of_lawful hlawful h, ?_, ?_⟩
  · simp [hafter, beginLoad]
  · simp [hafter, beginLoad]

theorem revoked_of_installs {i : ℕ} (hlawful : e.Lawful (pool requests))
    (hcause : e.cause = some (i, ⟨.install p, ()⟩)) (hc : Covered p id e.before) :
    Revoked p id e.after := by
  obtain ⟨found, hfound, hafter⟩ := hlawful.serves hcause
  simp [Revoked, hafter, Shared.modify, Process.install, hc.found found hfound]

theorem revoked_of_resynced (hw : (pool requests).Reachable w) (hsame : SameExpiry expiry w.log)
    (hid : id ≠ "") {l₁ l₂ : List Event} {d : Event} (hlog : w.log = l₁ ++ d :: l₂)
    (hd : Writes id d) (hsynced : Resynced p l₂) (ht : w.shared.now < expiry id) :
    Revoked p id w.shared := by
  obtain ⟨i, ttl, hwrite⟩ := hd
  obtain ⟨l, b, m, rfl, ⟨j, r, hbegin⟩, f, hf, k, hinstall⟩ := hsynced
  obtain ⟨m₁, m₂, rfl⟩ := List.append_of_mem hf
  have hlawful {e : Event} (he : e ∈ w.log) : e.Lawful (pool requests) := hw.chronicle.lawful e he
  have hlogb : w.log = (l₁ ++ d :: l) ++ b :: (m₁ ++ f :: m₂) := by simp [hlog]
  have hlogf : w.log = (l₁ ++ d :: l ++ b :: m₁) ++ f :: m₂ := by simp [hlog]
  have hb : b ∈ w.log := by simp [hlog]
  have hf : f ∈ w.log := by simp [hlog]
  -- the key is there when the load begins
  have hkey : b.before.HasKey id := by
    obtain ⟨w₁, hw₁, hlog₁, hshared₁⟩ := hw.cut hlogb
    rw [← hshared₁]
    refine hw₁.persists (P := fun s => s.HasKey id) hlog₁ ?_ fun l₃ e l₄ hl => ?_
    · obtain ⟨-, hafter⟩ | ⟨h, -⟩ := (hlawful (by simp [hlog])).serves hwrite
      · exact hafter ▸ d.before.hasKey_set id ttl
      · cases h
    · exact hasKey_of_lawful (hw₁.chronicle.lawful e (by simp [hlog₁, hl]))
  -- and is covered until the load has succeeded
  have hnow : f.before.now < expiry id :=
    now_lt_of_lawful (hlawful hf) (lt_of_le_of_lt ((steady_of_reachable hw hsame).now f hf) ht)
  have hcovered : Covered p id f.before := by
    obtain ⟨w₂, hw₂, hlog₂, hshared₂⟩ := hw.cut hlogf
    have hsame₂ : SameExpiry expiry w₂.log := by
      intro e he
      refine hsame e ?_
      simp only [hlog₂, hlog, List.mem_append, List.mem_cons] at he ⊢
      tauto
    rw [← hshared₂] at hnow ⊢
    exact until_expiry hw₂ hsame₂ (Covered.serves hid) Covered.tick hlog₂
      (covered_of_begins (hlawful hb) hbegin hkey) hnow
  have hcovered' : Covered p id f.after :=
    .serves hid ((steady_of_reachable hw hsame).events f hf).1 hnow ((hlawful hf).serves hinstall)
      hcovered
  have hheld : Held p id f.after :=
    ⟨revoked_of_installs (hlawful hf) hinstall hcovered, .inr hcovered'⟩
  exact (until_expiry hw hsame (Held.serves hid) Held.tick hlogf hheld ht).1

/-- What a process tells about a token, in every interleaving in which all revocations of one
token carry the same expiry.  Before a load has succeeded every token is revoked.  A
revocation that is requested with a positive lifetime is entered before it is written and before
it returns, and one that was entered holds until the expiry.  A revocation that Redis
acknowledged holds until the expiry in every process with a load that began later and
succeeded. -/
theorem revoked_until_expiry (hw : (pool requests).Reachable w) (expiry : String → ℕ)
    (hsame : SameExpiry expiry w.log) (p : ℕ) (id : String) :
    (NeverLoaded p w.log → isTokenRevoked (w.shared.processes p) id) ∧
    (∀ j expiringAt, requests j = .revoke true p id expiringAt → id ≠ "" → 0 < expiringAt →
      Proceeded (2 * j + 1) w → Entered p id w.log) ∧
    (Entered p id w.log → w.shared.now < expiry id → isTokenRevoked (w.shared.processes p) id) ∧
    (∀ l₁ d l₂, w.log = l₁ ++ d :: l₂ → (∃ q, Entered q id l₁) → Writes id d → Resynced p l₂ →
      w.shared.now < expiry id → isTokenRevoked (w.shared.processes p) id) := by
  have hrevoked (h : Revoked p id w.shared) : isTokenRevoked (w.shared.processes p) id := by
    rw [isTokenRevoked, show (w.shared.processes p).revokedTokens id = true from h, Bool.or_true]
  refine ⟨fun hnever => ?_, fun j expiringAt hrequest hid hpos => entered_of_proceeded hw hrequest
    hid hpos, fun hentered ht => hrevoked (revoked_of_entered hw hsame hentered ht), ?_⟩
  · simp [isTokenRevoked, not_initialized_of_neverLoaded hw hnever]
  · rintro l₁ d l₂ hlog ⟨q, e, he, i, n, hcause, rfl⟩ hwrites hsynced ht
    obtain ⟨l₃, l₄, rfl⟩ := List.append_of_mem he
    have hid : n.id ≠ "" := (hw.guarded keeps_of_starts).log l₃ e (l₄ ++ d :: l₂) i _
      (by simp [hlog]) hcause
    exact hrevoked (revoked_of_resynced hw hsame hid hlog hwrites hsynced ht)

/-! ## A revocation whose write fails -/

def answer (fails : Bool) (s : Shared) : (c : Call) → Option (c.Reply × Shared)
  | .now => some (s.now, s)
  | .enter p n => some ((), s.modify p (·.enter n))
  | .set id ttl => some (if fails then (.error .unavailable, s) else (.ok (), s.set id ttl))
  | .publish _ => some (.ok (), s)
  | .readPending p => some ((s.processes p).pendingRevocations.rows, s.beginLoad p)
  | .scanBegin p => some ((), s.beginScan p)
  | .scanEnd p =>
    match s.scans p with
    | some scan =>
      if scan.since ⊆ scan.ever then
        some (.ok (), s.endScan p (some (scan.since.filter (· ≠ ""))))
      else none
    | none => none
  | .install p =>
    match (s.processes p).found with
    | some found => some ((), s.modify p fun process => process.install s.now found)
    | none => none

theorem lawful_answer {fails : Bool} {r : c.Reply} (h : answer fails s c = some (r, s')) :
    serves s c r s' := by
  cases c with
  | now => cases h; exact ⟨rfl, rfl⟩
  | enter | publish | scanBegin => cases h; rfl
  | set =>
    cases fails
    · cases h
      exact .inl ⟨rfl, rfl⟩
    · cases h
      exact .inr ⟨rfl, .inl rfl⟩
  | readPending => cases h; exact ⟨.refl _, rfl⟩
  | scanEnd =>
    simp only [answer] at h
    split at h
    · rename_i scan hscan
      split at h
      · rename_i hsub
        cases h
        exact .inr ⟨rfl, scan, scan.since, hscan, fun _ hid => hid, hsub, rfl⟩
      · cases h
    · cases h
  | install =>
    simp only [answer] at h
    split at h
    · rename_i found hfound
      cases h
      exact ⟨found, hfound, rfl⟩
    · cases h

namespace Sample

def requested (_ : ℕ) : Request := .revoke true 0 "jti" 10

def responder (fails : Bool) : (pool requested).Responder := ⟨answer fails, lawful_answer⟩

def tick (t : ℕ) : (pool requested).Act :=
  .drift (fun s => if s.now ≤ t then some (s.tick t) else none) (by
    intro s s' h
    split at h
    · rename_i hle
      cases h
      exact ⟨t, hle, rfl⟩
    · cases h)

/-- Process 0 revokes a token until 10, and the write to Redis fails.  Its synchronization
writes the pending revocation.  Later process 1 loads the revoked tokens. -/
def synced : World := script (S := pool requested)
  [.start 1 _ (Or.inr ⟨0, rfl, rfl⟩), .calls (responder true) 1 3,
    .start 0 _ (Or.inl ⟨0, 1, rfl, rfl⟩), .calls (responder false) 0 6, tick 5,
    .start 2 _ (Or.inl ⟨1, 1, rfl, rfl⟩), .calls (responder false) 2 5]

theorem reachable_synced : (pool requested).Reachable synced := reachable_script _

instance : (c : Call) → DecidableEq c.Reply
  | .now => inferInstanceAs (DecidableEq ℕ)
  | .enter .. | .scanBegin _ | .install _ => inferInstanceAs (DecidableEq Unit)
  | .set .. | .publish _ | .scanEnd _ => inferInstanceAs (DecidableEq (Except RedisError Unit))
  | .readPending _ => inferInstanceAs (DecidableEq (List Notice))

def carries (t : ℕ) : Call → Bool
  | .enter _ n => n.expiresAt = t
  | _ => true

theorem sameExpiry_synced : SameExpiry (fun _ => 10) synced.log := by
  have h : ∀ e ∈ synced.log, e.cause.all fun x => carries 10 x.2.1 := by decide +kernel
  intro e he i p n hcause
  simpa [hcause, carries] using h e he

def writes (e : Event) : Bool := e.cause = some (0, ⟨.set "jti" 10, .ok ()⟩)

def begins (e : Event) : Bool := e.cause = some (2, ⟨.readPending 1, []⟩)

theorem writes_synced : ∃ l₁ d l₂, synced.log = l₁ ++ d :: l₂ ∧ Writes "jti" d ∧
    Entered 0 "jti" l₁ ∧ Resynced 1 l₂ := by
  obtain ⟨d, hlog, hd⟩ := split_at_first (l := synced.log) (p := writes) (by decide +kernel)
  refine ⟨_, d, _, hlog, ⟨0, 10, of_decide_eq_true hd⟩, ?_, ?_⟩
  · have h : ∃ e ∈ synced.log.takeWhile fun e => !writes e,
        e.cause = some (1, ⟨.enter 0 ⟨"jti", 10⟩, ()⟩) := by decide +kernel
    obtain ⟨e, he, hcause⟩ := h
    exact ⟨e, he, 1, _, hcause, rfl⟩
  · obtain ⟨b, hrest, hb⟩ := split_at_first (p := begins)
      (l := (synced.log.dropWhile fun e => !writes e).tail) (by decide +kernel)
    have h : ∃ f ∈ (((synced.log.dropWhile fun e => !writes e).tail).dropWhile
        fun e => !begins e).tail, f.cause = some (2, ⟨.install 1, ()⟩) := by decide +kernel
    obtain ⟨f, hf, hinstall⟩ := h
    exact ⟨_, b, _, hrest, ⟨2, [], of_decide_eq_true hb⟩, f, hf, 2, hinstall⟩

end Sample

open Sample

/-- The token is revoked in both processes, in one since the turn that was to revoke it has
returned, in the other since it loaded what the first one wrote. -/
theorem revoked_after_failed_write : Sample.synced.shared.now = 5 ∧
    isTokenRevoked (Sample.synced.shared.processes 0) "jti" ∧
    isTokenRevoked (Sample.synced.shared.processes 1) "jti" := by
  have hnow : synced.shared.now = 5 := by decide +kernel
  have hlt : synced.shared.now < 10 := by omega
  obtain ⟨l₁, d, l₂, hlog, hwrites, hentered, hsynced⟩ := writes_synced
  have hreturned : ((synced.turns 1).bind result?).isSome := by decide +kernel
  obtain ⟨x, hx⟩ := isSome_iff_exists.mp hreturned
  obtain ⟨q, hq⟩ := bind_eq_some_iff.mp hx
  obtain ⟨-, hrequested, hfirst, -⟩ :=
    revoked_until_expiry reachable_synced (fun _ => 10) sameExpiry_synced 0 "jti"
  obtain ⟨-, -, -, hsecond⟩ :=
    revoked_until_expiry reachable_synced (fun _ => 10) sameExpiry_synced 1 "jti"
  refine ⟨hnow, hfirst ?_ hlt, hsecond l₁ d l₂ hlog ⟨0, hentered⟩ hwrites hsynced hlt⟩
  exact hrequested 0 10 rfl (by decide) (by decide) (.inr ⟨q, x, hq⟩)

end Athena.Sessions
