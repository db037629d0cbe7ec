import Athena.CashOuts.Script

/-!
# How a Cash Out ends

A Cash Out is completed by a read of its position that shows it closed, or by the answer to
its own Close; and once its Close has been dispatched it fails only when the provider
refused the Close and still shows the position open, or when the position was liquidated.
-/

namespace Athena.CashOuts

open Athena.Lib Table Queries Store Pool World.Reachable

/-! ## Evidence -/

/-- The turn read the position of a Cash Out through a client of its Wallet, and the tables
at the time of the read satisfied `P`. -/
def Sighted (log : List Event) (i : ℕ) (c : CashOut) (target : Target) (P : Tables → Prop) : Prop :=
  ∃ d ∈ log, ∃ client p, d.cause = some (i, ⟨.position client c.positionPubkey, .ok p⟩) ∧
    client.walletId = c.walletId ∧ inspectMarginPositionCashOutTarget p = .ok target ∧
    target.positionPubkey = c.positionPubkey ∧ target.marketConditionId = c.marketConditionId ∧
    P d.before

def Tables.Dispatched (t : Tables) (id : UUID) : Prop :=
  ∃ c ∈ t.cashOuts, c.id = id ∧ wasDispatched c.attempt

def Tables.Rejected (t : Tables) (id : UUID) : Prop :=
  ∃ c ∈ t.cashOuts, c.id = id ∧ Worker.isRejected c.attempt

/-- What a Cash Out is completed by, after the events `log`.  A read may come before any
dispatch only when the Cash Out belongs to no batch. -/
inductive CompletedBy (log : List Event) (e : Event) (c : CashOut) : Prop
  | created (i : ℕ) (req : CreateRequest) (now : Time) (r : Except StoreError CashOut)
      (target : Target) (cause : e.cause = some (i, ⟨.store (.create req c.id) now, r⟩))
      (sighted : Sighted log i c target fun _ => True) (closed : target.isClosed)
      (live : target.isLiquidated = false)
  | observed (i : ℕ) (o : Observation) (now : Time) (r : Except StoreError CashOut)
      (target : Target) (cause : e.cause = some (i, ⟨.store (.observe c.id i o) now, r⟩))
      (sighted : Sighted log i c target fun t => c.source = none ∨ t.Dispatched c.id)
      (closed : target.isClosed) (live : target.isLiquidated = false)
  | echoed (i : ℕ) (attempt : UUID) (s : Resolution) (now : Time) (r : Except StoreError CashOut)
      (cause : e.cause = some (i, ⟨.store (.completeDispatch c.id attempt i s) now, r⟩))
      (d : Event) (mem : d ∈ log) (client : Client) (request : CloseRequest) (result : CloseResult)
      (answer : d.cause = some (i, ⟨.close c.id client request, (some result, none)⟩))
      (dispatched : d.before.Dispatched c.id) (closed : result.isClosed)
      (echo : result.positionPubkey = c.positionPubkey)

/-- What a Cash Out whose Close was dispatched fails by, after the events `log`. -/
inductive FailedBy (log : List Event) (c : CashOut) : Prop
  | liquidated (i : ℕ) (target : Target) (sighted : Sighted log i c target fun _ => True)
      (liquidated : target.isLiquidated)
  | rejected (i : ℕ) (target : Target) (rejected : Worker.isRejected c.attempt)
      (sighted : Sighted log i c target fun t => t.Rejected c.id)
      (still : target.isClosed = false) (live : target.isLiquidated = false)

/-! ## What a turn knows of an attempt -/

section knowledge
variable {w : World} {i : ℕ} {id : UUID}

theorem World.Steady.dispatched (hs : w.Steady) (hw : w.Reachable)
    (hd : Dispatched i (history w.log i) id) : w.shared.Dispatched id := by
  obtain ⟨a, hx, hd⟩ | ⟨op, now, r, attempt, hx, hop⟩ := hd
  · cases a with
    | none => cases hd
    | some =>
      obtain ⟨c, hc, hid, hev⟩ := hs.attempt hw hx
      exact ⟨c, hc, hid, hev.wasDispatched hd⟩
  · obtain ⟨t, t', ⟨adm, h⟩, -, -, hev⟩ := hs.entry hw hx
    obtain ⟨-, -, c, hc, -, hid, -, hd⟩ := exec_dispatches hop h
    obtain ⟨c', hc', he⟩ := hev c hc
    exact ⟨c', hc', he.id.trans hid, he.attempt.wasDispatched hd⟩

theorem AttemptEvolves.isRejected {a : Attempt} {x : Option Attempt}
    (h : AttemptEvolves (some a) x) (ha : a.isRejected) : Worker.isRejected x := by
  obtain ⟨a', rfl, -, -, hstatus⟩ := h a rfl
  unfold Attempt.isRejected at ha
  split at ha
  · rename_i d e hs
    rw [hs] at hstatus
    have hstatus : a'.status = .resolved .rejected d e := hstatus
    simp [Worker.isRejected, Attempt.isRejected, hstatus]
  · cases ha

theorem World.Steady.rejected (hs : w.Steady) (hw : w.Reachable)
    (hr : Rejected (history w.log i) id) : w.shared.Rejected id := by
  obtain ⟨a, hx, ha⟩ | ⟨attempt, r, now, a, hx, ha⟩ := hr
  · obtain ⟨c, hc, hid, hev⟩ := hs.attempt hw hx
    exact ⟨c, hc, hid, hev.isRejected ha⟩
  · obtain ⟨t, t', ⟨adm, h⟩, -, -, hev⟩ := hs.entry hw hx
    obtain ⟨⟨c, hc, hid, hattempt⟩, -⟩ := exec_resolve h
    obtain ⟨c', hc', he⟩ := hev c hc
    have he' : AttemptEvolves (some a) c'.attempt := hattempt ▸ he.attempt
    exact ⟨c', hc', he.id.trans hid, he'.isRejected ha⟩

theorem World.Reachable.sighted (hw : w.Reachable) {c : CashOut} (hc : c ∈ w.shared.cashOuts)
    {P : WorkerHistory → Prop} {Q : Tables → Prop} {target : Target}
    (hl : Looked (history w.log i) c.id P target)
    (hP : ∀ w₁ : World, w₁.Reachable → w₁.shared.Evolves w.shared →
      P (history w₁.log i) → Q w₁.shared) :
    Sighted w.log i c target Q := by
  obtain ⟨h₁, h₂, client, p, r, r', hsplit, hp, ⟨hr, hid, hwallet⟩, ⟨hr', hid', hpubkey, hmarket⟩,
    hinspect⟩ := hl
  obtain ⟨l₁, d, l₂, hlog, hcause, rfl, -⟩ := exists_split_of_history hsplit
  obtain ⟨w₁, hw₁, rfl, hbefore⟩ := Pool.Reachable.cut hw hlog
  have hd : d ∈ w.log := by rw [hlog]; simp
  have hev : w₁.shared.Evolves w.shared := hbefore ▸ hw.evolves hd
  -- the rows that the turn was shown are rows of the Cash Out
  have position {r : CashOutRow} (hr : Seen (history w₁.log i) r) (hid : r.id = c.id) :
      c.toPosition = r.toPosition := by
    obtain ⟨c₁, hc₁, hid₁, hposition, -⟩ := (steady hw₁).seen hw₁ hr
    exact (hev.row hc₁ hc (hid₁.trans hid).symm).position.trans hposition
  have hpubkey' : target.positionPubkey = c.positionPubkey := by
    rw [hpubkey, position hr' hid']
  refine ⟨d, hd, client, p, hpubkey' ▸ hcause, ?_, hinspect, hpubkey', ?_, ?_⟩
  · rw [hwallet, position hr hid]
  · rw [hmarket, position hr' hid']
  · exact hbefore ▸ hP w₁ hw₁ hev hp

theorem World.Reachable.standalone_or_dispatched {w₁ : World} (hw₁ : w₁.Reachable)
    (hev : w₁.shared.Evolves w.shared) {c : CashOut} (hc : c ∈ w.shared.cashOuts)
    (h : Standalone (history w₁.log i) c.id ∨ Dispatched i (history w₁.log i) c.id) :
    c.source = none ∨ w₁.shared.Dispatched c.id := by
  have hs := steady hw₁
  obtain ⟨r, hr, hid, hsource⟩ | hd := h
  · obtain ⟨c₁, hc₁, hid₁, -, hsource₁⟩ := hs.seen hw₁ hr
    have he := hev.row hc₁ hc (hid₁.trans hid).symm
    exact .inl (he.source.trans (hsource₁.trans hsource))
  · exact .inr (hs.dispatched hw₁ hd)

end knowledge

theorem Sighted.later {log : List Event} {i : ℕ} {c c' : CashOut} {target : Target}
    {P : Tables → Prop} (h : Sighted log i c target P) (hposition : c'.toPosition = c.toPosition) :
    Sighted log i c' target P := by
  obtain ⟨d, hd, client, p, hcause, hwallet, hinspect, hpubkey, hmarket, hP⟩ := h
  refine ⟨d, hd, client, p, ?_, ?_, hinspect, ?_, ?_, hP⟩ <;> rw [hposition]
  · exact hcause
  · exact hwallet
  · exact hpubkey
  · exact hmarket

/-! ## The moves that end a Cash Out -/

theorem CashOut.Move.ends {op : Operation} {now : Time} {c c' : CashOut} (h : c.Move op now c')
    (hne : c'.state ≠ c.state) (hterminal : c'.state.terminal) :
    (∃ k o, op = .observe c.id k o ∧ o.nextState = c'.state ∧ observable c k o) ∨
      (∃ a k r, op = .completeDispatch c.id a k r ∧ c'.state = .completed) ∨
      (c'.state ≠ .completed ∧ expirable c now) ∨
      (c'.state = .failed ∧ CashOuts.wasDispatched c.attempt = false) := by
  have same {r : CashOutRow} (hrow : c'.toCashOutRow = r) (hstate : r.state = c.state) {p : Prop} :
      p := by
    subst hrow
    exact absurd hstate hne
  have open_ {r : CashOutRow} (hrow : c'.toCashOutRow = r) (hstate : r.state.terminal = false)
      {p : Prop} : p := by
    subst hrow
    rw [hstate] at hterminal
    cases hterminal
  cases h with
  | authorized _ _ _ _ _ hrow | closing _ _ _ _ _ hrow => exact open_ hrow rfl
  | claimed _ _ _ hrow =>
    by_cases hqueued : c.state = .queued
    · exact open_ hrow (by dsimp only; rw [if_pos hqueued]; rfl)
    · exact same hrow (if_neg hqueued)
  | renewed _ _ _ _ hrow | prepared _ _ _ _ _ _ _ hrow | dispatched _ _ _ _ _ _ _ hrow
  | resolved _ _ _ _ _ _ _ _ _ _ hrow | reconcileRequested _ _ _ _ hrow => exact same hrow rfl
  | completedDispatch a _ k _ r hop _ _ _ _ _ _ _ hrow =>
    exact .inr (.inl ⟨a.id, k, r, hop, by rw [hrow]; rfl⟩)
  | observed k o hop _ hobservable hrow =>
    refine .inl ⟨k, o, hop, ?_, hobservable⟩
    split at hrow <;> rw [hrow] <;> rfl
  | expired _ _ hexpirable hrow =>
    refine .inr (.inr (.inl ⟨?_, hexpirable⟩))
    unfold expiredRow at hrow
    split at hrow <;> rw [hrow] <;> exact State.noConfusion
  | failedByBatch _ _ _ _ hundispatched hrow =>
    exact .inr (.inr (.inr ⟨by rw [hrow]; rfl, hundispatched⟩))

theorem Tables.Early.undispatched_of_expirable {t : Tables} (ht : t.Early) {c : CashOut}
    (hc : c ∈ t.cashOuts) {now : Time} (h : expirable c now) : wasDispatched c.attempt = false := by
  unfold expirable at h
  split at h
  · rename_i hstate
    rw [ht c hc (by rw [hstate]; rfl)]
    rfl
  all_goals simp_all

/-! ## Completed -/

section ends
variable {w : World} {l₁ l₂ : List Event} {e : Event}

theorem completedBy_of_created {w₁ : World} {i : ℕ} {req : CreateRequest}
    {now : Time} {r : Except StoreError CashOut} {c : CashOut}
    (hcause : e.cause = some (i, ⟨.store (.create req c.id) now, r⟩))
    (hi : Introduced (history w₁.log i) req) (hrow : c.toCashOutRow = req.row c.id now)
    (hstate : c.state = .completed) : CompletedBy w₁.log e c := by
  obtain ⟨client, p, target, hx, hwallet, hinspect, hpubkey, hmarket, hclosed, hliquidated⟩ := hi
  obtain ⟨d, hd, hcause'⟩ := exists_event_of_mem_history hx
  have hposition : c.toPosition = req.position := by rw [hrow]; rfl
  obtain ⟨hclosed', hliquidated'⟩ := c.checked.closed hstate
  have hclosed'' : c.providerIsClosed = req.providerIsClosed := by rw [hrow]; rfl
  have hliquidated'' : c.providerIsLiquidated = req.providerIsLiquidated := by rw [hrow]; rfl
  refine .created i req now r target hcause ⟨d, hd, client, p, ?_, ?_, hinspect, ?_, ?_, trivial⟩
    ?_ ?_
  · rw [hposition]; exact hcause'
  · rw [hposition]; exact hwallet
  · rw [hposition]; exact hpubkey
  · rw [hposition]; exact hmarket
  · rw [hclosed, ← hclosed'']; exact hclosed'
  · rw [hliquidated, ← hliquidated'']; exact hliquidated'

theorem completedBy_of_echoed {w₁ : World} (hw₁ : w₁.Reachable) {i : ℕ} {attempt : UUID}
    {s : Resolution} {now : Time} {r : Except StoreError CashOut} {c : CashOut}
    (hcause : e.cause = some (i, ⟨.store (.completeDispatch c.id attempt i s) now, r⟩))
    (he : Echoed (history w₁.log i) c.id) {c₀ : CashOut} (hc₀ : c₀ ∈ w₁.shared.cashOuts)
    (hid : c₀.id = c.id) (hposition : c.toPosition = c₀.toPosition) : CompletedBy w₁.log e c := by
  obtain ⟨client, request, result, row, hx, hclosed, hrow, hrowid, hpubkey⟩ := he
  obtain ⟨d, hd, hcause'⟩ := exists_event_of_mem_history hx
  obtain ⟨c₁, hc₁, hid₁, hposition₁, -⟩ := (steady hw₁).seen hw₁ hrow
  obtain rfl : c₁ = c₀ := eq_of_key_eq hc₁ hc₀ (hid₁.trans (hrowid.trans hid.symm))
  -- the Close was sent right after the dispatch
  have hdispatched : d.before.Dispatched c.id := by
    obtain ⟨m₁, m₂, hlog⟩ := List.append_of_mem hd
    obtain ⟨w₂, hw₂, rfl, hbefore⟩ := Pool.Reachable.cut hw₁ hlog
    have hrule := (Pool.Reachable.guarded hw₁ keeps_of_starts).log w₂.log d m₂ i _ hlog hcause'
    have harmed : Armed i (history w₂.log i) c.id := hrule (fair hw₂)
    obtain ⟨h₁, op, now', r', attempt', hhistory, hop⟩ := harmed
    rw [← hbefore]
    refine (steady hw₂).dispatched (i := i) hw₂
      (.inr ⟨op, now', r', attempt', ?_, hop⟩)
    rw [hhistory]
    simp
  refine .echoed i attempt s now r hcause d hd client request result hcause' hdispatched hclosed ?_
  rw [hpubkey, hposition, hposition₁]

theorem completedBy_of_event (hw : w.Reachable) (hlog : w.log = l₁ ++ e :: l₂) {c' : CashOut}
    (hc' : c' ∈ e.after.cashOuts) (hstate : c'.state = .completed)
    (hbefore : ∀ c ∈ e.before.cashOuts, c.id = c'.id → c.state ≠ .completed) :
    CompletedBy l₁ e c' := by
  obtain ⟨w₁, hw₁, rfl, hshared, hevent⟩ := hw.event hlog
  have hterminal : c'.state.terminal := by rw [hstate]; rfl
  obtain heq | ⟨adm, op, now, hop, hchange⟩ | ⟨i, op, now, r, adm, hcause, hpermitted, hchange⟩ :=
    hevent
  · exact absurd hstate (hbefore c' (heq ▸ hc') rfl)
  · -- no command of a user completes a Cash Out
    obtain ⟨c, hc, rfl | hmove⟩ | hnew := hchange.origin hc'
    · exact absurd hstate (hbefore c' hc rfl)
    · have hne : c'.state ≠ c.state := fun h =>
        hbefore c hc hmove.evolves.id.symm (h.symm.trans hstate)
      obtain ⟨k, o, rfl, -⟩ | ⟨a, k, s, rfl, -⟩ | ⟨hnot, -⟩ | ⟨hfailed, -⟩ :=
        hmove.ends hne hterminal
      · cases hop
      · cases hop
      · exact absurd hstate hnot
      · cases hfailed.symm.trans hstate
    · obtain ⟨req, rfl, -⟩ | ⟨req, b, j, rfl, -⟩ := hnew <;> cases hop
  · obtain ⟨c, hc, rfl | hmove⟩ | hnew := hchange.origin hc'
    · exact absurd hstate (hbefore c' hc rfl)
    · have he := hmove.evolves
      have hne : c'.state ≠ c.state := fun h => hbefore c hc he.id.symm (h.symm.trans hstate)
      obtain ⟨k, o, rfl, hnext, -⟩ | ⟨a, k, s, rfl, -⟩ | ⟨hnot, -⟩ | ⟨hfailed, -⟩ :=
        hmove.ends hne hterminal
      · obtain ⟨rfl, hobserves⟩ := hpermitted
        obtain ⟨target, hlooked, hclosed, hlive⟩ := hobserves.completed (hnext.trans hstate)
        have hc₁ : c ∈ w₁.shared.cashOuts := hshared ▸ hc
        have hsighted : Sighted w₁.log k c target fun t => c.source = none ∨ t.Dispatched c.id := by
          refine sighted hw₁ hc₁ hlooked fun w₂ hw₂ hev hknown => ?_
          exact hw₂.standalone_or_dispatched hev hc₁ hknown
        rw [← he.source, ← he.id] at hsighted
        exact .observed k o now r target (he.id ▸ hcause) (hsighted.later he.position) hclosed hlive
      · obtain ⟨rfl, hechoed⟩ := hpermitted
        have hechoed' : Echoed (history w₁.log k) c'.id := he.id ▸ hechoed
        exact completedBy_of_echoed hw₁ (he.id ▸ hcause) hechoed' (hshared ▸ hc) he.id.symm
          he.position
      · exact absurd hstate hnot
      · cases hfailed.symm.trans hstate
    · obtain ⟨req, rfl, hrow⟩ | ⟨req, b, j, rfl, hrow⟩ := hnew
      · exact completedBy_of_created hcause hpermitted hrow hstate
      · rw [hrow] at hstate
        cases hstate

/-! ## Failed -/

theorem failedBy_of_event (hw : w.Reachable) (hlog : w.log = l₁ ++ e :: l₂) {c c' : CashOut}
    (hc : c ∈ e.before.cashOuts) (hdispatched : wasDispatched c.attempt)
    (hstate : c.state ≠ .failed) (hc' : c' ∈ e.after.cashOuts) (hid : c'.id = c.id)
    (hstate' : c'.state = .failed) : FailedBy l₁ c := by
  obtain ⟨w₁, hw₁, rfl, hshared, hevent⟩ := hw.event hlog
  have hs := steady hw₁
  have hearly : e.before.Early := hshared ▸ hs.holds.early
  have undispatched (h : wasDispatched c.attempt = false) {p : Prop} : p := by
    rw [h] at hdispatched
    cases hdispatched
  -- the transaction moved the Cash Out
  have hmoves {adm : Admission} {op : Operation} {now : Time}
      (hchange : e.before.Change adm op now e.after) : ∃ k o, op = .observe c.id k o ∧
        o.nextState = .failed ∧ observable c k o := by
    obtain ⟨d, hd, heq⟩ | hnew := hchange.origin hc'
    · have hdc : d.id = c'.id := by
        obtain rfl | hmove := heq
        · rfl
        · exact hmove.evolves.id.symm
      obtain rfl : d = c := eq_of_key_eq hd hc (hdc.trans hid)
      obtain rfl | hmove := heq
      · exact absurd hstate' hstate
      obtain ⟨k, o, hop, hnext, hobservable⟩ | ⟨-, -, -, -, hcompleted⟩ | ⟨-, hexpirable⟩ |
          ⟨-, hundispatched⟩ :=
        hmove.ends (fun h => hstate (h.symm.trans hstate')) (by rw [hstate']; rfl)
      · exact ⟨k, o, hop, hnext.trans hstate', hobservable⟩
      · cases hcompleted.symm.trans hstate'
      · exact undispatched (hearly.undispatched_of_expirable hd hexpirable)
      · exact undispatched hundispatched
    · -- a new row has no attempt, and this one has
      have he := hchange.evolves.row hc hc' hid
      have hd' := he.attempt.wasDispatched hdispatched
      rw [hnew.unclaimed.1] at hd'
      cases hd'
  obtain heq | ⟨adm, op, now, hop, hchange⟩ | ⟨i, op, now, r, adm, hcause, hpermitted, hchange⟩ :=
    hevent
  · obtain rfl : c' = c := eq_of_key_eq (heq ▸ hc') hc hid
    exact absurd hstate' hstate
  · obtain ⟨k, o, rfl, -⟩ := hmoves hchange
    cases hop
  · obtain ⟨k, o, rfl, hnext, hobservable⟩ := hmoves hchange
    obtain ⟨rfl, hobserves⟩ := hpermitted
    obtain ⟨hexpected, hheld⟩ := CashOut.observable_iff hobservable
    have hc₁ : c ∈ w₁.shared.cashOuts := hshared ▸ hc
    obtain hpreflight | hu | ⟨target, hlooked, hliquidated⟩ | ⟨target, hlooked, hopen, hlive⟩ :=
      hobserves.failed hnext
    · refine undispatched ?_
      rw [hearly c hc (by rw [hexpected, hpreflight]; rfl)]
      rfl
    · exact undispatched (agrees hw₁ k c hc₁ hheld hu)
    · exact .liquidated k target
        (sighted hw₁ hc₁ hlooked fun _ _ _ _ => trivial) hliquidated
    · have hsighted : Sighted w₁.log k c target fun t => t.Rejected c.id :=
        sighted hw₁ hc₁ hlooked fun w₂ hw₂ _ hr =>
          (steady hw₂).rejected hw₂ hr
      refine .rejected k target ?_ hsighted hopen hlive
      -- it was rejected when the position was read, so it is rejected now
      obtain ⟨h₁, h₂, client, p, row, row', hsplit, hrejected, -⟩ := hlooked
      have hrejected' : Rejected (history w₁.log k) c.id := by
        rw [hsplit]
        exact hrejected.mono (List.prefix_append h₁ _)
      obtain ⟨d, hd, hdid, hd'⟩ := hs.rejected hw₁ hrejected'
      obtain rfl : d = c := eq_of_key_eq hd hc₁ hdid
      exact hd'

end ends

/-! ## Ends -/

theorem mem_expire_of_dispatched {t : Tables} (ht : t.Early) {c : CashOut} (hc : c ∈ t.cashOuts)
    (hdispatched : wasDispatched c.attempt) (picked : List UUID) (now : Time) :
    c ∈ (expirePositionCashOuts picked t now).cashOuts := by
  have hsame : expireOne picked now c = c := by
    unfold expireOne
    rw [if_neg]
    rintro ⟨-, hexpirable⟩
    rw [ht.undispatched_of_expirable hc hexpirable] at hdispatched
    cases hdispatched
  have hmem : c ∈ t.cashOuts.update (expireOne picked now) (expireOne_id picked now) :=
    mem_update.mpr ⟨c, hc, hsame⟩
  exact hmem

/-- In every interleaving: a Cash Out becomes `COMPLETED` only at its creation or by a later
read, from a sighting that shows its position closed and not liquidated, or by the answer to
its own Close; one that belongs to a batch only after its Close was dispatched.  Once its
Close was dispatched it becomes `FAILED` only when the Close was rejected and the position
was still seen open, or when the position was seen liquidated.  The expiry pass leaves it as
it is then, and a Cash Out that has ended keeps its state. -/
theorem cash_out_ends_on_evidence {w : World} (hw : w.Reachable) :
    (∀ l₁ e l₂, w.log = l₁ ++ e :: l₂ → ∀ c ∈ e.after.cashOuts, c.state = .completed →
      (∀ d ∈ e.before.cashOuts, d.id = c.id → d.state ≠ .completed) → CompletedBy l₁ e c) ∧
    (∀ l₁ e l₂, w.log = l₁ ++ e :: l₂ → ∀ c ∈ e.before.cashOuts, wasDispatched c.attempt →
      c.state ≠ .failed → ∀ c' ∈ e.after.cashOuts, c'.id = c.id → c'.state = .failed →
        FailedBy l₁ c) ∧
    (∀ picked now, ∀ c ∈ w.shared.cashOuts, wasDispatched c.attempt →
      c ∈ (expirePositionCashOuts picked w.shared now).cashOuts) ∧
    ∀ e ∈ w.log, ∀ c ∈ e.before.cashOuts, c.state.terminal →
      ∃ c' ∈ w.shared.cashOuts, c'.id = c.id ∧ c'.state = c.state := by
  refine ⟨?_, ?_, ?_, ?_⟩
  · intro l₁ e l₂ hlog c hc hstate hbefore
    exact completedBy_of_event hw hlog hc hstate hbefore
  · intro l₁ e l₂ hlog c hc hdispatched hstate c' hc' hid hstate'
    exact failedBy_of_event hw hlog hc hdispatched hstate hc' hid hstate'
  · intro picked now c hc hdispatched
    exact mem_expire_of_dispatched hw.steady.holds.early hc hdispatched picked now
  · intro e he c hc hterminal
    obtain ⟨c', hc', hev'⟩ := hw.evolves he c hc
    exact ⟨c', hc', hev'.id, hev'.terminal hterminal⟩

def Sample.refused (status : ℕ) : List Scene :=
  [.create 0 1 10 7 "wallet" Sample.first.pubkey (Sample.showing 101 200 Sample.first "5" true) 10,
   .command Sample.admission (.authorize ⟨1, 200, 11, 1, "WALLET", 0, 1, 500 * second, 50⟩)
     (102 * second),
   .cashOut 1 1 200 { Sample.showing 103 300 Sample.first "5" true with
     close := (none, some (.provider status 1 "refused")) } 30]

/-- A Cash Out whose Close was refused while its position was still open. -/
theorem cash_out_ends_on_evidence_refused :
    (∃ c ∈ (script (Sample.refused 400)).shared.cashOuts.rows,
      c.state = .failed ∧ Worker.isRejected c.attempt) ∧
    ∀ picked now, ∀ c ∈ (script (Sample.refused 400)).shared.cashOuts, wasDispatched c.attempt →
      c ∈ (expirePositionCashOuts picked (script (Sample.refused 400)).shared now).cashOuts :=
  ⟨by decide +kernel, (cash_out_ends_on_evidence (reachable_script _)).2.2.1⟩

/-- A creation that finds its position closed is completed without an attempt. -/
theorem completed_at_creation : ∃ w : World, w.Reachable ∧ ∃ c ∈ w.shared.cashOuts,
    c.state = .completed ∧ c.attempt = none := by
  let seen : ListedPosition := { Sample.first with isClosed := true }
  refine ⟨script [.create 0 1 10 7 "wallet" seen.pubkey (Sample.showing 101 200 seen "5" true) 10],
    reachable_script _, ?_⟩
  have h : ∃ c ∈ (script [.create 0 1 10 7 "wallet" seen.pubkey
      (Sample.showing 101 200 seen "5" true) 10]).shared.cashOuts.rows,
      c.state = .completed ∧ c.attempt = none := by decide +kernel
  exact h

/-! ## The Close -/

def Dispatches (id : UUID) (x : ℕ × WorkerEntry) : Prop :=
  ∃ op now r attempt, x.2 = ⟨.store op now, .ok r⟩ ∧ op.dispatches id attempt x.1

def Closes (id : UUID) (x : ℕ × WorkerEntry) : Prop :=
  ∃ client request r, x.2 = ⟨.close id client request, r⟩

theorem dispatched_once {w : World} (hw : w.Reachable) (id : UUID) : w.log.Pairwise fun e e' =>
    ¬((∃ x, e.cause = some x ∧ Dispatches id x) ∧ ∃ x, e'.cause = some x ∧ Dispatches id x) := by
  refine hw.steady.order.imp_of_mem ?_
  rintro d d' hd hd' hev ⟨⟨⟨_, _⟩, hx, _, _, _, _, rfl, hop⟩, ⟨_, _⟩, hx', _, _, _, _, rfl, hop'⟩
  obtain ⟨adm, h⟩ := (hw.chronicle.lawful d hd).serves hx
  obtain ⟨adm', h'⟩ := (hw.chronicle.lawful d' hd').serves hx'
  obtain ⟨-, -, c, hc, -, hid, -, hafter⟩ := exec_dispatches hop h
  obtain ⟨c', hc', -, -, hid', -, hbefore, -⟩ := exec_dispatches hop' h'
  have hkept := (hev.row hc hc' (hid'.trans hid.symm)).attempt.wasDispatched hafter
  simp [hbefore] at hkept

/-- The Close of a Cash Out is sent only by the turn that has just dispatched its attempt, and no
turn sends it a second time. -/
theorem close_is_sent_once {w : World} (hw : w.Reachable) (id : UUID) :
    (∀ l₁ e l₂ i x, w.log = l₁ ++ e :: l₂ → e.cause = some (i, x) → Closes id (i, x) →
      ∃ h y, history l₁ i = h ++ [y] ∧ Dispatches id (i, y)) ∧
    w.log.Pairwise fun e e' =>
      ¬((∃ x, e.cause = some x ∧ Closes id x) ∧ ∃ x, e'.cause = some x ∧ Closes id x) := by
  refine (and_iff_left_of_imp (pairwise_not_of_follows (dispatched_once hw id))).mpr ?_
  rintro l₁ e l₂ i _ hlog hcause ⟨_, _, _, rfl⟩
  obtain ⟨w₁, hw₁, rfl, -⟩ := Pool.Reachable.cut hw hlog
  have hrule := (Pool.Reachable.guarded hw keeps_of_starts).log _ e l₂ i _ hlog hcause
  obtain ⟨h, _, _, _, _, hlast, hop⟩ := hrule (World.Reachable.fair hw₁)
  exact ⟨h, _, hlast, _, _, _, _, rfl, hop⟩

/-- A Close that was refused is not sent again. -/
theorem refused_close_sent_once :
    (∃ c ∈ (script (Sample.refused 400)).shared.cashOuts.rows,
      c.id = 200 ∧ Worker.isRejected c.attempt) ∧
    (script (Sample.refused 400)).log.Pairwise fun e e' =>
      ¬((∃ x, e.cause = some x ∧ Closes 200 x) ∧ ∃ x, e'.cause = some x ∧ Closes 200 x) :=
  ⟨by decide +kernel, (close_is_sent_once (reachable_script _) 200).2⟩

end Athena.CashOuts
