import Athena.CashOuts.World

/-!
# What a turn knows is so

A turn that claimed a Cash Out and was then shown that nothing had been dispatched may
rely on it for as long as it holds the Cash Out.  The claim can be lost to another turn,
which may then dispatch; but a turn never holds a Cash Out again that it has lost.
-/

namespace Athena.CashOuts

open Athena.Lib Queries Store Pool Option List Pool.Event World.Reachable

def Agrees (t : Tables) (log : List Event) : Prop :=
  ∀ i, ∀ c ∈ t.cashOuts, heldBy c.claim i → Undispatched (history log i) c.id →
    wasDispatched c.attempt = false

variable {i : ℕ} {c : CashOut} {now : Time} {id : UUID} {op : Operation}

theorem heldBy_unique {claim : Option Claim} {j : ℕ} (hi : heldBy claim i) (hj : heldBy claim j) :
    i = j := by
  obtain ⟨k, rfl, rfl⟩ := heldBy_iff.mp hi
  obtain ⟨k', hk, rfl⟩ := heldBy_iff.mp hj
  rw [some.inj hk]

theorem heldBy_of_inWindow {k : ℕ} (h : inWindow c k now) : heldBy c.claim k := by
  simp only [inWindow, Bool.and_eq_true] at h
  exact heldBy_of_leasedTo h.1

theorem Undispatched.of_snoc {h : WorkerHistory} {x : WorkerEntry}
    (hu : Undispatched (h ++ [x]) id) :
    (Undispatched h id ∧ ∃ y ∈ h, Claims y) ∨ ShowsUndispatched id x := by
  obtain ⟨⟨h₁, y, h₂, hsplit, ⟨z, hz, hclaims⟩, hshows⟩, hnone⟩ := hu
  obtain ⟨rfl, rfl⟩ | ⟨h₃, -, rfl⟩ := snoc_eq_append_cons hsplit
  · exact .inr hshows
  · refine .inl ⟨⟨⟨h₁, y, h₃, rfl, ⟨z, hz, hclaims⟩, hshows⟩, fun y' hy' => ?_⟩, z, ?_, hclaims⟩
    · exact hnone y' (mem_append_left _ hy')
    · exact mem_append_left _ hz

theorem ShowsUndispatched.undispatched {t t' : Tables} {x : WorkerEntry}
    (hx : ShowsUndispatched id x) (ht : t.Early) (h : serves t x.1 x.2 t') (hc : c ∈ t'.cashOuts)
    (hid : c.id = id) : wasDispatched c.attempt = false := by
  cases hx with
  | read a ha =>
    obtain ⟨rfl, hread⟩ := serves_attempt_ok h
    have hrow : t'.cashOut id = some c := Tables.cashOut_eq_some.mpr ⟨hc, hid⟩
    rw [hrow, bind_some] at hread
    rw [hread]
    exact ha
  | closing _ _ _ d =>
    obtain ⟨adm, h⟩ := h
    obtain ⟨hd, hid', c₀, hc₀, hstate, hattempt⟩ := exec_beginClosing h
    obtain rfl : c = d := Table.eq_of_key_eq hc hd (hid.trans hid'.symm)
    rw [hattempt, ht c₀ hc₀ (by rw [hstate]; rfl)]
    rfl

theorem CashOut.Move.undispatched_of_held {c' : CashOut} (hmove : c.Move op now c')
    (hheld : CashOuts.heldBy c.claim i) (hc : wasDispatched c.attempt = false)
    (hop : ∀ a, ¬op.dispatches c.id a i) : wasDispatched c'.attempt = false := by
  cases hc' : wasDispatched c'.attempt with
  | false => rfl
  | true =>
    obtain ⟨a, k, hdispatches, -, hwindow, -⟩ := hmove.dispatched_by hc hc'
    obtain rfl := heldBy_unique hheld (heldBy_of_inWindow hwindow)
    exact absurd hdispatches (hop a.id)

/-- A transaction that neither claims the Cash Out for the turn nor dispatches under its claim
leaves undispatched what the turn holds. -/
theorem Tables.Change.undispatched {adm : Admission} {t t' : Tables} (h : t.Change adm op now t')
    {c' : CashOut} (hc' : c' ∈ t'.cashOuts) (hheld : heldBy c'.claim i)
    (hbefore : ∀ c ∈ t.cashOuts, c.id = c'.id → heldBy c.claim i → wasDispatched c.attempt = false)
    (hclaim : ∀ id k, op = .claim id k → k.id ≠ i) (hdispatch : ∀ id a, ¬op.dispatches id a i) :
    wasDispatched c'.attempt = false := by
  obtain ⟨c, hc, rfl | hmove⟩ | hnew := h.origin hc'
  · exact hbefore c' hc rfl hheld
  · obtain hheld | ⟨k, hop, hk⟩ := hmove.heldBy hheld
    · exact hmove.undispatched_of_held hheld (hbefore c hc hmove.evolves.id.symm hheld)
        (hdispatch c.id)
    · exact absurd hk (hclaim c.id k hop)
  · rw [hnew.unclaimed.1]
    rfl

theorem Operation.isDispatch_of_dispatches {a : UUID} (h : op.dispatches id a i) :
    op.isDispatch := by
  obtain rfl | ⟨req, rfl, -⟩ := h <;> rfl

theorem Permitted.turn_of_dispatches {k : ℕ} {h : WorkerHistory} {a : UUID} (hp : Permitted i h op)
    (hop : op.dispatches id a k) : k = i := by
  obtain rfl | ⟨req, rfl, -, -, rfl⟩ := hop
  · exact hp.1
  · exact hp.1

theorem World.Reachable.agrees {w : World} (hw : w.Reachable) : Agrees w.shared w.log := by
  refine Pool.Reachable.of_events keeps_of_starts ?_ ?_ hw
  · exact fun i c hc => absurd hc (Table.not_mem_empty c)
  rintro w ⟨cause, before, after⟩ hw hagrees rfl hlawful hrule i c' hc' hheld hu
  rw [history_snoc] at hu
  have hbefore (hu : Undispatched (history w.log i) c'.id) (c : CashOut)
      (hc : c ∈ w.shared.cashOuts) (hid : c.id = c'.id) (hheld : heldBy c.claim i) :
      wasDispatched c.attempt = false := hagrees i c hc hheld (hid ▸ hu)
  cases cause with
  | none =>
    -- a user neither claims nor dispatches
    obtain ⟨adm, op, now, r, hop, h⟩ := hlawful
    rw [entry, toList_none, append_nil] at hu
    refine (exec_change h).undispatched hc' hheld (hbefore hu) ?_ ?_
    · rintro id k rfl
      cases hop
    · rintro id a (rfl | ⟨req, rfl, -⟩) <;> cases hop
  | some cause =>
    obtain ⟨j, x⟩ := cause
    have hserves : serves w.shared x.1 x.2 after := hlawful
    by_cases hji : j = i
    · subst hji
      have hentry : entry j ⟨some (j, x), w.shared, after⟩ = some x :=
        entry_eq_some.mpr rfl
      rw [hentry, toList_some] at hu
      obtain ⟨hu', y, hy, hclaims⟩ | hshows := hu.of_snoc
      · obtain rfl | ⟨op, now, r, adm, a, rfl, hr, h⟩ := eq_or_exec_of_serves hserves
        · exact hbefore hu' c' hc' rfl hheld
        · have hpermitted : Permitted j (history w.log j) op :=
            hrule j _ rfl (fair hw)
          refine (exec_change h).undispatched hc' hheld (hbefore hu') ?_ ?_
          · -- the turn claimed before, and a turn claims once
            rintro id k rfl
            exact absurd hclaims (hpermitted.2 y hy)
          · intro id a hdispatches
            refine hu.2 _ (mem_append_right _ (mem_singleton.mpr rfl)) ?_
            exact ⟨op, now, r, rfl, Operation.isDispatch_of_dispatches hdispatches, hr⟩
      · exact hshows.undispatched (steady hw).holds.early hserves hc' rfl
    · have hentry : entry i ⟨some (j, x), w.shared, after⟩ = none :=
        entry_of_turn_ne (by simpa [turn] using hji)
      rw [hentry, toList_none, append_nil] at hu
      obtain rfl | ⟨op, now, r, adm, a, rfl, -, h⟩ := eq_or_exec_of_serves hserves
      · exact hbefore hu c' hc' rfl hheld
      · have hpermitted : Permitted j (history w.log j) op :=
          hrule j _ rfl (fair hw)
        refine (exec_change h).undispatched hc' hheld (hbefore hu) ?_ ?_
        · rintro id k rfl hk
          exact hji (hpermitted.1.symm.trans hk)
        · intro id a hdispatches
          exact hji (hpermitted.turn_of_dispatches hdispatches).symm

end Athena.CashOuts
