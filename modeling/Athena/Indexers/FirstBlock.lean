import Athena.Indexers.ExactlyOnce
import Mathlib.Order.Interval.Set.Defs

/-!
# Where a scan begins

The timestamps of a chain do not decrease.  The block before the lower bound of the bisection is
too old and its upper bound is not, so that where they meet is the first block of the time in
question.  The checkpoint with which a scan begins is there.
-/

namespace Athena.Indexers

open Athena.Lib Pool Program Sample

def Chain.time (chain : Chain) (n : ℕ) : ℕ := (chain.block n).time

section bisection
variable {ρ : Type} {chain : Chain} {target : ℕ} {answer : (c : Call ρ) → c.Reply}

theorem eval_headerByNumber {n : ℕ} (hn : n < 2 ^ 64)
    (hanswer : answer (.headerByNumber n) = .ok (some (chain.header n))) :
    (headerByNumber n).eval answer = .ok (chain.header n) := by
  have hvalid : ensure ((chain.header n).number.isSome ∧ (chain.header n).uint64 = n)
      (Failure.invalidHeader n) = .ok () := ensure_eq_ok.mpr ⟨rfl, Nat.mod_eq_of_lt hn⟩
  simp only [headerByNumber, ask, accept, eval_bind, Program.ask, eval, eval_ofExcept]
  rw [hanswer]
  simp only [bind_ok, found, hvalid]
  rfl

theorem isLeast_of_met {low : ℕ} (hold : ∀ n < low, chain.time n < target)
    (hnew : target ≤ chain.time low) : IsLeast {n | target ≤ chain.time n} low :=
  ⟨hnew, fun n hn => Nat.le_of_not_lt fun hlt => Nat.not_le.mpr (hold n hlt) hn⟩

theorem eval_bisect {top fuel low high : ℕ} (hmono : MonotoneOn chain.time (Set.Iic top))
    (htop : top < 2 ^ 64)
    (hanswer : ∀ n ≤ top, answer (.headerByNumber n) = .ok (some (chain.header n)))
    (hfuel : high - low ≤ fuel) (hle : low ≤ high) (hhigh : high ≤ top)
    (hold : ∀ n < low, chain.time n < target) (hnew : target ≤ chain.time high) :
    ∃ r, (bisect target fuel low high).eval answer = .ok r ∧
      IsLeast {n | target ≤ chain.time n} r := by
  induction fuel generalizing low high with
  | zero =>
    obtain rfl : low = high := by omega
    exact ⟨low, rfl, isLeast_of_met hold hnew⟩
  | succ fuel ih =>
    unfold bisect
    split
    · rename_i hlt
      have hmid : low + (high - low) / 2 < high := by omega
      have hmid' := hmid.le.trans hhigh
      simp only [eval_bind, eval_headerByNumber (hmid'.trans_lt htop) (hanswer _ hmid')]
      rw [bind_ok]
      split
      · rename_i hearly
        refine ih (by omega) hmid hhigh (fun n hn => ?_) hnew
        have hn := Nat.lt_succ_iff.mp hn
        exact (hmono (hn.trans hmid') hmid' hn).trans_lt hearly
      · rename_i hlate
        exact ih (by omega) (by omega) hmid' hold (Nat.le_of_not_lt hlate)
    · obtain rfl : low = high := by omega
      exact ⟨low, rfl, isLeast_of_met hold hnew⟩

end bisection

theorem targetTimestamp_le (finalized : Header) : targetTimestamp finalized ≤ finalized.time := by
  unfold targetTimestamp
  split <;> omega

/-- Whoever stores a first checkpoint lets it start at the first block of the last thirty days
before the finalized block that was read, or at block 1. -/
def BeginsAtTarget {ρ : Type} [Record ρ] (chain : Chain) (w : World ρ) : Prop :=
  ∀ l₁ e l₂ i c r, w.log = l₁ ++ e :: l₂ →
    e.cause = some (i, ⟨.initializeScanCheckpoint c, r⟩) →
    ∃ finalized, HasFinalized (history l₁ i) finalized ∧ (c.startBlockNumber = 1 ∨
      IsLeast {n | targetTimestamp finalized ≤ chain.time n} c.startBlockNumber)

theorem begins_of_reachable {ρ : Type} [Record ρ] {chain : Chain} {starts : Handler ρ Unit → Prop}
    {batch : List (Entry ρ) → Checkpoint → List ρ → Checkpoint → Prop} {w : World ρ}
    (hstarts : ∀ p, starts p → p.Guards (Rule batch) (fun _ _ => True) [])
    (hmono : MonotoneOn chain.time (Set.Iic chain.height))
    (hw : (pool chain.Answers starts).Reachable w) : BeginsAtTarget chain w := by
  intro l₁ e l₂ i c r hlog hcause
  have hc : Anchored (history l₁ i) c :=
    (Pool.Reachable.guarded (P := fun _ => Rule batch) hw fun _ p hp => hstarts p hp).log
      l₁ e l₂ i _ hlog hcause
  have hanswers : ∀ x ∈ history l₁ i, chain.Answers x.1 x.2 := fun x hx =>
    answers_of_mem_history hw (by rw [hlog, history_append]; exact List.mem_append_left _ hx)
  obtain ⟨finalized, hread, hle, hbefore, hfrom⟩ := hc.bisected
  obtain ⟨n, hn, rfl⟩ := hanswers _ hread.1 finalized rfl
  have hnumber : n = (chain.header n).uint64 := Option.some.inj hread.2
  have hstart := hc.start
  have htop : c.startBlockNumber ≤ chain.height := by omega
  refine ⟨_, hread, hbefore.imp_right fun ⟨header, hh, hold⟩ => isLeast_of_met (fun m hm => ?_) ?_⟩
  · obtain ⟨hcursor, rfl⟩ := hanswers _ hh.1 header rfl
    have hm : m ≤ c.cursorBlockNumber := by omega
    exact (hmono (hm.trans hcursor) hcursor hm).trans_lt hold
  · obtain heq | ⟨m, hm, header, hh, hnew⟩ := hfrom
    · rw [heq, ← hnumber]
      exact targetTimestamp_le (chain.header n)
    · obtain ⟨hm', rfl⟩ := hanswers _ hh.1 header rfl
      exact hnew.trans (hmono hm' htop hm)

/-- Over a chain whose timestamps do not decrease, the bisection returns the first block that is
not older than the target, and the checkpoints of both indexers begin there. -/
theorem scans_begin_at_target {chain : Chain}
    (hmono : MonotoneOn chain.time (Set.Iic chain.height)) :
    (∀ (ρ : Type) (answer : (c : Call ρ) → c.Reply), ∀ high ≤ chain.height, high < 2 ^ 64 →
      (∀ n ≤ high, answer (.headerByNumber n) = .ok (some (chain.header n))) →
      ∀ target ≤ chain.time high, ∃ r, (findFirstBlockAtOrAfter high target).eval answer = .ok r ∧
        IsLeast {n | target ≤ chain.time n} r) ∧
    (∀ w, (Inbound.indexer chain.Answers).Reachable w → BeginsAtTarget chain w) ∧
    ∀ w, (Swap.indexer chain.Answers).Reachable w → BeginsAtTarget chain w := by
  refine ⟨fun ρ answer high hhigh hlt hanswer target htarget => ?_, fun _ hw => ?_, fun _ hw => ?_⟩
  · refine eval_bisect (fun n hn m hm hle => ?_) hlt hanswer (Nat.sub_le ..) (Nat.zero_le _)
      (le_refl _) nofun htarget
    exact hmono (le_trans hn hhigh) (le_trans hm hhigh) hle
  · exact begins_of_reachable Inbound.guards_of_starts hmono hw
  · exact begins_of_reachable Swap.guards_of_starts hmono hw

theorem scans_begin_at_target_sample :
    (∃ r, (findFirstBlockAtOrAfter 2 4).eval
        (fun c => (Sample.chain.answer Sample.inbound.shared c).1) = .ok r ∧
      IsLeast {n | 4 ≤ Sample.chain.time n} r) ∧
    BeginsAtTarget Sample.chain Sample.inbound ∧ Sample.inbound.shared.checkpoint.isSome := by
  have hordered : ∀ m ≤ 2, ∀ n ≤ m, chain.time n ≤ chain.time m := by decide
  have hmono : MonotoneOn chain.time (Set.Iic chain.height) :=
    fun n _ m hm hle => hordered m hm n hle
  obtain ⟨hfirst, hbegins, -⟩ := scans_begin_at_target hmono
  refine ⟨hfirst _ _ 2 (le_refl _) (by decide) (fun n hn => ?_) 4 (by decide), hbegins _ ?_, ?_⟩
  · simp [Chain.answer, show n ≤ chain.height from hn]
  · exact reachable_script _
  · decide +kernel

end Athena.Indexers
