import Athena.Token.Inspection
import Mathlib.Algebra.Order.BigOperators.Group.List
import Mathlib.Tactic.Abel

/-!
# Initial recipients

The wallets that a creation left with tokens of the new contract: who received more than they
sent, by the transfers of the receipt.  The order of the logs does not matter, as sums do not
depend on it and no two wallets have one place in the order of the result.
-/

namespace Athena.Token

open Athena.Indexers (Address)
open Athena.Lib List

/-- The tokens that a wallet moved as one of the two sides of the transfers. -/
def total (side : Transfer → Address) (ts : List Transfer) (w : Address) : ℤ :=
  (ts.map fun t => if side t = w then (t.tokens.toNat : ℤ) else 0).sum

/-- What a wallet received less what it sent. -/
def netAmount (ts : List Transfer) (w : Address) : ℤ :=
  total Transfer.recipient ts w - total Transfer.sender ts w

/-- What stands earlier in the result: more tokens, or as many and the smaller address. -/
def Before (a b : InitialRecipientWallet) : Prop :=
  b.amount < a.amount ∨ a.amount = b.amount ∧ a.wallet.toNat < b.wallet.toNat

variable {l : Ledger} {ts : List Transfer} {w : Address} {tokenContract : Address} {limit : ℤ}
  {view : View} {recipients kept : List InitialRecipientWallet}

/-! ## The ledger -/

theorem netBalance_foldl (hw : w ≠ 0) :
    (ts.foldl Ledger.apply l).netBalance w = l.netBalance w + netAmount ts w := by
  induction ts generalizing l with
  | nil => simp [netAmount, total]
  | cons t ts ih =>
    have happly : (l.apply t).netBalance w = l.netBalance w +
        (if t.recipient = w then (t.tokens.toNat : ℤ) else 0) -
        if t.sender = w then (t.tokens.toNat : ℤ) else 0 := by
      unfold Ledger.apply Ledger.debit Ledger.credit
      split_ifs <;> grind
    simp only [foldl_cons, ih, happly, netAmount, total, map_cons, sum_cons]
    abel

theorem mem_candidates_foldl :
    w ∈ (ts.foldl Ledger.apply l).candidates ↔
      w ∈ l.candidates ∨ w ≠ 0 ∧ ∃ t ∈ ts, t.recipient = w := by
  induction ts generalizing l with
  | nil => simp
  | cons t ts ih =>
    have happly : w ∈ (l.apply t).candidates ↔ w ∈ l.candidates ∨ w ≠ 0 ∧ t.recipient = w := by
      simp only [Ledger.apply, Ledger.credit, Ledger.debit]
      split_ifs <;> grind
    rw [foldl_cons, ih, happly]
    simp only [mem_cons, exists_eq_or_imp, and_or_left, or_assoc]

theorem exists_of_netAmount_pos (h : 0 < netAmount ts w) : ∃ t ∈ ts, t.recipient = w := by
  by_contra! hnone
  have hsent : 0 ≤ total Transfer.sender ts w :=
    sum_nonneg (forall_mem_map.mpr fun t _ => by split_ifs <;> simp)
  have hzero : total Transfer.recipient ts w = 0 :=
    sum_eq_zero (forall_mem_map.mpr fun t ht => if_neg (hnone t ht))
  rw [netAmount, hzero] at h
  omega

/-- The wallets of a ledger are different, and none of them is the zero address. -/
structure Ledger.Sound (l : Ledger) : Prop where
  nodup : l.candidates.Nodup
  nonzero : (0 : Address) ∉ l.candidates

theorem Ledger.Sound.apply (h : l.Sound) (t : Transfer) : (l.apply t).Sound := by
  have hcandidates : ∀ (l : Ledger) w a, (l.debit w a).candidates = l.candidates := by
    intro l w a
    unfold Ledger.debit
    split <;> rfl
  suffices hcredit : (l.credit t.recipient t.tokens.toNat).Sound from
    ⟨by rw [Ledger.apply, hcandidates]; exact hcredit.nodup,
      by rw [Ledger.apply, hcandidates]; exact hcredit.nonzero⟩
  unfold Ledger.credit
  by_cases hzero : t.recipient = 0
  · rw [if_pos hzero]
    exact h
  rw [if_neg hzero]
  by_cases hmem : t.recipient ∈ l.candidates
  · simp only [if_pos hmem]
    exact ⟨h.nodup, h.nonzero⟩
  · simp only [if_neg hmem]
    refine ⟨?_, ?_⟩
    · rw [nodup_append]
      exact ⟨h.nodup, nodup_singleton _, fun a ha b hb heq => hmem (by simp_all)⟩
    · intro hmem
      rcases mem_append.mp hmem with hmem | hmem
      · exact h.nonzero hmem
      · exact hzero (mem_singleton.mp hmem).symm

theorem Ledger.Sound.foldl (h : l.Sound) (ts : List Transfer) :
    (ts.foldl Ledger.apply l).Sound := by
  induction ts generalizing l with
  | nil => exact h
  | cons t _ ih => exact ih (h.apply t)

theorem sound_extract (logs : List Log) (tokenContract : Address) :
    ((extractInitialRecipientWallets logs tokenContract).map InitialRecipientWallet.wallet).Nodup ∧
      ∀ r ∈ extractInitialRecipientWallets logs tokenContract, r.wallet ≠ 0 ∧ 0 < r.amount := by
  unfold extractInitialRecipientWallets
  split
  · simp
  have hsound : ((tokenTransfers logs tokenContract).foldl Ledger.apply {}).Sound :=
    Ledger.Sound.foldl ⟨nodup_nil, not_mem_nil⟩ _
  generalize (tokenTransfers logs tokenContract).foldl Ledger.apply {} = l at hsound
  refine ⟨?_, fun r hr => ?_⟩
  · refine ((perm_orderBy _ _).map _).nodup_iff.mpr ?_
    refine Nodup.sublist (filter_sublist.map _) ?_
    rw [map_map]
    exact (map_id l.candidates).symm ▸ hsound.nodup
  · obtain ⟨hmem, hamount⟩ := mem_filter.mp (mem_orderBy.mp hr)
    obtain ⟨w, hw, rfl⟩ := mem_map.mp hmem
    exact ⟨fun hzero => hsound.nonzero (hzero ▸ hw), of_decide_eq_true hamount⟩

/-! ## The result -/

theorem mem_extract (logs : List Log) (hne : tokenContract ≠ 0) (r : InitialRecipientWallet) :
    r ∈ extractInitialRecipientWallets logs tokenContract ↔ r.wallet ≠ 0 ∧ 0 < r.amount ∧
      r.amount = netAmount (tokenTransfers logs tokenContract) r.wallet := by
  rw [extractInitialRecipientWallets, if_neg hne, mem_orderBy, mem_filter, mem_map]
  simp only [mem_candidates_foldl, decide_eq_true_eq]
  constructor
  · rintro ⟨⟨w, hw, rfl⟩, hpos⟩
    obtain ⟨hzero, -⟩ := hw.resolve_left not_mem_nil
    exact ⟨hzero, hpos, by simp [netBalance_foldl hzero]⟩
  · rintro ⟨hzero, hpos, hamount⟩
    refine ⟨⟨r.wallet, .inr ⟨hzero, exists_of_netAmount_pos (hamount ▸ hpos)⟩, ?_⟩, hpos⟩
    simp [netBalance_foldl hzero, ← hamount]

instance : Std.Antisymm Before := ⟨fun _ _ h h' => by unfold Before at h h'; omega⟩

instance : Std.Irrefl Before := ⟨fun _ h => by unfold Before at h; omega⟩

theorem before_extract (logs : List Log) (hne : tokenContract ≠ 0) :
    (extractInitialRecipientWallets logs tokenContract).Pairwise Before := by
  have hnodup := (sound_extract logs tokenContract).1
  rw [extractInitialRecipientWallets, if_neg hne] at *
  refine ((pairwise_orderBy _ _).and (pairwise_map.mp hnodup)).imp fun {a b} ⟨hle, hne⟩ => ?_
  simp only [Prod.Lex.toLex_le_toLex] at hle
  have hne : a.wallet.toNat ≠ b.wallet.toNat := fun h => hne (BitVec.eq_of_toNat_eq h)
  unfold Before
  omega

theorem mapM_withCode {inspected : List (InitialRecipientWallet × Bytes)} :
    recipients.mapM (withCode view) = .ok inspected ↔
      (∀ r ∈ recipients, (view.codeAt r.wallet).isSome) ∧
        recipients.map (fun r => (r, (view.codeAt r.wallet).getD [])) = inspected := by
  induction recipients generalizing inspected with
  | nil => simp [pure, Except.pure]
  | cons r _ ih =>
    simp only [mapM_cons, withCode, committed]
    cases hcode : view.codeAt r.wallet <;> simp [ih, hcode]

theorem filter_eq_ok : filterInitialRecipientWallets limit view recipients = .ok kept ↔
    (∀ r ∈ recipients, (view.codeAt r.wallet).isSome) ∧
      kept = upTo limit (recipients.filter fun r => view.codeAt r.wallet = some []) := by
  simp only [filterInitialRecipientWallets, committed, mapM_withCode, and_assoc, exists_and_left,
    exists_eq_left']
  refine and_congr_right fun hall => ?_
  have hplain : ((recipients.map fun r => (r, (view.codeAt r.wallet).getD [])).filter
      fun x => x.2 = []).map Prod.fst =
        recipients.filter fun r => view.codeAt r.wallet = some [] := by
    rw [filter_map, map_map]
    refine (map_id _).trans (filter_congr fun r hr => ?_)
    obtain ⟨code, hcode⟩ := Option.isSome_iff_exists.mp (hall r hr)
    simp [hcode]
  rw [hplain, eq_comm]

theorem sublist_of_filter
    (h : filterInitialRecipientWallets initialRecipientWalletLimit view recipients = .ok kept) :
    kept.Sublist recipients := by
  rw [(filter_eq_ok.mp h).2, upTo, if_pos (by decide)]
  exact (take_sublist _ _).trans filter_sublist

/-- The initial recipients are exactly the wallets that received more than they sent, each once
with the difference, those with more tokens first, whatever the order of the logs.  If the code
of all is known, the first that have none are kept, as many as a positive limit allows. -/
theorem initial_recipients_exact (logs : List Log) {tokenContract : Address}
    (hne : tokenContract ≠ 0) :
    (∀ r, r ∈ extractInitialRecipientWallets logs tokenContract ↔ r.wallet ≠ 0 ∧ 0 < r.amount ∧
      r.amount = netAmount (tokenTransfers logs tokenContract) r.wallet) ∧
    (extractInitialRecipientWallets logs tokenContract).Pairwise Before ∧
    (∀ logs', logs.Perm logs' → extractInitialRecipientWallets logs' tokenContract =
      extractInitialRecipientWallets logs tokenContract) ∧
    ∀ limit view recipients kept, filterInitialRecipientWallets limit view recipients = .ok kept ↔
      (∀ r ∈ recipients, (view.codeAt r.wallet).isSome) ∧
        kept = upTo limit (recipients.filter fun r => view.codeAt r.wallet = some []) := by
  have hmem := (mem_extract · hne)
  have hbefore := (before_extract · hne)
  refine ⟨hmem logs, hbefore logs, fun logs' h => ?_, fun _ _ _ _ => filter_eq_ok⟩
  have hperm : (tokenTransfers logs' tokenContract).Perm (tokenTransfers logs tokenContract) :=
    h.symm.filterMap _
  have htotal (side : Transfer → Address) (w : Address) :
      total side (tokenTransfers logs' tokenContract) w =
        total side (tokenTransfers logs tokenContract) w := (hperm.map _).sum_eq
  refine (hbefore logs').eq_of_mem_iff (hbefore logs) fun r => ?_
  rw [hmem, hmem, netAmount, netAmount, htotal, htotal]

/-- Wallet 5 received 7 and sent 2, wallet 6 received 2. -/
theorem initial_recipients_exact_sample :
    ⟨5, 5⟩ ∈ extractInitialRecipientWallets
      [⟨9, some ⟨0, 5, 7⟩⟩, ⟨9, some ⟨5, 6, 2⟩⟩, ⟨8, some ⟨0, 6, 9⟩⟩] 9 :=
  ((initial_recipients_exact _ (by decide)).1 ⟨5, 5⟩).mpr (by decide)

/-- A limit of zero keeps every wallet without code. -/
theorem zero_limit_keeps_all :
    filterInitialRecipientWallets 0 ⟨fun _ => some [], fun _ => none, fun _ => 0⟩ [⟨5, 5⟩] =
      .ok [⟨5, 5⟩] := rfl

end Athena.Token
