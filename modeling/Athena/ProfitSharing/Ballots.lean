import Athena.ProfitSharing.Publication

/-!
# Profit sharing: ballots and runoffs

A round that is published votes on all proposals.  A ballot is closed when every participant
has voted in it.  If one candidate leads it is the final proposal; if several do, a runoff
ballot on them follows.
-/

namespace Athena.ProfitSharing

open Athena.Lib Table List

namespace RoundRows

def IsLeader (r : RoundRows) (n : ℕ) (id : ProposalID) : Prop :=
  id ∈ r.candidatesOf n ∧ ∀ other ∈ r.candidatesOf n, r.voteCount n other ≤ r.voteCount n id

/-! ## Tallies -/

variable {r r' : RoundRows} {n k : ℕ} {ballot : Ballot}

theorem mem_listBallotTallies {t : ProposalID × ℕ} :
    t ∈ r.listBallotTallies n ↔ t.1 ∈ r.candidatesOf n ∧ t.2 = r.voteCount n t.1 := by
  rw [listBallotTallies, mem_orderBy, mem_map]
  constructor
  · rintro ⟨id, hid, rfl⟩
    exact ⟨hid, rfl⟩
  · rintro ⟨hid, hcount⟩
    exact ⟨t.1, hid, Prod.ext rfl hcount.symm⟩

theorem pairwise_listBallotTallies (r : RoundRows) (n : ℕ) :
    (r.listBallotTallies n).Pairwise fun s t => t.2 ≤ s.2 := by
  refine (pairwise_orderBy _ _).imp ?_
  intro s t hst
  rcases Prod.Lex.le_iff.mp hst with hlt | ⟨heq, -⟩
  · exact le_of_lt hlt
  · exact le_of_eq (OrderDual.toDual_inj.mp heq).symm

theorem mem_tiedProposalIDs {id : ProposalID} :
    id ∈ tiedProposalIDs (r.listBallotTallies n) ↔ r.IsLeader n id := by
  have hmem (t : ProposalID × ℕ) := mem_listBallotTallies (r := r) (n := n) (t := t)
  have hpairwise := pairwise_listBallotTallies r n
  cases htallies : r.listBallotTallies n with
  | nil =>
    have hnone (id : ProposalID) : id ∉ r.candidatesOf n := by
      intro hid
      have := (hmem (id, r.voteCount n id)).mpr ⟨hid, rfl⟩
      simp [htallies] at this
    simp [tiedProposalIDs, IsLeader, hnone]
  | cons first rest =>
    rw [htallies] at hmem hpairwise
    have hmax {other : ProposalID} (hother : other ∈ r.candidatesOf n) :
        r.voteCount n other ≤ first.2 := by
      have hin : (other, r.voteCount n other) ∈ first :: rest :=
        (hmem _).mpr ⟨hother, rfl⟩
      rcases mem_cons.mp hin with heq | hin
      · rw [← heq]
      · exact (pairwise_cons.mp hpairwise).1 _ hin
    obtain ⟨hfirst, hcount⟩ := (hmem first).mp mem_cons_self
    rw [tiedProposalIDs, mem_map]
    constructor
    · rintro ⟨t, ht, rfl⟩
      obtain ⟨ht, heq⟩ := (mem_takeWhile_of_pairwise hpairwise).mp ht
      obtain ⟨hcandidate, htcount⟩ := (hmem t).mp ht
      refine ⟨hcandidate, fun other hother => ?_⟩
      rw [← htcount, heq]
      exact hmax hother
    · rintro ⟨hcandidate, hleads⟩
      refine ⟨(id, r.voteCount n id), (mem_takeWhile_of_pairwise hpairwise).mpr ?_, rfl⟩
      refine ⟨(hmem _).mpr ⟨hcandidate, rfl⟩, le_antisymm (hmax hcandidate) ?_⟩
      rw [hcount]
      exact hleads first.1 hfirst

/-! ## Candidates and votes of a ballot -/

theorem candidatesOf_append {m : ℕ} {ids : List ProposalID}
    (h : r'.candidates.rows = r.candidates.rows ++ ids.map fun id => ⟨n, id⟩) :
    r'.candidatesOf m = r.candidatesOf m ++ if m = n then ids else [] := by
  unfold candidatesOf
  rw [h, filter_append, map_append]
  congr 1
  by_cases hm : m = n
  · subst hm
    simp [filter_map, Function.comp_def]
  · simp [filter_map, Function.comp_def, hm, Ne.symm hm]

theorem votesOf_upsert_of_ne {vote : Vote} (h : n ≠ vote.ballotNumber) :
    ({ r with votes := r.votes.upsert vote } : RoundRows).votesOf n = r.votesOf n := by
  unfold votesOf upsert
  rw [filter_append, filter_filter]
  have hnew : ([vote].filter fun v => v.ballotNumber = n) = [] := by simp [Ne.symm h]
  rw [hnew, append_nil]
  apply filter_congr
  intro v _
  by_cases hv : v.ballotNumber = n
  · have : v.key ≠ vote.key := fun hkey => h (hv ▸ congrArg Prod.fst hkey)
    simp [hv, this]
  · simp [hv]

theorem candidatesOf_eq_nil (hr : r.Constraints) (h : n ∉ r.ballots.rows.map (·.number)) :
    r.candidatesOf n = [] := by
  rw [candidatesOf, map_eq_nil_iff, filter_eq_nil_iff]
  intro c hc hn
  have hballot := (hr.ballot.candidate c hc).1
  exact h (of_decide_eq_true hn ▸ hballot)

theorem nodup_map_filter {α β : Type} {key : α → ℕ × β} (t : Table key) (n : ℕ) :
    ((t.rows.filter fun a => (key a).1 = n).map fun a => (key a).2).Nodup := by
  refine Nodup.map_on ?_ ((t.nodup.of_map _).filter _)
  intro a ha b hb hab
  obtain ⟨ha, han⟩ := List.mem_filter.mp ha
  obtain ⟨hb, hbn⟩ := List.mem_filter.mp hb
  refine eq_of_key_eq ha hb (Prod.ext ?_ hab)
  exact (of_decide_eq_true han).trans (of_decide_eq_true hbn).symm

theorem voters_perm (hr : r.Constraints) (h : (r.votesOf n).length = r.participants.rows.length) :
    ((r.votesOf n).map (·.voterAccountID)).Perm (r.participants.rows.map (·.accountID)) := by
  have hnodup : ((r.votesOf n).map (·.voterAccountID)).Nodup := nodup_map_filter r.votes n
  have hsubset : (r.votesOf n).map (·.voterAccountID) ⊆ r.participants.rows.map (·.accountID) := by
    intro a ha
    obtain ⟨v, hv, rfl⟩ := List.mem_map.mp ha
    exact (hr.ballot.vote v (List.mem_filter.mp hv).1).1
  refine (hnodup.subperm hsubset).perm_of_length_le ?_
  simp [h]

/-! ## The invariant -/

/-- The ballots of a published round, of which `k` is the active one. -/
structure Balloted (r : RoundRows) (k : ℕ) : Prop where
  active : r.round.activeBallotNumber = some k
  numbers : ∀ n, n ∈ r.ballots.rows.map (·.number) ↔ 1 ≤ n ∧ n ≤ k
  status : ∀ b ∈ r.ballots, b.status = .opened ↔ b.number = k ∧ r.round.phase = .voting
  first : ∀ id, id ∈ r.candidatesOf 1 ↔ id ∈ r.proposals.rows.map (·.id)
  runoff : ∀ n, 1 ≤ n → n < k → ∀ id, id ∈ r.candidatesOf (n + 1) ↔ r.IsLeader n id
  several : ∀ n, 1 ≤ n → n ≤ k → 2 ≤ (r.candidatesOf n).length
  voters : ∀ b ∈ r.ballots, b.status = .closed →
    ((r.votesOf b.number).map (·.voterAccountID)).Perm (r.participants.rows.map (·.accountID))
  winner : r.round.phase = .closed → ∃ w, r.round.finalProposalID = some w ∧
    w ∈ r.candidatesOf k ∧ ∀ other ∈ r.candidatesOf k, other ≠ w →
      r.voteCount k other < r.voteCount k w

structure Balloting (r : RoundRows) : Prop where
  before : ¬r.Published → r.ballots.rows = [] ∧ r.candidates.rows = []
  after : r.Published → ∃ k, r.Balloted k

theorem Fresh.balloting (h : r.Fresh) : r.Balloting where
  before _ := by
    rw [h.ballots, h.candidates]
    exact ⟨rfl, rfl⟩
  after hpublished := by
    rw [Published, h.phase] at hpublished
    simp at hpublished

theorem closed_of_not_opened {b : Ballot} (h : b.status ≠ .opened) : b.status = .closed := by
  cases hb : b.status with
  | opened => exact absurd hb h
  | closed => rfl

theorem Balloted.pos (h : r.Balloted k) (hballot : ballot ∈ r.ballots)
    (hnumber : ballot.number = k) :
    1 ≤ k :=
  ((h.numbers k).mp (mem_map.mpr ⟨ballot, hballot, hnumber⟩)).1

/-! ## The invariant is kept -/

theorem balloted_of_publication {ids : List ProposalID}
    (hbefore : r.ballots.rows = [] ∧ r.candidates.rows = []) (hphase : r'.round.phase = .voting)
    (hactive : r'.round.activeBallotNumber = some 1) (hcount : 2 ≤ ids.length)
    (hballot : ballot.number = 1 ∧ ballot.status = .opened)
    (hballots : r'.ballots.rows = r.ballots.rows ++ [ballot])
    (hids : ids.Perm (r'.proposals.rows.map (·.id)))
    (hcandidates : r'.candidates.rows = r.candidates.rows ++ ids.map fun id => ⟨1, id⟩) :
    r'.Balloted 1 := by
  have hrows : r'.ballots.rows = [ballot] := by rw [hballots, hbefore.1, nil_append]
  have honly {b : Ballot} (hb : b ∈ r'.ballots) : b = ballot := by
    rw [← mem_rows, hrows] at hb
    exact mem_singleton.mp hb
  have hfirst : r'.candidatesOf 1 = ids := by
    rw [candidatesOf_append hcandidates]
    simp [candidatesOf, hbefore.2]
  refine ⟨hactive, ?_, ?_, ?_, ?_, ?_, ?_, ?_⟩
  · intro n
    simp only [hrows, map_cons, map_nil, mem_singleton, hballot.1]
    omega
  · intro b hb
    rw [honly hb]
    simp [hballot, hphase]
  · intro id
    rw [hfirst, hids.mem_iff]
  · intro n hn hlt
    omega
  · intro n hn hle
    obtain rfl : n = 1 := by omega
    rwa [hfirst]
  · intro b hb hclosed
    rw [honly hb, hballot.2] at hclosed
    cases hclosed
  · intro hclosed
    rw [hphase] at hclosed
    cases hclosed

theorem Balloted.vote {vote : Vote} (h : r.Balloted k) (hphase : r.round.phase = .voting)
    (hvote : vote.ballotNumber = k) :
    ({ r with votes := r.votes.upsert vote } : RoundRows).Balloted k := by
  have hother {n : ℕ} (hn : n ≠ k) :
      ({ r with votes := r.votes.upsert vote } : RoundRows).votesOf n = r.votesOf n :=
    votesOf_upsert_of_ne (hvote ▸ hn)
  refine ⟨h.active, h.numbers, h.status, h.first, ?_, h.several, ?_, ?_⟩
  · intro n hn hlt id
    have hcount (id : ProposalID) :
        ({ r with votes := r.votes.upsert vote } : RoundRows).voteCount n id =
          r.voteCount n id := by
      rw [voteCount, voteCount, hother (by omega)]
    simp only [IsLeader, hcount]
    exact h.runoff n hn hlt id
  · intro b hb hclosed
    have hne : b.number ≠ k := by
      intro hk
      rw [(h.status b hb).mpr ⟨hk, hphase⟩] at hclosed
      cases hclosed
    rw [hother hne]
    exact h.voters b hb hclosed
  · intro hclosed
    rw [hphase] at hclosed
    cases hclosed

section Closing
variable {ballot' : Ballot} {row : Round} (hr : r.Constraints) (h : r.Balloted k)
  (hnumber : ballot.number = k) (hvotes : (r.votesOf k).length = r.participants.rows.length)
  (hballot' : ballot' = { ballot with status := .closed, closedAt := ballot'.closedAt })
include hr h hnumber hvotes hballot'

theorem Balloted.closes (b : Ballot) (hb : b ∈ r.ballots.put ballot') : b.status = .closed ∧
    ((r.votesOf b.number).map (·.voterAccountID)).Perm (r.participants.rows.map (·.accountID)) := by
  have hnumber' : ballot'.number = k := by rw [hballot', ← hnumber]
  rcases eq_or_mem_of_mem_put hb with rfl | ⟨hb, hne⟩
  · exact ⟨by rw [hballot'], hnumber'.symm ▸ voters_perm hr hvotes⟩
  · have hclosed : b.status = .closed := closed_of_not_opened fun hopen =>
      hne (((h.status b hb).mp hopen).1.trans hnumber'.symm)
    exact ⟨hclosed, h.voters b hb hclosed⟩

theorem Balloted.win {winner : ProposalID}
    (htied : tiedProposalIDs (r.listBallotTallies k) = [winner])
    (hactive : row.activeBallotNumber = r.round.activeBallotNumber) (hphase : row.phase = .closed)
    (hfinal : row.finalProposalID = some winner) :
    ({ r with round := row, ballots := r.ballots.put ballot' } : RoundRows).Balloted k := by
  have hcloses := h.closes hr hnumber hvotes hballot'
  refine ⟨hactive.trans h.active, ?_, ?_, h.first, h.runoff, h.several,
    fun b hb _ => (hcloses b hb).2, ?_⟩
  · intro n
    rw [keys_put]
    exact h.numbers n
  · intro b hb
    simp [(hcloses b hb).1, hphase]
  · intro _
    have hleads : r.IsLeader k winner := mem_tiedProposalIDs.mp (by simp [htied])
    refine ⟨winner, hfinal, hleads.1, ?_⟩
    intro other hother hne
    refine lt_of_le_of_ne (hleads.2 other hother) fun heq => hne ?_
    -- a candidate with as many votes would be tied
    have hother : r.IsLeader k other := ⟨hother, fun c hc => (hleads.2 c hc).trans heq.ge⟩
    simpa [htied] using mem_tiedProposalIDs.mpr hother

theorem Balloted.tie {runoff : Ballot} {ballots : Table Ballot.number}
    {candidates : Table Candidate.key} (hballot : ballot ∈ r.ballots)
    (htallies : r.listBallotTallies k ≠ [])
    (htied : (tiedProposalIDs (r.listBallotTallies k)).length ≠ 1)
    (hrunoff : runoff.number = k + 1 ∧ runoff.status = .opened)
    (hballots : ballots.rows = (r.ballots.put ballot').rows ++ [runoff])
    (hcandidates : candidates.rows = r.candidates.rows ++
      (tiedProposalIDs (r.listBallotTallies k)).map fun id => ⟨k + 1, id⟩)
    (hactive : row.activeBallotNumber = some (k + 1)) (hphase : row.phase = .voting) :
    ({ r with round := row, ballots := ballots, candidates := candidates } : RoundRows).Balloted
      (k + 1) := by
  have hk : 1 ≤ k := h.pos hballot hnumber
  have hcloses := h.closes hr hnumber hvotes hballot'
  have hnumbers (n : ℕ) : n ∈ (r.ballots.put ballot').rows.map (·.number) ↔ 1 ≤ n ∧ n ≤ k := by
    rw [keys_put]
    exact h.numbers n
  have hnew : r.candidatesOf (k + 1) = [] := by
    refine candidatesOf_eq_nil hr fun hmem => ?_
    have := (h.numbers (k + 1)).mp hmem
    omega
  -- the candidates of the runoff are the leaders, and those of the other ballots stay
  have hold {n : ℕ} (hn : n ≠ k + 1) :
      ({ r with round := row, ballots := ballots, candidates := candidates } :
        RoundRows).candidatesOf
        n = r.candidatesOf n := by
    rw [candidatesOf_append (r := r) hcandidates, if_neg hn, append_nil]
  have hnext :
      ({ r with round := row, ballots := ballots, candidates := candidates } :
        RoundRows).candidatesOf
        (k + 1) = tiedProposalIDs (r.listBallotTallies k) := by
    rw [candidatesOf_append (r := r) hcandidates, hnew, if_pos rfl, nil_append]
  have hcases {b : Ballot} (hb : b ∈ ballots) : b ∈ r.ballots.put ballot' ∨ b = runoff := by
    simpa [← mem_rows, hballots] using hb
  refine ⟨hactive, ?_, ?_, ?_, ?_, ?_, ?_, ?_⟩
  · intro n
    simp only [hballots, map_append, mem_append, map_cons, map_nil,
      mem_singleton, hrunoff.1, hnumbers]
    omega
  · intro b hb
    rcases hcases hb with hb | rfl
    · have hle := ((hnumbers b.number).mp (mem_map_of_mem hb)).2
      have hne : b.number ≠ k + 1 := by omega
      simp [(hcloses b hb).1, hne]
    · simp [hrunoff, hphase]
  · intro id
    rw [hold (by omega)]
    exact h.first id
  · intro n hn hlt id
    rw [IsLeader, hold (by omega : n ≠ k + 1)]
    rcases Nat.lt_or_ge n k with hlt' | hge
    · rw [hold (by omega)]
      exact h.runoff n hn hlt' id
    · obtain rfl : n = k := by omega
      rw [hnext]
      exact mem_tiedProposalIDs
  · intro n hn hle
    rcases Nat.lt_or_ge n (k + 1) with hlt | hge
    · rw [hold (by omega)]
      exact h.several n hn (by omega)
    · obtain rfl : n = k + 1 := by omega
      rw [hnext]
      have hne : (tiedProposalIDs (r.listBallotTallies k)).length ≠ 0 := by
        obtain ⟨first, rest, hfirst⟩ := exists_cons_of_ne_nil htallies
        rw [hfirst]
        simp [tiedProposalIDs]
      omega
  · intro b hb hclosed
    rcases hcases hb with hb | rfl
    · exact (hcloses b hb).2
    · rw [hrunoff.2] at hclosed
      cases hclosed
  · intro hclosed
    rw [hphase] at hclosed
    cases hclosed

end Closing

theorem Balloting.change (hr : r.Constraints) (h : r.Balloting) (hchange : Change r r') :
    r'.Balloting := by
  -- before the publication there are no ballots, and no operation makes one
  have hkeep {r' : RoundRows} (hphase : r.round.phase = .draft ∨ r.round.phase = .collecting)
      (hphase' : r'.round.phase = .draft ∨ r'.round.phase = .collecting)
      (hballots : r'.ballots = r.ballots)
      (hcandidates : r'.candidates = r.candidates ∨ r'.candidates = .empty) : r'.Balloting := by
    have hnot {r : RoundRows} (hphase : r.round.phase = .draft ∨ r.round.phase = .collecting) :
        ¬r.Published := by
      rcases hphase with hphase | hphase <;> simp [Published, hphase]
    obtain ⟨hb, hc⟩ := h.before (hnot hphase)
    refine ⟨fun _ => ⟨hballots ▸ hb, ?_⟩, fun hpublished => absurd hpublished (hnot hphase')⟩
    rcases hcandidates with hcandidates | hcandidates
    · rw [hcandidates, hc]
    · rw [hcandidates]
      rfl
  -- after it the active ballot is the one that the round names
  have hactive {n : ℕ} (hphase : r.round.phase = .voting)
      (hn : r.round.activeBallotNumber = some n) : r.Balloted n := by
    obtain ⟨k, hk⟩ := h.after (.inl hphase)
    obtain rfl : k = n := Option.some.inj (hk.active.symm.trans hn)
    exact hk
  have hpublished {r' : RoundRows} {k : ℕ} (hphase : r'.Published) (hk : r'.Balloted k) :
      r'.Balloting := ⟨fun hnot => absurd hphase hnot, fun _ => ⟨k, hk⟩⟩
  cases hchange with
  | configured hphase hrow =>
    exact hkeep (.inl hphase) (.inl ((congrArg Round.phase hrow :).trans hphase)) rfl (.inr rfl)
  | opened hphase hrow =>
    exact hkeep (.inl hphase) (.inr (congrArg Round.phase hrow :)) rfl (.inl rfl)
  | edited hphase | submitted hphase | reopened hphase =>
    exact hkeep (.inr hphase) (.inr hphase) rfl (.inl rfl)
  | @published row proposals ballots candidates ballot ids hphase hcount hlength hsubmitted
      hproposals hballot hballots hids hcandidates hrow =>
      have hphase' : row.phase = .voting := by rw [hrow]
      have hkeys := hproposals.map_eq (f := Proposal.id) fun p q hpq => by rw [hpq.1]
      have hids' : 2 ≤ ids.length := by
        rw [hids.length_eq, length_map, hlength, hcount]
        decide
      exact hpublished (.inl hphase') (balloted_of_publication
        (h.before (by simp [Published, hphase])) hphase' (by rw [hrow]) hids' hballot hballots
        (hids.trans (.of_eq hkeys.symm)) hcandidates)
  | voted hphase hn _ _ _ hvote =>
    exact hpublished (.inl hphase) ((hactive hphase hn).vote hphase hvote)
  | @won n ballot ballot' row winner hphase hn hballot hnumber hvotes htied hballot' hrow =>
    exact hpublished (.inr (by rw [hrow])) ((hactive hphase hn).win hr hnumber hvotes hballot' htied
      (by rw [hrow]) (by rw [hrow]) (by rw [hrow]))
  | @tied n ballot ballot' runoff row ballots candidates hphase hn hballot hnumber hvotes htallies
      htied hballot' hrunoff hballots hcandidates hrow =>
      have hphase' : row.phase = .voting := by rw [hrow]; exact hphase
      exact hpublished (.inl hphase') ((hactive hphase hn).tie hr hnumber hvotes hballot' hballot
        htallies htied hrunoff hballots hcandidates (by rw [hrow]) hphase')

end RoundRows

open RoundRows

variable {db : Database} {r : RoundRows}

theorem Reachable.balloting (h : Reachable db) (hr : r ∈ db.rounds) : r.Balloting :=
  h.rounds (fun _ => Fresh.balloting) (fun _ _ hr _ hballoting => hballoting.change hr) r hr

theorem RoundRows.nodup_candidatesOf (r : RoundRows) (n : ℕ) : (r.candidatesOf n).Nodup :=
  nodup_map_filter r.candidates n

theorem RoundRows.Constraints.vote_of_mem (hr : r.Constraints) {n : ℕ} {v : Vote}
    (hv : v ∈ r.votesOf n) : v.proposalID ∈ r.candidatesOf n ∧
      ∀ p ∈ r.proposals, p.id = v.proposalID → p.authorAccountID ≠ v.voterAccountID := by
  obtain ⟨hv, hn⟩ := List.mem_filter.mp hv
  obtain ⟨-, hcandidate, hauthor, hself⟩ := hr.ballot.vote v hv
  constructor
  · obtain ⟨c, hc, hkey⟩ := List.mem_map.mp hcandidate
    refine List.mem_map.mpr ⟨c, List.mem_filter.mpr ⟨hc, ?_⟩, congrArg Prod.snd hkey⟩
    exact decide_eq_true ((congrArg Prod.fst hkey).trans (of_decide_eq_true hn))
  · intro p hp hid
    obtain ⟨q, hq, hpair⟩ := List.mem_map.mp hauthor
    obtain ⟨hqid, hqauthor⟩ := Prod.mk.inj hpair
    obtain rfl : p = q := eq_of_key_eq hp hq (hid.trans hqid.symm)
    rw [hqauthor]
    exact hself.symm

theorem RoundRows.Constraints.exists_candidate (hr : r.Constraints) {n : ℕ}
    (h : 2 ≤ (r.candidatesOf n).length) (account : AccountID) :
    ∃ p ∈ r.proposals, p.id ∈ r.candidatesOf n ∧ p.authorAccountID ≠ account := by
  have hproposal (id : ProposalID) (hid : id ∈ r.candidatesOf n) :
      ∃ p ∈ r.proposals, p.id = id := by
    obtain ⟨c, hc, rfl⟩ := List.mem_map.mp hid
    obtain ⟨p, hp, hpid⟩ := List.mem_map.mp (hr.ballot.candidate c (List.mem_filter.mp hc).1).2
    exact ⟨p, hp, hpid⟩
  have hnodup := r.nodup_candidatesOf n
  rcases hcandidates : r.candidatesOf n with _ | ⟨a, _ | ⟨b, rest⟩⟩
  · simp [hcandidates] at h
  · simp [hcandidates] at h
  · rw [hcandidates] at hnodup
    obtain ⟨p, hp, hpid⟩ := hproposal a (by simp [hcandidates])
    obtain ⟨q, hq, hqid⟩ := hproposal b (by simp [hcandidates])
    by_cases hauthor : p.authorAccountID = account
    · refine ⟨q, hq, by simp [hqid], fun hq' => ?_⟩
      have hpq : p = q :=
        List.inj_on_of_nodup_map hr.proposal.authorUnique hp hq (hauthor.trans hq'.symm)
      have hab : a ≠ b := by
        intro hab
        simp [hab] at hnodup
      exact hab (by rw [← hpid, ← hqid, hpq])
    · exact ⟨p, hp, by simp [hpid], hauthor⟩

/-- In every database that operations can make, the ballots of a published round are numbered
from 1 to some `k`, and only ballot `k` can be open.  The candidates of ballot 1 are all
proposals, and those of each later ballot are the candidates of the ballot before with the most
votes, of which there are at least two.  A closed ballot has one vote of each participant, for a
candidate of the ballot that is not the voter's own, and in an open ballot each participant has
such a candidate.  The final proposal of a closed round has more votes in ballot `k` than any
other candidate. -/
theorem ballots_of_published_rounds (h : Reachable db) (hr : r ∈ db.rounds)
    (hpublished : r.round.phase = .voting ∨ r.round.phase = .closed) :
    ∃ k, 1 ≤ k ∧ (∀ n, n ∈ r.ballots.rows.map (·.number) ↔ 1 ≤ n ∧ n ≤ k) ∧
      (∀ b ∈ r.ballots, b.status = .opened → b.number = k) ∧
      (∀ id, id ∈ r.candidatesOf 1 ↔ id ∈ r.proposals.rows.map (·.id)) ∧
      (∀ n, 1 ≤ n → n < k →
        (∀ id, id ∈ r.candidatesOf (n + 1) ↔ id ∈ r.candidatesOf n ∧
          ∀ other ∈ r.candidatesOf n, r.voteCount n other ≤ r.voteCount n id) ∧
        (r.candidatesOf (n + 1)).Nodup ∧ 2 ≤ (r.candidatesOf (n + 1)).length) ∧
      (∀ b ∈ r.ballots, b.status = .closed →
        ((r.votesOf b.number).map (·.voterAccountID)).Perm
          (r.participants.rows.map (·.accountID)) ∧
        ∀ v ∈ r.votesOf b.number, v.proposalID ∈ r.candidatesOf b.number ∧
          ∀ p ∈ r.proposals, p.id = v.proposalID → p.authorAccountID ≠ v.voterAccountID) ∧
      (∀ b ∈ r.ballots, b.status = .opened → ∀ q ∈ r.participants,
        ∃ p ∈ r.proposals, p.id ∈ r.candidatesOf b.number ∧ p.authorAccountID ≠ q.accountID) ∧
      (r.round.phase = .closed → ∃ w, r.round.finalProposalID = some w ∧
        w ∈ r.candidatesOf k ∧ ∀ other ∈ r.candidatesOf k, other ≠ w →
          r.voteCount k other < r.voteCount k w) := by
  have hconstraints := db.constraints r hr
  obtain ⟨k, hk⟩ := (h.balloting hr).after hpublished
  have hnumber {b : Ballot} (hb : b ∈ r.ballots) : 1 ≤ b.number ∧ b.number ≤ k :=
    (hk.numbers b.number).mp (mem_map_of_mem hb)
  refine ⟨k, hconstraints.round.activeBallot k hk.active, hk.numbers, ?_, hk.first, ?_, ?_, ?_,
    hk.winner⟩
  · intro b hb hopen
    exact ((hk.status b hb).mp hopen).1
  · intro n hn hlt
    exact ⟨hk.runoff n hn hlt, r.nodup_candidatesOf _, hk.several (n + 1) (by omega) (by omega)⟩
  · intro b hb hclosed
    exact ⟨hk.voters b hb hclosed, fun v hv => hconstraints.vote_of_mem hv⟩
  · intro b hb _ q _
    exact hconstraints.exists_candidate (hk.several b.number (hnumber hb).1 (hnumber hb).2) _

namespace Sample

def ballot (number : ℕ) (choices : List ProposalID) : List (Instant × Operation) :=
  choices.zipIdx.map fun (choice, i) => (5, .submitVote "s" number (some (i + 1)) (some choice))

def voting : List (Instant × Operation) :=
  publishing ++ ballot 1 [19, 20, 19, 20, 18] ++ [(6, .closeBallot "s" 3)] ++
    ballot 2 [19, 20, 19, 19, 19] ++ [(7, .closeBallot "s" 4)]

def decides (db : Database) : Bool :=
  db.rounds.rows.any fun r => r.round.phase = .closed && r.round.finalProposalID = some 19 &&
    r.ballots.rows.map (·.number) = [1, 2] && r.voteCount 2 19 = 4 && r.voteCount 1 19 = 2

end Sample

/-- A round is decided in its second ballot, on two proposals that led the first with two votes
each. -/
theorem sample_decided_in_runoff :
    ∃ db r, Reachable db ∧ r ∈ db.rounds ∧ r.round.phase = .closed ∧
      r.round.finalProposalID = some 19 ∧ r.voteCount 1 19 = 2 ∧
      2 ≤ (r.candidatesOf 2).length ∧ ∀ other ∈ r.candidatesOf 2, other ≠ 19 →
        r.voteCount 2 other < 4 := by
  have hdecides : commitsWith (runAll Sample.voting .empty) Sample.decides := by decide +kernel
  obtain ⟨db, hdb, hdecides⟩ := exists_of_commitsWith hdecides
  simp only [Sample.decides, check_iff, any_eq_true] at hdecides
  obtain ⟨r, hr, ⟨⟨⟨hphase, hfinal⟩, hballots⟩, hvotes⟩, hvotes₁⟩ := hdecides
  have hreachable : Reachable db := runs_of_runAll hdb
  obtain ⟨k, -, hnumbers, -, -, hrunoffs, -, -, hwinner⟩ :=
    ballots_of_published_rounds hreachable hr (.inr hphase)
  obtain rfl : k = 2 := by
    have hge : 2 ≤ k := ((hnumbers 2).mp (by simp [hballots])).2
    have hmem : k = 1 ∨ k = 2 := by
      simpa [hballots] using (hnumbers k).mpr ⟨by omega, le_rfl⟩
    omega
  obtain ⟨w, hw, -, hmost⟩ := hwinner hphase
  obtain rfl : w = 19 := Option.mem_unique hw hfinal
  exact ⟨db, r, hreachable, hr, hphase, hfinal, hvotes₁, (hrunoffs 1 le_rfl (by decide)).2.2,
    hvotes ▸ hmost⟩

end Athena.ProfitSharing
