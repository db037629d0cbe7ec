import Athena.ProfitSharing.Projection

/-!
# Profit sharing: blind voting

Until a round is closed, a requester learns neither who else wrote which proposal nor how
anyone else voted.  Two databases that differ only there give the same messages.

The proof forgets.  `anonymous` drops the authors of the proposals but for the requester, and
`secret` drops what the others voted for.  Both states have the same rows after that, up to their
order, and the messages are made of what is left.  There is one exception: an administrator sees
whether a participant's proposal is submitted, which in a published round is true of all
(`Sound`).
-/

namespace Athena.ProfitSharing

open Athena.Lib Table Function List ProposalSnapshot RoundRows Vote

/-! ## What a requester may not learn -/

def anonymous (requester : AccountID) (p : Proposal) : Proposal :=
  if p.authorAccountID = requester then p else { p with authorAccountID := 0 }

def Vote.withoutAuthor (v : Vote) : Vote := { v with proposalAuthorAccountID := 0 }

def secret (requester : AccountID) (v : Vote) : Vote :=
  if v.voterAccountID = requester then v
  else { v with proposalID := 0, proposalAuthorAccountID := 0, createdAt := 0, updatedAt := 0 }

/-- Two states of a round that differ only in which participants, other than the requester, wrote
which proposals. -/
structure DifferInAuthors (requester : AccountID) (r r' : RoundRows) : Prop where
  round : r'.round = r.round
  participants : r'.participants.rows.Perm r.participants.rows
  items : r'.items.rows.Perm r.items.rows
  ballots : r'.ballots.rows.Perm r.ballots.rows
  candidates : r'.candidates.rows.Perm r.candidates.rows
  proposals : (r'.proposals.rows.map (anonymous requester)).Perm
    (r.proposals.rows.map (anonymous requester))
  votes : (r'.votes.rows.map Vote.withoutAuthor).Perm (r.votes.rows.map Vote.withoutAuthor)

/-- Two states of a round that differ only in what participants, other than the requester, voted
for in the active ballot. -/
structure DifferInVotes (requester : AccountID) (r r' : RoundRows) : Prop where
  round : r'.round = r.round
  participants : r'.participants.rows.Perm r.participants.rows
  proposals : r'.proposals.rows.Perm r.proposals.rows
  items : r'.items.rows.Perm r.items.rows
  ballots : r'.ballots.rows.Perm r.ballots.rows
  candidates : r'.candidates.rows.Perm r.candidates.rows
  votes : (r'.votes.rows.map fun v =>
      if r.round.activeBallotNumber = some v.ballotNumber then secret requester v else v).Perm
    (r.votes.rows.map fun v =>
      if r.round.activeBallotNumber = some v.ballotNumber then secret requester v else v)

/-- Two states of a round that agree in what the requester may see. -/
structure Alike (requester : AccountID) (r r' : RoundRows) : Prop where
  round : r'.round = r.round
  participants : r'.participants.rows.Perm r.participants.rows
  items : r'.items.rows.Perm r.items.rows
  ballots : r'.ballots.rows.Perm r.ballots.rows
  candidates : r'.candidates.rows.Perm r.candidates.rows
  proposals : (r'.proposals.rows.map (anonymous requester)).Perm
    (r.proposals.rows.map (anonymous requester))
  votes : (r'.votes.rows.map fun v => (secret requester v).withoutAuthor).Perm
    (r.votes.rows.map fun v => (secret requester v).withoutAuthor)

section Forgetting
variable {requester : AccountID} {r r' : RoundRows}

theorem perm_of_perm {α β γ : Type} {f : α → β} {g : α → γ} {l l' : List α}
    (h : (l.map f).Perm (l'.map f)) (hfg : ∃ k : β → γ, ∀ a, k (f a) = g a) :
    (l.map g).Perm (l'.map g) := by
  obtain ⟨k, hk⟩ := hfg
  have hmap := h.map k
  rw [map_map, map_map] at hmap
  have hcomp : k ∘ f = g := funext hk
  rwa [hcomp] at hmap

theorem DifferInAuthors.alike (h : DifferInAuthors requester r r') : Alike requester r r' := by
  refine { h with
    votes := perm_of_perm h.votes ⟨fun v => (secret requester v).withoutAuthor, fun v => ?_⟩ }
  by_cases hv : v.voterAccountID = requester <;> simp [secret, withoutAuthor, hv]

theorem DifferInVotes.alike (h : DifferInVotes requester r r') : Alike requester r r' := by
  refine { h with
    proposals := h.proposals.map _
    votes := perm_of_perm h.votes ⟨fun v => (secret requester v).withoutAuthor, fun v => ?_⟩ }
  by_cases hactive : r.round.activeBallotNumber = some v.ballotNumber
  · by_cases hv : v.voterAccountID = requester <;> simp [secret, hactive, hv]
  · simp [hactive]

/-! ## The rows that a snapshot is made of -/

@[simp] theorem anonymous_id (p : Proposal) : (anonymous requester p).id = p.id := by
  unfold anonymous
  split <;> rfl

@[simp] theorem anonymous_status (p : Proposal) : (anonymous requester p).status = p.status := by
  unfold anonymous
  split <;> rfl

@[simp] theorem anonymous_label (p : Proposal) :
    (anonymous requester p).anonymousLabel = p.anonymousLabel := by
  unfold anonymous
  split <;> rfl

theorem anonymous_author_eq (hrequester : requester ≠ 0) (p : Proposal) :
    (anonymous requester p).authorAccountID = requester ↔ p.authorAccountID = requester := by
  unfold anonymous
  split
  · rfl
  · rename_i hp
    simp [hp, hrequester.symm]

theorem labelOrder_anonymous (p : Proposal) :
    labelOrder (anonymous requester p) = labelOrder p := by
  simp [labelOrder]

theorem eq_of_labelOrder_anonymous {p q : Proposal} (hp : p ∈ r.proposals) (hq : q ∈ r.proposals)
    (h : labelOrder (anonymous requester p) =
      labelOrder (anonymous requester q)) : p = q := by
  rw [labelOrder_anonymous, labelOrder_anonymous] at h
  exact eq_of_key_eq hp hq (congrArg (fun o => (ofLex (ofLex o).2).2) h)

variable (h : Alike requester r r')
include h

theorem Alike.listParticipants : r'.listParticipants = r.listParticipants := by
  refine orderBy_eq_of_perm h.participants ?_
  intro p hp q hq hpq
  exact eq_of_key_eq (t := r'.participants) hp hq (congrArg (fun o => (ofLex o).2) hpq)

theorem Alike.listProposals :
    r'.listProposals.map (anonymous requester) = r.listProposals.map (anonymous requester) := by
  rw [RoundRows.listProposals, RoundRows.listProposals,
    map_orderBy fun p _ => labelOrder_anonymous p, map_orderBy fun p _ => labelOrder_anonymous p]
  refine orderBy_eq_of_perm h.proposals ?_
  intro a ha b hb hab
  obtain ⟨p, hp, rfl⟩ := mem_map.mp ha
  obtain ⟨q, hq, rfl⟩ := mem_map.mp hb
  rw [eq_of_labelOrder_anonymous (r := r') hp hq hab]

theorem Alike.listBallotCandidates (n : ℕ) :
    (r'.listBallotCandidates n).map (anonymous requester) =
      (r.listBallotCandidates n).map (anonymous requester) := by
  rw [RoundRows.listBallotCandidates, RoundRows.listBallotCandidates,
    map_orderBy fun p _ => labelOrder_anonymous p, map_orderBy fun p _ => labelOrder_anonymous p]
  have hcandidates : (r'.candidatesOf n).Perm (r.candidatesOf n) := (h.candidates.filter _).map _
  have hproposals : ((r'.candidatesOf n).filterMap r'.proposals.get?).map (anonymous requester) =
      ((r'.candidatesOf n).filterMap r.proposals.get?).map (anonymous requester) := by
    rw [map_filterMap, map_filterMap]
    apply filterMap_congr
    intro id _
    exact map_get?_of_perm anonymous_id h.proposals id
  rw [hproposals]
  refine orderBy_eq_of_perm ((hcandidates.filterMap _).map _) ?_
  intro a ha b hb hab
  obtain ⟨p, hp, rfl⟩ := mem_map.mp ha
  obtain ⟨q, hq, rfl⟩ := mem_map.mp hb
  obtain ⟨_, -, hp⟩ := mem_filterMap.mp hp
  obtain ⟨_, -, hq⟩ := mem_filterMap.mp hq
  rw [eq_of_labelOrder_anonymous (mem_of_get? hp) (mem_of_get? hq) hab]

theorem Alike.listProposalItems (id : ProposalID) :
    r'.listProposalItems id = r.listProposalItems id := by
  unfold RoundRows.listProposalItems
  simp only [get?_of_perm h.participants]
  congr 1
  refine orderBy_eq_of_perm ((h.items.filter _).filterMap _) ?_
  intro a ha b hb hab
  obtain ⟨i, hi, ha⟩ := List.mem_filterMap.mp ha
  obtain ⟨j, hj, hb⟩ := List.mem_filterMap.mp hb
  obtain ⟨p, hp, rfl⟩ := Option.map_eq_some_iff.mp ha
  obtain ⟨q, hq, rfl⟩ := Option.map_eq_some_iff.mp hb
  obtain ⟨hi, hiid⟩ := List.mem_filter.mp hi
  obtain ⟨hj, hjid⟩ := List.mem_filter.mp hj
  have haccount : p.accountID = q.accountID := congrArg (fun o => (ofLex o).2) hab
  have hpq : p = q := eq_of_key_eq (mem_of_get? hp) (mem_of_get? hq) haccount
  have hij : i = j := by
    refine eq_of_key_eq (t := r'.items) hi hj (Prod.ext ?_ ?_)
    · exact (of_decide_eq_true hiid).trans (of_decide_eq_true hjid).symm
    · exact (key_of_get? hp).symm.trans (haccount.trans (key_of_get? hq))
  rw [hpq, hij]

theorem Alike.votedCount (n : ℕ) : (r'.votesOf n).length = (r.votesOf n).length := by
  have hballot (v : Vote) : (secret requester v).withoutAuthor.ballotNumber = v.ballotNumber := by
    by_cases hv : v.voterAccountID = requester <;> simp [secret, withoutAuthor, hv]
  have hcount := h.votes.countP_eq fun v => v.ballotNumber = n
  rw [countP_map, countP_map] at hcount
  simpa [votesOf, ← countP_eq_length_filter, comp_def, hballot] using hcount

theorem Alike.getVote? (n : ℕ) :
    (r'.getVote? n requester).map withoutAuthor =
      (r.getVote? n requester).map withoutAuthor := by
  have hkey (v : Vote) : (secret requester v).withoutAuthor.key = v.key := by
    by_cases hv : v.voterAccountID = requester <;> simp [secret, withoutAuthor, key, hv]
  have hown (r : RoundRows) :
      ((r.votes.get? (n, requester)).map fun v => (secret requester v).withoutAuthor) =
        (r.votes.get? (n, requester)).map withoutAuthor := by
    apply Option.map_congr
    intro v hv
    have hvoter : v.voterAccountID = requester := congrArg Prod.snd (key_of_get? hv)
    simp [secret, hvoter]
  have hsame := map_get?_of_perm hkey h.votes (n, requester)
  exact (hown r').symm.trans (hsame.trans (hown r))

end Forgetting

/-! ## Snapshots -/

section Snapshots
variable (requester : AccountID)

def ProposalSnapshot.blur (s : ProposalSnapshot) : ProposalSnapshot :=
  { s with row := anonymous requester s.row }

def BallotSnapshot.blur (b : BallotSnapshot) : BallotSnapshot :=
  { b with candidates := b.candidates.map (ProposalSnapshot.blur requester),
           currentVote := b.currentVote.map Vote.withoutAuthor }

def RoundSnapshot.blur (s : RoundSnapshot) : RoundSnapshot :=
  { s with proposals := s.proposals.map (ProposalSnapshot.blur requester),
           ballot := s.ballot.map (BallotSnapshot.blur requester) }

variable {requester} {r r' : RoundRows}

theorem blur_candidateSnapshot (proposals : List ProposalSnapshot) (p : Proposal) :
    (candidateSnapshot proposals p).blur requester =
      candidateSnapshot (proposals.map (blur requester)) (anonymous requester p) := by
  unfold candidateSnapshot
  have hfind : ((proposals.map (blur requester)).find? fun s =>
      s.row.id = (anonymous requester p).id) =
      (proposals.find? fun s => s.row.id = p.id).map (blur requester) := by
    rw [find?_map]
    simp [blur]
  rw [hfind]
  cases proposals.find? fun s => s.row.id = p.id <;> rfl

theorem blur_loadRoundSnapshot (h : Alike requester r r') (hphase : r.round.phase ≠ .closed) :
    RoundSnapshot.blur requester <$> loadRoundSnapshot r' requester =
      RoundSnapshot.blur requester <$> loadRoundSnapshot r requester := by
  -- the proposals, with their items
  have hproposals :
      (r'.listProposals.map fun p => mk p (r'.listProposalItems p.id)).map
        (blur requester) =
      (r.listProposals.map fun p => mk p (r.listProposalItems p.id)).map
        (blur requester) := by
    have hblur (r : RoundRows) :
        (r.listProposals.map fun p => mk p (r.listProposalItems p.id)).map
          (blur requester) =
        (r.listProposals.map (anonymous requester)).map fun p =>
          mk p (r.listProposalItems p.id) := by
      simp [blur, comp_def]
    rw [hblur, hblur, h.listProposals]
    simp only [h.listProposalItems]
  have hballot (ps ps' : List ProposalSnapshot) (ballot : Ballot)
      (hps : ps'.map (blur requester) = ps.map (blur requester)) :
      (loadBallotSnapshot r' ps' requester ballot).blur requester =
        (loadBallotSnapshot r ps requester ballot).blur requester := by
    have hcandidates (r : RoundRows) (ps : List ProposalSnapshot) :
        ((r.listBallotCandidates ballot.number).map (candidateSnapshot ps)).map
          (blur requester) =
        ((r.listBallotCandidates ballot.number).map (anonymous requester)).map
          (candidateSnapshot (ps.map (blur requester))) := by
      simp [comp_def, blur_candidateSnapshot]
    have hvote := h.getVote? ballot.number
    have hphase' : r'.round.phase ≠ .closed := h.round ▸ hphase
    unfold loadBallotSnapshot BallotSnapshot.blur
    simp only [hcandidates, hps, h.listBallotCandidates, h.votedCount, hphase, hphase', if_false]
    by_cases hrequester : requester = 0
    · simp [hrequester]
    · simp [hrequester, hvote]
  unfold loadRoundSnapshot
  simp only [h.round, h.listParticipants, get?_of_perm h.ballots]
  cases r.round.activeBallotNumber with
  | none =>
    simp only [RoundSnapshot.blur, map_pure, hproposals, Option.map_none]
  | some number =>
    cases hget : r.ballots.get? number with
    | none => simp only [hget, found_none, bind_error]
    | some ballot =>
      simp only [hget, found_some, bind_ok, RoundSnapshot.blur, map_pure, hproposals,
        Option.map_some, hballot _ _ ballot hproposals]

end Snapshots

/-! ## Messages -/

section Messages
variable {requester : AccountID} {s s' : RoundSnapshot}

theorem roundSummaryToProto_blur (requester : AccountID) (s : RoundSnapshot) :
    roundSummaryToProto (s.blur requester) = roundSummaryToProto s := by
  simp [roundSummaryToProto, RoundSnapshot.blur, blur, BallotSnapshot.blur,
    countP_map, comp_def]

theorem proposalToProto_blur (hrequester : requester ≠ 0) (p : ProposalSnapshot)
    (participants : List Participant) (voteCount : ℕ) (isFinal : Bool) :
    proposalToProto (p.blur requester) participants requester false false false voteCount isFinal =
      proposalToProto p participants requester false false false voteCount isFinal := by
  simp [proposalToProto, blur, anonymous_author_eq hrequester]

theorem ballotToProto_blur (hrequester : requester ≠ 0) (hphase : s.round.phase ≠ .closed)
    (b : BallotSnapshot) :
    ballotToProto (s.blur requester) requester (b.blur requester) =
      ballotToProto s requester b := by
  have hphase' : (s.blur requester).round.phase ≠ .closed := hphase
  simp only [ballotToProto, hphase, hphase', decide_false, BallotSnapshot.blur, map_map,
    comp_def, proposalToProto_blur hrequester]
  simp [RoundSnapshot.blur, blur, comp_def, withoutAuthor]

end Messages

section Blind
variable {requester : AccountID} {r r' : RoundRows}

theorem proposalByAuthor?_of_sound (hsound : r.Sound) (hpublished : r.Published)
    {s : RoundSnapshot} (hs : loadRoundSnapshot r requester = .ok s) {p : Participant}
    (hp : p ∈ r.participants) :
    (proposalByAuthor? s p.accountID).any fun proposal => proposal.row.status = .submitted := by
  obtain ⟨-, -, hproposals⟩ := loadRoundSnapshot_eq_ok hs
  obtain ⟨hauthors, hsubmitted⟩ := hsound.published hpublished
  have hrow {x : ProposalSnapshot} (hx : x ∈ s.proposals) : x.row ∈ r.proposals := by
    rw [hproposals] at hx
    obtain ⟨q, hq, rfl⟩ := mem_map.mp hx
    simpa [listProposals, mem_rows] using hq
  obtain ⟨q, hq, hauthor⟩ : ∃ q ∈ r.proposals, q.authorAccountID = p.accountID :=
    mem_map.mp (hauthors.mem_iff.mpr (mem_map_of_mem hp))
  have hfound : (proposalByAuthor? s p.accountID).isSome := by
    rw [proposalByAuthor?, find?_isSome]
    refine ⟨⟨q, r.listProposalItems q.id⟩, ?_, by simpa using hauthor⟩
    rw [hproposals, mem_reverse]
    refine mem_map_of_mem ?_
    simpa [listProposals, mem_rows] using hq
  obtain ⟨x, hx⟩ := Option.isSome_iff_exists.mp hfound
  have hmem : x ∈ s.proposals := mem_reverse.mp (mem_of_find?_eq_some hx)
  simpa [hx] using (hsubmitted x.row (hrow hmem)).1

/-- Snapshots that differ only in what is forgotten make the same message of a round that is in
its voting phase, when in both every participant's proposal is submitted. -/
theorem roundToProto_eq (hrequester : requester ≠ 0) {s s' : RoundSnapshot}
    (hblur : s'.blur requester = s.blur requester) (hphase : s.round.phase = .voting)
    (hs : ∀ p ∈ s.participants, (proposalByAuthor? s p.accountID).any fun proposal =>
      proposal.row.status = .submitted)
    (hs' : ∀ p ∈ s'.participants, (proposalByAuthor? s' p.accountID).any fun proposal =>
      proposal.row.status = .submitted) (requesterIsAdmin : Bool) :
    roundToProto s' requester requesterIsAdmin = roundToProto s requester requesterIsAdmin := by
  have hround : s'.round = s.round := (congrArg RoundSnapshot.round hblur :)
  have hparticipants : s'.participants = s.participants :=
    (congrArg RoundSnapshot.participants hblur :)
  have hsummary : roundSummaryToProto s' = roundSummaryToProto s := by
    rw [← roundSummaryToProto_blur requester s', hblur, roundSummaryToProto_blur]
  have hballot {s : RoundSnapshot} (hphase : s.round.phase = .voting) :
      s.ballot.map (ballotToProto s requester) =
        (s.blur requester).ballot.map (ballotToProto (s.blur requester) requester) := by
    have hclosed : s.round.phase ≠ .closed := by simp [hphase]
    cases hb : s.ballot with
    | none => simp [RoundSnapshot.blur, hb]
    | some b =>
      have hb' : (s.blur requester).ballot = some (b.blur requester) := by
        simp [RoundSnapshot.blur, hb]
      rw [hb', Option.map_some, Option.map_some, ballotToProto_blur hrequester hclosed]
  have hflags : s'.participants.map (participantToProto s' requesterIsAdmin) =
      s.participants.map (participantToProto s requesterIsAdmin) := by
    rw [hparticipants] at hs' ⊢
    apply map_congr_left
    intro p hp
    simp only [participantToProto, hround, hs p hp, hs' p hp]
  have hphase' : s'.round.phase = .voting := hround ▸ hphase
  simp only [roundToProto, hsummary, hflags, hballot hphase, hballot hphase', hblur, hround, hphase]
  simp

/-- Two states of a round in its voting phase that are alike for a requester. -/
structure Blind (requester : AccountID) (r r' : RoundRows) : Prop where
  alike : Alike requester r r'
  sound : r.Sound
  sound' : r'.Sound
  phase : r.round.phase = .voting

theorem Blind.snapshots (h : Blind requester r r') (hrequester : requester ≠ 0) :
    (∃ e, loadRoundSnapshot r' requester = .error e ∧ loadRoundSnapshot r requester = .error e) ∨
      ∃ s s', loadRoundSnapshot r' requester = .ok s' ∧ loadRoundSnapshot r requester = .ok s ∧
        s'.participants = s.participants ∧ roundSummaryToProto s' = roundSummaryToProto s ∧
        ∀ requesterIsAdmin,
          roundToProto s' requester requesterIsAdmin =
            roundToProto s requester requesterIsAdmin := by
  have hblur := blur_loadRoundSnapshot h.alike (by simp [h.phase])
  obtain ⟨e, he', he⟩ | ⟨s', s, hs', hs, hblur⟩ := cases_of_map_eq_map hblur
  · exact .inl ⟨e, he', he⟩
  · obtain ⟨hround, hparticipants, -⟩ := loadRoundSnapshot_eq_ok hs
    obtain ⟨-, hparticipants', -⟩ := loadRoundSnapshot_eq_ok hs'
    refine .inr ⟨s, s', hs', hs, (congrArg RoundSnapshot.participants hblur :), ?_,
      roundToProto_eq hrequester hblur (hround ▸ h.phase) ?_ ?_⟩
    · rw [← roundSummaryToProto_blur requester s', hblur, roundSummaryToProto_blur]
    · intro p hp
      rw [hparticipants, listParticipants, mem_orderBy] at hp
      exact proposalByAuthor?_of_sound h.sound (.inl h.phase) hs hp
    · intro p hp
      rw [hparticipants', listParticipants, mem_orderBy] at hp
      have hphase' : r'.round.phase = .voting := h.alike.round ▸ h.phase
      exact proposalByAuthor?_of_sound h.sound' (.inl hphase') hs' hp

theorem requestIdentity_of_ne_zero (h : requester ≠ 0) :
    requestIdentity (some requester) = .ok requester := by
  obtain ⟨n, rfl⟩ := Nat.exists_eq_succ_of_ne_zero h
  rfl

theorem summaries_map {g : RoundRows → RoundRows} {l : List RoundRows}
    (h : ∀ x ∈ l, roundSummaryToProto <$> loadRoundSnapshot (g x) requester =
      roundSummaryToProto <$> loadRoundSnapshot x requester) :
    summaries requester (l.map g) = summaries requester l := by
  induction l with
  | nil => rfl
  | cons x l ih =>
    have hx := h x (by simp)
    simp only [map_cons, summaries, ih fun y hy => h y (by simp [hy])]
    obtain ⟨e, he', he⟩ | ⟨s', s, hs', hs, hsummary⟩ := cases_of_map_eq_map hx
    · rw [he', he]
    · rw [hs', hs]
      simp only [mapError_ok, bind_ok, hsummary]

section Databases
variable {db db' : Database} (h : Blind requester r r') (hrequester : requester ≠ 0)
  (hdb : db'.rounds = db.rounds.put r') (hr : r ∈ db.rounds)
include h hdb hr

theorem Blind.lockRoundBySlug_eq (slug : String) :
    db'.lockRoundBySlug slug = db.lockRoundBySlug slug ∨
      (db.lockRoundBySlug slug = .ok r ∧ db'.lockRoundBySlug slug = .ok r') := by
  have hfind := find?_put (t := db.rounds) (a := r') (p := fun x => x.round.slug = slug) (by
    intro b hb hkey
    obtain rfl : b = r := eq_of_key_eq hb hr (by rw [hkey, h.alike.round])
    rw [h.alike.round])
  unfold Database.lockRoundBySlug
  rw [hdb, hfind]
  cases hx : db.rounds.rows.find? fun x => x.round.slug = slug with
  | none => exact .inl rfl
  | some x =>
    by_cases hid : x.round.id = r'.round.id
    · obtain rfl : x = r := eq_of_key_eq (mem_of_find?_eq_some hx) hr
        (by rw [hid, h.alike.round])
      exact .inr ⟨rfl, by simp [hid]⟩
    · exact .inl (by simp [hid])

include hrequester

theorem Blind.getRound_eq (slug : String) (requesterIsAdmin : Bool) :
    getRound slug (some requester) requesterIsAdmin db' =
      getRound slug (some requester) requesterIsAdmin db := by
  simp only [getRound, requestIdentity_of_ne_zero hrequester, bind_ok, authorizedRound]
  rcases h.lockRoundBySlug_eq hdb hr (Text.trimSpace slug) with heq | ⟨hlock, hlock'⟩
  · rw [heq]
  · rw [hlock, hlock']
    simp only [mapError_ok, bind_ok]
    rcases h.snapshots hrequester with ⟨e, he', he⟩ | ⟨s, s', hs', hs, hparticipants, -, hmessage⟩
    · rw [he, he']
    · rw [hs, hs']
      simp only [mapError_ok, bind_ok, hparticipants, bind_assoc, pure_bind, hmessage]

theorem Blind.listRounds_eq (requesterIsAdmin : Bool) :
    listRounds (some requester) requesterIsAdmin db' =
      listRounds (some requester) requesterIsAdmin db := by
  let g : RoundRows → RoundRows := fun x => if x.round.id = r'.round.id then r' else x
  have hrows : db'.rounds.rows = db.rounds.rows.map g := by rw [hdb]; rfl
  have hg (x : RoundRows) (hx : x ∈ db.rounds) : g x = x ∨ (x = r ∧ g x = r') := by
    by_cases hid : x.round.id = r'.round.id
    · exact .inr ⟨eq_of_key_eq hx hr (by rw [hid, h.alike.round]), by simp [g, hid]⟩
    · exact .inl (by simp [g, hid])
  have hsame (x : RoundRows) (hx : x ∈ db.rounds) :
      (g x).round = x.round ∧ (g x).participants.rows.Perm x.participants.rows := by
    rcases hg x hx with heq | ⟨rfl, heq⟩
    · simp [heq]
    · rw [heq]
      exact ⟨h.alike.round, h.alike.participants⟩
  have hlisted : listProfitSharingRounds db' requester requesterIsAdmin =
      (listProfitSharingRounds db requester requesterIsAdmin).map g := by
    have hshown : (db.rounds.rows.map g).filter (fun x =>
        requesterIsAdmin || x.participants.rows.any (·.accountID = requester)) =
        (db.rounds.rows.filter fun x =>
          requesterIsAdmin || x.participants.rows.any (·.accountID = requester)).map g := by
      rw [List.filter_map]
      congr 1
      apply List.filter_congr
      intro x hx
      simp only [comp_apply, (hsame x hx).2.any_eq]
    unfold listProfitSharingRounds
    rw [hrows, hshown]
    refine (map_orderBy fun x hx => ?_).symm
    rw [(hsame x (List.mem_filter.mp hx).1).1]
  simp only [listRounds, requestIdentity_of_ne_zero hrequester, bind_ok, hlisted]
  apply summaries_map
  intro x hx
  have hx : x ∈ db.rounds := (List.mem_filter.mp (mem_orderBy.mp hx)).1
  rcases hg x hx with heq | ⟨rfl, heq⟩
  · rw [heq]
  · rw [heq]
    rcases h.snapshots hrequester with ⟨e, he', he⟩ | ⟨s, s', hs', hs, -, hsummary, -⟩
    · rw [he, he']
    · rw [hs, hs']
      exact congrArg Except.ok hsummary

end Databases
end Blind

/-- Two databases that operations can make differ in one round, which is published and not yet
closed, and there only in which participants other than the requester wrote which proposals, or
only in what they voted for in the active ballot.  Then `GetRound` and `ListRounds` give the
requester, an administrator or not, the same responses on both. -/
theorem voting_is_blind {db db' : Database} {r r' : RoundRows} (h : Reachable db)
    (h' : Reachable db') (hr : r ∈ db.rounds) (hdb : db'.rounds = db.rounds.put r')
    (hphase : r.round.phase = .voting) (requester : AccountID)
    (hdiffer : DifferInAuthors requester r r' ∨ DifferInVotes requester r r')
    (requesterIsAdmin : Bool) :
    (∀ slug, getRound slug (some requester) requesterIsAdmin db' =
      getRound slug (some requester) requesterIsAdmin db) ∧
      listRounds (some requester) requesterIsAdmin db' =
        listRounds (some requester) requesterIsAdmin db := by
  by_cases hrequester : requester = 0
  · subst hrequester
    exact ⟨fun _ => rfl, rfl⟩
  · have halike : Alike requester r r' := hdiffer.elim DifferInAuthors.alike DifferInVotes.alike
    have hr' : r' ∈ db'.rounds := by
      rw [hdb]
      exact mem_put_self hr (by rw [halike.round])
    have hblind : Blind requester r r' := ⟨halike, h.sound hr, h'.sound hr', hphase⟩
    exact ⟨fun slug => hblind.getRound_eq hrequester hdb hr slug requesterIsAdmin,
      hblind.listRounds_eq hrequester hdb hr requesterIsAdmin⟩

namespace Sample

def secondVote (choice : ProposalID) : List (Instant × Operation) :=
  publishing ++ [(5, .submitVote "s" 1 (some 2) (some choice))]

def differInVotes (r r' : RoundRows) : Bool :=
  r.round.phase = .voting && r'.round = r.round && r'.participants.rows = r.participants.rows &&
    r'.proposals.rows = r.proposals.rows && r'.items.rows = r.items.rows &&
    r'.ballots.rows = r.ballots.rows && r'.candidates.rows = r.candidates.rows &&
    (r'.votes.rows.map fun v =>
      if r.round.activeBallotNumber = some v.ballotNumber then secret 1 v else v) =
    (r.votes.rows.map fun v =>
      if r.round.activeBallotNumber = some v.ballotNumber then secret 1 v else v) &&
    r'.votes.rows ≠ r.votes.rows

def differ (db db' : Database) : Bool :=
  db.rounds.rows.length = 1 && db'.rounds.rows.length = 1 &&
    (db.rounds.rows.zip db'.rounds.rows).all fun (r, r') => differInVotes r r'

end Sample

/-- The second participant's vote is in the database, and the first one's responses do not depend
on it. -/
theorem sample_vote_is_secret :
    ∃ db db' r r', Reachable db ∧ Reachable db' ∧ r ∈ db.rounds ∧ r' ∈ db'.rounds ∧
      r'.votes.rows ≠ r.votes.rows ∧
      getRound "s" (some 1) false db' = getRound "s" (some 1) false db ∧
      listRounds (some 1) false db' = listRounds (some 1) false db := by
  have hdiffer : commitsWith (runAll (Sample.secondVote 20) .empty) fun db =>
      commitsWith (runAll (Sample.secondVote 18) .empty) (Sample.differ db) := by decide +kernel
  obtain ⟨db, hdb, hdiffer⟩ := exists_of_commitsWith hdiffer
  obtain ⟨db', hdb', hdiffer⟩ := exists_of_commitsWith hdiffer
  simp only [Sample.differ, check_iff] at hdiffer
  obtain ⟨⟨hone, hone'⟩, hdiffer⟩ := hdiffer
  obtain ⟨r, hr⟩ := length_eq_one_iff.mp hone
  obtain ⟨r', hr'⟩ := length_eq_one_iff.mp hone'
  simp only [hr, hr', zip_cons_cons, zip_nil_left, all_cons, all_nil, Sample.differInVotes,
    Bool.and_true, check_iff] at hdiffer
  obtain ⟨⟨⟨⟨⟨⟨⟨⟨hphase, hround⟩, hparticipants⟩, hproposals⟩, hitems⟩, hballots⟩, hcandidates⟩,
    hvotes⟩, hne⟩ := hdiffer
  have hmem : r ∈ db.rounds := by simp [← mem_rows, hr]
  have hmem' : r' ∈ db'.rounds := by simp [← mem_rows, hr']
  have hput : db'.rounds = db.rounds.put r' := by
    apply eq_of_rows_eq
    simp [Table.put, Table.update, hr, hr', hround]
  have hdiffer : DifferInVotes 1 r r' := ⟨hround, .of_eq hparticipants, .of_eq hproposals,
    .of_eq hitems, .of_eq hballots, .of_eq hcandidates, .of_eq hvotes⟩
  obtain ⟨hget, hlist⟩ := voting_is_blind (runs_of_runAll hdb) (runs_of_runAll hdb') hmem hput
    hphase 1 (.inr hdiffer) false
  exact ⟨db, db', r, r', runs_of_runAll hdb, runs_of_runAll hdb', hmem, hmem', hne, hget "s", hlist⟩

end Athena.ProfitSharing
