import Athena.ProfitSharing.Operations

/-!
# Profit sharing: what an operation does to a round

`Change` says everything that one operation can do to the rows of a round, with what it has
checked before.  `step_cases` reads it off the nine operations: one of them creates a round,
and the others change one round and leave the rest.
-/

namespace Athena.ProfitSharing

open Athena.Lib Table Option List

namespace RoundRows

inductive Change : RoundRows → RoundRows → Prop
  /-- A draft gets a new slug, title and participants. -/
  | configured {r : RoundRows} {row : Round} {participants : Table Participant.accountID}
      (hphase : r.round.phase = .draft)
      (hrow : row = { r.round with
        slug := row.slug, title := row.title, revision := row.revision,
        updatedAt := row.updatedAt }) :
      Change r { r.deleteParticipants with round := row, participants := participants }
  /-- A draft is opened: proposals are created, with their items. -/
  | opened {r : RoundRows} {row : Round} {proposals : Table Proposal.id}
      {items : Table ProposalItem.key} {created : List Proposal}
      (hphase : r.round.phase = .draft)
      (hrow : row = { r.round with
        phase := .collecting, revision := row.revision, updatedAt := row.updatedAt,
        openedAt := row.openedAt })
      (hproposals : proposals.rows = r.proposals.rows ++ created)
      (hcreated : ∀ p ∈ created, p.status = .draft ∧ p.anonymousLabel = none) :
      Change r { r with round := row, proposals := proposals, items := items }
  /-- The items of a draft proposal are replaced. -/
  | edited {r : RoundRows} {p p' : Proposal} {items : Table ProposalItem.key}
      (hphase : r.round.phase = .collecting) (hp : p ∈ r.proposals) (hstatus : p.status = .draft)
      (hp' : p' = { p with revision := p'.revision, updatedAt := p'.updatedAt })
      (hitems : ∀ id, id ≠ p.id → (items.rows.filter fun i => i.proposalID = id) = r.itemsOf id) :
      Change r { r with proposals := r.proposals.put p', items := items }
  /-- A draft proposal that is complete is submitted. -/
  | submitted {r : RoundRows} {p p' : Proposal}
      (hphase : r.round.phase = .collecting) (hp : p ∈ r.proposals)
      (hcomplete : validateCompleteProposal (r.listProposalItems p.id) r.listParticipants = .ok ())
      (hp' : p' = { p with
        status := .submitted, revision := p'.revision, updatedAt := p'.updatedAt,
        submittedAt := p'.submittedAt }) :
      Change r { r with proposals := r.proposals.put p' }
  /-- A proposal is a draft again. -/
  | reopened {r : RoundRows} {p p' : Proposal}
      (hphase : r.round.phase = .collecting) (hp : p ∈ r.proposals)
      (hp' : p' = { p with
        status := .draft, revision := p'.revision, updatedAt := p'.updatedAt,
        submittedAt := p'.submittedAt }) :
      Change r { r with proposals := r.proposals.put p' }
  /-- The proposals get their labels and are the candidates of the first ballot. -/
  | published {r : RoundRows} {row : Round} {proposals : Table Proposal.id}
      {ballots : Table Ballot.number} {candidates : Table Candidate.key}
      {ballot : Ballot} {ids : List ProposalID}
      (hphase : r.round.phase = .collecting)
      (hcount : r.participants.rows.length = requiredParticipantCount)
      (hlength : r.proposals.rows.length = r.participants.rows.length)
      (hsubmitted : ∀ p ∈ r.proposals, p.status = .submitted)
      (hproposals : Table.Rel (fun p p' => p' = { p with
        anonymousLabel := p'.anonymousLabel, updatedAt := p'.updatedAt } ∧
        p'.anonymousLabel.isSome) r.proposals proposals)
      (hballot : ballot.number = 1 ∧ ballot.status = .opened)
      (hballots : ballots.rows = r.ballots.rows ++ [ballot])
      (hids : ids.Perm (r.proposals.rows.map (·.id)))
      (hcandidates : candidates.rows = r.candidates.rows ++ ids.map fun id => ⟨1, id⟩)
      (hrow : row = { r.round with
        phase := .voting, activeBallotNumber := some 1, revision := row.revision,
        updatedAt := row.updatedAt, publishedAt := row.publishedAt }) :
      Change r { r with round := row, proposals := proposals, ballots := ballots,
                        candidates := candidates }
  /-- A vote is cast or changed in the active ballot. -/
  | voted {r : RoundRows} {n : ℕ} {ballot : Ballot} {vote : Vote}
      (hphase : r.round.phase = .voting) (hactive : r.round.activeBallotNumber = some n)
      (hballot : ballot ∈ r.ballots) (hnumber : ballot.number = n)
      (hopen : ballot.status = .opened) (hvote : vote.ballotNumber = n) :
      Change r { r with votes := r.votes.upsert vote }
  /-- The active ballot has a winner. -/
  | won {r : RoundRows} {n : ℕ} {ballot ballot' : Ballot} {row : Round} {winner : ProposalID}
      (hphase : r.round.phase = .voting) (hactive : r.round.activeBallotNumber = some n)
      (hballot : ballot ∈ r.ballots) (hnumber : ballot.number = n)
      (hvotes : (r.votesOf n).length = r.participants.rows.length)
      (htied : tiedProposalIDs (r.listBallotTallies n) = [winner])
      (hballot' : ballot' = { ballot with status := .closed, closedAt := ballot'.closedAt })
      (hrow : row = { r.round with
        phase := .closed, finalProposalID := some winner, revision := row.revision,
        updatedAt := row.updatedAt, closedAt := row.closedAt }) :
      Change r { r with round := row, ballots := r.ballots.put ballot' }
  /-- The leaders of the active ballot go to a runoff. -/
  | tied {r : RoundRows} {n : ℕ} {ballot ballot' runoff : Ballot} {row : Round}
      {ballots : Table Ballot.number} {candidates : Table Candidate.key}
      (hphase : r.round.phase = .voting) (hactive : r.round.activeBallotNumber = some n)
      (hballot : ballot ∈ r.ballots) (hnumber : ballot.number = n)
      (hvotes : (r.votesOf n).length = r.participants.rows.length)
      (htallies : r.listBallotTallies n ≠ [])
      (htied : (tiedProposalIDs (r.listBallotTallies n)).length ≠ 1)
      (hballot' : ballot' = { ballot with status := .closed, closedAt := ballot'.closedAt })
      (hrunoff : runoff.number = n + 1 ∧ runoff.status = .opened)
      (hballots : ballots.rows = (r.ballots.put ballot').rows ++ [runoff])
      (hcandidates : candidates.rows = r.candidates.rows ++
        (tiedProposalIDs (r.listBallotTallies n)).map fun id => ⟨n + 1, id⟩)
      (hrow : row = { r.round with
        activeBallotNumber := some (n + 1), revision := row.revision,
        updatedAt := row.updatedAt }) :
      Change r { r with round := row, ballots := ballots, candidates := candidates }

variable {r r' : RoundRows}

theorem Change.id_eq (h : Change r r') : r'.round.id = r.round.id := by
  cases h with
  | configured _ hrow | opened _ hrow | published _ _ _ _ _ _ _ _ _ hrow | won _ _ _ _ _ _ _ hrow
  | tied _ _ _ _ _ _ _ _ _ _ _ hrow => exact (congrArg Round.id hrow :)
  | edited => rfl
  | submitted => rfl
  | reopened => rfl
  | voted => rfl

/-! ## The statements -/

theorem createParticipants?_eq_some {participants : List Participant}
    (h : r.createParticipants? participants = some r') :
    ∃ t, r' = { r with participants := t } := by
  obtain ⟨t, -, rfl⟩ := map_eq_some_iff.mp h
  exact ⟨t, rfl⟩

theorem updateRound?_eq_some {phase : RoundPhase} {revision : ℕ} {change : Round → Round}
    (h : r.updateRound? phase revision change = some r') :
    r' = { r with round := change r.round } := by
  unfold updateRound? at h
  split at h
  · exact (some.inj h).symm
  · cases h

theorem updateProposal?_eq_some {p' : Proposal} {condition : Proposal → Bool}
    {change : Proposal → Proposal} (h : r.updateProposal? condition change = some (r', p')) :
    ∃ p ∈ r.proposals, condition p ∧ p' = change p ∧
      r' = { r with proposals := r.proposals.put p' } := by
  obtain ⟨p, hfind, heq⟩ := map_eq_some_iff.mp h
  obtain ⟨rfl, rfl⟩ := Prod.mk.inj heq
  exact ⟨p, mem_of_find?_eq_some hfind, find?_some hfind, rfl, rfl⟩

theorem getActiveBallot?_eq_some {ballot : Ballot} (h : r.getActiveBallot? = some ballot) :
    ballot ∈ r.ballots ∧ r.round.activeBallotNumber = some ballot.number := by
  obtain ⟨n, hn, hget⟩ := bind_eq_some_iff.mp h
  obtain ⟨hmem, rfl⟩ := get?_eq_some.mp hget
  exact ⟨hmem, hn⟩

theorem closeBallot?_eq_some {now : Instant} {ballot : Ballot} (hballot : ballot ∈ r.ballots)
    (h : r.closeBallot? now ballot.number = some r') :
    r' = { r with
      ballots := r.ballots.put { ballot with status := .closed, closedAt := some now } } := by
  obtain ⟨b, hfind, rfl⟩ := map_eq_some_iff.mp h
  have hnumber : b.number = ballot.number := by
    have := find?_some hfind
    simp only [check_iff] at this
    exact this.1
  obtain rfl := eq_of_key_eq (mem_of_find?_eq_some hfind) hballot hnumber
  rfl

theorem mem_proposalItemRows {id : ProposalID} {items : List ProposalItemInput}
    {rows : List ProposalItem} (h : proposalItemRows id items = .ok rows) :
    ∀ i ∈ rows, i.proposalID = id := by
  induction items generalizing rows with
  | nil =>
    cases h
    simp
  | cons _ _ ih =>
    simp only [proposalItemRows, committed] at h
    obtain ⟨account, -, rest, hrest, rfl⟩ := h
    simpa using ih hrest

end RoundRows

open RoundRows

/-! ## The transactions -/

def Changes (db db' : Database) : Prop :=
  ∃ r ∈ db.rounds, ∃ r', Change r r' ∧ db'.rounds = db.rounds.put r'

structure RoundRows.Fresh (r : RoundRows) : Prop where
  phase : r.round.phase = .draft
  activeBallotNumber : r.round.activeBallotNumber = none
  finalProposalID : r.round.finalProposalID = none
  proposals : r.proposals = .empty
  items : r.items = .empty
  ballots : r.ballots = .empty
  candidates : r.candidates = .empty
  votes : r.votes = .empty

def Creates (db db' : Database) : Prop :=
  ∃ r : RoundRows, r.Fresh ∧ db'.rounds.rows = db.rounds.rows ++ [r]

variable {slug : String} {revision : ℕ}

theorem lockRoundBySlug_eq_ok {db : Database} {r : RoundRows}
    (h : db.lockRoundBySlug slug = .ok r) :
    r ∈ db.rounds := by
  rw [Database.lockRoundBySlug, found_eq_ok] at h
  exact mem_of_find?_eq_some h

theorem rounds_of_update {db db' : Database} {r : RoundRows} (h : db.update r = .ok db') :
    db'.rounds = db.rounds.put r := by
  rw [Database.update, found_eq_ok] at h
  exact Database.rounds_of_ofRounds? h

variable {now : Instant} {db db' : Database}

theorem creates_of_createRound {id : ℕ} {title : String} {participants : List ParticipantInput}
    {created : Round} (h : createRound now id slug title participants db = .ok (db', created)) :
    Creates db db' := by
  simp only [createRound, committed] at h
  obtain ⟨-, participants, -, -, r, hr, db₁, hdb, rfl, -⟩ := h
  obtain ⟨t, rfl⟩ := createParticipants?_eq_some hr
  simp only [Database.insert, committed] at hdb
  obtain ⟨rounds, hinsert, hrounds⟩ := hdb
  have hrows := (insert?_eq_some hinsert).2
  rw [← Database.rounds_of_ofRounds? hrounds] at hrows
  exact ⟨_, ⟨rfl, rfl, rfl, rfl, rfl, rfl, rfl, rfl⟩, hrows⟩

theorem changes_of_updateRound {currentSlug nextSlug title : String}
    {participants : List ParticipantInput} {updated : Round}
    (h : updateRound now currentSlug nextSlug title participants revision db = .ok (db', updated)) :
    Changes db db' := by
  simp only [updateRound, committed] at h
  obtain ⟨-, participants, -, r, hr, hphase, -, r₁, hr₁, -, r₂, hr₂, db₁, hdb, rfl, -⟩ := h
  obtain rfl := updateRound?_eq_some hr₁
  obtain ⟨t, rfl⟩ := createParticipants?_eq_some hr₂
  exact ⟨r, lockRoundBySlug_eq_ok hr, _, .configured hphase rfl, rounds_of_update hdb⟩

theorem changes_of_openRound {newID : ℕ → ProposalID} {validated : List (Option AccountID)}
    {opened : Round} (h : openRound now newID slug revision validated db = .ok (db', opened)) :
    Changes db db' := by
  simp only [openRound, committed] at h
  obtain ⟨validated, -, r, hr, hphase, -, -, -, -, r₁, hr₁, r₂, hr₂, r₃, hr₃, db₁, hdb, rfl, -⟩ := h
  obtain ⟨proposals, hproposals, rfl⟩ := map_eq_some_iff.mp hr₁
  obtain ⟨items, -, rfl⟩ := map_eq_some_iff.mp hr₂
  obtain rfl := updateRound?_eq_some hr₃
  refine ⟨r, lockRoundBySlug_eq_ok hr, _,
    .opened hphase rfl (insertAll?_eq_some hproposals) ?_, rounds_of_update hdb⟩
  intro p hp
  obtain ⟨_, -, rfl⟩ := mem_map.mp hp
  exact ⟨rfl, rfl⟩

theorem changes_of_updateProposal {author : Option AccountID} {items : List ProposalItemInput}
    {updated : Proposal × List ProposalItem}
    (h : updateProposal now slug author revision items db = .ok (db', updated)) :
    Changes db db' := by
  simp only [updateProposal, createProposalItems, committed] at h
  obtain ⟨author, -, r, hr, hphase, items, -, p, hp, hstatus, -, r₁, ⟨rows, hrows, hr₁⟩, ⟨r₂, p'⟩,
    hr₂, db₁, hdb, rfl, -⟩ := h
  obtain ⟨t, ht, rfl⟩ := map_eq_some_iff.mp hr₁
  obtain ⟨q, hq, hcondition, hp', rfl⟩ := updateProposal?_eq_some hr₂
  have hmem : p ∈ r.proposals := List.mem_of_find?_eq_some hp
  have hid : q.id = p.id := by
    simp only [ofAuthor, check_iff] at hcondition
    exact hcondition.1.1.1
  obtain rfl : q = p := eq_of_key_eq hq hmem hid
  refine ⟨r, lockRoundBySlug_eq_ok hr, _, .edited hphase hmem hstatus ?_ ?_, rounds_of_update hdb⟩
  · rw [hp']
  · intro id hid
    have hnew : (rows.filter fun i => i.proposalID = id) = [] := by
      apply List.filter_eq_nil_iff.mpr
      intro i hi
      simpa [mem_proposalItemRows hrows i hi] using Ne.symm hid
    rw [insertAll?_eq_some ht, List.filter_append, hnew, List.append_nil, deleteProposalItems,
      Table.filter, List.filter_filter, itemsOf]
    apply List.filter_congr
    intro i _
    by_cases hi : i.proposalID = id <;> simp [hi, hid]

theorem changes_of_changeProposalStatus {author : Option AccountID} {submit : Bool}
    {changed : Proposal × List ProposalItem}
    (h : changeProposalStatus now slug author revision submit db = .ok (db', changed)) :
    Changes db db' := by
  simp only [changeProposalStatus, committed] at h
  obtain ⟨author, -, r, hr, hphase, p, hp, -, h⟩ := h
  have hmem : p ∈ r.proposals := mem_of_find?_eq_some hp
  -- both updates replace the proposal that was read
  have hsame {q : Proposal} {status : ProposalStatus} (hq : q ∈ r.proposals)
      (hcondition : ofAuthor p.id author status revision q) : q = p := by
    simp only [ofAuthor, check_iff] at hcondition
    exact eq_of_key_eq hq hmem hcondition.1.1.1
  cases submit with
  | true =>
    simp only [if_true, committed] at h
    obtain ⟨-, ⟨⟩, hcomplete, ⟨r₁, p'⟩, hr₁, db₁, hdb, rfl, -⟩ := h
    obtain ⟨q, hq, hcondition, hp', rfl⟩ := updateProposal?_eq_some hr₁
    obtain rfl := hsame hq hcondition
    exact ⟨r, lockRoundBySlug_eq_ok hr, _, .submitted hphase hmem hcomplete (by rw [hp']),
      rounds_of_update hdb⟩
  | false =>
    simp only [Bool.false_eq_true, if_false, committed] at h
    obtain ⟨-, ⟨r₁, p'⟩, hr₁, db₁, hdb, rfl, -⟩ := h
    obtain ⟨q, hq, hcondition, hp', rfl⟩ := updateProposal?_eq_some hr₁
    obtain rfl := hsame hq hcondition
    exact ⟨r, lockRoundBySlug_eq_ok hr, _, .reopened hphase hmem (by rw [hp']),
      rounds_of_update hdb⟩

def Relabelled (p p' : Proposal) : Prop :=
  p' = { p with anonymousLabel := p'.anonymousLabel, updatedAt := p'.updatedAt } ∧
    (p.anonymousLabel.isSome → p'.anonymousLabel.isSome)

theorem Relabelled.refl (p : Proposal) : Relabelled p p := ⟨rfl, id⟩

theorem Relabelled.id_eq {p p' : Proposal} (h : Relabelled p p') : p'.id = p.id := by rw [h.1]

theorem Relabelled.trans {p p' p'' : Proposal} (h : Relabelled p p') (h' : Relabelled p' p'') :
    Relabelled p p'' := by
  refine ⟨?_, h'.2 ∘ h.2⟩
  rw [h'.1, h.1]

theorem relabelled_of_assignProposalLabels {l : List (Proposal × ℕ)} {r r' : RoundRows}
    (hl : ∀ p ∈ l, p.1.anonymousLabel.isSome →
      ∀ q ∈ r.proposals, q.id = p.1.id → q.anonymousLabel.isSome)
    (h : assignProposalLabels now l r = .ok r') :
    ∃ t, r' = { r with proposals := t } ∧ Table.Rel Relabelled r.proposals t ∧
      ∀ p ∈ l, ∀ q ∈ t, q.id = p.1.id → q.anonymousLabel.isSome := by
  induction l generalizing r with
  | nil =>
    obtain rfl : r = r' := by simpa [assignProposalLabels] using h
    exact ⟨r.proposals, rfl, .refl fun p _ => .refl p, by simp⟩
  | cons head rest ih =>
    obtain ⟨p, i⟩ := head
    rw [assignProposalLabels] at h
    -- the rows after this proposal, where it has a label
    obtain ⟨t, hrel, hlabel, h⟩ : ∃ t, Table.Rel Relabelled r.proposals t ∧
        (∀ q ∈ t, q.id = p.id → q.anonymousLabel.isSome) ∧
        assignProposalLabels now rest { r with proposals := t } = .ok r' := by
      split at h
      · simp only [committed] at h
        obtain ⟨⟨r₁, p'⟩, hr₁, h⟩ := h
        obtain ⟨q, hq, hcondition, hp', rfl⟩ := updateProposal?_eq_some hr₁
        have hid : p'.id = p.id := by
          simp only [check_iff] at hcondition
          rw [hp', hcondition.1.1]
        have hlabelled : p'.anonymousLabel.isSome := by rw [hp']; rfl
        refine ⟨_, rel_put hq (by rw [hp']) ?_ fun q _ _ => .refl q, ?_, h⟩
        · exact ⟨by rw [hp'], fun _ => hlabelled⟩
        · intro q' hq' hq'id
          rcases eq_or_mem_of_mem_put hq' with rfl | ⟨-, hne⟩
          · exact hlabelled
          · exact absurd (hq'id.trans hid.symm) hne
      · rename_i hsome
        have hsome : p.anonymousLabel.isSome := by simpa [← isSome_iff_ne_none] using hsome
        exact ⟨r.proposals, .refl fun p _ => .refl p, hl (p, i) (by simp) hsome, h⟩
    have hkept {q q' : Proposal} (hq : Relabelled q q') (h : q.anonymousLabel.isSome) :
        q'.anonymousLabel.isSome := hq.2 h
    obtain ⟨t', rfl, hrel', hlabel'⟩ := ih (r := { r with proposals := t }) (by
      intro p' hp' hsome q' hq' hid
      obtain ⟨q, hq, hqq'⟩ := hrel.exists_of_mem' hq'
      exact hkept hqq' (hl p' (by simp [hp']) hsome q hq (hqq'.id_eq.symm.trans hid))) h
    refine ⟨t', rfl, hrel.trans hrel' fun _ _ _ h h' => h.trans h', ?_⟩
    intro p' hp' q' hq' hid
    rcases mem_cons.mp hp' with rfl | hp'
    · obtain ⟨q, hq, hqq'⟩ := hrel'.exists_of_mem' hq'
      exact hkept hqq' (hlabel q hq (hqq'.id_eq.symm.trans hid))
    · exact hlabel' p' hp' q' hq' hid

theorem changes_of_publishRound {published : Round}
    (h : publishRound now slug revision db = .ok (db', published)) : Changes db db' := by
  simp only [publishRound, committed, listParticipants, listProposals, length_orderBy,
    mem_orderBy] at h
  obtain ⟨r, hr, hphase, -, ⟨hcount, hlength⟩, hsubmitted, r₁, hr₁, r₂, hr₂, r₃, hr₃, r₄, hr₄, db₁,
    hdb, rfl, -⟩ := h
  -- the list that is labelled holds the rows themselves
  have hlist {p : Proposal × ℕ}
      (hp : p ∈ (orderBy (·.id) (orderBy labelOrder r.proposals.rows)).zipIdx) :
      p.1 ∈ r.proposals := by
    simpa [mem_rows] using fst_mem_of_mem_zipIdx hp
  obtain ⟨proposals, rfl, hrel, hlabelled⟩ := relabelled_of_assignProposalLabels (by
    intro p hp hsome q hq hid
    rwa [eq_of_key_eq hq (hlist hp) hid]) hr₁
  obtain ⟨ballots, hballots, rfl⟩ := map_eq_some_iff.mp hr₂
  obtain ⟨candidates, hcandidates, rfl⟩ := map_eq_some_iff.mp hr₃
  obtain rfl := updateRound?_eq_some hr₄
  refine ⟨r, lockRoundBySlug_eq_ok hr, _, .published hphase hcount hlength hsubmitted
    (hrel.mono ?_) ⟨rfl, rfl⟩ (insert?_eq_some hballots).2 ?_
    (insertAll?_eq_some hcandidates) rfl, rounds_of_update hdb⟩
  · intro p hp p' hp' hpp'
    refine ⟨hpp'.1, ?_⟩
    have hmem : p ∈ orderBy (·.id) (orderBy labelOrder r.proposals.rows) := by
      simpa [mem_rows] using hp
    obtain ⟨i, hi⟩ := mem_iff_getElem?.mp hmem
    exact hlabelled (p, i) (mem_zipIdx_iff_getElem?.mpr hi) p' hp' hpp'.id_eq
  · exact ((perm_orderBy _ _).trans (perm_orderBy _ _)).map _

theorem changes_of_submitVote {n : ℕ} {voter : Option AccountID} {proposal : Option ProposalID}
    {vote : Vote} (h : submitVote now slug n voter proposal db = .ok (db', vote)) :
    Changes db db' := by
  simp only [submitVote, committed] at h
  obtain ⟨voter, -, r, hr, ⟨hphase, hactive⟩, -, ballot, hballot, ⟨hopen, hnumber⟩, selected, -, -,
    db₁, hdb, rfl, -⟩ := h
  exact ⟨r, lockRoundBySlug_eq_ok hr, _,
    .voted hphase hactive (getActiveBallot?_eq_some hballot).1 hnumber hopen rfl,
    rounds_of_update hdb⟩

theorem changes_of_closeBallot {closed : Round × Bool}
    (h : closeBallot now slug revision db = .ok (db', closed)) : Changes db db' := by
  simp only [closeBallot, committed, listParticipants, length_orderBy] at h
  obtain ⟨r, hr, ⟨hphase, -⟩, -, ballot, hballot, -, hvotes, htallies, r₁, hr₁, h⟩ := h
  obtain ⟨hmem, hactive⟩ := getActiveBallot?_eq_some hballot
  obtain rfl := closeBallot?_eq_some hmem hr₁
  split at h
  · rename_i winner hwinner
    simp only [committed] at h
    obtain ⟨r₂, hr₂, db₁, hdb, rfl, -⟩ := h
    obtain rfl := updateRound?_eq_some hr₂
    exact ⟨r, lockRoundBySlug_eq_ok hr, _, .won hphase hactive hmem rfl hvotes hwinner rfl rfl,
      rounds_of_update hdb⟩
  · rename_i tied htied
    simp only [committed] at h
    obtain ⟨r₂, hr₂, r₃, hr₃, r₄, hr₄, db₁, hdb, rfl, -⟩ := h
    obtain ⟨ballots, hballots, rfl⟩ := map_eq_some_iff.mp hr₂
    obtain ⟨candidates, hcandidates, rfl⟩ := map_eq_some_iff.mp hr₃
    obtain rfl := updateRound?_eq_some hr₄
    refine ⟨r, lockRoundBySlug_eq_ok hr, _, .tied hphase hactive hmem rfl hvotes htallies ?_ rfl
      ⟨rfl, rfl⟩ (insert?_eq_some hballots).2 (insertAll?_eq_some hcandidates) rfl,
      rounds_of_update hdb⟩
    intro hlength
    obtain ⟨winner, hwinner⟩ := length_eq_one_iff.mp hlength
    exact htied winner hwinner

theorem step_cases (h : Step db db') : Creates db db' ∨ Changes db db' := by
  obtain ⟨now, op, h⟩ := h
  cases op <;> simp only [Operation.run, map_eq_ok] at h <;> obtain ⟨⟨db₁, _⟩, h, rfl⟩ := h
  case createRound => exact .inl (creates_of_createRound h)
  case updateRound => exact .inr (changes_of_updateRound h)
  case openRound => exact .inr (changes_of_openRound h)
  case updateProposal => exact .inr (changes_of_updateProposal h)
  case submitProposal | reopenProposal => exact .inr (changes_of_changeProposalStatus h)
  case publishRound => exact .inr (changes_of_publishRound h)
  case submitVote => exact .inr (changes_of_submitVote h)
  case closeBallot => exact .inr (changes_of_closeBallot h)

/-! ## Invariants of rounds -/

theorem Reachable.rounds {P : RoundRows → Prop} (h : Reachable db) (hfresh : ∀ r, r.Fresh → P r)
    (hchange : ∀ r r', r.Constraints → r'.Constraints → P r → Change r r' → P r') :
    ∀ r ∈ db.rounds, P r := by
  induction h with
  | refl =>
    intro r hr
    exact absurd hr (not_mem_empty r)
  | @tail db db' _ hstep ih =>
    intro r hr
    rcases step_cases hstep with ⟨new, hnew, hrows⟩ | ⟨old, hold, new, hchanged, hput⟩
    · rw [← mem_rows, hrows, mem_append, mem_singleton] at hr
      rcases hr with hr | rfl
      · exact ih r hr
      · exact hfresh r hnew
    · have hconstraints := db'.constraints r hr
      rw [hput] at hr
      rcases eq_or_mem_of_mem_put hr with rfl | ⟨hr, -⟩
      · exact hchange old r (db.constraints old hold) hconstraints (ih old hold) hchanged
      · exact ih r hr

end Athena.ProfitSharing
