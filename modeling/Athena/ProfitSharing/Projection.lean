import Athena.ProfitSharing.Ballots

/-!
# Profit sharing: what a requester sees

`GetRound` and `ListRounds` read the rows of a round into a snapshot and make a message of it
for one requester.
-/

namespace Athena.ProfitSharing

open Athena.Lib

/-! ## Snapshots -/

structure ProposalSnapshot where
  row : Proposal
  items : List ProposalItem
  deriving DecidableEq

structure BallotSnapshot where
  row : Ballot
  candidates : List ProposalSnapshot
  voteCounts : List (ProposalID × ℕ)
  votedCount : ℕ
  currentVote : Option Vote
  deriving DecidableEq

structure RoundSnapshot where
  round : Round
  participants : List Participant
  proposals : List ProposalSnapshot
  ballot : Option BallotSnapshot
  deriving DecidableEq

def candidateSnapshot (proposals : List ProposalSnapshot) (candidate : Proposal) :
    ProposalSnapshot :=
  (proposals.find? fun s => s.row.id = candidate.id).getD ⟨candidate, []⟩

def loadBallotSnapshot (r : RoundRows) (proposals : List ProposalSnapshot)
    (requester : AccountID) (ballot : Ballot) : BallotSnapshot where
  row := ballot
  candidates := (r.listBallotCandidates ballot.number).map (candidateSnapshot proposals)
  voteCounts := if r.round.phase = .closed then r.listBallotTallies ballot.number else []
  votedCount := (r.votesOf ballot.number).length
  currentVote := if requester = 0 then none else r.getVote? ballot.number requester

def loadRoundSnapshot (r : RoundRows) (requester : AccountID) : Except Failure RoundSnapshot := do
  let participants := r.listParticipants
  let proposals := r.listProposals.map fun p => ⟨p, r.listProposalItems p.id⟩
  match r.round.activeBallotNumber with
  | none => return ⟨r.round, participants, proposals, none⟩
  | some number =>
    let ballot ← found (r.ballots.get? number) (.activeBallotMissing number)
    return ⟨r.round, participants, proposals,
      some (loadBallotSnapshot r proposals requester ballot)⟩

theorem loadRoundSnapshot_eq_ok {r : RoundRows} {requester : AccountID} {s : RoundSnapshot}
    (h : loadRoundSnapshot r requester = .ok s) :
    s.round = r.round ∧ s.participants = r.listParticipants ∧
      s.proposals = r.listProposals.map fun p => ⟨p, r.listProposalItems p.id⟩ := by
  unfold loadRoundSnapshot at h
  split at h
  · simp only [pure_eq_ok] at h
    subst h
    simp
  · simp only [committed] at h
    obtain ⟨_, -, rfl⟩ := h
    simp

/-! ## Messages -/

namespace Api

/-- The message `ProposalItem`. -/
structure ProposalItem where
  participantAccountID : AccountID
  participantUsername : String
  participantDisplayName : String
  participantDisplayOrder : ℤ
  responsibility : String
  basisPoints : ℤ
  basisPointsSet : Bool
  deriving DecidableEq

/-- The message `Proposal`. -/
structure Proposal where
  id : ProposalID
  label : String
  status : ProposalStatus
  revision : ℕ
  authorAccountID : AccountID
  authorUsername : String
  authorDisplayName : String
  isOwn : Bool
  items : List ProposalItem
  voteCountVisible : Bool
  voteCount : ℕ
  isFinal : Bool
  deriving DecidableEq

/-- The message `Participant`. -/
structure Participant where
  accountID : AccountID
  username : String
  displayName : String
  displayOrder : ℤ
  baselineResponsibility : String
  proposalProgressVisible : Bool
  submitted : Bool
  deriving DecidableEq

/-- The message `Ballot`. -/
structure Ballot where
  number : ℕ
  candidates : List Proposal
  votedCount : ℕ
  participantCount : ℕ
  currentVoteProposalID : Option ProposalID
  deriving DecidableEq

/-- The message `RoundSummary`. -/
structure RoundSummary where
  slug : String
  title : String
  phase : RoundPhase
  revision : ℕ
  participantCount : ℕ
  submittedCount : ℕ
  activeBallotNumber : ℕ
  votedCount : ℕ
  createdAtUnix : ℤ
  updatedAtUnix : ℤ
  deriving DecidableEq

/-- The message `Round`. -/
structure Round where
  summary : RoundSummary
  participants : List Participant
  ownProposal : Option Proposal
  activeBallot : Option Ballot
  finalProposalID : Option ProposalID
  openedAtUnix : ℤ
  publishedAtUnix : ℤ
  closedAtUnix : ℤ
  deriving DecidableEq

end Api

def unix (t : Instant) : ℤ := t / 1000000

def unixTime (t : Option Instant) : ℤ := (t.map unix).getD 0

/-- `participantByAccount`, which has a participant of zero values for an unknown account. -/
def participantByAccount (participants : List Participant) (account : AccountID) : Participant :=
  (participants.reverse.find? fun p => p.accountID = account).getD ⟨0, "", "", 0, ""⟩

/-- The items of `proposalToProto`. -/
def itemToProto (participants : List Participant) (item : ProposalItem) : Api.ProposalItem :=
  let participant := participantByAccount participants item.participantAccountID
  ⟨item.participantAccountID, participant.username, participant.displayName,
    participant.displayOrder, item.responsibility, item.basisPoints.getD 0, item.basisPoints.isSome⟩

def proposalToProto (proposal : ProposalSnapshot) (participants : List Participant)
    (requester : AccountID) (showAuthor showRevision showVoteCount : Bool) (voteCount : ℕ)
    (isFinal : Bool) : Api.Proposal :=
  let author := participantByAccount participants proposal.row.authorAccountID
  { id := proposal.row.id
    label := proposal.row.anonymousLabel.getD ""
    status := proposal.row.status
    revision := if showRevision then proposal.row.revision else 0
    authorAccountID := if showAuthor then proposal.row.authorAccountID else 0
    authorUsername := if showAuthor then author.username else ""
    authorDisplayName := if showAuthor then author.displayName else ""
    isOwn := proposal.row.authorAccountID = requester
    items := proposal.items.map (itemToProto participants)
    voteCountVisible := showVoteCount
    voteCount := voteCount
    isFinal := isFinal }

def roundSummaryToProto (snapshot : RoundSnapshot) : Api.RoundSummary where
  slug := snapshot.round.slug
  title := snapshot.round.title
  phase := snapshot.round.phase
  revision := snapshot.round.revision
  participantCount := snapshot.participants.length
  submittedCount := snapshot.proposals.countP fun p => p.row.status = .submitted
  activeBallotNumber := (snapshot.ballot.map (·.row.number)).getD 0
  votedCount := (snapshot.ballot.map (·.votedCount)).getD 0
  createdAtUnix := unix snapshot.round.createdAt
  updatedAtUnix := unix snapshot.round.updatedAt

/-- `proposalByAuthor` of `roundToProto`. -/
def proposalByAuthor? (snapshot : RoundSnapshot) (account : AccountID) : Option ProposalSnapshot :=
  snapshot.proposals.reverse.find? fun p => p.row.authorAccountID = account

/-- The participants of `roundToProto`: an administrator sees who has submitted. -/
def participantToProto (snapshot : RoundSnapshot) (requesterIsAdmin : Bool) (p : Participant) :
    Api.Participant :=
  let visible := requesterIsAdmin && snapshot.round.phase ≠ .draft
  { accountID := p.accountID
    username := p.username
    displayName := p.displayName
    displayOrder := p.displayOrder
    baselineResponsibility := p.baselineResponsibility
    proposalProgressVisible := visible
    submitted := visible &&
      (proposalByAuthor? snapshot p.accountID).any fun proposal =>
        proposal.row.status = .submitted }

/-- The active ballot of `roundToProto`. -/
def ballotToProto (snapshot : RoundSnapshot) (requester : AccountID) (ballot : BallotSnapshot) :
    Api.Ballot :=
  let closed : Bool := snapshot.round.phase = .closed
  { number := ballot.row.number
    participantCount := snapshot.participants.length
    votedCount := ballot.votedCount
    currentVoteProposalID := ballot.currentVote.map (·.proposalID)
    candidates := ballot.candidates.map fun proposal =>
      proposalToProto proposal snapshot.participants requester closed false closed
        ((ballot.voteCounts.lookup proposal.row.id).getD 0)
        (snapshot.round.finalProposalID = some proposal.row.id) }

def roundToProto (snapshot : RoundSnapshot) (requester : AccountID) (requesterIsAdmin : Bool) :
    Api.Round where
  summary := roundSummaryToProto snapshot
  participants := snapshot.participants.map (participantToProto snapshot requesterIsAdmin)
  ownProposal :=
    if !requesterIsAdmin && snapshot.round.phase = .collecting then
      (proposalByAuthor? snapshot requester).map fun proposal =>
        proposalToProto proposal snapshot.participants requester true true false 0 false
    else none
  activeBallot :=
    if snapshot.round.phase = .voting ∨ snapshot.round.phase = .closed then
      snapshot.ballot.map (ballotToProto snapshot requester)
    else none
  finalProposalID := snapshot.round.finalProposalID
  openedAtUnix := unixTime snapshot.round.openedAt
  publishedAtUnix := unixTime snapshot.round.publishedAt
  closedAtUnix := unixTime snapshot.round.closedAt

/-! ## The reads -/

inductive ServiceFailure
  | requesterAccountID
  | slugRequired
  | notParticipant
  | store (failure : Failure)
  deriving DecidableEq

def requestIdentity (value : Option AccountID) : Except ServiceFailure AccountID :=
  match value with
  | some (n + 1) => .ok (n + 1)
  | _ => .error .requesterAccountID

/-- `authorizedRound`.  The round is read as in a transaction, without the lock. -/
def authorizedRound (db : Database) (slug : String) (requester : AccountID)
    (requesterIsAdmin : Bool) : Except ServiceFailure RoundSnapshot := do
  ensure (Text.trimSpace slug ≠ "") .slugRequired
  let r ← (db.lockRoundBySlug (Text.trimSpace slug)).mapError .store
  let snapshot ← (loadRoundSnapshot r requester).mapError .store
  ensure (requesterIsAdmin ∨ snapshot.participants.any (·.accountID = requester)) .notParticipant
  return snapshot

def getRound (slug : String) (requesterAccountID : Option AccountID) (requesterIsAdmin : Bool)
    (db : Database) : Except ServiceFailure Api.Round := do
  let requester ← requestIdentity requesterAccountID
  let snapshot ← authorizedRound db slug requester requesterIsAdmin
  return roundToProto snapshot requester requesterIsAdmin

def listProfitSharingRounds (db : Database) (requester : AccountID) (requesterIsAdmin : Bool) :
    List RoundRows :=
  orderBy (fun r => toLex (OrderDual.toDual r.round.createdAt, OrderDual.toDual r.round.id))
    (db.rounds.rows.filter fun r =>
      requesterIsAdmin || r.participants.rows.any (·.accountID = requester))

def summaries (requester : AccountID) :
    List RoundRows → Except ServiceFailure (List Api.RoundSummary)
  | [] => .ok []
  | r :: rest => do
    let snapshot ← (loadRoundSnapshot r requester).mapError .store
    let others ← summaries requester rest
    return roundSummaryToProto snapshot :: others

def listRounds (requesterAccountID : Option AccountID) (requesterIsAdmin : Bool)
    (db : Database) : Except ServiceFailure (List Api.RoundSummary) := do
  let requester ← requestIdentity requesterAccountID
  summaries requester (listProfitSharingRounds db requester requesterIsAdmin)

end Athena.ProfitSharing
