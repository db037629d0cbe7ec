import Athena.ProfitSharing.Tables
import Mathlib.Data.Bool.Basic
import Mathlib.Data.List.Lex

/-!
# Profit sharing: the statements

The statements of `profit_sharing.sql`, over the rows of one round.  A statement that returns
no row where the program needs one is `none`, and so is an insertion whose key is taken.
-/

namespace Athena.ProfitSharing

open Athena.Lib

inductive ParticipantsFault
  | slug
  | currentSlug
  | accountID
  | usernameRequired (account : AccountID)
  | displayNameRequired (account : AccountID)
  | displayOrderNotPositive (account : AccountID)
  | duplicateAccount (account : AccountID)
  | duplicateOrder (order : ℤ)
  | titleRequired
  | validatedCount
  | validatedAccountID
  | duplicateValidated (account : AccountID)
  | participantCount
  | configuredAccountID
  | usernameRequiredBeforeOpening (account : AccountID)
  | displayNameRequiredBeforeOpening (account : AccountID)
  | baselineRequiredBeforeOpening (account : AccountID)
  | duplicateConfigured (account : AccountID)
  | notValidated (account : AccountID)
  | validatedMismatch
  deriving DecidableEq, Repr

inductive ProposalFault
  | authorAccountID
  | voterAccountID
  | count
  | participantAccountID
  | duplicateParticipant (account : AccountID)
  | basisPointsRange (account : AccountID)
  | missingParticipant (account : AccountID)
  deriving DecidableEq, Repr

inductive Incompleteness
  | count
  | unexpectedParticipant (account : AccountID)
  | responsibilityRequired (account : AccountID)
  | basisPointsRequired (account : AccountID)
  | missingParticipants
  | total
  deriving DecidableEq, Repr

inductive Failure
  | roundNotFound
  | proposalNotFound
  | ballotNotFound
  | candidateNotFound
  | notParticipant
  | roundAlreadyExists
  | revisionConflict
  | invalidPhase
  | invalidParticipants (fault : ParticipantsFault)
  | invalidProposal (fault : ProposalFault)
  | incompleteProposal (fault : Incompleteness)
  | notAllProposalsSubmitted
  | notAllVotesSubmitted
  | selfVote
  | accountID
  | activeBallotMissing (number : ℕ)
  | statement
  deriving DecidableEq, Repr

namespace RoundRows

/-! ## Participants -/

/-- `ListProfitSharingParticipants`. -/
def listParticipants (r : RoundRows) : List Participant :=
  orderBy (fun p => toLex (p.displayOrder, p.accountID)) r.participants.rows

/-- `GetProfitSharingParticipant`. -/
def getParticipant? (r : RoundRows) (account : AccountID) : Option Participant :=
  r.participants.get? account

/-- `DeleteProfitSharingParticipants`.  What refers to a participant is deleted with it: every
proposal has an author, every item and candidate a proposal, and every vote a voter. -/
def deleteParticipants (r : RoundRows) : RoundRows :=
  { r with participants := .empty, proposals := .empty, items := .empty, candidates := .empty,
           votes := .empty }

/-- `BatchCreateProfitSharingParticipants`. -/
def createParticipants? (r : RoundRows) (participants : List Participant) : Option RoundRows :=
  (r.participants.insertAll? participants).map fun t => { r with participants := t }

/-! ## The round -/

def updateRound? (r : RoundRows) (phase : RoundPhase) (expectedRevision : ℕ)
    (change : Round → Round) : Option RoundRows :=
  if r.round.phase = phase ∧ r.round.revision = expectedRevision then
    some { r with round := change r.round }
  else none

variable (now : Instant)

/-- `UpdateProfitSharingRoundConfig`. -/
def updateRoundConfig? (r : RoundRows) (slug title : String) (expectedRevision : ℕ) :
    Option RoundRows :=
  r.updateRound? .draft expectedRevision fun row =>
    { row with slug := slug, title := title, revision := row.revision + 1, updatedAt := now }

/-- `OpenProfitSharingRound`. -/
def openRound? (r : RoundRows) (expectedRevision : ℕ) : Option RoundRows :=
  r.updateRound? .draft expectedRevision fun row =>
    { row with phase := .collecting, revision := row.revision + 1, updatedAt := now,
               openedAt := some now }

/-- `PublishProfitSharingRound`. -/
def publishRound? (r : RoundRows) (expectedRevision : ℕ) : Option RoundRows :=
  r.updateRound? .collecting expectedRevision fun row =>
    { row with phase := .voting, activeBallotNumber := some 1, revision := row.revision + 1,
               updatedAt := now, publishedAt := some now }

/-- `AdvanceProfitSharingRunoffBallot`. -/
def advanceRunoffBallot? (r : RoundRows) (nextBallotNumber expectedRevision : ℕ) :
    Option RoundRows :=
  r.updateRound? .voting expectedRevision fun row =>
    { row with activeBallotNumber := some nextBallotNumber, revision := row.revision + 1,
               updatedAt := now }

/-- `CloseProfitSharingRound`. -/
def closeRound? (r : RoundRows) (finalProposalID : ProposalID) (expectedRevision : ℕ) :
    Option RoundRows :=
  r.updateRound? .voting expectedRevision fun row =>
    { row with phase := .closed, finalProposalID := some finalProposalID,
               revision := row.revision + 1, updatedAt := now, closedAt := some now }

/-! ## Proposals -/

/-- `ORDER BY anonymous_label NULLS LAST, id`. -/
def labelOrder (p : Proposal) : Bool ×ₗ List ℕ ×ₗ ProposalID :=
  toLex (p.anonymousLabel.isNone,
    toLex ((p.anonymousLabel.getD "").toList.map Char.toNat, p.id))

/-- `ListProfitSharingProposals`. -/
def listProposals (r : RoundRows) : List Proposal := orderBy labelOrder r.proposals.rows

/-- `GetProfitSharingProposalByAuthorForUpdate`. -/
def getProposalByAuthor? (r : RoundRows) (author : AccountID) : Option Proposal :=
  r.proposals.rows.find? fun p => p.authorAccountID = author

/-- `BatchCreateProfitSharingProposals`. -/
def createProposals? (r : RoundRows) (proposals : List (ProposalID × AccountID)) :
    Option RoundRows :=
  (r.proposals.insertAll? (proposals.map fun p =>
    ⟨p.1, p.2, .draft, none, 1, now, now, none⟩)).map fun t => { r with proposals := t }

def updateProposal? (r : RoundRows) (condition : Proposal → Bool)
    (change : Proposal → Proposal) : Option (RoundRows × Proposal) :=
  (r.proposals.rows.find? condition).map fun p =>
    ({ r with proposals := r.proposals.put (change p) }, change p)

def ofAuthor (id : ProposalID) (author : AccountID) (status : ProposalStatus)
    (expectedRevision : ℕ) (p : Proposal) : Bool :=
  p.id = id && p.authorAccountID = author && p.status = status && p.revision = expectedRevision

/-- `UpdateProfitSharingProposalDraft`. -/
def updateProposalDraft? (r : RoundRows) (id : ProposalID) (author : AccountID)
    (expectedRevision : ℕ) : Option (RoundRows × Proposal) :=
  r.updateProposal? (ofAuthor id author .draft expectedRevision) fun p =>
    { p with revision := p.revision + 1, updatedAt := now }

/-- `SubmitProfitSharingProposal`. -/
def submitProposal? (r : RoundRows) (id : ProposalID) (author : AccountID)
    (expectedRevision : ℕ) : Option (RoundRows × Proposal) :=
  r.updateProposal? (ofAuthor id author .draft expectedRevision) fun p =>
    { p with status := .submitted, revision := p.revision + 1, updatedAt := now,
             submittedAt := some now }

/-- `ReopenProfitSharingProposal`. -/
def reopenProposal? (r : RoundRows) (id : ProposalID) (author : AccountID)
    (expectedRevision : ℕ) : Option (RoundRows × Proposal) :=
  r.updateProposal? (ofAuthor id author .submitted expectedRevision) fun p =>
    { p with status := .draft, revision := p.revision + 1, updatedAt := now, submittedAt := none }

/-- `AssignProfitSharingProposalLabel`. -/
def assignProposalLabel? (r : RoundRows) (label : String) (id : ProposalID) :
    Option (RoundRows × Proposal) :=
  r.updateProposal? (fun p => p.id = id && p.status = .submitted && p.anonymousLabel.isNone)
    fun p => { p with anonymousLabel := some label, updatedAt := now }

/-! ## Items -/

def itemsOf (r : RoundRows) (id : ProposalID) : List ProposalItem :=
  r.items.rows.filter fun i => i.proposalID = id

/-- `ListProfitSharingProposalItems`: the items, joined with their participants. -/
def listProposalItems (r : RoundRows) (id : ProposalID) : List ProposalItem :=
  (orderBy (fun j : Participant × ProposalItem => toLex (j.1.displayOrder, j.1.accountID))
    ((r.itemsOf id).filterMap fun i =>
      (r.participants.get? i.participantAccountID).map fun p => (p, i))).map (·.2)

/-- `CreateInitialProfitSharingProposalItems`. -/
def createInitialProposalItems? (r : RoundRows) : Option RoundRows :=
  (r.items.insertAll? (r.proposals.rows.flatMap fun p => r.participants.rows.map fun q =>
    ⟨p.id, q.accountID, q.baselineResponsibility, none⟩)).map fun t => { r with items := t }

/-- `DeleteProfitSharingProposalItems`. -/
def deleteProposalItems (r : RoundRows) (id : ProposalID) : RoundRows :=
  { r with items := r.items.filter fun i => i.proposalID ≠ id }

/-- `BatchCreateProfitSharingProposalItems`. -/
def createProposalItems? (r : RoundRows) (items : List ProposalItem) : Option RoundRows :=
  (r.items.insertAll? items).map fun t => { r with items := t }

/-! ## Ballots -/

/-- `CreateProfitSharingBallot`. -/
def createBallot? (r : RoundRows) (number : ℕ) : Option RoundRows :=
  (r.ballots.insert? ⟨number, .opened, now, none⟩).map fun t => { r with ballots := t }

/-- `GetActiveProfitSharingBallotForUpdate`. -/
def getActiveBallot? (r : RoundRows) : Option Ballot :=
  r.round.activeBallotNumber.bind r.ballots.get?

/-- `CloseProfitSharingBallot`. -/
def closeBallot? (r : RoundRows) (number : ℕ) : Option RoundRows :=
  (r.ballots.rows.find? fun b => b.number = number && b.status = .opened).map fun b =>
    { r with ballots := r.ballots.put { b with status := .closed, closedAt := some now } }

def candidatesOf (r : RoundRows) (number : ℕ) : List ProposalID :=
  (r.candidates.rows.filter fun c => c.ballotNumber = number).map (·.proposalID)

/-- `BatchCreateProfitSharingBallotCandidates`. -/
def createBallotCandidates? (r : RoundRows) (number : ℕ) (ids : List ProposalID) :
    Option RoundRows :=
  (r.candidates.insertAll? (ids.map fun id => ⟨number, id⟩)).map fun t =>
    { r with candidates := t }

/-- `ListProfitSharingBallotCandidates`: the proposals that are candidates. -/
def listBallotCandidates (r : RoundRows) (number : ℕ) : List Proposal :=
  orderBy labelOrder ((r.candidatesOf number).filterMap r.proposals.get?)

def votesOf (r : RoundRows) (number : ℕ) : List Vote :=
  r.votes.rows.filter fun v => v.ballotNumber = number

def voteCount (r : RoundRows) (number : ℕ) (id : ProposalID) : ℕ :=
  (r.votesOf number).countP fun v => v.proposalID = id

/-- `ListProfitSharingBallotTallies`. -/
def listBallotTallies (r : RoundRows) (number : ℕ) : List (ProposalID × ℕ) :=
  orderBy (fun t => toLex (OrderDual.toDual t.2, t.1))
    ((r.candidatesOf number).map fun id => (id, r.voteCount number id))

/-- `GetProfitSharingVote`. -/
def getVote? (r : RoundRows) (number : ℕ) (voter : AccountID) : Option Vote :=
  r.votes.get? (number, voter)

/-- `UpsertProfitSharingVote`. -/
def upsertVote (r : RoundRows) (number : ℕ) (voter : AccountID) (id : ProposalID)
    (author : AccountID) : RoundRows × Vote :=
  let createdAt := ((r.votes.get? (number, voter)).map (·.createdAt)).getD now
  let vote : Vote := ⟨number, voter, id, author, createdAt, now⟩
  ({ r with votes := r.votes.upsert vote }, vote)

end RoundRows

namespace Database

def lockRoundBySlug (db : Database) (slug : String) : Except Failure RoundRows :=
  found (db.rounds.rows.find? fun r => r.round.slug = slug) .roundNotFound

def update (db : Database) (r : RoundRows) : Except Failure Database :=
  found (ofRounds? (db.rounds.put r)) .statement

def insert (db : Database) (r : RoundRows) : Except Failure Database := do
  let rounds ← found (db.rounds.insert? r) .statement
  found (ofRounds? rounds) .statement

end Database
end Athena.ProfitSharing
