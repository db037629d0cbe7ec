import Athena.Lib.Listing
import Athena.Lib.Table
import Athena.Lib.Text

/-!
# Profit sharing: tables and queries

A round of profit sharing has participants, a proposal of each of them, the items of each
proposal, and the ballots on the proposals with their candidates and votes.  Every statement but
those on the list of rounds names one round, so the rows of one round are kept together.

The constraints of the tables are `RoundRows.Constraints`, and a database is built only with
them.
-/

namespace Athena.ProfitSharing

open Athena.Lib

/-- A UUID as a number, `0` for `uuid.Nil`. -/
abbrev AccountID : Type := ℕ

/-- A UUID as a number.  The canonical texts of two UUIDs are ordered as the numbers are. -/
abbrev ProposalID : Type := ℕ

abbrev Instant : Type := ℤ

/-! ## Rows -/

inductive RoundPhase
  | draft
  | collecting
  | voting
  | closed
  deriving DecidableEq, Repr

inductive ProposalStatus
  | draft
  | submitted
  deriving DecidableEq, Repr

inductive BallotStatus
  | opened
  | closed
  deriving DecidableEq, Repr

/-- A row of `profit_sharing_round`. -/
structure Round where
  id : ℕ
  slug : String
  title : String
  phase : RoundPhase
  revision : ℕ
  activeBallotNumber : Option ℕ
  finalProposalID : Option ProposalID
  createdAt : Instant
  updatedAt : Instant
  openedAt : Option Instant
  publishedAt : Option Instant
  closedAt : Option Instant
  deriving DecidableEq

/-- A row of `profit_sharing_participant`. -/
structure Participant where
  accountID : AccountID
  username : String
  displayName : String
  displayOrder : ℤ
  baselineResponsibility : String
  deriving DecidableEq

/-- A row of `profit_sharing_proposal`. -/
structure Proposal where
  id : ProposalID
  authorAccountID : AccountID
  status : ProposalStatus
  anonymousLabel : Option String
  revision : ℕ
  createdAt : Instant
  updatedAt : Instant
  submittedAt : Option Instant
  deriving DecidableEq

/-- A row of `profit_sharing_proposal_item`. -/
structure ProposalItem where
  proposalID : ProposalID
  participantAccountID : AccountID
  responsibility : String
  basisPoints : Option ℤ
  deriving DecidableEq

/-- A row of `profit_sharing_ballot`. -/
structure Ballot where
  number : ℕ
  status : BallotStatus
  createdAt : Instant
  closedAt : Option Instant
  deriving DecidableEq

/-- A row of `profit_sharing_ballot_candidate`. -/
structure Candidate where
  ballotNumber : ℕ
  proposalID : ProposalID
  deriving DecidableEq

/-- A row of `profit_sharing_vote`. -/
structure Vote where
  ballotNumber : ℕ
  voterAccountID : AccountID
  proposalID : ProposalID
  proposalAuthorAccountID : AccountID
  createdAt : Instant
  updatedAt : Instant
  deriving DecidableEq

def ProposalItem.key (i : ProposalItem) : ProposalID × AccountID :=
  (i.proposalID, i.participantAccountID)

def Candidate.key (c : Candidate) : ℕ × ProposalID := (c.ballotNumber, c.proposalID)

def Vote.key (v : Vote) : ℕ × AccountID := (v.ballotNumber, v.voterAccountID)

structure RoundRows where
  round : Round
  participants : Table Participant.accountID
  proposals : Table Proposal.id
  items : Table ProposalItem.key
  ballots : Table Ballot.number
  candidates : Table Candidate.key
  votes : Table Vote.key

/-! ## Constraints -/

def isUsernameChar (c : Char) : Bool := c.isAlphanum || c = '.' || c = '-'

/-- `profit_sharing_participant_username_check`. -/
def isUsername (s : String) : Bool :=
  3 ≤ s.length && s.length ≤ 42 && s.toList.all isUsernameChar && s.toList.any Char.isAlphanum

/-- `profit_sharing_participant_display_name_check`. -/
def isDisplayName (s : String) : Bool :=
  1 ≤ s.length && s.length ≤ 80 && !s.toList.any Text.isControl

/-- A text that is not only spaces, for which `BTRIM` leaves something. -/
def isNonBlank (s : String) : Bool := s.toList.any (· ≠ ' ')

namespace RoundRows

variable (r : RoundRows)

@[mk_iff]
structure RoundCheck : Prop where
  slug : isNonBlank r.round.slug
  revision : 0 < r.round.revision ∧ r.round.revision < 2 ^ 63
  activeBallot : ∀ n ∈ r.round.activeBallotNumber, 0 < n
  finalProposal : ∀ f ∈ r.round.finalProposalID, f ∈ r.proposals.rows.map (·.id)

@[mk_iff]
structure ParticipantCheck : Prop where
  orderUnique : (r.participants.rows.map (·.displayOrder)).Nodup
  row : ∀ p ∈ r.participants.rows,
    isUsername p.username ∧ isDisplayName p.displayName ∧ 0 < p.displayOrder

@[mk_iff]
structure ProposalCheck : Prop where
  authorUnique : (r.proposals.rows.map (·.authorAccountID)).Nodup
  author : ∀ p ∈ r.proposals.rows, p.authorAccountID ∈ r.participants.rows.map (·.accountID)
  labelUnique : (r.proposals.rows.filterMap (·.anonymousLabel)).Nodup
  row : ∀ p ∈ r.proposals.rows, (0 < p.revision ∧ p.revision < 2 ^ 63) ∧
    (∀ label ∈ p.anonymousLabel, isNonBlank label) ∧
    (p.submittedAt.isSome ↔ p.status = .submitted)
  item : ∀ i ∈ r.items.rows, i.proposalID ∈ r.proposals.rows.map (·.id) ∧
    i.participantAccountID ∈ r.participants.rows.map (·.accountID) ∧
    ∀ points ∈ i.basisPoints, 0 ≤ points ∧ points ≤ 10000

/-- What the ballots, their candidates and the votes must satisfy. -/
@[mk_iff]
structure BallotCheck : Prop where
  ballot : ∀ b ∈ r.ballots.rows, (0 < b.number ∧ b.number < 2 ^ 31) ∧
    (b.closedAt.isSome ↔ b.status = .closed)
  candidate : ∀ c ∈ r.candidates.rows, c.ballotNumber ∈ r.ballots.rows.map (·.number) ∧
    c.proposalID ∈ r.proposals.rows.map (·.id)
  vote : ∀ v ∈ r.votes.rows, v.voterAccountID ∈ r.participants.rows.map (·.accountID) ∧
    (v.ballotNumber, v.proposalID) ∈ r.candidates.rows.map Candidate.key ∧
    (v.proposalID, v.proposalAuthorAccountID) ∈
      r.proposals.rows.map (fun p => (p.id, p.authorAccountID)) ∧
    v.voterAccountID ≠ v.proposalAuthorAccountID

@[mk_iff]
structure Constraints : Prop where
  round : r.RoundCheck
  participant : r.ParticipantCheck
  proposal : r.ProposalCheck
  ballot : r.BallotCheck

instance : Decidable r.RoundCheck := decidable_of_iff' _ r.roundCheck_iff

instance : Decidable r.ParticipantCheck := decidable_of_iff' _ r.participantCheck_iff

instance : Decidable r.ProposalCheck := decidable_of_iff' _ r.proposalCheck_iff

instance : Decidable r.BallotCheck := decidable_of_iff' _ r.ballotCheck_iff

instance : Decidable r.Constraints := decidable_of_iff' _ r.constraints_iff

end RoundRows

/-! ## Database -/

/-- The rounds.  No two share a slug, and no two proposals share an id. -/
structure Database where
  rounds : Table (fun r : RoundRows => r.round.id)
  slugUnique : (rounds.rows.map (·.round.slug)).Nodup
  proposalUnique : (rounds.rows.flatMap fun r => r.proposals.rows.map (·.id)).Nodup
  constraints : ∀ r ∈ rounds.rows, r.Constraints

namespace Database

def empty : Database where
  rounds := .empty
  slugUnique := List.nodup_nil
  proposalUnique := List.nodup_nil
  constraints := by simp [Table.empty]

def ofRounds? (rounds : Table (fun r : RoundRows => r.round.id)) : Option Database :=
  if h : (rounds.rows.map (·.round.slug)).Nodup ∧
      (rounds.rows.flatMap fun r => r.proposals.rows.map (·.id)).Nodup ∧
      ∀ r ∈ rounds.rows, r.Constraints then
    some ⟨rounds, h.1, h.2.1, h.2.2⟩
  else none

theorem rounds_of_ofRounds? {rounds : Table (fun r : RoundRows => r.round.id)} {db : Database}
    (h : ofRounds? rounds = some db) : db.rounds = rounds := by
  unfold ofRounds? at h
  split at h
  · cases h
    rfl
  · cases h

end Database
end Athena.ProfitSharing
