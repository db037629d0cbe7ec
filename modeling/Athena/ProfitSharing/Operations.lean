import Athena.ProfitSharing.Queries
import Mathlib.Data.Finset.Card
import Mathlib.Logic.Relation

/-!
# Profit sharing: the operations of the store

The nine operations of `operations.go`.  Each is one transaction that locks the row of its
round, so that it is a function of the database it finds.  An account id of a request is read
by `uuid.Parse`, which the model takes as done: `none` is a text that is not a UUID.
-/

namespace Athena.ProfitSharing

open Athena.Lib

def requiredParticipantCount : ℕ := 5

/-- `canonicalAccountID`, with the error that its caller makes of a failure. -/
def canonicalAccountID (value : Option AccountID) (e : Failure) : Except Failure AccountID :=
  match value with
  | some (n + 1) => .ok (n + 1)
  | _ => .error e

/-! ## Checks of the participants -/

def isSlugChar (c : Char) : Bool := ('a' ≤ c && c ≤ 'z') || ('0' ≤ c && c ≤ '9')

def isSlugRest : Bool → List Char → Bool
  | afterChar, [] => afterChar
  | afterChar, c :: cs => (isSlugChar c && isSlugRest true cs) ||
      (afterChar && c = '-' && isSlugRest false cs)

/-- `profitSharingRoundSlugPattern`: groups of lower case letters and digits, with a hyphen
between two. -/
def isSlug (s : String) : Bool := isSlugRest false s.toList

structure ParticipantInput where
  accountID : Option AccountID
  username : String
  displayName : String
  displayOrder : ℤ
  baselineResponsibility : String
  deriving DecidableEq

/-- The loop of `validateParticipantInputs`, with the accounts and the orders seen so far. -/
def normalizeParticipants (accountIDs : Finset AccountID) (orders : Finset ℤ) :
    List ParticipantInput → Except Failure (List Participant)
  | [] => .ok []
  | input :: inputs => do
    let accountID ← canonicalAccountID input.accountID (.invalidParticipants .accountID)
    let username := Text.trimSpace input.username
    let displayName := Text.trimSpace input.displayName
    let baseline := Text.trimSpace input.baselineResponsibility
    ensure (username ≠ "") (.invalidParticipants (.usernameRequired accountID))
    ensure (displayName ≠ "") (.invalidParticipants (.displayNameRequired accountID))
    ensure (0 < input.displayOrder) (.invalidParticipants (.displayOrderNotPositive accountID))
    ensure (accountID ∉ accountIDs) (.invalidParticipants (.duplicateAccount accountID))
    ensure (input.displayOrder ∉ orders) (.invalidParticipants (.duplicateOrder input.displayOrder))
    let rest ← normalizeParticipants (insert accountID accountIDs)
      (insert input.displayOrder orders) inputs
    return ⟨accountID, username, displayName, input.displayOrder, baseline⟩ :: rest

def validateParticipantInputs (inputs : List ParticipantInput) :
    Except Failure (List Participant) := do
  let normalized ← normalizeParticipants ∅ ∅ inputs
  return orderBy (·.displayOrder) normalized

/-- The loop of `normalizeValidatedAccountIDs`. -/
def canonicalAccountIDs (seen : Finset AccountID) :
    List (Option AccountID) → Except Failure (List AccountID)
  | [] => .ok []
  | value :: values => do
    let accountID ← canonicalAccountID value (.invalidParticipants .validatedAccountID)
    ensure (accountID ∉ seen) (.invalidParticipants (.duplicateValidated accountID))
    let rest ← canonicalAccountIDs (insert accountID seen) values
    return accountID :: rest

def normalizeValidatedAccountIDs (values : List (Option AccountID)) :
    Except Failure (List AccountID) := do
  ensure (values.length = requiredParticipantCount) (.invalidParticipants .validatedCount)
  canonicalAccountIDs ∅ values

def validatedSet (seen : Finset AccountID) : List AccountID → Except Failure (Finset AccountID)
  | [] => .ok seen
  | accountID :: rest => do
    ensure (accountID ∉ seen) (.invalidParticipants (.duplicateValidated accountID))
    validatedSet (insert accountID seen) rest

def configuredSet (validated configured : Finset AccountID) :
    List Participant → Except Failure (Finset AccountID)
  | [] => .ok configured
  | p :: rest => do
    ensure (p.accountID ≠ 0) (.invalidParticipants .configuredAccountID)
    ensure (Text.trimSpace p.username ≠ "")
      (.invalidParticipants (.usernameRequiredBeforeOpening p.accountID))
    ensure (Text.trimSpace p.displayName ≠ "")
      (.invalidParticipants (.displayNameRequiredBeforeOpening p.accountID))
    ensure (Text.trimSpace p.baselineResponsibility ≠ "")
      (.invalidParticipants (.baselineRequiredBeforeOpening p.accountID))
    ensure (p.accountID ∉ configured) (.invalidParticipants (.duplicateConfigured p.accountID))
    ensure (p.accountID ∈ validated) (.invalidParticipants (.notValidated p.accountID))
    configuredSet validated (insert p.accountID configured) rest

def validateOpenParticipants (participants : List Participant)
    (validatedAccountIDs : List AccountID) : Except Failure Unit := do
  ensure (participants.length = requiredParticipantCount ∧
    validatedAccountIDs.length = requiredParticipantCount) (.invalidParticipants .participantCount)
  let validated ← validatedSet ∅ validatedAccountIDs
  let configured ← configuredSet validated ∅ participants
  ensure (configured.card = validated.card) (.invalidParticipants .validatedMismatch)

/-! ## Checks of the items -/

structure ProposalItemInput where
  participantAccountID : Option AccountID
  responsibility : String
  basisPoints : Option ℤ
  deriving DecidableEq

/-- `byAccountID` of `validateProposalItems`: the items by their participants. -/
def itemsByAccountID (byAccountID : List (AccountID × ProposalItemInput)) :
    List ProposalItemInput → Except Failure (List (AccountID × ProposalItemInput))
  | [] => .ok byAccountID
  | item :: items => do
    let accountID ← canonicalAccountID item.participantAccountID
      (.invalidProposal .participantAccountID)
    let responsibility := Text.trimSpace item.responsibility
    ensure ((byAccountID.lookup accountID).isNone)
      (.invalidProposal (.duplicateParticipant accountID))
    ensure (∀ points ∈ item.basisPoints, 0 ≤ points ∧ points ≤ 10000)
      (.invalidProposal (.basisPointsRange accountID))
    itemsByAccountID ((accountID, ⟨some accountID, responsibility, item.basisPoints⟩) ::
      byAccountID) items

def normalizeItems (byAccountID : List (AccountID × ProposalItemInput)) :
    List Participant → Except Failure (List ProposalItemInput)
  | [] => .ok []
  | p :: rest => do
    let item ← found (byAccountID.lookup p.accountID)
      (.invalidProposal (.missingParticipant p.accountID))
    let items ← normalizeItems byAccountID rest
    return item :: items

def validateProposalItems (items : List ProposalItemInput) (participants : List Participant) :
    Except Failure (List ProposalItemInput) := do
  ensure (items.length = participants.length) (.invalidProposal .count)
  let byAccountID ← itemsByAccountID [] items
  normalizeItems byAccountID participants

/-- The rows that `createProposalItems` writes.  An allocation that is not set goes to the
database as `-1`, and comes to the row as `NULL`. -/
def proposalItemRows (id : ProposalID) :
    List ProposalItemInput → Except Failure (List ProposalItem)
  | [] => .ok []
  | item :: items => do
    let accountID ← canonicalAccountID item.participantAccountID .accountID
    let points := item.basisPoints.getD (-1)
    let rows ← proposalItemRows id items
    return ⟨id, accountID, item.responsibility, if points = -1 then none else some points⟩ ::
      rows

def createProposalItems (r : RoundRows) (id : ProposalID) (items : List ProposalItemInput) :
    Except Failure RoundRows := do
  let rows ← proposalItemRows id items
  found (r.createProposalItems? rows) .statement

/-- The loop of `validateCompleteProposal`: the participants without an item so far, and the
total so far. -/
def checkItems (expected : Finset AccountID) (total : ℤ) :
    List ProposalItem → Except Failure (Finset AccountID × ℤ)
  | [] => .ok (expected, total)
  | item :: items => do
    let accountID := item.participantAccountID
    ensure (accountID ∈ expected) (.incompleteProposal (.unexpectedParticipant accountID))
    ensure (Text.trimSpace item.responsibility ≠ "")
      (.incompleteProposal (.responsibilityRequired accountID))
    let points ← found item.basisPoints (.incompleteProposal (.basisPointsRequired accountID))
    checkItems (expected.erase accountID) (total + points) items

def validateCompleteProposal (items : List ProposalItem) (participants : List Participant) :
    Except Failure Unit := do
  ensure (items.length = participants.length) (.incompleteProposal .count)
  let (expected, total) ← checkItems (participants.map (·.accountID)).toFinset 0 items
  ensure (expected = ∅) (.incompleteProposal .missingParticipants)
  ensure (total = 10000) (.incompleteProposal .total)

/-! ## The operations -/

variable (now : Instant)

/-- `CreateRound`.  `id` is the next value of the sequence. -/
def createRound (id : ℕ) (slug title : String) (participants : List ParticipantInput)
    (db : Database) : Except Failure (Database × Round) := do
  let slug := Text.trimSpace slug
  let title := Text.trimSpace title
  ensure (isSlug slug) (.invalidParticipants .slug)
  let participants ← validateParticipantInputs participants
  ensure (slug ∉ db.rounds.rows.map (·.round.slug)) .roundAlreadyExists
  let row : Round := ⟨id, slug, title, .draft, 1, none, none, now, now, none, none, none⟩
  let r : RoundRows := ⟨row, .empty, .empty, .empty, .empty, .empty, .empty⟩
  let r ← found (r.createParticipants? participants) .statement
  let db ← db.insert r
  return (db, row)

def updateRound (currentSlug nextSlug title : String) (participants : List ParticipantInput)
    (expectedRevision : ℕ) (db : Database) : Except Failure (Database × Round) := do
  let currentSlug := Text.trimSpace currentSlug
  let nextSlug := Text.trimSpace nextSlug
  let title := Text.trimSpace title
  ensure (currentSlug ≠ "" ∧ isSlug nextSlug) (.invalidParticipants .currentSlug)
  let participants ← validateParticipantInputs participants
  let r ← db.lockRoundBySlug currentSlug
  ensure (r.round.phase = .draft) .invalidPhase
  ensure (r.round.revision = expectedRevision) .revisionConflict
  let updated ← found (r.updateRoundConfig? now nextSlug title expectedRevision) .revisionConflict
  ensure (∀ other ∈ db.rounds.rows, other.round.slug = nextSlug → other.round.id = r.round.id)
    .roundAlreadyExists
  let r ← found (updated.deleteParticipants.createParticipants? participants) .statement
  let db ← db.update r
  return (db, updated.round)

/-- `OpenRound`.  `newID` gives the values of `uuid.NewString`. -/
def openRound (newID : ℕ → ProposalID) (slug : String) (expectedRevision : ℕ)
    (validatedAccountIDs : List (Option AccountID)) (db : Database) :
    Except Failure (Database × Round) := do
  let slug := Text.trimSpace slug
  let validatedAccountIDs ← normalizeValidatedAccountIDs validatedAccountIDs
  let r ← db.lockRoundBySlug slug
  ensure (r.round.phase = .draft) .invalidPhase
  ensure (r.round.revision = expectedRevision) .revisionConflict
  ensure (Text.trimSpace r.round.title ≠ "") (.invalidParticipants .titleRequired)
  let participants := r.listParticipants
  validateOpenParticipants participants validatedAccountIDs
  let proposals := participants.zipIdx.map fun (p, i) => (newID i, p.accountID)
  let r ← found (r.createProposals? now proposals) .statement
  let r ← found r.createInitialProposalItems? .statement
  let r ← found (r.openRound? now expectedRevision) .revisionConflict
  let db ← db.update r
  return (db, r.round)

def updateProposal (slug : String) (authorAccountID : Option AccountID) (expectedRevision : ℕ)
    (items : List ProposalItemInput) (db : Database) :
    Except Failure (Database × Proposal × List ProposalItem) := do
  let slug := Text.trimSpace slug
  let author ← canonicalAccountID authorAccountID (.invalidProposal .authorAccountID)
  let r ← db.lockRoundBySlug slug
  ensure (r.round.phase = .collecting) .invalidPhase
  let participants := r.listParticipants
  let items ← validateProposalItems items participants
  let proposal ← found (r.getProposalByAuthor? author) .proposalNotFound
  ensure (proposal.status = .draft) .invalidPhase
  ensure (proposal.revision = expectedRevision) .revisionConflict
  let r ← createProposalItems (r.deleteProposalItems proposal.id) proposal.id items
  let (r, updated) ← found (r.updateProposalDraft? now proposal.id author expectedRevision)
    .revisionConflict
  let db ← db.update r
  return (db, updated, r.listProposalItems proposal.id)

def changeProposalStatus (slug : String) (authorAccountID : Option AccountID)
    (expectedRevision : ℕ) (submit : Bool) (db : Database) :
    Except Failure (Database × Proposal × List ProposalItem) := do
  let slug := Text.trimSpace slug
  let author ← canonicalAccountID authorAccountID (.invalidProposal .authorAccountID)
  let r ← db.lockRoundBySlug slug
  ensure (r.round.phase = .collecting) .invalidPhase
  let proposal ← found (r.getProposalByAuthor? author) .proposalNotFound
  ensure (proposal.revision = expectedRevision) .revisionConflict
  let items := r.listProposalItems proposal.id
  if submit then
    ensure (proposal.status = .draft) .invalidPhase
    validateCompleteProposal items r.listParticipants
    let (r, changed) ← found (r.submitProposal? now proposal.id author expectedRevision)
      .revisionConflict
    let db ← db.update r
    return (db, changed, items)
  else
    ensure (proposal.status = .submitted) .invalidPhase
    let (r, changed) ← found (r.reopenProposal? now proposal.id author expectedRevision)
      .revisionConflict
    let db ← db.update r
    return (db, changed, items)

def submitProposal (slug : String) (authorAccountID : Option AccountID) (expectedRevision : ℕ) :
    Database → Except Failure (Database × Proposal × List ProposalItem) :=
  changeProposalStatus now slug authorAccountID expectedRevision true

def reopenProposal (slug : String) (authorAccountID : Option AccountID) (expectedRevision : ℕ) :
    Database → Except Failure (Database × Proposal × List ProposalItem) :=
  changeProposalStatus now slug authorAccountID expectedRevision false

/-- The loop of `proposalLabel`, which ends after at most `fuel` letters. -/
def labelLetters : ℕ → ℕ → List Char → List Char
  | 0, _, letters => letters
  | fuel + 1, index, letters =>
    let letters := Char.ofNat ('A'.toNat + index % 26) :: letters
    if index < 26 then letters else labelLetters fuel (index / 26 - 1) letters

def proposalLabel (index : ℕ) : String :=
  String.ofList ("Proposal ".toList ++ labelLetters (index + 1) index [])

/-- The loop of `PublishRound`: every proposal without a label gets the one of its place. -/
def assignProposalLabels : List (Proposal × ℕ) → RoundRows → Except Failure RoundRows
  | [], r => .ok r
  | (p, i) :: rest, r => do
    if p.anonymousLabel.isNone then
      let (r, _) ← found (r.assignProposalLabel? now (proposalLabel i) p.id) .statement
      assignProposalLabels rest r
    else
      assignProposalLabels rest r

def publishRound (slug : String) (expectedRevision : ℕ) (db : Database) :
    Except Failure (Database × Round) := do
  let slug := Text.trimSpace slug
  let r ← db.lockRoundBySlug slug
  ensure (r.round.phase = .collecting) .invalidPhase
  ensure (r.round.revision = expectedRevision) .revisionConflict
  let participants := r.listParticipants
  let proposals := r.listProposals
  ensure (participants.length = requiredParticipantCount ∧
    proposals.length = participants.length) .notAllProposalsSubmitted
  ensure (∀ p ∈ proposals, p.status = .submitted) .notAllProposalsSubmitted
  -- the ids are random, so their order is a random assignment of the labels
  let proposals := orderBy (·.id) proposals
  let r ← assignProposalLabels now proposals.zipIdx r
  let r ← found (r.createBallot? now 1) .statement
  let r ← found (r.createBallotCandidates? 1 (proposals.map (·.id))) .statement
  let r ← found (r.publishRound? now expectedRevision) .revisionConflict
  let db ← db.update r
  return (db, r.round)

/-- `SubmitVote`.  A `proposalID` that is not the text of an id is `none`. -/
def submitVote (slug : String) (ballotNumber : ℕ) (voterAccountID : Option AccountID)
    (proposalID : Option ProposalID) (db : Database) : Except Failure (Database × Vote) := do
  let slug := Text.trimSpace slug
  let voter ← canonicalAccountID voterAccountID (.invalidProposal .voterAccountID)
  let r ← db.lockRoundBySlug slug
  ensure (r.round.phase = .voting ∧ r.round.activeBallotNumber = some ballotNumber) .invalidPhase
  ensure ((r.getParticipant? voter).isSome) .notParticipant
  let ballot ← found r.getActiveBallot? .ballotNotFound
  ensure (ballot.status = .opened ∧ ballot.number = ballotNumber) .invalidPhase
  let selected ← found ((r.listBallotCandidates ballotNumber).find? fun p => some p.id = proposalID)
    .candidateNotFound
  ensure (selected.authorAccountID ≠ voter) .selfVote
  let (r, vote) := r.upsertVote now ballotNumber voter selected.id selected.authorAccountID
  let db ← db.update r
  return (db, vote)

def tiedProposalIDs : List (ProposalID × ℕ) → List ProposalID
  | [] => []
  | first :: rest => ((first :: rest).takeWhile fun t => t.2 = first.2).map (·.1)

/-- `CloseBallot`: the round after it, and whether a runoff was created. -/
def closeBallot (slug : String) (expectedRevision : ℕ) (db : Database) :
    Except Failure (Database × Round × Bool) := do
  let slug := Text.trimSpace slug
  let r ← db.lockRoundBySlug slug
  ensure (r.round.phase = .voting ∧ r.round.activeBallotNumber.isSome) .invalidPhase
  ensure (r.round.revision = expectedRevision) .revisionConflict
  let ballot ← found r.getActiveBallot? .ballotNotFound
  ensure (ballot.status = .opened) .invalidPhase
  let participants := r.listParticipants
  ensure ((r.votesOf ballot.number).length = participants.length) .notAllVotesSubmitted
  let tallies := r.listBallotTallies ballot.number
  ensure (tallies ≠ []) .candidateNotFound
  let r ← found (r.closeBallot? now ballot.number) .statement
  match tiedProposalIDs tallies with
  | [winner] =>
    let r ← found (r.closeRound? now winner expectedRevision) .revisionConflict
    let db ← db.update r
    return (db, r.round, false)
  | tied =>
    let r ← found (r.createBallot? now (ballot.number + 1)) .statement
    let r ← found (r.createBallotCandidates? (ballot.number + 1) tied) .statement
    let r ← found (r.advanceRunoffBallot? now (ballot.number + 1) expectedRevision)
      .revisionConflict
    let db ← db.update r
    return (db, r.round, true)

/-! ## Runs -/

inductive Operation
  | createRound (id : ℕ) (slug title : String) (participants : List ParticipantInput)
  | updateRound (currentSlug nextSlug title : String) (participants : List ParticipantInput)
      (expectedRevision : ℕ)
  | openRound (newID : ℕ → ProposalID) (slug : String) (expectedRevision : ℕ)
      (validatedAccountIDs : List (Option AccountID))
  | updateProposal (slug : String) (authorAccountID : Option AccountID) (expectedRevision : ℕ)
      (items : List ProposalItemInput)
  | submitProposal (slug : String) (authorAccountID : Option AccountID) (expectedRevision : ℕ)
  | reopenProposal (slug : String) (authorAccountID : Option AccountID) (expectedRevision : ℕ)
  | publishRound (slug : String) (expectedRevision : ℕ)
  | submitVote (slug : String) (ballotNumber : ℕ) (voterAccountID : Option AccountID)
      (proposalID : Option ProposalID)
  | closeBallot (slug : String) (expectedRevision : ℕ)

def Operation.run (db : Database) : Operation → Except Failure Database
  | .createRound id slug title participants =>
    Prod.fst <$> ProfitSharing.createRound now id slug title participants db
  | .updateRound currentSlug nextSlug title participants revision =>
    Prod.fst <$> ProfitSharing.updateRound now currentSlug nextSlug title participants revision db
  | .openRound newID slug revision validated =>
    Prod.fst <$> ProfitSharing.openRound now newID slug revision validated db
  | .updateProposal slug author revision items =>
    Prod.fst <$> ProfitSharing.updateProposal now slug author revision items db
  | .submitProposal slug author revision =>
    Prod.fst <$> ProfitSharing.submitProposal now slug author revision db
  | .reopenProposal slug author revision =>
    Prod.fst <$> ProfitSharing.reopenProposal now slug author revision db
  | .publishRound slug revision =>
    Prod.fst <$> ProfitSharing.publishRound now slug revision db
  | .submitVote slug number voter proposal =>
    Prod.fst <$> ProfitSharing.submitVote now slug number voter proposal db
  | .closeBallot slug revision =>
    Prod.fst <$> ProfitSharing.closeBallot now slug revision db

def Step (db db' : Database) : Prop :=
  ∃ (now : Instant) (op : Operation), op.run now db = .ok db'

def Runs : Database → Database → Prop := Relation.ReflTransGen Step

def Reachable (db : Database) : Prop := Runs .empty db

def runAll : List (Instant × Operation) → Database → Except Failure Database
  | [], db => .ok db
  | (now, op) :: rest, db => do
    let db ← op.run now db
    runAll rest db

theorem runs_of_runAll {ops : List (Instant × Operation)} {db db' : Database}
    (h : runAll ops db = .ok db') : Runs db db' := by
  induction ops generalizing db with
  | nil =>
    obtain rfl : db = db' := by simpa [runAll] using h
    exact .refl
  | cons op _ ih =>
    simp only [runAll, bind_eq_ok] at h
    obtain ⟨db₁, hop, h⟩ := h
    exact .head ⟨op.1, op.2, hop⟩ (ih h)

end Athena.ProfitSharing
