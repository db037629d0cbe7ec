import Athena.ProfitSharing.Rounds
import Mathlib.Algebra.BigOperators.Group.List.Basic

/-!
# Profit sharing: what is published

A proposal is checked when it is submitted, and it can be edited only as a draft.  So a
submitted proposal is complete at all times, and the proposals of a published round are:
publication finds one of each participant, all of them submitted, and nothing changes them
later.
-/

namespace Athena.ProfitSharing

open Athena.Lib Table List

namespace RoundRows

/-- A proposal with one item for each participant, each with a responsibility and an allocation,
which are 10000 in all. -/
structure Complete (r : RoundRows) (id : ProposalID) : Prop where
  participants : ((r.itemsOf id).map (·.participantAccountID)).Perm
    (r.participants.rows.map (·.accountID))
  items : ∀ i ∈ r.itemsOf id, Text.trimSpace i.responsibility ≠ "" ∧ i.basisPoints.isSome
  total : ((r.itemsOf id).map (·.basisPoints.getD 0)).sum = 10000

/-- A round in phase `voting` or `closed`. -/
def Published (r : RoundRows) : Prop := r.round.phase = .voting ∨ r.round.phase = .closed

/-! ## The check of a submission -/

/-- The loop of `validateCompleteProposal` meets every item once, and each has its own
participant among the expected ones. -/
theorem checkItems_eq_ok {expected expected' : Finset AccountID} {total total' : ℤ}
    {items : List ProposalItem} (h : checkItems expected total items = .ok (expected', total')) :
    (∀ i ∈ items, Text.trimSpace i.responsibility ≠ "" ∧ i.basisPoints.isSome) ∧
      total' = total + (items.map (·.basisPoints.getD 0)).sum ∧
      (items.map (·.participantAccountID)).Nodup ∧ expected' ⊆ expected ∧
      ∀ a, a ∈ items.map (·.participantAccountID) ↔ a ∈ expected ∧ a ∉ expected' := by
  induction items generalizing expected total with
  | nil =>
    obtain ⟨rfl, rfl⟩ : expected = expected' ∧ total = total' := by simpa [checkItems] using h
    simp
  | cons item items ih =>
    simp only [checkItems, committed] at h
    obtain ⟨hmem, hresponsibility, points, hpoints, h⟩ := h
    obtain ⟨hitems, htotal, hnodup, hsub, hexpected⟩ := ih h
    have hnew : item.participantAccountID ∉ items.map (·.participantAccountID) := by
      rw [hexpected]
      simp
    refine ⟨?_, ?_, nodup_cons.mpr ⟨hnew, hnodup⟩, hsub.trans (Finset.erase_subset _ _), ?_⟩
    · intro i hi
      rcases mem_cons.mp hi with rfl | hi
      · exact ⟨hresponsibility, by simp [hpoints]⟩
      · exact hitems i hi
    · simp only [map_cons, sum_cons, hpoints, Option.getD_some]
      omega
    · intro a
      have hitem : item.participantAccountID ∉ expected' :=
        fun h => Finset.notMem_erase _ _ (hsub h)
      rw [map_cons, mem_cons, hexpected, Finset.mem_erase]
      by_cases ha : a = item.participantAccountID
      · simp [ha, hmem, hitem]
      · simp [ha]

variable {r r' : RoundRows}

theorem perm_listProposalItems (hr : r.Constraints) (id : ProposalID) :
    (r.listProposalItems id).Perm (r.itemsOf id) := by
  have hjoin : ((r.itemsOf id).filterMap fun i =>
      (r.participants.get? i.participantAccountID).map fun p => (p, i)).map (·.2) =
      r.itemsOf id := by
    rw [List.map_filterMap]
    conv_rhs => rw [← List.filterMap_some (l := r.itemsOf id)]
    apply List.filterMap_congr
    intro i hi
    obtain ⟨p, hp, hkey⟩ := List.mem_map.mp
      (hr.proposal.item i (List.mem_filter.mp hi).1).2.1
    rw [← hkey, get?_of_mem hp]
    rfl
  rw [listProposalItems]
  exact ((perm_orderBy _ _).map _).trans (.of_eq hjoin)

theorem complete_of_validate (hr : r.Constraints) {id : ProposalID}
    (h : validateCompleteProposal (r.listProposalItems id) r.listParticipants = .ok ()) :
    r.Complete id := by
  simp only [validateCompleteProposal, bind_eq_ok, ensure_eq_ok] at h
  obtain ⟨-, -, ⟨expected, total⟩, hcheck, -, hexpected, htotal⟩ := h
  obtain ⟨hitems, hsum, hnodup, -, hmem⟩ := checkItems_eq_ok hcheck
  have hexpected : expected = ∅ := hexpected
  have htotal : total = 10000 := htotal
  have hperm := perm_listProposalItems hr id
  refine ⟨?_, ?_, ?_⟩
  · have hsame : ((r.listProposalItems id).map (·.participantAccountID)).Perm
        (r.participants.rows.map (·.accountID)) := by
      refine (perm_ext_iff_of_nodup hnodup r.participants.nodup).mpr fun a => ?_
      rw [hmem, hexpected]
      simp [listParticipants]
    exact (hperm.map _).symm.trans hsame
  · intro i hi
    exact hitems i (hperm.mem_iff.mpr hi)
  · rw [← (hperm.map _).sum_eq, ← htotal, hsum, zero_add]

/-! ## The invariant -/

structure Sound (r : RoundRows) : Prop where
  unopened : r.round.phase = .draft → r.proposals.rows = []
  submitted : ∀ p ∈ r.proposals, p.status = .submitted → r.Complete p.id
  published : r.Published →
    (r.proposals.rows.map (·.authorAccountID)).Perm (r.participants.rows.map (·.accountID)) ∧
      ∀ p ∈ r.proposals, p.status = .submitted ∧ p.anonymousLabel.isSome

theorem Fresh.sound (h : r.Fresh) : r.Sound where
  unopened _ := by rw [h.proposals]; rfl
  submitted p hp := by
    rw [h.proposals] at hp
    exact absurd hp (not_mem_empty p)
  published hpublished := by
    rw [Published, h.phase] at hpublished
    simp at hpublished

theorem Complete.congr {id : ProposalID} (h : r.Complete id)
    (hparticipants : r'.participants = r.participants) (hitems : r'.itemsOf id = r.itemsOf id) :
    r'.Complete id := by
  obtain ⟨hperm, hrows, htotal⟩ := h
  rw [← hitems] at hperm hrows htotal
  exact ⟨hparticipants ▸ hperm, hrows, htotal⟩

theorem authors_perm (hr : r.Constraints)
    (hlength : r.proposals.rows.length = r.participants.rows.length) :
    (r.proposals.rows.map (·.authorAccountID)).Perm (r.participants.rows.map (·.accountID)) := by
  have hsubset :
    r.proposals.rows.map (·.authorAccountID) ⊆ r.participants.rows.map (·.accountID) := by
    intro a ha
    obtain ⟨p, hp, rfl⟩ := mem_map.mp ha
    exact hr.proposal.author p hp
  refine (hr.proposal.authorUnique.subperm hsubset).perm_of_length_le ?_
  simp [hlength]

theorem Sound.of_voting (h : r.Sound) (hphase : r.round.phase = .voting) (hphase' : r'.Published)
    (hparticipants : r'.participants = r.participants) (hproposals : r'.proposals = r.proposals)
    (hitems : r'.items = r.items) : r'.Sound where
  unopened hdraft := by
    rcases hphase' with hphase' | hphase' <;> rw [hdraft] at hphase' <;> cases hphase'
  submitted p hp hstatus := by
    rw [hproposals] at hp
    exact (h.submitted p hp hstatus).congr hparticipants (by rw [itemsOf, itemsOf, hitems])
  published _ := by
    rw [hproposals, hparticipants]
    exact h.published (.inl hphase)

theorem Sound.of_collecting (hphase : r.round.phase = .collecting)
    (hsubmitted : ∀ p ∈ r.proposals, p.status = .submitted → r.Complete p.id) : r.Sound where
  unopened hdraft := by cases hphase.symm.trans hdraft
  submitted := hsubmitted
  published := by rintro (h | h) <;> cases hphase.symm.trans h

theorem Sound.change (hr : r.Constraints) (h : r.Sound) (hchange : Change r r') : r'.Sound := by
  cases hchange with
  | @configured row participants hphase hrow =>
    have hphase' : row.phase = .draft := by rw [hrow]; exact hphase
    refine ⟨fun _ => rfl, ?_, ?_⟩
    · intro p hp
      exact absurd hp (not_mem_empty p)
    · rintro (hpublished | hpublished) <;> cases hphase'.symm.trans hpublished
  | @opened row proposals items created hphase hrow hproposals hcreated =>
    refine .of_collecting (by rw [hrow]) fun p hp hstatus => ?_
    have hp : p ∈ created := by
      simpa [← mem_rows, hproposals, h.unopened hphase] using hp
    cases (hcreated p hp).1.symm.trans hstatus
  | @edited p p' items hphase hp hstatus hp' hitems =>
    refine .of_collecting hphase fun q hq hqstatus => ?_
    rcases eq_or_mem_of_mem_put hq with rfl | ⟨hq, hne⟩
    · rw [hp'] at hqstatus
      cases hstatus.symm.trans hqstatus
    · rw [hp'] at hne
      exact (h.submitted q hq hqstatus).congr rfl (hitems q.id hne)
  | @submitted p p' hphase hp hcomplete hp' =>
    refine .of_collecting hphase fun q hq hqstatus => ?_
    rcases eq_or_mem_of_mem_put hq with rfl | ⟨hq, -⟩
    · have hid : q.id = p.id := by rw [hp']
      rw [hid]
      exact (complete_of_validate hr hcomplete).congr rfl rfl
    · exact (h.submitted q hq hqstatus).congr rfl rfl
  | @reopened p p' hphase hp hp' =>
    refine .of_collecting hphase fun q hq hqstatus => ?_
    rcases eq_or_mem_of_mem_put hq with rfl | ⟨hq, -⟩
    · rw [hp'] at hqstatus
      cases hqstatus
    · exact (h.submitted q hq hqstatus).congr rfl rfl
  | @published row proposals ballots candidates ballot ids hphase hcount hlength hsubmitted
      hproposals hballot hballots hids hcandidates hrow =>
      have hphase' : row.phase = .voting := by rw [hrow]
      refine ⟨fun hdraft => (by cases hphase'.symm.trans hdraft), ?_, fun _ => ⟨?_, ?_⟩⟩
      · intro q hq hqstatus
        obtain ⟨p, hp, hpq, -⟩ := hproposals.exists_of_mem' hq
        have hid : q.id = p.id := by rw [hpq]
        rw [hid]
        exact (h.submitted p hp (hsubmitted p hp)).congr rfl rfl
      · have hauthors : proposals.rows.map (·.authorAccountID) =
            r.proposals.rows.map (·.authorAccountID) :=
          hproposals.map_eq fun p q hpq => by rw [hpq.1]
        exact hauthors ▸ authors_perm hr hlength
      · intro q hq
        obtain ⟨p, hp, hpq, hlabel⟩ := hproposals.exists_of_mem' hq
        exact ⟨by rw [hpq]; exact hsubmitted p hp, hlabel⟩
  | voted hphase => exact h.of_voting hphase (.inl hphase) rfl rfl rfl
  | won hphase _ _ _ _ _ _ hrow =>
    exact h.of_voting hphase (.inr (congrArg Round.phase hrow :)) rfl rfl rfl
  | tied hphase _ _ _ _ _ _ _ _ _ _ hrow =>
    exact h.of_voting hphase (.inl ((congrArg Round.phase hrow :).trans hphase)) rfl rfl rfl

theorem Change.frozen (h : Change r r') (hr : r.Published) :
    r'.Published ∧ r'.participants = r.participants ∧ r'.proposals = r.proposals ∧
      r'.items = r.items := by
  have hnot {phase : RoundPhase} (hphase : r.round.phase = phase)
      (hne : phase = .draft ∨ phase = .collecting) : False := by
    rw [Published, hphase] at hr
    rcases hne with rfl | rfl <;> simp at hr
  cases h with
  | configured hphase | opened hphase => exact (hnot hphase (.inl rfl)).elim
  | edited hphase | submitted hphase | reopened hphase | published hphase =>
    exact (hnot hphase (.inr rfl)).elim
  | voted => exact ⟨hr, rfl, rfl, rfl⟩
  | won _ _ _ _ _ _ _ hrow => exact ⟨.inr (congrArg Round.phase hrow :), rfl, rfl, rfl⟩
  | tied hphase _ _ _ _ _ _ _ _ _ _ hrow =>
    exact ⟨.inl ((congrArg Round.phase hrow :).trans hphase), rfl, rfl, rfl⟩

end RoundRows

open RoundRows

variable {db db' : Database} {r : RoundRows}

theorem Reachable.sound (h : Reachable db) (hr : r ∈ db.rounds) : r.Sound :=
  h.rounds (fun _ => Fresh.sound) (fun _ _ hr _ hsound => hsound.change hr) r hr

theorem Runs.frozen (h : Runs db db') (hr : r ∈ db.rounds) (hpublished : r.Published) :
    ∃ r' ∈ db'.rounds, r'.round.id = r.round.id ∧ r'.Published ∧
      r'.participants = r.participants ∧ r'.proposals = r.proposals ∧ r'.items = r.items := by
  induction h with
  | refl => exact ⟨r, hr, rfl, hpublished, rfl, rfl, rfl⟩
  | @tail db₁ db₂ _ hstep ih =>
    obtain ⟨r₁, hr₁, hid, hpublished₁, hparticipants, hproposals, hitems⟩ := ih
    rcases step_cases hstep with ⟨new, -, hrows⟩ | ⟨old, hold, new, hchange, hput⟩
    · refine ⟨r₁, ?_, hid, hpublished₁, hparticipants, hproposals, hitems⟩
      rw [← mem_rows, hrows]
      exact mem_append_left _ hr₁
    · rw [hput]
      by_cases hold_id : r₁.round.id = new.round.id
      · -- the round itself is changed
        obtain rfl : old = r₁ :=
          eq_of_key_eq hold hr₁ (hchange.id_eq.symm.trans hold_id.symm)
        obtain ⟨hpublished₂, h₁, h₂, h₃⟩ := hchange.frozen hpublished₁
        exact ⟨new, mem_put_self hold hold_id, hold_id ▸ hid, hpublished₂,
          h₁.trans hparticipants, h₂.trans hproposals, h₃.trans hitems⟩
      · exact ⟨r₁, mem_put.mpr (.inr ⟨hr₁, hold_id⟩), hid, hpublished₁, hparticipants,
          hproposals, hitems⟩

/-- In every database that operations can make, a round in phase `voting` or `closed` has one
proposal of each participant.  Each of them is submitted and has one item for each participant,
with a responsibility and with allocations of 10000 in all, and their labels are distinct.  In
every later database the round has the same participants, proposals and items. -/
theorem published_rounds_are_complete_and_frozen (h : Reachable db) (hr : r ∈ db.rounds)
    (hpublished : r.round.phase = .voting ∨ r.round.phase = .closed) :
    (r.proposals.rows.map (·.authorAccountID)).Perm (r.participants.rows.map (·.accountID)) ∧
      (∀ p ∈ r.proposals.rows, p.status = .submitted ∧
        ((r.itemsOf p.id).map (·.participantAccountID)).Perm
          (r.participants.rows.map (·.accountID)) ∧
        (∀ i ∈ r.itemsOf p.id, Text.trimSpace i.responsibility ≠ "" ∧ i.basisPoints.isSome) ∧
        ((r.itemsOf p.id).map (·.basisPoints.getD 0)).sum = 10000) ∧
      (∀ p ∈ r.proposals.rows, p.anonymousLabel.isSome) ∧
      (r.proposals.rows.map (·.anonymousLabel)).Nodup ∧
      ∀ db', Runs db db' → ∃ r' ∈ db'.rounds, r'.round.id = r.round.id ∧
        (r'.round.phase = .voting ∨ r'.round.phase = .closed) ∧
        r'.participants = r.participants ∧ r'.proposals = r.proposals ∧ r'.items = r.items := by
  have hsound := h.sound hr
  obtain ⟨hauthors, hproposals⟩ := hsound.published hpublished
  refine ⟨hauthors, ?_, fun p hp => (hproposals p hp).2, ?_, ?_⟩
  · intro p hp
    obtain ⟨hstatus, -⟩ := hproposals p hp
    obtain ⟨hparticipants, hitems, htotal⟩ := hsound.submitted p hp hstatus
    exact ⟨hstatus, hparticipants, hitems, htotal⟩
  · -- labels that are all there are as distinct as those that are there
    have hlabels : r.proposals.rows.map (·.anonymousLabel) =
        (r.proposals.rows.filterMap (·.anonymousLabel)).map some := by
      rw [map_filterMap, ← filterMap_eq_map']
      apply filterMap_congr
      intro p hp
      obtain ⟨label, hlabel⟩ := Option.isSome_iff_exists.mp (hproposals p hp).2
      simp [hlabel]
    rw [hlabels]
    exact (db.constraints r hr).proposal.labelUnique.map (Option.some_injective _)
  · intro db' hruns
    exact hruns.frozen hr hpublished

/-! ## A round -/

namespace Sample

def participants : List ParticipantInput :=
  [⟨some 1, "ann", "A", 1, "a"⟩, ⟨some 2, "bob", "B", 2, "b"⟩, ⟨some 3, "cat", "C", 3, "c"⟩,
    ⟨some 4, "dan", "D", 4, "d"⟩, ⟨some 5, "eve", "E", 5, "e"⟩]

def items : List ProposalItemInput :=
  [1, 2, 3, 4, 5].map fun account => ⟨some account, "r", some 2000⟩

/-- A round in which every participant submits a proposal, up to its publication. -/
def collecting : List (Instant × Operation) :=
  [(0, .createRound 1 "s" "t" participants),
    (1, .openRound (fun i => 20 - i) "s" 1 [some 1, some 2, some 3, some 4, some 5])] ++
  [1, 2, 3, 4, 5].flatMap fun account =>
    [(2, .updateProposal "s" (some account) 1 items), (3, .submitProposal "s" (some account) 2)]

def publishing : List (Instant × Operation) := collecting ++ [(4, .publishRound "s" 2)]

def firstVote : List (Instant × Operation) := [(5, .submitVote "s" 1 (some 1) (some 19))]

def publishes (db : Database) : Bool :=
  (db.rounds.rows.any fun r => r.round.phase = .voting && r.proposals.rows.length = 5) &&
    commitsWith (runAll firstVote db) fun db' => db'.rounds.rows.all fun r =>
      r.votes.rows.length = 1

end Sample

/-- Five proposals are published, and after a vote the round has the same ones. -/
theorem published_sample_frozen :
    ∃ db db' r r', Reachable db ∧ Runs db db' ∧ r ∈ db.rounds ∧ r' ∈ db'.rounds ∧
      r.proposals.rows.length = 5 ∧ (r.proposals.rows.map (·.anonymousLabel)).Nodup ∧
      r'.votes.rows.length = 1 ∧ r'.proposals = r.proposals := by
  have hpublishes : commitsWith (runAll Sample.publishing .empty) Sample.publishes := by
    decide +kernel
  obtain ⟨db, hdb, hpublishes⟩ := exists_of_commitsWith hpublishes
  simp only [Sample.publishes, check_iff, any_eq_true] at hpublishes
  obtain ⟨⟨r, hr, hphase, hlength⟩, hvote⟩ := hpublishes
  obtain ⟨db', hdb', hvotes⟩ := exists_of_commitsWith hvote
  have hreachable : Reachable db := runs_of_runAll hdb
  obtain ⟨-, -, -, hlabels, hlater⟩ :=
    published_rounds_are_complete_and_frozen hreachable hr (.inl hphase)
  obtain ⟨r', hr', -, -, -, hproposals, -⟩ := hlater db' (runs_of_runAll hdb')
  simp only [all_eq_true, decide_eq_true_eq] at hvotes
  exact ⟨db, db', r, r', hreachable, runs_of_runAll hdb', hr, hr', hlength, hlabels,
    hvotes r' hr', hproposals⟩

end Athena.ProfitSharing
