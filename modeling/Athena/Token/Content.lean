import Athena.Token.Discovery

/-!
# What candidates say of themselves

Whether a block can be committed depends on what its contracts say of themselves in two ways: a
name or a symbol that is no text is refused by its column, and a ratio that does not fit into 64
bits is stored as another number, or refused when that is negative.

To separate this from the other reasons for which a commit can fail, a commit is compared with
that of the same block in which the contracts say nothing.
-/

namespace Athena.Token

open Athena.Indexers (Address Hash)
open Athena.Lib Queries List Database CandidateInspection

/-- The inspection of a contract that says nothing. -/
def CandidateInspection.harmless (i : CandidateInspection) : CandidateInspection :=
  { i with
    name := [], symbol := [], totalSupply := 0, relatedWallets := [], initialRecipients := [] }

def CommitProcessedBlockCommand.harmless (c : CommitProcessedBlockCommand) :
    CommitProcessedBlockCommand :=
  { c with inspections := c.inspections.map CandidateInspection.harmless }

def Project.bare (p : Project) : Project := { p with name := [], symbol := [], totalSupply := 0 }

def bareProjects (t : Table Project.id) : Table Project.id := t.update Project.bare fun _ => rfl

/-- The database without what contracts say of themselves. -/
def Database.bare (d : Database) : Database :=
  { d with
    projects := bareProjects d.projects
    relatedWallets := .empty
    initialRecipients := .empty }

/-- What the contract says can be stored. -/
structure Fits (i : CandidateInspection) : Prop where
  name : Utf8.storable i.name
  symbol : Utf8.storable i.symbol
  recipients : ∀ r ∈ i.initialRecipients, 0 ≤ r.ratioBPS.toInt ∧ r.sourceBlockNumber ≤ maxInt64

theorem fits_harmless (i : CandidateInspection) : Fits i.harmless :=
  ⟨rfl, rfl, fun _ h => absurd h not_mem_nil⟩

@[simp] theorem uint64ToInt64_eq_ok {field : String} {value n : ℕ} :
    uint64ToInt64 field value = .ok n ↔ value ≤ maxInt64 ∧ value = n := by
  simp [uint64ToInt64]

/-! ## Statements -/

variable {d d' : Database} {i : CandidateInspection}

theorem upsertProjectCandidate_bare (row : CandidateRow) :
    (upsertProjectCandidate d row).map bare =
      upsertProjectCandidate d.bare row :=
  map_bind_congr_right fun _ _ => map_bind_congr_right fun _ _ => rfl

theorem upsertContractCode_bare (codeHash : Hash) :
    (upsertContractCode d codeHash).bare = upsertContractCode d.bare codeHash := by
  unfold upsertContractCode
  by_cases h : codeHash ∈ d.contractCodes
  · rw [if_pos h, if_pos (show codeHash ∈ d.bare.contractCodes from h)]
  · rw [if_neg h, if_neg (show codeHash ∉ d.bare.contractCodes from h)]
    rfl

theorem find?_bare (chainID : ℤ) (contract : Address) :
    d.bare.projects.rows.find? (fun p => p.chainID = chainID ∧ p.contract = contract) =
      (d.projects.rows.find? fun p => p.chainID = chainID ∧ p.contract = contract).map
        Project.bare := by
  simp only [bare, bareProjects, Table.update, find?_map]
  rfl

theorem checkProject_bare {row : Project} (hname : Utf8.storable row.name)
    (hsymbol : Utf8.storable row.symbol) (hsupply : row.totalSupply < 10 ^ 78) :
    checkProject d row = checkProject d.bare row.bare := by
  simp only [checkProject, ensure_of (And.intro hname hsymbol), ensure_of hsupply, bind_ok]
  rfl

theorem writeProject_bare (row : Project) :
    (writeProject d row).map (fun x => (x.1.bare, x.2.bare)) =
      writeProject d.bare row.bare := by
  have hfind := find?_bare (d := d) row.chainID row.contract
  unfold writeProject
  cases hrow : d.projects.rows.find? fun p => p.chainID = row.chainID ∧
    p.contract = row.contract with
  | some existing =>
    rw [hrow, Option.map_some] at hfind
    have hbare : d.bare.projects.rows.find? (fun p => p.chainID = row.bare.chainID ∧
        p.contract = row.bare.contract) = some existing.bare := hfind
    rw [hbare]
    have hput : bareProjects (d.projects.put (existing.overwrite row)) =
        (bareProjects d.projects).put (existing.bare.overwrite row.bare) := Table.update_put _
    refine congrArg Except.ok (Prod.ext ?_ rfl)
    simp only [bare, hput]
  | none =>
    rw [hrow, Option.map_none] at hfind
    have hbare : d.bare.projects.rows.find? (fun p => p.chainID = row.bare.chainID ∧
        p.contract = row.bare.contract) = none := hfind
    rw [hbare]
    have hunique : (∀ p ∈ d.bare.projects.rows,
        (p.chainID, p.txHash) ≠ (row.bare.chainID, row.bare.txHash)) ↔
        ∀ p ∈ d.projects.rows, (p.chainID, p.txHash) ≠ (row.chainID, row.txHash) := by
      simp only [bare, bareProjects, Table.update, forall_mem_map]
      rfl
    have hinsert : (d.projects.insert? { row with id := d.nextProject }).map bareProjects =
        (bareProjects d.projects).insert? { row.bare with id := d.nextProject } :=
      Table.update_insert? _
    simp only [ensure, hunique]
    refine map_bind_congr_right fun _ _ => map_bind_congr (g := bareProjects) ?_ fun _ => rfl
    change _ = found ((bareProjects d.projects).insert? { row.bare with id := d.nextProject }) _
    rw [← hinsert]
    cases d.projects.insert? { row with id := d.nextProject } <;> rfl

theorem upsertProject_bare (hfits : Fits i) :
    (upsertProject d (inspectedProject i)).map (fun x => (x.1.bare, x.2.bare)) =
      upsertProject d.bare (inspectedProject i.harmless) := by
  have hsupply : (inspectedProject i).totalSupply < 10 ^ 78 :=
    lt_of_lt_of_le i.totalSupply.isLt (by decide)
  have hbare : (inspectedProject i).bare = inspectedProject i.harmless := rfl
  unfold upsertProject
  rw [← hbare, checkProject_bare hfits.name hfits.symbol hsupply]
  exact map_bind_congr_right fun _ _ => writeProject_bare _

theorem createProjectSwapPair_bare (row : ProjectSwapPair) :
    (createProjectSwapPair d row).map bare =
      createProjectSwapPair d.bare row :=
  map_bind_congr_right fun _ _ => map_bind_congr_right fun _ _ => map_bind_congr_right fun _ _ =>
    rfl

theorem createProjectResearchState_bare (projectID attention : ℕ) :
    (createProjectResearchState d projectID attention).bare =
      createProjectResearchState d.bare projectID attention := by
  unfold createProjectResearchState
  have hrows : d.bare.researchStates = d.researchStates := rfl
  rw [hrows]
  cases d.researchStates.get? projectID <;> rfl

theorem upsertProjectDataCollectionSchedule_bare (row : Schedule) :
    (upsertProjectDataCollectionSchedule d row).map bare =
      upsertProjectDataCollectionSchedule d.bare row :=
  map_bind_congr_right fun _ _ => map_bind_congr_right fun _ _ => rfl

/-! ## A project -/

theorem writeRelatedWallets_bare (d : Database) (projectID : ℕ) (wallets : List RelatedWallet) :
    (writeRelatedWallets d projectID wallets).bare = d.bare := by
  unfold writeRelatedWallets
  induction wallets.filter fun w => w.wallet ≠ 0 generalizing d with
  | nil => rfl
  | cons _ _ ih => exact ih _

theorem writeInitialRecipients_bare (projectID : ℕ) {recipients : List InitialRecipient}
    (hfits : ∀ r ∈ recipients, 0 ≤ r.ratioBPS.toInt ∧ r.sourceBlockNumber ≤ maxInt64) :
    (writeInitialRecipients d projectID recipients).map bare = .ok d.bare := by
  have hfits : ∀ r ∈ recipients.filter fun r => r.wallet ≠ 0,
      0 ≤ r.ratioBPS.toInt ∧ r.sourceBlockNumber ≤ maxInt64 :=
    fun r hr => hfits r (mem_filter.mp hr).1
  suffices h : ∀ l : List InitialRecipient,
      (∀ r ∈ l, 0 ≤ r.ratioBPS.toInt ∧ r.sourceBlockNumber ≤ maxInt64) →
      ∀ d₀ : Database, (l.foldlM (writeInitialRecipient projectID) d₀).map bare =
        .ok d₀.bare from h _ hfits _
  intro l hl
  induction l with
  | nil => exact fun _ => rfl
  | cons r l ih =>
    intro d₀
    obtain ⟨hratio, hblock⟩ := hl r mem_cons_self
    simp only [foldlM_cons, writeInitialRecipient, uint64ToInt64,
      upsertProjectInitialRecipient, ensure_of hblock, ensure_of hratio, bind_ok]
    exact ih (fun r hr => hl r (mem_cons_of_mem _ hr)) _

theorem initializeProject_bare (hfits : Fits i) (schedules : List ScheduleSeed) (researchTTL : ℤ) :
    (initializeProject d i schedules researchTTL).map (fun x => (x.1.bare, x.2.bare)) =
      initializeProject d.bare i.harmless schedules researchTTL := by
  unfold initializeProject
  -- the first six statements and the durations read nothing that a contract says
  refine map_bind_congr_right fun _ _ => map_bind_congr_right fun _ _ =>
    map_bind_congr_right fun _ _ => map_bind_congr_right fun _ _ => map_bind_congr_right fun _ _ =>
    map_bind_congr_right fun _ _ => ?_
  have hcode := upsertContractCode_bare (d := d) i.codeHash
  refine map_bind_congr (g := fun x => (x.1.bare, x.2.bare)) ?_ fun x => ?_
  · change _ = upsertProject (upsertContractCode d.bare i.codeHash) _
    rw [← hcode]
    exact upsertProject_bare hfits
  refine map_bind_congr_right fun _ _ => map_bind_congr_right fun _ _ =>
    map_bind_congr_right fun _ _ => ?_
  refine map_bind_congr (createProjectSwapPair_bare _) fun d => ?_
  refine map_bind_congr (createProjectSwapPair_bare _) fun d => ?_
  refine map_bind_congr (g := bare) ?_ fun _ => rfl
  have hresearch := createProjectResearchState_bare (d := d) x.2.id
  change _ = foldlM _ (createProjectResearchState d.bare x.2.id _) schedules
  rw [← hresearch]
  refine map_foldlM_congr_state (fun d s _ => ?_) _
  exact upsertProjectDataCollectionSchedule_bare _

theorem initializeInspectedProject_bare (hfits : Fits i) (schedules : List ScheduleSeed)
    (researchTTL : ℤ) (d : Database) :
    (initializeInspectedProject schedules researchTTL d i).map bare =
      initializeInspectedProject schedules researchTTL d.bare i.harmless := by
  unfold initializeInspectedProject
  refine map_bind_congr (initializeProject_bare hfits schedules researchTTL) fun x => ?_
  rw [writeInitialRecipients_bare _ hfits.recipients, writeRelatedWallets_bare]
  rfl

/-! ## A block -/

theorem expireProjectResearchStatesForBlock_bare (chainID : ℤ) (blockNumber blockTime : ℕ) :
    (expireProjectResearchStatesForBlock d chainID blockNumber blockTime).bare =
      expireProjectResearchStatesForBlock d.bare chainID blockNumber blockTime := by
  have hany : ∀ q : Project → Bool, (∀ p, q p.bare = q p) →
      d.bare.projects.rows.any q = d.projects.rows.any q := by
    intro q hq
    simp only [bare, bareProjects, Table.update, any_map, Function.comp_def, hq]
  refine congrArg (fun t => { d.bare with researchStates := t }) (Table.eq_of_rows_eq ?_)
  refine map_congr_left fun r _ => ?_
  simp only [hany (fun p => decide (p.id = r.projectID) && decide (p.chainID = chainID)) fun _ =>
    rfl]

theorem commitProcessedBlock_bare {c : CommitProcessedBlockCommand}
    (hfits : ∀ i ∈ c.inspections, i.accepted → Fits i) :
    (commitProcessedBlock d c).map bare = commitProcessedBlock d.bare c.harmless := by
  have hrows : (c.inspections.map harmless).mapM
      (prepareCandidateInspection c.checkpoint c.block) =
      c.inspections.mapM (prepareCandidateInspection c.checkpoint c.block) := by
    rw [mapM_map]
    rfl
  have haccepted : (c.inspections.map harmless).filter (·.accepted) =
      (c.inspections.filter (·.accepted)).map harmless := filter_map ..
  unfold commitProcessedBlock
  refine map_bind_congr_right fun _ _ => map_bind_congr_right fun cursor _ =>
    map_bind_congr_right fun time _ => ?_
  change _ = (c.inspections.map harmless).mapM
    (prepareCandidateInspection c.checkpoint c.block) >>= _
  rw [hrows]
  refine map_bind_congr_right fun rows _ => map_bind_congr (g := bare) ?_ fun d => ?_
  · exact map_foldlM_congr_state (fun _ row _ => upsertProjectCandidate_bare row) _
  refine map_bind_congr (g := bare) ?_ fun d => ?_
  · change _ = ((c.inspections.map harmless).filter (·.accepted)).foldlM _ _
    rw [haccepted]
    refine map_foldlM_congr (fun d i hi => ?_) _
    obtain ⟨hi, haccepted⟩ := mem_filter.mp hi
    exact initializeInspectedProject_bare (hfits i hi haccepted) _ _ d
  · rw [← expireProjectResearchStatesForBlock_bare]
    exact map_bind_congr_right fun _ _ => rfl

end Athena.Token
