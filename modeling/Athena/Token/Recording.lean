import Athena.Token.Content
import Athena.Token.Recipients

/-!
# What a commit leaves

After a commit every accepted candidate has a project that says what the contract said, and the
initial recipients of that project are those of the inspection.  A project that is written in
one round of the loop is not touched by a later one: both would have the same swap pairs, and
those are unique.
-/

namespace Athena.Token

open Athena.Indexers (Address Hash)
open Athena.Lib Table Queries InitialRecipientWallet

variable {d d' : Database} {i : CandidateInspection} {p : Project}

/-! ## Statements -/

structure Describes (p row : Project) : Prop where
  chainID : p.chainID = row.chainID
  contract : p.contract = row.contract
  name : p.name = row.name
  symbol : p.symbol = row.symbol
  totalSupply : p.totalSupply = row.totalSupply

/-- What a written project is, and what writing it leaves as it was. -/
structure Upserted (d : Database) (row : Project) (d' : Database) (p : Project) : Prop where
  mem : p ∈ d'.projects
  describes : Describes p row
  others : ∀ q ∈ d.projects, q.id ≠ p.id → q ∈ d'.projects
  swapPairs : d'.swapPairs = d.swapPairs
  initialRecipients : d'.initialRecipients = d.initialRecipients

theorem upserted_of_writeProject {row : Project} (h : writeProject d row = .ok (d', p)) :
    Upserted d row d' p := by
  unfold writeProject at h
  cases hrow : d.projects.rows.find? fun q => q.chainID = row.chainID ∧
    q.contract = row.contract with
  | some existing =>
    simp only [hrow, pure_pair] at h
    obtain ⟨rfl, rfl⟩ := h
    have hmem : existing ∈ d.projects := List.mem_of_find?_eq_some hrow
    obtain ⟨hchain, hcontract⟩ : existing.chainID = row.chainID ∧
        existing.contract = row.contract := by simpa using List.find?_some hrow
    refine ⟨mem_put_self hmem rfl, ⟨hchain, hcontract, rfl, rfl, rfl⟩, ?_, rfl, rfl⟩
    intro q hq hne
    exact mem_put.mpr (.inr ⟨hq, hne⟩)
  | none =>
    simp only [hrow, committed] at h
    obtain ⟨-, projects, hinsert, rfl, rfl⟩ := h
    refine ⟨(Table.mem_insert? hinsert).mpr (.inr rfl), ⟨rfl, rfl, rfl, rfl, rfl⟩, ?_, rfl, rfl⟩
    intro q hq _
    exact (Table.mem_insert? hinsert).mpr (.inl hq)

theorem upserted_of_upsertProject {row : Project} (h : upsertProject d row = .ok (d', p)) :
    Upserted d row d' p ∧ Utf8.storable row.name ∧ Utf8.storable row.symbol := by
  simp only [upsertProject, checkProject, bind_eq_ok, ensure_eq_ok] at h
  obtain ⟨-, ⟨-, hstorable, -⟩, h⟩ := h
  exact ⟨upserted_of_writeProject h, hstorable⟩

/-- Projects, pairs and recipients are left alone. -/
structure Kept (d d' : Database) : Prop where
  projects : d'.projects = d.projects
  swapPairs : d'.swapPairs = d.swapPairs
  initialRecipients : d'.initialRecipients = d.initialRecipients

theorem Kept.trans {d'' : Database} (h : Kept d d') (h' : Kept d' d'') : Kept d d'' :=
  ⟨h'.projects.trans h.projects, h'.swapPairs.trans h.swapPairs,
    h'.initialRecipients.trans h.initialRecipients⟩

theorem kept_upsertContractCode (d : Database) (codeHash : Hash) :
    Kept d (upsertContractCode d codeHash) := by
  unfold upsertContractCode
  split <;> exact ⟨rfl, rfl, rfl⟩

theorem kept_createProjectResearchState (d : Database) (projectID attention : ℕ) :
    Kept d (createProjectResearchState d projectID attention) := by
  unfold createProjectResearchState
  split <;> exact ⟨rfl, rfl, rfl⟩

variable {projectID : ℕ} {view : View} {candidate : ProjectCandidate} {validation : AthenaToken}

theorem kept_of_schedules {projectID : ℕ} {schedules : List ScheduleSeed}
    (h : schedules.foldlM (fun d s => upsertProjectDataCollectionSchedule d
      ⟨projectID, s.dataType, s.retryIntervalSeconds, s.nextRunAt⟩) d = .ok d') : Kept d d' := by
  refine of_foldlM (P := Kept d) h ⟨rfl, rfl, rfl⟩ fun d₁ s _ d₂ hkept hstep => ?_
  simp only [upsertProjectDataCollectionSchedule, committed] at hstep
  obtain ⟨-, -, -, -, rfl⟩ := hstep
  exact hkept.trans ⟨rfl, rfl, rfl⟩

theorem kept_writeRelatedWallets (d : Database) (projectID : ℕ) (wallets : List RelatedWallet) :
    Kept d (writeRelatedWallets d projectID wallets) := by
  unfold writeRelatedWallets
  induction wallets.filter fun w => w.wallet ≠ 0 generalizing d with
  | nil => exact ⟨rfl, rfl, rfl⟩
  | cons w _ ih =>
    have hfirst : Kept d (upsertProjectRelatedWallet d ⟨projectID, w.wallet, w.role⟩) :=
      ⟨rfl, rfl, rfl⟩
    exact hfirst.trans (ih _)

theorem createProjectSwapPair_eq_ok {row : ProjectSwapPair}
    (h : createProjectSwapPair d row = .ok d') :
    (∀ s ∈ d.swapPairs, (s.projectID, s.kind) ≠ (row.projectID, row.kind)) ∧
      (∀ s, s ∈ d'.swapPairs ↔ s ∈ d.swapPairs ∨ s = { row with id := d.nextSwapPair }) ∧
      d'.projects = d.projects ∧ d'.initialRecipients = d.initialRecipients := by
  simp only [createProjectSwapPair, committed] at h
  obtain ⟨-, hfresh, swapPairs, hinsert, rfl⟩ := h
  exact ⟨hfresh, fun s => Table.mem_insert? hinsert, rfl, rfl⟩

/-! ## A project -/

/-- The project of an inspection is there, with a pair of its own. -/
structure Begun (d : Database) (i : CandidateInspection) (d' : Database) (p : Project) : Prop where
  texts : Utf8.storable i.name ∧ Utf8.storable i.symbol
  mem : p ∈ d'.projects
  describes : Describes p (inspectedProject i)
  others : ∀ q ∈ d.projects, q.id ≠ p.id → q ∈ d'.projects
  fresh : ∀ s ∈ d.swapPairs, (s.projectID, s.kind) ≠ (p.id, .weth)
  swapPairs : ∀ s ∈ d.swapPairs, s ∈ d'.swapPairs
  weth : ∃ s ∈ d'.swapPairs, (s.projectID, s.kind) = (p.id, .weth)
  initialRecipients : d'.initialRecipients = d.initialRecipients

theorem begun_of_initializeProject {schedules : List ScheduleSeed} {researchTTL : ℤ}
    (h : initializeProject d i schedules researchTTL = .ok (d', p)) : Begun d i d' p := by
  simp only [initializeProject, committed, Prod.exists] at h
  obtain ⟨-, -, -, -, -, -, -, -, -, -, d₁, p, hproject, attention, -, absolute, -, next, -, d₂,
    hweth,
    d₃, husdt, d₄, hschedules, rfl, rfl⟩ := h
  have hcode := kept_upsertContractCode d i.codeHash
  obtain ⟨hup, htexts⟩ := upserted_of_upsertProject hproject
  obtain ⟨hfresh, hmem₂, hprojects₂, hrecipients₂⟩ := createProjectSwapPair_eq_ok hweth
  obtain ⟨-, hmem₃, hprojects₃, hrecipients₃⟩ := createProjectSwapPair_eq_ok husdt
  have hlast := (kept_createProjectResearchState d₃ p.id attention).trans
    (kept_of_schedules hschedules)
  have hprojects : d₄.projects = d₁.projects := by rw [hlast.projects, hprojects₃, hprojects₂]
  have hpairs : d₁.swapPairs = d.swapPairs := hup.swapPairs.trans hcode.swapPairs
  refine ⟨htexts, hprojects ▸ hup.mem, hup.describes, ?_, hpairs ▸ hfresh, ?_, ?_, ?_⟩
  · intro q hq hne
    rw [hprojects]
    exact hup.others q (hcode.projects ▸ hq) hne
  · intro s hs
    rw [hlast.swapPairs, hmem₃, hmem₂, hpairs]
    exact .inl (.inl hs)
  · have hmem := (hmem₂ _).mpr (.inr rfl)
    rw [hlast.swapPairs]
    exact ⟨_, (hmem₃ _).mpr (.inl hmem), rfl⟩
  · rw [hlast.initialRecipients, hrecipients₃, hrecipients₂, hup.initialRecipients,
      hcode.initialRecipients]

def recipientRow (projectID : ℕ) (r : InitialRecipient) : InitialRecipientRow :=
  ⟨projectID, r.wallet, r.ratioBPS, r.rankIndex, r.sourceTxHash, r.sourceBlockNumber⟩

theorem writeInitialRecipient_eq_ok {r : InitialRecipient}
    (h : writeInitialRecipient projectID d r = .ok d') :
    d' = { d with initialRecipients := d.initialRecipients.upsert (recipientRow projectID r) } := by
  simp only [writeInitialRecipient, upsertProjectInitialRecipient, committed,
    uint64ToInt64_eq_ok] at h
  obtain ⟨-, ⟨-, rfl⟩, -, -, rfl⟩ := h
  rfl

theorem mem_of_recipients {l : List InitialRecipient}
    (hnodup : (l.map InitialRecipient.wallet).Nodup)
    (h : l.foldlM (writeInitialRecipient projectID) d = .ok d') :
    d'.projects = d.projects ∧ d'.swapPairs = d.swapPairs ∧
      ∀ row, row ∈ d'.initialRecipients ↔ (∃ r ∈ l, row = recipientRow projectID r) ∨
        (row ∈ d.initialRecipients ∧ ∀ r ∈ l,
          (row.projectID, row.wallet) ≠ (projectID, r.wallet)) := by
  induction l generalizing d with
  | nil =>
    obtain rfl : d = d' := by simpa using h
    simp
  | cons r l ih =>
    simp only [List.foldlM_cons, bind_eq_ok] at h
    obtain ⟨d₁, hstep, h⟩ := h
    obtain rfl := writeInitialRecipient_eq_ok hstep
    obtain ⟨hfresh, hnodup⟩ := List.nodup_cons.mp hnodup
    obtain ⟨hprojects, hpairs, hrows⟩ := ih hnodup h
    refine ⟨hprojects, hpairs, fun row => ?_⟩
    rw [hrows]
    constructor
    · rintro (⟨x, hx, rfl⟩ | ⟨hrow, hne⟩)
      · exact .inl ⟨x, List.mem_cons_of_mem _ hx, rfl⟩
      · rcases mem_upsert.mp hrow with rfl | ⟨hrow, hkey⟩
        · exact .inl ⟨r, List.mem_cons_self, rfl⟩
        · exact .inr ⟨hrow, List.forall_mem_cons.mpr ⟨hkey, hne⟩⟩
    · rintro (⟨x, hx, rfl⟩ | ⟨hrow, hne⟩)
      · rcases List.mem_cons.mp hx with rfl | hx
        · refine .inr ⟨mem_upsert.mpr (.inl rfl), fun y hy heq => ?_⟩
          exact hfresh (List.mem_map.mpr ⟨y, hy, (congrArg Prod.snd heq).symm⟩)
        · exact .inl ⟨x, hx, rfl⟩
      · obtain ⟨hkey, hne⟩ := List.forall_mem_cons.mp hne
        exact .inr ⟨mem_upsert.mpr (.inr ⟨hrow, hkey⟩), hne⟩

structure Sound (i : CandidateInspection) : Prop where
  wallets : ∀ r ∈ i.initialRecipients, r.wallet ≠ 0
  nodup : (i.initialRecipients.map InitialRecipient.wallet).Nodup

/-- The rows of an inspection. -/
structure WrittenAs (d : Database) (i : CandidateInspection) (p : Project) : Prop where
  mem : p ∈ d.projects
  describes : Describes p (inspectedProject i)
  weth : ∃ s ∈ d.swapPairs, (s.projectID, s.kind) = (p.id, .weth)
  recipients : ∀ row, row ∈ d.initialRecipients ∧ row.projectID = p.id ↔
    ∃ r ∈ i.initialRecipients, row = recipientRow p.id r

def Written (d : Database) (i : CandidateInspection) : Prop := ∃ p, WrittenAs d i p

variable {schedules : List ScheduleSeed} {researchTTL : ℤ}

theorem initializeInspectedProject_eq_ok (hsound : Sound i)
    (h : initializeInspectedProject schedules researchTTL d i = .ok d') :
    ∃ d₁ p, Begun d i d₁ p ∧ d'.projects = d₁.projects ∧ d'.swapPairs = d₁.swapPairs ∧
      ∀ row, row ∈ d'.initialRecipients ↔ (∃ r ∈ i.initialRecipients, row = recipientRow p.id r) ∨
        (row ∈ d.initialRecipients ∧ row.projectID ≠ p.id) := by
  simp only [initializeInspectedProject, bind_eq_ok, Prod.exists] at h
  obtain ⟨d₁, p, hbegun, h⟩ := h
  have hbegun := begun_of_initializeProject hbegun
  have hkept := kept_writeRelatedWallets d₁ p.id i.relatedWallets
  have hall : i.initialRecipients.filter (fun r => r.wallet ≠ 0) = i.initialRecipients :=
    List.filter_eq_self.mpr fun r hr => by simpa using hsound.wallets r hr
  unfold writeInitialRecipients at h
  rw [hall] at h
  obtain ⟨hprojects, hpairs, hrows⟩ := mem_of_recipients hsound.nodup h
  refine ⟨d₁, p, hbegun, hprojects.trans hkept.projects, hpairs.trans hkept.swapPairs, fun row =>
    ?_⟩
  rw [hrows]
  refine or_congr_right ⟨?_, ?_⟩
  · rintro ⟨hrow, -⟩
    obtain ⟨hrow, hne⟩ := mem_filter.mp hrow
    rw [hkept.initialRecipients, hbegun.initialRecipients] at hrow
    exact ⟨hrow, by simpa using hne⟩
  · rintro ⟨hrow, hne⟩
    rw [← hbegun.initialRecipients, ← hkept.initialRecipients] at hrow
    exact ⟨mem_filter.mpr ⟨hrow, by simpa using hne⟩, fun r _ heq => hne (congrArg Prod.fst heq)⟩

theorem written_of_initialized (hsound : Sound i)
    (h : initializeInspectedProject schedules researchTTL d i = .ok d') : Written d' i := by
  obtain ⟨d₁, p, hbegun, hprojects, hpairs, hrows⟩ := initializeInspectedProject_eq_ok hsound h
  refine ⟨p, hprojects ▸ hbegun.mem, hbegun.describes, hpairs ▸ hbegun.weth, fun row => ?_⟩
  rw [hrows]
  constructor
  · rintro ⟨hrow | ⟨-, hne⟩, heq⟩
    · exact hrow
    · exact absurd heq hne
  · rintro ⟨r, hr, rfl⟩
    exact ⟨.inl ⟨r, hr, rfl⟩, rfl⟩

theorem Written.initialize {j : CandidateInspection} (hwritten : Written d i) (hsound : Sound j)
    (h : initializeInspectedProject schedules researchTTL d j = .ok d') : Written d' i := by
  obtain ⟨p, hwritten⟩ := hwritten
  obtain ⟨d₁, q, hbegun, hprojects, hpairs, hrows⟩ := initializeInspectedProject_eq_ok hsound h
  obtain ⟨s, hs, hweth⟩ := hwritten.weth
  have hne : p.id ≠ q.id := fun heq => hbegun.fresh s hs (by rw [hweth, heq])
  refine ⟨p, hprojects ▸ hbegun.others p hwritten.mem hne, hwritten.describes,
    ⟨s, hpairs ▸ hbegun.swapPairs s hs, hweth⟩, fun row => ?_⟩
  rw [← hwritten.recipients, hrows]
  constructor
  · rintro ⟨⟨r, -, rfl⟩ | ⟨hrow, -⟩, heq⟩
    · exact absurd heq.symm hne
    · exact ⟨hrow, heq⟩
  · rintro ⟨hrow, heq⟩
    exact ⟨.inr ⟨hrow, heq ▸ hne⟩, heq⟩

theorem texts_of_initialized (h : initializeInspectedProject schedules researchTTL d i = .ok d') :
    Utf8.storable i.name ∧ Utf8.storable i.symbol := by
  simp only [initializeInspectedProject, bind_eq_ok, Prod.exists] at h
  obtain ⟨d₁, p, hbegun, -⟩ := h
  exact (begun_of_initializeProject hbegun).texts

/-! ## A block -/

theorem written_of_foldlM {l : List CandidateInspection} (hsound : ∀ i ∈ l, Sound i)
    (h : l.foldlM (initializeInspectedProject schedules researchTTL) d = .ok d') :
    ∀ i ∈ l, Written d' i := by
  induction l generalizing d with
  | nil => simp
  | cons i l ih =>
    simp only [List.foldlM_cons, bind_eq_ok] at h
    obtain ⟨d₁, hstep, h⟩ := h
    obtain ⟨hi, hsound⟩ := List.forall_mem_cons.mp hsound
    refine List.forall_mem_cons.mpr ⟨?_, ih hsound h⟩
    exact of_foldlM (P := fun d => Written d i) h (written_of_initialized hi hstep)
      fun _ j hj _ hw hstep => hw.initialize (hsound j hj) hstep

theorem texts_of_foldlM {l : List CandidateInspection}
    (h : l.foldlM (initializeInspectedProject schedules researchTTL) d = .ok d') :
    ∀ i ∈ l, Utf8.storable i.name ∧ Utf8.storable i.symbol := by
  induction l generalizing d with
  | nil => simp
  | cons i l ih =>
    simp only [List.foldlM_cons, bind_eq_ok] at h
    obtain ⟨d₁, hstep, h⟩ := h
    exact List.forall_mem_cons.mpr ⟨texts_of_initialized hstep, ih h⟩

def cursor (d : Database) (chainID : ℤ) : Option ℕ :=
  (d.checkpoints.get? chainID).map ChainCheckpoint.cursorBlockNumber

variable {c : CommitProcessedBlockCommand}

theorem commitProcessedBlock_eq_ok (h : commitProcessedBlock d c = .ok d') :
    ∃ d₁ d₂, (c.inspections.filter (·.accepted)).foldlM
        (initializeInspectedProject c.schedules c.researchTTL) d₁ = .ok d₂ ∧ Kept d₂ d' ∧
      cursor d' c.checkpoint.chainID = some c.checkpoint.cursorBlockNumber := by
  simp only [commitProcessedBlock, upsertChainProcessingCheckpointCursor, committed,
    uint64ToInt64_eq_ok] at h
  obtain ⟨-, n, ⟨-, rfl⟩, t, -, rows, -, d₁, -, d₂, hfold, -, rfl⟩ := h
  refine ⟨d₁, d₂, hfold, ⟨rfl, rfl, rfl⟩, ?_⟩
  have hget := get?_of_mem (mem_upsert (t := d₂.checkpoints)
    (a := ⟨c.checkpoint.chainID, c.checkpoint.cursorBlockNumber,
      (d₂.checkpoints.get? c.checkpoint.chainID).elim c.checkpoint.status ChainCheckpoint.status⟩)
    |>.mpr (.inl rfl))
  exact congrArg (Option.map ChainCheckpoint.cursorBlockNumber) hget

theorem written_of_commit (hsound : ∀ i ∈ c.inspections, i.accepted → Sound i)
    (h : commitProcessedBlock d c = .ok d') : ∀ i ∈ c.inspections, i.accepted → Written d' i := by
  obtain ⟨d₁, d₂, hfold, hkept, -⟩ := commitProcessedBlock_eq_ok h
  intro i hi haccepted
  obtain ⟨p, hp⟩ := written_of_foldlM
    (fun i hi => hsound i (List.mem_filter.mp hi).1 (List.mem_filter.mp hi).2) hfold i
    (List.mem_filter.mpr ⟨hi, haccepted⟩)
  refine ⟨p, hkept.projects ▸ hp.mem, hp.describes, hkept.swapPairs ▸ hp.weth, ?_⟩
  rw [hkept.initialRecipients]
  exact hp.recipients

theorem blockNumber_of_commit (h : commitProcessedBlock d c = .ok d') :
    ∀ i ∈ c.inspections, i.candidate.blockNumber ≤ maxInt64 := by
  simp only [commitProcessedBlock, bind_eq_ok] at h
  obtain ⟨-, -, -, -, -, -, rows, hrows, -⟩ := h
  intro i hi
  obtain ⟨row, -, hrow⟩ := exists_of_mapM hrows hi
  simp only [prepareCandidateInspection, bind_eq_ok, uint64ToInt64_eq_ok] at hrow
  obtain ⟨-, -, -, -, -, -, -, -, -, -, _, ⟨hblock, -⟩, -⟩ := hrow
  exact hblock

theorem storable_of_commit (h : commitProcessedBlock d c = .ok d') :
    ∀ i ∈ c.inspections, i.accepted → Utf8.storable i.name ∧ Utf8.storable i.symbol := by
  obtain ⟨d₁, d₂, hfold, -, -⟩ := commitProcessedBlock_eq_ok h
  intro i hi haccepted
  exact texts_of_foldlM hfold i (List.mem_filter.mpr ⟨hi, haccepted⟩)

/-! ## Inspections are sound -/

theorem sound_acceptedRecipients {code : Bytes} {recipients : List InitialRecipientWallet}
    (h : acceptedRecipients view candidate validation = .ok (some (code, recipients))) :
    (recipients.map wallet).Nodup ∧
      ∀ r ∈ recipients, r.wallet ≠ 0 ∧ 0 < r.amount := by
  unfold acceptedRecipients at h
  split at h
  · simp at h
  simp only [committed] at h
  obtain ⟨code', -, h⟩ := h
  split at h
  · simp at h
  simp only [committed, Option.some.injEq] at h
  obtain ⟨reply, -, logs, -, kept, hfilter, -, rfl⟩ := h
  obtain ⟨hnodup, hnonzero⟩ := sound_extract logs candidate.contract
  have hsub := sublist_of_filter hfilter
  exact ⟨hnodup.sublist (hsub.map _), fun r hr => hnonzero r (hsub.subset hr)⟩

theorem inspectCandidate_eq_ok (h : inspectCandidate view candidate validation = .ok i) :
    (acceptedRecipients view candidate validation = .ok none ∧ i = { candidate }) ∨
      ∃ code recipients,
        acceptedRecipients view candidate validation = .ok (some (code, recipients)) ∧
        i.accepted ∧ i.candidate = candidate ∧ i.name = validation.name ∧
        i.symbol = validation.symbol ∧ i.totalSupply = validation.totalSupply ∧
        i.initialRecipients = initialRecipients candidate validation.totalSupply recipients := by
  simp only [inspectCandidate, bind_eq_ok] at h
  obtain ⟨_ | ⟨code, recipients⟩, haccepted, h⟩ := h
  · exact .inl ⟨haccepted, (pure_eq_ok.mp h).symm⟩
  · obtain rfl := pure_eq_ok.mp h
    exact .inr ⟨code, recipients, haccepted, rfl, rfl, rfl, rfl, rfl, rfl⟩

theorem wallets_initialRecipients (candidate : ProjectCandidate) {totalSupply : BitVec 256}
    (hsupply : 0 < totalSupply.toNat) (recipients : List InitialRecipientWallet) :
    (initialRecipients candidate totalSupply recipients).map InitialRecipient.wallet =
      recipients.map wallet := by
  simp only [initialRecipients, if_pos hsupply, List.map_map]
  rw [← List.zipIdx_map_fst 0 recipients, List.map_map]
  simp [Function.comp_def]

theorem sound_of_inspectCandidate (h : inspectCandidate view candidate validation = .ok i) :
    Sound i := by
  obtain ⟨-, rfl⟩ | ⟨code, recipients, haccepted, -, -, -, -, -, hrecipients⟩ :=
    inspectCandidate_eq_ok h
  · exact ⟨by simp, List.nodup_nil⟩
  obtain ⟨hnodup, hnonzero⟩ := sound_acceptedRecipients haccepted
  by_cases hsupply : 0 < validation.totalSupply.toNat
  · have hwallets := wallets_initialRecipients candidate hsupply recipients
    rw [← hrecipients] at hwallets
    refine ⟨fun r hr => ?_, hwallets ▸ hnodup⟩
    obtain ⟨x, hx, heq⟩ := List.mem_map.mp (hwallets ▸ List.mem_map_of_mem hr)
    exact heq ▸ (hnonzero x hx).1
  · have hnil : i.initialRecipients = [] := by rw [hrecipients, initialRecipients, if_neg hsupply]
    exact ⟨by simp [hnil], by simp [hnil]⟩

end Athena.Token
