import Mathlib.Data.BitVec
import Athena.Token.Recording

/-!
# Blocks that cannot be committed

Of what a token contract says of itself, all is stored as it was said when its name and symbol
are texts and the ratios of its recipients fit into 64 bits.  Otherwise the commit of the block
fails, at every attempt, and with it the cursor of the chain stays; or a ratio is stored that is
not that of the recipient.
-/

namespace Athena.Token

open Athena.Indexers (Address Hash)
open Athena.Lib List

variable {d d' : Database} {view : View} {candidate : ProjectCandidate} {validation : AthenaToken}
  {recipients : List InitialRecipientWallet} {i : CandidateInspection}

/-- What was found of an accepted candidate, as it is in the database: what the contract said,
and the share of every wallet in the supply. -/
def Recorded (d : Database) (candidate : ProjectCandidate) (validation : AthenaToken)
    (recipients : List InitialRecipientWallet) : Prop :=
  ∃ p ∈ d.projects, p.chainID = candidate.chainID ∧ p.contract = candidate.contract ∧
    p.name = validation.name ∧ p.symbol = validation.symbol ∧
    p.totalSupply = validation.totalSupply.toNat ∧
    ∀ wallet share, (∃ row ∈ d.initialRecipients, row.projectID = p.id ∧ row.wallet = wallet ∧
        row.ratioBPS.toInt = share) ↔
      0 < validation.totalSupply.toNat ∧
        ∃ r ∈ recipients, r.wallet = wallet ∧ share = ratio r.amount validation.totalSupply

/-- Name and symbol are texts, and the ratios fit into 64 bits. -/
def Storable (view : View) (candidate : ProjectCandidate) (validation : AthenaToken) : Prop :=
  ∀ code recipients, acceptedRecipients view candidate validation = .ok (some (code, recipients)) →
    Utf8.storable validation.name ∧ Utf8.storable validation.symbol ∧
      (0 < validation.totalSupply.toNat →
        ∀ r ∈ recipients, ratio r.amount validation.totalSupply < 2 ^ 63)

theorem exists_initialRecipient {totalSupply : BitVec 256} {wallet : Address} {share : ℤ} :
    (∃ r ∈ initialRecipients candidate totalSupply recipients, r.wallet = wallet ∧
        r.ratioBPS.toInt = share) ↔
      0 < totalSupply.toNat ∧ ∃ r ∈ recipients, r.wallet = wallet ∧
        (Int64.ofInt (ratio r.amount totalSupply)).toInt = share := by
  by_cases hsupply : 0 < totalSupply.toNat
  · rw [initialRecipients, if_pos hsupply]
    constructor
    · rintro ⟨r, hr, rfl, rfl⟩
      obtain ⟨⟨x, index⟩, hx, rfl⟩ := mem_map.mp hr
      exact ⟨hsupply, x, fst_mem_of_mem_zipIdx hx, rfl, rfl⟩
    · rintro ⟨-, x, hx, rfl, rfl⟩
      obtain ⟨index, hindex, rfl⟩ := getElem_of_mem hx
      have hmem := mk_mem_zipIdx_iff_getElem?.mpr (getElem?_eq_getElem hindex)
      exact ⟨_, mem_map_of_mem hmem, rfl, rfl⟩
  · simp [initialRecipients, hsupply]

theorem toInt_ratio {amount : ℤ} {totalSupply : BitVec 256} (hamount : 0 < amount)
    (hfits : ratio amount totalSupply < 2 ^ 63) :
    0 ≤ ratio amount totalSupply ∧
      (Int64.ofInt (ratio amount totalSupply)).toInt = ratio amount totalSupply := by
  have hnonneg : 0 ≤ ratio amount totalSupply :=
    Int.ediv_nonneg (Int.mul_nonneg (le_of_lt hamount) (by decide)) (Int.natCast_nonneg _)
  refine ⟨hnonneg, Int64.toInt_ofInt_of_le ?_ hfits⟩
  omega

theorem fits_of_storable (h : inspectCandidate view candidate validation = .ok i)
    (hstorable : Storable view candidate validation) (hblock : candidate.blockNumber ≤ maxInt64) :
    Fits i := by
  obtain ⟨-, rfl⟩ | ⟨code, recipients, haccepted, -, -, hname, hsymbol, -, hrecipients⟩ :=
    inspectCandidate_eq_ok h
  · exact ⟨rfl, rfl, by simp⟩
  obtain ⟨htext, htext', hratios⟩ := hstorable code recipients haccepted
  refine ⟨hname ▸ htext, hsymbol ▸ htext', fun r hr => ?_⟩
  rw [hrecipients] at hr
  have hsource : r.sourceBlockNumber = candidate.blockNumber := by
    unfold initialRecipients at hr
    split at hr
    · obtain ⟨x, -, rfl⟩ := mem_map.mp hr
      rfl
    · cases hr
  obtain ⟨hsupply, x, hx, -, heq⟩ := exists_initialRecipient.mp ⟨r, hr, rfl, rfl⟩
  have hamount := ((sound_acceptedRecipients haccepted).2 x hx).2
  obtain ⟨hnonneg, hexact⟩ := toInt_ratio hamount (hratios hsupply x hx)
  exact ⟨by rw [← heq, hexact]; exact hnonneg, hsource ▸ hblock⟩

theorem recorded_of_written {code : Bytes} (h : inspectCandidate view candidate validation = .ok i)
    (haccepted : acceptedRecipients view candidate validation = .ok (some (code, recipients)))
    (hstorable : Storable view candidate validation) (hwritten : Written d i) :
    Recorded d candidate validation recipients := by
  obtain ⟨hnone, -⟩ | ⟨_, _, hsome, -, hcandidate, hname, hsymbol, hsupply, hrecipients⟩ :=
    inspectCandidate_eq_ok h
  · rw [haccepted] at hnone
    simp at hnone
  obtain ⟨rfl, rfl⟩ : _ = code ∧ _ = recipients := by simpa [hsome] using haccepted
  obtain ⟨p, hp⟩ := hwritten
  obtain ⟨-, -, hratios⟩ := hstorable _ _ hsome
  refine ⟨p, hp.mem, by rw [hp.describes.chainID, ← hcandidate]; rfl,
    by rw [hp.describes.contract, ← hcandidate]; rfl, hp.describes.name.trans hname,
    hp.describes.symbol.trans hsymbol, by rw [hp.describes.totalSupply, ← hsupply]; rfl, ?_⟩
  intro wallet share
  have hrow : (∃ row ∈ d.initialRecipients, row.projectID = p.id ∧ row.wallet = wallet ∧
      row.ratioBPS.toInt = share) ↔
      ∃ r ∈ i.initialRecipients, r.wallet = wallet ∧ r.ratioBPS.toInt = share := by
    constructor
    · rintro ⟨row, hrow, hid, hwallet, hshare⟩
      obtain ⟨r, hr, rfl⟩ := (hp.recipients row).mp ⟨hrow, hid⟩
      exact ⟨r, hr, hwallet, hshare⟩
    · rintro ⟨r, hr, hwallet, hshare⟩
      obtain ⟨hrow, hid⟩ := (hp.recipients (recipientRow p.id r)).mpr ⟨r, hr, rfl⟩
      exact ⟨_, hrow, hid, hwallet, hshare⟩
  rw [hrow, hrecipients, exists_initialRecipient]
  refine and_congr_right fun hpositive => exists_congr fun r => and_congr_right fun hr =>
    and_congr_right fun _ => ?_
  have hamount := ((sound_acceptedRecipients hsome).2 r hr).2
  rw [(toInt_ratio hamount (hratios hpositive r hr)).2, eq_comm]

theorem ratio_lt_of_recorded (h : Recorded d candidate validation recipients)
    (hsupply : 0 < validation.totalSupply.toNat) :
    ∀ r ∈ recipients, ratio r.amount validation.totalSupply < 2 ^ 63 := by
  obtain ⟨p, -, -, -, -, -, -, hrows⟩ := h
  intro r hr
  obtain ⟨row, -, -, -, hratio⟩ := (hrows r.wallet _).mpr ⟨hsupply, r, hr, rfl, rfl⟩
  exact hratio ▸ Int64.toInt_lt _

/-- A block that would be committed if its contracts said nothing is committed, with all that
they say, and passed by the cursor, exactly when all of it can be stored. -/
theorem commit_records_iff_storable (view : View) (tokens : List (ProjectCandidate × AthenaToken))
    (d : Database) (command : CommitProcessedBlockCommand)
    (hinspect : tokens.mapM (fun x => inspectCandidate view x.1 x.2) = .ok command.inspections)
    (hharmless : ∃ d', commitProcessedBlock d command.harmless = .ok d') :
    (∃ d', commitProcessedBlock d command = .ok d' ∧
        cursor d' command.checkpoint.chainID = some command.checkpoint.cursorBlockNumber ∧
        ∀ x ∈ tokens, ∀ code recipients,
          acceptedRecipients view x.1 x.2 = .ok (some (code, recipients)) →
          Recorded d' x.1 x.2 recipients) ↔
      ∀ x ∈ tokens, Storable view x.1 x.2 := by
  obtain ⟨d₀, hharmless⟩ := hharmless
  constructor
  · rintro ⟨d', hcommit, -, hrecorded⟩ x hx code recipients haccepted
    obtain ⟨i, hi, hinspected⟩ := exists_of_mapM hinspect hx
    obtain ⟨hnone, -⟩ | ⟨_, _, -, hisAccepted, -, hname, hsymbol, -, -⟩ :=
      inspectCandidate_eq_ok hinspected
    · rw [haccepted] at hnone
      simp at hnone
    obtain ⟨htext, htext'⟩ := storable_of_commit hcommit i hi hisAccepted
    exact ⟨hname ▸ htext, hsymbol ▸ htext',
      ratio_lt_of_recorded (hrecorded x hx code recipients haccepted)⟩
  · intro hstorable
    have hblock : ∀ x ∈ tokens, x.1.blockNumber ≤ maxInt64 := by
      intro x hx
      obtain ⟨i, hi, hinspected⟩ := exists_of_mapM hinspect hx
      have hle := blockNumber_of_commit hharmless i.harmless (mem_map_of_mem hi)
      obtain ⟨-, rfl⟩ | ⟨_, _, -, -, hcandidate, -⟩ := inspectCandidate_eq_ok hinspected
      · exact hle
      · rw [← hcandidate]
        exact hle
    have hfits : ∀ i ∈ command.inspections, i.accepted → Fits i := by
      intro i hi _
      obtain ⟨x, hx, hinspected⟩ := (mem_of_mapM hinspect).mp hi
      exact fits_of_storable hinspected (hstorable x hx) (hblock x hx)
    obtain ⟨d', hcommit⟩ : ∃ d', commitProcessedBlock d command = .ok d' := by
      have hbare := commitProcessedBlock_bare (d := d) hfits
      have hbare' := commitProcessedBlock_bare (d := d) (c := command.harmless) fun i hi _ => by
        obtain ⟨j, -, rfl⟩ := mem_map.mp hi
        exact fits_harmless j
      have htwice : command.harmless.harmless = command.harmless := by
        simp only [CommitProcessedBlockCommand.harmless, map_map]
        rfl
      rw [htwice, ← hbare, hharmless] at hbare'
      obtain ⟨d', hcommit, -⟩ := map_eq_ok.mp hbare'.symm
      exact ⟨d', hcommit⟩
    have hsound : ∀ i ∈ command.inspections, i.accepted → Sound i := by
      intro i hi _
      obtain ⟨x, -, hinspected⟩ := (mem_of_mapM hinspect).mp hi
      exact sound_of_inspectCandidate hinspected
    obtain ⟨-, -, -, -, hcursor⟩ := commitProcessedBlock_eq_ok hcommit
    refine ⟨d', hcommit, hcursor, fun x hx code recipients haccepted => ?_⟩
    obtain ⟨i, hi, hinspected⟩ := exists_of_mapM hinspect hx
    obtain ⟨hnone, -⟩ | ⟨_, _, -, hisAccepted, -⟩ := inspectCandidate_eq_ok hinspected
    · rw [haccepted] at hnone
      simp at hnone
    · exact recorded_of_written hinspected haccepted (hstorable x hx)
        (written_of_commit hsound hcommit i hi hisAccepted)

/-! ## A chain that stops -/

theorem runOnce_eq_self {reading : Reading} {chainID : ℤ} {checkpoint : ChainCheckpoint}
    (hget : d.checkpoints.get? chainID = some checkpoint)
    (hcursor : checkpoint.cursorBlockNumber ≠ 0)
    (hfails : ∀ d', processBlock reading chainID (checkpoint.cursorBlockNumber + 1) d ≠ .ok d') :
    runOnce reading chainID d = d := by
  have hput : d.checkpoints.put checkpoint = d.checkpoints :=
    Table.put_eq_self (Table.mem_of_get? hget)
  unfold runOnce
  simp only [hget, if_neg hcursor, hput]
  split
  · cases reading.latest - checkpoint.cursorBlockNumber with
    | zero => rfl
    | succ =>
      cases hstep : processBlock reading chainID (checkpoint.cursorBlockNumber + 1) d with
      | ok d' => exact absurd hstep (hfails d')
      | error e => simp only [processBlocks, hstep]
  · rfl

theorem processBlock_ne_ok {reading : Reading} {chainID : ℤ} {next : ℕ} {block : ProjectBlock}
    (hblock : reading.block next = .ok block) {inspections : List CandidateInspection}
    (hinspect : inspectCandidates block = .ok inspections) (hi : i ∈ inspections)
    (haccepted : i.accepted) (htexts : ¬ (Utf8.storable i.name ∧ Utf8.storable i.symbol))
    (d d' : Database) : processBlock reading chainID next d ≠ .ok d' := by
  intro h
  simp only [processBlock, hblock, bind_eq_ok, Except.ok.injEq] at h
  obtain ⟨_, _, _, _, _, rfl, _, _, read, hread, hcommit⟩ := h
  obtain rfl : inspections = read := by simpa [hinspect] using hread
  exact htexts (storable_of_commit hcommit i hi haccepted)

def sampleView (amount : BitVec 256) : View where
  codeAt address := some (if address = 7 then [1] else [])
  transactionReceipt _ := some (some [⟨7, some ⟨0, 5, amount⟩⟩, ⟨7, some ⟨5, 6, 1⟩⟩])
  keccak256 _ := 9

def sampleCandidate : ProjectCandidate := ⟨1, 7, 3, 1, 0, 0, 2, 1000⟩

def sampleToken (name : Bytes) (totalSupply : BitVec 256) : AthenaToken :=
  ⟨true, name, [65], 18, totalSupply, 20, 21⟩

def sampleBlock (name : Bytes) (totalSupply amount : BitVec 256) : ProjectBlock :=
  ⟨⟨2, 1000⟩, [(sampleCandidate, sampleToken name totalSupply)], sampleView amount⟩

def sampleDatabase : Database where
  chains := [1]
  checkpoints := Table.empty.upsert ⟨1, 1, .running⟩

def sampleInspection (name : Bytes) (totalSupply : BitVec 256)
    (recipients : List InitialRecipientWallet) : CandidateInspection where
  candidate := sampleCandidate
  accepted := true
  codeHash := 9
  name := name
  symbol := [65]
  decimals := 18
  totalSupply := totalSupply
  wethPair := 20
  usdtPair := 21
  relatedWallets := relatedWallets sampleCandidate recipients
  initialRecipients := initialRecipients sampleCandidate totalSupply recipients

theorem inspectCandidates_sampleBlock (name : Bytes) (totalSupply amount : BitVec 256)
    (recipients : List InitialRecipientWallet)
    (h : acceptedRecipients (sampleView amount) sampleCandidate (sampleToken name totalSupply) =
      .ok (some ([1], recipients))) :
    inspectCandidates (sampleBlock name totalSupply amount) =
      .ok [sampleInspection name totalSupply recipients] := by
  simp only [inspectCandidates, sampleBlock, mapM_cons, inspectCandidate, h]
  rfl

def sampleCommand (inspection : CandidateInspection) : CommitProcessedBlockCommand :=
  ⟨⟨1, 2, .running⟩, ⟨2, 1000⟩, [inspection], [], 1000000000⟩

def shares (d : Database) : List (Address × ℤ) :=
  d.initialRecipients.rows.map fun row => (row.wallet, row.ratioBPS.toInt)

/-- A contract whose name is the byte zero stops its chain at its block, although the block
would be committed if the contract had no name.  Of a contract with a supply of one token and a
transfer of `2 ^ 60` the share that is stored is none at all. -/
theorem poisoned_block_stays :
    (∃ inspections d', inspectCandidates (sampleBlock [] 10 4) = .ok inspections ∧
        commitProcessedBlock sampleDatabase ⟨⟨1, 2, .running⟩, ⟨2, 1000⟩, inspections, [],
          1000000000⟩ = .ok d') ∧
      (∀ d reading, reading.block 2 = .ok (sampleBlock [0] 10 4) →
        d.checkpoints.get? 1 = some ⟨1, 1, .running⟩ → runOnce reading 1 d = d) ∧
      ∃ inspections d', inspectCandidates (sampleBlock [65] 1 (2 ^ 60 + 1)) = .ok inspections ∧
        commitProcessedBlock sampleDatabase ⟨⟨1, 2, .running⟩, ⟨2, 1000⟩, inspections, [],
          1000000000⟩ = .ok d' ∧
        shares d' = [(5, 0), (6, 10000)] ∧ ratio (2 ^ 60) 1 = 11529215046068469760000 := by
  refine ⟨?_, ?_, ?_⟩
  · have hinspect := inspectCandidates_sampleBlock [] 10 4 [⟨5, 3⟩, ⟨6, 1⟩] (by decide +kernel)
    obtain ⟨d', hcommit, -⟩ := exists_of_commitsWith
      (x := commitProcessedBlock sampleDatabase (sampleCommand (sampleInspection [] 10
        [⟨5, 3⟩, ⟨6, 1⟩]))) (p := fun _ => true) (by decide +kernel)
    exact ⟨_, d', hinspect, hcommit⟩
  · intro d reading hblock hget
    have hinspect := inspectCandidates_sampleBlock [0] 10 4 [⟨5, 3⟩, ⟨6, 1⟩] (by decide +kernel)
    exact runOnce_eq_self hget (by decide)
      (processBlock_ne_ok hblock hinspect mem_cons_self rfl (by decide) d)
  · have hinspect := inspectCandidates_sampleBlock [65] 1 (2 ^ 60 + 1)
      [⟨5, 2 ^ 60⟩, ⟨6, 1⟩] (by decide +kernel)
    obtain ⟨d', hcommit, hshares⟩ := exists_of_commitsWith
      (x := commitProcessedBlock sampleDatabase (sampleCommand (sampleInspection [65] 1
        [⟨5, 2 ^ 60⟩, ⟨6, 1⟩]))) (p := fun d => shares d = [(5, 0), (6, 10000)]) (by decide +kernel)
    exact ⟨_, d', hinspect, hcommit, of_decide_eq_true hshares, by decide⟩

/-- A contract that says nothing harmful is recorded. -/
theorem sample_recorded :
    ∃ d', commitProcessedBlock sampleDatabase
        (sampleCommand (sampleInspection [65] 10 [⟨5, 3⟩, ⟨6, 1⟩])) = .ok d' ∧
          cursor d' 1 = some 2 ∧
      Recorded d' sampleCandidate (sampleToken [65] 10) [⟨5, 3⟩, ⟨6, 1⟩] := by
  have haccepted : acceptedRecipients (sampleView 4) sampleCandidate (sampleToken [65] 10) =
      .ok (some ([1], [⟨5, 3⟩, ⟨6, 1⟩])) := by decide +kernel
  obtain ⟨d₀, hharmless, -⟩ := exists_of_commitsWith
    (x := commitProcessedBlock sampleDatabase (sampleCommand (sampleInspection [65] 10
      [⟨5, 3⟩, ⟨6, 1⟩])).harmless) (p := fun _ => true) (by decide +kernel)
  have hstorable : Storable (sampleView 4) sampleCandidate (sampleToken [65] 10) := by
    intro code recipients h
    rw [haccepted] at h
    obtain ⟨rfl, rfl⟩ : [1] = code ∧ [⟨5, 3⟩, ⟨6, 1⟩] = recipients := by simpa using h
    decide
  obtain ⟨d', hcommit, hcursor, hrecorded⟩ := (commit_records_iff_storable (sampleView 4)
    [(sampleCandidate, sampleToken [65] 10)] sampleDatabase
    (sampleCommand (sampleInspection [65] 10 [⟨5, 3⟩, ⟨6, 1⟩]))
    (inspectCandidates_sampleBlock _ _ _ _ haccepted) ⟨d₀, hharmless⟩).mpr
      (by simpa using hstorable)
  exact ⟨d', hcommit, hcursor, hrecorded _ mem_cons_self _ _ haccepted⟩

end Athena.Token
