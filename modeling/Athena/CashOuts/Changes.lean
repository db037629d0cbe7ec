import Athena.CashOuts.BatchMoves

/-!
# Every transaction is a change

Each transaction of the store, when it succeeds, changes the tables in one of the ways
that `Tables.Change` lists (`Store.exec_change`).
-/

namespace Athena.CashOuts

open Athena.Lib Table Queries Store List CashOut

variable {adm : Admission} {op : Operation} {now : Time} {t t' : Tables} {k : ℕ} {r : Resolution}

namespace Tables.Change

theorem ofCashOut {id : UUID} {c c' : CashOut} (hlone : ∀ req, op ≠ .dispatchBatch req)
    (hc : t.cashOut id = some c) (hmove : c.Move op now c')
    (hcashOuts : t'.cashOuts = t.cashOuts.put c')
    (hbatches : t'.batches = t.batches) : Change adm op now t t' := by
  refine .cashOuts hlone ?_ hbatches
  rw [hcashOuts]
  exact rel_put (mem_of_get? hc) hmove.evolves.id (.inr hmove) fun d _ _ => .inl rfl

theorem ofBatch {id : UUID} {b b' : Batch} (hb : t.batch id = some b) (hid : b'.id = b.id)
    (hwriter : b.Writer op now) (hmove : b.Move op now b') (hcashOuts : t'.cashOuts = t.cashOuts)
    (hbatches : t'.batches = t.batches.put b') : Change adm op now t t' := by
  refine .batches hcashOuts ?_
  rw [hbatches]
  exact rel_put (mem_of_get? hb) hid (.inr ⟨hwriter, hmove⟩) fun d _ _ => .inl rfl

end Tables.Change

namespace Store

open Tables

/-! ## Transactions on a Cash Out -/

variable {id attempt : UUID} {c : CashOut} {a : Attempt}

theorem onCashOut_ok {e : StoreError} {f : CashOut → Except StoreError CashOut} {c' : CashOut}
    (h : onCashOut t id e f = .ok (t', c')) :
    ∃ c, t.cashOut id = some c ∧ c.id = id ∧ f c = .ok c' ∧ t' = t.putCashOut c' := by
  simp only [onCashOut, committed] at h
  obtain ⟨c, hc, c', hf, ht, rfl⟩ := h
  exact ⟨c, hc, (cashOut_eq_some.mp hc).2, hf, ht.symm⟩

theorem authorizePositionCashOut_change {req : AuthorizeRequest}
    (h : authorizePositionCashOut req t now = .ok (t', c)) :
    Change adm (.authorize req) now t t' := by
  simp only [authorizePositionCashOut, committed] at h
  obtain ⟨-, c₀, hc, -, h⟩ := h
  split at h
  · simp only [committed] at h
    obtain ⟨-, rfl, -⟩ := h
    exact .same rfl rfl
  · simp only [queueAuthorizedPositionCashOut, committed, write_eq_ok] at h
    obtain ⟨-, -, c', ⟨-, ⟨-, hstate, -⟩, hrow⟩, rfl, -⟩ := h
    exact .ofCashOut (by simp) hc (.authorized req _ rfl (cashOut_eq_some.mp hc).2.symm hstate hrow)
      rfl rfl

theorem claimPositionCashOut_change {k : Claim}
    (h : claimPositionCashOut id k t now = .ok (t', c)) :
    Change adm (.claim id k) now t t' := by
  obtain ⟨-, h⟩ := of_ensure h
  obtain ⟨c₀, hc, rfl, hf, rfl⟩ := onCashOut_ok h
  simp only [Queries.claimPositionCashOut, committed, write_eq_ok] at hf
  obtain ⟨⟨-, -, hnow⟩, hrow⟩ := hf
  exact .ofCashOut (by simp) hc (.claimed k rfl hnow hrow) rfl rfl

theorem renewPositionCashOutClaim_change {k : Claim}
    (h : renewPositionCashOutClaim id k t now = .ok (t', c)) :
    Change adm (.renew id k) now t t' := by
  obtain ⟨-, h⟩ := of_ensure h
  obtain ⟨c₀, hc, rfl, hf, rfl⟩ := onCashOut_ok h
  simp only [Queries.renewPositionCashOutClaim, committed, write_eq_ok] at hf
  obtain ⟨⟨hlease, -, hstate⟩, hrow⟩ := hf
  have hopen : c₀.state.terminal = false := by
    obtain h | h | h | h := hstate <;> rw [h] <;> rfl
  exact .ofCashOut (by simp) hc (.renewed k rfl hlease hopen hrow) rfl rfl

theorem beginPositionCashOutClosing_change {providerState : String}
    (h : beginPositionCashOutClosing id k providerState t now = .ok (t', c)) :
    Change adm (.beginClosing id k providerState) now t t' := by
  obtain ⟨-, h⟩ := of_ensure h
  obtain ⟨c₀, hc, rfl, hf, rfl⟩ := onCashOut_ok h
  simp only [Queries.beginPositionCashOutClosing, committed, write_eq_ok] at hf
  obtain ⟨⟨hstate, hwindow⟩, hrow⟩ := hf
  exact .ofCashOut (by simp) hc (.closing k providerState rfl hstate hwindow hrow) rfl rfl

theorem preparePositionCashOutAttempt_change {request : CloseRequest}
    (h : preparePositionCashOutAttempt id attempt k request t now = .ok (t', a)) :
    Change adm (.prepare id attempt k request) now t t' := by
  simp only [preparePositionCashOutAttempt, committed] at h
  obtain ⟨c, hc, ⟨hstate, hwindow⟩, h⟩ := h
  split at h
  · simp only [committed] at h
    obtain ⟨-, rfl, -⟩ := h
    exact .same rfl rfl
  · rename_i hnone
    simp only [committed, write_eq_ok] at h
    obtain ⟨-, c', hrow, rfl, -⟩ := h
    obtain rfl := (cashOut_eq_some.mp hc).2
    exact .ofCashOut (by simp) hc (.prepared _ k rfl hstate hwindow hnone rfl hrow) rfl rfl

theorem dispatchAttempt_ok {c' : CashOut}
    (h : Queries.dispatchPositionCashOutAttempt c attempt k now = .ok (c', a))
    (hop : op.dispatches c.id attempt k) :
    c.Move op now c' ∧ wasDispatched c.attempt = false ∧ wasDispatched c'.attempt := by
  simp only [Queries.dispatchPositionCashOutAttempt, committed, write_eq_ok] at h
  obtain ⟨a₀, hattempt, ⟨rfl, hprepared, hstate, hwindow⟩, c₁, hrow, rfl, -⟩ := h
  refine ⟨.dispatched a₀ k hop hstate hwindow hattempt hprepared hrow, ?_, ?_⟩
  · simp [wasDispatched, Attempt.wasDispatched, hattempt, hprepared]
  · rw [hrow]
    simp [wasDispatched, Attempt.wasDispatched]

theorem dispatchPositionCashOutAttempt_change
    (h : dispatchPositionCashOutAttempt id attempt k t now = .ok (t', a)) :
    Change adm (.dispatch id attempt k) now t t' := by
  simp only [dispatchPositionCashOutAttempt, committed, Prod.exists] at h
  obtain ⟨c, hc, c', a', h, rfl, -⟩ := h
  obtain rfl := (cashOut_eq_some.mp hc).2
  exact .ofCashOut (by simp) hc (dispatchAttempt_ok h (.inl rfl)).1 rfl rfl

theorem resolveAttempt_ok {a' : Attempt}
    (h : Queries.resolvePositionCashOutAttempt c attempt r now = .ok a') :
    ∃ a dispatchedAt, c.attempt = some a ∧ a.id = attempt ∧ a.status = .dispatched dispatchedAt ∧
      a'.id = a.id ∧ a'.request = a.request ∧ a'.status = .resolved r.outcome dispatchedAt now := by
  simp only [Queries.resolvePositionCashOutAttempt, committed] at h
  obtain ⟨a, hattempt, rfl, h⟩ := h
  split at h
  · rename_i time hs
    simp only [committed, exists_eq_left'] at h
    obtain ⟨-, rfl⟩ := h
    exact ⟨a, time, hattempt, rfl, hs, rfl, rfl, rfl⟩
  · cases h

theorem resolvePositionCashOutAttempt_change
    (h : resolvePositionCashOutAttempt id attempt r t now = .ok (t', a)) :
    Change adm (.resolve id attempt r) now t t' := by
  simp only [resolvePositionCashOutAttempt, committed, write_eq_ok] at h
  obtain ⟨-, c, hc, a', h, c', hrow, rfl, -⟩ := h
  obtain ⟨a₀, d, hattempt, rfl, hdispatched, hid, hrequest, hstatus⟩ := resolveAttempt_ok h
  obtain rfl := (cashOut_eq_some.mp hc).2
  exact .ofCashOut (by simp) hc
    (.resolved a₀ a' d r rfl hattempt hdispatched hid hrequest hstatus hrow) rfl rfl

theorem completePositionCashOutDispatch_change
    (h : completePositionCashOutDispatch id attempt k r t now = .ok (t', c)) :
    Change adm (.completeDispatch id attempt k r) now t t' := by
  obtain ⟨⟨-, -, houtcome⟩, h⟩ := of_ensure h
  obtain ⟨c₀, hc, rfl, hf, rfl⟩ := onCashOut_ok h
  simp only [committed, write_eq_ok] at hf
  obtain ⟨a', ha, hobservable, hrow⟩ := hf
  obtain ⟨a, d, hattempt, rfl, hdispatched, hid, hrequest, hstatus⟩ := resolveAttempt_ok ha
  obtain ⟨hstate, hheld⟩ := observable_iff hobservable
  rw [houtcome] at hstatus
  exact .ofCashOut (by simp) hc (.completedDispatch a a' k d r rfl hattempt hdispatched hid
    hrequest hstatus
    hstate hheld hrow) rfl rfl

theorem recordPositionCashOutObservation_change {o : Observation}
    (h : recordPositionCashOutObservation id k o t now = .ok (t', c)) :
    Change adm (.observe id k o) now t t' := by
  obtain ⟨hvalid, h⟩ := of_ensure h
  obtain ⟨c₀, hc, rfl, hf, rfl⟩ := onCashOut_ok h
  simp only [committed, write_eq_ok] at hf
  exact .ofCashOut (by simp) hc (.observed k o rfl hvalid hf.1 hf.2) rfl rfl

theorem requestPositionCashOutReconciliation_change {req : ReconcileRequest}
    (h : requestPositionCashOutReconciliation req t now = .ok (t', c)) :
    Change adm (.reconcile req) now t t' := by
  simp only [requestPositionCashOutReconciliation, committed] at h
  obtain ⟨-, c₀, hc, -, h⟩ := h
  split at h
  · simp only [committed] at h
    obtain ⟨-, rfl, -⟩ := h
    exact .same rfl rfl
  · simp only [Queries.requestPositionCashOutReconciliation, committed, write_eq_ok] at h
    obtain ⟨c', ⟨⟨-, hstate, hclaim, -⟩, hrow⟩, rfl, -⟩ := h
    exact .ofCashOut (by simp) hc (.reconcileRequested req rfl hstate hclaim hrow) rfl rfl

theorem expirePositionCashOuts_change (picked : List UUID) :
    Change adm (.expire picked) now t (expirePositionCashOuts picked t now) := by
  refine .cashOuts (by simp) (rel_update _ (expireOne_id picked now) ?_) rfl
  intro c _
  unfold expireOne
  split
  · rename_i hpicked
    split
    · exact .inr (.expired picked rfl hpicked.2 rfl)
    · exact .inl rfl
  · exact .inl rfl

/-! ## Creations -/

theorem insertCashOut_ok {e e' e'' : StoreError} (h : t.insertCashOut c e e' e'' = .ok t') :
    t.cashOuts.insert? c = some t'.cashOuts ∧ t'.batches = t.batches := by
  simp only [Tables.insertCashOut, committed] at h
  obtain ⟨-, -, -, cashOuts, hinsert, rfl⟩ := h
  exact ⟨hinsert, rfl⟩

theorem not_mem_of_countActiveCashOuts {walletIds : List ℕ}
    (h : t.countActivePositionCashOutsForWallets walletIds = 0) (hc : c ∈ t.cashOuts) :
    c.state.terminal ∨ c.walletId ∉ walletIds := by
  have h := countP_eq_zero.mp h c hc
  simp only [decide_eq_true_eq, not_and] at h
  cases hstate : c.state.terminal with
  | true => exact .inl rfl
  | false => exact .inr (h hstate)

theorem not_mem_of_countBatchLocks {walletIds : List ℕ}
    (h : t.countActivePositionCashOutBatchWalletLocks walletIds = 0) {b : Batch}
    (hb : b ∈ t.batches) {w : ℕ} (hw : w ∈ walletIds) : w ∉ b.locks := by
  intro hlock
  have h := countP_eq_zero.mp h w (mem_flatMap.mpr ⟨b, hb, hlock⟩)
  simp [hw] at h

theorem createPositionCashOut_change {req : CreateRequest}
    (h : createPositionCashOut req adm id t now = .ok (t', c)) :
    Change adm (.create req id) now t t' := by
  obtain ⟨-, h⟩ := of_ensure h
  split at h
  · simp only [committed] at h
    obtain ⟨-, c₀, -, rfl, -⟩ := h
    exact .same rfl rfl
  · simp only [committed, write_eq_ok] at h
    obtain ⟨-, version, -, -, hlocks, hactive, hfree, c₀, hrow, t₀, hinsert, rfl, -⟩ := h
    obtain ⟨hcashOuts, hbatches⟩ := insertCashOut_ok hinsert
    have hid : c₀.id = id := by rw [hrow]; rfl
    have hwallet : c₀.walletId = req.position.walletId := by rw [hrow]; rfl
    subst hid
    refine .created req c₀ rfl hrow ?_ ?_ ?_ hcashOuts hbatches
    · intro hmem
      have := countP_eq_zero.mp hlocks _ hmem
      simp at this
    · intro d hd
      simpa [hwallet] using not_mem_of_countActiveCashOuts hactive hd
    · intro b hb
      exact hwallet ▸ not_mem_of_countBatchLocks hfree hb (mem_singleton.mpr rfl)

theorem batchWallets_ok {connections : List Connection} {inputs : List WalletInput} :
    ∀ {ordinal : ℕ} {wallets : List BatchWallet},
      batchWallets connections ordinal inputs = .ok wallets →
      wallets.map (fun w => w.ordinal) = range' ordinal wallets.length ∧
        wallets.map (fun w => w.walletId) = inputs.map (fun w => w.walletId) ∧
        ∀ w ∈ wallets, w.positionCount = 0 ∧ w.completedCount = 0 := by
  induction inputs with
  | nil =>
    intro ordinal wallets h
    obtain rfl := pure_eq_ok.mp h
    exact ⟨rfl, rfl, nofun⟩
  | cons _ _ ih =>
    intro ordinal wallets h
    simp only [batchWallets, committed] at h
    obtain ⟨version, -, wallets, h, rfl⟩ := h
    obtain ⟨hordinals, hids, hempty⟩ := ih h
    refine ⟨?_, ?_, ?_⟩
    · simp [hordinals, range'_succ]
    · simp [hids]
    · rintro w (_ | ⟨_, hw⟩)
      · exact ⟨rfl, rfl⟩
      · exact hempty w hw

theorem createPositionCashOutBatch_change {req : BatchCreateRequest} {b : Batch}
    (h : createPositionCashOutBatch req adm id t now = .ok (t', b)) :
    Change adm (.createBatch req id) now t t' := by
  simp only [createPositionCashOutBatch, normalizePositionCashOutBatchWalletInputs, committed] at h
  obtain ⟨inputs, ⟨-, -, hnodup, -, -, rfl⟩, -, h⟩ := h
  split at h
  · simp only [committed] at h
    obtain ⟨-, b₀, -, rfl, -⟩ := h
    exact .same rfl rfl
  · simp only [committed, Batch.write_eq_ok] at h
    obtain ⟨-, hlocks, hactive, hfree, wallets, hwallets, -, b₀, hrow, batches, hinsert, rfl, -⟩ :=
      h
    obtain ⟨hordinals, hids, hempty⟩ := batchWallets_ok hwallets
    have hid : b₀.id = id := by rw [hrow]; rfl
    have hmem {w : BatchWallet} (hw : w ∈ wallets) :
        w.walletId ∈ ((req.wallets.map WalletInput.normalize).map
          fun w => w.walletId).insertionSort (· ≤ ·) := by
      rw [mem_insertionSort, ← hids]
      exact mem_map_of_mem hw
    subst hid
    refine .batchCreated req wallets b₀ rfl hrow hordinals (hids ▸ hnodup) hempty ?_ ?_ ?_ rfl
      hinsert
    · intro w hw hlock
      have := countP_eq_zero.mp hlocks _ hlock
      exact this (decide_eq_true (hmem hw))
    · intro d hd
      refine (not_mem_of_countActiveCashOuts hactive hd).imp_right fun hd w hw => ?_
      exact fun heq => hd (heq ▸ hmem hw)
    · intro d hd w hw
      exact not_mem_of_countBatchLocks hfree hd (hmem hw)

end Store
end Athena.CashOuts
