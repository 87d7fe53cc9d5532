import Sosedi.Deposits.Ledger

/-!
# Every deal has a ledger

Proved here: every move of a deal keeps its ledger (`DealMove.balanced_apply`), so every deal
of a reachable state has one (`Runs.balanced`).
-/

namespace Sosedi

open Transactions Attempts DepositOperationProcessor

variable {d : Deal} {k : Id} {w : World}

theorem nonneg_of_boundSnapshot {b : Booking} {snapshot : BookingTermsSnapshot}
    (h : b.boundSnapshot = some snapshot) (hs : snapshot.paymentScenario = .fakeSafeDeal) :
    0 ≤ snapshot.moneyMinor.deposit := by
  unfold Booking.boundSnapshot at h
  cases ht : b.termsSnapshot with
  | none => simp [ht, readBoundBookingTermsSnapshot, readBookingTermsSnapshot] at h
  | some value =>
    rw [ht] at h
    obtain ⟨money, hmoney, rfl, -, -⟩ := readBoundBookingTermsSnapshot_eq_some h
    unfold snapshotMoney at hmoney
    split at hmoney
    · rename_i m hm
      cases hmoney
      obtain ⟨rfl, hn⟩ := readMoneyMinor_eq_some hm
      exact hn
    · rename_i hm
      rw [if_neg (by simp [show value.paymentScenario = .fakeSafeDeal from hs])] at hmoney
      cases hmoney

/-- The deposit that a checkout may hold is the pending one of the terms. -/
theorem ensureDepositMatches_some {snapshot : BookingTermsSnapshot} {dep : BookingDeposit}
    (h : DepositService.ensureDepositMatches snapshot (some dep) = .ok ())
    (hn : 0 ≤ snapshot.moneyMinor.deposit) :
    dep.status = .pending ∧ dep.amount.minor = snapshot.moneyMinor.deposit := by
  unfold DepositService.ensureDepositMatches at h
  by_cases hpos : snapshot.moneyMinor.deposit > 0
  · simp only [hpos, if_true, bind_eq_ok, ensure_eq_ok, Bool.and_eq_true, beq_iff_eq] at h
    obtain ⟨-, ⟨hpending, -⟩, amount, hamount, -, heq, -⟩ := h
    have hsafe := minorToSafeNumber_eq_ok hamount
    exact ⟨hpending, by rw [← heq, hsafe]; rfl⟩
  · have hz : snapshot.moneyMinor.deposit = 0 := by omega
    simp [hz, ensure] at h

namespace Action

theorem balanced_apply {action : Action} (h : d.Balanced) (hg : action.guard k d w) :
    (action.apply k d).Balanced := by
  cases action with
  | cancel actorId isBorrower statusRead depositRead refundId dbNow =>
    obtain ⟨-, -, ⟨-, hunpaid, hheld, -⟩ | ⟨-, -, -, rfl, hdep⟩⟩ := hg
    · -- a request for which nothing was paid
      have h₁ : ((d.cancelBooking (cancellationReasonOf isBorrower)).onlyIf
          (depositRead.any (·.status == .pending)) (Deal.setDepositStatus .cancelled)).Balanced :=
        Deal.Balanced.onlyIf h fun _ => Deal.Balanced.cancelDeposit h hunpaid.deposit
      cases depositRead with
      | none =>
        simp only [apply, preHandoverRefund]
        exact h₁
      | some dep =>
        have hne : (dep.status == .held) = false := by simpa using hheld dep rfl
        simp only [apply, preHandoverRefund, hne, Deal.onlyIf_false]
        exact h₁
    · cases hd : d.deposit with
      | none =>
        refine h.of_same ?_ ?_ ?_ <;> simp [apply, preHandoverRefund, hd]
      | some dep =>
        rcases hdep dep hd with hs | ⟨hs, hfresh⟩
        · have h₁ : (d.cancelBooking (cancellationReasonOf isBorrower)
              |>.setDepositStatus .cancelled).Balanced :=
            Deal.Balanced.cancelDeposit (d := d) h fun dep' hdep' => by
              rw [hd, Option.some.injEq] at hdep'
              exact Or.inl (hdep' ▸ hs)
          simp only [apply, preHandoverRefund, Option.any_some, hs, beq_self_eq_true,
            Deal.onlyIf_true]
          exact h₁
        · have hx : d.dispute = none := by
            have := h.stage dep hd
            simp only [LedgerStage, hs] at this
            exact this.2
          have h₁ := h.refundAll hd hs hx hfresh .preHandoverRefund dbNow dbNow
          simp only [apply, preHandoverRefund, Option.any_some, hs, beq_self_eq_true,
            Deal.onlyIf_true]
          exact h₁
  | expire now =>
    have h₁ : (d.cancelBooking .pendingTimeout).cancelPendingDeposit.Balanced :=
      Deal.Balanced.cancelPendingDeposit (d := d.cancelBooking .pendingTimeout) h
    simp only [apply]
    exact h₁
  | confirmAct stage actorId confirmedAt ends completes =>
    have h₁ : (openWindow ends (d.setAct stage ((d.act stage).map
        ({ · with confirmedById := some actorId, confirmedAt := some confirmedAt })))).Balanced := by
      have h₀ : (d.setAct stage ((d.act stage).map ({ · with
          confirmedById := some actorId, confirmedAt := some confirmedAt }))).Balanced :=
        h.of_same (by simp) (by simp) (by simp)
      cases ends with
      | none => exact h₀
      | some endsAt => exact Ledger.openWindow h₀ endsAt
    simp only [apply]
    refine Deal.Balanced.onlyIf_completeAfterReturn ?_ _ _ _
    exact h₁
  | pay borrowerId amountMinor key providerId hold =>
    obtain ⟨-, -, -, ⟨snapshot, ⟨hread, hfake⟩, -, hmatches, hsome, hhold⟩, -⟩ := hg
    cases hold with
    | none => exact h
    | some hold =>
      obtain ⟨dep, hdep⟩ := Option.isSome_iff_exists.mp (hsome.mp rfl)
      obtain ⟨hamount, hfresh⟩ := hhold hold rfl
      rw [hdep] at hmatches
      obtain ⟨hpending, heq⟩ :=
        ensureDepositMatches_some hmatches (nonneg_of_boundSnapshot hread hfake)
      have hledger : Ledger d.attempts (some dep) d.dispute := hdep ▸ h
      have h₁ := hledger.hold hpending hold.operationId
      rw [heq, ← hamount] at h₁
      show Ledger (Deal.attempts (d.createOperation hold.operationId _)) (d.deposit.map _) d.dispute
      rw [Deal.attempts_createOperation, hdep]
      exact h₁
  | complete now => exact h.completeAfterReturn _ _
  | openDispute dispute =>
    obtain ⟨-, -, hopened, -, -, dep, endsAt, hdep, hs, -⟩ := hg
    have hledger : Ledger d.attempts (some dep) d.dispute := hdep ▸ h
    show Ledger d.attempts (d.deposit.map _) (some dispute)
    rw [hdep]
    exact hledger.openDispute hs hopened
  | resolve adminId reason refund release commandKey refundId releaseId now dbNow =>
    obtain ⟨⟨dispute, hdispute, -⟩, -, hn, hn', ⟨dep, hdep, hs, htotal⟩, hf, hf', hne⟩ := hg
    have hledger : Ledger d.attempts (some dep) d.dispute := hdep ▸ h
    have hheld : HeldOnly d.attempts dep.amount := by
      have := hledger.stage dep rfl
      simp only [LedgerStage, hs] at this
      exact this.1
    have hpay := hledger.payOut hheld
      (some (DisputeService.decision adminId reason refund release now dispute))
      (by rintro _ ⟨⟩; rfl) (show _ = refund from rfl) (show _ = release from rfl) hn hn' htotal
      refundId releaseId
      (fun hr => Deal.get_attempts_of_none (hf hr).id)
      (fun hr => Deal.get_attempts_of_none (hf' hr).id) hne
    simp only [apply]
    refine Deal.Balanced.completeAfterReturn ?_ _ _
    unfold Deal.Balanced
    rw [← Deal.attempts_createLeg refundId .refund refund commandKey now dbNow d,
      ← Deal.attempts_createLeg releaseId .releaseToLender release commandKey now dbNow] at hpay
    simpa [hdep, hdispute, Deal.attempts] using hpay
  | autoRefund amount o now dbNow =>
    obtain ⟨-, hx, hfresh, dep, hdep, hdue, rfl⟩ := hg
    have hs : dep.status = .held := by
      simp only [DepositDeadlineService.due, Bool.and_eq_true, beq_iff_eq] at hdue
      exact hdue.1
    have hrefund := h.refundAll hdep hs hx hfresh .autoRefund now dbNow
    simp only [apply]
    refine Deal.Balanced.completeAfterReturn ?_ _ _
    exact hrefund
  | retry adminId o operation commandKey retryId now dbNow =>
    obtain ⟨⟨op, hop, hkind, hamount, hfailed⟩, hretryable, hno, hfresh⟩ := hg
    simp only [DepositService.retryable, Bool.and_eq_true] at hretryable
    obtain ⟨dep, hdep, hs⟩ := (Option.any_eq_true _ _).mp hretryable.1.1.2
    have hledger : Ledger d.attempts (some dep) d.dispute := hdep ▸ h
    have hr : retried d.attempts o = false := by
      rw [← hno, retried, Deal.attempts, Table.any_map]
      rfl
    have h₁ := hledger.retry (by simpa using hs) (o := retryId) (r := o) (b := op.attempt)
      (Deal.get_attempts_of_none hfresh.id) (Deal.get_attempts_of_get hop)
      (by simp [DepositOperation.attempt, hfailed, DepositOperationStatus.outcome]) hr
    show Ledger (Deal.attempts (d.createOperation retryId _)) d.deposit d.dispute
    rw [Deal.attempts_createOperation, hdep]
    simpa [DepositOperation.attempt, DepositOperation.create, hkind, hamount,
      DepositOperationStatus.outcome] using h₁
  | postpone o nextAttemptAt =>
    show Ledger (Deal.attempts (d.updateOperation o _)) d.deposit d.dispute
    rw [Deal.attempts_updateOperation_of_eq]
    · exact h
    · exact fun op => rfl
  | decline o errorCode now =>
    obtain ⟨op, hop, hp⟩ := hg
    show Ledger (Deal.attempts (d.updateOperation o _)) d.deposit d.dispute
    rw [Deal.attempts_updateOperation _ _ .failed fun op => rfl]
    cases hdep : d.deposit with
    | none =>
      have hempty := (h.absent hdep).1
      have hget := d.get_attempts o
      rw [hempty, hop] at hget
      cases hget
    | some dep =>
      have hledger : Ledger d.attempts (some dep) d.dispute := hdep ▸ h
      exact hledger.decline (Deal.get_attempts_of_get hop)
        (by simp [DepositOperation.attempt, hp, DepositOperationStatus.outcome])
  | settle o kind amount providerId now resolved =>
    obtain ⟨⟨op, hop, hp, rfl, rfl⟩, -, dep, hdep, -, -, htotal, -⟩ := hg
    have hledger : Ledger d.attempts (some dep) d.dispute := hdep ▸ h
    have h₁ := hledger.succeed (o := o) (a := op.attempt) (Deal.get_attempts_of_get hop)
      (by simp [DepositOperation.attempt, hp, DepositOperationStatus.outcome])
      (show _ = op.amount.minor from rfl) resolved fun hr => (htotal hr).1
    have h₂ : (d.updateOperation o (settleUpdate providerId now)
        |>.updateDeposit (settleDeposit op.kind op.amount resolved)).Balanced := by
      show Ledger (Deal.attempts (d.updateOperation o _)) (d.deposit.map _) d.dispute
      rw [Deal.attempts_updateOperation _ _ .succeeded fun op => rfl, hdep]
      exact h₁
    simp only [apply]
    refine Deal.Balanced.onlyIf_completeAfterReturn ?_ _ _ _
    exact h₂

end Action

/-- **Every move keeps the ledger.** -/
theorem DealMove.balanced_apply {m : DealMove} (h : d.Balanced) (hg : m.guard k d w) :
    (m.apply k d).Balanced := by
  cases m with
  | idle => exact h
  | act action => exact Action.balanced_apply h hg
  | createAct stage a => exact h.of_same (by simp [apply]) (by simp [apply]) (by simp [apply])
  | confirm lenderId =>
    refine h.of_same ?_ ?_ ?_ <;> simp [apply, Deal.confirm]
  | compete lenderId =>
    have h₁ : (d.cancelIfPending .competingRequestConfirmed).Balanced := h.onlyIf fun _ => h
    have h₂ := Deal.Balanced.cancelPendingDeposit h₁
    simp only [apply, Deal.compete]
    refine Deal.Balanced.onlyIf ?_ fun _ => ?_
    · exact h₂
    · exact h₂
  | blocked blockerId =>
    have h₁ : (d.cancelIfPending .participantBlocked).Balanced := h.onlyIf fun _ => h
    simp only [apply, Deal.blocked]
    exact h₁
  | claim o now processingUntil =>
    show Ledger (Deal.attempts (d.updateOperation o _)) d.deposit d.dispute
    rw [Deal.attempts_updateOperation_of_eq]
    · exact h
    · exact fun op => rfl

/-- The deposit of a new booking. -/
theorem DraftedFrom.deposit {read : BookableItem} (h : DraftedFrom read d) {dep : BookingDeposit}
    (hd : d.deposit = some dep) : 0 < dep.amount.minor ∧ dep.refundedAmount.minor = 0 ∧
      dep.releasedToLenderAmount.minor = 0 ∧ dep.status = .pending := by
  obtain ⟨policy, terms, borrowerId, itemId, period, requestId, hash, now, dbNow, draft, hdraft,
    rfl⟩ := h
  simp only [draftBooking, bind_eq_ok] at hdraft
  obtain ⟨price, -, money, -, hdraft⟩ := hdraft
  cases hdraft
  simp only [BookingDraft.deal, Deal.addMessage, Deal.addTransition, Deal.addOutbox,
    Option.map_eq_some_iff] at hd
  obtain ⟨t, ht, rfl⟩ := hd
  refine ⟨?_, rfl, rfl, rfl⟩
  unfold depositTermsOf at ht
  split at ht
  · cases ht
  · split at ht
    · assumption
    · cases ht

theorem DraftedFrom.noWindow {read : BookableItem} (h : DraftedFrom read d) {dep : BookingDeposit}
    (hd : d.deposit = some dep) : dep.disputeWindowEndsAt = none := by
  obtain ⟨policy, terms, borrowerId, itemId, period, requestId, hash, now, dbNow, draft, hdraft,
    rfl⟩ := h
  simp only [draftBooking, bind_eq_ok] at hdraft
  obtain ⟨price, -, money, -, hdraft⟩ := hdraft
  cases hdraft
  simp only [BookingDraft.deal, Deal.addMessage, Deal.addTransition, Deal.addOutbox,
    Option.map_eq_some_iff] at hd
  obtain ⟨t, -, rfl⟩ := hd
  rfl

theorem DraftedFrom.balanced {read : BookableItem} (h : DraftedFrom read d) : d.Balanced := by
  have hunpaid := h.unpaid.1
  have hops : d.attempts = .empty := by
    rw [Deal.attempts, hunpaid.operations]
    rfl
  unfold Deal.Balanced
  rw [hops, hunpaid.dispute]
  refine ⟨WellFormed.empty, by simp, by simp, ?_, ?_, ?_, ?_⟩ <;> intro dep hdep <;>
    obtain ⟨hpos, hrefunded, hreleased, hs⟩ := h.deposit hdep
  · exact hpos
  · exact hrefunded
  · exact hreleased
  · simp [LedgerStage, hs]

/-- **Every deal of a reachable state has a ledger.** -/
theorem Runs.balanced {sha256 : Bytes → String} {ok : Event → Store → Prop} {s₀ s : State Sys}
    (h : Runs sha256 ok s₀ s) : ∀ k d, s.db.deals.get k = some d → d.Balanced := by
  refine h.invariant (P := fun σ => ∀ k d, σ.1.deals.get k = some d → d.Balanced) ?_ ?_
  · intro σ hi
    simp [hi.deals]
  · intro ev K a b _ _ hg ha k d' hd'
    rcases hg.get_inv hd' with ⟨d, hd, rfl, hguard, -⟩ | ⟨-, read, -, hnew⟩
    · exact DealMove.balanced_apply (ha k d hd) hguard
    · exact hnew.balanced

end Sosedi
