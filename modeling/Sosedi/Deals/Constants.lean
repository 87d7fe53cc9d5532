import Sosedi.Deals.Frames

/-!
# What moves leave alone

Proved here: the terms of a deposit stay as they were drafted (`DealMove.depositTerms_apply`),
only a confirmed act moves the dispute window and only a checkout pays
(`DealMove.windowEnd_apply`, `.payment_apply`), and the completion of a booking is announced
once (`DealMove.announcesCompletion_apply`).
-/

namespace Sosedi

open DepositOperationProcessor

variable {d : Deal} {k : Id} {w : World}

/-- The columns of a deposit that never change. -/
def BookingDeposit.terms (dep : BookingDeposit) : BookingDeposit :=
  { dep with
    status := .pending
    disputeWindowEndsAt := none
    refundedAmount := ⟨0⟩
    releasedToLenderAmount := ⟨0⟩ }

def Deal.depositTerms (d : Deal) : Option BookingDeposit := d.deposit.map BookingDeposit.terms

namespace Deal

variable {f : Deal → Deal} {c : Bool}

theorem depositTerms_updateDeposit {f : BookingDeposit → BookingDeposit}
    (hf : ∀ dep, (f dep).terms = dep.terms) (d : Deal) :
    (d.updateDeposit f).depositTerms = d.depositTerms := by
  simp [depositTerms, Function.comp_def, hf]

theorem depositTerms_setDepositStatus (status : DepositStatus) (d : Deal) :
    (d.setDepositStatus status).depositTerms = d.depositTerms :=
  depositTerms_updateDeposit (f := ({ · with status })) (fun _ => rfl) d

theorem depositTerms_of_deposit {d d' : Deal} (h : d'.deposit = d.deposit) :
    d'.depositTerms = d.depositTerms := by rw [depositTerms, depositTerms, h]

theorem depositTerms_onlyIf (hf : (f d).depositTerms = d.depositTerms) :
    (d.onlyIf c f).depositTerms = d.depositTerms := by
  cases c
  · rfl
  · exact hf

theorem depositTerms_cancelPendingDeposit (d : Deal) :
    d.cancelPendingDeposit.depositTerms = d.depositTerms :=
  depositTerms_onlyIf (depositTerms_setDepositStatus .cancelled d)

end Deal

theorem Action.depositTerms_apply (action : Action) (d : Deal) :
    (action.apply k d).depositTerms = d.depositTerms := by
  have hset : ∀ status (d : Deal), (d.setDepositStatus status).depositTerms = d.depositTerms :=
    Deal.depositTerms_setDepositStatus
  cases action with
  | cancel actorId isBorrower statusRead depositRead refundId dbNow =>
    have hrefund : ∀ d : Deal, (preHandoverRefund depositRead refundId dbNow d).depositTerms =
        d.depositTerms := by
      intro d
      cases depositRead with
      | none => rfl
      | some dep => exact Deal.depositTerms_onlyIf (hset .resolving d)
    have hcancel := Deal.depositTerms_onlyIf (d := d.cancelBooking (cancellationReasonOf isBorrower))
      (c := depositRead.any (·.status == .pending)) (hset .cancelled _)
    simp only [apply]
    exact (hrefund _).trans hcancel
  | expire => exact Deal.depositTerms_cancelPendingDeposit (d.cancelBooking _)
  | confirmAct stage actorId confirmedAt ends completes =>
    have hopen : ∀ d : Deal, (openWindow ends d).depositTerms = d.depositTerms := by
      intro d
      cases ends with
      | none => rfl
      | some endsAt =>
        exact Deal.depositTerms_updateDeposit
          (f := ({ · with disputeWindowEndsAt := some endsAt })) (fun _ => rfl) d
    refine Eq.trans ?_ ((hopen (d.setAct stage ((d.act stage).map ({ · with
      confirmedById := some actorId, confirmedAt := some confirmedAt })))).trans
        (Deal.depositTerms_of_deposit (by simp)))
    simp only [apply]
    exact Deal.depositTerms_onlyIf (Deal.depositTerms_of_deposit (by simp))
  | pay borrowerId amount key providerId hold =>
    cases hold with
    | none => rfl
    | some hold => exact hset .held d
  | complete => exact Deal.depositTerms_of_deposit (by simp [apply])
  | openDispute => exact hset .disputed d
  | resolve =>
    refine Eq.trans ?_ (hset .resolving d)
    exact Deal.depositTerms_of_deposit (by simp [apply])
  | autoRefund =>
    refine Eq.trans ?_ (hset .resolving d)
    exact Deal.depositTerms_of_deposit (by simp [apply])
  | retry | postpone | decline => rfl
  | settle o kind amount providerId now resolved =>
    refine Eq.trans ?_ (Deal.depositTerms_updateDeposit
      (f := settleDeposit kind amount resolved) (fun _ => rfl) d)
    simp only [apply]
    exact Deal.depositTerms_onlyIf (Deal.depositTerms_of_deposit (by simp))

/-- **The terms of a deposit never change.** -/
theorem DealMove.depositTerms_apply (m : DealMove) (d : Deal) :
    (m.apply k d).depositTerms = d.depositTerms := by
  cases m with
  | act action => exact action.depositTerms_apply d
  | createAct stage a => exact Deal.depositTerms_of_deposit (by simp [apply])
  | confirm => exact Deal.depositTerms_of_deposit (by simp [apply, Deal.confirm])
  | compete lenderId =>
    have hcancel : (d.cancelIfPending .competingRequestConfirmed).depositTerms = d.depositTerms :=
      Deal.depositTerms_of_deposit (by simp [Deal.cancelIfPending])
    refine Eq.trans ?_ ((Deal.depositTerms_cancelPendingDeposit _).trans hcancel)
    exact Deal.depositTerms_onlyIf rfl
  | blocked => exact Deal.depositTerms_of_deposit (by simp [apply, Deal.blocked, Deal.cancelIfPending])
  | idle | claim => rfl

/-- Where a deposit comes from. -/
theorem DealMove.deposit_inv (m : DealMove) {dep' : BookingDeposit}
    (h : (m.apply k d).deposit = some dep') :
    ∃ dep, d.deposit = some dep ∧ dep.terms = dep'.terms := by
  have hterms := m.depositTerms_apply (k := k) d
  rw [Deal.depositTerms, h, Option.map_some] at hterms
  exact Option.map_eq_some_iff.mp hterms.symm

theorem BookingDeposit.amount_of_terms {dep dep' : BookingDeposit} (h : dep.terms = dep'.terms) :
    dep.amount = dep'.amount := by
  have hamount : dep.terms.amount = dep'.terms.amount := by rw [h]
  exact hamount

theorem Deal.isSome_deposit_of_depositTerms {d d' : Deal} (h : d'.depositTerms = d.depositTerms) :
    d'.deposit.isSome = d.deposit.isSome := by
  have := congrArg Option.isSome h
  simpa [depositTerms] using this

/-! ## The dispute window -/

def Deal.windowEnd (d : Deal) : Option Time := d.deposit.bind (·.disputeWindowEndsAt)

theorem Deal.windowEnd_updateDeposit (d : Deal) {f : BookingDeposit → BookingDeposit}
    (hf : ∀ dep, (f dep).disputeWindowEndsAt = dep.disputeWindowEndsAt) :
    (d.updateDeposit f).windowEnd = d.windowEnd := by
  simp [windowEnd, Option.bind_map, hf]

theorem Deal.windowEnd_setDepositStatus (status : DepositStatus) (d : Deal) :
    (d.setDepositStatus status).windowEnd = d.windowEnd :=
  windowEnd_updateDeposit d (f := ({ · with status })) fun _ => rfl

theorem Deal.windowEnd_of_deposit {d d' : Deal} (h : d'.deposit = d.deposit) :
    d'.windowEnd = d.windowEnd := by rw [windowEnd, windowEnd, h]

theorem Deal.windowEnd_onlyIf {c : Bool} {f : Deal → Deal} (hf : (f d).windowEnd = d.windowEnd) :
    (d.onlyIf c f).windowEnd = d.windowEnd := by
  cases c
  · rfl
  · exact hf

theorem Deal.windowEnd_cancelPendingDeposit (d : Deal) :
    d.cancelPendingDeposit.windowEnd = d.windowEnd :=
  windowEnd_onlyIf (windowEnd_setDepositStatus .cancelled d)

/-- Only a confirmation of an act moves the window. -/
theorem Action.windowEnd_apply {action : Action}
    (hne : ∀ stage actorId confirmedAt endsAt completes,
      action ≠ .confirmAct stage actorId confirmedAt endsAt completes) (d : Deal) :
    (action.apply k d).windowEnd = d.windowEnd := by
  have hset : ∀ status (d : Deal), (d.setDepositStatus status).windowEnd = d.windowEnd :=
    Deal.windowEnd_setDepositStatus
  cases action with
  | confirmAct => exact absurd rfl (hne _ _ _ _ _)
  | cancel actorId isBorrower statusRead depositRead refundId dbNow =>
    have hrefund : ∀ d : Deal, (preHandoverRefund depositRead refundId dbNow d).windowEnd =
        d.windowEnd := by
      intro d
      cases depositRead with
      | none => rfl
      | some dep => exact Deal.windowEnd_onlyIf (hset .resolving d)
    have hcancel := Deal.windowEnd_onlyIf (d := d.cancelBooking (cancellationReasonOf isBorrower))
      (c := depositRead.any (·.status == .pending)) (hset .cancelled _)
    exact (hrefund _).trans hcancel
  | expire => exact Deal.windowEnd_cancelPendingDeposit (d.cancelBooking _)
  | pay borrowerId amount key providerId hold =>
    cases hold with
    | none => rfl
    | some hold => exact hset .held d
  | complete => exact Deal.windowEnd_of_deposit (by simp [apply])
  | openDispute => exact hset .disputed d
  | resolve =>
    refine Eq.trans ?_ (hset .resolving d)
    exact Deal.windowEnd_of_deposit (by simp [apply])
  | autoRefund =>
    refine Eq.trans ?_ (hset .resolving d)
    exact Deal.windowEnd_of_deposit (by simp [apply])
  | retry | postpone | decline => rfl
  | settle o kind amount providerId now resolved =>
    refine Eq.trans ?_ (Deal.windowEnd_updateDeposit d
      (f := settleDeposit kind amount resolved) fun _ => rfl)
    exact Deal.windowEnd_of_deposit (by simp [apply])

/-- Only a confirmed act moves the window. -/
theorem DealMove.windowEnd_apply {m : DealMove}
    (hne : ∀ stage actorId confirmedAt endsAt completes,
      m ≠ .act (.confirmAct stage actorId confirmedAt endsAt completes)) (d : Deal) :
    (m.apply k d).windowEnd = d.windowEnd := by
  cases m with
  | act action =>
    exact Action.windowEnd_apply (fun _ _ _ _ _ h => hne _ _ _ _ _ (congrArg DealMove.act h)) d
  | compete lenderId =>
    have hcancel : (d.cancelIfPending .competingRequestConfirmed).windowEnd = d.windowEnd :=
      Deal.windowEnd_of_deposit (by simp [Deal.cancelIfPending])
    refine Eq.trans (Deal.windowEnd_of_deposit ?_)
      ((Deal.windowEnd_cancelPendingDeposit _).trans hcancel)
    simp [apply, Deal.compete]
  | idle | createAct | confirm | blocked | claim =>
    refine Deal.windowEnd_of_deposit ?_
    simp [apply, Deal.confirm, Deal.blocked, Deal.cancelIfPending, Deal.claim]

/-! ## The payment -/

/-- Only a checkout pays. -/
theorem DealMove.payment_apply {m : DealMove}
    (hne : ∀ borrowerId amount key charge hold, m ≠ .act (.pay borrowerId amount key charge hold))
    (d : Deal) : (m.apply k d).payment = d.payment := by
  cases m with
  | act action =>
    cases action with
    | pay => exact absurd rfl (hne _ _ _ _ _)
    | _ => simp [apply, Action.apply, Deal.cancelPendingDeposit]
  | _ =>
    simp [apply, Deal.confirm, Deal.compete, Deal.blocked, Deal.cancelIfPending,
      Deal.cancelPendingDeposit, Deal.claim]

/-! ## The announcement of a completion -/

/-- The completion was announced only if it happened. -/
def Deal.AnnouncesCompletion (d : Deal) : Prop :=
  .completed ∈ d.outbox → d.booking.status = .completed

namespace Deal.AnnouncesCompletion

theorem completeAfterReturn (h : d.AnnouncesCompletion) (trigger : BookingCompletionTrigger)
    (now : Time) : (d.completeAfterReturn trigger now).AnnouncesCompletion := by
  rcases d.completeAfterReturn_cases trigger now with ⟨he, -⟩ | ⟨-, -, he⟩
  · rw [he]
    exact h
  · rw [he]
    exact fun _ => rfl

theorem of_same {d' : Deal} (h : d.AnnouncesCompletion) (ho : d'.outbox = d.outbox)
    (hb : d'.booking = d.booking) : d'.AnnouncesCompletion := by
  unfold AnnouncesCompletion
  rw [ho, hb]
  exact h

/-- No completion was announced, and none is now. -/
theorem of_not_mem {d' : Deal} (h : .completed ∉ d'.outbox) : d'.AnnouncesCompletion :=
  fun hc => absurd hc h

end Deal.AnnouncesCompletion

theorem DealMove.announcesCompletion_apply {m : DealMove} (h : d.AnnouncesCompletion)
    (hg : m.guard k d w) : (m.apply k d).AnnouncesCompletion := by
  have hnone : d.booking.status ≠ .completed → .completed ∉ d.outbox := fun hs hc => hs (h hc)
  cases m with
  | idle | claim => exact h
  | createAct stage a => exact h.of_same (by simp [apply]) (by simp [apply])
  | confirm =>
    have hno := hnone (by simp [hg.1])
    refine .of_not_mem ?_
    simp only [apply, Deal.confirm, Deal.outbox_onlyIf]
    split <;> simp [hno]
  | compete =>
    have hno := hnone hg.status_ne.2.2.2
    refine .of_not_mem ?_
    simp only [apply, Deal.compete, Deal.outbox_onlyIf, Deal.cancelPendingDeposit,
      Deal.cancelIfPending]
    split <;> simp [hno]
  | blocked =>
    have hno := hnone hg.status_ne.2.2.2
    refine .of_not_mem ?_
    simp [apply, Deal.blocked, Deal.cancelIfPending, hno]
  | act action =>
    cases action with
    | cancel actorId isBorrower statusRead depositRead refundId dbNow =>
      have hno : .completed ∉ d.outbox := by
        obtain ⟨-, -, ⟨-, hu, -⟩ | ⟨-, hs, -⟩⟩ := hg
        · exact hnone hu.status_ne.2.2.2
        · exact hnone (by simp [hs])
      exact .of_not_mem (by simp [apply, Action.apply, hno])
    | expire now =>
      have hno : .completed ∉ d.outbox := by
        have he : BookingExpiryService.expired now d.booking = true := hg
        simp only [BookingExpiryService.expired, Bool.and_eq_true, beq_iff_eq] at he
        exact hnone (by simp [he.1])
      exact .of_not_mem (by simp [apply, Action.apply, Deal.cancelPendingDeposit, hno])
    | confirmAct stage actorId confirmedAt ends completes =>
      have hno : .completed ∉ d.outbox := by
        obtain ⟨-, -, hs, -⟩ := hg
        exact hnone (by rw [hs]; cases stage <;> simp [BookingActService.expectedStatus])
      have hnew : ∀ d' : Deal, d'.outbox = d.outbox ++ [BookingActService.confirmEvent stage] →
          d'.AnnouncesCompletion := by
        intro d' hd'
        refine .of_not_mem ?_
        rw [hd']
        cases stage <;> simp [hno, BookingActService.confirmEvent]
      simp only [apply, Action.apply]
      cases completes with
      | false => exact hnew _ (by simp)
      | true => exact (hnew _ (by simp)).completeAfterReturn _ _
    | pay => exact h.of_same (by simp [apply, Action.apply]) (by simp [apply, Action.apply])
    | complete => exact h.completeAfterReturn _ _
    | openDispute => exact h
    | resolve =>
      simp only [apply, Action.apply]
      exact Deal.AnnouncesCompletion.completeAfterReturn (h.of_same (by simp) (by simp)) _ _
    | autoRefund =>
      simp only [apply, Action.apply]
      exact Deal.AnnouncesCompletion.completeAfterReturn (h.of_same (by simp) (by simp)) _ _
    | retry | postpone | decline => exact h
    | settle o kind amount providerId now resolved =>
      simp only [apply, Action.apply]
      cases resolved with
      | false => exact h
      | true => exact Deal.AnnouncesCompletion.completeAfterReturn (h.of_same (by simp) (by simp)) _ _

end Sosedi
