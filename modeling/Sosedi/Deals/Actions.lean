import Sosedi.Services.UsersService

/-!
# What a transaction does to one deal

`Action.apply` is the effect of a committed transaction on the rows of its deal, and
`Action.guard` what the deal satisfies at the moment of the commit.  Both are stated on
the deal as it is then, not as the transaction read it.
-/

namespace Sosedi

open DepositOperationProcessor

namespace Deal

variable (d : Deal)

/-- `f` if `c` holds. -/
def onlyIf (c : Bool) (f : Deal → Deal) (d : Deal) : Deal := if c then f d else d

/-- A request that some confirmation may still cancel: nothing was paid for it. -/
structure Unpaid : Prop where
  status : d.booking.status = .pending ∨ d.booking.status = .cancelled
  operations : d.operations = .empty
  deposit : ∀ dep, d.deposit = some dep → dep.status = .pending ∨ dep.status = .cancelled
  payment : d.payment = none
  dispute : d.dispute = none
  handoverAct : d.handoverAct = none
  returnAct : d.returnAct = none

/-! ## Effects -/

def completeAfterReturn (trigger : BookingCompletionTrigger) (now : Time) : Deal :=
  match completionCheck trigger now d.booking d.deposit d.dispute with
  | .ok true =>
    d.setStatus .completed |>.addTransition (completeTransition trigger) |>.addOutbox .completed
  | _ => d

/-- The completion does not throw. -/
def CompletionReturns (trigger : BookingCompletionTrigger) (now : Time) : Prop :=
  ∃ r, completionCheck trigger now d.booking d.deposit d.dispute = .ok r

def confirm (lenderId : Id) : Deal :=
  d.updateBooking
      ({ · with status := .confirmed, cancellationReason := none, expiresAt := none })
    |>.addMessage "Владелец подтвердил заявку."
    |>.addTransition (BookingService.confirmTransition lenderId)
    |> fun d => d.onlyIf (!d.outbox.contains .confirmed) (addOutbox .confirmed)

/-- The guarded updates of a cancellation. -/
def cancelIfPending (reason : CancellationReason) : Deal :=
  d.onlyIf (d.booking.status == .pending) (cancelBooking reason)

def cancelPendingDeposit : Deal :=
  d.onlyIf (d.deposit.any (·.status == .pending)) (setDepositStatus .cancelled)

/-- A request that loses to a confirmed one; the rows are written whatever the guarded
updates matched. -/
def compete (lenderId : Id) : Deal :=
  d.cancelIfPending .competingRequestConfirmed
    |>.cancelPendingDeposit
    |>.addMessage "Владелец подтвердил другую заявку на эти даты."
    |>.addTransition (BookingService.competingTransition lenderId)
    |> fun d => d.onlyIf (!d.outbox.contains .competingCancelled) (addOutbox .competingCancelled)

/-- A request between two users of whom one blocked the other. -/
def blocked (blockerId : Id) : Deal :=
  d.cancelIfPending .participantBlocked
    |>.addMessage "Один из участников заблокировал другого. Заявка отменена."
    |>.addTransition (UsersService.blockTransition blockerId)
    |>.addOutbox .cancelled

def claim (operationId : Id) (processingUntil : Time) : Deal :=
  d.updateOperation operationId (claimUpdate processingUntil)

end Deal

def cancellationReasonOf (isBorrower : Bool) : CancellationReason :=
  if isBorrower then .borrowerCancelled else .lenderDeclined

namespace Action

/-- The refund that a cancellation before handover creates. -/
def preHandoverRefund (depositRead : Option BookingDeposit) (refundId : Id) (dbNow : Time)
    (d : Deal) : Deal :=
  match depositRead with
  | none => d
  | some dep => d.onlyIf (dep.status == .held) fun d =>
    d.setDepositStatus .resolving |>.createOperation refundId
      (.create .refund dep.amount .preHandoverRefund none dbNow dbNow)

def payHold (hold : Option HoldData) (d : Deal) : Deal :=
  match hold with
  | none => d
  | some hold =>
    d.setDepositStatus .held
      |>.createOperation hold.operationId (DepositService.holdOperation hold)

def openWindow (disputeWindowEndsAt : Option Time) (d : Deal) : Deal :=
  match disputeWindowEndsAt with
  | none => d
  | some endsAt => d.updateDeposit ({ · with disputeWindowEndsAt := some endsAt })

def createLeg (operationId : Id) (kind : DepositOperationKind) (amountMinor : Int)
    (commandKey : String) (now dbNow : Time) (d : Deal) : Deal :=
  d.onlyIf (amountMinor != 0) (Deal.createOperation operationId
    (.create kind (minorToDecimal amountMinor) (.resolve commandKey kind) none now dbNow))

def apply (id : Id) : Action → Deal → Deal
  | cancel actorId isBorrower statusRead depositRead refundId dbNow, d =>
    d.cancelBooking (cancellationReasonOf isBorrower)
      |>.onlyIf (depositRead.any (·.status == .pending)) (Deal.setDepositStatus .cancelled)
      |> preHandoverRefund depositRead refundId dbNow
      |>.addMessage
        (if isBorrower then "Арендатор отменил заявку." else "Владелец отклонил заявку.")
      |>.addTransition (BookingService.cancelTransition actorId isBorrower statusRead)
      |>.addOutbox .cancelled
  | expire _, d =>
    d.cancelBooking .pendingTimeout
      |>.cancelPendingDeposit
      |>.addMessage "Время ответа владельца истекло. Заявка отменена."
      |>.addTransition BookingExpiryService.expireTransition
      |>.addOutbox .pendingTimeout
  | confirmAct stage actorId confirmedAt disputeWindowEndsAt completes, d =>
    d.setAct stage ((d.act stage).map
        ({ · with confirmedById := some actorId, confirmedAt := some confirmedAt }))
      |> openWindow disputeWindowEndsAt
      |>.setStatus (BookingActService.nextStatus stage)
      |>.addMessage (BookingActService.confirmMessage stage)
      |>.addTransition (BookingActService.confirmTransition stage actorId)
      |>.addOutbox (BookingActService.confirmEvent stage)
      |>.onlyIf completes (Deal.completeAfterReturn · .zeroDepositReturn confirmedAt)
  | pay borrowerId amountMinor _ providerOperationId hold, d =>
    payHold hold { d with
      payment := some ⟨borrowerId, minorToDecimal amountMinor, .succeeded, providerOperationId⟩ }
  | complete now, d => d.completeAfterReturn .depositSettled now
  | openDispute dispute, d =>
    { d with dispute := some dispute }.setDepositStatus .disputed
  | resolve adminId reason refundMinor releaseMinor commandKey refundId releaseId now dbNow, d =>
    d |> createLeg refundId .refund refundMinor commandKey now dbNow
      |> createLeg releaseId .releaseToLender releaseMinor commandKey now dbNow
      |>.setDepositStatus .resolving
      |>.updateDispute (DisputeService.decision adminId reason refundMinor releaseMinor now)
      |>.addAudit (DisputeService.resolvedAudit adminId id reason)
      |>.completeAfterReturn .disputeDecided now
  | autoRefund amount operationId now dbNow, d =>
    d.createOperation operationId (.create .refund amount .autoRefund none now dbNow)
      |>.setDepositStatus .resolving
      |>.completeAfterReturn .disputeWindowClosed now
  | retry adminId operationId operation commandKey retryId now dbNow, d =>
    d.createOperation retryId (.create operation.kind operation.amount
        (.retry operationId commandKey) (some operationId) now dbNow)
      |>.addAudit ⟨some adminId, "DEPOSIT_OPERATION_RETRY_CREATED", "DepositOperation",
        some retryId, none⟩
  | postpone operationId nextAttemptAt, d =>
    d.updateOperation operationId (postponeUpdate nextAttemptAt)
  | decline operationId errorCode now, d =>
    d.updateOperation operationId (declineUpdate errorCode now)
      |>.addAudit ⟨none, "DEPOSIT_OPERATION_PROVIDER_DECLINED", "DepositOperation",
        some operationId, some errorCode⟩
  | settle operationId kind amount providerOperationId now resolved, d =>
    d.updateOperation operationId (settleUpdate providerOperationId now)
      |>.updateDeposit (settleDeposit kind amount resolved)
      |>.onlyIf resolved (Deal.completeAfterReturn · .depositSettled now)

/-! ## Guards -/

/-- A leg of the decision has a successful operation, or nothing to pay. -/
def LegSettled (kind : DepositOperationKind) (amount : Decimal) (d : Deal) : Prop :=
  amount.minor = 0 ∨ ∃ o op, d.operations.get o = some op ∧ op.kind = kind ∧
    op.amount = amount ∧ op.status = .succeeded

/-- A new operation violates no unique constraint. -/
structure Fresh (d : Deal) (id : Id) (key : OperationKey) : Prop where
  id : d.operations.get id = none
  key : d.hasOperationKey key = false

/-- The booking runs under safe-deal terms. -/
def FakeTerms (d : Deal) (snapshot : BookingTermsSnapshot) : Prop :=
  d.booking.boundSnapshot = some snapshot ∧ snapshot.paymentScenario = .fakeSafeDeal

def guard (id : Id) : Action → Deal → World → Prop
  | cancel actorId isBorrower statusRead depositRead refundId _, d, _ =>
    d.booking.hasParticipant actorId ∧ isBorrower = (d.booking.borrowerId == actorId) ∧
      (statusRead = .pending ∧ d.Unpaid ∧ (∀ dep, depositRead = some dep → dep.status ≠ .held) ∧
          (depositRead.any (·.status == .pending) = false →
            d.deposit.any (·.status == .pending) = false) ∨
        statusRead = .confirmed ∧ d.booking.status = .confirmed ∧
          (∃ snapshot, FakeTerms d snapshot) ∧ d.deposit = depositRead ∧
          (∀ dep, depositRead = some dep → dep.status = .pending ∨
            dep.status = .held ∧ Fresh d refundId .preHandoverRefund))
  | expire now, d, _ => BookingExpiryService.expired now d.booking
  | confirmAct stage actorId confirmedAt disputeWindowEndsAt completes, d, _ =>
    (∃ act, d.act stage = some act ∧ act.confirmedAt = none ∧ act.authorId ≠ actorId) ∧
      d.booking.hasParticipant actorId ∧
      d.booking.status = BookingActService.expectedStatus stage ∧
      (d.booking.termsSnapshot.isSome → d.booking.boundSnapshot.isSome) ∧
      BookingActService.ensureHandoverPaid stage d.booking.boundSnapshot d.payment d.deposit =
        .ok () ∧
      disputeWindowEndsAt = BookingActService.disputeWindowEnd stage d.booking.boundSnapshot
        d.deposit confirmedAt ∧
      completes = BookingActService.completesAtReturn stage d.booking.boundSnapshot ∧
      (completes → d.deposit = none ∧ d.dispute = none)
  | pay borrowerId amountMinor idempotencyKey providerOperationId hold, d, w =>
    d.booking.borrowerId = borrowerId ∧ d.booking.status = .confirmed ∧ d.payment = none ∧
      (∃ snapshot, FakeTerms d snapshot ∧ amountMinor = snapshot.moneyMinor.total ∧
        DepositService.ensureDepositMatches snapshot d.deposit = .ok () ∧
        (hold.isSome ↔ d.deposit.isSome) ∧
        ∀ h, hold = some h → h.amountMinor = snapshot.moneyMinor.deposit ∧
          Fresh d h.operationId .hold) ∧
      ∃ outcome, w.provider.get idempotencyKey =
        some ⟨.checkout idempotencyKey id amountMinor outcome, .succeeded providerOperationId⟩
  | complete now, d, _ =>
    completionCheck .depositSettled now d.booking d.deposit d.dispute = .ok true
  | openDispute dispute, d, _ =>
    d.booking.status = .returned ∧ d.dispute = none ∧ dispute.status = .opened ∧
      dispute.refundToBorrowerAmount.minor = 0 ∧ dispute.releaseToLenderAmount.minor = 0 ∧
      ∃ dep endsAt, d.deposit = some dep ∧ dep.status = .held ∧
        dep.disputeWindowEndsAt = some endsAt ∧ dispute.openedAt < endsAt
  | resolve _ _ refundMinor releaseMinor commandKey refundId releaseId _ _, d, _ =>
    (∃ dispute, d.dispute = some dispute ∧ dispute.status = .opened) ∧
      d.booking.status = .returned ∧ 0 ≤ refundMinor ∧ 0 ≤ releaseMinor ∧
      (∃ dep, d.deposit = some dep ∧ dep.status = .disputed ∧
        refundMinor + releaseMinor = dep.amount.minor) ∧
      (refundMinor ≠ 0 → Fresh d refundId (.resolve commandKey .refund)) ∧
      (releaseMinor ≠ 0 → Fresh d releaseId (.resolve commandKey .releaseToLender)) ∧
      (refundMinor ≠ 0 → releaseMinor ≠ 0 → refundId ≠ releaseId)
  | autoRefund amount operationId now _, d, _ =>
    d.booking.status = .returned ∧ d.dispute = none ∧ Fresh d operationId .autoRefund ∧
      ∃ dep, d.deposit = some dep ∧ DepositDeadlineService.due now dep ∧ dep.amount = amount
  | retry _ operationId operation commandKey retryId _ _, d, _ =>
    (∃ op, d.operations.get operationId = some op ∧ op.kind = operation.kind ∧
        op.amount = operation.amount ∧ op.status = .failed) ∧
      DepositService.retryable operation d.deposit d.dispute ∧
      (d.operations.any fun _ op => op.retryOfId == some operationId) = false ∧
      Fresh d retryId (.retry operationId commandKey)
  | postpone operationId _, d, _ =>
    ∃ op, d.operations.get operationId = some op ∧ op.status = .pending
  | decline operationId _ _, d, _ =>
    ∃ op, d.operations.get operationId = some op ∧ op.status = .pending
  | settle operationId kind amount providerOperationId now resolved, d, _ =>
    (∃ op, d.operations.get operationId = some op ∧ op.status = .pending ∧ op.kind = kind ∧
        op.amount = amount) ∧
      (kind = .refund ∨ kind = .releaseToLender) ∧
      ∃ dep, d.deposit = some dep ∧ dep.status = .resolving ∧
        nextTotal amount dep ≤ dep.amount.minor ∧
        (resolved → nextTotal amount dep = dep.amount.minor ∧
          (∀ dispute, d.dispute = some dispute → dispute.status ≠ .opened →
            LegSettled .refund dispute.refundToBorrowerAmount
                (d.updateOperation operationId (settleUpdate providerOperationId now)) ∧
              LegSettled .releaseToLender dispute.releaseToLenderAmount
                (d.updateOperation operationId (settleUpdate providerOperationId now)))) ∧
        (¬resolved → nextTotal amount dep = dep.amount.minor →
          ∃ dispute, d.dispute = some dispute ∧ dispute.status ≠ .opened ∧
            ¬(LegSettled .refund dispute.refundToBorrowerAmount
                (d.updateOperation operationId (settleUpdate providerOperationId now)) ∧
              LegSettled .releaseToLender dispute.releaseToLenderAmount
                (d.updateOperation operationId (settleUpdate providerOperationId now))))

/-- The action updates the booking row. -/
def writesBooking : Action → Bool
  | cancel .. | expire .. | confirmAct .. => true
  | _ => false

/-- The operation whose row the action updates. -/
def operationId : Action → Option Id
  | postpone o _ | decline o _ _ | settle o _ _ _ _ _ => some o
  | _ => none

end Action

end Sosedi
