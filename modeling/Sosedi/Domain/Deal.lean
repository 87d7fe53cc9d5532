import Sosedi.Domain.BookingPeriod
import Sosedi.Domain.BookingTerms
import Sosedi.Domain.Provider

/-!
# The records of a deal

A deal is a booking with every row that hangs on it: its deposit and the operations on
the deposit, the dispute, the payment, the two acts, the messages, the transition history
and the outbox events.  A booking has at most one deposit, dispute and payment, and at
most one act for each stage, so those rows are addressed by their booking.
-/

namespace Sosedi

/-! ## Workflow -/

inductive BookingStatus where
  | pending
  | confirmed
  | active
  | returned
  | completed
  | cancelled
  deriving DecidableEq

/-- `CONFIRMED`, `ACTIVE` and `RETURNED` bookings occupy their dates. -/
def BookingStatus.reserves : BookingStatus → Bool
  | confirmed | active | returned => true
  | _ => false

structure WorkflowTransition where
  command : String
  source : BookingStatus
  target : BookingStatus
  deriving DecidableEq

/-- `WORKFLOW_CONTRACTS.booking.transitions`. -/
def bookingTransitions : List WorkflowTransition :=
  [ ⟨"confirm", .pending, .confirmed⟩, ⟨"cancel", .pending, .cancelled⟩,
    ⟨"expire", .pending, .cancelled⟩, ⟨"cancel", .confirmed, .cancelled⟩,
    ⟨"activate", .confirmed, .active⟩, ⟨"return", .active, .returned⟩,
    ⟨"complete", .returned, .completed⟩ ]

inductive DepositStatus where
  | pending
  | held
  | disputed
  | resolving
  | resolved
  | cancelled
  deriving DecidableEq

inductive CancellationReason where
  | competingRequestConfirmed
  | borrowerCancelled
  | lenderDeclined
  | pendingTimeout
  | participantBlocked
  deriving DecidableEq

/-! ## Rows -/

structure Booking where
  itemId : Id
  borrowerId : Id
  lenderId : Id
  clientRequestId : String
  clientRequestHash : String
  startDate : Time
  endDate : Time
  totalAmount : Decimal
  status : BookingStatus
  expiresAt : Option Time
  cancellationReason : Option CancellationReason
  termsSnapshot : Option BookingTermsSnapshot
  createdAt : Time
  deriving DecidableEq

structure BookingDeposit where
  amount : Decimal
  currency : String
  policyVersion : String
  disputeWindowSeconds : Int
  status : DepositStatus
  disputeWindowEndsAt : Option Time
  refundedAmount : Decimal
  releasedToLenderAmount : Decimal
  deriving DecidableEq

inductive DepositOperationStatus where
  | pending
  | succeeded
  | failed
  deriving DecidableEq

/-- The idempotency key of an operation; `text` is the string of the source. -/
inductive OperationKey where
  | hold
  | preHandoverRefund
  | autoRefund
  | resolve (commandKey : String) (kind : DepositOperationKind)
  | retry (operationId : Id) (commandKey : String)
  deriving DecidableEq

def OperationKey.text (bookingId : Id) : OperationKey → String
  | hold => "deposit:" ++ toString bookingId ++ ":hold"
  | preHandoverRefund => "deposit:" ++ toString bookingId ++ ":pre-handover-refund"
  | autoRefund => "deposit:" ++ toString bookingId ++ ":auto-refund"
  | resolve commandKey kind =>
    "dispute:" ++ toString bookingId ++ ":resolve:" ++ commandKey ++ ":" ++
      (if kind = .refund then "refund" else "release-to-lender")
  | retry operationId commandKey =>
    "deposit-operation:" ++ toString bookingId ++ "/" ++ toString operationId ++ ":retry:" ++
      commandKey

structure DepositOperation where
  kind : DepositOperationKind
  amount : Decimal
  status : DepositOperationStatus
  idempotencyKey : OperationKey
  providerOperationId : Option String
  retryOfId : Option Id
  providerErrorCode : Option String
  attempts : Nat
  nextAttemptAt : Time
  processingUntil : Option Time
  completedAt : Option Time
  createdAt : Time
  deriving DecidableEq

/-- A row as an INSERT makes it: `PENDING`, no attempts, no lease. -/
def DepositOperation.create (kind : DepositOperationKind) (amount : Decimal)
    (idempotencyKey : OperationKey) (retryOfId : Option Id) (nextAttemptAt createdAt : Time) :
    DepositOperation where
  kind
  amount
  status := .pending
  idempotencyKey
  providerOperationId := none
  retryOfId
  providerErrorCode := none
  attempts := 0
  nextAttemptAt
  processingUntil := none
  completedAt := none
  createdAt

inductive DisputeStatus where
  | opened
  | underReview
  | resolved
  deriving DecidableEq

inductive FinancialDisputeReason where
  | itemDamaged
  | itemLost
  | other
  deriving DecidableEq

structure FinancialDispute where
  openedById : Id
  resolvedById : Option Id
  reason : FinancialDisputeReason
  description : Option String
  status : DisputeStatus
  decisionReason : Option String
  refundToBorrowerAmount : Decimal
  releaseToLenderAmount : Decimal
  openedAt : Time
  resolvedAt : Option Time
  deriving DecidableEq

inductive PaymentStatus where
  | pending
  | succeeded
  | failed
  | cancelled
  deriving DecidableEq

structure Payment where
  userId : Id
  amount : Decimal
  status : PaymentStatus
  yookassaPaymentId : Option String
  deriving DecidableEq

inductive BookingActStage where
  | handover
  | return
  deriving DecidableEq

structure Readiness where
  isWorking : Bool
  isComplete : Bool
  visibleDefects : String
  deriving DecidableEq

structure BookingAct where
  authorId : Id
  readiness : Option Readiness
  readinessDeclaredAt : Option Time
  confirmedById : Option Id
  confirmedAt : Option Time
  deriving DecidableEq

/-- A message that a service writes; its author role is `SYSTEM`. -/
structure BookingMessage where
  body : String
  deriving DecidableEq

inductive ActorType where
  | borrower
  | lender
  | participant
  | handoverConfirmer
  | returnConfirmer
  | system
  deriving DecidableEq

inductive TransitionCommand where
  | create
  | confirm
  | cancelCompeting
  | cancel
  | expire
  | blockCounterparty
  | confirmHandover
  | confirmReturn
  | completeAfterReturn
  | completeAfterDisputeWindow
  | completeAfterDisputeDecision
  | completeAfterDepositSettled
  deriving DecidableEq

/-- A row of the transition history. -/
structure BookingTransition where
  actorId : Option Id
  actorType : ActorType
  command : TransitionCommand
  oldStatus : Option BookingStatus
  newStatus : BookingStatus
  reason : Option CancellationReason
  deriving DecidableEq

inductive BookingEventType where
  | created
  | confirmed
  | cancelled
  | competingCancelled
  | handoverConfirmed
  | returnConfirmed
  | completed
  | pendingTimeout
  deriving DecidableEq

structure AuditEntry where
  adminId : Option Id
  action : String
  entityType : String
  entityId : Option Id
  reason : Option String
  deriving DecidableEq

/-! ## Deals -/

structure Deal where
  booking : Booking
  deposit : Option BookingDeposit
  operations : Table Id DepositOperation
  dispute : Option FinancialDispute
  payment : Option Payment
  handoverAct : Option BookingAct
  returnAct : Option BookingAct
  messages : List BookingMessage
  history : List BookingTransition
  outbox : List BookingEventType
  auditLog : List AuditEntry

namespace Deal

def act (d : Deal) : BookingActStage → Option BookingAct
  | .handover => d.handoverAct
  | .return => d.returnAct

def setAct (stage : BookingActStage) (a : Option BookingAct) (d : Deal) : Deal :=
  match stage with
  | .handover => { d with handoverAct := a }
  | .return => { d with returnAct := a }

/-! Updates of one row, as the statements of the services make them. -/

@[simp] def updateBooking (f : Booking → Booking) (d : Deal) : Deal := { d with booking := f d.booking }

@[simp] def setStatus (status : BookingStatus) : Deal → Deal := updateBooking ({ · with status })

/-- The columns that every cancellation writes. -/
@[simp] def cancelBooking (reason : CancellationReason) : Deal → Deal :=
  updateBooking
    ({ · with status := .cancelled, cancellationReason := some reason, expiresAt := none })

@[simp] def updateDeposit (f : BookingDeposit → BookingDeposit) (d : Deal) : Deal :=
  { d with deposit := d.deposit.map f }

@[simp] def setDepositStatus (status : DepositStatus) : Deal → Deal :=
  updateDeposit ({ · with status })

@[simp] def createOperation (id : Id) (operation : DepositOperation) (d : Deal) : Deal :=
  { d with operations := d.operations.insert id operation }

@[simp] def updateOperation (id : Id) (f : DepositOperation → DepositOperation) (d : Deal) : Deal :=
  { d with operations := d.operations.modify id f }

@[simp] def updateDispute (f : FinancialDispute → FinancialDispute) (d : Deal) : Deal :=
  { d with dispute := d.dispute.map f }

@[simp] def addMessage (body : String) (d : Deal) : Deal :=
  { d with messages := d.messages ++ [⟨body⟩] }

@[simp] def addTransition (row : BookingTransition) (d : Deal) : Deal :=
  { d with history := d.history ++ [row] }

@[simp] def addOutbox (eventType : BookingEventType) (d : Deal) : Deal :=
  { d with outbox := d.outbox ++ [eventType] }

@[simp] def addAudit (entry : AuditEntry) (d : Deal) : Deal :=
  { d with auditLog := d.auditLog ++ [entry] }

/-- An operation of this deal has the key. -/
def hasOperationKey (d : Deal) (key : OperationKey) : Bool :=
  d.operations.any fun _ op => op.idempotencyKey == key

end Deal

/-- The rental days of the stored dates. -/
def Booking.days (booking : Booking) : Int :=
  differenceInDays booking.startDate booking.endDate + 1

/-- The snapshot of a booking row, bound to that row. -/
def Booking.boundSnapshot (booking : Booking) : Option BookingTermsSnapshot :=
  readBoundBookingTermsSnapshot booking.termsSnapshot
    { borrowerId := booking.borrowerId
      lenderId := booking.lenderId
      days := booking.days
      totalAmount := booking.totalAmount.toNumber }

/-- The columns that never change: all but status, expiry and cancellation reason. -/
def Booking.terms (booking : Booking) : Booking :=
  { booking with status := .pending, expiresAt := none, cancellationReason := none }

def Booking.hasParticipant (booking : Booking) (actorId : Id) : Bool :=
  booking.borrowerId == actorId || booking.lenderId == actorId

end Sosedi
