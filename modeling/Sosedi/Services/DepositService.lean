import Sosedi.Services.BookingActService

/-!
# Payments, deposits and disputes

`DepositService`, the operation worker, the deadline job and `DisputeService`.  The worker
sees the provider through `deliver`, which may replace any answer: a lost connection, a
decline, a late success.
-/

namespace Sosedi

open Transactions

/-- `idempotencyKey.trim()`, which must not be empty. -/
def requireCommandKey (idempotencyKey : String) : Except Error String :=
  if isNonEmptyString idempotencyKey then .ok (trim idempotencyKey)
  else .error (.badRequest "Idempotency-Key обязателен")

/-- One request to the provider. -/
def callProvider (sha256 : Bytes → String) (bookingId : Id) (request : ProviderRequest) :
    Prog Sys (Except Error ProviderOperationResult) :=
  call (.provider bookingId request)
    (fun w => { w with provider := (FakeSafeDealProvider.execute sha256 w.provider request).2 })
    (fun w => (FakeSafeDealProvider.execute sha256 w.provider request).1)

namespace DepositService

/-! ## Checkout -/

/-- A replay after a committed payment. -/
def repeatedCheckout (borrowerId : Id) (amountMinor : Int) (payment : Payment)
    (deposit : Option BookingDeposit) : Except Error ProviderOperationResult := do
  ensure (payment.userId == borrowerId && payment.status == .succeeded &&
      decimalToMinor payment.amount == amountMinor && payment.yookassaPaymentId.any (· != ""))
    (.conflict "Payment state conflicts with checkout")
  ensure (!deposit.any (·.status != .held)) (.conflict "Deposit state conflicts with checkout")
  match payment.yookassaPaymentId with
  | some id => .ok (.succeeded id)
  | none => .error (.conflict "Payment state conflicts with checkout")

/-- The deposit row must be the one of the snapshot. -/
def ensureDepositMatches (snapshot : BookingTermsSnapshot) (deposit : Option BookingDeposit) :
    Except Error Unit := do
  if snapshot.moneyMinor.deposit > 0 then
    match deposit with
    | none => .error (.conflict "Deposit state conflicts with snapshot")
    | some deposit =>
      ensure (deposit.status == .pending && deposit.currency == "RUB")
        (.conflict "Deposit state conflicts with snapshot")
      let amount ← minorToSafeNumber (decimalToMinor deposit.amount)
      ensure (amount == snapshot.moneyMinor.deposit)
        (.conflict "Deposit state conflicts with snapshot")
  ensure (!(snapshot.moneyMinor.deposit == 0 && deposit.isSome))
    (.conflict "Unexpected deposit for zero-deposit booking")

def holdOperation (hold : HoldData) : DepositOperation where
  kind := .hold
  amount := minorToDecimal hold.amountMinor
  status := .succeeded
  idempotencyKey := .hold
  providerOperationId := some hold.providerOperationId
  retryOfId := none
  providerErrorCode := none
  attempts := 1
  nextAttemptAt := hold.completedAt
  processingUntil := none
  completedAt := some hold.completedAt
  createdAt := hold.createdAt

/-- Ask the provider for the hold; `none` when the booking has no deposit. -/
def requestHold (sha256 : Bytes → String) (bookingId : Id) (snapshot : BookingTermsSnapshot)
    (deposit : Option BookingDeposit) : Prog Sys (Option String) := do
  if deposit.isNone then pure none
  else do
    let hold ← callProvider sha256 bookingId (.deposit (OperationKey.text bookingId .hold)
      bookingId .hold snapshot.moneyMinor.deposit .success)
    let hold ← lift hold
    match hold with
    | .succeeded providerOperationId => pure (some providerOperationId)
    | _ => throwing (.conflict "Fake deposit hold did not succeed")

/-- The inserts of a first successful checkout. -/
def insertPayment (bookingId borrowerId : Id) (amountMinor : Int) (providerOperationId : String)
    (hold : Option HoldData) : Prog Sys Unit := do
  insertUnique [.paymentRow bookingId] (fun db => (db.payment bookingId).isSome)
    (.internal "Unique constraint failed: payments")
    (Database.modifyDeal bookingId fun d => { d with
      payment := some ⟨borrowerId, minorToDecimal amountMinor, .succeeded, providerOperationId⟩ })
  match hold with
  | none => pure ()
  | some hold =>
    onDeal [.depositRow bookingId] bookingId (Deal.setDepositStatus .held)
    createOperation bookingId hold.operationId (holdOperation hold)

/-- `holdId` is the fresh id of the hold operation, `completedAt` and `dbNow` its clocks. -/
def checkout (sha256 : Bytes → String) (env : Env) (borrowerId bookingId : Id)
    (outcome : FakeOperationOutcome) (idempotencyKey : String) (holdId : Id)
    (completedAt dbNow : Time) : Prog Sys ProviderOperationResult := do
  lift env.policy.requireFakeSafeDeal
  lift (ensure (isNonEmptyString idempotencyKey) (.badRequest "Idempotency-Key обязателен"))
  acquire (.booking bookingId)
  let booking ← select (·.booking bookingId)
  let payment ← select (·.payment bookingId)
  let deposit ← select (·.deposit bookingId)
  let booking ← lift (required (booking.filter (·.borrowerId == borrowerId))
    (.notFound "Бронирование не найдено"))
  lift (ensure (booking.status == .confirmed)
    (.conflictCode "INVALID_BOOKING_TRANSITION"
      "Тестовая оплата доступна только подтверждённой брони"))
  let snapshot ← lift (required
    (booking.boundSnapshot.filter (·.paymentScenario == .fakeSafeDeal))
    (.conflictCode "INVALID_BOOKING_PAYMENT_TERMS"
      "Условия тестовой оплаты недействительны"))
  let amountMinor := snapshot.moneyMinor.total
  let result ← callProvider sha256 bookingId
    (.checkout idempotencyKey bookingId amountMinor outcome)
  let result ← lift result
  match result with
  | .succeeded providerOperationId =>
    match payment with
    | some payment =>
      let result ← lift (repeatedCheckout borrowerId amountMinor payment deposit)
      commit .noop
      pure result
    | none =>
      lift (ensureDepositMatches snapshot deposit)
      let holdOperationId ← requestHold sha256 bookingId snapshot deposit
      let hold := holdOperationId.map fun id =>
        (⟨holdId, snapshot.moneyMinor.deposit, id, completedAt, dbNow⟩ : HoldData)
      insertPayment bookingId borrowerId amountMinor providerOperationId hold
      commit (.deal bookingId
        (.pay borrowerId amountMinor idempotencyKey providerOperationId hold))
      pure (.succeeded providerOperationId)
  | other => do
    commit .noop
    pure other

/-! ## Completion and retries -/

def completeAfterDepositSettled (bookingId : Id) (now : Time) : Prog Sys Nat := do
  acquire (.booking bookingId)
  let completed ← completeBookingAfterReturnInTransaction bookingId now .depositSettled
  commit (if completed = 1 then .deal bookingId (.complete now) else .noop)
  pure completed

structure DepositOperationCommandResponse where
  bookingId : Id
  id : Id
  kind : DepositOperationKind
  amountMinor : Int
  status : DepositOperationStatus
  retryOfId : Option Id

def toOperationResponse (bookingId id : Id) (operation : DepositOperation) :
    Except Error DepositOperationCommandResponse := do
  let amountMinor ← minorToSafeNumber (decimalToMinor operation.amount)
  pure { bookingId, id, kind := operation.kind, amountMinor, status := operation.status,
         retryOfId := operation.retryOfId }

/-- The leg of the dispute decision for a kind of operation. -/
def requiredAmount (kind : DepositOperationKind) (dispute : Option FinancialDispute) :
    Option Decimal :=
  match kind with
  | .refund => dispute.map (·.refundToBorrowerAmount)
  | .releaseToLender => dispute.map (·.releaseToLenderAmount)
  | _ => none

/-- A failed operation that may be retried. -/
def retryable (operation : DepositOperation) (deposit : Option BookingDeposit)
    (dispute : Option FinancialDispute) : Bool :=
  operation.status == .failed && deposit.any (·.status == .resolving) &&
    dispute.any (fun d => d.status == .underReview || d.status == .resolved) &&
    (requiredAmount operation.kind dispute).any fun amount =>
      decide (0 < decimalToMinor amount) &&
        decimalToMinor amount == decimalToMinor operation.amount

def operationByKey (db : Database) (bookingId : Id) (key : OperationKey) :
    Option (Id × DepositOperation) :=
  (db.deals.get bookingId).bind fun d =>
    d.operations.rows.find? fun r => r.2.idempotencyKey == key

/-- An operation is addressed by its booking and its own id; `retryId` is the fresh id. -/
def retryFailedOperation (env : Env) (adminId bookingId operationId : Id)
    (idempotencyKey : String) (now dbNow : Time) (retryId : Id) :
    Prog Sys DepositOperationCommandResponse := do
  lift env.policy.requireFakeSafeDeal
  let commandKey ← lift (requireCommandKey idempotencyKey)
  let target ← select (·.operation bookingId operationId)
  let _ ← lift (required target (.notFound "Операция залога не найдена"))
  acquire (.booking bookingId)
  let operation ← select (·.operation bookingId operationId)
  let operation ← lift (required operation (.notFound "Операция залога не найдена"))
  let deposit ← select (·.deposit bookingId)
  let dispute ← select (·.dispute bookingId)
  let retryKey := OperationKey.retry operationId commandKey
  let existing ← select (operationByKey · bookingId retryKey)
  match existing with
  | some (existingId, existing) =>
    lift (ensure (existing.retryOfId == some operationId && existing.kind == operation.kind &&
        decimalToMinor existing.amount == decimalToMinor operation.amount)
      (.conflict "Idempotency-Key уже использован"))
    let response ← lift (toOperationResponse bookingId existingId existing)
    commit .noop
    pure response
  | none =>
    lift (ensure (retryable operation deposit dispute) (.conflict "Операцию нельзя повторить"))
    let anotherRetry ← select fun db => (db.deals.get bookingId).any fun d =>
      d.operations.any fun _ op => op.retryOfId == some operationId
    lift (ensure (!anotherRetry) (.conflict "Повтор уже создан"))
    let retry := DepositOperation.create operation.kind operation.amount retryKey
      (some operationId) now dbNow
    createOperation bookingId retryId retry
    onDeal [] bookingId (Deal.addAudit ⟨some adminId, "DEPOSIT_OPERATION_RETRY_CREATED",
      "DepositOperation", some retryId, none⟩)
    let response ← lift (toOperationResponse bookingId retryId retry)
    commit (.deal bookingId
      (.retry adminId operationId operation commandKey retryId now dbNow))
    pure response

end DepositService

/-! ## The operation worker -/

namespace DepositOperationProcessor

def operationBatchSize : Nat := 50

def operationLeaseMs : Int := 60 * 1000

def initialRetryMs : Int := 30 * 1000

def maxRetryMs : Int := 60 * 60 * 1000

/-- The WHERE clause of a claim. -/
def claimable (now : Time) (operation : DepositOperation) : Bool :=
  operation.status == .pending && operation.nextAttemptAt ≤ now &&
    operation.processingUntil.all (· ≤ now)

def claimUpdate (processingUntil : Time) (operation : DepositOperation) : DepositOperation :=
  { operation with
    processingUntil := some processingUntil
    attempts := operation.attempts + 1 }

/-- `INITIAL_RETRY_MS * 2 ** Math.min(Math.max(attempts - 1, 0), 10)`, at most an hour. -/
def retryDelay (attempts : Nat) : Int :=
  min (initialRetryMs * 2 ^ min (attempts - 1) 10) maxRetryMs

/-- The operation still waits under the lease of this worker. -/
def leased (processingUntil : Time) (operation : DepositOperation) : Bool :=
  operation.status == .pending && operation.processingUntil == some processingUntil

def leasedIn (bookingId operationId : Id) (processingUntil : Time) (db : Database) : Bool :=
  (db.operation bookingId operationId).any (leased processingUntil)

def onOperation (bookingId operationId : Id) (processingUntil : Time)
    (f : DepositOperation → DepositOperation) : Prog Sys Bool :=
  updateWhere (.operationRow bookingId operationId)
    (leasedIn bookingId operationId processingUntil)
    (Database.modifyDeal bookingId (Deal.updateOperation operationId f))

def postponeUpdate (nextAttemptAt : Time) (operation : DepositOperation) : DepositOperation :=
  { operation with processingUntil := none, nextAttemptAt }

def declineUpdate (errorCode : String) (now : Time) (operation : DepositOperation) :
    DepositOperation :=
  { operation with
    status := .failed
    processingUntil := none
    providerErrorCode := some errorCode
    completedAt := some now }

def settleUpdate (providerOperationId : String) (now : Time) (operation : DepositOperation) :
    DepositOperation :=
  { operation with
    status := .succeeded
    processingUntil := none
    providerOperationId := some providerOperationId
    providerErrorCode := none
    completedAt := some now }

/-- The totals after a success of `amount`, and the status that goes with them. -/
def settleDeposit (kind : DepositOperationKind) (amount : Decimal) (resolved : Bool)
    (deposit : BookingDeposit) : BookingDeposit :=
  { deposit with
    refundedAmount :=
      if kind = .refund then deposit.refundedAmount.increment amount else deposit.refundedAmount
    releasedToLenderAmount :=
      if kind = .releaseToLender then deposit.releasedToLenderAmount.increment amount
      else deposit.releasedToLenderAmount
    status := if resolved then .resolved else .resolving }

/-- `nextRefunded + nextReleased`. -/
def nextTotal (amount : Decimal) (deposit : BookingDeposit) : Int :=
  decimalToMinor deposit.refundedAmount + decimalToMinor deposit.releasedToLenderAmount +
    decimalToMinor amount

/-- A leg of the decision without an operation, or with a successful one. -/
def legSettled (kind : DepositOperationKind) (amount : Decimal) (db : Database)
    (bookingId : Id) : Bool :=
  decimalToMinor amount == 0 || (db.deals.get bookingId).any fun d =>
    d.operations.any fun _ op => op.kind == kind && op.amount == amount && op.status == .succeeded

/-- The totals are complete and, under a decision, so is every leg. -/
def checkResolved (bookingId : Id) (totalReached : Bool) : Prog Sys Bool := do
  if totalReached then do
    let dispute ← select (·.dispute bookingId)
    match dispute.filter fun d => d.status == .underReview || d.status == .resolved with
    | none => pure true
    | some dispute =>
      let refundSettled ←
        select (legSettled .refund dispute.refundToBorrowerAmount · bookingId)
      if refundSettled then
        select (legSettled .releaseToLender dispute.releaseToLenderAmount · bookingId)
      else pure false
  else pure false

/-- The success branch of `applyOutcome`. -/
def applySuccess (bookingId operationId : Id) (operation : DepositOperation)
    (deposit : BookingDeposit) (processingUntil : Time) (providerOperationId : String)
    (now : Time) : Prog Sys Unit := do
  if deposit.status != .resolving then commit .noop
  else do
    lift (ensure ((operation.kind == .refund || operation.kind == .releaseToLender) &&
        nextTotal operation.amount deposit ≤ decimalToMinor deposit.amount)
      (.internal "Deposit operation exceeds unsettled amount"))
    let succeeded ← onOperation bookingId operationId processingUntil
      (settleUpdate providerOperationId now)
    if succeeded then do
      let resolved ← checkResolved bookingId
        (nextTotal operation.amount deposit == decimalToMinor deposit.amount)
      onDeal [.depositRow bookingId] bookingId
        (Deal.updateDeposit (settleDeposit operation.kind operation.amount resolved))
      when resolved do
        let _ ← completeBookingAfterReturnInTransaction bookingId now .depositSettled
        pure ()
      commit (.deal bookingId
        (.settle operationId operation.kind operation.amount providerOperationId now resolved))
    else commit .noop

def applyOutcome (bookingId operationId : Id) (attempts : Nat) (processingUntil : Time)
    (outcome : ProviderOperationResult) (now : Time) : Prog Sys Unit := do
  acquire (.booking bookingId)
  let operation ← select (·.operation bookingId operationId)
  let deposit ← select (·.deposit bookingId)
  match operation.filter (leased processingUntil) with
  | none => commit .noop
  | some operation =>
    let deposit ← lift (required deposit (.internal "Deposit operation without a deposit"))
    match outcome with
    | .timeout =>
      let nextAttemptAt := now + retryDelay attempts
      let scheduled ← onOperation bookingId operationId processingUntil
        (postponeUpdate nextAttemptAt)
      commit (if scheduled then .deal bookingId (.postpone operationId nextAttemptAt) else .noop)
    | .declined errorCode =>
      let failed ← onOperation bookingId operationId processingUntil (declineUpdate errorCode now)
      if failed then do
        onDeal [] bookingId (Deal.addAudit ⟨none, "DEPOSIT_OPERATION_PROVIDER_DECLINED",
          "DepositOperation", some operationId, some errorCode⟩)
        commit (.deal bookingId (.decline operationId errorCode now))
      else commit .noop
    | .succeeded providerOperationId =>
      applySuccess bookingId operationId operation deposit processingUntil providerOperationId
        now

/-- The transaction that takes the lease. -/
def claim (bookingId operationId : Id) (now : Time) :
    Prog Sys (Option (DepositOperation × Option BookingDeposit)) := do
  let processingUntil := now + operationLeaseMs
  let matched ← updateWhere (.operationRow bookingId operationId)
    (fun db => (db.operation bookingId operationId).any (claimable now))
    (Database.modifyDeal bookingId
      (Deal.updateOperation operationId (claimUpdate processingUntil)))
  if matched then do
    let operation ← select (·.operation bookingId operationId)
    let deposit ← select (·.deposit bookingId)
    commit (.claim bookingId operationId now processingUntil)
    pure (operation.map fun operation => (operation, deposit))
  else do
    commit .noop
    pure none

/-- `deliver` is what reaches the worker of the provider's answer. -/
def processOne (sha256 : Bytes → String) (env : Env)
    (deliver : Except Error ProviderOperationResult → Except Error ProviderOperationResult)
    (bookingId operationId : Id) (now : Time) : Prog Sys Nat := do
  let claimed ← claim bookingId operationId now
  match claimed with
  | none => pure 0
  | some (operation, deposit) =>
    lift (ensure (deposit.any (·.currency == "RUB"))
      (.internal "Deposit operation currency must be RUB"))
    let outcome ← match env.policy.requireFakeSafeDeal with
      | .error _ => pure .timeout
      | .ok () => do
        let answer ← callProvider sha256 bookingId
          (.deposit (operation.idempotencyKey.text bookingId) bookingId operation.kind
            (decimalToMinor operation.amount) .success)
        -- whatever the call throws counts as a timeout
        match deliver answer with
        | .error _ => pure .timeout
        | .ok result => pure result
    applyOutcome bookingId operationId operation.attempts (now + operationLeaseMs) outcome now
    pure 1

/-- Claimable operations, the earliest attempts first. -/
def pendingOperations (now : Time) (db : Database) : List (Id × Id) :=
  let found := db.deals.rows.flatMap fun r =>
    (r.2.operations.rows.filter fun op => claimable now op.2).map fun op => (r.1, op.1, op.2)
  ((found.insertionSort fun a b => a.2.2.nextAttemptAt < b.2.2.nextAttemptAt ∨
    (a.2.2.nextAttemptAt = b.2.2.nextAttemptAt ∧ a.2.2.createdAt ≤ b.2.2.createdAt)).take
      operationBatchSize).map fun a => (a.1, a.2.1)

def processPending (sha256 : Bytes → String) (env : Env)
    (deliver : Id → Id → Except Error ProviderOperationResult →
      Except Error ProviderOperationResult) (now : Time) : Prog Sys Unit := do
  lift env.policy.requireFakeSafeDeal
  let pending ← select (pendingOperations now)
  forEach pending fun operation => do
    let _ ← processOne sha256 env (deliver operation.1 operation.2) operation.1 operation.2 now
    pure ()

end DepositOperationProcessor

/-! ## The deadline job -/

namespace DepositDeadlineService

/-- A held deposit whose dispute window has ended. -/
def due (now : Time) (deposit : BookingDeposit) : Bool :=
  deposit.status == .held && deposit.disputeWindowEndsAt.any (· ≤ now)

/-- The transaction for one candidate; `operationId` is the fresh id of the refund. -/
def processOne (bookingId : Id) (now dbNow : Time) (operationId : Id) : Prog Sys Nat := do
  acquire (.booking bookingId)
  let deposit ← select (·.deposit bookingId)
  let booking ← select (·.booking bookingId)
  let dispute ← select (·.dispute bookingId)
  match deposit.filter fun deposit =>
      due now deposit && booking.any (·.status == .returned) && dispute.isNone with
  | none => do
    commit .noop
    pure 0
  | some deposit =>
    let existing ← select (DepositService.operationByKey · bookingId .autoRefund)
    if existing.isSome then do
      commit .noop
      pure 0
    else do
      createOperation bookingId operationId
        (.create .refund deposit.amount .autoRefund none now dbNow)
      onDeal [.depositRow bookingId] bookingId (Deal.setDepositStatus .resolving)
      let _ ← completeBookingAfterReturnInTransaction bookingId now .disputeWindowClosed
      commit (.deal bookingId (.autoRefund deposit.amount operationId now dbNow))
      pure 1

/-- `operationId b` is the fresh id for the booking `b`. -/
def processDue (now dbNow : Time) (operationId : Id → Id) : Prog Sys Unit := do
  let candidates ← select fun db => db.deals.keysWhere fun _ d => d.deposit.any (due now)
  forEach candidates fun bookingId => do
    let _ ← processOne bookingId now dbNow (operationId bookingId)
    pure ()

end DepositDeadlineService

/-! ## Disputes -/

namespace DisputeService

structure CreateDisputeDto where
  reason : FinancialDisputeReason
  description : Option String

structure ResolveDisputeDto where
  refundToBorrowerMinor : Int
  releaseToLenderMinor : Int
  reason : String

/-- The checks of `openDispute`; the deposit is held and its window still open. -/
def mayOpen (actorId : Id) (now : Time) (booking : Booking) (deposit : Option BookingDeposit)
    (dispute : Option FinancialDispute) : Except Error Unit := do
  ensure (booking.hasParticipant actorId) (.notFound "Бронирование не найдено")
  ensure (booking.status == .returned && deposit.any (fun d => d.status == .held &&
      d.disputeWindowEndsAt.any (· > now)) && dispute.isNone)
    (.conflict "Спор нельзя открыть в текущем состоянии")

def newDispute (actorId : Id) (dto : CreateDisputeDto) (now : Time) : FinancialDispute where
  openedById := actorId
  resolvedById := none
  reason := dto.reason
  description := dto.description.filter (· != "")
  status := .opened
  decisionReason := none
  refundToBorrowerAmount := minorToDecimal 0
  releaseToLenderAmount := minorToDecimal 0
  openedAt := now
  resolvedAt := none

def openDispute (actorId bookingId : Id) (dto : CreateDisputeDto) (now : Time) :
    Prog Sys FinancialDispute := do
  acquire (.booking bookingId)
  let booking ← select (·.booking bookingId)
  let deposit ← select (·.deposit bookingId)
  let dispute ← select (·.dispute bookingId)
  let booking ← lift (required booking (.notFound "Бронирование не найдено"))
  lift (mayOpen actorId now booking deposit dispute)
  let row := newDispute actorId dto now
  insertUnique [.disputeRow bookingId] (fun db => (db.dispute bookingId).isSome)
    (.internal "Unique constraint failed: financial_disputes")
    (Database.modifyDeal bookingId ({ · with dispute := some row }))
  onDeal [.depositRow bookingId] bookingId (Deal.setDepositStatus .disputed)
  commit (.deal bookingId (.openDispute row))
  pure row

def assertResolutionLeg (value : Int) : Except Error Unit :=
  ensure (isSafeInteger value && 0 ≤ value)
    (.conflict "Сумма решения должна быть целым числом")

/-- The operation of one leg exists with the amount of the request. -/
def hasResolutionOperation (commandKey : String) (kind : DepositOperationKind)
    (amountMinor : Int) (db : Database) (bookingId : Id) : Bool :=
  amountMinor == 0 || (DepositService.operationByKey db bookingId (.resolve commandKey kind)).any
    fun r => r.2.kind == kind && decimalToMinor r.2.amount == amountMinor

def createResolutionOperation (bookingId operationId : Id) (kind : DepositOperationKind)
    (amountMinor : Int) (commandKey : String) (now dbNow : Time) : Prog Sys Unit :=
  when (amountMinor != 0)
    (createOperation bookingId operationId
      (.create kind (minorToDecimal amountMinor) (.resolve commandKey kind) none now dbNow))

/-- The columns that a decision writes. -/
def decision (adminId : Id) (reason : String) (refundMinor releaseMinor : Int) (now : Time)
    (dispute : FinancialDispute) : FinancialDispute :=
  { dispute with
    status := .resolved
    resolvedById := some adminId
    decisionReason := some reason
    refundToBorrowerAmount := minorToDecimal refundMinor
    releaseToLenderAmount := minorToDecimal releaseMinor
    resolvedAt := some now }

/-- The answer to a repeated decision. -/
def repeatedDecision (bookingId adminId : Id) (dto : ResolveDisputeDto) (commandKey : String)
    (dispute : FinancialDispute) : Prog Sys FinancialDispute := do
  lift (ensure (dispute.resolvedById == some adminId &&
      dispute.decisionReason == some dto.reason &&
      decimalToMinor dispute.refundToBorrowerAmount == dto.refundToBorrowerMinor &&
      decimalToMinor dispute.releaseToLenderAmount == dto.releaseToLenderMinor)
    (.conflict "Спор уже имеет другое решение"))
  let refund ← select
    (hasResolutionOperation commandKey .refund dto.refundToBorrowerMinor · bookingId)
  lift (ensure refund (.conflict "Спор уже имеет другое решение"))
  let release ← select
    (hasResolutionOperation commandKey .releaseToLender dto.releaseToLenderMinor · bookingId)
  lift (ensure release (.conflict "Спор уже имеет другое решение"))
  commit .noop
  pure dispute

def resolvedAudit (adminId bookingId : Id) (reason : String) : AuditEntry :=
  ⟨some adminId, "FINANCIAL_DISPUTE_RESOLVED", "FinancialDispute", some bookingId, some reason⟩

/-- A dispute is addressed by its booking; `refundId` and `releaseId` are fresh ids. -/
def resolveDispute (env : Env) (adminId bookingId : Id) (dto : ResolveDisputeDto)
    (idempotencyKey : String) (now dbNow : Time) (refundId releaseId : Id) :
    Prog Sys FinancialDispute := do
  lift env.policy.requireFakeSafeDeal
  let commandKey ← lift (requireCommandKey idempotencyKey)
  lift (assertResolutionLeg dto.refundToBorrowerMinor)
  lift (assertResolutionLeg dto.releaseToLenderMinor)
  let target ← select (·.dispute bookingId)
  let _ ← lift (required target (.notFound "Спор не найден"))
  acquire (.booking bookingId)
  let dispute ← select (·.dispute bookingId)
  let dispute ← lift (required dispute (.notFound "Спор не найден"))
  let booking ← select (·.booking bookingId)
  let deposit ← select (·.deposit bookingId)
  let deposit ← lift (required deposit (.notFound "Спор не найден"))
  lift (ensure (dto.refundToBorrowerMinor + dto.releaseToLenderMinor ==
      decimalToMinor deposit.amount)
    (.conflict "Сумма решения не равна сумме залога"))
  if dispute.status == .underReview || dispute.status == .resolved then
    repeatedDecision bookingId adminId dto commandKey dispute
  else do
    lift (ensure (dispute.status == .opened && booking.any (·.status == .returned) &&
        deposit.status == .disputed)
      (.conflict "Спор нельзя разрешить в текущем состоянии"))
    createResolutionOperation bookingId refundId .refund dto.refundToBorrowerMinor commandKey
      now dbNow
    createResolutionOperation bookingId releaseId .releaseToLender dto.releaseToLenderMinor
      commandKey now dbNow
    onDeal [.depositRow bookingId] bookingId (Deal.setDepositStatus .resolving)
    let updated := decision adminId dto.reason dto.refundToBorrowerMinor dto.releaseToLenderMinor
      now
    onDeal [.disputeRow bookingId] bookingId (Deal.updateDispute updated)
    onDeal [] bookingId (Deal.addAudit (resolvedAudit adminId bookingId dto.reason))
    let _ ← completeBookingAfterReturnInTransaction bookingId now .disputeDecided
    commit (.deal bookingId (.resolve adminId dto.reason dto.refundToBorrowerMinor
      dto.releaseToLenderMinor commandKey refundId releaseId now dbNow))
    pure (updated dispute)

/-- `evidenceId` is the fresh id of the row. -/
def addEvidence (sha256 : Bytes → String) (env : Env) (actorId bookingId disputeId intentId : Id)
    (evidenceId : Id) : Prog Sys Evidence := do
  let now ← clock
  let verified ←
    UploadService.verifyDisputeEvidenceIntent sha256 env actorId disputeId intentId
  let dispute ← select fun db => (db.dispute disputeId).filter fun _ =>
    disputeId == bookingId && (db.booking bookingId).any (·.hasParticipant actorId)
  let _ ← lift (required dispute (.notFound "Спор не найден"))
  let consumed ← UploadService.consumeIntent verified.intentId actorId disputeId
    (some .disputeEvidence) now now
  lift (ensure consumed (.conflict "Upload intent уже использован или истёк"))
  let evidence : Evidence := 
    ⟨disputeId, verified.intentId, verified.objectKey, verified.sha256, none⟩
  insertUnique [.evidenceRow evidenceId, .evidenceIntent verified.intentId]
    (fun db => (db.uploads.disputeEvidence.get evidenceId).isSome ||
      db.uploads.disputeEvidence.any fun _ e => e.uploadIntentId == verified.intentId)
    (.internal "Unique constraint failed: dispute_evidence")
    (fun db => { db with uploads := { db.uploads with
      disputeEvidence := db.uploads.disputeEvidence.insert evidenceId evidence } })
  commit (.upload (.addDisputeEvidence evidenceId evidence verified.written now))
  pure evidence

end DisputeService

end Sosedi
