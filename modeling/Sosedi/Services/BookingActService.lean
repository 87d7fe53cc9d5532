import Sosedi.Services.UploadService

/-!
# Handover and return acts

`completeBookingAfterReturnInTransaction`, which four services call inside their own
transactions, and `BookingActService.create` and `confirm`.
-/

namespace Sosedi

open Transactions

/-! ## Completion -/

/-- `assertDepositSettledForCompletionOrPayout`. -/
def assertDepositSettled (deposit : Option BookingDeposit) : Except Error Unit :=
  match deposit with
  | none => .ok ()
  | some deposit =>
    ensure (deposit.status == .resolved &&
        decimalToMinor deposit.refundedAmount + decimalToMinor deposit.releasedToLenderAmount ==
          decimalToMinor deposit.amount)
      (.conflict "Deposit is not fully settled")

/-- The checks of `completeBookingAfterReturnInTransaction`: complete, return 0, or throw. -/
def completionCheck (trigger : BookingCompletionTrigger) (now : Time) (booking : Booking)
    (deposit : Option BookingDeposit) (dispute : Option FinancialDispute) :
    Except Error Bool :=
  if booking.status ≠ .returned then .ok false
  else
    let windowEndsAt := deposit.bind (·.disputeWindowEndsAt)
    let disputeResolved := dispute.any (·.status == .resolved)
    match trigger with
    | .zeroDepositReturn =>
      if deposit.isSome || dispute.isSome then
        .error (.conflict "Unexpected deposit for zero-deposit return")
      else .ok true
    | .disputeWindowClosed => .ok (windowEndsAt.any (· ≤ now) && dispute.isNone)
    | .disputeDecided => .ok (deposit.isSome && disputeResolved)
    | .depositSettled =>
      if (dispute.isSome && !disputeResolved) || windowEndsAt.isNone ||
          (windowEndsAt.any (· > now) && !disputeResolved) then .ok false
      else (assertDepositSettled deposit).map fun _ => true

def BookingCompletionTrigger.command : BookingCompletionTrigger → TransitionCommand
  | .zeroDepositReturn => .completeAfterReturn
  | .disputeWindowClosed => .completeAfterDisputeWindow
  | .disputeDecided => .completeAfterDisputeDecision
  | .depositSettled => .completeAfterDepositSettled

def completeTransition (trigger : BookingCompletionTrigger) : BookingTransition :=
  ⟨none, .system, trigger.command, some .returned, .completed, none⟩

def completeBookingAfterReturnInTransaction (bookingId : Id) (now : Time)
    (trigger : BookingCompletionTrigger) : Prog Sys Nat := do
  let booking ← select (·.booking bookingId)
  match booking with
  | none => pure 0
  | some booking =>
    let deposit ← select (·.deposit bookingId)
    let dispute ← select (·.dispute bookingId)
    let complete ← lift (completionCheck trigger now booking deposit dispute)
    if complete then do
      let completed ← updateWhere (.bookingRow bookingId)
        (fun db => (db.booking bookingId).any (·.status == .returned))
        (Database.modifyDeal bookingId (Deal.setStatus .completed))
      if completed then do
        onDeal [] bookingId (Deal.addTransition (completeTransition trigger))
        createOutbox bookingId .completed
        pure 1
      else pure 0
    else pure 0

/-! ## Acts -/

namespace BookingActService

structure CreateBookingActDto where
  stage : BookingActStage
  intentId : Id
  readiness : Option Readiness

structure BookingActResponse where
  bookingId : Id
  stage : BookingActStage
  authorId : Id
  confirmedById : Option Id
  confirmedAt : Option Time
  readiness : Option (Readiness × Time)

def toResponse (bookingId : Id) (stage : BookingActStage) (act : BookingAct) :
    BookingActResponse where
  bookingId
  stage
  authorId := act.authorId
  confirmedById := act.confirmedById
  confirmedAt := act.confirmedAt
  readiness :=
    match act.readiness, act.readinessDeclaredAt with
    | some readiness, some declaredAt => some (readiness, declaredAt)
    | _, _ => none

def expectedStatus : BookingActStage → BookingStatus
  | .handover => .confirmed
  | .return => .active

def nextStatus : BookingActStage → BookingStatus
  | .handover => .active
  | .return => .returned

def ensureStageState (stage : BookingActStage) (status : BookingStatus) : Except Error Unit :=
  ensure (status == expectedStatus stage)
    (.conflictCode "INVALID_BOOKING_TRANSITION"
      "Акт недоступен в текущем состоянии бронирования")

def ensureReadiness (dto : CreateBookingActDto) : Except Error Unit := do
  ensure (!(dto.stage == .handover && dto.readiness.isNone))
    (.badRequest "Перед передачей владелец должен заполнить чек-лист")
  ensure (!(dto.stage == .return && dto.readiness.isSome))
    (.badRequest "Чек-лист готовности доступен только для передачи")

def expectedActor (stage : BookingActStage) (booking : Booking) : Id :=
  match stage with
  | .handover => booking.lenderId
  | .return => booking.borrowerId

def ensureStageActor (stage : BookingActStage) (actorId : Id) (booking : Booking) :
    Except Error Unit :=
  ensure (actorId == expectedActor stage booking)
    (.forbidden (match stage with
      | .handover => "Акт передачи создаёт владелец"
      | .return => "Акт возврата создаёт арендатор"))

/-- The act of an earlier call with the same intent. -/
def replay (db : Database) (actorId bookingId : Id) (dto : CreateBookingActDto) :
    Option BookingAct :=
  (db.act bookingId dto.stage).filter fun act => act.authorId == actorId &&
    db.uploads.bookingEvidence.any fun _ e =>
      e.ownerId == bookingId && e.stage == some dto.stage && e.uploadIntentId == dto.intentId

/-- `evidenceId` is the fresh id of the evidence row. -/
def create (sha256 : Bytes → String) (env : Env) (actorId bookingId : Id)
    (dto : CreateBookingActDto) (evidenceId : Id) : Prog Sys BookingActResponse := do
  let earlier ← select (replay · actorId bookingId dto)
  match earlier with
  | some act => pure (toResponse bookingId dto.stage act)
  | none =>
    lift (ensureReadiness dto)
    let verified ←
      UploadService.verifyBookingEvidenceIntent sha256 env actorId bookingId dto.intentId
    acquire (.booking bookingId)
    let booking ← select fun db => (db.booking bookingId).filter (·.hasParticipant actorId)
    let booking ← lift (required booking (.notFound "Бронирование не найдено"))
    lift (ensureStageState dto.stage booking.status)
    lift (ensureStageActor dto.stage actorId booking)
    let expiryCheckedAt ← clock
    let confirmedAt ← clock
    let consumed ← UploadService.consumeIntent verified.intentId actorId bookingId none
      expiryCheckedAt confirmedAt
    lift (ensure consumed (.conflict "Upload intent уже использован"))
    let declaredAt ← clock
    let act : BookingAct :=
      { authorId := actorId
        readiness := dto.readiness.map fun r => { r with visibleDefects := trim r.visibleDefects }
        readinessDeclaredAt := if dto.stage = .handover then some declaredAt else none
        confirmedById := none
        confirmedAt := none }
    insertUnique [.actRow bookingId dto.stage] (fun db => (db.act bookingId dto.stage).isSome)
      (.conflict "Акт этого этапа уже создан")
      (Database.modifyDeal bookingId (Deal.setAct dto.stage (some act)))
    let evidence : Evidence :=
      ⟨bookingId, verified.intentId, verified.objectKey, verified.sha256, some dto.stage⟩
    insertUnique [.evidenceRow evidenceId, .evidenceIntent verified.intentId]
      (fun db => (db.uploads.bookingEvidence.get evidenceId).isSome ||
        db.uploads.bookingEvidence.any fun _ e => e.uploadIntentId == verified.intentId)
      (.conflict "Акт этого этапа уже создан")
      (fun db => { db with uploads := { db.uploads with
        bookingEvidence := db.uploads.bookingEvidence.insert evidenceId evidence } })
    commit (.createAct bookingId dto.stage act evidenceId evidence verified.written confirmedAt)
    pure (toResponse bookingId dto.stage act)

/-- Payment and deposit that a handover under safe-deal terms needs. -/
def ensureHandoverPaid (stage : BookingActStage) (snapshot : Option BookingTermsSnapshot)
    (payment : Option Payment) (deposit : Option BookingDeposit) : Except Error Unit :=
  match stage, snapshot with
  | .handover, some snapshot =>
    if snapshot.paymentScenario = .fakeSafeDeal then do
      ensure (payment.any (·.status == .succeeded))
        (.conflict "Передача недоступна до успешной оплаты")
      ensure (!(snapshot.moneyMinor.deposit > 0 && !deposit.any (·.status == .held)))
        (.conflict "Передача недоступна до удержания залога")
    else .ok ()
  | _, _ => .ok ()

/-- The end of the dispute window that a confirmed return opens. -/
def disputeWindowEnd (stage : BookingActStage) (snapshot : Option BookingTermsSnapshot)
    (deposit : Option BookingDeposit) (confirmedAt : Time) : Option Time :=
  match stage, snapshot with
  | .return, some snapshot =>
    if snapshot.paymentScenario = .fakeSafeDeal && deposit.isSome then
      snapshot.depositTerms.map fun terms => confirmedAt + terms.disputeWindowSeconds * 1000
    else none
  | _, _ => none

def confirmMessage : BookingActStage → String
  | .handover => "Передача подтверждена обеими сторонами. Аренда началась."
  | .return => "Возврат подтверждён обеими сторонами."

def confirmTransition (stage : BookingActStage) (actorId : Id) : BookingTransition :=
  match stage with
  | .handover =>
    ⟨some actorId, .handoverConfirmer, .confirmHandover, some .confirmed, .active, none⟩
  | .return => ⟨some actorId, .returnConfirmer, .confirmReturn, some .active, .returned, none⟩

def confirmEvent : BookingActStage → BookingEventType
  | .handover => .handoverConfirmed
  | .return => .returnConfirmed

/-- A confirmed return without a deposit completes the booking at once. -/
def completesAtReturn (stage : BookingActStage) (snapshot : Option BookingTermsSnapshot) : Bool :=
  stage == .return && snapshot.any (·.moneyMinor.deposit == 0)

/-- The statements of `confirm` once its checks have passed. -/
def confirmStatements (actorId bookingId : Id) (stage : BookingActStage) (confirmedAt : Time)
    (windowEndsAt : Option Time) : Prog Sys Unit := do
  onDeal [.actRow bookingId stage] bookingId fun d => d.setAct stage ((d.act stage).map
    ({ · with confirmedById := some actorId, confirmedAt := some confirmedAt }))
  match windowEndsAt with
  | none => pure ()
  | some endsAt =>
    onDeal [.depositRow bookingId] bookingId
      (Deal.updateDeposit ({ · with disputeWindowEndsAt := some endsAt }))
  onDeal [.bookingRow bookingId] bookingId (Deal.setStatus (nextStatus stage))
  onDeal [] bookingId (Deal.addMessage (confirmMessage stage))
  onDeal [] bookingId (Deal.addTransition (confirmTransition stage actorId))
  createOutbox bookingId (confirmEvent stage)

/-- The act of a booking is addressed by its stage; `now` is the clock reading of
`confirmedAt`. -/
def confirm (actorId bookingId : Id) (stage : BookingActStage) (now : Time) :
    Prog Sys BookingActResponse := do
  acquire (.booking bookingId)
  let act ← select fun db => (db.act bookingId stage).filter fun _ =>
    (db.booking bookingId).any (·.hasParticipant actorId)
  let act ← lift (required act (.notFound "Акт не найден"))
  let booking ← select (·.booking bookingId)
  let booking ← lift (required booking (.notFound "Акт не найден"))
  let payment ← select (·.payment bookingId)
  let deposit ← select (·.deposit bookingId)
  lift (ensure (act.authorId != actorId)
    (.conflict "Автор не может подтвердить собственный акт"))
  if act.confirmedAt.isSome then do
    lift (ensure (act.confirmedById == some actorId) (.conflict "Акт уже подтверждён"))
    commit .noop
    pure (toResponse bookingId stage act)
  else do
    lift (ensureStageState stage booking.status)
    let snapshot := booking.boundSnapshot
    lift (ensure (!(booking.termsSnapshot.isSome && snapshot.isNone))
      (.conflict "Условия бронирования недействительны"))
    lift (ensureHandoverPaid stage snapshot payment deposit)
    let windowEndsAt := disputeWindowEnd stage snapshot deposit now
    let completes := completesAtReturn stage snapshot
    confirmStatements actorId bookingId stage now windowEndsAt
    when completes do
      let _ ← completeBookingAfterReturnInTransaction bookingId now .zeroDepositReturn
      pure ()
    commit (.deal bookingId (.confirmAct stage actorId now windowEndsAt completes))
    pure (toResponse bookingId stage
      { act with confirmedById := some actorId, confirmedAt := some now })

end BookingActService

end Sosedi
