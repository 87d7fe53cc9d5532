import Sosedi.Services.Statements

/-!
# Booking requests

`BookingService.create`, `confirm` and `cancelPending`, the expiry job and the owner's
calendar.  Each call is a program over the database; the clock readings, the fresh
identifiers and the configuration of a call are its parameters.
-/

namespace Sosedi

open Transactions

def bookingPendingTtlMs : Int := 12 * 60 * 60 * 1000

def bookingMaxActivePending : Nat := 5

def bookingMaxCompetingPending : Nat := 20

structure CreateBookingDto where
  itemId : Id
  startDate : String
  endDate : String
  offerVersion : Option String
  cancellationPolicyVersion : Option String
  offerAccepted : Option Bool
  rentalRulesAccepted : Option Bool

structure BookingResponse where
  id : Id
  itemId : Id
  borrowerId : Id
  lenderId : Id
  startDate : Time
  endDate : Time
  days : Int
  totalAmount : ℚ
  status : BookingStatus
  expiresAt : Option Time
  cancellationReason : Option CancellationReason
  createdAt : Time

def Booking.toResponse (id : Id) (days : Int) (booking : Booking) : BookingResponse where
  id
  itemId := booking.itemId
  borrowerId := booking.borrowerId
  lenderId := booking.lenderId
  startDate := booking.startDate
  endDate := booking.endDate
  days
  totalAmount := booking.totalAmount.toNumber
  status := booking.status
  expiresAt := booking.expiresAt
  cancellationReason := booking.cancellationReason
  createdAt := booking.createdAt

/-! ## Terms of a new booking -/

structure MarketplaceTerms where
  offerVersion : String
  cancellationPolicyVersion : String

/-- `/^[a-z0-9][a-z0-9._-]{0,63}$/i`, and no `draft` in it. -/
def isApprovedDocumentVersion (version : String) : Bool :=
  match version.toList with
  | [] => false
  | c :: cs =>
    c.isAlphanum && cs.all (fun c => c.isAlphanum || c == '.' || c == '_' || c == '-') &&
      cs.length ≤ 63 &&
      !((c :: cs).map Char.toLower).tails.any fun t => "draft".toList.isPrefixOf t

def requireApprovedMarketplaceTerms (env : Env) : Except Error MarketplaceTerms :=
  match env.offerVersion.map trim, env.cancellationPolicyVersion.map trim with
  | some offerVersion, some cancellationPolicyVersion =>
    if isApprovedDocumentVersion offerVersion &&
        isApprovedDocumentVersion cancellationPolicyVersion then
      .ok { offerVersion, cancellationPolicyVersion }
    else .error (.serviceUnavailable "BOOKING_LEGAL_GATE_CLOSED" "Бронирование временно недоступно")
  | _, _ =>
    .error (.serviceUnavailable "BOOKING_LEGAL_GATE_CLOSED" "Бронирование временно недоступно")

def requireMarketplaceTermsAcceptance (dto : CreateBookingDto) (terms : MarketplaceTerms) :
    Except Error Unit :=
  ensure (dto.offerAccepted == some true && dto.rentalRulesAccepted == some true &&
      dto.offerVersion == some terms.offerVersion &&
      dto.cancellationPolicyVersion == some terms.cancellationPolicyVersion)
    (.conflictCode "BOOKING_TERMS_ACCEPTANCE_REQUIRED" "Подтвердите актуальные условия аренды")

/-- `item.depositAmount ? decimalToMinor(item.depositAmount) : 0n`. -/
def Item.depositMinor (item : Item) : Int :=
  match item.depositAmount with
  | some amount => decimalToMinor amount
  | none => 0

def depositTermsOf : MarketplacePolicy → Int → Option DepositTerms
  | .payOnHandover, _ => none
  | .fakeSafeDeal deposit, depositMinor =>
    if 0 < depositMinor then some ⟨deposit.policyVersion, deposit.disputeWindowSeconds⟩
    else none

def bookingPrice (policy : MarketplacePolicy) (rentalSubtotalMinor depositMinor : Int) :
    Except Error SafeDealPrice :=
  match policy with
  | .fakeSafeDeal _ => calculateProvisionalSafeDealPrice rentalSubtotalMinor depositMinor
  | .payOnHandover =>
    .ok
      { rentalSubtotalMinor
        depositMinor
        borrowerTotalMinor := rentalSubtotalMinor
        platformFeeMinor := 0
        ownerPayoutMinor := rentalSubtotalMinor }

/-- The minor units of a snapshot; each must be a safe integer. -/
def moneyMinorOf (pricePerDayMinor depositMinor : Int) (price : SafeDealPrice) :
    Except Error BookingMoneyMinor := do
  let pricePerDay ← minorToSafeNumber pricePerDayMinor
  let rentalSubtotal ← minorToSafeNumber price.rentalSubtotalMinor
  let deposit ← minorToSafeNumber depositMinor
  let platformFee ← minorToSafeNumber price.platformFeeMinor
  let ownerPayout ← minorToSafeNumber price.ownerPayoutMinor
  let total ← minorToSafeNumber price.borrowerTotalMinor
  pure { pricePerDay, rentalSubtotal, deposit, platformFee, ownerPayout, total }

/-- The rows that `create` is about to insert. -/
structure BookingDraft where
  booking : Booking
  deposit : Option BookingDeposit

/-- What `create` computes from the item once its checks have passed. -/
def draftBooking (policy : MarketplacePolicy) (terms : MarketplaceTerms) (borrowerId : Id)
    (itemId : Id) (item : Item) (ownerName : Option String) (period : BookingPeriod)
    (clientRequestId clientRequestHash : String) (now dbNow : Time) :
    Except Error BookingDraft := do
  let depositMinor := item.depositMinor
  let pricePerDayMinor := decimalToMinor item.pricePerDay
  let price ← bookingPrice policy (pricePerDayMinor * period.days) depositMinor
  let moneyMinor ← moneyMinorOf pricePerDayMinor depositMinor price
  let totalAmount := minorToDecimal price.borrowerTotalMinor
  let depositTerms := depositTermsOf policy depositMinor
  let snapshot : BookingTermsSnapshot :=
    { itemTitle := item.title
      lenderId := item.ownerId
      lenderDisplayName := ownerName
      pricePerDay := item.pricePerDay.toNumber
      days := period.days
      rentalSubtotal := (minorToDecimal price.rentalSubtotalMinor).toNumber
      depositAmount := item.depositAmount.map (·.toNumber)
      platformFee := (minorToDecimal price.platformFeeMinor).toNumber
      ownerPayout := (minorToDecimal price.ownerPayoutMinor).toNumber
      total := totalAmount.toNumber
      paymentScenario := policy.paymentScenario
      moneyMinor
      depositTerms
      handover := ⟨item.publicArea, item.address, item.latitude, item.longitude⟩
      listingVersion :=
        item.listingRulesVersion.getD "legacy" ++ ":" ++ toISOString item.updatedAt
      offerVersion := some terms.offerVersion
      cancellationPolicyVersion := some terms.cancellationPolicyVersion
      acceptance :=
        some ⟨borrowerId, now, terms.offerVersion, terms.cancellationPolicyVersion⟩ }
  pure
    { booking :=
        { itemId
          borrowerId
          lenderId := item.ownerId
          clientRequestId
          clientRequestHash
          startDate := period.startDate
          endDate := period.endDate
          totalAmount
          status := .pending
          expiresAt := some (now + bookingPendingTtlMs)
          cancellationReason := none
          termsSnapshot := some snapshot
          createdAt := dbNow }
      deposit := depositTerms.map fun terms =>
        { amount := minorToDecimal depositMinor
          currency := "RUB"
          policyVersion := terms.policyVersion
          disputeWindowSeconds := terms.disputeWindowSeconds
          status := .pending
          disputeWindowEndsAt := none
          refundedAmount := minorToDecimal 0
          releasedToLenderAmount := minorToDecimal 0 } }

/-- A booking row with nothing attached yet. -/
def Deal.ofBooking (booking : Booking) : Deal where
  booking
  deposit := none
  operations := .empty
  dispute := none
  payment := none
  handoverAct := none
  returnAct := none
  messages := []
  history := []
  outbox := []
  auditLog := []

/-- The deal that `create` commits. -/
def BookingDraft.deal (draft : BookingDraft) : Deal :=
  ({ Deal.ofBooking draft.booking with deposit := draft.deposit }
    |>.addMessage "Заявка отправлена. Владелец ответит в течение 12 часов."
    |>.addTransition
      ⟨some draft.booking.borrowerId, .borrower, .create, none, .pending, none⟩
    |>.addOutbox .created)

/-! ## Queries -/

namespace Database

def bookingByRequest (db : Database) (borrowerId : Id) (clientRequestId : String) :
    Option (Id × Booking) :=
  (db.deals.rows.find? fun r => r.2.booking.borrowerId == borrowerId &&
    r.2.booking.clientRequestId == clientRequestId).map fun r => (r.1, r.2.booking)

/-- `status: PENDING, expiresAt: { gt: now }`. -/
def unexpiredPending (now : Time) (booking : Booking) : Bool :=
  booking.status == .pending && booking.expiresAt.any (· > now)

def countActivePending (db : Database) (borrowerId : Id) (now : Time) : Nat :=
  (db.deals.keysWhere fun _ d =>
    d.booking.borrowerId == borrowerId && unexpiredPending now d.booking).length

/-- The unexpired `PENDING` bookings of the item, other than `except`, that meet the range. -/
def competingPending (db : Database) (except : Option Id) (itemId : Id) (now : Time)
    (startDate endDate : Time) : List Id :=
  db.deals.keysWhere fun id d => some id != except && d.booking.itemId == itemId &&
    unexpiredPending now d.booking &&
    overlaps d.booking.startDate d.booking.endDate startDate endDate

/-- The item, approved and of an owner in good standing, with its owner. -/
def bookableItem (db : Database) (id : Id) : Option BookableItem :=
  (db.items.get id).bind fun item =>
    ((db.users.get item.ownerId).filter fun owner =>
      item.status == .approved && owner.active).map fun owner => ⟨item, owner⟩

def interactionBlock (db : Database) (a b : Id) : Bool :=
  db.userBlocks.any fun p => p == (a, b) || p == (b, a)

def insertDeal (id : Id) (d : Deal) (db : Database) : Database :=
  { db with deals := db.deals.insert id d }

/-- Rewrite the rows of several deals. -/
def modifyDeals (ids : List Id) (f : Deal → Deal) (db : Database) : Database :=
  { db with deals := db.deals.mapRows fun id d => if id ∈ ids then f d else d }

def pendingBooking (db : Database) (id : Id) : Bool :=
  (db.booking id).any (·.status == .pending)

def pendingDeposit (db : Database) (id : Id) : Bool :=
  (db.deposit id).any (·.status == .pending)

end Database

/-! ## Calls -/

namespace BookingService

/-- The checks of `create` on the borrower, before the item is locked. -/
def checkBorrower (borrowerId : Id) (now : Time) : Prog Sys Unit := do
  let activePendingCount ← select (·.countActivePending borrowerId now)
  lift (ensure (activePendingCount < bookingMaxActivePending)
    (.tooManyRequests ("Можно одновременно ожидать подтверждения не более " ++
      toString bookingMaxActivePending ++ " бронирований")))

/-- The checks of `create` on the item and its calendar; returns the item and its owner. -/
def checkItem (env : Env) (borrowerId itemId : Id) (period : BookingPeriod) (now : Time) :
    Prog Sys BookableItem := do
  let bookable ← select (·.bookableItem itemId)
  let bookable ← lift (required bookable (.notFound "Объявление недоступно"))
  let item := bookable.item
  lift (ensure (item.ownerId != borrowerId)
    (.badRequest "Нельзя бронировать собственную вещь"))
  lift (ensure
    (!(env.policy.paymentScenario == .payOnHandover && item.depositMinor != 0))
    (.conflictCode "ITEM_DEPOSIT_NOT_SUPPORTED" "Бронирование с залогом пока недоступно"))
  lift (env.policy.assertDepositAllowed item.depositMinor)
  let interactionBlock ← select (·.interactionBlock borrowerId item.ownerId)
  lift (ensure (!interactionBlock)
    (.conflictCode "USER_INTERACTION_BLOCKED" "Бронирование недоступно"))
  let calendarConflict ← select (·.calendarConflict itemId period.startDate period.endDate)
  lift (ensure (!calendarConflict)
    (.conflictCode "CALENDAR_CONFLICT" "Вещь недоступна в выбранный период"))
  let conflict ← select (·.reservedConflict none itemId period.startDate period.endDate)
  lift (ensure (!conflict) (.conflictCode "BOOKING_CONFLICT" "Выбранный период уже занят"))
  let competing ← select (·.competingPending none itemId now period.startDate period.endDate)
  lift (ensure (competing.length < bookingMaxCompetingPending)
    (.tooManyRequests
      "На эти даты уже отправлено слишком много заявок. Выберите другой период"))
  pure bookable

/-- The inserts of `create`. -/
def insertDraft (id : Id) (draft : BookingDraft) : Prog Sys Unit := do
  let booking := draft.booking
  insertUnique [.bookingRow id, .clientRequest booking.borrowerId booking.clientRequestId]
    (fun db => (db.booking id).isSome ||
      (db.bookingByRequest booking.borrowerId booking.clientRequestId).isSome)
    (.internal "Unique constraint failed: bookings")
    (Database.insertDeal id (Deal.ofBooking booking))
  when draft.deposit.isSome
    (onDeal [.depositRow id] id fun d => { d with deposit := draft.deposit })
  onDeal [] id (Deal.addMessage "Заявка отправлена. Владелец ответит в течение 12 часов.")
  onDeal [] id (Deal.addTransition
    ⟨some booking.borrowerId, .borrower, .create, none, .pending, none⟩)
  createOutbox id .created

/-- `today` is the clock reading of `parseBookingPeriod`, `dbNow` the database default of
`createdAt`, `newId` the fresh booking id, `clientRequestHash` the hash of the payload. -/
def create (env : Env) (borrowerId : Id) (dto : CreateBookingDto)
    (requestId clientRequestHash : String) (today now dbNow : Time) (newId : Id) :
    Prog Sys BookingResponse := do
  let terms ← lift (requireApprovedMarketplaceTerms env)
  lift (requireMarketplaceTermsAcceptance dto terms)
  let period ← lift (parseBookingPeriod dto.startDate dto.endDate (moscowCalendarDate today))
  acquire (.user borrowerId)
  let repeated ← select (·.bookingByRequest borrowerId requestId)
  match repeated with
  | some (id, booking) =>
    lift (ensure (booking.clientRequestHash == clientRequestHash)
      (.conflictCode "IDEMPOTENCY_KEY_REUSED" "Идентификатор запроса уже использован"))
    commit .noop
    pure (booking.toResponse id period.days)
  | none =>
    checkBorrower borrowerId now
    acquire (.item dto.itemId)
    let bookable ← checkItem env borrowerId dto.itemId period now
    let draft ← lift (draftBooking env.policy terms borrowerId dto.itemId bookable.item
      bookable.owner.name period requestId clientRequestHash now dbNow)
    insertDraft newId draft
    commit (.create newId draft.deal bookable)
    pure (draft.booking.toResponse newId period.days)

/-- Cancel the requests that lost to a confirmed one. -/
def cancelCompetitors (competitors : List Id) : Prog Sys Unit := do
  forEach competitors fun id => do
    let _ ← updateWhere (.bookingRow id) (·.pendingBooking id)
      (Database.modifyDeal id (Deal.cancelBooking .competingRequestConfirmed))
    pure ()
  forEach competitors fun id => do
    let _ ← updateWhere (.depositRow id) (·.pendingDeposit id)
      (Database.modifyDeal id (Deal.setDepositStatus .cancelled))
    pure ()

def confirmTransition (lenderId : Id) : BookingTransition :=
  ⟨some lenderId, .lender, .confirm, some .pending, .confirmed, none⟩

def competingTransition (lenderId : Id) : BookingTransition :=
  ⟨some lenderId, .lender, .cancelCompeting, some .pending, .cancelled,
    some .competingRequestConfirmed⟩

def confirm (lenderId bookingId : Id) (now : Time) : Prog Sys BookingResponse := do
  acquire (.booking bookingId)
  let candidate ← select fun db => (db.booking bookingId).filter (·.lenderId == lenderId)
  let candidate ← lift (required candidate (.notFound "Бронирование не найдено"))
  acquire (.item candidate.itemId)
  let booking ← select fun db => (db.booking bookingId).filter (·.lenderId == lenderId)
  let booking ← lift (required booking (.notFound "Бронирование не найдено"))
  lift (ensure (Database.unexpiredPending now booking)
    (.conflictCode "INVALID_BOOKING_TRANSITION" "Бронирование нельзя подтвердить"))
  let calendarConflict ←
    select (·.calendarConflict booking.itemId booking.startDate booking.endDate)
  lift (ensure (!calendarConflict)
    (.conflictCode "CALENDAR_CONFLICT" "Вещь недоступна в выбранный период"))
  let reservedConflict ← select (·.reservedConflict (some bookingId) booking.itemId
    booking.startDate booking.endDate)
  lift (ensure (!reservedConflict)
    (.conflictCode "BOOKING_CONFLICT" "Выбранный период уже занят"))
  let competitors ← select (·.competingPending (some bookingId) booking.itemId now
    booking.startDate booking.endDate)
  onDeal [.bookingRow bookingId] bookingId (Deal.updateBooking
    ({ · with status := .confirmed, cancellationReason := none, expiresAt := none }))
  cancelCompetitors competitors
  write [] fun db =>
    (db.modifyDeal bookingId (Deal.addMessage "Владелец подтвердил заявку.")).modifyDeals
      competitors (Deal.addMessage "Владелец подтвердил другую заявку на эти даты.")
  write [] fun db =>
    (db.modifyDeal bookingId (Deal.addTransition (confirmTransition lenderId))).modifyDeals
      competitors (Deal.addTransition (competingTransition lenderId))
  createOutboxMissing bookingId .confirmed
  forEach competitors fun id => createOutboxMissing id .competingCancelled
  commit (.confirm bookingId lenderId competitors)
  pure (({ booking with
    status := .confirmed, cancellationReason := none, expiresAt := none }).toResponse
      bookingId booking.days)

/-- A `CONFIRMED` booking under safe-deal terms; the policy must still be the safe deal. -/
def isConfirmedFake (env : Env) (booking : Booking) : Except Error Bool :=
  if booking.status = .confirmed ∧
      booking.boundSnapshot.any (·.paymentScenario == .fakeSafeDeal) then do
    env.policy.requireFakeSafeDeal
    pure true
  else pure false

def cancelTransition (actorId : Id) (isBorrower : Bool) (oldStatus : BookingStatus) :
    BookingTransition :=
  ⟨some actorId, if isBorrower then .borrower else .lender, .cancel, some oldStatus, .cancelled,
    some (if isBorrower then .borrowerCancelled else .lenderDeclined)⟩

/-- The deposit statements of `cancelPending`. -/
def cancelDeposit (bookingId refundId : Id) (dbNow : Time) (deposit : Option BookingDeposit) :
    Prog Sys Unit := do
  when (deposit.any (·.status == .pending))
    (onDeal [.depositRow bookingId] bookingId (Deal.setDepositStatus .cancelled))
  match deposit with
  | none => pure ()
  | some deposit =>
    when (deposit.status == .held) do
      onDeal [.depositRow bookingId] bookingId (Deal.setDepositStatus .resolving)
      createOperation bookingId refundId
        (.create .refund deposit.amount .preHandoverRefund none dbNow dbNow)

/-- `refundId` is the fresh id of the refund operation, `dbNow` its database defaults. -/
def cancelPending (env : Env) (actorId bookingId : Id) (now dbNow : Time) (refundId : Id) :
    Prog Sys BookingResponse := do
  acquire (.booking bookingId)
  let booking ← select fun db => (db.booking bookingId).filter (·.hasParticipant actorId)
  let booking ← lift (required booking (.notFound "Бронирование не найдено"))
  let deposit ← select (·.deposit bookingId)
  let isBorrower := booking.borrowerId == actorId
  let reason : CancellationReason :=
    if isBorrower then .borrowerCancelled else .lenderDeclined
  if booking.status == .cancelled && booking.cancellationReason == some reason then do
    commit .noop
    pure (booking.toResponse bookingId booking.days)
  else do
    let isPending := Database.unexpiredPending now booking
    let isConfirmedFake ← lift (isConfirmedFake env booking)
    lift (ensure (isPending || isConfirmedFake)
      (.conflictCode "INVALID_BOOKING_TRANSITION"
        "До утверждения cancellation policy можно отменить только ожидающую заявку"))
    lift (ensure (!(isConfirmedFake &&
        deposit.any fun d => d.status != .pending && d.status != .held))
      (.conflictCode "INVALID_DEPOSIT_TRANSITION" "Залог нельзя вернуть до передачи вещи"))
    onDeal [.bookingRow bookingId] bookingId (Deal.cancelBooking reason)
    cancelDeposit bookingId refundId dbNow deposit
    onDeal [] bookingId (Deal.addMessage
      (if isBorrower then "Арендатор отменил заявку." else "Владелец отклонил заявку."))
    onDeal [] bookingId
      (Deal.addTransition (cancelTransition actorId isBorrower booking.status))
    createOutbox bookingId .cancelled
    commit (.deal bookingId (.cancel actorId isBorrower booking.status deposit refundId dbNow))
    pure (({ booking with
      status := .cancelled, cancellationReason := some reason, expiresAt := none }).toResponse
        bookingId booking.days)

end BookingService

/-! ## Expiry -/

namespace BookingExpiryService

/-- `expiresAt: { lte: now }` of a `PENDING` booking. -/
def expired (now : Time) (booking : Booking) : Bool :=
  booking.status == .pending && booking.expiresAt.any (· ≤ now)

def expireTransition : BookingTransition :=
  ⟨none, .system, .expire, some .pending, .cancelled, some .pendingTimeout⟩

/-- The transaction for one candidate. -/
def expireOne (id : Id) (now : Time) : Prog Sys Nat := do
  acquire (.booking id)
  let matched ← updateWhere (.bookingRow id) (fun db => (db.booking id).any (expired now))
    (Database.modifyDeal id (Deal.cancelBooking .pendingTimeout))
  if matched then do
    let _ ← updateWhere (.depositRow id) (·.pendingDeposit id)
      (Database.modifyDeal id (Deal.setDepositStatus .cancelled))
    onDeal [] id (Deal.addMessage "Время ответа владельца истекло. Заявка отменена.")
    onDeal [] id (Deal.addTransition expireTransition)
    createOutbox id .pendingTimeout
    commit (.deal id (.expire now))
    pure 1
  else do
    commit .noop
    pure 0

def expirePending (now : Time) : Prog Sys Unit := do
  let candidates ← select fun db => db.deals.keysWhere fun _ d => expired now d.booking
  forEach candidates fun id => do
    let _ ← expireOne id now
    pure ()

end BookingExpiryService

/-! ## The owner's calendar -/

namespace BookingAvailabilityService

structure CreateUnavailablePeriodDto where
  startDate : String
  endDate : String

def requireOwnedItem (ownerId itemId : Id) : Prog Sys Unit := do
  let item ← select fun db => (db.items.get itemId).filter (·.ownerId == ownerId)
  let _ ← lift (required item (.notFound "Объявление не найдено"))
  pure ()

def create (ownerId itemId : Id) (dto : CreateUnavailablePeriodDto) (today : Time)
    (newId : Id) : Prog Sys UnavailablePeriod := do
  let period ← lift (parseBookingPeriod dto.startDate dto.endDate (moscowCalendarDate today))
  acquire (.item itemId)
  requireOwnedItem ownerId itemId
  let bookingConflict ← select (·.reservedConflict none itemId period.startDate period.endDate)
  lift (ensure (!bookingConflict)
    (.conflictCode "BOOKING_CONFLICT" "Период пересекается с существующим бронированием"))
  let calendarConflict ← select (·.calendarConflict itemId period.startDate period.endDate)
  lift (ensure (!calendarConflict)
    (.conflictCode "CALENDAR_CONFLICT" "Период уже отмечен как недоступный"))
  let row : UnavailablePeriod := ⟨itemId, period.startDate, period.endDate⟩
  insertUnique [.periodRow newId]
    (fun db => (db.periods.get newId).isSome || db.periods.any fun _ p => p == row)
    (.internal "Unique constraint failed: item_unavailable_periods")
    (fun db => { db with periods := db.periods.insert newId row })
  commit (.addPeriod newId row)
  pure row

def remove (ownerId itemId periodId : Id) : Prog Sys Unit := do
  acquire (.item itemId)
  requireOwnedItem ownerId itemId
  let matched ← updateWhere (.periodRow periodId)
    (fun db => (db.periods.get periodId).any (·.itemId == itemId))
    (fun db => { db with periods := db.periods.erase periodId })
  lift (ensure matched (.notFound "Период недоступности не найден"))
  commit (.removePeriod periodId itemId)

end BookingAvailabilityService

end Sosedi
