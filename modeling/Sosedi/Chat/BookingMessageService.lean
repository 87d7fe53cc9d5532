import Sosedi.Chat.ChatSystem
import Sosedi.Mobile.BookingChat

/-!
# The service of booking messages

`list` and `send` of `BookingMessageService`.  The times of a call are its arguments: `now` is what
it reads before it waits for its locks, `createdAt` the creation time of its message.
-/

namespace Sosedi

open Transactions

namespace BookingMessageService

def DEFAULT_PAGE_SIZE : Mobile.PageLimit := ⟨50, by decide⟩

def BOOKING_CHAT_MAX_BODY_LENGTH : Nat := 2000

def BOOKING_CHAT_RATE_WINDOW_MS : Int := 60 * 1000

def BOOKING_CHAT_MAX_PER_BOOKING_WINDOW : Nat := 20

def BOOKING_CHAT_MAX_PER_ACTOR_WINDOW : Nat := 60

def WRITABLE_STATUSES : List BookingStatus := [.confirmed, .active, .returned]

/-! ## Participants -/

/-- A booking with the accounts of its parties. -/
structure ParticipantBooking where
  parties : BookingParties
  state : ChatBookingState
  borrower : ChatAccount
  lender : ChatAccount

def findParticipant (actorId bookingId : Id) (db : ChatDatabase) : Option ParticipantBooking :=
  ((db.bookings.get bookingId).filter fun parties =>
    parties.borrowerId == actorId || parties.lenderId == actorId).map fun parties =>
      { parties
        state := db.circumstances.bookings bookingId
        borrower := db.circumstances.users parties.borrowerId
        lender := db.circumstances.users parties.lenderId }

def requireParticipant (actorId bookingId : Id) (db : ChatDatabase) :
    Except Error ParticipantBooking :=
  match findParticipant actorId bookingId db with
  | none => .error (.notFound "Бронирование не найдено")
  | some booking => .ok booking

theorem requireParticipant_eq {actorId bookingId : Id} {db : ChatDatabase}
    {parties : BookingParties} (hbooking : db.bookings.get bookingId = some parties)
    (hactor : parties.borrowerId = actorId ∨ parties.lenderId = actorId) :
    ∃ booking, requireParticipant actorId bookingId db = .ok booking ∧
      booking.parties = parties := by
  have hparty : (parties.borrowerId == actorId || parties.lenderId == actorId) = true := by
    simpa using hactor
  simp [requireParticipant, findParticipant, hbooking, Option.filter, hparty]

def canWrite (state : ChatBookingState) (now : Time) : Bool :=
  if state.status = .pending then state.expiresAt.any fun expiresAt => now < expiresAt
  else state.status ∈ WRITABLE_STATUSES

/-! ## Responses -/

inductive BookingMessageAuthor where
  | self
  | counterparty
  | system
  deriving DecidableEq

structure BookingMessageResponse where
  id : Id
  bookingId : Id
  author : BookingMessageAuthor
  clientMessageId : Option String
  body : String
  createdAt : Time
  deriving DecidableEq

def roleOf (actorId : Id) (parties : BookingParties) : BookingMessageAuthorRole :=
  if parties.borrowerId = actorId then .borrower else .lender

def toResponse (actorId : Id) (parties : BookingParties) (id : Id) (message : ChatMessage) :
    BookingMessageResponse :=
  let author := if message.authorRole = .system then BookingMessageAuthor.system
    else if message.authorRole = roleOf actorId parties then .self
    else .counterparty
  { id
    bookingId := message.bookingId
    author
    clientMessageId := if author = .self then message.clientMessageId else none
    body := message.body
    createdAt := message.createdAt.1 }

/-! ## Reading -/

/-- The messages of a booking, with their sort columns. -/
def conversation (bookingId : Id) (db : ChatDatabase) : List (Mobile.BookingMessage ChatMessage) :=
  (db.messages.rows.filter fun row => row.2.bookingId == bookingId).map fun row =>
    { id := row.1, createdAt := row.2.createdAt.1, content := row.2 }

structure BookingMessagePage where
  items : List BookingMessageResponse
  nextCursor : Option Id
  deriving DecidableEq

def invalidCursor : Error :=
  ⟨.badRequest, some "INVALID_MESSAGE_CURSOR", "Курсор сообщений недействителен"⟩

/-- The row of the cursor, where the query has one. -/
def findCursor (bookingId : Id) (cursor : Option Id) (db : ChatDatabase) :
    Except Error (Option (Mobile.BookingMessage ChatMessage)) :=
  match cursor with
  | none => .ok none
  | some cursor =>
    match (conversation bookingId db).find? (·.id = cursor) with
    | none => .error invalidCursor
    | some after => .ok (some after)

/-- `findMany` before the row of the cursor. -/
def findMessages (bookingId : Id) (after : Option (Mobile.BookingMessage ChatMessage))
    (db : ChatDatabase) : List (Mobile.BookingMessage ChatMessage) :=
  (conversation bookingId db).filter fun message => after.all (Mobile.isBefore · message)

def toPageResponse (actorId : Id) (parties : BookingParties)
    (page : Mobile.BookingMessagePage ChatMessage) : BookingMessagePage where
  items := page.items.map fun message => toResponse actorId parties message.id message.content
  nextCursor := page.nextCursor

/-- Each of the three statements reads a database of its own. -/
def list (actorId bookingId : Id) (limit : Option Mobile.PageLimit) (cursor : Option Id)
    (db₀ db₁ db₂ : ChatDatabase) : Except Error BookingMessagePage := do
  let booking ← requireParticipant actorId bookingId db₀
  let after ← findCursor bookingId cursor db₁
  pure (toPageResponse actorId booking.parties (Mobile.pageOf (limit.getD DEFAULT_PAGE_SIZE).limit
    (findMessages bookingId after db₂)))

/-! ## Writing -/

structure CreateBookingMessageDto where
  clientMessageId : String
  body : String

def containsUnsafeControlCharacter (value : String) : Bool :=
  value.toList.any fun character =>
    let codePoint := character.toNat
    codePoint ≤ 8 || codePoint == 11 || codePoint == 12 || (14 ≤ codePoint && codePoint ≤ 31) ||
      codePoint == 127

/-- `length` of a string counts code units. -/
def codeUnits (value : String) : Nat :=
  (value.toList.map fun character => if character.toNat < 0x10000 then 1 else 2).sum

/-- Irreducible, as unfolding it on a variable takes long. -/
@[irreducible] def isInvalidBody (body : String) : Bool :=
  codeUnits body == 0 || BOOKING_CHAT_MAX_BODY_LENGTH < codeUnits body ||
    containsUnsafeControlCharacter body

def invalidBody : Error := ⟨.badRequest, some "INVALID_MESSAGE_BODY",
  "Сообщение должно содержать от 1 до 2000 символов без служебных символов"⟩

def idempotencyKeyReused : Error :=
  .conflictCode "IDEMPOTENCY_KEY_REUSED" "Идентификатор сообщения уже использован"

def readOnly : Error := .conflictCode "BOOKING_CHAT_READ_ONLY"
  "В этом состоянии бронирования чат доступен только для чтения"

def chatBlocked : Error := .conflictCode "BOOKING_CHAT_BLOCKED"
  "Отправка сообщений между участниками недоступна"

def tooManyMessages : Error :=
  .tooManyRequests "Слишком много сообщений. Попробуйте через минуту"

/-- `findUnique` by the author and the client's id. -/
def findMessage (actorId : Id) (clientMessageId : String) (db : ChatDatabase) :
    Option (Id × ChatMessage) :=
  db.messages.rows.find? fun row =>
    row.2.authorId == some actorId && row.2.clientMessageId == some clientMessageId

def isBlockedBetween (a b : Id) (db : ChatDatabase) : Bool :=
  db.circumstances.userBlocks.any fun block => block == (a, b) || block == (b, a)

/-- `count` of the messages of the actor since `start`, in one booking or in all. -/
def countSince (actorId : Id) (bookingId : Option Id) (start : Time) (db : ChatDatabase) : Nat :=
  db.messages.rows.countP fun row =>
    bookingId.all (· == row.2.bookingId) && row.2.authorId == some actorId &&
      start ≤ row.2.createdAt.1

def insertMessage (id : Id) (message : ChatMessage) : Prog ChatSys Unit :=
  insertUnique
    (.messageRow id :: (message.authorId.bind fun authorId => message.clientMessageId.map
      (ChatKey.messageIndex authorId)).toList)
    (fun db => (db.messages.get id).isSome ||
      (message.authorId.bind fun authorId => message.clientMessageId.bind
        fun clientMessageId => findMessage authorId clientMessageId db).isSome)
    (.internal "Unique constraint failed: booking_messages")
    (ChatDatabase.insertMessage id message)

def insertEvent (id : Id) (event : NotificationOutboxEvent) : Prog ChatSys Unit :=
  insertUnique [.outboxRow id, .outboxKey event.deduplicationKey]
    (fun db => (db.outbox.get id).isSome ||
      db.outbox.any fun _ other => other.deduplicationKey == event.deduplicationKey)
    (.internal "constraint failed: notification_outbox_events")
    (ChatDatabase.insertEvent id event)

/-- The message is new: the checks and the insertion. -/
def post (actorId bookingId : Id) (clientMessageId body : String) (booking : ParticipantBooking)
    (now : Time) (createdAt : Timestamp) (newId newEventId : Id) : Prog ChatSys ChatMessage := do
  lift (ensure (canWrite booking.state now) readOnly)
  let recipientId := if booking.parties.borrowerId = actorId then booking.parties.lenderId
    else booking.parties.borrowerId
  let recipient := if booking.parties.borrowerId = recipientId then booking.borrower
    else booking.lender
  lift (ensure (!(recipient.deletedAt.isSome || recipient.isBlocked)) readOnly)
  let interactionBlock ← select (isBlockedBetween actorId recipientId)
  lift (ensure (!interactionBlock) chatBlocked)
  let rateWindowStart := now - BOOKING_CHAT_RATE_WINDOW_MS
  let bookingRateCount ← select (countSince actorId (some bookingId) rateWindowStart)
  let actorRateCount ← select (countSince actorId none rateWindowStart)
  lift (ensure (!(BOOKING_CHAT_MAX_PER_BOOKING_WINDOW ≤ bookingRateCount ||
    BOOKING_CHAT_MAX_PER_ACTOR_WINDOW ≤ actorRateCount)) tooManyMessages)
  let message :=
    { bookingId
      authorId := some actorId
      authorRole := roleOf actorId booking.parties
      clientMessageId := some clientMessageId
      body
      createdAt }
  insertMessage newId message
  let event := (Producer.bookingMessage bookingId recipientId newId).event createdAt.1
  insertEvent newEventId event
  commit (.send now newId message newEventId event)
  pure message

def send (actorId bookingId : Id) (dto : CreateBookingMessageDto) (now : Time)
    (createdAt : Timestamp) (newId newEventId : Id) : Prog ChatSys BookingMessageResponse := do
  let body := trim dto.body
  lift (ensure (!isInvalidBody body) invalidBody)
  acquire (.chatRate actorId)
  acquire (.clientMessage actorId dto.clientMessageId)
  acquire (.booking bookingId)
  let found ← select (requireParticipant actorId bookingId)
  let booking ← lift found
  let repeated ← select (findMessage actorId dto.clientMessageId)
  match repeated with
  | some (id, repeated) =>
    lift (ensure (!(repeated.bookingId != bookingId || repeated.body != body)) idempotencyKeyReused)
    commit .quiet
    pure (toResponse actorId booking.parties id repeated)
  | none =>
    let message ← post actorId bookingId dto.clientMessageId body booking now createdAt newId
      newEventId
    pure (toResponse actorId booking.parties newId message)

end BookingMessageService

/-! ## Calls -/

/-- Another service changes what the chat reads. -/
def changeCircumstances (circumstances : Circumstances) : Prog ChatSys Unit := do
  write [] fun db => { db with circumstances }
  commit (.change circumstances)

/-- `bookingMessage.create` of another service. -/
def systemMessage (bookingId : Id) (body : String) (createdAt : Timestamp) (newId : Id) :
    Prog ChatSys Unit := do
  let message : ChatMessage :=
    { bookingId, authorId := none, authorRole := .system, clientMessageId := none, body, createdAt }
  BookingMessageService.insertMessage newId message
  commit (.system newId message)

inductive ChatCall where
  | send (actorId bookingId : Id) (dto : BookingMessageService.CreateBookingMessageDto) (now : Time)
      (createdAt : Timestamp) (newId newEventId : Id)
  | change (circumstances : Circumstances)
  | system (bookingId : Id) (body : String) (createdAt : Timestamp) (newId : Id)

namespace ChatCall

def prog : ChatCall → Prog ChatSys Unit
  | send actorId bookingId dto now createdAt newId newEventId =>
    (BookingMessageService.send actorId bookingId dto now createdAt newId newEventId).bind
      fun _ => .ret ()
  | change circumstances => changeCircumstances circumstances
  | system bookingId body createdAt newId => systemMessage bookingId body createdAt newId

/-- The clock is read before the message is created. -/
def InOrder : ChatCall → Prop
  | send _ _ _ now createdAt _ _ => now ≤ createdAt.1
  | _ => True

end ChatCall

/-- The programs of the clients. -/
def ChatCalls (p : Prog ChatSys Unit) : Prop := ∃ c : ChatCall, c.InOrder ∧ p = c.prog

end Sosedi
