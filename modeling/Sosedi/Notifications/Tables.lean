import Sosedi.Domain.Deal

/-!
# The tables of notifications

The outbox with its producers, the inbox, the device tokens and the push deliveries.  The
participants of bookings and the users of tickets never change; they are given.
-/

namespace Sosedi

/-! ## Rows -/

structure NotificationOutboxEvent where
  bookingId : Option Id
  supportTicketId : Option Id
  recipientId : Option Id
  itemId : Option Id
  eventType : String
  deduplicationKey : String
  createdAt : Time
  processedAt : Option Time
  /-- The tokens of its recipients when the transaction that processed it began (ghost). -/
  began : List Id
  deriving DecidableEq

structure InboxEvent where
  bookingId : Option Id
  supportTicketId : Option Id
  itemId : Option Id
  eventType : String
  createdAt : Time
  deriving DecidableEq

inductive PushTokenProvider where
  | fcm
  | rustore
  deriving DecidableEq

inductive PushPlatform where
  | android
  | ios
  deriving DecidableEq

structure DevicePushToken where
  userId : Id
  installationId : String
  provider : PushTokenProvider
  platform : PushPlatform
  token : String
  deriving DecidableEq

inductive PushDeliveryStatus where
  | pending
  | processing
  | retry
  | delivered
  deriving DecidableEq

/-- The defaults of a new row are those of the schema. -/
structure PushDelivery where
  status : PushDeliveryStatus := .pending
  attempts : Nat := 0
  nextAttemptAt : Time
  processingUntil : Option Time := none
  deliveredAt : Option Time := none
  lastErrorCode : Option String := none
  createdAt : Time
  deriving DecidableEq

/-- A delivery is unique for its event and its token. -/
structure DeliveryId where
  eventId : Id
  tokenId : Id
  deriving DecidableEq

structure InboxId where
  eventId : Id
  recipientId : Id
  deriving DecidableEq

structure BookingParties where
  borrowerId : Id
  lenderId : Id

structure NotifyDatabase where
  bookings : Table Id BookingParties
  /-- The user of each ticket. -/
  tickets : Table Id Id
  outbox : Table Id NotificationOutboxEvent
  inbox : Table InboxId InboxEvent
  /-- The inbox rows ever inserted, in order (ghost). -/
  inboxInserts : List InboxId
  tokens : Table Id DevicePushToken
  /-- The ids ever given to device tokens (ghost). -/
  issuedTokenIds : List Id
  deliveries : Table DeliveryId PushDelivery
  /-- The deliveries ever inserted, in order (ghost). -/
  deliveryInserts : List DeliveryId

/-! ## Producers -/

/-- What the services write into the outbox. -/
inductive Producer where
  /-- A transition of a booking. -/
  | booking (bookingId : Id) (eventType : BookingEventType)
  | bookingMessage (bookingId recipientId messageId : Id)
  | supportMessage (ticketId messageId : Id)
  | supportReplied (ticketId : Id)
  | supportClosed (ticketId : Id)
  /-- `ITEM_APPROVED` or `ITEM_REJECTED`. -/
  | itemModeration (itemId ownerId : Id) (eventType updatedAt : String)
  | itemHidden (reportId itemId ownerId : Id)
  | reviewHidden (reportId authorId bookingId : Id)

def BookingEventType.name : BookingEventType → String
  | created => "BOOKING_CREATED"
  | confirmed => "BOOKING_CONFIRMED"
  | cancelled => "BOOKING_CANCELLED"
  | competingCancelled => "BOOKING_COMPETING_CANCELLED"
  | handoverConfirmed => "BOOKING_HANDOVER_CONFIRMED"
  | returnConfirmed => "BOOKING_RETURN_CONFIRMED"
  | completed => "BOOKING_COMPLETED"
  | pendingTimeout => "BOOKING_PENDING_TIMEOUT"

def joinKey (parts : List String) : String := ":".intercalate parts

def bookingEventKey (bookingId : Id) (eventType : BookingEventType) : String :=
  joinKey ["booking", toString bookingId, eventType.name]

namespace NotificationOutboxEvent

/-- A row of the outbox before its columns are set. -/
def blank (eventType deduplicationKey : String) (createdAt : Time) :
    NotificationOutboxEvent where
  bookingId := none
  supportTicketId := none
  recipientId := none
  itemId := none
  eventType
  deduplicationKey
  createdAt
  processedAt := none
  began := []

/-- The addressed user, else both participants of the booking, else the ticket's user. -/
def recipientIds (db : NotifyDatabase) (event : NotificationOutboxEvent) : List Id :=
  match event.recipientId with
  | some recipientId => [recipientId]
  | none =>
    match event.bookingId.bind db.bookings.get with
    | some booking =>
      if booking.borrowerId = booking.lenderId then [booking.borrowerId]
      else [booking.borrowerId, booking.lenderId]
    | none => (event.supportTicketId.bind db.tickets.get).toList

/-- The row of the inbox. -/
def toInbox (event : NotificationOutboxEvent) : InboxEvent where
  bookingId := event.bookingId
  supportTicketId := event.supportTicketId
  itemId := event.itemId
  eventType := event.eventType
  createdAt := event.createdAt

end NotificationOutboxEvent

/-- `notificationOutboxEvent.create` of each producer. -/
def Producer.event (createdAt : Time) : Producer → NotificationOutboxEvent
  | booking bookingId eventType =>
    { NotificationOutboxEvent.blank eventType.name (bookingEventKey bookingId eventType)
        createdAt with bookingId := some bookingId }
  | bookingMessage bookingId recipientId messageId =>
    { NotificationOutboxEvent.blank "BOOKING_MESSAGE_CREATED"
        (joinKey ["booking", toString bookingId, "message", toString messageId]) createdAt with
      bookingId := some bookingId
      recipientId := some recipientId }
  | supportMessage ticketId messageId =>
    { NotificationOutboxEvent.blank "SUPPORT_MESSAGE_CREATED"
        (joinKey ["support", toString ticketId, "message", toString messageId]) createdAt with
      supportTicketId := some ticketId }
  | supportReplied ticketId =>
    { NotificationOutboxEvent.blank "SUPPORT_REPLIED"
        (joinKey ["support", toString ticketId, "first-reply"]) createdAt with
      supportTicketId := some ticketId }
  | supportClosed ticketId =>
    { NotificationOutboxEvent.blank "SUPPORT_TICKET_CLOSED"
        (joinKey ["support", toString ticketId, "closed"]) createdAt with
      supportTicketId := some ticketId }
  | itemModeration itemId ownerId eventType updatedAt =>
    { NotificationOutboxEvent.blank eventType
        (joinKey ["item", toString itemId, eventType, updatedAt]) createdAt with
      recipientId := some ownerId
      itemId := some itemId }
  | itemHidden reportId itemId ownerId =>
    { NotificationOutboxEvent.blank "ITEM_HIDDEN_BY_REPORT_REVIEW"
        (joinKey ["report", toString reportId, "item-hidden"]) createdAt with
      recipientId := some ownerId
      itemId := some itemId }
  | reviewHidden reportId authorId bookingId =>
    { NotificationOutboxEvent.blank "REVIEW_HIDDEN_BY_REPORT_REVIEW"
        (joinKey ["report", toString reportId, "review-hidden"]) createdAt with
      recipientId := some authorId
      bookingId := some bookingId }

namespace NotifyDatabase

variable {db : NotifyDatabase}

/-- The foreign keys of an outbox row. -/
def references (db : NotifyDatabase) (event : NotificationOutboxEvent) : Bool :=
  event.bookingId.all (fun id => (db.bookings.get id).isSome) &&
    event.supportTicketId.all (fun id => (db.tickets.get id).isSome)

/-- The device tokens of some users. -/
def tokensOf (db : NotifyDatabase) (userIds : List Id) : List Id :=
  db.tokens.keysWhere fun _ token => userIds.contains token.userId

/-- The row of a token or of an installation that a unique index finds. -/
def findToken (db : NotifyDatabase) (p : DevicePushToken → Bool) : Option Id :=
  (db.tokens.keysWhere fun _ token => p token).head?

/-- The deliveries of a token. -/
def deliveriesOf (db : NotifyDatabase) (tokenId : Id) : List DeliveryId :=
  db.deliveries.keysWhere fun key _ => key.tokenId = tokenId

end NotifyDatabase

/-- **Every producer names a recipient.** -/
theorem Producer.recipientIds_ne_nil {db : NotifyDatabase} {createdAt : Time} {p : Producer}
    (h : db.references (p.event createdAt) = true) :
    (p.event createdAt).recipientIds db ≠ [] := by
  cases p with
  | booking bookingId eventType =>
    simp only [NotifyDatabase.references, event, Option.all_some, Bool.and_eq_true,
      Option.isSome_iff_exists] at h
    obtain ⟨⟨parties, hparties⟩, -⟩ := h
    simp only [NotificationOutboxEvent.recipientIds, event, NotificationOutboxEvent.blank,
      Option.bind_some, hparties]
    split <;> simp
  | supportMessage | supportReplied | supportClosed =>
    simp only [NotifyDatabase.references, event, Option.all_some, Bool.and_eq_true,
      Option.isSome_iff_exists] at h
    obtain ⟨-, userId, huser⟩ := h
    simp [NotificationOutboxEvent.recipientIds, event, NotificationOutboxEvent.blank, huser]
  | bookingMessage | itemModeration | itemHidden | reviewHidden =>
    simp [NotificationOutboxEvent.recipientIds, event]

/-- No recipient is named twice. -/
theorem NotificationOutboxEvent.nodup_recipientIds (db : NotifyDatabase)
    (event : NotificationOutboxEvent) : (event.recipientIds db).Nodup := by
  unfold recipientIds
  split
  · exact List.nodup_singleton _
  · split
    · split
      · exact List.nodup_singleton _
      · rename_i hne
        simpa using hne
    · cases event.supportTicketId.bind db.tickets.get <;> simp

end Sosedi
