import Sosedi.Notifications.Tables
import Sosedi.Transactions.Program

/-!
# The system around the chat of a booking

The tables that the chat reads and writes.  The parties of a booking never change; its status and
the accounts of its parties do, and other services write messages of the system, which have no
author.
-/

namespace Sosedi

open Transactions

/-- The earliest time that a `timestamp` column holds, in the year 4713 BC. -/
def earliestTimestamp : Int := -210866803200000

abbrev Timestamp := { t : Int // earliestTimestamp ≤ t }

inductive BookingMessageAuthorRole where
  | borrower
  | lender
  | system
  deriving DecidableEq

structure ChatMessage where
  bookingId : Id
  authorId : Option Id
  authorRole : BookingMessageAuthorRole
  clientMessageId : Option String
  body : String
  createdAt : Timestamp
  deriving DecidableEq

/-- What other services change of a booking. -/
structure ChatBookingState where
  status : BookingStatus
  expiresAt : Option Time

structure ChatAccount where
  deletedAt : Option Time
  isBlocked : Bool

/-- What other services change. -/
structure Circumstances where
  bookings : Id → ChatBookingState
  /-- Every party of a booking has an account. -/
  users : Id → ChatAccount
  /-- The blocker and the blocked user of each row. -/
  userBlocks : List (Id × Id)

structure ChatDatabase where
  bookings : Table Id BookingParties
  circumstances : Circumstances
  messages : Table Id ChatMessage
  outbox : Table Id NotificationOutboxEvent

inductive ChatKey where
  /-- `booking-chat-rate:${actorId}`. -/
  | chatRate (actorId : Id)
  /-- `${actorId}:${clientMessageId}`. -/
  | clientMessage (actorId : Id) (clientMessageId : String)
  | booking (bookingId : Id)
  | messageRow (id : Id)
  /-- The unique index of the messages. -/
  | messageIndex (authorId : Id) (clientMessageId : String)
  | outboxRow (id : Id)
  | outboxKey (deduplicationKey : String)
  deriving DecidableEq

inductive ChatEvent where
  | quiet
  /-- Another service commits. -/
  | change (circumstances : Circumstances)
  | system (id : Id) (message : ChatMessage)
  /-- `now` is the clock that the call has read. -/
  | send (now : Time) (id : Id) (message : ChatMessage) (eventId : Id)
      (event : NotificationOutboxEvent)

namespace ChatDatabase

def insertMessage (id : Id) (message : ChatMessage) (db : ChatDatabase) : ChatDatabase :=
  { db with messages := db.messages.insert id message }

def insertEvent (id : Id) (event : NotificationOutboxEvent) (db : ChatDatabase) : ChatDatabase :=
  { db with outbox := db.outbox.insert id event }

end ChatDatabase

namespace ChatEvent

def applyDb : ChatEvent → ChatDatabase → ChatDatabase
  | quiet, db => db
  | change circumstances, db => { db with circumstances }
  | system id message, db => db.insertMessage id message
  | send _ id message eventId event, db => (db.insertMessage id message).insertEvent eventId event

end ChatEvent

abbrev ChatSys : Signature where
  DB := ChatDatabase
  World := Unit
  Key := ChatKey
  Event := ChatEvent
  Error := Error

end Sosedi
