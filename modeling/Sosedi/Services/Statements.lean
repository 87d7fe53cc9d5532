import Sosedi.Domain.Events

/-!
# Statements of the services

The configuration of a call and the statements that several services share.
-/

namespace Sosedi

open Transactions

/-- Configuration that a call reads. -/
structure Env where
  policy : MarketplacePolicy
  /-- `MARKETPLACE_OFFER_VERSION`. -/
  offerVersion : Option String
  /-- `MARKETPLACE_CANCELLATION_POLICY_VERSION`. -/
  cancellationPolicyVersion : Option String
  /-- The image library: re-encodes a file of the given type, or fails. -/
  sharp : String → Bytes → Option Bytes
  publicUrl : String → String

/-- `value ?? throw e`. -/
def required {α : Type} (value : Option α) (e : Error) : Except Error α :=
  match value with
  | some a => .ok a
  | none => .error e

@[simp] theorem required_eq_ok {α : Type} {value : Option α} {e : Error} {a : α} :
    required value e = .ok a ↔ value = some a := by
  cases value <;> simp [required]

/-- `update`/`create` statements on the rows of one deal. -/
def onDeal (rows : List LockKey) (id : Id) (f : Deal → Deal) : Prog Sys Unit :=
  write rows (Database.modifyDeal id f)

/-- `notificationOutboxEvent.create` under its deduplication key. -/
def createOutbox (id : Id) (eventType : BookingEventType) : Prog Sys Unit :=
  insertUnique [.outboxKey id eventType] (·.outboxTaken id eventType)
    (.internal "Unique constraint failed: deduplicationKey")
    (Database.modifyDeal id (Deal.addOutbox eventType))

/-- `createMany` of outbox events with `skipDuplicates`. -/
def createOutboxMissing (id : Id) (eventType : BookingEventType) : Prog Sys Unit :=
  insertMissing (.outboxKey id eventType) (·.outboxTaken id eventType)
    (Database.modifyDeal id (Deal.addOutbox eventType))

/-- `depositOperation.create` under its primary key and its idempotency key. -/
def createOperation (bookingId id : Id) (operation : DepositOperation) : Prog Sys Unit :=
  insertUnique [.operationRow bookingId id, .operationKey bookingId operation.idempotencyKey]
    (·.operationTaken bookingId id operation.idempotencyKey)
    (.internal "Unique constraint failed: deposit_operations")
    (Database.modifyDeal bookingId (Deal.createOperation id operation))

/-- `new Date()`. -/
def clock : Prog Sys Time := call .noop id (·.now)

/-- Time passes. -/
def tick (ms : Nat) : Prog Sys Unit :=
  call (.upload (.tick ms)) (fun w => { w with now := w.now + ms }) fun _ => ()

/-- The reads of a SERIALIZABLE transaction: all of them see the database of its first
statement. -/
def takeSnapshot : Prog Sys Database := select id

/-- An UPDATE of a row in a SERIALIZABLE transaction: it fails when the row is no longer the
one of the snapshot. -/
def updateSnapshot {α : Type} [DecidableEq α] (row : LockKey) (read : Database → α)
    (snapshot : Database) (f : Database → Database) : Prog Sys Unit :=
  insertUnique [row] (fun db => decide (read db ≠ read snapshot))
    (.internal "could not serialize access due to concurrent update") f

/-- `adminAuditLog.create`. -/
def createAdminAudit (entry : AuditEntry) : Prog Sys Unit :=
  write [] fun db => { db with adminAuditLog := db.adminAuditLog ++ [entry] }

/-- `notificationOutboxEvent.create` of an event about an item or a review. -/
def createNotification (notification : Notification) : Prog Sys Unit :=
  insertUnique [.notificationKey notification.deduplicationKey]
    (fun db => db.notifications.any (·.deduplicationKey == notification.deduplicationKey))
    (.internal "Unique constraint failed: deduplicationKey")
    fun db => { db with notifications := db.notifications ++ [notification] }

namespace Database

/-- The bookings there are; only events mention the result. -/
def bookingIds (db : Database) : List Id := db.deals.keysWhere fun _ _ => true

/-- Some unfinished booking satisfies `p`. -/
def unfinishedBooking (db : Database) (p : Booking → Bool) : Bool :=
  db.deals.any fun _ d => p d.booking && d.booking.status.unfinished

end Database

end Sosedi
