import Sosedi.Notifications.Tables
import Sosedi.Transactions.Program

/-!
# The system around notifications

What each committed transaction and each call does to the tables is `NotifyEvent.apply` of its
event.  The provider of pushes keeps no state that the application sees: that a push was sent,
and what the provider answered, are events of their own.
-/

namespace Sosedi

open Transactions

/-- The clock. -/
structure NotifyWorld where
  now : Time

abbrev NotifyStore := NotifyDatabase × NotifyWorld

inductive NotifyKey where
  | outboxRow (id : Id)
  | outboxKey (deduplicationKey : String)
  | inboxRow (id : InboxId)
  | tokenRow (id : Id)
  /-- The two unique indexes of the device tokens. -/
  | tokenIndex (provider : PushTokenProvider) (token : String)
  | installationIndex (userId : Id) (installationId : String) (provider : PushTokenProvider)
  | deliveryRow (id : DeliveryId)
  deriving DecidableEq

inductive PushDeliveryOutcome where
  | delivered
  | invalidToken
  | retry
  deriving DecidableEq

/-- The two completions that keep the row. -/
inductive PushCompletion where
  | delivered (now : Time)
  | retry (nextAttemptAt : Time) (lastErrorCode : String)
  deriving DecidableEq

def PushCompletion.update : PushCompletion → PushDelivery → PushDelivery
  | delivered now, row =>
    { row with
      status := .delivered
      attempts := row.attempts + 1
      processingUntil := none
      deliveredAt := some now
      lastErrorCode := none }
  | retry nextAttemptAt lastErrorCode, row =>
    { row with
      status := .retry
      attempts := row.attempts + 1
      processingUntil := none
      nextAttemptAt
      lastErrorCode := some lastErrorCode }

inductive NotifyEvent where
  | quiet
  | tick (ms : Nat)
  | enqueue (id : Id) (event : NotificationOutboxEvent)
  /-- `marks` says whether this transaction was the one that marked the event. -/
  | fanOut (eventId : Id) (event : NotificationOutboxEvent) (recipientIds tokenIds began : List Id)
      (dbNow processedAt : Time) (marks : Bool)
  /-- The rows `removed` had the token before, `isNew` says whether the row `id` is new. -/
  | register (removed : List Id) (id : Id) (row : DevicePushToken) (isNew : Bool)
  | remove (userId id : Id)
  | claim (id : DeliveryId) (now processingUntil : Time)
  /-- A request to the provider, with the row of the token as the worker has read it. -/
  | send (id : DeliveryId) (token : DevicePushToken)
  /-- `none` when the call throws. -/
  | answer (id : DeliveryId) (token : DevicePushToken) (outcome : Option PushDeliveryOutcome)
  | complete (id : DeliveryId) (completion : PushCompletion)
  | dropToken (id : DeliveryId) (token : DevicePushToken)
  deriving DecidableEq

/-! ## Effects -/

namespace NotifyDatabase

/-- `inboxEvent.createMany` with `skipDuplicates`. -/
def createInbox (eventId : Id) (event : NotificationOutboxEvent) (recipientIds : List Id)
    (db : NotifyDatabase) : NotifyDatabase :=
  let keys := recipientIds.map (InboxId.mk eventId)
  { db with
    inbox := db.inbox.insertAll keys fun _ => event.toInbox
    inboxInserts := db.inboxInserts ++ keys.filter fun key => (db.inbox.get key).isNone }

/-- `pushDelivery.createMany` with `skipDuplicates`. -/
def createDeliveries (eventId : Id) (tokenIds : List Id) (dbNow : Time) (db : NotifyDatabase) :
    NotifyDatabase :=
  let keys := tokenIds.map (DeliveryId.mk eventId)
  { db with
    deliveries := db.deliveries.insertAll keys fun _ =>
      { nextAttemptAt := dbNow, createdAt := dbNow }
    deliveryInserts := db.deliveryInserts ++ keys.filter fun key => (db.deliveries.get key).isNone }

def markProcessed (eventId : Id) (processedAt : Time) (began : List Id) (db : NotifyDatabase) :
    NotifyDatabase :=
  { db with outbox := db.outbox.modify eventId fun event =>
      { event with
        processedAt := some processedAt
        began } }

def updateDelivery (id : DeliveryId) (f : PushDelivery → PushDelivery) (db : NotifyDatabase) :
    NotifyDatabase :=
  { db with deliveries := db.deliveries.modify id f }

/-- The deletion of tokens takes their deliveries along. -/
def deleteTokens (ids : List Id) (db : NotifyDatabase) : NotifyDatabase :=
  { db with
    tokens := db.tokens.eraseWhere fun id _ => ids.contains id
    deliveries := db.deliveries.eraseWhere fun id _ => ids.contains id.tokenId }

/-- The token `id` where `p`. -/
def matching (id : Id) (p : DevicePushToken → Bool) (db : NotifyDatabase) : List Id :=
  if (db.tokens.get id).any p then [id] else []

/-- `deleteMany` of the token `id` where `p`. -/
def deleteTokenWhere (id : Id) (p : DevicePushToken → Bool) (db : NotifyDatabase) :
    NotifyDatabase :=
  db.deleteTokens (db.matching id p)

def insertToken (id : Id) (row : DevicePushToken) (db : NotifyDatabase) : NotifyDatabase :=
  { db with
    tokens := db.tokens.insert id row
    issuedTokenIds := db.issuedTokenIds ++ [id] }

def updateToken (id : Id) (row : DevicePushToken) (db : NotifyDatabase) : NotifyDatabase :=
  { db with tokens := db.tokens.modify id fun old =>
      { old with
        platform := row.platform
        token := row.token } }

end NotifyDatabase

def PushDelivery.completeWith (completion : PushCompletion) (row : PushDelivery) : PushDelivery :=
  if row.status = .processing then completion.update row else row

namespace NotifyEvent

open NotifyDatabase

def applyDb : NotifyEvent → NotifyDatabase → NotifyDatabase
  | enqueue id event, db => { db with outbox := db.outbox.insert id event }
  | fanOut eventId event recipientIds tokenIds began dbNow processedAt marks, db =>
    let db := (db.createInbox eventId event recipientIds).createDeliveries eventId tokenIds dbNow
    if marks then db.markProcessed eventId processedAt began else db
  | register removed id row isNew, db =>
    let db := db.deleteTokens removed
    if isNew then db.insertToken id row else db.updateToken id row
  | remove userId id, db => db.deleteTokenWhere id fun row => row.userId == userId
  | claim id _ processingUntil, db => db.updateDelivery id fun row =>
    { row with
      status := .processing
      processingUntil := some processingUntil }
  | complete id completion, db => db.updateDelivery id (·.completeWith completion)
  | dropToken id token, db => db.deleteTokenWhere id.tokenId fun row => row.token == token.token
  | _, db => db

def applyWorld : NotifyEvent → NotifyWorld → NotifyWorld
  | tick ms, w => ⟨w.now + ms⟩
  | _, w => w

def apply (ev : NotifyEvent) (σ : NotifyStore) : NotifyStore :=
  (ev.applyDb σ.1, ev.applyWorld σ.2)

end NotifyEvent

abbrev NotifySys : Signature where
  DB := NotifyDatabase
  World := NotifyWorld
  Key := NotifyKey
  Event := NotifyEvent
  Error := Error

end Sosedi
