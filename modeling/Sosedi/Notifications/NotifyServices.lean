import Mathlib.Data.List.Sort
import Sosedi.Notifications.NotifySystem

/-!
# The services of notifications

The producers' inserts, `BookingOutboxProcessor`, `DeviceTokensService` and
`PushDeliveryProcessor`.  The foreign key of a delivery locks its token; a registration that
PostgreSQL refuses to serialize starts again as another call.
-/

namespace Sosedi

open Transactions

def notifyClock : Prog NotifySys Time := call .quiet id (·.now)

/-- Time passes. -/
def notifyTick (ms : Nat) : Prog NotifySys Unit :=
  call (.tick ms) (NotifyEvent.applyWorld (.tick ms)) fun _ => ()

/-- `notificationOutboxEvent.create` in the transaction of a producer. -/
def enqueue (producer : Producer) (createdAt : Time) (newId : Id) : Prog NotifySys Unit := do
  let event := producer.event createdAt
  insertUnique [.outboxRow newId, .outboxKey event.deduplicationKey]
    (fun db => (db.outbox.get newId).isSome || !db.references event ||
      db.outbox.any fun _ other => other.deduplicationKey == event.deduplicationKey)
    (.internal "constraint failed: notification_outbox_events")
    fun db => { db with outbox := db.outbox.insert newId event }
  commit (.enqueue newId event)

/-! ## The outbox -/

namespace BookingOutboxProcessor

def outboxBatchSize : Nat := 50

def noEntity : Error := .internal "Outbox event has no entity"

def unprocessed (event : NotificationOutboxEvent) : Bool := event.processedAt.isNone

/-- The unprocessed event, its recipients and the tokens that they have. -/
def findEvent (eventId : Id) (db : NotifyDatabase) :
    Option (NotificationOutboxEvent × List Id × List Id) :=
  ((db.outbox.get eventId).filter unprocessed).map fun event =>
    (event, event.recipientIds db, db.tokensOf (event.recipientIds db))

/-- `pushDelivery.createMany`: every token must still be there. -/
def createDeliveries (eventId : Id) (tokenIds : List Id) (dbNow : Time) : Prog NotifySys Unit :=
  insertUnique
    (tokenIds.map .tokenRow ++ tokenIds.map fun tokenId => .deliveryRow ⟨eventId, tokenId⟩)
    (fun db => tokenIds.any fun tokenId => (db.tokens.get tokenId).isNone)
    (.internal "Foreign key constraint failed: push_deliveries_tokenId_fkey")
    (NotifyDatabase.createDeliveries eventId tokenIds dbNow)

/-- `dbNow` is the clock of the database in this transaction. -/
def deliver (eventId : Id) (dbNow : Time) : Prog NotifySys Nat := do
  let found ← select (findEvent eventId)
  match found with
  | none => do
    commit .quiet
    pure 0
  | some (event, recipientIds, began) =>
    lift (ensure (!recipientIds.isEmpty) noEntity)
    write (recipientIds.map fun recipientId => .inboxRow ⟨eventId, recipientId⟩)
      (NotifyDatabase.createInbox eventId event recipientIds)
    let tokenIds ← select (·.tokensOf recipientIds)
    createDeliveries eventId tokenIds dbNow
    let processedAt ← notifyClock
    let marks ← updateWhere (.outboxRow eventId)
      (fun db => (db.outbox.get eventId).any unprocessed)
      (NotifyDatabase.markProcessed eventId processedAt began)
    commit (.fanOut eventId event recipientIds tokenIds began dbNow processedAt marks)
    pure 1

/-- Unprocessed events, the oldest first. -/
def pendingEvents (db : NotifyDatabase) : List Id :=
  (((db.outbox.rows.filter fun r => unprocessed r.2).insertionSort fun a b =>
    a.2.createdAt ≤ b.2.createdAt).take outboxBatchSize).map Prod.fst

def processPending (dbNow : Time) : Prog NotifySys Unit := do
  let pending ← select pendingEvents
  forEach pending fun eventId => do
    let _ ← deliver eventId dbNow
    pure ()

end BookingOutboxProcessor

/-! ## Device tokens -/

/-- The locks of a write to the row of a token: the row, its index entries, its deliveries. -/
def NotifyDatabase.tokenLocks (db : NotifyDatabase) (id : Id) : List NotifyKey :=
  .tokenRow id :: ((db.tokens.get id).toList.flatMap fun row =>
    [.tokenIndex row.provider row.token,
      .installationIndex row.userId row.installationId row.provider]) ++
    (db.deliveriesOf id).map .deliveryRow

namespace DeviceTokensService

structure RegisterDeviceTokenDto where
  provider : PushTokenProvider
  platform : PushPlatform
  token : String

/-- `P2034`. -/
def serializationFailure : Error := .internal "could not serialize access"

/-- `P2002`. -/
def uniqueViolation : Error := .internal "Unique constraint failed: device_push_tokens"

def hasToken (provider : PushTokenProvider) (token : String) (row : DevicePushToken) : Bool :=
  row.provider == provider && row.token == token

def ofInstallation (userId : Id) (installationId : String) (provider : PushTokenProvider)
    (row : DevicePushToken) : Bool :=
  row.userId == userId && row.installationId == installationId && row.provider == provider

def RegisterDeviceTokenDto.row (dto : RegisterDeviceTokenDto) (userId : Id)
    (installationId : String) : DevicePushToken where
  userId
  installationId
  provider := dto.provider
  platform := dto.platform
  token := dto.token

/-- The rows of other installations that hold the token. -/
def staleTokens (db : NotifyDatabase) (userId : Id) (installationId : String)
    (dto : RegisterDeviceTokenDto) : List Id :=
  db.tokens.keysWhere fun _ row => hasToken dto.provider dto.token row &&
    !(row.userId == userId && row.installationId == installationId)

/-- `deleteMany` of rows that the snapshot found. -/
def deleteStale (snapshot : NotifyDatabase) (stale : List Id) : Prog NotifySys Unit :=
  .exec (fun db => stale.flatMap db.tokenLocks) (fun _ => NotifyDatabase.deleteTokens stale)
    fun db => lift (ensure (stale.all fun id => db.tokens.get id == snapshot.tokens.get id)
      serializationFailure)

/-- Another row holds the token. -/
def tokenTaken (row : DevicePushToken) (id : Id) (db : NotifyDatabase) : Bool :=
  db.tokens.any fun id' other => id' != id && hasToken row.provider row.token other

/-- `upsert` on the row that the snapshot found. -/
def updateOwn (snapshot : NotifyDatabase) (id : Id) (row : DevicePushToken) :
    Prog NotifySys Unit :=
  .exec (fun db => .tokenIndex row.provider row.token :: db.tokenLocks id)
    (fun _ => NotifyDatabase.updateToken id row) fun db => do
      lift (ensure (db.tokens.get id == snapshot.tokens.get id) serializationFailure)
      lift (ensure (!tokenTaken row id db) uniqueViolation)

/-- `upsert` where the snapshot found no row. -/
def insertOwn (id : Id) (row : DevicePushToken) : Prog NotifySys Unit :=
  .exec (fun _ => [.tokenRow id, .tokenIndex row.provider row.token,
      .installationIndex row.userId row.installationId row.provider])
    (fun _ => NotifyDatabase.insertToken id row) fun db => do
      lift (ensure (!db.tokens.any fun _ other => ofInstallation row.userId row.installationId
        row.provider other) serializationFailure)
      lift (ensure (!tokenTaken row id db) uniqueViolation)
      lift (ensure (!db.issuedTokenIds.contains id) (.internal "identifier drawn before"))

/-- One attempt of `registerWithRetry`; `newId` is the fresh id of a new row. -/
def registerOnce (userId : Id) (installationId : String) (dto : RegisterDeviceTokenDto)
    (newId : Id) : Prog NotifySys Id := do
  let snapshot ← select id
  let row := dto.row userId installationId
  let stale := staleTokens snapshot userId installationId dto
  deleteStale snapshot stale
  match snapshot.findToken (ofInstallation userId installationId dto.provider) with
  | some id => do
    updateOwn snapshot id row
    commit (.register stale id row false)
    pure id
  | none => do
    insertOwn newId row
    commit (.register stale newId row true)
    pure newId

def register (isUUID : String → Bool) (userId : Id) (installationId : String)
    (dto : RegisterDeviceTokenDto) (newId : Id) : Prog NotifySys Id := do
  lift (ensure (isUUID installationId) (.badRequest "X-Installation-Id должен быть UUID v4"))
  lift (ensure (!(dto.provider == .rustore && dto.platform != .android))
    (.badRequest "RuStore Push поддерживается только на Android"))
  registerOnce userId installationId dto newId

/-- `deleteMany` where `p`, in a transaction of its own. -/
def deleteWhere (id : Id) (p : DevicePushToken → Bool) : Prog NotifySys Bool :=
  .exec (·.tokenLocks id) (fun _ => NotifyDatabase.deleteTokenWhere id p) fun db =>
    .ret ((db.tokens.get id).any p)

def remove (userId id : Id) : Prog NotifySys Bool := do
  let removed ← deleteWhere id fun row => row.userId == userId
  commit (.remove userId id)
  pure removed

end DeviceTokensService

/-! ## Pushes -/

namespace PushDeliveryProcessor

def pushBatchSize : Nat := 50

def pushProcessingLeaseMs : Int := 60 * 1000

def pushInitialRetryMs : Int := 30 * 1000

def pushMaxRetryMs : Int := 60 * 60 * 1000

/-- The WHERE clause of the batch and of a claim. -/
def claimable (now : Time) (row : PushDelivery) : Bool :=
  (row.status == .pending || row.status == .retry) && row.nextAttemptAt ≤ now ||
    row.status == .processing && row.processingUntil.any (· ≤ now)

/-- The delay after `attempts` earlier attempts. -/
def retryDelay (attempts : Nat) : Int :=
  min (pushInitialRetryMs * 2 ^ min (attempts + 1 - 1) 10) pushMaxRetryMs

/-- The delivery and its token. -/
def findDelivery (id : DeliveryId) (db : NotifyDatabase) :
    Option (PushDelivery × DevicePushToken) :=
  (db.deliveries.get id).bind fun delivery =>
    (db.tokens.get id.tokenId).map fun token => (delivery, token)

/-- The completing write. -/
def complete (id : DeliveryId) (completion : PushCompletion) : Prog NotifySys Unit := do
  write [.deliveryRow id] (NotifyDatabase.updateDelivery id (·.completeWith completion))
  commit (.complete id completion)

/-- `answer` is what the provider answers to a request, `none` where the call throws. -/
def deliver (answer : DeliveryId → Option PushDeliveryOutcome) (id : DeliveryId) (now : Time) :
    Prog NotifySys Nat := do
  let claimUntil := now + pushProcessingLeaseMs
  let claimed ← updateWhere (.deliveryRow id)
    (fun db => (db.deliveries.get id).any (claimable now))
    (NotifyDatabase.updateDelivery id fun row =>
      { row with
        status := .processing
        processingUntil := some claimUntil })
  if claimed then do
    commit (.claim id now claimUntil)
    let found ← select (findDelivery id)
    match found with
    | none => pure 0
    | some (delivery, token) =>
      let retryAt := now + retryDelay delivery.attempts
      call (.send id token) (fun w => w) fun _ => ()
      call (.answer id token (answer id)) (fun w => w) fun _ => ()
      match answer id with
      | some .delivered => complete id (.delivered now)
      | some .invalidToken => do
        let _ ← DeviceTokensService.deleteWhere id.tokenId fun row => row.token == token.token
        commit (.dropToken id token)
      | some .retry => complete id (.retry retryAt "PROVIDER_RETRY")
      | none => complete id (.retry retryAt "PROVIDER_ERROR")
      pure 1
  else do
    commit .quiet
    pure 0

/-- Claimable deliveries, the earliest attempts first. -/
def pendingDeliveries (now : Time) (db : NotifyDatabase) : List DeliveryId :=
  (((db.deliveries.rows.filter fun r => claimable now r.2).insertionSort fun a b =>
    a.2.nextAttemptAt < b.2.nextAttemptAt ∨
      (a.2.nextAttemptAt = b.2.nextAttemptAt ∧ a.2.createdAt ≤ b.2.createdAt)).take
    pushBatchSize).map Prod.fst

def processPending (answer : DeliveryId → Option PushDeliveryOutcome) (now : Time) :
    Prog NotifySys Unit := do
  let pending ← select (pendingDeliveries now)
  forEach pending fun id => do
    let _ ← deliver answer id now
    pure ()

end PushDeliveryProcessor

/-! ## Calls -/

inductive NotifyCall where
  | enqueue (producer : Producer) (createdAt : Time) (newId : Id)
  | processOutbox (dbNow : Time)
  | register (isUUID : String → Bool) (userId : Id) (installationId : String)
      (dto : DeviceTokensService.RegisterDeviceTokenDto) (newId : Id)
  | remove (userId id : Id)
  | processPushes (answer : DeliveryId → Option PushDeliveryOutcome) (now : Time)
  | tick (ms : Nat)

def NotifyCall.prog : NotifyCall → Prog NotifySys Unit
  | .enqueue producer createdAt newId => Sosedi.enqueue producer createdAt newId
  | .processOutbox dbNow => BookingOutboxProcessor.processPending dbNow
  | .register isUUID userId installationId dto newId =>
    (DeviceTokensService.register isUUID userId installationId dto newId).bind fun _ => .ret ()
  | .remove userId id => (DeviceTokensService.remove userId id).bind fun _ => .ret ()
  | .processPushes answer now => PushDeliveryProcessor.processPending answer now
  | .tick ms => notifyTick ms

/-- The programs of the clients. -/
def NotifyCalls (p : Prog NotifySys Unit) : Prop := ∃ c : NotifyCall, p = c.prog

end Sosedi
