import Sosedi.Domain.Accounts
import Sosedi.Domain.Deal
import Sosedi.Domain.Uploads
import Sosedi.Transactions.Program

/-!
# The database and the world around it

`Database` holds the committed rows, `World` the provider, the object storage and the
clock.  `LockKey` names everything that a transaction can hold: advisory locks, and the
row or index entry that an UPDATE or INSERT locks until its transaction ends.
-/

namespace Sosedi

structure UnavailablePeriod where
  itemId : Id
  startDate : Time
  endDate : Time
  deriving DecidableEq

structure Database where
  users : Table Id User
  /-- The users with a KYC document. -/
  kycDocuments : List Id
  categories : Table Id Category
  items : Table Id Item
  /-- `(blockerId, blockedId)`. -/
  userBlocks : List (Id × Id)
  periods : Table Id UnavailablePeriod
  deals : Table Id Deal
  uploads : UploadTables
  reports : Table Id UserReport
  reviews : Table Id Review
  /-- The authors of the chat messages. -/
  messageAuthors : Table Id (Option Id)
  adminAuditLog : List AuditEntry
  notifications : List Notification

structure World where
  provider : FakeSafeDealProvider
  storage : ObjectStorage
  photoJobs : List PhotoProcessingJob
  now : Time

inductive LockKey where
  | user (id : Id)
  | item (id : Id)
  | booking (id : Id)
  | blockPair (first second : Id)
  | bookingRow (id : Id)
  | depositRow (id : Id)
  | operationRow (bookingId id : Id)
  | operationKey (bookingId : Id) (key : OperationKey)
  | disputeRow (id : Id)
  | paymentRow (id : Id)
  | actRow (bookingId : Id) (stage : BookingActStage)
  | outboxKey (bookingId : Id) (eventType : BookingEventType)
  | clientRequest (borrowerId : Id) (clientRequestId : String)
  | userBlockRow (blockerId blockedId : Id)
  | periodRow (id : Id)
  | userRow (id : Id)
  | itemRow (id : Id)
  | intentRow (id : Id)
  | intentKey (objectKey : String)
  | evidenceRow (id : Id)
  | evidenceIntent (intentId : Id)
  | photoRow (id : Id)
  | photoIntent (intentId : Id)
  | messageRow (id : Id)
  | ticketRow (id : Id)
  | reportDecision (id : Id)
  | reportRow (id : Id)
  | reviewRow (id : Id)
  | notificationKey (deduplicationKey : String)
  deriving DecidableEq

/-- `PENDING`, `CONFIRMED`, `ACTIVE` or `RETURNED`. -/
def BookingStatus.unfinished (status : BookingStatus) : Bool :=
  status == .pending || status.reserves

namespace Database

def booking (db : Database) (id : Id) : Option Booking := (db.deals.get id).map (·.booking)

def deposit (db : Database) (id : Id) : Option BookingDeposit :=
  (db.deals.get id).bind (·.deposit)

def dispute (db : Database) (id : Id) : Option FinancialDispute :=
  (db.deals.get id).bind (·.dispute)

def payment (db : Database) (id : Id) : Option Payment := (db.deals.get id).bind (·.payment)

def act (db : Database) (id : Id) (stage : BookingActStage) : Option BookingAct :=
  (db.deals.get id).bind (·.act stage)

def operation (db : Database) (bookingId id : Id) : Option DepositOperation :=
  (db.deals.get bookingId).bind (·.operations.get id)

/-- An INSERT of the operation would violate the primary key or the unique key. -/
def operationTaken (db : Database) (bookingId id : Id) (key : OperationKey) : Bool :=
  (db.deals.get bookingId).any fun d => (d.operations.get id).isSome || d.hasOperationKey key

def outboxTaken (db : Database) (bookingId : Id) (eventType : BookingEventType) : Bool :=
  (db.deals.get bookingId).any fun d => d.outbox.contains eventType

/-- Rewrite the rows of one deal. -/
def modifyDeal (id : Id) (f : Deal → Deal) (db : Database) : Database :=
  { db with deals := db.deals.modify id f }

/-- The item has an unavailable period that meets the range. -/
def calendarConflict (db : Database) (itemId : Id) (startDate endDate : Time) : Bool :=
  db.periods.any fun _ p => p.itemId == itemId && overlaps p.startDate p.endDate startDate endDate

/-- A booking other than `except` occupies the item within the range. -/
def reservedConflict (db : Database) (except : Option Id) (itemId : Id)
    (startDate endDate : Time) : Bool :=
  db.deals.any fun id d => some id != except && d.booking.itemId == itemId &&
    overlaps d.booking.startDate d.booking.endDate startDate endDate && d.booking.status.reserves

end Database

end Sosedi
