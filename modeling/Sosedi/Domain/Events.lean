import Sosedi.Domain.Database

/-!
# Events

The event of a commit or of an outside call names what happened and carries what the
transaction had read when it decided.  Events are ghost data: no program looks at them.
`Action.apply` composes the row updates of the statements of one transaction.
-/

namespace Sosedi

open Transactions

inductive BookingCompletionTrigger where
  | depositSettled
  | disputeDecided
  | disputeWindowClosed
  | zeroDepositReturn
  deriving DecidableEq

/-- The hold that a checkout makes. -/
structure HoldData where
  operationId : Id
  amountMinor : Int
  providerOperationId : String
  completedAt : Time
  createdAt : Time

/-- What one transaction does to one deal. -/
inductive Action where
  /-- `statusRead` and `depositRead` are the rows that `cancelPending` found. -/
  | cancel (actorId : Id) (isBorrower : Bool) (statusRead : BookingStatus)
      (depositRead : Option BookingDeposit) (refundId : Id) (dbNow : Time)
  | expire (now : Time)
  | confirmAct (stage : BookingActStage) (actorId : Id) (confirmedAt : Time)
      (disputeWindowEndsAt : Option Time) (completes : Bool)
  | pay (borrowerId : Id) (amountMinor : Int) (idempotencyKey providerOperationId : String)
      (hold : Option HoldData)
  | complete (now : Time)
  | openDispute (dispute : FinancialDispute)
  | resolve (adminId : Id) (reason : String) (refundMinor releaseMinor : Int)
      (commandKey : String) (refundId releaseId : Id) (now dbNow : Time)
  | autoRefund (amount : Decimal) (operationId : Id) (now dbNow : Time)
  | retry (adminId operationId : Id) (operation : DepositOperation) (commandKey : String)
      (retryId : Id) (now dbNow : Time)
  | postpone (operationId : Id) (nextAttemptAt : Time)
  | decline (operationId : Id) (errorCode : String) (now : Time)
  | settle (operationId : Id) (kind : DepositOperationKind) (amount : Decimal)
      (providerOperationId : String) (now : Time) (resolved : Bool)

/-- What happens around the upload tables and the object storage. -/
inductive UploadEvent where
  | tick (ms : Nat)
  | issue (intentId : Id) (intent : UploadIntent)
  | presign (post : PresignedPost)
  /-- A client sends a file to a presigned POST. -/
  | clientUpload (key : String) (bytes : Bytes) (contentType : String)
  /-- A verification overwrites the object with its sanitised bytes. -/
  | sanitize (intentId : Id) (intent : UploadIntent) (bytes : Bytes)
  | putPublic (key : String) (bytes : Bytes) (contentType : String)
  /-- A photo job or an avatar confirmation deletes its source. -/
  | deleteSource (key : String)
  /-- `seen` are the bookings there were when the owner's call looked for unfinished ones,
  `counted` the photos of the item that it counted and `cleared` those that it made no cover. -/
  | confirmPhoto (intentId photoId : Id) (photo : ItemPhoto) (confirmedAt updatedAt : Time)
      (seen counted cleared : List Id)
  | confirmAvatar (intentId userId : Id) (avatarUrl : String) (confirmedAt : Time)
  | queuePhoto (job : PhotoProcessingJob)
  | publishPhoto (photoId : Id) (originalUrl thumbnailUrl previewUrl : String)
  | addDisputeEvidence (evidenceId : Id) (evidence : Evidence) (written : Bytes)
      (confirmedAt : Time)
  | addSupportMessage (messageId : Id) (message : SupportMessage)
      (attachments : List (Id × Evidence)) (confirmedAt : Time)
  | assignTicket (ticketId adminId : Id)
  | replyTicket (ticketId adminId : Id) (body : String) (messageId : Id) (respondedAt : Time)
  | closeTicket (ticketId adminId : Id)
  /-- The clean-up deletes the object of an intent it loaded. -/
  | cleanIntent (intentId : Id) (intent : UploadIntent) (photo : Option ItemPhoto) (now : Time)
  /-- The clean-up deletes a listed object that no loaded intent names. -/
  | cleanOrphan (key : String) (now : Time)
  | dropPhoto (intentId : Id)
  | dropIntent (intentId : Id)

/-- What happens to accounts and listings.  `seen` are the bookings there were when the
transaction looked for unfinished ones, `checkedAt` is the number of changes of the item when
a moderator's call found it `PENDING`. -/
inductive AccountEvent where
  | unblock (blockerId blockedId : Id)
  | blockAccount (userId : Id) (seen : List Id)
  | closeAccount (userId : Id) (requestedAt : Time) (anonymizedAt : Option Time) (seen : List Id)
  | anonymize (userId : Id) (anonymizedAt : Time) (seen : List Id)
  | updateItem (itemId : Id) (data : ItemUpdate) (updatedAt : Time) (seen : List Id)
  | hideItem (itemId : Id) (updatedAt : Time) (seen : List Id)
  | approveItem (itemId : Id) (checkedAt : Nat) (updatedAt : Time)
  | rejectItem (itemId : Id) (checkedAt : Nat) (reason : String) (updatedAt : Time)
  | hideListing (itemId : Id) (updatedAt : Time)
  /-- A report is dismissed, or a review hidden. -/
  | decideReport (reportId : Id)

/-- The rows of an item and of its owner, as `create` reads them. -/
structure BookableItem where
  item : Item
  owner : User

inductive Event where
  /-- A commit or call that changes nothing. -/
  | noop
  | create (id : Id) (deal : Deal) (read : BookableItem)
  | confirm (id actorId : Id) (competitors : List Id)
  /-- `seen` are the bookings there were when the requests of the pair were read. -/
  | block (blockerId blockedId : Id) (cancelled seen : List Id) (now : Time)
  | deal (id : Id) (action : Action)
  | createAct (id : Id) (stage : BookingActStage) (act : BookingAct)
      (evidenceId : Id) (evidence : Evidence) (written : Bytes) (confirmedAt : Time)
  | claim (id operationId : Id) (now processingUntil : Time)
  | addPeriod (id : Id) (period : UnavailablePeriod)
  | removePeriod (id itemId : Id)
  | provider (id : Id) (request : ProviderRequest)
  | upload (event : UploadEvent)
  | account (event : AccountEvent)

/-- The system: what programs read, lock, emit and throw. -/
abbrev Sys : Signature where
  DB := Database
  World := World
  Key := LockKey
  Event := Event
  Error := Error

end Sosedi
