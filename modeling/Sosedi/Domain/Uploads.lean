import Sosedi.Domain.Deal

/-!
# Uploads: rows and stored objects

An upload intent names the key under which a client may store one object, within the
validity of the presigned POST that was issued for it.  Evidence, attachments and photos
refer to intents.
-/

namespace Sosedi

inductive UploadPurpose where
  | itemPhoto
  | avatar
  | bookingEvidence
  | disputeEvidence
  | supportAttachment
  | kycDocument
  deriving DecidableEq

/-- The bucket of every intent is the private one. -/
structure UploadIntent where
  actorId : Id
  purpose : UploadPurpose
  entityId : Id
  objectKey : String
  contentType : String
  sizeBytes : Int
  expiresAt : Time
  confirmedAt : Option Time
  deriving DecidableEq

/-- A row that refers to a verified object: booking evidence of an act, dispute evidence
or an attachment of a support message; `ownerId` is the booking, the dispute or the
message, and `stage` tells which act of the booking. -/
structure Evidence where
  ownerId : Id
  uploadIntentId : Id
  storageKey : String
  sha256 : String
  stage : Option BookingActStage
  deriving DecidableEq

structure ItemPhoto where
  itemId : Id
  uploadIntentId : Id
  originalUrl : Option String
  thumbnailUrl : Option String
  previewUrl : Option String
  sortOrder : Int
  isCover : Bool
  deriving DecidableEq

inductive SupportTicketStatus where
  | opened
  | inProgress
  | closed
  deriving DecidableEq

/-- `general` tells the types `GENERAL` and `DISPUTE` apart. -/
structure SupportTicket where
  userId : Id
  bookingId : Option Id
  general : Bool
  status : SupportTicketStatus
  assigneeId : Option Id
  adminResponse : Option String
  respondedById : Option Id
  respondedAt : Option Time
  deriving DecidableEq

namespace SupportTicket

/-- The columns that an operator's message and `assignToSelf` write. -/
def assign (adminId : Id) (ticket : SupportTicket) : SupportTicket :=
  { ticket with assigneeId := some adminId, status := .inProgress }

def reply (adminId : Id) (message : String) (respondedAt : Time) (ticket : SupportTicket) :
    SupportTicket :=
  { ticket with
    status := .inProgress
    adminResponse := some message
    assigneeId := some adminId
    respondedById := some adminId
    respondedAt := some respondedAt }

def close (adminId : Id) (ticket : SupportTicket) : SupportTicket :=
  { ticket with status := .closed, assigneeId := some adminId }

end SupportTicket

structure SupportMessage where
  ticketId : Id
  authorId : Id
  fromOperator : Bool
  body : String
  deriving DecidableEq

/-- The upload tables.  `issued` holds every intent that was ever inserted, as it was
inserted: random ids and keys never repeat. -/
structure UploadTables where
  intents : Table Id UploadIntent
  issued : Table Id UploadIntent
  photos : Table Id ItemPhoto
  bookingEvidence : Table Id Evidence
  disputeEvidence : Table Id Evidence
  supportAttachments : Table Id Evidence
  tickets : Table Id SupportTicket
  supportMessages : Table Id SupportMessage

/-! ## Object storage -/

inductive Bucket where
  | privateBucket
  | publicBucket
  deriving DecidableEq

structure StoredObject where
  bytes : Bytes
  contentType : String
  lastModified : Option Time
  deriving DecidableEq

/-- A presigned POST: its policy fixes the key, the type and the size. -/
structure PresignedPost where
  key : String
  contentType : String
  sizeBytes : Int
  expiresAt : Time
  deriving DecidableEq

/-- `hashed` is ghost data: the key and the bytes of every write that a verification made
and hashed. -/
structure ObjectStorage where
  objects : Table (Bucket × String) StoredObject
  posts : List PresignedPost
  hashed : List (String × Bytes)

namespace ObjectStorage

variable (storage : ObjectStorage)

def getObject (bucket : Bucket) (key : String) : Option StoredObject :=
  storage.objects.get (bucket, key)

/-- `putObject`: the last write wins. -/
def putObject (bucket : Bucket) (key : String) (object : StoredObject) : ObjectStorage :=
  { storage with objects := (storage.objects.erase (bucket, key)).insert (bucket, key) object }

def deleteObject (bucket : Bucket) (key : String) : ObjectStorage :=
  { storage with objects := storage.objects.erase (bucket, key) }

/-- A write of sanitised bytes, which the writer hashes. -/
def putHashed (key : String) (object : StoredObject) : ObjectStorage :=
  { storage.putObject .privateBucket key object with
    hashed := (key, object.bytes) :: storage.hashed }

/-- A POST that the policy of a presigned form still allows. -/
def accepts (now : Time) (key : String) (bytes : Bytes) (contentType : String) : Bool :=
  storage.posts.any fun post => post.key == key && post.contentType == contentType &&
    post.sizeBytes == bytes.length && now ≤ post.expiresAt

theorem getObject_putObject (b b' : Bucket) (key key' : String) (object : StoredObject) :
    (storage.putObject b key object).getObject b' key' =
      if (b', key') = (b, key) then some object else storage.getObject b' key' := by
  have hnone : (storage.objects.erase (b, key)).get (b, key) = none := by
    simp [Table.get_erase]
  simp only [getObject, putObject, Table.get_insert, hnone, and_true, Table.get_erase]
  split <;> simp [*]

theorem getObject_deleteObject (b b' : Bucket) (key key' : String) :
    (storage.deleteObject b key).getObject b' key' =
      if (b', key') = (b, key) then none else storage.getObject b' key' :=
  Table.get_erase ..

end ObjectStorage

/-- A job of the photo queue. -/
structure PhotoProcessingJob where
  itemPhotoId : Id
  itemId : Id
  sourceKey : String
  deriving DecidableEq

end Sosedi
