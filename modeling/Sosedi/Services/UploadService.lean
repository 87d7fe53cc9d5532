import Mathlib.Data.List.Sort
import Sosedi.Services.Statements

/-!
# Uploads

`UploadService`: issuing presigned POSTs, verifying the uploaded object of an intent, and
confirming photos and avatars; the photo worker; `UploadCleanupService`.  Every request to
the object storage is one call; the clock is read where the source reads it.
-/

namespace Sosedi

open Transactions

def maxUploadSizeBytes : Int := 10 * 1024 * 1024

def presignedUploadExpiresSeconds : Int := 15 * 60

def uploadIntentCleanupGraceMs : Int := 24 * 60 * 60 * 1000

def rejectedUploadRetentionMs : Int := 7 * 24 * 60 * 60 * 1000

def maxItemPhotoCount : Nat := 5

/-- `contentTypeExtensions`; its keys are `ALLOWED_UPLOAD_CONTENT_TYPES`. -/
def contentTypeExtensions : List (String × String) :=
  [("image/jpeg", "jpg"), ("image/png", "png"), ("image/webp", "webp")]

/-! ## Requests to the object storage -/

namespace S3StorageService

def read {α : Type} (out : ObjectStorage → α) : Prog Sys α := call .noop id (out ·.storage)

/-- HEAD, then a GET of the first twelve bytes; `none` when the object is missing. -/
def inspectUploadedObject (key : String) : Prog Sys (Option (StoredObject × Bytes)) := do
  let metadata ← read (·.getObject .privateBucket key)
  match metadata with
  | none => pure none
  | some metadata =>
    if metadata.bytes.isEmpty then pure (some (metadata, []))
    else do
      let object ← read (·.getObject .privateBucket key)
      pure (object.map fun object => (metadata, object.bytes.take 12))

def getObjectBuffer (key : String) : Prog Sys Bytes := do
  let object ← read (·.getObject .privateBucket key)
  let object ← lift (required object (.internal "NoSuchKey"))
  pure object.bytes

/-- `putObject` of a published image; the storage stamps the object with its clock. -/
def putPublic (key : String) (bytes : Bytes) (contentType : String) : Prog Sys Unit :=
  call (.upload (.putPublic key bytes contentType))
    (fun w => { w with
      storage := w.storage.putObject .publicBucket key ⟨bytes, contentType, some w.now⟩ })
    fun _ => ()

/-- `putObject` over the upload of an intent. -/
def putSanitized (intentId : Id) (intent : UploadIntent) (bytes : Bytes) : Prog Sys Unit :=
  call (.upload (.sanitize intentId intent bytes))
    (fun w => { w with
      storage := w.storage.putHashed intent.objectKey ⟨bytes, intent.contentType, some w.now⟩ })
    fun _ => ()

def deleteObject (ev : UploadEvent) (key : String) : Prog Sys Unit :=
  call (.upload ev)
    (fun w => { w with storage := w.storage.deleteObject .privateBucket key }) fun _ => ()

/-- Signing a POST lets its holder store one object of the given type and size. -/
def createPresignedPostUpload (key contentType : String) (sizeBytes : Int) (now : Time) :
    Prog Sys Unit :=
  let post : PresignedPost :=
    ⟨key, contentType, sizeBytes, now + presignedUploadExpiresSeconds * 1000⟩
  call (.upload (.presign post))
    (fun w => { w with storage := { w.storage with posts := post :: w.storage.posts } })
    fun _ => ()

/-- A client sends a file to a form that it holds. -/
def clientUpload (key : String) (bytes : Bytes) (contentType : String) : Prog Sys Unit :=
  call (.upload (.clientUpload key bytes contentType))
    (fun w =>
      if w.storage.accepts w.now key bytes contentType then
        { w with
          storage := w.storage.putObject .privateBucket key ⟨bytes, contentType, some w.now⟩ }
      else w)
    fun _ => ()

end S3StorageService

/-! ## Verification -/

structure VerifiedEvidence where
  intentId : Id
  objectKey : String
  sha256 : String
  /-- The bytes behind `sha256`; only events mention them. -/
  written : Bytes

namespace UploadService

open S3StorageService

def getExtension (contentType : String) : Except Error String :=
  required (contentTypeExtensions.lookup contentType) (.badRequest "Неподдерживаемый тип файла")

def ensureAllowedFile (contentType : String) (sizeBytes : Int) : Except Error Unit := do
  ensure (contentTypeExtensions.any (·.1 == contentType))
    (.badRequest "Разрешены только JPEG, PNG и WebP")
  ensure (1 ≤ sizeBytes && sizeBytes ≤ maxUploadSizeBytes)
    (.badRequest "Размер файла не может быть больше 10 МБ")

def getItemQuarantinePrefix (itemId : Id) : String :=
  "quarantine/item-photos/" ++ toString itemId ++ "/"

def getAvatarQuarantinePrefix (userId : Id) : String :=
  "quarantine/avatars/" ++ toString userId ++ "/"

def getBookingEvidenceQuarantinePrefix (bookingId userId : Id) : String :=
  "quarantine/booking-evidence/" ++ toString bookingId ++ "/" ++ toString userId ++ "/"

def getDisputeEvidenceQuarantinePrefix (disputeId userId : Id) : String :=
  "quarantine/dispute-evidence/" ++ toString disputeId ++ "/" ++ toString userId ++ "/"

def getSupportAttachmentQuarantinePrefix (ticketId actorId : Id) : String :=
  "quarantine/support-attachments/" ++ toString ticketId ++ "/" ++ toString actorId ++ "/"

/-- The checks that the five bindings share: the key is a file under the prefix, with
the extension of the declared type. -/
def ensureIntentBinding (keyPrefix : String) (intent : UploadIntent) : Except Error Unit := do
  let extension ← getExtension intent.contentType
  let key := intent.objectKey.toList
  let fileName := key.drop keyPrefix.length
  ensure (keyPrefix.toList.isPrefixOf key && !fileName.isEmpty && !fileName.contains '/' &&
      ('.' :: extension.toList).isSuffixOf fileName)
    (.badRequest "Bucket или object key не соответствует upload intent")

def ensureItemPhotoIntentBinding (intent : UploadIntent) : Except Error Unit :=
  ensureIntentBinding (getItemQuarantinePrefix intent.entityId) intent

def ensureAvatarIntentBinding (intent : UploadIntent) : Except Error Unit :=
  ensureIntentBinding (getAvatarQuarantinePrefix intent.entityId) intent

def ensureBookingEvidenceIntentBinding (userId : Id) (intent : UploadIntent) :
    Except Error Unit :=
  ensureIntentBinding (getBookingEvidenceQuarantinePrefix intent.entityId userId) intent

def ensureDisputeEvidenceIntentBinding (userId : Id) (intent : UploadIntent) :
    Except Error Unit :=
  ensureIntentBinding (getDisputeEvidenceQuarantinePrefix intent.entityId userId) intent

def ensureSupportAttachmentIntentBinding (actorId : Id) (intent : UploadIntent) :
    Except Error Unit :=
  ensureIntentBinding (getSupportAttachmentQuarantinePrefix intent.entityId actorId) intent

def ensureBookingParticipant (userId bookingId : Id) : Prog Sys Unit := do
  let booking ← select fun db => (db.booking bookingId).filter fun booking =>
    booking.hasParticipant userId && booking.status.reserves
  let _ ← lift (required booking (.notFound "Бронирование не найдено"))
  pure ()

def ensureDisputeParticipant (userId disputeId : Id) : Prog Sys Unit := do
  let dispute ← select fun db => (db.dispute disputeId).filter fun _ =>
    (db.booking disputeId).any (·.hasParticipant userId)
  let _ ← lift (required dispute (.notFound "Спор не найден"))
  pure ()

def ensureSupportTicketAccess (actorId ticketId : Id) (allowAdmin : Bool) : Prog Sys Unit := do
  let ticket ← select fun db => (db.uploads.tickets.get ticketId).filter fun ticket =>
    ticket.general && (allowAdmin || ticket.userId == actorId)
  let _ ← lift (required ticket (.notFound "Обращение не найдено"))
  pure ()

def ensureOwnedItem (userId itemId : Id) : Prog Sys Unit := do
  let item ← select fun db => (db.items.get itemId).filter (·.ownerId == userId)
  let _ ← lift (required item (.notFound "Объявление не найдено"))
  pure ()

/-- Returns the bookings there were. -/
def ensureNoUnfinishedBookings (itemId : Id) : Prog Sys (List Id) := do
  let found ← select fun db => (db.unfinishedBooking (·.itemId == itemId), db.bookingIds)
  lift (ensure (!found.1) (.conflictCode "ITEM_HAS_UNFINISHED_BOOKINGS"
    "Объявление нельзя изменить до завершения аренды"))
  pure found.2

def hasExpectedMagicBytes (contentType : String) (bytes : Bytes) : Bool :=
  if contentType = "image/jpeg" then bytes.take 3 == [0xff, 0xd8, 0xff]
  else if contentType = "image/png" then
    bytes.take 8 == [0x89, 0x50, 0x4e, 0x47, 0x0d, 0x0a, 0x1a, 0x0a]
  else if contentType = "image/webp" then
    12 ≤ bytes.length && bytes.take 4 == utf8 "RIFF" && (bytes.drop 8).take 4 == utf8 "WEBP"
  else false

def ensureUploadedObject (intent : UploadIntent) : Prog Sys Unit := do
  let object ← inspectUploadedObject intent.objectKey
  let (object, head) ← lift (required object (.badRequest "Загруженный объект не найден"))
  lift (ensure (object.bytes.length == intent.sizeBytes &&
      object.contentType == intent.contentType)
    (.badRequest "Размер или content type объекта не совпадает с upload intent"))
  lift (ensure (hasExpectedMagicBytes intent.contentType head)
    (.badRequest "Содержимое файла не соответствует заявленному типу"))

def sanitizePrivateImage (env : Env) (intentId : Id) (intent : UploadIntent) (source : Bytes) :
    Prog Sys Bytes := do
  let sanitized ← lift (required (env.sharp intent.contentType source)
    (.badRequest "Изображение не удалось безопасно обработать"))
  putSanitized intentId intent sanitized
  pure sanitized

/-- The verification that the three private purposes share: find the open intent, check
its binding and the actor's access, inspect the object, overwrite it, hash what was
written. -/
def verifyIntent (sha256 : Bytes → String) (env : Env) (purpose : UploadPurpose)
    (binding : UploadIntent → Except Error Unit) (access : Prog Sys Unit)
    (actorId entityId intentId : Id) : Prog Sys VerifiedEvidence := do
  let now ← clock
  let intent ← select fun db => (db.uploads.intents.get intentId).filter fun intent =>
    intent.actorId == actorId && intent.entityId == entityId && intent.purpose == purpose &&
      intent.confirmedAt.isNone && intent.expiresAt > now
  let intent ← lift (required intent (.notFound "Upload intent не найден"))
  lift (binding intent)
  access
  ensureUploadedObject intent
  let bytes ← getObjectBuffer intent.objectKey
  let sanitized ← sanitizePrivateImage env intentId intent bytes
  pure ⟨intentId, intent.objectKey, sha256 sanitized, sanitized⟩

def verifyBookingEvidenceIntent (sha256 : Bytes → String) (env : Env)
    (userId bookingId intentId : Id) : Prog Sys VerifiedEvidence :=
  verifyIntent sha256 env .bookingEvidence (ensureBookingEvidenceIntentBinding userId)
    (ensureBookingParticipant userId bookingId) userId bookingId intentId

def verifyDisputeEvidenceIntent (sha256 : Bytes → String) (env : Env)
    (userId disputeId intentId : Id) : Prog Sys VerifiedEvidence :=
  verifyIntent sha256 env .disputeEvidence (ensureDisputeEvidenceIntentBinding userId)
    (ensureDisputeParticipant userId disputeId) userId disputeId intentId

def verifySupportAttachmentIntent (sha256 : Bytes → String) (env : Env)
    (actorId ticketId intentId : Id) (allowAdmin : Bool) : Prog Sys VerifiedEvidence :=
  verifyIntent sha256 env .supportAttachment (ensureSupportAttachmentIntentBinding actorId)
    (ensureSupportTicketAccess actorId ticketId allowAdmin) actorId ticketId intentId

/-- `updateMany` on the intent: consume it if it is still open. -/
def consumeIntent (intentId actorId entityId : Id) (purpose : Option UploadPurpose)
    (now confirmedAt : Time) : Prog Sys Bool :=
  updateWhere (.intentRow intentId)
    (fun db => (db.uploads.intents.get intentId).any fun intent =>
      intent.actorId == actorId && intent.entityId == entityId &&
        purpose.all (· == intent.purpose) && intent.confirmedAt.isNone &&
        intent.expiresAt > now)
    (fun db => { db with uploads := { db.uploads with
      intents := db.uploads.intents.modify intentId ({ · with confirmedAt := some confirmedAt }) } })

/-! ## Issuing presigned POSTs -/

structure RequestUploadUrlDto where
  purpose : UploadPurpose
  contentType : String
  sizeBytes : Int
  itemId : Option Id
  bookingId : Option Id
  disputeId : Option Id
  supportTicketId : Option Id

/-- `uuid` is the random file name, `newId` the fresh id of the intent. -/
def createPresignedUpload (userId : Id) (dto : RequestUploadUrlDto) (entityId : Id)
    (keyPrefix uuid : String) (newId : Id) : Prog Sys Unit := do
  let extension ← lift (getExtension dto.contentType)
  let key := keyPrefix ++ uuid ++ "." ++ extension
  let now ← clock
  let intent : UploadIntent :=
    { actorId := userId
      purpose := dto.purpose
      entityId
      objectKey := key
      contentType := dto.contentType
      sizeBytes := dto.sizeBytes
      expiresAt := now + presignedUploadExpiresSeconds * 1000
      confirmedAt := none }
  insertUnique [.intentRow newId, .intentKey key]
    (fun db => (db.uploads.issued.get newId).isSome ||
      db.uploads.issued.any fun _ row => row.objectKey == key)
    (.internal "Unique constraint failed: upload_intents")
    (fun db => { db with uploads := { db.uploads with
      intents := db.uploads.intents.insert newId intent
      issued := db.uploads.issued.insert newId intent } })
  commit (.upload (.issue newId intent))
  let signedAt ← clock
  createPresignedPostUpload key dto.contentType dto.sizeBytes signedAt

/-- The entity ids of a request, the one for its purpose first. -/
def onlyEntity (wanted : Option Id) (others : List (Option Id)) (message : String) :
    Except Error Id :=
  if others.any Option.isSome then .error (.badRequest message)
  else required wanted (.badRequest message)

def createItemPhotoUploadUrl (userId : Id) (dto : RequestUploadUrlDto) (uuid : String)
    (newId : Id) : Prog Sys Unit := do
  let itemId ← lift (onlyEntity dto.itemId [dto.bookingId, dto.disputeId, dto.supportTicketId]
    "Для фото вещи нужен itemId")
  ensureOwnedItem userId itemId
  let _ ← ensureNoUnfinishedBookings itemId
  createPresignedUpload userId dto itemId (getItemQuarantinePrefix itemId) uuid newId

def createAvatarUploadUrl (userId : Id) (dto : RequestUploadUrlDto) (uuid : String)
    (newId : Id) : Prog Sys Unit := do
  let _ ← lift (onlyEntity (some userId)
    [dto.itemId, dto.bookingId, dto.disputeId, dto.supportTicketId]
    "Для аватара itemId не используется")
  createPresignedUpload userId dto userId (getAvatarQuarantinePrefix userId) uuid newId

def createBookingEvidenceUploadUrl (userId : Id) (dto : RequestUploadUrlDto) (uuid : String)
    (newId : Id) : Prog Sys Unit := do
  let bookingId ← lift (onlyEntity dto.bookingId
    [dto.itemId, dto.disputeId, dto.supportTicketId] "Для evidence нужен bookingId без itemId")
  ensureBookingParticipant userId bookingId
  createPresignedUpload userId dto bookingId
    (getBookingEvidenceQuarantinePrefix bookingId userId) uuid newId

def createDisputeEvidenceUploadUrl (userId : Id) (dto : RequestUploadUrlDto) (uuid : String)
    (newId : Id) : Prog Sys Unit := do
  let disputeId ← lift (onlyEntity dto.disputeId
    [dto.itemId, dto.bookingId, dto.supportTicketId]
    "Для evidence спора нужен disputeId без других entity ID")
  ensureDisputeParticipant userId disputeId
  createPresignedUpload userId dto disputeId
    (getDisputeEvidenceQuarantinePrefix disputeId userId) uuid newId

def createSupportAttachmentUploadUrl (actorId : Id) (dto : RequestUploadUrlDto)
    (allowAdmin : Bool) (uuid : String) (newId : Id) : Prog Sys Unit := do
  let ticketId ← lift (onlyEntity dto.supportTicketId
    [dto.itemId, dto.bookingId, dto.disputeId]
    "Для вложения нужен supportTicketId без itemId/bookingId")
  ensureSupportTicketAccess actorId ticketId allowAdmin
  createPresignedUpload actorId dto ticketId
    (getSupportAttachmentQuarantinePrefix ticketId actorId) uuid newId

def requestUploadUrl (userId : Id) (dto : RequestUploadUrlDto) (uuid : String) (newId : Id) :
    Prog Sys Unit := do
  lift (ensure (dto.purpose != .kycDocument)
    (.forbidden "Загрузка KYC-документов отключена до принятия LOCAL_KYC ADR"))
  lift (ensureAllowedFile dto.contentType dto.sizeBytes)
  match dto.purpose with
  | .avatar => createAvatarUploadUrl userId dto uuid newId
  | .bookingEvidence => createBookingEvidenceUploadUrl userId dto uuid newId
  | .disputeEvidence => createDisputeEvidenceUploadUrl userId dto uuid newId
  | .supportAttachment => createSupportAttachmentUploadUrl userId dto false uuid newId
  | .itemPhoto | .kycDocument => createItemPhotoUploadUrl userId dto uuid newId

def requestAdminSupportAttachmentUploadUrl (adminId : Id) (dto : RequestUploadUrlDto)
    (uuid : String) (newId : Id) : Prog Sys Unit := do
  lift (ensureAllowedFile dto.contentType dto.sizeBytes)
  lift (ensure (dto.purpose == .supportAttachment)
    (.badRequest "Operator upload поддерживает только SUPPORT_ATTACHMENT"))
  createSupportAttachmentUploadUrl adminId dto true uuid newId

/-! ## Photos and avatars -/

structure ConfirmItemPhotoUploadDto where
  intentId : Id
  sortOrder : Option Int
  isCover : Option Bool

end UploadService

def Database.photoOfIntent (db : Database) (intentId : Id) : Option (Id × ItemPhoto) :=
  db.uploads.photos.rows.find? fun r => r.2.uploadIntentId == intentId

/-- The photos of an item. -/
def Database.photosOf (db : Database) (itemId : Id) : List Id :=
  db.uploads.photos.keysWhere fun _ photo => photo.itemId == itemId

namespace UploadService

open S3StorageService

/-- The old covers: the photos of the item that the statement finds are no covers any more. -/
def clearCovers (itemId : Id) : Prog Sys (List Id) :=
  updateFound (·.photosOf itemId) .photoRow fun found db => { db with uploads := { db.uploads with
    photos := db.uploads.photos.mapRows fun id photo =>
      if id ∈ found then { photo with isCover := false } else photo } }

/-- The photo rows of `confirmItemPhotoUpload` once its intent is consumed; returns also the
photos that it counted and those that it cleared. -/
def insertPhoto (dto : ConfirmItemPhotoUploadDto) (itemId photoId : Id) :
    Prog Sys (ItemPhoto × List Id × List Id) := do
  let counted ← select (·.photosOf itemId)
  let photoCount := counted.length
  lift (ensure (photoCount < maxItemPhotoCount) (.badRequest
    ("У объявления может быть не больше " ++ toString maxItemPhotoCount ++ " фото")))
  let isCover := dto.isCover.getD (photoCount == 0)
  let cleared ← if isCover then clearCovers itemId else pure []
  let photo : ItemPhoto :=
    { itemId
      uploadIntentId := dto.intentId
      originalUrl := none
      thumbnailUrl := none
      previewUrl := none
      sortOrder := dto.sortOrder.getD photoCount
      isCover }
  insertUnique [.photoRow photoId, .photoIntent dto.intentId]
    (fun db => (db.uploads.photos.get photoId).isSome || (db.photoOfIntent dto.intentId).isSome)
    (.internal "Unique constraint failed: item_photos")
    (fun db => { db with uploads := { db.uploads with
      photos := db.uploads.photos.insert photoId photo } })
  pure (photo, counted, cleared)

/-- `photoId` is the fresh id of the photo. -/
def confirmItemPhotoUpload (userId : Id) (dto : ConfirmItemPhotoUploadDto) (photoId : Id) :
    Prog Sys Unit := do
  let intent ← select fun db => (db.uploads.intents.get dto.intentId).filter fun intent =>
    intent.actorId == userId && intent.purpose == .itemPhoto
  let intent ← lift (required intent (.notFound "Upload intent не найден"))
  lift (ensureItemPhotoIntentBinding intent)
  ensureOwnedItem userId intent.entityId
  if intent.confirmedAt.isSome then do
    let existingPhoto ← select (·.photoOfIntent dto.intentId)
    let _ ← lift (required existingPhoto (.badRequest "Upload intent уже использован"))
    pure ()
  else do
    let seen ← ensureNoUnfinishedBookings intent.entityId
    let now ← clock
    lift (ensure (intent.expiresAt > now) (.badRequest "Upload intent истёк"))
    ensureUploadedObject intent
    let confirmedAt ← clock
    let consumed ← consumeIntent dto.intentId userId intent.entityId none confirmedAt confirmedAt
    if consumed then do
      let (photo, counted, cleared) ← insertPhoto dto intent.entityId photoId
      let updatedAt ← clock
      write [.itemRow intent.entityId] fun db => { db with
        items := db.items.modify intent.entityId (Item.addPhoto updatedAt) }
      commit (.upload (.confirmPhoto dto.intentId photoId photo confirmedAt updatedAt seen
        counted cleared))
      let job : PhotoProcessingJob := ⟨photoId, intent.entityId, intent.objectKey⟩
      call (.upload (.queuePhoto job)) (fun w => { w with photoJobs := job :: w.photoJobs })
        fun _ => ()
    else do
      let existingPhoto ← select (·.photoOfIntent dto.intentId)
      let _ ← lift (required existingPhoto
        (.badRequest "Upload intent уже использован или истёк"))
      commit .noop

def confirmAvatarUpload (env : Env) (userId intentId : Id) : Prog Sys Unit := do
  let intent ← select fun db => (db.uploads.intents.get intentId).filter fun intent =>
    intent.actorId == userId && intent.purpose == .avatar && intent.entityId == userId
  let intent ← lift (required intent (.notFound "Upload intent не найден"))
  lift (ensureAvatarIntentBinding intent)
  let publicKey := "avatars/" ++ toString userId ++ "/" ++ toString intentId ++ ".webp"
  if intent.confirmedAt.isSome then pure ()
  else do
    let now ← clock
    lift (ensure (intent.expiresAt > now) (.badRequest "Upload intent истёк"))
    ensureUploadedObject intent
    let source ← getObjectBuffer intent.objectKey
    let avatar ← lift (required (env.sharp "avatar" source) (.internal "sharp"))
    putPublic publicKey avatar "image/webp"
    let confirmedAt ← clock
    let consumed ← consumeIntent intentId userId intent.entityId none confirmedAt confirmedAt
    if consumed then do
      write [.userRow userId] fun db => { db with
        users := db.users.modify userId ({ · with avatarUrl := some (env.publicUrl publicKey) }) }
      commit (.upload (.confirmAvatar intentId userId (env.publicUrl publicKey) confirmedAt))
    else do
      let replay ← select fun db => (db.uploads.intents.get intentId).filter fun intent =>
        intent.actorId == userId && intent.purpose == .avatar && intent.confirmedAt.isSome
      let _ ← lift (required replay (.badRequest "Upload intent уже использован или истёк"))
      commit .noop
    deleteObject (.deleteSource intent.objectKey) intent.objectKey

end UploadService

/-! ## The photo worker -/

namespace PhotoProcessingWorker

open S3StorageService

def getVariantKey (job : PhotoProcessingJob) (variant : String) : String :=
  "items/" ++ toString job.itemId ++ "/" ++ variant ++ "/" ++ toString job.itemPhotoId ++ ".webp"

/-- Runs a job of the queue; a job may run more than once. -/
def processItemPhotoUploaded (env : Env) (job : PhotoProcessingJob) : Prog Sys Unit := do
  let queued ← call .noop id fun w => w.photoJobs.contains job
  if queued then do
    let activePhoto ← select fun db => (db.uploads.photos.get job.itemPhotoId).filter fun photo =>
      photo.itemId == job.itemId && (db.items.get job.itemId).any fun item =>
        (db.users.get item.ownerId).any fun owner => !owner.isBlocked && owner.deletedAt.isNone
    if activePhoto.isNone then pure ()
    else do
      let source ← getObjectBuffer job.sourceKey
      forEach ["original", "thumbnail", "preview"] fun variant => do
        let image ← lift (required (env.sharp variant source) (.internal "sharp"))
        putPublic (getVariantKey job variant) image "image/webp"
      let url := fun variant => env.publicUrl (getVariantKey job variant)
      write [.photoRow job.itemPhotoId] fun db => { db with uploads := { db.uploads with
        photos := db.uploads.photos.modify job.itemPhotoId fun photo => { photo with
          originalUrl := some (url "original")
          thumbnailUrl := some (url "thumbnail")
          previewUrl := some (url "preview") } } }
      commit (.upload
        (.publishPhoto job.itemPhotoId (url "original") (url "thumbnail") (url "preview")))
      deleteObject (.deleteSource job.sourceKey) job.sourceKey
  else pure ()

end PhotoProcessingWorker

/-! ## Clean-up -/

namespace UploadCleanupService

open S3StorageService

def quarantinePrefix : String := "quarantine/"

/-- The objects of the private bucket under the quarantine prefix. -/
def listObjects (storage : ObjectStorage) : List (String × Option Time) :=
  storage.objects.rows.filterMap fun r =>
    if r.1.1 = .privateBucket ∧ quarantinePrefix.toList.isPrefixOf r.1.2.toList then
      some (r.1.2, r.2.lastModified)
    else none

/-- The purposes whose intents the clean-up loads. -/
def cleanupPurposes : List UploadPurpose := [.itemPhoto, .avatar, .disputeEvidence]

def isRejected (intent : UploadIntent) (photo : Option ItemPhoto) (rejectedCutoff : Time) :
    Bool :=
  intent.purpose == .itemPhoto && intent.confirmedAt.any (· ≤ rejectedCutoff) &&
    !photo.any (·.originalUrl.isSome)

def isExpired (intent : UploadIntent) (photo : Option ItemPhoto) (intentCutoff : Time) : Bool :=
  intent.expiresAt ≤ intentCutoff &&
    (if intent.purpose = .disputeEvidence then intent.confirmedAt.isNone
    else intent.confirmedAt.isNone || photo.all (·.originalUrl.isSome))

/-- The rows that refer to an intent: deleting it would break a foreign key. -/
def intentReferenced (db : Database) (intentId : Id) : Bool :=
  db.uploads.bookingEvidence.any (fun _ e => e.uploadIntentId == intentId) ||
    db.uploads.disputeEvidence.any (fun _ e => e.uploadIntentId == intentId) ||
    db.uploads.supportAttachments.any (fun _ e => e.uploadIntentId == intentId)

/-- Delete the object, then the rows; a failed statement only ends this intent's turn. -/
def cleanIntent (intentId : Id) (intent : UploadIntent) (photo : Option ItemPhoto)
    (now : Time) : Prog Sys Unit := do
  deleteObject (.cleanIntent intentId intent photo now) intent.objectKey
  when (isRejected intent photo (now - rejectedUploadRetentionMs)) do
    write [] fun db => { db with uploads := { db.uploads with
      photos := match db.photoOfIntent intentId with
        | some (photoId, photo) =>
          if photo.originalUrl.isNone then db.uploads.photos.erase photoId
          else db.uploads.photos
        | none => db.uploads.photos } }
    commit (.upload (.dropPhoto intentId))
  let referenced ← updateWhere (.intentRow intentId) (fun db => !intentReferenced db intentId)
    (fun db => { db with uploads := { db.uploads with
      intents := db.uploads.intents.erase intentId } })
  commit (if referenced then .upload (.dropIntent intentId) else .noop)

/-- One turn of the loop over the loaded intents. -/
def visitIntent (now : Time) (entry : Id × UploadIntent) : Prog Sys Unit := do
  let intent := entry.2
  let photo ← if intent.confirmedAt.isSome && intent.purpose == .itemPhoto then
      select fun db => (db.photoOfIntent entry.1).map (·.2)
    else pure none
  when (isRejected intent photo (now - rejectedUploadRetentionMs) ||
      isExpired intent photo (now - uploadIntentCleanupGraceMs))
    (cleanIntent entry.1 intent photo now)

/-- One turn of the loop over the listed objects. -/
def visitObject (now : Time) (knownKeys : List String) (object : String × Option Time) :
    Prog Sys Unit :=
  when (!knownKeys.contains object.1 &&
      object.2.any (· ≤ now - uploadIntentCleanupGraceMs))
    (deleteObject (.cleanOrphan object.1 now) object.1)

/-- `now` is any clock value. -/
def cleanupExpiredUploads (now : Time) : Prog Sys Unit := do
  let listedObjects ← read listObjects
  let intents ← select fun db => db.uploads.intents.rows.filter fun r =>
    cleanupPurposes.contains r.2.purpose
  forEach intents (visitIntent now)
  forEach listedObjects (visitObject now (intents.map (·.2.objectKey)))

end UploadCleanupService

end Sosedi
