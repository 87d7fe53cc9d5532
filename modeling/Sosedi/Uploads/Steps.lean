import Sosedi.Services.UsersService

/-!
# What a step does to uploads

`Event.applyUploads` and `Event.applyWorld` are the effects of a commit or a call on the
upload tables and on the world, `Event.UploadGuard` what holds when it happens, and
`Event.uploadKeys` the row locks behind it.
-/

namespace Sosedi

namespace UploadTables

/-- Mark intents as confirmed. -/
def consume (ids : List Id) (confirmedAt : Time) (t : UploadTables) : UploadTables :=
  { t with
    intents := t.intents.mapRows fun id row =>
      if id ∈ ids then { row with confirmedAt := some confirmedAt } else row }

/-- The first photo of the intent. -/
def photoOfIntent (t : UploadTables) (intentId : Id) : Option (Id × ItemPhoto) :=
  t.photos.rows.find? fun r => r.2.uploadIntentId == intentId

/-- Insert a photo; the photos `cleared` are no covers any more. -/
def addPhoto (photoId : Id) (photo : ItemPhoto) (cleared : List Id) (t : UploadTables) :
    UploadTables :=
  { t with
    photos := (t.photos.mapRows fun id p =>
        if id ∈ cleared then { p with isCover := false } else p).insert photoId photo }

def publish (photoId : Id) (originalUrl thumbnailUrl previewUrl : String) (t : UploadTables) :
    UploadTables :=
  { t with
    photos := t.photos.modify photoId fun photo => { photo with
      originalUrl := some originalUrl
      thumbnailUrl := some thumbnailUrl
      previewUrl := some previewUrl } }

def updateTicket (id : Id) (f : SupportTicket → SupportTicket) (t : UploadTables) :
    UploadTables := { t with tickets := t.tickets.modify id f }

/-- Drop the photo of the intent unless it is published. -/
def dropPhoto (intentId : Id) (t : UploadTables) : UploadTables :=
  { t with
    photos := match t.photoOfIntent intentId with
      | some (photoId, photo) =>
        if photo.originalUrl.isNone then t.photos.erase photoId else t.photos
      | none => t.photos }

end UploadTables

namespace Event

/-! ## Effects -/

/-- The intents that a commit confirms. -/
def consumed : Event → List Id
  | createAct _ _ _ _ evidence _ _ => [evidence.uploadIntentId]
  | upload (.confirmPhoto intentId _ _ _ _ _ _ _) => [intentId]
  | upload (.confirmAvatar intentId _ _ _) => [intentId]
  | upload (.addDisputeEvidence _ evidence _ _) => [evidence.uploadIntentId]
  | upload (.addSupportMessage _ _ attachments _) => attachments.map (·.2.uploadIntentId)
  | _ => []

/-- When they were confirmed. -/
def confirmedAt : Event → Time
  | createAct _ _ _ _ _ _ confirmedAt => confirmedAt
  | upload (.confirmPhoto _ _ _ confirmedAt _ _ _ _) => confirmedAt
  | upload (.confirmAvatar _ _ _ confirmedAt) => confirmedAt
  | upload (.addDisputeEvidence _ _ _ confirmedAt) => confirmedAt
  | upload (.addSupportMessage _ _ _ confirmedAt) => confirmedAt
  | _ => 0

def applyUploads : Event → UploadTables → UploadTables
  | createAct _ _ _ evidenceId evidence _ confirmedAt, t =>
    { t.consume [evidence.uploadIntentId] confirmedAt with
      bookingEvidence := t.bookingEvidence.insert evidenceId evidence }
  | upload (.issue id intent), t =>
    { t with intents := t.intents.insert id intent, issued := t.issued.insert id intent }
  | upload (.confirmPhoto intentId photoId photo confirmedAt _ _ _ cleared), t =>
    t.consume [intentId] confirmedAt |>.addPhoto photoId photo cleared
  | upload (.confirmAvatar intentId _ _ confirmedAt), t => t.consume [intentId] confirmedAt
  | upload (.publishPhoto photoId originalUrl thumbnailUrl previewUrl), t =>
    t.publish photoId originalUrl thumbnailUrl previewUrl
  | upload (.addDisputeEvidence evidenceId evidence _ confirmedAt), t =>
    { t.consume [evidence.uploadIntentId] confirmedAt with
      disputeEvidence := t.disputeEvidence.insert evidenceId evidence }
  | upload (.addSupportMessage messageId message attachments confirmedAt), t =>
    { t.consume (attachments.map (·.2.uploadIntentId)) confirmedAt with
      supportMessages := t.supportMessages.insert messageId message
      supportAttachments :=
        attachments.foldl (fun rows r => rows.insert r.1 r.2) t.supportAttachments
      tickets := if message.fromOperator then t.tickets.modify message.ticketId
          ({ · with assigneeId := some message.authorId, status := .inProgress })
        else t.tickets }
  | upload (.assignTicket id adminId), t => t.updateTicket id (SupportTicket.assign adminId)
  | upload (.replyTicket id adminId body messageId respondedAt), t =>
    { t.updateTicket id (SupportTicket.reply adminId body respondedAt) with
      supportMessages := t.supportMessages.insert messageId ⟨id, adminId, true, body⟩ }
  | upload (.closeTicket id adminId), t => t.updateTicket id (SupportTicket.close adminId)
  | upload (.dropPhoto intentId), t => t.dropPhoto intentId
  | upload (.dropIntent intentId), t => { t with intents := t.intents.erase intentId }
  | _, t => t

def applyStorage (now : Time) : UploadEvent → ObjectStorage → ObjectStorage
  | .presign post, s => { s with posts := post :: s.posts }
  | .clientUpload key bytes contentType, s =>
    if s.accepts now key bytes contentType then
      s.putObject .privateBucket key ⟨bytes, contentType, some now⟩
    else s
  | .sanitize _ intent bytes, s =>
    s.putHashed intent.objectKey ⟨bytes, intent.contentType, some now⟩
  | .putPublic key bytes contentType, s =>
    s.putObject .publicBucket key ⟨bytes, contentType, some now⟩
  | .deleteSource key, s => s.deleteObject .privateBucket key
  | .cleanIntent _ intent _ _, s => s.deleteObject .privateBucket intent.objectKey
  | .cleanOrphan key _, s => s.deleteObject .privateBucket key
  | _, s => s

def applyWorld (sha256 : Bytes → String) : Event → World → World
  | provider _ request, w =>
    { w with provider := (FakeSafeDealProvider.execute sha256 w.provider request).2 }
  | upload (.tick ms), w => { w with now := w.now + ms }
  | upload (.queuePhoto job), w => { w with photoJobs := job :: w.photoJobs }
  | upload ev, w => { w with storage := applyStorage w.now ev w.storage }
  | _, w => w

theorem provider_applyWorld (sha256 : Bytes → String) (id : Id) (request : ProviderRequest)
    (w : World) : (applyWorld sha256 (provider id request) w).provider =
      (FakeSafeDealProvider.execute sha256 w.provider request).2 := rfl

end Event

/-! ## Guards -/

def uploadValidityMs : Int := presignedUploadExpiresSeconds * 1000

namespace UploadTables

variable (t : UploadTables)

/-- An intent with this key and purpose was issued. -/
def IssuedKey (key : String) (purpose : UploadPurpose) : Prop :=
  ∃ id row, t.issued.get id = some row ∧ row.objectKey = key ∧ row.purpose = purpose

/-- The intent waits for its confirmation. -/
def Open (id : Id) (purpose : UploadPurpose) (key : String) : Prop :=
  ∃ row, t.intents.get id = some row ∧ row.confirmedAt = none ∧ row.purpose = purpose ∧
    row.objectKey = key

/-- Some row of evidence or an attachment refers to the intent. -/
def Referenced (intentId : Id) : Prop :=
  (∃ k e, t.bookingEvidence.get k = some e ∧ e.uploadIntentId = intentId) ∨
    (∃ k e, t.disputeEvidence.get k = some e ∧ e.uploadIntentId = intentId) ∨
    ∃ k e, t.supportAttachments.get k = some e ∧ e.uploadIntentId = intentId

end UploadTables

/-- The purposes whose objects a verification overwrites and hashes. -/
def UploadPurpose.hashed : UploadPurpose → Bool
  | bookingEvidence | disputeEvidence | supportAttachment => true
  | _ => false

/-- The intent of an evidence row is open, and its hash is that of bytes that a
verification wrote under its key. -/
def EvidenceGuard (sha256 : Bytes → String) (purpose : UploadPurpose) (evidence : Evidence)
    (written : Bytes) (a : Database × World) : Prop :=
  a.1.uploads.Open evidence.uploadIntentId purpose evidence.storageKey ∧
    evidence.sha256 = sha256 written ∧ (evidence.storageKey, written) ∈ a.2.storage.hashed

/-- The row is evidence of the act, and its intent is one of the act's author for the booking. -/
structure ActEvidence (id : Id) (stage : BookingActStage) (act : BookingAct) (evidenceId : Id)
    (evidence : Evidence) (t : UploadTables) : Prop where
  isNew : t.bookingEvidence.get evidenceId = none
  owner : evidence.ownerId = id
  stage : evidence.stage = some stage
  intent : ∃ row, t.intents.get evidence.uploadIntentId = some row ∧
    row.actorId = act.authorId ∧ row.entityId = id

/-- The three public variants of the photo of a job are stored. -/
def VariantsStored (job : PhotoProcessingJob) (storage : ObjectStorage) : Prop :=
  ∀ variant ∈ ["original", "thumbnail", "preview"], (storage.getObject .publicBucket
    (PhotoProcessingWorker.getVariantKey job variant)).isSome

/-- What the clean-up knows of an intent whose object it deletes. -/
structure CleanGuard (intentId : Id) (intent : UploadIntent) (photo : Option ItemPhoto)
    (now : Time) (t : UploadTables) : Prop where
  issued : t.issued.get intentId = some { intent with confirmedAt := none }
  purpose : intent.purpose ∈ UploadCleanupService.cleanupPurposes
  due : UploadCleanupService.isRejected intent photo (now - rejectedUploadRetentionMs) ∨
    UploadCleanupService.isExpired intent photo (now - uploadIntentCleanupGraceMs)
  /-- An intent that was confirmed when it was loaded still is. -/
  confirmed : ∀ row, t.intents.get intentId = some row → intent.confirmedAt.isSome →
    row.confirmedAt = intent.confirmedAt
  window : intent.purpose = .itemPhoto → ∀ c, intent.confirmedAt = some c →
    intent.expiresAt ≤ c + uploadValidityMs
  photo : intent.purpose = .itemPhoto → intent.confirmedAt.isSome →
    ∀ k p, t.photos.get k = some p → p.uploadIntentId = intentId →
      ∃ p₀, photo = some p₀ ∧ (p₀.originalUrl.isSome → p.originalUrl.isSome)

def UploadEvent.Guard (a : Database × World) (sha256 : Bytes → String) :
    UploadEvent → Prop
  | .issue id intent =>
    a.1.uploads.issued.get id = none ∧
      (∀ j row, a.1.uploads.issued.get j = some row → row.objectKey ≠ intent.objectKey) ∧
      intent.confirmedAt = none ∧ intent.expiresAt ≤ a.2.now + uploadValidityMs
  | .presign post => ∃ purpose, a.1.uploads.IssuedKey post.key purpose
  | .sanitize _ intent _ =>
    a.1.uploads.IssuedKey intent.objectKey intent.purpose ∧ intent.purpose.hashed
  | .deleteSource key => ∃ purpose, a.1.uploads.IssuedKey key purpose ∧ purpose.hashed = false
  | .confirmPhoto intentId _ photo confirmedAt _ _ counted _ =>
    (∃ row, a.1.uploads.intents.get intentId = some row ∧ row.confirmedAt = none ∧
        row.purpose = .itemPhoto ∧ row.expiresAt ≤ confirmedAt + uploadValidityMs) ∧
      photo.uploadIntentId = intentId ∧ counted.length < maxItemPhotoCount ∧
        photo.originalUrl = none
  | .confirmAvatar intentId _ _ _ => ∃ key, a.1.uploads.Open intentId .avatar key
  | .queuePhoto job => a.1.uploads.IssuedKey job.sourceKey .itemPhoto
  | .publishPhoto photoId _ _ _ =>
    ∃ job : PhotoProcessingJob, job.itemPhotoId = photoId ∧ VariantsStored job a.2.storage
  | .addDisputeEvidence _ evidence written _ =>
    EvidenceGuard sha256 .disputeEvidence evidence written a
  | .addSupportMessage _ _ attachments _ => ∀ r ∈ attachments,
    a.1.uploads.Open r.2.uploadIntentId .supportAttachment r.2.storageKey
  | .assignTicket id _ => ∃ ticket, a.1.uploads.tickets.get id = some ticket ∧
    ticket.status ≠ .closed ∧ ticket.assigneeId = none
  | .replyTicket id .. => ∃ ticket, a.1.uploads.tickets.get id = some ticket ∧
    ticket.status ≠ .closed
  | .closeTicket id adminId => ∃ ticket, a.1.uploads.tickets.get id = some ticket ∧
    ticket.status ≠ .closed ∧ ∀ assigneeId, ticket.assigneeId = some assigneeId →
      assigneeId = adminId
  | .cleanIntent intentId intent photo now => CleanGuard intentId intent photo now a.1.uploads
  | .cleanOrphan key now => ∃ id row, a.1.uploads.issued.get id = some row ∧
    row.objectKey = key ∧
    (row.purpose ∈ UploadCleanupService.cleanupPurposes → a.1.uploads.intents.get id = none) ∧
    row.expiresAt ≤ now - uploadIntentCleanupGraceMs + uploadValidityMs
  | .dropIntent intentId => ¬a.1.uploads.Referenced intentId
  | _ => True

namespace Event

def UploadGuard (sha256 : Bytes → String) (a : Database × World) : Event → Prop
  | createAct id stage act evidenceId evidence written _ =>
    EvidenceGuard sha256 .bookingEvidence evidence written a ∧
      ActEvidence id stage act evidenceId evidence a.1.uploads ∧ ∃ d, a.1.deals.get id = some d
  | upload ev => ev.Guard a sha256
  | _ => True

/-- The tickets that a step writes and the evidence of the act that it creates. -/
def rowKeys : Event → List LockKey
  | createAct _ _ _ evidenceId _ _ _ => [.evidenceRow evidenceId]
  | upload (.addSupportMessage _ message _ _) =>
    if message.fromOperator then [.ticketRow message.ticketId] else []
  | upload (.assignTicket id _) | upload (.replyTicket id ..) | upload (.closeTicket id _) =>
    [.ticketRow id]
  | _ => []

/-- The locks behind an upload step: its tickets and evidence, and the rows and index entries
of its intents. -/
def uploadKeys : Event → List LockKey
  | upload (.issue id intent) => [.intentRow id, .intentKey intent.objectKey]
  | upload (.dropIntent intentId) => [.intentRow intentId]
  | ev => ev.consumed.map .intentRow ++ ev.rowKeys

end Event

/-- The part of a step that concerns uploads and the world. -/
structure UploadStep (sha256 : Bytes → String) (ev : Event) (K : List LockKey)
    (a b : Database × World) : Prop where
  uploads : b.1.uploads = ev.applyUploads a.1.uploads
  world : b.2 = ev.applyWorld sha256 a.2
  guard : ev.UploadGuard sha256 a
  keys : ∀ key ∈ ev.uploadKeys, key ∈ K

end Sosedi
