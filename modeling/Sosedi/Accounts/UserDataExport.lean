import Sosedi.Bookings.SnapshotJson
import Sosedi.Chat.ChatSystem
import Sosedi.Data.OrderedReads
import Sosedi.Reviews.ReviewSystem
import Sosedi.Services.Statements

/-!
# The export of a user's data

`UserDataExportService.create` reads one snapshot of the database.  A row holds the columns that
the export selects and those that it must not give away; rows of a relation are a table inside the
row that has them.
-/

namespace Sosedi

namespace UserDataExportService

def USER_DATA_EXPORT_SCHEMA_VERSION : String := "2026-08-30.1"

def USER_DATA_RETENTION_POLICY_VERSION : String := "ADR-0002/2026-07-27"

/-! ## The database -/

inductive KycStatus where
  | pending
  | verified
  | rejected
  deriving DecidableEq

inductive SupportTicketType where
  | general
  | dispute
  deriving DecidableEq

inductive BookingIssueReason where
  | ownerNoShow
  | borrowerNoShow
  | itemFaulty
  | earlyReturn
  | lateReturn
  | itemDamaged
  | itemLost
  deriving DecidableEq

inductive SupportMessageAuthorRole where
  | user
  | support
  deriving DecidableEq

inductive ReportReason where
  | prohibitedCategory
  | misleadingListing
  | unsafeItem
  | suspectedFraud
  | harassment
  | impersonation
  | privacyViolation
  | noShow
  | unsafeHandover
  | itemNotAsDescribed
  | other
  deriving DecidableEq

structure UserRow where
  phone : String
  name : Option String
  city : Option String
  avatarUrl : Option String
  role : UserRole
  kycStatus : Option KycStatus
  isBlocked : Bool
  deletedAt : Option Time
  createdAt : Time
  updatedAt : Time

structure ItemPhotoRow where
  originalUrl : Option String
  thumbnailUrl : Option String
  previewUrl : Option String
  sortOrder : Int
  isCover : Bool
  createdAt : Time

structure CategoryNames where
  name : String
  slug : String
  deriving DecidableEq

/-- The columns of a listing that the export gives. -/
structure ListingColumns extends ItemContent where
  status : ItemStatus
  rejectReason : Option String
  listingRulesVersion : Option String
  listingRulesAcceptedAt : Option Time
  listingRulesAcceptanceMethod : Option String
  safetyNoticeSnapshot : Option String
  createdAt : Time
  updatedAt : Time
  category : CategoryNames

structure ItemRow extends ListingColumns where
  ownerId : Id
  photos : Table Id ItemPhotoRow

structure PaymentColumns where
  amount : Decimal
  status : PaymentStatus
  createdAt : Time
  updatedAt : Time

structure PaymentRow extends PaymentColumns where
  yookassaPaymentId : Option String
  checkoutUrl : Option String
  rawPayload : Option JsonValue

structure TransitionColumns where
  actorType : ActorType
  command : TransitionCommand
  oldStatus : Option BookingStatus
  newStatus : BookingStatus
  reason : Option String
  createdAt : Time

structure TransitionRow extends TransitionColumns where
  actorId : Option Id
  requestId : String

/-- A row of evidence, or an attachment of a support message. -/
structure FileRow where
  storageKey : String
  sha256 : String
  createdAt : Time

structure ActColumns where
  stage : BookingActStage
  createdAt : Time
  confirmedAt : Option Time

structure ActRow extends ActColumns where
  authorId : Id
  confirmedById : Option Id
  evidence : Table Id FileRow

structure MessageColumns where
  authorRole : BookingMessageAuthorRole
  body : String
  createdAt : Time

structure MessageRow extends MessageColumns where
  authorId : Option Id

structure ReviewColumns where
  rating : Rating
  text : Option String
  publishAt : Time
  hiddenAt : Option Time
  createdAt : Time

structure ReviewRow extends ReviewColumns where
  authorId : Option Id
  hiddenById : Option Id
  hiddenReason : Option String

structure BookingColumns where
  startDate : Time
  endDate : Time
  totalAmount : Decimal
  status : BookingStatus
  expiresAt : Option Time
  cancellationReason : Option String
  createdAt : Time
  updatedAt : Time

structure BookingRow extends BookingColumns where
  borrowerId : Id
  lenderId : Id
  termsSnapshot : Option JsonValue
  payment : Option PaymentRow
  transitions : Table Id TransitionRow
  acts : Table Id ActRow
  messages : Table Id MessageRow
  reviews : Table Id ReviewRow

structure InboxEventRow where
  recipientId : Id
  eventId : Id
  eventType : String
  readAt : Option Time
  createdAt : Time

structure SupportMessageColumns where
  authorRole : SupportMessageAuthorRole
  body : String
  createdAt : Time

structure SupportMessageRow extends SupportMessageColumns where
  authorId : Id
  attachments : Table Id FileRow

structure SupportTicketColumns where
  type : SupportTicketType
  subject : String
  message : String
  status : SupportTicketStatus
  bookingIssueReason : Option BookingIssueReason
  adminResponse : Option String
  respondedAt : Option Time
  createdAt : Time
  updatedAt : Time

structure SupportTicketRow extends SupportTicketColumns where
  userId : Id
  assigneeId : Option Id
  respondedById : Option Id
  messages : Table Id SupportMessageRow

structure ReportColumns where
  targetType : ReportTargetType
  reason : ReportReason
  description : String
  status : ReportStatus
  decision : Option String
  reviewedAt : Option Time
  createdAt : Time
  updatedAt : Time

structure UserReportRow extends ReportColumns where
  reporterId : Id
  targetId : Id
  reviewedById : Option Id

structure UserBlockRow where
  blockerId : Id
  blockedId : Id
  createdAt : Time

/-- The rows under the user and the item are the favourites. -/
structure FavoriteRow where
  createdAt : Time

structure ExportDatabase where
  users : Table Id UserRow
  items : Table Id ItemRow
  bookings : Table Id BookingRow
  inboxEvents : Table Id InboxEventRow
  supportTickets : Table Id SupportTicketRow
  userReports : Table Id UserReportRow
  userBlocks : Table Id UserBlockRow
  favorites : Table (Id × Id) FavoriteRow

/-! ## What is exported -/

inductive ExportActor where
  | system
  | self
  | counterparty
  deriving DecidableEq

inductive SupportAuthor where
  | self
  | support
  deriving DecidableEq

structure ExportedProfile where
  id : Id
  phone : String
  name : Option String
  city : Option String
  avatarPresent : Bool
  role : UserRole
  kycStatus : Option KycStatus
  createdAt : String
  updatedAt : String
  deriving DecidableEq

structure ExportedPhoto where
  id : Id
  sortOrder : Int
  isCover : Bool
  createdAt : String
  deriving DecidableEq

structure ExportedLocation where
  publicArea : String
  address : String
  latitude : ℚ
  longitude : ℚ
  deriving DecidableEq

structure ExportedListing where
  id : Id
  title : String
  description : String
  condition : ItemCondition
  completeness : String
  handoverTerms : String
  pricePerDay : ℚ
  depositAmount : Option ℚ
  status : ItemStatus
  moderationReason : Option String
  category : CategoryNames
  location : ExportedLocation
  safetyNotice : Option String
  photos : List ExportedPhoto
  createdAt : String
  updatedAt : String
  deriving DecidableEq

structure ExportedTerms where
  itemTitle : String
  pricePerDay : ℚ
  days : Int
  rentalSubtotal : ℚ
  depositAmount : Option ℚ
  platformFee : ℚ
  ownerPayout : ℚ
  total : ℚ
  paymentScenario : PaymentScenario
  handoverArea : String
  listingVersion : String
  offerVersion : Option String
  cancellationPolicyVersion : Option String
  deriving DecidableEq

structure ExportedTransition where
  actor : ExportActor
  actorType : ActorType
  command : TransitionCommand
  oldStatus : Option BookingStatus
  newStatus : BookingStatus
  reason : Option String
  createdAt : String
  deriving DecidableEq

structure ExportedAct where
  id : Id
  author : ExportActor
  stage : BookingActStage
  createdAt : String
  confirmedBy : Option ExportActor
  confirmedAt : Option String
  evidenceCount : Nat
  deriving DecidableEq

structure ExportedMessage where
  id : Id
  author : ExportActor
  body : String
  createdAt : String
  deriving DecidableEq

structure ExportedReview where
  id : Id
  author : ExportActor
  rating : Rating
  text : Option String
  published : Bool
  hidden : Bool
  publishAt : String
  createdAt : String
  deriving DecidableEq

/-- `currency` is always `RUB`. -/
structure ExportedBooking where
  id : Id
  actorRole : ReviewAuthorRole
  startDate : String
  endDate : String
  totalAmount : ℚ
  status : BookingStatus
  expiresAt : Option String
  cancellationReason : Option String
  terms : Option ExportedTerms
  transitions : List ExportedTransition
  acts : List ExportedAct
  messages : List ExportedMessage
  reviews : List ExportedReview
  createdAt : String
  updatedAt : String
  deriving DecidableEq

structure ExportedInboxEvent where
  id : Id
  eventType : String
  readAt : Option String
  createdAt : String
  deriving DecidableEq

structure ExportedSupportMessage where
  id : Id
  author : SupportAuthor
  authorRole : SupportMessageAuthorRole
  body : String
  createdAt : String
  attachmentCount : Nat
  deriving DecidableEq

structure ExportedTicket where
  id : Id
  type : SupportTicketType
  subject : String
  initialMessage : String
  status : SupportTicketStatus
  bookingIssueReason : Option BookingIssueReason
  response : Option String
  respondedAt : Option String
  messages : List ExportedSupportMessage
  createdAt : String
  updatedAt : String
  deriving DecidableEq

structure ExportedReport where
  id : Id
  targetType : ReportTargetType
  reason : ReportReason
  description : String
  status : ReportStatus
  decision : Option String
  reviewedAt : Option String
  createdAt : String
  updatedAt : String
  deriving DecidableEq

/-- `target` is always `WITHHELD_THIRD_PARTY`. -/
structure ExportedBlock where
  id : Id
  createdAt : String
  deriving DecidableEq

structure ExportedFavorite where
  itemId : Id
  createdAt : String
  deriving DecidableEq

/-- `context` is the constructor. -/
inductive DocumentAcceptance where
  | listing (entityId : Id) (version acceptedAt method : String)
  | booking (entityId : Id) (offerVersion cancellationPolicyVersion acceptedAt method : String)
  deriving DecidableEq

/-- `currency` is always `RUB`. -/
structure FinancialRecord where
  bookingId : Id
  amount : ℚ
  status : PaymentStatus
  createdAt : String
  updatedAt : String
  deriving DecidableEq

inductive FileCategory where
  | itemPhoto
  | bookingEvidence
  | supportAttachment
  deriving DecidableEq

/-- The hash of a photo is not given. -/
structure ManifestFile where
  category : FileCategory
  fileId : Id
  entityId : Id
  sha256 : Option String
  createdAt : String
  deriving DecidableEq

structure ProcessingCategory where
  category : String
  purpose : String
  retention : String
  deriving DecidableEq

def PROCESSING_CATEGORIES : List ProcessingCategory :=
  [⟨"PROFILE_AND_LISTINGS", "Аккаунт и публикация вещей",
      "До закрытия и завершения законных blocker"⟩,
    ⟨"BOOKING_AND_ACCEPTANCE", "Исполнение аренды и доказательство условий",
      "По ADR-0002 после завершения сделки/претензии"⟩,
    ⟨"SUPPORT_AND_SAFETY", "Поддержка, жалобы и безопасность",
      "По типу записи согласно ADR-0002"⟩,
    ⟨"FINANCIAL_HISTORY", "Расчёты и обязательный учёт",
      "Не менее срока из ADR-0002 и применимого закона"⟩]

def EXCLUDED_EXPORT_DATA : List String :=
  ["OTP, JWT, refresh и step-up tokens", "Антифрод-правила и внутренние admin notes",
    "Чужие контакты и идентификаторы пользователей",
    "Точный чужой pickup address вне отдельного access window",
    "Provider secrets, raw payment payload и storage keys/URLs"]

structure UserDataExport where
  schemaVersion : String
  generatedAt : String
  retentionPolicyVersion : String
  profile : ExportedProfile
  listings : List ExportedListing
  bookings : List ExportedBooking
  inbox : List ExportedInboxEvent
  support : List ExportedTicket
  reports : List ExportedReport
  blocks : List ExportedBlock
  favorites : List ExportedFavorite
  documentAcceptances : List DocumentAcceptance
  financialHistory : List FinancialRecord
  fileManifest : List ManifestFile
  categories : List ProcessingCategory
  excluded : List String
  deriving DecidableEq

/-! ## Reading -/

/-- `orderBy: [{ createdAt: 'asc' }, { id: 'asc' }]`. -/
def oldestFirst {ρ : Type} (createdAt : ρ → Time) (id : Id) (row : ρ) : Time ×ₗ Id :=
  toLex (createdAt row, id)

/-- `orderBy: [{ sortOrder: 'asc' }, { id: 'asc' }]`. -/
def inSortOrder (id : Id) (photo : ItemPhotoRow) : Int ×ₗ Id := toLex (photo.sortOrder, id)

/-- A relation without a condition. -/
def related {ρ : Type} (rows : Table Id ρ) (createdAt : ρ → Time) : List (Id × ρ) :=
  rows.findMany (fun _ _ => true) (oldestFirst createdAt)

def photosOf (item : ItemRow) : List (Id × ItemPhotoRow) :=
  item.photos.findMany (fun _ _ => true) inSortOrder

def isParty (userId : Id) (_ : Id) (booking : BookingRow) : Bool :=
  booking.borrowerId == userId || booking.lenderId == userId

def ownListing (userId : Id) (_ : Id) (item : ItemRow) : Bool := item.ownerId == userId

def isRecipient (userId : Id) (_ : Id) (event : InboxEventRow) : Bool :=
  event.recipientId == userId

def ownTicket (userId : Id) (_ : Id) (ticket : SupportTicketRow) : Bool := ticket.userId == userId

def ownReport (userId : Id) (_ : Id) (report : UserReportRow) : Bool :=
  report.reporterId == userId

def ownBlock (userId : Id) (_ : Id) (block : UserBlockRow) : Bool := block.blockerId == userId

def ownFavorite (userId : Id) (k : Id × Id) (_ : FavoriteRow) : Bool := k.1 == userId

/-! ## Listings -/

def listingAcceptance (id : Id) (item : ListingColumns) : List DocumentAcceptance :=
  match item.listingRulesVersion, item.listingRulesAcceptedAt,
    item.listingRulesAcceptanceMethod with
  | some version, some acceptedAt, some method =>
    if !version.isEmpty && !method.isEmpty then
      [.listing id version (toISOString acceptedAt) method]
    else []
  | _, _, _ => []

def photoFile (itemId photoId : Id) (photo : ItemPhotoRow) : ManifestFile :=
  ⟨.itemPhoto, photoId, itemId, none, toISOString photo.createdAt⟩

def exportPhoto (id : Id) (photo : ItemPhotoRow) : ExportedPhoto :=
  ⟨id, photo.sortOrder, photo.isCover, toISOString photo.createdAt⟩

def exportListing (id : Id) (item : ListingColumns) (photos : List ExportedPhoto) :
    ExportedListing where
  id
  title := item.title
  description := item.description
  condition := item.condition
  completeness := item.completeness
  handoverTerms := item.handoverTerms
  pricePerDay := item.pricePerDay.toNumber
  depositAmount := item.depositAmount.map (·.toNumber)
  status := item.status
  moderationReason := item.rejectReason
  category := item.category
  location := ⟨item.publicArea, item.address, item.latitude, item.longitude⟩
  safetyNotice := item.safetyNoticeSnapshot
  photos
  createdAt := toISOString item.createdAt
  updatedAt := toISOString item.updatedAt

def exportItem (id : Id) (item : ItemRow) : ExportedListing :=
  exportListing id item.toListingColumns ((photosOf item).map fun r => exportPhoto r.1 r.2)

def itemFiles (id : Id) (item : ItemRow) : List ManifestFile :=
  (photosOf item).map fun r => photoFile id r.1 r.2

/-! ## Bookings -/

/-- A user is named by what they are to the user of the export. -/
def actorOf (userId : Id) (actorId : Option Id) : ExportActor :=
  if actorId = some userId then .self else .counterparty

def exportTransition (userId : Id) (transition : TransitionRow) : ExportedTransition where
  actor := if transition.actorId.isNone then .system else actorOf userId transition.actorId
  actorType := transition.actorType
  command := transition.command
  oldStatus := transition.oldStatus
  newStatus := transition.newStatus
  reason := transition.reason
  createdAt := toISOString transition.createdAt

def exportAct (userId id : Id) (act : ActRow) : ExportedAct where
  id
  author := actorOf userId (some act.authorId)
  stage := act.stage
  createdAt := toISOString act.createdAt
  confirmedBy := act.confirmedById.map fun id => actorOf userId (some id)
  confirmedAt := act.confirmedAt.map toISOString
  evidenceCount := (related act.evidence (·.createdAt)).length

def exportMessage (userId id : Id) (message : MessageRow) : ExportedMessage where
  id
  author := if message.authorRole = .system then .system else actorOf userId message.authorId
  body := message.body
  createdAt := toISOString message.createdAt

/-- A review of the counterparty is shown from its publication on. -/
def isShown (userId : Id) (now : Time) (_ : Id) (review : ReviewRow) : Bool :=
  review.authorId == some userId || review.publishAt ≤ now

def exportReview (userId : Id) (now : Time) (id : Id) (review : ReviewRow) : ExportedReview where
  id
  author := actorOf userId review.authorId
  rating := review.rating
  text := review.text
  published := review.publishAt ≤ now
  hidden := review.hiddenAt.isSome
  publishAt := toISOString review.publishAt
  createdAt := toISOString review.createdAt

def readTerms (booking : BookingRow) : Option SnapshotJson.BookingTermsSnapshot :=
  booking.termsSnapshot.bind SnapshotJson.readBookingTermsSnapshot

def exportTerms (terms : SnapshotJson.BookingTermsSnapshot) : ExportedTerms where
  itemTitle := terms.itemTitle
  pricePerDay := terms.pricePerDay
  days := terms.days
  rentalSubtotal := terms.rentalSubtotal
  depositAmount := terms.depositAmount
  platformFee := terms.platformFee
  ownerPayout := terms.ownerPayout
  total := terms.total
  paymentScenario := terms.paymentScenario
  handoverArea := terms.handover.area
  listingVersion := terms.listingVersion
  offerVersion := terms.offerVersion
  cancellationPolicyVersion := terms.cancellationPolicyVersion

/-- The acceptance of the terms, where the user has given it. -/
def ownAcceptance (userText : String) (terms : Option SnapshotJson.BookingTermsSnapshot) :
    Option SnapshotJson.Acceptance :=
  (terms.bind (·.acceptance)).filter (·.actorId == userText)

def bookingAcceptance (userText : String) (id : Id) (booking : BookingRow) :
    List DocumentAcceptance :=
  ((ownAcceptance userText (readTerms booking)).map fun acceptance =>
    DocumentAcceptance.booking id acceptance.offerVersion acceptance.cancellationPolicyVersion
      acceptance.acceptedAt "BOOKING_SUBMIT_CHECKBOX").toList

def financialRecord (id : Id) (payment : PaymentColumns) : FinancialRecord :=
  ⟨id, payment.amount.toNumber, payment.status, toISOString payment.createdAt,
    toISOString payment.updatedAt⟩

def bookingFinances (id : Id) (booking : BookingRow) : List FinancialRecord :=
  (booking.payment.map fun payment => financialRecord id payment.toPaymentColumns).toList

def ownFile (category : FileCategory) (entityId fileId : Id) (file : FileRow) : ManifestFile :=
  ⟨category, fileId, entityId, some file.sha256, toISOString file.createdAt⟩

def actFiles (userId bookingId : Id) (act : ActRow) : List ManifestFile :=
  if act.authorId ≠ userId then []
  else (related act.evidence (·.createdAt)).map fun r =>
    ownFile .bookingEvidence bookingId r.1 r.2

def bookingFiles (userId id : Id) (booking : BookingRow) : List ManifestFile :=
  (related booking.acts (·.createdAt)).flatMap fun r => actFiles userId id r.2

def exportBooking (userId : Id) (now : Time) (id : Id) (booking : BookingRow) :
    ExportedBooking where
  id
  actorRole := if booking.borrowerId = userId then .borrower else .lender
  startDate := toISOString booking.startDate
  endDate := toISOString booking.endDate
  totalAmount := booking.totalAmount.toNumber
  status := booking.status
  expiresAt := booking.expiresAt.map toISOString
  cancellationReason := booking.cancellationReason
  terms := (readTerms booking).map exportTerms
  transitions :=
    (related booking.transitions (·.createdAt)).map fun r => exportTransition userId r.2
  acts := (related booking.acts (·.createdAt)).map fun r => exportAct userId r.1 r.2
  messages := (related booking.messages (·.createdAt)).map fun r => exportMessage userId r.1 r.2
  reviews :=
    ((related booking.reviews (·.createdAt)).filter fun r => isShown userId now r.1 r.2).map
      fun r => exportReview userId now r.1 r.2
  createdAt := toISOString booking.createdAt
  updatedAt := toISOString booking.updatedAt

/-! ## Support, reports, blocks -/

def exportSupportMessage (userId id : Id) (message : SupportMessageRow) :
    ExportedSupportMessage where
  id
  author := if message.authorId = userId then .self else .support
  authorRole := message.authorRole
  body := message.body
  createdAt := toISOString message.createdAt
  attachmentCount := (related message.attachments (·.createdAt)).length

def messageFiles (userId ticketId : Id) (message : SupportMessageRow) : List ManifestFile :=
  if message.authorId ≠ userId then []
  else (related message.attachments (·.createdAt)).map fun r =>
    ownFile .supportAttachment ticketId r.1 r.2

def ticketFiles (userId id : Id) (ticket : SupportTicketRow) : List ManifestFile :=
  (related ticket.messages (·.createdAt)).flatMap fun r => messageFiles userId id r.2

def exportTicketColumns (id : Id) (ticket : SupportTicketColumns)
    (messages : List ExportedSupportMessage) : ExportedTicket where
  id
  type := ticket.type
  subject := ticket.subject
  initialMessage := ticket.message
  status := ticket.status
  bookingIssueReason := ticket.bookingIssueReason
  response := ticket.adminResponse
  respondedAt := ticket.respondedAt.map toISOString
  messages
  createdAt := toISOString ticket.createdAt
  updatedAt := toISOString ticket.updatedAt

def exportTicket (userId id : Id) (ticket : SupportTicketRow) : ExportedTicket :=
  exportTicketColumns id ticket.toSupportTicketColumns
    ((related ticket.messages (·.createdAt)).map fun r => exportSupportMessage userId r.1 r.2)

def exportReport (id : Id) (report : ReportColumns) : ExportedReport where
  id
  targetType := report.targetType
  reason := report.reason
  description := report.description
  status := report.status
  decision := report.decision
  reviewedAt := report.reviewedAt.map toISOString
  createdAt := toISOString report.createdAt
  updatedAt := toISOString report.updatedAt

def exportInboxEvent (id : Id) (event : InboxEventRow) : ExportedInboxEvent :=
  ⟨id, event.eventType, event.readAt.map toISOString, toISOString event.createdAt⟩

def exportProfile (id : Id) (user : UserRow) : ExportedProfile :=
  ⟨id, user.phone, user.name, user.city, user.avatarUrl.isSome, user.role, user.kycStatus,
    toISOString user.createdAt, toISOString user.updatedAt⟩

/-! ## The service -/

section Create

variable (userId : Id) (db : ExportDatabase)

/-- `findFirst` of an account that is neither deleted nor blocked. -/
def findUser : Option UserRow :=
  db.users.found (fun _ user => user.deletedAt.isNone && !user.isBlocked) userId

def itemsOf : List (Id × ItemRow) :=
  db.items.findMany (ownListing userId) (oldestFirst (·.createdAt))

def bookingsOf : List (Id × BookingRow) :=
  db.bookings.findMany (isParty userId) (oldestFirst (·.createdAt))

def inboxOf : List (Id × InboxEventRow) :=
  db.inboxEvents.findMany (isRecipient userId) (oldestFirst (·.createdAt))

def ticketsOf : List (Id × SupportTicketRow) :=
  db.supportTickets.findMany (ownTicket userId) (oldestFirst (·.createdAt))

def reportsOf : List (Id × UserReportRow) :=
  db.userReports.findMany (ownReport userId) (oldestFirst (·.createdAt))

def blocksOf : List (Id × UserBlockRow) :=
  db.userBlocks.findMany (ownBlock userId) (oldestFirst (·.createdAt))

/-- `orderBy: [{ createdAt: 'asc' }, { itemId: 'asc' }]`. -/
def favoritesOf : List ((Id × Id) × FavoriteRow) :=
  db.favorites.findMany (ownFavorite userId) fun k row =>
    (toLex (row.createdAt, k.2) : Time ×ₗ Id)

def create (idText : Id → String) (now : Time) : Except Error UserDataExport := do
  let user ← required (findUser userId db) (.notFound "Пользователь не найден")
  let items := itemsOf userId db
  let bookings := bookingsOf userId db
  let support := ticketsOf userId db
  pure
    { schemaVersion := USER_DATA_EXPORT_SCHEMA_VERSION
      generatedAt := toISOString now
      retentionPolicyVersion := USER_DATA_RETENTION_POLICY_VERSION
      profile := exportProfile userId user
      listings := items.map fun r => exportItem r.1 r.2
      bookings := bookings.map fun r => exportBooking userId now r.1 r.2
      inbox := (inboxOf userId db).map fun r => exportInboxEvent r.1 r.2
      support := support.map fun r => exportTicket userId r.1 r.2
      reports := (reportsOf userId db).map fun r => exportReport r.1 r.2.toReportColumns
      blocks := (blocksOf userId db).map fun r => ⟨r.1, toISOString r.2.createdAt⟩
      favorites := (favoritesOf userId db).map fun r => ⟨r.1.2, toISOString r.2.createdAt⟩
      documentAcceptances :=
        (items.flatMap fun r => listingAcceptance r.1 r.2.toListingColumns) ++
          bookings.flatMap fun r => bookingAcceptance (idText userId) r.1 r.2
      financialHistory := bookings.flatMap fun r => bookingFinances r.1 r.2
      fileManifest :=
        (items.flatMap fun r => itemFiles r.1 r.2) ++
          (bookings.flatMap fun r => bookingFiles userId r.1 r.2) ++
            support.flatMap fun r => ticketFiles userId r.1 r.2
      categories := PROCESSING_CATEGORIES
      excluded := EXCLUDED_EXPORT_DATA }

end Create

end UserDataExportService

end Sosedi
