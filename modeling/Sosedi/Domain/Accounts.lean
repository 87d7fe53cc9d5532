import Sosedi.Domain.Money

/-!
# Accounts, listings and reports

The rows of users, items and reports, and the updates that the services make on them.  An
item carries the list of its own changes as ghost data, so that statements about the order
of decisions can be made on the row.
-/

namespace Sosedi

inductive UserRole where
  | user
  | admin
  deriving DecidableEq

inductive AdminCapability where
  | moderation
  | support
  | kycReview
  | finance
  | dispute
  deriving DecidableEq

structure User where
  phone : String
  name : Option String
  city : Option String
  avatarUrl : Option String
  role : UserRole
  adminCapabilities : List AdminCapability
  isBlocked : Bool
  sessionVersion : Nat
  deletedAt : Option Time
  anonymizedAt : Option Time
  deriving DecidableEq

inductive ItemStatus where
  | pending
  | approved
  | rejected
  | hidden
  deriving DecidableEq

inductive ItemCondition where
  | new
  | likeNew
  | good
  | fair
  deriving DecidableEq

/-- What writes an item; a moderator's decision names the number of changes that it saw. -/
inductive ItemWrite where
  | updateOwn
  | hideOwn
  | addPhoto
  | approve (checkedAt : Nat)
  | reject (checkedAt : Nat)
  | hideListing
  deriving DecidableEq

structure ItemChange where
  write : ItemWrite
  before : ItemStatus
  after : ItemStatus
  deriving DecidableEq

/-- The columns that the owner edits. -/
structure ItemContent where
  categoryId : Id
  title : String
  description : String
  condition : ItemCondition
  completeness : String
  handoverTerms : String
  pricePerDay : Decimal
  depositAmount : Option Decimal
  publicArea : String
  address : String
  latitude : ℚ
  longitude : ℚ
  deriving DecidableEq

/-- `changes` is ghost data: the writes of the row, oldest first. -/
structure Item extends ItemContent where
  ownerId : Id
  status : ItemStatus
  rejectReason : Option String
  listingRulesVersion : Option String
  updatedAt : Time
  changes : List ItemChange
  deriving DecidableEq

structure Category where
  isActive : Bool
  isAllowedForListings : Bool
  /-- `listingPolicy` is `ALLOWED`. -/
  listingAllowed : Bool
  deriving DecidableEq

inductive ReportTargetType where
  | item
  | user
  | booking
  | message
  | review
  deriving DecidableEq

inductive ReportStatus where
  | opened
  | dismissed
  | actioned
  deriving DecidableEq

inductive ReportDecision where
  | dismiss
  | hideListing
  | hideReview
  | blockUser
  deriving DecidableEq

structure UserReport where
  targetType : ReportTargetType
  targetId : Id
  status : ReportStatus
  decision : Option ReportDecision
  reviewedById : Option Id
  reviewedAt : Option Time
  deriving DecidableEq

structure Review where
  authorId : Option Id
  bookingId : Id
  publishAt : Time
  hiddenAt : Option Time
  hiddenById : Option Id
  hiddenReason : Option String
  deriving DecidableEq

/-- A notification about an item or a review, under its deduplication key. -/
structure Notification where
  recipientId : Id
  eventType : String
  deduplicationKey : String
  deriving DecidableEq

/-! ## Updates of a user -/

namespace User

/-- An account in good standing. -/
def active (user : User) : Bool := !user.isBlocked && user.deletedAt.isNone

/-- Blocked by an administrator, or anonymized. -/
def removed (user : User) : Bool := user.isBlocked || user.anonymizedAt.isSome

def block (user : User) : User :=
  { user with isBlocked := true, sessionVersion := user.sessionVersion + 1 }

/-- `buildAnonymizationData`. -/
def anonymize (userId : Id) (anonymizedAt : Time) (user : User) : User :=
  { user with
    phone := "deleted:" ++ toString userId
    name := none
    city := none
    avatarUrl := none
    anonymizedAt := some anonymizedAt }

/-- The update of `deleteMe`; the account is anonymized at once when nothing blocks it. -/
def close (userId : Id) (requestedAt : Time) (anonymizedAt : Option Time) (user : User) : User :=
  let closed := { user with
    sessionVersion := user.sessionVersion + 1
    deletedAt := some requestedAt }
  match anonymizedAt with
  | some at' => closed.anonymize userId at'
  | none => closed

end User

/-! ## Updates of an item -/

/-- `buildUpdateData`: the columns that an owner's request sets. -/
structure ItemUpdate where
  categoryId : Option Id
  title : Option String
  description : Option String
  condition : Option ItemCondition
  completeness : Option String
  handoverTerms : Option String
  pricePerDay : Option Decimal
  depositAmount : Option (Option Decimal)
  publicArea : Option String
  address : Option String
  latitude : Option ℚ
  longitude : Option ℚ
  deriving DecidableEq

/-- `Object.keys(data).length === 0`. -/
def ItemUpdate.isEmpty (data : ItemUpdate) : Bool :=
  data == ⟨none, none, none, none, none, none, none, none, none, none, none, none⟩

def ItemUpdate.apply (data : ItemUpdate) (content : ItemContent) : ItemContent where
  categoryId := data.categoryId.getD content.categoryId
  title := data.title.getD content.title
  description := data.description.getD content.description
  condition := data.condition.getD content.condition
  completeness := data.completeness.getD content.completeness
  handoverTerms := data.handoverTerms.getD content.handoverTerms
  pricePerDay := data.pricePerDay.getD content.pricePerDay
  depositAmount := data.depositAmount.getD content.depositAmount
  publicArea := data.publicArea.getD content.publicArea
  address := data.address.getD content.address
  latitude := data.latitude.getD content.latitude
  longitude := data.longitude.getD content.longitude

namespace Item

/-- A write of the row, which sets its status. -/
def record (write : ItemWrite) (status : ItemStatus) (updatedAt : Time) (item : Item) : Item :=
  { item with
    status
    updatedAt
    changes := item.changes ++ [⟨write, item.status, status⟩] }

def updateOwn (data : ItemUpdate) (updatedAt : Time) (item : Item) : Item :=
  { item with toItemContent := data.apply item.toItemContent, rejectReason := none }.record
    .updateOwn .pending updatedAt

def hideOwn (updatedAt : Time) (item : Item) : Item :=
  { item with rejectReason := none }.record .hideOwn .hidden updatedAt

def addPhoto (updatedAt : Time) (item : Item) : Item :=
  { item with rejectReason := none }.record .addPhoto .pending updatedAt

def approve (checkedAt : Nat) (updatedAt : Time) (item : Item) : Item :=
  { item with rejectReason := none }.record (.approve checkedAt) .approved updatedAt

def reject (checkedAt : Nat) (reason : String) (updatedAt : Time) (item : Item) : Item :=
  { item with rejectReason := some reason }.record (.reject checkedAt) .rejected updatedAt

def hideListing (updatedAt : Time) (item : Item) : Item :=
  item.record .hideListing .hidden updatedAt

end Item

end Sosedi
