import Sosedi.Domain.BookingPeriod
import Sosedi.Services.UsersService

/-!
# Administrators and moderators

`AdminService`: blocking an account and moderating an item, and the decisions of
`ReportsService` on a report.
-/

namespace Sosedi

open Transactions

namespace AdminService

def blockUser (adminId userId : Id) (reason : String) : Prog Sys User := do
  lift (ensure (adminId != userId) (.conflict "Администратор не может заблокировать себя"))
  let found ← select fun db => (db.unfinishedBooking (·.hasParticipant userId), db.bookingIds)
  lift (ensure (!found.1) (.conflictCode "USER_HAS_UNFINISHED_BOOKINGS"
    "Сначала завершите или передайте в support незавершённые бронирования"))
  let updated ← updateWhere (.userRow userId) (fun db => (db.users.get userId).any (·.active))
    (UsersService.updateUser userId User.block)
  let user ← select (·.users.get userId)
  let user ← lift (required (user.filter (·.deletedAt.isNone))
    (.notFound "Пользователь не найден"))
  lift (ensure updated (.conflict "Пользователь уже заблокирован"))
  createAdminAudit ⟨some adminId, "USER_BLOCKED", "User", some userId, some reason⟩
  commit (.account (.blockAccount userId found.2))
  pure user

/-! ## Moderation -/

def findModeratableItem (itemId : Id) : Prog Sys Item := do
  let item ← select (·.items.get itemId)
  let item ← lift (required item (.notFound "Объявление не найдено"))
  lift (ensure (item.status == .pending)
    (.conflict "Модерировать можно только объявление в статусе PENDING"))
  pure item

/-- The transaction of both decisions: check the status, update by id, log and notify. -/
def moderateItem (adminId itemId : Id) (action : String) (reason : Option String)
    (update : Nat → Time → Item → Item) (ev : Nat → Time → AccountEvent) : Prog Sys Item := do
  let currentItem ← findModeratableItem itemId
  let checkedAt := currentItem.changes.length
  let updatedAt ← clock
  write [.itemRow itemId] fun db => { db with
    items := db.items.modify itemId (update checkedAt updatedAt) }
  let updatedItem ← select (·.items.get itemId)
  let updatedItem ← lift (required updatedItem (.internal "Record to update not found"))
  createAdminAudit ⟨some adminId, action, "Item", some itemId, reason⟩
  createNotification ⟨updatedItem.ownerId, action,
    "item:" ++ toString itemId ++ ":" ++ action ++ ":" ++ toISOString updatedItem.updatedAt⟩
  commit (.account (ev checkedAt updatedAt))
  pure updatedItem

def approveItem (adminId itemId : Id) : Prog Sys Item :=
  moderateItem adminId itemId "ITEM_APPROVED" none Item.approve (.approveItem itemId)

def rejectItem (adminId itemId : Id) (reason : String) : Prog Sys Item :=
  moderateItem adminId itemId "ITEM_REJECTED" (some reason) (Item.reject · reason)
    (.rejectItem itemId · reason)

end AdminService

/-! ## Reports -/

namespace ReportsService

structure DecideReportDto where
  decision : ReportDecision
  reason : String

/-- The account that a `BLOCK_USER` decision is about. -/
def reportedUser (db : Database) (report : UserReport) : Except Error Id :=
  match report.targetType with
  | .user => .ok report.targetId
  | .message =>
    required (db.messageAuthors.get report.targetId).join
      (.notFound "Автор сообщения недоступен")
  | _ => .error
    (.badRequest "BLOCK_USER применим только к жалобе на пользователя или сообщение")

/-- Every read sees `snapshot`; returns the event of the decision. -/
def applyDecision (snapshot : Database) (adminId reportId : Id) (report : UserReport)
    (dto : DecideReportDto) : Prog Sys AccountEvent :=
  match dto.decision with
  | .dismiss => pure (.decideReport reportId)
  | .hideListing => do
    lift (ensure (report.targetType == .item)
      (.badRequest "HIDE_LISTING применим только к объявлению"))
    let _ ← lift (required (snapshot.items.get report.targetId)
      (.notFound "Объявление не найдено"))
    let updatedAt ← clock
    updateSnapshot (.itemRow report.targetId) (·.items.get report.targetId) snapshot fun db =>
      { db with items := db.items.modify report.targetId (Item.hideListing updatedAt) }
    pure (.hideListing report.targetId updatedAt)
  | .hideReview => do
    lift (ensure (report.targetType == .review)
      (.badRequest "HIDE_REVIEW применим только к отзыву"))
    let now ← clock
    let _ ← lift (required ((snapshot.reviews.get report.targetId).filter fun review =>
        review.hiddenAt.isNone && review.publishAt ≤ now)
      (.notFound "Опубликованный отзыв не найден"))
    updateSnapshot (.reviewRow report.targetId) (·.reviews.get report.targetId) snapshot fun db =>
      { db with
        reviews := db.reviews.modify report.targetId ({ · with
          hiddenAt := some now
          hiddenById := some adminId
          hiddenReason := some (trim dto.reason) }) }
    pure (.decideReport reportId)
  | .blockUser => do
    let targetUserId ← lift (reportedUser snapshot report)
    lift (ensure (!snapshot.unfinishedBooking (·.hasParticipant targetUserId))
      (.conflict "Сначала завершите или передайте в support незавершённые бронирования"))
    lift (ensure ((snapshot.users.get targetUserId).any (·.active))
      (.conflict "Пользователь уже недоступен"))
    updateSnapshot (.userRow targetUserId) (·.users.get targetUserId) snapshot
      (UsersService.updateUser targetUserId User.block)
    pure (.blockAccount targetUserId snapshot.bookingIds)

/-- The notification of a decision that hides something. -/
def notifyDecision (snapshot : Database) (reportId : Id) (report : UserReport)
    (decision : ReportDecision) : Prog Sys Unit :=
  match decision with
  | .hideListing => do
    let item ← lift (required (snapshot.items.get report.targetId) (.internal "No Item found"))
    createNotification ⟨item.ownerId, "ITEM_HIDDEN_BY_REPORT_REVIEW",
      "report:" ++ toString reportId ++ ":item-hidden"⟩
  | .hideReview => do
    let review ← lift (required (snapshot.reviews.get report.targetId)
      (.internal "No Review found"))
    match review.authorId with
    | some authorId => createNotification ⟨authorId, "REVIEW_HIDDEN_BY_REPORT_REVIEW",
        "report:" ++ toString reportId ++ ":review-hidden"⟩
    | none => pure ()
  | _ => pure ()

/-- The snapshot is taken by the statement that waits for the lock, before it is granted. -/
def decide (adminId reportId : Id) (dto : DecideReportDto) : Prog Sys Unit := do
  let snapshot ← takeSnapshot
  acquire (.reportDecision reportId)
  let current ← lift (required (snapshot.reports.get reportId) (.notFound "Жалоба не найдена"))
  lift (ensure (current.status == .opened) (.conflict "Жалоба уже рассмотрена"))
  let ev ← applyDecision snapshot adminId reportId current dto
  let reviewedAt ← clock
  updateSnapshot (.reportRow reportId) (·.reports.get reportId) snapshot fun db =>
    { db with
      reports := db.reports.modify reportId ({ · with
        status := if dto.decision = .dismiss then .dismissed else .actioned
        decision := some dto.decision
        reviewedById := some adminId
        reviewedAt := some reviewedAt }) }
  createAdminAudit ⟨some adminId, "REPORT_DECIDED", "UserReport", some reportId,
    some (trim dto.reason)⟩
  notifyDecision snapshot reportId current dto.decision
  commit (.account ev)

end ReportsService

end Sosedi
