import Sosedi.Services.BookingService
import Sosedi.Services.DepositService

/-!
# Users

`UsersService`: blocking another user, which cancels the open requests of the pair, and
closing an account.  A SERIALIZABLE transaction reads one snapshot, and fails when a row that
it updates has changed since.
-/

namespace Sosedi

open Transactions

namespace UsersService

/-- The pair in a fixed order. -/
def pairKey (a b : Id) : LockKey := .blockPair (min a b) (max a b)

def betweenUsers (a b : Id) (booking : Booking) : Bool :=
  (booking.borrowerId == a && booking.lenderId == b) ||
    (booking.borrowerId == b && booking.lenderId == a)

def blockTransition (blockerId : Id) : BookingTransition :=
  ⟨some blockerId, .participant, .blockCounterparty, some .pending, .cancelled,
    some .participantBlocked⟩

/-- The statements of `blockUser` on the requests it cancels. -/
def cancelRequests (blockerId : Id) (bookingIds : List Id) : Prog Sys Unit := do
  forEach bookingIds fun id => do
    let _ ← updateWhere (.bookingRow id) (·.pendingBooking id)
      (Database.modifyDeal id (Deal.cancelBooking .participantBlocked))
    pure ()
  write [] (Database.modifyDeals bookingIds
    (Deal.addMessage "Один из участников заблокировал другого. Заявка отменена."))
  write [] (Database.modifyDeals bookingIds (Deal.addTransition (blockTransition blockerId)))
  forEach bookingIds fun id => createOutbox id .cancelled

def blockUser (blockerId blockedId : Id) : Prog Sys Unit := do
  lift (ensure (blockerId != blockedId) (.badRequest "Нельзя заблокировать себя"))
  acquire (pairKey blockerId blockedId)
  let target ← select fun db => (db.users.get blockedId).filter fun user =>
    user.active
  let _ ← lift (required target (.notFound "Пользователь не найден"))
  insertMissing (.userBlockRow blockerId blockedId) (·.userBlocks.contains (blockerId, blockedId))
    fun db => { db with userBlocks := db.userBlocks ++ [(blockerId, blockedId)] }
  let now ← clock
  let found ← select fun db => ((db.deals.keysWhere fun _ d =>
    Database.unexpiredPending now d.booking &&
      betweenUsers blockerId blockedId d.booking).insertionSort (· ≤ ·), db.bookingIds)
  let candidates := found.1
  forEach candidates fun id => acquire (.booking id)
  let cancellable ← select fun db => candidates.filter fun id =>
    (db.booking id).any (Database.unexpiredPending now)
  when (!cancellable.isEmpty) (cancelRequests blockerId cancellable)
  commit (.block blockerId blockedId cancellable found.2 now)

def unblockUser (blockerId blockedId : Id) : Prog Sys Unit := do
  write [.userBlockRow blockerId blockedId] fun db => { db with
    userBlocks := db.userBlocks.filter (· != (blockerId, blockedId)) }
  commit (.account (.unblock blockerId blockedId))

/-! ## Closing an account -/

inductive AccountClosureStatus where
  | pendingObligations
  | anonymized
  deriving DecidableEq

structure AccountClosureResponse where
  status : AccountClosureStatus
  requestedAt : Time
  anonymizedAt : Option Time

def hasAccountDeletionBlockers (db : Database) (userId : Id) : Bool :=
  let activeBooking := db.unfinishedBooking (·.hasParticipant userId)
  let openDispute := db.uploads.tickets.any fun _ ticket =>
    !ticket.general && ticket.status != .closed && (ticket.userId == userId ||
      ticket.bookingId.any fun id => (db.booking id).any (·.hasParticipant userId))
  let paymentRecord := db.deals.any fun _ d =>
    d.payment.any fun payment => payment.userId == userId || d.booking.hasParticipant userId
  activeBooking || openDispute || paymentRecord || db.kycDocuments.contains userId

def findActiveUser (user : Option User) : Except Error User := do
  let user ← required (user.filter (·.deletedAt.isNone)) (.notFound "Пользователь не найден")
  ensure (!user.isBlocked) (.forbidden "Пользователь заблокирован")
  pure user

def updateUser (userId : Id) (f : User → User) (db : Database) : Database :=
  { db with users := db.users.modify userId f }

def deleteMe (userId : Id) : Prog Sys AccountClosureResponse := do
  let user ← select (·.users.get userId)
  let _ ← lift (findActiveUser user)
  let snapshot ← takeSnapshot
  let requestedAt ← clock
  let anonymizedAt :=
    if hasAccountDeletionBlockers snapshot userId then none else some requestedAt
  let _ ← lift (required (snapshot.users.get userId) (.internal "Record to update not found"))
  updateSnapshot (.userRow userId) (·.users.get userId) snapshot
    (updateUser userId (User.close userId requestedAt anonymizedAt))
  commit (.account (.closeAccount userId requestedAt anonymizedAt snapshot.bookingIds))
  pure ⟨if anonymizedAt.isSome then .anonymized else .pendingObligations, requestedAt,
    anonymizedAt⟩

/-- `deletedAt: { not: null }, anonymizedAt: null`. -/
def closing (user : User) : Bool := user.deletedAt.isSome && user.anonymizedAt.isNone

/-- The transaction for one candidate. -/
def finalizeOne (userId : Id) : Prog Sys Nat := do
  let snapshot ← takeSnapshot
  if hasAccountDeletionBlockers snapshot userId then do
    commit .noop
    pure 0
  else do
    let anonymizedAt ← clock
    if (snapshot.users.get userId).any closing then do
      updateSnapshot (.userRow userId) (·.users.get userId) snapshot
        (updateUser userId (User.anonymize userId anonymizedAt))
      commit (.account (.anonymize userId anonymizedAt snapshot.bookingIds))
      pure 1
    else do
      commit .noop
      pure 0

def finalizeEligibleAccountClosures : Prog Sys Unit := do
  let candidates ← select fun db => db.users.keysWhere fun _ user => closing user
  forEach candidates fun id => do
    let _ ← finalizeOne id
    pure ()

end UsersService

end Sosedi
