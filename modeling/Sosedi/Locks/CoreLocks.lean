import Mathlib.Data.Prod.Lex
import Mathlib.Order.WithBot
import Sosedi.Services.Calls
import Sosedi.Transactions.LockOrder

/-!
# The order of the core's advisory locks

A borrower, a pair of users or a report comes first, then the bookings in the order of their
ids, then the item.

Proved here: every call of the core takes its locks in this order (`ascends_calls`).
-/

namespace Sosedi

open Transactions

/-- A place in the order; `⊤` is in no order. -/
abbrev LockRank := WithTop (Nat ×ₗ Nat)

def LockRank.place (phase id : Nat) : LockRank := ((toLex (phase, id) : Nat ×ₗ Nat) : LockRank)

@[simp] theorem LockRank.place_lt_place {phase id phase' id' : Nat} :
    LockRank.place phase id < LockRank.place phase' id' ↔
      phase < phase' ∨ phase = phase' ∧ id < id' := by
  rw [LockRank.place, LockRank.place, WithTop.coe_lt_coe, Prod.Lex.toLex_lt_toLex]

@[simp] theorem LockRank.place_ne_top {phase id : Nat} : LockRank.place phase id ≠ ⊤ :=
  WithTop.coe_ne_top

@[simp] theorem LockRank.bot_lt_place {phase id : Nat} :
    (⊥ : LockRank) < LockRank.place phase id ↔ 0 < phase ∨ 0 < id := by
  have hbot : (⊥ : LockRank) = LockRank.place 0 0 := rfl
  rw [hbot, LockRank.place_lt_place]
  omega

/-- The rank of a key; of the rows, only a block of a user is written before a lock is taken. -/
def LockKey.rank : LockKey → LockRank
  | .user _ | .blockPair _ _ | .reportDecision _ => .place 1 0
  | .userBlockRow _ _ => .place 2 0
  | .booking id => .place 3 id
  | .item _ => .place 4 0
  | _ => ⊤

/-- In no order. -/
def LockKey.IsRow (k : LockKey) : Prop := k.rank = ⊤

variable {sha256 : Bytes → String} {α : Type}

/-- The statements of a transaction after its locks. -/
abbrev LastRows (p : Prog Sys α) (o : Bool) : Prop :=
  p.Takes LockKey.IsRow (fun _ o => o = false) o

/-- The rest of a transaction that holds its locks. -/
theorem ascends_last {p : Prog Sys α} {b : LockRank} (h : LastRows p true) :
    p.Ascends LockKey.rank b ⊥ := Prog.Takes.ascends h (by simp)

/-- A call that takes no lock. -/
theorem ascends_unlocked {p : Prog Sys α} (h : LastRows p false) :
    p.Ascends LockKey.rank ⊥ ⊥ := Prog.Takes.ascends h fun _ => rfl

/-- A call that takes one lock, in its first statement. -/
theorem ascends_locked {k : LockKey} {f : Unit → Prog Sys α} (hk : ⊥ < k.rank)
    (h : LastRows (f ()) true) : ((acquire k).bind f).Ascends LockKey.rank ⊥ ⊥ :=
  (Prog.ascends_acquire hk).bind fun _ => ascends_last h

/-- Whatever a call returns is dropped. -/
theorem ascends_discard {p : Prog Sys α} (h : p.Ascends LockKey.rank ⊥ ⊥) :
    (Prog.discard p).Ascends LockKey.rank ⊥ ⊥ := h.bind fun _ => le_rfl

attribute [local simp] LockKey.IsRow LockKey.rank onDeal createOutbox createOutboxMissing
  createOperation clock takeSnapshot updateSnapshot createAdminAudit createNotification

/-! ## Bookings -/

namespace BookingService

theorem ascends_create (env : Env) (borrowerId : Id) (dto : CreateBookingDto)
    (requestId clientRequestHash : String) (today now dbNow : Time) (newId : Id) :
    (create env borrowerId dto requestId clientRequestHash today now dbNow newId).Ascends
      LockKey.rank ⊥ ⊥ := by
  simp only [create, Prog.bind_eq]
  refine Prog.ascends_lift_bind fun terms _ => ?_
  refine Prog.ascends_lift_bind fun _ _ => ?_
  refine Prog.ascends_lift_bind fun period _ => ?_
  refine (Prog.ascends_acquire (by simp)).bind fun _ => ?_
  refine Prog.ascends_select_bind fun db => ?_
  split
  · exact ascends_last (by simp)
  · refine Prog.Takes.ascends_bind (o := true) ?_
    simp only [checkBorrower, Prog.bind_eq, Prog.takes_bind, Prog.takes_select, Prog.takes_lift]
    intro _ _ _
    refine (Prog.ascends_acquire (by simp)).bind fun _ => ascends_last ?_
    simp [checkItem, insertDraft]

theorem ascends_confirm (lenderId bookingId : Id) (now : Time) :
    (confirm lenderId bookingId now).Ascends LockKey.rank ⊥ ⊥ := by
  refine (Prog.ascends_acquire (by simp)).bind fun _ => ?_
  refine Prog.ascends_select_bind fun db => ?_
  refine Prog.ascends_lift_bind fun candidate _ => ?_
  refine (Prog.ascends_acquire (by simp)).bind fun _ => ascends_last ?_
  simp [cancelCompetitors, Prog.takes_forEach]

theorem takes_cancelDeposit {bookingId refundId : Id} {dbNow : Time}
    {deposit : Option BookingDeposit} {Q : Unit → Bool → Prop} (hQ : Q () true) :
    (cancelDeposit bookingId refundId dbNow deposit).Takes LockKey.IsRow Q true := by
  cases deposit with
  | none => simpa [cancelDeposit] using hQ
  | some deposit => simp [cancelDeposit, hQ]

theorem ascends_cancelPending (env : Env) (actorId bookingId : Id) (now dbNow : Time)
    (refundId : Id) :
    (cancelPending env actorId bookingId now dbNow refundId).Ascends LockKey.rank ⊥ ⊥ := by
  refine ascends_locked (by simp) ?_
  simp [takes_cancelDeposit]

end BookingService

namespace BookingExpiryService

theorem ascends_expirePending (now : Time) :
    (expirePending now).Ascends LockKey.rank ⊥ ⊥ := by
  refine Prog.ascends_select_bind fun db => ?_
  refine Prog.ascends_forEach fun id => Prog.Ascends.bind ?_ fun _ => le_rfl
  refine ascends_locked (by simp) ?_
  simp

end BookingExpiryService

namespace BookingAvailabilityService

theorem ascends_create (ownerId itemId : Id) (dto : CreateUnavailablePeriodDto) (today : Time)
    (newId : Id) : (create ownerId itemId dto today newId).Ascends LockKey.rank ⊥ ⊥ := by
  refine Prog.ascends_lift_bind fun period _ => ?_
  refine ascends_locked (by simp) ?_
  simp [requireOwnedItem]

theorem ascends_remove (ownerId itemId periodId : Id) :
    (remove ownerId itemId periodId).Ascends LockKey.rank ⊥ ⊥ := by
  refine ascends_locked (by simp) ?_
  simp [requireOwnedItem]

end BookingAvailabilityService

/-! ## Uploads -/

section Uploads

variable {P : LockKey → Prop} {o : Bool}

theorem S3StorageService.takes_inspectUploadedObject {key : String}
    {Q : Option (StoredObject × Bytes) → Bool → Prop} (hQ : ∀ found, Q found o) :
    (inspectUploadedObject key : Prog Sys _).Takes P Q o := by
  simp only [inspectUploadedObject, Prog.bind_eq, Prog.takes_bind, read, Prog.takes_call]
  intro w
  split
  · exact hQ none
  · simp [hQ]

theorem S3StorageService.takes_getObjectBuffer {key : String} {Q : Bytes → Bool → Prop}
    (hQ : ∀ bytes, Q bytes o) : (getObjectBuffer key : Prog Sys _).Takes P Q o := by
  simp [getObjectBuffer, read, hQ]

namespace UploadService

theorem takes_ensureUploadedObject {intent : UploadIntent} {Q : Unit → Bool → Prop}
    (hQ : Q () o) : (ensureUploadedObject intent : Prog Sys _).Takes P Q o := by
  rw [ensureUploadedObject, Prog.bind_eq, Prog.takes_bind]
  refine S3StorageService.takes_inspectUploadedObject fun found => ?_
  simp [hQ]

theorem takes_verifyIntent {env : Env} {purpose : UploadPurpose}
    {binding : UploadIntent → Except Error Unit} {access : Prog Sys Unit}
    {actorId entityId intentId : Id} {Q : VerifiedEvidence → Bool → Prop}
    (haccess : ∀ Q : Unit → Bool → Prop, Q () o → access.Takes P Q o) (hQ : ∀ v, Q v o) :
    (verifyIntent sha256 env purpose binding access actorId entityId intentId).Takes P Q o := by
  simp only [verifyIntent, Prog.bind_eq, Prog.takes_bind, clock, Prog.takes_call,
    Prog.takes_select, Prog.takes_lift]
  intro _ _ intent _ _ _
  refine haccess _ (takes_ensureUploadedObject ?_)
  refine S3StorageService.takes_getObjectBuffer fun bytes => ?_
  simp [sanitizePrivateImage, S3StorageService.putSanitized, hQ]

theorem takes_createPresignedUpload {userId : Id} {dto : RequestUploadUrlDto} {entityId : Id}
    {keyPrefix uuid : String} {newId : Id} :
    LastRows (createPresignedUpload userId dto entityId keyPrefix uuid newId) false := by
  simp [createPresignedUpload, S3StorageService.createPresignedPostUpload]

theorem ascends_requestUploadUrl (userId : Id) (dto : RequestUploadUrlDto) (uuid : String)
    (newId : Id) : (requestUploadUrl userId dto uuid newId).Ascends LockKey.rank ⊥ ⊥ := by
  refine ascends_unlocked ?_
  simp only [requestUploadUrl, Prog.bind_eq, Prog.takes_bind, Prog.takes_lift]
  intro _ _ _ _
  split <;> simp [createAvatarUploadUrl, createBookingEvidenceUploadUrl,
    createDisputeEvidenceUploadUrl, createSupportAttachmentUploadUrl, createItemPhotoUploadUrl,
    ensureBookingParticipant, ensureDisputeParticipant, ensureSupportTicketAccess, ensureOwnedItem,
    ensureNoUnfinishedBookings, takes_createPresignedUpload]

theorem ascends_requestAdminUploadUrl (adminId : Id) (dto : RequestUploadUrlDto) (uuid : String)
    (newId : Id) : (requestAdminSupportAttachmentUploadUrl adminId dto uuid newId).Ascends
      LockKey.rank ⊥ ⊥ := by
  refine ascends_unlocked ?_
  simp [requestAdminSupportAttachmentUploadUrl, createSupportAttachmentUploadUrl,
    ensureSupportTicketAccess, takes_createPresignedUpload]

theorem takes_insertPhoto {dto : ConfirmItemPhotoUploadDto} {itemId photoId : Id}
    {Q : ItemPhoto × List Id × List Id → Bool → Prop} (hQ : ∀ a, Q a true) :
    (insertPhoto dto itemId photoId).Takes LockKey.IsRow Q true := by
  simp [insertPhoto, clearCovers, hQ]

theorem ascends_confirmItemPhotoUpload (userId : Id) (dto : ConfirmItemPhotoUploadDto)
    (photoId : Id) : (confirmItemPhotoUpload userId dto photoId).Ascends LockKey.rank ⊥ ⊥ := by
  refine ascends_unlocked ?_
  simp [confirmItemPhotoUpload, ensureOwnedItem, ensureNoUnfinishedBookings, consumeIntent,
    takes_ensureUploadedObject, takes_insertPhoto]

theorem ascends_confirmAvatarUpload (env : Env) (userId intentId : Id) :
    (confirmAvatarUpload env userId intentId).Ascends LockKey.rank ⊥ ⊥ := by
  refine ascends_unlocked ?_
  simp [confirmAvatarUpload, takes_ensureUploadedObject, S3StorageService.takes_getObjectBuffer,
    S3StorageService.putPublic, S3StorageService.deleteObject, consumeIntent]

end UploadService

theorem PhotoProcessingWorker.ascends_processItemPhotoUploaded (env : Env)
    (job : PhotoProcessingJob) :
    (processItemPhotoUploaded env job).Ascends LockKey.rank ⊥ ⊥ := by
  refine ascends_unlocked ?_
  simp [processItemPhotoUploaded, S3StorageService.takes_getObjectBuffer,
    S3StorageService.putPublic, S3StorageService.deleteObject, Prog.takes_forEach]

theorem UploadCleanupService.ascends_cleanupExpiredUploads (now : Time) :
    (cleanupExpiredUploads now).Ascends LockKey.rank ⊥ ⊥ := by
  refine ascends_unlocked ?_
  simp [cleanupExpiredUploads, visitIntent, visitObject, cleanIntent, S3StorageService.read,
    S3StorageService.deleteObject, Prog.takes_forEach]

end Uploads

/-! ## Accounts -/

namespace UsersService

/-- The requests are locked in the order of their ids. -/
theorem ascends_blockUser (blockerId blockedId : Id) :
    (blockUser blockerId blockedId).Ascends LockKey.rank ⊥ ⊥ := by
  refine Prog.ascends_lift_bind fun _ _ => ?_
  refine (Prog.ascends_acquire (by simp [pairKey])).bind fun _ => ?_
  refine Prog.ascends_select_bind fun db => Prog.ascends_lift_bind fun _ _ => ?_
  refine (Prog.ascends_insertMissing (by simp [pairKey]) _ _).bind fun _ => ?_
  refine Prog.Takes.ascends_bind (o := true) ?_
  simp only [clock, Prog.takes_call]
  intro w
  refine Prog.ascends_select_bind fun db => ?_
  have hsorted : ((db.deals.keysWhere fun _ d => Database.unexpiredPending w.now d.booking &&
      betweenUsers blockerId blockedId d.booking).insertionSort (· ≤ ·)).Pairwise (· < ·) := by
    have hnodup := (List.perm_insertionSort (· ≤ ·) _).nodup_iff.mpr (db.deals.nodup_keysWhere
      fun _ d => Database.unexpiredPending w.now d.booking &&
        betweenUsers blockerId blockedId d.booking)
    exact ((List.pairwise_insertionSort (· ≤ ·) _).and hnodup).imp fun h => lt_of_le_of_ne h.1 h.2
  refine (Prog.ascends_acquireAll ?_ (by simp) (fun _ _ => le_top) le_top).bind
    fun _ => ascends_last ?_
  · exact hsorted.imp fun h => by simpa using h
  · simp [cancelRequests, Prog.takes_forEach]

theorem ascends_unblockUser (blockerId blockedId : Id) :
    (unblockUser blockerId blockedId).Ascends LockKey.rank ⊥ ⊥ :=
  fun _ => ⟨.place 2 0, bot_le, by simp [Prog.Allows], le_rfl⟩

theorem ascends_deleteMe (userId : Id) : (deleteMe userId).Ascends LockKey.rank ⊥ ⊥ :=
  ascends_unlocked (by simp [deleteMe])

theorem ascends_finalizeEligibleAccountClosures :
    finalizeEligibleAccountClosures.Ascends LockKey.rank ⊥ ⊥ :=
  ascends_unlocked (by simp [finalizeEligibleAccountClosures, finalizeOne, Prog.takes_forEach])

end UsersService

namespace AdminService

theorem ascends_blockUser (adminId userId : Id) (reason : String) :
    (blockUser adminId userId reason).Ascends LockKey.rank ⊥ ⊥ :=
  ascends_unlocked (by simp [blockUser])

theorem ascends_moderateItem (adminId itemId : Id) (action : String) (reason : Option String)
    (update : Nat → Time → Item → Item) (ev : Nat → Time → AccountEvent) :
    (moderateItem adminId itemId action reason update ev).Ascends LockKey.rank ⊥ ⊥ :=
  ascends_unlocked (by simp [moderateItem, findModeratableItem])

end AdminService

namespace ReportsService

theorem takes_applyDecision {snapshot : Database} {adminId reportId : Id} {report : UserReport}
    {dto : DecideReportDto} {Q : AccountEvent → Bool → Prop} (hQ : ∀ ev, Q ev true) :
    (applyDecision snapshot adminId reportId report dto).Takes LockKey.IsRow Q true := by
  unfold applyDecision
  split <;> simp [hQ]

theorem takes_notifyDecision {snapshot : Database} {reportId : Id} {report : UserReport}
    {decision : ReportDecision} {Q : Unit → Bool → Prop} (hQ : Q () true) :
    (notifyDecision snapshot reportId report decision).Takes LockKey.IsRow Q true := by
  unfold notifyDecision
  split
  · simp [hQ]
  · simp only [Prog.bind_eq, Prog.takes_bind, Prog.takes_lift]
    intro review _
    split <;> simp [hQ]
  · exact hQ

theorem ascends_decide (adminId reportId : Id) (dto : DecideReportDto) :
    (decide adminId reportId dto).Ascends LockKey.rank ⊥ ⊥ := by
  refine Prog.ascends_select_bind fun snapshot => ascends_locked (by simp) ?_
  simp [takes_applyDecision, takes_notifyDecision]

end ReportsService

namespace ItemsService

theorem takes_buildUpdateData {P : LockKey → Prop} {env : Env} {dto : UpdateItemDto} {o : Bool}
    {Q : ItemUpdate → Bool → Prop} (hQ : ∀ data, Q data o) :
    (buildUpdateData env dto).Takes P Q o := by
  simp only [buildUpdateData, Prog.bind_eq, Prog.takes_bind, Prog.takes_lift]
  intro _ _
  split
  · simp [ensureActiveCategory, hQ]
  · simp [hQ]

theorem ascends_updateOwn (env : Env) (ownerId id : Id) (dto : UpdateItemDto) :
    (updateOwn env ownerId id dto).Ascends LockKey.rank ⊥ ⊥ :=
  ascends_unlocked (by
    simp [updateOwn, findOwnedItem, ensureNoUnfinishedBookings, updateItem, takes_buildUpdateData])

theorem ascends_hideOwn (ownerId id : Id) : (hideOwn ownerId id).Ascends LockKey.rank ⊥ ⊥ :=
  ascends_unlocked (by simp [hideOwn, findOwnedItem, ensureNoUnfinishedBookings, updateItem])

end ItemsService

/-! ## Support -/

namespace SupportService

theorem takes_verifyAttachments {env : Env} {actorId ticketId : Id} {allowAdmin : Bool}
    {ids : List Id} {Q : List VerifiedEvidence → Bool → Prop} (hQ : ∀ found, Q found false) :
    (verifyAttachments sha256 env actorId ticketId allowAdmin ids).Takes LockKey.IsRow Q
      false := by
  induction ids generalizing Q with
  | nil => exact hQ []
  | cons intentId rest ih =>
    simp only [verifyAttachments, Prog.bind_eq, Prog.takes_bind]
    refine UploadService.takes_verifyIntent (fun Q hQ => ?_) fun verified => ih fun others => hQ _
    simp [UploadService.ensureSupportTicketAccess, hQ]

theorem ascends_createMessage (env : Env) (actorId ticketId : Id) (dto : CreateSupportMessageDto)
    (allowAdmin : Bool) (messageId : Id) (attachmentId : Nat → Id) :
    (createMessage sha256 env actorId ticketId dto allowAdmin messageId attachmentId).Ascends
      LockKey.rank ⊥ ⊥ := by
  refine ascends_unlocked ?_
  simp only [createMessage, Prog.bind_eq, Prog.takes_bind, Prog.takes_select, Prog.takes_lift]
  intro _ ticket _ _ _ _ _
  refine takes_verifyAttachments fun attachments => ?_
  simp [UploadService.consumeIntent, Prog.takes_forEach_any]

theorem ascends_assignToSelf (adminId ticketId : Id) :
    (assignToSelf adminId ticketId).Ascends LockKey.rank ⊥ ⊥ :=
  ascends_unlocked (by simp [assignToSelf, generalTicket, updateTicket])

theorem ascends_replyAsAdmin (adminId ticketId : Id) (message : String) (messageId : Id) :
    (replyAsAdmin adminId ticketId message messageId).Ascends LockKey.rank ⊥ ⊥ :=
  ascends_unlocked (by simp [replyAsAdmin, generalTicket, updateTicket])

theorem ascends_closeAsAdmin (adminId ticketId : Id) :
    (closeAsAdmin adminId ticketId).Ascends LockKey.rank ⊥ ⊥ :=
  ascends_unlocked (by simp [closeAsAdmin, generalTicket, updateTicket])

end SupportService

/-! ## Acts -/

theorem takes_completeBooking {bookingId : Id} {now : Time} {trigger : BookingCompletionTrigger}
    {Q : Nat → Bool → Prop} (hQ : ∀ n, Q n true) :
    (completeBookingAfterReturnInTransaction bookingId now trigger).Takes LockKey.IsRow Q true := by
  simp only [completeBookingAfterReturnInTransaction, Prog.bind_eq, Prog.takes_bind,
    Prog.takes_select]
  intro db
  split
  · exact hQ 0
  · simp [hQ]

namespace BookingActService

theorem ascends_create (env : Env) (actorId bookingId : Id) (dto : CreateBookingActDto)
    (evidenceId : Id) :
    (create sha256 env actorId bookingId dto evidenceId).Ascends LockKey.rank ⊥ ⊥ := by
  refine Prog.ascends_select_bind fun db => ?_
  split
  · exact le_rfl
  · refine Prog.ascends_lift_bind fun _ _ => ?_
    refine Prog.Takes.ascends_bind (o := false) ?_
    refine UploadService.takes_verifyIntent (fun Q hQ => ?_) fun verified => ?_
    · simp [UploadService.ensureBookingParticipant, hQ]
    · refine ascends_locked (by simp) ?_
      simp [UploadService.consumeIntent]

theorem takes_confirmStatements {actorId bookingId : Id} {stage : BookingActStage}
    {confirmedAt : Time} {windowEndsAt : Option Time} {Q : Unit → Bool → Prop} (hQ : Q () true) :
    (confirmStatements actorId bookingId stage confirmedAt windowEndsAt).Takes LockKey.IsRow Q
      true := by
  cases windowEndsAt <;> simp [confirmStatements, hQ]

theorem ascends_confirm (actorId bookingId : Id) (stage : BookingActStage) (now : Time) :
    (confirm actorId bookingId stage now).Ascends LockKey.rank ⊥ ⊥ := by
  refine ascends_locked (by simp) ?_
  simp [takes_confirmStatements, takes_completeBooking]

end BookingActService

/-! ## Deposits -/

namespace DepositService

theorem takes_insertPayment {bookingId borrowerId : Id} {amountMinor : Int}
    {providerOperationId : String} {hold : Option HoldData} {Q : Unit → Bool → Prop}
    (hQ : Q () true) : (insertPayment bookingId borrowerId amountMinor providerOperationId
      hold).Takes LockKey.IsRow Q true := by
  cases hold <;> simp [insertPayment, hQ]

theorem takes_requestHold {bookingId : Id} {snapshot : BookingTermsSnapshot}
    {deposit : Option BookingDeposit} {Q : Option String → Bool → Prop} (hQ : ∀ id, Q id true) :
    (requestHold sha256 bookingId snapshot deposit).Takes LockKey.IsRow Q true := by
  simp only [requestHold, callProvider, Prog.bind_eq, Prog.takes_ite, Prog.takes_bind,
    Prog.takes_call, Prog.takes_lift, Prog.pure_eq, Prog.takes_ret]
  refine ⟨fun _ => hQ none, fun _ w result _ => ?_⟩
  split
  · exact hQ _
  · trivial

theorem ascends_checkout (env : Env) (borrowerId bookingId : Id) (outcome : FakeOperationOutcome)
    (idempotencyKey : String) (holdId : Id) (completedAt dbNow : Time) :
    (checkout sha256 env borrowerId bookingId outcome idempotencyKey holdId completedAt
      dbNow).Ascends LockKey.rank ⊥ ⊥ := by
  refine Prog.ascends_lift_bind fun _ _ => ?_
  refine Prog.ascends_lift_bind fun _ _ => ?_
  refine ascends_locked (by simp) ?_
  simp only [callProvider, Prog.bind_eq, Prog.takes_bind, Prog.takes_select, Prog.takes_lift,
    Prog.takes_call]
  intro _ dbPayment _ _ _ _ _ snapshot _ w result _
  split
  · split
    · simp
    · simp [takes_requestHold, takes_insertPayment]
  · simp

theorem ascends_completeAfterDepositSettled (bookingId : Id) (now : Time) :
    (completeAfterDepositSettled bookingId now).Ascends LockKey.rank ⊥ ⊥ := by
  refine ascends_locked (by simp) ?_
  simp [takes_completeBooking]

theorem ascends_retryFailedOperation (env : Env) (adminId bookingId operationId : Id)
    (idempotencyKey : String) (now dbNow : Time) (retryId : Id) :
    (retryFailedOperation env adminId bookingId operationId idempotencyKey now dbNow
      retryId).Ascends LockKey.rank ⊥ ⊥ := by
  refine Prog.ascends_lift_bind fun _ _ => ?_
  refine Prog.ascends_lift_bind fun commandKey _ => ?_
  refine Prog.ascends_select_bind fun db => ?_
  refine Prog.ascends_lift_bind fun _ _ => ?_
  refine ascends_locked (by simp) ?_
  simp only [Prog.bind_eq, Prog.takes_bind, Prog.takes_select, Prog.takes_lift]
  intro _ operation _ _ _ _
  split <;> simp

end DepositService

namespace DepositOperationProcessor

theorem takes_checkResolved {bookingId : Id} {totalReached : Bool} {Q : Bool → Bool → Prop}
    (hQ : ∀ resolved, Q resolved true) :
    (checkResolved bookingId totalReached).Takes LockKey.IsRow Q true := by
  simp only [checkResolved, Prog.bind_eq, Prog.takes_ite, Prog.takes_bind, Prog.takes_select,
    Prog.pure_eq, Prog.takes_ret]
  refine ⟨fun _ db => ?_, fun _ => hQ false⟩
  split <;> simp [hQ]

theorem ascends_applyOutcome (bookingId operationId : Id) (attempts : Nat)
    (processingUntil : Time) (outcome : ProviderOperationResult) (now : Time) :
    (applyOutcome bookingId operationId attempts processingUntil outcome now).Ascends LockKey.rank
      ⊥ ⊥ := by
  refine ascends_locked (by simp) ?_
  simp only [Prog.bind_eq, Prog.takes_bind, Prog.takes_select]
  intro _ _
  split
  · simp
  · simp only [Prog.takes_bind, Prog.takes_lift]
    intro deposit _
    cases outcome with
    | timeout => simp [onOperation]
    | declined errorCode => simp [onOperation]
    | succeeded providerOperationId =>
      simp [applySuccess, onOperation, takes_checkResolved, takes_completeBooking]

theorem ascends_processOne (env : Env)
    (deliver : Except Error ProviderOperationResult → Except Error ProviderOperationResult)
    (bookingId operationId : Id) (now : Time) :
    (processOne sha256 env deliver bookingId operationId now).Ascends LockKey.rank ⊥ ⊥ := by
  have hclaim : (claim bookingId operationId now).Ascends LockKey.rank ⊥ ⊥ :=
    ascends_unlocked (by simp [claim])
  refine hclaim.bind fun claimed => ?_
  split
  · exact le_rfl
  · refine Prog.ascends_lift_bind fun _ _ => ?_
    have houtcome : ∀ attempts outcome, ((applyOutcome bookingId operationId attempts
        (now + operationLeaseMs) outcome now).bind fun _ => (pure 1 : Prog Sys Nat)).Ascends
          LockKey.rank ⊥ ⊥ := fun _ _ => (ascends_applyOutcome _ _ _ _ _ _).bind fun _ => le_rfl
    simp only [Prog.bind_eq, Prog.pure_eq, Prog.ret_bind] at houtcome ⊢
    split
    · exact houtcome _ _
    · refine Prog.Takes.ascends_bind (o := false) ?_
      simp only [callProvider, Prog.takes_call]
      intro w
      split <;> exact houtcome _ _

theorem ascends_processPending (env : Env)
    (deliver : Id → Id → Except Error ProviderOperationResult →
      Except Error ProviderOperationResult) (now : Time) :
    (processPending sha256 env deliver now).Ascends LockKey.rank ⊥ ⊥ := by
  refine Prog.ascends_lift_bind fun _ _ => Prog.ascends_select_bind fun db => ?_
  refine Prog.ascends_forEach fun operation => ?_
  exact (ascends_processOne _ _ _ _ _).bind fun _ => le_rfl

end DepositOperationProcessor

theorem DepositDeadlineService.ascends_processDue (now dbNow : Time) (operationId : Id → Id) :
    (processDue now dbNow operationId).Ascends LockKey.rank ⊥ ⊥ := by
  refine Prog.ascends_select_bind fun db => Prog.ascends_forEach fun bookingId => ?_
  refine Prog.Ascends.bind ?_ fun _ => le_rfl
  refine ascends_locked (by simp) ?_
  simp only [Prog.bind_eq, Prog.takes_bind, Prog.takes_select]
  intro _ _ _
  split
  · simp
  · simp [takes_completeBooking]

namespace DisputeService

theorem ascends_openDispute (actorId bookingId : Id) (dto : CreateDisputeDto) (now : Time) :
    (openDispute actorId bookingId dto now).Ascends LockKey.rank ⊥ ⊥ := by
  refine ascends_locked (by simp) ?_
  simp

theorem ascends_resolveDispute (env : Env) (adminId bookingId : Id) (dto : ResolveDisputeDto)
    (idempotencyKey : String) (now dbNow : Time) (refundId releaseId : Id) :
    (resolveDispute env adminId bookingId dto idempotencyKey now dbNow refundId
      releaseId).Ascends LockKey.rank ⊥ ⊥ := by
  refine Prog.ascends_lift_bind fun _ _ => Prog.ascends_lift_bind fun commandKey _ => ?_
  refine Prog.ascends_lift_bind fun _ _ => Prog.ascends_lift_bind fun _ _ => ?_
  refine Prog.ascends_select_bind fun db => Prog.ascends_lift_bind fun _ _ => ?_
  refine ascends_locked (by simp) ?_
  simp [repeatedDecision, createResolutionOperation, takes_completeBooking]

theorem ascends_addEvidence (env : Env) (actorId bookingId disputeId intentId evidenceId : Id) :
    (addEvidence sha256 env actorId bookingId disputeId intentId evidenceId).Ascends LockKey.rank
      ⊥ ⊥ := by
  refine ascends_unlocked ?_
  simp only [addEvidence, clock, Prog.bind_eq, Prog.takes_bind, Prog.takes_call]
  intro w
  refine UploadService.takes_verifyIntent (fun Q hQ => ?_) fun verified => ?_
  · simp [UploadService.ensureDisputeParticipant, hQ]
  · simp [UploadService.consumeIntent]

end DisputeService

/-! ## Calls -/

/-- **Every call takes its locks in their order.** -/
theorem ascends_calls (p : Prog Sys Unit) (h : Calls sha256 p) :
    p.Ascends LockKey.rank ⊥ ⊥ := by
  obtain ⟨c, rfl⟩ := h
  cases c with
  | createBooking => exact ascends_discard (BookingService.ascends_create _ _ _ _ _ _ _ _ _)
  | confirmBooking => exact ascends_discard (BookingService.ascends_confirm _ _ _)
  | cancelPending => exact ascends_discard (BookingService.ascends_cancelPending _ _ _ _ _ _)
  | expirePending => exact BookingExpiryService.ascends_expirePending _
  | blockUser => exact UsersService.ascends_blockUser _ _
  | unblockUser => exact UsersService.ascends_unblockUser _ _
  | deleteMe => exact ascends_discard (UsersService.ascends_deleteMe _)
  | finalizeEligibleAccountClosures => exact UsersService.ascends_finalizeEligibleAccountClosures
  | adminBlockUser => exact ascends_discard (AdminService.ascends_blockUser _ _ _)
  | approveItem => exact ascends_discard (AdminService.ascends_moderateItem _ _ _ _ _ _)
  | rejectItem => exact ascends_discard (AdminService.ascends_moderateItem _ _ _ _ _ _)
  | decideReport => exact ReportsService.ascends_decide _ _ _
  | updateItem => exact ItemsService.ascends_updateOwn _ _ _ _
  | hideItem => exact ItemsService.ascends_hideOwn _ _
  | createPeriod => exact ascends_discard (BookingAvailabilityService.ascends_create _ _ _ _ _)
  | removePeriod => exact BookingAvailabilityService.ascends_remove _ _ _
  | createAct => exact ascends_discard (BookingActService.ascends_create _ _ _ _ _)
  | confirmAct => exact ascends_discard (BookingActService.ascends_confirm _ _ _ _)
  | checkout => exact ascends_discard (DepositService.ascends_checkout _ _ _ _ _ _ _ _)
  | completeAfterDepositSettled =>
    exact ascends_discard (DepositService.ascends_completeAfterDepositSettled _ _)
  | retryFailedOperation =>
    exact ascends_discard (DepositService.ascends_retryFailedOperation _ _ _ _ _ _ _ _)
  | processPending => exact DepositOperationProcessor.ascends_processPending _ _ _
  | processOperation =>
    exact ascends_discard (DepositOperationProcessor.ascends_processOne _ _ _ _ _)
  | processDue => exact DepositDeadlineService.ascends_processDue _ _ _
  | openDispute => exact ascends_discard (DisputeService.ascends_openDispute _ _ _ _)
  | resolveDispute =>
    exact ascends_discard (DisputeService.ascends_resolveDispute _ _ _ _ _ _ _ _ _)
  | addDisputeEvidence => exact ascends_discard (DisputeService.ascends_addEvidence _ _ _ _ _ _)
  | requestUploadUrl => exact UploadService.ascends_requestUploadUrl _ _ _ _
  | requestAdminUploadUrl => exact UploadService.ascends_requestAdminUploadUrl _ _ _ _
  | clientUpload => exact fun _ => le_rfl
  | confirmItemPhoto => exact UploadService.ascends_confirmItemPhotoUpload _ _ _
  | confirmAvatar => exact UploadService.ascends_confirmAvatarUpload _ _ _
  | processPhoto => exact PhotoProcessingWorker.ascends_processItemPhotoUploaded _ _
  | createSupportMessage => exact SupportService.ascends_createMessage _ _ _ _ _ _ _
  | assignToSelf => exact SupportService.ascends_assignToSelf _ _
  | replyAsAdmin => exact SupportService.ascends_replyAsAdmin _ _ _ _
  | closeAsAdmin => exact SupportService.ascends_closeAsAdmin _ _
  | cleanupExpiredUploads => exact UploadCleanupService.ascends_cleanupExpiredUploads _
  | tick => exact fun _ => le_rfl

end Sosedi
