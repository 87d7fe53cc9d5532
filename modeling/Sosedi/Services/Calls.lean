import Sosedi.Services.AdminService
import Sosedi.Services.ItemsService
import Sosedi.Services.SupportService

/-!
# The calls of the system

`Call` lists the calls whose interleavings are studied, `Call.prog` their programs.
-/

namespace Sosedi

open Transactions

inductive Call where
  | createBooking (env : Env) (borrowerId : Id) (dto : CreateBookingDto)
      (requestId clientRequestHash : String) (today now dbNow : Time) (newId : Id)
  | confirmBooking (lenderId bookingId : Id) (now : Time)
  | cancelPending (env : Env) (actorId bookingId : Id) (now dbNow : Time) (refundId : Id)
  | expirePending (now : Time)
  | blockUser (blockerId blockedId : Id)
  | unblockUser (blockerId blockedId : Id)
  | deleteMe (userId : Id)
  | finalizeEligibleAccountClosures
  | adminBlockUser (adminId userId : Id) (reason : String)
  | approveItem (adminId itemId : Id)
  | rejectItem (adminId itemId : Id) (reason : String)
  | decideReport (adminId reportId : Id) (dto : ReportsService.DecideReportDto)
  | updateItem (env : Env) (ownerId itemId : Id) (dto : ItemsService.UpdateItemDto)
  | hideItem (ownerId itemId : Id)
  | createPeriod (ownerId itemId : Id)
      (dto : BookingAvailabilityService.CreateUnavailablePeriodDto) (today : Time) (newId : Id)
  | removePeriod (ownerId itemId periodId : Id)
  | createAct (env : Env) (actorId bookingId : Id) (dto : BookingActService.CreateBookingActDto)
      (evidenceId : Id)
  | confirmAct (actorId bookingId : Id) (stage : BookingActStage) (now : Time)
  | checkout (env : Env) (borrowerId bookingId : Id) (outcome : FakeOperationOutcome)
      (idempotencyKey : String) (holdId : Id) (completedAt dbNow : Time)
  | completeAfterDepositSettled (bookingId : Id) (now : Time)
  | retryFailedOperation (env : Env) (adminId bookingId operationId : Id)
      (idempotencyKey : String) (now dbNow : Time) (retryId : Id)
  | processPending (env : Env)
      (deliver : Id → Id → Except Error ProviderOperationResult →
        Except Error ProviderOperationResult) (now : Time)
  | processOperation (env : Env)
      (deliver : Except Error ProviderOperationResult → Except Error ProviderOperationResult)
      (bookingId operationId : Id) (now : Time)
  | processDue (now dbNow : Time) (operationId : Id → Id)
  | openDispute (actorId bookingId : Id) (dto : DisputeService.CreateDisputeDto) (now : Time)
  | resolveDispute (env : Env) (adminId bookingId : Id) (dto : DisputeService.ResolveDisputeDto)
      (idempotencyKey : String) (now dbNow : Time) (refundId releaseId : Id)
  | addDisputeEvidence (env : Env) (actorId bookingId disputeId intentId evidenceId : Id)
  | requestUploadUrl (userId : Id) (dto : UploadService.RequestUploadUrlDto) (uuid : String)
      (newId : Id)
  | requestAdminUploadUrl (adminId : Id) (dto : UploadService.RequestUploadUrlDto)
      (uuid : String) (newId : Id)
  | clientUpload (key : String) (bytes : Bytes) (contentType : String)
  | confirmItemPhoto (userId : Id) (dto : UploadService.ConfirmItemPhotoUploadDto) (photoId : Id)
  | confirmAvatar (env : Env) (userId intentId : Id)
  | processPhoto (env : Env) (job : PhotoProcessingJob)
  | createSupportMessage (env : Env) (actorId ticketId : Id)
      (dto : SupportService.CreateSupportMessageDto) (allowAdmin : Bool) (messageId : Id)
      (attachmentId : Nat → Id)
  | assignToSelf (adminId ticketId : Id)
  | replyAsAdmin (adminId ticketId : Id) (message : String) (messageId : Id)
  | closeAsAdmin (adminId ticketId : Id)
  | cleanupExpiredUploads (now : Time)
  /-- Time passes. -/
  | tick (ms : Nat)

def Prog.discard {α : Type} (p : Prog Sys α) : Prog Sys Unit := p.bind fun _ => .ret ()

/-- The program of a call; what it returns to its client is dropped. -/
def Call.prog (sha256 : Bytes → String) : Call → Prog Sys Unit
  | .createBooking env borrowerId dto requestId hash today now dbNow newId =>
    Prog.discard
      (BookingService.create env borrowerId dto requestId hash today now dbNow newId)
  | .confirmBooking lenderId bookingId now =>
    Prog.discard (BookingService.confirm lenderId bookingId now)
  | .cancelPending env actorId bookingId now dbNow refundId =>
    Prog.discard (BookingService.cancelPending env actorId bookingId now dbNow refundId)
  | .expirePending now => BookingExpiryService.expirePending now
  | .blockUser blockerId blockedId => UsersService.blockUser blockerId blockedId
  | .unblockUser blockerId blockedId => UsersService.unblockUser blockerId blockedId
  | .deleteMe userId => Prog.discard (UsersService.deleteMe userId)
  | .finalizeEligibleAccountClosures => UsersService.finalizeEligibleAccountClosures
  | .adminBlockUser adminId userId reason =>
    Prog.discard (AdminService.blockUser adminId userId reason)
  | .approveItem adminId itemId => Prog.discard (AdminService.approveItem adminId itemId)
  | .rejectItem adminId itemId reason =>
    Prog.discard (AdminService.rejectItem adminId itemId reason)
  | .decideReport adminId reportId dto => ReportsService.decide adminId reportId dto
  | .updateItem env ownerId itemId dto => ItemsService.updateOwn env ownerId itemId dto
  | .hideItem ownerId itemId => ItemsService.hideOwn ownerId itemId
  | .createPeriod ownerId itemId dto today newId =>
    Prog.discard (BookingAvailabilityService.create ownerId itemId dto today newId)
  | .removePeriod ownerId itemId periodId =>
    BookingAvailabilityService.remove ownerId itemId periodId
  | .createAct env actorId bookingId dto evidenceId =>
    Prog.discard (BookingActService.create sha256 env actorId bookingId dto evidenceId)
  | .confirmAct actorId bookingId stage now =>
    Prog.discard (BookingActService.confirm actorId bookingId stage now)
  | .checkout env borrowerId bookingId outcome key holdId completedAt dbNow =>
    Prog.discard
      (DepositService.checkout sha256 env borrowerId bookingId outcome key holdId completedAt dbNow)
  | .completeAfterDepositSettled bookingId now =>
    Prog.discard (DepositService.completeAfterDepositSettled bookingId now)
  | .retryFailedOperation env adminId bookingId operationId key now dbNow retryId =>
    Prog.discard (DepositService.retryFailedOperation env adminId bookingId operationId key now
      dbNow retryId)
  | .processPending env deliver now =>
    DepositOperationProcessor.processPending sha256 env deliver now
  | .processOperation env deliver bookingId operationId now =>
    Prog.discard
      (DepositOperationProcessor.processOne sha256 env deliver bookingId operationId now)
  | .processDue now dbNow operationId => DepositDeadlineService.processDue now dbNow operationId
  | .openDispute actorId bookingId dto now =>
    Prog.discard (DisputeService.openDispute actorId bookingId dto now)
  | .resolveDispute env adminId bookingId dto key now dbNow refundId releaseId =>
    Prog.discard (DisputeService.resolveDispute env adminId bookingId dto key now dbNow refundId
      releaseId)
  | .addDisputeEvidence env actorId bookingId disputeId intentId evidenceId =>
    Prog.discard
      (DisputeService.addEvidence sha256 env actorId bookingId disputeId intentId evidenceId)
  | .requestUploadUrl userId dto uuid newId =>
    UploadService.requestUploadUrl userId dto uuid newId
  | .requestAdminUploadUrl adminId dto uuid newId =>
    UploadService.requestAdminSupportAttachmentUploadUrl adminId dto uuid newId
  | .clientUpload key bytes contentType => S3StorageService.clientUpload key bytes contentType
  | .confirmItemPhoto userId dto photoId =>
    UploadService.confirmItemPhotoUpload userId dto photoId
  | .confirmAvatar env userId intentId => UploadService.confirmAvatarUpload env userId intentId
  | .processPhoto env job => PhotoProcessingWorker.processItemPhotoUploaded env job
  | .createSupportMessage env actorId ticketId dto allowAdmin messageId attachmentId =>
    SupportService.createMessage sha256 env actorId ticketId dto allowAdmin messageId attachmentId
  | .assignToSelf adminId ticketId => SupportService.assignToSelf adminId ticketId
  | .replyAsAdmin adminId ticketId message messageId =>
    SupportService.replyAsAdmin adminId ticketId message messageId
  | .closeAsAdmin adminId ticketId => SupportService.closeAsAdmin adminId ticketId
  | .cleanupExpiredUploads now => UploadCleanupService.cleanupExpiredUploads now
  | .tick ms => Sosedi.tick ms

/-- The programs that clients of the system run. -/
def Calls (sha256 : Bytes → String) (p : Prog Sys Unit) : Prop := ∃ c : Call, p = c.prog sha256

end Sosedi
