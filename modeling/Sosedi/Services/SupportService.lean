import Sosedi.Services.UploadService

/-!
# Support

`SupportService`: the messages of a ticket and what operators do to it.  Its outbox events and
audit entries are left out.
-/

namespace Sosedi

open Transactions

namespace SupportService

structure CreateSupportMessageDto where
  body : String
  attachmentIntentIds : List Id

/-- Verify the attachments in order. -/
def verifyAttachments (sha256 : Bytes → String) (env : Env) (actorId ticketId : Id)
    (allowAdmin : Bool) : List Id → Prog Sys (List VerifiedEvidence)
  | [] => pure []
  | intentId :: rest => do
    let verified ←
      UploadService.verifySupportAttachmentIntent sha256 env actorId ticketId intentId allowAdmin
    let others ← verifyAttachments sha256 env actorId ticketId allowAdmin rest
    pure (verified :: others)

/-- `messageId` and the `attachmentId i` are fresh ids. -/
def createMessage (sha256 : Bytes → String) (env : Env) (actorId ticketId : Id)
    (dto : CreateSupportMessageDto) (allowAdmin : Bool) (messageId : Id)
    (attachmentId : Nat → Id) : Prog Sys Unit := do
  let ticket ← select fun db => (db.uploads.tickets.get ticketId).filter fun ticket =>
    ticket.general && (allowAdmin || ticket.userId == actorId)
  let ticket ← lift (required ticket (.notFound "Обращение не найдено"))
  lift (ensure (ticket.status != .closed) (.conflict "Обращение уже закрыто"))
  lift (ensure (!(allowAdmin && ticket.assigneeId.any (· != actorId)))
    (.conflict "Обращение назначено другому оператору"))
  let attachments ← verifyAttachments sha256 env actorId ticketId allowAdmin
    dto.attachmentIntentIds
  let confirmedAt ← clock
  forEach attachments fun attachment => do
    let consumed ← UploadService.consumeIntent attachment.intentId actorId ticketId none
      confirmedAt confirmedAt
    lift (ensure consumed (.conflict "Upload intent уже использован или истёк"))
  let message : SupportMessage := ⟨ticketId, actorId, allowAdmin, trim dto.body⟩
  insertUnique [.messageRow messageId]
    (fun db => (db.uploads.supportMessages.get messageId).isSome)
    (.internal "Unique constraint failed: support_messages")
    (fun db => { db with uploads := { db.uploads with
      supportMessages := db.uploads.supportMessages.insert messageId message } })
  let rows := attachments.mapIdx fun i a =>
    (attachmentId i, (⟨messageId, a.intentId, a.objectKey, a.sha256, none⟩ : Evidence))
  forEach rows fun r =>
    insertUnique [.evidenceRow r.1, .evidenceIntent r.2.uploadIntentId]
      (fun db => (db.uploads.supportAttachments.get r.1).isSome ||
        db.uploads.supportAttachments.any fun _ e => e.uploadIntentId == r.2.uploadIntentId)
      (.internal "Unique constraint failed: support_attachments")
      (fun db => { db with uploads := { db.uploads with
        supportAttachments := db.uploads.supportAttachments.insert r.1 r.2 } })
  when allowAdmin (write [.ticketRow ticketId] fun db => { db with uploads := { db.uploads with
    tickets := db.uploads.tickets.modify ticketId
      ({ · with assigneeId := some actorId, status := .inProgress }) } })
  commit (.upload (.addSupportMessage messageId message rows confirmedAt))

/-- `findFirst` of a general ticket. -/
def generalTicket (ticketId : Id) : Prog Sys SupportTicket := do
  let existing ← select fun db => (db.uploads.tickets.get ticketId).filter (·.general)
  lift (required existing (.notFound "Обращение не найдено"))

/-- `updateMany` of a ticket. -/
def updateTicket (ticketId : Id) (cond : SupportTicket → Bool)
    (f : SupportTicket → SupportTicket) : Prog Sys Bool :=
  updateWhere (.ticketRow ticketId) (fun db => (db.uploads.tickets.get ticketId).any cond)
    fun db => { db with uploads := { db.uploads with
      tickets := db.uploads.tickets.modify ticketId f } }

def assignToSelf (adminId ticketId : Id) : Prog Sys Unit := do
  let existing ← generalTicket ticketId
  lift (ensure (existing.status != .closed) (.conflict "Обращение уже закрыто"))
  lift (ensure (!existing.assigneeId.any (· != adminId)) (.conflict "Обращение уже назначено"))
  if existing.assigneeId.isNone then do
    let updated ← updateTicket ticketId (·.assigneeId.isNone) (SupportTicket.assign adminId)
    lift (ensure updated (.conflict "Обращение уже назначено"))
    commit (.upload (.assignTicket ticketId adminId))
  else commit .noop

def replyAsAdmin (adminId ticketId : Id) (message : String) (messageId : Id) : Prog Sys Unit := do
  let existing ← generalTicket ticketId
  lift (ensure (existing.status != .closed && !existing.adminResponse.any (· != ""))
    (.conflict "На обращение уже дан ответ"))
  lift (ensure (!existing.assigneeId.any (· != adminId))
    (.conflict "Обращение назначено другому оператору"))
  let respondedAt ← clock
  let updated ← updateTicket ticketId
    (fun ticket => ticket.general && ticket.status != .closed && ticket.adminResponse.isNone)
    (SupportTicket.reply adminId (trim message) respondedAt)
  lift (ensure updated (.conflict "На обращение уже дан ответ"))
  insertUnique [.messageRow messageId]
    (fun db => (db.uploads.supportMessages.get messageId).isSome)
    (.internal "Unique constraint failed: support_messages")
    (fun db => { db with uploads := { db.uploads with
      supportMessages :=
        db.uploads.supportMessages.insert messageId ⟨ticketId, adminId, true, trim message⟩ } })
  commit (.upload (.replyTicket ticketId adminId (trim message) messageId respondedAt))

def closeAsAdmin (adminId ticketId : Id) : Prog Sys Unit := do
  let existing ← generalTicket ticketId
  lift (ensure (existing.status != .closed) (.conflict "Обращение уже закрыто"))
  lift (ensure (!existing.assigneeId.any (· != adminId))
    (.conflict "Обращение назначено другому оператору"))
  let updated ← updateTicket ticketId
    (fun ticket => ticket.general && ticket.status != .closed &&
      !ticket.assigneeId.any (· != adminId))
    (SupportTicket.close adminId)
  lift (ensure updated (.conflict "Обращение уже закрыто или назначено другому оператору"))
  commit (.upload (.closeTicket ticketId adminId))

end SupportService

end Sosedi
