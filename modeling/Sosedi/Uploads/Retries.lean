import Sosedi.Scripts
import Sosedi.Transactions.Stops

/-!
# Submissions that are tried again

A submission verifies its uploads before its transaction.  A verification overwrites the object
with its re-encoded bytes, so a submission that is tried again verifies other bytes than its
client uploaded.

Proved here: a submission that throws or is killed leaves the database as it was
(`Submission.endsInCommit`), and its verification passes again exactly if the image library keeps
the size of the file (`retry_passes_iff`).
-/

namespace Sosedi

open Transactions UploadService

/-- What uses upload intents: an act of a booking, evidence of a dispute, a support message. -/
inductive Submission where
  | act (actorId bookingId : Id) (dto : BookingActService.CreateBookingActDto) (evidenceId : Id)
  | disputeEvidence (actorId bookingId disputeId intentId evidenceId : Id)
  | supportMessage (actorId ticketId : Id) (dto : SupportService.CreateSupportMessageDto)
      (allowAdmin : Bool) (messageId : Id) (attachmentId : Nat → Id)

namespace Submission

def call (env : Env) : Submission → Call
  | act actorId bookingId dto evidenceId => .createAct env actorId bookingId dto evidenceId
  | disputeEvidence actorId bookingId disputeId intentId evidenceId =>
    .addDisputeEvidence env actorId bookingId disputeId intentId evidenceId
  | supportMessage actorId ticketId dto allowAdmin messageId attachmentId =>
    .createSupportMessage env actorId ticketId dto allowAdmin messageId attachmentId

/-- How the submission verifies an intent. -/
def verification (sha256 : Bytes → String) (env : Env) (intentId : Id) :
    Submission → Prog Sys VerifiedEvidence
  | act actorId bookingId _ _ => verifyBookingEvidenceIntent sha256 env actorId bookingId intentId
  | disputeEvidence actorId _ disputeId _ _ =>
    verifyDisputeEvidenceIntent sha256 env actorId disputeId intentId
  | supportMessage actorId ticketId _ allowAdmin _ _ =>
    verifySupportAttachmentIntent sha256 env actorId ticketId intentId allowAdmin

/-- The booking, the dispute or the ticket lets the actor add to it. -/
def admits (db : Database) : Submission → Bool
  | act actorId bookingId _ _ => ((db.booking bookingId).filter fun booking =>
    booking.hasParticipant actorId && booking.status.reserves).isSome
  | disputeEvidence actorId _ disputeId _ _ => ((db.dispute disputeId).filter fun _ =>
    (db.booking disputeId).any (·.hasParticipant actorId)).isSome
  | supportMessage actorId ticketId _ allowAdmin _ _ =>
    ((db.uploads.tickets.get ticketId).filter fun ticket =>
      ticket.general && (allowAdmin || ticket.userId == actorId)).isSome

end Submission

/-- What the image library makes of a file is a file of the same type, which it accepts too. -/
def Reencodes (sharp : String → Bytes → Option Bytes) : Prop :=
  ∀ contentType source out, sharp contentType source = some out →
    hasExpectedMagicBytes contentType (out.take 12) ∧ (sharp contentType out).isSome

variable {sha256 : Bytes → String} {env : Env} {c : Submission} {i : Id} {α β : Type}
  {σ σ₁ σ' σ'' : Store} {ω : List (Database → Database)}

/-! ## A failed submission -/

namespace UploadService

theorem uncommitted_verifyIntent {purpose : UploadPurpose}
    {binding : UploadIntent → Except Error Unit} {access : Prog Sys Unit}
    {actorId entityId intentId : Id} (haccess : access.Uncommitted) :
    (verifyIntent sha256 env purpose binding access actorId entityId intentId).Uncommitted := by
  have hread : ∀ {γ : Type} (out : ObjectStorage → γ), (S3StorageService.read out).Uncommitted :=
    fun _ => Prog.uncommitted_call _ _ _
  have hinspect : ∀ key, (S3StorageService.inspectUploadedObject key).Uncommitted := by
    intro key
    unfold S3StorageService.inspectUploadedObject
    refine (hread _).bind fun metadata => ?_
    cases metadata with
    | none => trivial
    | some metadata =>
      dsimp only
      split
      · trivial
      · exact (hread _).bind fun _ => Prog.uncommitted_ret _
  have hbuffer : ∀ key, (S3StorageService.getObjectBuffer key).Uncommitted := fun key =>
    Prog.Uncommitted.bind (hread _) fun _ => (Prog.uncommitted_lift _).bind fun _ =>
      Prog.uncommitted_ret _
  refine (Prog.uncommitted_call _ _ _).bind fun now => ?_
  refine (Prog.uncommitted_select _).bind fun intent => ?_
  refine (Prog.uncommitted_lift _).bind fun intent => ?_
  refine (Prog.uncommitted_lift _).bind fun _ => ?_
  refine haccess.bind fun _ => ?_
  refine ((hinspect _).bind fun _ => (Prog.uncommitted_lift _).bind fun _ =>
    (Prog.uncommitted_lift _).bind fun _ => Prog.uncommitted_lift _).bind fun _ => ?_
  refine (hbuffer _).bind fun bytes => ?_
  refine ((Prog.uncommitted_lift _).bind fun _ =>
    (Prog.uncommitted_call _ _ _).bind fun _ => Prog.uncommitted_ret _).bind fun _ => ?_
  trivial

private theorem uncommitted_access {γ : Type} (f : Database → Option γ) (e : Error) :
    ((Transactions.select f : Prog Sys (Option γ)).bind fun found =>
      (Transactions.lift (required found e)).bind fun _ => (.ret () : Prog Sys Unit)).Uncommitted :=
  (Prog.uncommitted_select _).bind fun _ => (Prog.uncommitted_lift _).bind fun _ =>
    Prog.uncommitted_ret _

theorem uncommitted_verifyBookingEvidenceIntent (userId bookingId intentId : Id) :
    (verifyBookingEvidenceIntent sha256 env userId bookingId intentId).Uncommitted :=
  uncommitted_verifyIntent (uncommitted_access _ _)

theorem uncommitted_verifyDisputeEvidenceIntent (userId disputeId intentId : Id) :
    (verifyDisputeEvidenceIntent sha256 env userId disputeId intentId).Uncommitted :=
  uncommitted_verifyIntent (uncommitted_access _ _)

theorem uncommitted_verifySupportAttachmentIntent (actorId ticketId intentId : Id)
    (allowAdmin : Bool) :
    (verifySupportAttachmentIntent sha256 env actorId ticketId intentId allowAdmin).Uncommitted :=
  uncommitted_verifyIntent (uncommitted_access _ _)

end UploadService

theorem BookingActService.endsInCommit_create (actorId bookingId : Id)
    (dto : CreateBookingActDto) (evidenceId : Id) :
    (create sha256 env actorId bookingId dto evidenceId).EndsInCommit := by
  refine Prog.EndsInCommit.bind (Prog.uncommitted_select _) fun earlier => ?_
  cases earlier with
  | some act => trivial
  | none =>
    refine Prog.EndsInCommit.bind (Prog.uncommitted_lift _) fun _ => ?_
    refine Prog.EndsInCommit.bind (uncommitted_verifyBookingEvidenceIntent _ _ _) fun v => ?_
    refine Prog.EndsInCommit.bind (Prog.uncommitted_acquire _) fun _ => ?_
    refine Prog.EndsInCommit.bind (Prog.uncommitted_select _) fun _ => ?_
    refine Prog.EndsInCommit.bind (Prog.uncommitted_lift _) fun booking => ?_
    refine Prog.EndsInCommit.bind (Prog.uncommitted_lift _) fun _ => ?_
    refine Prog.EndsInCommit.bind (Prog.uncommitted_lift _) fun _ => ?_
    refine Prog.EndsInCommit.bind (Prog.uncommitted_call _ _ _) fun _ => ?_
    refine Prog.EndsInCommit.bind (Prog.uncommitted_call _ _ _) fun _ => ?_
    refine Prog.EndsInCommit.bind (Prog.uncommitted_updateWhere _ _ _) fun _ => ?_
    refine Prog.EndsInCommit.bind (Prog.uncommitted_lift _) fun _ => ?_
    refine Prog.EndsInCommit.bind (Prog.uncommitted_call _ _ _) fun _ => ?_
    refine Prog.EndsInCommit.bind (Prog.uncommitted_insertUnique _ _ _ _) fun _ => ?_
    refine Prog.EndsInCommit.bind (Prog.uncommitted_insertUnique _ _ _ _) fun _ => ?_
    exact Prog.endsInCommit_commit _ _

theorem DisputeService.endsInCommit_addEvidence
    (actorId bookingId disputeId intentId evidenceId : Id) :
    (addEvidence sha256 env actorId bookingId disputeId intentId evidenceId).EndsInCommit := by
  refine Prog.EndsInCommit.bind (Prog.uncommitted_call _ _ _) fun _ => ?_
  refine Prog.EndsInCommit.bind (uncommitted_verifyDisputeEvidenceIntent _ _ _) fun v => ?_
  refine Prog.EndsInCommit.bind (Prog.uncommitted_select _) fun _ => ?_
  refine Prog.EndsInCommit.bind (Prog.uncommitted_lift _) fun _ => ?_
  refine Prog.EndsInCommit.bind (Prog.uncommitted_updateWhere _ _ _) fun _ => ?_
  refine Prog.EndsInCommit.bind (Prog.uncommitted_lift _) fun _ => ?_
  refine Prog.EndsInCommit.bind (Prog.uncommitted_insertUnique _ _ _ _) fun _ => ?_
  exact Prog.endsInCommit_commit _ _

namespace SupportService

theorem uncommitted_verifyAttachments (actorId ticketId : Id) (allowAdmin : Bool) (ids : List Id) :
    (verifyAttachments sha256 env actorId ticketId allowAdmin ids).Uncommitted := by
  induction ids with
  | nil => trivial
  | cons id ids ih =>
    exact (uncommitted_verifySupportAttachmentIntent _ _ _ _).bind fun _ =>
      ih.bind fun _ => Prog.uncommitted_ret _

theorem endsInCommit_createMessage (actorId ticketId : Id) (dto : CreateSupportMessageDto)
    (allowAdmin : Bool) (messageId : Id) (attachmentId : Nat → Id) :
    (createMessage sha256 env actorId ticketId dto allowAdmin messageId attachmentId).EndsInCommit
    := by
  refine Prog.EndsInCommit.bind (Prog.uncommitted_select _) fun _ => ?_
  refine Prog.EndsInCommit.bind (Prog.uncommitted_lift _) fun ticket => ?_
  refine Prog.EndsInCommit.bind (Prog.uncommitted_lift _) fun _ => ?_
  refine Prog.EndsInCommit.bind (Prog.uncommitted_lift _) fun _ => ?_
  refine Prog.EndsInCommit.bind (uncommitted_verifyAttachments _ _ _ _) fun attachments => ?_
  refine Prog.EndsInCommit.bind (Prog.uncommitted_call _ _ _) fun _ => ?_
  refine Prog.EndsInCommit.bind (Prog.uncommitted_forEach fun attachment =>
    (Prog.uncommitted_updateWhere _ _ _).bind fun _ => Prog.uncommitted_lift _) fun _ => ?_
  refine Prog.EndsInCommit.bind (Prog.uncommitted_insertUnique _ _ _ _) fun _ => ?_
  refine Prog.EndsInCommit.bind (Prog.uncommitted_forEach fun _ =>
    Prog.uncommitted_insertUnique _ _ _ _) fun _ => ?_
  refine Prog.EndsInCommit.bind (Prog.uncommitted_when (Prog.uncommitted_write _ _)) fun _ => ?_
  exact Prog.endsInCommit_commit _ ()

end SupportService

theorem Submission.endsInCommit (c : Submission) :
    ((c.call env).prog sha256).EndsInCommit := by
  cases c with
  | act => exact (BookingActService.endsInCommit_create _ _ _ _).discard
  | disputeEvidence => exact (DisputeService.endsInCommit_addEvidence _ _ _ _ _).discard
  | supportMessage => exact SupportService.endsInCommit_createMessage _ _ _ _ _ _

/-! ## Verification, alone -/

namespace UploadService

theorem returns_inspectUploadedObject {key : String}
    {f : Option (StoredObject × Bytes) → Prog Sys β} {b : β} :
    ((S3StorageService.inspectUploadedObject key).bind f).Returns ω σ b σ₁ ↔
      (f ((σ.2.storage.getObject .privateBucket key).map fun o =>
        (o, o.bytes.take 12))).Returns ω σ b σ₁ := by
  simp only [S3StorageService.inspectUploadedObject, S3StorageService.read, Prog.bind_eq,
    Prog.bind_assoc, Prog.returns_call, id_eq]
  cases ho : σ.2.storage.getObject .privateBucket key with
  | none => rfl
  | some o =>
    dsimp only
    by_cases hempty : o.bytes.isEmpty = true
    · rw [if_pos hempty]
      simp [List.isEmpty_iff.mp hempty]
    · rw [if_neg hempty]
      simp only [Prog.bind_assoc, Prog.returns_call, id_eq, ho]
      rfl

/-- What the object under the key of an intent must be. -/
def Uploaded (intent : UploadIntent) (o : StoredObject) : Prop :=
  (o.bytes.length : Int) = intent.sizeBytes ∧ o.contentType = intent.contentType ∧
    hasExpectedMagicBytes intent.contentType (o.bytes.take 12)

theorem returns_ensureUploadedObject {intent : UploadIntent} {f : Unit → Prog Sys β} {b : β} :
    ((ensureUploadedObject intent).bind f).Returns ω σ b σ₁ ↔
      (∃ o, σ.2.storage.getObject .privateBucket intent.objectKey = some o ∧ Uploaded intent o) ∧
        (f ()).Returns ω σ b σ₁ := by
  simp only [ensureUploadedObject, Prog.bind_eq, Prog.bind_assoc, returns_inspectUploadedObject,
    Prog.returns_lift, required_eq_ok, ensure_eq_ok, Option.map_eq_some_iff, Bool.and_eq_true,
    beq_iff_eq, Uploaded]
  constructor
  · rintro ⟨_, ⟨o, ho, rfl⟩, _, ⟨hsize, htype⟩, _, hmagic, h⟩
    exact ⟨⟨o, ho, hsize, htype, hmagic⟩, h⟩
  · rintro ⟨⟨o, ho, hsize, htype, hmagic⟩, h⟩
    exact ⟨_, ⟨o, ho, rfl⟩, (), ⟨hsize, htype⟩, (), hmagic, h⟩

theorem returns_getObjectBuffer {key : String} {f : Bytes → Prog Sys β} {b : β} :
    ((S3StorageService.getObjectBuffer key).bind f).Returns ω σ b σ₁ ↔
      ∃ o, σ.2.storage.getObject .privateBucket key = some o ∧
        (f o.bytes).Returns ω σ b σ₁ := by
  simp only [S3StorageService.getObjectBuffer, S3StorageService.read, Prog.bind_eq,
    Prog.bind_assoc, Prog.returns_call, Prog.returns_lift, required_eq_ok, id_eq]
  rfl

/-- The store once the bytes are written over the object of the intent. -/
def overwritten (intent : UploadIntent) (bytes : Bytes) (σ : Store) : Store :=
  (σ.1, { σ.2 with storage :=
    σ.2.storage.putHashed intent.objectKey ⟨bytes, intent.contentType, some σ.2.now⟩ })

/-- An access check that only reads. -/
def Admits (access : Prog Sys Unit) (admits : Database → Bool) : Prop :=
  ∀ (f : Unit → Prog Sys VerifiedEvidence) (v : VerifiedEvidence) (σ σ₁ : Store),
    (access.bind f).Returns [] σ v σ₁ ↔ admits σ.1 ∧ (f ()).Returns [] σ v σ₁

theorem admits_select {γ : Type} (found : Database → Option γ) (e : Error) :
    Admits ((Transactions.select found : Prog Sys (Option γ)).bind fun found =>
      (Transactions.lift (required found e)).bind fun _ => .ret ())
      fun db => (found db).isSome := by
  intro f v σ σ₁
  simp only [Prog.bind_assoc, Prog.returns_select, view_nil, Prog.returns_lift, required_eq_ok,
    Prog.ret_bind, Option.isSome_iff_exists]
  constructor
  · rintro ⟨a, ha, h⟩
    exact ⟨⟨a, ha⟩, h⟩
  · rintro ⟨⟨a, ha⟩, h⟩
    exact ⟨a, ha, h⟩

/-- **A verification, alone**: what it needs and what it does. -/
theorem returns_verifyIntent {purpose : UploadPurpose} {binding : UploadIntent → Except Error Unit}
    {access : Prog Sys Unit} {admits : Database → Bool} {actorId entityId intentId : Id}
    {v : VerifiedEvidence} (haccess : Admits access admits) :
    (verifyIntent sha256 env purpose binding access actorId entityId intentId).Returns [] σ v σ₁ ↔
      ∃ intent o out, σ.1.uploads.intents.get intentId = some intent ∧
        (intent.actorId = actorId ∧ intent.entityId = entityId ∧ intent.purpose = purpose) ∧
        intent.confirmedAt = none ∧ σ.2.now < intent.expiresAt ∧ binding intent = .ok () ∧
        admits σ.1 ∧ σ.2.storage.getObject .privateBucket intent.objectKey = some o ∧
        Uploaded intent o ∧ env.sharp intent.contentType o.bytes = some out ∧
        v = ⟨intentId, intent.objectKey, sha256 out, out⟩ ∧ σ₁ = overwritten intent out σ := by
  simp only [verifyIntent, clock, Prog.bind_eq, Prog.returns_call, Prog.returns_select, view_nil,
    id_eq, Prog.returns_lift, required_eq_ok, Option.filter_eq_some_iff, Bool.and_eq_true,
    beq_iff_eq, Option.isNone_iff_eq_none, decide_eq_true_eq, haccess _ v σ σ₁,
    returns_ensureUploadedObject, returns_getObjectBuffer, sanitizePrivateImage,
    S3StorageService.putSanitized, Prog.bind_assoc, Prog.pure_eq, Prog.ret_bind, Prog.returns_ret]
  constructor
  · rintro ⟨intent, ⟨hrow, ⟨⟨⟨hactor, hentity⟩, hpurpose⟩, hopen⟩, hlive⟩, _, hbinding, hadmits,
      ⟨o, ho, hup⟩, o', ho', out, hout, rfl, rfl⟩
    obtain rfl : o = o' := Option.some.inj (ho.symm.trans ho')
    exact ⟨intent, o, out, hrow, ⟨hactor, hentity, hpurpose⟩, hopen, hlive, hbinding, hadmits, ho,
      hup, hout, rfl, rfl⟩
  · rintro ⟨intent, o, out, hrow, ⟨hactor, hentity, hpurpose⟩, hopen, hlive, hbinding, hadmits, ho,
      hup, hout, rfl, rfl⟩
    exact ⟨intent, ⟨hrow, ⟨⟨⟨hactor, hentity⟩, hpurpose⟩, hopen⟩, hlive⟩, (), hbinding, hadmits,
      ⟨o, ho, hup⟩, o, ho, out, hout, rfl, rfl⟩

end UploadService

namespace Submission

def actorId : Submission → Id
  | act actorId _ _ _ => actorId
  | disputeEvidence actorId _ _ _ _ => actorId
  | supportMessage actorId _ _ _ _ _ => actorId

/-- The booking, the dispute or the ticket. -/
def entityId : Submission → Id
  | act _ bookingId _ _ => bookingId
  | disputeEvidence _ _ disputeId _ _ => disputeId
  | supportMessage _ ticketId _ _ _ _ => ticketId

def purpose : Submission → UploadPurpose
  | act .. => .bookingEvidence
  | disputeEvidence .. => .disputeEvidence
  | supportMessage .. => .supportAttachment

def binding (intent : UploadIntent) : Submission → Except Error Unit
  | act actorId _ _ _ => ensureBookingEvidenceIntentBinding actorId intent
  | disputeEvidence actorId _ _ _ _ => ensureDisputeEvidenceIntentBinding actorId intent
  | supportMessage actorId _ _ _ _ _ => ensureSupportAttachmentIntentBinding actorId intent

/-- The submission finds the intent, open and its own, and the upload of the intent. -/
structure Finds (c : Submission) (i : Id) (intent : UploadIntent) (o : StoredObject) (σ : Store) :
    Prop where
  row : σ.1.uploads.intents.get i = some intent
  owner : intent.actorId = c.actorId ∧ intent.entityId = c.entityId ∧ intent.purpose = c.purpose
  unconsumed : intent.confirmedAt = none
  unexpired : σ.2.now < intent.expiresAt
  binding : c.binding intent = .ok ()
  admits : c.admits σ.1
  stored : σ.2.storage.getObject .privateBucket intent.objectKey = some o
  uploaded : Uploaded intent o

theorem returns_verification {v : VerifiedEvidence} :
    (c.verification sha256 env i).Returns [] σ v σ₁ ↔
      ∃ intent o out, c.Finds i intent o σ ∧ env.sharp intent.contentType o.bytes = some out ∧
        v = ⟨i, intent.objectKey, sha256 out, out⟩ ∧ σ₁ = overwritten intent out σ := by
  have hverify : (c.verification sha256 env i).Returns [] σ v σ₁ ↔ ∃ intent o out,
      σ.1.uploads.intents.get i = some intent ∧
        (intent.actorId = c.actorId ∧ intent.entityId = c.entityId ∧ intent.purpose = c.purpose) ∧
        intent.confirmedAt = none ∧ σ.2.now < intent.expiresAt ∧ c.binding intent = .ok () ∧
        c.admits σ.1 ∧ σ.2.storage.getObject .privateBucket intent.objectKey = some o ∧
        Uploaded intent o ∧ env.sharp intent.contentType o.bytes = some out ∧
        v = ⟨i, intent.objectKey, sha256 out, out⟩ ∧ σ₁ = overwritten intent out σ := by
    cases c with
    | act | disputeEvidence | supportMessage => exact returns_verifyIntent (admits_select _ _)
  rw [hverify]
  constructor
  · rintro ⟨intent, o, out, hrow, howner, hopen, hlive, hbinding, hadmits, ho, hup, h⟩
    exact ⟨intent, o, out, ⟨hrow, howner, hopen, hlive, hbinding, hadmits, ho, hup⟩, h⟩
  · rintro ⟨intent, o, out, ⟨hrow, howner, hopen, hlive, hbinding, hadmits, ho, hup⟩, h⟩
    exact ⟨intent, o, out, hrow, howner, hopen, hlive, hbinding, hadmits, ho, hup, h⟩

/-! ## Trying again -/

/-- The image library makes a file of the declared size of the upload. -/
def KeepsSize (env : Env) (i : Id) (σ : Store) : Prop :=
  ∀ intent o out, σ.1.uploads.intents.get i = some intent →
    σ.2.storage.getObject .privateBucket intent.objectKey = some o →
    env.sharp intent.contentType o.bytes = some out → (out.length : Int) = intent.sizeBytes

/-- The intent and its object are in `σ''` as they were in `σ'`, the intent has not expired, and
what the submission adds to still admits it. -/
structure Later (c : Submission) (i : Id) (key : String) (σ' σ'' : Store) : Prop where
  row : σ''.1.uploads.intents.get i = σ'.1.uploads.intents.get i
  object : σ''.2.storage.getObject .privateBucket key = σ'.2.storage.getObject .privateBucket key
  unexpired : ∀ intent, σ''.1.uploads.intents.get i = some intent → σ''.2.now < intent.expiresAt
  admits : c.admits σ''.1

/-- The verification of the intent succeeded from `σ`, and then the submission threw or was
killed, leaving `σ'`. -/
structure FailsAfter (sha256 : Bytes → String) (env : Env) (c : Submission) (i : Id)
    (v : VerifiedEvidence) (σ σ' : Store) : Prop where
  stops : ((c.call env).prog sha256).Stops [] σ σ'
  verified : ∃ σ₁, (c.verification sha256 env i).Returns [] σ v σ₁ ∧
    σ'.2.storage.getObject .privateBucket v.objectKey =
      σ₁.2.storage.getObject .privateBucket v.objectKey

/-- **A failed submission can be tried again** exactly if the image library keeps the size of the
upload. -/
theorem retry_passes_iff {v : VerifiedEvidence} (hsharp : Reencodes env.sharp)
    (hfailed : c.FailsAfter sha256 env i v σ σ') (hlater : c.Later i v.objectKey σ' σ'') :
    ((∃ intent, σ'.1.uploads.intents.get i = some intent ∧ intent.confirmedAt = none) ∧
      ∃ v' σ₃, (c.verification sha256 env i).Returns [] σ'' v' σ₃) ↔ KeepsSize env i σ := by
  have hdb : σ'.1 = σ.1 := hfailed.stops.db_eq c.endsInCommit
  obtain ⟨σ₁, hverified, hobject⟩ := hfailed.verified
  obtain ⟨intent, o, out, hfinds, hout, rfl, rfl⟩ := returns_verification.mp hverified
  obtain ⟨hmagic, hagain⟩ := hsharp _ _ _ hout
  have hrow' : σ''.1.uploads.intents.get i = some intent := by
    rw [hlater.row, hdb, hfinds.row]
  have hput : σ''.2.storage.getObject .privateBucket intent.objectKey =
      some ⟨out, intent.contentType, some σ.2.now⟩ := by
    rw [hlater.object, hobject]
    exact (ObjectStorage.getObject_putObject ..).trans (if_pos rfl)
  constructor
  · rintro ⟨-, v', σ₃, hretry⟩ intent₀ o₀ out₀ hrow₀ ho₀ hout₀
    obtain ⟨intent', o', out', hfinds', -, -, -⟩ := returns_verification.mp hretry
    obtain rfl : intent = intent' := Option.some.inj (hrow'.symm.trans hfinds'.row)
    obtain rfl : intent = intent₀ := Option.some.inj (hfinds.row.symm.trans hrow₀)
    obtain rfl : o = o₀ := Option.some.inj (hfinds.stored.symm.trans ho₀)
    obtain rfl : out = out₀ := Option.some.inj (hout.symm.trans hout₀)
    have hstored := hfinds'.stored
    rw [hput, Option.some.injEq] at hstored
    have hsize := hfinds'.uploaded.1
    rw [← hstored] at hsize
    exact hsize
  · intro hkeeps
    have hsize := hkeeps intent o out hfinds.row hfinds.stored hout
    refine ⟨⟨intent, hdb ▸ hfinds.row, hfinds.unconsumed⟩, ?_⟩
    obtain ⟨again, hagain⟩ := Option.isSome_iff_exists.mp hagain
    exact ⟨_, _, returns_verification.mpr ⟨intent, ⟨out, intent.contentType, some σ.2.now⟩, again,
      ⟨hrow', hfinds.owner, hfinds.unconsumed, hlater.unexpired intent hrow', hfinds.binding,
        hlater.admits, hput, hsize, rfl, hmagic⟩, hagain, rfl, rfl⟩⟩

end Submission

namespace Scenario

open Submission

/-- An image library that writes what `encode` makes of a file of the right type. -/
def library (encode : Bytes → Bytes) : Env :=
  { Scenario.env with sharp := fun contentType bytes =>
    if hasExpectedMagicBytes contentType (bytes.take 12) then some (encode bytes) else none }

/-- The lender has uploaded a photo of 13 bytes for the handover. -/
def photographed : State Sys :=
  play anyEvent hash state
    [.call (create 1 10 "r1"), .run 0 15, .call (.confirmBooking 2 10 start), .run 1 12,
      .call (.requestUploadUrl 2 ⟨.bookingEvidence, "image/jpeg", 13, none, some 10, none, none⟩
        "photo" 30), .run 2 6,
      .call (.clientUpload (getBookingEvidenceQuarantinePrefix 10 2 ++ "photo.jpg")
        (photo ++ List.replicate 10 0) "image/jpeg"), .run 3 1]

/-- The lender takes the handover for the return, so the act is refused. -/
def wrongStage : Submission := .act 2 10 ⟨.return, 30, none⟩ 40

/-- What the refused act leaves. -/
def refused (encode : Bytes → Bytes) : Store :=
  (((wrongStage.call (library encode)).prog hash).alone [] photographed.store).2

theorem failsAfter_refused (env : Env) (c : Submission) (i : Id) (key : String) (σ : Store)
    (hkey : ((c.verification hash env i).alone [] σ).1.toOption.map (·.objectKey) = some key)
    (hthrows : (((c.call env).prog hash).alone [] σ).1.toOption.isNone)
    (hobject : (((c.call env).prog hash).alone [] σ).2.2.storage.getObject .privateBucket key =
      ((c.verification hash env i).alone [] σ).2.2.storage.getObject .privateBucket key) :
    ∃ v, v.objectKey = key ∧
      c.FailsAfter hash env i v σ (((c.call env).prog hash).alone [] σ).2 := by
  have hsome : ((c.verification hash env i).alone [] σ).1.toOption.isSome := by
    cases h : ((c.verification hash env i).alone [] σ).1.toOption with
    | none =>
      rw [h] at hkey
      cases hkey
    | some v => rfl
  obtain ⟨v, hv⟩ := Prog.returns_of_isSome hsome
  rw [hv.toOption, Option.map_some, Option.some.injEq] at hkey
  subst hkey
  exact ⟨v, rfl, Prog.stops_of_throw hthrows, _, hv, hobject⟩

theorem later_refused {c : Submission} {i : Id} {key : String} {σ : Store}
    (hlive : (σ.1.uploads.intents.get i).all fun intent => decide (σ.2.now < intent.expiresAt))
    (hadmits : c.admits σ.1) : c.Later i key σ σ := by
  refine ⟨rfl, rfl, fun intent hrow => ?_, hadmits⟩
  rw [hrow] at hlive
  exact of_decide_eq_true hlive

theorem reencodes_library {encode : Bytes → Bytes}
    (h : ∀ bytes, (encode bytes).take 12 = bytes.take 12) : Reencodes (library encode).sharp := by
  intro contentType source out hout
  simp only [library] at hout ⊢
  split at hout
  · rename_i hmagic
    cases hout
    rw [h]
    exact ⟨hmagic, by simp [hmagic]⟩
  · cases hout

/-- A library that writes the file as it is. -/
theorem retry_passes_unchanged : ∃ v, wrongStage.FailsAfter hash (library id) 30 v
    photographed.store (refused id) ∧ ∃ v' σ₃,
      (wrongStage.verification hash (library id) 30).Returns [] (refused id) v' σ₃ := by
  obtain ⟨v, -, hfailed⟩ := failsAfter_refused (library id) wrongStage 30
    (getBookingEvidenceQuarantinePrefix 10 2 ++ "photo.jpg") photographed.store
    (by decide +kernel) (by decide +kernel) (by decide +kernel)
  have hkeeps : KeepsSize (library id) 30 photographed.store := by
    have hsize : (photographed.store.1.uploads.intents.get 30).all fun intent =>
        (photographed.store.2.storage.getObject .privateBucket intent.objectKey).all fun o =>
          decide ((o.bytes.length : Int) = intent.sizeBytes) := by decide +kernel
    generalize photographed.store = σ at hsize
    intro intent o out hrow ho hout
    rw [hrow, Option.all_some, ho, Option.all_some, decide_eq_true_eq] at hsize
    simp only [library] at hout
    split at hout
    · cases hout
      exact hsize
    · cases hout
  exact ⟨v, hfailed, ((retry_passes_iff (reencodes_library fun _ => rfl) hfailed
    (later_refused (by decide +kernel) (by decide +kernel))).mpr hkeeps).2⟩

/-- A library that drops the end of the file. -/
theorem retry_passes_shortened : Runs hash anyEvent state photographed ∧
    Reencodes (library (·.take 12)).sharp ∧ ∃ v, wrongStage.FailsAfter hash (library (·.take 12))
      30 v photographed.store (refused (·.take 12)) ∧
      wrongStage.Later 30 v.objectKey (refused (·.take 12)) (refused (·.take 12)) ∧
      ¬∃ v' σ₃, (wrongStage.verification hash (library (·.take 12)) 30).Returns []
        (refused (·.take 12)) v' σ₃ := by
  refine ⟨(runs anyEvent).play _, reencodes_library fun bytes => by simp [List.take_take], ?_⟩
  obtain ⟨v, -, hfailed⟩ := failsAfter_refused (library (·.take 12)) wrongStage 30
    (getBookingEvidenceQuarantinePrefix 10 2 ++ "photo.jpg") photographed.store
    (by decide +kernel) (by decide +kernel) (by decide +kernel)
  refine ⟨v, hfailed, later_refused (by decide +kernel) (by decide +kernel), ?_⟩
  have hnone : ((wrongStage.verification hash (library (·.take 12)) 30).alone []
      (refused (·.take 12))).1.toOption.isNone := by decide +kernel
  rintro ⟨v', σ₃, h⟩
  rw [h.toOption] at hnone
  cases hnone

end Scenario

end Sosedi
