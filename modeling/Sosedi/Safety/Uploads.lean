import Sosedi.Accounts.Facts
import Sosedi.Deals.Local
import Sosedi.Uploads.Facts

/-!
# Upload calls keep to the contract

Proved here: issuing presigned POSTs and client uploads are safe, and what the verification of
an uploaded object knows when it returns (`wp_verifyIntent`).
-/

namespace Sosedi

open Transactions

variable {sha256 : Bytes → String} {ok : Event → Store → Prop} {α β : Type}

/-! ## Programs that only read -/

/-- A program that takes no lock, writes nothing and calls nothing but reads. -/
structure Quiet (sha256 : Bytes → String) (ok : Event → Store → Prop) (p : Prog Sys α) : Prop where
  wp : ∀ {L ω σ} {Q : α → List LockKey → List (Database → Database) → Store → Prop},
    (∀ a σ', (contract sha256 ok).Interference L σ σ' → Q a L ω σ') →
      wp (contract sha256 ok) p Q L ω σ

namespace Quiet

theorem ret (a : α) : Quiet sha256 ok (.ret a) := ⟨fun hQ => hQ a _ interference_refl⟩

theorem lift (x : Except Error α) : Quiet sha256 ok (Transactions.lift x) := by
  refine ⟨fun hQ => ?_⟩
  rw [wp_lift]
  exact fun a _ => hQ a _ interference_refl

theorem select (f : Database → α) : Quiet sha256 ok (Transactions.select f) :=
  ⟨fun hQ σ' hi _ => hQ _ σ' hi⟩

theorem read (f : ObjectStorage → α) : Quiet sha256 ok (S3StorageService.read f) :=
  ⟨fun hQ => wp_call_noop fun σ' hi _ => hQ _ σ' hi⟩

theorem clock : Quiet sha256 ok clock := ⟨fun hQ => wp_call_noop fun σ' hi _ => hQ _ σ' hi⟩

theorem bind {p : Prog Sys α} {f : α → Prog Sys β} (hp : Quiet sha256 ok p)
    (hf : ∀ a, Quiet sha256 ok (f a)) : Quiet sha256 ok (p.bind f) := by
  refine ⟨fun hQ => ?_⟩
  rw [wp_bind]
  exact hp.wp fun a σ' hi => (hf a).wp fun b σ'' hi' => hQ b σ'' (interference_trans hi hi')

theorem safe {p : Prog Sys α} (hp : Quiet sha256 ok p) : Safe (contract sha256 ok) p :=
  fun _ => hp.wp fun _ _ _ => ⟨rfl, rfl⟩

end Quiet

namespace S3StorageService

theorem quiet_inspectUploadedObject (key : String) :
    Quiet sha256 ok (inspectUploadedObject key) := by
  unfold inspectUploadedObject
  refine (Quiet.read _).bind fun metadata => ?_
  cases metadata with
  | none => exact Quiet.ret _
  | some metadata =>
    dsimp only
    split
    · exact Quiet.ret _
    · exact (Quiet.read _).bind fun _ => Quiet.ret _

theorem quiet_getObjectBuffer (key : String) : Quiet sha256 ok (getObjectBuffer key) := by
  unfold getObjectBuffer
  exact (Quiet.read _).bind fun _ => (Quiet.lift _).bind fun _ => Quiet.ret _

end S3StorageService

namespace UploadService

theorem quiet_ensureUploadedObject (intent : UploadIntent) :
    Quiet sha256 ok (ensureUploadedObject intent) :=
  (S3StorageService.quiet_inspectUploadedObject _).bind fun _ => (Quiet.lift _).bind fun _ =>
    (Quiet.lift _).bind fun _ => Quiet.lift _

theorem quiet_ensureBookingParticipant (userId bookingId : Id) :
    Quiet sha256 ok (ensureBookingParticipant userId bookingId) :=
  (Quiet.select _).bind fun _ => (Quiet.lift _).bind fun _ => Quiet.ret _

theorem quiet_ensureDisputeParticipant (userId disputeId : Id) :
    Quiet sha256 ok (ensureDisputeParticipant userId disputeId) :=
  (Quiet.select _).bind fun _ => (Quiet.lift _).bind fun _ => Quiet.ret _

theorem quiet_ensureSupportTicketAccess (actorId ticketId : Id) (allowAdmin : Bool) :
    Quiet sha256 ok (ensureSupportTicketAccess actorId ticketId allowAdmin) :=
  (Quiet.select _).bind fun _ => (Quiet.lift _).bind fun _ => Quiet.ret _

theorem quiet_ensureOwnedItem (userId itemId : Id) :
    Quiet sha256 ok (ensureOwnedItem userId itemId) :=
  (Quiet.select _).bind fun _ => (Quiet.lift _).bind fun _ => Quiet.ret _

theorem quiet_ensureNoUnfinishedBookings (itemId : Id) :
    Quiet sha256 ok (ensureNoUnfinishedBookings itemId) :=
  (Quiet.select _).bind fun _ => (Quiet.lift _).bind fun _ => Quiet.ret _

theorem wp_ensureNoUnfinishedBookings {itemId : Id} {L : List LockKey} {σ : Store}
    {Q : List Id → List LockKey → List (Database → Database) → Store → Prop}
    (hQ : ∀ seen σ', (contract sha256 ok).Interference L σ σ' →
      Settled seen (·.itemId == itemId) σ'.1 → Q seen L [] σ') :
    wp (contract sha256 ok) (ensureNoUnfinishedBookings itemId) Q L [] σ := by
  simp only [ensureNoUnfinishedBookings, Prog.bind_eq, wp_bind, wp_select, wp_lift, view_nil,
    ensure_eq_ok, Bool.not_eq_true', Prog.pure_eq, wp_ret]
  exact fun σ' hi _ _ hnone => hQ _ σ' hi (settled_bookingIds hnone)

end UploadService

/-! ## Upload steps -/

theorem guar_upload {u : UploadEvent} {K : List LockKey} {a b : Store}
    (hd : b.1.deals = a.1.deals) (hp : b.1.periods = a.1.periods)
    (h : UploadStep sha256 (.upload u) K a b) (ha : AccountStep (.upload u) K a b) :
    Guar sha256 (.upload u) K a b :=
  ⟨movesDeals_idle (fun _ => rfl) hd, hp, trivial, h, ha⟩

/-- A call to the object storage or the queue. -/
theorem wp_callUpload {u : UploadEvent} {f : World → World} {out : World → α} {L : List LockKey}
    {ω : List (Database → Database)} {σ : Store}
    {Q : α → List LockKey → List (Database → Database) → Store → Prop}
    (hf : ∀ w, f w = Event.applyWorld sha256 (.upload u) w)
    (hu : ∀ t, Event.applyUploads (.upload u) t = t) (hkeys : Event.uploadKeys (.upload u) = [])
    (hg : ∀ σ', (contract sha256 ok).Interference L σ σ' → Inv sha256 σ' → u.Guard σ' sha256)
    (hQ : ∀ σ' b, (contract sha256 ok).Interference L σ σ' → b = (σ'.1, f σ'.2) →
      (contract sha256 ok).Step L σ' b → Q (out σ'.2) L ω b) :
    wp (contract sha256 ok) (call (.upload u) f out) Q L ω σ := by
  intro σ' hi hv hok
  have hleaves : Event.LeavesAccounts (.upload u) := by
    cases u with
    | confirmPhoto | confirmAvatar => simp [Event.uploadKeys, Event.consumed, Event.rowKeys] at hkeys
    | _ => trivial
  have hstep : Guar sha256 (.upload u) L σ' (σ'.1, f σ'.2) :=
    guar_upload rfl rfl ⟨(hu _).symm, hf _, hg σ' hi hv, by simp [hkeys]⟩
      (.of_same hleaves (.refl _))
  exact ⟨hstep, hQ σ' _ hi rfl ⟨hv, _, hok, hstep⟩⟩

theorem safe_clientUpload (key : String) (bytes : Bytes) (contentType : String) :
    Safe (contract sha256 ok) (S3StorageService.clientUpload key bytes contentType) := by
  intro σ
  refine wp_callUpload (fun w => ?_) (fun _ => rfl) rfl (fun _ _ _ => trivial)
    fun _ _ _ _ _ => ⟨rfl, rfl⟩
  simp only [Event.applyWorld, Event.applyStorage]
  split <;> rfl

theorem safe_tick (ms : Nat) : Safe (contract sha256 ok) (tick ms) :=
  fun _ => wp_callUpload (fun _ => rfl) (fun _ => rfl) rfl (fun _ _ _ => trivial)
    fun _ _ _ _ _ => ⟨rfl, rfl⟩

/-! ## Issuing -/

namespace UploadService

theorem safe_createPresignedUpload (userId : Id) (dto : RequestUploadUrlDto) (entityId : Id)
    (keyPrefix uuid : String) (newId : Id) :
    Safe (contract sha256 ok)
      (createPresignedUpload userId dto entityId keyPrefix uuid newId) := by
  intro σ
  simp only [createPresignedUpload, Prog.bind_eq, wp_bind, wp_lift]
  intro extension _
  generalize hkey : keyPrefix ++ uuid ++ "." ++ extension = key
  refine wp_call_noop fun σ₁ _ _ => ?_
  rw [wp_insertUnique]
  intro σ₂ hi₂ _ htaken σ₃ hi₃ hv₃ hok
  simp only [view_nil, Bool.or_eq_false_iff, Option.isSome_eq_false_iff,
    Option.isNone_iff_eq_none] at htaken
  generalize hintent : (UploadIntent.mk userId dto.purpose entityId key dto.contentType
    dto.sizeBytes (σ₁.2.now + presignedUploadExpiresSeconds * 1000) none) = intent at *
  have hstep : Guar sha256 (.upload (.issue newId intent)) ([.intentRow newId, .intentKey key] ++ [])
      σ₃ ({ σ₃.1 with uploads := { σ₃.1.uploads with
        intents := σ₃.1.uploads.intents.insert newId intent
        issued := σ₃.1.uploads.issued.insert newId intent } }, σ₃.2) := by
    refine guar_upload rfl rfl ⟨rfl, rfl, ⟨?_, ?_, ?_, ?_⟩, ?_⟩
      (.of_same trivial ⟨rfl, rfl, rfl⟩)
    · exact interference_keeps (fun _ _ => Other.notIssued (by simp)) hi₃ htaken.1
    · have hfresh : ∀ j r, σ₂.1.uploads.issued.get j = some r → r.objectKey ≠ key := by
        intro j r hr
        simpa using Table.any_eq_false.mp htaken.2 j r hr
      rw [← hintent]
      exact interference_keeps (fun _ _ => Other.freshKey (by simp)) hi₃ hfresh
    · rw [← hintent]
    · rw [← hintent]
      refine Int.add_le_add_right ?_ _
      exact (persists_now _).interference (interference_trans hi₂
        (interference_mono (by simp) hi₃)) (le_refl σ₁.2.now)
    · rw [← hintent]
      simp [Event.uploadKeys]
  have hnew : (σ₃.1.uploads.issued.insert newId intent).get newId = some intent :=
    Table.get_insert_self _ hstep.uploads.guard.1
  have hposted : UploadTables.IssuedKey ({ σ₃.1.uploads with
      intents := σ₃.1.uploads.intents.insert newId intent
      issued := σ₃.1.uploads.issued.insert newId intent }) key dto.purpose :=
    ⟨newId, intent, hnew, by rw [← hintent], by rw [← hintent]⟩
  refine ⟨hstep, ?_⟩
  refine wp_call_noop fun σ₄ hi₄ _ => ?_
  refine wp_callUpload (fun _ => rfl) (fun _ => rfl) rfl (fun σ₅ hi₅ _ => ⟨dto.purpose, ?_⟩)
    fun _ _ _ _ _ => ⟨rfl, rfl⟩
  exact (persists_issuedKey key dto.purpose).interference (interference_trans hi₄ hi₅) hposted

theorem safe_createItemPhotoUploadUrl (userId : Id) (dto : RequestUploadUrlDto) (uuid : String)
    (newId : Id) : Safe (contract sha256 ok) (createItemPhotoUploadUrl userId dto uuid newId) :=
  (Safe.lift _).bind fun _ => (quiet_ensureOwnedItem _ _).safe.bind fun _ =>
    (quiet_ensureNoUnfinishedBookings _).safe.bind fun _ => safe_createPresignedUpload _ _ _ _ _ _

theorem safe_createAvatarUploadUrl (userId : Id) (dto : RequestUploadUrlDto) (uuid : String)
    (newId : Id) : Safe (contract sha256 ok) (createAvatarUploadUrl userId dto uuid newId) :=
  (Safe.lift _).bind fun _ => safe_createPresignedUpload _ _ _ _ _ _

theorem safe_createBookingEvidenceUploadUrl (userId : Id) (dto : RequestUploadUrlDto)
    (uuid : String) (newId : Id) :
    Safe (contract sha256 ok) (createBookingEvidenceUploadUrl userId dto uuid newId) :=
  (Safe.lift _).bind fun _ => (quiet_ensureBookingParticipant _ _).safe.bind fun _ =>
    safe_createPresignedUpload _ _ _ _ _ _

theorem safe_createDisputeEvidenceUploadUrl (userId : Id) (dto : RequestUploadUrlDto)
    (uuid : String) (newId : Id) :
    Safe (contract sha256 ok) (createDisputeEvidenceUploadUrl userId dto uuid newId) :=
  (Safe.lift _).bind fun _ => (quiet_ensureDisputeParticipant _ _).safe.bind fun _ =>
    safe_createPresignedUpload _ _ _ _ _ _

theorem safe_createSupportAttachmentUploadUrl (actorId : Id) (dto : RequestUploadUrlDto)
    (allowAdmin : Bool) (uuid : String) (newId : Id) :
    Safe (contract sha256 ok)
      (createSupportAttachmentUploadUrl actorId dto allowAdmin uuid newId) :=
  (Safe.lift _).bind fun _ => (quiet_ensureSupportTicketAccess _ _ _).safe.bind fun _ =>
    safe_createPresignedUpload _ _ _ _ _ _

theorem safe_requestUploadUrl (userId : Id) (dto : RequestUploadUrlDto) (uuid : String)
    (newId : Id) : Safe (contract sha256 ok) (requestUploadUrl userId dto uuid newId) := by
  unfold requestUploadUrl
  refine (Safe.lift _).bind fun _ => (Safe.lift _).bind fun _ => ?_
  split
  · exact safe_createAvatarUploadUrl _ _ _ _
  · exact safe_createBookingEvidenceUploadUrl _ _ _ _
  · exact safe_createDisputeEvidenceUploadUrl _ _ _ _
  · exact safe_createSupportAttachmentUploadUrl _ _ _ _ _
  · exact safe_createItemPhotoUploadUrl _ _ _ _
  · exact safe_createItemPhotoUploadUrl _ _ _ _

theorem safe_requestAdminUploadUrl (adminId : Id) (dto : RequestUploadUrlDto) (uuid : String)
    (newId : Id) : Safe (contract sha256 ok)
      (requestAdminSupportAttachmentUploadUrl adminId dto uuid newId) :=
  (Safe.lift _).bind fun _ => (Safe.lift _).bind fun _ =>
    safe_createSupportAttachmentUploadUrl _ _ _ _ _

/-! ## Verification -/

/-- What a verification knows of the intent and of the bytes that it wrote. -/
structure Verified (sha256 : Bytes → String) (purpose : UploadPurpose)
    (actorId entityId intentId : Id) (v : VerifiedEvidence) (σ : Store) : Prop where
  intentId : v.intentId = intentId
  issued : ∃ r, Issued v.intentId r σ ∧ r.purpose = purpose ∧ r.objectKey = v.objectKey ∧
    r.actorId = actorId ∧ r.entityId = entityId
  hash : v.sha256 = sha256 v.written
  hashed : Hashed v.objectKey v.written σ

theorem persists_verified (purpose : UploadPurpose) (actorId entityId intentId : Id)
    (v : VerifiedEvidence) :
    Persists (contract sha256 ok) (Verified sha256 purpose actorId entityId intentId v) := by
  rintro K a b hs ⟨hid, ⟨r, hr, hp⟩, hhash, hhashed⟩
  exact ⟨hid, ⟨r, persists_issued _ r K a b hs hr, hp⟩, hhash,
    persists_hashed _ _ K a b hs hhashed⟩

/-- The row of an open intent is the one that was issued. -/
theorem issued_of_open {i : Id} {row : UploadIntent} {σ : Store} (hv : Inv sha256 σ)
    (hrow : σ.1.uploads.intents.get i = some row) (hopen : row.confirmedAt = none) :
    Issued i row σ := by
  have h := hv.uploads.issued i row hrow
  rwa [show ({ row with confirmedAt := none } : UploadIntent) = row by rw [← hopen]] at h

theorem wp_verifyIntent {env : Env} {purpose : UploadPurpose}
    {binding : UploadIntent → Except Error Unit} {access : Prog Sys Unit}
    {actorId entityId intentId : Id} {L : List LockKey} {σ : Store}
    {Q : VerifiedEvidence → List LockKey → List (Database → Database) → Store → Prop}
    (haccess : Quiet sha256 ok access) (hpurpose : purpose.hashed)
    (hQ : ∀ v σ', Verified sha256 purpose actorId entityId intentId v σ' → Q v L [] σ') :
    wp (contract sha256 ok)
      (verifyIntent sha256 env purpose binding access actorId entityId intentId) Q L [] σ := by
  simp only [verifyIntent, Prog.bind_eq, wp_bind]
  refine wp_call_noop fun σ₁ _ _ => ?_
  simp only [wp_select, wp_lift, required_eq_ok, view_nil, Option.filter_eq_some_iff]
  rintro σ₂ _ hv₂ intent ⟨hrow, hconds⟩ _ _
  simp only [Bool.and_eq_true, beq_iff_eq, Option.isNone_iff_eq_none] at hconds
  obtain ⟨⟨⟨⟨hactor, hentity⟩, hp⟩, hopen⟩, -⟩ := hconds
  have hissued : Issued intentId intent σ₂ := issued_of_open hv₂ hrow hopen
  refine haccess.wp fun _ σ₃ hi₃ => ?_
  refine (quiet_ensureUploadedObject intent).wp fun _ σ₄ hi₄ => ?_
  refine (S3StorageService.quiet_getObjectBuffer _).wp fun bytes σ₅ hi₅ => ?_
  simp only [sanitizePrivateImage, Prog.bind_eq, wp_bind, wp_lift]
  intro sanitized _
  have hlater : ∀ {σ'}, (contract sha256 ok).Interference L σ₅ σ' →
      Issued intentId intent σ' := fun hi =>
    (persists_issued _ _).interference
      (interference_trans hi₃ (interference_trans hi₄ (interference_trans hi₅ hi))) hissued
  refine wp_callUpload (fun _ => rfl) (fun _ => rfl) rfl (fun σ₆ hi₆ _ => ?_) ?_
  · exact ⟨⟨intentId, intent, hlater hi₆, rfl, rfl⟩, hp ▸ hpurpose⟩
  · rintro σ₆ b hi₆ rfl hs
    refine hQ _ _ ⟨rfl, ⟨intent, ?_, hp, rfl, hactor, hentity⟩, rfl,
      List.mem_cons_self ..⟩
    exact persists_issued _ _ _ _ _ hs (hlater hi₆)

end UploadService

end Sosedi
