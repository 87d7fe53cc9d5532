import Sosedi.Safety.Accounts
import Sosedi.Safety.Acts
import Sosedi.Safety.Bookings
import Sosedi.Safety.Cleanup
import Sosedi.Safety.Support
import Sosedi.Services.Calls
import Sosedi.Transactions.Schedules

/-!
# The system

Proved here:

* `safe_calls`: every call of the system keeps to the contract;
* `Initial.inv`: the invariant holds of a store with no deals and no uploads;
* `Runs.step`: in a run from such a store every move leaves the store alone or is a step of
  the contract.
-/

namespace Sosedi

open Transactions

variable {sha256 : Bytes → String} {ok : Event → Store → Prop} {s₀ s s' : State Sys}

theorem Safe.discard {α : Type} {p : Prog Sys α} (h : Safe (contract sha256 ok) p) :
    Safe (contract sha256 ok) (Prog.discard p) :=
  h.bind fun _ => Safe.ret ()

/-- **Every call keeps to the contract.** -/
theorem safe_calls (p : Prog Sys Unit) (h : Calls sha256 p) : Safe (contract sha256 ok) p := by
  obtain ⟨c, rfl⟩ := h
  cases c with
  | createBooking => exact Safe.discard (BookingService.safe_create _ _ _ _ _ _ _ _ _)
  | confirmBooking => exact Safe.discard (BookingService.safe_confirm _ _ _)
  | cancelPending => exact Safe.discard (BookingService.safe_cancelPending _ _ _ _ _ _)
  | expirePending => exact BookingExpiryService.safe_expirePending _
  | blockUser => exact UsersService.safe_blockUser _ _
  | unblockUser => exact UsersService.safe_unblockUser _ _
  | deleteMe => exact Safe.discard (UsersService.safe_deleteMe _)
  | finalizeEligibleAccountClosures => exact UsersService.safe_finalizeEligibleAccountClosures
  | adminBlockUser => exact Safe.discard (AdminService.safe_blockUser _ _ _)
  | approveItem => exact Safe.discard (AdminService.safe_approveItem _ _)
  | rejectItem => exact Safe.discard (AdminService.safe_rejectItem _ _ _)
  | decideReport => exact ReportsService.safe_decide _ _ _
  | updateItem => exact ItemsService.safe_updateOwn _ _ _ _
  | hideItem => exact ItemsService.safe_hideOwn _ _
  | createPeriod => exact Safe.discard (BookingAvailabilityService.safe_create _ _ _ _ _)
  | removePeriod => exact BookingAvailabilityService.safe_remove _ _ _
  | createAct => exact Safe.discard (BookingActService.safe_create _ _ _ _ _)
  | confirmAct => exact Safe.discard (BookingActService.safe_confirm _ _ _ _)
  | checkout => exact Safe.discard (DepositService.safe_checkout _ _ _ _ _ _ _ _)
  | completeAfterDepositSettled =>
    exact Safe.discard (safe_completeAfterDepositSettled _ _)
  | retryFailedOperation =>
    exact Safe.discard (safe_retryFailedOperation _ _ _ _ _ _ _ _)
  | processPending => exact DepositOperationProcessor.safe_processPending _ _ _
  | processOperation =>
    exact Safe.discard (DepositOperationProcessor.safe_processOne _ _ _ _ _)
  | processDue => exact safe_processDue _ _ _
  | openDispute => exact Safe.discard (safe_openDispute _ _ _ _)
  | resolveDispute => exact Safe.discard (safe_resolveDispute _ _ _ _ _ _ _ _ _)
  | addDisputeEvidence => exact Safe.discard (safe_addEvidence _ _ _ _ _ _)
  | requestUploadUrl => exact UploadService.safe_requestUploadUrl _ _ _ _
  | requestAdminUploadUrl => exact UploadService.safe_requestAdminUploadUrl _ _ _ _
  | clientUpload => exact safe_clientUpload _ _ _
  | confirmItemPhoto => exact UploadService.safe_confirmItemPhotoUpload _ _ _
  | confirmAvatar => exact UploadService.safe_confirmAvatarUpload _ _ _
  | processPhoto => exact PhotoProcessingWorker.safe_processItemPhotoUploaded _ _
  | createSupportMessage => exact SupportService.safe_createMessage _ _ _ _ _ _ _
  | assignToSelf => exact SupportService.safe_assignToSelf _ _
  | replyAsAdmin => exact SupportService.safe_replyAsAdmin _ _ _ _
  | closeAsAdmin => exact SupportService.safe_closeAsAdmin _ _
  | cleanupExpiredUploads => exact UploadCleanupService.safe_cleanupExpiredUploads _
  | tick => exact safe_tick _

theorem keeps_calls (p : Prog Sys Unit) (h : Calls sha256 p) : Keeps (contract sha256 ok) p :=
  (safe_calls p h).keeps

/-- No deals and no uploads yet; accounts, listings, blocks and reports are arbitrary. -/
structure Initial (σ : Store) : Prop where
  deals : σ.1.deals = .empty
  periods : σ.1.periods = .empty
  intents : σ.1.uploads.intents = .empty
  issued : σ.1.uploads.issued = .empty
  photos : σ.1.uploads.photos = .empty
  bookingEvidence : σ.1.uploads.bookingEvidence = .empty
  disputeEvidence : σ.1.uploads.disputeEvidence = .empty
  supportAttachments : σ.1.uploads.supportAttachments = .empty
  changes : ∀ i item, σ.1.items.get i = some item → item.changes = []
  provider : σ.2.provider = .empty
  objects : σ.2.storage.objects = .empty
  posts : σ.2.storage.posts = []
  hashed : σ.2.storage.hashed = []
  photoJobs : σ.2.photoJobs = []

theorem Initial.inv {σ : Store} (h : Initial σ) : Inv sha256 σ where
  pending := by simp [PendingUnpaid, h.deals]
  uploads := by
    constructor <;> simp [h.intents, h.issued, h.photos, h.bookingEvidence, h.disputeEvidence,
      h.supportAttachments, h.posts, h.hashed, h.photoJobs, ObjectStorage.getObject, h.objects]

/-- A run of the system from an initial store with no client in flight. -/
structure Runs (sha256 : Bytes → String) (ok : Event → Store → Prop) (s₀ s : State Sys) :
    Prop where
  threads : s₀.threads = []
  initial : Initial s₀.store
  reaches : Reaches (Calls sha256) ok s₀ s

namespace Runs

theorem refl (h : s₀.threads = []) (hi : Initial s₀.store) : Runs sha256 ok s₀ s₀ :=
  ⟨h, hi, .refl⟩

theorem sound (h : Runs sha256 ok s₀ s) : Sound (contract sha256 ok) s :=
  Transactions.sound (C := contract sha256 ok) keeps_calls preserved h.threads h.initial.inv
    h.reaches

theorem inv (h : Runs sha256 ok s₀ s) : Inv sha256 s.store := h.sound.inv

/-- A move leaves the store alone or is a step of the contract. -/
theorem step (h : Runs sha256 ok s₀ s) {m : Move Sys} (hm : s.Admits (Calls sha256) ok m)
    (hf : s.fire m = some s') : s'.store = s.store ∨
      ∃ ev K, ok ev s.store ∧ Guar sha256 ev K s.store s'.store := by
  rcases reaches_fire (C := contract sha256 ok) keeps_calls preserved h.threads h.initial.inv
    h.reaches hm hf with he | ⟨K, -, ev, hok, hg⟩
  · exact Or.inl he
  · exact Or.inr ⟨ev, K, hok, hg⟩

/-- The step of a move that changes the store is that of its event. -/
theorem event_step (h : Runs sha256 ok s₀ s) {m : Move Sys} (hm : s.Admits (Calls sha256) ok m)
    (hf : s.fire m = some s') : s'.store = s.store ∨
      ∃ i ev K, m = .run i ∧ s.event i = some ev ∧ ok ev s.store ∧
        Guar sha256 ev K s.store s'.store := by
  cases m with
  | start p =>
    cases hf
    exact Or.inl rfl
  | crash i =>
    cases hf
    exact Or.inl rfl
  | run i =>
    cases hev : s.event i with
    | none => exact Or.inl (State.store_of_event_none hev hf)
    | some ev =>
      obtain ⟨K, hg⟩ := h.sound.guar hev (hm ev hev) hf
      exact Or.inr ⟨i, ev, K, rfl, hev, hm ev hev, hg⟩

/-- **Invariants**: what the initial stores satisfy and the steps of the contract keep, next to
its own invariant, holds in every state that a run reaches. -/
theorem invariant {P : Store → Prop} (h : Runs sha256 ok s₀ s)
    (hinit : ∀ σ, Initial σ → P σ)
    (hstep : ∀ ev K a b, Inv sha256 a → ok ev a → Guar sha256 ev K a b → P a → P b) :
    P s.store := by
  obtain ⟨hthreads, hi, hr⟩ := h
  induction hr with
  | refl => exact hinit _ hi
  | step m hr hm hf ih =>
    have hrun : Runs sha256 ok s₀ _ := ⟨hthreads, hi, hr⟩
    rcases hrun.step hm hf with he | ⟨ev, K, hok, hg⟩
    · rw [he]
      exact ih
    · exact hstep ev K _ _ hrun.inv hok hg ih

/-- A run goes on. -/
theorem trans (h : Runs sha256 ok s₀ s) (hr : Reaches (Calls sha256) ok s s') :
    Runs sha256 ok s₀ s' := ⟨h.threads, h.initial, h.reaches.trans hr⟩

/-- **What every move of a deal keeps** holds of a deal and what becomes of it. -/
theorem later {R : Deal → Deal → Prop} (h : Runs sha256 ok s₀ s)
    (hr : Reaches (Calls sha256) ok s s') (hrefl : ∀ d, R d d)
    (htrans : ∀ d d' d'', R d d' → R d' d'' → R d d'')
    (hmove : ∀ k (m : DealMove) d w, m.guard k d w → R d (m.apply k d)) {k : Id} {d : Deal}
    (hd : s.db.deals.get k = some d) : ∃ d', s'.db.deals.get k = some d' ∧ R d d' := by
  induction hr with
  | refl => exact ⟨d, hd, hrefl d⟩
  | step m hr hm hf ih =>
    obtain ⟨d', hd', hR⟩ := ih
    rcases (h.trans hr).step hm hf with he | ⟨ev, K, -, hg⟩
    · exact ⟨d', (congrArg (·.1.deals.get k) he).trans hd', hR⟩
    · obtain ⟨hb, hguard, -⟩ := hg.get_of_get hd'
      exact ⟨_, hb, htrans _ _ _ hR (hmove k _ d' _ hguard)⟩

end Runs

end Sosedi
