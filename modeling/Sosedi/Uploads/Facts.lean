import Sosedi.Deals.Contract
import Sosedi.Uploads.Invariant

/-!
# Facts about uploads that last

Proved here: what every step keeps (an issued intent, a hashed write, a confirmation, the
clock), and what others leave alone while a client holds the row of an intent.
-/

namespace Sosedi

open Transactions

variable {sha256 : Bytes → String} {ok : Event → Store → Prop} {K L : List LockKey}
  {a b σ : Store} {i : Id} {r row : UploadIntent} {key : String} {bytes : Bytes}
  {purpose : UploadPurpose}

/-- The uploads of a step of anybody. -/
theorem Contract.Step.uploads (h : (contract sha256 ok).Step K a b) :
    ∃ ev, UploadInv sha256 a ∧ UploadStep sha256 ev K a b := by
  obtain ⟨hv, ev, -, hg⟩ := h
  exact ⟨ev, hv.uploads, hg.uploads⟩

/-! ## What every step keeps -/

/-- The intent `i` was inserted as `r`. -/
def Issued (i : Id) (r : UploadIntent) (σ : Store) : Prop := σ.1.uploads.issued.get i = some r

/-- A verification wrote `bytes` under `key` and hashed them. -/
def Hashed (key : String) (bytes : Bytes) (σ : Store) : Prop := (key, bytes) ∈ σ.2.storage.hashed

/-- The intent `i` was confirmed at `c`; its row may be gone. -/
def ConfirmedAs (i : Id) (c : Time) (σ : Store) : Prop :=
  (∃ r, Issued i r σ) ∧ ∀ row, σ.1.uploads.intents.get i = some row → row.confirmedAt = some c

/-- The row of the intent `i` is gone. -/
def Gone (i : Id) (σ : Store) : Prop :=
  (∃ r, Issued i r σ) ∧ σ.1.uploads.intents.get i = none

theorem persists_issued (i : Id) (r : UploadIntent) :
    Persists (contract sha256 ok) (Issued i r) := by
  intro K a b hs h
  obtain ⟨ev, -, hu⟩ := Contract.Step.uploads hs
  rw [Issued, hu.uploads]
  exact Event.get_issued_of_get h

theorem persists_issuedKey (key : String) (purpose : UploadPurpose) :
    Persists (contract sha256 ok) fun σ => σ.1.uploads.IssuedKey key purpose := by
  intro K a b hs h
  obtain ⟨ev, -, hu⟩ := Contract.Step.uploads hs
  exact hu.issuedKey h

theorem persists_hashed (key : String) (bytes : Bytes) :
    Persists (contract sha256 ok) (Hashed key bytes) := by
  intro K a b hs h
  obtain ⟨ev, -, hu⟩ := Contract.Step.uploads hs
  rw [Hashed, hu.world]
  exact Event.mem_hashed_applyWorld h

/-- An object of the public bucket is stored under the key. -/
def Published (key : String) (σ : Store) : Prop :=
  (σ.2.storage.getObject .publicBucket key).isSome

theorem published_putPublic (storage : ObjectStorage) (object : StoredObject) (db : Database)
    (w : World) : Published key (db, { w with
      storage := storage.putObject .publicBucket key object }) := by
  simp [Published, ObjectStorage.getObject_putObject]

theorem persists_published (key : String) : Persists (contract sha256 ok) (Published key) := by
  intro K a b hs h
  obtain ⟨ev, -, hu⟩ := Contract.Step.uploads hs
  rw [Published, hu.world]
  exact Event.isSome_public_applyWorld h

theorem persists_now (t : Time) : Persists (contract sha256 ok) fun σ => t ≤ σ.2.now := by
  intro K a b hs h
  obtain ⟨ev, -, hu⟩ := Contract.Step.uploads hs
  show t ≤ b.2.now
  rw [hu.world]
  exact Int.le_trans h (Event.now_applyWorld ev a.2)

/-- An intent that was issued is never issued again. -/
theorem not_issue {ev : Event} {r' : UploadIntent} (hu : UploadStep sha256 ev K a b)
    (h : Issued i r a) : ev ≠ .upload (.issue i r') := by
  rintro rfl
  obtain ⟨hnone, -⟩ := hu.guard
  rw [Issued, hnone] at h
  cases h

theorem persists_confirmedAs (i : Id) (c : Time) :
    Persists (contract sha256 ok) (ConfirmedAs i c) := by
  rintro K a b hs ⟨⟨r, hr⟩, hrows⟩
  obtain ⟨ev, -, hu⟩ := Contract.Step.uploads hs
  refine ⟨⟨r, persists_issued i r K a b hs hr⟩, fun row hrow => ?_⟩
  rw [hu.uploads] at hrow
  rcases Event.get_intents_inv hrow with hev | ⟨row₀, hrow₀, ⟨-, rfl⟩ | ⟨hi, rfl⟩⟩
  · exact absurd hev (not_issue hu hr)
  · exact hrows row hrow₀
  · obtain ⟨row₁, hrow₁, hnone, -⟩ := Event.consumed_open hu.guard hi
    rw [hrows row₁ hrow₁] at hnone
    cases hnone

theorem persists_gone (i : Id) : Persists (contract sha256 ok) (Gone i) := by
  rintro K a b hs ⟨⟨r, hr⟩, hnone⟩
  obtain ⟨ev, -, hu⟩ := Contract.Step.uploads hs
  refine ⟨⟨r, persists_issued i r K a b hs hr⟩, ?_⟩
  rw [hu.uploads]
  cases hrow : (ev.applyUploads a.1.uploads).intents.get i with
  | none => rfl
  | some row =>
    rcases Event.get_intents_inv hrow with hev | ⟨row₀, hrow₀, -⟩
    · exact absurd hev (not_issue hu hr)
    · rw [hnone] at hrow₀
      cases hrow₀

/-- Every photo of the intent `i` is at least as published as `photo` was. -/
def PhotosAs (i : Id) (photo : Option ItemPhoto) (σ : Store) : Prop :=
  ∀ k p, σ.1.uploads.photos.get k = some p → p.uploadIntentId = i →
    ∃ p₀, photo = some p₀ ∧ (p₀.originalUrl.isSome → p.originalUrl.isSome)

/-- A confirmed intent gets no further photo. -/
theorem persists_photosAs (i : Id) (c : Time) (photo : Option ItemPhoto) :
    Persists (contract sha256 ok) fun σ => ConfirmedAs i c σ ∧ PhotosAs i photo σ := by
  rintro K a b hs ⟨hc, hphotos⟩
  refine ⟨persists_confirmedAs i c K a b hs hc, fun k p hp hi => ?_⟩
  obtain ⟨ev, -, hu⟩ := Contract.Step.uploads hs
  rw [hu.uploads] at hp
  rcases Event.get_photos_inv hp with ⟨intentId, c', u, seen, n, m, rfl⟩ | ⟨q, hq, hid, hsome, -⟩
  · obtain ⟨⟨row, hrow, hnone, -⟩, hpid, -⟩ := hu.guard
    obtain rfl : i = intentId := hi.symm.trans hpid
    rw [hc.2 row hrow] at hnone
    cases hnone
  · obtain ⟨p₀, hp₀, himp⟩ := hphotos k q hq (hid.symm.trans hi)
    exact ⟨p₀, hp₀, fun h => hsome (himp h)⟩

/-! ## Under the row of an intent -/

namespace Other

/-- The uploads of a step of another client. -/
theorem uploads (h : (contract sha256 ok).Other L a b) :
    ∃ ev K, (∀ key ∈ Event.uploadKeys ev, key ∉ L) ∧ UploadStep sha256 ev K a b := by
  obtain ⟨K, hK, hs⟩ := h
  obtain ⟨ev, -, hu⟩ := Contract.Step.uploads hs
  exact ⟨ev, K, fun key hkey => hK key (hu.keys key hkey), hu⟩

/-- Confirming an intent takes its row. -/
private theorem not_consumed {ev : Event} (hL : .intentRow i ∈ L)
    (hkeys : ∀ key ∈ ev.uploadKeys, key ∉ L) : i ∉ ev.consumed := by
  intro hi
  refine hkeys (.intentRow i) ?_ hL
  cases ev with
  | upload u =>
    cases u with
    | issue | dropIntent => simp [Event.consumed] at hi
    | _ => exact List.mem_append_left _ (List.mem_map_of_mem hi)
  | _ => exact List.mem_append_left _ (List.mem_map_of_mem hi)

/-- Nobody touches the row of an intent that is locked. -/
theorem intent (hL : .intentRow i ∈ L) (h : (contract sha256 ok).Other L a b)
    (hrow : a.1.uploads.intents.get i = some row) : b.1.uploads.intents.get i = some row := by
  obtain ⟨ev, K, hkeys, hu⟩ := uploads h
  rw [hu.uploads]
  refine Event.get_intents_of_get hrow (not_consumed hL hkeys) ?_
  rintro rfl
  exact hkeys (.intentRow i) (by simp [Event.uploadKeys]) hL

/-- Nobody issues an intent whose row is locked. -/
theorem notIssued (hL : .intentRow i ∈ L) (h : (contract sha256 ok).Other L a b)
    (hnone : a.1.uploads.issued.get i = none) : b.1.uploads.issued.get i = none := by
  obtain ⟨ev, K, hkeys, hu⟩ := uploads h
  rw [hu.uploads]
  cases hr : (ev.applyUploads a.1.uploads).issued.get i with
  | none => rfl
  | some r =>
    rcases Event.get_issued_inv hr with rfl | hr
    · exact absurd hL (hkeys _ (by simp [Event.uploadKeys]))
    · rw [hnone] at hr
      cases hr

/-- Nobody issues an intent for a key that is locked. -/
theorem freshKey (hL : .intentKey key ∈ L) (h : (contract sha256 ok).Other L a b)
    (hfresh : ∀ j r, a.1.uploads.issued.get j = some r → r.objectKey ≠ key) :
    ∀ j r, b.1.uploads.issued.get j = some r → r.objectKey ≠ key := by
  obtain ⟨ev, K, hkeys, hu⟩ := uploads h
  intro j r hr
  rw [hu.uploads] at hr
  rcases Event.get_issued_inv hr with rfl | hr
  · rintro rfl
    exact hkeys _ (by simp [Event.uploadKeys]) hL
  · exact hfresh j r hr

/-- Nobody writes a ticket whose row is locked. -/
theorem ticket (hL : .ticketRow i ∈ L) (h : (contract sha256 ok).Other L a b) :
    b.1.uploads.tickets.get i = a.1.uploads.tickets.get i := by
  obtain ⟨ev, K, hkeys, hu⟩ := uploads h
  rw [hu.uploads]
  refine Event.get_tickets_of_not_mem fun hmem => hkeys _ ?_ hL
  cases ev with
  | upload u =>
    cases u with
    | issue | dropIntent => simp [Event.rowKeys] at hmem
    | _ => exact List.mem_append_right _ hmem
  | _ => exact List.mem_append_right _ hmem

/-- Nobody inserts a row of booking evidence whose id is locked. -/
theorem newEvidence (hL : .evidenceRow i ∈ L) (h : (contract sha256 ok).Other L a b)
    (hnone : a.1.uploads.bookingEvidence.get i = none) :
    b.1.uploads.bookingEvidence.get i = none := by
  obtain ⟨ev, K, hkeys, hu⟩ := uploads h
  rw [hu.uploads]
  cases he : (ev.applyUploads a.1.uploads).bookingEvidence.get i with
  | none => rfl
  | some e =>
    rcases Event.get_bookingEvidence_inv he with he | ⟨id, stage, act, written, c, rfl⟩
    · rw [hnone] at he
      cases he
    · exact absurd hL (hkeys _ (by simp [Event.uploadKeys, Event.rowKeys]))

/-- Nobody refers to an intent whose row is locked. -/
theorem unreferenced (hL : .intentRow i ∈ L) (h : (contract sha256 ok).Other L a b)
    (hno : ¬a.1.uploads.Referenced i) : ¬b.1.uploads.Referenced i := by
  obtain ⟨ev, K, hkeys, hu⟩ := uploads h
  have hconsumed := not_consumed hL hkeys
  rw [hu.uploads]
  rintro (⟨k, e, he, rfl⟩ | ⟨k, e, he, rfl⟩ | ⟨k, e, he, rfl⟩)
  · rcases Event.get_bookingEvidence_inv he with he | ⟨id, stage, act, w, c, rfl⟩
    · exact hno (Or.inl ⟨k, e, he, rfl⟩)
    · exact hconsumed (by simp [Event.consumed])
  · rcases Event.get_disputeEvidence_inv he with he | ⟨w, c, rfl⟩
    · exact hno (Or.inr (Or.inl ⟨k, e, he, rfl⟩))
    · exact hconsumed (by simp [Event.consumed])
  · rcases Event.get_supportAttachments_inv he with he | ⟨id, message, rows, c, rfl, hmem⟩
    · exact hno (Or.inr (Or.inr ⟨k, e, he, rfl⟩))
    · exact hconsumed (List.mem_map.mpr ⟨_, hmem, rfl⟩)

end Other

end Sosedi
