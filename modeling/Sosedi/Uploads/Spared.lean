import Sosedi.Uploads.PhotoLimits

/-!
# What the clean-up deletes

The clean-up deletes the objects of the intents that it loaded, and the listed objects that no
loaded intent names.  It loads the intents of three purposes only.

Proved here: a deletion takes no live object, unless it takes the object of a confirmed intent of
another purpose for an orphan, or its intent was confirmed after the clean-up had loaded it
(`cleanup_spares_live`); the photo of a handover is deleted a day after it was taken
(`Scenario.cleanup_spares_live_evidence`).
-/

namespace Sosedi

open Transactions UploadCleanupService

variable {sha256 : Bytes → String} {s₀ s : State Sys} {ev : Event} {key : String} {now : Time}
  {σ : Store} {i k : Id} {row : UploadIntent}

/-- The key that the clean-up deletes, and its clock. -/
def Event.cleans : Event → Option (String × Time)
  | .upload (.cleanIntent _ intent _ now) => some (intent.objectKey, now)
  | .upload (.cleanOrphan key now) => some (key, now)
  | _ => none

/-- The intent of the photo is confirmed, and the photo waits for its processing within the
retention period. -/
def Awaits (now : Time) (key : String) (σ : Store) : Prop :=
  ∃ k p row c, σ.1.uploads.photos.get k = some p ∧ p.originalUrl = none ∧
    σ.1.uploads.intents.get p.uploadIntentId = some row ∧ row.objectKey = key ∧
    row.confirmedAt = some c ∧ now - rejectedUploadRetentionMs < c

/-- What the clean-up must not delete: the object of a row of evidence or an attachment, of a
photo that waits, or of an intent that has not expired. -/
def Live (now : Time) (key : String) (σ : Store) : Prop :=
  (∃ k e, (σ.1.uploads.bookingEvidence.get k = some e ∨
      σ.1.uploads.supportAttachments.get k = some e ∨
      σ.1.uploads.disputeEvidence.get k = some e) ∧ e.storageKey = key) ∨
    Awaits now key σ ∨
    ∃ i row, σ.1.uploads.intents.get i = some row ∧ row.objectKey = key ∧ now < row.expiresAt

/-- A deletion of an orphan takes no object of a confirmed intent, and the intent of another
deletion has not been confirmed since it was loaded. -/
def sparesConfirmed (ev : Event) (σ : Store) : Bool :=
  match ev with
  | .upload (.cleanIntent id intent _ _) =>
    (σ.1.uploads.intents.get id).all fun row => row.confirmedAt == intent.confirmedAt
  | .upload (.cleanOrphan key _) =>
    !σ.1.uploads.intents.any fun _ row => row.objectKey == key && row.confirmedAt.isSome
  | _ => true

/-! ## Live objects -/

/-- A deletion of an orphan comes after the expiry of its intent. -/
theorem grace_lt (now : Int) : now - uploadIntentCleanupGraceMs + uploadValidityMs < now := by
  simp only [uploadIntentCleanupGraceMs, uploadValidityMs, presignedUploadExpiresSeconds]
  omega

/-- So does that of a rejected photo. -/
theorem retention_lt (now : Int) : now - rejectedUploadRetentionMs + uploadValidityMs < now := by
  simp only [rejectedUploadRetentionMs, uploadValidityMs, presignedUploadExpiresSeconds]
  omega

/-- An intent of the key of a row of evidence is confirmed. -/
theorem confirmed_of_evidence {e : Evidence} (hv : UploadInv sha256 σ)
    (he : σ.1.uploads.bookingEvidence.get k = some e ∨
      σ.1.uploads.supportAttachments.get k = some e ∨
      σ.1.uploads.disputeEvidence.get k = some e) :
    ∃ row, σ.1.uploads.intents.get e.uploadIntentId = some row ∧ row.objectKey = e.storageKey ∧
      row.confirmedAt.isSome ∧ row.purpose.hashed := by
  have hrow : ∀ {purpose : UploadPurpose}, purpose.hashed → EvidenceRow purpose σ.1.uploads e →
      ∃ row, σ.1.uploads.intents.get e.uploadIntentId = some row ∧
        row.objectKey = e.storageKey ∧ row.confirmedAt.isSome ∧ row.purpose.hashed := by
    rintro purpose hpurpose ⟨row, hrow, hsome, rfl, hkey⟩
    exact ⟨row, hrow, hkey, hsome, hpurpose⟩
  rcases he with he | he | he
  · exact hrow rfl (hv.bookingEvidence k e he).1
  · exact hrow rfl (hv.supportAttachments k e he)
  · exact hrow rfl (hv.disputeEvidence k e he).1

/-- The row of a key is the one that was issued with it. -/
theorem eq_of_issued {r : UploadIntent} {j : Id} (hv : UploadInv sha256 σ)
    (hrow : σ.1.uploads.intents.get i = some row) (hkey : row.objectKey = key)
    (hr : σ.1.uploads.issued.get j = some r) (hkey' : r.objectKey = key) :
    i = j ∧ r = { row with confirmedAt := none } := by
  have hissued := hv.issued i row hrow
  obtain rfl := hv.keys i j _ r hissued hr (hkey.trans hkey'.symm)
  exact ⟨rfl, Option.some.inj (hr.symm.trans hissued)⟩

theorem not_live_of_cleanOrphan (hv : UploadInv sha256 σ)
    (hg : (UploadEvent.cleanOrphan key now).Guard σ sha256)
    (hok : sparesConfirmed (.upload (.cleanOrphan key now)) σ = true) : ¬Live now key σ := by
  obtain ⟨j, r, hr, hkey, -, hexp⟩ := hg
  -- no row of the key is confirmed
  have hopen : ∀ i row, σ.1.uploads.intents.get i = some row → row.objectKey = key →
      row.confirmedAt.isSome = false := by
    intro i row hrow hrowKey
    have hnone := Bool.not_eq_true' _ |>.mp hok
    have hthis := Table.any_eq_false.mp hnone i row hrow
    simpa [hrowKey] using hthis
  rintro (⟨k, e, he, rfl⟩ | ⟨k, p, row, c, hp, -, hrow, hrowKey, hc, -⟩ |
    ⟨i, row, hrow, hrowKey, hlive⟩)
  · obtain ⟨row, hrow, hrowKey, hsome, -⟩ := confirmed_of_evidence hv he
    rw [hopen _ row hrow hrowKey] at hsome
    cases hsome
  · have hsome := hopen _ row hrow hrowKey
    rw [hc] at hsome
    cases hsome
  · obtain ⟨rfl, rfl⟩ := eq_of_issued hv hrow hrowKey hr hkey
    exact Int.lt_irrefl _ (Int.lt_trans hlive (Int.lt_of_le_of_lt hexp (grace_lt now)))

theorem not_live_of_cleanIntent {intent : UploadIntent} {photo : Option ItemPhoto}
    (hv : UploadInv sha256 σ) (hg : CleanGuard i intent photo now σ.1.uploads)
    (hok : sparesConfirmed (.upload (.cleanIntent i intent photo now)) σ = true) :
    ¬Live now intent.objectKey σ := by
  -- a row of the key is the intent as it was loaded
  have hsame : ∀ j row, σ.1.uploads.intents.get j = some row →
      row.objectKey = intent.objectKey → j = i ∧ row = intent := by
    intro j row hrow hkey
    obtain ⟨rfl, hr⟩ := eq_of_issued hv hrow hkey hg.issued rfl
    refine ⟨rfl, ?_⟩
    have hconfirmed : row.confirmedAt = intent.confirmedAt := by
      simp only [sparesConfirmed, hrow, Option.all_some, beq_iff_eq] at hok
      exact hok
    obtain ⟨⟩ := row
    obtain ⟨⟩ := intent
    simp only [UploadIntent.mk.injEq] at hr hconfirmed ⊢
    simp_all
  rintro (⟨k, e, he, hkey⟩ | ⟨k, p, row, c, hp, hnone, hrow, hkey, hc, hage⟩ |
    ⟨j, row, hrow, hkey, hlive⟩)
  · obtain ⟨row, hrow, hrowKey, hsome, hhashed⟩ := confirmed_of_evidence hv he
    obtain ⟨-, rfl⟩ := hsame _ row hrow (hrowKey.trans hkey)
    -- of the loaded purposes only dispute evidence is hashed, and it is kept once confirmed
    have hpurpose : row.purpose = .disputeEvidence := by
      have hmem := hg.purpose
      simp only [cleanupPurposes, List.mem_cons, List.not_mem_nil, or_false] at hmem
      rcases hmem with h | h | h
      · rw [h] at hhashed
        cases hhashed
      · rw [h] at hhashed
        cases hhashed
      · exact h
    rcases hg.due with hdue | hdue
    · simp [isRejected, hpurpose] at hdue
    · obtain ⟨c, hc⟩ := Option.isSome_iff_exists.mp hsome
      simp [isExpired, hpurpose, hc] at hdue
  · obtain ⟨hid, rfl⟩ := hsame _ row hrow hkey
    have hpurpose := (hv.photoIntent k p row hp hrow).2
    rcases hg.due with hdue | hdue
    · simp only [isRejected, hc, Option.any_some, Bool.and_eq_true, decide_eq_true_eq] at hdue
      exact absurd hdue.1.2 (Int.not_le.mpr hage)
    · obtain ⟨p₀, rfl, hpublished⟩ := hg.photo hpurpose (by rw [hc]; rfl) k p hp hid
      simp only [isExpired, hpurpose, hc, reduceCtorEq, if_false, Option.isNone_some,
        Bool.false_or, Option.all_some, Bool.and_eq_true] at hdue
      have hsome := hpublished hdue.2
      rw [hnone] at hsome
      cases hsome
  · obtain ⟨-, rfl⟩ := hsame j row hrow hkey
    rcases hg.due with hdue | hdue
    · simp only [isRejected, Bool.and_eq_true, beq_iff_eq, Option.any_eq_true,
        decide_eq_true_eq] at hdue
      obtain ⟨⟨hpurpose, c, hc, hle⟩, -⟩ := hdue
      have hexp := Int.le_trans (hg.window hpurpose c hc) (Int.add_le_add_right hle _)
      exact Int.lt_irrefl _ (Int.lt_trans hlive (Int.lt_of_le_of_lt hexp (retention_lt now)))
    · simp only [isExpired, Bool.and_eq_true, decide_eq_true_eq] at hdue
      have hexp := Int.lt_of_lt_of_le hlive hdue.1
      exact Int.lt_irrefl _ (Int.lt_of_lt_of_le hexp (Int.sub_le_self _ (by decide)))

/-! ## Runs -/

/-- **The clean-up spares what is live**: in every run, a deletion that does not take the object
of a confirmed intent for an orphan, and whose intent has not been confirmed since it was loaded,
takes no live object. -/
theorem cleanup_spares_live (h : Runs sha256 anyEvent s₀ s) {j : Nat} (hev : s.event j = some ev)
    (hok : sparesConfirmed ev s.store = true) (hcleans : ev.cleans = some (key, now)) :
    ¬Live now key s.store := by
  obtain ⟨s', hf⟩ := State.fire_of_event hev
  obtain ⟨K, hg⟩ := h.sound.guar hev trivial hf
  have hv := h.inv.uploads
  have hguard := hg.uploads.guard
  cases ev with
  | upload u =>
    cases u with
    | cleanIntent id intent photo now' =>
      cases hcleans
      exact not_live_of_cleanIntent hv hguard hok
    | cleanOrphan key' now' =>
      cases hcleans
      exact not_live_of_cleanOrphan hv hguard hok
    | _ => cases hcleans
  | _ => cases hcleans

namespace Scenario

/-- A day and an hour later. -/
def nextDay : Time := start + 25 * 60 * 60 * 1000

/-- The clean-up of the next day, up to its first deletion. -/
def cleanUp (client : Nat) : List Line :=
  [.call (.tick (25 * 60 * 60 * 1000)), .run client 1,
    .call (.cleanupExpiredUploads nextDay), .run (client + 1) 2]

/-- A photo that was never confirmed is deleted. -/
theorem cleanup_spares_live_expired :
    ((play anyEvent hash state (uploadPhoto 0 "a" 20 ++ cleanUp 2)).event 3).bind Event.cleans =
        some ("quarantine/item-photos/1/a.jpg", nextDay) ∧
      ¬Live nextDay "quarantine/item-photos/1/a.jpg"
        (play anyEvent hash state (uploadPhoto 0 "a" 20 ++ cleanUp 2)).store := by
  have hrun := (runs anyEvent).play (uploadPhoto 0 "a" 20 ++ cleanUp 2)
  have hcleans : ((play anyEvent hash state (uploadPhoto 0 "a" 20 ++ cleanUp 2)).event 3).bind
      Event.cleans = some ("quarantine/item-photos/1/a.jpg", nextDay) := by decide +kernel
  have hok : ((play anyEvent hash state (uploadPhoto 0 "a" 20 ++ cleanUp 2)).event 3).all
      (sparesConfirmed · (play anyEvent hash state (uploadPhoto 0 "a" 20 ++ cleanUp 2)).store) =
        true := by decide +kernel
  refine ⟨hcleans, ?_⟩
  obtain ⟨ev, hev, hkey⟩ := Option.bind_eq_some_iff.mp hcleans
  rw [hev, Option.all_some] at hok
  exact cleanup_spares_live hrun hev hok hkey

/-- The photo of the handover is deleted for an orphan. -/
theorem cleanup_spares_live_evidence :
    ∃ s, Runs hash anyEvent state s ∧ ∃ j ev key now, s.event j = some ev ∧
      ev.cleans = some (key, now) ∧ Live now key s.store := by
  refine ⟨play anyEvent hash state (handedOver ++ cleanUp 7), (runs anyEvent).play _, 8, ?_⟩
  have hcleans : ((play anyEvent hash state (handedOver ++ cleanUp 7)).event 8).bind Event.cleans =
      some (UploadService.getBookingEvidenceQuarantinePrefix 10 2 ++ "photo.jpg", nextDay) := by
    decide +kernel
  have hrow : ((play anyEvent hash state
      (handedOver ++ cleanUp 7)).store.1.uploads.bookingEvidence.get 30).map (·.storageKey) =
        some (UploadService.getBookingEvidenceQuarantinePrefix 10 2 ++ "photo.jpg") := by
    decide +kernel
  generalize play anyEvent hash state (handedOver ++ cleanUp 7) = s at hcleans hrow
  obtain ⟨ev, hev, hkey⟩ := Option.bind_eq_some_iff.mp hcleans
  obtain ⟨e, he, hstored⟩ := Option.map_eq_some_iff.mp hrow
  exact ⟨ev, _, _, hev, hkey, Or.inl ⟨30, e, Or.inl he, hstored⟩⟩

end Scenario

end Sosedi
