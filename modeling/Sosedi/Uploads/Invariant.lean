import Sosedi.Uploads.Steps

/-!
# The upload invariant

`UploadInv` ties the rows of the upload tables to the intents that were issued, and the
stored objects to issued keys.

Proved here: what a step can do to each table (`get_intents_inv`, `get_photos_inv`, ..),
and that every step keeps `UploadInv`.
-/

namespace Sosedi

open UploadCleanupService

/-- A row of evidence or an attachment: its intent is confirmed, of this purpose, and
names its key. -/
def EvidenceRow (purpose : UploadPurpose) (t : UploadTables) (e : Evidence) : Prop :=
  ∃ row, t.intents.get e.uploadIntentId = some row ∧ row.confirmedAt.isSome ∧
    row.purpose = purpose ∧ row.objectKey = e.storageKey

/-- The hash of an evidence row is that of bytes which a verification wrote. -/
def RecordedHash (sha256 : Bytes → String) (storage : ObjectStorage) (e : Evidence) : Prop :=
  ∃ written, (e.storageKey, written) ∈ storage.hashed ∧ e.sha256 = sha256 written

structure UploadInv (sha256 : Bytes → String) (σ : Database × World) : Prop where
  /-- A row is the one that was issued, but for its confirmation. -/
  issued : ∀ i row, σ.1.uploads.intents.get i = some row →
    σ.1.uploads.issued.get i = some { row with confirmedAt := none }
  keys : ∀ i j r r', σ.1.uploads.issued.get i = some r → σ.1.uploads.issued.get j = some r' →
    r.objectKey = r'.objectKey → i = j
  validity : ∀ i r, σ.1.uploads.issued.get i = some r →
    r.expiresAt ≤ σ.2.now + uploadValidityMs
  window : ∀ i row c, σ.1.uploads.intents.get i = some row → row.purpose = .itemPhoto →
    row.confirmedAt = some c → row.expiresAt ≤ c + uploadValidityMs
  bookingEvidence : ∀ k e, σ.1.uploads.bookingEvidence.get k = some e →
    EvidenceRow .bookingEvidence σ.1.uploads e ∧ RecordedHash sha256 σ.2.storage e
  disputeEvidence : ∀ k e, σ.1.uploads.disputeEvidence.get k = some e →
    EvidenceRow .disputeEvidence σ.1.uploads e ∧ RecordedHash sha256 σ.2.storage e
  supportAttachments : ∀ k e, σ.1.uploads.supportAttachments.get k = some e →
    EvidenceRow .supportAttachment σ.1.uploads e
  /-- An intent has at most one photo, made when the intent was confirmed. -/
  photos : ∀ k k' p p', σ.1.uploads.photos.get k = some p →
    σ.1.uploads.photos.get k' = some p' → p.uploadIntentId = p'.uploadIntentId → k = k'
  photoIntent : ∀ k p row, σ.1.uploads.photos.get k = some p →
    σ.1.uploads.intents.get p.uploadIntentId = some row →
      row.confirmedAt.isSome ∧ row.purpose = .itemPhoto
  /-- No photo waits for an intent that is yet to come. -/
  photoIssued : ∀ k p, σ.1.uploads.photos.get k = some p →
    ∃ r, σ.1.uploads.issued.get p.uploadIntentId = some r
  stored : ∀ key o, σ.2.storage.getObject .privateBucket key = some o →
    ∃ purpose, σ.1.uploads.IssuedKey key purpose
  /-- An object is not older than the intent of its key. -/
  age : ∀ key o m i r, σ.2.storage.getObject .privateBucket key = some o →
    o.lastModified = some m → σ.1.uploads.issued.get i = some r → r.objectKey = key →
      r.expiresAt ≤ m + uploadValidityMs
  posts : ∀ post ∈ σ.2.storage.posts, ∃ purpose, σ.1.uploads.IssuedKey post.key purpose
  jobs : ∀ job ∈ σ.2.photoJobs, σ.1.uploads.IssuedKey job.sourceKey .itemPhoto
  hashed : ∀ w ∈ σ.2.storage.hashed, ∃ purpose, σ.1.uploads.IssuedKey w.1 purpose ∧ purpose.hashed

namespace Event

variable {ev : Event} {t : UploadTables} {i k : Id} {row row' r : UploadIntent}
  {sha256 : Bytes → String} {w : World}

/-! ## Intents -/

theorem intents_applyUploads (ev : Event) (t : UploadTables) :
    (∃ id intent, ev = .upload (.issue id intent) ∧
      (ev.applyUploads t).intents = t.intents.insert id intent) ∨
    (∃ id, ev = .upload (.dropIntent id) ∧ (ev.applyUploads t).intents = t.intents.erase id) ∨
    (ev.applyUploads t).intents = t.intents.mapRows fun id row =>
      if id ∈ ev.consumed then { row with confirmedAt := some ev.confirmedAt } else row := by
  have hnil : t.intents = t.intents.mapRows fun id row =>
      if id ∈ ([] : List Id) then { row with confirmedAt := some 0 } else row := by simp
  cases ev with
  | upload u =>
    cases u with
    | issue id intent => exact Or.inl ⟨id, intent, rfl, rfl⟩
    | dropIntent id => exact Or.inr (Or.inl ⟨id, rfl, rfl⟩)
    | confirmPhoto | confirmAvatar | addDisputeEvidence | addSupportMessage =>
      exact Or.inr (Or.inr rfl)
    | _ => exact Or.inr (Or.inr hnil)
  | createAct => exact Or.inr (Or.inr rfl)
  | _ => exact Or.inr (Or.inr hnil)

/-- Where a row of the intents comes from. -/
theorem get_intents_inv (h : (ev.applyUploads t).intents.get i = some row') :
    ev = .upload (.issue i row') ∨ ∃ row, t.intents.get i = some row ∧
      (i ∉ ev.consumed ∧ row' = row ∨
        i ∈ ev.consumed ∧ row' = { row with confirmedAt := some ev.confirmedAt }) := by
  rcases intents_applyUploads ev t with ⟨id, intent, rfl, e⟩ | ⟨id, rfl, e⟩ | e
  · rw [e] at h
    rcases Table.of_get_insert h with ⟨rfl, rfl⟩ | h
    · exact Or.inl rfl
    · exact Or.inr ⟨row', h, Or.inl ⟨by simp [consumed], rfl⟩⟩
  · rw [e] at h
    exact Or.inr ⟨row', (Table.of_get_erase h).2, Or.inl ⟨by simp [consumed], rfl⟩⟩
  · rw [e, Table.get_mapRows, Option.map_eq_some_iff] at h
    obtain ⟨row, hrow, rfl⟩ := h
    refine Or.inr ⟨row, hrow, ?_⟩
    by_cases hi : i ∈ ev.consumed <;> simp [hi]

/-- A row that is neither confirmed nor dropped stays. -/
theorem get_intents_of_get (h : t.intents.get i = some row) (hc : i ∉ ev.consumed)
    (hd : ev ≠ .upload (.dropIntent i)) : (ev.applyUploads t).intents.get i = some row := by
  rcases intents_applyUploads ev t with ⟨id, intent, rfl, e⟩ | ⟨id, rfl, e⟩ | e
  · rw [e]
    exact Table.get_insert_of_get h
  · rw [e, Table.get_erase, if_neg]
    · exact h
    · rintro rfl
      exact hd rfl
  · rw [e, Table.get_mapRows, h, Option.map_some, if_neg hc]

theorem issued_applyUploads (ev : Event) (t : UploadTables) :
    (∃ id intent, ev = .upload (.issue id intent) ∧
      (ev.applyUploads t).issued = t.issued.insert id intent) ∨
    (∀ id intent, ev ≠ .upload (.issue id intent)) ∧ (ev.applyUploads t).issued = t.issued := by
  cases ev with
  | upload u =>
    cases u with
    | issue id intent => exact Or.inl ⟨id, intent, rfl, rfl⟩
    | _ => exact Or.inr ⟨by simp, rfl⟩
  | _ => exact Or.inr ⟨by simp, rfl⟩

theorem get_issued_inv (h : (ev.applyUploads t).issued.get i = some r) :
    ev = .upload (.issue i r) ∨ t.issued.get i = some r := by
  rcases issued_applyUploads ev t with ⟨id, intent, rfl, e⟩ | ⟨-, e⟩
  · rw [e] at h
    rcases Table.of_get_insert h with ⟨rfl, rfl⟩ | h
    · exact Or.inl rfl
    · exact Or.inr h
  · rw [e] at h
    exact Or.inr h

theorem get_issued_of_get (h : t.issued.get i = some r) :
    (ev.applyUploads t).issued.get i = some r := by
  rcases issued_applyUploads ev t with ⟨id, intent, rfl, e⟩ | ⟨-, e⟩
  · rw [e]
    exact Table.get_insert_of_get h
  · rw [e]
    exact h

theorem issuedKey_applyUploads {key : String} {purpose : UploadPurpose}
    (h : t.IssuedKey key purpose) : (ev.applyUploads t).IssuedKey key purpose := by
  obtain ⟨i, r, hr, hkey⟩ := h
  exact ⟨i, r, get_issued_of_get hr, hkey⟩

/-! ## Photos and evidence -/

/-- Where a photo comes from. -/
theorem get_photos_inv {p' : ItemPhoto} (h : (ev.applyUploads t).photos.get k = some p') :
    (∃ intentId c u seen counted cleared,
      ev = .upload (.confirmPhoto intentId k p' c u seen counted cleared)) ∨
      ∃ p, t.photos.get k = some p ∧ p'.uploadIntentId = p.uploadIntentId ∧
        (p.originalUrl.isSome → p'.originalUrl.isSome) ∧ p'.itemId = p.itemId ∧
        (p'.isCover → p.isCover) := by
  have hold : t.photos.get k = some p' → (∃ p, t.photos.get k = some p ∧
      p'.uploadIntentId = p.uploadIntentId ∧ (p.originalUrl.isSome → p'.originalUrl.isSome) ∧
      p'.itemId = p.itemId ∧ (p'.isCover → p.isCover)) :=
    fun h => ⟨p', h, rfl, id, rfl, id⟩
  cases ev with
  | upload u =>
    cases u with
    | confirmPhoto intentId photoId photo c u seen counted cleared =>
      simp only [applyUploads, UploadTables.addPhoto, UploadTables.consume] at h
      rcases Table.of_get_insert h with ⟨rfl, rfl⟩ | h
      · exact Or.inl ⟨intentId, c, u, seen, counted, cleared, rfl⟩
      · rw [Table.get_mapRows, Option.map_eq_some_iff] at h
        obtain ⟨p, hp, rfl⟩ := h
        refine Or.inr ⟨p, hp, ?_⟩
        split
        · exact ⟨rfl, id, rfl, fun h => by cases h⟩
        · exact ⟨rfl, id, rfl, id⟩
    | publishPhoto photoId o th pr =>
      simp only [applyUploads, UploadTables.publish, Table.get_modify] at h
      refine Or.inr ?_
      split at h
      · rename_i hk
        subst hk
        rw [Option.map_eq_some_iff] at h
        obtain ⟨p, hp, rfl⟩ := h
        exact ⟨p, hp, rfl, fun _ => rfl, rfl, id⟩
      · exact hold h
    | dropPhoto intentId =>
      simp only [applyUploads, UploadTables.dropPhoto] at h
      refine Or.inr (hold ?_)
      split at h
      · split at h
        · exact (Table.of_get_erase h).2
        · exact h
      · exact h
    | _ => exact Or.inr (hold h)
  | _ => exact Or.inr (hold h)

/-- Where the URL of a photo comes from. -/
theorem get_photos_url {p' : ItemPhoto} (h : (ev.applyUploads t).photos.get k = some p') :
    (∃ intentId c u seen counted cleared,
      ev = .upload (.confirmPhoto intentId k p' c u seen counted cleared)) ∨
      (∃ originalUrl thumbnailUrl previewUrl,
        ev = .upload (.publishPhoto k originalUrl thumbnailUrl previewUrl)) ∨
      ∃ p, t.photos.get k = some p ∧ p'.originalUrl = p.originalUrl := by
  have hold : t.photos.get k = some p' → ∃ p, t.photos.get k = some p ∧
      p'.originalUrl = p.originalUrl := fun h => ⟨p', h, rfl⟩
  cases ev with
  | upload u =>
    cases u with
    | confirmPhoto intentId photoId photo c u seen counted cleared =>
      simp only [applyUploads, UploadTables.addPhoto, UploadTables.consume] at h
      rcases Table.of_get_insert h with ⟨rfl, rfl⟩ | h
      · exact Or.inl ⟨intentId, c, u, seen, counted, cleared, rfl⟩
      · rw [Table.get_mapRows, Option.map_eq_some_iff] at h
        obtain ⟨p, hp, rfl⟩ := h
        refine Or.inr (Or.inr ⟨p, hp, ?_⟩)
        split <;> rfl
    | publishPhoto photoId o th pr =>
      simp only [applyUploads, UploadTables.publish, Table.get_modify] at h
      split at h
      · rename_i hk
        subst hk
        exact Or.inr (Or.inl ⟨o, th, pr, rfl⟩)
      · exact Or.inr (Or.inr (hold h))
    | dropPhoto intentId =>
      simp only [applyUploads, UploadTables.dropPhoto] at h
      refine Or.inr (Or.inr (hold ?_))
      split at h
      · split at h
        · exact (Table.of_get_erase h).2
        · exact h
      · exact h
    | _ => exact Or.inr (Or.inr (hold h))
  | _ => exact Or.inr (Or.inr (hold h))

/-- Where a row of booking evidence comes from. -/
theorem get_bookingEvidence_inv {e : Evidence}
    (h : (ev.applyUploads t).bookingEvidence.get k = some e) :
    t.bookingEvidence.get k = some e ∨
      ∃ id stage a written c, ev = .createAct id stage a k e written c := by
  cases ev with
  | createAct id stage a evidenceId evidence written c =>
    rcases Table.of_get_insert h with ⟨rfl, rfl⟩ | h
    · exact Or.inr ⟨id, stage, a, written, c, rfl⟩
    · exact Or.inl h
  | upload u => cases u <;> exact Or.inl h
  | _ => exact Or.inl h

/-- Where a row of dispute evidence comes from. -/
theorem get_disputeEvidence_inv {e : Evidence}
    (h : (ev.applyUploads t).disputeEvidence.get k = some e) :
    t.disputeEvidence.get k = some e ∨
      ∃ written c, ev = .upload (.addDisputeEvidence k e written c) := by
  cases ev with
  | upload u =>
    cases u with
    | addDisputeEvidence evidenceId evidence written c =>
      rcases Table.of_get_insert h with ⟨rfl, rfl⟩ | h
      · exact Or.inr ⟨written, c, rfl⟩
      · exact Or.inl h
    | _ => exact Or.inl h
  | _ => exact Or.inl h

private theorem get_foldl_insert {l : List (Id × Evidence)} {rows : Table Id Evidence}
    {e : Evidence} (h : (l.foldl (fun rows r => rows.insert r.1 r.2) rows).get k = some e) :
    rows.get k = some e ∨ (k, e) ∈ l := by
  induction l generalizing rows with
  | nil => exact Or.inl h
  | cons r l ih =>
    rcases ih h with h | h
    · rcases Table.of_get_insert h with ⟨rfl, rfl⟩ | h
      · exact Or.inr (List.mem_cons_self ..)
      · exact Or.inl h
    · exact Or.inr (List.mem_cons_of_mem _ h)

/-- Where an attachment comes from. -/
theorem get_supportAttachments_inv {e : Evidence}
    (h : (ev.applyUploads t).supportAttachments.get k = some e) :
    t.supportAttachments.get k = some e ∨
      ∃ id message attachments c, ev = .upload (.addSupportMessage id message attachments c) ∧
        (k, e) ∈ attachments := by
  cases ev with
  | upload u =>
    cases u with
    | addSupportMessage id message attachments c =>
      rcases get_foldl_insert h with h | h
      · exact Or.inl h
      · exact Or.inr ⟨id, message, attachments, c, rfl, h⟩
    | _ => exact Or.inl h
  | _ => exact Or.inl h

/-! ## Tickets -/

/-- What a step does to a ticket. -/
theorem get_tickets_cases (ev : Event) (t : UploadTables) (i : Id) :
    (ev.applyUploads t).tickets.get i = t.tickets.get i ∧ .ticketRow i ∉ ev.rowKeys ∨
      (∃ id message attachments c, ev = .upload (.addSupportMessage id message attachments c) ∧
        message.fromOperator ∧ message.ticketId = i ∧ (ev.applyUploads t).tickets.get i =
          (t.tickets.get i).map (SupportTicket.assign message.authorId)) ∨
      (∃ adminId, ev = .upload (.assignTicket i adminId) ∧ (ev.applyUploads t).tickets.get i =
        (t.tickets.get i).map (SupportTicket.assign adminId)) ∨
      (∃ adminId body messageId respondedAt,
        ev = .upload (.replyTicket i adminId body messageId respondedAt) ∧
        (ev.applyUploads t).tickets.get i =
          (t.tickets.get i).map (SupportTicket.reply adminId body respondedAt)) ∨
      ∃ adminId, ev = .upload (.closeTicket i adminId) ∧ (ev.applyUploads t).tickets.get i =
        (t.tickets.get i).map (SupportTicket.close adminId) := by
  cases ev with
  | upload u =>
    cases u with
    | addSupportMessage id message attachments c =>
      by_cases hop : message.fromOperator
      · by_cases hid : message.ticketId = i
        · refine Or.inr (Or.inl ⟨id, message, attachments, c, rfl, hop, hid, ?_⟩)
          simp only [applyUploads, hop, if_true, hid, Table.get_modify_self]
          rfl
        · refine Or.inl ⟨?_, by simp [rowKeys, hop, Ne.symm hid]⟩
          simp only [applyUploads, hop, if_true, Table.get_modify_ne _ _ (Ne.symm hid)]
      · refine Or.inl ⟨?_, by simp [rowKeys, hop]⟩
        simp only [applyUploads, hop, Bool.false_eq_true, if_false]
    | assignTicket id adminId =>
      by_cases hid : i = id
      · subst hid
        exact Or.inr (Or.inr (Or.inl ⟨adminId, rfl, Table.get_modify_self ..⟩))
      · exact Or.inl ⟨Table.get_modify_ne _ _ hid, by simp [rowKeys, hid]⟩
    | replyTicket id adminId body messageId respondedAt =>
      by_cases hid : i = id
      · subst hid
        exact Or.inr (Or.inr (Or.inr (Or.inl
          ⟨adminId, body, messageId, respondedAt, rfl, Table.get_modify_self ..⟩)))
      · exact Or.inl ⟨Table.get_modify_ne _ _ hid, by simp [rowKeys, hid]⟩
    | closeTicket id adminId =>
      by_cases hid : i = id
      · subst hid
        exact Or.inr (Or.inr (Or.inr (Or.inr ⟨adminId, rfl, Table.get_modify_self ..⟩)))
      · exact Or.inl ⟨Table.get_modify_ne _ _ hid, by simp [rowKeys, hid]⟩
    | _ => exact Or.inl ⟨rfl, by simp [rowKeys]⟩
  | _ => exact Or.inl ⟨rfl, by simp [rowKeys]⟩

theorem get_tickets_of_not_mem (h : .ticketRow i ∉ ev.rowKeys) :
    (ev.applyUploads t).tickets.get i = t.tickets.get i := by
  rcases get_tickets_cases ev t i with ⟨he, -⟩ | ⟨id, message, attachments, c, rfl, hop, rfl, -⟩ |
    ⟨adminId, rfl, -⟩ | ⟨adminId, body, messageId, respondedAt, rfl, -⟩ | ⟨adminId, rfl, -⟩
  · exact he
  · exact absurd (by simp [rowKeys, hop]) h
  · exact absurd (List.mem_singleton_self _) h
  · exact absurd (List.mem_singleton_self _) h
  · exact absurd (List.mem_singleton_self _) h

/-- Where a message of a ticket comes from. -/
theorem get_supportMessages_inv {m : SupportMessage}
    (h : (ev.applyUploads t).supportMessages.get k = some m) :
    t.supportMessages.get k = some m ∨
      (∃ attachments c, ev = .upload (.addSupportMessage k m attachments c)) ∨
      ∃ adminId body respondedAt, ev = .upload (.replyTicket m.ticketId adminId body k respondedAt) ∧
        m.fromOperator = true ∧ m.authorId = adminId := by
  cases ev with
  | upload u =>
    cases u with
    | addSupportMessage id message attachments c =>
      rcases Table.of_get_insert h with ⟨rfl, rfl⟩ | h
      · exact Or.inr (Or.inl ⟨attachments, c, rfl⟩)
      · exact Or.inl h
    | replyTicket id adminId body messageId respondedAt =>
      rcases Table.of_get_insert h with ⟨rfl, rfl⟩ | h
      · exact Or.inr (Or.inr ⟨adminId, body, respondedAt, rfl, rfl, rfl⟩)
      · exact Or.inl h
    | _ => exact Or.inl h
  | _ => exact Or.inl h

/-! ## The world -/

theorem now_applyWorld (ev : Event) (w : World) : w.now ≤ (ev.applyWorld sha256 w).now := by
  cases ev with
  | upload u =>
    cases u with
    | tick ms => exact Int.le_add_of_nonneg_right (Int.natCast_nonneg ms)
    | _ => exact le_refl w.now
  | _ => exact le_refl w.now

/-- What a verification wrote and hashed is never forgotten. -/
theorem mem_hashed_applyWorld {x : String × Bytes} (h : x ∈ w.storage.hashed) :
    x ∈ (ev.applyWorld sha256 w).storage.hashed := by
  cases ev with
  | upload u =>
    cases u with
    | sanitize id intent bytes => exact List.mem_cons_of_mem _ h
    | clientUpload key bytes contentType =>
      simp only [applyWorld, applyStorage]
      split <;> exact h
    | _ => exact h
  | _ => exact h

theorem mem_hashed_inv {x : String × Bytes} (h : x ∈ (ev.applyWorld sha256 w).storage.hashed) :
    x ∈ w.storage.hashed ∨ ∃ id intent, ev = .upload (.sanitize id intent x.2) ∧
      x.1 = intent.objectKey := by
  cases ev with
  | upload u =>
    cases u with
    | sanitize id intent bytes =>
      rcases List.mem_cons.mp h with rfl | h
      · exact Or.inr ⟨id, intent, rfl, rfl⟩
      · exact Or.inl h
    | clientUpload key bytes contentType =>
      simp only [applyWorld, applyStorage] at h
      split at h <;> exact Or.inl h
    | _ => exact Or.inl h
  | _ => exact Or.inl h

/-- Where an object of the private bucket comes from. -/
theorem get_private_inv {key : String} {o : StoredObject}
    (h : (ev.applyWorld sha256 w).storage.getObject .privateBucket key = some o) :
    w.storage.getObject .privateBucket key = some o ∨
      (∃ bytes contentType, ev = .upload (.clientUpload key bytes contentType) ∧
        w.storage.accepts w.now key bytes contentType ∧ o.lastModified = some w.now) ∨
      ∃ id intent bytes, ev = .upload (.sanitize id intent bytes) ∧ key = intent.objectKey ∧
        o.lastModified = some w.now := by
  have hdelete : ∀ key', (w.storage.deleteObject .privateBucket key').getObject .privateBucket
      key = some o → w.storage.getObject .privateBucket key = some o := by
    intro key' h
    rw [ObjectStorage.getObject_deleteObject] at h
    split at h
    · cases h
    · exact h
  cases ev with
  | upload u =>
    cases u with
    | clientUpload key' bytes contentType =>
      simp only [applyWorld, applyStorage] at h
      split at h
      · rename_i hacc
        rw [ObjectStorage.getObject_putObject] at h
        split at h
        · rename_i hkey
          cases h
          obtain rfl : key = key' := (Prod.mk.inj hkey).2
          exact Or.inr (Or.inl ⟨bytes, contentType, rfl, hacc, rfl⟩)
        · exact Or.inl h
      · exact Or.inl h
    | sanitize id intent bytes =>
      replace h : (w.storage.putObject .privateBucket intent.objectKey
        ⟨bytes, intent.contentType, some w.now⟩).getObject .privateBucket key = some o := h
      rw [ObjectStorage.getObject_putObject] at h
      split at h
      · rename_i hkey
        cases h
        exact Or.inr (Or.inr ⟨id, intent, bytes, rfl, (Prod.mk.inj hkey).2, rfl⟩)
      · exact Or.inl h
    | putPublic key' bytes contentType =>
      replace h : (w.storage.putObject .publicBucket key'
        ⟨bytes, contentType, some w.now⟩).getObject .privateBucket key = some o := h
      rw [ObjectStorage.getObject_putObject, if_neg (by simp)] at h
      exact Or.inl h
    | deleteSource | cleanIntent | cleanOrphan => exact Or.inl (hdelete _ h)
    | _ => exact Or.inl h
  | _ => exact Or.inl h

/-- Nothing in the public bucket is ever deleted. -/
theorem isSome_public_applyWorld {key : String}
    (h : (w.storage.getObject .publicBucket key).isSome) :
    ((ev.applyWorld sha256 w).storage.getObject .publicBucket key).isSome := by
  have hput : ∀ b key' (o : StoredObject),
      ((w.storage.putObject b key' o).getObject .publicBucket key).isSome := by
    intro b key' o
    rw [ObjectStorage.getObject_putObject]
    split
    · rfl
    · exact h
  have hdelete : ∀ key',
      ((w.storage.deleteObject .privateBucket key').getObject .publicBucket key).isSome := by
    intro key'
    rw [ObjectStorage.getObject_deleteObject, if_neg (by simp)]
    exact h
  cases ev with
  | upload u =>
    cases u with
    | clientUpload key' bytes contentType =>
      simp only [applyWorld, applyStorage]
      split
      · exact hput _ _ _
      · exact h
    | sanitize id intent bytes => exact hput .privateBucket intent.objectKey _
    | putPublic key' bytes contentType => exact hput _ _ _
    | deleteSource | cleanIntent | cleanOrphan => exact hdelete _
    | _ => exact h
  | _ => exact h

theorem mem_posts_inv {post : PresignedPost}
    (h : post ∈ (ev.applyWorld sha256 w).storage.posts) :
    post ∈ w.storage.posts ∨ ev = .upload (.presign post) := by
  cases ev with
  | upload u =>
    cases u with
    | presign post' =>
      rcases List.mem_cons.mp h with rfl | h
      · exact Or.inr rfl
      · exact Or.inl h
    | clientUpload key bytes contentType =>
      simp only [applyWorld, applyStorage] at h
      split at h <;> exact Or.inl h
    | _ => exact Or.inl h
  | _ => exact Or.inl h

theorem mem_photoJobs_inv {job : PhotoProcessingJob}
    (h : job ∈ (ev.applyWorld sha256 w).photoJobs) :
    job ∈ w.photoJobs ∨ ev = .upload (.queuePhoto job) := by
  cases ev with
  | upload u =>
    cases u with
    | queuePhoto job' =>
      rcases List.mem_cons.mp h with rfl | h
      · exact Or.inr rfl
      · exact Or.inl h
    | _ => exact Or.inl h
  | _ => exact Or.inl h

/-- Only open intents are confirmed. -/
theorem consumed_open {a : Database × World} (hg : ev.UploadGuard sha256 a)
    (hi : i ∈ ev.consumed) : ∃ row, a.1.uploads.intents.get i = some row ∧
      row.confirmedAt = none ∧
      (row.purpose = .itemPhoto → row.expiresAt ≤ ev.confirmedAt + uploadValidityMs) := by
  have hopen : ∀ {id purpose key}, a.1.uploads.Open id purpose key → purpose ≠ .itemPhoto →
      ∃ row, a.1.uploads.intents.get id = some row ∧ row.confirmedAt = none ∧
        (row.purpose = .itemPhoto → row.expiresAt ≤ ev.confirmedAt + uploadValidityMs) := by
    rintro id purpose key ⟨row, hrow, hnone, rfl, -⟩ hp
    exact ⟨row, hrow, hnone, fun h => absurd h hp⟩
  cases ev with
  | createAct id stage a evidenceId evidence written c =>
    obtain rfl : i = evidence.uploadIntentId := by simpa [consumed] using hi
    exact hopen hg.1.1 (by decide)
  | upload u =>
    cases u with
    | confirmPhoto intentId photoId photo c u seen counted cleared =>
      obtain rfl : i = intentId := by simpa [consumed] using hi
      obtain ⟨⟨row, hrow, hnone, -, hexp⟩, -⟩ := hg
      exact ⟨row, hrow, hnone, fun _ => hexp⟩
    | confirmAvatar intentId userId url c =>
      obtain rfl : i = intentId := by simpa [consumed] using hi
      obtain ⟨key, h⟩ := hg
      exact hopen h (by decide)
    | addDisputeEvidence evidenceId evidence written c =>
      obtain rfl : i = evidence.uploadIntentId := by simpa [consumed] using hi
      exact hopen hg.1 (by decide)
    | addSupportMessage id message attachments c =>
      obtain ⟨r, hr, rfl⟩ := List.mem_map.mp hi
      exact hopen (hg r hr) (by decide)
    | _ => simp [consumed] at hi
  | _ => simp [consumed] at hi

end Event

/-! ## Preservation -/

variable {sha256 : Bytes → String} {ev : Event} {K : List LockKey} {a b : Database × World}
  {i : Id} {row : UploadIntent}

namespace UploadStep

/-- A confirmed row stays as it is, unless it is dropped. -/
theorem get_confirmed (h : UploadStep sha256 ev K a b)
    (hrow : a.1.uploads.intents.get i = some row) (hc : row.confirmedAt.isSome)
    (hd : ev ≠ .upload (.dropIntent i)) : b.1.uploads.intents.get i = some row := by
  rw [h.uploads]
  refine Event.get_intents_of_get hrow ?_ hd
  intro hi
  obtain ⟨row', hrow', hnone, -⟩ := Event.consumed_open h.guard hi
  rw [hrow] at hrow'
  cases hrow'
  rw [hnone] at hc
  cases hc

/-- The intent of a row of evidence is never dropped. -/
theorem evidenceRow {purpose : UploadPurpose} {e : Evidence} (h : UploadStep sha256 ev K a b)
    (he : EvidenceRow purpose a.1.uploads e) (href : a.1.uploads.Referenced e.uploadIntentId) :
    EvidenceRow purpose b.1.uploads e := by
  obtain ⟨row, hrow, hc, hp⟩ := he
  refine ⟨row, h.get_confirmed hrow hc ?_, hc, hp⟩
  rintro rfl
  exact h.guard href

theorem recordedHash {e : Evidence} (h : UploadStep sha256 ev K a b)
    (he : RecordedHash sha256 a.2.storage e) : RecordedHash sha256 b.2.storage e := by
  obtain ⟨written, hw, hhash⟩ := he
  refine ⟨written, ?_, hhash⟩
  rw [h.world]
  exact Event.mem_hashed_applyWorld hw

theorem issuedKey {key : String} {purpose : UploadPurpose} (h : UploadStep sha256 ev K a b)
    (hk : a.1.uploads.IssuedKey key purpose) : b.1.uploads.IssuedKey key purpose := by
  rw [h.uploads]
  exact Event.issuedKey_applyUploads hk

/-- Consuming an open intent and inserting a row that refers to it. -/
private theorem evidenceRow_new {purpose : UploadPurpose} {e : Evidence}
    (h : UploadStep sha256 ev K a b)
    (hopen : a.1.uploads.Open e.uploadIntentId purpose e.storageKey)
    (hi : e.uploadIntentId ∈ ev.consumed) (hne : ∀ id, ev ≠ .upload (.dropIntent id))
    (hne' : ∀ id intent, ev ≠ .upload (.issue id intent)) :
    EvidenceRow purpose b.1.uploads e := by
  obtain ⟨row, hrow, -, hp, hkey⟩ := hopen
  refine ⟨{ row with confirmedAt := some ev.confirmedAt }, ?_, rfl, hp, hkey⟩
  rcases Event.intents_applyUploads ev a.1.uploads with ⟨_, _, e', -⟩ | ⟨_, e', -⟩ | e'
  · exact absurd e' (hne' _ _)
  · exact absurd e' (hne _)
  · rw [h.uploads, e', Table.get_mapRows, hrow, Option.map_some, if_pos hi]

end UploadStep

/-- **Every step keeps the upload invariant.** -/
theorem UploadInv.step (hv : UploadInv sha256 a) (h : UploadStep sha256 ev K a b) :
    UploadInv sha256 b := by
  have hnow : a.2.now ≤ b.2.now := by
    rw [h.world]
    exact Event.now_applyWorld ev a.2
  refine ⟨?issued, ?keys, ?validity, ?window, ?bookingEvidence, ?disputeEvidence,
    ?supportAttachments, ?photos, ?photoIntent, ?photoIssued, ?stored, ?age, ?posts, ?jobs, ?hashed⟩
  case issued =>
    intro i row' hrow'
    rw [h.uploads] at hrow' ⊢
    rcases Event.get_intents_inv hrow' with rfl | ⟨row, hrow, ⟨-, rfl⟩ | ⟨-, rfl⟩⟩
    · obtain ⟨hnone, -, hopen, -⟩ := h.guard
      rw [← hopen]
      exact Table.get_insert_self _ hnone
    · exact Event.get_issued_of_get (hv.issued i row' hrow)
    · exact Event.get_issued_of_get (hv.issued i row hrow)
  case keys =>
    intro i j r r' hi hj hkey
    rw [h.uploads] at hi hj
    rcases Event.get_issued_inv hi with rfl | hi'
    · rcases Event.get_issued_inv hj with e | hj
      · cases e
        rfl
      · exact absurd hkey.symm (h.guard.2.1 j r' hj)
    · rcases Event.get_issued_inv hj with rfl | hj
      · exact absurd hkey (h.guard.2.1 i r hi')
      · exact hv.keys i j r r' hi' hj hkey
  case validity =>
    intro i r hr
    rw [h.uploads] at hr
    rcases Event.get_issued_inv hr with rfl | hr
    · exact Int.le_trans h.guard.2.2.2 (Int.add_le_add_right hnow _)
    · exact Int.le_trans (hv.validity i r hr) (Int.add_le_add_right hnow _)
  case window =>
    intro i row' c hrow' hp hc
    rw [h.uploads] at hrow'
    rcases Event.get_intents_inv hrow' with rfl | ⟨row, hrow, ⟨-, rfl⟩ | ⟨hi, rfl⟩⟩
    · rw [h.guard.2.2.1] at hc
      cases hc
    · exact hv.window i row' c hrow hp hc
    · obtain ⟨row₀, hrow₀, -, hexp⟩ := Event.consumed_open h.guard hi
      rw [hrow] at hrow₀
      cases hrow₀
      cases hc
      exact hexp hp
  case bookingEvidence =>
    intro k e he
    rw [h.uploads] at he
    rcases Event.get_bookingEvidence_inv he with he | ⟨id, stage, act, written, c, rfl⟩
    · obtain ⟨hrow, hhash⟩ := hv.bookingEvidence k e he
      exact ⟨h.evidenceRow hrow (Or.inl ⟨k, e, he, rfl⟩), h.recordedHash hhash⟩
    · obtain ⟨⟨hopen, hhash, hw⟩, -⟩ := h.guard
      refine ⟨UploadStep.evidenceRow_new h hopen (by simp [Event.consumed]) (by simp) (by simp),
        h.recordedHash ⟨written, hw, hhash⟩⟩
  case disputeEvidence =>
    intro k e he
    rw [h.uploads] at he
    rcases Event.get_disputeEvidence_inv he with he | ⟨written, c, rfl⟩
    · obtain ⟨hrow, hhash⟩ := hv.disputeEvidence k e he
      exact ⟨h.evidenceRow hrow (Or.inr (Or.inl ⟨k, e, he, rfl⟩)), h.recordedHash hhash⟩
    · obtain ⟨hopen, hhash, hw⟩ := h.guard
      refine ⟨UploadStep.evidenceRow_new h hopen (by simp [Event.consumed]) (by simp) (by simp),
        h.recordedHash ⟨written, hw, hhash⟩⟩
  case supportAttachments =>
    intro k e he
    rw [h.uploads] at he
    rcases Event.get_supportAttachments_inv he with he | ⟨id, message, rows, c, rfl, hmem⟩
    · exact h.evidenceRow (hv.supportAttachments k e he) (Or.inr (Or.inr ⟨k, e, he, rfl⟩))
    · exact UploadStep.evidenceRow_new h (h.guard _ hmem)
        (List.mem_map.mpr ⟨_, hmem, rfl⟩) (by simp) (by simp)
  case photos =>
    intro k k' p p' hp hp' he
    rw [h.uploads] at hp hp'
    -- a photo of an open intent is the first one
    have hfirst : ∀ {intentId photoId photo c u seen n m q}, ev = .upload (.confirmPhoto intentId
        photoId photo c u seen n m) → (∃ l, a.1.uploads.photos.get l = some q) →
          q.uploadIntentId ≠ intentId := by
      rintro intentId photoId photo c u seen n m q rfl ⟨l, hq⟩ rfl
      obtain ⟨⟨row, hrow, hnone, -⟩, -⟩ := h.guard
      have := (hv.photoIntent l q row hq hrow).1
      rw [hnone] at this
      cases this
    rcases Event.get_photos_inv hp with ⟨id, c, u, seen, n, m, hev⟩ | ⟨q, hq, hid, -⟩
    · rcases Event.get_photos_inv hp' with ⟨id', c', u', seen', n', m', hev'⟩ | ⟨q', hq', hid', -⟩
      · rw [hev] at hev'
        cases hev'
        rfl
      · have hpid : p.uploadIntentId = id := by
          subst hev
          exact h.guard.2.1
        exact absurd (hid'.symm.trans (he.symm.trans hpid)) (hfirst hev ⟨_, hq'⟩)
    · rcases Event.get_photos_inv hp' with ⟨id', c', u', seen', n', m', hev'⟩ | ⟨q', hq', hid', -⟩
      · have hpid : p'.uploadIntentId = id' := by
          subst hev'
          exact h.guard.2.1
        exact absurd (hid.symm.trans (he.trans hpid)) (hfirst hev' ⟨_, hq⟩)
      · exact hv.photos k k' q q' hq hq' (hid.symm.trans (he.trans hid'))
  case photoIntent =>
    intro k p row' hp hrow'
    rw [h.uploads] at hp hrow'
    rcases Event.get_intents_inv hrow' with hev | ⟨row, hrow, hor⟩
    · rcases Event.get_photos_inv hp with ⟨id, c, u, seen, n, m, hev'⟩ | ⟨q, hq, hid, -⟩
      · rw [hev] at hev'
        cases hev'
      · obtain ⟨r, hr⟩ := hv.photoIssued k q hq
        subst hev
        have hnone := h.guard.1
        rw [hid, hr] at hnone
        cases hnone
    · rcases hor with ⟨hi, rfl⟩ | ⟨-, rfl⟩
      · rcases Event.get_photos_inv hp with ⟨id, c, u, seen, n, m, rfl⟩ | ⟨q, hq, hid, -⟩
        · exact absurd (by simp [Event.consumed, h.guard.2.1]) hi
        · rw [hid] at hrow
          exact hv.photoIntent k q row' hq hrow
      · refine ⟨rfl, ?_⟩
        rcases Event.get_photos_inv hp with ⟨id, c, u, seen, n, m, rfl⟩ | ⟨q, hq, hid, -⟩
        · obtain ⟨⟨row₀, hrow₀, -, hphoto, -⟩, hid, -⟩ := h.guard
          rw [hid, hrow₀, Option.some.injEq] at hrow
          exact hrow ▸ hphoto
        · rw [hid] at hrow
          exact (hv.photoIntent k q row hq hrow).2
  case photoIssued =>
    intro k p hp
    rw [h.uploads] at hp ⊢
    rcases Event.get_photos_inv hp with ⟨id, c, u, seen, n, m, rfl⟩ | ⟨q, hq, hid, -⟩
    · obtain ⟨⟨row, hrow, -⟩, hid, -⟩ := h.guard
      exact ⟨_, Event.get_issued_of_get (hid ▸ hv.issued _ row hrow)⟩
    · obtain ⟨r, hr⟩ := hv.photoIssued k q hq
      exact ⟨r, Event.get_issued_of_get (hid ▸ hr)⟩
  case stored =>
    intro key o ho
    rw [h.world] at ho
    rcases Event.get_private_inv ho with ho | ⟨bytes, contentType, rfl, hacc, -⟩ |
      ⟨id, intent, bytes, rfl, rfl, -⟩
    · obtain ⟨purpose, hk⟩ := hv.stored key o ho
      exact ⟨purpose, h.issuedKey hk⟩
    · simp only [ObjectStorage.accepts, List.any_eq_true, Bool.and_eq_true, beq_iff_eq] at hacc
      obtain ⟨post, hpost, ⟨⟨rfl, -⟩, -⟩, -⟩ := hacc
      obtain ⟨purpose, hk⟩ := hv.posts post hpost
      exact ⟨purpose, h.issuedKey hk⟩
    · exact ⟨_, h.issuedKey h.guard.1⟩
  case age =>
    intro key o m i r ho hm hr hkey
    rw [h.world] at ho
    rw [h.uploads] at hr
    rcases Event.get_issued_inv hr with rfl | hr
    · -- the key of a new intent is a new one
      rcases Event.get_private_inv ho with ho | ⟨bytes, contentType, hev, -⟩ |
        ⟨id, intent, bytes, hev, -⟩
      · obtain ⟨purpose, j, r', hr', hkey', -⟩ := hv.stored key o ho
        exact absurd (hkey'.trans hkey.symm) (h.guard.2.1 j r' hr')
      · cases hev
      · cases hev
    · have hnew : o.lastModified = some a.2.now → r.expiresAt ≤ m + uploadValidityMs := by
        intro hnow
        rw [hm, Option.some.injEq] at hnow
        exact hnow ▸ hv.validity i r hr
      rcases Event.get_private_inv ho with ho | ⟨bytes, contentType, -, -, hnow⟩ |
        ⟨id, intent, bytes, -, -, hnow⟩
      · exact hv.age key o m i r ho hm hr hkey
      · exact hnew hnow
      · exact hnew hnow
  case posts =>
    intro post hpost
    rw [h.world] at hpost
    rcases Event.mem_posts_inv hpost with hpost | rfl
    · obtain ⟨purpose, hk⟩ := hv.posts post hpost
      exact ⟨purpose, h.issuedKey hk⟩
    · obtain ⟨purpose, hk⟩ := h.guard
      exact ⟨purpose, h.issuedKey hk⟩
  case jobs =>
    intro job hjob
    rw [h.world] at hjob
    rcases Event.mem_photoJobs_inv hjob with hjob | rfl
    · exact h.issuedKey (hv.jobs job hjob)
    · exact h.issuedKey h.guard
  case hashed =>
    intro w hw
    rw [h.world] at hw
    rcases Event.mem_hashed_inv hw with hw | ⟨id, intent, rfl, hkey⟩
    · obtain ⟨purpose, hk, hp⟩ := hv.hashed w hw
      exact ⟨purpose, h.issuedKey hk, hp⟩
    · exact ⟨intent.purpose, hkey ▸ h.issuedKey h.guard.1, h.guard.2⟩

end Sosedi
