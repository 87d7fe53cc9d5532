import Sosedi.Transactions.Continued
import Sosedi.Uploads.Processing

/-!
# What one request may do to photos

Proved here, of a request for an upload form and of a confirmation, whatever the client finds:

* `photoRow_apply`, `photoRow_confirm`: what a step does to the rows of photos;
* `careful_requestUploadUrl`: a request for a form issues one intent, of its item;
* `careful_confirmItemPhotoUpload`: a confirmation makes the photo that it was asked for, once, or
  answers with one that it has found; when it throws it has made none, and it throws 400 only
  where the intent was still open, or malformed, or without its photo.
-/

namespace Sosedi

open Transactions

/-- The columns of a photo, its URLs apart. -/
structure PhotoRow where
  itemId : Id
  uploadIntentId : Id
  sortOrder : Int
  isCover : Bool
  deriving DecidableEq

def ItemPhoto.row (p : ItemPhoto) : PhotoRow := ⟨p.itemId, p.uploadIntentId, p.sortOrder, p.isCover⟩

def Database.photoRow (db : Database) (k : Id) : Option PhotoRow :=
  (db.uploads.photos.get k).map ItemPhoto.row

/-- The event makes or removes a photo. -/
def Event.altersPhotos : Event → Bool
  | upload (.confirmPhoto ..) | upload (.dropPhoto _) => true
  | _ => false

section Rows

variable {sha256 : Bytes → String} {ev : Event} {K : List LockKey} {a b : Store} {k k' : Id}

theorem photoRow_apply (h : UploadStep sha256 ev K a b) (hev : ev.altersPhotos = false) :
    b.1.photoRow k = a.1.photoRow k := by
  rw [Database.photoRow, Database.photoRow, h.uploads]
  cases ev with
  | upload u =>
    cases u with
    | confirmPhoto | dropPhoto => cases hev
    | publishPhoto photoId o th pr =>
      simp only [Event.applyUploads, UploadTables.publish, Table.get_modify]
      split
      · cases a.1.uploads.photos.get k <;> rfl
      · rfl
    | _ => rfl
  | _ => rfl

/-- A confirmation inserts its photo; the photos `cleared` are no covers any more. -/
theorem photoRow_confirm {intentId photoId : Id} {photo : ItemPhoto} {c u : Time}
    {seen counted cleared : List Id}
    (h : UploadStep sha256 (.upload (.confirmPhoto intentId photoId photo c u seen counted cleared))
      K a b) (hnew : a.1.uploads.photos.get photoId = none) :
    b.1.photoRow k = if k = photoId then some photo.row else (a.1.photoRow k).map fun r =>
      if k ∈ cleared then { r with isCover := false } else r := by
  rw [Database.photoRow, Database.photoRow, h.uploads]
  simp only [Event.applyUploads, UploadTables.addPhoto, UploadTables.consume, Table.get_insert,
    Table.get_mapRows, hnew, Option.map_none, and_true]
  split
  · rfl
  · cases a.1.uploads.photos.get k with
    | none => rfl
    | some p =>
      simp only [Option.map_some, Option.some.injEq]
      split <;> rfl

end Rows

/-! ## Programs -/

/-- The client has neither made nor removed a photo. -/
def Unaltered (past : Past Sys) : Prop := ∀ ev, past.events ev → ev.altersPhotos = false

/-- It has read the photo of the intent, or made it. -/
def HasPhoto (intentId : Id) (past : Past Sys) : Prop :=
  (∃ db, past.reads db ∧ ∃ k r, db.photoRow k = some r ∧ r.uploadIntentId = intentId) ∨
    ∃ ev, past.events ev ∧ ev.altersPhotos = true

/-- A request for a form: it issues the intent `newId`, of the item. -/
def IssuesFor (newId itemId : Id) (_ : Past Sys) (ev : Event) : Prop :=
  ev.altersPhotos = false ∧
    ∀ id intent, ev = .upload (.issue id intent) → id = newId ∧ intent.entityId = itemId

/-- An upload leaves the photos alone. -/
def LeavesPhotos (_ : Past Sys) (ev : Event) : Prop := ev.altersPhotos = false

/-- A confirmation makes one photo, of an intent and under an id that it has looked up. -/
def Confirms (intentId photoId : Id) (sortOrder : Int) (isCover : Bool) (past : Past Sys)
    (ev : Event) : Prop :=
  ev.altersPhotos = true → Unaltered past ∧ ∃ photo c u seen counted cleared,
    ev = .upload (.confirmPhoto intentId photoId photo c u seen counted cleared) ∧
      photo.uploadIntentId = intentId ∧ photo.sortOrder = sortOrder ∧ photo.isCover = isCover ∧
        (isCover = false → cleared = []) ∧
      (∃ db, past.reads db ∧ ∃ intent, db.uploads.intents.get intentId = some intent ∧
        UploadService.ensureItemPhotoIntentBinding intent = .ok () ∧
          photo.itemId = intent.entityId) ∧
      ∃ db, past.reads db ∧ db.uploads.photos.get photoId = none

/-- The intent was open or malformed, or had no photo. -/
def Unsettled (intentId : Id) (db : Database) : Prop :=
  (∃ intent, db.uploads.intents.get intentId = some intent ∧ (intent.confirmedAt = none ∨
    UploadService.ensureItemPhotoIntentBinding intent ≠ .ok ())) ∨
    ∀ k r, db.photoRow k = some r → r.uploadIntentId ≠ intentId

/-- When a confirmation throws it has made no photo; `BadRequestException` has a reason. -/
def Refused (intentId : Id) (e : Error) (past : Past Sys) : Prop :=
  Unaltered past ∧ (e.status = .badRequest → ∃ db, past.reads db ∧ Unsettled intentId db)

namespace UploadService

/-! ## What only looks -/

section Looks

variable {E : Event → Prop}

theorem looks_access {γ : Type} (f : Database → Option γ) (e : Error) :
    ((Transactions.select f : Prog Sys (Option γ)).bind fun found =>
      (Transactions.lift (required found e)).bind fun _ => (.ret () : Prog Sys Unit)).Looks E :=
  (looks_select _).bind fun _ => (looks_lift _).bind fun _ => looks_ret _

theorem looks_ensureNoUnfinishedBookings (itemId : Id) :
    (ensureNoUnfinishedBookings itemId).Looks E :=
  (looks_select _).bind fun _ => (looks_lift _).bind fun _ => looks_ret _

theorem looks_ensureUploadedObject (hE : E .noop) (intent : UploadIntent) :
    (ensureUploadedObject intent).Looks E := by
  have hinspect : (S3StorageService.inspectUploadedObject intent.objectKey).Looks E := by
    refine Prog.Looks.bind (looks_call hE _ _) fun metadata => ?_
    cases metadata with
    | none => exact looks_ret _
    | some metadata =>
      dsimp only
      split
      · exact looks_ret _
      · exact Prog.Looks.bind (looks_call hE _ _) fun _ => looks_ret _
  exact hinspect.bind fun _ => (looks_lift _).bind fun _ => (looks_lift _).bind fun _ =>
    looks_lift _

end Looks

/-! ## Forms and uploads -/

section Forms

variable {past : Past Sys} {ω : List (Database → Database)}

theorem careful_createPresignedUpload (userId : Id) (dto : RequestUploadUrlDto) (itemId : Id)
    (keyPrefix uuid : String) (newId : Id) :
    (createPresignedUpload userId dto itemId keyPrefix uuid newId).Careful
      (Observer.past (IssuesFor newId itemId)) (fun _ _ => True)
      (fun _ past _ => ∃ intent, past.events (.upload (.issue newId intent))) past ω := by
  unfold createPresignedUpload clock S3StorageService.createPresignedPostUpload
  simp only [Prog.bind_eq, careful_bind, careful_call]
  refine careful_lift (fun _ _ => trivial) fun extension _ => ⟨⟨rfl, by simp⟩, fun w => ?_⟩
  refine careful_insertUnique _ _ _ _ (fun _ _ => trivial) fun db _ => ?_
  simp only [careful_commit]
  refine ⟨⟨rfl, ?_⟩, ⟨rfl, by simp⟩, fun _ => ⟨⟨rfl, by simp⟩, fun _ => ?_⟩⟩
  · rintro id intent heq
    cases heq
    exact ⟨rfl, rfl⟩
  · exact ⟨_, Or.inl (Or.inl (Or.inr rfl))⟩

/-- **A request for the form of a photo** issues its intent. -/
theorem careful_requestUploadUrl (userId itemId : Id) (contentType : String) (sizeBytes : Int)
    (uuid : String) (newId : Id) :
    (requestUploadUrl userId ⟨.itemPhoto, contentType, sizeBytes, some itemId, none, none, none⟩
      uuid newId).Careful (Observer.past (IssuesFor newId itemId)) (fun _ _ => True)
      (fun _ past _ => ∃ intent, past.events (.upload (.issue newId intent))) past [] := by
  simp only [requestUploadUrl, createItemPhotoUploadUrl, Prog.bind_eq, careful_bind]
  refine careful_lift (fun _ _ => trivial) fun _ _ => ?_
  refine careful_lift (fun _ _ => trivial) fun _ _ => ?_
  refine careful_lift (fun _ _ => trivial) fun itemId' hitem => ?_
  obtain rfl : itemId = itemId' := by simpa [onlyEntity, required] using hitem
  have hlooks : ∀ {α : Type} {p : Prog Sys α} {past : Past Sys}, p.Looks (fun _ => False) →
      p.Careful (Observer.past (IssuesFor newId itemId)) (fun _ _ => True)
        (fun _ _ ω' => True ∧ ω' = []) past [] := fun h =>
    h.careful (I := fun _ => True) (fun _ _ _ => trivial) (fun _ _ hno _ => hno.elim)
      (fun _ _ _ => trivial) trivial
  refine (hlooks (looks_access _ _)).mono fun _ past ω h => ?_
  rw [h.2]
  refine (hlooks (looks_ensureNoUnfinishedBookings _)).mono fun _ past ω _ => ?_
  exact careful_createPresignedUpload _ _ _ _ _ _

theorem careful_clientUpload (key : String) (bytes : Bytes) (contentType : String) :
    (S3StorageService.clientUpload key bytes contentType).Careful (Observer.past LeavesPhotos)
      (fun _ _ => True) (fun _ _ _ => True) past ω :=
  ⟨rfl, fun _ => trivial⟩

end Forms

/-! ## Confirmations -/

section Confirm

variable {intentId photoId : Id} {sortOrder : Int} {isCover : Bool} {past : Past Sys}
  {ω : List (Database → Database)} {db₁ : Database} {intent : UploadIntent}

/-- It has made no photo, and has read `db₁`. -/
private def Looking (db₁ : Database) (past : Past Sys) : Prop :=
  Unaltered past ∧ past.reads db₁

private theorem looking_see {j : Past Sys → Event → Prop} (db : Database)
    (h : Looking db₁ past) : Looking db₁ ((Observer.past j).see past db) := ⟨h.1, Or.inl h.2⟩

private theorem unaltered_noop {j : Past Sys → Event → Prop} (h : Unaltered past) :
    Unaltered ((Observer.past j).act past .noop) := by
  intro ev hev
  rcases hev with hev | rfl
  · exact h ev hev
  · rfl

private theorem confirms_noop : Confirms intentId photoId sortOrder isCover past .noop :=
  fun h => Bool.noConfusion h

section Open

variable (hrow : db₁.uploads.intents.get intentId = some intent)
  (hopen : intent.confirmedAt = none)
include hrow hopen

private theorem Looking.refused (e : Error) (h : Looking db₁ past) : Refused intentId e past :=
  ⟨h.1, fun _ => ⟨db₁, h.2, Or.inl ⟨intent, hrow, Or.inl hopen⟩⟩⟩

private theorem careful_looking {α : Type} {p : Prog Sys α} (hp : p.Looks (· = Event.noop))
    (h : Looking db₁ past) :
    p.Careful (Observer.past (Confirms intentId photoId sortOrder isCover)) (Refused intentId)
      (fun _ past ω' => Looking db₁ past ∧ ω' = ω) past ω := by
  refine hp.careful (fun past db h => looking_see db h) ?_
    (fun e past h => h.refused hrow hopen e) h
  rintro past ev rfl h
  exact ⟨confirms_noop, unaltered_noop h.1, h.2⟩

/-- The photo of a confirmation. -/
private theorem careful_insertPhoto {itemId : Id}
    (hω : ∀ db, (view ω db).uploads.photos.get photoId = none →
      db.uploads.photos.get photoId = none) (h : Looking db₁ past) :
    (insertPhoto ⟨intentId, some sortOrder, some isCover⟩ itemId photoId).Careful
      (Observer.past (Confirms intentId photoId sortOrder isCover)) (Refused intentId)
      (fun r past _ => Looking db₁ past ∧ r.1.itemId = itemId ∧ r.1.uploadIntentId = intentId ∧
        r.1.sortOrder = sortOrder ∧ r.1.isCover = isCover ∧ (isCover = false → r.2.2 = []) ∧
          ∃ db, past.reads db ∧ db.uploads.photos.get photoId = none) past ω := by
  have hinsert : ∀ (counted cleared : List Id) (past : Past Sys)
      (ω : List (Database → Database)), (isCover = false → cleared = []) → Looking db₁ past →
      (∀ db, (view ω db).uploads.photos.get photoId = none →
        db.uploads.photos.get photoId = none) →
      ((insertUnique [.photoRow photoId, .photoIntent intentId]
        (fun db => (db.uploads.photos.get photoId).isSome || (db.photoOfIntent intentId).isSome)
        (.internal "Unique constraint failed: item_photos")
        fun db => { db with uploads := { db.uploads with
          photos := db.uploads.photos.insert photoId
            ⟨itemId, intentId, none, none, none, sortOrder, isCover⟩ } } : Prog Sys Unit).bind
        fun _ => .ret ((⟨itemId, intentId, none, none, none, sortOrder, isCover⟩ : ItemPhoto),
          counted, cleared)).Careful
        (Observer.past (Confirms intentId photoId sortOrder isCover)) (Refused intentId)
        (fun r past _ => Looking db₁ past ∧ r.1.itemId = itemId ∧ r.1.uploadIntentId = intentId ∧
          r.1.sortOrder = sortOrder ∧ r.1.isCover = isCover ∧ (isCover = false → r.2.2 = []) ∧
            ∃ db, past.reads db ∧ db.uploads.photos.get photoId = none) past ω := by
    intro counted cleared past ω hcleared h hω
    rw [careful_bind]
    refine careful_insertUnique _ _ _ _ (fun db _ => (looking_see db h).refused hrow hopen _) ?_
    intro db hfree
    simp only [Bool.or_eq_false_iff, Option.isSome_eq_false_iff, Option.isNone_iff_eq_none] at hfree
    exact ⟨looking_see db h, rfl, rfl, rfl, rfl, hcleared, db, Or.inr rfl, hω db hfree.1⟩
  simp only [insertPhoto, Prog.bind_eq, careful_bind, careful_select, Option.getD_some]
  intro db
  refine careful_lift (fun e _ => (looking_see db h).refused hrow hopen e) fun _ _ => ?_
  cases isCover with
  | true =>
    intro db₂
    refine hinsert _ _ _ _ (by simp) (looking_see db₂ (looking_see db h)) ?_
    intro db₃ hnone
    refine hω db₃ ?_
    rw [view_append, view_cons, view_nil] at hnone
    simpa [Table.get_mapRows] using hnone
  | false => exact hinsert _ [] _ _ (fun _ => rfl) (looking_see db h) hω

end Open

private theorem hasPhoto_of_photoOfIntent {j : Past Sys → Event → Prop} {db : Database}
    {r : Id × ItemPhoto} (h : db.photoOfIntent intentId = some r) :
    HasPhoto intentId ((Observer.past j).see past db) := by
  have hid := List.find?_some h
  refine Or.inl ⟨db, Or.inr rfl, r.1, r.2.row, ?_, of_decide_eq_true hid⟩
  have hget : db.uploads.photos.get r.1 = some r.2 :=
    Table.get_eq_some.mpr (List.mem_of_find?_eq_some h)
  rw [Database.photoRow, hget, Option.map_some]

private theorem no_photo_of_photoOfIntent {db : Database}
    (h : db.photoOfIntent intentId = none) (k : Id) (r : PhotoRow) (hr : db.photoRow k = some r) :
    r.uploadIntentId ≠ intentId := by
  obtain ⟨p, hp, rfl⟩ := Option.map_eq_some_iff.mp hr
  have hnone := List.find?_eq_none.mp h (k, p) (Table.get_eq_some.mp hp)
  rw [beq_iff_eq] at hnone
  exact hnone

private theorem refused_of_status {e : Error} (h : Unaltered past) (he : e.status ≠ .badRequest) :
    Refused intentId e past := ⟨h, fun hbad => absurd hbad he⟩

private theorem eq_of_required {α : Type} {x : Option α} {e e' : Error}
    (h : required x e = .error e') : x = none ∧ e' = e := by
  cases x with
  | none =>
    cases h
    exact ⟨rfl, rfl⟩
  | some a => cases h

/-- **A confirmation** makes its photo once, or answers with the one that it has found. -/
theorem careful_confirmItemPhotoUpload (userId : Id) :
    (confirmItemPhotoUpload userId ⟨intentId, some sortOrder, some isCover⟩ photoId).Careful
      (Observer.past (Confirms intentId photoId sortOrder isCover)) (Refused intentId)
      (fun _ past _ => HasPhoto intentId past)
      (Observer.past (Confirms intentId photoId sortOrder isCover)).start [] := by
  have hstart : ∀ db, Looking db ((Observer.past (Confirms intentId photoId sortOrder
      isCover)).see (Observer.past (Confirms intentId photoId sortOrder isCover)).start db) :=
    fun db => ⟨fun _ hev => hev.elim, Or.inr rfl⟩
  unfold confirmItemPhotoUpload
  simp only [Prog.bind_eq, careful_bind, careful_select, view_nil]
  intro db₁
  refine careful_lift (fun e he => ?_) fun intent hintent => ?_
  · obtain ⟨-, rfl⟩ := eq_of_required he
    exact refused_of_status (hstart db₁).1 (by decide)
  rw [required_eq_ok, Option.filter_eq_some_iff] at hintent
  have hrow := hintent.1
  refine careful_lift (fun e he => ⟨(hstart db₁).1, fun _ => ⟨db₁, Or.inr rfl, Or.inl
    ⟨intent, hrow, Or.inr fun hok => by rw [hok] at he; cases he⟩⟩⟩) fun _ hbinding => ?_
  simp only [ensureOwnedItem, Prog.bind_eq, careful_bind, careful_select]
  intro db₂
  refine careful_lift (fun e he => ?_) fun _ _ => ?_
  · obtain ⟨-, rfl⟩ := eq_of_required he
    exact refused_of_status (hstart db₁).1 (by decide)
  have hlooking := looking_see (j := Confirms intentId photoId sortOrder isCover) db₂ (hstart db₁)
  cases hconfirmed : intent.confirmedAt.isSome with
  | true =>
    simp only [if_true, careful_pure, careful_bind, careful_select, view_nil]
    intro db₃
    refine careful_lift (fun e he => ?_) fun r hr => ?_
    · obtain ⟨hnone, rfl⟩ := eq_of_required he
      exact ⟨hlooking.1, fun _ => ⟨db₃, Or.inr rfl, Or.inr (no_photo_of_photoOfIntent hnone)⟩⟩
    · rw [required_eq_ok] at hr
      exact hasPhoto_of_photoOfIntent hr
  | false =>
    have hopen : intent.confirmedAt = none := by
      rwa [Option.isSome_eq_false_iff, Option.isNone_iff_eq_none] at hconfirmed
    simp only [Bool.false_eq_true, if_false, careful_pure, careful_bind]
    refine (careful_looking hrow hopen (looks_ensureNoUnfinishedBookings _) hlooking).mono ?_
    rintro seen past ω ⟨h, rfl⟩
    simp only [clock, careful_call]
    refine ⟨confirms_noop, fun w => ?_⟩
    have h₁ : Looking db₁ ((Observer.past (Confirms intentId photoId sortOrder isCover)).act past
      .noop) := ⟨unaltered_noop h.1, h.2⟩
    refine careful_lift (fun e _ => h₁.refused hrow hopen e) fun _ _ => ?_
    refine (careful_looking hrow hopen
      (looks_ensureUploadedObject (E := (· = Event.noop)) rfl _) h₁).mono ?_
    rintro _ past ω ⟨h, rfl⟩
    refine ⟨confirms_noop, fun w => ?_⟩
    have h₂ : Looking db₁ ((Observer.past (Confirms intentId photoId sortOrder isCover)).act past
      .noop) := ⟨unaltered_noop h.1, h.2⟩
    refine careful_updateEither _ _ _ fun db₃ consumed => ?_
    have h₃ := looking_see (j := Confirms intentId photoId sortOrder isCover) db₃ h₂
    cases consumed with
    | true =>
      simp only [if_true, careful_bind]
      refine (careful_insertPhoto hrow hopen (fun db hnone => ?_) h₃).mono ?_
      · rw [List.nil_append, view_cons, view_nil] at hnone
        exact hnone
      rintro ⟨photo, counted, cleared⟩ past ω ⟨h, hitem, hintent, horder, hcover, hcleared, hnew⟩
      simp only [careful_call, careful_write, careful_commit]
      refine ⟨confirms_noop, fun w' db₄ => ⟨fun _ => ⟨unaltered_noop
        (j := Confirms intentId photoId sortOrder isCover) h.1, ?_⟩, fun hno => ?_,
        fun w'' => Or.inr ⟨_, Or.inl (Or.inr rfl), rfl⟩⟩⟩
      · refine ⟨photo, _, _, _, _, _, rfl, hintent, horder, hcover, hcleared, ?_, ?_⟩
        · exact ⟨db₁, Or.inl h.2, intent, hrow, hbinding, hitem⟩
        · obtain ⟨db, hread, hnone⟩ := hnew
          exact ⟨db, Or.inl hread, hnone⟩
      · cases hno
    | false =>
      simp only [Bool.false_eq_true, if_false, careful_bind, careful_select, careful_commit,
        List.nil_append, view_cons, view_nil, id_eq]
      intro db₄
      refine careful_lift (fun e _ => (looking_see db₄ h₃).refused hrow hopen e) fun r hr => ?_
      rw [required_eq_ok] at hr
      refine ⟨confirms_noop, ?_⟩
      rcases hasPhoto_of_photoOfIntent hr with hread | ⟨ev, hev, halters⟩
      · exact Or.inl hread
      · exact Or.inr ⟨ev, Or.inl hev, halters⟩

end Confirm

end UploadService

end Sosedi
