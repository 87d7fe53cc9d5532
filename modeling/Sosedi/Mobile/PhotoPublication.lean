import Sosedi.Mobile.PhotoUploads
import Sosedi.Scripts

/-!
# Every chosen photo is published once

A lender creates an item and chooses files; the app uploads them while other clients use the
server.  Answers may be lost, the server may stop in the middle of a request, the app may fail
and try again; meanwhile nobody else touches the photos of the item.

Proved here:

* `Kept.published`, `Kept.hasPhotoOf`: what others do leaves the publication alone;
* `Informed.see`, `Informed.act`: what a request has seen remains true until it makes its photo;
* `Publishing.step`: every move keeps the invariant;
* `photos_published_once`: at any time the item has at most one photo of each file, in order, the
  first one the cover; when the app reports success it has exactly one of each.
-/

namespace Sosedi

open Async Transactions

namespace Database

variable (db : Database)

def HasPhotoOf (intentId : Id) : Prop :=
  ∃ k r, db.photoRow k = some r ∧ r.uploadIntentId = intentId

/-- An intent for a photo of the item; it is well formed if it has a photo. -/
def Intended (itemId intentId : Id) : Prop :=
  ∃ intent, db.uploads.issued.get intentId = some intent ∧ intent.entityId = itemId ∧
    (db.HasPhotoOf intentId → UploadService.ensureItemPhotoIntentBinding intent = .ok ())

/-- The item has these photos, of these intents, each at its position; the first is the cover. -/
structure Published (itemId : Id) (ks : List (Id × Id)) : Prop where
  complete : ∀ k r, db.photoRow k = some r → r.itemId = itemId →
    ∃ (j : Nat) (intentId : Id), ks[j]? = some (k, intentId)
  rows : ∀ (j : Nat) (k intentId : Id), ks[j]? = some (k, intentId) →
    db.photoRow k = some ⟨itemId, intentId, j, j == 0⟩

end Database

namespace Mobile

/-! ## What others do -/

/-- From `a` to `b` the photos of the item, of the intents in hand and under the id that was drawn
stay as they are, and intents remain. -/
structure Kept (itemId : Id) (held drawn : Id → Prop) (a b : Database) : Prop where
  rows : ∀ k, b.photoRow k = a.photoRow k ∨ ¬drawn k ∧
    ∀ r, a.photoRow k = some r ∨ b.photoRow k = some r → r.itemId ≠ itemId ∧ ¬held r.uploadIntentId
  issued : ∀ i r, a.uploads.issued.get i = some r → b.uploads.issued.get i = some r

namespace Kept

variable {itemId : Id} {held drawn : Id → Prop} {a b : Database} {intentId : Id}

theorem refl : Kept itemId held drawn a a := ⟨fun _ => Or.inl rfl, fun _ _ h => h⟩

theorem mono {held' drawn' : Id → Prop} (h : Kept itemId held drawn a b)
    (hheld : ∀ i, held' i → held i) (hdrawn : ∀ i, drawn' i → drawn i) :
    Kept itemId held' drawn' a b := by
  refine ⟨fun k => (h.rows k).imp_right fun ⟨hk, hother⟩ => ⟨fun hd => hk (hdrawn k hd), ?_⟩,
    h.issued⟩
  exact fun r hr => ⟨(hother r hr).1, fun hh => (hother r hr).2 (hheld _ hh)⟩

theorem row_iff (h : Kept itemId held drawn a b) {k : Id} {r : PhotoRow}
    (hr : r.itemId = itemId ∨ held r.uploadIntentId) :
    b.photoRow k = some r ↔ a.photoRow k = some r := by
  rcases h.rows k with heq | ⟨-, hother⟩
  · rw [heq]
  · constructor <;> intro hk
    · have hne := hother r (Or.inr hk)
      exact absurd hr (by simp [hne.1, hne.2])
    · have hne := hother r (Or.inl hk)
      exact absurd hr (by simp [hne.1, hne.2])

theorem published (h : Kept itemId held drawn a b) {ks : List (Id × Id)}
    (hp : a.Published itemId ks) : b.Published itemId ks := by
  refine ⟨fun k r hk hr => ?_, fun j k i hj => ?_⟩
  · exact hp.complete k r ((h.row_iff (Or.inl hr)).mp hk) hr
  · exact (h.row_iff (Or.inl rfl)).mpr (hp.rows j k i hj)

theorem hasPhotoOf (h : Kept itemId held drawn a b) (hheld : held intentId) :
    b.HasPhotoOf intentId ↔ a.HasPhotoOf intentId := by
  constructor <;> rintro ⟨k, r, hk, rfl⟩
  · exact ⟨k, r, (h.row_iff (Or.inr hheld)).mp hk, rfl⟩
  · exact ⟨k, r, (h.row_iff (Or.inr hheld)).mpr hk, rfl⟩

theorem intended (h : Kept itemId held drawn a b) (hheld : held intentId)
    (hi : a.Intended itemId intentId) : b.Intended itemId intentId := by
  obtain ⟨intent, hissued, hentity, hbinding⟩ := hi
  exact ⟨intent, h.issued _ _ hissued, hentity, fun hphoto =>
    hbinding ((h.hasPhotoOf hheld).mp hphoto)⟩

theorem photoRow (h : Kept itemId held drawn a b) {k : Id} (hk : drawn k) :
    b.photoRow k = a.photoRow k :=
  (h.rows k).resolve_right fun hother => hother.1 hk

end Kept

/-! ## What a request has seen -/

/-- What a confirmation knows. -/
structure ConfirmInformed (intentId drawn : Id) (past : Past Sys) (db : Database) : Prop where
  issued : ∀ db', past.reads db' → ∀ intent, db'.uploads.intents.get intentId = some intent →
    db.uploads.issued.get intentId = some { intent with confirmedAt := none }
  free : Unaltered past → ∀ db', past.reads db' → db'.uploads.photos.get drawn = none →
    db.photoRow drawn = none
  has : HasPhoto intentId past → db.HasPhotoOf intentId
  unsettled : Unaltered past → ∀ db', past.reads db' → Unsettled intentId db' →
    ¬db.HasPhotoOf intentId

/-- What a request knows. -/
def Informed (itemId drawn : Id) (w : PhotoWait) (past : Past Sys) (db : Database) : Prop :=
  match w.request with
  | .presign .. => ∀ intent, past.events (.upload (.issue drawn intent)) →
    db.Intended itemId drawn ∧ ¬db.HasPhotoOf drawn
  | .post .. => True
  | .confirm intentId => ConfirmInformed intentId drawn past db

section Informed

variable {sha256 : Bytes → String} {itemId drawn : Id} {w : PhotoWait} {past : Past Sys}
  {a b : Database} {held : Id → Prop} {j : Past Sys → Event → Prop}

theorem informed_start : Informed itemId drawn w (Observer.past j).start a := by
  obtain ⟨item, index, request⟩ := w
  cases request with
  | presign => exact fun _ hno => hno.elim
  | post => trivial
  | confirm intentId =>
    refine ⟨fun _ hno => hno.elim, fun _ _ hno => hno.elim, fun hno => ?_, fun _ _ hno => hno.elim⟩
    rcases hno with ⟨_, hno, -⟩ | ⟨_, hno, -⟩ <;> exact hno.elim

/-- Others leave it true. -/
theorem Informed.kept (h : Informed itemId drawn w past a)
    (hk : Kept itemId held (· = drawn) a b) (hdrawn : held drawn)
    (hheld : ∀ intentId, w.request = .confirm intentId → held intentId) :
    Informed itemId drawn w past b := by
  obtain ⟨item, index, request⟩ := w
  cases request with
  | presign contentType sizeBytes =>
    intro intent hev
    obtain ⟨hintended, hno⟩ := h intent hev
    exact ⟨hk.intended hdrawn hintended, fun hphoto => hno ((hk.hasPhotoOf hdrawn).mp hphoto)⟩
  | post => trivial
  | confirm intentId =>
    have hintent := hheld intentId rfl
    obtain ⟨hissued, hfree, hhas, hunsettled⟩ := h
    refine ⟨fun db' hread intent hget => hk.issued _ _ (hissued db' hread intent hget),
      fun hun db' hread hnone => ?_, fun hph => (hk.hasPhotoOf hintent).mpr (hhas hph),
      fun hun db' hread hopen hphoto => ?_⟩
    · rw [hk.photoRow rfl]
      exact hfree hun db' hread hnone
    · exact hunsettled hun db' hread hopen ((hk.hasPhotoOf hintent).mp hphoto)

/-- An intent that waits, or is malformed, has no photo. -/
theorem not_hasPhotoOf_of_unsettled {σ : Store} (hinv : UploadInv sha256 σ) {intentId : Id}
    (hintended : σ.1.Intended itemId intentId) (h : Unsettled intentId σ.1) :
    ¬σ.1.HasPhotoOf intentId := by
  intro hphoto
  obtain ⟨k, r, hk, rfl⟩ := id hphoto
  obtain ⟨p, hp, rfl⟩ := Option.map_eq_some_iff.mp hk
  rcases h with ⟨intent, hget, hopen | hmalformed⟩ | hnone
  · have hconfirmed := (hinv.photoIntent k p intent hp hget).1
    rw [hopen] at hconfirmed
    cases hconfirmed
  · obtain ⟨issued, hissued, -, hbinding⟩ := hintended
    have heq := hinv.issued _ _ hget
    rw [hissued, Option.some.injEq] at heq
    subst heq
    exact hmalformed (hbinding hphoto)
  · exact hnone k _ hk rfl

/-- What a request sees is true. -/
theorem Informed.see {σ : Store} (h : Informed itemId drawn w past σ.1)
    (hinv : UploadInv sha256 σ)
    (hintended : ∀ intentId, w.request = .confirm intentId → σ.1.Intended itemId intentId) :
    Informed itemId drawn w ((Observer.past j).see past σ.1) σ.1 := by
  obtain ⟨item, index, request⟩ := w
  cases request with
  | presign contentType sizeBytes => exact h
  | post => trivial
  | confirm intentId =>
    obtain ⟨hissued, hfree, hhas, hunsettled⟩ := h
    refine ⟨?_, ?_, ?_, ?_⟩
    · rintro db' (hread | rfl) intent hget
      · exact hissued db' hread intent hget
      · exact hinv.issued _ _ hget
    · rintro hun db' (hread | rfl) hnone
      · exact hfree hun db' hread hnone
      · rw [Database.photoRow, hnone, Option.map_none]
    · rintro (⟨db', hread | rfl, hrow⟩ | hev)
      · exact hhas (Or.inl ⟨db', hread, hrow⟩)
      · exact hrow
      · exact hhas (Or.inr hev)
    · rintro hun db' (hread | rfl) hopen
      · exact hunsettled hun db' hread hopen
      · exact not_hasPhotoOf_of_unsettled hinv (hintended intentId rfl) hopen

/-- An event that makes no photo leaves it true. -/
theorem Informed.act {ev : Sosedi.Event} (h : Informed itemId drawn w past a)
    (hquiet : ev.altersPhotos = false) (hk : Kept itemId held (· = drawn) a b) (hdrawn : held drawn)
    (hheld : ∀ intentId, w.request = .confirm intentId → held intentId)
    (hissue : ∀ contentType sizeBytes intent, w.request = .presign contentType sizeBytes →
      ev = .upload (.issue drawn intent) → b.Intended itemId drawn ∧ ¬b.HasPhotoOf drawn) :
    Informed itemId drawn w ((Observer.past j).act past ev) b := by
  have hkept := h.kept hk hdrawn hheld
  obtain ⟨item, index, request⟩ := w
  cases request with
  | presign contentType sizeBytes =>
    rintro intent (hev | rfl)
    · exact hkept intent hev
    · exact hissue contentType sizeBytes intent rfl rfl
  | post => trivial
  | confirm intentId =>
    obtain ⟨hissued, hfree, hhas, hunsettled⟩ := hkept
    refine ⟨hissued, fun hun => hfree fun ev' hev => hun ev' (Or.inl hev), ?_,
      fun hun => hunsettled fun ev' hev => hun ev' (Or.inl hev)⟩
    rintro (hrow | ⟨ev', hev | rfl, halters⟩)
    · exact hhas (Or.inl hrow)
    · exact hhas (Or.inr ⟨ev', hev, halters⟩)
    · rw [hquiet] at halters
      cases halters

end Informed

/-! ## What a request does -/

section Events

variable {sha256 : Bytes → String} {ev : Sosedi.Event} {K : List LockKey} {σ σ' : Store}
  {itemId drawn : Id} {held : Id → Prop}

theorem issued_kept (h : UploadStep sha256 ev K σ σ') (i : Id) (r : UploadIntent)
    (hr : σ.1.uploads.issued.get i = some r) : σ'.1.uploads.issued.get i = some r := by
  rw [h.uploads]
  exact Event.get_issued_of_get hr

theorem kept_of_quiet {taken : Id → Prop} (h : UploadStep sha256 ev K σ σ')
    (hquiet : ev.altersPhotos = false) : Kept itemId held taken σ.1 σ'.1 :=
  ⟨fun _ => Or.inl (photoRow_apply h hquiet), issued_kept h⟩

/-- An intent that was just issued has no photo. -/
theorem intended_of_issue {intent : UploadIntent}
    (h : UploadStep sha256 (.upload (.issue drawn intent)) K σ σ') (hinv : UploadInv sha256 σ)
    (hentity : intent.entityId = itemId) :
    σ'.1.Intended itemId drawn ∧ ¬σ'.1.HasPhotoOf drawn := by
  have hfree : σ.1.uploads.issued.get drawn = none := h.guard.1
  have hno : ¬σ'.1.HasPhotoOf drawn := by
    rintro ⟨k, r, hk, hr⟩
    rw [photoRow_apply h rfl] at hk
    obtain ⟨p, hp, rfl⟩ := Option.map_eq_some_iff.mp hk
    obtain ⟨issued, hissued⟩ := hinv.photoIssued k p hp
    rw [show p.uploadIntentId = drawn from hr, hfree] at hissued
    cases hissued
  refine ⟨⟨intent, ?_, hentity, fun hphoto => absurd hphoto hno⟩, hno⟩
  rw [h.uploads]
  simp [Event.applyUploads, Table.get_insert, hfree]

section Confirm

variable {intentId : Id} {photo : ItemPhoto} {c u : Time} {seen counted cleared : List Id}
  (h : UploadStep sha256 (.upload (.confirmPhoto intentId drawn photo c u seen counted cleared)) K
    σ σ')
include h

/-- A confirmation finds an open intent. -/
theorem not_hasPhotoOf_confirmed (hinv : UploadInv sha256 σ) : ¬σ.1.HasPhotoOf intentId := by
  rintro ⟨k, r, hk, rfl⟩
  obtain ⟨p, hp, rfl⟩ := Option.map_eq_some_iff.mp hk
  obtain ⟨⟨row, hrow, hopen, -⟩, -⟩ := h.guard
  have hconfirmed := (hinv.photoIntent k p row hp hrow).1
  rw [hopen] at hconfirmed
  cases hconfirmed

theorem hasPhotoOf_confirmed (hnew : σ.1.photoRow drawn = none)
    (hintent : photo.uploadIntentId = intentId) : σ'.1.HasPhotoOf intentId := by
  refine ⟨drawn, photo.row, ?_, hintent⟩
  rw [photoRow_confirm h (Option.map_eq_none_iff.mp hnew), if_pos rfl]

/-- The photo of a confirmation is the next one. -/
theorem published_confirmed {ks : List (Id × Id)} (hp : σ.1.Published itemId ks)
    (hnew : σ.1.photoRow drawn = none) (hphoto : photo.row = ⟨itemId, intentId, ks.length,
      ks.length == 0⟩) (hcleared : (ks.length == 0) = false → cleared = []) :
    σ'.1.Published itemId (ks ++ [(drawn, intentId)]) := by
  have hrow : ∀ k, σ'.1.photoRow k = _ := fun k =>
    photoRow_confirm (k := k) h (Option.map_eq_none_iff.mp hnew)
  constructor
  · intro k r hk hr
    rw [hrow] at hk
    by_cases hkd : k = drawn
    · subst hkd
      exact ⟨ks.length, intentId, by simp⟩
    · rw [if_neg hkd] at hk
      obtain ⟨r', hr', heq⟩ := Option.map_eq_some_iff.mp hk
      have hitem : r'.itemId = itemId := by
        rw [← hr, ← heq]
        split <;> rfl
      obtain ⟨j, i, hj⟩ := hp.complete k r' hr' hitem
      exact ⟨j, i, by rw [List.getElem?_append_left (List.getElem?_eq_some_iff.mp hj).1, hj]⟩
  · intro j k i hj
    rcases Nat.lt_or_ge j ks.length with hlt | hge
    · rw [List.getElem?_append_left hlt] at hj
      have hold := hp.rows j k i hj
      have hkd : k ≠ drawn := by
        rintro rfl
        rw [hnew] at hold
        cases hold
      have hnil : cleared = [] := hcleared (beq_eq_false_iff_ne.mpr (by omega))
      rw [hrow, if_neg hkd, hold, hnil]
      rfl
    · have hj' := hj
      rw [List.getElem?_append_right hge] at hj
      have hlen : j = ks.length := by
        have hlt := (List.getElem?_eq_some_iff.mp hj').1
        simp only [List.length_append, List.length_singleton] at hlt
        omega
      subst hlen
      rw [Nat.sub_self, List.getElem?_cons_zero, Option.some.injEq, Prod.mk.injEq] at hj
      rw [hrow, if_pos hj.1.symm, ← hj.2, hphoto]

end Confirm

end Events

/-! ## The app -/

/-- The request is the next one. -/
def Fits (itemId : Id) (c : CreateItemController) (w : PhotoWait) : Prop :=
  w.itemId = itemId ∧ w.index = c.photoProgress.completed ∧
    match w.request with
    | .confirm intentId => c.photoProgress.pendingConfirmation = some intentId
    | _ => c.photoProgress.pendingConfirmation = none

/-- The app waits for at most one request; it reports success after the last file. -/
structure AppInv (itemId : Id) (files : List XFile) (k : Config CreateItemController PhotoWait) :
    Prop where
  photos : k.state.photos = files
  bound : k.state.photoProgress.completed ≤ files.length
  pending : k.state.photoProgress.pendingConfirmation.isSome →
    k.state.photoProgress.completed < files.length
  waits : (∃ failed, k.state.state = some ⟨itemId, false, failed⟩ ∧ k.waits = [] ∧
      (failed = false → k.state.photoProgress.completed = files.length)) ∨
    ∃ w, k.state.state = some ⟨itemId, true, false⟩ ∧ k.waits = [w] ∧ Fits itemId k.state w ∧
      k.state.photoProgress.completed < files.length

section App

open CreateItemController

variable {toLowerCase : String → String} {itemId : Id} {files : List XFile}
  {c c' : CreateItemController} {ws : List PhotoWait}

/-- The request posts a file for this intent. -/
def PhotoWait.Posts (w : PhotoWait) (intentId : Id) : Prop :=
  ∃ key bytes contentType, w.request = .post intentId key bytes contentType

theorem AppInv.uploadPhotos (h : uploadPhotos toLowerCase itemId c = (c', ws))
    (hphotos : c.photos = files) (hstate : c.state = some ⟨itemId, true, false⟩)
    (hbound : c.photoProgress.completed ≤ files.length)
    (hpending : c.photoProgress.pendingConfirmation.isSome →
      c.photoProgress.completed < files.length) :
    AppInv itemId files ⟨c', ws⟩ ∧ c'.photoProgress = c.photoProgress ∧
      ∀ w ∈ ws, ∀ intentId, ¬w.Posts intentId := by
  rcases uploadPhotos_cases h with ⟨hle, rfl, rfl⟩ | ⟨hnone, rfl, rfl⟩ |
    ⟨hlt, rfl, request, rfl, hrequest⟩
  · refine ⟨⟨hphotos, hbound, hpending, Or.inl ⟨false, rfl, rfl, fun _ => ?_⟩⟩, rfl, by simp⟩
    rw [hphotos] at hle
    exact Nat.le_antisymm hbound hle
  · exact ⟨⟨hphotos, hbound, hpending, Or.inl ⟨true, rfl, rfl, by simp⟩⟩, rfl, by simp⟩
  · rw [hphotos] at hlt
    refine ⟨⟨hphotos, hbound, hpending, Or.inr ⟨_, hstate, rfl, ⟨rfl, rfl, ?_⟩, hlt⟩⟩, rfl, ?_⟩
    · rcases hrequest with ⟨i, hi, rfl⟩ | ⟨hnone, _, _, rfl⟩
      · exact hi
      · exact hnone
    · intro w hw intentId hposts
      obtain ⟨key, bytes, contentType, hpost⟩ := hposts
      rw [List.mem_singleton.mp hw] at hpost
      rcases hrequest with ⟨_, -, rfl⟩ | ⟨-, _, _, rfl⟩ <;> cases hpost

/-- A failure leaves the progress. -/
theorem AppInv.photosFailed {k : Config CreateItemController PhotoWait}
    (h : AppInv itemId files k) :
    AppInv itemId files ⟨{ k.state with state := some ⟨itemId, false, true⟩ }, []⟩ :=
  ⟨h.photos, h.bound, h.pending, Or.inl ⟨true, rfl, rfl, by simp⟩⟩

theorem AppInv.created (h : created toLowerCase itemId files = (c, ws)) :
    AppInv itemId files ⟨c, ws⟩ ∧ c.photoProgress = ⟨0, none⟩ ∧
      ∀ w ∈ ws, ∀ intentId, ¬w.Posts intentId := by
  unfold CreateItemController.created at h
  dsimp only at h
  split at h
  · rename_i hempty
    obtain ⟨rfl, rfl⟩ := Prod.mk.inj h
    have hnil := List.isEmpty_iff.mp hempty
    subst hnil
    exact ⟨⟨rfl, Nat.le_refl _, by simp, Or.inl ⟨false, rfl, rfl, fun _ => rfl⟩⟩, rfl, by simp⟩
  · rename_i hempty
    refine AppInv.uploadPhotos h rfl ?_ (Nat.zero_le _) (by simp)
    simp [hempty]

end App

/-! ## The invariant -/

/-- As many photos as are completed, or one more, of the confirmation that is pending. -/
def Tally (itemId : Id) (g : ItemPhotoUploadProgress) (db : Database) : Prop :=
  ∃ ks, db.Published itemId ks ∧
    (ks.length = g.completed ∧
        (∀ intentId, g.pendingConfirmation = some intentId → ¬db.HasPhotoOf intentId) ∨
      ks.length = g.completed + 1 ∧
        ∃ intentId, g.pendingConfirmation = some intentId ∧ db.HasPhotoOf intentId)

/-- The intents in the hands of the app and of its request. -/
def Publication.Holds (p : Publication) (intentId : Id) : Prop :=
  p.app.state.photoProgress.pendingConfirmation = some intentId ∨
    (∃ w ∈ p.app.waits, w.Posts intentId) ∨ ∃ sv, p.serving = some sv ∧ sv.drawn = intentId

/-- What holds of the last request. -/
structure Serves (itemId : Id) (p : Publication) (sv : PhotoServing) : Prop where
  client : sv.client < p.server.threads.length
  item : sv.wait.itemId = itemId
  heard : sv.heard = true → p.app.waits = [sv.wait]
  stopped : sv.ending.isSome → ∃ a, (p.server.thread sv.client).prog = .ret a
  /-- It knows what it has seen, and goes on with care. -/
  careful : sv.ending = none → ∃ past, (p.server.thread sv.client).prog.Careful
    (Observer.past (sv.wait.allows sv.drawn)) sv.wait.refuses
    (fun _ past _ => sv.wait.returns sv.drawn past) past (p.server.thread sv.client).writes ∧
      Informed itemId sv.drawn sv.wait past p.server.db
  refused : sv.ending = some .refused → ∀ intentId, sv.wait.request = .confirm intentId →
    ¬p.server.db.HasPhotoOf intentId
  confirming : ∀ intentId, sv.wait.request = .confirm intentId →
    p.app.state.photoProgress.pendingConfirmation = some intentId ∧
      sv.wait.index = p.app.state.photoProgress.completed

structure Publishing (itemId : Id) (files : List XFile) (p : Publication) : Prop where
  app : AppInv itemId files p.app
  tally : Tally itemId p.app.state.photoProgress p.server.db
  pending : ∀ intentId, p.app.state.photoProgress.pendingConfirmation = some intentId →
    p.server.db.Intended itemId intentId
  posting : ∀ w ∈ p.app.waits, ∀ intentId, w.Posts intentId →
    p.server.db.Intended itemId intentId ∧ ¬p.server.db.HasPhotoOf intentId
  serving : ∀ sv, p.serving = some sv → Serves itemId p sv

section Steps

variable {sha256 : Bytes → String} {toLowerCase : String → String} {userId itemId : Id}
  {files : List XFile} {s₀ : State Sys} {p p' : Publication} {sv : PhotoServing}
  {server : State Sys}

theorem AppInv.not_posts {k : Config CreateItemController PhotoWait} (h : AppInv itemId files k)
    {intentId : Id} (hpending : k.state.photoProgress.pendingConfirmation = some intentId)
    (w : PhotoWait) (hw : w ∈ k.waits) (i : Id) : ¬w.Posts i := by
  rintro ⟨key, bytes, contentType, hpost⟩
  rcases h.waits with ⟨_, -, hnil, -⟩ | ⟨w', -, hone, ⟨-, -, hfits⟩, -⟩
  · rw [hnil] at hw
    exact absurd hw List.not_mem_nil
  · rw [hone] at hw
    rw [← List.mem_singleton.mp hw, hpost] at hfits
    rw [hpending] at hfits
    cases hfits

section Kept

variable {held drawn : Id → Prop} {b : Database}

theorem Tally.kept {g : ItemPhotoUploadProgress} {a : Database} (h : Tally itemId g a)
    (hk : Kept itemId held drawn a b)
    (hheld : ∀ intentId, g.pendingConfirmation = some intentId → held intentId) :
    Tally itemId g b := by
  obtain ⟨ks, hpublished, ⟨hlen, hno⟩ | ⟨hlen, intentId, hpending, hphoto⟩⟩ := h
  · exact ⟨ks, hk.published hpublished, Or.inl ⟨hlen, fun i hi hphoto =>
      hno i hi ((hk.hasPhotoOf (hheld i hi)).mp hphoto)⟩⟩
  · exact ⟨ks, hk.published hpublished, Or.inr ⟨hlen, intentId, hpending,
      (hk.hasPhotoOf (hheld intentId hpending)).mpr hphoto⟩⟩

/-- What is kept of the photos keeps the publication, when its request goes on. -/
theorem Publishing.kept (h : Publishing itemId files p)
    (hk : Kept itemId p.Holds drawn p.server.db server.db) {serving : Option PhotoServing}
    (hserving : ∀ sv, serving = some sv → Serves itemId { p with server, serving } sv) :
    Publishing itemId files { p with server, serving } := by
  refine ⟨h.app, h.tally.kept hk fun i hi => Or.inl hi, fun i hi => ?_, fun w hw i hposts => ?_,
    hserving⟩
  · exact hk.intended (Or.inl hi) (h.pending i hi)
  · have hheld : p.Holds i := Or.inr (Or.inl ⟨w, hw, hposts⟩)
    obtain ⟨hintended, hno⟩ := h.posting w hw i hposts
    exact ⟨hk.intended hheld hintended, fun hphoto => hno ((hk.hasPhotoOf hheld).mp hphoto)⟩

end Kept

/-- Other clients leave the publication alone. -/
theorem Publishing.other (h : Publishing itemId files p)
    (hk : Kept itemId p.Holds (fun k => ∃ sv, p.serving = some sv ∧ sv.drawn = k) p.server.db
      server.db)
    (hthread : ∀ sv, p.serving = some sv → server.thread sv.client = p.server.thread sv.client)
    (hlen : p.server.threads.length ≤ server.threads.length) :
    Publishing itemId files { p with server } := by
  refine h.kept hk fun sv hsv => ?_
  have hs := h.serving sv hsv
  have hconfirming : ∀ i, sv.wait.request = .confirm i → p.Holds i := fun i hi =>
    Or.inl (hs.confirming i hi).1
  refine ⟨Nat.lt_of_lt_of_le hs.client hlen, hs.item, hs.heard, ?_, fun hnone => ?_, ?_,
    hs.confirming⟩
  · rw [show (Publication.mk p.app server p.serving).server.thread sv.client = _ from
      hthread sv hsv]
    exact hs.stopped
  · obtain ⟨past, hcareful, hinformed⟩ := hs.careful hnone
    refine ⟨past, ?_, ?_⟩
    · rw [show (Publication.mk p.app server p.serving).server.thread sv.client = _ from
        hthread sv hsv]
      exact hcareful
    · refine hinformed.kept (hk.mono (fun _ => id) ?_) (Or.inr (Or.inr ⟨sv, hsv, rfl⟩)) hconfirming
      rintro k rfl
      exact ⟨sv, hsv, rfl⟩
  · exact fun hrefused i hi hphoto => hs.refused hrefused i hi
      ((hk.hasPhotoOf (hconfirming i hi)).mp hphoto)

/-! ## The request goes on -/

theorem advance_of_not_throw (h : ∀ e, (p.server.thread sv.client).prog ≠ .throw e) :
    sv.advance p.server = sv := by
  unfold PhotoServing.advance
  split
  · rename_i e hprog
    exact absurd hprog (h e)
  · rfl

/-- The commit of the photo. -/
theorem Publishing.confirmed (h : Publishing itemId files p) (hsv : p.serving = some sv)
    {past : Past Sys} (hinv : UploadInv sha256 p.server.store)
    (hinformed : Informed itemId sv.drawn sv.wait past p.server.db) {ev : Sosedi.Event}
    {K : List LockKey} (hstep : UploadStep sha256 ev K p.server.store server.store)
    (halters : ev.altersPhotos = true) (hallows : sv.wait.allows sv.drawn past ev) :
    Tally itemId p.app.state.photoProgress server.db ∧
      (∀ intentId, p.app.state.photoProgress.pendingConfirmation = some intentId →
        server.db.Intended itemId intentId) ∧
      (∀ w ∈ p.app.waits, ∀ intentId, ¬w.Posts intentId) ∧
      ∀ j, Informed itemId sv.drawn sv.wait ((Observer.past j).act past ev) server.db := by
  have hs := h.serving sv hsv
  cases hrequest : sv.wait.request with
  | presign =>
    simp only [PhotoWait.allows, hrequest] at hallows
    rw [hallows.1] at halters
    cases halters
  | post =>
    simp only [PhotoWait.allows, hrequest] at hallows
    rw [show ev.altersPhotos = false from hallows] at halters
    cases halters
  | confirm intentId =>
    simp only [PhotoWait.allows, hrequest] at hallows
    simp only [Informed, hrequest] at hinformed ⊢
    obtain ⟨hun, photo, c, u, seen, counted, cleared, rfl, hintent, horder, hcover, hcleared,
      ⟨db₁, hread₁, intent, hget, hbinding, hitem⟩, db₂, hread₂, hfree⟩ := hallows halters
    obtain ⟨hpending, hindex⟩ := hs.confirming intentId hrequest
    have hissued := hinformed.issued db₁ hread₁ intent hget
    have hnew := hinformed.free hun db₂ hread₂ hfree
    have hentity : intent.entityId = itemId := by
      obtain ⟨r, hr, hentity, -⟩ := h.pending intentId hpending
      rw [hissued, Option.some.injEq] at hr
      rw [← hentity, ← hr]
    have hno : ¬p.server.db.HasPhotoOf intentId := not_hasPhotoOf_confirmed hstep hinv
    have hphoto : server.db.HasPhotoOf intentId := hasPhotoOf_confirmed hstep hnew hintent
    refine ⟨?_, fun i hi => ?_, h.app.not_posts hpending, fun j => ?_⟩
    · obtain ⟨ks, hpublished, ⟨hlen, -⟩ | ⟨-, i, hi, hhas⟩⟩ := h.tally
      · refine ⟨ks ++ [(sv.drawn, intentId)], published_confirmed hstep hpublished hnew ?_ ?_,
          Or.inr ⟨by simp [hlen], intentId, hpending, hphoto⟩⟩
        · rw [ItemPhoto.row, hitem, hentity, hintent, horder, hcover, hindex, hlen]
        · rw [hlen, ← hindex]
          exact hcleared
      · rw [hpending, Option.some.injEq] at hi
        subst hi
        exact absurd hhas hno
    · rw [hpending, Option.some.injEq] at hi
      subst hi
      exact ⟨_, issued_kept hstep _ _ hissued, hentity, fun _ => hbinding⟩
    · have haltered : ¬Unaltered ((Observer.past j).act past (.upload (.confirmPhoto intentId
          sv.drawn photo c u seen counted cleared))) := by
        intro hun'
        have hfalse := hun' _ (Or.inr rfl)
        cases hfalse
      exact ⟨fun db' hread intent' hget' => issued_kept hstep _ _
        (hinformed.issued db' hread intent' hget'), fun hun' => absurd hun' haltered,
        fun _ => hphoto, fun hun' => absurd hun' haltered⟩

/-- **A node of the request.** -/
theorem Publishing.serve (hruns : Runs sha256 anyEvent s₀ p.server)
    (h : Publishing itemId files p) (hsv : p.serving = some sv)
    (hf : p.server.fire (.run sv.client) = some server) :
    Publishing itemId files { p with server, serving := some (sv.advance p.server) } := by
  have hs := h.serving sv hsv
  have hclient : sv.client < server.threads.length :=
    Nat.lt_of_lt_of_eq hs.client (State.length_of_advance hf).symm
  have hending : sv.ending = none := by
    cases hend : sv.ending with
    | none => rfl
    | some ending =>
      obtain ⟨a, hret⟩ := hs.stopped (by rw [hend]; rfl)
      simp [State.fire, State.advance, hret] at hf
  obtain ⟨past, hcareful, hinformed⟩ := hs.careful hending
  have hconfirming : ∀ i, sv.wait.request = .confirm i → p.Holds i := fun i hi =>
    Or.inl (hs.confirming i hi).1
  by_cases hthrow : ∃ e, (p.server.thread sv.client).prog = .throw e
  · -- it fails, and says so
    obtain ⟨e, hprog⟩ := hthrow
    have hdb : server.db = p.server.db := congrArg Prod.fst (State.store_of_event_none
      (by simp only [State.event, hprog]) hf)
    have hadvance : sv.advance p.server = { sv with
        ending := some (if e.status = .badRequest then .refused else .harmed) } := by
      simp only [PhotoServing.advance, hprog]
    rw [hprog] at hcareful
    rw [hadvance]
    have hk : Kept itemId p.Holds (fun _ => True) p.server.db server.db := by
      rw [hdb]
      exact .refl
    refine h.kept hk ?_
    rintro _ ⟨⟩
    refine ⟨hclient, hs.item, hs.heard, fun _ => ⟨(), ?_⟩, fun hno => ?_, ?_, hs.confirming⟩
    · have hnext := next_of_advance hf
      generalize server.thread sv.client = t at hnext ⊢
      cases hnext with
      | throw => rfl
      | lock hp | query hp | exec hp | commit hp | call hp =>
        rw [hprog] at hp
        cases hp
    · cases hno
    · intro hrefused i hi
      replace hi : sv.wait.request = .confirm i := hi
      simp only [Option.some.injEq] at hrefused
      split at hrefused
      · rename_i hbad
        have hrefused' : Refused i e past := by
          rw [← PhotoWait.refuses_confirm hi]
          exact hcareful
        obtain ⟨db', hread, hunsettled⟩ := hrefused'.2 hbad
        simp only [Informed, hi] at hinformed
        rw [show (Publication.mk p.app server _).server.db = _ from hdb]
        exact hinformed.unsettled hrefused'.1 db' hread hunsettled
      · cases hrefused
  · rw [not_exists] at hthrow
    rw [advance_of_not_throw hthrow]
    -- what is left of the request
    have hgo := ((next_of_advance hf).careful hcareful).resolve_right fun hno => by
      obtain ⟨-, e, hprog, -⟩ := hno
      exact hthrow e hprog
    have hserves : ∀ past', (server.thread sv.client).prog.Careful
        (Observer.past (sv.wait.allows sv.drawn)) sv.wait.refuses
        (fun _ past _ => sv.wait.returns sv.drawn past) past' (server.thread sv.client).writes →
        Informed itemId sv.drawn sv.wait past' server.db →
        Serves itemId { p with server, serving := some sv } sv := by
      intro past' hcareful' hinformed'
      refine ⟨hclient, hs.item, hs.heard, ?_, fun _ => ⟨past', hcareful', hinformed'⟩, ?_,
        hs.confirming⟩ <;> simp [hending]
    cases hev : p.server.event sv.client with
    | none =>
      have hdb : server.db = p.server.db := congrArg Prod.fst (State.store_of_event_none hev hf)
      have hk : Kept itemId p.Holds (fun _ => True) p.server.db server.db := by
        rw [hdb]
        exact .refl
      refine h.kept hk ?_
      rintro _ ⟨⟩
      refine hserves _ hgo ?_
      rw [hdb]
      rcases Observer.node_of_event_none (O := Observer.past (sv.wait.allows sv.drawn))
        (φ := past) hev hthrow with hsame | hsee
      · rw [hsame]
        exact hinformed
      · rw [hsee]
        exact hinformed.see (σ := p.server.store) hruns.inv.uploads fun i hi =>
          h.pending i (hs.confirming i hi).1
    | some ev =>
      obtain ⟨K, hg⟩ := hruns.sound.guar hev trivial hf
      have hallows := careful_event hcareful hev
      rw [Observer.node_of_event hev] at hgo
      by_cases halters : ev.altersPhotos = true
      · obtain ⟨htally, hpending, hposts, hinformed'⟩ :=
          h.confirmed hsv hruns.inv.uploads hinformed hg.uploads halters hallows
        refine ⟨h.app, htally, hpending, fun w hw i hi => absurd hi (hposts w hw i), ?_⟩
        rintro _ ⟨⟩
        exact hserves _ hgo (hinformed' _)
      · rw [Bool.not_eq_true] at halters
        have hk : Kept itemId (fun _ => True) (fun _ => True) p.server.db server.db :=
          kept_of_quiet hg.uploads halters
        refine h.kept (hk.mono (fun _ _ => trivial) fun _ => id) ?_
        rintro _ ⟨⟩
        refine hserves _ hgo (hinformed.act halters (hk.mono (fun _ => id) fun _ _ => trivial)
          trivial (fun _ _ => trivial) ?_)
        rintro contentType sizeBytes intent hrequest rfl
        refine intended_of_issue hg.uploads hruns.inv.uploads ?_
        simp only [PhotoWait.allows, hrequest] at hallows
        rw [(hallows.2 _ _ rfl).2, hs.item]

theorem Publishing.kill (h : Publishing itemId files p) (hsv : p.serving = some sv)
    (hf : p.server.fire (.crash sv.client) = some server) :
    Publishing itemId files
      { p with server, serving := some { sv with ending := some .harmed } } := by
  have hs := h.serving sv hsv
  simp only [State.fire, Option.some.injEq] at hf
  subst hf
  have hk : Kept itemId p.Holds (fun _ => True) p.server.db
    (p.server.setThread sv.client Thread.done).db := .refl
  refine h.kept hk ?_
  rintro _ ⟨⟩
  refine ⟨?_, hs.item, hs.heard, fun _ => ⟨(), ?_⟩, fun hno => ?_, fun hno => ?_, hs.confirming⟩
  · simpa [State.setThread] using hs.client
  · rw [State.thread_setThread, if_pos ⟨rfl, hs.client⟩]
    rfl
  · cases hno
  · cases hno

/-- The server takes up the request that is next. -/
theorem Publishing.deliver (h : Publishing itemId files p) {w : PhotoWait} {ws : List PhotoWait}
    (hwaits : p.app.waits = w :: ws) (uuid : String) (drawn : Id)
    (hf : p.server.fire (.start ((w.call userId uuid drawn).prog sha256)) = some server) :
    Publishing itemId files
      { p with server, serving := some ⟨p.server.threads.length, w, drawn, true, none⟩ } := by
  simp only [State.fire, Option.some.injEq] at hf
  subst hf
  have hk : Kept itemId p.Holds (fun _ => True) p.server.db (State.mk p.server.db p.server.world
    (p.server.threads ++ [⟨(w.call userId uuid drawn).prog sha256, [], []⟩])).db := .refl
  refine h.kept hk ?_
  rintro _ ⟨⟩
  rcases h.app.waits with ⟨_, -, hnil, -⟩ | ⟨w', -, hone, ⟨hitem, hindex, hfits⟩, -⟩
  · rw [hwaits] at hnil
    cases hnil
  · have hsame : w = w' ∧ ws = [] := by
      rw [hwaits] at hone
      simpa using hone
    obtain ⟨rfl, rfl⟩ := hsame
    refine ⟨by simp, hitem, fun _ => hwaits, fun hno => ?_, fun _ => ?_, fun hno => ?_, ?_⟩
    · cases hno
    · refine ⟨(Observer.past (w.allows drawn)).start, ?_, informed_start⟩
      have hthread : (State.thread { p.server with threads := p.server.threads ++
          [⟨(w.call userId uuid drawn).prog sha256, [], []⟩] } p.server.threads.length) =
          ⟨(w.call userId uuid drawn).prog sha256, [], []⟩ := by simp [State.thread]
      rw [hthread]
      exact w.careful_call userId uuid drawn
    · cases hno
    · intro i hi
      rw [show w.request = .confirm i from hi] at hfits
      exact ⟨hfits, hindex⟩

/-! ## The app goes on -/

theorem Serves.app (h : Serves itemId p sv) {app : Config CreateItemController PhotoWait}
    {serving : Option PhotoServing}
    (hprogress : app.state.photoProgress = p.app.state.photoProgress)
    (hheard : sv.heard = true → app.waits = [sv.wait]) :
    Serves itemId { p with app, serving } sv := by
  refine ⟨h.client, h.item, hheard, h.stopped, h.careful, h.refused, fun i hi => ?_⟩
  rw [show (Publication.mk app p.server serving).app.state.photoProgress = _ from hprogress]
  exact h.confirming i hi

/-- A request that was answered with success has done its work. -/
theorem Serves.returned (h : Serves itemId p sv) (hfinished : Finished p.server sv.client = true)
    (hending : sv.ending = none) :
    ∃ past, sv.wait.returns sv.drawn past ∧ Informed itemId sv.drawn sv.wait past p.server.db := by
  obtain ⟨past, hcareful, hinformed⟩ := h.careful hending
  refine ⟨past, ?_, hinformed⟩
  unfold Finished at hfinished
  split at hfinished
  · rename_i a hret
    rw [hret] at hcareful
    exact hcareful
  · cases hfinished

/-- The app has failed; the server may still be busy. -/
theorem Publishing.photosFailed (h : Publishing itemId files p) {serving : Option PhotoServing}
    (hserving : ∀ sv, serving = some sv → ∃ sv', p.serving = some sv' ∧
      sv = { sv' with heard := false }) :
    Publishing itemId files
      ⟨⟨{ p.app.state with state := some ⟨itemId, false, true⟩ }, []⟩, p.server, serving⟩ := by
  refine ⟨h.app.photosFailed, h.tally, h.pending, by simp, fun sv hsv => ?_⟩
  obtain ⟨sv', hsv', rfl⟩ := hserving sv hsv
  have hs := h.serving sv' hsv'
  refine ⟨hs.client, hs.item, fun hno => ?_, hs.stopped, hs.careful, hs.refused, hs.confirming⟩
  cases hno

/-- **An answer.** -/
theorem Publishing.answer (h : Publishing itemId files p) (hsv : p.serving = some sv)
    (hheard : sv.heard = true) {a : PhotoAnswer} (hreply : sv.reply p.server = some a)
    {c : CreateItemController} {ws : List PhotoWait}
    (hresume : CreateItemController.resume toLowerCase sv.wait a p.app.state = some (c, ws)) :
    Publishing itemId files ⟨⟨c, ws⟩, p.server, none⟩ := by
  have hs := h.serving sv hsv
  have hwaits := hs.heard hheard
  obtain ⟨hstate, ⟨hitem, hindex, hfits⟩, hlt⟩ : p.app.state.state = some ⟨itemId, true, false⟩ ∧
      Fits itemId p.app.state sv.wait ∧ p.app.state.photoProgress.completed < files.length := by
    rcases h.app.waits with ⟨_, -, hnil, -⟩ | ⟨w, hstate, hone, hfits, hlt⟩
    · rw [hwaits] at hnil
      cases hnil
    · rw [hwaits, List.cons.injEq] at hone
      rw [hone.1]
      exact ⟨hstate, hfits, hlt⟩
  have hnone : ∀ sv', (none : Option PhotoServing) = some sv' → Serves itemId
      ⟨⟨c, ws⟩, p.server, none⟩ sv' := fun _ hno => by cases hno
  obtain ⟨hfinished, hcase⟩ := PhotoServing.reply_cases hreply
  rcases resume_cases hresume with ⟨contentType, sizeBytes, i, key, file, hrequest, rfl, rfl, rfl⟩ |
    ⟨i, key, bytes, contentType, hrequest, rfl, rfl, rfl⟩ | ⟨i, hrequest, rfl, hupload⟩ |
    ⟨i, hrequest, rfl, rfl, rfl⟩ | ⟨hfailed, rfl, rfl⟩
  · -- the form for the file
    rw [hrequest] at hfits
    obtain ⟨hending, hdrawn⟩ : sv.ending = none ∧ i = sv.drawn := by
      rcases hcase with ⟨-, hno⟩ | ⟨-, hno⟩ | ⟨hending, ⟨_, _, _, -, heq⟩ | ⟨-, hno⟩⟩
      · cases hno
      · cases hno
      · cases heq
        exact ⟨hending, rfl⟩
      · cases hno
    subst hdrawn
    obtain ⟨past, hreturns, hinformed⟩ := hs.returned hfinished hending
    simp only [PhotoWait.returns, hrequest] at hreturns
    simp only [Informed, hrequest] at hinformed
    obtain ⟨intent, hev⟩ := hreturns
    refine ⟨⟨h.app.photos, h.app.bound, h.app.pending, Or.inr ⟨_, hstate, rfl,
      ⟨hitem, hindex, hfits⟩, hlt⟩⟩, h.tally, h.pending, ?_, hnone⟩
    rintro w hw i ⟨key', bytes', contentType', hpost⟩
    rw [List.mem_singleton.mp hw] at hpost
    cases hpost
    exact hinformed intent hev
  · -- the file is uploaded: from here on its confirmation is pending
    rw [hrequest] at hfits
    obtain ⟨hintended, hno⟩ := h.posting sv.wait (by rw [hwaits]; exact List.mem_singleton.mpr rfl)
      i ⟨key, bytes, contentType, hrequest⟩
    refine ⟨⟨h.app.photos, h.app.bound, fun _ => hlt, Or.inr ⟨_, hstate, rfl,
      ⟨hitem, hindex, rfl⟩, hlt⟩⟩, ?_, fun i' hi' => ?_, ?_, hnone⟩
    · obtain ⟨ks, hpublished, ⟨hlen, -⟩ | ⟨-, i', hi', -⟩⟩ := h.tally
      · refine ⟨ks, hpublished, Or.inl ⟨hlen, fun i' hi' => ?_⟩⟩
        cases hi'
        exact hno
      · rw [hfits] at hi'
        cases hi'
    · cases hi'
      exact hintended
    · rintro w hw i' ⟨_, _, _, hpost⟩
      rw [List.mem_singleton.mp hw] at hpost
      cases hpost
  · -- the photo is there, so it is completed
    rw [hrequest] at hfits
    have hending : sv.ending = none := by
      rcases hcase with ⟨-, hno⟩ | ⟨-, hno⟩ | ⟨hending, -⟩
      · cases hno
      · cases hno
      · exact hending
    obtain ⟨past, hreturns, hinformed⟩ := hs.returned hfinished hending
    simp only [PhotoWait.returns, hrequest] at hreturns
    simp only [Informed, hrequest] at hinformed
    have hphoto := hinformed.has hreturns
    rw [hitem] at hupload
    obtain ⟨happ, hprogress, hposts⟩ := AppInv.uploadPhotos hupload h.app.photos hstate hlt
      (by simp)
    refine ⟨happ, ?_, fun i' hi' => ?_, fun w hw i' hi' => absurd hi' (hposts w hw i'), hnone⟩
    · obtain ⟨ks, hpublished, ⟨-, hno⟩ | ⟨hlen, -⟩⟩ := h.tally
      · exact absurd hphoto (hno i hfits)
      · refine ⟨ks, hpublished, Or.inl ?_⟩
        rw [hprogress]
        exact ⟨hlen, by simp⟩
    · rw [hprogress] at hi'
      cases hi'
  · -- it is not, and will not be
    rw [hrequest] at hfits
    have hno : ¬p.server.db.HasPhotoOf i := by
      rcases hcase with ⟨hrefused, -⟩ | ⟨-, hno⟩ | ⟨-, ⟨_, _, _, -, hno⟩ | ⟨-, hno⟩⟩
      · exact hs.refused hrefused i hrequest
      all_goals cases hno
    refine ⟨⟨h.app.photos, h.app.bound, by simp, Or.inl ⟨true, by rw [hitem], rfl, by simp⟩⟩, ?_,
      by simp, by simp, hnone⟩
    obtain ⟨ks, hpublished, ⟨hlen, -⟩ | ⟨-, i', hi', hphoto⟩⟩ := h.tally
    · exact ⟨ks, hpublished, Or.inl ⟨hlen, by simp⟩⟩
    · rw [hfits, Option.some.injEq] at hi'
      subst hi'
      exact absurd hphoto hno
  · rw [hitem]
    exact h.photosFailed fun _ hno => by cases hno

theorem Publishing.lose (h : Publishing itemId files p) {w : PhotoWait} {ws : List PhotoWait}
    (hwaits : p.app.waits = w :: ws) {app : Config CreateItemController PhotoWait}
    (hstep : (publicationLoop toLowerCase).step (.answer w .failed) p.app = some app) :
    Publishing itemId files
      { p with app, serving := p.serving.map ({ · with heard := false }) } := by
  obtain ⟨c, new, -, hresume, rfl⟩ := Loop.step_answer hstep
  obtain ⟨hitem, hnil⟩ : w.itemId = itemId ∧ ws = [] := by
    rcases h.app.waits with ⟨_, -, hnil, -⟩ | ⟨w', -, hone, ⟨hitem, -⟩, -⟩
    · rw [hwaits] at hnil
      cases hnil
    · rw [hwaits, List.cons.injEq] at hone
      exact ⟨hone.1 ▸ hitem, hone.2⟩
  rcases resume_cases hresume with ⟨_, _, _, _, _, -, hno, -⟩ | ⟨_, _, _, _, -, hno, -⟩ |
    ⟨_, -, hno, -⟩ | ⟨_, -, hno, -⟩ | ⟨-, rfl, rfl⟩
  · cases hno
  · cases hno
  · cases hno
  · cases hno
  · rw [hwaits, hnil, List.erase_cons_head, List.append_nil, hitem]
    refine h.photosFailed fun sv hsv => ?_
    obtain ⟨sv', hsv', rfl⟩ := Option.map_eq_some_iff.mp hsv
    exact ⟨sv', hsv', rfl⟩

theorem Publishing.retry (h : Publishing itemId files p)
    {app : Config CreateItemController PhotoWait}
    (hstep : (publicationLoop toLowerCase).step (.call .retryPhotos) p.app = some app) :
    Publishing itemId files { p with app } := by
  have heq := Loop.step_call hstep
  simp only [publicationLoop] at heq
  rcases retryPhotos_cases toLowerCase p.app.state with hsame |
    ⟨current, hcurrent, hidle, hretry⟩
  · rw [hsame, List.append_nil] at heq
    rw [heq]
    exact h
  · rcases h.app.waits with ⟨failed, hstate, hnil, -⟩ | ⟨w, hstate, -, -, -⟩
    · rw [hcurrent, Option.some.injEq] at hstate
      subst hstate
      rw [hretry, hnil, List.nil_append] at heq
      generalize hupload : CreateItemController.uploadPhotos toLowerCase itemId _ = r at heq
      obtain ⟨c, ws⟩ := r
      obtain ⟨happ, hprogress, hposts⟩ := AppInv.uploadPhotos hupload h.app.photos rfl h.app.bound
        h.app.pending
      replace hprogress : c.photoProgress = p.app.state.photoProgress := hprogress
      subst heq
      refine ⟨happ, ?_, ?_, fun w hw i hi => absurd hi (hposts w hw i), fun sv hsv => ?_⟩
      · rw [hprogress]
        exact h.tally
      · rw [hprogress]
        exact h.pending
      · refine (h.serving sv hsv).app hprogress fun hheard => ?_
        have hwaits := (h.serving sv hsv).heard hheard
        rw [hnil] at hwaits
        cases hwaits
    · rw [hcurrent, Option.some.injEq] at hstate
      subst hstate
      cases hidle

end Steps

/-! ## Runs -/

/-- Nobody else touches the photos of the item, or those of an intent that the app holds. -/
def LeavesPhotosOf (itemId : Id) (p : Publication) (db : Database) : Prop :=
  ∀ k, db.photoRow k = p.server.db.photoRow k ∨ (¬∃ sv, p.serving = some sv ∧ sv.drawn = k) ∧
    ∀ r, p.server.db.photoRow k = some r ∨ db.photoRow k = some r →
      r.itemId ≠ itemId ∧ ¬p.Holds r.uploadIntentId

/-- The move of another client is one of the system. -/
def Permitted (sha256 : Bytes → String) (itemId : Id) (p p' : Publication) :
    PublicationMove → Prop
  | .other m => p.server.Admits (Calls sha256) (fun _ _ => True) m ∧
    (∀ sv, p.serving = some sv → m ≠ .run sv.client ∧ m ≠ .crash sv.client) ∧
      LeavesPhotosOf itemId p p'.server.db
  | _ => True

/-- The runs of a publication: of app and server together. -/
inductive PublicationRuns (sha256 : Bytes → String) (toLowerCase : String → String)
    (userId itemId : Id) (p₀ : Publication) : Publication → Prop where
  | refl : PublicationRuns sha256 toLowerCase userId itemId p₀ p₀
  | step {p p' : Publication} (m : PublicationMove)
      (h : PublicationRuns sha256 toLowerCase userId itemId p₀ p)
      (hm : Permitted sha256 itemId p p' m) (hf : p.fire sha256 toLowerCase userId m = some p') :
      PublicationRuns sha256 toLowerCase userId itemId p₀ p'

/-- The item was just created. -/
structure Created (sha256 : Bytes → String) (toLowerCase : String → String) (itemId : Id)
    (files : List XFile) (s₀ : State Sys) (p : Publication) : Prop where
  server : Runs sha256 anyEvent s₀ p.server
  photos : ∀ k r, p.server.db.photoRow k = some r → r.itemId ≠ itemId
  app : CreateItemController.created toLowerCase itemId files = (p.app.state, p.app.waits)
  serving : p.serving = none

section Runs

variable {sha256 : Bytes → String} {toLowerCase : String → String} {userId itemId : Id}
  {files : List XFile} {s₀ : State Sys} {p₀ p p' : Publication} {m : PublicationMove}

/-- **Every move keeps the invariant**, and goes on with the run of the server. -/
theorem Publishing.step (hruns : Runs sha256 anyEvent s₀ p.server)
    (h : Publishing itemId files p) (hm : Permitted sha256 itemId p p' m)
    (hf : p.fire sha256 toLowerCase userId m = some p') :
    Runs sha256 anyEvent s₀ p'.server ∧ Publishing itemId files p' := by
  have hgo : ∀ (m : Move Sys) (server : State Sys), p.server.Admits (Calls sha256) anyEvent m →
      p.server.fire m = some server → Runs sha256 anyEvent s₀ server := fun m server hm hf =>
    hruns.trans (.step m .refl hm hf)
  cases m with
  | deliver uuid drawn =>
    simp only [Publication.fire] at hf
    split at hf
    · rename_i w ws hwaits
      split at hf
      · obtain ⟨server, hserver, rfl⟩ := Option.map_eq_some_iff.mp hf
        exact ⟨hgo (.start _) _ ⟨_, rfl⟩ hserver, h.deliver hwaits uuid drawn hserver⟩
      · cases hf
    · cases hf
  | serve =>
    obtain ⟨sv, hsv, hf⟩ := Option.bind_eq_some_iff.mp hf
    obtain ⟨server, hserver, rfl⟩ := Option.map_eq_some_iff.mp hf
    exact ⟨hgo (.run _) _ (fun _ _ => trivial) hserver, h.serve hruns hsv hserver⟩
  | kill =>
    obtain ⟨sv, hsv, hf⟩ := Option.bind_eq_some_iff.mp hf
    obtain ⟨server, hserver, rfl⟩ := Option.map_eq_some_iff.mp hf
    exact ⟨hgo (.crash _) _ trivial hserver, h.kill hsv hserver⟩
  | answer =>
    obtain ⟨sv, hsv, hf⟩ := Option.bind_eq_some_iff.mp hf
    split at hf
    · rename_i hheard
      obtain ⟨a, hreply, hf⟩ := Option.bind_eq_some_iff.mp hf
      obtain ⟨app, hstep, rfl⟩ := Option.map_eq_some_iff.mp hf
      obtain ⟨c, ws, -, hresume, rfl⟩ := Loop.step_answer hstep
      have hwaits := (h.serving sv hsv).heard hheard
      refine ⟨hruns, ?_⟩
      rw [hwaits, List.erase_cons_head, List.nil_append]
      exact h.answer hsv hheard hreply hresume
    · cases hf
  | lose =>
    simp only [Publication.fire] at hf
    split at hf
    · rename_i w ws hwaits
      obtain ⟨app, hstep, rfl⟩ := Option.map_eq_some_iff.mp hf
      exact ⟨hruns, h.lose hwaits hstep⟩
    · cases hf
  | retry =>
    simp only [Publication.fire] at hf
    obtain ⟨app, hstep, rfl⟩ := Option.map_eq_some_iff.mp hf
    exact ⟨hruns, h.retry hstep⟩
  | other m =>
    obtain ⟨server, hserver, rfl⟩ := Option.map_eq_some_iff.mp hf
    obtain ⟨hadmits, hothers, hleaves⟩ := hm
    refine ⟨hgo m server hadmits hserver, h.other ⟨hleaves, fun i r hr => ?_⟩ (fun sv hsv => ?_) ?_⟩
    · rcases hruns.event_step hadmits hserver with heq | ⟨_, ev, K, -, -, -, hg⟩
      · rw [show server.db = p.server.db from congrArg Prod.fst heq]
        exact hr
      · exact issued_kept hg.uploads i r hr
    · obtain ⟨hrun, hcrash⟩ := hothers sv hsv
      have hlt := (h.serving sv hsv).client
      cases m with
      | start q =>
        simp only [State.fire, Option.some.injEq] at hserver
        subst hserver
        simp only [State.thread, List.getD_eq_getElem?_getD, List.getElem?_append_left hlt]
      | run i =>
        refine State.thread_of_advance hserver fun hi => hrun ?_
        rw [hi]
      | crash i =>
        simp only [State.fire, Option.some.injEq] at hserver
        subst hserver
        rw [State.thread_setThread, if_neg]
        rintro ⟨rfl, -⟩
        exact hcrash rfl
    · cases m with
      | start q =>
        simp only [State.fire, Option.some.injEq] at hserver
        subst hserver
        simp
      | run i => exact Nat.le_of_eq (State.length_of_advance hserver).symm
      | crash i =>
        simp only [State.fire, Option.some.injEq] at hserver
        subst hserver
        simp [State.setThread]

theorem Created.publishing (h : Created sha256 toLowerCase itemId files s₀ p) :
    Publishing itemId files p := by
  obtain ⟨happ, hprogress, hposts⟩ := AppInv.created h.app
  refine ⟨happ, ⟨[], ⟨fun k r hk hr => absurd hr (h.photos k r hk), fun j k i hj => by
    simp at hj⟩, Or.inl ⟨?_, ?_⟩⟩, fun i hi => ?_, fun w hw i hi => absurd hi (hposts w hw i),
    fun sv hsv => ?_⟩
  · rw [hprogress]
    rfl
  · rw [hprogress]
    simp
  · rw [hprogress] at hi
    cases hi
  · rw [h.serving] at hsv
    cases hsv

theorem PublicationRuns.publishing (h₀ : Created sha256 toLowerCase itemId files s₀ p₀)
    (h : PublicationRuns sha256 toLowerCase userId itemId p₀ p) :
    Runs sha256 anyEvent s₀ p.server ∧ Publishing itemId files p := by
  induction h with
  | refl => exact ⟨h₀.server, h₀.publishing⟩
  | step m _ hm hf ih => exact ih.2.step ih.1 hm hf

/-- **Every chosen photo is published once.**  However often answers are lost, requests fail and
the app tries again, the item has at most one photo of each file, each at the position of its file
and the first one the cover; when the app reports success it has one of each. -/
theorem photos_published_once (h₀ : Created sha256 toLowerCase itemId files s₀ p₀)
    (h : PublicationRuns sha256 toLowerCase userId itemId p₀ p) :
    ∃ ks, p.server.db.Published itemId ks ∧ ks.length ≤ files.length ∧
      (p.app.state.state = some ⟨itemId, false, false⟩ → ks.length = files.length) := by
  obtain ⟨-, hp⟩ := h.publishing h₀
  obtain ⟨ks, hpublished, ⟨hlen, -⟩ | ⟨hlen, i, hi, -⟩⟩ := hp.tally
  · refine ⟨ks, hpublished, by rw [hlen]; exact hp.app.bound, fun hsuccess => ?_⟩
    rcases hp.app.waits with ⟨failed, hstate, -, hdone⟩ | ⟨w, hstate, -⟩
    · rw [hsuccess, Option.some.injEq, CreateItemResult.mk.injEq] at hstate
      rw [hlen, hdone hstate.2.2.symm]
    · rw [hsuccess] at hstate
      cases hstate
  · have hlt := hp.app.pending (by rw [hi]; rfl)
    refine ⟨ks, hpublished, by omega, fun hsuccess => ?_⟩
    rcases hp.app.waits with ⟨failed, hstate, -, hdone⟩ | ⟨w, hstate, -⟩
    · rw [hsuccess, Option.some.injEq, CreateItemResult.mk.injEq] at hstate
      have hall := hdone hstate.2.2.symm
      omega
    · rw [hsuccess] at hstate
      cases hstate

end Runs

namespace PublicationScenario

/-- A move that cannot be made is skipped. -/
def play (p : Publication) (script : List PublicationMove) : Publication :=
  script.foldl (fun p m => (p.fire Scenario.hash id 2 m).getD p) p

/-- The move is not that of another client. -/
def own : PublicationMove → Bool
  | .other _ => false
  | _ => true

/-- Where nobody else moves, a script is a run. -/
theorem runs_play {p₀ p : Publication} {script : List PublicationMove}
    (hscript : script.all own = true) (h : PublicationRuns Scenario.hash id 2 1 p₀ p) :
    PublicationRuns Scenario.hash id 2 1 p₀ (play p script) := by
  induction script generalizing p with
  | nil => exact h
  | cons m ms ih =>
    rw [List.all_cons, Bool.and_eq_true] at hscript
    refine ih hscript.2 ?_
    have hm : ∀ p', Permitted Scenario.hash 1 p p' m := by
      intro p'
      cases m with
      | other m' => cases hscript.1
      | _ => trivial
    dsimp only
    cases hf : p.fire Scenario.hash id 2 m with
    | none => exact h
    | some p' => exact h.step m (hm p') hf

/-- The lender has chosen two photos of the drill. -/
def files : List XFile :=
  [⟨"front.jpg", some "image/jpeg", Scenario.photo⟩,
    ⟨"back.jpg", some "image/jpeg", Scenario.photo⟩]

def start : Publication :=
  let created := CreateItemController.created id 1 files
  ⟨⟨created.1, created.2⟩, Scenario.state, none⟩

/-- The server answers the request that is next. -/
def request (uuid : String) (drawn : Id) : List PublicationMove :=
  [.deliver uuid drawn] ++ List.replicate 24 .serve ++ [.answer]

/-- The first confirmation succeeds, but the app hears of no answer; it tries again. -/
def lost : List PublicationMove :=
  request "a" 20 ++ request "" 0 ++ [.deliver "" 30] ++ List.replicate 24 .serve ++ [.lose]

def retried : List PublicationMove :=
  lost ++ [.retry] ++ request "" 31 ++ request "b" 21 ++ request "" 0 ++ request "" 32

theorem photos_published_once_retried :
    (play start lost).app.state.state = some ⟨1, false, true⟩ ∧
      (play start retried).app.state.state = some ⟨1, false, false⟩ ∧
      ∃ ks, (play start retried).server.db.Published 1 ks ∧ ks.length = 2 := by
  have hcreated : Created Scenario.hash id 1 files Scenario.state start := by
    refine ⟨Scenario.runs anyEvent, fun k r hk => ?_, rfl, rfl⟩
    cases hk
  have hruns : PublicationRuns Scenario.hash id 2 1 start (play start retried) :=
    runs_play (by decide) .refl
  have hdone : (play start retried).app.state.state = some ⟨1, false, false⟩ := by decide +kernel
  obtain ⟨ks, hpublished, -, hall⟩ := photos_published_once hcreated hruns
  exact ⟨by decide +kernel, hdone, ks, hpublished, hall hdone⟩

end PublicationScenario

end Mobile

end Sosedi
