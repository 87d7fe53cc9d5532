import Sosedi.Scripts

/-!
# The photos of an item

A confirmation counts the photos of the item and clears the old covers before it inserts its
photo, without a lock on the item.

Proved here: two confirmations that overlap leave two covers (`Scenario.photo_limits_overlap`);
in a run in which every confirmation commits on the photos that it counted and cleared, the
limits hold in every state (`photo_limits`).
-/

namespace Sosedi

open Transactions

variable {sha256 : Bytes → String} {s₀ s : State Sys} {ev : Event} {K : List LockKey}
  {a b : Store} {k k' itemId : Id} {p p' : ItemPhoto} {t : UploadTables}

/-- An item has at most `MAX_ITEM_PHOTO_COUNT` photos and one cover, and an upload intent gives
one photo. -/
structure PhotoLimits (σ : Store) : Prop where
  count : ∀ itemId, (σ.1.photosOf itemId).length ≤ maxItemPhotoCount
  cover : ∀ k k' p p', σ.1.uploads.photos.get k = some p → σ.1.uploads.photos.get k' = some p' →
    p.itemId = p'.itemId → p.isCover → p'.isCover → k = k'
  intent : ∀ k k' p p', σ.1.uploads.photos.get k = some p →
    σ.1.uploads.photos.get k' = some p' → p.uploadIntentId = p'.uploadIntentId → k = k'

/-- When a confirmation commits, it has counted all the photos of the item and, if it makes a
cover, cleared them. -/
def photosAsCounted : Event → Store → Bool
  | .upload (.confirmPhoto _ _ photo _ _ _ counted cleared), σ =>
    (σ.1.photosOf photo.itemId).all fun k =>
      counted.contains k && (!photo.isCover || cleared.contains k)
  | _, _ => true

/-! ## Steps -/

theorem Database.mem_photosOf {db : Database} :
    k ∈ db.photosOf itemId ↔ ∃ p, db.uploads.photos.get k = some p ∧ p.itemId = itemId := by
  simp [photosOf, Table.mem_keysWhere]

/-- The photos of an item are old ones, but for the photo of a confirmation. -/
theorem mem_photosOf_inv (h : UploadStep sha256 ev K a b) (hk : k ∈ b.1.photosOf itemId) :
    k ∈ a.1.photosOf itemId ∨ ∃ intentId photo c u seen counted cleared,
      ev = .upload (.confirmPhoto intentId k photo c u seen counted cleared) ∧
        photo.itemId = itemId := by
  obtain ⟨p, hp, hitem⟩ := Database.mem_photosOf.mp hk
  rw [h.uploads] at hp
  rcases Event.get_photos_inv hp with ⟨i, c, u, seen, n, m, rfl⟩ | ⟨q, hq, -, -, hsame, -⟩
  · exact Or.inr ⟨i, p, c, u, seen, n, m, rfl, hitem⟩
  · exact Or.inl (Database.mem_photosOf.mpr ⟨q, hq, hsame.symm.trans hitem⟩)

/-- A photo that a confirmation cleared is no cover. -/
theorem not_cover_of_cleared {intentId photoId : Id} {photo : ItemPhoto} {c u : Time}
    {seen counted cleared : List Id} (hne : k ≠ photoId) (hmem : k ∈ cleared)
    (h : ((Event.upload (.confirmPhoto intentId photoId photo c u seen counted
      cleared)).applyUploads t).photos.get k = some p) : p.isCover = false := by
  simp only [Event.applyUploads, UploadTables.addPhoto, Table.get_insert, hne, false_and,
    if_false, Table.get_mapRows, Option.map_eq_some_iff, hmem, if_true] at h
  obtain ⟨q, -, rfl⟩ := h
  rfl

theorem count_step (h : UploadStep sha256 ev K a b) (hok : photosAsCounted ev a = true)
    (hlimits : PhotoLimits a) (itemId : Id) :
    (b.1.photosOf itemId).length ≤ maxItemPhotoCount := by
  by_cases hnew : ∃ k intentId photo c u seen counted cleared,
      ev = .upload (.confirmPhoto intentId k photo c u seen counted cleared) ∧
        photo.itemId = itemId
  · obtain ⟨photoId, intentId, photo, c, u, seen, counted, cleared, rfl, rfl⟩ := hnew
    -- every other photo was counted
    have hsubset : b.1.photosOf photo.itemId ⊆ photoId :: counted := by
      intro k hk
      rcases mem_photosOf_inv h hk with hold | ⟨i, q, c', u', seen', n, m, heq, -⟩
      · have hall := List.all_eq_true.mp hok k hold
        simp only [Bool.and_eq_true, List.contains_iff_mem] at hall
        exact List.mem_cons_of_mem _ hall.1
      · cases heq
        exact List.mem_cons_self
    have hle := (List.subperm_of_subset (Table.nodup_keysWhere _ _) hsubset).length_le
    rw [List.length_cons] at hle
    exact Nat.le_trans hle (h.guard.2.2.1 : counted.length < maxItemPhotoCount)
  · have hsubset : b.1.photosOf itemId ⊆ a.1.photosOf itemId := by
      intro k hk
      rcases mem_photosOf_inv h hk with hold | ⟨i, q, c, u, seen, n, m, hev, hitem⟩
      · exact hold
      · exact absurd ⟨k, i, q, c, u, seen, n, m, hev, hitem⟩ hnew
    exact Nat.le_trans
      (List.subperm_of_subset (Table.nodup_keysWhere _ _) hsubset).length_le (hlimits.count itemId)

/-- A cover that was there before the cover of a confirmation was cleared. -/
private theorem old_cover (h : UploadStep sha256 ev K a b) (hok : photosAsCounted ev a = true)
    {intentId : Id} {c u : Time} {seen counted cleared : List Id}
    (hev : ev = .upload (.confirmPhoto intentId k p c u seen counted cleared)) (hcover : p.isCover)
    (hp' : b.1.uploads.photos.get k' = some p') (hitem : p.itemId = p'.itemId)
    (hcover' : p'.isCover) : k = k' := by
  by_contra hne
  rcases mem_photosOf_inv h (Database.mem_photosOf.mpr ⟨p', hp', hitem.symm⟩) with
    hold | ⟨i, q, c', u', seen', n, m, heq, -⟩
  · subst hev
    have hall := List.all_eq_true.mp hok k' hold
    simp only [hcover, Bool.not_true, Bool.false_or, Bool.and_eq_true,
      List.contains_iff_mem] at hall
    rw [h.uploads] at hp'
    rw [not_cover_of_cleared (Ne.symm hne) hall.2 hp'] at hcover'
    cases hcover'
  · rw [hev] at heq
    cases heq
    exact hne rfl

theorem cover_step (h : UploadStep sha256 ev K a b) (hok : photosAsCounted ev a = true)
    (hlimits : PhotoLimits a) (hp : b.1.uploads.photos.get k = some p)
    (hp' : b.1.uploads.photos.get k' = some p') (hitem : p.itemId = p'.itemId)
    (hcover : p.isCover) (hcover' : p'.isCover) : k = k' := by
  have hp₀ := hp
  have hp₀' := hp'
  rw [h.uploads] at hp₀ hp₀'
  rcases Event.get_photos_inv hp₀ with ⟨i, c, u, seen, n, m, hev⟩ | ⟨q, hq, -, -, hsame, hmono⟩
  · exact old_cover h hok hev hcover hp' hitem hcover'
  · rcases Event.get_photos_inv hp₀' with ⟨i, c, u, seen, n, m, hev⟩ | ⟨q', hq', -, -, hsame', hmono'⟩
    · exact (old_cover h hok hev hcover' hp hitem.symm hcover).symm
    · exact hlimits.cover k k' q q' hq hq' (hsame.symm.trans (hitem.trans hsame')) (hmono hcover)
        (hmono' hcover')

/-! ## Runs -/

/-- **The limits of an item's photos hold** in every state of a run in which each confirmation
commits on the photos that it counted and cleared. -/
theorem photo_limits (h : Runs sha256 (fun ev σ => photosAsCounted ev σ = true) s₀ s) :
    PhotoLimits s.store := by
  refine h.invariant (P := PhotoLimits) ?_ ?_
  · intro σ hi
    constructor
    · intro itemId
      simp [Database.photosOf, hi.photos, Table.keysWhere, Table.empty]
    · simp [hi.photos]
    · simp [hi.photos]
  · intro ev K a b hinv hok hg hlimits
    have hupload := hg.uploads
    exact ⟨count_step hupload hok hlimits, fun k k' p p' => cover_step hupload hok hlimits,
      (hinv.uploads.step hupload).photos⟩

namespace Scenario

/-- The owner uploads a photo of the drill. -/
def uploadPhoto (client : Nat) (uuid : String) (intentId : Id) : List Line :=
  [.call (.requestUploadUrl 2 ⟨.itemPhoto, "image/jpeg", 3, some 1, none, none, none⟩ uuid
      intentId), .run client 7,
    .call (.clientUpload (UploadService.getItemQuarantinePrefix 1 ++ uuid ++ ".jpg") photo
      "image/jpeg"), .run (client + 1) 1]

def confirmPhoto (intentId photoId : Id) : Call :=
  .confirmItemPhoto 2 ⟨intentId, none, none⟩ photoId

abbrev countedIn (ev : Event) (σ : Store) : Prop := photosAsCounted ev σ = true

/-- Two photos are uploaded; the second confirmation starts after `nodes` nodes of the first. -/
def twoPhotos (nodes : Nat) : List Line :=
  uploadPhoto 0 "a" 20 ++ uploadPhoto 2 "b" 21 ++
    [.call (confirmPhoto 20 30), .run 4 nodes, .call (confirmPhoto 21 31), .run 5 20, .run 4 20]

/-- The second confirmation starts when the first has ended. -/
theorem photo_limits_inTurn :
    (play countedIn hash state (twoPhotos 20)).db.photosOf 1 = [30, 31] ∧
      PhotoLimits (play countedIn hash state (twoPhotos 20)).store :=
  ⟨by decide +kernel, photo_limits ((runs countedIn).play (twoPhotos 20))⟩

/-- It starts when the first has cleared the old covers: the item gets two covers. -/
theorem photo_limits_overlap :
    Runs hash anyEvent state (play anyEvent hash state (twoPhotos 11)) ∧
      ¬PhotoLimits (play anyEvent hash state (twoPhotos 11)).store := by
  refine ⟨(runs anyEvent).play _, fun hlimits => ?_⟩
  have hcovers : ∀ k ∈ [30, 31], ((play anyEvent hash state
      (twoPhotos 11)).store.1.uploads.photos.get k).map (fun p => (p.itemId, p.isCover)) =
        some (1, true) := by decide +kernel
  generalize (play anyEvent hash state (twoPhotos 11)).store = σ at hlimits hcovers
  obtain ⟨p, hp, hfirst⟩ := Option.map_eq_some_iff.mp (hcovers 30 (by simp))
  obtain ⟨p', hp', hsecond⟩ := Option.map_eq_some_iff.mp (hcovers 31 (by simp))
  obtain ⟨hitem, hcover⟩ := Prod.mk.inj hfirst
  obtain ⟨hitem', hcover'⟩ := Prod.mk.inj hsecond
  have hsame := hlimits.cover 30 31 p p' hp hp' (hitem.trans hitem'.symm) hcover hcover'
  exact absurd hsame (by decide)

end Scenario

end Sosedi
