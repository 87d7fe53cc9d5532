import Sosedi.Safety.Confirmations

/-!
# Photos and avatars keep to the contract

Proved here: the confirmations of photos and avatars and the photo worker are safe.
-/

namespace Sosedi

open Transactions UploadService

variable {sha256 : Bytes → String} {ok : Event → Store → Prop} {L : List LockKey}
  {ω : List (Database → Database)} {σ σ' : Store} {ids : List Id} {c : Time} {i : Id}

/-- An intent found in the table, as it was issued. -/
theorem issued_of_get {row : UploadIntent} (hv : Inv sha256 σ)
    (hrow : σ.1.uploads.intents.get i = some row) :
    Issued i { row with confirmedAt := none } σ := hv.uploads.issued i row hrow

theorem IssuedKey.of_issued {r : UploadIntent} (h : Issued i r σ) :
    σ.1.uploads.IssuedKey r.objectKey r.purpose := ⟨i, r, h, rfl, rfl⟩

/-! ## Photos -/

namespace UploadService

private theorem wp_insertPhoto {dto : ConfirmItemPhotoUploadDto} {itemId photoId : Id}
    {Q : ItemPhoto × List Id × List Id → List LockKey → List (Database → Database) → Store → Prop}
    (h : Consuming ids (UploadTables.consume ids c) L ω σ)
    (hQ : ∀ photo counted cleared L' ω σ',
      photo.uploadIntentId = dto.intentId ∧ photo.originalUrl = none → photo.itemId = itemId → counted.length < maxItemPhotoCount →
      (∀ key ∈ L, key ∈ L') →
      (contract sha256 ok).Interference L σ σ' →
      Consuming ids (fun t => (t.consume ids c).addPhoto photoId photo cleared) L' ω σ' →
      Q (photo, counted, cleared) L' ω σ') :
    wp (contract sha256 ok) (insertPhoto dto itemId photoId) Q L ω σ := by
  simp only [insertPhoto, Prog.bind_eq, wp_bind, wp_select, wp_lift, ensure_eq_ok,
    decide_eq_true_eq]
  intro σ₁ hi₁ _ _ hroom
  replace h := h.interference hi₁
  generalize (view ω σ₁.1).photosOf itemId = counted at hroom ⊢
  have hrest : ∀ (isCover : Bool) cleared L' ω σ₂, (∀ key ∈ L, key ∈ L') →
      (contract sha256 ok).Interference L σ σ₂ →
      Consuming ids (fun t => { t.consume ids c with
        photos := t.photos.mapRows fun id p =>
          if id ∈ cleared then { p with isCover := false } else p }) L' ω σ₂ →
      wp (contract sha256 ok) (insertUnique [.photoRow photoId, .photoIntent dto.intentId]
          (fun db => (db.uploads.photos.get photoId).isSome ||
            (db.photoOfIntent dto.intentId).isSome)
          (.internal "Unique constraint failed: item_photos")
          (fun db => { db with uploads := { db.uploads with
            photos := db.uploads.photos.insert photoId ⟨itemId, dto.intentId, none, none, none,
              dto.sortOrder.getD counted.length, isCover⟩ } }))
        (fun _ => Q (⟨itemId, dto.intentId, none, none, none,
          dto.sortOrder.getD counted.length, isCover⟩, counted, cleared)) L' ω σ₂ := by
    intro isCover cleared L' ω σ₂ hgrow hi h
    rw [wp_insertUnique]
    intro σ₃ hi₃ _ _
    refine hQ _ _ _ _ _ σ₃ ⟨rfl, rfl⟩ rfl hroom (fun key hkey => ?_) ?_ ?_
    · exact List.mem_append_right _ (hgrow key hkey)
    · exact interference_trans hi (interference_mono hgrow hi₃)
    · exact (h.interference hi₃).push [.photoRow photoId, .photoIntent dto.intentId]
        (f := fun db => { db with uploads := { db.uploads with
          photos := db.uploads.photos.insert photoId ⟨itemId, dto.intentId, none, none, none,
            dto.sortOrder.getD counted.length, isCover⟩ } })
        (H := fun t => { t with photos := t.photos.insert photoId ⟨itemId, dto.intentId, none, none,
          none, dto.sortOrder.getD counted.length, isCover⟩ })
        (fun _ => rfl)
  cases dto.isCover.getD (counted.length == 0) with
  | true =>
    simp only [if_true, clearCovers, wp_bind, wp_updateFound, Prog.pure_eq, wp_ret]
    intro σ₂ hi₂ _
    generalize (view ω σ₂.1).photosOf itemId = cleared
    refine hrest true cleared _ _ σ₂ (fun key hkey => List.mem_append_right _ hkey)
      (interference_trans hi₁ hi₂) ?_
    exact (h.interference hi₂).push (cleared.map .photoRow)
      (f := fun db => { db with uploads := { db.uploads with
        photos := db.uploads.photos.mapRows fun id photo =>
          if id ∈ cleared then { photo with isCover := false } else photo } })
      (H := fun t => { t with photos := t.photos.mapRows fun id p =>
        if id ∈ cleared then { p with isCover := false } else p })
      (fun _ => rfl)
  | false =>
    simp only [Bool.false_eq_true, if_false, Prog.pure_eq, wp_bind, wp_ret]
    refine hrest false [] L ω σ₁ (fun _ => id) hi₁ (h.congr fun t => ?_)
    simp [UploadTables.consume]

theorem safe_confirmItemPhotoUpload (userId : Id) (dto : ConfirmItemPhotoUploadDto)
    (photoId : Id) :
    Safe (contract sha256 ok) (confirmItemPhotoUpload userId dto photoId) := by
  intro σ
  simp only [confirmItemPhotoUpload, Prog.bind_eq, wp_bind, wp_select, wp_lift, required_eq_ok,
    view_nil, Option.filter_eq_some_iff]
  rintro σ₁ _ hv₁ row ⟨hrow, hconds⟩ _ _
  have hp : row.purpose = .itemPhoto := by
    simp only [Bool.and_eq_true, beq_iff_eq] at hconds
    exact hconds.2
  have hissued := issued_of_get hv₁ hrow
  generalize hr : ({ row with confirmedAt := none } : UploadIntent) = r at hissued
  have hrp : r.purpose = .itemPhoto := by rw [← hr]; exact hp
  have hrkey : r.objectKey = row.objectKey := by rw [← hr]
  refine (quiet_ensureOwnedItem _ _).wp fun _ σ₂ hi₂ => ?_
  cases hconfirmed : row.confirmedAt.isSome with
  | true =>
    simp only [if_true, wp_bind, wp_select, wp_lift]
    intro _ _ _ _ _
    exact ⟨rfl, rfl⟩
  | false =>
    simp only [Bool.false_eq_true, if_false, wp_bind]
    refine wp_ensureNoUnfinishedBookings fun seen σ₃ hi₃ hsettled => ?_
    refine wp_call_noop fun σ₄ hi₄ _ => ?_
    simp only [wp_lift]
    intro _ _
    refine (quiet_ensureUploadedObject _).wp fun _ σ₅ hi₅ => ?_
    refine wp_call_noop fun σ₆ hi₆ hv₆ => ?_
    have hissued₆ : Issued dto.intentId r σ₆ := (persists_issued _ _).interference
      (interference_trans hi₂ (interference_trans hi₃ (interference_trans hi₄
        (interference_trans hi₅ hi₆)))) hissued
    have hvalid := hv₆.uploads.validity _ _ hissued₆
    refine (Consuming.start σ₆.2.now).consumeIntent (fun L ω σ₇ _ hi₇ hv₇ h hopen => ?_)
      fun L ω σ₇ _ h => ?_
    · simp only [if_true, wp_bind]
      refine wp_insertPhoto h fun photo counted cleared L' ω σ₈ hphoto hitem hroom hgrow hi₈ h => ?_
      refine wp_call_noop fun σ₉ hi₉ _ σ₁₀ hi₁₀ _ σ' hi' hv' hok => ?_
      have hi : (contract sha256 ok).Interference [] σ₈ σ' := interference_trans
        (interference_mono (by simp) hi₉) (interference_trans (interference_mono (by simp) hi₁₀)
          (interference_mono (by simp) hi'))
      have hlater : Issued dto.intentId r σ' := (persists_issued _ _).interference hi
        ((persists_issued _ _).interference hi₈ ((persists_issued _ _).interference hi₇ hissued₆))
      replace h := h.interference (interference_trans hi₉ (interference_trans hi₁₀
        (interference_mono (fun _ => List.mem_append_right _) hi')))
      have hstep : Guar sha256 (.upload (.confirmPhoto dto.intentId photoId photo σ₆.2.now
          σ₉.2.now seen counted cleared)) ([.itemRow row.entityId] ++ L') σ' ({ view ω σ'.1 with
            items := (view ω σ'.1).items.modify row.entityId (Item.addPhoto σ₉.2.now) }, σ'.2) := by
        refine h.guar (f := fun db => { db with
          items := db.items.modify row.entityId (Item.addPhoto σ₉.2.now) })
          _ (fun _ => ⟨rfl, rfl, rfl⟩) (fun _ => ⟨rfl, ?_, rfl, ?_⟩) (fun _ => rfl) (fun _ => rfl)
          (by simp [Event.uploadKeys, Event.consumed, Event.rowKeys]) ⟨?_, hphoto.1, hroom, hphoto.2⟩
        · rw [← hitem]
          rfl
        · show Settled seen (·.itemId == photo.itemId) σ'.1
          rw [hitem]
          have hkeeps := persists_settled sha256 ok seen
            (·.itemId == row.entityId) fun b b' hb => by simp only [itemId_of_terms hb]
          exact hkeeps.interference hi (hkeeps.interference hi₈ (hkeeps.interference hi₇
            (hkeeps.interference (interference_trans hi₄ (interference_trans hi₅ hi₆)) hsettled)))
        · obtain ⟨row', hrow', hnone⟩ := h.opened dto.intentId (by simp)
          have heq : Issued dto.intentId row' σ' := issued_of_open hv' hrow' hnone
          rw [Issued, hlater, Option.some.injEq] at heq
          subst heq
          exact ⟨r, hrow', hnone, hrp, hvalid⟩
      rw [view_append, view_cons, view_nil]
      refine ⟨hstep, ?_⟩
      rw [wp_ret]
      refine wp_callUpload (fun _ => rfl) (fun _ => rfl) rfl (fun σ'' hi'' _ => ?_)
        fun _ _ _ _ _ => ⟨rfl, rfl⟩
      have hissued'' : Issued dto.intentId r σ'' := (persists_issued _ _).interference hi''
        (persists_issued _ _ _ _ _ ⟨hv', _, hok, hstep⟩ hlater)
      exact ⟨dto.intentId, r, hissued'', hrkey, hrp⟩
    · simp only [Bool.false_eq_true, if_false, wp_bind, wp_select, wp_lift]
      intro σ₈ hi₈ _ _ _
      exact (h.interference hi₈).commit_noop fun _ _ _ _ => ⟨rfl, rfl⟩

/-! ## Avatars -/

theorem safe_confirmAvatarUpload (env : Env) (userId intentId : Id) :
    Safe (contract sha256 ok) (confirmAvatarUpload env userId intentId) := by
  intro σ
  simp only [confirmAvatarUpload, Prog.bind_eq, wp_bind, wp_select, wp_lift, required_eq_ok,
    view_nil, Option.filter_eq_some_iff]
  rintro σ₁ _ hv₁ row ⟨hrow, hconds⟩ _ _
  have hp : row.purpose = .avatar := by
    simp only [Bool.and_eq_true, beq_iff_eq] at hconds
    exact hconds.1.2
  have hissued := issued_of_get hv₁ hrow
  generalize hr : ({ row with confirmedAt := none } : UploadIntent) = r at hissued
  have hrp : r.purpose = .avatar := by rw [← hr]; exact hp
  have hrkey : r.objectKey = row.objectKey := by rw [← hr]
  split
  · exact ⟨rfl, rfl⟩
  · simp only [wp_bind]
    refine wp_call_noop fun σ₂ hi₂ _ => ?_
    simp only [wp_lift]
    intro _ _
    refine (quiet_ensureUploadedObject _).wp fun _ σ₃ hi₃ => ?_
    refine (S3StorageService.quiet_getObjectBuffer _).wp fun source σ₄ hi₄ => ?_
    intro avatar _
    have hissued₄ : Issued intentId r σ₄ := (persists_issued _ _).interference
      (interference_trans hi₂ (interference_trans hi₃ hi₄)) hissued
    refine wp_callUpload (fun _ => rfl) (fun _ => rfl) rfl (fun _ _ _ => trivial) ?_
    rintro σ₅ b hi₅ rfl hs₅
    have hissued₅ := persists_issued _ _ _ _ _ hs₅ ((persists_issued _ _).interference hi₅ hissued₄)
    refine wp_call_noop fun σ₆ hi₆ _ => ?_
    have hissued₆ := (persists_issued _ _).interference hi₆ hissued₅
    have hdelete : ∀ {L' ω σ'}, Issued intentId r σ' → L' = [] → ω = [] →
        wp (contract sha256 ok) (S3StorageService.deleteObject (.deleteSource row.objectKey)
          row.objectKey) (fun _ L ω _ => L = [] ∧ ω = []) L' ω σ' := by
      rintro L' ω σ' hissued rfl rfl
      refine wp_callUpload (fun _ => rfl) (fun _ => rfl) rfl (fun σ'' hi _ => ?_)
        fun _ _ _ _ _ => ⟨rfl, rfl⟩
      exact ⟨.avatar, ⟨intentId, r, (persists_issued _ _).interference hi hissued, hrkey, hrp⟩, rfl⟩
    refine (Consuming.start σ₆.2.now).consumeIntent (fun L ω σ₇ _ hi₇ hv₇ h hopen => ?_)
      fun L ω σ₇ hi₇ h => ?_
    · simp only [if_true, wp_bind]
      intro σ₈ hi₈ _
      have hissued₈ := (persists_issued _ _).interference hi₈
        ((persists_issued _ _).interference hi₇ hissued₆)
      intro σ' hi' hv' hok
      have hissued' := (persists_issued _ _).interference hi' hissued₈
      replace h := h.interference (interference_trans hi₈
        (interference_mono (fun _ => List.mem_append_right _) hi'))
      have hopen := h.openIntent (i := intentId) hv' (by simp) hissued'
      rw [hrp] at hopen
      have hstep : Guar sha256 (.upload (.confirmAvatar intentId userId (env.publicUrl
          ("avatars/" ++ toString userId ++ "/" ++ toString intentId ++ ".webp")) σ₆.2.now))
          ([.userRow userId] ++ L) σ' ({ view ω σ'.1 with
            users := (view ω σ'.1).users.modify userId ({ · with avatarUrl := some (env.publicUrl
              ("avatars/" ++ toString userId ++ "/" ++ toString intentId ++ ".webp")) }) },
            σ'.2) :=
        h.guar (f := fun db => { db with
          users := db.users.modify userId ({ · with avatarUrl := some (env.publicUrl
            ("avatars/" ++ toString userId ++ "/" ++ toString intentId ++ ".webp")) }) })
          _ (fun _ => ⟨rfl, rfl, rfl⟩) (fun _ => ⟨rfl, rfl, rfl, trivial⟩) (fun _ => rfl)
          (fun _ => rfl) (by simp [Event.uploadKeys, Event.consumed, Event.rowKeys]) ⟨_, hopen⟩
      rw [view_append, view_cons, view_nil]
      exact ⟨hstep, hdelete (persists_issued _ _ _ _ _ ⟨hv', _, hok, hstep⟩ hissued') rfl rfl⟩
    · simp only [Bool.false_eq_true, if_false, wp_bind, wp_select, wp_lift]
      intro σ₈ hi₈ _ _ _
      refine (h.interference hi₈).commit_noop fun σ' b hi hs => ?_
      refine hdelete (persists_issued _ _ _ _ _ hs ?_) rfl rfl
      exact (persists_issued _ _).interference hi ((persists_issued _ _).interference hi₈
        ((persists_issued _ _).interference hi₇ hissued₆))

end UploadService

/-! ## The photo worker -/

namespace PhotoProcessingWorker

theorem safe_processItemPhotoUploaded (env : Env) (job : PhotoProcessingJob) :
    Safe (contract sha256 ok) (processItemPhotoUploaded env job) := by
  intro σ
  simp only [processItemPhotoUploaded, Prog.bind_eq, wp_bind]
  refine wp_call_noop fun σ₁ _ hv₁ => ?_
  split
  · rename_i hqueued
    have hkey := hv₁.uploads.jobs job (by simpa using hqueued)
    simp only [wp_bind, wp_select]
    intro σ₂ hi₂ _
    replace hkey := (persists_issuedKey _ _).interference hi₂ hkey
    split
    · exact ⟨rfl, rfl⟩
    · simp only [wp_bind]
      refine (S3StorageService.quiet_getObjectBuffer _).wp fun source σ₃ hi₃ => ?_
      replace hkey := (persists_issuedKey _ _).interference hi₃ hkey
      have hpersists : ∀ done : List String, Persists (contract sha256 ok) fun σ =>
          σ.1.uploads.IssuedKey job.sourceKey .itemPhoto ∧
            ∀ variant ∈ done, Published (getVariantKey job variant) σ := fun done K a b hs h =>
        ⟨persists_issuedKey _ _ K a b hs h.1, fun variant hv =>
          persists_published _ K a b hs (h.2 variant hv)⟩
      refine wp_forEach (I := fun (done : List String) L ω (σ : Store) => (L = [] ∧ ω = []) ∧
        σ.1.uploads.IssuedKey job.sourceKey .itemPhoto ∧
          ∀ variant ∈ done, Published (getVariantKey job variant) σ) _ ?_
        ⟨⟨rfl, rfl⟩, hkey, by simp⟩ ?_
      · rintro done variant rest _ L ω σ ⟨⟨rfl, rfl⟩, hfacts⟩
        simp only [wp_bind, wp_lift]
        intro image _
        refine wp_callUpload (fun _ => rfl) (fun _ => rfl) rfl (fun _ _ _ => trivial) ?_
        rintro σ' b hi rfl hs
        have hlater := hpersists done _ _ _ hs ((hpersists done).interference hi hfacts)
        refine ⟨⟨rfl, rfl⟩, hlater.1, fun v hv => ?_⟩
        rcases List.mem_append.mp hv with hv | hv
        · exact hlater.2 v hv
        · rw [List.mem_singleton.mp hv]
          exact published_putPublic ..
      · rintro L ω σ₄ ⟨⟨rfl, rfl⟩, hfacts⟩
        intro σ₅ hi₅ _
        obtain ⟨hkey, hstored⟩ := (hpersists _).interference hi₅ hfacts
        generalize env.publicUrl (getVariantKey job "original") = original
        generalize env.publicUrl (getVariantKey job "thumbnail") = thumbnail
        generalize env.publicUrl (getVariantKey job "preview") = preview
        have hpush := (Consuming.start 0 (L := []) (σ := σ₅)).push [.photoRow job.itemPhotoId]
          (H := UploadTables.publish job.itemPhotoId original thumbnail preview)
          (f := fun db => { db with
            uploads := db.uploads.publish job.itemPhotoId original thumbnail preview })
          (fun _ => rfl)
        refine hpush.commit trivial (fun t => by simp [Event.applyUploads]) (fun _ => rfl)
          (by simp [Event.uploadKeys, Event.consumed, Event.rowKeys])
          (fun σ' hi _ _ => ⟨job, rfl, fun variant hv =>
            (persists_published _).interference hi (hstored variant hv)⟩) fun σ' b hi hs => ?_
        refine wp_callUpload (fun _ => rfl) (fun _ => rfl) rfl
          (fun σ₆ hi₆ _ => ⟨.itemPhoto, ?_, rfl⟩) fun _ _ _ _ _ => ⟨rfl, rfl⟩
        exact (persists_issuedKey _ _).interference hi₆ (persists_issuedKey _ _ _ _ _ hs
          ((persists_issuedKey _ _).interference hi hkey))
  · exact ⟨rfl, rfl⟩

end PhotoProcessingWorker

end Sosedi
