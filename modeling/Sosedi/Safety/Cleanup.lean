import Sosedi.Safety.Photos

/-!
# The clean-up keeps to the contract

Proved here: `UploadCleanupService.cleanupExpiredUploads` is safe: what it deletes is what its
two lists allow, stated on the store at the moment of each deletion.
-/

namespace Sosedi

open Transactions

variable {sha256 : Bytes → String} {ok : Event → Store → Prop}

namespace UploadCleanupService

/-- What lasts of an intent that the clean-up loaded. -/
structure Loaded (i : Id) (intent : UploadIntent) (σ : Store) : Prop where
  issued : Issued i { intent with confirmedAt := none } σ
  purpose : intent.purpose ∈ cleanupPurposes
  confirmed : ∀ c, intent.confirmedAt = some c → ConfirmedAs i c σ
  window : intent.purpose = .itemPhoto → ∀ c, intent.confirmedAt = some c →
    intent.expiresAt ≤ c + uploadValidityMs

/-- What lasts of a listed object: its intent was loaded, is of another purpose, or is gone, and
is not younger than the object. -/
def Listed (knownKeys : List String) (object : String × Option Time) (σ : Store) : Prop :=
  ∃ i r, Issued i r σ ∧ r.objectKey = object.1 ∧
    (r.purpose ∈ cleanupPurposes → object.1 ∈ knownKeys ∨ Gone i σ) ∧
    ∀ m, object.2 = some m → r.expiresAt ≤ m + uploadValidityMs

theorem persists_loaded (i : Id) (intent : UploadIntent) :
    Persists (contract sha256 ok) (Loaded i intent) :=
  fun K a b hs h => ⟨persists_issued _ _ K a b hs h.issued, h.purpose,
    fun c hc => persists_confirmedAs i c K a b hs (h.confirmed c hc), h.window⟩

theorem persists_listed (knownKeys : List String) (object : String × Option Time) :
    Persists (contract sha256 ok) (Listed knownKeys object) := by
  rintro K a b hs ⟨i, r, hr, hkey, hor, hage⟩
  exact ⟨i, r, persists_issued _ _ K a b hs hr, hkey,
    fun hp => (hor hp).imp_right (persists_gone i K a b hs), hage⟩

/-- An intent as the clean-up finds it. -/
theorem loaded_of_get {i : Id} {intent : UploadIntent} {σ : Store} (hv : Inv sha256 σ)
    (hrow : σ.1.uploads.intents.get i = some intent) (hp : intent.purpose ∈ cleanupPurposes) :
    Loaded i intent σ where
  issued := issued_of_get hv hrow
  purpose := hp
  confirmed := by
    refine fun c hc => ⟨⟨_, issued_of_get hv hrow⟩, fun row hrow' => ?_⟩
    rw [hrow, Option.some.injEq] at hrow'
    exact hrow' ▸ hc
  window := fun hphoto c hc => hv.uploads.window i intent c hrow hphoto hc

/-- A stored object under a key that the clean-up listed. -/
theorem listed_of_issued {i : Id} {r : UploadIntent} {object : String × Option Time} {σ : Store}
    {knownKeys : List String} (hv : Inv sha256 σ) (hr : Issued i r σ)
    (hkey : r.objectKey = object.1) (hage : ∀ m, object.2 = some m →
      r.expiresAt ≤ m + uploadValidityMs)
    (hknown : ∀ i row, σ.1.uploads.intents.get i = some row → row.purpose ∈ cleanupPurposes →
      row.objectKey ∈ knownKeys) : Listed knownKeys object σ := by
  refine ⟨i, r, hr, hkey, fun hp => ?_, hage⟩
  cases hrow : σ.1.uploads.intents.get i with
  | none => exact Or.inr ⟨⟨r, hr⟩, hrow⟩
  | some row =>
    have hissued := issued_of_get hv hrow
    rw [Issued, hr, Option.some.injEq] at hissued
    subst hissued
    exact Or.inl (hkey ▸ hknown i row hrow hp)

/-- The photo that the clean-up reads is the only one of its intent. -/
theorem photosAs_of_select {i : Id} {σ : Store} (hv : Inv sha256 σ) :
    PhotosAs i ((σ.1.photoOfIntent i).map (·.2)) σ := by
  intro k p hp hid
  have hmem : (k, p) ∈ σ.1.uploads.photos.rows := Table.get_eq_some.mp hp
  cases hfind : σ.1.photoOfIntent i with
  | none =>
    have := List.find?_eq_none.mp hfind (k, p) hmem
    simp [hid] at this
  | some r =>
    obtain ⟨k', p'⟩ := r
    have hp' : σ.1.uploads.photos.get k' = some p' :=
      Table.get_eq_some.mpr (List.mem_of_find?_eq_some hfind)
    have hid' : p'.uploadIntentId = i := by
      have := List.find?_some hfind
      simpa using this
    obtain rfl := hv.uploads.photos k k' p p' hp hp' (hid.trans hid'.symm)
    rw [hp, Option.some.injEq] at hp'
    exact ⟨p', rfl, hp' ▸ id⟩

theorem not_referenced {db : Database} {i : Id} :
    intentReferenced db i = false → ¬db.uploads.Referenced i := by
  intro h
  simp only [intentReferenced, Bool.or_eq_false_iff, Table.any_eq_false,
    beq_eq_false_iff_ne] at h
  rintro (⟨k, e, he, hid⟩ | ⟨k, e, he, hid⟩ | ⟨k, e, he, hid⟩)
  · exact h.1.1 k e he hid
  · exact h.1.2 k e he hid
  · exact h.2 k e he hid

variable (sha256 ok) in
/-- The last transaction of a turn. -/
private theorem wp_dropIntent (i : Id) (σ : Store) :
    wp (contract sha256 ok) (do
      let referenced ← updateWhere (.intentRow i) (fun db => !intentReferenced db i)
        (fun db => { db with uploads := { db.uploads with
          intents := db.uploads.intents.erase i } })
      commit (if referenced then .upload (.dropIntent i) else .noop))
      (fun _ L ω _ => L = [] ∧ ω = []) [] [] σ := by
  simp only [Prog.bind_eq, wp_bind, wp_updateWhere, view_nil]
  intro σ₁ _ _
  by_cases hc : intentReferenced σ₁.1 i = true
  · simp only [hc, Bool.not_true, Bool.false_eq_true, if_false]
    exact wp_commit_noop (fun _ _ => rfl) fun _ => ⟨rfl, rfl⟩
  · rw [Bool.not_eq_true] at hc
    simp only [hc, Bool.not_false, if_true]
    intro σ₂ hi₂ _ _
    refine ⟨guar_upload rfl rfl ⟨rfl, rfl, ?_, by simp [Event.uploadKeys]⟩
      (.of_same trivial ⟨rfl, rfl, rfl⟩), rfl, rfl⟩
    exact interference_keeps (fun _ _ => Other.unreferenced (by simp)) hi₂ (not_referenced hc)

private theorem wp_cleanIntent {i : Id} {intent : UploadIntent} {photo : Option ItemPhoto}
    {now : Time} {σ : Store} (hloaded : Loaded i intent σ)
    (hphoto : intent.purpose = .itemPhoto → ∀ c, intent.confirmedAt = some c →
      ConfirmedAs i c σ ∧ PhotosAs i photo σ)
    (hdue : isRejected intent photo (now - rejectedUploadRetentionMs) = true ∨
      isExpired intent photo (now - uploadIntentCleanupGraceMs) = true) :
    wp (contract sha256 ok) (cleanIntent i intent photo now) (fun _ L ω _ => L = [] ∧ ω = [])
      [] [] σ := by
  simp only [cleanIntent, Prog.bind_eq, wp_bind]
  refine wp_callUpload (fun _ => rfl) (fun _ => rfl) rfl (fun σ₁ hi₁ hv₁ => ?_)
    fun σ₁ b hi₁ _ _ => ?_
  · have hloaded₁ := (persists_loaded _ _).interference hi₁ hloaded
    refine ⟨hloaded₁.issued, hloaded.purpose, hdue, fun row hrow hsome => ?_, hloaded.window,
      fun hp hsome => ?_⟩
    · obtain ⟨c, hc⟩ := Option.isSome_iff_exists.mp hsome
      rw [hc]
      exact (hloaded₁.confirmed c hc).2 row hrow
    · obtain ⟨c, hc⟩ := Option.isSome_iff_exists.mp hsome
      exact ((persists_photosAs i c photo).interference hi₁ (hphoto hp c hc)).2
  · have hdrop := fun σ => wp_dropIntent sha256 ok i σ
    simp only [Prog.bind_eq, wp_bind] at hdrop
    rw [wp_when]
    refine ⟨fun _ => ?_, fun _ => hdrop _⟩
    simp only [wp_bind]
    intro σ₂ _ _
    have hpush := (Consuming.start 0 (L := []) (σ := σ₂)).push [] (H := UploadTables.dropPhoto i)
      (f := fun db => { db with uploads := db.uploads.dropPhoto i })
      (fun _ => rfl)
    exact hpush.commit trivial (fun t => by simp [Event.applyUploads]) (fun _ => rfl)
      (by simp [Event.uploadKeys, Event.consumed, Event.rowKeys]) (fun _ _ _ _ => trivial)
      fun _ _ _ _ => hdrop _

private theorem wp_visitIntent {now : Time} {entry : Id × UploadIntent} {σ : Store}
    (hloaded : Loaded entry.1 entry.2 σ) :
    wp (contract sha256 ok) (visitIntent now entry) (fun _ L ω _ => L = [] ∧ ω = [])
      [] [] σ := by
  obtain ⟨i, intent⟩ := entry
  simp only [visitIntent, Prog.bind_eq]
  have hvisit : ∀ photo σ, Loaded i intent σ →
      (intent.purpose = .itemPhoto → ∀ c, intent.confirmedAt = some c →
        ConfirmedAs i c σ ∧ PhotosAs i photo σ) →
      wp (contract sha256 ok) (when (isRejected intent photo (now - rejectedUploadRetentionMs) ||
          isExpired intent photo (now - uploadIntentCleanupGraceMs))
        (cleanIntent i intent photo now)) (fun _ L ω _ => L = [] ∧ ω = []) [] [] σ := by
    intro photo σ hloaded hphoto
    rw [wp_when, Bool.or_eq_true]
    exact ⟨fun hdue => wp_cleanIntent hloaded hphoto hdue, fun _ => ⟨rfl, rfl⟩⟩
  split
  · intro σ₁ hi₁ hv₁
    have hloaded₁ := (persists_loaded _ _).interference hi₁ hloaded
    exact hvisit _ σ₁ hloaded₁ fun _ c hc => ⟨hloaded₁.confirmed c hc, photosAs_of_select hv₁⟩
  · rename_i hno
    refine hvisit none σ hloaded fun hp c hc => absurd ?_ hno
    simp [hp, hc]

private theorem wp_visitObject {now : Time} {knownKeys : List String}
    {object : String × Option Time} {σ : Store} (hlisted : Listed knownKeys object σ) :
    wp (contract sha256 ok) (visitObject now knownKeys object) (fun _ L ω _ => L = [] ∧ ω = [])
      [] [] σ := by
  rw [visitObject, wp_when]
  refine ⟨fun hdue => ?_, fun _ => ⟨rfl, rfl⟩⟩
  refine wp_callUpload (fun _ => rfl) (fun _ => rfl) rfl (fun σ₁ hi₁ _ => ?_)
    fun _ _ _ _ _ => ⟨rfl, rfl⟩
  obtain ⟨i, r, hr, hkey, hor, hage⟩ := (persists_listed _ _).interference hi₁ hlisted
  refine ⟨i, r, hr, hkey, fun hp => ?_, ?_⟩
  · rcases hor hp with hknown | hgone
    · simp [hknown] at hdue
    · exact hgone.2
  · simp only [Bool.and_eq_true, Option.any_eq_true, decide_eq_true_eq] at hdue
    obtain ⟨-, m, hm, hle⟩ := hdue
    exact Int.le_trans (hage m hm) (Int.add_le_add_right hle _)

theorem safe_cleanupExpiredUploads (now : Time) :
    Safe (contract sha256 ok) (cleanupExpiredUploads now) := by
  intro σ
  simp only [cleanupExpiredUploads, Prog.bind_eq, wp_bind]
  refine wp_call_noop fun σ₁ _ hv₁ => ?_
  intro σ₂ hi₂ hv₂
  simp only [view_nil]
  generalize hintents : σ₂.1.uploads.intents.rows.filter
    (fun r => cleanupPurposes.contains r.2.purpose) = intents
  have hmem : ∀ i row, (i, row) ∈ intents ↔ σ₂.1.uploads.intents.get i = some row ∧
      row.purpose ∈ cleanupPurposes := by
    intro i row
    rw [← hintents, List.mem_filter, ← Table.get_eq_some]
    simp
  have hloaded : ∀ e ∈ intents, Loaded e.1 e.2 σ₂ := fun e he =>
    loaded_of_get hv₂ ((hmem e.1 e.2).mp he).1 ((hmem e.1 e.2).mp he).2
  have hlisted : ∀ o ∈ listObjects σ₁.2.storage,
      Listed (intents.map (·.2.objectKey)) o σ₂ := by
    intro o ho
    simp only [listObjects, List.mem_filterMap] at ho
    obtain ⟨⟨⟨bucket, key⟩, object⟩, hrow, ho⟩ := ho
    split at ho
    · rename_i hbucket
      cases ho
      obtain ⟨rfl, -⟩ := hbucket
      have hstored := Table.get_eq_some.mpr hrow
      obtain ⟨purpose, j, r, hr, hkey, -⟩ := hv₁.uploads.stored key object hstored
      refine listed_of_issued hv₂ ((persists_issued _ _).interference hi₂ hr) hkey
        (fun m hm => hv₁.uploads.age key object m j r hstored hm hr hkey) ?_
      exact fun i row hget hp => List.mem_map.mpr ⟨(i, row), (hmem i row).mpr ⟨hget, hp⟩, rfl⟩
    · cases ho
  have hpersists : Persists (contract sha256 ok) fun σ => (∀ e ∈ intents, Loaded e.1 e.2 σ) ∧
      ∀ o ∈ listObjects σ₁.2.storage, Listed (intents.map (·.2.objectKey)) o σ := by
    rintro K a b hs ⟨hl, ho⟩
    exact ⟨fun e he => persists_loaded _ _ K a b hs (hl e he),
      fun o hmem => persists_listed _ _ K a b hs (ho o hmem)⟩
  generalize hobjects : listObjects σ₁.2.storage = objects at hlisted hpersists
  refine wp_forEach (I := fun _ L ω σ => (L = [] ∧ ω = []) ∧ (∀ e ∈ intents, Loaded e.1 e.2 σ) ∧
    ∀ o ∈ objects, Listed (intents.map (·.2.objectKey)) o σ) intents ?_
    ⟨⟨rfl, rfl⟩, hloaded, hlisted⟩ ?_
  · rintro done e rest hl L ω σ ⟨⟨rfl, rfl⟩, hfacts⟩
    exact wp_keeps hpersists _ (wp_visitIntent (hfacts.1 e (by simp [hl]))) hfacts
  · rintro L ω σ ⟨⟨rfl, rfl⟩, hfacts⟩
    refine wp_forEach (I := fun _ L ω σ => (L = [] ∧ ω = []) ∧
      (∀ e ∈ intents, Loaded e.1 e.2 σ) ∧
        ∀ o ∈ objects, Listed (intents.map (·.2.objectKey)) o σ) objects ?_
      ⟨⟨rfl, rfl⟩, hfacts⟩ fun _ _ _ h => h.1
    rintro done o rest hl L ω σ ⟨⟨rfl, rfl⟩, hfacts⟩
    exact wp_keeps hpersists _ (wp_visitObject (hfacts.2 o (by simp [hl]))) hfacts

end UploadCleanupService

end Sosedi
