import Sosedi.Transactions.Behaviours
import Sosedi.Transactions.Observers
import Sosedi.Uploads.PhotoLimits

/-!
# From a confirmed photo to its public variants

A confirmation commits the row of its photo and then hands the photo to the processing queue; a
repeated confirmation answers from the row.  The worker stores the three variants of the photo
before it sets the URLs of the row.

Proved here: a photo with a URL has its variants stored (`published_variants`); where no
confirmation is cut off between its commit and the queue, the photo that a confirmation answers
with has been handed to the queue, or is about to be (`photo_handed`).
-/

namespace Sosedi

open Transactions

variable {sha256 : Bytes → String} {ok : Event → Store → Prop} {s₀ s s' : State Sys}
  {k intentId : Id}

/-! ## Public variants -/

/-- **A photo with a URL has its variants stored**, in every state of every run. -/
theorem published_variants (h : Runs sha256 ok s₀ s) {p : ItemPhoto}
    (hp : s.db.uploads.photos.get k = some p) (hurl : p.originalUrl.isSome) :
    ∃ job : PhotoProcessingJob, job.itemPhotoId = k ∧ VariantsStored job s.world.storage := by
  have hinv : ∀ k p, s.db.uploads.photos.get k = some p → p.originalUrl.isSome →
      ∃ job : PhotoProcessingJob, job.itemPhotoId = k ∧ VariantsStored job s.world.storage := by
    refine h.invariant (P := fun σ => ∀ k p, σ.1.uploads.photos.get k = some p →
      p.originalUrl.isSome → ∃ job : PhotoProcessingJob, job.itemPhotoId = k ∧
        VariantsStored job σ.2.storage) ?_ ?_
    · intro σ hi k p hp
      rw [hi.photos] at hp
      cases hp
    · intro ev K a b hv hok hg ih k p hp hurl
      have hu := hg.uploads
      have hlater : ∀ job, VariantsStored job a.2.storage → VariantsStored job b.2.storage := by
        intro job hjob variant hvariant
        rw [hu.world]
        exact Event.isSome_public_applyWorld (hjob variant hvariant)
      rw [hu.uploads] at hp
      rcases Event.get_photos_url hp with ⟨i, c, u, seen, n, m, rfl⟩ | ⟨o, th, pr, rfl⟩ |
        ⟨q, hq, hsame⟩
      · rw [hu.guard.2.2.2] at hurl
        cases hurl
      · obtain ⟨job, hjob, hstored⟩ := hu.guard
        exact ⟨job, hjob, hlater job hstored⟩
      · obtain ⟨job, hjob, hstored⟩ := ih k q hq (hsame ▸ hurl)
        exact ⟨job, hjob, hlater job hstored⟩
  exact hinv k p hp hurl

namespace Scenario

/-- The owner confirms the photo, in so many nodes. -/
def confirming (nodes : Nat) : List Line :=
  uploadPhoto 0 "a" 20 ++ [.call (confirmPhoto 20 30), .run 2 nodes]

/-- The confirmed photo is processed. -/
def processed : List Line :=
  confirming 15 ++ [.call (.processPhoto env ⟨30, 1, "quarantine/item-photos/1/a.jpg"⟩), .run 3 20]

theorem published_variants_processed :
    ∃ job : PhotoProcessingJob, job.itemPhotoId = 30 ∧
      VariantsStored job (play anyEvent hash state processed).world.storage := by
  have hurl : ((play anyEvent hash state processed).db.uploads.photos.get 30).any
      (·.originalUrl.isSome) = true := by decide +kernel
  obtain ⟨p, hp, hsome⟩ := Option.any_eq_true _ _ |>.mp hurl
  exact published_variants ((runs anyEvent).play processed) hp hsome

end Scenario

/-! ## The queue -/

/-- A job of the photo is in the queue, or was. -/
def Handed (k : Id) (s : State Sys) : Prop := ∃ job ∈ s.world.photoJobs, job.itemPhotoId = k

/-- A client is about to insert a job of the photo. -/
def Owed (k : Id) (s : State Sys) : Prop :=
  ∃ i job, s.event i = some (.upload (.queuePhoto job)) ∧ job.itemPhotoId = k

/-- The calls that make, confirm, process and clean up uploads. -/
def Call.handlesPhotos : Call → Bool
  | .requestUploadUrl .. | .requestAdminUploadUrl .. | .clientUpload .. | .confirmItemPhoto ..
  | .processPhoto .. | .cleanupExpiredUploads .. | .tick .. => true
  | _ => false

def PhotoCalls (sha256 : Bytes → String) (p : Prog Sys Unit) : Prop :=
  ∃ c : Call, c.handlesPhotos ∧ p = c.prog sha256

/-- No client is killed when it is about to insert a job. -/
def uncut {Φ : Type} (_ : Nat → Φ) (s : State Sys) (m : Move Sys) : Prop :=
  ∀ i, m = .crash i → ∀ job, s.event i ≠ some (.upload (.queuePhoto job))

/-- After the commit of a confirmation comes the insertion of its job. -/
def queuesPhoto (ev : Event) (next : Prog Sys Unit) : Prop :=
  ∀ i k photo c u seen counted cleared,
    ev = .upload (.confirmPhoto i k photo c u seen counted cleared) →
      ∃ job f next', next = .call (.upload (.queuePhoto job)) f next' ∧ job.itemPhotoId = k

def notConfirmPhoto (ev : Event) : Prop :=
  ∀ i k photo c u seen counted cleared,
    ev ≠ .upload (.confirmPhoto i k photo c u seen counted cleared)

theorem queuesPhoto_of_not {ev : Event} {next : Prog Sys Unit} (h : notConfirmPhoto ev) :
    queuesPhoto ev next :=
  fun i k photo c u seen counted cleared hev => absurd hev (h i k photo c u seen counted cleared)

/-! ## What the calls commit -/

section Commits

open Prog UploadService

variable {α : Type} {C : Event → Prop}

theorem commits_access {γ : Type} (f : Database → Option γ) (e : Error) :
    ((Transactions.select f : Prog Sys (Option γ)).bind fun found =>
      (Transactions.lift (required found e)).bind fun _ => (.ret () : Prog Sys Unit)).Commits C :=
  (commits_select _).bind fun _ => (commits_lift _).bind fun _ => commits_ret _

theorem commits_createPresignedUpload (userId : Id) (dto : RequestUploadUrlDto) (entityId : Id)
    (keyPrefix uuid : String) (newId : Id) :
    (createPresignedUpload userId dto entityId keyPrefix uuid newId).Commits notConfirmPhoto := by
  refine (commits_lift _).bind fun extension => ?_
  refine Commits.bind (commits_call _ _ _) fun now => ?_
  refine (commits_insertUnique _ _ _ _).bind fun _ => ?_
  refine Commits.bind (commits_commit (by simp [notConfirmPhoto])) fun _ => ?_
  exact Commits.bind (commits_call _ _ _) fun _ => commits_call _ _ _

theorem commits_requestUploadUrl (userId : Id) (dto : RequestUploadUrlDto) (uuid : String)
    (newId : Id) : (requestUploadUrl userId dto uuid newId).Commits notConfirmPhoto := by
  have hcreate := fun entityId keyPrefix =>
    commits_createPresignedUpload userId dto entityId keyPrefix uuid newId
  have hphoto : (createItemPhotoUploadUrl userId dto uuid newId).Commits notConfirmPhoto :=
    (commits_lift _).bind fun _ => Commits.bind (commits_access _ _) fun _ =>
      Commits.bind ((commits_select _).bind fun _ => (commits_lift _).bind fun _ => commits_ret _)
        fun _ => hcreate _ _
  refine (commits_lift _).bind fun _ => (commits_lift _).bind fun _ => ?_
  cases dto.purpose with
  | avatar => exact (commits_lift _).bind fun _ => hcreate _ _
  | bookingEvidence | disputeEvidence | supportAttachment =>
    exact (commits_lift _).bind fun _ => Commits.bind (commits_access _ _) fun _ => hcreate _ _
  | itemPhoto | kycDocument => exact hphoto

theorem commits_requestAdminUploadUrl (adminId : Id) (dto : RequestUploadUrlDto)
    (uuid : String) (newId : Id) :
    (requestAdminSupportAttachmentUploadUrl adminId dto uuid newId).Commits notConfirmPhoto :=
  (commits_lift _).bind fun _ => (commits_lift _).bind fun _ => (commits_lift _).bind fun _ =>
    Commits.bind (commits_access _ _) fun _ => commits_createPresignedUpload _ _ _ _ _ _

theorem commits_inspectUploadedObject (key : String) :
    (S3StorageService.inspectUploadedObject key).Commits C := by
  unfold S3StorageService.inspectUploadedObject
  refine Commits.bind (commits_call _ _ _) fun metadata => ?_
  cases metadata with
  | none => exact commits_ret _
  | some metadata =>
    dsimp only
    split
    · exact commits_ret _
    · exact Commits.bind (commits_call _ _ _) fun _ => commits_ret _

theorem commits_ensureUploadedObject (intent : UploadIntent) :
    (ensureUploadedObject intent).Commits C :=
  (commits_inspectUploadedObject _).bind fun _ => (commits_lift _).bind fun _ =>
    (commits_lift _).bind fun _ => commits_lift _

theorem commits_insertPhoto (dto : ConfirmItemPhotoUploadDto) (itemId photoId : Id) :
    (insertPhoto dto itemId photoId).Commits C := by
  have hinsert : ∀ (photo : ItemPhoto) (counted cleared : List Id),
      ((insertUnique [.photoRow photoId, .photoIntent dto.intentId]
        (fun db => (db.uploads.photos.get photoId).isSome ||
          (db.photoOfIntent dto.intentId).isSome)
        (.internal "Unique constraint failed: item_photos")
        fun db => { db with uploads := { db.uploads with
          photos := db.uploads.photos.insert photoId photo } } : Prog Sys Unit).bind
        fun _ => .ret (photo, counted, cleared)).Commits C := fun photo counted cleared =>
    (commits_insertUnique _ _ _ _).bind fun _ => commits_ret _
  refine (commits_select _).bind fun counted => (commits_lift _).bind fun _ => ?_
  dsimp only
  split
  · exact Commits.bind (fun _ => commits_ret _) fun cleared => hinsert _ _ _
  · exact hinsert _ _ _

theorem commits_processItemPhotoUploaded (env : Env) (job : PhotoProcessingJob) :
    (PhotoProcessingWorker.processItemPhotoUploaded env job).Commits notConfirmPhoto := by
  refine Commits.bind (commits_call _ _ _) fun queued => ?_
  cases queued with
  | false => exact commits_ret _
  | true =>
    refine (commits_select _).bind fun activePhoto => ?_
    cases activePhoto with
    | none => exact commits_ret _
    | some photo =>
      refine Commits.bind (Commits.bind (commits_call _ _ _) fun _ =>
        (commits_lift _).bind fun _ => commits_ret _) fun source => ?_
      refine Commits.bind (commits_forEach fun variant => (commits_lift _).bind fun _ =>
        commits_call _ _ _) fun _ => ?_
      refine (commits_write _ _).bind fun _ => ?_
      exact Commits.bind (commits_commit (by simp [notConfirmPhoto])) fun _ => commits_call _ _ _

theorem commits_cleanupExpiredUploads (now : Time) :
    (UploadCleanupService.cleanupExpiredUploads now).Commits notConfirmPhoto := by
  have hclean : ∀ intentId intent photo,
      (UploadCleanupService.cleanIntent intentId intent photo now).Commits notConfirmPhoto := by
    intro intentId intent photo
    refine Commits.bind (commits_call _ _ _) fun _ => ?_
    refine (commits_when ((commits_write _ _).bind fun _ =>
      commits_commit (by simp [notConfirmPhoto]))).bind fun _ => ?_
    refine (commits_updateWhere _ _ _).bind fun referenced => commits_commit ?_
    cases referenced <;> simp [notConfirmPhoto]
  refine Commits.bind (commits_call _ _ _) fun listed => ?_
  refine (commits_select _).bind fun intents => ?_
  refine (commits_forEach fun entry => ?_).bind fun _ => commits_forEach fun object =>
    commits_when (commits_call _ _ _)
  unfold UploadCleanupService.visitIntent
  dsimp only
  split
  · exact Commits.bind (commits_select _) fun photo => commits_when (hclean _ _ _)
  · exact commits_when (hclean _ _ _)

theorem afterCommits_confirmItemPhotoUpload (userId : Id) (dto : ConfirmItemPhotoUploadDto)
    (photoId : Id) : (confirmItemPhotoUpload userId dto photoId).AfterCommits queuesPhoto := by
  have hnone : ∀ (ev : Event) (next : Prog Sys Unit), False → queuesPhoto ev next :=
    fun _ _ h => h.elim
  refine AfterCommits.bind (commits_select _) hnone fun intent => ?_
  refine AfterCommits.bind (commits_lift _) hnone fun intent => ?_
  refine AfterCommits.bind (commits_lift _) hnone fun _ => ?_
  refine AfterCommits.bind (commits_access _ _) hnone fun _ => ?_
  cases intent.confirmedAt.isSome with
  | true =>
    exact ((commits_select _).bind fun _ => (commits_lift _).bind fun _ =>
      commits_ret _).afterCommits hnone
  | false =>
    refine AfterCommits.bind ((commits_select _).bind fun _ => (commits_lift _).bind fun _ =>
      commits_ret _) hnone fun seen => ?_
    refine AfterCommits.bind (commits_call _ _ _) hnone fun now => ?_
    refine AfterCommits.bind (commits_lift _) hnone fun _ => ?_
    refine AfterCommits.bind (commits_ensureUploadedObject _) hnone fun _ => ?_
    refine AfterCommits.bind (commits_call _ _ _) hnone fun confirmedAt => ?_
    refine AfterCommits.bind (commits_updateWhere _ _ _) hnone fun consumed => ?_
    cases consumed with
    | true =>
      refine AfterCommits.bind (commits_insertPhoto _ _ _) hnone fun inserted => ?_
      obtain ⟨photo, counted, cleared⟩ := inserted
      refine AfterCommits.bind (commits_call _ _ _) hnone fun updatedAt => ?_
      refine AfterCommits.bind (commits_write _ _) hnone fun _ => ?_
      refine ⟨?_, fun _ => trivial⟩
      intro i k photo' c u seen' counted' cleared' hev
      cases hev
      exact ⟨_, _, _, rfl, rfl⟩
    | false =>
      refine AfterCommits.bind (commits_select _) hnone fun _ => ?_
      refine AfterCommits.bind (commits_lift _) hnone fun _ => ?_
      exact ⟨queuesPhoto_of_not (by simp [notConfirmPhoto]), trivial⟩

end Commits

theorem afterCommits_photoCalls (p : Prog Sys Unit) (h : PhotoCalls sha256 p) :
    p.AfterCommits queuesPhoto := by
  obtain ⟨c, hc, rfl⟩ := h
  have hnot : ∀ (ev : Event) (next : Prog Sys Unit), notConfirmPhoto ev → queuesPhoto ev next :=
    fun _ _ => queuesPhoto_of_not
  cases c with
  | requestUploadUrl => exact (commits_requestUploadUrl _ _ _ _).afterCommits hnot
  | requestAdminUploadUrl => exact (commits_requestAdminUploadUrl _ _ _ _).afterCommits hnot
  | clientUpload | tick => exact fun _ => trivial
  | confirmItemPhoto => exact afterCommits_confirmItemPhotoUpload _ _ _
  | processPhoto => exact (commits_processItemPhotoUploaded _ _).afterCommits hnot
  | cleanupExpiredUploads => exact (commits_cleanupExpiredUploads _).afterCommits hnot
  | _ => cases hc

theorem calls_of_photoCalls (p : Prog Sys Unit) (h : PhotoCalls sha256 p) : Calls sha256 p := by
  obtain ⟨c, -, hp⟩ := h
  exact ⟨c, hp⟩

/-! ## Nothing is forgotten -/

/-- The photo has been handed to the queue, or is about to be. -/
def Accounted (k : Id) (s : State Sys) : Prop := Handed k s ∨ Owed k s

theorem mem_photoJobs_applyWorld {ev : Event} {w : World} {job : PhotoProcessingJob}
    (h : job ∈ w.photoJobs) : job ∈ (ev.applyWorld sha256 w).photoJobs := by
  cases ev with
  | upload u =>
    cases u with
    | queuePhoto job' => exact List.mem_cons_of_mem _ h
    | _ => exact h
  | _ => exact h

theorem event_eq_of_thread_eq {i : Nat} (h : s'.thread i = s.thread i) :
    s'.event i = s.event i := by
  unfold State.event
  rw [h]

/-- The run of an observation, as a run of all calls. -/
theorem runs_of_watched {Φ : Type} {O : Observer Sys Φ}
    {cond : (Nat → Φ) → State Sys → Move Sys → Prop} {φ : Nat → Φ} (h₀ : s₀.threads = [])
    (hi : Initial s₀.store) (h : Watched O (PhotoCalls sha256) cond s₀ φ s) :
    Runs sha256 (fun _ _ => True) s₀ s :=
  ⟨h₀, hi, h.reaches.ops_mono calls_of_photoCalls⟩

/-- A job that is handed stays handed. -/
theorem Handed.step (h : Runs sha256 (fun _ _ => True) s₀ s) {m : Move Sys}
    (hm : s.Admits (Calls sha256) (fun _ _ => True) m) (hf : s.fire m = some s')
    (hk : Handed k s) : Handed k s' := by
  obtain ⟨job, hjob, rfl⟩ := hk
  rcases h.step hm hf with he | ⟨ev, K, -, hg⟩
  · exact ⟨job, (congrArg (·.2.photoJobs) he).symm ▸ hjob, rfl⟩
  · refine ⟨job, ?_, rfl⟩
    rw [show s'.world = _ from hg.uploads.world]
    exact mem_photoJobs_applyWorld hjob

/-- **A move that cuts no client off keeps a photo accounted for.** -/
theorem Accounted.step {Φ : Type} {φ : Nat → Φ} (h : Runs sha256 (fun _ _ => True) s₀ s)
    {m : Move Sys} (hm : s.Admits (Calls sha256) (fun _ _ => True) m) (hcut : uncut φ s m)
    (hf : s.fire m = some s') (hk : Accounted k s) : Accounted k s' := by
  rcases hk with hk | ⟨i, job, hev, rfl⟩
  · exact Or.inl (hk.step h hm hf)
  · have hi : i < s.threads.length := by
      refine State.lt_of_prog_ne fun a hp => ?_
      simp [State.event, hp] at hev
    have hstay : s'.thread i = s.thread i → Accounted job.itemPhotoId s' := fun hsame =>
      Or.inr ⟨i, job, (event_eq_of_thread_eq hsame).trans hev, rfl⟩
    cases m with
    | start p =>
      simp only [State.fire, Option.some.injEq] at hf
      subst hf
      refine hstay ?_
      simp only [State.thread, List.getD_eq_getElem?_getD, List.getElem?_append_left hi]
    | crash j =>
      have hij : j ≠ i := by
        rintro rfl
        exact hcut j rfl job hev
      simp only [State.fire, Option.some.injEq] at hf
      subst hf
      refine hstay ?_
      rw [State.thread_setThread, if_neg fun hand => hij hand.1]
    | run j =>
      by_cases hij : j = i
      · subst hij
        obtain ⟨K, hg⟩ := h.sound.guar hev trivial hf
        refine Or.inl ⟨job, ?_, rfl⟩
        rw [show s'.world = _ from hg.uploads.world]
        exact List.mem_cons_self ..
      · exact hstay (State.thread_of_advance hf hij)

/-- Every photo that there is, or that a client has read or made, is accounted for. -/
structure Remembered (φ : Nat → Past Sys) (s : State Sys) : Prop where
  rows : ∀ k p, s.db.uploads.photos.get k = some p → Accounted k s
  reads : ∀ i db, (φ i).reads db → ∀ k p, db.uploads.photos.get k = some p → Accounted k s
  events : ∀ i ev, (φ i).events ev → ∀ intentId k photo c u seen counted cleared,
    ev = .upload (.confirmPhoto intentId k photo c u seen counted cleared) → Accounted k s

/-- The photo of a new row is owed by the client that has committed it. -/
theorem accounted_rows {Φ : Type} {φ : Nat → Φ} (h : Runs sha256 (fun _ _ => True) s₀ s)
    (hr : Reaches (PhotoCalls sha256) (fun _ _ => True) s₀ s) {m : Move Sys}
    (hm : s.Admits (Calls sha256) (fun _ _ => True) m) (hcut : uncut φ s m)
    (hf : s.fire m = some s') (hrows : ∀ k p, s.db.uploads.photos.get k = some p → Accounted k s)
    {p : ItemPhoto} (hp : s'.db.uploads.photos.get k = some p) : Accounted k s' := by
  have hold : ∀ q, s.db.uploads.photos.get k = some q → Accounted k s' := fun q hq =>
    (hrows k q hq).step h hm hcut hf
  rcases h.event_step hm hf with he | ⟨i, ev, K, rfl, hev, -, hg⟩
  · exact hold p ((congrArg (·.1.uploads.photos.get k) he).symm.trans hp)
  · have hi : i < s.threads.length := by
      refine State.lt_of_prog_ne fun a hprog => ?_
      simp [State.event, hprog] at hev
    rw [show s'.db.uploads = _ from hg.uploads.uploads] at hp
    rcases Event.get_photos_inv hp with ⟨intentId, c, u, seen, counted, cleared, rfl⟩ |
      ⟨q, hq, -⟩
    · unfold State.event at hev
      split at hev
      · rename_i next hprog
        cases hev
        have hafter := hr.afterCommits (i := i) afterCommits_photoCalls h.threads
        rw [hprog] at hafter
        obtain ⟨job, f, next', rfl, hjob⟩ := hafter.1 _ _ _ _ _ _ _ _ rfl
        simp only [State.fire, State.advance, hprog, Option.some.injEq] at hf
        refine Or.inr ⟨i, job, ?_, hjob⟩
        subst hf
        unfold State.event
        rw [State.thread_setThread, if_pos ⟨rfl, hi⟩]
      · rename_i f next hprog
        cases hev
        -- a call leaves the database as it is
        simp only [State.fire, State.advance, hprog, Option.some.injEq] at hf
        subst hf
        refine hold p ?_
        have hsame := hg.uploads.uploads
        exact (congrArg (·.photos.get k) hsame).trans hp
      · cases hev
    · exact hold q hq

/-- The photo of a confirmation is in the table once it is committed. -/
theorem isSome_photos_confirmPhoto {photo : ItemPhoto} {c u : Time}
    {seen counted cleared : List Id} {t : UploadTables} :
    ((Event.upload (.confirmPhoto intentId k photo c u seen counted cleared)).applyUploads
      t).photos.get k |>.isSome := by
  simp only [Event.applyUploads, UploadTables.addPhoto, Table.get_insert]
  split
  · rfl
  · rename_i hno
    rw [Option.isSome_iff_ne_none]
    exact fun hnone => hno ⟨trivial, hnone⟩

theorem remembered {φ : Nat → Past Sys} {s₁ : State Sys}
    (h : Runs sha256 (fun _ _ => True) s₀ s₁)
    (hr : Reaches (PhotoCalls sha256) (fun _ _ => True) s₀ s₁)
    (hrows : ∀ k p, s₁.db.uploads.photos.get k = some p → Accounted k s₁)
    (hw : Watched (Observer.past fun _ _ => True) (PhotoCalls sha256) uncut s₁ φ s) :
    Remembered φ s := by
  induction hw with
  | refl => exact ⟨hrows, fun _ _ hread => hread.elim, fun _ _ hevent => hevent.elim⟩
  | @step φ s s' m hw hm hcut hf ih =>
    have hr' := hr.trans hw.reaches
    have hrun : Runs sha256 (fun _ _ => True) s₀ s :=
      ⟨h.threads, h.initial, hr'.ops_mono calls_of_photoCalls⟩
    have hm' : s.Admits (Calls sha256) (fun _ _ => True) m := by
      cases m with
      | start p => exact calls_of_photoCalls p hm
      | run i => exact hm
      | crash i => trivial
    have hstep : ∀ k, Accounted k s → Accounted k s' := fun k hk => hk.step hrun hm' hcut hf
    have hrows' : ∀ k p, s'.db.uploads.photos.get k = some p → Accounted k s' :=
      fun k p hp => accounted_rows hrun hr' hm' hcut hf ih.rows hp
    refine ⟨hrows', fun i db hread k p hp => ?_, ?_⟩
    · rcases Past.reads_after hread with hread | rfl
      · exact hstep k (ih.reads i db hread k p hp)
      · exact hstep k (ih.rows k p hp)
    · rintro i ev hevent intentId k photo c u seen counted cleared rfl
      rcases Past.events_after hevent with hevent | ⟨rfl, hev⟩
      · exact hstep k (ih.events i _ hevent _ _ _ _ _ _ _ _ rfl)
      · obtain ⟨K, hg⟩ := hrun.sound.guar hev trivial hf
        have hsome : (s'.db.uploads.photos.get k).isSome := by
          rw [show s'.db.uploads = _ from hg.uploads.uploads]
          exact isSome_photos_confirmPhoto
        obtain ⟨p, hp⟩ := Option.isSome_iff_exists.mp hsome
        exact hrows' k p hp

/-! ## What a confirmation answers -/

/-- The client has read the photo as one of the intent, or has made it. -/
def AnswersWith (intentId k : Id) (past : Past Sys) : Prop :=
  (∃ db p, past.reads db ∧ db.uploads.photos.get k = some p ∧ p.uploadIntentId = intentId) ∨
    ∃ photo c u seen counted cleared,
      past.events (.upload (.confirmPhoto intentId k photo c u seen counted cleared))

section Follows

open UploadService

variable {past : Past Sys} {ω : List (Database → Database)}

theorem answersWith_photoOfIntent {db : Database} {r : Id × ItemPhoto}
    (h : db.photoOfIntent intentId = some r) (past : Past Sys) :
    AnswersWith intentId r.1 ((Observer.past fun _ _ => True).see past db) := by
  refine Or.inl ⟨db, r.2, Or.inr rfl, Table.get_eq_some.mpr (List.mem_of_find?_eq_some h), ?_⟩
  have hid := List.find?_some h
  simpa using hid

/-- What only reads leaves the writes as they are. -/
theorem follows_access {γ : Type} (f : Database → Option γ) (e : Error) :
    ((Transactions.select f : Prog Sys (Option γ)).bind fun found =>
      (Transactions.lift (required found e)).bind fun _ => (.ret () : Prog Sys Unit)).Follows
        (Observer.past fun _ _ => True) (fun _ _ ω' => ω' = ω) past ω := by
  rw [follows_bind, follows_select]
  intro db
  rw [follows_bind, follows_lift]
  exact fun _ _ => rfl

theorem follows_ensureNoUnfinishedBookings (itemId : Id) :
    (ensureNoUnfinishedBookings itemId).Follows (Observer.past fun _ _ => True)
      (fun _ _ ω' => ω' = ω) past ω := by
  simp only [ensureNoUnfinishedBookings, Prog.bind_eq, follows_bind, follows_select, follows_lift]
  exact fun _ _ _ => rfl

theorem follows_ensureUploadedObject (intent : UploadIntent) :
    (ensureUploadedObject intent).Follows (Observer.past fun _ _ => True)
      (fun _ _ ω' => ω' = ω) past ω := by
  simp only [ensureUploadedObject, S3StorageService.inspectUploadedObject, S3StorageService.read,
    Prog.bind_eq, follows_bind, follows_call, follows_lift]
  refine ⟨trivial, fun w => ?_⟩
  split
  · exact fun _ _ _ _ _ _ => rfl
  · split
    · exact fun _ _ _ _ _ _ => rfl
    · simp only [follows_bind, follows_call]
      exact ⟨trivial, fun _ _ _ _ _ _ _ => rfl⟩

theorem follows_confirmItemPhotoUpload (userId : Id) (dto : ConfirmItemPhotoUploadDto)
    (photoId : Id) : (confirmItemPhotoUpload userId dto photoId).Follows
      (Observer.past fun _ _ => True) (fun _ past _ => ∃ k, AnswersWith dto.intentId k past)
      (Observer.past fun _ _ => True).start [] := by
  unfold confirmItemPhotoUpload
  simp only [Prog.bind_eq, follows_bind, follows_select, follows_lift]
  intro db₁ intent _ _ _
  refine follows_mono _ ?_ (follows_access _ _)
  rintro _ past ω rfl
  cases intent.confirmedAt.isSome with
  | true =>
    simp only [if_true, follows_bind, follows_select, follows_lift, required_eq_ok, view_nil]
    exact fun db r hr => ⟨r.1, answersWith_photoOfIntent hr _⟩
  | false =>
    simp only [Bool.false_eq_true, if_false, follows_bind]
    refine follows_mono _ ?_ (follows_ensureNoUnfinishedBookings _)
    rintro seen past ω rfl
    simp only [clock, follows_call, follows_lift]
    refine ⟨trivial, fun w _ _ => ?_⟩
    refine follows_mono _ ?_ (follows_ensureUploadedObject _)
    rintro _ past ω rfl
    simp only [consumeIntent]
    refine ⟨trivial, fun w' => follows_updateEither _ _ _ fun db₂ consumed => ?_⟩
    cases consumed with
    | true =>
      simp only [if_true, follows_bind]
      refine follows_mono _ ?_ (follows_past _)
      intro inserted past ω _
      simp only [follows_call, follows_write, follows_commit]
      exact ⟨trivial, fun w₁ db => ⟨trivial, trivial, fun w₂ =>
        ⟨photoId, Or.inr ⟨_, _, _, _, _, _, Or.inl (Or.inr rfl)⟩⟩⟩⟩
    | false =>
      simp only [Bool.false_eq_true, if_false, follows_bind, follows_select, follows_lift,
        required_eq_ok, follows_commit, List.nil_append, view_cons, view_nil, id_eq]
      intro db r hr
      obtain ⟨db', p, hread, hp, hid⟩ | ⟨_, _, _, _, _, _, hevent⟩ :=
        answersWith_photoOfIntent hr (((Observer.past fun _ _ => True).see
          ((Observer.past fun _ _ => True).act past Event.noop) db₂))
      · exact ⟨trivial, r.1, Or.inl ⟨db', p, hread, hp, hid⟩⟩
      · exact ⟨trivial, r.1, Or.inr ⟨_, _, _, _, _, _, Or.inl hevent⟩⟩

end Follows

/-- **A confirmed photo is handed to the queue**: where no confirmation is cut off between its
commit and the queue, the photo with which a confirmation has answered has been handed, or the
client that made it is about to hand it. -/
theorem photo_handed {φ₀ : Nat → Past Sys} {φ : Nat → Past Sys} {s₁ : State Sys} {i : Nat}
    {userId photoId : Id} {dto : UploadService.ConfirmItemPhotoUploadDto}
    (h₀ : s₀.threads = []) (hi₀ : Initial s₀.store)
    (hw : Watched (Observer.past fun _ _ => True) (PhotoCalls sha256) uncut s₀ φ₀ s₁)
    (hi : i < s₁.threads.length)
    (hserved : Served (Observer.past fun _ _ => True) (PhotoCalls sha256) uncut
      (UploadService.confirmItemPhotoUpload userId dto photoId) i s₁ φ s) :
    ∃ k, AnswersWith dto.intentId k (φ i) ∧ (Handed k s ∨ Owed k s) := by
  have hrun := runs_of_watched h₀ hi₀ hw
  have hrows : ∀ k p, s₁.db.uploads.photos.get k = some p → Accounted k s₁ := by
    refine (remembered (Runs.refl h₀ hi₀) .refl (fun k p hp => ?_) hw).rows
    rw [show s₀.db.uploads.photos = _ from hi₀.photos] at hp
    cases hp
  have hremembered := remembered hrun hw.reaches hrows hserved.watched
  obtain ⟨k, hk⟩ := hserved.post hi (follows_confirmItemPhotoUpload userId dto photoId)
  refine ⟨k, hk, ?_⟩
  rcases hk with ⟨db, p, hread, hp, -⟩ | ⟨photo, c, u, seen, counted, cleared, hevent⟩
  · exact hremembered.reads i db hread k p hp
  · exact hremembered.events i _ hevent _ _ _ _ _ _ _ _ rfl

namespace Scenario

theorem watched_play {φ : Nat → Past Sys} {s₀ s : State Sys} (script : List Line)
    (hcalls : ∀ c, .call c ∈ script → c.handlesPhotos)
    (h : Watched (Observer.past fun _ _ => True) (PhotoCalls hash) uncut s₀ φ s) :
    ∃ φ', Watched (Observer.past fun _ _ => True) (PhotoCalls hash) uncut s₀ φ'
      (play anyEvent hash s script) := by
  refine h.attemptAll fun m hm => ?_
  obtain ⟨line, hline, hm⟩ := List.mem_flatMap.mp hm
  cases line with
  | call c =>
    rw [Line.moves, List.mem_singleton] at hm
    subst hm
    refine ⟨fun p hp => ?_, ?_⟩
    · cases hp
      exact ⟨c, hcalls c hline, rfl⟩
    · intro φ s i hcrash
      cases hcrash
  | run i nodes =>
    obtain ⟨-, rfl⟩ := List.mem_replicate.mp hm
    refine ⟨?_, ?_⟩
    · intro p hp
      cases hp
    · intro φ s i hcrash
      cases hcrash

/-- The owner is about to confirm the photo. -/
def uploaded : State Sys :=
  play anyEvent hash state (uploadPhoto 0 "a" 20 ++ [.call (confirmPhoto 20 30)])

/-- The confirmation is about to hand the photo to the queue. -/
def committed : State Sys := play anyEvent hash uploaded [.run 2 14]

theorem photo_handed_confirmed : ∃ φ s,
    Served (Observer.past fun _ _ => True) (PhotoCalls hash) uncut
      (UploadService.confirmItemPhotoUpload 2 ⟨20, none, none⟩ 30) 2 uploaded φ s ∧
    ∃ k, AnswersWith 20 k (φ 2) ∧ (Handed k s ∨ Owed k s) := by
  have hstate : Watched (Observer.past fun _ _ => True) (PhotoCalls hash) uncut state _ state :=
    .refl
  have huploaded :
      Watched (Observer.past fun _ _ => True) (PhotoCalls hash) uncut uploaded _ uploaded := .refl
  obtain ⟨φ₀, hw⟩ := watched_play (uploadPhoto 0 "a" 20 ++ [.call (confirmPhoto 20 30)])
    (by simp [uploadPhoto, confirmPhoto, Call.handlesPhotos]) hstate
  obtain ⟨φ, hφ⟩ := watched_play [.run 2 14] (by simp) huploaded
  have hlen : uploaded.threads.length = 3 := by decide +kernel
  have hthread : uploaded.thread 2 = ⟨(confirmPhoto 20 30).prog hash, [], []⟩ := by
    have htwo : (play anyEvent hash state (uploadPhoto 0 "a" 20)).threads.length = 2 := by
      decide +kernel
    have hcall : uploaded.thread (play anyEvent hash state (uploadPhoto 0 "a" 20)).threads.length =
        ⟨(confirmPhoto 20 30).prog hash, [], []⟩ := thread_play_call _ _ _
    rwa [htwo] at hcall
  have hqueues : (committed.event 2).isSome = true := by decide +kernel
  obtain ⟨ev, hev⟩ := Option.isSome_iff_exists.mp hqueues
  obtain ⟨s, hs⟩ := committed.fire_of_event hev
  have hended : (((committed.fire (.run 2)).getD committed).thread 2).prog.ended = true := by
    decide +kernel
  rw [hs] at hended
  have hserved : Served (Observer.past fun _ _ => True) (PhotoCalls hash) uncut
      (UploadService.confirmItemPhotoUpload 2 ⟨20, none, none⟩ 30) 2 uploaded
      ((Observer.past fun _ _ => True).after committed φ (.run 2)) s := by
    refine ⟨hthread, hφ.step (.run 2) (fun _ _ => trivial) ?_ hs, ?_, ?_⟩
    · intro i hcrash
      cases hcrash
    · exact Prog.eq_ret_of_ended hended
    · rw [Observer.after, Function.update_self, Observer.node_of_event hev]
      intro hstart
      exact (congrArg (·.events ev) hstart).mp (Or.inr rfl)
  exact ⟨_, s, hserved, photo_handed rfl initial hw (hlen ▸ by decide) hserved⟩

end Scenario

end Sosedi
