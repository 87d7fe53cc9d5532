import Sosedi.Async.EventLoop
import Sosedi.Uploads.PhotoRequests

/-!
# A publication and its server

The app uploads the photos of a new item one after the other; each takes three requests, and the
server works on each like on any other call.  An answer may be lost, and the app may try again
while the server is still busy.  The requests of the app are worked on one at a time.

Proved here:

* `uploadPhotos_cases`, `retryPhotos_cases`, `resume_cases`: what the app does between two awaits;
* `careful_call`: what the server does for a request;
* `reply_cases`: where the answer comes from.
-/

namespace Sosedi

open Async Transactions

namespace Mobile

/-! ## The app -/

/-- A chosen file. -/
structure XFile where
  name : String
  mimeType : Option String
  bytes : Bytes

structure ItemPhotoUploadProgress where
  completed : Nat
  pendingConfirmation : Option Id

structure CreateItemResult where
  id : Id
  isUploadingPhotos : Bool
  photoUploadFailed : Bool
  deriving DecidableEq

/-- The controller once the item is created; `state` is `state.value`. -/
structure CreateItemController where
  state : Option CreateItemResult
  photos : List XFile
  photoProgress : ItemPhotoUploadProgress

inductive PhotoRequest where
  | presign (contentType : String) (sizeBytes : Int)
  | post (intentId : Id) (key : String) (bytes : Bytes) (contentType : String)
  | confirm (intentId : Id)
  deriving DecidableEq

/-- What `_uploadPhoto` waits for. -/
structure PhotoWait where
  itemId : Id
  index : Nat
  request : PhotoRequest
  deriving DecidableEq

/-- `rejected` is a response 400 with `VALIDATION_ERROR`. -/
inductive PhotoAnswer where
  | presigned (intentId : Id) (key : String)
  | ok
  | rejected
  | failed
  deriving DecidableEq

inductive PublicationCall where
  | retryPhotos

namespace CreateItemController

variable (toLowerCase : String → String)

def contentType (file : XFile) : Option String :=
  if file.mimeType = some "image/jpeg" ∨ file.mimeType = some "image/png" ∨
      file.mimeType = some "image/webp" then file.mimeType
  else
    let name := toLowerCase file.name
    if name.endsWith ".jpg" || name.endsWith ".jpeg" then some "image/jpeg"
    else if name.endsWith ".png" then some "image/png"
    else if name.endsWith ".webp" then some "image/webp"
    else none

/-- `_uploadPhoto` up to its first request; `none` where it throws. -/
def uploadPhoto (file : XFile) (pendingConfirmation : Option Id) : Option PhotoRequest :=
  match pendingConfirmation with
  | some pending => some (.confirm pending)
  | none =>
    if file.bytes.isEmpty || file.bytes.length > 10 * 1024 * 1024 then none
    else (contentType toLowerCase file).map fun contentType =>
      .presign contentType file.bytes.length

def photosFailed (itemId : Id) (c : CreateItemController) : CreateItemController × List PhotoWait :=
  ({ c with state := some ⟨itemId, false, true⟩ }, [])

/-- The loop of `uploadPhotos`, up to its next request. -/
def uploadPhotos (itemId : Id) (c : CreateItemController) :
    CreateItemController × List PhotoWait :=
  match c.photos[c.photoProgress.completed]? with
  | none => ({ c with state := some ⟨itemId, false, false⟩ }, [])
  | some file =>
    match uploadPhoto toLowerCase file c.photoProgress.pendingConfirmation with
    | none => photosFailed itemId c
    | some request => (c, [⟨itemId, c.photoProgress.completed, request⟩])

/-- `submit` after the answer of `create`. -/
def created (itemId : Id) (photos : List XFile) : CreateItemController × List PhotoWait :=
  let c : CreateItemController := ⟨some ⟨itemId, !photos.isEmpty, false⟩, photos, ⟨0, none⟩⟩
  if photos.isEmpty then (c, []) else uploadPhotos toLowerCase itemId c

def retryPhotos (c : CreateItemController) : CreateItemController × List PhotoWait :=
  match c.state with
  | none => (c, [])
  | some current =>
    if c.photos.isEmpty || current.isUploadingPhotos then (c, [])
    else uploadPhotos toLowerCase current.id
      { c with state := some ⟨current.id, true, false⟩ }

def resume (w : PhotoWait) (a : PhotoAnswer) (c : CreateItemController) :
    Option (CreateItemController × List PhotoWait) :=
  match w.request, a with
  | .presign contentType _, .presigned intentId key =>
    (c.photos[w.index]?).map fun file =>
      (c, [{ w with request := .post intentId key file.bytes contentType }])
  | .presign .., .rejected | .presign .., .failed => some (photosFailed w.itemId c)
  | .post intentId .., .ok =>
    -- the intent is kept if the server commits but its response is lost
    some ({ c with photoProgress := { c.photoProgress with pendingConfirmation := some intentId } },
      [{ w with request := .confirm intentId }])
  | .post .., .rejected | .post .., .failed => some (photosFailed w.itemId c)
  | .confirm _, .ok =>
    some (uploadPhotos toLowerCase w.itemId
      { c with photoProgress := ⟨c.photoProgress.completed + 1, none⟩ })
  | .confirm _, .rejected =>
    some (photosFailed w.itemId
      { c with photoProgress := { c.photoProgress with pendingConfirmation := none } })
  | .confirm _, .failed => some (photosFailed w.itemId c)
  | _, _ => none

end CreateItemController

def publicationLoop (toLowerCase : String → String) :
    Loop CreateItemController PublicationCall PhotoWait PhotoAnswer where
  call := fun .retryPhotos => CreateItemController.retryPhotos toLowerCase
  resume := CreateItemController.resume toLowerCase

section App

open CreateItemController

variable {toLowerCase : String → String} {itemId : Id} {c c' : CreateItemController}
  {ws : List PhotoWait}

/-- The loop ends, fails at a file, or asks for the photo that is next. -/
theorem uploadPhotos_cases (h : uploadPhotos toLowerCase itemId c = (c', ws)) :
    (c.photos.length ≤ c.photoProgress.completed ∧ ws = [] ∧
      c' = { c with state := some ⟨itemId, false, false⟩ }) ∨
    (c.photoProgress.pendingConfirmation = none ∧ ws = [] ∧
      c' = { c with state := some ⟨itemId, false, true⟩ }) ∨
    c.photoProgress.completed < c.photos.length ∧ c' = c ∧ ∃ request,
      ws = [⟨itemId, c.photoProgress.completed, request⟩] ∧
        ((∃ intentId, c.photoProgress.pendingConfirmation = some intentId ∧
            request = .confirm intentId) ∨
          c.photoProgress.pendingConfirmation = none ∧ ∃ contentType sizeBytes,
            request = .presign contentType sizeBytes) := by
  unfold uploadPhotos at h
  cases hfile : c.photos[c.photoProgress.completed]? with
  | none =>
    simp only [hfile, Prod.mk.injEq] at h
    exact Or.inl ⟨List.getElem?_eq_none_iff.mp hfile, h.2.symm, h.1.symm⟩
  | some file =>
    have hlt := (List.getElem?_eq_some_iff.mp hfile).1
    simp only [hfile] at h
    cases hpending : c.photoProgress.pendingConfirmation with
    | some intentId =>
      simp only [hpending, uploadPhoto, Prod.mk.injEq] at h
      exact Or.inr (Or.inr ⟨hlt, h.1.symm, _, h.2.symm, Or.inl ⟨intentId, rfl, rfl⟩⟩)
    | none =>
      cases hrequest : uploadPhoto toLowerCase file none with
      | none =>
        simp only [hpending, hrequest, photosFailed, Prod.mk.injEq] at h
        exact Or.inr (Or.inl ⟨rfl, h.2.symm, h.1.symm⟩)
      | some request =>
        simp only [hpending, hrequest, Prod.mk.injEq] at h
        refine Or.inr (Or.inr ⟨hlt, h.1.symm, request, h.2.symm, Or.inr ⟨rfl, ?_⟩⟩)
        simp only [uploadPhoto] at hrequest
        split at hrequest
        · cases hrequest
        · obtain ⟨contentType, -, rfl⟩ := Option.map_eq_some_iff.mp hrequest
          exact ⟨_, _, rfl⟩

/-- A retry does nothing, or asks for the photo that is next. -/
theorem retryPhotos_cases (toLowerCase : String → String) (c : CreateItemController) :
    retryPhotos toLowerCase c = (c, []) ∨ ∃ current, c.state = some current ∧
      current.isUploadingPhotos = false ∧ retryPhotos toLowerCase c =
        uploadPhotos toLowerCase current.id
          { c with state := some ⟨current.id, true, false⟩ } := by
  unfold retryPhotos
  cases hstate : c.state with
  | none => exact Or.inl rfl
  | some current =>
    dsimp only
    split
    · exact Or.inl rfl
    · rename_i hgo
      rw [Bool.or_eq_true, not_or, Bool.not_eq_true, Bool.not_eq_true] at hgo
      exact Or.inr ⟨current, rfl, hgo.2, rfl⟩

/-- What an answer does. -/
theorem resume_cases {w : PhotoWait} {a : PhotoAnswer}
    (h : resume toLowerCase w a c = some (c', ws)) :
    (∃ contentType sizeBytes intentId key file, w.request = .presign contentType sizeBytes ∧
      a = .presigned intentId key ∧ c' = c ∧
        ws = [{ w with request := .post intentId key file contentType }]) ∨
    (∃ intentId key bytes contentType, w.request = .post intentId key bytes contentType ∧ a = .ok ∧
      c' = { c with
        photoProgress := { c.photoProgress with pendingConfirmation := some intentId } } ∧
        ws = [{ w with request := .confirm intentId }]) ∨
    (∃ intentId, w.request = .confirm intentId ∧ a = .ok ∧
      uploadPhotos toLowerCase w.itemId
        { c with photoProgress := ⟨c.photoProgress.completed + 1, none⟩ } = (c', ws)) ∨
    (∃ intentId, w.request = .confirm intentId ∧ a = .rejected ∧ ws = [] ∧
      c' = ⟨some ⟨w.itemId, false, true⟩, c.photos, ⟨c.photoProgress.completed, none⟩⟩) ∨
    (a = .failed ∨ a = .rejected ∧ ∀ intentId, w.request ≠ .confirm intentId) ∧ ws = [] ∧
      c' = { c with state := some ⟨w.itemId, false, true⟩ } := by
  unfold resume at h
  cases hr : w.request with
  | presign contentType sizeBytes =>
    cases a with
    | presigned intentId key =>
      simp only [hr] at h
      obtain ⟨file, -, heq⟩ := Option.map_eq_some_iff.mp h
      obtain ⟨rfl, rfl⟩ := Prod.mk.inj heq
      exact Or.inl ⟨contentType, sizeBytes, intentId, key, file.bytes, rfl, rfl, rfl, rfl⟩
    | ok => simp only [hr] at h; cases h
    | rejected | failed =>
      simp only [hr, photosFailed, Option.some.injEq, Prod.mk.injEq] at h
      simp [h.1.symm, h.2.symm]
  | post intentId key bytes contentType =>
    cases a with
    | presigned => simp only [hr] at h; cases h
    | ok =>
      simp only [hr, Option.some.injEq, Prod.mk.injEq] at h
      exact Or.inr (Or.inl ⟨intentId, key, bytes, contentType, rfl, rfl, h.1.symm, h.2.symm⟩)
    | rejected | failed =>
      simp only [hr, photosFailed, Option.some.injEq, Prod.mk.injEq] at h
      simp [h.1.symm, h.2.symm]
  | confirm intentId =>
    cases a with
    | presigned => simp only [hr] at h; cases h
    | ok =>
      simp only [hr, Option.some.injEq] at h
      exact Or.inr (Or.inr (Or.inl ⟨intentId, rfl, rfl, h⟩))
    | rejected | failed =>
      simp only [hr, photosFailed, Option.some.injEq, Prod.mk.injEq] at h
      simp [h.1.symm, h.2.symm]

end App

/-! ## The server -/

namespace PhotoWait

/-- The call that a request is; its client draws the ids. -/
def call (userId : Id) (uuid : String) (drawn : Id) (w : PhotoWait) : Call :=
  match w.request with
  | .presign contentType sizeBytes =>
    .requestUploadUrl userId ⟨.itemPhoto, contentType, sizeBytes, some w.itemId, none, none, none⟩
      uuid drawn
  | .post _ key bytes contentType => .clientUpload key bytes contentType
  | .confirm intentId =>
    .confirmItemPhoto userId ⟨intentId, some w.index, some (w.index == 0)⟩ drawn

/-- What the request may do. -/
def allows (drawn : Id) (w : PhotoWait) : Past Sys → Sosedi.Event → Prop :=
  match w.request with
  | .presign .. => IssuesFor drawn w.itemId
  | .post .. => LeavesPhotos
  | .confirm intentId => Confirms intentId drawn w.index (w.index == 0)

/-- When it fails. -/
def refuses (w : PhotoWait) : Error → Past Sys → Prop :=
  match w.request with
  | .confirm intentId => Refused intentId
  | _ => fun _ _ => True

/-- What it has done when it succeeds. -/
def returns (drawn : Id) (w : PhotoWait) (past : Past Sys) : Prop :=
  match w.request with
  | .presign .. => ∃ intent, past.events (.upload (.issue drawn intent))
  | .post .. => True
  | .confirm intentId => HasPhoto intentId past

theorem refuses_confirm {w : PhotoWait} {intentId : Id} (h : w.request = .confirm intentId) :
    w.refuses = Refused intentId := by
  unfold refuses
  rw [h]

theorem careful_call {sha256 : Bytes → String} (userId : Id) (uuid : String) (drawn : Id)
    (w : PhotoWait) : ((w.call userId uuid drawn).prog sha256).Careful
      (Observer.past (w.allows drawn)) w.refuses (fun _ past _ => w.returns drawn past)
      (Observer.past (w.allows drawn)).start [] := by
  obtain ⟨itemId, index, request⟩ := w
  cases request with
  | presign contentType sizeBytes =>
    exact UploadService.careful_requestUploadUrl userId itemId contentType sizeBytes uuid drawn
  | post intentId key bytes contentType =>
    exact UploadService.careful_clientUpload key bytes contentType
  | confirm intentId => exact UploadService.careful_confirmItemPhotoUpload userId

end PhotoWait

/-- How a request ended that did not succeed: with status 400, or otherwise. -/
inductive Ending where
  | refused
  | harmed
  deriving DecidableEq

/-- A request that has reached the server. -/
structure PhotoServing where
  client : Nat
  wait : PhotoWait
  /-- The id of the intent or of the photo. -/
  drawn : Id
  /-- The app still waits for its answer. -/
  heard : Bool
  ending : Option Ending

def Finished (s : State Sys) (i : Nat) : Bool :=
  match (s.thread i).prog with
  | .ret _ => true
  | _ => false

namespace PhotoServing

/-- After the next node of its client. -/
def advance (s : State Sys) (sv : PhotoServing) : PhotoServing :=
  match (s.thread sv.client).prog with
  | .throw e =>
    { sv with ending := some (if e.status = .badRequest then .refused else .harmed) }
  | _ => sv

def reply (s : State Sys) (sv : PhotoServing) : Option PhotoAnswer :=
  if Finished s sv.client then
    match sv.ending, sv.wait.request with
    | some .refused, _ => some .rejected
    | some .harmed, _ => some .failed
    | none, .presign .. => (s.db.uploads.issued.get sv.drawn).map fun intent =>
      .presigned sv.drawn intent.objectKey
    | none, _ => some .ok
  else none

variable {s : State Sys} {sv : PhotoServing}

/-- Where the answer comes from. -/
theorem reply_cases {a : PhotoAnswer} (h : sv.reply s = some a) : Finished s sv.client = true ∧
    (sv.ending = some .refused ∧ a = .rejected ∨ sv.ending = some .harmed ∧ a = .failed ∨
      sv.ending = none ∧ ((∃ contentType sizeBytes key,
        sv.wait.request = .presign contentType sizeBytes ∧ a = .presigned sv.drawn key) ∨
        (∀ contentType sizeBytes, sv.wait.request ≠ .presign contentType sizeBytes) ∧
          a = .ok)) := by
  unfold reply at h
  split at h
  · rename_i hfinished
    refine ⟨hfinished, ?_⟩
    cases hending : sv.ending with
    | some ending =>
      simp only [hending] at h
      cases ending with
      | refused =>
        cases h
        exact Or.inl ⟨rfl, rfl⟩
      | harmed =>
        cases h
        exact Or.inr (Or.inl ⟨rfl, rfl⟩)
    | none =>
      refine Or.inr (Or.inr ⟨rfl, ?_⟩)
      cases hrequest : sv.wait.request with
      | presign contentType sizeBytes =>
        simp only [hending, hrequest] at h
        obtain ⟨intent, -, rfl⟩ := Option.map_eq_some_iff.mp h
        exact Or.inl ⟨contentType, sizeBytes, intent.objectKey, rfl, rfl⟩
      | post | confirm =>
        simp only [hending, hrequest] at h
        cases h
        exact Or.inr ⟨fun _ _ hno => PhotoRequest.noConfusion hno, rfl⟩
  · cases h

end PhotoServing

structure Publication where
  app : Config CreateItemController PhotoWait
  server : State Sys
  serving : Option PhotoServing

inductive PublicationMove where
  /-- The request of the app reaches the server. -/
  | deliver (uuid : String) (drawn : Id)
  /-- The server works on it, or its client there is killed. -/
  | serve
  | kill
  | answer
  /-- The app hears of no answer. -/
  | lose
  | retry
  /-- Another client of the server moves. -/
  | other (m : Move Sys)

namespace Publication

/-- The server is done with the last request. -/
def idle (p : Publication) : Bool :=
  match p.serving with
  | none => true
  | some sv => !sv.heard && Finished p.server sv.client

variable (sha256 : Bytes → String) (toLowerCase : String → String) (userId : Id)

def fire : PublicationMove → Publication → Option Publication
  | .deliver uuid drawn, p =>
    match p.app.waits with
    | w :: _ =>
      if p.idle then
        (p.server.fire (.start ((w.call userId uuid drawn).prog sha256))).map fun server =>
          { p with server, serving := some ⟨p.server.threads.length, w, drawn, true, none⟩ }
      else none
    | [] => none
  | .serve, p => p.serving.bind fun sv =>
    (p.server.fire (.run sv.client)).map fun server =>
      { p with server, serving := some (sv.advance p.server) }
  | .kill, p => p.serving.bind fun sv =>
    (p.server.fire (.crash sv.client)).map fun server =>
      { p with server, serving := some { sv with ending := some .harmed } }
  | .answer, p => p.serving.bind fun sv =>
    if sv.heard then
      (sv.reply p.server).bind fun a =>
        ((publicationLoop toLowerCase).step (.answer sv.wait a) p.app).map fun app =>
          { p with app, serving := none }
    else none
  | .lose, p =>
    match p.app.waits with
    | w :: _ => ((publicationLoop toLowerCase).step (.answer w .failed) p.app).map fun app =>
      { p with app, serving := p.serving.map ({ · with heard := false }) }
    | [] => none
  | .retry, p => ((publicationLoop toLowerCase).step (.call .retryPhotos) p.app).map fun app =>
    { p with app }
  | .other m, p => (p.server.fire m).map fun server => { p with server }

end Publication

end Mobile

end Sosedi
