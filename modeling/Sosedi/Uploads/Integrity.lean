import Sosedi.Scripts

/-!
# The hashes of evidence

A verification overwrites the uploaded object and hashes what it wrote.  The presigned form
outlives it, and its intent stays open until a submission consumes it.

Proved here: where nothing else is stored under a key once a verification has written there,
every row of evidence tells the hash of the object under its key (`evidence_integrity`); a
borrower who uses the form again breaks the hash of the handover
(`Scenario.evidence_integrity_reused`).
-/

namespace Sosedi

open Transactions

variable {sha256 : Bytes → String} {s₀ s : State Sys} {ev : Event} {w : World} {key : String}

/-- What is stored under a key of the private bucket. -/
def ObjectStorage.contents (storage : ObjectStorage) (key : String) : Option Bytes :=
  (storage.getObject .privateBucket key).map (·.bytes)

/-- The key of the private bucket that an event writes or empties, and what is there then. -/
def Event.stores (w : World) : Event → Option (String × Option Bytes)
  | .upload (.clientUpload key bytes contentType) =>
    if w.storage.accepts w.now key bytes contentType then some (key, some bytes) else none
  | .upload (.sanitize _ intent bytes) => some (intent.objectKey, some bytes)
  | .upload (.deleteSource key) => some (key, none)
  | .upload (.cleanIntent _ intent _ _) => some (intent.objectKey, none)
  | .upload (.cleanOrphan key _) => some (key, none)
  | _ => none

/-- Where a verification has written, the event stores only what has the same hash. -/
def keepsHashed (sha256 : Bytes → String) (ev : Event) (σ : Store) : Bool :=
  match ev.stores σ.2 with
  | some (key, after) => σ.2.storage.hashed.all fun x =>
    x.1 != key || after.map sha256 == some (sha256 x.2)
  | none => true

/-- Where a verification has written, what is stored has the hash of what it wrote. -/
def HashedAsStored (sha256 : Bytes → String) (σ : Store) : Prop :=
  ∀ x ∈ σ.2.storage.hashed, (σ.2.storage.contents x.1).map sha256 = some (sha256 x.2)

/-! ## Steps -/

theorem contents_putObject (storage : ObjectStorage) (key key' : String) (o : StoredObject) :
    (storage.putObject .privateBucket key o).contents key' =
      if key' = key then some o.bytes else storage.contents key' := by
  simp only [ObjectStorage.contents, ObjectStorage.getObject_putObject, Prod.mk.injEq, true_and]
  split <;> rfl

theorem contents_deleteObject (storage : ObjectStorage) (key key' : String) :
    (storage.deleteObject .privateBucket key).contents key' =
      if key' = key then none else storage.contents key' := by
  simp only [ObjectStorage.contents, ObjectStorage.getObject_deleteObject, Prod.mk.injEq,
    true_and]
  split <;> rfl

theorem contents_of_stores {stored : String} {after : Option Bytes}
    (h : ev.stores w = some (stored, after)) :
    (ev.applyWorld sha256 w).storage.contents key =
      if key = stored then after else w.storage.contents key := by
  cases ev with
  | upload u =>
    cases u with
    | clientUpload k bytes contentType =>
      simp only [Event.stores] at h
      split at h
      · rename_i hacc
        cases h
        simp only [Event.applyWorld, Event.applyStorage, hacc, if_true]
        exact contents_putObject ..
      · cases h
    | sanitize id intent bytes =>
      cases h
      exact contents_putObject w.storage intent.objectKey key _
    | deleteSource k | cleanIntent id intent photo now | cleanOrphan k now =>
      cases h
      exact contents_deleteObject ..
    | _ => cases h
  | _ => cases h

theorem contents_of_stores_none (h : ev.stores w = none) :
    (ev.applyWorld sha256 w).storage.contents key = w.storage.contents key := by
  cases ev with
  | upload u =>
    cases u with
    | clientUpload k bytes contentType =>
      simp only [Event.stores] at h
      split at h
      · cases h
      · rename_i hacc
        simp only [Event.applyWorld, Event.applyStorage, hacc, if_false, Bool.false_eq_true]
    | putPublic k bytes contentType =>
      simp only [Event.applyWorld, Event.applyStorage, ObjectStorage.contents,
        ObjectStorage.getObject_putObject, Prod.mk.injEq, reduceCtorEq, false_and, if_false]
    | sanitize | deleteSource | cleanIntent | cleanOrphan => cases h
    | _ => rfl
  | _ => rfl

/-- A verification is the only step that remembers a hash, and it stores what it hashes. -/
theorem stores_of_mem_hashed {x : String × Bytes}
    (h : x ∈ (ev.applyWorld sha256 w).storage.hashed) :
    x ∈ w.storage.hashed ∨ ev.stores w = some (x.1, some x.2) := by
  rcases Event.mem_hashed_inv h with h | ⟨id, intent, rfl, hkey⟩
  · exact Or.inl h
  · exact Or.inr (by rw [hkey]; rfl)

theorem HashedAsStored.step {K : List LockKey} {a b : Store} (h : HashedAsStored sha256 a)
    (hok : keepsHashed sha256 ev a = true) (hu : UploadStep sha256 ev K a b) :
    HashedAsStored sha256 b := by
  intro x hx
  rw [hu.world] at hx ⊢
  unfold keepsHashed at hok
  cases hst : ev.stores a.2 with
  | none =>
    rw [contents_of_stores_none hst]
    rcases stores_of_mem_hashed hx with hx | hx
    · exact h x hx
    · rw [hst] at hx
      cases hx
  | some p =>
    obtain ⟨key, after⟩ := p
    rw [contents_of_stores hst]
    rw [hst] at hok
    rcases stores_of_mem_hashed hx with hx | hx
    · split
      · rename_i hkey
        have hsame := List.all_eq_true.mp hok x hx
        simpa [hkey] using hsame
      · exact h x hx
    · rw [hst, Option.some.injEq, Prod.mk.injEq] at hx
      obtain ⟨rfl, rfl⟩ := hx
      simp

/-! ## Runs -/

/-- The row is one of booking or dispute evidence. -/
def Database.HasEvidence (db : Database) (e : Evidence) : Prop :=
  (∃ k, db.uploads.bookingEvidence.get k = some e) ∨ ∃ k, db.uploads.disputeEvidence.get k = some e

theorem recordedHash_of_evidence {σ : Store} {e : Evidence} (hv : UploadInv sha256 σ)
    (he : σ.1.HasEvidence e) : RecordedHash sha256 σ.2.storage e := by
  rcases he with ⟨k, hk⟩ | ⟨k, hk⟩
  · exact (hv.bookingEvidence k e hk).2
  · exact (hv.disputeEvidence k e hk).2

/-- **The object of a row of evidence has the recorded hash**, in every state of a run that
stores nothing else where a verification has written. -/
theorem evidence_integrity (h : Runs sha256 (fun ev σ => keepsHashed sha256 ev σ = true) s₀ s)
    {e : Evidence} (he : s.db.HasEvidence e) :
    ∃ o, s.world.storage.getObject .privateBucket e.storageKey = some o ∧
      sha256 o.bytes = e.sha256 := by
  have hstored : HashedAsStored sha256 s.store := by
    refine h.invariant ?_ fun ev K a b _ hok hg hP => hP.step hok hg.uploads
    intro σ hi x hx
    rw [hi.hashed] at hx
    cases hx
  obtain ⟨written, hw, hhash⟩ := recordedHash_of_evidence h.inv.uploads he
  have hcontents := hstored _ hw
  obtain ⟨bytes, hbytes, hsame⟩ := Option.map_eq_some_iff.mp hcontents
  obtain ⟨o, ho, rfl⟩ := Option.map_eq_some_iff.mp hbytes
  exact ⟨o, ho, hsame.trans hhash.symm⟩

namespace Scenario

/-- The run of a script in which nothing is stored over what a verification wrote. -/
abbrev hashesKept (ev : Event) (σ : Store) : Prop := keepsHashed hash ev σ = true

theorem evidence_integrity_handover :
    ∃ e, (play hashesKept hash state handedOver).db.HasEvidence e ∧
      ∃ o, (play hashesKept hash state handedOver).world.storage.getObject .privateBucket
        e.storageKey = some o ∧ hash o.bytes = e.sha256 := by
  have hrow : ((play hashesKept hash state handedOver).db.uploads.bookingEvidence.get
      30).isSome := by decide +kernel
  obtain ⟨e, he⟩ := Option.isSome_iff_exists.mp hrow
  exact ⟨e, Or.inl ⟨30, he⟩, evidence_integrity ((runs hashesKept).play handedOver)
    (Or.inl ⟨30, he⟩)⟩

/-- The lender sends another photo to the form of the handover. -/
def reused : List Line :=
  handedOver ++ [.call (.clientUpload
    (UploadService.getBookingEvidenceQuarantinePrefix 10 2 ++ "photo.jpg") [0xff, 0xd8, 0xfe]
      "image/jpeg"), .run 7 1]

theorem evidence_integrity_reused :
    ∃ s, Runs hash anyEvent state s ∧ ∃ e, s.db.HasEvidence e ∧
      ∃ o, s.world.storage.getObject .privateBucket e.storageKey = some o ∧
        hash o.bytes ≠ e.sha256 := by
  refine ⟨play anyEvent hash state reused, (runs anyEvent).play reused, ?_⟩
  have hrow : (((play anyEvent hash state reused).db.uploads.bookingEvidence.get 30).bind fun e =>
      ((play anyEvent hash state reused).world.storage.getObject .privateBucket
        e.storageKey).map fun o => decide (hash o.bytes ≠ e.sha256)) = some true := by
    decide +kernel
  generalize play anyEvent hash state reused = s at hrow
  obtain ⟨e, he, hobject⟩ := Option.bind_eq_some_iff.mp hrow
  obtain ⟨o, ho, hne⟩ := Option.map_eq_some_iff.mp hobject
  exact ⟨e, Or.inl ⟨30, he⟩, o, ho, of_decide_eq_true hne⟩

end Scenario

end Sosedi
