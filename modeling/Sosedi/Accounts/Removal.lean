import Sosedi.Accounts.Blocks

/-!
# Accounts that are removed

An administrator's block, the decision of a report, `deleteMe` and the finalisation of closures
look for unfinished bookings; `create` looks whether the owner is active.  None of them locks
what the others write.

Proved here: a booking that is created around a closure is one of a removed account
(`Scenario.removed_settled_race`); in a run in which a removal finds every unfinished booking
and no booking of a removed account is inserted, a removed account is in no unfinished deal
(`removed_settled`).
-/

namespace Sosedi

open Transactions

variable {d d' : Deal} {k u : Id}

/-- The account that an event removes, and the bookings there were when it looked for unfinished
ones. -/
def Event.removes : Event → Option (Id × List Id)
  | account (.blockAccount userId seen) => some (userId, seen)
  | account (.closeAccount userId _ (some _) seen) => some (userId, seen)
  | account (.anonymize userId _ seen) => some (userId, seen)
  | _ => none

/-- No booking of a removed account is inserted, and a removal has found every unfinished booking
of its account. -/
def removalsInTime (ev : Event) (σ : Store) : Bool :=
  (match ev with
    | .create _ d _ => [d.booking.borrowerId, d.booking.lenderId].all fun u =>
      (σ.1.users.get u).all fun user => !user.removed
    | _ => true) &&
  ev.removes.all fun r => !σ.1.deals.any fun k d =>
    d.booking.hasParticipant r.1 && d.booking.status.unfinished && !r.2.contains k

/-- No removed account is in an unfinished deal. -/
def RemovedSettled (σ : Store) : Prop :=
  ∀ u user, σ.1.users.get u = some user → user.removed = true →
    ∀ k d, σ.1.deals.get k = some d → d.booking.hasParticipant u = true →
      d.booking.status.unfinished = false

variable {sha256 : Bytes → String} {ev : Event} {K : List LockKey} {a b : Store}

/-- An account that is removed after a step was removed before, or is being removed. -/
theorem Event.removed_inv {t : Table Id User} {user' : User}
    (h : (ev.applyUsers t).get u = some user') (hr : user'.removed = true) :
    (∃ user, t.get u = some user ∧ user.removed = true) ∨ ∃ seen, ev.removes = some (u, seen) := by
  have hkeep : ∀ {id : Id} {f : User → User}, (t.modify id f).get u = some user' →
      (∀ user, (f user).removed = true → user.removed = true ∨ ∃ seen, ev.removes = some (id, seen)) →
      (∃ user, t.get u = some user ∧ user.removed = true) ∨ ∃ seen, ev.removes = some (u, seen) := by
    intro id f hget hf
    rw [Table.get_modify] at hget
    split at hget
    · rename_i hid
      obtain ⟨user, huser, rfl⟩ := Option.map_eq_some_iff.mp hget
      rcases hf user hr with hr | hremoves
      · exact Or.inl ⟨user, huser, hr⟩
      · exact Or.inr (hid ▸ hremoves)
    · exact Or.inl ⟨user', hget, hr⟩
  unfold applyUsers at h
  split at h
  · exact hkeep h fun user hu => Or.inl hu
  · exact hkeep h fun user _ => Or.inr ⟨_, rfl⟩
  · rename_i anonymizedAt seen
    cases anonymizedAt with
    | none => exact hkeep h fun user hu => Or.inl hu
    | some at' => exact hkeep h fun user _ => Or.inr ⟨_, rfl⟩
  · exact hkeep h fun user _ => Or.inr ⟨_, rfl⟩
  · exact Or.inl ⟨user', h, hr⟩

theorem settled_of_removes {seen : List Id} (hr : ev.removes = some (u, seen))
    (hg : ev.AccountGuard K a) : Settled seen (·.hasParticipant u) a.1 := by
  unfold Event.removes at hr
  split at hr
  · cases hr
    exact hg
  · cases hr
    exact hg rfl
  · cases hr
    exact hg
  · cases hr

theorem RemovedSettled.step (hok : removalsInTime ev a = true) (hg : Guar sha256 ev K a b)
    (h : RemovedSettled a) : RemovedSettled b := by
  intro u user' huser' hr k d' hd' hparticipant
  by_contra hunfinished
  rw [Bool.not_eq_false] at hunfinished
  simp only [removalsInTime, Bool.and_eq_true] at hok
  rw [hg.accounts.users] at huser'
  have hremoved := Event.removed_inv huser' hr
  rcases hg.get_inv hd' with ⟨d, hd, rfl, hguard, -⟩ | ⟨-, read, rfl, -⟩
  · rw [hasParticipant_of_terms ((ev.move k).terms_apply k d)] at hparticipant
    have hold : d.booking.status.unfinished = true := by
      by_contra hnot
      rw [DealMove.finished_apply hguard (by simpa using hnot)] at hunfinished
      cases hunfinished
    rcases hremoved with ⟨user, huser, hr⟩ | ⟨seen, hremoves⟩
    · rw [h u user huser hr k d hd hparticipant] at hold
      cases hold
    · -- the removal found the booking and refused
      have hseen : k ∈ seen := by
        have := hok.2
        simp only [hremoves, Option.all_some, Bool.not_eq_true', Table.any_eq_false] at this
        simpa [hparticipant, hold] using this k d hd
      obtain ⟨x, hx, hfinished⟩ := settled_of_removes hremoves hg.accounts.guard k hseen
      rw [hd, Option.some.injEq] at hx
      subst hx
      rw [hfinished hparticipant] at hold
      cases hold
  · rcases hremoved with ⟨user, huser, hr⟩ | ⟨seen, hremoves⟩
    · have hactive : ∀ id ∈ [d'.booking.borrowerId, d'.booking.lenderId], u ≠ id := by
        rintro id hid rfl
        have := List.all_eq_true.mp hok.1 u hid
        simp [huser, hr] at this
      simp only [Booking.hasParticipant, Bool.or_eq_true, beq_iff_eq] at hparticipant
      rcases hparticipant with hp | hp <;> exact hactive _ (by simp) hp.symm
    · cases hremoves

/-! ## Runs -/

variable {s₀ s : State Sys}

/-- **A removed account is in no unfinished deal**, in every run that is in time. -/
theorem removed_settled (h : Runs sha256 (fun ev σ => removalsInTime ev σ = true) s₀ s) :
    RemovedSettled s.store := by
  refine h.invariant (fun σ hi => ?_) fun _ _ _ _ _ hok hg => RemovedSettled.step hok hg
  intro u user _ _ k d hd
  rw [hi.deals] at hd
  cases hd

namespace Scenario

/-- The borrower asks for the drill; the lender deletes the account after `nodes` nodes of the
request. -/
def createAndDelete (nodes : Nat) : List Line :=
  [.call (create 1 10 "r1"), .run 0 nodes, .call (.deleteMe 2), .run 1 20, .run 0 15]

/-- The account goes first, and the request is refused. -/
theorem removed_settled_before :
    ((play (fun ev σ => removalsInTime ev σ = true) hash state (createAndDelete 0)).db.users.get
        2).map (·.removed) = some true ∧
      RemovedSettled
        (play (fun ev σ => removalsInTime ev σ = true) hash state (createAndDelete 0)).store :=
  ⟨by decide +kernel, removed_settled ((runs _).play _)⟩

/-- The request has passed its checks when the account goes. -/
theorem removed_settled_race :
    Runs hash anyEvent state (play anyEvent hash state (createAndDelete 8)) ∧
      ¬RemovedSettled (play anyEvent hash state (createAndDelete 8)).store := by
  refine ⟨(runs anyEvent).play _, fun h => ?_⟩
  have huser : ((play anyEvent hash state (createAndDelete 8)).store.1.users.get 2).map
      (·.removed) = some true := by decide +kernel
  have hdeal : ((play anyEvent hash state (createAndDelete 8)).store.1.deals.get 10).map
      (fun d => (d.booking.hasParticipant 2, d.booking.status.unfinished)) =
        some (true, true) := by decide +kernel
  obtain ⟨user, hu, hr⟩ := Option.map_eq_some_iff.mp huser
  obtain ⟨d, hd, hboth⟩ := Option.map_eq_some_iff.mp hdeal
  obtain ⟨hparticipant, hunfinished⟩ := Prod.mk.inj hboth
  rw [h 2 user hu hr 10 d hd hparticipant] at hunfinished
  cases hunfinished

end Scenario

end Sosedi
