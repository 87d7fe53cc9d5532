import Sosedi.Scripts

/-!
# Blocks between users

`blockUser` cancels the requests that it finds, `create` looks for a block before it inserts,
and neither takes a lock of the other.

Proved here: a request that is created around a block stays open (`Scenario.block_stops_deals_race`);
in a run in which the block finds every open request of the pair and no request is inserted
after it, no open request of the pair is left and none gets confirmed (`block_stops_deals`).
-/

namespace Sosedi

open Transactions UsersService

variable {d d' : Deal} {k x y : Id}

/-- No open request between the two users. -/
def NoOpenRequest (x y : Id) (σ : Store) : Prop :=
  ∀ k d, σ.1.deals.get k = some d → betweenUsers x y d.booking = true →
    Database.unexpiredPending σ.2.now d.booking = false

/-- No request is inserted between users of whom one blocked the other, a block has found every
open request of its pair, and no request of a blocked pair is confirmed after it expired. -/
def blocksInTime : Event → Store → Bool
  | .create _ d _, σ => !σ.1.interactionBlock d.booking.borrowerId d.booking.lenderId
  | .block blockerId blockedId _ seen _, σ => !σ.1.deals.any fun k d =>
    betweenUsers blockerId blockedId d.booking &&
      Database.unexpiredPending σ.2.now d.booking && !seen.contains k
  | .confirm id _ _, σ => (σ.1.booking id).all fun b =>
    !σ.1.interactionBlock b.borrowerId b.lenderId || b.expiresAt.any (· > σ.2.now)
  | _, _ => true

/-- The blocks of the store stop the requests of their pairs. -/
def BlocksHold (σ : Store) : Prop := ∀ x y, (x, y) ∈ σ.1.userBlocks → NoOpenRequest x y σ

variable {sha256 : Bytes → String} {ev : Event} {K : List LockKey} {a b : Store}

theorem Guar.now_le (hg : Guar sha256 ev K a b) : a.2.now ≤ b.2.now := by
  rw [hg.uploads.world]
  exact Event.now_applyWorld ev a.2

theorem interactionBlock_of_mem {db : Database} {booking : Booking}
    (h : (x, y) ∈ db.userBlocks) (hb : betweenUsers x y booking = true) :
    db.interactionBlock booking.borrowerId booking.lenderId = true := by
  simp only [Database.interactionBlock, List.any_eq_true]
  simp only [betweenUsers, Bool.or_eq_true, Bool.and_eq_true, beq_iff_eq] at hb
  refine ⟨(x, y), h, ?_⟩
  rcases hb with ⟨hx, hy⟩ | ⟨hx, hy⟩ <;> simp [hx, hy]

/-- An expired request stays expired. -/
theorem unexpiredPending_mono {now now' : Time} {booking : Booking} (h : now ≤ now')
    (hp : Database.unexpiredPending now booking = false) :
    Database.unexpiredPending now' booking = false := by
  by_contra hopen
  simp only [Database.unexpiredPending, Bool.not_eq_false, Bool.and_eq_true, beq_iff_eq,
    Option.any_eq_true, decide_eq_true_eq] at hopen
  obtain ⟨hs, endsAt, hends, hlt⟩ := hopen
  have hlt' : now < endsAt := Int.lt_of_le_of_lt h hlt
  simp [Database.unexpiredPending, hs, hends, hlt'] at hp

/-- A request that is open after a step was open before, untouched, or is new. -/
theorem pending_inv (hinv : Inv sha256 a) (hg : Guar sha256 ev K a b)
    (hd' : b.1.deals.get k = some d') (hp : d'.booking.status = .pending) :
    (a.1.deals.get k = some d' ∧ ev.move k = .idle) ∨ ∃ read, ev = .create k d' read := by
  rcases hg.get_inv hd' with ⟨d, hd, rfl, hguard, -⟩ | ⟨-, read, hev, -⟩
  · have hidle : ev.move k = .idle :=
      DealMove.idle_of_pending (hinv.pending k d hd) hguard hp
    rw [hidle] at *
    exact Or.inl ⟨hd, rfl⟩
  · exact Or.inr ⟨read, hev⟩

theorem Event.mem_applyBlocks {l : List (Id × Id)} (h : (x, y) ∈ ev.applyBlocks l) :
    (x, y) ∈ l ∨ ∃ cancelled seen now, ev = .block x y cancelled seen now := by
  unfold applyBlocks at h
  split at h
  · split at h
    · exact Or.inl h
    · rw [List.mem_append, List.mem_singleton] at h
      rcases h with h | h
      · exact Or.inl h
      · cases h
        exact Or.inr ⟨_, _, _, rfl⟩
  · exact Or.inl (List.mem_of_mem_filter h)
  · exact Or.inl h

theorem BlocksHold.step (hinv : Inv sha256 a) (hok : blocksInTime ev a = true)
    (hg : Guar sha256 ev K a b) (h : BlocksHold a) : BlocksHold b := by
  intro x y hxy k d hd hbetween
  by_contra hopen
  rw [Bool.not_eq_false] at hopen
  have hp : d.booking.status = .pending := by
    simp only [Database.unexpiredPending, Bool.and_eq_true, beq_iff_eq] at hopen
    exact hopen.1
  have hnow : ∀ now, now ≤ b.2.now → Database.unexpiredPending now d.booking = true := by
    intro now hle
    by_contra hnot
    rw [unexpiredPending_mono hle (by simpa using hnot)] at hopen
    cases hopen
  rw [hg.accounts.blocks] at hxy
  rcases pending_inv hinv hg hd hp with ⟨hd, hidle⟩ | ⟨read, rfl⟩
  · rcases Event.mem_applyBlocks hxy with hxy | ⟨cancelled, seen, now, rfl⟩
    · have := h x y hxy k d hd hbetween
      rw [hnow _ hg.now_le] at this
      cases this
    · -- the block found the request and cancelled it
      obtain ⟨-, hle, hswept⟩ := hg.accounts.guard
      have hseen : k ∈ seen := by
        simp only [blocksInTime, Bool.not_eq_true', Table.any_eq_false] at hok
        simpa [hbetween, hnow _ hg.now_le] using hok k d hd
      obtain ⟨d', hd', hcancelled⟩ := hswept k hseen
      rw [hd, Option.some.injEq] at hd'
      subst hd'
      have hmem := hcancelled hbetween (hnow now (Int.le_trans hle hg.now_le))
      simp [Event.move, hmem] at hidle
  · simp only [blocksInTime, Bool.not_eq_true'] at hok
    rw [interactionBlock_of_mem hxy hbetween] at hok
    cases hok

/-! ## Runs -/

variable {s₀ s : State Sys}

theorem Runs.blocksHold (h : Runs sha256 (fun ev σ => blocksInTime ev σ = true) s₀ s) :
    BlocksHold s.store := by
  refine h.invariant (fun σ hi => ?_) fun _ _ _ _ hinv hok hg => BlocksHold.step hinv hok hg
  intro x y _ k d hd
  rw [hi.deals] at hd
  cases hd

/-- A booking that a step confirms was an open request. -/
theorem confirmed_inv (hg : Guar sha256 ev K a b) (hd : a.1.deals.get k = some d)
    (hd' : b.1.deals.get k = some d') (hs' : d'.booking.status = .confirmed)
    (hs : d.booking.status ≠ .confirmed) :
    d.booking.status = .pending ∧ ∃ l competitors, ev = .confirm k l competitors := by
  obtain ⟨hb, hguard, -⟩ := hg.get_of_get hd
  rw [hd', Option.some.injEq] at hb
  subst hb
  rcases DealMove.status_apply hguard with ⟨l, hm, hp, -⟩ | ⟨-, hchange⟩
  · exact ⟨hp, l, Event.confirm_of_move hm⟩
  · rw [hs'] at hchange
    generalize d.booking.status = s at hs hchange
    cases hchange
    exact absurd rfl hs

/-- **A block between two users stops their deals**, in every run that is in time: while the
block stands, no open request of the pair is left and none gets confirmed. -/
theorem block_stops_deals (h : Runs sha256 (fun ev σ => blocksInTime ev σ = true) s₀ s)
    (hblock : (x, y) ∈ s.db.userBlocks) (hd : s.db.deals.get k = some d)
    (hbetween : betweenUsers x y d.booking = true) :
    Database.unexpiredPending s.world.now d.booking = false ∧
      ∀ m s' d', s.Admits (Calls sha256) (fun ev σ => blocksInTime ev σ = true) m →
        s.fire m = some s' → s'.db.deals.get k = some d' → d'.booking.status = .confirmed →
        d.booking.status = .confirmed := by
  have hclosed : Database.unexpiredPending s.world.now d.booking = false :=
    h.blocksHold x y hblock k d hd hbetween
  refine ⟨hclosed, fun m s' d' hm hf hd' hs' => ?_⟩
  by_contra hs
  rcases h.step hm hf with he | ⟨ev, K, hok, hg⟩
  · rw [show s'.db = s.db from congrArg Prod.fst he, hd, Option.some.injEq] at hd'
    exact hs (hd' ▸ hs')
  · obtain ⟨hp, l, competitors, rfl⟩ := confirmed_inv hg hd hd' hs' hs
    -- the request was still open when it was confirmed
    have hopen : d.booking.expiresAt.any (· > s.world.now) = true := by
      have hbooking : s.db.booking k = some d.booking := by rw [Database.booking, hd, Option.map_some]
      have hblocked := interactionBlock_of_mem hblock hbetween
      simp only [blocksInTime, State.store, hbooking, Option.all_some, hblocked, Bool.not_true,
        Bool.false_or] at hok
      exact hok
    rw [Database.unexpiredPending, hp, hopen] at hclosed
    cases hclosed

namespace Scenario

/-- The borrower asks for the drill; the lender blocks him after `nodes` nodes of the request. -/
def createAndBlock (nodes : Nat) : List Line :=
  [.call (create 1 10 "r1"), .run 0 nodes, .call (.blockUser 2 1), .run 1 20, .run 0 15]

/-- The block finds the request. -/
theorem block_stops_deals_found : ∃ d,
    (play (fun ev σ => blocksInTime ev σ = true) hash state (createAndBlock 15)).db.deals.get
        10 = some d ∧ d.booking.status = .cancelled ∧ Database.unexpiredPending
      (play (fun ev σ => blocksInTime ev σ = true) hash state (createAndBlock 15)).world.now
        d.booking = false := by
  have hdeal : ((play (fun ev σ => blocksInTime ev σ = true) hash state
      (createAndBlock 15)).db.deals.get 10).map
        (fun d => (d.booking.status, betweenUsers 2 1 d.booking)) = some (.cancelled, true) := by
    decide +kernel
  have hblock : (2, 1) ∈ (play (fun ev σ => blocksInTime ev σ = true) hash state
      (createAndBlock 15)).db.userBlocks := by decide +kernel
  obtain ⟨d, hd, hboth⟩ := Option.map_eq_some_iff.mp hdeal
  obtain ⟨hs, hbetween⟩ := Prod.mk.inj hboth
  exact ⟨d, hd, hs, (block_stops_deals ((runs _).play _) hblock hd hbetween).1⟩

/-- The request has passed its check when the block commits. -/
theorem block_stops_deals_race : ∃ d,
    Runs hash anyEvent state (play anyEvent hash state (createAndBlock 8)) ∧
      (2, 1) ∈ (play anyEvent hash state (createAndBlock 8)).db.userBlocks ∧
      (play anyEvent hash state (createAndBlock 8)).db.deals.get 10 = some d ∧
      betweenUsers 2 1 d.booking = true ∧
      Database.unexpiredPending (play anyEvent hash state (createAndBlock 8)).world.now d.booking =
        true := by
  have hdeal : ((play anyEvent hash state (createAndBlock 8)).db.deals.get 10).map
      (fun d => (betweenUsers 2 1 d.booking, Database.unexpiredPending
        (play anyEvent hash state (createAndBlock 8)).world.now d.booking)) =
          some (true, true) := by decide +kernel
  have hblock : (2, 1) ∈ (play anyEvent hash state (createAndBlock 8)).db.userBlocks := by
    decide +kernel
  obtain ⟨d, hd, hboth⟩ := Option.map_eq_some_iff.mp hdeal
  obtain ⟨hbetween, hopen⟩ := Prod.mk.inj hboth
  exact ⟨d, (runs anyEvent).play _, hblock, hd, hbetween, hopen⟩

end Scenario

end Sosedi
