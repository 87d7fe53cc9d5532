import Sosedi.Deals.Frames

/-!
# What others leave alone of accounts and listings

Proved here: what a transaction found out about unfinished bookings (`persists_settled`,
`Other.swept`) and about the changes of an item (`persists_checkedPending`) stays true, and a
locked row of the blocks between users keeps its place (`Other.contains_userBlocks`).
-/

namespace Sosedi

open Transactions

variable {sha256 : Bytes → String} {ok : Event → Store → Prop} {L : List LockKey} {a b : Store}

/-- A finished booking stays finished. -/
theorem DealMove.finished_apply {k : Id} {m : DealMove} {d : Deal} {w : World}
    (hg : m.guard k d w) (h : d.booking.status.unfinished = false) :
    (m.apply k d).booking.status.unfinished = false := by
  rcases DealMove.status_apply hg with ⟨l, -, hp, -⟩ | ⟨-, hs⟩
  · rw [hp] at h
    cases h
  · generalize d.booking.status = s at h hs
    generalize (m.apply k d).booking.status = s' at hs ⊢
    cases hs with
    | same => exact h
    | cancel | returnAndComplete | complete => rfl
    | activate | «return» => cases h

variable (sha256 ok) in
theorem persists_settled (seen : List Id) (p : Booking → Bool)
    (hp : ∀ b b' : Booking, b.terms = b'.terms → p b = p b') :
    Persists (contract sha256 ok) fun σ => Settled seen p σ.1 := by
  rintro K a b ⟨-, ev, -, hg⟩ h k hk
  obtain ⟨d, hd, hfinished⟩ := h k hk
  obtain ⟨hb, hguard, -⟩ := hg.get_of_get hd
  refine ⟨_, hb, fun hpd => DealMove.finished_apply hguard (hfinished ?_)⟩
  rw [← hp _ _ ((ev.move k).terms_apply k d)]
  exact hpd

/-- What a search for unfinished bookings that finds none says. -/
theorem settled_bookingIds {db : Database} {p : Booking → Bool}
    (h : db.unfinishedBooking p = false) : Settled db.bookingIds p db := by
  intro k hk
  obtain ⟨d, hd, -⟩ := Table.mem_keysWhere.mp hk
  refine ⟨d, hd, fun hp => ?_⟩
  have := Table.any_eq_false.mp h k d hd
  rwa [hp, Bool.true_and] at this

theorem UsersService.betweenUsers_of_terms (x y : Id) {b b' : Booking} (h : b.terms = b'.terms) :
    UsersService.betweenUsers x y b = UsersService.betweenUsers x y b' := by
  simp only [UsersService.betweenUsers, borrowerId_of_terms h, lenderId_of_terms h]

theorem persists_swept (x y : Id) (cancelled seen : List Id) (now : Time) :
    Persists (contract sha256 ok) fun σ => Swept x y cancelled seen now σ.1 := by
  rintro K a b ⟨hinv, ev, -, hg⟩ h k hk
  obtain ⟨d, hd, hswept⟩ := h k hk
  obtain ⟨hb, hguard, -⟩ := hg.get_of_get hd
  refine ⟨_, hb, fun hbetween hpending => ?_⟩
  have hidle : ev.move k = .idle := by
    refine DealMove.idle_of_pending (hinv.pending k d hd) hguard ?_
    simp only [Database.unexpiredPending, Bool.and_eq_true, beq_iff_eq] at hpending
    exact hpending.1
  rw [hidle] at hbetween hpending
  exact hswept hbetween hpending

/-- An item after a step: it stays, and its changes only grow. -/
theorem Event.get_applyItems (ev : Event) {t : Table Id Item} {itemId : Id} {item : Item}
    (h : t.get itemId = some item) : ∃ item', (ev.applyItems t).get itemId = some item' ∧
      (item' = item ∨ ∃ change, item'.changes = item.changes ++ [change]) := by
  have hmodify : ∀ (k : Id) (f : Item → Item), (∀ x, ∃ change, (f x).changes = x.changes ++ [change]) →
      ∃ item', (t.modify k f).get itemId = some item' ∧
        (item' = item ∨ ∃ change, item'.changes = item.changes ++ [change]) := by
    intro k f hf
    rw [Table.modify, Table.get_mapRows, h]
    refine ⟨_, rfl, ?_⟩
    split
    · exact Or.inr (hf item)
    · exact Or.inl rfl
  unfold applyItems
  split
  · exact hmodify _ _ fun x => ⟨_, rfl⟩
  · exact hmodify _ _ fun x => ⟨_, rfl⟩
  · exact hmodify _ _ fun x => ⟨_, rfl⟩
  · exact hmodify _ _ fun x => ⟨_, rfl⟩
  · exact hmodify _ _ fun x => ⟨_, rfl⟩
  · exact hmodify _ _ fun x => ⟨_, rfl⟩
  · exact ⟨item, h, Or.inl rfl⟩

variable (sha256 ok) in
theorem persists_checkedPending (itemId : Id) (checkedAt : Nat) :
    Persists (contract sha256 ok) fun σ => CheckedPending itemId checkedAt σ.1 := by
  rintro K a b ⟨-, ev, -, hg⟩ ⟨item, hitem, hle, hpending⟩
  obtain ⟨item', hitem', hchange⟩ := ev.get_applyItems hitem
  rw [← hg.accounts.items] at hitem'
  rcases hchange with rfl | ⟨change, hchanges⟩
  · exact ⟨item', hitem', hle, hpending⟩
  · refine ⟨item', hitem', ?_, fun heq => ?_⟩
    · simp only [hchanges, List.length_append, List.length_singleton]
      omega
    · simp only [hchanges, List.length_append, List.length_singleton] at heq
      omega

theorem Event.contains_applyBlocks {ev : Event} {x y : Id} (l : List (Id × Id))
    (hblock : ∀ cancelled seen now, ev ≠ .block x y cancelled seen now)
    (hunblock : ev ≠ .account (.unblock x y)) :
    (ev.applyBlocks l).contains (x, y) = l.contains (x, y) := by
  unfold applyBlocks
  split
  · rename_i x' y' cancelled seen now
    split
    · rfl
    · have hne : (x, y) ≠ (x', y') := by
        rintro ⟨⟩
        exact hblock _ _ _ rfl
      simp [hne]
  · rename_i x' y'
    have hne : (x, y) ≠ (x', y') := by
      rintro ⟨⟩
      exact hunblock rfl
    rw [Bool.eq_iff_iff]
    simp [List.mem_filter, hne]
  · rfl

/-- A block whose row is locked stays or stays away. -/
theorem Other.contains_userBlocks {x y : Id} {c : Bool} (hL : .userBlockRow x y ∈ L)
    (h : (contract sha256 ok).Other L a b) (hc : a.1.userBlocks.contains (x, y) = c) :
    b.1.userBlocks.contains (x, y) = c := by
  obtain ⟨ev, K, hK, -, -, hg⟩ := Contract.Other.elim h
  rw [hg.accounts.blocks, Event.contains_applyBlocks, hc]
  · rintro cancelled seen now rfl
    exact hK _ hg.accounts.guard.1 hL
  · rintro rfl
    exact hK _ hg.accounts.guard hL

end Sosedi
