import Sosedi.Scripts

/-!
# The calendar of an item

Proved here: in every state that a run reaches, the bookings that occupy an item and its
unavailable periods are pairwise disjoint (`no_double_booking`).
-/

namespace Sosedi

open Transactions

variable {sha256 : Bytes → String} {ok : Event → Store → Prop} {ev : Event} {K : List LockKey}
  {a b : Store}

/-- The two bookings are of one item and share a day. -/
def Booking.Meets (b b' : Booking) : Prop :=
  b.itemId = b'.itemId ∧ overlaps b.startDate b.endDate b'.startDate b'.endDate

/-- The period is one of the booking's item and shares a day with it. -/
def UnavailablePeriod.MeetsBooking (p : UnavailablePeriod) (b : Booking) : Prop :=
  p.itemId = b.itemId ∧ overlaps p.startDate p.endDate b.startDate b.endDate

def UnavailablePeriod.Meets (p q : UnavailablePeriod) : Prop :=
  p.itemId = q.itemId ∧ overlaps p.startDate p.endDate q.startDate q.endDate

/-- What occupies an item is pairwise disjoint. -/
structure Disjoint (σ : Store) : Prop where
  bookings : ∀ k k' d d', σ.1.deals.get k = some d → σ.1.deals.get k' = some d' → k ≠ k' →
    d.booking.status.reserves → d'.booking.status.reserves → ¬d.booking.Meets d'.booking
  periodBookings : ∀ i p k d, σ.1.periods.get i = some p → σ.1.deals.get k = some d →
    d.booking.status.reserves → ¬p.MeetsBooking d.booking
  periods : ∀ i j p q, σ.1.periods.get i = some p → σ.1.periods.get j = some q → i ≠ j →
    ¬p.Meets q

/-- A booking that occupies its item after a step did so before, or is being confirmed. -/
theorem reserves_inv (hg : Guar sha256 ev K a b) {k : Id} {d' : Deal}
    (hk : b.1.deals.get k = some d') (hr : d'.booking.status.reserves) :
    ∃ d, a.1.deals.get k = some d ∧ d'.booking.terms = d.booking.terms ∧
      (d.booking.status.reserves ∨ ∃ l competitors, ev = .confirm k l competitors) := by
  rcases hg.get_inv hk with ⟨d, hd, rfl, hguard, -⟩ | ⟨-, read, -, hnew⟩
  · refine ⟨d, hd, (ev.move k).terms_apply k d, ?_⟩
    rcases DealMove.status_apply hguard with ⟨l, hm, -, -⟩ | ⟨-, hs⟩
    · exact Or.inr ⟨l, Event.confirm_of_move hm⟩
    · exact Or.inl (reserves_of_statusChange hs hr)
  · rw [hnew.unpaid.2] at hr
    cases hr

/-- A period after a step was there before, or is being added. -/
theorem period_inv (hg : Guar sha256 ev K a b) {i : Id} {p : UnavailablePeriod}
    (hp : b.1.periods.get i = some p) :
    a.1.periods.get i = some p ∨ ev = .addPeriod i p := by
  have hc := hg.calendar
  unfold CalendarStep at hc
  split at hc
  · obtain ⟨-, -, -, hb⟩ := hc
    rw [hb] at hp
    rcases Table.of_get_insert hp with ⟨rfl, rfl⟩ | hp
    · exact Or.inr rfl
    · exact Or.inl hp
  · rw [hc.2.2] at hp
    exact Or.inl (Table.of_get_erase hp).2
  · rw [hc.1] at hp
    exact Or.inl hp
  · rw [hc] at hp
    exact Or.inl hp

theorem Booking.Meets.symm {x y : Booking} (h : x.Meets y) : y.Meets x :=
  ⟨h.1.symm, overlaps_comm .. ▸ h.2⟩

/-- The range of a booking depends on its terms only. -/
theorem Booking.Meets.congr {x x' y y' : Booking} (hx : x.terms = x'.terms)
    (hy : y.terms = y'.terms) : x.Meets y ↔ x'.Meets y' := by
  simp only [Booking.Meets, itemId_of_terms hx, itemId_of_terms hy, startDate_of_terms hx,
    startDate_of_terms hy, endDate_of_terms hx, endDate_of_terms hy]

theorem UnavailablePeriod.MeetsBooking.congr {p : UnavailablePeriod} {x x' : Booking}
    (hx : x.terms = x'.terms) : p.MeetsBooking x ↔ p.MeetsBooking x' := by
  simp only [UnavailablePeriod.MeetsBooking, itemId_of_terms hx, startDate_of_terms hx,
    endDate_of_terms hx]

/-- The booking that is being confirmed meets none that occupies the item. -/
private theorem not_meets_confirmed {k k' l : Id} {competitors : List Id}
    (hg : Guar sha256 (.confirm k l competitors) K a b) {d d' : Deal}
    (hd : a.1.deals.get k = some d) (hd' : a.1.deals.get k' = some d') (hne : k ≠ k')
    (hr : d'.booking.status.reserves) : ¬d.booking.Meets d'.booking := by
  rintro ⟨hitem, hover⟩
  have hfree := Table.any_eq_false.mp (hg.calendar.2 d hd).2 k' d' hd'
  rw [overlaps_comm] at hover
  simp [hr, hitem, hover, Ne.symm hne] at hfree

theorem Disjoint.step (hg : Guar sha256 ev K a b) (h : Disjoint a) : Disjoint b where
  bookings := by
    intro k k' x x' hk hk' hne hr hr' hmeets
    obtain ⟨d, hd, hterms, hor⟩ := reserves_inv hg hk hr
    obtain ⟨d', hd', hterms', hor'⟩ := reserves_inv hg hk' hr'
    rw [Booking.Meets.congr hterms hterms'] at hmeets
    rcases hor with hdr | ⟨l, cs, rfl⟩
    · rcases hor' with hdr' | ⟨l, cs, rfl⟩
      · exact h.bookings k k' d d' hd hd' hne hdr hdr' hmeets
      · exact not_meets_confirmed hg hd' hd (Ne.symm hne) hdr hmeets.symm
    · rcases hor' with hdr' | ⟨l', cs', heq⟩
      · exact not_meets_confirmed hg hd hd' hne hdr' hmeets
      · cases heq
        exact hne rfl
  periodBookings := by
    intro i p k x hp hk hr hmeets
    obtain ⟨d, hd, hterms, hor⟩ := reserves_inv hg hk hr
    rw [UnavailablePeriod.MeetsBooking.congr hterms] at hmeets
    rcases period_inv hg hp with hp | rfl
    · rcases hor with hdr | ⟨l, cs, rfl⟩
      · exact h.periodBookings i p k d hp hd hdr hmeets
      · have hfree := Table.any_eq_false.mp (hg.calendar.2 d hd).1 i p hp
        simp [hmeets.1, hmeets.2] at hfree
    · rcases hor with hdr | ⟨l, cs, heq⟩
      · have hfree := Table.any_eq_false.mp hg.calendar.2.1 k d hd
        have hover := hmeets.2
        rw [overlaps_comm] at hover
        simp [hdr, ← hmeets.1, hover] at hfree
      · cases heq
  periods := by
    have hnew : ∀ i p j q, ev = .addPeriod i p → a.1.periods.get j = some q → ¬p.Meets q := by
      rintro i p j q rfl hq ⟨hitem, hover⟩
      have hfree := Table.any_eq_false.mp hg.calendar.2.2.1 j q hq
      rw [overlaps_comm] at hover
      simp [hitem, hover] at hfree
    intro i j p q hp hq hne hmeets
    rcases period_inv hg hp with hp | hev
    · rcases period_inv hg hq with hq | hev
      · exact h.periods i j p q hp hq hne hmeets
      · exact hnew j q i p hev hp ⟨hmeets.1.symm, overlaps_comm .. ▸ hmeets.2⟩
    · rcases period_inv hg hq with hq | hev'
      · exact hnew i p j q hev hq hmeets
      · rw [hev] at hev'
        cases hev'
        exact hne rfl

/-- **No double booking.** -/
theorem no_double_booking {s₀ s : State Sys} (h : Runs sha256 ok s₀ s) : Disjoint s.store :=
  h.invariant (fun σ hi => by constructor <;> simp [hi.deals, hi.periods])
    fun _ _ _ _ _ _ hg => Disjoint.step hg

namespace Scenario

/-- Two requests for the same days; the lender confirms one, then tries to confirm the other. -/
def twoRequests : List Line :=
  [.call (create 1 10 "r1"), .run 0 60, .call (create 4 11 "r2"), .run 1 60,
    .call (.confirmBooking 2 10 start), .run 2 60, .call (.confirmBooking 2 11 start), .run 3 60]

theorem no_double_booking_twoRequests :
    ((play anyEvent hash state twoRequests).db.booking 10).map (·.status) = some .confirmed ∧
      ((play anyEvent hash state twoRequests).db.booking 11).map (·.status) = some .cancelled ∧
      Disjoint (play anyEvent hash state twoRequests).store :=
  ⟨by decide +kernel, by decide +kernel, no_double_booking ((runs anyEvent).play _)⟩

end Scenario

end Sosedi
