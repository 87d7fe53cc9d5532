import Sosedi.Scripts
import Sosedi.Transactions.Behaviours

/-!
# Booking requests

A request is inserted under the locks of its borrower and its item, after its quotas were counted
under the same locks; a request id belongs to one booking, which a repeated call finds.

Proved here:

* `requests_limited`: the quotas of a request hold when it is committed, at its own clock and on
  the dates of its own period; a request id has one booking, which every repeated call returns.
-/

namespace Sosedi

open Transactions

variable {sha256 : Bytes → String} {ok : Event → Store → Prop} {s₀ s s' : State Sys} {ev : Event}
  {K : List LockKey} {a b : Store} {id : Id} {d : Deal} {now : Time}

/-! ## Quotas -/

/-- The unexpired `PENDING` bookings of the item that cover the date. -/
def Database.pendingOn (db : Database) (itemId : Id) (now date : Time) : List Id :=
  db.deals.keysWhere fun _ d => d.booking.itemId == itemId &&
    unexpiredPending now d.booking && decide (d.booking.startDate ≤ date) &&
    decide (date ≤ d.booking.endDate)

theorem length_keysWhere_insert_le {t : Table Id Deal} (h : t.get id = none)
    (p : Id → Deal → Bool) :
    ((t.insert id d).keysWhere p).length ≤ (t.keysWhere p).length + 1 := by
  rw [Table.keysWhere_insert h, List.length_append]
  split
  · exact Nat.le_refl _
  · exact Nat.le_add_right ..

/-- The quotas of a request right after its insertion. -/
theorem quotas_of_create {read : BookableItem} (hg : Guar sha256 (.create id d read) K a b)
    (hnow : d.booking.expiresAt = some (now + bookingPendingTtlMs)) :
    b.1.countActivePending d.booking.borrowerId now ≤ bookingMaxActivePending ∧
      ∀ date, d.booking.startDate ≤ date → date ≤ d.booking.endDate →
        (b.1.pendingOn d.booking.itemId now date).length ≤ bookingMaxCompetingPending := by
  obtain ⟨-, habsent, -, hguard, hdeals⟩ := hg.deals
  obtain ⟨now', hnow', hactive, hcompeting⟩ := hguard.quotas
  rw [hnow, Option.some.injEq] at hnow'
  obtain rfl : now = now' := add_right_cancel hnow'
  refine ⟨?_, fun date hstart hend => ?_⟩
  · rw [Database.countActivePending, hdeals]
    exact Nat.le_trans (length_keysWhere_insert_le habsent _) hactive
  · rw [Database.pendingOn, hdeals]
    refine Nat.le_trans (length_keysWhere_insert_le habsent _) (Nat.lt_of_le_of_lt ?_ hcompeting)
    -- a booking that covers the date meets the period of the request
    refine Table.length_keysWhere_le fun k d' hd' hcovers => ⟨d', hd', ?_⟩
    simp only [Bool.and_eq_true, decide_eq_true_eq] at hcovers
    obtain ⟨⟨⟨hitem, hpending⟩, hstart'⟩, hend'⟩ := hcovers
    have hover : overlaps d'.booking.startDate d'.booking.endDate d.booking.startDate
        d.booking.endDate = true := by
      simp only [overlaps, Bool.and_eq_true, decide_eq_true_eq]
      exact ⟨Int.le_trans hstart' hend, Int.le_trans hstart hend'⟩
    simp [hitem, hpending, hover]

/-- The booking that is created. -/
def Event.created : Event → Option Deal
  | .create _ d _ => some d
  | _ => none

theorem Event.eq_create (h : ev.created = some d) : ∃ id read, ev = .create id d read := by
  cases ev with
  | create id d' read =>
    obtain rfl := Option.some.inj h
    exact ⟨id, read, rfl⟩
  | _ => cases h

/-! ## Request ids -/

/-- A request id belongs to one booking of its borrower. -/
def OneBooking (σ : Store) : Prop :=
  ∀ k k' d d', σ.1.deals.get k = some d → σ.1.deals.get k' = some d' →
    d.booking.borrowerId = d'.booking.borrowerId →
    d.booking.clientRequestId = d'.booking.clientRequestId → k = k'

theorem Database.bookingByRequest_eq_none {db : Database} {borrowerId : Id} {requestId : String} :
    db.bookingByRequest borrowerId requestId = none ↔ ∀ k d, db.deals.get k = some d →
      d.booking.borrowerId = borrowerId → d.booking.clientRequestId ≠ requestId := by
  rw [bookingByRequest, Option.map_eq_none_iff, List.find?_eq_none]
  constructor
  · intro h k d hd hborrower hrequest
    exact h _ (Table.get_eq_some.mp hd) (by simp [hborrower, hrequest])
  · rintro h ⟨k, d⟩ hmem
    simpa using h k d (Table.get_eq_some.mpr hmem)

theorem oneBooking_step (hg : Guar sha256 ev K a b) (h : OneBooking a) : OneBooking b := by
  -- the booking that is inserted has a new request id
  have hnew : ∀ {k k' d d' read}, ev = .create k d read → a.1.deals.get k' = some d' →
      d'.booking.borrowerId = d.booking.borrowerId →
      d'.booking.clientRequestId ≠ d.booking.clientRequestId := by
    rintro k k' d d' read rfl hd'
    exact Database.bookingByRequest_eq_none.mp hg.requestGuard.isNew k' d' hd'
  intro k k' d d' hd hd' hborrower hrequest
  rcases hg.get_inv hd with ⟨x, hx, rfl, -, -⟩ | ⟨-, read, he, -⟩
  · have hterms := (ev.move k).terms_apply k x
    rw [borrowerId_of_terms hterms] at hborrower
    rw [clientRequestId_of_terms hterms] at hrequest
    rcases hg.get_inv hd' with ⟨x', hx', rfl, -, -⟩ | ⟨-, read', he', -⟩
    · have hterms' := (ev.move k').terms_apply k' x'
      rw [borrowerId_of_terms hterms'] at hborrower
      rw [clientRequestId_of_terms hterms'] at hrequest
      exact h k k' x x' hx hx' hborrower hrequest
    · exact absurd hrequest (hnew he' hx hborrower)
  · rcases hg.get_inv hd' with ⟨x', hx', rfl, -, -⟩ | ⟨-, read', he', -⟩
    · have hterms' := (ev.move k').terms_apply k' x'
      rw [borrowerId_of_terms hterms'] at hborrower
      rw [clientRequestId_of_terms hterms'] at hrequest
      exact absurd hrequest.symm (hnew he hx' hborrower.symm)
    · rw [he] at he'
      cases he'
      rfl

theorem Runs.oneBooking (h : Runs sha256 ok s₀ s) : OneBooking s.store := by
  refine h.invariant (P := OneBooking) ?_ fun _ _ _ _ _ _ hg => oneBooking_step hg
  intro σ hi k k' d d' hd
  simp [hi.deals] at hd

/-- The booking of the request is there, and is the one that its request id finds. -/
def HoldsRequest (id : Id) (booking : Booking) (σ : Store) : Prop :=
  ∃ booking', booking'.terms = booking.terms ∧
    σ.1.bookingByRequest booking.borrowerId booking.clientRequestId = some (id, booking')

theorem OneBooking.holds {σ : Store} (h : OneBooking σ) {booking : Booking}
    (hd : σ.1.deals.get id = some d) (hterms : d.booking.terms = booking.terms) :
    HoldsRequest id booking σ := by
  refine ⟨d.booking, hterms, ?_⟩
  rw [← borrowerId_of_terms hterms, ← clientRequestId_of_terms hterms]
  cases hfind : σ.1.bookingByRequest d.booking.borrowerId d.booking.clientRequestId with
  | none =>
    exact absurd rfl (Database.bookingByRequest_eq_none.mp hfind id d hd rfl)
  | some row =>
    obtain ⟨⟨k, d'⟩, hrow, rfl⟩ := Option.map_eq_some_iff.mp hfind
    have hd' := Table.get_eq_some.mpr (List.mem_of_find?_eq_some hrow)
    have hmatch := List.find?_some hrow
    simp only [Bool.and_eq_true, beq_iff_eq] at hmatch
    obtain rfl := h k id d' d hd' hd hmatch.1 hmatch.2
    obtain rfl := Option.some.inj (hd'.symm.trans hd)
    rfl

theorem Runs.holdsRequest (h : Runs sha256 ok s₀ s) (hd : s.db.deals.get id = some d)
    (hr : Reaches (Calls sha256) ok s s') : HoldsRequest id d.booking s'.store := by
  obtain ⟨d', hd', hterms⟩ := h.later (R := fun d d' => d'.booking.terms = d.booking.terms) hr
    (fun _ => rfl) (fun _ _ _ h h' => h'.trans h)
    (fun k m d w _ => m.terms_apply k d) hd
  exact (h.trans hr).oneBooking.holds hd' hterms

/-! ## Repeated calls -/

/-- What a repeated call answers: the booking for the same payload, and an error for another. -/
def RepeatedAnswer (id : Id) (booking : Booking) (clientRequestHash : String) (days : Int)
    (answer : Except Error BookingResponse) : Prop :=
  if clientRequestHash = booking.clientRequestHash then
    ∃ booking' : Booking, booking'.terms = booking.terms ∧ answer = .ok (booking'.toResponse id days)
  else ∃ e, answer = .error e

/-- A commit or a call without an effect. -/
def NoEffect (ev : Event) (writes : List (Database → Database)) : Prop := ev = .noop ∧ writes = []

/-- A call whose request id has a booking finds it, whatever others do meanwhile. -/
theorem create_repeated (booking : Booking) (id : Id) {env : Env} {dto : CreateBookingDto}
    (hash : String) {today : Time} (now dbNow : Time) (newId : Id) {terms : MarketplaceTerms}
    {period : BookingPeriod} (hterms : requireApprovedMarketplaceTerms env = .ok terms)
    (haccepted : requireMarketplaceTermsAcceptance dto terms = .ok ())
    (hperiod : parseBookingPeriod dto.startDate dto.endDate (moscowCalendarDate today) =
      .ok period) :
    (BookingService.create env booking.borrowerId dto booking.clientRequestId hash today now dbNow
      newId).Obeys (HoldsRequest id booking) NoEffect
        (RepeatedAnswer id booking hash period.days) [] := by
  simp only [BookingService.create, hterms, haccepted, hperiod, Transactions.lift, acquire, select,
    Prog.bind_eq, Prog.ret_bind, Prog.bind, Prog.Obeys]
  rintro σ ⟨booking', hsame, hfind⟩
  rw [view_nil, hfind]
  have hhash : booking'.clientRequestHash = booking.clientRequestHash :=
    clientRequestHash_of_terms hsame
  by_cases heq : hash = booking.clientRequestHash
  · have hok : booking'.clientRequestHash = hash := hhash.trans heq.symm
    simp only [ensure, hok, beq_self_eq_true, if_true, Transactions.commit, Prog.ret_bind,
      Prog.bind, Prog.pure_eq, Prog.Obeys, RepeatedAnswer, heq]
    exact ⟨⟨rfl, rfl⟩, booking', hsame, rfl⟩
  · have hno : (booking'.clientRequestHash == hash) = false := by
      rw [hhash]
      simpa using Ne.symm heq
    simp only [ensure, hno, Bool.false_eq_true, if_false, Prog.bind, Prog.Obeys, RepeatedAnswer,
      heq]
    exact ⟨_, rfl⟩

/-- The request id finds the booking from now on; a call with this request id, whose input and
terms are valid, answers with the booking or fails, and as a client of a run it has no effect. -/
def RepeatsHarmlessly (sha256 : Bytes → String) (s : State Sys) (id : Id) (booking : Booking) :
    Prop :=
  (∀ s', Reaches (Calls sha256) anyEvent s s' → HoldsRequest id booking s'.store) ∧
  ∀ env dto hash today now dbNow newId terms period,
    requireApprovedMarketplaceTerms env = .ok terms →
    requireMarketplaceTermsAcceptance dto terms = .ok () →
    parseBookingPeriod dto.startDate dto.endDate (moscowCalendarDate today) = .ok period →
    (BookingService.create env booking.borrowerId dto booking.clientRequestId hash today now
        dbNow newId).Obeys (HoldsRequest id booking) NoEffect
      (RepeatedAnswer id booking hash period.days) [] ∧
    ∀ s₁ s₂ s₃ i, Reaches (Calls sha256) anyEvent s s₁ → i < s₁.threads.length →
      s₁.thread i = ⟨(Call.createBooking env booking.borrowerId dto booking.clientRequestId hash
        today now dbNow newId).prog sha256, [], []⟩ →
      Reaches (Calls sha256) anyEvent s₁ s₂ → s₂.fire (.run i) = some s₃ →
      s₃.store = s₂.store

theorem Runs.repeatsHarmlessly (h : Runs sha256 anyEvent s₀ s)
    (hd : s.db.deals.get id = some d) : RepeatsHarmlessly sha256 s id d.booking := by
  have hholds : ∀ s', Reaches (Calls sha256) anyEvent s s' →
      HoldsRequest id d.booking s'.store := fun s' hr => h.holdsRequest hd hr
  refine ⟨hholds, ?_⟩
  intro env dto hash today now dbNow newId terms period hterms haccepted hperiod
  have hcall := create_repeated d.booking id hash now dbNow newId hterms haccepted hperiod
  refine ⟨hcall, fun s₁ s₂ s₃ i hr₁ hi hthread hr₂ hf => ?_⟩
  have hobeys : (s₁.thread i).Obeys (HoldsRequest id d.booking) NoEffect := by
    rw [hthread]
    exact hcall.discard
  obtain ⟨-, hobeys₂⟩ := hr₂.obeys (fun s' hr => hholds s' (hr₁.trans hr)) hobeys hi
  have hrun := h.trans (hr₁.trans hr₂)
  cases hev : s₂.event i with
  | none => exact State.store_of_event_none hev hf
  | some ev =>
    obtain ⟨rfl, hwrites⟩ := hobeys₂.event hev
    obtain ⟨K, hg⟩ := hrun.sound.guar hev trivial hf
    exact Prod.ext (State.db_of_advance hf hwrites) hg.uploads.world

/-- **Booking requests are limited and idempotent**: right after a request is committed its
quotas hold at its own clock, that of the item on every date of its period; a request id has
one booking; and a repeated call answers with this booking, or fails, without an effect. -/
theorem requests_limited (h : Runs sha256 anyEvent s₀ s) :
    (∀ i s' id d read now, s.event i = some (.create id d read) →
      s.fire (.run i) = some s' → d.booking.expiresAt = some (now + bookingPendingTtlMs) →
      s'.db.countActivePending d.booking.borrowerId now ≤ bookingMaxActivePending ∧
        ∀ date, d.booking.startDate ≤ date → date ≤ d.booking.endDate →
          (s'.db.pendingOn d.booking.itemId now date).length ≤ bookingMaxCompetingPending) ∧
      OneBooking s.store ∧
      ∀ id d, s.db.deals.get id = some d → RepeatsHarmlessly sha256 s id d.booking := by
  refine ⟨fun i s' id d read now hev hf hnow => ?_, h.oneBooking,
    fun id d hd => h.repeatsHarmlessly hd⟩
  obtain ⟨K, hg⟩ := h.sound.guar hev trivial hf
  exact quotas_of_create hg hnow

namespace Scenario

/-- Six users can borrow the drill. -/
def crowded : State Sys where
  db := { database with
    users := (database.users.insert 5 (user "+75")).insert 6 (user "+76") }
  world := world
  threads := []

theorem initial_crowded : Initial crowded.store := by
  constructor <;> try rfl
  exact initial.changes

def request (borrowerId newId : Id) (startDate endDate : String) (now : Time) : Call :=
  .createBooking env borrowerId ⟨1, startDate, endDate, some "offer-1", some "cancellation-1",
    some true, some true⟩ (toString newId) "payload" now now now newId

/-- Five requests of one borrower for the same three days. -/
def fiveRequests (borrowerId first : Nat) : List Line :=
  (List.range 5).flatMap fun i =>
    [.call (request borrowerId (first + i) "2026-08-10" "2026-08-12" start), .run (first + i) 15]

/-- Twelve hours later. -/
def noon : Time := start + 12 * 60 * 60 * 1000

/-- Twenty requests of four borrowers; when they have expired, one of them asks again, and a sixth
borrower, who read the clock just before, is about to commit a request for later days. -/
def expired : List Line :=
  fiveRequests 1 0 ++ fiveRequests 3 5 ++ fiveRequests 4 10 ++ fiveRequests 5 15 ++
    [.call (request 1 20 "2026-08-10" "2026-08-12" noon), .run 20 15,
      .call (request 6 21 "2026-08-20" "2026-08-21" (noon - 1)), .run 21 14]

theorem requests_limited_once :
    OneBooking (play anyEvent hash state [.call (create 1 10 "r1"), .run 0 15]).store :=
  (requests_limited ((runs anyEvent).play [.call (create 1 10 "r1"), .run 0 15])).2.1

/-- At the clock of the last request a day outside of its period has twenty-one requests. -/
theorem requests_limited_on_other_dates :
    Runs hash anyEvent crowded (play anyEvent hash crowded expired) ∧
      ∃ s' id d read, (play anyEvent hash crowded expired).event 21 = some (.create id d read) ∧
        (play anyEvent hash crowded expired).fire (.run 21) = some s' ∧
        d.booking.expiresAt = some (noon - 1 + bookingPendingTtlMs) ∧
        ∃ date, bookingMaxCompetingPending <
          (s'.db.pendingOn d.booking.itemId (noon - 1) date).length := by
  have hcreate : (((play anyEvent hash crowded expired).event 21).bind Event.created).any (fun d =>
      d.booking.expiresAt == some (noon - 1 + bookingPendingTtlMs) && d.booking.itemId == 1) =
        true := by
    decide +kernel
  have hpending : bookingMaxCompetingPending <
      (((play anyEvent hash crowded expired).fire (.run 21)).elim []
        fun s' => s'.db.pendingOn 1 (noon - 1) 1786320000000).length := by decide +kernel
  refine ⟨(Runs.refl rfl initial_crowded).play expired, ?_⟩
  obtain ⟨d, hd, hmatch⟩ := (Option.any_eq_true _ _).mp hcreate
  obtain ⟨ev, hev, hcreated⟩ := Option.bind_eq_some_iff.mp hd
  obtain ⟨id, read, rfl⟩ := Event.eq_create hcreated
  simp only [Bool.and_eq_true, beq_iff_eq] at hmatch
  obtain ⟨s', hs'⟩ := State.fire_of_event hev
  rw [hs', Option.elim_some] at hpending
  exact ⟨s', id, d, read, hev, hs', hmatch.1, 1786320000000, by rwa [hmatch.2]⟩

end Scenario

end Sosedi
