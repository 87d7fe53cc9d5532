import Sosedi.Catalogue.ItemsCatalogue
import Sosedi.Scripts
import Sosedi.Transactions.Alone

/-!
# Availability in the catalogue

The catalogue leaves out items with a booking that is `PENDING`, `CONFIRMED` or `ACTIVE`; a
booking in `RETURNED` and the owner's calendar, which `BookingAvailabilityService.check` and
`BookingService.create` look at, it does not see.  Proved here:

* `check_alone`: what `check` answers;
* `create_raises`: where nothing occupies the item, `create` reports no conflict;
* `shown_iff`: an item that the catalogue shows is free exactly where neither of the two meets
  the period.
-/

namespace Sosedi

open Transactions ItemsService

/-! ## The check -/

/-- The item may be rented. -/
def Database.approvedItem (db : Database) (itemId : Id) : Bool :=
  (db.items.get itemId).any (·.status == .approved)

/-- `today` is the clock reading of `parseBookingPeriod`. -/
def BookingAvailabilityService.check (itemId : Id) (dto : CreateUnavailablePeriodDto)
    (today : Time) : Prog Sys Bool := do
  let period ← lift (parseBookingPeriod dto.startDate dto.endDate (moscowCalendarDate today))
  let item ← select (·.approvedItem itemId)
  lift (ensure item (.notFound "Объявление не найдено"))
  let bookingConflict ← select (·.reservedConflict none itemId period.startDate period.endDate)
  let calendarConflict ← select (·.calendarConflict itemId period.startDate period.endDate)
  pure (!bookingConflict && !calendarConflict)

variable {db : Database} {w : World} {itemId : Id} {period : BookingPeriod} {today : Time}

theorem check_alone (dto : BookingAvailabilityService.CreateUnavailablePeriodDto)
    (hperiod : parseBookingPeriod dto.startDate dto.endDate (moscowCalendarDate today) =
      .ok period) (hitem : db.approvedItem itemId = true) :
    ((BookingAvailabilityService.check itemId dto today).alone [] (db, w)).1 =
      .ok (!db.reservedConflict none itemId period.startDate period.endDate &&
        !db.calendarConflict itemId period.startDate period.endDate) := by
  simp [BookingAvailabilityService.check, Prog.alone_lift, hperiod, hitem, ensure]

/-! ## The errors of `create` -/

/-- The error reports no conflict with the calendar or with a booking. -/
def NoConflict (e : Error) : Prop :=
  e.code ≠ some "CALENDAR_CONFLICT" ∧ e.code ≠ some "BOOKING_CONFLICT"

theorem failsWith_ensure {E : Error → Prop} {c : Bool} {e : Error} (he : E e) :
    FailsWith E (ensure c e) := by
  intro e' h
  cases c with
  | true => cases h
  | false =>
    cases h
    exact he

theorem failsWith_required {α : Type} {E : Error → Prop} {value : Option α} {e : Error} (he : E e) :
    FailsWith E (required value e) := by
  intro e' h
  cases value with
  | some a => cases h
  | none =>
    cases h
    exact he

theorem noConflict_of_none {e : Error} (h : e.code = none) : NoConflict e := by
  rw [NoConflict, h]
  exact ⟨nofun, nofun⟩

theorem parse_failsWith (start «end» today : String) :
    FailsWith NoConflict (parseBookingPeriod start «end» today) := by
  have hcalendar (value : String) (e : Error) (h : parseCalendarDate value = .error e) :
      NoConflict e := by
    unfold parseCalendarDate at h
    split at h
    · cases h
    · cases h
      exact noConflict_of_none rfl
  intro e h
  unfold parseBookingPeriod at h
  split at h
  · next hstart => cases h; exact hcalendar _ _ hstart
  · next hend => cases h; exact hcalendar _ _ hend
  · next htoday => cases h; exact hcalendar _ _ htoday
  · split at h
    · cases h; exact noConflict_of_none rfl
    · split at h
      · cases h; exact noConflict_of_none rfl
      · dsimp only at h
        split at h
        · cases h; exact noConflict_of_none rfl
        · split at h
          · cases h; exact noConflict_of_none rfl
          · cases h

theorem minorToSafeNumber_failsWith (value : Int) :
    FailsWith NoConflict (minorToSafeNumber value) := by
  intro e h
  unfold minorToSafeNumber at h
  split at h
  · cases h
  · cases h
    exact noConflict_of_none rfl

theorem bookingPrice_failsWith (policy : MarketplacePolicy) (rental deposit : Int) :
    FailsWith NoConflict (bookingPrice policy rental deposit) := by
  intro e h
  cases policy with
  | payOnHandover => cases h
  | fakeSafeDeal terms =>
    simp only [bookingPrice, calculateProvisionalSafeDealPrice] at h
    split at h
    · cases h
      exact noConflict_of_none rfl
    · split at h
      · cases h
        exact noConflict_of_none rfl
      · cases h

theorem moneyMinorOf_failsWith (pricePerDayMinor depositMinor : Int) (price : SafeDealPrice) :
    FailsWith NoConflict (moneyMinorOf pricePerDayMinor depositMinor price) := by
  unfold moneyMinorOf
  repeat refine failsWith_bind (minorToSafeNumber_failsWith _) fun _ => ?_
  exact failsWith_ok _

theorem draftBooking_failsWith (policy : MarketplacePolicy) (terms : MarketplaceTerms)
    (borrowerId itemId : Id) (item : Item) (ownerName : Option String) (period : BookingPeriod)
    (clientRequestId clientRequestHash : String) (now dbNow : Time) :
    FailsWith NoConflict (draftBooking policy terms borrowerId itemId item ownerName period
      clientRequestId clientRequestHash now dbNow) := by
  unfold draftBooking
  refine failsWith_bind (bookingPrice_failsWith _ _ _) fun price => ?_
  exact failsWith_bind (moneyMinorOf_failsWith _ _ _) fun _ => failsWith_ok _

theorem assertDepositAllowed_failsWith (policy : MarketplacePolicy) (amount : Int) :
    FailsWith NoConflict (policy.assertDepositAllowed amount) := by
  unfold MarketplacePolicy.assertDepositAllowed
  refine failsWith_bind (failsWith_ensure (noConflict_of_none rfl)) fun _ => ?_
  refine failsWith_bind (failsWith_ensure (noConflict_of_none rfl)) fun _ => ?_
  exact failsWith_ensure (noConflict_of_none rfl)

theorem terms_failsWith (env : Env) :
    FailsWith NoConflict (requireApprovedMarketplaceTerms env) := by
  intro e h
  unfold requireApprovedMarketplaceTerms at h
  split at h
  · split at h
    · cases h
    · cases h
      exact ⟨by decide, by decide⟩
  · cases h
    exact ⟨by decide, by decide⟩

/-- The inserts of `create` report no conflict. -/
theorem insertDraft_raises {id : Id} {draft : BookingDraft} {α : Type} {f : Unit → Prog Sys α}
    {ω : List (Database → Database)} {σ : Database × World}
    (hf : ∀ ω, Raises NoConflict (f ()) ω σ) :
    Raises NoConflict ((BookingService.insertDraft id draft).bind f) ω σ := by
  simp only [BookingService.insertDraft, Prog.bind_eq, Prog.bind_assoc, onDeal, createOutbox]
  refine raises_insertUnique (noConflict_of_none rfl) ?_
  cases draft.deposit with
  | none =>
    simp only [when, Option.isSome_none, Bool.false_eq_true, if_false, Prog.ret_bind, raises_write]
    exact raises_insertUnique (noConflict_of_none rfl) (hf _)
  | some deposit =>
    simp only [when, Option.isSome_some, if_true, raises_write]
    exact raises_insertUnique (noConflict_of_none rfl) (hf _)

/-- Where nothing occupies the item, `create` reports no conflict. -/
theorem create_raises {env : Env} {borrowerId : Id} {dto : CreateBookingDto}
    {requestId clientRequestHash : String} {now dbNow : Time} {newId : Id}
    (hperiod : parseBookingPeriod dto.startDate dto.endDate (moscowCalendarDate today) =
      .ok period)
    (hcalendar : db.calendarConflict dto.itemId period.startDate period.endDate = false)
    (hreserved : db.reservedConflict none dto.itemId period.startDate period.endDate = false) :
    Raises NoConflict (BookingService.create env borrowerId dto requestId clientRequestHash today
      now dbNow newId) [] (db, w) := by
  simp only [BookingService.create, Prog.bind_eq]
  refine raises_lift (terms_failsWith env) fun terms _ => ?_
  refine raises_lift (failsWith_ensure ⟨by decide, by decide⟩) fun _ _ => ?_
  refine raises_lift (parse_failsWith _ _ _) fun period' hperiod' => ?_
  obtain rfl : period' = period := Except.ok.inj (hperiod'.symm.trans hperiod)
  rw [raises_acquire, raises_select]
  cases (view [] (db, w).1).bookingByRequest borrowerId requestId with
  | some repeated =>
    refine raises_lift (failsWith_ensure ⟨by decide, by decide⟩) fun _ _ => ?_
    rw [raises_commit]
    exact raises_ret _
  | none =>
    simp only [BookingService.checkBorrower, BookingService.checkItem, Prog.bind_eq,
      Prog.bind_assoc, raises_select, view_nil]
    refine raises_lift (failsWith_ensure (noConflict_of_none rfl)) fun _ _ => ?_
    rw [raises_acquire, raises_select]
    refine raises_lift (failsWith_required (noConflict_of_none rfl)) fun bookable _ => ?_
    refine raises_lift (failsWith_ensure (noConflict_of_none rfl)) fun _ _ => ?_
    refine raises_lift (failsWith_ensure ⟨by decide, by decide⟩) fun _ _ => ?_
    refine raises_lift (assertDepositAllowed_failsWith _ _) fun _ _ => ?_
    rw [raises_select]
    refine raises_lift (failsWith_ensure ⟨by decide, by decide⟩) fun _ _ => ?_
    rw [raises_select, view_nil, hcalendar]
    refine raises_lift (failsWith_ok ()) fun _ _ => ?_
    rw [raises_select, view_nil, hreserved]
    refine raises_lift (failsWith_ok ()) fun _ _ => ?_
    rw [raises_select]
    refine raises_lift (failsWith_ensure (noConflict_of_none rfl)) fun _ _ => ?_
    rw [Prog.pure_eq, Prog.ret_bind]
    refine raises_lift (draftBooking_failsWith _ _ _ _ _ _ _ _ _ _ _) fun draft _ => ?_
    refine insertDraft_raises fun ω => ?_
    rw [raises_commit]
    exact raises_ret _

/-! ## What the catalogue shows -/

section Shown

variable {geography : Geography} {folding : CaseFolding} {query : ListItemsQuery} {c : Catalogue}

/-- The catalogue answers with the item. -/
def ItemsService.shows (geography : Geography) (folding : CaseFolding) (query : ListItemsQuery)
    (c : Catalogue) (itemId : Id) : Bool :=
  match listPublic geography folding query c with
  | .ok answer => answer.any (·.id == itemId)
  | .error _ => false

theorem getAvailabilityFilter_eq {fromSql toSql : String} {fromDate toDate : Time}
    {availability : Option AvailabilityFilter} (hfrom : query.availableFrom = some fromSql)
    (hto : query.availableTo = some toSql) (hfromDate : calendarDate fromSql = some fromDate)
    (htoDate : calendarDate toSql = some toDate)
    (h : getAvailabilityFilter query = .ok availability) :
    ∃ a, availability = some a ∧ a.fromDate = fromDate ∧ a.toDate = toDate := by
  have hempty (value : String) (date : Time) (hdate : calendarDate value = some date) :
      value ≠ "" := by
    rintro rfl
    cases hdate
  rw [getAvailabilityFilter, hfrom, hto] at h
  dsimp only at h
  rw [if_neg (by simp [hempty _ _ hfromDate, hempty _ _ htoDate])] at h
  split at h
  · cases h
  · next date hdate _ =>
    split at h
    · cases h
    · next date' hdate' _ =>
      split at h
      · cases h
      · cases h
        exact ⟨_, rfl, Option.some.inj (hdate.symm.trans hfromDate),
          Option.some.inj (hdate'.symm.trans htoDate)⟩

/-- Both paths answer with items that the filter of the ORM selects. -/
theorem of_shows {itemId : Id} (h : shows geography folding query c itemId = true) :
    ∃ availability t, getAvailabilityFilter query = .ok availability ∧ t ∈ c.listed ∧
      t.id = itemId ∧ buildPublicWhere folding query availability c t = true := by
  unfold shows at h
  split at h
  · next answer hanswer =>
    obtain ⟨r, hr, hid⟩ := List.any_eq_true.mp h
    rw [beq_iff_eq] at hid
    subst hid
    simp only [listPublic, bind_eq_ok] at hanswer
    obtain ⟨-, -, availability, havailability, geo, -, limit, -, offset, -, hanswer⟩ := hanswer
    refine ⟨availability, ?_⟩
    cases geo with
    | some geo =>
      simp only [listPublicByGeo, bind_eq_ok] at hanswer
      obtain ⟨conditions, -, hanswer⟩ := hanswer
      cases hanswer
      obtain ⟨row, -, hrow⟩ := List.mem_filterMap.mp hr
      obtain ⟨t, ht, rfl⟩ := Option.map_eq_some_iff.mp hrow
      have hmem := List.mem_filter.mp (List.mem_of_find?_eq_some ht)
      exact ⟨t, havailability, hmem.1, rfl, ((Bool.and_eq_true ..).mp hmem.2).1⟩
    | none =>
      simp only [bind_eq_ok] at hanswer
      obtain ⟨order, -, hanswer⟩ := hanswer
      cases hanswer
      obtain ⟨t, ht, rfl⟩ := List.mem_map.mp hr
      have hsorted := List.mem_of_mem_drop (List.mem_of_mem_take ht)
      have hmem := List.mem_filter.mp (List.mem_mergeSort.mp hsorted)
      exact ⟨t, havailability, hmem.1, rfl, hmem.2⟩
  · cases h

theorem get_of_mem_listed {t : ListedItem} (h : t ∈ c.listed) : c.items.get t.id = some t.item := by
  obtain ⟨⟨id, item⟩, hr, hjoin⟩ := List.mem_filterMap.mp h
  obtain ⟨category, -, hjoin⟩ := Option.bind_eq_some_iff.mp hjoin
  obtain ⟨owner, -, rfl⟩ := Option.map_eq_some_iff.mp hjoin
  exact Table.get_eq_some.mpr hr

/-- What a client may expect of an item that the catalogue shows for a period. -/
structure BookableFor (db : Database) (w : World) (itemId : Id) (start «end» : String)
    (today : Time) : Prop where
  check : ((BookingAvailabilityService.check itemId ⟨start, «end»⟩ today).alone [] (db, w)).1 =
    .ok true
  create : ∀ env borrowerId (dto : CreateBookingDto) requestId clientRequestHash now dbNow newId,
    dto.itemId = itemId → dto.startDate = start → dto.endDate = «end» →
      Raises NoConflict (BookingService.create env borrowerId dto requestId clientRequestHash today
        now dbNow newId) [] (db, w)

/-- A period of the owner's calendar or a `RETURNED` booking meets the range. -/
def Database.unseenConflict (db : Database) (itemId : Id) (startDate endDate : Time) : Bool :=
  db.calendarConflict itemId startDate endDate ||
    db.deals.any fun _ d => d.booking.itemId == itemId && d.booking.status == .returned &&
      overlaps d.booking.startDate d.booking.endDate startDate endDate

/-- `RETURNED` is the one status that reserves and that the catalogue does not see. -/
theorem returned_of_reserves {status : BookingStatus} (hreserves : status.reserves = true)
    (h : activeBookingStatuses.contains status = false) : status = .returned := by
  revert h hreserves
  cases status <;> decide

/-- An item with no booking that the catalogue sees is reserved by `RETURNED` bookings only. -/
theorem reservedConflict_of_not_booked {itemId : Id} {startDate endDate : Time}
    (h : booked c itemId startDate endDate = false) :
    c.reservedConflict none itemId startDate endDate = c.deals.any fun _ d =>
      d.booking.itemId == itemId && d.booking.status == .returned &&
        overlaps d.booking.startDate d.booking.endDate startDate endDate := by
  rw [Bool.eq_iff_iff, Database.reservedConflict, Table.any_eq_true, Table.any_eq_true]
  rw [booked, Table.any_eq_false] at h
  constructor
  · rintro ⟨k, d, hd, hk⟩
    refine ⟨k, d, hd, ?_⟩
    have hfree := h k d hd
    simp only [Bool.and_eq_true] at hk ⊢
    obtain ⟨⟨⟨-, hitem⟩, hover⟩, hreserves⟩ := hk
    refine ⟨⟨hitem, beq_iff_eq.mpr ?_⟩, hover⟩
    have hrange := (Bool.and_eq_true ..).mp hover
    rw [hitem, hrange.1, hrange.2, Bool.true_and, Bool.and_true, Bool.and_true] at hfree
    exact returned_of_reserves hreserves hfree
  · rintro ⟨k, d, hd, hk⟩
    refine ⟨k, d, hd, ?_⟩
    simp only [Bool.and_eq_true, beq_iff_eq] at hk
    obtain ⟨⟨hitem, hstatus⟩, hover⟩ := hk
    simp [hitem, hstatus, hover, BookingStatus.reserves]

/-- **Catalogue and booking.**  An item that the catalogue shows for a period can be booked for
it, as far as bookings and the calendar go, exactly where neither the owner's calendar nor a
`RETURNED` booking meets the period. -/
theorem shown_iff {w : World} {itemId : Id} {start «end» : String} {today : Time}
    {period : BookingPeriod} (hshown : shows geography folding query c itemId = true)
    (hfrom : query.availableFrom = some start) (hto : query.availableTo = some «end»)
    (hperiod : parseBookingPeriod start «end» (moscowCalendarDate today) = .ok period) :
    BookableFor c.toDatabase w itemId start «end» today ↔
      c.unseenConflict itemId period.startDate period.endDate = false := by
  obtain ⟨-, hstartDate, hendDate, -⟩ := parseBookingPeriod_eq_ok.mp hperiod
  obtain ⟨availability, t, havailability, ht, rfl, hwhere⟩ := of_shows hshown
  obtain ⟨a, rfl, hfromDate, htoDate⟩ :=
    getAvailabilityFilter_eq hfrom hto hstartDate hendDate havailability
  simp only [buildPublicWhere, Bool.and_eq_true, beq_iff_eq, Option.all_some,
    Bool.not_eq_true'] at hwhere
  have hbooked : booked c t.id period.startDate period.endDate = false :=
    hfromDate ▸ htoDate ▸ hwhere.2
  have hitem : c.approvedItem t.id = true := by
    rw [Database.approvedItem, get_of_mem_listed ht, Option.any_some, beq_iff_eq]
    exact hwhere.1.1.1.1.1.1.1.1
  have hanswer := check_alone (w := w) ⟨start, «end»⟩ hperiod hitem
  rw [Database.unseenConflict, ← reservedConflict_of_not_booked hbooked, Bool.or_eq_false_iff]
  constructor
  · intro h
    have hcheck := h.check
    rw [hanswer, Except.ok.injEq, Bool.and_eq_true] at hcheck
    simpa using hcheck.symm
  · rintro ⟨hcalendar, hreserved⟩
    constructor
    · rw [hanswer, hreserved, hcalendar]
      rfl
    · rintro env borrowerId dto requestId clientRequestHash now dbNow newId hid rfl rfl
      exact create_raises hperiod (hid ▸ hcalendar) (hid ▸ hreserved)

end Shown

namespace Scenario

/-- The catalogue of the examples. -/
def catalogue (db : Database) : Catalogue where
  toDatabase := db
  itemCreatedAt := fun _ => 0
  categoryCards := fun _ => ⟨"Tools", "tools", none, ""⟩
  photoCreatedAt := fun _ => 0
  favorites := []

/-- The distance along the axes. -/
def planar : Geography where
  distance p q := (|p.longitude - q.longitude| + |p.latitude - q.latitude|) * 100000
  dWithin p q radius := (|p.longitude - q.longitude| + |p.latitude - q.latitude|) * 100000 ≤ radius

/-- The letters of the drill's texts. -/
def exactCase : CaseFolding := ⟨id, fun _ => Iff.rfl⟩

def fromAugust : ListItemsQuery :=
  { ListItemsQuery.noFilters with
    availableFrom := some "2026-08-03", availableTo := some "2026-08-05" }

def nearDrill : ListItemsQuery := { fromAugust with latitude := some 55, longitude := some 37 }

/-- The owner has closed the days. -/
def closed : Database :=
  { database with
    periods := Table.empty.insert 1 ⟨1, start + 2 * dayMs, start + 4 * dayMs⟩ }

/-- A booking for the days awaits the end of its dispute window. -/
def awaiting : Database :=
  { database with
    deals := Table.empty.insert 10 (Deal.ofBooking
      { itemId := 1
        borrowerId := 4
        lenderId := 2
        clientRequestId := "r1"
        clientRequestHash := "payload"
        startDate := start + 2 * dayMs
        endDate := start + 4 * dayMs
        totalAmount := ⟨30000⟩
        status := .returned
        expiresAt := none
        cancellationReason := none
        termsSnapshot := none
        createdAt := start }) }

def august : CreateBookingDto :=
  ⟨1, "2026-08-03", "2026-08-05", some "offer-1", some "cancellation-1", some true, some true⟩

def createError (db : Database) : Option String :=
  match ((BookingService.create env 1 august "r2" "payload" start start start 11).alone []
    (db, world)).1 with
  | .ok _ => none
  | .error e => e.code

def checkAnswer (db : Database) : Option Bool :=
  (((BookingAvailabilityService.check 1 ⟨"2026-08-03", "2026-08-05"⟩ start).alone []
    (db, world)).1).toOption

theorem shown_iff_free :
    shows planar exactCase fromAugust (catalogue database) 1 = true ∧
      (BookableFor (catalogue database).toDatabase world 1 "2026-08-03" "2026-08-05" start ↔
        (catalogue database).unseenConflict 1 (start + 2 * dayMs) (start + 4 * dayMs) = false) :=
  have hshown : shows planar exactCase fromAugust (catalogue database) 1 = true := by
    decide +kernel
  have hperiod : parseBookingPeriod "2026-08-03" "2026-08-05" (moscowCalendarDate start) =
      .ok ⟨start + 2 * dayMs, start + 4 * dayMs, 3, by decide, by decide⟩ := by rfl
  ⟨hshown, shown_iff hshown rfl rfl hperiod⟩

/-- Both paths show the drill for days that its owner has closed and for days of a booking that
awaits the end of its dispute window. -/
theorem shown_but_taken :
    (shows planar exactCase fromAugust (catalogue closed) 1 = true ∧
      shows planar exactCase nearDrill (catalogue closed) 1 = true ∧
      checkAnswer closed = some false ∧ createError closed = some "CALENDAR_CONFLICT") ∧
    (shows planar exactCase fromAugust (catalogue awaiting) 1 = true ∧
      shows planar exactCase nearDrill (catalogue awaiting) 1 = true ∧
      checkAnswer awaiting = some false ∧ createError awaiting = some "BOOKING_CONFLICT") :=
  ⟨⟨by decide +kernel, by decide +kernel, by decide +kernel, by decide +kernel⟩,
    ⟨by decide +kernel, by decide +kernel, by decide +kernel, by decide +kernel⟩⟩

end Scenario

end Sosedi
