import Mathlib.Tactic.ByContra
import Sosedi.Domain.BookingPeriod

/-!
# The date rules of the mobile client

The client counts days between local midnights, the server between midnights of UTC.

Proved here:

* `TimeZone.midnight_lt`: later dates have later midnights;
* `parseBookingPeriod_calendar`: what the server accepts, as a rule about calendar dates;
* `dates_agree_iff`: the client agrees with the server exactly where the clock changes between
  the dates do not add up to a wrong number of days.
-/

namespace Sosedi

def hourMs : Int := 3600000

/-- The instants of local midnight, by the number of the day. -/
structure TimeZone where
  midnight : Int → Int
  short : ∀ d, 23 * hourMs ≤ midnight (d + 1) - midnight d
  long : ∀ d, midnight (d + 1) - midnight d ≤ 25 * hourMs

/-- A calendar date, as the server reads it. -/
structure CalendarDate where
  text : String
  day : Int
  parses : calendarDate text = some (day * dayMs)

/-- `Duration.inDays`. -/
def inDays (duration : Int) : Int := duration.tdiv dayMs

namespace TimeZone

variable (zone : TimeZone)

def inclusiveBookingDays (start «end» : CalendarDate) : Int :=
  inDays (zone.midnight «end».day - zone.midnight start.day) + 1

/-- `now` is the local date of the device. -/
def isAllowedBookingRange (start «end» now : CalendarDate) : Bool :=
  let days := zone.inclusiveBookingDays start «end»
  !(zone.midnight start.day < zone.midnight now.day) &&
    inDays (zone.midnight start.day - zone.midnight now.day) ≤ bookingHorizonDays &&
    days ≥ 1 && days ≤ bookingMaxDays

/-- How far the clocks are set back from one date to another. -/
def setBack (first last : CalendarDate) : Int :=
  zone.midnight last.day - zone.midnight first.day - (last.day - first.day) * dayMs

theorem midnight_add (d : Int) (n : Nat) :
    zone.midnight d + 23 * hourMs * n ≤ zone.midnight (d + n) := by
  induction n with
  | zero => simp
  | succ n ih =>
    have hstep := zone.short (d + n)
    have hcast : d + ((n + 1 : Nat) : Int) = d + n + 1 := by omega
    rw [hcast]
    simp only [hourMs] at ih hstep ⊢
    omega

theorem midnight_lt {d d' : Int} (h : d < d') : zone.midnight d < zone.midnight d' := by
  obtain ⟨n, rfl⟩ := Int.le.dest (Int.le_of_lt h)
  have hadd := zone.midnight_add d n
  simp only [hourMs] at hadd
  omega

theorem midnight_lt_iff {d d' : Int} : zone.midnight d < zone.midnight d' ↔ d < d' := by
  refine ⟨fun h => ?_, zone.midnight_lt⟩
  rcases Int.lt_trichotomy d d' with hlt | rfl | hgt
  · exact hlt
  · exact absurd h (Int.lt_irrefl _)
  · exact absurd (zone.midnight_lt hgt) (Int.not_lt.mpr (Int.le_of_lt h))

theorem midnight_le_iff {d d' : Int} : zone.midnight d ≤ zone.midnight d' ↔ d ≤ d' := by
  rw [← Int.not_lt, ← Int.not_lt, zone.midnight_lt_iff]

end TimeZone

/-! ## The server -/

theorem differenceInDays_mul (d d' : Int) : differenceInDays (d * dayMs) (d' * dayMs) = d' - d := by
  have hsub : d' * dayMs - d * dayMs = (d' - d) * dayMs := (Int.sub_mul ..).symm
  rw [differenceInDays, hsub, Int.mul_ediv_cancel _ (by decide)]

/-- The rule of the server about calendar dates. -/
def withinRules (start «end» today : CalendarDate) : Prop :=
  today.day ≤ start.day ∧ start.day ≤ «end».day ∧ «end».day - start.day + 1 ≤ bookingMaxDays ∧
    start.day - today.day ≤ bookingHorizonDays

/-- The server accepts the dates of the rule, and counts the days of the calendar. -/
theorem parseBookingPeriod_calendar (start «end» today : CalendarDate) :
    (∃ period, parseBookingPeriod start.text «end».text today.text = .ok period) ↔
      withinRules start «end» today := by
  have hle : ∀ d d' : Int, d * dayMs ≤ d' * dayMs ↔ d ≤ d' := fun d d' =>
    Int.mul_le_mul_right (by decide)
  simp only [parseBookingPeriod_eq_ok, start.parses, «end».parses, today.parses, Option.some.injEq]
  constructor
  · rintro ⟨⟨startDate, endDate, days, hordered, hdays⟩, todayDate, rfl, rfl, rfl, hpast, hlong,
      hfar⟩
    simp only [differenceInDays_mul, hle] at hordered hdays hpast hlong hfar
    exact ⟨hpast, hordered, by omega, hfar⟩
  · rintro ⟨hpast, hends, hlong, hfar⟩
    have hdays := congrArg (· + 1) (differenceInDays_mul start.day «end».day)
    refine ⟨⟨_, _, _, (hle _ _).mpr hends, hdays.symm⟩, _, rfl, rfl, rfl, (hle _ _).mpr hpast,
      ?_, ?_⟩
    · exact hlong
    · rw [differenceInDays_mul]
      exact hfar

theorem days_of_parseBookingPeriod {start «end» today : CalendarDate} {period : BookingPeriod}
    (h : parseBookingPeriod start.text «end».text today.text = .ok period) :
    period.days = «end».day - start.day + 1 := by
  obtain ⟨_, hstart, hend, -⟩ := parseBookingPeriod_eq_ok.mp h
  rw [start.parses] at hstart
  rw [«end».parses] at hend
  rw [period.days_eq, ← Option.some.inj hstart, ← Option.some.inj hend, differenceInDays_mul]

/-! ## The client -/

theorem inDays_eq (duration : Int) :
    inDays duration = if 0 ≤ duration then duration / dayMs else -(-duration / dayMs) := by
  split
  · exact Int.tdiv_eq_ediv_of_nonneg ‹_›
  · rename_i hneg
    have hpos : 0 ≤ -duration := by omega
    rw [inDays, ← Int.tdiv_eq_ediv_of_nonneg hpos, Int.neg_tdiv, Int.neg_neg]

theorem inDays_le_iff {duration n : Int} (hn : 0 ≤ n) :
    inDays duration ≤ n ↔ duration < (n + 1) * dayMs := by
  rw [inDays_eq]
  simp only [dayMs]
  split <;> omega

theorem inDays_nonneg_iff {duration : Int} : 0 ≤ inDays duration ↔ -dayMs < duration := by
  rw [inDays_eq]
  simp only [dayMs]
  split <;> omega

theorem inDays_eq_iff {duration n : Int} (hd : 0 ≤ duration) :
    inDays duration = n ↔ n * dayMs ≤ duration ∧ duration < (n + 1) * dayMs := by
  rw [inDays_eq, if_pos hd]
  simp only [dayMs]
  omega

namespace TimeZone

variable (zone : TimeZone) (start «end» today : CalendarDate)

/-- What the client accepts, by the instants of local midnight. -/
theorem isAllowedBookingRange_iff : zone.isAllowedBookingRange start «end» today = true ↔
    today.day ≤ start.day ∧
      zone.midnight start.day - zone.midnight today.day < (bookingHorizonDays + 1) * dayMs ∧
      -dayMs < zone.midnight «end».day - zone.midnight start.day ∧
      zone.midnight «end».day - zone.midnight start.day < bookingMaxDays * dayMs := by
  have hdays : zone.inclusiveBookingDays start «end» ≥ 1 ↔
      -dayMs < zone.midnight «end».day - zone.midnight start.day := by
    rw [← inDays_nonneg_iff, inclusiveBookingDays]
    omega
  have hmax : zone.inclusiveBookingDays start «end» ≤ bookingMaxDays ↔
      zone.midnight «end».day - zone.midnight start.day < bookingMaxDays * dayMs := by
    have hle : inDays (zone.midnight «end».day - zone.midnight start.day) ≤ 29 ↔ _ :=
      inDays_le_iff (by decide)
    rw [inclusiveBookingDays]
    simp only [bookingMaxDays]
    omega
  simp only [isAllowedBookingRange, Bool.and_eq_true, Bool.not_eq_true', decide_eq_false_iff_not,
    decide_eq_true_eq, zone.midnight_lt_iff, inDays_le_iff (n := bookingHorizonDays) (by decide),
    hdays, hmax, Int.not_lt, and_assoc]

/-- The client and the server accept the same dates, and then count the same days. -/
def DatesAgree : Prop :=
  (zone.isAllowedBookingRange start «end» today = true ↔
    ∃ period, parseBookingPeriod start.text «end».text today.text = .ok period) ∧
  ∀ period, parseBookingPeriod start.text «end».text today.text = .ok period →
    zone.inclusiveBookingDays start «end» = period.days

/-- Dates that keep to the rules: the clock changes add up to no whole day too much, and to no
time lost.  Other dates: they do not bring the dates back within a limit. -/
structure ClocksHarmless : Prop where
  within : withinRules start «end» today →
    zone.setBack today start < (91 - (start.day - today.day)) * dayMs ∧
      0 ≤ zone.setBack start «end» ∧ zone.setBack start «end» < dayMs
  outside : ¬withinRules start «end» today → today.day ≤ start.day →
    (91 - (start.day - today.day)) * dayMs ≤ zone.setBack today start ∨
      (30 - («end».day - start.day)) * dayMs ≤ zone.setBack start «end» ∨
      zone.setBack start «end» ≤ (-1 - («end».day - start.day)) * dayMs

end TimeZone

/-- **The client agrees with the server exactly where the clocks do no harm.** -/
theorem dates_agree_iff (zone : TimeZone) (start «end» today : CalendarDate) :
    zone.DatesAgree start «end» today ↔ zone.ClocksHarmless start «end» today := by
  have hallowed := zone.isAllowedBookingRange_iff start «end» today
  have haccepts := parseBookingPeriod_calendar start «end» today
  have horder : zone.midnight start.day ≤ zone.midnight «end».day ↔ _ := zone.midnight_le_iff
  constructor
  · rintro ⟨hiff, hdays⟩
    rw [haccepts, hallowed] at hiff
    constructor
    · intro hrules
      obtain ⟨period, hperiod⟩ := haccepts.mpr hrules
      have hcount := hdays period hperiod
      have hspan := Int.sub_nonneg.mpr (horder.mpr hrules.2.1)
      rw [days_of_parseBookingPeriod hperiod, TimeZone.inclusiveBookingDays, Int.add_left_inj,
        inDays_eq_iff hspan] at hcount
      obtain ⟨-, hfar, -⟩ := hiff.mpr hrules
      simp only [TimeZone.setBack, bookingHorizonDays, dayMs] at hcount hfar ⊢
      omega
    · intro hrules hpast
      rw [← hiff] at hrules
      simp only [TimeZone.setBack, bookingHorizonDays, bookingMaxDays, dayMs] at hrules ⊢
      omega
  · rintro ⟨hwithin, houtside⟩
    have hcount : withinRules start «end» today →
        zone.inclusiveBookingDays start «end» = «end».day - start.day + 1 := by
      intro hrules
      have hspan := Int.sub_nonneg.mpr (horder.mpr hrules.2.1)
      rw [TimeZone.inclusiveBookingDays, Int.add_left_inj, inDays_eq_iff hspan]
      have hclocks := hwithin hrules
      simp only [TimeZone.setBack, dayMs] at hclocks ⊢
      omega
    refine ⟨?_, fun period hperiod => ?_⟩
    · rw [haccepts, hallowed]
      constructor
      · intro hlocal
        by_contra hrules
        have hclocks := houtside hrules hlocal.1
        simp only [TimeZone.setBack, bookingHorizonDays, bookingMaxDays, dayMs] at hclocks hlocal
        omega
      · intro hrules
        have hclocks := hwithin hrules
        have hspan := horder.mpr hrules.2.1
        simp only [withinRules, TimeZone.setBack, bookingHorizonDays, bookingMaxDays, dayMs]
          at hrules hclocks ⊢
        omega
    · rw [days_of_parseBookingPeriod hperiod]
      exact hcount (haccepts.mp ⟨period, hperiod⟩)

/-! ## A change of the clocks -/

namespace Berlin

/-- The local midnights of Berlin around the change of 2026-03-29, from winter to summer time. -/
def zone : TimeZone where
  midnight d := d * dayMs - hourMs - if d ≤ 20541 then 0 else hourMs
  short d := by
    simp only [dayMs, hourMs]
    split <;> split <;> omega
  long d := by
    simp only [dayMs, hourMs]
    split <;> split <;> omega

def march29 : CalendarDate := ⟨"2026-03-29", 20541, by decide +kernel⟩

def march30 : CalendarDate := ⟨"2026-03-30", 20542, by decide +kernel⟩

/-- Two days, of which the first has 23 hours, count as one. -/
theorem dates_disagree_in_march : ¬zone.DatesAgree march29 march30 march29 := by
  rintro ⟨-, hdays⟩
  have hrules : withinRules march29 march30 march29 := ⟨by decide, by decide, by decide, by decide⟩
  obtain ⟨period, hperiod⟩ := (parseBookingPeriod_calendar _ _ _).mpr hrules
  have hcount := hdays period hperiod
  rw [days_of_parseBookingPeriod hperiod] at hcount
  exact absurd hcount (by decide)

end Berlin

end Sosedi
