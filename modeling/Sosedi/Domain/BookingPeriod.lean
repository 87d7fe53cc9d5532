import Sosedi.Data.Gregorian
import Sosedi.Domain.Basics

/-!
# Rental periods

`parseBookingPeriod` turns two calendar dates into a period; the structure carries what
the parser guarantees about it.
-/

namespace Sosedi

def dayMs : Int := 86400000

def pad (width : Nat) (n : Int) : String :=
  let digits := toString n
  String.ofList (List.replicate (width - digits.length) '0') ++ digits

/-- `Date.prototype.toISOString`. -/
def toISOString (t : Time) : String :=
  let ms := t % dayMs
  match civilFromDays (t / dayMs) with
  | (year, month, day) =>
    (if 0 ≤ year ∧ year ≤ 9999 then pad 4 year
      else if year < 0 then "-" ++ pad 6 (-year) else "+" ++ pad 6 year) ++
    "-" ++ pad 2 month ++ "-" ++ pad 2 day ++ "T" ++ pad 2 (ms / 3600000) ++ ":" ++
    pad 2 (ms / 60000 % 60) ++ ":" ++ pad 2 (ms / 1000 % 60) ++ "." ++ pad 3 (ms % 1000) ++ "Z"

example : toISOString 1785542400000 = "2026-08-01T00:00:00.000Z" := by decide +kernel

/-- `new Date(value)` is a valid date. -/
def isValidTime (t : Time) : Bool := -8640000000000000 ≤ t && t ≤ 8640000000000000

/-! ## Calendar dates -/

def isoNumber (cs : List Char) : Option Int :=
  if cs.all Char.isDigit then some (Nat.ofDigitChars 10 cs 0) else none

/-- A year of four digits, or of a sign and six, and the text behind it. -/
def isoYear : List Char → Option (Int × List Char)
  | '-' :: y₁ :: y₂ :: y₃ :: y₄ :: y₅ :: y₆ :: rest => do
    let year ← isoNumber [y₁, y₂, y₃, y₄, y₅, y₆]
    if year = 0 then none else some (-year, rest)
  | '+' :: y₁ :: y₂ :: y₃ :: y₄ :: y₅ :: y₆ :: rest => do
    some (← isoNumber [y₁, y₂, y₃, y₄, y₅, y₆], rest)
  | y₁ :: y₂ :: y₃ :: y₄ :: rest => do some (← isoNumber [y₁, y₂, y₃, y₄], rest)
  | _ => none

/-- The month and the day, which may be left out. -/
def isoMonthDay : List Char → Option (Int × Int)
  | [] => some (1, 1)
  | ['-', m₁, m₂] => do some (← isoNumber [m₁, m₂], 1)
  | ['-', m₁, m₂, '-', d₁, d₂] => do some (← isoNumber [m₁, m₂], ← isoNumber [d₁, d₂])
  | _ => none

/-- `new Date(`${value}T00:00:00.000Z`)`, where it is a valid date in the format of the language.
An engine may read other texts too, but none that starts a text of `toISOString`. -/
def midnightUtc (value : String) : Option Time := do
  let (year, rest) ← isoYear value.toList
  let (month, day) ← isoMonthDay rest
  let date := daysFromCivil year month day * dayMs
  if (1 ≤ month ∧ month ≤ 12) ∧ (1 ≤ day ∧ day ≤ 31) ∧ isValidTime date then some date else none

/-- The date whose text `toISOString().slice(0, 10)` is `value`. -/
def calendarDate (value : String) : Option Time := do
  let date ← midnightUtc value
  if (toISOString date).toList.take 10 = value.toList then some date else none

def parseCalendarDate (value : String) : Except Error Time :=
  match calendarDate value with
  | some date => .ok date
  | none => .error (.badRequest "Некорректная календарная дата")

example : calendarDate "2026-08-01" = some 1785542400000 := by decide +kernel

example : calendarDate "2026-02-29" = none := by decide +kernel

/-! ## Periods -/

def bookingMaxDays : Int := 30

def bookingHorizonDays : Int := 90

/-- `Math.floor((to - from) / 86_400_000)`. -/
def differenceInDays (fromDate toDate : Time) : Int := (toDate - fromDate) / dayMs

structure BookingPeriod where
  startDate : Time
  endDate : Time
  days : Int
  ordered : startDate ≤ endDate
  days_eq : days = differenceInDays startDate endDate + 1

/-- The calendar day in Moscow, three hours ahead of UTC. -/
def moscowCalendarDate (now : Time) : String :=
  match civilFromDays ((now + 3 * 3600000) / dayMs) with
  | (year, month, day) => toString year ++ "-" ++ pad 2 month ++ "-" ++ pad 2 day

def parseBookingPeriod (start «end» today : String) : Except Error BookingPeriod :=
  match parseCalendarDate start, parseCalendarDate «end», parseCalendarDate today with
  | .error e, _, _ => .error e
  | .ok _, .error e, _ => .error e
  | .ok _, .ok _, .error e => .error e
  | .ok startDate, .ok endDate, .ok todayDate =>
    if startDate < todayDate then .error (.badRequest "Дата начала не может быть в прошлом")
    else if h : endDate < startDate then
      .error (.badRequest "Дата окончания раньше даты начала")
    else
      let days := differenceInDays startDate endDate + 1
      if days > bookingMaxDays then
        .error (.badRequest ("Максимальный срок аренды — " ++ toString bookingMaxDays ++
          " дней"))
      else if differenceInDays todayDate startDate > bookingHorizonDays then
        .error (.badRequest ("Бронирование доступно не более чем за " ++
          toString bookingHorizonDays ++ " дней"))
      else .ok ⟨startDate, endDate, days, Int.not_lt.mp h, rfl⟩

/-- What a period is parsed from. -/
theorem parseBookingPeriod_eq_ok {start «end» today : String} {period : BookingPeriod} :
    parseBookingPeriod start «end» today = .ok period ↔
      ∃ todayDate, calendarDate start = some period.startDate ∧
        calendarDate «end» = some period.endDate ∧ calendarDate today = some todayDate ∧
        todayDate ≤ period.startDate ∧ period.days ≤ bookingMaxDays ∧
        differenceInDays todayDate period.startDate ≤ bookingHorizonDays := by
  unfold parseBookingPeriod
  cases hs : calendarDate start with
  | none => simp [parseCalendarDate, hs]
  | some startDate =>
    cases he : calendarDate «end» with
    | none => simp [parseCalendarDate, hs, he]
    | some endDate =>
      cases ht : calendarDate today with
      | none => simp [parseCalendarDate, hs, he, ht]
      | some todayDate =>
        simp only [parseCalendarDate, hs, he, ht]
        constructor
        · intro h
          split at h
          · cases h
          · next hpast =>
            split at h
            · cases h
            · split at h
              · cases h
              · next hlong =>
                split at h
                · cases h
                · next hfar =>
                  cases h
                  exact ⟨todayDate, rfl, rfl, rfl, Int.not_lt.mp hpast, Int.not_lt.mp hlong,
                    Int.not_lt.mp hfar⟩
        · rintro ⟨todayDate, hstart, hend, htoday, hpast, hlong, hfar⟩
          obtain ⟨startDate, endDate, days, hordered, hdays⟩ := period
          cases hstart
          cases hend
          cases htoday
          subst hdays
          rw [if_neg (Int.not_lt.mpr hpast), dif_neg (Int.not_lt.mpr hordered),
            if_neg (Int.not_lt.mpr hlong), if_neg (Int.not_lt.mpr hfar)]

/-- Two inclusive ranges share a day. -/
def overlaps (start₁ end₁ start₂ end₂ : Time) : Bool := start₁ ≤ end₂ && end₁ ≥ start₂

theorem overlaps_comm (a b c d : Time) : overlaps a b c d = overlaps c d a b := by
  simp only [overlaps, ge_iff_le]
  rw [Bool.and_comm]

end Sosedi
