import Mathlib.Data.Int.Order.Basic
import Mathlib.Tactic.IntervalCases

/-!
# The Gregorian calendar

Days are numbered from 1970-01-01; a date is a year, a month and a day.

Proved here:

* `monthStart_succ`: a month starts on the day after the last one of the month before;
* `CivilDate.number_le_iff`: the numbers of dates are in the order of the calendar;
* `civilFromDays_spec`, `civilFromDays_number`: a day number and its date determine each other.
-/

namespace Sosedi

/-- Days from 1970-01-01 to a date of the proleptic Gregorian calendar. -/
def daysFromCivil (year month day : Int) : Int :=
  let y := if month ≤ 2 then year - 1 else year
  let era := y / 400
  let yoe := y - era * 400
  let doy := (153 * (if month > 2 then month - 3 else month + 9) + 2) / 5 + day - 1
  let doe := yoe * 365 + yoe / 4 - yoe / 100 + doy
  era * 146097 + doe - 719468

def daysInMonth (year month : Int) : Int :=
  if month = 2 then
    if year % 4 = 0 ∧ (year % 100 ≠ 0 ∨ year % 400 = 0) then 29 else 28
  else if month ∈ [4, 6, 9, 11] then 30
  else 31

/-- Year, month and day of a day number. -/
def civilFromDays (days : Int) : Int × Int × Int :=
  let z := days + 719468
  let era := z / 146097
  let doe := z - era * 146097
  let yoe := (doe - doe / 1460 + doe / 36524 - doe / 146096) / 365
  let doy := doe - (365 * yoe + yoe / 4 - yoe / 100)
  let mp := (5 * doy + 2) / 153
  let month := if mp < 10 then mp + 3 else mp - 9
  (yoe + era * 400 + (if month ≤ 2 then 1 else 0), month, doy - (153 * mp + 2) / 5 + 1)

/-- A day of 400 years but the last, as a century, four years in it and a day in these. -/
theorem exists_block {doe : Int} (h₀ : 0 ≤ doe) (h₁ : doe < 146096) :
    ∃ c k u v : Int, doe = 36524 * c + 1461 * k + u ∧ (0 ≤ c ∧ c ≤ 3) ∧ (0 ≤ k ∧ k ≤ 24) ∧
      (0 ≤ u ∧ u ≤ 1460) ∧ (k = 24 → u ≤ 1459) ∧ (0 ≤ v ∧ v ≤ 3) ∧ 365 * v ≤ u ∧
      (u < 365 * v + 365 ∨ v = 3 ∧ u = 1460) := by
  have hyear : ∀ u : Int, 0 ≤ u → u ≤ 1460 → ∃ v : Int, (0 ≤ v ∧ v ≤ 3) ∧ 365 * v ≤ u ∧
      (u < 365 * v + 365 ∨ v = 3 ∧ u = 1460) := by
    intro u hu₀ hu
    by_cases hlast : u = 1460
    · exact ⟨3, by omega, by omega, .inr ⟨rfl, hlast⟩⟩
    · exact ⟨u / 365, by omega, by omega, .inl (by omega)⟩
  obtain ⟨v, hv, hlow, hhigh⟩ := hyear (doe % 36524 % 1461) (by omega) (by omega)
  refine ⟨doe / 36524, doe % 36524 / 1461, doe % 36524 % 1461, v, ?_, ?_, ?_, ?_, ?_, hv, hlow,
    hhigh⟩
  · omega
  · omega
  · omega
  · omega
  · omega

/-- The year of such a day. -/
theorem year_of_block {c k u v : Int} (hc : 0 ≤ c ∧ c ≤ 3) (hk : 0 ≤ k ∧ k ≤ 24)
    (hu : 0 ≤ u ∧ u ≤ 1460) (hlast : k = 24 → u ≤ 1459) (hv : 0 ≤ v ∧ v ≤ 3)
    (hlow : 365 * v ≤ u) (hhigh : u < 365 * v + 365 ∨ v = 3 ∧ u = 1460) :
    let doe := 36524 * c + 1461 * k + u
    (doe - doe / 1460 + doe / 36524 - doe / 146096) / 365 = 100 * c + 4 * k + v := by
  intro doe
  have hcentury : doe / 36524 = c := by omega
  have hera : doe / 146096 = 0 := by omega
  have hfour : doe / 1460 = 25 * c + k + (24 * c + k + u) / 1460 := by
    have hsum : doe = (24 * c + k + u) + 1460 * (25 * c + k) := by omega
    rw [hsum, Int.add_mul_ediv_left _ _ (by decide)]
    omega
  have hlate : (24 * c + k + u) / 1460 = 0 ∧ 24 * c + k + u < 1460 ∨
      (24 * c + k + u) / 1460 = 1 ∧ 1460 ≤ 24 * c + k + u := by
    clear hcentury hera hfour
    omega
  rw [hcentury, hera, hfour]
  have hsum : doe - (25 * c + k + (24 * c + k + u) / 1460) + c - 0 =
      (u - (24 * c + k + u) / 1460 - 365 * v) + 365 * (100 * c + 4 * k + v) := by omega
  rw [hsum, Int.add_mul_ediv_left _ _ (by decide)]
  clear hsum hcentury hera hfour
  have hday : (u - (24 * c + k + u) / 1460 - 365 * v) / 365 = 0 := by
    generalize (24 * c + k + u) / 1460 = late at *
    omega
  omega

/-- The year within 400 years, and the day of that year. -/
theorem year_of_day {doe : Int} (h₀ : 0 ≤ doe) (h₁ : doe ≤ 146096) :
    ∃ yoe doy : Int, (doe - doe / 1460 + doe / 36524 - doe / 146096) / 365 = yoe ∧
      doe = 365 * yoe + yoe / 4 - yoe / 100 + doy ∧ (0 ≤ yoe ∧ yoe ≤ 399) ∧ 0 ≤ doy ∧
      (doy ≤ 364 ∨ doy = 365 ∧ (yoe + 1) % 4 = 0 ∧ ((yoe + 1) % 100 ≠ 0 ∨ (yoe + 1) % 400 = 0)) := by
  rcases Int.lt_or_eq_of_le h₁ with hlt | rfl
  · obtain ⟨c, k, u, v, rfl, hc, hk, hu, hlast, hv, hlow, hhigh⟩ := exists_block h₀ hlt
    refine ⟨100 * c + 4 * k + v, u - 365 * v, year_of_block hc hk hu hlast hv hlow hhigh, ?_, ?_, ?_⟩
    · have hfour : (100 * c + 4 * k + v) / 4 = 25 * c + k := by omega
      have hcentury : (100 * c + 4 * k + v) / 100 = c := by omega
      rw [hfour, hcentury]
      omega
    · omega
    · omega
  · exact ⟨399, 365, by decide, by decide, by decide, by decide⟩

/-- The month and the day of a day of a year that starts in March. -/
theorem day_of_month {doy : Int} (h₀ : 0 ≤ doy) (h₁ : doy ≤ 365) :
    let mp := (5 * doy + 2) / 153
    let month := if mp < 10 then mp + 3 else mp - 9
    (1 ≤ month ∧ month ≤ 12) ∧ (month ≤ 2 ↔ 10 ≤ mp) ∧
      (if month > 2 then month - 3 else month + 9) = mp := by
  intro mp month
  have hmp : 0 ≤ mp ∧ mp ≤ 11 := by omega
  clear_value mp
  omega

/-- Such a day is one of its month; the last day of a leap year is February 29. -/
theorem day_of_year_valid (era : Int) {yoe doy : Int} (h₀ : 0 ≤ doy)
    (h₁ : doy ≤ 364 ∨ doy = 365 ∧ (yoe + 1) % 4 = 0 ∧
      ((yoe + 1) % 100 ≠ 0 ∨ (yoe + 1) % 400 = 0)) :
    let mp := (5 * doy + 2) / 153
    let month := if mp < 10 then mp + 3 else mp - 9
    1 ≤ doy - (153 * mp + 2) / 5 + 1 ∧ doy - (153 * mp + 2) / 5 + 1 ≤
      daysInMonth (yoe + era * 400 + (if month ≤ 2 then 1 else 0)) month := by
  intro mp month
  have hmp : 153 * mp ≤ 5 * doy + 2 ∧ 5 * doy + 2 < 153 * mp + 153 := by omega
  have hlow : 0 ≤ mp := by omega
  have hhigh : mp ≤ 11 := by omega
  clear_value mp
  subst month
  interval_cases mp
  all_goals simp [daysInMonth]
  all_goals omega

theorem daysFromCivil_of_year {era yoe month day : Int} (hyoe : 0 ≤ yoe ∧ yoe ≤ 399) :
    daysFromCivil (yoe + era * 400 + (if month ≤ 2 then 1 else 0)) month day =
      era * 146097 + (yoe * 365 + yoe / 4 - yoe / 100 +
        ((153 * (if month > 2 then month - 3 else month + 9) + 2) / 5 + day - 1)) - 719468 := by
  have hy : (if month ≤ 2 then yoe + era * 400 + (if month ≤ 2 then 1 else 0) - 1
      else yoe + era * 400 + (if month ≤ 2 then 1 else 0)) = yoe + era * 400 := by
    split <;> omega
  have hera : (yoe + era * 400) / 400 = era := by omega
  have hrest : yoe + era * 400 - era * 400 = yoe := by omega
  simp only [daysFromCivil, hy, hera, hrest]

/-- Days up to a year that starts in March. -/
theorem daysFromCivil_eq (year month day : Int) :
    let y := if month ≤ 2 then year - 1 else year
    daysFromCivil year month day = 365 * y + y / 4 - y / 100 + y / 400 +
      (153 * (if month > 2 then month - 3 else month + 9) + 2) / 5 + day - 719469 := by
  intro y
  have hera : y - y / 400 * 400 = y % 400 := by omega
  simp only [daysFromCivil]
  change y / 400 * 146097 + ((y - y / 400 * 400) * 365 + (y - y / 400 * 400) / 4 -
    (y - y / 400 * 400) / 100 + _) - 719468 = _
  omega

/-! ## Months -/

/-- The first day of a month, where months are counted from the year 0. -/
def monthStart (k : Int) : Int := daysFromCivil (k / 12) (k % 12 + 1) 1

def monthLength (k : Int) : Int := daysInMonth (k / 12) (k % 12 + 1)

theorem monthStart_succ (k : Int) : monthStart (k + 1) = monthStart k + monthLength k := by
  obtain ⟨y, m, rfl, hm₀, hm⟩ : ∃ y m : Int, k = 12 * y + m ∧ 0 ≤ m ∧ m ≤ 11 :=
    ⟨k / 12, k % 12, by omega, by omega, by omega⟩
  have hyear : (12 * y + m) / 12 = y := by omega
  have hmonth : (12 * y + m) % 12 = m := by omega
  have hnext : (12 * y + m + 1) / 12 = if m = 11 then y + 1 else y := by split <;> omega
  have hnext' : (12 * y + m + 1) % 12 = if m = 11 then 0 else m + 1 := by split <;> omega
  simp only [monthStart, monthLength, daysInMonth, daysFromCivil_eq, hyear, hmonth, hnext, hnext']
  interval_cases m
  all_goals simp
  all_goals omega

theorem monthLength_pos (k : Int) : 28 ≤ monthLength k := by
  simp only [monthLength, daysInMonth]
  split <;> split <;> omega

theorem monthStart_add_lt (k : Int) (n : Nat) : monthStart k < monthStart (k + n + 1) := by
  induction n with
  | zero =>
    have hlength := monthLength_pos k
    rw [Int.natCast_zero, Int.add_zero, monthStart_succ]
    omega
  | succ n ih =>
    have hlength := monthLength_pos (k + n + 1)
    rw [Int.natCast_succ, ← Int.add_assoc, monthStart_succ]
    omega

theorem monthStart_succ_le {k k' : Int} (h : k < k') : monthStart (k + 1) ≤ monthStart k' := by
  obtain ⟨n, rfl⟩ := Int.le.dest (Int.add_one_le_of_lt h)
  cases n with
  | zero => simp
  | succ n =>
    have hlt := monthStart_add_lt (k + 1) n
    rw [Int.natCast_succ, ← Int.add_assoc]
    omega

/-! ## Dates -/

/-- A date of the calendar. -/
@[ext] structure CivilDate where
  year : Int
  month : Int
  day : Int
  validMonth : 1 ≤ month ∧ month ≤ 12
  validDay : 1 ≤ day ∧ day ≤ daysInMonth year month

namespace CivilDate

variable {a b : CivilDate}

def number (date : CivilDate) : Int := daysFromCivil date.year date.month date.day

/-- By year, then by month, then by day. -/
def Before (a b : CivilDate) : Prop :=
  a.year < b.year ∨ a.year = b.year ∧ (a.month < b.month ∨ a.month = b.month ∧ a.day < b.day)

instance : LE CivilDate := ⟨fun a b => ¬b.Before a⟩

theorem number_eq (a : CivilDate) :
    a.number = monthStart (12 * a.year + a.month - 1) + a.day - 1 ∧
      a.day ≤ monthLength (12 * a.year + a.month - 1) := by
  have hmonth := a.validMonth
  have hyear : (12 * a.year + a.month - 1) / 12 = a.year := by omega
  have hrest : (12 * a.year + a.month - 1) % 12 + 1 = a.month := by omega
  rw [monthStart, monthLength, hyear, hrest]
  refine ⟨?_, a.validDay.2⟩
  simp only [number, daysFromCivil_eq]
  omega

/-- Later dates have greater numbers. -/
theorem Before.number_lt (h : a.Before b) : a.number < b.number := by
  obtain ⟨ha, hlength⟩ := a.number_eq
  obtain ⟨hb, -⟩ := b.number_eq
  have hday := a.validDay
  have hday' := b.validDay
  have hmonth := a.validMonth
  have hmonth' := b.validMonth
  have hmonths : 12 * a.year + a.month - 1 < 12 * b.year + b.month - 1 ∨
      12 * a.year + a.month - 1 = 12 * b.year + b.month - 1 ∧ a.day < b.day := by
    rcases h with h | ⟨hy, h | ⟨hm, hd⟩⟩
    · omega
    · omega
    · omega
  rcases hmonths with hlt | ⟨heq, hd⟩
  · have hnext : monthStart (12 * a.year + a.month - 1 + 1) ≤
        monthStart (12 * b.year + b.month - 1) :=
      monthStart_succ_le hlt
    rw [monthStart_succ] at hnext
    omega
  · rw [heq] at ha
    omega

theorem before_or_eq_or_before (a b : CivilDate) : a.Before b ∨ a = b ∨ b.Before a := by
  rcases Int.lt_trichotomy a.year b.year with h | hy | h
  · exact .inl (.inl h)
  · rcases Int.lt_trichotomy a.month b.month with h | hm | h
    · exact .inl (.inr ⟨hy, .inl h⟩)
    · rcases Int.lt_trichotomy a.day b.day with h | hd | h
      · exact .inl (.inr ⟨hy, .inr ⟨hm, h⟩⟩)
      · exact .inr (.inl (CivilDate.ext hy hm hd))
      · exact .inr (.inr (.inr ⟨hy.symm, .inr ⟨hm.symm, h⟩⟩))
    · exact .inr (.inr (.inr ⟨hy.symm, .inl h⟩))
  · exact .inr (.inr (.inl h))

theorem number_injective : Function.Injective number := by
  intro a b h
  rcases before_or_eq_or_before a b with hab | hab | hab
  · exact absurd h (ne_of_lt hab.number_lt)
  · exact hab
  · exact absurd h (ne_of_gt hab.number_lt)

theorem number_le_iff : a.number ≤ b.number ↔ a ≤ b := by
  constructor
  · intro h hba
    exact absurd hba.number_lt (not_lt.mpr h)
  · intro h
    rcases before_or_eq_or_before a b with hab | rfl | hba
    · exact hab.number_lt.le
    · exact le_rfl
    · exact absurd hba h

end CivilDate

/-- A day number is that of a date. -/
theorem civilFromDays_spec (days : Int) :
    ∃ date : CivilDate, civilFromDays days = (date.year, date.month, date.day) ∧
      date.number = days := by
  obtain ⟨era, doe, hdays, hdoe⟩ : ∃ era doe : Int, days + 719468 = era * 146097 + doe ∧
      (0 ≤ doe ∧ doe ≤ 146096) := ⟨(days + 719468) / 146097, (days + 719468) % 146097, by omega,
    by omega⟩
  have hera : (days + 719468) / 146097 = era := by omega
  have hrest : days + 719468 - era * 146097 = doe := by omega
  obtain ⟨yoe, doy, hyear, hday, hyoe, hdoy, hleap⟩ := year_of_day hdoe.1 hdoe.2
  obtain ⟨hpos, -, hmonth⟩ := day_of_month hdoy (by omega)
  have hdoy' : doe - (365 * yoe + yoe / 4 - yoe / 100) = doy := by omega
  refine ⟨⟨_, _, _, hpos, day_of_year_valid era hdoy hleap⟩, ?_, ?_⟩
  · simp only [civilFromDays, hera, hrest, hyear, hdoy']
  · rw [CivilDate.number, daysFromCivil_of_year hyoe, hmonth]
    dsimp only
    omega

/-- A date survives its day number. -/
theorem civilFromDays_number (date : CivilDate) :
    civilFromDays date.number = (date.year, date.month, date.day) := by
  obtain ⟨found, hfound, hnumber⟩ := civilFromDays_spec date.number
  rw [CivilDate.number_injective hnumber] at hfound
  exact hfound

end Sosedi
