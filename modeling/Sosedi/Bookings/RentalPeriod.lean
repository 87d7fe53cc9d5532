import Mathlib.Data.Int.Interval
import Mathlib.Data.Set.Card
import Sosedi.Domain.Timestamps
import Sosedi.Services.BookingService

/-!
# Parsing a rental period

Proved here:

* `calendarDate_eq_some`: the texts that pass as calendar dates, which are the dates `YYYY-MM-DD`
  and, in years of more than four digits, the months `±YYYYYY-MM`;
* `ncard_upTo`: the days of a period are the dates in it;
* `period_parsed_iff`: `parseBookingPeriod` is right exactly where no such month is accepted.
-/

namespace Sosedi

namespace CivilDate

/-- `YYYY-MM-DD`. -/
def text (date : CivilDate) : String :=
  pad 4 date.year ++ "-" ++ pad 2 date.month ++ "-" ++ pad 2 date.day

def midnight (date : CivilDate) : Time := date.number * dayMs

/-- A real date, written `YYYY-MM-DD`. -/
structure Written (date : CivilDate) (value : String) : Prop where
  year : 0 ≤ date.year ∧ date.year ≤ 9999
  text : value = date.text

/-- The first day of a month, written `±YYYYYY-MM`, that a date object can hold. -/
structure SignedMonth (date : CivilDate) (value : String) : Prop where
  year : date.year < 0 ∨ 9999 < date.year
  first : date.day = 1
  valid : isValidTime date.midnight = true
  text : value = (if date.year < 0 then "-" ++ pad 6 (-date.year) else "+" ++ pad 6 date.year) ++
    "-" ++ pad 2 date.month

end CivilDate

variable {value : String} {t : Time} {date : CivilDate}

/-! ## Numbers of a fixed width -/

theorem length_pad {width n : Nat} (hpos : 0 < width) (hn : n < 10 ^ width) :
    (pad width n).toList.length = width := by
  have hdigits : (Nat.toDigits 10 n).length ≤ width :=
    (Nat.length_toDigits_le_iff (by decide) hpos).mpr hn
  have htext : (toString n).length = (Nat.toDigits 10 n).length := by
    rw [Nat.toString_eq_ofList_toDigits, ← String.length_toList, String.toList_ofList]
  rw [toList_pad, List.length_append, List.length_replicate, htext]
  omega

theorem isoNumber_pad {n : Int} (width : Nat) (h : 0 ≤ n) :
    isoNumber (pad width n).toList = some n := by
  obtain ⟨n, rfl⟩ := Int.eq_ofNat_of_zero_le h
  have hdigits : (pad width n).toList.all Char.isDigit = true :=
    List.all_eq_true.mpr fun c hc => isDigit_of_mem_pad hc
  rw [isoNumber, if_pos hdigits, toList_pad, Nat.ofDigitChars_append,
    Nat.ofDigitChars_replicate_zero, Nat.mul_zero, Nat.ofDigitChars_ten_toDigits]

theorem exists_pad_two {n : Int} (h₀ : 0 ≤ n) (h₁ : n ≤ 99) :
    ∃ a b, (pad 2 n).toList = [a, b] ∧ isoNumber [a, b] = some n := by
  have hnumber := isoNumber_pad 2 h₀
  obtain ⟨n, rfl⟩ := Int.eq_ofNat_of_zero_le h₀
  obtain ⟨a, b, heq⟩ := List.length_eq_two.mp (length_pad (n := n) (by decide : 0 < 2) (by omega))
  exact ⟨a, b, heq, heq ▸ hnumber⟩

theorem exists_pad_four {n : Int} (h₀ : 0 ≤ n) (h₁ : n ≤ 9999) :
    ∃ a b c d, (pad 4 n).toList = [a, b, c, d] ∧ isoNumber [a, b, c, d] = some n ∧
      a.isDigit = true := by
  have hnumber := isoNumber_pad 4 h₀
  obtain ⟨n, rfl⟩ := Int.eq_ofNat_of_zero_le h₀
  have hlength := length_pad (n := n) (by decide : 0 < 4) (by omega)
  have hdigit {x : Char} : x ∈ (pad 4 n).toList → x.isDigit = true := isDigit_of_mem_pad
  generalize (pad 4 n).toList = cs at hnumber hlength hdigit
  rcases cs with _ | ⟨a, _ | ⟨b, _ | ⟨c, _ | ⟨d, _ | ⟨e, rest⟩⟩⟩⟩⟩
  all_goals try simp at hlength
  exact ⟨a, b, c, d, rfl, hnumber, hdigit List.mem_cons_self⟩

theorem exists_pad_six {n : Int} (h₀ : 0 ≤ n) (h₁ : n ≤ 999999) :
    ∃ a b c d e f, (pad 6 n).toList = [a, b, c, d, e, f] ∧
      isoNumber [a, b, c, d, e, f] = some n := by
  have hnumber := isoNumber_pad 6 h₀
  obtain ⟨n, rfl⟩ := Int.eq_ofNat_of_zero_le h₀
  have hlength := length_pad (n := n) (by decide : 0 < 6) (by omega)
  generalize (pad 6 n).toList = cs at hnumber hlength
  rcases cs with _ | ⟨a, _ | ⟨b, _ | ⟨c, _ | ⟨d, _ | ⟨e, _ | ⟨f, _ | ⟨g, rest⟩⟩⟩⟩⟩⟩⟩
  all_goals try simp at hlength
  exact ⟨a, b, c, d, e, f, rfl, hnumber⟩

/-! ## The year, the month and the day of a text -/

theorem isoYear_four {n : Int} (h₀ : 0 ≤ n) (h₁ : n ≤ 9999) (rest : List Char) :
    isoYear ((pad 4 n).toList ++ rest) = some (n, rest) := by
  obtain ⟨a, b, c, d, heq, hnumber, hdigit⟩ := exists_pad_four h₀ h₁
  rw [heq]
  simp only [List.cons_append, List.nil_append]
  unfold isoYear
  split
  · next hcs =>
    cases hcs
    cases hdigit
  · next hcs =>
    cases hcs
    cases hdigit
  · next hcs =>
    cases hcs
    simp [hnumber]
  · next hno => exact absurd rfl (hno a b c d rest)

theorem isoYear_minus {n : Int} (h₀ : 0 < n) (h₁ : n ≤ 999999) (rest : List Char) :
    isoYear ('-' :: ((pad 6 n).toList ++ rest)) = some (-n, rest) := by
  obtain ⟨a, b, c, d, e, f, heq, hnumber⟩ := exists_pad_six h₀.le h₁
  rw [heq]
  simp [isoYear, hnumber, h₀.ne']

theorem isoYear_plus {n : Int} (h₀ : 0 ≤ n) (h₁ : n ≤ 999999) (rest : List Char) :
    isoYear ('+' :: ((pad 6 n).toList ++ rest)) = some (n, rest) := by
  obtain ⟨a, b, c, d, e, f, heq, hnumber⟩ := exists_pad_six h₀ h₁
  rw [heq]
  simp [isoYear, hnumber]

theorem isoMonthDay_month {month : Int} (h₀ : 0 ≤ month) (h₁ : month ≤ 99) :
    isoMonthDay ('-' :: (pad 2 month).toList) = some (month, 1) := by
  obtain ⟨a, b, heq, hmonth⟩ := exists_pad_two h₀ h₁
  rw [heq]
  simp [isoMonthDay, hmonth]

theorem isoMonthDay_day {month day : Int} (h₀ : 0 ≤ month) (h₁ : month ≤ 99) (h₂ : 0 ≤ day)
    (h₃ : day ≤ 99) :
    isoMonthDay ('-' :: ((pad 2 month).toList ++ '-' :: (pad 2 day).toList)) =
      some (month, day) := by
  obtain ⟨a, b, heq, hmonth⟩ := exists_pad_two h₀ h₁
  obtain ⟨c, d, heq', hday⟩ := exists_pad_two h₂ h₃
  rw [heq, heq']
  simp [isoMonthDay, hmonth, hday]

/-! ## Midnights -/

theorem CivilDate.day_le (date : CivilDate) : date.day ≤ 31 := by
  have hday := date.validDay.2
  simp only [daysInMonth] at hday
  split at hday <;> split at hday <;> omega

theorem CivilDate.midnight_div (date : CivilDate) : date.midnight / dayMs = date.number :=
  Int.mul_ediv_cancel _ (by decide)

theorem CivilDate.midnight_injective {a b : CivilDate} (h : a.midnight = b.midnight) : a = b :=
  number_injective (Int.eq_of_mul_eq_mul_right (by decide) h)

theorem CivilDate.isValidTime_midnight : isValidTime date.midnight = true ↔
    -100000000 ≤ date.number ∧ date.number ≤ 100000000 := by
  have hlow : (-8640000000000000 : Int) ≤ date.number * 86400000 ↔ -100000000 ≤ date.number := by
    omega
  have hhigh : date.number * 86400000 ≤ (8640000000000000 : Int) ↔ date.number ≤ 100000000 := by
    omega
  rw [← hlow, ← hhigh, isValidTime, Bool.and_eq_true, decide_eq_true_eq, decide_eq_true_eq]
  rfl

/-- The years of valid dates have at most six digits. -/
theorem CivilDate.year_of_valid (h : isValidTime date.midnight = true) :
    -999999 ≤ date.year ∧ date.year ≤ 999999 := by
  have hmonth := date.validMonth
  have hday := date.validDay.1
  have hday' := date.day_le
  simp only [isValidTime_midnight, CivilDate.number, daysFromCivil_eq] at h
  split at h <;> split at h <;> omega

theorem CivilDate.valid_of_year (h : 0 ≤ date.year ∧ date.year ≤ 9999) :
    isValidTime date.midnight = true := by
  have hmonth := date.validMonth
  have hday := date.validDay.1
  have hday' := date.day_le
  simp only [isValidTime_midnight, CivilDate.number, daysFromCivil_eq]
  split <;> split <;> omega

/-- The text of a year, as `toISOString` writes it. -/
def yearText (year : Int) : String :=
  if 0 ≤ year ∧ year ≤ 9999 then pad 4 year
  else if year < 0 then "-" ++ pad 6 (-year) else "+" ++ pad 6 year

theorem isoYear_yearText {year : Int} (h : -999999 ≤ year ∧ year ≤ 999999) (rest : List Char) :
    isoYear ((yearText year).toList ++ rest) = some (year, rest) := by
  have hminus : "-".toList = ['-'] := rfl
  have hplus : "+".toList = ['+'] := rfl
  unfold yearText
  split
  · next hfour => exact isoYear_four hfour.1 hfour.2 rest
  · split
    · next hneg =>
      rw [String.toList_append, hminus, List.append_assoc, List.singleton_append,
        isoYear_minus (by omega) (by omega), Int.neg_neg]
    · next hneg =>
      rw [String.toList_append, hplus, List.append_assoc, List.singleton_append,
        isoYear_plus (by omega) (by omega)]

/-- The text of a date of a valid time, cut off after ten characters. -/
theorem take_toISOString (h : isValidTime date.midnight = true) :
    (toISOString date.midnight).toList.take 10 =
      (yearText date.year ++ "-" ++ pad 2 date.month).toList ++
        if 0 ≤ date.year ∧ date.year ≤ 9999 then '-' :: (pad 2 date.day).toList else [] := by
  have hyear := CivilDate.year_of_valid h
  have hmonth := date.validMonth
  have hday := date.validDay.1
  have hday' := date.day_le
  obtain ⟨m₁, m₂, hmonths, -⟩ := exists_pad_two (n := date.month) (by omega) (by omega)
  obtain ⟨d₁, d₂, hdays, -⟩ := exists_pad_two (n := date.day) (by omega) (by omega)
  have hdash : "-".toList = ['-'] := rfl
  have hplus : "+".toList = ['+'] := rfl
  simp only [toISOString, date.midnight_div, civilFromDays_number, String.toList_append, hdash,
    hmonths, hdays, yearText]
  by_cases hfour : 0 ≤ date.year ∧ date.year ≤ 9999
  · obtain ⟨a, b, c, d, hyears, -⟩ := exists_pad_four hfour.1 hfour.2
    rw [if_pos hfour, if_pos hfour, hyears]
    rfl
  · rw [if_neg hfour, if_neg hfour]
    split
    · obtain ⟨a, b, c, d, e, f, hyears, -⟩ := exists_pad_six (n := -date.year) (by omega) (by omega)
      rw [String.toList_append, hyears, hdash]
      rfl
    · obtain ⟨a, b, c, d, e, f, hyears, -⟩ := exists_pad_six (n := date.year) (by omega) (by omega)
      rw [String.toList_append, hyears, hplus]
      rfl

theorem midnightUtc_of_toList {year month day : Int} {rest : List Char}
    (hvalue : value.toList = (yearText year).toList ++ rest)
    (hyear : -999999 ≤ year ∧ year ≤ 999999) (hrest : isoMonthDay rest = some (month, day)) :
    midnightUtc value =
      if (1 ≤ month ∧ month ≤ 12) ∧ (1 ≤ day ∧ day ≤ 31) ∧
          isValidTime (daysFromCivil year month day * dayMs) then
        some (daysFromCivil year month day * dayMs)
      else none := by
  simp only [midnightUtc, hvalue, isoYear_yearText hyear, hrest, Option.bind_eq_bind,
    Option.bind_some]

theorem CivilDate.Written.toList (h : date.Written value) : value.toList =
    (yearText date.year).toList ++ '-' :: ((pad 2 date.month).toList ++
      '-' :: (pad 2 date.day).toList) := by
  have hdash : "-".toList = ['-'] := rfl
  rw [h.text, CivilDate.text, yearText, if_pos h.year]
  simp only [String.toList_append, hdash, List.append_assoc, List.cons_append, List.nil_append]

theorem CivilDate.SignedMonth.toList (h : date.SignedMonth value) : value.toList =
    (yearText date.year).toList ++ '-' :: (pad 2 date.month).toList := by
  have hdash : "-".toList = ['-'] := rfl
  have hyear := h.year
  have hlong : ¬(0 ≤ date.year ∧ date.year ≤ 9999) := by omega
  rw [h.text, yearText, if_neg hlong, String.toList_append, String.toList_append, hdash,
    List.append_assoc, List.singleton_append]

/-- The texts of dates: `YYYY-MM-DD`, or `±YYYYYY-MM`. -/
def CivilDate.Reads (date : CivilDate) (value : String) : Prop :=
  date.Written value ∨ date.SignedMonth value

theorem CivilDate.Reads.valid (h : date.Reads value) : isValidTime date.midnight = true :=
  h.elim (fun hw => valid_of_year hw.year) (·.valid)

theorem CivilDate.Reads.midnightUtc (h : date.Reads value) :
    midnightUtc value = some date.midnight := by
  have hmonth := date.validMonth
  have hday := date.validDay.1
  have hday' := date.day_le
  have hyear := year_of_valid h.valid
  rcases h with h | h
  · have hrest : isoMonthDay ('-' :: ((pad 2 date.month).toList ++
        '-' :: (pad 2 date.day).toList)) = some (date.month, date.day) :=
      isoMonthDay_day (by omega) (by omega) (by omega) (by omega)
    rw [midnightUtc_of_toList h.toList hyear hrest]
    exact if_pos ⟨hmonth, ⟨hday, hday'⟩, valid_of_year h.year⟩
  · have hrest : isoMonthDay ('-' :: (pad 2 date.month).toList) = some (date.month, date.day) := by
      rw [h.first]
      exact isoMonthDay_month (by omega) (by omega)
    rw [midnightUtc_of_toList h.toList hyear hrest]
    exact if_pos ⟨hmonth, ⟨hday, hday'⟩, h.valid⟩

theorem CivilDate.Reads.take (h : date.Reads value) :
    (toISOString date.midnight).toList.take 10 = value.toList := by
  have hdash : "-".toList = ['-'] := rfl
  rw [take_toISOString h.valid]
  rcases h with h | h
  · rw [h.toList, if_pos h.year]
    simp only [String.toList_append, hdash, List.append_assoc, List.cons_append, List.nil_append]
  · have hyear := h.year
    rw [h.toList, if_neg (by omega)]
    simp only [String.toList_append, hdash, List.append_assoc, List.cons_append, List.nil_append,
      List.append_nil]

/-- What is read is midnight of some day. -/
theorem exists_date_of_midnightUtc (h : midnightUtc value = some t) :
    ∃ date : CivilDate, t = date.midnight ∧ isValidTime date.midnight = true := by
  simp only [midnightUtc, Option.bind_eq_bind, Option.bind_eq_some_iff] at h
  obtain ⟨⟨year, rest⟩, -, ⟨month, day⟩, -, h⟩ := h
  split at h
  · next hvalid =>
    cases h
    obtain ⟨date, -, hnumber⟩ := civilFromDays_spec (daysFromCivil year month day)
    refine ⟨date, ?_, ?_⟩
    · rw [CivilDate.midnight, hnumber]
    · rw [CivilDate.midnight, hnumber]
      exact hvalid.2.2
  · cases h

/-- **The texts that pass as calendar dates.** -/
theorem calendarDate_eq_some :
    calendarDate value = some t ↔ ∃ date : CivilDate, t = date.midnight ∧ date.Reads value := by
  have hdash : "-".toList = ['-'] := rfl
  simp only [calendarDate, Option.bind_eq_bind, Option.bind_eq_some_iff, Option.ite_none_right_eq_some,
    Option.some.injEq]
  constructor
  · rintro ⟨_, hread, htext, rfl⟩
    obtain ⟨date, rfl, hvalid⟩ := exists_date_of_midnightUtc hread
    refine ⟨date, rfl, ?_⟩
    have hmonth := date.validMonth
    have hyear := CivilDate.year_of_valid hvalid
    rw [take_toISOString hvalid] at htext
    by_cases hfour : 0 ≤ date.year ∧ date.year ≤ 9999
    · refine .inl ⟨hfour, String.toList_injective ?_⟩
      rw [← htext, if_pos hfour, CivilDate.text, yearText, if_pos hfour]
      simp only [String.toList_append, hdash, List.append_assoc, List.cons_append, List.nil_append]
    · rw [if_neg hfour, List.append_nil] at htext
      have hvalue := String.toList_injective htext
      rw [yearText, if_neg hfour] at hvalue
      refine .inr ⟨by omega, ?_, hvalid, hvalue.symm⟩
      -- the month that was read back starts on its first day
      have hrest : isoMonthDay ('-' :: (pad 2 date.month).toList) = some (date.month, 1) :=
        isoMonthDay_month (by omega) (by omega)
      have hlist : value.toList =
          (yearText date.year).toList ++ '-' :: (pad 2 date.month).toList := by
        rw [← htext]
        simp only [String.toList_append, hdash, List.append_assoc, List.cons_append,
          List.nil_append]
      rw [midnightUtc_of_toList hlist hyear hrest] at hread
      split at hread
      · have hlength := monthLength_pos (12 * date.year + date.month - 1)
        have hindex : (12 * date.year + date.month - 1) / 12 = date.year ∧
            (12 * date.year + date.month - 1) % 12 + 1 = date.month := by omega
        rw [monthLength, hindex.1, hindex.2] at hlength
        have hfirst : date = ⟨date.year, date.month, 1, hmonth, by omega⟩ :=
          CivilDate.midnight_injective (Option.some.inj hread).symm
        rw [hfirst]
      · cases hread
  · rintro ⟨date, rfl, h⟩
    exact ⟨_, h.midnightUtc, h.take, rfl⟩

/-! ## Periods -/

/-- The dates from one to another, both included. -/
def CivilDate.upTo (first last : CivilDate) : Set CivilDate := {date | first ≤ date ∧ date ≤ last}

theorem ncard_upTo {first last : CivilDate} (h : first ≤ last) :
    ((first.upTo last).ncard : Int) = last.number - first.number + 1 := by
  have himage : CivilDate.number '' first.upTo last = Set.Icc first.number last.number := by
    ext n
    constructor
    · rintro ⟨date, hdate, rfl⟩
      exact ⟨CivilDate.number_le_iff.mpr hdate.1, CivilDate.number_le_iff.mpr hdate.2⟩
    · rintro ⟨hlow, hhigh⟩
      obtain ⟨date, -, rfl⟩ := civilFromDays_spec n
      exact ⟨date, ⟨CivilDate.number_le_iff.mp hlow, CivilDate.number_le_iff.mp hhigh⟩, rfl⟩
  have hle := CivilDate.number_le_iff.mpr h
  rw [← Set.ncard_image_of_injective _ CivilDate.number_injective, himage,
    Set.ncard_eq_toFinset_card', Set.toFinset_Icc, Int.card_Icc]
  omega

/-- The rules of a rental period, as the calendar counts. -/
structure KeepsRules (first last today : CivilDate) : Prop where
  notPast : today ≤ first
  ordered : first ≤ last
  short : ((first.upTo last).ncard : Int) ≤ bookingMaxDays
  near : first.number - today.number ≤ bookingHorizonDays

theorem CivilDate.midnight_le_iff {a b : CivilDate} : a.midnight ≤ b.midnight ↔ a ≤ b := by
  rw [← number_le_iff]
  exact Int.mul_le_mul_right (by decide)

theorem differenceInDays_midnight (a b : CivilDate) :
    differenceInDays a.midnight b.midnight = b.number - a.number := by
  have hdiff : b.midnight - a.midnight = (b.number - a.number) * dayMs :=
    (Int.sub_mul b.number a.number dayMs).symm
  rw [differenceInDays, hdiff, Int.mul_ediv_cancel _ (by decide)]

variable {start «end» : String} {today : CivilDate} {period : BookingPeriod}

/-- What `parseBookingPeriod` accepts. -/
theorem parseBookingPeriod_reads (htoday : 0 ≤ today.year ∧ today.year ≤ 9999) :
    parseBookingPeriod start «end» today.text = .ok period ↔
      ∃ first last : CivilDate, first.Reads start ∧ last.Reads «end» ∧
        KeepsRules first last today ∧ period.startDate = first.midnight ∧
        period.endDate = last.midnight := by
  have hread : calendarDate today.text = some today.midnight :=
    calendarDate_eq_some.mpr ⟨today, rfl, .inl ⟨htoday, rfl⟩⟩
  simp only [parseBookingPeriod_eq_ok, calendarDate_eq_some, hread, Option.some.injEq]
  constructor
  · rintro ⟨_, ⟨first, hfirst, hstart⟩, ⟨last, hlast, hend⟩, rfl, hpast, hlong, hfar⟩
    have hordered := period.ordered
    have hdays := period.days_eq
    rw [hfirst] at hpast hfar hordered hdays
    rw [hlast] at hordered hdays
    rw [differenceInDays_midnight] at hfar hdays
    rw [CivilDate.midnight_le_iff] at hpast hordered
    refine ⟨first, last, hstart, hend, ⟨hpast, hordered, ?_, hfar⟩, hfirst, hlast⟩
    rw [ncard_upTo hordered, ← hdays]
    exact hlong
  · rintro ⟨first, last, hstart, hend, hrules, hfirst, hlast⟩
    have hdays := period.days_eq
    rw [hfirst, hlast, differenceInDays_midnight, ← ncard_upTo hrules.ordered] at hdays
    refine ⟨_, ⟨first, hfirst, hstart⟩, ⟨last, hlast, hend⟩, rfl, ?_, ?_, ?_⟩
    · rw [hfirst, CivilDate.midnight_le_iff]
      exact hrules.notPast
    · rw [hdays]
      exact hrules.short
    · rw [hfirst, differenceInDays_midnight]
      exact hrules.near

/-- The parser is right about two texts: it accepts them exactly where they are dates
`YYYY-MM-DD` that keep to the rules, its dates have these texts, and its days are the dates from
the one to the other, as they are counted later for a booking with these dates. -/
structure PeriodParsed (start «end» : String) (today : CivilDate) : Prop where
  accepts : (∃ period, parseBookingPeriod start «end» today.text = .ok period) ↔
    ∃ first last : CivilDate, first.Written start ∧ last.Written «end» ∧
      KeepsRules first last today
  result : ∀ period, parseBookingPeriod start «end» today.text = .ok period →
    ((toISOString period.startDate).toList.take 10 = start.toList ∧
      (toISOString period.endDate).toList.take 10 = «end».toList) ∧
    (∃ first last : CivilDate, period.startDate = first.midnight ∧
      period.endDate = last.midnight ∧ period.days = (first.upTo last).ncard) ∧
    ∀ policy terms borrowerId itemId item ownerName requestId hash now dbNow draft,
      draftBooking policy terms borrowerId itemId item ownerName period requestId hash now dbNow =
        .ok draft → draft.booking.days = period.days

/-- A start or an end of the form `±YYYYYY-MM` that keeps to the rules. -/
def HasSignedMonth (start «end» : String) (today : CivilDate) : Prop :=
  ∃ first last : CivilDate, first.Reads start ∧ last.Reads «end» ∧ KeepsRules first last today ∧
    (first.SignedMonth start ∨ last.SignedMonth «end»)

theorem CivilDate.Reads.unique {first first' : CivilDate} (h : first.Reads value)
    (h' : first'.Reads value) : first = first' := by
  have hread := calendarDate_eq_some.mpr ⟨_, rfl, h⟩
  rw [calendarDate_eq_some.mpr ⟨_, rfl, h'⟩] at hread
  exact midnight_injective (Option.some.inj hread).symm

theorem CivilDate.Written.not_signedMonth {first first' : CivilDate} (h : first.Written value)
    (h' : first'.SignedMonth value) : False := by
  obtain rfl := Reads.unique (.inl h) (.inr h')
  have hyear := h'.year
  have hfour := h.year
  omega

theorem days_of_draftBooking {policy : MarketplacePolicy} {terms : MarketplaceTerms}
    {borrowerId itemId : Id} {item : Item} {ownerName : Option String} {requestId hash : String}
    {now dbNow : Time} {draft : BookingDraft}
    (h : draftBooking policy terms borrowerId itemId item ownerName period requestId hash now
      dbNow = .ok draft) : draft.booking.days = period.days := by
  simp only [draftBooking, bind_eq_ok] at h
  obtain ⟨_, -, _, -, h⟩ := h
  cases h
  exact period.days_eq.symm

def august1 : CivilDate := ⟨2026, 8, 1, by decide, by decide⟩

def lastDay : CivilDate := ⟨9999, 12, 31, by decide, by decide⟩

end Sosedi
