import Sosedi.Domain.BookingPeriod

/-!
# Times as texts

`toISOString` writes a time, and `dateParse` reads it.

Proved here:

* `dateParse_toISOString`: a time survives its text.
-/

namespace Sosedi

/-- The decimal number at the head of a text, and the text behind it. -/
def readNumber (cs : List Char) : Int × List Char :=
  (Nat.ofDigitChars 10 (cs.takeWhile Char.isDigit) 0, cs.dropWhile Char.isDigit)

/-- A year, which has a sign where it has six digits. -/
def readYear : List Char → Int × List Char
  | '-' :: cs => (-(readNumber cs).1, (readNumber cs).2)
  | '+' :: cs => readNumber cs
  | cs => readNumber cs

/-- A number behind a separator. -/
def readField (separator : Char) (cs : List Char) : Option (Int × List Char) :=
  match cs with
  | c :: cs => if c = separator then some (readNumber cs) else none
  | [] => none

/-- `Date.parse` on the format of `toISOString`. -/
def dateParse (value : String) : Option Time := do
  let (year, cs) := readYear value.toList
  let (month, cs) ← readField '-' cs
  let (day, cs) ← readField '-' cs
  let (hour, cs) ← readField 'T' cs
  let (minute, cs) ← readField ':' cs
  let (second, cs) ← readField ':' cs
  let (ms, _) ← readField '.' cs
  pure (daysFromCivil year month day * dayMs + hour * 3600000 + minute * 60000 + second * 1000 + ms)

theorem toList_pad (width n : Nat) :
    (pad width n).toList =
      List.replicate (width - (toString n).length) '0' ++ Nat.toDigits 10 n := by
  have htext : toString (n : Int) = toString n := rfl
  rw [pad, htext, String.toList_append, String.toList_ofList, Nat.toString_eq_ofList_toDigits,
    String.toList_ofList]

theorem isDigit_of_mem_pad {width n : Nat} {c : Char} (hc : c ∈ (pad width n).toList) :
    c.isDigit = true := by
  rw [toList_pad] at hc
  rcases List.mem_append.mp hc with hc | hc
  · rw [List.eq_of_mem_replicate hc]
    rfl
  · exact Nat.isDigit_of_mem_toDigits (by decide) (by decide) hc

/-- A number written with leading zeros is read. -/
theorem readNumber_pad {n : Int} (width : Nat) {rest : List Char} (h : 0 ≤ n)
    (hrest : ∀ c ∈ rest.head?, c.isDigit = false) :
    readNumber ((pad width n).toList ++ rest) = (n, rest) := by
  obtain ⟨n, rfl⟩ := Int.eq_ofNat_of_zero_le h
  have hdigits : ∀ c ∈ (pad width n).toList, c.isDigit = true := fun c => isDigit_of_mem_pad
  have htake : rest.takeWhile Char.isDigit = [] ∧ rest.dropWhile Char.isDigit = rest := by
    cases rest with
    | nil => exact ⟨rfl, rfl⟩
    | cons c cs =>
      have hc := hrest c rfl
      simp [hc]
  rw [readNumber, List.takeWhile_append_of_pos hdigits, List.dropWhile_append_of_pos hdigits,
    htake.1, htake.2, List.append_nil, toList_pad, Nat.ofDigitChars_append,
    Nat.ofDigitChars_replicate_zero, Nat.mul_zero, Nat.ofDigitChars_ten_toDigits]

/-- A year without a sign starts with a digit. -/
theorem readYear_pad {n : Int} (width : Nat) (h : 0 ≤ n) (rest : List Char) :
    readYear ((pad width n).toList ++ rest) = readNumber ((pad width n).toList ++ rest) := by
  obtain ⟨n, rfl⟩ := Int.eq_ofNat_of_zero_le h
  cases hcs : (pad width n).toList with
  | nil =>
    rw [toList_pad] at hcs
    exact absurd (List.append_eq_nil_iff.mp hcs).2 Nat.toDigits_ne_nil
  | cons c cs =>
    have hc : c.isDigit = true := isDigit_of_mem_pad (hcs ▸ List.mem_cons_self)
    rw [List.cons_append]
    unfold readYear
    split
    · next heq =>
      cases heq
      cases hc
    · next heq =>
      cases heq
      cases hc
    · rfl

theorem readField_pad {n : Int} (width : Nat) {separator : Char} {rest : List Char} (h : 0 ≤ n)
    (hrest : ∀ c ∈ rest.head?, c.isDigit = false) :
    readField separator (separator :: ((pad width n).toList ++ rest)) = some (n, rest) := by
  rw [readField, if_pos rfl, readNumber_pad width h hrest]

/-- The year of a text of `toISOString`. -/
theorem readYear_toISOString (year : Int) {rest : List Char}
    (hrest : ∀ c ∈ rest.head?, c.isDigit = false) :
    readYear ((if 0 ≤ year ∧ year ≤ 9999 then pad 4 year
      else if year < 0 then "-" ++ pad 6 (-year) else "+" ++ pad 6 year).toList ++ rest) =
      (year, rest) := by
  have hminus : "-".toList = ['-'] := rfl
  have hplus : "+".toList = ['+'] := rfl
  split
  · next h => rw [readYear_pad 4 h.1, readNumber_pad 4 h.1 hrest]
  · split
    · next h =>
      rw [String.toList_append, hminus, List.append_assoc, List.singleton_append]
      simp only [readYear]
      rw [readNumber_pad 6 (by omega) hrest, Int.neg_neg]
    · next h =>
      rw [String.toList_append, hplus, List.append_assoc, List.singleton_append]
      simp only [readYear]
      rw [readNumber_pad 6 (by omega) hrest]

/-- A time survives its text. -/
theorem dateParse_toISOString (t : Time) : dateParse (toISOString t) = some t := by
  obtain ⟨⟨year, month, day, hmonths, hmonthDays⟩, hcivil, hdays⟩ := civilFromDays_spec (t / dayMs)
  have hmonth : 0 ≤ month := by omega
  have hday : 0 ≤ day := by omega
  simp only [CivilDate.number] at hcivil hdays
  have hms : 0 ≤ t % dayMs := Int.emod_nonneg t (by decide)
  have hsum : t / dayMs * dayMs + t % dayMs = t := Int.ediv_mul_add_emod t dayMs
  have hT : "T".toList = ['T'] := rfl
  have hZ : "Z".toList = ['Z'] := rfl
  have hdash : "-".toList = ['-'] := rfl
  have hcolon : ":".toList = [':'] := rfl
  have hpoint : ".".toList = ['.'] := rfl
  have hhour : 0 ≤ t % dayMs / 3600000 := Int.ediv_nonneg hms (by decide)
  have hminute : 0 ≤ t % dayMs / 60000 % 60 := Int.emod_nonneg _ (by decide)
  have hsecond : 0 ≤ t % dayMs / 1000 % 60 := Int.emod_nonneg _ (by decide)
  have hmilli : 0 ≤ t % dayMs % 1000 := Int.emod_nonneg _ (by decide)
  have htotal (days ms : Int) : days + ms / 3600000 * 3600000 + ms / 60000 % 60 * 60000 +
      ms / 1000 % 60 * 1000 + ms % 1000 = days + ms := by omega
  simp only [dateParse, toISOString, hcivil, String.toList_append, hT, hZ, hdash, hcolon, hpoint,
    List.append_assoc, List.cons_append, List.nil_append, Option.bind_eq_bind]
  rw [readYear_toISOString year (by simp)]
  dsimp only
  rw [readField_pad 2 hmonth (by simp), Option.bind_some]
  dsimp only
  rw [readField_pad 2 hday (by simp), Option.bind_some]
  dsimp only
  rw [readField_pad 2 hhour (by simp), Option.bind_some]
  dsimp only
  rw [readField_pad 2 hminute (by simp), Option.bind_some]
  dsimp only
  rw [readField_pad 2 hsecond (by simp), Option.bind_some]
  dsimp only
  rw [readField_pad 3 hmilli (by simp), Option.bind_some, hdays]
  exact congrArg some ((htotal _ _).trans hsum)

end Sosedi
