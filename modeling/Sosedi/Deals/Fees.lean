import Sosedi.Data.SignificantDigits
import Sosedi.Services.BookingService
import Sosedi.Services.ItemsService

/-!
# Money conversions and the fee of a deal

The decimals of the database client are rounded to twenty significant digits; the rounding is a
parameter.

Proved here:

* `decimalToMinor_minorToDecimal_iff`: an amount survives the conversion to a decimal and back
  just when it has no more digits;
* `feeSplit`, `FeeSplit.mono`: the fee and the payout of a deal;
* `moneyMinorOf_admitted`: the amounts of a booking are safe integers;
* `money_conversions`: all of it.
-/

namespace Sosedi

open SignificantDigits

/-! ## The decimals of the client -/

/-- `Decimal.precision`. -/
def decimalPrecision : ℕ := 20

namespace PrismaDecimal

/-- `new Prisma.Decimal(value.toString()).div(100)`. -/
def minorToDecimal (round : ℚ → ℚ) (value : Int) : ℚ := round (value / 100)

def decimalToMinor (round : ℚ → ℚ) (value : ℚ) : Except Error Int :=
  let minor := round (value * 100)
  if minor.isInt then .ok minor.num
  else .error (.internal "Money value must have whole kopecks")

variable {round : ℚ → ℚ}

theorem decimalToMinor_minorToDecimal_iff (hround : Rounding decimalPrecision round) (n : Int) :
    decimalToMinor round (minorToDecimal round n) = .ok n ↔ Fits decimalPrecision n := by
  constructor
  · intro h
    rw [decimalToMinor] at h
    have hfits := hround.fits (minorToDecimal round n * 100)
    generalize round (minorToDecimal round n * 100) = minor at h hfits
    split at h
    · next hint =>
      have hnum : minor.num = n := Except.ok.inj h
      have hvalue : (minor.num : ℚ) = minor :=
        Rat.coe_int_num_of_den_eq_one (by simpa [Rat.isInt] using hint)
      rwa [← hnum, hvalue]
    · cases h
  · intro h
    have hdown : (n : ℚ) / 100 = n * 10 ^ (-2 : ℤ) := by norm_num [div_eq_mul_inv]
    have hdecimal : minorToDecimal round n = n / 100 :=
      hround.exact _ (by rw [hdown]; exact h.shift (-2))
    have hminor : round (minorToDecimal round n * 100) = n := by
      rw [hdecimal, div_mul_cancel₀ _ (by norm_num)]
      exact hround.exact _ h
    rw [decimalToMinor, hminor]
    rfl

end PrismaDecimal

/-! ## The fee -/

/-- How a price is split. -/
structure FeeSplit (subtotal deposit : Int) (price : SafeDealPrice) : Prop where
  rental : price.rentalSubtotalMinor = subtotal
  deposit_eq : price.depositMinor = deposit
  complement : price.platformFeeMinor + price.ownerPayoutMinor = subtotal
  fee_nonneg : 0 ≤ price.platformFeeMinor
  fee_le : price.platformFeeMinor ≤ subtotal
  /-- One per cent, rounded to the nearest kopeck. -/
  nearest : |10000 * price.platformFeeMinor - 100 * subtotal| ≤ 5000
  /-- Half a kopeck is rounded up. -/
  half_up : -5000 < 10000 * price.platformFeeMinor - 100 * subtotal
  total : price.borrowerTotalMinor = subtotal + deposit

theorem feeSplit {subtotal deposit : Int} (hsubtotal : 0 < subtotal) (hdeposit : 0 ≤ deposit) :
    ∃ price, calculateProvisionalSafeDealPrice subtotal deposit = .ok price ∧
      FeeSplit subtotal deposit price := by
  rw [calculateProvisionalSafeDealPrice, if_neg (by omega), if_neg (by omega)]
  refine ⟨_, rfl, rfl, rfl, ?_, ?_, ?_, ?_, ?_, rfl⟩
  all_goals
    simp only [provisionalPlatformFeeBasisPoints, halfBasisPointDenominator,
      basisPointsDenominator]
  · omega
  · omega
  · omega
  · rw [abs_le]
    omega
  · omega

/-- A greater subtotal has no smaller fee, payout or total. -/
theorem FeeSplit.mono {subtotal subtotal' deposit : Int} {price price' : SafeDealPrice}
    (h : FeeSplit subtotal deposit price) (h' : FeeSplit subtotal' deposit price')
    (hle : subtotal ≤ subtotal') :
    price.platformFeeMinor ≤ price'.platformFeeMinor ∧
      price.ownerPayoutMinor ≤ price'.ownerPayoutMinor ∧
      price.borrowerTotalMinor ≤ price'.borrowerTotalMinor := by
  have hnearest := abs_le.mp h.nearest
  have hnearest' := abs_le.mp h'.nearest
  have hhalf := h.half_up
  have hhalf' := h'.half_up
  have hsplit := h.complement
  have hsplit' := h'.complement
  have htotal := h.total
  have htotal' := h'.total
  refine ⟨?_, ?_, ?_⟩
  · omega
  · omega
  · omega

/-! ## Safe integers -/

/-- `@IsNumber({ maxDecimalPlaces: 2 }) @Min(1) @Max(1_000_000) pricePerDay`. -/
def isAdmittedPricePerDay (value : ℚ) : Bool :=
  (value * 100).isInt && decide (1 ≤ value) && decide (value ≤ 1000000)

theorem minor_of_admitted {price : Decimal} (h : isAdmittedPricePerDay price.value = true) :
    100 ≤ decimalToMinor price ∧ decimalToMinor price ≤ 100000000 := by
  simp only [isAdmittedPricePerDay, Bool.and_eq_true, decide_eq_true_eq] at h
  obtain ⟨⟨-, hlow⟩, hhigh⟩ := h
  rw [Decimal.value, le_div_iff₀ (by norm_num), one_mul] at hlow
  rw [Decimal.value, div_le_iff₀ (by norm_num)] at hhigh
  rw [decimalToMinor]
  constructor
  · exact_mod_cast hlow
  · have hminor : (price.minor : ℚ) ≤ 100000000 := by linarith
    exact_mod_cast hminor

/-- The deposit of a listing is what its form allows. -/
theorem deposit_of_admitted {env : Env} {dto : ItemsService.UpdateItemDto} {item : Item}
    (h : ItemsService.resolveDepositAmount env dto = .ok item.depositAmount) :
    0 ≤ item.depositMinor ∧ item.depositMinor ≤ 3000000000 := by
  obtain ⟨-, -, h⟩ := bind_eq_ok.mp h
  obtain ⟨-, -, h⟩ := bind_eq_ok.mp h
  obtain ⟨_, hvalue, h⟩ := bind_eq_ok.mp h
  obtain ⟨-, -, h⟩ := bind_eq_ok.mp h
  rw [ensure_eq_ok] at hvalue
  generalize (if dto.depositAmountMinor.isSome = true then dto.depositAmountMinor.join
    else some 0) = value at h hvalue
  have hbound : 0 ≤ value.getD 0 ∧ value.getD 0 ≤ 3000000000 := by
    cases value with
    | none => exact ⟨le_refl 0, by decide⟩
    | some v =>
      simp only [Option.all_some, Bool.and_eq_true, decide_eq_true_eq] at hvalue
      exact ⟨hvalue.1.2, hvalue.2⟩
  have hresult : item.depositAmount = none ∨
      item.depositAmount = some (minorToDecimal (value.getD 0)) := by
    split at h
    · exact .inl (Except.ok.inj h).symm
    · have hamount := (Except.ok.inj h).symm
      rw [hamount]
      split
      · exact .inr rfl
      · exact .inl rfl
  rcases hresult with hnone | hsome
  · rw [Item.depositMinor, hnone]
    exact ⟨le_refl 0, by decide⟩
  · rw [Item.depositMinor, hsome]
    exact hbound

theorem minorToSafeNumber_of_le {value : Int} (h : 0 ≤ value) (hle : value ≤ maxSafeInteger) :
    minorToSafeNumber value = .ok value := by
  have hsafe : isSafeInteger value = true := by
    rw [isSafeInteger, decide_eq_true_eq, maxSafeInteger]
    rw [maxSafeInteger] at hle
    omega
  rw [minorToSafeNumber, if_pos hsafe]

/-- The amounts of a booking of an admitted listing are safe integers. -/
theorem moneyMinorOf_admitted {policy : MarketplacePolicy} {env : Env}
    {dto : ItemsService.UpdateItemDto} {item : Item} {start «end» today : String}
    {period : BookingPeriod} (hprice : isAdmittedPricePerDay item.pricePerDay.value = true)
    (hdeposit : ItemsService.resolveDepositAmount env dto = .ok item.depositAmount)
    (hperiod : parseBookingPeriod start «end» today = .ok period) :
    ∃ price, bookingPrice policy (decimalToMinor item.pricePerDay * period.days)
        item.depositMinor = .ok price ∧
      moneyMinorOf (decimalToMinor item.pricePerDay) item.depositMinor price =
        .ok ⟨decimalToMinor item.pricePerDay, price.rentalSubtotalMinor, item.depositMinor,
          price.platformFeeMinor, price.ownerPayoutMinor, price.borrowerTotalMinor⟩ := by
  obtain ⟨hprice₁, hprice₂⟩ := minor_of_admitted hprice
  obtain ⟨hdeposit₁, hdeposit₂⟩ := deposit_of_admitted hdeposit
  obtain ⟨-, -, -, -, -, hdays, -⟩ := parseBookingPeriod_eq_ok.mp hperiod
  have hdays₁ : 1 ≤ period.days := by
    have hnonneg : 0 ≤ differenceInDays period.startDate period.endDate :=
      Int.ediv_nonneg (Int.sub_nonneg_of_le period.ordered) (by decide)
    have heq := period.days_eq
    omega
  generalize decimalToMinor item.pricePerDay = pricePerDay at *
  generalize item.depositMinor = deposit at *
  have hrental₁ : pricePerDay ≤ pricePerDay * period.days :=
    le_mul_of_one_le_right (by omega) hdays₁
  have hrental₂ : pricePerDay * period.days ≤ pricePerDay * 30 :=
    mul_le_mul_of_nonneg_left hdays (by omega)
  generalize pricePerDay * period.days = rental at *
  have hmax : maxSafeInteger = 9007199254740991 := rfl
  have hok : ∀ price : SafeDealPrice, price.rentalSubtotalMinor = rental →
      0 ≤ price.platformFeeMinor → price.platformFeeMinor ≤ rental →
      price.platformFeeMinor + price.ownerPayoutMinor = rental →
      (price.borrowerTotalMinor = rental ∨ price.borrowerTotalMinor = rental + deposit) →
      moneyMinorOf pricePerDay deposit price = .ok ⟨pricePerDay, price.rentalSubtotalMinor,
        deposit, price.platformFeeMinor, price.ownerPayoutMinor, price.borrowerTotalMinor⟩ := by
    intro price hrental hfee₁ hfee₂ hsplit htotal
    rw [moneyMinorOf, minorToSafeNumber_of_le (by omega) (by omega),
      minorToSafeNumber_of_le (by omega) (by omega), minorToSafeNumber_of_le (by omega) (by omega),
      minorToSafeNumber_of_le (by omega) (by omega), minorToSafeNumber_of_le (by omega) (by omega),
      minorToSafeNumber_of_le (by omega) (by omega)]
    rfl
  cases policy with
  | payOnHandover =>
    exact ⟨_, rfl, hok _ rfl (le_refl 0) (by show (0 : Int) ≤ rental; omega) (zero_add rental)
      (.inl rfl)⟩
  | fakeSafeDeal policy =>
    obtain ⟨price, hcalculate, hsplit⟩ := feeSplit (by omega : 0 < rental) hdeposit₁
    exact ⟨price, hcalculate, hok price hsplit.rental hsplit.fee_nonneg hsplit.fee_le
      hsplit.complement (.inr hsplit.total)⟩

/-- **Money conversions and the fee split.** -/
theorem money_conversions {round : ℚ → ℚ} (hround : Rounding decimalPrecision round) :
    (∀ n : Int, PrismaDecimal.decimalToMinor round (PrismaDecimal.minorToDecimal round n) = .ok n ↔
      Fits decimalPrecision n) ∧
    (∀ subtotal deposit : Int, 0 < subtotal → 0 ≤ deposit →
      ∃ price, calculateProvisionalSafeDealPrice subtotal deposit = .ok price ∧
        FeeSplit subtotal deposit price) ∧
    (∀ (subtotal subtotal' deposit : Int) (price price' : SafeDealPrice), subtotal ≤ subtotal' →
      calculateProvisionalSafeDealPrice subtotal deposit = .ok price →
      calculateProvisionalSafeDealPrice subtotal' deposit = .ok price' →
      price.platformFeeMinor ≤ price'.platformFeeMinor ∧
        price.ownerPayoutMinor ≤ price'.ownerPayoutMinor ∧
        price.borrowerTotalMinor ≤ price'.borrowerTotalMinor) ∧
    ∀ (policy : MarketplacePolicy) (env : Env) (dto : ItemsService.UpdateItemDto) (item : Item)
      (start «end» today : String) (period : BookingPeriod),
      isAdmittedPricePerDay item.pricePerDay.value = true →
      ItemsService.resolveDepositAmount env dto = .ok item.depositAmount →
      parseBookingPeriod start «end» today = .ok period →
      ∃ price, bookingPrice policy (decimalToMinor item.pricePerDay * period.days)
          item.depositMinor = .ok price ∧
        moneyMinorOf (decimalToMinor item.pricePerDay) item.depositMinor price =
          .ok ⟨decimalToMinor item.pricePerDay, price.rentalSubtotalMinor, item.depositMinor,
            price.platformFeeMinor, price.ownerPayoutMinor, price.borrowerTotalMinor⟩ := by
  refine ⟨PrismaDecimal.decimalToMinor_minorToDecimal_iff hround, fun _ _ => feeSplit, ?_,
    fun _ _ _ _ _ _ _ _ => moneyMinorOf_admitted⟩
  intro subtotal subtotal' deposit price price' hle h h'
  have hsplit : ∀ {subtotal : Int} {price : SafeDealPrice},
      calculateProvisionalSafeDealPrice subtotal deposit = .ok price →
      FeeSplit subtotal deposit price := by
    intro subtotal price h
    obtain ⟨hsubtotal, hdeposit, -⟩ := calculateProvisionalSafeDealPrice_eq_ok h
    obtain ⟨price₀, h₀, hsplit⟩ := feeSplit hsubtotal hdeposit
    obtain rfl : price₀ = price := Except.ok.inj (h₀.symm.trans h)
    exact hsplit
  exact (hsplit h).mono (hsplit h') hle

namespace PrismaDecimal

/-- Halves are rounded away from zero. -/
def roundHalfUp : ℚ → ℚ := roundTo decimalPrecision

theorem money_conversions_half_up :
    (∀ n : Int, decimalToMinor roundHalfUp (minorToDecimal roundHalfUp n) = .ok n ↔
      Fits decimalPrecision n) ∧
    (∀ subtotal deposit : Int, 0 < subtotal → 0 ≤ deposit →
      ∃ price, calculateProvisionalSafeDealPrice subtotal deposit = .ok price ∧
        FeeSplit subtotal deposit price) ∧
    (∀ (subtotal subtotal' deposit : Int) (price price' : SafeDealPrice), subtotal ≤ subtotal' →
      calculateProvisionalSafeDealPrice subtotal deposit = .ok price →
      calculateProvisionalSafeDealPrice subtotal' deposit = .ok price' →
      price.platformFeeMinor ≤ price'.platformFeeMinor ∧
        price.ownerPayoutMinor ≤ price'.ownerPayoutMinor ∧
        price.borrowerTotalMinor ≤ price'.borrowerTotalMinor) ∧
    ∀ (policy : MarketplacePolicy) (env : Env) (dto : ItemsService.UpdateItemDto) (item : Item)
      (start «end» today : String) (period : BookingPeriod),
      isAdmittedPricePerDay item.pricePerDay.value = true →
      ItemsService.resolveDepositAmount env dto = .ok item.depositAmount →
      parseBookingPeriod start «end» today = .ok period →
      ∃ price, bookingPrice policy (Sosedi.decimalToMinor item.pricePerDay * period.days)
          item.depositMinor = .ok price ∧
        moneyMinorOf (Sosedi.decimalToMinor item.pricePerDay) item.depositMinor price =
          .ok ⟨Sosedi.decimalToMinor item.pricePerDay, price.rentalSubtotalMinor,
            item.depositMinor, price.platformFeeMinor, price.ownerPayoutMinor,
            price.borrowerTotalMinor⟩ :=
  money_conversions (roundTo_rounding (by decide))

/-- An amount of twenty-one digits does not survive the conversions. -/
theorem one_kopeck_lost :
    decimalToMinor roundHalfUp (minorToDecimal roundHalfUp 100000000000000000001) ≠
      .ok 100000000000000000001 := by
  have hround : Rounding decimalPrecision roundHalfUp := roundTo_rounding (by decide)
  rw [Ne, decimalToMinor_minorToDecimal_iff hround]
  rintro ⟨m, e, hm, h⟩
  rcases le_or_gt e 0 with he | he
  · have hpow : (10 : ℚ) ^ e ≤ 1 := zpow_le_one_of_nonpos₀ (by norm_num) he
    have hpos : (0 : ℚ) < 10 ^ e := zpow_pos (by norm_num) _
    have hm' : |(m : ℚ)| < 10 ^ decimalPrecision := by exact_mod_cast hm
    have habs := congrArg abs h
    rw [abs_mul, abs_of_pos hpos] at habs
    have hle : |(m : ℚ)| * 10 ^ e ≤ |(m : ℚ)| := mul_le_of_le_one_right (abs_nonneg _) hpow
    rw [← habs] at hle
    norm_num [decimalPrecision] at hle hm'
    linarith
  · obtain ⟨j, rfl⟩ : ∃ j : ℕ, e = j + 1 := ⟨(e - 1).toNat, by omega⟩
    have hint : (100000000000000000001 : ℤ) = m * 10 ^ j * 10 := by
      rw [zpow_add₀ (by norm_num), zpow_natCast, zpow_one, ← mul_assoc] at h
      exact_mod_cast h
    generalize m * 10 ^ j = k at hint
    omega

end PrismaDecimal

end Sosedi
