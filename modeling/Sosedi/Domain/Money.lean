import Mathlib.Data.Rat.Floor
import Mathlib.Tactic.Ring
import Mathlib.Tactic.NormNum
import Sosedi.Domain.Basics

/-!
# Money

Amounts are stored in `Decimal(10, 2)` columns and computed in minor units (kopecks).
A snapshot stores them as numbers of rubles; a number is modelled by its exact value.
-/

namespace Sosedi

/-- A `Decimal(10, 2)` column: a whole number of kopecks. -/
structure Decimal where
  minor : Int
  deriving DecidableEq

/-- The value in rubles. -/
def Decimal.value (d : Decimal) : ℚ := d.minor / 100

def Decimal.toNumber (d : Decimal) : ℚ := d.value

/-- `{ increment: amount }`. -/
def Decimal.increment (d amount : Decimal) : Decimal := ⟨d.minor + amount.minor⟩

@[simp] theorem Decimal.minor_increment (d amount : Decimal) :
    (d.increment amount).minor = d.minor + amount.minor := rfl

/-- `decimalToMinor` on any decimal: it throws on a fraction of a kopeck. -/
def exactMinor (value : ℚ) : Except Error Int :=
  if (value * 100).isInt then .ok (value * 100).num
  else .error (.internal "Money value must have whole kopecks")

/-- `decimalToMinor` on a column; it never throws (`exactMinor_value`). -/
def decimalToMinor (value : Decimal) : Int := value.minor

def minorToDecimal (value : Int) : Decimal := ⟨value⟩

theorem exactMinor_value (d : Decimal) : exactMinor d.value = .ok (decimalToMinor d) := by
  have h : d.value * 100 = (d.minor : ℚ) := by
    unfold Decimal.value
    ring
  rw [exactMinor, h]
  rfl

@[simp] theorem decimalToMinor_minorToDecimal (n : Int) :
    decimalToMinor (minorToDecimal n) = n := rfl

@[simp] theorem minor_minorToDecimal (n : Int) : (minorToDecimal n).minor = n := rfl

@[simp] theorem minorToDecimal_minor (d : Decimal) : minorToDecimal d.minor = d := rfl

def maxSafeInteger : Int := 9007199254740991

def isSafeInteger (value : Int) : Bool :=
  decide (-maxSafeInteger ≤ value ∧ value ≤ maxSafeInteger)

def minorToSafeNumber (value : Int) : Except Error Int :=
  if isSafeInteger value then .ok value
  else .error (.internal "Minor-unit value exceeds the safe integer range")

theorem minorToSafeNumber_eq_ok {value n : Int} (h : minorToSafeNumber value = .ok n) :
    n = value := by
  unfold minorToSafeNumber at h
  split at h
  · cases h
    rfl
  · cases h

/-! ## Price of a safe deal -/

def provisionalPlatformFeeBasisPoints : Int := 100

def basisPointsDenominator : Int := 10000

def halfBasisPointDenominator : Int := basisPointsDenominator / 2

structure SafeDealPrice where
  rentalSubtotalMinor : Int
  depositMinor : Int
  borrowerTotalMinor : Int
  platformFeeMinor : Int
  ownerPayoutMinor : Int
  deriving DecidableEq

def calculateProvisionalSafeDealPrice (rentalSubtotalMinor depositMinor : Int) :
    Except Error SafeDealPrice :=
  if rentalSubtotalMinor ≤ 0 then .error (.badRequest "Rental subtotal must be positive")
  else if depositMinor < 0 then .error (.badRequest "Deposit must be non-negative")
  else
    let platformFeeMinor :=
      (rentalSubtotalMinor * provisionalPlatformFeeBasisPoints +
        halfBasisPointDenominator) / basisPointsDenominator
    .ok
      { rentalSubtotalMinor
        depositMinor
        borrowerTotalMinor := rentalSubtotalMinor + depositMinor
        platformFeeMinor
        ownerPayoutMinor := rentalSubtotalMinor - platformFeeMinor }

theorem calculateProvisionalSafeDealPrice_eq_ok {rental deposit : Int} {p : SafeDealPrice}
    (h : calculateProvisionalSafeDealPrice rental deposit = .ok p) :
    0 < rental ∧ 0 ≤ deposit ∧ p.borrowerTotalMinor = rental + deposit := by
  unfold calculateProvisionalSafeDealPrice at h
  split at h
  · cases h
  · split at h
    · cases h
    · cases h
      exact ⟨by omega, by omega, rfl⟩

/-! ## Payment policy -/

inductive PaymentScenario where
  | payOnHandover
  | fakeSafeDeal
  deriving DecidableEq

/-- The deposit part of the policy under `FAKE_SAFE_DEAL`; parsing the configuration
rejects non-positive numbers. -/
structure DepositPolicy where
  maximumMinor : Int
  policyVersion : String
  disputeWindowSeconds : Int
  maximum_pos : 0 < maximumMinor
  window_pos : 0 < disputeWindowSeconds

/-- What the configuration parses to; `SAFE_DEAL` does not start. -/
inductive MarketplacePolicy where
  | payOnHandover
  | fakeSafeDeal (deposit : DepositPolicy)

namespace MarketplacePolicy

def paymentScenario : MarketplacePolicy → PaymentScenario
  | .payOnHandover => .payOnHandover
  | .fakeSafeDeal _ => .fakeSafeDeal

def requireFakeSafeDeal (policy : MarketplacePolicy) : Except Error Unit :=
  ensure (policy.paymentScenario == .fakeSafeDeal) (.badRequest "FAKE_SAFE_DEAL_REQUIRED")

/-- `deposit.maximumMinor ?? 0`. -/
def maximumMinor : MarketplacePolicy → Int
  | .payOnHandover => 0
  | .fakeSafeDeal deposit => deposit.maximumMinor

def assertDepositAllowed (policy : MarketplacePolicy) (amountMinor : Int) :
    Except Error Unit := do
  ensure (0 ≤ amountMinor) (.badRequest "Deposit amount cannot be negative")
  ensure (!(policy.paymentScenario == .payOnHandover && amountMinor != 0))
    (.badRequest "Deposits require FAKE_SAFE_DEAL")
  ensure (!(policy.paymentScenario == .fakeSafeDeal && amountMinor > policy.maximumMinor))
    (.badRequest "Deposit exceeds the active policy maximum")

end MarketplacePolicy

end Sosedi
