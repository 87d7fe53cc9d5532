import Sosedi.Domain.Money

/-!
# The terms snapshot of a booking

A booking stores the terms it was made under.  The column is modelled by the record that
`create` writes; `readBoundBookingTermsSnapshot` makes the checks of the source on it and
binds it to the booking row.
-/

namespace Sosedi

structure BookingMoneyMinor where
  pricePerDay : Int
  rentalSubtotal : Int
  deposit : Int
  platformFee : Int
  ownerPayout : Int
  total : Int
  deriving DecidableEq

structure DepositTerms where
  policyVersion : String
  disputeWindowSeconds : Int
  deriving DecidableEq

structure Handover where
  area : String
  address : String
  latitude : ℚ
  longitude : ℚ
  deriving DecidableEq

/-- `method` is always `BOOKING_SUBMIT_CHECKBOX`. -/
structure Acceptance where
  actorId : Id
  acceptedAt : Time
  offerVersion : String
  cancellationPolicyVersion : String
  deriving DecidableEq

/-- `currency` is always `RUB`. -/
structure BookingTermsSnapshot where
  itemTitle : String
  lenderId : Id
  lenderDisplayName : Option String
  pricePerDay : ℚ
  days : Int
  rentalSubtotal : ℚ
  depositAmount : Option ℚ
  platformFee : ℚ
  ownerPayout : ℚ
  total : ℚ
  paymentScenario : PaymentScenario
  moneyMinor : BookingMoneyMinor
  depositTerms : Option DepositTerms
  handover : Handover
  listingVersion : String
  offerVersion : Option String
  cancellationPolicyVersion : Option String
  acceptance : Option Acceptance
  deriving DecidableEq

/-! ## Reading -/

/-- A number of rubles in minor units. -/
def minorUnits (value : ℚ) : Option Int :=
  let scaled := value * 100
  let rounded := (scaled + 1 / 2).floor
  if 0 ≤ value ∧ isSafeInteger rounded ∧ |scaled - rounded| < 1 / 1000000 then some rounded
  else none

def safeMinor (value : Int) : Bool := isSafeInteger value && 0 ≤ value

def readMoneyMinor (value : BookingMoneyMinor) : Option BookingMoneyMinor :=
  if safeMinor value.pricePerDay && safeMinor value.rentalSubtotal && safeMinor value.deposit &&
      safeMinor value.platformFee && safeMinor value.ownerPayout && safeMinor value.total then
    some value
  else none

def validDepositTerms : Option DepositTerms → Bool
  | none => true
  | some terms =>
    isNonEmptyString terms.policyVersion && isSafeInteger terms.disputeWindowSeconds &&
      0 < terms.disputeWindowSeconds

def isNullableVersion : Option String → Bool
  | none => true
  | some version => isNonEmptyString version

def validAcceptance (acceptance : Option Acceptance)
    (offerVersion cancellationPolicyVersion : Option String) : Bool :=
  match offerVersion, cancellationPolicyVersion, acceptance with
  | none, none, acceptance => acceptance.isNone
  | some offer, some cancellation, some acceptance =>
    isNonEmptyString offer && isNonEmptyString cancellation &&
      acceptance.offerVersion == offer &&
      acceptance.cancellationPolicyVersion == cancellation
  | _, _, _ => false

def isCoordinate (value min max : ℚ) : Bool := min ≤ value && value ≤ max

/-- The money table of an offline snapshot may be absent or broken; it is then rebuilt
from the amounts in rubles. -/
def snapshotMoney (value : BookingTermsSnapshot) : Option BookingMoneyMinor :=
  match readMoneyMinor value.moneyMinor with
  | some money => some money
  | none =>
    if value.paymentScenario = .payOnHandover then do
      let pricePerDay ← minorUnits value.pricePerDay
      let rentalSubtotal ← minorUnits value.rentalSubtotal
      let deposit ← minorUnits (value.depositAmount.getD 0)
      let platformFee ← minorUnits value.platformFee
      let ownerPayout ← minorUnits value.ownerPayout
      let total ← minorUnits value.total
      pure { pricePerDay, rentalSubtotal, deposit, platformFee, ownerPayout, total }
    else none

/-- The checks on texts, versions and places. -/
def validTexts (value : BookingTermsSnapshot) : Bool :=
  isNonEmptyString value.itemTitle && 1 ≤ value.days &&
    validDepositTerms value.depositTerms &&
    isNonEmptyString value.handover.area && isNonEmptyString value.handover.address &&
    isCoordinate value.handover.latitude (-90) 90 &&
    isCoordinate value.handover.longitude (-180) 180 &&
    isNonEmptyString value.listingVersion && isNullableVersion value.offerVersion &&
    isNullableVersion value.cancellationPolicyVersion &&
    validAcceptance value.acceptance value.offerVersion value.cancellationPolicyVersion &&
    (value.paymentScenario == .payOnHandover || value.acceptance.isSome)

/-- The checks on amounts. -/
def validMoney (value : BookingTermsSnapshot) (money : BookingMoneyMinor) : Bool :=
  isSafeInteger (money.pricePerDay * value.days) &&
    money.rentalSubtotal == money.pricePerDay * value.days &&
    money.ownerPayout + money.platformFee == money.rentalSubtotal &&
    money.total == money.rentalSubtotal + money.deposit &&
    minorUnits value.pricePerDay == some money.pricePerDay &&
    minorUnits value.rentalSubtotal == some money.rentalSubtotal &&
    minorUnits (value.depositAmount.getD 0) == some money.deposit &&
    minorUnits value.platformFee == some money.platformFee &&
    minorUnits value.ownerPayout == some money.ownerPayout &&
    minorUnits value.total == some money.total &&
    (if value.paymentScenario = .payOnHandover then
      money.deposit == 0 && money.platformFee == 0 &&
        money.ownerPayout == money.rentalSubtotal && value.depositTerms.isNone
    else (money.deposit > 0 : Bool) == value.depositTerms.isSome)

def readBookingTermsSnapshot (value : Option BookingTermsSnapshot) :
    Option BookingTermsSnapshot := do
  let value ← value
  let money ← snapshotMoney value
  if validTexts value && validMoney value money then some { value with moneyMinor := money }
  else none

/-- What a snapshot is bound to. -/
structure TermsBinding where
  borrowerId : Id
  lenderId : Id
  days : Int
  totalAmount : ℚ

def TermsBinding.admits (binding : TermsBinding) (snapshot : BookingTermsSnapshot) : Bool :=
  snapshot.lenderId == binding.lenderId && snapshot.days == binding.days &&
    snapshot.acceptance.all (·.actorId == binding.borrowerId) &&
    some snapshot.moneyMinor.total == minorUnits binding.totalAmount

def readBoundBookingTermsSnapshot (value : Option BookingTermsSnapshot)
    (binding : TermsBinding) : Option BookingTermsSnapshot := do
  let snapshot ← readBookingTermsSnapshot value
  if binding.admits snapshot then some snapshot else none

/-! ## What reading guarantees -/

theorem readMoneyMinor_eq_some {value money : BookingMoneyMinor}
    (h : readMoneyMinor value = some money) : money = value ∧ 0 ≤ value.deposit := by
  unfold readMoneyMinor at h
  split at h
  · rename_i hc
    simp only [safeMinor, Bool.and_eq_true, decide_eq_true_eq] at hc
    cases h
    exact ⟨rfl, by omega⟩
  · cases h

/-- The money table that is read for a safe deal is the stored one. -/
theorem readBoundBookingTermsSnapshot_eq_some {value : BookingTermsSnapshot}
    {binding : TermsBinding} {snapshot : BookingTermsSnapshot}
    (h : readBoundBookingTermsSnapshot (some value) binding = some snapshot) :
    ∃ money, snapshotMoney value = some money ∧ snapshot = { value with moneyMinor := money } ∧
      validTexts value = true ∧ validMoney value money = true := by
  simp only [readBoundBookingTermsSnapshot, readBookingTermsSnapshot, Option.bind_eq_bind,
    Option.bind_some] at h
  cases hm : snapshotMoney value with
  | none => simp [hm] at h
  | some money =>
    rw [hm, Option.bind_some] at h
    by_cases hv : (validTexts value && validMoney value money) = true
    · rw [if_pos hv, Option.bind_some] at h
      split at h
      · rw [Bool.and_eq_true] at hv
        exact ⟨money, rfl, (Option.some.inj h).symm, hv.1, hv.2⟩
      · cases h
    · rw [if_neg hv] at h
      simp at h

theorem paymentScenario_of_read {value : BookingTermsSnapshot} {binding : TermsBinding}
    {snapshot : BookingTermsSnapshot}
    (h : readBoundBookingTermsSnapshot (some value) binding = some snapshot) :
    snapshot.paymentScenario = value.paymentScenario := by
  obtain ⟨money, -, rfl, -, -⟩ := readBoundBookingTermsSnapshot_eq_some h
  rfl

/-- A safe-deal snapshot is read back as it was stored. -/
theorem eq_of_read_fakeSafeDeal {value : BookingTermsSnapshot} {binding : TermsBinding}
    {snapshot : BookingTermsSnapshot}
    (h : readBoundBookingTermsSnapshot (some value) binding = some snapshot)
    (hs : value.paymentScenario = .fakeSafeDeal) :
    snapshot = value ∧ (0 < value.moneyMinor.deposit ↔ value.depositTerms.isSome) := by
  obtain ⟨money, hmoney, rfl, -, hv⟩ := readBoundBookingTermsSnapshot_eq_some h
  have hread : money = value.moneyMinor := by
    unfold snapshotMoney at hmoney
    split at hmoney
    · rename_i m hm
      cases hmoney
      exact (readMoneyMinor_eq_some hm).1
    · simp [hs] at hmoney
  subst hread
  refine ⟨rfl, ?_⟩
  simp only [validMoney, hs, Bool.and_eq_true, beq_iff_eq] at hv
  have := hv.2
  simp only [reduceCtorEq, if_false, beq_iff_eq] at this
  rw [← this]
  simp

/-- A snapshot without a deposit scenario has no deposit. -/
theorem deposit_of_read_offline {value : BookingTermsSnapshot} {binding : TermsBinding}
    {snapshot : BookingTermsSnapshot}
    (h : readBoundBookingTermsSnapshot (some value) binding = some snapshot)
    (hs : value.paymentScenario = .payOnHandover) :
    snapshot.moneyMinor.deposit = 0 := by
  obtain ⟨money, -, rfl, -, hv⟩ := readBoundBookingTermsSnapshot_eq_some h
  simp only [validMoney, hs, Bool.and_eq_true, if_true, beq_iff_eq] at hv
  exact hv.2.1.1.1

end Sosedi
