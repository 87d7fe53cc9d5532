import Mathlib.Tactic.Linarith
import Sosedi.Bookings.SnapshotJson

/-!
# What the snapshot validator guarantees

The stored JSON may have any shape.

Proved here:

* `sound_of_read`: the equations that hold between the amounts of a snapshot that is accepted;
* `snapshot_sound`: these equations, and that a changed amount is rejected, save in an offline
  snapshot with a money table: a table that cannot be read counts as absent.
-/

namespace Sosedi

namespace SnapshotJson

/-! ## Money fields -/

inductive MoneyField where
  | pricePerDay
  | rentalSubtotal
  | deposit
  | platformFee
  | ownerPayout
  | total
  deriving DecidableEq

namespace MoneyField

/-- The name in the money table. -/
def minorName : MoneyField → String
  | pricePerDay => "pricePerDay"
  | rentalSubtotal => "rentalSubtotal"
  | deposit => "deposit"
  | platformFee => "platformFee"
  | ownerPayout => "ownerPayout"
  | total => "total"

/-- The name of the amount in rubles. -/
def decimalName : MoneyField → String
  | deposit => "depositAmount"
  | field => field.minorName

/-- The value of a field of the money table. -/
def minor (money : BookingMoneyMinor) : MoneyField → Int
  | pricePerDay => money.pricePerDay
  | rentalSubtotal => money.rentalSubtotal
  | deposit => money.deposit
  | platformFee => money.platformFee
  | ownerPayout => money.ownerPayout
  | total => money.total

/-- The amount in rubles that a snapshot states. -/
def decimal (snapshot : BookingTermsSnapshot) : MoneyField → Option ℚ
  | pricePerDay => snapshot.pricePerDay
  | rentalSubtotal => snapshot.rentalSubtotal
  | deposit => snapshot.depositAmount
  | platformFee => snapshot.platformFee
  | ownerPayout => snapshot.ownerPayout
  | total => snapshot.total

/-- A field in rubles, in minor units. -/
def readDecimal (value : JsonObject) : MoneyField → Option Int
  | deposit => depositMinorUnits (value.get "depositAmount")
  | field => minorUnits (value.get field.decimalName)

theorem minorName_injective {f g : MoneyField} (h : f.minorName = g.minorName) : f = g := by
  cases f <;> cases g <;> first | rfl | exact absurd h (by decide)

theorem decimalName_injective {f g : MoneyField} (h : f.decimalName = g.decimalName) : f = g := by
  cases f <;> cases g <;> first | rfl | exact absurd h (by decide)

end MoneyField

open MoneyField

theorem readAmounts_eq_some {value : JsonObject} {amounts : BookingMoneyMinor} :
    readAmounts value = some amounts ↔ ∀ f, readDecimal value f = some (minor amounts f) := by
  simp only [readAmounts, Option.bind_eq_bind, Option.bind_eq_some_iff, Option.pure_def,
    Option.some.injEq]
  constructor
  · rintro ⟨_, h₁, _, h₂, _, h₃, _, h₄, _, h₅, _, h₆, rfl⟩ f
    cases f <;> assumption
  · intro h
    exact ⟨_, h .pricePerDay, _, h .rentalSubtotal, _, h .deposit, _, h .platformFee, _,
      h .ownerPayout, _, h .total, rfl⟩

theorem readMoneyMinor_eq_some {value : JsonObject} {money : BookingMoneyMinor} :
    readMoneyMinor value = some money ↔
      ∀ f : MoneyField, safeMinor (value.get f.minorName) = some (minor money f) := by
  simp only [readMoneyMinor, Option.bind_eq_bind, Option.bind_eq_some_iff, Option.pure_def,
    Option.some.injEq]
  constructor
  · rintro ⟨_, h₁, _, h₂, _, h₃, _, h₄, _, h₅, _, h₆, rfl⟩ f
    cases f <;> assumption
  · intro h
    exact ⟨_, h .pricePerDay, _, h .rentalSubtotal, _, h .deposit, _, h .platformFee, _,
      h .ownerPayout, _, h .total, rfl⟩

/-! ## What is accepted -/

variable {value : JsonObject} {snapshot : BookingTermsSnapshot} {amounts : BookingMoneyMinor}

/-- The parts of an accepted snapshot that its amounts hang on. -/
structure Accepted (value : JsonObject) (snapshot : BookingTermsSnapshot)
    (amounts : BookingMoneyMinor) : Prop where
  read : readAmounts value = some amounts
  scenario : readScenario (value.get "paymentScenario") = some snapshot.paymentScenario
  money : readMoney value snapshot.paymentScenario amounts = some snapshot.moneyMinor
  days : integer? (value.get "days") = some snapshot.days ∧ 1 ≤ snapshot.days
  valid : validAmounts snapshot.paymentScenario snapshot.days snapshot.depositTerms.isSome amounts
    snapshot.moneyMinor = true
  pricePerDay : number? (value.get "pricePerDay") = some snapshot.pricePerDay
  rentalSubtotal : number? (value.get "rentalSubtotal") = some snapshot.rentalSubtotal
  depositAmount : number? (value.get "depositAmount") = snapshot.depositAmount
  platformFee : number? (value.get "platformFee") = some snapshot.platformFee
  ownerPayout : number? (value.get "ownerPayout") = some snapshot.ownerPayout
  total : number? (value.get "total") = some snapshot.total
  offerVersion : isNullableVersion (value.get "offerVersion") = some snapshot.offerVersion
  cancellationPolicyVersion : isNullableVersion (value.get "cancellationPolicyVersion") =
    some snapshot.cancellationPolicyVersion
  acceptance : validAcceptance (isJsonRecord (value.get "acceptance")) (value.get "offerVersion")
    (value.get "cancellationPolicyVersion") = some snapshot.acceptance
  accepted : snapshot.paymentScenario = .payOnHandover ∨ snapshot.acceptance.isSome = true

theorem accepted_of_read (h : readBookingTermsSnapshot (.object value) = some snapshot) :
    ∃ amounts, Accepted value snapshot amounts := by
  obtain ⟨_, -, h⟩ := Option.bind_eq_some_iff.mp h
  obtain ⟨amounts, hamounts, h⟩ := Option.bind_eq_some_iff.mp h
  obtain ⟨scenario, hscenario, h⟩ := Option.bind_eq_some_iff.mp h
  obtain ⟨money, hmoney, h⟩ := Option.bind_eq_some_iff.mp h
  obtain ⟨terms, -, h⟩ := Option.bind_eq_some_iff.mp h
  obtain ⟨_, -, h⟩ := Option.bind_eq_some_iff.mp h
  obtain ⟨_, -, h⟩ := Option.bind_eq_some_iff.mp h
  obtain ⟨_, -, h⟩ := Option.bind_eq_some_iff.mp h
  obtain ⟨days, hdays, h⟩ := Option.bind_eq_some_iff.mp h
  obtain ⟨_, -, h⟩ := Option.bind_eq_some_iff.mp h
  obtain ⟨_, -, h⟩ := Option.bind_eq_some_iff.mp h
  obtain ⟨offer, hoffer, h⟩ := Option.bind_eq_some_iff.mp h
  obtain ⟨cancellation, hcancellation, h⟩ := Option.bind_eq_some_iff.mp h
  obtain ⟨acceptance, hacceptance, h⟩ := Option.bind_eq_some_iff.mp h
  obtain ⟨_, hprice, h⟩ := Option.bind_eq_some_iff.mp h
  obtain ⟨_, hrental, h⟩ := Option.bind_eq_some_iff.mp h
  obtain ⟨_, hfee, h⟩ := Option.bind_eq_some_iff.mp h
  obtain ⟨_, hpayout, h⟩ := Option.bind_eq_some_iff.mp h
  obtain ⟨_, htotal, h⟩ := Option.bind_eq_some_iff.mp h
  obtain ⟨hvalid, h⟩ := Option.ite_none_right_eq_some.mp h
  cases h
  simp only [Bool.and_eq_true, Bool.or_eq_true, decide_eq_true_eq] at hvalid
  have hdays := Option.filter_eq_some_iff.mp hdays
  exact ⟨amounts, hamounts, hscenario, hmoney, ⟨hdays.1, of_decide_eq_true hdays.2⟩, hvalid.2,
    hprice, hrental, rfl, hfee, hpayout, htotal, hoffer, hcancellation, hacceptance, hvalid.1.2⟩

/-! ## The equations -/

theorem minorUnits_spec {q : ℚ} {n : Int} (h : Sosedi.minorUnits q = some n) :
    0 ≤ q ∧ |q * 100 - n| < 1 / 1000000 := by
  simp only [Sosedi.minorUnits] at h
  split at h
  · next hvalid =>
    cases h
    exact ⟨hvalid.1, hvalid.2.2⟩
  · cases h

theorem minorUnits_nonneg {q : ℚ} {n : Int} (h : Sosedi.minorUnits q = some n) : 0 ≤ n := by
  obtain ⟨hq, hclose⟩ := minorUnits_spec h
  by_contra hneg
  have hle : (n : ℚ) ≤ -1 := by exact_mod_cast Int.le_sub_one_of_lt (not_le.mp hneg)
  rw [abs_lt] at hclose
  linarith

/-- The amounts of a snapshot agree with each other, with its scenario and with its booking. -/
structure Sound (snapshot : BookingTermsSnapshot) (binding : TermsBinding) : Prop where
  subtotal : snapshot.moneyMinor.rentalSubtotal = snapshot.moneyMinor.pricePerDay * snapshot.days
  split : snapshot.moneyMinor.ownerPayout + snapshot.moneyMinor.platformFee =
    snapshot.moneyMinor.rentalSubtotal
  total : snapshot.moneyMinor.total =
    snapshot.moneyMinor.rentalSubtotal + snapshot.moneyMinor.deposit
  bound : Sosedi.minorUnits binding.totalAmount = some snapshot.moneyMinor.total ∧
    snapshot.days = binding.days ∧ snapshot.lenderId = binding.lenderId
  nonneg : 1 ≤ snapshot.days ∧ ∀ f, 0 ≤ minor snapshot.moneyMinor f
  rounds : ∀ f, (∀ q, decimal snapshot f = some q →
    0 ≤ q ∧ |q * 100 - minor snapshot.moneyMinor f| < 1 / 1000000) ∧
      (decimal snapshot f = none → f = .deposit ∧ minor snapshot.moneyMinor f = 0)
  safeDeal : snapshot.paymentScenario = .fakeSafeDeal →
    (snapshot.depositTerms.isSome ↔ 0 < snapshot.moneyMinor.deposit) ∧
      ∃ acceptance, snapshot.acceptance = some acceptance ∧
        acceptance.actorId = binding.borrowerId ∧
        snapshot.offerVersion = some acceptance.offerVersion ∧
        snapshot.cancellationPolicyVersion = some acceptance.cancellationPolicyVersion
  offline : snapshot.paymentScenario = .payOnHandover →
    snapshot.moneyMinor.deposit = 0 ∧ snapshot.moneyMinor.platformFee = 0 ∧
      snapshot.depositTerms = none

/-- What `validAmounts` checks. -/
theorem validAmounts_iff {scenario : PaymentScenario} {days : Int} {hasTerms : Bool}
    {amounts money : BookingMoneyMinor} :
    validAmounts scenario days hasTerms amounts money = true ↔
      isSafeInteger (money.pricePerDay * days) = true ∧
      money.rentalSubtotal = money.pricePerDay * days ∧
      money.ownerPayout + money.platformFee = money.rentalSubtotal ∧
      money.total = money.rentalSubtotal + money.deposit ∧ amounts = money ∧
      (scenario = .payOnHandover → money.deposit = 0 ∧ money.platformFee = 0 ∧
        money.ownerPayout = money.rentalSubtotal ∧ hasTerms = false) ∧
      (scenario = .fakeSafeDeal → (0 < money.deposit ↔ hasTerms = true)) := by
  cases scenario
  · simp [validAmounts, and_assoc]
  · cases hasTerms <;> simp [validAmounts, and_assoc]

/-- A valid acceptance names the versions of the snapshot. -/
theorem acceptance_of_valid {acceptance : Option JsonObject} {offer cancellation : Option JsonValue}
    {result : Acceptance} (h : validAcceptance acceptance offer cancellation = some (some result)) :
    isNonEmptyString offer = some result.offerVersion ∧
      isNonEmptyString cancellation = some result.cancellationPolicyVersion := by
  unfold validAcceptance at h
  split at h
  · split at h <;> cases h
  · obtain ⟨_, hoffer, h⟩ := Option.bind_eq_some_iff.mp h
    obtain ⟨_, hcancellation, h⟩ := Option.bind_eq_some_iff.mp h
    obtain ⟨_, -, h⟩ := Option.bind_eq_some_iff.mp h
    obtain ⟨_, -, h⟩ := Option.bind_eq_some_iff.mp h
    obtain ⟨_, -, h⟩ := Option.bind_eq_some_iff.mp h
    obtain ⟨-, h⟩ := Option.ite_none_right_eq_some.mp h
    cases h
    exact ⟨hoffer, hcancellation⟩

theorem isNullableVersion_of_nonEmpty {version : Option JsonValue} {text : String}
    (h : isNonEmptyString version = some text) : isNullableVersion version = some (some text) := by
  have hnull : isNull version = false := by
    cases hv : isNull version with
    | false => rfl
    | true =>
      unfold isNull at hv
      split at hv
      · cases h
      · cases hv
  rw [isNullableVersion, hnull, h]
  rfl

theorem isNull_of_number {field : Option JsonValue} {q : ℚ} (h : number? field = some q) :
    isNull field = false := by
  unfold number? at h
  split at h
  · rfl
  · cases h

/-- A field that holds a number is read as that number. -/
theorem readDecimal_of_number {f : MoneyField} {q : ℚ}
    (h : number? (value.get f.decimalName) = some q) :
    readDecimal value f = Sosedi.minorUnits q := by
  have hunits : minorUnits (value.get f.decimalName) = Sosedi.minorUnits q := by
    rw [minorUnits, h, Option.bind_some]
  cases f with
  | deposit =>
    have hnull : isNull (value.get "depositAmount") = false := isNull_of_number h
    exact (if_neg (by simp [hnull])).trans hunits
  | _ => exact hunits

/-- Only the deposit may be something else. -/
theorem readDecimal_of_no_number {f : MoneyField} {n : Int}
    (h : number? (value.get f.decimalName) = none) (hn : readDecimal value f = some n) :
    f = .deposit ∧ n = 0 := by
  have hunits : minorUnits (value.get f.decimalName) = none := by
    rw [minorUnits, h, Option.bind_none]
  cases f with
  | deposit =>
    obtain ⟨-, hzero⟩ | ⟨-, hread⟩ := ite_eq_iff.mp hn
    · exact ⟨rfl, (Option.some.inj hzero).symm⟩
    · cases hunits.symm.trans hread
  | _ => cases hunits.symm.trans hn

theorem exists_of_readDecimal {f : MoneyField} {n : Int} (h : readDecimal value f = some n) :
    ∃ field, value.get f.decimalName = some field := by
  cases hget : value.get f.decimalName with
  | some field => exact ⟨field, rfl⟩
  | none =>
    cases f with
    | deposit =>
      have hread : depositMinorUnits (value.get (decimalName deposit)) = some n := h
      rw [hget] at hread
      cases hread
    | _ =>
      have hread : minorUnits (value.get (decimalName _)) = some n := h
      rw [hget] at hread
      cases hread

namespace Accepted

theorem number_decimal (h : Accepted value snapshot amounts) (f : MoneyField) :
    number? (value.get f.decimalName) = decimal snapshot f := by
  cases f with
  | pricePerDay => exact h.pricePerDay
  | rentalSubtotal => exact h.rentalSubtotal
  | deposit => exact h.depositAmount
  | platformFee => exact h.platformFee
  | ownerPayout => exact h.ownerPayout
  | total => exact h.total

theorem amounts_eq (h : Accepted value snapshot amounts) : amounts = snapshot.moneyMinor :=
  (validAmounts_iff.mp h.valid).2.2.2.2.1

theorem readDecimal_eq (h : Accepted value snapshot amounts) (f : MoneyField) :
    readDecimal value f = some (minor snapshot.moneyMinor f) := by
  rw [← h.amounts_eq]
  exact readAmounts_eq_some.mp h.read f

/-- An accepted amount is that of its field in rubles. -/
theorem rounds (h : Accepted value snapshot amounts) (f : MoneyField) :
    (∀ q, decimal snapshot f = some q →
      0 ≤ q ∧ |q * 100 - minor snapshot.moneyMinor f| < 1 / 1000000) ∧
        (decimal snapshot f = none → f = .deposit ∧ minor snapshot.moneyMinor f = 0) := by
  have hread := h.readDecimal_eq f
  rw [← h.number_decimal f]
  constructor
  · intro q hq
    rw [readDecimal_of_number hq] at hread
    exact minorUnits_spec hread
  · exact fun hnone => readDecimal_of_no_number hnone hread

theorem nonneg (h : Accepted value snapshot amounts) (f : MoneyField) :
    0 ≤ minor snapshot.moneyMinor f := by
  have hread := h.readDecimal_eq f
  cases hq : number? (value.get f.decimalName) with
  | none => exact (readDecimal_of_no_number hq hread).2.ge
  | some q =>
    rw [readDecimal_of_number hq] at hread
    exact minorUnits_nonneg hread

/-- A safe deal has been accepted under the versions of its snapshot. -/
theorem versions (h : Accepted value snapshot amounts) {acceptance : Acceptance}
    (ha : snapshot.acceptance = some acceptance) :
    snapshot.offerVersion = some acceptance.offerVersion ∧
      snapshot.cancellationPolicyVersion = some acceptance.cancellationPolicyVersion := by
  have hvalid := h.acceptance
  rw [ha] at hvalid
  obtain ⟨hoffer, hcancellation⟩ := acceptance_of_valid hvalid
  have hread := h.offerVersion
  have hread' := h.cancellationPolicyVersion
  rw [isNullableVersion_of_nonEmpty hoffer] at hread
  rw [isNullableVersion_of_nonEmpty hcancellation] at hread'
  exact ⟨(Option.some.inj hread).symm, (Option.some.inj hread').symm⟩

end Accepted

variable {binding : TermsBinding}

/-- What a bound snapshot is bound to. -/
theorem bound_of_read {json : JsonValue}
    (h : readBoundBookingTermsSnapshot json binding = some snapshot) :
    readBookingTermsSnapshot json = some snapshot ∧ snapshot.lenderId = binding.lenderId ∧
      snapshot.days = binding.days ∧
      (∀ acceptance, snapshot.acceptance = some acceptance →
        acceptance.actorId = binding.borrowerId) ∧
      Sosedi.minorUnits binding.totalAmount = some snapshot.moneyMinor.total := by
  obtain ⟨read, hread, h⟩ := Option.bind_eq_some_iff.mp h
  obtain ⟨hbound, h⟩ := Option.ite_none_right_eq_some.mp h
  cases h
  simp only [Bool.and_eq_true, beq_iff_eq] at hbound
  obtain ⟨⟨⟨hlender, hdays⟩, hactor⟩, htotal⟩ := hbound
  refine ⟨hread, hlender, hdays, fun acceptance ha => ?_, htotal.symm⟩
  rw [ha] at hactor
  exact beq_iff_eq.mp hactor

/-- **An accepted snapshot is sound.** -/
theorem sound_of_read
    (h : readBoundBookingTermsSnapshot (.object value) binding = some snapshot) :
    Sound snapshot binding := by
  obtain ⟨hread, hlender, hdays, hactor, htotal⟩ := bound_of_read h
  obtain ⟨amounts, haccepted⟩ := accepted_of_read hread
  obtain ⟨-, hsubtotal, hsplit, htotals, -, hoffline, hsafe⟩ :=
    validAmounts_iff.mp haccepted.valid
  refine ⟨hsubtotal, hsplit, htotals, ⟨htotal, hdays, hlender⟩, ⟨haccepted.days.2,
    haccepted.nonneg⟩, haccepted.rounds, fun hscenario => ⟨(hsafe hscenario).symm, ?_⟩,
    fun hscenario => ?_⟩
  · have hsome := haccepted.accepted.resolve_left (by rw [hscenario]; decide)
    obtain ⟨acceptance, ha⟩ := Option.isSome_iff_exists.mp hsome
    exact ⟨acceptance, ha, hactor acceptance ha, haccepted.versions ha⟩
  · obtain ⟨hdeposit, hfee, -, hterms⟩ := hoffline hscenario
    exact ⟨hdeposit, hfee, by simpa using hterms⟩

/-! ## Changed amounts -/

/-- Another value for a field that is there. -/
def replaceField (value : JsonObject) (name : String) (new : JsonValue) : JsonObject :=
  value.map fun field => if field.1 = name then (name, new) else field

theorem get_replaceField {name other : String} {new : JsonValue} :
    JsonObject.get (replaceField value name new) other =
      if other = name then (value.get name).map fun _ => new else value.get other := by
  unfold JsonObject.get replaceField
  induction value with
  | nil => simp
  | cons field rest ih =>
    obtain ⟨key, old⟩ := field
    by_cases hkey : key = name
    · subst hkey
      by_cases hother : other = key
      · simp [hother]
      · have hne : (other == key) = false := by simpa using hother
        simpa [List.lookup_cons, hother, hne] using ih
    · by_cases hother : other = key
      · subst hother
        simp [hkey]
      · have hne : (other == key) = false := by simpa using hother
        have hname : (name == key) = false := by simpa using fun h => hkey h.symm
        simpa [List.lookup_cons, hkey, hne, hname] using ih

theorem get_replaceField_of_ne {name other : String} {new : JsonValue} (h : other ≠ name) :
    JsonObject.get (replaceField value name new) other = value.get other := by
  rw [get_replaceField, if_neg h]

/-- One amount is replaced by another number of whole kopecks, in rubles or in the money table. -/
inductive Tampered (value : JsonObject) : JsonObject → Prop where
  | decimal {f : MoneyField} {old new : Int} (hold : readDecimal value f = some old)
      (hnew : 0 ≤ new) (hne : new ≠ old) :
      Tampered value (replaceField value f.decimalName (.number (new / 100)))
  | minor {f : MoneyField} {money : JsonObject} {old new : Int}
      (htable : value.get "moneyMinor" = some (.object money))
      (hold : safeMinor (money.get f.minorName) = some old) (hnew : 0 ≤ new) (hne : new ≠ old) :
      Tampered value (replaceField value "moneyMinor"
        (.object (replaceField money f.minorName (.number new))))

/-- An offline snapshot with an amount in a money table. -/
def OfflineTable (value : JsonObject) : Prop :=
  readScenario (value.get "paymentScenario") = some .payOnHandover ∧
    ∃ money : JsonObject, value.get "moneyMinor" = some (.object money) ∧
      ∃ f : MoneyField, (safeMinor (money.get f.minorName)).isSome

/-- Whole kopecks are read as they are. -/
theorem minorUnits_kopecks {n k : Int} (h : Sosedi.minorUnits (n / 100) = some k) : k = n := by
  obtain ⟨-, hclose⟩ := minorUnits_spec h
  rw [div_mul_cancel₀ (n : ℚ) (by norm_num)] at hclose
  have hcast : |((n - k : Int) : ℚ)| < 1 := by
    push_cast
    linarith
  have hzero : |n - k| < 1 := by exact_mod_cast hcast
  rw [Int.abs_lt_one_iff] at hzero
  omega

theorem decimalName_mem (f : MoneyField) : f.decimalName ∉ ["paymentScenario", "moneyMinor",
    "days", "depositTerms"] := by
  cases f <;> decide

/-- Offline amounts determine each other. -/
theorem minor_of_offline {days : Int} {terms terms' : Bool} {money money' : BookingMoneyMinor}
    (hdays : 1 ≤ days)
    (h : validAmounts .payOnHandover days terms money money = true)
    (h' : validAmounts .payOnHandover days terms' money' money' = true) {f : MoneyField}
    (hsame : ∀ g, g ≠ f → minor money' g = minor money g) : minor money' f = minor money f := by
  obtain ⟨-, hsubtotal, hsplit, htotal, -, hoffline, -⟩ := validAmounts_iff.mp h
  obtain ⟨-, hsubtotal', hsplit', htotal', -, hoffline', -⟩ := validAmounts_iff.mp h'
  obtain ⟨hdeposit, hfee, hpayout, -⟩ := hoffline rfl
  obtain ⟨hdeposit', hfee', hpayout', -⟩ := hoffline' rfl
  have hprice := hsame .pricePerDay
  have hrental := hsame .rentalSubtotal
  have hpaid := hsame .ownerPayout
  have hsum := hsame .total
  simp only [minor] at hprice hrental hpaid hsum
  cases f with
  | pricePerDay =>
    have heq : money'.pricePerDay * days = money.pricePerDay * days := by
      rw [← hsubtotal, ← hsubtotal', hrental (by decide)]
    exact Int.eq_of_mul_eq_mul_right (by omega) heq
  | rentalSubtotal =>
    have heq := hpaid (by decide)
    simp only [minor]
    omega
  | deposit => exact hdeposit'.trans hdeposit.symm
  | platformFee => exact hfee'.trans hfee.symm
  | ownerPayout =>
    have heq := hrental (by decide)
    simp only [minor]
    omega
  | total =>
    have heq := hrental (by decide)
    simp only [minor]
    omega

section Tampering

variable {value' : JsonObject} {snapshot' : BookingTermsSnapshot} {amounts' : BookingMoneyMinor}

/-- Fields other than the money table that stay decide the same. -/
theorem Accepted.same (h : Accepted value snapshot amounts)
    (h' : Accepted value' snapshot' amounts')
    (hscenario : value'.get "paymentScenario" = value.get "paymentScenario")
    (hdays : value'.get "days" = value.get "days") :
    snapshot'.paymentScenario = snapshot.paymentScenario ∧ snapshot'.days = snapshot.days := by
  have hread := h'.scenario
  have hread' := h'.days.1
  rw [hscenario, h.scenario] at hread
  rw [hdays, h.days.1] at hread'
  exact ⟨(Option.some.inj hread).symm, (Option.some.inj hread').symm⟩

/-- A changed amount in rubles is rejected. -/
theorem rejected_of_decimal (h : Accepted value snapshot amounts) {f : MoneyField} {old new : Int}
    (hold : readDecimal value f = some old) (hne : new ≠ old)
    (h' : Accepted (replaceField value f.decimalName (.number (new / 100))) snapshot' amounts') :
    False := by
  have hname := decimalName_mem f
  simp only [List.mem_cons, List.not_mem_nil, or_false, not_or] at hname
  obtain ⟨hscenario, hdays⟩ := h.same h' (get_replaceField_of_ne (Ne.symm hname.1))
    (get_replaceField_of_ne (Ne.symm hname.2.2.1))
  have hchanged : minor snapshot'.moneyMinor f = new := by
    obtain ⟨field, hfield⟩ := exists_of_readDecimal hold
    have hnumber : number? (JsonObject.get (replaceField value f.decimalName
        (.number (new / 100))) f.decimalName) = some ((new : ℚ) / 100) := by
      rw [get_replaceField, if_pos rfl, hfield]
      rfl
    have hread := h'.readDecimal_eq f
    rw [readDecimal_of_number hnumber] at hread
    exact minorUnits_kopecks hread
  have hkept (g : MoneyField) (hg : g ≠ f) :
      minor snapshot'.moneyMinor g = minor snapshot.moneyMinor g := by
    have hget : JsonObject.get (replaceField value f.decimalName (.number (new / 100)))
        g.decimalName = value.get g.decimalName :=
      get_replaceField_of_ne fun heq => hg (decimalName_injective heq)
    have hread := h'.readDecimal_eq g
    have hsame : readDecimal (replaceField value f.decimalName (.number (new / 100))) g =
        readDecimal value g := by
      cases g with
      | deposit => exact congrArg depositMinorUnits hget
      | _ => exact congrArg minorUnits hget
    rw [hsame, h.readDecimal_eq g] at hread
    exact (Option.some.inj hread).symm
  have hdiffers : minor snapshot'.moneyMinor f ≠ minor snapshot.moneyMinor f := by
    rw [hchanged, ← Option.some.inj (hold.symm.trans (h.readDecimal_eq f))]
    exact hne
  have hmoney := h.money
  have hmoney' := h'.money
  rw [readMoney, get_replaceField_of_ne (Ne.symm hname.2.1), hscenario] at hmoney'
  rw [readMoney] at hmoney
  cases hsupplied : (isJsonRecord (value.get "moneyMinor")).bind readMoneyMinor with
  | some table =>
    rw [hsupplied, Option.some_or] at hmoney hmoney'
    rw [hmoney, Option.some.injEq] at hmoney'
    exact hdiffers (by rw [hmoney'])
  | none =>
    rw [hsupplied, Option.none_or] at hmoney
    obtain ⟨hoffline, -⟩ := Option.ite_none_right_eq_some.mp hmoney
    have hvalid := h.valid
    have hvalid' := h'.valid
    rw [h.amounts_eq, hoffline] at hvalid
    rw [h'.amounts_eq, hscenario, hdays, hoffline] at hvalid'
    exact hdiffers (minor_of_offline h.days.2 hvalid hvalid' hkept)

/-- A changed amount of the table of a safe deal is rejected. -/
theorem rejected_of_minor (h : Accepted value snapshot amounts)
    (hsafe : snapshot.paymentScenario ≠ .payOnHandover) {f : MoneyField} {money : JsonObject}
    {old new : Int} (htable : value.get "moneyMinor" = some (.object money))
    (hold : safeMinor (money.get f.minorName) = some old) (hne : new ≠ old)
    (h' : Accepted (replaceField value "moneyMinor"
      (.object (replaceField money f.minorName (.number new)))) snapshot' amounts') : False := by
  obtain ⟨hscenario, -⟩ := h.same h' (get_replaceField_of_ne (by decide))
    (get_replaceField_of_ne (by decide))
  have hmoney := h.money
  have hmoney' := h'.money
  rw [readMoney, htable, if_neg hsafe, Option.or_none] at hmoney
  rw [readMoney, get_replaceField, if_pos rfl, htable, hscenario, if_neg hsafe, Option.or_none]
    at hmoney'
  have hfield := readMoneyMinor_eq_some.mp hmoney f
  have hfield' := readMoneyMinor_eq_some.mp hmoney' f
  rw [hold] at hfield
  have hnumber : JsonObject.get (replaceField money f.minorName (.number new)) f.minorName =
      some (.number new) := by
    rw [get_replaceField, if_pos rfl]
    cases hget : money.get f.minorName with
    | none =>
      rw [hget] at hold
      cases hold
    | some field => rfl
  rw [hnumber, safeMinor, integer?_number] at hfield'
  have hnew := (Option.filter_eq_some_iff.mp hfield').1
  have hsame : minor snapshot'.moneyMinor f = minor snapshot.moneyMinor f := by
    have hget (name : String) (hname : name ≠ "moneyMinor") :
        JsonObject.get (replaceField value "moneyMinor"
          (.object (replaceField money f.minorName (.number new)))) name = value.get name :=
      get_replaceField_of_ne hname
    have hread := h'.readDecimal_eq f
    have hdecimal : readDecimal (replaceField value "moneyMinor"
        (.object (replaceField money f.minorName (.number new)))) f = readDecimal value f := by
      cases f with
      | deposit => exact congrArg depositMinorUnits (hget _ (by decide))
      | _ => exact congrArg minorUnits (hget _ (by decide))
    rw [hdecimal, h.readDecimal_eq f] at hread
    exact (Option.some.inj hread).symm
  refine hne ?_
  rw [Option.some.inj hfield, Option.some.inj hnew, hsame]

/-- The money table decides only through `readMoney`. -/
theorem read_congr (hget : ∀ name, name ≠ "moneyMinor" → value'.get name = value.get name)
    (hmoney : ∀ scenario amounts, readScenario (value.get "paymentScenario") = some scenario →
      readAmounts value = some amounts →
      readMoney value' scenario amounts = readMoney value scenario amounts) :
    readBookingTermsSnapshot (.object value') = readBookingTermsSnapshot (.object value) := by
  have hamounts : readAmounts value' = readAmounts value := by
    simp only [readAmounts, hget "pricePerDay" (by decide), hget "rentalSubtotal" (by decide),
      hget "depositAmount" (by decide), hget "platformFee" (by decide),
      hget "ownerPayout" (by decide), hget "total" (by decide)]
  change (isJsonRecord (value'.get "handover")).bind _ =
    (isJsonRecord (value.get "handover")).bind _
  rw [hget "handover" (by decide)]
  refine Option.bind_congr fun handover _ => ?_
  change (readAmounts value').bind _ = (readAmounts value).bind _
  rw [hamounts]
  refine Option.bind_congr fun amounts ha => ?_
  change (readScenario (value'.get "paymentScenario")).bind _ =
    (readScenario (value.get "paymentScenario")).bind _
  rw [hget "paymentScenario" (by decide)]
  refine Option.bind_congr fun scenario hs => ?_
  change (readMoney value' scenario amounts).bind _ = (readMoney value scenario amounts).bind _
  rw [hmoney scenario amounts hs ha]
  refine Option.bind_congr fun money _ => ?_
  simp only [hget "depositTerms" (by decide), hget "itemTitle" (by decide),
    hget "lenderId" (by decide), hget "lenderDisplayName" (by decide), hget "days" (by decide),
    hget "listingVersion" (by decide), hget "offerVersion" (by decide),
    hget "cancellationPolicyVersion" (by decide), hget "acceptance" (by decide),
    hget "pricePerDay" (by decide), hget "rentalSubtotal" (by decide),
    hget "platformFee" (by decide), hget "ownerPayout" (by decide), hget "total" (by decide),
    hget "currency" (by decide), hget "depositAmount" (by decide)]

/-- A table with an unsafe amount counts as absent, so an offline snapshot is read as before. -/
theorem read_of_offlineTable (h : Accepted value snapshot amounts) (htable : OfflineTable value) :
    ∃ value', Tampered value value' ∧
      readBookingTermsSnapshot (.object value') = readBookingTermsSnapshot (.object value) := by
  obtain ⟨hscenario, money, hmoney, f, hf⟩ := htable
  obtain ⟨old, hold⟩ := Option.isSome_iff_exists.mp hf
  have hsafe : Sosedi.safeMinor old = true := (Option.filter_eq_some_iff.mp hold).2
  have hne : maxSafeInteger + 1 ≠ old := by
    simp only [Sosedi.safeMinor, isSafeInteger, Bool.and_eq_true, decide_eq_true_eq] at hsafe
    omega
  refine ⟨_, .minor hmoney hold (by decide) hne, read_congr (fun name hname =>
    get_replaceField_of_ne hname) fun scenario read hs hr => ?_⟩
  obtain rfl : scenario = .payOnHandover := Option.some.inj (hs.symm.trans hscenario)
  obtain rfl : read = amounts := Option.some.inj (hr.symm.trans h.read)
  have hsnapshot := Option.some.inj (hscenario.symm.trans h.scenario)
  have hkept := h.money
  rw [← hsnapshot] at hkept
  rw [hkept, ← h.amounts_eq, readMoney, get_replaceField, if_pos rfl, hmoney]
  have hunread : readMoneyMinor (replaceField money f.minorName
      (.number ((maxSafeInteger + 1 : Int) : ℚ))) = none := by
    rw [Option.eq_none_iff_forall_ne_some]
    intro table hread
    have hfield := readMoneyMinor_eq_some.mp hread f
    rw [get_replaceField, if_pos rfl] at hfield
    cases hget : money.get f.minorName with
    | none =>
      rw [hget] at hold
      cases hold
    | some field =>
      rw [hget, Option.map_some, safeMinor, integer?_number] at hfield
      cases hfield
  simp only [Option.map_some, isJsonRecord, Option.bind_some, hunread, Option.none_or, if_true]

end Tampering

/-- Every changed amount is rejected. -/
def TamperProof (value : JsonObject) (binding : TermsBinding) : Prop :=
  ∀ value', Tampered value value' → readBoundBookingTermsSnapshot (.object value') binding = none

namespace OfflineSnapshot

/-- An offline snapshot of three days for 300 rubles, with a table that lacks all but one amount. -/
def stored (pricePerDayMinor : Int) : JsonObject :=
  [("itemTitle", .string "Дрель"), ("lenderId", .string "lender"), ("lenderDisplayName", .null),
    ("pricePerDay", .number 100), ("days", .number 3), ("rentalSubtotal", .number 300),
    ("depositAmount", .null), ("platformFee", .number 0), ("ownerPayout", .number 300),
    ("total", .number 300), ("currency", .string "RUB"),
    ("paymentScenario", .string "PAY_ON_HANDOVER"),
    ("moneyMinor", .object [("pricePerDay", .number pricePerDayMinor)]),
    ("handover", .object [("area", .string "Центр"), ("address", .string "Улица, 1"),
      ("latitude", .number 55), ("longitude", .number 37)]),
    ("listingVersion", .string "v1"), ("offerVersion", .null),
    ("cancellationPolicyVersion", .null), ("acceptance", .null)]

def booking : TermsBinding := ⟨"borrower", "lender", 3, 300⟩

end OfflineSnapshot

end SnapshotJson

end Sosedi
