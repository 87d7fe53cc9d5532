import Sosedi.Domain.Timestamps
import Sosedi.Services.BookingService

/-!
# The terms snapshot as JSON

`create` stores the terms of a booking in a JSON column.  Here is the record of the source, with
its texts, what is written of it, and the reader with all its checks.

Proved here:

* `readBookingTermsSnapshot_toSnapshotJson`: what is well formed is read back as it was written.
-/

namespace Sosedi

/-- A number stands for its exact value. -/
inductive JsonValue where
  | null
  | bool (value : Bool)
  | number (value : ℚ)
  | string (value : String)
  | array (values : List JsonValue)
  | object (fields : List (String × JsonValue))

abbrev JsonObject := List (String × JsonValue)

/-- A missing field is `undefined`. -/
def JsonObject.get (value : JsonObject) (name : String) : Option JsonValue := value.lookup name

def PaymentScenario.text : PaymentScenario → String
  | payOnHandover => "PAY_ON_HANDOVER"
  | fakeSafeDeal => "FAKE_SAFE_DEAL"

namespace SnapshotJson

/-- `method` is always `BOOKING_SUBMIT_CHECKBOX`. -/
structure Acceptance where
  actorId : String
  acceptedAt : String
  offerVersion : String
  cancellationPolicyVersion : String
  deriving DecidableEq

/-- `currency` is always `RUB`. -/
structure BookingTermsSnapshot where
  itemTitle : String
  lenderId : String
  lenderDisplayName : Option String
  pricePerDay : ℚ
  days : Int
  rentalSubtotal : ℚ
  depositAmount : Option ℚ
  platformFee : ℚ
  ownerPayout : ℚ
  total : ℚ
  paymentScenario : PaymentScenario
  moneyMinor : BookingMoneyMinor
  depositTerms : Option DepositTerms
  handover : Handover
  listingVersion : String
  offerVersion : Option String
  cancellationPolicyVersion : Option String
  acceptance : Option Acceptance
  deriving DecidableEq

/-! ## Writing -/

def nullable {α : Type} (f : α → JsonValue) : Option α → JsonValue
  | some a => f a
  | none => .null

def moneyJson (money : BookingMoneyMinor) : JsonValue :=
  .object
    [("pricePerDay", .number money.pricePerDay), ("rentalSubtotal", .number money.rentalSubtotal),
      ("deposit", .number money.deposit), ("platformFee", .number money.platformFee),
      ("ownerPayout", .number money.ownerPayout), ("total", .number money.total)]

def depositTermsJson (terms : DepositTerms) : JsonValue :=
  .object [("policyVersion", .string terms.policyVersion),
    ("disputeWindowSeconds", .number terms.disputeWindowSeconds)]

def handoverJson (handover : Handover) : JsonValue :=
  .object [("area", .string handover.area), ("address", .string handover.address),
    ("latitude", .number handover.latitude), ("longitude", .number handover.longitude)]

def acceptanceJson (acceptance : Acceptance) : JsonValue :=
  .object [("actorId", .string acceptance.actorId), ("acceptedAt", .string acceptance.acceptedAt),
    ("method", .string "BOOKING_SUBMIT_CHECKBOX"),
    ("offerVersion", .string acceptance.offerVersion),
    ("cancellationPolicyVersion", .string acceptance.cancellationPolicyVersion)]

def snapshotFields (snapshot : BookingTermsSnapshot) : JsonObject :=
  [("itemTitle", .string snapshot.itemTitle), ("lenderId", .string snapshot.lenderId),
    ("lenderDisplayName", nullable .string snapshot.lenderDisplayName),
    ("pricePerDay", .number snapshot.pricePerDay), ("days", .number snapshot.days),
    ("rentalSubtotal", .number snapshot.rentalSubtotal),
    ("depositAmount", nullable .number snapshot.depositAmount),
    ("platformFee", .number snapshot.platformFee),
    ("ownerPayout", .number snapshot.ownerPayout), ("total", .number snapshot.total),
    ("currency", .string "RUB"), ("paymentScenario", .string snapshot.paymentScenario.text),
    ("moneyMinor", moneyJson snapshot.moneyMinor),
    ("depositTerms", nullable depositTermsJson snapshot.depositTerms),
    ("handover", handoverJson snapshot.handover),
    ("listingVersion", .string snapshot.listingVersion),
    ("offerVersion", nullable .string snapshot.offerVersion),
    ("cancellationPolicyVersion", nullable .string snapshot.cancellationPolicyVersion),
    ("acceptance", nullable acceptanceJson snapshot.acceptance)]

def toSnapshotJson (snapshot : BookingTermsSnapshot) : JsonValue :=
  .object (snapshotFields snapshot)

/-! ## Reading -/

def isJsonRecord : Option JsonValue → Option JsonObject
  | some (.object fields) => some fields
  | _ => none

def number? : Option JsonValue → Option ℚ
  | some (.number value) => some value
  | _ => none

def string? : Option JsonValue → Option String
  | some (.string value) => some value
  | _ => none

def isNull : Option JsonValue → Bool
  | some .null => true
  | _ => false

def isNonEmptyString (value : Option JsonValue) : Option String :=
  (string? value).filter Sosedi.isNonEmptyString

def isNullableString (value : Option JsonValue) : Option (Option String) :=
  if isNull value then some none else (string? value).map some

def isNullableVersion (value : Option JsonValue) : Option (Option String) :=
  if isNull value then some none else (isNonEmptyString value).map some

/-- `Number.isInteger`. -/
def integer? (value : Option JsonValue) : Option Int :=
  (number? value).bind fun value => if value.isInt then some value.num else none

def minorUnits (value : Option JsonValue) : Option Int :=
  (number? value).bind Sosedi.minorUnits

def safeMinor (value : Option JsonValue) : Option Int :=
  (integer? value).filter Sosedi.safeMinor

def isPositiveSafeInteger (value : Option JsonValue) : Option Int :=
  (integer? value).filter fun value => isSafeInteger value && 0 < value

def isCoordinate (value : Option JsonValue) (min max : ℚ) : Option ℚ :=
  (number? value).filter (Sosedi.isCoordinate · min max)

/-- Only the format of `toISOString` passes. -/
def isIsoTimestamp (value : Option JsonValue) : Bool :=
  match string? value with
  | some text =>
    match dateParse text with
    | some timestamp => isValidTime timestamp && toISOString timestamp == text
    | none => false
  | none => false

def readMoneyMinor (value : JsonObject) : Option BookingMoneyMinor := do
  let pricePerDay ← safeMinor (value.get "pricePerDay")
  let rentalSubtotal ← safeMinor (value.get "rentalSubtotal")
  let deposit ← safeMinor (value.get "deposit")
  let platformFee ← safeMinor (value.get "platformFee")
  let ownerPayout ← safeMinor (value.get "ownerPayout")
  let total ← safeMinor (value.get "total")
  pure { pricePerDay, rentalSubtotal, deposit, platformFee, ownerPayout, total }

/-- `none` is `undefined`. -/
def readDepositTerms (value : Option JsonValue) : Option (Option DepositTerms) :=
  if isNull value then some none
  else do
    let value ← isJsonRecord value
    let policyVersion ← isNonEmptyString (value.get "policyVersion")
    let disputeWindowSeconds ← isPositiveSafeInteger (value.get "disputeWindowSeconds")
    pure (some { policyVersion, disputeWindowSeconds })

/-- An offline snapshot may lack the field. -/
def readSuppliedTerms (paymentScenario : PaymentScenario) (value : Option JsonValue) :
    Option (Option DepositTerms) :=
  if value.isNone && paymentScenario = .payOnHandover then some none else readDepositTerms value

def readScenario (value : Option JsonValue) : Option PaymentScenario :=
  match string? value with
  | some "PAY_ON_HANDOVER" => some .payOnHandover
  | some "FAKE_SAFE_DEAL" => some .fakeSafeDeal
  | _ => none

/-- The acceptance that is returned, where there is a valid one; `none` where it is not valid. -/
def validAcceptance (acceptance : Option JsonObject)
    (offerVersion cancellationPolicyVersion : Option JsonValue) : Option (Option Acceptance) :=
  if isNull offerVersion && isNull cancellationPolicyVersion then
    if acceptance.isNone then some none else none
  else do
    let offerVersion ← isNonEmptyString offerVersion
    let cancellationPolicyVersion ← isNonEmptyString cancellationPolicyVersion
    let acceptance ← acceptance
    let actorId ← isNonEmptyString (acceptance.get "actorId")
    let acceptedAt ← string? (acceptance.get "acceptedAt")
    if isIsoTimestamp (acceptance.get "acceptedAt") &&
        string? (acceptance.get "method") == some "BOOKING_SUBMIT_CHECKBOX" &&
        string? (acceptance.get "offerVersion") == some offerVersion &&
        string? (acceptance.get "cancellationPolicyVersion") == some cancellationPolicyVersion then
      some (some { actorId, acceptedAt, offerVersion, cancellationPolicyVersion })
    else none

/-- The equations between the amounts of a snapshot. -/
def validAmounts (paymentScenario : PaymentScenario) (days : Int) (hasDepositTerms : Bool)
    (amounts moneyMinor : BookingMoneyMinor) : Bool :=
  isSafeInteger (moneyMinor.pricePerDay * days) &&
    moneyMinor.rentalSubtotal == moneyMinor.pricePerDay * days &&
    moneyMinor.ownerPayout + moneyMinor.platformFee == moneyMinor.rentalSubtotal &&
    moneyMinor.total == moneyMinor.rentalSubtotal + moneyMinor.deposit &&
    amounts == moneyMinor &&
    (if paymentScenario = .payOnHandover then
      moneyMinor.deposit == 0 && moneyMinor.platformFee == 0 &&
        moneyMinor.ownerPayout == moneyMinor.rentalSubtotal && !hasDepositTerms
    else (moneyMinor.deposit > 0 : Bool) == hasDepositTerms)

def depositMinorUnits (value : Option JsonValue) : Option Int :=
  if isNull value then some 0 else minorUnits value

/-- The amounts in rubles, in minor units. -/
def readAmounts (value : JsonObject) : Option BookingMoneyMinor := do
  let pricePerDay ← minorUnits (value.get "pricePerDay")
  let rentalSubtotal ← minorUnits (value.get "rentalSubtotal")
  let deposit ← depositMinorUnits (value.get "depositAmount")
  let platformFee ← minorUnits (value.get "platformFee")
  let ownerPayout ← minorUnits (value.get "ownerPayout")
  let total ← minorUnits (value.get "total")
  pure { pricePerDay, rentalSubtotal, deposit, platformFee, ownerPayout, total }

/-- The money table, which an offline snapshot may lack. -/
def readMoney (value : JsonObject) (paymentScenario : PaymentScenario)
    (amounts : BookingMoneyMinor) : Option BookingMoneyMinor :=
  ((isJsonRecord (value.get "moneyMinor")).bind readMoneyMinor).or
    (if paymentScenario = .payOnHandover then some amounts else none)

def readHandover (handover : JsonObject) : Option Handover := do
  let area ← isNonEmptyString (handover.get "area")
  let address ← isNonEmptyString (handover.get "address")
  let latitude ← isCoordinate (handover.get "latitude") (-90) 90
  let longitude ← isCoordinate (handover.get "longitude") (-180) 180
  pure { area, address, latitude, longitude }

def readBookingTermsSnapshot (value : JsonValue) : Option BookingTermsSnapshot := do
  let value ← isJsonRecord (some value)
  let handover ← isJsonRecord (value.get "handover")
  let amounts ← readAmounts value
  let paymentScenario ← readScenario (value.get "paymentScenario")
  let moneyMinor ← readMoney value paymentScenario amounts
  let depositTerms ← readSuppliedTerms paymentScenario (value.get "depositTerms")
  let itemTitle ← isNonEmptyString (value.get "itemTitle")
  let lenderId ← isNonEmptyString (value.get "lenderId")
  let lenderDisplayName ← isNullableString (value.get "lenderDisplayName")
  let days ← (integer? (value.get "days")).filter (1 ≤ ·)
  let handover ← readHandover handover
  let listingVersion ← isNonEmptyString (value.get "listingVersion")
  let offerVersion ← isNullableVersion (value.get "offerVersion")
  let cancellationPolicyVersion ← isNullableVersion (value.get "cancellationPolicyVersion")
  let acceptance ← validAcceptance (isJsonRecord (value.get "acceptance"))
    (value.get "offerVersion") (value.get "cancellationPolicyVersion")
  let pricePerDay ← number? (value.get "pricePerDay")
  let rentalSubtotal ← number? (value.get "rentalSubtotal")
  let platformFee ← number? (value.get "platformFee")
  let ownerPayout ← number? (value.get "ownerPayout")
  let total ← number? (value.get "total")
  if string? (value.get "currency") == some "RUB" &&
      (paymentScenario = .payOnHandover || acceptance.isSome) &&
      validAmounts paymentScenario days depositTerms.isSome amounts moneyMinor then
    some
      { itemTitle, lenderId, lenderDisplayName, pricePerDay, days, rentalSubtotal
        depositAmount := number? (value.get "depositAmount")
        platformFee, ownerPayout, total, paymentScenario, moneyMinor, depositTerms, handover
        listingVersion, offerVersion, cancellationPolicyVersion, acceptance }
  else none

/-- What a snapshot is bound to. -/
structure TermsBinding where
  borrowerId : String
  lenderId : String
  days : Int
  totalAmount : ℚ

def readBoundBookingTermsSnapshot (value : JsonValue) (binding : TermsBinding) :
    Option BookingTermsSnapshot := do
  let snapshot ← readBookingTermsSnapshot value
  if snapshot.lenderId == binding.lenderId && snapshot.days == binding.days &&
      snapshot.acceptance.all (·.actorId == binding.borrowerId) &&
      some snapshot.moneyMinor.total == Sosedi.minorUnits binding.totalAmount then
    some snapshot
  else none

/-! ## What is read back -/

/-- The amounts of a snapshot, in minor units. -/
def BookingTermsSnapshot.amounts (snapshot : BookingTermsSnapshot) : Option BookingMoneyMinor := do
  let pricePerDay ← Sosedi.minorUnits snapshot.pricePerDay
  let rentalSubtotal ← Sosedi.minorUnits snapshot.rentalSubtotal
  let deposit ← snapshot.depositAmount.elim (some 0) Sosedi.minorUnits
  let platformFee ← Sosedi.minorUnits snapshot.platformFee
  let ownerPayout ← Sosedi.minorUnits snapshot.ownerPayout
  let total ← Sosedi.minorUnits snapshot.total
  pure { pricePerDay, rentalSubtotal, deposit, platformFee, ownerPayout, total }

structure Acceptance.WellFormed (acceptance : Acceptance) : Prop where
  actorId : Sosedi.isNonEmptyString acceptance.actorId = true
  acceptedAt : isIsoTimestamp (some (.string acceptance.acceptedAt)) = true
  offerVersion : Sosedi.isNonEmptyString acceptance.offerVersion = true
  cancellationPolicyVersion :
    Sosedi.isNonEmptyString acceptance.cancellationPolicyVersion = true

structure BookingTermsSnapshot.WellFormed (snapshot : BookingTermsSnapshot) : Prop where
  itemTitle : Sosedi.isNonEmptyString snapshot.itemTitle = true
  lenderId : Sosedi.isNonEmptyString snapshot.lenderId = true
  days : 1 ≤ snapshot.days
  amounts : snapshot.amounts = some snapshot.moneyMinor
  moneyMinor : Sosedi.readMoneyMinor snapshot.moneyMinor = some snapshot.moneyMinor
  valid : validAmounts snapshot.paymentScenario snapshot.days snapshot.depositTerms.isSome
    snapshot.moneyMinor snapshot.moneyMinor = true
  depositTerms : validDepositTerms snapshot.depositTerms = true
  area : Sosedi.isNonEmptyString snapshot.handover.area = true
  address : Sosedi.isNonEmptyString snapshot.handover.address = true
  latitude : Sosedi.isCoordinate snapshot.handover.latitude (-90) 90 = true
  longitude : Sosedi.isCoordinate snapshot.handover.longitude (-180) 180 = true
  listingVersion : Sosedi.isNonEmptyString snapshot.listingVersion = true
  offerVersion : snapshot.offerVersion = snapshot.acceptance.map (·.offerVersion)
  cancellationPolicyVersion : snapshot.cancellationPolicyVersion =
    snapshot.acceptance.map (·.cancellationPolicyVersion)
  acceptance : ∀ acceptance ∈ snapshot.acceptance, acceptance.WellFormed
  accepted : snapshot.paymentScenario = .payOnHandover ∨ snapshot.acceptance.isSome = true

section RoundTrip

variable {snapshot : BookingTermsSnapshot}

@[simp] theorem isNonEmptyString_string (text : String) :
    isNonEmptyString (some (.string text)) =
      if Sosedi.isNonEmptyString text then some text else none := by
  simp [isNonEmptyString, string?, Option.filter]

@[simp] theorem integer?_number (n : Int) : integer? (some (.number n)) = some n := rfl

@[simp] theorem isNullableString_nullable (text : Option String) :
    isNullableString (some (nullable .string text)) = some text := by
  cases text <;> rfl

theorem isNullableVersion_nullable {version : Option String}
    (h : ∀ text ∈ version, Sosedi.isNonEmptyString text = true) :
    isNullableVersion (some (nullable .string version)) = some version := by
  cases version with
  | none => rfl
  | some text =>
    have htext := h text rfl
    simp [isNullableVersion, nullable, isNull, htext]

theorem readAmounts_snapshotFields :
    readAmounts (snapshotFields snapshot) = snapshot.amounts := by
  have hdeposit : depositMinorUnits ((snapshotFields snapshot).get "depositAmount") =
      snapshot.depositAmount.elim (some 0) Sosedi.minorUnits := by
    change depositMinorUnits (some (nullable .number snapshot.depositAmount)) = _
    cases snapshot.depositAmount <;> rfl
  rw [readAmounts, hdeposit]
  rfl

theorem readScenario_text (scenario : PaymentScenario) :
    readScenario (some (.string scenario.text)) = some scenario := by
  cases scenario <;> rfl

theorem readMoneyMinor_moneyJson {money : BookingMoneyMinor}
    (h : Sosedi.readMoneyMinor money = some money) :
    (isJsonRecord (some (moneyJson money))).bind readMoneyMinor = some money := by
  have hsafe {n : Int} (hn : Sosedi.safeMinor n = true) : safeMinor (some (.number n)) = some n := by
    simp [safeMinor, hn, Option.filter]
  unfold Sosedi.readMoneyMinor at h
  split at h
  · next hall =>
    simp only [Bool.and_eq_true] at hall
    obtain ⟨⟨⟨⟨⟨hprice, hrental⟩, hdeposit⟩, hfee⟩, hpayout⟩, htotal⟩ := hall
    change (do
      let pricePerDay ← safeMinor (some (.number money.pricePerDay))
      let rentalSubtotal ← safeMinor (some (.number money.rentalSubtotal))
      let deposit ← safeMinor (some (.number money.deposit))
      let platformFee ← safeMinor (some (.number money.platformFee))
      let ownerPayout ← safeMinor (some (.number money.ownerPayout))
      let total ← safeMinor (some (.number money.total))
      pure { pricePerDay, rentalSubtotal, deposit, platformFee, ownerPayout, total :
        BookingMoneyMinor }) = _
    rw [hsafe hprice, hsafe hrental, hsafe hdeposit, hsafe hfee, hsafe hpayout, hsafe htotal]
    rfl
  · cases h

theorem readSuppliedTerms_nullable {scenario : PaymentScenario} {terms : Option DepositTerms}
    (h : validDepositTerms terms = true) :
    readSuppliedTerms scenario (some (nullable depositTermsJson terms)) = some terms := by
  cases terms with
  | none => rfl
  | some terms =>
    simp only [validDepositTerms, Bool.and_eq_true, decide_eq_true_eq] at h
    obtain ⟨⟨hversion, hsafe⟩, hpos⟩ := h
    have hpolicy : isNonEmptyString (some (.string terms.policyVersion)) =
        some terms.policyVersion := by simp [hversion]
    have hwindow : isPositiveSafeInteger (some (.number terms.disputeWindowSeconds)) =
        some terms.disputeWindowSeconds := by
      simp [isPositiveSafeInteger, Option.filter, hsafe, hpos]
    change (do
      let policyVersion ← isNonEmptyString (some (.string terms.policyVersion))
      let disputeWindowSeconds ← isPositiveSafeInteger
        (some (.number terms.disputeWindowSeconds))
      pure (some { policyVersion, disputeWindowSeconds : DepositTerms })) = _
    rw [hpolicy, hwindow]
    rfl

theorem validAcceptance_nullable {acceptance : Option Acceptance}
    (h : ∀ a ∈ acceptance, a.WellFormed) :
    validAcceptance (isJsonRecord (some (nullable acceptanceJson acceptance)))
      (some (nullable .string (acceptance.map (·.offerVersion))))
      (some (nullable .string (acceptance.map (·.cancellationPolicyVersion)))) =
        some acceptance := by
  cases acceptance with
  | none => rfl
  | some a =>
    obtain ⟨hactor, htime, hoffer, hcancellation⟩ := h a rfl
    change (do
      let offerVersion ← isNonEmptyString (some (.string a.offerVersion))
      let cancellationPolicyVersion ←
        isNonEmptyString (some (.string a.cancellationPolicyVersion))
      let actorId ← isNonEmptyString (some (.string a.actorId))
      if isIsoTimestamp (some (.string a.acceptedAt)) &&
          some "BOOKING_SUBMIT_CHECKBOX" == some "BOOKING_SUBMIT_CHECKBOX" &&
          some a.offerVersion == some offerVersion &&
          some a.cancellationPolicyVersion == some cancellationPolicyVersion then
        some (some
          ({ actorId, acceptedAt := a.acceptedAt, offerVersion, cancellationPolicyVersion } :
            Acceptance))
      else none) = _
    simp [hactor, htime, hoffer, hcancellation]

theorem readHandover_handoverJson {handover : Handover}
    (harea : Sosedi.isNonEmptyString handover.area = true)
    (haddress : Sosedi.isNonEmptyString handover.address = true)
    (hlatitude : Sosedi.isCoordinate handover.latitude (-90) 90 = true)
    (hlongitude : Sosedi.isCoordinate handover.longitude (-180) 180 = true) :
    (isJsonRecord (some (handoverJson handover))).bind readHandover = some handover := by
  have hcoordinate {q min max : ℚ} (hq : Sosedi.isCoordinate q min max = true) :
      isCoordinate (some (.number q)) min max = some q := by
    simp [isCoordinate, number?, Option.filter, hq]
  change (do
    let area ← isNonEmptyString (some (.string handover.area))
    let address ← isNonEmptyString (some (.string handover.address))
    let latitude ← isCoordinate (some (.number handover.latitude)) (-90) 90
    let longitude ← isCoordinate (some (.number handover.longitude)) (-180) 180
    pure ({ area, address, latitude, longitude } : Handover)) = _
  rw [hcoordinate hlatitude, hcoordinate hlongitude]
  simp [harea, haddress]

/-- What is well formed is read back as it was written. -/
theorem readBookingTermsSnapshot_toSnapshotJson (h : snapshot.WellFormed) :
    readBookingTermsSnapshot (toSnapshotJson snapshot) = some snapshot := by
  have hversions (version : Option String)
      (hversion : ∃ f : Acceptance → String, version = snapshot.acceptance.map f ∧
        ∀ a ∈ snapshot.acceptance, Sosedi.isNonEmptyString (f a) = true) :
      isNullableVersion (some (nullable .string version)) = some version := by
    obtain ⟨f, rfl, hf⟩ := hversion
    refine isNullableVersion_nullable fun text htext => ?_
    obtain ⟨a, ha, rfl⟩ := Option.map_eq_some_iff.mp htext
    exact hf a ha
  have hoffer := hversions snapshot.offerVersion
    ⟨_, h.offerVersion, fun a ha => (h.acceptance a ha).offerVersion⟩
  have hcancellation := hversions snapshot.cancellationPolicyVersion
    ⟨_, h.cancellationPolicyVersion, fun a ha => (h.acceptance a ha).cancellationPolicyVersion⟩
  have hacceptance := validAcceptance_nullable h.acceptance
  rw [← h.offerVersion, ← h.cancellationPolicyVersion] at hacceptance
  have hmoney : readMoney (snapshotFields snapshot) snapshot.paymentScenario
      snapshot.moneyMinor = some snapshot.moneyMinor := by
    rw [readMoney, show (snapshotFields snapshot).get "moneyMinor" =
      some (moneyJson snapshot.moneyMinor) from rfl, readMoneyMinor_moneyJson h.moneyMinor]
    rfl
  have hamounts : readAmounts (snapshotFields snapshot) = some snapshot.moneyMinor :=
    readAmounts_snapshotFields.trans h.amounts
  obtain ⟨fields, hfields, hhandover⟩ := Option.bind_eq_some_iff.mp
    (readHandover_handoverJson h.area h.address h.latitude h.longitude)
  have hdeposit : number? (some (nullable .number snapshot.depositAmount)) =
      snapshot.depositAmount := by
    cases snapshot.depositAmount <;> rfl
  have haccepted : (decide (snapshot.paymentScenario = .payOnHandover) ||
      snapshot.acceptance.isSome) = true := by simpa using h.accepted
  change (do
    let handover ← isJsonRecord (some (handoverJson snapshot.handover))
    let amounts ← readAmounts (snapshotFields snapshot)
    let paymentScenario ← readScenario (some (.string snapshot.paymentScenario.text))
    let moneyMinor ← readMoney (snapshotFields snapshot) paymentScenario amounts
    let depositTerms ← readSuppliedTerms paymentScenario
      (some (nullable depositTermsJson snapshot.depositTerms))
    let itemTitle ← isNonEmptyString (some (.string snapshot.itemTitle))
    let lenderId ← isNonEmptyString (some (.string snapshot.lenderId))
    let lenderDisplayName ← isNullableString (some (nullable .string snapshot.lenderDisplayName))
    let days ← (integer? (some (.number snapshot.days))).filter (1 ≤ ·)
    let handover ← readHandover handover
    let listingVersion ← isNonEmptyString (some (.string snapshot.listingVersion))
    let offerVersion ← isNullableVersion (some (nullable .string snapshot.offerVersion))
    let cancellationPolicyVersion ←
      isNullableVersion (some (nullable .string snapshot.cancellationPolicyVersion))
    let acceptance ← validAcceptance
      (isJsonRecord (some (nullable acceptanceJson snapshot.acceptance)))
      (some (nullable .string snapshot.offerVersion))
      (some (nullable .string snapshot.cancellationPolicyVersion))
    if some "RUB" == some "RUB" &&
        (paymentScenario = .payOnHandover || acceptance.isSome) &&
        validAmounts paymentScenario days depositTerms.isSome amounts moneyMinor then
      some
        ({ itemTitle, lenderId, lenderDisplayName, pricePerDay := snapshot.pricePerDay, days
           rentalSubtotal := snapshot.rentalSubtotal
           depositAmount := number? (some (nullable .number snapshot.depositAmount))
           platformFee := snapshot.platformFee, ownerPayout := snapshot.ownerPayout
           total := snapshot.total, paymentScenario, moneyMinor, depositTerms, handover
           listingVersion, offerVersion, cancellationPolicyVersion, acceptance } :
          BookingTermsSnapshot)
    else none) = some snapshot
  simp only [hfields, hamounts, readScenario_text, hmoney,
    readSuppliedTerms_nullable h.depositTerms, isNonEmptyString_string, h.itemTitle, h.lenderId,
    h.listingVersion, if_true, isNullableString_nullable, integer?_number, hhandover, hoffer,
    hcancellation, hacceptance, hdeposit, haccepted, h.valid, Option.bind_eq_bind,
    Option.bind_some, Option.filter_some, decide_eq_true h.days, beq_self_eq_true, Bool.and_self]

end RoundTrip

end SnapshotJson

end Sosedi
