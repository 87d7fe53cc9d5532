import Mathlib.Tactic.Linarith
import Sosedi.Bookings.SnapshotJson
import Sosedi.Scripts
import Sosedi.Transactions.Behaviours

/-!
# Every snapshot that is created can be read

Proved here:

* `MarketplacePolicy.parsed_of_parse`: what the configuration guarantees of the policy;
* `readsBack_draft`: the snapshot that `create` computes is read back from its JSON, against the
  booking, as it was written;
* `create_readsBack`: so is the snapshot of every booking that `create` commits.
-/

namespace Sosedi

open Transactions

/-! ## Texts -/

/-- A text with something other than white space in it. -/
theorem isNonEmptyString_of_mem {text : String} {c : Char} (hc : c ∈ text.toList)
    (hw : isWhiteSpace c = false) : isNonEmptyString text = true := by
  have hdrop {l : List Char} (hl : c ∈ l) : c ∈ l.dropWhile isWhiteSpace := by
    induction l with
    | nil => cases hl
    | cons a l ih =>
      rcases List.mem_cons.mp hl with rfl | hl
      · simp [hw]
      · rw [List.dropWhile_cons]
        split
        · exact ih hl
        · exact List.mem_cons_of_mem _ hl
  have hmem : c ∈ (trim text).toList := by
    rw [trim, String.toList_ofList]
    exact List.mem_reverse.mpr (hdrop (List.mem_reverse.mpr (hdrop hc)))
  have hne : trim text ≠ "" := by
    intro heq
    rw [heq] at hmem
    cases hmem
  simpa [isNonEmptyString] using hne

/-- What is not empty after `trim` has something other than white space in it. -/
theorem exists_of_trim_ne {text : String} (h : trim text ≠ "") :
    ∃ c ∈ (trim text).toList, isWhiteSpace c = false := by
  have hlist : (trim text).toList ≠ [] := fun hnil => h (by
    rw [← String.ofList_toList (s := trim text), hnil])
  rw [trim, String.toList_ofList] at hlist ⊢
  have hne : ((text.toList.dropWhile isWhiteSpace).reverse.dropWhile isWhiteSpace) ≠ [] :=
    fun hnil => hlist (by rw [hnil]; rfl)
  refine ⟨_, List.mem_reverse.mpr (List.head_mem hne), ?_⟩
  exact List.head_dropWhile_not isWhiteSpace hne

theorem isNonEmptyString_trim {text : String} (h : trim text ≠ "") :
    isNonEmptyString (trim text) = true := by
  obtain ⟨c, hc, hw⟩ := exists_of_trim_ne h
  exact isNonEmptyString_of_mem hc hw

theorem isWhiteSpace_of_isAlphanum {c : Char} (h : c.isAlphanum = true) :
    isWhiteSpace c = false := by
  have hranges : ((decide (c.val ≥ 'A'.val ∧ c.val ≤ 'Z'.val) ||
      (decide (c.val ≥ 'a'.val) && decide (c.val ≤ 'z'.val))) ||
        (decide (c.val ≥ '0'.val) && decide (c.val ≤ '9'.val))) = true := h
  have hrange : (65 ≤ c.toNat ∧ c.toNat ≤ 90 ∨ 97 ≤ c.toNat ∧ c.toNat ≤ 122) ∨
      48 ≤ c.toNat ∧ c.toNat ≤ 57 := by
    simpa [UInt32.le_iff_toNat_le] using hranges
  simp only [isWhiteSpace, List.mem_cons, List.not_mem_nil, or_false, Bool.or_eq_false_iff,
    decide_eq_false_iff_not, Bool.and_eq_false_iff]
  omega

theorem isNonEmptyString_of_approved {version : String}
    (h : isApprovedDocumentVersion version = true) : isNonEmptyString version = true := by
  unfold isApprovedDocumentVersion at h
  split at h
  · cases h
  · next c cs heq =>
    simp only [Bool.and_eq_true] at h
    exact isNonEmptyString_of_mem (heq ▸ List.mem_cons_self)
      (isWhiteSpace_of_isAlphanum h.1.1.1)

/-- The versions of the terms are not blank. -/
theorem isNonEmptyString_of_terms {env : Env} {terms : MarketplaceTerms}
    (h : requireApprovedMarketplaceTerms env = .ok terms) :
    isNonEmptyString terms.offerVersion = true ∧
      isNonEmptyString terms.cancellationPolicyVersion = true := by
  unfold requireApprovedMarketplaceTerms at h
  split at h
  · split at h
    · next happroved =>
      cases h
      rw [Bool.and_eq_true] at happroved
      exact ⟨isNonEmptyString_of_approved happroved.1, isNonEmptyString_of_approved happroved.2⟩
    · cases h
  · cases h

theorem isNonEmptyString_listingVersion (rules time : String) :
    isNonEmptyString (rules ++ ":" ++ time) = true := by
  refine isNonEmptyString_of_mem (c := ':') ?_ (by decide)
  simp [String.toList_append]

/-! ## The policy -/

/-- The settings that the policy is parsed from. -/
structure PolicyConfig where
  paymentScenario : Option String
  /-- `NODE_ENV` or `DEPLOYMENT_ENVIRONMENT` is `production`. -/
  production : Bool
  depositMaxMinor : Option String
  policyVersion : Option String
  disputeWindowSeconds : Option String

namespace MarketplacePolicy

/-- `number` is `Number(value)`, where that is finite. -/
def parsePositiveSafeInteger (number : String → Option ℚ) (value name : String) :
    Except Error { n : Int // 0 < n } :=
  let failed := Error.internal (name ++ " must be a positive safe integer")
  match number value with
  | some q =>
    if h : 0 < q.num then
      if q.isInt && isSafeInteger q.num then .ok ⟨q.num, h⟩ else .error failed
    else .error failed
  | none => .error failed

def parse (number : String → Option ℚ) (config : PolicyConfig) :
    Except Error MarketplacePolicy := do
  let scenario := (config.paymentScenario.map trim).getD ""
  if scenario = "" ∨ scenario = "PAY_ON_HANDOVER" then pure .payOnHandover
  else if scenario = "SAFE_DEAL" then .error (.internal "SAFE_DEAL_PROVIDER_NOT_CONFIGURED")
  else if scenario ≠ "FAKE_SAFE_DEAL" then .error (.internal "PAYMENT_SCENARIO is invalid")
  else if config.production then
    .error (.internal "FAKE_SAFE_DEAL is not allowed in production")
  else
    let maximumRaw := (config.depositMaxMinor.map trim).getD ""
    let policyVersion := (config.policyVersion.map trim).getD ""
    let disputeWindowRaw := (config.disputeWindowSeconds.map trim).getD ""
    if maximumRaw = "" ∨ policyVersion = "" ∨ disputeWindowRaw = "" then
      .error (.internal "FAKE_SAFE_DEAL requires complete deposit policy configuration")
    else
      let maximum ← parsePositiveSafeInteger number maximumRaw "FAKE_SAFE_DEAL_DEPOSIT_MAX_MINOR"
      let window ← parsePositiveSafeInteger number disputeWindowRaw
        "FAKE_SAFE_DEAL_DISPUTE_WINDOW_SECONDS"
      pure (.fakeSafeDeal ⟨maximum, policyVersion, window, maximum.property, window.property⟩)

/-- What parsing guarantees of a deposit policy, beside what its type says. -/
def Parsed (policy : MarketplacePolicy) : Prop :=
  ∀ deposit, policy = .fakeSafeDeal deposit →
    isNonEmptyString deposit.policyVersion = true ∧
      isSafeInteger deposit.disputeWindowSeconds = true

theorem isSafeInteger_of_parse {number : String → Option ℚ} {value name : String}
    {n : { n : Int // 0 < n }} (h : parsePositiveSafeInteger number value name = .ok n) :
    isSafeInteger n = true := by
  unfold parsePositiveSafeInteger at h
  split at h
  · split at h
    · split at h
      · next hsafe =>
        cases h
        exact (Bool.and_eq_true _ _ ▸ hsafe).2
      · cases h
    · cases h
  · cases h

theorem parsed_of_parse {number : String → Option ℚ} {config : PolicyConfig}
    {policy : MarketplacePolicy} (h : parse number config = .ok policy) : policy.Parsed := by
  intro deposit hpolicy
  subst hpolicy
  simp only [parse] at h
  split at h
  · cases h
  · split at h
    · cases h
    · split at h
      · cases h
      · split at h
        · cases h
        · split at h
          · cases h
          · next hraw =>
            simp only [bind_eq_ok] at h
            obtain ⟨maximum, -, window, hwindow, h⟩ := h
            cases h
            refine ⟨?_, isSafeInteger_of_parse hwindow⟩
            cases hversion : config.policyVersion with
            | none => simp [hversion] at hraw
            | some version =>
              have hne : trim version ≠ "" := by
                simpa [hversion] using fun heq => hraw (.inr (.inl (by simp [hversion, heq])))
              exact isNonEmptyString_trim hne

end MarketplacePolicy

/-! ## The amounts -/

theorem minorUnits_toNumber {amount : Decimal} (h : safeMinor amount.minor = true) :
    minorUnits amount.toNumber = some amount.minor := by
  simp only [safeMinor, Bool.and_eq_true, decide_eq_true_eq] at h
  have hscaled : amount.toNumber * 100 = (amount.minor : ℚ) := by
    unfold Decimal.toNumber Decimal.value
    ring
  have hrounded : ((amount.minor : ℚ) + 1 / 2).floor = amount.minor := by
    refine Int.le_antisymm (Int.le_of_lt_add_one ?_) ?_
    · rw [Rat.floor_lt_iff]
      push_cast
      linarith
    · rw [Rat.le_floor_iff]
      linarith
  have hnonneg : 0 ≤ amount.toNumber := by
    have : (0 : ℚ) ≤ amount.minor := by exact_mod_cast h.2
    linarith
  rw [minorUnits, hscaled, hrounded, if_pos ⟨hnonneg, h.1, by norm_num⟩]

/-- The price of a booking whose deposit the policy allows. -/
theorem bookingPrice_spec {policy : MarketplacePolicy} {rental deposit : Int}
    {price : SafeDealPrice} (h : bookingPrice policy rental deposit = .ok price)
    (hrental : 0 < rental) (hdeposit : policy.paymentScenario = .payOnHandover → deposit = 0) :
    price.rentalSubtotalMinor = rental ∧ price.borrowerTotalMinor = rental + deposit ∧
      price.ownerPayoutMinor + price.platformFeeMinor = rental ∧ 0 ≤ price.platformFeeMinor ∧
      0 ≤ price.ownerPayoutMinor ∧
      (policy.paymentScenario = .payOnHandover → price.platformFeeMinor = 0) := by
  cases policy with
  | payOnHandover =>
    cases h
    obtain rfl := hdeposit rfl
    simp
    omega
  | fakeSafeDeal terms =>
    simp only [bookingPrice, calculateProvisionalSafeDealPrice] at h
    split at h
    · cases h
    · split at h
      · cases h
      · cases h
        simp only [provisionalPlatformFeeBasisPoints, halfBasisPointDenominator,
          basisPointsDenominator]
        refine ⟨trivial, trivial, by omega, by omega, by omega, fun hscenario => ?_⟩
        cases hscenario

theorem moneyMinorOf_spec {pricePerDay deposit : Int} {price : SafeDealPrice}
    {money : BookingMoneyMinor} (h : moneyMinorOf pricePerDay deposit price = .ok money) :
    money = ⟨pricePerDay, price.rentalSubtotalMinor, deposit, price.platformFeeMinor,
      price.ownerPayoutMinor, price.borrowerTotalMinor⟩ ∧
      isSafeInteger pricePerDay = true ∧ isSafeInteger price.rentalSubtotalMinor = true ∧
      isSafeInteger deposit = true ∧ isSafeInteger price.platformFeeMinor = true ∧
      isSafeInteger price.ownerPayoutMinor = true ∧
      isSafeInteger price.borrowerTotalMinor = true := by
  have hsafe {value n : Int} (hn : minorToSafeNumber value = .ok n) :
      n = value ∧ isSafeInteger value = true := by
    unfold minorToSafeNumber at hn
    split at hn
    · next hv =>
      cases hn
      exact ⟨rfl, hv⟩
    · cases hn
  simp only [moneyMinorOf, bind_eq_ok] at h
  obtain ⟨_, h₁, _, h₂, _, h₃, _, h₄, _, h₅, _, h₆, h⟩ := h
  obtain ⟨rfl, s₁⟩ := hsafe h₁
  obtain ⟨rfl, s₂⟩ := hsafe h₂
  obtain ⟨rfl, s₃⟩ := hsafe h₃
  obtain ⟨rfl, s₄⟩ := hsafe h₄
  obtain ⟨rfl, s₅⟩ := hsafe h₅
  obtain ⟨rfl, s₆⟩ := hsafe h₆
  cases h
  exact ⟨rfl, s₁, s₂, s₃, s₄, s₅, s₆⟩

/-! ## The snapshot of a new booking -/

/-- The record of the source, with the texts of the identifiers and of the time. -/
def BookingTermsSnapshot.texts (idText : Id → String) (snapshot : BookingTermsSnapshot) :
    SnapshotJson.BookingTermsSnapshot :=
  { snapshot with
    lenderId := idText snapshot.lenderId
    acceptance := snapshot.acceptance.map fun acceptance =>
      { acceptance with
        actorId := idText acceptance.actorId
        acceptedAt := toISOString acceptance.acceptedAt } }

/-- What the validation of an item guarantees. -/
structure Item.Validated (item : Item) : Prop where
  title : isNonEmptyString item.title = true
  publicArea : isNonEmptyString item.publicArea = true
  address : isNonEmptyString item.address = true
  latitude : isCoordinate item.latitude (-90) 90 = true
  longitude : isCoordinate item.longitude (-180) 180 = true
  pricePerDay : 0 < item.pricePerDay.minor

/-- The snapshot of a booking row is read back from its JSON, against the row, as it was
written. -/
def ReadsBack (idText : Id → String) (booking : Booking) : Prop :=
  ∃ snapshot, booking.termsSnapshot = some snapshot ∧
    SnapshotJson.readBoundBookingTermsSnapshot (SnapshotJson.toSnapshotJson (snapshot.texts idText))
      ⟨idText booking.borrowerId, idText booking.lenderId, booking.days,
        booking.totalAmount.toNumber⟩ = some (snapshot.texts idText)

section Create

variable {env : Env} {terms : MarketplaceTerms} {borrowerId itemId : Id} {item : Item}
  {ownerName : Option String} {period : BookingPeriod} {requestId hash : String}
  {now dbNow : Time} {draft : BookingDraft}

theorem isIsoTimestamp_toISOString (h : isValidTime now = true) :
    SnapshotJson.isIsoTimestamp (some (.string (toISOString now))) = true := by
  simp [SnapshotJson.isIsoTimestamp, SnapshotJson.string?, dateParse_toISOString, h]

theorem BookingPeriod.one_le_days (period : BookingPeriod) : 1 ≤ period.days := by
  have hnonneg : 0 ≤ differenceInDays period.startDate period.endDate :=
    Int.ediv_nonneg (Int.sub_nonneg_of_le period.ordered) (by decide)
  rw [period.days_eq]
  omega

/-- The deposit of an item that the policy allows. -/
theorem depositMinor_nonneg {policy : MarketplacePolicy} {amount : Int}
    (h : policy.assertDepositAllowed amount = .ok ()) : 0 ≤ amount := by
  simp only [MarketplacePolicy.assertDepositAllowed, bind_eq_ok, ensure_eq_ok,
    decide_eq_true_eq] at h
  exact h.choose_spec.1

theorem depositTermsOf_spec {policy : MarketplacePolicy} {amount : Int} (h : policy.Parsed)
    (hoffline : policy.paymentScenario = .payOnHandover → amount = 0) :
    validDepositTerms (depositTermsOf policy amount) = true ∧
      (depositTermsOf policy amount).isSome = decide (0 < amount) := by
  cases policy with
  | payOnHandover =>
    obtain rfl := hoffline rfl
    exact ⟨rfl, rfl⟩
  | fakeSafeDeal deposit =>
    obtain ⟨hversion, hsafe⟩ := h deposit rfl
    simp only [depositTermsOf]
    split
    · next hpos => simp [validDepositTerms, hversion, hsafe, deposit.window_pos, hpos]
    · next hpos => simp [validDepositTerms, hpos]

/-- A well-formed snapshot that belongs to its row. -/
theorem readsBack_of_wellFormed {idText : Id → String} {booking : Booking}
    {snapshot : BookingTermsSnapshot} (h : booking.termsSnapshot = some snapshot)
    (hwell : (snapshot.texts idText).WellFormed) (hlender : snapshot.lenderId = booking.lenderId)
    (hdays : snapshot.days = booking.days)
    (hactor : ∀ acceptance ∈ snapshot.acceptance, acceptance.actorId = booking.borrowerId)
    (htotal : minorUnits booking.totalAmount.toNumber = some snapshot.moneyMinor.total) :
    ReadsBack idText booking := by
  refine ⟨snapshot, h, ?_⟩
  have hborrower : (snapshot.texts idText).acceptance.all (·.actorId == idText booking.borrowerId) =
      true := by
    rw [BookingTermsSnapshot.texts]
    cases hs : snapshot.acceptance with
    | none => rfl
    | some acceptance => simp [hactor acceptance hs]
  have hlender' : (snapshot.texts idText).lenderId = idText booking.lenderId :=
    congrArg idText hlender
  have hdays' : (snapshot.texts idText).days = booking.days := hdays
  rw [SnapshotJson.readBoundBookingTermsSnapshot,
    SnapshotJson.readBookingTermsSnapshot_toSnapshotJson hwell, Option.bind_eq_bind,
    Option.bind_some, hlender', hdays', hborrower, htotal]
  simp [BookingTermsSnapshot.texts]

theorem readsBack_draft (hpolicy : env.policy.Parsed)
    (hterms : requireApprovedMarketplaceTerms env = .ok terms)
    (hoffline : env.policy.paymentScenario = .payOnHandover → item.depositMinor = 0)
    (hallowed : env.policy.assertDepositAllowed item.depositMinor = .ok ())
    (hitem : item.Validated) (hnow : isValidTime now = true) {idText : Id → String}
    (hids : ∀ id, isNonEmptyString (idText id) = true)
    (h : draftBooking env.policy terms borrowerId itemId item ownerName period requestId hash now
      dbNow = .ok draft) : ReadsBack idText draft.booking := by
  simp only [draftBooking, bind_eq_ok] at h
  obtain ⟨price, hprice, money, hmoney, h⟩ := h
  cases h
  obtain ⟨rfl, hsafe⟩ := moneyMinorOf_spec hmoney
  obtain ⟨hprices, hrentals, hdeposits, hfees, hpayouts, htotals⟩ := hsafe
  have hdays := period.one_le_days
  have hrental : 0 < decimalToMinor item.pricePerDay * period.days :=
    Int.mul_pos hitem.pricePerDay (by omega)
  have hdeposit := depositMinor_nonneg hallowed
  obtain ⟨hr, ht, hsum, hfee, hpayout, hofffee⟩ := bookingPrice_spec hprice hrental hoffline
  obtain ⟨hvalidterms, hsome⟩ := depositTermsOf_spec hpolicy hoffline
  obtain ⟨hoffer, hcancellation⟩ := isNonEmptyString_of_terms hterms
  have hunits {amount : Decimal} (h₀ : 0 ≤ amount.minor) (hs : isSafeInteger amount.minor = true) :
      minorUnits amount.toNumber = some amount.minor :=
    minorUnits_toNumber (by simp [safeMinor, hs, h₀])
  have hprice₀ : 0 ≤ item.pricePerDay.minor := Int.le_of_lt hitem.pricePerDay
  replace hprices : isSafeInteger item.pricePerDay.minor = true := hprices
  have hdepositunits : (item.depositAmount.map Decimal.toNumber).elim (some 0) minorUnits =
      some item.depositMinor := by
    cases hamount : item.depositAmount with
    | none => simp [Item.depositMinor, hamount]
    | some amount =>
      rw [Item.depositMinor, hamount] at hdeposit hdeposits
      rw [Item.depositMinor, hamount]
      exact hunits hdeposit hdeposits
  have hrental₀ : 0 ≤ price.rentalSubtotalMinor := by omega
  have htotal₀ : 0 ≤ price.borrowerTotalMinor := by omega
  refine readsBack_of_wellFormed rfl ?_ rfl period.days_eq (by simp) (hunits htotal₀ htotals)
  constructor
  · exact hitem.title
  · exact hids _
  · exact hdays
  · change (do
      let pricePerDay ← minorUnits item.pricePerDay.toNumber
      let rentalSubtotal ← minorUnits (minorToDecimal price.rentalSubtotalMinor).toNumber
      let deposit ← (item.depositAmount.map Decimal.toNumber).elim (some 0) minorUnits
      let platformFee ← minorUnits (minorToDecimal price.platformFeeMinor).toNumber
      let ownerPayout ← minorUnits (minorToDecimal price.ownerPayoutMinor).toNumber
      let total ← minorUnits (minorToDecimal price.borrowerTotalMinor).toNumber
      pure ({ pricePerDay, rentalSubtotal, deposit, platformFee, ownerPayout, total } :
        BookingMoneyMinor)) = _
    rw [hunits hprice₀ hprices, hunits hrental₀ hrentals, hdepositunits, hunits hfee hfees,
      hunits hpayout hpayouts, hunits htotal₀ htotals]
    rfl
  · simp [BookingTermsSnapshot.texts, readMoneyMinor, safeMinor, hprices, hrentals, hdeposits,
      hfees, hpayouts, htotals, hprice₀, hrental₀, hdeposit, hfee, hpayout, htotal₀,
      decimalToMinor]
  · have hproduct : decimalToMinor item.pricePerDay * period.days = price.rentalSubtotalMinor :=
      hr.symm
    have hterms' : (depositTermsOf env.policy item.depositMinor).isSome =
        decide (0 < item.depositMinor) := hsome
    simp only [SnapshotJson.validAmounts, BookingTermsSnapshot.texts, hproduct, hterms', hrentals,
      beq_self_eq_true, Bool.and_true, Bool.true_and, Bool.and_eq_true, beq_iff_eq]
    refine ⟨⟨by omega, by omega⟩, ?_⟩
    split
    · next hscenario =>
      have hzero := hoffline hscenario
      have hfree := hofffee hscenario
      simp [hzero, hfree]
      omega
    · simp
  · exact hvalidterms
  · exact hitem.publicArea
  · exact hitem.address
  · exact hitem.latitude
  · exact hitem.longitude
  · exact isNonEmptyString_listingVersion _ _
  · rfl
  · rfl
  · intro acceptance ha
    cases ha
    exact ⟨hids _, isIsoTimestamp_toISOString hnow, hoffer, hcancellation⟩
  · exact .inr rfl

/-! ## The call -/

/-- Every item in the store has been validated. -/
def ItemsValidated (σ : Store) : Prop :=
  ∀ id item, σ.1.items.get id = some item → item.Validated

/-- A booking that is committed has a snapshot that is read back. -/
def CommitsReadable (idText : Id → String) (ev : Event) (_ : List (Database → Database)) : Prop :=
  ∀ id d bookable, ev = .create id d bookable → ReadsBack idText d.booking

theorem validated_of_bookable {σ : Store} (h : ItemsValidated σ) {bookable : BookableItem}
    (hb : σ.1.bookableItem itemId = some bookable) : bookable.item.Validated := by
  simp only [Database.bookableItem, Option.bind_eq_some_iff, Option.map_eq_some_iff] at hb
  obtain ⟨item, hitem, owner, -, rfl⟩ := hb
  exact h itemId item hitem

/-- The inserts of `create` commit nothing. -/
theorem insertDraft_obeys {α : Type} {P : Store → Prop}
    {E : Event → List (Database → Database) → Prop} {id : Id} {f : Unit → Prog Sys α}
    (h : ∀ ω, (f ()).Obeys P E (fun _ => True) ω) {ω : List (Database → Database)} :
    ((BookingService.insertDraft id draft).bind f).Obeys P E (fun _ => True) ω := by
  have hunique {rows : List LockKey} {taken : Database → Bool} {e : Error}
      {g : Database → Database} {next : Unit → Prog Sys α}
      (hnext : ∀ ω, (next ()).Obeys P E (fun _ => True) ω) (ω : List (Database → Database)) :
      ((insertUnique rows taken e g : Prog Sys Unit).bind next).Obeys P E (fun _ => True) ω := by
    simp only [insertUnique, Prog.bind, Prog.Obeys]
    intro σ _
    split
    · trivial
    · exact hnext _
  simp only [BookingService.insertDraft, createOutbox, Prog.bind_eq, Prog.bind_assoc]
  refine hunique (fun ω => ?_) ω
  have hrest (ω : List (Database → Database)) : ((onDeal [] id (Deal.addMessage
      "Заявка отправлена. Владелец ответит в течение 12 часов.")).bind fun _ =>
        (onDeal [] id (Deal.addTransition
          ⟨some draft.booking.borrowerId, .borrower, .create, none, .pending, none⟩)).bind fun _ =>
            (insertUnique [.outboxKey id .created] (·.outboxTaken id .created)
              (.internal "Unique constraint failed: deduplicationKey")
              (Database.modifyDeal id (Deal.addOutbox .created)) : Prog Sys Unit).bind f).Obeys
        P E (fun _ => True) ω :=
    fun _ _ _ _ => hunique h _
  unfold when
  split
  · exact fun _ _ => hrest _
  · exact hrest _

variable {number : String → Option ℚ} {config : PolicyConfig} {idText : Id → String}

theorem create_readsBack (dto : CreateBookingDto) (today : Time) (newId : Id)
    (hpolicy : MarketplacePolicy.parse number config = .ok env.policy)
    (hids : ∀ id, isNonEmptyString (idText id) = true) (hnow : isValidTime now = true) :
    (BookingService.create env borrowerId dto requestId hash today now dbNow newId).Obeys
      ItemsValidated (CommitsReadable idText) (fun _ => True) [] := by
  have hother {ev : Event} {ω : List (Database → Database)} (h : ev = .noop) :
      CommitsReadable idText ev ω := fun _ _ _ heq => by rw [h] at heq; cases heq
  simp only [BookingService.create, BookingService.checkBorrower, BookingService.checkItem,
    Prog.bind_eq]
  refine Prog.Obeys.lift_bind (fun terms hterms => ?_) fun _ _ => trivial
  refine Prog.Obeys.lift_bind (fun _ _ => ?_) fun _ _ => trivial
  refine Prog.Obeys.lift_bind (fun period _ => ?_) fun _ _ => trivial
  simp only [acquire, select, Prog.bind, Prog.Obeys, view_nil]
  intro σ₁ _
  cases hrepeated : σ₁.1.bookingByRequest borrowerId requestId with
  | some row =>
    refine Prog.Obeys.lift_bind (fun _ _ => ?_) fun _ _ => trivial
    exact ⟨hother rfl, trivial⟩
  | none =>
    intro σ₂ _
    refine Prog.Obeys.lift_bind (fun _ _ => ?_) fun _ _ => trivial
    simp only [Prog.bind, Prog.bind_assoc, Prog.pure_eq, Prog.Obeys, view_nil]
    intro σ₃ hitems
    refine Prog.Obeys.lift_bind (fun bookable hbookable => ?_) fun _ _ => trivial
    have hitem := validated_of_bookable hitems (required_eq_ok.mp hbookable)
    refine Prog.Obeys.lift_bind (fun _ _ => ?_) fun _ _ => trivial
    refine Prog.Obeys.lift_bind (fun _ hoffline => ?_) fun _ _ => trivial
    refine Prog.Obeys.lift_bind (fun _ hallowed => ?_) fun _ _ => trivial
    have hoffline' : env.policy.paymentScenario = .payOnHandover →
        bookable.item.depositMinor = 0 := by
      intro hscenario
      simpa [hscenario] using hoffline
    simp only [Prog.Obeys, view_nil]
    intro σ₄ _
    refine Prog.Obeys.lift_bind (fun _ _ => ?_) fun _ _ => trivial
    simp only [Prog.Obeys, view_nil]
    intro σ₅ _
    refine Prog.Obeys.lift_bind (fun _ _ => ?_) fun _ _ => trivial
    simp only [Prog.Obeys, view_nil]
    intro σ₆ _
    refine Prog.Obeys.lift_bind (fun _ _ => ?_) fun _ _ => trivial
    simp only [Prog.Obeys, view_nil]
    intro σ₇ _
    refine Prog.Obeys.lift_bind (fun _ _ => ?_) fun _ _ => trivial
    refine Prog.Obeys.lift_bind (fun draft hdraft => ?_) fun _ _ => trivial
    have hreads := readsBack_draft (MarketplacePolicy.parsed_of_parse hpolicy) hterms hoffline'
      hallowed hitem hnow hids hdraft
    refine insertDraft_obeys fun ω => ?_
    refine ⟨?_, trivial⟩
    rintro _ d _ ⟨⟩
    exact hreads

end Create

namespace SnapshotScenario

open Scenario

/-- `Number` on the settings of the scenario. -/
def number (text : String) : Option ℚ :=
  if text = "5000000" then some 5000000 else if text = "86400" then some 86400 else none

def config : PolicyConfig where
  paymentScenario := some " FAKE_SAFE_DEAL "
  production := false
  depositMaxMinor := some "5000000"
  policyVersion := some "deposit-1"
  disputeWindowSeconds := some "86400"

def uuid (id : Id) : String := "00000000-0000-4000-8000-" ++ pad 12 id

def request (newId : Id) : Prog Sys BookingResponse :=
  BookingService.create env 1 ⟨1, "2026-08-03", "2026-08-05", some "offer-1",
    some "cancellation-1", some true, some true⟩ "r1" "payload" start start start newId

theorem validated : ItemsValidated state.store := by
  intro id item h
  rcases Table.of_get_insert h with ⟨-, rfl⟩ | h
  · exact ⟨by decide, by decide, by decide, by decide +kernel, by decide +kernel, by decide⟩
  · cases h

theorem isNonEmptyString_uuid (id : Id) : isNonEmptyString (uuid id) = true := by
  have hdash : '-' ∈ "00000000-0000-4000-8000-".toList := by decide +kernel
  refine isNonEmptyString_of_mem (c := '-') ?_ (by decide)
  unfold uuid
  rw [String.toList_append]
  exact List.mem_append_left _ hdash

theorem parse_config : MarketplacePolicy.parse number config = .ok env.policy := by
  have hscenario : trim " FAKE_SAFE_DEAL " = "FAKE_SAFE_DEAL" := by decide +kernel
  have hmaximum : trim "5000000" = "5000000" := by decide +kernel
  have hversion : trim "deposit-1" = "deposit-1" := by decide +kernel
  have hwindow : trim "86400" = "86400" := by decide +kernel
  simp only [MarketplacePolicy.parse, config, Option.map_some, Option.getD_some, hscenario,
    hmaximum, hversion, hwindow]
  rfl

theorem create_readsBack_drill :
    ((request 10).alone [] state.store).1.isOk = true ∧ ItemsValidated state.store ∧
      (request 10).Obeys ItemsValidated (CommitsReadable uuid) (fun _ => True) [] := by
  refine ⟨by decide +kernel, validated, ?_⟩
  unfold request
  refine @create_readsBack env 1 "r1" "payload" start start number config uuid _ _ _ ?_ ?_ ?_
  · exact parse_config
  · exact isNonEmptyString_uuid
  · decide

end SnapshotScenario

end Sosedi
