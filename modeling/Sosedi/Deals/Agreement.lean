import Sosedi.Deals.Constants
import Sosedi.Deposits.Machine
import Sosedi.Deposits.Money

/-!
# The records of a safe deal agree

Proved here: the amounts of a new safe deal agree and no move changes them
(`Deal.Priced.apply`), every move keeps the payment and the deposit in step with the booking
(`DealMove.staged_apply`), and so the records of every safe deal of a reachable state agree
(`records_agree`).
-/

namespace Sosedi

open Transactions Attempts

variable {d d' : Deal} {k : Id} {w : World} {snapshot : BookingTermsSnapshot}

/-- What the first operations pay out, retries not counted. -/
def Deal.plannedLegs (d : Deal) : Int :=
  d.operations.sum fun _ op =>
    if (op.kind = .refund ∨ op.kind = .releaseToLender) ∧ op.retryOfId = none then
      decimalToMinor op.amount
    else 0

/-- The deposit is paid out, or about to be. -/
def DepositStatus.paysOut (status : DepositStatus) : Prop := status = .resolving ∨ status = .resolved

/-- The deposit was taken from the borrower. -/
def DepositStatus.taken (status : DepositStatus) : Prop :=
  status = .held ∨ status = .disputed ∨ status.paysOut

/-- The amounts that a safe deal was made with. -/
structure Deal.Priced (d : Deal) (snapshot : BookingTermsSnapshot) : Prop where
  total : decimalToMinor d.booking.totalAmount = snapshot.moneyMinor.total
  rubles : d.booking.totalAmount.toNumber = snapshot.total
  deposit : d.deposit.isSome ↔ 0 < snapshot.moneyMinor.deposit
  amount : ∀ dep, d.deposit = some dep → decimalToMinor dep.amount = snapshot.moneyMinor.deposit

/-- The payment and the deposit are as far as the booking is. -/
structure Deal.Staged (d : Deal) (snapshot : BookingTermsSnapshot) : Prop where
  payment : ∀ p, d.payment = some p → decimalToMinor p.amount = snapshot.moneyMinor.total
  paid : d.booking.status = .active ∨ d.booking.status = .returned →
    ∃ p, d.payment = some p ∧ p.status = .succeeded
  taken : d.booking.status = .active ∨ d.booking.status = .returned →
    0 < snapshot.moneyMinor.deposit → ∃ dep, d.deposit = some dep ∧ dep.status.taken
  window : d.booking.status = .returned → 0 < snapshot.moneyMinor.deposit → d.windowEnd.isSome
  completed : d.booking.status = .completed → ∀ dep, d.deposit = some dep → dep.status.paysOut

/-- The records of a safe deal agree with its terms. -/
structure Deal.Agrees (d : Deal) (snapshot : BookingTermsSnapshot) : Prop where
  priced : d.Priced snapshot
  staged : d.Staged snapshot
  hold : ∀ o op, d.operations.get o = some op → op.kind = .hold →
    decimalToMinor op.amount = snapshot.moneyMinor.deposit
  legs : ∀ dep, d.deposit = some dep → dep.status.paysOut →
    d.plannedLegs = snapshot.moneyMinor.deposit

/-! ## Amounts -/

theorem Deal.Priced.of_same (h : d.Priced snapshot) (hb : d'.booking.terms = d.booking.terms)
    (hd : d'.depositTerms = d.depositTerms) : d'.Priced snapshot where
  total := totalAmount_of_terms hb ▸ h.total
  rubles := totalAmount_of_terms hb ▸ h.rubles
  deposit := Deal.isSome_deposit_of_depositTerms hd ▸ h.deposit
  amount := by
    intro dep' hdep'
    rw [depositTerms, depositTerms, hdep', Option.map_some, eq_comm, Option.map_eq_some_iff] at hd
    obtain ⟨dep, hdep, hterms⟩ := hd
    rw [show dep'.amount = dep.amount from (congrArg BookingDeposit.amount hterms).symm]
    exact h.amount dep hdep

/-- No move changes the amounts of a deal. -/
theorem Deal.Priced.apply (h : d.Priced snapshot) (m : DealMove) : (m.apply k d).Priced snapshot :=
  h.of_same (m.terms_apply k d) (m.depositTerms_apply d)

theorem DraftedFrom.priced {read : BookableItem} (h : DraftedFrom read d)
    (hs : d.booking.termsSnapshot = some snapshot)
    (hfake : snapshot.paymentScenario = .fakeSafeDeal) : d.Priced snapshot := by
  obtain ⟨policy, terms, borrowerId, itemId, period, requestId, hash, now, dbNow, draft, hdraft,
    rfl⟩ := h
  simp only [draftBooking, bind_eq_ok] at hdraft
  obtain ⟨price, hprice, money, hmoney, hdraft⟩ := hdraft
  cases hdraft
  simp only [moneyMinorOf, bind_eq_ok] at hmoney
  obtain ⟨pricePerDay, -, rental, -, deposit, hdeposit, fee, -, payout, -, total, htotal, hmoney⟩ :=
    hmoney
  cases hmoney
  obtain rfl := minorToSafeNumber_eq_ok hdeposit
  obtain rfl := minorToSafeNumber_eq_ok htotal
  obtain rfl := Option.some.inj hs
  cases policy with
  | payOnHandover => cases hfake
  | fakeSafeDeal policy =>
    refine ⟨rfl, rfl, ?_, ?_⟩
    · simp [BookingDraft.deal, depositTermsOf]
    · intro dep hdep
      simp only [BookingDraft.deal, Deal.addMessage, Deal.addTransition, Deal.addOutbox,
        Option.map_eq_some_iff] at hdep
      obtain ⟨t, -, rfl⟩ := hdep
      rfl

/-! ## Stages -/

theorem DepositStatus.Becomes.paysOut {s s' : DepositStatus} (h : s.Becomes s')
    (hs : s.paysOut) : s'.paysOut := by
  rcases h with rfl | h
  · exact hs
  · rcases hs with rfl | rfl <;> simp_all [allowedTransitions, DepositStatus.paysOut]

theorem DepositStatus.Becomes.taken {s s' : DepositStatus} (h : s.Becomes s') (hs : s.taken) :
    s'.taken := by
  rcases h with rfl | h
  · exact hs
  · rcases hs with rfl | rfl | rfl | rfl <;>
      simp_all [allowedTransitions, DepositStatus.taken, DepositStatus.paysOut]
    rcases h with rfl | rfl <;> simp

/-- A move that makes no payment, takes the deposit along and keeps its window. -/
theorem Deal.Staged.advance (h : d.Staged snapshot) (hpayment : d'.payment = d.payment)
    (hdeposit : ∀ dep, d.deposit = some dep → dep.Advances d'.deposit)
    (hnone : d.deposit = none → d'.deposit = none) (hwindow : d'.windowEnd = d.windowEnd)
    (hs : d'.booking.status = d.booking.status ∨ d'.booking.status = .pending ∨
      d'.booking.status = .confirmed ∨ d'.booking.status = .cancelled ∨
      d'.booking.status = .completed ∧ ∀ dep, d'.deposit = some dep → dep.status.paysOut) :
    d'.Staged snapshot := by
  have hsame : d'.booking.status = .active ∨ d'.booking.status = .returned →
      d'.booking.status = d.booking.status := by
    intro h'
    rcases hs with hs | hs | hs | hs | ⟨hs, -⟩
    · exact hs
    all_goals rw [hs] at h'; rcases h' with h' | h' <;> cases h'
  refine ⟨hpayment ▸ h.payment, fun h' => ?_, fun h' hpos => ?_, fun h' hpos => ?_, fun h' => ?_⟩
  · rw [hpayment]
    exact h.paid (hsame h' ▸ h')
  · obtain ⟨dep, hdep, htaken⟩ := h.taken (hsame h' ▸ h') hpos
    obtain ⟨dep', hdep', hbecomes⟩ := hdeposit dep hdep
    exact ⟨dep', hdep', hbecomes.taken htaken⟩
  · rw [hwindow]
    exact h.window ((hsame (Or.inr h')).symm.trans h') hpos
  · rcases hs with hs | hs | hs | hs | ⟨-, hpaysOut⟩
    · intro dep' hdep'
      cases hdep : d.deposit with
      | none =>
        rw [hnone hdep] at hdep'
        cases hdep'
      | some dep =>
        obtain ⟨dep'', hdep'', hbecomes⟩ := hdeposit dep hdep
        rw [hdep', Option.some.injEq] at hdep''
        exact hdep'' ▸ hbecomes.paysOut (h.completed (hs.symm.trans h') dep hdep)
    · rw [hs] at h'
      cases h'
    · rw [hs] at h'
      cases h'
    · rw [hs] at h'
      cases h'
    · exact hpaysOut

/-- A booking completes only with its deposit on the way out. -/
theorem Deal.paysOut_of_complete {trigger : BookingCompletionTrigger} {now : Time}
    (hd : d.deposit = none ∨ (∃ dep, d.deposit = some dep ∧ dep.status.paysOut) ∨
      trigger = .depositSettled) :
    (d.completeAfterReturn trigger now).booking.status = d.booking.status ∨
      (d.completeAfterReturn trigger now).booking.status = .completed ∧
        ∀ dep, (d.completeAfterReturn trigger now).deposit = some dep → dep.status.paysOut := by
  rcases d.completeAfterReturn_cases trigger now with ⟨he, -⟩ | ⟨hcheck, hreturned, he⟩
  · exact Or.inl (by rw [he])
  · refine Or.inr ⟨by rw [he]; rfl, fun dep hdep => ?_⟩
    rw [Deal.deposit_completeAfterReturn] at hdep
    rcases hd with hd | ⟨dep', hd, hs⟩ | rfl
    · rw [hd] at hdep
      cases hdep
    · rw [hd, Option.some.injEq] at hdep
      exact hdep ▸ hs
    · -- the settled trigger looks at the deposit itself
      rw [hdep] at hcheck
      simp only [completionCheck, hreturned, ne_eq, not_true_eq_false, if_false] at hcheck
      split at hcheck
      · cases hcheck
      · refine Or.inr ?_
        cases hsettled : assertDepositSettled (some dep) with
        | error e =>
          rw [hsettled] at hcheck
          cases hcheck
        | ok u =>
          simp only [assertDepositSettled, ensure_eq_ok, Bool.and_eq_true, beq_iff_eq] at hsettled
          exact hsettled.1

/-- How a move that neither pays nor confirms an act moves the booking. -/
theorem DealMove.status_paysOut {m : DealMove} (hg : m.guard k d w)
    (hact : ∀ stage actorId confirmedAt endsAt completes,
      m ≠ .act (.confirmAct stage actorId confirmedAt endsAt completes)) :
    (m.apply k d).booking.status = d.booking.status ∨ (m.apply k d).booking.status = .pending ∨
      (m.apply k d).booking.status = .confirmed ∨ (m.apply k d).booking.status = .cancelled ∨
      (m.apply k d).booking.status = .completed ∧
        ∀ dep, (m.apply k d).deposit = some dep → dep.status.paysOut := by
  have hcomplete : ∀ (d' : Deal) trigger now, d'.booking.status = d.booking.status →
      (d'.deposit = none ∨ (∃ dep, d'.deposit = some dep ∧ dep.status.paysOut) ∨
        trigger = .depositSettled) →
      m.apply k d = d'.completeAfterReturn trigger now →
      (m.apply k d).booking.status = d.booking.status ∨
        (m.apply k d).booking.status = .completed ∧
          ∀ dep, (m.apply k d).deposit = some dep → dep.status.paysOut := by
    intro d' trigger now hs hd he
    rw [he, ← hs]
    exact Deal.paysOut_of_complete hd
  have hor : ∀ {p q r t u : Prop}, p ∨ u → p ∨ q ∨ r ∨ t ∨ u := by tauto
  cases m with
  | act action =>
    cases action with
    | confirmAct => exact absurd rfl (hact _ _ _ _ _)
    | cancel | expire =>
      exact Or.inr (Or.inr (Or.inr (Or.inl (by simp [apply, Action.apply, Deal.cancelPendingDeposit]))))
    | pay => exact Or.inl (by simp [apply, Action.apply])
    | openDispute | retry | postpone | decline => exact Or.inl rfl
    | complete now => exact hor (hcomplete d _ now rfl (Or.inr (Or.inr rfl)) rfl)
    | resolve adminId reason refundMinor releaseMinor key refundId releaseId now dbNow =>
      obtain ⟨-, -, -, -, ⟨dep, hdep, -, -⟩, -⟩ := hg
      refine hor (hcomplete _ _ now ?_ (Or.inr (Or.inl ⟨{ dep with status := .resolving }, ?_,
        Or.inl rfl⟩)) rfl)
      · simp
      · simp [hdep]
    | autoRefund amount operationId now dbNow =>
      obtain ⟨-, -, -, dep, hdep, -, -⟩ := hg
      refine hor (hcomplete _ _ now ?_ (Or.inr (Or.inl ⟨{ dep with status := .resolving }, ?_,
        Or.inl rfl⟩)) rfl)
      · rfl
      · simp [hdep]
    | settle o kind amount providerId now resolved =>
      cases resolved with
      | false => exact Or.inl rfl
      | true =>
        refine hor (hcomplete _ _ now ?_ (Or.inr (Or.inr rfl)) rfl)
        rfl
  | confirm => exact Or.inr (Or.inr (Or.inl (by simp [apply, Deal.confirm])))
  | compete | blocked =>
    cases hp : d.booking.status == .pending with
    | false =>
      refine Or.inl ?_
      simp [apply, Deal.compete, Deal.blocked, Deal.cancelIfPending, Deal.cancelPendingDeposit, hp]
    | true =>
      refine Or.inr (Or.inr (Or.inr (Or.inl ?_)))
      simp [apply, Deal.compete, Deal.blocked, Deal.cancelIfPending, Deal.cancelPendingDeposit, hp]
  | idle | claim => exact Or.inl rfl
  | createAct => exact Or.inl (by simp [apply])

/-- The terms that a move reads are the stored ones. -/
theorem eq_of_boundSnapshot {snapshot' : BookingTermsSnapshot}
    (hs : d.booking.termsSnapshot = some snapshot) (hfake : snapshot.paymentScenario = .fakeSafeDeal)
    (hbound : d.booking.boundSnapshot = some snapshot') :
    snapshot' = snapshot ∧ (0 < snapshot.moneyMinor.deposit ↔ snapshot.depositTerms.isSome) := by
  rw [Booking.boundSnapshot, hs] at hbound
  exact eq_of_read_fakeSafeDeal hbound hfake

theorem BookingActService.ensureHandoverPaid_eq_ok {payment : Option Payment}
    {deposit : Option BookingDeposit} (hfake : snapshot.paymentScenario = .fakeSafeDeal)
    (h : ensureHandoverPaid .handover (some snapshot) payment deposit = .ok ()) :
    (∃ p, payment = some p ∧ p.status = .succeeded) ∧
      (0 < snapshot.moneyMinor.deposit → ∃ dep, deposit = some dep ∧ dep.status = .held) := by
  simp only [ensureHandoverPaid, hfake, if_true, bind_eq_ok, ensure_eq_ok] at h
  obtain ⟨-, hpaid, hheld⟩ := h
  refine ⟨?_, fun hpos => ?_⟩
  · obtain ⟨p, hp, hs⟩ := Option.any_eq_true _ _ |>.mp hpaid
    exact ⟨p, hp, by simpa using hs⟩
  · have hany : deposit.any (·.status == .held) = true := by simpa [hpos] using hheld
    obtain ⟨dep, hdep, hs⟩ := Option.any_eq_true _ _ |>.mp hany
    exact ⟨dep, hdep, by simpa using hs⟩

theorem Deal.Staged.confirmAct {stage : BookingActStage} {actorId : Id} {confirmedAt : Time}
    {ends : Option Time} {completes : Bool} (h : d.Staged snapshot)
    (hs : d.booking.termsSnapshot = some snapshot)
    (hfake : snapshot.paymentScenario = .fakeSafeDeal)
    (hg : (Action.confirmAct stage actorId confirmedAt ends completes).guard k d w) :
    ((Action.confirmAct stage actorId confirmedAt ends completes).apply k d).Staged snapshot := by
  obtain ⟨-, -, hstatus, hread, hpaid, hends, hcompletes, hzero⟩ := hg
  obtain ⟨snapshot', hbound⟩ := Option.isSome_iff_exists.mp (hread (by simp [hs]))
  obtain ⟨rfl, hterms⟩ := eq_of_boundSnapshot hs hfake hbound
  rw [hbound] at hpaid hends hcompletes
  cases stage with
  | handover =>
    obtain rfl : ends = none := hends
    obtain rfl : completes = false := hcompletes
    obtain ⟨hsucceeded, hheld⟩ := BookingActService.ensureHandoverPaid_eq_ok hfake hpaid
    refine ⟨fun p hp => h.payment p (by simpa [Action.apply] using hp), fun _ => ?_,
      fun _ hpos => ?_, ?_, ?_⟩
    · simpa [Action.apply] using hsucceeded
    · obtain ⟨dep, hdep, hs'⟩ := hheld hpos
      exact ⟨dep, by simpa [Action.apply, Action.openWindow] using hdep, Or.inl hs'⟩
    all_goals simp [Action.apply, BookingActService.nextStatus]
  | «return» =>
    have hactive := Or.inl (b := d.booking.status = .returned) hstatus
    refine ⟨fun p hp => h.payment p (by simpa [Action.apply] using hp), fun _ => ?_,
      fun _ hpos => ?_, fun _ hpos => ?_, ?_⟩
    · simpa [Action.apply] using h.paid hactive
    · obtain ⟨dep, hdep, htaken⟩ := h.taken hactive hpos
      cases ends with
      | none => exact ⟨dep, by simpa [Action.apply, Action.openWindow] using hdep, htaken⟩
      | some endsAt =>
        exact ⟨{ dep with disputeWindowEndsAt := some endsAt },
          by simp [Action.apply, Action.openWindow, hdep], htaken⟩
    · obtain ⟨dep, hdep, -⟩ := h.taken hactive hpos
      obtain ⟨t, ht⟩ := Option.isSome_iff_exists.mp (hterms.mp hpos)
      simp only [BookingActService.disputeWindowEnd, hfake, hdep, ht, Option.isSome_some,
        decide_true, Bool.and_self, if_true, Option.map_some] at hends
      subst hends
      simp [Deal.windowEnd, Action.apply, Action.openWindow, hdep]
    · intro hdone dep hdep
      cases completes with
      | false => simp [Action.apply, BookingActService.nextStatus] at hdone
      | true =>
        have hnone := (hzero rfl).1
        cases ends <;> simp [Action.apply, Action.openWindow, hnone] at hdep

/-- **Every move keeps the payment and the deposit in step with the booking.** -/
theorem DealMove.staged_apply {m : DealMove} (h : d.Staged snapshot)
    (hs : d.booking.termsSnapshot = some snapshot)
    (hfake : snapshot.paymentScenario = .fakeSafeDeal) (hg : m.guard k d w) :
    (m.apply k d).Staged snapshot := by
  by_cases hact : ∃ stage actorId confirmedAt endsAt completes,
      m = .act (.confirmAct stage actorId confirmedAt endsAt completes)
  · obtain ⟨stage, actorId, confirmedAt, endsAt, completes, rfl⟩ := hact
    exact Deal.Staged.confirmAct (k := k) (w := w) h hs hfake hg
  by_cases hpay : ∃ borrowerId amount key charge hold,
      m = .act (.pay borrowerId amount key charge hold)
  · obtain ⟨borrowerId, amount, key, charge, hold, rfl⟩ := hpay
    obtain ⟨-, hstatus, -, ⟨snapshot', hterms, hamount, -⟩, -⟩ := hg
    obtain ⟨rfl, -⟩ := eq_of_boundSnapshot hs hfake hterms.1
    have hconfirmed : ((act (.pay borrowerId amount key charge hold)).apply k d).booking.status =
        .confirmed := by simpa [apply, Action.apply] using hstatus
    refine ⟨?_, ?_, ?_, ?_, ?_⟩
    · intro p hp
      simp only [apply, Action.apply, Action.payment_payHold, Option.some.injEq] at hp
      subst hp
      exact hamount
    all_goals simp [hconfirmed]
  · have hne : ∀ stage actorId confirmedAt endsAt completes,
        m ≠ .act (.confirmAct stage actorId confirmedAt endsAt completes) :=
      fun _ _ _ _ _ he => hact ⟨_, _, _, _, _, he⟩
    refine h.advance (DealMove.payment_apply (fun _ _ _ _ _ he => hpay ⟨_, _, _, _, _, he⟩) d)
      (fun dep hdep => DealMove.depositStatus_apply hg hdep) (fun hnone => ?_)
      (DealMove.windowEnd_apply hne d) (DealMove.status_paysOut hg hne)
    have := Deal.isSome_deposit_of_depositTerms (m.depositTerms_apply (k := k) d)
    simpa [hnone] using this

/-! ## Runs -/

variable {sha256 : Bytes → String} {ok : Event → Store → Prop} {s₀ s : State Sys}

theorem DraftedFrom.staged {read : BookableItem} (h : DraftedFrom read d) : d.Staged snapshot := by
  obtain ⟨hunpaid, hpending⟩ := h.unpaid
  refine ⟨?_, ?_, ?_, ?_, ?_⟩
  · simp [hunpaid.payment]
  all_goals simp [hpending]

theorem Runs.staged (h : Runs sha256 ok s₀ s) : ∀ k d, s.db.deals.get k = some d →
    ∀ snapshot, d.booking.termsSnapshot = some snapshot →
      snapshot.paymentScenario = .fakeSafeDeal → d.Priced snapshot ∧ d.Staged snapshot := by
  refine h.invariant (P := fun σ => ∀ k d, σ.1.deals.get k = some d →
    ∀ snapshot, d.booking.termsSnapshot = some snapshot →
      snapshot.paymentScenario = .fakeSafeDeal → d.Priced snapshot ∧ d.Staged snapshot) ?_ ?_
  · intro σ hi
    simp [hi.deals]
  · intro ev K a b _ _ hg ha k d' hd' snapshot hs hfake
    rcases hg.get_inv hd' with ⟨d, hd, rfl, hguard, -⟩ | ⟨-, read, -, hnew⟩
    · have hs' : d.booking.termsSnapshot = some snapshot :=
        (termsSnapshot_of_terms ((ev.move k).terms_apply k d)).symm.trans hs
      obtain ⟨hpriced, hstaged⟩ := ha k d hd snapshot hs' hfake
      exact ⟨hpriced.apply _, DealMove.staged_apply hstaged hs' hfake hguard⟩
    · exact ⟨hnew.priced hs hfake, hnew.staged⟩

theorem Deal.plannedLegs_eq (d : Deal) :
    d.plannedLegs = planned d.attempts .refund + planned d.attempts .releaseToLender := by
  rw [planned, planned, Deal.attempts, Table.sum_map, Table.sum_map, ← Table.sum_add]
  refine Table.sum_congr fun o op _ => ?_
  cases hk : op.kind <;> cases hr : op.retryOfId <;>
    simp [DepositOperation.attempt, hk, hr, decimalToMinor]

theorem Deal.Balanced.hold_amount {dep : BookingDeposit} (h : d.Balanced)
    (hdep : d.deposit = some dep) {o : Id} {op : DepositOperation}
    (hop : d.operations.get o = some op) (hkind : op.kind = .hold) : op.amount = dep.amount := by
  have hstage := h.stage dep hdep
  have hattempt := Deal.get_attempts_of_get hop
  have hdecided : Decided d.attempts dep.amount d.dispute → op.amount = dep.amount := by
    intro hd
    have := (hd.amounts o op.attempt hattempt).2
    rw [show op.attempt.kind = .hold from hkind] at this
    exact Decimal.ext' this
  have hheld : HeldOnly d.attempts dep.amount → op.amount = dep.amount :=
    fun hh => Decimal.ext' (hh.kind o op.attempt hattempt).2
  unfold LedgerStage at hstage
  split at hstage
  · rw [hstage.1] at hattempt
    cases hattempt
  · rw [hstage.1] at hattempt
    cases hattempt
  · exact hheld hstage.1
  · exact hheld hstage.1
  · exact hdecided hstage
  · exact hdecided hstage.1

theorem Deal.Balanced.decided {dep : BookingDeposit} (h : d.Balanced)
    (hdep : d.deposit = some dep) (hs : dep.status.paysOut) :
    Decided d.attempts dep.amount d.dispute := by
  have hstage := h.stage dep hdep
  rcases hs with hs | hs
  · simpa [LedgerStage, hs] using hstage
  · simp only [LedgerStage, hs] at hstage
    exact hstage.1

theorem Deal.Balanced.plannedLegs {dep : BookingDeposit} (h : d.Balanced)
    (hdep : d.deposit = some dep) (hs : dep.status.paysOut) : d.plannedLegs = dep.amount.minor := by
  have hdecided := h.decided hdep hs
  rw [d.plannedLegs_eq, hdecided.planned, hdecided.planned]
  exact hdecided.total

/-- **The records of a safe deal agree.** -/
theorem records_agree (h : Runs sha256 ok s₀ s) (hd : s.db.deals.get k = some d)
    (hs : d.booking.termsSnapshot = some snapshot)
    (hfake : snapshot.paymentScenario = .fakeSafeDeal) : d.Agrees snapshot := by
  obtain ⟨hpriced, hstaged⟩ := h.staged k d hd snapshot hs hfake
  have hbalanced := h.balanced k d hd
  refine ⟨hpriced, hstaged, fun o op hop hkind => ?_, fun dep hdep hpaysOut => ?_⟩
  · cases hdep : d.deposit with
    | none =>
      have hempty := (hbalanced.absent hdep).1
      have hattempt := Deal.get_attempts_of_get hop
      rw [hempty] at hattempt
      cases hattempt
    | some dep =>
      rw [hbalanced.hold_amount hdep hop hkind]
      exact hpriced.amount dep hdep
  · rw [hbalanced.plannedLegs hdep hpaysOut]
    exact hpriced.amount dep hdep

namespace Scenario

theorem records_agree_returned : ∃ d snapshot,
    (play anyEvent hash state returned).db.deals.get 10 = some d ∧
      d.booking.termsSnapshot = some snapshot ∧ d.booking.status = .returned ∧
      d.Agrees snapshot := by
  have hdeal : ((play anyEvent hash state returned).db.deals.get 10).map
      (fun d => (d.booking.status, d.booking.termsSnapshot.map (·.paymentScenario))) =
        some (.returned, some .fakeSafeDeal) := by decide +kernel
  obtain ⟨d, hd, hboth⟩ := Option.map_eq_some_iff.mp hdeal
  obtain ⟨hstatus, hscenario⟩ := Prod.mk.inj hboth
  obtain ⟨snapshot, hs, hfake⟩ := Option.map_eq_some_iff.mp hscenario
  exact ⟨d, snapshot, hd, hs, hstatus,
    records_agree ((runs anyEvent).play returned) hd hs hfake⟩

end Scenario

end Sosedi
