import Sosedi.Deals.Agreement
import Sosedi.Deposits.Disputes

/-!
# The deposit of a cancelled booking

A confirmation, an expiry and `cancelPending` take the deposit along; a block between users
does not.

Proved here: a blocked request keeps its pending deposit (`Scenario.cancelled_pendingDeposit`);
in a run in which no request that a block cancels has a pending deposit, the deposit of every
cancelled booking is cancelled, or goes back to the borrower (`cancelled_closed`).
-/

namespace Sosedi

open Transactions Attempts

variable {d d' : Deal} {k : Id} {w : World} {dep : BookingDeposit}

/-- The whole deposit is to be refunded to the borrower. -/
def Deal.RefundsAll (d : Deal) (dep : BookingDeposit) : Prop :=
  planned d.attempts .refund = decimalToMinor dep.amount ∧ planned d.attempts .releaseToLender = 0

/-- The deposit of a booking that was cancelled before it was paid is cancelled, that of a paid
one is refunded. -/
def Deal.Closed (d : Deal) (dep : BookingDeposit) : Prop :=
  d.payment = none ∧ dep.status = .cancelled ∨
    (∃ p, d.payment = some p) ∧ dep.status.paysOut ∧ d.RefundsAll dep

/-- No open request that the block cancels has a pending deposit. -/
def blocksNoDeposit : Event → Store → Bool
  | .block _ _ cancelled _ _, σ => cancelled.all fun k => (σ.1.deals.get k).all fun d =>
    !(d.booking.status == .pending && d.deposit.any (·.status == .pending))
  | _, _ => true

/-! ## The payment and the deposit -/

/-- The deposit waits for the payment exactly as long as there is none. -/
def Deal.PaidTogether (d : Deal) : Prop :=
  ∀ dep, d.deposit = some dep →
    (d.payment = none ↔ dep.status = .pending ∨ dep.status = .cancelled)

/-- The deposit of `d'` is held only if that of `d` is. -/
def Deal.HeldSince (d d' : Deal) : Prop :=
  ∀ dep', d'.deposit = some dep' → dep'.status = .held →
    ∃ dep, d.deposit = some dep ∧ dep.status = .held

namespace Deal.HeldSince

theorem of_deposit (h : d'.deposit = d.deposit) : d.HeldSince d' := fun dep hdep hs =>
  ⟨dep, h ▸ hdep, hs⟩

theorem setDepositStatus (status : DepositStatus) (hne : status ≠ .held) (d' : Deal) :
    d.HeldSince (d'.setDepositStatus status) := by
  intro dep hdep hs
  obtain ⟨x, -, rfl⟩ := Option.map_eq_some_iff.mp hdep
  exact absurd hs hne

theorem onlyIf {c : Bool} {f : Deal → Deal} (h : d.HeldSince d') (hf : d.HeldSince (f d')) :
    d.HeldSince (d'.onlyIf c f) := by
  cases c
  · exact h
  · exact hf

theorem trans_deposit {d'' : Deal} (h : d.HeldSince d') (he : d''.deposit = d'.deposit) :
    d.HeldSince d'' := fun dep hdep hs => h dep (he ▸ hdep) hs

end Deal.HeldSince

open Deal

theorem Action.heldSince_apply {action : Action}
    (hne : ∀ borrowerId amount key charge hold, action ≠ .pay borrowerId amount key charge hold)
    (d : Deal) : d.HeldSince (action.apply k d) := by
  cases action with
  | pay => exact absurd rfl (hne _ _ _ _ _)
  | cancel actorId isBorrower statusRead depositRead refundId dbNow =>
    have hcancel : d.HeldSince ((d.cancelBooking (cancellationReasonOf isBorrower)).onlyIf
        (depositRead.any (·.status == .pending)) (Deal.setDepositStatus .cancelled)) :=
      HeldSince.onlyIf (.of_deposit rfl) (.setDepositStatus _ (by simp) _)
    have hrefund : d.HeldSince (preHandoverRefund depositRead refundId dbNow
        ((d.cancelBooking (cancellationReasonOf isBorrower)).onlyIf
          (depositRead.any (·.status == .pending)) (Deal.setDepositStatus .cancelled))) := by
      cases depositRead with
      | none => exact hcancel
      | some x => exact hcancel.onlyIf (HeldSince.setDepositStatus .resolving (by simp) _)
    exact hrefund
  | expire =>
    have hsame : d.HeldSince (d.cancelBooking .pendingTimeout) := .of_deposit rfl
    exact hsame.onlyIf (.setDepositStatus _ (by simp) _)
  | confirmAct stage actorId confirmedAt ends completes =>
    have hopen : d.HeldSince (openWindow ends d) := by
      cases ends with
      | none => exact .of_deposit rfl
      | some endsAt =>
        intro dep hdep hs
        obtain ⟨x, hx, rfl⟩ := Option.map_eq_some_iff.mp hdep
        exact ⟨x, hx, hs⟩
    refine hopen.trans_deposit ?_
    cases ends <;> simp [apply, openWindow]
  | complete => exact .of_deposit (by simp [apply])
  | openDispute => exact .setDepositStatus _ (by simp) _
  | resolve =>
    exact (HeldSince.setDepositStatus .resolving (by simp) d).trans_deposit
      (by simp [apply])
  | autoRefund =>
    exact (HeldSince.setDepositStatus .resolving (by simp) d).trans_deposit
      (by simp [apply])
  | retry | postpone | decline => exact .of_deposit rfl
  | settle o kind amount providerId now resolved =>
    intro dep hdep hs
    simp only [apply, Deal.deposit_onlyIf, Deal.deposit_completeAfterReturn, ite_self,
      Deal.updateDeposit, Deal.updateOperation] at hdep
    obtain ⟨x, -, rfl⟩ := Option.map_eq_some_iff.mp hdep
    cases resolved <;> cases hs

/-- **Only a checkout holds a deposit.** -/
theorem DealMove.heldSince_apply {m : DealMove}
    (hne : ∀ borrowerId amount key charge hold, m ≠ .act (.pay borrowerId amount key charge hold))
    (d : Deal) : d.HeldSince (m.apply k d) := by
  cases m with
  | act action =>
    exact Action.heldSince_apply (fun _ _ _ _ _ h => hne _ _ _ _ _ (congrArg DealMove.act h)) d
  | compete lenderId =>
    have hcancel : d.HeldSince (d.cancelIfPending .competingRequestConfirmed).cancelPendingDeposit :=
      HeldSince.onlyIf (.of_deposit (by simp [Deal.cancelIfPending])) (.setDepositStatus _ (by simp) _)
    exact hcancel.trans_deposit (by simp [apply, Deal.compete])
  | idle | claim => exact .of_deposit rfl
  | createAct | confirm | blocked =>
    exact .of_deposit (by simp [apply, Deal.confirm, Deal.blocked, Deal.cancelIfPending])

theorem DealMove.paidTogether_apply {m : DealMove} (h : d.PaidTogether) (hg : m.guard k d w) :
    (m.apply k d).PaidTogether := by
  have hsome := Deal.isSome_deposit_of_depositTerms (m.depositTerms_apply (k := k) d)
  intro dep' hdep'
  rw [hdep', Option.isSome_some, eq_comm, Option.isSome_iff_exists] at hsome
  obtain ⟨dep, hdep⟩ := hsome
  by_cases hpay : ∃ borrowerId amount key charge hold,
      m = .act (.pay borrowerId amount key charge hold)
  · obtain ⟨borrowerId, amount, key, charge, hold, rfl⟩ := hpay
    obtain ⟨-, -, -, ⟨snapshot, -, -, -, hhold, -⟩, -⟩ := hg
    obtain ⟨hold, rfl⟩ := Option.isSome_iff_exists.mp (hhold.mpr (by simp [hdep]))
    have hheld : dep' = { dep with status := .held } := by
      simpa [apply, Action.apply, Action.payHold, hdep, eq_comm] using hdep'
    simp [apply, Action.apply, hheld]
  · have hne : ∀ borrowerId amount key charge hold,
        m ≠ .act (.pay borrowerId amount key charge hold) :=
      fun _ _ _ _ _ he => hpay ⟨_, _, _, _, _, he⟩
    rw [DealMove.payment_apply hne, h dep hdep]
    obtain ⟨dep'', hdep'', hbecomes⟩ := DealMove.depositStatus_apply hg hdep
    rw [hdep', Option.some.injEq] at hdep''
    subst hdep''
    have hheld : dep'.status = .held → dep.status = .held := by
      intro hs
      obtain ⟨x, hx, hs⟩ := DealMove.heldSince_apply hne d dep' hdep' hs
      rw [hdep, Option.some.injEq] at hx
      exact hx ▸ hs
    rcases hbecomes with heq | hedge
    · rw [heq]
    · cases hs : dep.status <;> simp_all [DepositStatus.allowedTransitions]
      rcases hedge with hedge | hedge <;> simp [hedge]

/-- A dispute is about a returned booking. -/
def Deal.DisputedAfterReturn (d : Deal) : Prop :=
  d.dispute ≠ none → d.booking.status = .returned ∨ d.booking.status = .completed

theorem DealMove.disputedAfterReturn_apply {m : DealMove} (h : d.DisputedAfterReturn)
    (hg : m.guard k d w) : (m.apply k d).DisputedAfterReturn := by
  intro hne
  rcases m.dispute_apply (k := k) d with ⟨x, rfl, -⟩ | hsame
  · exact Or.inl hg.1
  · have hold : d.dispute ≠ none := by
      intro hnone
      rw [hnone, Option.map_none, Option.map_eq_none_iff] at hsame
      exact hne hsame
    have hs := h hold
    rcases DealMove.status_apply hg with ⟨l, -, hp, -⟩ | ⟨-, hchange⟩
    · rw [hp] at hs
      rcases hs with hs | hs <;> cases hs
    · generalize (m.apply k d).booking.status = s' at hchange
      rcases hs with hs | hs <;> rw [hs] at hchange <;> cases hchange <;> simp_all

/-! ## The deposit of a cancelled booking -/

/-- The deposit is cancelled or paid out. -/
def Deal.DepositClosed (d : Deal) : Prop :=
  ∀ dep, d.deposit = some dep → dep.status = .cancelled ∨ dep.status.paysOut

/-- The move does not cancel a request around its pending deposit. -/
def DealMove.TakesDeposit (d : Deal) : DealMove → Prop
  | blocked _ => d.booking.status = .pending → ∀ dep, d.deposit = some dep → dep.status ≠ .pending
  | _ => True

/-- The cancellation of an unpaid request cancels its deposit. -/
theorem Deal.Unpaid.depositClosed (h : d.Unpaid) (hd : d'.deposit = d.cancelPendingDeposit.deposit) :
    d'.DepositClosed := by
  intro dep' hdep'
  rw [hd, Deal.cancelPendingDeposit, Deal.deposit_onlyIf] at hdep'
  split at hdep'
  · obtain ⟨dep, -, rfl⟩ := Option.map_eq_some_iff.mp hdep'
    exact Or.inl rfl
  · rename_i hnot
    rw [hdep', Option.any_some, beq_iff_eq] at hnot
    exact Or.inl ((h.deposit dep' hdep').resolve_left hnot)

theorem Deal.DepositClosed.advance (h : d.DepositClosed)
    (hdeposit : ∀ dep, d.deposit = some dep → dep.Advances d'.deposit)
    (hnone : d.deposit = none → d'.deposit = none) : d'.DepositClosed := by
  intro dep' hdep'
  cases hdep : d.deposit with
  | none =>
    rw [hnone hdep] at hdep'
    cases hdep'
  | some dep =>
    obtain ⟨x, hx, hbecomes⟩ := hdeposit dep hdep
    rw [hdep', Option.some.injEq] at hx
    subst hx
    rcases h dep hdep with hs | hs
    · rcases hbecomes with heq | hedge
      · exact Or.inl (heq.trans hs)
      · simp [hs, DepositStatus.allowedTransitions] at hedge
    · exact Or.inr (hbecomes.paysOut hs)

/-- A cancelled booking has no open deposit. -/
def Deal.ClosedWhenCancelled (d : Deal) : Prop :=
  d.booking.status = .cancelled → d.DepositClosed

theorem Action.closed_apply {action : Action} (hpending : d.booking.status = .pending → d.Unpaid)
    (hold : d.booking.status ≠ .cancelled) (hg : action.guard k d w) :
    (action.apply k d).ClosedWhenCancelled := by
  have hcomplete : ∀ (d' : Deal) trigger now, d'.booking.status = d.booking.status →
      action.apply k d = d'.completeAfterReturn trigger now →
      (action.apply k d).ClosedWhenCancelled := by
    intro d' trigger now hs he hcancelled
    rw [he] at hcancelled
    rcases d'.status_completeAfterReturn trigger now with h | ⟨-, h⟩
    · rw [h, hs] at hcancelled
      exact absurd hcancelled hold
    · rw [h] at hcancelled
      cases hcancelled
  cases action with
  | cancel actorId isBorrower statusRead depositRead refundId dbNow =>
    intro _ dep' hdep'
    obtain ⟨-, -, ⟨-, hunpaid, hheld, hread⟩ | ⟨-, -, -, rfl, hstatus⟩⟩ := hg
    · -- the deposit is pending only if it was read as pending
      simp only [apply, Deal.addMessage, Deal.addTransition, Deal.addOutbox,
        preHandoverRefund_eq_self hheld, Deal.deposit_onlyIf] at hdep'
      split at hdep'
      · obtain ⟨dep, -, rfl⟩ := Option.map_eq_some_iff.mp hdep'
        exact Or.inl rfl
      · rename_i hnot
        have hdep : d.deposit = some dep' := hdep'
        have hnone := hread (by simpa using hnot)
        rw [hdep, Option.any_some, beq_eq_false_iff_ne] at hnone
        exact Or.inl ((hunpaid.deposit dep' hdep).resolve_left hnone)
    · cases hdep : d.deposit with
      | none => simp [apply, preHandoverRefund, hdep] at hdep'
      | some dep =>
        rcases hstatus dep hdep with hs | ⟨hs, -⟩
        · simp only [apply, preHandoverRefund, hdep, hs, Deal.addMessage, Deal.addTransition,
            Deal.addOutbox, Option.any_some] at hdep'
          obtain rfl : { dep with status := .cancelled } = dep' := by simpa [hdep, hs] using hdep'
          exact Or.inl rfl
        · obtain rfl : { dep with status := .resolving } = dep' := by
            simpa [apply, preHandoverRefund, hdep, hs] using hdep'
          exact Or.inr (Or.inl rfl)
  | expire now =>
    intro _
    have hp : d.booking.status = .pending := by
      have hexpired : BookingExpiryService.expired now d.booking = true := hg
      simp only [BookingExpiryService.expired, Bool.and_eq_true, beq_iff_eq] at hexpired
      exact hexpired.1
    exact Deal.Unpaid.depositClosed (hpending hp) (by simp [apply, Deal.cancelPendingDeposit])
  | confirmAct stage actorId confirmedAt ends completes =>
    have hnext : ∀ c, ((apply k (.confirmAct stage actorId confirmedAt ends c) d).booking.status =
        .cancelled → False) := by
      intro c hcancelled
      cases c with
      | false => cases stage <;> simp [apply, BookingActService.nextStatus] at hcancelled
      | true =>
        simp only [apply, Deal.onlyIf_true] at hcancelled
        rcases Deal.status_completeAfterReturn .zeroDepositReturn confirmedAt _ with h | ⟨-, h⟩
        · rw [h] at hcancelled
          cases stage <;> simp [BookingActService.nextStatus] at hcancelled
        · rw [h] at hcancelled
          cases hcancelled
    exact fun hcancelled => (hnext completes hcancelled).elim
  | pay | openDispute | retry | postpone | decline =>
    intro hcancelled
    exact absurd (by simpa [apply] using hcancelled) hold
  | complete => exact hcomplete d _ _ rfl rfl
  | resolve => exact hcomplete _ _ _ (by simp) rfl
  | autoRefund =>
    refine hcomplete _ _ _ ?_ rfl
    rfl
  | settle o kind amount providerId now resolved =>
    cases resolved with
    | false =>
      intro hcancelled
      exact absurd hcancelled hold
    | true =>
      refine hcomplete _ _ _ ?_ rfl
      rfl

/-- **A move that takes the deposit along closes it with the booking.** -/
theorem DealMove.closed_apply {m : DealMove} (h : d.ClosedWhenCancelled)
    (hpending : d.booking.status = .pending → d.Unpaid) (hg : m.guard k d w)
    (ht : m.TakesDeposit d) : (m.apply k d).ClosedWhenCancelled := by
  by_cases hold : d.booking.status = .cancelled
  · intro _
    refine (h hold).advance (fun dep hdep => DealMove.depositStatus_apply hg hdep) fun hnone => ?_
    have := Deal.isSome_deposit_of_depositTerms (m.depositTerms_apply (k := k) d)
    simpa [hnone] using this
  cases m with
  | act action => exact Action.closed_apply hpending hold hg
  | compete lenderId =>
    intro _
    refine Deal.Unpaid.depositClosed hg ?_
    simp [apply, Deal.compete, Deal.cancelIfPending, Deal.cancelPendingDeposit]
  | blocked blockerId =>
    intro _ dep' hdep'
    have hdep : d.deposit = some dep' := by
      simpa [apply, Deal.blocked, Deal.cancelIfPending] using hdep'
    have hs : d.booking.status = .pending := hg.status.resolve_right hold
    exact Or.inl ((hg.deposit dep' hdep).resolve_left (ht hs dep' hdep))
  | confirm =>
    intro hcancelled
    simp [apply, Deal.confirm] at hcancelled
  | idle | claim => exact fun hcancelled => absurd hcancelled hold
  | createAct =>
    intro hcancelled
    exact absurd (by simpa [apply] using hcancelled) hold

/-! ## Runs -/

variable {sha256 : Bytes → String} {s₀ s : State Sys}

structure Deal.CancelFacts (d : Deal) : Prop where
  paid : d.PaidTogether
  disputed : d.DisputedAfterReturn
  closed : d.ClosedWhenCancelled

theorem DraftedFrom.cancelFacts {read : BookableItem} (h : DraftedFrom read d) :
    d.CancelFacts := by
  obtain ⟨hunpaid, hpending⟩ := h.unpaid
  refine ⟨fun dep hdep => ?_, fun hne => absurd hunpaid.dispute hne, fun hc => ?_⟩
  · simp [hunpaid.payment, hunpaid.deposit dep hdep]
  · rw [hpending] at hc
    cases hc

theorem takesDeposit_of_blocksNoDeposit {ev : Event} {a : Store}
    (hok : blocksNoDeposit ev a = true) (hd : a.1.deals.get k = some d) :
    (ev.move k).TakesDeposit d := by
  cases ev with
  | block blockerId blockedId cancelled seen now =>
    simp only [Event.move]
    split
    · rename_i hmem
      intro hs dep hdep
      have := List.all_eq_true.mp hok k hmem
      simpa [hd, hs, hdep] using this
    · trivial
  | confirm id lenderId competitors =>
    simp only [Event.move]
    split
    · trivial
    · split <;> trivial
  | deal | createAct | claim => simp only [Event.move]; split <;> trivial
  | _ => trivial

theorem Runs.cancelFacts (h : Runs sha256 (fun ev σ => blocksNoDeposit ev σ = true) s₀ s) :
    ∀ k d, s.db.deals.get k = some d → d.CancelFacts := by
  refine h.invariant (P := fun σ => ∀ k d, σ.1.deals.get k = some d → d.CancelFacts) ?_ ?_
  · intro σ hi
    simp [hi.deals]
  · intro ev K a b hinv hok hg ha k d' hd'
    rcases hg.get_inv hd' with ⟨d, hd, rfl, hguard, -⟩ | ⟨-, read, -, hnew⟩
    · have hold := ha k d hd
      exact ⟨DealMove.paidTogether_apply hold.paid hguard,
        DealMove.disputedAfterReturn_apply hold.disputed hguard,
        DealMove.closed_apply hold.closed (hinv.pending k d hd) hguard
          (takesDeposit_of_blocksNoDeposit hok hd)⟩
    · exact hnew.cancelFacts

theorem Deal.Balanced.refundsAll (h : d.Balanced) (hdep : d.deposit = some dep)
    (hs : dep.status.paysOut) (hdispute : d.dispute = none) : d.RefundsAll dep := by
  have hdecided := h.decided hdep hs
  rw [hdispute] at hdecided
  exact ⟨hdecided.planned .refund, hdecided.planned .releaseToLender⟩

/-- **A cancelled booking holds no open deposit**, in every run in which a block cancels no
request with a pending deposit. -/
theorem cancelled_closed (h : Runs sha256 (fun ev σ => blocksNoDeposit ev σ = true) s₀ s)
    (hd : s.db.deals.get k = some d) (hs : d.booking.status = .cancelled)
    (hdep : d.deposit = some dep) : d.Closed dep := by
  have hfacts := h.cancelFacts k d hd
  rcases hfacts.closed hs dep hdep with hcancelled | hpaysOut
  · exact Or.inl ⟨(hfacts.paid dep hdep).mpr (Or.inr hcancelled), hcancelled⟩
  · have hdispute : d.dispute = none := by
      by_contra hne
      rcases hfacts.disputed hne with h | h <;> rw [hs] at h <;> cases h
    refine Or.inr ⟨?_, hpaysOut, (h.balanced k d hd).refundsAll hdep hpaysOut hdispute⟩
    rw [← Option.ne_none_iff_exists']
    intro hnone
    have huntaken := (hfacts.paid dep hdep).mp hnone
    rcases hpaysOut with hp | hp <;> rw [hp] at huntaken <;> rcases huntaken with h | h <;> cases h

namespace Scenario

/-- A request with a deposit, and what ends it. -/
def requestThen (c : Call) : List Line := [.call (create 1 10 "r1"), .run 0 15, .call c, .run 1 14]

/-- The borrower withdraws the request. -/
theorem cancelled_closed_withdrawn : ∃ d dep,
    (play (fun ev σ => blocksNoDeposit ev σ = true) hash state
        (requestThen (.cancelPending env 1 10 start start 21))).db.deals.get 10 = some d ∧
      d.booking.status = .cancelled ∧ d.deposit = some dep ∧ d.Closed dep := by
  have hdeal : ((play (fun ev σ => blocksNoDeposit ev σ = true) hash state
      (requestThen (.cancelPending env 1 10 start start 21))).db.deals.get 10).map
        (fun d => (d.booking.status, d.deposit.isSome)) = some (.cancelled, true) := by
    decide +kernel
  obtain ⟨d, hd, hboth⟩ := Option.map_eq_some_iff.mp hdeal
  obtain ⟨hs, hsome⟩ := Prod.mk.inj hboth
  obtain ⟨dep, hdep⟩ := Option.isSome_iff_exists.mp hsome
  exact ⟨d, dep, hd, hs, hdep, cancelled_closed ((runs _).play _) hd hs hdep⟩

/-- The lender blocks the borrower. -/
theorem cancelled_pendingDeposit : ∃ d dep,
    Runs hash anyEvent state (play anyEvent hash state (requestThen (.blockUser 2 1))) ∧
      (play anyEvent hash state (requestThen (.blockUser 2 1))).db.deals.get 10 = some d ∧
      d.booking.status = .cancelled ∧ d.deposit = some dep ∧ dep.status = .pending ∧
      ¬d.Closed dep := by
  have hdeal : ((play anyEvent hash state (requestThen (.blockUser 2 1))).db.deals.get 10).map
      (fun d => (d.booking.status, d.deposit.map (·.status))) =
        some (.cancelled, some .pending) := by decide +kernel
  obtain ⟨d, hd, hboth⟩ := Option.map_eq_some_iff.mp hdeal
  obtain ⟨hs, hsome⟩ := Prod.mk.inj hboth
  obtain ⟨dep, hdep, hp⟩ := Option.map_eq_some_iff.mp hsome
  refine ⟨d, dep, (runs anyEvent).play _, hd, hs, hdep, hp, ?_⟩
  rintro (⟨-, hc⟩ | ⟨-, hc | hc, -⟩) <;> rw [hp] at hc <;> cases hc

end Scenario

end Sosedi
