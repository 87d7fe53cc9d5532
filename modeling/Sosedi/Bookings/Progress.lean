import Sosedi.Bookings.History
import Sosedi.Deals.Constants

/-!
# How a booking goes on

Between any two states of a run, whatever its clients do.

Proved here:

* `DealMove.history_addedTo`: a move adds rows to the history, and the one of a completion if and
  only if it completes the booking;
* `booking_progress`: what a booking was agreed on, paid and settled is final, its status follows
  the workflow, its history is only added to, and its completion is recorded once.
-/

namespace Sosedi

open Transactions

variable {d d' d'' : Deal} {k : Id} {w : World} {m : DealMove}

/-! ## The history -/

/-- One if the booking is completed. -/
def BookingStatus.completions (status : BookingStatus) : Nat :=
  if status = .completed then 1 else 0

def Deal.completionRows (d : Deal) : Nat := d.history.countP (·.newStatus == .completed)

/-- Rows are added, and one of a completion if and only if the booking is completed. -/
def Deal.AddedTo (d d' : Deal) : Prop :=
  ∃ rows, d'.history = d.history ++ rows ∧
    rows.countP (·.newStatus == .completed) + d.booking.status.completions =
      d'.booking.status.completions

namespace Deal.AddedTo

theorem of_same (hhistory : d'.history = d.history)
    (hstatus : d'.booking.status = d.booking.status) : d.AddedTo d' :=
  ⟨[], by rw [hhistory, List.append_nil], by rw [hstatus]; simp⟩

theorem refl (d : Deal) : d.AddedTo d := of_same rfl rfl

theorem trans (h : d.AddedTo d') (h' : d'.AddedTo d'') : d.AddedTo d'' := by
  obtain ⟨rows, hrows, hcount⟩ := h
  obtain ⟨rows', hrows', hcount'⟩ := h'
  refine ⟨rows ++ rows', by rw [hrows', hrows, List.append_assoc], ?_⟩
  rw [List.countP_append]
  omega

/-- A row that is no completion. -/
theorem add (row : BookingTransition) (hhistory : d'.history = d.history ++ [row])
    (hrow : row.newStatus ≠ .completed) (hbefore : d.booking.status ≠ .completed)
    (hafter : d'.booking.status ≠ .completed) : d.AddedTo d' :=
  ⟨[row], hhistory, by simp [BookingStatus.completions, hrow, hbefore, hafter]⟩

theorem completeAfterReturn (h : d.AddedTo d') (trigger : BookingCompletionTrigger) (now : Time) :
    d.AddedTo (d'.completeAfterReturn trigger now) := by
  refine h.trans ?_
  rcases d'.completeAfterReturn_cases trigger now with ⟨he, -⟩ | ⟨-, hreturned, he⟩
  · rw [he]
    exact refl _
  · rw [he]
    refine ⟨[completeTransition trigger], rfl, ?_⟩
    rw [hreturned]
    rfl

end Deal.AddedTo

theorem Action.history_addedTo {action : Action} (hg : action.guard k d w) :
    d.AddedTo (action.apply k d) := by
  cases action with
  | cancel actorId isBorrower statusRead depositRead refundId dbNow =>
    have hstatus : d.booking.status ≠ .completed := by
      obtain ⟨-, -, ⟨-, hu, -⟩ | ⟨-, hs, -⟩⟩ := hg
      · exact hu.status_ne.2.2.2
      · simp [hs]
    exact .add (BookingService.cancelTransition actorId isBorrower statusRead) (by simp [apply])
      (by simp [BookingService.cancelTransition]) hstatus (by simp [apply])
  | expire now =>
    have hexpired : BookingExpiryService.expired now d.booking = true := hg
    simp only [BookingExpiryService.expired, Bool.and_eq_true, beq_iff_eq] at hexpired
    exact .add BookingExpiryService.expireTransition
      (by simp [apply, Deal.cancelPendingDeposit])
      (by simp [BookingExpiryService.expireTransition]) (by simp [hexpired.1])
      (by simp [apply, Deal.cancelPendingDeposit])
  | confirmAct stage actorId confirmedAt ends completes =>
    obtain ⟨-, -, hstatus, -⟩ := hg
    have hconfirmed : d.AddedTo (apply k (.confirmAct stage actorId confirmedAt ends false) d) := by
      refine .add (BookingActService.confirmTransition stage actorId) (by simp [apply]) ?_ ?_ ?_
      · cases stage <;> simp [BookingActService.confirmTransition]
      · rw [hstatus]
        cases stage <;> simp [BookingActService.expectedStatus]
      · cases stage <;> simp [apply, BookingActService.nextStatus]
    cases completes with
    | false => exact hconfirmed
    | true => exact hconfirmed.completeAfterReturn _ _
  | pay => exact .of_same (by simp [apply]) (by simp [apply])
  | complete => exact (Deal.AddedTo.refl d).completeAfterReturn _ _
  | openDispute | retry | postpone | decline => exact .of_same rfl rfl
  | resolve =>
    refine Deal.AddedTo.completeAfterReturn ?_ _ _
    exact .of_same (by simp) (by simp)
  | autoRefund =>
    refine Deal.AddedTo.completeAfterReturn ?_ _ _
    exact .of_same rfl rfl
  | settle o kind amount providerId now resolved =>
    have hsettled : d.AddedTo (apply k (.settle o kind amount providerId now false) d) :=
      .of_same rfl rfl
    cases resolved with
    | false => exact hsettled
    | true =>
      refine Deal.AddedTo.completeAfterReturn ?_ _ _
      exact .of_same rfl rfl

/-- **A move records what it does.** -/
theorem DealMove.history_addedTo (hg : m.guard k d w) : d.AddedTo (m.apply k d) := by
  cases m with
  | idle => exact .refl d
  | act action => exact Action.history_addedTo hg
  | createAct => exact .of_same (by simp [apply]) (by simp [apply])
  | confirm lenderId =>
    exact .add (BookingService.confirmTransition lenderId) (by simp [apply, Deal.confirm])
      (by simp [BookingService.confirmTransition]) (by simp [hg.1]) (by simp [apply, Deal.confirm])
  | compete lenderId =>
    have hstatus : d.booking.status ≠ .completed := hg.status_ne.2.2.2
    refine .add (BookingService.competingTransition lenderId)
      (by simp [apply, Deal.compete, Deal.cancelIfPending, Deal.cancelPendingDeposit])
      (by simp [BookingService.competingTransition]) hstatus ?_
    by_cases hpending : d.booking.status = .pending
    · simp [apply, Deal.compete, Deal.cancelIfPending, Deal.cancelPendingDeposit, hpending]
    · simp [apply, Deal.compete, Deal.cancelIfPending, Deal.cancelPendingDeposit, hpending, hstatus]
  | blocked blockerId =>
    have hstatus : d.booking.status ≠ .completed := hg.status_ne.2.2.2
    refine .add (UsersService.blockTransition blockerId)
      (by simp [apply, Deal.blocked, Deal.cancelIfPending])
      (by simp [UsersService.blockTransition]) hstatus ?_
    by_cases hpending : d.booking.status = .pending
    · simp [apply, Deal.blocked, Deal.cancelIfPending, hpending]
    · simp [apply, Deal.blocked, Deal.cancelIfPending, hpending, hstatus]
  | claim => exact .of_same rfl rfl

/-! ## The status -/

/-- Along the transitions of `WORKFLOW_CONTRACTS.booking`. -/
def BookingStatus.Leads : BookingStatus → BookingStatus → Prop :=
  Relation.ReflTransGen fun source target => bookingEdge (some source) target = true

theorem StatusChange.leads {s s' : BookingStatus} (h : StatusChange s s') : s.Leads s' := by
  cases h with
  | same => exact .refl
  | cancel h =>
    refine .single ?_
    rcases h with rfl | rfl <;> rfl
  | activate | «return» | complete => exact .single rfl
  | returnAndComplete => exact .tail (.single (b := .returned) rfl) rfl

theorem DealMove.leads_apply (hg : m.guard k d w) :
    d.booking.status.Leads (m.apply k d).booking.status := by
  rcases status_apply hg with ⟨l, -, hpending, hconfirmed⟩ | ⟨-, hchange⟩
  · rw [hpending, hconfirmed]
    exact .single rfl
  · exact hchange.leads

/-! ## Operations -/

/-- An operation that has ended stays as it is. -/
theorem DealMove.ended_apply (hg : m.guard k d w) {o : Id} {op : DepositOperation}
    (hop : d.operations.get o = some op) (hended : op.status ≠ .pending) :
    (m.apply k d).operations.get o = some op := by
  refine operation_apply hop fun hkey => ?_
  have hpending : ∀ {op' : DepositOperation}, d.operations.get o = some op' →
      op'.status ≠ .pending := fun hop' => Option.some.inj (hop.symm.trans hop') ▸ hended
  cases m with
  | claim o' now u =>
    obtain rfl : o = o' := by simpa [keys] using hkey
    obtain ⟨op', hop', hclaimable⟩ := hg
    refine hpending hop' ?_
    simp only [DepositOperationProcessor.claimable, Bool.and_eq_true, beq_iff_eq] at hclaimable
    exact hclaimable.1.1
  | act action =>
    cases action with
    | postpone o' | decline o' =>
      obtain rfl : o = o' := by simpa [keys, Action.operationId, Action.writesBooking] using hkey
      obtain ⟨op', hop', hs⟩ := hg
      exact hpending hop' hs
    | settle o' =>
      obtain rfl : o = o' := by simpa [keys, Action.operationId, Action.writesBooking] using hkey
      obtain ⟨⟨op', hop', hs, -⟩, -⟩ := hg
      exact hpending hop' hs
    | _ => simp [keys, Action.operationId, Action.writesBooking] at hkey
  | compete | blocked =>
    simp only [keys, List.mem_cons, reduceCtorEq, false_or] at hkey
    split at hkey <;> simp at hkey
  | _ => simp [keys] at hkey

/-! ## Runs -/

theorem DraftedFrom.completionRows {read : BookableItem} (h : DraftedFrom read d) :
    d.completionRows = d.booking.status.completions := by
  obtain ⟨policy, terms, borrowerId, itemId, period, requestId, hash, now, dbNow, draft, hdraft,
    rfl⟩ := h
  simp only [draftBooking, bind_eq_ok] at hdraft
  obtain ⟨price, -, money, -, hdraft⟩ := hdraft
  cases hdraft
  rfl

/-- What a later state still has of a deal. -/
structure Deal.Progress (d d' : Deal) : Prop where
  terms : d'.booking.terms = d.booking.terms
  depositTerms : d'.depositTerms = d.depositTerms
  payment : ∀ payment, d.payment = some payment → d'.payment = some payment
  ended : ∀ o op, d.operations.get o = some op → op.status ≠ .pending →
    d'.operations.get o = some op
  status : d.booking.status.Leads d'.booking.status
  addedTo : d.AddedTo d'

theorem DealMove.progress_apply (hg : m.guard k d w) : d.Progress (m.apply k d) where
  terms := terms_apply k m d
  depositTerms := m.depositTerms_apply d
  payment payment hpayment := by
    refine (DealMove.payment_apply ?_ d).trans hpayment
    rintro borrowerId amount key charge hold rfl
    have hnone : d.payment = none := hg.2.2.1
    rw [hnone] at hpayment
    cases hpayment
  ended _ _ hop hended := ended_apply hg hop hended
  status := leads_apply hg
  addedTo := history_addedTo hg

/-- **A booking goes on as agreed**, between any two states of a run. -/
theorem booking_progress {sha256 : Bytes → String} {ok : Event → Store → Prop}
    {s₀ s s' : State Sys} (h : Runs sha256 ok s₀ s) (hr : Reaches (Calls sha256) ok s s')
    (hd : s.db.deals.get k = some d) : ∃ d', s'.db.deals.get k = some d' ∧ d.Progress d' ∧
      d'.completionRows = d'.booking.status.completions := by
  obtain ⟨d', hd', hprogress⟩ := h.later hr (R := Deal.Progress)
    (fun d => ⟨rfl, rfl, fun _ h => h, fun _ _ h _ => h, .refl, .refl d⟩)
    (fun d d' d'' h h' => ⟨h'.terms.trans h.terms, h'.depositTerms.trans h.depositTerms,
      fun p hp => h'.payment p (h.payment p hp),
      fun o op hop he => h'.ended o op (h.ended o op hop he) he,
      h.status.trans h'.status, h.addedTo.trans h'.addedTo⟩)
    (fun _ _ _ _ hg => DealMove.progress_apply hg) hd
  refine ⟨d', hd', hprogress, ?_⟩
  have hrows : ∀ k d, s'.db.deals.get k = some d →
      d.completionRows = d.booking.status.completions := by
    refine (h.trans hr).invariant (P := fun σ => ∀ k d, σ.1.deals.get k = some d →
      d.completionRows = d.booking.status.completions) ?_ ?_
    · intro σ hi
      simp [hi.deals]
    · intro ev K a b _ _ hg ha k d' hd'
      rcases hg.get_inv hd' with ⟨d, hd, rfl, hguard, -⟩ | ⟨-, read, -, hnew⟩
      · obtain ⟨rows, hhistory, hcount⟩ := DealMove.history_addedTo hguard
        rw [Deal.completionRows, hhistory, List.countP_append, ← hcount, ← ha k d hd,
          Deal.completionRows, Nat.add_comm]
      · exact hnew.completionRows
  exact hrows k d' hd'

namespace Scenario

/-- A deal that was handed over is returned. -/
theorem booking_progress_returned :
    ∃ d, (play anyEvent hash state handedOver).db.deals.get 10 = some d ∧
      d.booking.status = .active ∧
      ∃ d', (play anyEvent hash (play anyEvent hash state handedOver)
          (exchange 7 1 2 .return none 31 start)).db.deals.get 10 = some d' ∧
        d.Progress d' ∧ d'.completionRows = d'.booking.status.completions := by
  obtain ⟨d, hd, hstatus⟩ : ∃ d, (play anyEvent hash state handedOver).db.deals.get 10 = some d ∧
      d.booking.status = .active := by
    have hactive : ((play anyEvent hash state handedOver).db.deals.get 10).any
        (·.booking.status == .active) = true := by decide +kernel
    simpa [Option.any_eq_true] using hactive
  exact ⟨d, hd, hstatus, booking_progress ((runs anyEvent).play handedOver)
    (reaches_play _ (exchange 7 1 2 .return none 31 start)) hd⟩

end Scenario

end Sosedi
