import Sosedi.Bookings.Handover
import Sosedi.Deals.Agreement

/-!
# The completion of a booking

Four places call `completeBookingAfterReturnInTransaction`, each with a trigger of its own.

Proved here: while a booking is `ACTIVE` or `RETURNED` its deposit is held or disputed
(`DealMove.waiting_apply`), so only a zero-deposit return, the deadline job and a decision
complete it (`DealMove.completes_inv`); the completion is recorded once
(`DealMove.recorded_apply`); and so a booking completes only when it may
(`completes_when_allowed`).
-/

namespace Sosedi

open Transactions Attempts

variable {d d' : Deal} {k : Id} {w : World} {m : DealMove}

/-! ## Deposits of unfinished bookings -/

/-- Only a safe deal has a deposit. -/
def Deal.SafeDeposit (d : Deal) : Prop :=
  d.deposit.isSome → ∃ snapshot, d.booking.termsSnapshot = some snapshot ∧
    snapshot.paymentScenario = .fakeSafeDeal ∧ 0 < snapshot.moneyMinor.deposit

theorem Deal.SafeDeposit.apply (h : d.SafeDeposit) (m : DealMove) :
    (m.apply k d).SafeDeposit := by
  intro hsome
  rw [Deal.isSome_deposit_of_depositTerms (m.depositTerms_apply d)] at hsome
  rw [termsSnapshot_of_terms (m.terms_apply k d)]
  exact h hsome

theorem DraftedFrom.safeDeposit {read : BookableItem} (h : DraftedFrom read d) :
    d.SafeDeposit := by
  have hpriced := @h.priced
  obtain ⟨policy, terms, borrowerId, itemId, period, requestId, hash, now, dbNow, draft, hdraft,
    rfl⟩ := h
  simp only [draftBooking, bind_eq_ok] at hdraft
  obtain ⟨price, -, money, -, hdraft⟩ := hdraft
  cases hdraft
  intro hsome
  cases policy with
  | payOnHandover => simp [BookingDraft.deal, depositTermsOf] at hsome
  | fakeSafeDeal policy => exact ⟨_, rfl, rfl, (hpriced _ rfl rfl).deposit.mp hsome⟩

/-- The deposit of an `ACTIVE` booking is held, that of a `RETURNED` one held or disputed. -/
structure Deal.Waiting (d : Deal) : Prop where
  active : d.booking.status = .active → ∀ dep, d.deposit = some dep → dep.status = .held
  returned : d.booking.status = .returned →
    ∀ dep, d.deposit = some dep → dep.status = .held ∨ dep.status = .disputed

theorem Deal.Waiting.of_done (h : d.booking.status ≠ .active) (h' : d.booking.status ≠ .returned) :
    d.Waiting := ⟨fun hs => absurd hs h, fun hs => absurd hs h'⟩

theorem Deal.Waiting.of_same (h : d.Waiting) (hs : d'.booking.status = d.booking.status)
    (hdep : d'.deposit = d.deposit) : d'.Waiting :=
  ⟨fun hs' => hdep ▸ h.active (hs ▸ hs'), fun hs' => hdep ▸ h.returned (hs ▸ hs')⟩

theorem Deal.Waiting.completeAfterReturn (h : d.Waiting) (trigger : BookingCompletionTrigger)
    (now : Time) : (d.completeAfterReturn trigger now).Waiting := by
  rcases d.completeAfterReturn_cases trigger now with ⟨he, -⟩ | ⟨-, -, he⟩
  · rwa [he]
  · rw [he]
    exact .of_done (by simp) (by simp)

/-- The checks pass. -/
theorem Deal.status_of_completionCheck {trigger : BookingCompletionTrigger} {now : Time}
    (h : completionCheck trigger now d.booking d.deposit d.dispute = .ok true) :
    (d.completeAfterReturn trigger now).booking.status = .completed := by
  rcases d.completeAfterReturn_cases trigger now with ⟨-, hne⟩ | ⟨-, -, he⟩
  · exact absurd h hne
  · rw [he]
    rfl

theorem completionCheck_decided {now : Time} {booking : Booking} {dep : BookingDeposit}
    {x : FinancialDispute} (hs : booking.status = .returned) (hx : x.status = .resolved) :
    completionCheck .disputeDecided now booking (some dep) (some x) = .ok true := by
  simp [completionCheck, hs, hx]

theorem completionCheck_windowClosed {now endsAt : Time} {booking : Booking}
    {dep : BookingDeposit} (hs : booking.status = .returned)
    (hends : dep.disputeWindowEndsAt = some endsAt) (hle : endsAt ≤ now) :
    completionCheck .disputeWindowClosed now booking (some dep) none = .ok true := by
  simp [completionCheck, hs, hends, hle]

namespace Action

/-- A decision completes the booking. -/
theorem completed_resolve {adminId : Id} {reason key : String} {refundMinor releaseMinor : Int}
    {refundId releaseId : Id} {now dbNow : Time}
    (hg : (resolve adminId reason refundMinor releaseMinor key refundId releaseId now dbNow).guard
      k d w) :
    ((resolve adminId reason refundMinor releaseMinor key refundId releaseId now dbNow).apply k
      d).booking.status = .completed := by
  obtain ⟨⟨x, hx, -⟩, hreturned, -, -, ⟨dep, hdep, -⟩, -⟩ := hg
  simp only [apply]
  refine Deal.status_of_completionCheck ?_
  simp only [Deal.addAudit, Deal.updateDispute, Deal.setDepositStatus, Deal.updateDeposit,
    Action.dispute_createLeg, Action.deposit_createLeg, hx, hdep, Option.map_some]
  exact completionCheck_decided (by simpa using hreturned) rfl

/-- An automatic refund completes the booking. -/
theorem completed_autoRefund {amount : Decimal} {operationId : Id} {now dbNow : Time}
    (hg : (autoRefund amount operationId now dbNow).guard k d w) :
    ((autoRefund amount operationId now dbNow).apply k d).booking.status = .completed := by
  obtain ⟨hreturned, hdispute, -, dep, hdep, hdue, -⟩ := hg
  simp only [DepositDeadlineService.due, Bool.and_eq_true, beq_iff_eq] at hdue
  obtain ⟨endsAt, hends, hle⟩ := (Option.any_eq_true _ _).mp hdue.2
  simp only [apply]
  refine Deal.status_of_completionCheck ?_
  simp only [Deal.setDepositStatus, Deal.updateDeposit, Deal.createOperation, hdispute, hdep,
    Option.map_some]
  exact completionCheck_windowClosed hreturned hends (by simpa using hle)

theorem waiting_confirmAct {stage : BookingActStage} {actorId : Id} {confirmedAt : Time}
    {ends : Option Time} {completes : Bool} (h : d.Waiting) (hsafe : d.SafeDeposit)
    (hg : (confirmAct stage actorId confirmedAt ends completes).guard k d w) :
    ((confirmAct stage actorId confirmedAt ends completes).apply k d).Waiting := by
  obtain ⟨-, -, hstatus, hread, hpaid, hends, hcompletes, -⟩ := hg
  have hdeposit : ∀ dep', ((confirmAct stage actorId confirmedAt ends completes).apply k
      d).deposit = some dep' → ∃ dep, d.deposit = some dep ∧ dep'.status = dep.status := by
    intro dep' hdep'
    cases ends with
    | none => exact ⟨dep', by simpa [apply, openWindow] using hdep', rfl⟩
    | some endsAt =>
      simp only [apply, openWindow, Deal.deposit_onlyIf] at hdep'
      have hmap : d.deposit.map ({ · with disputeWindowEndsAt := some endsAt }) = some dep' := by
        simpa using hdep'
      obtain ⟨dep, hdep, rfl⟩ := Option.map_eq_some_iff.mp hmap
      exact ⟨dep, hdep, rfl⟩
  cases stage with
  | handover =>
    obtain rfl : completes = false := hcompletes
    refine ⟨fun _ dep' hdep' => ?_, fun hs => ?_⟩
    · obtain ⟨dep, hdep, hsame⟩ := hdeposit dep' hdep'
      obtain ⟨snapshot, hsnapshot, hfake, hpos⟩ := hsafe (by simp [hdep])
      obtain ⟨snapshot', hbound⟩ := Option.isSome_iff_exists.mp (hread (by simp [hsnapshot]))
      obtain ⟨rfl, -⟩ := eq_of_boundSnapshot hsnapshot hfake hbound
      rw [hbound] at hpaid
      obtain ⟨-, hheld⟩ := BookingActService.ensureHandoverPaid_eq_ok hfake hpaid
      obtain ⟨dep₀, hdep₀, hs⟩ := hheld hpos
      rw [hdep, Option.some.injEq] at hdep₀
      rw [hsame, hdep₀, hs]
    · simp [apply, BookingActService.nextStatus] at hs
  | «return» =>
    refine ⟨fun hs => ?_, fun _ dep' hdep' => ?_⟩
    · cases completes with
      | false => simp [apply, BookingActService.nextStatus] at hs
      | true =>
        simp only [apply, Deal.onlyIf_true] at hs
        rcases Deal.status_completeAfterReturn .zeroDepositReturn confirmedAt _ with he | ⟨-, he⟩
        · rw [he] at hs
          simp [BookingActService.nextStatus] at hs
        · rw [he] at hs
          cases hs
    · obtain ⟨dep, hdep, hsame⟩ := hdeposit dep' hdep'
      exact Or.inl (hsame.trans (h.active hstatus dep hdep))

end Action

theorem DealMove.waiting_apply (h : d.Waiting) (hsafe : d.SafeDeposit) (hg : m.guard k d w) :
    (m.apply k d).Waiting := by
  cases m with
  | idle => exact h
  | claim => exact h.of_same rfl rfl
  | createAct => exact h.of_same (by simp [apply]) (by simp [apply])
  | confirm => exact .of_done (by simp [apply, Deal.confirm]) (by simp [apply, Deal.confirm])
  | compete | blocked =>
    have hunpaid : d.Unpaid := hg
    refine .of_done ?_ ?_ <;>
      rcases hunpaid.status with hs | hs <;>
        simp [apply, Deal.compete, Deal.blocked, Deal.cancelIfPending, Deal.cancelPendingDeposit, hs]
  | act action =>
    cases action with
    | cancel | expire =>
      refine .of_done ?_ ?_ <;> simp [apply, Action.apply, Deal.cancelPendingDeposit]
    | confirmAct => exact Action.waiting_confirmAct (k := k) (w := w) h hsafe hg
    | pay =>
      refine .of_done ?_ ?_ <;> simp [apply, Action.apply, hg.2.1]
    | complete => exact h.completeAfterReturn _ _
    | openDispute x =>
      obtain ⟨hreturned, -, -, -, -, dep, -, hdep, -⟩ := hg
      refine ⟨fun hs => ?_, fun _ dep' hdep' => Or.inr ?_⟩
      · exact absurd (hreturned.symm.trans hs) (by decide)
      · simp only [apply, Action.apply, Deal.setDepositStatus, Deal.updateDeposit, hdep,
          Option.map_some, Option.some.injEq] at hdep'
        rw [← hdep']
    | resolve adminId reason refundMinor releaseMinor key refundId releaseId now dbNow =>
      have hs : ((act (.resolve adminId reason refundMinor releaseMinor key refundId releaseId now
          dbNow)).apply k d).booking.status = .completed := Action.completed_resolve (k := k) (w := w) hg
      exact .of_done (by simp [hs]) (by simp [hs])
    | autoRefund amount operationId now dbNow =>
      have hs : ((act (.autoRefund amount operationId now dbNow)).apply k d).booking.status =
          .completed := Action.completed_autoRefund (k := k) (w := w) hg
      exact .of_done (by simp [hs]) (by simp [hs])
    | retry | postpone | decline => exact h.of_same rfl rfl
    | settle o kind amount providerId now resolved =>
      -- a resolving deposit belongs to no waiting booking
      obtain ⟨-, -, dep, hdep, hresolving, -⟩ := hg
      have hactive : d.booking.status ≠ .active := fun hs => by
        rw [h.active hs dep hdep] at hresolving
        cases hresolving
      have hreturned : d.booking.status ≠ .returned := fun hs => by
        rcases h.returned hs dep hdep with hs' | hs' <;> rw [hs'] at hresolving <;>
          cases hresolving
      have hsame : ((act (.settle o kind amount providerId now resolved)).apply k
          d).booking.status = d.booking.status := by
        cases resolved with
        | false => rfl
        | true =>
          simp only [apply, Action.apply, Deal.onlyIf_true]
          rcases Deal.status_completeAfterReturn .depositSettled now _ with he | ⟨hs, -⟩
          · exact he
          · exact absurd hs hreturned
      exact .of_done (hsame ▸ hactive) (hsame ▸ hreturned)

/-! ## Records -/

/-- What a move that does not complete the booking does to its status and its records. -/
structure Deal.Notes (d d' : Deal) : Prop where
  history : ∃ rows, d'.history = d.history ++ rows ∧ (∀ row ∈ rows, row.newStatus ≠ .completed) ∧
    (d'.booking.status = .returned → d.booking.status = .returned ∨
      ∃ row ∈ rows, row.newStatus = .returned)
  outbox : ∃ events, d'.outbox = d.outbox ++ events ∧ .completed ∉ events
  status : d'.booking.status = .completed ↔ d.booking.status = .completed

/-- The way to `COMPLETED` is in the history, once, and so is the event in the outbox. -/
structure Deal.CompletionRecorded (d : Deal) : Prop where
  returned : ∃ before trigger after, d.history = before ++ completeTransition trigger :: after ∧
    ∃ row ∈ before, row.newStatus = .returned
  history : (d.history.filter (·.newStatus == .completed)).length = 1
  outbox : d.outbox.count .completed = 1

structure Deal.Recorded (d : Deal) : Prop where
  before : d.booking.status ≠ .completed →
    (∀ row ∈ d.history, row.newStatus ≠ .completed) ∧ .completed ∉ d.outbox
  returned : d.booking.status = .returned → ∃ row ∈ d.history, row.newStatus = .returned
  completed : d.booking.status = .completed → d.CompletionRecorded

namespace Deal

theorem Notes.of_same (hh : d'.history = d.history) (ho : d'.outbox = d.outbox)
    (hs : d'.booking.status = d.booking.status) : d.Notes d' where
  history := ⟨[], by simp [hh], by simp, fun h => Or.inl (hs ▸ h)⟩
  outbox := ⟨[], by simp [ho], by simp⟩
  status := by rw [hs]

/-- A row for a change of the status. -/
theorem Notes.of_row (row : BookingTransition) (events : List BookingEventType)
    (hh : d'.history = d.history ++ [row]) (ho : d'.outbox = d.outbox ++ events)
    (hevents : .completed ∉ events) (hrow : row.newStatus ≠ .completed)
    (hold : d.booking.status ≠ .completed) (hnew : d'.booking.status ≠ .completed)
    (hreturned : d'.booking.status = .returned → row.newStatus = .returned) : d.Notes d' where
  history := ⟨[row], hh, by simpa using hrow, fun h => Or.inr ⟨row, by simp, hreturned h⟩⟩
  outbox := ⟨events, ho, hevents⟩
  status := ⟨fun h => absurd h hnew, fun h => absurd h hold⟩

theorem Recorded.notes (h : d.Recorded) (hn : d.Notes d') : d'.Recorded := by
  obtain ⟨rows, hrows, hno, hreturned⟩ := hn.history
  obtain ⟨events, hevents, hnone⟩ := hn.outbox
  refine ⟨fun hs => ?_, fun hs => ?_, fun hs => ?_⟩
  · obtain ⟨hold, hout⟩ := h.before fun hc => hs (hn.status.mpr hc)
    rw [hrows, hevents]
    refine ⟨fun row hrow => ?_, by simp [hout, hnone]⟩
    rcases List.mem_append.mp hrow with hrow | hrow
    · exact hold row hrow
    · exact hno row hrow
  · rw [hrows]
    rcases hreturned hs with hold | ⟨row, hrow, hr⟩
    · obtain ⟨row, hrow, hr⟩ := h.returned hold
      exact ⟨row, List.mem_append_left _ hrow, hr⟩
    · exact ⟨row, List.mem_append_right _ hrow, hr⟩
  · obtain ⟨⟨before, trigger, after, hsplit, hrow⟩, hone, hcount⟩ := h.completed (hn.status.mp hs)
    refine ⟨⟨before, trigger, after ++ rows, ?_, hrow⟩, ?_, ?_⟩
    · rw [hrows, hsplit, List.append_assoc, List.cons_append]
    · have hnil : rows.filter (·.newStatus == .completed) = [] := by
        simpa [List.filter_eq_nil_iff] using hno
      rw [hrows, List.filter_append, hnil, List.append_nil, hone]
    · rw [hevents, List.count_append, List.count_eq_zero.mpr hnone, hcount]

/-- The completion adds its row and its event. -/
theorem Recorded.completeAfterReturn (h : d.Recorded) (trigger : BookingCompletionTrigger)
    (now : Time) : (d.completeAfterReturn trigger now).Recorded := by
  rcases d.completeAfterReturn_cases trigger now with ⟨he, -⟩ | ⟨-, hreturned, he⟩
  · rwa [he]
  · obtain ⟨hno, hnone⟩ := h.before (by simp [hreturned])
    rw [he]
    refine ⟨fun hs => absurd rfl hs, fun hs => absurd hs (by simp), fun _ => ⟨?_, ?_, ?_⟩⟩
    · exact ⟨d.history, trigger, [], rfl, h.returned hreturned⟩
    · have hnil : d.history.filter (·.newStatus == .completed) = [] := by
        simpa [List.filter_eq_nil_iff] using hno
      simp [List.filter_append, hnil, completeTransition]
    · simp [List.count_append, List.count_eq_zero.mpr hnone]

end Deal

/-- Every action notes what it does, and completes the booking at most at its end. -/
theorem Action.notes_apply {action : Action} (hg : action.guard k d w) :
    ∃ d', d.Notes d' ∧ (action.apply k d = d' ∨
      ∃ trigger now, action.apply k d = d'.completeAfterReturn trigger now) := by
  have hsame : ∀ d' : Deal, d'.history = d.history → d'.outbox = d.outbox →
      d'.booking.status = d.booking.status → d.Notes d' := fun _ => .of_same
  cases action with
  | cancel actorId isBorrower statusRead depositRead refundId dbNow =>
    have hold : d.booking.status ≠ .completed := by
      obtain ⟨-, -, ⟨-, hu, -⟩ | ⟨-, hs, -⟩⟩ := hg
      · exact hu.status_ne.2.2.2
      · simp [hs]
    refine ⟨_, ?_, Or.inl rfl⟩
    exact .of_row (BookingService.cancelTransition actorId isBorrower statusRead) [.cancelled]
      (by simp [apply]) (by simp [apply]) (by simp)
      (by simp [BookingService.cancelTransition]) hold (by simp [apply]) (by simp [apply])
  | expire now =>
    have hpending : BookingExpiryService.expired now d.booking = true := hg
    simp only [BookingExpiryService.expired, Bool.and_eq_true, beq_iff_eq] at hpending
    refine ⟨_, ?_, Or.inl rfl⟩
    exact .of_row BookingExpiryService.expireTransition [.pendingTimeout]
      (by simp [apply, Deal.cancelPendingDeposit]) (by simp [apply, Deal.cancelPendingDeposit])
      (by simp) (by simp [BookingExpiryService.expireTransition]) (by simp [hpending.1])
      (by simp [apply, Deal.cancelPendingDeposit]) (by simp [apply, Deal.cancelPendingDeposit])
  | confirmAct stage actorId confirmedAt ends completes =>
    obtain ⟨-, -, hstatus, -⟩ := hg
    have hnotes : d.Notes (apply k (.confirmAct stage actorId confirmedAt ends false) d) := by
      refine .of_row (BookingActService.confirmTransition stage actorId)
        [BookingActService.confirmEvent stage] (by simp [apply]) (by simp [apply]) ?_ ?_ ?_ ?_ ?_
      all_goals
        cases stage <;> simp [apply, hstatus, BookingActService.expectedStatus,
          BookingActService.nextStatus, BookingActService.confirmEvent,
          BookingActService.confirmTransition]
    cases completes with
    | false => exact ⟨_, hnotes, Or.inl rfl⟩
    | true => exact ⟨_, hnotes, Or.inr ⟨.zeroDepositReturn, confirmedAt, rfl⟩⟩
  | pay => exact ⟨_, hsame _ (by simp [apply]) (by simp [apply]) (by simp [apply]), Or.inl rfl⟩
  | complete now => exact ⟨d, hsame _ rfl rfl rfl, Or.inr ⟨.depositSettled, now, rfl⟩⟩
  | openDispute | retry | postpone | decline =>
    refine ⟨_, ?_, Or.inl rfl⟩
    exact hsame _ rfl rfl rfl
  | resolve adminId reason refundMinor releaseMinor key refundId releaseId now dbNow =>
    exact ⟨_, hsame _ (by simp) (by simp) (by simp), Or.inr ⟨.disputeDecided, now, rfl⟩⟩
  | autoRefund amount operationId now dbNow =>
    refine ⟨_, ?_, Or.inr ⟨.disputeWindowClosed, now, rfl⟩⟩
    exact hsame _ rfl rfl rfl
  | settle o kind amount providerId now resolved =>
    cases resolved with
    | false =>
      refine ⟨_, ?_, Or.inl rfl⟩
      exact hsame _ rfl rfl rfl
    | true =>
      refine ⟨_, ?_, Or.inr ⟨.depositSettled, now, rfl⟩⟩
      exact hsame _ rfl rfl rfl

/-- **Every move keeps the records of the completion.** -/
theorem DealMove.recorded_apply (h : d.Recorded) (hg : m.guard k d w) :
    (m.apply k d).Recorded := by
  cases m with
  | act action =>
    obtain ⟨d', hnotes, he | ⟨trigger, now, he⟩⟩ := Action.notes_apply hg
    · rw [DealMove.apply, he]
      exact h.notes hnotes
    · rw [DealMove.apply, he]
      exact (h.notes hnotes).completeAfterReturn trigger now
  | idle => exact h
  | claim => exact h.notes (.of_same rfl rfl rfl)
  | createAct => exact h.notes (.of_same (by simp [apply]) (by simp [apply]) (by simp [apply]))
  | confirm lenderId =>
    obtain ⟨hpending, -⟩ := hg
    refine h.notes (.of_row (BookingService.confirmTransition lenderId)
      (if !d.outbox.contains .confirmed then [.confirmed] else []) ?_ ?_ ?_ ?_ ?_ ?_ ?_)
    · simp [apply, Deal.confirm]
    · cases hc : d.outbox.contains .confirmed <;> simp_all [apply, Deal.confirm]
    · split <;> simp
    · simp [BookingService.confirmTransition]
    · simp [hpending]
    · simp [apply, Deal.confirm]
    · simp [apply, Deal.confirm]
  | compete lenderId =>
    have hcancelled : ((compete lenderId).apply k d).booking.status = .cancelled := by
      rcases hg.status with hs | hs <;>
        simp [apply, Deal.compete, Deal.cancelIfPending, Deal.cancelPendingDeposit, hs]
    refine h.notes (.of_row (BookingService.competingTransition lenderId)
      (if !d.outbox.contains .competingCancelled then [.competingCancelled] else [])
      ?_ ?_ ?_ ?_ hg.status_ne.2.2.2 (by simp [hcancelled]) (by simp [hcancelled]))
    · simp [apply, Deal.compete, Deal.cancelIfPending, Deal.cancelPendingDeposit]
    · cases hc : d.outbox.contains .competingCancelled <;>
        simp_all [apply, Deal.compete, Deal.cancelIfPending, Deal.cancelPendingDeposit]
    · split <;> simp
    · simp [BookingService.competingTransition]
  | blocked blockerId =>
    have hcancelled : ((blocked blockerId).apply k d).booking.status = .cancelled := by
      rcases hg.status with hs | hs <;> simp [apply, Deal.blocked, Deal.cancelIfPending, hs]
    exact h.notes (.of_row (UsersService.blockTransition blockerId) [.cancelled]
      (by simp [apply, Deal.blocked, Deal.cancelIfPending])
      (by simp [apply, Deal.blocked, Deal.cancelIfPending]) (by simp)
      (by simp [UsersService.blockTransition]) hg.status_ne.2.2.2 (by simp [hcancelled])
      (by simp [hcancelled]))

/-! ## What completes a booking -/

/-- What the action finds when it completes the booking. -/
inductive Deal.MayComplete (d : Deal) : Action → Prop where
  /-- The return of a booking without a deposit. -/
  | zeroDeposit {actorId confirmedAt ends} (hs : d.booking.status = .active)
      (hdep : d.deposit = none) (hx : d.dispute = none) :
      d.MayComplete (.confirmAct .return actorId confirmedAt ends true)
  /-- The whole deposit goes back after the window. -/
  | windowClosed {dep endsAt operationId now dbNow} (hs : d.booking.status = .returned)
      (hdep : d.deposit = some dep) (hx : d.dispute = none)
      (hends : dep.disputeWindowEndsAt = some endsAt) (hle : endsAt ≤ now) :
      d.MayComplete (.autoRefund dep.amount operationId now dbNow)
  /-- The decision divides the deposit. -/
  | disputeDecided {dep x adminId reason refundMinor releaseMinor key refundId releaseId now dbNow}
      (hs : d.booking.status = .returned) (hdep : d.deposit = some dep) (hx : d.dispute = some x)
      (htotal : refundMinor + releaseMinor = dep.amount.minor) :
      d.MayComplete
        (.resolve adminId reason refundMinor releaseMinor key refundId releaseId now dbNow)

/-- A settled deposit completes no booking that waits. -/
private theorem not_depositSettled {now : Time} (h : d.Waiting) :
    completionCheck .depositSettled now d.booking d.deposit d.dispute ≠ .ok true := by
  intro hcheck
  by_cases hs : d.booking.status = .returned
  · cases hdep : d.deposit with
    | none => simp [completionCheck, hs, hdep] at hcheck
    | some dep =>
      rw [hdep] at hcheck
      simp only [completionCheck, hs, ne_eq, not_true_eq_false, if_false] at hcheck
      split at hcheck
      · cases hcheck
      · rcases h.returned hs dep hdep with hs' | hs' <;>
          simp [assertDepositSettled, ensure, hs', Except.map] at hcheck
  · simp [completionCheck, hs] at hcheck

theorem DealMove.completes_inv (h : d.Waiting) (hg : m.guard k d w)
    (hne : d.booking.status ≠ .completed) (hc : (m.apply k d).booking.status = .completed) :
    ∃ action, m = .act action ∧ d.MayComplete action := by
  cases m with
  | act action =>
    refine ⟨action, rfl, ?_⟩
    cases action with
    | cancel | expire => simp [apply, Action.apply, Deal.cancelPendingDeposit] at hc
    | confirmAct stage actorId confirmedAt ends completes =>
      obtain ⟨-, -, hstatus, -, -, -, hcompletes, hzero⟩ := hg
      cases stage with
      | handover =>
        obtain rfl : completes = false := hcompletes
        simp [apply, Action.apply, BookingActService.nextStatus] at hc
      | «return» =>
        cases completes with
        | false => simp [apply, Action.apply, BookingActService.nextStatus] at hc
        | true => exact .zeroDeposit hstatus (hzero rfl).1 (hzero rfl).2
    | pay => exact absurd (by simpa [apply, Action.apply] using hc) hne
    | openDispute | retry | postpone | decline => exact absurd hc hne
    | complete => exact absurd hg (not_depositSettled h)
    | resolve =>
      obtain ⟨⟨x, hx, -⟩, hs, -, -, ⟨dep, hdep, -, htotal⟩, -⟩ := hg
      exact .disputeDecided hs hdep hx htotal
    | autoRefund =>
      obtain ⟨hs, hx, -, dep, hdep, hdue, rfl⟩ := hg
      simp only [DepositDeadlineService.due, Bool.and_eq_true, beq_iff_eq] at hdue
      obtain ⟨endsAt, hends, hle⟩ := (Option.any_eq_true _ _).mp hdue.2
      exact .windowClosed hs hdep hx hends (by simpa using hle)
    | settle o kind amount providerId now resolved =>
      obtain ⟨-, -, dep, hdep, hresolving, -⟩ := hg
      have hreturned : d.booking.status ≠ .returned := fun hs => by
        rcases h.returned hs dep hdep with hs' | hs' <;> rw [hs'] at hresolving <;>
          cases hresolving
      cases resolved with
      | false => exact absurd hc hne
      | true =>
        simp only [apply, Action.apply, Deal.onlyIf_true] at hc
        rcases Deal.status_completeAfterReturn .depositSettled now _ with he | ⟨hs, -⟩
        · exact absurd (he.symm.trans hc) hne
        · exact absurd hs hreturned
  | idle | claim => exact absurd hc hne
  | createAct => exact absurd (by simpa [apply] using hc) hne
  | confirm => simp [apply, Deal.confirm] at hc
  | compete | blocked =>
    rcases hg.status with hs | hs <;>
      simp [apply, Deal.compete, Deal.blocked, Deal.cancelIfPending, Deal.cancelPendingDeposit,
        hs] at hc

/-- Only an action moves a deal so. -/
theorem Event.deal_of_move {ev : Event} {action : Action} (h : ev.move k = .act action) :
    ev = .deal k action := by
  cases ev with
  | deal id action' =>
    simp only [move] at h
    split at h
    · rename_i hid
      cases hid
      cases h
      rfl
    · cases h
  | confirm id l competitors =>
    simp only [move] at h
    split at h
    · cases h
    · split at h <;> cases h
  | block | createAct | claim => simp only [move] at h; split at h <;> cases h
  | _ => cases h

/-! ## Runs -/

section Runs

variable {sha256 : Bytes → String} {ok : Event → Store → Prop} {s₀ s : State Sys}

structure Deal.CompletionFacts (d : Deal) : Prop where
  safe : d.SafeDeposit
  waiting : d.Waiting
  recorded : d.Recorded

theorem DraftedFrom.completionFacts {read : BookableItem} (h : DraftedFrom read d) :
    d.CompletionFacts := by
  obtain ⟨hunpaid, hpending⟩ := h.unpaid
  refine ⟨h.safeDeposit, .of_done (by simp [hpending]) (by simp [hpending]), ?_⟩
  have hrecords : (∀ row ∈ d.history, row.newStatus ≠ .completed) ∧ .completed ∉ d.outbox := by
    obtain ⟨policy, terms, borrowerId, itemId, period, requestId, hash, now, dbNow, draft, hdraft,
      rfl⟩ := h
    simp only [draftBooking, bind_eq_ok] at hdraft
    obtain ⟨price, -, money, -, hdraft⟩ := hdraft
    cases hdraft
    refine ⟨fun row hrow => ?_, ?_⟩
    · obtain rfl := List.mem_singleton.mp hrow
      exact fun hs => by cases hs
    · exact List.not_mem_cons_of_ne_of_not_mem (by decide) List.not_mem_nil
  exact ⟨fun _ => hrecords, by simp [hpending], by simp [hpending]⟩

theorem Runs.completionFacts (h : Runs sha256 ok s₀ s) :
    ∀ k d, s.db.deals.get k = some d → d.CompletionFacts := by
  refine h.invariant (P := fun σ => ∀ k d, σ.1.deals.get k = some d → d.CompletionFacts) ?_ ?_
  · intro σ hi
    simp [hi.deals]
  · intro ev K a b _ _ hg ha k d' hd'
    rcases hg.get_inv hd' with ⟨d, hd, rfl, hguard, -⟩ | ⟨-, read, -, hnew⟩
    · obtain ⟨hsafe, hwaiting, hrecorded⟩ := ha k d hd
      exact ⟨hsafe.apply _, DealMove.waiting_apply hwaiting hsafe hguard,
        DealMove.recorded_apply hrecorded hguard⟩
    · exact hnew.completionFacts

/-- Where the deposit of a completed booking goes. -/
inductive Deal.PayoutScheduled (d : Deal) : Prop where
  | nothing (hdep : d.deposit = none) (hx : d.dispute = none)
  /-- The whole deposit goes back to the borrower. -/
  | refund (dep : BookingDeposit) (hdep : d.deposit = some dep) (hx : d.dispute = none)
      (hrefund : ∃ o op, d.operations.get o = some op ∧ op.kind = .refund ∧ op.retryOfId = none ∧
        op.amount = dep.amount)
  /-- The legs of the decision add up to the deposit. -/
  | decided (dep : BookingDeposit) (x : FinancialDispute) (hdep : d.deposit = some dep)
      (hx : d.dispute = some x) (hresolved : x.status = .resolved)
      (hlegs : d.plannedLegs = dep.amount.minor)

theorem Deal.Balanced.payoutScheduled (h : d.Balanced)
    (hpaysOut : ∀ dep, d.deposit = some dep → dep.status.paysOut) : d.PayoutScheduled := by
  cases hdep : d.deposit with
  | none => exact .nothing hdep (h.absent hdep).2
  | some dep =>
    have hdecided := h.decided hdep (hpaysOut dep hdep)
    cases hx : d.dispute with
    | some x =>
      exact .decided dep x hdep hx (hdecided.resolved x hx) (h.plannedLegs hdep (hpaysOut dep hdep))
    | none =>
      refine .refund dep hdep hx ?_
      by_contra hno
      -- without a refund nothing would be planned
      have hzero : planned d.attempts .refund = 0 := by
        rw [planned, Deal.attempts, Table.sum_map, Table.sum_congr (g := fun _ _ => 0)]
        · simp [Table.sum]
        · intro o op hop
          refine if_neg fun hkept => hno ⟨o, op, hop, hkept.1, hkept.2, ?_⟩
          have hamount := (hdecided.amounts o op.attempt (Deal.get_attempts_of_get hop)).2
          rw [hkept.1, hx] at hamount
          exact Decimal.ext' hamount
      have hplanned := hdecided.planned .refund
      rw [hzero, hx] at hplanned
      have hpos := h.amount dep hdep
      have hshare : (share none dep.amount .refund).minor = dep.amount.minor := rfl
      omega

structure Deal.CompletedProperly (d : Deal) : Prop where
  recorded : d.CompletionRecorded
  act : ∃ act confirmedAt, d.returnAct = some act ∧
    act.confirmedById = some d.booking.lenderId ∧ act.confirmedAt = some confirmedAt
  payout : d.PayoutScheduled

/-- **A booking completes only when it may**: it was returned, and the action that completed it
found what allows it. -/
theorem completes_when_allowed (h : Runs sha256 ok s₀ s) (hd : s.db.deals.get k = some d)
    (hc : d.booking.status = .completed) :
    d.CompletedProperly ∧ ∃ a i b d₀ action, Reaches (Calls sha256) ok s₀ a ∧
      a.event i = some (.deal k action) ∧ a.fire (.run i) = some b ∧
      Reaches (Calls sha256) ok b s ∧ a.db.deals.get k = some d₀ ∧ d₀.MayComplete action := by
  refine ⟨⟨(h.completionFacts k d hd).recorded.completed hc, ?_, ?_⟩, ?_⟩
  · have hpassed : BookingActStage.return.passed d.booking.status = true := by rw [hc]; rfl
    exact (h.twoParty k d hd).confirmed .return hpassed
  · refine (h.balanced k d hd).payoutScheduled fun dep hdep => ?_
    obtain ⟨snapshot, hs, hfake, -⟩ := (h.completionFacts k d hd).safe (by simp [hdep])
    exact (h.staged k d hd snapshot hs hfake).2.completed hc dep hdep
  · -- the move in which the status became `COMPLETED`
    obtain ⟨a, m, b, hr, hm, hf, hlater, hno, d', hd', hc'⟩ := h.reaches.became
      (P := fun s : State Sys => ∃ d, s.db.deals.get k = some d ∧ d.booking.status = .completed)
      (by simp [show s₀.db.deals = .empty from h.initial.deals]) ⟨d, hd, hc⟩
    have hrun : Runs sha256 ok s₀ a := ⟨h.threads, h.initial, hr⟩
    rcases hrun.event_step hm hf with he | ⟨i, ev, K, rfl, hev, -, hg⟩
    · exact absurd ⟨d', (congrArg (·.1.deals.get k) he).symm.trans hd', hc'⟩ hno
    · rcases hg.get_inv hd' with ⟨d₀, hd₀, rfl, hguard, -⟩ | ⟨-, read, -, hnew⟩
      · obtain ⟨action, hmove, hmay⟩ := DealMove.completes_inv
          (hrun.completionFacts k d₀ hd₀).waiting hguard (fun hs => hno ⟨d₀, hd₀, hs⟩) hc'
        rw [Event.deal_of_move hmove] at hev
        exact ⟨a, i, b, d₀, action, hr, hev, hf, hlater, hd₀, hmay⟩
      · rw [hnew.unpaid.2] at hc'
        cases hc'

end Runs

namespace Scenario

/-- Nobody opens a dispute, and the deadline job runs a day after the return. -/
def completed : List Line :=
  returned ++ [.call (.processDue (start + 86400000) start (fun _ => 40)), .run 11 16]

theorem completes_when_allowed_refund : ∃ d,
    (play anyEvent hash state completed).db.deals.get 10 = some d ∧ d.CompletedProperly ∧
      ∃ a i b d₀ action, Reaches (Calls hash) anyEvent state a ∧
        a.event i = some (.deal 10 action) ∧ a.fire (.run i) = some b ∧
        Reaches (Calls hash) anyEvent b (play anyEvent hash state completed) ∧
        a.db.deals.get 10 = some d₀ ∧ d₀.MayComplete action := by
  have hdeal : ((play anyEvent hash state completed).db.deals.get 10).map (·.booking.status) =
      some .completed := by decide +kernel
  obtain ⟨d, hd, hs⟩ := Option.map_eq_some_iff.mp hdeal
  exact ⟨d, hd, completes_when_allowed ((runs anyEvent).play completed) hd hs⟩

end Scenario

end Sosedi
