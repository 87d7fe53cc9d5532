import Sosedi.Deals.Contract
import Sosedi.Deals.Fields

/-!
# What other clients may do

Proved here:

* `DealMove.of_unpaid`: a request for which nothing was paid can only be confirmed or
  cancelled, and `preserved`: the contract keeps its invariant;
* `Other.kept`: under the lock of its booking a deal changes by claims only, once it is no
  longer such a request;
* `Other.asked`, `Other.frozen`: what may happen to a request under the lock of its
  booking, and that nothing may under two locks;
* `Other.operation`, `Other.absent`: rows under a row lock;
* `Other.calendarFree`, `Other.reservedFree`, `Other.period`: the calendar of an item under
  its lock.
-/

namespace Sosedi

open Transactions DepositOperationProcessor

variable {sha256 : Bytes → String} {ok : Event → Store → Prop} {K L : List LockKey}
  {a b : Store} {k : Id} {d d' : Deal} {w : World} {m : DealMove}

/-! ## Requests for which nothing was paid -/

namespace Deal.Unpaid

theorem status_ne (h : d.Unpaid) : d.booking.status ≠ .confirmed ∧ d.booking.status ≠ .active ∧
    d.booking.status ≠ .returned ∧ d.booking.status ≠ .completed := by
  rcases h.status with h | h <;> simp [h]

theorem get_operations (h : d.Unpaid) (o : Id) : d.operations.get o = none := by
  rw [h.operations]
  rfl

theorem congr (h : d.forget = d'.forget) (hd : d.Unpaid) : d'.Unpaid where
  status := booking_of_forget h ▸ hd.status
  operations := by
    have h' := congrArg Deal.operations h
    simp only [forget, hd.operations] at h'
    apply Table.ext'
    have hrows := congrArg Table.rows h'
    simp only [Table.map, Table.empty, List.map_nil] at hrows
    exact List.map_eq_nil_iff.mp hrows.symm
  deposit := deposit_of_forget h ▸ hd.deposit
  payment := payment_of_forget h ▸ hd.payment
  dispute := dispute_of_forget h ▸ hd.dispute
  handoverAct := handoverAct_of_forget h ▸ hd.handoverAct
  returnAct := returnAct_of_forget h ▸ hd.returnAct

end Deal.Unpaid

namespace DealMove

/-- What may happen to a request for which nothing was paid. -/
theorem of_unpaid (hd : d.Unpaid) (hg : m.guard k d w) :
    m = idle ∨ (∃ lenderId, m = confirm lenderId) ∨ (∃ lenderId, m = compete lenderId) ∨
      (∃ blockerId, m = blocked blockerId) ∨
      (∃ actorId isBorrower depositRead refundId dbNow,
        m = act (.cancel actorId isBorrower .pending depositRead refundId dbNow) ∧
          (∀ dep, depositRead = some dep → dep.status ≠ .held) ∧
          (depositRead.any (·.status == .pending) = false →
            d.deposit.any (·.status == .pending) = false)) ∨
      ∃ now, m = act (.expire now) ∧ BookingExpiryService.expired now d.booking := by
  obtain ⟨hconfirmed, hactive, hreturned, -⟩ := hd.status_ne
  have hexpected : ∀ stage, d.booking.status ≠ BookingActService.expectedStatus stage := by
    rintro (_ | _)
    · exact hconfirmed
    · exact hactive
  have hop : ∀ {o : Id} {P : DepositOperation → Prop},
      ¬∃ op, d.operations.get o = some op ∧ P op := by
    rintro o P ⟨op, hop, -⟩
    rw [hd.get_operations] at hop
    cases hop
  cases m with
  | idle => simp
  | confirm | compete | blocked => simp
  | createAct stage a => exact absurd hg.2.1 (hexpected stage)
  | claim o now u => exact absurd hg hop
  | act action =>
    cases action with
    | cancel actorId isBorrower statusRead depositRead refundId dbNow =>
      obtain ⟨-, -, ⟨rfl, -, hheld, hpending⟩ | ⟨-, hstatus, -⟩⟩ := hg
      · exact Or.inr (Or.inr (Or.inr (Or.inr (Or.inl
          ⟨actorId, isBorrower, depositRead, refundId, dbNow, rfl, hheld, hpending⟩))))
      · exact absurd hstatus hconfirmed
    | expire now => exact Or.inr (Or.inr (Or.inr (Or.inr (Or.inr ⟨now, rfl, hg⟩))))
    | confirmAct stage actorId confirmedAt ends completes =>
      exact absurd hg.2.2.1 (hexpected stage)
    | pay => exact absurd hg.2.1 hconfirmed
    | complete now =>
      refine absurd ?_ hreturned
      by_contra hne
      have hc : completionCheck .depositSettled now d.booking d.deposit d.dispute = .ok true := hg
      simp [completionCheck, hne] at hc
    | openDispute => exact absurd hg.1 hreturned
    | resolve => exact absurd hg.2.1 hreturned
    | autoRefund => exact absurd hg.1 hreturned
    | retry => exact absurd hg.1 hop
    | postpone => exact absurd hg hop
    | decline => exact absurd hg hop
    | settle => exact absurd hg.1 hop

end DealMove

namespace DealMove

/-- No move changes the terms of a booking. -/
theorem terms_apply (k : Id) (m : DealMove) (d : Deal) :
    (m.apply k d).booking.terms = d.booking.terms := by
  cases m with
  | act action => exact action.terms_apply k d
  | createAct stage a => simp [apply]
  | confirm lenderId => simp [apply, Deal.confirm, Booking.terms]
  | compete lenderId =>
    simp only [apply, Deal.compete, Deal.cancelIfPending, Deal.cancelPendingDeposit]
    by_cases h : d.booking.status = .pending <;> simp [h, Booking.terms]
  | blocked blockerId =>
    simp only [apply, Deal.blocked, Deal.cancelIfPending]
    by_cases h : d.booking.status = .pending <;> simp [h, Booking.terms]
  | _ => rfl

end DealMove

/-- A request that was perhaps cancelled since. -/
structure Deal.Since (d d' : Deal) : Prop where
  unpaid : d'.Unpaid
  terms : d'.booking.terms = d.booking.terms
  deposit : d.deposit.any (·.status == .pending) = false →
    d'.deposit.any (·.status == .pending) = false
  cancelled : d.booking.status = .cancelled → d'.booking.status = .cancelled

namespace Deal

theorem Since.refl (hd : d.Unpaid) : d.Since d := ⟨hd, rfl, id, id⟩

theorem Since.trans {d'' : Deal} (h : d.Since d') (h' : d'.Since d'') : d.Since d'' :=
  ⟨h'.unpaid, h'.terms.trans h.terms, fun hd => h'.deposit (h.deposit hd),
    fun hd => h'.cancelled (h.cancelled hd)⟩

theorem since_cancelBooking (hd : d.Unpaid) (reason : CancellationReason) :
    d.Since (d.cancelBooking reason) :=
  ⟨⟨Or.inr rfl, hd.operations, hd.deposit, hd.payment, hd.dispute, hd.handoverAct,
    hd.returnAct⟩, rfl, id, fun _ => rfl⟩

theorem since_onlyIf {c : Bool} {f : Deal → Deal} (hd : d.Unpaid) (h : d.Since (f d)) :
    d.Since (d.onlyIf c f) := by
  cases c
  · exact Since.refl hd
  · exact h

theorem since_cancelDeposit (hd : d.Unpaid) (c : Bool) :
    d.Since (d.onlyIf c (setDepositStatus .cancelled)) := by
  refine since_onlyIf hd ⟨⟨hd.status, hd.operations, ?_, hd.payment, hd.dispute, hd.handoverAct,
    hd.returnAct⟩, rfl, ?_, id⟩
  · intro dep h
    simp only [setDepositStatus, updateDeposit, Option.map_eq_some_iff] at h
    obtain ⟨dep, -, rfl⟩ := h
    exact Or.inr rfl
  · intro _
    cases hdep : d.deposit <;> simp [hdep]

theorem since_record (hd : d.Unpaid) (body : String) (row : BookingTransition) :
    d.Since (d.addMessage body |>.addTransition row) :=
  ⟨⟨hd.status, hd.operations, hd.deposit, hd.payment, hd.dispute, hd.handoverAct,
    hd.returnAct⟩, rfl, id, id⟩

theorem since_addOutbox (hd : d.Unpaid) (eventType : BookingEventType) :
    d.Since (d.addOutbox eventType) :=
  ⟨⟨hd.status, hd.operations, hd.deposit, hd.payment, hd.dispute, hd.handoverAct,
    hd.returnAct⟩, rfl, id, id⟩

theorem since_cancelIfPending (hd : d.Unpaid) (reason : CancellationReason) :
    d.Since (d.cancelIfPending reason) :=
  since_onlyIf hd (since_cancelBooking hd reason)

end Deal

namespace DealMove

/-- A request that is not confirmed stays one for which nothing was paid. -/
theorem since_apply (hd : d.Unpaid) (hg : m.guard k d w)
    (hne : ∀ lenderId, m ≠ confirm lenderId) : d.Since (m.apply k d) := by
  rcases of_unpaid hd hg with rfl | ⟨l, rfl⟩ | ⟨l, rfl⟩ | ⟨u, rfl⟩ |
    ⟨actorId, isBorrower, depositRead, refundId, dbNow, rfl, hheld, -⟩ | ⟨now, rfl, -⟩
  · exact Deal.Since.refl hd
  · exact absurd rfl (hne l)
  · have h₁ := Deal.since_cancelIfPending hd .competingRequestConfirmed
    have h₂ := Deal.since_cancelDeposit h₁.unpaid
      ((d.cancelIfPending .competingRequestConfirmed).deposit.any (·.status == .pending))
    have h₃ := (h₁.trans h₂).trans (Deal.since_record h₂.unpaid
      "Владелец подтвердил другую заявку на эти даты." (BookingService.competingTransition l))
    exact h₃.trans (Deal.since_onlyIf h₃.unpaid (Deal.since_addOutbox h₃.unpaid _))
  · have h₁ := Deal.since_cancelIfPending hd .participantBlocked
    have h₂ := h₁.trans (Deal.since_record h₁.unpaid
      "Один из участников заблокировал другого. Заявка отменена." (UsersService.blockTransition u))
    exact h₂.trans (Deal.since_addOutbox h₂.unpaid _)
  · have h₁ := Deal.since_cancelBooking hd (cancellationReasonOf isBorrower)
    have h₂ := h₁.trans
      (Deal.since_cancelDeposit h₁.unpaid (depositRead.any (·.status == .pending)))
    have hrefund : ∀ d, Action.preHandoverRefund depositRead refundId dbNow d = d := by
      intro d
      cases depositRead with
      | none => rfl
      | some dep =>
        have hne : (dep.status == .held) = false := by simpa using hheld dep rfl
        simp only [Action.preHandoverRefund, hne, Deal.onlyIf_false]
    have h₃ := h₂.trans (Deal.since_record h₂.unpaid
      (if isBorrower then "Арендатор отменил заявку." else "Владелец отклонил заявку.")
      (BookingService.cancelTransition actorId isBorrower .pending))
    simp only [apply, Action.apply, hrefund]
    exact h₃.trans (Deal.since_addOutbox h₃.unpaid _)
  · have h₁ := Deal.since_cancelBooking hd .pendingTimeout
    have h₂ := h₁.trans (Deal.since_cancelDeposit h₁.unpaid
      ((d.cancelBooking .pendingTimeout).deposit.any (·.status == .pending)))
    have h₃ := h₂.trans (Deal.since_record h₂.unpaid
      "Время ответа владельца истекло. Заявка отменена." BookingExpiryService.expireTransition)
    exact h₃.trans (Deal.since_addOutbox h₃.unpaid _)

end DealMove

/-! ## Preservation -/

theorem DraftedFrom.unpaid {read : BookableItem} (h : DraftedFrom read d) :
    d.Unpaid ∧ d.booking.status = .pending := by
  obtain ⟨policy, terms, borrowerId, itemId, period, requestId, hash, now, dbNow, draft, hdraft,
    rfl⟩ := h
  simp only [draftBooking, bind_eq_ok] at hdraft
  obtain ⟨price, -, money, -, hdraft⟩ := hdraft
  cases hdraft
  refine ⟨⟨Or.inl rfl, rfl, ?_, rfl, rfl, rfl, rfl⟩, rfl⟩
  intro dep hdep
  cases hterms : depositTermsOf policy read.item.depositMinor with
  | none => simp [BookingDraft.deal, hterms] at hdep
  | some t =>
    simp only [BookingDraft.deal, hterms, Option.map_some, Deal.addMessage,
      Deal.addTransition, Deal.addOutbox, Option.some.injEq] at hdep
    subst hdep
    exact Or.inl rfl

/-- How a move that is no confirmation changes the status of a booking. -/
inductive StatusChange : BookingStatus → BookingStatus → Prop where
  | same (s) : StatusChange s s
  | cancel {s} (h : s = .pending ∨ s = .confirmed) : StatusChange s .cancelled
  | activate : StatusChange .confirmed .active
  | return : StatusChange .active .returned
  | returnAndComplete : StatusChange .active .completed
  | complete : StatusChange .returned .completed

private theorem statusChange_completeAfterReturn (trigger : BookingCompletionTrigger) (now : Time)
    {d d' : Deal} (h : d'.booking = d.booking) :
    StatusChange d.booking.status (d'.completeAfterReturn trigger now).booking.status := by
  rw [← h]
  rcases d'.status_completeAfterReturn trigger now with h | ⟨h, h'⟩
  · rw [h]
    exact .same _
  · rw [h, h']
    exact .complete

theorem Action.status_apply {action : Action} (hd : ¬d.Unpaid) (hg : action.guard k d w) :
    StatusChange d.booking.status (action.apply k d).booking.status := by
  cases action with
  | cancel actorId isBorrower statusRead depositRead refundId dbNow =>
    obtain ⟨-, -, ⟨-, hu, -⟩ | ⟨-, hstatus, -⟩⟩ := hg
    · exact absurd hu hd
    · simp only [apply, Deal.addMessage, Deal.addTransition, Deal.addOutbox,
        booking_preHandoverRefund]
      simpa using StatusChange.cancel (Or.inr hstatus)
  | expire now =>
    have hpending : d.booking.status = .pending := by
      have h : BookingExpiryService.expired now d.booking = true := hg
      simp only [BookingExpiryService.expired, Bool.and_eq_true, beq_iff_eq] at h
      exact h.1
    simpa [apply, Deal.cancelPendingDeposit] using StatusChange.cancel (Or.inl hpending)
  | confirmAct stage actorId confirmedAt ends completes =>
    obtain ⟨-, -, hstatus, -, -, -, hcompletes, -⟩ := hg
    cases stage with
    | handover =>
      obtain rfl : completes = false := hcompletes
      rw [hstatus]
      simpa [apply, BookingActService.nextStatus, BookingActService.expectedStatus] using StatusChange.activate
    | «return» =>
      rw [hstatus]
      cases completes with
      | false => simpa [apply, BookingActService.nextStatus, BookingActService.expectedStatus] using StatusChange.return
      | true =>
        simp only [apply, Deal.onlyIf_true]
        rcases Deal.status_completeAfterReturn .zeroDepositReturn confirmedAt _ with h | ⟨-, h⟩
        · rw [h]
          simpa [BookingActService.nextStatus, BookingActService.expectedStatus] using StatusChange.return
        · rw [h]
          exact .returnAndComplete
  | pay => simpa [apply] using StatusChange.same d.booking.status
  | complete now => exact statusChange_completeAfterReturn _ _ rfl
  | openDispute => exact .same _
  | resolve => exact statusChange_completeAfterReturn _ _ (by simp)
  | autoRefund => exact statusChange_completeAfterReturn _ _ rfl
  | retry | postpone | decline => exact .same _
  | settle o kind amount providerId now resolved =>
    cases resolved
    · exact .same _
    · exact statusChange_completeAfterReturn _ _ rfl

namespace DealMove

/-- **The status of a booking after a move.** -/
theorem status_apply (hg : m.guard k d w) :
    (∃ l, m = confirm l ∧ d.booking.status = .pending ∧
        (m.apply k d).booking.status = .confirmed) ∨
      (∀ l, m ≠ confirm l) ∧ StatusChange d.booking.status (m.apply k d).booking.status := by
  by_cases hconfirm : ∃ l, m = confirm l
  · obtain ⟨l, rfl⟩ := hconfirm
    exact Or.inl ⟨l, rfl, hg.1, by simp [apply, Deal.confirm]⟩
  · have hne : ∀ l, m ≠ confirm l := fun l hm => hconfirm ⟨l, hm⟩
    refine Or.inr ⟨hne, ?_⟩
    by_cases hd : d.Unpaid
    · have hs := since_apply hd hg hne
      rcases hd.status with h | h
      · rcases hs.unpaid.status with h' | h' <;> rw [h, h']
        · exact .same _
        · exact .cancel (Or.inl rfl)
      · rw [h, hs.cancelled h]
        exact .same _
    · cases m with
      | idle | claim => exact .same _
      | createAct stage a =>
        simp only [apply, Deal.booking_setAct]
        exact .same _
      | compete | blocked => exact absurd hg hd
      | confirm l => exact absurd rfl (hne l)
      | act action => exact Action.status_apply hd hg

/-- Only a pending booking is pending after a move. -/
theorem pending_of_apply (hg : m.guard k d w)
    (h : (m.apply k d).booking.status = .pending) :
    d.booking.status = .pending ∧ ∀ l, m ≠ confirm l := by
  rcases status_apply hg with ⟨l, -, -, h'⟩ | ⟨hne, hs⟩
  · rw [h'] at h
    cases h
  · rw [h] at hs
    generalize d.booking.status = s at hs
    cases hs
    exact ⟨rfl, hne⟩

/-- A booking that is pending after a move was not touched. -/
theorem idle_of_pending (hd : d.booking.status = .pending → d.Unpaid) (hg : m.guard k d w)
    (h : (m.apply k d).booking.status = .pending) : m = idle := by
  have hp := (pending_of_apply hg h).1
  rcases of_unpaid (hd hp) hg with rfl | ⟨l, rfl⟩ | ⟨l, rfl⟩ | ⟨u, rfl⟩ |
    ⟨actorId, isBorrower, depositRead, refundId, dbNow, rfl, -, -⟩ | ⟨now, rfl, -⟩
  · rfl
  · simp [apply, Deal.confirm] at h
  · simp [apply, Deal.compete, Deal.cancelIfPending, Deal.cancelPendingDeposit, hp] at h
  · simp [apply, Deal.blocked, Deal.cancelIfPending, hp] at h
  · simp [apply, Action.apply] at h
  · simp [apply, Action.apply, Deal.cancelPendingDeposit] at h

end DealMove

/-- **The contract keeps its invariant.** -/
theorem preserved : (contract sha256 ok).Preserved := by
  rintro K a b ⟨hinv, ev, -, hg⟩
  refine ⟨?_, hinv.uploads.step hg.uploads⟩
  intro k d' hk hpending
  rcases hg.get_inv hk with ⟨d, hd, rfl, hguard, -⟩ | ⟨-, read, -, hnew⟩
  · obtain ⟨hp, hne⟩ := DealMove.pending_of_apply hguard hpending
    exact (DealMove.since_apply (hinv.pending k d hd hp) hguard hne).unpaid
  · exact hnew.unpaid.1

/-! ## Steps of the others -/

/-- What a step of another client does to a deal. -/
theorem Other.get (h : (contract sha256 ok).Other L a b) (hk : a.1.deals.get k = some d) :
    ∃ m : DealMove, b.1.deals.get k = some (m.apply k d) ∧ m.guard k d a.2 ∧
      ∀ key ∈ m.keys k d, key ∉ L := by
  obtain ⟨ev, K, hK, -, -, hg⟩ := Contract.Other.elim h
  obtain ⟨hb, hguard, hkeys⟩ := hg.get_of_get hk
  exact ⟨ev.move k, hb, hguard, fun key hkey => hK key (hkeys key hkey)⟩

/-- The terms of a booking never change. -/
theorem Other.terms {t : Booking} (h : (contract sha256 ok).Other L a b)
    (hk : ∃ d, a.1.deals.get k = some d ∧ d.booking.terms = t) :
    ∃ d, b.1.deals.get k = some d ∧ d.booking.terms = t := by
  obtain ⟨d, hd, ht⟩ := hk
  obtain ⟨m, hb, -⟩ := Other.get h hd
  exact ⟨_, hb, (m.terms_apply k d).trans ht⟩

/-- What may happen to a deal whose booking is locked. -/
theorem DealMove.of_locked (hL : .booking k ∈ L) (hK : ∀ key ∈ m.keys k d, key ∉ L) :
    m = idle ∨ (∃ l, m = compete l) ∨ ∃ o now u, m = claim o now u := by
  have hno : .booking k ∉ m.keys k d := fun h => hK _ h hL
  cases m with
  | idle => exact Or.inl rfl
  | compete l => exact Or.inr (Or.inl ⟨l, rfl⟩)
  | claim o now u => exact Or.inr (Or.inr ⟨o, now, u, rfl⟩)
  | _ => simp [keys] at hno

/-- The deal `k` is `d`, up to leases. -/
def Kept (k : Id) (d : Deal) (σ : Store) : Prop :=
  ∃ d', σ.1.deals.get k = some d' ∧ d'.forget = d.forget

/-- Nothing was paid for the deal `k`, if there is one. -/
def NothingPaid (k : Id) (σ : Store) : Prop := ∀ d, σ.1.deals.get k = some d → d.Unpaid

/-- The deal `k` is `d`, perhaps cancelled since. -/
def Asked (k : Id) (d : Deal) (σ : Store) : Prop :=
  ∃ d', σ.1.deals.get k = some d' ∧ d.Since d'

namespace Other

theorem kept (hL : .booking k ∈ L) (hd : ¬d.Unpaid) (h : (contract sha256 ok).Other L a b)
    (hk : Kept k d a) : Kept k d b := by
  obtain ⟨d', hd', he⟩ := hk
  obtain ⟨m, hb, hguard, hkeys⟩ := Other.get h hd'
  rcases DealMove.of_locked hL hkeys with rfl | ⟨l, rfl⟩ | ⟨o, now, u, rfl⟩
  · exact ⟨d', hb, he⟩
  · exact absurd (Deal.Unpaid.congr he hguard) hd
  · exact ⟨_, hb, (Deal.forget_claim o u).trans he⟩

/-- A request under the lock of its booking or of its item is not confirmed. -/
theorem asked (hL : .booking k ∈ L ∨ .item d.booking.itemId ∈ L)
    (h : (contract sha256 ok).Other L a b) (hk : Asked k d a) : Asked k d b := by
  obtain ⟨d', hd', hs⟩ := hk
  obtain ⟨m, hb, hguard, hkeys⟩ := Other.get h hd'
  refine ⟨_, hb, hs.trans (DealMove.since_apply hs.unpaid hguard ?_)⟩
  rintro l rfl
  rcases hL with hL | hL
  · exact hkeys (.booking k) (by simp [DealMove.keys]) hL
  · have hitem : d'.booking.itemId = d.booking.itemId := itemId_of_terms hs.terms
    exact hkeys (.item d.booking.itemId) (by simp [DealMove.keys, hitem]) hL

/-- Under its lock a booking stays without payment until it is confirmed. -/
theorem nothingPaid (hL : .booking k ∈ L) (h : (contract sha256 ok).Other L a b)
    (hk : NothingPaid k a) : NothingPaid k b := by
  obtain ⟨ev, K, hK, -, -, hg⟩ := Contract.Other.elim h
  intro d' hd'
  rcases hg.get_inv hd' with ⟨d, hd, rfl, hguard, hkeys⟩ | ⟨-, read, -, hnew⟩
  · refine (DealMove.since_apply (hk d hd) hguard fun l hm => ?_).unpaid
    exact hK _ (hkeys (.booking k) (by simp [hm, DealMove.keys])) hL
  · exact hnew.unpaid.1

/-- Nobody touches a pending request whose row is locked, nor any request whose booking and
item are. -/
theorem frozen (hd : d.Unpaid)
    (hL : d.booking.status = .pending ∧ .bookingRow k ∈ L ∨
      .booking k ∈ L ∧ .item d.booking.itemId ∈ L)
    (h : (contract sha256 ok).Other L a b) (hk : a.1.deals.get k = some d) :
    b.1.deals.get k = some d := by
  obtain ⟨m, hb, hguard, hkeys⟩ := Other.get h hk
  have hrow : .bookingRow k ∈ m.keys k d → d.booking.status = .pending → .booking k ∉ L →
      False := by
    intro hr hp hno
    rcases hL with ⟨-, hr'⟩ | ⟨hb', -⟩
    · exact hkeys _ hr hr'
    · exact hno hb'
  rcases DealMove.of_unpaid hd hguard with rfl | ⟨l, rfl⟩ | ⟨l, rfl⟩ | ⟨u, rfl⟩ |
    ⟨actorId, isBorrower, depositRead, refundId, dbNow, rfl, -⟩ | ⟨now, rfl, -⟩
  · exact hb
  · exact (hrow (by simp [DealMove.keys]) hguard.1 (hkeys _ (by simp [DealMove.keys]))).elim
  · rcases hL with ⟨hp, hr⟩ | ⟨-, hi⟩
    · exact absurd hr (hkeys _ (by simp [DealMove.keys, hp]))
    · exact absurd hi (hkeys _ (by simp [DealMove.keys]))
  · rcases hL with ⟨hp, hr⟩ | ⟨hb', -⟩
    · exact absurd hr (hkeys _ (by simp [DealMove.keys, hp]))
    · exact absurd hb' (hkeys _ (by simp [DealMove.keys]))
  · rcases hL with ⟨-, hr⟩ | ⟨hb', -⟩
    · exact absurd hr (hkeys _ (by simp [DealMove.keys, Action.writesBooking]))
    · exact absurd hb' (hkeys _ (by simp [DealMove.keys]))
  · rcases hL with ⟨-, hr⟩ | ⟨hb', -⟩
    · exact absurd hr (hkeys _ (by simp [DealMove.keys, Action.writesBooking]))
    · exact absurd hb' (hkeys _ (by simp [DealMove.keys]))

end Other

/-! ## Outbox and operations -/

namespace DealMove

/-- Only a competing confirmation writes its event. -/
theorem competingCancelled_apply (hd : d.Unpaid) (hg : m.guard k d w)
    (hne : ∀ l, m ≠ compete l) :
    (m.apply k d).outbox.contains .competingCancelled = d.outbox.contains .competingCancelled := by
  rcases of_unpaid hd hg with rfl | ⟨l, rfl⟩ | ⟨l, rfl⟩ | ⟨u, rfl⟩ |
    ⟨actorId, isBorrower, depositRead, refundId, dbNow, rfl, -⟩ | ⟨now, rfl, -⟩
  · rfl
  · simp only [apply, Deal.confirm, Deal.outbox_onlyIf]
    split <;> simp
  · exact absurd rfl (hne l)
  · by_cases h : d.booking.status = .pending <;>
      simp [apply, Deal.blocked, Deal.cancelIfPending, h]
  · simp [apply, Action.apply]
  · simp [apply, Action.apply, Deal.cancelPendingDeposit]

/-- A move leaves alone the operations whose row it does not lock. -/
theorem operation_apply {o : Id} {op : DepositOperation} (hop : d.operations.get o = some op)
    (ho : .operationRow k o ∉ m.keys k d) : (m.apply k d).operations.get o = some op := by
  have hmodify : ∀ {o' : Id} {f : DepositOperation → DepositOperation} {t : Table Id _},
      o' ≠ o → t.get o = some op → (t.modify o' f).get o = some op := by
    intro o' f t hne ht
    rw [Table.get_modify_ne _ _ (Ne.symm hne), ht]
  have hleg : ∀ {o' kind amount key now dbNow} {d : Deal}, d.operations.get o = some op →
      (Action.createLeg o' kind amount key now dbNow d).operations.get o = some op := by
    intro o' kind amount key now dbNow d h
    unfold Action.createLeg
    rw [Deal.operations_onlyIf]
    split
    · exact Table.get_insert_of_get h
    · exact h
  cases m with
  | idle | createAct => simpa [apply] using hop
  | confirm => simpa [apply, Deal.confirm] using hop
  | compete =>
    simpa [apply, Deal.compete, Deal.cancelIfPending, Deal.cancelPendingDeposit] using hop
  | blocked => simpa [apply, Deal.blocked, Deal.cancelIfPending] using hop
  | claim o' now u =>
    have hne : o' ≠ o := by
      rintro rfl
      simp [keys] at ho
    exact hmodify hne hop
  | act action =>
    cases action with
    | cancel actorId isBorrower statusRead depositRead refundId dbNow =>
      have hrefund : ∀ {d : Deal}, d.operations.get o = some op →
          (Action.preHandoverRefund depositRead refundId dbNow d).operations.get o = some op := by
        intro d h
        cases depositRead with
        | none => exact h
        | some dep =>
          simp only [Action.preHandoverRefund, Deal.operations_onlyIf]
          split
          · exact Table.get_insert_of_get h
          · exact h
      exact hrefund (by simpa using hop)
    | expire => simpa [apply, Action.apply, Deal.cancelPendingDeposit] using hop
    | confirmAct => simpa [apply, Action.apply] using hop
    | pay borrowerId amount key providerId hold =>
      cases hold with
      | none => exact hop
      | some hold => exact Table.get_insert_of_get hop
    | complete => simpa [apply, Action.apply] using hop
    | openDispute => exact hop
    | resolve => simpa [apply, Action.apply] using hleg (hleg hop)
    | autoRefund =>
      simpa [apply, Action.apply] using Table.get_insert_of_get hop
    | retry => exact Table.get_insert_of_get hop
    | postpone o' | decline o' =>
      refine hmodify ?_ hop
      rintro rfl
      simp [keys, Action.operationId] at ho
    | settle o' kind amount providerId now resolved =>
      have hne : o' ≠ o := by
        rintro rfl
        simp [keys, Action.operationId] at ho
      cases resolved
      · exact hmodify hne hop
      · simpa [apply, Action.apply] using hmodify hne hop

end DealMove

namespace Other

/-- An operation whose row is locked. -/
theorem operation {o : Id} {op : DepositOperation} (hL : .operationRow k o ∈ L)
    (h : (contract sha256 ok).Other L a b) (hop : a.1.operation k o = some op) :
    b.1.operation k o = some op := by
  simp only [Database.operation, Option.bind_eq_some_iff] at hop ⊢
  obtain ⟨d, hd, hop⟩ := hop
  obtain ⟨m, hb, -, hkeys⟩ := Other.get h hd
  exact ⟨_, hb, DealMove.operation_apply hop fun hk => hkeys _ hk hL⟩

/-- Nobody inserts a booking whose row is locked. -/
theorem absent (hL : .bookingRow k ∈ L) (h : (contract sha256 ok).Other L a b)
    (hk : a.1.deals.get k = none) : b.1.deals.get k = none := by
  obtain ⟨ev, K, hK, -, -, hg⟩ := Contract.Other.elim h
  by_contra hne
  obtain ⟨d', hd'⟩ := Option.ne_none_iff_exists'.mp hne
  rcases hg.get_inv hd' with ⟨d, hd, -⟩ | ⟨-, read, rfl, -⟩
  · rw [hk] at hd
    cases hd
  · exact hK _ hg.deals.1 hL

end Other

/-! ## Requests -/

/-- A booking that is pending after a step was so before, or is inserted by the step. -/
theorem Guar.pending_inv (hg : Guar sha256 ev K a b) (hinv : PendingUnpaid a)
    (hk : b.1.deals.get k = some d) (hp : d.booking.status = .pending) :
    a.1.deals.get k = some d ∨ ∃ read, ev = .create k d read := by
  rcases hg.get_inv hk with ⟨d₀, hd₀, rfl, hguard, -⟩ | ⟨-, read, he, -⟩
  · have hidle := DealMove.idle_of_pending (hinv k d₀ hd₀) hguard hp
    rw [hidle]
    exact Or.inl hd₀
  · exact Or.inr ⟨read, he⟩

namespace Other

variable {u itemId : Id} {now startDate endDate : Time}

/-- Nobody inserts a request of a borrower whose lock is held. -/
theorem borrowerId_ne (hL : .user u ∈ L) (hK : ∀ key ∈ K, key ∉ L) (hg : Guar sha256 ev K a b)
    {read : BookableItem} (he : ev = .create k d read) : d.booking.borrowerId ≠ u := by
  subst he
  rintro rfl
  exact hK _ hg.requestGuard.user hL

theorem bookingByRequest {requestId : String} (hL : .user u ∈ L)
    (h : (contract sha256 ok).Other L a b) (hnew : a.1.bookingByRequest u requestId = none) :
    b.1.bookingByRequest u requestId = none := by
  obtain ⟨ev, K, hK, -, -, hg⟩ := Contract.Other.elim h
  rw [Database.bookingByRequest, Option.map_eq_none_iff, List.find?_eq_none] at hnew ⊢
  rintro ⟨k, d'⟩ hmem
  rcases hg.get_inv (Table.get_eq_some.mpr hmem) with ⟨d, hd, rfl, -, -⟩ | ⟨-, read, he, -⟩
  · have hterms := (ev.move k).terms_apply k d
    have hold := hnew _ (Table.get_eq_some.mp hd)
    rw [← borrowerId_of_terms hterms, ← clientRequestId_of_terms hterms] at hold
    exact hold
  · simp [borrowerId_ne hL hK hg he]

theorem countActivePending (hL : .user u ∈ L) (h : (contract sha256 ok).Other L a b) :
    b.1.countActivePending u now ≤ a.1.countActivePending u now := by
  obtain ⟨ev, K, hK, hinv, -, hg⟩ := Contract.Other.elim h
  refine Table.length_keysWhere_le fun k d hd hcount => ?_
  have hcount' := hcount
  simp only [Database.unexpiredPending, Bool.and_eq_true, beq_iff_eq] at hcount'
  rcases hg.pending_inv hinv.pending hd hcount'.2.1 with hd | ⟨read, he⟩
  · exact ⟨d, hd, hcount⟩
  · exact absurd hcount'.1 (borrowerId_ne hL hK hg he)

theorem competingPending (hL : .item itemId ∈ L) (h : (contract sha256 ok).Other L a b) :
    (b.1.competingPending none itemId now startDate endDate).length ≤
      (a.1.competingPending none itemId now startDate endDate).length := by
  obtain ⟨ev, K, hK, hinv, -, hg⟩ := Contract.Other.elim h
  refine Table.length_keysWhere_le fun k d hd hcount => ?_
  have hcount' := hcount
  simp only [Database.unexpiredPending, Bool.and_eq_true, beq_iff_eq] at hcount'
  rcases hg.pending_inv hinv.pending hd hcount'.1.2.1 with hd | ⟨read, rfl⟩
  · exact ⟨d, hd, hcount⟩
  · exact absurd (hcount'.1.1.2 ▸ hL) (hK _ hg.requestGuard.item)

/-- What a client that holds the locks of a request knows about it stays true. -/
theorem requestGuard {booking : Booking} (h : (contract sha256 ok).Other L a b)
    (hr : RequestGuard L a booking) : RequestGuard L b booking := by
  obtain ⟨huser, hitem, hnew, now, hexpires, hactive, hcompeting⟩ := hr
  exact ⟨huser, hitem, bookingByRequest huser h hnew, now, hexpires,
    Nat.lt_of_le_of_lt (countActivePending huser h) hactive,
    Nat.lt_of_le_of_lt (competingPending hitem h) hcompeting⟩

end Other

/-! ## The calendar of an item -/

theorem reserves_of_statusChange {s s' : BookingStatus} (h : StatusChange s s')
    (hr : s'.reserves = true) : s.reserves = true := by
  cases h <;> first | exact hr | rfl | cases hr

namespace Other

variable {itemId : Id} {startDate endDate : Time}

/-- Under the lock of an item, a range of its calendar stays free. -/
theorem calendarFree (hL : .item itemId ∈ L) (h : (contract sha256 ok).Other L a b)
    (hf : a.1.calendarConflict itemId startDate endDate = false) :
    b.1.calendarConflict itemId startDate endDate = false := by
  obtain ⟨ev, K, hK, -, -, hg⟩ := Contract.Other.elim h
  rw [Database.calendarConflict, Table.any_eq_false] at hf ⊢
  intro id p hp
  have hc := hg.calendar
  unfold CalendarStep at hc
  split at hc
  · rename_i id' p'
    obtain ⟨hitem, -, -, hb⟩ := hc
    rw [hb] at hp
    rcases Table.of_get_insert hp with ⟨rfl, rfl⟩ | hp
    · have hne : p.itemId ≠ itemId := by
        rintro rfl
        exact hK _ hitem hL
      simp [hne]
    · exact hf id p hp
  · obtain ⟨-, -, hb⟩ := hc
    rw [hb] at hp
    exact hf id p (Table.of_get_erase hp).2
  · rw [hc.1] at hp
    exact hf id p hp
  · rw [hc] at hp
    exact hf id p hp

/-- Under the lock of an item, nobody takes a range of it. -/
theorem reservedFree {except : Option Id} (hL : .item itemId ∈ L)
    (h : (contract sha256 ok).Other L a b)
    (hf : a.1.reservedConflict except itemId startDate endDate = false) :
    b.1.reservedConflict except itemId startDate endDate = false := by
  obtain ⟨ev, K, hK, -, -, hg⟩ := Contract.Other.elim h
  rw [Database.reservedConflict, Table.any_eq_false] at hf ⊢
  intro id d' hd'
  rcases hg.get_inv hd' with ⟨d, hd, rfl, hguard, hkeys⟩ | ⟨-, read, -, hnew⟩
  · have hold := hf id d hd
    have hterms := (ev.move id).terms_apply id d
    rw [itemId_of_terms hterms, startDate_of_terms hterms, endDate_of_terms hterms]
    rcases DealMove.status_apply hguard with ⟨l, hm, -, -⟩ | ⟨-, hs⟩
    · have hne : d.booking.itemId ≠ itemId := by
        rintro rfl
        exact hK _ (hkeys _ (by simp [hm, DealMove.keys])) hL
      simp [hne]
    · rw [Bool.and_eq_false_iff] at hold ⊢
      refine hold.imp_right fun hr => ?_
      by_contra hne
      rw [reserves_of_statusChange hs (by simpa using hne)] at hr
      cases hr
  · simp [hnew.unpaid.2, BookingStatus.reserves]

/-- Nobody removes a period of a locked item. -/
theorem period {periodId : Id} (hL : .item itemId ∈ L) (h : (contract sha256 ok).Other L a b)
    (hp : ∃ p, a.1.periods.get periodId = some p ∧ p.itemId = itemId) :
    ∃ p, b.1.periods.get periodId = some p ∧ p.itemId = itemId := by
  obtain ⟨ev, K, hK, -, -, hg⟩ := Contract.Other.elim h
  obtain ⟨p, hp, hitem⟩ := hp
  have hc := hg.calendar
  unfold CalendarStep at hc
  split at hc
  · exact ⟨p, by rw [hc.2.2.2, Table.get_insert_of_get hp], hitem⟩
  · rename_i id' itemId'
    obtain ⟨hlock, hrow, hb⟩ := hc
    refine ⟨p, ?_, hitem⟩
    rw [hb, Table.get_erase, if_neg, hp]
    rintro rfl
    rw [← hrow p hp, hitem] at hlock
    exact hK _ hlock hL
  · exact ⟨p, by rw [hc.1, hp], hitem⟩
  · exact ⟨p, by rw [hc, hp], hitem⟩

end Other

/-! ## The world -/

/-- The provider never forgets. -/
theorem Other.provider {key : String} {stored : StoredOperation}
    (h : (contract sha256 ok).Other L a b) (hk : a.2.provider.get key = some stored) :
    b.2.provider.get key = some stored := by
  obtain ⟨ev, K, -, -, -, hg⟩ := Contract.Other.elim h
  rw [hg.uploads.world]
  cases ev with
  | provider id request => exact FakeSafeDealProvider.get_execute_of_get hk
  | upload u => cases u <;> exact hk
  | _ => exact hk

end Sosedi
