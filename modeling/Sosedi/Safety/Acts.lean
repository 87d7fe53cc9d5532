import Sosedi.Safety.Deposits

/-!
# Confirming an act keeps to the contract

Proved here: `BookingActService.confirm` is safe.
-/

namespace Sosedi

open Transactions

variable {sha256 : Bytes → String} {ok : Event → Store → Prop}

namespace BookingActService

/-- An act read under the lock of its booking. -/
private theorem enter_act {k : Id} {L : List LockKey} {σ : Store} {stage : BookingActStage}
    {a : BookingAct} (hL : .booking k ∈ L) (ha : (view [] σ.1).act k stage = some a) :
    ∃ d, d.act stage = some a ∧ Local k d id [] L [] σ := by
  obtain ⟨d, hd, hact⟩ := Option.bind_eq_some_iff.mp ha
  refine ⟨d, hact, Local.start hL hd fun hu => ?_⟩
  cases stage with
  | handover => exact absurd hact (by simp [Deal.act, hu.handoverAct])
  | «return» => exact absurd hact (by simp [Deal.act, hu.returnAct])

/-- The rows of a confirmation, but for the completion. -/
def confirmed (actorId : Id) (stage : BookingActStage) (confirmedAt : Time)
    (windowEndsAt : Option Time) (d : Deal) : Deal :=
  d.setAct stage ((d.act stage).map
      ({ · with confirmedById := some actorId, confirmedAt := some confirmedAt }))
    |> Action.openWindow windowEndsAt
    |>.setStatus (nextStatus stage)
    |>.addMessage (confirmMessage stage)
    |>.addTransition (confirmTransition stage actorId)
    |>.addOutbox (confirmEvent stage)

private theorem wp_confirmStatements {k : Id} {d : Deal} {L : List LockKey} {σ : Store}
    (h : Local k d id [] L [] σ) {actorId : Id} {stage : BookingActStage} {confirmedAt : Time}
    {windowEndsAt : Option Time}
    {Q : Unit → List LockKey → List (Database → Database) → Store → Prop}
    (hQ : ∀ L ω σ, Local k d (confirmed actorId stage confirmedAt windowEndsAt) [.bookingRow k]
      L ω σ → Q () L ω σ) :
    wp (contract sha256 ok) (confirmStatements actorId k stage confirmedAt windowEndsAt)
      Q L [] σ := by
  simp only [confirmStatements, Prog.bind_eq, wp_bind]
  refine h.onDeal (Deal.blind_modifyAct stage fun a => a.map ({ · with
    confirmedById := some actorId, confirmedAt := some confirmedAt })) fun L ω σ h => ?_
  have hrest : ∀ ks L ω σ, Local k d (fun x => Action.openWindow windowEndsAt
      (x.setAct stage ((x.act stage).map ({ · with
        confirmedById := some actorId, confirmedAt := some confirmedAt })))) ks L ω σ →
      wp (contract sha256 ok) (onDeal [.bookingRow k] k (Deal.setStatus (nextStatus stage)))
        (fun _ L ω σ => wp (contract sha256 ok) (onDeal [] k (Deal.addMessage
            (confirmMessage stage)))
          (fun _ L ω σ => wp (contract sha256 ok) (onDeal [] k (Deal.addTransition
              (confirmTransition stage actorId)))
            (fun _ L ω σ => wp (contract sha256 ok) (createOutbox k (confirmEvent stage)) Q L ω σ)
            L ω σ) L ω σ) L ω σ := by
    intro ks L ω σ h
    refine h.onDeal (Deal.blind_setStatus _) fun L ω σ h => ?_
    refine h.onDeal (Deal.blind_addMessage _) fun L ω σ h => ?_
    refine h.onDeal (Deal.blind_addTransition _) fun L ω σ h => ?_
    exact h.createOutbox fun L ω σ h => hQ L ω σ (h.drop (by simp))
  cases windowEndsAt with
  | none =>
    simp only [wp_bind]
    exact hrest _ L ω σ h
  | some endsAt =>
    simp only [wp_bind]
    refine h.onDeal (Deal.blind_updateDeposit _) fun L ω σ h => ?_
    exact hrest _ L ω σ h

theorem safe_confirm (actorId bookingId : Id) (stage : BookingActStage) (now : Time) :
    Safe (contract sha256 ok) (confirm actorId bookingId stage now) := by
  intro σ
  simp only [confirm, Prog.bind_eq, wp_bind, wp_acquire, wp_select, wp_lift, required_eq_ok,
    ensure_eq_ok]
  intro σ₁ _ _ σ₂ _ _ a ha σ₃ hi₃ _ booking hbooking σ₄ hi₄ _ σ₅ hi₅ _ _ hauthor
  have hL : .booking bookingId ∈ [LockKey.booking bookingId] := List.mem_singleton_self _
  rw [Option.filter_eq_some_iff] at ha
  obtain ⟨ha, hpart⟩ := ha
  obtain ⟨d, hact, h₂⟩ := enter_act hL ha
  have h₃ := h₂.interference hi₃
  have h₄ := h₃.interference hi₄
  have h₅ := h₄.interference hi₅
  rw [h₂.booking, Option.any_some] at hpart
  rw [h₃.booking, Option.some.injEq] at hbooking
  obtain rfl : d.booking = booking := hbooking
  rw [h₄.payment, h₅.deposit]
  split
  · simp only [wp_bind, wp_lift]
    intro _ _
    exact wp_commit_noop (fun _ _ => rfl) fun _ => ⟨rfl, rfl⟩
  · rename_i hunconfirmed
    simp only [wp_bind, wp_lift, ensureStageState, ensure_eq_ok, beq_iff_eq, id]
    intro _ hstatus _ hsnapshot _ hpaid
    refine wp_confirmStatements h₅ fun L ω σ h => ?_
    generalize hwindow : disputeWindowEnd stage d.booking.boundSnapshot d.deposit now = endsAt at h ⊢
    generalize hcompletes : completesAtReturn stage d.booking.boundSnapshot = completes
    have hcommit : ∀ L ω σ, Local bookingId d (fun x => (confirmed actorId stage now endsAt x).onlyIf
          completes (Deal.completeAfterReturn · .zeroDepositReturn now)) [.bookingRow bookingId]
          L ω σ → (completes = true → d.deposit = none ∧ d.dispute = none) →
        wp (contract sha256 ok) (commit (.deal bookingId (.confirmAct stage actorId now endsAt
          completes))) (fun _ L ω _ => L = [] ∧ ω = []) L ω σ := by
      intro L ω σ h hnone
      refine h.commit (fun x _ => rfl) ?_ (by simp [Local.rowsOf, Action.writesBooking,
        Action.operationId]) fun _ => ⟨rfl, rfl⟩
      intro x σ' _ _ hx
      simp only [Action.guard]
      rw [Deal.booking_of_forget hx, Deal.deposit_of_forget hx, Deal.payment_of_forget hx,
        Deal.dispute_of_forget hx, Deal.act_of_forget hx]
      refine ⟨⟨a, hact, ?_, ?_⟩, hpart, hstatus, ?_, ?_, hwindow.symm, hcompletes.symm, hnone⟩
      · simpa using hunconfirmed
      · simpa using hauthor
      · intro hs
        cases hb : d.booking.boundSnapshot <;> simp [hb, hs] at hsnapshot ⊢
      · exact hpaid
    simp only [wp_when]
    refine ⟨fun hc => ?_, fun hc => ?_⟩
    · subst hc
      simp only [wp_bind]
      refine h.complete fun c hcheck L ω σ h => hcommit L ω σ h fun _ => ?_
      have hreturned : (confirmed actorId stage now endsAt d).booking.status = .returned := by
        cases stage with
        | handover => exact absurd hcompletes (by simp [completesAtReturn])
        | «return» => simp [confirmed, nextStatus]
      have hdeposit : (confirmed actorId stage now endsAt d).deposit.isSome = d.deposit.isSome := by
        cases endsAt <;> simp [confirmed, Action.openWindow]
      have hdispute : (confirmed actorId stage now endsAt d).dispute = d.dispute := by
        simp [confirmed]
      simp only [completionCheck, hreturned, ne_eq, not_true_eq_false, if_false, hdeposit,
        hdispute] at hcheck
      split at hcheck
      · cases hcheck
      · rename_i hno
        simpa using hno
    · subst hc
      exact hcommit L ω σ h (by simp)

end BookingActService

end Sosedi
