import Sosedi.Deposits.Balanced
import Sosedi.Scripts

/-!
# The machine of a deposit

No service calls the declared check of a transition.

Proved here: every move of a deal changes the status of its deposit along a declared edge
(`DealMove.depositStatus_apply`), and so does every step of a run, which leaves no final status
(`deposit_transition`).
-/

namespace Sosedi

open Transactions

variable {d : Deal} {k : Id} {w : World} {dep : BookingDeposit}

/-- `ALLOWED_TRANSITIONS`. -/
def DepositStatus.allowedTransitions : DepositStatus → List DepositStatus
  | pending => [.held, .cancelled]
  | held => [.disputed, .resolving]
  | disputed => [.resolving]
  | resolving => [.resolved]
  | resolved => []
  | cancelled => []

/-- The status stays or takes a declared edge. -/
def DepositStatus.Becomes (current next : DepositStatus) : Prop :=
  next = current ∨ next ∈ current.allowedTransitions

/-- The deposit is still there, and its status stayed or took a declared edge. -/
def BookingDeposit.Advances (dep : BookingDeposit) (deposit : Option BookingDeposit) : Prop :=
  ∃ dep', deposit = some dep' ∧ dep.status.Becomes dep'.status

namespace BookingDeposit.Advances

theorem same {deposit : Option BookingDeposit} (h : deposit = some dep) : dep.Advances deposit :=
  ⟨dep, h, Or.inl rfl⟩

theorem update {f : BookingDeposit → BookingDeposit} (hdep : d.deposit = some dep)
    (hf : dep.status.Becomes (f dep).status) : dep.Advances (d.updateDeposit f).deposit :=
  ⟨f dep, by simp [hdep], hf⟩

theorem onlyIf {c : Bool} {f : Deal → Deal} (hdep : d.deposit = some dep)
    (h : c = true → dep.Advances (f d).deposit) : dep.Advances (d.onlyIf c f).deposit := by
  cases c
  · exact same hdep
  · exact h rfl

/-- The guarded update of a cancellation. -/
theorem cancelPendingDeposit (hdep : d.deposit = some dep) :
    dep.Advances d.cancelPendingDeposit.deposit := by
  refine onlyIf hdep fun hc => update hdep ?_
  rw [hdep, Option.any_some, beq_iff_eq] at hc
  exact Or.inr (by simp [hc, DepositStatus.allowedTransitions])

end BookingDeposit.Advances

open BookingDeposit

theorem Action.preHandoverRefund_eq_self {depositRead : Option BookingDeposit}
    (hheld : ∀ x, depositRead = some x → x.status ≠ .held) (refundId : Id) (dbNow : Time)
    (d : Deal) : preHandoverRefund depositRead refundId dbNow d = d := by
  cases depositRead with
  | none => rfl
  | some x =>
    have hx : (x.status == .held) = false := by simpa using hheld x rfl
    simp [preHandoverRefund, hx]

/-- Of a request for which nothing was paid, only the pending deposit can be cancelled. -/
private theorem advances_cancel_unpaid {depositRead : Option BookingDeposit} {refundId : Id}
    {dbNow : Time} (hdep : d.deposit = some dep)
    (hs : dep.status = .pending ∨ dep.status = .cancelled)
    (hheld : ∀ x, depositRead = some x → x.status ≠ .held) (c : Bool) :
    dep.Advances (Action.preHandoverRefund depositRead refundId dbNow
      (d.onlyIf c (Deal.setDepositStatus .cancelled))).deposit := by
  have hcancel : dep.Advances (d.onlyIf c (Deal.setDepositStatus .cancelled)).deposit := by
    refine Advances.onlyIf hdep fun _ => Advances.update hdep ?_
    rcases hs with hs | hs
    · exact Or.inr (by simp [hs, DepositStatus.allowedTransitions])
    · exact Or.inl hs.symm
  rw [Action.preHandoverRefund_eq_self hheld]
  exact hcancel

/-- Of a paid booking, the held deposit starts to be refunded. -/
private theorem advances_cancel_paid {refundId : Id} {dbNow : Time} (hdep : d.deposit = some dep)
    (hs : dep.status = .pending ∨ dep.status = .held) :
    dep.Advances (Action.preHandoverRefund d.deposit refundId dbNow
      (d.onlyIf (d.deposit.any (·.status == .pending)) (Deal.setDepositStatus .cancelled))).deposit := by
  rcases hs with hs | hs
  · refine ⟨{ dep with status := .cancelled }, ?_, ?_⟩
    · simp [hdep, hs, Action.preHandoverRefund]
    · exact Or.inr (by simp [hs, DepositStatus.allowedTransitions])
  · refine ⟨{ dep with status := .resolving }, ?_, ?_⟩
    · simp [hdep, hs, Action.preHandoverRefund]
    · exact Or.inr (by simp [hs, DepositStatus.allowedTransitions])

theorem Action.depositStatus_apply {action : Action} (hg : action.guard k d w)
    (hdep : d.deposit = some dep) : dep.Advances (action.apply k d).deposit := by
  cases action with
  | cancel actorId isBorrower statusRead depositRead refundId dbNow =>
    simp only [apply, Deal.addMessage, Deal.addTransition, Deal.addOutbox]
    obtain ⟨-, -, ⟨-, hunpaid, hheld, -⟩ | ⟨-, -, -, rfl, hstatus⟩⟩ := hg
    · exact advances_cancel_unpaid (d := d.cancelBooking _) hdep (hunpaid.deposit dep hdep) hheld _
    · exact advances_cancel_paid (d := d.cancelBooking _) hdep
        ((hstatus dep hdep).imp_right And.left)
  | expire => exact Advances.cancelPendingDeposit (d := d.cancelBooking _) hdep
  | confirmAct stage actorId confirmedAt ends completes =>
    have hopen : dep.Advances (openWindow ends d).deposit := by
      cases ends with
      | none => exact Advances.same hdep
      | some endsAt => exact Advances.update hdep (Or.inl rfl)
    have hsame : (apply k (.confirmAct stage actorId confirmedAt ends completes) d).deposit =
        (openWindow ends d).deposit := by
      cases ends <;> simp [apply, openWindow]
    rw [hsame]
    exact hopen
  | pay borrowerId amount key providerId hold =>
    obtain ⟨-, -, -, ⟨snapshot, hterms, -, hmatches, -, -⟩, -⟩ := hg
    cases hold with
    | none => exact Advances.same hdep
    | some hold =>
      rw [hdep] at hmatches
      have hs := (ensureDepositMatches_some hmatches (nonneg_of_boundSnapshot hterms.1 hterms.2)).1
      exact Advances.update (f := ({ · with status := .held })) hdep
        (Or.inr (by simp [hs, DepositStatus.allowedTransitions]))
  | complete now => simpa [apply] using Advances.same hdep
  | openDispute dispute =>
    obtain ⟨-, -, -, -, -, dep', endsAt, hdep', hs, -⟩ := hg
    rw [hdep, Option.some.injEq] at hdep'
    subst hdep'
    exact Advances.update (f := ({ · with status := .disputed })) hdep
      (Or.inr (by simp [hs, DepositStatus.allowedTransitions]))
  | resolve adminId reason refundMinor releaseMinor key refundId releaseId now dbNow =>
    obtain ⟨-, -, -, -, ⟨dep', hdep', hs, -⟩, -⟩ := hg
    rw [hdep, Option.some.injEq] at hdep'
    subst hdep'
    refine ⟨{ dep with status := .resolving }, by simp [apply, hdep], Or.inr ?_⟩
    simp [hs, DepositStatus.allowedTransitions]
  | autoRefund amount operationId now dbNow =>
    obtain ⟨-, -, -, dep', hdep', hdue, -⟩ := hg
    rw [hdep, Option.some.injEq] at hdep'
    subst hdep'
    simp only [DepositDeadlineService.due, Bool.and_eq_true, beq_iff_eq] at hdue
    refine ⟨{ dep with status := .resolving }, by simp [apply, hdep], Or.inr ?_⟩
    simp [hdue.1, DepositStatus.allowedTransitions]
  | retry | postpone | decline => exact Advances.same hdep
  | settle o kind amount providerId now resolved =>
    obtain ⟨-, -, dep', hdep', hs, -⟩ := hg
    rw [hdep, Option.some.injEq] at hdep'
    subst hdep'
    refine ⟨DepositOperationProcessor.settleDeposit kind amount resolved dep, ?_, ?_⟩
    · simp [apply, hdep]
    · cases resolved with
      | false => exact Or.inl hs.symm
      | true =>
        exact Or.inr (by simp [hs, DepositStatus.allowedTransitions,
          DepositOperationProcessor.settleDeposit])

/-- **A move changes the status of a deposit along a declared edge.** -/
theorem DealMove.depositStatus_apply {m : DealMove} (hg : m.guard k d w)
    (hdep : d.deposit = some dep) : dep.Advances (m.apply k d).deposit := by
  cases m with
  | act action => exact Action.depositStatus_apply hg hdep
  | compete lenderId =>
    have hsame : (d.compete lenderId).deposit =
        (d.cancelIfPending .competingRequestConfirmed).cancelPendingDeposit.deposit := by
      simp [Deal.compete]
    show dep.Advances (d.compete lenderId).deposit
    rw [hsame]
    exact Advances.cancelPendingDeposit (by simpa [Deal.cancelIfPending] using hdep)
  | createAct | confirm | blocked =>
    refine Advances.same ?_
    simpa [apply, Deal.confirm, Deal.blocked, Deal.cancelIfPending] using hdep
  | idle | claim => exact Advances.same hdep

variable {sha256 : Bytes → String} {ok : Event → Store → Prop} {s₀ s s' : State Sys}

/-- **Every step of a run refines the declared machine.** -/
theorem Runs.advances (h : Runs sha256 ok s₀ s) {m : Move Sys}
    (hm : s.Admits (Calls sha256) ok m) (hf : s.fire m = some s')
    (hdep : s.db.deposit k = some dep) : dep.Advances (s'.db.deposit k) := by
  rcases h.step hm hf with he | ⟨ev, K, -, hg⟩
  · rw [show s'.db = s.db from congrArg Prod.fst he]
    exact Advances.same hdep
  · simp only [Database.deposit, Option.bind_eq_some_iff] at hdep
    obtain ⟨d, hd, hdep⟩ := hdep
    obtain ⟨hb, hguard, -⟩ := hg.get_of_get hd
    show dep.Advances ((s'.db.deals.get k).bind (·.deposit))
    rw [show s'.db.deals.get k = _ from hb, Option.bind_some]
    exact DealMove.depositStatus_apply hguard hdep

theorem BookingDeposit.Advances.final {deposit : Option BookingDeposit} (h : dep.Advances deposit)
    (hs : dep.status = .resolved ∨ dep.status = .cancelled) :
    deposit.map (·.status) = some dep.status := by
  obtain ⟨dep', rfl, heq | hedge⟩ := h
  · rw [Option.map_some, heq]
  · rcases hs with hs | hs <;> simp [hs, DepositStatus.allowedTransitions] at hedge

/-- Every step of a run changes the status of a deposit along an edge of the declared machine,
and no step leaves `RESOLVED` or `CANCELLED`. -/
theorem deposit_transition (h : Runs sha256 ok s₀ s) {m : Move Sys}
    (hm : s.Admits (Calls sha256) ok m) (hf : s.fire m = some s')
    (hdep : s.db.deposit k = some dep) : dep.Advances (s'.db.deposit k) ∧
      (dep.status = .resolved ∨ dep.status = .cancelled →
        (s'.db.deposit k).map (·.status) = some dep.status) :=
  ⟨h.advances hm hf hdep, (h.advances hm hf hdep).final⟩

namespace Scenario

/-- A checkout of a confirmed booking, up to its last commit. -/
def payingCheckout : List Line :=
  [.call (create 1 10 "r1"), .run 0 60, .call (.confirmBooking 2 10 start), .run 1 60,
    .call (.checkout env 1 10 .success "pay-1" 20 start start), .run 2 9]

theorem deposit_transition_checkout : ∃ dep s',
    (play anyEvent hash state payingCheckout).db.deposit 10 = some dep ∧
      (play anyEvent hash state payingCheckout).fire (.run 2) = some s' ∧
      dep.status = .pending ∧ (s'.db.deposit 10).map (·.status) = some .held ∧
      dep.Advances (s'.db.deposit 10) := by
  have hdep : ((play anyEvent hash state payingCheckout).db.deposit 10).map (·.status) =
      some .pending := by decide +kernel
  have hfire : ((play anyEvent hash state payingCheckout).fire (.run 2)).map
      (fun s' => (s'.db.deposit 10).map (·.status)) = some (some .held) := by decide +kernel
  rw [Option.map_eq_some_iff] at hdep hfire
  obtain ⟨dep, hdep, hs⟩ := hdep
  obtain ⟨s', hfire, hs'⟩ := hfire
  have hadmits : (play anyEvent hash state payingCheckout).Admits (Calls hash) anyEvent (.run 2) :=
    fun _ _ => trivial
  exact ⟨dep, s', hdep, hfire, hs, hs',
    (deposit_transition ((runs anyEvent).play payingCheckout) hadmits hfire hdep).1⟩

end Scenario

end Sosedi
