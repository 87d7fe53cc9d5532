import Sosedi.Deposits.Balanced
import Sosedi.Scripts

/-!
# The money of a deposit

Proved here: `deposit_conserved`, what the totals of a deposit are in every reachable state.
-/

namespace Sosedi

open Transactions Attempts

/-- `o'` is a retry of the operation `o`. -/
def Deal.RetryOf (d : Deal) (o o' : Id) : Prop :=
  ∃ op, d.operations.get o' = some op ∧ op.retryOfId = some o

/-- `o` belongs to the leg of the first operation `root`. -/
def Deal.InLeg (d : Deal) (root o : Id) : Prop :=
  (∃ op, d.operations.get root = some op ∧ op.retryOfId = none) ∧
    Relation.ReflTransGen d.RetryOf root o

/-- The sum of the successful operations of a kind. -/
def Deal.succeededAmount (d : Deal) (kind : DepositOperationKind) : Int :=
  d.operations.sum fun _ op =>
    if op.kind = kind ∧ op.status = .succeeded then op.amount.minor else 0

/-- The deposit is paid out: by the decision of the dispute, or to the borrower. -/
def PaidOut (dep : BookingDeposit) (dispute : Option FinancialDispute) : Prop :=
  dep.refundedAmount.minor + dep.releasedToLenderAmount.minor = dep.amount.minor ∧
    match dispute with
    | some dispute => dep.refundedAmount = dispute.refundToBorrowerAmount ∧
        dep.releasedToLenderAmount = dispute.releaseToLenderAmount
    | none => dep.refundedAmount = dep.amount ∧ dep.releasedToLenderAmount = ⟨0⟩

structure Deal.Conserved (d : Deal) (dep : BookingDeposit) : Prop where
  bound : dep.refundedAmount.minor + dep.releasedToLenderAmount.minor ≤ dep.amount.minor
  refunded : dep.refundedAmount.minor = d.succeededAmount .refund
  released : dep.releasedToLenderAmount.minor = d.succeededAmount .releaseToLender
  succeeded : ∀ root o o' op op', d.InLeg root o → d.InLeg root o' →
    d.operations.get o = some op → d.operations.get o' = some op' →
    op.status = .succeeded → op'.status = .succeeded → o = o'
  live : ∀ root o o' op op', d.InLeg root o → d.InLeg root o' →
    d.operations.get o = some op → d.operations.get o' = some op' →
    op.status ≠ .failed → op'.status ≠ .failed → o = o'
  resolved : dep.status = .resolved → PaidOut dep d.dispute

/-! ## From the ledger -/

variable {d : Deal} {dep : BookingDeposit}

theorem Deal.succeededAmount_eq (d : Deal) (kind : DepositOperationKind) :
    d.succeededAmount kind = paid d.attempts kind := by
  rw [paid, Deal.attempts, Table.sum_map]
  refine Table.sum_congr fun o op _ => ?_
  cases hs : op.status <;>
    simp [DepositOperation.attempt, hs, DepositOperationStatus.outcome]

theorem Deal.InLeg.leg {root o : Id} (h : d.InLeg root o) : Leg d.attempts root o := by
  obtain ⟨⟨op, hop, hroot⟩, hchain⟩ := h
  refine ⟨⟨op.attempt, Deal.get_attempts_of_get hop, hroot⟩, ?_⟩
  refine Relation.ReflTransGen.mono ?_ _ _ hchain
  rintro o o' ⟨op, hop, hretry⟩
  exact ⟨op.attempt, Deal.get_attempts_of_get hop, hretry⟩

theorem outcome_ne_failed {op : DepositOperation} (h : op.status ≠ .failed) :
    op.attempt.outcome ≠ .failed := by
  cases hs : op.status <;>
    simp_all [DepositOperation.attempt, DepositOperationStatus.outcome]

theorem Decided.paid_add_le {t : Table Id (Attempt Id DepositOperationKind)} {amount : Decimal}
    {dispute : Option FinancialDispute} (h : Decided t amount dispute) (hw : WellFormed t) :
    paid t .refund ≤ (share dispute amount .refund).minor ∧
      paid t .releaseToLender ≤ (share dispute amount .releaseToLender).minor :=
  ⟨h.planned .refund ▸ hw.paid_le .refund, h.planned .releaseToLender ▸ hw.paid_le _⟩

theorem Decimal.ext' {x y : Decimal} (h : x.minor = y.minor) : x = y := by
  cases x
  cases y
  cases h
  rfl

/-- **The totals of a deposit follow from its ledger.** -/
theorem Deal.Balanced.conserved (h : d.Balanced) (hdep : d.deposit = some dep) :
    d.Conserved dep := by
  have hstage := h.stage dep hdep
  have hrefunded := h.refunded dep hdep
  have hreleased := h.released dep hdep
  have hamount := h.amount dep hdep
  have hlive : ∀ root o o' op op', d.InLeg root o → d.InLeg root o' →
      d.operations.get o = some op → d.operations.get o' = some op' →
      op.status ≠ .failed → op'.status ≠ .failed → o = o' := by
    intro root o o' op op' ho ho' hop hop' hs hs'
    exact h.wellFormed.leg_unique ho.leg ho'.leg (Deal.get_attempts_of_get hop)
      (Deal.get_attempts_of_get hop')
      (outcome_ne_failed hs) (outcome_ne_failed hs')
  refine ⟨?_, ?_, ?_, ?_, hlive, ?_⟩
  · unfold LedgerStage at hstage
    split at hstage
    · rw [hrefunded, hreleased, hstage.1]
      exact Int.le_of_lt hamount
    · rw [hrefunded, hreleased, hstage.1]
      exact Int.le_of_lt hamount
    · rw [hrefunded, hreleased, hstage.1.paid_eq_zero (by simp), hstage.1.paid_eq_zero (by simp)]
      exact Int.le_of_lt hamount
    · rw [hrefunded, hreleased, hstage.1.paid_eq_zero (by simp), hstage.1.paid_eq_zero (by simp)]
      exact Int.le_of_lt hamount
    · obtain ⟨hle, hle'⟩ := hstage.paid_add_le h.wellFormed
      have htotal := hstage.total
      omega
    · exact le_of_eq hstage.2
  · rw [hrefunded, d.succeededAmount_eq]
  · rw [hreleased, d.succeededAmount_eq]
  · intro root o o' op op' ho ho' hop hop' hs hs'
    exact hlive root o o' op op' ho ho' hop hop' (by simp [hs]) (by simp [hs'])
  · intro hs
    simp only [LedgerStage, hs] at hstage
    obtain ⟨hdecided, htotal⟩ := hstage
    obtain ⟨hle, hle'⟩ := hdecided.paid_add_le h.wellFormed
    have hshares := hdecided.total
    have hrefund : dep.refundedAmount = share d.dispute dep.amount .refund :=
      Decimal.ext' (by omega)
    have hrelease : dep.releasedToLenderAmount = share d.dispute dep.amount .releaseToLender :=
      Decimal.ext' (by omega)
    refine ⟨htotal, ?_⟩
    cases hx : d.dispute with
    | none =>
      rw [hx] at hrefund hrelease
      exact ⟨hrefund, hrelease⟩
    | some dispute =>
      rw [hx] at hrefund hrelease
      exact ⟨hrefund, hrelease⟩

/-- **Deposit money is conserved.** -/
theorem deposit_conserved {sha256 : Bytes → String} {ok : Event → Store → Prop}
    {s₀ s : State Sys} (h : Runs sha256 ok s₀ s) {k : Id} (hd : s.db.deals.get k = some d)
    (hdep : d.deposit = some dep) : d.Conserved dep :=
  (h.balanced k d hd).conserved hdep

namespace Scenario

/-- The borrower pays and cancels; the worker refunds the deposit. -/
def refunded : List Line :=
  [.call (create 1 10 "r1"), .run 0 60, .call (.confirmBooking 2 10 start), .run 1 60,
    .call (.checkout env 1 10 .success "pay-1" 20 start start), .run 2 60,
    .call (.cancelPending env 1 10 start start 21), .run 3 60,
    .call (.processOperation env id 10 21 start), .run 4 60]

theorem deposit_conserved_refunded : ∃ d dep,
    (play anyEvent hash state refunded).db.deals.get 10 = some d ∧ d.deposit = some dep ∧
      dep.status = .resolved ∧ d.Conserved dep := by
  obtain ⟨d, hd⟩ := Option.isSome_iff_exists.mp
    (by decide +kernel : ((play anyEvent hash state refunded).db.deals.get 10).isSome)
  have hs : (((play anyEvent hash state refunded).db.deals.get 10).bind (·.deposit)).map
      (·.status) = some .resolved := by decide +kernel
  rw [hd, Option.bind_some, Option.map_eq_some_iff] at hs
  obtain ⟨dep, hdep, hs⟩ := hs
  exact ⟨d, dep, hd, hdep, hs, deposit_conserved ((runs anyEvent).play refunded) hd hdep⟩

end Scenario

end Sosedi
