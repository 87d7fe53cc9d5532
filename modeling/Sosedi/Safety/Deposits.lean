import Sosedi.Deals.Local
import Sosedi.Deposits.Operations

/-!
# Deposit calls keep to the contract

Proved here: `DepositService`, the operation worker, the deadline job and the dispute calls
are safe: every commit is the action that its event names, under its guard.
-/

namespace Sosedi

open Transactions

variable {sha256 : Bytes → String} {ok : Event → Store → Prop}

/-! ## Entering a deal -/

/-- A client that has just locked a booking either works on a deal or finds nothing paid. -/
theorem local_or_nothingPaid (k : Id) {L : List LockKey} {σ : Store} (hL : .booking k ∈ L) :
    (∃ d, ¬d.Unpaid ∧ Local k d id [] L [] σ) ∨ NothingPaid k σ := by
  by_cases h : ∃ d, σ.1.deals.get k = some d ∧ ¬d.Unpaid
  · obtain ⟨d, hd, hp⟩ := h
    exact Or.inl ⟨d, hp, Local.start hL hd hp⟩
  · refine Or.inr fun d hd => ?_
    by_contra hp
    exact h ⟨d, hd, hp⟩

namespace NothingPaid

variable {k : Id} {L : List LockKey} {ω : List (Database → Database)} {σ σ' : Store}

theorem interference (hL : .booking k ∈ L) (hi : (contract sha256 ok).Interference L σ σ')
    (h : NothingPaid k σ) : NothingPaid k σ' :=
  interference_keeps (fun _ _ => Other.nothingPaid hL) hi h

theorem booking {b : Booking} (h : NothingPaid k σ) (hb : σ.1.booking k = some b) :
    b.status ≠ .confirmed ∧ b.status ≠ .active ∧ b.status ≠ .returned ∧
      b.status ≠ .completed := by
  obtain ⟨d, hd, rfl⟩ := Option.map_eq_some_iff.mp hb
  exact (h d hd).status_ne

end NothingPaid

/-- A booking past its request, read under its lock. -/
theorem Local.enter {k : Id} {L : List LockKey} {σ : Store} {b : Booking} (hL : .booking k ∈ L)
    (hb : σ.1.booking k = some b) (hs : b.status ≠ .pending) (hs' : b.status ≠ .cancelled) :
    ∃ d, d.booking = b ∧ Local k d id [] L [] σ := by
  obtain ⟨d, hd, rfl⟩ := Option.map_eq_some_iff.mp hb
  refine ⟨d, rfl, Local.start hL hd fun hu => ?_⟩
  rcases hu.status with h | h
  · exact hs h
  · exact hs' h

/-! ## Completion after settlement -/

theorem safe_completeAfterDepositSettled (bookingId : Id) (now : Time) :
    Safe (contract sha256 ok) (DepositService.completeAfterDepositSettled bookingId now) := by
  intro σ
  simp only [DepositService.completeAfterDepositSettled, Prog.bind_eq, wp_bind, wp_acquire,
    Prog.pure_eq, wp_ret]
  intro σ₁ _ _
  have hL : .booking bookingId ∈ [LockKey.booking bookingId] := List.mem_singleton_self _
  rcases local_or_nothingPaid bookingId (σ := σ₁) hL with ⟨d, -, h⟩ | h
  · refine h.complete fun c hc L ω σ h => ?_
    cases c with
    | false =>
      refine h.commit_noop (fun x hx => ?_) fun _ => ⟨rfl, rfl⟩
      simp only [id, Deal.booking_of_forget hx, Deal.deposit_of_forget hx,
        Deal.dispute_of_forget hx, Deal.completeAfterReturn]
      rw [show completionCheck _ now d.booking d.deposit d.dispute = _ from hc]
    | true =>
      refine h.commit (fun x _ => rfl) (fun x σ' _ _ hx => ?_) (by simp [Local.rowsOf,
        Action.writesBooking, Action.operationId]) fun _ => ⟨rfl, rfl⟩
      show completionCheck _ now x.booking x.deposit x.dispute = _
      rw [Deal.booking_of_forget hx, Deal.deposit_of_forget hx, Deal.dispute_of_forget hx]
      exact hc
  · simp only [completeBookingAfterReturnInTransaction, Prog.bind_eq, wp_bind, wp_select, view_nil]
    intro σ₂ hi₂ _
    have h₂ := h.interference hL hi₂
    cases hb : σ₂.1.booking bookingId with
    | none => exact wp_commit_noop (fun _ _ => rfl) fun _ => ⟨rfl, rfl⟩
    | some booking =>
      simp only [wp_bind, wp_select, wp_lift]
      intro σ₃ _ _ σ₄ _ _ c hc
      obtain rfl : c = false := by
        simpa [completionCheck, (h₂.booking hb).2.2.1] using hc.symm
      exact wp_commit_noop (fun _ _ => rfl) fun _ => ⟨rfl, rfl⟩

/-! ## Disputes -/

theorem safe_openDispute (actorId bookingId : Id) (dto : DisputeService.CreateDisputeDto)
    (now : Time) :
    Safe (contract sha256 ok) (DisputeService.openDispute actorId bookingId dto now) := by
  intro σ
  simp only [DisputeService.openDispute, Prog.bind_eq, wp_bind, wp_acquire, wp_select, wp_lift,
    required_eq_ok, view_nil]
  intro σ₁ _ _ σ₂ _ _ σ₃ hi₃ _ σ₄ hi₄ _ booking hb _ hmay
  have hL : .booking bookingId ∈ [LockKey.booking bookingId] := List.mem_singleton_self _
  simp only [DisputeService.mayOpen, bind_eq_ok, ensure_eq_ok, Bool.and_eq_true, beq_iff_eq,
    Option.isNone_iff_eq_none] at hmay
  obtain ⟨-, hpart, ⟨hreturned, hdep⟩, hdispute⟩ := hmay
  obtain ⟨d, rfl, h₂⟩ := Local.enter hL hb (by simp [hreturned]) (by simp [hreturned])
  have h₃ := h₂.interference hi₃
  have h₄ := h₃.interference hi₄
  rw [show σ₃.1.deposit bookingId = d.deposit from h₃.deposit] at hdep
  rw [show σ₄.1.dispute bookingId = d.dispute from h₄.dispute] at hdispute
  rw [wp_insertUnique]
  intro σ₅ hi₅ _ _
  refine ((h₄.interference hi₅).push [.disputeRow bookingId]
    (Deal.blind_setDispute _)).onDeal (Deal.blind_setDepositStatus .disputed) ?_
  intro L ω σ h
  refine h.commit (fun x _ => rfl) ?_ (by simp [Local.rowsOf, Action.writesBooking,
    Action.operationId]) fun _ => ⟨rfl, rfl⟩
  intro x σ' _ _ hx
  obtain ⟨dep, hd, hheld⟩ := (Option.any_eq_true _ _).mp hdep
  simp only [Bool.and_eq_true, beq_iff_eq] at hheld
  obtain ⟨endsAt, hends, hopen⟩ := (Option.any_eq_true _ _).mp hheld.2
  refine ⟨?_, ?_, rfl, rfl, rfl, dep, endsAt, ?_, hheld.1, hends, of_decide_eq_true hopen⟩
  · rw [Deal.booking_of_forget hx]
    exact hreturned
  · rw [Deal.dispute_of_forget hx]
    exact hdispute
  · rw [Deal.deposit_of_forget hx]
    exact hd

namespace Local

variable {k : Id} {d : Deal} {g : Deal → Deal} {ks L : List LockKey}
  {ω : List (Database → Database)} {σ : Store}
  {Q : Unit → List LockKey → List (Database → Database) → Store → Prop}

theorem createLeg (h : Local k d g ks L ω σ) {o : Id} {kind : DepositOperationKind} {amount : Int}
    {key : String} {now dbNow : Time}
    (hQ : (amount ≠ 0 → Action.Fresh (g d) o (.resolve key kind)) → ∀ L ω σ,
      Local k d (fun x => Action.createLeg o kind amount key now dbNow (g x)) ks L ω σ →
        Q () L ω σ) :
    wp (contract sha256 ok)
      (DisputeService.createResolutionOperation k o kind amount key now dbNow) Q L ω σ := by
  rw [DisputeService.createResolutionOperation, wp_when]
  refine ⟨fun hne => ?_, fun heq => ?_⟩
  · refine h.createOperation fun hfresh L ω σ h => hQ (fun _ => hfresh) L ω σ (h.congr ?_)
    intro x _
    rw [Action.createLeg, hne, Deal.onlyIf_true]
  · refine hQ (fun hne => absurd heq (by simpa using hne)) L ω σ (h.congr ?_)
    intro x _
    rw [Action.createLeg, heq, Deal.onlyIf_false]

end Local

theorem hasOperationKey_of_leg {commandKey : String} {kind : DepositOperationKind}
    {amount : Int} {db : Database} {k : Id} {d : Deal} (hd : db.deals.get k = some d)
    (h : DisputeService.hasResolutionOperation commandKey kind amount db k = true)
    (hne : amount ≠ 0) : d.hasOperationKey (.resolve commandKey kind) = true := by
  simp only [DisputeService.hasResolutionOperation, DepositService.operationByKey, hd,
    Option.bind_some, Bool.or_eq_true, beq_iff_eq, hne, false_or, Option.any_eq_true] at h
  obtain ⟨r, hfound, -⟩ := h
  have hkey := List.find?_some hfound
  exact List.any_eq_true.mpr ⟨r, List.mem_of_find?_eq_some hfound, hkey⟩

/-- What a call of `resolveDispute` returns: the decision that it asks for. -/
def DisputeService.Answered (env : Env) (adminId bookingId : Id) (dto : DisputeService.ResolveDisputeDto)
    (idempotencyKey : String) (answer : FinancialDispute) (L : List LockKey)
    (ω : List (Database → Database)) (σ : Store) : Prop :=
  (L = [] ∧ ω = []) ∧ ∃ x d, Decision.AskedBy x env adminId dto idempotencyKey ∧
    σ.1.deals.get bookingId = some d ∧ d.Finds x answer

private theorem wp_repeatedDecision {env : Env} {adminId bookingId : Id}
    {dto : DisputeService.ResolveDisputeDto} {idempotencyKey commandKey : String}
    {dispute : FinancialDispute} {d : Deal} {L : List LockKey} {σ : Store}
    (hasked : Decision.AskedBy ⟨adminId, dto.reason, dto.refundToBorrowerMinor,
      dto.releaseToLenderMinor, commandKey⟩ env adminId dto idempotencyKey)
    (h : Local bookingId d id [] L [] σ) (hdispute : d.dispute = some dispute)
    (hstatus : dispute.status ≠ .opened) :
    wp (contract sha256 ok)
      (DisputeService.repeatedDecision bookingId adminId dto commandKey dispute)
      (DisputeService.Answered env adminId bookingId dto idempotencyKey) L [] σ := by
  simp only [DisputeService.repeatedDecision, Prog.bind_eq, wp_bind, wp_select, wp_lift]
  intro _ hsame σ₁ hi₁ _ _ hrefund σ₂ hi₂ _ _ hrelease
  have h₁ := h.interference hi₁
  have h₂ := h₁.interference hi₂
  obtain ⟨x₁, hx₁, he₁, -⟩ := h₁.get
  obtain ⟨x₂, hx₂, he₂, -⟩ := h₂.get
  simp only [ensure_eq_ok, Bool.and_eq_true, beq_iff_eq] at hsame hrefund hrelease
  obtain ⟨⟨⟨hadmin, hreason⟩, hrefundAmount⟩, hreleaseAmount⟩ := hsame
  refine h₂.commit_nothing (fun _ _ => rfl) fun x' σ' he hget => ?_
  have hfinds : d.Finds ⟨adminId, dto.reason, dto.refundToBorrowerMinor,
      dto.releaseToLenderMinor, commandKey⟩ dispute := by
    refine ⟨hdispute, ⟨hstatus, hadmin, hreason, ?_, ?_⟩, fun hne => ?_, fun hne => ?_⟩
    · exact congrArg minorToDecimal hrefundAmount
    · exact congrArg minorToDecimal hreleaseAmount
    · rw [← Deal.hasOperationKey_of_forget he₁]
      exact hasOperationKey_of_leg hx₁ hrefund hne
    · rw [← Deal.hasOperationKey_of_forget he₂]
      exact hasOperationKey_of_leg hx₂ hrelease hne
  exact ⟨⟨rfl, rfl⟩, _, x', hasked, hget, hfinds.congr he⟩

/-- **A call that returns found its decision recorded**, by itself or before it. -/
theorem wp_resolveDispute (env : Env) (adminId bookingId : Id)
    (dto : DisputeService.ResolveDisputeDto) (idempotencyKey : String) (now dbNow : Time)
    (refundId releaseId : Id) (σ : Store) :
    wp (contract sha256 ok) (DisputeService.resolveDispute env adminId bookingId dto
      idempotencyKey now dbNow refundId releaseId)
      (DisputeService.Answered env adminId bookingId dto idempotencyKey) [] [] σ := by
  simp only [DisputeService.resolveDispute, Prog.bind_eq, wp_bind, wp_acquire, wp_select, wp_lift,
    required_eq_ok]
  intro _ hpolicy commandKey hkey _ hrefund _ hrelease σ₁ _ _ _ _ σ₂ _ _ σ₃ _ _ dispute hdispute
    σ₄ hi₄ _ σ₅ hi₅ _ deposit hdeposit _ hsum
  have hasked : Decision.AskedBy ⟨adminId, dto.reason, dto.refundToBorrowerMinor,
      dto.releaseToLenderMinor, commandKey⟩ env adminId dto idempotencyKey :=
    ⟨hpolicy, hkey, hrefund, hrelease, rfl, rfl, rfl, rfl⟩
  have hL : .booking bookingId ∈ [LockKey.booking bookingId] := List.mem_singleton_self _
  obtain ⟨d, hd, hdd⟩ := Option.bind_eq_some_iff.mp hdispute
  have h₃ : Local bookingId d id [] [.booking bookingId] [] σ₃ := by
    refine Local.start hL hd fun hu => ?_
    rw [hu.dispute] at hdd
    cases hdd
  have h₄ := h₃.interference hi₄
  have h₅ := h₄.interference hi₅
  rw [h₅.deposit] at hdeposit
  split
  · rename_i hdecided
    refine wp_repeatedDecision hasked h₅ hdd fun hopen => ?_
    simp [hopen] at hdecided
  · simp only [wp_bind, wp_lift]
    intro _ hopen
    simp only [ensure_eq_ok, Bool.and_eq_true, beq_iff_eq, h₄.booking, Option.any_some] at hopen
    obtain ⟨⟨hopen, hreturned⟩, hdisputed⟩ := hopen
    refine h₅.createLeg fun hfresh₁ L ω σ h => ?_
    refine h.createLeg fun hfresh₂ L ω σ h => ?_
    refine h.onDeal (Deal.blind_setDepositStatus .resolving) fun L ω σ h => ?_
    refine h.onDeal (Deal.blind_updateDispute _) fun L ω σ h => ?_
    refine h.onDeal (Deal.blind_addAudit _) fun L ω σ h => ?_
    refine h.complete fun c _ L ω σ h => ?_
    refine h.commit_action (fun x _ => rfl) ?_ (by simp [Local.rowsOf, Action.writesBooking,
      Action.operationId]) fun x σ' he hguard hget => ⟨⟨rfl, rfl⟩, _, _, hasked, hget,
        Action.finds_resolve hguard ((Deal.dispute_of_forget he).trans hdd)⟩
    intro x σ' _ _ hx
    have hfresh : dto.releaseToLenderMinor ≠ 0 →
        Action.Fresh d releaseId (.resolve commandKey .releaseToLender) ∧
          (dto.refundToBorrowerMinor ≠ 0 → refundId ≠ releaseId) := by
      intro hne
      have hf := hfresh₂ hne
      by_cases hz : dto.refundToBorrowerMinor = 0
      · simp only [Action.createLeg, hz, bne_self_eq_false, Deal.onlyIf_false] at hf
        exact ⟨hf, fun h => absurd hz h⟩
      · have hb : (dto.refundToBorrowerMinor != 0) = true := by simpa using hz
        simp only [Action.createLeg, hb, Deal.onlyIf_true] at hf
        obtain ⟨hf, hne'⟩ := hf.of_createOperation
        exact ⟨hf, fun _ => (hne' (hfresh₁ hz).id).symm⟩
    simp only [DisputeService.assertResolutionLeg, ensure_eq_ok, Bool.and_eq_true,
      decide_eq_true_eq] at hrefund hrelease
    refine ⟨⟨dispute, ?_, hopen⟩, ?_, hrefund.2, hrelease.2, ⟨deposit, ?_, hdisputed, ?_⟩,
      fun hne => (hfresh₁ hne).congr hx.symm, fun hne => (hfresh hne).1.congr hx.symm,
      fun h₁ h₂ => (hfresh h₂).2 h₁⟩
    · rw [Deal.dispute_of_forget hx, hdd]
    · rw [Deal.booking_of_forget hx]
      exact hreturned
    · rw [Deal.deposit_of_forget hx]
      exact hdeposit
    · simpa [decimalToMinor] using hsum

theorem safe_resolveDispute (env : Env) (adminId bookingId : Id)
    (dto : DisputeService.ResolveDisputeDto) (idempotencyKey : String) (now dbNow : Time)
    (refundId releaseId : Id) :
    Safe (contract sha256 ok) (DisputeService.resolveDispute env adminId bookingId dto
      idempotencyKey now dbNow refundId releaseId) :=
  fun σ => wp_mono _ (fun _ _ _ _ h => h.1)
    (wp_resolveDispute env adminId bookingId dto idempotencyKey now dbNow refundId releaseId σ)

/-! ## Retries -/

/-- An operation read under the lock of its booking. -/
theorem Local.enter_operation {k o : Id} {L : List LockKey} {σ : Store} {op : DepositOperation}
    (hL : .booking k ∈ L) (ho : (view [] σ.1).operation k o = some op) :
    ∃ d, d.operations.get o = some op ∧ Local k d id [] L [] σ := by
  obtain ⟨d, hd, hop⟩ := Option.bind_eq_some_iff.mp ho
  refine ⟨d, hop, Local.start hL hd fun hu => ?_⟩
  rw [hu.get_operations] at hop
  cases hop

/-- The row of an operation, up to its lease. -/
theorem Deal.get_operation_of_forget {d d' : Deal} (h : d.forget = d'.forget) {o : Id}
    {op : DepositOperation} (ho : d.operations.get o = some op) :
    ∃ op', d'.operations.get o = some op' ∧ op'.forget = op.forget := by
  have hops := Deal.operations_of_forget h o
  rw [ho, Option.map_some, eq_comm, Option.map_eq_some_iff] at hops
  exact hops

theorem safe_retryFailedOperation (env : Env) (adminId bookingId operationId : Id)
    (idempotencyKey : String) (now dbNow : Time) (retryId : Id) :
    Safe (contract sha256 ok) (DepositService.retryFailedOperation env adminId bookingId
      operationId idempotencyKey now dbNow retryId) := by
  intro σ
  simp only [DepositService.retryFailedOperation, Prog.bind_eq, wp_bind, wp_acquire, wp_select,
    wp_lift, required_eq_ok]
  intro _ _ commandKey _ _ _ _ _ _ σ₁ _ _ σ₂ _ _ operation hop σ₃ hi₃ _ σ₄ hi₄ _ σ₅ hi₅ _
  have hL : .booking bookingId ∈ [LockKey.booking bookingId] := List.mem_singleton_self _
  obtain ⟨d, hop, h₂⟩ := Local.enter_operation hL hop
  have h₃ := h₂.interference hi₃
  have h₄ := h₃.interference hi₄
  have h₅ := h₄.interference hi₅
  split
  · simp only [wp_bind, wp_lift]
    intro _ _ _ _
    exact wp_commit_noop (fun _ _ => rfl) fun _ => ⟨rfl, rfl⟩
  · simp only [wp_bind, wp_lift, wp_select, h₃.deposit, h₄.dispute]
    intro _ hretry σ₆ hi₆ _ _ hanother
    have h₆ := h₅.interference hi₆
    rw [h₆.any_operations (fun _ _ => rfl)] at hanother
    refine h₆.createOperation fun hfresh L ω σ h => ?_
    refine h.onDeal (Deal.blind_addAudit _) fun L ω σ h => ?_
    intro _ _
    refine h.commit (fun x _ => rfl) ?_ (by simp [Local.rowsOf, Action.writesBooking,
      Action.operationId]) fun _ => ⟨rfl, rfl⟩
    intro x σ' _ _ hx
    simp only [ensure_eq_ok, Bool.not_eq_true', id] at hretry hanother
    have hfailed : operation.status = .failed := by
      simp only [DepositService.retryable, Bool.and_eq_true, beq_iff_eq] at hretry
      exact hretry.1.1.1
    obtain ⟨op, hget, hforget⟩ := Deal.get_operation_of_forget hx.symm hop
    obtain ⟨hkind, hamount, hstatus, -⟩ := DepositOperation.eq_of_forget hforget
    refine ⟨⟨op, hget, hkind, hamount, hstatus.trans hfailed⟩, ?_, ?_, hfresh.congr hx.symm⟩
    · rw [Deal.deposit_of_forget hx, Deal.dispute_of_forget hx]
      exact hretry
    · rw [Deal.any_of_forget hx fun _ _ => rfl]
      exact hanother

/-! ## The operation worker -/

namespace Action

theorem legSettled_iff {kind : DepositOperationKind} {amount : Decimal} {d : Deal} :
    LegSettled kind amount d ↔ amount.minor = 0 ∨ d.operations.any (fun _ op =>
      op.kind == kind && op.amount == amount && op.status == .succeeded) = true := by
  simp only [LegSettled, Table.any_eq_true, Bool.and_eq_true, beq_iff_eq, and_assoc]

theorem LegSettled.congr {kind : DepositOperationKind} {amount : Decimal} {d d' : Deal}
    (h : d.forget = d'.forget) : LegSettled kind amount d ↔ LegSettled kind amount d' := by
  rw [legSettled_iff, legSettled_iff, Deal.any_of_forget h fun _ _ => rfl]

end Action

namespace DepositOperationProcessor

theorem safe_claim (bookingId operationId : Id) (now : Time) :
    Safe (contract sha256 ok) (claim bookingId operationId now) := by
  intro σ
  simp only [claim, Prog.bind_eq, wp_bind, wp_updateWhere]
  intro σ₁ _ _
  split
  · rename_i hmatched
    obtain ⟨op, hop, hclaim⟩ := (Option.any_eq_true _ _).mp hmatched
    simp only [wp_bind, wp_select, Prog.pure_eq, wp_ret]
    intro σ₂ hi₂ _ σ₃ hi₃ _ σ₄ hi₄ _ _
    have hL : .operationRow bookingId operationId ∈
        [LockKey.operationRow bookingId operationId] ++ [] := List.mem_singleton_self _
    have hop₄ : σ₄.1.operation bookingId operationId = some op :=
      interference_keeps (fun _ _ => Other.operation hL)
        (interference_trans hi₂ (interference_trans hi₃ hi₄)) hop
    obtain ⟨d, hd, hget⟩ := Option.bind_eq_some_iff.mp hop₄
    refine ⟨⟨movesDeals_one (k := bookingId) (fun k' hk => by simp [Event.move, hk]) ?_ ?_, rfl,
      trivial, ⟨rfl, rfl, trivial, by simp [Event.uploadKeys, Event.consumed, Event.rowKeys]⟩,
      .of_same trivial ⟨rfl, rfl, rfl⟩⟩, rfl, rfl⟩
    · simp only [Event.move, if_true]
      rfl
    · intro d' hd'
      rw [hd, Option.some.injEq] at hd'
      subst hd'
      simp only [Event.move, if_true]
      exact ⟨⟨op, hget, hclaim⟩, by simp [DealMove.keys]⟩
  · rw [wp_bind]
    exact wp_commit_noop (fun _ _ => rfl) fun _ => ⟨rfl, rfl⟩

section Outcome

variable {k o : Id} {d : Deal} {g : Deal → Deal} {ks L : List LockKey}
  {ω : List (Database → Database)} {σ : Store}

/-- The totals are complete and, under a decision, every leg has its operation. -/
def Settled (total : Bool) (d : Deal) : Prop :=
  total = true ∧ ∀ dispute, d.dispute = some dispute → dispute.status ≠ .opened →
    Action.LegSettled .refund dispute.refundToBorrowerAmount d ∧
      Action.LegSettled .releaseToLender dispute.releaseToLenderAmount d

private theorem legSettled_view (h : Local k d g ks L ω σ) (kind : DepositOperationKind)
    (amount : Decimal) :
    legSettled kind amount (view ω σ.1) k = true ↔ Action.LegSettled kind amount (g d) := by
  rw [legSettled, Bool.or_eq_true, h.any_operations (fun _ _ => rfl), Action.legSettled_iff]
  simp [decimalToMinor]

theorem wp_checkResolved {total : Bool}
    {Q : Bool → List LockKey → List (Database → Database) → Store → Prop}
    (h : Local k d g ks L ω σ)
    (hQ : ∀ r, (r = true ↔ Settled total (g d)) → ∀ σ, Local k d g ks L ω σ → Q r L ω σ) :
    wp (contract sha256 ok) (checkResolved k total) Q L ω σ := by
  unfold checkResolved
  cases total with
  | false => exact hQ false (by simp [Settled]) σ h
  | true =>
    simp only [if_true, Prog.bind_eq, wp_bind, wp_select]
    intro σ₁ hi₁ _
    have h₁ := h.interference hi₁
    rw [h₁.dispute]
    cases hdispute : (g d).dispute.filter fun d => d.status == .underReview ||
        d.status == .resolved with
    | none =>
      refine hQ true ?_ σ₁ h₁
      refine iff_of_true rfl ⟨rfl, fun dispute hd hne => ?_⟩
      rw [hd, Option.filter_eq_none_iff] at hdispute
      have := hdispute dispute rfl
      cases hs : dispute.status <;> simp [hs] at this hne
    | some dispute =>
      rw [Option.filter_eq_some_iff] at hdispute
      obtain ⟨hd, hstatus⟩ := hdispute
      have hne : dispute.status ≠ .opened := by
        rintro hs
        simp [hs] at hstatus
      simp only [wp_bind, wp_select]
      intro σ₂ hi₂ _
      have h₂ := h₁.interference hi₂
      cases hrefund : legSettled .refund dispute.refundToBorrowerAmount (view ω σ₂.1) k with
      | false =>
        refine hQ false ?_ σ₂ h₂
        refine iff_of_false Bool.false_ne_true fun hset => ?_
        have := (legSettled_view h₂ _ _).mpr (hset.2 dispute hd hne).1
        rw [hrefund] at this
        cases this
      | true =>
        simp only [if_true, wp_select]
        intro σ₃ hi₃ _
        have h₃ := h₂.interference hi₃
        refine hQ _ ?_ σ₃ h₃
        rw [legSettled_view h₃]
        refine ⟨fun hrelease => ⟨rfl, fun dispute' hd' _ => ?_⟩, fun hset => (hset.2 _ hd hne).2⟩
        rw [hd, Option.some.injEq] at hd'
        subst hd'
        exact ⟨(legSettled_view h₂ _ _).mp hrefund, hrelease⟩

theorem blind_postpone (t : Time) : Deal.Blind (Deal.updateOperation o (postponeUpdate t)) :=
  Deal.blind_updateOperation o fun _ => rfl

theorem blind_decline (errorCode : String) (now : Time) :
    Deal.Blind (Deal.updateOperation o (declineUpdate errorCode now)) :=
  Deal.blind_updateOperation o fun _ => rfl

theorem blind_settle (providerOperationId : String) (now : Time) :
    Deal.Blind (Deal.updateOperation o (settleUpdate providerOperationId now)) :=
  Deal.blind_updateOperation o fun _ => rfl

/-- An operation that was pending when it was read under the lock still is. -/
private theorem pending_of_forget {x : Deal} {operation : DepositOperation}
    (hx : x.forget = d.forget) (hop : d.operations.get o = some operation)
    (hp : operation.status = .pending) :
    ∃ op, x.operations.get o = some op ∧ op.status = .pending ∧ op.kind = operation.kind ∧
      op.amount = operation.amount := by
  obtain ⟨op, hget, hforget⟩ := Deal.get_operation_of_forget hx.symm hop
  obtain ⟨hkind, hamount, hstatus, -⟩ := DepositOperation.eq_of_forget hforget
  exact ⟨op, hget, hstatus.trans hp, hkind, hamount⟩

private theorem wp_applySuccess (h : Local k d id [] L [] σ) {operation : DepositOperation}
    {deposit : BookingDeposit} (hop : d.operations.get o = some operation)
    (hpending : operation.status = .pending) (hdep : d.deposit = some deposit)
    (processingUntil : Time) (providerOperationId : String) (now : Time) :
    wp (contract sha256 ok) (applySuccess k o operation deposit processingUntil
      providerOperationId now) (fun _ L ω _ => L = [] ∧ ω = []) L [] σ := by
  unfold applySuccess
  split
  · exact wp_commit_noop (fun _ _ => rfl) fun _ => ⟨rfl, rfl⟩
  · rename_i hresolving
    simp only [Prog.bind_eq, wp_bind, wp_lift]
    intro _ hcheck
    simp only [ensure_eq_ok, Bool.and_eq_true, Bool.or_eq_true, beq_iff_eq,
      decide_eq_true_eq] at hcheck
    obtain ⟨hkind, htotal⟩ := hcheck
    refine h.updateWhere (blind_settle providerOperationId now) ?_ ?_
    · intro L ω σ h
      simp only [if_true, wp_bind]
      refine wp_checkResolved h fun resolved hresolved σ h => ?_
      refine h.onDeal (Deal.blind_updateDeposit _) fun L ω σ h => ?_
      have hcommit : ∀ L ω σ, Local k d (fun x => (x.updateOperation o
            (settleUpdate providerOperationId now)
          |>.updateDeposit (settleDeposit operation.kind operation.amount resolved)
          |>.onlyIf resolved (Deal.completeAfterReturn · .depositSettled now)))
            ([.depositRow k] ++ [.operationRow k o]) L ω σ →
          wp (contract sha256 ok) (commit (.deal k (.settle o operation.kind operation.amount
            providerOperationId now resolved))) (fun _ L ω _ => L = [] ∧ ω = []) L ω σ := by
        intro L ω σ h
        refine h.commit (fun x _ => rfl) ?_ (by simp [Local.rowsOf, Action.writesBooking,
          Action.operationId]) fun _ => ⟨rfl, rfl⟩
        intro x σ' _ _ hx
        have hsettle := blind_settle (o := o) providerOperationId now x d hx
        have hleg : ∀ kind amount, Action.LegSettled kind amount
            (x.updateOperation o (settleUpdate providerOperationId now)) ↔
            Action.LegSettled kind amount
              (d.updateOperation o (settleUpdate providerOperationId now)) :=
          fun kind amount => Action.LegSettled.congr hsettle
        refine ⟨pending_of_forget hx hop hpending, hkind, deposit, ?_, by simpa using hresolving,
          htotal, ?_, ?_⟩
        · rw [Deal.deposit_of_forget hx]
          exact hdep
        · intro hr
          obtain ⟨ht, hlegs⟩ := hresolved.mp hr
          refine ⟨beq_iff_eq.mp ht, fun dispute hdispute hne => ?_⟩
          rw [hleg, hleg]
          rw [Deal.dispute_of_forget hx] at hdispute
          exact hlegs dispute hdispute hne
        · intro hr ht
          by_contra hno
          refine hr (hresolved.mpr ⟨beq_iff_eq.mpr ht, fun dispute hdispute hne => ?_⟩)
          by_contra hlegs
          refine hno ⟨dispute, ?_, hne, ?_⟩
          · rw [Deal.dispute_of_forget hx]
            exact hdispute
          · rw [hleg, hleg]
            exact hlegs
      simp only [wp_when]
      refine ⟨fun hr => ?_, fun hr => ?_⟩
      · subst hr
        simp only [wp_bind]
        exact h.complete fun c _ L ω σ h => hcommit L ω σ h
      · subst hr
        exact hcommit L ω σ h
    · intro L ω σ h
      exact h.commit_noop (fun _ _ => rfl) fun _ => ⟨rfl, rfl⟩

theorem safe_applyOutcome (bookingId operationId : Id) (attempts : Nat) (processingUntil : Time)
    (outcome : ProviderOperationResult) (now : Time) :
    Safe (contract sha256 ok)
      (applyOutcome bookingId operationId attempts processingUntil outcome now) := by
  intro σ
  simp only [applyOutcome, Prog.bind_eq, wp_bind, wp_acquire, wp_select]
  intro σ₁ _ _ σ₂ _ _ σ₃ hi₃ _
  have hL : .booking bookingId ∈ [LockKey.booking bookingId] := List.mem_singleton_self _
  cases hop : ((view [] σ₂.1).operation bookingId operationId).filter (leased processingUntil) with
  | none => exact wp_commit_noop (fun _ _ => rfl) fun _ => ⟨rfl, rfl⟩
  | some operation =>
    rw [Option.filter_eq_some_iff] at hop
    obtain ⟨hop, hleased⟩ := hop
    obtain ⟨d, hop, h₂⟩ := Local.enter_operation hL hop
    have h₃ := h₂.interference hi₃
    have hpending : operation.status = .pending := by
      simp only [leased, Bool.and_eq_true, beq_iff_eq] at hleased
      exact hleased.1
    simp only [wp_bind, wp_lift, required_eq_ok, h₃.deposit]
    intro deposit hdep
    cases outcome with
    | timeout =>
      simp only [wp_bind]
      refine h₃.updateWhere (blind_postpone _) ?_ ?_
      · intro L ω σ h
        refine h.commit (fun x _ => rfl) (fun x σ' _ _ hx => ?_) (by simp [Local.rowsOf,
          Action.writesBooking, Action.operationId]) fun _ => ⟨rfl, rfl⟩
        obtain ⟨op, hget, hp, -⟩ := pending_of_forget hx hop hpending
        exact ⟨op, hget, hp⟩
      · intro L ω σ h
        exact h.commit_noop (fun _ _ => rfl) fun _ => ⟨rfl, rfl⟩
    | declined errorCode =>
      simp only [wp_bind]
      refine h₃.updateWhere (blind_decline errorCode now) ?_ ?_
      · intro L ω σ h
        simp only [if_true, wp_bind]
        refine h.onDeal (Deal.blind_addAudit _) fun L ω σ h => ?_
        refine h.commit (fun x _ => rfl) (fun x σ' _ _ hx => ?_) (by simp [Local.rowsOf,
          Action.writesBooking, Action.operationId]) fun _ => ⟨rfl, rfl⟩
        obtain ⟨op, hget, hp, -⟩ := pending_of_forget hx hop hpending
        exact ⟨op, hget, hp⟩
      · intro L ω σ h
        exact h.commit_noop (fun _ _ => rfl) fun _ => ⟨rfl, rfl⟩
    | succeeded providerOperationId =>
      exact wp_applySuccess h₃ hop hpending hdep processingUntil providerOperationId now

end Outcome

private theorem safe_callProvider (bookingId : Id) (key : String) (depositId : Id)
    (kind : DepositOperationKind) (amount : Int) (outcome : FakeOperationOutcome) :
    Safe (contract sha256 ok)
      (callProvider sha256 bookingId (.deposit key depositId kind amount outcome)) :=
  fun _ => wp_callProvider (fun _ _ => trivial) fun _ _ _ _ => ⟨rfl, rfl⟩

theorem safe_processOne (env : Env)
    (deliver : Except Error ProviderOperationResult → Except Error ProviderOperationResult)
    (bookingId operationId : Id) (now : Time) :
    Safe (contract sha256 ok) (processOne sha256 env deliver bookingId operationId now) := by
  refine (safe_claim bookingId operationId now).bind fun claimed => ?_
  cases claimed with
  | none => exact Safe.ret 0
  | some c =>
    obtain ⟨operation, deposit⟩ := c
    refine (Safe.lift _).bind fun _ => ?_
    have hrest : ∀ outcome, Safe (contract sha256 ok) ((applyOutcome bookingId operationId
        operation.attempts (now + operationLeaseMs) outcome now).bind fun _ => .ret 1) :=
      fun outcome => (safe_applyOutcome bookingId operationId _ _ outcome now).bind
        fun _ => Safe.ret 1
    cases env.policy.requireFakeSafeDeal with
    | error e => exact hrest .timeout
    | ok u =>
      refine (safe_callProvider bookingId _ _ _ _ _).bind fun answer => ?_
      cases deliver answer with
      | error e => exact hrest .timeout
      | ok result => exact hrest result

theorem safe_processPending (env : Env)
    (deliver : Id → Id → Except Error ProviderOperationResult →
      Except Error ProviderOperationResult) (now : Time) :
    Safe (contract sha256 ok) (processPending sha256 env deliver now) := by
  refine (Safe.lift _).bind fun _ => Safe.bind Safe.select fun pending => ?_
  exact Safe.forEach fun operation _ =>
    (safe_processOne env _ operation.1 operation.2 now).bind fun _ => Safe.ret ()

end DepositOperationProcessor

/-! ## Checkout -/

namespace DepositService

section Checkout

variable {k : Id} {d : Deal} {L : List LockKey} {σ : Store} {key : String}
  {stored : StoredOperation}

theorem provider_interference {σ' : Store}
    (hi : (contract sha256 ok).Interference L σ σ') (h : σ.2.provider.get key = some stored) :
    σ'.2.provider.get key = some stored :=
  interference_keeps (P := fun σ : Store => σ.2.provider.get key = some stored)
    (fun _ _ => Other.provider) hi h

/-- The inserts of a checkout; the provider's record outlives them. -/
private theorem wp_insertPayment (h : Local k d id [] L [] σ)
    (hp : σ.2.provider.get key = some stored) {borrowerId : Id} {amountMinor : Int}
    {providerOperationId : String} {hold : Option HoldData}
    {Q : Unit → List LockKey → List (Database → Database) → Store → Prop}
    (hQ : (∀ hd, hold = some hd → Action.Fresh d hd.operationId .hold) → ∀ L ω σ,
      σ.2.provider.get key = some stored →
      Local k d (fun x => Action.payHold hold { x with
        payment := some ⟨borrowerId, minorToDecimal amountMinor, .succeeded, providerOperationId⟩ })
        [] L ω σ → Q () L ω σ) :
    wp (contract sha256 ok) (insertPayment k borrowerId amountMinor providerOperationId hold)
      Q L [] σ := by
  simp only [insertPayment, Prog.bind_eq, wp_bind, wp_insertUnique]
  intro σ₁ hi₁ _ _
  have hp₁ := provider_interference hi₁ hp
  have h₁ := (h.interference hi₁).push [.paymentRow k] (Deal.blind_setPayment
    (some ⟨borrowerId, minorToDecimal amountMinor, .succeeded, providerOperationId⟩))
  cases hold with
  | none => exact hQ (by simp) _ _ σ₁ hp₁ (h₁.drop (by simp))
  | some hold =>
    simp only [wp_bind, onDeal, wp_write]
    intro σ₂ hi₂ _
    have hp₂ := provider_interference hi₂ hp₁
    have h₂ := (h₁.interference hi₂).push [.depositRow k] (Deal.blind_setDepositStatus .held)
    rw [createOperation, wp_insertUnique]
    intro σ₃ hi₃ _ htaken
    have hp₃ := provider_interference hi₃ hp₂
    have h₃ := h₂.interference hi₃
    rw [h₃.operationTaken, Bool.or_eq_false_iff] at htaken
    refine hQ ?_ _ _ σ₃ hp₃ ((h₃.push _ (Deal.blind_createOperation hold.operationId
      (holdOperation hold))).drop (by simp))
    rintro hd ⟨⟩
    exact ⟨by simpa using htaken.1, htaken.2⟩

end Checkout

theorem safe_checkout (env : Env) (borrowerId bookingId : Id) (outcome : FakeOperationOutcome)
    (idempotencyKey : String) (holdId : Id) (completedAt dbNow : Time) :
    Safe (contract sha256 ok) (checkout sha256 env borrowerId bookingId outcome idempotencyKey
      holdId completedAt dbNow) := by
  intro σ
  simp only [checkout, Prog.bind_eq, wp_bind, wp_acquire, wp_select, wp_lift, required_eq_ok,
    ensure_eq_ok, beq_iff_eq]
  intro _ _ _ _ σ₁ _ _ σ₂ _ _ σ₃ hi₃ _ σ₄ hi₄ _ booking hb _ hconfirmed snapshot hsnapshot
  have hL : .booking bookingId ∈ [LockKey.booking bookingId] := List.mem_singleton_self _
  simp only [Option.filter_eq_some_iff, beq_iff_eq] at hb hsnapshot
  obtain ⟨hb, hborrower⟩ := hb
  obtain ⟨hbound, hfake⟩ := hsnapshot
  obtain ⟨d, rfl, h₂⟩ := Local.enter hL hb (by simp [hconfirmed]) (by simp [hconfirmed])
  have h₃ := h₂.interference hi₃
  have h₄ := h₃.interference hi₄
  rw [h₃.payment, h₄.deposit]
  have hterms : ∀ x : Deal, x.forget = d.forget → x.booking.status = .confirmed ∧
      Action.FakeTerms x snapshot ∧ x.booking.borrowerId = borrowerId := by
    intro x hx
    rw [Action.FakeTerms, Deal.booking_of_forget hx]
    exact ⟨hconfirmed, ⟨hbound, hfake⟩, hborrower⟩
  refine wp_callProvider (fun σ' hi => ?_) fun σ₅ w hi₅ hw => ?_
  · obtain ⟨x, hx, he⟩ := (h₄.interference hi).kept
    exact ⟨rfl, hL, x, snapshot, hx, (hterms x he).1, (hterms x he).2.1, rfl⟩
  · have h₅ := (h₄.interference hi₅).world w
    intro result hresult
    have hrecord : w.provider.get idempotencyKey = some ⟨.checkout idempotencyKey bookingId
        snapshot.moneyMinor.total outcome, result⟩ := by
      rw [hw]
      exact FakeSafeDealProvider.get_of_execute_ok hresult
    cases result with
    | declined | timeout =>
      simp only [wp_bind]
      exact wp_commit_noop (fun _ _ => rfl) fun _ => ⟨rfl, rfl⟩
    | succeeded providerOperationId =>
      cases hpayment : d.payment with
      | some payment =>
        simp only [id, hpayment, wp_bind, wp_lift]
        intro _ _
        exact wp_commit_noop (fun _ _ => rfl) fun _ => ⟨rfl, rfl⟩
      | none =>
        simp only [id, hpayment, wp_bind, wp_lift]
        intro _ hmatches
        have hpay : ∀ (hold : Option HoldData) (σ₆ : Store),
            σ₆.2.provider.get idempotencyKey = some ⟨.checkout idempotencyKey bookingId
              snapshot.moneyMinor.total outcome, .succeeded providerOperationId⟩ →
            Local bookingId d id [] [.booking bookingId] [] σ₆ →
            (hold.isSome ↔ d.deposit.isSome) →
            (∀ h, hold = some h → h.amountMinor = snapshot.moneyMinor.deposit) →
            wp (contract sha256 ok) (insertPayment bookingId borrowerId
                snapshot.moneyMinor.total providerOperationId hold)
              (fun _ L ω σ => wp (contract sha256 ok) (commit (.deal bookingId (.pay borrowerId
                snapshot.moneyMinor.total idempotencyKey providerOperationId hold)))
                (fun _ L ω _ => L = [] ∧ ω = []) L ω σ) [.booking bookingId] [] σ₆ := by
          intro hold σ₆ hp₆ h₆ hsome hamount
          refine wp_insertPayment h₆ hp₆ fun hfresh L ω σ hp h => ?_
          refine h.commit (fun x _ => rfl) ?_ (by simp [Local.rowsOf, Action.writesBooking,
            Action.operationId]) fun _ => ⟨rfl, rfl⟩
          intro x σ' hi hx he
          obtain ⟨hstatus, hfaketerms, hborrow⟩ := hterms x he
          refine ⟨hborrow, hstatus, ?_, ⟨snapshot, hfaketerms, rfl, ?_, ?_, ?_⟩,
            ⟨outcome, provider_interference hi hp⟩⟩
          · rw [Deal.payment_of_forget he, hpayment]
          · rw [Deal.deposit_of_forget he]
            exact hmatches
          · rw [Deal.deposit_of_forget he]
            exact hsome
          · intro hd hhold
            exact ⟨hamount hd hhold, (hfresh hd hhold).congr he.symm⟩
        unfold requestHold
        by_cases hnone : d.deposit.isNone = true
        · rw [if_pos hnone]
          simp only [Prog.pure_eq, wp_ret, Option.map_none]
          refine hpay none _ hrecord h₅ ?_ (by simp)
          simpa using hnone
        · rw [if_neg hnone]
          simp only [Prog.bind_eq, wp_bind, wp_lift]
          refine wp_callProvider (fun _ _ => trivial) fun σ₆ w' hi₆ hw' => ?_
          intro hold hhold
          have h₆ := (h₅.interference hi₆).world w'
          have hrecord₆ : w'.provider.get idempotencyKey = some ⟨.checkout idempotencyKey
              bookingId snapshot.moneyMinor.total outcome, .succeeded providerOperationId⟩ := by
            rw [hw', Event.provider_applyWorld]
            exact FakeSafeDealProvider.get_execute_of_get (provider_interference hi₆ hrecord)
          cases hold with
          | declined => trivial
          | timeout => trivial
          | succeeded holdOperationId =>
            simp only [Prog.pure_eq, wp_ret, Option.map_some]
            refine hpay (some _) _ hrecord₆ h₆ ?_ ?_
            · cases hdep : d.deposit <;> simp [hdep] at hnone ⊢
            · rintro hd ⟨⟩
              rfl

end DepositService

/-! ## The deadline job -/

theorem safe_deadlineProcessOne (bookingId : Id) (now dbNow : Time) (operationId : Id) :
    Safe (contract sha256 ok)
      (DepositDeadlineService.processOne bookingId now dbNow operationId) := by
  intro σ
  simp only [DepositDeadlineService.processOne, Prog.bind_eq, wp_bind, wp_acquire, wp_select]
  intro σ₁ _ _ σ₂ _ _ σ₃ hi₃ _ σ₄ hi₄ _
  have hL : .booking bookingId ∈ [LockKey.booking bookingId] := List.mem_singleton_self _
  cases hdue : ((view [] σ₂.1).deposit bookingId).filter fun deposit =>
      DepositDeadlineService.due now deposit &&
        ((view [] σ₃.1).booking bookingId).any (·.status == .returned) &&
        ((view [] σ₄.1).dispute bookingId).isNone with
  | none =>
    rw [wp_bind]
    exact wp_commit_noop (fun _ _ => rfl) fun _ => ⟨rfl, rfl⟩
  | some deposit =>
    simp only [Option.filter_eq_some_iff, Bool.and_eq_true, Option.any_eq_true,
      Option.isNone_iff_eq_none, beq_iff_eq] at hdue
    obtain ⟨hdep, ⟨hdue, booking, hb, hreturned⟩, hdispute⟩ := hdue
    obtain ⟨d₃, hd₃, rfl⟩ := Option.map_eq_some_iff.mp hb
    -- the booking was read after its deposit: both come from one paid deal
    obtain ⟨d, h₂⟩ : ∃ d, Local bookingId d id [] [.booking bookingId] [] σ₂ := by
      rcases local_or_nothingPaid bookingId (σ := σ₂) hL with ⟨d, -, h⟩ | h
      · exact ⟨d, h⟩
      · exact absurd hreturned ((h.interference hL hi₃).booking hb).2.2.1
    have h₃ := h₂.interference hi₃
    have h₄ := h₃.interference hi₄
    rw [h₂.deposit] at hdep
    rw [h₃.booking, Option.some.injEq] at hb
    rw [h₄.dispute] at hdispute
    simp only [wp_bind, wp_select]
    intro σ₅ hi₅ _
    split
    · rw [wp_bind]
      exact wp_commit_noop (fun _ _ => rfl) fun _ => ⟨rfl, rfl⟩
    · simp only [wp_bind]
      refine (h₄.interference hi₅).createOperation fun hfresh L ω σ h => ?_
      refine h.onDeal (Deal.blind_setDepositStatus .resolving) fun L ω σ h => ?_
      refine h.complete fun c _ L ω σ h => ?_
      refine h.commit (fun x _ => rfl) ?_ (by simp [Local.rowsOf, Action.writesBooking,
        Action.operationId]) fun _ => ⟨rfl, rfl⟩
      intro x σ' _ _ hx
      refine ⟨?_, ?_, hfresh.congr hx.symm, deposit, ?_, hdue, rfl⟩
      · rw [Deal.booking_of_forget hx]
        exact (congrArg Booking.status hb).trans hreturned
      · rw [Deal.dispute_of_forget hx]
        exact hdispute
      · rw [Deal.deposit_of_forget hx]
        exact hdep

theorem safe_processDue (now dbNow : Time) (operationId : Id → Id) :
    Safe (contract sha256 ok) (DepositDeadlineService.processDue now dbNow operationId) := by
  refine Safe.bind Safe.select fun candidates => Safe.forEach fun bookingId _ => ?_
  exact (safe_deadlineProcessOne bookingId now dbNow (operationId bookingId)).bind
    fun _ => Safe.ret ()

end Sosedi
