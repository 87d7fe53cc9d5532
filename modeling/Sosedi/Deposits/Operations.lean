import Sosedi.Deals.Constants

/-!
# The operations of a deal

No update writes what an operation pays for: its kind, its amount, its key and the operation that
it repeats.  So the operations of a deal are a list that only grows.  Those that a decision creates
carry the key of the call that decided.

Proved here: an action appends the operations that it creates, and nothing else does
(`Action.orders_apply`, `DealMove.orders_apply`).
-/

namespace Sosedi

open DepositOperationProcessor

variable {d : Deal} {k : Id} {w : World}

/-- The columns of an operation that stay as the INSERT wrote them. -/
structure OperationOrder where
  kind : DepositOperationKind
  amount : Decimal
  idempotencyKey : OperationKey
  retryOfId : Option Id
  deriving DecidableEq

def DepositOperation.order (op : DepositOperation) : OperationOrder where
  kind := op.kind
  amount := op.amount
  idempotencyKey := op.idempotencyKey
  retryOfId := op.retryOfId

namespace Deal

/-- The operations of a deal, the oldest first. -/
def orders (d : Deal) : List (Id × OperationOrder) :=
  (d.operations.map DepositOperation.order).rows

theorem mem_orders {o : Id} {order : OperationOrder} : (o, order) ∈ d.orders ↔
    ∃ op, d.operations.get o = some op ∧ op.order = order := by
  rw [orders, ← Table.get_eq_some, Table.get_map, Option.map_eq_some_iff]

theorem orders_createOperation (d : Deal) {o : Id} (op : DepositOperation)
    (h : d.operations.get o = none) :
    (d.createOperation o op).orders = d.orders ++ [(o, op.order)] := by
  have hfresh : (d.operations.map DepositOperation.order).get o = none := by
    rw [Table.get_map, h, Option.map_none]
  rw [orders, createOperation, Table.map_insert, Table.rows_insert _ hfresh]
  rfl

theorem orders_updateOperation (d : Deal) (o : Id) {f : DepositOperation → DepositOperation}
    (hf : ∀ op, (f op).order = op.order) : (d.updateOperation o f).orders = d.orders := by
  rw [orders, updateOperation, Table.map_modify_of_eq _ _ _ _ hf]
  rfl

theorem orders_of_operations {d' : Deal} (h : d'.operations = d.operations) :
    d'.orders = d.orders := by rw [orders, orders, h]

end Deal

/-! ## What an action creates -/

namespace Action

/-- The operation of one leg of a decision. -/
def leg (o : Id) (kind : DepositOperationKind) (amountMinor : Int) (commandKey : String) :
    List (Id × OperationOrder) :=
  if amountMinor != 0 then
    [(o, ⟨kind, minorToDecimal amountMinor, .resolve commandKey kind, none⟩)]
  else []

/-- The operations that an action creates. -/
def created : Action → List (Id × OperationOrder)
  | cancel _ _ _ (some dep) refundId _ =>
    if dep.status == .held then [(refundId, ⟨.refund, dep.amount, .preHandoverRefund, none⟩)]
    else []
  | pay _ _ _ _ (some hold) =>
    [(hold.operationId, (DepositService.holdOperation hold).order)]
  | resolve _ _ refundMinor releaseMinor commandKey refundId releaseId _ _ =>
    leg refundId .refund refundMinor commandKey ++
      leg releaseId .releaseToLender releaseMinor commandKey
  | autoRefund amount operationId _ _ => [(operationId, ⟨.refund, amount, .autoRefund, none⟩)]
  | retry _ operationId operation commandKey retryId _ _ =>
    [(retryId, ⟨operation.kind, operation.amount, .retry operationId commandKey,
      some operationId⟩)]
  | _ => []

theorem orders_createLeg {o : Id} {kind : DepositOperationKind} {amount : Int} {key : String}
    (now dbNow : Time) (h : amount ≠ 0 → d.operations.get o = none) :
    (createLeg o kind amount key now dbNow d).orders = d.orders ++ leg o kind amount key := by
  by_cases hzero : amount = 0
  · subst hzero
    exact (List.append_nil _).symm
  · have hne : (amount != 0) = true := bne_iff_ne.mpr hzero
    rw [createLeg, leg, hne, Deal.onlyIf_true, d.orders_createOperation _ (h hzero), if_pos rfl]
    rfl

theorem orders_preHandoverRefund {depositRead : Option BookingDeposit} {refundId : Id}
    {dbNow : Time} (h : ∀ dep, depositRead = some dep → dep.status = .held →
      d.operations.get refundId = none) (actorId : Id) (isBorrower : Bool)
    (statusRead : BookingStatus) :
    (preHandoverRefund depositRead refundId dbNow d).orders =
      d.orders ++ (cancel actorId isBorrower statusRead depositRead refundId dbNow).created := by
  cases depositRead with
  | none => exact (List.append_nil _).symm
  | some dep =>
    by_cases hheld : dep.status = .held
    · have heq : (dep.status == .held) = true := beq_iff_eq.mpr hheld
      rw [preHandoverRefund, created, heq, Deal.onlyIf_true, if_pos rfl]
      exact (d.setDepositStatus .resolving).orders_createOperation _ (h dep rfl hheld)
    · have hne : (dep.status == .held) = false := beq_eq_false_iff_ne.mpr hheld
      rw [preHandoverRefund, created, hne]
      exact (List.append_nil _).symm

/-- **Operations are only added.** -/
theorem orders_apply {action : Action} (hg : action.guard k d w) :
    (action.apply k d).orders = d.orders ++ action.created := by
  cases action with
  | cancel actorId isBorrower statusRead depositRead refundId dbNow =>
    have hfresh : ∀ dep, depositRead = some dep → dep.status = .held →
        d.operations.get refundId = none := by
      intro dep hdep hheld
      obtain ⟨-, -, hg⟩ := hg
      rcases hg with ⟨-, -, hne, -⟩ | ⟨-, -, -, -, hread⟩
      · exact absurd hheld (hne dep hdep)
      · rcases hread dep hdep with hs | ⟨-, hf⟩
        · rw [hheld] at hs
          cases hs
        · exact hf.id
    have hold : ((d.cancelBooking (cancellationReasonOf isBorrower)).onlyIf
        (depositRead.any (·.status == .pending)) (Deal.setDepositStatus .cancelled)).operations =
          d.operations := by simp
    rw [← Deal.orders_of_operations hold]
    refine orders_preHandoverRefund (fun dep hdep hheld => ?_) actorId isBorrower statusRead
    rw [hold]
    exact hfresh dep hdep hheld
  | pay borrowerId amount key providerId hold =>
    cases hold with
    | none => exact (List.append_nil _).symm
    | some hold =>
      obtain ⟨-, -, -, ⟨snapshot, -, -, -, -, hhold⟩, -⟩ := hg
      exact Deal.orders_createOperation _ _ (hhold hold rfl).2.id
  | resolve adminId reason refundMinor releaseMinor key refundId releaseId now dbNow =>
    obtain ⟨-, -, -, -, -, hrefund, hrelease, hne⟩ := hg
    have hlegs : (apply k (resolve adminId reason refundMinor releaseMinor key refundId releaseId
        now dbNow) d).operations = (createLeg releaseId .releaseToLender releaseMinor key now dbNow
          (createLeg refundId .refund refundMinor key now dbNow d)).operations := by simp [apply]
    rw [Deal.orders_of_operations hlegs, orders_createLeg now dbNow fun hrelease' => ?_,
      orders_createLeg now dbNow fun hrefund' => (hrefund hrefund').id, List.append_assoc]
    · rfl
    · by_cases hzero : refundMinor = 0
      · subst hzero
        exact (hrelease hrelease').id
      · rw [createLeg, bne_iff_ne.mpr hzero, Deal.onlyIf_true, Deal.createOperation,
          Table.get_insert_ne _ _ (hne hzero hrelease').symm]
        exact (hrelease hrelease').id
  | autoRefund amount o now dbNow =>
    obtain ⟨-, -, hfresh, -⟩ := hg
    have hops : (apply k (autoRefund amount o now dbNow) d).operations =
        (d.createOperation o (.create .refund amount .autoRefund none now dbNow)).operations := by
      simp [apply]
    rw [Deal.orders_of_operations hops]
    exact d.orders_createOperation _ hfresh.id
  | retry adminId o operation key retryId now dbNow =>
    obtain ⟨-, -, -, hfresh⟩ := hg
    exact d.orders_createOperation _ hfresh.id
  | postpone o nextAttemptAt =>
    refine Eq.trans ?_ (List.append_nil _).symm
    exact d.orders_updateOperation o fun _ => rfl
  | decline o errorCode now =>
    refine Eq.trans ?_ (List.append_nil _).symm
    exact d.orders_updateOperation o fun _ => rfl
  | settle o kind amount providerId now resolved =>
    have hops : (apply k (settle o kind amount providerId now resolved) d).operations =
        (d.updateOperation o (settleUpdate providerId now)).operations := by simp [apply]
    rw [Deal.orders_of_operations hops]
    refine Eq.trans ?_ (List.append_nil _).symm
    exact d.orders_updateOperation o fun _ => rfl
  | expire | confirmAct | complete | openDispute =>
    refine (Deal.orders_of_operations ?_).trans (List.append_nil _).symm
    simp [apply, Deal.cancelPendingDeposit]

end Action

def DealMove.created : DealMove → List (Id × OperationOrder)
  | act action => action.created
  | _ => []

theorem DealMove.orders_apply {m : DealMove} (hg : m.guard k d w) :
    (m.apply k d).orders = d.orders ++ m.created := by
  cases m with
  | act action => exact Action.orders_apply hg
  | claim o now processingUntil =>
    refine Eq.trans ?_ (List.append_nil _).symm
    exact d.orders_updateOperation o fun _ => rfl
  | idle | createAct | confirm | compete | blocked =>
    refine (Deal.orders_of_operations ?_).trans (List.append_nil _).symm
    simp [apply, Deal.confirm, Deal.compete, Deal.blocked, Deal.cancelIfPending,
      Deal.cancelPendingDeposit]

/-! ## Decisions -/

/-- What a call decides, and under which key. -/
structure Decision where
  adminId : Id
  reason : String
  refundMinor : Int
  releaseMinor : Int
  commandKey : String

/-- The call passes the checks of its arguments, and asks for the decision. -/
structure Decision.AskedBy (x : Decision) (env : Env) (adminId : Id)
    (dto : DisputeService.ResolveDisputeDto) (idempotencyKey : String) : Prop where
  policy : env.policy.requireFakeSafeDeal = .ok ()
  key : requireCommandKey idempotencyKey = .ok x.commandKey
  refundLeg : DisputeService.assertResolutionLeg dto.refundToBorrowerMinor = .ok ()
  releaseLeg : DisputeService.assertResolutionLeg dto.releaseToLenderMinor = .ok ()
  adminId : adminId = x.adminId
  reason : dto.reason = x.reason
  refund : dto.refundToBorrowerMinor = x.refundMinor
  release : dto.releaseToLenderMinor = x.releaseMinor

/-- The row of the dispute has the decision. -/
structure FinancialDispute.Records (row : FinancialDispute) (x : Decision) : Prop where
  status : row.status ≠ .opened
  adminId : row.resolvedById = some x.adminId
  reason : row.decisionReason = some x.reason
  refund : row.refundToBorrowerAmount = minorToDecimal x.refundMinor
  release : row.releaseToLenderAmount = minorToDecimal x.releaseMinor

/-- The dispute has the decision, and the operations have its key. -/
structure Deal.Finds (d : Deal) (x : Decision) (row : FinancialDispute) : Prop where
  dispute : d.dispute = some row
  records : row.Records x
  refundKey : x.refundMinor ≠ 0 → d.hasOperationKey (.resolve x.commandKey .refund) = true
  releaseKey :
    x.releaseMinor ≠ 0 → d.hasOperationKey (.resolve x.commandKey .releaseToLender) = true

theorem Deal.Finds.congr {d' : Deal} {x : Decision} {row : FinancialDispute} (h : d.Finds x row)
    (he : d'.forget = d.forget) : d'.Finds x row where
  dispute := (Deal.dispute_of_forget he).trans h.dispute
  records := h.records
  refundKey hne := (Deal.hasOperationKey_of_forget he _).trans (h.refundKey hne)
  releaseKey hne := (Deal.hasOperationKey_of_forget he _).trans (h.releaseKey hne)

theorem Deal.hasOperationKey_iff {key : OperationKey} : d.hasOperationKey key = true ↔
    ∃ r ∈ d.orders, r.2.idempotencyKey = key := by
  constructor
  · intro h
    obtain ⟨o, op, hop, hkey⟩ := Table.any_eq_true.mp h
    exact ⟨(o, op.order), Deal.mem_orders.mpr ⟨op, hop, rfl⟩, beq_iff_eq.mp hkey⟩
  · rintro ⟨⟨o, order⟩, hr, rfl⟩
    obtain ⟨op, hop, rfl⟩ := Deal.mem_orders.mp hr
    exact Table.any_eq_true.mpr ⟨o, op, hop, beq_self_eq_true _⟩

theorem Action.mem_leg {o : Id} {kind : DepositOperationKind} {amount : Int} {key : String}
    {r : Id × OperationOrder} : r ∈ leg o kind amount key ↔
      amount ≠ 0 ∧ r = (o, ⟨kind, minorToDecimal amount, .resolve key kind, none⟩) := by
  by_cases hzero : amount = 0 <;> simp [leg, hzero]

/-- A decision finds itself. -/
theorem Action.finds_resolve {adminId refundId releaseId : Id} {reason key : String}
    {refundMinor releaseMinor : Int} {now dbNow : Time} {row : FinancialDispute}
    (hg : (resolve adminId reason refundMinor releaseMinor key refundId releaseId now dbNow).guard
      k d w) (hrow : d.dispute = some row) :
    ((resolve adminId reason refundMinor releaseMinor key refundId releaseId now dbNow).apply k
      d).Finds ⟨adminId, reason, refundMinor, releaseMinor, key⟩
        (DisputeService.decision adminId reason refundMinor releaseMinor now row) := by
  have horders := orders_apply hg
  refine ⟨?_, ⟨nofun, rfl, rfl, rfl, rfl⟩, fun hne => ?_, fun hne => ?_⟩
  · simp [apply, hrow]
  · refine Deal.hasOperationKey_iff.mpr
      ⟨(refundId, ⟨.refund, minorToDecimal refundMinor, .resolve key .refund, none⟩), ?_, rfl⟩
    rw [horders]
    exact List.mem_append_right _ (List.mem_append_left _ (mem_leg.mpr ⟨hne, rfl⟩))
  · refine Deal.hasOperationKey_iff.mpr ⟨(releaseId,
      ⟨.releaseToLender, minorToDecimal releaseMinor, .resolve key .releaseToLender, none⟩), ?_, rfl⟩
    rw [horders]
    exact List.mem_append_right _ (List.mem_append_right _ (mem_leg.mpr ⟨hne, rfl⟩))

end Sosedi
