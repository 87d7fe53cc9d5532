import Sosedi.Deposits.Disputes
import Sosedi.Transactions.Behaviours

/-!
# Decisions of disputes

A dispute has no decision and no operation of one, or it has one decision and that decision's
operations, for good (`Deal.DecidedBy`).

Proved here:

* `DealMove.decided_apply`: no move changes a decision;
* `repeated_obeys`, `other_obeys`: what a call does that finds a decision;
* `decided_once`: in every state of a run, what holds of a dispute and of the calls that decide.
-/

namespace Sosedi

open Transactions

variable {d : Deal} {k : Id} {w : World}

/-! ## Root operations -/

def OperationKey.isResolve : OperationKey → Bool
  | resolve _ _ => true
  | _ => false

/-- The operations that a decision created. -/
def Deal.roots (d : Deal) : List (Id × OperationOrder) :=
  d.orders.filter (·.2.idempotencyKey.isResolve)

/-- One operation for each amount to pay. -/
def Decision.legs (x : Decision) (refundId releaseId : Id) : List (Id × OperationOrder) :=
  Action.leg refundId .refund x.refundMinor x.commandKey ++
    Action.leg releaseId .releaseToLender x.releaseMinor x.commandKey

/-- The amount of a leg. -/
def Decision.minor (x : Decision) : DepositOperationKind → Int
  | .refund => x.refundMinor
  | .releaseToLender => x.releaseMinor
  | _ => 0

theorem Decision.filter_legs (x : Decision) (refundId releaseId : Id) :
    (x.legs refundId releaseId).filter (·.2.idempotencyKey.isResolve) =
      x.legs refundId releaseId := by
  refine List.filter_eq_self.mpr fun r hr => ?_
  rcases List.mem_append.mp hr with hr | hr
  · obtain ⟨-, rfl⟩ := Action.mem_leg.mp hr
    rfl
  · obtain ⟨-, rfl⟩ := Action.mem_leg.mp hr
    rfl

/-! ## Decided disputes -/

structure Deal.Undecided (d : Deal) : Prop where
  opened : ∀ row, d.dispute = some row → row.status = .opened
  roots : d.roots = []

/-- The dispute has the decision `x`; its operations are those of `x`, each once, and add up to the
deposit. -/
structure Deal.DecidedBy (d : Deal) (x : Decision) : Prop where
  row : ∃ row, d.dispute = some row ∧ row.Records x
  nonneg : 0 ≤ x.refundMinor ∧ 0 ≤ x.releaseMinor
  total : ∃ dep, d.deposit = some dep ∧ 0 < dep.amount.minor ∧
    x.refundMinor + x.releaseMinor = dep.amount.minor
  roots : ∃ refundId releaseId, d.roots = x.legs refundId releaseId

structure Deal.DecisionFacts (d : Deal) : Prop where
  positive : ∀ dep, d.deposit = some dep → 0 < dep.amount.minor
  decided : d.Undecided ∨ ∃ x, d.DecidedBy x

/-- A move decides the dispute, or adds no root; then it keeps the dispute or opens one. -/
theorem DealMove.decision_apply {m : DealMove} (hg : m.guard k d w) :
    (∃ adminId reason refundMinor releaseMinor key refundId releaseId now dbNow, m = act
      (.resolve adminId reason refundMinor releaseMinor key refundId releaseId now dbNow)) ∨
    (m.apply k d).roots = d.roots ∧ ((m.apply k d).dispute = d.dispute ∨
      d.dispute = none ∧ ∃ row, (m.apply k d).dispute = some row ∧ row.status = .opened) := by
  have hroots : (m.apply k d).roots =
      d.roots ++ m.created.filter (·.2.idempotencyKey.isResolve) := by
    rw [Deal.roots, DealMove.orders_apply hg, List.filter_append, Deal.roots]
  have hsame : m.created.filter (·.2.idempotencyKey.isResolve) = [] →
      (m.apply k d).roots = d.roots := fun h => by rw [hroots, h, List.append_nil]
  cases m with
  | act action =>
    cases action with
    | resolve adminId reason refundMinor releaseMinor key refundId releaseId now dbNow =>
      exact Or.inl ⟨_, _, _, _, _, _, _, _, _, rfl⟩
    | openDispute row =>
      exact Or.inr ⟨hsame rfl, Or.inr ⟨hg.2.1, row, rfl, hg.2.2.1⟩⟩
    | cancel actorId isBorrower statusRead depositRead refundId dbNow =>
      refine Or.inr ⟨hsame ?_, Or.inl (by simp [apply, Action.apply])⟩
      cases depositRead with
      | none => rfl
      | some dep =>
        cases hheld : dep.status == .held <;>
          simp [created, Action.created, hheld, OperationKey.isResolve]
    | pay borrowerId amount key providerId hold =>
      refine Or.inr ⟨hsame ?_, Or.inl (by simp [apply, Action.apply])⟩
      cases hold <;> rfl
    | _ =>
      refine Or.inr ⟨hsame rfl, Or.inl ?_⟩
      simp [apply, Action.apply, Deal.cancelPendingDeposit]
  | _ =>
    refine Or.inr ⟨hsame rfl, Or.inl ?_⟩
    simp [apply, Deal.confirm, Deal.compete, Deal.blocked, Deal.cancelIfPending,
      Deal.cancelPendingDeposit, Deal.claim]

/-- **No move changes a decision.** -/
theorem DealMove.decided_apply {m : DealMove} {x : Decision} (h : d.DecidedBy x)
    (hg : m.guard k d w) : (m.apply k d).DecidedBy x ∧ (m.apply k d).dispute = d.dispute ∧
      (m.apply k d).roots = d.roots := by
  obtain ⟨row, hrow, hrecords⟩ := h.row
  have hkept : (m.apply k d).roots = d.roots ∧ (m.apply k d).dispute = d.dispute := by
    rcases DealMove.decision_apply hg with ⟨_, _, _, _, _, _, _, _, _, rfl⟩ |
      ⟨hroots, hdispute | ⟨hnone, -⟩⟩
    · -- a decision needs an open dispute
      obtain ⟨⟨row', hrow', hopen⟩, -⟩ := hg
      rw [hrow, Option.some.injEq] at hrow'
      exact absurd (hrow' ▸ hopen) hrecords.status
    · exact ⟨hroots, hdispute⟩
    · rw [hrow] at hnone
      cases hnone
  refine ⟨⟨⟨row, hkept.2.trans hrow, hrecords⟩, h.nonneg, ?_, ?_⟩, hkept.2, hkept.1⟩
  · obtain ⟨dep, hdep, hpos, htotal⟩ := h.total
    have hsome := Deal.isSome_deposit_of_depositTerms (m.depositTerms_apply (k := k) d)
    rw [hdep, Option.isSome_some, Option.isSome_iff_exists] at hsome
    obtain ⟨dep', hdep'⟩ := hsome
    obtain ⟨dep₁, hdep₁, hterms⟩ := m.deposit_inv hdep'
    rw [hdep, Option.some.injEq] at hdep₁
    subst hdep₁
    have hamount := BookingDeposit.amount_of_terms hterms
    exact ⟨dep', hdep', hamount ▸ hpos, hamount ▸ htotal⟩
  · rw [hkept.1]
    exact h.roots

/-- A decision of an open dispute. -/
theorem Deal.Undecided.resolve (h : d.Undecided) {adminId refundId releaseId : Id}
    {reason key : String} {refundMinor releaseMinor : Int} {now dbNow : Time}
    (hpos : ∀ dep, d.deposit = some dep → 0 < dep.amount.minor)
    (hg : (Action.resolve adminId reason refundMinor releaseMinor key refundId releaseId now
      dbNow).guard k d w) :
    ((Action.resolve adminId reason refundMinor releaseMinor key refundId releaseId now
      dbNow).apply k d).DecidedBy ⟨adminId, reason, refundMinor, releaseMinor, key⟩ := by
  have horders := Action.orders_apply hg
  have hterms := Action.depositTerms_apply (k := k) (.resolve adminId reason refundMinor
    releaseMinor key refundId releaseId now dbNow) d
  have hguard := hg
  obtain ⟨⟨row, hrow, -⟩, -, hrefund, hrelease, ⟨dep, hdep, -, htotal⟩, -⟩ := hguard
  obtain ⟨hdispute, hrecords, -⟩ := Action.finds_resolve hg hrow
  refine ⟨⟨_, hdispute, hrecords⟩, ⟨hrefund, hrelease⟩, ?_, refundId, releaseId, ?_⟩
  · rw [Deal.depositTerms, Deal.depositTerms, hdep, Option.map_some] at hterms
    obtain ⟨dep', hdep', hsame⟩ := Option.map_eq_some_iff.mp hterms
    have hamount : dep'.terms.amount = dep.terms.amount := by rw [hsame]
    have hminor : dep'.amount.minor = dep.amount.minor := congrArg Decimal.minor hamount
    exact ⟨dep', hdep', hminor ▸ hpos dep hdep, hminor ▸ htotal⟩
  · have hroots : d.orders.filter (·.2.idempotencyKey.isResolve) = [] := h.roots
    rw [Deal.roots, horders, List.filter_append, hroots, List.nil_append]
    exact Decision.filter_legs ⟨adminId, reason, refundMinor, releaseMinor, key⟩ refundId releaseId

theorem DealMove.decisionFacts_apply {m : DealMove} (h : d.DecisionFacts)
    (hg : m.guard k d w) : (m.apply k d).DecisionFacts := by
  refine ⟨fun dep' hdep' => ?_, ?_⟩
  · obtain ⟨dep, hdep, hterms⟩ := m.deposit_inv hdep'
    exact BookingDeposit.amount_of_terms hterms ▸ h.positive dep hdep
  · rcases h.decided with hopen | ⟨x, hx⟩
    · rcases DealMove.decision_apply hg with ⟨_, _, _, _, _, _, _, _, _, rfl⟩ |
        ⟨hroots, hdispute | ⟨-, row, hrow, hstatus⟩⟩
      · exact Or.inr ⟨_, hopen.resolve (w := w) h.positive hg⟩
      · exact Or.inl ⟨hdispute ▸ hopen.opened, hroots.trans hopen.roots⟩
      · refine Or.inl ⟨fun row' hrow' => ?_, hroots.trans hopen.roots⟩
        rw [hrow, Option.some.injEq] at hrow'
        exact hrow' ▸ hstatus
    · exact Or.inr ⟨x, (DealMove.decided_apply hx hg).1⟩

theorem DraftedFrom.decisionFacts {read : BookableItem} (h : DraftedFrom read d) :
    d.DecisionFacts := by
  refine ⟨fun dep hdep => (h.deposit hdep).1, Or.inl ⟨fun row hrow => ?_, ?_⟩⟩
  · rw [h.unpaid.1.dispute] at hrow
    cases hrow
  · rw [Deal.roots, Deal.orders, h.unpaid.1.operations]
    rfl

/-! ## Calls that find a decision -/

/-- The committed tables with a decided dispute. -/
def DecidedStore (k : Id) (x : Decision) (row : FinancialDispute) (σ : Store) : Prop :=
  ∃ d, σ.1.deals.get k = some d ∧ d.DecidedBy x ∧ d.dispute = some row

namespace Deal.DecidedBy

variable {x : Decision}

/-- An operation with a key of a decision is one of its own. -/
theorem key_eq (h : d.DecidedBy x) {commandKey : String} {kind : DepositOperationKind}
    (hkey : d.hasOperationKey (.resolve commandKey kind) = true) : commandKey = x.commandKey := by
  obtain ⟨refundId, releaseId, hroots⟩ := h.roots
  obtain ⟨r, hr, hrkey⟩ := Deal.hasOperationKey_iff.mp hkey
  have hmem : r ∈ d.roots := List.mem_filter.mpr ⟨hr, by rw [hrkey]; rfl⟩
  rw [hroots] at hmem
  rcases List.mem_append.mp hmem with hleg | hleg
  · obtain ⟨-, rfl⟩ := Action.mem_leg.mp hleg
    cases hrkey
    rfl
  · obtain ⟨-, rfl⟩ := Action.mem_leg.mp hleg
    cases hrkey
    rfl

/-- Both legs are not zero. -/
theorem key_unique (h : d.DecidedBy x) {row : FinancialDispute} {y : Decision}
    (hy : d.Finds y row) (hrefund : y.refundMinor = x.refundMinor)
    (hrelease : y.releaseMinor = x.releaseMinor) : y.commandKey = x.commandKey := by
  obtain ⟨dep, -, hpos, htotal⟩ := h.total
  by_cases hzero : x.refundMinor = 0
  · have hne : y.releaseMinor ≠ 0 := by omega
    exact h.key_eq (hy.releaseKey hne)
  · have hne : y.refundMinor ≠ 0 := by omega
    exact h.key_eq (hy.refundKey hne)

/-- The operation of a leg pays what the decision says. -/
theorem leg_of_key (h : d.DecidedBy x) {o : Id} {op : DepositOperation}
    {kind : DepositOperationKind} (hop : d.operations.get o = some op)
    (hkey : op.idempotencyKey = .resolve x.commandKey kind) :
    op.kind = kind ∧ op.amount = minorToDecimal (x.minor kind) := by
  obtain ⟨refundId, releaseId, hroots⟩ := h.roots
  have hmem : (o, op.order) ∈ d.roots :=
    List.mem_filter.mpr ⟨Deal.mem_orders.mpr ⟨op, hop, rfl⟩,
      by simp [DepositOperation.order, hkey, OperationKey.isResolve]⟩
  rw [hroots] at hmem
  rcases List.mem_append.mp hmem with hleg | hleg
  · obtain ⟨-, heq⟩ := Action.mem_leg.mp hleg
    simp only [DepositOperation.order, hkey, Prod.mk.injEq, OperationOrder.mk.injEq,
      OperationKey.resolve.injEq, true_and] at heq
    obtain ⟨-, hkind, hamount, rfl, -⟩ := heq
    exact ⟨hkind, hamount⟩
  · obtain ⟨-, heq⟩ := Action.mem_leg.mp hleg
    simp only [DepositOperation.order, hkey, Prod.mk.injEq, OperationOrder.mk.injEq,
      OperationKey.resolve.injEq, true_and] at heq
    obtain ⟨-, hkind, hamount, rfl, -⟩ := heq
    exact ⟨hkind, hamount⟩

theorem hasOperationKey (h : d.DecidedBy x) {kind : DepositOperationKind}
    (hne : x.minor kind ≠ 0) : d.hasOperationKey (.resolve x.commandKey kind) = true := by
  obtain ⟨refundId, releaseId, hroots⟩ := h.roots
  have hsub : ∀ r ∈ x.legs refundId releaseId, r ∈ d.orders := by
    rw [← hroots]
    exact fun r hr => (List.mem_filter.mp hr).1
  cases kind with
  | refund =>
    exact Deal.hasOperationKey_iff.mpr
      ⟨_, hsub _ (List.mem_append_left _ (Action.mem_leg.mpr ⟨hne, rfl⟩)), rfl⟩
  | releaseToLender =>
    exact Deal.hasOperationKey_iff.mpr
      ⟨_, hsub _ (List.mem_append_right _ (Action.mem_leg.mpr ⟨hne, rfl⟩)), rfl⟩
  | _ => exact absurd rfl hne

/-- The code finds the operations of a decision. -/
theorem hasResolutionOperation (h : d.DecidedBy x) {σ : Store}
    (hd : σ.1.deals.get k = some d) (kind : DepositOperationKind) :
    DisputeService.hasResolutionOperation x.commandKey kind (x.minor kind) σ.1 k = true := by
  by_cases hzero : x.minor kind = 0
  · simp [DisputeService.hasResolutionOperation, hzero]
  · obtain ⟨r, hr, hkey⟩ := List.any_eq_true.mp (h.hasOperationKey hzero)
    have hfound : ∃ r', d.operations.rows.find?
        (fun r => r.2.idempotencyKey == .resolve x.commandKey kind) = some r' :=
      Option.isSome_iff_exists.mp (List.find?_isSome.mpr ⟨r, hr, hkey⟩)
    obtain ⟨r', hr'⟩ := hfound
    have hkey' := List.find?_some hr'
    obtain ⟨hkind, hamount⟩ := h.leg_of_key (Table.get_eq_some.mpr (List.mem_of_find?_eq_some hr'))
      (beq_iff_eq.mp hkey')
    simp [DisputeService.hasResolutionOperation, DepositService.operationByKey, hd, hr', hkind,
      hamount, decimalToMinor, minorToDecimal]

end Deal.DecidedBy

section Repetition

variable {x : Decision} {row : FinancialDispute} {σ : Store} {env : Env}
  {adminId refundId releaseId : Id} {dto : DisputeService.ResolveDisputeDto}
  {idempotencyKey : String} {now dbNow : Time}

theorem DecidedStore.dispute (h : DecidedStore k x row σ) : σ.1.dispute k = some row := by
  obtain ⟨d, hd, -, hrow⟩ := h
  rw [Database.dispute, hd, Option.bind_some, hrow]

theorem DecidedStore.records (h : DecidedStore k x row σ) : row.Records x := by
  obtain ⟨d, hd, hx, hrow⟩ := h
  obtain ⟨row', hrow', hrecords⟩ := hx.row
  rw [hrow, Option.some.injEq] at hrow'
  exact hrow' ▸ hrecords

theorem DecidedStore.deposit (h : DecidedStore k x row σ) : ∃ dep, σ.1.deposit k = some dep ∧
    x.refundMinor + x.releaseMinor = dep.amount.minor := by
  obtain ⟨d, hd, hx, -⟩ := h
  obtain ⟨dep, hdep, -, htotal⟩ := hx.total
  exact ⟨dep, by rw [Database.deposit, hd, Option.bind_some, hdep], htotal⟩

theorem FinancialDispute.Records.decided (h : row.Records x) :
    (row.status == .underReview || row.status == .resolved) = true := by
  cases hs : row.status with
  | opened => exact absurd hs h.status
  | underReview | resolved => rfl

/-- A repetition returns the decision and writes nothing. -/
theorem repeated_obeys (h : x.AskedBy env adminId dto idempotencyKey) :
    (DisputeService.resolveDispute env adminId k dto idempotencyKey now dbNow refundId
      releaseId).Obeys (DecidedStore k x row) (fun (ev : Event) ω => ev = .noop ∧ ω = [])
      (fun result => result = .ok row) [] := by
  simp only [DisputeService.resolveDispute, h.policy, h.key, h.refundLeg, h.releaseLeg, lift,
    select, acquire, Prog.bind_eq, Prog.bind, Prog.Obeys, view_nil]
  intro σ₁ h₁
  simp only [h₁.dispute, required, Prog.bind, Prog.Obeys, view_nil]
  intro σ₂ h₂
  simp only [h₂.dispute, Prog.bind, Prog.Obeys, view_nil]
  intro σ₃ _ σ₄ h₄
  obtain ⟨dep, hdep, htotal⟩ := h₄.deposit
  have hsum : (dto.refundToBorrowerMinor + dto.releaseToLenderMinor ==
      decimalToMinor dep.amount) = true := by
    rw [h.refund, h.release, htotal]
    exact beq_self_eq_true _
  have hrecords := h₄.records
  have hsame : (row.resolvedById == some adminId && row.decisionReason == some dto.reason &&
      decimalToMinor row.refundToBorrowerAmount == dto.refundToBorrowerMinor &&
      decimalToMinor row.releaseToLenderAmount == dto.releaseToLenderMinor) = true := by
    simp [hrecords.adminId, hrecords.reason, hrecords.refund, hrecords.release, h.adminId,
      h.reason, h.refund, h.release, decimalToMinor, minorToDecimal]
  simp only [hdep, hsum, ensure, if_true, Prog.bind, hrecords.decided,
    DisputeService.repeatedDecision, hsame, lift, select, Prog.bind_eq, Prog.Obeys, view_nil]
  rintro σ₅ ⟨d₅, hd₅, hx₅, -⟩
  have hrefund := hx₅.hasResolutionOperation hd₅ .refund
  simp only [h.refund, show x.refundMinor = x.minor .refund from rfl, hrefund, if_true, Prog.bind,
    Prog.Obeys, view_nil]
  rintro σ₆ ⟨d₆, hd₆, hx₆, -⟩
  have hrelease := hx₆.hasResolutionOperation hd₆ .releaseToLender
  simp only [h.release, show x.releaseMinor = x.minor .releaseToLender from rfl, hrelease, if_true,
    commit, Prog.bind, Prog.Obeys]
  exact ⟨⟨trivial, trivial⟩, rfl⟩

/-- Any other call fails and writes nothing. -/
theorem other_obeys (hother : ¬x.AskedBy env adminId dto idempotencyKey) :
    (DisputeService.resolveDispute env adminId k dto idempotencyKey now dbNow refundId
      releaseId).Obeys (DecidedStore k x row) (fun (_ : Event) _ => False)
      (fun result => ∃ e, result = .error e) [] := by
  simp only [DisputeService.resolveDispute, Prog.bind_eq]
  refine Prog.Obeys.lift_bind (fun _ hpolicy => ?_) fun e _ => ⟨e, rfl⟩
  refine Prog.Obeys.lift_bind (fun commandKey hkey => ?_) fun e _ => ⟨e, rfl⟩
  refine Prog.Obeys.lift_bind (fun _ hrefundLeg => ?_) fun e _ => ⟨e, rfl⟩
  refine Prog.Obeys.lift_bind (fun _ hreleaseLeg => ?_) fun e _ => ⟨e, rfl⟩
  simp only [select, acquire, Prog.bind, Prog.Obeys, view_nil]
  intro σ₁ h₁
  refine Prog.Obeys.lift_bind (fun _ _ => ?_) fun e _ => ⟨e, rfl⟩
  simp only [Prog.Obeys, view_nil]
  intro σ₂ h₂
  rw [h₂.dispute]
  refine Prog.Obeys.lift_bind (fun row' hrow => ?_) fun e _ => ⟨e, rfl⟩
  obtain rfl : row' = row := (Except.ok.inj hrow).symm
  simp only [Prog.Obeys, view_nil]
  intro σ₃ _ σ₄ h₄
  refine Prog.Obeys.lift_bind (fun dep _ => ?_) fun e _ => ⟨e, rfl⟩
  refine Prog.Obeys.lift_bind (fun _ _ => ?_) fun e _ => ⟨e, rfl⟩
  simp only [h₂.records.decided, if_true, DisputeService.repeatedDecision, Prog.bind_eq]
  refine Prog.Obeys.lift_bind (fun _ hsame => ?_) fun e _ => ⟨e, rfl⟩
  simp only [select, Prog.bind, Prog.Obeys, view_nil]
  rintro σ₅ ⟨d₅, hd₅, hx₅, hrow₅⟩
  refine Prog.Obeys.lift_bind (fun _ hrefund => ?_) fun e _ => ⟨e, rfl⟩
  simp only [Prog.Obeys, view_nil]
  rintro σ₆ ⟨d₆, hd₆, hx₆, hrow₆⟩
  refine Prog.Obeys.lift_bind (fun _ hrelease => ?_) fun e _ => ⟨e, rfl⟩
  -- the columns and the operations are those of `x`
  refine absurd ?_ hother
  have hrecords := h₂.records
  simp only [ensure_eq_ok, Bool.and_eq_true, beq_iff_eq, hrecords.adminId, hrecords.reason,
    hrecords.refund, hrecords.release, Option.some.injEq] at hsame hrefund hrelease
  obtain ⟨⟨⟨hadmin, hreason⟩, hrefundMinor⟩, hreleaseMinor⟩ := hsame
  refine ⟨hpolicy, ?_, hrefundLeg, hreleaseLeg, hadmin.symm, hreason.symm, hrefundMinor.symm,
    hreleaseMinor.symm⟩
  obtain ⟨dep₅, -, hpos, htotal⟩ := hx₅.total
  have hminor : x.refundMinor = dto.refundToBorrowerMinor ∧
      x.releaseMinor = dto.releaseToLenderMinor := ⟨hrefundMinor, hreleaseMinor⟩
  rw [hkey]
  by_cases hzero : dto.refundToBorrowerMinor = 0
  · have hne : dto.releaseToLenderMinor ≠ 0 := by omega
    rw [hx₆.key_eq (hasOperationKey_of_leg hd₆ hrelease hne)]
  · rw [hx₅.key_eq (hasOperationKey_of_leg hd₅ hrefund hzero)]

end Repetition

/-! ## Calls of `resolveDispute` -/

open Prog in
theorem silent_completeBooking (k : Id) (now : Time) (trigger : BookingCompletionTrigger) :
    (completeBookingAfterReturnInTransaction k now trigger).Silent := by
  refine (silent_select _).bind fun booking => ?_
  split
  · trivial
  · refine (silent_select _).bind fun deposit => (silent_select _).bind fun dispute => ?_
    refine (silent_lift _).bind fun complete => ?_
    split
    · refine (silent_updateWhere _ _ _).bind fun completed => ?_
      split
      · exact (silent_write _ _).bind fun _ => (silent_insertUnique _ _ _ _).bind fun _ => trivial
      · trivial
    · trivial

open Prog in
/-- A call that fails has committed nothing. -/
theorem commitsLast_resolveDispute (env : Env) (adminId k : Id)
    (dto : DisputeService.ResolveDisputeDto) (idempotencyKey : String) (now dbNow : Time)
    (refundId releaseId : Id) : (DisputeService.resolveDispute env adminId k dto idempotencyKey
      now dbNow refundId releaseId).CommitsLast := by
  have hleg (o : Id) (kind : DepositOperationKind) (amount : Int) (key : String) :
      (DisputeService.createResolutionOperation k o kind amount key now dbNow).Silent :=
    silent_when (silent_insertUnique _ _ _ _)
  refine .bind (silent_lift _) fun _ => .bind (silent_lift _) fun commandKey => ?_
  refine .bind (silent_lift _) fun _ => .bind (silent_lift _) fun _ => ?_
  refine .bind (silent_select _) fun _ => .bind (silent_lift _) fun _ => ?_
  refine .bind (silent_acquire _) fun _ => .bind (silent_select _) fun _ => ?_
  refine .bind (silent_lift _) fun dispute => .bind (silent_select _) fun booking => ?_
  refine .bind (silent_select _) fun _ => .bind (silent_lift _) fun deposit => ?_
  refine .bind (silent_lift _) fun _ => ?_
  split
  · refine .bind (silent_lift _) fun _ => .bind (silent_select _) fun _ => ?_
    refine .bind (silent_lift _) fun _ => .bind (silent_select _) fun _ => ?_
    exact .bind (silent_lift _) fun _ => commitsLast_commit _ _
  · refine .bind (silent_lift _) fun _ => .bind (hleg _ _ _ _) fun _ => .bind (hleg _ _ _ _) fun _ => ?_
    refine .bind (silent_write _ _) fun _ => .bind (silent_write _ _) fun _ => ?_
    refine .bind (silent_write _ _) fun _ => .bind (silent_completeBooking _ _ _) fun _ => ?_
    exact commitsLast_commit _ _

variable {sha256 : Bytes → String} {ok : Event → Store → Prop} {s₀ s : State Sys}

def DecisionsHold (σ : Store) : Prop := ∀ k d, σ.1.deals.get k = some d → d.DecisionFacts

theorem persists_decisionsHold : Persists (contract sha256 ok) DecisionsHold := by
  rintro K a b ⟨-, ev, -, hg⟩ ha k d' hd'
  rcases hg.get_inv hd' with ⟨d, hd, rfl, hguard, -⟩ | ⟨-, read, -, hnew⟩
  · exact DealMove.decisionFacts_apply (ha k d hd) hguard
  · exact hnew.decisionFacts

theorem Runs.decisionsHold (h : Runs sha256 ok s₀ s) : DecisionsHold s.store := by
  refine h.invariant (P := DecisionsHold) ?_ ?_
  · intro σ hi k d hd
    rw [hi.deals, Table.get_empty] at hd
    cases hd
  · intro ev K a b hinv hok hg ha
    exact persists_decisionsHold K a b ⟨hinv, ev, hok, hg⟩ ha

/-- A call that returns found its own decision. -/
theorem wp_resolveDispute_decided {σ : Store} (hσ : DecisionsHold σ) (env : Env) (adminId k : Id)
    (dto : DisputeService.ResolveDisputeDto) (idempotencyKey : String) (now dbNow : Time)
    (refundId releaseId : Id) :
    wp (contract sha256 ok) (DisputeService.resolveDispute env adminId k dto idempotencyKey now
      dbNow refundId releaseId) (fun row _ _ σ => ∃ x : Decision,
        x.AskedBy env adminId dto idempotencyKey ∧ DecidedStore k x row σ) [] [] σ := by
  refine wp_mono _ ?_ (wp_keeps persists_decisionsHold _ (wp_resolveDispute env adminId k dto
    idempotencyKey now dbNow refundId releaseId σ) hσ)
  rintro row L ω σ' ⟨⟨-, y, d, hasked, hd, hfinds⟩, hfacts⟩
  refine ⟨y, hasked, d, hd, ?_, hfinds.dispute⟩
  rcases (hfacts k d hd).decided with hopen | ⟨x, hx⟩
  · exact absurd (hopen.opened row hfinds.dispute) hfinds.records.status
  · obtain ⟨row', hrow', hrecords⟩ := hx.row
    rw [hfinds.dispute, Option.some.injEq] at hrow'
    subst hrow'
    have hadmin := Option.some.inj (hfinds.records.adminId.symm.trans hrecords.adminId)
    have hreason := Option.some.inj (hfinds.records.reason.symm.trans hrecords.reason)
    have hrefund := congrArg Decimal.minor (hfinds.records.refund.symm.trans hrecords.refund)
    have hrelease := congrArg Decimal.minor (hfinds.records.release.symm.trans hrecords.release)
    have hkey := hx.key_unique hfinds hrefund hrelease
    have heq : y = x := by
      cases y
      cases x
      simp_all [minorToDecimal]
    exact heq ▸ hx

/-- **A dispute is decided once.**  `DecidedStore` holds in all later states, so it describes all
that a later call can find; a call that commits returns, so one that fails leaves no trace. -/
theorem decided_once (h : Runs sha256 ok s₀ s) :
    (∀ k d, s.db.deals.get k = some d → (d.Undecided ∨ ∃ x, d.DecidedBy x) ∧
      ∀ x row, d.DecidedBy x → d.dispute = some row →
        (∀ s', Reaches (Calls sha256) ok s s' → ∃ d', s'.db.deals.get k = some d' ∧
          d'.DecidedBy x ∧ d'.dispute = some row ∧ d'.roots = d.roots) ∧
        ∀ env adminId dto idempotencyKey now dbNow refundId releaseId,
          (x.AskedBy env adminId dto idempotencyKey →
            (DisputeService.resolveDispute env adminId k dto idempotencyKey now dbNow refundId
              releaseId).Obeys (DecidedStore k x row) (fun (ev : Event) ω => ev = .noop ∧ ω = [])
              (fun result => result = .ok row) []) ∧
          (¬x.AskedBy env adminId dto idempotencyKey →
            (DisputeService.resolveDispute env adminId k dto idempotencyKey now dbNow refundId
              releaseId).Obeys (DecidedStore k x row) (fun (_ : Event) _ => False)
              (fun result => ∃ e, result = .error e) [])) ∧
    ∀ k env adminId dto idempotencyKey now dbNow refundId releaseId,
      wp (contract sha256 ok) (DisputeService.resolveDispute env adminId k dto idempotencyKey now
        dbNow refundId releaseId) (fun row _ _ σ => ∃ x : Decision,
          x.AskedBy env adminId dto idempotencyKey ∧ DecidedStore k x row σ) [] [] s.store ∧
      ∀ i < s.threads.length, s.thread i = ⟨(Call.resolveDispute env adminId k dto idempotencyKey
          now dbNow refundId releaseId).prog sha256, [], []⟩ →
        ∀ s' s'' ev, Reaches (Calls sha256) ok s s' → s'.event i = some ev →
          s'.fire (.run i) = some s'' → ∃ a, (s''.thread i).prog = .ret a := by
  refine ⟨fun k d hd => ⟨(h.decisionsHold k d hd).decided, fun x row hx hrow => ⟨?_, ?_⟩⟩, ?_⟩
  · intro s' hr
    obtain ⟨d', hd', hkept⟩ := h.later (R := fun d d' => ∀ x, d.DecidedBy x → d'.DecidedBy x ∧
      d'.dispute = d.dispute ∧ d'.roots = d.roots) hr (fun d x hx => ⟨hx, rfl, rfl⟩)
      (fun d d' d'' h h' x hx => by
        obtain ⟨hx', hdispute, hroots⟩ := h x hx
        obtain ⟨hx'', hdispute', hroots'⟩ := h' x hx'
        exact ⟨hx'', hdispute'.trans hdispute, hroots'.trans hroots⟩)
      (fun k m d w hg x hx => DealMove.decided_apply hx hg) hd
    obtain ⟨hx', hdispute, hroots⟩ := hkept x hx
    exact ⟨d', hd', hx', hdispute.trans hrow, hroots⟩
  · intro env adminId dto idempotencyKey now dbNow refundId releaseId
    exact ⟨repeated_obeys, other_obeys⟩
  · intro k env adminId dto idempotencyKey now dbNow refundId releaseId
    refine ⟨wp_resolveDispute_decided h.decisionsHold env adminId k dto idempotencyKey now dbNow
      refundId releaseId, fun i hi hthread s' s'' ev hr hev hf => ?_⟩
    have hlast : (s.thread i).prog.CommitsLast := by
      rw [hthread]
      exact (commitsLast_resolveDispute env adminId k dto idempotencyKey now dbNow refundId
        releaseId).discard
    obtain ⟨hi', hlast'⟩ := hr.commitsLast hlast hi
    exact returns_of_event hlast' hev hi' hf

namespace Scenario

/-- The lender opens a dispute, and the administrator 4 gives all of the deposit back. -/
def decided : List Line :=
  returned ++ [.call (.openDispute 2 10 ⟨.other, none⟩ start), .run 11 20,
    .call (.resolveDispute env 4 10 ⟨5000, 0, "no damage"⟩ "key" start start 40 41), .run 12 40]

theorem decided_once_refund : ∃ d row x,
    (play anyEvent hash state decided).db.deals.get 10 = some d ∧ d.dispute = some row ∧
      row.decisionReason = some "no damage" ∧ d.DecidedBy x := by
  have hdeal : ((play anyEvent hash state decided).db.deals.get 10).map
      (fun d => d.dispute.map fun row => (row.status, row.decisionReason)) =
        some (some (.resolved, some "no damage")) := by decide +kernel
  obtain ⟨d, hd, hrow⟩ := Option.map_eq_some_iff.mp hdeal
  obtain ⟨row, hrow, heq⟩ := Option.map_eq_some_iff.mp hrow
  obtain ⟨hstatus, hreason⟩ := Prod.mk.inj heq
  rcases ((decided_once ((runs anyEvent).play decided)).1 10 d hd).1 with hopen | ⟨x, hx⟩
  · rw [hopen.opened row hrow] at hstatus
    cases hstatus
  · exact ⟨d, row, x, hd, hrow, hreason, hx⟩

end Scenario

end Sosedi
