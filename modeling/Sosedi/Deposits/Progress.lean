import Mathlib.Algebra.Order.BigOperators.Group.List
import Sosedi.Bookings.SnapshotRoundTrip
import Sosedi.Deposits.Disputes
import Sosedi.Deposits.Worker

/-!
# Progress of a deposit that is paid out

Proved here: what is left of a deposit is what its last operations ask for
(`Deal.WorkerFacts.outstanding`); the worker can still process those that are pending, and the
failed ones can be retried if a dispute was decided (`Deal.WorkerFacts.recoverable`).  Without a
dispute no failed operation is ever retried, so a refund that the provider declines is stuck
(`no_stuck_deposit`, `Scenario.stuck_refund`).
-/

namespace Sosedi

open Transactions Attempts

variable {d d' : Deal} {dep : BookingDeposit} {k o : Id} {w : World} {σ : Store}
  {op : DepositOperation}

/-! ## Retries -/

/-- A retry with a fresh key, and a fresh id, is accepted. -/
def RetryAccepted (k o : Id) (σ : Store) : Prop :=
  ∀ (env : Env) (adminId : Id) (idempotencyKey commandKey : String) (now dbNow : Time)
    (retryId : Id), env.policy.requireFakeSafeDeal = .ok () →
    requireCommandKey idempotencyKey = .ok commandKey →
    (∀ d, σ.1.deals.get k = some d → Action.Fresh d retryId (.retry o commandKey)) →
    ∃ response, ((DepositService.retryFailedOperation env adminId k o idempotencyKey now dbNow
      retryId).alone [] σ).1 = .ok response

/-- Some operation retries `o`. -/
def Deal.hasRetry (d : Deal) (o : Id) : Bool :=
  d.operations.any fun _ op => op.retryOfId == some o

theorem operationByKey_eq_none {key : OperationKey} (hd : σ.1.deals.get k = some d)
    (hkey : d.hasOperationKey key = false) : DepositService.operationByKey σ.1 k key = none := by
  rw [DepositService.operationByKey, hd, Option.bind_some, List.find?_eq_none]
  intro r hr heq
  exact absurd (List.any_eq_true.mpr ⟨r, hr, heq⟩) (Bool.eq_false_iff.mp hkey)

theorem retryAccepted (hd : σ.1.deals.get k = some d) (hop : d.operations.get o = some op)
    (hretry : DepositService.retryable op d.deposit d.dispute = true)
    (hnone : d.hasRetry o = false) (hsafe : isSafeInteger op.amount.minor = true) :
    RetryAccepted k o σ := by
  intro env adminId idempotencyKey commandKey now dbNow retryId hpolicy hkey hfresh
  have hf := hfresh d hd
  have hread : σ.1.operation k o = some op := by
    rw [Database.operation, hd, Option.bind_some, hop]
  have habsent := operationByKey_eq_none hd hf.key
  have hdeposit : σ.1.deposit k = d.deposit := by rw [Database.deposit, hd, Option.bind_some]
  have hdispute : σ.1.dispute k = d.dispute := by rw [Database.dispute, hd, Option.bind_some]
  have hretried : ((σ.1.deals.get k).any fun d => d.operations.any fun _ op =>
      op.retryOfId == some o) = false := by
    rw [hd, Option.any_some]
    exact hnone
  have htaken : σ.1.operationTaken k retryId (.retry o commandKey) = false := by
    rw [Database.operationTaken, hd, Option.any_some, hf.id, hf.key]
    rfl
  have hresponse : DepositService.toOperationResponse k retryId (.create op.kind op.amount
      (.retry o commandKey) (some o) now dbNow) =
        .ok ⟨k, retryId, op.kind, op.amount.minor, .pending, some o⟩ := by
    simp [DepositService.toOperationResponse, DepositOperation.create, minorToSafeNumber,
      decimalToMinor, hsafe, pure, Except.pure, bind, Except.bind]
  refine ⟨⟨k, retryId, op.kind, op.amount.minor, .pending, some o⟩, ?_⟩
  simp only [DepositService.retryFailedOperation, Prog.bind_eq, Prog.alone_lift, hpolicy, hkey,
    Prog.alone_select, Prog.alone_acquire, view_nil, hread, required, habsent, hdeposit, hdispute,
    hretry, ensure, hretried, if_true, Bool.not_false, Sosedi.createOperation]
  rw [Prog.alone_insertUnique htaken]
  simp only [onDeal, Prog.alone_write, Prog.alone_lift, hresponse, Prog.alone_commit,
    Prog.pure_eq, Prog.alone_ret]

/-- A key that a client may send. -/
def plainKey (n : Nat) : String := String.ofList (List.replicate (n + 1) 'k')

theorem requireCommandKey_plainKey (n : Nat) :
    requireCommandKey (plainKey n) = .ok (plainKey n) := by
  have hdrop : (List.replicate (n + 1) 'k').dropWhile isWhiteSpace =
      List.replicate (n + 1) 'k' := by
    rw [List.replicate_succ, List.dropWhile_cons_of_neg (by decide)]
  have htrim : trim (plainKey n) = plainKey n := by
    rw [trim, plainKey, String.toList_ofList, hdrop, List.reverse_replicate, hdrop,
      List.reverse_replicate]
  have hne : plainKey n ≠ "" := by
    intro h
    have hlength := congrArg String.toList h
    simp [plainKey] at hlength
  simp [requireCommandKey, isNonEmptyString, htrim, hne]

/-- A deal has room for another retry. -/
theorem Deal.exists_fresh (d : Deal) (o : Id) :
    ∃ n retryId, Action.Fresh d retryId (.retry o (plainKey n)) := by
  let lengths : List Nat := d.operations.rows.map fun r =>
    match r.2.idempotencyKey with
    | .retry _ key => key.toList.length
    | _ => 0
  refine ⟨lengths.sum, (d.operations.rows.map Prod.fst).sum + 1, ?_, ?_⟩
  · rw [Table.get_eq_none]
    intro hmem
    exact Nat.not_succ_le_self _ (List.le_sum_of_mem hmem)
  · rw [Deal.hasOperationKey, Table.any_eq_false]
    intro o' op hop
    rw [beq_eq_false_iff_ne]
    intro hkey
    have hmem : (plainKey lengths.sum).toList.length ∈ lengths := by
      refine List.mem_map.mpr ⟨(o', op), Table.get_eq_some.mp hop, ?_⟩
      simp only [hkey]
    have hle := List.le_sum_of_mem hmem
    simp only [plainKey, String.toList_ofList, List.length_replicate] at hle
    omega

/-- Without a dispute no retry is accepted. -/
theorem not_retryAccepted (hd : σ.1.deals.get k = some d)
    (hop : d.operations.get o = some op) (hnone : d.dispute = none) : ¬RetryAccepted k o σ := by
  intro h
  obtain ⟨n, retryId, hfresh⟩ := d.exists_fresh o
  have hpolicy : Scenario.env.policy.requireFakeSafeDeal = .ok () := rfl
  obtain ⟨response, hresponse⟩ := h Scenario.env 0 (plainKey n) (plainKey n) 0 0 retryId
    hpolicy (requireCommandKey_plainKey n) fun d' hd' => by
      rw [hd, Option.some.injEq] at hd'
      exact hd' ▸ hfresh
  have hread : σ.1.operation k o = some op := by
    rw [Database.operation, hd, Option.bind_some, hop]
  have habsent := operationByKey_eq_none hd hfresh.key
  have hdispute : σ.1.dispute k = none := by rw [Database.dispute, hd, Option.bind_some, hnone]
  have hrefused (deposit : Option BookingDeposit) :
      DepositService.retryable op deposit none = false := by
    simp [DepositService.retryable]
  simp [DepositService.retryFailedOperation, Prog.bind_eq, Prog.alone_lift, hpolicy,
    requireCommandKey_plainKey, hread, required, habsent, hdispute, ensure, hrefused] at hresponse

/-! ## What is left of a deposit -/

/-- The worker can still process the operation: it claims it from some time on, and finds nothing
to object to. -/
structure DepositOperation.Waits (op : DepositOperation) (dep : BookingDeposit) : Prop where
  pending : op.status = .pending
  claimable : ∃ t, ∀ now, t ≤ now → DepositOperationProcessor.claimable now op = true
  payable : op.Payable dep

/-- The operation still pays: the worker will process it, or a retry of it. -/
def Deal.StillPays (k : Id) (σ : Store) (d : Deal) (dep : BookingDeposit) (o : Id)
    (op : DepositOperation) : Prop :=
  op.Waits dep ∨ op.status = .failed ∧ d.hasRetry o = false ∧ RetryAccepted k o σ

/-- Some of the operations still pay, and all of what is left of the deposit. -/
def Deal.Recoverable (k : Id) (σ : Store) (d : Deal) (dep : BookingDeposit) : Prop :=
  ∃ leg : Id → Bool,
    (∀ o op, d.operations.get o = some op → leg o = true → d.StillPays k σ dep o op) ∧
      (d.operations.sum fun o op => if leg o then op.amount.minor else 0) =
        dep.amount.minor - dep.refundedAmount.minor - dep.releasedToLenderAmount.minor

/-- A last operation that has not succeeded. -/
def Deal.isOpen (d : Deal) (o : Id) : Bool :=
  (d.operations.get o).any (fun op => op.status != .succeeded) && !d.hasRetry o

theorem Deal.retried_attempts (d : Deal) (o : Id) : retried d.attempts o = d.hasRetry o :=
  Table.any_map ..

theorem DepositOperation.waits (hp : op.status = .pending) (h : op.Payable dep) : op.Waits dep := by
  refine ⟨hp, ⟨max op.nextAttemptAt (op.processingUntil.getD op.nextAttemptAt), ?_⟩, h⟩
  intro now hnow
  obtain ⟨hnext, hlease⟩ := max_le_iff.mp hnow
  cases hu : op.processingUntil with
  | none => simp [DepositOperationProcessor.claimable, hp, hnext, hu]
  | some u =>
    rw [hu, Option.getD_some] at hlease
    simp [DepositOperationProcessor.claimable, hp, hnext, hu, hlease]

namespace Deal.WorkerFacts

theorem decided (h : d.WorkerFacts) (hdep : d.deposit = some dep) (hs : dep.status = .resolving) :
    Decided d.attempts dep.amount d.dispute := by
  have hstage := h.balanced.stage dep hdep
  simpa only [LedgerStage, hs] using hstage

/-- **What is left of the deposit** is what its open operations ask for. -/
theorem outstanding (h : d.WorkerFacts) (hdep : d.deposit = some dep)
    (hs : dep.status = .resolving) :
    (d.operations.sum fun o op => if d.isOpen o then op.amount.minor else 0) =
      dep.amount.minor - dep.refundedAmount.minor - dep.releasedToLenderAmount.minor := by
  have hdecided := h.decided hdep hs
  have hopen : (d.operations.sum fun o op => if d.isOpen o then op.amount.minor else 0) =
      Attempts.outstanding d.attempts .refund + Attempts.outstanding d.attempts .releaseToLender := by
    rw [Attempts.outstanding, Attempts.outstanding, Deal.attempts, Table.sum_map, Table.sum_map,
      ← Table.sum_add]
    refine Table.sum_congr fun o op hop => ?_
    have ha := Deal.get_attempts_of_get hop
    have hcancel : op.kind ≠ .cancel := (hdecided.amounts o _ ha).1
    have hhold : op.kind = .hold → op.status = .succeeded := by
      intro hkind
      have hsucceeded := h.balanced.holds o _ ha hkind
      cases hst : op.status <;> simp_all [DepositOperation.attempt, DepositOperationStatus.outcome]
    have hretried := d.retried_attempts o
    rw [Deal.attempts] at hretried
    simp only [Deal.isOpen, hop, Option.any_some, hretried, DepositOperation.attempt]
    cases hkind : op.kind with
    | cancel => exact absurd hkind hcancel
    | hold => simp [hhold hkind]
    | refund =>
      cases hst : op.status <;> cases hr : d.hasRetry o <;>
        simp [DepositOperationStatus.outcome]
    | releaseToLender =>
      cases hst : op.status <;> cases hr : d.hasRetry o <;>
        simp [DepositOperationStatus.outcome]
  have hrefund := h.balanced.wellFormed.paid_add_outstanding .refund
  have hrelease := h.balanced.wellFormed.paid_add_outstanding .releaseToLender
  have htotal := hdecided.total
  rw [hdecided.planned, ← h.balanced.refunded dep hdep] at hrefund
  rw [hdecided.planned, ← h.balanced.released dep hdep] at hrelease
  rw [hopen]
  omega

/-- A failed operation of a decided dispute can be retried. -/
theorem retryable (h : d.WorkerFacts) (hdep : d.deposit = some dep) (hs : dep.status = .resolving)
    {dispute : FinancialDispute} (hdispute : d.dispute = some dispute)
    (hop : d.operations.get o = some op) (hf : op.status = .failed) :
    DepositService.retryable op d.deposit d.dispute = true := by
  have hdecided := h.decided hdep hs
  have ha := Deal.get_attempts_of_get hop
  have hamount : op.amount.minor = (share d.dispute dep.amount op.kind).minor :=
    (hdecided.amounts o _ ha).2
  have hcancel : op.kind ≠ .cancel := (hdecided.amounts o _ ha).1
  have hpos : 0 < op.amount.minor := h.balanced.wellFormed.amount o _ ha
  have hresolved := hdecided.resolved dispute hdispute
  have hhold : op.kind ≠ .hold := by
    intro hkind
    have hsucceeded := h.balanced.holds o _ ha hkind
    simp [DepositOperation.attempt, hf, DepositOperationStatus.outcome] at hsucceeded
  rw [hdispute] at hamount
  cases hkind : op.kind with
  | cancel => exact absurd hkind hcancel
  | hold => exact absurd hkind hhold
  | refund =>
    simp only [hkind, share, Option.map_some, Option.getD_some] at hamount
    simp [DepositService.retryable, hf, hdep, hs, hdispute, hresolved, hkind,
      DepositService.requiredAmount, decimalToMinor, ← hamount, hpos]
  | releaseToLender =>
    simp only [hkind, share, Option.map_some, Option.getD_some] at hamount
    simp [DepositService.retryable, hf, hdep, hs, hdispute, hresolved, hkind,
      DepositService.requiredAmount, decimalToMinor, ← hamount, hpos]

/-- No operation asks for more than the deposit. -/
theorem amount_le (h : d.WorkerFacts) (hdep : d.deposit = some dep) (hs : dep.status = .resolving)
    (hop : d.operations.get o = some op) : 0 < op.amount.minor ∧
      op.amount.minor ≤ dep.amount.minor := by
  have hdecided := h.decided hdep hs
  have ha := Deal.get_attempts_of_get hop
  have hamount : op.amount.minor = (share d.dispute dep.amount op.kind).minor :=
    (hdecided.amounts o _ ha).2
  have hpos : 0 < op.amount.minor := h.balanced.wellFormed.amount o _ ha
  have hrefund := hdecided.nonneg .refund
  have hrelease := hdecided.nonneg .releaseToLender
  have htotal := hdecided.total
  have hcancel : op.kind ≠ .cancel := (hdecided.amounts o _ ha).1
  refine ⟨hpos, ?_⟩
  cases hkind : op.kind with
  | cancel => exact absurd hkind hcancel
  | hold =>
    rw [hamount, hkind]
    exact Int.le_refl _
  | refund =>
    rw [hkind] at hamount
    omega
  | releaseToLender =>
    rw [hkind] at hamount
    omega

/-- **A deposit is recoverable** if its failed operations belong to a decided dispute. -/
theorem recoverable (h : d.WorkerFacts) (hd : σ.1.deals.get k = some d)
    (hdep : d.deposit = some dep) (hs : dep.status = .resolving)
    (hsafe : isSafeInteger dep.amount.minor = true)
    (hfailed : d.dispute = none → ∀ o op, d.operations.get o = some op → op.status = .failed →
      d.hasRetry o = true) : d.Recoverable k σ dep := by
  refine ⟨d.isOpen, fun o op hop hopen => ?_, h.outstanding hdep hs⟩
  simp only [Deal.isOpen, hop, Option.any_some, Bool.and_eq_true, bne_iff_ne, ne_eq,
    Bool.not_eq_true'] at hopen
  obtain ⟨hne, hnone⟩ := hopen
  cases hst : op.status with
  | succeeded => exact absurd hst hne
  | pending =>
    obtain ⟨dep', hdep', hpay⟩ := h.pending hop hst
    rw [hdep, Option.some.injEq] at hdep'
    subst hdep'
    exact Or.inl (DepositOperation.waits hst hpay)
  | failed =>
    cases hdispute : d.dispute with
    | none =>
      rw [hfailed hdispute o op hop hst] at hnone
      cases hnone
    | some dispute =>
      obtain ⟨hpos, hle⟩ := h.amount_le hdep hs hop
      refine Or.inr ⟨hst, hnone, retryAccepted hd hop (h.retryable hdep hs hdispute hop hst) hnone
        ?_⟩
      simp only [isSafeInteger, decide_eq_true_eq] at hsafe ⊢
      omega

/-- **A deposit is stuck** with a failed operation that nothing retries, if there is no dispute. -/
theorem stuck (h : d.WorkerFacts) (hd : σ.1.deals.get k = some d) (hdep : d.deposit = some dep)
    (hs : dep.status = .resolving) (hdispute : d.dispute = none)
    (hop : d.operations.get o = some op) (hf : op.status = .failed)
    (hnone : d.hasRetry o = false) : ¬d.Recoverable k σ dep := by
  rintro ⟨leg, hpays, hsum⟩
  -- what still pays waits for the worker
  have hwaits : ∀ o op, d.operations.get o = some op → leg o = true →
      op.status = .pending := by
    intro o op hop hleg
    rcases hpays o op hop hleg with hw | ⟨-, -, hretry⟩
    · exact hw.pending
    · exact absurd hretry (not_retryAccepted hd hop hdispute)
  have hopen : d.isOpen o = true := by simp [Deal.isOpen, hop, hf, hnone]
  have hpart := Table.sum_add d.operations (fun o op => if leg o then op.amount.minor else 0)
    fun o op => if d.isOpen o ∧ leg o = false then op.amount.minor else 0
  have hall : (d.operations.sum fun o op => (if leg o then op.amount.minor else 0) +
      if d.isOpen o ∧ leg o = false then op.amount.minor else 0) =
        d.operations.sum fun o op => if d.isOpen o then op.amount.minor else 0 := by
    refine Table.sum_congr fun o op hop => ?_
    cases hleg : leg o with
    | false => simp
    | true =>
      have hp := hwaits o op hop hleg
      have hnone : d.hasRetry o = false := by
        rw [← d.retried_attempts o]
        exact h.balanced.wellFormed.not_retried (Deal.get_attempts_of_get hop)
          (by simp [DepositOperation.attempt, hp, DepositOperationStatus.outcome])
      simp [Deal.isOpen, hop, hp, hnone]
  have hleg : leg o = false := by
    cases hleg : leg o with
    | false => rfl
    | true =>
      have hp := hwaits o op hop hleg
      rw [hf] at hp
      cases hp
  have hone := Table.le_sum (f := fun o op =>
    if d.isOpen o ∧ leg o = false then op.amount.minor else 0) hop fun o op hop => by
      split
      · exact Int.le_of_lt (h.amount_le hdep hs hop).1
      · exact Int.le_refl 0
  rw [if_pos ⟨hopen, hleg⟩] at hone
  rw [hall, h.outstanding hdep hs, hsum] at hpart
  have hpos := (h.amount_le hdep hs hop).1
  omega

end Deal.WorkerFacts

/-! ## Runs -/

variable {sha256 : Bytes → String} {ok : Event → Store → Prop} {s₀ s : State Sys}

theorem DraftedFrom.safeAmount {read : BookableItem} (h : DraftedFrom read d)
    (hdep : d.deposit = some dep) : isSafeInteger dep.amount.minor = true := by
  obtain ⟨policy, terms, borrowerId, itemId, period, requestId, hash, now, dbNow, draft, hdraft,
    rfl⟩ := h
  simp only [draftBooking, bind_eq_ok] at hdraft
  obtain ⟨price, -, money, hmoney, hdraft⟩ := hdraft
  cases hdraft
  simp only [BookingDraft.deal, Deal.addMessage, Deal.addTransition, Deal.addOutbox,
    Option.map_eq_some_iff] at hdep
  obtain ⟨t, -, rfl⟩ := hdep
  exact (moneyMinorOf_spec hmoney).2.2.2.1

theorem Runs.safeAmount (h : Runs sha256 ok s₀ s) : ∀ k d, s.db.deals.get k = some d →
    ∀ dep, d.deposit = some dep → isSafeInteger dep.amount.minor = true := by
  refine h.invariant (P := fun σ => ∀ k d, σ.1.deals.get k = some d →
    ∀ dep, d.deposit = some dep → isSafeInteger dep.amount.minor = true) ?_ ?_
  · intro σ hi
    simp [hi.deals]
  · intro ev K a b _ _ hg ha k d' hd' dep' hdep'
    rcases hg.get_inv hd' with ⟨d, hd, rfl, -⟩ | ⟨-, read, -, hnew⟩
    · obtain ⟨dep, hdep, hterms⟩ := (ev.move k).deposit_inv hdep'
      exact BookingDeposit.amount_of_terms hterms ▸ ha k d hd dep hdep
    · exact hnew.safeAmount hdep'

/-- Only a decline makes an operation fail. -/
theorem DealMove.failed_inv {m : DealMove} (hop : (m.apply k d).operations.get o = some op)
    (hf : op.status = .failed) :
    (∃ op₀, d.operations.get o = some op₀ ∧ op₀.status = .failed) ∨
      ∃ code now, m = act (.decline o code now) := by
  have hsame : (m.apply k d).operations = d.operations →
      ∃ op₀, d.operations.get o = some op₀ ∧ op₀.status = .failed :=
    fun h => ⟨op, h ▸ hop, hf⟩
  have hnew : ∀ {d : Deal} {o' : Id} {op' : DepositOperation}, op'.status ≠ .failed →
      (d.createOperation o' op').operations.get o = some op →
      d.operations.get o = some op := by
    intro d o' op' hne h
    rcases Table.of_get_insert h with ⟨rfl, rfl⟩ | h
    · exact absurd hf hne
    · exact h
  have hupdate (o' : Id) (f : DepositOperation → DepositOperation)
      (hstatus : ∀ op, (f op).status = op.status ∨ (f op).status = .succeeded)
      (h : (d.updateOperation o' f).operations.get o = some op) :
      ∃ op₀, d.operations.get o = some op₀ ∧ op₀.status = .failed := by
    rw [Deal.updateOperation, Table.get_modify] at h
    split at h
    · obtain ⟨op₀, hop₀, rfl⟩ := Option.map_eq_some_iff.mp h
      rcases hstatus op₀ with hs | hs
      · exact ⟨op₀, hop₀, hs.symm.trans hf⟩
      · rw [hf] at hs
        cases hs
    · exact ⟨op, h, hf⟩
  have hcreate {kind amount key retryOf now dbNow} :
      (DepositOperation.create kind amount key retryOf now dbNow).status ≠ .failed := by
    simp [DepositOperation.create]
  have hleg : ∀ {o' kind amount key now dbNow} {d : Deal},
      (Action.createLeg o' kind amount key now dbNow d).operations.get o = some op →
      d.operations.get o = some op := by
    intro o' kind amount key now dbNow d h
    rw [Action.createLeg, Deal.onlyIf] at h
    split at h
    · exact hnew hcreate h
    · exact h
  cases m with
  | claim o' now processingUntil =>
    exact Or.inl (hupdate o' (DepositOperationProcessor.claimUpdate processingUntil)
      (fun _ => Or.inl rfl) hop)
  | act action =>
    cases action with
    | cancel actorId isBorrower statusRead depositRead refundId dbNow =>
      refine Or.inl ⟨op, ?_, hf⟩
      have hrefund : ∀ {d : Deal}, (Action.preHandoverRefund depositRead refundId dbNow
          d).operations.get o = some op → d.operations.get o = some op := by
        intro d h
        cases depositRead with
        | none => exact h
        | some dep =>
          rw [Action.preHandoverRefund, Deal.onlyIf] at h
          split at h
          · exact hnew (d := d.setDepositStatus .resolving) hcreate h
          · exact h
      simpa using hrefund hop
    | pay borrowerId amount key providerId hold =>
      refine Or.inl ⟨op, ?_, hf⟩
      cases hold with
      | none => exact hop
      | some hold =>
        exact hnew (d := d) (by simp [DepositService.holdOperation]) hop
    | resolve adminId reason refundMinor releaseMinor key refundId releaseId now dbNow =>
      have hlegs : (Action.createLeg releaseId .releaseToLender releaseMinor key now dbNow
          (Action.createLeg refundId .refund refundMinor key now dbNow d)).operations.get o =
            some op := by simpa [apply, Action.apply] using hop
      exact Or.inl ⟨op, hleg (hleg hlegs), hf⟩
    | autoRefund amount o' now dbNow =>
      have hcreated : (d.createOperation o' (.create .refund amount .autoRefund none now
          dbNow)).operations.get o = some op := by simpa [apply, Action.apply] using hop
      exact Or.inl ⟨op, hnew hcreate hcreated, hf⟩
    | retry adminId o' operation key retryId now dbNow =>
      exact Or.inl ⟨op, hnew (d := d) hcreate hop, hf⟩
    | postpone o' nextAttemptAt =>
      exact Or.inl (hupdate o' (DepositOperationProcessor.postponeUpdate nextAttemptAt)
        (fun _ => Or.inl rfl) hop)
    | decline o' code now =>
      by_cases ho : o = o'
      · exact Or.inr ⟨code, now, by rw [ho]⟩
      · refine Or.inl ⟨op, ?_, hf⟩
        rwa [← Table.get_modify_ne _ (DepositOperationProcessor.declineUpdate code now) ho]
    | settle o' kind amount providerId now resolved =>
      refine Or.inl (hupdate o' (DepositOperationProcessor.settleUpdate providerId now)
        (fun _ => Or.inr rfl) ?_)
      simpa [apply, Action.apply] using hop
    | expire | confirmAct | complete | openDispute =>
      refine Or.inl (hsame ?_)
      simp [apply, Action.apply, Deal.cancelPendingDeposit]
  | idle | createAct | confirm | compete | blocked =>
    refine Or.inl (hsame ?_)
    simp [apply, Deal.confirm, Deal.compete, Deal.blocked, Deal.cancelIfPending,
      Deal.cancelPendingDeposit]

/-- What the provider declines belongs to a disputed deposit. -/
def declinesDisputed (ev : Event) (σ : Store) : Bool :=
  match ev with
  | .deal k (.decline _ _ _) => (σ.1.dispute k).isSome
  | _ => true

theorem Runs.failedDisputed (h : Runs sha256 ok s₀ s)
    (hok : ∀ ev σ, ok ev σ → declinesDisputed ev σ = true) :
    ∀ k d, s.db.deals.get k = some d → d.dispute = none →
      ∀ o op, d.operations.get o = some op → op.status ≠ .failed := by
  refine h.invariant (P := fun σ => ∀ k d, σ.1.deals.get k = some d → d.dispute = none →
    ∀ o op, d.operations.get o = some op → op.status ≠ .failed) ?_ ?_
  · intro σ hi
    simp [hi.deals]
  · intro ev K a b _ hev hg ha k d' hd' hnone o op hop hf
    rcases hg.get_inv hd' with ⟨d, hd, rfl, -⟩ | ⟨-, read, -, hnew⟩
    · have hbefore : d.dispute = none := by
        rcases (ev.move k).dispute_apply d with ⟨x, -, hx⟩ | hsame
        · rw [hnone] at hx
          cases hx
        · rw [hnone, Option.map_none, eq_comm, Option.map_eq_none_iff] at hsame
          exact hsame
      rcases DealMove.failed_inv hop hf with ⟨op₀, hop₀, hf₀⟩ | ⟨code, now, hmove⟩
      · exact ha k d hd hbefore o op₀ hop₀ hf₀
      · have hdisputed := hok ev a hev
        rw [Event.deal_of_move hmove, declinesDisputed, Database.dispute, hd, Option.bind_some,
          hbefore] at hdisputed
        cases hdisputed
    · rw [hnew.unpaid.1.get_operations] at hop
      cases hop

/-- A declined refund without a dispute. -/
theorem Runs.stuck (h : Runs sha256 ok s₀ s) (hd : s.db.deals.get k = some d)
    (hdep : d.deposit = some dep) (hs : dep.status = .resolving) (hdispute : d.dispute = none)
    (hop : d.operations.get o = some op) (hf : op.status = .failed)
    (hnone : d.hasRetry o = false) : ¬d.Recoverable k s.store dep :=
  (h.workerFacts hd).stuck hd hdep hs hdispute hop hf hnone

/-- **When a deposit is stuck.**  In a run where the provider declines operations of disputed
deposits only, no deposit is; in any run, one is stuck exactly with a failed operation that nothing
retries and no dispute. -/
theorem no_stuck_deposit (h : Runs sha256 ok s₀ s) (hd : s.db.deals.get k = some d)
    (hdep : d.deposit = some dep) (hs : dep.status = .resolving) :
    ((∀ ev σ, ok ev σ → declinesDisputed ev σ = true) → d.Recoverable k s.store dep) ∧
      (d.Recoverable k s.store dep ↔ (d.dispute = none →
        ∀ o op, d.operations.get o = some op → op.status = .failed → d.hasRetry o = true)) := by
  have hfacts := h.workerFacts hd
  have hsafe := h.safeAmount k d hd dep hdep
  refine ⟨fun hok => hfacts.recoverable hd hdep hs hsafe fun hnone o op hop hf =>
    absurd hf (h.failedDisputed hok k d hd hnone o op hop), fun hrecoverable hnone o op hop hf => ?_,
    fun hretried => hfacts.recoverable hd hdep hs hsafe hretried⟩
  by_contra hretry
  exact h.stuck hd hdep hs hnone hop hf (by simpa using hretry) hrecoverable

namespace Scenario

abbrev declinesDisputedIn (ev : Event) (σ : Store) : Prop := declinesDisputed ev σ = true

/-- The borrower pays and cancels. -/
def withdrawn : List Line :=
  [.call (create 1 10 "r1"), .run 0 60, .call (.confirmBooking 2 10 start), .run 1 60,
    .call (.checkout env 1 10 .success "pay-1" 20 start start), .run 2 60,
    .call (.cancelPending env 1 10 start start 21), .run 3 60]

theorem no_stuck_deposit_withdrawn : ∃ d dep,
    (play declinesDisputedIn hash state withdrawn).db.deals.get 10 = some d ∧
      d.deposit = some dep ∧ dep.status = .resolving ∧
      d.Recoverable 10 (play declinesDisputedIn hash state withdrawn).store dep := by
  have hread : ((play declinesDisputedIn hash state withdrawn).db.deals.get 10).map (fun d =>
      d.deposit.map (·.status)) = some (some .resolving) := by decide +kernel
  obtain ⟨d, hd, heq⟩ := Option.map_eq_some_iff.mp hread
  obtain ⟨dep, hdep, hs⟩ := Option.map_eq_some_iff.mp heq
  have hruns := (runs declinesDisputedIn).play withdrawn
  exact ⟨d, dep, hd, hdep, hs, (no_stuck_deposit hruns hd hdep hs).1 fun _ _ h => h⟩

/-- The provider declines the refund. -/
def declined : List Line := withdrawn ++
  [.call (.processOperation env (fun _ => .ok (.declined "declined")) 10 21 start), .run 4 60]

/-- All of the deposit is left, and nothing pays it. -/
theorem stuck_refund : ∃ d dep, (play anyEvent hash state declined).db.deals.get 10 = some d ∧
    d.deposit = some dep ∧ dep.status = .resolving ∧
      ¬d.Recoverable 10 (play anyEvent hash state declined).store dep := by
  have hread : ((play anyEvent hash state declined).db.deals.get 10).map (fun d =>
      (d.deposit.map (·.status), d.dispute.isNone, (d.operations.get 21).map (·.status),
        d.hasRetry 21)) = some (some .resolving, true, some .failed, false) := by decide +kernel
  obtain ⟨d, hd, heq⟩ := Option.map_eq_some_iff.mp hread
  simp only [Prod.mk.injEq, Option.map_eq_some_iff, Option.isNone_iff_eq_none] at heq
  obtain ⟨⟨dep, hdep, hs⟩, hdispute, ⟨op, hop, hf⟩, hnone⟩ := heq
  exact ⟨d, dep, hd, hdep, hs,
    ((runs anyEvent).play declined).stuck hd hdep hs hdispute hop hf hnone⟩

end Scenario

end Sosedi
