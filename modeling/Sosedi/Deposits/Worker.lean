import Sosedi.Bookings.Completed
import Sosedi.Transactions.Failures

/-!
# The errors of the deposit worker

Proved here: under a pending operation the deposit is in rubles, to be paid out, and has the
amount of the operation left (`Deal.WorkerFacts.pending`); so the worker throws none of its
errors, whatever other clients do meanwhile (`wpE_processOne`), and it goes through its whole
batch (`worker_never_fails`).
-/

namespace Sosedi

open Transactions Attempts

variable {d d' : Deal} {k o : Id} {w : World} {sha256 : Bytes → String}
  {ok : Event → Store → Prop} {s₀ s s' : State Sys}

/-- What the worker checks before it pays an operation. -/
structure DepositOperation.Payable (op : DepositOperation) (dep : BookingDeposit) : Prop where
  currency : dep.currency = "RUB"
  resolving : dep.status = .resolving
  kind : op.kind = .refund ∨ op.kind = .releaseToLender
  total : DepositOperationProcessor.nextTotal op.amount dep ≤ decimalToMinor dep.amount

structure Deal.WorkerFacts (d : Deal) : Prop where
  currency : ∀ dep, d.deposit = some dep → dep.currency = "RUB"
  balanced : d.Balanced
  waiting : d.Waiting

/-- **A pending operation can be paid.** -/
theorem Deal.WorkerFacts.pending (h : d.WorkerFacts) {op : DepositOperation}
    (hop : d.operations.get o = some op) (hp : op.status = .pending) :
    ∃ dep, d.deposit = some dep ∧ op.Payable dep := by
  have ha := Deal.get_attempts_of_get hop
  have hpending : op.attempt.outcome = .pending := by rw [DepositOperation.attempt, hp]; rfl
  cases hdep : d.deposit with
  | none =>
    rw [(h.balanced.absent hdep).1] at ha
    cases ha
  | some dep =>
    have hledger : Ledger d.attempts (some dep) d.dispute := hdep ▸ h.balanced
    obtain ⟨hhold, hdecided, hstatus⟩ := hledger.decided_of_pending ha hpending
    have hkind : op.kind = .refund ∨ op.kind = .releaseToLender := by
      have hcancel : op.kind ≠ .cancel := (hdecided.amounts o _ ha).1
      have hhold : op.kind ≠ .hold := hhold
      cases hk : op.kind <;> simp_all
    -- the other kind pays at most its share
    have hle := hledger.wellFormed.paid_add_le ha hpending
    have hrefund := hledger.wellFormed.paid_le .refund
    have hrelease := hledger.wellFormed.paid_le .releaseToLender
    have htotal := hdecided.total
    rw [hdecided.planned] at hle hrefund hrelease
    rw [← hledger.refunded dep rfl] at hrefund
    rw [← hledger.released dep rfl] at hrelease
    have hpaid : dep.refundedAmount.minor + dep.releasedToLenderAmount.minor + op.amount.minor ≤
        dep.amount.minor := by
      rcases hkind with hk | hk
      · simp only [DepositOperation.attempt, hk] at hle
        rw [← hledger.refunded dep rfl] at hle
        omega
      · simp only [DepositOperation.attempt, hk] at hle
        rw [← hledger.released dep rfl] at hle
        omega
    refine ⟨dep, rfl, h.currency dep hdep, ?_, hkind, hpaid⟩
    rcases hstatus with hs | hs
    · exact hs
    · have hstage := hledger.stage dep rfl
      simp only [LedgerStage, hs] at hstage
      have hpos : 0 < op.amount.minor := hledger.wellFormed.amount o _ ha
      omega

theorem DraftedFrom.currency {read : BookableItem} (h : DraftedFrom read d) {dep : BookingDeposit}
    (hdep : d.deposit = some dep) : dep.currency = "RUB" := by
  obtain ⟨policy, terms, borrowerId, itemId, period, requestId, hash, now, dbNow, draft, hdraft,
    rfl⟩ := h
  simp only [draftBooking, bind_eq_ok] at hdraft
  obtain ⟨price, -, money, -, hdraft⟩ := hdraft
  cases hdraft
  simp only [BookingDraft.deal, Deal.addMessage, Deal.addTransition, Deal.addOutbox,
    Option.map_eq_some_iff] at hdep
  obtain ⟨t, -, rfl⟩ := hdep
  rfl

theorem Runs.currency (h : Runs sha256 ok s₀ s) : ∀ k d, s.db.deals.get k = some d →
    ∀ dep, d.deposit = some dep → dep.currency = "RUB" := by
  refine h.invariant (P := fun σ => ∀ k d, σ.1.deals.get k = some d →
    ∀ dep, d.deposit = some dep → dep.currency = "RUB") ?_ ?_
  · intro σ hi
    simp [hi.deals]
  · intro ev K a b _ _ hg ha k d' hd' dep' hdep'
    rcases hg.get_inv hd' with ⟨d, hd, rfl, -⟩ | ⟨-, read, -, hnew⟩
    · obtain ⟨dep, hdep, hterms⟩ := (ev.move k).deposit_inv hdep'
      have hcurrency : dep.terms.currency = dep'.terms.currency := by rw [hterms]
      exact hcurrency.symm.trans (ha k d hd dep hdep)
    · exact hnew.currency hdep'

theorem Runs.workerFacts (h : Runs sha256 ok s₀ s) {k : Id} {d : Deal}
    (hd : s.db.deals.get k = some d) : d.WorkerFacts :=
  ⟨h.currency k d hd, h.balanced k d hd, (h.completionFacts k d hd).waiting⟩

/-! ## The worker -/

/-- The contract, with what the worker may rely on. -/
def workerContract (sha256 : Bytes → String) (ok : Event → Store → Prop) : Contract Sys :=
  { contract sha256 ok with
    inv := fun σ => Inv sha256 σ ∧ ∀ k d, σ.1.deals.get k = some d → d.WorkerFacts }

variable {L : List LockKey} {ω : List (Database → Database)} {σ σ' : Store}
  {R : Error → Prop}

theorem worker_interference (h : (workerContract sha256 ok).Interference L σ σ') :
    (contract sha256 ok).Interference L σ σ' := by
  refine Relation.ReflTransGen.mono ?_ _ _ h
  rintro a b ⟨K, hK, hv, ev, hok, hg⟩
  exact ⟨K, hK, hv.1, ev, hok, hg⟩

namespace DepositOperationProcessor

/-- A claimed operation has its deposit, in rubles. -/
theorem wpE_claim (k o : Id) (now : Time) :
    wpE (workerContract sha256 ok) (claim k o now) R (fun r L ω _ => L = [] ∧ ω = [] ∧
      ∀ op dep, r = some (op, dep) → dep.any (·.currency == "RUB") = true) [] [] σ := by
  simp only [claim, Prog.bind_eq, wpE_bind, wpE_updateWhere]
  intro σ₁ _ _
  split
  · rename_i hmatched
    obtain ⟨op, hop, hclaim⟩ := (Option.any_eq_true _ _).mp hmatched
    simp only [wpE_bind, wpE_select, Prog.pure_eq, wpE_ret, wpE_commit]
    intro σ₂ hi₂ _ σ₃ hi₃ hv₃ σ₄ _ _ _ _ _
    refine ⟨trivial, trivial, fun op' dep' hr => ?_⟩
    have hL : .operationRow k o ∈ [LockKey.operationRow k o] ++ [] := List.mem_singleton_self _
    have hop₃ : σ₃.1.operation k o = some op :=
      interference_keeps (fun _ _ => Other.operation hL)
        (worker_interference (interference_trans hi₂ hi₃)) hop
    obtain ⟨d, hd, hget⟩ := Option.bind_eq_some_iff.mp hop₃
    simp only [claimable, Bool.and_eq_true, beq_iff_eq] at hclaim
    obtain ⟨dep, hdep, hpay⟩ := (hv₃.2 k d hd).pending hget hclaim.1.1
    obtain ⟨_, _, hread⟩ := Option.map_eq_some_iff.mp hr
    cases hread
    simp [Database.deposit, hd, Deal.updateOperation, hdep, hpay.currency]
  · simp only [wpE_bind, wpE_commit, Prog.pure_eq, wpE_ret]
    intro _ _ _ _ _ _
    exact ⟨trivial, trivial, by simp⟩

variable {d : Deal} {g : Deal → Deal} {ks : List LockKey}

/-- The completion finds no booking that waits for it. -/
theorem wpE_completion {now : Time} {Q : Nat → List LockKey → List (Database → Database) →
      Store → Prop} (h : Local k d g ks L ω σ)
    (hs : (g d).booking.status ≠ .returned)
    (hQ : ∀ σ, Local k d g ks L ω σ → Q 0 L ω σ) :
    wpE (workerContract sha256 ok) (completeBookingAfterReturnInTransaction k now
      .depositSettled) R Q L ω σ := by
  simp only [completeBookingAfterReturnInTransaction, Prog.bind_eq, wpE_bind, wpE_select]
  intro σ₁ hi₁ _
  have h₁ := h.interference (worker_interference hi₁)
  simp only [h₁.booking, wpE_bind, wpE_select, wpE_lift]
  intro σ₂ hi₂ _ σ₃ hi₃ _
  have h₃ := (h₁.interference (worker_interference hi₂)).interference (worker_interference hi₃)
  simp only [completionCheck, ne_eq, hs, not_false_eq_true, if_true]
  refine ⟨fun a ha => ?_, fun e he => ?_⟩
  · cases ha
    exact hQ σ₃ h₃
  · cases he

theorem wpE_checkResolved {total : Bool}
    {Q : Bool → List LockKey → List (Database → Database) → Store → Prop}
    (h : Local k d g ks L ω σ) (hQ : ∀ r σ, Local k d g ks L ω σ → Q r L ω σ) :
    wpE (workerContract sha256 ok) (checkResolved k total) R Q L ω σ := by
  unfold checkResolved
  cases total with
  | false => exact hQ false σ h
  | true =>
    simp only [if_true, Prog.bind_eq, wpE_bind, wpE_select]
    intro σ₁ hi₁ _
    have h₁ := h.interference (worker_interference hi₁)
    split
    · exact hQ true σ₁ h₁
    · simp only [wpE_bind, wpE_select]
      intro σ₂ hi₂ _
      have h₂ := h₁.interference (worker_interference hi₂)
      split
      · intro σ₃ hi₃ _
        exact hQ _ σ₃ (h₂.interference (worker_interference hi₃))
      · exact hQ false σ₂ h₂

/-- A success is recorded without an error. -/
theorem wpE_applySuccess (h : Local k d id [] L [] σ) {operation : DepositOperation}
    {deposit : BookingDeposit} (hpay : operation.Payable deposit)
    (hs : d.booking.status ≠ .returned) (processingUntil : Time) (providerOperationId : String)
    (now : Time) :
    wpE (workerContract sha256 ok) (applySuccess k o operation deposit processingUntil
      providerOperationId now) R (fun _ L ω _ => L = [] ∧ ω = []) L [] σ := by
  have hkind : (operation.kind == .refund || operation.kind == .releaseToLender) = true := by
    rcases hpay.kind with hk | hk <;> simp [hk]
  unfold applySuccess
  simp only [hpay.resolving, bne_self_eq_false, Bool.false_eq_true, if_false, Prog.bind_eq,
    wpE_bind, wpE_lift, hkind, hpay.total, decide_true, Bool.and_self, ensure, if_true,
    onOperation, wpE_updateWhere]
  refine ⟨fun _ _ => ?_, fun e he => by cases he⟩
  intro σ₁ hi₁ _
  have h₁ := h.interference (worker_interference hi₁)
  split
  · simp only [wpE_bind]
    refine wpE_checkResolved (h₁.push [.operationRow k o]
      (blind_settle providerOperationId now)) fun resolved σ₂ h₂ => ?_
    intro σ₃ hi₃ _
    have h₃ := (h₂.interference (worker_interference hi₃)).push [.depositRow k]
      (Deal.blind_updateDeposit (settleDeposit operation.kind operation.amount resolved))
    cases resolved with
    | false =>
      intro _ _ _ _ _ _
      exact ⟨rfl, rfl⟩
    | true =>
      simp only [when, if_true, wpE_bind]
      refine wpE_completion h₃ hs fun σ₄ h₄ => ?_
      intro _ _ _ _ _ _
      exact ⟨rfl, rfl⟩
  · intro _ _ _ _ _ _
    exact ⟨rfl, rfl⟩

theorem wpE_applyOutcome (k o : Id) (attempts : Nat) (processingUntil : Time)
    (outcome : ProviderOperationResult) (now : Time) :
    wpE (workerContract sha256 ok) (applyOutcome k o attempts processingUntil outcome now) R
      (fun _ L ω _ => L = [] ∧ ω = []) [] [] σ := by
  simp only [applyOutcome, Prog.bind_eq, wpE_bind, wpE_acquire, wpE_select]
  intro σ₁ _ _ σ₂ _ hv₂ σ₃ hi₃ _
  have hL : .booking k ∈ [LockKey.booking k] := List.mem_singleton_self _
  have hdone : ∀ (ev : Event) (L : List LockKey) (ω : List (Database → Database)) (σ : Store),
      wpE (workerContract sha256 ok) (commit ev) R (fun _ L ω _ => L = [] ∧ ω = []) L ω σ :=
    fun _ _ _ _ _ _ _ _ _ _ => ⟨rfl, rfl⟩
  cases hop : ((view [] σ₂.1).operation k o).filter (leased processingUntil) with
  | none => exact hdone _ _ _ _
  | some operation =>
    rw [Option.filter_eq_some_iff] at hop
    obtain ⟨hop, hleased⟩ := hop
    obtain ⟨d, hd, hget⟩ := Option.bind_eq_some_iff.mp hop
    have hpending : operation.status = .pending := by
      simp only [leased, Bool.and_eq_true, beq_iff_eq] at hleased
      exact hleased.1
    have hfacts := hv₂.2 k d hd
    obtain ⟨deposit, hdep, hpay⟩ := hfacts.pending hget hpending
    have hlocal : Local k d id [] [.booking k] [] σ₂ := Local.start hL hd fun hu => by
      rw [hu.get_operations] at hget
      cases hget
    have h₃ := hlocal.interference (worker_interference hi₃)
    have hread : (view [] σ₃.1).deposit k = some deposit := h₃.deposit.trans hdep
    simp only [hread, required, wpE_bind, wpE_lift]
    refine ⟨fun deposit' heq => ?_, fun e he => by cases he⟩
    cases heq
    cases outcome with
    | timeout =>
      simp only [wpE_bind, onOperation, wpE_updateWhere]
      intro _ _ _
      exact hdone _ _ _ _
    | declined errorCode =>
      simp only [wpE_bind, onOperation, wpE_updateWhere]
      intro _ _ _
      split
      · simp only [wpE_bind]
        intro _ _ _
        exact hdone _ _ _ _
      · exact hdone _ _ _ _
    | succeeded providerOperationId =>
      -- the deposit of a returned booking is not paid out
      have hs : d.booking.status ≠ .returned := fun hs => by
        have hresolving := hpay.resolving
        rcases hfacts.waiting.returned hs deposit hdep with he | he <;> rw [he] at hresolving <;>
          cases hresolving
      exact wpE_applySuccess h₃ hpay hs processingUntil providerOperationId now

/-- **The worker processes an operation without an error.** -/
theorem wpE_processOne (env : Env)
    (deliver : Except Error ProviderOperationResult → Except Error ProviderOperationResult)
    (k o : Id) (now : Time) :
    wpE (workerContract sha256 ok) (processOne sha256 env deliver k o now) R
      (fun _ L ω _ => L = [] ∧ ω = []) [] [] σ := by
  simp only [processOne, Prog.bind_eq, wpE_bind]
  refine wpE_mono _ ?_ (wpE_claim k o now)
  rintro claimed L ω σ ⟨rfl, rfl, hclaimed⟩
  cases claimed with
  | none => exact ⟨rfl, rfl⟩
  | some c =>
    obtain ⟨operation, deposit⟩ := c
    simp only [hclaimed operation deposit rfl, ensure, if_true, wpE_bind, wpE_lift]
    refine ⟨fun _ _ => ?_, fun e he => by cases he⟩
    have hrest : ∀ (outcome : ProviderOperationResult) (σ : Store), wpE (workerContract sha256 ok)
        ((applyOutcome k o operation.attempts (now + operationLeaseMs) outcome now).bind
          fun _ => .ret 1) R (fun _ L ω _ => L = [] ∧ ω = []) [] [] σ := fun outcome σ => by
      rw [wpE_bind]
      exact wpE_mono _ (fun _ _ _ _ h => h) (wpE_applyOutcome k o _ _ outcome now)
    cases env.policy.requireFakeSafeDeal with
    | error e => exact hrest .timeout σ
    | ok u =>
      simp only [wpE_bind, callProvider, wpE_call]
      intro σ' _ _ _ _ _
      cases deliver (FakeSafeDealProvider.execute sha256 σ'.2.provider _).1 with
      | error e => exact hrest .timeout _
      | ok result => exact hrest result _

/-- Only the policy stops a batch. -/
theorem wpE_processPending (env : Env)
    (deliver : Id → Id → Except Error ProviderOperationResult →
      Except Error ProviderOperationResult) (now : Time) :
    wpE (workerContract sha256 ok) (processPending sha256 env deliver now)
      (fun e => env.policy.requireFakeSafeDeal = .error e)
      (fun _ L ω _ => L = [] ∧ ω = []) [] [] σ := by
  simp only [processPending, Prog.bind_eq, wpE_bind, wpE_lift]
  refine ⟨fun _ _ => ?_, fun e he => he⟩
  intro σ' _ _
  refine wpE_forEach ?_ ⟨rfl, rfl⟩
  rintro operation L ω σ ⟨rfl, rfl⟩
  rw [wpE_bind]
  exact wpE_mono _ (fun _ _ _ _ h => h) (wpE_processOne env _ _ _ now)

end DepositOperationProcessor

/-! ## Runs -/

/-- **The worker's errors are unreachable**: a batch stops before its end only where the policy
does not allow it, and whatever operation is pending can be paid. -/
theorem worker_never_fails (h : Runs sha256 ok s₀ s) {i : Nat} (hi : i < s.threads.length)
    {env : Env} {deliver : Id → Id → Except Error ProviderOperationResult →
      Except Error ProviderOperationResult} {now : Time}
    (hstart : s.thread i = ⟨(Call.processPending env deliver now).prog sha256, [], []⟩)
    (hr : Reaches (Calls sha256) ok s s') :
    (∀ e, (s'.thread i).prog = .throw e → env.policy.requireFakeSafeDeal = .error e) ∧
      ∀ k d, s'.db.deals.get k = some d → ∀ o op, d.operations.get o = some op →
        op.status = .pending → ∃ dep, d.deposit = some dep ∧ op.Payable dep := by
  refine ⟨fun e he => ?_, fun k d hd o op hop hp => ((h.trans hr).workerFacts hd).pending hop hp⟩
  have hthrows : (s.thread i).Throws (workerContract sha256 ok)
      (fun e => env.policy.requireFakeSafeDeal = .error e) s.store := by
    rw [hstart]
    exact wpE_mono _ (fun _ _ _ _ _ => trivial)
      (DepositOperationProcessor.wpE_processPending env deliver now)
  have hlater : (s'.thread i).Throws (workerContract sha256 ok) _ s'.store :=
    h.sound.throws keeps_calls preserved rfl rfl
      (fun b hb => ⟨(h.trans hb).inv, fun k d hd => (h.trans hb).workerFacts hd⟩) hi hthrows hr
  exact hlater.error he

namespace Scenario

/-- The deadline job has scheduled the refund, and the worker 12 starts. -/
def refunding : List Line :=
  completed ++ [.call (.processPending env (fun _ _ answer => answer) (start + 86400000))]

theorem worker_never_fails_refund :
    let paid := play anyEvent hash (play anyEvent hash state refunding) [.run 12 20]
    (∀ e, (paid.thread 12).prog = .throw e → env.policy.requireFakeSafeDeal = .error e) ∧
      ∀ k d, paid.db.deals.get k = some d → ∀ o op, d.operations.get o = some op →
        op.status = .pending → ∃ dep, d.deposit = some dep ∧ op.Payable dep := by
  intro paid
  have hthread : (play anyEvent hash state refunding).thread 12 =
      ⟨(Call.processPending env (fun _ _ answer => answer) (start + 86400000)).prog hash, [],
        []⟩ := by
    have hlen : (play anyEvent hash state completed).threads.length = 12 := by decide +kernel
    rw [← hlen]
    exact thread_play_call _ _ _
  exact worker_never_fails ((runs anyEvent).play refunding) (by decide +kernel) hthread
    (reaches_play _ _)

end Scenario

end Sosedi
