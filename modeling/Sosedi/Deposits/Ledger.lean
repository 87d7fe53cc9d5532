import Sosedi.Data.Attempts
import Sosedi.System

/-!
# The ledger of a deposit

The operations on a deposit are attempts to hold, refund or release an amount.  `Ledger`
relates them to the deposit row and to the dispute: what was planned, and what the totals of
the row count.

Proved here: what a checkout, a dispute, a decision, a retry and an answer of the provider do
to a ledger (`Ledger.hold`, `.openDispute`, `.payOut`, `.retry`, `.decline`, `.succeed`), and
the same for the updates of a deal.
-/

namespace Sosedi

open Transactions Attempts

def DepositOperationStatus.outcome : DepositOperationStatus → Outcome
  | pending => .pending
  | succeeded => .succeeded
  | failed => .failed

def DepositOperation.attempt (op : DepositOperation) : Attempt Id DepositOperationKind :=
  ⟨op.kind, op.amount.minor, op.status.outcome, op.retryOfId⟩

def Deal.attempts (d : Deal) : Table Id (Attempt Id DepositOperationKind) :=
  d.operations.map DepositOperation.attempt

/-- What a kind of operation is to pay: the hold takes the whole deposit, the rest follows
the decision of the dispute, or goes back to the borrower. -/
def share (dispute : Option FinancialDispute) (amount : Decimal) : DepositOperationKind → Decimal
  | .hold => amount
  | .cancel => ⟨0⟩
  | .refund => (dispute.map (·.refundToBorrowerAmount)).getD amount
  | .releaseToLender => (dispute.map (·.releaseToLenderAmount)).getD ⟨0⟩

variable {t : Table Id (Attempt Id DepositOperationKind)} {deposit : Option BookingDeposit}
  {dep : BookingDeposit} {dispute : Option FinancialDispute}

/-- The deposit is held and nothing else happened to it. -/
structure HeldOnly (t : Table Id (Attempt Id DepositOperationKind)) (amount : Decimal) : Prop where
  kind : ∀ o a, t.get o = some a → a.kind = .hold ∧ a.amount = amount.minor
  planned : planned t .hold = amount.minor

/-- The deposit is to be paid out, every kind of operation its share. -/
structure Decided (t : Table Id (Attempt Id DepositOperationKind)) (amount : Decimal)
    (dispute : Option FinancialDispute) : Prop where
  resolved : ∀ x, dispute = some x → x.status = .resolved
  nonneg : ∀ kind, 0 ≤ (share dispute amount kind).minor
  total : (share dispute amount .refund).minor + (share dispute amount .releaseToLender).minor =
    amount.minor
  amounts : ∀ o a, t.get o = some a → a.kind ≠ .cancel ∧
    a.amount = (share dispute amount a.kind).minor
  planned : ∀ kind, planned t kind = (share dispute amount kind).minor

/-- What the operations and the dispute are, for each status of the deposit. -/
def LedgerStage (t : Table Id (Attempt Id DepositOperationKind)) (dep : BookingDeposit)
    (dispute : Option FinancialDispute) : Prop :=
  match dep.status with
  | .pending | .cancelled => t = .empty ∧ dispute = none
  | .held => HeldOnly t dep.amount ∧ dispute = none
  | .disputed => HeldOnly t dep.amount ∧ ∃ x, dispute = some x ∧ x.status = .opened
  | .resolving => Decided t dep.amount dispute
  | .resolved => Decided t dep.amount dispute ∧
    dep.refundedAmount.minor + dep.releasedToLenderAmount.minor = dep.amount.minor

structure Ledger (t : Table Id (Attempt Id DepositOperationKind))
    (deposit : Option BookingDeposit) (dispute : Option FinancialDispute) : Prop where
  wellFormed : WellFormed t
  holds : ∀ o a, t.get o = some a → a.kind = .hold → a.outcome = .succeeded
  absent : deposit = none → t = .empty ∧ dispute = none
  amount : ∀ dep, deposit = some dep → 0 < dep.amount.minor
  refunded : ∀ dep, deposit = some dep → dep.refundedAmount.minor = paid t .refund
  released : ∀ dep, deposit = some dep → dep.releasedToLenderAmount.minor = paid t .releaseToLender
  stage : ∀ dep, deposit = some dep → LedgerStage t dep dispute

/-- The deal has a ledger. -/
def Deal.Balanced (d : Deal) : Prop := Ledger d.attempts d.deposit d.dispute

/-! ## Steps of the ledger -/

theorem HeldOnly.paid_eq_zero (h : HeldOnly t dep.amount) {kind : DepositOperationKind}
    (hk : kind ≠ .hold) : paid t kind = 0 := by
  rw [paid, Table.sum_congr (g := fun _ _ => 0)]
  · simp [Table.sum]
  · intro o a ha
    simp [(h.kind o a ha).1, Ne.symm hk]

theorem HeldOnly.planned_eq_zero (h : HeldOnly t dep.amount) (kind : DepositOperationKind)
    (hk : kind ≠ .hold) : Attempts.planned t kind = 0 := by
  rw [Attempts.planned, Table.sum_congr (g := fun _ _ => 0)]
  · simp [Table.sum]
  · intro o a ha
    simp [(h.kind o a ha).1, Ne.symm hk]

namespace Ledger

/-- The other columns of the deposit do not matter. -/
theorem updateDeposit (h : Ledger t deposit dispute) {f : BookingDeposit → BookingDeposit}
    (hf : ∀ dep, (f dep).amount = dep.amount ∧ (f dep).refundedAmount = dep.refundedAmount ∧
      (f dep).releasedToLenderAmount = dep.releasedToLenderAmount)
    (hs : ∀ dep, deposit = some dep → LedgerStage t dep dispute → LedgerStage t (f dep) dispute) :
    Ledger t (deposit.map f) dispute where
  wellFormed := h.wellFormed
  holds := h.holds
  absent := fun hn => h.absent (Option.map_eq_none_iff.mp hn)
  amount := by
    simp only [Option.map_eq_some_iff]
    rintro _ ⟨dep, hdep, rfl⟩
    rw [(hf dep).1]
    exact h.amount dep hdep
  refunded := by
    simp only [Option.map_eq_some_iff]
    rintro _ ⟨dep, hdep, rfl⟩
    rw [(hf dep).2.1]
    exact h.refunded dep hdep
  released := by
    simp only [Option.map_eq_some_iff]
    rintro _ ⟨dep, hdep, rfl⟩
    rw [(hf dep).2.2]
    exact h.released dep hdep
  stage := by
    simp only [Option.map_eq_some_iff]
    rintro _ ⟨dep, hdep, rfl⟩
    exact hs dep hdep (h.stage dep hdep)

/-- A deposit that was never held is cancelled. -/
theorem cancelDeposit (h : Ledger t deposit dispute)
    (hs : ∀ dep, deposit = some dep → dep.status = .pending ∨ dep.status = .cancelled) :
    Ledger t (deposit.map ({ · with status := .cancelled })) dispute := by
  refine h.updateDeposit (fun _ => ⟨rfl, rfl, rfl⟩) fun dep hdep hstage => ?_
  rcases hs dep hdep with hp | hp
  · simpa [LedgerStage, hp] using hstage
  · simpa [LedgerStage, hp] using hstage

theorem openWindow (h : Ledger t deposit dispute) (endsAt : Time) :
    Ledger t (deposit.map ({ · with disputeWindowEndsAt := some endsAt })) dispute :=
  h.updateDeposit (fun _ => ⟨rfl, rfl, rfl⟩) fun _ _ hstage => hstage

/-- A step that pays nothing out. -/
theorem of_paid (h : Ledger t (some dep) dispute)
    {t' : Table Id (Attempt Id DepositOperationKind)} {dep' : BookingDeposit}
    {dispute' : Option FinancialDispute} (hw : WellFormed t')
    (hholds : ∀ o a, t'.get o = some a → a.kind = .hold → a.outcome = .succeeded)
    (hdep : dep'.amount = dep.amount ∧ dep'.refundedAmount = dep.refundedAmount ∧
      dep'.releasedToLenderAmount = dep.releasedToLenderAmount)
    (hpaid : ∀ kind, kind ≠ .hold → paid t' kind = paid t kind)
    (hs : LedgerStage t' dep' dispute') : Ledger t' (some dep') dispute' := by
  refine ⟨hw, hholds, by simp, ?_, ?_, ?_, ?_⟩
  · rintro _ ⟨⟩
    rw [hdep.1]
    exact h.amount dep rfl
  · rintro _ ⟨⟩
    rw [hdep.2.1, hpaid _ (by simp)]
    exact h.refunded dep rfl
  · rintro _ ⟨⟩
    rw [hdep.2.2, hpaid _ (by simp)]
    exact h.released dep rfl
  · rintro _ ⟨⟩
    exact hs

/-- The checkout holds the deposit. -/
theorem hold (h : Ledger t (some dep) dispute) (hs : dep.status = .pending) (o : Id) :
    Ledger (t.insert o ⟨.hold, dep.amount.minor, .succeeded, none⟩)
      (some { dep with status := .held }) dispute := by
  have hstage := h.stage dep rfl
  simp only [LedgerStage, hs] at hstage
  obtain ⟨rfl, rfl⟩ := hstage
  have hnone : (Table.empty : Table Id (Attempt Id DepositOperationKind)).get o = none := rfl
  refine h.of_paid (h.wellFormed.request hnone rfl (h.amount dep rfl)) ?_
    ⟨rfl, rfl, rfl⟩ ?_ ⟨⟨?_, ?_⟩, rfl⟩
  · intro o' a ha _
    rcases Table.of_get_insert ha with ⟨rfl, rfl⟩ | ha
    · rfl
    · cases ha
  · intro kind hk
    rw [paid_insert hnone]
    simp [Ne.symm hk]
  · intro o' a ha
    rcases Table.of_get_insert ha with ⟨rfl, rfl⟩ | ha
    · exact ⟨rfl, rfl⟩
    · cases ha
  · rw [planned_insert hnone]
    simp [Attempts.planned]

/-- A dispute opens on a held deposit. -/
theorem openDispute (h : Ledger t (some dep) dispute) (hs : dep.status = .held)
    {x : FinancialDispute} (hx : x.status = .opened) :
    Ledger t (some { dep with status := .disputed }) (some x) := by
  have hstage := h.stage dep rfl
  simp only [LedgerStage, hs] at hstage
  exact h.of_paid h.wellFormed h.holds ⟨rfl, rfl, rfl⟩ (fun _ _ => rfl) ⟨hstage.1, x, rfl, hx⟩

/-- A first attempt, still pending, to pay out a share of the deposit. -/
def legs (t : Table Id (Attempt Id DepositOperationKind)) (o : Id) (kind : DepositOperationKind)
    (amount : Int) : Table Id (Attempt Id DepositOperationKind) :=
  if amount = 0 then t else t.insert o ⟨kind, amount, .pending, none⟩

theorem paid_legs {o : Id} {kind : DepositOperationKind} {amount : Int}
    (ho : amount ≠ 0 → t.get o = none) (x : DepositOperationKind) :
    paid (legs t o kind amount) x = paid t x := by
  unfold legs
  split
  · rfl
  · rename_i hne
    rw [paid_insert (ho hne)]
    simp

theorem planned_legs {o : Id} {kind : DepositOperationKind} {amount : Int}
    (ho : amount ≠ 0 → t.get o = none) (x : DepositOperationKind) :
    planned (legs t o kind amount) x = planned t x + if kind = x then amount else 0 := by
  unfold legs
  split
  · rename_i hz
    simp [hz]
  · rename_i hne
    rw [planned_insert (ho hne)]
    simp

theorem wellFormed_legs {o : Id} {kind : DepositOperationKind} {amount : Int}
    (h : WellFormed t) (ho : amount ≠ 0 → t.get o = none) (ha : 0 ≤ amount) :
    WellFormed (legs t o kind amount) := by
  unfold legs
  split
  · exact h
  · rename_i hne
    exact h.request (ho hne) rfl (lt_of_le_of_ne ha (Ne.symm hne))

theorem of_get_legs {o o' : Id} {kind : DepositOperationKind} {amount : Int}
    {a : Attempt Id DepositOperationKind} (h : (legs t o kind amount).get o' = some a) :
    t.get o' = some a ∨ o' = o ∧ a = ⟨kind, amount, .pending, none⟩ ∧ amount ≠ 0 := by
  unfold legs at h
  split at h
  · exact Or.inl h
  · rename_i hne
    rcases Table.of_get_insert h with ⟨rfl, rfl⟩ | h
    · exact Or.inr ⟨rfl, rfl, hne⟩
    · exact Or.inl h

/-- Paying out a held deposit: one attempt for each share that is not zero. -/
theorem payOut (h : Ledger t (some dep) dispute) (hheld : HeldOnly t dep.amount)
    (dispute' : Option FinancialDispute) (hx : ∀ x, dispute' = some x → x.status = .resolved)
    {refund release : Int} (hrefund : (share dispute' dep.amount .refund).minor = refund)
    (hrelease : (share dispute' dep.amount .releaseToLender).minor = release)
    (hn : 0 ≤ refund) (hn' : 0 ≤ release) (htotal : refund + release = dep.amount.minor)
    (o o' : Id) (ho : refund ≠ 0 → t.get o = none) (ho' : release ≠ 0 → t.get o' = none)
    (hne : refund ≠ 0 → release ≠ 0 → o ≠ o') :
    Ledger (legs (legs t o .refund refund) o' .releaseToLender release)
      (some { dep with status := .resolving }) dispute' := by
  have hamount := Int.le_of_lt (h.amount dep rfl)
  have ho'' : release ≠ 0 → (legs t o .refund refund).get o' = none := by
    intro hr
    unfold legs
    split
    · exact ho' hr
    · rename_i hne'
      rw [Table.get_insert_ne _ _ (Ne.symm (hne hne' hr)), ho' hr]
  refine h.of_paid (wellFormed_legs (wellFormed_legs h.wellFormed ho hn) ho'' hn') ?_
    ⟨rfl, rfl, rfl⟩ (fun kind _ => by rw [paid_legs ho'', paid_legs ho]) ⟨hx, ?_, ?_, ?_, ?_⟩
  · intro j a ha hkind
    rcases of_get_legs ha with ha | ⟨-, rfl, -⟩
    · rcases of_get_legs ha with ha | ⟨-, rfl, -⟩
      · exact h.holds j a ha hkind
      · cases hkind
    · cases hkind
  · rintro (_ | _ | _ | _)
    · exact hamount
    · exact Int.le_refl 0
    · exact hrefund ▸ hn
    · exact hrelease ▸ hn'
  · rw [hrefund, hrelease, htotal]
  · intro j a ha
    rcases of_get_legs ha with ha | ⟨-, rfl, -⟩
    · rcases of_get_legs ha with ha | ⟨-, rfl, -⟩
      · obtain ⟨hkind, hamount⟩ := hheld.kind j a ha
        rw [hkind, hamount]
        exact ⟨by simp, rfl⟩
      · exact ⟨by simp, hrefund.symm⟩
    · exact ⟨by simp, hrelease.symm⟩
  · intro kind
    rw [planned_legs ho'', planned_legs ho]
    cases kind with
    | hold => simpa [share] using hheld.planned
    | cancel => simpa [share] using hheld.planned_eq_zero .cancel (by simp)
    | refund => simpa [hrefund] using hheld.planned_eq_zero .refund (by simp)
    | releaseToLender =>
      simpa [hrelease] using hheld.planned_eq_zero .releaseToLender (by simp)

/-- A failed attempt is retried. -/
theorem retry (h : Ledger t (some dep) dispute) (hs : dep.status = .resolving) {o r : Id}
    {b : Attempt Id DepositOperationKind} (ho : t.get o = none) (hb : t.get r = some b)
    (hf : b.outcome = .failed) (hr : retried t r = false) :
    Ledger (t.insert o ⟨b.kind, b.amount, .pending, some r⟩) (some dep) dispute := by
  have hstage := h.stage dep rfl
  simp only [LedgerStage, hs] at hstage
  refine h.of_paid (h.wellFormed.retry_insert ho hb hf hr rfl rfl rfl) ?_ ⟨rfl, rfl, rfl⟩ ?_ ?_
  · intro j a ha hkind
    rcases Table.of_get_insert ha with ⟨-, rfl⟩ | ha
    · rw [h.holds r b hb hkind] at hf
      cases hf
    · exact h.holds j a ha hkind
  · intro kind _
    rw [paid_insert ho]
    simp
  · simp only [LedgerStage, hs]
    refine { hstage with amounts := ?_, planned := ?_ }
    · intro j a ha
      rcases Table.of_get_insert ha with ⟨-, rfl⟩ | ha
      · exact hstage.amounts r b hb
      · exact hstage.amounts j a ha
    · intro kind
      rw [planned_insert ho, hstage.planned]
      simp

end Ledger

/-- What the worker writes of an attempt. -/
def withOutcome (outcome : Outcome) (a : Attempt Id DepositOperationKind) :
    Attempt Id DepositOperationKind := { a with outcome }

theorem of_get_withOutcome {o j : Id} {outcome : Outcome} {a : Attempt Id DepositOperationKind}
    (h : (t.modify o (withOutcome outcome)).get j = some a) : ∃ a₀, t.get j = some a₀ ∧
      a.kind = a₀.kind ∧ a.amount = a₀.amount ∧ (j ≠ o → a = a₀) := by
  rw [Table.get_modify] at h
  split at h
  · rename_i hj
    rw [Option.map_eq_some_iff] at h
    obtain ⟨a₀, ha₀, rfl⟩ := h
    exact ⟨a₀, ha₀, rfl, rfl, fun hne => absurd hj hne⟩
  · exact ⟨a, h, rfl, rfl, fun _ => rfl⟩

theorem Decided.withOutcome {amount : Decimal} (h : Decided t amount dispute) (o : Id)
    (outcome : Outcome) : Decided (t.modify o (withOutcome outcome)) amount dispute where
  resolved := h.resolved
  nonneg := h.nonneg
  total := h.total
  amounts := by
    intro j a ha
    obtain ⟨a₀, ha₀, hkind, hamount, -⟩ := of_get_withOutcome ha
    rw [hkind, hamount]
    exact h.amounts j a₀ ha₀
  planned := fun kind => by
    rw [planned_modify (f := Sosedi.withOutcome outcome) (fun _ => ⟨rfl, rfl, rfl⟩), h.planned]

namespace Ledger

/-- Only a deposit that is to be paid out has pending operations. -/
theorem decided_of_pending (h : Ledger t (some dep) dispute) {o : Id}
    {a : Attempt Id DepositOperationKind} (ha : t.get o = some a) (hp : a.outcome = .pending) :
    a.kind ≠ .hold ∧ Decided t dep.amount dispute ∧
      (dep.status = .resolving ∨ dep.status = .resolved) := by
  have hkind : a.kind ≠ .hold := fun hk => by
    rw [h.holds o a ha hk] at hp
    cases hp
  have hstage := h.stage dep rfl
  unfold LedgerStage at hstage
  split at hstage
  · rw [hstage.1] at ha
    cases ha
  · rw [hstage.1] at ha
    cases ha
  · exact absurd (hstage.1.kind o a ha).1 hkind
  · exact absurd (hstage.1.kind o a ha).1 hkind
  · rename_i hs
    exact ⟨hkind, hstage, Or.inl hs⟩
  · rename_i hs
    exact ⟨hkind, hstage.1, Or.inr hs⟩

theorem holds_withOutcome (h : Ledger t (some dep) dispute) {o : Id}
    {a : Attempt Id DepositOperationKind} (ha : t.get o = some a) (hp : a.outcome = .pending)
    (outcome : Outcome) : ∀ j c, (t.modify o (withOutcome outcome)).get j = some c →
      c.kind = .hold → c.outcome = .succeeded := by
  intro j c hc hkind
  obtain ⟨c₀, hc₀, hkind₀, -, hsame⟩ := of_get_withOutcome hc
  by_cases hj : j = o
  · subst hj
    rw [ha, Option.some.injEq] at hc₀
    subst hc₀
    exact absurd (hkind₀.symm.trans hkind) (h.decided_of_pending ha hp).1
  · rw [hsame hj] at hkind ⊢
    exact h.holds j c₀ hc₀ hkind

/-- The provider declines an operation. -/
theorem decline (h : Ledger t (some dep) dispute) {o : Id}
    {a : Attempt Id DepositOperationKind} (ha : t.get o = some a) (hp : a.outcome = .pending) :
    Ledger (t.modify o (withOutcome .failed)) (some dep) dispute := by
  obtain ⟨-, hdecided, -⟩ := h.decided_of_pending ha hp
  have hstage := h.stage dep rfl
  refine h.of_paid (h.wellFormed.settle ha hp fun _ => ⟨rfl, rfl, rfl⟩)
    (h.holds_withOutcome ha hp _) ⟨rfl, rfl, rfl⟩ ?_ ?_
  · intro kind _
    rw [paid_modify ha hp]
    simp [withOutcome]
  · rcases (h.decided_of_pending ha hp).2.2 with hs | hs
    · simpa [LedgerStage, hs] using hdecided.withOutcome o .failed
    · simp only [LedgerStage, hs] at hstage ⊢
      exact ⟨hdecided.withOutcome o .failed, hstage.2⟩

/-- The provider carries an operation out, and the totals follow. -/
theorem succeed (h : Ledger t (some dep) dispute) {o : Id}
    {a : Attempt Id DepositOperationKind} (ha : t.get o = some a) (hp : a.outcome = .pending)
    {amount : Decimal} (hamount : a.amount = amount.minor) (resolved : Bool)
    (hr : resolved = true → DepositOperationProcessor.nextTotal amount dep = dep.amount.minor) :
    Ledger (t.modify o (withOutcome .succeeded))
      (some (DepositOperationProcessor.settleDeposit a.kind amount resolved dep)) dispute := by
  obtain ⟨hkind, hdecided, -⟩ := h.decided_of_pending ha hp
  have hpayout : a.kind = .refund ∨ a.kind = .releaseToLender := by
    have hcancel := (hdecided.amounts o a ha).1
    generalize a.kind = kind at hkind hcancel
    cases kind <;> simp_all
  have hpaid : ∀ kind, paid (t.modify o (withOutcome .succeeded)) kind =
      paid t kind + if a.kind = kind then amount.minor else 0 := by
    intro kind
    rw [paid_modify ha hp]
    simp [withOutcome, hamount]
  refine ⟨h.wellFormed.settle ha hp fun _ => ⟨rfl, rfl, rfl⟩, h.holds_withOutcome ha hp _,
    by simp, ?_, ?_, ?_, ?_⟩
  · rintro _ ⟨⟩
    exact h.amount dep rfl
  · rintro _ ⟨⟩
    rw [hpaid, ← h.refunded dep rfl]
    rcases hpayout with hk | hk <;> simp [DepositOperationProcessor.settleDeposit, hk]
  · rintro _ ⟨⟩
    rw [hpaid, ← h.released dep rfl]
    rcases hpayout with hk | hk <;> simp [DepositOperationProcessor.settleDeposit, hk]
  · rintro _ ⟨⟩
    cases resolved with
    | false => exact hdecided.withOutcome o .succeeded
    | true =>
      have htotal := hr rfl
      simp only [DepositOperationProcessor.nextTotal, decimalToMinor] at htotal
      refine ⟨hdecided.withOutcome o .succeeded, ?_⟩
      rcases hpayout with hk | hk <;>
        simp only [DepositOperationProcessor.settleDeposit, hk, if_true, reduceCtorEq, if_false,
          Decimal.minor_increment] <;> omega

end Ledger

/-! ## Deals -/

namespace Deal

variable {d d' : Deal} {c : Bool} {f : Deal → Deal} {o : Id}

theorem get_attempts (d : Deal) (o : Id) :
    d.attempts.get o = (d.operations.get o).map DepositOperation.attempt := Table.get_map ..

theorem get_attempts_of_get {op : DepositOperation} (h : d.operations.get o = some op) :
    d.attempts.get o = some op.attempt := by
  rw [get_attempts, h, Option.map_some]

theorem get_attempts_of_none (h : d.operations.get o = none) : d.attempts.get o = none := by
  rw [get_attempts, h, Option.map_none]

theorem attempts_createOperation (d : Deal) (o : Id) (op : DepositOperation) :
    (d.createOperation o op).attempts = d.attempts.insert o op.attempt := Table.map_insert ..

theorem attempts_updateOperation (d : Deal) (o : Id) {f : DepositOperation → DepositOperation}
    (outcome : Outcome) (hf : ∀ op, (f op).attempt = withOutcome outcome op.attempt) :
    (d.updateOperation o f).attempts = d.attempts.modify o (withOutcome outcome) :=
  Table.map_modify _ _ _ _ _ hf

/-- An update of columns that the ledger does not count. -/
theorem attempts_updateOperation_of_eq (d : Deal) (o : Id)
    {f : DepositOperation → DepositOperation} (hf : ∀ op, (f op).attempt = op.attempt) :
    (d.updateOperation o f).attempts = d.attempts :=
  Table.map_modify_of_eq _ _ _ _ hf

theorem attempts_createLeg (o : Id) (kind : DepositOperationKind) (amount : Int) (key : String)
    (now dbNow : Time) (d : Deal) : (Action.createLeg o kind amount key now dbNow d).attempts =
      Ledger.legs d.attempts o kind amount := by
  unfold Action.createLeg Ledger.legs
  by_cases h : amount = 0
  · simp [h]
  · have hb : (amount != 0) = true := by simpa using h
    rw [if_neg h, hb, Deal.onlyIf_true, attempts_createOperation]
    rfl

namespace Balanced

theorem of_same (h : d.Balanced) (hops : d'.operations = d.operations)
    (hdep : d'.deposit = d.deposit) (hdispute : d'.dispute = d.dispute) : d'.Balanced := by
  unfold Balanced attempts
  rw [hops, hdep, hdispute]
  exact h

theorem onlyIf (h : d.Balanced) (hf : c = true → (f d).Balanced) : (d.onlyIf c f).Balanced := by
  cases c with
  | true => exact hf rfl
  | false => exact h

theorem cancelDeposit (h : d.Balanced)
    (hs : ∀ dep, d.deposit = some dep → dep.status = .pending ∨ dep.status = .cancelled) :
    (d.setDepositStatus .cancelled).Balanced := Ledger.cancelDeposit h hs

/-- The guarded update of a cancellation. -/
theorem cancelPendingDeposit (h : d.Balanced) : d.cancelPendingDeposit.Balanced := by
  refine h.onlyIf fun hp => h.cancelDeposit fun dep hdep => ?_
  rw [hdep] at hp
  exact Or.inl (by simpa using hp)

theorem completeAfterReturn (h : d.Balanced) (trigger : BookingCompletionTrigger) (now : Time) :
    (d.completeAfterReturn trigger now).Balanced :=
  h.of_same (by simp) (by simp) (by simp)

theorem onlyIf_completeAfterReturn (h : d.Balanced) (c : Bool)
    (trigger : BookingCompletionTrigger) (now : Time) :
    (d.onlyIf c (Deal.completeAfterReturn · trigger now)).Balanced :=
  h.onlyIf fun _ => h.completeAfterReturn trigger now

/-- The whole held deposit is to go back to the borrower. -/
theorem refundAll (h : d.Balanced) {dep : BookingDeposit} (hdep : d.deposit = some dep)
    (hs : dep.status = .held) (hx : d.dispute = none) {key : OperationKey}
    (ho : Action.Fresh d o key) (key' : OperationKey) (at' createdAt : Time) :
    (d.setDepositStatus .resolving |>.createOperation o
      (.create .refund dep.amount key' none at' createdAt)).Balanced := by
  have hledger : Ledger d.attempts (some dep) d.dispute := hdep ▸ h
  have hheld : HeldOnly d.attempts dep.amount := by
    have := hledger.stage dep rfl
    simp only [LedgerStage, hs] at this
    exact this.1
  have hamount := hledger.amount dep rfl
  have hpay := hledger.payOut hheld none (by simp) rfl rfl
    (Int.le_of_lt hamount) (Int.le_refl 0) (by simp [share]) o o
    (fun _ => get_attempts_of_none ho.id) (by simp [share]) (by simp [share])
  have hne : ¬(share none dep.amount .refund).minor = 0 := fun hz => by
    simp only [share, Option.map_none, Option.getD_none] at hz
    omega
  unfold Balanced
  rw [attempts_createOperation]
  simp only [Ledger.legs, hne, if_false] at hpay
  simpa [hdep, hx, share, attempts, DepositOperation.attempt, DepositOperation.create,
    DepositOperationStatus.outcome] using hpay

end Balanced

end Deal

end Sosedi
