import Sosedi.Deposits.Machine
import Sosedi.Deposits.Operations
import Sosedi.Scripts

/-!
# Disputes and automatic refunds

Both decide on a held deposit at the end of the dispute window, each with its own clock.

Proved here: the window is the one that the return act fixed (`DealMove.windowFixed_apply`), an
automatic refund leaves no room for a dispute (`DealMove.undisputed_apply`), and so in every run
the two exclude each other (`dispute_excludes_refund`).
-/

namespace Sosedi

open Transactions

variable {d : Deal} {k : Id} {w : World}

/-! ## Automatic refunds -/

/-- The automatic refunds of a deal. -/
def Deal.autoRefunds (d : Deal) : List Id :=
  d.operations.keysWhere fun _ op => op.idempotencyKey == .autoRefund

theorem Deal.autoRefunds_eq (d : Deal) : d.autoRefunds =
    (d.orders.filter fun r => r.2.idempotencyKey == .autoRefund).map Prod.fst := by
  rw [autoRefunds, Table.keysWhere, orders, Table.map, List.filter_map, List.map_map]
  rfl

/-- The automatic refund that an action makes. -/
def Action.refunds : Action → List Id
  | autoRefund _ o _ _ => [o]
  | _ => []

theorem Action.refunds_eq (action : Action) : action.refunds =
    (action.created.filter fun r => r.2.idempotencyKey == .autoRefund).map Prod.fst := by
  cases action with
  | cancel actorId isBorrower statusRead depositRead refundId dbNow =>
    cases depositRead with
    | none => rfl
    | some dep => cases hheld : dep.status == .held <;> simp [refunds, created, hheld]
  | pay borrowerId amount key providerId hold =>
    cases hold <;> rfl
  | resolve adminId reason refundMinor releaseMinor key refundId releaseId now dbNow =>
    cases hrefund : refundMinor != 0 <;> cases hrelease : releaseMinor != 0 <;>
      simp [refunds, created, leg, hrefund, hrelease]
  | _ => simp [refunds, created]

def DealMove.refunds : DealMove → List Id
  | act action => action.refunds
  | _ => []

theorem DealMove.refunds_eq (m : DealMove) : m.refunds =
    (m.created.filter fun r => r.2.idempotencyKey == .autoRefund).map Prod.fst := by
  cases m with
  | act action => exact action.refunds_eq
  | _ => rfl

/-- **Automatic refunds are only added.** -/
theorem DealMove.autoRefunds_apply {m : DealMove} (hg : m.guard k d w) :
    (m.apply k d).autoRefunds = d.autoRefunds ++ m.refunds := by
  rw [Deal.autoRefunds_eq, Deal.autoRefunds_eq, DealMove.orders_apply hg, m.refunds_eq,
    List.filter_append, List.map_append]

/-! ## Disputes -/

/-- The columns of a dispute that are fixed when it opens. -/
def FinancialDispute.opening (x : FinancialDispute) : FinancialDispute :=
  { x with
    resolvedById := none
    status := .opened
    decisionReason := none
    refundToBorrowerAmount := ⟨0⟩
    releaseToLenderAmount := ⟨0⟩
    resolvedAt := none }

/-- A move opens a dispute, or keeps what it opened with. -/
theorem DealMove.dispute_apply (m : DealMove) (d : Deal) :
    (∃ x, m = act (.openDispute x) ∧ (m.apply k d).dispute = some x) ∨
      (m.apply k d).dispute.map (·.opening) = d.dispute.map (·.opening) := by
  cases m with
  | act action =>
    cases action with
    | openDispute x => exact Or.inl ⟨x, rfl, rfl⟩
    | resolve adminId reason refundMinor releaseMinor key refundId releaseId now dbNow =>
      refine Or.inr ?_
      simp only [apply, Action.apply, Deal.dispute_completeAfterReturn, Deal.addAudit,
        Deal.updateDispute, Deal.setDepositStatus, Deal.updateDeposit, Action.dispute_createLeg,
        Option.map_map]
      rfl
    | _ =>
      refine Or.inr ?_
      simp [apply, Action.apply, Deal.cancelPendingDeposit]
  | _ =>
    refine Or.inr ?_
    simp [apply, Deal.confirm, Deal.compete, Deal.blocked, Deal.cancelIfPending,
      Deal.cancelPendingDeposit, Deal.claim]

/-- No dispute next to an automatic refund, after which the deposit is paid out. -/
structure Deal.Undisputed (d : Deal) : Prop where
  single : d.autoRefunds.length ≤ 1
  exclusive : d.autoRefunds ≠ [] → d.dispute = none
  paidOut : d.autoRefunds ≠ [] →
    ∃ dep, d.deposit = some dep ∧ (dep.status = .resolving ∨ dep.status = .resolved)

theorem DealMove.undisputed_apply {m : DealMove} (h : d.Undisputed) (hg : m.guard k d w) :
    (m.apply k d).Undisputed := by
  have hrefunds := DealMove.autoRefunds_apply hg
  by_cases hm : m.refunds = []
  · -- no new refund
    rw [hm, List.append_nil] at hrefunds
    refine ⟨hrefunds ▸ h.single, fun hne => ?_, fun hne => ?_⟩
    · rw [hrefunds] at hne
      rcases m.dispute_apply d with ⟨x, rfl, -⟩ | hsame
      · -- a dispute opens on a held deposit only
        obtain ⟨-, -, -, -, -, dep, -, hdep, hs, -⟩ := hg
        obtain ⟨dep', hdep', hs'⟩ := h.paidOut hne
        rw [hdep, Option.some.injEq] at hdep'
        subst hdep'
        rw [hs] at hs'
        rcases hs' with hs' | hs' <;> cases hs'
      · rw [h.exclusive hne, Option.map_none, Option.map_eq_none_iff] at hsame
        exact hsame
    · rw [hrefunds] at hne
      obtain ⟨dep, hdep, hs⟩ := h.paidOut hne
      obtain ⟨dep', hdep', heq | hedge⟩ := DealMove.depositStatus_apply hg hdep
      · exact ⟨dep', hdep', heq ▸ hs⟩
      · refine ⟨dep', hdep', Or.inr ?_⟩
        rcases hs with hs | hs
        · simpa [hs, DepositStatus.allowedTransitions] using hedge
        · simp [hs, DepositStatus.allowedTransitions] at hedge
  · -- the deadline job refunds
    cases m with
    | act action =>
      cases action with
      | autoRefund amount o now dbNow =>
        obtain ⟨-, hdispute, hfresh, dep, hdep, -, -⟩ := hg
        have hnone : d.autoRefunds = [] := by
          rw [List.eq_nil_iff_forall_not_mem]
          intro j hj
          obtain ⟨op, hop, hkey⟩ := Table.mem_keysWhere.mp hj
          exact absurd hkey (by simpa using Table.any_eq_false.mp hfresh.key j op hop)
        refine ⟨?_, fun _ => ?_, fun _ => ⟨{ dep with status := .resolving }, ?_, Or.inl rfl⟩⟩
        · simp [hrefunds, hnone, refunds, Action.refunds]
        · simpa [apply, Action.apply] using hdispute
        · simp [apply, Action.apply, hdep]
      | _ => exact absurd rfl hm
    | _ => exact absurd rfl hm

/-! ## The dispute window -/

/-- The end of the dispute window is the one that the confirmed return act fixed. -/
def Deal.WindowFixed (d : Deal) : Prop :=
  ∀ dep endsAt, d.deposit = some dep → dep.disputeWindowEndsAt = some endsAt →
    ∃ act confirmedAt, d.returnAct = some act ∧ act.confirmedAt = some confirmedAt ∧
      BookingActService.disputeWindowEnd .return d.booking.boundSnapshot d.deposit confirmedAt =
        some endsAt

theorem disputeWindowEnd_congr (stage : BookingActStage) (snapshot : Option BookingTermsSnapshot)
    {deposit deposit' : Option BookingDeposit} (h : deposit'.isSome = deposit.isSome)
    (confirmedAt : Time) :
    BookingActService.disputeWindowEnd stage snapshot deposit' confirmedAt =
      BookingActService.disputeWindowEnd stage snapshot deposit confirmedAt := by
  unfold BookingActService.disputeWindowEnd
  split <;> simp [h]

/-- What neither moves the window nor touches the return act. -/
theorem Deal.WindowFixed.of_same {d' : Deal} (h : d.WindowFixed)
    (hterms : d'.booking.terms = d.booking.terms) (hdeposit : d'.deposit.isSome = d.deposit.isSome)
    (hwindow : d'.windowEnd = d.windowEnd) (hact : d'.returnAct = d.returnAct) :
    d'.WindowFixed := by
  intro dep' endsAt hdep' hends'
  have hend : d.windowEnd = some endsAt := by
    rw [← hwindow, windowEnd, hdep', Option.bind_some, hends']
  obtain ⟨dep, hdep, hends⟩ := Option.bind_eq_some_iff.mp hend
  obtain ⟨act, confirmedAt, ha, hc, he⟩ := h dep endsAt hdep hends
  refine ⟨act, confirmedAt, hact.trans ha, hc, ?_⟩
  rw [boundSnapshot_of_terms hterms, disputeWindowEnd_congr .return _ hdeposit, he]

theorem Action.returnAct_apply {action : Action}
    (hne : ∀ stage actorId confirmedAt endsAt completes,
      action ≠ .confirmAct stage actorId confirmedAt endsAt completes) (d : Deal) :
    (action.apply k d).returnAct = d.returnAct := by
  cases action with
  | confirmAct => exact absurd rfl (hne _ _ _ _ _)
  | _ => simp [apply, Deal.cancelPendingDeposit]

/-- **No move but the confirmed return fixes the window.** -/
theorem DealMove.windowFixed_apply {m : DealMove} (h : d.WindowFixed) (hg : m.guard k d w) :
    (m.apply k d).WindowFixed := by
  have hdeposit := Deal.isSome_deposit_of_depositTerms (m.depositTerms_apply (k := k) d)
  have hterms := m.terms_apply k d
  have hsame : (m.apply k d).windowEnd = d.windowEnd →
      (m.apply k d).returnAct = d.returnAct → (m.apply k d).WindowFixed :=
    h.of_same hterms hdeposit
  cases m with
  | act action =>
    by_cases hconfirm : ∃ stage actorId confirmedAt ends completes,
        action = .confirmAct stage actorId confirmedAt ends completes
    · obtain ⟨stage, actorId, confirmedAt, ends, completes, rfl⟩ := hconfirm
      obtain ⟨⟨act, hact, hopen, -⟩, -, -, -, -, hends, -⟩ := hg
      cases stage with
      | handover =>
        obtain rfl : ends = none := hends
        refine hsame (Deal.windowEnd_of_deposit ?_) ?_
        · simp [apply, Action.apply, Action.openWindow]
        · simp [apply, Action.apply, Action.openWindow, Deal.setAct]
      | «return» =>
        have hact' : d.returnAct = some act := hact
        have hreturn : (Action.apply k (.confirmAct .return actorId confirmedAt ends completes)
            d).returnAct = some { act with
              confirmedById := some actorId, confirmedAt := some confirmedAt } := by
          simp [Action.apply, Deal.setAct, Deal.act, hact']
        intro dep endsAt hdep hwindow
        refine ⟨_, confirmedAt, hreturn, rfl, ?_⟩
        rw [disputeWindowEnd_congr .return _ hdeposit, boundSnapshot_of_terms hterms, ← hends]
        cases ends with
        | none =>
          have hafter : d.deposit = some dep := by
            rw [← hdep]
            simp [apply, Action.apply, Action.openWindow]
          obtain ⟨act', c, hact'', hc, -⟩ := h dep endsAt hafter hwindow
          rw [hact', Option.some.injEq] at hact''
          rw [← hact'', hopen] at hc
          cases hc
        | some e =>
          have hafter : d.deposit.map ({ · with disputeWindowEndsAt := some e }) = some dep := by
            rw [← hdep]
            simp [apply, Action.apply, Action.openWindow]
          obtain ⟨dep₀, -, rfl⟩ := Option.map_eq_some_iff.mp hafter
          exact hwindow
    · have hne : ∀ stage actorId confirmedAt endsAt completes,
          action ≠ .confirmAct stage actorId confirmedAt endsAt completes :=
        fun _ _ _ _ _ he => hconfirm ⟨_, _, _, _, _, he⟩
      exact hsame (Action.windowEnd_apply hne d) (Action.returnAct_apply hne d)
  | createAct stage a =>
    cases stage with
    | handover => exact hsame (Deal.windowEnd_of_deposit (by simp [apply])) rfl
    | «return» =>
      have hnone : d.returnAct = none := hg.1
      intro dep endsAt hdep hwindow
      obtain ⟨act, c, hact, -⟩ := h dep endsAt hdep hwindow
      rw [hnone] at hact
      cases hact
  | idle | claim => exact h
  | confirm | compete | blocked =>
    refine hsame (DealMove.windowEnd_apply (by simp) d) ?_
    simp [apply, Deal.confirm, Deal.compete, Deal.blocked, Deal.cancelIfPending,
      Deal.cancelPendingDeposit]

/-! ## Runs -/

variable {sha256 : Bytes → String} {ok : Event → Store → Prop} {s₀ s s' : State Sys}

structure Deal.DisputeFacts (d : Deal) : Prop where
  undisputed : d.Undisputed
  window : d.WindowFixed

theorem DraftedFrom.disputeFacts {read : BookableItem} (h : DraftedFrom read d) :
    d.DisputeFacts := by
  have hnone : d.autoRefunds = [] := by
    rw [Deal.autoRefunds, h.unpaid.1.operations]
    rfl
  refine ⟨⟨by simp [hnone], fun hne => absurd hnone hne, fun hne => absurd hnone hne⟩, ?_⟩
  intro dep endsAt hdep hwindow
  rw [h.noWindow hdep] at hwindow
  cases hwindow

theorem Runs.disputeFacts (h : Runs sha256 ok s₀ s) :
    ∀ k d, s.db.deals.get k = some d → d.DisputeFacts := by
  refine h.invariant (P := fun σ => ∀ k d, σ.1.deals.get k = some d → d.DisputeFacts) ?_ ?_
  · intro σ hi
    simp [hi.deals]
  · intro ev K a b _ _ hg ha k d' hd'
    rcases hg.get_inv hd' with ⟨d, hd, rfl, hguard, -⟩ | ⟨-, read, -, hnew⟩
    · have hold := ha k d hd
      exact ⟨DealMove.undisputed_apply hold.undisputed hguard,
        DealMove.windowFixed_apply hold.window hguard⟩
    · exact hnew.disputeFacts

/-- The dispute opens on the held deposit of this deal, inside the window that the confirmed
return act fixed. -/
def Deal.OpensInWindow (d : Deal) (x : FinancialDispute) : Prop :=
  ∃ dep endsAt act confirmedAt, d.deposit = some dep ∧ dep.status = .held ∧
    dep.disputeWindowEndsAt = some endsAt ∧ x.openedAt < endsAt ∧ d.returnAct = some act ∧
    act.confirmedAt = some confirmedAt ∧
    BookingActService.disputeWindowEnd .return d.booking.boundSnapshot d.deposit confirmedAt =
      some endsAt

theorem opensInWindow (h : Runs sha256 ok s₀ s) {m : Move Sys}
    (hm : s.Admits (Calls sha256) ok m) (hf : s.fire m = some s') {x : FinancialDispute}
    (hnone : s.db.dispute k = none) (hx : s'.db.dispute k = some x) :
    ∃ d, s.db.deals.get k = some d ∧ d.OpensInWindow x := by
  rcases h.step hm hf with he | ⟨ev, K, -, hg⟩
  · rw [show s'.db = s.db from congrArg Prod.fst he, hnone] at hx
    cases hx
  · obtain ⟨d', hd', hx⟩ := Option.bind_eq_some_iff.mp hx
    rcases hg.get_inv hd' with ⟨d, hd, rfl, hguard, -⟩ | ⟨-, read, -, hnew⟩
    · refine ⟨d, hd, ?_⟩
      rw [Database.dispute, show s.db.deals.get k = some d from hd, Option.bind_some] at hnone
      rcases (ev.move k).dispute_apply d with ⟨x', hmove, hx'⟩ | hsame
      · rw [hmove] at hguard
        rw [hx, Option.some.injEq] at hx'
        subst hx'
        obtain ⟨-, -, -, -, -, dep, endsAt, hdep, hs, hends, hlt⟩ := hguard
        obtain ⟨act, confirmedAt, hact, hc, hwindow⟩ := (h.disputeFacts k d hd).window dep endsAt hdep hends
        exact ⟨dep, endsAt, act, confirmedAt, hdep, hs, hends, hlt, hact, hc, hwindow⟩
      · rw [hx, hnone] at hsame
        cases hsame
    · rw [hnew.unpaid.1.dispute] at hx
      cases hx

/-- What was opened or refunded stays, and nothing takes its place. -/
def Deal.KeepsDecisions (d d' : Deal) : Prop :=
  (∀ x, d.dispute = some x → ∃ x', d'.dispute = some x' ∧ x'.opening = x.opening) ∧
    d.autoRefunds <+: d'.autoRefunds

theorem Deal.KeepsDecisions.trans {d' d'' : Deal} (h : d.KeepsDecisions d')
    (h' : d'.KeepsDecisions d'') : d.KeepsDecisions d'' := by
  refine ⟨fun x hx => ?_, h.2.trans h'.2⟩
  obtain ⟨x', hx', ho⟩ := h.1 x hx
  obtain ⟨x'', hx'', ho'⟩ := h'.1 x' hx'
  exact ⟨x'', hx'', ho'.trans ho⟩

theorem DealMove.keepsDecisions_apply {m : DealMove} (hg : m.guard k d w) :
    d.KeepsDecisions (m.apply k d) := by
  refine ⟨fun x hx => ?_, ?_⟩
  · rcases m.dispute_apply d with ⟨x', rfl, -⟩ | hsame
    · rw [hg.2.1] at hx
      cases hx
    · rw [hx, Option.map_some, Option.map_eq_some_iff] at hsame
      exact hsame
  · rw [DealMove.autoRefunds_apply hg]
    exact List.prefix_append ..

/-- **A dispute and an automatic refund exclude each other.**  A booking gets at most one of
each for good, and a dispute opens only on a held deposit inside its window. -/
theorem dispute_excludes_refund (h : Runs sha256 ok s₀ s) {d : Deal}
    (hd : s.db.deals.get k = some d) :
    (d.dispute ≠ none → d.autoRefunds = []) ∧ d.autoRefunds.length ≤ 1 ∧
      (∀ s', Reaches (Calls sha256) ok s s' →
        ∃ d', s'.db.deals.get k = some d' ∧ d.KeepsDecisions d') ∧
      ∀ m s' x, s.Admits (Calls sha256) ok m → s.fire m = some s' → d.dispute = none →
        s'.db.dispute k = some x → d.OpensInWindow x := by
  have hfacts := (h.disputeFacts k d hd).undisputed
  refine ⟨fun hne => ?_, hfacts.single, fun s' hr => ?_, fun m s' x hm hf hnone hx => ?_⟩
  · by_contra hrefund
    exact hne (hfacts.exclusive hrefund)
  · exact h.later hr (fun d => ⟨fun x hx => ⟨x, hx, rfl⟩, List.prefix_refl _⟩)
      (fun _ _ _ h h' => h.trans h') (fun _ _ _ _ hg => DealMove.keepsDecisions_apply hg) hd
  · have hnone' : s.db.dispute k = none := by
      rw [Database.dispute, hd, Option.bind_some, hnone]
    obtain ⟨d', hd', hopens⟩ := opensInWindow h hm hf hnone' hx
    rw [hd, Option.some.injEq] at hd'
    exact hd' ▸ hopens

namespace Scenario

/-- The lender opens a dispute on a returned booking, up to the commit. -/
def openingDispute : List Line :=
  returned ++ [.call (.openDispute 2 10 ⟨.other, none⟩ start), .run 11 6]

theorem dispute_excludes_refund_opened : ∃ d s' x,
    (play anyEvent hash state openingDispute).db.deals.get 10 = some d ∧
      (play anyEvent hash state openingDispute).fire (.run 11) = some s' ∧ d.dispute = none ∧
      s'.db.dispute 10 = some x ∧ d.OpensInWindow x := by
  have hdeal : ((play anyEvent hash state openingDispute).db.deals.get 10).map (·.dispute) =
      some none := by decide +kernel
  have hfire : (((play anyEvent hash state openingDispute).fire (.run 11)).bind
      (·.db.dispute 10)).map (·.openedById) = some 2 := by decide +kernel
  simp only [Option.map_eq_some_iff, Option.bind_eq_some_iff] at hdeal hfire
  obtain ⟨d, hd, hnone⟩ := hdeal
  obtain ⟨x, ⟨s', hs', hx⟩, -⟩ := hfire
  exact ⟨d, s', x, hd, hs', hnone, hx,
    (dispute_excludes_refund ((runs anyEvent).play openingDispute) hd).2.2.2 (.run 11) s' x
      (fun _ _ => trivial) hs' hnone hx⟩

end Scenario

end Sosedi
