import Sosedi.Scripts

/-!
# The history of a booking

A confirmation and a block between users list the requests that they cancel, and write a row
of history and an event for each of them, whatever their guarded updates matched.

Proved here: a request that is cancelled in between gets a second end
(`Scenario.history_cancelledTwice`); in a run in which no such request has moved on when its
list commits, every history is a faithful chain (`history_faithful`).
-/

namespace Sosedi

open Transactions

variable {d d' : Deal} {k : Id} {w : World}

/-- A booking starts `PENDING`, and moves along `WORKFLOW_CONTRACTS.booking`. -/
def bookingEdge : Option BookingStatus → BookingStatus → Bool
  | none, target => target == .pending
  | some source, target => bookingTransitions.any fun e => e.source == source && e.target == target

/-- Each row starts where the row before it ended, the first one at `previous`. -/
def Linked : Option BookingStatus → List BookingTransition → Prop
  | _, [] => True
  | previous, row :: rows => row.oldStatus = previous ∧ bookingEdge previous row.newStatus = true ∧
    Linked (some row.newStatus) rows

def BookingStatus.final : BookingStatus → Bool
  | cancelled | completed => true
  | _ => false

/-- The outbox event of a row. -/
def TransitionCommand.event : TransitionCommand → BookingEventType
  | create => .created
  | confirm => .confirmed
  | cancelCompeting => .competingCancelled
  | cancel | blockCounterparty => .cancelled
  | expire => .pendingTimeout
  | confirmHandover => .handoverConfirmed
  | confirmReturn => .returnConfirmed
  | completeAfterReturn | completeAfterDisputeWindow | completeAfterDisputeDecision
  | completeAfterDepositSettled => .completed

structure Deal.FaithfulHistory (d : Deal) : Prop where
  chain : Linked none d.history
  created : d.history.head?.map (·.command) = some .create
  current : d.history.getLast?.map (·.newStatus) = some d.booking.status
  single : (d.history.filter (·.newStatus.final)).length ≤ 1
  reason : ∀ row ∈ d.history, row.newStatus = .cancelled → row.reason = d.booking.cancellationReason
  outbox : d.outbox = d.history.map (·.command.event)

/-- What a transaction lists or read is still so when it commits. -/
def statusesAsRead : Event → Store → Bool
  | .confirm id _ competitors, σ =>
    competitors.all fun k => k == id || (σ.1.booking k).all (·.status == .pending)
  | .block _ _ cancelled _ _, σ => cancelled.all fun k => (σ.1.booking k).all (·.status == .pending)
  | .deal id (.cancel _ _ statusRead _ _ _), σ => (σ.1.booking id).all (·.status == statusRead)
  | _, _ => true

/-! ## Chains -/

theorem Linked.append {previous : Option BookingStatus} {rows : List BookingTransition}
    {row : BookingTransition} (h : Linked previous rows)
    (hold : row.oldStatus = (rows.getLast?.map (·.newStatus)).or previous)
    (hedge : bookingEdge row.oldStatus row.newStatus = true) : Linked previous (rows ++ [row]) := by
  induction rows generalizing previous with
  | nil =>
    obtain rfl : row.oldStatus = previous := by simpa using hold
    exact ⟨rfl, hedge, trivial⟩
  | cons first rest ih =>
    obtain ⟨hfirst, hstep, hrest⟩ := h
    refine ⟨hfirst, hstep, ih hrest ?_⟩
    rw [hold]
    cases rest with
    | nil => rfl
    | cons second rest =>
      obtain ⟨last, hlast⟩ : ∃ last, (second :: rest).getLast? = some last :=
        ⟨_, List.getLast?_eq_some_getLast (by simp)⟩
      rw [List.getLast?_cons_cons, hlast]
      rfl

/-- No row leaves a final status. -/
theorem not_final_of_edge {source target : BookingStatus}
    (h : bookingEdge (some source) target = true) : source.final = false := by
  revert h
  cases source <;> cases target <;> decide

/-- A chain that has not ended has no final row. -/
theorem Linked.filter_final {previous : Option BookingStatus} {rows : List BookingTransition}
    (h : Linked previous rows)
    (hlast : ∀ s, rows.getLast?.map (·.newStatus) = some s → s.final = false) :
    rows.filter (·.newStatus.final) = [] := by
  induction rows generalizing previous with
  | nil => rfl
  | cons first rest ih =>
    obtain ⟨-, -, hrest⟩ := h
    have hfirst : first.newStatus.final = false := by
      cases rest with
      | nil => exact hlast _ rfl
      | cons second rest => exact not_final_of_edge hrest.2.1
    rw [List.filter_cons_of_neg (by simp [hfirst])]
    refine ih hrest fun s hs => hlast s ?_
    cases rest with
    | nil => cases hs
    | cons second rest => rwa [List.getLast?_cons_cons]

/-- No row goes back to `PENDING`. -/
theorem Linked.ne_pending {source : BookingStatus} {rows : List BookingTransition}
    (h : Linked (some source) rows) : ∀ row ∈ rows, row.newStatus ≠ .pending := by
  induction rows generalizing source with
  | nil => simp
  | cons first rest ih =>
    obtain ⟨-, hedge, hrest⟩ := h
    intro row hrow
    rcases List.mem_cons.mp hrow with rfl | hrow
    · intro hpending
      rw [hpending] at hedge
      revert hedge
      cases source <;> decide
    · exact ih hrest row hrow

namespace Deal.FaithfulHistory

/-- A row is added for a change of the status. -/
theorem add (h : d.FaithfulHistory) (row : BookingTransition)
    (hhistory : d'.history = d.history ++ [row])
    (houtbox : d'.outbox = d.outbox ++ [row.command.event])
    (hold : row.oldStatus = some d.booking.status)
    (hedge : bookingEdge (some d.booking.status) row.newStatus = true)
    (hnew : row.newStatus = d'.booking.status)
    (hreason : row.newStatus = .cancelled → row.reason = d'.booking.cancellationReason) :
    d'.FaithfulHistory := by
  have hfinal := h.chain.filter_final fun s hs => by
    rw [h.current, Option.some.injEq] at hs
    exact hs ▸ not_final_of_edge hedge
  refine ⟨?_, ?_, ?_, ?_, ?_, ?_⟩
  · rw [hhistory]
    exact h.chain.append (by rw [h.current, hold]; rfl) (hold ▸ hedge)
  · rw [hhistory, List.head?_append]
    have hcreated := h.created
    revert hcreated
    cases d.history.head? <;> simp
  · rw [hhistory, List.getLast?_append, List.getLast?_singleton, Option.some_or, Option.map_some,
      hnew]
  · rw [hhistory, List.filter_append, hfinal, List.nil_append]
    exact List.length_filter_le _ _
  · intro r hr hc
    rw [hhistory, List.mem_append, List.mem_singleton] at hr
    rcases hr with hr | rfl
    · have : r ∈ d.history.filter (·.newStatus.final) := List.mem_filter.mpr ⟨hr, by rw [hc]; rfl⟩
      rw [hfinal] at this
      cases this
    · exact hreason hc
  · rw [houtbox, hhistory, h.outbox, List.map_append]
    rfl

theorem of_same (h : d.FaithfulHistory) (hhistory : d'.history = d.history)
    (houtbox : d'.outbox = d.outbox) (hstatus : d'.booking.status = d.booking.status)
    (hreason : d'.booking.cancellationReason = d.booking.cancellationReason) :
    d'.FaithfulHistory := by
  refine ⟨?_, ?_, ?_, ?_, ?_, ?_⟩
  · rw [hhistory]
    exact h.chain
  · rw [hhistory]
    exact h.created
  · rw [hhistory, hstatus]
    exact h.current
  · rw [hhistory]
    exact h.single
  · rw [hhistory, hreason]
    exact h.reason
  · rw [houtbox, hhistory]
    exact h.outbox

theorem completeAfterReturn (h : d.FaithfulHistory) (trigger : BookingCompletionTrigger)
    (now : Time) : (d.completeAfterReturn trigger now).FaithfulHistory := by
  rcases d.completeAfterReturn_cases trigger now with ⟨he, -⟩ | ⟨-, hreturned, he⟩
  · rw [he]
    exact h
  · rw [he]
    refine h.add (completeTransition trigger) rfl ?_ ?_ ?_ rfl (by simp [completeTransition])
    · cases trigger <;> rfl
    · rw [hreturned]
      rfl
    · rw [hreturned]
      rfl

end Deal.FaithfulHistory

/-! ## Moves -/

/-- The move does to the request what its list or its read said. -/
def DealMove.Timely (d : Deal) : DealMove → Prop
  | compete _ | blocked _ => d.booking.status = .pending
  | act (.cancel _ _ statusRead _ _ _) => d.booking.status = statusRead
  | _ => True

/-- A request that was never answered was only created. -/
theorem Deal.FaithfulHistory.outbox_of_pending (h : d.FaithfulHistory)
    (hs : d.booking.status = .pending) : d.outbox = [.created] := by
  obtain ⟨hchain, hcreated, hcurrent, -, -, houtbox⟩ := h
  rw [houtbox]
  rw [hs] at hcurrent
  cases hrows : d.history with
  | nil => simp [hrows] at hcurrent
  | cons first rest =>
    rw [hrows] at hchain hcreated hcurrent
    cases rest with
    | nil =>
      have hcommand : first.command = .create := by simpa using hcreated
      simp [hcommand, TransitionCommand.event]
    | cons second rest =>
      obtain ⟨last, hlast, hpending⟩ := Option.map_eq_some_iff.mp hcurrent
      rw [List.getLast?_cons_cons] at hlast
      exact absurd hpending (hchain.2.2.ne_pending last (List.mem_of_getLast? hlast))

theorem Action.history_apply {action : Action} (h : d.FaithfulHistory)
    (hg : action.guard k d w) (ht : (DealMove.act action).Timely d) :
    (action.apply k d).FaithfulHistory := by
  cases action with
  | cancel actorId isBorrower statusRead depositRead refundId dbNow =>
    refine h.add (BookingService.cancelTransition actorId isBorrower statusRead) ?_ ?_ ?_ ?_ ?_ ?_
    · simp [apply]
    · simp [apply, BookingService.cancelTransition, TransitionCommand.event]
    · rw [show d.booking.status = statusRead from ht]
      rfl
    · rw [show d.booking.status = statusRead from ht]
      obtain ⟨-, -, ⟨rfl, -⟩ | ⟨rfl, -⟩⟩ := hg <;> rfl
    · simp [apply, BookingService.cancelTransition]
    · cases isBorrower <;>
        simp [apply, BookingService.cancelTransition, cancellationReasonOf]
  | expire now =>
    have hpending : d.booking.status = .pending := by
      have hexpired : BookingExpiryService.expired now d.booking = true := hg
      simp only [BookingExpiryService.expired, Bool.and_eq_true, beq_iff_eq] at hexpired
      exact hexpired.1
    refine h.add BookingExpiryService.expireTransition ?_ ?_ ?_ ?_ ?_ ?_
    · simp [apply, Deal.cancelPendingDeposit]
    · simp [apply, Deal.cancelPendingDeposit, BookingExpiryService.expireTransition,
        TransitionCommand.event]
    · rw [hpending]
      rfl
    · rw [hpending]
      rfl
    · simp [apply, Deal.cancelPendingDeposit, BookingExpiryService.expireTransition]
    · simp [apply, Deal.cancelPendingDeposit, BookingExpiryService.expireTransition]
  | confirmAct stage actorId confirmedAt ends completes =>
    obtain ⟨-, -, hstatus, -⟩ := hg
    have hconfirmed : (apply k (.confirmAct stage actorId confirmedAt ends false)
        d).FaithfulHistory := by
      refine h.add (BookingActService.confirmTransition stage actorId) ?_ ?_ ?_ ?_ ?_ ?_
      · simp [apply]
      · cases stage <;> simp [apply] <;> rfl
      · rw [hstatus]
        cases stage <;> rfl
      · rw [hstatus]
        cases stage <;> rfl
      · cases stage <;> simp [apply] <;> rfl
      · cases stage <;> simp [BookingActService.confirmTransition]
    cases completes with
    | false => exact hconfirmed
    | true => exact hconfirmed.completeAfterReturn _ _
  | pay => exact h.of_same (by simp [apply]) (by simp [apply]) (by simp [apply]) (by simp [apply])
  | complete => exact h.completeAfterReturn _ _
  | openDispute | retry | postpone | decline => exact h.of_same rfl rfl rfl rfl
  | resolve =>
    refine Deal.FaithfulHistory.completeAfterReturn ?_ _ _
    exact h.of_same (by simp) (by simp) (by simp) (by simp)
  | autoRefund =>
    refine Deal.FaithfulHistory.completeAfterReturn ?_ _ _
    exact h.of_same rfl rfl rfl rfl
  | settle o kind amount providerId now resolved =>
    have hsettled : (apply k (.settle o kind amount providerId now false) d).FaithfulHistory :=
      h.of_same rfl rfl rfl rfl
    cases resolved with
    | false => exact hsettled
    | true =>
      refine Deal.FaithfulHistory.completeAfterReturn ?_ _ _
      exact h.of_same rfl rfl rfl rfl

/-- **A timely move adds its row and its event.** -/
theorem DealMove.history_apply {m : DealMove} (h : d.FaithfulHistory) (hg : m.guard k d w)
    (ht : m.Timely d) : (m.apply k d).FaithfulHistory := by
  cases m with
  | act action => exact Action.history_apply h hg ht
  | confirm lenderId =>
    have hpending : d.booking.status = .pending := hg.1
    have houtbox := h.outbox_of_pending hpending
    refine h.add (BookingService.confirmTransition lenderId) ?_ ?_ ?_ ?_ ?_ ?_
    · simp [apply, Deal.confirm]
    · simp [apply, Deal.confirm, houtbox, BookingService.confirmTransition, TransitionCommand.event]
    · rw [hpending]
      rfl
    · rw [hpending]
      rfl
    · simp [apply, Deal.confirm, BookingService.confirmTransition]
    · simp [BookingService.confirmTransition]
  | compete lenderId =>
    have hpending : d.booking.status = .pending := ht
    have houtbox := h.outbox_of_pending hpending
    refine h.add (BookingService.competingTransition lenderId) ?_ ?_ ?_ ?_ ?_ ?_
    · simp [apply, Deal.compete, Deal.cancelIfPending, Deal.cancelPendingDeposit]
    · simp [apply, Deal.compete, Deal.cancelIfPending, Deal.cancelPendingDeposit, houtbox,
        BookingService.competingTransition, TransitionCommand.event]
    · rw [hpending]
      rfl
    · rw [hpending]
      rfl
    · simp [apply, Deal.compete, Deal.cancelIfPending, Deal.cancelPendingDeposit, hpending,
        BookingService.competingTransition]
    · simp [apply, Deal.compete, Deal.cancelIfPending, Deal.cancelPendingDeposit, hpending,
        BookingService.competingTransition]
  | blocked blockerId =>
    have hpending : d.booking.status = .pending := ht
    refine h.add (UsersService.blockTransition blockerId) ?_ ?_ ?_ ?_ ?_ ?_
    · simp [apply, Deal.blocked, Deal.cancelIfPending]
    · simp [apply, Deal.blocked, Deal.cancelIfPending, UsersService.blockTransition,
        TransitionCommand.event]
    · rw [hpending]
      rfl
    · rw [hpending]
      rfl
    · simp [apply, Deal.blocked, Deal.cancelIfPending, hpending, UsersService.blockTransition]
    · simp [apply, Deal.blocked, Deal.cancelIfPending, hpending, UsersService.blockTransition]
  | createAct => exact h.of_same (by simp [apply]) (by simp [apply]) (by simp [apply]) (by simp [apply])
  | idle => exact h
  | claim => exact h.of_same rfl rfl rfl rfl

/-! ## Runs -/

variable {sha256 : Bytes → String} {s₀ s : State Sys}

theorem timely_of_statusesAsRead {ev : Event} {a : Store} (hok : statusesAsRead ev a = true)
    (hd : a.1.deals.get k = some d) : (ev.move k).Timely d := by
  have hall : ∀ status, (a.1.booking k).all (·.status == status) = true →
      d.booking.status = status := by
    intro status hs
    simpa [Database.booking, hd] using hs
  cases ev with
  | confirm id lenderId competitors =>
    simp only [Event.move]
    split
    · trivial
    · rename_i hne
      split
      · rename_i hmem
        have := List.all_eq_true.mp hok k hmem
        simp only [Bool.or_eq_true, beq_iff_eq, hne, false_or] at this
        exact hall _ this
      · trivial
  | block blockerId blockedId cancelled seen now =>
    simp only [Event.move]
    split
    · rename_i hmem
      exact hall _ (List.all_eq_true.mp hok k hmem)
    · trivial
  | deal id action =>
    simp only [Event.move]
    split
    · rename_i hid
      subst hid
      cases action with
      | cancel => exact hall _ hok
      | _ => trivial
    · trivial
  | createAct | claim => simp only [Event.move]; split <;> trivial
  | _ => trivial

theorem DraftedFrom.faithfulHistory {read : BookableItem} (h : DraftedFrom read d) :
    d.FaithfulHistory := by
  obtain ⟨policy, terms, borrowerId, itemId, period, requestId, hash, now, dbNow, draft, hdraft,
    rfl⟩ := h
  simp only [draftBooking, bind_eq_ok] at hdraft
  obtain ⟨price, -, money, -, hdraft⟩ := hdraft
  cases hdraft
  refine ⟨⟨rfl, rfl, trivial⟩, rfl, rfl, List.length_filter_le _ _, ?_, rfl⟩
  intro row hrow hcancelled
  obtain rfl := List.mem_singleton.mp hrow
  cases hcancelled

/-- **A booking's history is a faithful chain**, in every run in which what a transaction listed
or read about a request is still so when it commits. -/
theorem history_faithful (h : Runs sha256 (fun ev σ => statusesAsRead ev σ = true) s₀ s) :
    ∀ k d, s.db.deals.get k = some d → d.FaithfulHistory := by
  refine h.invariant (P := fun σ => ∀ k d, σ.1.deals.get k = some d → d.FaithfulHistory) ?_ ?_
  · intro σ hi
    simp [hi.deals]
  · intro ev K a b _ hok hg ha k d' hd'
    rcases hg.get_inv hd' with ⟨d, hd, rfl, hguard, -⟩ | ⟨-, read, -, hnew⟩
    · exact DealMove.history_apply (ha k d hd) hguard (timely_of_statusesAsRead hok hd)
    · exact hnew.faithfulHistory

namespace Scenario

/-- The lender confirms one of two requests; its borrower cancels the other after `nodes` nodes
of the confirmation. -/
def confirmAndCancel (nodes : Nat) : List Line :=
  [.call (create 1 10 "r1"), .run 0 15, .call (create 4 11 "r2"), .run 1 15,
    .call (.confirmBooking 2 10 start), .run 2 nodes,
    .call (.cancelPending env 4 11 start start 21), .run 3 12, .run 2 12]

/-- The other request is cancelled before the confirmation looks for it. -/
theorem history_faithful_cancelledBefore : ∃ d,
    (play (fun ev σ => statusesAsRead ev σ = true) hash state (confirmAndCancel 0)).db.deals.get
        11 = some d ∧ d.booking.status = .cancelled ∧ d.FaithfulHistory := by
  have hdeal : ((play (fun ev σ => statusesAsRead ev σ = true) hash state
      (confirmAndCancel 0)).db.deals.get 11).map (·.booking.status) = some .cancelled := by
    decide +kernel
  obtain ⟨d, hd, hs⟩ := Option.map_eq_some_iff.mp hdeal
  exact ⟨d, hd, hs, history_faithful ((runs _).play (confirmAndCancel 0)) 11 d hd⟩

/-- It is cancelled after the confirmation listed it. -/
theorem history_cancelledTwice : ∃ d,
    Runs hash anyEvent state (play anyEvent hash state (confirmAndCancel 7)) ∧
      (play anyEvent hash state (confirmAndCancel 7)).db.deals.get 11 = some d ∧
      ¬d.FaithfulHistory := by
  have hdeal : ((play anyEvent hash state (confirmAndCancel 7)).db.deals.get 11).map
      (fun d => (d.history.filter (·.newStatus.final)).length) = some 2 := by decide +kernel
  obtain ⟨d, hd, hrows⟩ := Option.map_eq_some_iff.mp hdeal
  refine ⟨d, (runs anyEvent).play _, hd, fun h => ?_⟩
  have := h.single
  omega

end Scenario

end Sosedi
