import Sosedi.Scripts

/-!
# The workflow of a support ticket

The calls read the ticket before they decide; `createMessage` then writes without looking again,
and `replyAsAdmin` does not look at the assignee again.

Proved here: a message that overlaps a close reopens the ticket, and a reply that overlaps an
assignment takes it over (`Scenario.ticket_workflow_overlap`); in a run in which every message and reply commits on a ticket that it may still
write to, a closed ticket stays closed with its messages, and no assignee is replaced
(`ticket_workflow`).
-/

namespace Sosedi

open Transactions

variable {sha256 : Bytes → String} {s₀ s s' : State Sys} {ev : Event} {K : List LockKey}
  {a b c : Store} {i : Id} {ticket : SupportTicket}

/-- What becomes of a ticket: once closed it stays closed and gets no further message, and
once assigned it keeps its assignee. -/
structure TicketWorkflow (i : Id) (a b : Store) : Prop where
  closed : ∀ ticket, a.1.uploads.tickets.get i = some ticket → ticket.status = .closed →
    ∃ ticket', b.1.uploads.tickets.get i = some ticket' ∧ ticket'.status = .closed
  messages : ∀ ticket, a.1.uploads.tickets.get i = some ticket → ticket.status = .closed →
    ∀ k m, b.1.uploads.supportMessages.get k = some m → m.ticketId = i →
      a.1.uploads.supportMessages.get k = some m
  assignee : ∀ ticket adminId, a.1.uploads.tickets.get i = some ticket →
    ticket.assigneeId = some adminId →
      ∃ ticket', b.1.uploads.tickets.get i = some ticket' ∧ ticket'.assigneeId = some adminId

/-- Nobody but `adminId` has the ticket. -/
def SupportTicket.availableTo (adminId : Id) (ticket : SupportTicket) : Bool :=
  ticket.assigneeId.all (· == adminId)

/-- When a message commits, its ticket is not closed; when a message or reply of an operator
commits, no other operator has the ticket. -/
def ticketWritable : Event → Store → Bool
  | .upload (.addSupportMessage _ message _ _), σ =>
    (σ.1.uploads.tickets.get message.ticketId).all fun ticket => ticket.status != .closed &&
      (!message.fromOperator || ticket.availableTo message.authorId)
  | .upload (.replyTicket ticketId adminId ..), σ =>
    (σ.1.uploads.tickets.get ticketId).all (·.availableTo adminId)
  | _, _ => true

namespace TicketWorkflow

theorem refl (i : Id) (a : Store) : TicketWorkflow i a a where
  closed := fun ticket hticket hclosed => ⟨ticket, hticket, hclosed⟩
  messages := fun _ _ _ _ _ hm _ => hm
  assignee := fun ticket _ hticket hassignee => ⟨ticket, hticket, hassignee⟩

theorem trans (h : TicketWorkflow i a b) (h' : TicketWorkflow i b c) : TicketWorkflow i a c where
  closed := by
    intro ticket hticket hclosed
    obtain ⟨ticket', hticket', hclosed'⟩ := h.closed ticket hticket hclosed
    exact h'.closed ticket' hticket' hclosed'
  messages := by
    intro ticket hticket hclosed k m hm hid
    obtain ⟨ticket', hticket', hclosed'⟩ := h.closed ticket hticket hclosed
    exact h.messages ticket hticket hclosed k m
      (h'.messages ticket' hticket' hclosed' k m hm hid) hid
  assignee := by
    intro ticket adminId hticket hassignee
    obtain ⟨ticket', hticket', hassignee'⟩ := h.assignee ticket adminId hticket hassignee
    exact h'.assignee ticket' adminId hticket' hassignee'

end TicketWorkflow

/-! ## Steps -/

/-- What a step writes to a ticket that is closed or assigned. -/
theorem written_ticket (h : UploadStep sha256 ev K a b) (hok : ticketWritable ev a = true)
    (hticket : a.1.uploads.tickets.get i = some ticket) :
    b.1.uploads.tickets.get i = some ticket ∨
      ∃ ticket', b.1.uploads.tickets.get i = some ticket' ∧ ticket.status ≠ .closed ∧
        ∀ adminId, ticket.assigneeId = some adminId → ticket'.assigneeId = some adminId := by
  have havailable : ∀ {adminId}, ticket.availableTo adminId = true →
      ∀ assigneeId, ticket.assigneeId = some assigneeId → some adminId = some assigneeId := by
    intro adminId hall assigneeId hassignee
    rw [SupportTicket.availableTo, hassignee, Option.all_some, beq_iff_eq] at hall
    exact congrArg some hall.symm
  rcases Event.get_tickets_cases ev a.1.uploads i with ⟨he, -⟩ |
    ⟨id, message, attachments, c, rfl, hop, rfl, he⟩ | ⟨adminId, rfl, he⟩ |
    ⟨adminId, body, messageId, respondedAt, rfl, he⟩ | ⟨adminId, rfl, he⟩
  all_goals rw [← h.uploads, hticket] at he
  · exact Or.inl he
  · rw [ticketWritable, hticket, Option.all_some, hop] at hok
    simp only [Bool.not_true, Bool.false_or, Bool.and_eq_true, bne_iff_ne] at hok
    exact Or.inr ⟨_, he, hok.1, havailable hok.2⟩
  · obtain ⟨ticket', hticket', hopen, hnone⟩ := h.guard
    rw [hticket, Option.some.injEq] at hticket'
    subst hticket'
    refine Or.inr ⟨_, he, hopen, fun assigneeId hassignee => ?_⟩
    rw [hnone] at hassignee
    cases hassignee
  · rw [ticketWritable, hticket, Option.all_some] at hok
    obtain ⟨ticket', hticket', hopen⟩ := h.guard
    rw [hticket, Option.some.injEq] at hticket'
    subst hticket'
    exact Or.inr ⟨_, he, hopen, havailable hok⟩
  · obtain ⟨ticket', hticket', hopen, hown⟩ := h.guard
    rw [hticket, Option.some.injEq] at hticket'
    subst hticket'
    exact Or.inr ⟨_, he, hopen, fun assigneeId hassignee =>
      congrArg some (hown assigneeId hassignee).symm⟩

theorem workflow_step (h : UploadStep sha256 ev K a b) (hok : ticketWritable ev a = true) :
    TicketWorkflow i a b where
  closed := by
    intro ticket hticket hclosed
    rcases written_ticket h hok hticket with he | ⟨-, -, hopen, -⟩
    · exact ⟨ticket, he, hclosed⟩
    · exact absurd hclosed hopen
  messages := by
    rintro ticket hticket hclosed k m hm rfl
    rw [h.uploads] at hm
    rcases Event.get_supportMessages_inv hm with hm | ⟨attachments, c, rfl⟩ |
      ⟨adminId, body, respondedAt, rfl, -⟩
    · exact hm
    · rw [ticketWritable, hticket, Option.all_some, hclosed] at hok
      cases hok
    · obtain ⟨ticket', hticket', hopen⟩ := h.guard
      rw [hticket, Option.some.injEq] at hticket'
      exact absurd (hticket' ▸ hclosed) hopen
  assignee := by
    intro ticket adminId hticket hassignee
    rcases written_ticket h hok hticket with he | ⟨ticket', he, -, hkeeps⟩
    · exact ⟨ticket, he, hassignee⟩
    · exact ⟨ticket', he, hkeeps adminId hassignee⟩

/-! ## Runs -/

/-- **The workflow of a ticket** from any state of a run to any later one, if messages and
replies commit on tickets that they may still write to. -/
theorem ticket_workflow (h : Runs sha256 (fun ev σ => ticketWritable ev σ = true) s₀ s)
    (hlater : Reaches (Calls sha256) (fun ev σ => ticketWritable ev σ = true) s s') (i : Id) :
    TicketWorkflow i s.store s'.store := by
  induction hlater with
  | refl => exact .refl i s.store
  | step m hr hm hf ih =>
    rcases (h.trans hr).step hm hf with he | ⟨ev, K, hok, hg⟩
    · exact he ▸ ih
    · exact ih.trans (workflow_step hg.uploads hok)

namespace Scenario

/-- The borrower 1 has written to the support. -/
def supportState : State Sys :=
  { state with
    db := { database with
      uploads := { noUploads with
        tickets := Table.empty.insert 1 ⟨1, none, true, .opened, none, none, none, none⟩ } } }

theorem supportRuns (ok : Event → Store → Prop) : Runs hash ok supportState supportState :=
  .refl rfl { initial with }

abbrev writableIn (ev : Event) (σ : Store) : Prop := ticketWritable ev σ = true

/-- Operator 3 takes the ticket, answers and closes it. -/
def answered : List Line :=
  [.call (.assignToSelf 3 1), .run 0 3, .call (.replyAsAdmin 3 1 "Hello" 40), .run 1 5,
    .call (.closeAsAdmin 3 1), .run 2 3]

/-- The borrower writes to the closed ticket, and operator 5 answers and closes it again. -/
def afterwards : List Line :=
  [.call (.createSupportMessage env 1 1 ⟨"Thanks", []⟩ false 41 id), .run 3 5,
    .call (.replyAsAdmin 5 1 "Again" 42), .run 4 5, .call (.closeAsAdmin 5 1), .run 5 3]

theorem ticket_workflow_closed :
    ((play writableIn hash supportState answered).db.uploads.tickets.get 1).map
        (fun ticket => (ticket.status, ticket.assigneeId)) = some (.closed, some 3) ∧
      TicketWorkflow 1 (play writableIn hash supportState answered).store
        (play writableIn hash (play writableIn hash supportState answered) afterwards).store :=
  ⟨by decide +kernel, ticket_workflow ((supportRuns writableIn).play answered)
    (reaches_play _ afterwards) 1⟩

/-- A message of operator 3 has read the open ticket when the close commits. -/
def closedMeanwhile : State Sys :=
  play anyEvent hash supportState
    [.call (.createSupportMessage env 3 1 ⟨"Hello", []⟩ true 40 id), .run 0 1,
      .call (.closeAsAdmin 3 1), .run 1 3]

/-- A reply of operator 5 has read the ticket when operator 3 takes it. -/
def assignedMeanwhile : State Sys :=
  play anyEvent hash supportState
    [.call (.replyAsAdmin 5 1 "Hello" 40), .run 0 2, .call (.assignToSelf 3 1), .run 1 3]

/-- The message reopens the closed ticket; the reply replaces the assignee. -/
theorem ticket_workflow_overlap :
    (Runs hash anyEvent supportState closedMeanwhile ∧
      Reaches (Calls hash) anyEvent closedMeanwhile
        (play anyEvent hash closedMeanwhile [.run 0 5]) ∧
      ¬TicketWorkflow 1 closedMeanwhile.store
        (play anyEvent hash closedMeanwhile [.run 0 5]).store) ∧
    Runs hash anyEvent supportState assignedMeanwhile ∧
      Reaches (Calls hash) anyEvent assignedMeanwhile
        (play anyEvent hash assignedMeanwhile [.run 0 5]) ∧
      ¬TicketWorkflow 1 assignedMeanwhile.store
        (play anyEvent hash assignedMeanwhile [.run 0 5]).store := by
  refine ⟨⟨(supportRuns anyEvent).play _, reaches_play _ _, fun hworkflow => ?_⟩,
    (supportRuns anyEvent).play _, reaches_play _ _, fun hworkflow => ?_⟩
  · have hbefore : (closedMeanwhile.store.1.uploads.tickets.get 1).map (·.status) =
        some .closed := by decide +kernel
    have hafter : ((play anyEvent hash closedMeanwhile
        [.run 0 5]).store.1.uploads.tickets.get 1).map (·.status) = some .inProgress := by
      decide +kernel
    generalize closedMeanwhile.store = a at hworkflow hbefore
    generalize (play anyEvent hash closedMeanwhile [.run 0 5]).store = b at hworkflow hafter
    obtain ⟨ticket, hticket, hclosed⟩ := Option.map_eq_some_iff.mp hbefore
    obtain ⟨ticket', hticket', hclosed'⟩ := hworkflow.closed ticket hticket hclosed
    rw [hticket', Option.map_some, hclosed'] at hafter
    exact absurd hafter (by decide)
  · have hbefore : (assignedMeanwhile.store.1.uploads.tickets.get 1).map (·.assigneeId) =
        some (some 3) := by decide +kernel
    have hafter : ((play anyEvent hash assignedMeanwhile
        [.run 0 5]).store.1.uploads.tickets.get 1).map (·.assigneeId) = some (some 5) := by
      decide +kernel
    generalize assignedMeanwhile.store = a at hworkflow hbefore
    generalize (play anyEvent hash assignedMeanwhile [.run 0 5]).store = b at hworkflow hafter
    obtain ⟨ticket, hticket, hassignee⟩ := Option.map_eq_some_iff.mp hbefore
    obtain ⟨ticket', hticket', hassignee'⟩ := hworkflow.assignee ticket 3 hticket hassignee
    rw [hticket', Option.map_some, hassignee'] at hafter
    exact absurd hafter (by decide)

end Scenario

end Sosedi
