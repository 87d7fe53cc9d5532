import Sosedi.Deals.Actions

/-!
# Fields of a deal after an effect

The field lemmas of the conditional updates, and `Deal.forget`, which drops what a claim
writes: leases and attempt counters.  What is decided under the lock of a booking depends
on `forget d` only.
-/

namespace Sosedi

namespace Deal

variable {d d' : Deal} {c : Bool} {f : Deal → Deal}

@[simp] theorem onlyIf_true (f : Deal → Deal) (d : Deal) : d.onlyIf true f = f d := rfl

@[simp] theorem onlyIf_false (f : Deal → Deal) (d : Deal) : d.onlyIf false f = d := rfl

section OnlyIf

variable (c : Bool) (f : Deal → Deal) (d : Deal)

@[simp] theorem booking_onlyIf :
    (d.onlyIf c f).booking = if c then (f d).booking else d.booking := by cases c <;> rfl

@[simp] theorem deposit_onlyIf :
    (d.onlyIf c f).deposit = if c then (f d).deposit else d.deposit := by cases c <;> rfl

@[simp] theorem operations_onlyIf :
    (d.onlyIf c f).operations = if c then (f d).operations else d.operations := by cases c <;> rfl

@[simp] theorem dispute_onlyIf :
    (d.onlyIf c f).dispute = if c then (f d).dispute else d.dispute := by cases c <;> rfl

@[simp] theorem payment_onlyIf :
    (d.onlyIf c f).payment = if c then (f d).payment else d.payment := by cases c <;> rfl

@[simp] theorem handoverAct_onlyIf :
    (d.onlyIf c f).handoverAct = if c then (f d).handoverAct else d.handoverAct := by cases c <;> rfl

@[simp] theorem returnAct_onlyIf :
    (d.onlyIf c f).returnAct = if c then (f d).returnAct else d.returnAct := by cases c <;> rfl

@[simp] theorem messages_onlyIf :
    (d.onlyIf c f).messages = if c then (f d).messages else d.messages := by cases c <;> rfl

@[simp] theorem history_onlyIf :
    (d.onlyIf c f).history = if c then (f d).history else d.history := by cases c <;> rfl

@[simp] theorem outbox_onlyIf :
    (d.onlyIf c f).outbox = if c then (f d).outbox else d.outbox := by cases c <;> rfl

end OnlyIf

/-! ## Acts -/

section Acts

variable (stage : BookingActStage) (a : Option BookingAct) (d : Deal)

@[simp] theorem booking_setAct : (d.setAct stage a).booking = d.booking := by cases stage <;> rfl

@[simp] theorem deposit_setAct : (d.setAct stage a).deposit = d.deposit := by cases stage <;> rfl

@[simp] theorem operations_setAct : (d.setAct stage a).operations = d.operations := by
  cases stage <;> rfl

@[simp] theorem dispute_setAct : (d.setAct stage a).dispute = d.dispute := by cases stage <;> rfl

@[simp] theorem payment_setAct : (d.setAct stage a).payment = d.payment := by cases stage <;> rfl

@[simp] theorem history_setAct : (d.setAct stage a).history = d.history := by cases stage <;> rfl

@[simp] theorem outbox_setAct : (d.setAct stage a).outbox = d.outbox := by cases stage <;> rfl

end Acts

/-! ## Completion -/

section Completion

variable (trigger : BookingCompletionTrigger) (now : Time) (d : Deal)

/-- A completion either does nothing or completes a returned booking. -/
theorem completeAfterReturn_cases :
    d.completeAfterReturn trigger now = d ∧
        completionCheck trigger now d.booking d.deposit d.dispute ≠ .ok true ∨
      completionCheck trigger now d.booking d.deposit d.dispute = .ok true ∧
        d.booking.status = .returned ∧
        d.completeAfterReturn trigger now =
          (d.setStatus .completed |>.addTransition (completeTransition trigger)
            |>.addOutbox .completed) := by
  unfold completeAfterReturn
  split
  · rename_i h
    refine Or.inr ⟨h, ?_, rfl⟩
    by_contra hne
    simp [completionCheck, hne] at h
  · rename_i h
    exact Or.inl ⟨rfl, h⟩

@[simp] theorem deposit_completeAfterReturn :
    (d.completeAfterReturn trigger now).deposit = d.deposit := by
  rcases d.completeAfterReturn_cases trigger now with ⟨h, -⟩ | ⟨-, -, h⟩ <;> simp [h]

@[simp] theorem operations_completeAfterReturn :
    (d.completeAfterReturn trigger now).operations = d.operations := by
  rcases d.completeAfterReturn_cases trigger now with ⟨h, -⟩ | ⟨-, -, h⟩ <;> simp [h]

@[simp] theorem dispute_completeAfterReturn :
    (d.completeAfterReturn trigger now).dispute = d.dispute := by
  rcases d.completeAfterReturn_cases trigger now with ⟨h, -⟩ | ⟨-, -, h⟩ <;> simp [h]

@[simp] theorem payment_completeAfterReturn :
    (d.completeAfterReturn trigger now).payment = d.payment := by
  rcases d.completeAfterReturn_cases trigger now with ⟨h, -⟩ | ⟨-, -, h⟩ <;> simp [h]

@[simp] theorem handoverAct_completeAfterReturn :
    (d.completeAfterReturn trigger now).handoverAct = d.handoverAct := by
  rcases d.completeAfterReturn_cases trigger now with ⟨h, -⟩ | ⟨-, -, h⟩ <;> simp [h]

@[simp] theorem returnAct_completeAfterReturn :
    (d.completeAfterReturn trigger now).returnAct = d.returnAct := by
  rcases d.completeAfterReturn_cases trigger now with ⟨h, -⟩ | ⟨-, -, h⟩ <;> simp [h]

end Completion

theorem terms_completeAfterReturn (trigger : BookingCompletionTrigger) (now : Time) (d : Deal) :
    (d.completeAfterReturn trigger now).booking.terms = d.booking.terms := by
  rcases d.completeAfterReturn_cases trigger now with ⟨h, -⟩ | ⟨-, -, h⟩ <;> rw [h]
  rfl

theorem status_completeAfterReturn (trigger : BookingCompletionTrigger) (now : Time) (d : Deal) :
    (d.completeAfterReturn trigger now).booking.status = d.booking.status ∨
      d.booking.status = .returned ∧
        (d.completeAfterReturn trigger now).booking.status = .completed := by
  rcases d.completeAfterReturn_cases trigger now with ⟨h, -⟩ | ⟨-, hr, h⟩
  · rw [h]
    exact Or.inl rfl
  · rw [h]
    exact Or.inr ⟨hr, rfl⟩

end Deal

/-! ## Parts of actions -/

namespace Action

section Parts

variable (depositRead : Option BookingDeposit) (refundId : Id) (dbNow : Time)
  (hold : Option HoldData) (ends : Option Time) (o : Id) (kind : DepositOperationKind)
  (amount : Int) (key : String) (now : Time) (d : Deal)

@[simp] theorem booking_preHandoverRefund :
    (preHandoverRefund depositRead refundId dbNow d).booking = d.booking := by
  cases depositRead <;> simp [preHandoverRefund]

@[simp] theorem dispute_preHandoverRefund :
    (preHandoverRefund depositRead refundId dbNow d).dispute = d.dispute := by
  cases depositRead <;> simp [preHandoverRefund]

@[simp] theorem payment_preHandoverRefund :
    (preHandoverRefund depositRead refundId dbNow d).payment = d.payment := by
  cases depositRead <;> simp [preHandoverRefund]

@[simp] theorem handoverAct_preHandoverRefund :
    (preHandoverRefund depositRead refundId dbNow d).handoverAct = d.handoverAct := by
  cases depositRead <;> simp [preHandoverRefund]

@[simp] theorem returnAct_preHandoverRefund :
    (preHandoverRefund depositRead refundId dbNow d).returnAct = d.returnAct := by
  cases depositRead <;> simp [preHandoverRefund]

@[simp] theorem history_preHandoverRefund :
    (preHandoverRefund depositRead refundId dbNow d).history = d.history := by
  cases depositRead <;> simp [preHandoverRefund]

@[simp] theorem outbox_preHandoverRefund :
    (preHandoverRefund depositRead refundId dbNow d).outbox = d.outbox := by
  cases depositRead <;> simp [preHandoverRefund]

@[simp] theorem booking_payHold :
    (payHold hold d).booking = d.booking := by
  cases hold <;> rfl

@[simp] theorem dispute_payHold :
    (payHold hold d).dispute = d.dispute := by
  cases hold <;> rfl

@[simp] theorem payment_payHold :
    (payHold hold d).payment = d.payment := by
  cases hold <;> rfl

@[simp] theorem handoverAct_payHold :
    (payHold hold d).handoverAct = d.handoverAct := by
  cases hold <;> rfl

@[simp] theorem returnAct_payHold :
    (payHold hold d).returnAct = d.returnAct := by
  cases hold <;> rfl

@[simp] theorem history_payHold :
    (payHold hold d).history = d.history := by
  cases hold <;> rfl

@[simp] theorem outbox_payHold :
    (payHold hold d).outbox = d.outbox := by
  cases hold <;> rfl

@[simp] theorem booking_openWindow :
    (openWindow ends d).booking = d.booking := by
  cases ends <;> rfl

@[simp] theorem operations_openWindow :
    (openWindow ends d).operations = d.operations := by
  cases ends <;> rfl

@[simp] theorem dispute_openWindow :
    (openWindow ends d).dispute = d.dispute := by
  cases ends <;> rfl

@[simp] theorem payment_openWindow :
    (openWindow ends d).payment = d.payment := by
  cases ends <;> rfl

@[simp] theorem handoverAct_openWindow :
    (openWindow ends d).handoverAct = d.handoverAct := by
  cases ends <;> rfl

@[simp] theorem returnAct_openWindow :
    (openWindow ends d).returnAct = d.returnAct := by
  cases ends <;> rfl

@[simp] theorem history_openWindow :
    (openWindow ends d).history = d.history := by
  cases ends <;> rfl

@[simp] theorem outbox_openWindow :
    (openWindow ends d).outbox = d.outbox := by
  cases ends <;> rfl

@[simp] theorem booking_createLeg :
    (createLeg o kind amount key now dbNow d).booking = d.booking := by
  simp [createLeg]

@[simp] theorem deposit_createLeg :
    (createLeg o kind amount key now dbNow d).deposit = d.deposit := by
  simp [createLeg]

@[simp] theorem dispute_createLeg :
    (createLeg o kind amount key now dbNow d).dispute = d.dispute := by
  simp [createLeg]

@[simp] theorem payment_createLeg :
    (createLeg o kind amount key now dbNow d).payment = d.payment := by
  simp [createLeg]

@[simp] theorem handoverAct_createLeg :
    (createLeg o kind amount key now dbNow d).handoverAct = d.handoverAct := by
  simp [createLeg]

@[simp] theorem returnAct_createLeg :
    (createLeg o kind amount key now dbNow d).returnAct = d.returnAct := by
  simp [createLeg]

@[simp] theorem history_createLeg :
    (createLeg o kind amount key now dbNow d).history = d.history := by
  simp [createLeg]

@[simp] theorem outbox_createLeg :
    (createLeg o kind amount key now dbNow d).outbox = d.outbox := by
  simp [createLeg]

end Parts

/-- No action changes the terms of a booking. -/
theorem terms_apply (id : Id) (action : Action) (d : Deal) :
    (action.apply id d).booking.terms = d.booking.terms := by
  have hcomplete := fun trigger now (d : Deal) => d.terms_completeAfterReturn trigger now
  cases action with
  | cancel => simp [apply, Booking.terms]
  | expire => simp [apply, Booking.terms, Deal.cancelPendingDeposit]
  | confirmAct stage actorId confirmedAt ends completes =>
    cases completes
    · simp [apply, Booking.terms]
    · exact (hcomplete _ _ _).trans (by simp [Booking.terms])
  | pay => simp [apply]
  | complete => exact hcomplete _ _ _
  | openDispute => rfl
  | resolve => exact (hcomplete _ _ _).trans (by simp)
  | autoRefund => exact hcomplete _ _ _
  | retry | postpone | decline => rfl
  | settle o kind amount providerId now resolved =>
    cases resolved
    · rfl
    · exact hcomplete _ _ _

end Action

section BookingTerms

variable {b b' : Booking} (h : b.terms = b'.terms)
include h

theorem itemId_of_terms : b.itemId = b'.itemId := by
  simpa [Booking.terms] using congrArg Booking.itemId h

theorem borrowerId_of_terms : b.borrowerId = b'.borrowerId := by
  simpa [Booking.terms] using congrArg Booking.borrowerId h

theorem clientRequestId_of_terms : b.clientRequestId = b'.clientRequestId := by
  simpa [Booking.terms] using congrArg Booking.clientRequestId h

theorem clientRequestHash_of_terms : b.clientRequestHash = b'.clientRequestHash := by
  simpa [Booking.terms] using congrArg Booking.clientRequestHash h

theorem lenderId_of_terms : b.lenderId = b'.lenderId := by
  simpa [Booking.terms] using congrArg Booking.lenderId h

theorem startDate_of_terms : b.startDate = b'.startDate := by
  simpa [Booking.terms] using congrArg Booking.startDate h

theorem endDate_of_terms : b.endDate = b'.endDate := by
  simpa [Booking.terms] using congrArg Booking.endDate h

theorem totalAmount_of_terms : b.totalAmount = b'.totalAmount := by
  simpa [Booking.terms] using congrArg Booking.totalAmount h

theorem termsSnapshot_of_terms : b.termsSnapshot = b'.termsSnapshot := by
  simpa [Booking.terms] using congrArg Booking.termsSnapshot h

theorem boundSnapshot_of_terms : b.boundSnapshot = b'.boundSnapshot := by
  show b.terms.boundSnapshot = b'.terms.boundSnapshot
  rw [h]

theorem hasParticipant_of_terms (actorId : Id) :
    b.hasParticipant actorId = b'.hasParticipant actorId := by
  show b.terms.hasParticipant actorId = b'.terms.hasParticipant actorId
  rw [h]

end BookingTerms

/-! ## Forgetting leases -/

/-- An operation without its lease and its attempt counter. -/
def DepositOperation.forget (op : DepositOperation) : DepositOperation :=
  { op with processingUntil := none, attempts := 0 }

theorem DepositOperation.eq_of_forget {op op' : DepositOperation} (h : op.forget = op'.forget) :
    op.kind = op'.kind ∧ op.amount = op'.amount ∧ op.status = op'.status ∧
      op.retryOfId = op'.retryOfId := by
  simp only [forget, mk.injEq] at h
  exact ⟨h.1, h.2.1, h.2.2.1, h.2.2.2.2.2.1⟩

namespace Deal

variable {d d' : Deal}

def forget (d : Deal) : Deal :=
  { d with operations := d.operations.map DepositOperation.forget }

/-- An update that does not look at leases. -/
def Blind (f : Deal → Deal) : Prop :=
  ∀ d d', d.forget = d'.forget → (f d).forget = (f d').forget

theorem forget_claim (o : Id) (processingUntil : Time) : (d.claim o processingUntil).forget =
    d.forget := by
  simp only [forget, claim, updateOperation]
  rw [Table.map_modify_of_eq]
  intro op
  rfl

section Forget

variable (h : d.forget = d'.forget)
include h

theorem booking_of_forget : d.booking = d'.booking := by
  simpa [forget] using congrArg Deal.booking h

theorem deposit_of_forget : d.deposit = d'.deposit := by
  simpa [forget] using congrArg Deal.deposit h

theorem dispute_of_forget : d.dispute = d'.dispute := by
  simpa [forget] using congrArg Deal.dispute h

theorem payment_of_forget : d.payment = d'.payment := by
  simpa [forget] using congrArg Deal.payment h

theorem handoverAct_of_forget : d.handoverAct = d'.handoverAct := by
  simpa [forget] using congrArg Deal.handoverAct h

theorem returnAct_of_forget : d.returnAct = d'.returnAct := by
  simpa [forget] using congrArg Deal.returnAct h

theorem outbox_of_forget : d.outbox = d'.outbox := by
  simpa [forget] using congrArg Deal.outbox h

theorem act_of_forget (stage : BookingActStage) : d.act stage = d'.act stage := by
  cases stage
  · exact handoverAct_of_forget h
  · exact returnAct_of_forget h

/-- The operations agree row by row, but for the leases. -/
theorem operations_of_forget (o : Id) :
    (d.operations.get o).map DepositOperation.forget =
      (d'.operations.get o).map DepositOperation.forget :=
  Table.get_of_map_eq (congrArg Deal.operations h) o

/-- A property of operations that does not look at leases. -/
theorem any_of_forget {p : Id → DepositOperation → Bool} (hp : ∀ o op, p o op = p o op.forget) :
    d.operations.any p = d'.operations.any p := by
  have hops : d.operations.map DepositOperation.forget =
      d'.operations.map DepositOperation.forget := congrArg Deal.operations h
  have hany : ∀ t : Table Id DepositOperation,
      t.any p = (t.map DepositOperation.forget).any p := by
    intro t
    rw [Table.any_map]
    congr 1
    funext o op
    exact hp o op
  rw [hany, hany d'.operations, hops]

theorem hasOperationKey_of_forget (key : OperationKey) :
    d.hasOperationKey key = d'.hasOperationKey key :=
  any_of_forget h fun _ _ => rfl

theorem isSome_of_forget (o : Id) :
    (d.operations.get o).isSome = (d'.operations.get o).isSome := by
  have ho := congrArg Option.isSome (operations_of_forget h o)
  simpa using ho

end Forget

end Deal

end Sosedi
