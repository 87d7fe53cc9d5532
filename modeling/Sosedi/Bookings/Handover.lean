import Sosedi.Scripts

/-!
# The handover and the return of a booking

The lender makes the handover act and the borrower confirms it, and the other way round for
the return.

Proved here: every move keeps the acts of a deal those of both parties
(`DealMove.twoParty_apply`), every step keeps the evidence behind them (`ActsEvidenced.step`),
and so both hold in every reachable state (`two_party_handover`).
-/

namespace Sosedi

open Transactions BookingActService

variable {d : Deal} {k : Id} {w : World} {m : DealMove} {stage : BookingActStage}
  {a : BookingAct}

/-- The stages that a booking of this status has behind it. -/
def BookingActStage.passed : BookingActStage → BookingStatus → Bool
  | .handover, .active | .handover, .returned | .handover, .completed => true
  | .return, .returned | .return, .completed => true
  | _, _ => false

/-- The party that does not make the act. -/
def BookingActStage.confirmer : BookingActStage → Booking → Id
  | .handover, booking => booking.borrowerId
  | .return, booking => booking.lenderId

/-- One party makes each act, and the other one has confirmed those of the stages that are
behind the booking. -/
structure Deal.TwoParty (d : Deal) : Prop where
  author : ∀ stage act, d.act stage = some act → act.authorId = expectedActor stage d.booking
  confirmed : ∀ stage, stage.passed d.booking.status = true →
    ∃ act confirmedAt, d.act stage = some act ∧
      act.confirmedById = some (stage.confirmer d.booking) ∧ act.confirmedAt = some confirmedAt

/-! ## Moves -/

namespace DealMove

/-- The move makes or confirms an act. -/
def isAct : DealMove → Bool
  | createAct .. | act (.confirmAct ..) => true
  | _ => false

theorem act_apply (hm : m.isAct = false) (d : Deal) (stage : BookingActStage) :
    (m.apply k d).act stage = d.act stage := by
  cases m with
  | createAct => cases hm
  | act action =>
    cases action with
    | confirmAct => cases hm
    | _ => cases stage <;> simp [apply, Action.apply, Deal.act, Deal.cancelPendingDeposit]
  | idle | claim => rfl
  | confirm | compete | blocked =>
    cases stage <;> simp [apply, Deal.act, Deal.confirm, Deal.compete, Deal.blocked,
      Deal.cancelIfPending, Deal.cancelPendingDeposit]

/-- A completion passes no stage. -/
private theorem passed_completeAfterReturn {d' : Deal} {trigger : BookingCompletionTrigger}
    {now : Time} (hs : d'.booking.status = d.booking.status)
    (h : stage.passed (d'.completeAfterReturn trigger now).booking.status = true) :
    stage.passed d.booking.status = true := by
  rcases d'.status_completeAfterReturn trigger now with he | ⟨hreturned, he⟩
  · rwa [he, hs] at h
  · rw [he] at h
    rw [← hs, hreturned]
    cases stage <;> rfl

theorem passed_apply (hm : m.isAct = false)
    (h : stage.passed (m.apply k d).booking.status = true) :
    stage.passed d.booking.status = true := by
  have hcancelled : ∀ stage : BookingActStage, stage.passed .cancelled = false := by
    rintro (_ | _) <;> rfl
  have hconfirmed : ∀ stage : BookingActStage, stage.passed .confirmed = false := by
    rintro (_ | _) <;> rfl
  cases m with
  | createAct => cases hm
  | act action =>
    cases action with
    | confirmAct => cases hm
    | cancel | expire =>
      simp [apply, Action.apply, Deal.cancelPendingDeposit, hcancelled] at h
    | pay => simpa [apply, Action.apply] using h
    | openDispute | retry | postpone | decline => exact h
    | complete => exact passed_completeAfterReturn (by rfl) h
    | resolve => exact passed_completeAfterReturn (by simp) h
    | autoRefund => exact passed_completeAfterReturn (by rfl) h
    | settle o kind amount providerId now resolved =>
      cases resolved with
      | false => exact h
      | true => exact passed_completeAfterReturn (by rfl) h
  | idle | claim => exact h
  | confirm => simp [apply, Deal.confirm, hconfirmed] at h
  | compete | blocked =>
    cases hp : d.booking.status == .pending with
    | false =>
      simpa [apply, Deal.compete, Deal.blocked, Deal.cancelIfPending, Deal.cancelPendingDeposit,
        hp] using h
    | true =>
      simp [apply, Deal.compete, Deal.blocked, Deal.cancelIfPending, Deal.cancelPendingDeposit,
        hp, hcancelled] at h

/-- Which act a move makes or confirms. -/
theorem act_inv (h : (m.apply k d).act stage = some a) :
    d.act stage = some a ∨ m = createAct stage a ∨
      ∃ old actorId confirmedAt ends completes, d.act stage = some old ∧
        m = .act (.confirmAct stage actorId confirmedAt ends completes) ∧
        a = { old with confirmedById := some actorId, confirmedAt := some confirmedAt } := by
  cases hm : m.isAct with
  | false => exact Or.inl (by rwa [act_apply hm] at h)
  | true =>
    cases m with
    | createAct stage' a' =>
      cases stage <;> cases stage' <;>
        simp [apply, Deal.act, Deal.setAct] at h ⊢ <;> simp [h]
    | act action =>
      cases action with
      | confirmAct stage' actorId confirmedAt ends completes =>
        by_cases hstage : stage = stage'
        · subst hstage
          have hmap : (d.act stage).map ({ · with
              confirmedById := some actorId, confirmedAt := some confirmedAt }) = some a := by
            cases stage <;> simpa [apply, Action.apply, Deal.act, Deal.setAct] using h
          obtain ⟨old, hold, rfl⟩ := Option.map_eq_some_iff.mp hmap
          exact Or.inr (Or.inr ⟨old, actorId, confirmedAt, ends, completes, hold, rfl, rfl⟩)
        · refine Or.inl ?_
          cases stage <;> cases stage' <;>
            simp [apply, Action.apply, Deal.act, Deal.setAct] at h hstage ⊢ <;> exact h
      | _ => cases hm
    | _ => cases hm

/-- An act stays, by the same author. -/
theorem act_of_act (hg : m.guard k d w) (h : d.act stage = some a) :
    ∃ a', (m.apply k d).act stage = some a' ∧ a'.authorId = a.authorId := by
  cases hm : m.isAct with
  | false => exact ⟨a, by rw [act_apply hm, h], rfl⟩
  | true =>
    cases m with
    | createAct stage' a' =>
      have hnone : d.act stage' = none := hg.1
      cases stage <;> cases stage' <;>
        simp_all [apply, Deal.act, Deal.setAct]
    | act action =>
      cases action with
      | confirmAct stage' actorId confirmedAt ends completes =>
        cases stage <;> cases stage' <;>
          simp_all [apply, Action.apply, Deal.act, Deal.setAct]
      | _ => cases hm
    | _ => cases hm

end DealMove

theorem expectedActor_of_terms {b b' : Booking} (h : b'.terms = b.terms)
    (stage : BookingActStage) : expectedActor stage b' = expectedActor stage b := by
  cases stage
  · exact lenderId_of_terms h
  · exact borrowerId_of_terms h

theorem confirmer_of_terms {b b' : Booking} (h : b'.terms = b.terms)
    (stage : BookingActStage) : stage.confirmer b' = stage.confirmer b := by
  cases stage
  · exact borrowerId_of_terms h
  · exact lenderId_of_terms h

/-- The participant that is not the author. -/
theorem confirmer_of_participant {booking : Booking} {actorId : Id}
    (h : booking.hasParticipant actorId = true) (hne : expectedActor stage booking ≠ actorId) :
    actorId = stage.confirmer booking := by
  simp only [Booking.hasParticipant, Bool.or_eq_true, beq_iff_eq] at h
  cases stage with
  | handover =>
    rcases h with h | h
    · exact h.symm
    · exact absurd h hne
  | «return» =>
    rcases h with h | h
    · exact absurd h hne
    · exact h.symm

/-- **Every move keeps the acts those of both parties.** -/
theorem DealMove.twoParty_apply (h : d.TwoParty) (hg : m.guard k d w) :
    (m.apply k d).TwoParty := by
  have hterms := m.terms_apply k d
  refine ⟨fun stage act hact => ?_, fun stage hpassed => ?_⟩
  · rw [expectedActor_of_terms hterms]
    rcases DealMove.act_inv hact with hold | rfl | ⟨old, actorId, c, ends, b, hold, rfl, rfl⟩
    · exact h.author stage act hold
    · exact hg.2.2.1
    · exact h.author stage old hold
  · rw [confirmer_of_terms hterms]
    cases hm : m.isAct with
    | false =>
      rw [DealMove.act_apply hm]
      exact h.confirmed stage (DealMove.passed_apply hm hpassed)
    | true =>
      cases m with
      | createAct stage' a =>
        -- the act of a stage that is still to be passed
        obtain ⟨hnone, hstatus, -⟩ := hg
        rw [DealMove.apply, Deal.booking_setAct] at hpassed
        obtain ⟨act, c, hact, hconfirmed⟩ := h.confirmed stage hpassed
        refine ⟨act, c, ?_, hconfirmed⟩
        rw [hstatus] at hpassed
        cases stage <;> cases stage' <;> first | exact hact | cases hpassed
      | act action =>
        cases action with
        | confirmAct stage' actorId c ends completes =>
          obtain ⟨⟨act, hact, -, hauthor⟩, hparticipant, hstatus, -, -, -, hcompletes, -⟩ := hg
          by_cases hstage : stage = stage'
          · subst hstage
            refine ⟨{ act with confirmedById := some actorId, confirmedAt := some c }, c, ?_, ?_,
              rfl⟩
            · cases stage <;> simp only [Deal.act] at hact <;>
                simp [DealMove.apply, Action.apply, Deal.act, Deal.setAct, hact]
            · rw [h.author stage act hact] at hauthor
              exact congrArg some (confirmer_of_participant hparticipant hauthor)
          · have hbefore : stage.passed d.booking.status = true := by
              rw [hstatus]
              cases stage <;> cases stage'
              · exact absurd rfl hstage
              · rfl
              · -- a handover does not pass the return
                obtain rfl : completes = false := hcompletes
                simp [DealMove.apply, Action.apply, nextStatus,
                  BookingActStage.passed] at hpassed
              · exact absurd rfl hstage
            obtain ⟨act', c', hact', hconfirmed⟩ := h.confirmed stage hbefore
            refine ⟨act', c', ?_, hconfirmed⟩
            cases stage <;> cases stage' <;> simp only [Deal.act] at hact' <;>
              simp [DealMove.apply, Action.apply, Deal.act, Deal.setAct, hact'] at hstage ⊢
        | _ => cases hm
      | _ => cases hm

/-! ## Evidence -/

section Evidence

variable {sha256 : Bytes → String} {ok : Event → Store → Prop} {s₀ s : State Sys} {ev : Event}
  {K : List LockKey} {σ b c : Store} {i j : Id} {e e' : Evidence}

/-- The intent of a row of booking evidence is one that the author of the act has used up. -/
def IntentOf (t : UploadTables) (e : Evidence) (a : BookingAct) : Prop :=
  ∃ row, t.intents.get e.uploadIntentId = some row ∧ row.confirmedAt.isSome ∧
    row.purpose = .bookingEvidence ∧ row.actorId = a.authorId ∧ row.entityId = e.ownerId

/-- Every act has one row of evidence, every row belongs to an act and has an intent of its
own. -/
structure ActsEvidenced (σ : Store) : Prop where
  row : ∀ k d stage a, σ.1.deals.get k = some d → d.act stage = some a →
    ∃ i e, σ.1.uploads.bookingEvidence.get i = some e ∧ e.ownerId = k ∧ e.stage = some stage
  act : ∀ i e, σ.1.uploads.bookingEvidence.get i = some e → ∃ d stage a,
    σ.1.deals.get e.ownerId = some d ∧ e.stage = some stage ∧ d.act stage = some a ∧
      IntentOf σ.1.uploads e a
  single : ∀ i j e e', σ.1.uploads.bookingEvidence.get i = some e →
    σ.1.uploads.bookingEvidence.get j = some e' → e.ownerId = e'.ownerId → e.stage = e'.stage →
      i = j
  intent : ∀ i j e e', σ.1.uploads.bookingEvidence.get i = some e →
    σ.1.uploads.bookingEvidence.get j = some e' → e.uploadIntentId = e'.uploadIntentId → i = j

theorem bookingEvidence_of_get (h : UploadStep sha256 ev K b c)
    (he : b.1.uploads.bookingEvidence.get i = some e) :
    c.1.uploads.bookingEvidence.get i = some e := by
  rw [h.uploads]
  cases ev with
  | createAct => exact Table.get_insert_of_get he
  | upload u => cases u <;> exact he
  | _ => exact he

/-- The intent of a row of evidence stays. -/
theorem IntentOf.step {a a' : BookingAct} (h : UploadStep sha256 ev K b c)
    (he : b.1.uploads.bookingEvidence.get i = some e) (ha : a'.authorId = a.authorId)
    (hi : IntentOf b.1.uploads e a) : IntentOf c.1.uploads e a' := by
  obtain ⟨row, hrow, hconfirmed, hpurpose, hactor, hentity⟩ := hi
  refine ⟨row, h.get_confirmed hrow hconfirmed ?_, hconfirmed, hpurpose, hactor.trans ha.symm,
    hentity⟩
  rintro rfl
  exact h.guard (Or.inl ⟨i, e, he, rfl⟩)

/-- The row of evidence that comes with an act. -/
theorem IntentOf.created {id evidenceId : Id} {act : BookingAct} {written : Bytes} {at' : Time}
    (h : UploadStep sha256 (.createAct id stage act evidenceId e written at') K b c) :
    e.ownerId = id ∧ e.stage = some stage ∧ IntentOf c.1.uploads e act := by
  obtain ⟨⟨⟨row, hrow, -, hpurpose, -⟩, -⟩, hact, -⟩ := h.guard
  obtain ⟨row', hrow', hactor, hentity⟩ := hact.intent
  rw [hrow, Option.some.injEq] at hrow'
  subst hrow'
  refine ⟨hact.owner, hact.stage, { row with confirmedAt := some at' }, ?_, rfl, hpurpose, hactor,
    hentity.trans hact.owner.symm⟩
  rw [h.uploads]
  simp [Event.applyUploads, UploadTables.consume, Table.get_mapRows, hrow]

/-- Only the creation of an act makes it. -/
theorem Event.createAct_of_move (h : ev.move k = .createAct stage a) :
    ∃ evidenceId evidence written at', ev = .createAct k stage a evidenceId evidence written at' := by
  cases ev with
  | createAct id stage' a' evidenceId evidence written at' =>
    simp only [move] at h
    split at h
    · rename_i hid
      subst hid
      cases h
      exact ⟨evidenceId, evidence, written, at', rfl⟩
    · cases h
  | confirm id l competitors =>
    simp only [move] at h
    split at h
    · cases h
    · split at h <;> cases h
  | block | deal | claim => simp only [move] at h; split at h <;> cases h
  | _ => cases h

/-- A new row of evidence comes with an act that was not there. -/
theorem Guar.new_evidence {id evidenceId : Id} {act : BookingAct} {written : Bytes} {at' : Time}
    {d : Deal} (hg : Guar sha256 (.createAct id stage act evidenceId e written at') K b c)
    (hd : b.1.deals.get id = some d) : d.act stage = none := by
  obtain ⟨-, hguard, -⟩ := hg.get_of_get hd
  simp only [Event.move, if_true] at hguard
  exact hguard.1

theorem ActsEvidenced.step (h : ActsEvidenced b) (hv : UploadInv sha256 b)
    (hg : Guar sha256 ev K b c) : ActsEvidenced c := by
  have hu := hg.uploads
  refine ⟨?row, ?act, ?single, ?intent⟩
  case row =>
    intro k d' stage a ha hact
    rcases hg.get_inv ha with ⟨d, hd, rfl, hguard, -⟩ | ⟨-, read, -, hnew⟩
    · have hold : ∀ a', d.act stage = some a' → ∃ i e,
          c.1.uploads.bookingEvidence.get i = some e ∧ e.ownerId = k ∧ e.stage = some stage := by
        intro a' ha'
        obtain ⟨i, e, he, hrow⟩ := h.row k d stage a' hd ha'
        exact ⟨i, e, bookingEvidence_of_get hu he, hrow⟩
      rcases DealMove.act_inv hact with ha' | hmove | ⟨a', -, -, -, -, ha', -⟩
      · exact hold a ha'
      · obtain ⟨evidenceId, evidence, written, at', rfl⟩ := Event.createAct_of_move hmove
        obtain ⟨howner, hstage, -⟩ := IntentOf.created hu
        refine ⟨evidenceId, evidence, ?_, howner, hstage⟩
        rw [hu.uploads]
        exact Table.get_insert_self _ hu.guard.2.1.isNew
      · exact hold a' ha'
    · cases stage
      · rw [Deal.act, hnew.unpaid.1.handoverAct] at hact
        cases hact
      · rw [Deal.act, hnew.unpaid.1.returnAct] at hact
        cases hact
  case act =>
    intro i e he
    have he' := he
    rw [hu.uploads] at he'
    rcases Event.get_bookingEvidence_inv he' with hold | ⟨id, stage, act, written, at', rfl⟩
    · obtain ⟨d, stage, a, hd, hstage, ha, hintent⟩ := h.act i e hold
      obtain ⟨hd', hguard, -⟩ := hg.get_of_get hd
      obtain ⟨a', ha', hauthor⟩ := DealMove.act_of_act hguard ha
      exact ⟨_, stage, a', hd', hstage, ha', hintent.step hu hold hauthor⟩
    · obtain ⟨howner, hstage, hintent⟩ := IntentOf.created hu
      obtain ⟨d, hd⟩ := hu.guard.2.2
      obtain ⟨hd', -⟩ := hg.get_of_get hd
      simp only [Event.move, if_true] at hd'
      refine ⟨_, stage, act, howner.symm ▸ hd', hstage, ?_, hintent⟩
      cases stage <;> rfl
  case single =>
    intro i j e e' he he' howner hstage
    rw [hu.uploads] at he he'
    have hfirst : ∀ {i j e e' id stage act written at'},
        ev = .createAct id stage act i e written at' →
        b.1.uploads.bookingEvidence.get j = some e' → e.ownerId = e'.ownerId →
        e.stage ≠ e'.stage := by
      rintro i j e e' id stage act written at' rfl hold howner hstage
      obtain ⟨d, stage', a, hd, hstage', ha, -⟩ := h.act j e' hold
      rw [← howner, hu.guard.2.1.owner] at hd
      rw [← hstage, hu.guard.2.1.stage, Option.some.injEq] at hstage'
      subst hstage'
      rw [hg.new_evidence hd] at ha
      cases ha
    rcases Event.get_bookingEvidence_inv he with hold | ⟨_, _, _, _, _, hev⟩
    · rcases Event.get_bookingEvidence_inv he' with hold' | ⟨_, _, _, _, _, hev'⟩
      · exact h.single i j e e' hold hold' howner hstage
      · exact absurd hstage.symm (hfirst hev' hold howner.symm)
    · rcases Event.get_bookingEvidence_inv he' with hold' | ⟨_, _, _, _, _, hev'⟩
      · exact absurd hstage (hfirst hev hold' howner)
      · rw [hev] at hev'
        cases hev'
        rfl
  case intent =>
    intro i j e e' he he' hid
    rw [hu.uploads] at he he'
    -- the intent of a new row was open
    have hfirst : ∀ {i j e e' id stage act written at'},
        ev = .createAct id stage act i e written at' →
        b.1.uploads.bookingEvidence.get j = some e' → e.uploadIntentId ≠ e'.uploadIntentId := by
      rintro i j e e' id stage act written at' rfl hold hid
      obtain ⟨row, hrow, hnone, -⟩ := hu.guard.1.1
      obtain ⟨row', hrow', hconfirmed, -⟩ := (hv.bookingEvidence j e' hold).1
      rw [← hid, hrow, Option.some.injEq] at hrow'
      rw [← hrow', hnone] at hconfirmed
      cases hconfirmed
    rcases Event.get_bookingEvidence_inv he with hold | ⟨_, _, _, _, _, hev⟩
    · rcases Event.get_bookingEvidence_inv he' with hold' | ⟨_, _, _, _, _, hev'⟩
      · exact h.intent i j e e' hold hold' hid
      · exact absurd hid.symm (hfirst hev' hold)
    · rcases Event.get_bookingEvidence_inv he' with hold' | ⟨_, _, _, _, _, hev'⟩
      · exact absurd hid (hfirst hev hold')
      · rw [hev] at hev'
        cases hev'
        rfl

/-! ## Runs -/

theorem DraftedFrom.twoParty {read : BookableItem} (h : DraftedFrom read d) : d.TwoParty := by
  obtain ⟨hunpaid, hpending⟩ := h.unpaid
  refine ⟨fun stage a ha => ?_, fun stage hpassed => ?_⟩
  · cases stage
    · rw [Deal.act, hunpaid.handoverAct] at ha
      cases ha
    · rw [Deal.act, hunpaid.returnAct] at ha
      cases ha
  · rw [hpending] at hpassed
    cases stage <;> cases hpassed

theorem Runs.twoParty (h : Runs sha256 ok s₀ s) :
    ∀ k d, s.db.deals.get k = some d → d.TwoParty := by
  refine h.invariant (P := fun σ => ∀ k d, σ.1.deals.get k = some d → d.TwoParty) ?_ ?_
  · intro σ hi
    simp [hi.deals]
  · intro ev K a b _ _ hg ha k d' hd'
    rcases hg.get_inv hd' with ⟨d, hd, rfl, hguard, -⟩ | ⟨-, read, -, hnew⟩
    · exact DealMove.twoParty_apply (ha k d hd) hguard
    · exact hnew.twoParty

theorem Runs.actsEvidenced (h : Runs sha256 ok s₀ s) : ActsEvidenced s.store := by
  refine h.invariant (P := ActsEvidenced) (fun σ hi => ?_) fun ev K a b hinv _ hg ha =>
    ha.step hinv.uploads hg
  constructor
  · simp [hi.deals]
  · simp [hi.bookingEvidence]
  · simp [hi.bookingEvidence]
  · simp [hi.bookingEvidence]

/-- The row `e` is the only evidence of the act, and nothing else has its intent. -/
structure BackedBy (t : UploadTables) (k : Id) (stage : BookingActStage) (a : BookingAct)
    (i : Id) (e : Evidence) : Prop where
  row : t.bookingEvidence.get i = some e
  owner : e.ownerId = k
  ofStage : e.stage = some stage
  only : ∀ j e', t.bookingEvidence.get j = some e' → e'.ownerId = k → e'.stage = some stage → j = i
  intent : IntentOf t e a
  acts : ∀ j e', t.bookingEvidence.get j = some e' → e'.uploadIntentId = e.uploadIntentId → j = i
  disputes : ∀ j e', t.disputeEvidence.get j = some e' → e'.uploadIntentId ≠ e.uploadIntentId
  support : ∀ j e', t.supportAttachments.get j = some e' → e'.uploadIntentId ≠ e.uploadIntentId

/-- The intents of different purposes differ. -/
theorem EvidenceRow.ne {t : UploadTables} {purpose purpose' : UploadPurpose}
    (h : EvidenceRow purpose t e) (h' : EvidenceRow purpose' t e') (hne : purpose' ≠ purpose) :
    e'.uploadIntentId ≠ e.uploadIntentId := by
  obtain ⟨row, hrow, -, hpurpose, -⟩ := h
  obtain ⟨row', hrow', -, hpurpose', -⟩ := h'
  intro he
  rw [he, hrow, Option.some.injEq] at hrow'
  subst hrow'
  exact hne (hpurpose'.symm.trans hpurpose)

/-- **Both parties make every handover and every return**, and each act has evidence of its
own. -/
theorem two_party_handover (h : Runs sha256 ok s₀ s) (hd : s.db.deals.get k = some d) :
    d.TwoParty ∧ ∀ stage a, d.act stage = some a →
      ∃ i e, BackedBy s.db.uploads k stage a i e := by
  refine ⟨h.twoParty k d hd, fun stage a ha => ?_⟩
  have hacts := h.actsEvidenced
  have hinv := h.inv.uploads
  obtain ⟨i, e, he, howner, hstage⟩ := hacts.row k d stage a hd ha
  have hrow := (hinv.bookingEvidence i e he).1
  refine ⟨i, e, he, howner, hstage, ?_, ?_, ?_, ?_, ?_⟩
  · intro j e' he' howner' hstage'
    exact hacts.single j i e' e he' he (howner'.trans howner.symm) (hstage'.trans hstage.symm)
  · obtain ⟨d', stage', a', hd', hstage', ha', hintent⟩ := hacts.act i e he
    rw [howner, show s.store.1.deals.get k = some d from hd, Option.some.injEq] at hd'
    rw [hstage, Option.some.injEq] at hstage'
    subst hd' hstage'
    rw [ha, Option.some.injEq] at ha'
    exact ha' ▸ hintent
  · exact fun j e' he' hid => hacts.intent j i e' e he' he hid
  · exact fun j e' he' => hrow.ne (hinv.disputeEvidence j e' he').1 (by decide)
  · exact fun j e' he' => hrow.ne (hinv.supportAttachments j e' he') (by decide)

end Evidence

namespace Scenario

theorem two_party_handover_returned : ∃ d,
    (play anyEvent hash state returned).db.deals.get 10 = some d ∧ d.booking.status = .returned ∧
      d.TwoParty ∧ ∀ stage a, d.act stage = some a →
        ∃ i e, BackedBy (play anyEvent hash state returned).db.uploads 10 stage a i e := by
  have hdeal : ((play anyEvent hash state returned).db.deals.get 10).map (·.booking.status) =
      some .returned := by decide +kernel
  obtain ⟨d, hd, hs⟩ := Option.map_eq_some_iff.mp hdeal
  exact ⟨d, hd, hs, two_party_handover ((runs anyEvent).play returned) hd⟩

end Scenario

end Sosedi
