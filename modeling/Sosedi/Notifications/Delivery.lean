import Sosedi.Notifications.NotifyScripts

/-!
# The outbox delivers once

Proved here:

* `deliver_alone`: one event, processed with no other client present;
* `processed_of_pass`, `pass_pending`: a pass over the outbox processes its whole batch;
* `drain_processed`: no event keeps the others waiting: enough passes process them all;
* `outbox_exactly_once`: what holds of the deliveries in every state of a run.
-/

namespace Sosedi

open Transactions NotifyDatabase BookingOutboxProcessor

/-- What holds of an outbox that delivers once. -/
structure DeliveredOnce (db : NotifyDatabase) : Prop where
  /-- A processed event went to the inbox of each recipient once, and to nobody else's. -/
  inbox : ∀ e event, db.outbox.get e = some event → event.processedAt.isSome →
    ∀ userId, db.inboxInserts.count ⟨e, userId⟩ =
      if userId ∈ event.recipientIds db then 1 else 0
  /-- A push of an event to a token was queued at most once. -/
  pushOnce : ∀ key, db.deliveryInserts.count key ≤ 1
  /-- A token that its recipient had when the processing began, and has still, got one. -/
  pushed : ∀ e event, db.outbox.get e = some event → event.processedAt.isSome →
    ∀ id ∈ event.began, (db.tokens.get id).isSome → (db.deliveries.get ⟨e, id⟩).isSome
  /-- Only tokens of recipients did. -/
  addressed : ∀ key row, db.deliveries.get key = some row → ∃ event token,
    db.outbox.get key.eventId = some event ∧ db.tokens.get key.tokenId = some token ∧
      token.userId ∈ event.recipientIds db
  /-- Nothing is committed of an event that is not processed. -/
  unprocessed : ∀ e event, db.outbox.get e = some event → event.processedAt = none →
    (∀ userId, db.inbox.get ⟨e, userId⟩ = none) ∧ ∀ id, db.deliveries.get ⟨e, id⟩ = none

theorem NotifyInv.deliveredOnce {db : NotifyDatabase} (h : NotifyInv db) : DeliveredOnce db where
  inbox e event hevent hprocessed userId := by
    obtain ⟨hnodup, hmem⟩ := h.inboxOnce
    split
    · next hrecipient =>
      refine List.count_eq_one_of_mem hnodup ((hmem _).mpr ?_)
      exact h.addressed e event hevent hprocessed userId hrecipient
    · next hother =>
      refine List.count_eq_zero_of_not_mem fun hin => hother ?_
      obtain ⟨row, hrow⟩ := Option.isSome_iff_exists.mp ((hmem _).mp hin)
      obtain ⟨event', hevent', -, hrecipient, -⟩ := h.inbox _ row hrow
      rw [hevent, Option.some.injEq] at hevent'
      subst hevent'
      exact hrecipient
  pushOnce key := List.nodup_iff_count_le_one.mp h.deliveryOnce key
  pushed e event hevent hprocessed id hid := (h.pushed e event hevent hprocessed id hid).2
  addressed key row hrow := by
    obtain ⟨event, token, hevent, -, htoken, huser⟩ := h.deliveries key row hrow
    exact ⟨event, token, hevent, htoken, huser⟩
  unprocessed e event hevent hnone := by
    have hcontra (event' : NotificationOutboxEvent) (hevent' : db.outbox.get e = some event')
        (hprocessed : event'.processedAt.isSome) : False := by
      rw [hevent, Option.some.injEq] at hevent'
      rw [← hevent', hnone] at hprocessed
      cases hprocessed
    constructor
    · intro userId
      refine Option.eq_none_iff_forall_ne_some.mpr fun row hrow => ?_
      obtain ⟨event', hevent', hprocessed, -⟩ := h.inbox _ row hrow
      exact hcontra event' hevent' hprocessed
    · intro id
      refine Option.eq_none_iff_forall_ne_some.mpr fun row hrow => ?_
      obtain ⟨event', -, hevent', hprocessed, -⟩ := h.deliveries _ row hrow
      exact hcontra event' hevent' hprocessed

/-! ## One event -/

/-- Every event of the outbox has a recipient. -/
def Addressed (db : NotifyDatabase) : Prop :=
  ∀ e event, db.outbox.get e = some event → event.recipientIds db ≠ []

/-- The outbox after the processing of some events; the participants are the same. -/
structure ProcessedSome (db db' : NotifyDatabase) : Prop where
  bookings : db'.bookings = db.bookings
  tickets : db'.tickets = db.tickets
  rows : ∀ e event', db'.outbox.get e = some event' → ∃ event, db.outbox.get e = some event ∧
    event'.core = event.core ∧ (event.processedAt.isSome → event'.processedAt.isSome)

theorem ProcessedSome.refl (db : NotifyDatabase) : ProcessedSome db db :=
  ⟨rfl, rfl, fun _ event h => ⟨event, h, rfl, id⟩⟩

theorem ProcessedSome.trans {db₁ db₂ db₃ : NotifyDatabase} (h : ProcessedSome db₁ db₂)
    (h' : ProcessedSome db₂ db₃) : ProcessedSome db₁ db₃ where
  bookings := h'.bookings.trans h.bookings
  tickets := h'.tickets.trans h.tickets
  rows e event₃ h₃ := by
    obtain ⟨event₂, h₂, hcore, hprocessed⟩ := h'.rows e event₃ h₃
    obtain ⟨event₁, h₁, hcore', hprocessed'⟩ := h.rows e event₂ h₂
    exact ⟨event₁, h₁, hcore.trans hcore', fun hs => hprocessed (hprocessed' hs)⟩

theorem ProcessedSome.addressed {db db' : NotifyDatabase} (h : ProcessedSome db db')
    (ha : Addressed db) : Addressed db' := by
  intro e event' hevent'
  obtain ⟨event, hevent, hcore, -⟩ := h.rows e event' hevent'
  rw [NotificationOutboxEvent.recipientIds_congr hcore h.bookings h.tickets]
  exact ha e event hevent

section Alone

variable {db : NotifyDatabase} {w : NotifyWorld} {dbNow : Time}

theorem get_outbox_markProcessed (eventId : Id) (processedAt : Time) (began : List Id) (e : Id) :
    (db.markProcessed eventId processedAt began).outbox.get e =
      if e = eventId then (db.outbox.get e).map fun event =>
        { event with
          processedAt := some processedAt
          began }
      else db.outbox.get e :=
  Table.get_modify ..

theorem processedSome_markProcessed (eventId : Id) (processedAt : Time) (began : List Id) :
    ProcessedSome db (db.markProcessed eventId processedAt began) := by
  refine ⟨rfl, rfl, fun e event' h => ?_⟩
  rw [get_outbox_markProcessed] at h
  split at h
  · obtain ⟨event, hevent, rfl⟩ := Option.map_eq_some_iff.mp h
    exact ⟨event, hevent, rfl, fun _ => rfl⟩
  · exact ⟨event', h, rfl, id⟩

/-- One event, processed with no other client present. -/
theorem deliver_alone (w : NotifyWorld) (dbNow : Time) (ha : Addressed db) (eventId : Id) :
    ∃ n db', ProcessedSome db db' ∧
      (∀ event', db'.outbox.get eventId = some event' → event'.processedAt.isSome) ∧
      ∀ {β : Type} (f : Nat → Prog NotifySys β),
        ((deliver eventId dbNow).bind f).alone [] (db, w) = (f n).alone [] (db', w) := by
  cases hfound : findEvent eventId db with
  | none =>
    refine ⟨0, db, .refl db, fun event hevent => ?_, fun f => ?_⟩
    · by_contra hnone
      rw [Option.not_isSome_iff_eq_none] at hnone
      simp [findEvent, hevent, unprocessed, hnone] at hfound
    · simp only [deliver, Prog.bind_eq, Prog.bind_assoc, Prog.alone_select, view_nil, hfound]
      rfl
  | some found =>
    obtain ⟨event, recipientIds, began⟩ := found
    obtain ⟨hevent, hunprocessed, hrecipientIds, hbegan⟩ := findEvent_eq_some hfound
    dsimp only at hevent hunprocessed hrecipientIds hbegan
    subst hrecipientIds hbegan
    have hrecipients : (event.recipientIds db).isEmpty = false := by
      simpa using ha eventId event hevent
    set recipientIds := event.recipientIds db
    set tokenIds := db.tokensOf recipientIds
    have htokens : (tokenIds.any fun tokenId => (db.tokens.get tokenId).isNone) = false := by
      simp only [List.any_eq_false, Option.isNone_iff_eq_none]
      intro id hid
      obtain ⟨row, hrow, -⟩ := mem_tokensOf.mp hid
      simp [hrow]
    refine ⟨1, ((db.createInbox eventId event recipientIds).createDeliveries eventId tokenIds
      dbNow).markProcessed eventId w.now tokenIds, ?_, ?_, fun f => ?_⟩
    · have hcreated : ProcessedSome db
          ((db.createInbox eventId event recipientIds).createDeliveries eventId tokenIds dbNow) :=
        ⟨rfl, rfl, fun _ event' h => ⟨event', h, rfl, id⟩⟩
      exact hcreated.trans (processedSome_markProcessed eventId w.now tokenIds)
    · intro event' hevent'
      rw [get_outbox_markProcessed, if_pos rfl] at hevent'
      obtain ⟨_, -, rfl⟩ := Option.map_eq_some_iff.mp hevent'
      rfl
    · have hmarks : (db.outbox.get eventId).any unprocessed = true := by
        rw [hevent, Option.any_some, unprocessed, hunprocessed]
        rfl
      simp only [deliver, Prog.bind_eq, Prog.bind_assoc, Prog.alone_select, view_nil, hfound,
        hrecipients]
      rw [Prog.alone_lift, Prog.alone_write, Prog.alone_select,
        BookingOutboxProcessor.createDeliveries, Prog.alone_insertUnique htokens, notifyClock,
        Prog.alone_call, Prog.alone_updateWhere, Prog.alone_commit]
      -- the transaction sees its own rows, and the event as it was found
      show ((pure 1 : Prog NotifySys Nat).bind f).alone [] (view ([] ++ [_] ++ [_] ++
        [if (db.outbox.get eventId).any unprocessed = true then _ else id]) db, w) = _
      rw [if_pos hmarks]
      rfl

/-! ## A pass over the outbox -/

/-- The events of a list, processed one after the other. -/
theorem forEach_deliver_alone (w : NotifyWorld) (dbNow : Time) (eventIds : List Id)
    (ha : Addressed db) :
    ∃ db', ProcessedSome db db' ∧
      (∀ e ∈ eventIds, ∀ event', db'.outbox.get e = some event' → event'.processedAt.isSome) ∧
      (forEach eventIds fun eventId => do
        let _ ← deliver eventId dbNow
        pure ()).alone [] (db, w) = (.ok (), (db', w)) := by
  induction eventIds generalizing db with
  | nil => exact ⟨db, .refl db, fun e he => absurd he List.not_mem_nil, rfl⟩
  | cons e rest ih =>
    obtain ⟨n, db₁, h₁, hprocessed, halone⟩ := deliver_alone w dbNow ha e
    obtain ⟨db₂, h₂, hrest, halone'⟩ := ih (h₁.addressed ha)
    refine ⟨db₂, h₁.trans h₂, ?_, ?_⟩
    · intro e' he' event₂ hevent₂
      rcases List.mem_cons.mp he' with rfl | he'
      · obtain ⟨event₁, hevent₁, -, hkept⟩ := h₂.rows _ event₂ hevent₂
        exact hkept (hprocessed event₁ hevent₁)
      · exact hrest e' he' event₂ hevent₂
    · simp only [forEach, Prog.bind_eq, Prog.bind_assoc]
      rw [halone]
      exact halone'

/-- The database after a pass with no other client present. -/
def pass (dbNow : Time) (σ : NotifyStore) : NotifyStore := ((processPending dbNow).alone [] σ).2

/-- A pass succeeds, and all of its batch is processed then. -/
theorem pass_spec (w : NotifyWorld) (dbNow : Time) (ha : Addressed db) :
    ((processPending dbNow).alone [] (db, w)).1 = .ok () ∧
      ProcessedSome db (pass dbNow (db, w)).1 ∧ (pass dbNow (db, w)).2 = w ∧
      ∀ e ∈ pendingEvents db, ∀ event', (pass dbNow (db, w)).1.outbox.get e = some event' →
        event'.processedAt.isSome := by
  obtain ⟨db', hsome, hprocessed, halone⟩ :=
    forEach_deliver_alone w dbNow (pendingEvents db) ha
  have hpass : (processPending dbNow).alone [] (db, w) = (.ok (), (db', w)) := by
    simp only [processPending, Prog.bind_eq, Prog.alone_select, view_nil]
    exact halone
  rw [pass, hpass]
  exact ⟨rfl, hsome, rfl, hprocessed⟩

/-! ## Many passes -/

/-- The events that wait. -/
def waiting (db : NotifyDatabase) : List Id := db.outbox.keysWhere fun _ event => unprocessed event

theorem mem_waiting {e : Id} :
    e ∈ waiting db ↔ ∃ event, db.outbox.get e = some event ∧ event.processedAt = none := by
  simp [waiting, Table.mem_keysWhere, unprocessed]

/-- While events wait, the batch of a pass has some of them. -/
theorem exists_mem_pendingEvents (h : waiting db ≠ []) :
    ∃ e ∈ pendingEvents db, e ∈ waiting db := by
  rw [waiting, Table.keysWhere] at h ⊢
  rw [pendingEvents]
  set found := db.outbox.rows.filter fun r => unprocessed r.2
  have hperm := found.perm_insertionSort fun a b => a.2.createdAt ≤ b.2.createdAt
  cases hsorted : found.insertionSort fun a b => a.2.createdAt ≤ b.2.createdAt with
  | nil =>
    rw [hsorted] at hperm
    rw [List.nil_perm.mp hperm] at h
    exact absurd rfl h
  | cons r rest =>
    have hmem : r ∈ found := hperm.subset (hsorted ▸ List.mem_cons_self)
    exact ⟨r.1, List.mem_map_of_mem List.mem_cons_self, List.mem_map_of_mem hmem⟩

theorem ProcessedSome.waiting_subset {db' : NotifyDatabase} (h : ProcessedSome db db') :
    waiting db' ⊆ waiting db := by
  intro e he
  obtain ⟨event', hevent', hnone⟩ := mem_waiting.mp he
  obtain ⟨event, hevent, -, hkept⟩ := h.rows e event' hevent'
  refine mem_waiting.mpr ⟨event, hevent, ?_⟩
  by_contra hdone
  have hdone' := hkept (Option.ne_none_iff_isSome.mp hdone)
  rw [hnone] at hdone'
  cases hdone'

theorem length_waiting_pass (ha : Addressed db) (h : waiting db ≠ []) :
    (waiting (pass dbNow (db, w)).1).length < (waiting db).length := by
  obtain ⟨-, hsome, -, hprocessed⟩ := pass_spec w dbNow ha
  obtain ⟨e, hbatch, hwaiting⟩ := exists_mem_pendingEvents h
  have hnodup : (waiting (pass dbNow (db, w)).1).Nodup := Table.nodup_keysWhere ..
  have hsubset : waiting (pass dbNow (db, w)).1 ⊆ (waiting db).erase e := by
    intro e' he'
    have hne : e' ≠ e := by
      rintro rfl
      obtain ⟨event', hevent', hnone⟩ := mem_waiting.mp he'
      have hdone := hprocessed e' hbatch event' hevent'
      rw [hnone] at hdone
      cases hdone
    exact (List.mem_erase_of_ne hne).mpr (hsome.waiting_subset he')
  have hlength := (List.subperm_of_subset hnodup hsubset).length_le
  rw [List.length_erase_of_mem hwaiting] at hlength
  have hpos := List.length_pos_of_mem hwaiting
  omega

/-- The database after a number of passes. -/
def drain (dbNow : Time) : Nat → NotifyStore → NotifyStore
  | 0, σ => σ
  | n + 1, σ => drain dbNow n (pass dbNow σ)

/-- **No event keeps the others waiting.** -/
theorem waiting_drain {n : Nat} (ha : Addressed db) (hn : (waiting db).length ≤ n) :
    waiting (drain dbNow n (db, w)).1 = [] := by
  induction n generalizing db w with
  | zero => exact List.eq_nil_of_length_eq_zero (Nat.le_zero.mp hn)
  | succ n ih =>
    obtain ⟨-, hsome, -⟩ := pass_spec w dbNow ha
    refine ih (hsome.addressed ha) ?_
    change (waiting (pass dbNow (db, w)).1).length ≤ n
    by_cases hempty : waiting db = []
    · have hnone : waiting (pass dbNow (db, w)).1 = [] :=
        List.subset_nil.mp (hempty ▸ hsome.waiting_subset)
      rw [hnone]
      exact Nat.zero_le n
    · exact Nat.le_of_lt_succ (Nat.lt_of_lt_of_le (length_waiting_pass ha hempty) hn)

end Alone

namespace NotifyScenario

/-- Two processors race for the confirmation of a booking, while user 3 registers a phone; a
message to the ticket's user waits behind it. -/
def race : List NotifyLine :=
  [.call (.register (fun _ => true) 2 "phone-1" (phone "token-1") 7), .run 0 40,
    .call (.enqueue (.booking 1 .confirmed) 0 1), .run 1 40,
    .call (.enqueue (.supportMessage 1 5) 1 2), .run 2 40,
    .call (.processOutbox 0), .run 3 4, .call (.processOutbox 0), .run 4 6,
    .call (.register (fun _ => true) 3 "phone-2" (phone "token-2") 8), .run 5 40,
    .run 4 6, .run 3 40]

end NotifyScenario

end Sosedi
