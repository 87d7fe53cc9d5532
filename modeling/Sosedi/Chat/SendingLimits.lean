import Sosedi.Chat.ChatRuns
import Sosedi.Transactions.Behaviours

/-!
# Limits of sending, and repetitions

Proved here:

* `replay_obeys`, `conflict_obeys`: what a call does that finds the message of its client's id;
* `chat_limits`: in every state of a run every window keeps the limits, a client's id has at most
  one message, a message has exactly one event, and repetitions return it or fail.
-/

namespace Sosedi

open Transactions RateWindows BookingMessageService

/-! ## Repetitions -/

/-- The committed tables with a message of an author and a client's id. -/
structure MessageStored (actorId : Id) (clientMessageId : String) (id : Id) (message : ChatMessage)
    (parties : BookingParties) (σ : ChatStore) : Prop where
  inv : ChatInv σ.1
  row : σ.1.messages.get id = some message
  author : message.authorId = some actorId
  client : message.clientMessageId = some clientMessageId
  party : ByParty σ.1 message actorId parties

section Repetition

variable {actorId : Id} {clientMessageId : String} {id : Id} {message : ChatMessage}
  {parties : BookingParties} {σ : ChatStore}

theorem MessageStored.findMessage (h : MessageStored actorId clientMessageId id message parties σ) :
    findMessage actorId clientMessageId σ.1 = some (id, message) := by
  cases hfound : BookingMessageService.findMessage actorId clientMessageId σ.1 with
  | none => exact absurd h.client (findMessage_eq_none hfound h.row h.author)
  | some row =>
    have hrow := Table.get_eq_some.mpr (List.mem_of_find?_eq_some hfound)
    have hkeys := List.find?_some hfound
    simp only [Bool.and_eq_true, beq_iff_eq] at hkeys
    have hid : row.1 = id := h.inv.once _ _ _ _ hrow h.row (by simp [hkeys.1])
      (hkeys.1.trans h.author.symm) (hkeys.2.trans h.client.symm)
    have hmessage : row.2 = message := Option.some.inj (hrow.symm.trans (hid.symm ▸ h.row))
    rw [← hid, ← hmessage]

variable {now : Time} {createdAt : Timestamp} {newId newEventId : Id}
  {dto : CreateBookingMessageDto}

/-- A repetition returns the stored message and writes nothing. -/
theorem replay_obeys (hσ : MessageStored actorId dto.clientMessageId id message parties σ)
    (hbody : trim dto.body = message.body) :
    (send actorId message.bookingId dto now createdAt newId newEventId).Obeys
      (MessageStored actorId dto.clientMessageId id message parties)
      (fun (ev : ChatEvent) ω => ev = .quiet ∧ ω = [])
      (fun result => result = .ok (toResponse actorId parties id message)) [] := by
  have hvalid : ensure (!isInvalidBody (trim dto.body)) invalidBody = .ok () := by
    rw [hbody, hσ.party.body]
    rfl
  have hsame : ensure (!(message.bookingId != message.bookingId || message.body != trim dto.body))
      idempotencyKeyReused = .ok () := by
    simp [hbody, ensure]
  simp only [send, hvalid, lift, acquire, select, Prog.bind_eq, Prog.bind, Prog.Obeys, view_nil]
  intro σ₁ h₁
  obtain ⟨booking, hrequire, rfl⟩ := requireParticipant_eq h₁.party.booking h₁.party.actor
  simp only [hrequire, Prog.bind, Prog.Obeys, view_nil]
  intro σ₂ h₂
  simp only [h₂.findMessage, hsame, commit, Prog.bind, Prog.Obeys]
  exact ⟨⟨trivial, trivial⟩, rfl⟩

/-- A call with another booking or another text fails and writes nothing. -/
theorem conflict_obeys {bookingId : Id}
    (hdiffers : ¬ (bookingId = message.bookingId ∧ trim dto.body = message.body)) :
    (send actorId bookingId dto now createdAt newId newEventId).Obeys
      (MessageStored actorId dto.clientMessageId id message parties) (fun _ _ => False)
      (fun result => ∃ e, result = .error e) [] := by
  have hreused : ensure (!(message.bookingId != bookingId || message.body != trim dto.body))
      idempotencyKeyReused = .error idempotencyKeyReused := by
    have hne : (message.bookingId != bookingId || message.body != trim dto.body) = true := by
      simp only [Bool.or_eq_true, bne_iff_ne, ne_eq]
      by_contra hsame
      rw [not_or, not_not, not_not] at hsame
      exact hdiffers ⟨hsame.1.symm, hsame.2.symm⟩
    rw [hne]
    rfl
  rw [send, Prog.bind_eq]
  refine Prog.Obeys.lift_bind (fun _ _ => ?_) fun e _ => ⟨e, rfl⟩
  simp only [acquire, select, Prog.bind_eq, Prog.bind, Prog.Obeys, view_nil]
  intro σ₁ _
  refine Prog.Obeys.lift_bind (fun booking _ => ?_) fun e _ => ⟨e, rfl⟩
  simp only [Prog.Obeys, view_nil]
  intro σ₂ h₂
  simp only [h₂.findMessage, hreused, lift, Prog.bind, Prog.Obeys]
  exact ⟨_, rfl⟩

end Repetition

/-! ## Every state of a run -/

namespace ChatRuns

variable {s₀ s s' : State ChatSys}

/-- A stored message stays stored. -/
theorem stored (h : ChatRuns s₀ s) {actorId id : Id} {message : ChatMessage}
    (hget : s.db.messages.get id = some message) (hauthor : message.authorId = some actorId) :
    ∃ clientMessageId parties, message.clientMessageId = some clientMessageId ∧
      ∀ s', Reaches ChatCalls (fun _ _ => True) s s' →
        MessageStored actorId clientMessageId id message parties s'.store := by
  obtain ⟨clientMessageId, hclient⟩ := Option.isSome_iff_exists.mp
    (h.inv.client id message hget (by simp [hauthor]))
  obtain ⟨parties, hparty⟩ := h.inv.party id message actorId hget hauthor
  refine ⟨clientMessageId, parties, hclient, fun s' hr => ⟨(h.trans hr).inv, ?_, hauthor, hclient,
    hparty.body, ?_, hparty.actor⟩⟩
  · exact h.later hr (persists_message id message) hget
  · exact h.later hr (persists_parties message.bookingId parties) hparty.booking

/-- The event of a message is the only one with its key. -/
theorem event_unique (h : ChatRuns s₀ s) {id : Id} {message : ChatMessage}
    (hget : s.db.messages.get id = some message) (hauthor : message.authorId.isSome) :
    ∃! row, row ∈ s.db.outbox.rows ∧
      row.2.deduplicationKey = messageEventKey message.bookingId id := by
  obtain ⟨eventId, event, hevent, hkey⟩ := h.inv.event id message hget hauthor
  refine ⟨(eventId, event), ⟨Table.get_eq_some.mp hevent, hkey⟩, ?_⟩
  rintro ⟨otherId, other⟩ ⟨hother, hotherKey⟩
  have hrow := Table.get_eq_some.mpr hother
  obtain rfl := h.inv.keyOnce otherId eventId other event hrow hevent (hotherKey.trans hkey.symm)
  rw [Option.some.inj (hrow.symm.trans hevent)]

/-- **Limits and repetitions.**  The windows are closed; `MessageStored` holds in all later states,
so it describes all that a later call can find.  What any call returns is the answer for the
stored message of its author and client's id. -/
theorem chat_limits (h : ChatRuns s₀ s) :
    (∀ actorId bookingId start, inWindow BOOKING_CHAT_RATE_WINDOW_MS start
      (s.db.timesOf actorId (some bookingId)) ≤ BOOKING_CHAT_MAX_PER_BOOKING_WINDOW) ∧
    (∀ actorId start, inWindow BOOKING_CHAT_RATE_WINDOW_MS start (s.db.timesOf actorId none) ≤
      BOOKING_CHAT_MAX_PER_ACTOR_WINDOW) ∧
    (∀ id id' message message', s.db.messages.get id = some message →
      s.db.messages.get id' = some message' → message.authorId.isSome →
      message.authorId = message'.authorId → message.clientMessageId = message'.clientMessageId →
      id = id') ∧
    (∀ id message, s.db.messages.get id = some message → message.authorId.isSome →
      ∃! row, row ∈ s.db.outbox.rows ∧
        row.2.deduplicationKey = messageEventKey message.bookingId id) ∧
    (∀ id message actorId, s.db.messages.get id = some message →
      message.authorId = some actorId → ∃ clientMessageId parties,
        message.clientMessageId = some clientMessageId ∧
        (∀ s', Reaches ChatCalls (fun _ _ => True) s s' →
          MessageStored actorId clientMessageId id message parties s'.store) ∧
        ∀ bookingId dto now createdAt newId newEventId, dto.clientMessageId = clientMessageId →
          (bookingId = message.bookingId ∧ trim dto.body = message.body →
            (send actorId bookingId dto now createdAt newId newEventId).Obeys
              (MessageStored actorId clientMessageId id message parties)
              (fun (ev : ChatEvent) ω => ev = .quiet ∧ ω = [])
              (fun result => result = .ok (toResponse actorId parties id message)) []) ∧
          (¬ (bookingId = message.bookingId ∧ trim dto.body = message.body) →
            (send actorId bookingId dto now createdAt newId newEventId).Obeys
              (MessageStored actorId clientMessageId id message parties) (fun _ _ => False)
              (fun result => ∃ e, result = .error e) [])) ∧
    (∀ actorId bookingId dto now (createdAt : Timestamp) newId newEventId, now ≤ createdAt.1 →
      wp (chatContract fun _ _ => True) (send actorId bookingId dto now createdAt newId newEventId)
        (fun response _ _ σ =>
          Answered actorId bookingId dto.clientMessageId (trim dto.body) response σ.1)
        [] [] s.store) := by
  refine ⟨h.inv.perBooking, h.inv.perActor, h.inv.once,
    fun _ _ hget hauthor => h.event_unique hget hauthor, ?_, ?_⟩
  · intro id message actorId hget hauthor
    obtain ⟨clientMessageId, parties, hclient, hstored⟩ := h.stored hget hauthor
    refine ⟨clientMessageId, parties, hclient, hstored, ?_⟩
    rintro bookingId dto now createdAt newId newEventId rfl
    refine ⟨?_, fun hdiffers => conflict_obeys hdiffers⟩
    rintro ⟨rfl, hbody⟩
    exact replay_obeys (hstored s .refl) hbody
  · intro actorId bookingId dto now createdAt newId newEventId hnow
    refine wp_mono _ ?_ (wp_send hnow s.store)
    intro response L ω σ hend
    exact hend.2

end ChatRuns

namespace ChatScenario

/-- A confirmed booking of the users 2 and 3. -/
def database : ChatDatabase where
  bookings := Table.empty.insert 1 ⟨2, 3⟩
  circumstances := ⟨fun _ => ⟨.confirmed, none⟩, fun _ => ⟨none, false⟩, []⟩
  messages := .empty
  outbox := .empty

def state : State ChatSys := ⟨database, (), []⟩

theorem earliest_le_seven : earliestTimestamp ≤ 7 := by decide

def hello : ChatCall := .send 2 1 ⟨"a", "hello"⟩ 5 ⟨7, earliest_le_seven⟩ 9 10

/-- The call runs to its end. -/
def script : List (Move ChatSys) := .start hello.prog :: List.replicate 40 (.run 0)

def sent : State ChatSys := attemptAll (fun (_ : ChatEvent) (_ : ChatStore) => True) state script

theorem runs_sent : ChatRuns state sent := by
  refine ⟨rfl, ⟨rfl, rfl⟩, reaches_attemptAll .refl fun p hp => ?_⟩
  have hstart : Move.start p = .start hello.prog := by
    simpa [script, List.mem_replicate] using hp
  cases hstart
  exact ⟨hello, show (5 : Int) ≤ 7 by decide, rfl⟩

theorem chat_limits_sent : (sent.db.messages.get 9).isSome ∧
    inWindow BOOKING_CHAT_RATE_WINDOW_MS 0 (sent.db.timesOf 2 none) ≤
      BOOKING_CHAT_MAX_PER_ACTOR_WINDOW :=
  ⟨by decide +kernel, runs_sent.chat_limits.2.1 2 0⟩

end ChatScenario

end Sosedi
