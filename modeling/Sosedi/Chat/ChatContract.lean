import Sosedi.Chat.BookingMessageService
import Sosedi.Data.RateWindows
import Sosedi.Transactions.RelyGuarantee

/-!
# The contract of the chat

A step is `ChatEvent.applyDb` of its event, under the guard of the event.

Proved here:

* `authored_apply`: what the lock on the rate of an author protects;
* `chat_preserved`: the invariant survives every step.
-/

namespace Sosedi

open Transactions RateWindows

open BookingMessageService (countSince findMessage isInvalidBody BOOKING_CHAT_RATE_WINDOW_MS
  BOOKING_CHAT_MAX_PER_BOOKING_WINDOW BOOKING_CHAT_MAX_PER_ACTOR_WINDOW)

/-! ## Messages of an author -/

namespace ChatDatabase

variable {db : ChatDatabase} {actorId : Id}

/-- The rows of an author. -/
def authored (actorId : Id) (db : ChatDatabase) : List (Id × ChatMessage) :=
  db.messages.rows.filter fun row => row.2.authorId == some actorId

/-- The creation times of the author's messages, in one booking or in all. -/
def timesOf (actorId : Id) (bookingId : Option Id) (db : ChatDatabase) : List Int :=
  ((db.authored actorId).filter fun row => bookingId.all (· == row.2.bookingId)).map
    (·.2.createdAt.1)

theorem countSince_eq (actorId : Id) (bookingId : Option Id) (start : Time) (db : ChatDatabase) :
    countSince actorId bookingId start db = since start (db.timesOf actorId bookingId) := by
  rw [countSince, since, timesOf, List.countP_map, List.countP_filter, authored,
    List.countP_filter]
  refine List.countP_congr fun row _ => ?_
  simp only [Bool.and_eq_true, Function.comp_apply]
  tauto

theorem findMessage_eq (actorId : Id) (clientMessageId : String) (db : ChatDatabase) :
    findMessage actorId clientMessageId db =
      (db.authored actorId).find? fun row => row.2.clientMessageId == some clientMessageId := by
  rw [findMessage, authored, List.find?_filter]
  congr 1
  funext row
  rw [Bool.eq_iff_iff]
  simp

theorem authored_insert {id : Id} {message : ChatMessage} (h : db.messages.get id = none) :
    (db.insertMessage id message).authored actorId =
      if message.authorId = some actorId then db.authored actorId ++ [(id, message)]
      else db.authored actorId := by
  rw [authored, insertMessage, Table.rows_insert message h, List.filter_append]
  by_cases hauthor : message.authorId = some actorId
  · simp [hauthor, authored]
  · simp [hauthor, authored]

end ChatDatabase

/-! ## The contract -/

/-- The key of the event of a message. -/
def messageEventKey (bookingId messageId : Id) : String :=
  joinKey ["booking", toString bookingId, "message", toString messageId]

/-- The author of a message may write it. -/
structure ByParty (db : ChatDatabase) (message : ChatMessage) (actorId : Id)
    (parties : BookingParties) : Prop where
  body : isInvalidBody message.body = false
  booking : db.bookings.get message.bookingId = some parties
  actor : parties.borrowerId = actorId ∨ parties.lenderId = actorId

theorem ByParty.congr {db db' : ChatDatabase} {message : ChatMessage} {actorId : Id}
    (h : ∃ parties, ByParty db message actorId parties)
    (hbookings : db'.bookings = db.bookings) :
    ∃ parties, ByParty db' message actorId parties := by
  obtain ⟨parties, hbody, hbooking, hactor⟩ := h
  exact ⟨parties, hbody, hbookings ▸ hbooking, hactor⟩

structure SendGuard (K : List ChatKey) (db : ChatDatabase) (now : Time) (id : Id)
    (message : ChatMessage) (eventId : Id) (event : NotificationOutboxEvent)
    (actorId : Id) (clientMessageId : String) : Prop where
  author : message.authorId = some actorId
  client : message.clientMessageId = some clientMessageId
  party : ∃ parties, ByParty db message actorId parties
  rate : .chatRate actorId ∈ K
  row : .messageRow id ∈ K ∧ db.messages.get id = none
  outboxRow : .outboxRow eventId ∈ K ∧ db.outbox.get eventId = none
  outboxKey : .outboxKey event.deduplicationKey ∈ K
  once : findMessage actorId clientMessageId db = none
  key : event.deduplicationKey = messageEventKey message.bookingId id
  keyOnce : ∀ id' other, db.outbox.get id' = some other →
    other.deduplicationKey ≠ event.deduplicationKey
  clock : now ≤ message.createdAt.1
  perBooking : countSince actorId (some message.bookingId) (now - BOOKING_CHAT_RATE_WINDOW_MS) db <
    BOOKING_CHAT_MAX_PER_BOOKING_WINDOW
  perActor : countSince actorId none (now - BOOKING_CHAT_RATE_WINDOW_MS) db <
    BOOKING_CHAT_MAX_PER_ACTOR_WINDOW

/-- What holds when the event happens; `K` are the locks of its client. -/
def ChatEvent.Guard (K : List ChatKey) (db : ChatDatabase) : ChatEvent → Prop
  | system id message => .messageRow id ∈ K ∧ db.messages.get id = none ∧ message.authorId = none
  | send now id message eventId event => ∃ actorId clientMessageId,
    SendGuard K db now id message eventId event actorId clientMessageId
  | _ => True

/-- What holds of the committed tables. -/
structure ChatInv (db : ChatDatabase) : Prop where
  perBooking : ∀ actorId bookingId, Limited BOOKING_CHAT_RATE_WINDOW_MS
    BOOKING_CHAT_MAX_PER_BOOKING_WINDOW (db.timesOf actorId (some bookingId))
  perActor : ∀ actorId, Limited BOOKING_CHAT_RATE_WINDOW_MS
    BOOKING_CHAT_MAX_PER_ACTOR_WINDOW (db.timesOf actorId none)
  /-- Only messages of a client have an author. -/
  client : ∀ id message, db.messages.get id = some message → message.authorId.isSome →
    message.clientMessageId.isSome
  party : ∀ id message actorId, db.messages.get id = some message →
    message.authorId = some actorId → ∃ parties, ByParty db message actorId parties
  once : ∀ id id' message message', db.messages.get id = some message →
    db.messages.get id' = some message' → message.authorId.isSome →
    message.authorId = message'.authorId → message.clientMessageId = message'.clientMessageId →
    id = id'
  /-- Every message of a client has its event. -/
  event : ∀ id message, db.messages.get id = some message → message.authorId.isSome →
    ∃ eventId event, db.outbox.get eventId = some event ∧
      event.deduplicationKey = messageEventKey message.bookingId id
  keyOnce : ∀ id id' event event', db.outbox.get id = some event → db.outbox.get id' = some event' →
    event.deduplicationKey = event'.deduplicationKey → id = id'

abbrev ChatStore := ChatDatabase × Unit

def chatContract (ok : ChatEvent → ChatStore → Prop) : Contract ChatSys where
  inv σ := ChatInv σ.1
  ok := ok
  guar ev K a b := b.1 = ev.applyDb a.1 ∧ ev.Guard K a.1

/-! ## Tables after a step -/

namespace ChatEvent

variable {ev : ChatEvent} {db : ChatDatabase} {K : List ChatKey} {actorId : Id}

theorem bookings_apply (ev : ChatEvent) (db : ChatDatabase) :
    (ev.applyDb db).bookings = db.bookings := by
  cases ev <;> rfl

/-- A message stays. -/
theorem messages_apply (ev : ChatEvent) {id : Id} {message : ChatMessage}
    (h : db.messages.get id = some message) : (ev.applyDb db).messages.get id = some message := by
  cases ev with
  | system => exact Table.get_insert_of_get h
  | send => exact Table.get_insert_of_get h
  | _ => exact h

theorem outbox_apply (ev : ChatEvent) {id : Id} {event : NotificationOutboxEvent}
    (h : db.outbox.get id = some event) : (ev.applyDb db).outbox.get id = some event := by
  cases ev with
  | send => exact Table.get_insert_of_get h
  | _ => exact h

/-- Only under the lock of the author are messages of the author added. -/
theorem authored_apply (hg : ev.Guard K db) (hK : .chatRate actorId ∉ K) :
    (ev.applyDb db).authored actorId = db.authored actorId := by
  cases ev with
  | system id message =>
    obtain ⟨-, hfree, hnone⟩ := hg
    rw [applyDb, ChatDatabase.authored_insert hfree, hnone, if_neg (by simp)]
  | send now id message eventId event =>
    obtain ⟨author, clientMessageId, hg⟩ := hg
    have hne : message.authorId ≠ some actorId := by
      rw [hg.author, ne_eq, Option.some.injEq]
      rintro rfl
      exact hK hg.rate
    exact (ChatDatabase.authored_insert hg.row.2).trans (if_neg hne)
  | _ => rfl

theorem messageRow_apply (hg : ev.Guard K db) {id : Id} (hK : .messageRow id ∉ K) :
    (ev.applyDb db).messages.get id = db.messages.get id := by
  cases ev with
  | system id' message =>
    refine Table.get_insert_ne _ _ ?_
    rintro rfl
    exact hK hg.1
  | send now id' message eventId event =>
    obtain ⟨_, _, hg⟩ := hg
    refine Table.get_insert_ne _ _ ?_
    rintro rfl
    exact hK hg.row.1
  | _ => rfl

theorem outboxRow_apply (hg : ev.Guard K db) {id : Id} (hK : .outboxRow id ∉ K) :
    (ev.applyDb db).outbox.get id = db.outbox.get id := by
  cases ev with
  | send now id' message eventId event =>
    obtain ⟨_, _, hg⟩ := hg
    refine Table.get_insert_ne _ _ ?_
    rintro rfl
    exact hK hg.outboxRow.1
  | _ => rfl

/-- Only under the lock of a deduplication key is an event with it added. -/
theorem outboxKey_apply (hg : ev.Guard K db) {key : String} (hK : .outboxKey key ∉ K)
    (h : ∀ id event, db.outbox.get id = some event → event.deduplicationKey ≠ key) :
    ∀ id event, (ev.applyDb db).outbox.get id = some event → event.deduplicationKey ≠ key := by
  intro id event hget
  cases ev with
  | send now id' message eventId new =>
    obtain ⟨_, _, hg⟩ := hg
    rcases Table.of_get_insert hget with ⟨rfl, rfl⟩ | hget
    · rintro rfl
      exact hK hg.outboxKey
    · exact h id event hget
  | _ => exact h id event hget

end ChatEvent

/-! ## The invariant -/

section Invariant

variable {db : ChatDatabase} {K : List ChatKey}

namespace ChatDatabase

/-- The times of an author with a new message. -/
theorem timesOf_insert {id : Id} {message : ChatMessage} (h : db.messages.get id = none)
    (actorId : Id) (bookingId : Option Id) :
    (db.insertMessage id message).timesOf actorId bookingId = db.timesOf actorId bookingId ++
      if message.authorId = some actorId ∧ bookingId.all (· == message.bookingId) then
        [message.createdAt.1] else [] := by
  rw [timesOf, authored_insert h]
  by_cases hauthor : message.authorId = some actorId
  · rw [if_pos hauthor, List.filter_append, List.map_append]
    by_cases hbooking : bookingId.all (· == message.bookingId) = true
    · simp [timesOf, hauthor, hbooking]
    · simp [timesOf, hbooking]
  · simp [timesOf, hauthor]

end ChatDatabase

/-- A message that is not within the limit's scope, or is admitted. -/
theorem limited_insert {id : Id} {message : ChatMessage} (h : db.messages.get id = none)
    {actorId : Id} {bookingId : Option Id} {max : Nat}
    (hlimited : Limited BOOKING_CHAT_RATE_WINDOW_MS max (db.timesOf actorId bookingId))
    (hadmitted : message.authorId = some actorId → bookingId.all (· == message.bookingId) →
      ∃ now : Int, now ≤ message.createdAt.1 ∧
        since (now - BOOKING_CHAT_RATE_WINDOW_MS) (db.timesOf actorId bookingId) < max) :
    Limited BOOKING_CHAT_RATE_WINDOW_MS max
      ((db.insertMessage id message).timesOf actorId bookingId) := by
  rw [ChatDatabase.timesOf_insert h]
  by_cases hscope : message.authorId = some actorId ∧
      bookingId.all (· == message.bookingId) = true
  · obtain ⟨now, hnow, hcount⟩ := hadmitted hscope.1 hscope.2
    rw [if_pos hscope]
    exact hlimited.append hnow hcount
  · rw [if_neg hscope, List.append_nil]
    exact hlimited

theorem ChatInv.system (h : ChatInv db) {id : Id} {message : ChatMessage}
    (hfree : db.messages.get id = none) (hauthor : message.authorId = none) :
    ChatInv (db.insertMessage id message) where
  perBooking actorId bookingId := limited_insert hfree (h.perBooking actorId bookingId)
    fun hsome => by rw [hauthor] at hsome; cases hsome
  perActor actorId := limited_insert hfree (h.perActor actorId)
    fun hsome => by rw [hauthor] at hsome; cases hsome
  client id' other hget hsome := by
    rcases Table.of_get_insert hget with ⟨-, rfl⟩ | hget
    · rw [hauthor] at hsome
      cases hsome
    · exact h.client id' other hget hsome
  party id' other actorId hget hsome := by
    rcases Table.of_get_insert hget with ⟨-, rfl⟩ | hget
    · rw [hauthor] at hsome
      cases hsome
    · exact ByParty.congr (h.party id' other actorId hget hsome) rfl
  once i j a b ha hb hsome hsame hclient := by
    rcases Table.of_get_insert ha with ⟨-, rfl⟩ | ha
    · rw [hauthor] at hsome
      cases hsome
    · rcases Table.of_get_insert hb with ⟨-, rfl⟩ | hb
      · rw [hsame, hauthor] at hsome
        cases hsome
      · exact h.once i j a b ha hb hsome hsame hclient
  event id' other hget hsome := by
    rcases Table.of_get_insert hget with ⟨-, rfl⟩ | hget
    · rw [hauthor] at hsome
      cases hsome
    · exact h.event id' other hget hsome
  keyOnce := h.keyOnce

theorem findMessage_eq_none {actorId : Id} {clientMessageId : String}
    (h : findMessage actorId clientMessageId db = none) {id : Id} {message : ChatMessage}
    (hget : db.messages.get id = some message) (hauthor : message.authorId = some actorId) :
    message.clientMessageId ≠ some clientMessageId := by
  intro hclient
  have hno := List.find?_eq_none.mp h (id, message) (Table.get_eq_some.mp hget)
  simp [hauthor, hclient] at hno

theorem ChatInv.send (h : ChatInv db) {now : Time} {id : Id} {message : ChatMessage} {eventId : Id}
    {event : NotificationOutboxEvent} {actorId : Id} {clientMessageId : String}
    (hg : SendGuard K db now id message eventId event actorId clientMessageId) :
    ChatInv ((db.insertMessage id message).insertEvent eventId event) where
  perBooking author bookingId := by
    refine limited_insert hg.row.2 (h.perBooking author bookingId) fun hauthor hbooking => ?_
    rw [hg.author, Option.some.injEq] at hauthor
    subst hauthor
    obtain rfl : bookingId = message.bookingId := by simpa using hbooking
    exact ⟨now, hg.clock, by rw [← ChatDatabase.countSince_eq]; exact hg.perBooking⟩
  perActor author := by
    refine limited_insert hg.row.2 (h.perActor author) fun hauthor _ => ?_
    rw [hg.author, Option.some.injEq] at hauthor
    subst hauthor
    exact ⟨now, hg.clock, by rw [← ChatDatabase.countSince_eq]; exact hg.perActor⟩
  client id' other hget hsome := by
    rcases Table.of_get_insert hget with ⟨-, rfl⟩ | hget
    · simp [hg.client]
    · exact h.client id' other hget hsome
  party id' other author hget hsome := by
    rcases Table.of_get_insert hget with ⟨-, rfl⟩ | hget
    · obtain rfl := Option.some.inj (hg.author.symm.trans hsome)
      exact ByParty.congr hg.party rfl
    · exact ByParty.congr (h.party id' other author hget hsome) rfl
  once i j a b ha hb hsome hsame hclient := by
    rcases Table.of_get_insert ha with ⟨rfl, rfl⟩ | hold
    · rcases Table.of_get_insert hb with ⟨rfl, -⟩ | hb
      · rfl
      · exact absurd (hclient.symm.trans hg.client)
          (findMessage_eq_none hg.once hb (hsame.symm.trans hg.author))
    · rcases Table.of_get_insert hb with ⟨rfl, rfl⟩ | hb
      · exact absurd (hclient.trans hg.client)
          (findMessage_eq_none hg.once hold (hsame.trans hg.author))
      · exact h.once i j a b hold hb hsome hsame hclient
  event id' other hget hsome := by
    rcases Table.of_get_insert hget with ⟨rfl, rfl⟩ | hget
    · exact ⟨eventId, event, Table.get_insert_self _ hg.outboxRow.2, hg.key⟩
    · obtain ⟨e, row, hrow, hkey⟩ := h.event id' other hget hsome
      exact ⟨e, row, Table.get_insert_of_get hrow, hkey⟩
  keyOnce i j a b ha hb hsame := by
    rcases Table.of_get_insert ha with ⟨rfl, rfl⟩ | hold
    · rcases Table.of_get_insert hb with ⟨rfl, -⟩ | hb
      · rfl
      · exact absurd hsame.symm (hg.keyOnce j b hb)
    · rcases Table.of_get_insert hb with ⟨rfl, rfl⟩ | hb
      · exact absurd hsame (hg.keyOnce i a hold)
      · exact h.keyOnce i j a b hold hb hsame

/-- **Every step keeps the invariant.** -/
theorem chat_preserved {ok : ChatEvent → ChatStore → Prop} : (chatContract ok).Preserved := by
  rintro K ⟨a, u⟩ ⟨b, u'⟩ ⟨hinv, ev, -, hb, hg⟩
  have hb : b = ev.applyDb a := hb
  subst hb
  cases ev with
  | quiet => exact hinv
  | change circumstances =>
    exact
      { perBooking := hinv.perBooking
        perActor := hinv.perActor
        client := hinv.client
        party := fun id message actorId hget hsome =>
          ByParty.congr (hinv.party id message actorId hget hsome) rfl
        once := hinv.once
        event := hinv.event
        keyOnce := hinv.keyOnce }
  | system id message => exact ChatInv.system hinv hg.2.1 hg.2.2
  | send now id message eventId event =>
    obtain ⟨_, _, hg⟩ := hg
    exact ChatInv.send hinv hg

end Invariant

end Sosedi
