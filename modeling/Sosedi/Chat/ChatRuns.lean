import Sosedi.Chat.ChatContract
import Sosedi.Transactions.Schedules

/-!
# The runs of the chat

Runs start without messages; the bookings are arbitrary.

Proved here:

* `authored_interference`: while a call holds the lock on the rate of its author, nobody else adds
  a message of the author;
* `wp_send`: a call keeps to the contract, and what it returns is stored;
* `ChatRuns.inv`, `ChatRuns.later`: what holds in every state of a run.
-/

namespace Sosedi

open Transactions BookingMessageService

variable {ok : ChatEvent → ChatStore → Prop} {L : List ChatKey} {a b σ : ChatStore}

/-! ## What others leave alone -/

theorem chat_interference {P : ChatDatabase → Prop}
    (hP : ∀ (ev : ChatEvent) (K : List ChatKey) (db : ChatDatabase), (∀ k ∈ L, k ∉ K) →
      ev.Guard K db → P db → P (ev.applyDb db))
    (h : (chatContract ok).Interference L a b) (ha : P a.1) : P b.1 := by
  refine interference_keeps (P := fun c : ChatStore => P c.1) ?_ h ha
  rintro c d ⟨K, hK, -, ev, -, hd, hg⟩ hc
  rw [hd]
  exact hP ev K c.1 (fun k hL hk => hK k hk hL) hg hc

theorem authored_interference {actorId : Id} (hL : .chatRate actorId ∈ L)
    (h : (chatContract ok).Interference L a b) : b.1.authored actorId = a.1.authored actorId :=
  chat_interference (P := fun db => db.authored actorId = a.1.authored actorId)
    (fun ev _ _ hK hg hc => (ev.authored_apply hg (hK _ hL)).trans hc) h rfl

theorem messageRow_interference {id : Id} (hL : .messageRow id ∈ L)
    (h : (chatContract ok).Interference L a b) : b.1.messages.get id = a.1.messages.get id :=
  chat_interference (P := fun db => db.messages.get id = a.1.messages.get id)
    (fun ev _ _ hK hg hc => (ev.messageRow_apply hg (hK _ hL)).trans hc) h rfl

theorem outboxRow_interference {id : Id} (hL : .outboxRow id ∈ L)
    (h : (chatContract ok).Interference L a b) : b.1.outbox.get id = a.1.outbox.get id :=
  chat_interference (P := fun db => db.outbox.get id = a.1.outbox.get id)
    (fun ev _ _ hK hg hc => (ev.outboxRow_apply hg (hK _ hL)).trans hc) h rfl

theorem outboxKey_interference (key : String) (hL : .outboxKey key ∈ L)
    (h : (chatContract ok).Interference L a b)
    (ha : ∀ id event, a.1.outbox.get id = some event → event.deduplicationKey ≠ key) :
    ∀ id event, b.1.outbox.get id = some event → event.deduplicationKey ≠ key :=
  chat_interference (P := fun db => ∀ id event, db.outbox.get id = some event →
    event.deduplicationKey ≠ key) (fun ev _ _ hK hg hc => ev.outboxKey_apply hg (hK _ hL) hc) h ha

/-- A message that is stored stays, and so do the parties of a booking. -/
theorem persists_message (id : Id) (message : ChatMessage) :
    Persists (chatContract ok) fun σ => σ.1.messages.get id = some message := by
  rintro K a b ⟨-, ev, -, hb, -⟩ ha
  rw [hb]
  exact ev.messages_apply ha

theorem persists_event (id : Id) (event : NotificationOutboxEvent) :
    Persists (chatContract ok) fun σ => σ.1.outbox.get id = some event := by
  rintro K a b ⟨-, ev, -, hb, -⟩ ha
  rw [hb]
  exact ev.outbox_apply ha

theorem persists_parties (bookingId : Id) (parties : BookingParties) :
    Persists (chatContract ok) fun σ => σ.1.bookings.get bookingId = some parties := by
  rintro K a b ⟨-, ev, -, hb, -⟩ ha
  rw [hb, ev.bookings_apply]
  exact ha

/-! ## Calls -/

/-- The message that a call adds. -/
def sentMessage (actorId bookingId : Id) (clientMessageId body : String) (parties : BookingParties)
    (createdAt : Timestamp) : ChatMessage where
  bookingId
  authorId := some actorId
  authorRole := roleOf actorId parties
  clientMessageId := some clientMessageId
  body
  createdAt

/-- A count, and whether a message is stored, depend on the messages of the author only. -/
theorem countSince_congr {actorId : Id} {a b : ChatDatabase}
    (h : b.authored actorId = a.authored actorId) (bookingId : Option Id) (start : Time) :
    countSince actorId bookingId start b = countSince actorId bookingId start a := by
  rw [ChatDatabase.countSince_eq, ChatDatabase.countSince_eq, ChatDatabase.timesOf,
    ChatDatabase.timesOf, h]

theorem findMessage_congr {actorId : Id} {a b : ChatDatabase}
    (h : b.authored actorId = a.authored actorId) (clientMessageId : String) :
    findMessage actorId clientMessageId b = findMessage actorId clientMessageId a := by
  rw [ChatDatabase.findMessage_eq, ChatDatabase.findMessage_eq, h]

theorem wp_post {actorId bookingId : Id} {clientMessageId body : String}
    {booking : ParticipantBooking} {now : Time} {createdAt : Timestamp} {newId newEventId : Id}
    (hnow : now ≤ createdAt.1) (hL : .chatRate actorId ∈ L) (hbody : isInvalidBody body = false)
    (hparties : σ.1.bookings.get bookingId = some booking.parties)
    (hactor : booking.parties.borrowerId = actorId ∨ booking.parties.lenderId = actorId)
    (hnone : findMessage actorId clientMessageId σ.1 = none) :
    wp (chatContract ok)
      (post actorId bookingId clientMessageId body booking now createdAt newId newEventId)
      (fun message L ω σ => (L = [] ∧ ω = []) ∧
        message = sentMessage actorId bookingId clientMessageId body booking.parties createdAt ∧
        σ.1.messages.get newId = some message) L [] σ := by
  simp only [post, insertMessage, insertEvent, Prog.bind_eq, wp_bind, wp_lift, ensure_eq_ok,
    wp_select, wp_insertUnique, wp_commit, view_nil, Bool.or_eq_false_iff]
  rintro - - - - σ₁ hi₁ - - - σ₂ hi₂ - σ₃ hi₃ - - hcounts σ₄ hi₄ - ⟨hfree, -⟩ σ₅ hi₅ -
    ⟨heventFree, hkeyFree⟩ σ₆ hi₆ - -
  have h₂ := (authored_interference hL hi₂).trans (authored_interference hL hi₁)
  have h₄ := (authored_interference hL hi₄).trans ((authored_interference hL hi₃).trans h₂)
  have h₅ := (authored_interference (List.mem_append_right _ hL) hi₅).trans h₄
  have h₆ := (authored_interference (by simp [hL]) hi₆).trans h₅
  simp only [Bool.not_eq_true', Bool.or_eq_false_iff] at hcounts
  have hrow : σ₆.1.messages.get newId = none := by
    rw [messageRow_interference (by simp) hi₆, messageRow_interference (by simp) hi₅]
    simpa using hfree
  have heventRow : σ₆.1.outbox.get newEventId = none := by
    rw [outboxRow_interference (by simp) hi₆]
    simpa [ChatDatabase.insertMessage] using heventFree
  have hkeyOnce := outboxKey_interference (messageEventKey bookingId newId)
    (List.mem_append_left _ (List.mem_cons_of_mem _ (List.mem_cons_self ..))) hi₆
    fun id event hget => beq_eq_false_iff_ne.mp (Table.any_eq_false.mp hkeyFree id event hget)
  have hparties₆ : σ₆.1.bookings.get bookingId = some booking.parties := by
    have hpersists := @persists_parties ok bookingId booking.parties
    exact hpersists.interference hi₆ (hpersists.interference hi₅ (hpersists.interference
      (interference_trans hi₁ (interference_trans hi₂ (interference_trans hi₃ hi₄))) hparties))
  refine ⟨⟨rfl, actorId, clientMessageId, ?_⟩, ⟨rfl, rfl⟩, rfl, Table.get_insert_self _ hrow⟩
  exact
    { author := rfl
      client := rfl
      party := ⟨booking.parties, hbody, hparties₆, hactor⟩
      rate := by simp [hL]
      row := ⟨by simp, hrow⟩
      outboxRow := ⟨by simp, heventRow⟩
      outboxKey := by simp
      once := (findMessage_congr h₆ clientMessageId).trans hnone
      key := rfl
      keyOnce := hkeyOnce
      clock := hnow
      perBooking := by
        rw [countSince_congr (h₆.trans h₂.symm)]
        exact Nat.lt_of_not_le (of_decide_eq_false hcounts.1)
      perActor := by
        rw [countSince_congr (h₆.trans ((authored_interference hL hi₃).trans h₂).symm)]
        exact Nat.lt_of_not_le (of_decide_eq_false hcounts.2) }

/-! ## Whole calls -/

/-- The parties of the booking, and that the actor is one of them. -/
theorem requireParticipant_eq_ok {actorId bookingId : Id} {db : ChatDatabase}
    {booking : ParticipantBooking} (h : requireParticipant actorId bookingId db = .ok booking) :
    db.bookings.get bookingId = some booking.parties ∧
      (booking.parties.borrowerId = actorId ∨ booking.parties.lenderId = actorId) := by
  unfold requireParticipant at h
  split at h
  · cases h
  · rename_i found hfound
    cases h
    obtain ⟨parties, hparties, rfl⟩ := Option.map_eq_some_iff.mp hfound
    obtain ⟨hget, hactor⟩ := Option.filter_eq_some_iff.mp hparties
    exact ⟨hget, by simpa using hactor⟩

/-- What a call returns: the answer for the stored message of its author and client's id. -/
def Answered (actorId bookingId : Id) (clientMessageId body : String)
    (response : BookingMessageResponse) (db : ChatDatabase) : Prop :=
  ∃ id message parties, db.messages.get id = some message ∧
    message.authorId = some actorId ∧ message.clientMessageId = some clientMessageId ∧
    message.bookingId = bookingId ∧ message.body = body ∧
    db.bookings.get bookingId = some parties ∧ response = toResponse actorId parties id message

/-- **A call keeps to the contract, and what it returns is stored.** -/
theorem wp_send {actorId bookingId : Id} {dto : CreateBookingMessageDto} {now : Time}
    {createdAt : Timestamp} {newId newEventId : Id} (hnow : now ≤ createdAt.1) (σ : ChatStore) :
    wp (chatContract ok) (send actorId bookingId dto now createdAt newId newEventId)
      (fun response L ω σ => (L = [] ∧ ω = []) ∧
        Answered actorId bookingId dto.clientMessageId (trim dto.body) response σ.1) [] [] σ := by
  simp only [send, Prog.bind_eq, wp_bind, wp_lift, wp_acquire, wp_select, view_nil]
  rintro _ hbody σ₁ - - σ₂ - - σ₃ - - σ₄ hi₄ - booking hbooking σ₅ hi₅ -
  obtain ⟨hparties, hactor⟩ := requireParticipant_eq_ok hbooking
  have hvalid : isInvalidBody (trim dto.body) = false :=
    Bool.not_eq_true' _ ▸ ensure_eq_ok.mp hbody
  cases hfound : findMessage actorId dto.clientMessageId σ₅.1 with
  | some found =>
    obtain ⟨id, message⟩ := found
    simp only [wp_bind, wp_lift, ensure_eq_ok, wp_commit, view_nil]
    rintro - hsame σ₆ hi₆ - -
    simp only [Bool.not_eq_true', Bool.or_eq_false_iff, bne_eq_false_iff_eq] at hsame
    have hauthor := List.find?_some hfound
    simp only [Bool.and_eq_true, beq_iff_eq] at hauthor
    have hstored : σ₆.1.messages.get id = some message := (persists_message id message).interference
      hi₆ (Table.get_eq_some.mpr (List.mem_of_find?_eq_some hfound))
    exact ⟨⟨rfl, trivial⟩, ⟨rfl, rfl⟩, id, message, booking.parties, hstored, hauthor.1, hauthor.2,
      hsame.1, hsame.2, (persists_parties bookingId _).interference
        (interference_trans hi₅ hi₆) hparties, rfl⟩
  | none =>
    simp only [wp_bind]
    have hparties₅ := (persists_parties bookingId _).interference hi₅ hparties
    refine wp_mono _ ?_ (wp_keeps (persists_parties bookingId booking.parties) _
      (wp_post hnow (by simp) hvalid hparties₅ hactor hfound) hparties₅)
    rintro message L ω σ' ⟨⟨hend, rfl, hget⟩, hparties'⟩
    exact ⟨hend, newId, _, booking.parties, hget, rfl, rfl, rfl, rfl, hparties', rfl⟩

theorem safe_send {actorId bookingId : Id} {dto : CreateBookingMessageDto} {now : Time}
    {createdAt : Timestamp} {newId newEventId : Id} (hnow : now ≤ createdAt.1) :
    Safe (chatContract ok) (send actorId bookingId dto now createdAt newId newEventId) := by
  intro σ
  refine wp_mono _ ?_ (wp_send hnow σ)
  rintro response L ω σ' ⟨hend, -⟩
  exact hend

theorem safe_changeCircumstances (circumstances : Circumstances) :
    Safe (chatContract ok) (changeCircumstances circumstances) :=
  fun _ _ _ _ _ _ _ _ => ⟨⟨rfl, trivial⟩, rfl, rfl⟩

theorem safe_systemMessage (bookingId : Id) (body : String) (createdAt : Timestamp) (newId : Id) :
    Safe (chatContract ok) (systemMessage bookingId body createdAt newId) := by
  intro σ
  simp only [systemMessage, insertMessage, Prog.bind_eq, wp_bind, wp_insertUnique, wp_commit,
    view_nil, Bool.or_eq_false_iff]
  rintro σ₁ - - ⟨hfree, -⟩ σ₂ hi₂ - -
  have hrow : σ₂.1.messages.get newId = none := by
    rw [messageRow_interference (by simp) hi₂]
    simpa using hfree
  exact ⟨⟨rfl, by simp, hrow, rfl⟩, trivial, trivial⟩

/-- Every call keeps to the contract. -/
theorem keeps_chatCalls {p : Prog ChatSys Unit} (h : ChatCalls p) : Keeps (chatContract ok) p := by
  obtain ⟨c, horder, rfl⟩ := h
  cases c with
  | send actorId bookingId dto now createdAt newId newEventId =>
    have hnow : now ≤ createdAt.1 := horder
    exact ((safe_send hnow).bind fun _ => Safe.ret ()).keeps
  | change circumstances => exact (safe_changeCircumstances circumstances).keeps
  | system bookingId body createdAt newId =>
    exact (safe_systemMessage bookingId body createdAt newId).keeps

/-! ## Runs -/

/-- Nothing has been written yet. -/
structure ChatInitial (σ : ChatStore) : Prop where
  messages : σ.1.messages = .empty
  outbox : σ.1.outbox = .empty

theorem ChatInitial.inv {σ : ChatStore} (h : ChatInitial σ) : ChatInv σ.1 := by
  have htimes : ∀ actorId bookingId, σ.1.timesOf actorId bookingId = [] := by
    intro actorId bookingId
    rw [ChatDatabase.timesOf, ChatDatabase.authored, h.messages]
    rfl
  refine ⟨fun actorId bookingId => ?_, fun actorId => ?_, ?_, ?_, ?_, ?_, ?_⟩
  · rw [htimes]
    exact RateWindows.Limited.nil
  · rw [htimes]
    exact RateWindows.Limited.nil
  all_goals simp [h.messages, h.outbox]

/-- A run of the chat from an initial store with no client in flight. -/
structure ChatRuns (s₀ s : State ChatSys) : Prop where
  threads : s₀.threads = []
  initial : ChatInitial s₀.store
  reaches : Reaches ChatCalls (fun _ _ => True) s₀ s

namespace ChatRuns

variable {s₀ s s' : State ChatSys}

theorem inv (h : ChatRuns s₀ s) : ChatInv s.db :=
  reaches_inv (C := chatContract fun _ _ => True) (fun _ => keeps_chatCalls) chat_preserved
    h.threads h.initial.inv h.reaches

theorem trans (h : ChatRuns s₀ s) (hr : Reaches ChatCalls (fun _ _ => True) s s') :
    ChatRuns s₀ s' := ⟨h.threads, h.initial, h.reaches.trans hr⟩

/-- What every step keeps, from a state of the run on. -/
theorem later {P : ChatStore → Prop} (h : ChatRuns s₀ s)
    (hr : Reaches ChatCalls (fun _ _ => True) s s')
    (hP : Persists (chatContract fun _ _ => True) P) (hs : P s.store) : P s'.store := by
  induction hr with
  | refl => exact hs
  | step m hr hm hf ih =>
    rcases reaches_fire (C := chatContract fun _ _ => True) (fun _ => keeps_chatCalls)
      chat_preserved h.threads h.initial.inv (h.trans hr).reaches hm hf with he | ⟨K, hstep⟩
    · rw [he]
      exact ih
    · exact hP K _ _ hstep ih

end ChatRuns

end Sosedi
