import Sosedi.Chat.BookingMessageService
import Sosedi.Data.KeysetPages

/-!
# Reading a conversation to its end

A client follows `nextCursor` from the first page on, while messages are added between any two
statements of the server.

Proved here:

* `fetch_spec`: each answer is a page of the messages that its query reads;
* `exists_follows`: the pages come to an end;
* `chat_pages_complete`: together they have every message that was there, exactly once and in
  order.
-/

namespace Sosedi

open Paging

namespace BookingMessageService

/-- Messages and bookings are added, and stay as they are. -/
structure Grows (a b : ChatDatabase) : Prop where
  bookings : ∀ id parties, a.bookings.get id = some parties → b.bookings.get id = some parties
  messages : ∀ row ∈ a.messages.rows, row ∈ b.messages.rows

/-- The sort columns. -/
abbrev MessageKey := Int ×ₗ Nat

def keyOf (response : BookingMessageResponse) : MessageKey := toLex (response.createdAt, response.id)

variable (actorId bookingId : Id) (limits : Nat → Option Mobile.PageLimit)
  (dbs : Nat → ChatDatabase)

/-- The answer to the `n`-th request; `dbs` are the databases that the statements read. -/
def fetch (n : Nat) (cursor : Option Id) : Except Error BookingMessagePage :=
  list actorId bookingId (limits n) cursor (dbs (3 * n)) (dbs (3 * n + 1)) (dbs (3 * n + 2))

/-- The pages that a client gets from the `n`-th request on, till there is no next cursor. -/
inductive Follows : Nat → Option Id → List BookingMessagePage → Prop where
  | last {n : Nat} {cursor : Option Id} {page : BookingMessagePage}
      (h : fetch actorId bookingId limits dbs n cursor = .ok page) (hend : page.nextCursor = none) :
      Follows n cursor [page]
  | next {n : Nat} {cursor : Option Id} {page : BookingMessagePage} {c : Id}
      {pages : List BookingMessagePage}
      (h : fetch actorId bookingId limits dbs n cursor = .ok page)
      (hnext : page.nextCursor = some c) (rest : Follows (n + 1) (some c) pages) :
      Follows n cursor (page :: pages)

/-- The keys that the query of the `n`-th request finds without a cursor. -/
def Found (n : Nat) (k : MessageKey) : Prop :=
  ∃ m ∈ conversation bookingId (dbs (3 * n + 2)), m.key = k

/-! ## Conversations -/

section Conversation

variable {bookingId : Id} {a b : ChatDatabase}

theorem mem_conversation {m : Mobile.BookingMessage ChatMessage} :
    m ∈ conversation bookingId a ↔ ∃ row ∈ a.messages.rows, row.2.bookingId = bookingId ∧
      m = { id := row.1, createdAt := row.2.createdAt.1, content := row.2 } := by
  simp only [conversation, List.mem_map, List.mem_filter, beq_iff_eq]
  constructor
  · rintro ⟨row, ⟨hrow, hbooking⟩, rfl⟩
    exact ⟨row, hrow, hbooking, rfl⟩
  · rintro ⟨row, hrow, hbooking, rfl⟩
    exact ⟨row, ⟨hrow, hbooking⟩, rfl⟩

theorem nodup_conversation : ((conversation bookingId a).map (·.id)).Nodup := by
  rw [conversation, List.map_map]
  exact a.messages.nodup.sublist (List.filter_sublist.map _)

theorem Grows.refl : Grows a a := ⟨fun _ _ h => h, fun _ h => h⟩

theorem Grows.trans {c : ChatDatabase} (h : Grows a b) (h' : Grows b c) : Grows a c :=
  ⟨fun id parties hget => h'.bookings id parties (h.bookings id parties hget),
    fun row hrow => h'.messages row (h.messages row hrow)⟩

theorem Grows.conversation (h : Grows a b) {m : Mobile.BookingMessage ChatMessage}
    (hm : m ∈ conversation bookingId a) : m ∈ conversation bookingId b := by
  obtain ⟨row, hrow, hbooking, rfl⟩ := mem_conversation.mp hm
  exact mem_conversation.mpr ⟨row, h.messages row hrow, hbooking, rfl⟩

/-- A message is found by its id. -/
theorem find?_conversation {m : Mobile.BookingMessage ChatMessage}
    (hm : m ∈ conversation bookingId a) :
    (conversation bookingId a).find? (·.id = m.id) = some m := by
  cases hfind : (conversation bookingId a).find? (·.id = m.id) with
  | none =>
    have hno := List.find?_eq_none.mp hfind m hm
    simp at hno
  | some found =>
    have hid : found.id = m.id := by simpa using List.find?_some hfind
    rw [List.inj_on_of_nodup_map nodup_conversation (List.mem_of_find?_eq_some hfind) hm hid]

end Conversation

/-! ## One answer -/

variable {actorId bookingId limits dbs} {parties : BookingParties} {n : Nat}

theorem grows_le (hgrows : ∀ n, Grows (dbs n) (dbs (n + 1))) {i j : Nat} (hij : i ≤ j) :
    Grows (dbs i) (dbs j) := by
  induction hij with
  | refl => exact .refl
  | step _ ih => exact ih.trans (hgrows _)

/-- The cursor of a request names a message that is there. -/
theorem findCursor_eq {cursor : Option MessageKey} {db : ChatDatabase}
    (hcursor : ∀ k, cursor = some k → ∃ m ∈ conversation bookingId db, m.key = k) :
    ∃ after, findCursor bookingId (cursor.map fun k => (ofLex k).2) db = .ok after ∧
      cursor = after.map (·.key) := by
  cases cursor with
  | none => exact ⟨none, rfl, rfl⟩
  | some k =>
    obtain ⟨m, hm, rfl⟩ := hcursor k rfl
    refine ⟨some m, ?_, rfl⟩
    have hfind : (conversation bookingId db).find? (·.id = (ofLex m.key).2) = some m :=
      find?_conversation hm
    simp only [findCursor, Option.map_some, hfind]

theorem mem_findMessages {after : Option (Mobile.BookingMessage ChatMessage)} {db : ChatDatabase}
    {m : Mobile.BookingMessage ChatMessage} : m ∈ findMessages bookingId after db ↔
      m ∈ conversation bookingId db ∧ Before (after.map (·.key)) m.key := by
  rw [findMessages, List.mem_filter]
  refine and_congr_right fun _ => ?_
  cases after with
  | none => simp [Before]
  | some after => simp [Before, Mobile.isBefore_iff]

/-- The keys of a page, and of its cursor. -/
theorem pageOf_spec (limit : Mobile.PageLimit) (found : MessageKey → Prop)
    (bound : Option MessageKey) {messages : List (Mobile.BookingMessage ChatMessage)}
    (hnodup : (messages.map (·.id)).Nodup)
    (hfound : ∀ k, (∃ m ∈ messages, m.key = k) ↔ found k ∧ Before bound k) :
    ∃ next, (Mobile.pageOf limit.limit messages).nextCursor = next.map (fun k => (ofLex k).2) ∧
      PageOf found bound ((Mobile.pageOf limit.limit messages).items.map (·.key)).reverse next := by
  have hsorted : ((messages.insertionSort Mobile.newestFirst).map (·.key)).Pairwise
      fun a b => b < a := List.pairwise_map.mpr (Mobile.pairwise_newestFirst hnodup)
  have hmem : ∀ k, k ∈ (messages.insertionSort Mobile.newestFirst).map (·.key) ↔
      found k ∧ Before bound k := by
    intro k
    simp only [List.mem_map, List.mem_insertionSort, hfound]
  have hpage := PageOf.of_take hsorted hmem limit.pos
  rw [List.length_map, List.length_insertionSort, ← List.map_take, List.getLast?_map] at hpage
  rw [Mobile.pageOf_eq, List.map_reverse, List.reverse_reverse]
  refine ⟨_, ?_, hpage⟩
  by_cases hmore : limit.limit < messages.length
  · simp only [if_pos hmore, Option.map_map]
    rfl
  · simp only [if_neg hmore, Option.map_none]

/-- **An answer is a page** of what its query reads. -/
theorem fetch_spec (cursor : Option MessageKey)
    (hbooking : (dbs (3 * n)).bookings.get bookingId = some parties)
    (hactor : parties.borrowerId = actorId ∨ parties.lenderId = actorId)
    (hcursor : ∀ k, cursor = some k →
      ∃ m ∈ conversation bookingId (dbs (3 * n + 1)), m.key = k) :
    ∃ page next, fetch actorId bookingId limits dbs n (cursor.map fun k => (ofLex k).2) = .ok page ∧
      page.nextCursor = next.map (fun k => (ofLex k).2) ∧
      PageOf (Found bookingId dbs n) cursor (page.items.map keyOf).reverse next ∧
      ∀ response ∈ page.items, ∃ m ∈ conversation bookingId (dbs (3 * n + 2)),
        response = toResponse actorId parties m.id m.content ∧ keyOf response = m.key := by
  obtain ⟨booking, hrequire, rfl⟩ := requireParticipant_eq hbooking hactor
  obtain ⟨after, hafter, rfl⟩ := findCursor_eq hcursor
  have hnodup : ((findMessages bookingId after (dbs (3 * n + 2))).map (·.id)).Nodup :=
    nodup_conversation.sublist (List.filter_sublist.map _)
  obtain ⟨next, hnext, hpage⟩ := pageOf_spec ((limits n).getD DEFAULT_PAGE_SIZE)
    (Found bookingId dbs n) (after.map (·.key)) hnodup fun k => by
      constructor
      · rintro ⟨m, hm, rfl⟩
        exact ⟨⟨m, (mem_findMessages.mp hm).1, rfl⟩, (mem_findMessages.mp hm).2⟩
      · rintro ⟨⟨m, hm, rfl⟩, hbefore⟩
        exact ⟨m, mem_findMessages.mpr ⟨hm, hbefore⟩, rfl⟩
  have hitems : ∀ m ∈ (Mobile.pageOf ((limits n).getD DEFAULT_PAGE_SIZE).limit
      (findMessages bookingId after (dbs (3 * n + 2)))).items,
      m ∈ conversation bookingId (dbs (3 * n + 2)) ∧
        keyOf (toResponse actorId booking.parties m.id m.content) = m.key := by
    intro m hm
    have hmem := (mem_findMessages.mp ((Mobile.window_pageOf hnodup).sub m hm)).1
    obtain ⟨row, -, -, rfl⟩ := mem_conversation.mp hmem
    exact ⟨hmem, rfl⟩
  have hfetch : fetch actorId bookingId limits dbs n
      ((after.map (·.key)).map fun k => (ofLex k).2) =
        .ok (toPageResponse actorId booking.parties (Mobile.pageOf
          ((limits n).getD DEFAULT_PAGE_SIZE).limit
          (findMessages bookingId after (dbs (3 * n + 2))))) := by
    simp only [fetch, list, hrequire, hafter]
    rfl
  have hkeys : (toPageResponse actorId booking.parties (Mobile.pageOf
      ((limits n).getD DEFAULT_PAGE_SIZE).limit
      (findMessages bookingId after (dbs (3 * n + 2))))).items.map keyOf =
        (Mobile.pageOf ((limits n).getD DEFAULT_PAGE_SIZE).limit
          (findMessages bookingId after (dbs (3 * n + 2)))).items.map (·.key) := by
    rw [toPageResponse, List.map_map]
    exact List.map_congr_left fun m hm => (hitems m hm).2
  refine ⟨_, next, hfetch, hnext, ?_, ?_⟩
  · rw [hkeys]
    exact hpage
  · intro response hresponse
    obtain ⟨m, hm, rfl⟩ := List.mem_map.mp hresponse
    exact ⟨m, (hitems m hm).1, rfl, (hitems m hm).2⟩

/-! ## All answers -/

/-- A cursor names a message that was there when its page was read. -/
theorem cursor_of_pageOf (hgrows : ∀ n, Grows (dbs n) (dbs (n + 1))) {bound next : Option MessageKey}
    {keys : List MessageKey} (h : PageOf (Found bookingId dbs n) bound keys next) :
    ∀ k, next = some k → ∃ m ∈ conversation bookingId (dbs (3 * (n + 1) + 1)), m.key = k := by
  intro k hk
  obtain ⟨m, hm, hkey⟩ := h.sub k (h.next k hk).1
  exact ⟨m, (grows_le hgrows (by omega)).conversation hm, hkey⟩

/-- Times are bounded from below. -/
def rank (k : MessageKey) : Nat ×ₗ Nat :=
  toLex (((ofLex k).1 - earliestTimestamp).toNat, (ofLex k).2)

theorem rank_lt {k k' : MessageKey} (h : k < k') (hearliest : earliestTimestamp ≤ (ofLex k).1) :
    rank k < rank k' := by
  rw [Prod.Lex.lt_iff] at h ⊢
  rcases h with h | ⟨heq, h⟩
  · left
    show ((ofLex k).1 - earliestTimestamp).toNat < ((ofLex k').1 - earliestTimestamp).toNat
    omega
  · right
    exact ⟨congrArg (fun t => (t - earliestTimestamp).toNat) heq, h⟩

theorem earliest_of_mem {m : Mobile.BookingMessage ChatMessage} {db : ChatDatabase}
    (h : m ∈ conversation bookingId db) : earliestTimestamp ≤ (ofLex m.key).1 := by
  obtain ⟨row, -, -, rfl⟩ := mem_conversation.mp h
  exact row.2.createdAt.2

section Run

variable (hgrows : ∀ n, Grows (dbs n) (dbs (n + 1)))
  (hbooking : (dbs 0).bookings.get bookingId = some parties)
  (hactor : parties.borrowerId = actorId ∨ parties.lenderId = actorId)
include hgrows hbooking hactor

/-- From a message on. -/
theorem exists_follows_after (r : Nat ×ₗ Nat) : ∀ (n : Nat) (k : MessageKey), rank k = r →
    (∃ m ∈ conversation bookingId (dbs (3 * n + 1)), m.key = k) →
    ∃ pages, Follows actorId bookingId limits dbs n (some (ofLex k).2) pages := by
  induction r using WellFoundedLT.induction with
  | ind r ih =>
    intro n k hr hk
    have hget := (grows_le hgrows (Nat.zero_le (3 * n))).bookings _ _ hbooking
    have hcursor : ∀ k', some k = some k' →
        ∃ m ∈ conversation bookingId (dbs (3 * n + 1)), m.key = k' := by
      rintro _ ⟨⟩
      exact hk
    obtain ⟨page, next, hfetch, hnext, hpage, -⟩ := fetch_spec (some k) hget hactor hcursor
    cases next with
    | none => exact ⟨_, .last hfetch hnext⟩
    | some k' =>
      have hmem := (hpage.next k' rfl).1
      have hlt : k' < k := hpage.before k' hmem k rfl
      obtain ⟨m, hm, hkey⟩ := hpage.sub k' hmem
      have hrank : rank k' < r := hr ▸ rank_lt hlt (hkey ▸ earliest_of_mem hm)
      obtain ⟨pages, hpages⟩ := ih _ hrank (n + 1) k' rfl (cursor_of_pageOf hgrows hpage k' rfl)
      exact ⟨_, .next hfetch hnext hpages⟩

theorem exists_follows : ∃ pages, Follows actorId bookingId limits dbs 0 none pages := by
  have hcursor : ∀ k, none = some k → ∃ m ∈ conversation bookingId (dbs 1), m.key = k := by
    rintro _ ⟨⟩
  obtain ⟨page, next, hfetch, hnext, hpage, -⟩ := fetch_spec (n := 0) none hbooking hactor hcursor
  cases next with
  | none => exact ⟨_, .last hfetch hnext⟩
  | some k =>
    obtain ⟨pages, hpages⟩ := exists_follows_after hgrows hbooking hactor _ 1 k rfl
      (cursor_of_pageOf hgrows hpage k rfl)
    exact ⟨_, .next hfetch hnext hpages⟩

/-- What a client gets are pages of the messages. -/
theorem Follows.pages {n : Nat} {cursor : Option Id} {pages : List BookingMessagePage}
    (h : Follows actorId bookingId limits dbs n cursor pages) :
    ∀ bound : Option MessageKey, cursor = bound.map (fun k => (ofLex k).2) →
      (∀ k, bound = some k → ∃ m ∈ conversation bookingId (dbs (3 * n + 1)), m.key = k) →
      Pages (Found bookingId dbs) n bound
          (pages.map fun page => (page.items.map keyOf).reverse) none ∧
        ∀ page ∈ pages, ∀ response ∈ page.items,
          ∃ i, 3 * n + 2 ≤ i ∧ ∃ m ∈ conversation bookingId (dbs i),
            response = toResponse actorId parties m.id m.content ∧ keyOf response = m.key := by
  induction h with
  | @last n cursor page h hend =>
    rintro bound rfl hbound
    have hget := (grows_le hgrows (Nat.zero_le (3 * n))).bookings _ _ hbooking
    obtain ⟨page', next, hfetch, hnext, hpage, hitems⟩ := fetch_spec bound hget hactor hbound
    obtain rfl := Except.ok.inj (h.symm.trans hfetch)
    have hnone : next = none := Option.map_eq_none_iff.mp (hnext.symm.trans hend)
    subst hnone
    refine ⟨.last hpage, fun page hmem response hresponse => ?_⟩
    rw [List.mem_singleton.mp hmem] at hresponse
    exact ⟨_, Nat.le_refl _, hitems response hresponse⟩
  | @next n cursor page c pages h hnext' _ ih =>
    rintro bound rfl hbound
    have hget := (grows_le hgrows (Nat.zero_le (3 * n))).bookings _ _ hbooking
    obtain ⟨page', next, hfetch, hnext, hpage, hitems⟩ := fetch_spec bound hget hactor hbound
    obtain rfl := Except.ok.inj (h.symm.trans hfetch)
    obtain ⟨k, rfl, rfl⟩ := Option.map_eq_some_iff.mp (hnext.symm.trans hnext')
    obtain ⟨hpages, hlater⟩ := ih (some k) rfl (cursor_of_pageOf hgrows hpage)
    refine ⟨.next hpage hpages, fun page hmem response hresponse => ?_⟩
    rcases List.mem_cons.mp hmem with rfl | hmem
    · exact ⟨_, Nat.le_refl _, hitems response hresponse⟩
    · obtain ⟨i, hi, hm⟩ := hlater page hmem response hresponse
      exact ⟨i, by omega, hm⟩

/-- **The pages together are the conversation.**  They come to an end; every message that was there
when the first page was read is on one of them, once; each page is ascending, and successive pages
descend. -/
theorem chat_pages_complete :
    (∃ pages, Follows actorId bookingId limits dbs 0 none pages) ∧
      ∀ pages, Follows actorId bookingId limits dbs 0 none pages →
        (∀ row ∈ (dbs 2).messages.rows, row.2.bookingId = bookingId →
          toResponse actorId parties row.1 row.2 ∈ pages.flatMap (·.items)) ∧
        ((pages.flatMap (·.items)).map (·.id)).Nodup ∧
        (∀ page ∈ pages, page.items.Pairwise fun a b => keyOf a < keyOf b) ∧
        pages.Pairwise fun p q => ∀ a ∈ p.items, ∀ b ∈ q.items, keyOf b < keyOf a := by
  refine ⟨exists_follows hgrows hbooking hactor, fun pages h => ?_⟩
  obtain ⟨hpages, hitems⟩ := h.pages hgrows hbooking hactor none rfl (by rintro _ ⟨⟩)
  have hsorted : ∀ page ∈ pages, page.items.Pairwise fun a b => keyOf a < keyOf b := by
    intro page hpage
    exact List.pairwise_map.mp (List.pairwise_reverse.mp
      (hpages.sorted _ (List.mem_map_of_mem hpage)))
  have hseparated : pages.Pairwise fun p q => ∀ a ∈ p.items, ∀ b ∈ q.items, keyOf b < keyOf a := by
    refine (List.pairwise_map.mp hpages.separated).imp fun {p q} hpq a ha b hb => ?_
    exact hpq _ (by simpa using ⟨a, ha, rfl⟩) _ (by simpa using ⟨b, hb, rfl⟩)
  -- a response stands for its message, whatever database it was read from
  have hsame : ∀ p ∈ pages, ∀ a ∈ p.items, ∀ q ∈ pages, ∀ b ∈ q.items, a.id = b.id →
      keyOf a = keyOf b := by
    intro p hp a ha q hq b hb hid
    obtain ⟨i, -, m, hm, rfl, hkey⟩ := hitems p hp a ha
    obtain ⟨j, -, m', hm', rfl, hkey'⟩ := hitems q hq b hb
    rw [hkey, hkey', List.inj_on_of_nodup_map nodup_conversation
      ((grows_le hgrows (Nat.le_max_left i j)).conversation hm)
      ((grows_le hgrows (Nat.le_max_right i j)).conversation hm') hid]
  refine ⟨fun row hrow hrowBooking => ?_, ?_, hsorted, hseparated⟩
  · have hm := mem_conversation.mpr ⟨row, hrow, hrowBooking, rfl⟩
    rcases hpages.complete (k := toLex (row.2.createdAt.1, row.1))
      (fun i _ _ => ⟨_, (grows_le hgrows (by omega)).conversation hm, rfl⟩)
      (by rintro _ ⟨⟩) with ⟨keys, hkeys, hk⟩ | ⟨c, hc, -⟩
    · obtain ⟨page, hpage, rfl⟩ := List.mem_map.mp hkeys
      obtain ⟨response, hresponse, hkey⟩ := List.mem_map.mp (List.mem_reverse.mp hk)
      obtain ⟨i, hi, m, hm', rfl, hkey'⟩ := hitems page hpage response hresponse
      have hid : m.id = row.1 := congrArg (fun k => (ofLex k).2) (hkey'.symm.trans hkey)
      have heq := List.inj_on_of_nodup_map nodup_conversation hm'
        ((grows_le hgrows (by omega)).conversation hm) hid
      rw [heq] at hresponse
      exact List.mem_flatMap.mpr ⟨page, hpage, hresponse⟩
    · cases hc
  · rw [List.Nodup, List.pairwise_map, List.pairwise_flatMap]
    refine ⟨fun page hpage => ?_, ?_⟩
    · refine (hsorted page hpage).imp_of_mem fun {a b} ha hb hlt hid => ?_
      exact hlt.ne (hsame page hpage a ha page hpage b hb hid)
    · refine hseparated.imp_of_mem fun {p q} hp hq hpq a ha b hb hid => ?_
      exact (hpq a ha b hb).ne' (hsame p hp a ha q hq b hb hid)

end Run

/-- A conversation of two messages of one millisecond. -/
def sampleChat : ChatDatabase where
  bookings := Table.empty.insert 1 ⟨2, 3⟩
  circumstances := ⟨fun _ => ⟨.confirmed, none⟩, fun _ => ⟨none, false⟩, []⟩
  messages := (Table.empty.insert 5 ⟨1, some 2, .borrower, some "a", "hi", ⟨7, by decide⟩⟩).insert 4
    ⟨1, some 3, .lender, some "b", "hello", ⟨7, by decide⟩⟩
  outbox := .empty

theorem chat_pages_complete_sample :
    ∃ pages, Follows 2 1 (fun _ => some ⟨1, by decide⟩) (fun _ => sampleChat) 0 none pages ∧
      ((pages.flatMap (·.items)).map (·.id)).Nodup := by
  obtain ⟨⟨pages, h⟩, hall⟩ := @chat_pages_complete 2 1 (fun _ => some ⟨1, by decide⟩)
    (fun _ => sampleChat) ⟨2, 3⟩ (fun _ => .refl) rfl (by decide)
  exact ⟨pages, h, (hall pages h).2.1⟩

end BookingMessageService

end Sosedi
