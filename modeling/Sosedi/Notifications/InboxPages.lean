import Mathlib.Logic.Relation
import Sosedi.Data.KeysetPages
import Sosedi.Notifications.InboxService

/-!
# Reading the unread inbox to its end

A client follows `nextCursor` with `unreadOnly`, while events arrive and are marked as read
between any two statements of the server.  A page without its first row goes on behind the
cursor only as long as the cursor's row is among the rows that the query finds.

Proved here:

* `afterCursor_spec`: what a query with a cursor finds;
* `fetch_spec`: each answer is a page of the unread rows;
* `inbox_pages_complete`: if no cursor has been left behind, the pages together have every event
  that stayed unread, once and in order;
* `unread_lost`: else an event is lost.
-/

namespace Sosedi

open Paging

namespace InboxService

/-- Any changes. -/
def Later : InboxTable → InboxTable → Prop :=
  Relation.ReflTransGen fun a b => ∃ c : InboxChange, b = c.apply a

variable (recipientId : Id) (limits : Nat → Option Mobile.PageLimit) (tables : Nat → InboxTable)

/-- The answer to the `n`-th request; `tables` are the tables that the statements read. -/
def fetch (n : Nat) (cursor : Option Id) : Except Error InboxPageResponse :=
  listPage recipientId ⟨limits n, cursor, true⟩ (tables (2 * n)) (tables (2 * n + 1))

/-- The pages that a client gets from the `n`-th request on, till there is no next cursor or a
request fails.  Each query satisfies `cond`. -/
inductive Follows (cond : Option Id → InboxTable → Prop) :
    Nat → Option Id → List InboxPageResponse → Option Error → Prop where
  | failed {n : Nat} {cursor : Option Id} {e : Error} (hc : cond cursor (tables (2 * n + 1)))
      (h : fetch recipientId limits tables n cursor = .error e) : Follows cond n cursor [] (some e)
  | last {n : Nat} {cursor : Option Id} {page : InboxPageResponse}
      (hc : cond cursor (tables (2 * n + 1)))
      (h : fetch recipientId limits tables n cursor = .ok page) (hend : page.nextCursor = none) :
      Follows cond n cursor [page] none
  | next {n : Nat} {cursor : Option Id} {page : InboxPageResponse} {c : Id}
      {pages : List InboxPageResponse} {failure : Option Error}
      (hc : cond cursor (tables (2 * n + 1)))
      (h : fetch recipientId limits tables n cursor = .ok page)
      (hnext : page.nextCursor = some c) (rest : Follows cond (n + 1) (some c) pages failure) :
      Follows cond n cursor (page :: pages) failure

/-- The row of the cursor is still unread, or no unread event comes after it. -/
def Anchored (recipientId : Id) (cursor : Option Id) (table : InboxTable) : Prop :=
  ∀ c, cursor = some c → ∃ row, table.get c = some row ∧ (row.readAt = none ∨
    ∀ r ∈ table.rows, matchesQuery recipientId true r → ¬ inboxKey r < inboxKey (c, row))

/-- The keys of the unread rows. -/
def Unread (recipientId : Id) (table : InboxTable) (k : InboxKey) : Prop :=
  ∃ row ∈ table.rows, matchesQuery recipientId true row ∧ inboxKey row = k

/-! ## Rows -/

section Rows

variable {recipientId} {table a b : InboxTable} {id : Id} {row : InboxRow}

/-- A row stays, and only its `readAt` changes. -/
theorem get_apply (c : InboxChange) (h : table.get id = some row) :
    ∃ row', (c.apply table).get id = some row' ∧ row'.core = row.core := by
  cases c with
  | arrive id' eventId recipientId event => exact ⟨row, Table.get_insert_of_get h, rfl⟩
  | markRead id' seen now =>
    simp only [InboxChange.apply, Table.get_modify, h]
    by_cases hid : id = id'
    · exact ⟨_, if_pos hid, rfl⟩
    · exact ⟨_, if_neg hid, rfl⟩
  | markAllRead recipientId now =>
    simp only [InboxChange.apply, readWhere, Table.get_mapRows, h, Option.map_some]
    refine ⟨_, rfl, ?_⟩
    split <;> rfl
  | markMessagesRead recipientId bookingId now =>
    simp only [InboxChange.apply, readWhere, Table.get_mapRows, h, Option.map_some]
    refine ⟨_, rfl, ?_⟩
    split <;> rfl

theorem Later.get (hl : Later a b) (h : a.get id = some row) :
    ∃ row', b.get id = some row' ∧ row'.core = row.core := by
  induction hl with
  | refl => exact ⟨row, h, rfl⟩
  | tail _ hc ih =>
    obtain ⟨c, rfl⟩ := hc
    obtain ⟨row₁, hget, hcore⟩ := ih
    obtain ⟨row₂, hget₂, hcore₂⟩ := get_apply c hget
    exact ⟨row₂, hget₂, hcore₂.trans hcore⟩

theorem inboxKey_congr {row' : InboxRow} (h : row'.core = row.core) :
    inboxKey (id, row') = inboxKey (id, row) := by
  show (toLex (row'.core.event.createdAt, id) : InboxKey) = toLex (row.core.event.createdAt, id)
  rw [h]

theorem recipientId_congr {row' : InboxRow} (h : row'.core = row.core) :
    row'.recipientId = row.recipientId := by
  show row'.core.recipientId = row.core.recipientId
  rw [h]

theorem mem_ordered {r : Id × InboxRow} : r ∈ ordered recipientId true table ↔
    r ∈ table.rows ∧ matchesQuery recipientId true r = true := by
  rw [ordered, List.mem_insertionSort, List.mem_filter]

theorem pairwise_ordered (recipientId : Id) (table : InboxTable) :
    (ordered recipientId true table).Pairwise fun a b => inboxKey b < inboxKey a := by
  have hnodup : ((table.rows.filter (matchesQuery recipientId true)).map inboxKey).Nodup := by
    have hids := table.nodup.sublist (List.filter_sublist (p := matchesQuery recipientId true)
      (l := table.rows) |>.map Prod.fst)
    exact List.Nodup.of_map (fun k => (ofLex k).2) (by rw [List.map_map]; exact hids)
  exact List.pairwise_map.mp (descending_insertionSort inboxKey hnodup)

/-- The bound is the key of a row. -/
def IsRow (recipientId : Id) (table : InboxTable) (bound : Option InboxKey) : Prop :=
  ∀ k, bound = some k → ∃ row, table.get (ofLex k).2 = some row ∧ row.recipientId = recipientId ∧
    inboxKey ((ofLex k).2, row) = k

/-- **What a query finds**: the unread rows before the bound, in descending order. -/
theorem afterCursor_spec {bound : Option InboxKey} (hbound : IsRow recipientId table bound)
    (h : Anchored recipientId (bound.map fun k => (ofLex k).2) table) :
    (afterCursor table (bound.map fun k => (ofLex k).2)
        (ordered recipientId true table)).Pairwise (fun a b => inboxKey b < inboxKey a) ∧
      ∀ r, r ∈ afterCursor table (bound.map fun k => (ofLex k).2)
          (ordered recipientId true table) ↔
        r ∈ ordered recipientId true table ∧ Before bound (inboxKey r) := by
  cases bound with
  | none => exact ⟨pairwise_ordered recipientId table, fun r => by simp [afterCursor, Before]⟩
  | some k =>
    obtain ⟨row, hget, hrecipient, hkey⟩ := hbound k rfl
    obtain ⟨row', hget', hrow⟩ := h _ rfl
    obtain rfl := Option.some.inj (hget.symm.trans hget')
    rw [hkey] at hrow
    have hfound : afterCursor table ((some k).map fun k => (ofLex k).2)
        (ordered recipientId true table) =
          ((ordered recipientId true table).filter fun r => inboxKey r ≤ k).drop 1 := by
      simp only [afterCursor, Option.map_some, hget, hkey]
    have hsorted : ((ordered recipientId true table).filter fun r => inboxKey r ≤ k).Pairwise
        fun a b => inboxKey b < inboxKey a :=
      (pairwise_ordered recipientId table).sublist List.filter_sublist
    have hle : ∀ r ∈ (ordered recipientId true table).filter (fun r => inboxKey r ≤ k),
        inboxKey r ≤ k := fun r hr => by simpa using (List.mem_filter.mp hr).2
    have hfirst : (∃ r ∈ (ordered recipientId true table).filter (fun r => inboxKey r ≤ k),
        inboxKey r = k) ∨ ∀ r ∈ (ordered recipientId true table).filter (fun r => inboxKey r ≤ k),
          ¬ inboxKey r < k := by
      rcases hrow with hunread | hnone
      · refine Or.inl ⟨((ofLex k).2, row), List.mem_filter.mpr ⟨mem_ordered.mpr
          ⟨Table.get_eq_some.mp hget, ?_⟩, by simp [hkey]⟩, hkey⟩
        simp [matchesQuery, hrecipient, hunread]
      · refine Or.inr fun r hr => ?_
        obtain ⟨hmem, hmatch⟩ := mem_ordered.mp (List.mem_of_mem_filter hr)
        exact hnone r hmem hmatch
    rw [hfound]
    refine ⟨hsorted.sublist (List.drop_sublist 1 _), fun r => ?_⟩
    rw [mem_drop_one hsorted hle hfirst, List.mem_filter]
    simp only [Before, Option.some.injEq, forall_eq', decide_eq_true_eq]
    exact ⟨fun hr => ⟨hr.1.1, hr.2⟩, fun hr => ⟨⟨hr.1, hr.2.le⟩, hr.2⟩⟩

theorem IsRow.later {bound : Option InboxKey} (h : IsRow recipientId a bound) (hl : Later a b) :
    IsRow recipientId b bound := by
  intro k hk
  obtain ⟨row, hget, hrecipient, hkey⟩ := h k hk
  obtain ⟨row', hget', hcore⟩ := hl.get hget
  exact ⟨row', hget', (recipientId_congr hcore).trans hrecipient, (inboxKey_congr hcore).trans hkey⟩

end Rows

/-! ## One answer -/

theorem pageOf_eq (limit : Nat) (found : List (Id × InboxRow)) : pageOf limit found =
    ⟨(found.take limit).map toResponse,
      if limit < found.length then (found.take limit).getLast?.map Prod.fst else none⟩ := by
  simp only [pageOf, List.length_take, List.take_take]
  by_cases hmore : limit < found.length
  · have hlength : limit < min (limit + 1) found.length := by omega
    rw [if_pos hlength, if_pos hlength, if_pos hmore, Nat.min_eq_left (Nat.le_succ limit)]
  · have hlength : ¬ limit < min (limit + 1) found.length := by omega
    rw [if_neg hlength, if_neg hlength, if_neg hmore, List.take_of_length_le (by omega),
      List.take_of_length_le (by omega)]

variable {recipientId limits tables} {n : Nat}

/-- **An answer is a page** of the unread rows. -/
theorem fetch_spec (bound : Option InboxKey) (hbound : IsRow recipientId (tables (2 * n)) bound)
    (hlater : Later (tables (2 * n)) (tables (2 * n + 1)))
    (hanchored : Anchored recipientId (bound.map fun k => (ofLex k).2) (tables (2 * n + 1))) :
    ∃ (rows : List (Id × InboxRow)) (next : Option InboxKey),
      fetch recipientId limits tables n (bound.map fun k => (ofLex k).2) =
        .ok ⟨rows.map toResponse, next.map fun k => (ofLex k).2⟩ ∧
      PageOf (Unread recipientId (tables (2 * n + 1))) bound (rows.map inboxKey) next ∧
      ∀ row ∈ rows, row ∈ (tables (2 * n + 1)).rows ∧ row.2.recipientId = recipientId := by
  obtain ⟨hsorted, hmem⟩ := afterCursor_spec (hbound.later hlater) hanchored
  have hcheck : ¬ (bound.map fun k => (ofLex k).2).any (fun cursor =>
      !((tables (2 * n)).get cursor).any (·.recipientId == recipientId)) = true := by
    cases bound with
    | none => simp
    | some k =>
      obtain ⟨row, hget, hrecipient, -⟩ := hbound k rfl
      simp [hget, hrecipient]
  generalize hfound : afterCursor (tables (2 * n + 1)) (bound.map fun k => (ofLex k).2)
    (ordered recipientId true (tables (2 * n + 1))) = found at hsorted hmem
  have hkeys : ∀ k, k ∈ found.map inboxKey ↔
      Unread recipientId (tables (2 * n + 1)) k ∧ Before bound k := by
    intro k
    simp only [List.mem_map, hmem, mem_ordered, Unread]
    constructor
    · rintro ⟨r, ⟨⟨hr, hmatch⟩, hbefore⟩, rfl⟩
      exact ⟨⟨r, hr, hmatch, rfl⟩, hbefore⟩
    · rintro ⟨⟨r, hr, hmatch, rfl⟩, hbefore⟩
      exact ⟨r, ⟨⟨hr, hmatch⟩, hbefore⟩, rfl⟩
  have hpage := PageOf.of_take (List.pairwise_map.mpr hsorted) hkeys
    ((limits n).getD DEFAULT_PAGE_LIMIT).pos
  rw [List.length_map, ← List.map_take, List.getLast?_map] at hpage
  refine ⟨_, _, ?_, hpage, fun row hrow => ?_⟩
  · rw [fetch, listPage, if_neg hcheck, hfound, pageOf_eq]
    by_cases hmore : ((limits n).getD DEFAULT_PAGE_LIMIT).limit < found.length
    · simp only [if_pos hmore, Option.map_map]
      rfl
    · simp only [if_neg hmore, Option.map_none]
  · obtain ⟨hr, hmatch⟩ := mem_ordered.mp ((hmem row).mp (List.mem_of_mem_take hrow)).1
    simp only [matchesQuery, Bool.and_eq_true, beq_iff_eq] at hmatch
    exact ⟨hr, hmatch.1⟩

/-! ## All answers -/

section Run

variable (hlater : ∀ n, Later (tables n) (tables (n + 1)))
include hlater

theorem later_le {i j : Nat} (hij : i ≤ j) : Later (tables i) (tables j) := by
  induction hij with
  | refl => exact .refl
  | step _ ih => exact ih.trans (hlater _)

/-- What a client gets are pages of the unread rows. -/
theorem Follows.pages {cursor : Option Id} {pages : List InboxPageResponse}
    {failure : Option Error}
    (h : Follows recipientId limits tables (Anchored recipientId) n cursor pages failure) :
    ∀ bound : Option InboxKey, cursor = bound.map (fun k => (ofLex k).2) →
      IsRow recipientId (tables (2 * n)) bound → failure = none ∧
        ∃ rows : List (List (Id × InboxRow)),
          Pages (fun i => Unread recipientId (tables (2 * i + 1))) n bound
            (rows.map (·.map inboxKey)) none ∧
          pages.map (·.items) = rows.map (·.map toResponse) ∧
          ∀ page ∈ rows, ∀ row ∈ page, row.2.recipientId = recipientId ∧
            ∃ i, row ∈ (tables i).rows := by
  induction h with
  | @failed n cursor e hc h =>
    rintro bound rfl hbound
    obtain ⟨_, _, hfetch, -⟩ := fetch_spec bound hbound (hlater _) hc
    cases h.symm.trans hfetch
  | @last n cursor page hc h hend =>
    rintro bound rfl hbound
    obtain ⟨rows, next, hfetch, hpage, hrows⟩ := fetch_spec bound hbound (hlater _) hc
    obtain rfl := Except.ok.inj (h.symm.trans hfetch)
    obtain rfl : next = none := Option.map_eq_none_iff.mp hend
    refine ⟨rfl, [rows], .last hpage, rfl, fun page hpage row hrow => ?_⟩
    rw [List.mem_singleton.mp hpage] at hrow
    exact ⟨(hrows row hrow).2, _, (hrows row hrow).1⟩
  | @next n cursor page c pages failure hc h hnext _ ih =>
    rintro bound rfl hbound
    obtain ⟨rows, next, hfetch, hpage, hrows⟩ := fetch_spec bound hbound (hlater _) hc
    obtain rfl := Except.ok.inj (h.symm.trans hfetch)
    obtain ⟨k, rfl, rfl⟩ := Option.map_eq_some_iff.mp hnext
    have hrow : IsRow recipientId (tables (2 * (n + 1))) (some k) := by
      refine IsRow.later ?_ (later_le hlater (show 2 * n + 1 ≤ 2 * (n + 1) by omega))
      rintro _ ⟨⟩
      obtain ⟨row, hrow, rfl⟩ := List.mem_map.mp (hpage.next k rfl).1
      exact ⟨row.2, Table.get_eq_some.mpr (hrows row hrow).1, (hrows row hrow).2, rfl⟩
    obtain ⟨rfl, later, hpages, hitems, hlaterRows⟩ := ih (some k) rfl hrow
    refine ⟨rfl, rows :: later, .next hpage hpages, by simp [hitems], fun page hpage row hrow => ?_⟩
    rcases List.mem_cons.mp hpage with rfl | hpage
    · exact ⟨(hrows row hrow).2, _, (hrows row hrow).1⟩
    · exact hlaterRows page hpage row hrow

/-- **The pages together are the unread inbox**, if no cursor has been left behind: no request
fails, and every event that was there when the first page was read and is still unread when each
of the pages is read is on one of them, once, in descending order. -/
theorem inbox_pages_complete {pages : List InboxPageResponse} {failure : Option Error}
    (h : Follows recipientId limits tables (Anchored recipientId) 0 none pages failure) :
    failure = none ∧ ∃ rows : List (Id × InboxRow),
      pages.flatMap (·.items) = rows.map toResponse ∧
      (rows.Pairwise fun a b => inboxKey b < inboxKey a) ∧ (rows.map Prod.fst).Nodup ∧
      (∀ row ∈ rows, row.2.recipientId = recipientId) ∧
      ∀ id row, (tables 1).get id = some row → row.recipientId = recipientId →
        (∀ i < pages.length, ∃ row', (tables (2 * i + 1)).get id = some row' ∧
          row'.readAt = none) → id ∈ rows.map Prod.fst := by
  obtain ⟨rfl, rows, hpages, hitems, hrows⟩ :=
    h.pages hlater none rfl (by rintro _ ⟨⟩)
  have hkeys : (rows.flatten.map inboxKey).Pairwise fun a b => b < a := by
    rw [List.map_flatten]
    exact hpages.descending
  have hsorted := List.pairwise_map.mp hkeys
  have hmem : ∀ row ∈ rows.flatten, row.2.recipientId = recipientId ∧
      ∃ i, row ∈ (tables i).rows := by
    intro row hrow
    obtain ⟨page, hpage, hrow⟩ := List.mem_flatten.mp hrow
    exact hrows page hpage row hrow
  refine ⟨rfl, rows.flatten, ?_, hsorted, ?_, fun row hrow => (hmem row hrow).1, ?_⟩
  · rw [List.flatMap_def, hitems, List.map_flatten]
  · rw [List.Nodup, List.pairwise_map]
    refine hsorted.imp_of_mem fun {a b} ha hb hlt hid => hlt.ne' ?_
    obtain ⟨-, i, hi⟩ := hmem a ha
    obtain ⟨-, j, hj⟩ := hmem b hb
    obtain ⟨rowA, hgetA, hcoreA⟩ := (later_le hlater (Nat.le_max_left i j)).get
      (Table.get_eq_some.mpr hi)
    obtain ⟨rowB, hgetB, hcoreB⟩ := (later_le hlater (Nat.le_max_right i j)).get
      (Table.get_eq_some.mpr hj)
    rw [hid] at hgetA
    obtain rfl := Option.some.inj (hgetA.symm.trans hgetB)
    have hkeyA : inboxKey (a.1, rowA) = inboxKey a := inboxKey_congr hcoreA
    have hkeyB : inboxKey (b.1, rowA) = inboxKey b := inboxKey_congr hcoreB
    rw [← hkeyA, ← hkeyB, hid]
  · intro id row hget hrecipient hunread
    have hlength : rows.length = pages.length := by
      simpa using (congrArg List.length hitems).symm
    have hfound : ∀ i, 0 ≤ i → i < 0 + (rows.map (·.map inboxKey)).length →
        Unread recipientId (tables (2 * i + 1)) (inboxKey (id, row)) := by
      intro i _ hi
      rw [List.length_map, Nat.zero_add, hlength] at hi
      obtain ⟨row', hget', hread⟩ := hunread i hi
      obtain ⟨row₁, hget₁, hcore⟩ := (later_le hlater (show 1 ≤ 2 * i + 1 by omega)).get hget
      obtain rfl := Option.some.inj (hget'.symm.trans hget₁)
      refine ⟨(id, row'), Table.get_eq_some.mp hget', ?_, inboxKey_congr hcore⟩
      simp [matchesQuery, recipientId_congr hcore, hrecipient, hread]
    rcases hpages.complete hfound (by rintro _ ⟨⟩) with ⟨keys, hkeys, hk⟩ | ⟨c, hc, -⟩
    · obtain ⟨page, hpage, rfl⟩ := List.mem_map.mp hkeys
      obtain ⟨r, hr, hkey⟩ := List.mem_map.mp hk
      have hid : r.1 = id := congrArg (fun k => (ofLex k).2) hkey
      exact List.mem_map.mpr ⟨r, List.mem_flatten.mpr ⟨page, hpage, hr⟩, hid⟩
    · cases hc

end Run

/-! ## An inbox of three events -/

namespace Sample

def event (createdAt : Time) : InboxEvent := ⟨some 1, none, none, "BOOKING_CONFIRMED", createdAt⟩

/-- Three unread events of user 2. -/
def table : InboxTable :=
  ((InboxChange.arrive 3 13 2 (event 30)).apply ((InboxChange.arrive 2 12 2 (event 20)).apply
    ((InboxChange.arrive 1 11 2 (event 10)).apply .empty)))

/-- The user opens the newest event after the first page. -/
def opened (n : Nat) : InboxTable :=
  if n ≤ 1 then table else (InboxChange.markRead 3 none 40).apply table

def one (_ : Nat) : Option Mobile.PageLimit := some ⟨1, by decide⟩

def response (eventId : Id) (createdAt : Time) : InboxEventResponse :=
  ⟨eventId, event createdAt, none⟩

theorem later_opened (n : Nat) : Later (opened n) (opened (n + 1)) := by
  unfold opened
  by_cases h : n + 1 ≤ 1
  · rw [if_pos h, if_pos (by omega)]
    exact .refl
  · by_cases h' : n ≤ 1
    · rw [if_neg h, if_pos h']
      exact .single ⟨_, rfl⟩
    · rw [if_neg h, if_neg h']
      exact .refl

theorem inbox_pages_complete_sample : ∃ pages,
    Follows 2 one (fun _ => table) (Anchored 2) 0 none pages none ∧ pages.length = 3 ∧
    ∃ rows : List (Id × InboxRow), pages.flatMap (·.items) = rows.map toResponse ∧
      (rows.map Prod.fst).Nodup := by
  have hanchored : ∀ c row, table.get c = some row → row.readAt = none →
      Anchored 2 (some c) table := by
    rintro c row hget hread _ ⟨⟩
    exact ⟨row, hget, .inl hread⟩
  have h : Follows 2 one (fun _ => table) (Anchored 2) 0 none
      [⟨[response 13 30], some 3⟩, ⟨[response 12 20], some 2⟩, ⟨[response 11 10], none⟩] none :=
    .next (by rintro _ ⟨⟩) rfl rfl (.next (hanchored 3 _ rfl rfl) rfl rfl
      (.last (hanchored 2 _ rfl rfl) rfl rfl))
  obtain ⟨-, rows, hitems, -, hnodup, -⟩ := @inbox_pages_complete 2 one (fun _ => table) (fun _ => .refl) _ _ h
  exact ⟨_, h, rfl, rows, hitems, hnodup⟩

/-- The second event stays unread and is on no page. -/
theorem unread_lost : ∃ pages, Follows 2 one opened (fun _ _ => True) 0 none pages none ∧
    (∀ n, Later (opened n) (opened (n + 1))) ∧
    (∀ n, ∃ row, (opened n).get 2 = some row ∧ row.recipientId = 2 ∧ row.eventId = 12 ∧
      row.readAt = none) ∧
    ∀ item ∈ pages.flatMap (·.items), item.eventId ≠ 12 := by
  refine ⟨[⟨[response 13 30], some 3⟩, ⟨[response 11 10], none⟩],
    .next trivial rfl rfl (.last trivial rfl rfl), later_opened, fun n => ?_, by decide⟩
  unfold opened
  split
  · exact ⟨_, rfl, rfl, rfl, rfl⟩
  · exact ⟨_, rfl, rfl, rfl, rfl⟩

end Sample

end InboxService

end Sosedi
