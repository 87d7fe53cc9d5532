import Mathlib.Data.List.Sort
import Mathlib.Data.Prod.Lex
import Sosedi.Mobile.BookingChat
import Sosedi.Notifications.Tables

/-!
# The service of the inbox

`listPage` of `InboxService`, and what changes the rows that it reads.  A query with a cursor
returns the filtered rows from the position of the cursor's row on, wherever that row itself is.
-/

namespace Sosedi

/-- A row of `inbox_events`. -/
structure InboxRow where
  eventId : Id
  recipientId : Id
  event : InboxEvent
  readAt : Option Time
  deriving DecidableEq

/-- All but `readAt`. -/
def InboxRow.core (row : InboxRow) : InboxRow := { row with readAt := none }

abbrev InboxTable := Table Id InboxRow

namespace InboxService

def DEFAULT_PAGE_LIMIT : Mobile.PageLimit := ⟨20, by decide⟩

structure InboxPageQueryDto where
  limit : Option Mobile.PageLimit
  cursor : Option Id
  unreadOnly : Bool

structure InboxEventResponse where
  eventId : Id
  event : InboxEvent
  readAt : Option Time
  deriving DecidableEq

structure InboxPageResponse where
  items : List InboxEventResponse
  nextCursor : Option Id
  deriving DecidableEq

abbrev InboxKey := Int ×ₗ Nat

/-- `orderBy: [{ createdAt: 'desc' }, { id: 'desc' }]` compares these. -/
def inboxKey (row : Id × InboxRow) : InboxKey := toLex (row.2.event.createdAt, row.1)

def toResponse (row : Id × InboxRow) : InboxEventResponse where
  eventId := row.2.eventId
  event := row.2.event
  readAt := row.2.readAt

/-- `where: { recipientId, readAt: null }`, the second with `unreadOnly` only. -/
def matchesQuery (recipientId : Id) (unreadOnly : Bool) (row : Id × InboxRow) : Bool :=
  row.2.recipientId == recipientId && (!unreadOnly || row.2.readAt.isNone)

def ordered (recipientId : Id) (unreadOnly : Bool) (table : InboxTable) : List (Id × InboxRow) :=
  (table.rows.filter (matchesQuery recipientId unreadOnly)).insertionSort
    fun a b => inboxKey b ≤ inboxKey a

/-- The rows at or after the position of the cursor's row, and without the first of them. -/
def afterCursor (table : InboxTable) (cursor : Option Id) (rows : List (Id × InboxRow)) :
    List (Id × InboxRow) :=
  match cursor with
  | none => rows
  | some cursor =>
    match table.get cursor with
    | none => []
    | some row => (rows.filter fun r => inboxKey r ≤ inboxKey (cursor, row)).drop 1

/-- The page of the rows that a query finds. -/
def pageOf (limit : Nat) (found : List (Id × InboxRow)) : InboxPageResponse :=
  let rows := found.take (limit + 1)
  let hasMore := limit < rows.length
  let pageRows := if hasMore then rows.take limit else rows
  { items := pageRows.map toResponse
    nextCursor := if hasMore then pageRows.getLast?.map Prod.fst else none }

def pageNotFound : Error := .notFound "Страница событий не найдена"

/-- Each of the two statements reads a table of its own. -/
def listPage (recipientId : Id) (query : InboxPageQueryDto) (table₀ table₁ : InboxTable) :
    Except Error InboxPageResponse :=
  if query.cursor.any fun cursor => !(table₀.get cursor).any (·.recipientId == recipientId) then
    .error pageNotFound
  else
    .ok (pageOf (query.limit.getD DEFAULT_PAGE_LIMIT).limit
      (afterCursor table₁ query.cursor (ordered recipientId query.unreadOnly table₁)))

/-! ## Changes -/

/-- What happens to the inbox between two statements. -/
inductive InboxChange where
  | arrive (id eventId recipientId : Id) (event : InboxEvent)
  /-- `markRead` has read `seen` in the row `id`. -/
  | markRead (id : Id) (seen : Option Time) (now : Time)
  | markAllRead (recipientId : Id) (now : Time)
  /-- `markRead` of the messages of a booking. -/
  | markMessagesRead (recipientId bookingId : Id) (now : Time)
  deriving DecidableEq

/-- `updateMany` of the unread rows that match. -/
def readWhere (p : InboxRow → Bool) (now : Time) (table : InboxTable) : InboxTable :=
  table.mapRows fun _ row =>
    if p row && row.readAt.isNone then { row with readAt := some now } else row

def InboxChange.apply : InboxChange → InboxTable → InboxTable
  | arrive id eventId recipientId event, table =>
    table.insert id { eventId, recipientId, event, readAt := none }
  | markRead id seen now, table =>
    table.modify id fun row => { row with readAt := some (seen.getD now) }
  | markAllRead recipientId now, table => readWhere (·.recipientId == recipientId) now table
  | markMessagesRead recipientId bookingId now, table =>
    readWhere (fun row => row.recipientId == recipientId && row.event.bookingId == some bookingId &&
      row.event.eventType == "BOOKING_MESSAGE_CREATED") now table

end InboxService

end Sosedi
