import Mathlib.Data.List.Sort
import Mathlib.Data.Prod.Lex
import Sosedi.Async.EventLoop
import Sosedi.Data.Windows
import Sosedi.Mobile.Riverpod

/-!
# The chat of a booking

The screen shows the latest page, which every reload replaces, and the older pages, which it keeps
in a list and a cursor of their own.

Proved here:

* `window_pageOf`, `continues_pageOf`: what the server answers;
* `mem_mergeMessages`, `sorted_mergeMessages`: what the screen makes of the two lists;
* `ChatInv.call`, `ChatInv.answer`: every event keeps the invariant, where the latest page still
  begins with the message before which older ones were asked for;
* `chat_complete`: the messages shown have no gap.
-/

namespace Sosedi

open Async Paging

namespace Mobile

structure BookingMessage (Content : Type) where
  id : Id
  createdAt : Int
  content : Content
  deriving DecidableEq

variable {Content : Type}

namespace BookingMessage

/-- The order of the messages. -/
def key (m : BookingMessage Content) : Int ×ₗ Nat := toLex (m.createdAt, m.id)

end BookingMessage

open BookingMessage

structure BookingMessagePage (Content : Type) where
  items : List (BookingMessage Content)
  nextCursor : Option Id
  deriving DecidableEq

structure PageLimit where
  limit : Nat
  pos : 0 < limit

/-! ## The server -/

/-- `createdAt` before that of `after`, or the same and a smaller id. -/
def isBefore (after m : BookingMessage Content) : Bool :=
  m.createdAt < after.createdAt || (m.createdAt = after.createdAt && m.id < after.id)

/-- `orderBy: [{ createdAt: 'desc' }, { id: 'desc' }]`. -/
def newestFirst (a b : BookingMessage Content) : Prop :=
  b.createdAt < a.createdAt ∨ b.createdAt = a.createdAt ∧ b.id ≤ a.id

instance : DecidableRel (@newestFirst Content) :=
  fun _ _ => inferInstanceAs (Decidable (_ ∨ _))

/-- The page of the rows that a query finds. -/
def pageOf (limit : Nat) (found : List (BookingMessage Content)) : BookingMessagePage Content :=
  let rows := (found.insertionSort newestFirst).take (limit + 1)
  let hasMore := limit < rows.length
  let visible := (if hasMore then rows.take limit else rows).reverse
  { items := visible
    nextCursor := if hasMore then visible.head?.map (·.id) else none }

/-- `BookingMessageService.list`. -/
def listMessages (conversation : List (BookingMessage Content)) (limit : Nat)
    (cursor : Option Id) : Except Thrown (BookingMessagePage Content) :=
  match cursor with
  | none => .ok (pageOf limit conversation)
  | some cursor =>
    match conversation.find? (·.id = cursor) with
    | none => .error (.apiException "INVALID_MESSAGE_CURSOR" "Курсор сообщений недействителен")
    | some after => .ok (pageOf limit (conversation.filter (isBefore after)))

/-! ## The screen -/

/-- `{for (final value in values) value.id: value}.values`: the last value of an id, where its
first one stood. -/
def valuesById (values : List (BookingMessage Content)) : List (BookingMessage Content) :=
  values.foldl (fun byId value =>
    if byId.any (·.id = value.id) then byId.map fun x => if x.id = value.id then value else x
    else byId ++ [value]) []

def oldestFirst (left right : BookingMessage Content) : Prop := newestFirst right left

instance : DecidableRel (@oldestFirst Content) :=
  fun left right => inferInstanceAs (Decidable (newestFirst right left))

def mergeMessages (values : List (BookingMessage Content)) : List (BookingMessage Content) :=
  (valuesById values).insertionSort oldestFirst

/-- The server's messages and the state of the screen. -/
structure BookingChat (Content : Type) where
  conversation : List (BookingMessage Content)
  /-- The loads of the latest page so far: the answer of the last one counts. -/
  reloads : Nat
  /-- What the last load that counted completed with. -/
  latest : Option (Except Thrown (BookingMessagePage Content))
  olderMessages : List (BookingMessage Content) := []
  olderCursor : Option Id := none
  loadedOlder : Bool := false
  loadingOlder : Bool := false
  /-- Not in the source: the cursor with which the older messages that are kept began. -/
  firstCursor : Option Id := none

inductive ChatCall (Content : Type) where
  /-- A message arrives at the server. -/
  | arrive (m : BookingMessage Content)
  | reload
  | loadOlder
  deriving DecidableEq

inductive ChatWait (Content : Type) where
  | latest (number : Nat)
  | latestPage (number : Nat) (next : Except Thrown (BookingMessagePage Content))
  | older (cursor : Id)
  | olderPage (cursor : Id) (next : Except Thrown (BookingMessagePage Content))
  deriving DecidableEq

inductive ChatAnswer where
  /-- The server makes its answer. -/
  | served
  /-- The answer arrives. -/
  | arrives
  | failed (error : Thrown)
  deriving DecidableEq

namespace BookingChat

variable (c : BookingChat Content)

/-- The messages on the screen, where the latest page is shown as data. -/
def messages (page : BookingMessagePage Content) : List (BookingMessage Content) :=
  mergeMessages (c.olderMessages ++ page.items)

def nextCursor (page : BookingMessagePage Content) : Option Id :=
  if c.loadedOlder then c.olderCursor else page.nextCursor

def arrive (m : BookingMessage Content) : BookingChat Content :=
  if c.conversation.any (·.id = m.id) then c else { c with conversation := m :: c.conversation }

def reload : BookingChat Content × List (ChatWait Content) :=
  ({ c with reloads := c.reloads + 1 }, [.latest (c.reloads + 1)])

def reloaded (number : Nat) (next : Except Thrown (BookingMessagePage Content)) :
    BookingChat Content :=
  if number = c.reloads then { c with latest := some next } else c

def loadOlder : BookingChat Content × List (ChatWait Content) :=
  match c.latest with
  | some (.ok page) =>
    match c.nextCursor page with
    | some cursor =>
      if c.loadingOlder then (c, [])
      else
        ({ c with
          loadingOlder := true
          firstCursor := if c.loadedOlder then c.firstCursor else some cursor },
          [.older cursor])
    | none => (c, [])
  | _ => (c, [])

def olderLoaded (next : Except Thrown (BookingMessagePage Content)) : BookingChat Content :=
  match next with
  | .ok page => { c with
      olderMessages := page.items ++ c.olderMessages
      olderCursor := page.nextCursor
      loadedOlder := true
      loadingOlder := false }
  | .error _ => { c with loadingOlder := false }

def call : ChatCall Content → BookingChat Content × List (ChatWait Content)
  | .arrive m => (arrive c m, [])
  | .reload => reload c
  | .loadOlder => loadOlder c

def resume (limit : PageLimit) (w : ChatWait Content) (a : ChatAnswer) :
    Option (BookingChat Content × List (ChatWait Content)) :=
  match w, a with
  | .latest number, .served =>
    some (c, [.latestPage number (listMessages c.conversation limit.limit none)])
  | .latest number, .failed e => some (reloaded c number (.error e), [])
  | .latestPage number next, .arrives => some (reloaded c number next, [])
  | .latestPage number _, .failed e => some (reloaded c number (.error e), [])
  | .older cursor, .served =>
    some (c, [.olderPage cursor (listMessages c.conversation limit.limit (some cursor))])
  | .older _, .failed e => some (olderLoaded c (.error e), [])
  | .olderPage _ next, .arrives => some (olderLoaded c next, [])
  | .olderPage _ _, .failed e => some (olderLoaded c (.error e), [])
  | _, _ => none

end BookingChat

/-! ## What is answered and what is shown -/

theorem newestFirst_iff {a b : BookingMessage Content} : newestFirst a b ↔ key b ≤ key a := by
  rw [key, key, Prod.Lex.toLex_le_toLex]
  rfl

theorem isBefore_iff {after m : BookingMessage Content} :
    isBefore after m = true ↔ key m < key after := by
  rw [key, key, Prod.Lex.toLex_lt_toLex]
  simp [isBefore]

instance : Std.Total (@newestFirst Content) :=
  ⟨fun a b => by simpa only [newestFirst_iff] using le_total (key b) (key a)⟩

instance : IsTrans (BookingMessage Content) newestFirst :=
  ⟨fun _ _ _ hab hbc => newestFirst_iff.mpr
    ((newestFirst_iff.mp hbc).trans (newestFirst_iff.mp hab))⟩

instance : Std.Total (@oldestFirst Content) :=
  ⟨fun a b => (total_of newestFirst a b).symm⟩

instance : IsTrans (BookingMessage Content) oldestFirst :=
  ⟨fun _ _ _ hab hbc => IsTrans.trans (r := newestFirst) _ _ _ hbc hab⟩

/-- A table whose rows differ in their ids. -/
theorem key_injective {table : List (BookingMessage Content)}
    (h : (table.map (·.id)).Nodup) : ∀ x ∈ table, ∀ y ∈ table, key x = key y → x = y := by
  intro x hx y hy hxy
  have hid : x.id = y.id := congrArg (fun k => (ofLex k).2) hxy
  exact List.inj_on_of_nodup_map h hx hy hid

section Server

variable {table found : List (BookingMessage Content)} {limit : Nat}

/-- What a query finds, newest first. -/
theorem pairwise_newestFirst (h : (found.map (·.id)).Nodup) :
    (found.insertionSort newestFirst).Pairwise fun a b => key b < key a := by
  have hnodup : ((found.insertionSort newestFirst).map (·.id)).Nodup :=
    ((found.perm_insertionSort newestFirst).map _).nodup_iff.mpr h
  have hne : (found.insertionSort newestFirst).Pairwise fun a b => a.id ≠ b.id :=
    List.pairwise_map.mp hnodup
  refine ((found.pairwise_insertionSort newestFirst).and hne).imp fun {a b} hab => ?_
  refine lt_of_le_of_ne (newestFirst_iff.mp hab.1) fun heq => hab.2 ?_
  exact (congrArg (fun k => (ofLex k).2) heq).symm

theorem pageOf_eq : pageOf limit found =
    { items := ((found.insertionSort newestFirst).take limit).reverse
      nextCursor := if limit < found.length then
          ((found.insertionSort newestFirst).take limit).getLast?.map (·.id)
        else none } := by
  have hlength : (found.insertionSort newestFirst).length = found.length :=
    List.length_insertionSort newestFirst found
  simp only [pageOf, List.length_take, hlength, List.take_take, List.head?_reverse]
  by_cases hmore : limit < found.length
  · have hvisible : limit < min (limit + 1) found.length := by omega
    rw [if_pos hvisible, if_pos hvisible, if_pos hmore, Nat.min_eq_left (Nat.le_succ limit)]
  · have hvisible : ¬ limit < min (limit + 1) found.length := by omega
    rw [if_neg hvisible, if_neg hvisible, if_neg hmore, List.take_of_length_le (by omega),
      List.take_of_length_le (by omega)]

/-- A page is a window of what the query finds. -/
theorem window_pageOf (h : (found.map (·.id)).Nodup) :
    Window key (· ∈ found) (pageOf limit found).items := by
  rw [pageOf_eq]
  exact (window_take (pairwise_newestFirst h) limit).congr
    (fun _ => (List.mem_insertionSort newestFirst).symm) fun _ => List.mem_reverse

theorem continues_pageOf (h : (found.map (·.id)).Nodup) (hpos : 0 < limit) :
    Continues key (·.id) (· ∈ found) (pageOf limit found).items
      (pageOf limit found).nextCursor := by
  have hlength : (found.insertionSort newestFirst).length = found.length :=
    List.length_insertionSort newestFirst found
  rw [pageOf_eq]
  constructor
  · intro hnone y hy
    have hall : ¬ limit < found.length := by
      intro hmore
      simp only [if_pos hmore, Option.map_eq_none_iff, List.getLast?_eq_none_iff] at hnone
      have hzero := congrArg List.length hnone
      simp only [List.length_take, hlength, List.length_nil] at hzero
      omega
    rw [List.mem_reverse, List.take_of_length_le (by omega)]
    exact (List.mem_insertionSort newestFirst).mpr hy
  · intro c hsome
    have hmore : limit < found.length := by
      by_contra hall
      simp [if_neg hall] at hsome
    simp only [if_pos hmore, Option.map_eq_some_iff] at hsome
    obtain ⟨o, ho, rfl⟩ := hsome
    obtain ⟨newer, htake⟩ := List.getLast?_eq_some_iff.mp ho
    have hsorted := (pairwise_newestFirst h).sublist (List.take_sublist limit _)
    simp only [htake] at hsorted ⊢
    refine ⟨o, by simp, rfl, fun x hx => ?_⟩
    rcases List.mem_append.mp (List.mem_reverse.mp hx) with hx | hx
    · exact ((List.pairwise_append.mp hsorted).2.2 x hx o (List.mem_singleton.mpr rfl)).le
    · rw [List.mem_singleton.mp hx]

theorem sorted_pageOf (h : (found.map (·.id)).Nodup) :
    (pageOf limit found).items.Pairwise fun a b => key a < key b := by
  rw [pageOf_eq]
  exact List.pairwise_reverse.mpr ((pairwise_newestFirst h).sublist (List.take_sublist limit _))

/-- What `list` answers without a cursor, while the table grows at its end. -/
structure LatestPage (table : List (BookingMessage Content)) (page : BookingMessagePage Content)
    (seen : BookingMessage Content → Prop) : Prop where
  sub : ∀ x, seen x → x ∈ table
  lower : ∀ x, seen x → ∀ y ∈ table, key y < key x → seen y
  sorted : page.items.Pairwise fun a b => key a < key b
  window : Window key seen page.items
  continues : Continues key (·.id) seen page.items page.nextCursor

theorem listMessages_latest {page : BookingMessagePage Content} (h : (table.map (·.id)).Nodup)
    (hpos : 0 < limit) (hl : listMessages table limit none = .ok page) :
    LatestPage table page (· ∈ table) := by
  cases hl
  exact ⟨fun x hx => hx, fun x hx y hy _ => hy, sorted_pageOf h, window_pageOf h,
    continues_pageOf h hpos⟩

theorem LatestPage.insert {page : BookingMessagePage Content}
    {seen : BookingMessage Content → Prop} {m : BookingMessage Content}
    (h : LatestPage table page seen) (hm : ∀ x ∈ table, key x < key m) :
    LatestPage (m :: table) page seen where
  sub x hx := List.mem_cons_of_mem m (h.sub x hx)
  lower x hx y hy hlt := by
    rcases List.mem_cons.mp hy with rfl | hy
    · exact absurd hlt (lt_asymm (hm x (h.sub x hx)))
    · exact h.lower x hx y hy hlt
  sorted := h.sorted
  window := h.window
  continues := h.continues

/-- Older messages, before `bound`. -/
structure OlderPage (table : List (BookingMessage Content)) (bound : BookingMessage Content)
    (items : List (BookingMessage Content)) (cursor : Option Id) : Prop where
  window : Window key (Below key table bound) items
  continues : Continues key (·.id) (Below key table bound) items cursor

theorem OlderPage.insert {bound m : BookingMessage Content}
    {items : List (BookingMessage Content)} {cursor : Option Id}
    (h : OlderPage table bound items cursor) (hm : key bound < key m) :
    OlderPage (m :: table) bound items cursor :=
  ⟨h.window.congr (below_insert hm) fun _ => Iff.rfl,
    h.continues.congr (below_insert hm) fun _ => Iff.rfl⟩

/-- What `list` answers with a cursor. -/
theorem listMessages_older {page : BookingMessagePage Content} {bound : BookingMessage Content}
    (h : (table.map (·.id)).Nodup) (hpos : 0 < limit) (hb : bound ∈ table)
    (hl : listMessages table limit (some bound.id) = .ok page) :
    OlderPage table bound page.items page.nextCursor := by
  obtain ⟨after, hfind⟩ : ∃ after, table.find? (·.id = bound.id) = some after := by
    refine Option.isSome_iff_exists.mp (List.find?_isSome.mpr ⟨bound, hb, by simp⟩)
  obtain rfl : after = bound :=
    List.inj_on_of_nodup_map h (List.mem_of_find?_eq_some hfind) hb
      (by simpa using List.find?_some hfind)
  have hnodup : ((table.filter (isBefore after)).map (·.id)).Nodup :=
    h.sublist (List.filter_sublist.map _)
  have hregion (x : BookingMessage Content) :
      Below key table after x ↔ x ∈ table.filter (isBefore after) := by
    rw [List.mem_filter, isBefore_iff]
    rfl
  simp only [listMessages, hfind] at hl
  cases hl
  exact ⟨(window_pageOf hnodup).congr hregion fun _ => Iff.rfl,
    (continues_pageOf hnodup hpos).congr hregion fun _ => Iff.rfl⟩

end Server

section Screen

variable {values : List (BookingMessage Content)}

theorem valuesById_spec {byId : List (BookingMessage Content)}
    (hinj : ∀ x ∈ byId ++ values, ∀ y ∈ byId ++ values, x.id = y.id → x = y)
    (hnodup : (byId.map (·.id)).Nodup) :
    let result := values.foldl (fun byId value =>
      if byId.any (·.id = value.id) then byId.map fun x => if x.id = value.id then value else x
      else byId ++ [value]) byId
    (result.map (·.id)).Nodup ∧ ∀ m, m ∈ result ↔ m ∈ byId ++ values := by
  induction values generalizing byId with
  | nil => exact ⟨hnodup, fun m => by simp⟩
  | cons value values ih =>
    simp only [List.foldl_cons]
    split
    · next hany =>
      obtain ⟨x, hx, hid⟩ : ∃ x ∈ byId, x.id = value.id := by simpa using hany
      obtain rfl : x = value := hinj x (by simp [hx]) value (by simp) hid
      have hsame : (byId.map fun y => if y.id = x.id then x else y) = byId := by
        refine (List.map_congr_left fun y hy => ?_).trans (List.map_id _)
        split
        · next heq => exact hinj x (by simp) y (by simp [hy]) heq.symm
        · rfl
      rw [hsame]
      have hsub : byId ++ values ⊆ byId ++ x :: values :=
        ((List.sublist_cons_self x values).append_left byId).subset
      obtain ⟨hn, hm⟩ := ih (fun y hy z hz => hinj y (hsub hy) z (hsub hz)) hnodup
      refine ⟨hn, fun m => (hm m).trans ?_⟩
      simp only [List.mem_append, List.mem_cons]
      constructor
      · rintro (h | h)
        · exact .inl h
        · exact .inr (.inr h)
      · rintro (h | rfl | h)
        · exact .inl h
        · exact .inl hx
        · exact .inr h
    · next hany =>
      have hfresh : value.id ∉ byId.map (·.id) := by simpa using hany
      have hnodup' : ((byId ++ [value]).map (·.id)).Nodup := by
        rw [List.map_append, List.nodup_append]
        refine ⟨hnodup, by simp, fun a ha b hb hab => ?_⟩
        obtain rfl : b = value.id := by simpa using hb
        exact hfresh (hab ▸ ha)
      obtain ⟨hn, hm⟩ := ih (by simpa using hinj) hnodup'
      exact ⟨hn, fun m => (hm m).trans (by simp)⟩

variable {table : List (BookingMessage Content)}

theorem mem_mergeMessages (h : (table.map (·.id)).Nodup) (hsub : ∀ x ∈ values, x ∈ table)
    (m : BookingMessage Content) : m ∈ mergeMessages values ↔ m ∈ values := by
  have hspec := @valuesById_spec _ values []
    (fun x hx y hy hid => List.inj_on_of_nodup_map h (hsub x (by simpa using hx))
      (hsub y (by simpa using hy)) hid) List.nodup_nil
  rw [mergeMessages, List.mem_insertionSort]
  exact (hspec.2 m).trans (by simp)

/-- Each message once, in order. -/
theorem sorted_mergeMessages (h : (table.map (·.id)).Nodup) (hsub : ∀ x ∈ values, x ∈ table) :
    (mergeMessages values).Pairwise fun a b => key a < key b := by
  have hspec := @valuesById_spec _ values []
    (fun x hx y hy hid => List.inj_on_of_nodup_map h (hsub x (by simpa using hx))
      (hsub y (by simpa using hy)) hid) List.nodup_nil
  have hnodup : (((valuesById values).insertionSort oldestFirst).map (·.id)).Nodup :=
    (((valuesById values).perm_insertionSort oldestFirst).map _).nodup_iff.mpr hspec.1
  have hne := List.pairwise_map.mp hnodup
  refine (((valuesById values).pairwise_insertionSort oldestFirst).and hne).imp
    fun {a b} hab => ?_
  refine lt_of_le_of_ne (newestFirst_iff.mp hab.1) fun heq => hab.2 ?_
  exact congrArg (fun k => (ofLex k).2) heq

end Screen

variable [DecidableEq Content]

def chatLoop (limit : PageLimit) :
    Loop (BookingChat Content) (ChatCall Content) (ChatWait Content) ChatAnswer where
  call := fun k c => c.call k
  resume := fun w a c => c.resume limit w a

/-- The messages of a booking. -/
structure Conversation (Content : Type) where
  messages : List (BookingMessage Content)
  nodup : (messages.map (·.id)).Nodup

/-- The screen while the first page is loading. -/
def chatStart (conversation : Conversation Content) :
    Config (BookingChat Content) (ChatWait Content) :=
  ⟨{ conversation := conversation.messages, reloads := 0, latest := none }, [.latest 0]⟩

abbrev ChatEvent (Content : Type) := Event (ChatCall Content) (ChatWait Content) ChatAnswer

/-- New messages sort after the ones before them; and while older messages are loading or kept,
a latest page that is shown begins with the message before which they were asked for. -/
def adjoinsOlder (e : ChatEvent Content)
    (k : Config (BookingChat Content) (ChatWait Content)) : Bool :=
  match e with
  | .call (.arrive m) => k.state.conversation.all fun x => x.id = m.id || isBefore m x
  | .answer (.latestPage number (.ok page)) .arrives =>
    number ≠ k.state.reloads || !(k.state.loadedOlder || k.state.loadingOlder) ||
      page.items.head?.map (·.id) = k.state.firstCursor
  | _ => true

section Invariant

variable {limit : PageLimit} {k : Config (BookingChat Content) (ChatWait Content)}
  {c : BookingChat Content} {ws : List (ChatWait Content)} {w : ChatWait Content}

/-- The cursor of a request for older messages. -/
def ChatWait.cursor : ChatWait Content → Option Id
  | older cursor => some cursor
  | olderPage cursor _ => some cursor
  | _ => none

/-- The older messages that are loading or kept end where the latest page begins. -/
structure OlderKept (c : BookingChat Content) (bound : BookingMessage Content) : Prop where
  mem : bound ∈ c.conversation
  first : c.firstCursor = some bound.id
  adjoins : ∀ page, c.latest = some (.ok page) →
    bound ∈ page.items ∧ ∀ x ∈ page.items, key bound ≤ key x
  kept : c.loadedOlder = true → OlderPage c.conversation bound c.olderMessages c.olderCursor

structure ChatInv (k : Config (BookingChat Content) (ChatWait Content)) : Prop where
  nodup : (k.state.conversation.map (·.id)).Nodup
  shown : ∀ page, k.state.latest = some (.ok page) →
    ∃ seen, LatestPage k.state.conversation page seen
  coming : ∀ n page, .latestPage n (.ok page) ∈ k.waits →
    ∃ seen, LatestPage k.state.conversation page seen
  comingOlder : ∀ cursor page, .olderPage cursor (.ok page) ∈ k.waits →
    ∀ b ∈ k.state.conversation, b.id = cursor →
      OlderPage k.state.conversation b page.items page.nextCursor
  loading : (k.waits.filterMap ChatWait.cursor).length = if k.state.loadingOlder then 1 else 0
  asked : ∀ cursor ∈ k.waits.filterMap ChatWait.cursor,
    (if k.state.loadedOlder then k.state.olderCursor else k.state.firstCursor) = some cursor
  older : k.state.loadedOlder = true ∨ k.state.loadingOlder = true →
    ∃ b, OlderKept k.state b
  empty : k.state.loadedOlder = false → k.state.olderMessages = []

omit [DecidableEq Content] in
theorem ChatInv.start (conversation : Conversation Content) : ChatInv (chatStart conversation) where
  nodup := conversation.nodup
  shown page h := by cases h
  coming n page h := by simp [chatStart] at h
  comingOlder cursor page h := by simp [chatStart] at h
  loading := rfl
  asked cursor h := by simp [chatStart, ChatWait.cursor] at h
  older h := by simp [chatStart] at h
  empty _ := rfl

omit [DecidableEq Content] in
/-- The message before which older ones are asked for. -/
theorem ChatInv.bound (h : ChatInv k) {cursor : Id}
    (hc : cursor ∈ k.waits.filterMap ChatWait.cursor) :
    ∃ b ∈ k.state.conversation, b.id = cursor := by
  have hloading : k.state.loadingOlder = true := by
    by_contra hfalse
    have hzero := h.loading
    rw [if_neg hfalse, List.length_eq_zero_iff] at hzero
    simp [hzero] at hc
  obtain ⟨b, hb⟩ := h.older (.inr hloading)
  have hasked := h.asked cursor hc
  by_cases hl : k.state.loadedOlder = true
  · rw [if_pos hl] at hasked
    obtain ⟨o, ho, hid, -⟩ := (hb.kept hl).continues.next cursor hasked
    exact ⟨o, ((hb.kept hl).window.sub o ho).1, hid⟩
  · rw [if_neg hl, hb.first] at hasked
    exact ⟨b, hb.mem, Option.some.inj hasked⟩

omit [DecidableEq Content] in
theorem ChatInv.arrive (h : ChatInv ⟨c, ws⟩) {m : BookingMessage Content}
    (hm : ∀ x ∈ c.conversation, x.id = m.id ∨ key x < key m) : ChatInv ⟨c.arrive m, ws⟩ := by
  unfold BookingChat.arrive
  split
  · exact h
  · next hany =>
    have hfresh : ∀ x ∈ c.conversation, x.id ≠ m.id := by simpa using hany
    have hlt : ∀ x ∈ c.conversation, key x < key m := fun x hx =>
      (hm x hx).resolve_left (hfresh x hx)
    have hnodup : ((m :: c.conversation).map (·.id)).Nodup := by
      refine List.nodup_cons.mpr ⟨fun hid => ?_, h.nodup⟩
      obtain ⟨x, hx, hid⟩ := List.mem_map.mp hid
      exact hfresh x hx hid
    refine ⟨hnodup, fun page hp => ?_, fun n page hp => ?_, fun cursor page hp b hb hid => ?_,
      h.loading, h.asked, fun hl => ?_, h.empty⟩
    · obtain ⟨seen, hseen⟩ := h.shown page hp
      exact ⟨seen, hseen.insert hlt⟩
    · obtain ⟨seen, hseen⟩ := h.coming n page hp
      exact ⟨seen, hseen.insert hlt⟩
    · obtain ⟨b', hb', hid'⟩ := h.bound (List.mem_filterMap.mpr ⟨_, hp, rfl⟩)
      obtain rfl : b = b' := List.inj_on_of_nodup_map hnodup hb (List.mem_cons_of_mem m hb')
        (hid.trans hid'.symm)
      exact (h.comingOlder cursor page hp b hb' hid).insert (hlt b hb')
    · obtain ⟨b, hb⟩ := h.older hl
      exact ⟨b, List.mem_cons_of_mem m hb.mem, hb.first, hb.adjoins,
        fun hk => (hb.kept hk).insert (hlt b hb.mem)⟩

omit [DecidableEq Content] in
/-- Requests and answers on their way. -/
theorem ChatInv.underway (h : ChatInv ⟨c, ws⟩) {reloads : Nat} {ws' : List (ChatWait Content)}
    (hcoming : ∀ n page, .latestPage n (.ok page) ∈ ws' →
      ∃ seen, LatestPage c.conversation page seen)
    (holder : ∀ cursor page, .olderPage cursor (.ok page) ∈ ws' → ∀ b ∈ c.conversation,
      b.id = cursor → OlderPage c.conversation b page.items page.nextCursor)
    (hcursor : (ws'.filterMap ChatWait.cursor).Perm (ws.filterMap ChatWait.cursor)) :
    ChatInv ⟨{ c with reloads := reloads }, ws'⟩ where
  nodup := h.nodup
  shown := h.shown
  coming := hcoming
  comingOlder := holder
  loading := hcursor.length_eq.trans h.loading
  asked cursor hc := h.asked cursor (hcursor.mem_iff.mp hc)
  older hl := by
    obtain ⟨b, hb⟩ := h.older hl
    exact ⟨b, hb.mem, hb.first, hb.adjoins, hb.kept⟩
  empty := h.empty

omit [DecidableEq Content] in
theorem ChatInv.reload (h : ChatInv ⟨c, ws⟩) : ChatInv ⟨c.reload.1, ws ++ c.reload.2⟩ := by
  refine h.underway (fun n page hp => h.coming n page ?_)
    (fun cursor page hp => h.comingOlder cursor page ?_) ?_
  · simpa [BookingChat.reload] using hp
  · simpa [BookingChat.reload] using hp
  · rw [List.filterMap_append]
    exact .of_eq (List.append_nil _)

omit [DecidableEq Content] in
theorem ChatInv.loadOlder (h : ChatInv ⟨c, ws⟩) :
    ChatInv ⟨c.loadOlder.1, ws ++ c.loadOlder.2⟩ := by
  have hidle : ChatInv ⟨c, ws ++ []⟩ := (List.append_nil ws).symm ▸ h
  unfold BookingChat.loadOlder
  split
  · next page hpage =>
    split
    · next cursor hcursor =>
      split
      · exact hidle
      · next hloading =>
        have hnone : ws.filterMap ChatWait.cursor = [] := by
          have hzero := h.loading
          rwa [if_neg hloading, List.length_eq_zero_iff] at hzero
        have hnew : (ws ++ [ChatWait.older cursor]).filterMap ChatWait.cursor = [cursor] := by
          rw [List.filterMap_append, hnone]
          rfl
        refine ⟨h.nodup, h.shown, fun n page hp => h.coming n page (by simpa using hp),
          fun cursor page hp => h.comingOlder cursor page (by simpa using hp), ?_, ?_, ?_, h.empty⟩
        · rw [hnew]
          rfl
        · rw [hnew]
          intro cursor' hc
          rw [List.mem_singleton.mp hc]
          by_cases hl : c.loadedOlder = true
          · simpa [BookingChat.nextCursor, hl] using hcursor
          · simp [hl]
        · intro _
          by_cases hl : c.loadedOlder = true
          · obtain ⟨b, hb⟩ := h.older (.inl hl)
            exact ⟨b, hb.mem, by simpa [hl] using hb.first, hb.adjoins, hb.kept⟩
          · obtain ⟨seen, hseen⟩ := h.shown page hpage
            have hnext : page.nextCursor = some cursor := by
              simpa [BookingChat.nextCursor, hl] using hcursor
            obtain ⟨o, ho, hid, hle⟩ := hseen.continues.next cursor hnext
            refine ⟨o, hseen.sub o (hseen.window.sub o ho), by simp [hl, ← hid],
              fun page' hp => ?_, fun hl' => absurd hl' hl⟩
            obtain rfl : page' = page := by
              have hp : c.latest = some (.ok page') := hp
              rw [hpage] at hp
              cases hp
              rfl
            exact ⟨ho, hle⟩
    · exact hidle
  · exact hidle

omit [DecidableEq Content] in
/-- The answer to a load of the latest page. -/
theorem ChatInv.reloaded (h : ChatInv ⟨c, ws⟩) {number : Nat}
    {next : Except Thrown (BookingMessagePage Content)}
    (hnext : ∀ page, next = .ok page → ∃ seen, LatestPage c.conversation page seen)
    (hc : ∀ page, next = .ok page → number = c.reloads →
      c.loadedOlder = true ∨ c.loadingOlder = true →
      page.items.head?.map (·.id) = c.firstCursor) : ChatInv ⟨c.reloaded number next, ws⟩ := by
  unfold BookingChat.reloaded
  split
  · next hcurrent =>
    refine ⟨h.nodup, fun page hp => hnext page (Option.some.inj hp), h.coming, h.comingOlder,
      h.loading, h.asked, fun hl => ?_, h.empty⟩
    obtain ⟨b, hb⟩ := h.older hl
    refine ⟨b, hb.mem, hb.first, fun page hp => ?_, hb.kept⟩
    have hp : next = .ok page := Option.some.inj hp
    obtain ⟨seen, hseen⟩ := hnext page hp
    have hhead := hc page hp hcurrent hl
    rw [hb.first, Option.map_eq_some_iff] at hhead
    obtain ⟨o, ho, hid⟩ := hhead
    obtain ⟨rest, hitems⟩ := List.head?_eq_some_iff.mp ho
    have hmem : o ∈ page.items := by simp [hitems]
    obtain rfl : o = b := List.inj_on_of_nodup_map h.nodup
      (hseen.sub o (hseen.window.sub o hmem)) hb.mem hid
    refine ⟨hmem, fun x hx => ?_⟩
    have hsorted := hseen.sorted
    rw [hitems] at hsorted hx
    rcases List.mem_cons.mp hx with rfl | hx
    · exact le_rfl
    · exact ((List.pairwise_cons.mp hsorted).1 x hx).le
  · exact h

/-- The answer to a request for older messages. -/
theorem ChatInv.olderLoaded (h : ChatInv ⟨c, ws⟩) {cursor : Id}
    {next : Except Thrown (BookingMessagePage Content)} (hw : w ∈ ws)
    (hcursor : w.cursor = some cursor)
    (hnext : ∀ page, next = .ok page → ∀ b ∈ c.conversation, b.id = cursor →
      OlderPage c.conversation b page.items page.nextCursor) :
    ChatInv ⟨c.olderLoaded next, ws.erase w⟩ := by
  have hmem : cursor ∈ ws.filterMap ChatWait.cursor := List.mem_filterMap.mpr ⟨w, hw, hcursor⟩
  have hloading : c.loadingOlder = true := by
    by_contra hfalse
    have hzero := h.loading
    rw [if_neg hfalse, List.length_eq_zero_iff] at hzero
    rw [hzero] at hmem
    cases hmem
  have hnone : (ws.erase w).filterMap ChatWait.cursor = [] := by
    have hone := h.loading
    rw [if_pos hloading, (filterMap_perm_of_mem _ hw hcursor).length_eq] at hone
    simpa using hone
  have hasked := h.asked cursor hmem
  obtain ⟨b, hb⟩ := h.older (.inr hloading)
  obtain ⟨o, ho, hid⟩ := h.bound hmem
  cases next with
  | error e =>
    refine ⟨h.nodup, h.shown, fun n page hp => h.coming n page (List.mem_of_mem_erase hp),
      fun cursor page hp => h.comingOlder cursor page (List.mem_of_mem_erase hp), by
        rw [hnone]; rfl, by simp [hnone], fun hl => ?_, h.empty⟩
    exact ⟨b, hb.mem, hb.first, hb.adjoins, hb.kept⟩
  | ok page =>
    have hpage := hnext page rfl o ho hid
    refine ⟨h.nodup, h.shown, fun n page hp => h.coming n page (List.mem_of_mem_erase hp),
      fun cursor page hp => h.comingOlder cursor page (List.mem_of_mem_erase hp), by
        rw [hnone]; rfl, by simp [hnone], fun _ => ?_, fun hl => by cases hl⟩
    refine ⟨b, hb.mem, hb.first, hb.adjoins, fun _ => ?_⟩
    by_cases hl : c.loadedOlder = true
    · rw [if_pos hl] at hasked
      obtain ⟨o', ho', hid', hle⟩ := (hb.kept hl).continues.next cursor hasked
      obtain rfl : o' = o := List.inj_on_of_nodup_map h.nodup
        ((hb.kept hl).window.sub o' ho').1 ho (hid'.trans hid.symm)
      have hkey := key_injective h.nodup
      exact ⟨(hb.kept hl).window.extend hkey ho' hpage.window,
        Continues.extend hkey (hb.kept hl).window ho' hle hpage.window hpage.continues⟩
    · rw [if_neg hl, hb.first] at hasked
      obtain rfl : b = o := List.inj_on_of_nodup_map h.nodup hb.mem ho
        ((Option.some.inj hasked).trans hid.symm)
      have hempty : c.olderMessages = [] := h.empty (by simpa using hl)
      simpa only [BookingChat.olderLoaded, hempty, List.append_nil] using hpage

/-- A request that is no longer under way; it may leave an answer on its way. -/
theorem ChatInv.served (h : ChatInv ⟨c, ws⟩) {new : List (ChatWait Content)} (hw : w ∈ ws)
    (hcursor : w.cursor = none ∧ new.filterMap ChatWait.cursor = [] ∨
      ∃ cursor, w.cursor = some cursor ∧ new.filterMap ChatWait.cursor = [cursor])
    (hcoming : ∀ n page, .latestPage n (.ok page) ∈ new →
      ∃ seen, LatestPage c.conversation page seen)
    (holder : ∀ cursor page, .olderPage cursor (.ok page) ∈ new → ∀ b ∈ c.conversation,
      b.id = cursor → OlderPage c.conversation b page.items page.nextCursor) :
    ChatInv ⟨c, ws.erase w ++ new⟩ := by
  refine h.underway (fun n page hp => ?_) (fun cursor page hp => ?_) ?_
  · rcases List.mem_append.mp hp with hp | hp
    · exact h.coming n page (List.mem_of_mem_erase hp)
    · exact hcoming n page hp
  · rcases List.mem_append.mp hp with hp | hp
    · exact h.comingOlder cursor page (List.mem_of_mem_erase hp)
    · exact holder cursor page hp
  · rw [List.filterMap_append]
    rcases hcursor with ⟨hnone, hnew⟩ | ⟨cursor, hsome, hnew⟩
    · rw [hnew, List.append_nil, filterMap_erase_of_none _ hnone]
    · rw [hnew]
      exact (List.perm_append_singleton cursor _).trans
        (filterMap_perm_of_mem _ hw hsome).symm

theorem ChatInv.answer (h : ChatInv ⟨c, ws⟩) {a : ChatAnswer} {c' : BookingChat Content}
    {new : List (ChatWait Content)} (hc : adjoinsOlder (.answer w a) ⟨c, ws⟩ = true)
    (hw : w ∈ ws) (hr : c.resume limit w a = some (c', new)) :
    ChatInv ⟨c', ws.erase w ++ new⟩ := by
  unfold BookingChat.resume at hr
  split at hr
  · next number =>
    cases hr
    refine h.served hw (.inl ⟨rfl, rfl⟩) (fun n page hp => ?_) (by simp)
    obtain ⟨rfl, hl⟩ := by simpa using hp
    exact ⟨_, listMessages_latest h.nodup limit.pos hl.symm⟩
  · next number e =>
    cases hr
    have herase : ChatInv ⟨c, ws.erase (.latest number) ++ []⟩ :=
      h.served hw (.inl ⟨rfl, rfl⟩) (by simp) (by simp)
    exact herase.reloaded (by simp) (by simp)
  · next number next =>
    cases hr
    have herase : ChatInv ⟨c, ws.erase (.latestPage number next) ++ []⟩ :=
      h.served hw (.inl ⟨rfl, rfl⟩) (by simp) (by simp)
    refine herase.reloaded (fun page hp => h.coming number page (hp ▸ hw))
      fun page hp hcurrent hl => ?_
    subst hp
    rcases hl with hl | hl
    · simpa [adjoinsOlder, hcurrent, hl] using hc
    · simpa [adjoinsOlder, hcurrent, hl] using hc
  · next number next e =>
    cases hr
    have herase : ChatInv ⟨c, ws.erase (.latestPage number next) ++ []⟩ :=
      h.served hw (.inl ⟨rfl, rfl⟩) (by simp) (by simp)
    exact herase.reloaded (by simp) (by simp)
  · next cursor =>
    cases hr
    refine h.served hw (.inr ⟨cursor, rfl, rfl⟩) (by simp) fun cursor' page hp b hb hid => ?_
    obtain ⟨rfl, hl⟩ := by simpa using hp
    subst hid
    exact listMessages_older h.nodup limit.pos hb hl.symm
  · next cursor e =>
    cases hr
    rw [List.append_nil]
    exact h.olderLoaded hw rfl (by simp)
  · next cursor next =>
    cases hr
    rw [List.append_nil]
    exact h.olderLoaded hw rfl fun page hp => h.comingOlder cursor page (hp ▸ hw)
  · next cursor next e =>
    cases hr
    rw [List.append_nil]
    exact h.olderLoaded hw rfl (by simp)
  · cases hr

omit [DecidableEq Content] in
theorem ChatInv.call (h : ChatInv ⟨c, ws⟩) (k : ChatCall Content)
    (hc : adjoinsOlder (.call k) ⟨c, ws⟩ = true) :
    ChatInv ⟨(c.call k).1, ws ++ (c.call k).2⟩ := by
  cases k with
  | arrive m =>
    have harrive := h.arrive (m := m) fun x hx => by
      simpa [isBefore_iff] using List.all_eq_true.mp hc x hx
    exact (List.append_nil ws).symm ▸ harrive
  | reload => exact h.reload
  | loadOlder => exact h.loadOlder

/-- The messages shown and the cursor offered, with a latest page. -/
structure MessagesComplete (conversation : List (BookingMessage Content))
    (page : BookingMessagePage Content) (messages : List (BookingMessage Content))
    (cursor : Option Id) : Prop where
  /-- Each once, in the order of `(createdAt, id)`. -/
  sorted : messages.Pairwise fun a b => key a < key b
  /-- All messages from the oldest one shown to the newest one of the latest page. -/
  complete : ∀ m, m ∈ messages ↔ m ∈ conversation ∧ (∃ o ∈ messages, key o ≤ key m) ∧
    ∃ n ∈ page.items, key m ≤ key n
  /-- The cursor names the oldest message shown. -/
  next : ∀ id, cursor = some id → ∃ o, messages.head? = some o ∧ o.id = id
  /-- Without a cursor there is no older message. -/
  last : cursor = none → ∀ m ∈ conversation, (∃ n ∈ page.items, key m ≤ key n) → m ∈ messages

/-- Whenever the latest page is shown as data. -/
def ChatComplete (k : Config (BookingChat Content) (ChatWait Content)) : Prop :=
  ∀ page, k.state.latest = some (.ok page) → MessagesComplete k.state.conversation page
    (k.state.messages page) (k.state.nextCursor page)

omit [DecidableEq Content] in
/-- A window that ends with the latest page, as the screen shows it. -/
theorem MessagesComplete.of_window {conversation values : List (BookingMessage Content)}
    {page : BookingMessagePage Content} {cursor : Option Id}
    {seen : BookingMessage Content → Prop} (hnodup : (conversation.map (·.id)).Nodup)
    (hseen : LatestPage conversation page seen) (hwindow : Window key seen values)
    (hcontinues : Continues key (·.id) seen values cursor) (hpage : ∀ x ∈ page.items, x ∈ values)
    (htop : ∀ x ∈ values, ∃ n ∈ page.items, key x ≤ key n) :
    MessagesComplete conversation page (mergeMessages values) cursor := by
  have hsub : ∀ x ∈ values, x ∈ conversation := fun x hx => hseen.sub x (hwindow.sub x hx)
  have hmem := mem_mergeMessages hnodup hsub
  have hsorted := sorted_mergeMessages hnodup hsub
  have hreached : ∀ m ∈ conversation, (∃ n ∈ page.items, key m ≤ key n) → seen m := by
    rintro m hm ⟨n, hn, hle⟩
    have hn := hwindow.sub n (hpage n hn)
    rcases hle.lt_or_eq with hlt | heq
    · exact hseen.lower n hn m hm hlt
    · rwa [key_injective hnodup m hm n (hseen.sub n hn) heq]
  refine ⟨hsorted, fun m => ?_, fun id hid => ?_, fun hnone m hm htop => ?_⟩
  · simp only [hmem]
    constructor
    · intro hm
      exact ⟨hsub m hm, ⟨m, hm, le_rfl⟩, htop m hm⟩
    · rintro ⟨hm, ⟨o, ho, hle⟩, htop⟩
      rcases hle.lt_or_eq with hlt | heq
      · exact hwindow.upper o ho m (hreached m hm htop) hlt
      · rwa [← key_injective hnodup o (hsub o ho) m hm heq]
  · obtain ⟨o, ho, hoid, hle⟩ := hcontinues.next id hid
    have hmo := (hmem o).mpr ho
    refine ⟨o, ?_, hoid⟩
    obtain ⟨first, rest, hlist⟩ := List.exists_cons_of_ne_nil (List.ne_nil_of_mem hmo)
    simp only [hlist] at hsorted hmo ⊢
    rcases List.mem_cons.mp hmo with rfl | hrest
    · rfl
    · have hfirst : first ∈ values := (hmem first).mp (by simp [hlist])
      exact absurd ((List.pairwise_cons.mp hsorted).1 o hrest) (not_lt_of_ge (hle first hfirst))
  · exact (hmem m).mpr (hcontinues.last hnone m (hreached m hm htop))

omit [DecidableEq Content] in
theorem ChatInv.complete (h : ChatInv ⟨c, ws⟩) {page : BookingMessagePage Content}
    (hp : c.latest = some (.ok page)) : MessagesComplete c.conversation page
      (c.messages page) (c.nextCursor page) := by
  obtain ⟨seen, hseen⟩ := h.shown page hp
  by_cases hl : c.loadedOlder = true
  · obtain ⟨b, hb⟩ := h.older (.inl hl)
    obtain ⟨hmem, hfirst⟩ := hb.adjoins page hp
    have hkept := hb.kept hl
    have hkey := key_injective h.nodup
    rw [BookingChat.nextCursor, if_pos hl]
    refine .of_window h.nodup hseen
      (hseen.window.join hkey hseen.sub hseen.lower hmem hkept.window)
      (.join hkey hseen.sub hseen.window hmem hfirst hkept.window hkept.continues) (fun x hx => List.mem_append_right _ hx) fun x hx => ?_
    rcases List.mem_append.mp hx with hx | hx
    · exact ⟨b, hmem, (hkept.window.sub x hx).2.le⟩
    · exact ⟨x, hx, le_rfl⟩
  · have hempty : c.olderMessages = [] := h.empty (by simpa using hl)
    rw [BookingChat.nextCursor, if_neg hl, BookingChat.messages, hempty, List.nil_append]
    exact .of_window h.nodup hseen hseen.window hseen.continues (fun x hx => hx)
      fun x hx => ⟨x, hx, le_rfl⟩

/-- As long as the latest page adjoins the older messages. -/
theorem chat_complete {conversation : Conversation Content} {es : List (ChatEvent Content)}
    (h : (chatLoop limit).Runs (fun e k => adjoinsOlder e k = true) (chatStart conversation) es k) :
    ChatComplete k := by
  have hinv : ChatInv k := by
    refine Loop.Runs.invariant (I := fun _ k => ChatInv k) (.start conversation) ?_ ?_ h
    · intro es call c ws h hc
      exact h.call call hc
    · intro es w a c c' ws new h hc hw hr
      exact h.answer hc hw hr
  exact fun page hp => hinv.complete hp

end Invariant

namespace ChatScenario

def message (n : Nat) : BookingMessage Unit := ⟨n, n, ()⟩

def messages (ns : List Nat) : List (BookingMessage Unit) := ns.map message

def three : Conversation Unit := ⟨messages [3, 2, 1], by decide⟩

def two : PageLimit := ⟨2, by decide⟩

def latest (number : Nat) (next : BookingMessagePage Unit) : List (ChatEvent Unit) :=
  [.answer (.latest number) .served, .answer (.latestPage number (.ok next)) .arrives]

def older (cursor : Id) (next : BookingMessagePage Unit) : List (ChatEvent Unit) :=
  [.call .loadOlder, .answer (.older cursor) .served,
    .answer (.olderPage cursor (.ok next)) .arrives]

/-- A message arrives, and the older messages are loaded when it is shown. -/
def shownFirst : List (ChatEvent Unit) :=
  latest 0 ⟨messages [2, 3], some 2⟩ ++ [.call (.arrive (message 4)), .call .reload] ++
    latest 1 ⟨messages [3, 4], some 3⟩ ++ older 3 ⟨messages [1, 2], none⟩

/-- A message arrives after the older messages have been loaded. -/
def arrivesLater : List (ChatEvent Unit) :=
  latest 0 ⟨messages [2, 3], some 2⟩ ++ older 2 ⟨messages [1], none⟩ ++
    [.call (.arrive (message 4)), .call .reload] ++ latest 1 ⟨messages [3, 4], some 3⟩

theorem chat_complete_shownFirst :
    ∃ k page, (chatLoop two).play adjoinsOlder shownFirst (chatStart three) = some k ∧
      k.state.latest = some (.ok page) ∧ k.state.messages page = messages [1, 2, 3, 4] ∧
      ChatComplete k := by
  have h : ∃ k page, (chatLoop two).play adjoinsOlder shownFirst (chatStart three) = some k ∧
      k.state.latest = some (.ok page) ∧ k.state.messages page = messages [1, 2, 3, 4] :=
    ⟨_, _, rfl, rfl, rfl⟩
  obtain ⟨k, page, hk, hp, hm⟩ := h
  exact ⟨k, page, hk, hp, hm, chat_complete (Loop.runs_of_play hk)⟩

/-- Message 2 has left the latest page and is not among the older messages. -/
theorem chat_gap : ∃ k : Config (BookingChat Unit) (ChatWait Unit),
    (chatLoop two).Runs (fun _ _ => True) (chatStart three) arrivesLater k ∧ ¬ ChatComplete k := by
  have h : ∃ k page, (chatLoop two).play (fun _ _ => true) arrivesLater (chatStart three) =
      some k ∧ k.state.latest = some (.ok page) ∧ page.items = messages [3, 4] ∧
      k.state.messages page = messages [1, 3, 4] ∧
      k.state.conversation = messages [4, 3, 2, 1] := ⟨_, _, rfl, rfl, rfl, rfl, rfl⟩
  obtain ⟨k, page, hk, hp, hitems, hm, hc⟩ := h
  refine ⟨k, (Loop.runs_of_play hk).mono fun _ _ _ => trivial, fun hcomplete => ?_⟩
  have hgap : message 2 ∈ k.state.messages page := by
    refine ((hcomplete page hp).complete (message 2)).mpr ⟨?_, ⟨message 1, ?_, ?_⟩, message 3, ?_, ?_⟩
    · rw [hc]
      decide
    · rw [hm]
      decide
    · decide
    · rw [hitems]
      decide
    · decide
  rw [hm] at hgap
  exact absurd hgap (by decide)

end ChatScenario

end Mobile

end Sosedi
