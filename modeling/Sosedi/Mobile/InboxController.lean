import Sosedi.Async.EventLoop
import Sosedi.Mobile.Riverpod

/-!
# The inbox controller

`loadMore`, `setUnreadOnly` and `markAllRead` overwrite one state; what they write is made from a
copy taken before they wait, and no call looks for the others.

Proved here:

* `InboxInv.call`, `InboxInv.answer`: every event keeps the invariant, where the last answer
  belongs to a copy under the selected filter and without flags of the other calls;
* `inbox_consistent`: with nothing in flight the inbox shows one load with its continuations.
-/

namespace Sosedi

open Async

namespace Mobile

variable {InboxEvent : Type}

structure InboxPage (InboxEvent : Type) where
  items : List InboxEvent
  nextCursor : Option String
  deriving DecidableEq

structure InboxState (InboxEvent : Type) where
  items : List InboxEvent
  nextCursor : Option String
  unreadOnly : Bool
  isLoadingMore : Bool := false
  loadMoreError : Option String := none
  isMarkingAllRead : Bool := false
  deriving DecidableEq

structure InboxController (InboxEvent : Type) where
  state : AsyncValue (InboxState InboxEvent)
  unreadOnly : Bool := false

inductive InboxCall where
  | loadMore
  | setUnreadOnly (value : Bool)
  | markAllRead
  deriving DecidableEq

inductive InboxWait (InboxEvent : Type) where
  | loadMore (current : InboxState InboxEvent)
  | setUnreadOnly (value : Bool)
  | markAllRead (current : InboxState InboxEvent)
  /-- `markAllRead` before the answer of `listPage`. -/
  | markedAllRead (current : InboxState InboxEvent)
  deriving DecidableEq

inductive InboxAnswer (InboxEvent : Type) where
  | page (next : Except Thrown (InboxPage InboxEvent))
  | marked (next : Except Thrown Unit)

namespace InboxController

variable (retain : Bool) (c : InboxController InboxEvent)

def loadMore : InboxController InboxEvent × List (InboxWait InboxEvent) :=
  match c.state.value with
  | none => (c, [])
  | some current =>
    if current.nextCursor = none || current.isLoadingMore then (c, [])
    else
      ({ c with state := .data { current with isLoadingMore := true, loadMoreError := none } },
        [.loadMore current])

/-- `loadMore` from the answer on. -/
def loadedMore (current : InboxState InboxEvent) (next : Except Thrown (InboxPage InboxEvent)) :
    InboxController InboxEvent :=
  match next with
  | .ok value => { c with
      state := .data { current with
        items := current.items ++ value.items
        nextCursor := value.nextCursor
        isLoadingMore := false } }
  | .error e => { c with
      state := .data { current with
        isLoadingMore := false
        loadMoreError := some (userFacingError e "Не удалось загрузить старые уведомления") } }

def setUnreadOnly (value : Bool) : InboxController InboxEvent × List (InboxWait InboxEvent) :=
  if value = c.unreadOnly then (c, [])
  else ({ c with state := c.state.toLoading retain, unreadOnly := value }, [.setUnreadOnly value])

/-- `setUnreadOnly` from the answer on. -/
def unreadOnlySet (value : Bool) (next : Except Thrown (InboxPage InboxEvent)) :
    InboxController InboxEvent :=
  match next with
  | .ok page => { c with state := .data ⟨page.items, page.nextCursor, value, false, none, false⟩ }
  | .error e => { c with state := c.state.toError retain e }

def markAllRead : InboxController InboxEvent × List (InboxWait InboxEvent) :=
  match c.state.value with
  | none => (c, [])
  | some current =>
    if current.isMarkingAllRead then (c, [])
    else
      ({ c with state := .data { current with isMarkingAllRead := true, loadMoreError := none } },
        [.markAllRead current])

/-- The `catch` of `markAllRead`. -/
def notMarked (current : InboxState InboxEvent) (e : Thrown) : InboxController InboxEvent :=
  { c with
    state := .data { current with
      isMarkingAllRead := false
      loadMoreError := some (userFacingError e "Не удалось отметить уведомления") } }

/-- `markAllRead` from the answer of `listPage` on. -/
def markedAllRead (current : InboxState InboxEvent) (next : Except Thrown (InboxPage InboxEvent)) :
    InboxController InboxEvent :=
  match next with
  | .ok page => { c with
      state := .data ⟨page.items, page.nextCursor, current.unreadOnly, false, none, false⟩ }
  | .error e => notMarked c current e

def call (k : InboxCall) : InboxController InboxEvent × List (InboxWait InboxEvent) :=
  match k with
  | .loadMore => loadMore c
  | .setUnreadOnly value => setUnreadOnly retain c value
  | .markAllRead => markAllRead c

def resume (w : InboxWait InboxEvent) (a : InboxAnswer InboxEvent) :
    Option (InboxController InboxEvent × List (InboxWait InboxEvent)) :=
  match w, a with
  | .loadMore current, .page next => some (loadedMore c current next, [])
  | .setUnreadOnly value, .page next => some (unreadOnlySet retain c value next, [])
  | .markAllRead current, .marked (.ok ()) => some (c, [.markedAllRead current])
  | .markAllRead current, .marked (.error e) => some (notMarked c current e, [])
  | .markedAllRead current, .page next => some (markedAllRead c current next, [])
  | _, _ => none

end InboxController

variable [DecidableEq InboxEvent]

def inboxLoop (retain : Bool) :
    Loop (InboxController InboxEvent) InboxCall (InboxWait InboxEvent) (InboxAnswer InboxEvent) where
  call := fun k c => InboxController.call retain c k
  resume := fun w a c => InboxController.resume retain c w a

/-- The controller after the initial load. -/
def inboxStart (first : Except Thrown (InboxPage InboxEvent)) :
    Config (InboxController InboxEvent) (InboxWait InboxEvent) :=
  match first with
  | .ok page => ⟨⟨.data ⟨page.items, page.nextCursor, false, false, none, false⟩, false⟩, []⟩
  | .error e => ⟨⟨.error e none, false⟩, []⟩

abbrev InboxMove (InboxEvent : Type) :=
  Event InboxCall (InboxWait InboxEvent) (InboxAnswer InboxEvent)

/-- The pages of one first-page load and of the `loadMore` calls that continued it, all under the
filter: their items in order, and the cursor of the last one. -/
inductive InboxListing (first : Except Thrown (InboxPage InboxEvent))
    (es : List (InboxMove InboxEvent)) : Bool → List InboxEvent → Option String → Prop
  | first {page : InboxPage InboxEvent} : first = .ok page →
      InboxListing first es false page.items page.nextCursor
  | selected {value : Bool} {page : InboxPage InboxEvent} :
      .answer (.setUnreadOnly value) (.page (.ok page)) ∈ es →
      InboxListing first es value page.items page.nextCursor
  | marked {current : InboxState InboxEvent} {page : InboxPage InboxEvent} :
      .answer (.markedAllRead current) (.page (.ok page)) ∈ es →
      InboxListing first es current.unreadOnly page.items page.nextCursor
  | more {current : InboxState InboxEvent} {page : InboxPage InboxEvent} :
      InboxListing first es current.unreadOnly current.items current.nextCursor →
      .answer (.loadMore current) (.page (.ok page)) ∈ es →
      InboxListing first es current.unreadOnly (current.items ++ page.items) page.nextCursor

/-- The filter that was selected last. -/
def selectedFilter (es : List (InboxMove InboxEvent)) : Bool :=
  es.foldl (fun selected e => match e with
    | .call (.setUnreadOnly value) => value
    | _ => selected) false

/-- No flag of a call is set. -/
def InboxState.isSettled (s : InboxState InboxEvent) : Bool := !s.isLoadingMore && !s.isMarkingAllRead

/-- The answer that leaves nothing in flight belongs to a copy under the selected filter, without
flags of other calls; where `setUnreadOnly` fails last, no flag is left in the value kept. -/
def lastInTurn (retain : Bool) (e : InboxMove InboxEvent)
    (k : Config (InboxController InboxEvent) (InboxWait InboxEvent)) : Bool :=
  match e with
  | .call _ => true
  | .answer w a => !(k.waits.erase w).isEmpty ||
    match w, a with
    | .loadMore current, _ =>
      current.unreadOnly = k.state.unreadOnly && !current.isMarkingAllRead
    | .setUnreadOnly value, .page (.ok _) => value = k.state.unreadOnly
    | .setUnreadOnly _, _ => !retain || k.state.state.value.all InboxState.isSettled
    | .markAllRead _, .marked (.ok _) => true
    | .markedAllRead current, .page (.ok _) => current.unreadOnly = k.state.unreadOnly
    | .markAllRead current, _ | .markedAllRead current, _ =>
      current.unreadOnly = k.state.unreadOnly && !current.isLoadingMore

section Invariant

variable {retain : Bool} {first : Except Thrown (InboxPage InboxEvent)}
  {es : List (InboxMove InboxEvent)} {e : InboxMove InboxEvent}
  {k : Config (InboxController InboxEvent) (InboxWait InboxEvent)}
  {c : InboxController InboxEvent} {ws : List (InboxWait InboxEvent)} {w : InboxWait InboxEvent}

omit [DecidableEq InboxEvent] in
theorem InboxListing.mono {unreadOnly : Bool} {items : List InboxEvent} {cursor : Option String}
    (h : InboxListing first es unreadOnly items cursor) :
    InboxListing first (es ++ [e]) unreadOnly items cursor := by
  induction h with
  | first hf => exact .first hf
  | selected he => exact .selected (List.mem_append_left _ he)
  | marked he => exact .marked (List.mem_append_left _ he)
  | more _ he ih => exact .more ih (List.mem_append_left _ he)

/-- The copy that a suspended call has taken. -/
def InboxWait.current : InboxWait InboxEvent → Option (InboxState InboxEvent)
  | loadMore current => some current
  | setUnreadOnly _ => none
  | markAllRead current => some current
  | markedAllRead current => some current

structure Settled (c : InboxController InboxEvent) : Prop where
  loaded : ∀ p, c.state ≠ .loading p
  flags : ∀ s, c.state.value = some s → s.isSettled = true
  filter : ∀ s, c.state = .data s → s.unreadOnly = c.unreadOnly

structure InboxInv (first : Except Thrown (InboxPage InboxEvent))
    (es : List (InboxMove InboxEvent))
    (k : Config (InboxController InboxEvent) (InboxWait InboxEvent)) : Prop where
  selected : k.state.unreadOnly = selectedFilter es
  shown : ∀ s, k.state.state.value = some s →
    InboxListing first es s.unreadOnly s.items s.nextCursor
  captured : ∀ w ∈ k.waits, ∀ s, w.current = some s →
    InboxListing first es s.unreadOnly s.items s.nextCursor
  settled : k.waits = [] → Settled k.state

omit [DecidableEq InboxEvent] in
theorem InboxInv.start : InboxInv first [] (inboxStart first) := by
  cases first with
  | ok page =>
    refine ⟨rfl, fun s hs => ?_, fun w hw => absurd hw List.not_mem_nil, fun _ => ?_⟩
    · cases hs
      exact .first rfl
    · refine ⟨by simp [inboxStart], fun s hs => ?_, fun s hs => ?_⟩
      · cases hs
        rfl
      · cases hs
        rfl
  | error e =>
    exact ⟨rfl, by simp [inboxStart], fun w hw => absurd hw List.not_mem_nil,
      fun _ => ⟨by simp [inboxStart], by simp [inboxStart], by simp [inboxStart]⟩⟩

omit [DecidableEq InboxEvent] in
theorem selectedFilter_concat (e : InboxMove InboxEvent) (he : ∀ v, e ≠ .call (.setUnreadOnly v)) :
    selectedFilter (es ++ [e]) = selectedFilter es := by
  simp only [selectedFilter, List.foldl_append, List.foldl_cons, List.foldl_nil]

omit [DecidableEq InboxEvent] in
/-- A call that shows a copy with a flag, and waits. -/
theorem InboxInv.started (h : InboxInv first es ⟨c, ws⟩) {current shown : InboxState InboxEvent}
    (hv : c.state.value = some current)
    (hs : shown.unreadOnly = current.unreadOnly ∧ shown.items = current.items ∧
      shown.nextCursor = current.nextCursor)
    (hw : w.current = some current) (he : ∀ v, e ≠ .call (.setUnreadOnly v)) :
    InboxInv first (es ++ [e]) ⟨{ c with state := .data shown }, ws ++ [w]⟩ where
  selected := by
    rw [selectedFilter_concat e he]
    exact h.selected
  shown s hs' := by
    cases hs'
    rw [hs.1, hs.2.1, hs.2.2]
    exact (h.shown current hv).mono
  captured v hv' s hs' := by
    rcases List.mem_append.mp hv' with hv' | hv'
    · exact (h.captured v hv' s hs').mono
    · obtain rfl := List.mem_singleton.mp hv'
      rw [hw] at hs'
      cases hs'
      exact (h.shown current hv).mono
  settled hnil := by simp at hnil

omit [DecidableEq InboxEvent] in
theorem InboxInv.idle (h : InboxInv first es ⟨c, ws⟩) (he : selectedFilter (es ++ [e]) = c.unreadOnly) :
    InboxInv first (es ++ [e]) ⟨c, ws ++ []⟩ := by
  rw [List.append_nil]
  exact ⟨he.symm, fun s hs => (h.shown s hs).mono, fun w hw s hs => (h.captured w hw s hs).mono,
    h.settled⟩

omit [DecidableEq InboxEvent] in
theorem InboxInv.setUnreadOnly (h : InboxInv first es ⟨c, ws⟩) (value : Bool) :
    InboxInv first (es ++ [.call (.setUnreadOnly value)])
      ⟨(InboxController.setUnreadOnly retain c value).1,
        ws ++ (InboxController.setUnreadOnly retain c value).2⟩ := by
  have hselected : selectedFilter (es ++ [.call (.setUnreadOnly value)]) = value := by
    simp [selectedFilter]
  unfold InboxController.setUnreadOnly
  split
  · next heq => exact h.idle (hselected.trans heq)
  · refine ⟨hselected.symm, fun s hs => ?_, fun w hw s hs => ?_, fun hnil => by simp at hnil⟩
    · cases retain with
      | true => exact (h.shown s hs).mono
      | false => cases hs
    · rcases List.mem_append.mp hw with hw | hw
      · exact (h.captured w hw s hs).mono
      · obtain rfl := List.mem_singleton.mp hw
        cases hs

omit [DecidableEq InboxEvent] in
theorem InboxInv.call (h : InboxInv first es ⟨c, ws⟩) (k : InboxCall) :
    InboxInv first (es ++ [.call k])
      ⟨(InboxController.call retain c k).1, ws ++ (InboxController.call retain c k).2⟩ := by
  cases k with
  | setUnreadOnly value => exact h.setUnreadOnly value
  | loadMore =>
    have hidle : InboxInv first (es ++ [.call .loadMore]) ⟨c, ws ++ []⟩ :=
      h.idle ((selectedFilter_concat _ (by simp)).trans h.selected.symm)
    simp only [InboxController.call, InboxController.loadMore]
    split
    · exact hidle
    · next current hv =>
      split
      · exact hidle
      · exact h.started hv ⟨rfl, rfl, rfl⟩ rfl (by simp)
  | markAllRead =>
    have hidle : InboxInv first (es ++ [.call .markAllRead]) ⟨c, ws ++ []⟩ :=
      h.idle ((selectedFilter_concat _ (by simp)).trans h.selected.symm)
    simp only [InboxController.call, InboxController.markAllRead]
    split
    · exact hidle
    · next current hv =>
      split
      · exact hidle
      · exact h.started hv ⟨rfl, rfl, rfl⟩ rfl (by simp)

/-- An answer that ends its call. -/
theorem InboxInv.finished (h : InboxInv first es ⟨c, ws⟩) {a : InboxAnswer InboxEvent}
    {state : AsyncValue (InboxState InboxEvent)}
    (hshown : ∀ s, state.value = some s →
      InboxListing first (es ++ [.answer w a]) s.unreadOnly s.items s.nextCursor)
    (hlast : ws.erase w = [] → Settled { c with state := state }) :
    InboxInv first (es ++ [.answer w a]) ⟨{ c with state := state }, ws.erase w ++ []⟩ := by
  rw [List.append_nil]
  refine ⟨?_, hshown, fun v hv s hs => (h.captured v (List.mem_of_mem_erase hv) s hs).mono, hlast⟩
  rw [selectedFilter_concat _ (by simp)]
  exact h.selected

omit [DecidableEq InboxEvent] in
theorem Settled.of_data {s : InboxState InboxEvent} (hf : s.isSettled = true)
    (hu : s.unreadOnly = c.unreadOnly) : Settled { c with state := .data s } where
  loaded := by simp
  flags s' hs := by
    cases hs
    exact hf
  filter s' hs := by
    cases hs
    exact hu

theorem InboxInv.loadedMore (h : InboxInv first es ⟨c, ws⟩) {current : InboxState InboxEvent}
    {next : Except Thrown (InboxPage InboxEvent)} (hw : .loadMore current ∈ ws)
    (hc : lastInTurn retain (.answer (.loadMore current) (.page next)) ⟨c, ws⟩ = true) :
    InboxInv first (es ++ [.answer (.loadMore current) (.page next)])
      ⟨c.loadedMore current next, ws.erase (.loadMore current) ++ []⟩ := by
  have hlist := (h.captured _ hw current rfl).mono (e := .answer (.loadMore current) (.page next))
  have hturn (hnil : ws.erase (.loadMore current) = []) :
      current.unreadOnly = c.unreadOnly ∧ current.isMarkingAllRead = false := by
    simpa [lastInTurn, hnil] using hc
  cases next with
  | ok page =>
    refine h.finished (fun s hs => ?_) fun hnil => ?_
    · cases hs
      exact .more hlist (List.mem_append_right _ (List.mem_singleton.mpr rfl))
    · exact .of_data (by simp [InboxState.isSettled, (hturn hnil).2]) (hturn hnil).1
  | error e =>
    refine h.finished (fun s hs => ?_) fun hnil => ?_
    · cases hs
      exact hlist
    · exact .of_data (by simp [InboxState.isSettled, (hturn hnil).2]) (hturn hnil).1

theorem InboxInv.unreadOnlySet (h : InboxInv first es ⟨c, ws⟩) {value : Bool}
    {next : Except Thrown (InboxPage InboxEvent)}
    (hc : lastInTurn retain (.answer (.setUnreadOnly value) (.page next)) ⟨c, ws⟩ = true) :
    InboxInv first (es ++ [.answer (.setUnreadOnly value) (.page next)])
      ⟨c.unreadOnlySet retain value next, ws.erase (.setUnreadOnly value) ++ []⟩ := by
  cases next with
  | ok page =>
    refine h.finished (fun s hs => ?_) fun hnil => ?_
    · cases hs
      exact .selected (List.mem_append_right _ (List.mem_singleton.mpr rfl))
    · exact .of_data rfl (by simpa [lastInTurn, hnil] using hc)
  | error e =>
    refine h.finished (fun s hs => ?_) fun hnil => ⟨by simp [AsyncValue.toError], fun s hs => ?_,
      by simp [AsyncValue.toError]⟩
    · cases retain with
      | true => exact (h.shown s hs).mono
      | false => cases hs
    · cases retain with
      | true =>
        have hv : c.state.value = some s := hs
        simpa [lastInTurn, hnil, hv] using hc
      | false => cases hs

/-- The `catch` of `markAllRead`, from either request. -/
theorem InboxInv.notMarked (h : InboxInv first es ⟨c, ws⟩) {current : InboxState InboxEvent}
    {a : InboxAnswer InboxEvent} (e : Thrown) (hw : w ∈ ws) (hcur : w.current = some current)
    (hc : ws.erase w = [] → current.unreadOnly = c.unreadOnly ∧ current.isLoadingMore = false) :
    InboxInv first (es ++ [.answer w a]) ⟨c.notMarked current e, ws.erase w ++ []⟩ := by
  refine h.finished (fun s hs => ?_) fun hnil => ?_
  · cases hs
    exact (h.captured w hw current hcur).mono
  · exact .of_data (by simp [InboxState.isSettled, (hc hnil).2]) (hc hnil).1

theorem InboxInv.markedAllRead (h : InboxInv first es ⟨c, ws⟩) {current : InboxState InboxEvent}
    {next : Except Thrown (InboxPage InboxEvent)} (hw : .markedAllRead current ∈ ws)
    (hc : lastInTurn retain (.answer (.markedAllRead current) (.page next)) ⟨c, ws⟩ = true) :
    InboxInv first (es ++ [.answer (.markedAllRead current) (.page next)])
      ⟨c.markedAllRead current next, ws.erase (.markedAllRead current) ++ []⟩ := by
  cases next with
  | ok page =>
    refine h.finished (fun s hs => ?_) fun hnil => ?_
    · have hlist : InboxListing first (es ++ [.answer (.markedAllRead current) (.page (.ok page))])
          current.unreadOnly page.items page.nextCursor :=
        .marked (List.mem_append_right _ (List.mem_singleton.mpr rfl))
      cases hs
      exact hlist
    · exact .of_data rfl (by simpa [lastInTurn, hnil] using hc)
  | error e =>
    exact h.notMarked e hw rfl fun hnil => by simpa [lastInTurn, hnil] using hc

/-- `markAllRead` goes on to ask for the list. -/
theorem InboxInv.marked (h : InboxInv first es ⟨c, ws⟩) {current : InboxState InboxEvent}
    {a : InboxAnswer InboxEvent} (hw : .markAllRead current ∈ ws) :
    InboxInv first (es ++ [.answer (.markAllRead current) a])
      ⟨c, ws.erase (.markAllRead current) ++ [.markedAllRead current]⟩ := by
  refine ⟨?_, fun s hs => (h.shown s hs).mono, fun v hv s hs => ?_, fun hnil => by simp at hnil⟩
  · rw [selectedFilter_concat _ (by simp)]
    exact h.selected
  · rcases List.mem_append.mp hv with hv | hv
    · exact (h.captured v (List.mem_of_mem_erase hv) s hs).mono
    · obtain rfl := List.mem_singleton.mp hv
      exact (h.captured _ hw s hs).mono

theorem InboxInv.answer (h : InboxInv first es ⟨c, ws⟩) {a : InboxAnswer InboxEvent}
    {c' : InboxController InboxEvent} {new : List (InboxWait InboxEvent)}
    (hc : lastInTurn retain (.answer w a) ⟨c, ws⟩ = true) (hw : w ∈ ws)
    (hr : InboxController.resume retain c w a = some (c', new)) :
    InboxInv first (es ++ [.answer w a]) ⟨c', ws.erase w ++ new⟩ := by
  unfold InboxController.resume at hr
  split at hr
  · cases hr
    exact h.loadedMore hw hc
  · cases hr
    exact h.unreadOnlySet hc
  · cases hr
    exact h.marked hw
  · cases hr
    exact h.notMarked _ hw rfl fun hnil => by simpa [lastInTurn, hnil] using hc
  · cases hr
    exact h.markedAllRead hw hc
  · cases hr

/-- With no request in flight no flag is set, and the inbox shows an error, or one load with its
continuations under the filter selected last. -/
structure InboxConsistent (first : Except Thrown (InboxPage InboxEvent))
    (es : List (InboxMove InboxEvent))
    (k : Config (InboxController InboxEvent) (InboxWait InboxEvent)) : Prop where
  flags : k.waits = [] → ∀ s, k.state.state.value = some s →
    s.isLoadingMore = false ∧ s.isMarkingAllRead = false
  settled : k.waits = [] → (∃ e previous, k.state.state = .error e previous) ∨
    ∃ s, k.state.state = .data s ∧ s.unreadOnly = selectedFilter es ∧
      InboxListing first es s.unreadOnly s.items s.nextCursor

end Invariant

namespace InboxScenario

def page : InboxPage Nat := ⟨[2, 1], some "c1"⟩

def shown : InboxState Nat := ⟨[2, 1], some "c1", false, false, none, false⟩

/-- A further page, which answers while the other filter is loading. -/
def inOrder : List (InboxMove Nat) :=
  [.call .loadMore, .call (.setUnreadOnly true),
    .answer (.loadMore shown) (.page (.ok ⟨[0], none⟩)),
    .answer (.setUnreadOnly true) (.page (.ok ⟨[2], none⟩))]

/-- The further page of the old filter answers last. -/
def overtaken : List (InboxMove Nat) :=
  [.call .loadMore, .call (.setUnreadOnly true),
    .answer (.setUnreadOnly true) (.page (.ok ⟨[2], none⟩)),
    .answer (.loadMore shown) (.page (.ok ⟨[0], none⟩))]

end InboxScenario

end Mobile

end Sosedi
