import Sosedi.Async.EventLoop
import Sosedi.Mobile.Riverpod

/-!
# The catalogue controller

Requests for the first page carry a number of their own, and an answer counts as long as no later
request for the first page was made.  `loadMore` shares the number of the request before it.

Proved here:

* `CatInv.refresh`, `CatInv.loadMore`, `CatInv.refreshed`, `CatInv.loadedMore`: every event keeps
  the invariant, where a request for the first page and a `loadMore` take turns;
* `catalog_consistent`: the list shown is one load with its continuations.
-/

namespace Sosedi

open Async

namespace Mobile

inductive CatalogSort where
  | newest
  | priceAsc
  | priceDesc
  deriving DecidableEq

def CatalogSort.apiValue : CatalogSort → String
  | newest => "newest"
  | priceAsc => "price_asc"
  | priceDesc => "price_desc"

/-- The fields of the controller that a request reads. -/
structure CatalogFilters where
  search : String := ""
  categoryId : Option String := none
  minPrice : Option Rat := none
  maxPrice : Option Rat := none
  availableFrom : Option String := none
  availableTo : Option String := none
  latitude : Option Rat := none
  longitude : Option Rat := none
  radiusKm : Option Rat := none
  sort : CatalogSort := .newest
  area : Option String := none
  deriving DecidableEq

/-- A request to `GET /items`. -/
structure CatalogQuery where
  offset : Nat
  filters : CatalogFilters
  deriving DecidableEq

structure CatalogState (Content : Type) where
  items : List (CatalogItem Content)
  hasMore : Bool
  nextOffset : Nat
  isLoadingMore : Bool := false
  isRefreshing : Bool := false
  refreshError : Option String := none
  deriving DecidableEq

structure CatalogController (Content : Type) where
  state : AsyncValue (CatalogState Content)
  requestId : Nat
  filters : CatalogFilters

inductive CatalogCall where
  | refreshCatalog (preserveCurrent : Bool)
  | loadMore
  | search (value : String)
  | selectCategory (value : Option String)
  | setPriceRange (minPrice maxPrice : Option Rat)
  | setAvailability (availableFrom availableTo : Option String)
  | setSort (sort : CatalogSort)
  | setArea (value : Option String)
  | setRadius (radiusKm : Option Rat)
  deriving DecidableEq

inductive CatalogWait (Content : Type) where
  | refresh (requestId : Nat) (current : Option (CatalogState Content)) (query : CatalogQuery)
  | loadMore (requestId : Nat) (current : CatalogState Content) (query : CatalogQuery)
  /-- `setRadius` before the answer of the location service. -/
  | position (radiusKm : Rat)
  deriving DecidableEq

inductive CatalogAnswer (Content : Type) where
  | fetched (next : Except Thrown (List (CatalogItem Content)))
  | position (latitude longitude : Rat)
  | noPosition (error : Thrown)

variable {Content : Type}

def catalogLimit : Nat := 20

/-- `fetchItems`, from the data of the response: the server is asked for one item more. -/
def fetched (query : CatalogQuery) (data : List (CatalogItem Content)) : CatalogState Content :=
  { items := data.take catalogLimit
    hasMore := catalogLimit < data.length
    nextOffset := query.offset + (data.take catalogLimit).length }

namespace CatalogController

variable (retain : Bool) (c : CatalogController Content)

/-- What is shown while a request for the first page is in flight. -/
def refreshing (state : AsyncValue (CatalogState Content)) :
    Option (CatalogState Content) → AsyncValue (CatalogState Content)
  | none => state.toLoading retain
  | some current => .data { current with isRefreshing := true, refreshError := none }

def refreshCatalog (preserveCurrent : Bool) :
    CatalogController Content × List (CatalogWait Content) :=
  let requestId := c.requestId + 1
  let current := if preserveCurrent then c.state.value else none
  ({ c with state := refreshing retain c.state current, requestId := requestId },
    [.refresh requestId current ⟨0, c.filters⟩])

/-- `refreshCatalog` from the answer on. -/
def refreshed (requestId : Nat) (current : Option (CatalogState Content)) (query : CatalogQuery)
    (next : Except Thrown (List (CatalogItem Content))) : CatalogController Content :=
  if requestId = c.requestId then
    match next, current with
    | .ok data, _ => { c with state := .data (fetched query data) }
    | .error e, some current => { c with
        state := .data { current with
          isRefreshing := false
          refreshError := some (userFacingError e "Не удалось обновить каталог") } }
    | .error e, none => { c with state := c.state.toError retain e }
  else c

def loadMore : CatalogController Content × List (CatalogWait Content) :=
  match c.state.value with
  | none => (c, [])
  | some current =>
    if !current.hasMore || current.isLoadingMore then (c, [])
    else
      ({ c with state := .data { current with isLoadingMore := true } },
        [.loadMore c.requestId current ⟨current.nextOffset, c.filters⟩])

/-- `loadMore` from the answer on. -/
def loadedMore (requestId : Nat) (current : CatalogState Content) (query : CatalogQuery)
    (next : Except Thrown (List (CatalogItem Content))) : CatalogController Content :=
  if requestId = c.requestId then
    match next with
    | .ok data => { c with
        state := .data { fetched query data with
          items := current.items ++ (fetched query data).items } }
    | .error e => { c with
        state := .data { current with
          isLoadingMore := false
          refreshError := some (userFacingError e "Не удалось загрузить следующую страницу") } }
  else c

/-- What the setters share: nothing happens where nothing changes, and else the first page is
loaded anew. -/
def changeFilters (same : Bool) (change : CatalogFilters → CatalogFilters) :
    CatalogController Content × List (CatalogWait Content) :=
  if same then (c, []) else refreshCatalog retain { c with filters := change c.filters } false

def search (value : String) : CatalogController Content × List (CatalogWait Content) :=
  let normalized := dartTrim value
  changeFilters retain c (normalized = c.filters.search)
    fun f => { f with search := normalized }

def selectCategory (value : Option String) :
    CatalogController Content × List (CatalogWait Content) :=
  let normalized := if value = some "" then none else value
  changeFilters retain c (normalized = c.filters.categoryId)
    fun f => { f with categoryId := normalized }

def setPriceRange (minPrice maxPrice : Option Rat) :
    CatalogController Content × List (CatalogWait Content) :=
  changeFilters retain c (minPrice = c.filters.minPrice && maxPrice = c.filters.maxPrice)
    fun f => { f with minPrice := minPrice, maxPrice := maxPrice }

def setAvailability (availableFrom availableTo : Option String) :
    CatalogController Content × List (CatalogWait Content) :=
  changeFilters retain c
    (availableFrom = c.filters.availableFrom && availableTo = c.filters.availableTo)
    fun f => { f with availableFrom := availableFrom, availableTo := availableTo }

def setSort (sort : CatalogSort) : CatalogController Content × List (CatalogWait Content) :=
  changeFilters retain c (sort = c.filters.sort) fun f => { f with sort := sort }

def setArea (value : Option String) : CatalogController Content × List (CatalogWait Content) :=
  let trimmed := dartTrim (value.getD "")
  let area := if trimmed = "" then none else some trimmed
  changeFilters retain c (area = c.filters.area && c.filters.radiusKm = none)
    fun f => { f with area := area, latitude := none, longitude := none, radiusKm := none }

def setRadius (radiusKm : Option Rat) : CatalogController Content × List (CatalogWait Content) :=
  match radiusKm with
  | none => changeFilters retain c (c.filters.radiusKm = none)
      fun f => { f with latitude := none, longitude := none, radiusKm := none }
  | some radiusKm =>
    if some radiusKm = c.filters.radiusKm then (c, []) else (c, [.position radiusKm])

/-- `setRadius` from the position on. -/
def located (radiusKm latitude longitude : Rat) :
    CatalogController Content × List (CatalogWait Content) :=
  changeFilters retain c false fun f => { f with
    latitude := some latitude
    longitude := some longitude
    radiusKm := some radiusKm
    area := none }

def call (k : CatalogCall) : CatalogController Content × List (CatalogWait Content) :=
  match k with
  | .refreshCatalog preserveCurrent => refreshCatalog retain c preserveCurrent
  | .loadMore => loadMore c
  | .search value => search retain c value
  | .selectCategory value => selectCategory retain c value
  | .setPriceRange minPrice maxPrice => setPriceRange retain c minPrice maxPrice
  | .setAvailability availableFrom availableTo =>
    setAvailability retain c availableFrom availableTo
  | .setSort sort => setSort retain c sort
  | .setArea value => setArea retain c value
  | .setRadius radiusKm => setRadius retain c radiusKm

def resume (w : CatalogWait Content) (a : CatalogAnswer Content) :
    Option (CatalogController Content × List (CatalogWait Content)) :=
  match w, a with
  | .refresh requestId current query, .fetched next =>
    some (refreshed retain c requestId current query next, [])
  | .loadMore requestId current query, .fetched next =>
    some (loadedMore c requestId current query next, [])
  | .position radiusKm, .position latitude longitude =>
    some (located retain c radiusKm latitude longitude)
  | .position _, .noPosition _ => some (c, [])
  | _, _ => none

end CatalogController

variable [DecidableEq Content]

def catalogLoop (retain : Bool) : Loop (CatalogController Content) CatalogCall
    (CatalogWait Content) (CatalogAnswer Content) where
  call := fun k c => CatalogController.call retain c k
  resume := fun w a c => CatalogController.resume retain c w a

/-- The controller after the initial load. -/
def catalogStart (first : Except Thrown (List (CatalogItem Content))) :
    Config (CatalogController Content) (CatalogWait Content) :=
  match first with
  | .ok data => ⟨⟨.data (fetched ⟨0, {}⟩ data), 1, {}⟩, []⟩
  | .error e => ⟨⟨.error e none, 1, {}⟩, []⟩

abbrev CatalogEvent (Content : Type) :=
  Event CatalogCall (CatalogWait Content) (CatalogAnswer Content)

/-- The pages of one load and of the `loadMore` calls that continued it, under the same filters:
their items in order, and the offset after them. -/
inductive Listing (first : Except Thrown (List (CatalogItem Content)))
    (es : List (CatalogEvent Content)) (filters : CatalogFilters) :
    List (CatalogItem Content) → Nat → Prop
  | first {data : List (CatalogItem Content)} : first = .ok data → filters = {} →
      Listing first es filters (fetched ⟨0, filters⟩ data).items
        (fetched ⟨0, filters⟩ data).nextOffset
  | load {requestId : Nat} {current : Option (CatalogState Content)}
      {data : List (CatalogItem Content)} :
      .answer (.refresh requestId current ⟨0, filters⟩) (.fetched (.ok data)) ∈ es →
      Listing first es filters (fetched ⟨0, filters⟩ data).items
        (fetched ⟨0, filters⟩ data).nextOffset
  | more {requestId : Nat} {current : CatalogState Content} {data : List (CatalogItem Content)} :
      Listing first es filters current.items current.nextOffset →
      .answer (.loadMore requestId current ⟨current.nextOffset, filters⟩) (.fetched (.ok data)) ∈ es →
      Listing first es filters
        (current.items ++ (fetched ⟨current.nextOffset, filters⟩ data).items)
        (fetched ⟨current.nextOffset, filters⟩ data).nextOffset

def CatalogWait.loadMoreId : CatalogWait Content → Option Nat
  | loadMore requestId _ _ => some requestId
  | _ => none

def CatalogWait.isRequest : CatalogWait Content → Bool
  | position _ => false
  | _ => true

namespace CatalogController

/-- `loadMore` goes on to ask for a page. -/
def loadsMore (c : CatalogController Content) : Bool :=
  match c.state.value with
  | none => false
  | some current => current.hasMore && !current.isLoadingMore

end CatalogController

/-- What is shown is taken over only where it is shown as data; when a request for the first page
answers, no `loadMore` of its number is in flight, and where it fails the list it puts back was
not loading more. -/
def inTurn (e : CatalogEvent Content)
    (k : Config (CatalogController Content) (CatalogWait Content)) : Bool :=
  match e with
  | .call (.refreshCatalog true) => k.state.state.value = none || k.state.state.isData
  | .call .loadMore => !k.state.loadsMore || k.state.state.isData
  | .answer (.refresh requestId current _) a =>
    requestId ≠ k.state.requestId ||
      (requestId ∉ k.waits.filterMap CatalogWait.loadMoreId &&
        match current, a with
        | some current, .fetched (.error _) => !current.isLoadingMore
        | _, _ => true)
  | _ => true

section Invariant

variable {retain : Bool} {first : Except Thrown (List (CatalogItem Content))}
  {es : List (CatalogEvent Content)} {e : CatalogEvent Content} {filters : CatalogFilters}
  {k : Config (CatalogController Content) (CatalogWait Content)}
  {c : CatalogController Content} {ws : List (CatalogWait Content)} {w : CatalogWait Content}

omit [DecidableEq Content] in
theorem Listing.mono {items : List (CatalogItem Content)} {offset : Nat}
    (h : Listing first es filters items offset) :
    Listing first (es ++ [e]) filters items offset := by
  induction h with
  | first hf hd => exact .first hf hd
  | load he => exact .load (List.mem_append_left _ he)
  | more _ he ih => exact .more ih (List.mem_append_left _ he)

def CatalogWait.number : CatalogWait Content → Option Nat
  | refresh requestId _ _ => some requestId
  | loadMore requestId _ _ => some requestId
  | position _ => none

omit [DecidableEq Content] in
@[simp] theorem number_position (radiusKm : Rat) :
    (CatalogWait.position radiusKm : CatalogWait Content).number = none := rfl

/-- A request for the first page is in flight whose answer counts. -/
def Refreshing (k : Config (CatalogController Content) (CatalogWait Content)) : Prop :=
  ∃ current query, .refresh k.state.requestId current query ∈ k.waits

structure CatInv (first : Except Thrown (List (CatalogItem Content)))
    (es : List (CatalogEvent Content))
    (k : Config (CatalogController Content) (CatalogWait Content)) : Prop where
  issued : ∀ w ∈ k.waits, ∀ n, w.number = some n → n ≤ k.state.requestId
  paging : (k.waits.filterMap CatalogWait.loadMoreId).Nodup
  loading : ∀ p, k.state.state = .loading p → Refreshing k
  shown : ∀ s, k.state.state = .data s →
    Listing first es k.state.filters s.items s.nextOffset ∧
      (s.isRefreshing = true → Refreshing k) ∧
      (s.isLoadingMore = true →
        Refreshing k ∨ k.state.requestId ∈ k.waits.filterMap CatalogWait.loadMoreId)
  refresh : ∀ current query, .refresh k.state.requestId current query ∈ k.waits →
    query = ⟨0, k.state.filters⟩ ∧
      ∀ s, current = some s → Listing first es k.state.filters s.items s.nextOffset
  loadMore : ∀ current query, .loadMore k.state.requestId current query ∈ k.waits →
    query = ⟨current.nextOffset, k.state.filters⟩ ∧
      Listing first es k.state.filters current.items current.nextOffset ∧
      k.state.state = .data { current with isLoadingMore := true }

omit [DecidableEq Content] in
/-- Nothing is in flight, and no flag of the list shown is set. -/
theorem CatInv.of_idle {state : AsyncValue (CatalogState Content)}
    (hloading : ∀ p, state ≠ .loading p)
    (hshown : ∀ s, state = .data s → Listing first es c.filters s.items s.nextOffset ∧
      s.isRefreshing = false ∧ s.isLoadingMore = false) :
    CatInv first es ⟨{ c with state := state }, []⟩ where
  issued w hw := absurd hw List.not_mem_nil
  paging := List.nodup_nil
  loading p hp := absurd hp (hloading p)
  shown s hs := by
    obtain ⟨hl, hr, hm⟩ := hshown s hs
    exact ⟨hl, by simp [hr], by simp [hm]⟩
  refresh current query hw := absurd hw List.not_mem_nil
  loadMore current query hw := absurd hw List.not_mem_nil

omit [DecidableEq Content] in
theorem CatInv.start : CatInv first [] (catalogStart first) := by
  cases first with
  | ok data =>
    refine CatInv.of_idle (c := ⟨.loading none, 1, {}⟩) (by simp) fun s hs => ?_
    cases hs
    exact ⟨.first rfl rfl, rfl, rfl⟩
  | error e => exact CatInv.of_idle (c := ⟨.loading none, 1, {}⟩) (by simp) (by simp)

omit [DecidableEq Content] in
theorem CatInv.snoc (h : CatInv first es k) (e : CatalogEvent Content) :
    CatInv first (es ++ [e]) k where
  issued := h.issued
  paging := h.paging
  loading := h.loading
  shown s hs := ⟨(h.shown s hs).1.mono, (h.shown s hs).2⟩
  refresh current query hw :=
    ⟨(h.refresh current query hw).1, fun s hs => ((h.refresh current query hw).2 s hs).mono⟩
  loadMore current query hw :=
    ⟨(h.loadMore current query hw).1, (h.loadMore current query hw).2.1.mono,
      (h.loadMore current query hw).2.2⟩

/-- An answer that does not count. -/
theorem CatInv.erase (h : CatInv first es ⟨c, ws⟩)
    (hw : ∀ n, w.number = some n → n ≠ c.requestId) : CatInv first es ⟨c, ws.erase w⟩ := by
  have hrefreshing : Refreshing ⟨c, ws⟩ → Refreshing ⟨c, ws.erase w⟩ := by
    rintro ⟨current, query, hr⟩
    refine ⟨current, query, (List.mem_erase_of_ne fun heq => ?_).mpr hr⟩
    exact hw c.requestId (by rw [← heq]; rfl) rfl
  have hmem : c.requestId ∈ ws.filterMap CatalogWait.loadMoreId →
      c.requestId ∈ (ws.erase w).filterMap CatalogWait.loadMoreId := by
    intro hm
    obtain ⟨v, hv, hid⟩ := List.mem_filterMap.mp hm
    refine List.mem_filterMap.mpr ⟨v, (List.mem_erase_of_ne ?_).mpr hv, hid⟩
    rintro rfl
    cases v with
    | loadMore id current query => exact hw id rfl (Option.some.inj hid)
    | refresh id current query => cases hid
    | position r => cases hid
  refine ⟨fun v hv => h.issued v (List.mem_of_mem_erase hv), Nodup.filterMap_erase h.paging,
    fun p hp => hrefreshing (h.loading p hp), fun s hs => ?_,
    fun current query hr => h.refresh current query (List.mem_of_mem_erase hr),
    fun current query hl => h.loadMore current query (List.mem_of_mem_erase hl)⟩
  obtain ⟨hlist, hr, hl⟩ := h.shown s hs
  exact ⟨hlist, fun hs => hrefreshing (hr hs), fun hs => (hl hs).imp hrefreshing hmem⟩

omit [DecidableEq Content] in
/-- A request for the first page, possibly under other filters. -/
theorem CatInv.refreshing (h : CatInv first es ⟨c, ws⟩) {current : Option (CatalogState Content)}
    (hcur : ∀ s, current = some s → Listing first es filters s.items s.nextOffset) :
    CatInv first es
      ⟨⟨CatalogController.refreshing retain c.state current, c.requestId + 1, filters⟩,
        ws ++ [.refresh (c.requestId + 1) current ⟨0, filters⟩]⟩ := by
  have hnew : ∀ w ∈ ws, w.number ≠ some (c.requestId + 1) := fun w hw hn =>
    absurd (h.issued w hw _ hn) (Nat.not_succ_le_self c.requestId)
  have hlast : Refreshing
      ⟨⟨CatalogController.refreshing retain c.state current, c.requestId + 1, filters⟩,
        ws ++ [.refresh (c.requestId + 1) current ⟨0, filters⟩]⟩ :=
    ⟨current, ⟨0, filters⟩, List.mem_append_right _ (List.mem_singleton.mpr rfl)⟩
  refine ⟨fun w hw n hn => ?_, ?_, fun _ _ => hlast, fun s hs => ⟨?_, fun _ => hlast,
    fun _ => .inl hlast⟩, fun cur query hr => ?_, fun cur query hl => ?_⟩
  · rcases List.mem_append.mp hw with hw | hw
    · exact Nat.le_succ_of_le (h.issued w hw n hn)
    · obtain rfl := List.mem_singleton.mp hw
      exact Nat.le_of_eq (Option.some.inj hn).symm
  · rw [List.filterMap_append]
    exact (List.append_nil _).symm ▸ h.paging
  · cases current with
    | none => cases hs
    | some cur =>
      cases hs
      exact hcur cur rfl
  · rcases List.mem_append.mp hr with hr | hr
    · exact absurd rfl (hnew _ hr)
    · obtain ⟨rfl, rfl⟩ : cur = current ∧ query = ⟨0, filters⟩ := by simpa using hr
      exact ⟨rfl, hcur⟩
  · rcases List.mem_append.mp hl with hl | hl
    · exact absurd rfl (hnew _ hl)
    · simp at hl

omit [DecidableEq Content] in
theorem CatInv.refreshCatalog (h : CatInv first es ⟨c, ws⟩) {preserveCurrent : Bool}
    (hc : preserveCurrent = true → c.state.value = none ∨ c.state.isData = true) :
    CatInv first es ⟨(CatalogController.refreshCatalog retain c preserveCurrent).1,
      ws ++ (CatalogController.refreshCatalog retain c preserveCurrent).2⟩ := by
  refine h.refreshing fun s hs => ?_
  cases preserveCurrent with
  | false => cases hs
  | true =>
    have hs : c.state.value = some s := hs
    rcases hc rfl with hnone | hdata
    · rw [hs] at hnone
      cases hnone
    · have hstate : c.state = .data s := AsyncValue.eq_data hdata hs
      exact (h.shown s hstate).1

variable (retain) in
omit [DecidableEq Content] in
/-- Every setter. -/
theorem CatInv.changeFilters (h : CatInv first es ⟨c, ws⟩) (same : Bool)
    (change : CatalogFilters → CatalogFilters) :
    CatInv first es ⟨(CatalogController.changeFilters retain c same change).1,
      ws ++ (CatalogController.changeFilters retain c same change).2⟩ := by
  cases same with
  | true => exact (List.append_nil ws).symm ▸ h
  | false => exact h.refreshing (by simp)

omit [DecidableEq Content] in
theorem CatInv.located (h : CatInv first es ⟨c, ws⟩) {radiusKm latitude longitude : Rat}
    {c' : CatalogController Content} {new : List (CatalogWait Content)}
    (hr : CatalogController.located retain c radiusKm latitude longitude = (c', new)) :
    CatInv first es ⟨c', ws ++ new⟩ := by
  have hchanged := h.changeFilters retain false fun f => { f with
    latitude := some latitude
    longitude := some longitude
    radiusKm := some radiusKm
    area := none }
  simp only [CatalogController.located] at hr
  rwa [hr] at hchanged

omit [DecidableEq Content] in
theorem CatInv.loadMore_call (h : CatInv first es ⟨c, ws⟩)
    (hc : c.loadsMore = true → c.state.isData = true) :
    CatInv first es ⟨c.loadMore.1, ws ++ c.loadMore.2⟩ := by
  have hidle : CatInv first es ⟨c, ws ++ []⟩ := (List.append_nil ws).symm ▸ h
  unfold CatalogController.loadMore
  split
  · exact hidle
  · next current hv =>
    split
    · exact hidle
    · next hguard =>
      have hguard : current.hasMore = true ∧ current.isLoadingMore = false := by
        simpa using hguard
      have hstate : c.state = .data current := by
        refine AsyncValue.eq_data (hc ?_) hv
        simp [CatalogController.loadsMore, hv, hguard]
      obtain ⟨hlist, hr, -⟩ := h.shown current hstate
      have hfree : c.requestId ∉ ws.filterMap CatalogWait.loadMoreId := by
        intro hm
        obtain ⟨w, hw, hid⟩ := List.mem_filterMap.mp hm
        cases w with
        | loadMore id cur query =>
          obtain rfl : id = c.requestId := Option.some.inj hid
          have hcur := (h.loadMore cur query hw).2.2
          rw [hstate] at hcur
          cases hcur
          cases hguard.2
        | refresh id cur query => cases hid
        | position r => cases hid
      have hrefreshing {state : AsyncValue (CatalogState Content)} {w : CatalogWait Content} :
          Refreshing ⟨c, ws⟩ → Refreshing ⟨{ c with state := state }, ws ++ [w]⟩ :=
        fun ⟨cur, query, hr⟩ => ⟨cur, query, List.mem_append_left _ hr⟩
      refine ⟨fun w hw n hn => ?_, Nodup.filterMap_concat h.paging rfl hfree, by simp,
        fun s hs => ?_, fun cur query hw => ?_, fun cur query hw => ?_⟩
      · rcases List.mem_append.mp hw with hw | hw
        · exact h.issued w hw n hn
        · obtain rfl := List.mem_singleton.mp hw
          exact Nat.le_of_eq (Option.some.inj hn).symm
      · cases hs
        refine ⟨hlist, fun hs => hrefreshing (hr hs), fun _ => .inr ?_⟩
        exact List.mem_filterMap.mpr ⟨_, List.mem_append_right _ (List.mem_singleton.mpr rfl), rfl⟩
      · rcases List.mem_append.mp hw with hw | hw
        · exact h.refresh cur query hw
        · simp at hw
      · rcases List.mem_append.mp hw with hw | hw
        · refine absurd ?_ hfree
          exact List.mem_filterMap.mpr ⟨_, hw, rfl⟩
        · obtain ⟨rfl, rfl⟩ : cur = current ∧ query = ⟨current.nextOffset, c.filters⟩ := by
            simpa using hw
          exact ⟨rfl, hlist, rfl⟩

/-- An answer that counts: what is shown next is no longer loading more. -/
theorem CatInv.settle (h : CatInv first es ⟨c, ws⟩) (e : CatalogEvent Content)
    {state : AsyncValue (CatalogState Content)}
    (hfree : c.requestId ∉ (ws.erase w).filterMap CatalogWait.loadMoreId)
    (hloading : ∀ p, state ≠ .loading p)
    (hshown : ∀ s, state = .data s →
      Listing first (es ++ [e]) c.filters s.items s.nextOffset ∧
        (s.isRefreshing = true → Refreshing ⟨c, ws.erase w⟩) ∧ s.isLoadingMore = false) :
    CatInv first (es ++ [e]) ⟨{ c with state := state }, ws.erase w⟩ where
  issued v hv := h.issued v (List.mem_of_mem_erase hv)
  paging := Nodup.filterMap_erase h.paging
  loading p hp := absurd hp (hloading p)
  shown s hs := by
    obtain ⟨hl, hr, hm⟩ := hshown s hs
    exact ⟨hl, hr, by simp [hm]⟩
  refresh current query hw := (h.snoc e).refresh current query (List.mem_of_mem_erase hw)
  loadMore current query hw := by
    refine absurd ?_ hfree
    exact List.mem_filterMap.mpr ⟨_, hw, rfl⟩

/-- The answer to a request for the first page. -/
theorem CatInv.refreshed (h : CatInv first es ⟨c, ws⟩) {requestId : Nat}
    {current : Option (CatalogState Content)} {query : CatalogQuery}
    {next : Except Thrown (List (CatalogItem Content))}
    (hc : inTurn (.answer (.refresh requestId current query) (.fetched next)) ⟨c, ws⟩ = true)
    (hw : .refresh requestId current query ∈ ws) :
    CatInv first (es ++ [.answer (.refresh requestId current query) (.fetched next)])
      ⟨c.refreshed retain requestId current query next,
        ws.erase (.refresh requestId current query)⟩ := by
  unfold CatalogController.refreshed
  split
  · next hid =>
    subst hid
    obtain ⟨hfree, hput⟩ : c.requestId ∉ ws.filterMap CatalogWait.loadMoreId ∧ _ := by
      simpa [inTurn] using hc
    rw [← filterMap_erase_of_none (w := .refresh c.requestId current query)
      CatalogWait.loadMoreId rfl] at hfree
    obtain ⟨rfl, hcur⟩ := h.refresh current query hw
    split
    · next data =>
      refine h.settle _ hfree (by simp) fun s hs => ?_
      cases hs
      exact ⟨.load (List.mem_append_right _ (List.mem_singleton.mpr rfl)), by simp [fetched], rfl⟩
    · next e cur =>
      refine h.settle _ hfree (by simp) fun s hs => ?_
      cases hs
      exact ⟨(hcur cur rfl).mono, by simp, by simpa using hput⟩
    · next e => exact h.settle _ hfree (by simp [AsyncValue.toError]) (by simp [AsyncValue.toError])
  · next hid => exact (h.erase fun n hn heq => hid (by cases hn; exact heq)).snoc _

/-- The answer to a request for a further page. -/
theorem CatInv.loadedMore (h : CatInv first es ⟨c, ws⟩) {requestId : Nat}
    {current : CatalogState Content} {query : CatalogQuery}
    {next : Except Thrown (List (CatalogItem Content))}
    (hw : .loadMore requestId current query ∈ ws) :
    CatInv first (es ++ [.answer (.loadMore requestId current query) (.fetched next)])
      ⟨c.loadedMore requestId current query next,
        ws.erase (.loadMore requestId current query)⟩ := by
  unfold CatalogController.loadedMore
  split
  · next hid =>
    subst hid
    have hfree : c.requestId ∉
        (ws.erase (.loadMore c.requestId current query)).filterMap CatalogWait.loadMoreId :=
      not_mem_of_nodup h.paging hw rfl
    obtain ⟨rfl, hcur, hstate⟩ := h.loadMore current query hw
    split
    · next data =>
      refine h.settle _ hfree (by simp) fun s hs => ?_
      cases hs
      exact ⟨.more hcur.mono (List.mem_append_right _ (List.mem_singleton.mpr rfl)),
        by simp [fetched], rfl⟩
    · next e =>
      refine h.settle _ hfree (by simp) fun s hs => ?_
      cases hs
      refine ⟨hcur.mono, fun hr => ?_, rfl⟩
      obtain ⟨cur, query, hm⟩ := (h.shown _ hstate).2.1 hr
      exact ⟨cur, query, (List.mem_erase_of_ne (by simp)).mpr hm⟩
  · next hid => exact (h.erase fun n hn heq => hid (by cases hn; exact heq)).snoc _

omit [DecidableEq Content] in
/-- `setRadius` asks for the position first. -/
theorem CatInv.locating (h : CatInv first es ⟨c, ws⟩) (radiusKm : Rat) :
    CatInv first es ⟨c, ws ++ [.position radiusKm]⟩ := by
  have hsame : (ws ++ [CatalogWait.position radiusKm]).filterMap CatalogWait.loadMoreId =
      ws.filterMap CatalogWait.loadMoreId := by
    rw [List.filterMap_append]
    exact List.append_nil _
  have hrefreshing : Refreshing ⟨c, ws⟩ → Refreshing ⟨c, ws ++ [.position radiusKm]⟩ :=
    fun ⟨cur, query, hr⟩ => ⟨cur, query, List.mem_append_left _ hr⟩
  refine ⟨fun w hw n hn => ?_, ?_, fun p hp => hrefreshing (h.loading p hp), fun s hs => ?_,
    fun cur query hr => ?_, fun cur query hl => ?_⟩
  · rcases List.mem_append.mp hw with hw | hw
    · exact h.issued w hw n hn
    · obtain rfl := List.mem_singleton.mp hw
      cases hn
  · rw [hsame]
    exact h.paging
  · obtain ⟨hl, hr, hm⟩ := h.shown s hs
    refine ⟨hl, fun hs => hrefreshing (hr hs), fun hs => (hm hs).imp hrefreshing fun hm => ?_⟩
    rw [hsame]
    exact hm
  · exact h.refresh cur query (by simpa using hr)
  · exact h.loadMore cur query (by simpa using hl)

omit [DecidableEq Content] in
theorem CatInv.call (h : CatInv first es ⟨c, ws⟩) (k : CatalogCall)
    (hc : inTurn (.call k) ⟨c, ws⟩ = true) :
    CatInv first es
      ⟨(CatalogController.call retain c k).1, ws ++ (CatalogController.call retain c k).2⟩ := by
  cases k with
  | refreshCatalog preserveCurrent =>
    refine h.refreshCatalog fun hp => ?_
    subst hp
    simpa [inTurn] using hc
  | loadMore =>
    refine h.loadMore_call fun hl => ?_
    simpa [inTurn, hl] using hc
  | search value =>
    simp only [CatalogController.call, CatalogController.search]
    exact h.changeFilters _ _ _
  | selectCategory value => exact h.changeFilters _ _ _
  | setPriceRange minPrice maxPrice => exact h.changeFilters _ _ _
  | setAvailability availableFrom availableTo => exact h.changeFilters _ _ _
  | setSort sort => exact h.changeFilters _ _ _
  | setArea value =>
    simp only [CatalogController.call, CatalogController.setArea]
    exact h.changeFilters _ _ _
  | setRadius radiusKm =>
    cases radiusKm with
    | none => exact h.changeFilters _ _ _
    | some radiusKm =>
      simp only [CatalogController.call, CatalogController.setRadius]
      split
      · exact (List.append_nil ws).symm ▸ h
      · exact h.locating radiusKm

theorem CatInv.answer (h : CatInv first es ⟨c, ws⟩) {a : CatalogAnswer Content}
    {c' : CatalogController Content} {new : List (CatalogWait Content)}
    (hc : inTurn (.answer w a) ⟨c, ws⟩ = true) (hw : w ∈ ws)
    (hr : CatalogController.resume retain c w a = some (c', new)) :
    CatInv first (es ++ [.answer w a]) ⟨c', ws.erase w ++ new⟩ := by
  unfold CatalogController.resume at hr
  split at hr
  · cases hr
    rw [List.append_nil]
    exact h.refreshed hc hw
  · cases hr
    rw [List.append_nil]
    exact h.loadedMore hw
  · next radiusKm latitude longitude =>
    have herase : CatInv first es ⟨c, ws.erase (.position radiusKm)⟩ := h.erase (by simp)
    have hlocated := herase.located (Option.some.inj hr)
    exact hlocated.snoc _
  · next radiusKm e =>
    cases hr
    have herase : CatInv first es ⟨c, ws.erase (.position radiusKm)⟩ := h.erase (by simp)
    rw [List.append_nil]
    exact herase.snoc _
  · cases hr

/-- What the catalogue shows after the events `es`. -/
structure CatalogConsistent (retain : Bool) (first : Except Thrown (List (CatalogItem Content)))
    (es : List (CatalogEvent Content))
    (k : Config (CatalogController Content) (CatalogWait Content)) : Prop where
  /-- The list shown is one load with its continuations, in order. -/
  listed : ∀ s, k.state.state = .data s →
    ∃ filters offset, Listing first es filters s.items offset
  /-- With no request in flight the catalogue shows a list without flags, or an error. -/
  settled : (∀ w ∈ k.waits, w.isRequest = false) →
    (∃ s, k.state.state = .data s ∧ s.isRefreshing = false ∧ s.isLoadingMore = false) ∨
      ∃ e previous, k.state.state = .error e previous
  /-- A `loadMore` that answers changes only the list that it was started from, which it
  extends. -/
  kept : ∀ requestId current query a k',
    (catalogLoop retain).step (.answer (.loadMore requestId current query) a) k = some k' →
      k'.state.state = k.state.state ∨
        ∃ s s', k.state.state = .data s ∧ s.items = current.items ∧
          k'.state.state = .data s' ∧ s.items <+: s'.items

end Invariant

namespace CatalogScenario

def item (n : Id) : CatalogItem Unit := ⟨n, ()⟩

/-- A full page, and an item that says that there are more. -/
def data (n : Id) : List (CatalogItem Unit) := (List.range 21).map fun i => item (n + i)

def page (n : Id) : CatalogState Unit := fetched ⟨0, {}⟩ (data n)

/-- A further page, a refresh that fails, and a search. -/
def inOrder : List (CatalogEvent Unit) :=
  [.call .loadMore,
    .answer (.loadMore 1 (page 0) ⟨20, {}⟩) (.fetched (.ok [item 50])),
    .call (.search " дрель "),
    .answer (.refresh 2 none ⟨0, { search := "дрель" }⟩) (.fetched (.ok [item 51]))]

/-- A refresh overtakes a further page, and fails. -/
def overtaken : List (CatalogEvent Unit) :=
  [.call .loadMore, .call (.refreshCatalog true),
    .answer (.loadMore 1 (page 0) ⟨20, {}⟩) (.fetched (.ok [item 50])),
    .answer (.refresh 2 (some { page 0 with isLoadingMore := true }) ⟨0, {}⟩)
      (.fetched (.error .other))]

/-- A further page is asked for during a refresh, which answers first. -/
def during : List (CatalogEvent Unit) :=
  [.call (.refreshCatalog true), .call .loadMore,
    .answer (.refresh 2 (some (page 0)) ⟨0, {}⟩) (.fetched (.ok (data 100)))]

end CatalogScenario

end Mobile

end Sosedi
