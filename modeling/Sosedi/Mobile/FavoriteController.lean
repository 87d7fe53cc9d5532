import Mathlib.Data.Finset.Basic
import Mathlib.Data.Finset.Dedup
import Sosedi.Async.EventLoop
import Sosedi.Mobile.Riverpod

/-!
# The favourites controller

`toggle` shows the list with the item switched, asks the server, and puts back the list it found
when the server refuses.  Toggles of different items overlap.

Proved here:

* `mem_ids_toggled`: what a toggle shows;
* `FavInv.toggle`, `FavInv.answer`: every event keeps the invariant, as long as a refused toggle
  finds the list it showed and a toggle that waited for the first list finds that list;
* `favorites_shown`: the list shown between toggles is the loaded one with the successful toggles.
-/

namespace Sosedi

open Async

namespace Mobile

variable {Content : Type}

def ids (items : List (CatalogItem Content)) : List Id := items.map (·.id)

def idSet (items : List (CatalogItem Content)) : Finset Id := (ids items).toFinset

/-- The answer of `GET /items/favorites`: a user has an item among the favourites once. -/
structure FavoriteList (Content : Type) where
  items : List (CatalogItem Content)
  nodup : (items.map (·.id)).Nodup
  deriving DecidableEq

structure FavoriteController (Content : Type) where
  state : AsyncValue (List (CatalogItem Content))
  /-- What the future of the first load completed with. -/
  future : Option (Except Thrown (FavoriteList Content))
  mutatingItemIds : Finset Id

inductive FavoriteCall (Content : Type) where
  | toggle (item : CatalogItem Content)
  deriving DecidableEq

inductive FavoriteWait (Content : Type) where
  | build
  /-- A toggle before its `await future`. -/
  | future (item : CatalogItem Content)
  /-- A toggle before the answer of `add` or `remove`. -/
  | mutation (item : CatalogItem Content) (previous : List (CatalogItem Content))
      (wasFavorite : Bool)
  deriving DecidableEq

inductive FavoriteAnswer (Content : Type) where
  | list (favorites : FavoriteList Content)
  | ready
  | done
  | failed (error : Thrown)
  deriving DecidableEq

def wasFavorite (item : CatalogItem Content) (previous : List (CatalogItem Content)) : Bool :=
  previous.any fun value => value.id == item.id

/-- The list that a toggle of `item` shows. -/
def toggled (item : CatalogItem Content) (previous : List (CatalogItem Content)) :
    List (CatalogItem Content) :=
  if wasFavorite item previous then previous.filter fun value => value.id != item.id
  else item :: previous

namespace FavoriteController

/-- `toggle` from where it has the list. -/
def mutate (item : CatalogItem Content) (previous : List (CatalogItem Content))
    (c : FavoriteController Content) : FavoriteController Content × List (FavoriteWait Content) :=
  ({ c with state := .data (toggled item previous) },
    [.mutation item previous (wasFavorite item previous)])

def toggle (item : CatalogItem Content) (c : FavoriteController Content) :
    FavoriteController Content × List (FavoriteWait Content) :=
  if item.id ∈ c.mutatingItemIds then (c, [])
  else
    let c := { c with mutatingItemIds := insert item.id c.mutatingItemIds }
    match c.state.value with
    | some previous => mutate item previous c
    | none => (c, [.future item])

def resume (w : FavoriteWait Content) (a : FavoriteAnswer Content)
    (c : FavoriteController Content) :
    Option (FavoriteController Content × List (FavoriteWait Content)) :=
  match w, a with
  | .build, .list l => some ({ c with state := .data l.items, future := some (.ok l) }, [])
  | .build, .failed e => some ({ c with state := .error e none, future := some (.error e) }, [])
  | .future item, .ready =>
    match c.future with
    | some (.ok l) => some (mutate item l.items c)
    -- `await future` throws before the `try`: the item stays among the mutating ones
    | some (.error _) => some (c, [])
    | none => none
  | .mutation item _ _, .done =>
    some ({ c with mutatingItemIds := c.mutatingItemIds.erase item.id }, [])
  | .mutation item previous _, .failed _ =>
    some ({ c with
      state := .data previous
      mutatingItemIds := c.mutatingItemIds.erase item.id }, [])
  | _, _ => none

end FavoriteController

def favoriteLoop : Loop (FavoriteController Content) (FavoriteCall Content)
    (FavoriteWait Content) (FavoriteAnswer Content) where
  call := fun (.toggle item) => FavoriteController.toggle item
  resume := FavoriteController.resume

/-- The controller while the first list is loading. -/
def favoriteStart : Config (FavoriteController Content) (FavoriteWait Content) :=
  ⟨⟨.loading none, none, ∅⟩, [.build]⟩

abbrev FavoriteEvent (Content : Type) := Event (FavoriteCall Content) (FavoriteWait Content)
  (FavoriteAnswer Content)

/-- The item of a toggle in flight. -/
def FavoriteWait.toggling : FavoriteWait Content → Option Id
  | build => none
  | future item => some item.id
  | mutation item _ _ => some item.id

/-- The item of a toggle that the server is asked for. -/
def FavoriteWait.mutating : FavoriteWait Content → Option Id
  | mutation item _ _ => some item.id
  | _ => none

/-- What a successful toggle makes of the favourites. -/
def applyEvent (favorites : Finset Id) : FavoriteEvent Content → Finset Id
  | .answer (.mutation item _ was) .done =>
    if was then favorites.erase item.id else insert item.id favorites
  | _ => favorites

def applied (loaded : Finset Id) (es : List (FavoriteEvent Content)) : Finset Id :=
  es.foldl applyEvent loaded

/-- A refused toggle finds the list that it showed; a toggle that waited for the first list finds
that list. -/
def findsItsList (e : FavoriteEvent Content)
    (k : Config (FavoriteController Content) (FavoriteWait Content)) : Bool :=
  match e with
  | .answer (.mutation item previous _) (.failed _) =>
    k.state.state.value.map idSet = some (idSet (toggled item previous))
  | .answer (.future _) .ready =>
    match k.state.future with
    | some (.ok l) => k.state.state.value.map idSet = some (idSet l.items)
    | _ => true
  | _ => true

section Lists

variable {item : CatalogItem Content} {l : List (CatalogItem Content)} {x : Id}

@[simp] theorem mem_idSet : x ∈ idSet l ↔ x ∈ ids l := List.mem_toFinset

theorem wasFavorite_iff : wasFavorite item l = true ↔ item.id ∈ ids l := by
  simp [wasFavorite, ids]

/-- What a toggle shows. -/
theorem mem_ids_toggled :
    x ∈ ids (toggled item l) ↔ if x = item.id then item.id ∉ ids l else x ∈ ids l := by
  unfold toggled
  split
  · next hw =>
    have hkept : x ∈ ids (l.filter fun value => value.id != item.id) ↔
        x ∈ ids l ∧ x ≠ item.id := by
      simp only [ids, List.mem_map, List.mem_filter, bne_iff_ne]
      constructor
      · rintro ⟨v, ⟨hv, hne⟩, rfl⟩
        exact ⟨⟨v, hv, rfl⟩, hne⟩
      · rintro ⟨⟨v, hv, rfl⟩, hne⟩
        exact ⟨v, ⟨hv, hne⟩, rfl⟩
    rw [hkept]
    by_cases hx : x = item.id
    · simp [hx, wasFavorite_iff.mp hw]
    · simp [hx]
  · next hw =>
    have hmem := mt wasFavorite_iff.mpr hw
    have hcons : ids (item :: l) = item.id :: ids l := rfl
    rw [hcons, List.mem_cons]
    by_cases hx : x = item.id
    · simp [hx, hmem]
    · simp [hx]

theorem nodup_toggled (h : (ids l).Nodup) : (ids (toggled item l)).Nodup := by
  unfold toggled
  split
  · exact h.sublist (List.filter_sublist.map _)
  · next hw => exact List.nodup_cons.mpr ⟨mt wasFavorite_iff.mpr hw, h⟩

end Lists

/-- The list shown, against the favourites that the successful toggles have made: they differ by
the toggles in flight. -/
structure Shown (favorites : Finset Id) (items : List (CatalogItem Content))
    (ws : List (FavoriteWait Content)) : Prop where
  nodup : (ids items).Nodup
  idle : ∀ x, x ∉ ws.filterMap FavoriteWait.mutating → (x ∈ ids items ↔ x ∈ favorites)
  previous : ∀ item previous was, FavoriteWait.mutation item previous was ∈ ws →
    (ids previous).Nodup ∧ (was = true ↔ item.id ∈ ids previous)
  flying : ∀ item previous was, FavoriteWait.mutation item previous was ∈ ws →
    (was = true ↔ item.id ∈ favorites) ∧ (item.id ∈ ids items ↔ ¬ was = true)

section Steps

variable {favorites : Finset Id}
  {items previous : List (CatalogItem Content)} {ws : List (FavoriteWait Content)}
  {item : CatalogItem Content} {was : Bool}

theorem mem_mutating (hw : FavoriteWait.mutation item previous was ∈ ws) :
    item.id ∈ ws.filterMap FavoriteWait.mutating :=
  List.mem_filterMap.mpr ⟨_, hw, rfl⟩

theorem Shown.of_list (l : FavoriteList Content)
    (h : ws.filterMap FavoriteWait.mutating = []) : Shown (idSet l.items) l.items ws where
  nodup := l.nodup
  idle x _ := mem_idSet.symm
  previous item previous was hw := absurd (mem_mutating hw) (by simp [h])
  flying item previous was hw := absurd (mem_mutating hw) (by simp [h])

/-- A toggle starts from a list that shows what is shown. -/
theorem Shown.mutate (h : Shown favorites items ws) (hp : idSet items = idSet previous)
    (hn : (ids previous).Nodup) (hx : item.id ∉ ws.filterMap FavoriteWait.mutating) :
    Shown favorites (toggled item previous)
      (ws ++ [.mutation item previous (wasFavorite item previous)]) where
  nodup := nodup_toggled hn
  idle x hidle := by
    obtain ⟨hfly, hne⟩ : x ∉ ws.filterMap FavoriteWait.mutating ∧ x ≠ item.id := by
      simpa [FavoriteWait.mutating] using hidle
    rw [mem_ids_toggled, if_neg hne, ← mem_idSet, ← hp, mem_idSet]
    exact h.idle x hfly
  previous item' previous' was' hw := by
    rcases List.mem_append.mp hw with hw | hw
    · exact h.previous item' previous' was' hw
    · obtain ⟨rfl, rfl, rfl⟩ := by simpa using hw
      exact ⟨hn, wasFavorite_iff⟩
  flying item' previous' was' hw := by
    rcases List.mem_append.mp hw with hw | hw
    · have hne : item'.id ≠ item.id := fun heq =>
        hx (heq ▸ mem_mutating hw)
      rw [mem_ids_toggled, if_neg hne, ← mem_idSet, ← hp, mem_idSet]
      exact h.flying item' previous' was' hw
    · obtain ⟨rfl, rfl, rfl⟩ := by simpa using hw
      rw [mem_ids_toggled, if_pos rfl, wasFavorite_iff, ← h.idle _ hx, ← mem_idSet, ← mem_idSet,
        hp]
      exact ⟨Iff.rfl, Iff.rfl⟩

variable [DecidableEq Content]

/-- What remains in flight when a toggle is over concerns other items. -/
theorem mutating_ne (hbusy : (ws.filterMap FavoriteWait.toggling).Nodup)
    (hw : FavoriteWait.mutation item previous was ∈ ws) {item' : CatalogItem Content}
    {previous' : List (CatalogItem Content)} {was' : Bool}
    (hw' : .mutation item' previous' was' ∈ ws.erase (.mutation item previous was)) :
    item'.id ≠ item.id :=
  ne_of_nodup hbusy hw rfl hw' rfl

theorem mem_mutating_erase {x : Id} (hx : x ≠ item.id)
    (hw : FavoriteWait.mutation item previous was ∈ ws)
    (h : x ∉ (ws.erase (.mutation item previous was)).filterMap FavoriteWait.mutating) :
    x ∉ ws.filterMap FavoriteWait.mutating := by
  have hperm := filterMap_perm_of_mem FavoriteWait.mutating hw rfl
  rw [hperm.mem_iff, List.mem_cons]
  exact not_or.mpr ⟨hx, h⟩

theorem Shown.done (h : Shown favorites items ws)
    (hbusy : (ws.filterMap FavoriteWait.toggling).Nodup)
    (hw : FavoriteWait.mutation item previous was ∈ ws) :
    Shown (applyEvent favorites (.answer (.mutation item previous was) .done)) items
      (ws.erase (.mutation item previous was)) := by
  have hmem (x : Id) :
      x ∈ applyEvent favorites (.answer (.mutation item previous was) .done) ↔
        if x = item.id then ¬ was = true else x ∈ favorites := by
    by_cases hx : x = item.id <;> cases was <;> simp [applyEvent, hx]
  constructor
  · exact h.nodup
  · intro x hidle
    rw [hmem]
    by_cases hx : x = item.id
    · rw [if_pos hx, hx]
      exact (h.flying item previous was hw).2
    · rw [if_neg hx]
      exact h.idle x (mem_mutating_erase hx hw hidle)
  · intro item' previous' was' hw'
    exact h.previous item' previous' was' (List.mem_of_mem_erase hw')
  · intro item' previous' was' hw'
    rw [hmem, if_neg (mutating_ne hbusy hw hw')]
    exact h.flying item' previous' was' (List.mem_of_mem_erase hw')

/-- A refused toggle that finds the list it showed. -/
theorem Shown.failed (h : Shown favorites items ws)
    (hbusy : (ws.filterMap FavoriteWait.toggling).Nodup)
    (hw : FavoriteWait.mutation item previous was ∈ ws)
    (hfind : idSet items = idSet (toggled item previous)) :
    Shown favorites previous (ws.erase (.mutation item previous was)) := by
  have hsame {x : Id} (hx : x ≠ item.id) : x ∈ ids previous ↔ x ∈ ids items := by
    rw [← mem_idSet (l := items), hfind, mem_idSet, mem_ids_toggled, if_neg hx]
  constructor
  · exact (h.previous item previous was hw).1
  · intro x hidle
    by_cases hx : x = item.id
    · rw [hx, ← (h.previous item previous was hw).2]
      exact (h.flying item previous was hw).1
    · rw [hsame hx]
      exact h.idle x (mem_mutating_erase hx hw hidle)
  · intro item' previous' was' hw'
    exact h.previous item' previous' was' (List.mem_of_mem_erase hw')
  · intro item' previous' was' hw'
    rw [hsame (mutating_ne hbusy hw hw')]
    exact h.flying item' previous' was' (List.mem_of_mem_erase hw')

/-- A toggle that only waited for the first list leaves the list shown. -/
theorem Shown.erase (h : Shown favorites items ws) {w : FavoriteWait Content}
    (hw : w.mutating = none) : Shown favorites items (ws.erase w) where
  nodup := h.nodup
  idle x hx := h.idle x (by rwa [filterMap_erase_of_none _ hw] at hx)
  previous item previous was hm := h.previous item previous was (List.mem_of_mem_erase hm)
  flying item previous was hm := h.flying item previous was (List.mem_of_mem_erase hm)

end Steps

section Invariant

variable [DecidableEq Content]

structure FavInv (es : List (FavoriteEvent Content))
    (k : Config (FavoriteController Content) (FavoriteWait Content)) : Prop where
  busy : (k.waits.filterMap FavoriteWait.toggling).Nodup
  held : ∀ x ∈ k.waits.filterMap FavoriteWait.toggling, x ∈ k.state.mutatingItemIds
  building : k.waits.count .build = if k.state.future.isNone then 1 else 0
  unloaded : (∀ l, k.state.future ≠ some (.ok l)) →
    k.state.state.value = none ∧ k.waits.filterMap FavoriteWait.mutating = [] ∧
      ∀ loaded, applied loaded es = loaded
  loaded : ∀ l, k.state.future = some (.ok l) →
    ∃ items, k.state.state = .data items ∧ Shown (applied (idSet l.items) es) items k.waits

variable {es : List (FavoriteEvent Content)}
  {k : Config (FavoriteController Content) (FavoriteWait Content)}

omit [DecidableEq Content] in
theorem applied_concat (loaded : Finset Id) (e : FavoriteEvent Content) :
    applied loaded (es ++ [e]) = applyEvent (applied loaded es) e := by
  simp [applied]

theorem FavInv.start : FavInv ([] : List (FavoriteEvent Content)) favoriteStart where
  busy := List.nodup_nil
  held := by simp [favoriteStart, FavoriteWait.toggling]
  building := by simp [favoriteStart]
  unloaded _ := ⟨rfl, rfl, fun _ => rfl⟩
  loaded l h := by cases h

variable {c : FavoriteController Content} {ws : List (FavoriteWait Content)}
  {item : CatalogItem Content}

omit [DecidableEq Content] in
theorem mem_toggling {x : Id} (hx : x ∈ ws.filterMap FavoriteWait.mutating) :
    x ∈ ws.filterMap FavoriteWait.toggling := by
  obtain ⟨w, hw, hm⟩ := List.mem_filterMap.mp hx
  refine List.mem_filterMap.mpr ⟨w, hw, ?_⟩
  cases w with
  | mutation item previous was => exact hm
  | build => cases hm
  | future item => cases hm

/-- An event that changes neither the favourites nor what is in flight. -/
theorem FavInv.idle (h : FavInv es ⟨c, ws⟩) {e : FavoriteEvent Content}
    (he : ∀ favorites, applyEvent favorites e = favorites) : FavInv (es ++ [e]) ⟨c, ws ++ []⟩ := by
  rw [List.append_nil]
  refine ⟨h.busy, h.held, h.building, fun hl => ?_, fun l hl => ?_⟩
  · obtain ⟨hv, hm, ha⟩ := h.unloaded hl
    exact ⟨hv, hm, fun loaded => by rw [applied_concat, he, ha]⟩
  · rw [applied_concat, he]
    exact h.loaded l hl

/-- A toggle that has the list asks the server. -/
theorem FavInv.mutate (h : FavInv es ⟨c, ws⟩) {e : FavoriteEvent Content} {l : FavoriteList Content}
    {items previous : List (CatalogItem Content)}
    (he : ∀ favorites, applyEvent favorites e = favorites)
    (hf : c.future = some (.ok l)) (hi : c.state = .data items)
    (hp : idSet items = idSet previous) (hn : (ids previous).Nodup)
    (hx : item.id ∉ ws.filterMap FavoriteWait.toggling) (m : Finset Id)
    (hm : ∀ x ∈ item.id :: ws.filterMap FavoriteWait.toggling, x ∈ m) :
    FavInv (es ++ [e])
      ⟨(FavoriteController.mutate item previous { c with mutatingItemIds := m }).1,
        ws ++ (FavoriteController.mutate item previous { c with mutatingItemIds := m }).2⟩ := by
  refine ⟨?_, ?_, ?_, fun hl => absurd hf (hl l), fun l' hl => ?_⟩
  · exact Nodup.filterMap_concat h.busy rfl hx
  · intro x hx'
    refine hm x ?_
    simpa [FavoriteController.mutate, FavoriteWait.toggling, or_comm] using hx'
  · simpa [FavoriteController.mutate, List.count_append] using h.building
  · obtain rfl : l = l' := by
      rw [hf] at hl
      cases hl
      rfl
    obtain ⟨items', hi', hs⟩ := h.loaded l hf
    obtain rfl : items = items' := by
      rw [hi] at hi'
      cases hi'
      rfl
    rw [applied_concat, he]
    exact ⟨_, rfl, hs.mutate hp hn (mt mem_toggling hx)⟩

theorem FavInv.toggle (h : FavInv es ⟨c, ws⟩) :
    FavInv (es ++ [.call (.toggle item)])
      ⟨(FavoriteController.toggle item c).1, ws ++ (FavoriteController.toggle item c).2⟩ := by
  unfold FavoriteController.toggle
  split
  · exact h.idle fun _ => rfl
  · next hfree =>
    have hx : item.id ∉ ws.filterMap FavoriteWait.toggling := fun hm => hfree (h.held _ hm)
    have hm : ∀ x ∈ item.id :: ws.filterMap FavoriteWait.toggling,
        x ∈ insert item.id c.mutatingItemIds := by
      intro x hx'
      rcases List.mem_cons.mp hx' with rfl | hx'
      · exact Finset.mem_insert_self _ _
      · exact Finset.mem_insert_of_mem (h.held x hx')
    by_cases hl : ∃ l, c.future = some (.ok l)
    · obtain ⟨l, hl⟩ := hl
      obtain ⟨items, hi, hs⟩ := h.loaded l hl
      have hi : c.state = .data items := hi
      simp only [hi, AsyncValue.value_data]
      exact h.mutate (fun _ => rfl) hl hi rfl hs.nodup hx _ hm
    · obtain ⟨hv, hmut, ha⟩ := h.unloaded fun l heq => hl ⟨l, heq⟩
      simp only [hv]
      refine ⟨?_, ?_, ?_, fun _ => ⟨hv, ?_, fun loaded => ?_⟩, fun l heq => absurd ⟨l, heq⟩ hl⟩
      · exact Nodup.filterMap_concat h.busy rfl hx
      · intro x hx'
        refine hm x ?_
        simpa [FavoriteWait.toggling, or_comm] using hx'
      · simpa [List.count_append] using h.building
      · simpa [FavoriteWait.mutating] using hmut
      · rw [applied_concat, ha]
        rfl

theorem FavInv.erase (h : FavInv es ⟨c, ws⟩) (w : FavoriteWait Content) :
    ((ws.erase w).filterMap FavoriteWait.toggling).Nodup ∧
      ∀ x ∈ (ws.erase w).filterMap FavoriteWait.toggling, x ∈ c.mutatingItemIds :=
  ⟨Nodup.filterMap_erase h.busy, fun x hx =>
    h.held x ((List.erase_sublist.filterMap FavoriteWait.toggling).subset hx)⟩

/-- The first load answers. -/
theorem FavInv.built (h : FavInv es ⟨c, ws⟩) (hw : .build ∈ ws)
    {state : AsyncValue (List (CatalogItem Content))}
    {future : Except Thrown (FavoriteList Content)} {a : FavoriteAnswer Content}
    (hs : (∃ e, future = .error e ∧ state = .error e none) ∨
      ∃ l, future = .ok l ∧ state = .data l.items) :
    FavInv (es ++ [.answer .build a])
      ⟨{ c with state := state, future := some future }, ws.erase .build ++ []⟩ := by
  have hfuture : c.future = none := by
    have hb := h.building
    have hpos : 0 < ws.count .build := List.count_pos_iff.mpr hw
    cases hf : c.future with
    | none => rfl
    | some r => simp [hf] at hb; omega
  obtain ⟨-, hm, ha⟩ := h.unloaded fun l hl => by
    rw [show c.future = some (.ok l) from hl] at hfuture
    cases hfuture
  have hm : (ws.erase .build).filterMap FavoriteWait.mutating = [] := by
    rw [filterMap_erase_of_none FavoriteWait.mutating rfl]
    exact hm
  have happ (loaded : Finset Id) :
      applied loaded (es ++ [.answer .build a]) = loaded := by
    rw [applied_concat, ha]
    rfl
  rw [List.append_nil]
  refine ⟨(h.erase _).1, (h.erase _).2, ?_, fun hl => ?_, fun l hl => ?_⟩
  · have hb := h.building
    simp only [hfuture, Option.isNone_none, if_true] at hb
    simp [hb]
  · rcases hs with ⟨e, rfl, rfl⟩ | ⟨l, rfl, rfl⟩
    · exact ⟨rfl, hm, happ⟩
    · exact absurd rfl (hl l)
  · rcases hs with ⟨e, rfl, rfl⟩ | ⟨l', rfl, rfl⟩
    · cases hl
    · cases hl
      rw [happ]
      exact ⟨_, rfl, Shown.of_list _ hm⟩

/-- A toggle that waited for the first list is no longer waiting. -/
theorem FavInv.awaited (h : FavInv es ⟨c, ws⟩) : FavInv es ⟨c, ws.erase (.future item)⟩ where
  busy := (h.erase _).1
  held := (h.erase _).2
  building := by
    have hne : (FavoriteWait.build : FavoriteWait Content) ≠ .future item := by simp
    rw [List.count_erase_of_ne hne]
    exact h.building
  unloaded hl := by
    obtain ⟨hv, hm, ha⟩ := h.unloaded hl
    refine ⟨hv, ?_, ha⟩
    rw [filterMap_erase_of_none FavoriteWait.mutating rfl]
    exact hm
  loaded l hl := by
    obtain ⟨items, hi, hs⟩ := h.loaded l hl
    exact ⟨items, hi, hs.erase rfl⟩

/-- The server has answered a toggle. -/
theorem FavInv.mutated (h : FavInv es ⟨c, ws⟩) {previous : List (CatalogItem Content)}
    {was : Bool} {a : FavoriteAnswer Content} {state : AsyncValue (List (CatalogItem Content))}
    (hw : .mutation item previous was ∈ ws)
    (hs : ∀ favorites items, c.state = .data items → Shown favorites items ws →
      ∃ items', state = .data items' ∧
        Shown (applyEvent favorites (.answer (.mutation item previous was) a)) items'
          (ws.erase (.mutation item previous was))) :
    FavInv (es ++ [.answer (.mutation item previous was) a])
      ⟨{ c with state := state, mutatingItemIds := c.mutatingItemIds.erase item.id },
        ws.erase (.mutation item previous was) ++ []⟩ := by
  rw [List.append_nil]
  refine ⟨(h.erase _).1, fun x hx => ?_, ?_, fun hl => ?_, fun l hl => ?_⟩
  · refine Finset.mem_erase.mpr ⟨?_, (h.erase _).2 x hx⟩
    rintro rfl
    exact not_mem_of_nodup h.busy hw rfl hx
  · have hne : (FavoriteWait.build : FavoriteWait Content) ≠ .mutation item previous was := by simp
    rw [List.count_erase_of_ne hne]
    exact h.building
  · obtain ⟨-, hm, -⟩ := h.unloaded hl
    exact absurd (mem_mutating hw) (by simp [show ws.filterMap FavoriteWait.mutating = [] from hm])
  · obtain ⟨items, hi, hshown⟩ := h.loaded l hl
    rw [applied_concat]
    exact hs _ items hi hshown

theorem FavInv.answer (h : FavInv es ⟨c, ws⟩) {w : FavoriteWait Content}
    {a : FavoriteAnswer Content} {c' : FavoriteController Content}
    {new : List (FavoriteWait Content)} (hc : findsItsList (.answer w a) ⟨c, ws⟩ = true)
    (hw : w ∈ ws) (hr : FavoriteController.resume w a c = some (c', new)) :
    FavInv (es ++ [.answer w a]) ⟨c', ws.erase w ++ new⟩ := by
  unfold FavoriteController.resume at hr
  split at hr
  · next l =>
    cases hr
    exact h.built hw (.inr ⟨l, rfl, rfl⟩)
  · next e =>
    cases hr
    exact h.built hw (.inl ⟨e, rfl, rfl⟩)
  · next item =>
    split at hr
    · next l hl =>
      cases hr
      obtain ⟨items, hi, -⟩ := h.loaded l hl
      have hi : c.state = .data items := hi
      have hsame : idSet items = idSet l.items := by
        simpa [findsItsList, hl, hi] using hc
      exact h.awaited.mutate (fun _ => rfl) hl hi hsame l.nodup (not_mem_of_nodup h.busy hw rfl)
        c.mutatingItemIds fun x hx => h.held x
          ((filterMap_perm_of_mem FavoriteWait.toggling hw rfl).mem_iff.mpr hx)
    · cases hr
      exact h.awaited.idle fun _ => rfl
    · cases hr
  · next item previous was =>
    cases hr
    exact h.mutated hw fun favorites items hi hs => ⟨items, hi, hs.done h.busy hw⟩
  · next item previous was e =>
    cases hr
    refine h.mutated hw fun favorites items hi hs => ⟨previous, rfl, ?_⟩
    have hsame : idSet items = idSet (toggled item previous) := by
      simpa [findsItsList, hi] using hc
    exact hs.failed h.busy hw hsame
  · cases hr

/-- Between toggles the list shows the loaded favourites with exactly the successful toggles
applied, each item once. -/
structure FavoritesShown (es : List (FavoriteEvent Content))
    (k : Config (FavoriteController Content) (FavoriteWait Content)) : Prop where
  shown : (∀ w ∈ k.waits, w.toggling = none) → ∀ l, k.state.future = some (.ok l) →
    ∃ items, k.state.state = .data items ∧ (ids items).Nodup ∧
      idSet items = applied (idSet l.items) es

/-- As long as every toggle that writes a list of its own finds that list. -/
theorem favorites_shown
    (h : favoriteLoop.Runs (fun e k => findsItsList e k = true) favoriteStart es k) :
    FavoritesShown es k := by
  have hinv : FavInv es k := by
    refine Loop.Runs.invariant FavInv.start ?_ ?_ h
    · intro es call c ws h _
      cases call with
      | toggle item => exact h.toggle
    · intro es w a c c' ws new h hc hw hr
      exact h.answer hc hw hr
  refine ⟨fun hidle l hl => ?_⟩
  obtain ⟨items, hi, hs⟩ := hinv.loaded l hl
  refine ⟨items, hi, hs.nodup, Finset.ext fun x => ?_⟩
  rw [mem_idSet]
  refine hs.idle x fun hx => ?_
  obtain ⟨w, hw, hx⟩ := List.mem_filterMap.mp (mem_toggling hx)
  rw [hidle w hw] at hx
  cases hx

end Invariant

namespace FavoriteScenario

def item (n : Id) : CatalogItem Unit := ⟨n, ()⟩

def noFavorites : FavoriteList Unit := ⟨[], List.nodup_nil⟩

/-- Two toggles of two items; the second one is refused and finds the list that it showed. -/
def refusedLast : List (FavoriteEvent Unit) :=
  [.call (.toggle (item 1)), .answer .build (.list noFavorites), .answer (.future (item 1)) .ready,
    .answer (.mutation (item 1) [] false) .done, .call (.toggle (item 2)),
    .answer (.mutation (item 2) [item 1] false) (.failed .other)]

/-- The first of two overlapping toggles is refused. -/
def refusedFirst : List (FavoriteEvent Unit) :=
  [.answer .build (.list noFavorites), .call (.toggle (item 1)), .call (.toggle (item 2)),
    .answer (.mutation (item 2) [item 1] false) .done,
    .answer (.mutation (item 1) [] false) (.failed .other)]

theorem favorites_shown_refusedLast :
    ∃ k, favoriteLoop.play findsItsList refusedLast favoriteStart = some k ∧
      k.waits = [] ∧ FavoritesShown refusedLast k := by
  have h : ∃ k, favoriteLoop.play findsItsList refusedLast favoriteStart = some k ∧
      k.waits = [] := ⟨_, rfl, rfl⟩
  obtain ⟨k, hk, hw⟩ := h
  exact ⟨k, hk, hw, favorites_shown (Loop.runs_of_play hk)⟩

/-- The refused toggle puts back its list, and with it undoes the other toggle. -/
theorem favorites_lost : ∃ k : Config (FavoriteController Unit) (FavoriteWait Unit),
    favoriteLoop.Runs (fun _ _ => True) favoriteStart refusedFirst k ∧
      ¬ FavoritesShown refusedFirst k := by
  have h : ∃ k, favoriteLoop.play (fun _ _ => true) refusedFirst favoriteStart = some k ∧
      k.waits = [] ∧ k.state.state = .data [] ∧ k.state.future = some (.ok noFavorites) :=
    ⟨_, rfl, rfl, rfl, rfl⟩
  obtain ⟨k, hk, hw, hs, hf⟩ := h
  refine ⟨k, (Loop.runs_of_play hk).mono fun _ _ _ => trivial, fun hshown => ?_⟩
  obtain ⟨items, hi, -, hset⟩ := hshown.shown (by simp [hw]) noFavorites hf
  obtain rfl : items = [] := by
    rw [hs] at hi
    cases hi
    rfl
  exact absurd hset (by decide)

end FavoriteScenario

end Mobile

end Sosedi
