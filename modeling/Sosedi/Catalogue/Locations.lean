import Mathlib.Tactic.Linarith
import Sosedi.Catalogue.Availability
import Sosedi.Catalogue.Filters

/-!
# What the catalogue tells of a location

`Catalogue.coarse` moves every item to the centre of its cell and forgets its address.  Proved
here:

* `boundedCenter_boundedCenter`: the centre of a cell lies in the cell;
* `listPublic_coarse`, `getPublicById_coarse`, `listFavorites_coarse`: the coarse catalogue gives
  the answers of the exact one;
* `locations_hidden`: catalogues that differ inside the cells only give the same answers.
-/

namespace Sosedi

open ItemsService ItemsService.Sample Scenario

/-- The items differ at most in the address and, within a cell, in the location. -/
structure Item.SameBesidesPlace (a b : Item) : Prop where
  rest : { b with address := a.address, latitude := a.latitude, longitude := a.longitude } = a
  latitude : toSparseCellIndex a.latitude (-90) = toSparseCellIndex b.latitude (-90)
  longitude : toSparseCellIndex a.longitude (-180) = toSparseCellIndex b.longitude (-180)

/-- The catalogues differ at most in the places of their items. -/
structure Catalogue.SameBesidesPlaces (c c' : Catalogue) : Prop where
  rest : { c' with items := c.items } = c
  items : List.Forall₂ (fun r r' => r.1 = r'.1 ∧ r.2.SameBesidesPlace r'.2) c.items.rows
    c'.items.rows

def Item.coarse (item : Item) : Item :=
  { item with
    address := ""
    latitude := boundedCenter item.latitude (-90) 90
    longitude := boundedCenter item.longitude (-180) 180 }

def Catalogue.coarse (c : Catalogue) : Catalogue :=
  { c with items := c.items.mapRows fun _ item => item.coarse }

def ListedItem.coarse (t : ListedItem) : ListedItem := { t with item := t.item.coarse }

/-! ## Cells -/

/-- The cell of a centre, counted from the lower bound. -/
theorem toSparseCellIndex_center (low : ℚ) (k : Int) :
    toSparseCellIndex (low + k * sparseCoarseCellDegrees + sparseCoarseCellDegrees / 2) low = k := by
  rw [toSparseCellIndex, Int.floor_eq_iff]
  unfold sparseCoarseCellDegrees
  constructor <;> linarith

/-- A bounded centre is the centre of a cell between the bounds. -/
theorem boundedCenter_eq {low high : ℚ} {n : Int} (hn : 0 < n)
    (hhigh : high = low + n * sparseCoarseCellDegrees) (value : ℚ) :
    ∃ k : Int, 0 ≤ k ∧ k < n ∧ boundedCenter value low high =
      low + k * sparseCoarseCellDegrees + sparseCoarseCellDegrees / 2 := by
  have hpos : (1 : ℚ) ≤ n := by exact_mod_cast hn
  simp only [boundedCenter, hhigh, sparseCoarseCellDegrees]
  generalize toSparseCellIndex value low = k
  rcases lt_or_ge k 0 with hk | hk
  · -- below the bounds: the first cell
    have hle : (k : ℚ) ≤ 0 := by exact_mod_cast hk.le
    refine ⟨0, le_rfl, hn, ?_⟩
    rw [max_eq_left (by linarith), min_eq_right (by linarith)]
    simp
  · have hk₀ : (0 : ℚ) ≤ k := by exact_mod_cast hk
    rw [max_eq_right (by linarith)]
    rcases lt_or_ge k n with hkn | hkn
    · have hle : (k : ℚ) ≤ n - 1 := by exact_mod_cast Int.le_sub_one_of_lt hkn
      exact ⟨k, hk, hkn, min_eq_right (by linarith)⟩
    · -- above the bounds: the last cell
      have hle : (n : ℚ) ≤ k := by exact_mod_cast hkn
      refine ⟨n - 1, by omega, by omega, ?_⟩
      rw [min_eq_left (by linarith)]
      push_cast
      ring

/-- The centre of a cell lies in the cell, between bounds that are a number of cells apart. -/
theorem boundedCenter_boundedCenter {low high : ℚ} {n : Int} (hn : 0 < n)
    (hhigh : high = low + n * sparseCoarseCellDegrees) (value : ℚ) :
    boundedCenter (boundedCenter value low high) low high = boundedCenter value low high := by
  obtain ⟨k, hk₀, hkn, hcenter⟩ := boundedCenter_eq hn hhigh value
  have hlow : (0 : ℚ) ≤ k := by exact_mod_cast hk₀
  have hle : (k : ℚ) ≤ n - 1 := by exact_mod_cast Int.le_sub_one_of_lt hkn
  rw [hcenter, boundedCenter, toSparseCellIndex_center, hhigh]
  unfold sparseCoarseCellDegrees
  rw [max_eq_right (by linarith), min_eq_right (by linarith)]

theorem latitude_coarse (item : Item) :
    boundedCenter item.coarse.latitude (-90) 90 = boundedCenter item.latitude (-90) 90 :=
  boundedCenter_boundedCenter (n := 1800) (by decide) (by norm_num [sparseCoarseCellDegrees]) _

theorem longitude_coarse (item : Item) :
    boundedCenter item.coarse.longitude (-180) 180 = boundedCenter item.longitude (-180) 180 :=
  boundedCenter_boundedCenter (n := 3600) (by decide) (by norm_num [sparseCoarseCellDegrees]) _

/-! ## Reading the coarse catalogue -/

theorem listed_coarse (c : Catalogue) : c.coarse.listed = c.listed.map ListedItem.coarse := by
  rw [Catalogue.listed, Catalogue.listed, List.map_filterMap]
  simp only [Catalogue.coarse, Table.mapRows, List.filterMap_map]
  apply List.filterMap_congr
  rintro ⟨id, item⟩ -
  simp only [Function.comp, Item.coarse]
  cases c.categories.get item.categoryId with
  | none => rfl
  | some category => cases c.users.get item.ownerId <;> rfl

theorem buildRawPublicItemPoint_coarse (item : Item) :
    buildRawPublicItemPoint item.coarse = buildRawPublicItemPoint item := by
  rw [buildRawPublicItemPoint, latitude_coarse, longitude_coarse, ← buildRawPublicItemPoint]

theorem toPublicItemResponse_coarse (c : Catalogue) (t : ListedItem) (distanceMeters : Option ℚ) :
    toPublicItemResponse c.coarse t.coarse distanceMeters =
      toPublicItemResponse c t distanceMeters := by
  simp only [toPublicItemResponse, ListedItem.coarse, toSparseCellCenter, latitude_coarse,
    longitude_coarse]
  rfl

variable {geography : Geography} {folding : CaseFolding} {query : ListItemsQuery}
  {availability : Option AvailabilityFilter} {c c' : Catalogue}

theorem buildPublicWhere_coarse (t : ListedItem) :
    buildPublicWhere folding query availability c.coarse t.coarse =
      buildPublicWhere folding query availability c t := rfl

theorem conditions_coarse {conditions : List (ListedItem → Bool)}
    (h : buildRawPublicConditions folding query availability c = .ok conditions) (t : ListedItem) :
    conditions.all (· t.coarse) = conditions.all (· t) := by
  obtain ⟨conditions', hbuild, hall⟩ := conditions_all folding query c (sqlDates_of_build h)
  obtain rfl : conditions' = conditions := Except.ok.inj (hbuild.symm.trans h)
  rw [hall, hall]
  rfl

theorem sortBy_map {α β : Type} (f : α → β) {order : α → α → Ordering} {order' : β → β → Ordering}
    (h : ∀ a b, order' (f a) (f b) = order a b) (l : List α) :
    sortBy order' (l.map f) = (sortBy order l).map f := by
  rw [sortBy, sortBy, List.map_mergeSort]
  intro a _ b _
  rw [h]

/-! ## Queries of the coarse catalogue -/

def ItemsService.ItemDistanceRow.coarse (row : ItemDistanceRow) : ItemDistanceRow :=
  { row with item := row.item.coarse }

theorem buildRawOrderBy_coarse (sort : Option ItemListSort) (a b : ItemDistanceRow) :
    buildRawOrderBy sort a.coarse b.coarse = buildRawOrderBy sort a b := by
  cases sort with
  | none => rfl
  | some sort => cases sort <;> rfl

theorem nearbyRows_coarse (geography : Geography) {conditions : List (ListedItem → Bool)}
    (h : buildRawPublicConditions folding query availability c = .ok conditions) (geo : GeoFilter)
    (limit offset : Nat) :
    nearbyRows geography query geo conditions limit offset c.coarse =
      (nearbyRows geography query geo conditions limit offset c).map ItemDistanceRow.coarse := by
  have hfound (t : ListedItem) : (conditions.all (· t.coarse) &&
      geography.dWithin (buildRawPublicItemPoint t.coarse.item) ⟨geo.longitude, geo.latitude⟩
        geo.radiusMeters) = (conditions.all (· t) &&
      geography.dWithin (buildRawPublicItemPoint t.item) ⟨geo.longitude, geo.latitude⟩
        geo.radiusMeters) := by
    rw [conditions_coarse h, ListedItem.coarse, buildRawPublicItemPoint_coarse]
  have hrow (t : ListedItem) : (⟨t.coarse, geography.distance
      (buildRawPublicItemPoint t.coarse.item) ⟨geo.longitude, geo.latitude⟩⟩ : ItemDistanceRow) =
      ItemDistanceRow.coarse ⟨t, geography.distance (buildRawPublicItemPoint t.item)
        ⟨geo.longitude, geo.latitude⟩⟩ := by
    rw [ItemDistanceRow.coarse, ListedItem.coarse, buildRawPublicItemPoint_coarse]
  simp only [nearbyRows, listed_coarse, List.filter_map, Function.comp_def, hfound, List.map_map,
    hrow]
  rw [List.map_take, List.map_drop, ← sortBy_map _ (buildRawOrderBy_coarse query.sort),
    List.map_map]
  rfl

/-- A search by key finds the coarse item. -/
theorem find_coarse (l : List ListedItem) (p : ListedItem → Bool)
    (hp : ∀ t, p t.coarse = p t) :
    (l.map ListedItem.coarse).find? p = (l.find? p).map ListedItem.coarse := by
  rw [List.find?_map]
  congr 2
  funext t
  exact hp t

theorem listPublicByGeo_coarse (geo : GeoFilter) (limit offset : Nat) :
    listPublicByGeo geography folding query geo availability limit offset c.coarse =
      listPublicByGeo geography folding query geo availability limit offset c := by
  have hbuild : buildRawPublicConditions folding query availability c.coarse =
    buildRawPublicConditions folding query availability c := rfl
  rw [listPublicByGeo, listPublicByGeo, hbuild]
  cases hconditions : buildRawPublicConditions folding query availability c with
  | error e => rfl
  | ok conditions =>
    have hrows := nearbyRows_coarse geography hconditions geo limit offset
    have hitems (rows : List ItemDistanceRow) :
        (c.coarse.listed.filter fun t => buildPublicWhere folding query availability c.coarse t &&
          (rows.map ItemDistanceRow.coarse).any (·.item.id == t.id)) =
        (c.listed.filter fun t => buildPublicWhere folding query availability c t &&
          rows.any (·.item.id == t.id)).map ListedItem.coarse := by
      rw [listed_coarse, List.filter_map]
      congr 1
      apply List.filter_congr
      intro t _
      simp only [Function.comp, buildPublicWhere_coarse, List.any_map]
      rfl
    show Except.ok _ = Except.ok _
    rw [hrows, hitems, List.filterMap_map]
    congr 1
    apply List.filterMap_congr
    intro row _
    simp only [Function.comp]
    rw [find_coarse _ _ fun t => rfl, Option.map_map]
    congr 1
    funext t
    exact toPublicItemResponse_coarse c t _

theorem buildOrderBy_coarse {sort : Option ItemListSort}
    {order : ListedItem → ListedItem → Ordering} (h : buildOrderBy sort = .ok order)
    (a b : ListedItem) : order a.coarse b.coarse = order a b := by
  cases sort with
  | none =>
    cases h
    rfl
  | some sort =>
    cases sort <;> cases h <;> rfl

theorem listPublic_coarse (geography : Geography) (folding : CaseFolding)
    (query : ListItemsQuery) (c : Catalogue) :
    listPublic geography folding query c.coarse = listPublic geography folding query c := by
  have hlist (availability : Option AvailabilityFilter) (limit offset : Nat)
      {order : ListedItem → ListedItem → Ordering} (h : buildOrderBy query.sort = .ok order) :
      ((((sortBy order (c.coarse.listed.filter
        (buildPublicWhere folding query availability c.coarse))).drop offset).take limit).map
          (toPublicItemResponse c.coarse · none)) =
      ((((sortBy order (c.listed.filter
        (buildPublicWhere folding query availability c))).drop offset).take limit).map
          (toPublicItemResponse c · none)) := by
    rw [listed_coarse, List.filter_map, sortBy_map _ (buildOrderBy_coarse h), ← List.map_drop,
      ← List.map_take, List.map_map]
    apply List.map_congr_left
    intro t _
    exact toPublicItemResponse_coarse c t none
  simp only [listPublic, listPublicByGeo_coarse]
  cases ensurePriceRange query with
  | error e => rfl
  | ok _ =>
    cases getAvailabilityFilter query with
    | error e => rfl
    | ok availability =>
      cases getGeoFilter query with
      | error e => rfl
      | ok geo =>
        cases getLimit query.limit with
        | error e => rfl
        | ok limit =>
          cases getOffset query.offset with
          | error e => rfl
          | ok offset =>
            cases geo with
            | some geo => rfl
            | none =>
              cases horder : buildOrderBy query.sort with
              | error e => rfl
              | ok order => exact congrArg Except.ok (hlist availability limit offset horder)

theorem getPublicById_coarse (id : Id) (c : Catalogue) :
    getPublicById id c.coarse = getPublicById id c := by
  rw [getPublicById, getPublicById, listed_coarse, find_coarse _ _ fun t => rfl]
  cases c.listed.find? _ with
  | none => rfl
  | some t => exact congrArg Except.ok (toPublicItemResponse_coarse c t none)

theorem listFavorites_coarse (folding : CaseFolding) (userId : Id) (c : Catalogue) :
    listFavorites folding userId c.coarse = listFavorites folding userId c := by
  let lower (f : Favorite × ListedItem) : Favorite × ListedItem := (f.1, f.2.coarse)
  have hfavorites : ((c.coarse.favorites.filter (·.userId == userId)).filterMap fun favorite =>
      (c.coarse.listed.find? (·.id == favorite.itemId)).map (favorite, ·)) =
      ((c.favorites.filter (·.userId == userId)).filterMap fun favorite =>
        (c.listed.find? (·.id == favorite.itemId)).map (favorite, ·)).map lower := by
    rw [List.map_filterMap]
    apply List.filterMap_congr
    intro favorite _
    rw [listed_coarse, find_coarse _ _ fun t => rfl, Option.map_map, Option.map_map]
    rfl
  have horder (a b : Favorite × ListedItem) :
    favoriteOrder (lower a) (lower b) = favoriteOrder a b := rfl
  simp only [listFavorites, hfavorites, List.filter_map]
  rw [sortBy_map lower horder, List.map_map]
  apply List.map_congr_left
  intro f _
  exact toPublicItemResponse_coarse c f.2 none

/-! ## Two catalogues -/

theorem Item.SameBesidesPlace.coarse_eq {a b : Item} (h : a.SameBesidesPlace b) :
    a.coarse = b.coarse := by
  have hlatitude : boundedCenter a.latitude (-90) 90 = boundedCenter b.latitude (-90) 90 := by
    rw [boundedCenter, boundedCenter, h.latitude]
  have hlongitude :
      boundedCenter a.longitude (-180) 180 = boundedCenter b.longitude (-180) 180 := by
    rw [boundedCenter, boundedCenter, h.longitude]
  rw [Item.coarse, Item.coarse, hlatitude, hlongitude, ← h.rest]

theorem coarseRows_eq {rows rows' : List (Id × Item)}
    (h : List.Forall₂ (fun r r' => r.1 = r'.1 ∧ r.2.SameBesidesPlace r'.2) rows rows') :
    (rows.map fun r => (r.1, r.2.coarse)) = rows'.map fun r => (r.1, r.2.coarse) := by
  induction h with
  | nil => rfl
  | cons hrow _ ih => rw [List.map_cons, List.map_cons, ih, hrow.1, hrow.2.coarse_eq]

theorem Catalogue.SameBesidesPlaces.coarse_eq (h : c.SameBesidesPlaces c') :
    c.coarse = c'.coarse := by
  have hrows : c.items.mapRows (fun _ item => item.coarse) =
      c'.items.mapRows fun _ item => item.coarse := by
    apply Table.ext'
    exact coarseRows_eq h.items
  have hrest := h.rest
  rw [Catalogue.coarse, Catalogue.coarse, hrows, ← hrest]

/-- **Exact locations are hidden.** -/
theorem locations_hidden (geography : Geography) (folding : CaseFolding) {c c' : Catalogue}
    (h : c.SameBesidesPlaces c') :
    (∀ query, listPublic geography folding query c = listPublic geography folding query c') ∧
      (∀ id, getPublicById id c = getPublicById id c') ∧
      ∀ userId, listFavorites folding userId c = listFavorites folding userId c' := by
  refine ⟨fun query => ?_, fun id => ?_, fun userId => ?_⟩
  · rw [← listPublic_coarse, h.coarse_eq, listPublic_coarse]
  · rw [← getPublicById_coarse, h.coarse_eq, getPublicById_coarse]
  · rw [← listFavorites_coarse, h.coarse_eq, listFavorites_coarse]

namespace Sample

/-- The item of `coupon`, moved by a kilometre. -/
def moved : Item := { coupon with address := "Tverskaya 1", latitude := 1 / 100 }

theorem sameBesidesPlaces : (oneItem coupon).SameBesidesPlaces (oneItem moved) where
  rest := rfl
  items := .cons ⟨rfl, rfl, by decide +kernel, rfl⟩ .nil

def nearby : ListItemsQuery :=
  { ListItemsQuery.noFilters with
    latitude := some 0, longitude := some 0, radiusKm := some 20, sort := some .distance }

theorem locations_hidden_moved :
    ((listPublic planar latin nearby (oneItem coupon)).toOption.map (·.map (·.id)) = some [0]) ∧
      listPublic planar latin nearby (oneItem coupon) =
        listPublic planar latin nearby (oneItem moved) :=
  ⟨by decide +kernel, (locations_hidden planar latin sameBesidesPlaces).1 nearby⟩

end Sample

end Sosedi
