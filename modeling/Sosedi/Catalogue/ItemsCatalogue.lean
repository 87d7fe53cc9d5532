import Sosedi.Data.LikePatterns
import Sosedi.Domain.Database

/-!
# The public catalogue

`ItemsService.listPublic`, `getPublicById` and `listFavorites`.  The catalogue is filtered in
two ways: by a filter of the ORM, and, where the client gives a viewpoint, by the conditions of a
raw query.  The geography functions of the database and its case folding are parameters.
-/

namespace Sosedi

/-! ## What the catalogue reads -/

structure CategoryCard where
  name : String
  slug : String
  iconName : Option String
  safetyNotice : String
  deriving DecidableEq

structure Favorite where
  userId : Id
  itemId : Id
  createdAt : Time
  deriving DecidableEq

/-- The database with the columns that only the catalogue reads. -/
structure Catalogue extends Database where
  itemCreatedAt : Id → Time
  categoryCards : Id → CategoryCard
  photoCreatedAt : Id → Time
  favorites : List Favorite

/-- An item with its category and its owner. -/
structure ListedItem where
  id : Id
  item : Item
  createdAt : Time
  category : Category
  card : CategoryCard
  owner : User

/-- The items; each has a category and an owner, by the foreign keys. -/
def Catalogue.listed (c : Catalogue) : List ListedItem :=
  c.items.rows.filterMap fun r =>
    (c.categories.get r.2.categoryId).bind fun category =>
      (c.users.get r.2.ownerId).map fun owner =>
        ⟨r.1, r.2, c.itemCreatedAt r.1, category, c.categoryCards r.2.categoryId, owner⟩

structure Point where
  longitude : ℚ
  latitude : ℚ
  deriving DecidableEq

/-- `ST_Distance` and `ST_DWithin`. -/
structure Geography where
  distance : Point → Point → ℚ
  dWithin : Point → Point → ℚ → Bool

/-- How the database folds the case of a character; it folds a backslash, and nothing else, to a
backslash. -/
structure CaseFolding where
  fold : Char → Char
  fold_backslash : ∀ c, fold c = '\\' ↔ c = '\\'

def CaseFolding.same (folding : CaseFolding) (c d : Char) : Bool := folding.fold c == folding.fold d

/-! ## Requests and answers -/

inductive ItemListSort where
  | newest
  | distance
  | priceAsc
  | priceDesc
  deriving DecidableEq

structure ListItemsQuery where
  search : Option String
  categoryId : Option Id
  area : Option String
  minPrice : Option ℚ
  maxPrice : Option ℚ
  availableFrom : Option String
  availableTo : Option String
  latitude : Option ℚ
  longitude : Option ℚ
  radiusKm : Option ℚ
  sort : Option ItemListSort
  limit : Option Int
  offset : Option Int

/-- `{}`. -/
def ListItemsQuery.noFilters : ListItemsQuery :=
  ⟨none, none, none, none, none, none, none, none, none, none, none, none, none⟩

/-- Both ends of the period as dates and as the texts that they were read from. -/
structure AvailabilityFilter where
  fromDate : Time
  toDate : Time
  fromSql : String
  toSql : String
  ordered : fromDate ≤ toDate
  fromDate_eq : calendarDate fromSql = some fromDate
  toDate_eq : calendarDate toSql = some toDate

structure GeoFilter where
  latitude : ℚ
  longitude : ℚ
  radiusMeters : ℚ

inductive DistanceBucket where
  | under1Km
  | from1To3Km
  | from3To5Km
  | from5To10Km
  | from10To25Km
  | from25To50Km
  | over50Km
  deriving DecidableEq

inductive PublicLocationPrecision where
  | sparse
  deriving DecidableEq

structure ApproximateLocation where
  latitude : ℚ
  longitude : ℚ
  precision : PublicLocationPrecision
  deriving DecidableEq

structure ItemOwnerSummary where
  id : Id
  name : Option String
  city : Option String
  avatarUrl : Option String
  deriving DecidableEq

structure PublicItemPhoto where
  id : Id
  thumbnailUrl : Option String
  previewUrl : Option String
  sortOrder : Int
  isCover : Bool
  createdAt : Time
  deriving DecidableEq

structure PublicItemResponse where
  id : Id
  title : String
  description : String
  condition : ItemCondition
  completeness : String
  handoverTerms : String
  pricePerDay : ℚ
  depositAmount : Option ℚ
  area : String
  approximateLocation : ApproximateLocation
  distanceBucket : Option DistanceBucket
  category : Id × CategoryCard
  owner : ItemOwnerSummary
  photos : List PublicItemPhoto
  createdAt : Time
  updatedAt : Time
  deriving DecidableEq

namespace ItemsService

def maxRadiusKm : ℚ := 50

def defaultLimit : Int := 20

def maxLimit : Int := 50

def sparseCoarseCellDegrees : ℚ := 1 / 10

/-! ## Checks of a request -/

def ensurePriceRange (query : ListItemsQuery) : Except Error Unit :=
  ensure (!query.minPrice.any fun low => query.maxPrice.any (low > ·))
    (.badRequest "Минимальная цена не может быть больше максимальной")

/-- `/^\d{4}-\d{2}-\d{2}$/`. -/
def isDateOnly (value : String) : Bool :=
  match value.toList with
  | [y₁, y₂, y₃, y₄, '-', m₁, m₂, '-', d₁, d₂] =>
    [y₁, y₂, y₃, y₄, m₁, m₂, d₁, d₂].all Char.isDigit
  | _ => false

def invalidDate (field : String) : Error := .badRequest ("Некорректная дата " ++ field)

/-- A date with the proof that `value` is its text. -/
def parseDateOnly (value field : String) : Except Error { t : Time // calendarDate value = some t } :=
  if isDateOnly value then
    match (calendarDate value).attach with
    | some date => .ok date
    | none => .error (invalidDate field)
  else .error (invalidDate field)

def getAvailabilityFilter (query : ListItemsQuery) : Except Error (Option AvailabilityFilter) :=
  match query.availableFrom, query.availableTo with
  | some fromSql, some toSql =>
    if fromSql = "" ∨ toSql = "" then .ok none
    else
      match parseDateOnly fromSql "availableFrom" with
      | .error e => .error e
      | .ok ⟨fromDate, hfrom⟩ =>
        match parseDateOnly toSql "availableTo" with
        | .error e => .error e
        | .ok ⟨toDate, hto⟩ =>
          if h : fromDate > toDate then
            .error (.badRequest "Дата начала аренды не может быть позже даты окончания")
          else .ok (some ⟨fromDate, toDate, fromSql, toSql, Int.not_lt.mp h, hfrom, hto⟩)
  | none, none => .ok none
  | _, _ => .error (.badRequest "Для фильтра доступности укажите даты начала и окончания")

def getGeoFilter (query : ListItemsQuery) : Except Error (Option GeoFilter) :=
  match query.latitude, query.longitude with
  | some latitude, some longitude =>
    let radiusKm := query.radiusKm.getD maxRadiusKm
    if radiusKm ≤ 0 ∨ radiusKm > maxRadiusKm then
      .error (.badRequest "Радиус поиска не может быть больше 50 км")
    else .ok (some ⟨latitude, longitude, radiusKm * 1000⟩)
  | none, none =>
    if query.radiusKm.isSome then
      .error (.badRequest "Для фильтра по радиусу укажите координаты")
    else if query.sort = some .distance then
      .error (.badRequest "Для сортировки по расстоянию укажите координаты")
    else .ok none
  | _, _ => .error (.badRequest "Укажите широту и долготу вместе")

def getLimit (limit : Option Int) : Except Error Nat :=
  let value := limit.getD defaultLimit
  if value < 1 ∨ value > maxLimit then
    .error (.badRequest "Лимит списка должен быть от 1 до 50")
  else .ok value.toNat

def getOffset (offset : Option Int) : Except Error Nat :=
  let value := offset.getD 0
  if value < 0 then .error (.badRequest "Offset списка не может быть отрицательным")
  else .ok value.toNat

/-! ## The filter of the ORM -/

def activeBookingStatuses : List BookingStatus := [.pending, .confirmed, .active]

/-- `query.search?.trim()`, where it is not empty. -/
def searchText (query : ListItemsQuery) : Option String :=
  (query.search.map trim).filter (· ≠ "")

/-- A booking of the item, in one of the statuses, meets the period. -/
def booked (c : Catalogue) (itemId : Id) (fromDate toDate : Time) : Bool :=
  c.deals.any fun _ d => d.booking.itemId == itemId &&
    activeBookingStatuses.contains d.booking.status && d.booking.startDate ≤ toDate &&
    d.booking.endDate ≥ fromDate

/-- `{ contains: search, mode: 'insensitive' }`. -/
def containsInsensitive (folding : CaseFolding) (search text : String) : Bool :=
  LikePatterns.contains folding.same search.toList text.toList

def buildPublicWhere (folding : CaseFolding) (query : ListItemsQuery)
    (availability : Option AvailabilityFilter) (c : Catalogue) (t : ListedItem) : Bool :=
  t.item.status == .approved &&
    (t.category.isActive && t.category.isAllowedForListings && t.category.listingAllowed) &&
    (!t.owner.isBlocked && t.owner.deletedAt.isNone) &&
    query.categoryId.all (t.item.categoryId == ·) &&
    (query.area.filter (· ≠ "")).all (t.item.publicArea == ·) &&
    (searchText query).all (fun search => containsInsensitive folding search t.item.title ||
      containsInsensitive folding search t.item.description) &&
    query.minPrice.all (t.item.pricePerDay.value ≥ ·) &&
    query.maxPrice.all (t.item.pricePerDay.value ≤ ·) &&
    availability.all fun a => !booked c t.id a.fromDate a.toDate

/-! ## The conditions of the raw query -/

/-- An escape of one character in a template literal; those of a code point and of a line end do
not occur in the templates. -/
def singleEscape (c : Char) : Char :=
  if c = 'n' then '\n' else if c = 't' then '\t' else if c = 'r' then '\r'
  else if c = 'b' then '\x08' else if c = 'v' then '\x0b' else if c = 'f' then '\x0c' else c

/-- The cooked string of a template literal, which is the text that the database gets. -/
def cooked : List Char → List Char
  | '\\' :: c :: cs => singleEscape c :: cooked cs
  | c :: cs => c :: cooked cs
  | [] => []

/-- The rest of an SQL string, behind its opening quote. -/
def sqlStringBody : List Char → Option (List Char)
  | '\x27' :: '\x27' :: cs => (sqlStringBody cs).map ('\x27' :: ·)
  | '\x27' :: _ => some []
  | c :: cs => (sqlStringBody cs).map (c :: ·)
  | [] => none

/-- The escape character that an `ESCAPE` clause names; an empty string names none. -/
def likeEscape (clause : String) : Option Char :=
  match cooked clause.toList with
  | '\x27' :: cs => ((sqlStringBody cs).getD []).head?
  | _ => none

/-- What the template has behind the first `ESCAPE`. -/
def titleEscape : Option Char := likeEscape "'\\' OR t.\"description\" ILIKE "

/-- What the template has behind the second one. -/
def descriptionEscape : Option Char := likeEscape "'\\')"

/-- `value.replaceAll(c, by)`. -/
def replaceAll (c : Char) (replacement value : List Char) : List Char :=
  value.flatMap fun d => if d = c then replacement else [d]

def escapeLikePattern (value : String) : List Char :=
  replaceAll '_' ['\\', '_'] (replaceAll '%' ['\\', '%'] (replaceAll '\\' ['\\', '\\'] value.toList))

def ilike (folding : CaseFolding) (escape : Option Char) (pattern : List Char) (text : String) :
    Bool :=
  LikePatterns.like folding.same escape pattern text.toList

/-- `value::date`; there is no year zero. -/
def sqlDate (value : String) : Except Error Time :=
  if value.toList.take 4 = ['0', '0', '0', '0'] then
    .error (.internal "date/time field value out of range")
  else
    match calendarDate value with
    | some date => .ok date
    | none => .error (.internal "invalid input syntax for type date")

def buildRawPublicConditions (folding : CaseFolding) (query : ListItemsQuery)
    (availability : Option AvailabilityFilter) (c : Catalogue) :
    Except Error (List (ListedItem → Bool)) := do
  let conditions : List (ListedItem → Bool) :=
    [ (·.item.status == .approved), (·.category.isActive), (·.category.isAllowedForListings),
      (·.category.listingAllowed), (!·.owner.isBlocked), (·.owner.deletedAt.isNone) ]
  let conditions := conditions ++
    (query.categoryId.map fun categoryId (t : ListedItem) =>
      t.item.categoryId == categoryId).toList
  let conditions := conditions ++
    ((query.area.filter (· ≠ "")).map fun area (t : ListedItem) =>
      t.item.publicArea == area).toList
  let conditions := conditions ++
    ((searchText query).map fun search (t : ListedItem) =>
      let pattern := '%' :: (escapeLikePattern search ++ ['%'])
      ilike folding titleEscape pattern t.item.title ||
        ilike folding descriptionEscape pattern t.item.description).toList
  let conditions := conditions ++
    (query.minPrice.map fun low (t : ListedItem) => decide (t.item.pricePerDay.value ≥ low)).toList
  let conditions := conditions ++
    (query.maxPrice.map fun high (t : ListedItem) => decide (t.item.pricePerDay.value ≤ high)).toList
  match availability with
  | none => pure conditions
  | some a =>
    let fromDate ← sqlDate a.fromSql
    let toDate ← sqlDate a.toSql
    pure (conditions ++ [fun t => !booked c t.id fromDate toDate])

/-! ## Coarse locations -/

def toSparseCellIndex (value low : ℚ) : Int := ⌊(value - low) / sparseCoarseCellDegrees⌋

/-- The centre of the cell, within the bounds. -/
def boundedCenter (value low high : ℚ) : ℚ :=
  let halfCell := sparseCoarseCellDegrees / 2
  let cellCenter := low + toSparseCellIndex value low * sparseCoarseCellDegrees + halfCell
  min (high - halfCell) (max (low + halfCell) cellCenter)

def buildRawPublicItemPoint (item : Item) : Point where
  longitude := boundedCenter item.longitude (-180) 180
  latitude := boundedCenter item.latitude (-90) 90

/-- `Number(value.toFixed(4))`. -/
def toFixed4 (value : ℚ) : ℚ :=
  if value < 0 then -(⌊-value * 10000 + 1 / 2⌋ / 10000) else ⌊value * 10000 + 1 / 2⌋ / 10000

def toSparseCellCenter (value low high : ℚ) : ℚ := toFixed4 (boundedCenter value low high)

def toDistanceBucket (distanceMeters : ℚ) : DistanceBucket :=
  if distanceMeters < 1000 then .under1Km
  else if distanceMeters < 3000 then .from1To3Km
  else if distanceMeters < 5000 then .from3To5Km
  else if distanceMeters < 10000 then .from5To10Km
  else if distanceMeters < 25000 then .from10To25Km
  else if distanceMeters ≤ 50000 then .from25To50Km
  else .over50Km

/-- `orderBy: [{ isCover: 'desc' }, { sortOrder: 'asc' }, { createdAt: 'asc' }]`. -/
def photoOrder (a b : PublicItemPhoto) : Ordering :=
  (compare b.isCover a.isCover).then
    ((compare a.sortOrder b.sortOrder).then (compare a.createdAt b.createdAt))

def publicPhotos (c : Catalogue) (itemId : Id) : List PublicItemPhoto :=
  ((c.uploads.photos.rows.filter (·.2.itemId == itemId)).map fun r =>
    { id := r.1
      thumbnailUrl := r.2.thumbnailUrl
      previewUrl := r.2.previewUrl
      sortOrder := r.2.sortOrder
      isCover := r.2.isCover
      createdAt := c.photoCreatedAt r.1 }).mergeSort fun a b => (photoOrder a b).isLE

def toPublicItemResponse (c : Catalogue) (t : ListedItem) (distanceMeters : Option ℚ) :
    PublicItemResponse where
  id := t.id
  title := t.item.title
  description := t.item.description
  condition := t.item.condition
  completeness := t.item.completeness
  handoverTerms := t.item.handoverTerms
  pricePerDay := t.item.pricePerDay.toNumber
  depositAmount := t.item.depositAmount.map (·.toNumber)
  area := t.item.publicArea
  approximateLocation :=
    { latitude := toSparseCellCenter t.item.latitude (-90) 90
      longitude := toSparseCellCenter t.item.longitude (-180) 180
      precision := .sparse }
  distanceBucket := distanceMeters.map toDistanceBucket
  category := (t.item.categoryId, t.card)
  owner :=
    { id := t.item.ownerId
      name := t.owner.name
      city := t.owner.city
      avatarUrl := t.owner.avatarUrl }
  photos := publicPhotos c t.id
  createdAt := t.createdAt
  updatedAt := t.item.updatedAt

/-! ## Orders -/

/-- `createdAt` and `id`, both descending. -/
def newestFirst (a b : ListedItem) : Ordering :=
  (compare b.createdAt a.createdAt).then (compare b.id a.id)

def byPrice (a b : ListedItem) : Ordering :=
  compare a.item.pricePerDay.minor b.item.pricePerDay.minor

def buildOrderBy : Option ItemListSort → Except Error (ListedItem → ListedItem → Ordering)
  | some .priceAsc => .ok fun a b => (byPrice a b).then (newestFirst a b)
  | some .priceDesc => .ok fun a b => (byPrice b a).then (newestFirst a b)
  | some .distance => .error (.badRequest "Для сортировки по расстоянию укажите координаты")
  | some .newest | none => .ok newestFirst

/-- A row of the raw query; the answer has its `id` and its distance. -/
structure ItemDistanceRow where
  item : ListedItem
  distanceMeters : ℚ

def buildRawOrderBy (sort : Option ItemListSort) (a b : ItemDistanceRow) : Ordering :=
  match sort with
  | some .distance =>
    (compare a.distanceMeters b.distanceMeters).then (newestFirst a.item b.item)
  | some .priceAsc => (byPrice a.item b.item).then (newestFirst a.item b.item)
  | some .priceDesc => (byPrice b.item a.item).then (newestFirst a.item b.item)
  | some .newest | none => newestFirst a.item b.item

def sortBy {α : Type} (order : α → α → Ordering) (rows : List α) : List α :=
  rows.mergeSort fun a b => (order a b).isLE

/-! ## Queries -/

variable (geography : Geography) (folding : CaseFolding)

/-- The rows of the raw query. -/
def nearbyRows (query : ListItemsQuery) (geo : GeoFilter)
    (conditions : List (ListedItem → Bool)) (limit offset : Nat) (c : Catalogue) :
    List ItemDistanceRow :=
  let point : Point := ⟨geo.longitude, geo.latitude⟩
  let found := c.listed.filter fun t => conditions.all (· t) &&
    geography.dWithin (buildRawPublicItemPoint t.item) point geo.radiusMeters
  let rows := found.map fun t => ⟨t, geography.distance (buildRawPublicItemPoint t.item) point⟩
  ((sortBy (buildRawOrderBy query.sort) rows).drop offset).take limit

def listPublicByGeo (query : ListItemsQuery) (geo : GeoFilter)
    (availability : Option AvailabilityFilter) (limit offset : Nat) (c : Catalogue) :
    Except Error (List PublicItemResponse) := do
  let conditions ← buildRawPublicConditions folding query availability c
  let rows := nearbyRows geography query geo conditions limit offset c
  let items := c.listed.filter fun t => buildPublicWhere folding query availability c t &&
    rows.any (·.item.id == t.id)
  pure (rows.filterMap fun row =>
    (items.find? (·.id == row.item.id)).map fun item =>
      toPublicItemResponse c item (some row.distanceMeters))

def listPublic (query : ListItemsQuery) (c : Catalogue) :
    Except Error (List PublicItemResponse) := do
  ensurePriceRange query
  let availability ← getAvailabilityFilter query
  let geo ← getGeoFilter query
  let limit ← getLimit query.limit
  let offset ← getOffset query.offset
  match geo with
  | some geo => listPublicByGeo geography folding query geo availability limit offset c
  | none => do
    let order ← buildOrderBy query.sort
    let items := c.listed.filter (buildPublicWhere folding query availability c)
    pure ((((sortBy order items).drop offset).take limit).map (toPublicItemResponse c · none))

def getPublicById (id : Id) (c : Catalogue) : Except Error PublicItemResponse :=
  match c.listed.find? fun t => t.id == id && t.item.status == .approved &&
    (t.category.isActive && t.category.isAllowedForListings && t.category.listingAllowed) &&
    (!t.owner.isBlocked && t.owner.deletedAt.isNone) with
  | some t => .ok (toPublicItemResponse c t none)
  | none => .error (.notFound "Объявление не найдено")

/-- `orderBy: [{ createdAt: 'desc' }, { itemId: 'desc' }]`. -/
def favoriteOrder (a b : Favorite × ListedItem) : Ordering :=
  (compare b.1.createdAt a.1.createdAt).then (compare b.1.itemId a.1.itemId)

def listFavorites (userId : Id) (c : Catalogue) : List PublicItemResponse :=
  let favorites := (c.favorites.filter (·.userId == userId)).filterMap fun favorite =>
    (c.listed.find? (·.id == favorite.itemId)).map (favorite, ·)
  let shown := favorites.filter fun f => buildPublicWhere folding .noFilters none c f.2
  (sortBy favoriteOrder shown).map (toPublicItemResponse c ·.2 none)

end ItemsService

end Sosedi
