import Mathlib.Tactic.Common
import Sosedi.Catalogue.ItemsCatalogue

/-!
# The two filters of the catalogue

The raw query names its escape character by `ESCAPE '\'` inside a template literal, whose cooked
string is `ESCAPE ''`: the database then has no escape character, and the backslashes that
`escapeLikePattern` adds are looked for.  Proved here:

* `titleEscape_eq`, `descriptionEscape_eq`: the escape character that the database is told;
* `conditions_all`: the conditions of the raw query, as one filter;
* `contains_of_backslash`: with a backslash for the escape character every text would be found;
* `filters_agree_iff`: when the two filters select the same items.
-/

namespace Sosedi

open LikePatterns

namespace ItemsService

variable (folding : CaseFolding) (query : ListItemsQuery)
  (availability : Option AvailabilityFilter) (c : Catalogue)

/-- The two filters select the same items of the catalogue. -/
def FiltersAgree : Prop :=
  ∃ conditions, buildRawPublicConditions folding query availability c = .ok conditions ∧
    ∀ t ∈ c.listed, buildPublicWhere folding query availability c t = conditions.all (· t)

/-- No character of the search text means anything in a pattern. -/
def LiteralSearch : Prop :=
  ∀ search, searchText query = some search → ∀ c ∈ search.toList, special '\\' c = false

/-- A price that the bounds of the query admit. -/
def AdmitsPrice (price : Decimal) : Prop :=
  query.minPrice.all (price.value ≥ ·) = true ∧ query.maxPrice.all (price.value ≤ ·) = true

/-- Neither date lies in the year zero, which the database does not have. -/
def SqlDates : Prop :=
  ∀ a, availability = some a → a.fromSql.toList.take 4 ≠ ['0', '0', '0', '0'] ∧
    a.toSql.toList.take 4 ≠ ['0', '0', '0', '0']

/-! ## The escape character -/

theorem titleEscape_eq : titleEscape = none := by decide

theorem descriptionEscape_eq : descriptionEscape = none := by decide

theorem replaceAll_append (c : Char) (replacement xs ys : List Char) :
    replaceAll c replacement (xs ++ ys) =
      replaceAll c replacement xs ++ replaceAll c replacement ys :=
  List.flatMap_append

theorem escapeLikePattern_eq (value : String) :
    escapeLikePattern value = quote '\\' value.toList := by
  rw [escapeLikePattern, quote]
  induction value.toList with
  | nil => rfl
  | cons c cs ih =>
    have hsplit : c :: cs = [c] ++ cs := rfl
    rw [hsplit, replaceAll_append, replaceAll_append, replaceAll_append, ih, List.flatMap_append]
    congr 1
    by_cases hb : c = '\\'
    · subst hb
      rfl
    · by_cases hp : c = '%'
      · subst hp
        rfl
      · by_cases hu : c = '_'
        · subst hu
          rfl
        · simp [replaceAll, special, hb, hp, hu]

/-- Had the template named a backslash, both filters would look for the same text. -/
theorem contains_of_backslash (search text : String) :
    ilike folding (some '\\') ('%' :: (escapeLikePattern search ++ ['%'])) text =
      containsInsensitive folding search text := by
  rw [ilike, escapeLikePattern_eq, like_quote (by decide), containsInsensitive]

theorem same_backslash (d : Char) : folding.same '\\' d = (d == '\\') := by
  have hself : folding.fold '\\' = '\\' := (folding.fold_backslash _).mpr rfl
  rw [CaseFolding.same, hself, Bool.eq_iff_iff, beq_iff_eq, beq_iff_eq, eq_comm,
    folding.fold_backslash]

/-! ## The filter behind both -/

/-- The filter, `finds` telling which items answer to a search text. -/
def filterWith (finds : String → ListedItem → Bool) (t : ListedItem) : Bool :=
  t.item.status == .approved &&
    (t.category.isActive && t.category.isAllowedForListings && t.category.listingAllowed) &&
    (!t.owner.isBlocked && t.owner.deletedAt.isNone) &&
    query.categoryId.all (t.item.categoryId == ·) &&
    (query.area.filter (· ≠ "")).all (t.item.publicArea == ·) &&
    (searchText query).all (finds · t) &&
    query.minPrice.all (t.item.pricePerDay.value ≥ ·) &&
    query.maxPrice.all (t.item.pricePerDay.value ≤ ·) &&
    availability.all fun a => !booked c t.id a.fromDate a.toDate

def containsEither (search : String) (t : ListedItem) : Bool :=
  containsInsensitive folding search t.item.title ||
    containsInsensitive folding search t.item.description

/-- A title or a description that answers to the pattern, without an escape character. -/
def likeEither (search : String) (t : ListedItem) : Bool :=
  let pattern := '%' :: (escapeLikePattern search ++ ['%'])
  ilike folding none pattern t.item.title || ilike folding none pattern t.item.description

theorem buildPublicWhere_eq (t : ListedItem) :
    buildPublicWhere folding query availability c t =
      filterWith query availability c (containsEither folding) t := rfl

theorem all_toList_map {α : Type} (o : Option α) (f : α → ListedItem → Bool) (t : ListedItem) :
    (o.map f).toList.all (· t) = o.all (f · t) := by
  cases o <;> simp

variable {folding query availability c}

theorem sqlDate_of_ne {value : String} {date : Time} (h : calendarDate value = some date)
    (hyear : value.toList.take 4 ≠ ['0', '0', '0', '0']) : sqlDate value = .ok date := by
  rw [sqlDate, if_neg hyear, h]

/-- The conditions of the raw query, as one filter. -/
theorem conditions_all (folding : CaseFolding) (query : ListItemsQuery) (c : Catalogue)
    (h : SqlDates availability) :
    ∃ conditions, buildRawPublicConditions folding query availability c = .ok conditions ∧
      ∀ t, conditions.all (· t) =
        filterWith query availability c (likeEither folding) t := by
  cases availability with
  | none =>
    refine ⟨_, rfl, fun t => ?_⟩
    simp only [List.all_append, all_toList_map, titleEscape_eq, descriptionEscape_eq]
    simp [filterWith, likeEither, Bool.and_assoc]
  | some a =>
    obtain ⟨hfrom, hto⟩ := h a rfl
    have hdates : sqlDate a.fromSql = .ok a.fromDate ∧ sqlDate a.toSql = .ok a.toDate :=
      ⟨sqlDate_of_ne a.fromDate_eq hfrom, sqlDate_of_ne a.toDate_eq hto⟩
    simp only [buildRawPublicConditions, hdates.1, hdates.2]
    refine ⟨_, rfl, fun t => ?_⟩
    simp only [List.all_append, all_toList_map, titleEscape_eq, descriptionEscape_eq]
    simp [filterWith, likeEither, Bool.and_assoc]

/-- The filters differ in the search only. -/
theorem filterWith_congr {finds finds' : String → ListedItem → Bool}
    (h : ∀ search, searchText query = some search → ∀ t, finds search t = finds' search t)
    (t : ListedItem) :
    filterWith query availability c finds t = filterWith query availability c finds' t := by
  have hsearch : (searchText query).all (finds · t) = (searchText query).all (finds' · t) := by
    cases hs : searchText query with
    | none => rfl
    | some search => exact h search hs t
  simp only [filterWith, hsearch]

theorem likeEither_of_literal (h : LiteralSearch query) {search : String}
    (hs : searchText query = some search) (t : ListedItem) :
    containsEither folding search t = likeEither folding search t := by
  simp only [containsEither, likeEither, containsInsensitive, ilike, escapeLikePattern_eq,
    like_plain (h search hs)]

/-- A selected item has a price within the bounds. -/
theorem admitsPrice_of_filterWith {finds : String → ListedItem → Bool} {t : ListedItem}
    (h : filterWith query availability c finds t = true) :
    AdmitsPrice query t.item.pricePerDay := by
  simp only [filterWith, Bool.and_eq_true] at h
  exact ⟨h.1.1.2, h.1.2⟩

theorem filtersAgree_of_literal (hdates : SqlDates availability) (h : LiteralSearch query) :
    FiltersAgree folding query availability c := by
  obtain ⟨conditions, hbuild, hall⟩ := conditions_all folding query c hdates
  refine ⟨conditions, hbuild, fun t _ => ?_⟩
  rw [buildPublicWhere_eq, hall]
  exact filterWith_congr (fun search hs t => likeEither_of_literal h hs t) t

/-- Where no price is within the bounds, neither filter selects anything. -/
theorem filtersAgree_of_no_price (hdates : SqlDates availability)
    (h : ∀ price, ¬AdmitsPrice query price) : FiltersAgree folding query availability c := by
  obtain ⟨conditions, hbuild, hall⟩ := conditions_all folding query c hdates
  have hnone (finds) (t : ListedItem) : filterWith query availability c finds t = false :=
    Bool.eq_false_iff.mpr fun ht => h _ (admitsPrice_of_filterWith ht)
  refine ⟨conditions, hbuild, fun t _ => ?_⟩
  rw [buildPublicWhere_eq, hall, hnone, hnone]

/-! ## A catalogue that tells the filters apart -/

/-- An item that has all that the query asks for, with the given title. -/
def wanted (query : ListItemsQuery) (title : String) (price : Decimal) : Item where
  categoryId := query.categoryId.getD 0
  title
  description := ""
  condition := .good
  completeness := ""
  handoverTerms := ""
  pricePerDay := price
  depositAmount := none
  publicArea := query.area.getD ""
  address := ""
  latitude := 0
  longitude := 0
  ownerId := 0
  status := .approved
  rejectReason := none
  listingRulesVersion := none
  updatedAt := 0
  changes := []

def owner : User where
  phone := ""
  name := none
  city := none
  avatarUrl := none
  role := .user
  adminCapabilities := []
  isBlocked := false
  sessionVersion := 0
  deletedAt := none
  anonymizedAt := none

/-- A catalogue of one item, which nobody has booked. -/
def oneItem (item : Item) : Catalogue where
  users := Table.empty.insert item.ownerId owner
  kycDocuments := []
  categories := Table.empty.insert item.categoryId ⟨true, true, true⟩
  items := Table.empty.insert 0 item
  userBlocks := []
  periods := .empty
  deals := .empty
  uploads := ⟨.empty, .empty, .empty, .empty, .empty, .empty, .empty, .empty⟩
  reports := .empty
  reviews := .empty
  messageAuthors := .empty
  adminAuditLog := []
  notifications := []
  itemCreatedAt := fun _ => 0
  categoryCards := fun _ => ⟨"", "", none, ""⟩
  photoCreatedAt := fun _ => 0
  favorites := []

/-- Its item, with the category and the owner. -/
def onlyItem (item : Item) : ListedItem := ⟨0, item, 0, ⟨true, true, true⟩, ⟨"", "", none, ""⟩, owner⟩

theorem listed_oneItem (item : Item) : (oneItem item).listed = [onlyItem item] := by
  have hcategory : (oneItem item).categories.get item.categoryId = some ⟨true, true, true⟩ :=
    Table.get_insert_self _ rfl
  have howner : (oneItem item).users.get item.ownerId = some owner := Table.get_insert_self _ rfl
  have hrows : (oneItem item).items.rows = [(0, item)] := rfl
  simp only [Catalogue.listed, hrows, List.filterMap_cons, List.filterMap_nil, hcategory, howner]
  rfl

/-- The item meets all of the query but, perhaps, the search. -/
theorem filterWith_onlyItem {price : Decimal} (h : AdmitsPrice query price) (title : String)
    (finds : String → ListedItem → Bool) :
    filterWith query availability (oneItem (wanted query title price)) finds
        (onlyItem (wanted query title price)) =
      (searchText query).all (finds · (onlyItem (wanted query title price))) := by
  have hcategory : query.categoryId.all (query.categoryId.getD 0 == ·) = true := by
    cases query.categoryId <;> simp
  have harea : (query.area.filter (· ≠ "")).all (query.area.getD "" == ·) = true := by
    cases hq : query.area with
    | none => rfl
    | some area =>
      simp only [Option.filter, Option.getD_some]
      split <;> simp
  have hfree (fromDate toDate : Time) :
      booked (oneItem (wanted query title price)) 0 fromDate toDate = false := rfl
  have hshown : (wanted query title price).status = .approved ∧
      (wanted query title price).categoryId = query.categoryId.getD 0 ∧
      (wanted query title price).publicArea = query.area.getD "" ∧
      (wanted query title price).pricePerDay = price := ⟨rfl, rfl, rfl, rfl⟩
  simp only [filterWith, hshown, hcategory, harea, h.1, h.2, onlyItem, owner, hfree]
  cases availability <;> simp

/-- The text of a search contains itself. -/
theorem contains_self (cs : List Char) : contains folding.same cs cs = true := by
  have hself : startsWith folding.same cs cs = true := by
    induction cs with
    | nil => rfl
    | cons c cs ih => simp [startsWith, CaseFolding.same, ih]
  exact List.any_eq_true.mpr ⟨cs, (List.mem_tails ..).mpr List.suffix_rfl, hself⟩

/-- An empty description answers to no pattern with a character in it. -/
theorem not_like_empty {search : String} (h : ∃ c ∈ search.toList, special '\\' c = true) :
    ilike folding none ('%' :: (escapeLikePattern search ++ ['%'])) "" = false := by
  rw [ilike, escapeLikePattern_eq, like, tokens_none, Option.any_some, Bool.eq_false_iff]
  intro haccepts
  have hle := count_le_of_accepts (c := '\\') haccepts
  have hpos : 0 < search.toList.countP (special '\\') := List.countP_pos_iff.mpr h
  rw [count_map_token (by decide) (by decide), List.count_cons_of_ne (by decide),
    List.count_append, count_quote] at hle
  simp only [String.toList_empty, List.countP_nil] at hle
  omega

/-- A search text with a special character tells the filters apart. -/
theorem not_filtersAgree (hdates : SqlDates availability) {search : String}
    (hs : searchText query = some search)
    (hspecial : ∃ c ∈ search.toList, special '\\' c = true) {price : Decimal}
    (hprice : AdmitsPrice query price) :
    ¬FiltersAgree folding query availability (oneItem (wanted query search price)) := by
  rintro ⟨conditions, hbuild, hagree⟩
  obtain ⟨conditions', hbuild', hall⟩ := conditions_all folding query
    (oneItem (wanted query search price)) hdates
  obtain rfl : conditions' = conditions := Except.ok.inj (hbuild'.symm.trans hbuild)
  have hsame := hagree (onlyItem (wanted query search price))
    (by rw [listed_oneItem]; exact List.mem_singleton.mpr rfl)
  rw [buildPublicWhere_eq, hall, filterWith_onlyItem hprice, filterWith_onlyItem hprice, hs,
    Option.all_some, Option.all_some] at hsame
  have hfound : containsEither folding search (onlyItem (wanted query search price)) = true := by
    rw [containsEither, Bool.or_eq_true]
    exact Or.inl (contains_self _)
  have htitle : ilike folding none ('%' :: (escapeLikePattern search ++ ['%'])) search = false := by
    rw [ilike, escapeLikePattern_eq]
    exact not_like_self (by decide) (by decide) (same_backslash folding) hspecial
  have hmissed : likeEither folding search (onlyItem (wanted query search price)) = false := by
    rw [likeEither, Bool.or_eq_false_iff]
    exact ⟨htitle, not_like_empty hspecial⟩
  rw [hfound, hmissed] at hsame
  cases hsame

theorem not_sqlDate {value : String} (h : value.toList.take 4 = ['0', '0', '0', '0']) :
    sqlDate value = .error (.internal "date/time field value out of range") := by
  rw [sqlDate, if_pos h]

/-- With a date of the year zero the raw query fails. -/
theorem sqlDates_of_build {conditions : List (ListedItem → Bool)}
    (h : buildRawPublicConditions folding query availability c = .ok conditions) :
    SqlDates availability := by
  rintro a rfl
  constructor
  · intro hfrom
    simp only [buildRawPublicConditions, not_sqlDate hfrom] at h
    cases h
  · intro hto
    simp only [buildRawPublicConditions, not_sqlDate hto] at h
    cases hfrom : sqlDate a.fromSql <;> rw [hfrom] at h <;> cases h

/-- **The two filters.**  They select the same items in every state of the database exactly when
the search text has no character of a pattern, or no price meets the bounds, and the dates are
ones that the database has. -/
theorem filters_agree_iff (folding : CaseFolding) (query : ListItemsQuery)
    (availability : Option AvailabilityFilter) :
    (∀ c, FiltersAgree folding query availability c) ↔
      SqlDates availability ∧ (LiteralSearch query ∨ ∀ price, ¬AdmitsPrice query price) := by
  constructor
  · intro h
    obtain ⟨conditions, hbuild, -⟩ := h (oneItem (wanted query "" ⟨0⟩))
    have hdates := sqlDates_of_build hbuild
    refine ⟨hdates, ?_⟩
    by_cases hliteral : LiteralSearch query
    · exact Or.inl hliteral
    · right
      intro price hprice
      simp only [LiteralSearch, not_forall] at hliteral
      obtain ⟨search, hs, c, hc, hspecial⟩ := hliteral
      exact not_filtersAgree hdates hs ⟨c, hc, by simpa using hspecial⟩ hprice (h _)
  · rintro ⟨hdates, hliteral | hprice⟩ c
    · exact filtersAgree_of_literal hdates hliteral
    · exact filtersAgree_of_no_price hdates hprice

namespace Sample

/-- The case of the Latin letters. -/
def latin : CaseFolding where
  fold := Char.toLower
  fold_backslash := by
    intro c
    constructor
    · intro h
      by_cases hupper : c.val ≥ 'A'.val ∧ c.val ≤ 'Z'.val
      · have hlow : 65 ≤ c.val.toNat := hupper.1
        have hhigh : c.val.toNat ≤ 90 := hupper.2
        have hval : (c.toLower).val = c.val + 32 := congrArg Char.val (dif_pos hupper)
        rw [h] at hval
        have hnat : 92 = (c.val.toNat + 32) % 2 ^ 32 := congrArg UInt32.toNat hval
        omega
      · have hsame : c.toLower = c := dif_neg hupper
        rw [← hsame, h]
    · rintro rfl
      rfl

def percentQuery : ListItemsQuery := { ListItemsQuery.noFilters with search := some "50%" }

def coupon : Item := wanted percentQuery "Coupon -50%" ⟨100⟩

/-- An item with `50%` in its title, which only the filter of the ORM finds. -/
theorem percent_not_found : ¬FiltersAgree latin percentQuery none (oneItem coupon) := by
  rintro ⟨conditions, hbuild, hagree⟩
  have hsame := hagree (onlyItem coupon) (by rw [listed_oneItem]; exact List.mem_singleton.mpr rfl)
  cases hbuild
  revert hsame
  decide +kernel

end Sample

end ItemsService

end Sosedi
