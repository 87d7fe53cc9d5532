import Sosedi.Services.UsersService

/-!
# Listings

`ItemsService.updateOwn` and `hideOwn`.  Neither runs in a transaction: every statement
commits by itself.
-/

namespace Sosedi

open Transactions

namespace ItemsService

/-- A field is absent, `null` or a value. -/
structure UpdateItemDto where
  categoryId : Option (Option Id)
  title : Option (Option String)
  description : Option (Option String)
  condition : Option (Option ItemCondition)
  completeness : Option (Option String)
  handoverTerms : Option (Option String)
  pricePerDay : Option (Option Decimal)
  depositAmount : Option (Option ℚ)
  depositAmountMinor : Option (Option Int)
  publicArea : Option (Option String)
  address : Option (Option String)
  latitude : Option (Option ℚ)
  longitude : Option (Option ℚ)

def rejectNullRequiredUpdateFields (dto : UpdateItemDto) : Except Error Unit :=
  ensure (!(dto.categoryId == some none || dto.title == some none ||
      dto.description == some none || dto.condition == some none ||
      dto.completeness == some none || dto.handoverTerms == some none ||
      dto.pricePerDay == some none || dto.publicArea == some none ||
      dto.address == some none || dto.latitude == some none || dto.longitude == some none))
    (.badRequest "Обязательные поля объявления не могут быть null")

def resolveDepositAmount (env : Env) (dto : UpdateItemDto) : Except Error (Option Decimal) := do
  let hasLegacy := dto.depositAmount.isSome
  let hasMinor := dto.depositAmountMinor.isSome
  ensure (!(hasLegacy && hasMinor)) (.badRequest "Укажите только один формат суммы залога")
  ensure (!dto.depositAmount.join.any (· != 0))
    (.badRequest "Legacy depositAmount поддерживает только null или 0")
  let minorValue : Option Int := if hasMinor then dto.depositAmountMinor.join else some 0
  ensure (minorValue.all fun v => isSafeInteger v && 0 ≤ v && v ≤ 3000000000)
    (.badRequest "Некорректная сумма залога")
  let minor := minorValue.getD 0
  env.policy.assertDepositAllowed minor
  if dto.depositAmount == some none || (hasMinor && minorValue.isNone) then pure none
  else pure (if hasLegacy || hasMinor then some (minorToDecimal minor) else none)

def ensureActiveCategory (categoryId : Id) : Prog Sys Unit := do
  let category ← select fun db => (db.categories.get categoryId).filter fun category =>
    category.isActive && category.isAllowedForListings && category.listingAllowed
  let _ ← lift (required category (.notFound "Категория не найдена"))
  pure ()

def buildUpdateData (env : Env) (dto : UpdateItemDto) : Prog Sys ItemUpdate := do
  lift (rejectNullRequiredUpdateFields dto)
  match dto.categoryId.join with
  | some categoryId => ensureActiveCategory categoryId
  | none => pure ()
  let depositAmount ← lift
    (if dto.depositAmount.isSome || dto.depositAmountMinor.isSome then
      (resolveDepositAmount env dto).map some
    else .ok none)
  pure
    { categoryId := dto.categoryId.join
      title := dto.title.join
      description := dto.description.join
      condition := dto.condition.join
      completeness := dto.completeness.join
      handoverTerms := dto.handoverTerms.join
      pricePerDay := dto.pricePerDay.join
      depositAmount
      publicArea := dto.publicArea.join
      address := dto.address.join
      latitude := dto.latitude.join
      longitude := dto.longitude.join }

def findOwnedItem (ownerId id : Id) : Prog Sys Item := do
  let item ← select fun db => (db.items.get id).filter (·.ownerId == ownerId)
  lift (required item (.notFound "Объявление не найдено"))

/-- Returns the bookings there were. -/
def ensureNoUnfinishedBookings (itemId : Id) : Prog Sys (List Id) := do
  let found ← select fun db => (db.unfinishedBooking (·.itemId == itemId), db.bookingIds)
  lift (ensure (!found.1) (.conflictCode "ITEM_HAS_UNFINISHED_BOOKINGS"
    "Нельзя изменить или скрыть объявление до завершения связанных бронирований"))
  pure found.2

/-- `item.update` of one row, which commits by itself. -/
def updateItem (id : Id) (f : Item → Item) (ev : AccountEvent) : Prog Sys Unit := do
  write [.itemRow id] fun db => { db with items := db.items.modify id f }
  commit (.account ev)

def updateOwn (env : Env) (ownerId id : Id) (dto : UpdateItemDto) : Prog Sys Unit := do
  let _ ← findOwnedItem ownerId id
  let data ← buildUpdateData env dto
  if data.isEmpty then pure ()
  else do
    let seen ← ensureNoUnfinishedBookings id
    let updatedAt ← clock
    updateItem id (Item.updateOwn data updatedAt) (.updateItem id data updatedAt seen)

def hideOwn (ownerId id : Id) : Prog Sys Unit := do
  let currentItem ← findOwnedItem ownerId id
  if currentItem.status == .hidden then pure ()
  else do
    let seen ← ensureNoUnfinishedBookings id
    let updatedAt ← clock
    updateItem id (Item.hideOwn updatedAt) (.hideItem id updatedAt seen)

end ItemsService

end Sosedi
