import Mathlib.Tactic.Common
import Sosedi.Domain.Basics

/-!
# What the mobile controllers share

The states of an asynchronous notifier, the exceptions its requests throw, and the items that the
screens list.
-/

namespace Sosedi

namespace Mobile

/-- An exception thrown by a request: an `ApiException` carries its own text. -/
inductive Thrown where
  | apiException (code message : String)
  | other
  deriving DecidableEq

def userFacingError (error : Thrown) (fallback : String) : String :=
  match error with
  | .apiException _ message => message
  | .other => fallback

inductive AsyncValue (α : Type) where
  | loading (previous : Option α)
  | data (value : α)
  | error (error : Thrown) (previous : Option α)
  deriving DecidableEq

namespace AsyncValue

variable {α : Type}

/-- `state.value`: the data, or what is left of it while loading and after an error. -/
def value : AsyncValue α → Option α
  | loading previous => previous
  | data value => some value
  | error _ previous => previous

@[simp] theorem value_loading (previous : Option α) : (loading previous).value = previous := rfl

@[simp] theorem value_data (a : α) : (data a).value = some a := rfl

@[simp] theorem value_error (e : Thrown) (previous : Option α) :
    (error e previous).value = previous := rfl

/-- What assigning `AsyncLoading()` to `state` leaves; `retain`: the notifier keeps the previous
value. -/
def toLoading (retain : Bool) (state : AsyncValue α) : AsyncValue α :=
  loading (if retain then state.value else none)

def toError (retain : Bool) (e : Thrown) (state : AsyncValue α) : AsyncValue α :=
  error e (if retain then state.value else none)

def isData : AsyncValue α → Bool
  | data _ => true
  | _ => false

theorem eq_data {state : AsyncValue α} {a : α} (hd : state.isData = true)
    (hv : state.value = some a) : state = data a := by
  cases state with
  | data b => exact congrArg data (Option.some.inj hv)
  | loading p => cases hd
  | error e p => cases hd

end AsyncValue

/-- An item of the catalogue: its id, and what else it shows. -/
structure CatalogItem (Content : Type) where
  id : Id
  content : Content
  deriving DecidableEq

/-- `String.trim`, which also removes U+0085. -/
def dartTrim (s : String) : String :=
  let blank (c : Char) := isWhiteSpace c || c.toNat = 0x85
  String.ofList (((s.toList.dropWhile blank).reverse.dropWhile blank).reverse)

end Mobile

end Sosedi
