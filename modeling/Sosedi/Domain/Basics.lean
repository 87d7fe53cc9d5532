/-!
# Identifiers, times and errors

Identifiers are the primary keys of the tables, times are milliseconds since the epoch.
An `Error` is what a service throws: the HTTP status, the machine-readable code when the
response has one, and the message.
-/

namespace Sosedi

abbrev Id := Nat

abbrev Time := Int

inductive ErrorStatus where
  | badRequest
  | unauthorized
  | forbidden
  | notFound
  | conflict
  | tooManyRequests
  | serviceUnavailable
  | internal
  deriving DecidableEq

structure Error where
  status : ErrorStatus
  code : Option String
  message : String
  deriving DecidableEq

namespace Error

def badRequest (message : String) : Error := ⟨.badRequest, none, message⟩

def unauthorized (message : String) : Error := ⟨.unauthorized, none, message⟩

def forbidden (message : String) : Error := ⟨.forbidden, none, message⟩

def notFound (message : String) : Error := ⟨.notFound, none, message⟩

def conflict (message : String) : Error := ⟨.conflict, none, message⟩

def conflictCode (code message : String) : Error := ⟨.conflict, some code, message⟩

def tooManyRequests (message : String) : Error := ⟨.tooManyRequests, none, message⟩

def serviceUnavailable (code message : String) : Error :=
  ⟨.serviceUnavailable, some code, message⟩

/-- An error that is not an HTTP exception: `Error`, `RangeError`, a database error. -/
def internal (message : String) : Error := ⟨.internal, none, message⟩

end Error

/-- Throw `e` unless `c` holds. -/
def ensure (c : Bool) (e : Error) : Except Error Unit := if c then .ok () else .error e

@[simp] theorem ensure_eq_ok {c : Bool} {e : Error} {u : Unit} :
    ensure c e = .ok u ↔ c = true := by
  cases c <;> simp [ensure]

/-- A sequence of checks succeeds when each of them does. -/
theorem bind_eq_ok {ε α β : Type} {x : Except ε α} {f : α → Except ε β} {b : β} :
    (x >>= f) = .ok b ↔ ∃ a, x = .ok a ∧ f a = .ok b := by
  cases x with
  | error e => exact ⟨fun h => (nomatch h), fun ⟨_, h, _⟩ => (nomatch h)⟩
  | ok a => exact ⟨fun h => ⟨a, rfl, h⟩, fun ⟨_, h, h'⟩ => Except.ok.inj h ▸ h'⟩

/-! ## Strings -/

/-- White space and line terminators of the language, which `trim` removes. -/
def isWhiteSpace (c : Char) : Bool :=
  c.toNat ∈ [0x9, 0xA, 0xB, 0xC, 0xD, 0x20, 0xA0, 0x1680, 0x2028, 0x2029, 0x202F, 0x205F,
    0x3000, 0xFEFF] || (0x2000 ≤ c.toNat && c.toNat ≤ 0x200A)

def trim (s : String) : String :=
  String.ofList (((s.toList.dropWhile isWhiteSpace).reverse.dropWhile isWhiteSpace).reverse)

/-- The string is truthy after `trim`. -/
def isNonEmptyString (s : String) : Bool := trim s != ""

end Sosedi
