import Sosedi.Domain.BookingPeriod
import Sosedi.Logging.SensitiveText

/-!
# Sensitive data in logs

`redactSensitiveData` on values with sharing and cycles: objects are nodes of a graph, values
refer to them.  The set of visited objects is passed along.  A call on an object costs one unit of
fuel, which stands for the stack; running out of it is a fault of its own, besides the errors that
the language throws.

Proved here:

* `redactValue_total`: with more fuel than there are objects not yet visited, the walk ends;
* `redactValue_mono`: more fuel does not change how it ends.
-/

namespace Sosedi

open SensitiveText

namespace SensitiveData

/-! ## Values -/

/-- The primitive values that are returned as they are; `ν` are the numbers. -/
inductive Scalar (ν : Type) where
  | number (value : ν)
  | boolean (value : Bool)
  | bigint (value : Int)
  | null
  | undefined

/-- A value; `R` are the objects. -/
inductive Value (ν R : Type) where
  | string (value : String)
  | scalar (value : Scalar ν)
  | symbol (description : String)
  | object (ref : R)

/-- An object. A plain one has its own enumerable properties in their order, and no prototype if
it is bare. -/
inductive Node (ν R : Type) where
  | error (name message : String) (stack : Option String)
  | date (time : Time)
  | array (elements : List (Value ν R))
  | map (entries : List (Value ν R × Value ν R))
  | set (elements : List (Value ν R))
  | plain (bare : Bool) (entries : List (String × Value ν R))

structure Graph (ν : Type) where
  size : Nat
  node : Fin size → Node ν (Fin size)

abbrev Graph.Ref {ν : Type} (G : Graph ν) : Type := Fin G.size

abbrev Graph.Val {ν : Type} (G : Graph ν) : Type := Value ν G.Ref

/-- What is logged: no object is shared any more. -/
inductive Output (ν : Type) where
  | string (value : String)
  | scalar (value : Scalar ν)
  | array (elements : List (Output ν))
  | object (entries : List (String × Output ν))

/-- What the language writes for a number and a date, and its `toLowerCase`. -/
structure Texts (ν : Type) where
  number : ν → String
  date : Time → String
  toLowerCase : String → String

inductive Fault where
  | typeError (message : String)
  | fuel
  deriving DecidableEq

/-! ## Texts of values -/

variable {ν : Type} (texts : Texts ν) (G : Graph ν)

def scalarText : Scalar ν → String
  | .number value => texts.number value
  | .boolean true => "true"
  | .boolean false => "false"
  | .bigint value => toString value
  | .null => "null"
  | .undefined => "undefined"

def symbolText (description : String) : String := "Symbol(" ++ description ++ ")"

/-- `Error.prototype.toString`. -/
def errorText (name message : String) : String :=
  if name == "" then message
  else if message == "" then name
  else name ++ ": " ++ message

def traverse {α β : Type} (f : α → Except Fault β) : List α → Except Fault (List β)
  | [] => .ok []
  | x :: xs => do
    let y ← f x
    let ys ← traverse f xs
    pure (y :: ys)

/-- An element in `Array.prototype.join`. -/
def elementText {R : Type} (f : Value ν R → Except Fault String) :
    Value ν R → Except Fault String
  | .scalar .null => .ok ""
  | .scalar .undefined => .ok ""
  | .symbol _ => .error (.typeError "Cannot convert a Symbol value to a string")
  | value => f value

/-- `String(value)`. An array inside of itself has the empty text; a plain object without a
prototype, or with data under `toString`, has none. -/
def stringOf : Nat → List G.Ref → G.Val → Except Fault String
  | _, _, .string value => .ok value
  | _, _, .scalar value => .ok (scalarText texts value)
  | _, _, .symbol description => .ok (symbolText description)
  | 0, _, .object _ => .error .fuel
  | fuel + 1, path, .object ref =>
    match G.node ref with
    | .error name message _ => .ok (errorText name message)
    | .date time => .ok (texts.date time)
    | .array elements =>
      if ref ∈ path then .ok ""
      else do
        let parts ← traverse (elementText (stringOf fuel (ref :: path))) elements
        pure (",".intercalate parts)
    | .map _ => .ok "[object Map]"
    | .set _ => .ok "[object Set]"
    | .plain bare entries =>
      if bare || entries.any (·.1 == "toString") then
        .error (.typeError "Cannot convert object to primitive value")
      else .ok "[object Object]"

def keyText (key : G.Val) : Except Fault String := stringOf texts G (G.size + 1) [] key

/-! ## Keys -/

def SENSITIVE_KEYS : List String :=
  ["authorization", "proxyauthorization", "accesstoken", "refreshtoken", "admintoken", "token",
    "jwt", "cookie", "cookies", "setcookie", "xcsrftoken", "phone", "phonenumber", "mobile",
    "address", "pickupaddress", "dropoffaddress", "exactaddress", "coordinates",
    "exactcoordinates", "kyc", "kycdocument", "kycpayload", "passport", "passportnumber",
    "selfie", "paymentpayload", "paymentdata", "paymentdetails", "providerpayload", "cardnumber",
    "pan", "cvv", "cvc", "presignedurl", "uploadurl", "downloadurl", "secret", "clientsecret",
    "apikey", "otp", "otpcode", "verificationcode", "password"]

/-- `key.toLowerCase().replace(/[^a-z0-9]/g, '')` -/
def normalizedKey (key : String) : List Char :=
  (texts.toLowerCase key).toList.filter fun c =>
    Patterns.isDigit c || (97 ≤ c.toNat && c.toNat ≤ 122)

def isSensitiveKey (key : String) : Bool :=
  let normalized := normalizedKey texts key
  SENSITIVE_KEYS.any (·.toList == normalized) || "token".toList.isSuffixOf normalized ||
    "secret".toList.isSuffixOf normalized

/-! ## The walk -/

/-- `seen` is passed from one element to the next. -/
def walk {α β R : Type} (f : α → List R → Except Fault (β × List R)) :
    List α → List R → Except Fault (List β × List R)
  | [], seen => .ok ([], seen)
  | x :: xs, seen => do
    let (y, seen) ← f x seen
    let (ys, seen) ← walk f xs seen
    pure (y :: ys, seen)

/-- A property of a plain object. -/
def redactProperty {R : Type} (f : Value ν R → List R → Except Fault (Output ν × List R))
    (entry : String × Value ν R) (seen : List R) :
    Except Fault ((String × Output ν) × List R) :=
  if isSensitiveKey texts entry.1 then .ok ((entry.1, .string (String.ofList REDACTED)), seen)
  else do
    let (output, seen) ← f entry.2 seen
    pure ((entry.1, output), seen)

/-- An entry of a map. -/
def redactMapEntry (f : G.Val → List G.Ref → Except Fault (Output ν × List G.Ref))
    (entry : G.Val × G.Val) (seen : List G.Ref) :
    Except Fault ((String × Output ν) × List G.Ref) := do
  let key ← keyText texts G entry.1
  redactProperty texts f (key, entry.2) seen

/-- `Object.fromEntries`: of two entries with one key the later counts. -/
def fromEntries {α : Type} (entries : List (String × α)) : List (String × α) :=
  entries.foldl (fun object entry =>
    if object.any (·.1 == entry.1) then
      object.map fun property => if property.1 == entry.1 then entry else property
    else object ++ [entry]) []

/-- `value.stack ? redactSensitiveText(value.stack) : undefined` -/
def redactStack : Option String → Output ν
  | some stack => if stack == "" then .scalar .undefined else .string (redactSensitiveText stack)
  | none => .scalar .undefined

def redactValue : Nat → G.Val → List G.Ref → Except Fault (Output ν × List G.Ref)
  | _, .string value, seen => .ok (.string (redactSensitiveText value), seen)
  | _, .scalar value, seen => .ok (.scalar value, seen)
  | _, .symbol description, seen => .ok (.string (symbolText description), seen)
  | 0, .object _, _ => .error .fuel
  | fuel + 1, .object ref, seen =>
    if ref ∈ seen then .ok (.string "[Circular]", seen)
    else
      let seen := ref :: seen
      match G.node ref with
      | .error name message stack =>
        .ok (.object [("name", .string name), ("message", .string (redactSensitiveText message)),
          ("stack", redactStack stack)], seen)
      | .date time => .ok (.string (toISOString time), seen)
      | .array elements => do
        let (outputs, seen) ← walk (redactValue fuel) elements seen
        pure (.array outputs, seen)
      | .map entries => do
        let (outputs, seen) ← walk (redactMapEntry texts G (redactValue fuel)) entries seen
        pure (.object (fromEntries outputs), seen)
      | .set elements => do
        let (outputs, seen) ← walk (redactValue fuel) elements seen
        pure (.array outputs, seen)
      | .plain _ entries => do
        let (outputs, seen) ← walk (redactProperty texts (redactValue fuel)) entries seen
        pure (.object (fromEntries outputs), seen)

/-- The result with a stack of the given depth. -/
def redactWithin (fuel : Nat) (value : G.Val) : Except Fault (Output ν) :=
  (redactValue texts G fuel value []).map Prod.fst

def redactSensitiveData (value : G.Val) : Except Fault (Output ν) :=
  redactWithin texts G (G.size + 1) value

/-! ## More fuel -/

section

variable {α β : Type}

/-- `y` ends as `x` does, unless `x` runs out of fuel. -/
def Continues (x y : Except Fault α) : Prop := x ≠ .error .fuel → y = x

theorem Continues.refl (x : Except Fault α) : Continues x x := fun _ => rfl

theorem Continues.bind {x y : Except Fault α} {f g : α → Except Fault β} (h : Continues x y)
    (hf : ∀ a, Continues (f a) (g a)) : Continues (x >>= f) (y >>= g) := by
  intro hx
  cases x with
  | error e =>
    have hne : (.error e : Except Fault α) ≠ .error .fuel := by
      rintro ⟨⟩
      exact hx rfl
    rw [h hne]
    rfl
  | ok a =>
    rw [h (by simp)]
    exact hf a hx

theorem traverse_continues {f g : α → Except Fault β} (h : ∀ x, Continues (f x) (g x))
    (xs : List α) : Continues (traverse f xs) (traverse g xs) := by
  induction xs with
  | nil => exact .refl _
  | cons x xs ih => exact (h x).bind fun _ => ih.bind fun _ => .refl _

theorem walk_continues {R : Type} {f g : α → List R → Except Fault (β × List R)}
    (h : ∀ x seen, Continues (f x seen) (g x seen)) (xs : List α) (seen : List R) :
    Continues (walk f xs seen) (walk g xs seen) := by
  induction xs generalizing seen with
  | nil => exact .refl _
  | cons x xs ih => exact (h x seen).bind fun p => (ih p.2).bind fun _ => .refl _

theorem elementText_continues {R : Type} {f g : Value ν R → Except Fault String}
    (h : ∀ v, Continues (f v) (g v)) (v : Value ν R) :
    Continues (elementText f v) (elementText g v) := by
  cases v with
  | string s => exact h _
  | scalar x =>
    cases x with
    | null => exact .refl _
    | undefined => exact .refl _
    | number n => exact h _
    | boolean b => exact h _
    | bigint n => exact h _
  | symbol d => exact .refl _
  | object ref => exact h _

end

theorem stringOf_mono {fuel fuel' : Nat} (hle : fuel ≤ fuel') (path : List G.Ref) (v : G.Val) :
    Continues (stringOf texts G fuel path v) (stringOf texts G fuel' path v) := by
  induction fuel generalizing fuel' path v with
  | zero =>
    cases v with
    | object ref => exact fun h => absurd (by rw [stringOf]) h
    | string s => cases fuel' <;> exact .refl _
    | scalar x => cases fuel' <;> exact .refl _
    | symbol d => cases fuel' <;> exact .refl _
  | succ fuel ih =>
    obtain ⟨fuel', rfl⟩ : ∃ n, fuel' = n + 1 := ⟨fuel' - 1, by omega⟩
    cases v with
    | object ref =>
      simp only [stringOf]
      cases G.node ref with
      | array elements =>
        simp only
        split
        · exact .refl _
        · exact (traverse_continues (elementText_continues fun v => ih (by omega) _ v) _).bind
            fun _ => .refl _
      | error name message stack => exact .refl _
      | date time => exact .refl _
      | map entries => exact .refl _
      | set elements => exact .refl _
      | plain bare entries => exact .refl _
    | string s => exact .refl _
    | scalar x => exact .refl _
    | symbol d => exact .refl _

theorem redactProperty_continues {R : Type}
    {f g : Value ν R → List R → Except Fault (Output ν × List R)}
    (h : ∀ v seen, Continues (f v seen) (g v seen)) (entry : String × Value ν R) (seen : List R) :
    Continues (redactProperty texts f entry seen) (redactProperty texts g entry seen) := by
  rw [redactProperty, redactProperty]
  split
  · exact .refl _
  · exact (h entry.2 seen).bind fun _ => .refl _

theorem redactMapEntry_continues {f g : G.Val → List G.Ref → Except Fault (Output ν × List G.Ref)}
    (h : ∀ v seen, Continues (f v seen) (g v seen)) (entry : G.Val × G.Val) (seen : List G.Ref) :
    Continues (redactMapEntry texts G f entry seen) (redactMapEntry texts G g entry seen) :=
  Continues.bind (.refl _) fun key => redactProperty_continues texts h (key, entry.2) seen

theorem redactValue_mono {fuel fuel' : Nat} (hle : fuel ≤ fuel') (v : G.Val)
    (seen : List G.Ref) :
    Continues (redactValue texts G fuel v seen) (redactValue texts G fuel' v seen) := by
  induction fuel generalizing fuel' v seen with
  | zero =>
    cases v with
    | object ref => exact fun h => absurd (by rw [redactValue]) h
    | string s => cases fuel' <;> exact .refl _
    | scalar x => cases fuel' <;> exact .refl _
    | symbol d => cases fuel' <;> exact .refl _
  | succ fuel ih =>
    obtain ⟨fuel', rfl⟩ : ∃ n, fuel' = n + 1 := ⟨fuel' - 1, by omega⟩
    have hvalue : ∀ v seen, Continues (redactValue texts G fuel v seen)
        (redactValue texts G fuel' v seen) := fun v seen => ih (by omega) v seen
    cases v with
    | object ref =>
      simp only [redactValue]
      split
      · exact .refl _
      · cases G.node ref with
        | error name message stack => exact .refl _
        | date time => exact .refl _
        | array elements => exact (walk_continues hvalue _ _).bind fun _ => .refl _
        | map entries =>
          exact (walk_continues (redactMapEntry_continues texts G hvalue) _ _).bind
            fun _ => .refl _
        | set elements => exact (walk_continues hvalue _ _).bind fun _ => .refl _
        | plain bare entries =>
          exact (walk_continues (redactProperty_continues texts hvalue) _ _).bind fun _ => .refl _
    | string s => exact .refl _
    | scalar x => exact .refl _
    | symbol d => exact .refl _

/-! ## Enough fuel -/

section

variable {α β : Type}

/-- The objects that are not in the list. -/
def unseen (seen : List G.Ref) : Nat := ((List.finRange G.size).filter (· ∉ seen)).length

theorem unseen_le (seen : List G.Ref) : unseen G seen ≤ G.size := by
  have hle := List.length_filter_le (fun r => decide (r ∉ seen)) (List.finRange G.size)
  rwa [List.length_finRange] at hle

theorem unseen_anti {seen seen' : List G.Ref} (h : seen ⊆ seen') :
    unseen G seen' ≤ unseen G seen := by
  refine (List.monotone_filter_right _ fun r hr => ?_).length_le
  simp only [decide_eq_true_eq] at hr ⊢
  exact fun hmem => hr (h hmem)

theorem unseen_cons {seen : List G.Ref} {ref : G.Ref} (h : ref ∉ seen) :
    unseen G (ref :: seen) < unseen G seen := by
  have hfilter : (List.finRange G.size).filter (· ∉ ref :: seen) =
      ((List.finRange G.size).filter (· ∉ seen)).filter (· ≠ ref) := by
    rw [List.filter_filter]
    refine List.filter_congr fun r _ => ?_
    simp [not_or]
  rw [unseen, hfilter]
  refine List.length_filter_lt_length_iff_exists.mpr ⟨ref, ?_, by simp⟩
  rw [List.mem_filter, decide_eq_true_eq]
  exact ⟨List.mem_finRange ref, h⟩

/-- The walk ends, and forgets no object that was visited. -/
def Ends {R : Type} (seen : List R) (x : Except Fault (α × List R)) : Prop :=
  x ≠ .error .fuel ∧ ∀ a seen', x = .ok (a, seen') → seen ⊆ seen'

theorem Ends.ok {R : Type} (a : α) {seen seen' : List R} (h : seen ⊆ seen') :
    Ends seen (.ok (a, seen')) := by
  refine ⟨by simp, fun b seen'' heq => ?_⟩
  cases heq
  exact h

theorem Ends.bind {R : Type} {seen : List R} {x : Except Fault (α × List R)}
    {f : α × List R → Except Fault (β × List R)} (h : Ends seen x)
    (hf : ∀ a seen', seen ⊆ seen' → Ends seen' (f (a, seen'))) : Ends seen (x >>= f) := by
  cases x with
  | error e =>
    refine ⟨fun heq => h.1 ?_, fun a seen' heq => ?_⟩
    · cases heq
      rfl
    · cases heq
  | ok p =>
    obtain ⟨a, seen'⟩ := p
    have hsub := h.2 a seen' rfl
    obtain ⟨hne, hmore⟩ := hf a seen' hsub
    exact ⟨hne, fun b seen'' heq => List.Subset.trans hsub (hmore b seen'' heq)⟩

theorem walk_ends {R : Type} {f : α → List R → Except Fault (β × List R)} {xs : List α}
    {seen : List R} (h : ∀ x ∈ xs, ∀ seen', seen ⊆ seen' → Ends seen' (f x seen')) :
    Ends seen (walk f xs seen) := by
  induction xs generalizing seen with
  | nil => exact .ok _ (List.Subset.refl seen)
  | cons x xs ih =>
    refine (h x (List.mem_cons_self ..) seen (List.Subset.refl seen)).bind fun y seen₁ hsub => ?_
    refine (ih fun x' hx' seen' hsub' =>
      h x' (List.mem_cons_of_mem _ hx') seen' (List.Subset.trans hsub hsub')).bind ?_
    exact fun ys seen₂ _ => .ok _ (List.Subset.refl seen₂)

theorem traverse_ends {f : α → Except Fault β} {xs : List α}
    (h : ∀ x ∈ xs, f x ≠ .error .fuel) : traverse f xs ≠ .error .fuel := by
  induction xs with
  | nil => simp [traverse]
  | cons x xs ih =>
    have hx := h x (List.mem_cons_self ..)
    have hxs := ih fun x' hx' => h x' (List.mem_cons_of_mem _ hx')
    rw [traverse]
    cases hfx : f x with
    | error e =>
      rintro ⟨⟩
      exact hx hfx
    | ok y =>
      cases hrest : traverse f xs with
      | error e =>
        rintro ⟨⟩
        exact hxs hrest
      | ok ys => rintro ⟨⟩

theorem elementText_ends {R : Type} {f : Value ν R → Except Fault String}
    (h : ∀ v, f v ≠ .error .fuel) (v : Value ν R) : elementText f v ≠ .error .fuel := by
  cases v with
  | string s => exact h _
  | scalar x =>
    cases x with
    | null => simp [elementText]
    | undefined => simp [elementText]
    | number n => exact h _
    | boolean b => exact h _
    | bigint n => exact h _
  | symbol d => simp [elementText]
  | object ref => exact h _

/-- Each array on the path is an object of its own. -/
theorem stringOf_total {fuel : Nat} {path : List G.Ref} (h : unseen G path < fuel) (v : G.Val) :
    stringOf texts G fuel path v ≠ .error .fuel := by
  induction fuel generalizing path v with
  | zero => omega
  | succ fuel ih =>
    cases v with
    | object ref =>
      simp only [stringOf]
      cases G.node ref with
      | array elements =>
        simp only
        split
        · simp
        · next hnot =>
          have hless := unseen_cons G hnot
          have hparts : traverse (elementText (stringOf texts G fuel (ref :: path))) elements ≠
              .error .fuel :=
            traverse_ends fun v _ => elementText_ends (fun v => ih (by omega) v) v
          cases htraverse : traverse (elementText (stringOf texts G fuel (ref :: path)))
            elements with
          | error e =>
            rintro ⟨⟩
            exact hparts htraverse
          | ok parts => rintro ⟨⟩
      | plain bare entries =>
        simp only
        split
        · simp
        · simp
      | error name message stack => simp
      | date time => simp
      | map entries => simp
      | set elements => simp
    | string s => simp [stringOf]
    | scalar x => simp [stringOf]
    | symbol d => simp [stringOf]

theorem keyText_total (key : G.Val) : keyText texts G key ≠ .error .fuel :=
  stringOf_total texts G (Nat.lt_succ_of_le (unseen_le G [])) key

theorem redactProperty_ends {R : Type} {f : Value ν R → List R → Except Fault (Output ν × List R)}
    {entry : String × Value ν R} {seen : List R} (h : Ends seen (f entry.2 seen)) :
    Ends seen (redactProperty texts f entry seen) := by
  rw [redactProperty]
  split
  · exact .ok _ (List.Subset.refl seen)
  · exact h.bind fun output seen' _ => .ok _ (List.Subset.refl seen')

theorem redactMapEntry_ends {f : G.Val → List G.Ref → Except Fault (Output ν × List G.Ref)}
    {entry : G.Val × G.Val} {seen : List G.Ref} (h : Ends seen (f entry.2 seen)) :
    Ends seen (redactMapEntry texts G f entry seen) := by
  have hkey := keyText_total texts G entry.1
  rw [redactMapEntry]
  cases hk : keyText texts G entry.1 with
  | error e =>
    refine ⟨?_, fun a seen' heq => ?_⟩
    · rintro ⟨⟩
      exact hkey hk
    · cases heq
  | ok key => exact redactProperty_ends texts h

/-- With more fuel than there are objects to visit, the walk ends. -/
theorem redactValue_total {fuel : Nat} {seen : List G.Ref} (h : unseen G seen < fuel)
    (v : G.Val) : Ends seen (redactValue texts G fuel v seen) := by
  induction fuel generalizing seen v with
  | zero => omega
  | succ fuel ih =>
    cases v with
    | object ref =>
      simp only [redactValue]
      split
      · exact .ok _ (List.Subset.refl seen)
      · next hnot =>
        have hless := unseen_cons G hnot
        have hseen : seen ⊆ ref :: seen := List.subset_cons_self ref seen
        have hvalue : ∀ v seen', ref :: seen ⊆ seen' →
            Ends seen' (redactValue texts G fuel v seen') := by
          intro v seen' hsub
          have hle := unseen_anti G hsub
          exact ih (by omega) v
        have hweaken : ∀ {x : Except Fault (Output ν × List G.Ref)}, Ends (ref :: seen) x →
            Ends seen x :=
          fun hx => ⟨hx.1, fun a seen' heq => List.Subset.trans hseen (hx.2 a seen' heq)⟩
        refine hweaken ?_
        cases G.node ref with
        | error name message stack => exact .ok _ (List.Subset.refl _)
        | date time => exact .ok _ (List.Subset.refl _)
        | array elements =>
          exact (walk_ends fun v _ => hvalue v).bind fun _ _ _ => .ok _ (List.Subset.refl _)
        | map entries =>
          exact (walk_ends fun entry _ seen' hsub =>
            redactMapEntry_ends texts G (hvalue entry.2 seen' hsub)).bind
              fun _ _ _ => .ok _ (List.Subset.refl _)
        | set elements =>
          exact (walk_ends fun v _ => hvalue v).bind fun _ _ _ => .ok _ (List.Subset.refl _)
        | plain bare entries =>
          exact (walk_ends fun entry _ seen' hsub =>
            redactProperty_ends texts (hvalue entry.2 seen' hsub)).bind
              fun _ _ _ => .ok _ (List.Subset.refl _)
    | string s => exact .ok _ (List.Subset.refl seen)
    | scalar x => exact .ok _ (List.Subset.refl seen)
    | symbol d => exact .ok _ (List.Subset.refl seen)

end

end SensitiveData

end Sosedi
