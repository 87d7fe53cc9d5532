import Mathlib.Data.List.Forall2
import Sosedi.Logging.SensitiveData

/-!
# What the redaction of data depends on

Two values that differ only in what is reached through sensitive keys are related by a matching of
the objects that are reached otherwise.  It matches an object with one object at most, on either
side: sharing and cycles are the same in both.

Proved here:

* `stringOf_eq`: related keys of maps have the same text;
* `redactValue_agree`: the walks of related values write the same and have visited matched
  objects;
* `redactSensitiveData_noninterference`: the walk ends, and its result is the same for two such
  values.
-/

namespace Sosedi

namespace SensitiveData

variable {ν : Type}

/-! ## Differing only below sensitive keys -/

/-- The same primitive value, or matched objects. -/
inductive ValueRel {R R' : Type} (B : R → R' → Prop) : Value ν R → Value ν R' → Prop where
  | string (value : String) : ValueRel B (.string value) (.string value)
  | scalar (value : Scalar ν) : ValueRel B (.scalar value) (.scalar value)
  | symbol (description : String) : ValueRel B (.symbol description) (.symbol description)
  | object {ref : R} {ref' : R'} (h : B ref ref') : ValueRel B (.object ref) (.object ref')

/-- The same key; under a sensitive one anything. -/
structure PropertyRel (texts : Texts ν) {R R' : Type} (B : R → R' → Prop)
    (property : String × Value ν R) (property' : String × Value ν R') : Prop where
  key : property.1 = property'.1
  value : isSensitiveKey texts property.1 = false → ValueRel B property.2 property'.2

/-- Related keys; under one with a sensitive text anything. -/
structure EntryRel (texts : Texts ν) (G G' : Graph ν) (B : G.Ref → G'.Ref → Prop)
    (entry : G.Val × G.Val) (entry' : G'.Val × G'.Val) : Prop where
  key : ValueRel B entry.1 entry'.1
  value : ∀ text, keyText texts G entry.1 = .ok text → isSensitiveKey texts text = false →
    ValueRel B entry.2 entry'.2

inductive NodeRel (texts : Texts ν) (G G' : Graph ν) (B : G.Ref → G'.Ref → Prop) :
    Node ν G.Ref → Node ν G'.Ref → Prop where
  | error (name message : String) (stack : Option String) :
      NodeRel texts G G' B (.error name message stack) (.error name message stack)
  | date (time : Time) : NodeRel texts G G' B (.date time) (.date time)
  | array {elements : List G.Val} {elements' : List G'.Val}
      (h : List.Forall₂ (ValueRel B) elements elements') :
      NodeRel texts G G' B (.array elements) (.array elements')
  | map {entries : List (G.Val × G.Val)} {entries' : List (G'.Val × G'.Val)}
      (h : List.Forall₂ (EntryRel texts G G' B) entries entries') :
      NodeRel texts G G' B (.map entries) (.map entries')
  | set {elements : List G.Val} {elements' : List G'.Val}
      (h : List.Forall₂ (ValueRel B) elements elements') :
      NodeRel texts G G' B (.set elements) (.set elements')
  | plain (bare : Bool) {entries : List (String × G.Val)} {entries' : List (String × G'.Val)}
      (h : List.Forall₂ (PropertyRel texts B) entries entries') :
      NodeRel texts G G' B (.plain bare entries) (.plain bare entries')

structure Matching (texts : Texts ν) (G G' : Graph ν) (B : G.Ref → G'.Ref → Prop) : Prop where
  left : ∀ {ref ref' other'}, B ref ref' → B ref other' → ref' = other'
  right : ∀ {ref other ref'}, B ref ref' → B other ref' → ref = other
  node : ∀ {ref ref'}, B ref ref' → NodeRel texts G G' B (G.node ref) (G'.node ref')

/-- The values differ only in what is reached through sensitive keys. -/
def SameButSensitive (texts : Texts ν) (G G' : Graph ν) (v : G.Val) (v' : G'.Val) : Prop :=
  ∃ B, Matching texts G G' B ∧ ValueRel B v v'

/-! ## Texts of keys -/

variable {texts : Texts ν} {G G' : Graph ν} {B : G.Ref → G'.Ref → Prop}

theorem Matching.mem_iff (h : Matching texts G G' B) {seen : List G.Ref} {seen' : List G'.Ref}
    (hseen : List.Forall₂ B seen seen') {ref : G.Ref} {ref' : G'.Ref} (href : B ref ref') :
    ref ∈ seen ↔ ref' ∈ seen' := by
  induction hseen with
  | nil => simp
  | @cons other other' seen seen' hother hrest ih =>
    rw [List.mem_cons, List.mem_cons, ih]
    refine or_congr_left ⟨?_, ?_⟩
    · rintro rfl
      exact h.left href hother
    · rintro rfl
      exact h.right href hother

theorem traverse_eq {α α' β : Type} {f : α → Except Fault β} {f' : α' → Except Fault β}
    {xs : List α} {xs' : List α'} (h : List.Forall₂ (fun x x' => f x = f' x') xs xs') :
    traverse f xs = traverse f' xs' := by
  induction h with
  | nil => rfl
  | cons hx _ ih => rw [traverse, traverse, hx, ih]

theorem elementText_eq {R R' : Type} {B : R → R' → Prop} {f : Value ν R → Except Fault String}
    {f' : Value ν R' → Except Fault String} (h : ∀ v v', ValueRel B v v' → f v = f' v')
    {v : Value ν R} {v' : Value ν R'} (hv : ValueRel B v v') :
    elementText f v = elementText f' v' := by
  cases hv with
  | string s => exact h _ _ (.string s)
  | scalar x =>
    cases x with
    | null => rfl
    | undefined => rfl
    | number n => exact h _ _ (.scalar _)
    | boolean b => exact h _ _ (.scalar _)
    | bigint n => exact h _ _ (.scalar _)
  | symbol d => rfl
  | object href => exact h _ _ (.object href)

theorem stringOf_eq (h : Matching texts G G' B) (fuel : Nat) {path : List G.Ref}
    {path' : List G'.Ref} (hpath : List.Forall₂ B path path') {v : G.Val} {v' : G'.Val}
    (hv : ValueRel B v v') : stringOf texts G fuel path v = stringOf texts G' fuel path' v' := by
  induction fuel generalizing path path' v v' with
  | zero => cases hv <;> rfl
  | succ fuel ih =>
    cases hv with
    | string s => rfl
    | scalar x => rfl
    | symbol d => rfl
    | @object ref ref' href =>
      have hnode := h.node href
      simp only [stringOf]
      generalize G.node ref = node at hnode
      generalize G'.node ref' = node' at hnode
      cases hnode with
      | error name message stack => rfl
      | date time => rfl
      | array helements =>
        simp only [h.mem_iff hpath href]
        have hparts := traverse_eq (helements.imp fun v v' hv =>
          elementText_eq (fun v v' => ih (.cons href hpath)) hv)
        rw [hparts]
      | map hentries => rfl
      | set helements => rfl
      | plain bare hentries =>
        have hkeys : ∀ {entries : List (String × G.Val)} {entries' : List (String × G'.Val)},
            List.Forall₂ (PropertyRel texts B) entries entries' →
            entries.any (·.1 == "toString") = entries'.any (·.1 == "toString") := by
          intro entries entries' hall
          induction hall with
          | nil => rfl
          | cons hentry _ ihall => rw [List.any_cons, List.any_cons, hentry.key, ihall]
        simp only [hkeys hentries]

/-- The depth of the stack does not matter, so the sizes of the graphs do not. -/
theorem keyText_eq (h : Matching texts G G' B) {v : G.Val} {v' : G'.Val} (hv : ValueRel B v v') :
    keyText texts G v = keyText texts G' v' := by
  have hsame := stringOf_eq h (max (G.size + 1) (G'.size + 1)) .nil hv
  rwa [stringOf_mono texts G (le_max_left _ _) [] v (keyText_total texts G v),
    stringOf_mono texts G' (le_max_right _ _) [] v' (keyText_total texts G' v')] at hsame

/-! ## Two walks -/

section

variable {R R' α β : Type} {C : R → R' → Prop}

/-- Both walks fail in the same way, or write the same and have visited matched objects. -/
inductive Agree (C : R → R' → Prop) :
    Except Fault (α × List R) → Except Fault (α × List R') → Prop where
  | fails (fault : Fault) : Agree C (.error fault) (.error fault)
  | ends (a : α) {seen : List R} {seen' : List R'} (h : List.Forall₂ C seen seen') :
      Agree C (.ok (a, seen)) (.ok (a, seen'))

theorem Agree.bind {x : Except Fault (α × List R)} {x' : Except Fault (α × List R')}
    {f : α × List R → Except Fault (β × List R)} {f' : α × List R' → Except Fault (β × List R')}
    (h : Agree C x x') (hf : ∀ a seen seen', List.Forall₂ C seen seen' →
      Agree C (f (a, seen)) (f' (a, seen'))) : Agree C (x >>= f) (x' >>= f') := by
  cases h with
  | fails fault => exact .fails fault
  | ends a hseen => exact hf a _ _ hseen

theorem Agree.map {x : Except Fault (α × List R)} {x' : Except Fault (α × List R')}
    (h : Agree C x x') : x.map Prod.fst = x'.map Prod.fst := by
  cases h with
  | fails fault => rfl
  | ends a hseen => rfl

theorem walk_agree {γ γ' : Type} {f : γ → List R → Except Fault (β × List R)}
    {f' : γ' → List R' → Except Fault (β × List R')} {xs : List γ} {xs' : List γ'}
    (h : List.Forall₂ (fun x x' => ∀ seen seen', List.Forall₂ C seen seen' →
      Agree C (f x seen) (f' x' seen')) xs xs') {seen : List R} {seen' : List R'}
    (hseen : List.Forall₂ C seen seen') : Agree C (walk f xs seen) (walk f' xs' seen') := by
  induction h generalizing seen seen' with
  | nil => exact .ends [] hseen
  | cons hx _ ih =>
    exact (hx _ _ hseen).bind fun y _ _ hseen₁ => (ih hseen₁).bind
      fun ys _ _ hseen₂ => .ends (y :: ys) hseen₂

/-- Under a sensitive key neither walk looks at the value. -/
theorem redactProperty_agree {f : Value ν R → List R → Except Fault (Output ν × List R)}
    {f' : Value ν R' → List R' → Except Fault (Output ν × List R')} (entry : String × Value ν R)
    (entry' : String × Value ν R') (hkey : entry.1 = entry'.1) {seen : List R} {seen' : List R'}
    (hseen : List.Forall₂ C seen seen') (h : isSensitiveKey texts entry.1 = false →
      Agree C (f entry.2 seen) (f' entry'.2 seen')) :
    Agree C (redactProperty texts f entry seen) (redactProperty texts f' entry' seen') := by
  rw [redactProperty, redactProperty, ← hkey]
  cases hsensitive : isSensitiveKey texts entry.1 with
  | true => exact .ends _ hseen
  | false => exact (h hsensitive).bind fun output _ _ hseen' => .ends (entry.1, output) hseen'

end

theorem redactMapEntry_agree (h : Matching texts G G' B)
    {f : G.Val → List G.Ref → Except Fault (Output ν × List G.Ref)}
    {f' : G'.Val → List G'.Ref → Except Fault (Output ν × List G'.Ref)}
    (hf : ∀ v v', ValueRel B v v' → ∀ seen seen', List.Forall₂ B seen seen' →
      Agree B (f v seen) (f' v' seen')) {entry : G.Val × G.Val} {entry' : G'.Val × G'.Val}
    (hentry : EntryRel texts G G' B entry entry') {seen : List G.Ref} {seen' : List G'.Ref}
    (hseen : List.Forall₂ B seen seen') :
    Agree B (redactMapEntry texts G f entry seen) (redactMapEntry texts G' f' entry' seen') := by
  have hkey := keyText_eq h hentry.key
  rw [redactMapEntry, redactMapEntry, ← hkey]
  cases htext : keyText texts G entry.1 with
  | error fault => exact .fails fault
  | ok text =>
    exact redactProperty_agree (text, entry.2) (text, entry'.2) rfl hseen fun hplain =>
      hf _ _ (hentry.value text htext hplain) _ _ hseen

theorem redactValue_agree (h : Matching texts G G' B) (fuel : Nat) {v : G.Val} {v' : G'.Val}
    (hv : ValueRel B v v') {seen : List G.Ref} {seen' : List G'.Ref}
    (hseen : List.Forall₂ B seen seen') :
    Agree B (redactValue texts G fuel v seen) (redactValue texts G' fuel v' seen') := by
  induction fuel generalizing v v' seen seen' with
  | zero =>
    cases hv with
    | string s => exact .ends _ hseen
    | scalar x => exact .ends _ hseen
    | symbol d => exact .ends _ hseen
    | object href => exact .fails .fuel
  | succ fuel ih =>
    have hvalue : ∀ v v', ValueRel B v v' → ∀ seen seen', List.Forall₂ B seen seen' →
        Agree B (redactValue texts G fuel v seen) (redactValue texts G' fuel v' seen') :=
      fun v v' hv seen seen' hseen => ih hv hseen
    cases hv with
    | string s => exact .ends _ hseen
    | scalar x => exact .ends _ hseen
    | symbol d => exact .ends _ hseen
    | @object ref ref' href =>
      have hnode := h.node href
      have hmem := h.mem_iff hseen href
      have hvisited : List.Forall₂ B (ref :: seen) (ref' :: seen') := .cons href hseen
      simp only [redactValue]
      by_cases hcircular : ref ∈ seen
      · rw [if_pos hcircular, if_pos (hmem.mp hcircular)]
        exact .ends _ hseen
      · rw [if_neg hcircular, if_neg fun hin => hcircular (hmem.mpr hin)]
        generalize G.node ref = node at hnode
        generalize G'.node ref' = node' at hnode
        cases hnode with
        | error name message stack => exact .ends _ hvisited
        | date time => exact .ends _ hvisited
        | array helements =>
          exact (walk_agree (helements.imp hvalue) hvisited).bind
            fun outputs _ _ hseen' => Agree.ends (Output.array outputs) hseen'
        | map hentries =>
          exact (walk_agree (hentries.imp fun entry entry' hentry seen seen' hseen =>
            redactMapEntry_agree h hvalue hentry hseen) hvisited).bind
              fun outputs _ _ hseen' => Agree.ends (Output.object (fromEntries outputs)) hseen'
        | set helements =>
          exact (walk_agree (helements.imp hvalue) hvisited).bind
            fun outputs _ _ hseen' => Agree.ends (Output.array outputs) hseen'
        | plain bare hentries =>
          exact (walk_agree (hentries.imp fun entry entry' hentry seen seen' hseen =>
            redactProperty_agree entry entry' hentry.key hseen fun hplain =>
              hvalue _ _ (hentry.value hplain) _ _ hseen) hvisited).bind
                fun outputs _ _ hseen' => Agree.ends (Output.object (fromEntries outputs)) hseen'

/-- A deeper stack does not change the result. -/
theorem redactWithin_eq (v : G.Val) {fuel : Nat} (hfuel : G.size < fuel) :
    redactWithin texts G fuel v = redactSensitiveData texts G v := by
  have hends := redactValue_total texts G (Nat.lt_succ_of_le (unseen_le G [])) v
  rw [redactSensitiveData, redactWithin, redactWithin,
    redactValue_mono texts G (Nat.succ_le_of_lt hfuel) v [] hends.1]

theorem redactSensitiveData_ends (v : G.Val) : redactSensitiveData texts G v ≠ .error .fuel := by
  obtain ⟨hends, -⟩ := redactValue_total texts G (Nat.lt_succ_of_le (unseen_le G [])) v
  rw [redactSensitiveData, redactWithin]
  cases hresult : redactValue texts G (G.size + 1) v [] with
  | error fault =>
    rintro ⟨⟩
    exact hends hresult
  | ok result => rintro ⟨⟩

/-- **Redaction ends and tells nothing about what is below sensitive keys.** -/
theorem redactSensitiveData_noninterference (texts : Texts ν) :
    (∀ (G : Graph ν) (v : G.Val), redactSensitiveData texts G v ≠ .error .fuel ∧
      ∀ fuel, G.size < fuel → redactWithin texts G fuel v = redactSensitiveData texts G v) ∧
    ∀ (G G' : Graph ν) (v : G.Val) (v' : G'.Val), SameButSensitive texts G G' v v' →
      redactSensitiveData texts G v = redactSensitiveData texts G' v' := by
  refine ⟨fun G v => ⟨redactSensitiveData_ends v, fun fuel => redactWithin_eq v⟩, ?_⟩
  rintro G G' v v' ⟨B, hmatching, hv⟩
  have hleft : G.size < max (G.size + 1) (G'.size + 1) := by omega
  have hright : G'.size < max (G.size + 1) (G'.size + 1) := by omega
  rw [← redactWithin_eq v hleft, ← redactWithin_eq v' hright]
  exact (redactValue_agree hmatching _ hv .nil).map

namespace Sample

def tables : Texts Int :=
  ⟨toString, toISOString, fun text => String.ofList (text.toList.map Char.toLower)⟩

/-- A request with a token that holds itself. -/
def request (token : Value Int (Fin 2)) : Graph Int where
  size := 2
  node ref :=
    if ref = 0 then .plain false [("accessToken", token), ("request", .object 0)]
    else .array [.string "secret", .object 0]

/-- The token is a text in one request and an object in the other. -/
theorem same_but_token :
    SameButSensitive tables (request (.string "abc")) (request (.object 1))
      (.object (0 : Fin 2)) (.object (0 : Fin 2)) := by
  refine ⟨fun ref ref' => ref = (0 : Fin 2) ∧ ref' = (0 : Fin 2), ⟨?_, ?_, ?_⟩,
    .object ⟨rfl, rfl⟩⟩
  · rintro ref ref' other' ⟨-, rfl⟩ ⟨-, rfl⟩
    rfl
  · rintro ref other ref' ⟨rfl, -⟩ ⟨rfl, -⟩
    rfl
  · rintro ref ref' ⟨rfl, rfl⟩
    refine .plain false (.cons ⟨rfl, fun hplain => ?_⟩ (.cons ⟨rfl, fun _ => ?_⟩ .nil))
    · have hsensitive : isSensitiveKey tables "accessToken" = true := by decide +kernel
      have hnot : isSensitiveKey tables "accessToken" = false := hplain
      rw [hsensitive] at hnot
      cases hnot
    · exact .object ⟨rfl, rfl⟩

theorem redactSensitiveData_sample :
    redactSensitiveData tables (request (.string "abc")) (.object (0 : Fin 2)) =
      redactSensitiveData tables (request (.object 1)) (.object (0 : Fin 2)) :=
  (redactSensitiveData_noninterference tables).2 _ _ _ _ same_but_token

end Sample

end SensitiveData

end Sosedi
