import Mathlib.Data.List.Sort
import Mathlib.Data.Option.Basic
import Mathlib.Data.Prod.Lex
import Sosedi.Data.Table

/-!
# Ordered reads

`findMany` reads the rows of a table that satisfy a condition, in the order of a key.

Proved here:

* `mem_findMany`, `nodup_findMany`: every such row is read, once;
* `findMany_map_congr`: what is made of the rows is determined by what is made of each of them
  under its key.  Neither the rows that are not read nor the order of insertion matter.
-/

namespace Table

variable {κ ρ σ τ β : Type} [DecidableEq κ] [LinearOrder τ]

def findMany (t : Table κ ρ) (p : κ → ρ → Bool) (key : κ → ρ → τ) : List (κ × ρ) :=
  (t.rows.filter fun r => p r.1 r.2).insertionSort fun a b => key a.1 a.2 ≤ key b.1 b.2

variable {t : Table κ ρ} {u : Table κ σ} {p : κ → ρ → Bool} {q : κ → σ → Bool} {key : κ → ρ → τ}
  {key' : κ → σ → τ}

theorem mem_findMany {k : κ} {r : ρ} :
    (k, r) ∈ t.findMany p key ↔ t.get k = some r ∧ p k r = true := by
  rw [findMany, List.mem_insertionSort, List.mem_filter, get_eq_some]

omit [DecidableEq κ] in
theorem nodup_findMany : ((t.findMany p key).map Prod.fst).Nodup := by
  have hperm := (List.perm_insertionSort (fun a b : κ × ρ => key a.1 a.2 ≤ key b.1 b.2)
    (t.rows.filter fun r => p r.1 r.2)).map Prod.fst
  exact hperm.nodup_iff.mpr (t.nodup.sublist (List.filter_sublist.map _))

/-- A condition on a row and what is made of it, as one optional value. -/
def found (t : Table κ ρ) (p : κ → ρ → Bool) (k : κ) : Option ρ := (t.get k).filter (p k)

theorem found_eq_some {k : κ} {r : ρ} : t.found p k = some r ↔ t.get k = some r ∧ p k r = true := by
  simp [found, Option.filter_eq_some_iff]

/-- No two rows that are read have one key. -/
def KeysApart (t : Table κ ρ) (p : κ → ρ → Bool) (key : κ → ρ → τ) : Prop :=
  ∀ k k' r r', t.found p k = some r → t.found p k' = some r' → key k r = key k' r' → k = k'

/-- A row that is read, by its key in the table, with what it is ordered by and what is made of
it. -/
def labelled (key : κ → ρ → τ) (f : κ → ρ → β) (r : κ × ρ) : κ × τ × β :=
  (r.1, key r.1 r.2, f r.1 r.2)

theorem mem_map_labelled {f : κ → ρ → β} {k : κ} {x : τ} {y : β} :
    (k, x, y) ∈ (t.findMany p key).map (labelled key f) ↔
      (t.found p k).map (fun r => (key k r, f k r)) = some (x, y) := by
  simp only [List.mem_map, Option.map_eq_some_iff, Prod.exists, found_eq_some, labelled,
    Prod.mk.injEq]
  constructor
  · rintro ⟨k, r, hr, rfl, rfl, rfl⟩
    exact ⟨r, mem_findMany.mp hr, rfl, rfl⟩
  · rintro ⟨r, hr, rfl, rfl⟩
    exact ⟨k, r, mem_findMany.mpr hr, rfl, rfl, rfl⟩

omit [DecidableEq κ] in
theorem nodup_map_labelled {f : κ → ρ → β} :
    ((t.findMany p key).map (labelled key f)).Nodup := by
  refine List.Nodup.of_map Prod.fst ?_
  rw [List.map_map]
  exact nodup_findMany

omit [DecidableEq κ] in
theorem pairwise_map_labelled {f : κ → ρ → β} :
    ((t.findMany p key).map (labelled key f)).Pairwise fun a b => a.2.1 ≤ b.2.1 :=
  List.pairwise_map.mpr (List.pairwise_insertionSort _ _)

/-- Reads are determined by what is found under each key. -/
theorem findMany_map_congr {f : κ → ρ → β} {g : κ → σ → β} (hapart : t.KeysApart p key)
    (h : ∀ k, (t.found p k).map (fun r => (key k r, f k r)) =
      (u.found q k).map fun r => (key' k r, g k r)) :
    (t.findMany p key).map (fun r => f r.1 r.2) =
      (u.findMany q key').map fun r => g r.1 r.2 := by
  have hperm : ((t.findMany p key).map (labelled key f)).Perm
      ((u.findMany q key').map (labelled key' g)) := by
    refine (List.perm_ext_iff_of_nodup nodup_map_labelled nodup_map_labelled).mpr ?_
    rintro ⟨k, x, y⟩
    rw [mem_map_labelled, mem_map_labelled, h]
  have heq : (t.findMany p key).map (labelled key f) =
      (u.findMany q key').map (labelled key' g) := by
    refine hperm.eq_of_pairwise ?_ pairwise_map_labelled pairwise_map_labelled
    rintro ⟨k, x, y⟩ ⟨k', x', y'⟩ ha hb hle hge
    have hb' := hperm.mem_iff.mpr hb
    rw [mem_map_labelled, Option.map_eq_some_iff] at ha hb'
    obtain ⟨r, hr, hxy⟩ := ha
    obtain ⟨r', hr', hxy'⟩ := hb'
    obtain rfl : x = x' := le_antisymm hle hge
    rw [Prod.mk.injEq] at hxy hxy'
    obtain rfl := hapart k k' r r' hr hr' (hxy.1.trans hxy'.1.symm)
    rw [hr, Option.some.injEq] at hr'
    rw [← hxy.2, ← hxy'.2, hr']
  have hlast := congrArg (List.map fun x => x.2.2) heq
  rwa [List.map_map, List.map_map] at hlast

/-- A further condition may be checked after the read. -/
theorem filter_findMany {q : κ → ρ → Bool} (hapart : t.KeysApart p key) :
    (t.findMany p key).filter (fun r => q r.1 r.2) =
      t.findMany (fun k r => p k r && q k r) key := by
  have hperm : ((t.findMany p key).filter fun r => q r.1 r.2).Perm
      (t.findMany (fun k r => p k r && q k r) key) := by
    refine ((List.perm_insertionSort _ _).filter _).trans ?_
    rw [List.filter_filter]
    have hcomm : (fun r : κ × ρ => q r.1 r.2 && p r.1 r.2) = fun r => p r.1 r.2 && q r.1 r.2 :=
      funext fun r => Bool.and_comm _ _
    rw [hcomm]
    exact (List.perm_insertionSort _ _).symm
  refine hperm.eq_of_pairwise ?_ ((List.pairwise_insertionSort _ _).filter _)
    (List.pairwise_insertionSort _ _)
  rintro ⟨k, r⟩ ⟨k', r'⟩ ha hb hle hge
  have hr := mem_findMany.mp (List.mem_of_mem_filter ha)
  have hr' := mem_findMany.mp (List.mem_of_mem_filter (hperm.mem_iff.mpr hb))
  obtain rfl := hapart k k' r r' (found_eq_some.mpr hr) (found_eq_some.mpr hr')
    (le_antisymm hle hge)
  rw [hr.1, Option.some.injEq] at hr'
  rw [hr'.1]

/-! ## Rows that agree -/

/-- The rows under a key, where the table has one, stand in `R`. -/
def Alike (R : ρ → σ → Prop) (t : Table κ ρ) (u : Table κ σ) : Prop :=
  ∀ k, Option.Rel R (t.get k) (u.get k)

end Table
