import Mathlib.Algebra.BigOperators.Group.List.Basic
import Mathlib.Algebra.Ring.Int.Defs
import Mathlib.Data.List.Nodup

/-!
# Keyed tables

A table is a list of rows under pairwise distinct keys: the primary key constraint is
part of the type.  Rows keep their order of insertion, and an update leaves a row where
it is, so that mapping a function over the rows commutes with updates.
-/

/-- Rows of type `ρ` under distinct keys of type `κ`. -/
structure Table (κ ρ : Type) where
  rows : List (κ × ρ)
  nodup : (rows.map Prod.fst).Nodup

namespace Table

variable {κ ρ σ : Type} [DecidableEq κ]

omit [DecidableEq κ] in
theorem ext' {t u : Table κ ρ} (h : t.rows = u.rows) : t = u := by
  cases t; cases u; cases h; rfl

def empty : Table κ ρ := ⟨[], List.nodup_nil⟩

def get (t : Table κ ρ) (k : κ) : Option ρ := t.rows.lookup k

omit [DecidableEq κ] in
/-- Rewrite every row, knowing its key. -/
def mapRows (t : Table κ ρ) (f : κ → ρ → ρ) : Table κ ρ where
  rows := t.rows.map fun r => (r.1, f r.1 r.2)
  nodup := by
    have h : (t.rows.map fun r => (r.1, f r.1 r.2)).map Prod.fst = t.rows.map Prod.fst := by
      rw [List.map_map]; rfl
    rw [h]
    exact t.nodup

/-- Rewrite the row under `k`, if there is one. -/
def modify (t : Table κ ρ) (k : κ) (f : ρ → ρ) : Table κ ρ :=
  t.mapRows fun k' r => if k' = k then f r else r

/-- Add a row at the end; a key in use keeps its row. -/
def insert (t : Table κ ρ) (k : κ) (r : ρ) : Table κ ρ :=
  if h : k ∈ t.rows.map Prod.fst then t
  else ⟨t.rows ++ [(k, r)], by
    rw [List.map_append, List.nodup_append]
    refine ⟨t.nodup, by simp, ?_⟩
    rintro a ha b hb rfl
    have hb : a = k := by simpa using hb
    exact h (hb ▸ ha)⟩

def erase (t : Table κ ρ) (k : κ) : Table κ ρ where
  rows := t.rows.filter fun r => r.1 ≠ k
  nodup := t.nodup.sublist ((List.filter_sublist).map _)

omit [DecidableEq κ] in
/-- Remove the rows that satisfy `p`. -/
def eraseWhere (t : Table κ ρ) (p : κ → ρ → Bool) : Table κ ρ where
  rows := t.rows.filter fun r => !p r.1 r.2
  nodup := t.nodup.sublist ((List.filter_sublist).map _)

/-- Add a row under each of the keys; keys in use keep their rows. -/
def insertAll (t : Table κ ρ) (keys : List κ) (row : κ → ρ) : Table κ ρ :=
  keys.foldl (fun t k => t.insert k (row k)) t

omit [DecidableEq κ] in
/-- Apply `f` to every row. -/
def map (t : Table κ ρ) (f : ρ → σ) : Table κ σ where
  rows := t.rows.map fun r => (r.1, f r.2)
  nodup := by
    have h : (t.rows.map fun r => (r.1, f r.2)).map Prod.fst = t.rows.map Prod.fst := by
      rw [List.map_map]; rfl
    rw [h]
    exact t.nodup

omit [DecidableEq κ] in
/-- Some row satisfies `p`. -/
def any (t : Table κ ρ) (p : κ → ρ → Bool) : Bool := t.rows.any fun r => p r.1 r.2

omit [DecidableEq κ] in
/-- The keys of the rows that satisfy `p`, in table order. -/
def keysWhere (t : Table κ ρ) (p : κ → ρ → Bool) : List κ :=
  (t.rows.filter fun r => p r.1 r.2).map Prod.fst

omit [DecidableEq κ] in
/-- Sum of `f` over the rows. -/
def sum (t : Table κ ρ) (f : κ → ρ → Int) : Int := (t.rows.map fun r => f r.1 r.2).sum

/-! ## Reading -/

private theorem lookup_eq_some {l : List (κ × ρ)} (hn : (l.map Prod.fst).Nodup) {k : κ} {r : ρ} :
    l.lookup k = some r ↔ (k, r) ∈ l := by
  induction l with
  | nil => simp
  | cons a l ih =>
    obtain ⟨k', r'⟩ := a
    rw [List.map_cons, List.nodup_cons] at hn
    rw [List.lookup_cons, List.mem_cons]
    by_cases h : k = k'
    · subst h
      have hk : ∀ r, (k, r) ∉ l := fun r hr => hn.1 (List.mem_map.mpr ⟨_, hr, rfl⟩)
      simp [hk, eq_comm]
    · simp [h, ih hn.2, beq_eq_false_iff_ne.mpr h]

theorem get_eq_some {t : Table κ ρ} {k : κ} {r : ρ} : t.get k = some r ↔ (k, r) ∈ t.rows :=
  lookup_eq_some t.nodup

theorem get_eq_none {t : Table κ ρ} {k : κ} : t.get k = none ↔ k ∉ t.rows.map Prod.fst := by
  rw [Option.eq_none_iff_forall_ne_some]
  constructor
  · intro h hk
    obtain ⟨⟨_, r⟩, hr, rfl⟩ := List.mem_map.mp hk
    exact h r (get_eq_some.mpr hr)
  · intro h r hr
    exact h (List.mem_map.mpr ⟨(k, r), get_eq_some.mp hr, rfl⟩)

@[simp] theorem get_empty (k : κ) : (empty : Table κ ρ).get k = none := rfl

theorem any_eq_true {t : Table κ ρ} {p : κ → ρ → Bool} :
    t.any p = true ↔ ∃ k r, t.get k = some r ∧ p k r = true := by
  simp [any, get_eq_some]

theorem any_eq_false {t : Table κ ρ} {p : κ → ρ → Bool} :
    t.any p = false ↔ ∀ k r, t.get k = some r → p k r = false := by
  simp [any, get_eq_some]

theorem mem_keysWhere {t : Table κ ρ} {p : κ → ρ → Bool} {k : κ} :
    k ∈ t.keysWhere p ↔ ∃ r, t.get k = some r ∧ p k r = true := by
  simp only [keysWhere, List.mem_map, List.mem_filter, get_eq_some]
  constructor
  · rintro ⟨⟨_, r⟩, ⟨hr, hp⟩, rfl⟩
    exact ⟨r, hr, hp⟩
  · rintro ⟨r, hr, hp⟩
    exact ⟨(k, r), ⟨hr, hp⟩, rfl⟩

omit [DecidableEq κ] in
theorem nodup_keysWhere (t : Table κ ρ) (p : κ → ρ → Bool) : (t.keysWhere p).Nodup :=
  t.nodup.sublist (List.filter_sublist.map _)

theorem length_keysWhere_le {t t' : Table κ ρ} {p q : κ → ρ → Bool}
    (h : ∀ k r, t.get k = some r → p k r = true → ∃ r', t'.get k = some r' ∧ q k r' = true) :
    (t.keysWhere p).length ≤ (t'.keysWhere q).length := by
  refine (List.subperm_of_subset (t.nodup_keysWhere p) fun k hk => ?_).length_le
  obtain ⟨r, hr, hp⟩ := mem_keysWhere.mp hk
  exact mem_keysWhere.mpr (h k r hr hp)

/-! ## Reading after writing -/

private theorem lookup_mapRows {l : List (κ × ρ)} {f : κ → ρ → σ} {k : κ} :
    (l.map fun r => (r.1, f r.1 r.2)).lookup k = (l.lookup k).map (f k) := by
  induction l with
  | nil => rfl
  | cons a l ih =>
    obtain ⟨k', r⟩ := a
    by_cases h : k = k'
    · subst h; simp
    · have hb : (k == k') = false := by simpa using h
      simp only [List.map_cons, List.lookup_cons, hb, ih]

theorem get_mapRows (t : Table κ ρ) (f : κ → ρ → ρ) (k : κ) :
    (t.mapRows f).get k = (t.get k).map (f k) := lookup_mapRows

omit [DecidableEq κ] in
theorem mapRows_mapRows (t : Table κ ρ) (f g : κ → ρ → ρ) :
    (t.mapRows f).mapRows g = t.mapRows fun k r => g k (f k r) := by
  apply ext'
  simp [mapRows, Function.comp_def]

theorem mapRows_congr {t : Table κ ρ} {f g : κ → ρ → ρ}
    (h : ∀ k r, t.get k = some r → f k r = g k r) : t.mapRows f = t.mapRows g := by
  apply ext'
  refine List.map_congr_left fun x hx => ?_
  rw [h x.1 x.2 (get_eq_some.mpr hx)]

omit [DecidableEq κ] in
@[simp] theorem mapRows_id (t : Table κ ρ) : (t.mapRows fun _ r => r) = t := by
  apply ext'
  exact List.map_id _

theorem get_modify (t : Table κ ρ) (k k' : κ) (f : ρ → ρ) :
    (t.modify k f).get k' = if k' = k then (t.get k').map f else t.get k' := by
  rw [modify, get_mapRows]
  split <;> simp

@[simp] theorem get_modify_self (t : Table κ ρ) (k : κ) (f : ρ → ρ) :
    (t.modify k f).get k = (t.get k).map f := by simp [get_modify]

theorem get_modify_ne (t : Table κ ρ) {k k' : κ} (f : ρ → ρ) (h : k' ≠ k) :
    (t.modify k f).get k' = t.get k' := by simp [get_modify, h]

theorem get_insert (t : Table κ ρ) (k k' : κ) (r : ρ) :
    (t.insert k r).get k' = if k' = k ∧ t.get k = none then some r else t.get k' := by
  unfold insert
  split
  · rename_i h
    have : t.get k ≠ none := by rw [ne_eq, get_eq_none]; exact fun h' => h' h
    simp [this]
  · rename_i h
    have hk : t.get k = none := get_eq_none.mpr h
    simp only [get, List.lookup_append]
    by_cases e : k' = k
    · subst e
      rw [get] at hk
      simp [hk]
    · have hb : (k' == k) = false := by simpa using e
      simp [List.lookup_cons, hb, e]

theorem get_insert_self {t : Table κ ρ} {k : κ} (r : ρ) (h : t.get k = none) :
    (t.insert k r).get k = some r := by simp [get_insert, h]

theorem get_insert_ne (t : Table κ ρ) {k k' : κ} (r : ρ) (h : k' ≠ k) :
    (t.insert k r).get k' = t.get k' := by simp [get_insert, h]

theorem rows_insert {t : Table κ ρ} {k : κ} (r : ρ) (h : t.get k = none) :
    (t.insert k r).rows = t.rows ++ [(k, r)] := by
  rw [insert, dif_neg (get_eq_none.mp h)]

/-- A row of `insert` is the new one or an old one. -/
theorem of_get_insert {t : Table κ ρ} {k k' : κ} {r r' : ρ} (h : (t.insert k r).get k' = some r') :
    k' = k ∧ r' = r ∨ t.get k' = some r' := by
  rw [get_insert] at h
  split at h
  · rename_i hk
    exact Or.inl ⟨hk.1, (Option.some.inj h).symm⟩
  · exact Or.inr h

/-- An old row survives an insert. -/
theorem get_insert_of_get {t : Table κ ρ} {k k' : κ} {r r' : ρ} (h : t.get k' = some r') :
    (t.insert k r).get k' = some r' := by
  rw [get_insert, if_neg]
  · exact h
  · rintro ⟨rfl, hn⟩
    rw [hn] at h
    cases h

private theorem lookup_filter {l : List (κ × ρ)} {k k' : κ} :
    (l.filter fun r => r.1 ≠ k).lookup k' = if k' = k then none else l.lookup k' := by
  induction l with
  | nil => simp
  | cons a l ih =>
    obtain ⟨a, r⟩ := a
    by_cases hk : a = k
    · subst hk
      rw [List.filter_cons_of_neg (by simp), ih, List.lookup_cons]
      by_cases hk' : k' = a
      · simp [hk']
      · simp [hk', beq_eq_false_iff_ne.mpr hk']
    · rw [List.filter_cons_of_pos (by simpa using hk), List.lookup_cons, List.lookup_cons, ih]
      by_cases hk' : k' = a
      · subst hk'; simp [hk]
      · simp [beq_eq_false_iff_ne.mpr hk']

theorem get_erase (t : Table κ ρ) (k k' : κ) :
    (t.erase k).get k' = if k' = k then none else t.get k' := lookup_filter

theorem of_get_erase {t : Table κ ρ} {k k' : κ} {r : ρ} (h : (t.erase k).get k' = some r) :
    k' ≠ k ∧ t.get k' = some r := by
  rw [get_erase] at h
  split at h
  · cases h
  · rename_i hk
    exact ⟨hk, h⟩

theorem get_eraseWhere (t : Table κ ρ) (p : κ → ρ → Bool) (k : κ) :
    (t.eraseWhere p).get k = (t.get k).filter fun r => !p k r := by
  rw [Option.ext_iff]
  intro r
  rw [get_eq_some, Option.filter_eq_some_iff, get_eq_some]
  simp [eraseWhere]

theorem get_insertAll (t : Table κ ρ) (keys : List κ) (row : κ → ρ) (k : κ) :
    (t.insertAll keys row).get k =
      if k ∈ keys ∧ t.get k = none then some (row k) else t.get k := by
  induction keys generalizing t with
  | nil => simp [insertAll]
  | cons a keys ih =>
    have hstep : t.insertAll (a :: keys) row = (t.insert a (row a)).insertAll keys row := rfl
    rw [hstep, ih, get_insert]
    by_cases hk : k = a
    · subst hk
      cases t.get k <;> simp
    · simp [hk]

theorem get_map (t : Table κ ρ) (f : ρ → σ) (k : κ) : (t.map f).get k = (t.get k).map f :=
  lookup_mapRows (f := fun _ => f)

/-- Two tables with the same image under `f` have rows with the same image. -/
theorem get_of_map_eq {t u : Table κ ρ} {f : ρ → σ} (h : t.map f = u.map f) (k : κ) :
    (t.get k).map f = (u.get k).map f := by
  rw [← get_map, ← get_map, h]

/-- An update that `g` cannot see. -/
theorem map_modify_of_eq (t : Table κ ρ) (k : κ) (f : ρ → ρ) (g : ρ → σ)
    (h : ∀ r, g (f r) = g r) : (t.modify k f).map g = t.map g := by
  apply ext'
  simp only [map, modify, mapRows, List.map_map]
  refine List.map_congr_left fun r _ => ?_
  by_cases hr : r.1 = k <;> simp [hr, h]

theorem map_insert (t : Table κ ρ) (k : κ) (r : ρ) (f : ρ → σ) :
    (t.insert k r).map f = (t.map f).insert k (f r) := by
  have hkeys : (t.map f).rows.map Prod.fst = t.rows.map Prod.fst := by
    simp [map, Function.comp_def]
  apply ext'
  unfold insert
  by_cases h : k ∈ t.rows.map Prod.fst
  · rw [dif_pos h, dif_pos (hkeys ▸ h)]
  · rw [dif_neg h, dif_neg (hkeys ▸ h)]
    simp [map]

/-- An update, seen through `g`. -/
theorem map_modify (t : Table κ ρ) (k : κ) (f : ρ → ρ) (g : ρ → σ) (f' : σ → σ)
    (h : ∀ r, g (f r) = f' (g r)) : (t.modify k f).map g = (t.map g).modify k f' := by
  apply ext'
  simp only [map, modify, mapRows, List.map_map]
  refine List.map_congr_left fun r _ => ?_
  by_cases hr : r.1 = k <;> simp [hr, h]

omit [DecidableEq κ] in
theorem any_map (t : Table κ ρ) (f : ρ → σ) (p : κ → σ → Bool) :
    (t.map f).any p = t.any fun k r => p k (f r) := by
  simp [any, map, Function.comp_def]

omit [DecidableEq κ] in
theorem any_mapRows (t : Table κ ρ) (f : κ → ρ → ρ) (p : κ → ρ → Bool) :
    (t.mapRows f).any p = t.any fun k r => p k (f k r) := by
  simp [any, mapRows, Function.comp_def]

theorem any_insert {t : Table κ ρ} {k : κ} {r : ρ} (h : t.get k = none) (p : κ → ρ → Bool) :
    (t.insert k r).any p = (t.any p || p k r) := by
  unfold insert
  rw [dif_neg (get_eq_none.mp h)]
  simp [any]

theorem keysWhere_insert {t : Table κ ρ} {k : κ} {r : ρ} (h : t.get k = none)
    (p : κ → ρ → Bool) :
    (t.insert k r).keysWhere p = t.keysWhere p ++ if p k r then [k] else [] := by
  unfold insert
  rw [dif_neg (get_eq_none.mp h)]
  cases hp : p k r <;> simp [keysWhere, List.filter_append, hp]

theorem keysWhere_insert_of_not (t : Table κ ρ) {k : κ} {r : ρ} {p : κ → ρ → Bool}
    (hp : p k r = false) : (t.insert k r).keysWhere p = t.keysWhere p := by
  cases h : t.get k with
  | none => simp [keysWhere_insert h, hp]
  | some r' =>
    unfold insert
    rw [dif_pos]
    by_contra hk
    rw [get_eq_none.mpr hk] at h
    cases h

theorem keysWhere_modify (t : Table κ ρ) (k : κ) {f : ρ → ρ} {p : κ → ρ → Bool}
    (hp : ∀ j r, p j (f r) = p j r) : (t.modify k f).keysWhere p = t.keysWhere p := by
  have h : ∀ x : κ × ρ, p x.1 (if x.1 = k then f x.2 else x.2) = p x.1 x.2 := by
    intro x
    split
    · exact hp _ _
    · rfl
  simp [keysWhere, modify, mapRows, List.filter_map, Function.comp_def, h]

/-! ## Sums -/

omit [DecidableEq κ] in
@[simp] theorem sum_empty (f : κ → ρ → Int) : (empty : Table κ ρ).sum f = 0 := rfl

theorem sum_insert {t : Table κ ρ} {k : κ} (r : ρ) (f : κ → ρ → Int) (h : t.get k = none) :
    (t.insert k r).sum f = t.sum f + f k r := by
  unfold insert
  rw [dif_neg (get_eq_none.mp h)]
  simp [sum]

private theorem sum_map_update {l : List (κ × ρ)} (hn : (l.map Prod.fst).Nodup) {k : κ}
    {r : ρ} (hr : l.lookup k = some r) (f g : κ → ρ → Int)
    (h : ∀ x ∈ l, x.1 ≠ k → f x.1 x.2 = g x.1 x.2) :
    (l.map fun r => g r.1 r.2).sum = (l.map fun r => f r.1 r.2).sum - f k r + g k r := by
  induction l with
  | nil => simp at hr
  | cons a l ih =>
    obtain ⟨k', r'⟩ := a
    rw [List.map_cons, List.nodup_cons] at hn
    have htail : ∀ x ∈ l, x.1 ≠ k → f x.1 x.2 = g x.1 x.2 := fun x hx =>
      h x (List.mem_cons_of_mem _ hx)
    by_cases hk : k' = k
    · subst hk
      have hl : (l.map fun r => g r.1 r.2) = l.map fun r => f r.1 r.2 := by
        refine List.map_congr_left fun x hx => ?_
        exact (htail x hx fun e => hn.1 (List.mem_map.mpr ⟨x, hx, e⟩)).symm
      have hr' : r' = r := by simpa using hr
      subst hr'
      simp only [List.map_cons, hl, List.sum_cons]
      omega
    · have hb : (k == k') = false := beq_eq_false_iff_ne.mpr (Ne.symm hk)
      rw [List.lookup_cons, hb] at hr
      have hhead : f k' r' = g k' r' := h _ (List.mem_cons_self ..) hk
      simp only [List.map_cons, List.sum_cons, ih hn.2 hr htail, hhead]
      omega

/-- Two weights that differ under one key only. -/
theorem sum_update {t : Table κ ρ} {k : κ} {r : ρ} {f g : κ → ρ → Int}
    (hr : t.get k = some r) (h : ∀ k' r', t.get k' = some r' → k' ≠ k → f k' r' = g k' r') :
    t.sum g = t.sum f - f k r + g k r :=
  sum_map_update t.nodup hr f g fun x hx => h x.1 x.2 (get_eq_some.mpr hx)

omit [DecidableEq κ] in
theorem sum_mapRows (t : Table κ ρ) (g : κ → ρ → ρ) (f : κ → ρ → Int) :
    (t.mapRows g).sum f = t.sum fun k r => f k (g k r) := by
  simp [sum, mapRows, Function.comp_def]

theorem sum_modify {t : Table κ ρ} {k : κ} {r : ρ} (g : ρ → ρ) (f : κ → ρ → Int)
    (h : t.get k = some r) : (t.modify k g).sum f = t.sum f - f k r + f k (g r) := by
  rw [modify, sum_mapRows, sum_update h (f := f)]
  · simp
  · intro k' r' _ hk
    simp [hk]

theorem modify_of_get_none {t : Table κ ρ} {k : κ} (g : ρ → ρ) (h : t.get k = none) :
    t.modify k g = t := by
  conv_rhs => rw [← mapRows_id t]
  refine mapRows_congr fun k' r hr => ?_
  rw [if_neg]
  rintro rfl
  rw [h] at hr
  cases hr

/-- An update of the row just added. -/
theorem modify_insert {t : Table κ ρ} {k : κ} (r : ρ) (f : ρ → ρ) (h : t.get k = none) :
    (t.insert k r).modify k f = t.insert k (f r) := by
  have ht := congrArg rows (modify_of_get_none f h)
  simp only [modify, mapRows] at ht
  apply ext'
  unfold insert
  rw [dif_neg (get_eq_none.mp h), dif_neg (get_eq_none.mp h)]
  simp [modify, mapRows, ht]

omit [DecidableEq κ] in
theorem sum_map (t : Table κ ρ) (g : ρ → σ) (f : κ → σ → Int) :
    (t.map g).sum f = t.sum fun k r => f k (g r) := by
  simp [sum, map, Function.comp_def]

theorem sum_congr {t : Table κ ρ} {f g : κ → ρ → Int}
    (h : ∀ k r, t.get k = some r → f k r = g k r) : t.sum f = t.sum g := by
  unfold sum
  congr 1
  exact List.map_congr_left fun x hx => h x.1 x.2 (get_eq_some.mpr hx)

omit [DecidableEq κ] in
theorem sum_add (t : Table κ ρ) (f g : κ → ρ → Int) :
    t.sum (fun k r => f k r + g k r) = t.sum f + t.sum g := by
  unfold sum
  induction t.rows with
  | nil => rfl
  | cons a l ih => simp only [List.map_cons, List.sum_cons, ih]; omega

private theorem list_sum_nonneg {l : List Int} (h : ∀ x ∈ l, 0 ≤ x) : 0 ≤ l.sum := by
  induction l with
  | nil => simp
  | cons a l ih =>
    have ha := h a (List.mem_cons_self ..)
    have hl := ih fun x hx => h x (List.mem_cons_of_mem _ hx)
    rw [List.sum_cons]
    omega

theorem sum_nonneg {t : Table κ ρ} {f : κ → ρ → Int}
    (h : ∀ k r, t.get k = some r → 0 ≤ f k r) : 0 ≤ t.sum f := by
  refine list_sum_nonneg fun x hx => ?_
  obtain ⟨a, ha, rfl⟩ := List.mem_map.mp hx
  exact h a.1 a.2 (get_eq_some.mpr ha)

/-- One row weighs no more than all of them. -/
theorem le_sum {t : Table κ ρ} {k : κ} {r : ρ} {f : κ → ρ → Int} (hr : t.get k = some r)
    (h : ∀ k r, t.get k = some r → 0 ≤ f k r) : f k r ≤ t.sum f := by
  have hrest := sum_update (f := f) (g := fun k' r' => if k' = k then 0 else f k' r') hr
    fun k' r' _ hk => (if_neg hk).symm
  have hnonneg : 0 ≤ t.sum fun k' r' => if k' = k then 0 else f k' r' := by
    refine sum_nonneg fun k' r' hr' => ?_
    split
    · exact Int.le_refl 0
    · exact h k' r' hr'
  simp only [if_true] at hrest
  omega

end Table
