import Sosedi.Data.Table

/-!
# Keys with an expiry

The keys of one kind in a store like Redis: a table whose rows may expire.  An expired row is
as good as absent.

Proved here: lookup after each command, and that an absent key does not come back as time
passes (`read_of_le`).
-/

structure Entry (ν : Type) where
  value : ν
  expiresAt : Option Int
  deriving DecidableEq

def Entry.live {ν : Type} (e : Entry ν) (now : Int) : Bool := e.expiresAt.all fun t => now < t

namespace Table

variable {κ ρ ν : Type} [DecidableEq κ]

/-- Write the row under `k`, whether or not there is one. -/
def put (t : Table κ ρ) (k : κ) (r : ρ) : Table κ ρ := (t.erase k).insert k r

/-- GET. -/
def read (t : Table κ (Entry ν)) (now : Int) (k : κ) : Option ν :=
  ((t.get k).filter (·.live now)).map (·.value)

/-- SET with EX. -/
def set (t : Table κ (Entry ν)) (k : κ) (v : ν) (expiresAt : Int) : Table κ (Entry ν) :=
  t.put k ⟨v, some expiresAt⟩

/-- DEL of several keys. -/
def eraseAll (t : Table κ ρ) (ks : List κ) : Table κ ρ := ks.foldl erase t

/-- The counter after INCR. -/
def next (t : Table κ (Entry Nat)) (now : Int) (k : κ) : Nat := (t.read now k).getD 0 + 1

/-- INCR, and EXPIRE of a new counter. -/
def incr (t : Table κ (Entry Nat)) (now : Int) (k : κ) (expiresAt : Int) : Table κ (Entry Nat) :=
  match t.read now k with
  | some n => t.modify k fun e => { e with value := n + 1 }
  | none => t.set k 1 expiresAt

theorem get_put (t : Table κ ρ) (k k' : κ) (r : ρ) :
    (t.put k r).get k' = if k' = k then some r else t.get k' := by
  have hnone : (t.erase k).get k = none := by simp [get_erase]
  by_cases h : k' = k
  · subst h
    rw [put, get_insert_self _ hnone, if_pos rfl]
  · rw [put, get_insert_ne _ _ h, get_erase, if_neg h, if_neg h]

theorem read_eq_some {t : Table κ (Entry ν)} {now : Int} {k : κ} {v : ν} :
    t.read now k = some v ↔ ∃ e, t.get k = some e ∧ e.live now = true ∧ e.value = v := by
  simp only [read, Option.map_eq_some_iff, Option.filter_eq_some_iff, and_assoc]

theorem read_put (t : Table κ (Entry ν)) (now : Int) (k k' : κ) (e : Entry ν) :
    (t.put k e).read now k' =
      if k' = k then (if e.live now then some e.value else none) else t.read now k' := by
  rw [read, get_put]
  split
  · cases h : e.live now <;> simp [h]
  · rfl

theorem read_erase (t : Table κ (Entry ν)) (now : Int) (k k' : κ) :
    (t.erase k).read now k' = if k' = k then none else t.read now k' := by
  rw [read, get_erase]
  split <;> rfl

theorem read_incr (t : Table κ (Entry Nat)) {now expiresAt : Int} (h : now < expiresAt)
    (k k' : κ) : (t.incr now k expiresAt).read now k' =
      if k' = k then some (t.next now k) else t.read now k' := by
  cases hread : t.read now k with
  | none =>
    simp only [incr, hread, set, read_put, Entry.live, Option.all_some, h, decide_true, if_true,
      next, Option.getD_none, Nat.zero_add]
  | some n =>
    obtain ⟨e, he, hlive, rfl⟩ := read_eq_some.mp hread
    simp only [incr, hread, next, Option.getD_some]
    by_cases hk : k' = k
    · subst hk
      rw [if_pos rfl]
      refine read_eq_some.mpr ⟨{ e with value := e.value + 1 }, ?_, hlive, rfl⟩
      rw [get_modify_self, he]
      rfl
    · rw [if_neg hk, read, get_modify_ne _ _ hk]
      rfl

theorem get_eraseAll (t : Table κ ρ) (ks : List κ) (k : κ) :
    (t.eraseAll ks).get k = if k ∈ ks then none else t.get k := by
  induction ks generalizing t with
  | nil => simp [eraseAll]
  | cons k' ks ih =>
    rw [eraseAll, List.foldl_cons]
    refine (ih (t.erase k')).trans ?_
    rw [get_erase]
    by_cases h : k = k' <;> by_cases hk : k ∈ ks <;> simp [h, hk]

theorem read_eraseAll (t : Table κ (Entry ν)) (now : Int) (ks : List κ) (k : κ) :
    (t.eraseAll ks).read now k = if k ∈ ks then none else t.read now k := by
  rw [read, get_eraseAll]
  split <;> rfl

/-- What is there later was there before. -/
theorem read_of_le {t : Table κ (Entry ν)} {now now' : Int} {k : κ} {v : ν} (h : now ≤ now')
    (hv : t.read now' k = some v) : t.read now k = some v := by
  obtain ⟨e, he, hlive, rfl⟩ := read_eq_some.mp hv
  refine read_eq_some.mpr ⟨e, he, ?_, rfl⟩
  unfold Entry.live at hlive ⊢
  cases hexp : e.expiresAt with
  | none => rfl
  | some t =>
    rw [hexp, Option.all_some, decide_eq_true_eq] at hlive
    rw [Option.all_some, decide_eq_true_eq]
    omega

end Table
