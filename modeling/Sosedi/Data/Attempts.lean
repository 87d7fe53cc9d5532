import Mathlib.Logic.Relation
import Mathlib.Tactic.Common
import Sosedi.Data.Table

/-!
# Payments with retries

A log of attempts: each pays an amount of some kind, is pending until it succeeds or fails,
and a failed one may get one retry of the same kind and amount.  A leg is a first attempt
with the chain of its retries.

Proved here:

* `WellFormed.request`, `.retry`, `.settle`: what a client may do to a log keeps it well formed;
* `WellFormed.leg_unique`: at most one attempt of a leg has not failed;
* `WellFormed.paid_add_outstanding`: what was paid and what is still to be paid make up what
  the first attempts ask for.
-/

namespace Attempts

inductive Outcome where
  | pending
  | succeeded
  | failed
  deriving DecidableEq

structure Attempt (κ χ : Type) where
  kind : χ
  amount : Int
  outcome : Outcome
  retryOf : Option κ

variable {κ χ : Type} [DecidableEq κ] [DecidableEq χ]

/-- The attempt has a retry. -/
def retried (t : Table κ (Attempt κ χ)) (k : κ) : Bool := t.any fun _ a => a.retryOf == some k

/-- What the first attempts of a kind ask for. -/
def planned (t : Table κ (Attempt κ χ)) (x : χ) : Int :=
  t.sum fun _ a => if a.kind = x ∧ a.retryOf = none then a.amount else 0

/-- The same, counted by the last attempts. -/
def live (t : Table κ (Attempt κ χ)) (x : χ) : Int :=
  t.sum fun k a => if a.kind = x ∧ retried t k = false then a.amount else 0

/-- What the successful attempts of a kind have paid. -/
def paid (t : Table κ (Attempt κ χ)) (x : χ) : Int :=
  t.sum fun _ a => if a.kind = x ∧ a.outcome = .succeeded then a.amount else 0

/-- What the last attempts of a kind have still to pay. -/
def outstanding (t : Table κ (Attempt κ χ)) (x : χ) : Int :=
  t.sum fun k a => if a.kind = x ∧ retried t k = false ∧ a.outcome ≠ .succeeded then a.amount else 0

/-- `k'` retries `k`. -/
def Retry (t : Table κ (Attempt κ χ)) (k k' : κ) : Prop :=
  ∃ a, t.get k' = some a ∧ a.retryOf = some k

/-- `k` belongs to the leg of the first attempt `root`. -/
def Leg (t : Table κ (Attempt κ χ)) (root k : κ) : Prop :=
  (∃ a, t.get root = some a ∧ a.retryOf = none) ∧ Relation.ReflTransGen (Retry t) root k

structure WellFormed (t : Table κ (Attempt κ χ)) : Prop where
  amount : ∀ k a, t.get k = some a → 0 < a.amount
  retry : ∀ k a r, t.get k = some a → a.retryOf = some r →
    ∃ b, t.get r = some b ∧ b.outcome = .failed ∧ b.kind = a.kind ∧ b.amount = a.amount
  unique : ∀ k k' a a' r, t.get k = some a → t.get k' = some a' → a.retryOf = some r →
    a'.retryOf = some r → k = k'
  balance : ∀ x, live t x = planned t x

variable {t : Table κ (Attempt κ χ)} {k k' r : κ} {a b : Attempt κ χ}

/-! ## Retries -/

omit [DecidableEq χ] in
theorem retried_eq_true : retried t k = true ↔ ∃ k', Retry t k k' := by
  simp [retried, Retry, Table.any_eq_true]

omit [DecidableEq χ] in
theorem retried_eq_false :
    retried t k = false ↔ ∀ k' a, t.get k' = some a → a.retryOf ≠ some k := by
  simp [retried, Table.any_eq_false]

namespace WellFormed

theorem failed_of_retried (h : WellFormed t) (ha : t.get k = some a) (hr : retried t k = true) :
    a.outcome = .failed := by
  obtain ⟨k', a', hk', hr⟩ := retried_eq_true.mp hr
  obtain ⟨b, hb, hf, -⟩ := h.retry k' a' k hk' hr
  rw [ha, Option.some.injEq] at hb
  rw [hb, hf]

theorem not_retried (h : WellFormed t) (ha : t.get k = some a) (hf : a.outcome ≠ .failed) :
    retried t k = false := by
  by_contra hr
  exact hf (h.failed_of_retried ha (by simpa using hr))

theorem not_retried_of_fresh (h : WellFormed t) (hk : t.get k = none) : retried t k = false := by
  rw [retried_eq_false]
  intro k' a' hk' hr
  obtain ⟨b, hb, -⟩ := h.retry k' a' k hk' hr
  rw [hk] at hb
  cases hb

/-- **One attempt at a time**: two attempts of one leg that have not failed are the same. -/
theorem leg_unique (h : WellFormed t) {root : κ} {a' : Attempt κ χ} (hk : Leg t root k)
    (hk' : Leg t root k') (ha : t.get k = some a) (ha' : t.get k' = some a')
    (hf : a.outcome ≠ .failed) (hf' : a'.outcome ≠ .failed) : k = k' := by
  have hunique : Relator.RightUnique (Retry t) := by
    rintro r k₁ k₂ ⟨a₁, h₁, hr₁⟩ ⟨a₂, h₂, hr₂⟩
    exact h.unique k₁ k₂ a₁ a₂ r h₁ h₂ hr₁ hr₂
  have hend : ∀ {k k' a}, t.get k = some a → a.outcome ≠ .failed →
      Relation.ReflTransGen (Retry t) k k' → k = k' := by
    intro k k' a ha hf hchain
    rcases Relation.ReflTransGen.cases_head hchain with rfl | ⟨c, hc, -⟩
    · rfl
    · exact absurd (h.failed_of_retried ha (retried_eq_true.mpr ⟨c, hc⟩)) hf
  rcases Relation.ReflTransGen.total_of_right_unique hunique hk.2 hk'.2 with hc | hc
  · exact hend ha hf hc
  · exact (hend ha' hf' hc).symm

/-! ## Totals -/

theorem paid_add_outstanding (h : WellFormed t) (x : χ) :
    paid t x + outstanding t x = planned t x := by
  rw [← h.balance x, paid, outstanding, live, ← Table.sum_add]
  refine Table.sum_congr fun k a ha => ?_
  by_cases hs : a.outcome = .succeeded
  · simp [hs, h.not_retried ha (by simp [hs])]
  · simp [hs]

theorem outstanding_nonneg (h : WellFormed t) (x : χ) : 0 ≤ outstanding t x := by
  refine Table.sum_nonneg fun k a ha => ?_
  split
  · exact Int.le_of_lt (h.amount k a ha)
  · exact Int.le_refl 0

theorem paid_le (h : WellFormed t) (x : χ) : paid t x ≤ planned t x := by
  have hsum := h.paid_add_outstanding x
  have hpos := h.outstanding_nonneg x
  omega

/-- What a pending attempt asks for was not paid. -/
theorem paid_add_le (h : WellFormed t) (ha : t.get k = some a) (hp : a.outcome = .pending) :
    paid t a.kind + a.amount ≤ planned t a.kind := by
  have hsum := h.paid_add_outstanding a.kind
  have hle : a.amount ≤ outstanding t a.kind := by
    have hret := h.not_retried ha (by simp [hp])
    have hone := Table.le_sum (f := fun j b => if b.kind = a.kind ∧ retried t j = false ∧
      b.outcome ≠ .succeeded then b.amount else 0) ha fun j b hb => by
        split
        · exact Int.le_of_lt (h.amount j b hb)
        · exact Int.le_refl 0
    rwa [if_pos ⟨rfl, hret, by simp [hp]⟩] at hone
  omega

theorem paid_nonneg (h : WellFormed t) (x : χ) : 0 ≤ paid t x := by
  refine Table.sum_nonneg fun k a ha => ?_
  split
  · exact Int.le_of_lt (h.amount k a ha)
  · exact Int.le_refl 0

/-! ## What a client may do -/

theorem empty : WellFormed (Table.empty : Table κ (Attempt κ χ)) where
  amount := by simp
  retry := by simp
  unique := by simp
  balance := fun x => rfl

omit [DecidableEq χ] in
private theorem retried_insert (hk : t.get k = none) (j : κ) :
    retried (t.insert k a) j = (retried t j || a.retryOf == some j) := Table.any_insert hk _

/-- A new first attempt. -/
theorem request (h : WellFormed t) (hk : t.get k = none) (hr : a.retryOf = none)
    (ha : 0 < a.amount) : WellFormed (t.insert k a) where
  amount := by
    intro j b hb
    rcases Table.of_get_insert hb with ⟨rfl, rfl⟩ | hb
    · exact ha
    · exact h.amount j b hb
  retry := by
    intro j b r hb hbr
    rcases Table.of_get_insert hb with ⟨rfl, rfl⟩ | hb
    · rw [hr] at hbr
      cases hbr
    · obtain ⟨c, hc, hrest⟩ := h.retry j b r hb hbr
      exact ⟨c, Table.get_insert_of_get hc, hrest⟩
  unique := by
    intro j j' b b' r hb hb' hbr hbr'
    rcases Table.of_get_insert hb with ⟨rfl, rfl⟩ | hb
    · rw [hr] at hbr
      cases hbr
    · rcases Table.of_get_insert hb' with ⟨rfl, rfl⟩ | hb'
      · rw [hr] at hbr'
        cases hbr'
      · exact h.unique j j' b b' r hb hb' hbr hbr'
  balance := by
    intro x
    have hsame : ∀ j, retried (t.insert k a) j = retried t j := by
      intro j
      rw [retried_insert hk, hr]
      simp
    simp only [live, planned, hsame]
    rw [Table.sum_insert a _ hk, Table.sum_insert a _ hk]
    have hbalance := h.balance x
    simp only [live, planned] at hbalance
    simp [hbalance, h.not_retried_of_fresh hk, hr]

/-- A retry of a failed attempt that has none. -/
theorem retry_insert (h : WellFormed t) (hk : t.get k = none) (hb : t.get r = some b)
    (hf : b.outcome = .failed) (hr : retried t r = false) (ha : a.retryOf = some r)
    (hkind : a.kind = b.kind) (hamount : a.amount = b.amount) : WellFormed (t.insert k a) where
  amount := by
    intro j c hc
    rcases Table.of_get_insert hc with ⟨rfl, rfl⟩ | hc
    · rw [hamount]
      exact h.amount r b hb
    · exact h.amount j c hc
  retry := by
    intro j c r' hc hcr
    rcases Table.of_get_insert hc with ⟨rfl, rfl⟩ | hc
    · rw [ha, Option.some.injEq] at hcr
      subst hcr
      exact ⟨b, Table.get_insert_of_get hb, hf, hkind.symm, hamount.symm⟩
    · obtain ⟨e, he, hrest⟩ := h.retry j c r' hc hcr
      exact ⟨e, Table.get_insert_of_get he, hrest⟩
  unique := by
    have hnone := retried_eq_false.mp hr
    intro j j' c c' r' hc hc' hcr hcr'
    rcases Table.of_get_insert hc with ⟨rfl, rfl⟩ | hold
    · rcases Table.of_get_insert hc' with ⟨rfl, -⟩ | hold'
      · rfl
      · rw [ha] at hcr
        exact absurd (hcr'.trans hcr.symm) (hnone j' c' hold')
    · rcases Table.of_get_insert hc' with ⟨rfl, rfl⟩ | hold'
      · rw [ha] at hcr'
        exact absurd (hcr.trans hcr'.symm) (hnone j c hold)
      · exact h.unique j j' c c' r' hold hold' hcr hcr'
  balance := by
    intro x
    have hne : r ≠ k := by
      rintro rfl
      rw [hk] at hb
      cases hb
    -- the retried attempt hands its amount over to the new one
    have hmove : (t.sum fun j c => if c.kind = x ∧ retried (t.insert k a) j = false then c.amount
        else 0) = live t x - (if b.kind = x then b.amount else 0) := by
      rw [live, Table.sum_update (f := fun j c =>
        if c.kind = x ∧ retried t j = false then c.amount else 0) hb]
      · simp [retried_insert hk, ha, hr]
      · intro j c _ hj
        simp [retried_insert hk, ha, Ne.symm hj]
    rw [live, planned, Table.sum_insert a _ hk, Table.sum_insert a _ hk, hmove, h.balance x, planned]
    simp [retried_insert hk, ha, hne, h.not_retried_of_fresh hk, hkind, hamount]

omit [DecidableEq χ] in
private theorem retried_modify {f : Attempt κ χ → Attempt κ χ}
    (hf : ∀ a, (f a).retryOf = a.retryOf) (j : κ) : retried (t.modify k f) j = retried t j := by
  simp only [retried, Table.modify, Table.any_mapRows]
  congr 1
  funext k' c
  split
  · rw [hf]
  · rfl

/-- A pending attempt gets its outcome; `f` writes nothing else. -/
theorem settle (h : WellFormed t) {f : Attempt κ χ → Attempt κ χ} (ha : t.get k = some a)
    (hp : a.outcome = .pending)
    (hf : ∀ c, (f c).kind = c.kind ∧ (f c).amount = c.amount ∧ (f c).retryOf = c.retryOf) :
    WellFormed (t.modify k f) := by
  have hold : ∀ {j c}, (t.modify k f).get j = some c → ∃ c₀, t.get j = some c₀ ∧
      c.kind = c₀.kind ∧ c.amount = c₀.amount ∧ c.retryOf = c₀.retryOf := by
    intro j c hc
    rw [Table.get_modify] at hc
    split at hc
    · rw [Option.map_eq_some_iff] at hc
      obtain ⟨c₀, hc₀, rfl⟩ := hc
      exact ⟨c₀, hc₀, hf c₀⟩
    · exact ⟨c, hc, rfl, rfl, rfl⟩
  refine ⟨?_, ?_, ?_, ?_⟩
  · intro j c hc
    obtain ⟨c₀, hc₀, -, hamount, -⟩ := hold hc
    rw [hamount]
    exact h.amount j c₀ hc₀
  · intro j c r hc hr
    obtain ⟨c₀, hc₀, hkind, hamount, hretry⟩ := hold hc
    rw [hretry] at hr
    obtain ⟨e, he, hfailed, hkind', hamount'⟩ := h.retry j c₀ r hc₀ hr
    have hne : r ≠ k := by
      rintro rfl
      rw [ha, Option.some.injEq] at he
      rw [← he, hp] at hfailed
      cases hfailed
    exact ⟨e, by rw [Table.get_modify_ne _ _ hne, he], hfailed, hkind'.trans hkind.symm,
      hamount'.trans hamount.symm⟩
  · intro j j' c c' r hc hc' hr hr'
    obtain ⟨c₀, hc₀, -, -, hretry⟩ := hold hc
    obtain ⟨c₀', hc₀', -, -, hretry'⟩ := hold hc'
    exact h.unique j j' c₀ c₀' r hc₀ hc₀' (hretry ▸ hr) (hretry' ▸ hr')
  · intro x
    have hbalance := h.balance x
    simp only [live, planned, retried_modify fun c => (hf c).2.2] at hbalance ⊢
    rw [Table.modify, Table.sum_mapRows, Table.sum_mapRows]
    refine Eq.trans (Table.sum_congr fun j c _ => ?_)
      (hbalance.trans (Table.sum_congr fun j c _ => ?_))
    · by_cases hj : j = k <;> simp [hj, hf c]
    · by_cases hj : j = k <;> simp [hj, hf c]

end WellFormed

/-! ## Totals after a step -/

theorem planned_insert (hk : t.get k = none) (x : χ) : planned (t.insert k a) x =
    planned t x + if a.kind = x ∧ a.retryOf = none then a.amount else 0 :=
  Table.sum_insert a _ hk

theorem paid_insert (hk : t.get k = none) (x : χ) : paid (t.insert k a) x =
    paid t x + if a.kind = x ∧ a.outcome = .succeeded then a.amount else 0 :=
  Table.sum_insert a _ hk

theorem planned_modify {f : Attempt κ χ → Attempt κ χ}
    (hf : ∀ c, (f c).kind = c.kind ∧ (f c).amount = c.amount ∧ (f c).retryOf = c.retryOf) (x : χ) :
    planned (t.modify k f) x = planned t x := by
  rw [planned, Table.modify, Table.sum_mapRows]
  refine Table.sum_congr fun j c _ => ?_
  split <;> simp [hf c]

theorem paid_modify {f : Attempt κ χ → Attempt κ χ} (ha : t.get k = some a)
    (hp : a.outcome = .pending) (x : χ) : paid (t.modify k f) x =
      paid t x + if (f a).kind = x ∧ (f a).outcome = .succeeded then (f a).amount else 0 := by
  rw [paid, Table.sum_modify f _ ha, paid]
  simp [hp]

end Attempts
