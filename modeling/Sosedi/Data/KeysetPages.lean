import Mathlib.Data.List.Sort

/-!
# Reading a changing table page by page

A page holds the greatest keys before a bound, in descending order; the cursor of a page is the
bound of the next one.  The set that is read may be another one at every page.

Proved here:

* `PageOf.of_take`: the first keys of a descending list are a page;
* `Pages.descending`: the pages together are in descending order;
* `Pages.complete`: a key that every page could find is on one of the pages.
-/

namespace Paging

variable {α : Type} [LinearOrder α] {found : α → Prop} {bound cursor last : Option α}
  {page : List α}

/-- Every key is before `none`. -/
def Before (bound : Option α) (k : α) : Prop := ∀ b, bound = some b → k < b

/-- `page` are the greatest keys before `bound`, and `cursor` says where there may be more. -/
structure PageOf (found : α → Prop) (bound : Option α) (page : List α) (cursor : Option α) :
    Prop where
  sub : ∀ k ∈ page, found k
  before : ∀ k ∈ page, Before bound k
  descending : page.Pairwise fun a b => b < a
  complete : ∀ k, found k → Before bound k → k ∈ page ∨ ∃ c, cursor = some c ∧ k < c
  next : ∀ c, cursor = some c → c ∈ page ∧ ∀ k ∈ page, c ≤ k

/-- Rows with distinct keys, sorted by the key. -/
theorem descending_insertionSort {β : Type} (key : β → α) {l : List β} (h : (l.map key).Nodup) :
    ((l.insertionSort fun a b => key b ≤ key a).map key).Pairwise fun a b => b < a := by
  have htotal : Std.Total fun a b : β => key b ≤ key a := ⟨fun a b => le_total (key b) (key a)⟩
  have htrans : IsTrans β fun a b => key b ≤ key a := ⟨fun _ _ _ hab hbc => hbc.trans hab⟩
  have hnodup : ((l.insertionSort fun a b => key b ≤ key a).map key).Nodup :=
    ((l.perm_insertionSort _).map key).nodup_iff.mpr h
  rw [List.pairwise_map]
  refine ((l.pairwise_insertionSort _).and (List.pairwise_map.mp hnodup)).imp fun {a b} hab => ?_
  exact lt_of_le_of_ne hab.1 (Ne.symm hab.2)

/-- Without its first row, a descending list up to `k` holds the rows before `k`: either its first
row is at `k`, or there is nothing before `k`. -/
theorem mem_drop_one {β : Type} {key : β → α} {l : List β} {k : α}
    (h : l.Pairwise fun a b => key b < key a) (hle : ∀ x ∈ l, key x ≤ k)
    (hfirst : (∃ x ∈ l, key x = k) ∨ ∀ x ∈ l, ¬ key x < k) (x : β) :
    x ∈ l.drop 1 ↔ x ∈ l ∧ key x < k := by
  cases l with
  | nil => simp
  | cons y l =>
    obtain ⟨hy, -⟩ := List.pairwise_cons.mp h
    rw [List.drop_one, List.tail_cons]
    constructor
    · intro hx
      exact ⟨List.mem_cons_of_mem _ hx, (hy x hx).trans_le (hle y (List.mem_cons_self ..))⟩
    · rintro ⟨hx, hlt⟩
      rcases List.mem_cons.mp hx with rfl | hx
      · rcases hfirst with ⟨z, hz, rfl⟩ | hnone
        · rcases List.mem_cons.mp hz with rfl | hz
          · exact absurd hlt (lt_irrefl _)
          · exact absurd hlt (lt_asymm (hy z hz))
        · exact absurd hlt (hnone x (List.mem_cons_self ..))
      · exact hx

/-- The first keys of a list that has all keys before the bound. -/
theorem PageOf.of_take {l : List α} (h : l.Pairwise fun a b => b < a)
    (hl : ∀ k, k ∈ l ↔ found k ∧ Before bound k) {limit : Nat} (hpos : 0 < limit) :
    PageOf found bound (l.take limit)
      (if limit < l.length then (l.take limit).getLast? else none) where
  sub k hk := ((hl k).mp (List.mem_of_mem_take hk)).1
  before k hk := ((hl k).mp (List.mem_of_mem_take hk)).2
  descending := h.sublist (List.take_sublist limit l)
  complete k hk hb := by
    have hmem : k ∈ l := (hl k).mpr ⟨hk, hb⟩
    by_cases hmore : limit < l.length
    · rw [if_pos hmore]
      have hne : l.take limit ≠ [] := List.ne_nil_of_length_pos (by
        rw [List.length_take]
        omega)
      rw [← List.take_append_drop limit l] at h hmem
      rcases List.mem_append.mp hmem with hk | hk
      · exact .inl hk
      · exact .inr ⟨_, List.getLast?_eq_some_getLast hne,
          (List.pairwise_append.mp h).2.2 _ (List.getLast_mem hne) k hk⟩
    · rw [List.take_of_length_le (by omega)]
      exact .inl hmem
  next c hc := by
    have hlast : (l.take limit).getLast? = some c := by
      by_cases hmore : limit < l.length
      · rw [if_pos hmore] at hc
        exact hc
      · rw [if_neg hmore] at hc
        cases hc
    obtain ⟨newer, htake⟩ := List.getLast?_eq_some_iff.mp hlast
    have hsorted := h.sublist (List.take_sublist limit l)
    rw [htake] at hsorted ⊢
    refine ⟨by simp, fun k hk => ?_⟩
    rcases List.mem_append.mp hk with hk | hk
    · exact ((List.pairwise_append.mp hsorted).2.2 k hk c (List.mem_singleton.mpr rfl)).le
    · exact (List.mem_singleton.mp hk).ge

theorem Before.of_lt {k b : α} (hk : k < b) (h : Before bound b) : Before bound k :=
  fun b' hb' => hk.trans (h b' hb')

/-- Pages one after the other, from the `n`-th on: the cursor of a page is the bound of the next
one, `last` is the cursor of the last one. -/
inductive Pages (found : Nat → α → Prop) : Nat → Option α → List (List α) → Option α → Prop where
  | last {n : Nat} {bound cursor : Option α} {page : List α}
      (h : PageOf (found n) bound page cursor) : Pages found n bound [page] cursor
  | next {n : Nat} {bound last : Option α} {page : List α} {c : α} {pages : List (List α)}
      (h : PageOf (found n) bound page (some c)) (rest : Pages found (n + 1) (some c) pages last) :
      Pages found n bound (page :: pages) last

namespace Pages

variable {found : Nat → α → Prop} {n : Nat} {pages : List (List α)}

theorem before (h : Pages found n bound pages last) :
    ∀ page ∈ pages, ∀ k ∈ page, Before bound k := by
  induction h with
  | last h =>
    intro page hpage
    rw [List.mem_singleton.mp hpage]
    exact h.before
  | next h _ ih =>
    intro page hpage k hk
    rcases List.mem_cons.mp hpage with rfl | hpage
    · exact h.before k hk
    · exact (h.before _ (h.next _ rfl).1).of_lt (ih page hpage k hk _ rfl)

/-- What comes on later pages is smaller. -/
theorem separated (h : Pages found n bound pages last) :
    pages.Pairwise fun p q => ∀ a ∈ p, ∀ b ∈ q, b < a := by
  induction h with
  | last h => exact List.pairwise_singleton _ _
  | next h rest ih =>
    refine List.pairwise_cons.mpr ⟨fun q hq a ha b hb => ?_, ih⟩
    exact (rest.before q hq b hb _ rfl).trans_le ((h.next _ rfl).2 a ha)

/-- Within a page. -/
theorem sorted (h : Pages found n bound pages last) :
    ∀ page ∈ pages, page.Pairwise fun a b => b < a := by
  induction h with
  | last h =>
    intro page hpage
    rw [List.mem_singleton.mp hpage]
    exact h.descending
  | next h _ ih =>
    intro page hpage
    rcases List.mem_cons.mp hpage with rfl | hpage
    · exact h.descending
    · exact ih page hpage

/-- **The pages together are in descending order.** -/
theorem descending (h : Pages found n bound pages last) :
    pages.flatten.Pairwise fun a b => b < a :=
  List.pairwise_flatten.mpr ⟨h.sorted, h.separated⟩

/-- **A key that every page could find is on one of them**, or comes after the last one. -/
theorem complete (h : Pages found n bound pages last) {k : α}
    (hk : ∀ i, n ≤ i → i < n + pages.length → found i k) (hb : Before bound k) :
    (∃ page ∈ pages, k ∈ page) ∨ ∃ c, last = some c ∧ k < c := by
  induction h with
  | @last n bound cursor page h =>
    rcases h.complete k (hk n (Nat.le_refl n) (by simp)) hb with hmem | hafter
    · exact .inl ⟨page, List.mem_singleton.mpr rfl, hmem⟩
    · exact .inr hafter
  | @next n bound last page c pages h _ ih =>
    rcases h.complete k (hk n (Nat.le_refl n) (by simp)) hb with hmem | ⟨c', hc, hlt⟩
    · exact .inl ⟨page, List.mem_cons_self .., hmem⟩
    · rw [Option.some.injEq] at hc
      subst hc
      have hlater : ∀ i, n + 1 ≤ i → i < n + 1 + pages.length → found i k := by
        intro i hi hlen
        rw [List.length_cons] at hk
        exact hk i (by omega) (by omega)
      have hafter : Before (some c) k := by
        rintro b ⟨⟩
        exact hlt
      rcases ih hlater hafter with ⟨q, hq, hmem⟩ | hlast
      · exact .inl ⟨q, List.mem_cons_of_mem _ hq, hmem⟩
      · exact .inr hlast

end Pages

end Paging
