import Mathlib.Data.List.Sort
import Mathlib.Order.Basic

/-!
# Pages of an ordered table

Rows are ordered by a key.  A page is a window at the upper end of a region of the table, and its
cursor says where the rows below it begin.

Proved here:

* `window_take`: the first rows of a list in descending order are a window;
* `Window.extend`: a page that continues a window at its cursor extends it;
* `Window.join`: a window below a row of another window continues it without a gap;
* `below_insert`: rows that are inserted above a bound leave the region below it.
-/

namespace Paging

variable {α β ι : Type} [LinearOrder α] {key : β → α}

/-- `items` are the rows of the region from some row on. -/
structure Window (key : β → α) (region : β → Prop) (items : List β) : Prop where
  sub : ∀ x ∈ items, region x
  upper : ∀ x ∈ items, ∀ y, region y → key x < key y → y ∈ items

/-- The rows of `table` before `bound`. -/
def Below (key : β → α) (table : List β) (bound : β) (x : β) : Prop :=
  x ∈ table ∧ key x < key bound

/-- The cursor says where the rows of the region below the window begin. -/
structure Continues (key : β → α) (id : β → ι) (region : β → Prop) (items : List β)
    (cursor : Option ι) : Prop where
  last : cursor = none → ∀ y, region y → y ∈ items
  next : ∀ c, cursor = some c → ∃ o ∈ items, id o = c ∧ ∀ x ∈ items, key o ≤ key x

variable {table region items older : List β}

theorem window_take {l : List β} (h : l.Pairwise fun a b => key b < key a) (n : Nat) :
    Window key (· ∈ l) (l.take n) where
  sub x hx := List.mem_of_mem_take hx
  upper x hx y hy hlt := by
    rw [← List.take_append_drop n l] at h hy
    rcases List.mem_append.mp hy with hy | hy
    · exact hy
    · exact absurd hlt (lt_asymm ((List.pairwise_append.mp h).2.2 x hx y hy))

theorem Window.congr {region region' : β → Prop} {items items' : List β}
    (h : Window key region items) (hr : ∀ x, region' x ↔ region x)
    (hi : ∀ x, x ∈ items' ↔ x ∈ items) : Window key region' items' where
  sub x hx := (hr x).mpr (h.sub x ((hi x).mp hx))
  upper x hx y hy hlt := (hi y).mpr (h.upper x ((hi x).mp hx) y ((hr y).mp hy) hlt)

theorem Continues.congr {id : β → ι} {region region' : β → Prop} {items items' : List β}
    {cursor : Option ι} (h : Continues key id region items cursor)
    (hr : ∀ x, region' x ↔ region x) (hi : ∀ x, x ∈ items' ↔ x ∈ items) :
    Continues key id region' items' cursor where
  last hc y hy := (hi y).mpr (h.last hc y ((hr y).mp hy))
  next c hc := by
    obtain ⟨o, ho, hid, hle⟩ := h.next c hc
    exact ⟨o, (hi o).mpr ho, hid, fun x hx => hle x ((hi x).mp hx)⟩

/-- The page before the oldest row of a window extends it. -/
theorem Window.extend {bound o : β} {page : List β}
    (hkey : ∀ x ∈ table, ∀ y ∈ table, key x = key y → x = y)
    (h : Window key (Below key table bound) items) (ho : o ∈ items)
    (hp : Window key (Below key table o) page) :
    Window key (Below key table bound) (page ++ items) where
  sub x hx := by
    rcases List.mem_append.mp hx with hx | hx
    · obtain ⟨hmem, hlt⟩ := hp.sub x hx
      exact ⟨hmem, hlt.trans (h.sub o ho).2⟩
    · exact h.sub x hx
  upper x hx y hy hlt := by
    refine List.mem_append.mpr ?_
    rcases List.mem_append.mp hx with hx | hx
    · rcases lt_trichotomy (key y) (key o) with hyo | hyo | hyo
      · exact .inl (hp.upper x hx y ⟨hy.1, hyo⟩ hlt)
      · rw [hkey y hy.1 o (h.sub o ho).1 hyo]
        exact .inr ho
      · exact .inr (h.upper o ho y hy hyo)
    · exact .inr (h.upper x hx y hy hlt)

theorem Continues.extend {id : β → ι} {bound o : β} {page : List β} {cursor : Option ι}
    (hkey : ∀ x ∈ table, ∀ y ∈ table, key x = key y → x = y)
    (h : Window key (Below key table bound) items) (ho : o ∈ items)
    (hoid : ∀ x ∈ items, key o ≤ key x) (hp : Window key (Below key table o) page)
    (hc : Continues key id (Below key table o) page cursor) :
    Continues key id (Below key table bound) (page ++ items) cursor where
  last hnone y hy := by
    refine List.mem_append.mpr ?_
    rcases lt_trichotomy (key y) (key o) with hyo | hyo | hyo
    · exact .inl (hc.last hnone y ⟨hy.1, hyo⟩)
    · rw [hkey y hy.1 o (h.sub o ho).1 hyo]
      exact .inr ho
    · exact .inr (h.upper o ho y hy hyo)
  next c hsome := by
    obtain ⟨o', ho', hid, hle⟩ := hc.next c hsome
    refine ⟨o', List.mem_append_left _ ho', hid, fun x hx => ?_⟩
    rcases List.mem_append.mp hx with hx | hx
    · exact hle x hx
    · exact ((hp.sub o' ho').2.le).trans (hoid x hx)

/-- A window below a row of another window continues it without a gap. -/
theorem Window.join {seen : β → Prop} {bound : β}
    (hkey : ∀ x ∈ table, ∀ y ∈ table, key x = key y → x = y)
    (hseen : ∀ x, seen x → x ∈ table)
    (hlower : ∀ x, seen x → ∀ y ∈ table, key y < key x → seen y)
    (h : Window key seen items) (hb : bound ∈ items)
    (ho : Window key (Below key table bound) older) : Window key seen (older ++ items) where
  sub x hx := by
    rcases List.mem_append.mp hx with hx | hx
    · exact hlower bound (h.sub bound hb) x (ho.sub x hx).1 (ho.sub x hx).2
    · exact h.sub x hx
  upper x hx y hy hlt := by
    refine List.mem_append.mpr ?_
    rcases List.mem_append.mp hx with hx | hx
    · rcases lt_trichotomy (key y) (key bound) with hyb | hyb | hyb
      · exact .inl (ho.upper x hx y ⟨hseen y hy, hyb⟩ hlt)
      · rw [hkey y (hseen y hy) bound (hseen bound (h.sub bound hb)) hyb]
        exact .inr hb
      · exact .inr (h.upper bound hb y hy hyb)
    · exact .inr (h.upper x hx y hy hlt)

theorem Continues.join {id : β → ι} {seen : β → Prop} {bound : β} {cursor : Option ι}
    (hkey : ∀ x ∈ table, ∀ y ∈ table, key x = key y → x = y)
    (hseen : ∀ x, seen x → x ∈ table) (h : Window key seen items) (hb : bound ∈ items)
    (hfirst : ∀ x ∈ items, key bound ≤ key x) (ho : Window key (Below key table bound) older)
    (hc : Continues key id (Below key table bound) older cursor) :
    Continues key id seen (older ++ items) cursor where
  last hnone y hy := by
    refine List.mem_append.mpr ?_
    rcases lt_trichotomy (key y) (key bound) with hyb | hyb | hyb
    · exact .inl (hc.last hnone y ⟨hseen y hy, hyb⟩)
    · rw [hkey y (hseen y hy) bound (hseen bound (h.sub bound hb)) hyb]
      exact .inr hb
    · exact .inr (h.upper bound hb y hy hyb)
  next c hsome := by
    obtain ⟨o, hmem, hid, hle⟩ := hc.next c hsome
    refine ⟨o, List.mem_append_left _ hmem, hid, fun x hx => ?_⟩
    rcases List.mem_append.mp hx with hx | hx
    · exact hle x hx
    · exact (ho.sub o hmem).2.le.trans (hfirst x hx)

/-- Rows that are inserted above a bound leave the region below it. -/
theorem below_insert {bound m : β} (hm : key bound < key m) (x : β) :
    Below key (m :: table) bound x ↔ Below key table bound x := by
  refine and_congr_left fun hlt => ?_
  rw [List.mem_cons, or_iff_right]
  rintro rfl
  exact lt_asymm hlt hm

end Paging
