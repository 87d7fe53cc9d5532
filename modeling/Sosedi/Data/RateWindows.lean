import Mathlib.Algebra.Order.Ring.Int
import Mathlib.Data.List.Basic

/-!
# Sliding windows

A limiter admits an event when fewer than `max` of the earlier ones are recent; it may have read
its clock before.

Proved here: `Limited.append`, an admitted event leaves at most `max` events in every window.
-/

namespace RateWindows

variable {width : Int} {max : Nat} {times : List Int}

/-- The events in the window from `start` on, both ends included. -/
def inWindow (width start : Int) (times : List Int) : Nat :=
  times.countP fun t => start ≤ t && t ≤ start + width

/-- The events since `start`. -/
def since (start : Int) (times : List Int) : Nat := times.countP fun t => start ≤ t

/-- Every window holds at most `max` events. -/
def Limited (width : Int) (max : Nat) (times : List Int) : Prop :=
  ∀ start, inWindow width start times ≤ max

theorem Limited.nil : Limited width max [] := fun _ => Nat.zero_le max

/-- What is in a window with `t` is recent for a clock that was read before `t`. -/
theorem inWindow_le_since (times : List Int) {start now t : Int} (hnow : now ≤ t) (ht : t ≤ start + width) :
    inWindow width start times ≤ since (now - width) times := by
  refine List.countP_mono_left fun x _ hx => ?_
  simp only [Bool.and_eq_true, decide_eq_true_eq] at hx ⊢
  omega

/-- **An admitted event keeps the limit.** -/
theorem Limited.append (h : Limited width max times) {now t : Int} (hnow : now ≤ t)
    (hcount : since (now - width) times < max) : Limited width max (times ++ [t]) := by
  intro start
  rw [inWindow, List.countP_append, List.countP_singleton]
  by_cases ht : (decide (start ≤ t) && decide (t ≤ start + width)) = true
  · rw [if_pos ht]
    rw [Bool.and_eq_true, decide_eq_true_eq, decide_eq_true_eq] at ht
    have hle := inWindow_le_since times hnow ht.2
    rw [inWindow] at hle
    omega
  · rw [if_neg ht]
    exact h start

end RateWindows
