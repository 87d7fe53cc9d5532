import Mathlib.Data.Nat.Digits.Lemmas

/-!
# Regrouping digits through an accumulator

Digits of one width are read into an accumulator of `w` bits and written as digits of another
width, both most significant first.  The accumulator is shifted and never masked, so it holds
what was read modulo `2 ^ w`.

Proved here:

* `Regrouped.push`: reading a digit;
* `Regrouped.emit`: writing a digit, while what is left to write fits into the accumulator;
* `digits_eq`: digits are determined by their number and their value.
-/

namespace Regrouping

/-- The value of digits of `b` bits, the first one most significant. -/
def value (b : Nat) (digits : List Nat) : Nat := Nat.ofDigits (2 ^ b) digits.reverse

theorem value_append (b : Nat) (digits : List Nat) (d : Nat) :
    value b (digits ++ [d]) = value b digits * 2 ^ b + d := by
  rw [value, List.reverse_append, List.reverse_singleton, List.singleton_append,
    Nat.ofDigits_cons, ← value]
  ring

theorem digits_eq {b : Nat} (hb : 0 < b) {digits digits' : List Nat}
    (hlength : digits.length = digits'.length) (hd : ∀ d ∈ digits, d < 2 ^ b)
    (hd' : ∀ d ∈ digits', d < 2 ^ b) (h : value b digits = value b digits') :
    digits = digits' := by
  refine List.reverse_injective (Nat.ofDigits_inj_of_len_eq (Nat.one_lt_two_pow hb.ne') ?_ ?_ ?_ h)
  · rw [List.length_reverse, List.length_reverse, hlength]
  · exact fun d hmem => hd d (List.mem_reverse.mp hmem)
  · exact fun d hmem => hd' d (List.mem_reverse.mp hmem)

/-- `read` bits of value `total` were read; `out` was written, `bits` of them are left. -/
structure Regrouped (w b read total bits : Nat) (accumulator : BitVec w) (out : List Nat) :
    Prop where
  count : b * out.length + bits = read
  written : value b out = total / 2 ^ bits
  held : accumulator.toNat = total % 2 ^ w
  digits : ∀ d ∈ out, d < 2 ^ b

namespace Regrouped

variable {w b read total bits : Nat} {accumulator : BitVec w} {out : List Nat}

theorem start (w b : Nat) : Regrouped w b 0 0 0 (0#w) [] where
  count := rfl
  written := rfl
  held := by simp
  digits _ hd := by cases hd

/-- A digit of `a` bits is read. -/
theorem push (h : Regrouped w b read total bits accumulator out) {a d : Nat} (hd : d < 2 ^ a) :
    Regrouped w b (read + a) (total * 2 ^ a + d) (bits + a)
      ((accumulator <<< a) ||| BitVec.ofNat w d) out where
  count := by
    have hcount := h.count
    omega
  written := by
    rw [h.written, Nat.pow_add', ← Nat.div_div_eq_div_mul, Nat.mul_comm total,
      Nat.mul_add_div (Nat.two_pow_pos a), Nat.div_eq_of_lt hd, Nat.add_zero]
  held := by
    rw [BitVec.toNat_or, BitVec.toNat_shiftLeft, BitVec.toNat_ofNat, ← Nat.or_mod_two_pow,
      Nat.shiftLeft_eq, Nat.mul_comm, ← Nat.two_pow_add_eq_or_of_lt hd, h.held]
    rw [Nat.mul_comm, Nat.add_mod, Nat.mod_mul_mod, ← Nat.add_mod]
  digits := h.digits

/-- A digit of `b` bits is written. -/
theorem emit (h : Regrouped w b read total bits accumulator out) (hb : b ≤ bits)
    (hw : bits ≤ w) :
    Regrouped w b read total (bits - b) accumulator
      (out ++ [accumulator.toNat / 2 ^ (bits - b) % 2 ^ b]) where
  count := by
    have hcount := h.count
    rw [List.length_append, List.length_singleton, Nat.mul_add]
    omega
  written := by
    have hheld : total % 2 ^ w / 2 ^ (bits - b) % 2 ^ b = total / 2 ^ (bits - b) % 2 ^ b := by
      have hpow : 2 ^ w = 2 ^ (bits - b) * 2 ^ (w - (bits - b)) := by
        rw [← Nat.pow_add]
        congr 1
        omega
      rw [hpow, Nat.mod_mul_right_div_self]
      exact Nat.mod_mod_of_dvd _ (Nat.pow_dvd_pow 2 (by omega))
    have hsplit : total / 2 ^ bits = total / 2 ^ (bits - b) / 2 ^ b := by
      rw [Nat.div_div_eq_div_mul, ← Nat.pow_add, Nat.sub_add_cancel hb]
    rw [value_append, h.written, h.held, hheld, hsplit]
    exact Nat.div_add_mod' _ _
  held := h.held
  digits d hd := by
    rcases List.mem_append.mp hd with hd | hd
    · exact h.digits d hd
    · rw [List.mem_singleton.mp hd]
      exact Nat.mod_lt _ (Nat.two_pow_pos b)

end Regrouped

end Regrouping
