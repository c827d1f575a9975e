import Mathlib.Tactic.IntervalCases
import Mathlib.Tactic.NormNum.Basic
import Mathlib.Data.Nat.Bitwise

set_option autoImplicit false

/-!
# Words loaded from bytes

A 32-bit load of four bytes on a little-endian machine, and the zero-byte test of word-at-a-time
scans: `(x - 0x01010101) & ~x & 0x80808080` is non-zero whenever a byte of `x` is zero. The test
may also flag a word with no zero byte in it; scans only use it to skip words.
-/

namespace LittleEndian

def load32 (b0 b1 b2 b3 : UInt8) : UInt32 :=
  UInt32.ofNat (b0.toNat + 256 * b1.toNat + 65536 * b2.toNat + 16777216 * b3.toNat)

def zeroFlag (x : UInt32) : UInt32 := (x - 0x01010101) &&& ~~~x &&& 0x80808080

theorem toNat_load32 (b0 b1 b2 b3 : UInt8) :
    (load32 b0 b1 b2 b3).toNat =
      b0.toNat + 256 * b1.toNat + 65536 * b2.toNat + 16777216 * b3.toNat := by
  have h0 := b0.toNat_lt
  have h1 := b1.toNat_lt
  have h2 := b2.toNat_lt
  have h3 := b3.toNat_lt
  rw [load32, UInt32.toNat_ofNat_of_lt' (by simp only [UInt32.size]; omega)]

private theorem bit_and {a b : UInt32} {k : Nat} (ha : a.toNat / 2 ^ k % 2 = 1)
    (hb : b.toNat / 2 ^ k % 2 = 1) : (a &&& b).toNat / 2 ^ k % 2 = 1 := by
  have bits := Nat.testBit_and a.toNat b.toNat k
  simp only [Nat.testBit_eq_decide_div_mod_eq, ha, hb, decide_true, Bool.and_true,
    decide_eq_true_eq] at bits
  rw [UInt32.toNat_and]
  exact bits

private theorem ne_zero_of_bit {y : UInt32} (k : Nat) (h : y.toNat / 2 ^ k % 2 = 1) : y ≠ 0 := by
  rintro rfl
  simp at h

/-- A zero byte sets the top bit of its lane in the flag: `0 - 1` has it, with or without a
borrow from the lanes below, and so has `~0`. -/
theorem zeroFlag_ne_zero {x : UInt32} (j : Nat) (hj : j < 4) (zero : x.toNat / 256 ^ j % 256 = 0) :
    zeroFlag x ≠ 0 := by
  have n := x.toNat_lt
  apply ne_zero_of_bit (8 * j + 7)
  refine bit_and (bit_and ?_ ?_) ?_
  · rw [UInt32.toNat_sub]
    simp only [UInt32.reduceToNat]
    interval_cases j <;> omega
  · rw [UInt32.toNat_not]
    simp only [UInt32.size] at n ⊢
    interval_cases j <;> omega
  · interval_cases j <;> decide

theorem zeroFlag_load32 {b0 b1 b2 b3 : UInt8} (zero : b0 = 0 ∨ b1 = 0 ∨ b2 = 0 ∨ b3 = 0) :
    zeroFlag (load32 b0 b1 b2 b3) ≠ 0 := by
  have word := toNat_load32 b0 b1 b2 b3
  have h0 := b0.toNat_lt
  have h1 := b1.toNat_lt
  have h2 := b2.toNat_lt
  have h3 := b3.toNat_lt
  rcases zero with rfl | rfl | rfl | rfl
  · exact zeroFlag_ne_zero 0 (by decide) (by simp only [UInt8.toNat_zero] at word; omega)
  · exact zeroFlag_ne_zero 1 (by decide) (by simp only [UInt8.toNat_zero] at word; omega)
  · exact zeroFlag_ne_zero 2 (by decide) (by simp only [UInt8.toNat_zero] at word; omega)
  · exact zeroFlag_ne_zero 3 (by decide) (by simp only [UInt8.toNat_zero] at word; omega)

end LittleEndian

/-!
# Words as sets of offsets

A `uint64_t` used as a window of flags: bit `d` is set when offset `d` is in the set. Shifting
left by `k` moves every offset up by `k` and drops those that leave the word; OR-ing in a power
of two adds one offset; AND-ing with one tests it.
-/

namespace Word64

/-- Bit `d` of the word is set. -/
def Has (w : UInt64) (d : Nat) : Prop := w.toNat.testBit d = true

instance (w : UInt64) (d : Nat) : Decidable (Has w d) := inferInstanceAs (Decidable (_ = true))

@[simp] theorem not_has_zero (d : Nat) : ¬ Has 0 d := by simp [Has]

theorem has_or {a b : UInt64} {d : Nat} : Has (a ||| b) d ↔ Has a d ∨ Has b d := by
  simp [Has, UInt64.toNat_or, Nat.testBit_or]

theorem has_one {d : Nat} : Has 1 d ↔ d = 0 := by
  rw [Has, UInt64.toNat_one, ← Nat.pow_zero 2, Nat.testBit_two_pow, decide_eq_true_iff, eq_comm]

theorem has_shiftLeft {a k : UInt64} {d : Nat} (hk : k.toNat < 64) (hd : d < 64) :
    Has (a <<< k) d ↔ k.toNat ≤ d ∧ Has a (d - k.toNat) := by
  rw [Has, Has, UInt64.toNat_shiftLeft, Nat.mod_eq_of_lt hk, Nat.testBit_mod_two_pow,
    Nat.testBit_shiftLeft]
  simp [hd]

theorem has_one_shiftLeft {k : UInt64} {d : Nat} (hk : k.toNat < 64) (hd : d < 64) :
    Has (1 <<< k) d ↔ d = k.toNat := by
  rw [has_shiftLeft hk hd, has_one]
  omega

theorem and_one_shiftLeft_ne_zero {a k : UInt64} (hk : k.toNat < 64) :
    a &&& (1 <<< k) ≠ 0 ↔ Has a k.toNat := by
  have pow : (1 <<< k).toNat = 2 ^ k.toNat := by
    rw [UInt64.toNat_shiftLeft, Nat.mod_eq_of_lt hk, UInt64.toNat_one, Nat.one_shiftLeft]
    exact Nat.mod_eq_of_lt (Nat.pow_lt_pow_right (by norm_num) hk)
  rw [Ne, ← UInt64.toNat_inj, UInt64.toNat_and, pow, Nat.and_two_pow, UInt64.toNat_zero, Has]
  cases a.toNat.testBit k.toNat <;> simp

end Word64
