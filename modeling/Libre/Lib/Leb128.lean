import Mathlib.Data.Nat.Bitwise

set_option autoImplicit false

/-!
# LEB128

Unsigned little-endian base-128 numbers: seven bits a byte, low group first, the top bit of a
byte set when another byte follows. `encode` writes the shortest such form, `value` reads groups
back without looking at the top bits; a reader that stops after `k` bytes sees the value modulo
`128 ^ k`.
-/

namespace Leb128

def encode (n : Nat) : List UInt8 :=
  if n < 128 then [UInt8.ofNat n]
  else UInt8.ofNat (n % 128 + 128) :: encode (n / 128)
termination_by n
decreasing_by omega

def value : List UInt8 → Nat
  | [] => 0
  | b :: bs => b.toNat % 128 + 128 * value bs

theorem encode_of_lt {n : Nat} (small : n < 128) : encode n = [UInt8.ofNat n] := by
  rw [encode, if_pos small]

theorem encode_of_le {n : Nat} (large : 128 ≤ n) :
    encode n = UInt8.ofNat (n % 128 + 128) :: encode (n / 128) := by
  rw [encode, if_neg (by omega)]

theorem toNat_continued (n : Nat) : (UInt8.ofNat (n % 128 + 128)).toNat = n % 128 + 128 := by
  rw [UInt8.toNat_ofNat']
  omega

theorem length_encode_pos (n : Nat) : 0 < (encode n).length := by
  rw [encode]
  split <;> simp

@[simp] theorem value_encode (n : Nat) : value (encode n) = n := by
  induction n using Nat.strong_induction_on with
  | _ n ih =>
    by_cases small : n < 128
    · simp [encode_of_lt small, value, Nat.mod_eq_of_lt small]
    · rw [encode_of_le (by omega), value, ih (n / 128) (by omega), toNat_continued]
      omega

theorem length_encode_le {n k : Nat} (fits : n < 128 ^ (k + 1)) : (encode n).length ≤ k + 1 := by
  induction k generalizing n with
  | zero => simp [encode_of_lt (by simpa using fits)]
  | succ k ih =>
    by_cases small : n < 128
    · simp [encode_of_lt small]
    · rw [encode_of_le (by omega), List.length_cons]
      have rest : n / 128 < 128 ^ (k + 1) := by
        rw [Nat.pow_succ] at fits
        omega
      have := ih rest
      omega

theorem lt_length_encode {n k : Nat} (large : 128 ^ k ≤ n) : k < (encode n).length := by
  induction k generalizing n with
  | zero => exact length_encode_pos n
  | succ k ih =>
    have group : 128 ≤ n := le_trans (Nat.le_self_pow (by omega) 128) large
    have rest : 128 ^ k ≤ n / 128 := by
      rw [Nat.le_div_iff_mul_le (by omega), ← Nat.pow_succ]
      exact large
    rw [encode_of_le group, List.length_cons]
    have := ih rest
    omega

/-! ## The two fields of a byte -/

theorem toNat_and_low (b : UInt8) : (b &&& 0x7f).toNat = b.toNat % 128 := by
  rw [UInt8.toNat_and, show (0x7f : UInt8).toNat = 2 ^ 7 - 1 by rfl, Nat.and_two_pow_sub_one_eq_mod]

theorem and_high_eq_zero_iff (b : UInt8) : b &&& 0x80 = 0 ↔ b.toNat < 128 := by
  have bound := b.toNat_lt
  have bit : b.toNat &&& 2 ^ 7 = (b.toNat.testBit 7).toNat * 2 ^ 7 := Nat.and_two_pow _ 7
  rw [← UInt8.toNat_inj, UInt8.toNat_and, show (0x80 : UInt8).toNat = 2 ^ 7 by rfl, bit,
    Nat.testBit_eq_decide_div_mod_eq]
  by_cases small : b.toNat < 128
  · simp [Nat.div_eq_of_lt small, small]
  · have one : b.toNat / 128 % 2 = 1 := by omega
    simp [one, small]

-- The head byte of an encoding: its continuation bit says whether more follow.
theorem head_small {n : Nat} (small : n < 128) :
    UInt8.ofNat n &&& 0x80 = 0 ∧ (UInt8.ofNat n &&& 0x7f).toNat = n := by
  have toNat : (UInt8.ofNat n).toNat = n := by rw [UInt8.toNat_ofNat']; omega
  rw [and_high_eq_zero_iff, toNat_and_low, toNat]
  omega

theorem head_continued (n : Nat) :
    UInt8.ofNat (n % 128 + 128) &&& 0x80 ≠ 0 ∧ (UInt8.ofNat (n % 128 + 128) &&& 0x7f).toNat = n % 128 := by
  rw [Ne, and_high_eq_zero_iff, toNat_and_low, toNat_continued]
  omega

/-! ## Groups gathered in a 64-bit word -/

-- Placing group `i` above an accumulator that holds only the lower groups adds it.
theorem toNat_or_shiftLeft {ret : UInt64} {c : UInt8} {i : Nat} (i_lt : i < 8)
    (low : ret.toNat < 2 ^ (7 * i)) (small : c.toNat < 128) :
    (ret ||| c.toUInt64 <<< (i * 7).toUInt64).toNat = ret.toNat + 2 ^ (7 * i) * c.toNat := by
  have shift : (i * 7).toUInt64.toNat % 64 = 7 * i := by
    simp only [Nat.toUInt64_eq, UInt64.toNat_ofNat']
    omega
  have fits : 2 ^ (7 * i) * c.toNat < 2 ^ 64 :=
    calc 2 ^ (7 * i) * c.toNat < 2 ^ (7 * i) * 2 ^ 7 := Nat.mul_lt_mul_of_pos_left small (Nat.two_pow_pos _)
      _ = 2 ^ (7 * i + 7) := (Nat.pow_add 2 _ _).symm
      _ ≤ 2 ^ 64 := Nat.pow_le_pow_right (by omega) (by omega)
  rw [UInt64.toNat_or, UInt64.toNat_shiftLeft, shift, UInt8.toNat_toUInt64, Nat.shiftLeft_eq,
    Nat.mul_comm, Nat.mod_eq_of_lt fits, Nat.or_comm, ← Nat.two_pow_add_eq_or_of_lt low, Nat.add_comm]

end Leb128
