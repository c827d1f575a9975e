import Libre.Mbuf.Buffer

set_option autoImplicit false

/-!
# Base64

`base64_encode`, `base64url_encode` and `base64_decode` from `base64/b64.c`. The output is the list
of bytes written, and the capacity passed in `*olen` is the argument `olen`. The decoder takes four
characters at a time while two are left, a missing one counting as the padding `=`.
-/

namespace Libre.Base64

/-- `b64_table`. -/
def b64Table : List UInt8 :=
  "ABCDEFGHIJKLMNOPQRSTUVWXYZabcdefghijklmnopqrstuvwxyz0123456789+/".toList.map Char.toUInt8

/-! ## Encoding -/

/-- The four characters written for one group of three bytes, `pad` of them missing. -/
def encodeGroup (v : UInt32) (pad : Nat) : List UInt8 :=
  [b64Table[(v >>> 18 &&& 0x3f).toNat]!, b64Table[(v >>> 12 &&& 0x3f).toNat]!,
   if pad ≥ 2 then '='.toUInt8 else b64Table[(v >>> 6 &&& 0x3f).toNat]!,
   if pad ≥ 1 then '='.toUInt8 else b64Table[(v &&& 0x3f).toNat]!]

/-- The loop of `base64_encode`: three bytes to four characters, the last group padded. -/
def encodeLoop : List UInt8 → List UInt8
  | [] => []
  | [a] => encodeGroup (a.toUInt32 <<< 16) 2
  | [a, b] => encodeGroup (a.toUInt32 <<< 16 ||| b.toUInt32 <<< 8) 1
  | a :: b :: c :: rest =>
    encodeGroup (a.toUInt32 <<< 16 ||| b.toUInt32 <<< 8 ||| c.toUInt32) 0 ++ encodeLoop rest

/-- `base64_encode(in, ilen, out, olen)`: the characters written, or `EOVERFLOW` when the
capacity is below `4 * ((ilen + 2) / 3)`. -/
def base64Encode (inp : List UInt8) (olen : Nat) : Except Errno (List UInt8) :=
  if olen < 4 * ((inp.length + 2) / 3) then .error .EOVERFLOW else .ok (encodeLoop inp)

-- `b64url_table`, RFC 4648 section 5.
def b64urlTable : List UInt8 :=
  "ABCDEFGHIJKLMNOPQRSTUVWXYZabcdefghijklmnopqrstuvwxyz0123456789-_".toList.map Char.toUInt8

-- `base64url_encode` writes no padding: a short last group has two or three characters.
def encodeUrlGroup (v : UInt32) (pad : Nat) : List UInt8 :=
  [b64urlTable[(v >>> 18 &&& 0x3f).toNat]!, b64urlTable[(v >>> 12 &&& 0x3f).toNat]!] ++
    (if pad < 2 then [b64urlTable[(v >>> 6 &&& 0x3f).toNat]!] else []) ++
    (if pad < 1 then [b64urlTable[(v &&& 0x3f).toNat]!] else [])

def encodeUrlLoop : List UInt8 → List UInt8
  | [] => []
  | [a] => encodeUrlGroup (a.toUInt32 <<< 16) 2
  | [a, b] => encodeUrlGroup (a.toUInt32 <<< 16 ||| b.toUInt32 <<< 8) 1
  | a :: b :: c :: rest =>
    encodeUrlGroup (a.toUInt32 <<< 16 ||| b.toUInt32 <<< 8 ||| c.toUInt32) 0 ++ encodeUrlLoop rest

-- The capacity check is the padded encoder's, though fewer characters are written.
def base64urlEncode (inp : List UInt8) (olen : Nat) : Except Errno (List UInt8) :=
  if olen < 4 * ((inp.length + 2) / 3) then .error .EOVERFLOW else .ok (encodeUrlLoop inp)

/-! ## Decoding -/

/-- `b64val`: the 6-bit value of a character, `1 << 24` for the padding `=`, 0 for any other
byte. -/
def b64val (c : UInt8) : UInt32 :=
  if 'A'.toUInt8 ≤ c ∧ c ≤ 'Z'.toUInt8 then (c - 'A'.toUInt8).toUInt32 + 0
  else if 'a'.toUInt8 ≤ c ∧ c ≤ 'z'.toUInt8 then (c - 'a'.toUInt8).toUInt32 + 26
  else if '0'.toUInt8 ≤ c ∧ c ≤ '9'.toUInt8 then (c - '0'.toUInt8).toUInt32 + 52
  else if c = '+'.toUInt8 ∨ c = '-'.toUInt8 then 62
  else if c = '/'.toUInt8 ∨ c = '_'.toUInt8 then 63
  else if c = '='.toUInt8 then ((1 : UInt32) <<< 24)
  else 0

/-- The bytes written for one group: the first always, the second unless bit 30 marks a padded
third character, the third unless bit 24 marks a padded fourth. -/
def decodeGroup (v : UInt32) : List UInt8 :=
  [(v >>> 16).toUInt8] ++
    (if v &&& ((1 : UInt32) <<< 30) = 0 then [(v >>> 8 &&& 0xff).toUInt8] else []) ++
    (if v &&& ((1 : UInt32) <<< 24) = 0 then [(v &&& 0xff).toUInt8] else [])

/-- The loop of `base64_decode`, run while at least two characters are left; a missing third or
fourth character takes the padding fallback. -/
def decodeLoop : List UInt8 → List UInt8
  | c0 :: c1 :: c2 :: c3 :: rest =>
    decodeGroup (b64val c0 <<< 18 ||| b64val c1 <<< 12 ||| b64val c2 <<< 6 ||| b64val c3) ++
      decodeLoop rest
  | [c0, c1, c2] =>
    decodeGroup
      (b64val c0 <<< 18 ||| b64val c1 <<< 12 ||| b64val c2 <<< 6 ||| ((1 : UInt32) <<< 24))
  | [c0, c1] =>
    decodeGroup (b64val c0 <<< 18 ||| b64val c1 <<< 12 ||| ((1 : UInt32) <<< 24) <<< 6 |||
      ((1 : UInt32) <<< 24))
  | _ => []

/-- `base64_decode(in, ilen, out, olen)`: the bytes written, or `EOVERFLOW` when the capacity
is below `3 * (ilen / 4)`. -/
def base64Decode (inp : List UInt8) (olen : Nat) : Except Errno (List UInt8) :=
  if olen < 3 * (inp.length / 4) then .error .EOVERFLOW else .ok (decodeLoop inp)

/-! ## How many bytes the decoder writes -/

section Length

theorem and_pow_eq_zero (v : UInt32) {k : Nat} {m : UInt32} (hm : m.toNat = 2 ^ k) :
    v &&& m = 0 ↔ v.toNat.testBit k = false := by
  rw [← UInt32.toNat_inj, UInt32.toNat_and, hm, Nat.and_two_pow, UInt32.toNat_zero]
  cases v.toNat.testBit k <;> simp

theorem length_decodeGroup (v : UInt32) :
    (decodeGroup v).length =
      1 + (if v.toNat.testBit 30 then 0 else 1) + (if v.toNat.testBit 24 then 0 else 1) := by
  have bit30 := and_pow_eq_zero v (k := 30) (m := (1 : UInt32) <<< 30) (by decide)
  have bit24 := and_pow_eq_zero v (k := 24) (m := (1 : UInt32) <<< 24) (by decide)
  simp only [decodeGroup, List.length_append, List.length_singleton]
  split <;> split <;> simp_all

theorem length_decodeGroup_le (v : UInt32) : (decodeGroup v).length ≤ 3 := by
  rw [length_decodeGroup]
  split <;> split <;> omega

theorem toNat_shiftLeft_lt {a s : UInt32} (ha : a.toNat < 64) (hs : s.toNat ≤ 18) :
    (a <<< s).toNat < 2 ^ 24 := by
  have room : a.toNat * 2 ^ s.toNat < 2 ^ 24 :=
    calc a.toNat * 2 ^ s.toNat < 64 * 2 ^ s.toNat := Nat.mul_lt_mul_of_pos_right ha (by positivity)
      _ ≤ 64 * 2 ^ 18 := Nat.mul_le_mul_left 64 (Nat.pow_le_pow_right (by decide) hs)
      _ = 2 ^ 24 := by norm_num
  rw [UInt32.toNat_shiftLeft, Nat.mod_eq_of_lt (show s.toNat < 32 by omega), Nat.shiftLeft_eq]
  exact lt_of_le_of_lt (Nat.mod_le _ _) room

theorem front_lt {a b c : UInt32} (ha : a.toNat < 64) (hb : b.toNat < 64) (hc : c.toNat < 64) :
    (a <<< 18 ||| b <<< 12 ||| c <<< 6).toNat < 2 ^ 24 := by
  simp only [UInt32.toNat_or]
  exact Nat.or_lt_two_pow (Nat.or_lt_two_pow (toNat_shiftLeft_lt ha (by decide))
    (toNat_shiftLeft_lt hb (by decide))) (toNat_shiftLeft_lt hc (by decide))

theorem testBit_of_lt {x k : Nat} (hx : x < 2 ^ 24) (hk : 24 ≤ k) : x.testBit k = false :=
  Nat.testBit_eq_false_of_lt (lt_of_lt_of_le hx (Nat.pow_le_pow_right (by decide) hk))

/-- The characters that decode to values below 64: those of the alphabet. -/
def Alphabet (inp : List UInt8) : Prop := ∀ c ∈ inp, (b64val c).toNat < 64

instance (inp : List UInt8) : Decidable (Alphabet inp) :=
  inferInstanceAs (Decidable (∀ c ∈ inp, (b64val c).toNat < 64))

/-- The bytes written for the characters left over after the whole groups. -/
def tailLength (n : Nat) : Nat := if n % 4 = 2 then 1 else if n % 4 = 3 then 2 else 0

@[simp] theorem tailLength_add_four (n : Nat) : tailLength (n + 4) = tailLength n := by
  simp [tailLength]

/-- The bytes written for characters of the alphabet: three for each whole group, one for two
characters left over and two for three. -/
theorem length_decodeLoop :
    ∀ inp : List UInt8, Alphabet inp →
      (decodeLoop inp).length = 3 * (inp.length / 4) + tailLength inp.length
  | c0 :: c1 :: c2 :: c3 :: rest, alpha => by
    have whole : (b64val c0 <<< 18 ||| b64val c1 <<< 12 ||| b64val c2 <<< 6 |||
        b64val c3).toNat < 2 ^ 24 := by
      rw [UInt32.toNat_or]
      exact Nat.or_lt_two_pow (front_lt (alpha c0 (by simp)) (alpha c1 (by simp))
        (alpha c2 (by simp))) (by have := alpha c3 (by simp); omega)
    rw [decodeLoop, List.length_append, length_decodeGroup,
      length_decodeLoop rest fun c mem => alpha c (by simp [mem]),
      testBit_of_lt whole (by decide), testBit_of_lt whole (by decide)]
    simp only [List.length_cons, Nat.add_assoc, Nat.reduceAdd, tailLength_add_four]
    simp only [Bool.false_eq_true, if_false]
    omega
  | [c0, c1, c2], alpha => by
    have front := front_lt (alpha c0 (by simp)) (alpha c1 (by simp)) (alpha c2 (by simp))
    have high : ((1 : UInt32) <<< 24).toNat = 2 ^ 24 := by decide
    rw [decodeLoop, length_decodeGroup, UInt32.toNat_or _ ((1 : UInt32) <<< 24), high,
      Nat.testBit_or, Nat.testBit_or, testBit_of_lt front (by decide),
      testBit_of_lt front (by decide), Nat.testBit_two_pow_self,
      Nat.testBit_two_pow_of_ne (show 24 ≠ 30 by decide)]
    simp [tailLength]
  | [c0, c1], _ => by
    have high : ((1 : UInt32) <<< 24).toNat = 2 ^ 24 := by decide
    have higher : ((1 : UInt32) <<< 24 <<< 6).toNat = 2 ^ 30 := by decide
    rw [decodeLoop, length_decodeGroup]
    simp only [UInt32.toNat_or, high, higher, Nat.testBit_or, Nat.testBit_two_pow_self,
      Bool.or_true]
    simp [tailLength]
  | [_], _ => by simp [decodeLoop, tailLength]
  | [], _ => by simp [decodeLoop, tailLength]

/-- For any bytes the padding marks bound what the last group writes, so the count above is an
upper bound. -/
theorem length_decodeLoop_le :
    ∀ inp : List UInt8, (decodeLoop inp).length ≤ 3 * (inp.length / 4) + tailLength inp.length
  | c0 :: c1 :: c2 :: c3 :: rest => by
    have group := length_decodeGroup_le
      (b64val c0 <<< 18 ||| b64val c1 <<< 12 ||| b64val c2 <<< 6 ||| b64val c3)
    have ih := length_decodeLoop_le rest
    rw [decodeLoop, List.length_append]
    simp only [List.length_cons, Nat.add_assoc, Nat.reduceAdd, tailLength_add_four]
    omega
  | [c0, c1, c2] => by
    have high : ((1 : UInt32) <<< 24).toNat = 2 ^ 24 := by decide
    rw [decodeLoop, length_decodeGroup, UInt32.toNat_or _ ((1 : UInt32) <<< 24), high]
    simp only [Nat.testBit_or, Nat.testBit_two_pow_self, Bool.or_true]
    split <;> simp [tailLength]
  | [c0, c1] => by
    have high : ((1 : UInt32) <<< 24).toNat = 2 ^ 24 := by decide
    have higher : ((1 : UInt32) <<< 24 <<< 6).toNat = 2 ^ 30 := by decide
    rw [decodeLoop, length_decodeGroup]
    simp only [UInt32.toNat_or, high, higher, Nat.testBit_or, Nat.testBit_two_pow_self,
      Bool.or_true]
    simp [tailLength]
  | [_] => by simp [decodeLoop, tailLength]
  | [] => by simp [decodeLoop, tailLength]

end Length

/-- The capacity check of `base64_decode` is short for unpadded input: for characters of the
alphabet with two or three left over after the whole groups, the decoder accepts the capacity
`3 * (ilen / 4)` and writes more bytes than that. -/
theorem base64Decode_overruns (inp : List UInt8) (alpha : Alphabet inp)
    (short : inp.length % 4 = 2 ∨ inp.length % 4 = 3) :
    ∃ out, base64Decode inp (3 * (inp.length / 4)) = .ok out ∧ 3 * (inp.length / 4) < out.length :=
  ⟨decodeLoop inp, by simp [base64Decode], by
    rw [length_decodeLoop inp alpha, tailLength]
    split_ifs <;> omega⟩

/-- "AA" (bytes 0x41 0x41) with no room at all decodes to one byte. -/
theorem base64Decode_overruns_AA :
    Alphabet [0x41, 0x41] ∧ ([0x41, 0x41] : List UInt8).length % 4 = 2 ∧
      ∃ out, base64Decode [0x41, 0x41] (3 * (2 / 4)) = .ok out ∧ 3 * (2 / 4) < out.length :=
  ⟨by decide +kernel, by decide,
    base64Decode_overruns [0x41, 0x41] (by decide +kernel) (.inl (by decide))⟩

end Libre.Base64
