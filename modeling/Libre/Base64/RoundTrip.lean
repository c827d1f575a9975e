import Libre.Base64.Codec

set_option autoImplicit false

/-!
# Base64 round trips

`base64_decode` gives back what `base64_encode` and `base64url_encode` wrote: `b64val` inverts
both tables. The capacity it asks for, `3 * (ilen / 4)`, refuses a buffer of `|x|` bytes for padded
input when `|x|` is not a multiple of three (`base64_round_trip`).
-/

namespace Libre.Base64

/-! ## Words as numbers -/

theorem or_shiftLeft_of_lt {a b : Nat} (m k : Nat) (hb : b < 2 ^ m) :
    a <<< (m + k) ||| b <<< k = (a * 2 ^ m + b) <<< k := by
  rw [Nat.shiftLeft_add, ← Nat.shiftLeft_or_distrib, ← Nat.shiftLeft_add_eq_or_of_lt hb,
    Nat.shiftLeft_eq a m]

theorem toNat_shiftLeft_of_lt {x s : UInt32} (hs : s.toNat < 32) (fits : x.toNat * 2 ^ s.toNat < 2 ^ 32) :
    (x <<< s).toNat = x.toNat <<< s.toNat := by
  rw [UInt32.toNat_shiftLeft, Nat.mod_eq_of_lt hs, Nat.shiftLeft_eq, Nat.mod_eq_of_lt fits]

theorem toNat_pack (a b c : UInt8) :
    (a.toUInt32 <<< 16 ||| b.toUInt32 <<< 8 ||| c.toUInt32).toNat =
      a.toNat * 2 ^ 16 + b.toNat * 2 ^ 8 + c.toNat := by
  have ha := a.toNat_lt
  have hb := b.toNat_lt
  have hc := c.toNat_lt
  rw [UInt32.toNat_or, UInt32.toNat_or, toNat_shiftLeft_of_lt (by decide) (by simp; omega),
    toNat_shiftLeft_of_lt (by decide) (by simp; omega)]
  simp only [UInt8.toNat_toUInt32, UInt32.reduceToNat]
  rw [show 16 = 8 + 8 by rfl, or_shiftLeft_of_lt 8 8 hb, ← Nat.shiftLeft_add_eq_or_of_lt hc,
    Nat.shiftLeft_eq]
  ring

theorem toNat_unpack_front {x0 x1 x2 : UInt32} (h0 : x0.toNat < 64) (h1 : x1.toNat < 64)
    (h2 : x2.toNat < 64) :
    (x0 <<< 18 ||| x1 <<< 12 ||| x2 <<< 6).toNat = x0.toNat * 2 ^ 18 + x1.toNat * 2 ^ 12 + x2.toNat * 2 ^ 6 := by
  rw [UInt32.toNat_or, UInt32.toNat_or, toNat_shiftLeft_of_lt (by decide) (by simp; omega),
    toNat_shiftLeft_of_lt (by decide) (by simp; omega), toNat_shiftLeft_of_lt (by decide) (by simp; omega)]
  simp only [UInt32.reduceToNat]
  rw [show 18 = 6 + 12 by rfl, or_shiftLeft_of_lt 6 12 h1, show 12 = 6 + 6 by rfl,
    or_shiftLeft_of_lt 6 6 h2, Nat.shiftLeft_eq]
  ring

theorem toNat_unpack {x0 x1 x2 x3 : UInt32} (h0 : x0.toNat < 64) (h1 : x1.toNat < 64)
    (h2 : x2.toNat < 64) (h3 : x3.toNat < 64) :
    (x0 <<< 18 ||| x1 <<< 12 ||| x2 <<< 6 ||| x3).toNat =
      x0.toNat * 2 ^ 18 + x1.toNat * 2 ^ 12 + x2.toNat * 2 ^ 6 + x3.toNat := by
  rw [UInt32.toNat_or _ x3, toNat_unpack_front h0 h1 h2]
  rw [show x0.toNat * 2 ^ 18 + x1.toNat * 2 ^ 12 + x2.toNat * 2 ^ 6 =
    (x0.toNat * 2 ^ 12 + x1.toNat * 2 ^ 6 + x2.toNat) <<< 6 by rw [Nat.shiftLeft_eq]; ring,
    ← Nat.shiftLeft_add_eq_or_of_lt h3, Nat.shiftLeft_eq]

theorem toNat_pack_two (a b : UInt8) :
    (a.toUInt32 <<< 16 ||| b.toUInt32 <<< 8).toNat = a.toNat * 2 ^ 16 + b.toNat * 2 ^ 8 := by
  have ha := a.toNat_lt
  have hb := b.toNat_lt
  rw [UInt32.toNat_or, toNat_shiftLeft_of_lt (by decide) (by simp; omega),
    toNat_shiftLeft_of_lt (by decide) (by simp; omega)]
  simp only [UInt8.toNat_toUInt32, UInt32.reduceToNat]
  rw [show 16 = 8 + 8 by rfl, or_shiftLeft_of_lt 8 8 hb, Nat.shiftLeft_eq]
  ring

theorem toNat_pack_one (a : UInt8) : (a.toUInt32 <<< 16).toNat = a.toNat * 2 ^ 16 := by
  have ha := a.toNat_lt
  rw [toNat_shiftLeft_of_lt (by decide) (by simp; omega), Nat.shiftLeft_eq]
  simp

/-! ## Tables the decoder inverts -/

def Inverts (tbl : List UInt8) : Prop := ∀ i : Fin 64, b64val tbl[i.val]! = UInt32.ofNat i.val

instance (tbl : List UInt8) : Decidable (Inverts tbl) :=
  inferInstanceAs (Decidable (∀ i : Fin 64, b64val tbl[i.val]! = UInt32.ofNat i.val))

theorem inverts_b64Table : Inverts b64Table := by decide +kernel

theorem inverts_b64urlTable : Inverts b64urlTable := by decide +kernel

theorem b64val_pad : b64val '='.toUInt8 = (1 : UInt32) <<< 24 := by decide

section Tables

variable {tbl : List UInt8}

theorem toNat_sextet (v s : UInt32) (hs : s.toNat < 32) :
    (v >>> s &&& 0x3f).toNat = v.toNat / 2 ^ s.toNat % 64 := by
  rw [UInt32.toNat_and, UInt32.toNat_shiftRight, Nat.mod_eq_of_lt hs,
    show (0x3f : UInt32).toNat = 2 ^ 6 - 1 by rfl, Nat.and_two_pow_sub_one_eq_mod,
    Nat.shiftRight_eq_div_pow]

theorem b64val_sextet (inv : Inverts tbl) (v s : UInt32) (hs : s.toNat < 32) :
    (b64val tbl[(v >>> s &&& 0x3f).toNat]!).toNat = v.toNat / 2 ^ s.toNat % 64 := by
  have lt : (v >>> s &&& 0x3f).toNat < 64 := by rw [toNat_sextet v s hs]; omega
  have entry : b64val tbl[(v >>> s &&& 0x3f).toNat]! = UInt32.ofNat (v >>> s &&& 0x3f).toNat :=
    inv ⟨_, lt⟩
  rw [entry, UInt32.toNat_ofNat', toNat_sextet v s hs]
  omega

theorem b64val_low_sextet (inv : Inverts tbl) (v : UInt32) :
    (b64val tbl[(v &&& 0x3f).toNat]!).toNat = v.toNat % 64 := by
  simpa using b64val_sextet inv v 0 (by decide)

end Tables

/-! ## One group back -/

theorem decodeGroup_eq (w : UInt32) :
    decodeGroup w = [UInt8.ofNat (w.toNat / 2 ^ 16)] ++
      (if w.toNat.testBit 30 then [] else [UInt8.ofNat (w.toNat / 2 ^ 8)]) ++
      (if w.toNat.testBit 24 then [] else [UInt8.ofNat w.toNat]) := by
  have bit30 := and_pow_eq_zero w (k := 30) (m := (1 : UInt32) <<< 30) (by decide)
  have bit24 := and_pow_eq_zero w (k := 24) (m := (1 : UInt32) <<< 24) (by decide)
  have first : (w >>> 16).toUInt8 = UInt8.ofNat (w.toNat / 2 ^ 16) := by
    apply UInt8.toNat_inj.mp
    simp [Nat.shiftRight_eq_div_pow]
  have second : (w >>> 8 &&& 0xff).toUInt8 = UInt8.ofNat (w.toNat / 2 ^ 8) := by
    apply UInt8.toNat_inj.mp
    simp only [UInt32.toNat_toUInt8, UInt32.toNat_and, UInt32.toNat_shiftRight, UInt8.toNat_ofNat',
      UInt32.reduceToNat, Nat.reduceMod, Nat.shiftRight_eq_div_pow]
    rw [show (255 : Nat) = 2 ^ 8 - 1 by rfl, Nat.and_two_pow_sub_one_eq_mod, Nat.mod_mod]
  have third : (w &&& 0xff).toUInt8 = UInt8.ofNat w.toNat := by
    apply UInt8.toNat_inj.mp
    simp only [UInt32.toNat_toUInt8, UInt32.toNat_and, UInt8.toNat_ofNat', UInt32.reduceToNat]
    rw [show (255 : Nat) = 2 ^ 8 - 1 by rfl, Nat.and_two_pow_sub_one_eq_mod, Nat.mod_mod]
  simp only [decodeGroup, first, second, third]
  split <;> split <;> simp_all

theorem ofNat_byte {n : Nat} {a : UInt8} (h : n % 256 = a.toNat) : UInt8.ofNat n = a :=
  UInt8.toNat_inj.mp (by rw [UInt8.toNat_ofNat']; exact h)

theorem toNat_unpack_two {x0 x1 : UInt32} (h0 : x0.toNat < 64) (h1 : x1.toNat < 64) :
    (x0 <<< 18 ||| x1 <<< 12).toNat = x0.toNat * 2 ^ 18 + x1.toNat * 2 ^ 12 := by
  rw [UInt32.toNat_or, toNat_shiftLeft_of_lt (by decide) (by simp; omega),
    toNat_shiftLeft_of_lt (by decide) (by simp; omega)]
  simp only [UInt32.reduceToNat]
  rw [show 18 = 6 + 12 by rfl, or_shiftLeft_of_lt 6 12 h1, Nat.shiftLeft_eq]
  ring

-- A whole group of four characters gives back its three bytes.
theorem decodeGroup_three {x0 x1 x2 x3 : UInt32} {a b c : UInt8}
    (h0 : x0.toNat = (a.toNat * 2 ^ 16 + b.toNat * 2 ^ 8 + c.toNat) / 2 ^ 18 % 64)
    (h1 : x1.toNat = (a.toNat * 2 ^ 16 + b.toNat * 2 ^ 8 + c.toNat) / 2 ^ 12 % 64)
    (h2 : x2.toNat = (a.toNat * 2 ^ 16 + b.toNat * 2 ^ 8 + c.toNat) / 2 ^ 6 % 64)
    (h3 : x3.toNat = (a.toNat * 2 ^ 16 + b.toNat * 2 ^ 8 + c.toNat) % 64) :
    decodeGroup (x0 <<< 18 ||| x1 <<< 12 ||| x2 <<< 6 ||| x3) = [a, b, c] := by
  have ha := a.toNat_lt
  have hb := b.toNat_lt
  have hc := c.toNat_lt
  have value : (x0 <<< 18 ||| x1 <<< 12 ||| x2 <<< 6 ||| x3).toNat =
      a.toNat * 2 ^ 16 + b.toNat * 2 ^ 8 + c.toNat := by
    rw [toNat_unpack (by omega) (by omega) (by omega) (by omega), h0, h1, h2, h3]
    omega
  have bit30 : (a.toNat * 2 ^ 16 + b.toNat * 2 ^ 8 + c.toNat).testBit 30 = false :=
    Nat.testBit_eq_false_of_lt (by omega)
  have bit24 : (a.toNat * 2 ^ 16 + b.toNat * 2 ^ 8 + c.toNat).testBit 24 = false :=
    Nat.testBit_eq_false_of_lt (by omega)
  rw [decodeGroup_eq, value, bit30, bit24]
  simp only [Bool.false_eq_true, if_false, List.cons_append, List.nil_append, List.cons.injEq]
  exact ⟨ofNat_byte (by omega), ofNat_byte (by omega), ofNat_byte (by omega), trivial⟩

-- Three characters, the fourth missing or `=`, give back two bytes.
theorem decodeGroup_two {x0 x1 x2 : UInt32} {a b : UInt8}
    (h0 : x0.toNat = (a.toNat * 2 ^ 16 + b.toNat * 2 ^ 8) / 2 ^ 18 % 64)
    (h1 : x1.toNat = (a.toNat * 2 ^ 16 + b.toNat * 2 ^ 8) / 2 ^ 12 % 64)
    (h2 : x2.toNat = (a.toNat * 2 ^ 16 + b.toNat * 2 ^ 8) / 2 ^ 6 % 64) :
    decodeGroup (x0 <<< 18 ||| x1 <<< 12 ||| x2 <<< 6 ||| (1 : UInt32) <<< 24) = [a, b] := by
  have ha := a.toNat_lt
  have hb := b.toNat_lt
  have front : (x0 <<< 18 ||| x1 <<< 12 ||| x2 <<< 6).toNat = a.toNat * 2 ^ 16 + b.toNat * 2 ^ 8 := by
    rw [toNat_unpack_front (by omega) (by omega) (by omega), h0, h1, h2]
    omega
  have value : (x0 <<< 18 ||| x1 <<< 12 ||| x2 <<< 6 ||| (1 : UInt32) <<< 24).toNat =
      a.toNat * 2 ^ 16 + b.toNat * 2 ^ 8 + 2 ^ 24 := by
    rw [UInt32.toNat_or, front, show ((1 : UInt32) <<< 24).toNat = 2 ^ 24 by decide,
      Nat.or_two_pow_eq_add_of_lt (by omega)]
  have bit30 : (a.toNat * 2 ^ 16 + b.toNat * 2 ^ 8 + 2 ^ 24).testBit 30 = false :=
    Nat.testBit_eq_false_of_lt (by omega)
  have bit24 : (a.toNat * 2 ^ 16 + b.toNat * 2 ^ 8 + 2 ^ 24).testBit 24 = true := by
    rw [Nat.testBit_eq_decide_div_mod_eq, decide_eq_true_eq]
    omega
  rw [decodeGroup_eq, value, bit30, bit24]
  simp only [Bool.false_eq_true, if_false, if_true, List.cons_append, List.nil_append,
    List.append_nil, List.cons.injEq]
  exact ⟨ofNat_byte (by omega), ofNat_byte (by omega), trivial⟩

-- Two characters, the last two missing or `=`, give back one byte.
theorem decodeGroup_one {x0 x1 : UInt32} {a : UInt8}
    (h0 : x0.toNat = a.toNat * 2 ^ 16 / 2 ^ 18 % 64) (h1 : x1.toNat = a.toNat * 2 ^ 16 / 2 ^ 12 % 64) :
    decodeGroup (x0 <<< 18 ||| x1 <<< 12 ||| (1 : UInt32) <<< 24 <<< 6 ||| (1 : UInt32) <<< 24) = [a] := by
  have ha := a.toNat_lt
  have front : (x0 <<< 18 ||| x1 <<< 12).toNat = a.toNat * 2 ^ 16 := by
    rw [toNat_unpack_two (by omega) (by omega), h0, h1]
    omega
  have value : (x0 <<< 18 ||| x1 <<< 12 ||| (1 : UInt32) <<< 24 <<< 6 ||| (1 : UInt32) <<< 24).toNat =
      a.toNat * 2 ^ 16 + 2 ^ 24 + 2 ^ 30 := by
    rw [UInt32.toNat_or, UInt32.toNat_or, front, show ((1 : UInt32) <<< 24 <<< 6).toNat = 2 ^ 30 by decide,
      show ((1 : UInt32) <<< 24).toNat = 2 ^ 24 by decide, Nat.or_assoc, Nat.or_comm (2 ^ 30),
      ← Nat.or_assoc, Nat.or_two_pow_eq_add_of_lt (n := 24) (by omega),
      Nat.or_two_pow_eq_add_of_lt (by omega)]
  have bit30 : (a.toNat * 2 ^ 16 + 2 ^ 24 + 2 ^ 30).testBit 30 = true := by
    rw [Nat.testBit_eq_decide_div_mod_eq, decide_eq_true_eq]
    omega
  have bit24 : (a.toNat * 2 ^ 16 + 2 ^ 24 + 2 ^ 30).testBit 24 = true := by
    rw [Nat.testBit_eq_decide_div_mod_eq, decide_eq_true_eq]
    omega
  rw [decodeGroup_eq, value, bit30, bit24]
  simp only [if_true, List.append_nil, List.cons.injEq]
  exact ⟨ofNat_byte (by omega), trivial⟩

section Tables

variable {tbl : List UInt8}

theorem b64val_sextet_of (inv : Inverts tbl) {v : UInt32} {n : Nat} (hv : v.toNat = n) (s : UInt32)
    (hs : s.toNat < 32) : (b64val tbl[(v >>> s &&& 0x3f).toNat]!).toNat = n / 2 ^ s.toNat % 64 := by
  rw [b64val_sextet inv v s hs, hv]

-- The characters an encoder writes for one, two and three bytes, read back through `b64val`.
theorem decode_sextets_one (inv : Inverts tbl) {v : UInt32} {a : UInt8} (hv : v.toNat = a.toNat * 2 ^ 16) :
    decodeGroup (b64val tbl[(v >>> 18 &&& 0x3f).toNat]! <<< 18 ||| b64val tbl[(v >>> 12 &&& 0x3f).toNat]! <<< 12 |||
      (1 : UInt32) <<< 24 <<< 6 ||| (1 : UInt32) <<< 24) = [a] :=
  decodeGroup_one (b64val_sextet_of inv hv 18 (by decide)) (b64val_sextet_of inv hv 12 (by decide))

theorem decode_sextets_two (inv : Inverts tbl) {v : UInt32} {a b : UInt8}
    (hv : v.toNat = a.toNat * 2 ^ 16 + b.toNat * 2 ^ 8) :
    decodeGroup (b64val tbl[(v >>> 18 &&& 0x3f).toNat]! <<< 18 ||| b64val tbl[(v >>> 12 &&& 0x3f).toNat]! <<< 12 |||
      b64val tbl[(v >>> 6 &&& 0x3f).toNat]! <<< 6 ||| (1 : UInt32) <<< 24) = [a, b] :=
  decodeGroup_two (b64val_sextet_of inv hv 18 (by decide)) (b64val_sextet_of inv hv 12 (by decide))
    (b64val_sextet_of inv hv 6 (by decide))

theorem decode_sextets_three (inv : Inverts tbl) {v : UInt32} {a b c : UInt8}
    (hv : v.toNat = a.toNat * 2 ^ 16 + b.toNat * 2 ^ 8 + c.toNat) :
    decodeGroup (b64val tbl[(v >>> 18 &&& 0x3f).toNat]! <<< 18 ||| b64val tbl[(v >>> 12 &&& 0x3f).toNat]! <<< 12 |||
      b64val tbl[(v >>> 6 &&& 0x3f).toNat]! <<< 6 ||| b64val tbl[(v &&& 0x3f).toNat]!) = [a, b, c] :=
  decodeGroup_three (b64val_sextet_of inv hv 18 (by decide)) (b64val_sextet_of inv hv 12 (by decide))
    (b64val_sextet_of inv hv 6 (by decide)) (by rw [b64val_low_sextet inv, hv])

end Tables

/-! ## Whole encodings back -/

theorem decodeLoop_encodeLoop (x : List UInt8) : decodeLoop (encodeLoop x) = x := by
  fun_induction encodeLoop x with
  | case1 => rfl
  | case2 a =>
    simp only [encodeGroup, decodeLoop, ge_iff_le, Nat.le_refl, if_true, show 1 ≤ 2 by decide,
      b64val_pad, List.append_nil]
    exact decode_sextets_one inverts_b64Table (toNat_pack_one a)
  | case3 a b =>
    simp only [encodeGroup, decodeLoop, ge_iff_le, Nat.le_refl, if_true, show ¬2 ≤ 1 by decide,
      if_false, b64val_pad, List.append_nil]
    exact decode_sextets_two inverts_b64Table (toNat_pack_two a b)
  | case4 a b c rest ih =>
    simp only [encodeGroup, decodeLoop, ge_iff_le, show ¬2 ≤ 0 by decide, show ¬1 ≤ 0 by decide,
      if_false, List.cons_append, List.nil_append, ih]
    rw [decode_sextets_three inverts_b64Table (toNat_pack a b c)]
    rfl

theorem decodeLoop_encodeUrlLoop (x : List UInt8) : decodeLoop (encodeUrlLoop x) = x := by
  fun_induction encodeUrlLoop x with
  | case1 => rfl
  | case2 a =>
    simp only [encodeUrlGroup, decodeLoop, show ¬2 < 2 by decide, show ¬2 < 1 by decide, if_false,
      List.append_nil]
    exact decode_sextets_one inverts_b64urlTable (toNat_pack_one a)
  | case3 a b =>
    simp only [encodeUrlGroup, decodeLoop, show 1 < 2 by decide, show ¬1 < 1 by decide, if_true,
      if_false, List.append_nil, List.cons_append, List.nil_append]
    exact decode_sextets_two inverts_b64urlTable (toNat_pack_two a b)
  | case4 a b c rest ih =>
    simp only [encodeUrlGroup, decodeLoop, show 0 < 2 by decide, show 0 < 1 by decide,
      if_true, List.cons_append, List.nil_append, ih]
    rw [decode_sextets_three inverts_b64urlTable (toNat_pack a b c)]
    rfl

theorem length_encodeLoop (x : List UInt8) : (encodeLoop x).length = 4 * ((x.length + 2) / 3) := by
  fun_induction encodeLoop x with
  | case1 => rfl
  | case2 a => simp [encodeGroup]
  | case3 a b => simp [encodeGroup]
  | case4 a b c rest ih =>
    simp only [List.length_append, ih, List.length_cons]
    simp [encodeGroup]
    omega

theorem length_encodeUrlLoop (x : List UInt8) : (encodeUrlLoop x).length = (4 * x.length + 2) / 3 := by
  fun_induction encodeUrlLoop x with
  | case1 => rfl
  | case2 a => simp [encodeUrlGroup]
  | case3 a b => simp [encodeUrlGroup]
  | case4 a b c rest ih =>
    simp only [List.length_append, ih, List.length_cons]
    simp [encodeUrlGroup]
    omega

theorem base64_round_trip (x : List UInt8) (olen : Nat) (room : 4 * ((x.length + 2) / 3) ≤ olen) :
    (∃ out, base64Encode x olen = .ok out ∧ out.length = 4 * ((x.length + 2) / 3) ∧
      ∀ dlen, base64Decode out dlen =
        if dlen < 3 * ((x.length + 2) / 3) then .error .EOVERFLOW else .ok x) ∧
    (∃ out, base64urlEncode x olen = .ok out ∧
      ∀ dlen, (dlen < 3 * (x.length / 3) → base64Decode out dlen = .error .EOVERFLOW) ∧
        (x.length ≤ dlen → base64Decode out dlen = .ok x)) := by
  have padded := length_encodeLoop x
  have url := length_encodeUrlLoop x
  refine ⟨⟨encodeLoop x, by simp [base64Encode, Nat.not_lt.mpr room], padded, fun dlen => ?_⟩,
    ⟨encodeUrlLoop x, by simp [base64urlEncode, Nat.not_lt.mpr room], fun dlen => ?_⟩⟩
  · rw [base64Decode, padded, decodeLoop_encodeLoop, show 4 * ((x.length + 2) / 3) / 4 = (x.length + 2) / 3 by omega]
  · have decoded : base64Decode (encodeUrlLoop x) dlen =
        if dlen < 3 * (x.length / 3) then .error .EOVERFLOW else .ok x := by
      rw [base64Decode, url, decodeLoop_encodeUrlLoop, show (4 * x.length + 2) / 3 / 4 = x.length / 3 by omega]
    refine ⟨fun short => by rw [decoded, if_pos short], fun fits => ?_⟩
    rw [decoded, if_neg (by omega)]

theorem base64_round_trip_one_byte :
    (∃ out, base64Encode [0] 4 = .ok out ∧ out.length = 4 ∧
      ∀ dlen, base64Decode out dlen = if dlen < 3 then .error .EOVERFLOW else .ok [0]) ∧
    (∃ out, base64urlEncode [0] 4 = .ok out ∧ ∀ dlen, 1 ≤ dlen → base64Decode out dlen = .ok [0]) := by
  simpa using base64_round_trip [0] 4 (by decide)

theorem base64_decode_padded_one_byte :
    base64Encode [0] 4 = .ok [0x41, 0x41, 0x3d, 0x3d] ∧
      base64Decode [0x41, 0x41, 0x3d, 0x3d] 1 = .error .EOVERFLOW :=
  ⟨by decide +kernel, by decide⟩

end Libre.Base64
