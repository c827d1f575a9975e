import Libre.Mbuf.Buffer
import Libre.Lib.Leb128

set_option autoImplicit false

/-!
# AV1 OBUs

`av1/obu.c`: LEB128 sizes, the one-byte OBU header and `av1_obu_count`. The decoder's loop stops
after eight bytes whatever the last continuation bit says, so encoder and decoder agree below
`2 ^ 56` (`av1Leb128_round_trip`) and the decoder keeps only the low 56 bits above.
-/

namespace Libre.Av1

open Mbuf

def av1Leb128Encode (mb : Mbuf) (value : UInt64) : Mbuf :=
  if value ≥ 0x80 then
    av1Leb128Encode (mb.writeU8 (0x80 ||| (value &&& 0x7f).toUInt8)) (value >>> 7)
  else mb.writeU8 value.toUInt8
termination_by value.toNat
decreasing_by
  simp only [ge_iff_le, UInt64.le_iff_toNat_le, UInt64.reduceToNat] at *
  rw [UInt64.toNat_shiftRight]
  simp only [UInt64.reduceToNat, Nat.reduceMod, Nat.shiftRight_eq_div_pow]
  omega

-- The loop of `av1_leb128_decode`: at most eight bytes, whatever the last one says.
def leb128DecodeLoop (mb : Mbuf) (i : Nat) (ret : UInt64) : Except Errno (UInt64 × Mbuf) :=
  if i < 8 then
    if mb.getLeft < 1 then .error .EBADMSG
    else
      let byte := mb.readU8
      let ret := ret ||| (byte.1 &&& 0x7f).toUInt64 <<< (i * 7).toUInt64
      if byte.1 &&& 0x80 = 0 then .ok (ret, byte.2) else leb128DecodeLoop byte.2 (i + 1) ret
  else .ok (ret, mb)
termination_by 8 - i

def av1Leb128Decode (mb : Mbuf) : Except Errno (UInt64 × Mbuf) := leb128DecodeLoop mb 0 0

structure ObuHdr where
  type : UInt8
  x : Bool
  s : Bool
  size : Nat
  deriving DecidableEq, Repr

-- The header byte `av1_obu_encode` writes: the type in bits 3..6 and the size flag in bit 1.
def obuHeader (type : UInt8) (has_size : Bool) : UInt8 :=
  (type &&& 0xf) <<< 3 ||| (if has_size then (1 : UInt8) else 0) <<< 1

-- `payload` is what the pointer points at (`none` for NULL); `len` bytes of it are written.
def av1ObuEncode (mb : Mbuf) (type : UInt8) (has_size : Bool) (len : Nat)
    (payload : Option (List UInt8)) : Except Errno Mbuf :=
  if type = 0 then .error .EINVAL
  else
    let mb := mb.writeU8 (obuHeader type has_size)
    let mb := if has_size then av1Leb128Encode mb (UInt64.ofNat len) else mb
    match payload with
    | some p => if len ≠ 0 then .ok (mb.writeMem (p.take len)) else .ok mb
    | none => .ok mb

def av1ObuDecode (mb : Mbuf) : Except Errno (ObuHdr × Mbuf) :=
  if mb.getLeft < 1 then .error .EBADMSG
  else
    let val := mb.readU8
    let f := (val.1 >>> 7) &&& 0x1
    let type := (val.1 >>> 3) &&& 0xf
    let x := (val.1 >>> 2) &&& 0x1 = 1
    let s := (val.1 >>> 1) &&& 0x1 = 1
    if f ≠ 0 then .error .EBADMSG
    else if type = 0 then .error .EBADMSG
    else if x then .error .ENOTSUP
    else if s then
      match av1Leb128Decode val.2 with
      | .error e => .error e
      | .ok (size, mb) =>
        if size.toNat > mb.getLeft then .error .EBADMSG
        else .ok (⟨type, x, s, size.toNat⟩, mb)
    else .ok (⟨type, x, s, val.2.getLeft⟩, val.2)

/-! ## LEB128 sizes -/

theorem shiftRight_seven (v : UInt64) : (v >>> 7).toNat = v.toNat / 128 := by
  rw [UInt64.toNat_shiftRight]
  simp [Nat.shiftRight_eq_div_pow]

theorem continued_byte (v : UInt64) :
    0x80 ||| (v &&& 0x7f).toUInt8 = UInt8.ofNat (v.toNat % 128 + 128) := by
  apply UInt8.toNat_inj.mp
  have low : ((v &&& 0x7f).toUInt8).toNat = v.toNat % 128 := by
    rw [UInt64.toNat_toUInt8, UInt64.toNat_and, show (0x7f : UInt64).toNat = 2 ^ 7 - 1 by rfl,
      Nat.and_two_pow_sub_one_eq_mod]
    omega
  rw [UInt8.toNat_or, show (0x80 : UInt8).toNat = 2 ^ 7 * 1 by rfl, low,
    ← Nat.two_pow_add_eq_or_of_lt (by omega), UInt8.toNat_ofNat']
  omega

theorem av1Leb128Encode_frame {mb : Mbuf} {a : Nat} {xs : List UInt8} (h : Frame mb a xs)
    (at_ : mb.pos = mb.end_) (v : UInt64) :
    Frame (av1Leb128Encode mb v) a (xs ++ Leb128.encode v.toNat) ∧
      (av1Leb128Encode mb v).pos = (av1Leb128Encode mb v).end_ := by
  induction mb, v using av1Leb128Encode.induct generalizing xs with
  | case1 mb v large ih =>
    have large' : 128 ≤ v.toNat := UInt64.le_iff_toNat_le.mp large
    obtain ⟨frame, ends⟩ := ih (h.writeMem_end at_ _) (by simp [writeU8, at_])
    rw [av1Leb128Encode, if_pos large, Leb128.encode_of_le large', ← continued_byte,
      ← shiftRight_seven]
    simpa using And.intro frame ends
  | case2 mb v small =>
    have small' : v.toNat < 128 := by
      have := mt UInt64.le_iff_toNat_le.mpr small
      simpa using this
    rw [av1Leb128Encode, if_neg small, Leb128.encode_of_lt small']
    exact ⟨h.writeMem_end at_ _, by simp [writeU8, at_]⟩

theorem accumulated_lt {r m i : Nat} (le : i ≤ 8) (low : r < 2 ^ (7 * i)) (high : m < 128 ^ (8 - i)) :
    r + 2 ^ (7 * i) * m < 2 ^ 56 :=
  calc r + 2 ^ (7 * i) * m < 2 ^ (7 * i) * (m + 1) := by rw [Nat.mul_succ]; omega
    _ ≤ 2 ^ (7 * i) * 128 ^ (8 - i) := Nat.mul_le_mul_left _ high
    _ = 2 ^ 56 := by
      rw [show (128 : Nat) = 2 ^ 7 by rfl, ← Nat.pow_mul, ← Nat.pow_add]
      congr 1
      omega

theorem leb128DecodeLoop_encode {zs : List UInt8} (mb : Mbuf) (i : Nat) (ret : UInt64) (n : Nat)
    (h : Frame mb mb.pos (Leb128.encode n ++ zs)) (le : i ≤ 8) (low : ret.toNat < 2 ^ (7 * i)) :
    leb128DecodeLoop mb i ret = .ok (UInt64.ofNat (ret.toNat + 2 ^ (7 * i) * (n % 128 ^ (8 - i))),
      mb.advance (min (8 - i) (Leb128.encode n).length)) := by
  fun_induction leb128DecodeLoop mb i ret generalizing n with
  | case1 mb i ret lt short =>
    have left := h.getLeft_eq
    have pos := Leb128.length_encode_pos n
    rw [List.length_append] at left
    omega
  | case2 mb i ret lt enough byte ret' stop =>
    have small : n < 128 := by
      by_contra large
      rw [Leb128.encode_of_le (by omega)] at h
      have read : mb.readU8 = (UInt8.ofNat (n % 128 + 128), mb.advance 1) := by
        simpa using h.readU8_framed (i := 0) (by simp)
      exact (Leb128.head_continued n).1 (by simpa [byte, read] using stop)
    rw [Leb128.encode_of_lt small] at h ⊢
    have read : mb.readU8 = (UInt8.ofNat n, mb.advance 1) := by
      simpa using h.readU8_framed (i := 0) (by simp)
    have fits : n < 128 ^ (8 - i) :=
      lt_of_lt_of_le small (Nat.le_self_pow (by omega) 128)
    have value : ret' = UInt64.ofNat (ret.toNat + 2 ^ (7 * i) * (n % 128 ^ (8 - i))) := by
      apply UInt64.toNat_inj.mp
      rw [UInt64.toNat_ofNat', Nat.mod_eq_of_lt fits, Nat.mod_eq_of_lt
        (lt_trans (accumulated_lt le low (by omega)) (by norm_num))]
      simp only [ret', byte, read]
      rw [Leb128.toNat_or_shiftLeft lt low (by rw [Leb128.toNat_and_low]; omega),
        (Leb128.head_small small).2]
    simp [value, byte, read, show min (8 - i) 1 = 1 by omega]
  | case3 mb i ret lt enough byte ret' more ih =>
    have large : 128 ≤ n := by
      by_contra small
      rw [Leb128.encode_of_lt (by omega)] at h
      have read : mb.readU8 = (UInt8.ofNat n, mb.advance 1) := by
        simpa using h.readU8_framed (i := 0) (by simp)
      exact more (by simpa [byte, read] using (Leb128.head_small (by omega)).1)
    rw [Leb128.encode_of_le large] at h ⊢
    have read : mb.readU8 = (UInt8.ofNat (n % 128 + 128), mb.advance 1) := by
      simpa using h.readU8_framed (i := 0) (by simp)
    have rest : Frame (mb.advance 1) (mb.advance 1).pos (Leb128.encode (n / 128) ++ zs) :=
      (frame_advance 1).mpr (by simpa using @Frame.suffix mb mb.pos [_] _ (by simpa using h))
    have acc : ret'.toNat = ret.toNat + 2 ^ (7 * i) * (n % 128) := by
      simp only [ret', byte, read]
      rw [Leb128.toNat_or_shiftLeft lt low (by rw [Leb128.toNat_and_low]; omega),
        (Leb128.head_continued n).2]
    have low' : ret'.toNat < 2 ^ (7 * (i + 1)) := by
      rw [acc, Nat.mul_succ, Nat.pow_add]
      have : n % 128 < 128 := Nat.mod_lt _ (by omega)
      nlinarith
    have next : byte.2 = mb.advance 1 := by simp [byte, read]
    rw [next] at ih ⊢
    rw [ih (n / 128) rest (by omega) low', advance_advance, acc]
    have split : n % 128 ^ (8 - i) = n % 128 + 128 * (n / 128 % 128 ^ (8 - (i + 1))) := by
      rw [show 8 - i = (8 - (i + 1)) + 1 by omega, Nat.pow_succ', Nat.mod_mul]
    have pow : 2 ^ (7 * (i + 1)) = 2 ^ (7 * i) * 128 := by rw [Nat.mul_succ, Nat.pow_add]
    rw [split, List.length_cons, pow]
    congr 3
    · ring
    · omega
  | case4 mb i ret ge =>
    have eight : i = 8 := by omega
    subst eight
    simp [Nat.mod_one]

theorem av1Leb128Decode_encode {zs : List UInt8} (mb : Mbuf) (n : Nat)
    (h : Frame mb mb.pos (Leb128.encode n ++ zs)) :
    av1Leb128Decode mb =
      .ok (UInt64.ofNat (n % 2 ^ 56), mb.advance (min 8 (Leb128.encode n).length)) := by
  simpa [av1Leb128Decode] using leb128DecodeLoop_encode mb 0 0 n h (by omega) (by simp)

theorem av1Leb128Decode_written {mb : Mbuf} {a : Nat} {xs : List UInt8} (h : Frame mb a xs)
    (at_ : mb.pos = mb.end_) (v : UInt64) :
    av1Leb128Decode ((av1Leb128Encode mb v).setPos mb.pos) =
      .ok (UInt64.ofNat (v.toNat % 2 ^ 56),
        (av1Leb128Encode mb v).setPos (mb.pos + min 8 (Leb128.encode v.toNat).length)) := by
  obtain ⟨frame, -⟩ := av1Leb128Encode_frame h at_ v
  have start : mb.pos = a + xs.length := by rw [at_, h.ends]
  have written : Frame ((av1Leb128Encode mb v).setPos mb.pos) ((av1Leb128Encode mb v).setPos mb.pos).pos
      (Leb128.encode v.toNat ++ []) := by
    rw [frame_setPos, setPos_pos, start, List.append_nil]
    exact frame.suffix
  rw [av1Leb128Decode_encode _ _ written]
  rfl

theorem av1Leb128_round_trip {mb : Mbuf} {a : Nat} {xs : List UInt8} (h : Frame mb a xs)
    (at_ : mb.pos = mb.end_) (v : UInt64) (small : v.toNat < 2 ^ 56) :
    av1Leb128Decode ((av1Leb128Encode mb v).setPos mb.pos) = .ok (v, av1Leb128Encode mb v) := by
  obtain ⟨frame, ends⟩ := av1Leb128Encode_frame h at_ v
  have short : (Leb128.encode v.toNat).length ≤ 8 := Leb128.length_encode_le (k := 7) (by simpa using small)
  have whole : mb.pos + (Leb128.encode v.toNat).length = (av1Leb128Encode mb v).pos := by
    rw [ends, frame.ends, List.length_append, at_, h.ends, Nat.add_assoc]
  rw [av1Leb128Decode_written h at_ v, Nat.mod_eq_of_lt small, Nat.min_eq_right short, whole,
    setPos_self, UInt64.ofNat_toNat]

theorem av1_leb128_decode_drops_high_bits {mb : Mbuf} {a : Nat} {xs : List UInt8} (h : Frame mb a xs)
    (at_ : mb.pos = mb.end_) (v : UInt64) (large : 2 ^ 56 ≤ v.toNat) :
    av1Leb128Decode ((av1Leb128Encode mb v).setPos mb.pos) =
        .ok (UInt64.ofNat (v.toNat % 2 ^ 56), (av1Leb128Encode mb v).setPos (mb.pos + 8)) ∧
      UInt64.ofNat (v.toNat % 2 ^ 56) ≠ v ∧ mb.pos + 8 < (av1Leb128Encode mb v).end_ := by
  obtain ⟨frame, -⟩ := av1Leb128Encode_frame h at_ v
  have long : 8 < (Leb128.encode v.toNat).length := Leb128.lt_length_encode (by simpa using large)
  refine ⟨?_, ?_, ?_⟩
  · rw [av1Leb128Decode_written h at_ v, Nat.min_eq_left long.le]
  · intro same
    have low := congrArg UInt64.toNat same
    rw [UInt64.toNat_ofNat'] at low
    omega
  · rw [frame.ends, List.length_append, at_, h.ends]
    omega

theorem av1_leb128_decode_drops_high_bits_at_two_pow :
    av1Leb128Decode ((av1Leb128Encode (alloc 0) (2 ^ 56)).setPos 0) =
        .ok (0, (av1Leb128Encode (alloc 0) (2 ^ 56)).setPos 8) ∧
      (0 : UInt64) ≠ 2 ^ 56 ∧ 8 < (av1Leb128Encode (alloc 0) (2 ^ 56)).end_ := by
  have bug := av1_leb128_decode_drops_high_bits (frame_alloc 0) rfl (2 ^ 56) (by decide)
  have zero : UInt64.ofNat ((2 ^ 56 : UInt64).toNat % 2 ^ 56) = 0 := by decide
  rw [zero, alloc_pos] at bug
  exact bug

/-! ## Headers and the count -/

theorem readOn_leb128DecodeLoop {mb mb' : Mbuf} {i : Nat} {ret v : UInt64}
    (h : leb128DecodeLoop mb i ret = .ok (v, mb')) : ReadOn mb mb' := by
  fun_induction leb128DecodeLoop mb i ret with
  | case1 => cases h
  | case2 mb i ret lt enough byte ret' stop =>
    obtain ⟨-, rfl⟩ := Prod.mk.inj (Except.ok.inj h)
    exact readOn_readU8 mb
  | case3 mb i ret lt enough byte ret' more ih => exact (readOn_readU8 mb).trans (ih h)
  | case4 => cases h; exact ReadOn.refl _

theorem av1ObuDecode_ok {mb mb' : Mbuf} {hdr : ObuHdr} (h : av1ObuDecode mb = .ok (hdr, mb')) :
    1 ≤ mb.getLeft ∧ ReadOn (mb.advance 1) mb' ∧ hdr.size ≤ mb'.getLeft := by
  unfold av1ObuDecode at h
  dsimp only at h
  split_ifs at h with short f type x s
  · split at h
    · cases h
    · next size next dec =>
      split_ifs at h with big
      obtain ⟨rfl, rfl⟩ := Prod.mk.inj (Except.ok.inj h)
      have read := readOn_leb128DecodeLoop dec
      rw [readU8_snd_of_le mb (by omega)] at read
      exact ⟨by omega, read, by simpa using big⟩
  · obtain ⟨rfl, rfl⟩ := Prod.mk.inj (Except.ok.inj h)
    rw [readU8_snd_of_le mb (by omega)]
    exact ⟨by omega, ReadOn.refl _, le_refl _⟩

theorem av1ObuDecode_progress {mb mb' : Mbuf} {hdr : ObuHdr} (h : av1ObuDecode mb = .ok (hdr, mb')) :
    (mb'.advance hdr.size).getLeft < mb.getLeft := by
  obtain ⟨one, read, fits⟩ := av1ObuDecode_ok h
  have forward := read.forward
  have ends := read.ends
  simp only [getLeft, advance_pos, advance_end] at *
  omega

-- The loop of `av1_obu_count`; it ends because each decoded OBU moves the position on.
def countLoop (wrap : Mbuf) (count : UInt32) : UInt32 :=
  if wrap.getLeft > 1 then
    match h : av1ObuDecode wrap with
    | .error _ => 0
    | .ok (hdr, next) => countLoop (next.advance hdr.size) (count + 1)
  else count
termination_by wrap.getLeft
decreasing_by exact av1ObuDecode_progress h

def av1ObuCount (buf : List UInt8) : UInt32 := countLoop ⟨buf, 0, buf.length⟩ 0

theorem obuHeader_fields {type : UInt8} (lt : type.toNat < 16) (has_size : Bool) :
    (obuHeader type has_size >>> 7) &&& 0x1 = 0 ∧ (obuHeader type has_size >>> 3) &&& 0xf = type ∧
      (obuHeader type has_size >>> 2) &&& 0x1 = 0 ∧
      ((obuHeader type has_size >>> 1) &&& 0x1 = 1 ↔ has_size = true) := by
  have nibble : ∀ (k : Fin 16) (s : Bool),
      (obuHeader (UInt8.ofNat k) s >>> 7) &&& 0x1 = 0 ∧
        (obuHeader (UInt8.ofNat k) s >>> 3) &&& 0xf = UInt8.ofNat k ∧
        (obuHeader (UInt8.ofNat k) s >>> 2) &&& 0x1 = 0 ∧
        ((obuHeader (UInt8.ofNat k) s >>> 1) &&& 0x1 = 1 ↔ s = true) := by
    decide
  simpa using nibble ⟨type.toNat, lt⟩ has_size

structure Obu where
  type : UInt8
  payload : List UInt8

-- What `av1_obu_encode` writes for an OBU with its size field.
def obuBytes (obu : Obu) : List UInt8 :=
  obuHeader obu.type true :: Leb128.encode obu.payload.length ++ obu.payload

theorem av1ObuDecode_obuBytes {zs : List UInt8} {mb : Mbuf} {obu : Obu}
    (h : Frame mb mb.pos (obuBytes obu ++ zs)) (type : 0 < obu.type.toNat ∧ obu.type.toNat < 16)
    (small : obu.payload.length < 2 ^ 56) :
    av1ObuDecode mb = .ok (⟨obu.type, false, true, obu.payload.length⟩,
      mb.advance (1 + (Leb128.encode obu.payload.length).length)) := by
  have left := h.getLeft_eq
  have read : mb.readU8 = (obuHeader obu.type true, mb.advance 1) := by
    simpa [obuBytes] using h.readU8_framed (i := 0) (by simp [obuBytes])
  obtain ⟨f, t, x, s⟩ := obuHeader_fields type.2 true
  have rest : Frame (mb.advance 1) (mb.advance 1).pos
      (Leb128.encode obu.payload.length ++ (obu.payload ++ zs)) :=
    (frame_advance 1).mpr (by simpa [obuBytes] using @Frame.suffix mb mb.pos [_] _ (by simpa [obuBytes] using h))
  have short : (Leb128.encode obu.payload.length).length ≤ 8 :=
    Leb128.length_encode_le (k := 7) (by simpa using small)
  have size := av1Leb128Decode_encode _ _ rest
  rw [Nat.mod_eq_of_lt small, Nat.min_eq_right short, advance_advance] at size
  have type0 : obu.type ≠ 0 := fun zero => by simp [zero] at type
  simp only [obuBytes, List.cons_append, List.length_cons, List.length_append] at left
  have room : obu.payload.length ≤ (mb.advance (1 + (Leb128.encode obu.payload.length).length)).getLeft := by
    simp only [getLeft, advance_pos, advance_end] at left ⊢
    omega
  have word : (UInt64.ofNat obu.payload.length).toNat = obu.payload.length := by
    rw [UInt64.toNat_ofNat']
    omega
  unfold av1ObuDecode
  simp only [read, f, t, x, s.mpr rfl, type0, size, word, Nat.not_lt.mpr room]
  simp [left]

theorem countLoop_obuBytes (obus : List Obu)
    (valid : ∀ obu ∈ obus, 0 < obu.type.toNat ∧ obu.type.toNat < 16 ∧ obu.payload.length < 2 ^ 56)
    {mb : Mbuf} (h : Frame mb mb.pos (obus.flatMap obuBytes)) (count : UInt32) :
    countLoop mb count = count + UInt32.ofNat obus.length := by
  induction obus generalizing mb count with
  | nil =>
    have left := h.getLeft_eq
    rw [countLoop, if_neg (by simp at left; omega)]
    simp
  | cons obu rest ih =>
    obtain ⟨type, type', small⟩ := valid obu (by simp)
    have whole : Frame mb mb.pos (obuBytes obu ++ rest.flatMap obuBytes) := by simpa using h
    have dec := av1ObuDecode_obuBytes whole ⟨type, type'⟩ small
    have left := whole.getLeft_eq
    have next : Frame (mb.advance (1 + (Leb128.encode obu.payload.length).length + obu.payload.length))
        (mb.advance (1 + (Leb128.encode obu.payload.length).length + obu.payload.length)).pos
        (rest.flatMap obuBytes) := by
      rw [frame_advance]
      simpa [obuBytes, Nat.add_assoc, Nat.add_comm] using whole.suffix
    have group := Leb128.length_encode_pos obu.payload.length
    simp only [obuBytes, List.length_append, List.length_cons] at left
    rw [countLoop, if_pos (by omega)]
    split
    · next e fails => simp [dec] at fails
    · next hdr next' decoded =>
      rw [dec] at decoded
      obtain ⟨rfl, rfl⟩ := Prod.mk.inj (Except.ok.inj decoded.symm)
      rw [advance_advance, ih (fun o mem => valid o (by simp [mem])) next, List.length_cons]
      simp [add_assoc, add_comm]

theorem av1ObuCount_obuBytes (obus : List Obu)
    (valid : ∀ obu ∈ obus, 0 < obu.type.toNat ∧ obu.type.toNat < 16 ∧ obu.payload.length < 2 ^ 56) :
    av1ObuCount (obus.flatMap obuBytes) = UInt32.ofNat obus.length := by
  simpa [av1ObuCount] using countLoop_obuBytes obus valid (frame_self _) 0

-- A witness: a sequence header with two bytes, then an empty padding OBU.
theorem av1ObuCount_obuBytes_two :
    av1ObuCount ([⟨1, [1, 2]⟩, ⟨15, []⟩].flatMap obuBytes) = UInt32.ofNat [(⟨1, [1, 2]⟩ : Obu), ⟨15, []⟩].length :=
  av1ObuCount_obuBytes _ (by decide)

end Libre.Av1
