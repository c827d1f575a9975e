import Libre.Mbuf.Buffer

set_option autoImplicit false

/-!
# FU-A headers

`h264_fu_hdr_encode` and `h264_fu_hdr_decode` from `h264/nal.c`: the start, end and reserved bits
and the five-bit NAL unit type of a fragmentation unit, in one byte. The encoder shifts the start
bit into both bit 7 and bit 6, so the end bit is never written and a decoded header carries the
start bit in its place (`h264_fu_hdr_decode_encode`).
-/

namespace Libre.H264

open Mbuf

-- `struct h264_fu`: three one-bit fields and a five-bit one.
structure H264Fu where
  s : Bool
  e : Bool
  r : Bool
  type : Fin 32
  deriving DecidableEq, Repr

-- A one-bit field as the integer C shifts.
def bit (b : Bool) : UInt8 := if b then 1 else 0

def h264FuHdrEncode (fu : H264Fu) (mb : Mbuf) : Mbuf :=
  mb.writeU8 (bit fu.s <<< 7 ||| bit fu.s <<< 6 ||| bit fu.r <<< 5 ||| UInt8.ofNat fu.type.val)

def h264FuHdrDecode (mb : Mbuf) : Except Errno (H264Fu × Mbuf) :=
  if mb.getLeft < 1 then .error .ENOENT
  else
    let v := mb.readU8
    .ok (⟨v.1 >>> 7 &&& 0x1 = 1, v.1 >>> 6 &&& 0x1 = 1, v.1 >>> 5 &&& 0x1 = 1,
      Fin.ofNat 32 (v.1 >>> 0 &&& 0x1f).toNat⟩, v.2)

-- The fields read back from an encoded byte; thirty-two types and the two bits that are written.
theorem fuByte_fields (s r : Bool) (type : Fin 32) :
    let v := bit s <<< 7 ||| bit s <<< 6 ||| bit r <<< 5 ||| UInt8.ofNat type.val
    (v >>> 7 &&& 0x1 = 1 ↔ s = true) ∧ (v >>> 6 &&& 0x1 = 1 ↔ s = true) ∧
      (v >>> 5 &&& 0x1 = 1 ↔ r = true) ∧ Fin.ofNat 32 (v >>> 0 &&& 0x1f).toNat = type := by
  revert s r type
  decide

theorem h264_fu_hdr_decode_encode {mb : Mbuf} {a : Nat} {xs : List UInt8} (h : Frame mb a xs)
    (at_ : mb.pos = mb.end_) (fu : H264Fu) :
    h264FuHdrDecode ((h264FuHdrEncode fu mb).setPos mb.pos) =
      .ok ({ fu with e := fu.s }, h264FuHdrEncode fu mb) := by
  have written : Frame (h264FuHdrEncode fu mb) a
      (xs ++ [bit fu.s <<< 7 ||| bit fu.s <<< 6 ||| bit fu.r <<< 5 ||| UInt8.ofNat fu.type.val] ++ []) := by
    simpa [h264FuHdrEncode, writeU8] using h.writeMem_end at_ _
  have start : ((h264FuHdrEncode fu mb).setPos mb.pos).pos = a + xs.length := by
    rw [setPos_pos, at_, h.ends]
  have read := ((frame_setPos mb.pos).mpr written).readU8_at start
  have ends : mb.pos + 1 = (h264FuHdrEncode fu mb).pos := by simp [h264FuHdrEncode, writeU8]
  obtain ⟨s, e, r, type⟩ := fuByte_fields fu.s fu.r fu.type
  have left : 1 ≤ ((h264FuHdrEncode fu mb).setPos mb.pos).getLeft := by
    have := ((frame_setPos mb.pos).mpr written).lt_end
    simp only [getLeft, setPos_pos, setPos_end] at this ⊢
    rw [at_, h.ends]
    omega
  rw [h264FuHdrDecode, if_neg (by omega)]
  simp only [read, advance, setPos_pos, ends]
  simp only [s, e, r, type, Bool.decide_eq_true]
  rfl

theorem h264_fu_hdr_decode_encode_end :
    h264FuHdrDecode ((h264FuHdrEncode ⟨false, true, false, 0⟩ (alloc 0)).setPos 0) =
      .ok (⟨false, false, false, 0⟩, h264FuHdrEncode ⟨false, true, false, 0⟩ (alloc 0)) :=
  h264_fu_hdr_decode_encode (frame_alloc 0) rfl ⟨false, true, false, 0⟩

end Libre.H264
