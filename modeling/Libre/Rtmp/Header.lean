import Libre.Mbuf.Buffer

set_option autoImplicit false

/-!
# RTMP chunk headers

`rtmp_header_decode` from `rtmp/hdr.c`: the basic header (format and chunk stream id, in one,
two or three bytes), the message header of the format (eleven, seven, three or no bytes), and the
extended timestamp that follows when a 24-bit timestamp field holds `TIMESTAMP_24MAX`.
The decoder starts from a zeroed header (`memset`), so fields the format does not carry are zero.
-/

namespace Libre.Rtmp

open BigEndian Mbuf

def RTMP_CHUNK_OFFSET : UInt32 := 64
def TIMESTAMP_24MAX : UInt32 := 0x00ffffff

-- `timestamp_ext` is written only by the encoder and is left out.
structure RtmpHeader where
  format : Fin 4
  chunk_id : UInt32
  timestamp : UInt32
  timestamp_delta : UInt32
  length : UInt32
  type_id : UInt8
  stream_id : UInt32
  ext_ts : Bool
  deriving DecidableEq, Repr

-- The format is two bits: one instance serves the format literals of the whole namespace.
scoped instance formatNeZero : NeZero (4 : Nat) := ⟨by decide⟩

def zeroHeader : RtmpHeader := ⟨0, 0, 0, 0, 0, 0, 0, false⟩

-- `mbuf_read_u24_ntoh` of three bytes
def u24 (b0 b1 b2 : UInt8) : UInt32 := b0.toUInt32 <<< 16 ||| b1.toUInt32 <<< 8 ||| b2.toUInt32

def readU24 (mb : Mbuf) : UInt32 × Mbuf :=
  let hi := mb.readU8
  let mid := hi.2.readU8
  let lo := mid.2.readU8
  (u24 hi.1 mid.1 lo.1, lo.2)

-- `sys_ltohl(mbuf_read_u32(mb))`: the stream id is the one little-endian field
def readU32Le (mb : Mbuf) : UInt32 × Mbuf :=
  match mb.readMem 4 with
  | .ok (bytes, mb) => (UInt32.ofNat (netValue bytes.reverse), mb)
  | .error _ => (0, mb)

def decodeBasicHdr (hdr : RtmpHeader) (mb : Mbuf) : Except Errno (RtmpHeader × Mbuf) :=
  if mb.getLeft < 1 then .error .ENODATA
  else
    let v := mb.readU8
    -- the two-bit field keeps the top two bits
    let hdr := { hdr with format := Fin.ofNat 4 (v.1 >>> 6).toNat }
    let cs_id := v.1 &&& 0x3f
    if cs_id = 0 then
      if v.2.getLeft < 1 then .error .ENODATA
      else
        let id := v.2.readU8
        .ok ({ hdr with chunk_id := id.1.toUInt32 + RTMP_CHUNK_OFFSET }, id.2)
    else if cs_id = 1 then
      if v.2.getLeft < 2 then .error .ENODATA
      else
        let id := v.2.readU16
        .ok ({ hdr with chunk_id := id.1.toUInt32 + RTMP_CHUNK_OFFSET }, id.2)
    else .ok ({ hdr with chunk_id := cs_id.toUInt32 }, v.2)

-- The `switch (hdr->format)` of `rtmp_header_decode`.
def decodeMsgHdr (hdr : RtmpHeader) (mb : Mbuf) : Except Errno (RtmpHeader × Mbuf) :=
  if hdr.format = 0 then
    if mb.getLeft < 11 then .error .ENODATA
    else
      let timestamp := readU24 mb
      let length := readU24 timestamp.2
      let type_id := length.2.readU8
      let stream_id := readU32Le type_id.2
      .ok ({ hdr with
        timestamp := timestamp.1, length := length.1, type_id := type_id.1, stream_id := stream_id.1 },
        stream_id.2)
  else if hdr.format = 1 then
    if mb.getLeft < 7 then .error .ENODATA
    else
      let timestamp_delta := readU24 mb
      let length := readU24 timestamp_delta.2
      let type_id := length.2.readU8
      .ok ({ hdr with timestamp_delta := timestamp_delta.1, length := length.1, type_id := type_id.1 },
        type_id.2)
  else if hdr.format = 2 then
    if mb.getLeft < 3 then .error .ENODATA
    else
      let timestamp_delta := readU24 mb
      .ok ({ hdr with timestamp_delta := timestamp_delta.1 }, timestamp_delta.2)
  else .ok (hdr, mb)

-- The extended timestamp replaces the absolute timestamp if that is the marked one, else the delta.
def decodeExtTs (hdr : RtmpHeader) (mb : Mbuf) : Except Errno (RtmpHeader × Mbuf) :=
  if hdr.timestamp = TIMESTAMP_24MAX then
    if mb.getLeft < 4 then .error .ENODATA
    else .ok ({ hdr with timestamp := mb.readU32.1, ext_ts := true }, mb.readU32.2)
  else if hdr.timestamp_delta = TIMESTAMP_24MAX then
    if mb.getLeft < 4 then .error .ENODATA
    else .ok ({ hdr with timestamp_delta := mb.readU32.1, ext_ts := true }, mb.readU32.2)
  else .ok (hdr, mb)

def rtmpHeaderDecode (mb : Mbuf) : Except Errno (RtmpHeader × Mbuf) :=
  match decodeBasicHdr zeroHeader mb with
  | .error e => .error e
  | .ok (hdr, mb) =>
    match decodeMsgHdr hdr mb with
    | .error e => .error e
    | .ok (hdr, mb) => decodeExtTs hdr mb

/-! ## Headers framed in the buffer -/

section Framing

variable {mb : Mbuf} {xs zs : List UInt8}

theorem readU24_framed (h : Frame mb mb.pos (xs ++ zs)) {i : Nat} (lt : i + 2 < xs.length) :
    readU24 (mb.advance i) = (u24 xs[i] xs[i + 1] xs[i + 2], mb.advance (i + 3)) := by
  simp [readU24, h.readU8_framed (i := i) (by omega), h.readU8_framed (i := i + 1) (by omega),
    h.readU8_framed lt, Nat.add_assoc]

theorem readU32Le_framed (h : Frame mb mb.pos (xs ++ zs)) {i : Nat} (fits : i + 4 ≤ xs.length) :
    readU32Le (mb.advance i) =
      (UInt32.ofNat (netValue ((xs.drop i).take 4).reverse), mb.advance (i + 4)) := by
  simp [readU32Le, h.readMem_framed fits]

theorem decodeBasicHdr_fmt0 {cs : UInt8} (id : 2 ≤ cs.toNat ∧ cs.toNat < 64) (hdr : RtmpHeader)
    (h : Frame mb mb.pos ([cs] ++ zs)) :
    decodeBasicHdr hdr mb = .ok ({ hdr with format := 0, chunk_id := cs.toUInt32 }, mb.advance 1) := by
  have left := h.getLeft_eq
  have read : mb.readU8 = (cs, mb.advance 1) := by simpa using h.readU8_framed (i := 0) (by simp)
  have top : (cs >>> 6).toNat = 0 := by
    rw [UInt8.toNat_shiftRight]
    simp only [UInt8.reduceToNat, Nat.reduceMod, Nat.shiftRight_eq_div_pow]
    omega
  have low : cs &&& 0x3f = cs := by
    apply UInt8.toNat_inj.mp
    rw [UInt8.toNat_and, show (0x3f : UInt8).toNat = 2 ^ 6 - 1 by rfl, Nat.and_two_pow_sub_one_eq_mod]
    omega
  have notZero : cs ≠ 0 := fun zero => by simp [zero] at id
  have notOne : cs ≠ 1 := fun one => by simp [one] at id
  simp only [List.length_append, List.length_singleton] at left
  simp [decodeBasicHdr, left, read, top, low, notZero, notOne]

theorem decodeMsgHdr_fmt0 {t0 t1 t2 l0 l1 l2 type_id s0 s1 s2 s3 : UInt8} {hdr : RtmpHeader}
    (fmt : hdr.format = 0) (h : Frame mb mb.pos ([t0, t1, t2, l0, l1, l2, type_id, s0, s1, s2, s3] ++ zs)) :
    decodeMsgHdr hdr mb = .ok ({ hdr with
      timestamp := u24 t0 t1 t2, length := u24 l0 l1 l2, type_id := type_id,
      stream_id := UInt32.ofNat (netValue [s3, s2, s1, s0]) }, mb.advance 11) := by
  have left := h.getLeft_eq
  have timestamp := readU24_framed h (i := 0) (by simp)
  have length := readU24_framed h (i := 3) (by simp)
  have type := h.readU8_framed (i := 6) (by simp)
  have stream := readU32Le_framed h (i := 7) (by simp)
  simp only [advance_zero] at timestamp
  simp only [List.length_append, List.length_cons, List.length_nil] at left
  simp [decodeMsgHdr, fmt, left, timestamp, length, type, stream]

theorem decodeExtTs_plain {hdr : RtmpHeader} (plain : hdr.timestamp ≠ TIMESTAMP_24MAX)
    (plainDelta : hdr.timestamp_delta ≠ TIMESTAMP_24MAX) : decodeExtTs hdr mb = .ok (hdr, mb) := by
  simp [decodeExtTs, plain, plainDelta]

theorem rtmpHeaderDecode_fmt0 {cs t0 t1 t2 l0 l1 l2 type_id s0 s1 s2 s3 : UInt8}
    (id : 2 ≤ cs.toNat ∧ cs.toNat < 64) (plain : u24 t0 t1 t2 ≠ TIMESTAMP_24MAX)
    (h : Frame mb mb.pos ([cs, t0, t1, t2, l0, l1, l2, type_id, s0, s1, s2, s3] ++ zs)) :
    rtmpHeaderDecode mb = .ok (⟨0, cs.toUInt32, u24 t0 t1 t2, 0, u24 l0 l1 l2, type_id,
      UInt32.ofNat (netValue [s3, s2, s1, s0]), false⟩, mb.advance 12) := by
  have basic := decodeBasicHdr_fmt0 id zeroHeader
    (show Frame mb mb.pos ([cs] ++ ([t0, t1, t2, l0, l1, l2, type_id, s0, s1, s2, s3] ++ zs)) by
      simpa using h)
  have body : Frame (mb.advance 1) (mb.advance 1).pos
      ([t0, t1, t2, l0, l1, l2, type_id, s0, s1, s2, s3] ++ zs) :=
    (frame_advance 1).mpr (by simpa using @Frame.suffix mb mb.pos [cs] _ (by simpa using h))
  rw [rtmpHeaderDecode, basic]
  simp only
  rw [decodeMsgHdr_fmt0 rfl body]
  simp only
  rw [decodeExtTs_plain plain (by simp [zeroHeader, TIMESTAMP_24MAX]), advance_advance]
  rfl

end Framing

end Libre.Rtmp
