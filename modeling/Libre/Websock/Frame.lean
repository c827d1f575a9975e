import Libre.Mbuf.Buffer

set_option autoImplicit false

/-!
# WebSocket frames

`websock_encode`, `websock_decode` and the body of `websock_vsend` from `websock/websock.c`; the
masking key is a parameter. The sender writes the RFC 6455 layout `frameWire`
(`websockFrame_wire`), and the decoder reads it back (`websockDecode_wire`) and asks for more on
any proper prefix (`websockDecode_part`). A write outside the buffer's memory is `none`.
-/

namespace Libre.Websock

open BigEndian Mbuf

def WEBSOCK_CONT : UInt8 := 0x0
def WEBSOCK_TEXT : UInt8 := 0x1
def WEBSOCK_BIN : UInt8 := 0x2
def WEBSOCK_CLOSE : UInt8 := 0x8
def WEBSOCK_PING : UInt8 := 0x9
def WEBSOCK_PONG : UInt8 := 0xa

structure WebsockHdr where
  fin : Bool
  rsv1 : Bool
  rsv2 : Bool
  rsv3 : Bool
  opcode : UInt8
  mask : Bool
  len : UInt64
  mkey : Vector UInt8 4
  deriving DecidableEq, Repr

/-- The loop `p[i] = p[i] ^ mkey[i%4]`, which masks at the sender and unmasks at the receiver. -/
def xorKey (mkey : Vector UInt8 4) (bs : List UInt8) : List UInt8 :=
  bs.mapIdx fun i b => b ^^^ mkey.get ⟨i % 4, Nat.mod_lt _ (by decide)⟩

/-- The masking loop run in place over the `len` bytes at the position, which must lie in the
buffer's memory. -/
def applyMask (mb : Mbuf) (mkey : Vector UInt8 4) (len : Nat) : Option Mbuf :=
  if mb.pos + len ≤ mb.size then
    some (mb.overwrite mb.pos (xorKey mkey (mb.buf.extract mb.pos (mb.pos + len))))
  else none

def websockEncode (mb : Mbuf) (fin : Bool) (opcode : UInt8) (mask : Bool) (len : Nat)
    (mkey : Vector UInt8 4) : Option Mbuf :=
  let m : UInt8 := if mask then 0x80 else 0
  let mb := mb.writeU8 ((if fin then 0x80 else 0) ||| (opcode &&& 0x0f))
  let mb :=
    if len > 0xffff then (mb.writeU8 (m ||| 127)).writeU64 (UInt64.ofNat len)
    else if len > 125 then (mb.writeU8 (m ||| 126)).writeU16 (UInt16.ofNat len)
    else mb.writeU8 (m ||| UInt8.ofNat len)
  if mask then applyMask (mb.writeMem mkey.toList) mkey len else some mb

/-- What `websock_vsend` hands to `tcp_send`, with the `fin` bit a parameter (`websock_vsend`
itself always sets it). The payload is what `mbuf_vprintf` writes after the status code. -/
def websockFrame (active fin : Bool) (opcode : UInt8) (scode : UInt16) (payload : List UInt8)
    (mkey : Vector UInt8 4) : Option (List UInt8) :=
  let hsz := if active then 14 else 10
  let mb := (alloc 2048).setPos hsz
  let mb := if scode ≠ 0 then mb.writeU16 scode else mb
  let mb := mb.writeMem payload
  let len := mb.pos - hsz
  let start := if len > 0xffff then 0 else if len > 125 then 6 else 8
  (websockEncode (mb.setPos start) fin opcode active len mkey).map fun mb => (mb.setPos start).left

/-- The 126 and 127 escapes of the 7-bit length. -/
def decodeLen (hdr : WebsockHdr) (mb : Mbuf) : Except Errno WebsockHdr × Mbuf :=
  if hdr.len = 126 then
    if mb.getLeft < 2 then (.error .ENODATA, mb) else
    let (len, mb) := mb.readU16
    (.ok { hdr with len := len.toUInt64 }, mb)
  else if hdr.len = 127 then
    if mb.getLeft < 8 then (.error .ENODATA, mb) else
    let (len, mb) := mb.readU64
    (.ok { hdr with len := len }, mb)
  else (.ok hdr, mb)

def decodeMask (hdr : WebsockHdr) (mb : Mbuf) : Option (Except Errno WebsockHdr × Mbuf) :=
  if hdr.mask then
    -- `4 + hdr->len` is a sum of 64-bit words
    if mb.getLeft < (4 + hdr.len).toNat then some (.error .ENODATA, mb) else
    let (k0, mb) := mb.readU8
    let (k1, mb) := mb.readU8
    let (k2, mb) := mb.readU8
    let (k3, mb) := mb.readU8
    let mkey : Vector UInt8 4 := #v[k0, k1, k2, k3]
    (applyMask mb mkey hdr.len.toNat).map fun mb => (.ok { hdr with mkey := mkey }, mb)
  else if mb.getLeft < hdr.len.toNat then some (.error .ENODATA, mb)
  else some (.ok hdr, mb)

/-- The header as the first two bytes give it; the key is left as it was (zero here). -/
def firstBytes (v w : UInt8) : WebsockHdr :=
  { fin := v >>> 7 &&& 1 = 1, rsv1 := v >>> 6 &&& 1 = 1, rsv2 := v >>> 5 &&& 1 = 1,
    rsv3 := v >>> 4 &&& 1 = 1, opcode := v &&& 0x0f, mask := w >>> 7 &&& 1 = 1,
    len := (w &&& 0x7f).toUInt64, mkey := #v[0, 0, 0, 0] }

def websockDecode (mb : Mbuf) : Option (Except Errno WebsockHdr × Mbuf) :=
  if mb.getLeft < 2 then some (.error .ENODATA, mb) else
  let (v, mb) := mb.readU8
  let (w, mb) := mb.readU8
  match decodeLen (firstBytes v w) mb with
  | (.ok hdr, mb) => decodeMask hdr mb
  | (.error e, mb) => some (.error e, mb)

/-! ## The wire layout -/

def hdrBytes (fin : Bool) (opcode : UInt8) (mask : Bool) (len : Nat) : List UInt8 :=
  let m : UInt8 := if mask then 0x80 else 0
  ((if fin then 0x80 else 0) ||| (opcode &&& 0x0f)) ::
    if len > 0xffff then (m ||| 127) :: netBytes 8 len
    else if len > 125 then (m ||| 126) :: netBytes 2 len
    else [m ||| UInt8.ofNat len]

def frameWire (fin : Bool) (opcode : UInt8) (mask : Bool) (mkey : Vector UInt8 4)
    (payload : List UInt8) : List UInt8 :=
  hdrBytes fin opcode mask payload.length ++
    if mask then mkey.toList ++ xorKey mkey payload else payload

@[simp] theorem length_xorKey (mkey : Vector UInt8 4) (bs : List UInt8) :
    (xorKey mkey bs).length = bs.length := by
  simp [xorKey]

@[simp] theorem xorKey_xorKey (mkey : Vector UInt8 4) (bs : List UInt8) :
    xorKey mkey (xorKey mkey bs) = bs := by
  apply List.ext_getElem (by simp)
  intro i _ _
  simp [xorKey]

theorem length_hdrBytes (fin : Bool) (opcode : UInt8) (mask : Bool) (len : Nat) :
    (hdrBytes fin opcode mask len).length =
      if len > 0xffff then 10 else if len > 125 then 4 else 2 := by
  unfold hdrBytes
  split_ifs <;> simp

/-! ## Sending

`Staged`: the header bytes from `a` up to the position, and the payload from `b` on, as
`websock_vsend` lays them down. -/

section Send

structure Staged (mb : Mbuf) (a : Nat) (hd : List UInt8) (b : Nat) (pl : List UInt8) : Prop where
  head : HoldsAt mb.buf a hd
  at_ : mb.pos = a + hd.length
  below : a + hd.length ≤ b
  body : HoldsAt mb.buf b pl
  ends : mb.end_ = b + pl.length

variable {mb : Mbuf} {a b : Nat} {hd pl : List UInt8}

theorem Staged.write (h : Staged mb a hd b pl) (data : List UInt8)
    (room : a + hd.length + data.length ≤ b) : Staged (mb.writeMem data) a (hd ++ data) b pl := by
  have at_ := h.at_
  have ends := h.ends
  refine ⟨Mbuf.HoldsAt.writeMem_next h.head at_ data, ?_, ?_,
    Mbuf.HoldsAt.writeMem_after h.body data (by omega), ?_⟩
  · simp [at_, Nat.add_assoc]
  · simpa [Nat.add_assoc] using room
  · simp only [Mbuf.writeMem_end, ends, at_]
    omega

theorem Staged.congr_hd {hd' : List UInt8} (h : Staged mb a hd b pl) (same : hd = hd') :
    Staged mb a hd' b pl :=
  same ▸ h

theorem Staged.frame (h : Staged mb a hd b pl) (full : a + hd.length = b) :
    Frame mb a (hd ++ pl) :=
  ⟨h.head.append (full ▸ h.body), by rw [h.ends, List.length_append, ← full, Nat.add_assoc]⟩

theorem Staged.applyMask (h : Staged mb a hd b pl) (full : a + hd.length = b) (mkey : Vector UInt8 4) :
    ∃ mb', Websock.applyMask mb mkey pl.length = some mb' ∧ Frame mb' a (hd ++ xorKey mkey pl) := by
  have at_ : mb.pos = b := h.at_.trans full
  have framed := h.frame full
  have inside : mb.pos + pl.length ≤ mb.size := by
    have within := framed.within
    rw [framed.ends, List.length_append] at within
    omega
  have masked := framed.overwrite_tail (xorKey mkey pl) (by simp)
  refine ⟨_, if_pos inside, ?_⟩
  rw [at_, h.body.bytes, ← full]
  exact masked

theorem Staged.finish (h : Staged mb a hd b pl) (mask : Bool) (mkey : Vector UInt8 4)
    (fits : a + hd.length + (if mask then 4 else 0) = b) :
    ∃ mb', (if mask then Websock.applyMask (mb.writeMem mkey.toList) mkey pl.length else some mb) = some mb' ∧
      Frame mb' a (hd ++ if mask then mkey.toList ++ xorKey mkey pl else pl) := by
  cases mask with
  | false => exact ⟨mb, rfl, by simpa using h.frame (by simpa using fits)⟩
  | true =>
    have keyed := h.write mkey.toList (by simp at fits ⊢; omega)
    obtain ⟨mb', masked, framed⟩ := keyed.applyMask (by simp at fits ⊢; omega) mkey
    exact ⟨mb', masked, by simpa using framed⟩

theorem websockEncode_frame (h : Staged mb a [] b pl) (fin : Bool) (opcode : UInt8) (mask : Bool)
    (mkey : Vector UInt8 4)
    (fits : a + (hdrBytes fin opcode mask pl.length).length + (if mask then 4 else 0) = b) :
    ∃ mb', websockEncode mb fin opcode mask pl.length mkey = some mb' ∧
      Frame mb' a (frameWire fin opcode mask mkey pl) := by
  have room := fits
  rw [length_hdrBytes] at room
  have key : (if mask then 4 else 0) ≤ 4 := by split <;> omega
  have b0 := h.write [(if fin then 0x80 else 0) ||| (opcode &&& 0x0f)]
    (by split_ifs at room <;> simp <;> omega)
  have field : Staged
      (if pl.length > 0xffff then
          ((mb.writeU8 ((if fin then 0x80 else 0) ||| (opcode &&& 0x0f))).writeU8
            ((if mask then 0x80 else 0) ||| 127)).writeU64 (UInt64.ofNat pl.length)
        else if pl.length > 125 then
          ((mb.writeU8 ((if fin then 0x80 else 0) ||| (opcode &&& 0x0f))).writeU8
            ((if mask then 0x80 else 0) ||| 126)).writeU16 (UInt16.ofNat pl.length)
        else (mb.writeU8 ((if fin then 0x80 else 0) ||| (opcode &&& 0x0f))).writeU8
            ((if mask then 0x80 else 0) ||| UInt8.ofNat pl.length))
      a (hdrBytes fin opcode mask pl.length) b pl := by
    by_cases big : pl.length > 0xffff
    · have code := (b0.write [(if mask then 0x80 else 0) ||| 127] (by simp [big] at room ⊢; omega)).write
        (netBytes 8 (UInt64.ofNat pl.length).toNat) (by simp [big] at room ⊢; omega)
      rw [if_pos big]
      refine code.congr_hd ?_
      rw [netBytes_uint64]
      simp [hdrBytes, big]
    by_cases mid : pl.length > 125
    · have code := (b0.write [(if mask then 0x80 else 0) ||| 126] (by simp [big, mid] at room ⊢; omega)).write
        (netBytes 2 (UInt16.ofNat pl.length).toNat) (by simp [big, mid] at room ⊢; omega)
      rw [if_neg big, if_pos mid]
      refine code.congr_hd ?_
      rw [netBytes_uint16]
      simp [hdrBytes, big, mid]
    · have code := b0.write [(if mask then 0x80 else 0) ||| UInt8.ofNat pl.length]
        (by simp [big, mid] at room ⊢; omega)
      rw [if_neg big, if_neg mid]
      refine code.congr_hd ?_
      simp [hdrBytes, big, mid]
  exact field.finish mask mkey fits

theorem websockEncode_headroom (hsz start : Nat) (fin : Bool) (opcode : UInt8) (mask : Bool)
    (mkey : Vector UInt8 4) (payload : List UInt8) (room : hsz ≤ 2048)
    (fits : start + (hdrBytes fin opcode mask payload.length).length + (if mask then 4 else 0) = hsz) :
    let mb := ((alloc 2048).setPos hsz).writeMem payload
    (websockEncode (mb.setPos start) fin opcode mask payload.length mkey).map (fun mb => (mb.setPos start).left) =
      some (frameWire fin opcode mask mkey payload) := by
  intro mb
  have size : 2048 ≤ mb.size := by
    have grows := (writeMem_size ((alloc 2048).setPos hsz) payload).1
    rwa [size_setPos, size_alloc] at grows
  have staged : Staged (mb.setPos start) start [] hsz payload :=
    ⟨⟨le_trans (by simp only [List.length_nil]; omega) size, by simp⟩, by simp, by simp; omega,
      holdsAt_writeMem _ payload, by simp [mb]⟩
  obtain ⟨mb', encoded, framed⟩ := websockEncode_frame staged fin opcode mask mkey (by simpa using fits)
  rw [encoded, Option.map_some]
  exact congrArg some (((frame_setPos start).mpr framed).left rfl)

/-- `websock_vsend`'s bytes for a frame without a status code are the RFC 6455 layout. -/
theorem websockFrame_wire (active fin : Bool) (opcode : UInt8) (payload : List UInt8)
    (mkey : Vector UInt8 4) :
    websockFrame active fin opcode 0 payload mkey = some (frameWire fin opcode active mkey payload) := by
  have len : (((alloc 2048).setPos (if active then 14 else 10)).writeMem payload).pos -
      (if active then 14 else 10) = payload.length := by simp
  unfold websockFrame
  simp only [ne_eq, not_true_eq_false, if_false, len]
  apply websockEncode_headroom _ _ _ _ _ _ _ (by split <;> omega)
  rw [length_hdrBytes]
  split_ifs <;> omega

end Send

/-! ## Receiving -/

section Receive

set_option maxRecDepth 20000 in
private theorem firstByteTable : ∀ (i : Fin 16) (fin : Bool),
    let v : UInt8 := (if fin then 0x80 else 0) ||| UInt8.ofNat i.val
    ((v >>> 7 &&& 1 = 1 : Bool) = fin) ∧ (v >>> 6 &&& 1 = 1 : Bool) = false ∧
      (v >>> 5 &&& 1 = 1 : Bool) = false ∧ (v >>> 4 &&& 1 = 1 : Bool) = false ∧
      v &&& 0x0f = UInt8.ofNat i.val := by
  decide

set_option maxRecDepth 20000 in
private theorem secondByteTable : ∀ (i : Fin 128) (mask : Bool),
    let w : UInt8 := (if mask then 0x80 else 0) ||| UInt8.ofNat i.val
    ((w >>> 7 &&& 1 = 1 : Bool) = mask) ∧ w &&& 0x7f = UInt8.ofNat i.val := by
  decide

theorem firstBytes_hdrBytes (fin : Bool) (opcode : UInt8) (mask : Bool) (code : UInt8)
    (hc : code.toNat < 128) :
    firstBytes ((if fin then 0x80 else 0) ||| (opcode &&& 0x0f)) ((if mask then 0x80 else 0) ||| code) =
      { fin := fin, rsv1 := false, rsv2 := false, rsv3 := false, opcode := opcode &&& 0x0f,
        mask := mask, len := code.toUInt64, mkey := #v[0, 0, 0, 0] } := by
  have low : (opcode &&& 0x0f).toNat < 16 := by
    rw [UInt8.toNat_and]
    exact lt_of_le_of_lt Nat.and_le_right (by decide)
  obtain ⟨f7, f6, f5, f4, op⟩ := firstByteTable ⟨_, low⟩ fin
  obtain ⟨m7, len⟩ := secondByteTable ⟨_, hc⟩ mask
  simp only [UInt8.ofNat_toNat] at f7 f6 f5 f4 op m7 len
  simp only [firstBytes, f7, f6, f5, f4, op, m7, len]

/-- The header the receiver reports for a frame sent with these fields, before the key. -/
def wireHdr (fin : Bool) (opcode : UInt8) (mask : Bool) (len : Nat) : WebsockHdr :=
  { fin := fin, rsv1 := false, rsv2 := false, rsv3 := false, opcode := opcode &&& 0x0f,
    mask := mask, len := UInt64.ofNat len, mkey := #v[0, 0, 0, 0] }

variable {mb : Mbuf} {a : Nat}

theorem websockDecode_two {v w : UInt8} {ys : List UInt8} (h : Frame mb mb.pos (v :: w :: ys)) :
    websockDecode mb = match decodeLen (firstBytes v w) (mb.advance 2) with
      | (.ok hdr, mb) => decodeMask hdr mb
      | (.error e, mb) => some (.error e, mb) := by
  have ends := h.ends
  have enough : ¬ mb.getLeft < 2 := by simp [getLeft, ends]
  have first := @Frame.readU8_at mb _ [] (w :: ys) _ (by simpa using h) (by simp)
  have second := @Frame.readU8_at (mb.advance 1) _ [v] ys _ (by simpa using h) (by simp)
  unfold websockDecode
  rw [if_neg enough]
  simp only [first, second, advance_advance]

theorem decodeLen_short (hdr : WebsockHdr)
    (short : hdr.len = 126 ∧ mb.getLeft < 2 ∨ hdr.len = 127 ∧ mb.getLeft < 8) :
    decodeLen hdr mb = (.error .ENODATA, mb) := by
  rcases short with ⟨code, few⟩ | ⟨code, few⟩
  · simp [decodeLen, code, few]
  · simp [decodeLen, code, few]

theorem websockDecode_hdrBytes (fin : Bool) (opcode : UInt8) (mask : Bool) (n : Nat)
    {ys : List UInt8} (h : Frame mb mb.pos (hdrBytes fin opcode mask n ++ ys)) :
    websockDecode mb =
      decodeMask (wireHdr fin opcode mask n) (mb.advance (hdrBytes fin opcode mask n).length) := by
  by_cases big : n > 0xffff
  · -- 127, then the length in 8 bytes
    have wire : hdrBytes fin opcode mask n ++ ys =
        ((if fin then 0x80 else 0) ||| (opcode &&& 0x0f)) :: ((if mask then 0x80 else 0) ||| 127) ::
          (netBytes 8 n ++ ys) := by simp [hdrBytes, big]
    rw [wire] at h
    have enough : ¬ (mb.advance 2).getLeft < 8 := by
      simp [getLeft, h.ends]
      omega
    have field := @Frame.readNet_at (mb.advance 2) _ [_, _] (netBytes 8 n) ys
      (by simpa using h) (by simp)
    have value : UInt64.ofNat (n % 256 ^ 8) = UInt64.ofNat n := by
      apply UInt64.toNat_inj.mp
      simp [UInt64.toNat_ofNat']
    rw [length_netBytes, netValue_netBytes, advance_advance] at field
    rw [websockDecode_two h, firstBytes_hdrBytes _ _ _ _ (by decide), length_hdrBytes, if_pos big]
    simp only [decodeLen, readU64, field, value, enough, show (127 : UInt8).toUInt64 = 127 by decide,
      show ((127 : UInt64) = 126) = False by decide, if_true, if_false, wireHdr]
  by_cases mid : n > 125
  · -- 126, then the length in 2 bytes
    have wire : hdrBytes fin opcode mask n ++ ys =
        ((if fin then 0x80 else 0) ||| (opcode &&& 0x0f)) :: ((if mask then 0x80 else 0) ||| 126) ::
          (netBytes 2 n ++ ys) := by simp [hdrBytes, big, mid]
    rw [wire] at h
    have enough : ¬ (mb.advance 2).getLeft < 2 := by
      simp [getLeft, h.ends]
      omega
    have field := @Frame.readNet_at (mb.advance 2) _ [_, _] (netBytes 2 n) ys
      (by simpa using h) (by simp)
    have value : (UInt16.ofNat (n % 256 ^ 2)).toUInt64 = UInt64.ofNat n := by
      apply UInt64.toNat_inj.mp
      simp [UInt64.toNat_ofNat', UInt16.toNat_ofNat']
      omega
    rw [length_netBytes, netValue_netBytes, advance_advance] at field
    rw [websockDecode_two h, firstBytes_hdrBytes _ _ _ _ (by decide), length_hdrBytes, if_neg big,
      if_pos mid]
    simp only [decodeLen, readU16, field, value, enough, show (126 : UInt8).toUInt64 = 126 by decide,
      if_true, if_false, wireHdr]
  · -- the length itself, in the 7 bits
    have wire : hdrBytes fin opcode mask n ++ ys =
        ((if fin then 0x80 else 0) ||| (opcode &&& 0x0f)) ::
          ((if mask then 0x80 else 0) ||| UInt8.ofNat n) :: ys := by simp [hdrBytes, big, mid]
    rw [wire] at h
    have value : (UInt8.ofNat n).toUInt64 = UInt64.ofNat n := by
      apply UInt64.toNat_inj.mp
      simp [UInt64.toNat_ofNat', UInt8.toNat_ofNat']
      omega
    have plain : ¬ UInt64.ofNat n = 126 ∧ ¬ UInt64.ofNat n = 127 := by
      constructor <;> intro same <;> have := congrArg UInt64.toNat same <;>
        simp [UInt64.toNat_ofNat'] at this <;> omega
    rw [websockDecode_two h, firstBytes_hdrBytes _ _ _ _ (by simp [UInt8.toNat_ofNat']; omega),
      length_hdrBytes, if_neg big, if_neg mid]
    simp only [decodeLen, value, plain, if_false, wireHdr]

theorem vector4_eq (mkey : Vector UInt8 4) :
    mkey = #v[mkey.get 0, mkey.get 1, mkey.get 2, mkey.get 3] := by
  ext i hi
  interval_cases i <;> rfl

theorem vector4_toList (mkey : Vector UInt8 4) :
    mkey.toList = [mkey.get 0, mkey.get 1, mkey.get 2, mkey.get 3] := by
  apply List.ext_getElem (by simp)
  intro i h1 h2
  simp only [Vector.length_toList] at h1
  interval_cases i <;> rfl

/-- A masked payload whose key and bytes are all there: the key is read and the payload
unmasked where it stands. -/
theorem decodeMask_masked {hd pl rest : List UInt8} (mkey : Vector UInt8 4)
    (h : Frame mb a (hd ++ mkey.toList ++ xorKey mkey pl ++ rest)) (at_ : mb.pos = a + hd.length)
    (hdr : WebsockHdr) (masked : hdr.mask = true) (len : hdr.len = UInt64.ofNat pl.length)
    (small : pl.length < 2 ^ 63) :
    ∃ mb', decodeMask hdr mb = some (.ok { hdr with mkey := mkey }, mb') ∧
      mb'.pos = a + hd.length + 4 ∧ Frame mb' a (hd ++ mkey.toList ++ pl ++ rest) := by
  have ends := h.ends
  have total : (4 + hdr.len).toNat = 4 + pl.length := by
    rw [len, UInt64.toNat_add, UInt64.toNat_ofNat']
    simp only [UInt64.reduceToNat]
    omega
  have enough : ¬ mb.getLeft < (4 + hdr.len).toNat := by
    simp only [getLeft, ends, at_, total, List.length_append, Vector.length_toList, length_xorKey]
    omega
  have keyed : Frame mb a (hd ++ [mkey.get 0, mkey.get 1, mkey.get 2, mkey.get 3] ++
      (xorKey mkey pl ++ rest)) := by
    rw [← vector4_toList]
    simpa using h
  have r0 := @Frame.readU8_at mb _ hd _ _ (by simpa using keyed) at_
  have r1 := @Frame.readU8_at (mb.advance 1) _ (hd ++ [mkey.get 0]) _ _
    (by simpa using keyed) (by simp [at_]; omega)
  have r2 := @Frame.readU8_at (mb.advance 2) _ (hd ++ [mkey.get 0, mkey.get 1]) _ _
    (by simpa using keyed) (by simp [at_]; omega)
  have r3 := @Frame.readU8_at (mb.advance 3) _ (hd ++ [mkey.get 0, mkey.get 1, mkey.get 2]) _ _
    (by simpa using keyed) (by simp [at_]; omega)
  have bytes : (mb.advance 4).buf.extract (mb.advance 4).pos ((mb.advance 4).pos + pl.length) =
      xorKey mkey pl := by
    have held := h.holds.left.right.bytes
    simp only [List.length_append, Vector.length_toList, length_xorKey, Nat.add_assoc] at held
    simp only [advance_buf, advance_pos, at_, Nat.add_assoc, held]
  have unmasked := h.overwrite (xorKey mkey (xorKey mkey pl)) (by simp)
  rw [xorKey_xorKey] at unmasked
  have inside : (mb.advance 4).pos + pl.length ≤ (mb.advance 4).size := by
    have within := h.within
    simp only [ends, List.length_append, Vector.length_toList, length_xorKey] at within
    simp only [advance_pos, size, advance_buf, at_] at within ⊢
    omega
  have applied : applyMask (mb.advance 4) mkey pl.length =
      some ((mb.overwrite (a + (hd ++ mkey.toList).length) pl).advance 4) := by
    rw [applyMask, if_pos inside, bytes, xorKey_xorKey,
      show (mb.advance 4).pos = a + (hd ++ mkey.toList).length by simp [at_]; omega]
    rfl
  refine ⟨_, ?_, by simp [at_], (frame_advance 4).mpr unmasked⟩
  simp only [decodeMask, masked, if_true, enough, if_false, r0, r1, r2, r3, advance_advance,
    Nat.reduceAdd]
  rw [← vector4_eq, len, UInt64.toNat_ofNat_of_lt' (show pl.length < 2 ^ 64 by omega), applied]
  rfl

theorem decodeMask_plain {pl rest : List UInt8} (h : Frame mb mb.pos (pl ++ rest))
    (hdr : WebsockHdr) (plain : hdr.mask = false) (len : hdr.len = UInt64.ofNat pl.length)
    (small : pl.length < 2 ^ 63) : decodeMask hdr mb = some (.ok hdr, mb) := by
  have enough : ¬ mb.getLeft < hdr.len.toNat := by
    simp only [getLeft, h.ends, len, UInt64.toNat_ofNat_of_lt' (show pl.length < 2 ^ 64 by omega),
      List.length_append]
    omega
  simp [decodeMask, plain, enough]

theorem decodeMask_short (hdr : WebsockHdr) (small : hdr.len.toNat < 2 ^ 63)
    (short : mb.getLeft < (if hdr.mask then 4 else 0) + hdr.len.toNat) :
    decodeMask hdr mb = some (.error .ENODATA, mb) := by
  cases masked : hdr.mask with
  | true =>
    have total : (4 + hdr.len).toNat = 4 + hdr.len.toNat := by
      rw [UInt64.toNat_add]
      simp only [UInt64.reduceToNat]
      omega
    simp only [masked, if_true] at short
    simp [decodeMask, masked, total, short]
  | false =>
    simp only [masked, Bool.false_eq_true, if_false, Nat.zero_add] at short
    simp [decodeMask, masked, short]

/-- A whole frame decodes to the header it was sent with; the payload is unmasked in place and
the position stands at its first byte. -/
theorem websockDecode_wire {fin : Bool} {opcode : UInt8} {mask : Bool} {mkey : Vector UInt8 4}
    {pl rest : List UInt8} (h : Frame mb mb.pos (frameWire fin opcode mask mkey pl ++ rest))
    (small : pl.length < 2 ^ 63) :
    ∃ mb', websockDecode mb = some (.ok { wireHdr fin opcode mask pl.length with
        mkey := if mask then mkey else #v[0, 0, 0, 0] }, mb') ∧ Frame mb' mb'.pos (pl ++ rest) := by
  set hd := hdrBytes fin opcode mask pl.length
  cases mask with
  | true =>
    have framed : Frame mb mb.pos (hd ++ mkey.toList ++ xorKey mkey pl ++ rest) := by
      simpa [frameWire, hd] using h
    obtain ⟨mb', dec, pos, unmasked⟩ := decodeMask_masked mkey
      ((frame_advance hd.length).mpr framed) (by simp) (wireHdr fin opcode true pl.length) rfl rfl small
    refine ⟨mb', by rw [websockDecode_hdrBytes _ _ _ _ (by simpa [frameWire, hd] using h), dec]; rfl,
      ?_⟩
    have body := @Frame.suffix mb' _ (hd ++ mkey.toList) _ (by simpa using unmasked)
    rw [pos]
    simpa [Nat.add_assoc] using body
  | false =>
    have framed : Frame mb mb.pos (hd ++ (pl ++ rest)) := by simpa [frameWire, hd] using h
    have body := (frame_advance hd.length).mpr framed.suffix
    refine ⟨mb.advance hd.length, ?_, by simpa using body⟩
    rw [websockDecode_hdrBytes _ _ _ _ framed,
      decodeMask_plain (by simpa using body) _ rfl rfl small]
    rfl

/-- A proper prefix of a frame, however it is cut, asks for more bytes and leaves the buffer as
it was once the position is put back. -/
theorem websockDecode_part {fin : Bool} {opcode : UInt8} {mask : Bool} {mkey : Vector UInt8 4}
    {pl part : List UInt8} (h : Frame mb mb.pos part) (hp : part <+: frameWire fin opcode mask mkey pl)
    (short : part.length < (frameWire fin opcode mask mkey pl).length) (small : pl.length < 2 ^ 63) :
    ∃ mb', websockDecode mb = some (.error .ENODATA, mb') ∧ mb'.setPos mb.pos = mb := by
  set hd := hdrBytes fin opcode mask pl.length
  set body := if mask then mkey.toList ++ xorKey mkey pl else pl
  have ends := h.ends
  have cut : part = (hd ++ body).take part.length := List.prefix_iff_eq_take.mp hp
  have bodyLen : body.length = (if mask then 4 else 0) + pl.length := by
    cases mask <;> simp [body]
  have wireLen : (frameWire fin opcode mask mkey pl).length = hd.length + body.length := by
    simp [frameWire, hd, body]
  by_cases two : part.length < 2
  · have few : mb.getLeft < 2 := by simp [getLeft, ends, two]
    exact ⟨mb, by simp [websockDecode, few], by simp⟩
  by_cases whole : hd.length ≤ part.length
  · -- the header is all there; key or payload are not
    rw [List.take_append, List.take_of_length_le whole] at cut
    have framed : Frame mb mb.pos (hd ++ body.take (part.length - hd.length)) := cut ▸ h
    have len : (wireHdr fin opcode mask pl.length).len.toNat = pl.length := by
      simp only [wireHdr, UInt64.toNat_ofNat_of_lt' (show pl.length < 2 ^ 64 by omega)]
    have few : (mb.advance hd.length).getLeft <
        (if (wireHdr fin opcode mask pl.length).mask then 4 else 0) +
          (wireHdr fin opcode mask pl.length).len.toNat := by
      have total := congrArg List.length cut
      simp only [List.length_append, List.length_take] at total
      rw [len]
      simp only [getLeft, advance_pos, advance_end, ends, wireHdr]
      cases mask <;> simp only [Bool.false_eq_true, if_true, if_false] at bodyLen ⊢ <;> omega
    rw [websockDecode_hdrBytes _ _ _ _ framed, decodeMask_short _ (by omega) few]
    exact ⟨_, rfl, by simp⟩
  · -- the header is cut inside its extended length field
    rw [List.take_append_of_le_length (by omega)] at cut
    have code : (hd.length = 10 ∧ pl.length > 0xffff) ∨ (hd.length = 4 ∧ ¬ pl.length > 0xffff ∧
        pl.length > 125) := by
      simp only [hd, length_hdrBytes] at whole ⊢
      split_ifs at whole ⊢ <;> omega
    have two' : part.length = part.length - 2 + 1 + 1 := by omega
    rcases code with ⟨ten, big⟩ | ⟨four, notBig, mid⟩
    · have shape : part = ((if fin then 0x80 else 0) ||| (opcode &&& 0x0f)) ::
          ((if mask then 0x80 else 0) ||| 127) :: (netBytes 8 pl.length).take (part.length - 2) := by
        rw [cut, two']
        simp [hd, hdrBytes, big]
      have few : (mb.advance 2).getLeft < 8 := by
        simp only [getLeft, advance_pos, advance_end, ends]
        omega
      rw [shape] at h
      rw [websockDecode_two h, firstBytes_hdrBytes _ _ _ _ (by decide),
        decodeLen_short _ (.inr ⟨rfl, few⟩)]
      exact ⟨_, rfl, by simp⟩
    · have shape : part = ((if fin then 0x80 else 0) ||| (opcode &&& 0x0f)) ::
          ((if mask then 0x80 else 0) ||| 126) :: (netBytes 2 pl.length).take (part.length - 2) := by
        rw [cut, two']
        simp [hd, hdrBytes, notBig, mid]
      have few : (mb.advance 2).getLeft < 2 := by
        simp only [getLeft, advance_pos, advance_end, ends]
        omega
      rw [shape] at h
      rw [websockDecode_two h, firstBytes_hdrBytes _ _ _ _ (by decide),
        decodeLen_short _ (.inl ⟨rfl, few⟩)]
      exact ⟨_, rfl, by simp⟩

end Receive

/-! ## The length check of a masked frame -/

/-- A masked frame that claims `2^64 - 4` payload bytes and carries only its key. -/
def wrappedFrame : Mbuf :=
  ⟨[0x82, 0xff, 0xff, 0xff, 0xff, 0xff, 0xff, 0xff, 0xff, 0xfc, 0, 0, 0, 0], 0, 14⟩

/-- The decoder's check lets it through: `4 + hdr->len` wraps to 0, so the four bytes after the
length field pass a check that asks for `2^64` of them, and the unmasking loop then runs
`hdr->len` bytes past the buffer. -/
theorem websockDecode_wrapped_length :
    ∃ hdr mb, decodeLen (firstBytes 0x82 0xff) (wrappedFrame.advance 2) = (.ok hdr, mb) ∧
      hdr.mask = true ∧ hdr.len.toNat = 2 ^ 64 - 4 ∧ ¬ mb.getLeft < (4 + hdr.len).toNat ∧
      mb.getLeft < hdr.len.toNat + 4 ∧ websockDecode wrappedFrame = none := by
  refine ⟨_, _, rfl, by decide, by decide, by decide, by decide, rfl⟩

end Libre.Websock
