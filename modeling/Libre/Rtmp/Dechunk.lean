import Libre.Rtmp.Header

set_option autoImplicit false

/-!
# De-chunking RTMP messages

`rtmp_dechunker_receive` from `rtmp/dechunk.c`: each call decodes one chunk, a header and up to
`chunk_sz` bytes of its message, and hands the message to the handler once its buffer is full.
The caller rewinds the input when the call fails, so a failed call is its error alone.
-/

namespace Libre.Rtmp

open BigEndian Mbuf

def MAX_CHUNKS : Nat := 64

structure RtmpChunk where
  hdr : RtmpHeader
  mb : Option Mbuf
  deriving DecidableEq, Repr

structure RtmpDechunker where
  chunkl : List RtmpChunk
  chunk_sz : Nat
  deriving DecidableEq, Repr

-- What a call leaves: the dechunker, the input buffer or the error, and what the handler was given.
structure Received where
  rd : RtmpDechunker
  out : Except Errno Mbuf
  msg : Option (RtmpHeader × Mbuf)
  deriving DecidableEq, Repr

-- `find_chunk`, with the entry's place in the list
def findChunk (chunk_id : UInt32) : List RtmpChunk → Option (Nat × RtmpChunk)
  | [] => none
  | chunk :: chunkl =>
    if chunk_id = chunk.hdr.chunk_id then some (0, chunk)
    else (findChunk chunk_id chunkl).map fun r => (r.1 + 1, r.2)

-- `mbuf_read_mem` into `mbuf_buf(chunk->mb)`, then `pos` and `end` moved past the bytes
def absorb (cmb : Mbuf) (data : List UInt8) : Mbuf :=
  { cmb.overwrite cmb.pos data with pos := cmb.pos + data.length, end_ := cmb.end_ + data.length }

-- Formats 0, 1 and 2: the header (whole, or the fields the format carries) and a new message
-- buffer of the message length holding the chunk's bytes.
def chunkStart (chunk_sz : Nat) (chunk : RtmpChunk) (hdr : RtmpHeader) (mb : Mbuf) :
    RtmpChunk × Except Errno Mbuf :=
  let h :=
    if hdr.format = 0 then hdr
    else if hdr.format = 1 then
      { chunk.hdr with
        timestamp_delta := hdr.timestamp_delta, length := hdr.length, type_id := hdr.type_id }
    else { chunk.hdr with timestamp_delta := hdr.timestamp_delta }
  let msg_len := h.length.toNat
  let n := min msg_len chunk_sz
  if mb.getLeft < n then ({ chunk with hdr := h }, .error .ENODATA)
  else
    let h := { h with format := hdr.format, ext_ts := hdr.ext_ts }
    let h :=
      if hdr.format = 1 ∨ hdr.format = 2 then { h with timestamp := h.timestamp + hdr.timestamp_delta }
      else h
    (⟨h, some (absorb (alloc msg_len) (mb.buf.extract mb.pos (mb.pos + n)))⟩, .ok (mb.advance n))

-- Format 3: the repeated extended timestamp, a message buffer opened from the stored header when
-- none is open, and as many bytes as it has room for, up to `chunk_sz`.
def chunkContinue (chunk_sz : Nat) (chunk : RtmpChunk) (mb : Mbuf) :
    RtmpChunk × Except Errno Mbuf :=
  if chunk.hdr.ext_ts ∧ mb.getLeft < 4 then (chunk, .error .ENODATA)
  else
    let ext : RtmpHeader × Mbuf :=
      if chunk.hdr.ext_ts then
        if chunk.hdr.format = 0 then ({ chunk.hdr with timestamp := mb.readU32.1 }, mb.readU32.2)
        else ({ chunk.hdr with timestamp_delta := mb.readU32.1 }, mb.readU32.2)
      else (chunk.hdr, mb)
    let opened : RtmpHeader × Mbuf :=
      match chunk.mb with
      | some cmb => (ext.1, cmb)
      | none =>
        let h :=
          if ext.1.format = 0 then { ext.1 with timestamp_delta := ext.1.timestamp } else ext.1
        ({ h with timestamp := h.timestamp + h.timestamp_delta }, alloc ext.1.length.toNat)
    let n := min opened.2.getSpace chunk_sz
    if ext.2.getLeft < n then (⟨opened.1, some opened.2⟩, .error .ENODATA)
    else
      (⟨opened.1, some (absorb opened.2 (ext.2.buf.extract ext.2.pos (ext.2.pos + n)))⟩,
        .ok (ext.2.advance n))

-- The completion test: a full buffer is handed over with its position rewound, and the entry
-- is left with no open message.
def deliver (chunkh : RtmpHeader → Mbuf → Option Errno) (chunk : RtmpChunk) :
    RtmpChunk × Option (RtmpHeader × Mbuf) × Option Errno :=
  match chunk.mb with
  | some cmb =>
    if cmb.pos ≥ cmb.size then
      ({ chunk with mb := none }, some (chunk.hdr, cmb.setPos 0), chunkh chunk.hdr (cmb.setPos 0))
    else (chunk, none, none)
  | none => (chunk, none, none)

-- The switch on the header's format and the completion test, on the entry at place `i`;
-- the two-bit format leaves the `EPROTO` default unreachable.
def receiveChunk (chunkh : RtmpHeader → Mbuf → Option Errno) (rd : RtmpDechunker) (i : Nat)
    (chunk : RtmpChunk) (hdr : RtmpHeader) (mb : Mbuf) : Received :=
  let step := if hdr.format = 3 then chunkContinue rd.chunk_sz chunk mb
    else chunkStart rd.chunk_sz chunk hdr mb
  match step.2 with
  | .error e => ⟨{ rd with chunkl := rd.chunkl.set i step.1 }, .error e, none⟩
  | .ok mb =>
    let done := deliver chunkh step.1
    ⟨{ rd with chunkl := rd.chunkl.set i done.1 },
      match done.2.2 with
      | some e => .error e
      | none => .ok mb,
      done.2.1⟩

def rtmpDechunkerReceive (chunkh : RtmpHeader → Mbuf → Option Errno) (rd : RtmpDechunker)
    (mb : Mbuf) : Received :=
  match rtmpHeaderDecode mb with
  | .error e => ⟨rd, .error e, none⟩
  | .ok (hdr, mb) =>
    match findChunk hdr.chunk_id rd.chunkl with
    | some (i, chunk) => receiveChunk chunkh rd i chunk hdr mb
    | none =>
      -- only format 0 opens a chunk stream
      if hdr.format = 0 then
        if rd.chunkl.length > MAX_CHUNKS then ⟨rd, .error .EOVERFLOW, none⟩
        else
          receiveChunk chunkh { rd with chunkl := rd.chunkl ++ [⟨hdr, none⟩] } rd.chunkl.length
            ⟨hdr, none⟩ hdr mb
      else ⟨rd, .error .ENOENT, none⟩

/-! ## One chunk -/

section OneChunk

variable (chunkh : RtmpHeader → Mbuf → Option Errno)

@[simp] theorem absorb_nil (cmb : Mbuf) : absorb cmb [] = cmb := by
  simp [absorb, overwrite, setRange]

theorem deliver_open {hdr : RtmpHeader} {cmb : Mbuf} (room : cmb.pos < cmb.size) :
    deliver chunkh ⟨hdr, some cmb⟩ = (⟨hdr, some cmb⟩, none, none) := by
  simp [deliver, Nat.not_le.mpr room]

theorem deliver_full {hdr : RtmpHeader} {cmb : Mbuf} (full : cmb.size ≤ cmb.pos) :
    deliver chunkh ⟨hdr, some cmb⟩ =
      (⟨hdr, none⟩, some (hdr, cmb.setPos 0), chunkh hdr (cmb.setPos 0)) := by
  simp [deliver, full]

theorem chunkStart_fmt0 (chunk_sz : Nat) (chunk : RtmpChunk) {hdr : RtmpHeader} {mb : Mbuf}
    (fmt : hdr.format = 0) (enough : min hdr.length.toNat chunk_sz ≤ mb.getLeft) :
    chunkStart chunk_sz chunk hdr mb =
      (⟨hdr, some (absorb (alloc hdr.length.toNat)
        (mb.buf.extract mb.pos (mb.pos + min hdr.length.toNat chunk_sz)))⟩,
        .ok (mb.advance (min hdr.length.toNat chunk_sz))) := by
  obtain ⟨format, _⟩ := hdr
  simp only at fmt
  subst fmt
  simp [chunkStart, Nat.not_lt.mpr enough]

theorem chunkContinue_open (chunk_sz : Nat) {hdr : RtmpHeader} {cmb mb : Mbuf}
    (plain : hdr.ext_ts = false) (enough : min cmb.getSpace chunk_sz ≤ mb.getLeft) :
    chunkContinue chunk_sz ⟨hdr, some cmb⟩ mb =
      (⟨hdr, some (absorb cmb (mb.buf.extract mb.pos (mb.pos + min cmb.getSpace chunk_sz)))⟩,
        .ok (mb.advance (min cmb.getSpace chunk_sz))) := by
  simp [chunkContinue, plain, Nat.not_lt.mpr enough]

theorem rtmpDechunkerReceive_open {rd : RtmpDechunker} {mb mb' : Mbuf} {hdr : RtmpHeader}
    (header : rtmpHeaderDecode mb = .ok (hdr, mb')) (fmt : hdr.format = 0)
    (fresh : findChunk hdr.chunk_id rd.chunkl = none) (room : rd.chunkl.length ≤ MAX_CHUNKS) :
    rtmpDechunkerReceive chunkh rd mb =
      receiveChunk chunkh { rd with chunkl := rd.chunkl ++ [⟨hdr, none⟩] } rd.chunkl.length
        ⟨hdr, none⟩ hdr mb' := by
  simp [rtmpDechunkerReceive, header, fresh, fmt, Nat.not_lt.mpr room]

theorem absorb_alloc {data : List UInt8} (nonempty : data ≠ []) :
    absorb (alloc data.length) data = ⟨data, data.length, data.length⟩ := by
  have positive : data.length ≠ 0 := by simpa using nonempty
  simp [absorb, alloc, overwrite, setRange, positive]

-- A message that fits in one chunk goes to the handler at once, with exactly its bytes; the
-- chunk stream is left with no open message.
theorem rtmpDechunkerReceive_whole (rd : RtmpDechunker) (mb : Mbuf)
    {cs t0 t1 t2 l0 l1 l2 type_id s0 s1 s2 s3 : UInt8} (payload rest : List UInt8)
    (id : 2 ≤ cs.toNat ∧ cs.toNat < 64) (plain : u24 t0 t1 t2 ≠ TIMESTAMP_24MAX)
    (fresh : findChunk cs.toUInt32 rd.chunkl = none) (room : rd.chunkl.length ≤ MAX_CHUNKS)
    (len : (u24 l0 l1 l2).toNat = payload.length) (nonempty : payload ≠ [])
    (fits : payload.length ≤ rd.chunk_sz)
    (h : Frame mb mb.pos ([cs, t0, t1, t2, l0, l1, l2, type_id, s0, s1, s2, s3] ++ payload ++ rest)) :
    let hdr : RtmpHeader := ⟨0, cs.toUInt32, u24 t0 t1 t2, 0, u24 l0 l1 l2, type_id,
      UInt32.ofNat (netValue [s3, s2, s1, s0]), false⟩
    rtmpDechunkerReceive chunkh rd mb =
      ⟨{ rd with chunkl := rd.chunkl ++ [⟨hdr, none⟩] },
        (match chunkh hdr ⟨payload, 0, payload.length⟩ with
          | some e => .error e
          | none => .ok (mb.advance (12 + payload.length))),
        some (hdr, ⟨payload, 0, payload.length⟩)⟩ := by
  intro hdr
  have header := rtmpHeaderDecode_fmt0 id plain (by simpa only [List.append_assoc] using h)
  have bytes : mb.buf.extract (mb.pos + 12) (mb.pos + 12 + payload.length) = payload := by
    have at_ := h.holds.left.right
    simpa using at_.bytes
  have left := h.getLeft_eq
  simp only [getLeft, List.length_append, List.length_cons, List.length_nil] at left
  have whole : min (u24 l0 l1 l2).toNat rd.chunk_sz = payload.length := by omega
  have buffer : absorb (alloc (u24 l0 l1 l2).toNat) ((mb.advance 12).buf.extract (mb.advance 12).pos
      ((mb.advance 12).pos + min (u24 l0 l1 l2).toNat rd.chunk_sz)) =
      ⟨payload, payload.length, payload.length⟩ := by
    rw [whole, advance_buf, advance_pos, bytes, len, absorb_alloc nonempty]
  have full : (⟨payload, payload.length, payload.length⟩ : Mbuf).size ≤ payload.length := by
    simp [size]
  rw [rtmpDechunkerReceive_open chunkh header rfl fresh room, receiveChunk]
  simp only [show ¬ ((0 : Fin 4) = 3) by decide, if_false]
  rw [chunkStart_fmt0 _ _ rfl (by rw [whole]; simp only [getLeft, advance_pos, advance_end]; omega),
    buffer, deliver_full chunkh full, whole, advance_advance]
  simp [setPos, hdr]

-- A witness: a message of three bytes on chunk stream 3, handed over as soon as it is read.
theorem rtmpDechunkerReceive_whole_three :
    rtmpDechunkerReceive (fun _ _ => none) ⟨[], 128⟩ ⟨[3, 0, 0, 0, 0, 0, 3, 0x14, 0, 0, 0, 0, 7, 8, 9], 0, 15⟩ =
      ⟨⟨[⟨⟨0, 3, 0, 0, 3, 0x14, 0, false⟩, none⟩], 128⟩,
        .ok ⟨[3, 0, 0, 0, 0, 0, 3, 0x14, 0, 0, 0, 0, 7, 8, 9], 15, 15⟩,
        some (⟨0, 3, 0, 0, 3, 0x14, 0, false⟩, ⟨[7, 8, 9], 0, 3⟩)⟩ :=
  rtmpDechunkerReceive_whole (fun _ _ => none) ⟨[], 128⟩ _ [7, 8, 9] [] ⟨by decide, by decide⟩ (by decide)
    (by decide) (by decide) (by decide) (by decide) (by decide) (frame_self _)

theorem rtmp_dechunk_zero_length_lost (rd : RtmpDechunker) (mb : Mbuf)
    {cs t0 t1 t2 type_id s0 s1 s2 s3 : UInt8} (rest : List UInt8)
    (id : 2 ≤ cs.toNat ∧ cs.toNat < 64) (plain : u24 t0 t1 t2 ≠ TIMESTAMP_24MAX)
    (fresh : findChunk cs.toUInt32 rd.chunkl = none) (room : rd.chunkl.length ≤ MAX_CHUNKS)
    (h : Frame mb mb.pos ([cs, t0, t1, t2, 0, 0, 0, type_id, s0, s1, s2, s3] ++ rest)) :
    rtmpDechunkerReceive chunkh rd mb =
      ⟨{ rd with chunkl := rd.chunkl ++ [⟨⟨0, cs.toUInt32, u24 t0 t1 t2, 0, 0, type_id,
          UInt32.ofNat (netValue [s3, s2, s1, s0]), false⟩, some (alloc 0)⟩] },
        .ok (mb.advance 12), none⟩ := by
  have header := rtmpHeaderDecode_fmt0 id plain h
  have empty : u24 0 0 0 = 0 := by decide
  rw [empty] at header
  -- the fresh buffer has `DEFAULT_SIZE` bytes of room and receives none
  have pending : (alloc 0).pos < (alloc 0).size := by
    rw [size_alloc]
    decide
  rw [rtmpDechunkerReceive_open chunkh header rfl fresh room, receiveChunk]
  simp only [show ¬ ((0 : Fin 4) = 3) by decide, if_false]
  rw [chunkStart_fmt0 _ _ rfl (by simp only [UInt32.toNat_zero, Nat.zero_min]; exact Nat.zero_le _)]
  simp only [UInt32.toNat_zero, Nat.zero_min, Nat.add_zero, List.extract_eq_take_drop, Nat.sub_self,
    List.take_zero, absorb_nil, deliver_open chunkh pending, advance_zero]
  simp

theorem rtmp_dechunk_zero_length_lost_first :
    2 ≤ (3 : UInt8).toNat ∧ (3 : UInt8).toNat < 64 ∧ u24 0 0 0 ≠ TIMESTAMP_24MAX ∧
      findChunk (3 : UInt8).toUInt32 [] = none ∧ ([] : List RtmpChunk).length ≤ MAX_CHUNKS ∧
      rtmpDechunkerReceive (fun _ _ => none) ⟨[], 128⟩
          ⟨[3, 0, 0, 0, 0, 0, 0, 0x14, 0, 0, 0, 0], 0, 12⟩ =
        ⟨⟨[⟨⟨0, 3, 0, 0, 0, 0x14, 0, false⟩, some (alloc 0)⟩], 128⟩,
          .ok ⟨[3, 0, 0, 0, 0, 0, 0, 0x14, 0, 0, 0, 0], 12, 12⟩, none⟩ :=
  ⟨by decide, by decide, by decide, by decide, by decide,
    rtmp_dechunk_zero_length_lost (fun _ _ => none) ⟨[], 128⟩
      ⟨[3, 0, 0, 0, 0, 0, 0, 0x14, 0, 0, 0, 0], 0, 12⟩
      [] ⟨by decide, by decide⟩ (by decide) (by decide) (by decide) (frame_self _)⟩

end OneChunk

end Libre.Rtmp
