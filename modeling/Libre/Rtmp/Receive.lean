import Libre.Rtmp.Dechunk
import Libre.Rtmp.Chunk

set_option autoImplicit false

/-!
# Receiving chunked messages

The loop of `tcp_recv_handler` once the handshake is done: one call of `rtmp_dechunker_receive`
after another while bytes are left. The bytes `rtmp_chunker` sends for one message give the handler
that message once, with its header and exactly its bytes (`rtmpChunker_dechunk`).
-/

namespace Libre.Rtmp

open BigEndian Mbuf

/-! ## Decoding reads on -/

theorem readOn_readU24 (mb : Mbuf) : ReadOn mb (readU24 mb).2 :=
  ((readOn_readU8 mb).trans (readOn_readU8 _)).trans (readOn_readU8 _)

theorem readOn_readU32Le (mb : Mbuf) : ReadOn mb (readU32Le mb).2 := by
  unfold readU32Le
  split
  next read => exact readOn_readMem read
  next => exact ReadOn.refl mb

theorem decodeBasicHdr_readOn {hdr hdr' : RtmpHeader} {mb mb' : Mbuf}
    (h : decodeBasicHdr hdr mb = .ok (hdr', mb')) : ReadOn mb mb' ∧ mb'.getLeft < mb.getLeft := by
  unfold decodeBasicHdr at h
  split at h
  · cases h
  next enough =>
    have took : ReadOn mb mb.readU8.2 ∧ mb.readU8.2.getLeft < mb.getLeft := by
      rw [readU8_snd_of_le mb (by omega)]
      refine ⟨readOn_advance mb (by omega), ?_⟩
      simp only [getLeft, advance_pos, advance_end] at enough ⊢
      omega
    simp only at h
    split at h
    · split at h
      · cases h
      · cases h
        exact ⟨took.1.trans (readOn_readU8 _), lt_of_le_of_lt (readOn_readU8 _).getLeft_le took.2⟩
    · split at h
      · split at h
        · cases h
        · cases h
          exact ⟨took.1.trans (readOn_readU16 _), lt_of_le_of_lt (readOn_readU16 _).getLeft_le took.2⟩
      · cases h
        exact took

theorem decodeMsgHdr_readOn {hdr hdr' : RtmpHeader} {mb mb' : Mbuf}
    (h : decodeMsgHdr hdr mb = .ok (hdr', mb')) : ReadOn mb mb' := by
  unfold decodeMsgHdr at h
  split at h
  · split at h
    · cases h
    · cases h
      exact (((readOn_readU24 mb).trans (readOn_readU24 _)).trans (readOn_readU8 _)).trans
        (readOn_readU32Le _)
  · split at h
    · split at h
      · cases h
      · cases h
        exact ((readOn_readU24 mb).trans (readOn_readU24 _)).trans (readOn_readU8 _)
    · split at h
      · split at h
        · cases h
        · cases h
          exact readOn_readU24 mb
      · cases h
        exact ReadOn.refl mb

theorem decodeExtTs_readOn {hdr hdr' : RtmpHeader} {mb mb' : Mbuf}
    (h : decodeExtTs hdr mb = .ok (hdr', mb')) : ReadOn mb mb' := by
  unfold decodeExtTs at h
  split at h
  · split at h
    · cases h
    · cases h
      exact readOn_readU32 mb
  · split at h
    · split at h
      · cases h
      · cases h
        exact readOn_readU32 mb
    · cases h
      exact ReadOn.refl mb

theorem rtmpHeaderDecode_progress {hdr : RtmpHeader} {mb mb' : Mbuf}
    (h : rtmpHeaderDecode mb = .ok (hdr, mb')) : ReadOn mb mb' ∧ mb'.getLeft < mb.getLeft := by
  unfold rtmpHeaderDecode at h
  split at h
  · cases h
  next hdr1 mb1 basic =>
    obtain ⟨read1, took⟩ := decodeBasicHdr_readOn basic
    split at h
    · cases h
    next hdr2 mb2 body =>
      have read := read1.trans ((decodeMsgHdr_readOn body).trans (decodeExtTs_readOn h))
      exact ⟨read, lt_of_le_of_lt ((decodeMsgHdr_readOn body).trans (decodeExtTs_readOn h)).getLeft_le took⟩

theorem chunkStart_readOn {chunk_sz : Nat} {chunk : RtmpChunk} {hdr : RtmpHeader} {mb mb' : Mbuf}
    (h : (chunkStart chunk_sz chunk hdr mb).2 = .ok mb') : ReadOn mb mb' := by
  unfold chunkStart at h
  dsimp only at h
  rw [apply_ite Prod.snd] at h
  rcases ite_eq_iff.mp h with ⟨_, fails⟩ | ⟨enough, read⟩
  · cases fails
  · cases read
    exact readOn_advance mb (by omega)

theorem chunkContinue_readOn {chunk_sz : Nat} {chunk : RtmpChunk} {mb mb' : Mbuf}
    (h : (chunkContinue chunk_sz chunk mb).2 = .ok mb') : ReadOn mb mb' := by
  unfold chunkContinue at h
  split at h
  · cases h
  next short =>
    -- the repeated extended timestamp, if any, then the bytes
    have ext : ReadOn mb (if chunk.hdr.ext_ts then mb.readU32.2 else mb) := by
      split
      · exact readOn_readU32 mb
      · exact ReadOn.refl mb
    dsimp only at h
    simp only [apply_ite Prod.snd, ite_self] at h
    rcases ite_eq_iff.mp h with ⟨_, fails⟩ | ⟨enough, read⟩
    · cases fails
    · cases read
      exact ext.trans (readOn_advance _ (by omega))

section Progress

variable (chunkh : RtmpHeader → Mbuf → Option Errno)

theorem receiveChunk_readOn {rd : RtmpDechunker} {i : Nat} {chunk : RtmpChunk} {hdr : RtmpHeader}
    {mb mb' : Mbuf} (h : (receiveChunk chunkh rd i chunk hdr mb).out = .ok mb') : ReadOn mb mb' := by
  unfold receiveChunk at h
  generalize stepped : (if hdr.format = 3 then chunkContinue rd.chunk_sz chunk mb
    else chunkStart rd.chunk_sz chunk hdr mb) = step at h
  have read : ∀ {m : Mbuf}, step.2 = .ok m → ReadOn mb m := by
    intro m ok
    subst stepped
    split at ok
    · exact chunkContinue_readOn ok
    · exact chunkStart_readOn ok
  dsimp only at h
  split at h
  · cases h
  next m ok =>
    -- the handler's error replaces the buffer; otherwise the step's buffer is the result
    split at h
    · cases h
    · cases h
      exact read ok

-- A call that does not fail took bytes: what the receive loop terminates on.
theorem rtmpDechunkerReceive_progress {rd : RtmpDechunker} {mb mb' : Mbuf}
    (h : (rtmpDechunkerReceive chunkh rd mb).out = .ok mb') : mb'.getLeft < mb.getLeft := by
  unfold rtmpDechunkerReceive at h
  split at h
  · cases h
  next hdr mb1 header =>
    have took := (rtmpHeaderDecode_progress header).2
    split at h
    · exact lt_of_le_of_lt (receiveChunk_readOn chunkh h).getLeft_le took
    · split at h
      · split at h
        · cases h
        · exact lt_of_le_of_lt (receiveChunk_readOn chunkh h).getLeft_le took
      · cases h

end Progress

/-! ## The receive loop -/

section Loop

variable (chunkh : RtmpHeader → Mbuf → Option Errno)

-- The loop of `tcp_recv_handler` once the handshake is done, one chunk per call. A failed call
-- rewinds the buffer and ends the loop; `ENODATA` only waits for more bytes.
def dechunkLoop (rd : RtmpDechunker) (mb : Mbuf) :
    RtmpDechunker × Mbuf × Option Errno × List (RtmpHeader × Mbuf) :=
  if mb.getLeft > 0 then
    match _ : (rtmpDechunkerReceive chunkh rd mb).out with
    | .ok mb' =>
      ((dechunkLoop (rtmpDechunkerReceive chunkh rd mb).rd mb').1,
        (dechunkLoop (rtmpDechunkerReceive chunkh rd mb).rd mb').2.1,
        (dechunkLoop (rtmpDechunkerReceive chunkh rd mb).rd mb').2.2.1,
        (rtmpDechunkerReceive chunkh rd mb).msg.toList ++
          (dechunkLoop (rtmpDechunkerReceive chunkh rd mb).rd mb').2.2.2)
    | .error e =>
      ((rtmpDechunkerReceive chunkh rd mb).rd, mb, if e = .ENODATA then none else some e,
        (rtmpDechunkerReceive chunkh rd mb).msg.toList)
  else (rd, mb, none, [])
termination_by mb.getLeft
decreasing_by all_goals exact rtmpDechunkerReceive_progress chunkh ‹_›

theorem dechunkLoop_empty {rd : RtmpDechunker} {mb : Mbuf} (empty : mb.getLeft = 0) :
    dechunkLoop chunkh rd mb = (rd, mb, none, []) := by
  rw [dechunkLoop, if_neg (by omega)]

theorem dechunkLoop_ok {rd rd' : RtmpDechunker} {mb mb' : Mbuf} {msg : Option (RtmpHeader × Mbuf)}
    (left : 0 < mb.getLeft) (recv : rtmpDechunkerReceive chunkh rd mb = ⟨rd', .ok mb', msg⟩) :
    dechunkLoop chunkh rd mb = ((dechunkLoop chunkh rd' mb').1, (dechunkLoop chunkh rd' mb').2.1,
      (dechunkLoop chunkh rd' mb').2.2.1, msg.toList ++ (dechunkLoop chunkh rd' mb').2.2.2) := by
  rw [dechunkLoop, if_pos left]
  split
  next m ok =>
    rw [recv] at ok
    cases ok
    simp [recv]
  next e fails =>
    rw [recv] at fails
    cases fails

end Loop

/-! ## One message through the dechunker -/

theorem findChunk_set {chunk_id : UInt32} {chunk chunk' : RtmpChunk} (same : chunk'.hdr.chunk_id = chunk_id) :
    ∀ {chunkl : List RtmpChunk} {i : Nat}, findChunk chunk_id chunkl = some (i, chunk) →
      findChunk chunk_id (chunkl.set i chunk') = some (i, chunk')
  | [], _, found => by simp [findChunk] at found
  | c :: chunkl, i, found => by
    unfold findChunk at found
    split at found
    next here =>
      cases found
      simp [findChunk, same]
    next later =>
      obtain ⟨⟨j, x⟩, rest, eq⟩ := Option.map_eq_some_iff.mp found
      simp only [Prod.mk.injEq] at eq
      obtain ⟨rfl, rfl⟩ := eq
      simp [findChunk, later, findChunk_set same rest]

theorem findChunk_append {chunk_id : UInt32} {chunk : RtmpChunk} (same : chunk.hdr.chunk_id = chunk_id) :
    ∀ {chunkl : List RtmpChunk}, findChunk chunk_id chunkl = none →
      findChunk chunk_id (chunkl ++ [chunk]) = some (chunkl.length, chunk)
  | [], _ => by simp [findChunk, same]
  | c :: chunkl, fresh => by
    unfold findChunk at fresh
    split at fresh
    · cases fresh
    next later =>
      simp [findChunk, later, findChunk_append same (Option.map_eq_none_iff.mp fresh)]

-- The buffer of a message of which the first `k` bytes have come: `mbuf_alloc` of its length,
-- with those bytes written and the position after them.
def assembling (payload : List UInt8) (k : Nat) : Mbuf :=
  ⟨setRange (List.replicate payload.length 0) 0 (payload.take k), (payload.take k).length,
    (payload.take k).length⟩

theorem alloc_eq_assembling {payload : List UInt8} (nonempty : payload ≠ []) :
    alloc payload.length = assembling payload 0 := by
  have positive : payload.length ≠ 0 := by simpa using nonempty
  simp [alloc, assembling, setRange, positive]

theorem absorb_assembling (payload : List UInt8) (k n : Nat) :
    absorb (assembling payload k) ((payload.drop k).take n) = assembling payload (k + n) := by
  have joined := setRange_append (List.replicate payload.length 0) 0 (payload.take k)
    ((payload.drop k).take n) (by simp)
  rw [Nat.zero_add] at joined
  simp only [absorb, assembling, overwrite, List.take_add, List.length_append, joined]

@[simp] theorem pos_assembling (payload : List UInt8) (k : Nat) :
    (assembling payload k).pos = min k payload.length := by
  simp [assembling]

@[simp] theorem size_assembling (payload : List UInt8) (k : Nat) :
    (assembling payload k).size = payload.length := by
  simp only [assembling, size]
  rw [length_setRange _ _ _ (by simp), List.length_replicate]

theorem assembling_full {payload : List UInt8} {k : Nat} (whole : payload.length ≤ k) :
    assembling payload k = ⟨payload, payload.length, payload.length⟩ := by
  simp [assembling, setRange, List.take_of_length_le whole]

section Message

variable (chunkh : RtmpHeader → Mbuf → Option Errno)

theorem deliver_assembling_open {hdr : RtmpHeader} {payload : List UInt8} {k : Nat}
    (short : k < payload.length) :
    deliver chunkh ⟨hdr, some (assembling payload k)⟩ = (⟨hdr, some (assembling payload k)⟩, none, none) :=
  deliver_open chunkh (by rw [pos_assembling, size_assembling]; omega)

theorem deliver_assembling_full {hdr : RtmpHeader} {payload : List UInt8} {k : Nat}
    (whole : payload.length ≤ k) :
    deliver chunkh ⟨hdr, some (assembling payload k)⟩ = (⟨hdr, none⟩,
      some (hdr, ⟨payload, 0, payload.length⟩), chunkh hdr ⟨payload, 0, payload.length⟩) := by
  rw [deliver_full chunkh (by rw [pos_assembling, size_assembling]; omega), assembling_full whole]
  rfl

theorem receiveChunk_open {rd : RtmpDechunker} {i : Nat} {chunk : RtmpChunk} {hdr hdrD : RtmpHeader}
    {mb mb' : Mbuf} {payload : List UInt8} {k : Nat}
    (step : (if hdr.format = 3 then chunkContinue rd.chunk_sz chunk mb
      else chunkStart rd.chunk_sz chunk hdr mb) = (⟨hdrD, some (assembling payload k)⟩, .ok mb'))
    (short : k < payload.length) :
    receiveChunk chunkh rd i chunk hdr mb =
      ⟨{ rd with chunkl := rd.chunkl.set i ⟨hdrD, some (assembling payload k)⟩ }, .ok mb', none⟩ := by
  simp [receiveChunk, step, deliver_assembling_open chunkh short]

theorem receiveChunk_full {rd : RtmpDechunker} {i : Nat} {chunk : RtmpChunk} {hdr hdrD : RtmpHeader}
    {mb mb' : Mbuf} {payload : List UInt8} {k : Nat}
    (step : (if hdr.format = 3 then chunkContinue rd.chunk_sz chunk mb
      else chunkStart rd.chunk_sz chunk hdr mb) = (⟨hdrD, some (assembling payload k)⟩, .ok mb'))
    (whole : payload.length ≤ k) (accepts : chunkh hdrD ⟨payload, 0, payload.length⟩ = none) :
    receiveChunk chunkh rd i chunk hdr mb =
      ⟨{ rd with chunkl := rd.chunkl.set i ⟨hdrD, none⟩ }, .ok mb',
        some (hdrD, ⟨payload, 0, payload.length⟩)⟩ := by
  simp [receiveChunk, step, deliver_assembling_full chunkh whole, accepts]

theorem rtmpDechunkerReceive_found {rd : RtmpDechunker} {mb mb' : Mbuf} {hdr : RtmpHeader} {i : Nat}
    {chunk : RtmpChunk} (header : rtmpHeaderDecode mb = .ok (hdr, mb'))
    (found : findChunk hdr.chunk_id rd.chunkl = some (i, chunk)) :
    rtmpDechunkerReceive chunkh rd mb = receiveChunk chunkh rd i chunk hdr mb' := by
  simp [rtmpDechunkerReceive, header, found]

theorem rtmpDechunkerReceive_fmt0 {rd : RtmpDechunker} {mb mb' : Mbuf} {hdr : RtmpHeader}
    (header : rtmpHeaderDecode mb = .ok (hdr, mb')) (fmt : hdr.format = 0)
    (room : (findChunk hdr.chunk_id rd.chunkl).isSome ∨ rd.chunkl.length ≤ MAX_CHUNKS) :
    ∃ chunkl i chunk, findChunk hdr.chunk_id chunkl = some (i, chunk) ∧
      rtmpDechunkerReceive chunkh rd mb = receiveChunk chunkh { rd with chunkl := chunkl } i chunk hdr mb' := by
  cases found : findChunk hdr.chunk_id rd.chunkl with
  | none =>
    have fits : rd.chunkl.length ≤ MAX_CHUNKS := by simpa [found] using room
    exact ⟨_, _, _, @findChunk_append _ ⟨hdr, none⟩ rfl _ found, rtmpDechunkerReceive_open chunkh header fmt found fits⟩
  | some entry =>
    exact ⟨rd.chunkl, entry.1, entry.2, found, rtmpDechunkerReceive_found chunkh header found⟩

-- A continuation chunk on an open message of a format-0 header: the repeated extended timestamp
-- when the header is marked for one, which reads back as the header's own timestamp, then as
-- many bytes as the buffer has room for, up to `chunk_sz`.
theorem chunkContinue_framed (chunk_sz : Nat) {hdr : RtmpHeader} {cmb mb : Mbuf}
    {data zs : List UInt8} (fmt : hdr.format = 0) (sized : data.length = min cmb.getSpace chunk_sz)
    (h : Frame mb mb.pos ((if hdr.ext_ts then netBytes 4 hdr.timestamp.toNat else []) ++ data ++ zs)) :
    chunkContinue chunk_sz ⟨hdr, some cmb⟩ mb =
      (⟨hdr, some (absorb cmb data)⟩,
        .ok (mb.advance ((if hdr.ext_ts then netBytes 4 hdr.timestamp.toNat else []) ++ data).length)) := by
  cases marked : hdr.ext_ts
  · rw [marked, if_neg Bool.false_ne_true, List.nil_append] at h
    have left := h.getLeft_front
    rw [chunkContinue_open chunk_sz marked (by omega), ← sized, Frame.extract_front h]
    simp
  · rw [marked, if_pos rfl, List.append_assoc] at h
    have read := Frame.readU32_front h
    have body := Frame.skip h
    have enough := h.getLeft_front
    have left := body.getLeft_front
    simp only [length_netBytes, UInt32.ofNat_toNat] at read body left enough
    obtain ⟨format, chunk_id, timestamp, timestamp_delta, length, type_id, stream_id, ext_ts⟩ := hdr
    simp only at fmt marked
    subst fmt marked
    have short : ¬ mb.getLeft < 4 := by omega
    have room : ¬ (mb.advance 4).getLeft < data.length := by omega
    have bytes : (mb.buf.drop (mb.pos + 4)).take data.length = data := by
      simpa [List.extract_eq_take_drop] using Frame.extract_front body
    simp [chunkContinue, read, short, room, ← sized, bytes]

-- The continuation chunks of one message, from the `k`-th byte on: each finds the message open
-- on its chunk stream and adds its bytes, and the last one hands it to the handler.
theorem dechunkLoop_chunkLoop (chunkh : RtmpHeader → Mbuf → Option Errno) {hdrD hdr : RtmpHeader}
    {timestamp_ext : UInt32} {payload : List UInt8} (max_chunk_sz : {n : Nat // 0 < n})
    (fmt : hdrD.format = 0) (id : 2 ≤ hdrD.chunk_id.toNat ∧ hdrD.chunk_id.toNat < 65600)
    (repeated : rtmpHeaderEncode hdr timestamp_ext = (encodeBasicHdr 3 hdrD.chunk_id ++
      (if hdrD.ext_ts then netBytes 4 hdrD.timestamp.toNat else []), timestamp_ext))
    (accepts : chunkh hdrD ⟨payload, 0, payload.length⟩ = none)
    (k : Nat) (rd : RtmpDechunker) (i : Nat) (mb : Mbuf) (short : k < payload.length)
    (sized : rd.chunk_sz = max_chunk_sz.1)
    (found : findChunk hdrD.chunk_id rd.chunkl = some (i, ⟨hdrD, some (assembling payload k)⟩))
    (h : Frame mb mb.pos (chunkLoop hdr timestamp_ext max_chunk_sz (payload.drop k))) :
    (dechunkLoop chunkh rd mb).2 =
        (mb.advance (chunkLoop hdr timestamp_ext max_chunk_sz (payload.drop k)).length, none,
          [(hdrD, ⟨payload, 0, payload.length⟩)]) ∧
      findChunk hdrD.chunk_id (dechunkLoop chunkh rd mb).1.chunkl = some (i, ⟨hdrD, none⟩) := by
  have pending : payload.drop k ≠ [] := by simp; omega
  have unfolded : chunkLoop hdr timestamp_ext max_chunk_sz (payload.drop k) =
      encodeBasicHdr 3 hdrD.chunk_id ++ (if hdrD.ext_ts then netBytes 4 hdrD.timestamp.toNat else []) ++
        (payload.drop k).take max_chunk_sz.1 ++
        chunkLoop hdr timestamp_ext max_chunk_sz (payload.drop (k + max_chunk_sz.1)) := by
    rw [chunkLoop, dif_neg pending, repeated, List.drop_drop]
  rw [unfolded] at h ⊢
  have header := rtmpHeaderDecode_basic3 id (by simpa only [List.append_assoc] using h)
  have room : ((payload.drop k).take max_chunk_sz.1).length =
      min (assembling payload k).getSpace max_chunk_sz.1 := by
    simp only [List.length_take, List.length_drop, getSpace, size_assembling, pos_assembling]
    omega
  have step := @chunkContinue_framed max_chunk_sz.1 hdrD (assembling payload k) _ _ _ fmt room
    (Frame.skip (by simpa only [List.append_assoc] using h))
  rw [absorb_assembling] at step
  have next := Frame.skip h
  have read : (mb.advance (encodeBasicHdr 3 hdrD.chunk_id).length).advance
      ((if hdrD.ext_ts then netBytes 4 hdrD.timestamp.toNat else []) ++
        (payload.drop k).take max_chunk_sz.1).length =
      mb.advance (encodeBasicHdr 3 hdrD.chunk_id ++
        (if hdrD.ext_ts then netBytes 4 hdrD.timestamp.toNat else []) ++
        (payload.drop k).take max_chunk_sz.1).length := by
    simp only [advance_advance, List.length_append, Nat.add_assoc]
  rw [read] at step
  have left : 0 < mb.getLeft := by
    have basic := List.length_pos_iff.mpr (encodeBasicHdr_ne_nil 3 hdrD.chunk_id)
    rw [h.getLeft_eq]
    simp only [List.length_append]
    omega
  by_cases more : k + max_chunk_sz.1 < payload.length
  · -- the message stays open, and the rest of the loop carries on from `k + max_chunk_sz`
    have recv := (rtmpDechunkerReceive_found chunkh header found).trans
      (receiveChunk_open chunkh (by rw [if_pos rfl, sized]; exact step) more)
    obtain ⟨out, entry⟩ := dechunkLoop_chunkLoop chunkh max_chunk_sz fmt id repeated accepts
      (k + max_chunk_sz.1)
      { rd with chunkl := rd.chunkl.set i ⟨hdrD, some (assembling payload (k + max_chunk_sz.1))⟩ } i _
      more sized (@findChunk_set _ _ ⟨hdrD, some (assembling payload (k + max_chunk_sz.1))⟩ rfl _ _ found)
      next
    rw [dechunkLoop_ok chunkh left recv, out]
    exact ⟨by simp [Nat.add_assoc], entry⟩
  · -- the last chunk fills the buffer and the message goes to the handler
    have whole : payload.length ≤ k + max_chunk_sz.1 := by omega
    have recv := (rtmpDechunkerReceive_found chunkh header found).trans
      (receiveChunk_full chunkh (by rw [if_pos rfl, sized]; exact step) whole accepts)
    rw [List.drop_eq_nil_of_le whole, chunkLoop_nil] at next ⊢
    rw [dechunkLoop_ok chunkh left recv, dechunkLoop_empty chunkh next.getLeft_eq]
    exact ⟨by simp, @findChunk_set _ _ ⟨hdrD, none⟩ rfl _ _ found⟩
termination_by payload.length - k

-- What `rtmp_chunker` sends with format 0 is handed to the handler once, with the header it was
-- sent with and exactly its bytes, and the chunk stream is left with no open message.
theorem rtmpChunker_dechunk (chunkh : RtmpHeader → Mbuf → Option Errno)
    (chunk_id timestamp timestamp_delta : UInt32) (msg_type_id : UInt8) (msg_stream_id : UInt32)
    (payload : List UInt8) (max_chunk_sz : Nat) (rd : RtmpDechunker)
    (id : 2 ≤ chunk_id.toNat ∧ chunk_id.toNat < 65600) (nonempty : payload ≠ [])
    (short : payload.length < 2 ^ 24) (positive : 0 < max_chunk_sz) (sized : rd.chunk_sz = max_chunk_sz)
    (room : (findChunk chunk_id rd.chunkl).isSome ∨ rd.chunkl.length ≤ MAX_CHUNKS) :
    let hdr : RtmpHeader := ⟨0, chunk_id, timestamp, 0, UInt32.ofNat payload.length, msg_type_id,
      msg_stream_id, decide (timestamp ≥ TIMESTAMP_24MAX)⟩
    chunkh hdr ⟨payload, 0, payload.length⟩ = none →
    ∃ bytes, rtmpChunker 0 chunk_id timestamp timestamp_delta msg_type_id msg_stream_id payload
        max_chunk_sz = .ok bytes ∧
      ∀ mb : Mbuf, Frame mb mb.pos bytes →
        (dechunkLoop chunkh rd mb).2 = (mb.advance bytes.length, none, [(hdr, ⟨payload, 0, payload.length⟩)]) ∧
        ∃ i, findChunk chunk_id (dechunkLoop chunkh rd mb).1.chunkl = some (i, ⟨hdr, none⟩) := by
  intro hdr accepts
  have valid : ¬ (payload = [] ∨ max_chunk_sz = 0) := not_or.mpr ⟨nonempty, by omega⟩
  refine ⟨_, by rw [rtmpChunker, dif_neg valid], ?_⟩
  intro mb h
  set hdr0 : RtmpHeader := ⟨Fin.ofNat 4 0, chunk_id, timestamp, timestamp_delta,
    UInt32.ofNat payload.length, msg_type_id, msg_stream_id, false⟩
  have len : hdr.length.toNat = payload.length :=
    UInt32.toNat_ofNat_of_lt' (by simp only [UInt32.size]; omega)
  have ext0 : (rtmpHeaderEncode hdr0 0).2 = tsExt timestamp := by rw [rtmpHeaderEncode_fmt0 rfl]
  have repeated : rtmpHeaderEncode ⟨3, chunk_id, timestamp, timestamp_delta,
      UInt32.ofNat payload.length, msg_type_id, msg_stream_id, false⟩ (tsExt timestamp) =
      (encodeBasicHdr 3 hdr.chunk_id ++ (if hdr.ext_ts then netBytes 4 hdr.timestamp.toNat else []),
        tsExt timestamp) := by
    rw [rtmpHeaderEncode_fmt3 rfl, extBytes_tsExt]
  have framed : Frame mb mb.pos ((rtmpHeaderEncode hdr0 0).1 ++ (payload.take max_chunk_sz ++
      chunkLoop ⟨3, chunk_id, timestamp, timestamp_delta, UInt32.ofNat payload.length, msg_type_id,
        msg_stream_id, false⟩ (rtmpHeaderEncode hdr0 0).2 ⟨max_chunk_sz, positive⟩
        (payload.drop max_chunk_sz))) := by
    simpa only [List.append_assoc] using h
  have header : rtmpHeaderDecode mb = .ok (hdr, mb.advance (rtmpHeaderEncode hdr0 0).1.length) :=
    rtmpHeaderDecode_encode0 (by rfl) id (by rw [len]; exact short) framed
  obtain ⟨chunkl, i, chunk, found, recv⟩ := rtmpDechunkerReceive_fmt0 chunkh header rfl room
  have body := Frame.skip framed
  have firstLen : min hdr.length.toNat max_chunk_sz = (payload.take max_chunk_sz).length := by
    rw [len, List.length_take]
    omega
  have left : 0 < mb.getLeft := by
    have front : 0 < (payload.take max_chunk_sz).length := by
      have := List.length_pos_iff.mpr nonempty
      rw [List.length_take]
      omega
    rw [framed.getLeft_front]
    simp only [List.length_append]
    omega
  have opened : absorb (alloc hdr.length.toNat) (payload.take max_chunk_sz) =
      assembling payload max_chunk_sz := by
    rw [len, alloc_eq_assembling nonempty]
    simpa using absorb_assembling payload 0 max_chunk_sz
  have step := chunkStart_fmt0 max_chunk_sz chunk (by rfl : hdr.format = 0)
    (by rw [firstLen, body.getLeft_front]; omega)
  rw [firstLen, Frame.extract_front body, opened, advance_advance, ← List.length_append] at step
  have notThree : ¬ hdr.format = 3 := fun three => absurd three (by decide : ¬ (0 : Fin 4) = 3)
  have next := Frame.skip h
  by_cases more : max_chunk_sz < payload.length
  · -- the message stays open, and the continuation chunks bring the rest
    rw [receiveChunk_open chunkh (by rw [if_neg notThree, sized]; exact step) more] at recv
    rw [ext0] at next ⊢
    obtain ⟨out, entry⟩ := dechunkLoop_chunkLoop chunkh ⟨max_chunk_sz, positive⟩ (by rfl) id repeated
      accepts max_chunk_sz
      { rd with chunkl := chunkl.set i ⟨hdr, some (assembling payload max_chunk_sz)⟩ } i _ more sized
      (@findChunk_set _ _ ⟨hdr, some (assembling payload max_chunk_sz)⟩ rfl _ _ found) next
    rw [dechunkLoop_ok chunkh left recv, out]
    exact ⟨by simp [Nat.add_assoc], i, entry⟩
  · -- the message fits in the first chunk
    have whole : payload.length ≤ max_chunk_sz := by omega
    rw [receiveChunk_full chunkh (by rw [if_neg notThree, sized]; exact step) whole accepts] at recv
    rw [List.drop_eq_nil_of_le whole, chunkLoop_nil] at next ⊢
    rw [dechunkLoop_ok chunkh left recv, dechunkLoop_empty chunkh next.getLeft_eq]
    exact ⟨by simp, i, @findChunk_set _ _ ⟨hdr, none⟩ rfl _ _ found⟩

theorem rtmpChunker_dechunk_split :
    (2 ≤ (3 : UInt32).toNat ∧ (3 : UInt32).toNat < 65600) ∧ [1, 2, 3] ≠ ([] : List UInt8) ∧
      [1, 2, 3].length < 2 ^ 24 ∧ 0 < 2 ∧ (⟨[], 2⟩ : RtmpDechunker).chunk_sz = 2 ∧
      ((findChunk 3 []).isSome ∨ ([] : List RtmpChunk).length ≤ MAX_CHUNKS) ∧
      ∃ bytes, rtmpChunker 0 3 0 0 20 1 [1, 2, 3] 2 = .ok bytes ∧
        ∀ mb : Mbuf, Frame mb mb.pos bytes →
          (dechunkLoop (fun _ _ => none) ⟨[], 2⟩ mb).2 = (mb.advance bytes.length, none,
            [(⟨0, 3, 0, 0, 3, 20, 1, false⟩, ⟨[1, 2, 3], 0, 3⟩)]) ∧
          ∃ i, findChunk 3 (dechunkLoop (fun _ _ => none) ⟨[], 2⟩ mb).1.chunkl =
            some (i, ⟨⟨0, 3, 0, 0, 3, 20, 1, false⟩, none⟩) :=
  ⟨⟨by decide, by decide⟩, by decide, by decide, by decide, rfl, by decide,
    rtmpChunker_dechunk (fun _ _ => none) 3 0 0 20 1 [1, 2, 3] 2 ⟨[], 2⟩ ⟨by decide, by decide⟩
      (by decide) (by decide) (by decide) rfl (by decide) rfl⟩

end Message

end Libre.Rtmp
