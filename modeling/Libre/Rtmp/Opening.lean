import Libre.Rtmp.Session

set_option autoImplicit false

/-!
# The server through the client's first command

A chunk that TCP cut stops in its header, where the decoder waits and leaves no trace, or in its
data, where the dechunker has already made room for the chunk stream. Either way the chunk can
come again whole, so the client's handshake, chunk size and first command reach the server's
command handler however TCP cuts them (`rtmp_server_opening`).
-/

namespace Libre.Rtmp

open BigEndian Mbuf Reassembly Libre.Amf

/-! ## A format-0 chunk, whole or cut -/

-- The chunk list once a format-0 chunk with this header was read: the chunk stream's entry holds
-- the header and no open message, and a new chunk stream has its entry at the end.
def closeEntry (chunkl : List RtmpChunk) (hdr : RtmpHeader) : List RtmpChunk :=
  match findChunk hdr.chunk_id chunkl with
  | some (i, _) => chunkl.set i ⟨hdr, none⟩
  | none => chunkl ++ [⟨hdr, none⟩]

theorem set_of_findChunk {chunk_id : UInt32} {chunk : RtmpChunk} :
    ∀ {chunkl : List RtmpChunk} {i : Nat}, findChunk chunk_id chunkl = some (i, chunk) →
      chunkl.set i chunk = chunkl
  | [], _, found => by simp [findChunk] at found
  | c :: chunkl, i, found => by
    unfold findChunk at found
    split at found
    · cases found
      rfl
    · obtain ⟨⟨j, x⟩, rest, eq⟩ := Option.map_eq_some_iff.mp found
      simp only [Prod.mk.injEq] at eq
      obtain ⟨rfl, rfl⟩ := eq
      simp [set_of_findChunk rest]

theorem mem_of_findChunk {chunk_id : UInt32} {chunk : RtmpChunk} :
    ∀ {chunkl : List RtmpChunk} {i : Nat}, findChunk chunk_id chunkl = some (i, chunk) → chunk ∈ chunkl
  | [], _, found => by simp [findChunk] at found
  | c :: chunkl, i, found => by
    unfold findChunk at found
    split at found
    · cases found
      exact List.mem_cons_self
    · obtain ⟨⟨j, x⟩, rest, eq⟩ := Option.map_eq_some_iff.mp found
      simp only [Prod.mk.injEq] at eq
      obtain ⟨rfl, rfl⟩ := eq
      exact List.mem_cons_of_mem c (mem_of_findChunk rest)

section Single

variable (chunkh : RtmpHeader → Mbuf → Option Errno) {rd : RtmpDechunker} {mb mb' : Mbuf}
  {hdr : RtmpHeader}

-- A format-0 chunk does not look at the entry it lands on but for an open message, which a
-- chunk cut in its data would keep.
theorem chunkStart_closed (chunk_sz : Nat) {chunk : RtmpChunk} (fmt : hdr.format = 0)
    (closed : chunk.mb = none) :
    chunkStart chunk_sz chunk hdr mb = chunkStart chunk_sz ⟨hdr, none⟩ hdr mb := by
  obtain ⟨_, _⟩ := chunk
  simp only at closed
  subst closed
  simp [chunkStart, fmt]

theorem chunkStart_cut (chunk_sz : Nat) (fmt : hdr.format = 0)
    (short : mb.getLeft < min hdr.length.toNat chunk_sz) :
    chunkStart chunk_sz ⟨hdr, none⟩ hdr mb = (⟨hdr, none⟩, .error .ENODATA) := by
  simp [chunkStart, fmt, short]

theorem receiveChunk_error {i : Nat} {chunk chunk' : RtmpChunk} {e : Errno}
    (step : (if hdr.format = 3 then chunkContinue rd.chunk_sz chunk mb
      else chunkStart rd.chunk_sz chunk hdr mb) = (chunk', .error e)) :
    receiveChunk chunkh rd i chunk hdr mb = ⟨{ rd with chunkl := rd.chunkl.set i chunk' }, .error e, none⟩ := by
  simp [receiveChunk, step]

theorem rtmpDechunkerReceive_closed (header : rtmpHeaderDecode mb = .ok (hdr, mb')) (fmt : hdr.format = 0)
    (room : rd.chunkl.length ≤ MAX_CHUNKS)
    (closed : ∀ i chunk, findChunk hdr.chunk_id rd.chunkl = some (i, chunk) → chunk.mb = none) :
    ∃ i, findChunk hdr.chunk_id (closeEntry rd.chunkl hdr) = some (i, ⟨hdr, none⟩) ∧
      rtmpDechunkerReceive chunkh rd mb =
        receiveChunk chunkh { rd with chunkl := closeEntry rd.chunkl hdr } i ⟨hdr, none⟩ hdr mb' := by
  cases found : findChunk hdr.chunk_id rd.chunkl with
  | none =>
    have opened : closeEntry rd.chunkl hdr = rd.chunkl ++ [⟨hdr, none⟩] := by
      simp [closeEntry, found]
    rw [opened]
    exact ⟨_, @findChunk_append _ ⟨hdr, none⟩ rfl _ found,
      rtmpDechunkerReceive_open chunkh header fmt found room⟩
  | some entry =>
    obtain ⟨i, chunk⟩ := entry
    have reset : closeEntry rd.chunkl hdr = rd.chunkl.set i ⟨hdr, none⟩ := by
      simp [closeEntry, found]
    have notThree : ¬ hdr.format = 3 := by
      rw [fmt]
      decide
    refine ⟨i, by rw [reset]; exact @findChunk_set _ _ ⟨hdr, none⟩ rfl _ _ found, ?_⟩
    rw [rtmpDechunkerReceive_found chunkh header found, reset]
    simp only [receiveChunk, if_neg notThree, chunkStart_closed _ fmt (closed i chunk found),
      List.set_set]

theorem rtmpDechunkerReceive_single {payload zs : List UInt8}
    (header : rtmpHeaderDecode mb = .ok (hdr, mb')) (fmt : hdr.format = 0)
    (room : rd.chunkl.length ≤ MAX_CHUNKS)
    (closed : ∀ i chunk, findChunk hdr.chunk_id rd.chunkl = some (i, chunk) → chunk.mb = none)
    (nonempty : payload ≠ []) (len : hdr.length.toNat = payload.length)
    (fits : payload.length ≤ rd.chunk_sz) (body : Frame mb' mb'.pos (payload ++ zs))
    (accepts : chunkh hdr ⟨payload, 0, payload.length⟩ = none) :
    rtmpDechunkerReceive chunkh rd mb =
      ⟨{ rd with chunkl := closeEntry rd.chunkl hdr }, .ok (mb'.advance payload.length),
        some (hdr, ⟨payload, 0, payload.length⟩)⟩ := by
  obtain ⟨i, found, recv⟩ := rtmpDechunkerReceive_closed chunkh header fmt room closed
  have whole : min hdr.length.toNat rd.chunk_sz = payload.length := by omega
  have left := body.getLeft_front
  have opened : absorb (alloc hdr.length.toNat) (mb'.buf.extract mb'.pos (mb'.pos + payload.length)) =
      assembling payload payload.length := by
    rw [Frame.extract_front body, len, alloc_eq_assembling nonempty]
    simpa using absorb_assembling payload 0 payload.length
  have step := @chunkStart_fmt0 rd.chunk_sz ⟨hdr, none⟩ hdr mb' fmt (by omega)
  rw [whole, opened] at step
  have notThree : ¬ hdr.format = 3 := by
    rw [fmt]
    decide
  rw [recv, receiveChunk_full chunkh (by rw [if_neg notThree]; exact step) (Nat.le_refl _) accepts,
    set_of_findChunk found]

-- A chunk cut in its data: the chunk stream's entry is made before the dechunker waits.
theorem rtmpDechunkerReceive_cut (header : rtmpHeaderDecode mb = .ok (hdr, mb')) (fmt : hdr.format = 0)
    (room : rd.chunkl.length ≤ MAX_CHUNKS)
    (closed : ∀ i chunk, findChunk hdr.chunk_id rd.chunkl = some (i, chunk) → chunk.mb = none)
    (short : mb'.getLeft < min hdr.length.toNat rd.chunk_sz) :
    rtmpDechunkerReceive chunkh rd mb = ⟨{ rd with chunkl := closeEntry rd.chunkl hdr }, .error .ENODATA, none⟩ := by
  obtain ⟨i, found, recv⟩ := rtmpDechunkerReceive_closed chunkh header fmt room closed
  have notThree : ¬ hdr.format = 3 := by
    rw [fmt]
    decide
  rw [recv, receiveChunk_error chunkh (by rw [if_neg notThree]; exact chunkStart_cut _ fmt short),
    set_of_findChunk found]

end Single

/-! ## A message sent as one chunk -/

-- A message that `rtmp_chunker` sends as one format-0 chunk with a one-byte basic header and no
-- extended timestamp.
structure SingleChunk (hdr : RtmpHeader) (payload : List UInt8) : Prop where
  fmt : hdr.format = 0
  id : 2 ≤ hdr.chunk_id.toNat ∧ hdr.chunk_id.toNat < 64
  plain : hdr.timestamp < TIMESTAMP_24MAX
  len : hdr.length = UInt32.ofNat payload.length
  short : payload.length < 2 ^ 24
  nonempty : payload ≠ []

-- The header the decoder reads back from such a chunk.
def receivedHeader (hdr : RtmpHeader) : RtmpHeader :=
  ⟨0, hdr.chunk_id, hdr.timestamp, 0, hdr.length, hdr.type_id, hdr.stream_id, false⟩

section Message

variable (chunkh : RtmpHeader → Mbuf → Option Errno) {rd : RtmpDechunker} {mb : Mbuf}
  {hdr : RtmpHeader} {payload : List UInt8}

theorem SingleChunk.header_eq (sc : SingleChunk hdr payload) :
    (rtmpHeaderEncode hdr 0).1 = [UInt8.ofNat hdr.chunk_id.toNat] ++ (writeU24 hdr.timestamp ++
      writeU24 hdr.length ++ [hdr.type_id] ++ (netBytes 4 hdr.stream_id.toNat).reverse) := by
  have inline : ¬ hdr.chunk_id ≥ 320 ∧ ¬ hdr.chunk_id ≥ RTMP_CHUNK_OFFSET := by
    have := sc.id
    simp only [RTMP_CHUNK_OFFSET, ge_iff_le, UInt32.le_iff_toNat_le]
    exact ⟨by simp; omega, by simp; omega⟩
  have small : ts24 hdr.timestamp = hdr.timestamp := if_neg (by simpa using sc.plain)
  have unmarked : tsExt hdr.timestamp = 0 := if_neg (by simpa using sc.plain)
  rw [rtmpHeaderEncode_fmt0 sc.fmt, encodeBasicHdr, if_neg inline.1, if_neg inline.2, small, unmarked]
  simp

theorem SingleChunk.header_length (sc : SingleChunk hdr payload) : (rtmpHeaderEncode hdr 0).1.length = 12 := by
  rw [sc.header_eq]
  simp [writeU24]

theorem SingleChunk.decode {zs : List UInt8} (sc : SingleChunk hdr payload)
    (h : Frame mb mb.pos ((rtmpHeaderEncode hdr 0).1 ++ zs)) :
    rtmpHeaderDecode mb = .ok (receivedHeader hdr, mb.advance 12) := by
  have below : hdr.length.toNat < 2 ^ 24 := by
    rw [sc.len, UInt32.toNat_ofNat_of_lt' (by simp only [UInt32.size]; have := sc.short; omega)]
    exact sc.short
  rw [rtmpHeaderDecode_encode0 sc.fmt ⟨sc.id.1, by have := sc.id.2; omega⟩ below h, sc.header_length]
  have unmarked : decide (hdr.timestamp ≥ TIMESTAMP_24MAX) = false := by
    simpa using sc.plain
  rw [unmarked]
  rfl

theorem SingleChunk.decode_cut {n : Nat} (sc : SingleChunk hdr payload) (cut : n < 12)
    (h : Frame mb mb.pos ((rtmpHeaderEncode hdr 0).1.take n)) : rtmpHeaderDecode mb = .error .ENODATA := by
  rw [sc.header_eq] at h
  rcases n with _ | n
  · -- nothing of the chunk yet
    have empty : mb.getLeft = 0 := by simpa using h.getLeft_eq
    simp [rtmpHeaderDecode, decodeBasicHdr, empty]
  · -- the basic header, and less than the eleven bytes of the message header
    rw [List.singleton_append, List.take_succ_cons] at h
    have rest := h.getLeft_eq
    rw [List.length_cons, List.length_take] at rest
    have basic := @decodeBasicHdr_inline _ _ 0 _ sc.id zeroHeader (by simpa using h)
    have waits : (mb.advance 1).getLeft < 11 := by
      simp only [getLeft, advance_pos, advance_end] at rest ⊢
      omega
    simp [rtmpHeaderDecode, basic, decodeMsgHdr, waits]

theorem SingleChunk.received_length (sc : SingleChunk hdr payload) :
    (receivedHeader hdr).length.toNat = payload.length := by
  rw [receivedHeader, sc.len]
  exact UInt32.toNat_ofNat_of_lt' (by simp only [UInt32.size]; have := sc.short; omega)

theorem rtmpDechunkerReceive_message (sc : SingleChunk hdr payload) (room : rd.chunkl.length ≤ MAX_CHUNKS)
    (closed : ∀ i chunk, findChunk hdr.chunk_id rd.chunkl = some (i, chunk) → chunk.mb = none)
    (fits : payload.length ≤ rd.chunk_sz)
    (accepts : chunkh (receivedHeader hdr) ⟨payload, 0, payload.length⟩ = none) {zs : List UInt8}
    (h : Frame mb mb.pos ((rtmpHeaderEncode hdr 0).1 ++ payload ++ zs)) :
    rtmpDechunkerReceive chunkh rd mb =
      ⟨{ rd with chunkl := closeEntry rd.chunkl (receivedHeader hdr) }, .ok (mb.advance (12 + payload.length)),
        some (receivedHeader hdr, ⟨payload, 0, payload.length⟩)⟩ := by
  rw [List.append_assoc] at h
  have header := sc.decode h
  have body := Frame.skip h
  rw [sc.header_length] at body
  rw [rtmpDechunkerReceive_single chunkh header rfl room closed sc.nonempty sc.received_length fits body
    accepts, advance_advance]

theorem rtmpDechunkerReceive_message_cut (sc : SingleChunk hdr payload) (room : rd.chunkl.length ≤ MAX_CHUNKS)
    (closed : ∀ i chunk, findChunk hdr.chunk_id rd.chunkl = some (i, chunk) → chunk.mb = none)
    (fits : payload.length ≤ rd.chunk_sz) {n : Nat} (cut : n < 12 + payload.length)
    (h : Frame mb mb.pos (((rtmpHeaderEncode hdr 0).1 ++ payload).take n)) :
    ∃ rd', (rd' = rd ∨ rd' = { rd with chunkl := closeEntry rd.chunkl (receivedHeader hdr) }) ∧
      rtmpDechunkerReceive chunkh rd mb = ⟨rd', .error .ENODATA, none⟩ := by
  by_cases inHeader : n < 12
  · -- the header is cut: nothing changes
    rw [List.take_append_of_le_length (by rw [sc.header_length]; omega)] at h
    refine ⟨rd, .inl rfl, ?_⟩
    simp [rtmpDechunkerReceive, sc.decode_cut inHeader h]
  · -- the data is cut: the entry is there, and the chunk waits
    rw [List.take_append, List.take_of_length_le (by rw [sc.header_length]; omega), sc.header_length] at h
    have header := sc.decode h
    have body := Frame.skip h
    rw [sc.header_length] at body
    have left := body.getLeft_eq
    rw [List.length_take] at left
    refine ⟨_, .inr rfl, rtmpDechunkerReceive_cut chunkh header rfl room closed ?_⟩
    rw [sc.received_length, left]
    omega

end Message

/-! ## Whole messages on the server -/

section Handler

variable {conn : RtmpConn} {hdr : RtmpHeader}

theorem dechunkReceive_nothing {mb : Mbuf} {rd : RtmpDechunker} {out : Except Errno Mbuf}
    (recv : rtmpDechunkerReceive (fun hdr buf => (rtmpDechunkHandler conn hdr buf).2.2) conn.dechunk mb =
      ⟨rd, out, none⟩) :
    dechunkReceive conn mb = ({ conn with dechunk := rd }, [], out) := by
  simp [dechunkReceive, recv]

theorem dechunkReceive_message {mb buf : Mbuf} {rd : RtmpDechunker} {out : Except Errno Mbuf}
    (recv : rtmpDechunkerReceive (fun hdr buf => (rtmpDechunkHandler conn hdr buf).2.2) conn.dechunk mb =
      ⟨rd, out, some (hdr, buf)⟩) :
    dechunkReceive conn mb = ((rtmpDechunkHandler { conn with dechunk := rd } hdr buf).1,
      (rtmpDechunkHandler { conn with dechunk := rd } hdr buf).2.1, out) := by
  simp [dechunkReceive, recv]

-- `RTMP_TYPE_SET_CHUNK_SIZE`: the size, below 2^31 and not zero, is the dechunker's from now on.
theorem rtmpDechunkHandler_setChunkSize {size : Nat} (type : hdr.type_id = RTMP_TYPE_SET_CHUNK_SIZE)
    (positive : 0 < size) (below : size < 2 ^ 31) :
    rtmpDechunkHandler conn hdr ⟨netBytes 4 size, 0, (netBytes 4 size).length⟩ =
      ({ conn with dechunk := { conn.dechunk with chunk_sz := size } }, [], none) := by
  have read := @Frame.readU32_front _ [] size (by simpa using frame_self (netBytes 4 size))
  have masked : (UInt32.ofNat size &&& 0x7fffffff).toNat = size := by
    rw [UInt32.toNat_and, UInt32.toNat_ofNat_of_lt' (by simp only [UInt32.size]; omega),
      show (0x7fffffff : UInt32).toNat = 2 ^ 31 - 1 from rfl, Nat.and_two_pow_sub_one_eq_mod,
      Nat.mod_eq_of_lt below]
  have nonzero : ¬ UInt32.ofNat size &&& 0x7fffffff = 0 := by
    intro zero
    rw [zero] at masked
    simp at masked
    omega
  simp [rtmpDechunkHandler, type, getLeft, read, nonzero, masked]

-- `RTMP_TYPE_AMF0` on the control stream of a server: the command goes to the application.
theorem rtmpDechunkHandler_command {buf : Mbuf} {msg : Dict} (type : hdr.type_id = RTMP_TYPE_AMF0)
    (server : conn.is_client = false) (control : hdr.stream_id = 0) (decoded : rtmpAmfDecode buf = .ok msg) :
    rtmpDechunkHandler conn hdr buf = (conn, [.command msg], none) := by
  have notSize : ¬ hdr.type_id = RTMP_TYPE_SET_CHUNK_SIZE := by rw [type]; decide
  have notAck : ¬ hdr.type_id = RTMP_TYPE_ACKNOWLEDGEMENT := by rw [type]; decide
  rw [rtmpDechunkHandler, if_neg notSize, if_neg notAck, if_pos type]
  simp [handleAmfCommand, decoded, server, control]

theorem serverHandlePacket_done {rand : Rand} {mb : Mbuf} (done : conn.state = .HANDSHAKE_DONE) :
    serverHandlePacket conn rand mb = dechunkReceive conn mb := by
  simp [serverHandlePacket, done]

theorem clientHandlePacket_done {mb : Mbuf} (done : conn.state = .HANDSHAKE_DONE) :
    clientHandlePacket conn mb = dechunkReceive conn mb := by
  simp [clientHandlePacket, done]

theorem handlePacket_done (rand : Rand) (mb : Mbuf) (done : conn.state = .HANDSHAKE_DONE) :
    handlePacket conn rand mb = dechunkReceive conn mb := by
  unfold handlePacket
  split
  · exact clientHandlePacket_done done
  · exact serverHandlePacket_done done

end Handler

/-! ## The server through the client's first command -/

-- The header `rtmp_control` gives the chunk size, and the one `rtmp_send_amf_command` gives a
-- command on the connection's chunk stream.
def setChunkSizeHdr : RtmpHeader :=
  ⟨Fin.ofNat 4 0, RTMP_CHUNK_ID_CONTROL, 0, 0, UInt32.ofNat 4, RTMP_TYPE_SET_CHUNK_SIZE,
    RTMP_CONTROL_STREAM_ID, false⟩

def commandHdr (payload : List UInt8) : RtmpHeader :=
  ⟨Fin.ofNat 4 0, RTMP_CHUNK_ID_CONN, 0, 0, UInt32.ofNat payload.length, RTMP_TYPE_AMF0,
    RTMP_CONTROL_STREAM_ID, false⟩

theorem setChunkSizeMsg_eq : setChunkSizeMsg = (rtmpHeaderEncode setChunkSizeHdr 0).1 ++ netBytes 4 4096 := by
  decide

theorem singleChunk_setChunkSize : SingleChunk setChunkSizeHdr (netBytes 4 4096) :=
  ⟨rfl, by decide, by decide, rfl, by decide, by decide⟩

theorem singleChunk_command {payload : List UInt8} (nonempty : payload ≠ []) (short : payload.length < 2 ^ 24) :
    SingleChunk (commandHdr payload) payload :=
  ⟨rfl, show 2 ≤ RTMP_CHUNK_ID_CONN.toNat ∧ RTMP_CHUNK_ID_CONN.toNat < 64 by decide,
    show (0 : UInt32) < TIMESTAMP_24MAX by decide, rfl, short, nonempty⟩

/-! ## The peer's chunk size -/

-- A dechunker waiting for the peer's chunk size: the default size, and the control chunk
-- stream's entry made early when the message was cut in its data.
def SizePending (d : RtmpDechunker) : Prop :=
  d = ⟨[], RTMP_DEFAULT_CHUNKSIZE⟩ ∨
    d = ⟨[⟨receivedHeader setChunkSizeHdr, none⟩], RTMP_DEFAULT_CHUNKSIZE⟩

section PeerChunkSize

variable {conn : RtmpConn} {mb : Mbuf}

theorem SizePending.facts {d : RtmpDechunker} (pending : SizePending d) :
    d.chunk_sz = RTMP_DEFAULT_CHUNKSIZE ∧ d.chunkl.length ≤ MAX_CHUNKS ∧ (∀ c ∈ d.chunkl, c.mb = none) ∧
      { d with chunkl := closeEntry d.chunkl (receivedHeader setChunkSizeHdr) } =
        ⟨[⟨receivedHeader setChunkSizeHdr, none⟩], RTMP_DEFAULT_CHUNKSIZE⟩ := by
  rcases pending with rfl | rfl <;> exact ⟨rfl, by decide, by simp, by decide⟩

-- The peer's chunk size of 4096, whole: the dechunker takes chunks of 4096 bytes from now on,
-- with the control chunk stream's entry left closed.
theorem dechunkReceive_setChunkSize {zs : List UInt8} (pending : SizePending conn.dechunk)
    (h : Frame mb mb.pos (setChunkSizeMsg ++ zs)) :
    dechunkReceive conn mb = ({ conn with dechunk := ⟨[⟨receivedHeader setChunkSizeHdr, none⟩], 4096⟩ }, [],
      .ok (mb.advance setChunkSizeMsg.length)) := by
  obtain ⟨sized, room, closed, entry⟩ := pending.facts
  have handled (c : RtmpConn) := @rtmpDechunkHandler_setChunkSize c (receivedHeader setChunkSizeHdr) 4096 rfl
    (by decide) (by decide)
  rw [setChunkSizeMsg_eq] at h
  have recv := rtmpDechunkerReceive_message (fun hdr buf => (rtmpDechunkHandler conn hdr buf).2.2)
    singleChunk_setChunkSize room (fun _ _ found => closed _ (mem_of_findChunk found))
    (by rw [sized]; decide) (by simp only [handled]) h
  rw [dechunkReceive_message recv, entry, handled]
  rfl

-- The peer's chunk size cut: the dechunker waits, still for the chunk size.
theorem dechunkReceive_setChunkSize_cut (pending : SizePending conn.dechunk)
    (short : mb.getLeft < setChunkSizeMsg.length) (h : Frame mb mb.pos (setChunkSizeMsg.take mb.getLeft)) :
    ∃ d, SizePending d ∧ dechunkReceive conn mb = ({ conn with dechunk := d }, [], .error .ENODATA) := by
  obtain ⟨sized, room, closed, entry⟩ := pending.facts
  rw [setChunkSizeMsg_eq] at h short
  obtain ⟨d, choice, recv⟩ := rtmpDechunkerReceive_message_cut
    (fun hdr buf => (rtmpDechunkHandler conn hdr buf).2.2) singleChunk_setChunkSize room
    (fun _ _ found => closed _ (mem_of_findChunk found)) (by rw [sized]; decide)
    (by simpa [singleChunk_setChunkSize.header_length] using short) h
  refine ⟨d, ?_, dechunkReceive_nothing recv⟩
  rcases choice with rfl | rfl
  · exact pending
  · rw [entry]
    exact .inr rfl

end PeerChunkSize

-- The server's dechunker after the first `j` messages of the opening: empty until the handshake
-- is done, then the control chunk stream, then the connection's. A chunk cut in its data has
-- made its entry early.
def openingDechunker (hdrC : RtmpHeader) : Nat → RtmpDechunker → Prop
  | 0, d | 1, d | 2, d => d = ⟨[], RTMP_DEFAULT_CHUNKSIZE⟩
  | 3, d => d = ⟨[], RTMP_DEFAULT_CHUNKSIZE⟩ ∨
    d = ⟨[⟨receivedHeader setChunkSizeHdr, none⟩], RTMP_DEFAULT_CHUNKSIZE⟩
  | 4, d => d = ⟨[⟨receivedHeader setChunkSizeHdr, none⟩], 4096⟩ ∨
    d = ⟨[⟨receivedHeader setChunkSizeHdr, none⟩, ⟨hdrC, none⟩], 4096⟩
  | _, d => d = ⟨[⟨receivedHeader setChunkSizeHdr, none⟩, ⟨hdrC, none⟩], 4096⟩

-- The server after the first `j` messages of the opening: the handshake's stage, with the
-- dechunker as it stands.
def ServerOpening (hdrC : RtmpHeader) (j : Nat) (conn : RtmpConn) : Prop :=
  ∃ t m d, conn = { serverPhase j with total_bytes := t, mb := m, dechunk := d } ∧ openingDechunker hdrC j d

-- The handshake's answers, then the command for the application.
def openingEmits (rand : Rand) (c1 : List UInt8) (msg : Dict) : Nat → List RtmpEvent
  | 4 => [.command msg]
  | j => serverEmits rand c1 j

section Opening

variable {hdrC : RtmpHeader} {j : Nat} {conn : RtmpConn}

theorem ServerOpening.of_stage (early : j ≤ 3) (h : Stage serverPhase j conn) : ServerOpening hdrC j conn := by
  obtain ⟨t, m, rfl⟩ := h
  refine ⟨t, m, _, rfl, ?_⟩
  match j, early with
  | 0, _ | 1, _ | 2, _ => rfl
  | 3, _ => exact .inl rfl

theorem ServerOpening.rebuffer (m : Option Mbuf) (h : ServerOpening hdrC j conn) :
    ServerOpening hdrC j { conn with mb := m } := by
  obtain ⟨t, _, d, rfl, dd⟩ := h
  exact ⟨t, m, d, rfl, dd⟩

theorem ServerOpening.recount (t : UInt64) (h : ServerOpening hdrC j conn) :
    ServerOpening hdrC j { conn with total_bytes := t } := by
  obtain ⟨_, m, d, rfl, dd⟩ := h
  exact ⟨t, m, d, rfl, dd⟩

theorem ServerOpening.stage (early : j < 3) (h : ServerOpening hdrC j conn) : Stage serverPhase j conn := by
  obtain ⟨t, m, d, rfl, dd⟩ := h
  match j, early with
  | 0, _ | 1, _ | 2, _ =>
    cases dd
    exact ⟨t, m, rfl⟩

variable {rand : Rand} {mb : Mbuf} {zs : List UInt8}

theorem openingDechunker_four {payload : List UInt8} {d : RtmpDechunker}
    (dd : openingDechunker (receivedHeader (commandHdr payload)) 4 d) :
    d.chunk_sz = 4096 ∧ d.chunkl.length ≤ MAX_CHUNKS ∧ (∀ c ∈ d.chunkl, c.mb = none) ∧
      { d with chunkl := closeEntry d.chunkl (receivedHeader (commandHdr payload)) } =
        ⟨[⟨receivedHeader setChunkSizeHdr, none⟩, ⟨receivedHeader (commandHdr payload), none⟩], 4096⟩ := by
  have other : ¬ RTMP_CHUNK_ID_CONN = RTMP_CHUNK_ID_CONTROL := by decide
  rcases dd with rfl | rfl <;> refine ⟨rfl, by simp [MAX_CHUNKS], by simp, ?_⟩ <;>
    simp [closeEntry, findChunk, receivedHeader, commandHdr, setChunkSizeHdr, other]

theorem handlePacket_setChunkSize (at_ : ServerOpening hdrC 3 conn) (h : Frame mb mb.pos (setChunkSizeMsg ++ zs)) :
    ∃ conn', handlePacket conn rand mb = (conn', [], .ok (mb.advance setChunkSizeMsg.length)) ∧
      ServerOpening hdrC 4 conn' := by
  obtain ⟨t, m, d, same, pending⟩ := at_
  have waiting : SizePending conn.dechunk := by rw [same]; exact pending
  rw [handlePacket_done rand mb (by rw [same]; rfl), dechunkReceive_setChunkSize waiting h]
  exact ⟨_, rfl, t, m, _, by subst same; rfl, .inl rfl⟩

theorem handlePacket_setChunkSize_cut (at_ : ServerOpening hdrC 3 conn) (short : mb.getLeft < setChunkSizeMsg.length)
    (h : Frame mb mb.pos (setChunkSizeMsg.take mb.getLeft)) :
    ∃ conn', handlePacket conn rand mb = (conn', [], .error .ENODATA) ∧ ServerOpening hdrC 3 conn' := by
  obtain ⟨t, m, d, same, pending⟩ := at_
  have waiting : SizePending conn.dechunk := by rw [same]; exact pending
  obtain ⟨d', pending', recv⟩ := dechunkReceive_setChunkSize_cut waiting short h
  rw [handlePacket_done rand mb (by rw [same]; rfl), recv]
  exact ⟨_, rfl, t, m, d', by subst same; rfl, pending'⟩

section Command

variable {payload : List UInt8} {msg : Dict}

theorem handlePacket_command (nonempty : payload ≠ []) (fits : payload.length ≤ 4096)
    (decoded : rtmpAmfDecode ⟨payload, 0, payload.length⟩ = .ok msg)
    (at_ : ServerOpening (receivedHeader (commandHdr payload)) 4 conn)
    (h : Frame mb mb.pos ((rtmpHeaderEncode (commandHdr payload) 0).1 ++ payload ++ zs)) :
    ∃ conn', handlePacket conn rand mb = (conn', [.command msg],
        .ok (mb.advance ((rtmpHeaderEncode (commandHdr payload) 0).1 ++ payload).length)) ∧
      ServerOpening (receivedHeader (commandHdr payload)) 5 conn' := by
  have sc := singleChunk_command nonempty (by omega)
  obtain ⟨t, m, d, same, dd⟩ := at_
  obtain ⟨sized, room, closed, entry⟩ := openingDechunker_four dd
  have dechunk : conn.dechunk = d := by rw [same]
  have server : conn.is_client = false := by rw [same]; rfl
  have handled (e : RtmpDechunker) := @rtmpDechunkHandler_command { conn with dechunk := e }
    (receivedHeader (commandHdr payload)) _ msg rfl server rfl decoded
  have accepts := @rtmpDechunkHandler_command conn (receivedHeader (commandHdr payload)) _ msg rfl server rfl decoded
  rw [← dechunk] at room closed
  have recv := rtmpDechunkerReceive_message (fun hdr buf => (rtmpDechunkHandler conn hdr buf).2.2)
    sc room (fun _ _ found => closed _ (mem_of_findChunk found)) (by rw [dechunk, sized]; exact fits)
    (by simp only [accepts]) h
  rw [handlePacket_done rand mb (by rw [same]; rfl), dechunkReceive_message recv, handled, List.length_append,
    sc.header_length]
  refine ⟨_, rfl, t, m, _, ?_, rfl⟩
  rw [dechunk, entry, same]
  rfl

theorem handlePacket_command_cut (nonempty : payload ≠ []) (fits : payload.length ≤ 4096)
    (at_ : ServerOpening (receivedHeader (commandHdr payload)) 4 conn)
    (short : mb.getLeft < ((rtmpHeaderEncode (commandHdr payload) 0).1 ++ payload).length)
    (h : Frame mb mb.pos (((rtmpHeaderEncode (commandHdr payload) 0).1 ++ payload).take mb.getLeft)) :
    ∃ conn', handlePacket conn rand mb = (conn', [], .error .ENODATA) ∧
      ServerOpening (receivedHeader (commandHdr payload)) 4 conn' := by
  have sc := singleChunk_command nonempty (by omega)
  obtain ⟨t, m, d, same, dd⟩ := at_
  obtain ⟨sized, room, closed, entry⟩ := openingDechunker_four dd
  have dechunk : conn.dechunk = d := by rw [same]
  rw [← dechunk] at room closed
  obtain ⟨rd, choice, recv⟩ := rtmpDechunkerReceive_message_cut
    (fun hdr buf => (rtmpDechunkHandler conn hdr buf).2.2) sc room
    (fun _ _ found => closed _ (mem_of_findChunk found)) (by rw [dechunk, sized]; exact fits)
    (by rwa [List.length_append, sc.header_length] at short) h
  rw [handlePacket_done rand mb (by rw [same]; rfl), dechunkReceive_nothing recv]
  refine ⟨_, rfl, t, m, rd, by rw [same], ?_⟩
  rcases choice with rfl | rfl
  · rwa [dechunk]
  · rw [dechunk, entry]
    exact .inr rfl

end Command

end Opening

-- The opening as the server reads it: the handshake, the client's chunk size, then one command
-- that fits a chunk.
theorem openingExpects (rand : Rand) {c1 c2 payload : List UInt8} {msg : Dict}
    (sized1 : c1.length = RTMP_HANDSHAKE_SIZE) (sized2 : c2.length = RTMP_HANDSHAKE_SIZE)
    (nonempty : payload ≠ []) (fits : payload.length ≤ 4096)
    (decoded : rtmpAmfDecode ⟨payload, 0, payload.length⟩ = .ok msg) :
    Expects rand [[RTMP_PROTOCOL_VERSION], c1, c2, setChunkSizeMsg,
        (rtmpHeaderEncode (commandHdr payload) 0).1 ++ payload]
      (ServerOpening (receivedHeader (commandHdr payload))) (openingEmits rand c1 msg) where
  whole j hj conn mb zs at_ h := by
    have handshake := serverExpects rand sized1 sized2
    match j, hj with
    | 0, _ | 1, _ | 2, _ =>
      obtain ⟨conn', step, later⟩ := handshake.whole _ (by simp) conn mb zs (at_.stage (by decide)) h
      exact ⟨conn', step, ServerOpening.of_stage (by decide) later⟩
    | 3, _ => exact handlePacket_setChunkSize at_ h
    | 4, _ => exact handlePacket_command nonempty fits decoded at_ h
  part j hj conn mb at_ short h := by
    have handshake := serverExpects rand sized1 sized2
    match j, hj with
    | 0, _ | 1, _ | 2, _ =>
      obtain ⟨conn', step, later⟩ := handshake.part _ (by simp) conn mb (at_.stage (by decide)) short h
      exact ⟨conn', step, ServerOpening.of_stage (by decide) later⟩
    | 3, _ => exact handlePacket_setChunkSize_cut at_ short h
    | 4, _ => exact handlePacket_command_cut nonempty fits at_ short h
  rebuffer _ _ m at_ := at_.rebuffer m
  recount _ _ t at_ := at_.recount t
  nonempty := by
    have handshake := (serverExpects rand sized1 sized2).nonempty
    have sent : (rtmpHeaderEncode (commandHdr payload) 0).1 ++ payload ≠ [] := by simp [nonempty]
    intro w hw
    simp only [List.mem_cons, List.not_mem_nil, or_false] at hw
    rcases hw with rfl | rfl | rfl | rfl | rfl
    · exact handshake _ (by simp)
    · exact handshake _ (by simp)
    · exact handshake _ (by simp)
    · exact nofun
    · exact sent

-- The server through the client's first command, however TCP cuts the stream: the command
-- reaches the application as the client encoded it.
theorem rtmp_server_opening (rand : Rand) (c1 c2 : List UInt8)
    (sized1 : c1.length = RTMP_HANDSHAKE_SIZE) (sized2 : c2.length = RTMP_HANDSHAKE_SIZE)
    (vs : List AmfValue) (nonempty : vs ≠ []) (wf : elemsWf vs = true) (fits : (elemsBytes vs).length ≤ 4096)
    (command : List UInt8) (chunked : rtmpChunker 0 RTMP_CHUNK_ID_CONN 0 0 RTMP_TYPE_AMF0
      RTMP_CONTROL_STREAM_ID (elemsBytes vs) 4096 = .ok command)
    (segs : List (List UInt8)) (cut : segs.flatten = RTMP_PROTOCOL_VERSION :: c1 ++ c2 ++ setChunkSizeMsg ++ command) :
    ∃ m, recvRun (rtmpConnAlloc false [] []) rand segs =
        ({ rtmpConnAlloc false [] [] with
            state := .HANDSHAKE_DONE, send_chunk_size := 4096,
            total_bytes := UInt64.ofNat (1 + 2 * RTMP_HANDSHAKE_SIZE + setChunkSizeMsg.length + command.length),
            mb := m,
            dechunk := ⟨[⟨receivedHeader setChunkSizeHdr, none⟩,
              ⟨receivedHeader (commandHdr (elemsBytes vs)), none⟩], 4096⟩ },
          [.send ([RTMP_PROTOCOL_VERSION, 0, 0, 0, 0, VER_MAJOR, VER_MINOR, VER_PATCH, 0] ++ rand.1),
            .send c1, .send setChunkSizeMsg, .command (elemsOdict 0 vs)]) ∧
      Websock.Holds m [] := by
  have sent := elemsBytes_ne_nil nonempty
  have framed : command = (rtmpHeaderEncode (commandHdr (elemsBytes vs)) 0).1 ++ elemsBytes vs := by
    rw [rtmpChunker_single sent fits] at chunked
    exact (Except.ok.inj chunked).symm
  have decoded : rtmpAmfDecode ⟨elemsBytes vs, 0, (elemsBytes vs).length⟩ = .ok (elemsOdict 0 vs) := by
    rw [rtmpAmfDecode, decodeRoot_elemsBytes vs [] 0 _ wf (frame_self _), List.nil_append]
  have header := (singleChunk_command sent (by omega)).header_length
  have total : [[RTMP_PROTOCOL_VERSION], c1, c2, setChunkSizeMsg, command].flatten.length =
      1 + 2 * RTMP_HANDSHAKE_SIZE + setChunkSizeMsg.length + command.length := by
    simp only [List.flatten_cons, List.flatten_nil, List.length_append, List.length_singleton,
      List.length_nil, sized1, sized2]
    omega
  have bound : 1 + 2 * RTMP_HANDSHAKE_SIZE + setChunkSizeMsg.length + command.length ≤ 4 + 4096 + 4096 := by
    rw [framed, List.length_append, header]
    show 1 + 2 * 1536 + 16 + (12 + _) ≤ _
    omega
  subst framed
  have quiet : ∀ j conn, ServerOpening (receivedHeader (commandHdr (elemsBytes vs))) j conn →
      [[RTMP_PROTOCOL_VERSION], c1, c2, setChunkSizeMsg,
        (rtmpHeaderEncode (commandHdr (elemsBytes vs)) 0).1 ++ elemsBytes vs].flatten.length <
        (conn.last_ack + conn.window_ack_size.toUInt64).toNat := by
    rintro j _ ⟨t, m, d, rfl, _⟩
    rw [total]
    show _ < (0 + (UInt32.ofNat WINDOW_ACK_SIZE).toUInt64).toNat
    rw [show (0 + (UInt32.ofNat WINDOW_ACK_SIZE).toUInt64).toNat = 2500000 by decide]
    omega
  obtain ⟨conn, run, ⟨t, m, d, rfl, dd⟩, counted, held⟩ :=
    recvRun_stream (openingExpects rand sized1 sized2 sent fits decoded)
      (by rw [total]; unfold RTMP_MESSAGE_LEN_MAX; omega) quiet
      (by rintro _ _ ⟨_, _, _, same, _⟩; rw [same]; rfl)
      (⟨0, none, _, rfl, rfl⟩ : ServerOpening _ 0 (rtmpConnAlloc false [] [])) rfl rfl segs
      (by rw [cut]; simp)
  cases dd
  rw [total] at counted
  refine ⟨m, ?_, held⟩
  rw [run, ← counted]
  rfl

-- The connect command of the client's handshake witness, and the chunk it goes out in.
def sampleConnect : List AmfValue := connectCommand (cstr "live") (cstr "rtmp://a/live/s") 1

def sampleConnectChunk : List UInt8 :=
  (rtmpHeaderEncode (commandHdr (elemsBytes sampleConnect)) 0).1 ++ elemsBytes sampleConnect

-- A witness: C1 and C2 whole, the chunk size cut after five bytes and the command after thirty.
theorem rtmp_server_opening_split :
    ∃ m, recvRun (rtmpConnAlloc false [] []) sampleRand
        [RTMP_PROTOCOL_VERSION :: List.replicate 1536 7, List.replicate 1536 9 ++ setChunkSizeMsg.take 5,
          setChunkSizeMsg.drop 5 ++ sampleConnectChunk.take 30, sampleConnectChunk.drop 30] =
        ({ rtmpConnAlloc false [] [] with
            state := .HANDSHAKE_DONE, send_chunk_size := 4096,
            total_bytes :=
              UInt64.ofNat (1 + 2 * RTMP_HANDSHAKE_SIZE + setChunkSizeMsg.length + sampleConnectChunk.length),
            mb := m,
            dechunk := ⟨[⟨receivedHeader setChunkSizeHdr, none⟩,
              ⟨receivedHeader (commandHdr (elemsBytes sampleConnect)), none⟩], 4096⟩ },
          [.send ([RTMP_PROTOCOL_VERSION, 0, 0, 0, 0, VER_MAJOR, VER_MINOR, VER_PATCH, 0] ++ sampleRand.1),
            .send (List.replicate 1536 7), .send setChunkSizeMsg, .command (elemsOdict 0 sampleConnect)]) ∧
      Websock.Holds m [] :=
  rtmp_server_opening sampleRand (List.replicate 1536 7) (List.replicate 1536 9)
    (by rw [List.length_replicate]; rfl) (by rw [List.length_replicate]; rfl) sampleConnect
    (List.cons_ne_nil _ _) (by decide) (by decide +kernel) sampleConnectChunk
    (rtmpChunker_single (elemsBytes_ne_nil (List.cons_ne_nil _ _)) (by decide +kernel)) _
    (by
      simp only [List.flatten_cons, List.flatten_nil, List.append_nil, List.cons_append, List.append_assoc,
        List.take_append_drop]
      rw [← List.append_assoc (setChunkSizeMsg.take 5), List.take_append_drop])

end Libre.Rtmp
