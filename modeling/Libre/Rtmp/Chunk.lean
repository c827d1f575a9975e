import Libre.Rtmp.Header

set_option autoImplicit false

/-!
# Chunking RTMP messages

`rtmp_chunker` from `rtmp/chunk.c`, with `rtmp_header_encode` from `rtmp/hdr.c`: the bytes handed
to `tcp_send`. The second half reads the encoder's headers back with the decoder of
`Libre.Rtmp.Header`.
-/

namespace Libre.Rtmp

open BigEndian Mbuf

/-! ## The encoder -/

-- `mbuf_write_u24_hton(mb, u24)`: the low three bytes, the most significant first
def writeU24 (u24 : UInt32) : List UInt8 := netBytes 3 u24.toNat

-- `ts_24` and `ts_ext`: a timestamp from `TIMESTAMP_24MAX` on is marked in the 24-bit field and
-- goes whole into the extended one
def ts24 (ts : UInt32) : UInt32 := if ts ≥ TIMESTAMP_24MAX then TIMESTAMP_24MAX else ts

def tsExt (ts : UInt32) : UInt32 := if ts ≥ TIMESTAMP_24MAX then ts else 0

-- `encode_basic_hdr(mb, fmt, chunk_id)`: the chunk stream id in the first byte, or in one or two
-- bytes after it, less `RTMP_CHUNK_OFFSET`
def encodeBasicHdr (fmt : Fin 4) (chunk_id : UInt32) : List UInt8 :=
  if chunk_id ≥ 320 then
    [UInt8.ofNat (fmt.val <<< 6 ||| 1)] ++ netBytes 2 (chunk_id - RTMP_CHUNK_OFFSET).toUInt16.toNat
  else if chunk_id ≥ RTMP_CHUNK_OFFSET then
    [UInt8.ofNat (fmt.val <<< 6 ||| 0), (chunk_id - RTMP_CHUNK_OFFSET).toUInt8]
  else [UInt8.ofNat (fmt.val <<< 6 ||| chunk_id.toNat)]

-- The message header of each format, and the `timestamp_ext` it leaves in the header: format 3
-- keeps the one an earlier header set.
def msgHdrEncode (hdr : RtmpHeader) (timestamp_ext : UInt32) : List UInt8 × UInt32 :=
  if hdr.format = 0 then
    -- the stream id is the one little-endian field (`sys_htoll`)
    (writeU24 (ts24 hdr.timestamp) ++ writeU24 hdr.length ++ [hdr.type_id] ++
      (netBytes 4 hdr.stream_id.toNat).reverse, tsExt hdr.timestamp)
  else if hdr.format = 1 then
    (writeU24 (ts24 hdr.timestamp_delta) ++ writeU24 hdr.length ++ [hdr.type_id],
      tsExt hdr.timestamp_delta)
  else if hdr.format = 2 then (writeU24 (ts24 hdr.timestamp_delta), tsExt hdr.timestamp_delta)
  else ([], timestamp_ext)

-- `rtmp_header_encode(mb, hdr)`: the bytes, with the extended timestamp whenever the header's
-- `timestamp_ext` is set, and that `timestamp_ext`
def rtmpHeaderEncode (hdr : RtmpHeader) (timestamp_ext : UInt32) : List UInt8 × UInt32 :=
  (encodeBasicHdr hdr.format hdr.chunk_id ++ (msgHdrEncode hdr timestamp_ext).1 ++
    (if (msgHdrEncode hdr timestamp_ext).2 ≠ 0 then netBytes 4 (msgHdrEncode hdr timestamp_ext).2.toNat
      else []),
    (msgHdrEncode hdr timestamp_ext).2)

-- The loop of `rtmp_chunker`: a format-3 header and at most `max_chunk_sz` bytes at a time,
-- until the payload is sent.
def chunkLoop (hdr : RtmpHeader) (timestamp_ext : UInt32) (max_chunk_sz : {n : Nat // 0 < n})
    (payload : List UInt8) : List UInt8 :=
  if _ : payload = [] then []
  else
    (rtmpHeaderEncode hdr timestamp_ext).1 ++ payload.take max_chunk_sz.1 ++
      chunkLoop hdr (rtmpHeaderEncode hdr timestamp_ext).2 max_chunk_sz (payload.drop max_chunk_sz.1)
termination_by payload.length
decreasing_by
  have := max_chunk_sz.2
  have : payload.length ≠ 0 := by simpa using ‹¬ payload = []›
  simp only [List.length_drop]
  omega

-- `rtmp_chunker(format, chunk_id, timestamp, timestamp_delta, msg_type_id, msg_stream_id,
-- payload, payload_len, max_chunk_sz, tc)`: the bytes it hands to `tcp_send`. The header starts
-- zeroed (`memset`), and `format` fills a two-bit field.
def rtmpChunker (format : Nat) (chunk_id timestamp timestamp_delta : UInt32) (msg_type_id : UInt8)
    (msg_stream_id : UInt32) (payload : List UInt8) (max_chunk_sz : Nat) : Except Errno (List UInt8) :=
  if invalid : payload = [] ∨ max_chunk_sz = 0 then .error .EINVAL
  else
    .ok ((rtmpHeaderEncode ⟨Fin.ofNat 4 format, chunk_id, timestamp, timestamp_delta,
        UInt32.ofNat payload.length, msg_type_id, msg_stream_id, false⟩ 0).1 ++
      payload.take max_chunk_sz ++
      chunkLoop ⟨3, chunk_id, timestamp, timestamp_delta, UInt32.ofNat payload.length, msg_type_id,
          msg_stream_id, false⟩
        (rtmpHeaderEncode ⟨Fin.ofNat 4 format, chunk_id, timestamp, timestamp_delta,
          UInt32.ofNat payload.length, msg_type_id, msg_stream_id, false⟩ 0).2
        ⟨max_chunk_sz, by omega⟩ (payload.drop max_chunk_sz))

theorem chunkLoop_nil (hdr : RtmpHeader) (timestamp_ext : UInt32) (max_chunk_sz : {n : Nat // 0 < n}) :
    chunkLoop hdr timestamp_ext max_chunk_sz [] = [] := by
  rw [chunkLoop, dif_pos rfl]

theorem rtmpChunker_single {format : Nat} {chunk_id timestamp timestamp_delta : UInt32}
    {msg_type_id : UInt8} {msg_stream_id : UInt32} {payload : List UInt8} {max_chunk_sz : Nat}
    (nonempty : payload ≠ []) (fits : payload.length ≤ max_chunk_sz) :
    rtmpChunker format chunk_id timestamp timestamp_delta msg_type_id msg_stream_id payload max_chunk_sz =
      .ok ((rtmpHeaderEncode ⟨Fin.ofNat 4 format, chunk_id, timestamp, timestamp_delta,
        UInt32.ofNat payload.length, msg_type_id, msg_stream_id, false⟩ 0).1 ++ payload) := by
  have positive : max_chunk_sz ≠ 0 := by
    have := List.length_pos_iff.mpr nonempty
    omega
  rw [rtmpChunker, dif_neg (by simp [nonempty, positive]), List.drop_eq_nil_of_le fits, chunkLoop_nil,
    List.take_of_length_le fits, List.append_nil]

theorem rtmpChunker_ok {format : Nat} {chunk_id timestamp timestamp_delta : UInt32}
    {msg_type_id : UInt8} {msg_stream_id : UInt32} {payload : List UInt8} {max_chunk_sz : Nat}
    (nonempty : payload ≠ []) (positive : 0 < max_chunk_sz) : ∃ bytes,
    rtmpChunker format chunk_id timestamp timestamp_delta msg_type_id msg_stream_id payload max_chunk_sz =
      .ok bytes := by
  rw [rtmpChunker, dif_neg (by simp only [nonempty, false_or]; omega)]
  exact ⟨_, rfl⟩

theorem encodeBasicHdr_ne_nil (fmt : Fin 4) (chunk_id : UInt32) : encodeBasicHdr fmt chunk_id ≠ [] := by
  unfold encodeBasicHdr
  split
  · simp
  · split <;> simp

/-! ## Decoding what the encoder wrote -/

theorem toNat_u24 (b0 b1 b2 : UInt8) :
    (u24 b0 b1 b2).toNat = b0.toNat * 65536 + b1.toNat * 256 + b2.toNat := by
  have h0 := b0.toNat_lt
  have h1 := b1.toNat_lt
  have h2 := b2.toNat_lt
  simp only [u24, UInt32.toNat_or, UInt32.toNat_shiftLeft, UInt8.toNat_toUInt32, UInt32.reduceToNat,
    Nat.reduceMod]
  rw [Nat.mod_eq_of_lt (by rw [Nat.shiftLeft_eq]; omega),
    Nat.mod_eq_of_lt (by rw [Nat.shiftLeft_eq]; omega)]
  -- the three bytes do not overlap, so the `or`s are sums
  rw [show (16 : Nat) = 8 + 8 from rfl, Nat.shiftLeft_add, ← Nat.shiftLeft_or_distrib,
    ← Nat.shiftLeft_add_eq_or_of_lt h1, ← Nat.shiftLeft_add_eq_or_of_lt h2, Nat.shiftLeft_eq,
    Nat.shiftLeft_eq]
  ring

theorem u24_eq_netValue (b0 b1 b2 : UInt8) : u24 b0 b1 b2 = UInt32.ofNat (netValue [b0, b1, b2]) := by
  apply UInt32.toNat_inj.mp
  have h0 := b0.toNat_lt
  have h1 := b1.toNat_lt
  have h2 := b2.toNat_lt
  rw [toNat_u24, UInt32.toNat_ofNat_of_lt' (by simp only [netValue, List.foldl, UInt32.size]; omega)]
  simp only [netValue, List.foldl]
  omega

theorem basicByte_format : ∀ (fmt : Fin 4) (x : Fin 64),
    Fin.ofNat 4 (UInt8.ofNat (fmt.val <<< 6 ||| x.val) >>> 6).toNat = fmt := by
  decide

theorem basicByte_id : ∀ (fmt : Fin 4) (x : Fin 64),
    UInt8.ofNat (fmt.val <<< 6 ||| x.val) &&& 0x3f = UInt8.ofNat x.val := by
  decide

section Decoding

variable {mb : Mbuf} {zs : List UInt8}

theorem readU24_front {n : Nat} (h : Frame mb mb.pos (netBytes 3 n ++ zs)) :
    readU24 mb = (UInt32.ofNat (n % 2 ^ 24), mb.advance 3) := by
  obtain ⟨b0, b1, b2, bytes⟩ : ∃ b0 b1 b2, netBytes 3 n = [b0, b1, b2] := ⟨_, _, _, rfl⟩
  rw [bytes] at h
  obtain ⟨first, h1⟩ := Frame.readU8_cons h
  obtain ⟨second, h2⟩ := Frame.readU8_cons h1
  obtain ⟨third, -⟩ := Frame.readU8_cons h2
  have value : netValue [b0, b1, b2] = n % 2 ^ 24 := by
    rw [← bytes, netValue_netBytes]
    norm_num
  simp only [advance_advance] at second third
  simp only [readU24, first, second, third, u24_eq_netValue, value]

theorem readU32Le_front {v : UInt32} (h : Frame mb mb.pos ((netBytes 4 v.toNat).reverse ++ zs)) :
    readU32Le mb = (v, mb.advance 4) := by
  have read := h.readMem_front
  rw [List.length_reverse, length_netBytes] at read
  simp [readU32Le, read, Nat.mod_eq_of_lt v.toNat_lt]

theorem offset_toUInt16 {chunk_id : UInt32} (large : chunk_id ≥ 320) (below : chunk_id.toNat < 65600) :
    (UInt16.ofNat (chunk_id - RTMP_CHUNK_OFFSET).toUInt16.toNat).toUInt32 + RTMP_CHUNK_OFFSET =
      chunk_id := by
  apply UInt32.toNat_inj.mp
  have wide : 320 ≤ chunk_id.toNat := large
  have sub : (chunk_id - RTMP_CHUNK_OFFSET).toNat = chunk_id.toNat - 64 :=
    UInt32.toNat_sub_of_le _ _ (by simp only [RTMP_CHUNK_OFFSET, UInt32.le_iff_toNat_le]; simp; omega)
  rw [UInt16.ofNat_toNat, UInt32.toNat_add, UInt16.toNat_toUInt32, UInt32.toNat_toUInt16, sub]
  simp only [RTMP_CHUNK_OFFSET, UInt32.reduceToNat]
  omega

theorem offset_toUInt8 {chunk_id : UInt32} (large : chunk_id ≥ RTMP_CHUNK_OFFSET)
    (below : ¬ chunk_id ≥ 320) :
    (chunk_id - RTMP_CHUNK_OFFSET).toUInt8.toUInt32 + RTMP_CHUNK_OFFSET = chunk_id := by
  apply UInt32.toNat_inj.mp
  have wide : 64 ≤ chunk_id.toNat := large
  have narrow : chunk_id.toNat < 320 := by simpa [UInt32.le_iff_toNat_le] using below
  have sub : (chunk_id - RTMP_CHUNK_OFFSET).toNat = chunk_id.toNat - 64 :=
    UInt32.toNat_sub_of_le _ _ large
  rw [UInt32.toNat_add, UInt8.toNat_toUInt32, UInt32.toNat_toUInt8, sub]
  simp only [RTMP_CHUNK_OFFSET, UInt32.reduceToNat]
  omega

theorem decodeBasicHdr_wide {fmt : Fin 4} {chunk_id : UInt32} (large : chunk_id ≥ 320)
    (below : chunk_id.toNat < 65600) (hdr : RtmpHeader)
    (h : Frame mb mb.pos ([UInt8.ofNat (fmt.val <<< 6 ||| 1)] ++
      netBytes 2 (chunk_id - RTMP_CHUNK_OFFSET).toUInt16.toNat ++ zs)) :
    decodeBasicHdr hdr mb = .ok ({ hdr with format := fmt, chunk_id := chunk_id }, mb.advance 3) := by
  obtain ⟨first, rest⟩ := Frame.readU8_cons h
  have second := rest.readU16_front
  have left := h.getLeft_eq
  simp only [List.length_append, List.length_singleton, length_netBytes] at left
  simp only [advance_advance] at second
  have room : ¬ (mb.advance 1).getLeft < 2 := by
    simp only [getLeft, advance_pos, advance_end] at left ⊢
    omega
  have format : Fin.ofNat 4 (UInt8.ofNat (fmt.val <<< 6 ||| 1) >>> 6).toNat = fmt :=
    basicByte_format fmt 1
  have marker : UInt8.ofNat (fmt.val <<< 6 ||| 1) &&& 0x3f = 1 := basicByte_id fmt 1
  unfold decodeBasicHdr
  rw [if_neg (by omega)]
  simp only [first, format, marker, room, show ¬ ((1 : UInt8) = 0) by decide, if_false, if_true,
    second, offset_toUInt16 large below, Nat.reduceAdd]

theorem decodeBasicHdr_narrow {fmt : Fin 4} {chunk_id : UInt32} (large : chunk_id ≥ RTMP_CHUNK_OFFSET)
    (below : ¬ chunk_id ≥ 320) (hdr : RtmpHeader)
    (h : Frame mb mb.pos ([UInt8.ofNat (fmt.val <<< 6 ||| 0), (chunk_id - RTMP_CHUNK_OFFSET).toUInt8] ++ zs)) :
    decodeBasicHdr hdr mb = .ok ({ hdr with format := fmt, chunk_id := chunk_id }, mb.advance 2) := by
  obtain ⟨first, rest⟩ := Frame.readU8_cons h
  obtain ⟨second, -⟩ := Frame.readU8_cons rest
  have left := h.getLeft_eq
  simp only [List.length_append, List.length_cons, List.length_nil] at left
  simp only [advance_advance] at second
  have room : ¬ (mb.advance 1).getLeft < 1 := by
    simp only [getLeft, advance_pos, advance_end] at left ⊢
    omega
  have format : Fin.ofNat 4 (UInt8.ofNat (fmt.val <<< 6 ||| 0) >>> 6).toNat = fmt :=
    basicByte_format fmt 0
  have marker : UInt8.ofNat (fmt.val <<< 6 ||| 0) &&& 0x3f = 0 := basicByte_id fmt 0
  unfold decodeBasicHdr
  rw [if_neg (by omega)]
  simp only [first, format, marker, room, if_false, if_true, second, offset_toUInt8 large below,
    Nat.reduceAdd]

theorem decodeBasicHdr_inline {fmt : Fin 4} {chunk_id : UInt32}
    (id : 2 ≤ chunk_id.toNat ∧ chunk_id.toNat < 64) (hdr : RtmpHeader)
    (h : Frame mb mb.pos ([UInt8.ofNat (fmt.val <<< 6 ||| chunk_id.toNat)] ++ zs)) :
    decodeBasicHdr hdr mb = .ok ({ hdr with format := fmt, chunk_id := chunk_id }, mb.advance 1) := by
  obtain ⟨first, -⟩ := Frame.readU8_cons h
  have left := h.getLeft_eq
  simp only [List.length_append, List.length_cons, List.length_nil] at left
  have byte : (UInt8.ofNat chunk_id.toNat).toNat = chunk_id.toNat :=
    UInt8.toNat_ofNat_of_lt' (by simp only [UInt8.size]; omega)
  -- the low six bits are neither marker
  have notZero : UInt8.ofNat chunk_id.toNat ≠ 0 := fun zero => by
    rw [zero] at byte
    simp at byte
    omega
  have notOne : UInt8.ofNat chunk_id.toNat ≠ 1 := fun one => by
    rw [one] at byte
    simp at byte
    omega
  have idBack : (UInt8.ofNat chunk_id.toNat).toUInt32 = chunk_id := by
    apply UInt32.toNat_inj.mp
    rw [UInt8.toNat_toUInt32, byte]
  have format : Fin.ofNat 4 (UInt8.ofNat (fmt.val <<< 6 ||| chunk_id.toNat) >>> 6).toNat = fmt :=
    basicByte_format fmt ⟨chunk_id.toNat, id.2⟩
  have low : UInt8.ofNat (fmt.val <<< 6 ||| chunk_id.toNat) &&& 0x3f = UInt8.ofNat chunk_id.toNat :=
    basicByte_id fmt ⟨chunk_id.toNat, id.2⟩
  unfold decodeBasicHdr
  rw [if_neg (by omega)]
  simp only [first, format, low, notZero, notOne, if_false, idBack]

theorem decodeBasicHdr_encode {fmt : Fin 4} {chunk_id : UInt32}
    (id : 2 ≤ chunk_id.toNat ∧ chunk_id.toNat < 65600) (hdr : RtmpHeader)
    (h : Frame mb mb.pos (encodeBasicHdr fmt chunk_id ++ zs)) :
    decodeBasicHdr hdr mb =
      .ok ({ hdr with format := fmt, chunk_id := chunk_id }, mb.advance (encodeBasicHdr fmt chunk_id).length) := by
  unfold encodeBasicHdr at h ⊢
  by_cases wide : chunk_id ≥ 320
  · rw [if_pos wide] at h ⊢
    simpa using decodeBasicHdr_wide wide id.2 hdr h
  rw [if_neg wide] at h ⊢
  by_cases narrow : chunk_id ≥ RTMP_CHUNK_OFFSET
  · rw [if_pos narrow] at h ⊢
    exact decodeBasicHdr_narrow narrow wide hdr h
  · rw [if_neg narrow] at h ⊢
    have small : chunk_id.toNat < 64 := by
      simp only [RTMP_CHUNK_OFFSET, ge_iff_le, UInt32.le_iff_toNat_le] at narrow
      simpa using narrow
    exact decodeBasicHdr_inline ⟨id.1, small⟩ hdr h

theorem toNat_ts24 (ts : UInt32) : (ts24 ts).toNat < 2 ^ 24 := by
  unfold ts24
  split
  · decide
  next below =>
    simp only [ge_iff_le, UInt32.le_iff_toNat_le, TIMESTAMP_24MAX, UInt32.reduceToNat] at below
    omega

theorem decodeMsgHdr_encode0 (hdr : RtmpHeader) {ts len : UInt32} {ty : UInt8}
    {sid : UInt32} (fmt : hdr.format = 0) (ts_small : ts.toNat < 2 ^ 24)
    (short : len.toNat < 2 ^ 24)
    (h : Frame mb mb.pos (writeU24 ts ++ writeU24 len ++ [ty] ++
      (netBytes 4 sid.toNat).reverse ++ zs)) :
    decodeMsgHdr hdr mb = .ok ({ hdr with timestamp := ts, length := len, type_id := ty, stream_id := sid },
      mb.advance 11) := by
  simp only [writeU24, List.append_assoc] at h
  have timestamp := readU24_front h
  have afterTs := Frame.skip h
  have length := readU24_front afterTs
  have afterLen := Frame.skip afterTs
  obtain ⟨type, afterType⟩ := Frame.readU8_cons afterLen
  have stream := readU32Le_front afterType
  have left := h.getLeft_eq
  simp only [List.length_append, length_netBytes, List.length_cons, List.length_reverse] at left
  simp only [length_netBytes, advance_advance, Nat.mod_eq_of_lt ts_small, Nat.mod_eq_of_lt short,
    UInt32.ofNat_toNat] at timestamp length type stream
  have room : ¬ mb.getLeft < 11 := by simp at left; omega
  simp [decodeMsgHdr, fmt, room, timestamp, length, type, stream]

theorem tsExt_ne_zero {ts : UInt32} : tsExt ts ≠ 0 ↔ ts ≥ TIMESTAMP_24MAX := by
  unfold tsExt
  split
  next marked =>
    simp only [ne_eq, marked, iff_true]
    intro zero
    simp [zero, TIMESTAMP_24MAX] at marked
  next plain => simp [plain]

theorem decodeExtTs_encode0 (hdr : RtmpHeader) (ts : UInt32) (marked : hdr.timestamp = ts24 ts)
    (plainDelta : hdr.timestamp_delta = 0) (unset : hdr.ext_ts = false)
    (h : Frame mb mb.pos ((if tsExt ts ≠ 0 then netBytes 4 (tsExt ts).toNat else []) ++ zs)) :
    decodeExtTs hdr mb = .ok ({ hdr with timestamp := ts, ext_ts := decide (ts ≥ TIMESTAMP_24MAX) },
      mb.advance (if tsExt ts ≠ 0 then 4 else 0)) := by
  have noDelta : hdr.timestamp_delta ≠ TIMESTAMP_24MAX := by simp [plainDelta, TIMESTAMP_24MAX]
  by_cases large : ts ≥ TIMESTAMP_24MAX
  · have ext : tsExt ts = ts := by simp [tsExt, large]
    rw [if_pos (tsExt_ne_zero.mpr large)] at h ⊢
    rw [ext] at h
    have value := Frame.readU32_front h
    have left := h.getLeft_front
    rw [length_netBytes, UInt32.ofNat_toNat] at *
    have marker : hdr.timestamp = TIMESTAMP_24MAX := by simp [marked, ts24, large]
    simp [decodeExtTs, marker, value, large]
    omega
  · have ext : ¬ tsExt ts ≠ 0 := fun set => large (tsExt_ne_zero.mp set)
    have plain : hdr.timestamp = ts := by simp [marked, ts24, large]
    have noMarker : hdr.timestamp ≠ TIMESTAMP_24MAX := by
      rw [plain]
      intro same
      exact large (by simp [same, TIMESTAMP_24MAX])
    rw [if_neg ext, advance_zero]
    simp only [decodeExtTs, noMarker, noDelta, if_false]
    congr
    cases hdr
    simp_all

theorem rtmpHeaderEncode_fmt0 {hdr : RtmpHeader} (fmt : hdr.format = 0) (timestamp_ext : UInt32) :
    rtmpHeaderEncode hdr timestamp_ext =
      (encodeBasicHdr 0 hdr.chunk_id ++ (writeU24 (ts24 hdr.timestamp) ++ writeU24 hdr.length ++
        [hdr.type_id] ++ (netBytes 4 hdr.stream_id.toNat).reverse) ++
        (if tsExt hdr.timestamp ≠ 0 then netBytes 4 (tsExt hdr.timestamp).toNat else []),
        tsExt hdr.timestamp) := by
  simp [rtmpHeaderEncode, msgHdrEncode, fmt]

theorem rtmpHeaderEncode_fmt3 {hdr : RtmpHeader} (fmt : hdr.format = 3) (timestamp_ext : UInt32) :
    rtmpHeaderEncode hdr timestamp_ext =
      (encodeBasicHdr 3 hdr.chunk_id ++
        (if timestamp_ext ≠ 0 then netBytes 4 timestamp_ext.toNat else []), timestamp_ext) := by
  simp [rtmpHeaderEncode, msgHdrEncode, fmt]

-- A format-0 header reads back whole; a timestamp from `TIMESTAMP_24MAX` on comes from the
-- extended field and marks the header.
theorem rtmpHeaderDecode_encode0 {hdr : RtmpHeader} {timestamp_ext : UInt32} (fmt : hdr.format = 0)
    (id : 2 ≤ hdr.chunk_id.toNat ∧ hdr.chunk_id.toNat < 65600) (short : hdr.length.toNat < 2 ^ 24)
    (h : Frame mb mb.pos ((rtmpHeaderEncode hdr timestamp_ext).1 ++ zs)) :
    rtmpHeaderDecode mb = .ok (⟨0, hdr.chunk_id, hdr.timestamp, 0, hdr.length, hdr.type_id,
      hdr.stream_id, decide (hdr.timestamp ≥ TIMESTAMP_24MAX)⟩,
      mb.advance (rtmpHeaderEncode hdr timestamp_ext).1.length) := by
  rw [rtmpHeaderEncode_fmt0 fmt] at h ⊢
  have framed : Frame mb mb.pos (encodeBasicHdr 0 hdr.chunk_id ++
      ((writeU24 (ts24 hdr.timestamp) ++ writeU24 hdr.length ++ [hdr.type_id] ++
        (netBytes 4 hdr.stream_id.toNat).reverse) ++
        ((if tsExt hdr.timestamp ≠ 0 then netBytes 4 (tsExt hdr.timestamp).toNat else []) ++ zs))) := by
    simpa only [List.append_assoc] using h
  have basic : decodeBasicHdr zeroHeader mb = .ok (⟨0, hdr.chunk_id, 0, 0, 0, 0, 0, false⟩,
      mb.advance (encodeBasicHdr 0 hdr.chunk_id).length) :=
    decodeBasicHdr_encode id zeroHeader framed
  have body := Frame.skip framed
  have msg := decodeMsgHdr_encode0 ⟨0, hdr.chunk_id, 0, 0, 0, 0, 0, false⟩ rfl
    (toNat_ts24 hdr.timestamp) short (by simpa only [List.append_assoc] using body)
  have ext := decodeExtTs_encode0
    ⟨0, hdr.chunk_id, ts24 hdr.timestamp, 0, hdr.length, hdr.type_id, hdr.stream_id, false⟩
    hdr.timestamp rfl rfl rfl (Frame.skip body)
  have eleven : (writeU24 (ts24 hdr.timestamp) ++ writeU24 hdr.length ++ [hdr.type_id] ++
      (netBytes 4 hdr.stream_id.toNat).reverse).length = 11 := by
    simp [writeU24]
  rw [eleven] at ext
  rw [rtmpHeaderDecode, basic]
  simp only
  rw [msg]
  simp only
  rw [ext]
  simp only [advance_advance, List.length_append, eleven]
  split <;> simp

-- A format-3 header is its basic header alone to the decoder: the extended timestamp it may
-- carry is the dechunker's to read.
theorem rtmpHeaderDecode_basic3 {chunk_id : UInt32}
    (id : 2 ≤ chunk_id.toNat ∧ chunk_id.toNat < 65600)
    (h : Frame mb mb.pos (encodeBasicHdr 3 chunk_id ++ zs)) :
    rtmpHeaderDecode mb = .ok (⟨3, chunk_id, 0, 0, 0, 0, 0, false⟩,
      mb.advance (encodeBasicHdr 3 chunk_id).length) := by
  have basic : decodeBasicHdr zeroHeader mb = .ok (⟨3, chunk_id, 0, 0, 0, 0, 0, false⟩,
      mb.advance (encodeBasicHdr 3 chunk_id).length) :=
    decodeBasicHdr_encode id zeroHeader h
  rw [rtmpHeaderDecode, basic]
  simp [decodeMsgHdr, decodeExtTs, TIMESTAMP_24MAX]

end Decoding

theorem extBytes_tsExt (ts : UInt32) :
    (if tsExt ts ≠ 0 then netBytes 4 (tsExt ts).toNat else []) =
      if decide (ts ≥ TIMESTAMP_24MAX) = true then netBytes 4 ts.toNat else [] := by
  by_cases large : ts ≥ TIMESTAMP_24MAX
  · rw [if_pos (tsExt_ne_zero.mpr large), if_pos (decide_eq_true large)]
    simp [tsExt, large]
  · rw [if_neg (fun set => large (tsExt_ne_zero.mp set)), if_neg (by simpa using large)]

end Libre.Rtmp
