import Libre.Rtp.Header

set_option autoImplicit false

/-!
# RTCP messages

`rtcp_decode` from `rtp/pkt.c` with the decoders it calls (`rtp/rr.c`, `rtp/sdes.c`, `rtp/fb.c`).
Only the unknown-type case moves by the length field; every other case reads what its own counts
say and then steps to the next multiple of four.
-/

namespace Libre.Rtp

open BigEndian Mbuf

def RTCP_VERSION : UInt8 := 2
def RTCP_HDR_SIZE : Nat := 4
def RTCP_SRC_SIZE : Nat := 4
def RTCP_SR_SIZE : Nat := 20
def RTCP_RR_SIZE : Nat := 24
def RTCP_APP_SIZE : Nat := 8
def RTCP_FIR_SIZE : Nat := 4
def RTCP_NACK_SIZE : Nat := 8
def RTCP_FB_SIZE : Nat := 8

def RTCP_FIR : UInt8 := 192
def RTCP_NACK : UInt8 := 193
def RTCP_SR : UInt8 := 200
def RTCP_RR : UInt8 := 201
def RTCP_SDES : UInt8 := 202
def RTCP_BYE : UInt8 := 203
def RTCP_APP : UInt8 := 204
def RTCP_RTPFB : UInt8 := 205
def RTCP_PSFB : UInt8 := 206

def RTCP_SDES_END : UInt8 := 0
def RTCP_SDES_MIN_SIZE : Nat := 1
def RTCP_RTPFB_GNACK : UInt8 := 1
def RTCP_RTPFB_TWCC : UInt8 := 15
def RTCP_PSFB_PLI : UInt8 := 1
def RTCP_PSFB_SLI : UInt8 := 2
def RTCP_PSFB_FIR : UInt8 := 4
def RTCP_PSFB_AFB : UInt8 := 15
def GNACK_SIZE : Nat := 4
def FIR_SIZE : Nat := 8
def SLI_SIZE : Nat := 4

structure RtcpHdr where
  version : UInt8
  p : UInt8
  count : UInt8
  pt : UInt8
  length : UInt16
  deriving DecidableEq, Repr

/-- A report block; `lost` is the signed 24-bit field. -/
structure RtcpRr where
  ssrc : UInt32
  fraction : UInt8
  lost : Int
  last_seq : UInt32
  jitter : UInt32
  lsr : UInt32
  dlsr : UInt32
  deriving DecidableEq, Repr

structure SdesItem where
  type : UInt8
  length : UInt8
  data : List UInt8
  deriving DecidableEq, Repr

structure RtcpSdes where
  src : UInt32
  itemv : List SdesItem
  deriving DecidableEq, Repr

structure Twcc where
  seq : UInt16
  count : UInt16
  reftime : UInt32
  fbcount : UInt8
  chunks : List UInt8
  deltas : List UInt8
  deriving DecidableEq, Repr

/-- The feedback control information, one member of the union. -/
inductive Fci
  | gnack (gnackv : List (UInt16 × UInt16))
  | sli (sliv : List (UInt16 × UInt16 × UInt8))
  | fir (firv : List (UInt32 × UInt8))
  | twcc (twccv : Twcc)
  | afb (afb : List UInt8)
  | none
  deriving DecidableEq, Repr

/-- The union `r` of `struct rtcp_msg`. -/
inductive RtcpBody
  | sr (ssrc ntp_sec ntp_frac rtp_ts psent osent : UInt32) (rrv : List RtcpRr)
  | rr (ssrc : UInt32) (rrv : List RtcpRr)
  | sdes (sdesv : List RtcpSdes)
  | bye (srcv : List UInt32) (reason : Option (List UInt8))
  | app (src : UInt32) (name data : List UInt8)
  | fir (ssrc : UInt32)
  | nack (ssrc : UInt32) (fsn blp : UInt16)
  | fb (ssrc_packet ssrc_media n : UInt32) (fci : Fci)
  | none
  deriving DecidableEq, Repr

structure RtcpMsg where
  hdr : RtcpHdr
  r : RtcpBody
  deriving DecidableEq, Repr

/-! ## The decoders -/

/-- `(void)mbuf_read_mem(mb, p, n)`: the bytes, or nothing and no move when too few are left. -/
def readMemVoid (mb : Mbuf) (n : Nat) : List UInt8 × Mbuf :=
  match mb.readMem n with
  | .ok r => r
  | .error _ => ([], mb)

/-- `while ((mb->pos - start) & 0x3 && mbuf_get_left(mb)) ++mb->pos;`, which runs at most three
times. -/
def slurpLoop (start : Nat) : Nat → Mbuf → Mbuf
  | 0, mb => mb
  | n + 1, mb =>
    if (mb.pos - start) % 4 ≠ 0 ∧ mb.getLeft > 0 then slurpLoop start n (mb.advance 1) else mb

def slurp (start : Nat) (mb : Mbuf) : Mbuf := slurpLoop start 3 mb

def rtcpHdrDecode (mb : Mbuf) : Except Errno (RtcpHdr × Mbuf) :=
  if mb.getLeft < RTCP_HDR_SIZE then .error .EBADMSG
  else
    let b := mb.readU8
    let pt := b.2.readU8
    let length := pt.2.readU16
    .ok (⟨b.1 >>> 6 &&& 0x3, b.1 >>> 5 &&& 0x1, b.1 &&& 0x1f, pt.1, length.1⟩, length.2)

def rtcpRrDecode (mb : Mbuf) : Except Errno (RtcpRr × Mbuf) :=
  if mb.getLeft < RTCP_RR_SIZE then .error .EBADMSG
  else
    let ssrc := mb.readU32
    let w := ssrc.2.readU32
    let last_seq := w.2.readU32
    let jitter := last_seq.2.readU32
    let lsr := jitter.2.readU32
    let dlsr := lsr.2.readU32
    .ok (⟨ssrc.1, (w.1 >>> 24).toUInt8, ((w.1 &&& 0x00ffffff).toNat : Int).bmod (2 ^ 24),
      last_seq.1, jitter.1, lsr.1, dlsr.1⟩, dlsr.2)

/-- `for (i=0; i<count && !err; i++) err = rtcp_rr_decode(mb, &rrv[i]);` -/
def rrLoop : Nat → Mbuf → Except Errno (List RtcpRr × Mbuf)
  | 0, mb => .ok ([], mb)
  | count + 1, mb => do
    let (rr, mb) ← rtcpRrDecode mb
    let (rrv, mb) ← rrLoop count mb
    pure (rr :: rrv, mb)

theorem getLeft_readU8_lt (mb : Mbuf) (h : 1 ≤ mb.getLeft) : mb.readU8.2.getLeft < mb.getLeft := by
  rw [readU8_snd, readNet_snd, if_pos h]
  simp only [getLeft, setPos_pos, setPos_end] at *
  omega

theorem getLeft_readMemVoid_le (mb : Mbuf) (n : Nat) : (readMemVoid mb n).2.getLeft ≤ mb.getLeft := by
  by_cases enough : n ≤ mb.getLeft
  · simp only [readMemVoid, readMem_of_le mb n enough, getLeft, advance]
    omega
  · simp only [readMemVoid, readMem_of_lt mb n (by omega), le_refl]

/-- The item loop of `rtcp_sdes_decode`, run while a byte is left, up to the END item. -/
def sdesItems (mb : Mbuf) : Except Errno (List SdesItem × Mbuf) :=
  if mb.getLeft < RTCP_SDES_MIN_SIZE then .ok ([], mb)
  else
    let type := mb.readU8
    if type.1 = RTCP_SDES_END then .ok ([], type.2)
    else if type.2.getLeft < 1 then .error .EBADMSG
    else
      let length := type.2.readU8
      if length.2.getLeft < length.1.toNat then .error .EBADMSG
      else
        let data := readMemVoid length.2 length.1.toNat
        match sdesItems data.2 with
        | .ok (items, mb) => .ok (⟨type.1, length.1, data.1⟩ :: items, mb)
        | .error e => .error e
termination_by mb.getLeft
decreasing_by
  all_goals
    simp only [RTCP_SDES_MIN_SIZE, type, length] at *
    have first := getLeft_readU8_lt mb (by omega)
    have second := getLeft_readU8_lt mb.readU8.2 (by omega)
    have third := getLeft_readMemVoid_le mb.readU8.2.readU8.2 mb.readU8.2.readU8.1.toNat
    omega

def rtcpSdesDecode (mb : Mbuf) : Except Errno (RtcpSdes × Mbuf) :=
  if mb.getLeft < RTCP_SRC_SIZE then .error .EBADMSG
  else
    let start := mb.pos
    let src := mb.readU32
    (sdesItems src.2).map fun r => (⟨src.1, r.1⟩, slurp start r.2)

/-- `for (i=0; i<count && !err; i++) err = rtcp_sdes_decode(mb, &sdesv[i]);` -/
def sdesLoop : Nat → Mbuf → Except Errno (List RtcpSdes × Mbuf)
  | 0, mb => .ok ([], mb)
  | count + 1, mb => do
    let (sdes, mb) ← rtcpSdesDecode mb
    let (sdesv, mb) ← sdesLoop count mb
    pure (sdes :: sdesv, mb)

/-- The delta sizes one TWCC status chunk announces for the `i` packets still to be covered,
and how many packets it covers. -/
def chunkSymbols (chunk : UInt16) (i : Nat) : Nat × Nat :=
  if chunk &&& 0x8000 ≠ 0 then
    if chunk &&& 0x4000 ≠ 0 then
      -- status vector of 2-bit symbols
      (((List.range (min i 7)).map fun j =>
        (chunk >>> (2 * (7 - 1 - j)).toUInt16 &&& 0x03).toNat).sum, min i 7)
    else
      -- status vector of 1-bit symbols
      (((List.range (min i 14)).map fun j =>
        (chunk >>> (14 - 1 - j).toUInt16 &&& 0x01).toNat).sum, min i 14)
  else
    -- run length
    (min i (chunk &&& 0x1fff).toNat * (chunk >>> 13 &&& 0x03).toNat, min i (chunk &&& 0x1fff).toNat)

/-- The chunk loop of `rtcp_twcc_decode`, `for (i = count; i > 0;)`: the chunk bytes read, and
the total delta size. A run-length chunk of length zero covers nothing and the loop reads on. -/
def chunkLoop (mb : Mbuf) (i sz : Nat) (chunks : List UInt8) :
    Except Errno (List UInt8 × Nat × Mbuf) :=
  if i = 0 then .ok (chunks, sz, mb)
  else if mb.getLeft < 2 then .error .EBADMSG
  else
    let chunk := mb.readU16
    let step := chunkSymbols chunk.1 i
    chunkLoop chunk.2 (i - step.2) (sz + step.1) (chunks ++ netBytes 2 chunk.1.toNat)
termination_by mb.getLeft
decreasing_by
  rw [readU16_snd, readNet_snd, if_pos (by omega)]
  simp only [getLeft, setPos_pos, setPos_end] at *
  omega

/-- `rtcp_rtpfb_twcc_decode(mb, msg, n)`. The skip after the deltas is a `size_t` difference:
when it is negative it wraps past anything the buffer holds. -/
def twccDecode (mb : Mbuf) (n : Nat) : Except Errno (Twcc × Mbuf) :=
  if mb.getLeft < 8 then .error .EBADMSG
  else
    let seq := mb.readU16
    let count := seq.2.readU16
    if count.1 = 0 ∨ count.1 > 32768 then .error .EBADMSG
    else
      let reftime := count.2.readU32
      match chunkLoop reftime.2 count.1.toNat 0 [] with
      | .error e => .error e
      | .ok (chunks, sz, mb) =>
        if mb.getLeft < sz then .error .EBADMSG
        else
          let deltas := mb.buf.extract mb.pos (mb.pos + sz)
          let skip : Int := n * 4 - 8 - chunks.length
          if skip < 0 ∨ mb.getLeft < skip.toNat then .error .EBADMSG
          else
            .ok (⟨seq.1, count.1, reftime.1 >>> 8, (reftime.1 &&& 0xff).toUInt8, chunks, deltas⟩,
              mb.advance skip.toNat)

/-- `n` pairs of 16-bit words, the GNACK entries. -/
def readU16Pairs (mb : Mbuf) : Nat → List (UInt16 × UInt16) × Mbuf
  | 0 => ([], mb)
  | n + 1 =>
    let pid := mb.readU16
    let blp := pid.2.readU16
    let rest := readU16Pairs blp.2 n
    ((pid.1, blp.1) :: rest.1, rest.2)

/-- `rtcp_rtpfb_decode`, by the format in the header's count field. -/
def rtpfbDecode (mb : Mbuf) (fmt : UInt8) (n : Nat) : Except Errno (Fci × Mbuf) :=
  if fmt = RTCP_RTPFB_GNACK then
    if mb.getLeft < n * GNACK_SIZE then .error .EBADMSG
    else let pairs := readU16Pairs mb n; .ok (.gnack pairs.1, pairs.2)
  else if fmt = RTCP_RTPFB_TWCC then
    if mb.getLeft < 8 then .error .EBADMSG
    else (twccDecode mb n).map fun r => (.twcc r.1, r.2)
  else .ok (.none, mb)

/-- `n` SLI entries. -/
def readSlis (mb : Mbuf) : Nat → List (UInt16 × UInt16 × UInt8) × Mbuf
  | 0 => ([], mb)
  | n + 1 =>
    let v := mb.readU32
    let rest := readSlis v.2 n
    (((v.1 >>> 19 &&& 0x1fff).toUInt16, (v.1 >>> 6 &&& 0x1fff).toUInt16,
      (v.1 &&& 0x003f).toUInt8) :: rest.1, rest.2)

/-- `n` FIR entries of two words, the SSRC and the sequence number with three reserved bytes. -/
def readFirs (mb : Mbuf) : Nat → List (UInt32 × UInt8) × Mbuf
  | 0 => ([], mb)
  | n + 1 =>
    let ssrc := mb.readU32
    let seq_n := ssrc.2.readU8
    let rest := readFirs (seq_n.2.advance 3) n
    ((ssrc.1, seq_n.1) :: rest.1, rest.2)

/-- `rtcp_psfb_decode`, by the format in the header's count field; the FIR case halves `n`. -/
def psfbDecode (mb : Mbuf) (fmt : UInt8) (n : Nat) : Except Errno (Nat × Fci × Mbuf) :=
  if fmt = RTCP_PSFB_PLI then .ok (n, .none, mb)
  else if fmt = RTCP_PSFB_SLI then
    if mb.getLeft < n * SLI_SIZE then .error .EBADMSG
    else let slis := readSlis mb n; .ok (n, .sli slis.1, slis.2)
  else if fmt = RTCP_PSFB_AFB then
    if mb.getLeft < n * 4 then .error .EBADMSG
    else .ok (n, .afb (mb.buf.extract mb.pos (mb.pos + n * 4)), mb.advance (n * 4))
  else if fmt = RTCP_PSFB_FIR then
    if mb.getLeft < n / 2 * FIR_SIZE then .error .EBADMSG
    else let firs := readFirs mb (n / 2); .ok (n / 2, .fir firs.1, firs.2)
  else .ok (n, .none, mb)

/-- The `switch (msg->hdr.pt)` of `rtcp_decode`, after the header; `rem` is the length field
in bytes. -/
def rtcpBodyDecode (mb : Mbuf) (hdr : RtcpHdr) (rem : Nat) : Except Errno (RtcpBody × Mbuf) :=
  let count := hdr.count.toNat
  if hdr.pt = RTCP_SR then
    if mb.getLeft < RTCP_SRC_SIZE + RTCP_SR_SIZE then .error .EBADMSG
    else
      let words := readU32s mb 6
      match words.1 with
      | [ssrc, ntp_sec, ntp_frac, rtp_ts, psent, osent] =>
        (rrLoop count words.2).map fun r =>
          (.sr ssrc ntp_sec ntp_frac rtp_ts psent osent r.1, r.2)
      | _ => .error .EBADMSG
  else if hdr.pt = RTCP_RR then
    if mb.getLeft < RTCP_SRC_SIZE then .error .EBADMSG
    else
      let ssrc := mb.readU32
      (rrLoop count ssrc.2).map fun r => (.rr ssrc.1 r.1, r.2)
  else if hdr.pt = RTCP_SDES then
    if count = 0 then .ok (.sdes [], mb)
    else (sdesLoop count mb).map fun r => (.sdes r.1, r.2)
  else if hdr.pt = RTCP_BYE then
    if mb.getLeft < count * 4 then .error .EBADMSG
    else
      let srcv := readU32s mb count
      if rem > count * 4 then
        let len := srcv.2.readU8
        if len.2.getLeft < len.1.toNat then .error .EBADMSG
        else (len.2.readMem len.1.toNat).map fun r => (.bye srcv.1 (some r.1), r.2)
      else .ok (.bye srcv.1 none, srcv.2)
  else if hdr.pt = RTCP_APP then
    if mb.getLeft < RTCP_APP_SIZE then .error .EBADMSG
    else
      let src := mb.readU32
      let name := readMemVoid src.2 4
      if rem > RTCP_APP_SIZE then
        if name.2.getLeft < rem - RTCP_APP_SIZE then .error .EBADMSG
        else
          let data := readMemVoid name.2 (rem - RTCP_APP_SIZE)
          .ok (.app src.1 name.1 data.1, data.2)
      else .ok (.app src.1 name.1 [], name.2)
  else if hdr.pt = RTCP_FIR then
    if mb.getLeft < RTCP_FIR_SIZE then .error .EBADMSG
    else .ok (.fir mb.readU32.1, mb.readU32.2)
  else if hdr.pt = RTCP_NACK then
    if mb.getLeft < RTCP_NACK_SIZE then .error .EBADMSG
    else
      let ssrc := mb.readU32
      let fsn := ssrc.2.readU16
      let blp := fsn.2.readU16
      .ok (.nack ssrc.1 fsn.1 blp.1, blp.2)
  else if hdr.pt = RTCP_RTPFB then
    if mb.getLeft < RTCP_FB_SIZE then .error .EBADMSG
    else if hdr.length < 2 then .error .EBADMSG
    else
      let ssrc_packet := mb.readU32
      let ssrc_media := ssrc_packet.2.readU32
      let n := hdr.length.toNat - 2
      (rtpfbDecode ssrc_media.2 hdr.count n).map fun r =>
        (.fb ssrc_packet.1 ssrc_media.1 (UInt32.ofNat n) r.1, r.2)
  else if hdr.pt = RTCP_PSFB then
    if mb.getLeft < RTCP_FB_SIZE then .error .EBADMSG
    else if hdr.length < 2 then .error .EBADMSG
    else
      let ssrc_packet := mb.readU32
      let ssrc_media := ssrc_packet.2.readU32
      (psfbDecode ssrc_media.2 hdr.count (hdr.length.toNat - 2)).map fun r =>
        (.fb ssrc_packet.1 ssrc_media.1 (UInt32.ofNat r.1) r.2.1, r.2.2)
  else .ok (.none, mb.advance rem)

/-- `rtcp_decode(&msg, mb)`: the header, the body, and the padding up to a multiple of four
bytes from where the message started. -/
def rtcpDecode (mb : Mbuf) : Except Errno (RtcpMsg × Mbuf) :=
  if mb.getLeft < RTCP_HDR_SIZE then .error .EBADMSG
  else
    let start := mb.pos
    match rtcpHdrDecode mb with
    | .error e => .error e
    | .ok (hdr, mb) =>
      if hdr.version ≠ RTCP_VERSION then .error .EBADMSG
      else if mb.getLeft < hdr.length.toNat * 4 then .error .EBADMSG
      else (rtcpBodyDecode mb hdr (hdr.length.toNat * 4)).map fun r => (⟨hdr, r.1⟩, slurp start r.2)

/-! ## Framing -/

section Framing

variable {mb : Mbuf}

theorem slurp_aligned (start : Nat) (aligned : (mb.pos - start) % 4 = 0) : slurp start mb = mb := by
  simp [slurp, slurpLoop, aligned]

theorem rtcpHdrDecode_at {b pt : UInt8} {length : UInt16} {rest : List UInt8}
    (h : Frame mb mb.pos ([b, pt] ++ netBytes 2 length.toNat ++ rest)) :
    rtcpHdrDecode mb =
      .ok (⟨b >>> 6 &&& 0x3, b >>> 5 &&& 0x1, b &&& 0x1f, pt, length⟩, mb.advance 4) := by
  have left := h.getLeft_eq
  have first : mb.readU8 = (b, mb.advance 1) :=
    @Frame.readU8_at mb mb.pos [] _ _ (by simpa using h) (by simp)
  have second : (mb.advance 1).readU8 = (pt, mb.advance 2) := by
    simpa using @Frame.readU8_at (mb.advance 1) mb.pos [b] _ _ (by simpa using h) (by simp [advance])
  have third : (mb.advance 2).readU16 = (length, mb.advance 4) := by
    simpa using @Frame.readU16_at (mb.advance 2) mb.pos [b, pt] _ _ (by simpa using h)
      (by simp [advance])
  simp only [List.length_append, List.length_cons, length_netBytes] at left
  simp [rtcpHdrDecode, RTCP_HDR_SIZE, left, first, second, third]

/-- Past a version-2 header whose length fits, `rtcp_decode` is the body decoder followed by the
padding step. -/
theorem rtcpDecode_of_hdr {hdr : RtcpHdr} {mb' : Mbuf} (room : RTCP_HDR_SIZE ≤ mb.getLeft)
    (header : rtcpHdrDecode mb = .ok (hdr, mb')) (version : hdr.version = RTCP_VERSION)
    (fits : hdr.length.toNat * 4 ≤ mb'.getLeft) :
    rtcpDecode mb = (rtcpBodyDecode mb' hdr (hdr.length.toNat * 4)).map fun r =>
      (⟨hdr, r.1⟩, slurp mb.pos r.2) := by
  simp [rtcpDecode, Nat.not_lt.mpr room, header, version, Nat.not_lt.mpr fits]

theorem rtcpBodyDecode_rr_empty {hdr : RtcpHdr} {rem : Nat} {ssrc : UInt32} {rest : List UInt8}
    (rr : hdr.pt = RTCP_RR) (empty : hdr.count = 0)
    (h : Frame mb mb.pos (netBytes 4 ssrc.toNat ++ rest)) :
    rtcpBodyDecode mb hdr rem = .ok (.rr ssrc [], mb.advance 4) := by
  have left := h.getLeft_eq
  have read : mb.readU32 = (ssrc, mb.advance 4) :=
    @Frame.readU32_at mb mb.pos [] _ _ (by simpa using h) (by simp)
  simp only [List.length_append, length_netBytes] at left
  simp [rtcpBodyDecode, rr, empty, RTCP_SR, RTCP_RR, RTCP_SRC_SIZE, left, read, rrLoop, Except.map]

/-- A version-2 packet whose length field's words are all there: the header, the body decoder
from the fifth byte on, and the padding step. -/
theorem rtcpDecode_framed {b pt : UInt8} {length : UInt16} {body rest : List UInt8}
    (version : b >>> 6 &&& 0x3 = RTCP_VERSION) (words : body.length = 4 * length.toNat)
    (h : Frame mb mb.pos ([b, pt] ++ netBytes 2 length.toNat ++ body ++ rest)) :
    rtcpDecode mb =
      (rtcpBodyDecode (mb.advance 4) ⟨RTCP_VERSION, b >>> 5 &&& 0x1, b &&& 0x1f, pt, length⟩
        (length.toNat * 4)).map fun r =>
          (⟨⟨RTCP_VERSION, b >>> 5 &&& 0x1, b &&& 0x1f, pt, length⟩, r.1⟩, slurp mb.pos r.2) := by
  have left := h.getLeft_eq
  simp only [List.length_append, List.length_cons, length_netBytes, words] at left
  have header := rtcpHdrDecode_at (by simpa only [List.append_assoc] using h)
  rw [version] at header
  have fits : length.toNat * 4 ≤ (mb.advance 4).getLeft := by
    simp only [getLeft, advance] at left ⊢
    omega
  exact rtcpDecode_of_hdr (by simp only [RTCP_HDR_SIZE]; omega) header rfl fits

/-- A packet of a type the decoder does not know is skipped by its length field: the one case
that moves to the end of the packet. -/
theorem rtcpDecode_unknown {b pt : UInt8} {length : UInt16} {body rest : List UInt8}
    (unknown : pt ∉ [RTCP_SR, RTCP_RR, RTCP_SDES, RTCP_BYE, RTCP_APP, RTCP_FIR, RTCP_NACK,
      RTCP_RTPFB, RTCP_PSFB])
    (version : b >>> 6 &&& 0x3 = RTCP_VERSION) (words : body.length = 4 * length.toNat)
    (h : Frame mb mb.pos ([b, pt] ++ netBytes 2 length.toNat ++ body ++ rest)) :
    rtcpDecode mb = .ok (⟨⟨RTCP_VERSION, b >>> 5 &&& 0x1, b &&& 0x1f, pt, length⟩, .none⟩,
      mb.setPos (mb.pos + 4 * (length.toNat + 1))) := by
  simp only [List.mem_cons, List.not_mem_nil, or_false, not_or] at unknown
  obtain ⟨sr, rr, sdes, bye, app, fir, nack, rtpfb, psfb⟩ := unknown
  rw [rtcpDecode_framed version words h]
  simp only [rtcpBodyDecode, sr, rr, sdes, bye, app, fir, nack, rtpfb, psfb, if_false, Except.map,
    advance_advance]
  rw [slurp_aligned _ (by simp only [advance]; omega)]
  simp only [advance, setPos]
  congr 3
  omega

-- A witness: a packet of type 210 with one word of body.
theorem rtcpDecode_unknown_210 :
    rtcpDecode ⟨[0x80, 210, 0, 1, 1, 2, 3, 4], 0, 8⟩ =
      .ok (⟨⟨RTCP_VERSION, 0, 0, 210, 1⟩, .none⟩, (⟨[0x80, 210, 0, 1, 1, 2, 3, 4], 0, 8⟩ : Mbuf).setPos 8) :=
  @rtcpDecode_unknown ⟨[0x80, 210, 0, 1, 1, 2, 3, 4], 0, 8⟩ 0x80 210 1 [1, 2, 3, 4] [] (by decide) (by decide)
    (by decide) (frame_self _)

theorem rtcp_decode_rr_short (mb : Mbuf) (ssrc : UInt32) (length : UInt16) (body rest : List UInt8)
    (two : 2 ≤ length.toNat) (words : body.length = 4 * (length.toNat - 1))
    (h : Frame mb mb.pos ([0x80, RTCP_RR] ++ netBytes 2 length.toNat ++ netBytes 4 ssrc.toNat ++
      body ++ rest)) :
    rtcpDecode mb = .ok (⟨⟨2, 0, 0, RTCP_RR, length⟩, .rr ssrc []⟩, mb.setPos (mb.pos + 8)) ∧
      mb.pos + 8 < mb.pos + 4 * (length.toNat + 1) := by
  have packet : Frame mb mb.pos ([0x80, RTCP_RR] ++ netBytes 2 length.toNat ++
      (netBytes 4 ssrc.toNat ++ body) ++ rest) := by
    simpa only [List.append_assoc] using h
  have report : Frame (mb.advance 4) (mb.advance 4).pos (netBytes 4 ssrc.toNat ++ (body ++ rest)) :=
    (frame_advance 4).mpr (by
      simpa [List.append_assoc] using
        @Frame.suffix mb mb.pos ([0x80, RTCP_RR] ++ netBytes 2 length.toNat) _
          (by simpa only [List.append_assoc] using h))
  refine ⟨?_, by omega⟩
  rw [rtcpDecode_framed rfl (by simp only [List.length_append, length_netBytes, words]; omega) packet,
    rtcpBodyDecode_rr_empty rfl rfl report]
  simp only [Except.map, advance_advance]
  rw [slurp_aligned _ (by simp [advance])]
  rfl

theorem rtcp_decode_rr_short_length2 :
    2 ≤ (2 : UInt16).toNat ∧ ([0, 0, 0, 0] : List UInt8).length = 4 * ((2 : UInt16).toNat - 1) ∧
      rtcpDecode ⟨[0x80, 0xc9, 0, 2, 0, 0, 0, 1, 0, 0, 0, 0], 0, 12⟩ =
        .ok (⟨⟨2, 0, 0, RTCP_RR, 2⟩, .rr 1 []⟩,
          ⟨[0x80, 0xc9, 0, 2, 0, 0, 0, 1, 0, 0, 0, 0], 8, 12⟩) :=
  ⟨by decide, by decide,
    (rtcp_decode_rr_short ⟨[0x80, 0xc9, 0, 2, 0, 0, 0, 1, 0, 0, 0, 0], 0, 12⟩ 1 2 [0, 0, 0, 0] []
      (by decide) (by decide) (by
        rw [show [0x80, RTCP_RR] ++ netBytes 2 (2 : UInt16).toNat ++ netBytes 4 (1 : UInt32).toNat ++
            [0, 0, 0, 0] ++ [] = [0x80, 0xc9, 0, 2, 0, 0, 0, 1, 0, 0, 0, 0] by decide]
        exact frame_self _)).1⟩

end Framing

end Libre.Rtp
