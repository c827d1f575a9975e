import Libre.Mbuf.Buffer

set_option autoImplicit false

/-!
# RTP fixed header

`rtp_hdr_encode` and `rtp_hdr_decode` from `rtp/rtp.c`. The contributing sources are the
first `cc` entries of `csrc[16]`, kept as a list. The extension fields are written only when
the extension bit is set; the model leaves them zero otherwise, and `ts_arrive`, which
neither function touches, is left out.
-/

namespace Libre.Rtp

open BigEndian

structure RtpHeader where
  ver : UInt8
  pad : Bool
  ext : Bool
  cc : UInt8
  m : Bool
  pt : UInt8
  seq : UInt16
  ts : UInt32
  ssrc : UInt32
  csrc : List UInt32
  xType : UInt16 := 0
  xLen : UInt16 := 0
  deriving DecidableEq, Repr

def RTP_HEADER_SIZE : Nat := 12

def bit (b : Bool) : UInt8 := if b then 1 else 0

def rtpHdrEncode (mb : Mbuf) (hdr : RtpHeader) : Mbuf :=
  let b0 := (hdr.ver &&& 0x02) <<< 6 ||| (bit hdr.pad &&& 0x01) <<< 5 |||
    (bit hdr.ext &&& 0x01) <<< 4 ||| (hdr.cc &&& 0x0f)
  let b1 := (bit hdr.m &&& 0x01) <<< 7 ||| (hdr.pt &&& 0x7f)
  let mb := ((((mb.writeMem [b0, b1]).writeU16 hdr.seq).writeU32 hdr.ts).writeU32 hdr.ssrc)
  (hdr.csrc.take hdr.cc.toNat).foldl Mbuf.writeU32 mb

/-- `n` network-order words, as the `csrc` loop reads them. -/
def readU32s (mb : Mbuf) : Nat → List UInt32 × Mbuf
  | 0 => ([], mb)
  | n + 1 =>
    let (w, mb) := mb.readU32
    let (ws, mb) := readU32s mb n
    (w :: ws, mb)

def rtpHdrDecode (mb : Mbuf) : Except Errno RtpHeader × Mbuf :=
  if mb.getLeft < RTP_HEADER_SIZE then (.error .EBADMSG, mb) else
  match mb.readMem 2 with
  | .error e => (.error e, mb)
  | .ok (buf, mb) =>
  let b0 := buf[0]!
  let b1 := buf[1]!
  let (seq, mb) := mb.readU16
  let (ts, mb) := mb.readU32
  let (ssrc, mb) := mb.readU32
  let cc := b0 &&& 0x0f
  if mb.getLeft < cc.toNat * 4 then (.error .EBADMSG, mb) else
  let (csrc, mb) := readU32s mb cc.toNat
  let hdr : RtpHeader :=
    { ver := (b0 >>> 6) &&& 0x03, pad := (b0 >>> 5) &&& 0x01 = 1, ext := (b0 >>> 4) &&& 0x01 = 1,
      cc := cc, m := (b1 >>> 7) &&& 0x01 = 1, pt := b1 &&& 0x7f, seq := seq, ts := ts,
      ssrc := ssrc, csrc := csrc }
  if !hdr.ext then (.ok hdr, mb) else
  if mb.getLeft < 4 then (.error .EBADMSG, mb) else
  let (xType, mb) := mb.readU16
  let (xLen, mb) := mb.readU16
  if mb.getLeft < xLen.toNat * 4 then (.error .EBADMSG, mb) else
  (.ok { hdr with xType := xType, xLen := xLen }, mb.advance (xLen.toNat * 4))

/-! ## What a decoded header spans

A header that decodes reads nothing past its `RtpHeader.length` bytes. -/

section Span

open Mbuf

def RtpHeader.length (hdr : RtpHeader) : Nat :=
  RTP_HEADER_SIZE + 4 * hdr.cc.toNat + if hdr.ext then 4 + 4 * hdr.xLen.toNat else 0

theorem readU32s_snd (mb : Mbuf) (c : Nat) (enough : 4 * c ≤ mb.getLeft) :
    (readU32s mb c).2 = mb.advance (4 * c) := by
  induction c generalizing mb with
  | zero => rfl
  | succ c ih =>
    have word : 4 ≤ mb.getLeft := by omega
    simp only [readU32s, readU32, readNet_of_le mb 4 word]
    rw [ih _ (by simp only [getLeft, advance_pos, advance_end] at *; omega), advance_advance]
    congr 1
    omega

theorem readU32s_agree {mb mb' : Mbuf} {n : Nat} (h : Agree mb mb' n) (c : Nat) (hc : 4 * c ≤ n) :
    readU32s mb' c = ((readU32s mb c).1, mb'.advance (4 * c)) := by
  induction c generalizing mb mb' n with
  | zero => rfl
  | succ c ih =>
    obtain ⟨read', read⟩ := h.readNet (k := 4) (by omega)
    have rest := ih (h.advance (k := 4) (by omega)) (by omega)
    simp only [Rtp.readU32s, readU32, read', read, rest, advance_advance]
    congr 2
    omega

theorem rtpHdrDecode_ok {mb : Mbuf} {hdr : RtpHeader} {mb1 : Mbuf}
    (h : rtpHdrDecode mb = (.ok hdr, mb1)) :
    mb1 = mb.advance hdr.length ∧ hdr.length ≤ mb.getLeft := by
  unfold rtpHdrDecode at h
  split at h
  · cases h
  rename_i fixed
  simp only [RTP_HEADER_SIZE, Nat.not_lt, getLeft] at fixed
  have read2 : (mb.advance 2).readU16.2 = mb.advance 4 := by
    rw [readU16_snd, (readNet_of_le _ 2 (by simp [getLeft]; omega)), advance_advance]
  have read4 : (mb.advance 4).readU32.2 = mb.advance 8 := by
    rw [readU32_snd, (readNet_of_le _ 4 (by simp [getLeft]; omega)), advance_advance]
  have read8 : (mb.advance 8).readU32.2 = mb.advance 12 := by
    rw [readU32_snd, (readNet_of_le _ 4 (by simp [getLeft]; omega)), advance_advance]
  rw [readMem_of_le mb 2 (by simp only [getLeft]; omega)] at h
  dsimp only at h
  simp only [read2, read4, read8] at h
  split at h
  · cases h
  rename_i csrcs
  simp only [Nat.not_lt, getLeft, advance_pos, advance_end] at csrcs
  rw [readU32s_snd _ _ (by simp only [getLeft, advance_pos, advance_end]; omega),
    advance_advance] at h
  split at h
  · rename_i noExt
    cases h
    simp only [Bool.not_eq_true', decide_eq_false_iff_not] at noExt
    simp only [RtpHeader.length, RTP_HEADER_SIZE, noExt, decide_false, Bool.false_eq_true,
      if_false, getLeft]
    exact ⟨by congr 1, by omega⟩
  split at h
  · cases h
  split at h
  · cases h
  rename_i withExt extWord extData
  cases h
  simp only [Bool.not_eq_true'] at withExt
  simp only [RtpHeader.length, RTP_HEADER_SIZE, withExt, if_true]
  generalize ((mb.buf.extract mb.pos (mb.pos + 2))[0]! &&& 15).toNat = cc at *
  have type : (mb.advance (12 + 4 * cc)).readU16.2 = mb.advance (14 + 4 * cc) := by
    rw [readU16_snd_of_le _ (by simp only [getLeft, advance_pos, advance_end] at *; omega),
      advance_advance]
    congr 1
    omega
  have len : (mb.advance (14 + 4 * cc)).readU16.2 = mb.advance (16 + 4 * cc) := by
    rw [readU16_snd_of_le _ (by simp only [getLeft, advance_pos, advance_end] at *; omega),
      advance_advance]
    congr 1
    omega
  rw [type, len] at extData ⊢
  simp only [getLeft, advance_pos, advance_end, advance_advance] at extData extWord ⊢
  exact ⟨by congr 1; omega, by omega⟩

theorem rtpHdrDecode_agree {mb mb' : Mbuf} {hdr : RtpHeader} {mb1 : Mbuf}
    (h : rtpHdrDecode mb = (.ok hdr, mb1)) (agree : Agree mb mb' hdr.length) :
    rtpHdrDecode mb' = (.ok hdr, mb'.advance hdr.length) := by
  have fits : hdr.length ≤ mb.end_ - mb.pos := (rtpHdrDecode_ok h).2
  have fits' : hdr.length ≤ mb'.end_ - mb'.pos := le_trans fits agree.longer
  have twelve : 12 ≤ hdr.length := by simp only [RtpHeader.length, RTP_HEADER_SIZE]; omega
  unfold rtpHdrDecode at h ⊢
  rw [if_neg (by simp only [getLeft, RTP_HEADER_SIZE]; omega)] at h ⊢
  obtain ⟨r0', r0⟩ := agree.readMem (k := 2) (by omega)
  rw [r0] at h
  rw [r0']
  dsimp only at h ⊢
  simp only [(agree.advance (k := 2) (by omega)).readU16 (by omega)]
  simp only [advance_advance, (agree.advance (k := 4) (by omega)).readU32 (by omega)]
  simp only [advance_advance, (agree.advance (k := 8) (by omega)).readU32 (by omega)]
  simp only [Nat.reduceAdd]
  have e2 : (mb.advance 2).readU16.2 = mb.advance 4 := by
    rw [readU16_snd_of_le _ (by simp only [getLeft, advance_pos, advance_end]; omega),
      advance_advance]
  have e4 : (mb.advance 4).readU32.2 = mb.advance 8 := by
    rw [readU32_snd_of_le _ (by simp only [getLeft, advance_pos, advance_end]; omega),
      advance_advance]
  have e8 : (mb.advance 8).readU32.2 = mb.advance 12 := by
    rw [readU32_snd_of_le _ (by simp only [getLeft, advance_pos, advance_end]; omega),
      advance_advance]
  simp only [e2, e4, e8] at h
  generalize (mb.buf.extract mb.pos (mb.pos + 2))[0]! = b0 at h ⊢
  generalize (mb.buf.extract mb.pos (mb.pos + 2))[1]! = b1 at h ⊢
  split at h
  · cases h
  rename_i csrcs
  simp only [getLeft, advance_pos, advance_end, Nat.not_lt] at csrcs
  have longer := agree.longer
  have same := agree.pos
  simp only [getLeft] at longer
  have csrcs' : ¬ (mb'.advance 12).getLeft < (b0 &&& 15).toNat * 4 := by
    simp only [getLeft, advance_pos, advance_end, Nat.not_lt]
    omega
  rw [if_neg csrcs']
  simp only [readU32s_snd (mb.advance 12) (b0 &&& 15).toNat
    (by simp only [getLeft, advance_pos, advance_end]; omega), advance_advance] at h
  split at h
  · rename_i noExt
    cases h
    simp only [Bool.not_eq_true', decide_eq_false_iff_not] at noExt
    simp only [RtpHeader.length, RTP_HEADER_SIZE, noExt, decide_false, Bool.false_eq_true,
      if_false] at agree fits ⊢
    have csrcList := readU32s_agree (agree.advance (k := 12) (by omega)) (b0 &&& 15).toNat (by omega)
    simp only [Bool.not_false, if_true, csrcList, advance_advance, Nat.add_zero]
  split at h
  · cases h
  split at h
  · cases h
  rename_i withExt extWord extData
  cases h
  have hx : b0 >>> 4 &&& 1 = 1 := by simpa using withExt
  simp only [RtpHeader.length, RTP_HEADER_SIZE, hx, decide_true, if_true] at agree fits ⊢
  generalize (b0 &&& 15).toNat = cc at *
  clear fits' twelve
  simp only [getLeft, advance_pos, advance_end, Nat.not_lt] at extWord
  have type : (mb.advance (12 + 4 * cc)).readU16.2 = mb.advance (14 + 4 * cc) := by
    rw [readU16_snd_of_le _ (by simp only [getLeft, advance_pos, advance_end]; omega),
      advance_advance]
    congr 1
    omega
  have len : (mb.advance (14 + 4 * cc)).readU16.2 = mb.advance (16 + 4 * cc) := by
    rw [readU16_snd_of_le _ (by simp only [getLeft, advance_pos, advance_end]; omega),
      advance_advance]
    congr 1
    omega
  simp only [type, len] at extData fits agree ⊢
  have typeWord : (mb'.advance (12 + 4 * cc)).readU16 =
      ((mb.advance (12 + 4 * cc)).readU16.1, mb'.advance (14 + 4 * cc)) := by
    rw [(agree.advance (k := 12 + 4 * cc) (by omega)).readU16 (by omega), advance_advance,
      show 12 + 4 * cc + 2 = 14 + 4 * cc by omega]
  have lenWord : (mb'.advance (14 + 4 * cc)).readU16 =
      ((mb.advance (14 + 4 * cc)).readU16.1, mb'.advance (16 + 4 * cc)) := by
    rw [(agree.advance (k := 14 + 4 * cc) (by omega)).readU16 (by omega), advance_advance,
      show 14 + 4 * cc + 2 = 16 + 4 * cc by omega]
  have csrcList := readU32s_agree (agree.advance (k := 12) (by omega)) cc (by omega)
  simp only [Bool.not_true, Bool.false_eq_true, if_false, csrcList, advance_advance, typeWord,
    lenWord]
  generalize ((mb.advance (14 + 4 * cc)).readU16.1).toNat = xLen at *
  simp only [getLeft, advance_pos, advance_end, Nat.not_lt] at extData
  rw [if_neg (by simp only [getLeft, advance_pos, advance_end]; omega),
    if_neg (by simp only [getLeft, advance_pos, advance_end]; omega),
    show 16 + 4 * cc + xLen * 4 = 12 + 4 * cc + (4 + 4 * xLen) by omega]

end Span

/-! ## Round trip

The encoder keeps only bit 1 of the version, so the decoder reads back `ver & 2`. -/

section RoundTrip

open Mbuf

/-- The first two bytes of `rtp_hdr_encode`. -/
def firstByte (hdr : RtpHeader) : UInt8 :=
  (hdr.ver &&& 0x02) <<< 6 ||| (bit hdr.pad &&& 0x01) <<< 5 ||| (bit hdr.ext &&& 0x01) <<< 4 |||
    (hdr.cc &&& 0x0f)

def secondByte (hdr : RtpHeader) : UInt8 := (bit hdr.m &&& 0x01) <<< 7 ||| (hdr.pt &&& 0x7f)

/-- The bytes `rtp_hdr_encode` writes. -/
def rtpHdrBytes (hdr : RtpHeader) : List UInt8 :=
  [firstByte hdr, secondByte hdr] ++ netBytes 2 hdr.seq.toNat ++ netBytes 4 hdr.ts.toNat ++
    netBytes 4 hdr.ssrc.toNat ++ (hdr.csrc.take hdr.cc.toNat).flatMap fun w => netBytes 4 w.toNat

/-- The header the decoder reports for the bytes of `hdr`. -/
def decodedHdr (hdr : RtpHeader) : RtpHeader :=
  { hdr with ver := hdr.ver &&& 0x02, csrc := hdr.csrc.take hdr.cc.toNat, xType := 0, xLen := 0 }

private theorem firstByteTable : ∀ (v : Fin 4) (c : Fin 16) (pad ext : Bool),
    let b0 := UInt8.ofNat v <<< 6 ||| (bit pad &&& 0x01) <<< 5 ||| (bit ext &&& 0x01) <<< 4 |||
      UInt8.ofNat c
    (b0 >>> 6) &&& 0x03 = UInt8.ofNat v ∧ ((b0 >>> 5) &&& 0x01 = 1) = pad ∧
      ((b0 >>> 4) &&& 0x01 = 1) = ext ∧ b0 &&& 0x0f = UInt8.ofNat c := by
  decide

private theorem secondByteTable : ∀ (p : Fin 128) (m : Bool),
    let b1 := (bit m &&& 0x01) <<< 7 ||| UInt8.ofNat p
    ((b1 >>> 7) &&& 0x01 = 1) = m ∧ b1 &&& 0x7f = UInt8.ofNat p := by
  decide

theorem and_low_eq {x : UInt8} {k : Nat} (hx : x.toNat < 2 ^ k) (hk : k ≤ 8) :
    x &&& UInt8.ofNat (2 ^ k - 1) = x := by
  have mask : (2 ^ k - 1) % 2 ^ 8 = 2 ^ k - 1 :=
    Nat.mod_eq_of_lt (by have := Nat.pow_le_pow_right (by decide : 0 < 2) hk; omega)
  apply UInt8.toNat_inj.mp
  rw [UInt8.toNat_and, UInt8.toNat_ofNat', mask, Nat.and_two_pow_sub_one_eq_mod, Nat.mod_eq_of_lt hx]

theorem firstByte_fields (hdr : RtpHeader) (cc : hdr.cc.toNat < 16) :
    (firstByte hdr >>> 6) &&& 0x03 = hdr.ver &&& 0x02 ∧ ((firstByte hdr >>> 5) &&& 0x01 = 1) = hdr.pad ∧
      ((firstByte hdr >>> 4) &&& 0x01 = 1) = hdr.ext ∧ firstByte hdr &&& 0x0f = hdr.cc := by
  have v : (hdr.ver &&& 0x02).toNat < 4 := by
    rw [UInt8.toNat_and]
    exact lt_of_le_of_lt Nat.and_le_right (by decide)
  have same : hdr.cc &&& 0x0f = hdr.cc := and_low_eq (k := 4) cc (by decide)
  have table := firstByteTable ⟨_, v⟩ ⟨_, cc⟩ hdr.pad hdr.ext
  simp only [UInt8.ofNat_toNat] at table
  simpa only [firstByte, same] using table

theorem secondByte_fields (hdr : RtpHeader) (pt : hdr.pt.toNat < 128) :
    ((secondByte hdr >>> 7) &&& 0x01 = 1) = hdr.m ∧ secondByte hdr &&& 0x7f = hdr.pt := by
  have same : hdr.pt &&& 0x7f = hdr.pt := and_low_eq (k := 7) pt (by decide)
  have table := secondByteTable ⟨_, pt⟩ hdr.m
  simp only [UInt8.ofNat_toNat] at table
  simpa only [secondByte, same] using table

variable {mb : Mbuf} {a : Nat} {xs : List UInt8}

theorem writeMem_pos_end (at_ : mb.pos = mb.end_) (data : List UInt8) :
    (mb.writeMem data).pos = (mb.writeMem data).end_ := by
  simp [at_]

theorem foldl_writeU32_frame (h : Frame mb a xs) (at_ : mb.pos = mb.end_) (ws : List UInt32) :
    Frame (ws.foldl Mbuf.writeU32 mb) a (xs ++ ws.flatMap fun w => netBytes 4 w.toNat) ∧
      (ws.foldl Mbuf.writeU32 mb).pos = (ws.foldl Mbuf.writeU32 mb).end_ := by
  induction ws generalizing mb xs with
  | nil => exact ⟨by simpa using h, at_⟩
  | cons w ws ih =>
    obtain ⟨frame, at'⟩ := ih (h.writeMem_end at_ (netBytes 4 w.toNat)) (writeMem_pos_end at_ _)
    rw [List.foldl_cons, show mb.writeU32 w = mb.writeMem (netBytes 4 w.toNat) from rfl]
    exact ⟨by simpa [List.flatMap_cons] using frame, at'⟩

theorem rtpHdrEncode_eq (mb : Mbuf) (hdr : RtpHeader) :
    rtpHdrEncode mb hdr = (hdr.csrc.take hdr.cc.toNat).foldl Mbuf.writeU32
      ((((mb.writeMem [firstByte hdr, secondByte hdr]).writeMem (netBytes 2 hdr.seq.toNat)).writeMem
        (netBytes 4 hdr.ts.toNat)).writeMem (netBytes 4 hdr.ssrc.toNat)) := rfl

theorem rtpHdrEncode_frame (h : Frame mb a xs) (at_ : mb.pos = mb.end_) (hdr : RtpHeader) :
    Frame (rtpHdrEncode mb hdr) a (xs ++ rtpHdrBytes hdr) ∧
      (rtpHdrEncode mb hdr).pos = (rtpHdrEncode mb hdr).end_ := by
  have h1 := h.writeMem_end at_ [firstByte hdr, secondByte hdr]
  have a1 := writeMem_pos_end at_ [firstByte hdr, secondByte hdr]
  have h2 := h1.writeMem_end a1 (netBytes 2 hdr.seq.toNat)
  have a2 := writeMem_pos_end a1 (netBytes 2 hdr.seq.toNat)
  have h3 := h2.writeMem_end a2 (netBytes 4 hdr.ts.toNat)
  have a3 := writeMem_pos_end a2 (netBytes 4 hdr.ts.toNat)
  have h4 := h3.writeMem_end a3 (netBytes 4 hdr.ssrc.toNat)
  have a4 := writeMem_pos_end a3 (netBytes 4 hdr.ssrc.toNat)
  obtain ⟨frame, at'⟩ := foldl_writeU32_frame h4 a4 (hdr.csrc.take hdr.cc.toNat)
  rw [rtpHdrEncode_eq]
  exact ⟨by simpa [rtpHdrBytes] using frame, at'⟩

theorem readU32s_words {ws : List UInt32} {ys : List UInt8} (h : Frame mb a (xs ++ (ws.flatMap fun w => netBytes 4 w.toNat) ++ ys))
    (at_ : mb.pos = a + xs.length) : readU32s mb ws.length = (ws, mb.advance (4 * ws.length)) := by
  induction ws generalizing mb xs with
  | nil => rfl
  | cons w ws ih =>
    have word := @Frame.readNet_at mb a xs (netBytes 4 w.toNat)
      ((ws.flatMap fun w => netBytes 4 w.toNat) ++ ys) (by simpa using h) at_
    rw [length_netBytes, netValue_netBytes] at word
    have rest := @ih (mb.advance 4) (xs ++ netBytes 4 w.toNat) (by simpa using h)
      (by simp [at_, Nat.add_assoc])
    have value : UInt32.ofNat (w.toNat % 256 ^ 4) = w := by
      rw [show (256 : Nat) ^ 4 = UInt32.size from rfl, UInt32.ofNat_mod_size, UInt32.ofNat_toNat]
    simp only [readU32s, readU32, word, rest, advance_advance, List.length_cons, value]
    rw [Nat.mul_succ, Nat.add_comm]

/-- A buffer whose bytes from its position on start with the header's bytes decodes to the
header, with `ver & 2` for the version, and moves past them. -/
theorem rtpHdrDecode_bytes {hdr : RtpHeader} {ys : List UInt8}
    (h : Frame mb mb.pos (rtpHdrBytes hdr ++ ys)) (cc : hdr.cc.toNat < 16) (pt : hdr.pt.toNat < 128)
    (noExt : hdr.ext = false) (csrc : hdr.cc.toNat ≤ hdr.csrc.length) :
    rtpHdrDecode mb = (.ok (decodedHdr hdr), mb.advance (12 + 4 * hdr.cc.toNat)) := by
  have count : (hdr.csrc.take hdr.cc.toNat).length = hdr.cc.toNat := by
    rw [List.length_take]
    omega
  have wordsLen : ((hdr.csrc.take hdr.cc.toNat).flatMap fun w => netBytes 4 w.toNat).length =
      4 * hdr.cc.toNat := by
    rw [List.length_flatMap, ← count]
    simp [Nat.mul_comm]
  have ends := h.ends
  simp only [rtpHdrBytes, List.length_append, length_netBytes, List.length_cons,
    List.length_nil, wordsLen] at ends
  have first : mb.readMem 2 = .ok ([firstByte hdr, secondByte hdr], mb.advance 2) := by
    rw [readMem_of_le mb 2 (by simp only [getLeft]; omega)]
    have bytes := (show HoldsAt mb.buf mb.pos ([firstByte hdr, secondByte hdr] ++ _) by
      simpa [rtpHdrBytes, List.append_assoc] using h.holds).left.bytes
    rw [← bytes]
    rfl
  have seq := @Frame.readNet_at (mb.advance 2) mb.pos [firstByte hdr, secondByte hdr]
    (netBytes 2 hdr.seq.toNat) _ (by simpa [rtpHdrBytes, List.append_assoc] using h) rfl
  have ts := @Frame.readNet_at (mb.advance 4) mb.pos
    ([firstByte hdr, secondByte hdr] ++ netBytes 2 hdr.seq.toNat) (netBytes 4 hdr.ts.toNat) _
    (by simpa [rtpHdrBytes, List.append_assoc] using h) (by simp)
  have ssrc := @Frame.readNet_at (mb.advance 8) mb.pos
    ([firstByte hdr, secondByte hdr] ++ netBytes 2 hdr.seq.toNat ++ netBytes 4 hdr.ts.toNat)
    (netBytes 4 hdr.ssrc.toNat) _ (by simpa [rtpHdrBytes, List.append_assoc] using h) (by simp)
  have csrcs := @readU32s_words (mb.advance 12) mb.pos
    ([firstByte hdr, secondByte hdr] ++ netBytes 2 hdr.seq.toNat ++ netBytes 4 hdr.ts.toNat ++
      netBytes 4 hdr.ssrc.toNat) (hdr.csrc.take hdr.cc.toNat) ys
    (by simpa [rtpHdrBytes, List.append_assoc] using h) (by simp)
  simp only [length_netBytes, netValue_netBytes, advance_advance] at seq ts ssrc
  rw [count] at csrcs
  obtain ⟨ver, pad, ext, ccField⟩ := firstByte_fields hdr cc
  obtain ⟨m, ptField⟩ := secondByte_fields hdr pt
  have seqValue : UInt16.ofNat (hdr.seq.toNat % 256 ^ 2) = hdr.seq := by
    rw [show (256 : Nat) ^ 2 = UInt16.size from rfl, UInt16.ofNat_mod_size, UInt16.ofNat_toNat]
  have tsValue : UInt32.ofNat (hdr.ts.toNat % 256 ^ 4) = hdr.ts := by
    rw [show (256 : Nat) ^ 4 = UInt32.size from rfl, UInt32.ofNat_mod_size, UInt32.ofNat_toNat]
  have ssrcValue : UInt32.ofNat (hdr.ssrc.toNat % 256 ^ 4) = hdr.ssrc := by
    rw [show (256 : Nat) ^ 4 = UInt32.size from rfl, UInt32.ofNat_mod_size, UInt32.ofNat_toNat]
  have fixed : ¬ mb.getLeft < RTP_HEADER_SIZE := by simp only [getLeft, RTP_HEADER_SIZE]; omega
  have room : ¬ (mb.advance 12).getLeft < hdr.cc.toNat * 4 := by
    simp only [getLeft, advance_pos, advance_end]
    omega
  unfold rtpHdrDecode
  simp only [fixed, if_false, first, readU16, readU32, seq, ts, ssrc, seqValue, tsValue,
    ssrcValue, List.getElem!_cons_zero, List.getElem!_cons_succ, ccField]
  rw [if_neg room, csrcs]
  simp only [ver, pad, ext, m, ptField, noExt, Bool.false_eq_true, decide_false, Bool.not_false,
    if_true, Bool.decide_eq_true, advance_advance, decodedHdr]

/-- A header with at most 15 sources, a 7-bit payload type and no extension, encoded at the end of
any framed buffer and decoded from where it starts: the decoder takes exactly `12 + 4 * cc`
bytes and gives back every field but the version, which comes back as `ver & 2`. -/
theorem rtp_hdr_round_trip {mb : Mbuf} {a : Nat} {xs : List UInt8} (h : Frame mb a xs)
    (at_ : mb.pos = mb.end_) (hdr : RtpHeader) (cc : hdr.cc.toNat < 16) (pt : hdr.pt.toNat < 128)
    (noExt : hdr.ext = false) (csrc : hdr.cc.toNat ≤ hdr.csrc.length) :
    rtpHdrDecode ((rtpHdrEncode mb hdr).setPos (a + xs.length)) =
      (.ok (decodedHdr hdr), ((rtpHdrEncode mb hdr).setPos (a + xs.length)).advance
        (12 + 4 * hdr.cc.toNat)) := by
  obtain ⟨frame, -⟩ := rtpHdrEncode_frame h at_ hdr
  have start : Frame ((rtpHdrEncode mb hdr).setPos (a + xs.length)) (a + xs.length)
      (rtpHdrBytes hdr ++ []) := by
    rw [frame_setPos, List.append_nil]
    exact frame.suffix
  exact rtpHdrDecode_bytes start cc pt noExt csrc

/-- Version 1 written into a fresh buffer is read back as version 0. -/
theorem rtp_hdr_round_trip_ver_one :
    (decodedHdr ⟨1, false, false, 0, false, 0, 0, 0, 0, [], 0, 0⟩).ver = 0 ∧
      rtpHdrDecode ((rtpHdrEncode (Mbuf.alloc 0) ⟨1, false, false, 0, false, 0, 0, 0, 0, [], 0, 0⟩).setPos 0) =
        (.ok (decodedHdr ⟨1, false, false, 0, false, 0, 0, 0, 0, [], 0, 0⟩),
          ((rtpHdrEncode (Mbuf.alloc 0) ⟨1, false, false, 0, false, 0, 0, 0, 0, [], 0, 0⟩).setPos 0).advance
            (12 + 4 * 0)) :=
  ⟨by decide, rtp_hdr_round_trip (frame_alloc 0) rfl _ (by decide) (by decide) rfl (by decide)⟩

end RoundTrip

end Libre.Rtp
