import Libre.Stun.Attr

set_option autoImplicit false

/-!
# STUN messages and their integrity checks

`stun_hdr_encode`, `stun_hdr_decode`, `stun_msg_decode`, `stun_msg_attr`, `stun_msg_chk_mi` and
`stun_msg_chk_fingerprint`; HMAC-SHA1 and CRC-32 are parameters. `stun_msg_chk_mi` writes a
shortened header into the shared buffer, hashes, and writes it back; on a decoded message that
restores it exactly (`stun_msg_chk_mi_intact`).
-/

namespace Libre.Stun

open BigEndian Mbuf

def STUN_HEADER_SIZE : Nat := 20
def MI_SIZE : Nat := 24
def FP_SIZE : Nat := 8
def SHA_DIGEST_LENGTH : Nat := 20

structure StunHdr where
  type : UInt16
  len : UInt16
  cookie : UInt32
  tid : List UInt8
  deriving DecidableEq, Repr

/-- `stun_hdr_encode(mb, hdr)`; the top two bits of the type are masked off. -/
def stunHdrEncode (mb : Mbuf) (hdr : StunHdr) : Mbuf :=
  (((mb.writeU16 (hdr.type &&& 0x3fff)).writeU16 hdr.len).writeU32 hdr.cookie).writeMem hdr.tid

/-- `stun_hdr_decode(mb, hdr)`. -/
def stunHdrDecode (mb : Mbuf) : Except Errno (StunHdr × Mbuf) :=
  if mb.getLeft < STUN_HEADER_SIZE then .error .EBADMSG
  else
    let type := mb.readU16
    if type.1 &&& 0xc000 ≠ 0 then .error .EBADMSG
    else
      let len := type.2.readU16
      if len.1 &&& 0x3 ≠ 0 then .error .EBADMSG
      else
        let cookie := len.2.readU32
        -- the read cannot fail after the size check, and the code does not look at its result
        let tid := match cookie.2.readMem STUN_TID_SIZE with
          | .ok r => r
          | .error _ => (List.replicate STUN_TID_SIZE 0, cookie.2)
        if tid.2.getLeft < len.1.toNat then .error .EBADMSG
        else .ok (⟨type.1, len.1, cookie.1, tid.1⟩, tid.2)

structure StunMsg where
  hdr : StunHdr
  attrl : List StunAttr
  mb : Mbuf
  start : Nat
  deriving DecidableEq, Repr

/-- The attribute loop of `stun_msg_decode`. Its bound `mbuf_get_left(mb) - extra` is a `size_t`:
once an attribute has read past the header's length the difference wraps around, and the loop
goes on. -/
def attrLoop (tid : List UInt8) (extra : Nat) (mb : Mbuf) (attrl : List StunAttr)
    (ua : List UInt16) : Except Errno (List StunAttr × Mbuf × List UInt16) :=
  if mb.getLeft < extra ∨ extra + 4 ≤ mb.getLeft then
    match _ : stunAttrDecode mb tid ua with
    | .ok (attr, mb', ua') => attrLoop tid extra mb' (attrl ++ [attr]) ua'
    | .error e => .error e
  else .ok (attrl, mb, ua)
termination_by mb.getLeft
decreasing_by have := stunAttrDecode_getLeft ‹_›; omega

/-- `stun_msg_decode(&msg, mb, ua)`: the message, sharing the buffer, and the unknown
comprehension-required types. The position is put back to the start on every outcome. -/
def stunMsgDecode (mb : Mbuf) : Except Errno (StunMsg × List UInt16) :=
  let start := mb.pos
  match stunHdrDecode mb with
  | .error e => .error e
  | .ok (hdr, mb) =>
    -- `mbuf_get_left(mb) >= hdr.len` was checked by the header decoder
    let extra := mb.getLeft - hdr.len.toNat
    match attrLoop hdr.tid extra mb [] [] with
    | .error e => .error e
    | .ok (attrl, mb, ua) => .ok (⟨hdr, attrl, mb.setPos start, start⟩, ua)

/-- `stun_msg_attr(msg, type)`: the first attribute of the type. -/
def stunMsgAttr (msg : StunMsg) (type : UInt16) : Option StunAttr :=
  msg.attrl.find? (·.type == type)

/-- `v.msg_integrity`, the member the decoder fills for a MESSAGE-INTEGRITY attribute. -/
def AttrValue.msgIntegrityBytes : AttrValue → List UInt8
  | .msgIntegrity mac => mac
  | _ => List.replicate SHA_DIGEST_LENGTH 0

/-- `v.fingerprint`, the `uint32` member the decoder fills for a FINGERPRINT attribute. -/
def AttrValue.fingerprintValue : AttrValue → UInt32
  | .uint32 v => v
  | _ => 0

/-- `fingerprint(buf, len)`: the CRC-32 of the bytes XOR-ed with the ASCII of "STUN". -/
def fingerprint (crc32 : UInt32 → List UInt8 → Nat → UInt32) (buf : List UInt8) (len : Nat) :
    UInt32 :=
  crc32 0 buf (len % 2 ^ 32) ^^^ 0x5354554e

/-- The step `stun_msg_chk_mi` takes on each side of the hash when the message has a FINGERPRINT:
change the header's length, encode the header over the message, and step back to its start. -/
def rewriteLen (f : UInt16 → UInt16) (msg : StunMsg) : StunMsg :=
  let hdr := { msg.hdr with len := f msg.hdr.len }
  let mb := stunHdrEncode msg.mb hdr
  { msg with hdr := hdr, mb := mb.setPos (mb.pos - STUN_HEADER_SIZE) }

/-- `stun_msg_chk_mi(msg, key, keylen)`: the result, and the message after the call. -/
def stunMsgChkMi (hmacSha1 : List UInt8 → List UInt8 → Nat → List UInt8) (msg : StunMsg)
    (key : List UInt8) : Except Errno Unit × StunMsg :=
  match stunMsgAttr msg STUN_ATTR_MSG_INTEGRITY with
  | none => (.error .EPROTO, msg)
  | some mi =>
    let msg := { msg with mb := msg.mb.setPos msg.start }
    let fp := stunMsgAttr msg STUN_ATTR_FINGERPRINT
    let msg := if fp.isSome then rewriteLen (· - FP_SIZE.toUInt16) msg else msg
    -- `STUN_HEADER_SIZE + msg->hdr.len - MI_SIZE` is an `int`, passed as a `size_t`
    let hmac := hmacSha1 key (msg.mb.buf.drop msg.mb.pos)
      (((STUN_HEADER_SIZE + msg.hdr.len.toNat : Int) - MI_SIZE) % 2 ^ 64).toNat
    let msg := if fp.isSome then rewriteLen (· + FP_SIZE.toUInt16) msg else msg
    (if mi.v.msgIntegrityBytes.take SHA_DIGEST_LENGTH ≠ hmac.take SHA_DIGEST_LENGTH then
      .error .EBADMSG
    else .ok (), msg)

/-- `stun_msg_chk_fingerprint(msg)`: the result, and the message after the call. -/
def stunMsgChkFingerprint (crc32 : UInt32 → List UInt8 → Nat → UInt32) (msg : StunMsg) :
    Except Errno Unit × StunMsg :=
  match stunMsgAttr msg STUN_ATTR_FINGERPRINT with
  | none => (.error .EPROTO, msg)
  | some fp =>
    let msg := { msg with mb := msg.mb.setPos msg.start }
    let fprnt := fingerprint crc32 (msg.mb.buf.drop msg.mb.pos)
      (STUN_HEADER_SIZE + msg.hdr.len.toNat - FP_SIZE)
    (if fprnt ≠ fp.v.fingerprintValue then .error .EBADMSG else .ok (), msg)

/-! ## The header in the buffer -/

/-- The twenty bytes `stun_hdr_encode` writes. -/
def hdrBytes (hdr : StunHdr) : List UInt8 :=
  netBytes 2 (hdr.type &&& 0x3fff).toNat ++ netBytes 2 hdr.len.toNat ++
    netBytes 4 hdr.cookie.toNat ++ hdr.tid

theorem length_hdrBytes (hdr : StunHdr) : (hdrBytes hdr).length = 8 + hdr.tid.length := by
  simp [hdrBytes]
  omega

theorem type_mask {t : UInt16} (h : t &&& 0xc000 = 0) : t &&& 0x3fff = t := by
  have zero : t.toNat &&& 0xc000 = 0 := by simpa using congrArg UInt16.toNat h
  have bit (i : Nat) (set : (0xc000 : Nat).testBit i = true) : t.toNat / 2 ^ i % 2 = 0 := by
    have off := congrArg (Nat.testBit · i) zero
    simp only [Nat.testBit_and, set, Bool.and_true, Nat.zero_testBit] at off
    rw [Nat.testBit_eq_decide_div_mod_eq] at off
    simpa using off
  have high := bit 14 (by decide)
  have top := bit 15 (by decide)
  have lt : t.toNat < 2 ^ 14 := by
    have := t.toNat_lt
    omega
  apply UInt16.toNat_inj.mp
  rw [UInt16.toNat_and, show (0x3fff : UInt16).toNat = 2 ^ 14 - 1 from rfl,
    Nat.and_two_pow_sub_one_eq_mod, Nat.mod_eq_of_lt lt]

theorem stunHdrEncode_eq {mb : Mbuf} {hdr : StunHdr} (fits : mb.pos + 8 + hdr.tid.length ≤ mb.size) :
    stunHdrEncode mb hdr = mb.writeMem (hdrBytes hdr) := by
  unfold stunHdrEncode writeU16 writeU32
  rw [writeMem_append mb _ _ (by simp only [length_netBytes]; omega),
    writeMem_append mb _ _ (by simp only [List.length_append, length_netBytes]; omega),
    writeMem_append mb _ _ (by simp only [List.length_append, length_netBytes]; omega), hdrBytes]

theorem take_drop_append (l : List UInt8) (i m n : Nat) :
    (l.drop i).take m ++ (l.drop (i + m)).take n = (l.drop i).take (m + n) := by
  rw [List.take_add, List.drop_drop]

theorem stunHdrDecode_ok {mb mb' : Mbuf} {hdr : StunHdr} (within : mb.end_ ≤ mb.size)
    (h : stunHdrDecode mb = .ok (hdr, mb')) :
    mb' = mb.advance STUN_HEADER_SIZE ∧ mb.pos + STUN_HEADER_SIZE ≤ mb.end_ ∧
      hdr.tid.length = STUN_TID_SIZE ∧ HoldsAt mb.buf mb.pos (hdrBytes hdr) := by
  unfold stunHdrDecode at h
  split at h
  · cases h
  rename_i enough
  simp only [getLeft, STUN_HEADER_SIZE] at enough
  set xs := mb.left.take STUN_HEADER_SIZE with hxs
  have length : xs.length = 20 := by
    simp only [xs, Mbuf.left, List.extract_eq_take_drop, List.length_take, List.length_drop,
      size, STUN_HEADER_SIZE] at within ⊢
    omega
  have frame : Frame mb mb.pos (xs ++ mb.left.drop STUN_HEADER_SIZE) := by
    rw [hxs, List.take_append_drop]
    exact frame_left mb (by omega) within
  have field (i n : Nat) (fits : i + n ≤ 20) :
      (mb.advance i).readNet n = (netValue ((xs.drop i).take n), mb.advance (i + n)) := by
    simp [readNet, frame.readMem_framed (i := i) (n := n) (by omega)]
  have piece (i n : Nat) (fits : i + n ≤ 20) :
      netBytes n (netValue ((xs.drop i).take n)) = (xs.drop i).take n := by
    have bytes := netBytes_netValue ((xs.drop i).take n)
    rwa [List.length_take, List.length_drop, length, min_eq_left (by omega)] at bytes
  have tid : (mb.advance 8).readMem STUN_TID_SIZE =
      .ok ((xs.drop 8).take 12, mb.advance (8 + 12)) :=
    frame.readMem_framed (by simp only [STUN_TID_SIZE]; omega)
  have type := field 0 2 (by omega)
  have len := field 2 2 (by omega)
  have cookie := field 4 4 (by omega)
  simp only [advance_zero] at type
  dsimp only [readU16, readU32] at h
  simp only [type, len, cookie, tid] at h
  split_ifs at h with typeBits
  cases h
  refine ⟨rfl, by simp only [STUN_HEADER_SIZE]; omega, by simp [STUN_TID_SIZE, length], ?_⟩
  have bytes : hdrBytes ⟨UInt16.ofNat (netValue ((xs.drop 0).take 2)),
      UInt16.ofNat (netValue ((xs.drop 2).take 2)), UInt32.ofNat (netValue ((xs.drop 4).take 4)),
      (xs.drop 8).take 12⟩ = xs := by
    rw [hdrBytes, type_mask (not_not.mp typeBits), netBytes_uint16, netBytes_uint16,
      netBytes_uint32, piece 0 2 (by omega), piece 2 2 (by omega), piece 4 4 (by omega),
      take_drop_append, take_drop_append, take_drop_append, List.drop_zero,
      List.take_of_length_le (by omega)]
  rw [bytes]
  exact frame.holds.left

/-! ## Decoding only reads -/

theorem attrLoop_readOn (tid : List UInt8) (extra : Nat) (mb : Mbuf) (attrl : List StunAttr)
    (ua : List UInt16) {attrl' : List StunAttr} {mb' : Mbuf} {ua' : List UInt16} :
    attrLoop tid extra mb attrl ua = .ok (attrl', mb', ua') → ReadOn mb mb' := by
  fun_induction attrLoop tid extra mb attrl ua with
  | case1 mb attrl ua more attr next ua'' decoded ih =>
    intro rest
    exact (stunAttrDecode_readOn decoded).1.trans (ih rest)
  | case2 => intro failed; cases failed
  | case3 mb attrl ua stop =>
    intro done
    cases done
    exact ReadOn.refl _

/-- Once an attribute has been read past the message's declared length, the loop bound has
wrapped around and the loop runs on until an attribute fails to decode: a decode that reads past
the length never succeeds. -/
theorem attrLoop_past_end {tid : List UInt8} {extra : Nat} {mb : Mbuf} {attrl : List StunAttr}
    {ua : List UInt16} (past : mb.getLeft < extra) :
    ∃ e, attrLoop tid extra mb attrl ua = .error e := by
  fun_induction attrLoop tid extra mb attrl ua with
  | case1 mb attrl ua more attr next ua' decoded ih =>
    exact ih (by have := stunAttrDecode_getLeft decoded; omega)
  | case2 mb attrl ua more e failed => exact ⟨e, rfl⟩
  | case3 mb attrl ua stop => exact absurd (Or.inl past) stop

-- A witness: one byte past the end of an empty buffer.
theorem attrLoop_past_end_empty : ∃ e, attrLoop [] 1 ⟨[], 0, 0⟩ [] [] = .error e :=
  attrLoop_past_end (by decide)

/-- Where `stun_msg_chk_mi` writes the header: the buffer stands at the message start, and the
header's twenty bytes lie before the end, which lies inside the array. -/
structure StunMsg.Placed (msg : StunMsg) : Prop where
  pos : msg.mb.pos = msg.start
  room : msg.start + STUN_HEADER_SIZE ≤ msg.mb.end_
  within : msg.mb.end_ ≤ msg.mb.size
  tid : msg.hdr.tid.length = STUN_TID_SIZE

/-- A message as `stun_msg_decode` leaves it: placed, with the bytes the encoder writes for its
header at its start. -/
structure StunMsg.Intact (msg : StunMsg) : Prop extends msg.Placed where
  bytes : HoldsAt msg.mb.buf msg.start (hdrBytes msg.hdr)

/-- A decoded message shares the buffer it was decoded from, left as it was, and is intact. -/
theorem stunMsgDecode_intact {mb : Mbuf} {msg : StunMsg} {ua : List UInt16}
    (within : mb.end_ ≤ mb.size) (h : stunMsgDecode mb = .ok (msg, ua)) :
    msg.mb = mb ∧ msg.Intact := by
  unfold stunMsgDecode at h
  cases header : stunHdrDecode mb with
  | error e => rw [header] at h; cases h
  | ok r =>
    obtain ⟨hdr, body⟩ := r
    obtain ⟨rfl, room, tid, bytes⟩ := stunHdrDecode_ok within header
    rw [header] at h
    dsimp only at h
    cases loop : attrLoop hdr.tid ((mb.advance STUN_HEADER_SIZE).getLeft - hdr.len.toNat)
        (mb.advance STUN_HEADER_SIZE) [] [] with
    | error e => rw [loop] at h; cases h
    | ok r =>
      obtain ⟨attrl, last, ua'⟩ := r
      rw [loop] at h
      cases h
      have home : last.setPos mb.pos = mb :=
        ((readOn_advance mb (by simp only [getLeft, STUN_HEADER_SIZE] at room ⊢; omega)).trans
          (attrLoop_readOn _ _ _ _ _ loop)).setPos_eq
      refine ⟨home, ⟨⟨?_, ?_, ?_, tid⟩, ?_⟩⟩ <;> simp only [home]
      · exact room
      · exact within
      · exact bytes

/-! ## The integrity check leaves the message as it was -/

section Rewrite

variable {msg : StunMsg}

theorem StunMsg.Placed.length_hdrBytes (h : msg.Placed) (len : UInt16) :
    (hdrBytes { msg.hdr with len := len }).length = STUN_HEADER_SIZE := by
  rw [Stun.length_hdrBytes]
  simp only [h.tid, STUN_TID_SIZE, STUN_HEADER_SIZE]

theorem rewriteLen_eq (h : msg.Placed) (f : UInt16 → UInt16) :
    rewriteLen f msg =
      { msg with
        hdr := { msg.hdr with len := f msg.hdr.len }
        mb := { msg.mb with
          buf := setRange msg.mb.buf msg.start (hdrBytes { msg.hdr with len := f msg.hdr.len }) } } := by
  have length := h.length_hdrBytes (f msg.hdr.len)
  have room := h.room
  have within := h.within
  have fits : msg.mb.pos + (hdrBytes { msg.hdr with len := f msg.hdr.len }).length ≤ msg.mb.size := by
    rw [length, h.pos]
    omega
  have encoded : stunHdrEncode msg.mb { msg.hdr with len := f msg.hdr.len } =
      msg.mb.writeMem (hdrBytes { msg.hdr with len := f msg.hdr.len }) :=
    stunHdrEncode_eq (by
      simp only [h.tid, h.pos, STUN_TID_SIZE, STUN_HEADER_SIZE] at room within ⊢
      omega)
  simp only [rewriteLen, encoded, writeMem_of_fits _ _ fits, setPos, length, h.pos,
    Nat.add_sub_cancel, Nat.max_eq_left (show msg.start + STUN_HEADER_SIZE ≤ msg.mb.end_ from room)]

theorem StunMsg.Placed.rewriteLen (h : msg.Placed) (f : UInt16 → UInt16) :
    (rewriteLen f msg).Placed := by
  have fits : msg.start + (hdrBytes { msg.hdr with len := f msg.hdr.len }).length ≤
      msg.mb.buf.length := by
    have within := h.within
    have room := h.room
    rw [h.length_hdrBytes]
    simp only [size] at within
    omega
  rw [rewriteLen_eq h f]
  refine ⟨h.pos, h.room, ?_, h.tid⟩
  simp only [size, length_setRange _ _ _ fits]
  exact h.within

theorem StunMsg.Intact.rewriteLen_restore (h : msg.Intact) :
    rewriteLen (· + FP_SIZE.toUInt16) (rewriteLen (· - FP_SIZE.toUInt16) msg) = msg := by
  have first := h.toPlaced
  have fits : msg.start + (hdrBytes { msg.hdr with len := msg.hdr.len - FP_SIZE.toUInt16 }).length ≤
      msg.mb.buf.length := by
    have within := first.within
    have room := first.room
    rw [first.length_hdrBytes]
    simp only [size] at within
    omega
  rw [rewriteLen_eq (first.rewriteLen _), rewriteLen_eq first]
  simp only [sub_add_cancel]
  rw [setRange_setRange _ _ _ _ fits (by rw [first.length_hdrBytes, first.length_hdrBytes]),
    h.bytes.setRange_self]

/-- On an intact message `stun_msg_chk_mi` returns with the message exactly as it was. -/
theorem StunMsg.Intact.stunMsgChkMi (h : msg.Intact)
    (hmacSha1 : List UInt8 → List UInt8 → Nat → List UInt8) (key : List UInt8) :
    (Stun.stunMsgChkMi hmacSha1 msg key).2 = msg := by
  have home : { msg with mb := msg.mb.setPos msg.start } = msg := by
    have back : msg.mb.setPos msg.start = msg.mb := by rw [← h.pos, setPos_self]
    rw [back]
  unfold Stun.stunMsgChkMi
  split
  · rfl
  · dsimp only
    rw [home]
    split
    · exact h.rewriteLen_restore
    · rfl

end Rewrite

theorem stunMsgChkMi_fst (hmacSha1 : List UInt8 → List UInt8 → Nat → List UInt8) (msg : StunMsg)
    (key : List UInt8) :
    (stunMsgChkMi hmacSha1 msg key).1 = .ok () ∨ (stunMsgChkMi hmacSha1 msg key).1 = .error .EBADMSG ∨
      (stunMsgChkMi hmacSha1 msg key).1 = .error .EPROTO := by
  unfold stunMsgChkMi
  split
  · simp
  · dsimp only
    split_ifs <;> simp

/-- `stun_msg_chk_mi` leaves a decoded message as it was, whether it finds a FINGERPRINT or not
and whatever the key: it returns 0, `EBADMSG` or `EPROTO`, the shared buffer and the header are
as decoding left them, and `stun_msg_chk_fingerprint` after it gives what it gives before it. -/
theorem stun_msg_chk_mi_intact {mb : Mbuf} {msg : StunMsg} {ua : List UInt16}
    (within : mb.end_ ≤ mb.size) (decoded : stunMsgDecode mb = .ok (msg, ua))
    (hmacSha1 : List UInt8 → List UInt8 → Nat → List UInt8)
    (crc32 : UInt32 → List UInt8 → Nat → UInt32) (key : List UInt8) :
    ((stunMsgChkMi hmacSha1 msg key).1 = .ok () ∨
      (stunMsgChkMi hmacSha1 msg key).1 = .error .EBADMSG ∨
      (stunMsgChkMi hmacSha1 msg key).1 = .error .EPROTO) ∧
    (stunMsgChkMi hmacSha1 msg key).2.mb.buf = msg.mb.buf ∧
    (stunMsgChkMi hmacSha1 msg key).2.hdr = msg.hdr ∧
    (stunMsgChkFingerprint crc32 (stunMsgChkMi hmacSha1 msg key).2).1 =
      (stunMsgChkFingerprint crc32 msg).1 := by
  obtain ⟨-, intact⟩ := stunMsgDecode_intact within decoded
  have same := intact.stunMsgChkMi hmacSha1 key
  exact ⟨stunMsgChkMi_fst hmacSha1 msg key, by rw [same], by rw [same], by rw [same]⟩

/-- A Binding request with a MESSAGE-INTEGRITY and a FINGERPRINT, 52 bytes. -/
def bindingRequest : List UInt8 :=
  [0x00, 0x01, 0x00, 0x20, 0x21, 0x12, 0xa4, 0x42, 1, 2, 3, 4, 5, 6, 7, 8, 9, 10, 11, 12,
    0x00, 0x08, 0x00, 0x14] ++ List.replicate 20 7 ++
  [0x80, 0x28, 0x00, 0x04, 0xde, 0xad, 0xbe, 0xef]

theorem stun_msg_chk_mi_intact_binding :
    (52 ≤ bindingRequest.length ∧
      stunMsgDecode ⟨bindingRequest, 0, 52⟩ = .ok (⟨⟨1, 32, 0x2112a442, List.range' 1 12 |>.map Nat.toUInt8⟩,
        [⟨STUN_ATTR_MSG_INTEGRITY, .msgIntegrity (List.replicate 20 7)⟩,
          ⟨STUN_ATTR_FINGERPRINT, .uint32 0xdeadbeef⟩], ⟨bindingRequest, 0, 52⟩, 0⟩, [])) ∧
    let msg : StunMsg := ⟨⟨1, 32, 0x2112a442, List.range' 1 12 |>.map Nat.toUInt8⟩,
        [⟨STUN_ATTR_MSG_INTEGRITY, .msgIntegrity (List.replicate 20 7)⟩,
          ⟨STUN_ATTR_FINGERPRINT, .uint32 0xdeadbeef⟩], ⟨bindingRequest, 0, 52⟩, 0⟩
    let hmacSha1 : List UInt8 → List UInt8 → Nat → List UInt8 := fun _ data n => (data.take n).take 20
    let crc32 : UInt32 → List UInt8 → Nat → UInt32 := fun crc data _ => crc ^^^ data.length.toUInt32
    ((stunMsgChkMi hmacSha1 msg [0x6b]).1 = .ok () ∨
      (stunMsgChkMi hmacSha1 msg [0x6b]).1 = .error .EBADMSG ∨
      (stunMsgChkMi hmacSha1 msg [0x6b]).1 = .error .EPROTO) ∧
    (stunMsgChkMi hmacSha1 msg [0x6b]).2.mb.buf = msg.mb.buf ∧
    (stunMsgChkMi hmacSha1 msg [0x6b]).2.hdr = msg.hdr ∧
    (stunMsgChkFingerprint crc32 (stunMsgChkMi hmacSha1 msg [0x6b]).2).1 =
      (stunMsgChkFingerprint crc32 msg).1 :=
  ⟨⟨by decide, by decide +kernel⟩,
    @stun_msg_chk_mi_intact ⟨bindingRequest, 0, 52⟩ _ [] (by decide) (by decide +kernel) _ _ [0x6b]⟩

end Libre.Stun
