import Libre.Srtp.Tracking

set_option autoImplicit false

/-!
# The packet transform

RFC 3711's transform of an RTP packet (`srtpWire`): the payload encrypted under the key stream of
the salt, SSRC and index, and a tag, the truncated HMAC-SHA1 in the counter-mode suites or the GCM
tag. `srtp_encrypt` produces it and `srtp_decrypt` takes it back, for both shapes of component
`srtp_alloc` sets up.
-/

namespace Libre.Srtp

open BigEndian Mbuf

/-! ## The RTP component `srtp_alloc` sets up -/

inductive Comp.Shape : Comp → Prop
  | ctr (aes : Aes) (key k_s : List UInt8) (tag_len : Nat) (fits : tag_len ≤ 20) :
      Shape ⟨some aes, .CTR, some key, k_s, tag_len⟩
  | gcm (aes : Aes) (gcm : aes.mode = .GCM) (k_s : List UInt8) (tag_len : Nat) :
      Shape ⟨some aes, .GCM, none, k_s, tag_len⟩

theorem aesAlloc_ok {mode : AesMode} {key : List UInt8} {aes : Aes}
    (h : aesAlloc mode key = .ok aes) : aes = ⟨mode, key⟩ := by
  unfold aesAlloc at h
  split at h <;> first | (cases h; rfl) | cases h

theorem compInit_encrypted {prim : Primitives} {offs : UInt8} {key s : List UInt8} {tag_len : Nat}
    {hash : Bool} {mode : AesMode} {c : Comp}
    (h : compInit prim offs key s tag_len true hash mode = .ok c) :
    (∃ k_e, c.aes = some ⟨mode, k_e⟩) ∧ tag_len ≤ 20 := by
  unfold compInit at h
  split at h
  · cases h
  split at h
  · cases h
  rename_i short
  split at h
  · rename_i k_e k_a k_s _ _ _
    simp only [if_true] at h
    split at h
    · cases h
    · rename_i aes haes
      cases h
      -- `aes_alloc` keeps the key with the requested mode or refuses it
      rcases halloc : aesAlloc mode k_e with e | a
      · rw [halloc] at haes
        cases haes
      · rw [halloc] at haes
        cases haes
        exact ⟨⟨k_e, by rw [aesAlloc_ok halloc]⟩, by omega⟩
  all_goals cases h

theorem srtpAlloc_rtp {prim : Primitives} {suite : SrtpSuite} {key : List UInt8} {flags : Nat}
    {srtp : Srtp} (h : srtpAlloc prim suite key flags = .ok srtp) :
    compInit prim 0 (key.take (suiteParams suite).2.1) (key.drop (suiteParams suite).2.1)
      (suiteParams suite).2.2.2.1 true (suiteParams suite).2.2.2.2 (suiteParams suite).1 =
        .ok srtp.rtp := by
  unfold srtpAlloc at h
  rcases hs : suiteParams suite with ⟨mode, cipher_bytes, salt_bytes, auth_bytes, hash⟩
  rw [hs] at h
  dsimp only at h
  split at h
  · cases h
  split at h
  · rename_i rtp rtcp hrtp _
    cases h
    exact hrtp
  all_goals cases h

theorem srtpAlloc_rtp_shape {prim : Primitives} {suite : SrtpSuite} {key : List UInt8}
    {flags : Nat} {srtp : Srtp} (h : srtpAlloc prim suite key flags = .ok srtp) :
    srtp.rtp.Shape := by
  obtain ⟨⟨k_e, haes⟩, fits⟩ := compInit_encrypted (srtpAlloc_rtp h)
  obtain ⟨mode, hmac, tag_len⟩ := (srtpAlloc_ok h).1
  rcases hc : srtp.rtp with ⟨aes, cmode, hmacKey, k_s, len⟩
  rw [hc] at haes mode hmac tag_len
  simp only at haes mode hmac tag_len
  subst haes mode tag_len
  cases suite <;> simp only [suiteParams] at hmac fits ⊢ <;>
    first
      | (obtain ⟨key, rfl⟩ := Option.isSome_iff_exists.mp hmac
         exact .ctr _ key k_s _ fits)
      | (rw [Option.isSome_eq_false_iff, Option.isNone_iff_eq_none] at hmac
         subst hmac
         exact .gcm _ rfl k_s _)

/-- The receiving context has the sender's RTP component when both come from the same suite and
master key: the flags only bear on RTCP. -/
theorem srtpAlloc_rtp_eq {prim : Primitives} {suite : SrtpSuite} {key : List UInt8}
    {flags flags' : Nat} {srtp srtp' : Srtp} (h : srtpAlloc prim suite key flags = .ok srtp)
    (h' : srtpAlloc prim suite key flags' = .ok srtp') : srtp'.rtp = srtp.rtp := by
  have same := (srtpAlloc_rtp h').symm.trans (srtpAlloc_rtp h)
  injection same

/-! ## The transform -/

section Transform

variable (prim : Primitives)

/-- What follows the header once the payload is encrypted: the ciphertext, and in GCM its tag
over the header and the ciphertext. -/
def srtpCipher (comp : Comp) (ssrc : UInt32) (ix : UInt64) (hdr pld : List UInt8) : List UInt8 :=
  match comp.aes, comp.mode with
  | some aes, .CTR => (aesSetIv aes (srtpIvCalc comp.k_s ssrc ix)).crypt prim pld
  | some aes, .GCM =>
    let iv := srtpIvCalcGcm comp.k_s ssrc ix
    let enc := (aesSetIv aes iv).crypt prim pld
    enc ++ List.ofFn (prim.gcmTag aes.key iv hdr enc)
  | none, _ => pld

/-- The protected packet: header and cipher part, then the HMAC over them and the roll-over
counter `ix / 65536`, cut to the component's tag length. -/
def srtpWire (comp : Comp) (ssrc : UInt32) (ix : UInt64) (hdr pld : List UInt8) : List UInt8 :=
  let msg := hdr ++ srtpCipher prim comp ssrc ix hdr pld
  match comp.hmac with
  | some key =>
    msg ++ (List.ofFn (prim.hmacSha1 key (msg ++ netBytes 4 (ix.toNat / 65536)))).take comp.tag_len
  | none => msg

theorem length_srtpWire (comp : Comp) (ssrc : UInt32) (ix : UInt64) (hdr pld : List UInt8) :
    hdr.length + pld.length ≤ (srtpWire prim comp ssrc ix hdr pld).length := by
  have cipher : pld.length ≤ (srtpCipher prim comp ssrc ix hdr pld).length := by
    unfold srtpCipher
    split <;> simp
  unfold srtpWire
  split <;> simp <;> omega

end Transform

/-! ## Sending -/

section Send

variable (prim : Primitives)

theorem srtpSeal_frame {comp : Comp} (shape : comp.Shape) (strm : Stream) (ix : UInt64)
    {start : Nat} {mb : Mbuf} {hdr pld : List UInt8} (frame : Frame mb start (hdr ++ pld))
    (pos : mb.pos = start + hdr.length) :
    ∃ mb', srtpSeal prim comp strm ix start mb = (mb', none) ∧
      Frame mb' start (hdr ++ srtpCipher prim comp strm.ssrc ix hdr pld) := by
  have payload : mb.left = pld := frame.suffix.left pos
  have inPlace (enc : List UInt8) (same : enc.length = pld.length) :
      Frame (mb.overwrite mb.pos enc) start (hdr ++ enc) := by
    rw [pos]
    exact frame.overwrite_tail enc same
  cases shape with
  | ctr aes key k_s tag_len fits =>
    -- counter mode encrypts the payload where it stands
    refine ⟨mb.overwrite mb.pos ((aesSetIv aes (srtpIvCalc k_s strm.ssrc ix)).crypt prim pld),
      by simp only [srtpSeal, aesEncr, payload], ?_⟩
    exact inPlace _ (length_crypt _ _ _)
  | gcm aes gcm k_s tag_len =>
    -- GCM takes the header as additional data and appends its tag after the ciphertext
    have aad : mb.buf.extract start mb.pos = hdr := by rw [pos]; exact frame.holds.left.bytes
    let iv := srtpIvCalcGcm k_s strm.ssrc ix
    let enc := (aesSetIv aes iv).crypt prim pld
    have sealed := Frame.writeMem_end ((frame_setPos mb.end_).mpr (inPlace enc (length_crypt _ _ _)))
      rfl (List.ofFn (prim.gcmTag aes.key iv hdr enc))
    refine ⟨_, ?_, by simpa [srtpCipher] using sealed⟩
    simp [srtpSeal, aesEncr, aesGetAuthtag, payload, aad, gcm, iv, enc]

theorem srtpAppendHmac_frame (key : List UInt8) (tag_len : Nat) (strm : Stream) {start : Nat}
    {mb : Mbuf} {msg : List UInt8} (frame : Frame mb start msg) :
    ∃ mb', srtpAppendHmac prim key tag_len strm start mb = (mb', none) ∧
      Frame mb' start
        (msg ++ (List.ofFn (prim.hmacSha1 key (msg ++ netBytes 4 strm.roc.toNat))).take tag_len) := by
  have withRoc : Frame ((mb.setPos mb.end_).writeU32 strm.roc) start
      (msg ++ netBytes 4 strm.roc.toNat) :=
    Frame.writeMem_end ((frame_setPos _).mpr frame) rfl _
  have digest : hmacDigest prim key (((mb.setPos mb.end_).writeU32 strm.roc).setPos start).left =
      .ok (List.ofFn (prim.hmacSha1 key (msg ++ netBytes 4 strm.roc.toNat))) := by
    have nonempty : msg ++ netBytes 4 strm.roc.toNat ≠ [] :=
      List.ne_nil_of_length_pos (by simp)
    rw [((frame_setPos _).mpr withRoc).left rfl]
    simp [hmacDigest, nonempty]
  have cut : Frame (((((mb.setPos mb.end_).writeU32 strm.roc).setPos start).setPos mb.end_).setEnd
      mb.end_) start msg := ⟨withRoc.front.holds, frame.ends⟩
  exact ⟨_, by simp only [srtpAppendHmac, digest], cut.writeMem_end rfl _⟩

theorem sendIndex_div (strm : Stream) (seq : UInt16) :
    (sendIndex strm seq).toNat / 65536 = (rocUpdate strm seq).roc.toNat := by
  have hroc := (rocUpdate strm seq).roc.toNat_lt
  have hseq := seq.toNat_lt
  simp [sendIndex, UInt64.toNat_add, UInt64.toNat_mul]
  omega

/-- `srtp_encrypt` from the stream lookup on puts the transform of the packet in the buffer,
from where the packet started to the end, and moves the stream on. -/
theorem srtpProtect_frame {comp : Comp} (shape : comp.Shape) (strm : Stream) (seq : UInt16)
    {start : Nat} {mb : Mbuf} {hdr pld : List UInt8} (frame : Frame mb start (hdr ++ pld))
    (pos : mb.pos = start + hdr.length) :
    ∃ mb', srtpProtect prim comp strm seq start mb = (slUpdate (rocUpdate strm seq) seq, mb', none) ∧
      mb'.pos = start ∧ Frame mb' start (srtpWire prim comp strm.ssrc (sendIndex strm seq) hdr pld) := by
  obtain ⟨sealedMb, sealed, sealedFrame⟩ := srtpSeal_frame prim shape (rocUpdate strm seq)
    (sendIndex strm seq) frame pos
  rw [rocUpdate_ssrc] at sealedFrame
  cases shape with
  | ctr aes key k_s tag_len fits =>
    obtain ⟨taggedMb, tagged, taggedFrame⟩ := srtpAppendHmac_frame prim key tag_len
      (rocUpdate strm seq) sealedFrame
    refine ⟨taggedMb.setPos start, ?_, rfl, ?_⟩
    · unfold srtpProtect
      dsimp only
      rw [show 65536 * (rocUpdate strm seq).roc.toUInt64 + seq.toUInt64 = sendIndex strm seq
        from rfl, sealed]
      simp only [tagged]
    unfold srtpWire
    dsimp only
    rw [sendIndex_div]
    exact (frame_setPos _).mpr taggedFrame
  | gcm aes gcm k_s tag_len =>
    refine ⟨sealedMb.setPos start, ?_, rfl, ?_⟩
    · unfold srtpProtect
      dsimp only
      rw [show 65536 * (rocUpdate strm seq).roc.toUInt64 + seq.toUInt64 = sendIndex strm seq
        from rfl, sealed]
    exact (frame_setPos _).mpr sealedFrame

end Send

/-! ## Receiving -/

section Receive

variable (prim : Primitives)

theorem srtpReplayCheck_accepted {replay : Replay} {ix : UInt64}
    (fresh : (srtpReplayCheck replay ix).1 = true) : ∃ next, srtpReplayCheck replay ix = (true, next) :=
  ⟨_, by rw [← fresh]⟩

theorem aesAuthenticate_of_tag {ctx : AesCtx} {tag : List UInt8} (gcm : ctx.aes.mode = .GCM)
    (h : tag = List.ofFn (prim.gcmTag ctx.aes.key ctx.iv ctx.aad ctx.done)) :
    aesAuthenticate prim ctx tag = .ok () := by
  unfold aesAuthenticate
  rw [gcm]
  exact if_pos h

/-- The HMAC block of `srtp_decrypt` accepts the tag the sender computed over the same counter,
and cuts it off. -/
theorem srtpCheckHmac_frame (key : List UInt8) {tag_len : Nat} (fits : tag_len ≤ 20)
    (strm : Stream) (ix : UInt64) {start : Nat} {mb : Mbuf} {msg : List UInt8}
    (frame : Frame mb start
      (msg ++ (List.ofFn (prim.hmacSha1 key (msg ++ netBytes 4 strm.roc.toNat))).take tag_len))
    (pos : mb.pos ≤ start + msg.length) (fresh : (srtpReplayCheck strm.replay_rtp ix).1 = true) :
    ∃ mb', srtpCheckHmac prim key tag_len strm ix start mb =
        ({ strm with replay_rtp := (srtpReplayCheck strm.replay_rtp ix).2 }, mb', none) ∧
      mb'.pos = mb.pos ∧ Frame mb' start msg := by
  have len : ((List.ofFn (prim.hmacSha1 key (msg ++ netBytes 4 strm.roc.toNat))).take
      tag_len).length = tag_len := by simp; omega
  have ends := frame.ends
  simp only [List.length_append, len] at ends
  have enough : ¬ mb.getLeft < tag_len := by simp only [getLeft]; omega
  have tagStart : mb.end_ - tag_len = start + msg.length := by omega
  have readTag := frame.readMem_suffix
  rw [len] at readTag
  have withRoc : Frame ((((mb.setPos (start + msg.length)).setEnd (start + msg.length)).writeU32
      strm.roc).setPos start) start (msg ++ netBytes 4 strm.roc.toNat) :=
    (frame_setPos _).mpr (@Frame.writeMem_end ((mb.setPos (start + msg.length)).setEnd
      (start + msg.length)) _ _ ⟨frame.holds.left, rfl⟩ rfl (netBytes 4 strm.roc.toNat))
  have nonempty : msg ++ netBytes 4 strm.roc.toNat ≠ [] := List.ne_nil_of_length_pos (by simp)
  have digest : hmacDigest prim key ((((mb.setPos (start + msg.length)).setEnd
      (start + msg.length)).writeU32 strm.roc).setPos start).left =
        .ok (List.ofFn (prim.hmacSha1 key (msg ++ netBytes 4 strm.roc.toNat))) := by
    rw [withRoc.left rfl]
    simp [hmacDigest, nonempty]
  obtain ⟨next, check⟩ := srtpReplayCheck_accepted fresh
  refine ⟨(((((mb.setPos (start + msg.length)).setEnd (start + msg.length)).writeU32
    strm.roc).setPos start).setPos mb.pos).setEnd (start + msg.length), ?_, rfl,
    ⟨withRoc.holds.left, rfl⟩⟩
  simp only [srtpCheckHmac, enough, if_false, tagStart, readTag, advance_setPos, setPos_setPos,
    digest, ne_eq, not_true_eq_false, check]

theorem srtpOpen_ctr_frame (aes : Aes) (hmac : Option (List UInt8)) (k_s : List UInt8)
    (tag_len : Nat) (strm : Stream) (ix : UInt64) {start : Nat} {mb : Mbuf} {hdr pld : List UInt8}
    (frame : Frame mb start (hdr ++ srtpCipher prim ⟨some aes, .CTR, hmac, k_s, tag_len⟩ strm.ssrc
      ix hdr pld))
    (pos : mb.pos = start + hdr.length) :
    srtpOpen prim ⟨some aes, .CTR, hmac, k_s, tag_len⟩ strm ix start mb =
        (strm, mb.overwrite mb.pos pld, none) ∧
      Frame (mb.overwrite mb.pos pld) start (hdr ++ pld) := by
  simp only [srtpCipher] at frame
  have cipher := frame.suffix.left pos
  refine ⟨by simp only [srtpOpen, aesDecr, cipher, crypt_crypt], ?_⟩
  rw [pos]
  exact frame.overwrite_tail pld (length_crypt _ _ _).symm

/-- GCM decrypts the payload where it stands, checks the tag that follows it over the header as
additional data, and cuts the tag off. -/
theorem srtpOpenGcm_frame (aes : Aes) (gcm : aes.mode = .GCM) (hmac : Option (List UInt8))
    (k_s : List UInt8) (tag_len : Nat) (strm : Stream) (ix : UInt64) {start : Nat} {mb : Mbuf}
    {hdr pld : List UInt8}
    (frame : Frame mb start (hdr ++ srtpCipher prim ⟨some aes, .GCM, hmac, k_s, tag_len⟩ strm.ssrc
      ix hdr pld))
    (pos : mb.pos = start + hdr.length)
    (fresh : (srtpReplayCheck strm.replay_rtp ix).1 = true) :
    ∃ mb', srtpOpenGcm prim aes k_s strm ix start mb =
        ({ strm with replay_rtp := (srtpReplayCheck strm.replay_rtp ix).2 }, mb', none) ∧
      mb'.pos = mb.pos ∧ Frame mb' start (hdr ++ pld) := by
  simp only [srtpCipher] at frame
  generalize hiv : srtpIvCalcGcm k_s strm.ssrc ix = iv at frame
  generalize henc : (aesSetIv aes iv).crypt prim pld = enc at frame
  generalize htag : List.ofFn (prim.gcmTag aes.key iv hdr enc) = tag at frame
  have tagLen : tag.length = GCM_TAGLEN := by rw [← htag]; simp [GCM_TAGLEN]
  have encLen : enc.length = pld.length := by rw [← henc]; simp
  have ends := frame.ends
  simp only [List.length_append, tagLen, GCM_TAGLEN] at ends
  rw [← List.append_assoc] at frame
  have enough : ¬ mb.getLeft < GCM_TAGLEN := by simp only [getLeft, GCM_TAGLEN]; omega
  have tagStart : mb.end_ - GCM_TAGLEN = start + (hdr ++ enc).length := by
    simp only [GCM_TAGLEN, List.length_append]; omega
  have aad : mb.buf.extract start mb.pos = hdr := by rw [pos]; exact frame.holds.left.left.bytes
  have cipher : mb.buf.extract mb.pos (start + (hdr ++ enc).length) = enc := by
    have inner := frame.holds.left.right.bytes
    rw [pos, List.length_append, ← Nat.add_assoc]
    exact inner
  have opened := frame.overwrite pld encLen.symm
  rw [← pos] at opened
  have tagBytes : (mb.overwrite mb.pos pld).buf.extract (start + (hdr ++ enc).length)
      (start + (hdr ++ enc).length + GCM_TAGLEN) = tag := by
    have held := opened.holds.right.bytes
    simp only [List.length_append, encLen, tagLen] at held ⊢
    exact held
  have plain : (aesSetIv aes iv).crypt prim enc = pld := by rw [← henc, crypt_crypt]
  have sameLen : (hdr ++ enc).length = (hdr ++ pld).length := by simp [encLen]
  refine ⟨(mb.overwrite mb.pos pld).setEnd (start + (hdr ++ enc).length), ?_, rfl, ?_⟩
  · unfold srtpOpenGcm
    rw [hiv, aad, if_neg enough]
    dsimp only
    rw [tagStart, cipher]
    obtain ⟨next, check⟩ := srtpReplayCheck_accepted fresh
    simp only [aesDecr, crypt_addAad, plain, check]
    rw [plain, tagBytes, aesAuthenticate_of_tag prim (by simpa using gcm) (by simp [← htag])]
  · rw [sameLen]
    exact opened.front

/-- `srtp_decrypt` from the stream lookup on takes the transform of the packet, formed at the
receiver's own index, back to the packet, and moves the stream on. -/
theorem srtpUnprotect_frame {comp : Comp} (shape : comp.Shape) (strm : Stream) (seq : UInt16)
    {start : Nat} {mb : Mbuf} {hdr pld : List UInt8}
    (notLate : ¬ seqDiff strm.s_l seq > 32768)
    (roc : (rocUpdate strm seq).roc.toNat = (recvIndex strm seq).toNat / 65536)
    (fresh : (srtpReplayCheck strm.replay_rtp (recvIndex strm seq)).1 = true)
    (frame : Frame mb start (srtpWire prim comp strm.ssrc (recvIndex strm seq) hdr pld))
    (pos : mb.pos = start + hdr.length) :
    ∃ mb', srtpUnprotect prim comp strm seq start mb =
        (slUpdate { rocUpdate strm seq with
          replay_rtp := (srtpReplayCheck strm.replay_rtp (recvIndex strm seq)).2 } seq, mb', none) ∧
      mb'.pos = start ∧ Frame mb' start (hdr ++ pld) := by
  cases shape with
  | ctr aes key k_s tag_len fits =>
    -- the HMAC block first, over the receiver's counter, then the cipher
    unfold srtpWire at frame
    dsimp only at frame
    rw [← roc, ← rocUpdate_ssrc strm seq] at frame
    rw [← rocUpdate_replay_rtp strm seq] at fresh
    obtain ⟨checkedMb, checked, checkedPos, checkedFrame⟩ := srtpCheckHmac_frame prim key fits
      (rocUpdate strm seq) (recvIndex strm seq) frame (by simp [pos]) fresh
    obtain ⟨opened, openedFrame⟩ := @srtpOpen_ctr_frame prim aes (some key) k_s tag_len
      { rocUpdate strm seq with replay_rtp := (srtpReplayCheck strm.replay_rtp
        (recvIndex strm seq)).2 } (recvIndex strm seq) start _ hdr pld
      (by simpa using checkedFrame) (by rw [checkedPos, pos])
    refine ⟨_, ?_, rfl, (frame_setPos _).mpr openedFrame⟩
    simp only [srtpUnprotect, notLate, if_false]
    rw [show srtpGetIndex (rocUpdate strm seq).roc (rocUpdate strm seq).s_l seq =
      recvIndex strm seq from rfl, checked]
    simp only [rocUpdate_replay_rtp] at opened ⊢
    rw [opened]
  | gcm aes gcm k_s tag_len =>
    -- no HMAC: the GCM block checks the tag and the replay window
    rw [← rocUpdate_ssrc strm seq] at frame
    rw [← rocUpdate_replay_rtp strm seq] at fresh
    obtain ⟨opened, openedEq, openedPos, openedFrame⟩ := srtpOpenGcm_frame prim aes gcm none k_s
      tag_len (rocUpdate strm seq) (recvIndex strm seq) frame pos fresh
    refine ⟨_, ?_, rfl, (frame_setPos _).mpr openedFrame⟩
    simp only [srtpUnprotect, notLate, if_false, srtpOpen]
    rw [show srtpGetIndex (rocUpdate strm seq).roc (rocUpdate strm seq).s_l seq =
      recvIndex strm seq from rfl, openedEq]
    simp only [rocUpdate_replay_rtp]

end Receive

end Libre.Srtp
