import Libre.Srtp.Srtcp

set_option autoImplicit false

/-!
# What a failed receive leaves behind

`srtp_decrypt` and `srtcp_decrypt` look the stream up, and `srtp_decrypt` moves its roll-over
counter, before any check, so an error does not leave the context as it was. The crypto components
are never written, other SSRCs' streams stay, and the packet's stream keeps its replay windows.
-/

namespace Libre.Srtp

open Rtp

/-- The fields of the packet's stream that a failed receive does not write. -/
structure Stream.Keeps (a b : Stream) : Prop where
  ssrc : b.ssrc = a.ssrc
  replay_rtp : b.replay_rtp = a.replay_rtp
  replay_rtcp : b.replay_rtcp = a.replay_rtcp
  rtcp_index : b.rtcp_index = a.rtcp_index

theorem Stream.Keeps.refl (a : Stream) : a.Keeps a := ⟨rfl, rfl, rfl, rfl⟩

theorem Stream.Keeps.trans {a b c : Stream} (hab : a.Keeps b) (hbc : b.Keeps c) : a.Keeps c :=
  ⟨hbc.ssrc.trans hab.ssrc, hbc.replay_rtp.trans hab.replay_rtp,
    hbc.replay_rtcp.trans hab.replay_rtcp, hbc.rtcp_index.trans hab.rtcp_index⟩

/-- How a receive may change the stream list: the stream of `ssrc` is replaced in its place by
one related to it by `keep`, or, when there was none and there is room, `fresh` is appended. -/
def StreamChanged (keep : Stream → Stream → Prop) (fresh : Stream) (ssrc : UInt32)
    (before after : List Stream) : Prop :=
  (∃ slot : Slot, ∃ strm, before = slot.streams ∧ slot.strm.ssrc = ssrc ∧ keep slot.strm strm ∧
      after = (slot.set strm).streams) ∨
  ((∀ s ∈ before, s.ssrc ≠ ssrc) ∧ before.length < SRTP_MAX_STREAMS ∧ after = before ++ [fresh])

/-- What `srtp_decrypt` may leave of an existing stream after an error: the kept fields, and
the first sequence number captured. -/
def RtpKeeps (a b : Stream) : Prop := a.Keeps b ∧ b.s_l_set = true

/-- The stream `stream_get_seq` creates for a new SSRC. -/
def rtpFresh (ssrc : UInt32) (seq : UInt16) : Stream :=
  { streamInit ssrc with s_l := seq, s_l_set := true }

theorem rocUpdate_keeps (strm : Stream) (seq : UInt16) : strm.Keeps (rocUpdate strm seq) := by
  unfold rocUpdate
  split
  · exact ⟨rfl, rfl, rfl, rfl⟩
  · exact .refl strm

@[simp] theorem rocUpdate_s_l_set (strm : Stream) (seq : UInt16) :
    (rocUpdate strm seq).s_l_set = strm.s_l_set := by
  unfold rocUpdate
  split <;> rfl

theorem rocUpdate_self (strm : Stream) : rocUpdate strm strm.s_l = strm := by
  simp [rocUpdate, seqDiff]

theorem RtpKeeps.of_keeps {a b c : Stream} (hab : RtpKeeps a b) (hbc : b.Keeps c)
    (set : c.s_l_set = b.s_l_set) : RtpKeeps a c :=
  ⟨hab.1.trans hbc, set.trans hab.2⟩

/-- The stream `stream_get_seq` hands out sits where `stream_get` found or put it, with the
first sequence number captured. -/
theorem streamGetSeq_keeps {streaml : List Stream} {ssrc : UInt32} {seq : UInt16} {slot : Slot}
    (h : streamGetSeq streaml ssrc seq = .ok slot) :
    ∃ slot0, streamGet streaml ssrc = .ok slot0 ∧ slot.before = slot0.before ∧
      slot.after = slot0.after ∧ RtpKeeps slot0.strm slot.strm ∧
      (slot0.strm.s_l_set = false → slot.strm = { slot0.strm with s_l := seq, s_l_set := true }) := by
  obtain ⟨slot0, hget, rfl⟩ := streamGetSeq_ok h
  refine ⟨slot0, hget, ?_⟩
  cases hset : slot0.strm.s_l_set
  · rw [if_pos (by simp)]
    exact ⟨rfl, rfl, ⟨⟨rfl, rfl, rfl, rfl⟩, rfl⟩, fun _ => rfl⟩
  · rw [if_neg (by simp)]
    exact ⟨rfl, rfl, ⟨.refl _, hset⟩, fun unset => nomatch unset⟩

section Calls

variable (prim : Primitives)

/-! ## The blocks of `srtp_decrypt` -/

theorem srtpCheckHmac_strm (key : List UInt8) (tag_len : Nat) (strm : Stream) (ix : UInt64)
    (start : Nat) (mb : Mbuf) :
    (srtpCheckHmac prim key tag_len strm ix start mb).1 = strm ∨
      (srtpCheckHmac prim key tag_len strm ix start mb).2.2 = none := by
  unfold srtpCheckHmac
  dsimp only
  repeat' split
  all_goals simp

theorem srtpOpen_strm (comp : Comp) (strm : Stream) (ix : UInt64) (start : Nat) (mb : Mbuf) :
    (srtpOpen prim comp strm ix start mb).1 = strm ∨
      (srtpOpen prim comp strm ix start mb).2.2 = none := by
  unfold srtpOpen srtpOpenGcm
  dsimp only
  repeat' split
  all_goals simp

theorem srtpOpen_ctr (comp : Comp) (ctr : comp.mode = .CTR) (strm : Stream) (ix : UInt64)
    (start : Nat) (mb : Mbuf) : (srtpOpen prim comp strm ix start mb).2.2 = none := by
  unfold srtpOpen
  split
  · rfl
  · simp_all
  · rfl

-- Past the window check, every error comes after the roll-over update and leaves it in place.
theorem srtpUnprotect_rolled (comp : Comp) (hmacCtr : comp.hmac.isSome → comp.mode = .CTR)
    (strm : Stream) (seq : UInt16) (start : Nat) (mb : Mbuf) (within : ¬ seqDiff strm.s_l seq > 32768) :
    (srtpUnprotect prim comp strm seq start mb).1 = rocUpdate strm seq ∨
      (srtpUnprotect prim comp strm seq start mb).2.2 = none := by
  unfold srtpUnprotect
  rw [if_neg within]
  dsimp only
  split
  · rename_i strm1 mb1 hchecked
    split
    · simp
    · -- the cipher failed: only GCM can fail, and a GCM component has no HMAC
      cases hk : comp.hmac with
      | none =>
        simp only [hk, Prod.mk.injEq] at hchecked
        obtain ⟨rfl, -⟩ := hchecked
        exact srtpOpen_strm prim comp _ _ start mb1
      | some key =>
        exact .inr (srtpOpen_ctr prim comp (hmacCtr (by simp [hk])) _ _ start mb1)
  · cases hk : comp.hmac with
    | none => exact .inl rfl
    | some key => exact srtpCheckHmac_strm prim key comp.tag_len _ _ start mb

theorem srtpUnprotect_strm (comp : Comp) (hmacCtr : comp.hmac.isSome → comp.mode = .CTR)
    (strm : Stream) (seq : UInt16) (start : Nat) (mb : Mbuf) :
    (srtpUnprotect prim comp strm seq start mb).1 = strm ∨
      (srtpUnprotect prim comp strm seq start mb).1 = rocUpdate strm seq ∨
      (srtpUnprotect prim comp strm seq start mb).2.2 = none := by
  by_cases late : seqDiff strm.s_l seq > 32768
  · left
    unfold srtpUnprotect
    rw [if_pos late]
  · exact .inr (srtpUnprotect_rolled prim comp hmacCtr strm seq start mb late)

/-! ## The blocks of `srtcp_decrypt` -/

theorem srtcpCheckHmac_strm (key : List UInt8) (tag_len : Nat) (strm : Stream) (ix : UInt32)
    (start : Nat) (mb : Mbuf) :
    (srtcpCheckHmac prim key tag_len strm ix start mb).1 = strm ∨
      (srtcpCheckHmac prim key tag_len strm ix start mb).2.2 = none := by
  unfold srtcpCheckHmac
  dsimp only
  repeat' split
  all_goals simp

theorem srtcpOpen_ctr (comp : Comp) (ctr : comp.mode = .CTR) (ep : Bool) (ssrc ix : UInt32)
    (start pld_start eix_start : Nat) (mb : Mbuf) :
    (srtcpOpen prim comp ep ssrc ix start pld_start eix_start mb).2 = none := by
  unfold srtcpOpen
  split
  · rfl
  · simp_all
  · rfl

theorem srtcpUnprotect_strm (rtcp : Comp) (hmacCtr : rtcp.hmac.isSome → rtcp.mode = .CTR)
    (strm : Stream) (ssrc : UInt32) (start : Nat) (mb : Mbuf) :
    (srtcpUnprotect prim rtcp strm ssrc start mb).1 = strm ∨
      (srtcpUnprotect prim rtcp strm ssrc start mb).2.2 = none := by
  unfold srtcpUnprotect
  split
  · exact .inl rfl
  dsimp only
  split
  · rename_i strm1 mb1 hchecked
    split
    · -- as in SRTP, a failing cipher means GCM and therefore no HMAC before it
      rename_i mb2 e hopen
      cases hk : rtcp.hmac with
      | none =>
        simp only [hk, Prod.mk.injEq] at hchecked
        exact .inl hchecked.1.symm
      | some key =>
        have err := congrArg Prod.snd hopen
        rw [srtcpOpen_ctr prim rtcp (hmacCtr (by simp [hk]))] at err
        cases err
    · simp
  · cases hk : rtcp.hmac with
    | none => exact .inl rfl
    | some key => exact srtcpCheckHmac_strm prim key rtcp.tag_len _ _ start _

/-! ## Whole calls -/

theorem srtpDecrypt_comps (srtp : Srtp) (mb : Mbuf) :
    (srtpDecrypt prim srtp mb).srtp.rtp = srtp.rtp ∧
      (srtpDecrypt prim srtp mb).srtp.rtcp = srtp.rtcp := by
  unfold srtpDecrypt
  split
  · exact ⟨rfl, rfl⟩
  split <;> exact ⟨rfl, rfl⟩

theorem srtcpDecrypt_comps (srtp : Srtp) (mb : Mbuf) :
    (srtcpDecrypt prim srtp mb).srtp.rtp = srtp.rtp ∧
      (srtcpDecrypt prim srtp mb).srtp.rtcp = srtp.rtcp := by
  unfold srtcpDecrypt
  split
  · exact ⟨rfl, rfl⟩
  split <;> exact ⟨rfl, rfl⟩

theorem srtpDecrypt_error_streams (srtp : Srtp)
    (hmacCtr : srtp.rtp.hmac.isSome → srtp.rtp.mode = .CTR) (mb : Mbuf) {e : Errno}
    (h : (srtpDecrypt prim srtp mb).err = some e) :
    (srtpDecrypt prim srtp mb).srtp.streaml = srtp.streaml ∨
      ∃ hdr, (rtpHdrDecode mb).1 = .ok hdr ∧
        StreamChanged RtpKeeps (rtpFresh hdr.ssrc hdr.seq) hdr.ssrc srtp.streaml
          (srtpDecrypt prim srtp mb).srtp.streaml := by
  revert h
  unfold srtpDecrypt
  rcases hd : rtpHdrDecode mb with ⟨_ | hdr, mb1⟩
  · exact fun _ => .inl rfl
  dsimp only
  rcases hg : streamGetSeq srtp.streaml hdr.ssrc hdr.seq with e' | slot
  · exact fun _ => .inl rfl
  dsimp only
  intro h
  right
  refine ⟨hdr, rfl, ?_⟩
  rcases hu : srtpUnprotect prim srtp.rtp slot.strm hdr.seq mb.pos mb1 with ⟨strm, mb2, err⟩
  have hstrm : strm = slot.strm ∨ strm = rocUpdate slot.strm hdr.seq := by
    have body := srtpUnprotect_strm prim srtp.rtp hmacCtr slot.strm hdr.seq mb.pos mb1
    rw [hu] at body h
    rcases body with same | rolled | ok
    · exact .inl same
    · exact .inr rolled
    · simp_all
  have keeps : slot.strm.Keeps strm ∧ strm.s_l_set = slot.strm.s_l_set := by
    rcases hstrm with rfl | rfl
    · exact ⟨.refl _, rfl⟩
    · exact ⟨rocUpdate_keeps _ _, rocUpdate_s_l_set _ _⟩
  obtain ⟨slot0, hget, before, after, kept, first⟩ := streamGetSeq_keeps hg
  obtain ⟨same, found | ⟨none, room, rfl⟩⟩ := streamGet_ok hget
  · -- the SSRC had a stream: it is replaced in its place
    refine .inl ⟨slot0, strm, found.symm, same, kept.of_keeps keeps.1 keeps.2, ?_⟩
    simp [Slot.streams, Slot.set, before, after]
  · -- a fresh stream was appended, and nothing after the lookup moved it
    have fresh : slot.strm = rtpFresh hdr.ssrc hdr.seq := first rfl
    have unrolled : strm = rtpFresh hdr.ssrc hdr.seq := by
      rcases hstrm with rfl | rfl
      · exact fresh
      · rw [fresh]
        exact rocUpdate_self (rtpFresh hdr.ssrc hdr.seq)
    refine .inr ⟨none, room, ?_⟩
    simp [Slot.streams, Slot.set, before, after, unrolled]

theorem srtcpDecrypt_error_streams (srtp : Srtp)
    (hmacCtr : srtp.rtcp.hmac.isSome → srtp.rtcp.mode = .CTR) (mb : Mbuf) {e : Errno}
    (h : (srtcpDecrypt prim srtp mb).err = some e) :
    (srtcpDecrypt prim srtp mb).srtp.streaml = srtp.streaml ∨
      ∃ ssrc mb', getRtcpSsrc mb = .ok (ssrc, mb') ∧
        StreamChanged Eq (streamInit ssrc) ssrc srtp.streaml
          (srtcpDecrypt prim srtp mb).srtp.streaml := by
  revert h
  unfold srtcpDecrypt
  rcases hs : getRtcpSsrc mb with e' | ⟨ssrc, mb1⟩
  · exact fun _ => .inl rfl
  dsimp only
  rcases hg : streamGet srtp.streaml ssrc with e' | slot
  · exact fun _ => .inl rfl
  dsimp only
  intro h
  right
  refine ⟨ssrc, mb1, rfl, ?_⟩
  rcases hu : srtcpUnprotect prim srtp.rtcp slot.strm ssrc mb.pos mb1 with ⟨strm, mb2, err⟩
  have hstrm : strm = slot.strm := by
    have body := srtcpUnprotect_strm prim srtp.rtcp hmacCtr slot.strm ssrc mb.pos mb1
    rw [hu] at body h
    rcases body with same | ok
    · exact same
    · simp_all
  subst hstrm
  obtain ⟨same, found | ⟨none, room, rfl⟩⟩ := streamGet_ok hg
  · exact .inl ⟨slot, slot.strm, found.symm, same, rfl, rfl⟩
  · exact .inr ⟨none, room, rfl⟩

end Calls

/-- The session `srtp_alloc` gives for `SRTP_AES_CM_128_HMAC_SHA1_80` under `zeroPrimitives`. -/
def cmSession : Srtp :=
  ⟨⟨some ⟨.CTR, List.replicate 16 0⟩, .CTR, some (List.replicate 20 0), List.replicate 16 0, 10⟩,
    ⟨some ⟨.CTR, List.replicate 16 0⟩, .CTR, some (List.replicate 20 0), List.replicate 16 0, 10⟩,
    []⟩

/-- A bare RTP header, SSRC 1 and sequence number 1, with neither payload nor tag. -/
def rtpHeaderOnly : Mbuf :=
  ⟨[0x80, 0x00, 0x00, 0x01, 0x00, 0x00, 0x00, 0x00, 0x00, 0x00, 0x00, 0x01], 0, 12⟩

theorem decrypt_error_streams (prim : Primitives) (suite : SrtpSuite) (key : List UInt8)
    (flags : Nat) (s0 : Srtp) (alloc : srtpAlloc prim suite key flags = .ok s0)
    (streaml : List Stream) (mb : Mbuf) (e : Errno) :
    ((srtpDecrypt prim { s0 with streaml := streaml } mb).err = some e →
      (srtpDecrypt prim { s0 with streaml := streaml } mb).srtp.rtp = s0.rtp ∧
      (srtpDecrypt prim { s0 with streaml := streaml } mb).srtp.rtcp = s0.rtcp ∧
      ((srtpDecrypt prim { s0 with streaml := streaml } mb).srtp.streaml = streaml ∨
        ∃ hdr, (rtpHdrDecode mb).1 = .ok hdr ∧
          StreamChanged RtpKeeps (rtpFresh hdr.ssrc hdr.seq) hdr.ssrc streaml
            (srtpDecrypt prim { s0 with streaml := streaml } mb).srtp.streaml)) ∧
    ((srtcpDecrypt prim { s0 with streaml := streaml } mb).err = some e →
      (srtcpDecrypt prim { s0 with streaml := streaml } mb).srtp.rtp = s0.rtp ∧
      (srtcpDecrypt prim { s0 with streaml := streaml } mb).srtp.rtcp = s0.rtcp ∧
      ((srtcpDecrypt prim { s0 with streaml := streaml } mb).srtp.streaml = streaml ∨
        ∃ ssrc mb', getRtcpSsrc mb = .ok (ssrc, mb') ∧
          StreamChanged Eq (streamInit ssrc) ssrc streaml
            (srtcpDecrypt prim { s0 with streaml := streaml } mb).srtp.streaml)) := by
  obtain ⟨rtp, rtcp, -⟩ := srtpAlloc_ok alloc
  constructor
  · intro h
    obtain ⟨same_rtp, same_rtcp⟩ := srtpDecrypt_comps prim { s0 with streaml := streaml } mb
    exact ⟨same_rtp, same_rtcp, srtpDecrypt_error_streams prim { s0 with streaml := streaml } rtp.mode_of_hmac mb h⟩
  · intro h
    obtain ⟨same_rtp, same_rtcp⟩ := srtcpDecrypt_comps prim { s0 with streaml := streaml } mb
    exact ⟨same_rtp, same_rtcp, srtcpDecrypt_error_streams prim { s0 with streaml := streaml } rtcp.mode_of_hmac mb h⟩

-- A packet whose sequence number reads as a wrap of the 16-bit counter advances the roll-over
-- counter and drops `s_l` to 0 before its tag is checked; an error after that, a forged or a
-- truncated packet among them, keeps both.
theorem srtpDecrypt_failure_rolls_over (prim : Primitives) (suite : SrtpSuite) (key : List UInt8)
    (flags : Nat) (s0 : Srtp) (alloc : srtpAlloc prim suite key flags = .ok s0)
    (before after : List Stream) (strm : Stream) (mb : Mbuf) (hdr : RtpHeader)
    (decoded : (rtpHdrDecode mb).1 = .ok hdr) (same : strm.ssrc = hdr.ssrc)
    (others : ∀ s ∈ before, s.ssrc ≠ hdr.ssrc) (set : strm.s_l_set = true)
    (wraps : seqDiff strm.s_l hdr.seq ≤ -32768) (e : Errno)
    (failed : (srtpDecrypt prim { s0 with streaml := before ++ strm :: after } mb).err = some e) :
    (srtpDecrypt prim { s0 with streaml := before ++ strm :: after } mb).srtp.streaml =
      before ++ { strm with roc := strm.roc + 1, s_l := 0 } :: after := by
  obtain ⟨rtp, -, -⟩ := srtpAlloc_ok alloc
  obtain ⟨mb1, hd⟩ : ∃ mb1, rtpHdrDecode mb = (.ok hdr, mb1) := ⟨_, Prod.ext decoded rfl⟩
  have found : streamGetSeq (before ++ strm :: after) hdr.ssrc hdr.seq = .ok ⟨before, strm, after⟩ := by
    simp [streamGetSeq, streamGet, streamFind_first before after strm hdr.ssrc same others, set]
  have rolled : rocUpdate strm hdr.seq = { strm with roc := strm.roc + 1, s_l := 0 } := if_pos wraps
  revert failed
  simp only [srtpDecrypt, hd, found]
  rcases hu : srtpUnprotect prim s0.rtp strm hdr.seq mb.pos mb1 with ⟨strm', mb2, err⟩
  intro failed
  have body := srtpUnprotect_rolled prim s0.rtp rtp.mode_of_hmac strm hdr.seq mb.pos mb1 (by omega)
  rw [hu] at body
  rcases body with moved | ok
  · dsimp only at moved
    rw [moved, rolled]
    rfl
  · simp_all

/-- A stream of SSRC 1 that has seen sequence number 40000 and no wrap. -/
def lateStream : Stream := { streamInit 1 with s_l := 40000, s_l_set := true }

/-- The header `rtpHeaderOnly` decodes to. -/
def headerOnlyHdr : RtpHeader := ⟨2, false, false, 0, false, 0, 1, 0, 1, [], 0, 0⟩

theorem srtpDecrypt_failure_rolls_over_truncated :
    (srtpDecrypt zeroPrimitives { cmSession with streaml := [lateStream] } rtpHeaderOnly).err =
        some .EBADMSG ∧
      (srtpDecrypt zeroPrimitives { cmSession with streaml := [lateStream] } rtpHeaderOnly).srtp.streaml =
        [] ++ { lateStream with roc := lateStream.roc + 1, s_l := 0 } :: [] :=
  ⟨by decide, srtpDecrypt_failure_rolls_over zeroPrimitives .AES_CM_128_HMAC_SHA1_80 (List.replicate 30 0) 0
    cmSession (by decide) [] [] lateStream rtpHeaderOnly headerOnlyHdr (by decide) rfl (by simp) rfl
    (by decide) .EBADMSG (by decide)⟩

end Libre.Srtp
