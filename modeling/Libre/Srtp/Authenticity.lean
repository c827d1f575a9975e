import Libre.Srtp.Srtcp

set_option autoImplicit false

/-!
# What `srtcp_decrypt` checks under the GCM suites

For the GCM suites the RTCP component has no HMAC, so the HMAC block of `srtcp_decrypt`, with its
replay check, never runs, and the GCM tag is checked only when the packet's E-bit is set: a packet
with the E-bit clear is accepted with no tag, and an accepted packet is accepted again.
-/

namespace Libre.Srtp

open Mbuf

theorem srtpAlloc_gcm_rtcp {prim : Primitives} {suite : SrtpSuite} {key : List UInt8}
    {flags : Nat} {srtp : Srtp} (gcm : suite = .AES_128_GCM ∨ suite = .AES_256_GCM)
    (h : srtpAlloc prim suite key flags = .ok srtp) :
    srtp.rtcp.hmac = none ∧ srtp.rtcp.tag_len = 0 := by
  obtain ⟨-, rtcp, -⟩ := srtpAlloc_ok h
  have hmac := rtcp.hmac
  have tag := rtcp.tag_len
  rcases gcm with rfl | rfl <;>
    simpa [suiteParams, Option.isSome_iff_ne_none] using And.intro hmac tag

/-- With the E-bit clear and no tag, an SRTCP packet of twelve bytes or more goes through. -/
theorem srtcpDecrypt_of_noHmac_clear (prim : Primitives) (srtp : Srtp) (mb : Mbuf)
    (noHmac : srtp.rtcp.hmac = none) (tagless : srtp.rtcp.tag_len = 0)
    (long : 12 ≤ mb.getLeft) (room : srtp.streaml.length < SRTP_MAX_STREAMS)
    (clear : ((mb.setPos (mb.end_ - 4)).readU32.1 >>> 31) &&& 1 ≠ 1) :
    (srtcpDecrypt prim srtp mb).err = none := by
  obtain ⟨slot, hslot⟩ := streamGet_of_room srtp.streaml ((mb.advance 4).readU32.1) room
  have header : ¬ mb.getLeft < 8 := by simp only [getLeft] at long ⊢; omega
  have word : ¬ ((mb.advance 4).readNet 4).2.getLeft < 4 := by
    simp only [getLeft] at long ⊢
    rw [readNet_end, readNet_pos _ _ (by simp only [getLeft, advance_end, advance_pos]; omega)]
    simp only [advance_end, advance_pos]
    omega
  have ep : decide (((mb.setPos (mb.end_ - 4)).readU32.1 >>> 31) &&& 1 = 1) = false :=
    decide_eq_false clear
  simp only [srtcpDecrypt, getRtcpSsrc, header, if_false, srtcpUnprotect, hslot, noHmac, tagless,
    readU32_snd, readNet_setPos, readNet_end, advance_setPos, advance_end, Nat.add_zero, word, ep,
    srtcpOpen_of_not_ep]

/-- Without an HMAC, decrypting the same bytes again from the state a call leaves gives the
same outcome: no window or counter records what was accepted. -/
theorem srtcpDecrypt_again_of_noHmac (prim : Primitives) (srtp : Srtp) (mb : Mbuf)
    (noHmac : srtp.rtcp.hmac = none) :
    srtcpDecrypt prim (srtcpDecrypt prim srtp mb).srtp mb = srtcpDecrypt prim srtp mb := by
  unfold srtcpDecrypt
  rcases hssrc : getRtcpSsrc mb with e | ⟨ssrc, mb1⟩
  · rfl
  · dsimp only
    rcases hget : streamGet srtp.streaml ssrc with e | slot
    · dsimp only
      rw [hget]
    · -- the stream comes back untouched, and the second lookup finds it where it was
      rcases hun : srtcpUnprotect prim srtp.rtcp slot.strm ssrc mb.pos mb1 with ⟨strm, mb2, err⟩
      have same : strm = slot.strm := by
        simpa [hun] using srtcpUnprotect_strm_of_noHmac prim srtp.rtcp slot.strm ssrc mb.pos mb1
          noHmac
      subst same
      have found : streamGet slot.streams ssrc = .ok slot := by
        rw [streamGet, streamGet_found_again hget]
      dsimp only
      simp only [Slot.set_self, found, hun]

theorem srtcpDecrypt_gcm_unauthenticated (prim : Primitives) (suite : SrtpSuite)
    (key : List UInt8) (flags : Nat) (s0 : Srtp)
    (gcm : suite = .AES_128_GCM ∨ suite = .AES_256_GCM)
    (alloc : srtpAlloc prim suite key flags = .ok s0) (streaml : List Stream) (mb : Mbuf) :
    (12 ≤ mb.getLeft → streaml.length < SRTP_MAX_STREAMS →
      ((mb.setPos (mb.end_ - 4)).readU32.1 >>> 31) &&& 1 ≠ 1 →
        (srtcpDecrypt prim { s0 with streaml := streaml } mb).err = none) ∧
    srtcpDecrypt prim (srtcpDecrypt prim { s0 with streaml := streaml } mb).srtp mb =
      srtcpDecrypt prim { s0 with streaml := streaml } mb := by
  obtain ⟨noHmac, tagless⟩ := srtpAlloc_gcm_rtcp gcm alloc
  refine ⟨fun long room clear => ?_, ?_⟩
  · exact srtcpDecrypt_of_noHmac_clear prim _ mb noHmac tagless long room clear
  · exact srtcpDecrypt_again_of_noHmac prim _ mb noHmac

/-- The session `srtp_alloc` gives for `SRTP_AES_128_GCM` under `zeroPrimitives`. -/
def gcmSession : Srtp :=
  ⟨⟨some ⟨.GCM, List.replicate 16 0⟩, .GCM, none, List.replicate 16 0, 0⟩,
    ⟨some ⟨.GCM, List.replicate 16 0⟩, .GCM, none, List.replicate 16 0, 0⟩, []⟩

/-- An RTCP header with SSRC 1 followed by a clear E-bit and index 0, and no tag. -/
def unauthenticatedSrtcp : Mbuf :=
  ⟨[0x80, 0xc8, 0x00, 0x01, 0x00, 0x00, 0x00, 0x01, 0x00, 0x00, 0x00, 0x00], 0, 12⟩

theorem srtcpDecrypt_gcm_unauthenticated_witness :
    srtpAlloc zeroPrimitives .AES_128_GCM (List.replicate 28 0) 0 = .ok gcmSession ∧
      (srtcpDecrypt zeroPrimitives gcmSession unauthenticatedSrtcp).err = none ∧
      srtcpDecrypt zeroPrimitives
          (srtcpDecrypt zeroPrimitives gcmSession unauthenticatedSrtcp).srtp unauthenticatedSrtcp =
        srtcpDecrypt zeroPrimitives gcmSession unauthenticatedSrtcp := by
  have alloc : srtpAlloc zeroPrimitives .AES_128_GCM (List.replicate 28 0) 0 = .ok gcmSession := by
    decide
  have h := srtcpDecrypt_gcm_unauthenticated zeroPrimitives .AES_128_GCM (List.replicate 28 0) 0
    gcmSession (.inl rfl) alloc [] unauthenticatedSrtcp
  exact ⟨alloc, h.1 (by decide) (by decide) (by decide), h.2⟩

end Libre.Srtp
