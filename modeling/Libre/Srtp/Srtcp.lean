import Libre.Srtp.Protect

set_option autoImplicit false

/-!
# SRTCP packet protection

`srtcp_encrypt` and `srtcp_decrypt` of `srtp/srtcp.c`. Behind the RTCP packet comes a word with
the E-bit and the 31-bit SRTCP index, then the HMAC tag for the CM suites; the GCM suites carry
their own tag at the end of the encrypted part instead.
-/

namespace Libre.Srtp

open BigEndian

/-- `get_rtcp_ssrc`: the SSRC in the second word of the RTCP header. -/
def getRtcpSsrc (mb : Mbuf) : Except Errno (UInt32 × Mbuf) :=
  if mb.getLeft < 8 then .error .EBADMSG else .ok (mb.advance 4).readU32

section Calls

variable (prim : Primitives)

/-- The `if (rtcp->hmac)` block of `srtcp_decrypt`, entered with the position just past the
E-bit and index word. -/
def srtcpCheckHmac (key : List UInt8) (tag_len : Nat) (strm : Stream) (ix : UInt32)
    (start : Nat) (mb : Mbuf) : Step :=
  let tag_start := mb.pos
  if tag_len > 20 then (strm, mb, some .ERANGE) else
  match mb.readMem tag_len with
  | .error e => (strm, mb, some e)
  | .ok (tag_pkt, mb) =>
  let mb := (mb.setPos start).setEnd tag_start
  match hmacDigest prim key mb.left with
  | .error e => (strm, mb, some e)
  | .ok tag =>
  if tag.take tag_len ≠ tag_pkt then (strm, mb, some .EAUTH) else
  match srtpReplayCheck strm.replay_rtcp ix.toUInt64 with
  | (false, _) => (strm, mb, some .EALREADY)
  | (true, replay) => ({ strm with replay_rtcp := replay }, mb, none)

/-- The cipher blocks of `srtcp_decrypt`; both run only when the E-bit is set. -/
def srtcpOpen (comp : Comp) (ep : Bool) (ssrc ix : UInt32) (start pld_start eix_start : Nat)
    (mb : Mbuf) : Mbuf × Option Errno :=
  match comp.aes, ep, comp.mode with
  | some aes, true, .CTR =>
    let mb := mb.setPos pld_start
    let ctx := aesSetIv aes (srtpIvCalc comp.k_s ssrc ix.toUInt64)
    (mb.overwrite mb.pos (aesDecr prim ctx mb.left).1, none)
  | some aes, true, .GCM =>
    -- the RTCP header and the E-bit and index word are additional data
    let ctx := ((aesSetIv aes (srtpIvCalcGcm comp.k_s ssrc ix.toUInt64)).addAad
      (mb.buf.extract start pld_start)).addAad (mb.buf.extract eix_start (eix_start + 4))
    let mb := mb.setPos pld_start
    if mb.getLeft < GCM_TAGLEN then (mb, some .EBADMSG) else
    let tag_start := mb.end_ - GCM_TAGLEN
    let (out, ctx) := aesDecr prim ctx (mb.buf.extract pld_start tag_start)
    let mb := mb.overwrite pld_start out
    match aesAuthenticate prim ctx (mb.buf.extract tag_start (tag_start + GCM_TAGLEN)) with
    | .error e => (mb, some e)
    | .ok () => (mb.setEnd tag_start, none)
  | _, _, _ => (mb, none)

/-- `srtcp_decrypt` from the stream lookup on, entered just past the SSRC. -/
def srtcpUnprotect (rtcp : Comp) (strm : Stream) (ssrc : UInt32) (start : Nat) (mb : Mbuf) :
    Step :=
  let pld_start := mb.pos
  if mb.getLeft < 4 + rtcp.tag_len then (strm, mb, some .EBADMSG) else
  let eix_start := mb.end_ - (4 + rtcp.tag_len)
  let (v, mb) := (mb.setPos eix_start).readU32
  let ep := (v >>> 31) &&& 1 = 1
  let ix := v &&& 0x7fffffff
  let checked : Step := match rtcp.hmac with
    | some key => srtcpCheckHmac prim key rtcp.tag_len strm ix start mb
    | none => (strm, mb, none)
  match checked with
  | (strm, mb, none) =>
    match srtcpOpen prim rtcp ep ssrc ix start pld_start eix_start (mb.setEnd eix_start) with
    | (mb, some e) => (strm, mb, some e)
    | (mb, none) => (strm, mb.setPos start, none)
  | failed => failed

def srtcpDecrypt (srtp : Srtp) (mb : Mbuf) : Outcome :=
  let start := mb.pos
  match getRtcpSsrc mb with
  | .error e => ⟨srtp, mb, some e⟩
  | .ok (ssrc, mb) =>
  match streamGet srtp.streaml ssrc with
  | .error e => ⟨srtp, mb, some e⟩
  | .ok slot =>
  let (strm, mb, err) := srtcpUnprotect prim srtp.rtcp slot.strm ssrc start mb
  ⟨{ srtp with streaml := (slot.set strm).streams }, mb, err⟩

/-- The cipher blocks of `srtcp_encrypt`, with the E-bit they set. -/
def srtcpSeal (comp : Comp) (ssrc : UInt32) (strm : Stream) (start : Nat) (mb : Mbuf) :
    Mbuf × UInt32 × Option Errno :=
  match comp.aes, comp.mode with
  | some aes, .CTR =>
    let ctx := aesSetIv aes (srtpIvCalc comp.k_s ssrc strm.rtcp_index.toUInt64)
    (mb.overwrite mb.pos (aesEncr prim ctx mb.left).1, 1, none)
  | some aes, .GCM =>
    let ix_be := netBytes 4 (((1 : UInt32) <<< 31 ||| strm.rtcp_index).toNat)
    let ctx := ((aesSetIv aes (srtpIvCalcGcm comp.k_s ssrc strm.rtcp_index.toUInt64)).addAad
      (mb.buf.extract start mb.pos)).addAad ix_be
    let (out, ctx) := aesEncr prim ctx mb.left
    let mb := mb.overwrite mb.pos out
    match aesGetAuthtag prim ctx with
    | .error e => (mb, 0, some e)
    | .ok tag => ((mb.setPos mb.end_).writeMem tag, 1, none)
  | none, _ => (mb, 0, none)

/-- `srtcp_encrypt` from the stream lookup on. -/
def srtcpProtect (rtcp : Comp) (strm : Stream) (ssrc : UInt32) (start : Nat) (mb : Mbuf) : Step :=
  let strm := { strm with rtcp_index := (strm.rtcp_index + 1) &&& 0x7fffffff }
  match srtcpSeal prim rtcp ssrc strm start mb with
  | (mb, _, some e) => (strm, mb, some e)
  | (mb, ep, none) =>
  -- the E-bit and SRTCP index word
  let mb := (mb.setPos mb.end_).writeU32 (ep <<< 31 ||| strm.rtcp_index)
  match rtcp.hmac with
  | none => (strm, mb.setPos start, none)
  | some key =>
    match hmacDigest prim key (mb.setPos start).left with
    | .error e => (strm, mb.setPos start, some e)
    | .ok tag => (strm, ((mb.setPos mb.end_).writeMem (tag.take rtcp.tag_len)).setPos start, none)

def srtcpEncrypt (srtp : Srtp) (mb : Mbuf) : Outcome :=
  let start := mb.pos
  match getRtcpSsrc mb with
  | .error e => ⟨srtp, mb, some e⟩
  | .ok (ssrc, mb) =>
  match streamGet srtp.streaml ssrc with
  | .error e => ⟨srtp, mb, some e⟩
  | .ok slot =>
  let (strm, mb, err) := srtcpProtect prim srtp.rtcp slot.strm ssrc start mb
  ⟨{ srtp with streaml := (slot.set strm).streams }, mb, err⟩

end Calls

theorem srtcpOpen_of_not_ep (prim : Primitives) (comp : Comp) (ssrc ix : UInt32)
    (start pld_start eix_start : Nat) (mb : Mbuf) :
    srtcpOpen prim comp false ssrc ix start pld_start eix_start mb = (mb, none) := by
  unfold srtcpOpen
  split <;> simp_all

theorem srtcpUnprotect_strm_of_noHmac (prim : Primitives) (rtcp : Comp) (strm : Stream)
    (ssrc : UInt32) (start : Nat) (mb : Mbuf) (noHmac : rtcp.hmac = none) :
    (srtcpUnprotect prim rtcp strm ssrc start mb).1 = strm := by
  unfold srtcpUnprotect
  simp only [noHmac]
  split
  · rfl
  · split <;> rfl

end Libre.Srtp
