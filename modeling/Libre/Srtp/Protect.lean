import Libre.Srtp.Session
import Libre.Rtp.Header

set_option autoImplicit false

/-!
# SRTP packet protection

`srtp_encrypt` and `srtp_decrypt` of `srtp/srtp.c`. The C functions write through the stream
pointer and into the buffer as they go and return an error code at any point, so every call
here returns the session and the buffer as it leaves them together with the code. Each block
of the C body (index estimate, HMAC check, cipher) is its own function.
-/

namespace Libre.Srtp

open BigEndian Rtp

def GCM_TAGLEN : Nat := 16

structure Outcome where
  srtp : Srtp
  mb : Mbuf
  err : Option Errno

/-- A stream block's result: the stream and buffer as written, and the error if any. -/
abbrev Step := Stream × Mbuf × Option Errno

section Calls

variable (prim : Primitives)

/-! ## Receiving -/

/-- The `if (comp->hmac)` block of `srtp_decrypt`: the tag over header, payload and ROC, and
the replay check. -/
def srtpCheckHmac (key : List UInt8) (tag_len : Nat) (strm : Stream) (ix : UInt64) (start : Nat)
    (mb : Mbuf) : Step :=
  if mb.getLeft < tag_len then (strm, mb, some .EBADMSG) else
  let pld_start := mb.pos
  let tag_start := mb.end_ - tag_len
  match (mb.setPos tag_start).readMem tag_len with
  | .error e => (strm, mb.setPos tag_start, some e)
  | .ok (tag_pkt, mb) =>
  let mb := (((mb.setPos tag_start).setEnd tag_start).writeU32 strm.roc).setPos start
  match hmacDigest prim key mb.left with
  | .error e => (strm, mb, some e)
  | .ok tag_calc =>
  let mb := (mb.setPos pld_start).setEnd tag_start
  if tag_calc.take tag_len ≠ tag_pkt then (strm, mb, some .EAUTH) else
  -- replay protection is only possible when integrity protection is present
  match srtpReplayCheck strm.replay_rtp ix with
  | (false, _) => (strm, mb, some .EALREADY)
  | (true, replay) => ({ strm with replay_rtp := replay }, mb, none)

/-- The GCM branch of `srtp_decrypt`: the header is additional data, the tag trails. -/
def srtpOpenGcm (aes : Aes) (k_s : List UInt8) (strm : Stream) (ix : UInt64) (start : Nat)
    (mb : Mbuf) : Step :=
  let ctx := (aesSetIv aes (srtpIvCalcGcm k_s strm.ssrc ix)).addAad (mb.buf.extract start mb.pos)
  if mb.getLeft < GCM_TAGLEN then (strm, mb, some .EBADMSG) else
  let tag_start := mb.end_ - GCM_TAGLEN
  let (out, ctx) := aesDecr prim ctx (mb.buf.extract mb.pos tag_start)
  let mb := mb.overwrite mb.pos out
  match aesAuthenticate prim ctx (mb.buf.extract tag_start (tag_start + GCM_TAGLEN)) with
  | .error e => (strm, mb, some e)
  | .ok () =>
  let mb := mb.setEnd tag_start
  match srtpReplayCheck strm.replay_rtp ix with
  | (false, _) => (strm, mb, some .EALREADY)
  | (true, replay) => ({ strm with replay_rtp := replay }, mb, none)

/-- The cipher blocks of `srtp_decrypt`, chosen by `comp->aes` and `comp->mode`. -/
def srtpOpen (comp : Comp) (strm : Stream) (ix : UInt64) (start : Nat) (mb : Mbuf) : Step :=
  match comp.aes, comp.mode with
  | some aes, .CTR =>
    let ctx := aesSetIv aes (srtpIvCalc comp.k_s strm.ssrc ix)
    (strm, mb.overwrite mb.pos (aesDecr prim ctx mb.left).1, none)
  | some aes, .GCM => srtpOpenGcm prim aes comp.k_s strm ix start mb
  | none, _ => (strm, mb, none)

/-- The roll-over update both directions make before the index is formed. -/
def rocUpdate (strm : Stream) (seq : UInt16) : Stream :=
  if seqDiff strm.s_l seq ≤ -32768 then { strm with roc := strm.roc + 1, s_l := 0 } else strm

def slUpdate (strm : Stream) (seq : UInt16) : Stream :=
  if seq > strm.s_l then { strm with s_l := seq } else strm

/-- `srtp_decrypt` from the stream lookup on: the stream as written, the buffer, the error. -/
def srtpUnprotect (comp : Comp) (strm : Stream) (seq : UInt16) (start : Nat) (mb : Mbuf) : Step :=
  if seqDiff strm.s_l seq > 32768 then (strm, mb, some .ETIMEDOUT) else
  let strm := rocUpdate strm seq
  let ix := srtpGetIndex strm.roc strm.s_l seq
  let checked : Step := match comp.hmac with
    | some key => srtpCheckHmac prim key comp.tag_len strm ix start mb
    | none => (strm, mb, none)
  match checked with
  | (strm, mb, none) =>
    match srtpOpen prim comp strm ix start mb with
    | (strm, mb, none) => (slUpdate strm seq, mb.setPos start, none)
    | failed => failed
  | failed => failed

def srtpDecrypt (srtp : Srtp) (mb : Mbuf) : Outcome :=
  let start := mb.pos
  match rtpHdrDecode mb with
  | (.error e, mb) => ⟨srtp, mb, some e⟩
  | (.ok hdr, mb) =>
  match streamGetSeq srtp.streaml hdr.ssrc hdr.seq with
  | .error e => ⟨srtp, mb, some e⟩
  | .ok slot =>
  let (strm, mb, err) := srtpUnprotect prim srtp.rtp slot.strm hdr.seq start mb
  ⟨{ srtp with streaml := (slot.set strm).streams }, mb, err⟩

/-! ## Sending -/

/-- The cipher blocks of `srtp_encrypt`; GCM appends its tag after the ciphertext. -/
def srtpSeal (comp : Comp) (strm : Stream) (ix : UInt64) (start : Nat) (mb : Mbuf) :
    Mbuf × Option Errno :=
  match comp.aes, comp.mode with
  | some aes, .CTR =>
    let ctx := aesSetIv aes (srtpIvCalc comp.k_s strm.ssrc ix)
    (mb.overwrite mb.pos (aesEncr prim ctx mb.left).1, none)
  | some aes, .GCM =>
    let ctx := (aesSetIv aes (srtpIvCalcGcm comp.k_s strm.ssrc ix)).addAad
      (mb.buf.extract start mb.pos)
    let (out, ctx) := aesEncr prim ctx mb.left
    let mb := mb.overwrite mb.pos out
    match aesGetAuthtag prim ctx with
    | .error e => (mb, some e)
    | .ok tag => ((mb.setPos mb.end_).writeMem tag, none)
  | none, _ => (mb, none)

/-- The `if (comp->hmac)` block of `srtp_encrypt`: the tag over header, payload and ROC
replaces the ROC it was computed over. -/
def srtpAppendHmac (key : List UInt8) (tag_len : Nat) (strm : Stream) (start : Nat) (mb : Mbuf) :
    Mbuf × Option Errno :=
  let tag_start := mb.end_
  let mb := ((mb.setPos tag_start).writeU32 strm.roc).setPos start
  match hmacDigest prim key mb.left with
  | .error e => (mb, some e)
  | .ok tag => ((((mb.setPos tag_start).setEnd tag_start).writeMem (tag.take tag_len)), none)

/-- `srtp_encrypt` from the stream lookup on. -/
def srtpProtect (comp : Comp) (strm : Stream) (seq : UInt16) (start : Nat) (mb : Mbuf) : Step :=
  let strm := rocUpdate strm seq
  let ix : UInt64 := 65536 * strm.roc.toUInt64 + seq.toUInt64
  match srtpSeal prim comp strm ix start mb with
  | (mb, some e) => (strm, mb, some e)
  | (mb, none) =>
  let tagged := match comp.hmac with
    | some key => srtpAppendHmac prim key comp.tag_len strm start mb
    | none => (mb, none)
  match tagged with
  | (mb, some e) => (strm, mb, some e)
  | (mb, none) => (slUpdate strm seq, mb.setPos start, none)

def srtpEncrypt (srtp : Srtp) (mb : Mbuf) : Outcome :=
  let start := mb.pos
  match rtpHdrDecode mb with
  | (.error e, mb) => ⟨srtp, mb, some e⟩
  | (.ok hdr, mb) =>
  match streamGetSeq srtp.streaml hdr.ssrc hdr.seq with
  | .error e => ⟨srtp, mb, some e⟩
  | .ok slot =>
  let (strm, mb, err) := srtpProtect prim srtp.rtp slot.strm hdr.seq start mb
  ⟨{ srtp with streaml := (slot.set strm).streams }, mb, err⟩

end Calls

end Libre.Srtp
