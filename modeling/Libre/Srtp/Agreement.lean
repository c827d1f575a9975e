import Libre.Srtp.Transform

set_option autoImplicit false

/-!
# Sender and receiver agree on every packet

One context protects a stream's packets; a second from the same suite and key gets some of them in
order. While the first comes before the first wrap and fewer than 32768 in a row go missing, the
receiver forms the sender's index for every packet, accepts it and restores it.
-/

namespace Libre.Srtp

open BigEndian Mbuf Rtp

section Link

variable (prim : Primitives)

/-- The index `srtp_encrypt` forms for the packet in `mb`, if it gets that far. -/
def srtpEncryptIndex (srtp : Srtp) (mb : Mbuf) : Option UInt64 :=
  match rtpHdrDecode mb with
  | (.error _, _) => none
  | (.ok hdr, _) =>
    match streamGetSeq srtp.streaml hdr.ssrc hdr.seq with
    | .error _ => none
    | .ok slot => some (sendIndex slot.strm hdr.seq)

/-- The index `srtp_decrypt` forms for the packet in `mb`, if it gets that far. -/
def srtpDecryptIndex (srtp : Srtp) (mb : Mbuf) : Option UInt64 :=
  match rtpHdrDecode mb with
  | (.error _, _) => none
  | (.ok hdr, _) =>
    match streamGetSeq srtp.streaml hdr.ssrc hdr.seq with
    | .error _ => none
    | .ok slot => if seqDiff slot.strm.s_l hdr.seq > 32768 then none
      else some (recvIndex slot.strm hdr.seq)

/-- Packets handed to `srtp_encrypt` one after the other on one context, each in a buffer that
holds just the packet: for every call, the index it forms and its outcome. -/
def srtpEncryptAll (srtp : Srtp) : List (List UInt8) → List (Option UInt64 × Outcome)
  | [] => []
  | p :: ps =>
    let out := srtpEncrypt prim srtp ⟨p, 0, p.length⟩
    (srtpEncryptIndex srtp ⟨p, 0, p.length⟩, out) :: srtpEncryptAll out.srtp ps

/-- The same for `srtp_decrypt`. -/
def srtpDecryptAll (srtp : Srtp) : List (List UInt8) → List (Option UInt64 × Outcome)
  | [] => []
  | p :: ps =>
    let out := srtpDecrypt prim srtp ⟨p, 0, p.length⟩
    (srtpDecryptIndex srtp ⟨p, 0, p.length⟩, out) :: srtpDecryptAll out.srtp ps

/-- The packet `p` as it goes on the wire at index `ix`: the header, as far as `rtp_hdr_decode`
reads it, and the payload after it, through the transform. -/
def rtpWire (comp : Comp) (ssrc : UInt32) (ix : UInt64) (p : List UInt8) : List UInt8 :=
  let hdrLen := (rtpHdrDecode ⟨p, 0, p.length⟩).2.pos
  srtpWire prim comp ssrc ix (p.take hdrLen) (p.drop hdrLen)

end Link

/-- The SSRC and the sequence number of an RTP packet, when its header decodes. -/
def rtpSsrcSeq (p : List UInt8) : Option (UInt32 × UInt16) :=
  match rtpHdrDecode ⟨p, 0, p.length⟩ with
  | (.ok hdr, _) => some (hdr.ssrc, hdr.seq)
  | (.error _, _) => none

theorem rtpSsrcSeq_some {p : List UInt8} {ssrc : UInt32} {seq : UInt16}
    (h : rtpSsrcSeq p = some (ssrc, seq)) :
    ∃ hdr mb, rtpHdrDecode ⟨p, 0, p.length⟩ = (.ok hdr, mb) ∧ hdr.ssrc = ssrc ∧ hdr.seq = seq := by
  unfold rtpSsrcSeq at h
  split at h
  · rename_i hdr mb decode
    simp only [Option.some.injEq, Prod.mk.injEq] at h
    exact ⟨hdr, mb, decode, h.1, h.2⟩
  · cases h

/-- After the packet of index `I`, a context holds the one stream `ssrc`, in step with `I`. -/
structure Carries (srtp : Srtp) (ssrc : UInt32) (I : Nat) (strm : Stream) : Prop where
  streams : srtp.streaml = [strm]
  ssrc : strm.ssrc = ssrc
  synced : Synced I strm

/-- A sending context ready for the packet of index `J`: fresh, with `J` before the first wrap,
or carrying the stream in step with an index at most half a block behind. -/
def SendReady (tx : Srtp) (ssrc : UInt32) (J : Nat) : Prop :=
  tx.streaml = [] ∧ J < 65536 ∨ ∃ I strm, Carries tx ssrc I strm ∧ I ≤ J ∧ J ≤ I + 32768

/-- A receiving context ready for the packet of index `J`: fresh, with `J` before the first wrap,
or carrying the stream in step with an earlier index at most half a block behind, which is the
last its replay window has let through. -/
def RecvReady (rx : Srtp) (ssrc : UInt32) (J : Nat) : Prop :=
  rx.streaml = [] ∧ J < 65536 ∨
    ∃ I strm, Carries rx ssrc I strm ∧ strm.replay_rtp.lix = UInt64.ofNat I ∧ I < J ∧
      J ≤ I + 32768

/-! ## What the packet of index `J` finds -/

theorem streamGetSeq_ssrc {streaml : List Stream} {ssrc : UInt32} {seq : UInt16} {slot : Slot}
    (h : streamGetSeq streaml ssrc seq = .ok slot) : slot.strm.ssrc = ssrc := by
  obtain ⟨slot0, hget, rfl⟩ := streamGetSeq_ok h
  have same := (streamGet_ok hget).1
  split <;> simpa using same

/-- The stream a ready context hands the packet, and the facts the one-packet lemmas need. -/
structure Lookup (streaml : List Stream) (ssrc : UInt32) (I J : Nat) (strm : Stream) : Prop where
  found : streamGetSeq streaml ssrc (UInt16.ofNat J) = .ok ⟨[], strm, []⟩
  synced : Synced I strm
  le : I ≤ J
  near : J ≤ I + 32768

theorem SendReady.lookup {tx : Srtp} {ssrc : UInt32} {J : Nat} (ready : SendReady tx ssrc J) :
    ∃ I strm, Lookup tx.streaml ssrc I J strm := by
  rcases ready with ⟨fresh, first⟩ | ⟨I, strm, carries, le, near⟩
  · -- the first packet creates the stream at its own index
    refine ⟨J, _, ⟨?_, synced_first ssrc first, le_refl J, by omega⟩⟩
    rw [fresh, streamGetSeq_nil]
  · exact ⟨I, strm, ⟨by rw [carries.streams, streamGetSeq_single _ carries.ssrc
      carries.synced.s_l_set], carries.synced, le, near⟩⟩

theorem RecvReady.lookup {rx : Srtp} {ssrc : UInt32} {J : Nat} (ready : RecvReady rx ssrc J)
    (small : J < 2 ^ 47) :
    ∃ I strm, Lookup rx.streaml ssrc I J strm ∧
      (srtpReplayCheck strm.replay_rtp (UInt64.ofNat J)).1 = true ∧
      (srtpReplayCheck strm.replay_rtp (UInt64.ofNat J)).2.lix = UInt64.ofNat J := by
  rcases ready with ⟨fresh, first⟩ | ⟨I, strm, carries, lix, lt, near⟩
  · -- a fresh window lets the first index through
    refine ⟨J, _, ⟨?_, synced_first ssrc first, le_refl J, by omega⟩, ?_⟩
    · rw [fresh, streamGetSeq_nil]
    · simp [streamInit, srtpReplayCheck_init]
  · -- later indices are past the last one the window let through
    have newer : UInt64.ofNat J > strm.replay_rtp.lix := by
      rw [lix, gt_iff_lt, UInt64.lt_iff_toNat_lt, UInt64.toNat_ofNat_of_lt' (show I < 2 ^ 64 by omega),
        UInt64.toNat_ofNat_of_lt' (show J < 2 ^ 64 by omega)]
      exact lt
    exact ⟨I, strm, ⟨by rw [carries.streams, streamGetSeq_single _ carries.ssrc
      carries.synced.s_l_set], carries.synced, le_of_lt lt, near⟩,
      srtpReplayCheck_of_gt _ _ newer⟩

/-! ## One packet -/

section Packet

variable (prim : Primitives)

theorem srtpEncrypt_packet {tx : Srtp} (shape : tx.rtp.Shape) {ssrc : UInt32} {I J : Nat}
    {strm : Stream} (lookup : Lookup tx.streaml ssrc I J strm) (small : J < 2 ^ 47)
    {p : List UInt8} (rtp : rtpSsrcSeq p = some (ssrc, UInt16.ofNat J)) :
    srtpEncryptIndex tx ⟨p, 0, p.length⟩ = some (UInt64.ofNat J) ∧
      (srtpEncrypt prim tx ⟨p, 0, p.length⟩).err = none ∧
      (srtpEncrypt prim tx ⟨p, 0, p.length⟩).mb.left =
        rtpWire prim tx.rtp ssrc (UInt64.ofNat J) p ∧
      (srtpEncrypt prim tx ⟨p, 0, p.length⟩).srtp.rtp = tx.rtp ∧
      Carries (srtpEncrypt prim tx ⟨p, 0, p.length⟩).srtp ssrc J
        (slUpdate (rocUpdate strm (UInt16.ofNat J)) (UInt16.ofNat J)) := by
  obtain ⟨hdr, mb1, decode, hssrc, hseq⟩ := rtpSsrcSeq_some rtp
  obtain ⟨found, synced, le, near⟩ := lookup
  have sameSsrc : strm.ssrc = ssrc := by simpa using streamGetSeq_ssrc found
  obtain ⟨after, fits⟩ := rtpHdrDecode_ok decode
  subst after
  have frame : Frame ((⟨p, 0, p.length⟩ : Mbuf).advance hdr.length) 0
      (p.take hdr.length ++ p.drop hdr.length) := by
    rw [List.take_append_drop]
    exact (frame_advance _).mpr (frame_self p)
  have pos : ((⟨p, 0, p.length⟩ : Mbuf).advance hdr.length).pos =
      0 + (p.take hdr.length).length := by
    simp only [advance_pos, Nat.zero_add, List.length_take]
    simp only [getLeft, Nat.sub_zero] at fits
    omega
  obtain ⟨out, prot, outPos, outFrame⟩ := srtpProtect_frame prim shape strm (UInt16.ofNat J)
    frame pos
  have ix := sendIndex_synced synced le near small
  rw [ix, sameSsrc] at outFrame
  refine ⟨?_, ?_, ?_, ?_, ?_⟩
  · simp only [srtpEncryptIndex, decode, hssrc, hseq, found, ix]
  · simp only [srtpEncrypt, decode, hssrc, hseq, found, prot]
  · simp only [srtpEncrypt, decode, hssrc, hseq, found, prot, rtpWire, advance_pos, Nat.zero_add]
    exact outFrame.left outPos
  · simp only [srtpEncrypt, decode, hssrc, hseq, found, prot]
  · simp only [srtpEncrypt, decode, hssrc, hseq, found, prot]
    exact ⟨by simp, by simp [sameSsrc], slUpdate_rocUpdate_synced synced le near small⟩

theorem srtpDecrypt_packet {rx : Srtp} (shape : rx.rtp.Shape) {ssrc : UInt32} {I J : Nat}
    {strm : Stream} (lookup : Lookup rx.streaml ssrc I J strm) (small : J < 2 ^ 47)
    (fresh : (srtpReplayCheck strm.replay_rtp (UInt64.ofNat J)).1 = true)
    {p : List UInt8} (rtp : rtpSsrcSeq p = some (ssrc, UInt16.ofNat J)) :
    let wire := rtpWire prim rx.rtp ssrc (UInt64.ofNat J) p
    srtpDecryptIndex rx ⟨wire, 0, wire.length⟩ = some (UInt64.ofNat J) ∧
      (srtpDecrypt prim rx ⟨wire, 0, wire.length⟩).err = none ∧
      (srtpDecrypt prim rx ⟨wire, 0, wire.length⟩).mb.left = p ∧
      (srtpDecrypt prim rx ⟨wire, 0, wire.length⟩).srtp.rtp = rx.rtp ∧
      Carries (srtpDecrypt prim rx ⟨wire, 0, wire.length⟩).srtp ssrc J
        (slUpdate { rocUpdate strm (UInt16.ofNat J) with
          replay_rtp := (srtpReplayCheck strm.replay_rtp (UInt64.ofNat J)).2 } (UInt16.ofNat J)) := by
  intro wire
  obtain ⟨hdr, mb1, decode, hssrc, hseq⟩ := rtpSsrcSeq_some rtp
  obtain ⟨found, synced, le, near⟩ := lookup
  have sameSsrc : strm.ssrc = ssrc := by simpa using streamGetSeq_ssrc found
  obtain ⟨after, fits⟩ := rtpHdrDecode_ok decode
  simp only [getLeft, Nat.sub_zero] at fits
  have hdrLen : (rtpHdrDecode ⟨p, 0, p.length⟩).2.pos = hdr.length := by
    rw [decode, after]
    simp
  have ix := recvIndex_synced synced le near small
  have wireEq : wire = srtpWire prim rx.rtp strm.ssrc (recvIndex strm (UInt16.ofNat J))
      (p.take hdr.length) (p.drop hdr.length) := by
    simp only [wire, rtpWire, hdrLen, ix, sameSsrc]
  have agree : Agree ⟨p, 0, p.length⟩ ⟨wire, 0, wire.length⟩ hdr.length := by
    have longer := length_srtpWire prim rx.rtp strm.ssrc (recvIndex strm (UInt16.ofNat J))
      (p.take hdr.length) (p.drop hdr.length)
    rw [← wireEq, List.length_take, List.length_drop, Nat.min_eq_left fits] at longer
    refine ⟨rfl, ?_, by simpa [getLeft] using fits, by simp [getLeft]; omega⟩
    rw [wireEq, srtpWire]
    simp only [List.extract_eq_take_drop, List.drop_zero, Nat.zero_add, Nat.sub_zero]
    split <;> simp [Nat.min_eq_left fits]
  have decode' := rtpHdrDecode_agree decode agree
  have frame : Frame ((⟨wire, 0, wire.length⟩ : Mbuf).advance hdr.length) 0
      (srtpWire prim rx.rtp strm.ssrc (recvIndex strm (UInt16.ofNat J)) (p.take hdr.length)
        (p.drop hdr.length)) := by
    rw [← wireEq]
    exact (frame_advance _).mpr (frame_self wire)
  have pos : ((⟨wire, 0, wire.length⟩ : Mbuf).advance hdr.length).pos =
      0 + (p.take hdr.length).length := by simp; omega
  have roc : (rocUpdate strm (UInt16.ofNat J)).roc.toNat =
      (recvIndex strm (UInt16.ofNat J)).toNat / 65536 := by
    rw [ix, (rocUpdate_synced synced le near small).1,
      UInt64.toNat_ofNat_of_lt' (show J < 2 ^ 64 by omega)]
  rw [← ix] at fresh
  obtain ⟨out, unprot, outPos, outFrame⟩ := srtpUnprotect_frame prim shape strm (UInt16.ofNat J)
    (seqDiff_not_late synced le near) roc fresh frame pos
  rw [List.take_append_drop] at outFrame
  refine ⟨?_, ?_, ?_, ?_, ?_⟩
  · simp only [srtpDecryptIndex, decode', hssrc, hseq, found, seqDiff_not_late synced le near,
      if_false, ix]
  · simp only [srtpDecrypt, decode', hssrc, hseq, found, unprot]
  · simp only [srtpDecrypt, decode', hssrc, hseq, found, unprot]
    exact outFrame.left outPos
  · simp only [srtpDecrypt, decode', hssrc, hseq, found, unprot]
  · simp only [srtpDecrypt, decode', hssrc, hseq, found, unprot, ix]
    refine ⟨by simp, by simp [sameSsrc], ?_⟩
    rw [slUpdate_with_replay]
    exact (slUpdate_rocUpdate_synced synced le near small).with_replay _

end Packet

/-! ## Whole runs -/

section Runs

variable (prim : Primitives)

/-- Consecutive packets from the index `J` on, from a ready context: every call forms the
packet's index, succeeds, and puts the packet's transform on the wire. -/
theorem srtpEncryptAll_run {comp : Comp} (shape : comp.Shape) (ssrc : UInt32)
    (packets : List (List UInt8)) (tx : Srtp) (J : Nat) (rtp : tx.rtp = comp)
    (ready : SendReady tx ssrc J)
    (seqs : ∀ i (h : i < packets.length),
      rtpSsrcSeq packets[i] = some (ssrc, UInt16.ofNat (J + i)))
    (small : J + packets.length ≤ 2 ^ 47) :
    (srtpEncryptAll prim tx packets).map (fun r => (r.1, r.2.err, r.2.mb.left)) =
      packets.mapIdx fun i p =>
        (some (UInt64.ofNat (J + i)), none, rtpWire prim comp ssrc (UInt64.ofNat (J + i)) p) := by
  induction packets generalizing tx J with
  | nil => rfl
  | cons p ps ih =>
    simp only [List.length_cons] at small seqs
    obtain ⟨I, strm, lookup⟩ := ready.lookup
    obtain ⟨ix, err, left, comps, carries⟩ := srtpEncrypt_packet prim (rtp ▸ shape) lookup
      (by omega) (by simpa using seqs 0 (by omega))
    have rest := ih _ (J + 1) (comps.trans rtp) (.inr ⟨J, _, carries, by omega, by omega⟩)
      (fun i h => by
        have next := seqs (i + 1) (by omega)
        rw [List.getElem_cons_succ, show J + (i + 1) = J + 1 + i by omega] at next
        exact next)
      (by omega)
    have shift : ∀ i, J + 1 + i = J + (i + 1) := by omega
    simp only [shift] at rest
    simp only [srtpEncryptAll, List.map_cons, List.mapIdx_cons, ix, err, left, rtp, rest,
      Nat.add_zero]

/-- Packets in the sender's order, each at most half a block after the one before, from a
ready context: every call forms the sender's index, succeeds, and restores the packet. -/
theorem srtpDecryptAll_run {comp : Comp} (shape : comp.Shape) (ssrc : UInt32)
    (pkts : List (Nat × List UInt8)) (rx : Srtp) (rtp : rx.rtp = comp)
    (ready : ∀ q ∈ pkts.head?, RecvReady rx ssrc q.1)
    (seqs : ∀ q ∈ pkts, rtpSsrcSeq q.2 = some (ssrc, UInt16.ofNat q.1) ∧ q.1 < 2 ^ 47)
    (inOrder : pkts.IsChain fun a b => a.1 < b.1 ∧ b.1 ≤ a.1 + 32768) :
    (srtpDecryptAll prim rx (pkts.map fun q => rtpWire prim comp ssrc (UInt64.ofNat q.1) q.2)).map
        (fun r => (r.1, r.2.err, r.2.mb.left)) =
      pkts.map fun q => (some (UInt64.ofNat q.1), none, q.2) := by
  induction pkts generalizing rx with
  | nil => rfl
  | cons q rest ih =>
    obtain ⟨seq, small⟩ := seqs q (by simp)
    obtain ⟨I, strm, lookup, fresh, lix⟩ := (ready q rfl).lookup small
    obtain ⟨ix, err, left, comps, carries⟩ := srtpDecrypt_packet prim (rtp ▸ shape) lookup small
      fresh seq
    rw [List.isChain_cons] at inOrder
    have next : ∀ q' ∈ rest.head?, RecvReady (srtpDecrypt prim rx
        ⟨rtpWire prim comp ssrc (UInt64.ofNat q.1) q.2, 0,
          (rtpWire prim comp ssrc (UInt64.ofNat q.1) q.2).length⟩).srtp ssrc q'.1 := by
      intro q' hq'
      obtain ⟨lt, near⟩ := inOrder.1 q' hq'
      rw [← rtp]
      exact .inr ⟨q.1, _, carries, by simpa using lix, lt, near⟩
    have tail := ih _ (comps.trans (by rw [rtp])) (by simpa [rtp] using next)
      (fun q' h => seqs q' (by simp [h])) inOrder.2
    simp only [List.map_cons, srtpDecryptAll]
    rw [← rtp] at tail ⊢
    simp only [ix, err, left, tail]

end Runs

theorem srtp_index_agreement (prim : Primitives) (suite : SrtpSuite) (key : List UInt8)
    (flagsTx flagsRx : Nat) (tx rx : Srtp)
    (allocTx : srtpAlloc prim suite key flagsTx = .ok tx)
    (allocRx : srtpAlloc prim suite key flagsRx = .ok rx)
    (ssrc : UInt32) (seq0 : UInt16) (packets : List (List UInt8))
    (seqs : ∀ i (h : i < packets.length),
      rtpSsrcSeq packets[i] = some (ssrc, UInt16.ofNat (seq0.toNat + i)))
    (rocBound : seq0.toNat + packets.length ≤ 2 ^ 47)
    (delivered : List Nat) (inRange : ∀ d ∈ delivered, d < packets.length)
    (beforeWrap : ∀ d ∈ delivered.head?, seq0.toNat + d < 65536)
    (fewLost : delivered.IsChain fun a b => a < b ∧ b ≤ a + 32768) :
    let sent := srtpEncryptAll prim tx packets
    let received := srtpDecryptAll prim rx
      (delivered.map fun d => (sent.map (·.2.mb.left)).getD d [])
    sent.map (fun r => (r.1, r.2.err)) =
        packets.mapIdx (fun i _ => (some (UInt64.ofNat (seq0.toNat + i)), none)) ∧
      received.map (fun r => (r.1, r.2.err, r.2.mb.left)) =
        delivered.map fun d => ((sent.map (·.1)).getD d none, none, packets.getD d []) := by
  intro sent received
  obtain ⟨-, -, txFresh⟩ := srtpAlloc_ok allocTx
  obtain ⟨-, -, rxFresh⟩ := srtpAlloc_ok allocRx
  have shape := srtpAlloc_rtp_shape allocTx
  have run := srtpEncryptAll_run prim shape ssrc packets tx seq0.toNat rfl
    (.inl ⟨txFresh, seq0.toNat_lt⟩) seqs rocBound
  have project {γ : Type} (g : Option UInt64 × Option Errno × List UInt8 → γ) :
      sent.map (fun r => g (r.1, r.2.err, r.2.mb.left)) =
        packets.mapIdx fun i p => g (some (UInt64.ofNat (seq0.toNat + i)), none,
          rtpWire prim tx.rtp ssrc (UInt64.ofNat (seq0.toNat + i)) p) := by
    rw [← map_mapIdx, ← run, List.map_map]
    rfl
  refine ⟨project fun v => (v.1, v.2.1), ?_⟩
  let pkts := delivered.map fun d => (seq0.toNat + d, packets.getD d [])
  have pick {β : Type} (f : Nat → List UInt8 → β) (b : β) (d : Nat) (hd : d ∈ delivered) :
      (packets.mapIdx f).getD d b = f d (packets.getD d []) := by
    have lt := inRange d hd
    rw [List.getD_eq_getElem _ _ (by simpa using lt), List.getElem_mapIdx,
      List.getD_eq_getElem _ _ lt]
  have wires : (delivered.map fun d => (sent.map (·.2.mb.left)).getD d []) =
      pkts.map fun q => rtpWire prim tx.rtp ssrc (UInt64.ofNat q.1) q.2 := by
    rw [project fun v => v.2.2, List.map_map]
    exact List.map_congr_left fun d hd => pick _ [] d hd
  have recv := srtpDecryptAll_run prim shape ssrc pkts rx (srtpAlloc_rtp_eq allocTx allocRx)
    (fun q hq => by
      simp only [pkts, List.head?_map, Option.mem_def, Option.map_eq_some_iff] at hq
      obtain ⟨d, hd, rfl⟩ := hq
      exact .inl ⟨rxFresh, beforeWrap d hd⟩)
    (fun q hq => by
      simp only [pkts, List.mem_map] at hq
      obtain ⟨d, hd, rfl⟩ := hq
      have lt := inRange d hd
      refine ⟨?_, by omega⟩
      rw [List.getD_eq_getElem _ _ lt]
      exact seqs d lt)
    (by
      simp only [pkts, List.isChain_map]
      exact fewLost.imp fun a b h => ⟨by omega, by omega⟩)
  show (srtpDecryptAll prim rx (delivered.map fun d => (sent.map (·.2.mb.left)).getD d [])).map
    (fun r => (r.1, r.2.err, r.2.mb.left)) = _
  rw [wires, recv]
  simp only [pkts, List.map_map]
  refine List.map_congr_left fun d hd => ?_
  rw [project fun v => v.1, pick _ none d hd]
  rfl

/-- The session `srtp_alloc` gives for `SRTP_AES_CM_128_HMAC_SHA1_80` under `zeroPrimitives`. -/
def cm80Session : Srtp :=
  ⟨⟨some ⟨.CTR, List.replicate 16 0⟩, .CTR, some (List.replicate 20 0), List.replicate 16 0, 10⟩,
    ⟨some ⟨.CTR, List.replicate 16 0⟩, .CTR, some (List.replicate 20 0), List.replicate 16 0, 10⟩,
    []⟩

/-- Two packets of SSRC 1 on either side of a wrap: sequence numbers 65535 and 0. -/
def wrappingPackets : List (List UInt8) :=
  [[0x80, 0x00, 0xff, 0xff, 0, 0, 0, 0, 0, 0, 0, 1, 0xab],
    [0x80, 0x00, 0x00, 0x00, 0, 0, 0, 0, 0, 0, 0, 1, 0xcd]]

theorem srtp_index_agreement_wrap :
    let sent := srtpEncryptAll zeroPrimitives cm80Session wrappingPackets
    let received := srtpDecryptAll zeroPrimitives cm80Session
      ([0, 1].map fun d => (sent.map (·.2.mb.left)).getD d [])
    sent.map (fun r => (r.1, r.2.err)) =
        wrappingPackets.mapIdx (fun i _ => (some (UInt64.ofNat (65535 + i)), none)) ∧
      received.map (fun r => (r.1, r.2.err, r.2.mb.left)) =
        [0, 1].map fun d => ((sent.map (·.1)).getD d none, none, wrappingPackets.getD d []) := by
  have alloc : srtpAlloc zeroPrimitives .AES_CM_128_HMAC_SHA1_80 (List.replicate 30 0) 0 =
      .ok cm80Session := by decide
  exact srtp_index_agreement zeroPrimitives .AES_CM_128_HMAC_SHA1_80 (List.replicate 30 0) 0 0
    cm80Session cm80Session alloc alloc 1 65535 wrappingPackets
    (fun i h => by
      simp only [wrappingPackets, List.length_cons, List.length_nil] at h
      interval_cases i <;> simp only [wrappingPackets, List.getElem_cons_zero,
        List.getElem_cons_succ] <;> decide)
    (by decide) [0, 1] (by decide) (by decide) (by simp)

end Libre.Srtp
