import Libre.Srtp.Protect

set_option autoImplicit false

/-!
# Tracking the packet index

Both ends of an SRTP link form a 48-bit index from a roll-over counter and the highest sequence
number seen. After the packet of index `I` a stream holds `I` split in its two halves
(`Synced I`); the packet of any index `J` with `I ≤ J ≤ I + 32768` then gets the index `J` at both
ends and leaves the stream `Synced J`.
-/

namespace Libre.Srtp

structure Synced (I : Nat) (strm : Stream) : Prop where
  roc : strm.roc.toNat = I / 65536
  s_l : strm.s_l.toNat = I % 65536
  s_l_set : strm.s_l_set = true

theorem rocUpdate_roc (strm : Stream) (seq : UInt16) :
    (rocUpdate strm seq).roc = if seqDiff strm.s_l seq ≤ -32768 then strm.roc + 1 else strm.roc := by
  unfold rocUpdate; split <;> rfl

theorem rocUpdate_s_l (strm : Stream) (seq : UInt16) :
    (rocUpdate strm seq).s_l = if seqDiff strm.s_l seq ≤ -32768 then 0 else strm.s_l := by
  unfold rocUpdate; split <;> rfl

@[simp] theorem rocUpdate_ssrc (strm : Stream) (seq : UInt16) :
    (rocUpdate strm seq).ssrc = strm.ssrc := by
  unfold rocUpdate; split <;> rfl

@[simp] theorem rocUpdate_replay_rtp (strm : Stream) (seq : UInt16) :
    (rocUpdate strm seq).replay_rtp = strm.replay_rtp := by
  unfold rocUpdate; split <;> rfl

@[simp] theorem slUpdate_ssrc (strm : Stream) (seq : UInt16) :
    (slUpdate strm seq).ssrc = strm.ssrc := by
  unfold slUpdate; split <;> rfl

@[simp] theorem slUpdate_replay_rtp (strm : Stream) (seq : UInt16) :
    (slUpdate strm seq).replay_rtp = strm.replay_rtp := by
  unfold slUpdate; split <;> rfl

theorem slUpdate_with_replay (strm : Stream) (replay : Replay) (seq : UInt16) :
    slUpdate { strm with replay_rtp := replay } seq = { slUpdate strm seq with replay_rtp := replay } := by
  unfold slUpdate; split <;> rfl

theorem srtpGetIndex_of_near (roc : UInt32) (s_l seq : UInt16) (small : roc.toNat < 2 ^ 31)
    (ahead : (seq.toNat : Int) - s_l.toNat ≤ 32768) (behind : (s_l.toNat : Int) - 32768 ≤ seq.toNat) :
    srtpGetIndex roc s_l seq = UInt64.ofNat (65536 * roc.toNat + seq.toNat) := by
  have keep : (if s_l.toNat < 32768 then
      if (seq.toNat : Int) - s_l.toNat > 32768 then roc - 1 else roc
    else if (s_l.toNat : Int) - 32768 > seq.toNat then roc + 1 else roc) = roc := by
    split <;> split <;> first | rfl | omega
  have positive : toInt32 roc = roc.toNat := by simp [toInt32]; omega
  unfold srtpGetIndex
  simp only [keep, positive]
  apply UInt64.toNat_inj.mp
  simp [UInt64.toNat_add, UInt64.toNat_mul, UInt64.toNat_ofNat]
  omega

theorem slUpdate_synced {J : Nat} {strm : Stream} (roc : strm.roc.toNat = J / 65536)
    (below : strm.s_l.toNat ≤ J % 65536) (set : strm.s_l_set = true) :
    Synced J (slUpdate strm (UInt16.ofNat J)) := by
  have seqJ : (UInt16.ofNat J).toNat = J % 65536 := by simp
  unfold slUpdate
  split
  · exact ⟨roc, seqJ, set⟩
  · rename_i notAbove
    have same : strm.s_l.toNat = J % 65536 := by
      simp only [gt_iff_lt, UInt16.lt_iff_toNat_lt, seqJ] at notAbove
      omega
    exact ⟨roc, same, set⟩

/-- The index `srtp_encrypt` forms for `seq`: `65536 * ROC + seq` over the stream after the
roll-over update. -/
def sendIndex (strm : Stream) (seq : UInt16) : UInt64 :=
  65536 * (rocUpdate strm seq).roc.toUInt64 + seq.toUInt64

/-- The index `srtp_decrypt` forms for `seq`: `srtp_get_index` over the stream after the
roll-over update. -/
def recvIndex (strm : Stream) (seq : UInt16) : UInt64 :=
  srtpGetIndex (rocUpdate strm seq).roc (rocUpdate strm seq).s_l seq

theorem Synced.with_replay {I : Nat} {strm : Stream} (h : Synced I strm) (replay : Replay) :
    Synced I { strm with replay_rtp := replay } :=
  ⟨h.roc, h.s_l, h.s_l_set⟩

section Step

/-! ## One packet further -/

variable {I J : Nat} {strm : Stream} (synced : Synced I strm) (le : I ≤ J)
  (near : J ≤ I + 32768) (small : J < 2 ^ 47)

include synced le near small in
/-- The packet's block is the last packet's, or the one after; in the second case the update
has moved the counter and cleared `s_l`. -/
theorem rocUpdate_synced :
    (rocUpdate strm (UInt16.ofNat J)).roc.toNat = J / 65536 ∧
      ((rocUpdate strm (UInt16.ofNat J)).s_l.toNat = I % 65536 ∧ J / 65536 = I / 65536 ∨
        (rocUpdate strm (UInt16.ofNat J)).s_l.toNat = 0 ∧ J / 65536 = I / 65536 + 1) := by
  have hroc := synced.roc
  have hsl := synced.s_l
  have seqJ : (UInt16.ofNat J).toNat = J % 65536 := by simp
  by_cases cross : J / 65536 = I / 65536
  · have diff : ¬ seqDiff strm.s_l (UInt16.ofNat J) ≤ -32768 := by
      simp only [seqDiff, seqJ, hsl]; omega
    simp only [rocUpdate_roc, rocUpdate_s_l, diff, if_false]
    exact ⟨hroc.trans cross.symm, .inl ⟨hsl, cross⟩⟩
  · have next : J / 65536 = I / 65536 + 1 := by omega
    have diff : seqDiff strm.s_l (UInt16.ofNat J) ≤ -32768 := by
      simp only [seqDiff, seqJ, hsl]; omega
    have fits : strm.roc.toNat + 1 < 2 ^ 32 := by omega
    simp only [rocUpdate_roc, rocUpdate_s_l, diff, if_true]
    refine ⟨?_, .inr ⟨rfl, next⟩⟩
    simp [UInt32.toNat_add, hroc]
    omega

include synced le near in
theorem seqDiff_not_late : ¬ seqDiff strm.s_l (UInt16.ofNat J) > 32768 := by
  have seqJ : (UInt16.ofNat J).toNat = J % 65536 := by simp
  simp only [seqDiff, seqJ, synced.s_l]
  omega

include synced le near small in
/-- The receiver's estimate: `srtp_get_index` over the updated stream gives `J`. -/
theorem recvIndex_synced : recvIndex strm (UInt16.ofNat J) = UInt64.ofNat J := by
  have seqJ : (UInt16.ofNat J).toNat = J % 65536 := by simp
  obtain ⟨roc, blocks⟩ := rocUpdate_synced synced le near small
  have ahead : ((UInt16.ofNat J).toNat : Int) - (rocUpdate strm (UInt16.ofNat J)).s_l.toNat ≤
      32768 := by
    rw [seqJ]
    rcases blocks with ⟨sl, _⟩ | ⟨sl, _⟩ <;> omega
  rw [recvIndex, srtpGetIndex_of_near _ _ _ (by omega) ahead (by rw [seqJ]; omega), roc, seqJ,
    Nat.div_add_mod]

include synced le near small in
/-- The sender's index `65536 * ROC + seq` over the updated stream is `J`. -/
theorem sendIndex_synced : sendIndex strm (UInt16.ofNat J) = UInt64.ofNat J := by
  obtain ⟨roc, -⟩ := rocUpdate_synced synced le near small
  apply UInt64.toNat_inj.mp
  simp [sendIndex, UInt64.toNat_add, UInt64.toNat_mul, roc]
  omega

include synced le near small in
theorem slUpdate_rocUpdate_synced :
    Synced J (slUpdate (rocUpdate strm (UInt16.ofNat J)) (UInt16.ofNat J)) := by
  obtain ⟨roc, blocks⟩ := rocUpdate_synced synced le near small
  have below : (rocUpdate strm (UInt16.ofNat J)).s_l.toNat ≤ J % 65536 := by
    rcases blocks with ⟨sl, _⟩ | ⟨sl, _⟩ <;> omega
  exact slUpdate_synced roc below (by unfold rocUpdate; split <;> exact synced.s_l_set)

end Step

/-! ## The stream a packet finds -/

theorem synced_first (ssrc : UInt32) {J : Nat} (first : J < 65536) :
    Synced J { streamInit ssrc with s_l := UInt16.ofNat J, s_l_set := true } := by
  refine ⟨?_, ?_, rfl⟩
  · simp [streamInit]
    omega
  · simp [Nat.mod_eq_of_lt first]

theorem streamGetSeq_nil (ssrc : UInt32) (seq : UInt16) :
    streamGetSeq [] ssrc seq = .ok ⟨[], { streamInit ssrc with s_l := seq, s_l_set := true }, []⟩ :=
  rfl

theorem streamGetSeq_single {strm : Stream} {ssrc : UInt32} (seq : UInt16) (same : strm.ssrc = ssrc)
    (set : strm.s_l_set = true) : streamGetSeq [strm] ssrc seq = .ok ⟨[], strm, []⟩ := by
  have found : streamGet [strm] ssrc = .ok ⟨[], strm, []⟩ := by
    rw [streamGet, show [strm] = [] ++ strm :: [] from rfl,
      streamFind_first [] [] strm ssrc same (by simp)]
  rw [streamGetSeq, found]
  simp [set]

theorem srtpReplayCheck_init (ix : UInt64) : srtpReplayCheck srtpReplayInit ix = (true, ⟨1, ix⟩) := by
  by_cases newer : ix > 0
  · -- the bitmap was empty, so whatever it is shifted by, only the new bit is set
    simp [srtpReplayCheck, srtpReplayInit, newer]
  · have zero : ix = 0 := by simpa using newer
    subst zero
    decide

end Libre.Srtp
