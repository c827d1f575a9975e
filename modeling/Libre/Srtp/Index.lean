import Libre.Srtp.Cipher

set_option autoImplicit false

/-!
# Packet indices and IVs

`seq_diff`, `srtp_get_index` and the two IV formations of `srtp/misc.c`, and the replay window
of `srtp/replay.c`. `srtp_get_index` keeps the C integer conversions: the chosen roll-over
counter is stored in an `int`, so a value at or above `2^31` turns negative, and the product
with `(uint64_t)65536` sign-extends it.
-/

namespace Libre.Srtp

open BigEndian

def seqDiff (x y : UInt16) : Int := (y.toNat : Int) - x.toNat

/-- The value an `int` holds after the assignment of a 32-bit pattern. -/
def toInt32 (x : UInt32) : Int := if x.toNat < 2 ^ 31 then x.toNat else (x.toNat : Int) - 2 ^ 32

def srtpGetIndex (roc : UInt32) (s_l seq : UInt16) : UInt64 :=
  let v : UInt32 :=
    if s_l.toNat < 32768 then
      if (seq.toNat : Int) - s_l.toNat > 32768 then roc - 1 else roc
    else
      if (s_l.toNat : Int) - 32768 > seq.toNat then roc + 1 else roc
  UInt64.ofNat seq.toNat + UInt64.ofNat (toInt32 v % 2 ^ 64).toNat * 65536

/-- `srtp_iv_calc`: the 16-byte counter block, salt XOR SSRC and index, low two bytes zero. -/
def srtpIvCalc (k_s : List UInt8) (ssrc : UInt32) (ix : UInt64) : List UInt8 :=
  k_s.extract 0 4 ++ xorBytes (k_s.extract 4 8) (netBytes 4 ssrc.toNat) ++
    xorBytes (k_s.extract 8 12) (netBytes 4 (ix.toNat / 65536)) ++
    xorBytes (k_s.extract 12 14) (netBytes 2 ix.toNat) ++ [0, 0]

/-- `srtp_iv_calc_gcm`: the 12 bytes GCM reads, salt XOR SSRC and the 48-bit index. -/
def srtpIvCalcGcm (k_s : List UInt8) (ssrc : UInt32) (ix : UInt64) : List UInt8 :=
  k_s.extract 0 2 ++ xorBytes (k_s.extract 2 6) (netBytes 4 ssrc.toNat) ++
    xorBytes (k_s.extract 6 12) (netBytes 6 ix.toNat)

/-! ## Replay window -/

def SRTP_WINDOW_SIZE : UInt64 := 64

structure Replay where
  bitmap : UInt64
  lix : UInt64
  deriving DecidableEq, Repr

def srtpReplayInit : Replay := ⟨0, 0⟩

/-- `srtp_replay_check`: whether the index is let through, and the window after the check. -/
def srtpReplayCheck (replay : Replay) (ix : UInt64) : Bool × Replay :=
  if ix > replay.lix then
    let diff := ix - replay.lix
    let bitmap := if diff < SRTP_WINDOW_SIZE then (replay.bitmap <<< diff) ||| 1 else 1
    (true, ⟨bitmap, ix⟩)
  else
    let diff := replay.lix - ix
    if diff ≥ SRTP_WINDOW_SIZE then (false, replay)
    else if replay.bitmap &&& (1 <<< diff) ≠ 0 then (false, replay)
    else (true, { replay with bitmap := replay.bitmap ||| (1 <<< diff) })

theorem srtpReplayCheck_refused (replay : Replay) (ix : UInt64)
    (refused : (srtpReplayCheck replay ix).1 = false) : (srtpReplayCheck replay ix).2 = replay := by
  by_cases newer : ix > replay.lix
  · simp [srtpReplayCheck, newer] at refused
  · by_cases far : replay.lix - ix ≥ SRTP_WINDOW_SIZE
    · simp [srtpReplayCheck, newer, far]
    · by_cases seen : replay.bitmap &&& (1 <<< (replay.lix - ix)) ≠ 0
      · simp [srtpReplayCheck, newer, far, seen]
      · simp [srtpReplayCheck, newer, far, seen] at refused

theorem srtpReplayCheck_of_gt (replay : Replay) (ix : UInt64) (newer : ix > replay.lix) :
    (srtpReplayCheck replay ix).1 = true ∧ (srtpReplayCheck replay ix).2.lix = ix := by
  simp [srtpReplayCheck, newer]

end Libre.Srtp
