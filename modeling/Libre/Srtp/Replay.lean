import Libre.Srtp.Index
import Libre.Lib.Word

set_option autoImplicit false

/-!
# The replay window against the set of accepted indices

What `srtp_replay_check` is for, stated over the indices it has let through: an index passes when
it was not let through before and is either past the largest one so far (or 0) or less than 64
behind it. The window keeps only the last index `lix` and a 64-bit map, bit `d` standing for
`lix - d`; `Replay.Correct` says that the map is exactly that set, and each branch of the check
keeps it.
-/

namespace Libre.Srtp

open Word64

/-! ## The set model -/

/-- The largest index let through so far, or 0 when there is none. -/
def topIndex (accepted : List UInt64) : UInt64 := accepted.foldr max 0

/-- Whether the set model lets `ix` through after `accepted`. -/
def admits (accepted : List UInt64) (ix : UInt64) : Bool :=
  decide (ix ∉ accepted) &&
    (decide (ix > topIndex accepted) || decide (topIndex accepted - ix < SRTP_WINDOW_SIZE))

/-- A run of the set model: the answer to each index and the indices let through at the end. -/
def windowRun : List UInt64 → List UInt64 → List Bool × List UInt64
  | accepted, [] => ([], accepted)
  | accepted, ix :: ixs =>
    let ok := admits accepted ix
    let rest := windowRun (if ok then ix :: accepted else accepted) ixs
    (ok :: rest.1, rest.2)

/-- `srtp_replay_check` called on each index in turn. -/
def replayRun : Replay → List UInt64 → List Bool × Replay
  | replay, [] => ([], replay)
  | replay, ix :: ixs =>
    let rest := replayRun (srtpReplayCheck replay ix).2 ixs
    ((srtpReplayCheck replay ix).1 :: rest.1, rest.2)

@[simp] theorem toNat_topIndex_cons (ix : UInt64) (accepted : List UInt64) :
    (topIndex (ix :: accepted)).toNat = max ix.toNat (topIndex accepted).toNat :=
  UInt64.toNat_max _ _

theorem le_topIndex {accepted : List UInt64} {a : UInt64} (mem : a ∈ accepted) :
    a.toNat ≤ (topIndex accepted).toNat := by
  induction accepted with
  | nil => cases mem
  | cons b bs ih =>
    rw [toNat_topIndex_cons]
    rcases List.mem_cons.mp mem with rfl | mem
    · exact le_max_left _ _
    · exact le_trans (ih mem) (le_max_right _ _)

/-! ## The window represents the set -/

/-- The window's last index is the largest accepted one, and bit `d` of its map is set exactly
when `lix - d` was let through. -/
structure Replay.Correct (replay : Replay) (accepted : List UInt64) : Prop where
  lix : replay.lix = topIndex accepted
  bitmap : ∀ d < 64, Has replay.bitmap d ↔ ∃ a ∈ accepted, a.toNat + d = replay.lix.toNat

theorem correct_init : srtpReplayInit.Correct [] :=
  ⟨rfl, fun d _ => by simp [srtpReplayInit]⟩

section Check

variable {replay : Replay} {accepted : List UInt64} {ix : UInt64}

theorem Replay.Correct.le_lix (h : replay.Correct accepted) {a : UInt64} (mem : a ∈ accepted) :
    a.toNat ≤ replay.lix.toNat := by
  rw [h.lix]
  exact le_topIndex mem

/-- An index past the last one: the map moves up by the distance, or starts again when the
distance is the window's width or more, and the index is let through. -/
theorem Replay.Correct.check_newer (h : replay.Correct accepted) (newer : ix > replay.lix) :
    admits accepted ix = true ∧
      (srtpReplayCheck replay ix).2.Correct (ix :: accepted) := by
  have gt : replay.lix.toNat < ix.toNat := UInt64.lt_iff_toNat_lt.mp newer
  have fresh : ix ∉ accepted := fun mem => by have := h.le_lix mem; omega
  have top : topIndex (ix :: accepted) = ix := UInt64.toNat_inj.mp <| by
    rw [toNat_topIndex_cons, ← h.lix]
    omega
  refine ⟨by simp [admits, fresh, ← h.lix, newer], ⟨by simp [srtpReplayCheck, newer, top], ?_⟩⟩
  intro d hd
  have diff : (ix - replay.lix).toNat = ix.toNat - replay.lix.toNat :=
    UInt64.toNat_sub_of_le _ _ (UInt64.le_iff_toNat_le.mpr (by omega))
  have older : ∀ a ∈ accepted, a.toNat + d ≠ ix.toNat ∨
      a.toNat + (d - (ix.toNat - replay.lix.toNat)) = replay.lix.toNat := fun a mem => by
    have := h.le_lix mem
    omega
  simp only [srtpReplayCheck, newer, if_true, List.exists_mem_cons_iff (p := fun a => _)]
  split
  · rename_i near
    have width : (ix - replay.lix).toNat < 64 := UInt64.lt_iff_toNat_lt.mp near
    rw [has_or, has_shiftLeft width hd, has_one, diff, h.bitmap _ (by omega)]
    constructor
    · rintro (⟨le, a, mem, at_⟩ | rfl)
      · exact .inr ⟨a, mem, by omega⟩
      · exact .inl (by omega)
    · rintro (self | ⟨a, mem, at_⟩)
      · exact .inr (by omega)
      · rcases older a mem with ne | back
        · exact absurd at_ ne
        · exact .inl ⟨by have := h.le_lix mem; omega, a, mem, back⟩
  · rename_i far
    have width : 64 ≤ ix.toNat - replay.lix.toNat := by
      rw [← diff]
      exact Nat.not_lt.mp fun lt => far (UInt64.lt_iff_toNat_lt.mpr lt)
    rw [has_one]
    constructor
    · rintro rfl
      exact .inl (by omega)
    · rintro (self | ⟨a, mem, at_⟩)
      · omega
      · have := h.le_lix mem
        omega

theorem Replay.Correct.check_far (h : replay.Correct accepted) (older : ¬ ix > replay.lix)
    (far : replay.lix - ix ≥ SRTP_WINDOW_SIZE) :
    admits accepted ix = false ∧ (srtpReplayCheck replay ix).2 = replay := by
  refine ⟨?_, by simp [srtpReplayCheck, older, far]⟩
  have outside : ¬ replay.lix - ix < SRTP_WINDOW_SIZE := UInt64.not_lt.mpr far
  simp [admits, ← h.lix, older, outside]

theorem Replay.Correct.check_seen (h : replay.Correct accepted) (older : ¬ ix > replay.lix)
    (near : ¬ replay.lix - ix ≥ SRTP_WINDOW_SIZE)
    (seen : replay.bitmap &&& (1 <<< (replay.lix - ix)) ≠ 0) :
    admits accepted ix = false ∧ (srtpReplayCheck replay ix).2 = replay := by
  refine ⟨?_, by simp [srtpReplayCheck, older, near, seen]⟩
  have le : ix ≤ replay.lix := UInt64.not_lt.mp older
  have width : (replay.lix - ix).toNat < 64 := UInt64.lt_iff_toNat_lt.mp (UInt64.not_le.mp near)
  have diff : (replay.lix - ix).toNat = replay.lix.toNat - ix.toNat :=
    UInt64.toNat_sub_of_le _ _ le
  have le := UInt64.le_iff_toNat_le.mp le
  obtain ⟨a, mem, at_⟩ := (h.bitmap _ width).mp ((and_one_shiftLeft_ne_zero width).mp seen)
  have same : a = ix := UInt64.toNat_inj.mp (by omega)
  simp [admits, ← same, mem]

theorem Replay.Correct.check_fresh (h : replay.Correct accepted) (older : ¬ ix > replay.lix)
    (near : ¬ replay.lix - ix ≥ SRTP_WINDOW_SIZE)
    (fresh : ¬ replay.bitmap &&& (1 <<< (replay.lix - ix)) ≠ 0) :
    admits accepted ix = true ∧ (srtpReplayCheck replay ix).2.Correct (ix :: accepted) := by
  have le : ix ≤ replay.lix := UInt64.not_lt.mp older
  have width : (replay.lix - ix).toNat < 64 := UInt64.lt_iff_toNat_lt.mp (UInt64.not_le.mp near)
  have diff : (replay.lix - ix).toNat = replay.lix.toNat - ix.toNat :=
    UInt64.toNat_sub_of_le _ _ le
  have le := UInt64.le_iff_toNat_le.mp le
  have unseen : ix ∉ accepted := fun mem => fresh <| (and_one_shiftLeft_ne_zero width).mpr <|
    (h.bitmap _ width).mpr ⟨ix, mem, by omega⟩
  have top : topIndex (ix :: accepted) = topIndex accepted := UInt64.toNat_inj.mp <| by
    rw [toNat_topIndex_cons, ← h.lix]
    omega
  refine ⟨by simp [admits, unseen, ← h.lix, older, UInt64.not_le.mp near], ⟨?_, ?_⟩⟩
  · rw [top, ← h.lix]
    simp [srtpReplayCheck, older, near, fresh]
  · intro d hd
    simp only [srtpReplayCheck, older, near, fresh, if_false, List.exists_mem_cons_iff (p := fun a => _)]
    rw [has_or, has_one_shiftLeft width hd, h.bitmap d hd, diff]
    constructor
    · rintro (old | at_)
      · exact .inr old
      · exact .inl (by omega)
    · rintro (at_ | old)
      · exact .inr (by omega)
      · exact .inl old

/-- One call of the check answers as the set model does and keeps the window correct for the
indices let through after it. -/
theorem Replay.Correct.check (h : replay.Correct accepted) (ix : UInt64) :
    (srtpReplayCheck replay ix).1 = admits accepted ix ∧
      (srtpReplayCheck replay ix).2.Correct
        (if admits accepted ix then ix :: accepted else accepted) := by
  by_cases newer : ix > replay.lix
  · obtain ⟨ok, next⟩ := h.check_newer newer
    exact ⟨by simp [srtpReplayCheck, newer, ok], by simpa [ok] using next⟩
  by_cases far : replay.lix - ix ≥ SRTP_WINDOW_SIZE
  · obtain ⟨no, same⟩ := h.check_far newer far
    exact ⟨by simp [srtpReplayCheck, newer, far, no], by simpa [no, same] using h⟩
  by_cases seen : replay.bitmap &&& (1 <<< (replay.lix - ix)) ≠ 0
  · obtain ⟨no, same⟩ := h.check_seen newer far seen
    exact ⟨by simp [srtpReplayCheck, newer, far, seen, no], by simpa [no, same] using h⟩
  · obtain ⟨ok, next⟩ := h.check_fresh newer far seen
    exact ⟨by simp only [srtpReplayCheck, newer, far, seen, if_false, ok], by simpa [ok] using next⟩

end Check

/-- Over a run from any correct window, the checks answer as the set model does, and the window
at the end represents the indices the model let through. -/
theorem Replay.Correct.run {replay : Replay} {accepted : List UInt64} (h : replay.Correct accepted)
    (ixs : List UInt64) :
    (replayRun replay ixs).1 = (windowRun accepted ixs).1 ∧
      (replayRun replay ixs).2.Correct (windowRun accepted ixs).2 := by
  induction ixs generalizing replay accepted with
  | nil => exact ⟨rfl, h⟩
  | cons ix ixs ih =>
    obtain ⟨answer, next⟩ := h.check ix
    obtain ⟨rest, final⟩ := ih next
    exact ⟨by simp only [replayRun, windowRun, answer, rest], final⟩

theorem srtp_replay_refines (ixs : List UInt64) :
    (replayRun srtpReplayInit ixs).1 = (windowRun [] ixs).1 ∧
      (replayRun srtpReplayInit ixs).2.Correct (windowRun [] ixs).2 :=
  correct_init.run ixs

end Libre.Srtp
