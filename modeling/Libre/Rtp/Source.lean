import Mathlib

set_option autoImplicit false

/-!
# RTP sources: sequence numbers and loss

`rtp_source_init_seq`, `rtp_source_update_seq`, `rtp_source_calc_lost` and
`rtp_source_calc_fraction_lost` from `rtp/source.c` (RFC 3550, A.1 and A.3). The `int` locals are
`Int32`, and the one signed overflow, `lost_interval << 8`, wraps as the machine does.
-/

namespace Libre.Rtp

def RTP_SEQ_MOD : Nat := 65536

def MAX_DROPOUT : Nat := 3000

def MAX_MISORDER : Nat := 100

def MIN_SEQUENTIAL : UInt32 := 2

structure RtpSource where
  max_seq : UInt16
  cycles : UInt32
  base_seq : UInt32
  bad_seq : UInt32
  probation : UInt32
  received : UInt32
  expected_prior : UInt32
  received_prior : UInt32
  deriving DecidableEq, Repr

/-- `rtp_source_init_seq`; `probation` is left as it was. -/
def rtpSourceInitSeq (s : RtpSource) (seq : UInt16) : RtpSource :=
  { s with base_seq := seq.toUInt32, max_seq := seq, bad_seq := UInt32.ofNat (RTP_SEQ_MOD + 1),
           cycles := 0, received := 0, received_prior := 0, expected_prior := 0 }

/-- The packet is counted: `s->received++; return 1;`. -/
def counted (s : RtpSource) : Bool × RtpSource := (true, { s with received := s.received + 1 })

/-- `rtp_source_update_seq`: whether the packet counts, and the source after it. -/
def rtpSourceUpdateSeq (s : RtpSource) (seq : UInt16) : Bool × RtpSource :=
  let udelta := seq - s.max_seq
  if s.probation ≠ 0 then
    -- `s->max_seq + 1` is an `int`: no wrap at 65535
    if seq.toNat = s.max_seq.toNat + 1 then
      let s := { s with probation := s.probation - 1, max_seq := seq }
      if s.probation = 0 then counted (rtpSourceInitSeq s seq) else (false, s)
    else (false, { s with probation := MIN_SEQUENTIAL - 1, max_seq := seq })
  else if udelta.toNat < MAX_DROPOUT then
    counted { s with cycles := if seq < s.max_seq then s.cycles + UInt32.ofNat RTP_SEQ_MOD
                               else s.cycles,
                     max_seq := seq }
  else if udelta.toNat ≤ RTP_SEQ_MOD - MAX_MISORDER then
    if seq.toNat = s.bad_seq.toNat then counted (rtpSourceInitSeq s seq)
    else (false, { s with bad_seq := UInt32.ofNat ((seq.toNat + 1) % RTP_SEQ_MOD) })
  else counted s

/-- The clamp of `rtp_source_calc_lost` to the 24-bit field of a report block. -/
def clampLost (lost : Int32) : Int32 :=
  if lost > 0x7fffff then 0x7fffff else if lost < -0x7fffff then -0x7fffff else lost

/-- `int expected = extended_max - s->base_seq + 1`, shared by both loss computations. -/
def expectedOf (s : RtpSource) : Int32 :=
  let extended_max : Int32 := (s.cycles + s.max_seq.toUInt32).toInt32
  (extended_max.toUInt32 - s.base_seq + 1).toInt32

/-- `rtp_source_calc_lost`. -/
def rtpSourceCalcLost (s : RtpSource) : Int32 :=
  let lost : Int32 := ((expectedOf s).toUInt32 - s.received).toInt32
  clampLost lost

/-- `rtp_source_calc_fraction_lost`: the fraction, and the source with the interval's priors
moved on. -/
def rtpSourceCalcFractionLost (s : RtpSource) : UInt8 × RtpSource :=
  let expected := expectedOf s
  let expected_interval : Int32 := (expected.toUInt32 - s.expected_prior).toInt32
  let received_interval : Int32 := (s.received - s.received_prior).toInt32
  let lost_interval := expected_interval - received_interval
  let fraction : UInt8 :=
    if expected_interval = 0 ∨ lost_interval ≤ 0 then 0
    else ((lost_interval <<< 8) / expected_interval).toUInt32.toUInt8
  (fraction, { s with expected_prior := expected.toUInt32, received_prior := s.received })

/-- `rtp_source_update_seq` called for each packet in turn. -/
def updateRun (s : RtpSource) (seqs : List UInt16) : RtpSource :=
  seqs.foldl (fun s seq => (rtpSourceUpdateSeq s seq).2) s

/-! ## Sources out of probation -/

section Tracking

variable {s : RtpSource} {seq : UInt16}

/-- Out of probation, with a whole number of cycles counted. -/
structure Tracking (s : RtpSource) : Prop where
  probation : s.probation = 0
  cycles : s.cycles.toNat % RTP_SEQ_MOD = 0

theorem tracking_initSeq (fresh : s.probation = 0) (seq : UInt16) :
    Tracking (rtpSourceInitSeq s seq) :=
  ⟨fresh, rfl⟩

theorem cycles_add_max_seq (s : RtpSource) (seq : UInt16) :
    (if seq < s.max_seq then s.cycles + UInt32.ofNat RTP_SEQ_MOD else s.cycles) + seq.toUInt32 =
      s.cycles + s.max_seq.toUInt32 + (seq - s.max_seq).toUInt32 := by
  apply UInt32.toNat_inj.mp
  have hs := seq.toNat_lt
  have hm := s.max_seq.toNat_lt
  simp only [UInt32.toNat_add, UInt16.toNat_toUInt32, UInt16.toNat_sub, RTP_SEQ_MOD,
    UInt32.toNat_ofNat', apply_ite UInt32.toNat, UInt16.lt_iff_toNat_lt] at hs hm ⊢
  split <;> omega

theorem updateSeq_near (fresh : s.probation = 0) (near : (seq - s.max_seq).toNat < MAX_DROPOUT) :
    rtpSourceUpdateSeq s seq =
      counted { s with cycles := if seq < s.max_seq then s.cycles + UInt32.ofNat RTP_SEQ_MOD
                                 else s.cycles,
                       max_seq := seq } := by
  simp [rtpSourceUpdateSeq, fresh, near]

theorem updateSeq_resync (fresh : s.probation = 0) (jump : MAX_DROPOUT ≤ (seq - s.max_seq).toNat)
    (within : (seq - s.max_seq).toNat ≤ RTP_SEQ_MOD - MAX_MISORDER)
    (bad : seq.toNat = s.bad_seq.toNat) :
    rtpSourceUpdateSeq s seq = counted (rtpSourceInitSeq s seq) := by
  simp [rtpSourceUpdateSeq, fresh, Nat.not_lt.mpr jump, within, bad]

theorem updateSeq_bad (fresh : s.probation = 0) (jump : MAX_DROPOUT ≤ (seq - s.max_seq).toNat)
    (within : (seq - s.max_seq).toNat ≤ RTP_SEQ_MOD - MAX_MISORDER)
    (other : seq.toNat ≠ s.bad_seq.toNat) :
    rtpSourceUpdateSeq s seq =
      (false, { s with bad_seq := UInt32.ofNat ((seq.toNat + 1) % RTP_SEQ_MOD) }) := by
  simp [rtpSourceUpdateSeq, fresh, Nat.not_lt.mpr jump, within, other]

theorem updateSeq_late (fresh : s.probation = 0)
    (late : RTP_SEQ_MOD - MAX_MISORDER < (seq - s.max_seq).toNat) :
    rtpSourceUpdateSeq s seq = counted s := by
  have far : ¬ (seq - s.max_seq).toNat < MAX_DROPOUT := by
    simp only [RTP_SEQ_MOD, MAX_MISORDER, MAX_DROPOUT] at *
    omega
  simp [rtpSourceUpdateSeq, fresh, far, Nat.not_le.mpr late]

theorem Tracking.updateSeq (h : Tracking s) (seq : UInt16) :
    Tracking (rtpSourceUpdateSeq s seq).2 := by
  have cycles := h.cycles
  by_cases near : (seq - s.max_seq).toNat < MAX_DROPOUT
  · rw [updateSeq_near h.probation near]
    refine ⟨h.probation, ?_⟩
    simp only [counted, RTP_SEQ_MOD, apply_ite UInt32.toNat, UInt32.toNat_add,
      UInt32.toNat_ofNat'] at cycles ⊢
    split <;> omega
  by_cases late : RTP_SEQ_MOD - MAX_MISORDER < (seq - s.max_seq).toNat
  · rw [updateSeq_late h.probation late]
    exact ⟨h.probation, cycles⟩
  by_cases bad : seq.toNat = s.bad_seq.toNat
  · rw [updateSeq_resync h.probation (Nat.not_lt.mp near) (Nat.not_lt.mp late) bad]
    exact ⟨h.probation, rfl⟩
  · rw [updateSeq_bad h.probation (Nat.not_lt.mp near) (Nat.not_lt.mp late) bad]
    exact ⟨h.probation, cycles⟩

theorem Tracking.updateRun (h : Tracking s) (seqs : List UInt16) : Tracking (updateRun s seqs) := by
  induction seqs generalizing s with
  | nil => exact h
  | cons seq seqs ih => exact ih (h.updateSeq seq)

theorem Tracking.or_eq_add (h : Tracking s) :
    s.cycles ||| s.max_seq.toUInt32 = s.cycles + s.max_seq.toUInt32 := by
  have whole : s.cycles.toNat = (s.cycles.toNat / 2 ^ 16) <<< 16 := by
    rw [Nat.shiftLeft_eq]
    have := h.cycles
    simp only [RTP_SEQ_MOD] at this
    omega
  have below : s.max_seq.toUInt32.toNat < 2 ^ 16 := by
    rw [UInt16.toNat_toUInt32]
    exact s.max_seq.toNat_lt
  apply UInt32.toNat_inj.mp
  rw [UInt32.toNat_or, UInt32.toNat_add, whole, ← Nat.shiftLeft_add_eq_or_of_lt below, ← whole]
  exact (Nat.mod_eq_of_lt (by have := s.cycles.toNat_lt; omega)).symm

/-- What one call does to a source out of probation, by the distance `udelta` of the packet past
`max_seq` (RFC 3550, A.1): a packet less than `MAX_DROPOUT` ahead moves the extended number
`cycles + max_seq` up by the distance and is counted; a larger jump either re-synchronises on
the packet after `bad_seq` or only records the packet in `bad_seq`; a packet less than
`MAX_MISORDER` behind is only counted. -/
structure UpdateSpec (s : RtpSource) (seq : UInt16) : Prop where
  near : (seq - s.max_seq).toNat < MAX_DROPOUT →
    (rtpSourceUpdateSeq s seq).1 = true ∧
      (rtpSourceUpdateSeq s seq).2.cycles + (rtpSourceUpdateSeq s seq).2.max_seq.toUInt32 =
        s.cycles + s.max_seq.toUInt32 + (seq - s.max_seq).toUInt32 ∧
      (rtpSourceUpdateSeq s seq).2.received = s.received + 1
  jump : MAX_DROPOUT ≤ (seq - s.max_seq).toNat →
    (seq - s.max_seq).toNat ≤ RTP_SEQ_MOD - MAX_MISORDER →
    (seq.toNat = s.bad_seq.toNat ∧ (rtpSourceUpdateSeq s seq).1 = true ∧
        (rtpSourceUpdateSeq s seq).2.base_seq = seq.toUInt32 ∧
        (rtpSourceUpdateSeq s seq).2.max_seq = seq ∧ (rtpSourceUpdateSeq s seq).2.cycles = 0 ∧
        (rtpSourceUpdateSeq s seq).2.received = 1) ∨
      (seq.toNat ≠ s.bad_seq.toNat ∧ (rtpSourceUpdateSeq s seq).1 = false ∧
        ∃ bad_seq, (rtpSourceUpdateSeq s seq).2 = { s with bad_seq := bad_seq })
  late : RTP_SEQ_MOD - MAX_MISORDER < (seq - s.max_seq).toNat →
    rtpSourceUpdateSeq s seq = (true, { s with received := s.received + 1 })

theorem Tracking.updateSpec (h : Tracking s) (seq : UInt16) : UpdateSpec s seq where
  near near := by
    rw [updateSeq_near h.probation near]
    exact ⟨rfl, cycles_add_max_seq s seq, rfl⟩
  jump jump within := by
    by_cases bad : seq.toNat = s.bad_seq.toNat
    · rw [updateSeq_resync h.probation jump within bad]
      exact .inl ⟨bad, rfl, rfl, rfl, rfl, rfl⟩
    · rw [updateSeq_bad h.probation jump within bad]
      exact .inr ⟨bad, rfl, _, rfl⟩
  late late := updateSeq_late h.probation late

end Tracking

/-! ## The extended sequence number -/

/-- How far a packet is past the highest extended number `top`, modulo the 16 bits of the wire:
the `udelta` of `rtp_source_update_seq`. -/
def aheadOf (top : Nat) (seq : UInt16) : Nat :=
  (seq.toNat + RTP_SEQ_MOD - top % RTP_SEQ_MOD) % RTP_SEQ_MOD

/-- The highest extended number after one more packet: one less than `MAX_DROPOUT` ahead moves
it up by the distance, any other leaves it. -/
def extendStep (top : Nat) (seq : UInt16) : Nat :=
  if aheadOf top seq < MAX_DROPOUT then top + aheadOf top seq else top

def extendedMax (top : Nat) (seqs : List UInt16) : Nat := seqs.foldl extendStep top

/-- Every packet is less than `MAX_DROPOUT` ahead of, or less than `MAX_MISORDER` behind, the
highest one before it. -/
def Steady : Nat → List UInt16 → Prop
  | _, [] => True
  | top, seq :: seqs =>
    (aheadOf top seq < MAX_DROPOUT ∨ RTP_SEQ_MOD - MAX_MISORDER < aheadOf top seq) ∧
      Steady (extendStep top seq) seqs

/-- The extended number of each packet, ahead of or behind the highest one before it. -/
def extendedSeqs : Nat → List UInt16 → List Int
  | _, [] => []
  | top, seq :: seqs =>
    (if aheadOf top seq < MAX_DROPOUT then (top + aheadOf top seq : Int)
     else (top + aheadOf top seq : Int) - RTP_SEQ_MOD) :: extendedSeqs (extendStep top seq) seqs

section Extended

variable {s : RtpSource} {seq : UInt16} {top : Nat}

/-- The counters stand for `top`: `cycles + max_seq` is it modulo 2^32. -/
def Extends (s : RtpSource) (top : Nat) : Prop := (s.cycles + s.max_seq.toUInt32).toNat = top % 2 ^ 32

theorem Tracking.max_seq_eq (h : Tracking s) (ext : Extends s top) :
    s.max_seq.toNat = top % RTP_SEQ_MOD := by
  have cycles := h.cycles
  have hc := s.cycles.toNat_lt
  have hm := s.max_seq.toNat_lt
  simp only [Extends, UInt32.toNat_add, UInt16.toNat_toUInt32, RTP_SEQ_MOD] at ext cycles hc hm ⊢
  omega

theorem Tracking.udelta_eq (h : Tracking s) (ext : Extends s top) :
    (seq - s.max_seq).toNat = aheadOf top seq := by
  have hm := h.max_seq_eq ext
  have hs := seq.toNat_lt
  simp only [UInt16.toNat_sub, aheadOf, RTP_SEQ_MOD] at hm hs ⊢
  omega

theorem Tracking.extend (h : Tracking s) (ext : Extends s top)
    (steady : aheadOf top seq < MAX_DROPOUT ∨ RTP_SEQ_MOD - MAX_MISORDER < aheadOf top seq) :
    Extends (rtpSourceUpdateSeq s seq).2 (extendStep top seq) ∧
      (rtpSourceUpdateSeq s seq).2.received = s.received + 1 ∧
      (rtpSourceUpdateSeq s seq).2.base_seq = s.base_seq ∧
      (rtpSourceUpdateSeq s seq).2.expected_prior = s.expected_prior ∧
      (rtpSourceUpdateSeq s seq).2.received_prior = s.received_prior := by
  have udelta : (seq - s.max_seq).toNat = aheadOf top seq := h.udelta_eq ext
  rcases steady with near | late
  · obtain ⟨-, sum, received⟩ := (h.updateSpec seq).near (udelta ▸ near)
    rw [updateSeq_near h.probation (udelta ▸ near)] at sum received ⊢
    refine ⟨?_, received, rfl, rfl, rfl⟩
    have ahead := (aheadOf top seq).lt_of_lt_of_le near (by decide : MAX_DROPOUT ≤ 2 ^ 16)
    simp only [Extends, sum, extendStep, if_pos near, UInt32.toNat_add, UInt16.toNat_toUInt32,
      udelta] at ext ⊢
    omega
  · rw [updateSeq_late h.probation (udelta ▸ late)]
    have far : ¬ aheadOf top seq < MAX_DROPOUT := by
      simp only [RTP_SEQ_MOD, MAX_MISORDER, MAX_DROPOUT] at late ⊢
      omega
    exact ⟨by simpa only [Extends, counted, extendStep, if_neg far] using ext, rfl, rfl, rfl, rfl⟩

/-- A steady run: the counters follow the extended number, every packet is counted, and the base
and the priors are kept. -/
theorem Tracking.extendRun (h : Tracking s) (ext : Extends s top) {seqs : List UInt16}
    (steady : Steady top seqs) :
    Extends (Rtp.updateRun s seqs) (extendedMax top seqs) ∧
      (Rtp.updateRun s seqs).received = s.received + UInt32.ofNat seqs.length ∧
      (Rtp.updateRun s seqs).base_seq = s.base_seq ∧
      (Rtp.updateRun s seqs).expected_prior = s.expected_prior ∧
      (Rtp.updateRun s seqs).received_prior = s.received_prior := by
  induction seqs generalizing s top with
  | nil => exact ⟨ext, by simp [Rtp.updateRun], rfl, rfl, rfl⟩
  | cons seq seqs ih =>
    obtain ⟨ext', received, base, expected, prior⟩ := h.extend ext steady.1
    obtain ⟨ext'', received', base', expected', prior'⟩ := ih (h.updateSeq seq) ext' steady.2
    refine ⟨ext'', ?_, base'.trans base, expected'.trans expected, prior'.trans prior⟩
    rw [Rtp.updateRun, List.foldl_cons, ← Rtp.updateRun, received', received, List.length_cons]
    apply UInt32.toNat_inj.mp
    simp only [UInt32.toNat_add, UInt32.toNat_ofNat', UInt32.toNat_one]
    omega

end Extended

/-! ## The loss counts -/

theorem toInt_toInt32 (x : UInt32) : x.toInt32.toInt = (x.toNat : Int).bmod (2 ^ 32) := by
  simp [Int32.toInt, BitVec.toInt_eq_toNat_bmod]

theorem toInt_clampLost (lost : Int32) :
    (clampLost lost).toInt = max (-0x7fffff) (min lost.toInt 0x7fffff) := by
  have hi : (0x7fffff : Int32).toInt = 0x7fffff := by decide
  have lo : (-0x7fffff : Int32).toInt = -0x7fffff := by decide
  unfold clampLost
  split
  · rename_i big
    have := Int32.lt_iff_toInt_lt.mp big
    rw [hi] at this ⊢
    omega
  split
  · rename_i small
    have := Int32.lt_iff_toInt_lt.mp small
    rw [lo] at this ⊢
    omega
  · rename_i big small
    have := mt Int32.lt_iff_toInt_lt.mpr big
    have := mt Int32.lt_iff_toInt_lt.mpr small
    rw [hi] at *
    rw [lo] at *
    omega

/-- `rtp_source_calc_lost` of counters that stand for the extended number `top`, after `n`
packets from base `base`: the 32-bit wrap of `top - base + 1 - n`, clamped to 24 bits. -/
theorem toInt_calcLost {s : RtpSource} {top base n : Nat} (ext : Extends s top)
    (hbase : s.base_seq.toNat = base) (hn : s.received.toNat = n % 2 ^ 32) :
    (rtpSourceCalcLost s).toInt =
      max (-0x7fffff) (min (((top : Int) - base + 1 - n).bmod (2 ^ 32)) 0x7fffff) := by
  have hb := s.base_seq.toNat_lt
  simp only [rtpSourceCalcLost, expectedOf, UInt32.toUInt32_toInt32, toInt_clampLost,
    toInt_toInt32]
  have wrap : ((s.cycles + s.max_seq.toUInt32 - s.base_seq + 1 - s.received).toNat : Int) =
      ((top : Int) - base + 1 - n) % ((2 ^ 32 : Nat) : Int) := by
    simp only [Extends] at ext
    simp only [UInt32.toNat_sub, UInt32.toNat_add, UInt32.toNat_one, ext, hbase, hn] at hb ⊢
    omega
  rw [wrap, Int.emod_bmod]

/-! ## Runs from the first packet -/

/-- A source as `rtcp_sess_rx_rtp` allocates it, zeroed by `mem_zalloc`. -/
def zallocSource : RtpSource := ⟨0, 0, 0, 0, 0, 0, 0, 0⟩

theorem extends_initSeq (s : RtpSource) (seq : UInt16) :
    Extends (rtpSourceInitSeq s seq) seq.toNat := by
  have := seq.toNat_lt
  simp only [Extends, rtpSourceInitSeq, zero_add, UInt16.toNat_toUInt32]
  omega

/-- From `rtp_source_init_seq` on a source out of probation, every run keeps whole cycles, every
further call behaves as `UpdateSpec` says, and after a steady run the lost count is the 32-bit
wrap of `highest extended - first + 1 - packets`, clamped to 24 bits. -/
theorem rtp_source_seq_tracking {s₀ : RtpSource} (fresh : s₀.probation = 0) (seq₀ : UInt16)
    (seqs : List UInt16) :
    let s := updateRun (rtpSourceInitSeq s₀ seq₀) seqs
    s.cycles.toNat % RTP_SEQ_MOD = 0 ∧ s.cycles ||| s.max_seq.toUInt32 = s.cycles + s.max_seq.toUInt32 ∧
      (∀ seq, UpdateSpec s seq) ∧
      (Steady seq₀.toNat seqs → (rtpSourceCalcLost s).toInt =
        max (-0x7fffff) (min (((extendedMax seq₀.toNat seqs : Int) - seq₀.toNat + 1 -
          seqs.length).bmod (2 ^ 32)) 0x7fffff)) := by
  intro s
  have tracking : Tracking s := (tracking_initSeq fresh seq₀).updateRun seqs
  refine ⟨tracking.cycles, tracking.or_eq_add, tracking.updateSpec, fun steady => ?_⟩
  obtain ⟨ext, received, base, -, -⟩ :=
    (tracking_initSeq fresh seq₀).extendRun (extends_initSeq s₀ seq₀) steady
  refine toInt_calcLost ext (by rw [base]; exact UInt16.toNat_toUInt32 seq₀) ?_
  rw [received]
  simp [rtpSourceInitSeq]

theorem rtp_source_seq_tracking_zalloc :
    zallocSource.probation = 0 ∧
      (updateRun (rtpSourceInitSeq zallocSource 7) [7, 8]).cycles.toNat % RTP_SEQ_MOD = 0 :=
  ⟨rfl, (rtp_source_seq_tracking rfl 7 [7, 8]).1⟩

def aheadSeqs (top d : Nat) : Nat → List UInt16
  | 0 => []
  | k + 1 => UInt16.ofNat (top + d) :: aheadSeqs (top + d) d k

theorem length_aheadSeqs (top d k : Nat) : (aheadSeqs top d k).length = k := by
  induction k generalizing top with
  | zero => rfl
  | succ k ih => rw [aheadSeqs, List.length_cons, ih]

theorem aheadOf_ofNat_add {top d : Nat} (hd : d < RTP_SEQ_MOD) :
    aheadOf top (UInt16.ofNat (top + d)) = d := by
  simp only [aheadOf, UInt16.toNat_ofNat', RTP_SEQ_MOD] at hd ⊢
  omega

theorem aheadSeqs_steady {d : Nat} (hd : 0 < d) (near : d < MAX_DROPOUT) (top k : Nat) :
    Steady top (aheadSeqs top d k) ∧ extendedMax top (aheadSeqs top d k) = top + d * k ∧
      (extendedSeqs top (aheadSeqs top d k)).Pairwise (· < ·) ∧
      ∀ x ∈ extendedSeqs top (aheadSeqs top d k), (top : Int) < x := by
  induction k generalizing top with
  | zero => exact ⟨trivial, rfl, List.Pairwise.nil, fun _ mem => by cases mem⟩
  | succ k ih =>
    have ahead : aheadOf top (UInt16.ofNat (top + d)) = d := aheadOf_ofNat_add (lt_trans near (by decide))
    have step : extendStep top (UInt16.ofNat (top + d)) = top + d := by
      rw [extendStep, ahead, if_pos near]
    obtain ⟨steady, max, increasing, above⟩ := ih (top + d)
    refine ⟨?_, ?_, ?_, ?_⟩
    · rw [aheadSeqs, Steady, ahead, step]
      exact ⟨.inl near, steady⟩
    · rw [aheadSeqs, extendedMax, List.foldl_cons, step, ← extendedMax, max, Nat.mul_succ]
      omega
    · simp only [aheadSeqs, extendedSeqs, ahead, if_pos near, step]
      refine List.Pairwise.cons (fun x mem => ?_) increasing
      exact_mod_cast above x mem
    · simp only [aheadSeqs, extendedSeqs, ahead, if_pos near, step, List.mem_cons]
      rintro x (rfl | mem)
      · omega
      · have := above x mem
        omega

/-- The first packet, then 2800 packets each 2999 past the one before: no duplicates, none
outside the steady bands, and 8394400 packets missing from `0 .. 8397200`. -/
def longRun : List UInt16 := 0 :: aheadSeqs 0 2999 2800

theorem longRun_steady :
    Steady 0 longRun ∧ extendedMax 0 longRun = 8397200 ∧ (extendedSeqs 0 longRun).Nodup := by
  obtain ⟨steady, max, increasing, above⟩ :=
    aheadSeqs_steady (d := 2999) (by decide) (by decide) 0 2800
  have first : extendStep 0 0 = 0 := by decide
  have ahead : aheadOf 0 0 = 0 := by decide
  refine ⟨?_, ?_, ?_⟩
  · rw [longRun, Steady, first, ahead]
    exact ⟨.inl (by decide), steady⟩
  · rw [longRun, extendedMax, List.foldl_cons, first, ← extendedMax, max]
  · rw [longRun, extendedSeqs, first, ahead, if_pos (by decide)]
    refine List.nodup_cons.mpr ⟨fun mem => ?_, increasing.nodup⟩
    have := above _ mem
    omega

def longRunSource : RtpSource := updateRun (rtpSourceInitSeq zallocSource 0) longRun

theorem longRun_counters :
    Extends longRunSource 8397200 ∧ longRunSource.received = 2801 ∧ longRunSource.base_seq = 0 ∧
      longRunSource.expected_prior = 0 ∧ longRunSource.received_prior = 0 := by
  obtain ⟨steady, max, -⟩ := longRun_steady
  obtain ⟨ext, received, base, expected, prior⟩ :=
    (tracking_initSeq rfl 0).extendRun (extends_initSeq zallocSource 0) steady
  rw [UInt16.toNat_zero, max] at ext
  refine ⟨ext, ?_, base, expected, prior⟩
  rw [longRunSource, received, longRun, List.length_cons, length_aheadSeqs]
  rfl

/-- The loss count is clamped at 24 bits: over `longRun`, 8394400 packets are missing but
`rtp_source_calc_lost` reports `0x7fffff`. -/
theorem rtp_lost_clamped :
    Steady 0 longRun ∧ (extendedSeqs 0 longRun).Nodup ∧
      (rtpSourceCalcLost longRunSource).toInt = 0x7fffff ∧
      (extendedMax 0 longRun : Int) - 0 + 1 - longRun.length = 8394400 := by
  obtain ⟨steady, max, nodup⟩ := longRun_steady
  obtain ⟨ext, received, base, -, -⟩ := longRun_counters
  have length : longRun.length = 2801 := by rw [longRun, List.length_cons, length_aheadSeqs]
  refine ⟨steady, nodup, ?_, by rw [max, length]; rfl⟩
  rw [toInt_calcLost ext (n := 2801) (by rw [base]) (by rw [received]; rfl)]
  decide

/-- The fraction lost over `longRun`: 8394400 of 8397201 expected packets are lost, whose exact
fraction is 255/256, but `lost_interval << 8` is past the largest `int` and the wrapped
quotient is 1. -/
theorem rtp_fraction_lost_overflow :
    ((expectedOf longRunSource).toUInt32 - longRunSource.expected_prior).toNat = 8397201 ∧
      (longRunSource.received - longRunSource.received_prior).toNat = 2801 ∧
      2 ^ 31 ≤ (8397201 - 2801) * 256 ∧ (8397201 - 2801) * 256 / 8397201 = 255 ∧
      (rtpSourceCalcFractionLost longRunSource).1 = 1 := by
  obtain ⟨ext, received, base, expected, prior⟩ := longRun_counters
  have sum := UInt32.toNat_inj.mp (show _ = (8397200 : UInt32).toNat from ext)
  refine ⟨?_, ?_, by decide, by decide, ?_⟩
  · simp only [expectedOf, UInt32.toUInt32_toInt32, sum, base, expected]
    decide
  · rw [received, prior]
    decide
  · simp only [rtpSourceCalcFractionLost, expectedOf, UInt32.toUInt32_toInt32, sum, base,
      expected, received, prior]
    decide

end Libre.Rtp
