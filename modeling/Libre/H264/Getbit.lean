import Libre.Mbuf.Buffer

set_option autoImplicit false

/-!
# Bit reading and Exp-Golomb codes

`get_bit` and `get_ue_golomb` from `h264/getbit.c`; positions count bits, the most significant
bit of a byte first. The shifts of `get_ue_golomb` are of 32-bit words, so with 32 leading zeros
or more it still succeeds, with a value that has lost its top bit (`get_ue_golomb_exact`).
-/

namespace Libre.H264

-- `struct getbit`.
structure Getbit where
  buf : List UInt8
  pos : Nat
  end_ : Nat
  deriving DecidableEq, Repr

def getbitGetLeft (gb : Getbit) : Nat :=
  if gb.end_ > gb.pos then gb.end_ - gb.pos else 0

-- `get_bit`: past the end it prints a warning and returns 0 without moving.
def getBit (gb : Getbit) : UInt32 × Getbit :=
  if gb.pos ≥ gb.end_ then (0, gb)
  else
    (UInt32.ofNat ((gb.buf[gb.pos >>> 3]!.toNat >>> (7 - (gb.pos &&& 7))) &&& 0x1),
      { gb with pos := gb.pos + 1 })

theorem getBit_snd_of_lt {gb : Getbit} (inside : gb.pos < gb.end_) :
    (getBit gb).2 = { gb with pos := gb.pos + 1 } := by
  simp [getBit, Nat.not_le.mpr inside]

theorem lt_of_getbitGetLeft {gb : Getbit} (left : ¬getbitGetLeft gb < 1) : gb.pos < gb.end_ := by
  unfold getbitGetLeft at left
  split_ifs at left with inside <;> omega

theorem getbitGetLeft_getBit {gb : Getbit} (left : ¬getbitGetLeft gb < 1) :
    getbitGetLeft (getBit gb).2 < getbitGetLeft gb := by
  have inside := lt_of_getbitGetLeft left
  rw [getBit_snd_of_lt inside]
  simp only [getbitGetLeft]
  split_ifs <;> omega

-- The `while (1)` of `get_ue_golomb`: the zero bits before the first one bit.
def zerosLoop (gb : Getbit) (zeros : UInt32) : Except Errno (UInt32 × Getbit) :=
  if getbitGetLeft gb < 1 then .error .EBADMSG
  else
    let bit := getBit gb
    if bit.1 = 0 then zerosLoop bit.2 (zeros + 1) else .ok (zeros, bit.2)
termination_by getbitGetLeft gb
decreasing_by
  rename_i left _
  exact getbitGetLeft_getBit left

-- `for (i = zeros - 1; i >= 0; i--) info |= get_bit(gb) << i`, with `n` rounds left and `i = n - 1`.
def infoLoop (gb : Getbit) (info : UInt32) : Nat → Except Errno (UInt32 × Getbit)
  | 0 => .ok (info, gb)
  | n + 1 =>
    if getbitGetLeft gb < 1 then .error .EBADMSG
    else
      let bit := getBit gb
      infoLoop bit.2 (info ||| bit.1 <<< UInt32.ofNat n) n

-- `get_ue_golomb(gb, &val)`. The loop index is the `int` `zeros - 1`, so a count past `INT_MAX`
-- runs no rounds at all.
def getUeGolomb (gb : Getbit) : Except Errno (UInt32 × Getbit) :=
  match zerosLoop gb 0 with
  | .error e => .error e
  | .ok (zeros, gb) =>
    let info : UInt32 := 1 <<< zeros
    let i := (zeros - 1).toInt32
    match infoLoop gb info (if i ≥ 0 then i.toInt.toNat + 1 else 0) with
    | .error e => .error e
    | .ok (info, gb) => .ok (info - 1, gb)

/-! ## The bits of the buffer -/

-- Bit `i` of the buffer, the most significant bit of each byte first.
def bitAt (buf : List UInt8) (i : Nat) : Nat := buf[i / 8]!.toNat / 2 ^ (7 - i % 8) % 2

-- The number `n` bits from `pos` on spell, the first one highest.
def bitsValue (buf : List UInt8) (pos : Nat) : Nat → Nat
  | 0 => 0
  | n + 1 => bitAt buf pos * 2 ^ n + bitsValue buf (pos + 1) n

theorem bitAt_le (buf : List UInt8) (i : Nat) : bitAt buf i ≤ 1 := by
  unfold bitAt
  omega

theorem bitsValue_lt (buf : List UInt8) (pos n : Nat) : bitsValue buf pos n < 2 ^ n := by
  induction n generalizing pos with
  | zero => simp [bitsValue]
  | succ n ih =>
    have bit := bitAt_le buf pos
    have rest := ih (pos + 1)
    rw [bitsValue, pow_succ]
    nlinarith

theorem getBit_of_lt {gb : Getbit} (inside : gb.pos < gb.end_) :
    getBit gb = (UInt32.ofNat (bitAt gb.buf gb.pos), { gb with pos := gb.pos + 1 }) := by
  have byte : gb.pos >>> 3 = gb.pos / 8 := Nat.shiftRight_eq_div_pow gb.pos 3
  have offset : gb.pos &&& 7 = gb.pos % 8 := Nat.and_two_pow_sub_one_eq_mod gb.pos 3
  simp only [getBit, if_neg (Nat.not_le.mpr inside), bitAt, byte, offset,
    Nat.shiftRight_eq_div_pow, Nat.and_one_is_mod]

theorem getBit_zero {gb : Getbit} (inside : gb.pos < gb.end_) (zero : bitAt gb.buf gb.pos = 0) :
    getBit gb = (0, { gb with pos := gb.pos + 1 }) := by
  rw [getBit_of_lt inside, zero]
  rfl

theorem getBit_one {gb : Getbit} (inside : gb.pos < gb.end_) (one : bitAt gb.buf gb.pos = 1) :
    getBit gb = (1, { gb with pos := gb.pos + 1 }) := by
  rw [getBit_of_lt inside, one]
  rfl

theorem getbitGetLeft_of_lt {gb : Getbit} (inside : gb.pos < gb.end_) : ¬getbitGetLeft gb < 1 := by
  unfold getbitGetLeft
  split_ifs <;> omega

/-! ## The prefix of zeros -/

/-- `k` zero bits and a one bit inside the buffer: the loop counts the zeros and stops past the
one. -/
theorem zerosLoop_ones {gb : Getbit} {k : Nat} (zeros : ∀ j < k, bitAt gb.buf (gb.pos + j) = 0)
    (one : bitAt gb.buf (gb.pos + k) = 1) (inside : gb.pos + k < gb.end_) (z : UInt32) :
    zerosLoop gb z = .ok (z + UInt32.ofNat k, { gb with pos := gb.pos + k + 1 }) := by
  induction k generalizing gb z with
  | zero =>
    rw [zerosLoop, if_neg (getbitGetLeft_of_lt inside)]
    rw [getBit_one inside one]
    simp
  | succ k ih =>
    have first := zeros 0 (by omega)
    rw [Nat.add_zero] at first
    rw [zerosLoop, if_neg (getbitGetLeft_of_lt (by omega)), getBit_zero (by omega) first]
    dsimp only
    rw [if_pos rfl, ih (fun j lt => by simpa [Nat.add_assoc, Nat.add_comm 1] using zeros (j + 1) (by omega))
      (by simpa [Nat.add_assoc, Nat.add_comm 1] using one) (by simp only; omega)]
    simp only [Except.ok.injEq, Prod.mk.injEq, Getbit.mk.injEq, true_and, and_true]
    constructor
    · rw [add_assoc, UInt32.ofNat_add, add_comm (UInt32.ofNat k)]
      rfl
    · omega

theorem zerosLoop_exhausted {gb : Getbit} (zeros : ∀ j, gb.pos + j < gb.end_ → bitAt gb.buf (gb.pos + j) = 0)
    (z : UInt32) : zerosLoop gb z = .error .EBADMSG := by
  induction gb, z using zerosLoop.induct with
  | case1 gb z short => rw [zerosLoop, if_pos short]
  | case2 gb z left bit zero ih =>
    have next : bit.2 = { gb with pos := gb.pos + 1 } := getBit_snd_of_lt (lt_of_getbitGetLeft left)
    rw [zerosLoop, if_neg left]
    dsimp only
    rw [if_pos zero]
    apply ih
    intro j lt
    rw [next] at lt ⊢
    simpa [Nat.add_assoc, Nat.add_comm 1] using zeros (j + 1) (by simp only at lt; omega)
  | case3 gb z left bit one =>
    have inside := lt_of_getbitGetLeft left
    exact absurd (by rw [show bit = getBit gb from rfl, getBit_zero inside (by simpa using zeros 0 (by omega))]) one

/-! ## The bits after the prefix -/

theorem infoLoop_ok {gb : Getbit} {n : Nat} (fits : gb.pos + n ≤ gb.end_) (info : UInt32) :
    ∃ v, infoLoop gb info n = .ok (v, { gb with pos := gb.pos + n }) := by
  induction n generalizing gb info with
  | zero => exact ⟨info, rfl⟩
  | succ n ih =>
    rw [infoLoop, if_neg (getbitGetLeft_of_lt (by omega)), getBit_of_lt (by omega)]
    obtain ⟨v, rest⟩ := @ih { gb with pos := gb.pos + 1 } (by simp only; omega) _
    refine ⟨v, ?_⟩
    rw [rest]
    simp only [Except.ok.injEq, Prod.mk.injEq, Getbit.mk.injEq, true_and, and_true]
    omega

theorem infoLoop_short {gb : Getbit} {n : Nat} (start : gb.pos ≤ gb.end_)
    (short : gb.end_ < gb.pos + n) (info : UInt32) : infoLoop gb info n = .error .EBADMSG := by
  induction n generalizing gb info with
  | zero => omega
  | succ n ih =>
    rw [infoLoop]
    split_ifs with left
    · rfl
    · rw [getBit_of_lt (lt_of_getbitGetLeft left)]
      exact ih (by simp only; exact lt_of_getbitGetLeft left) (by simp only; omega) _

theorem shiftLeft_or_ofNat {b v n : Nat} (bit : b ≤ 1) (lt : v < 2 ^ n) (small : n < 32) :
    UInt32.ofNat b <<< UInt32.ofNat n ||| UInt32.ofNat v = UInt32.ofNat (b * 2 ^ n + v) := by
  have pow : 2 ^ n ≤ 2 ^ 31 := Nat.pow_le_pow_right (by omega) (by omega)
  have shift : (UInt32.ofNat n).toNat % 32 = n := by
    rw [UInt32.toNat_ofNat']
    omega
  apply UInt32.toNat_inj.mp
  rw [UInt32.toNat_or, UInt32.toNat_shiftLeft, shift, UInt32.toNat_ofNat', UInt32.toNat_ofNat',
    UInt32.toNat_ofNat', Nat.mod_eq_of_lt (show b < 2 ^ 32 by omega),
    Nat.mod_eq_of_lt (show v < 2 ^ 32 by omega), Nat.shiftLeft_eq,
    Nat.mod_eq_of_lt (show b * 2 ^ n < 2 ^ 32 by nlinarith),
    Nat.mod_eq_of_lt (show b * 2 ^ n + v < 2 ^ 32 by nlinarith), Nat.mul_comm,
    Nat.two_pow_add_eq_or_of_lt lt]

theorem infoLoop_value {gb : Getbit} {n : Nat} (fits : gb.pos + n ≤ gb.end_) (small : n ≤ 32)
    (info : UInt32) :
    infoLoop gb info n =
      .ok (info ||| UInt32.ofNat (bitsValue gb.buf gb.pos n), { gb with pos := gb.pos + n }) := by
  induction n generalizing gb info with
  | zero => simp [infoLoop, bitsValue]
  | succ n ih =>
    rw [infoLoop, if_neg (getbitGetLeft_of_lt (by omega)), getBit_of_lt (by omega)]
    dsimp only
    rw [@ih { gb with pos := gb.pos + 1 } (by simp only; omega) (by omega)]
    simp only [Except.ok.injEq, Prod.mk.injEq, Getbit.mk.injEq, true_and, and_true]
    constructor
    · rw [UInt32.or_assoc, shiftLeft_or_ofNat (bitAt_le _ _) (bitsValue_lt _ _ _) (by omega),
        bitsValue]
    · omega

/-! ## `get_ue_golomb` -/

-- `k` zero bits and then a one bit, all inside the buffer.
structure LeadingZeros (gb : Getbit) (k : Nat) : Prop where
  zeros : ∀ j < k, bitAt gb.buf (gb.pos + j) = 0
  one : bitAt gb.buf (gb.pos + k) = 1
  inside : gb.pos + k < gb.end_

-- The `int` loop index `zeros - 1` runs `zeros` rounds while the count is at most `2^31`.
theorem rounds_of_le {k : Nat} (small : k ≤ 2 ^ 31) :
    (if (UInt32.ofNat k - 1).toInt32 ≥ 0 then (UInt32.ofNat k - 1).toInt32.toInt.toNat + 1
      else 0) = k := by
  rcases Nat.eq_zero_or_pos k with rfl | pos
  · decide
  · have low : (UInt32.ofNat k - 1).toNat = k - 1 := by
      rw [UInt32.toNat_sub_of_le _ _ (by
        rw [UInt32.le_iff_toNat_le, UInt32.toNat_ofNat', UInt32.toNat_one]; omega),
        UInt32.toNat_ofNat', UInt32.toNat_one, Nat.mod_eq_of_lt (by omega)]
    have value : (UInt32.ofNat k - 1).toInt32.toInt = ((k - 1 : Nat) : Int) := by
      simp only [Int32.toInt, UInt32.toBitVec_toInt32, BitVec.toInt_eq_toNat_bmod,
        UInt32.toNat_toBitVec, low]
      exact Int.bmod_eq_of_le (by omega) (by omega)
    have nonneg : (UInt32.ofNat k - 1).toInt32 ≥ 0 := by
      rw [ge_iff_le, Int32.le_iff_toInt_le, value]
      simp
    rw [if_pos nonneg, value]
    omega

theorem getUeGolomb_exhausted {gb : Getbit}
    (zeros : ∀ j, gb.pos + j < gb.end_ → bitAt gb.buf (gb.pos + j) = 0) :
    getUeGolomb gb = .error .EBADMSG := by
  rw [getUeGolomb, zerosLoop_exhausted zeros]

theorem getUeGolomb_of_leadingZeros {gb : Getbit} {k : Nat} (h : LeadingZeros gb k)
    (small : k ≤ 2 ^ 31) :
    getUeGolomb gb =
      match infoLoop { gb with pos := gb.pos + k + 1 } (1 <<< UInt32.ofNat k) k with
      | .error e => .error e
      | .ok (info, gb) => .ok (info - 1, gb) := by
  rw [getUeGolomb, zerosLoop_ones h.zeros h.one h.inside]
  dsimp only
  rw [zero_add, rounds_of_le small]

theorem getUeGolomb_short {gb : Getbit} {k : Nat} (h : LeadingZeros gb k)
    (short : gb.end_ < gb.pos + 2 * k + 1) (small : k ≤ 2 ^ 31) :
    getUeGolomb gb = .error .EBADMSG := by
  have inside := h.inside
  rw [getUeGolomb_of_leadingZeros h small,
    infoLoop_short (by simp only; omega) (by simp only; omega)]

/-- Up to 31 zeros: `2^k - 1` plus the `k` bits after the one, `2k + 1` bits read. -/
theorem getUeGolomb_value {gb : Getbit} {k : Nat} (h : LeadingZeros gb k)
    (fits : gb.pos + 2 * k + 1 ≤ gb.end_) (small : k ≤ 31) :
    getUeGolomb gb = .ok (UInt32.ofNat (2 ^ k - 1 + bitsValue gb.buf (gb.pos + k + 1) k),
      { gb with pos := gb.pos + 2 * k + 1 }) := by
  have b := bitsValue_lt gb.buf (gb.pos + k + 1) k
  rw [getUeGolomb_of_leadingZeros h (by omega), infoLoop_value (by simp only; omega) (by omega)]
  simp only [Except.ok.injEq, Prod.mk.injEq, Getbit.mk.injEq, true_and, and_true]
  constructor
  · -- the leading one is the bit above the others; dropping one from it gives `2^k - 1`
    rw [show (1 : UInt32) = UInt32.ofNat 1 from rfl, shiftLeft_or_ofNat (by omega) b (by omega),
      eq_comm, eq_sub_iff_add_eq, ← UInt32.ofNat_add]
    have one := Nat.one_le_two_pow (n := k)
    congr 1
    omega
  · omega

/-- 32 zeros or more are not refused: the code reads as many bits again and succeeds. -/
theorem getUeGolomb_long {gb : Getbit} {k : Nat} (h : LeadingZeros gb k)
    (fits : gb.pos + 2 * k + 1 ≤ gb.end_) (small : k ≤ 2 ^ 31) :
    ∃ v, getUeGolomb gb = .ok (v, { gb with pos := gb.pos + 2 * k + 1 }) := by
  rw [getUeGolomb_of_leadingZeros h small]
  have after : ({ gb with pos := gb.pos + k + 1 } : Getbit).pos + k ≤
      ({ gb with pos := gb.pos + k + 1 } : Getbit).end_ := by
    simp only
    omega
  obtain ⟨v, loop⟩ := infoLoop_ok after (1 <<< UInt32.ofNat k)
  rw [loop]
  refine ⟨v - 1, ?_⟩
  simp only [Except.ok.injEq, Prod.mk.injEq, Getbit.mk.injEq, true_and, and_true]
  omega

/-- `get_ue_golomb` from any position: EBADMSG when the buffer ends before the one bit or before
the bits after it; with `k ≤ 31` leading zeros the value `2^k - 1 + b` of the `k` bits `b` after
the one, `2k + 1` bits read; and with 32 leading zeros or more (up to the `int` index's range)
no refusal: it reads `2k + 1` bits and succeeds. -/
theorem get_ue_golomb_exact (gb : Getbit) :
    ((∀ j, gb.pos + j < gb.end_ → bitAt gb.buf (gb.pos + j) = 0) →
      getUeGolomb gb = .error .EBADMSG) ∧
    ∀ k, LeadingZeros gb k →
      (gb.end_ < gb.pos + 2 * k + 1 → k ≤ 2 ^ 31 → getUeGolomb gb = .error .EBADMSG) ∧
      (gb.pos + 2 * k + 1 ≤ gb.end_ → k ≤ 31 →
        getUeGolomb gb = .ok (UInt32.ofNat (2 ^ k - 1 + bitsValue gb.buf (gb.pos + k + 1) k),
          { gb with pos := gb.pos + 2 * k + 1 })) ∧
      (gb.pos + 2 * k + 1 ≤ gb.end_ → 32 ≤ k → k ≤ 2 ^ 31 →
        ∃ v, getUeGolomb gb = .ok (v, { gb with pos := gb.pos + 2 * k + 1 })) :=
  ⟨getUeGolomb_exhausted, fun _ h =>
    ⟨getUeGolomb_short h, getUeGolomb_value h, fun fits _ small => getUeGolomb_long h fits small⟩⟩

theorem get_ue_golomb_exact_thirty_two_zeros :
    LeadingZeros ⟨[0, 0, 0, 0, 0x80, 0, 0, 0, 0], 0, 72⟩ 32 ∧
    ∃ v, getUeGolomb ⟨[0, 0, 0, 0, 0x80, 0, 0, 0, 0], 0, 72⟩ =
      .ok (v, ⟨[0, 0, 0, 0, 0x80, 0, 0, 0, 0], 65, 72⟩) :=
  have zeros : LeadingZeros ⟨[0, 0, 0, 0, 0x80, 0, 0, 0, 0], 0, 72⟩ 32 :=
    ⟨by decide, by decide, by decide⟩
  ⟨zeros, ((get_ue_golomb_exact _).2 32 zeros).2.2 (by decide) (by decide) (by decide)⟩

-- The 65 bits decode to 0, as the single bit `1` does: the leading one has fallen out of the word.
example : getUeGolomb ⟨[0, 0, 0, 0, 0x80, 0, 0, 0, 0], 0, 72⟩ =
    .ok (0, ⟨[0, 0, 0, 0, 0x80, 0, 0, 0, 0], 65, 72⟩) := by
  decide +kernel

end Libre.H264
