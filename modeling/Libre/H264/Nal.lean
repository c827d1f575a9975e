import Libre.Lib.Word

set_option autoImplicit false

/-!
# H.264 packetization

`h264/nal.c`: `h264_packetize` cuts an Annex-B stream at its start codes and hands each NAL unit
to `h264_nal_send`, whole or in FU-A fragments. Pointers are offsets into `buf`, with `base` the
address of `buf[0]`; `none` is a run that reads outside the input or never ends.
`h264FindStartcode` returns the first start code whatever the alignment
(`h264FindStartcode_eq`), and an empty NAL unit is read from far beyond the input
(`h264Packetize_empty_nal`).
-/

namespace Libre.H264

open LittleEndian

def H264_NALU_FU_A : UInt8 := 28

/-! ## `h264_find_startcode` -/

def isStartcode (buf : List UInt8) (i : Nat) : Bool :=
  buf.getD i 0 == 0 && buf.getD (i + 1) 0 == 0 && buf.getD (i + 2) 0 == 1

/-- A `for (; p < stop; p++)` loop of the scan: `.error i` is the `return` of a start code at
`i`, `.ok p` leaves the loop at `p`. -/
def scanLoop (buf : List UInt8) (stop : Nat) : Nat → Nat → Except Nat Nat
  | 0, p => .ok p
  | fuel + 1, p =>
    if p < stop then
      if isStartcode buf p then .error p else scanLoop buf stop fuel (p + 1)
    else .ok p

/-- One word of the middle loop: the word at `p` is tested for a zero byte, then the four places
a start code can begin in it. -/
def wordStep (buf : List UInt8) (p : Nat) : Option Nat :=
  if zeroFlag (load32 (buf.getD p 0) (buf.getD (p + 1) 0) (buf.getD (p + 2) 0)
      (buf.getD (p + 3) 0)) ≠ 0 then
    let low := if buf.getD (p + 1) 0 = 0 then
        if buf.getD p 0 = 0 ∧ buf.getD (p + 2) 0 = 1 then some p
        else if buf.getD (p + 2) 0 = 0 ∧ buf.getD (p + 3) 0 = 1 then some (p + 1)
        else none
      else none
    match low with
    | some i => some i
    | none =>
      if buf.getD (p + 3) 0 = 0 then
        if buf.getD (p + 2) 0 = 0 ∧ buf.getD (p + 4) 0 = 1 then some (p + 2)
        else if buf.getD (p + 4) 0 = 0 ∧ buf.getD (p + 5) 0 = 1 then some (p + 3)
        else none
      else none
  else none

def wordLoop (buf : List UInt8) (stop : Nat) : Nat → Nat → Except Nat Nat
  | 0, p => .ok p
  | fuel + 1, p =>
    if p < stop then
      match wordStep buf p with
      | some i => .error i
      | none => wordLoop buf stop fuel (p + 4)
    else .ok p

/-- `h264_find_startcode(p, end)`: bytes up to the next aligned address, whole words while six
bytes are left, then bytes again; `end` when no start code is found. The C code moves `end` by
`-3`, `-3`, `+3` between the loops; the bounds below are those differences from the `end` given. -/
def h264FindStartcode (buf : List UInt8) (base p end_ : Nat) : Nat :=
  let a := p + 4 - (base + p) % 4
  let scan : Except Nat Nat := do
    let p ← scanLoop buf (min a (end_ - 3)) end_ p
    let p ← wordLoop buf (end_ - 6) end_ p
    scanLoop buf (end_ - 3) end_ p
  match scan with
  | .error i => i
  | .ok _ => end_

/-- What `h264_find_startcode` is for: the first start code that begins in `[p, end - 3)`. -/
def firstStartcode (buf : List UInt8) (p end_ : Nat) : Nat :=
  ((List.range' p (end_ - 3 - p)).find? (isStartcode buf)).getD end_

/-! ## `h264_nal_send` and `h264_packetize` -/

structure Packet where
  marker : Bool
  hdr : List UInt8
  start : Nat
  size : Nat
  deriving DecidableEq, Repr

/-- The `while (size > sz)` loop of `h264_nal_send` and the fragment after it. With `sz = 0` the
loop never ends. -/
def fuLoop (sz : Nat) (fu0 : UInt8) (last marker : Bool) (fu1 : UInt8) (buf size : Nat) :
    Option (List Packet) :=
  if size > sz then
    if sz = 0 then none
    else (fuLoop sz fu0 last marker (fu1 &&& ~~~((1 : UInt8) <<< 7)) (buf + sz) (size - sz)).map
      (⟨false, [fu0, fu1], buf, sz⟩ :: ·)
  else some [⟨marker && last, [fu0, if last then fu1 ||| (1 : UInt8) <<< 6 else fu1], buf, size⟩]
termination_by size
decreasing_by omega

/-- `h264_nal_send`; sizes are `size_t`, so `maxsz - 2` wraps below 2. -/
def h264NalSend (first last marker : Bool) (ihdr : UInt8) (buf size maxsz : Nat) :
    Option (List Packet) :=
  if first && last && size ≤ maxsz then some [⟨marker, [ihdr], buf, size⟩]
  else
    let type := ihdr &&& 0x1f
    let nri := ihdr &&& 0x60
    let sz := (maxsz + 2 ^ 64 - 2) % 2 ^ 64
    let fu1 := if first then (1 : UInt8) <<< 7 ||| type else type
    fuLoop sz (nri ||| H264_NALU_FU_A) last marker fu1 buf size

/-- `while (!*(r++))`: the position after the first byte that is not zero; the loop has no bound,
so running off the input is `none`. -/
def skipZeros (buf : List UInt8) : Nat → Nat → Option Nat
  | 0, _ => none
  | fuel + 1, r =>
    match buf[r]? with
    | some 0 => skipZeros buf fuel (r + 1)
    | some _ => some (r + 1)
    | none => none

/-- The `while (r < end)` loop of `h264_packetize`, one NAL unit a round; the length `r1 - r - 1`
is a pointer difference passed as `size_t`. -/
def packetizeLoop (buf : List UInt8) (base pktsize : Nat) : Nat → Nat → Option (List Packet)
  | 0, _ => none
  | fuel + 1, r =>
    if r < buf.length then do
      let r ← skipZeros buf (buf.length + 1) r
      let ihdr ← buf[r]?
      let r1 := h264FindStartcode buf base r buf.length
      let size := (((r1 : Int) - r - 1) % 2 ^ 64).toNat
      let pkts ← h264NalSend true true (r1 ≥ buf.length) ihdr (r + 1) size pktsize
      let more ← packetizeLoop buf base pktsize fuel r1
      pure (pkts ++ more)
    else some []

def h264Packetize (buf : List UInt8) (base pktsize : Nat) : Option (List Packet) :=
  packetizeLoop buf base pktsize (buf.length + 1) (h264FindStartcode buf base 0 buf.length)

/-! ## The scan finds the first start code

A word with a start code in it has a zero byte (`zeroFlag_load32`), so the word loop sees the
start codes a byte loop would. -/

section Scan

variable (buf : List UInt8)

theorem find_range'_succ (p n : Nat) :
    (List.range' p (n + 1)).find? (isStartcode buf) =
      if isStartcode buf p then some p else (List.range' (p + 1) n).find? (isStartcode buf) := by
  rw [List.range'_succ, List.find?_cons]
  split <;> simp_all

theorem find_range'_add (p m n : Nat) :
    (List.range' p (m + n)).find? (isStartcode buf) =
      ((List.range' p m).find? (isStartcode buf)).or
        ((List.range' (p + m) n).find? (isStartcode buf)) := by
  rw [← List.range'_append_1, List.find?_append]

theorem scanLoop_eq (stop : Nat) : ∀ (fuel p : Nat), stop - p ≤ fuel →
    scanLoop buf stop fuel p =
      ((List.range' p (stop - p)).find? (isStartcode buf)).elim (.ok (max p stop)) .error := by
  intro fuel
  induction fuel with
  | zero =>
    intro p none_left
    simp [scanLoop, show stop - p = 0 by omega, show max p stop = p by omega]
  | succ fuel ih =>
    intro p enough
    by_cases inside : p < stop
    · rw [scanLoop, if_pos inside, show stop - p = (stop - (p + 1)) + 1 by omega,
        find_range'_succ, ih (p + 1) (by omega), show max (p + 1) stop = max p stop by omega]
      split <;> rfl
    · simp [scanLoop, inside, show stop - p = 0 by omega, show max p stop = p by omega]

/-- The word step sees the start codes that begin in its four bytes: a word with one of them has
a zero byte, and the tests after the flag look at the four places in order. -/
theorem wordStep_eq (p : Nat) : wordStep buf p = (List.range' p 4).find? (isStartcode buf) := by
  simp only [find_range'_succ, List.range'_zero, List.find?_nil, isStartcode, Nat.add_assoc,
    Nat.reduceAdd]
  unfold wordStep
  generalize buf.getD p 0 = b0
  generalize buf.getD (p + 1) 0 = b1
  generalize buf.getD (p + 2) 0 = b2
  generalize buf.getD (p + 3) 0 = b3
  generalize buf.getD (p + 4) 0 = b4
  generalize buf.getD (p + 5) 0 = b5
  by_cases flag : zeroFlag (load32 b0 b1 b2 b3) = 0
  · -- no zero byte in the word, so no start code begins in it
    have bytes : ¬ (b0 = 0 ∨ b1 = 0 ∨ b2 = 0 ∨ b3 = 0) := fun zero => zeroFlag_load32 zero flag
    simp only [not_or] at bytes
    simp [flag, bytes]
  · rw [if_pos flag]
    clear flag
    -- the step first tests bytes 1 and 3, which decide which pair of places it looks at
    by_cases one : b1 = 0 <;> by_cases three : b3 = 0 <;> simp [one, three] <;> split_ifs <;> simp_all

theorem wordLoop_eq (stop : Nat) : ∀ (fuel p : Nat), (stop - p + 3) / 4 ≤ fuel →
    wordLoop buf stop fuel p =
      ((List.range' p (4 * ((stop - p + 3) / 4))).find? (isStartcode buf)).elim
        (.ok (p + 4 * ((stop - p + 3) / 4))) .error := by
  intro fuel
  induction fuel with
  | zero =>
    intro p none_left
    simp [wordLoop, show (stop - p + 3) / 4 = 0 by omega]
  | succ fuel ih =>
    intro p enough
    by_cases inside : p < stop
    · have words : 4 * ((stop - p + 3) / 4) = 4 + 4 * ((stop - (p + 4) + 3) / 4) := by omega
      rw [wordLoop, if_pos inside, words, find_range'_add, ← wordStep_eq]
      cases wordStep buf p with
      | some i => rfl
      | none =>
        rw [Option.none_or, ih (p + 4) (by omega), Nat.add_assoc]
    · simp [wordLoop, inside, show (stop - p + 3) / 4 = 0 by omega]

/-- `h264_find_startcode` returns the first start code with a byte after it, or `end`, wherever
the buffer lies in memory. -/
theorem h264FindStartcode_eq (base p end_ : Nat) :
    h264FindStartcode buf base p end_ = firstStartcode buf p end_ := by
  -- the three windows: up to the aligned address, whole words, the rest
  unfold h264FindStartcode firstStartcode
  dsimp only
  have aligned : p < p + 4 - (base + p) % 4 := by
    have := Nat.mod_lt (base + p) (by decide : 4 > 0)
    omega
  set s1 := min (p + 4 - (base + p) % 4) (end_ - 3)
  set p1 := max p s1
  set k := (end_ - 6 - p1 + 3) / 4
  have windows : end_ - 3 - p = (s1 - p) + 4 * k + (end_ - 3 - (p1 + 4 * k)) := by omega
  have first : p + (s1 - p) = p1 := by omega
  have second : p + (s1 - p + 4 * k) = p1 + 4 * k := by omega
  rw [scanLoop_eq buf s1 end_ p (by omega), windows, find_range'_add, find_range'_add, first,
    second]
  cases (List.range' p (s1 - p)).find? (isStartcode buf) with
  | some i => rfl
  | none =>
    simp only [Option.elim, Option.none_or, bind, Except.bind]
    rw [wordLoop_eq buf (end_ - 6) end_ p1 (by omega)]
    cases (List.range' p1 (4 * k)).find? (isStartcode buf) with
    | some i => rfl
    | none =>
      simp only [Option.elim, Option.none_or]
      rw [scanLoop_eq buf (end_ - 3) end_ _ (by omega)]
      cases (List.range' (p1 + 4 * k) (end_ - 3 - (p1 + 4 * k))).find? (isStartcode buf) <;> rfl

end Scan

/-! ## FU-A fragments -/

theorem fuLoop_last {sz : Nat} (pos : 0 < sz) (fu0 : UInt8) (last marker : Bool) (fu1 : UInt8)
    (buf size : Nat) :
    ∃ pkts, fuLoop sz fu0 last marker fu1 buf size = some pkts ∧
      ∃ pkt ∈ pkts, pkt.start + pkt.size = buf + size := by
  fun_induction fuLoop sz fu0 last marker fu1 buf size with
  | case1 fu1 buf size big zero => omega
  | case2 fu1 buf size big nonzero ih =>
    obtain ⟨pkts, loop, pkt, mem, ends⟩ := ih
    refine ⟨_, by rw [loop]; rfl, pkt, List.mem_cons_of_mem _ mem, ?_⟩
    omega
  | case3 fu1 buf size small => exact ⟨_, rfl, _, List.mem_singleton_self _, rfl⟩

/-! ## An empty NAL unit -/

/-- Two start codes in a row, then a one-byte unit. -/
def emptyNalStream : List UInt8 := [0, 0, 1, 0, 0, 1, 0x65]

/-- The unit between the two start codes has length `3 - 3 - 1`, that is `SIZE_MAX`; it is sent
from offset 4 of a 7-byte input, and for every packet size its packets are read from beyond the
end of the input. -/
theorem h264Packetize_empty_nal (base pktsize : Nat) (fits : 3 ≤ pktsize) :
    ∃ pkts, h264Packetize emptyNalStream base pktsize = some pkts ∧
      ∃ pkt ∈ pkts, emptyNalStream.length < pkt.start + pkt.size := by
  have start0 : h264FindStartcode emptyNalStream base 0 7 = 0 := by
    rw [h264FindStartcode_eq]
    decide
  have start3 : h264FindStartcode emptyNalStream base 3 7 = 3 := by
    rw [h264FindStartcode_eq]
    decide
  have start6 : h264FindStartcode emptyNalStream base 6 7 = 7 := by
    rw [h264FindStartcode_eq]
    decide
  have empty : ∃ pkts, h264NalSend true true false 0 4 (2 ^ 64 - 1) pktsize = some pkts ∧
      ∃ pkt ∈ pkts, 7 < pkt.start + pkt.size := by
    by_cases whole : 2 ^ 64 - 1 ≤ pktsize
    · rw [h264NalSend, if_pos (by simp only [Bool.true_and, decide_eq_true_eq]; exact whole)]
      exact ⟨_, rfl, _, List.mem_singleton_self _, by simp⟩
    · obtain ⟨pkts, loop, pkt, mem, ends⟩ := @fuLoop_last ((pktsize + 2 ^ 64 - 2) % 2 ^ 64)
        (by omega) ((0 : UInt8) &&& 0x60 ||| H264_NALU_FU_A) true false
        ((1 : UInt8) <<< 7 ||| (0 : UInt8) &&& 0x1f) 4 (2 ^ 64 - 1)
      rw [h264NalSend, if_neg (by simp only [Bool.true_and, decide_eq_true_eq]; exact whole)]
      exact ⟨pkts, loop, pkt, mem, by omega⟩
  have single : h264NalSend true true true 0x65 7 0 pktsize = some [⟨true, [0x65], 7, 0⟩] := by
    simp [h264NalSend]
  have len : emptyNalStream.length = 7 := rfl
  have skip0 : skipZeros emptyNalStream 8 0 = some 3 := by decide
  have skip3 : skipZeros emptyNalStream 8 3 = some 6 := by decide
  have at3 : emptyNalStream[3]? = some 0 := rfl
  have at6 : emptyNalStream[6]? = some 0x65 := rfl
  obtain ⟨pkts, sent, pkt, mem, beyond⟩ := empty
  refine ⟨pkts ++ ([⟨true, [0x65], 7, 0⟩] ++ []), ?_, pkt, List.mem_append_left _ mem, beyond⟩
  have sizeEmpty : ((((3 : Nat) : Int) - ((3 : Nat) : Int) - 1) % 2 ^ 64).toNat = 2 ^ 64 - 1 := by
    decide
  have sizeLast : ((((7 : Nat) : Int) - ((6 : Nat) : Int) - 1) % 2 ^ 64).toNat = 0 := by decide
  rw [h264Packetize, len, start0, packetizeLoop, if_pos (by decide)]
  simp only [len, Nat.reduceAdd, skip0, at3, start3, sizeEmpty, Option.bind_eq_bind,
    Option.bind_some, ge_iff_le, show decide (7 ≤ 3) = false from rfl, sent]
  rw [packetizeLoop, if_pos (by decide)]
  simp only [len, Nat.reduceAdd, skip3, at6, start6, sizeLast, Option.bind_eq_bind,
    Option.bind_some, ge_iff_le, show decide (7 ≤ 7) = true from rfl, single]
  rw [packetizeLoop, if_neg (by decide)]
  rfl

theorem h264Packetize_empty_nal_1200 :
    3 ≤ 1200 ∧ ∃ pkts, h264Packetize emptyNalStream 0 1200 = some pkts ∧
      ∃ pkt ∈ pkts, emptyNalStream.length < pkt.start + pkt.size :=
  ⟨by decide, h264Packetize_empty_nal 0 1200 (by decide)⟩

end Libre.H264
