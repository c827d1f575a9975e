import Libre.Mbuf.Buffer
import Libre.Fmt.Print

set_option autoImplicit false

/-!
# Basic regular expressions

`expr_match` and `re_regex` from `fmt/regex.c`. The code parses and matches the expression in one
loop, restarting one byte further on at a mismatch. Above it, the expression's syntax is read on
its own (`parse`), a match is a relation between the input and the parsed items (`Matches`), and
a success of `re_regex` is a parse and a match from one position (`re_regex_sound`).
-/

namespace Libre.Fmt

-- `struct chr`: a range of lower-case bytes.
structure Chr where
  min : UInt8
  max : UInt8
  deriving DecidableEq, Repr

-- A `struct pl` that `re_regex` fills, as an offset from `ptr` and a length.
structure Pl where
  p : Nat
  l : Nat
  deriving DecidableEq, Repr

-- `tolower` of the C locale.
def tolower (c : UInt8) : UInt8 := if 'A'.toUInt8 ≤ c ∧ c ≤ 'Z'.toUInt8 then c + 32 else c

-- The `for` loop of `expr_match`: the index of the first range that holds `c`.
def rangeIndex (c : UInt8) : List Chr → Nat
  | [] => 0
  | r :: rest => if c < r.min ∨ c > r.max then rangeIndex c rest + 1 else 0

def exprMatch (chrv : Vector Chr 64) (n : Nat) (c : UInt8) (neg : Bool) : Bool :=
  let i := rangeIndex c (chrv.toList.take n)
  if neg then i == n else i != n

def UINT32_MAX : Nat := 4294967295

-- The quantifier after `]`: `nmin` and `nmax`, `-1` as a `uint32_t` for no bound.
def quantifier (c : UInt8) : Option (Nat × Nat) :=
  if c = '*'.toUInt8 then some (0, UINT32_MAX)
  else if c = '+'.toUInt8 then some (1, UINT32_MAX)
  else if '1'.toUInt8 ≤ c ∧ c ≤ '9'.toUInt8 then some ((c - '0'.toUInt8).toNat, (c - '0'.toUInt8).toNat)
  else none

/-! ## `re_regex` -/

-- The locals of `re_regex`: `p` an offset into the input and `l` the bytes left from it, and
-- `caps` the captures written since `again:`, in order. The class flags and `chrv` are set before
-- `again:` and keep their values across restarts; `n` never passes the size of `chrv`.
structure Regs where
  p : Nat
  l : Nat
  fm : Bool
  range : Bool
  ec : Bool
  neg : Bool
  qesc : Bool
  eesc : Bool
  n : Nat
  chrv : Vector Chr 64
  n_le : n ≤ 64
  caps : List Pl

-- What the body of the loop over the expression ends with: `continue`, `goto again` or `break`.
inductive Flow
  | next (r : Regs)
  | again (r : Regs)
  | stop (r : Regs)

-- `for (nm = 0; l && nm < nmax; nm++, p++, l--, lpl.l++)`, carrying `nm` and `p`.
def captureLoop (input : List UInt8) (chrv : Vector Chr 64) (n : Nat) (neg qesc : Bool)
    (nmax : Nat) : Bool → Bool → Nat → Nat → Nat → Nat
  | _, _, nm, _, 0 => nm
  | quote, esc, nm, p, l + 1 =>
    if nm < nmax then
      -- under `qesc` an escaped byte, a backslash, a quote and a quoted byte are stepped over
      if qesc ∧ esc then captureLoop input chrv n neg qesc nmax quote false (nm + 1) (p + 1) l
      else if qesc ∧ input[p]! = '\\'.toUInt8 then
        captureLoop input chrv n neg qesc nmax quote true (nm + 1) (p + 1) l
      else if qesc ∧ input[p]! = '"'.toUInt8 then
        captureLoop input chrv n neg qesc nmax (!quote) esc (nm + 1) (p + 1) l
      else if qesc ∧ quote then captureLoop input chrv n neg qesc nmax quote esc (nm + 1) (p + 1) l
      else if !exprMatch chrv n (tolower input[p]!) neg then nm
      else captureLoop input chrv n neg qesc nmax quote esc (nm + 1) (p + 1) l
    else nm

-- The class byte at `chr:`: the upper end of a range after `-`, a range of one byte otherwise. A
-- 65th range leaves the loop.
def addChr (r : Regs) (c : UInt8) : Flow :=
  if h : r.n ≥ 64 then .stop r
  else
    let e : Chr := ⟨if r.range then r.chrv[r.n].min else tolower c, tolower c⟩
    .next { r with chrv := r.chrv.set r.n e, range := false, n := r.n + 1, n_le := by omega }

-- The quantifier of a class and the capture it takes: the bytes the class takes from `p` on, less
-- an enclosing pair of quotes in a `~` class.
def quantify (input : List UInt8) (r : Regs) (nmin nmax : Nat) : Flow :=
  let taken := captureLoop input r.chrv r.n r.neg r.qesc nmax false false 0 r.p r.l
  let strip := r.qesc ∧ taken > 1 ∧ input[r.p]! = '"'.toUInt8 ∧ input[r.p + taken - 1]! = '"'.toUInt8
  let lpl : Pl := if strip then ⟨r.p + 1, taken - 2⟩ else ⟨r.p, taken⟩
  let nm := if strip then taken - 2 else taken
  if nm < nmin ∨ nm > nmax then .again r
  else
    .next { r with fm := false, p := r.p + taken, l := r.l - taken, eesc := false,
                   caps := r.caps ++ [lpl] }

-- The body of `for (; *ep; ep++)` on the expression byte `c`.
def exprStep (input : List UInt8) (r : Regs) (c : UInt8) : Flow :=
  if c = '\\'.toUInt8 ∧ r.eesc = false then .next { r with eesc := true }
  else if r.fm = false then
    -- start of a character class
    if c = '['.toUInt8 ∧ r.eesc = false then
      .next { r with n := 0, fm := true, ec := false, neg := false, range := false, qesc := false,
                     n_le := Nat.zero_le 64 }
    else if r.l = 0 then .stop r
    else if tolower c ≠ tolower input[r.p]! then .again r
    else .next { r with eesc := false, p := r.p + 1, l := r.l - 1 }
  else if r.ec then
    match quantifier c with
    | none => .stop r
    | some (nmin, nmax) => quantify input r nmin nmax
  else if r.eesc then addChr { r with eesc := false } c
  else if c = ']'.toUInt8 then .next { r with ec := true }
  else if c = '~'.toUInt8 ∧ r.n = 0 then .next { r with qesc := true, neg := true }
  else if c = '^'.toUInt8 ∧ r.n = 0 then .next { r with neg := true }
  else if c = '-'.toUInt8 ∧ r.n ≠ 0 ∧ r.range = false then
    .next { r with range := true, n := r.n - 1, n_le := Nat.le_trans (Nat.sub_le r.n 1) r.n_le }
  else addChr r c

-- How the loop over the expression is left: by `goto again`, or at `ep` by `break` or its end.
inductive Exit
  | again (r : Regs)
  | out (ep : List UInt8) (r : Regs)

def exprLoop (input : List UInt8) : List UInt8 → Regs → Exit
  | [], r => .out [] r
  | c :: ep, r =>
    match exprStep input r c with
    | .next r => exprLoop input ep r
    | .again r => .again r
    | .stop r => .out (c :: ep) r

-- `again:` from `ptr + start`, `len` bytes from there on: `l = len--; p = ptr++`. With no byte
-- left the code goes to `out` before the expression is read.
def attempts (input expr : List UInt8) (r : Regs) (start : Nat) : Nat → Except Errno (List Pl)
  | 0 => if expr = [] then .ok [] else .error .ENOENT
  | len + 1 =>
    match exprLoop input expr { r with eesc := false, fm := false, p := start, l := len + 1,
                                       caps := [] } with
    | .again r => attempts input expr r (start + 1) len
    | .out ep r => if r.fm then .error .EINVAL else if ep = [] then .ok r.caps else .error .ENOENT

-- `re_regex(ptr, len, expr, ...)`: the uninitialised `chrv` is read only where it was written.
def reRegex (input expr : List UInt8) : Except Errno (List Pl) :=
  attempts input expr
    ⟨0, 0, false, false, false, false, false, false, 0, Vector.replicate 64 ⟨0, 0⟩, Nat.zero_le 64, []⟩
    0 input.length

/-! ## The syntax of an expression and what a match is -/

-- A byte of the expression, and whether a backslash escapes it. A backslash that is not itself
-- escaped escapes the next byte; one at the end escapes nothing.
structure Tok where
  esc : Bool
  c : UInt8
  deriving DecidableEq, Repr

def tokenize : Bool → List UInt8 → List Tok
  | _, [] => []
  | eesc, c :: ep =>
    if c = '\\'.toUInt8 ∧ eesc = false then tokenize true ep else ⟨eesc, c⟩ :: tokenize false ep

-- A character class: its ranges, and whether it is negated and lets quotes and escapes through.
structure Cls where
  neg : Bool
  qesc : Bool
  ranges : List Chr
  deriving DecidableEq, Repr

-- The class takes a byte when some range holds it in lower case, or none does in a negated class.
def Cls.accepts (k : Cls) (c : UInt8) : Bool :=
  k.ranges.any (fun r => r.min ≤ tolower c ∧ tolower c ≤ r.max) != k.neg

-- A class byte: a range of it, or the upper end of the range whose low end is pending.
def Cls.push (k : Cls) (pending : Option Chr) (c : UInt8) : Cls :=
  { k with ranges := k.ranges ++ [⟨(pending.map Chr.min).getD (tolower c), tolower c⟩] }

inductive Item
  | lit (c : UInt8)
  | cls (k : Cls) (nmin nmax : Nat)
  deriving DecidableEq, Repr

-- Where the reading of an expression is: between items, inside a class (with the low end of a
-- range whose `-` has been read), or after the `]` of a class.
inductive PState
  | out
  | inCls (k : Cls) (pending : Option Chr)
  | closed (k : Cls)
  deriving DecidableEq, Repr

-- The items an expression is made of; `none` for a class that is not closed, a class with no
-- quantifier or more than 64 ranges.
def parse : PState → List Tok → Option (List Item)
  | .out, [] => some []
  | .inCls _ _, [] => none
  | .closed _, [] => none
  | .out, t :: ts =>
    if t.c = '['.toUInt8 ∧ t.esc = false then parse (.inCls ⟨false, false, []⟩ none) ts
    else (parse .out ts).map (.lit t.c :: ·)
  | .closed k, t :: ts =>
    match quantifier t.c with
    | none => none
    | some (nmin, nmax) => (parse .out ts).map (.cls k nmin nmax :: ·)
  | .inCls k pending, t :: ts =>
    if t.esc = false ∧ t.c = ']'.toUInt8 then parse (.closed k) ts
    else if t.esc = false ∧ t.c = '~'.toUInt8 ∧ k.ranges = [] then
      parse (.inCls { k with neg := true, qesc := true } pending) ts
    else if t.esc = false ∧ t.c = '^'.toUInt8 ∧ k.ranges = [] then
      parse (.inCls { k with neg := true } pending) ts
    else if t.esc = false ∧ t.c = '-'.toUInt8 ∧ k.ranges ≠ [] ∧ pending = none then
      parse (.inCls { k with ranges := k.ranges.dropLast } k.ranges.getLast?) ts
    else if k.ranges.length ≥ 64 then none
    else parse (.inCls (k.push pending t.c) none) ts

-- `ClassHolds k quote esc seg`: the class takes every byte of `seg` it judges. In a `~` class it
-- does not judge a byte after an escaping backslash, a backslash, a double quote, or a byte between
-- double quotes; `quote` and `esc` say where the segment starts.
def ClassHolds (k : Cls) : Bool → Bool → List UInt8 → Prop
  | _, _, [] => True
  | quote, esc, c :: seg =>
    if k.qesc ∧ esc then ClassHolds k quote false seg
    else if k.qesc ∧ c = '\\'.toUInt8 then ClassHolds k quote true seg
    else if k.qesc ∧ c = '"'.toUInt8 then ClassHolds k (!quote) esc seg
    else if k.qesc ∧ quote then ClassHolds k quote esc seg
    else k.accepts c = true ∧ ClassHolds k quote esc seg

-- The capture of the `m` bytes from `i`: without an enclosing pair of quotes in a `~` class.
def captureOf (k : Cls) (input : List UInt8) (i m : Nat) : Pl :=
  if k.qesc ∧ m > 1 ∧ input[i]! = '"'.toUInt8 ∧ input[i + m - 1]! = '"'.toUInt8 then ⟨i + 1, m - 2⟩
  else ⟨i, m⟩

-- The items match adjacent segments of the input from `i` on, and `caps` are the captures of the
-- classes: a literal one byte equal to it without case, a class the bytes it takes, as many as its
-- quantifier allows.
inductive Matches (input : List UInt8) : Nat → List Item → List Pl → Prop
  | nil (i : Nat) : Matches input i [] []
  | lit {i : Nat} {c : UInt8} {items : List Item} {caps : List Pl} (inside : i < input.length)
      (same : tolower input[i] = tolower c) (rest : Matches input (i + 1) items caps) :
      Matches input i (.lit c :: items) caps
  | cls {i m nmin nmax : Nat} {k : Cls} {items : List Item} {caps : List Pl}
      (inside : i + m ≤ input.length) (holds : ClassHolds k false false ((input.drop i).take m))
      (count : nmin ≤ (captureOf k input i m).l ∧ (captureOf k input i m).l ≤ nmax)
      (rest : Matches input (i + m) items caps) :
      Matches input i (.cls k nmin nmax :: items) (captureOf k input i m :: caps)

/-! ## `expr_match` and the capture loop -/

theorem rangeIndex_le (c : UInt8) (rs : List Chr) : rangeIndex c rs ≤ rs.length := by
  induction rs with
  | nil => simp [rangeIndex]
  | cons r rest ih =>
    rw [rangeIndex]
    split
    · simp only [List.length_cons]
      omega
    · simp

theorem rangeIndex_eq_length_iff (c : UInt8) (rs : List Chr) :
    rangeIndex c rs = rs.length ↔ rs.any (fun r => r.min ≤ c ∧ c ≤ r.max) = false := by
  induction rs with
  | nil => simp [rangeIndex]
  | cons r rest ih =>
    rw [rangeIndex]
    by_cases outside : c < r.min ∨ c > r.max
    next =>
      have miss : ¬(r.min ≤ c ∧ c ≤ r.max) := by
        rcases outside with lt | gt
        · exact fun h => absurd h.1 (UInt8.not_le.mpr lt)
        · exact fun h => absurd h.2 (UInt8.not_le.mpr gt)
      simp only [outside, if_true, List.length_cons, Nat.add_right_cancel_iff, ih, List.any_cons,
        decide_eq_false miss, Bool.false_or]
    next =>
      have hit : r.min ≤ c ∧ c ≤ r.max := by
        simp only [not_or, UInt8.not_lt, gt_iff_lt] at outside
        exact outside
      simp [outside, hit]

-- `expr_match` on a lower-cased byte is the class the first `n` ranges make.
theorem exprMatch_eq {chrv : Vector Chr 64} {n : Nat} (le : n ≤ 64) (neg qesc : Bool) (c : UInt8) :
    exprMatch chrv n (tolower c) neg = (⟨neg, qesc, chrv.toList.take n⟩ : Cls).accepts c := by
  have length : (chrv.toList.take n).length = n := by simp [le]
  have below := rangeIndex_le (tolower c) (chrv.toList.take n)
  have iff := rangeIndex_eq_length_iff (tolower c) (chrv.toList.take n)
  rw [length] at below iff
  unfold exprMatch Cls.accepts
  cases hit : (chrv.toList.take n).any (fun r => r.min ≤ tolower c ∧ tolower c ≤ r.max)
  · -- no range holds the byte: the loop runs to `n`
    have at_end := iff.mpr hit
    cases neg <;> simp [at_end]
  · have before : rangeIndex (tolower c) (chrv.toList.take n) ≠ n := fun at_end => by
      rw [iff.mp at_end] at hit
      cases hit
    cases neg <;> simp [before]

section Capture

variable (input : List UInt8) {chrv : Vector Chr 64} {n : Nat} (le : n ≤ 64) (neg qesc : Bool)
  (nmax : Nat)

theorem take_drop_succ {p : Nat} (inside : p < input.length) (d : Nat) :
    (input.drop p).take (d + 1) = input[p] :: (input.drop (p + 1)).take d := by
  rw [List.drop_eq_getElem_cons inside, List.take_succ_cons]

include le in
-- The loop takes `d` bytes from `p` on, no more than are left and than `nmax` allows, and the
-- class takes every byte of them it judges.
theorem captureLoop_spec (l : Nat) : ∀ (quote esc : Bool) (nm p : Nat), p + l = input.length →
    nm ≤ nmax → ∃ d, captureLoop input chrv n neg qesc nmax quote esc nm p l = nm + d ∧ d ≤ l ∧
      nm + d ≤ nmax ∧ ClassHolds ⟨neg, qesc, chrv.toList.take n⟩ quote esc ((input.drop p).take d) := by
  induction l with
  | zero => exact fun quote esc nm p _ bound => ⟨0, rfl, le_refl 0, by omega, trivial⟩
  | succ l ih =>
    intro quote esc nm p span bound
    have inside : p < input.length := by omega
    have byte : input[p]! = input[p] := getElem!_pos input p inside
    -- the loop goes on past the byte at `p`, from the quote and escape state after it
    have next : ∀ quote' esc', (∀ seg, ClassHolds ⟨neg, qesc, chrv.toList.take n⟩ quote' esc' seg →
        ClassHolds ⟨neg, qesc, chrv.toList.take n⟩ quote esc (input[p]! :: seg)) → nm < nmax →
        ∃ d, captureLoop input chrv n neg qesc nmax quote' esc' (nm + 1) (p + 1) l = nm + d ∧
          d ≤ l + 1 ∧ nm + d ≤ nmax ∧
          ClassHolds ⟨neg, qesc, chrv.toList.take n⟩ quote esc ((input.drop p).take d) := by
      intro quote' esc' step lt
      obtain ⟨d, loop, left, below, holds⟩ := ih quote' esc' (nm + 1) (p + 1) (by omega) lt
      refine ⟨d + 1, by rw [loop]; omega, by omega, by omega, ?_⟩
      rw [take_drop_succ input inside, ← byte]
      exact step _ holds
    rw [captureLoop]
    split_ifs with lt escaped backslash dquote quoted miss
    · exact next quote false (fun seg holds => by
        dsimp only [ClassHolds]
        rw [if_pos escaped]
        exact holds) lt
    · exact next quote true (fun seg holds => by
        dsimp only [ClassHolds]
        rw [if_neg escaped, if_pos backslash]
        exact holds) lt
    · exact next (!quote) esc (fun seg holds => by
        dsimp only [ClassHolds]
        rw [if_neg escaped, if_neg backslash, if_pos dquote]
        exact holds) lt
    · exact next quote esc (fun seg holds => by
        dsimp only [ClassHolds]
        rw [if_neg escaped, if_neg backslash, if_neg dquote, if_pos quoted]
        exact holds) lt
    · exact ⟨0, rfl, by omega, by omega, trivial⟩
    · -- a byte the class judges, and takes
      have accepted : exprMatch chrv n (tolower input[p]!) neg = true := by simpa using miss
      rw [exprMatch_eq le neg qesc] at accepted
      exact next quote esc (fun seg holds => by
        dsimp only [ClassHolds]
        rw [if_neg escaped, if_neg backslash, if_neg dquote, if_neg quoted]
        exact ⟨accepted, holds⟩) lt
    · exact ⟨0, rfl, by omega, by omega, trivial⟩

end Capture

/-! ## The code reads the expression as `parse` does -/

def Regs.cls (r : Regs) : Cls := ⟨r.neg, r.qesc, r.chrv.toList.take r.n⟩

def Regs.pending (r : Regs) : Option Chr :=
  if r.range then some (r.chrv.toList.getD r.n ⟨0, 0⟩) else none

def Regs.pstate (r : Regs) : PState :=
  if r.fm = false then .out else if r.ec then .closed r.cls else .inCls r.cls r.pending

theorem Regs.length_cls_ranges (r : Regs) : r.cls.ranges.length = r.n := by
  simp [Regs.cls, r.n_le]

theorem Regs.cls_ranges_eq_nil (r : Regs) : r.cls.ranges = [] ↔ r.n = 0 := by
  rw [← List.length_eq_zero_iff, r.length_cls_ranges]

theorem Regs.pending_eq_none (r : Regs) : r.pending = none ↔ r.range = false := by
  unfold Regs.pending
  cases r.range <;> simp

theorem take_set_succ (v : Vector Chr 64) {i : Nat} (lt : i < 64) (e : Chr) :
    (v.set i e).toList.take (i + 1) = v.toList.take i ++ [e] := by
  have len : i < v.toList.length := by simpa using lt
  rw [Vector.toList_set, List.take_set, List.take_succ_eq_append_getElem len,
    List.set_append_right _ _ (by simp)]
  simp [Nat.min_eq_left lt.le]

theorem take_pred (v : Vector Chr 64) {n : Nat} (pos : 0 < n) (le : n ≤ 64) :
    (v.toList.take n).dropLast = v.toList.take (n - 1) ∧
      (v.toList.take n).getLast? = some (v.toList.getD (n - 1) ⟨0, 0⟩) := by
  have len : n - 1 < v.toList.length := by simp; omega
  constructor
  · rw [List.dropLast_eq_take, List.take_take, List.length_take]
    congr 1
    simp
    omega
  · rw [List.getLast?_eq_getElem?, List.getD_eq_getElem _ _ len]
    simp [Nat.min_eq_left le, show n - 1 < n by omega]

-- The reads of a class byte: no input moves and no capture is written.
structure Regs.Stays (r r' : Regs) : Prop where
  p : r'.p = r.p
  l : r'.l = r.l
  caps : r'.caps = r.caps

theorem addChr_next {r r' : Regs} {c : UInt8} (fm : r.fm = true) (ec : r.ec = false)
    (h : addChr r c = .next r') :
    r.n < 64 ∧ r'.eesc = r.eesc ∧ r.Stays r' ∧ r'.pstate = .inCls (r.cls.push r.pending c) none := by
  unfold addChr at h
  split at h
  next => cases h
  next lt =>
    cases h
    refine ⟨by omega, rfl, ⟨rfl, rfl, rfl⟩, ?_⟩
    simp only [Regs.pstate, fm, ec, Bool.true_eq_false, if_false, Regs.cls, Cls.push, Regs.pending,
      take_set_succ _ (show r.n < 64 by omega)]
    cases r.range <;> simp [getElem?_pos, show r.n < 64 by omega]

-- `parse` on a byte inside the class the code is reading, with its tests as the code makes them.
theorem parse_inCls (r : Regs) (esc : Bool) (c : UInt8) (ts : List Tok) :
    parse (.inCls r.cls r.pending) (⟨esc, c⟩ :: ts) =
      if esc = false ∧ c = ']'.toUInt8 then parse (.closed r.cls) ts
      else if esc = false ∧ c = '~'.toUInt8 ∧ r.n = 0 then
        parse (.inCls { r.cls with neg := true, qesc := true } r.pending) ts
      else if esc = false ∧ c = '^'.toUInt8 ∧ r.n = 0 then
        parse (.inCls { r.cls with neg := true } r.pending) ts
      else if esc = false ∧ c = '-'.toUInt8 ∧ r.n ≠ 0 ∧ r.range = false then
        parse (.inCls { r.cls with ranges := r.cls.ranges.dropLast } r.cls.ranges.getLast?) ts
      else if r.n ≥ 64 then none
      else parse (.inCls (r.cls.push r.pending c) none) ts := by
  simp only [parse, r.cls_ranges_eq_nil, ne_eq, r.pending_eq_none, r.length_cls_ranges]

theorem inClass_next {input : List UInt8} {r r' : Regs} {c : UInt8} (fm : r.fm = true)
    (ec : r.ec = false) (tok : ¬(c = '\\'.toUInt8 ∧ r.eesc = false))
    (h : exprStep input r c = .next r') :
    r'.eesc = false ∧ r.Stays r' ∧ ∀ ts, parse r.pstate (⟨r.eesc, c⟩ :: ts) = parse r'.pstate ts := by
  have reading : r.pstate = .inCls r.cls r.pending := by simp [Regs.pstate, fm, ec]
  simp only [reading, parse_inCls]
  rw [exprStep, if_neg tok, if_neg (by simp [fm]), if_neg (by simp [ec])] at h
  split_ifs at h with escaped close tilde caret dash
  · -- an escaped byte is a byte of the class, whatever it is
    obtain ⟨lt, eesc, stays, after⟩ := @addChr_next { r with eesc := false } r' c fm ec h
    have lt : r.n < 64 := lt
    refine ⟨eesc, ⟨stays.p, stays.l, stays.caps⟩, fun ts => ?_⟩
    have plain : ∀ q : Prop, ¬(r.eesc = false ∧ q) := by simp [escaped]
    rw [if_neg (plain _), if_neg (plain _), if_neg (plain _), if_neg (plain _),
      if_neg (show ¬r.n ≥ 64 by omega), after]
    rfl
  all_goals
    have plain : r.eesc = false := by simpa using escaped
    simp only [plain, true_and]
  · -- `]` closes the class
    cases h
    refine ⟨plain, ⟨rfl, rfl, rfl⟩, fun ts => ?_⟩
    rw [if_pos close]
    simp [Regs.pstate, Regs.cls, fm]
  · -- `~` first: a negated class that lets quotes and escapes through
    cases h
    refine ⟨plain, ⟨rfl, rfl, rfl⟩, fun ts => ?_⟩
    rw [if_neg close, if_pos tilde]
    simp [Regs.pstate, Regs.cls, Regs.pending, fm, ec]
  · -- `^` first: a negated class
    cases h
    refine ⟨plain, ⟨rfl, rfl, rfl⟩, fun ts => ?_⟩
    rw [if_neg close, if_neg tilde, if_pos caret]
    simp [Regs.pstate, Regs.cls, Regs.pending, fm, ec]
  · -- `-` after a byte: the range it ended is taken back and waits for its upper end
    cases h
    refine ⟨plain, ⟨rfl, rfl, rfl⟩, fun ts => ?_⟩
    rw [if_neg close, if_neg tilde, if_neg caret, if_pos dash]
    have split := take_pred r.chrv (Nat.pos_of_ne_zero dash.2.1) r.n_le
    simp [Regs.pstate, Regs.cls, Regs.pending, fm, ec, split]
  · obtain ⟨lt, eesc, stays, after⟩ := addChr_next fm ec h
    refine ⟨eesc.trans plain, stays, fun ts => ?_⟩
    rw [if_neg close, if_neg tilde, if_neg caret, if_neg dash, if_neg (show ¬r.n ≥ 64 by omega), after]

-- `r` reads the token `t` and then is `r'`: a parse and a match from `r'` of what follows give a
-- parse and a match from `r` of `t` and what follows, with the captures `r` has not yet written.
def Back (input : List UInt8) (r r' : Regs) (t : Tok) : Prop :=
  ∀ ts items caps, parse r'.pstate ts = some items → Matches input r'.p items caps →
    ∃ items₀ caps₀, parse r.pstate (t :: ts) = some items₀ ∧ Matches input r.p items₀ caps₀ ∧
      r'.caps ++ caps = r.caps ++ caps₀

theorem Back.of_stays {input : List UInt8} {r r' : Regs} {t : Tok} (stays : r.Stays r')
    (same : ∀ ts, parse r.pstate (t :: ts) = parse r'.pstate ts) : Back input r r' t := by
  intro ts items caps parsed matched
  exact ⟨items, caps, (same ts).trans parsed, stays.p ▸ matched, by rw [stays.caps]⟩

theorem outside_next {input : List UInt8} {r r' : Regs} {c : UInt8} (fm : r.fm = false)
    (tok : ¬(c = '\\'.toUInt8 ∧ r.eesc = false)) (span : r.p + r.l = input.length)
    (h : exprStep input r c = .next r') :
    r'.eesc = false ∧ r'.p + r'.l = input.length ∧ Back input r r' ⟨r.eesc, c⟩ := by
  have between : r.pstate = .out := by simp [Regs.pstate, fm]
  rw [exprStep, if_neg tok, if_pos fm] at h
  split_ifs at h with open_ empty differ
  · cases h
    refine ⟨open_.2, span, Back.of_stays ⟨rfl, rfl, rfl⟩ fun ts => ?_⟩
    rw [between, open_.1, open_.2]
    simp [parse, Regs.pstate, Regs.cls, Regs.pending]
  · cases h
    have inside : r.p < input.length := by omega
    refine ⟨rfl, by simp only; omega, fun ts items caps parsed matched => ?_⟩
    have same : tolower input[r.p] = tolower c := by
      rw [← getElem!_pos input r.p inside]
      exact (Decidable.not_not.mp differ).symm
    refine ⟨.lit c :: items, caps, ?_, .lit inside same matched, rfl⟩
    have after : (⟨r.eesc, c⟩ : Tok).c = '['.toUInt8 ∧ (⟨r.eesc, c⟩ : Tok).esc = false ↔ False := by
      simpa using open_
    simp only [Regs.pstate, fm, if_true] at parsed
    simp only [between, parse, after, if_false, parsed, Option.map_some]

theorem quantify_eq (input : List UInt8) (r : Regs) (nmin nmax : Nat) {taken : Nat}
    (loop : captureLoop input r.chrv r.n r.neg r.qesc nmax false false 0 r.p r.l = taken) :
    quantify input r nmin nmax =
      if (captureOf r.cls input r.p taken).l < nmin ∨ (captureOf r.cls input r.p taken).l > nmax then
        .again r
      else .next { r with fm := false, p := r.p + taken, l := r.l - taken, eesc := false,
                          caps := r.caps ++ [captureOf r.cls input r.p taken] } := by
  subst loop
  unfold quantify captureOf Regs.cls
  dsimp only
  split <;> rfl

theorem quantify_next {input : List UInt8} {r r' : Regs} {nmin nmax : Nat} {t : Tok}
    (span : r.p + r.l = input.length) (fm : r.fm = true) (ec : r.ec = true)
    (q : quantifier t.c = some (nmin, nmax)) (h : quantify input r nmin nmax = .next r') :
    r'.eesc = false ∧ r'.p + r'.l = input.length ∧ Back input r r' t := by
  obtain ⟨d, loop, left, below, holds⟩ :=
    captureLoop_spec input r.n_le r.neg r.qesc nmax r.l false false 0 r.p span (Nat.zero_le _)
  rw [Nat.zero_add] at loop below
  rw [quantify_eq input r nmin nmax loop] at h
  split at h
  next => cases h
  next count =>
    cases h
    refine ⟨rfl, by simp only; omega, fun ts items caps parsed matched => ?_⟩
    refine ⟨.cls r.cls nmin nmax :: items, captureOf r.cls input r.p d :: caps, ?_,
      .cls (by omega) holds ⟨by omega, by omega⟩ matched, by simp⟩
    simp only [Regs.pstate, if_true] at parsed
    simp only [Regs.pstate, fm, ec, Bool.true_eq_false, if_false, if_true, parse, q, parsed,
      Option.map_some]

theorem exprStep_next {input : List UInt8} {r r' : Regs} {c : UInt8}
    (span : r.p + r.l = input.length) (tok : ¬(c = '\\'.toUInt8 ∧ r.eesc = false))
    (h : exprStep input r c = .next r') :
    r'.eesc = false ∧ r'.p + r'.l = input.length ∧ Back input r r' ⟨r.eesc, c⟩ := by
  cases fm : r.fm
  case false => exact outside_next fm tok span h
  case true =>
    cases ec : r.ec
    case false =>
      obtain ⟨eesc, stays, same⟩ := inClass_next fm ec tok h
      exact ⟨eesc, by rw [stays.p, stays.l]; exact span, Back.of_stays stays same⟩
    case true =>
      rw [exprStep, if_neg tok, if_neg (by simp [fm]), if_pos ec] at h
      split at h
      next => cases h
      next nmin nmax q => exact quantify_next span fm ec q h

/-! ## Runs of the loop and of the restarts -/

-- By induction on the rest of the expression: a loop that reads it to its end outside a class
-- has read a parse of it and matched the input from where it was.
theorem exprLoop_sound {input : List UInt8} (ep : List UInt8) : ∀ (r r' : Regs),
    r.p + r.l = input.length → exprLoop input ep r = .out [] r' → r'.fm = false →
    ∃ items caps, parse r.pstate (tokenize r.eesc ep) = some items ∧
      Matches input r.p items caps ∧ r'.caps = r.caps ++ caps := by
  induction ep with
  | nil =>
    intro r r' _ ran done
    cases ran
    exact ⟨[], [], by simp [tokenize, Regs.pstate, done, parse], .nil _, by simp⟩
  | cons c ep ih =>
    intro r r' span ran done
    rw [exprLoop] at ran
    split at ran
    next r₁ stepped =>
      by_cases escape : c = '\\'.toUInt8 ∧ r.eesc = false
      · -- a backslash that escapes the next byte: nothing else changes
        rw [exprStep, if_pos escape] at stepped
        cases stepped
        obtain ⟨items, caps, parsed, matched, written⟩ := ih { r with eesc := true } r' span ran done
        refine ⟨items, caps, ?_, matched, written⟩
        simpa [tokenize, escape, Regs.pstate, Regs.cls, Regs.pending] using parsed
      · obtain ⟨eesc, span₁, back⟩ := exprStep_next span escape stepped
        obtain ⟨items, caps, parsed, matched, written⟩ := ih r₁ r' span₁ ran done
        rw [eesc] at parsed
        obtain ⟨items₀, caps₀, parsed₀, matched₀, written₀⟩ := back _ items caps parsed matched
        refine ⟨items₀, caps₀, ?_, matched₀, written.trans written₀⟩
        simpa [tokenize, escape] using parsed₀
    next => cases ran
    next => cases ran

theorem attempts_sound {input expr : List UInt8} (len : Nat) : ∀ (start : Nat) (r : Regs)
    (caps : List Pl), start + len = input.length → attempts input expr r start len = .ok caps →
    ∃ items i, parse .out (tokenize false expr) = some items ∧ i ≤ input.length ∧
      Matches input i items caps := by
  induction len with
  | zero =>
    intro start r caps span ran
    rw [attempts] at ran
    split at ran
    next empty =>
      cases ran
      exact ⟨[], start, by simp [empty, tokenize, parse], by omega, .nil _⟩
    next => cases ran
  | succ len ih =>
    intro start r caps span ran
    rw [attempts] at ran
    split at ran
    next r' again => exact ih (start + 1) r' caps (by omega) ran
    next ep r' out =>
      split at ran
      next => cases ran
      next fm =>
        split at ran
        next ended =>
          cases ran
          subst ended
          obtain ⟨items, caps, parsed, matched, written⟩ :=
            exprLoop_sound expr _ r' (by simp only; omega) out (by simpa using fm)
          exact ⟨items, start, by simpa [Regs.pstate] using parsed, by omega, by simpa [written] using matched⟩
        next => cases ran

/-! ## What a match gives -/

theorem Matches.captures {input : List UInt8} {i : Nat} {items : List Item} {caps : List Pl}
    (m : Matches input i items caps) :
    (∀ cap ∈ caps, i ≤ cap.p ∧ cap.p + cap.l ≤ input.length) ∧
      caps.Pairwise (fun a b => a.p + a.l ≤ b.p) := by
  induction m with
  | nil => simp
  | lit inside same rest ih =>
    exact ⟨fun cap mem => ⟨by have := (ih.1 cap mem).1; omega, (ih.1 cap mem).2⟩, ih.2⟩
  | @cls i m nmin nmax k items caps inside holds count rest ih =>
    have within : i ≤ (captureOf k input i m).p ∧
        (captureOf k input i m).p + (captureOf k input i m).l ≤ i + m := by
      unfold captureOf
      split <;> simp only <;> omega
    refine ⟨fun cap mem => ?_, List.pairwise_cons.mpr ⟨fun cap mem => ?_, ih.2⟩⟩
    · rcases List.mem_cons.mp mem with rfl | later
      · exact ⟨within.1, by omega⟩
      · have := ih.1 cap later
        omega
    · have := ih.1 cap mem
      omega

/-- A success of `re_regex` is a parse of the expression and a match of the input from one
position, and its captures lie in order, apart, inside the input. -/
theorem re_regex_sound (input expr : List UInt8) (caps : List Pl) (ok : reRegex input expr = .ok caps) :
    ∃ items i, parse .out (tokenize false expr) = some items ∧ i ≤ input.length ∧
      Matches input i items caps ∧ (∀ cap ∈ caps, i ≤ cap.p ∧ cap.p + cap.l ≤ input.length) ∧
      caps.Pairwise (fun a b => a.p + a.l ≤ b.p) := by
  obtain ⟨items, i, parsed, start, matched⟩ :=
    attempts_sound input.length 0 _ caps (Nat.zero_add _) ok
  exact ⟨items, i, parsed, start, matched, matched.captures.1, matched.captures.2⟩

-- The example of the source's documentation: the digits of "foo 42 bar".
theorem re_regex_sound_doc_example :
    reRegex (cstr "foo 42 bar") (cstr "[0-9]+") = .ok [⟨4, 2⟩] ∧
    ∃ items i, parse .out (tokenize false (cstr "[0-9]+")) = some items ∧
      i ≤ (cstr "foo 42 bar").length ∧ Matches (cstr "foo 42 bar") i items [⟨4, 2⟩] ∧
      (∀ cap ∈ [(⟨4, 2⟩ : Pl)], i ≤ cap.p ∧ cap.p + cap.l ≤ (cstr "foo 42 bar").length) ∧
      [(⟨4, 2⟩ : Pl)].Pairwise (fun a b => a.p + a.l ≤ b.p) :=
  ⟨by decide, re_regex_sound _ _ _ (by decide)⟩

-- In a `~` class the byte after a backslash is not judged: `[~,]*` takes all of `a\,b`, whose
-- comma the class refuses and which has no quote at all.
theorem re_regex_escaped_comma :
    reRegex (cstr "a\\,b") (cstr "[~,]*") = .ok [⟨0, 4⟩] ∧
      parse .out (tokenize false (cstr "[~,]*")) =
        some [.cls ⟨true, true, [⟨','.toUInt8, ','.toUInt8⟩]⟩ 0 UINT32_MAX] ∧
      (⟨true, true, [⟨','.toUInt8, ','.toUInt8⟩]⟩ : Cls).accepts (cstr "a\\,b")[2]! = false ∧
      '"'.toUInt8 ∉ cstr "a\\,b" := by
  decide

end Libre.Fmt
