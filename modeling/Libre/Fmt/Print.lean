import Mathlib.Data.Nat.Digits.Lemmas

set_option autoImplicit false

/-!
# Formatted printing

`vhprintf` from `fmt/print.c` for plain text, `%%`, the flags and widths, the length modifiers
`l`, `L` and `z`, and the conversions `c`, `d`, `i`, `u`, `x` and `X`, with `write_padded`,
`local_itoa` and `re_snprintf`. The output handler is a parameter. A format with another
conversion, or arguments that do not give a conversion the width it reads, is `none`.
-/

namespace Libre.Fmt

-- A variadic argument as `va_arg` finds it: `int`, `unsigned` and a promoted `char` take a 32-bit
-- word, the `long`, `long long`, `int64_t` and `size_t` kinds a 64-bit one.
inductive Arg
  | word (bits : UInt32)
  | dword (bits : UInt64)
  deriving DecidableEq, Repr

def LENMOD_NONE : Nat := 0
def LENMOD_LONG : Nat := 1
def LENMOD_LONG_LONG : Nat := 2
def LENMOD_INT64 : Nat := 3
def LENMOD_SIZE : Nat := 42

-- `RE_VA_ARG` for `%d`: `signed` without a length modifier, a 64-bit kind with any other.
def readSigned (lenmod : Nat) : List Arg → Option (Int64 × List Arg)
  | .word b :: rest => if lenmod = LENMOD_NONE then some (b.toInt32.toInt64, rest) else none
  | .dword b :: rest => if lenmod = LENMOD_NONE then none else some (b.toInt64, rest)
  | [] => none

def readUnsigned (lenmod : Nat) : List Arg → Option (UInt64 × List Arg)
  | .word b :: rest => if lenmod = LENMOD_NONE then some (b.toUInt64, rest) else none
  | .dword b :: rest => if lenmod = LENMOD_NONE then none else some (b, rest)
  | [] => none

-- `RE_VA_ARG(ap, ch, int, safe)` of `%c`.
def readInt : List Arg → Option (UInt32 × List Arg)
  | .word b :: rest => some (b, rest)
  | _ => none

def itoaDigit (c : Nat) (uc : Bool) : UInt8 :=
  if c < 10 then '0'.toUInt8 + UInt8.ofNat c
  else (if uc then 'A'.toUInt8 else 'a'.toUInt8) + UInt8.ofNat (c - 10)

-- The `do .. while (n != 0)` of `local_itoa`: digits are put in front, lowest first. `base` is
-- 10 or 16 at every call.
def itoaLoop (base : Nat) (two : 2 ≤ base) (uc : Bool) (n : Nat) (acc : List UInt8) : List UInt8 :=
  let dv := n / base
  let acc := itoaDigit (n - dv * base) uc :: acc
  if dv = 0 then acc else itoaLoop base two uc dv acc
termination_by n
decreasing_by
  rename_i more
  exact Nat.div_lt_self (Nat.pos_of_ne_zero (fun zero => more (by simp [dv, zero]))) two

def localItoa (n : UInt64) (base : Nat) (two : 2 ≤ base) (uc : Bool) : List UInt8 :=
  itoaLoop base two uc n.toNat []

section Handler

variable {σ : Type} (vph : σ → List UInt8 → σ × Bool)

-- One call `err |= vph(p, size, arg)`.
def emit (s : σ × Bool) (chunk : List UInt8) : σ × Bool :=
  let r := vph s.1 chunk
  (r.1, s.2 || r.2)

-- The loops `while (pad-- > sz) vph(&pch, 1, arg)`, one chunk a character.
def emitPad (pch : UInt8) : Nat → σ × Bool → σ × Bool
  | 0, s => s
  | n + 1, s => emitPad pch n (emit vph s [pch])

def writePadded (p : List UInt8) (pad : Nat) (pch : UInt8) (plr : Bool) (prfx : Option (List UInt8))
    (s : σ × Bool) : σ × Bool :=
  let prfx_len := (prfx.getD []).length
  let pad := pad - min pad prfx_len
  let s := if prfx.isSome ∧ pch = '0'.toUInt8 then emit vph s (prfx.getD []) else s
  let s := if !plr then emitPad vph pch (pad - p.length) s else s
  let s := if prfx.isSome ∧ pch ≠ '0'.toUInt8 then emit vph s (prfx.getD []) else s
  let s := if p ≠ [] then emit vph s p else s
  if plr then emitPad vph pch (pad - p.length) s else s

-- What a directive has set so far. `fpad` only matters to `%f`, which is not modelled.
structure Spec where
  pch : UInt8
  plr : Bool
  pad : Nat
  lenmod : Nat
  uc : Bool

def Spec.reset : Spec := ⟨' '.toUInt8, false, 0, LENMOD_NONE, false⟩

structure Scan (σ : Type) where
  out : σ × Bool
  fm : Bool
  spec : Spec
  p0 : Nat
  args : List Arg

def numPch (spec : Spec) : UInt8 := if spec.plr then ' '.toUInt8 else spec.pch

-- The `switch (*p)` on the character after `%` and its flags; `fm` is cleared before it.
def convert (c : UInt8) (st : Scan σ) : Option (Scan σ) :=
  let spec := st.spec
  if c = '-'.toUInt8 then some { st with spec := { spec with plr := true }, fm := true }
  else if c = '.'.toUInt8 then some { st with spec := { spec with pad := 0 }, fm := true }
  else if c = '%'.toUInt8 then some { st with out := emit vph st.out ['%'.toUInt8] }
  else if c = 'c'.toUInt8 then
    (readInt st.args).map fun (ch, args) =>
      { st with out := writePadded vph [ch.toUInt8] spec.pad ' '.toUInt8 spec.plr none st.out, args }
  else if c = 'd'.toUInt8 ∨ c = 'i'.toUInt8 then
    (readSigned spec.lenmod st.args).map fun (sn, args) =>
      let num := localItoa (if sn < 0 then -sn else sn).toUInt64 10 (by decide) false
      let out := writePadded vph num spec.pad (numPch spec) spec.plr
        (if sn < 0 then some ['-'.toUInt8] else none) st.out
      { st with out, args }
  else if c = 'l'.toUInt8 then some { st with spec := { spec with lenmod := spec.lenmod + 1 }, fm := true }
  else if c = 'X'.toUInt8 ∨ c = 'x'.toUInt8 ∨ c = 'u'.toUInt8 then
    let base := if c = 'u'.toUInt8 then 10 else 16
    let uc := if c = 'X'.toUInt8 then true else spec.uc
    (readUnsigned spec.lenmod st.args).map fun (n, args) =>
      let num := localItoa n base (by simp only [base]; split <;> decide) uc
      { st with out := writePadded vph num spec.pad (numPch spec) spec.plr none st.out, args }
  else if c = 'z'.toUInt8 then some { st with spec := { spec with lenmod := LENMOD_SIZE }, fm := true }
  else if c = 'L'.toUInt8 then some { st with spec := { spec with lenmod := LENMOD_INT64 }, fm := true }
  else if c ∈ ['b', 'f', 'F', 'H', 'm', 'p', 'r', 's', 'v', 'W', 'w', 'j', 'J'].map Char.toUInt8 then none
  else if '0'.toUInt8 ≤ c ∧ c ≤ '9'.toUInt8 then
    if spec.pad = 0 ∧ c = '0'.toUInt8 then some { st with spec := { spec with pch := '0'.toUInt8 }, fm := true }
    -- `pad` is a `size_t`
    else some { st with spec := { spec with pad := (spec.pad * 10 + (c - '0'.toUInt8).toNat) % 2 ^ 64 }, fm := true }
  else some { st with out := emit vph st.out ['?'.toUInt8] }

def step (fmt : List UInt8) (p : Nat) (c : UInt8) (st : Scan σ) : Option (Scan σ) :=
  if !st.fm then
    if c ≠ '%'.toUInt8 then some st
    else
      let out := if p > st.p0 then emit vph st.out (fmt.extract st.p0 p) else st.out
      some { st with out, fm := true, spec := Spec.reset }
  else
    (convert vph c { st with fm := false }).map fun st' =>
      if !st'.fm then { st' with p0 := p + 1 } else st'

-- `for (; *p && !err; p++)`: the index after the last character read comes back.
def scanLoop (fmt : List UInt8) : List UInt8 → Nat → Scan σ → Option (Scan σ × Nat)
  | [], p, st => some (st, p)
  | c :: rest, p, st =>
    match step vph fmt p c st with
    | none => none
    | some st => if st.out.2 then some (st, p + 1) else scanLoop fmt rest (p + 1) st

def vhprintf (fmt : List UInt8) (args : List Arg) (s : σ) : Option (σ × Bool) :=
  (scanLoop vph fmt fmt 0 ⟨(s, false), false, Spec.reset, 0, args⟩).map fun (st, p) =>
    if !st.fm ∧ p > st.p0 then emit vph st.out (fmt.extract st.p0 p) else st.out

end Handler

-- `print_handler` of `re_snprintf`: the text so far and the room left; a chunk that does not fit
-- is refused whole.
def printHandler (s : List UInt8 × Nat) (chunk : List UInt8) : (List UInt8 × Nat) × Bool :=
  if chunk.length > s.2 then (s, true) else ((s.1 ++ chunk, s.2 - chunk.length), false)

-- `print_handler_dyn` of `re_sdprintf` with memory to spare: every chunk is appended.
def printHandlerDyn (s : List UInt8) (chunk : List UInt8) : List UInt8 × Bool := (s ++ chunk, false)

-- The count comes back through `(int)(size - pl.l - 1)`, which keeps its low 32 bits.
def reSnprintf (size : Nat) (fmt : List UInt8) (args : List Arg) : Option (List UInt8 × Int32) :=
  if size = 0 then some ([], -1)
  else
    (vhprintf printHandler fmt args ([], size - 1)).map fun ((text, _), err) =>
      (text, if err then -1 else Int32.ofNat text.length)

-- The bytes of an ASCII C string literal, without its terminating zero.
def cstr (s : String) : List UInt8 := s.toList.map Char.toUInt8

/-! ## What a directive writes -/

section Writes

variable {σ : Type} {vph : σ → List UInt8 → σ × Bool} {text : σ → List UInt8} {room : σ → Nat}

-- A handler that appends every chunk it has room for and reports no error for it.
structure Sink (vph : σ → List UInt8 → σ × Bool) (text : σ → List UInt8) (room : σ → Nat) : Prop where
  accept : ∀ s c, c.length ≤ room s →
    (vph s c).2 = false ∧ text (vph s c).1 = text s ++ c ∧ room s - c.length ≤ room (vph s c).1

-- From every state with room for `t`, `f` appends `t` and leaves the error flag as it was.
def Writes (text : σ → List UInt8) (room : σ → Nat) (f : σ × Bool → σ × Bool) (t : List UInt8) : Prop :=
  ∀ s : σ × Bool, t.length ≤ room s.1 →
    (f s).2 = s.2 ∧ text (f s).1 = text s.1 ++ t ∧ room s.1 - t.length ≤ room (f s).1

theorem writes_id : Writes text room (fun s => s) [] := fun s _ => ⟨rfl, by simp, by simp⟩

theorem Writes.comp {f g : σ × Bool → σ × Bool} {t u : List UInt8} (hf : Writes text room f t)
    (hg : Writes text room g u) : Writes text room (g ∘ f) (t ++ u) := by
  intro s fits
  rw [List.length_append] at fits
  obtain ⟨err, out, left⟩ := hf s (by omega)
  obtain ⟨err', out', left'⟩ := hg (f s) (by omega)
  refine ⟨err'.trans err, by simp [out', out], ?_⟩
  rw [List.length_append]
  simp only [Function.comp]
  omega

theorem Writes.ite {f : σ × Bool → σ × Bool} {t : List UInt8} (c : Prop) [Decidable c]
    (hf : Writes text room f t) : Writes text room (fun s => if c then f s else s) (if c then t else []) := by
  by_cases hc : c
  · simpa [hc] using hf
  · simpa [hc] using (writes_id : Writes text room (fun s => s) [])

theorem writes_emit (sink : Sink vph text room) (c : List UInt8) :
    Writes text room (emit vph · c) c := by
  intro s fits
  obtain ⟨err, out, left⟩ := sink.accept s.1 c fits
  exact ⟨by simp [emit, err], out, left⟩

theorem writes_emitPad (sink : Sink vph text room) (pch : UInt8) (n : Nat) :
    Writes text room (emitPad vph pch n) (List.replicate n pch) := by
  induction n with
  | zero => exact writes_id
  | succ n ih =>
    intro s fits
    have step := (writes_emit sink [pch]).comp ih s (by simpa [List.replicate_succ] using fits)
    simpa [emitPad, List.replicate_succ] using step

-- The text of `write_padded`, piece by piece in the order of its calls.
def paddedText (p : List UInt8) (pad : Nat) (pch : UInt8) (plr : Bool) (prfx : Option (List UInt8)) :
    List UInt8 :=
  let prfx_len := (prfx.getD []).length
  let pad := pad - min pad prfx_len
  (if prfx.isSome ∧ pch = '0'.toUInt8 then prfx.getD [] else []) ++
    (if !plr then List.replicate (pad - p.length) pch else []) ++
    (if prfx.isSome ∧ pch ≠ '0'.toUInt8 then prfx.getD [] else []) ++ p ++
    (if plr then List.replicate (pad - p.length) pch else [])

theorem writes_writePadded (sink : Sink vph text room) (p : List UInt8) (pad : Nat) (pch : UInt8)
    (plr : Bool) (prfx : Option (List UInt8)) :
    Writes text room (writePadded vph p pad pch plr prfx) (paddedText p pad pch plr prfx) := by
  let pad' := pad - min pad (prfx.getD []).length
  have pieces :=
    ((((Writes.ite (prfx.isSome ∧ pch = '0'.toUInt8) (writes_emit sink (prfx.getD []))).comp
      (Writes.ite (!plr) (writes_emitPad sink pch (pad' - p.length)))).comp
      (Writes.ite (prfx.isSome ∧ pch ≠ '0'.toUInt8) (writes_emit sink (prfx.getD [])))).comp
      (Writes.ite (p ≠ []) (writes_emit sink p))).comp
      (Writes.ite plr (writes_emitPad sink pch (pad' - p.length)))
  have nonempty : (if p ≠ [] then p else []) = p := by split <;> simp_all
  rw [nonempty] at pieces
  exact pieces

theorem sink_printHandler : Sink printHandler Prod.fst Prod.snd := by
  constructor
  intro s c fits
  simp [printHandler, Nat.not_lt.mpr fits]

theorem sink_printHandlerDyn (room : Nat) : Sink printHandlerDyn id fun _ => room := by
  constructor
  intro s c _
  simp [printHandlerDyn]

end Writes

/-! ## The calls of `write_padded`

Whatever the handler answers, `write_padded` makes the same calls (`writePadded_foldl`). -/

-- The chunks `write_padded` hands to the handler, in the order of its calls.
def paddedChunks (p : List UInt8) (pad : Nat) (pch : UInt8) (plr : Bool)
    (prfx : Option (List UInt8)) : List (List UInt8) :=
  let prfx_len := (prfx.getD []).length
  let pad := pad - min pad prfx_len
  (if prfx.isSome ∧ pch = '0'.toUInt8 then [prfx.getD []] else []) ++
    (if !plr then List.replicate (pad - p.length) [pch] else []) ++
    (if prfx.isSome ∧ pch ≠ '0'.toUInt8 then [prfx.getD []] else []) ++
    (if p ≠ [] then [p] else []) ++
    (if plr then List.replicate (pad - p.length) [pch] else [])

section Chunks

variable {σ : Type} (vph : σ → List UInt8 → σ × Bool)

theorem foldl_ite {α β : Type} (f : α → β → α) (c : Prop) [Decidable c] (xs : List β) (s : α) :
    (if c then xs else []).foldl f s = if c then xs.foldl f s else s := by
  split <;> rfl

theorem emitPad_foldl (pch : UInt8) (n : Nat) (s : σ × Bool) :
    emitPad vph pch n s = (List.replicate n [pch]).foldl (emit vph) s := by
  induction n generalizing s with
  | zero => rfl
  | succ n ih => rw [emitPad, ih, List.replicate_succ, List.foldl_cons]

theorem writePadded_foldl (p : List UInt8) (pad : Nat) (pch : UInt8) (plr : Bool)
    (prfx : Option (List UInt8)) (s : σ × Bool) :
    writePadded vph p pad pch plr prfx s = (paddedChunks p pad pch plr prfx).foldl (emit vph) s := by
  simp only [writePadded, paddedChunks, List.foldl_append, foldl_ite, List.foldl_cons,
    List.foldl_nil, emitPad_foldl]

end Chunks

theorem flatten_paddedChunks (p : List UInt8) (pad : Nat) (pch : UInt8) (plr : Bool)
    (prfx : Option (List UInt8)) :
    (paddedChunks p pad pch plr prfx).flatten = paddedText p pad pch plr prfx := by
  have string : (if p ≠ [] then [p] else []).flatten = p := by
    split
    · rw [List.flatten_singleton]
    · simp_all
  simp only [paddedChunks, paddedText, List.flatten_append, string]
  split_ifs <;> simp

/-- The pieces in order: with `pch = '0'` the prefix comes before the zeros, otherwise the pad
characters come before the prefix, or after the string when `plr`. -/
theorem paddedText_layout (p : List UInt8) (pad : Nat) (pch : UInt8) (plr : Bool)
    (prfx : Option (List UInt8)) :
    paddedText p pad pch plr prfx =
      let fill := List.replicate (pad - ((prfx.getD []).length + p.length)) pch
      if pch = '0'.toUInt8 then prfx.getD [] ++ (if plr then p ++ fill else fill ++ p)
      else if plr then prfx.getD [] ++ p ++ fill else fill ++ prfx.getD [] ++ p := by
  have count : pad - min pad (prfx.getD []).length - p.length =
      pad - ((prfx.getD []).length + p.length) := by omega
  simp only [paddedText, count]
  cases prfx <;> cases plr <;> by_cases zero : pch = '0'.toUInt8 <;> simp [zero]

theorem length_paddedText (p : List UInt8) (pad : Nat) (pch : UInt8) (plr : Bool)
    (prfx : Option (List UInt8)) :
    (paddedText p pad pch plr prfx).length = max pad ((prfx.getD []).length + p.length) := by
  rw [paddedText_layout]
  split_ifs <;> simp <;> omega

/-- `write_padded` hands the handler the chunks of `paddedChunks`, whatever it answers; together
they are `max(pad, |prfx| + sz)` bytes: the prefix, the string and the pad characters, the
prefix before the zeros when `pch = '0'`, the pad characters before the prefix otherwise, or
after the string when `plr`. -/
theorem write_padded_output {σ : Type} (vph : σ → List UInt8 → σ × Bool) (s : σ × Bool)
    (p : List UInt8) (pad : Nat) (pch : UInt8) (plr : Bool) (prfx : Option (List UInt8)) :
    writePadded vph p pad pch plr prfx s = (paddedChunks p pad pch plr prfx).foldl (emit vph) s ∧
    (paddedChunks p pad pch plr prfx).flatten.length =
      max pad ((prfx.getD []).length + p.length) ∧
    (paddedChunks p pad pch plr prfx).flatten =
      (let fill := List.replicate (pad - ((prfx.getD []).length + p.length)) pch
      if pch = '0'.toUInt8 then prfx.getD [] ++ (if plr then p ++ fill else fill ++ p)
      else if plr then prfx.getD [] ++ p ++ fill else fill ++ prfx.getD [] ++ p) := by
  refine ⟨writePadded_foldl vph p pad pch plr prfx s, ?_, ?_⟩
  · rw [flatten_paddedChunks, length_paddedText]
  · rw [flatten_paddedChunks, paddedText_layout]

-- "-5" in a width of four with zeros, as `%04d` prints it: the sign, two zeros, the digit.
example : paddedText [53] 4 48 false (some [45]) = [45, 48, 48, 53] := by decide

-- The digits `local_itoa` prints, lowest first: there is always one.
def itoaDigits (base n : Nat) : List Nat := if n = 0 then [0] else Nat.digits base n

section Itoa

variable {base : Nat} (two : 2 ≤ base) (uc : Bool)

theorem itoaLoop_zero (acc : List UInt8) : itoaLoop base two uc 0 acc = itoaDigit 0 uc :: acc := by
  rw [itoaLoop]
  simp

theorem itoaLoop_digits (n : Nat) (pos : 0 < n) (acc : List UInt8) :
    itoaLoop base two uc n acc = ((Nat.digits base n).map (itoaDigit · uc)).reverse ++ acc := by
  induction n using Nat.strong_induction_on generalizing acc with
  | _ n ih =>
    have low : n - n / base * base = n % base := by
      rw [Nat.mod_eq_sub_div_mul]
    rw [itoaLoop, Nat.digits_def' (by omega) pos]
    simp only [low]
    split
    · next last => simp [last]
    · next more =>
      rw [ih (n / base) (Nat.div_lt_self pos (by omega)) (Nat.pos_of_ne_zero more)]
      simp

theorem localItoa_eq (n : UInt64) :
    localItoa n base two uc = ((itoaDigits base n.toNat).map (itoaDigit · uc)).reverse := by
  rw [localItoa, itoaDigits]
  split
  · next zero => simp [zero, itoaLoop_zero]
  · next more => simp [itoaLoop_digits two uc _ (Nat.pos_of_ne_zero more)]

end Itoa

theorem ofDigits_itoaDigits (base n : Nat) : Nat.ofDigits base (itoaDigits base n) = n := by
  rw [itoaDigits]
  split
  · next zero => simp [zero]
  · exact Nat.ofDigits_digits base n

theorem itoaDigits_lt {base : Nat} (two : 2 ≤ base) (n : Nat) : ∀ d ∈ itoaDigits base n, d < base := by
  rw [itoaDigits]
  split
  · simp
    omega
  · exact fun d => Nat.digits_lt_base (by omega)

/-! ## Runs of one directive -/

section Scan

variable {σ : Type} (vph : σ → List UInt8 → σ × Bool) (fmt : List UInt8)

theorem step_open {p : Nat} {st : Scan σ} (off : st.fm = false) (flushed : st.p0 = p) :
    step vph fmt p '%'.toUInt8 st = some { st with fm := true, spec := Spec.reset } := by
  simp [step, off, flushed]

theorem step_flag {p : Nat} {c : UInt8} {st st' : Scan σ} (on : st.fm = true)
    (h : convert vph c { st with fm := false } = some st') (more : st'.fm = true) :
    step vph fmt p c st = some st' := by
  simp [step, on, h, more]

theorem scanLoop_cons {p : Nat} {c : UInt8} {rest : List UInt8} {st st' : Scan σ}
    (h : step vph fmt p c st = some st') (ok : st'.out.2 = false) :
    scanLoop vph fmt (c :: rest) p st = scanLoop vph fmt rest (p + 1) st' := by
  simp [scanLoop, h, ok]

theorem convert_digit (c : UInt8) (lo : '0'.toUInt8 ≤ c) (hi : c ≤ '9'.toUInt8) (st : Scan σ) :
    convert vph c st = some { st with
      spec := if st.spec.pad = 0 ∧ c = '0'.toUInt8 then { st.spec with pch := '0'.toUInt8 }
        else { st.spec with pad := (st.spec.pad * 10 + (c - '0'.toUInt8).toNat) % 2 ^ 64 },
      fm := true } := by
  have lo' : 48 ≤ c.toNat := UInt8.le_iff_toNat_le.mp lo
  have hi' : c.toNat ≤ 57 := UInt8.le_iff_toNat_le.mp hi
  -- a digit is none of the characters the switch names
  have avoid : ∀ x ∈ ['-', '.', '%', 'c', 'd', 'i', 'l', 'X', 'x', 'u', 'z', 'L', 'b', 'f', 'F', 'H',
      'm', 'p', 'r', 's', 'v', 'W', 'w', 'j', 'J'], c ≠ x.toUInt8 := by
    have far : (['-', '.', '%', 'c', 'd', 'i', 'l', 'X', 'x', 'u', 'z', 'L', 'b', 'f', 'F', 'H',
        'm', 'p', 'r', 's', 'v', 'W', 'w', 'j', 'J'].all fun x => x.toUInt8.toNat < 48 || 57 < x.toUInt8.toNat) =
        true := by
      rfl
    rintro x hx rfl
    have := List.all_eq_true.mp far x hx
    simp only [Bool.or_eq_true, decide_eq_true_eq] at this
    omega
  simp [convert, lo, hi, avoid]
  split <;> rfl

-- The width digits after a `0` flag: each one is `pad = pad * 10 + digit`, also a `0` read while
-- the pad is still zero, which sets the pad character that is already `0`.
theorem scanLoop_width (w rest : List UInt8) (digits : ∀ c ∈ w, '0'.toUInt8 ≤ c ∧ c ≤ '9'.toUInt8)
    (p : Nat) (st : Scan σ) (on : st.fm = true) (zero : st.spec.pch = '0'.toUInt8)
    (ok : st.out.2 = false) :
    scanLoop vph fmt (w ++ rest) p st = scanLoop vph fmt rest (p + w.length)
      { st with spec := { st.spec with
        pad := w.foldl (fun pad c => (pad * 10 + (c - '0'.toUInt8).toNat) % 2 ^ 64) st.spec.pad } } := by
  induction w generalizing p st with
  | nil => simp
  | cons c w ih =>
    obtain ⟨lo, hi⟩ := digits c (by simp)
    let st' : Scan σ :=
      { st with spec := { st.spec with pad := (st.spec.pad * 10 + (c - '0'.toUInt8).toNat) % 2 ^ 64 } }
    have next : step vph fmt p c st = some st' := by
      simp only [step, on, Bool.not_true, Bool.false_eq_true, if_false, convert_digit vph c lo hi,
        Option.map_some, Option.some.injEq]
      split
      · next first =>
        obtain ⟨pad0, rfl⟩ := first
        cases st
        simp_all [st']
      · cases st
        simp_all [st']
    rw [List.cons_append, scanLoop_cons vph fmt next ok, ih (fun c h => digits c (by simp [h])) (p + 1) st'
      on zero ok]
    simp [st', Nat.add_assoc, Nat.add_comm 1]

theorem vhprintf_signed (mods : List UInt8) (lenmod : Nat)
    (hm : (mods, lenmod) ∈ [([], LENMOD_NONE), (cstr "ll", LENMOD_LONG_LONG), (cstr "L", LENMOD_INT64)])
    (c : UInt8) (hc : c = 'd'.toUInt8 ∨ c = 'i'.toUInt8) (arg : Arg) (s : σ) :
    vhprintf vph (cstr "%" ++ mods ++ [c]) [arg] s = (readSigned lenmod [arg]).map fun (sn, _) =>
      writePadded vph (localItoa (if sn < 0 then -sn else sn).toUInt64 10 (by decide) false) 0 ' '.toUInt8
        false (if sn < 0 then some ['-'.toUInt8] else none) (s, false) := by
  simp only [List.mem_cons, Prod.mk.injEq, List.not_mem_nil, or_false] at hm
  rcases hm with ⟨rfl, rfl⟩ | ⟨rfl, rfl⟩ | ⟨rfl, rfl⟩ <;> rcases hc with rfl | rfl <;>
    cases arg <;> simp +decide [vhprintf, cstr, scanLoop, step, convert, readSigned, Spec.reset, numPch]

theorem vhprintf_unsigned (mods : List UInt8) (lenmod : Nat)
    (hm : (mods, lenmod) ∈ [([], LENMOD_NONE), (cstr "ll", LENMOD_LONG_LONG), (cstr "L", LENMOD_INT64)])
    (c : UInt8) (base : Nat) (uc : Bool)
    (hc : (c, base, uc) ∈ [('u'.toUInt8, 10, false), ('x'.toUInt8, 16, false), ('X'.toUInt8, 16, true)])
    (two : 2 ≤ base) (arg : Arg) (s : σ) :
    vhprintf vph (cstr "%" ++ mods ++ [c]) [arg] s = (readUnsigned lenmod [arg]).map fun (n, _) =>
      writePadded vph (localItoa n base two uc) 0 ' '.toUInt8 false none (s, false) := by
  simp only [List.mem_cons, Prod.mk.injEq, List.not_mem_nil, or_false] at hm hc
  rcases hm with ⟨rfl, rfl⟩ | ⟨rfl, rfl⟩ | ⟨rfl, rfl⟩ <;>
    rcases hc with ⟨rfl, rfl, rfl⟩ | ⟨rfl, rfl, rfl⟩ | ⟨rfl, rfl, rfl⟩ <;>
    cases arg <;> simp +decide [vhprintf, cstr, scanLoop, step, convert, readUnsigned, Spec.reset, numPch]

theorem vhprintf_zero_width (w : List UInt8) (digits : ∀ c ∈ w, '0'.toUInt8 ≤ c ∧ c ≤ '9'.toUInt8)
    (b : UInt32) (s : σ) :
    let sn := b.toInt32.toInt64
    vhprintf vph (cstr "%0" ++ w ++ cstr "d") [.word b] s =
      some (writePadded vph (localItoa (if sn < 0 then -sn else sn).toUInt64 10 (by decide) false)
        (w.foldl (fun pad c => (pad * 10 + (c - '0'.toUInt8).toNat) % 2 ^ 64) 0) '0'.toUInt8 false
        (if sn < 0 then some ['-'.toUInt8] else none) (s, false)) := by
  intro sn
  set fmt := cstr "%0" ++ w ++ cstr "d" with hfmt
  let st : Scan σ := ⟨(s, false), true, Spec.reset, 0, [.word b]⟩
  have opened : step vph fmt 0 '%'.toUInt8 { st with fm := false } = some st :=
    step_open vph fmt rfl rfl
  have zero : step vph fmt 1 '0'.toUInt8 st = some { st with spec := { Spec.reset with pch := '0'.toUInt8 } } :=
    step_flag vph fmt rfl (by rw [convert_digit vph _ (by decide) (by decide)]; rfl) rfl
  have shape : fmt = '%'.toUInt8 :: '0'.toUInt8 :: (w ++ ['d'.toUInt8]) := by simp [fmt, cstr]
  rw [vhprintf]
  nth_rewrite 3 [shape]
  rw [scanLoop_cons vph _ opened rfl, scanLoop_cons vph _ zero rfl,
    scanLoop_width vph _ w _ digits _ _ rfl rfl rfl]
  simp +decide [scanLoop, step, convert, readSigned, numPch, Spec.reset, sn, st]

end Scan

-- `re_snprintf` of a run that writes `t` through `print_handler`, in a buffer with room for `t`
-- and its terminating zero.
theorem reSnprintf_of_run {fmt : List UInt8} {args : List Arg} {size : Nat}
    {f : (List UInt8 × Nat) × Bool → (List UInt8 × Nat) × Bool} {t : List UInt8}
    (run : vhprintf printHandler fmt args ([], size - 1) = some (f (([], size - 1), false)))
    (hw : Writes Prod.fst Prod.snd f t) (fits : t.length < size) :
    reSnprintf size fmt args = some (t, Int32.ofNat t.length) := by
  obtain ⟨err, out, -⟩ := hw (([], size - 1), false) (by simp; omega)
  simp only at err out
  simp only [reSnprintf, if_neg (show size ≠ 0 by omega), run]
  simp [err, out]

end Libre.Fmt
