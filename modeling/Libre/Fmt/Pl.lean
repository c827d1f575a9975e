import Mathlib.Data.UInt
import Libre.Fmt.Print

set_option autoImplicit false

/-!
# Parsing numbers

`pl_u32`, `pl_u64`, `pl_x32`, `pl_x64`, `pl_i32` and `pl_i64` from `fmt/pl.c`: each reads its text
from the last character to the first and returns 0 at the first character it does not take. The
loops are shown to compute the value of the digits over any commutative ring.
-/

namespace Libre.Fmt

-- `const uint8_t c = *--p - '0'; if (c > 9) return 0;` of pl_u32 and pl_u64.
def decDigit (ch : UInt8) : Option UInt8 :=
  let c := ch - '0'.toUInt8
  if c > 9 then none else some c

-- The digit of pl_x32 and pl_x64, in either case.
def hexDigit (ch : UInt8) : Option UInt8 :=
  if '0'.toUInt8 ≤ ch ∧ ch ≤ '9'.toUInt8 then some (ch - '0'.toUInt8)
  else if 'A'.toUInt8 ≤ ch ∧ ch ≤ 'F'.toUInt8 then some (ch - 'A'.toUInt8 + 10)
  else if 'a'.toUInt8 ≤ ch ∧ ch ≤ 'f'.toUInt8 then some (ch - 'a'.toUInt8 + 10)
  else none

-- The loop `while (p > pl->p)` of the unsigned parsers over the characters from the last one:
-- `v += mul * c; mul *= base`, and `return 0` at the first character that is no digit.
def accumLoop {α : Type} [Add α] [Mul α] (digit : UInt8 → Option UInt8) (widen : UInt8 → α)
    (base v mul : α) : List UInt8 → Option α
  | [] => some v
  | ch :: rest =>
    match digit ch with
    | none => none
    | some c => accumLoop digit widen base (v + mul * widen c) (mul * base) rest

def plUnsigned {α : Type} [Add α] [Mul α] [OfNat α 0] [OfNat α 1] (digit : UInt8 → Option UInt8)
    (widen : UInt8 → α) (base : α) (pl : List UInt8) : α :=
  (accumLoop digit widen base 0 1 pl.reverse).getD 0

def plU32 (pl : List UInt8) : UInt32 := plUnsigned decDigit UInt8.toUInt32 10 pl

def plU64 (pl : List UInt8) : UInt64 := plUnsigned decDigit UInt8.toUInt64 10 pl

def plX32 (pl : List UInt8) : UInt32 := plUnsigned hexDigit UInt8.toUInt32 16 pl

def plX64 (pl : List UInt8) : UInt64 := plUnsigned hexDigit UInt8.toUInt64 16 pl

-- The loop of pl_i32 and pl_i64. The value is built negative, `v -= mul * (ch - '0')`, with the
-- subtraction done in the unsigned type of `mul`, so the accumulator is kept as its bits; a sign
-- counts only as the first character of the text, which is the last one read.
def signedLoop {α : Type} [Sub α] [Mul α] [OfNat α 10] (widen : UInt8 → α) (v mul : α) :
    List UInt8 → Option (α × Bool)
  | [] => some (v, false)
  | ch :: rest =>
    if '0'.toUInt8 ≤ ch ∧ ch ≤ '9'.toUInt8 then
      signedLoop widen (v - mul * widen (ch - '0'.toUInt8)) (mul * 10) rest
    else if ch = '-'.toUInt8 ∧ rest = [] then some (v, true)
    else if ch = '+'.toUInt8 ∧ rest = [] then some (v, false)
    else none

def plSigned {α β : Type} [Sub α] [Mul α] [OfNat α 0] [OfNat α 1] [OfNat α 10] [Neg β] [OfNat β 0]
    [DecidableEq β] (widen : UInt8 → α) (toSigned : α → β) (minValue : β) (pl : List UInt8) : β :=
  match signedLoop widen 0 1 pl.reverse with
  | none => 0
  | some (v, neg) =>
    let v := toSigned v
    if !neg ∧ v = minValue then minValue else if neg then v else -v

def plI32 (pl : List UInt8) : Int32 := plSigned UInt8.toUInt32 UInt32.toInt32 Int32.minValue pl

def plI64 (pl : List UInt8) : Int64 := plSigned UInt8.toUInt64 UInt64.toInt64 Int64.minValue pl

/-! ## What the loops compute -/

-- The value a digit function gives a character it accepts.
def digitValue (digit : UInt8 → Option UInt8) (ch : UInt8) : Nat := ((digit ch).getD 0).toNat

section Loops

variable {α : Type} [CommRing α] (widen : UInt8 → α) (hw : ∀ c, widen c = (c.toNat : α))
include hw

theorem accumLoop_eq (digit : UInt8 → Option UInt8) (b : Nat) (cs : List UInt8)
    (all : ∀ c ∈ cs, (digit c).isSome) (v mul : α) :
    accumLoop digit widen (b : α) v mul cs = some (v + mul * Nat.ofDigits (b : α) (cs.map (digitValue digit))) := by
  induction cs generalizing v mul with
  | nil => simp [accumLoop, Nat.ofDigits]
  | cons c cs ih =>
    obtain ⟨d, hd⟩ := Option.isSome_iff_exists.mp (all c (by simp))
    rw [accumLoop, hd]
    dsimp only
    rw [ih (fun c h => all c (by simp [h]))]
    simp [Nat.ofDigits, digitValue, hd, hw]
    ring

end Loops


-- `'0' <= ch && ch <= '9'`.
def IsDigit (c : UInt8) : Prop := '0'.toUInt8 ≤ c ∧ c ≤ '9'.toUInt8

instance (c : UInt8) : Decidable (IsDigit c) := inferInstanceAs (Decidable (_ ∧ _))

theorem IsDigit.toNat {c : UInt8} (h : IsDigit c) : 48 ≤ c.toNat ∧ c.toNat ≤ 57 :=
  ⟨UInt8.le_iff_toNat_le.mp h.1, UInt8.le_iff_toNat_le.mp h.2⟩

theorem decDigit_of_isDigit {c : UInt8} (h : IsDigit c) : decDigit c = some (c - '0'.toUInt8) := by
  have range := h.toNat
  have low : (c - '0'.toUInt8).toNat = c.toNat - 48 := UInt8.toNat_sub_of_le _ _ h.1
  simp only [decDigit, gt_iff_lt, UInt8.lt_iff_toNat_lt, low]
  rw [if_neg (by simp; omega)]

section Signed

variable {α : Type} [CommRing α] (widen : UInt8 → α) (hw : ∀ c, widen c = (c.toNat : α))
include hw

-- A text of digits after an optional sign, read from its last character: `v` takes the value
-- away, and the sign only says which way round the result is to be read.
theorem signedLoop_eq (ds : List UInt8) (all : ∀ c ∈ ds, IsDigit c) (sign : List UInt8)
    (hs : sign = [] ∨ sign = cstr "-" ∨ sign = cstr "+") (v mul : α) :
    signedLoop widen v mul (ds ++ sign) =
      some (v - mul * Nat.ofDigits (10 : α) (ds.map (digitValue decDigit)), decide (sign = cstr "-")) := by
  induction ds generalizing v mul with
  | nil =>
    rcases hs with rfl | rfl | rfl <;> simp +decide [signedLoop, cstr, Nat.ofDigits]
  | cons c ds ih =>
    have hc := all c (by simp)
    rw [List.cons_append, signedLoop, if_pos ⟨hc.1, hc.2⟩, ih (fun c h => all c (by simp [h]))]
    simp [Nat.ofDigits, digitValue, decDigit_of_isDigit hc, hw]
    ring

end Signed

section Parse

variable {α : Type} [CommRing α] (widen : UInt8 → α) (hw : ∀ c, widen c = (c.toNat : α))
include hw

theorem plUnsigned_eq (digit : UInt8 → Option UInt8) (b : Nat) (ds : List UInt8)
    (all : ∀ c ∈ ds, (digit c).isSome) :
    plUnsigned digit widen (b : α) ds = ((Nat.ofDigits b (ds.reverse.map (digitValue digit)) : ℕ) : α) := by
  rw [plUnsigned, accumLoop_eq widen hw digit b ds.reverse (fun c h => all c (List.mem_reverse.mp h))]
  simp [Nat.coe_ofDigits]

theorem plSigned_eq {β : Type} [Neg β] [OfNat β 0] [DecidableEq β] (toSigned : α → β) (minValue : β)
    (hmin : -minValue = minValue) (sign ds : List UInt8) (hs : sign = [] ∨ sign = cstr "-" ∨ sign = cstr "+")
    (all : ∀ c ∈ ds, IsDigit c) :
    let n : α := ((Nat.ofDigits 10 (ds.reverse.map (digitValue decDigit)) : ℕ) : α)
    plSigned widen toSigned minValue (sign ++ ds) =
      if sign = cstr "-" then toSigned (-n) else -toSigned (-n) := by
  intro n
  have one : sign.reverse = sign := by rcases hs with rfl | rfl | rfl <;> rfl
  have value : Nat.ofDigits (10 : α) (ds.reverse.map (digitValue decDigit)) = n := by
    simp [n, Nat.coe_ofDigits]
  rw [plSigned, List.reverse_append, one,
    signedLoop_eq widen hw ds.reverse (fun c h => all c (List.mem_reverse.mp h)) sign hs, value]
  by_cases neg : sign = cstr "-"
  · simp [neg]
  · simp only [neg, decide_false, zero_sub, one_mul, Bool.not_false, true_and, if_false]
    split
    · next least => rw [least, hmin]
    · rfl

end Parse

-- The number a text of digits denotes, the first character the most significant, with `digit`
-- giving the value of each.
def textValue (digit : UInt8 → Option UInt8) (base : Nat) (ds : List UInt8) : Nat :=
  Nat.ofDigits base (ds.reverse.map (digitValue digit))

section Words

open scoped UInt32.CommRing UInt64.CommRing

theorem toUInt32_eq_natCast (c : UInt8) : c.toUInt32 = (c.toNat : UInt32) := by
  apply UInt32.toNat_inj.mp
  rw [show ((c.toNat : ℕ) : UInt32) = UInt32.ofNat c.toNat from rfl, UInt32.toNat_ofNat',
    Nat.mod_eq_of_lt (by have := c.toNat_lt; omega)]
  simp

theorem toUInt64_eq_natCast (c : UInt8) : c.toUInt64 = (c.toNat : UInt64) := by
  apply UInt64.toNat_inj.mp
  rw [show ((c.toNat : ℕ) : UInt64) = UInt64.ofNat c.toNat from rfl, UInt64.toNat_ofNat',
    Nat.mod_eq_of_lt (by have := c.toNat_lt; omega)]
  simp

theorem toInt32_natCast (n : Nat) : (n : UInt32).toInt32 = Int32.ofInt n := by
  apply Int32.toBitVec_inj.mp
  simp [BitVec.ofInt_natCast]

theorem toInt64_natCast (n : Nat) : (n : UInt64).toInt64 = Int64.ofInt n := by
  apply Int64.toBitVec_inj.mp
  simp [BitVec.ofInt_natCast]


theorem isSome_decDigit {c : UInt8} (h : IsDigit c) : (decDigit c).isSome := by
  simp [decDigit_of_isDigit h]

theorem plU32_eq (ds : List UInt8) (all : ∀ c ∈ ds, IsDigit c) :
    plU32 ds = UInt32.ofNat (textValue decDigit 10 ds) :=
  plUnsigned_eq UInt8.toUInt32 toUInt32_eq_natCast decDigit 10 ds fun c h => isSome_decDigit (all c h)

example : plU32 (cstr "4294967297") = 1 := by decide

theorem plU64_eq (ds : List UInt8) (all : ∀ c ∈ ds, IsDigit c) :
    plU64 ds = UInt64.ofNat (textValue decDigit 10 ds) :=
  plUnsigned_eq UInt8.toUInt64 toUInt64_eq_natCast decDigit 10 ds fun c h => isSome_decDigit (all c h)

theorem plX32_eq (ds : List UInt8) (all : ∀ c ∈ ds, (hexDigit c).isSome) :
    plX32 ds = UInt32.ofNat (textValue hexDigit 16 ds) :=
  plUnsigned_eq UInt8.toUInt32 toUInt32_eq_natCast hexDigit 16 ds all

theorem plX64_eq (ds : List UInt8) (all : ∀ c ∈ ds, (hexDigit c).isSome) :
    plX64 ds = UInt64.ofNat (textValue hexDigit 16 ds) :=
  plUnsigned_eq UInt8.toUInt64 toUInt64_eq_natCast hexDigit 16 ds all

theorem plI32_eq (sign ds : List UInt8) (hs : sign = [] ∨ sign = cstr "-" ∨ sign = cstr "+")
    (all : ∀ c ∈ ds, IsDigit c) :
    plI32 (sign ++ ds) =
      Int32.ofInt (if sign = cstr "-" then -(textValue decDigit 10 ds : Int) else textValue decDigit 10 ds) := by
  rw [plI32, plSigned_eq UInt8.toUInt32 toUInt32_eq_natCast UInt32.toInt32 Int32.minValue (by decide)
    sign ds hs all]
  split <;> simp [UInt32.toInt32_neg, toInt32_natCast, Int32.ofInt_neg, textValue]

example : plI32 (cstr "-2147483648") = Int32.minValue := by decide

example : plI32 (cstr "2147483648") = Int32.minValue := by decide

theorem plI64_eq (sign ds : List UInt8) (hs : sign = [] ∨ sign = cstr "-" ∨ sign = cstr "+")
    (all : ∀ c ∈ ds, IsDigit c) :
    plI64 (sign ++ ds) =
      Int64.ofInt (if sign = cstr "-" then -(textValue decDigit 10 ds : Int) else textValue decDigit 10 ds) := by
  rw [plI64, plSigned_eq UInt8.toUInt64 toUInt64_eq_natCast UInt64.toInt64 Int64.minValue (by decide)
    sign ds hs all]
  split <;> simp [UInt64.toInt64_neg, toInt64_natCast, Int64.ofInt_neg, textValue]

end Words

/-! ## Printed numbers read back -/

theorem itoaDigit_decimal (d : Nat) (hd : d < 10) (uc : Bool) :
    IsDigit (itoaDigit d uc) ∧ digitValue decDigit (itoaDigit d uc) = d := by
  obtain ⟨i, rfl⟩ : ∃ i : Fin 10, (i : Nat) = d := ⟨⟨d, hd⟩, rfl⟩
  revert i uc
  decide

theorem itoaDigit_hex (d : Nat) (hd : d < 16) (uc : Bool) :
    (hexDigit (itoaDigit d uc)).isSome ∧ digitValue hexDigit (itoaDigit d uc) = d := by
  obtain ⟨i, rfl⟩ : ∃ i : Fin 16, (i : Nat) = d := ⟨⟨d, hd⟩, rfl⟩
  revert i uc
  decide

theorem textValue_itoa (digit : UInt8 → Option UInt8) {base : Nat} (two : 2 ≤ base) (uc : Bool)
    (hd : ∀ d < base, digitValue digit (itoaDigit d uc) = d) (zero : digitValue digit '0'.toUInt8 = 0)
    (k n : Nat) :
    textValue digit base (List.replicate k '0'.toUInt8 ++ ((itoaDigits base n).map (itoaDigit · uc)).reverse) = n := by
  have values : (itoaDigits base n).map (digitValue digit ∘ (itoaDigit · uc)) = itoaDigits base n := by
    conv => rhs; rw [← List.map_id (itoaDigits base n)]
    exact List.map_congr_left fun d h => hd d (itoaDigits_lt two n d h)
  rw [textValue, List.reverse_append, List.reverse_reverse, List.reverse_replicate, List.map_append,
    List.map_map, List.map_replicate, zero, values, Nat.ofDigits_append_replicate_zero, ofDigits_itoaDigits]

theorem toNat_magnitude (sn : Int64) : (if sn < 0 then -sn else sn).toUInt64.toNat = sn.toInt.natAbs := by
  have cond := BitVec.toInt_eq_toNat_cond sn.toBitVec
  have bound := sn.toBitVec.isLt
  rw [Int64.toInt_toBitVec] at cond
  have bits : sn.toUInt64.toNat = sn.toBitVec.toNat := rfl
  split
  · next neg =>
    have : sn.toInt < 0 := Int64.lt_iff_toInt_lt.mp neg
    rw [Int64.toUInt64_neg, UInt64.toNat_neg, bits]
    split at cond <;> simp [UInt64.size] <;> omega
  · next pos =>
    have : 0 ≤ sn.toInt := by simpa using Int64.le_iff_toInt_le.mp (Int64.not_lt.mp pos)
    rw [bits]
    split at cond <;> omega

theorem paddedText_number (p : List UInt8) (pad : Nat) (pch : UInt8) (prfx : Option (List UInt8))
    (hp : pad = 0 ∨ pch = '0'.toUInt8) :
    paddedText p pad pch false prfx =
      prfx.getD [] ++ List.replicate (pad - min pad (prfx.getD []).length - p.length) '0'.toUInt8 ++ p := by
  rcases hp with rfl | rfl
  · cases prfx <;> by_cases zero : pch = '0'.toUInt8 <;> simp [paddedText, zero]
  · cases prfx <;> simp [paddedText]

-- What `%d`, `%i` and `%0<w>d` print for a number reads back to it through pl_i32 or pl_i64.
theorem signed_paddedText (sn : Int64) (pad : Nat) (pch : UInt8) (hp : pad = 0 ∨ pch = '0'.toUInt8) :
    let t := paddedText (localItoa (if sn < 0 then -sn else sn).toUInt64 10 (by decide) false) pad pch false
      (if sn < 0 then some ['-'.toUInt8] else none)
    plI32 t = Int32.ofInt sn.toInt ∧ plI64 t = sn := by
  intro t
  let sign := if sn < 0 then cstr "-" else []
  let ds := List.replicate (pad - min pad sign.length - (localItoa (if sn < 0 then -sn else sn).toUInt64 10
    (by decide) false).length) '0'.toUInt8 ++ ((itoaDigits 10 sn.toInt.natAbs).map (itoaDigit · false)).reverse
  have text : t = sign ++ ds := by
    simp only [t, paddedText_number _ _ _ _ hp, sign, ds, localItoa_eq, toNat_magnitude]
    split <;> simp [cstr]
  have hs : sign = [] ∨ sign = cstr "-" ∨ sign = cstr "+" := by
    simp only [sign]
    split <;> simp
  have all : ∀ c ∈ ds, IsDigit c := by
    intro c hc
    simp only [ds, List.mem_append, List.mem_replicate, List.mem_reverse, List.mem_map] at hc
    rcases hc with ⟨-, rfl⟩ | ⟨d, hd, rfl⟩
    · decide
    · exact (itoaDigit_decimal d (itoaDigits_lt (by decide) _ d hd) false).1
  have value : textValue decDigit 10 ds = sn.toInt.natAbs :=
    textValue_itoa decDigit (by decide) false (fun d hd => (itoaDigit_decimal d hd false).2) (by decide) _ _
  have signed : (if sign = cstr "-" then -(textValue decDigit 10 ds : Int) else textValue decDigit 10 ds) =
      sn.toInt := by
    have neg : sn < 0 ↔ sn.toInt < 0 := Int64.lt_iff_toInt_lt
    rw [value]
    by_cases below : sn < 0
    · simp [sign, below, abs_of_neg (neg.mp below)]
    · have above : 0 ≤ sn.toInt := by
        rw [neg] at below
        omega
      simp [sign, below, abs_of_nonneg above, cstr]
  rw [text, plI32_eq sign ds hs all, plI64_eq sign ds hs all, signed, Int64.ofInt_toInt]
  exact ⟨rfl, rfl⟩

-- What `%u`, `%x` and `%X` print reads back through the parser of the same base.
theorem unsigned_paddedText (n : UInt64) (uc : Bool) :
    let dec := paddedText (localItoa n 10 (by decide) uc) 0 ' '.toUInt8 false none
    let hex := paddedText (localItoa n 16 (by decide) uc) 0 ' '.toUInt8 false none
    plU32 dec = UInt32.ofNat n.toNat ∧ plU64 dec = n ∧ plX32 hex = UInt32.ofNat n.toNat ∧ plX64 hex = n := by
  intro dec hex
  have plain : ∀ p, paddedText p 0 ' '.toUInt8 false none = List.replicate 0 '0'.toUInt8 ++ p := by
    intro p
    simp [paddedText]
  have decimal : textValue decDigit 10 dec = n.toNat := by
    rw [show dec = _ from plain _, localItoa_eq]
    exact textValue_itoa decDigit (by decide) uc (fun d hd => (itoaDigit_decimal d hd uc).2) (by decide) _ _
  have hexadecimal : textValue hexDigit 16 hex = n.toNat := by
    rw [show hex = _ from plain _, localItoa_eq]
    exact textValue_itoa hexDigit (by decide) uc (fun d hd => (itoaDigit_hex d hd uc).2) (by decide) _ _
  have decAll : ∀ c ∈ dec, IsDigit c := by
    intro c hc
    simp only [dec, plain, localItoa_eq, List.replicate_zero, List.nil_append, List.mem_reverse,
      List.mem_map] at hc
    obtain ⟨d, hd, rfl⟩ := hc
    exact (itoaDigit_decimal d (itoaDigits_lt (by decide) _ d hd) uc).1
  have hexAll : ∀ c ∈ hex, (hexDigit c).isSome := by
    intro c hc
    simp only [hex, plain, localItoa_eq, List.replicate_zero, List.nil_append, List.mem_reverse,
      List.mem_map] at hc
    obtain ⟨d, hd, rfl⟩ := hc
    exact (itoaDigit_hex d (itoaDigits_lt (by decide) _ d hd) uc).1
  rw [plU32_eq dec decAll, plU64_eq dec decAll, plX32_eq hex hexAll, plX64_eq hex hexAll, decimal,
    hexadecimal, UInt64.ofNat_toNat]
  exact ⟨rfl, rfl, rfl, rfl⟩

theorem printed_writePadded {fmt : List UInt8} {args : List Arg} {p : List UInt8} {pad : Nat} {pch : UInt8}
    {plr : Bool} {prfx : Option (List UInt8)}
    (run : ∀ s, vhprintf printHandler fmt args s = some (writePadded printHandler p pad pch plr prfx (s, false)))
    (size : Nat) (fits : (paddedText p pad pch plr prfx).length < size) :
    reSnprintf size fmt args =
      some (paddedText p pad pch plr prfx, Int32.ofNat (paddedText p pad pch plr prfx).length) :=
  reSnprintf_of_run (run _) (writes_writePadded sink_printHandler p pad pch plr prfx) fits

theorem printed_signed (mods : List UInt8) (lenmod : Nat)
    (hm : (mods, lenmod) ∈ [([], LENMOD_NONE), (cstr "ll", LENMOD_LONG_LONG), (cstr "L", LENMOD_INT64)])
    (c : UInt8) (hc : c = 'd'.toUInt8 ∨ c = 'i'.toUInt8) {fmt : List UInt8} (shape : fmt = cstr "%" ++ mods ++ [c])
    (arg : Arg) (sn : Int64) (read : readSigned lenmod [arg] = some (sn, [])) :
    let t := paddedText (localItoa (if sn < 0 then -sn else sn).toUInt64 10 (by decide) false) 0 ' '.toUInt8 false
      (if sn < 0 then some ['-'.toUInt8] else none)
    ∀ size, t.length < size → reSnprintf size fmt [arg] = some (t, Int32.ofNat t.length) := by
  intro t size fits
  refine printed_writePadded (fun s => ?_) size fits
  rw [shape, vhprintf_signed printHandler mods lenmod hm c hc arg s, read]
  rfl

theorem printed_unsigned (mods : List UInt8) (lenmod : Nat)
    (hm : (mods, lenmod) ∈ [([], LENMOD_NONE), (cstr "ll", LENMOD_LONG_LONG), (cstr "L", LENMOD_INT64)])
    (c : UInt8) (base : Nat) (uc : Bool)
    (hc : (c, base, uc) ∈ [('u'.toUInt8, 10, false), ('x'.toUInt8, 16, false), ('X'.toUInt8, 16, true)])
    (two : 2 ≤ base) {fmt : List UInt8} (shape : fmt = cstr "%" ++ mods ++ [c]) (arg : Arg) (n : UInt64)
    (read : readUnsigned lenmod [arg] = some (n, [])) :
    let t := paddedText (localItoa n base two uc) 0 ' '.toUInt8 false none
    ∀ size, t.length < size → reSnprintf size fmt [arg] = some (t, Int32.ofNat t.length) := by
  intro t size fits
  refine printed_writePadded (fun s => ?_) size fits
  rw [shape, vhprintf_unsigned printHandler mods lenmod hm c base uc hc two arg s, read]
  rfl

theorem pl_print_parse_round_trip :
    (∀ v : Int32, ∃ t, (∀ size, t.length < size →
      reSnprintf size (cstr "%d") [.word v.toUInt32] = some (t, Int32.ofNat t.length)) ∧ plI32 t = v) ∧
    (∀ (v : Int32) (w : List UInt8), (∀ c ∈ w, IsDigit c) → ∃ t, (∀ size, t.length < size →
      reSnprintf size (cstr "%0" ++ w ++ cstr "d") [.word v.toUInt32] = some (t, Int32.ofNat t.length)) ∧ plI32 t = v) ∧
    (∀ v : Int64, ∀ fmt ∈ [cstr "%lld", cstr "%Li"], ∃ t, (∀ size, t.length < size →
      reSnprintf size fmt [.dword v.toUInt64] = some (t, Int32.ofNat t.length)) ∧ plI64 t = v) ∧
    (∀ v : UInt32, ∃ t, (∀ size, t.length < size →
      reSnprintf size (cstr "%u") [.word v] = some (t, Int32.ofNat t.length)) ∧ plU32 t = v) ∧
    (∀ v : UInt64, ∃ t, (∀ size, t.length < size →
      reSnprintf size (cstr "%llu") [.dword v] = some (t, Int32.ofNat t.length)) ∧ plU64 t = v) ∧
    (∀ v : UInt32, ∀ fmt ∈ [cstr "%x", cstr "%X"], ∃ t, (∀ size, t.length < size →
      reSnprintf size fmt [.word v] = some (t, Int32.ofNat t.length)) ∧ plX32 t = v) ∧
    (∀ v : UInt64, ∀ fmt ∈ [cstr "%llx", cstr "%llX"], ∃ t, (∀ size, t.length < size →
      reSnprintf size fmt [.dword v] = some (t, Int32.ofNat t.length)) ∧ plX64 t = v) ∧
    (∀ sign ds : List UInt8, sign ∈ [[], cstr "+", cstr "-"] → (∀ c ∈ ds, IsDigit c) →
      plI32 (sign ++ ds) =
        Int32.ofInt (if sign = cstr "-" then -(textValue decDigit 10 ds : Int) else textValue decDigit 10 ds)) ∧
    (∀ ds : List UInt8, (∀ c ∈ ds, IsDigit c) → plU32 ds = UInt32.ofNat (textValue decDigit 10 ds)) := by
  refine ⟨?d, ?width, ?lld, ?u, ?llu, ?x, ?llx, ?signs, ?digits⟩
  case d =>
    intro v
    have parse := (signed_paddedText v.toInt64 0 ' '.toUInt8 (.inl rfl)).1
    rw [Int32.toInt_toInt64, Int32.ofInt_toInt] at parse
    exact ⟨_, printed_signed [] LENMOD_NONE (by simp) 'd'.toUInt8 (.inl rfl) (by simp [cstr]) _ _ (by simp [readSigned]),
      parse⟩
  case width =>
    intro v w digits
    let pad := w.foldl (fun pad c => (pad * 10 + (c - '0'.toUInt8).toNat) % 2 ^ 64) 0
    have parse := (signed_paddedText v.toInt64 pad '0'.toUInt8 (.inr rfl)).1
    rw [Int32.toInt_toInt64, Int32.ofInt_toInt] at parse
    refine ⟨_, printed_writePadded fun s => ?_, parse⟩
    have run := vhprintf_zero_width printHandler w digits v.toUInt32 s
    simpa [pad] using run
  case lld =>
    intro v fmt listed
    simp only [List.mem_cons, List.not_mem_nil, or_false] at listed
    have parse := (signed_paddedText v 0 ' '.toUInt8 (.inl rfl)).2
    rcases listed with rfl | rfl
    · exact ⟨_, printed_signed (cstr "ll") LENMOD_LONG_LONG (by simp) 'd'.toUInt8 (.inl rfl) (by simp [cstr]) _ _
        (by simp [readSigned, LENMOD_LONG_LONG, LENMOD_NONE]), parse⟩
    · exact ⟨_, printed_signed (cstr "L") LENMOD_INT64 (by simp) 'i'.toUInt8 (.inr rfl) (by simp [cstr]) _ _
        (by simp [readSigned, LENMOD_INT64, LENMOD_NONE]), parse⟩
  case u =>
    intro v
    have parse := (unsigned_paddedText v.toUInt64 false).1
    rw [UInt32.toNat_toUInt64, UInt32.ofNat_toNat] at parse
    exact ⟨_, printed_unsigned [] LENMOD_NONE (by simp) 'u'.toUInt8 10 false (by simp) (by decide) (by simp [cstr])
      _ _ rfl, parse⟩
  case llu =>
    intro v
    exact ⟨_, printed_unsigned (cstr "ll") LENMOD_LONG_LONG (by simp) 'u'.toUInt8 10 false (by simp) (by decide)
      (by simp [cstr]) _ _ rfl, (unsigned_paddedText v false).2.1⟩
  case x =>
    intro v fmt listed
    simp only [List.mem_cons, List.not_mem_nil, or_false] at listed
    -- `%x` and `%X` differ only in the case of the letters, which pl_x32 reads either way
    have parse := fun uc => (unsigned_paddedText v.toUInt64 uc).2.2.1
    simp only [UInt32.toNat_toUInt64, UInt32.ofNat_toNat] at parse
    rcases listed with rfl | rfl
    · exact ⟨_, printed_unsigned [] LENMOD_NONE (by simp) 'x'.toUInt8 16 false (by simp) (by decide)
        (by simp [cstr]) _ _ rfl, parse false⟩
    · exact ⟨_, printed_unsigned [] LENMOD_NONE (by simp) 'X'.toUInt8 16 true (by simp) (by decide)
        (by simp [cstr]) _ _ rfl, parse true⟩
  case llx =>
    intro v fmt listed
    simp only [List.mem_cons, List.not_mem_nil, or_false] at listed
    rcases listed with rfl | rfl
    · exact ⟨_, printed_unsigned (cstr "ll") LENMOD_LONG_LONG (by simp) 'x'.toUInt8 16 false (by simp) (by decide)
        (by simp [cstr]) _ _ rfl, (unsigned_paddedText v false).2.2.2⟩
    · exact ⟨_, printed_unsigned (cstr "ll") LENMOD_LONG_LONG (by simp) 'X'.toUInt8 16 true (by simp) (by decide)
        (by simp [cstr]) _ _ rfl, (unsigned_paddedText v true).2.2.2⟩
  case signs =>
    intro sign ds listed all
    have hs : sign = [] ∨ sign = cstr "-" ∨ sign = cstr "+" := by
      simp only [List.mem_cons, List.not_mem_nil, or_false] at listed
      tauto
    exact plI32_eq sign ds hs all
  case digits =>
    exact plU32_eq

theorem pl_print_parse_round_trip_width : (∀ c ∈ cstr "08", IsDigit c) ∧
    ∃ t, (∀ size, t.length < size →
      reSnprintf size (cstr "%0" ++ cstr "08" ++ cstr "d") [.word (-5 : Int32).toUInt32] = some (t, Int32.ofNat t.length)) ∧
      plI32 t = -5 :=
  ⟨by decide +kernel, pl_print_parse_round_trip.2.1 (-5) (cstr "08") (by decide +kernel)⟩

end Libre.Fmt
