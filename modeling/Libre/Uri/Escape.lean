import Libre.Fmt.Pl
import Libre.Mbuf.Buffer

set_option autoImplicit false

/-!
# URI component escaping

The character classes and `comp_escape` / `comp_unescape` of `uri/uric.c`. A byte outside the
class is printed by `re_hprintf(pf, "%%%02X", c)` with `c` a plain, signed `char`: a byte from 0x80
up reaches `%X` as a negative `int` and is printed with eight hex digits.
-/

namespace Libre.Uri

open Libre.Fmt

-- `isalnum` in the C locale.
def isalnum (c : UInt8) : Bool :=
  ('0'.toUInt8 ≤ c && c ≤ '9'.toUInt8) || ('A'.toUInt8 ≤ c && c ≤ 'Z'.toUInt8) ||
    ('a'.toUInt8 ≤ c && c ≤ 'z'.toUInt8)

-- A `switch` that returns true for the characters of its cases.
def oneOf (cases : List Char) (c : UInt8) : Bool := cases.any fun x => c == x.toUInt8

def isMark (c : UInt8) : Bool := oneOf ['-', '_', '.', '!', '~', '*', Char.ofNat 39, '(', ')'] c

def isUnreserved (c : UInt8) : Bool := isalnum c || isMark c

def isUserUnreserved (c : UInt8) : Bool := oneOf ['&', '=', '+', '$', ',', ';', '?', '/'] c

def isHnvUnreserved (c : UInt8) : Bool := oneOf ['[', ']', '/', '?', ':', '+', '$'] c

def isUser (c : UInt8) : Bool := isUnreserved c || isUserUnreserved c

-- A `switch` whose default is `is_unreserved`.
def isPassword (c : UInt8) : Bool := oneOf ['&', '=', '+', '$', ','] c || isUnreserved c

def isParamUnreserved (c : UInt8) : Bool := oneOf ['[', ']', '/', ':', '&', '+', '$'] c

def isParamchar (c : UInt8) : Bool := isParamUnreserved c || isUnreserved c

def isHvalue (c : UInt8) : Bool := isHnvUnreserved c || isUnreserved c

-- `ch_hex` of `fmt/ch.c`: the digit `pl_x32` takes, and 0 for every other character.
def chHex (ch : UInt8) : UInt8 := (hexDigit ch).getD 0

-- A plain `char` passed through `...`: promoted to `int` with its sign.
def charArg (c : UInt8) : Arg := .word c.toInt8.toInt32.toUInt32

section Handler

variable {σ : Type} (vph : σ → List UInt8 → σ × Bool)

-- `for (i=0; i<pl->l && !err; i++)` of `comp_escape`.
def compEscape (eh : UInt8 → Bool) : List UInt8 → σ → Option (σ × Bool)
  | [], s => some (s, false)
  | c :: rest, s =>
    let r := if eh c then some (vph s [c]) else vhprintf vph (cstr "%%%02X") [charArg c] s
    match r with
    | none => none
    | some (s, err) => if err then some (s, true) else compEscape eh rest s

-- `comp_unescape`: a class character is copied, `%` takes the next two characters as hex digits
-- when there are two, anything else is refused. A chunk the handler refuses ends it with the
-- `ENOMEM` of the library's print handlers.
def compUnescape (eh : UInt8 → Bool) : List UInt8 → σ → Except Errno σ
  | [], s => .ok s
  | c :: rest, s =>
    if eh c then
      let r := vph s [c]
      if r.2 then .error .ENOMEM else compUnescape eh rest r.1
    else if c = '%'.toUInt8 then
      match rest with
      | hi :: lo :: rest =>
        let r := vph s [chHex hi <<< 4 ||| chHex lo]
        if r.2 then .error .ENOMEM else compUnescape eh rest r.1
      | _ => .error .EBADMSG
    else .error .EINVAL

def uriUserEscape (pl : List UInt8) (s : σ) : Option (σ × Bool) := compEscape vph isUser pl s

def uriUserUnescape (pl : List UInt8) (s : σ) : Except Errno σ := compUnescape vph isUser pl s

def uriPasswordEscape (pl : List UInt8) (s : σ) : Option (σ × Bool) := compEscape vph isPassword pl s

def uriPasswordUnescape (pl : List UInt8) (s : σ) : Except Errno σ := compUnescape vph isPassword pl s

def uriParamEscape (pl : List UInt8) (s : σ) : Option (σ × Bool) := compEscape vph isParamchar pl s

def uriParamUnescape (pl : List UInt8) (s : σ) : Except Errno σ := compUnescape vph isParamchar pl s

def uriHeaderEscape (pl : List UInt8) (s : σ) : Option (σ × Bool) := compEscape vph isHvalue pl s

def uriHeaderUnescape (pl : List UInt8) (s : σ) : Except Errno σ := compUnescape vph isHvalue pl s

end Handler

-- The digits `%02X` prints for the `unsigned` it reads.
def hexText (w : UInt32) : List UInt8 :=
  paddedText (localItoa w.toUInt64 16 (by decide) true) 2 '0'.toUInt8 false none

-- What `comp_escape` writes: class characters as they are, every other byte as `%` and the
-- digits of its promoted value.
def escapedText (eh : UInt8 → Bool) (pl : List UInt8) : List UInt8 :=
  pl.flatMap fun c => if eh c then [c] else cstr "%" ++ hexText c.toInt8.toInt32.toUInt32

-- A `char` promoted to `int` and read back as `unsigned`: bytes from 0x80 up come back with
-- the 24 high bits set.
theorem toNat_promoted (c : UInt8) :
    c.toInt8.toInt32.toUInt32.toNat = if c.toNat < 128 then c.toNat else c.toNat + 4294967040 := by
  have each : ∀ i : Fin 256, (UInt8.ofFin i).toInt8.toInt32.toUInt32.toNat =
      if i.val < 128 then i.val else i.val + 4294967040 := by
    decide +kernel
  simpa using each c.toFin

theorem toNat_promoted_of_lt {c : UInt8} (low : c < 0x80) : c.toInt8.toInt32.toUInt32.toNat = c.toNat := by
  have small : c.toNat < 128 := UInt8.lt_iff_toNat_lt.mp low
  rw [toNat_promoted, if_pos small]

theorem itoaDigits_of_lt {base n : Nat} (small : n < base) : itoaDigits base n = [n] := by
  rw [itoaDigits]
  split
  · next zero => simp [zero]
  · next pos => exact Nat.digits_of_lt base n pos small

theorem itoaDigits_two {n : Nat} (big : 16 ≤ n) (lt : n < 256) : itoaDigits 16 n = [n % 16, n / 16] := by
  rw [itoaDigits, if_neg (by omega), Nat.digits_def' (by decide) (by omega),
    Nat.digits_of_lt 16 (n / 16) (by omega) (by omega)]

theorem hexText_byte (w : UInt32) (small : w.toNat < 256) :
    hexText w = [itoaDigit (w.toNat / 16) true, itoaDigit (w.toNat % 16) true] := by
  rw [hexText, localItoa_eq, UInt32.toNat_toUInt64]
  by_cases one : w.toNat < 16
  · rw [itoaDigits_of_lt one, Nat.div_eq_of_lt one, Nat.mod_eq_of_lt one]
    simp [paddedText]
    decide
  · rw [itoaDigits_two (by omega) small]
    simp [paddedText]

-- A byte from 0x80 up is printed with the six digits `F` of its sign before its own two.
theorem hexText_high (c : UInt8) (high : 0x80 ≤ c) :
    hexText c.toInt8.toInt32.toUInt32 = cstr "FFFFFF" ++ [itoaDigit (c.toNat / 16) true, itoaDigit (c.toNat % 16) true] := by
  have range : 128 ≤ c.toNat ∧ c.toNat < 256 := ⟨UInt8.le_iff_toNat_le.mp high, c.toNat_lt⟩
  have value := toNat_promoted c
  rw [if_neg (by omega)] at value
  have digits : Nat.digits 16 (c.toNat + 4294967040) = [c.toNat % 16, c.toNat / 16, 15, 15, 15, 15, 15, 15] := by
    rw [Nat.digits_def' (by decide) (by omega), Nat.digits_def' (by decide) (by omega)]
    have low : (c.toNat + 4294967040) % 16 = c.toNat % 16 := by omega
    have high : (c.toNat + 4294967040) / 16 % 16 = c.toNat / 16 := by omega
    have rest : (c.toNat + 4294967040) / 16 / 16 = 16777215 := by omega
    rw [low, high, rest]
    simp
  rw [hexText, localItoa_eq, UInt32.toNat_toUInt64, value, itoaDigits, if_neg (by omega), digits]
  simp [paddedText, cstr]
  decide

theorem chHex_itoaDigit (d : Nat) (hd : d < 16) (uc : Bool) : chHex (itoaDigit d uc) = UInt8.ofNat d := by
  obtain ⟨i, rfl⟩ : ∃ i : Fin 16, (i : Nat) = d := ⟨⟨d, hd⟩, rfl⟩
  revert i uc
  decide

theorem isalnum_itoaDigit (d : Nat) (hd : d < 16) (uc : Bool) : isalnum (itoaDigit d uc) = true := by
  obtain ⟨i, rfl⟩ : ∃ i : Fin 16, (i : Nat) = d := ⟨⟨d, hd⟩, rfl⟩
  revert i uc
  decide

theorem unhex_byte (c : UInt8) :
    chHex (itoaDigit (c.toNat / 16) true) <<< 4 ||| chHex (itoaDigit (c.toNat % 16) true) = c := by
  have byte := c.toNat_lt
  rw [chHex_itoaDigit _ (by omega), chHex_itoaDigit _ (Nat.mod_lt _ (by decide))]
  have each : ∀ i : Fin 256, UInt8.ofNat (i.val / 16) <<< 4 ||| UInt8.ofNat (i.val % 16) = UInt8.ofFin i := by
    decide +kernel
  simpa using each c.toFin

/-! ## The four classes -/

section Classes

variable {eh : UInt8 → Bool} (heh : eh ∈ [isUser, isPassword, isParamchar, isHvalue])
include heh

theorem accepts_alnum {c : UInt8} (h : isalnum c = true) : eh c = true := by
  simp only [List.mem_cons, List.not_mem_nil, or_false] at heh
  rcases heh with rfl | rfl | rfl | rfl <;>
    simp [isUser, isPassword, isParamchar, isHvalue, isUnreserved, h]

theorem rejects_percent : eh '%'.toUInt8 = false := by
  simp only [List.mem_cons, List.not_mem_nil, or_false] at heh
  rcases heh with rfl | rfl | rfl | rfl <;> decide

theorem rejects_high {c : UInt8} (high : 0x80 ≤ c) : eh c = false := by
  have above : 128 ≤ c.toFin.val := UInt8.le_iff_toNat_le.mp high
  simp only [List.mem_cons, List.not_mem_nil, or_false] at heh
  rcases heh with rfl | rfl | rfl | rfl
  · have each : ∀ i : Fin 256, 128 ≤ i.val → isUser (UInt8.ofFin i) = false := by decide +kernel
    simpa using each c.toFin above
  · have each : ∀ i : Fin 256, 128 ≤ i.val → isPassword (UInt8.ofFin i) = false := by decide +kernel
    simpa using each c.toFin above
  · have each : ∀ i : Fin 256, 128 ≤ i.val → isParamchar (UInt8.ofFin i) = false := by decide +kernel
    simpa using each c.toFin above
  · have each : ∀ i : Fin 256, 128 ≤ i.val → isHvalue (UInt8.ofFin i) = false := by decide +kernel
    simpa using each c.toFin above

end Classes

section Sink

variable {σ : Type} {vph : σ → List UInt8 → σ × Bool} {text : σ → List UInt8} {room : σ → Nat}

theorem vhprintf_percent_hex (sink : Sink vph text room) (w : UInt32) (s : σ)
    (fits : (cstr "%" ++ hexText w).length ≤ room s) :
    ∃ s', vhprintf vph (cstr "%%%02X") [.word w] s = some (s', false) ∧
      text s' = text s ++ cstr "%" ++ hexText w ∧ room s - (cstr "%" ++ hexText w).length ≤ room s' := by
  have pieces := (writes_emit sink (cstr "%")).comp
    (writes_writePadded sink (localItoa w.toUInt64 16 (by decide) true) 2 '0'.toUInt8 false none)
  have ok : (vph s (cstr "%")).2 = false := (sink.accept s (cstr "%") (by simp at fits ⊢; omega)).1
  have first : emit vph (s, false) (cstr "%") = ((vph s (cstr "%")).1, false) := by simp [emit, ok]
  obtain ⟨err, out, left⟩ := pieces (s, false) fits
  simp only [Function.comp, first] at err out left
  refine ⟨_, ?_, by simpa [hexText] using out, by simpa [hexText] using left⟩
  have two : '2'.toUInt8.toNat - '0'.toUInt8.toNat = 2 := by decide
  have ok' : (vph s ['%'.toUInt8]).2 = false := ok
  have run : vhprintf vph (cstr "%%%02X") [.word w] s = some (writePadded vph
      (localItoa w.toUInt64 16 (by decide) true) 2 '0'.toUInt8 false none ((vph s (cstr "%")).1, false)) := by
    simp +decide [vhprintf, cstr, scanLoop, step, convert, emit, ok', readUnsigned, Spec.reset, numPch, two]
  rw [run]
  exact congrArg some (Prod.ext rfl err)

theorem escapedText_cons (eh : UInt8 → Bool) (c : UInt8) (pl : List UInt8) :
    escapedText eh (c :: pl) =
      (if eh c then [c] else cstr "%" ++ hexText c.toInt8.toInt32.toUInt32) ++ escapedText eh pl := by
  simp [escapedText]

theorem compEscape_writes (sink : Sink vph text room) (eh : UInt8 → Bool) (pl : List UInt8) (s : σ)
    (fits : (escapedText eh pl).length ≤ room s) :
    ∃ s', compEscape vph eh pl s = some (s', false) ∧ text s' = text s ++ escapedText eh pl := by
  induction pl generalizing s with
  | nil => exact ⟨s, rfl, by simp [escapedText]⟩
  | cons c pl ih =>
    rw [escapedText_cons, List.length_append] at fits
    rw [escapedText_cons]
    by_cases copied : eh c
    · simp only [copied, if_true] at fits ⊢
      obtain ⟨ok, out, left⟩ := sink.accept s [c] (by omega)
      obtain ⟨s', run, out'⟩ := ih (vph s [c]).1 (by omega)
      refine ⟨s', by simp [compEscape, copied, ok, run], ?_⟩
      rw [out', out, List.append_assoc]
    · simp only [copied, Bool.false_eq_true, if_false] at fits ⊢
      obtain ⟨s1, run1, out1, left1⟩ := vhprintf_percent_hex sink c.toInt8.toInt32.toUInt32 s (by omega)
      obtain ⟨s', run, out'⟩ := ih s1 (by omega)
      refine ⟨s', by simp [compEscape, copied, charArg, run1, run], ?_⟩
      simp [out', out1]

theorem compUnescape_class (eh : UInt8 → Bool) {c : UInt8} {rest : List UInt8} {s : σ}
    (copied : eh c = true) (ok : (vph s [c]).2 = false) :
    compUnescape vph eh (c :: rest) s = compUnescape vph eh rest (vph s [c]).1 := by
  rw [compUnescape.eq_def]
  simp [copied, ok]

theorem compUnescape_percent (eh : UInt8 → Bool) {hi lo : UInt8} {rest : List UInt8} {s : σ}
    (pct : eh '%'.toUInt8 = false) (ok : (vph s [chHex hi <<< 4 ||| chHex lo]).2 = false) :
    compUnescape vph eh ('%'.toUInt8 :: hi :: lo :: rest) s =
      compUnescape vph eh rest (vph s [chHex hi <<< 4 ||| chHex lo]).1 := by
  rw [compUnescape.eq_def]
  simp [pct, ok]

-- Bytes below 0x80 come back through `comp_unescape` as `comp_escape` wrote them.
theorem compUnescape_escapedText (sink : Sink vph text room) {eh : UInt8 → Bool}
    (heh : eh ∈ [isUser, isPassword, isParamchar, isHvalue]) (pl : List UInt8) (ascii : ∀ c ∈ pl, c < 0x80)
    (s : σ) (fits : pl.length ≤ room s) :
    ∃ s', compUnescape vph eh (escapedText eh pl) s = .ok s' ∧ text s' = text s ++ pl := by
  induction pl generalizing s with
  | nil => exact ⟨s, rfl, by simp⟩
  | cons c pl ih =>
    have low := toNat_promoted_of_lt (ascii c (by simp))
    obtain ⟨ok, out, left⟩ := sink.accept s [c] (by simp at fits ⊢; omega)
    obtain ⟨s', run, out'⟩ := ih (fun c h => ascii c (by simp [h])) (vph s [c]).1 (by simp at fits left; omega)
    refine ⟨s', ?_, by rw [out', out, List.append_assoc]; rfl⟩
    rw [escapedText_cons]
    by_cases copied : eh c
    · simp only [copied, if_true, List.singleton_append]
      rw [compUnescape_class eh copied ok]
      exact run
    · have digits := hexText_byte c.toInt8.toInt32.toUInt32 (by rw [low]; exact c.toNat_lt)
      rw [low] at digits
      have pct : cstr "%" = ['%'.toUInt8] := by simp [cstr]
      simp only [copied, Bool.false_eq_true, if_false, digits, pct, List.cons_append, List.nil_append]
      have back := unhex_byte c
      rw [← back] at ok
      rw [compUnescape_percent eh (rejects_percent heh) ok, back]
      exact run

end Sink

/-! ## Escaping and unescaping a text -/

section Classes

variable {eh : UInt8 → Bool} (heh : eh ∈ [isUser, isPassword, isParamchar, isHvalue])
include heh

-- Below 0x80 every byte outside the class becomes `%` and two upper-case hex digits, and
-- unescaping gives the text back.
theorem comp_round_trip_ascii (pl : List UInt8) (ascii : ∀ c ∈ pl, c < 0x80) :
    compEscape printHandlerDyn eh pl [] = some (pl.flatMap (fun c => if eh c then [c]
        else ['%'.toUInt8, itoaDigit (c.toNat / 16) true, itoaDigit (c.toNat % 16) true]), false) ∧
      compUnescape printHandlerDyn eh (pl.flatMap fun c => if eh c then [c]
        else ['%'.toUInt8, itoaDigit (c.toNat / 16) true, itoaDigit (c.toNat % 16) true]) [] = .ok pl := by
  have shape : escapedText eh pl = pl.flatMap fun c =>
      if eh c then [c] else ['%'.toUInt8, itoaDigit (c.toNat / 16) true, itoaDigit (c.toNat % 16) true] := by
    apply List.flatMap_congr
    intro c hc
    have small := toNat_promoted_of_lt (ascii c hc)
    split
    · rfl
    · rw [hexText_byte _ (by rw [small]; exact c.toNat_lt), small]
      simp [cstr]
  obtain ⟨s, run, out⟩ := compEscape_writes (sink_printHandlerDyn (escapedText eh pl).length) eh pl []
    (Nat.le_refl _)
  obtain ⟨s', back, out'⟩ := compUnescape_escapedText (sink_printHandlerDyn pl.length) heh pl ascii []
    (Nat.le_refl _)
  simp only [id, List.nil_append] at out out'
  rw [out, shape] at run
  rw [shape, out'] at back
  exact ⟨run, back⟩

-- A witness: a user name with a space.
omit heh in
theorem comp_round_trip_ascii_space :
    compEscape printHandlerDyn isUser [0x61, 0x20] [] = some ([0x61, 0x20].flatMap (fun c => if isUser c then [c]
        else ['%'.toUInt8, itoaDigit (c.toNat / 16) true, itoaDigit (c.toNat % 16) true]), false) ∧
      compUnescape printHandlerDyn isUser ([0x61, 0x20].flatMap fun c => if isUser c then [c]
        else ['%'.toUInt8, itoaDigit (c.toNat / 16) true, itoaDigit (c.toNat % 16) true]) [] = .ok [0x61, 0x20] :=
  comp_round_trip_ascii (List.mem_cons_self ..) [0x61, 0x20] (by simp)

-- A byte from 0x80 up is escaped with eight digits, and unescaping reads the first two of them
-- as one byte and copies the other six.
theorem comp_high_byte (b : UInt8) (high : 0x80 ≤ b) :
    let digits := [itoaDigit (b.toNat / 16) true, itoaDigit (b.toNat % 16) true]
    compEscape printHandlerDyn eh [b] [] = some (cstr "%FFFFFF" ++ digits, false) ∧
      compUnescape printHandlerDyn eh (cstr "%FFFFFF" ++ digits) [] = .ok (0xFF :: cstr "FFFF" ++ digits) := by
  intro digits
  have range : b.toNat < 256 := b.toNat_lt
  have written : escapedText eh [b] = cstr "%FFFFFF" ++ digits := by
    simp [escapedText, rejects_high heh high, hexText_high b high, digits, cstr]
  obtain ⟨s, run, out⟩ := compEscape_writes (sink_printHandlerDyn 9) eh [b] []
    (by rw [written]; simp [cstr, digits])
  simp only [id, List.nil_append, written] at out
  refine ⟨by rw [run, out], ?_⟩
  have F : eh 'F'.toUInt8 = true := accepts_alnum heh (by decide)
  have hi : eh (itoaDigit (b.toNat / 16) true) = true := accepts_alnum heh (isalnum_itoaDigit _ (by omega) _)
  have lo : eh (itoaDigit (b.toNat % 16) true) = true := accepts_alnum heh (isalnum_itoaDigit _ (by omega) _)
  have text : cstr "%FFFFFF" ++ digits = '%'.toUInt8 :: 'F'.toUInt8 :: 'F'.toUInt8 :: 'F'.toUInt8 ::
      'F'.toUInt8 :: 'F'.toUInt8 :: 'F'.toUInt8 :: digits := by
    simp [cstr]
  rw [text, compUnescape_percent eh (rejects_percent heh) rfl, compUnescape_class eh F rfl,
    compUnescape_class eh F rfl, compUnescape_class eh F rfl, compUnescape_class eh F rfl,
    compUnescape_class eh hi rfl, compUnescape_class eh lo rfl, compUnescape.eq_def]
  simp [printHandlerDyn, cstr, digits]
  decide

end Classes

theorem uri_escape_round_trip_high_byte (escape : List UInt8 → List UInt8 → Option (List UInt8 × Bool))
    (unescape : List UInt8 → List UInt8 → Except Errno (List UInt8))
    (pair : (escape, unescape) ∈ [(uriUserEscape printHandlerDyn, uriUserUnescape printHandlerDyn),
      (uriPasswordEscape printHandlerDyn, uriPasswordUnescape printHandlerDyn),
      (uriParamEscape printHandlerDyn, uriParamUnescape printHandlerDyn),
      (uriHeaderEscape printHandlerDyn, uriHeaderUnescape printHandlerDyn)])
    (b : UInt8) (high : 0x80 ≤ b) :
    let digits := [itoaDigit (b.toNat / 16) true, itoaDigit (b.toNat % 16) true]
    escape [b] [] = some (cstr "%FFFFFF" ++ digits, false) ∧
      unescape (cstr "%FFFFFF" ++ digits) [] = .ok (0xFF :: cstr "FFFF" ++ digits) := by
  simp only [List.mem_cons, Prod.mk.injEq, List.not_mem_nil, or_false] at pair
  rcases pair with ⟨rfl, rfl⟩ | ⟨rfl, rfl⟩ | ⟨rfl, rfl⟩ | ⟨rfl, rfl⟩
  · exact @comp_high_byte isUser (by simp) b high
  · exact @comp_high_byte isPassword (by simp) b high
  · exact @comp_high_byte isParamchar (by simp) b high
  · exact @comp_high_byte isHvalue (by simp) b high

theorem uri_escape_round_trip_high_byte_e9 : (0x80 : UInt8) ≤ 0xE9 ∧
    uriUserEscape printHandlerDyn [0xE9] [] = some (cstr "%FFFFFFE9", false) ∧
    uriUserUnescape printHandlerDyn (cstr "%FFFFFFE9") [] = .ok (0xFF :: cstr "FFFFE9") := by
  have e9 := uri_escape_round_trip_high_byte (uriUserEscape printHandlerDyn) (uriUserUnescape printHandlerDyn)
    (by simp) 0xE9 (by decide)
  have digits : [itoaDigit ((0xE9 : UInt8).toNat / 16) true, itoaDigit ((0xE9 : UInt8).toNat % 16) true] =
      cstr "E9" := by decide
  have joined : cstr "%FFFFFF" ++ cstr "E9" = cstr "%FFFFFFE9" := by simp [cstr]
  have rest : 0xFF :: cstr "FFFF" ++ cstr "E9" = 0xFF :: cstr "FFFFE9" := by simp [cstr]
  simp only [digits, joined, rest] at e9
  exact ⟨by decide, e9⟩

end Libre.Uri
