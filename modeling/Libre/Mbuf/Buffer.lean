import Libre.Lib.Bytes

set_option autoImplicit false

/-!
# Memory buffers

`struct mbuf` from `mbuf/mbuf.c`: a byte array with a position and an end mark. A write past the
size grows the array as `mbuf_write_mem` does, the new cells zero, and allocation succeeds. The
multi-byte readers and writers are in network order, as every caller wraps them in `ntohs` or
`htons`.
-/

namespace Libre

inductive Errno
  | EINVAL | ENOMEM | EBADMSG | EOVERFLOW | ERANGE | EPROTO | ENOTSUP | ENOSR
  | ETIMEDOUT | EAUTH | EALREADY | EAFNOSUPPORT | ENOSYS | EFAULT | ENODATA | ENOENT | ENOTCONN
  | EADDRNOTAVAIL
  deriving DecidableEq, Repr

open BigEndian

structure Mbuf where
  buf : List UInt8
  pos : Nat
  end_ : Nat
  deriving DecidableEq, Repr

namespace Mbuf

def size (mb : Mbuf) : Nat := mb.buf.length

/-- `mbuf_get_left`: the bytes between the position and the end. -/
def getLeft (mb : Mbuf) : Nat := mb.end_ - mb.pos

/-- `mbuf_get_space`: the room between the position and the array's size. -/
def getSpace (mb : Mbuf) : Nat := mb.size - mb.pos

/-- The bytes `mbuf_buf(mb)` points at, up to the end. -/
def left (mb : Mbuf) : List UInt8 := mb.buf.extract mb.pos mb.end_

def DEFAULT_SIZE : Nat := 512

/-- `mbuf_alloc(size)`: an empty buffer of that size, or of `DEFAULT_SIZE` for a request of
zero. -/
def alloc (size : Nat) : Mbuf := ⟨List.replicate (if size = 0 then DEFAULT_SIZE else size) 0, 0, 0⟩

def setPos (mb : Mbuf) (pos : Nat) : Mbuf := { mb with pos := pos }

def setEnd (mb : Mbuf) (end_ : Nat) : Mbuf := { mb with end_ := end_ }

def advance (mb : Mbuf) (n : Nat) : Mbuf := { mb with pos := mb.pos + n }

/-- `mbuf_resize`: `mem_realloc` keeps the first bytes and the new tail is fresh. -/
def resize (mb : Mbuf) (size : Nat) : Mbuf :=
  { mb with buf := mb.buf.take size ++ List.replicate (size - mb.buf.length) 0 }

def writeMem (mb : Mbuf) (data : List UInt8) : Mbuf :=
  let rsize := mb.pos + data.length
  let grown :=
    if rsize > mb.size then mb.resize (max rsize (if mb.size = 0 then 512 else mb.size * 2))
    else mb
  { buf := setRange grown.buf mb.pos data, pos := rsize, end_ := max mb.end_ rsize }

def writeU8 (mb : Mbuf) (v : UInt8) : Mbuf := mb.writeMem [v]

def writeU16 (mb : Mbuf) (v : UInt16) : Mbuf := mb.writeMem (netBytes 2 v.toNat)

def writeU32 (mb : Mbuf) (v : UInt32) : Mbuf := mb.writeMem (netBytes 4 v.toNat)

def writeU64 (mb : Mbuf) (v : UInt64) : Mbuf := mb.writeMem (netBytes 8 v.toNat)

/-- Bytes already in the array replaced where they stand, as `aes_encr(aes, p, p, n)` does. -/
def overwrite (mb : Mbuf) (at_ : Nat) (data : List UInt8) : Mbuf :=
  { mb with buf := setRange mb.buf at_ data }

def readMem (mb : Mbuf) (n : Nat) : Except Errno (List UInt8 × Mbuf) :=
  if n > mb.getLeft then .error .EOVERFLOW
  else .ok (mb.buf.extract mb.pos (mb.pos + n), mb.advance n)

/-- The shared body of `mbuf_read_u8` .. `mbuf_read_u64`: zero and no move when short. -/
def readNet (mb : Mbuf) (n : Nat) : Nat × Mbuf :=
  match mb.readMem n with
  | .ok (bytes, mb) => (netValue bytes, mb)
  | .error _ => (0, mb)

def readU8 (mb : Mbuf) : UInt8 × Mbuf := let r := mb.readNet 1; (UInt8.ofNat r.1, r.2)

def readU16 (mb : Mbuf) : UInt16 × Mbuf := let r := mb.readNet 2; (UInt16.ofNat r.1, r.2)

def readU32 (mb : Mbuf) : UInt32 × Mbuf := let r := mb.readNet 4; (UInt32.ofNat r.1, r.2)

def readU64 (mb : Mbuf) : UInt64 × Mbuf := let r := mb.readNet 8; (UInt64.ofNat r.1, r.2)

/-! ## Laws -/

@[simp] theorem alloc_pos (n : Nat) : (alloc n).pos = 0 := rfl
@[simp] theorem alloc_end (n : Nat) : (alloc n).end_ = 0 := rfl
@[simp] theorem size_alloc (n : Nat) : (alloc n).size = if n = 0 then DEFAULT_SIZE else n := by
  simp [alloc, size]
@[simp] theorem size_setPos (mb : Mbuf) (p : Nat) : (mb.setPos p).size = mb.size := rfl
@[simp] theorem setPos_buf (mb : Mbuf) (p : Nat) : (mb.setPos p).buf = mb.buf := rfl
@[simp] theorem setPos_pos (mb : Mbuf) (p : Nat) : (mb.setPos p).pos = p := rfl
@[simp] theorem setPos_end (mb : Mbuf) (p : Nat) : (mb.setPos p).end_ = mb.end_ := rfl
@[simp] theorem setEnd_buf (mb : Mbuf) (e : Nat) : (mb.setEnd e).buf = mb.buf := rfl
@[simp] theorem setEnd_pos (mb : Mbuf) (e : Nat) : (mb.setEnd e).pos = mb.pos := rfl
@[simp] theorem setEnd_end (mb : Mbuf) (e : Nat) : (mb.setEnd e).end_ = e := rfl
@[simp] theorem advance_buf (mb : Mbuf) (n : Nat) : (mb.advance n).buf = mb.buf := rfl
@[simp] theorem advance_pos (mb : Mbuf) (n : Nat) : (mb.advance n).pos = mb.pos + n := rfl
@[simp] theorem advance_end (mb : Mbuf) (n : Nat) : (mb.advance n).end_ = mb.end_ := rfl
@[simp] theorem advance_zero (mb : Mbuf) : mb.advance 0 = mb := rfl

@[simp] theorem overwrite_pos (mb : Mbuf) (a : Nat) (d : List UInt8) :
    (mb.overwrite a d).pos = mb.pos := rfl
@[simp] theorem overwrite_end (mb : Mbuf) (a : Nat) (d : List UInt8) :
    (mb.overwrite a d).end_ = mb.end_ := rfl
@[simp] theorem overwrite_buf (mb : Mbuf) (a : Nat) (d : List UInt8) :
    (mb.overwrite a d).buf = setRange mb.buf a d := rfl

theorem length_resize (mb : Mbuf) (n : Nat) (grows : mb.size ≤ n) :
    (mb.resize n).buf.length = n := by
  simp only [resize, size, List.length_append, List.length_take, List.length_replicate] at *
  omega

theorem resize_take (mb : Mbuf) (n : Nat) (grows : mb.size ≤ n) :
    (mb.resize n).buf.take mb.size = mb.buf := by
  simp only [resize, size] at *
  rw [List.take_of_length_le grows, List.take_append_of_le_length (by simp)]
  simp

@[simp] theorem writeMem_pos (mb : Mbuf) (data : List UInt8) :
    (mb.writeMem data).pos = mb.pos + data.length := rfl

@[simp] theorem writeMem_end (mb : Mbuf) (data : List UInt8) :
    (mb.writeMem data).end_ = max mb.end_ (mb.pos + data.length) := rfl

theorem writeMem_buf (mb : Mbuf) (data : List UInt8) :
    ∃ grown : List UInt8, mb.pos + data.length ≤ grown.length ∧ mb.size ≤ grown.length ∧
      grown.take mb.size = mb.buf ∧ (mb.writeMem data).buf = setRange grown mb.pos data := by
  by_cases grow : mb.pos + data.length > mb.size
  · refine ⟨(mb.resize (max (mb.pos + data.length)
      (if mb.size = 0 then 512 else mb.size * 2))).buf, ?_, ?_, ?_, ?_⟩
    · rw [length_resize _ _ (by omega)]; omega
    · rw [length_resize _ _ (by omega)]; omega
    · exact resize_take _ _ (by omega)
    · simp [writeMem, grow]
  · refine ⟨mb.buf, by simp only [size] at grow; omega, le_refl _, List.take_length, ?_⟩
    simp [writeMem, grow]

theorem writeMem_size (mb : Mbuf) (data : List UInt8) :
    mb.size ≤ (mb.writeMem data).size ∧ mb.pos + data.length ≤ (mb.writeMem data).size := by
  obtain ⟨grown, fits, grows, -, eq⟩ := writeMem_buf mb data
  simp only [size, eq, length_setRange _ _ _ fits]
  exact ⟨grows, fits⟩

theorem writeMem_extract_self (mb : Mbuf) (data : List UInt8) :
    (mb.writeMem data).buf.extract mb.pos (mb.pos + data.length) = data := by
  obtain ⟨grown, fits, -, -, eq⟩ := writeMem_buf mb data
  rw [eq, setRange_extract_self _ _ _ fits]

theorem writeMem_extract_before (mb : Mbuf) (data : List UInt8) (a b : Nat)
    (before : b ≤ mb.pos) (within : mb.pos ≤ mb.size) :
    (mb.writeMem data).buf.extract a b = mb.buf.extract a b := by
  obtain ⟨grown, fits, grows, prefixes, eq⟩ := writeMem_buf mb data
  rw [eq, extract_setRange_before _ _ _ _ _ (by omega) before, ← prefixes,
    extract_take_of_le _ _ _ _ (by omega)]

theorem writeMem_extract_after (mb : Mbuf) (data : List UInt8) (a b : Nat)
    (after : mb.pos + data.length ≤ a) (inside : b ≤ mb.size) :
    (mb.writeMem data).buf.extract a b = mb.buf.extract a b := by
  obtain ⟨grown, fits, grows, prefixes, eq⟩ := writeMem_buf mb data
  rw [eq, extract_setRange_after _ _ _ _ _ fits after, ← prefixes,
    extract_take_of_le _ _ _ _ inside]

theorem writeMem_of_fits (mb : Mbuf) (data : List UInt8) (fits : mb.pos + data.length ≤ mb.size) :
    mb.writeMem data =
      ⟨setRange mb.buf mb.pos data, mb.pos + data.length, max mb.end_ (mb.pos + data.length)⟩ := by
  simp [writeMem, Nat.not_lt.mpr fits]

theorem writeMem_append (mb : Mbuf) (xs ys : List UInt8)
    (fits : mb.pos + xs.length + ys.length ≤ mb.size) :
    (mb.writeMem xs).writeMem ys = mb.writeMem (xs ++ ys) := by
  have first : mb.pos + xs.length ≤ mb.size := by omega
  have kept : (mb.writeMem xs).size = mb.size := by
    rw [writeMem_of_fits mb xs first, size, length_setRange _ _ _ first, size]
  rw [writeMem_of_fits (mb.writeMem xs) ys (by rw [kept, writeMem_pos]; exact fits),
    writeMem_of_fits mb (xs ++ ys) (by rw [List.length_append]; omega)]
  simp only [writeMem_of_fits mb xs first, setRange_append _ _ _ _ first, List.length_append,
    Nat.add_assoc, Mbuf.mk.injEq, true_and]
  omega

theorem readMem_of_le (mb : Mbuf) (n : Nat) (enough : n ≤ mb.getLeft) :
    mb.readMem n = .ok (mb.buf.extract mb.pos (mb.pos + n), mb.advance n) := by
  simp [readMem, Nat.not_lt.mpr enough]

theorem readMem_of_lt (mb : Mbuf) (n : Nat) (short : mb.getLeft < n) :
    mb.readMem n = .error .EOVERFLOW := by
  simp [readMem, short]

theorem readNet_of_le (mb : Mbuf) (n : Nat) (enough : n ≤ mb.getLeft) :
    mb.readNet n = (netValue (mb.buf.extract mb.pos (mb.pos + n)), mb.advance n) := by
  simp [readNet, readMem_of_le mb n enough]

theorem readNet_of_lt (mb : Mbuf) (n : Nat) (short : mb.getLeft < n) : mb.readNet n = (0, mb) := by
  simp [readNet, readMem_of_lt mb n short]

theorem readNet_snd (mb : Mbuf) (n : Nat) :
    (mb.readNet n).2 = mb.setPos (if n ≤ mb.getLeft then mb.pos + n else mb.pos) := by
  by_cases enough : n ≤ mb.getLeft
  · simp [readNet_of_le mb n enough, enough, advance, setPos]
  · simp [readNet_of_lt mb n (by omega), enough, setPos]

@[simp] theorem setPos_setPos (mb : Mbuf) (p q : Nat) : (mb.setPos p).setPos q = mb.setPos q := rfl
@[simp] theorem advance_setPos (mb : Mbuf) (n p : Nat) : (mb.advance n).setPos p = mb.setPos p :=
  rfl
@[simp] theorem advance_advance (mb : Mbuf) (a b : Nat) : (mb.advance a).advance b = mb.advance (a + b) := by
  simp only [advance, Nat.add_assoc]
@[simp] theorem setPos_self (mb : Mbuf) : mb.setPos mb.pos = mb := rfl

@[simp] theorem readNet_setPos (mb : Mbuf) (n p : Nat) : (mb.readNet n).2.setPos p = mb.setPos p := by
  rw [readNet_snd]; rfl

@[simp] theorem readNet_buf (mb : Mbuf) (n : Nat) : (mb.readNet n).2.buf = mb.buf := by
  rw [readNet_snd]; rfl

@[simp] theorem readNet_end (mb : Mbuf) (n : Nat) : (mb.readNet n).2.end_ = mb.end_ := by
  rw [readNet_snd]; rfl

theorem readNet_pos (mb : Mbuf) (n : Nat) (enough : n ≤ mb.getLeft) :
    (mb.readNet n).2.pos = mb.pos + n := by
  simp [readNet_snd, enough]

@[simp] theorem readU8_snd (mb : Mbuf) : mb.readU8.2 = (mb.readNet 1).2 := rfl
@[simp] theorem readU16_snd (mb : Mbuf) : mb.readU16.2 = (mb.readNet 2).2 := rfl
@[simp] theorem readU32_snd (mb : Mbuf) : mb.readU32.2 = (mb.readNet 4).2 := rfl
@[simp] theorem readU64_snd (mb : Mbuf) : mb.readU64.2 = (mb.readNet 8).2 := rfl

theorem readU8_snd_of_le (mb : Mbuf) (enough : 1 ≤ mb.getLeft) : mb.readU8.2 = mb.advance 1 := by
  rw [readU8_snd, readNet_of_le mb 1 enough]

theorem readU16_snd_of_le (mb : Mbuf) (enough : 2 ≤ mb.getLeft) : mb.readU16.2 = mb.advance 2 := by
  rw [readU16_snd, readNet_of_le mb 2 enough]

theorem readU32_snd_of_le (mb : Mbuf) (enough : 4 ≤ mb.getLeft) : mb.readU32.2 = mb.advance 4 := by
  rw [readU32_snd, readNet_of_le mb 4 enough]

/-! ## What a buffer holds

`Frame mb a xs`: the bytes from `a` to the end are `xs`. -/

theorem holdsAt_writeMem (mb : Mbuf) (data : List UInt8) :
    HoldsAt (mb.writeMem data).buf mb.pos data :=
  ⟨(writeMem_size mb data).2, writeMem_extract_self mb data⟩

theorem HoldsAt.writeMem_before {mb : Mbuf} {a : Nat} {xs : List UInt8} (h : HoldsAt mb.buf a xs)
    (data : List UInt8) (before : a + xs.length ≤ mb.pos) (within : mb.pos ≤ mb.size) :
    HoldsAt (mb.writeMem data).buf a xs := by
  have grows := (writeMem_size mb data).1
  have fits := h.fits
  simp only [size] at grows within
  refine ⟨by omega, ?_⟩
  rw [writeMem_extract_before mb data _ _ before within, h.bytes]

theorem HoldsAt.writeMem_after {mb : Mbuf} {a : Nat} {xs : List UInt8} (h : HoldsAt mb.buf a xs)
    (data : List UInt8) (after : mb.pos + data.length ≤ a) :
    HoldsAt (mb.writeMem data).buf a xs := by
  have grows := (writeMem_size mb data).1
  have fits := h.fits
  simp only [size] at grows
  refine ⟨by omega, ?_⟩
  rw [writeMem_extract_after mb data _ _ after fits, h.bytes]

theorem HoldsAt.writeMem_next {mb : Mbuf} {a : Nat} {xs : List UInt8} (h : HoldsAt mb.buf a xs)
    (at_ : mb.pos = a + xs.length) (data : List UInt8) :
    HoldsAt (mb.writeMem data).buf a (xs ++ data) := by
  have fits := h.fits
  refine (HoldsAt.writeMem_before h data (by omega) (by simp only [size]; omega)).append ?_
  rw [← at_]
  exact holdsAt_writeMem mb data

structure Frame (mb : Mbuf) (a : Nat) (xs : List UInt8) : Prop where
  holds : HoldsAt mb.buf a xs
  ends : mb.end_ = a + xs.length

theorem frame_self (p : List UInt8) : Frame ⟨p, 0, p.length⟩ 0 p :=
  ⟨holdsAt_self p, by simp⟩

theorem frame_alloc (n : Nat) : Frame (alloc n) 0 [] :=
  ⟨⟨by simp, by simp⟩, rfl⟩

theorem frame_left (mb : Mbuf) (at_ : mb.pos ≤ mb.end_) (within : mb.end_ ≤ mb.size) :
    Frame mb mb.pos mb.left := by
  have length : mb.left.length = mb.end_ - mb.pos := by
    simp only [Mbuf.left, List.extract_eq_take_drop, List.length_take, List.length_drop, size] at *
    omega
  refine ⟨⟨?_, ?_⟩, ?_⟩
  · simp only [size] at within
    omega
  · rw [length, Nat.add_sub_cancel' at_, Mbuf.left]
  · omega

theorem Frame.left {mb : Mbuf} {a : Nat} {xs : List UInt8} (h : Frame mb a xs)
    (at_ : mb.pos = a) : mb.left = xs := by
  rw [Mbuf.left, h.ends, at_, h.holds.bytes]

theorem Frame.getLeft_eq {mb : Mbuf} {xs : List UInt8} (h : Frame mb mb.pos xs) :
    mb.getLeft = xs.length := by
  rw [Mbuf.getLeft, h.ends, Nat.add_sub_cancel_left]

theorem Frame.within {mb : Mbuf} {a : Nat} {xs : List UInt8} (h : Frame mb a xs) :
    mb.end_ ≤ mb.size := by
  have fits := h.holds.fits
  rw [size, h.ends]
  exact fits

section Frames

variable {mb : Mbuf} {a : Nat} {xs ys zs : List UInt8}

@[simp] theorem frame_setPos (p : Nat) : Frame (mb.setPos p) a xs ↔ Frame mb a xs :=
  ⟨fun h => ⟨h.1, h.2⟩, fun h => ⟨h.1, h.2⟩⟩

@[simp] theorem frame_advance (n : Nat) : Frame (mb.advance n) a xs ↔ Frame mb a xs :=
  ⟨fun h => ⟨h.1, h.2⟩, fun h => ⟨h.1, h.2⟩⟩

theorem Frame.suffix (h : Frame mb a (xs ++ ys)) : Frame mb (a + xs.length) ys :=
  ⟨h.holds.right, by rw [h.ends, List.length_append, Nat.add_assoc]⟩

theorem Frame.front (h : Frame mb a (xs ++ ys)) : Frame (mb.setEnd (a + xs.length)) a xs :=
  ⟨h.holds.left, rfl⟩

theorem Frame.writeMem_end (h : Frame mb a xs) (at_ : mb.pos = mb.end_) (data : List UInt8) :
    Frame (mb.writeMem data) a (xs ++ data) := by
  have room := h.within
  have ends := h.ends
  refine ⟨(HoldsAt.writeMem_before h.holds data (by omega) (by omega)).append ?_, ?_⟩
  · rw [← ends, ← at_]
    exact holdsAt_writeMem mb data
  · rw [Mbuf.writeMem_end, List.length_append]
    omega

theorem Frame.overwrite (h : Frame mb a (xs ++ ys ++ zs)) (ws : List UInt8)
    (same : ws.length = ys.length) : Frame (mb.overwrite (a + xs.length) ws) a (xs ++ ws ++ zs) := by
  have room := h.within
  have ends := h.ends
  have fits : a + xs.length + ws.length ≤ mb.buf.length := by
    simp only [size, List.length_append] at room ends
    omega
  have front := h.holds.left.left.setRange_before ws (by omega) (le_refl _)
  have back := h.holds.right.setRange_after ws fits (by simp [same]; omega)
  refine ⟨(front.append (holdsAt_setRange _ _ _ fits)).append ?_, ?_⟩
  · simpa [same, Nat.add_assoc] using back
  · simp only [overwrite_end, ends, List.length_append, same]

theorem Frame.overwrite_tail (h : Frame mb a (xs ++ ys)) (ws : List UInt8)
    (same : ws.length = ys.length) : Frame (mb.overwrite (a + xs.length) ws) a (xs ++ ws) := by
  simpa using @Frame.overwrite mb a xs ys [] (by simpa using h) ws same

theorem Frame.readMem_suffix (h : Frame mb a (xs ++ ys)) :
    (mb.setPos (a + xs.length)).readMem ys.length =
      .ok (ys, (mb.setPos (a + xs.length)).advance ys.length) := by
  have ends := h.ends
  have enough : ys.length ≤ (mb.setPos (a + xs.length)).getLeft := by
    simp only [getLeft, setPos_pos, setPos_end, ends, List.length_append]
    omega
  rw [readMem_of_le _ _ enough]
  simp only [setPos_buf, setPos_pos, h.holds.right.bytes]

theorem Frame.readMem_at (h : Frame mb a (xs ++ ys ++ zs)) (at_ : mb.pos = a + xs.length) :
    mb.readMem ys.length = .ok (ys, mb.advance ys.length) := by
  have ends := h.ends
  have enough : ys.length ≤ mb.getLeft := by
    simp only [getLeft, ends, at_, List.length_append]
    omega
  rw [readMem_of_le mb _ enough, at_, h.holds.left.right.bytes]

theorem Frame.readNet_at (h : Frame mb a (xs ++ ys ++ zs)) (at_ : mb.pos = a + xs.length) :
    mb.readNet ys.length = (netValue ys, mb.advance ys.length) := by
  simp [readNet, h.readMem_at at_]

theorem Frame.readMem_framed (h : Frame mb mb.pos (xs ++ zs)) {i n : Nat} (fits : i + n ≤ xs.length) :
    (mb.advance i).readMem n = .ok ((xs.drop i).take n, mb.advance (i + n)) := by
  have whole : xs ++ zs = xs.take i ++ (xs.drop i).take n ++ ((xs.drop i).drop n ++ zs) := by
    rw [List.append_assoc, ← List.append_assoc (List.take n _), List.take_append_drop,
      ← List.append_assoc, List.take_append_drop]
  have length : ((xs.drop i).take n).length = n := by
    simp only [List.length_take, List.length_drop]
    omega
  have read := @Frame.readMem_at (mb.advance i) mb.pos (xs.take i) ((xs.drop i).take n) _
    (by rw [frame_advance, ← whole]; exact h) (by simp only [advance, List.length_take]; omega)
  rw [length, advance_advance] at read
  exact read

theorem Frame.readU8_framed (h : Frame mb mb.pos (xs ++ zs)) {i : Nat} (lt : i < xs.length) :
    (mb.advance i).readU8 = (xs[i], mb.advance (i + 1)) := by
  have read := h.readMem_framed (i := i) (n := 1) (by omega)
  rw [List.take_one_drop_eq_of_lt_length lt] at read
  simp [readU8, readNet, read]

theorem Frame.readU8_at {v : UInt8} (h : Frame mb a (xs ++ [v] ++ zs)) (at_ : mb.pos = a + xs.length) :
    mb.readU8 = (v, mb.advance 1) := by
  have read := h.readNet_at at_
  rw [List.length_singleton, netValue_singleton] at read
  simp [readU8, read]

theorem Frame.getElem!_at {v : UInt8} (h : Frame mb a (xs ++ [v] ++ zs)) :
    mb.buf[a + xs.length]! = v :=
  h.holds.left.right.getElem!_eq

theorem Frame.lt_end {v : UInt8} (h : Frame mb a (xs ++ [v] ++ zs)) : a + xs.length < mb.end_ := by
  have ends := h.ends
  simp only [List.length_append, List.length_singleton] at ends
  omega

theorem Frame.readU16_at {v : UInt16} (h : Frame mb a (xs ++ netBytes 2 v.toNat ++ zs))
    (at_ : mb.pos = a + xs.length) : mb.readU16 = (v, mb.advance 2) := by
  have read := h.readNet_at at_
  rw [length_netBytes, netValue_netBytes] at read
  simp [readU16, read]

theorem Frame.readU32_at {v : UInt32} (h : Frame mb a (xs ++ netBytes 4 v.toNat ++ zs))
    (at_ : mb.pos = a + xs.length) : mb.readU32 = (v, mb.advance 4) := by
  have read := h.readNet_at at_
  rw [length_netBytes, netValue_netBytes] at read
  simp [readU32, read]

theorem Frame.readU64_at {v : UInt64} (h : Frame mb a (xs ++ netBytes 8 v.toNat ++ zs))
    (at_ : mb.pos = a + xs.length) : mb.readU64 = (v, mb.advance 8) := by
  have read := h.readNet_at at_
  rw [length_netBytes, netValue_netBytes] at read
  simp [readU64, read]

/-! Reads from the front of a frame that starts at the position, as a decoder makes them one
after another. -/

theorem Frame.getLeft_front (h : Frame mb mb.pos (xs ++ zs)) : mb.getLeft = xs.length + zs.length := by
  rw [h.getLeft_eq, List.length_append]

theorem Frame.extract_front (h : Frame mb mb.pos (xs ++ zs)) :
    mb.buf.extract mb.pos (mb.pos + xs.length) = xs :=
  h.holds.left.bytes

theorem Frame.readMem_front (h : Frame mb mb.pos (xs ++ zs)) :
    mb.readMem xs.length = .ok (xs, mb.advance xs.length) :=
  @Frame.readMem_at mb mb.pos [] xs zs (by simpa using h) (by simp)

theorem Frame.readU8_front {b : UInt8} (h : Frame mb mb.pos (b :: zs)) :
    mb.readU8 = (b, mb.advance 1) :=
  @Frame.readU8_at mb mb.pos [] zs b (by simpa using h) (by simp)

theorem Frame.skip (h : Frame mb mb.pos (xs ++ zs)) :
    Frame (mb.advance xs.length) (mb.advance xs.length).pos zs := by
  rw [frame_advance, advance_pos]
  exact h.suffix

theorem Frame.readU8_cons {b : UInt8} (h : Frame mb mb.pos (b :: zs)) :
    mb.readU8 = (b, mb.advance 1) ∧ Frame (mb.advance 1) (mb.advance 1).pos zs :=
  ⟨h.readU8_front, @Frame.skip mb [b] zs h⟩

theorem Frame.readU16_front {n : Nat} (h : Frame mb mb.pos (netBytes 2 n ++ zs)) :
    mb.readU16 = (UInt16.ofNat n, mb.advance 2) :=
  @Frame.readU16_at mb mb.pos [] zs _ (by rwa [List.nil_append, netBytes_uint16]) (by simp)

theorem Frame.readU32_front {n : Nat} (h : Frame mb mb.pos (netBytes 4 n ++ zs)) :
    mb.readU32 = (UInt32.ofNat n, mb.advance 4) :=
  @Frame.readU32_at mb mb.pos [] zs _ (by rwa [List.nil_append, netBytes_uint32]) (by simp)

theorem Frame.readU64_front {v : UInt64} (h : Frame mb mb.pos (netBytes 8 v.toNat ++ zs)) :
    mb.readU64 = (v, mb.advance 8) :=
  @Frame.readU64_at mb mb.pos [] zs v (by simpa using h) (by simp)

end Frames

/-! ## Buffers that agree on a window

`Agree mb mb' n`: `mb'` holds the `n` bytes at `mb`'s position, as the receiving end of a protocol
sees what the sender wrote. -/

structure Agree (mb mb' : Mbuf) (n : Nat) : Prop where
  pos : mb'.pos = mb.pos
  bytes : mb'.buf.extract mb.pos (mb.pos + n) = mb.buf.extract mb.pos (mb.pos + n)
  within : n ≤ mb.getLeft
  longer : mb.getLeft ≤ mb'.getLeft

theorem Agree.extract {mb mb' : Mbuf} {n : Nat} (h : Agree mb mb' n) {a b : Nat}
    (lo : mb.pos ≤ a) (hi : b ≤ mb.pos + n) : mb'.buf.extract a b = mb.buf.extract a b := by
  rw [← extract_extract mb'.buf mb.pos a (mb.pos + n) b lo hi,
    ← extract_extract mb.buf mb.pos a (mb.pos + n) b lo hi, h.bytes]

theorem Agree.advance {mb mb' : Mbuf} {n k : Nat} (h : Agree mb mb' n) (hk : k ≤ n) :
    Agree (mb.advance k) (mb'.advance k) (n - k) := by
  have within := h.within
  have longer := h.longer
  refine ⟨by simp [h.pos], h.extract (by simp) (by simp; omega), ?_, ?_⟩
  · simp only [getLeft, advance_pos, advance_end] at *
    omega
  · simp only [getLeft, advance_pos, advance_end, h.pos] at *
    omega

theorem Agree.readMem {mb mb' : Mbuf} {n k : Nat} (h : Agree mb mb' n) (hk : k ≤ n) :
    mb'.readMem k = .ok (mb.buf.extract mb.pos (mb.pos + k), mb'.advance k) ∧
      mb.readMem k = .ok (mb.buf.extract mb.pos (mb.pos + k), mb.advance k) := by
  have enough : k ≤ mb.getLeft := le_trans hk h.within
  rw [readMem_of_le mb' k (le_trans enough h.longer), readMem_of_le mb k enough, h.pos,
    h.extract (le_refl _) (by omega)]
  exact ⟨rfl, rfl⟩

theorem Agree.readNet {mb mb' : Mbuf} {n k : Nat} (h : Agree mb mb' n) (hk : k ≤ n) :
    mb'.readNet k = ((mb.readNet k).1, mb'.advance k) ∧ (mb.readNet k).2 = mb.advance k := by
  obtain ⟨read', read⟩ := h.readMem hk
  simp [Mbuf.readNet, read', read]

theorem Agree.readU16 {mb mb' : Mbuf} {n : Nat} (h : Agree mb mb' n) (hk : 2 ≤ n) :
    mb'.readU16 = (mb.readU16.1, mb'.advance 2) := by
  simp [Mbuf.readU16, (h.readNet hk).1]

theorem Agree.readU32 {mb mb' : Mbuf} {n : Nat} (h : Agree mb mb' n) (hk : 4 ≤ n) :
    mb'.readU32 = (mb.readU32.1, mb'.advance 4) := by
  simp [Mbuf.readU32, (h.readNet hk).1]

/-! ## Reading on

`ReadOn mb mb'`: `mb'` is `mb` with its position moved forward, as every read leaves it. -/

structure ReadOn (mb mb' : Mbuf) : Prop where
  buf : mb'.buf = mb.buf
  ends : mb'.end_ = mb.end_
  forward : mb.pos ≤ mb'.pos
  within : mb'.pos ≤ max mb.pos mb.end_

theorem ReadOn.refl (mb : Mbuf) : ReadOn mb mb :=
  ⟨rfl, rfl, le_refl _, le_max_left _ _⟩

theorem ReadOn.trans {mb mb' mb'' : Mbuf} (h : ReadOn mb mb') (h' : ReadOn mb' mb'') :
    ReadOn mb mb'' := by
  have within := h.within
  have within' := h'.within
  have ends := h.ends
  refine ⟨h'.buf.trans h.buf, h'.ends.trans h.ends, h.forward.trans h'.forward, ?_⟩
  omega

theorem ReadOn.getLeft_le {mb mb' : Mbuf} (h : ReadOn mb mb') : mb'.getLeft ≤ mb.getLeft := by
  have forward := h.forward
  simp only [getLeft, h.ends]
  omega

theorem ReadOn.setPos_eq {mb mb' : Mbuf} (h : ReadOn mb mb') : mb'.setPos mb.pos = mb := by
  have buf := h.buf
  have ends := h.ends
  cases mb
  cases mb'
  simp_all [setPos]

theorem readOn_advance (mb : Mbuf) {n : Nat} (enough : n ≤ mb.getLeft) :
    ReadOn mb (mb.advance n) := by
  refine ⟨rfl, rfl, by simp, ?_⟩
  simp only [getLeft, advance_pos] at *
  omega

theorem readOn_readMem {mb mb' : Mbuf} {n : Nat} {bytes : List UInt8}
    (h : mb.readMem n = .ok (bytes, mb')) : ReadOn mb mb' := by
  by_cases enough : n ≤ mb.getLeft
  · rw [readMem_of_le mb n enough] at h
    cases h
    exact readOn_advance mb enough
  · rw [readMem_of_lt mb n (by omega)] at h
    cases h

theorem readOn_readNet (mb : Mbuf) (n : Nat) : ReadOn mb (mb.readNet n).2 := by
  by_cases enough : n ≤ mb.getLeft
  · rw [readNet_of_le mb n enough]
    exact readOn_advance mb enough
  · rw [readNet_of_lt mb n (by omega)]
    exact ReadOn.refl mb

theorem readOn_readU8 (mb : Mbuf) : ReadOn mb mb.readU8.2 := readOn_readNet mb 1
theorem readOn_readU16 (mb : Mbuf) : ReadOn mb mb.readU16.2 := readOn_readNet mb 2
theorem readOn_readU32 (mb : Mbuf) : ReadOn mb mb.readU32.2 := readOn_readNet mb 4

end Mbuf

end Libre
