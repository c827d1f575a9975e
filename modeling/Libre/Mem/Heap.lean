import Libre.Mbuf.Buffer

set_option autoImplicit false

/-!
# Reference-counted memory

`mem_alloc`, `mem_zalloc`, `mem_ref`, `mem_deref` and `mem_realloc` from `mem/mem.c`, with
`mbuf_alloc_ref`, `mbuf_resize` and `mbuf_trim`. What the C library decides is a parameter
(`Libc`); an access outside an object's bytes, undefined in C, is a `Fault`. The memory debugging
of `MEM_DEBUG` is left out.
-/

namespace Libre.Memory

open BigEndian

-- `~(uint32_t)0` where `size_t` is wider than 32 bits
def MEM_SIZE_MAX : Nat := 2 ^ 32 - 1

-- `struct mem` and the bytes after it; the destroy handler is named by a number
structure Mem where
  nrefs : Nat
  dh : Option Nat
  data : List UInt8
  deriving DecidableEq, Repr

def Mem.size (m : Mem) : Nat := m.data.length

structure Heap where
  objs : List (Option Mem)
  -- the destroy handlers called, with the object each was called on
  destroyed : List (Nat × Nat)
  deriving DecidableEq, Repr

inductive Fault
  | outOfBounds (p off : Nat)
  | dangling (p : Nat)
  deriving DecidableEq, Repr

structure Libc where
  mallocOk : Nat → Bool
  reallocOk : Nat → Bool
  junk : Nat → UInt8

-- `n` bytes of fresh memory
def fresh (libc : Libc) (n : Nat) : List UInt8 := (List.range n).map libc.junk

namespace Heap

def get? (h : Heap) (p : Nat) : Option Mem := h.objs[p]?.join

def set (h : Heap) (p : Nat) (m : Option Mem) : Heap := { h with objs := h.objs.set p m }

def push (h : Heap) (m : Mem) : Heap := { h with objs := h.objs ++ [some m] }

-- `n` bytes of object `p` from offset `off`
def read (h : Heap) (p off n : Nat) : Except Fault (List UInt8) :=
  match h.get? p with
  | none => .error (.dangling p)
  | some m => if off + n ≤ m.size then .ok ((m.data.drop off).take n) else .error (.outOfBounds p m.size)

-- `src` stored into object `p` from offset `off`; storing past the end is a fault at the first
-- byte past it
def write (h : Heap) (p off : Nat) (src : List UInt8) : Except Fault Heap :=
  match h.get? p with
  | none => .error (.dangling p)
  | some m =>
    if off + src.length ≤ m.size then .ok (h.set p (some { m with data := setRange m.data off src }))
    else .error (.outOfBounds p m.size)

end Heap

-- `memcpy(dst, src, n)`
def memcpy (h : Heap) (dst src n : Nat) : Except Fault Heap :=
  match h.read src 0 n with
  | .error f => .error f
  | .ok bytes => h.write dst 0 bytes

-- `mem_alloc(size, dh)`: a new object with one reference
def memAlloc (libc : Libc) (h : Heap) (size : Nat) (dh : Option Nat) : Option Nat × Heap :=
  if size > MEM_SIZE_MAX then (none, h)
  else if !libc.mallocOk size then (none, h)
  else (some h.objs.length, h.push ⟨1, dh, fresh libc size⟩)

-- `mem_zalloc(size, dh)`: `mem_alloc`, then `memset(p, 0, size)`
def memZalloc (libc : Libc) (h : Heap) (size : Nat) (dh : Option Nat) : Option Nat × Heap :=
  match memAlloc libc h size dh with
  | (none, h) => (none, h)
  | (some p, h) =>
    match h.write p 0 (List.replicate size 0) with
    | .ok h => (some p, h)
    | .error _ => (none, h)

-- `mem_ref(data)`
def memRef (h : Heap) (p : Nat) : Except Fault Heap :=
  match h.get? p with
  | none => .error (.dangling p)
  | some m => .ok (h.set p (some { m with nrefs := m.nrefs + 1 }))

-- `mem_deref(data)`: the last reference calls the destroy handler and frees the object
def memDeref (h : Heap) (p : Nat) : Except Fault Heap :=
  match h.get? p with
  | none => .error (.dangling p)
  | some m =>
    if m.nrefs > 1 then .ok (h.set p (some { m with nrefs := m.nrefs - 1 }))
    else
      let h := match m.dh with
        | some dh => { h with destroyed := h.destroyed ++ [(dh, p)] }
        | none => h
      .ok (h.set p none)

-- `mem_realloc(data, size)`: the new object, or `none` for `NULL`
def memRealloc (libc : Libc) (h : Heap) (p size : Nat) : Except Fault (Option Nat × Heap) :=
  if size > MEM_SIZE_MAX then .ok (none, h)
  else
    match h.get? p with
    | none => .error (.dangling p)
    | some m =>
      if m.nrefs > 1 then
        -- a shared object is copied into a new one, and this reference is dropped
        match memAlloc libc h size m.dh with
        | (none, h) => .ok (none, h)
        | (some q, h) =>
          match memcpy h q p m.size with
          | .error f => .error f
          | .ok h =>
            match memDeref h p with
            | .error f => .error f
            | .ok h => .ok (some q, h)
      else if !libc.reallocOk size then .ok (none, h)
      else .ok (some p, h.set p (some { m with data := m.data.take size ++ (fresh libc size).drop m.size }))

-- `struct mbuf`, its buffer an object of the heap
structure HeapMbuf where
  buf : Option Nat
  size : Nat
  pos : Nat
  end_ : Nat
  deriving DecidableEq, Repr

-- `mbuf_alloc_ref(mbr)`: a second `struct mbuf` over the same buffer
def mbufAllocRef (h : Heap) (mbr : HeapMbuf) : Except Fault (HeapMbuf × Heap) :=
  match mbr.buf with
  | none => .ok (mbr, h)
  | some b =>
    match memRef h b with
    | .error f => .error f
    | .ok h => .ok (mbr, h)

-- `mbuf_resize(mb, size)`
def mbufResize (libc : Libc) (h : Heap) (mb : HeapMbuf) (size : Nat) :
    Except Fault (Except Errno HeapMbuf × Heap) :=
  let buf := match mb.buf with
    | some b => memRealloc libc h b size
    | none => .ok (memAlloc libc h size none)
  match buf with
  | .error f => .error f
  | .ok (none, h) => .ok (.error .ENOMEM, h)
  | .ok (some b, h) => .ok (.ok { mb with buf := some b, size := size }, h)

-- `mbuf_trim(mb)`: shrink the buffer to the end mark; a failure is only reported
def mbufTrim (libc : Libc) (h : Heap) (mb : HeapMbuf) : Except Fault (HeapMbuf × Heap) :=
  if mb.end_ = 0 ∨ mb.end_ = mb.size then .ok (mb, h)
  else
    match mbufResize libc h mb mb.end_ with
    | .error f => .error f
    | .ok (.error _, h) => .ok (mb, h)
    | .ok (.ok mb, h) => .ok (mb, h)

/-! ## The heap's operations, one lemma each -/

namespace Heap

variable {h : Heap} {p q : Nat} {m : Mem}

theorem lt_of_get? (live : h.get? p = some m) : p < h.objs.length := by
  by_contra outside
  simp [get?, List.getElem?_eq_none (Nat.le_of_not_lt outside)] at live

@[simp] theorem get?_push_self (m : Mem) : (h.push m).get? h.objs.length = some m := by
  simp [get?, push]

theorem get?_push_of_lt (lt : p < h.objs.length) (m : Mem) : (h.push m).get? p = h.get? p := by
  simp [get?, push, List.getElem?_append_left lt]

@[simp] theorem length_set (m : Option Mem) : (h.set p m).objs.length = h.objs.length := by
  simp [set]

@[simp] theorem length_push (m : Mem) : (h.push m).objs.length = h.objs.length + 1 := by
  simp [push]

@[simp] theorem destroyed_set (m : Option Mem) : (h.set p m).destroyed = h.destroyed := rfl

@[simp] theorem destroyed_push (m : Mem) : (h.push m).destroyed = h.destroyed := rfl

theorem read_ok (live : h.get? p = some m) {off n : Nat} (fits : off + n ≤ m.size) :
    h.read p off n = .ok ((m.data.drop off).take n) := by
  simp [read, live, fits]

theorem write_ok (live : h.get? p = some m) {off : Nat} {src : List UInt8}
    (fits : off + src.length ≤ m.size) :
    h.write p off src = .ok (h.set p (some { m with data := setRange m.data off src })) := by
  simp [write, live, fits]

theorem write_past (live : h.get? p = some m) {off : Nat} {src : List UInt8}
    (past : m.size < off + src.length) : h.write p off src = .error (.outOfBounds p m.size) := by
  simp [write, live, Nat.not_le.mpr past]

end Heap

@[simp] theorem length_fresh (libc : Libc) (n : Nat) : (fresh libc n).length = n := by
  simp [fresh]

section Spec

variable (libc : Libc) {h : Heap} {p : Nat} {m : Mem}

theorem memAlloc_ok {size : Nat} (fits : size ≤ MEM_SIZE_MAX) (found : libc.mallocOk size = true)
    (dh : Option Nat) : memAlloc libc h size dh = (some h.objs.length, h.push ⟨1, dh, fresh libc size⟩) := by
  simp [memAlloc, Nat.not_lt.mpr fits, found]

theorem memcpy_ok {q : Nat} {d : Mem} (src : h.get? p = some m) (dst : h.get? q = some d)
    (fits : m.size ≤ d.size) :
    memcpy h q p m.size = .ok (h.set q (some { d with data := setRange d.data 0 m.data })) := by
  have whole : (m.data.drop 0).take m.size = m.data := by simp [Mem.size]
  rw [memcpy, Heap.read_ok src (by omega), whole]
  exact Heap.write_ok dst (by simpa [Mem.size] using fits)

theorem memcpy_past {q : Nat} {d : Mem} (src : h.get? p = some m) (dst : h.get? q = some d)
    (past : d.size < m.size) : memcpy h q p m.size = .error (.outOfBounds q d.size) := by
  have whole : (m.data.drop 0).take m.size = m.data := by simp [Mem.size]
  rw [memcpy, Heap.read_ok src (by omega), whole]
  exact Heap.write_past dst (by simpa [Mem.size] using past)

theorem memRef_ok (live : h.get? p = some m) :
    memRef h p = .ok (h.set p (some { m with nrefs := m.nrefs + 1 })) := by
  simp [memRef, live]

theorem memDeref_shared (live : h.get? p = some m) (shared : 1 < m.nrefs) :
    memDeref h p = .ok (h.set p (some { m with nrefs := m.nrefs - 1 })) := by
  simp [memDeref, live, shared]

end Spec

/-! ## Resizing

A shared object is copied into a new one as long as the old one, which fits only when it grows. -/

section Realloc

variable (libc : Libc) {h : Heap} {p : Nat} {m : Mem}

theorem Heap.push_set_self (a b : Mem) : (h.push a).set h.objs.length (some b) = h.push b := by
  simp [Heap.push, Heap.set]

theorem memAlloc_null {size : Nat} {dh : Option Nat} {h' : Heap}
    (r : memAlloc libc h size dh = (none, h')) : h' = h := by
  unfold memAlloc at r
  split_ifs at r <;> simp_all

theorem memRealloc_unshared {size : Nat} (live : h.get? p = some m) (single : m.nrefs ≤ 1)
    (fits : size ≤ MEM_SIZE_MAX) (found : libc.reallocOk size = true) :
    memRealloc libc h p size =
      .ok (some p, h.set p (some { m with data := m.data.take size ++ (fresh libc size).drop m.size })) := by
  simp [memRealloc, Nat.not_lt.mpr fits, live, Nat.not_lt.mpr single, found]

theorem take_resized (data junk : List UInt8) (size : Nat) :
    (data.take size ++ junk).take (min data.length size) = data.take (min data.length size) := by
  have front : (data.take size).length = min data.length size := by simp [Nat.min_comm]
  rw [List.take_left' front, Nat.min_comm, ← List.take_eq_take_min]

-- A shared object that grows is copied into a new one; the original keeps its bytes and loses one
-- reference, and no destroy handler runs.
theorem memRealloc_shared_grows {size : Nat} (live : h.get? p = some m) (shared : 1 < m.nrefs)
    (grows : m.size ≤ size) (fits : size ≤ MEM_SIZE_MAX) (found : libc.mallocOk size = true) :
    memRealloc libc h p size =
      .ok (some h.objs.length, (h.push ⟨1, m.dh, m.data ++ (fresh libc size).drop m.size⟩).set p
        (some { m with nrefs := m.nrefs - 1 })) := by
  have lt := Heap.lt_of_get? live
  have src : (h.push ⟨1, m.dh, fresh libc size⟩).get? p = some m := by
    rw [Heap.get?_push_of_lt lt, live]
  have copy := memcpy_ok src (Heap.get?_push_self _) (by simpa [Mem.size] using grows)
  have copied : setRange (fresh libc size) 0 m.data = m.data ++ (fresh libc size).drop m.size := by
    simp [setRange, Mem.size]
  rw [copied, Heap.push_set_self] at copy
  have still : (h.push ⟨1, m.dh, m.data ++ (fresh libc size).drop m.size⟩).get? p = some m := by
    rw [Heap.get?_push_of_lt lt, live]
  simp only [memRealloc, Nat.not_lt.mpr fits, if_false, live, shared, if_true,
    memAlloc_ok libc fits found, copy, memDeref_shared still shared]

theorem memRealloc_null {size : Nat} {h' : Heap} (r : memRealloc libc h p size = .ok (none, h')) :
    h' = h := by
  unfold memRealloc at r
  split at r
  · cases r
    rfl
  split at r
  · cases r
  split at r
  · split at r
    · rename_i alloc
      cases r
      exact memAlloc_null libc alloc
    · split at r
      · cases r
      · split at r <;> cases r
  · split at r <;> cases r
    rfl

-- A shared object resized to fewer bytes than it has: the copy into the new object writes past
-- its end, at its first byte past the new size.
theorem memRealloc_shared_shrinks {size : Nat} (live : h.get? p = some m) (shared : 1 < m.nrefs)
    (shrinks : size < m.size) (fits : size ≤ MEM_SIZE_MAX) (found : libc.mallocOk size = true) :
    memRealloc libc h p size = .error (.outOfBounds h.objs.length size) := by
  have lt := Heap.lt_of_get? live
  have src : (h.push ⟨1, m.dh, fresh libc size⟩).get? p = some m := by
    rw [Heap.get?_push_of_lt lt, live]
  have copy := memcpy_past src (Heap.get?_push_self _) (by simpa [Mem.size] using shrinks)
  have newSize : ({ nrefs := 1, dh := m.dh, data := fresh libc size } : Mem).size = size := by
    simp [Mem.size]
  rw [newSize] at copy
  simp only [memRealloc, Nat.not_lt.mpr fits, if_false, live, shared, if_true,
    memAlloc_ok libc fits found, copy]

end Realloc

/-! ## Buffers shared through `mbuf_alloc_ref` -/

section Shared

variable (libc : Libc) {h : Heap} {b : Nat} {m : Mem}

theorem mbufAllocRef_shares {mbr : HeapMbuf} (buf : mbr.buf = some b) (live : h.get? b = some m) :
    mbufAllocRef h mbr = .ok (mbr, h.set b (some { m with nrefs := m.nrefs + 1 })) := by
  simp [mbufAllocRef, buf, memRef_ok live]

theorem mbufTrim_shared {mb : HeapMbuf} (buf : mb.buf = some b) (live : h.get? b = some m)
    (shared : 1 < m.nrefs) (sized : mb.size = m.size) (trims : 0 < mb.end_ ∧ mb.end_ < mb.size)
    (fits : mb.end_ ≤ MEM_SIZE_MAX) (found : libc.mallocOk mb.end_ = true) :
    mbufTrim libc h mb = .error (.outOfBounds h.objs.length mb.end_) := by
  have trimmed : ¬ (mb.end_ = 0 ∨ mb.end_ = mb.size) := by omega
  simp only [mbufTrim, trimmed, if_false, mbufResize, buf,
    memRealloc_shared_shrinks libc live shared (by omega) fits found]

end Shared

/-- `mem_realloc` of a shared object to fewer bytes than it has writes past the end of the new
object; so does `mbuf_trim` of an mbuf whose buffer it is, with the end mark as the new size. -/
theorem mem_realloc_shared_shrink_overflows (libc : Libc) (h : Heap) (p : Nat) (m : Mem)
    (size : Nat) (live : h.get? p = some m) (shared : 1 < m.nrefs) (shrinks : size < m.size)
    (fits : size ≤ MEM_SIZE_MAX) (found : libc.mallocOk size = true) :
    memRealloc libc h p size = .error (.outOfBounds h.objs.length size) ∧
      ∀ mb : HeapMbuf, mb.buf = some p → mb.size = m.size → mb.end_ = size → 0 < size →
        mbufTrim libc h mb = .error (.outOfBounds h.objs.length size) := by
  refine ⟨memRealloc_shared_shrinks libc live shared shrinks fits found, ?_⟩
  intro mb buf sized trimmed positive
  subst trimmed
  exact mbufTrim_shared libc buf live shared sized ⟨positive, by omega⟩ fits found

-- An allocator that always finds memory, and an eight-byte object with two references.
def alwaysFinds : Libc := ⟨fun _ => true, fun _ => true, fun _ => 0⟩

def sharedEight : Mem := ⟨2, none, [1, 2, 3, 4, 5, 6, 7, 8]⟩

theorem mem_realloc_shared_shrink_overflows_eight :
    (⟨[some sharedEight], []⟩ : Heap).get? 0 = some sharedEight ∧ 1 < sharedEight.nrefs ∧
      4 < sharedEight.size ∧ 4 ≤ MEM_SIZE_MAX ∧ alwaysFinds.mallocOk 4 = true ∧
      memRealloc alwaysFinds ⟨[some sharedEight], []⟩ 0 4 = .error (.outOfBounds 1 4) ∧
      ∀ mb : HeapMbuf, mb.buf = some 0 → mb.size = sharedEight.size → mb.end_ = 4 → 0 < 4 →
        mbufTrim alwaysFinds ⟨[some sharedEight], []⟩ mb = .error (.outOfBounds 1 4) :=
  ⟨rfl, by decide, by decide, by decide, rfl,
    mem_realloc_shared_shrink_overflows alwaysFinds ⟨[some sharedEight], []⟩ 0 sharedEight 4 rfl
      (by decide) (by decide) (by decide) rfl⟩

end Libre.Memory
