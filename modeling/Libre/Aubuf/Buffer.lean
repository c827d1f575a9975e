import Mathlib
import Libre.List.Sort

set_option autoImplicit false

/-!
# Audio buffer

`rem/aubuf/aubuf.c`: a jitter buffer of audio frames kept by timestamp in `ab->afl`; a read takes
bytes from the head across as many frames as it needs. Every call that returns keeps `ab->cur_sz`
the sum over the frames (`aubuf_byte_accounting`); a read after a frame without a rate divides by
zero (`aubuf_read_traps`). The samples are of any type with a zero for `memset`.
-/

namespace Libre.Audio

open Libre.LinkedList

inductive Aufmt
  | S16LE
  | S32LE
  | PCMA
  | PCMU
  | FLOAT
  | S24_3LE
  | RAW
  deriving DecidableEq, Repr

def aufmtSampleSize : Aufmt → Nat
  | .S16LE => 2
  | .S32LE => 4
  | .RAW => 1
  | .PCMA => 1
  | .PCMU => 1
  | .FLOAT => 4
  | .S24_3LE => 3

def AUDIO_TIMEBASE : UInt64 := 1000000

-- `struct auframe`, without the level, which nothing here reads.
structure Auframe (α : Type) where
  fmt : Aufmt
  srate : UInt32
  sampv : List α
  sampc : Nat
  timestamp : UInt64
  id : UInt16
  ch : UInt8
  deriving DecidableEq, Repr

inductive AjbState
  | AJB_GOOD
  | AJB_LOW
  | AJB_HIGH
  deriving DecidableEq, Repr

variable {α : Type}

-- The frame copy of a zeroed `struct frame`.
def Auframe.zero : Auframe α := ⟨.S16LE, 0, [], 0, 0, 0, 0⟩

def auframeSize (af : Auframe α) : Nat :=
  let sz := aufmtSampleSize af.fmt
  af.sampc * (if sz = 0 then 1 else sz)

-- `srate * ch` is an `unsigned` product, then widened to `size_t`; a zero divisor traps (`none`).
def auframeBytesToTimestamp (af : Auframe α) (n : Nat) : Option UInt64 :=
  let d := (af.srate * af.ch.toUInt32).toUInt64 * UInt64.ofNat (aufmtSampleSize af.fmt)
  if d = 0 then none else some (UInt64.ofNat n * AUDIO_TIMEBASE / d)

-- `struct frame`: the unread bytes of its mbuf and its copy of the writer's frame.
structure Frame (α : Type) where
  mb : List α
  af : Auframe α
  deriving DecidableEq, Repr

structure Stats where
  or : Nat
  ur : Nat
  deriving DecidableEq, Repr

-- `struct aubuf`, without the lock, the jitter buffer with its mode and silence level, and `ts`.
structure Aubuf (α : Type) where
  afl : List (Frame α)
  wishSz : Nat
  curSz : Nat
  maxSz : Nat
  fillSz : Nat
  pktSz : Nat
  wrSz : Nat
  started : Bool
  stats : Stats
  live : Bool
  deriving DecidableEq, Repr

def aubufAlloc (minSz maxSz : Nat) : Aubuf α :=
  { afl := [], wishSz := minSz, curSz := 0, maxSz := maxSz, fillSz := minSz, pktSz := 0,
    wrSz := 0, started := false, stats := ⟨0, 0⟩, live := true }

-- The bytes the frames hold that no read has taken, in list order.
def unread (ab : Aubuf α) : List α := (ab.afl.map Frame.mb).flatten

def frameLessEqual (f1 f2 : Frame α) : Bool := decide (f1.af.timestamp ≤ f2.af.timestamp)

theorem frameLessEqual_total (f1 f2 : Frame α) :
    frameLessEqual f1 f2 = true ∨ frameLessEqual f2 f1 = true := by
  simp only [frameLessEqual, decide_eq_true_eq]
  exact UInt64.le_total _ _

/-! ## The functions of `aubuf.c` -/

-- `f = list_ledata(ab->afl.head); if (f) { ab->cur_sz -= mbuf_get_left(f->mb); mem_deref(f); }`,
-- the step of the overrun and of the start-up drop, with the bytes it drops.
def dropHead (ab : Aubuf α) : Aubuf α × List α :=
  match ab.afl with
  | [] => (ab, [])
  | f :: rest => ({ ab with afl := rest, curSz := ab.curSz - f.mb.length }, f.mb)

theorem dropHead_of_cons {ab : Aubuf α} {f : Frame α} {rest : List (Frame α)}
    (h : ab.afl = f :: rest) :
    dropHead ab = ({ ab with afl := rest, curSz := ab.curSz - f.mb.length }, f.mb) := by
  simp [dropHead, h]

theorem length_dropHead_lt {ab : Aubuf α} (nonempty : ¬ab.afl = []) :
    (dropHead ab).1.afl.length < ab.afl.length := by
  obtain ⟨f, rest, h⟩ := List.exists_cons_of_ne_nil nonempty
  simp [dropHead_of_cons h, h]

-- A frame without a timestamp but with a rate and channels gets the time of the bytes written
-- before it.
def stampFrame (f : Frame α) (wrSz : Nat) : Option (Frame α) :=
  if f.af.timestamp = 0 ∧ f.af.srate ≠ 0 ∧ f.af.ch ≠ 0 then
    (auframeBytesToTimestamp f.af wrSz).map fun ts => { f with af := { f.af with timestamp := ts } }
  else some f

-- `aubuf_append_auframe(ab, mb, af)` up to the overrun check, `mb` the unread part of the
-- caller's mbuf: the new frame linked in by timestamp and counted.
def insertFrame (ab : Aubuf α) (mb : List α) (af : Option (Auframe α)) : Option (Aubuf α) :=
  let sz := mb.length
  let ab : Aubuf α := { ab with pktSz := sz }
  let ab : Aubuf α := if ab.fillSz ≥ ab.pktSz then { ab with fillSz := ab.fillSz - ab.pktSz } else ab
  (stampFrame ⟨mb, af.getD .zero⟩ ab.wrSz).map fun f =>
    { ab with afl := Seq.listInsertSorted frameLessEqual f ab.afl, curSz := ab.curSz + sz,
              wrSz := ab.wrSz + sz }

-- `aubuf_append_auframe(ab, mb, af)`, with the bytes an overrun drops.
def aubufAppendAuframe (ab : Aubuf α) (mb : List α) (af : Option (Auframe α)) :
    Option (Aubuf α × List α) :=
  (insertFrame ab mb af).map fun ab =>
    if ab.maxSz ≠ 0 ∧ ab.curSz > ab.maxSz then
      dropHead { ab with stats := { ab.stats with or := ab.stats.or + 1 } }
    else (ab, [])

-- The mbuf `aubuf_write_auframe` fills from `af->sampv`.
def writeMbuf (af : Auframe α) : List α :=
  let sampleSize := aufmtSampleSize af.fmt
  af.sampv.take (if sampleSize ≠ 0 then af.sampc * sampleSize else af.sampc)

def aubufWriteAuframe (ab : Aubuf α) (af : Auframe α) : Option (Aubuf α × List α) :=
  aubufAppendAuframe ab (writeMbuf af) (some af)

-- What `read_auframe` leaves of a frame it has read `n` bytes of, `af` the frame being read: an
-- emptied frame is freed, one with bytes left has its timestamp moved on by what was read. The
-- guard looks at `af`, the divisor at the frame's own rate and channels.
def afterRead (sampleSize : Nat) (af : Auframe α) (f : Frame α) (n : Nat) : Option (List (Frame α)) :=
  let g := { f with mb := f.mb.drop n }
  if g.mb = [] then some []
  else if af.srate ≠ 0 ∧ af.ch ≠ 0 ∧ sampleSize ≠ 0 then
    (auframeBytesToTimestamp g.af n).map fun ts =>
      [{ g with af := { g.af with timestamp := g.af.timestamp + ts } }]
  else some [g]

-- The loop of `read_auframe` from the frame `le` points at, `sz` bytes still wanted and `first`
-- until one frame has been read: the frames left, the frame read and the bytes copied to `p`.
def readLoop (sampleSize : Nat) : Bool → Nat → Auframe α → List (Frame α) →
    Option (List (Frame α) × Auframe α × List α)
  | _, _, af, [] => some ([], af, [])
  | first, sz, af, f :: rest =>
    let n := min f.mb.length sz
    let af := if first then
        { af with id := f.af.id, srate := f.af.srate, ch := f.af.ch,
                  timestamp := f.af.timestamp, fmt := f.af.fmt }
      else af
    (afterRead sampleSize af f n).bind fun kept =>
      if n = sz then some (kept ++ rest, af, f.mb.take n)
      else
        (readLoop sampleSize false (sz - n) af rest).map fun r =>
          (kept ++ r.1, r.2.1, f.mb.take n ++ r.2.2)

-- `read_auframe(ab, af)`, with the bytes it copies to `af->sampv`; `ab->cur_sz -= n` for every
-- frame read takes their number off in all.
def readAuframe (ab : Aubuf α) (af : Auframe α) : Option (Aubuf α × Auframe α × List α) :=
  (readLoop (aufmtSampleSize af.fmt) true (auframeSize af) af ab.afl).map fun r =>
    ({ ab with afl := r.1, curSz := ab.curSz - r.2.2.length },
      { r.2.1 with sampv := r.2.2 ++ af.sampv.drop r.2.2.length }, r.2.2)

-- `while (drop && ab->cur_sz > ab->wish_sz)`, with the bytes it drops. With no frame left and
-- `cur_sz` still above `wish_sz` the body changes nothing and the loop never ends: `none`.
def dropLoop (ab : Aubuf α) : Option (Aubuf α × List α) :=
  if ab.curSz > ab.wishSz then
    if ab.afl = [] then none
    else
      let d := dropHead ab
      (dropLoop d.1).map fun r => (r.1, d.2 ++ r.2)
  else some (ab, [])
termination_by ab.afl.length
decreasing_by
  rename_i nonempty
  exact length_dropHead_lt nonempty

-- What `aubuf_read_auframe` leaves: the buffer, the caller's frame, the bytes `read_auframe` took
-- (both times under `AJB_HIGH`) and those the start-up drop freed.
structure Reading (α : Type) where
  ab : Aubuf α
  af : Auframe α
  read : List α
  dropped : List α

-- The code at `out:`, `sz` the size of the caller's frame.
def fillDown (sz : Nat) (ab : Aubuf α) : Aubuf α :=
  if ab.fillSz ≠ 0 ∧ ab.fillSz < ab.pktSz then
    { ab with fillSz := if ab.fillSz ≥ sz then ab.fillSz - sz else 0 }
  else ab

-- `drop = ab->live && !ab->started && ab->wish_sz` and the loop it guards.
def startupDrop (ab : Aubuf α) : Option (Aubuf α × List α) :=
  if ab.live && !ab.started && ab.wishSz ≠ 0 then dropLoop ab else some (ab, [])

-- `aubuf_read_auframe` from the start-up drop on.
def readFrames (sz : Nat) (ab : Aubuf α) (af : Auframe α) (as : AjbState) :
    Option (Reading α) :=
  (startupDrop ab).bind fun (ab, dropped) =>
    (readAuframe { ab with started := true } af).bind fun r =>
      if as = .AJB_HIGH then
        -- a second read over the first, to bring the latency down
        (readAuframe r.1 r.2.1).map fun r2 => ⟨fillDown sz r2.1, r2.2.1, r.2.2 ++ r2.2.2, dropped⟩
      else some ⟨fillDown sz r.1, r.2.1, r.2.2, dropped⟩

-- `aubuf_read_auframe(ab, af)`, `as` what `ajb_get` answers; `none` when it hangs or traps.
def aubufReadAuframe [Zero α] (ab : Aubuf α) (af : Auframe α) (as : AjbState) :
    Option (Reading α) :=
  let sz := auframeSize af
  if as = .AJB_LOW then some ⟨fillDown sz ab, af, [], []⟩
  else if ab.fillSz ≠ 0 ∨ ab.curSz < sz then
    -- an underrun, or still filling: silence
    let ab := if ab.fillSz = 0 then { ab with stats := { ab.stats with ur := ab.stats.ur + 1 } }
      else ab
    let af := { af with sampv := List.replicate sz 0 ++ af.sampv.drop sz }
    if ab.fillSz > 0 then some ⟨fillDown sz ab, af, [], []⟩
    else readFrames sz { ab with fillSz := ab.wishSz } af as
  else readFrames sz ab af as

-- `aubuf_flush`, with the bytes of the frames `list_flush` frees.
def aubufFlush (ab : Aubuf α) : Aubuf α × List α :=
  ({ ab with afl := [], fillSz := ab.wishSz, curSz := 0, wrSz := 0 }, unread ab)

def aubufResize (ab : Aubuf α) (minSz maxSz : Nat) : Aubuf α × List α :=
  aubufFlush { ab with wishSz := minSz, maxSz := maxSz }

def aubufSetLive (ab : Aubuf α) (live : Bool) : Aubuf α := { ab with live := live }

def aubufSortAuframe (ab : Aubuf α) : Aubuf α :=
  { ab with afl := Seq.listSort frameLessEqual frameLessEqual_total ab.afl }

/-! ## What each call does to the count -/

def Inv (ab : Aubuf α) : Prop := ab.curSz = (ab.afl.map fun f => f.mb.length).sum

theorem inv_iff (ab : Aubuf α) : Inv ab ↔ ab.curSz = (unread ab).length := by
  simp [Inv, unread, List.length_flatten, Function.comp_def]

theorem dropHead_spec (ab : Aubuf α) :
    (dropHead ab).1.curSz = ab.curSz - (dropHead ab).2.length ∧
      unread ab = (dropHead ab).2 ++ unread (dropHead ab).1 := by
  cases h : ab.afl with
  | nil => simp [dropHead, h]
  | cons f rest => simp [dropHead_of_cons h, unread, h]

-- A call that takes bytes from the front of the frames and lowers `cur_sz` by as many keeps the
-- count: the drop of a head frame and `read_auframe` both end so.
theorem Inv.of_front {ab ab' : Aubuf α} {taken : List α} (inv : Inv ab)
    (split : unread ab = taken ++ unread ab') (cur : ab'.curSz = ab.curSz - taken.length) :
    Inv ab' := by
  rw [inv_iff] at inv ⊢
  have lengths := congrArg List.length split
  simp only [List.length_append] at lengths
  omega

theorem Inv.dropHead {ab : Aubuf α} (inv : Inv ab) : Inv (dropHead ab).1 :=
  inv.of_front (dropHead_spec ab).2 (dropHead_spec ab).1

-- The start-up drop ends: while `cur_sz` is above `wish_sz` there is a frame to drop.
theorem dropLoop_spec {ab : Aubuf α} (inv : Inv ab) :
    ∃ ab' dropped, dropLoop ab = some (ab', dropped) ∧ Inv ab' ∧ unread ab = dropped ++ unread ab' := by
  fun_induction dropLoop ab with
  | case1 ab above empty =>
    simp [Inv, empty] at inv
    omega
  | case2 ab above nonempty d ih =>
    obtain ⟨ab', dropped, loop, inv', split⟩ := ih inv.dropHead
    refine ⟨ab', d.2 ++ dropped, by simp [loop], inv', ?_⟩
    rw [(dropHead_spec ab).2, split, List.append_assoc]
  | case3 ab below => exact ⟨ab, [], rfl, inv, rfl⟩

theorem flatten_afterRead {sampleSize : Nat} {af : Auframe α} {f : Frame α} {n : Nat}
    {kept : List (Frame α)} (h : afterRead sampleSize af f n = some kept) :
    (kept.map Frame.mb).flatten = f.mb.drop n := by
  unfold afterRead at h
  dsimp only at h
  split at h
  next emptied =>
    cases h
    exact emptied.symm
  next =>
    split at h
    next =>
      obtain ⟨ts, -, rfl⟩ := Option.map_eq_some_iff.mp h
      simp
    next =>
      cases h
      simp

theorem readLoop_unread {sampleSize : Nat} {first : Bool} {sz : Nat} {af : Auframe α}
    {afl : List (Frame α)} {r : List (Frame α) × Auframe α × List α}
    (h : readLoop sampleSize first sz af afl = some r) :
    (afl.map Frame.mb).flatten = r.2.2 ++ (r.1.map Frame.mb).flatten := by
  induction afl generalizing first sz af r with
  | nil =>
    cases h
    rfl
  | cons f rest ih =>
    simp only [readLoop] at h
    obtain ⟨kept, after, h⟩ := Option.bind_eq_some_iff.mp h
    have left := flatten_afterRead after
    split at h
    next =>
      cases h
      simp only [List.map_append, List.flatten_append, left, List.map_cons, List.flatten_cons,
        ← List.append_assoc, List.take_append_drop]
    next short =>
      obtain ⟨r', later, rfl⟩ := Option.map_eq_some_iff.mp h
      have whole : f.mb.length ≤ min f.mb.length sz := by omega
      simp only [List.map_append, List.flatten_append, left, List.drop_of_length_le whole,
        List.take_of_length_le whole, List.nil_append, List.map_cons, List.flatten_cons,
        List.append_assoc, ih later]

theorem readAuframe_spec {ab : Aubuf α} {af : Auframe α} {r : Aubuf α × Auframe α × List α}
    (h : readAuframe ab af = some r) :
    (Inv ab → Inv r.1) ∧ unread ab = r.2.2 ++ unread r.1 := by
  obtain ⟨r', loop, rfl⟩ := Option.map_eq_some_iff.mp h
  have split := readLoop_unread loop
  exact ⟨fun inv => inv.of_front split rfl, split⟩

@[simp] theorem fillDown_afl (sz : Nat) (ab : Aubuf α) : (fillDown sz ab).afl = ab.afl := by
  unfold fillDown
  split <;> rfl

@[simp] theorem fillDown_curSz (sz : Nat) (ab : Aubuf α) : (fillDown sz ab).curSz = ab.curSz := by
  unfold fillDown
  split <;> rfl

theorem startupDrop_spec {ab : Aubuf α} (inv : Inv ab) :
    ∃ ab' dropped, startupDrop ab = some (ab', dropped) ∧ Inv ab' ∧
      unread ab = dropped ++ unread ab' := by
  unfold startupDrop
  split
  next => exact dropLoop_spec inv
  next => exact ⟨ab, [], rfl, inv, rfl⟩

theorem readFrames_spec {ab : Aubuf α} (inv : Inv ab) {sz : Nat} {af : Auframe α} {as : AjbState}
    {r : Reading α} (h : readFrames sz ab af as = some r) :
    Inv r.ab ∧ unread ab = r.dropped ++ r.read ++ unread r.ab := by
  obtain ⟨ab₁, dropped, drop, inv₁, split₁⟩ := startupDrop_spec inv
  simp only [readFrames, drop, Option.bind_some] at h
  obtain ⟨r₁, read₁, h⟩ := Option.bind_eq_some_iff.mp h
  obtain ⟨keeps₁, split₂⟩ := readAuframe_spec read₁
  have inv₂ : Inv r₁.1 := keeps₁ inv₁
  split at h
  next =>
    obtain ⟨r₂, read₂, rfl⟩ := Option.map_eq_some_iff.mp h
    obtain ⟨keeps₂, split₃⟩ := readAuframe_spec read₂
    refine ⟨by simpa [Inv] using keeps₂ inv₂, ?_⟩
    simp only [unread, fillDown_afl] at split₁ split₂ split₃ ⊢
    rw [split₁, split₂, split₃, List.append_assoc, List.append_assoc]
  next =>
    cases h
    refine ⟨by simpa [Inv] using inv₂, ?_⟩
    simp only [unread, fillDown_afl] at split₁ split₂ ⊢
    rw [split₁, split₂, List.append_assoc]

-- What `aubuf_read_auframe` can do: return silence, or read through `readFrames` from the
-- buffer with its counters changed at most; the frames and `cur_sz` stay as they are.
theorem aubufReadAuframe_cases [Zero α] (ab : Aubuf α) (af : Auframe α) (as : AjbState) :
    (∃ ab' af', ab'.afl = ab.afl ∧ ab'.curSz = ab.curSz ∧
      aubufReadAuframe ab af as = some ⟨ab', af', [], []⟩) ∨
    (∃ ab' af', ab'.afl = ab.afl ∧ ab'.curSz = ab.curSz ∧
      aubufReadAuframe ab af as = readFrames (auframeSize af) ab' af' as) := by
  by_cases low : as = .AJB_LOW
  next =>
    simp only [aubufReadAuframe, low, if_true]
    exact .inl ⟨_, af, fillDown_afl _ _, fillDown_curSz _ _, rfl⟩
  by_cases gap : ab.fillSz ≠ 0 ∨ ab.curSz < auframeSize af
  next =>
    by_cases zero : ab.fillSz = 0
    next =>
      have under : ab.curSz < auframeSize af := by simpa [zero] using gap
      simp only [aubufReadAuframe, low, zero, under, or_true, if_true, if_false, gt_iff_lt,
        Nat.lt_irrefl]
      exact .inr ⟨{ ab with fillSz := ab.wishSz, stats := { ab.stats with ur := ab.stats.ur + 1 } }, _,
        rfl, rfl, rfl⟩
    next =>
      simp only [aubufReadAuframe, low, gap, zero, if_true, if_false, gt_iff_lt,
        Nat.pos_of_ne_zero zero]
      exact .inl ⟨_, _, fillDown_afl _ _, fillDown_curSz _ _, rfl⟩
  next =>
    simp only [aubufReadAuframe, low, gap, if_false]
    exact .inr ⟨ab, af, rfl, rfl, rfl⟩

-- Whatever `ajb_get` answers, a read that returns keeps the count and takes its bytes from the
-- front.
theorem aubufReadAuframe_spec [Zero α] {ab : Aubuf α} (inv : Inv ab) {af : Auframe α}
    {as : AjbState} {r : Reading α} (h : aubufReadAuframe ab af as = some r) :
    Inv r.ab ∧ unread ab = r.dropped ++ r.read ++ unread r.ab := by
  rcases aubufReadAuframe_cases ab af as with ⟨ab', af', afl, cur, silent⟩ | ⟨ab', af', afl, cur, read⟩
  · rw [silent] at h
    cases h
    exact ⟨by simpa [Inv, afl, cur] using inv, by simp [unread, afl]⟩
  · rw [read] at h
    have same : unread ab' = unread ab := by simp [unread, afl]
    rw [← same]
    exact readFrames_spec (by simpa [Inv, afl, cur] using inv) h

theorem stampFrame_mb {f g : Frame α} {wrSz : Nat} (h : stampFrame f wrSz = some g) : g.mb = f.mb := by
  unfold stampFrame at h
  split at h
  · obtain ⟨ts, -, rfl⟩ := Option.map_eq_some_iff.mp h
    rfl
  · cases h
    rfl

theorem insertFrame_shape (ab : Aubuf α) (mb : List α) (af : Option (Auframe α)) :
    ∃ g : Frame α → Aubuf α, insertFrame ab mb af = (stampFrame ⟨mb, af.getD .zero⟩ ab.wrSz).map g ∧
      ∀ f, (g f).afl = Seq.listInsertSorted frameLessEqual f ab.afl ∧ (g f).curSz = ab.curSz + mb.length ∧
        (g f).fillSz ≤ ab.fillSz ∧ (g f).wishSz = ab.wishSz ∧ (g f).maxSz = ab.maxSz := by
  unfold insertFrame
  dsimp only
  split
  · exact ⟨_, rfl, fun f => ⟨rfl, rfl, Nat.sub_le _ _, rfl, rfl⟩⟩
  · exact ⟨_, rfl, fun f => ⟨rfl, rfl, Nat.le_refl _, rfl, rfl⟩⟩

theorem insertFrame_spec {ab ab' : Aubuf α} {mb : List α} {af : Option (Auframe α)}
    (h : insertFrame ab mb af = some ab') :
    ab'.curSz = ab.curSz + mb.length ∧ (unread ab').Perm (mb ++ unread ab) := by
  obtain ⟨g, built, shape⟩ := insertFrame_shape ab mb af
  rw [built] at h
  obtain ⟨f, stamped, rfl⟩ := Option.map_eq_some_iff.mp h
  have linked := ((Seq.perm_listInsertSorted frameLessEqual f ab.afl).map Frame.mb).flatten
  exact ⟨(shape f).2.1, by simpa [unread, (shape f).1, stampFrame_mb stamped] using linked⟩

-- An append that returns keeps the count; the bytes it brings are buffered, less a frame an
-- overrun drops.
theorem aubufAppendAuframe_spec {ab : Aubuf α} (inv : Inv ab) {mb : List α}
    {af : Option (Auframe α)} {r : Aubuf α × List α} (h : aubufAppendAuframe ab mb af = some r) :
    Inv r.1 ∧ (mb ++ unread ab).Perm (r.2 ++ unread r.1) := by
  obtain ⟨ab₁, inserted, rfl⟩ := Option.map_eq_some_iff.mp h
  obtain ⟨cur, linked⟩ := insertFrame_spec inserted
  have inv₁ : Inv ab₁ := by
    rw [inv_iff] at inv ⊢
    rw [cur, linked.length_eq, List.length_append, inv]
    omega
  split
  next =>
    have inv₂ : Inv { ab₁ with stats := { ab₁.stats with or := ab₁.stats.or + 1 } } := inv₁
    refine ⟨inv₂.dropHead, ?_⟩
    rw [← (dropHead_spec _).2]
    exact linked.symm
  next => exact ⟨inv₁, linked.symm⟩

theorem aubufFlush_spec (ab : Aubuf α) :
    Inv (aubufFlush ab).1 ∧ unread (aubufFlush ab).1 = [] ∧ (aubufFlush ab).2 = unread ab :=
  ⟨rfl, rfl, rfl⟩

theorem aubufSortAuframe_spec {ab : Aubuf α} (inv : Inv ab) :
    Inv (aubufSortAuframe ab) ∧ (unread (aubufSortAuframe ab)).Perm (unread ab) := by
  have sorted :=
    ((Seq.perm_listSort frameLessEqual frameLessEqual_total ab.afl).map Frame.mb).flatten
  refine ⟨?_, sorted⟩
  rw [inv_iff] at inv ⊢
  exact inv.trans sorted.length_eq.symm

/-! ## Runs of calls -/

inductive Call (α : Type)
  | write (af : Auframe α)
  | append (mb : List α) (af : Option (Auframe α))
  | read (af : Auframe α) (as : AjbState)
  | flush
  | resize (minSz maxSz : Nat)
  | setLive (live : Bool)
  | sort

-- Where the bytes of a run went: those written, and those that left the frames by a read, an
-- overrun, the start-up drop or a flush.
structure Ledger (α : Type) where
  written : List α
  read : List α
  overrun : List α
  startup : List α
  flushed : List α

def Ledger.empty : Ledger α := ⟨[], [], [], [], []⟩

def Ledger.append (l m : Ledger α) : Ledger α :=
  ⟨l.written ++ m.written, l.read ++ m.read, l.overrun ++ m.overrun, l.startup ++ m.startup,
    l.flushed ++ m.flushed⟩

def Ledger.out (l : Ledger α) : List α := l.read ++ l.overrun ++ l.startup ++ l.flushed

theorem Ledger.out_append (l m : Ledger α) : (l.append m).out.Perm (l.out ++ m.out) := by
  classical
  rw [List.perm_iff_count]
  intro a
  simp only [Ledger.out, Ledger.append, List.count_append]
  omega

-- One call and its ledger; `none` when it never returns.
def step [Zero α] (ab : Aubuf α) : Call α → Option (Aubuf α × Ledger α)
  | .write af =>
    (aubufWriteAuframe ab af).map fun r =>
      (r.1, { Ledger.empty with written := writeMbuf af, overrun := r.2 })
  | .append mb af =>
    (aubufAppendAuframe ab mb af).map fun r =>
      (r.1, { Ledger.empty with written := mb, overrun := r.2 })
  | .read af as =>
    (aubufReadAuframe ab af as).map fun r =>
      (r.ab, { Ledger.empty with read := r.read, startup := r.dropped })
  | .flush =>
    let r := aubufFlush ab
    some (r.1, { Ledger.empty with flushed := r.2 })
  | .resize minSz maxSz =>
    let r := aubufResize ab minSz maxSz
    some (r.1, { Ledger.empty with flushed := r.2 })
  | .setLive live => some (aubufSetLive ab live, .empty)
  | .sort => some (aubufSortAuframe ab, .empty)

def run [Zero α] (ab : Aubuf α) : List (Call α) → Option (Aubuf α × Ledger α)
  | [] => some (ab, .empty)
  | c :: cs => (step ab c).bind fun (ab, l) => (run ab cs).map fun (ab, m) => (ab, l.append m)

/-! ## Frames with a rate

With the `unsigned` product `srate * ch` nonzero in every frame, which no caller checks, no call
traps. -/

def Auframe.Rated (af : Auframe α) : Prop := af.srate * af.ch.toUInt32 ≠ 0

instance (af : Auframe α) : Decidable af.Rated := inferInstanceAs (Decidable (_ ≠ _))

def Aubuf.Rated (ab : Aubuf α) : Prop := ∀ f ∈ ab.afl, f.af.Rated

theorem auframeBytesToTimestamp_rated {af : Auframe α} (rated : af.Rated) (n : Nat) :
    ∃ ts, auframeBytesToTimestamp af n = some ts := by
  have size : 0 < aufmtSampleSize af.fmt ∧ aufmtSampleSize af.fmt ≤ 4 := by cases af.fmt <;> decide
  have low : (af.srate * af.ch.toUInt32).toNat ≠ 0 := fun zero => rated (UInt32.toNat_inj.mp zero)
  have lt := (af.srate * af.ch.toUInt32).toNat_lt
  -- the widened product is below 2 ^ 34, so it does not wrap
  have wide : (af.srate * af.ch.toUInt32).toUInt64 * UInt64.ofNat (aufmtSampleSize af.fmt) ≠ 0 := by
    intro zero
    have product := congrArg UInt64.toNat zero
    rw [UInt64.toNat_mul, UInt32.toNat_toUInt64,
      UInt64.toNat_ofNat_of_lt' (show aufmtSampleSize af.fmt < 2 ^ 64 by omega),
      Nat.mod_eq_of_lt (by nlinarith), UInt64.toNat_zero] at product
    simp only [Nat.mul_eq_zero] at product
    omega
  exact ⟨_, if_neg wide⟩

theorem afterRead_rated (sampleSize : Nat) (af : Auframe α) {f : Frame α} (rated : f.af.Rated)
    (n : Nat) : ∃ kept, afterRead sampleSize af f n = some kept ∧ ∀ g ∈ kept, g.af.Rated := by
  unfold afterRead
  dsimp only
  split
  · exact ⟨[], rfl, by simp⟩
  split
  · obtain ⟨ts, moved⟩ := auframeBytesToTimestamp_rated rated n
    refine ⟨_, by rw [moved]; rfl, ?_⟩
    simpa [Auframe.Rated] using rated
  · exact ⟨_, rfl, by simpa using rated⟩

theorem readLoop_rated (sampleSize : Nat) {afl : List (Frame α)} (rated : ∀ f ∈ afl, f.af.Rated)
    (first : Bool) (sz : Nat) (af : Auframe α) :
    ∃ r, readLoop sampleSize first sz af afl = some r ∧ ∀ g ∈ r.1, g.af.Rated := by
  induction afl generalizing first sz af with
  | nil => exact ⟨_, rfl, by simp⟩
  | cons f rest ih =>
    have others : ∀ g ∈ rest, g.af.Rated := fun g hg => rated g (by simp [hg])
    simp only [readLoop]
    obtain ⟨kept, after, keptRated⟩ := afterRead_rated sampleSize
      (if first = true then
        { af with id := f.af.id, srate := f.af.srate, ch := f.af.ch,
                  timestamp := f.af.timestamp, fmt := f.af.fmt }
      else af) (rated f (by simp)) (min f.mb.length sz)
    rw [after, Option.bind_some]
    split
    · refine ⟨_, rfl, fun g hg => ?_⟩
      rcases List.mem_append.mp hg with mine | later
      · exact keptRated g mine
      · exact others g later
    · obtain ⟨r, loop, rRated⟩ := ih others false (sz - min f.mb.length sz) _
      refine ⟨_, by rw [loop]; rfl, fun g hg => ?_⟩
      rcases List.mem_append.mp hg with mine | later
      · exact keptRated g mine
      · exact rRated g later

theorem readAuframe_rated {ab : Aubuf α} (rated : ab.Rated) (af : Auframe α) :
    ∃ r, readAuframe ab af = some r ∧ r.1.Rated := by
  obtain ⟨r, loop, rRated⟩ := readLoop_rated (aufmtSampleSize af.fmt) rated true (auframeSize af) af
  refine ⟨_, by rw [readAuframe, loop]; rfl, ?_⟩
  exact rRated

theorem dropHead_rated {ab : Aubuf α} (rated : ab.Rated) : (dropHead ab).1.Rated := by
  cases h : ab.afl with
  | nil => simpa [dropHead, h] using rated
  | cons f rest =>
    rw [dropHead_of_cons h]
    exact fun g hg => rated g (by simp [h, hg])

theorem dropLoop_rated {ab : Aubuf α} (rated : ab.Rated) :
    ∀ r, dropLoop ab = some r → r.1.Rated := by
  fun_induction dropLoop ab with
  | case1 => nofun
  | case2 ab above nonempty d ih =>
    intro r h
    obtain ⟨r', loop, rfl⟩ := Option.map_eq_some_iff.mp h
    exact ih (dropHead_rated rated) r' loop
  | case3 =>
    rintro r ⟨⟩
    exact rated

theorem startupDrop_rated {ab : Aubuf α} (rated : ab.Rated) {r : Aubuf α × List α}
    (h : startupDrop ab = some r) : r.1.Rated := by
  unfold startupDrop at h
  split at h
  · exact dropLoop_rated rated _ h
  · cases h
    exact rated

theorem readFrames_rated {ab : Aubuf α} (inv : Inv ab) (rated : ab.Rated) (sz : Nat) (af : Auframe α)
    (as : AjbState) : ∃ r, readFrames sz ab af as = some r ∧ r.ab.Rated := by
  obtain ⟨ab₁, dropped, drop, -, -⟩ := startupDrop_spec inv
  have rated₁ : ab₁.Rated := startupDrop_rated rated drop
  obtain ⟨r₁, read₁, rated₂⟩ := @readAuframe_rated _ { ab₁ with started := true } rated₁ af
  simp only [readFrames, drop, Option.bind_some, read₁]
  split
  · obtain ⟨r₂, read₂, rated₃⟩ := readAuframe_rated rated₂ r₁.2.1
    exact ⟨_, by rw [read₂]; rfl, by simpa [Aubuf.Rated] using rated₃⟩
  · exact ⟨_, rfl, by simpa [Aubuf.Rated] using rated₂⟩

theorem aubufReadAuframe_rated [Zero α] {ab : Aubuf α} (inv : Inv ab) (rated : ab.Rated)
    (af : Auframe α) (as : AjbState) : ∃ r, aubufReadAuframe ab af as = some r ∧ r.ab.Rated := by
  rcases aubufReadAuframe_cases ab af as with ⟨ab', af', afl, cur, silent⟩ | ⟨ab', af', afl, cur, read⟩
  · refine ⟨_, silent, ?_⟩
    simpa [Aubuf.Rated, afl] using rated
  · rw [read]
    exact readFrames_rated (by simpa [Inv, afl, cur] using inv) (by simpa [Aubuf.Rated, afl] using rated) _ _ _

theorem stampFrame_rated {f : Frame α} (rated : f.af.Rated) (wrSz : Nat) :
    ∃ g, stampFrame f wrSz = some g ∧ g.af.Rated := by
  unfold stampFrame
  split
  · obtain ⟨ts, moved⟩ := auframeBytesToTimestamp_rated rated wrSz
    refine ⟨_, by rw [moved]; rfl, ?_⟩
    simpa [Auframe.Rated] using rated
  · exact ⟨f, rfl, rated⟩

theorem insertFrame_rated {ab : Aubuf α} (rated : ab.Rated) (mb : List α) {af : Auframe α}
    (fr : af.Rated) : ∃ ab', insertFrame ab mb (some af) = some ab' ∧ ab'.Rated := by
  obtain ⟨f, stamped, frated⟩ := stampFrame_rated (f := ⟨mb, af⟩) fr ab.wrSz
  have linked : ∀ g ∈ Seq.listInsertSorted frameLessEqual f ab.afl, g.af.Rated := by
    intro g hg
    rcases List.mem_cons.mp ((Seq.perm_listInsertSorted frameLessEqual f ab.afl).mem_iff.mp hg) with
      rfl | old
    · exact frated
    · exact rated g old
  obtain ⟨g, built, shape⟩ := insertFrame_shape ab mb (some af)
  rw [built, Option.getD_some, stamped, Option.map_some]
  refine ⟨_, rfl, ?_⟩
  rw [Aubuf.Rated, (shape f).1]
  exact linked

theorem aubufAppendAuframe_rated {ab : Aubuf α} (rated : ab.Rated) (mb : List α) {af : Auframe α}
    (fr : af.Rated) : ∃ r, aubufAppendAuframe ab mb (some af) = some r ∧ r.1.Rated := by
  obtain ⟨ab₁, inserted, rated₁⟩ := insertFrame_rated rated mb fr
  rw [aubufAppendAuframe, inserted, Option.map_some]
  split
  · exact ⟨_, rfl, dropHead_rated rated₁⟩
  · exact ⟨_, rfl, rated₁⟩

/-! ## A frame without a rate after one with -/

theorem auframeBytesToTimestamp_unrated {af : Auframe α} (unrated : ¬ af.Rated) (n : Nat) :
    auframeBytesToTimestamp af n = none := by
  have zero : af.srate * af.ch.toUInt32 = 0 := not_not.mp unrated
  simp [auframeBytesToTimestamp, zero]

theorem readLoop_traps {sampleSize : Nat} (sized : sampleSize ≠ 0) {sz : Nat} (af : Auframe α)
    {f g : Frame α} (rest : List (Frame α)) (short : f.mb.length < sz)
    (within : sz < f.mb.length + g.mb.length) (rate : f.af.srate ≠ 0) (chans : f.af.ch ≠ 0)
    (unrated : ¬ g.af.Rated) : readLoop sampleSize true sz af (f :: g :: rest) = none := by
  have whole : min f.mb.length sz = f.mb.length := by omega
  have part : min g.mb.length (sz - f.mb.length) = sz - f.mb.length := by omega
  have left : g.mb.drop (sz - f.mb.length) ≠ [] :=
    List.ne_nil_of_length_pos (by rw [List.length_drop]; omega)
  simp [readLoop, afterRead, whole, part, Nat.ne_of_lt short, left, rate, chans, sized,
    auframeBytesToTimestamp_unrated unrated]

-- A read of more bytes than the head frame holds, from a buffer whose second frame has no rate,
-- traps once the read gets to the frames.
theorem aubufReadAuframe_traps [Zero α] {ab : Aubuf α} {f g : Frame α} {rest : List (Frame α)}
    (listed : ab.afl = f :: g :: rest) (af : Auframe α) {as : AjbState} (reads : as ≠ .AJB_LOW)
    (filled : ab.fillSz = 0) (enough : auframeSize af ≤ ab.curSz) (nodrop : ab.wishSz = 0)
    (short : f.mb.length < auframeSize af) (within : auframeSize af < f.mb.length + g.mb.length)
    (rate : f.af.srate ≠ 0) (chans : f.af.ch ≠ 0) (unrated : ¬ g.af.Rated) :
    aubufReadAuframe ab af as = none := by
  have sized : aufmtSampleSize af.fmt ≠ 0 := by cases af.fmt <;> decide
  have trapped := readLoop_traps sized af rest short within rate chans unrated
  simp [aubufReadAuframe, reads, filled, Nat.not_lt.mpr enough, readFrames, startupDrop, nodrop,
    readAuframe, listed, trapped]

theorem auframeBytesToTimestamp_zero {af : Auframe α} (rated : af.Rated) :
    auframeBytesToTimestamp af 0 = some 0 := by
  obtain ⟨ts, moved⟩ := auframeBytesToTimestamp_rated rated 0
  rw [moved]
  unfold auframeBytesToTimestamp at moved
  dsimp only at moved
  split at moved
  · cases moved
  · cases moved
    simp

theorem stampFrame_first {f : Frame α} (rated : f.af.Rated) :
    ∃ g, stampFrame f 0 = some g ∧ g.mb = f.mb ∧ g.af.srate = f.af.srate ∧ g.af.ch = f.af.ch ∧
      g.af.timestamp = f.af.timestamp := by
  unfold stampFrame
  split
  next fresh =>
    rw [auframeBytesToTimestamp_zero rated, Option.map_some]
    exact ⟨_, rfl, rfl, rfl, rfl, fresh.1.symm⟩
  next => exact ⟨f, rfl, rfl, rfl, rfl, rfl⟩

theorem stampFrame_silent {f : Frame α} (silent : f.af.srate = 0 ∨ f.af.ch = 0) (wrSz : Nat) :
    stampFrame f wrSz = some f := by
  unfold stampFrame
  rw [if_neg (by tauto)]

theorem Auframe.Rated.srate_ne_zero {af : Auframe α} (rated : af.Rated) : af.srate ≠ 0 := by
  intro zero
  exact rated (by simp [zero])

theorem Auframe.Rated.ch_ne_zero {af : Auframe α} (rated : af.Rated) : af.ch ≠ 0 := by
  intro zero
  exact rated (by simp [zero])

section Runs

variable [Zero α]

theorem step_spec {ab ab' : Aubuf α} (inv : Inv ab) {c : Call α} {l : Ledger α}
    (h : step ab c = some (ab', l)) : Inv ab' ∧ (l.written ++ unread ab).Perm (l.out ++ unread ab') := by
  cases c with
  | write af =>
    obtain ⟨r, wrote, same⟩ := Option.map_eq_some_iff.mp h
    cases same
    obtain ⟨inv', moved⟩ := aubufAppendAuframe_spec inv wrote
    exact ⟨inv', by simpa [Ledger.out, Ledger.empty] using moved⟩
  | append mb af =>
    obtain ⟨r, appended, same⟩ := Option.map_eq_some_iff.mp h
    cases same
    obtain ⟨inv', moved⟩ := aubufAppendAuframe_spec inv appended
    exact ⟨inv', by simpa [Ledger.out, Ledger.empty] using moved⟩
  | read af as =>
    obtain ⟨r, read, same⟩ := Option.map_eq_some_iff.mp h
    cases same
    obtain ⟨inv', split⟩ := aubufReadAuframe_spec inv read
    refine ⟨inv', ?_⟩
    simp only [Ledger.out, Ledger.empty, split, List.nil_append, List.append_nil]
    exact (@List.perm_append_comm _ r.dropped r.read).append_right _
  | flush =>
    cases h
    exact ⟨rfl, by simp [Ledger.out, Ledger.empty, aubufFlush, unread]⟩
  | resize minSz maxSz =>
    cases h
    exact ⟨rfl, by simp [Ledger.out, Ledger.empty, aubufResize, aubufFlush, unread]⟩
  | setLive live =>
    cases h
    exact ⟨inv, by simp [Ledger.out, Ledger.empty, aubufSetLive, unread]⟩
  | sort =>
    cases h
    obtain ⟨inv', sorted⟩ := aubufSortAuframe_spec inv
    exact ⟨inv', by simpa [Ledger.out, Ledger.empty] using sorted.symm⟩

-- The run lemma: by induction on the calls, the ledgers of the steps add up.
theorem run_spec {ab ab' : Aubuf α} (inv : Inv ab) {calls : List (Call α)} {l : Ledger α}
    (h : run ab calls = some (ab', l)) : Inv ab' ∧ (l.written ++ unread ab).Perm (l.out ++ unread ab') := by
  induction calls generalizing ab ab' l with
  | nil =>
    cases h
    exact ⟨inv, by simp [Ledger.out, Ledger.empty]⟩
  | cons c calls ih =>
    obtain ⟨⟨ab₁, l₁⟩, stepped, h⟩ := Option.bind_eq_some_iff.mp h
    obtain ⟨⟨ab₂, m⟩, ran, same⟩ := Option.map_eq_some_iff.mp h
    cases same
    obtain ⟨inv₁, moved₁⟩ := step_spec inv stepped
    obtain ⟨inv₂, moved₂⟩ := ih inv₁ ran
    refine ⟨inv₂, ?_⟩
    calc (l₁.written ++ m.written) ++ unread ab
      _ = l₁.written ++ (m.written ++ unread ab) := List.append_assoc _ _ _
      List.Perm _ (m.written ++ (l₁.written ++ unread ab)) := List.perm_append_comm_assoc _ _ _
      List.Perm _ (m.written ++ (l₁.out ++ unread ab₁)) := moved₁.append_left _
      List.Perm _ (l₁.out ++ (m.written ++ unread ab₁)) := List.perm_append_comm_assoc _ _ _
      List.Perm _ (l₁.out ++ (m.out ++ unread ab')) := moved₂.append_left _
      _ = (l₁.out ++ m.out) ++ unread ab' := (List.append_assoc _ _ _).symm
      List.Perm _ ((l₁.append m).out ++ unread ab') := (Ledger.out_append l₁ m).symm.append_right _

-- The frames a call brings have a rate; an `aubuf_append` with no frame brings one without.
def Call.Rated : Call α → Prop
  | .write af => af.Rated
  | .append _ af => ∃ a, af = some a ∧ a.Rated
  | _ => True

theorem step_rated {ab : Aubuf α} (inv : Inv ab) (rated : ab.Rated) {c : Call α} (hc : c.Rated) :
    ∃ r, step ab c = some r ∧ r.1.Rated := by
  cases c with
  | write af =>
    obtain ⟨r, wrote, rated'⟩ := @aubufAppendAuframe_rated _ _ rated (writeMbuf af) af hc
    exact ⟨_, by rw [step, aubufWriteAuframe, wrote]; rfl, rated'⟩
  | append mb af =>
    obtain ⟨a, rfl, ha⟩ := hc
    obtain ⟨r, appended, rated'⟩ := aubufAppendAuframe_rated rated mb ha
    exact ⟨_, by rw [step, appended]; rfl, rated'⟩
  | read af as =>
    obtain ⟨r, read, rated'⟩ := aubufReadAuframe_rated inv rated af as
    exact ⟨_, by rw [step, read]; rfl, rated'⟩
  | flush => exact ⟨_, rfl, nofun⟩
  | resize minSz maxSz => exact ⟨_, rfl, nofun⟩
  | setLive live => exact ⟨_, rfl, rated⟩
  | sort =>
    refine ⟨_, rfl, fun f hf => rated f ?_⟩
    exact (Seq.perm_listSort frameLessEqual frameLessEqual_total ab.afl).mem_iff.mp hf

-- A run whose frames all have a rate returns: by induction on the calls, with the count kept
-- for the start-up drop of every read.
theorem run_rated {ab : Aubuf α} (inv : Inv ab) (rated : ab.Rated) {calls : List (Call α)}
    (hcs : ∀ c ∈ calls, c.Rated) : ∃ r, run ab calls = some r := by
  induction calls generalizing ab with
  | nil => exact ⟨_, rfl⟩
  | cons c calls ih =>
    obtain ⟨⟨ab₁, l⟩, stepped, rated₁⟩ := step_rated inv rated (hcs c (by simp))
    obtain ⟨inv₁, -⟩ := step_spec inv stepped
    obtain ⟨⟨ab₂, m⟩, ran⟩ := ih inv₁ rated₁ (fun c' hc' => hcs c' (by simp [hc']))
    exact ⟨(ab₂, l.append m), by simp [run, stepped, ran]⟩

-- From a fresh buffer, every run whose frames have a rate returns, and each byte written is read,
-- dropped, flushed or still buffered, once.
theorem aubuf_byte_accounting (minSz maxSz : Nat) (calls : List (Call α))
    (rated : ∀ c ∈ calls, c.Rated) :
    ∃ ab l, run (aubufAlloc minSz maxSz) calls = some (ab, l) ∧
      ab.curSz = (ab.afl.map fun f => f.mb.length).sum ∧ (dropLoop ab).isSome ∧
      l.written.Perm (l.read ++ l.overrun ++ l.startup ++ l.flushed ++ unread ab) := by
  have start : Inv (aubufAlloc minSz maxSz : Aubuf α) := rfl
  obtain ⟨⟨ab, l⟩, ran⟩ := run_rated start nofun rated
  obtain ⟨inv, moved⟩ := run_spec start ran
  obtain ⟨_, _, loop, -⟩ := dropLoop_spec inv
  refine ⟨ab, l, ran, inv, by simp [loop], ?_⟩
  simpa [unread, aubufAlloc, Ledger.out] using moved

-- A frame with a rate, then one without it and not before it in time, then a read of more bytes
-- than the first holds: the read divides by zero.
theorem aubuf_read_traps (maxSz : Nat) (afA : Auframe α) (mbB : List α) (afB : Option (Auframe α))
    (af : Auframe α) (as : AjbState) (rated : afA.Rated)
    (silent : (afB.getD .zero).srate = 0 ∨ (afB.getD .zero).ch = 0)
    (later : afA.timestamp ≤ (afB.getD .zero).timestamp) (reads : as ≠ .AJB_LOW)
    (short : (writeMbuf afA).length < auframeSize af)
    (within : auframeSize af < (writeMbuf afA).length + mbB.length)
    (roomy : maxSz = 0 ∨ (writeMbuf afA).length + mbB.length ≤ maxSz) :
    run (aubufAlloc 0 maxSz) [.write afA, .append mbB afB, .read af as] = none := by
  obtain ⟨A, stampA, mbA, srateA, chA, tsA⟩ := stampFrame_first (f := ⟨writeMbuf afA, afA⟩) rated
  obtain ⟨gA, builtA, shapeA⟩ := insertFrame_shape (aubufAlloc 0 maxSz) (writeMbuf afA) (some afA)
  obtain ⟨aflA, curA, fillA, wishA, maxA⟩ := shapeA A
  have wrote : aubufWriteAuframe (aubufAlloc 0 maxSz) afA = some (gA A, []) := by
    have kept : ¬ ((gA A).maxSz ≠ 0 ∧ (gA A).curSz > (gA A).maxSz) := by
      rw [curA, maxA]
      simp only [aubufAlloc]
      omega
    have stampA' : stampFrame ⟨writeMbuf afA, afA⟩ (aubufAlloc 0 maxSz : Aubuf α).wrSz = some A := stampA
    rw [aubufWriteAuframe, aubufAppendAuframe, builtA, Option.getD_some, stampA', Option.map_some,
      Option.map_some, if_neg kept]
  let B : Frame α := ⟨mbB, afB.getD .zero⟩
  obtain ⟨gB, builtB, shapeB⟩ := insertFrame_shape (gA A) mbB afB
  obtain ⟨aflB, curB, fillB, wishB, maxB⟩ := shapeB B
  have ordered : Seq.listInsertSorted frameLessEqual B [A] = [A, B] := by
    simp [Seq.listInsertSorted, Seq.insertScan, frameLessEqual, tsA, B, later]
  have appended : aubufAppendAuframe (gA A) mbB afB = some (gB B, []) := by
    have kept : ¬ ((gB B).maxSz ≠ 0 ∧ (gB B).curSz > (gB B).maxSz) := by
      rw [curB, maxB, curA, maxA]
      simp only [aubufAlloc]
      omega
    rw [aubufAppendAuframe, builtB, stampFrame_silent silent, Option.map_some, Option.map_some,
      if_neg kept]
  -- the read: the first frame is read out, and the second is divided by its zero rate
  have trapped : aubufReadAuframe (gB B) af as = none := by
    have fill : (gB B).fillSz = 0 := by
      have := fillA.trans' fillB
      simp only [aubufAlloc] at this
      omega
    refine @aubufReadAuframe_traps _ _ _ A B [] ?_ af _ reads fill ?_ ?_ ?_ ?_
      (by rw [srateA]; exact rated.srate_ne_zero) (by rw [chA]; exact rated.ch_ne_zero) ?_
    · rw [aflB, aflA]
      exact ordered
    · rw [curB, curA]
      simp only [aubufAlloc]
      omega
    · rw [wishB, wishA]
      rfl
    · rw [mbA]
      exact short
    · rw [mbA]
      exact within
    · intro rated'
      rcases silent with zero | zero <;> simp [Auframe.Rated, B, zero] at rated'
  simp [run, step, wrote, appended, trapped]

theorem aubuf_read_traps_mixed :
    run (aubufAlloc 0 0 : Aubuf UInt8)
        [.write ⟨.S16LE, 8000, [1, 2], 1, 0, 0, 1⟩, .append [3, 4, 5, 6] none,
          .read ⟨.S16LE, 8000, [], 2, 0, 0, 1⟩ .AJB_GOOD] = none :=
  aubuf_read_traps 0 _ _ none _ _ (by decide) (.inl rfl) (by decide) (by decide) (by decide) (by decide)
    (.inl rfl)

end Runs

end Libre.Audio
