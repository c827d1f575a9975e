import Libre.Srtp.Index

set_option autoImplicit false
set_option linter.dupNamespace false

/-!
# SRTP sessions and streams

`struct srtp` with its two crypto components (`comp_init`, `srtp_alloc` in `srtp/srtp.c`) and
its list of per-SSRC streams (`srtp/stream.c`). A stream handed out by `stream_get` is a pointer
into the list; here it is a `Slot`, the list cut around that stream, so that every later write
through the pointer is a write to `Slot.strm` and the streams around it stay as they are.
-/

namespace Libre.Srtp

structure Comp where
  aes : Option Aes
  mode : AesMode
  hmac : Option (List UInt8)
  k_s : List UInt8
  tag_len : Nat
  deriving DecidableEq, Repr

structure Stream where
  replay_rtp : Replay
  replay_rtcp : Replay
  ssrc : UInt32
  roc : UInt32
  s_l : UInt16
  s_l_set : Bool
  rtcp_index : UInt32
  deriving DecidableEq, Repr

structure Srtp where
  rtp : Comp
  rtcp : Comp
  streaml : List Stream
  deriving DecidableEq, Repr

inductive SrtpSuite
  | AES_CM_128_HMAC_SHA1_32 | AES_CM_128_HMAC_SHA1_80
  | AES_256_CM_HMAC_SHA1_32 | AES_256_CM_HMAC_SHA1_80
  | AES_128_GCM | AES_256_GCM
  deriving DecidableEq, Repr

def SRTP_UNENCRYPTED_SRTCP : Nat := 2

def SRTP_MAX_STREAMS : Nat := 8

section Setup

variable (prim : Primitives)

def compInit (offs : UInt8) (key s : List UInt8) (tag_len : Nat) (encrypted hash : Bool)
    (mode : AesMode) : Except Errno Comp :=
  if key.length > 32 then .error .EINVAL else
  if tag_len > 20 then .error .EINVAL else
  match srtpDerive prim key.length (0x00 + offs) key s,
      srtpDerive prim 20 (0x01 + offs) key s, srtpDerive prim 14 (0x02 + offs) key s with
  | .ok k_e, .ok k_a, .ok k_s =>
    -- the salting key fills 14 of the 16 bytes of a zeroed `union vect128`
    let k_s := k_s ++ [0, 0]
    let aes := if encrypted then (aesAlloc mode k_e).map some else .ok none
    match aes with
    | .error e => .error e
    | .ok aes => .ok ⟨aes, mode, if hash then some k_a else none, k_s, tag_len⟩
  | .error e, _, _ | _, .error e, _ | _, _, .error e => .error e

/-- The suite table of `srtp_alloc`: mode, cipher key bytes, salt bytes, tag bytes, HMAC. -/
def suiteParams : SrtpSuite → AesMode × Nat × Nat × Nat × Bool
  | .AES_CM_128_HMAC_SHA1_80 => (.CTR, 16, 14, 10, true)
  | .AES_CM_128_HMAC_SHA1_32 => (.CTR, 16, 14, 4, true)
  | .AES_256_CM_HMAC_SHA1_80 => (.CTR, 32, 14, 10, true)
  | .AES_256_CM_HMAC_SHA1_32 => (.CTR, 32, 14, 4, true)
  | .AES_128_GCM => (.GCM, 16, 12, 0, false)
  | .AES_256_GCM => (.GCM, 32, 12, 0, false)

def srtpAlloc (suite : SrtpSuite) (key : List UInt8) (flags : Nat) : Except Errno Srtp :=
  let (mode, cipher_bytes, salt_bytes, auth_bytes, hash) := suiteParams suite
  if cipher_bytes + salt_bytes ≠ key.length then .error .EINVAL else
  let master := key.take cipher_bytes
  let salt := key.drop cipher_bytes
  match compInit prim 0 master salt auth_bytes true hash mode,
      compInit prim 3 master salt auth_bytes (flags &&& SRTP_UNENCRYPTED_SRTCP == 0) hash mode with
  | .ok rtp, .ok rtcp => .ok ⟨rtp, rtcp, []⟩
  | .error e, _ | _, .error e => .error e

end Setup

/-- What `srtp_alloc` fixes of a component from its suite: the AES mode, whether there is an
HMAC, and the tag length. -/
structure Comp.OfSuite (suite : SrtpSuite) (c : Comp) : Prop where
  mode : c.mode = (suiteParams suite).1
  hmac : c.hmac.isSome = (suiteParams suite).2.2.2.2
  tag_len : c.tag_len = (suiteParams suite).2.2.2.1

theorem compInit_ok {prim : Primitives} {offs : UInt8} {key s : List UInt8} {tag_len : Nat}
    {encrypted hash : Bool} {mode : AesMode} {c : Comp}
    (h : compInit prim offs key s tag_len encrypted hash mode = .ok c) :
    c.mode = mode ∧ c.hmac.isSome = hash ∧ c.tag_len = tag_len := by
  unfold compInit at h
  split at h
  · cases h
  split at h
  · cases h
  split at h
  · simp only at h
    split at h
    · cases h
    · cases h
      cases hash <;> simp
  all_goals cases h

theorem srtpAlloc_ok {prim : Primitives} {suite : SrtpSuite} {key : List UInt8} {flags : Nat}
    {srtp : Srtp} (h : srtpAlloc prim suite key flags = .ok srtp) :
    srtp.rtp.OfSuite suite ∧ srtp.rtcp.OfSuite suite ∧ srtp.streaml = [] := by
  unfold srtpAlloc at h
  rcases hs : suiteParams suite with ⟨mode, cipher_bytes, salt_bytes, auth_bytes, hash⟩
  rw [hs] at h
  dsimp only at h
  split at h
  · cases h
  split at h
  · rename_i rtp rtcp hrtp hrtcp
    cases h
    obtain ⟨mode_rtp, hmac_rtp, tag_rtp⟩ := compInit_ok hrtp
    obtain ⟨mode_rtcp, hmac_rtcp, tag_rtcp⟩ := compInit_ok hrtcp
    exact ⟨⟨by rw [hs]; exact mode_rtp, by rw [hs]; exact hmac_rtp, by rw [hs]; exact tag_rtp⟩,
      ⟨by rw [hs]; exact mode_rtcp, by rw [hs]; exact hmac_rtcp, by rw [hs]; exact tag_rtcp⟩, rfl⟩
  all_goals cases h

theorem Comp.OfSuite.mode_of_hmac {suite : SrtpSuite} {c : Comp} (h : c.OfSuite suite)
    (hmac : c.hmac.isSome) : c.mode = .CTR := by
  have mode := h.mode
  have hash := h.hmac
  cases suite <;> simp_all [suiteParams]

/-! ## Streams -/

structure Slot where
  before : List Stream
  strm : Stream
  after : List Stream
  deriving DecidableEq, Repr

def Slot.streams (s : Slot) : List Stream := s.before ++ s.strm :: s.after

def Slot.set (s : Slot) (strm : Stream) : Slot := { s with strm := strm }

def streamInit (ssrc : UInt32) : Stream :=
  ⟨srtpReplayInit, srtpReplayInit, ssrc, 0, 0, false, 0⟩

def streamFind (streaml : List Stream) (ssrc : UInt32) : Option Slot :=
  match streaml.span (·.ssrc != ssrc) with
  | (before, strm :: after) => some ⟨before, strm, after⟩
  | (_, []) => none

def streamNew (streaml : List Stream) (ssrc : UInt32) : Except Errno Slot :=
  if streaml.length ≥ SRTP_MAX_STREAMS then .error .ENOSR
  else .ok ⟨streaml, streamInit ssrc, []⟩

def streamGet (streaml : List Stream) (ssrc : UInt32) : Except Errno Slot :=
  match streamFind streaml ssrc with
  | some slot => .ok slot
  | none => streamNew streaml ssrc

def streamGetSeq (streaml : List Stream) (ssrc : UInt32) (seq : UInt16) : Except Errno Slot :=
  match streamGet streaml ssrc with
  | .error e => .error e
  | .ok slot =>
    -- the initial sequence number is set once only
    if !slot.strm.s_l_set then .ok (slot.set { slot.strm with s_l := seq, s_l_set := true })
    else .ok slot

@[simp] theorem Slot.set_strm (s : Slot) (strm : Stream) : (s.set strm).strm = strm := rfl

@[simp] theorem Slot.streams_set (s : Slot) (strm : Stream) :
    (s.set strm).streams = s.before ++ strm :: s.after := rfl

@[simp] theorem Slot.set_self (s : Slot) : s.set s.strm = s := rfl

@[simp] theorem Slot.set_set (s : Slot) (a b : Stream) : (s.set a).set b = s.set b := rfl

theorem streamFind_first (before after : List Stream) (strm : Stream) (ssrc : UInt32)
    (same : strm.ssrc = ssrc) (others : ∀ s ∈ before, s.ssrc ≠ ssrc) :
    streamFind (before ++ strm :: after) ssrc = some ⟨before, strm, after⟩ := by
  have span : (before ++ strm :: after).span (·.ssrc != ssrc) = (before, strm :: after) := by
    rw [List.span_eq_takeWhile_dropWhile, List.takeWhile_append_of_pos (by simpa using others),
      List.dropWhile_append_of_pos (by simpa using others)]
    simp [same]
  rw [streamFind, span]

theorem streamFind_some {streaml : List Stream} {ssrc : UInt32} {slot : Slot}
    (h : streamFind streaml ssrc = some slot) :
    slot.streams = streaml ∧ slot.strm.ssrc = ssrc ∧ ∀ s ∈ slot.before, s.ssrc ≠ ssrc := by
  unfold streamFind at h
  split at h
  · rename_i before strm after hspan
    cases h
    rw [List.span_eq_takeWhile_dropWhile, Prod.mk.injEq] at hspan
    obtain ⟨hbefore, hafter⟩ := hspan
    have whole := @List.takeWhile_append_dropWhile _ (·.ssrc != ssrc) streaml
    rw [hbefore, hafter] at whole
    have first := List.head_dropWhile_not (fun s : Stream => s.ssrc != ssrc)
      (l := streaml) (by rw [hafter]; exact List.cons_ne_nil _ _)
    simp only [hafter, List.head_cons, bne_eq_false_iff_eq] at first
    refine ⟨whole, first, fun s hs => ?_⟩
    have := List.mem_takeWhile_imp (hbefore ▸ hs)
    simpa using this
  · cases h

theorem streamFind_none {streaml : List Stream} {ssrc : UInt32}
    (h : streamFind streaml ssrc = none) : ∀ s ∈ streaml, s.ssrc ≠ ssrc := by
  unfold streamFind at h
  split at h
  · cases h
  · rename_i before hspan
    rw [List.span_eq_takeWhile_dropWhile, Prod.mk.injEq] at hspan
    intro s hs
    have all := List.dropWhile_eq_nil_iff.mp hspan.2 s hs
    simpa using all

/-- What `stream_get` does to the list: it finds the stream of the SSRC, or appends a fresh one
when there is none and room is left. -/
theorem streamGet_ok {streaml : List Stream} {ssrc : UInt32} {slot : Slot}
    (h : streamGet streaml ssrc = .ok slot) :
    slot.strm.ssrc = ssrc ∧
      (slot.streams = streaml ∨
        ((∀ s ∈ streaml, s.ssrc ≠ ssrc) ∧ streaml.length < SRTP_MAX_STREAMS ∧
          slot = ⟨streaml, streamInit ssrc, []⟩)) := by
  unfold streamGet at h
  split at h
  · rename_i found hfind
    cases h
    obtain ⟨whole, same, -⟩ := streamFind_some hfind
    exact ⟨same, .inl whole⟩
  · rename_i hfind
    unfold streamNew at h
    split at h
    · cases h
    · cases h
      exact ⟨rfl, .inr ⟨streamFind_none hfind, by omega, rfl⟩⟩

theorem streamGet_of_room (streaml : List Stream) (ssrc : UInt32)
    (room : streaml.length < SRTP_MAX_STREAMS) : ∃ slot, streamGet streaml ssrc = .ok slot := by
  unfold streamGet streamNew
  split
  · exact ⟨_, rfl⟩
  · simp [Nat.not_le.mpr room]

theorem streamGet_found_again {streaml : List Stream} {ssrc : UInt32} {slot : Slot}
    (h : streamGet streaml ssrc = .ok slot) : streamFind slot.streams ssrc = some slot := by
  unfold streamGet at h
  split at h
  · rename_i found hfind
    cases h
    obtain ⟨whole, -, -⟩ := streamFind_some hfind
    rw [whole, hfind]
  · rename_i hfind
    unfold streamNew at h
    split at h
    · cases h
    · cases h
      exact streamFind_first streaml [] (streamInit ssrc) ssrc rfl (streamFind_none hfind)

/-- `stream_get_seq` is `stream_get` followed by the one-time capture of the first sequence
number. -/
theorem streamGetSeq_ok {streaml : List Stream} {ssrc : UInt32} {seq : UInt16} {slot : Slot}
    (h : streamGetSeq streaml ssrc seq = .ok slot) :
    ∃ slot0, streamGet streaml ssrc = .ok slot0 ∧
      slot = if !slot0.strm.s_l_set then slot0.set { slot0.strm with s_l := seq, s_l_set := true }
        else slot0 := by
  unfold streamGetSeq at h
  split at h
  · cases h
  · rename_i slot0 hget
    refine ⟨slot0, hget, ?_⟩
    split at h <;> (cases h; simp_all)

end Libre.Srtp
