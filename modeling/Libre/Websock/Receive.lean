import Libre.Websock.Frame
import Libre.Lib.Reassembly

set_option autoImplicit false

/-!
# Receiving a WebSocket stream

`recv_handler` of `websock/websock.c`: the bytes of an incomplete frame wait in `conn->mb`, each
segment is appended to them, and every complete frame is passed on. Frames sent with
`websock_vsend`'s layout reach the application whole, in order and once each, however the stream is
cut (`websock_stream_delivery`). The application's handler keeps its reference to the connection.
-/

namespace Libre.Websock

open BigEndian Mbuf

inductive WebsockState
  | ACCEPTING | CONNECTING | OPEN | CLOSING | CLOSED
  deriving DecidableEq, Repr

def BUFSIZE_MAX : Nat := 131072

def WEBSOCK_PROTOCOL_ERROR : UInt16 := 1002
def WEBSOCK_MESSAGE_TOO_BIG : UInt16 := 1009
def WEBSOCK_INTERNAL_ERROR : UInt16 := 1011

structure WebsockConn where
  state : WebsockState
  active : Bool
  mb : Option Mbuf
  deriving DecidableEq, Repr

inductive WebsockEvent
  | recv (hdr : WebsockHdr) (payload : List UInt8)
  | send (opcode : UInt8) (scode : UInt16) (payload : List UInt8)
  | close (err : Option Errno)
  deriving DecidableEq, Repr

def websockErr2scode : Errno → UInt16
  | .EOVERFLOW => WEBSOCK_MESSAGE_TOO_BIG
  | .EPROTO => WEBSOCK_PROTOCOL_ERROR
  | .EBADMSG => WEBSOCK_PROTOCOL_ERROR
  | _ => WEBSOCK_INTERNAL_ERROR

/-- `websock_vsend` as the connection sees it: refused unless open, else one frame out. -/
def websockVsend (conn : WebsockConn) (opcode : UInt8) (scode : UInt16) (payload : List UInt8) :
    Option Errno × List WebsockEvent :=
  if conn.state ≠ .OPEN then (some .ENOTCONN, []) else (none, [.send opcode scode payload])

def websockClose (conn : WebsockConn) (scode : UInt16) : WebsockConn × List WebsockEvent :=
  match websockVsend conn WEBSOCK_CLOSE scode [] with
  | (none, evs) => ({ conn with state := .CLOSING }, evs)
  | (some _, evs) => (conn, evs)

def connClose (conn : WebsockConn) (err : Option Errno) : WebsockConn × List WebsockEvent :=
  ({ conn with state := .CLOSED }, [.close err])

/-- The `out:` label of `recv_handler`. -/
def recvFail (conn : WebsockConn) (err : Errno) : WebsockConn × List WebsockEvent :=
  let (conn, closing) := websockClose conn (websockErr2scode err)
  let (conn, closed) := connClose conn (some err)
  (conn, closing ++ closed)

/-- The bytes after a frame, copied into a buffer of their own (`mbn`). -/
def trailing (mb : Mbuf) (frameEnd : Nat) : Option Mbuf :=
  if mb.end_ > frameEnd then
    some (((alloc (mb.end_ - frameEnd)).writeMem (mb.buf.extract frameEnd mb.end_)).setPos 0)
  else none

/-- The `while (conn->mb)` loop, one frame a round; every round but the last consumes at least
two bytes, so one round more than the bytes buffered is enough. It is `none` once the decoder
writes past the buffer. -/
def recvLoop : Nat → WebsockConn → List WebsockEvent → Option (WebsockConn × List WebsockEvent)
  | 0, conn, evs => some (conn, evs)
  | fuel + 1, conn, evs =>
    match conn.mb with
    | none => some (conn, evs)
    | some cmb =>
      match websockDecode cmb with
      | none => none
      | some (.error .ENODATA, dmb) => some ({ conn with mb := some (dmb.setPos cmb.pos) }, evs)
      | some (.error err, dmb) =>
        let (conn, out) := recvFail { conn with mb := some dmb } err
        some (conn, evs ++ out)
      | some (.ok hdr, mb) =>
        if conn.active = hdr.mask ∨ (hdr.rsv1 || hdr.rsv2 || hdr.rsv3) then
          let (conn, out) := recvFail { conn with mb := some mb } .EPROTO
          some (conn, evs ++ out)
        else
          let frameEnd := mb.pos + hdr.len.toNat
          let payload := (mb.setEnd frameEnd).left
          let conn := { conn with mb := trailing mb frameEnd }
          if hdr.opcode = WEBSOCK_CONT ∨ hdr.opcode = WEBSOCK_TEXT ∨ hdr.opcode = WEBSOCK_BIN then
            recvLoop fuel conn (evs ++ [.recv hdr payload])
          else if hdr.opcode = WEBSOCK_CLOSE then
            let (_, echo) := websockVsend conn WEBSOCK_CLOSE 0 payload
            let (conn, closed) := connClose conn none
            some (conn, evs ++ echo ++ closed)
          else if hdr.opcode = WEBSOCK_PING then
            recvLoop fuel conn (evs ++ (websockVsend conn WEBSOCK_PONG 0 payload).2)
          else if hdr.opcode = WEBSOCK_PONG then
            recvLoop fuel conn evs
          else
            let (conn, out) := recvFail conn .EPROTO
            some (conn, evs ++ out)

def recvHandler (conn : WebsockConn) (seg : Mbuf) : Option (WebsockConn × List WebsockEvent) :=
  match conn.mb with
  | some cmb =>
    if cmb.getLeft + seg.getLeft > BUFSIZE_MAX then some (recvFail conn .EOVERFLOW)
    else
      let buffered := ((cmb.setPos cmb.end_).writeMem seg.left).setPos cmb.pos
      recvLoop (buffered.getLeft + 1) { conn with mb := some buffered } []
  | none => recvLoop (seg.getLeft + 1) { conn with mb := some seg } []

/-- TCP delivers the segments one by one while the connection stays up; `conn_close` releases
the TCP connection, after which nothing more arrives. -/
def recvRun (conn : WebsockConn) : List (List UInt8) → Option (WebsockConn × List WebsockEvent)
  | [] => some (conn, [])
  | seg :: segs =>
    match recvHandler conn ⟨seg, 0, seg.length⟩ with
    | none => none
    | some (conn, evs) =>
      if conn.state = .CLOSED then some (conn, evs)
      else (recvRun conn segs).map fun (conn, more) => (conn, evs ++ more)

/-! ## Frames from the peer

`peerWire active f`: what the peer sends for `f`, masked exactly when this end is not. -/

structure WebsockMsg where
  fin : Bool
  opcode : UInt8
  payload : List UInt8
  mkey : Vector UInt8 4

def peerWire (active : Bool) (f : WebsockMsg) : List UInt8 :=
  (websockFrame (!active) f.fin f.opcode 0 f.payload f.mkey).getD []

def isData (f : WebsockMsg) : Bool :=
  f.opcode = WEBSOCK_CONT ∨ f.opcode = WEBSOCK_TEXT ∨ f.opcode = WEBSOCK_BIN

/-- What the connection reports for a frame: data goes to the application, a ping is answered. -/
def frameEvents (active : Bool) (f : WebsockMsg) : List WebsockEvent :=
  if isData f then
    [.recv { wireHdr f.fin f.opcode (!active) f.payload.length with
      mkey := if !active then f.mkey else .replicate 4 0 } f.payload]
  else if f.opcode = WEBSOCK_PING then [.send WEBSOCK_PONG 0 f.payload]
  else []

/-- What the application's receive handler is given for each data frame: its flags and payload. -/
def delivered (evs : List WebsockEvent) : List (Bool × UInt8 × List UInt8) :=
  evs.filterMap fun
    | .recv hdr payload => some (hdr.fin, hdr.opcode, payload)
    | _ => none

@[simp] theorem delivered_append (evs more : List WebsockEvent) :
    delivered (evs ++ more) = delivered evs ++ delivered more :=
  List.filterMap_append

/-- Data, ping and pong frames, with payloads that `websock_encode`'s 64-bit length holds. -/
structure Sendable (f : WebsockMsg) : Prop where
  opcode : f.opcode ∈ [WEBSOCK_CONT, WEBSOCK_TEXT, WEBSOCK_BIN, WEBSOCK_PING, WEBSOCK_PONG]
  short : f.payload.length < 2 ^ 63

/-- What `conn->mb` holds from its position on; no buffer holds nothing. -/
def Holds : Option Mbuf → List UInt8 → Prop
  | none, bytes => bytes = []
  | some mb, bytes => Frame mb mb.pos bytes

-- A buffer is kept exactly while bytes wait: TCP hands over no empty segment, and the loop drops
-- the buffer with the last frame in it.
def Waits : Option Mbuf → List UInt8 → Prop
  | none, bytes => bytes = []
  | some mb, bytes => bytes ≠ [] ∧ Frame mb mb.pos bytes

theorem Waits.eq_none {mb : Option Mbuf} (h : Waits mb []) : mb = none := by
  cases mb with
  | none => rfl
  | some _ => exact absurd rfl h.1

theorem Sendable.opcode_low {f : WebsockMsg} (h : Sendable f) : f.opcode &&& 0x0f = f.opcode := by
  have op := h.opcode
  simp only [List.mem_cons, List.not_mem_nil, or_false] at op
  rcases op with op | op | op | op | op <;> rw [op] <;> decide

theorem length_peerWire (active : Bool) (f : WebsockMsg) : 2 ≤ (peerWire active f).length := by
  rw [peerWire, websockFrame_wire, Option.getD_some, frameWire, List.length_append, length_hdrBytes]
  split_ifs <;> omega

section Loop

variable {mb : Mbuf} {pl rest : List UInt8}

theorem trailing_waits (h : Frame mb mb.pos (pl ++ rest)) :
    Waits (trailing mb (mb.pos + pl.length)) rest := by
  have ends := h.ends
  cases rest with
  | nil => simp [trailing, Waits, ends]
  | cons b bs =>
    have more : mb.end_ > mb.pos + pl.length := by simp [ends]
    have copied := h.holds.right.bytes
    rw [show mb.pos + pl.length + (b :: bs).length = mb.end_ by
      rw [ends, List.length_append, Nat.add_assoc]] at copied
    simp only [trailing, more, if_true, Waits]
    refine ⟨List.cons_ne_nil b bs, (frame_setPos 0).mpr ⟨?_, ?_⟩⟩
    · simpa [copied] using holdsAt_writeMem (alloc (mb.end_ - (mb.pos + pl.length)))
        (mb.buf.extract (mb.pos + pl.length) mb.end_)
    · simp [copied]

theorem payload_left (h : Frame mb mb.pos (pl ++ rest)) :
    (mb.setEnd (mb.pos + pl.length)).left = pl :=
  h.front.left rfl

variable {active : Bool}

theorem recvLoop_frame {f : WebsockMsg} (hf : Sendable f) {cmb : Mbuf}
    (h : Frame cmb cmb.pos (peerWire active f ++ rest)) (fuel : Nat) (evs : List WebsockEvent) :
    ∃ mb', Waits mb' rest ∧ recvLoop (fuel + 1) ⟨.OPEN, active, some cmb⟩ evs =
      recvLoop fuel ⟨.OPEN, active, mb'⟩ (evs ++ frameEvents active f) := by
  rw [peerWire, websockFrame_wire, Option.getD_some] at h
  obtain ⟨mb1, dec, body⟩ := websockDecode_wire h hf.short
  refine ⟨trailing mb1 (mb1.pos + f.payload.length), trailing_waits body, ?_⟩
  have len : (UInt64.ofNat f.payload.length).toNat = f.payload.length :=
    UInt64.toNat_ofNat_of_lt' (show f.payload.length < 2 ^ 64 by have := hf.short; omega)
  -- the peer masks exactly when this end does not, and sets no reserved bit
  have checks : ¬ (active = !active ∨ (false || false || false) = true) := by cases active <;> decide
  have op := hf.opcode
  simp only [List.mem_cons, List.not_mem_nil, or_false] at op
  have zero_key : (Vector.replicate 4 0 : Vector UInt8 4) = #v[0, 0, 0, 0] := rfl
  simp only [recvLoop, dec, frameEvents, wireHdr, checks, if_false, len, payload_left body,
    hf.opcode_low, zero_key]
  rcases op with op | op | op | op | op <;>
    simp [op, isData, websockVsend, WEBSOCK_CONT, WEBSOCK_TEXT, WEBSOCK_BIN,
      WEBSOCK_CLOSE, WEBSOCK_PING, WEBSOCK_PONG]

theorem recvLoop_part {f : WebsockMsg} (hf : Sendable f) {cmb : Mbuf} {part : List UInt8}
    (h : Frame cmb cmb.pos part) (hp : part <+: peerWire active f)
    (short : part.length < (peerWire active f).length) (fuel : Nat) (evs : List WebsockEvent) :
    recvLoop (fuel + 1) ⟨.OPEN, active, some cmb⟩ evs = some (⟨.OPEN, active, some cmb⟩, evs) := by
  rw [peerWire, websockFrame_wire, Option.getD_some] at hp short
  obtain ⟨dmb, dec, back⟩ := websockDecode_part h hp short hf.short
  simp only [recvLoop]
  rw [dec]
  simp only [back]

end Loop

open Reassembly

/-- The loop over what the buffer holds: every whole frame in it is handled, in order, and the
start of the next one stays buffered. -/
theorem recvLoop_frames {active : Bool} (fs : List WebsockMsg) (sendable : ∀ f ∈ fs, Sendable f)
    (m : Nat) {mb : Option Mbuf} (held : Waits mb ((fs.map (peerWire active)).flatten.take m))
    (fuel : Nat) (enough : wholeIn (fs.map (peerWire active)) m < fuel) (evs : List WebsockEvent) :
    ∃ mb', recvLoop fuel ⟨.OPEN, active, mb⟩ evs = some (⟨.OPEN, active, mb'⟩,
        evs ++ (fs.take (wholeIn (fs.map (peerWire active)) m)).flatMap (frameEvents active)) ∧
      Waits mb' (((fs.map (peerWire active)).drop (wholeIn (fs.map (peerWire active)) m)).flatten.take
        (pendingAfter (fs.map (peerWire active)) m)) := by
  obtain ⟨fuel, rfl⟩ : ∃ n, fuel = n + 1 := ⟨fuel - 1, by omega⟩
  induction fs generalizing m mb fuel evs with
  | nil =>
    simp only [List.map_nil, List.flatten_nil, List.take_nil] at held
    cases mb with
    | none => exact ⟨none, by simp [recvLoop], by simp [Waits]⟩
    | some cmb => exact absurd rfl held.1
  | cons f fs ih =>
    have hf := sendable f (by simp)
    have wire := length_peerWire active f
    simp only [List.map_cons, List.flatten_cons] at held enough ⊢
    by_cases fits : (peerWire active f).length ≤ m
    · -- the first frame is whole: one round handles it, the rest is the same loop
      rw [List.take_append, List.take_of_length_le fits] at held
      rw [wholeIn_cons_of_le fits] at enough ⊢
      rw [pendingAfter_cons_of_le fits, List.drop_succ_cons, List.take_succ_cons,
        List.flatMap_cons, ← List.append_assoc]
      cases mb with
      | none =>
        have nothing := congrArg List.length (show _ = [] from held)
        simp only [List.length_append, List.length_nil] at nothing
        omega
      | some cmb =>
        obtain ⟨fuel, rfl⟩ : ∃ n, fuel = n + 1 := ⟨fuel - 1, by omega⟩
        obtain ⟨mb', held', step⟩ := recvLoop_frame hf held.2 (fuel + 1) evs
        obtain ⟨mb'', run, pending⟩ := ih (fun g hg => sendable g (by simp [hg])) _ held'
          (evs ++ frameEvents active f) fuel (by omega)
        exact ⟨mb'', by rw [step, run], pending⟩
    · -- a proper start of the first frame waits for the next segment
      rw [List.take_append_of_le_length (by omega)] at held
      rw [wholeIn_cons_of_lt (by omega), pendingAfter_cons_of_lt (by omega)]
      refine ⟨mb, ?_, by simpa [List.take_append_of_le_length (show m ≤ (peerWire active f).length
        by omega)] using held⟩
      cases mb with
      | none => simp [recvLoop]
      | some cmb =>
        simpa using recvLoop_part hf held.2 (List.take_prefix m _) (by simp; omega) fuel evs

section Stream

theorem peerWire_ne_nil (active : Bool) (fs : List WebsockMsg) :
    ∀ w ∈ fs.map (peerWire active), w ≠ [] := by
  intro w hw
  obtain ⟨f, -, rfl⟩ := List.mem_map.mp hw
  exact List.ne_nil_of_length_pos (by have := length_peerWire active f; omega)

variable {active : Bool} (fs : List WebsockMsg)

theorem recvHandler_segment (sendable : ∀ f ∈ fs, Sendable f) (p : Nat) {mb : Option Mbuf}
    (held : Waits mb ((fs.map (peerWire active)).flatten.take p)) (seg : List UInt8) (nonempty : seg ≠ [])
    (next : seg = ((fs.map (peerWire active)).flatten.drop p).take seg.length)
    (within : p + seg.length ≤ (fs.map (peerWire active)).flatten.length)
    (room : 0 < p → p + seg.length ≤ BUFSIZE_MAX) :
    ∃ mb', recvHandler ⟨.OPEN, active, mb⟩ ⟨seg, 0, seg.length⟩ = some (⟨.OPEN, active, mb'⟩,
        (fs.take (wholeIn (fs.map (peerWire active)) (p + seg.length))).flatMap (frameEvents active)) ∧
      Waits mb' (((fs.map (peerWire active)).drop
        (wholeIn (fs.map (peerWire active)) (p + seg.length))).flatten.take
          (pendingAfter (fs.map (peerWire active)) (p + seg.length))) := by
  have joined : (fs.map (peerWire active)).flatten.take (p + seg.length) =
      (fs.map (peerWire active)).flatten.take p ++ seg := by
    rw [List.take_add, ← next]
  have enough := wholeIn_le _ (peerWire_ne_nil active fs) (p + seg.length)
  cases mb with
  | none =>
    have nothing : (fs.map (peerWire active)).flatten.take p = [] := held
    have start : p = 0 := by
      have len := congrArg List.length nothing
      rw [List.length_take, List.length_nil] at len
      omega
    have buffered : Waits (some ⟨seg, 0, seg.length⟩)
        ((fs.map (peerWire active)).flatten.take (p + seg.length)) := by
      rw [joined, nothing, List.nil_append]
      exact ⟨nonempty, frame_self seg⟩
    have run := recvLoop_frames fs sendable _ buffered (seg.length + 1) (by omega) []
    simpa [recvHandler, getLeft] using run
  | some cmb =>
    -- bytes wait, so the segment is checked against the limit and appended behind them
    have pending : cmb.getLeft = p := by
      rw [Frame.getLeft_eq held.2, List.length_take]
      omega
    have waiting : 0 < p := by
      have some := List.length_pos_iff.mpr held.1
      rw [List.length_take] at some
      omega
    have room := room waiting
    have appended : Waits (some (((cmb.setPos cmb.end_).writeMem seg).setPos cmb.pos))
        ((fs.map (peerWire active)).flatten.take (p + seg.length)) := by
      simp only [Waits, setPos_pos]
      rw [joined, frame_setPos]
      exact ⟨by simp [nonempty], Frame.writeMem_end ((frame_setPos _).mpr held.2) rfl seg⟩
    have left := Frame.getLeft_eq appended.2
    rw [List.length_take, Nat.min_eq_left within] at left
    have fits : ¬ cmb.getLeft + (Mbuf.mk seg 0 seg.length).getLeft > BUFSIZE_MAX := by
      rw [pending, show (Mbuf.mk seg 0 seg.length).getLeft = seg.length from Nat.sub_zero _]
      omega
    have whole : (Mbuf.mk seg 0 seg.length).left = seg := (frame_self seg).left rfl
    have run := recvLoop_frames fs sendable _ appended (p + seg.length + 1) (by omega) []
    simp only [recvHandler, fits, if_false, whole, left]
    simpa using run

/-- Every segment of the rest of the stream, one after the other: all the frames of the rest are
handled, in order, and nothing waits at the end. -/
theorem recvRun_segments (segs : List (List UInt8)) (nonempty : ∀ seg ∈ segs, seg ≠ []) :
    ∀ (fs : List WebsockMsg), (∀ f ∈ fs, Sendable f) → ∀ (p : Nat) {mb : Option Mbuf},
    Waits mb ((fs.map (peerWire active)).flatten.take p) →
    wholeIn (fs.map (peerWire active)) p = 0 → p ≤ (fs.map (peerWire active)).flatten.length →
    segs.flatten = (fs.map (peerWire active)).flatten.drop p →
    (∀ k (hk : k < segs.length), 0 < pendingAfter (fs.map (peerWire active)) (p + (segs.take k).flatten.length) →
      pendingAfter (fs.map (peerWire active)) (p + (segs.take k).flatten.length) + segs[k].length ≤
        BUFSIZE_MAX) →
    ∃ mb', recvRun ⟨.OPEN, active, mb⟩ segs =
      some (⟨.OPEN, active, mb'⟩, fs.flatMap (frameEvents active)) ∧ Waits mb' [] := by
  induction segs with
  | nil =>
    intro fs _ p mb held waiting _ cut _
    have none := eq_nil_of_wholeIn _ (peerWire_ne_nil active fs) p waiting
      (List.drop_eq_nil_iff.mp cut.symm)
    rw [List.map_eq_nil_iff] at none
    subst none
    exact ⟨mb, rfl, by simpa using held⟩
  | cons seg segs ih =>
    intro fs sendable p mb held waiting within cut room
    have lengths := congrArg List.length cut
    simp only [List.flatten_cons, List.length_append, List.length_drop] at lengths
    have next : seg = ((fs.map (peerWire active)).flatten.drop p).take seg.length := by
      rw [← cut, List.flatten_cons, List.take_left]
    have nothingDone : pendingAfter (fs.map (peerWire active)) p = p := by
      simp [pendingAfter, doneIn, waiting]
    have first := room 0 (by simp)
    simp only [List.take_zero, List.flatten_nil, List.length_nil, Nat.add_zero, nothingDone,
      List.getElem_cons_zero] at first
    obtain ⟨mb', handled, held'⟩ :=
      recvHandler_segment fs sendable p held seg (nonempty seg (by simp)) next (by omega) first
    -- the rest of the stream starts with the frames this segment did not complete
    have rest : (fs.drop (wholeIn (fs.map (peerWire active)) (p + seg.length))).map (peerWire active) =
        (fs.map (peerWire active)).drop (wholeIn (fs.map (peerWire active)) (p + seg.length)) :=
      List.map_drop ..
    obtain ⟨mb'', later, done⟩ := ih (fun s hs => nonempty s (by simp [hs])) _
      (fun f hf => sendable f (List.mem_of_mem_drop hf))
      (pendingAfter (fs.map (peerWire active)) (p + seg.length)) (by rwa [rest])
      (by rw [rest]; exact wholeIn_pending _ _)
      (by rw [rest]; exact pendingAfter_le _ _ (by omega))
      (by rw [rest, ← drop_flatten, ← List.drop_drop, ← cut, List.flatten_cons, List.drop_left])
      (fun j hj => by
        have step := room (j + 1) (by simp; omega)
        simp only [List.take_succ_cons, List.flatten_cons, List.length_append, ← Nat.add_assoc,
          pendingAfter_add _ (p + seg.length), List.getElem_cons_succ] at step
        rwa [rest])
    have whole : (fs.take (wholeIn (fs.map (peerWire active)) (p + seg.length))).flatMap (frameEvents active) ++
        (fs.drop (wholeIn (fs.map (peerWire active)) (p + seg.length))).flatMap (frameEvents active) =
        fs.flatMap (frameEvents active) := by
      rw [← List.flatMap_append, List.take_append_drop]
    refine ⟨mb'', ?_, done⟩
    simp [recvRun, handled, later, whole]

theorem delivered_frameEvents (sendable : ∀ f ∈ fs, Sendable f) :
    delivered (fs.flatMap (frameEvents active)) =
      (fs.filter isData).map fun f => (f.fin, f.opcode, f.payload) := by
  induction fs with
  | nil => rfl
  | cons f fs ih =>
    have low := (sendable f (by simp)).opcode_low
    have rest := ih (fun g hg => sendable g (by simp [hg]))
    rw [List.flatMap_cons, delivered_append, rest]
    by_cases data : isData f
    · simp [frameEvents, delivered, data, wireHdr, low]
    · by_cases ping : f.opcode = WEBSOCK_PING
      · simp [frameEvents, delivered, data, ping]
      · simp [frameEvents, delivered, data, ping]

end Stream

/-- Frames sent with `websock_vsend`'s layout, in any segments that keep the buffered bytes within
`BUFSIZE_MAX` whenever bytes wait, reach the application whole, in order and once each, with no
write past a buffer; the connection stays open and keeps no buffer. -/
theorem websock_stream_delivery (active : Bool) (fs : List WebsockMsg)
    (sendable : ∀ f ∈ fs, Sendable f) (segs : List (List UInt8)) (nonempty : ∀ seg ∈ segs, seg ≠ [])
    (cut : segs.flatten = (fs.map (peerWire active)).flatten)
    (room : ∀ k (hk : k < segs.length),
      0 < pendingAfter (fs.map (peerWire active)) (segs.take k).flatten.length →
      pendingAfter (fs.map (peerWire active)) (segs.take k).flatten.length + segs[k].length ≤ BUFSIZE_MAX) :
    ∃ conn evs, recvRun ⟨.OPEN, active, none⟩ segs = some (conn, evs) ∧ conn.state = .OPEN ∧
      conn.mb = none ∧ delivered evs = (fs.filter isData).map fun f => (f.fin, f.opcode, f.payload) := by
  have start := wholeIn_le _ (peerWire_ne_nil active fs) 0
  have nothing : Waits none ((fs.map (peerWire active)).flatten.take 0) := rfl
  obtain ⟨mb, run, empty⟩ := recvRun_segments segs nonempty fs sendable 0 nothing (by omega)
    (Nat.zero_le _) (by rw [cut, List.drop_zero]) (by simpa using room)
  exact ⟨_, _, run, rfl, Waits.eq_none empty, delivered_frameEvents fs sendable⟩

/-- A masked text frame from a client, cut inside its key. -/
theorem websock_stream_delivery_cut_key :
    ∃ conn evs, recvRun ⟨.OPEN, false, none⟩ [[0x81, 0x82, 1], [2, 3, 4, 0x69, 0x6b]] = some (conn, evs) ∧
      conn.state = .OPEN ∧ conn.mb = none ∧
      delivered evs = ([⟨true, WEBSOCK_TEXT, [0x68, 0x69], #v[1, 2, 3, 4]⟩].filter isData).map
        fun f => (f.fin, f.opcode, f.payload) :=
  websock_stream_delivery false [⟨true, WEBSOCK_TEXT, [0x68, 0x69], #v[1, 2, 3, 4]⟩]
    (by simp only [List.mem_singleton, forall_eq]; exact ⟨by decide, by decide⟩) _ (by decide)
    (by simp only [List.map_cons, List.map_nil, peerWire, websockFrame_wire, Option.getD_some]; decide)
    (by simp only [List.map_cons, List.map_nil, peerWire, websockFrame_wire, Option.getD_some]; decide)

end Libre.Websock
