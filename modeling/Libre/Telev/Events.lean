import Libre.Mbuf.Buffer

set_option autoImplicit false

/-!
# Telephony events

`telev/telev.c` (RFC 4733): `telev_send` queues a byte per key press and `EVENT_END` per release,
`telev_poll` runs `IDLE`, `SENDING` and `ENDING` over the queue, and `telev_recv` reports an event's
start and end. A release with no key pressed is sent as event 255 (`televPoll_stray_release`).
-/

namespace Libre.TelephonyEvents

open BigEndian Mbuf

def TXC_DIGIT_MIN : UInt32 := 9
def TXC_END : UInt32 := 3
def EVENT_END : UInt8 := 0xff
def PAYLOAD_SIZE : Nat := 4
def VOLUME : UInt8 := 10
def QUEUE_SIZE : Nat := 8192

inductive TelevState
  | IDLE | SENDING | ENDING
  deriving DecidableEq, Repr

structure TelevFmt where
  event : UInt8
  end_ : Bool
  vol : UInt8
  dur : UInt16
  deriving DecidableEq, Repr

/-- `struct telev`: the sender's queue and state, and the receiver's last event. -/
structure Telev where
  mb : Mbuf
  ptime : UInt32
  pdur : UInt16
  state : TelevState
  event : UInt8
  dur : UInt16
  txc : UInt32
  rx_event : Int
  rx_end : Bool
  deriving DecidableEq, Repr

def payloadEncode (mb : Mbuf) (event : UInt8) (end_ : Bool) (dur : UInt16) : Mbuf :=
  ((mb.writeU8 event).writeU8 ((if end_ then 0x80 else 0x00) ||| (VOLUME &&& 0x3f))).writeU16 dur

def payloadDecode (mb : Mbuf) : Except Errno (TelevFmt × Mbuf) :=
  if mb.getLeft < PAYLOAD_SIZE then .error .ENOENT
  else
    let (event, mb) := mb.readU8
    let (b, mb) := mb.readU8
    let (dur, mb) := mb.readU16
    .ok (⟨event, b &&& 0x80 = 0x80, b &&& 0x3f, dur⟩, mb)

/-- `telev_alloc`; `pdur` is `ptime * 8` cut to 16 bits. -/
def televAlloc (ptime : UInt32) : Except Errno Telev :=
  if ptime = 0 then .error .EINVAL
  else .ok ⟨alloc 16, ptime, (ptime * 8).toUInt16, .IDLE, 0, 0, 0, -1, false⟩

def televSetSrate (tel : Telev) (srate : UInt32) : Except Errno Telev :=
  if srate = 0 then .error .EINVAL
  else .ok { tel with pdur := (tel.ptime * srate / 1000).toUInt16 }

/-- `telev_send`: the byte goes behind the queue, whose read position stays where it was. -/
def televSend (tel : Telev) (event : UInt8) (end_ : Bool) : Except Errno Telev :=
  if tel.mb.end_ ≥ QUEUE_SIZE then .error .EOVERFLOW
  else
    let pos := tel.mb.pos
    .ok { tel with mb := ((tel.mb.setPos tel.mb.end_).writeU8
      (if end_ then EVENT_END else event)).setPos pos }

/-- `telev_recv`: the event and its end flag when reported; a repeat is `EALREADY`. -/
def televRecv (tel : Telev) (mb : Mbuf) : Except Errno ((UInt8 × Bool) × Telev) :=
  match payloadDecode mb with
  | .error err => .error err
  | .ok (fmt, _) =>
    if fmt.end_ then
      if tel.rx_end then .error .EALREADY
      else .ok ((fmt.event, true), { tel with rx_event := -1, rx_end := true })
    else if (fmt.event.toNat : Int) = tel.rx_event then .error .EALREADY
    else .ok ((fmt.event, false), { tel with rx_event := fmt.event.toNat, rx_end := false })

/-- `telev_poll` writing into the caller's `mb`: the marker on success, the new state, the
buffer. -/
def televPoll (tel : Telev) (mb : Mbuf) : Except Errno Bool × Telev × Mbuf :=
  match tel.state with
  | .IDLE =>
    if tel.mb.getLeft = 0 then (.error .ENOENT, tel, mb)
    else
      let (event, queue) := tel.mb.readU8
      let tel :=
        { tel with mb := queue, event := event, dur := tel.pdur, state := .SENDING, txc := 1 }
      (.ok true, tel, payloadEncode mb tel.event false tel.dur)
  | .SENDING =>
    let tel := { tel with dur := tel.dur + tel.pdur }
    let out := payloadEncode mb tel.event false tel.dur
    let tel := { tel with txc := tel.txc + 1 }
    if tel.txc < TXC_DIGIT_MIN then (.ok false, tel, out)
    else if tel.mb.getLeft = 0 then (.ok false, tel, out)
    else
      -- a queued press ends this event too, and is read again in `IDLE`
      let (next, queue) := tel.mb.readU8
      let queue := if next ≠ EVENT_END then queue.setPos (queue.pos - 1) else queue
      (.ok false, { tel with mb := queue, state := .ENDING, txc := 0 }, out)
  | .ENDING =>
    let out := payloadEncode mb tel.event true tel.dur
    let tel := { tel with txc := tel.txc + 1 }
    if tel.txc < TXC_END then (.ok false, tel, out)
    else
      let queue := if tel.mb.getLeft = 0 then (tel.mb.setPos 0).setEnd 0 else tel.mb
      (.ok false, { tel with mb := queue, state := .IDLE }, out)

/-! ## One call at a time -/

section Steps

variable {tel : Telev} {q : List UInt8}

def flagByte (end_ : Bool) : UInt8 := (if end_ then 0x80 else 0x00) ||| (VOLUME &&& 0x3f)

theorem televSend_queue (h : Frame tel.mb tel.mb.pos q) (room : tel.mb.end_ < QUEUE_SIZE)
    (event : UInt8) (end_ : Bool) :
    ∃ mb, televSend tel event end_ = .ok { tel with mb := mb } ∧
      Frame mb mb.pos (q ++ [if end_ then EVENT_END else event]) := by
  refine ⟨_, by rw [televSend, if_neg (by omega)], ?_⟩
  exact (frame_setPos _).mpr (Frame.writeMem_end ((frame_setPos _).mpr h) rfl _)

theorem payloadEncode_frame {mb : Mbuf} {a : Nat} {xs : List UInt8} (h : Frame mb a xs)
    (at_ : mb.pos = mb.end_) (event : UInt8) (end_ : Bool) (dur : UInt16) :
    Frame (payloadEncode mb event end_ dur) a (xs ++ [event, flagByte end_] ++ netBytes 2 dur.toNat) := by
  have first := Frame.writeMem_end h at_ [event]
  have second := Frame.writeMem_end first (by simp [h.ends, at_]) [flagByte end_]
  have third := Frame.writeMem_end second (by simp [at_]) (netBytes 2 dur.toNat)
  simpa [payloadEncode, flagByte, writeU8, writeU16] using third

theorem payloadDecode_frame {mb : Mbuf} {event b : UInt8} {dur : UInt16} {rest : List UInt8}
    (h : Frame mb mb.pos (event :: b :: (netBytes 2 dur.toNat ++ rest))) :
    payloadDecode mb = .ok (⟨event, b &&& 0x80 = 0x80, b &&& 0x3f, dur⟩, mb.advance 4) := by
  have enough : ¬ mb.getLeft < PAYLOAD_SIZE := by
    rw [Frame.getLeft_eq h, PAYLOAD_SIZE]
    simp
  have r0 := @Frame.readU8_at mb mb.pos [] _ event (by simpa using h) (by simp)
  have r1 := @Frame.readU8_at (mb.advance 1) mb.pos [event] _ b (by simpa using h) (by simp)
  have r2 := @Frame.readNet_at (mb.advance 2) mb.pos [event, b] (netBytes 2 dur.toNat) rest
    (by simpa using h) (by simp)
  rw [length_netBytes, netValue_netBytes, advance_advance] at r2
  have value : UInt16.ofNat (dur.toNat % 256 ^ 2) = dur := by
    rw [show 256 ^ 2 = 2 ^ 16 by norm_num, Nat.mod_eq_of_lt dur.toNat_lt, UInt16.ofNat_toNat]
  simp only [payloadDecode, enough, if_false, r0, r1, readU16, advance_advance, Nat.reduceAdd, r2,
    value]

/-- `IDLE` with a byte queued: whatever the byte is, it is sent as the start of an event, with the
marker. -/
theorem televPoll_idle (idle : tel.state = .IDLE) {b : UInt8} (h : Frame tel.mb tel.mb.pos (b :: q))
    (mb : Mbuf) :
    televPoll tel mb = (.ok true,
      { tel with mb := tel.mb.advance 1, event := b, dur := tel.pdur, state := .SENDING, txc := 1 },
      payloadEncode mb b false tel.pdur) := by
  have queued : tel.mb.getLeft ≠ 0 := by simp [Frame.getLeft_eq h]
  have read := @Frame.readU8_at tel.mb tel.mb.pos [] q b (by simpa using h) (by simp)
  simp only [televPoll, idle, queued, if_false, read]

theorem televRecv_start (rx : Telev) {mb : Mbuf} {event : UInt8} {dur : UInt16} {rest : List UInt8}
    (h : Frame mb mb.pos (event :: flagByte false :: (netBytes 2 dur.toNat ++ rest)))
    (other : rx.rx_event ≠ event.toNat) :
    televRecv rx mb = .ok ((event, false),
      { rx with rx_event := event.toNat, rx_end := false }) := by
  have flags : ¬ (flagByte false &&& 0x80 = 0x80) := by decide
  simp only [televRecv, payloadDecode_frame h, flags, decide_false, Bool.false_eq_true, if_false,
    if_neg (Ne.symm other)]

end Steps

/-! ## A release with no key pressed -/

/-- An idle sender with an empty queue is sent a release: the next poll sends the release byte
itself as the start of an event, with the marker, and a receiver that did not just see event 255
reports its start. -/
theorem televPoll_stray_release {tel : Telev} (idle : tel.state = .IDLE)
    (empty : Frame tel.mb tel.mb.pos []) (room : tel.mb.end_ < QUEUE_SIZE) (event : UInt8)
    (rx : Telev) (other : rx.rx_event ≠ 255) :
    ∃ queued polled out rx', televSend tel event true = .ok queued ∧
      televPoll queued (alloc 0) = (.ok true, polled, out) ∧
      televRecv rx (out.setPos 0) = .ok ((EVENT_END, false), rx') := by
  obtain ⟨mb, sent, held⟩ := televSend_queue empty room event true
  rw [if_pos rfl, List.nil_append] at held
  have polled := @televPoll_idle { tel with mb := mb } [] idle EVENT_END held (alloc 0)
  have payload := payloadEncode_frame (frame_alloc 0) rfl EVENT_END false tel.pdur
  have frame : Frame ((payloadEncode (alloc 0) EVENT_END false tel.pdur).setPos 0) 0
      (EVENT_END :: flagByte false :: (netBytes 2 tel.pdur.toNat ++ [])) := by
    simpa using payload
  have notLast : rx.rx_event ≠ (EVENT_END.toNat : Int) := other
  exact ⟨_, _, _, _, sent, polled, televRecv_start rx frame notLast⟩

/-- Both ends as `telev_alloc(20)` leaves them; the release of key 5, which was never pressed. -/
theorem televPoll_stray_release_alloc :
    ∃ queued polled out rx', televSend ⟨alloc 16, 20, 160, .IDLE, 0, 0, 0, -1, false⟩ 5 true =
        .ok queued ∧ televPoll queued (alloc 0) = (.ok true, polled, out) ∧
      televRecv ⟨alloc 16, 20, 160, .IDLE, 0, 0, 0, -1, false⟩ (out.setPos 0) =
        .ok ((EVENT_END, false), rx') :=
  televPoll_stray_release rfl ⟨⟨by decide, by decide⟩, rfl⟩ (by decide) 5
    ⟨alloc 16, 20, 160, .IDLE, 0, 0, 0, -1, false⟩ (by decide)

end Libre.TelephonyEvents
