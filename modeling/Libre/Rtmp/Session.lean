import Libre.Rtmp.Conn
import Libre.Websock.Receive
import Libre.Lib.Reassembly

set_option autoImplicit false

/-!
# The receive path of a connection, however TCP cuts the stream

A party that expects the messages `ws` goes through stages: `At j conn` says that `conn` has
handled the first `j` of them, and `emits j` is what handling the `j`-th gives. The receive path
then handles the messages in order however the stream is cut (`recvRun_stream`).
-/

namespace Libre.Rtmp

open Mbuf Reassembly Libre.Amf

-- What the handler does with the expected stream; the byte count and the reassembly buffer are
-- `tcp_recv_handler`'s.
structure Expects (rand : Rand) (ws : List (List UInt8)) (At : Nat → RtmpConn → Prop)
    (emits : Nat → List RtmpEvent) : Prop where
  whole : ∀ j (hj : j < ws.length) (conn : RtmpConn) (mb : Mbuf) (zs : List UInt8), At j conn →
    Frame mb mb.pos (ws[j] ++ zs) →
    ∃ conn', handlePacket conn rand mb = (conn', emits j, .ok (mb.advance ws[j].length)) ∧
      At (j + 1) conn'
  part : ∀ j (hj : j < ws.length) (conn : RtmpConn) (mb : Mbuf), At j conn →
    mb.getLeft < ws[j].length → Frame mb mb.pos (ws[j].take mb.getLeft) →
    ∃ conn', handlePacket conn rand mb = (conn', [], .error .ENODATA) ∧ At j conn'
  rebuffer : ∀ j (conn : RtmpConn) (m : Option Mbuf), At j conn → At j { conn with mb := m }
  recount : ∀ j (conn : RtmpConn) (t : UInt64), At j conn → At j { conn with total_bytes := t }
  nonempty : ∀ w ∈ ws, w ≠ []

section Expecting

variable {rand : Rand} {ws : List (List UInt8)} {At : Nat → RtmpConn → Prop}
  {emits : Nat → List RtmpEvent}

theorem Expects.nonempty_drop (ex : Expects rand ws At emits) (k : Nat) :
    ∀ w ∈ ws.drop k, w ≠ [] :=
  fun w hw => ex.nonempty w (List.mem_of_mem_drop hw)

-- The loop on a buffer that holds the next `n` bytes of the stream, from the `k`-th message on:
-- it handles the messages they complete and leaves the start of the next one waiting.
theorem recvLoop_expects (ex : Expects rand ws At emits) (open_ : ∀ j conn, At j conn → conn.closed = false)
    (k : Nat) (conn : RtmpConn)
    (at_ : At k conn) (n : Nat) (mb : Mbuf) (within : n ≤ (ws.drop k).flatten.length)
    (h : Frame mb mb.pos ((ws.drop k).flatten.take n)) :
    ∃ conn', recvLoop conn rand mb =
        (conn', (List.range' k (wholeIn (ws.drop k) n)).flatMap emits, none) ∧
      At (k + wholeIn (ws.drop k) n) conn' ∧ conn'.total_bytes = conn.total_bytes ∧
      Websock.Holds conn'.mb
        ((ws.drop (k + wholeIn (ws.drop k) n)).flatten.take (pendingAfter (ws.drop k) n)) := by
  have left : mb.getLeft = n := by
    rw [h.getLeft_eq, List.length_take]
    omega
  by_cases empty : n = 0
  · -- nothing to read: the buffer stays
    subst empty
    have nothing : wholeIn (ws.drop k) 0 = 0 := by
      have := wholeIn_le _ (ex.nonempty_drop k) 0
      omega
    refine ⟨{ conn with mb := some mb }, ?_, ?_, rfl, ?_⟩
    · rw [recvLoop_empty left, nothing]
      rfl
    · rw [nothing]
      exact ex.rebuffer k conn _ at_
    · simpa [Websock.Holds, pendingAfter, doneIn, nothing] using h
  have inside : k < ws.length := by
    by_contra past
    rw [List.drop_of_length_le (by omega)] at within
    simp at within
    omega
  have front : ws.drop k = ws[k] :: ws.drop (k + 1) := List.drop_eq_getElem_cons inside
  rw [front] at h within ⊢
  by_cases short : n < ws[k].length
  · -- a part of the next message waits
    have part : Frame mb mb.pos (ws[k].take mb.getLeft) := by
      rwa [left, ← List.take_append_of_le_length (by omega), ← List.flatten_cons]
    obtain ⟨conn', waits, stays⟩ := ex.part k inside conn mb at_ (by omega) part
    have counted : conn'.total_bytes = conn.total_bytes := by
      rw [← handlePacket_total_bytes conn rand mb, waits]
    refine ⟨{ conn' with mb := some mb }, ?_, ?_, counted, ?_⟩
    · rw [recvLoop_error (by omega) waits (open_ _ _ stays), wholeIn_cons_of_lt short]
      simp
    · rw [wholeIn_cons_of_lt short, Nat.add_zero]
      exact ex.rebuffer k conn' _ stays
    · rw [wholeIn_cons_of_lt short, pendingAfter_cons_of_lt short, Nat.add_zero, front]
      exact h
  · -- the next message is whole: it is handled, then the loop goes on with the rest
    have fits : ws[k].length ≤ n := by omega
    have restLen : n - ws[k].length ≤ (ws.drop (k + 1)).flatten.length := by
      simp only [List.flatten_cons, List.length_append] at within
      omega
    rw [List.flatten_cons, List.take_append, List.take_of_length_le fits] at h
    obtain ⟨conn', handled, moves⟩ := ex.whole k inside conn mb _ at_ h
    have counted : conn'.total_bytes = conn.total_bytes := by
      rw [← handlePacket_total_bytes conn rand mb, handled]
    have rest := Frame.skip h
    have ends := h.ends
    simp only [List.length_append, List.length_take] at ends
    rw [wholeIn_cons_of_le fits, pendingAfter_cons_of_le fits]
    by_cases drained : n = ws[k].length
    · -- the buffer is read to its end and dropped
      have nothing : wholeIn (ws.drop (k + 1)) (n - ws[k].length) = 0 := by
        have := wholeIn_le _ (ex.nonempty_drop (k + 1)) (n - ws[k].length)
        omega
      have read : (mb.advance ws[k].length).end_ ≤ (mb.advance ws[k].length).pos := by
        simp only [advance_end, advance_pos]
        omega
      refine ⟨{ conn' with mb := none }, ?_, ?_, counted, ?_⟩
      · rw [recvLoop_drained (by omega) handled (open_ _ _ moves) read, nothing]
        simp
      · rw [nothing, Nat.zero_add]
        exact ex.rebuffer (k + 1) conn' none moves
      · simp [Websock.Holds, pendingAfter, doneIn, drained]
    · obtain ⟨conn'', loop, later, counted', holds⟩ := recvLoop_expects ex open_ (k + 1) conn' moves
        (n - ws[k].length) (mb.advance ws[k].length) restLen rest
      have more : (mb.advance ws[k].length).pos < (mb.advance ws[k].length).end_ := by
        simp only [advance_end, advance_pos]
        omega
      refine ⟨conn'', ?_, ?_, counted'.trans counted, ?_⟩
      · rw [recvLoop_more (by omega) handled (open_ _ _ moves) more, loop]
        simp [List.range'_succ]
      · rwa [Nat.add_assoc, Nat.add_comm 1] at later
      · rwa [Nat.add_assoc, Nat.add_comm 1] at holds
termination_by ws.length - k

-- One segment of the stream: appended to what waits, it completes the messages it completes.
theorem tcpRecvHandler_expects (ex : Expects rand ws At emits)
    (room : ws.flatten.length ≤ RTMP_MESSAGE_LEN_MAX)
    (quiet : ∀ j conn, At j conn → ws.flatten.length < (conn.last_ack + conn.window_ack_size.toUInt64).toNat)
    (open_ : ∀ j conn, At j conn → conn.closed = false)
    (p : Nat) {conn : RtmpConn} (at_ : At (wholeIn ws p) conn) (counted : conn.total_bytes = UInt64.ofNat p)
    (held : Websock.Holds conn.mb ((ws.drop (wholeIn ws p)).flatten.take (pendingAfter ws p)))
    (seg : List UInt8) (next : seg = (ws.flatten.drop p).take seg.length)
    (within : p + seg.length ≤ ws.flatten.length) :
    ∃ conn', tcpRecvHandler conn rand ⟨seg, 0, seg.length⟩ =
        (conn', (List.range' (wholeIn ws p) (wholeIn ws (p + seg.length) - wholeIn ws p)).flatMap emits) ∧
      At (wholeIn ws (p + seg.length)) conn' ∧ conn'.total_bytes = UInt64.ofNat (p + seg.length) ∧
      Websock.Holds conn'.mb
        ((ws.drop (wholeIn ws (p + seg.length))).flatten.take (pendingAfter ws (p + seg.length))) := by
  have rest := drop_flatten ws p
  have joined : (ws.drop (wholeIn ws p)).flatten.take (pendingAfter ws p + seg.length) =
      (ws.drop (wholeIn ws p)).flatten.take (pendingAfter ws p) ++ seg := by
    rw [List.take_add, ← rest, ← next]
  have lengths := congrArg List.length rest
  simp only [List.length_drop] at lengths
  have pending := pendingAfter_le ws p (by omega)
  have fits : pendingAfter ws p + seg.length ≤ (ws.drop (wholeIn ws p)).flatten.length := by omega
  have buffered : ∃ mb, reassemble conn.mb ⟨seg, 0, seg.length⟩ = .ok mb ∧
      Frame mb mb.pos ((ws.drop (wholeIn ws p)).flatten.take (pendingAfter ws p + seg.length)) := by
    have whole : (Mbuf.mk seg 0 seg.length).left = seg := (frame_self seg).left rfl
    cases waiting : conn.mb with
    | none =>
      rw [waiting] at held
      have nothing : (ws.drop (wholeIn ws p)).flatten.take (pendingAfter ws p) = [] := held
      refine ⟨⟨seg, 0, seg.length⟩, rfl, ?_⟩
      rw [joined, nothing, List.nil_append]
      exact frame_self seg
    | some cmb =>
      rw [waiting] at held
      have pendingLeft : cmb.getLeft = pendingAfter ws p := by
        rw [Frame.getLeft_eq held, List.length_take]
        omega
      have small : ¬ cmb.getLeft + (Mbuf.mk seg 0 seg.length).getLeft > RTMP_MESSAGE_LEN_MAX := by
        have waited : pendingAfter ws p ≤ p := Nat.sub_le _ _
        rw [pendingLeft, show (Mbuf.mk seg 0 seg.length).getLeft = seg.length from Nat.sub_zero _]
        omega
      refine ⟨_, by rw [reassemble, if_neg small], ?_⟩
      rw [setPos_pos, frame_setPos, joined, whole]
      exact Frame.writeMem_end ((frame_setPos _).mpr held) rfl seg
  obtain ⟨mb, buffer, framed⟩ := buffered
  obtain ⟨conn', loop, later, counted', holds⟩ := recvLoop_expects ex open_ (wholeIn ws p)
    { conn with total_bytes := UInt64.ofNat (p + seg.length) } (ex.recount _ _ _ at_) _ mb fits framed
  dsimp only at counted'
  have count : wholeIn ws (p + seg.length) =
      wholeIn ws p + wholeIn (ws.drop (wholeIn ws p)) (pendingAfter ws p + seg.length) :=
    wholeIn_add ws p seg.length
  have waits : pendingAfter ws (p + seg.length) =
      pendingAfter (ws.drop (wholeIn ws p)) (pendingAfter ws p + seg.length) :=
    pendingAfter_add ws p seg.length
  rw [← count] at later holds
  have unacked : ¬ conn'.total_bytes ≥ conn'.last_ack + conn'.window_ack_size.toUInt64 := by
    have := quiet _ conn' later
    rw [counted', ge_iff_le, UInt64.le_iff_toNat_le, UInt64.toNat_ofNat']
    omega
  have segLeft : (Mbuf.mk seg 0 seg.length).getLeft = seg.length := Nat.sub_zero _
  refine ⟨conn', ?_, later, counted', by rwa [waits]⟩
  unfold tcpRecvHandler
  dsimp only
  rw [buffer]
  dsimp only
  rw [counted, segLeft, ← UInt64.ofNat_add, loop]
  dsimp only
  rw [if_neg (by simp [open_ _ _ later]), if_neg unacked, count, Nat.add_sub_cancel_left]

-- Segments that cut the rest of the stream anywhere: every message is handled in order, and
-- nothing is left waiting.
theorem recvRun_expects (ex : Expects rand ws At emits)
    (room : ws.flatten.length ≤ RTMP_MESSAGE_LEN_MAX)
    (quiet : ∀ j conn, At j conn → ws.flatten.length < (conn.last_ack + conn.window_ack_size.toUInt64).toNat)
    (open_ : ∀ j conn, At j conn → conn.closed = false) (segs : List (List UInt8)) :
    ∀ (p : Nat) (conn : RtmpConn), At (wholeIn ws p) conn → conn.total_bytes = UInt64.ofNat p →
    Websock.Holds conn.mb ((ws.drop (wholeIn ws p)).flatten.take (pendingAfter ws p)) →
    p ≤ ws.flatten.length → segs.flatten = ws.flatten.drop p →
    ∃ conn', recvRun conn rand segs =
        (conn', (List.range' (wholeIn ws p) (ws.length - wholeIn ws p)).flatMap emits) ∧
      At ws.length conn' ∧ conn'.total_bytes = UInt64.ofNat ws.flatten.length ∧ Websock.Holds conn'.mb [] := by
  induction segs with
  | nil =>
    intro p conn at_ counted held within cut
    have ended : p = ws.flatten.length := by
      have lengths := congrArg List.length cut
      simp only [List.flatten_nil, List.length_nil, List.length_drop] at lengths
      omega
    subst ended
    rw [wholeIn_flatten, pendingAfter_flatten] at held
    rw [wholeIn_flatten] at at_ ⊢
    refine ⟨conn, ?_, at_, counted, by simpa using held⟩
    simp [recvRun]
  | cons seg segs ih =>
    intro p conn at_ counted held within cut
    have lengths := congrArg List.length cut
    simp only [List.flatten_cons, List.length_append, List.length_drop] at lengths
    have next : seg = (ws.flatten.drop p).take seg.length := by
      rw [← cut, List.flatten_cons, List.take_left]
    obtain ⟨conn', handled, later, counted', held'⟩ :=
      tcpRecvHandler_expects ex room quiet open_ p at_ counted held seg next (by omega)
    obtain ⟨conn'', run, last, counted'', done⟩ := ih (p + seg.length) conn' later counted' held'
      (by omega) (by rw [← List.drop_drop, ← cut, List.flatten_cons, List.drop_left])
    have first := wholeIn_mono ws (Nat.le_add_right p seg.length)
    have upTo : wholeIn ws (p + seg.length) ≤ ws.length := by
      rw [← wholeIn_flatten ws]
      exact wholeIn_mono ws (by omega)
    have ranges : List.range' (wholeIn ws p) (wholeIn ws (p + seg.length) - wholeIn ws p) ++
        List.range' (wholeIn ws (p + seg.length)) (ws.length - wholeIn ws (p + seg.length)) =
        List.range' (wholeIn ws p) (ws.length - wholeIn ws p) := by
      obtain ⟨d, more⟩ := Nat.exists_eq_add_of_le first
      rw [more, Nat.add_sub_cancel_left, List.range'_append_1]
      congr 1
      omega
    refine ⟨conn'', ?_, last, counted'', done⟩
    rw [recvRun, if_neg (by simp [open_ _ conn at_]), handled]
    dsimp only
    rw [run, ← List.flatMap_append, ranges]

-- The whole stream from a connection with nothing received: each message's events in turn.
theorem recvRun_stream (ex : Expects rand ws At emits)
    (room : ws.flatten.length ≤ RTMP_MESSAGE_LEN_MAX)
    (quiet : ∀ j conn, At j conn → ws.flatten.length < (conn.last_ack + conn.window_ack_size.toUInt64).toNat)
    (open_ : ∀ j conn, At j conn → conn.closed = false) {conn : RtmpConn} (at_ : At 0 conn)
    (fresh : conn.total_bytes = 0) (empty : conn.mb = none) (segs : List (List UInt8))
    (cut : segs.flatten = ws.flatten) :
    ∃ conn', recvRun conn rand segs = (conn', (List.range ws.length).flatMap emits) ∧
      At ws.length conn' ∧ conn'.total_bytes = UInt64.ofNat ws.flatten.length ∧ Websock.Holds conn'.mb [] := by
  have nothing : wholeIn ws 0 = 0 := by
    have := wholeIn_le ws ex.nonempty 0
    omega
  have run := recvRun_expects ex room quiet open_ segs 0 conn (by rwa [nothing]) fresh
    (by simp [empty, Websock.Holds, pendingAfter, doneIn, nothing]) (Nat.zero_le _)
    (by rw [cut, List.drop_zero])
  rwa [nothing, Nat.sub_zero, ← List.range_eq_range'] at run

end Expecting

/-! ## Stages that are one connection each -/

-- A stage that is one connection but for the receive path's byte count and buffer.
def Stage (phase : Nat → RtmpConn) (j : Nat) (conn : RtmpConn) : Prop :=
  ∃ t m, conn = { phase j with total_bytes := t, mb := m }

theorem Stage.rebuffer {phase : Nat → RtmpConn} {j : Nat} {conn : RtmpConn} (m : Option Mbuf)
    (h : Stage phase j conn) : Stage phase j { conn with mb := m } := by
  obtain ⟨t, _, rfl⟩ := h
  exact ⟨t, m, rfl⟩

theorem Stage.recount {phase : Nat → RtmpConn} {j : Nat} {conn : RtmpConn} (t : UInt64)
    (h : Stage phase j conn) : Stage phase j { conn with total_bytes := t } := by
  obtain ⟨_, m, rfl⟩ := h
  exact ⟨t, m, rfl⟩

/-! ## The server's side of the handshake -/

-- `rtmp_control(conn, RTMP_TYPE_SET_CHUNK_SIZE, 4096)`: one chunk on the control chunk stream, a
-- header for a message of four bytes, then the size in network order.
def setChunkSizeMsg : List UInt8 := [2, 0, 0, 0, 0, 0, 4, 1, 0, 0, 0, 0, 0, 0, 16, 0]

theorem rtmpControl_setChunkSize {conn : RtmpConn} (sized : conn.send_chunk_size = 4096) :
    rtmpControl conn RTMP_TYPE_SET_CHUNK_SIZE [.int (4096 : UInt32).toNat] = .ok setChunkSizeMsg := by
  have payload : controlPayload RTMP_TYPE_SET_CHUNK_SIZE [.int (4096 : UInt32).toNat] =
      .ok [0, 0, 16, 0] := by
    decide
  rw [rtmpControl, payload]
  dsimp only
  rw [rtmpConnSendMsg, if_neg (by decide), sized, rtmpChunker_single (by decide) (by decide)]
  decide

theorem handlePacket_server {conn : RtmpConn} (rand : Rand) (mb : Mbuf) (server : conn.is_client = false) :
    handlePacket conn rand mb = serverHandlePacket conn rand mb := by
  simp [handlePacket, server]

section ServerSteps

variable {conn : RtmpConn} {rand : Rand} {mb : Mbuf} {zs : List UInt8}

theorem serverHandlePacket_c0 (st : conn.state = .UNINITIALIZED)
    (h : Frame mb mb.pos (RTMP_PROTOCOL_VERSION :: zs)) :
    serverHandlePacket conn rand mb =
      ((handshakeStart conn rand).1, (handshakeStart conn rand).2, .ok (mb.advance 1)) := by
  have left := @Frame.getLeft_front mb [RTMP_PROTOCOL_VERSION] zs h
  have enough : ¬ mb.getLeft < 1 := by
    rw [left, List.length_singleton]
    omega
  simp [serverHandlePacket, st, enough, h.readU8_front]

theorem serverHandlePacket_c1 {c1 : List UInt8} (st : conn.state = .VERSION_SENT)
    (sized : c1.length = RTMP_HANDSHAKE_SIZE) (h : Frame mb mb.pos (c1 ++ zs)) :
    serverHandlePacket conn rand mb =
      ({ conn with state := .ACK_SENT }, [.send c1], .ok (mb.advance RTMP_HANDSHAKE_SIZE)) := by
  have left := h.getLeft_front
  have read := h.readMem_front
  rw [sized] at read
  have enough : ¬ mb.getLeft < RTMP_HANDSHAKE_SIZE := by omega
  simp [serverHandlePacket, st, enough, read]

theorem serverHandlePacket_c2 (st : conn.state = .ACK_SENT) (enough : RTMP_HANDSHAKE_SIZE ≤ mb.getLeft) :
    serverHandlePacket conn rand mb =
      ({ conn with send_chunk_size := 4096, state := .HANDSHAKE_DONE }, [.send setChunkSizeMsg],
        .ok (mb.advance RTMP_HANDSHAKE_SIZE)) := by
  simp only [serverHandlePacket, st, if_neg (Nat.not_lt.mpr enough)]
  rw [rtmpControl_setChunkSize rfl]

theorem serverHandlePacket_short (st : conn.state ≠ .HANDSHAKE_DONE)
    (short : mb.getLeft < if conn.state = .UNINITIALIZED then 1 else RTMP_HANDSHAKE_SIZE) :
    serverHandlePacket conn rand mb = (conn, [], .error .ENODATA) := by
  unfold serverHandlePacket
  split <;> simp_all

end ServerSteps

def handshakeState : Nat → RtmpHandshakeState
  | 0 => .UNINITIALIZED
  | 1 => .VERSION_SENT
  | 2 => .ACK_SENT
  | _ => .HANDSHAKE_DONE

-- The server as `rtmp_accept` allocates it, after the first `j` messages of the handshake.
def serverPhase (j : Nat) : RtmpConn :=
  { rtmpConnAlloc false [] [] with
    state := handshakeState j,
    send_chunk_size := if j < 3 then UInt32.ofNat RTMP_DEFAULT_CHUNKSIZE else 4096 }

def serverEmits (rand : Rand) (c1 : List UInt8) : Nat → List RtmpEvent
  | 0 => [.send ([RTMP_PROTOCOL_VERSION, 0, 0, 0, 0, VER_MAJOR, VER_MINOR, VER_PATCH, 0] ++ rand.1)]
  | 1 => [.send c1]
  | 2 => [.send setChunkSizeMsg]
  | _ => []

theorem serverExpects (rand : Rand) {c1 c2 : List UInt8} (sized1 : c1.length = RTMP_HANDSHAKE_SIZE)
    (sized2 : c2.length = RTMP_HANDSHAKE_SIZE) :
    Expects rand [[RTMP_PROTOCOL_VERSION], c1, c2] (Stage serverPhase) (serverEmits rand c1) where
  whole j hj conn mb zs at_ h := by
    obtain ⟨t, m, rfl⟩ := at_
    rw [handlePacket_server rand mb rfl]
    match j, hj with
    | 0, _ => exact ⟨_, serverHandlePacket_c0 (by rfl) h, t, m, rfl⟩
    | 1, _ =>
      simp only [List.getElem_cons_succ, List.getElem_cons_zero] at h ⊢
      rw [sized1]
      exact ⟨_, serverHandlePacket_c1 (by rfl) sized1 h, t, m, rfl⟩
    | 2, _ =>
      simp only [List.getElem_cons_succ, List.getElem_cons_zero] at h ⊢
      have enough := h.getLeft_front
      rw [sized2]
      exact ⟨_, serverHandlePacket_c2 (by rfl) (by omega), t, m, rfl⟩
  part j hj conn mb at_ short _ := by
    obtain ⟨t, m, rfl⟩ := at_
    rw [handlePacket_server rand mb rfl]
    refine ⟨_, serverHandlePacket_short ?_ ?_, t, m, rfl⟩
    · match j, hj with
      | 0, _ | 1, _ | 2, _ => nofun
    · match j, hj with
      | 0, _ => exact short
      | 1, _ => exact sized1 ▸ short
      | 2, _ => exact sized2 ▸ short
  rebuffer _ _ m at_ := at_.rebuffer m
  recount _ _ t at_ := at_.recount t
  nonempty := by
    have long1 : c1 ≠ [] := List.ne_nil_of_length_pos (by simp [sized1, RTMP_HANDSHAKE_SIZE])
    have long2 : c2 ≠ [] := List.ne_nil_of_length_pos (by simp [sized2, RTMP_HANDSHAKE_SIZE])
    simp [long1, long2]

-- The server's handshake, however TCP cuts C0, C1 and C2.
theorem rtmp_server_handshake (rand : Rand) (c1 c2 : List UInt8)
    (sized1 : c1.length = RTMP_HANDSHAKE_SIZE) (sized2 : c2.length = RTMP_HANDSHAKE_SIZE)
    (segs : List (List UInt8)) (cut : segs.flatten = RTMP_PROTOCOL_VERSION :: c1 ++ c2) :
    ∃ m, recvRun (rtmpConnAlloc false [] []) rand segs =
        ({ rtmpConnAlloc false [] [] with
            state := .HANDSHAKE_DONE, send_chunk_size := 4096,
            total_bytes := UInt64.ofNat (1 + 2 * RTMP_HANDSHAKE_SIZE), mb := m },
          [.send ([RTMP_PROTOCOL_VERSION, 0, 0, 0, 0, VER_MAJOR, VER_MINOR, VER_PATCH, 0] ++ rand.1),
            .send c1, .send setChunkSizeMsg]) ∧
      Websock.Holds m [] := by
  have total : [[RTMP_PROTOCOL_VERSION], c1, c2].flatten.length = 1 + 2 * RTMP_HANDSHAKE_SIZE := by
    simp only [List.flatten_cons, List.flatten_nil, List.length_append, List.length_singleton,
      List.length_nil, sized1, sized2]
    omega
  have quiet : ∀ j conn, Stage serverPhase j conn →
      [[RTMP_PROTOCOL_VERSION], c1, c2].flatten.length < (conn.last_ack + conn.window_ack_size.toUInt64).toNat := by
    rintro j _ ⟨t, m, rfl⟩
    rw [total]
    show 1 + 2 * RTMP_HANDSHAKE_SIZE < (0 + (UInt32.ofNat WINDOW_ACK_SIZE).toUInt64).toNat
    decide
  obtain ⟨conn, run, ⟨t, m, rfl⟩, counted, held⟩ :=
    recvRun_stream (serverExpects rand sized1 sized2)
      (by rw [total]; decide) quiet (fun _ _ ⟨_, _, same⟩ => by rw [same]; rfl)
      (⟨0, none, rfl⟩ : Stage serverPhase 0 (rtmpConnAlloc false [] [])) rfl rfl segs (by rw [cut]; simp)
  rw [total] at counted
  refine ⟨m, ?_, held⟩
  rw [run, ← counted]
  rfl

-- The random bytes of a handshake, all zero.
def sampleRand : Rand := ⟨List.replicate (RTMP_HANDSHAKE_SIZE - 8) 0, List.length_replicate⟩

-- A witness: C0 and the first 700 bytes of C1 in one segment, the rest in another.
theorem rtmp_server_handshake_split :
    ∃ m, recvRun (rtmpConnAlloc false [] []) sampleRand
        [RTMP_PROTOCOL_VERSION :: List.replicate 700 1, List.replicate 836 5 ++ List.replicate 1536 2] =
        ({ rtmpConnAlloc false [] [] with
            state := .HANDSHAKE_DONE, send_chunk_size := 4096,
            total_bytes := UInt64.ofNat (1 + 2 * RTMP_HANDSHAKE_SIZE), mb := m },
          [.send ([RTMP_PROTOCOL_VERSION, 0, 0, 0, 0, VER_MAJOR, VER_MINOR, VER_PATCH, 0] ++ sampleRand.1),
            .send (List.replicate 700 1 ++ List.replicate 836 5), .send setChunkSizeMsg]) ∧
      Websock.Holds m [] :=
  rtmp_server_handshake sampleRand (List.replicate 700 1 ++ List.replicate 836 5) (List.replicate 1536 2)
    (by rw [List.length_append, List.length_replicate, List.length_replicate]; rfl)
    (by rw [List.length_replicate]; rfl) _
    (by simp only [List.flatten_cons, List.flatten_nil, List.append_nil, List.cons_append, List.append_assoc])

/-! ## The client's side of the handshake -/

-- The object of `send_connect`, as AMF values.
def connectObject (app uri : List UInt8) : AmfValue :=
  .object [(cstr "app", .string app), (cstr "flashVer", .string (cstr "FMLE/3.0")),
    (cstr "tcUrl", .string uri), (cstr "fpad", .boolean false),
    (cstr "capabilities", .number (doubleOfNat 15)), (cstr "audioCodecs", .number (doubleOfNat 0x0400)),
    (cstr "videoCodecs", .number (doubleOfNat 0x0080)), (cstr "videoFunction", .number (doubleOfNat 1))]

-- The command `send_connect` sends: its name, the transaction id and the object.
def connectCommand (app uri : List UInt8) (tid : Nat) : List AmfValue :=
  [.string (cstr "connect"), .number (doubleOfNat tid), connectObject app uri]

theorem connectArgs_eq (conn : RtmpConn) : connectArgs conn = elemsArgs [connectObject conn.app conn.uri] ++ [] :=
  rfl

theorem connectObject_wf {app uri : List UInt8} (named : (AmfValue.string app).Wf = true)
    (target : (AmfValue.string uri).Wf = true) : elemsWf [connectObject app uri] = true := by
  simp only [AmfValue.Wf, Bool.and_eq_true, decide_eq_true_eq] at named target
  simp [elemsWf, connectObject, AmfValue.Wf, propsWf, named, target]
  decide

-- `send_connect`: the next transaction id, the command chunked on the connection's chunk stream,
-- and the transaction kept for the answer.
theorem sendConnect_ok {conn : RtmpConn} {bytes : List UInt8}
    (named : (AmfValue.string conn.app).Wf = true) (target : (AmfValue.string conn.uri).Wf = true)
    (chunked : rtmpChunker 0 RTMP_CHUNK_ID_CONN 0 0 RTMP_TYPE_AMF0 RTMP_CONTROL_STREAM_ID
      (elemsBytes (connectCommand conn.app conn.uri (conn.tid_counter + 1))) conn.send_chunk_size.toNat =
        .ok bytes) :
    sendConnect conn =
      ({ conn with
          tid_counter := conn.tid_counter + 1,
          ctransl := conn.ctransl ++ [⟨conn.tid_counter + 1, .connect⟩] }, [.send bytes], none) := by
  obtain ⟨_, body⟩ := rtmpAmfVencodeObject_root [connectObject conn.app conn.uri] [] (by simp)
    (connectObject_wf named target)
  have header : rtmpCommandHeaderEncode (cstr "connect") (conn.tid_counter + 1) =
      .ok (valueBytes (.string (cstr "connect")) ++ valueBytes (.number (doubleOfNat (conn.tid_counter + 1)))) := by
    rw [rtmpCommandHeaderEncode, rtmpAmfEncodeString_valueBytes (by decide)]
    rfl
  have whole : valueBytes (.string (cstr "connect")) ++ valueBytes (.number (doubleOfNat (conn.tid_counter + 1))) ++
      elemsBytes [connectObject conn.app conn.uri] = elemsBytes (connectCommand conn.app conn.uri (conn.tid_counter + 1)) := by
    simp [connectCommand, elemsBytes]
  have nonempty : elemsBytes (connectCommand conn.app conn.uri (conn.tid_counter + 1)) ≠ [] := by
    simp [connectCommand, elemsBytes, valueBytes]
  rw [sendConnect, rtmpAmfRequest, connectArgs_eq]
  dsimp only
  rw [header]
  dsimp only
  rw [List.length_singleton] at body
  rw [if_neg (by decide), body]
  dsimp only
  rw [whole, rtmpSendAmfCommand, if_neg nonempty, chunked]

theorem handlePacket_client {conn : RtmpConn} (rand : Rand) (mb : Mbuf) (client : conn.is_client = true) :
    handlePacket conn rand mb = clientHandlePacket conn mb := by
  simp [handlePacket, client]

section ClientSteps

variable {conn : RtmpConn} {mb : Mbuf} {zs : List UInt8}

theorem clientHandlePacket_s0s1 {s1 : List UInt8} (st : conn.state = .VERSION_SENT)
    (sized : s1.length = RTMP_HANDSHAKE_SIZE) (h : Frame mb mb.pos (RTMP_PROTOCOL_VERSION :: s1 ++ zs)) :
    clientHandlePacket conn mb =
      ({ conn with state := .ACK_SENT }, [.send s1], .ok (mb.advance (1 + RTMP_HANDSHAKE_SIZE))) := by
  rw [List.cons_append] at h
  obtain ⟨version, rest⟩ := h.readU8_cons
  have read := rest.readMem_front
  rw [sized, advance_advance] at read
  have left := h.getLeft_eq
  simp only [List.length_cons, List.length_append, sized] at left
  have enough : ¬ mb.getLeft < 1 + RTMP_HANDSHAKE_SIZE := by omega
  simp [clientHandlePacket, st, enough, version, read]

theorem clientHandlePacket_s2 {conn' : RtmpConn} {evs : List RtmpEvent} (st : conn.state = .ACK_SENT)
    (enough : RTMP_HANDSHAKE_SIZE ≤ mb.getLeft)
    (connects : sendConnect { conn with send_chunk_size := 4096 } = (conn', evs, none)) :
    clientHandlePacket conn mb =
      ({ conn' with state := .HANDSHAKE_DONE }, .send setChunkSizeMsg :: evs,
        .ok (mb.advance RTMP_HANDSHAKE_SIZE)) := by
  unfold clientHandlePacket
  split
  next other => rw [st] at other; cases other
  next =>
    rw [if_neg (Nat.not_lt.mpr enough)]
    dsimp only
    rw [rtmpControl_setChunkSize rfl]
    dsimp only
    rw [connects]
  next other => rw [st] at other; cases other
  next other => rw [st] at other; cases other

theorem clientHandlePacket_short (st : conn.state = .VERSION_SENT ∨ conn.state = .ACK_SENT)
    (short : mb.getLeft < if conn.state = .VERSION_SENT then 1 + RTMP_HANDSHAKE_SIZE else RTMP_HANDSHAKE_SIZE) :
    clientHandlePacket conn mb = (conn, [], .error .ENODATA) := by
  unfold clientHandlePacket
  rcases st with st | st <;> simp_all

end ClientSteps

-- The client as `rtmp_connect` allocates it for `app` and `uri`, after it sent C0 and C1 and
-- handled the first `j` messages of the server's handshake.
def clientPhase (app uri : List UInt8) (j : Nat) : RtmpConn :=
  { rtmpConnAlloc true app uri with
    state := handshakeState (j + 1),
    send_chunk_size := if j < 2 then UInt32.ofNat RTMP_DEFAULT_CHUNKSIZE else 4096,
    tid_counter := if j < 2 then 0 else 1,
    ctransl := if j < 2 then [] else [⟨1, .connect⟩] }

def clientEmits (s1 connect : List UInt8) : Nat → List RtmpEvent
  | 0 => [.send s1]
  | 1 => [.send setChunkSizeMsg, .send connect]
  | _ => []

theorem clientExpects (rand : Rand) {app uri s1 s2 connect : List UInt8}
    (named : (AmfValue.string app).Wf = true) (target : (AmfValue.string uri).Wf = true)
    (sized1 : s1.length = RTMP_HANDSHAKE_SIZE) (sized2 : s2.length = RTMP_HANDSHAKE_SIZE)
    (chunked : rtmpChunker 0 RTMP_CHUNK_ID_CONN 0 0 RTMP_TYPE_AMF0 RTMP_CONTROL_STREAM_ID
      (elemsBytes (connectCommand app uri 1)) 4096 = .ok connect) :
    Expects rand [RTMP_PROTOCOL_VERSION :: s1, s2] (Stage (clientPhase app uri)) (clientEmits s1 connect) where
  whole j hj conn mb zs at_ h := by
    obtain ⟨t, m, rfl⟩ := at_
    rw [handlePacket_client rand mb rfl]
    match j, hj with
    | 0, _ =>
      simp only [List.getElem_cons_zero, List.length_cons] at h ⊢
      rw [sized1, Nat.add_comm]
      exact ⟨_, clientHandlePacket_s0s1 (by rfl) sized1 h, t, m, rfl⟩
    | 1, _ =>
      simp only [List.getElem_cons_succ, List.getElem_cons_zero] at h ⊢
      have enough := h.getLeft_front
      rw [sized2]
      exact ⟨_, clientHandlePacket_s2 (by rfl) (by omega) (sendConnect_ok named target chunked), t, m, rfl⟩
  part j hj conn mb at_ short _ := by
    obtain ⟨t, m, rfl⟩ := at_
    rw [handlePacket_client rand mb rfl]
    refine ⟨_, clientHandlePacket_short ?_ ?_, t, m, rfl⟩
    · match j, hj with
      | 0, _ => exact .inl rfl
      | 1, _ => exact .inr rfl
    · match j, hj with
      | 0, _ =>
        simp only [List.getElem_cons_zero, List.length_cons, sized1] at short
        show mb.getLeft < 1 + RTMP_HANDSHAKE_SIZE
        omega
      | 1, _ => exact sized2 ▸ short
  rebuffer _ _ m at_ := at_.rebuffer m
  recount _ _ t at_ := at_.recount t
  nonempty := by
    have long2 : s2 ≠ [] := List.ne_nil_of_length_pos (by simp [sized2, RTMP_HANDSHAKE_SIZE])
    simp [long2]

-- The client's handshake, however TCP cuts S0, S1 and S2: the connect request goes out with
-- transaction id 1, kept waiting for its answer.
theorem rtmp_client_handshake (rand : Rand) (app uri s1 s2 : List UInt8)
    (named : (AmfValue.string app).Wf = true) (target : (AmfValue.string uri).Wf = true)
    (sized1 : s1.length = RTMP_HANDSHAKE_SIZE) (sized2 : s2.length = RTMP_HANDSHAKE_SIZE)
    (segs : List (List UInt8)) (cut : segs.flatten = RTMP_PROTOCOL_VERSION :: s1 ++ s2) :
    ∃ connect m, rtmpChunker 0 RTMP_CHUNK_ID_CONN 0 0 RTMP_TYPE_AMF0 RTMP_CONTROL_STREAM_ID
        (elemsBytes (connectCommand app uri 1)) 4096 = .ok connect ∧
      recvRun (tcpEstabHandler (rtmpConnAlloc true app uri) rand).1 rand segs =
        ({ rtmpConnAlloc true app uri with
            state := .HANDSHAKE_DONE, send_chunk_size := 4096, tid_counter := 1, ctransl := [⟨1, .connect⟩],
            total_bytes := UInt64.ofNat (1 + 2 * RTMP_HANDSHAKE_SIZE), mb := m },
          [.send s1, .send setChunkSizeMsg, .send connect]) ∧
      Websock.Holds m [] := by
  obtain ⟨connect, chunked⟩ := @rtmpChunker_ok 0 RTMP_CHUNK_ID_CONN 0 0 RTMP_TYPE_AMF0
    RTMP_CONTROL_STREAM_ID (elemsBytes (connectCommand app uri 1)) 4096
    (by simp [connectCommand, elemsBytes, valueBytes]) (by decide)
  have total : [RTMP_PROTOCOL_VERSION :: s1, s2].flatten.length = 1 + 2 * RTMP_HANDSHAKE_SIZE := by
    simp only [List.flatten_cons, List.flatten_nil, List.length_append, List.length_cons,
      List.length_nil, sized1, sized2]
    omega
  have quiet : ∀ j conn, Stage (clientPhase app uri) j conn →
      [RTMP_PROTOCOL_VERSION :: s1, s2].flatten.length < (conn.last_ack + conn.window_ack_size.toUInt64).toNat := by
    rintro j _ ⟨t, m, rfl⟩
    rw [total]
    show 1 + 2 * RTMP_HANDSHAKE_SIZE < (0 + (UInt32.ofNat WINDOW_ACK_SIZE).toUInt64).toNat
    decide
  obtain ⟨conn, run, ⟨t, m, rfl⟩, counted, held⟩ :=
    recvRun_stream (clientExpects rand named target sized1 sized2 chunked)
      (by rw [total]; decide) quiet (fun _ _ ⟨_, _, same⟩ => by rw [same]; rfl)
      (⟨0, none, rfl⟩ : Stage (clientPhase app uri) 0 (tcpEstabHandler (rtmpConnAlloc true app uri) rand).1)
      rfl rfl segs (by rw [cut]; simp)
  rw [total] at counted
  refine ⟨connect, m, chunked, ?_, held⟩
  rw [run, ← counted]
  rfl

-- A witness: S0 and S1 in one segment, S2 cut in two.
theorem rtmp_client_handshake_split :
    ∃ connect m, rtmpChunker 0 RTMP_CHUNK_ID_CONN 0 0 RTMP_TYPE_AMF0 RTMP_CONTROL_STREAM_ID
        (elemsBytes (connectCommand (cstr "live") (cstr "rtmp://a/live/s") 1)) 4096 = .ok connect ∧
      recvRun (tcpEstabHandler (rtmpConnAlloc true (cstr "live") (cstr "rtmp://a/live/s")) sampleRand).1
          sampleRand
          [RTMP_PROTOCOL_VERSION :: List.replicate 1536 7, List.replicate 1000 9, List.replicate 536 9] =
        ({ rtmpConnAlloc true (cstr "live") (cstr "rtmp://a/live/s") with
            state := .HANDSHAKE_DONE, send_chunk_size := 4096, tid_counter := 1, ctransl := [⟨1, .connect⟩],
            total_bytes := UInt64.ofNat (1 + 2 * RTMP_HANDSHAKE_SIZE), mb := m },
          [.send (List.replicate 1536 7), .send setChunkSizeMsg, .send connect]) ∧
      Websock.Holds m [] :=
  rtmp_client_handshake sampleRand (cstr "live") (cstr "rtmp://a/live/s") (List.replicate 1536 7)
    (List.replicate 1000 9 ++ List.replicate 536 9) (by decide) (by decide)
    (by rw [List.length_replicate]; rfl)
    (by rw [List.length_append, List.length_replicate, List.length_replicate]; rfl) _
    (by simp only [List.flatten_cons, List.flatten_nil, List.append_nil, List.cons_append])

end Libre.Rtmp
