import Libre.Rtmp.Session

set_option autoImplicit false

/-!
# The window of acknowledgement

`tcp_recv_handler` counts the bytes it receives and acknowledges the count once the bytes since
the last acknowledgement reach the window. The handlers leave both counts alone (`Keeps`), so the
unacknowledged bytes stay below the window for as long as the connection is up and the `size_t`
count does not wrap (`rtmp_ack_window`).
-/

namespace Libre.Rtmp

open BigEndian Mbuf Libre.Amf

-- The bytes received and not acknowledged are fewer than the window, which is not zero.
structure AckWindow (conn : RtmpConn) : Prop where
  window : conn.window_ack_size ≠ 0
  acked : conn.last_ack ≤ conn.total_bytes
  below : conn.total_bytes.toNat < conn.last_ack.toNat + conn.window_ack_size.toNat

-- The count acknowledged is the one before, or its acknowledgement went out among `evs`: an
-- `RTMP_TYPE_ACKNOWLEDGEMENT` control message of the count as an `uint32_t`, chunked at the
-- chunk size of its time.
def AckSent (before : UInt64) (conn : RtmpConn) (evs : List RtmpEvent) : Prop :=
  conn.last_ack = before ∨
    ∃ sz ack, rtmpChunker 0 RTMP_CHUNK_ID_CONTROL 0 0 RTMP_TYPE_ACKNOWLEDGEMENT RTMP_CONTROL_STREAM_ID
      (netBytes 4 conn.last_ack.toUInt32.toNat) sz = .ok ack ∧ .send ack ∈ evs

theorem rtmpConnAlloc_ackWindow (is_client : Bool) (app uri : List UInt8) :
    AckWindow (rtmpConnAlloc is_client app uri) :=
  ⟨show UInt32.ofNat WINDOW_ACK_SIZE ≠ 0 by decide, UInt64.le_refl _,
    show (0 : UInt64).toNat < (0 : UInt64).toNat + (UInt32.ofNat WINDOW_ACK_SIZE).toNat by decide⟩

theorem connClose_closed (conn : RtmpConn) (err : Errno) : (connClose conn err).1.closed = true := by
  unfold connClose
  split
  next closed => exact closed
  next => rfl

theorem unsignedOf_ofNat (n : Nat) : unsignedOf n = n % 2 ^ 32 := by
  unfold unsignedOf
  omega

theorem rtmpControl_ack (conn : RtmpConn) (n : Nat) :
    rtmpControl conn RTMP_TYPE_ACKNOWLEDGEMENT [.int n] =
      rtmpChunker 0 RTMP_CHUNK_ID_CONTROL 0 0 RTMP_TYPE_ACKNOWLEDGEMENT RTMP_CONTROL_STREAM_ID
        (netBytes 4 (n % 2 ^ 32)) conn.send_chunk_size.toNat := by
  have payload : controlPayload RTMP_TYPE_ACKNOWLEDGEMENT [.int n] = .ok (netBytes 4 (n % 2 ^ 32)) := by
    simp [controlPayload, vaInt, unsignedOf_ofNat]
  have nonempty : netBytes 4 (n % 2 ^ 32) ≠ [] := List.ne_nil_of_length_pos (by simp [length_netBytes])
  rw [rtmpControl, payload]
  exact if_neg nonempty

/-! ## The receive loop keeps the counts -/

theorem recvLoop_keeps (conn : RtmpConn) (rand : Rand) (mb : Mbuf) : Keeps conn (recvLoop conn rand mb).1 := by
  by_cases left : 0 < mb.getLeft
  · rcases handled : handlePacket conn rand mb with ⟨conn', evs, out⟩
    have kept : Keeps conn conn' := by simpa [handled] using handlePacket_keeps conn rand mb
    by_cases closed : conn'.closed = true
    · -- a handler closed the connection, and the call ends there
      rw [recvLoop_closed left (by rw [handled]; exact closed), handled]
      exact kept.trans ⟨rfl, rfl, id⟩
    have alive : conn'.closed = false := by simpa using closed
    rcases out with _ | mb'
    · -- a failed call rewinds and ends the loop
      rw [recvLoop_error left handled alive]
      exact kept.trans ⟨rfl, rfl, id⟩
    · by_cases more : mb'.pos < mb'.end_
      · -- the call took bytes, and the loop goes on with the rest
        have progress : mb'.getLeft < mb.getLeft := handlePacket_progress (by rw [handled])
        rw [recvLoop_more left handled alive more]
        exact kept.trans (recvLoop_keeps conn' rand mb')
      · rw [recvLoop_drained left handled alive (by omega)]
        exact kept.trans ⟨rfl, rfl, id⟩
  · rw [recvLoop_empty (by omega)]
    exact ⟨rfl, rfl, id⟩
termination_by mb.getLeft

/-! ## One segment -/

-- Everything `tcp_recv_handler` can do with a segment and leave the connection up: the loop
-- handles what the buffer completes, then the count is acknowledged or is still below the window.
theorem tcpRecvHandler_cases (conn : RtmpConn) (rand : Rand) (seg : Mbuf) :
    (tcpRecvHandler conn rand seg).1.closed = true ∨
      ∃ mb conn' evs, reassemble conn.mb seg = .ok mb ∧
        recvLoop { conn with total_bytes := conn.total_bytes + UInt64.ofNat seg.getLeft } rand mb =
          (conn', evs, none) ∧
        ((conn'.total_bytes < conn'.last_ack + conn'.window_ack_size.toUInt64 ∧
            tcpRecvHandler conn rand seg = (conn', evs)) ∨
          (conn'.last_ack + conn'.window_ack_size.toUInt64 ≤ conn'.total_bytes ∧
            ∃ ack, rtmpControl { conn' with last_ack := conn'.total_bytes } RTMP_TYPE_ACKNOWLEDGEMENT
                [.int conn'.total_bytes.toUInt32.toNat] = .ok ack ∧
              tcpRecvHandler conn rand seg = ({ conn' with last_ack := conn'.total_bytes }, evs ++ [.send ack]))) := by
  unfold tcpRecvHandler
  dsimp only
  split
  · exact .inl (connClose_closed ..)
  next mb buffered =>
    split
    · exact .inl (connClose_closed ..)
    next conn' evs looped =>
      split
      next closed => exact .inl closed
      split
      next full =>
        split
        · exact .inl (connClose_closed ..)
        next ack acked => exact .inr ⟨mb, conn', evs, buffered, looped, .inr ⟨full, ack, acked, rfl⟩⟩
      next below => exact .inr ⟨mb, conn', evs, buffered, looped, .inl ⟨UInt64.not_le.mp below, rfl⟩⟩

section Segment

variable {conn : RtmpConn} {rand : Rand} {seg : Mbuf}

-- One segment on a connection that stays up, with a count that does not wrap: its bytes are
-- counted and the window holds, with the acknowledgement sent when the count reached it.
theorem tcpRecvHandler_window (w : AckWindow conn) (alive : (tcpRecvHandler conn rand seg).1.closed = false)
    (unwrapped : conn.total_bytes.toNat + seg.getLeft < 2 ^ 64) :
    AckWindow (tcpRecvHandler conn rand seg).1 ∧
      (tcpRecvHandler conn rand seg).1.total_bytes.toNat = conn.total_bytes.toNat + seg.getLeft ∧
      AckSent conn.last_ack (tcpRecvHandler conn rand seg).1 (tcpRecvHandler conn rand seg).2 := by
  rcases tcpRecvHandler_cases conn rand seg with closed | ⟨mb, conn', evs, -, looped, step⟩
  · rw [closed] at alive
    cases alive
  have kept := recvLoop_keeps { conn with total_bytes := conn.total_bytes + UInt64.ofNat seg.getLeft } rand mb
  rw [looped] at kept
  have counted : conn'.total_bytes.toNat = conn.total_bytes.toNat + seg.getLeft := by
    rw [kept.total_bytes, UInt64.toNat_add, UInt64.toNat_ofNat']
    omega
  have since : conn'.last_ack = conn.last_ack := kept.last_ack
  have window : conn'.window_ack_size ≠ 0 := kept.window w.window
  rcases step with ⟨below, handled⟩ | ⟨full, ack, acked, handled⟩
  · -- below the window: nothing to acknowledge
    rw [handled]
    dsimp only
    have acked := UInt64.le_iff_toNat_le.mp w.acked
    rw [UInt64.lt_iff_toNat_lt, UInt64.toNat_add, UInt32.toNat_toUInt64] at below
    have wrapped := Nat.mod_le (conn'.last_ack.toNat + conn'.window_ack_size.toNat) (2 ^ 64)
    refine ⟨⟨window, ?_, by omega⟩, counted, .inl since⟩
    rw [UInt64.le_iff_toNat_le, since, counted]
    omega
  · -- the window is full: the count is acknowledged
    have positive : 0 < conn'.window_ack_size.toNat := by
      have := UInt32.toNat_inj.not.mpr window
      simp only [UInt32.toNat_zero] at this
      omega
    rw [rtmpControl_ack, Nat.mod_eq_of_lt (UInt32.toNat_lt _)] at acked
    rw [handled]
    exact ⟨⟨window, UInt64.le_refl _, by dsimp only; omega⟩, counted,
      .inr ⟨_, ack, acked, List.mem_append_right _ (List.mem_singleton_self _)⟩⟩

end Segment

/-! ## Whole runs -/

theorem recvRun_closed {conn : RtmpConn} (rand : Rand) (closed : conn.closed = true) (segs : List (List UInt8)) :
    recvRun conn rand segs = (conn, []) := by
  cases segs with
  | nil => rfl
  | cons seg segs => simp [recvRun, closed]

theorem AckSent.append {before : UInt64} {conn conn' : RtmpConn} {evs evs' : List RtmpEvent}
    (first : AckSent before conn evs) (second : AckSent conn.last_ack conn' evs') :
    AckSent before conn' (evs ++ evs') := by
  rcases second with same | ⟨sz, ack, chunked, mem⟩
  · rcases first with unmoved | ⟨sz, ack, chunked, mem⟩
    · exact .inl (same.trans unmoved)
    · rw [← same] at chunked
      exact .inr ⟨sz, ack, chunked, List.mem_append_left _ mem⟩
  · exact .inr ⟨sz, ack, chunked, List.mem_append_right _ mem⟩

-- From a connection whose unacknowledged bytes are below its window, every run that does not wrap
-- the count closes the connection or counts every byte, keeps the window and sent the last
-- acknowledgement.
theorem rtmp_ack_window (rand : Rand) {conn : RtmpConn} (w : AckWindow conn) (segs : List (List UInt8))
    (unwrapped : conn.total_bytes.toNat + (segs.map List.length).sum < 2 ^ 64) :
    (recvRun conn rand segs).1.closed = true ∨
      (AckWindow (recvRun conn rand segs).1 ∧
        (recvRun conn rand segs).1.total_bytes.toNat = conn.total_bytes.toNat + (segs.map List.length).sum ∧
        AckSent conn.last_ack (recvRun conn rand segs).1 (recvRun conn rand segs).2) := by
  induction segs generalizing conn with
  | nil => exact .inr ⟨w, by simp [recvRun], .inl rfl⟩
  | cons seg segs ih =>
    by_cases closed : conn.closed = true
    · rw [recvRun_closed rand closed]
      exact .inl closed
    have alive : conn.closed = false := by simpa using closed
    simp only [recvRun, alive, Bool.false_eq_true, if_false]
    by_cases up : (tcpRecvHandler conn rand ⟨seg, 0, seg.length⟩).1.closed = true
    · rw [recvRun_closed rand up]
      exact .inl up
    have lengths : ((seg :: segs).map List.length).sum = seg.length + (segs.map List.length).sum := by
      rw [List.map_cons, List.sum_cons]
    have segLeft : (Mbuf.mk seg 0 seg.length).getLeft = seg.length := Nat.sub_zero _
    obtain ⟨w', counted, sent⟩ := tcpRecvHandler_window w (by simpa using up) (by omega)
    rcases ih w' (by omega) with down | ⟨w'', counted', sent'⟩
    · exact .inl down
    refine .inr ⟨w'', ?_, ?_⟩
    · rw [counted', counted, lengths, segLeft]
      omega
    · exact sent.append sent'

-- A witness: a fresh server, fed C0 and the start of C1 in three segments.
theorem rtmp_ack_window_fresh :
    AckWindow (rtmpConnAlloc false [] []) ∧
      (rtmpConnAlloc false [] []).total_bytes.toNat + ([[3], [1, 1, 1], [1, 1]].map List.length).sum < 2 ^ 64 ∧
      ((recvRun (rtmpConnAlloc false [] []) sampleRand [[3], [1, 1, 1], [1, 1]]).1.closed =
          true ∨
        (AckWindow (recvRun (rtmpConnAlloc false [] []) sampleRand
            [[3], [1, 1, 1], [1, 1]]).1 ∧
          (recvRun (rtmpConnAlloc false [] []) sampleRand
              [[3], [1, 1, 1], [1, 1]]).1.total_bytes.toNat =
            (rtmpConnAlloc false [] []).total_bytes.toNat +
              ([[3], [1, 1, 1], [1, 1]].map List.length).sum ∧
          AckSent (rtmpConnAlloc false [] []).last_ack
            (recvRun (rtmpConnAlloc false [] []) sampleRand [[3], [1, 1, 1], [1, 1]]).1
            (recvRun (rtmpConnAlloc false [] []) sampleRand [[3], [1, 1, 1], [1, 1]]).2)) :=
  ⟨rtmpConnAlloc_ackWindow false [] [], by decide,
    rtmp_ack_window sampleRand (rtmpConnAlloc_ackWindow false [] []) _ (by decide)⟩

end Libre.Rtmp
