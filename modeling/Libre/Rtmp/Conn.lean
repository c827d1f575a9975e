import Libre.Rtmp.Receive
import Libre.Rtmp.Amf

set_option autoImplicit false

/-!
# RTMP connections

`rtmp/conn.c`: the handshake of both ends, the receive path of `tcp_recv_handler` and
`rtmp_dechunk_handler`. What a connection hands to the layers around it is a list of events; the
bytes `rand_bytes` gives the handshake are a parameter (`Rand`). The connection has no streams, and
only `connect_resp_handler` among the handlers closes it.
-/

namespace Libre.Rtmp

open BigEndian Mbuf Libre.Odict Libre.Amf

def RTMP_PROTOCOL_VERSION : UInt8 := 3
def RTMP_DEFAULT_CHUNKSIZE : Nat := 128
def RTMP_HANDSHAKE_SIZE : Nat := 1536
def RTMP_MESSAGE_LEN_MAX : Nat := 524288
def RTMP_CHUNK_ID_CONTROL : UInt32 := 2
def RTMP_CHUNK_ID_CONN : UInt32 := 3
def RTMP_CONTROL_STREAM_ID : UInt32 := 0
def WINDOW_ACK_SIZE : Nat := 2500000

-- `VER_MAJOR`, `VER_MINOR` and `VER_PATCH` of the build: `project(re VERSION 3.9.0)`
def VER_MAJOR : UInt8 := 3
def VER_MINOR : UInt8 := 9
def VER_PATCH : UInt8 := 0

def RTMP_TYPE_SET_CHUNK_SIZE : UInt8 := 1
def RTMP_TYPE_ACKNOWLEDGEMENT : UInt8 := 3
def RTMP_TYPE_USER_CONTROL_MSG : UInt8 := 4
def RTMP_TYPE_WINDOW_ACK_SIZE : UInt8 := 5
def RTMP_TYPE_SET_PEER_BANDWIDTH : UInt8 := 6
def RTMP_TYPE_DATA : UInt8 := 18
def RTMP_TYPE_AMF0 : UInt8 := 20

def RTMP_EVENT_PING_REQUEST : UInt16 := 6
def RTMP_EVENT_PING_RESPONSE : UInt16 := 7

inductive RtmpHandshakeState
  | UNINITIALIZED | VERSION_SENT | ACK_SENT | HANDSHAKE_DONE
  deriving DecidableEq, Repr

inductive RtmpEvent
  | send (bytes : List UInt8)
  | command (msg : Dict)
  | response (success : Bool) (msg : Dict)
  | estab
  | close (err : Errno)

-- The handler of a transaction: `connect_resp_handler`, or one of the application's.
inductive RespH
  | connect
  | app
  deriving DecidableEq, Repr

-- `struct rtmp_ctrans`
structure Ctrans where
  tid : Nat
  resph : RespH
  deriving DecidableEq, Repr

-- `struct rtmp_conn` without the streams, the TLS and DNS state and the handlers; `closed` records
-- that `conn_close` ran (`tc` is gone and `closeh` was called), `estabh` that the handler is
-- still set. The byte counts are `size_t`s of 64 bits.
structure RtmpConn where
  dechunk : RtmpDechunker
  mb : Option Mbuf
  state : RtmpHandshakeState
  total_bytes : UInt64
  last_ack : UInt64
  window_ack_size : UInt32
  send_chunk_size : UInt32
  is_client : Bool
  closed : Bool
  connected : Bool
  estabh : Bool
  tid_counter : Nat
  ctransl : List Ctrans
  app : List UInt8
  uri : List UInt8

-- The 1528 bytes of C1 or S1 that `rand_bytes` fills.
abbrev Rand := {r : List UInt8 // r.length = RTMP_HANDSHAKE_SIZE - 8}

-- A `const char *` literal of the source, by its bytes.
def cstr (s : String) : List UInt8 := s.toList.map fun c => UInt8.ofNat c.toNat

-- `(double)n` for a natural a double holds exactly (below 2^53): the exponent of the top bit,
-- then the bits below it.
def doubleOfNat (n : Nat) : UInt64 :=
  if n = 0 then 0
  else UInt64.ofNat ((1023 + n.log2) <<< 52 ||| (n - 2 ^ n.log2) <<< (52 - n.log2))

-- `str_casecmp(s1, s2) == 0` in the C locale: a missing string is equal to none.
def strCaseEq (s1 : Option String) (s2 : String) : Bool :=
  match s1 with
  | none => false
  | some s1 => s1.toList.map Char.toLower == s2.toList.map Char.toLower

-- `odict_string(o, key)`
def odictString (o : Dict) (key : String) : Option String :=
  match odictLookup o key with
  | some (_, .string s) => some s
  | _ => none

-- `rtmp_conn_alloc`: a connection before its TCP connection is up. `rtmp_connect` passes the
-- application's `estabh`, taken to be set, and `rtmp_accept` none.
def rtmpConnAlloc (is_client : Bool) (app uri : List UInt8) : RtmpConn :=
  { dechunk := ⟨[], RTMP_DEFAULT_CHUNKSIZE⟩, mb := none, state := .UNINITIALIZED,
    total_bytes := 0, last_ack := 0, window_ack_size := UInt32.ofNat WINDOW_ACK_SIZE,
    send_chunk_size := UInt32.ofNat RTMP_DEFAULT_CHUNKSIZE, is_client := is_client,
    closed := false, connected := false, estabh := is_client, tid_counter := 0, ctransl := [],
    app := app, uri := uri }

def connClose (conn : RtmpConn) (err : Errno) : RtmpConn × List RtmpEvent :=
  if conn.closed then (conn, []) else ({ conn with closed := true }, [.close err])

-- `handshake_start`: C0 and C1, or S0 and S1: the version, four zero bytes, the build's version
-- and a zero, then the random bytes.
def handshakeStart (conn : RtmpConn) (rand : Rand) : RtmpConn × List RtmpEvent :=
  ({ conn with state := .VERSION_SENT },
    [.send ([RTMP_PROTOCOL_VERSION, 0, 0, 0, 0, VER_MAJOR, VER_MINOR, VER_PATCH, 0] ++ rand.1)])

def tcpEstabHandler (conn : RtmpConn) (rand : Rand) : RtmpConn × List RtmpEvent :=
  if conn.is_client then handshakeStart conn rand else (conn, [])

/-! ## Sending messages -/

def rtmpConnSendMsg (conn : RtmpConn) (format : Nat) (chunk_id timestamp timestamp_delta : UInt32)
    (msg_type_id : UInt8) (msg_stream_id : UInt32) (payload : List UInt8) :
    Except Errno (List UInt8) :=
  if payload = [] then .error .EINVAL
  else rtmpChunker format chunk_id timestamp timestamp_delta msg_type_id msg_stream_id payload
    conn.send_chunk_size.toNat

-- The payload of `rtmp_control(conn, type, ...)` from its `va_list`.
def controlPayload (type : UInt8) (ap : List Arg) : Except Errno (List UInt8) :=
  if type = RTMP_TYPE_SET_CHUNK_SIZE ∨ type = RTMP_TYPE_WINDOW_ACK_SIZE ∨
      type = RTMP_TYPE_ACKNOWLEDGEMENT then
    match vaInt ap with
    | .ok (u32, _) => .ok (netBytes 4 (unsignedOf u32))
    | .error e => .error e
  else if type = RTMP_TYPE_USER_CONTROL_MSG then
    match vaInt ap with
    | .ok (event, ⟨ap, _⟩) =>
      match vaInt ap with
      | .ok (value, _) => .ok (netBytes 2 (unsignedOf event) ++ netBytes 4 (unsignedOf value))
      | .error e => .error e
    | .error e => .error e
  else if type = RTMP_TYPE_SET_PEER_BANDWIDTH then
    match vaInt ap with
    | .ok (u32, ⟨ap, _⟩) =>
      match vaInt ap with
      | .ok (limit, _) => .ok (netBytes 4 (unsignedOf u32) ++ [UInt8.ofNat (unsignedOf limit)])
      | .error e => .error e
    | .error e => .error e
  else .error .ENOTSUP

def rtmpControl (conn : RtmpConn) (type : UInt8) (ap : List Arg) : Except Errno (List UInt8) :=
  match controlPayload type ap with
  | .error e => .error e
  | .ok payload =>
    rtmpConnSendMsg conn 0 RTMP_CHUNK_ID_CONTROL 0 0 type RTMP_CONTROL_STREAM_ID payload

def rtmpCommandHeaderEncode (name : List UInt8) (tid : Nat) : Except Errno (List UInt8) :=
  match rtmpAmfEncodeString (some name) with
  | .error e => .error e
  | .ok bytes => .ok (bytes ++ rtmpAmfEncodeNumber (doubleOfNat tid))

def rtmpSendAmfCommand (conn : RtmpConn) (format : Nat) (chunk_id : UInt32) (type_id : UInt8)
    (msg_stream_id : UInt32) (cmd : List UInt8) : Except Errno (List UInt8) :=
  if cmd = [] then .error .EINVAL
  else rtmpChunker format chunk_id 0 0 type_id msg_stream_id cmd conn.send_chunk_size.toNat

-- `rtmp_amf_request`: the command with the next transaction id, which stays counted when the
-- request fails, and the transaction kept for the response.
def rtmpAmfRequest (conn : RtmpConn) (stream_id : UInt32) (command : List UInt8) (resph : RespH)
    (body_propc : Nat) (ap : List Arg) : RtmpConn × List RtmpEvent × Option Errno :=
  let conn := { conn with tid_counter := conn.tid_counter + 1 }
  let cmd : Except Errno (List UInt8) :=
    match rtmpCommandHeaderEncode command conn.tid_counter with
    | .error e => .error e
    | .ok header =>
      if body_propc = 0 then .ok header
      else
        match rtmpAmfVencodeObject RTMP_AMF_TYPE_ROOT body_propc ap with
        | .error e => .error e
        | .ok (body, _) => .ok (header ++ body)
  match cmd with
  | .error e => (conn, [], some e)
  | .ok cmd =>
    match rtmpSendAmfCommand conn 0 RTMP_CHUNK_ID_CONN RTMP_TYPE_AMF0 stream_id cmd with
    | .error e => (conn, [], some e)
    | .ok bytes => ({ conn with ctransl := conn.ctransl ++ [⟨conn.tid_counter, resph⟩] }, [.send bytes], none)

-- The `va_list` of `send_connect`: one object of eight properties.
def connectArgs (conn : RtmpConn) : List Arg :=
  [.int RTMP_AMF_TYPE_OBJECT, .int 8,
    .int RTMP_AMF_TYPE_STRING, .str (some (cstr "app")), .str (some conn.app),
    .int RTMP_AMF_TYPE_STRING, .str (some (cstr "flashVer")), .str (some (cstr "FMLE/3.0")),
    .int RTMP_AMF_TYPE_STRING, .str (some (cstr "tcUrl")), .str (some conn.uri),
    .int RTMP_AMF_TYPE_BOOLEAN, .str (some (cstr "fpad")), .int 0,
    .int RTMP_AMF_TYPE_NUMBER, .str (some (cstr "capabilities")), .double (doubleOfNat 15),
    .int RTMP_AMF_TYPE_NUMBER, .str (some (cstr "audioCodecs")), .double (doubleOfNat 0x0400),
    .int RTMP_AMF_TYPE_NUMBER, .str (some (cstr "videoCodecs")), .double (doubleOfNat 0x0080),
    .int RTMP_AMF_TYPE_NUMBER, .str (some (cstr "videoFunction")), .double (doubleOfNat 1)]

def sendConnect (conn : RtmpConn) : RtmpConn × List RtmpEvent × Option Errno :=
  rtmpAmfRequest conn RTMP_CONTROL_STREAM_ID (cstr "connect") .connect 1 (connectArgs conn)

-- `connect_resp_handler`: an `_error` closes the connection; a `_result` marks it connected and
-- calls `estabh` once.
def connectRespHandler (conn : RtmpConn) (success : Bool) : RtmpConn × List RtmpEvent :=
  if !success then connClose conn .EPROTO
  else if conn.estabh then ({ conn with connected := true, estabh := false }, [.estab])
  else ({ conn with connected := true }, [])

-- `odict_get_number(o, &num, key)`: an integer, or a double cast to `uint64_t` (where C's cast is
-- undefined, Lean's saturates).
def odictGetNumber (o : Dict) (key : String) : Option UInt64 :=
  match odictLookup o key with
  | some (_, .double d) => some d.toUInt64
  | some (_, .int i) => some i.toUInt64
  | _ => none

-- `rtmp_ctrans_response(&conn->ctransl, msg)`: the transaction the answer names leaves the list
-- (its destructor unlinks it) and its handler is called.
def rtmpCtransResponse (conn : RtmpConn) (msg : Dict) : RtmpConn × List RtmpEvent × Option Errno :=
  let success := strCaseEq (odictString msg "0") "_result"
  match odictGetNumber msg "1" with
  | none => (conn, [], some .EPROTO)
  | some tid =>
    match conn.ctransl.find? (·.tid == tid.toNat) with
    | none => (conn, [], some .ENOENT)
    | some ct =>
      let conn := { conn with ctransl := conn.ctransl.eraseP (·.tid == tid.toNat) }
      match ct.resph with
      | .connect => ((connectRespHandler conn success).1, (connectRespHandler conn success).2, none)
      | .app => (conn, [.response success msg], none)

/-! ## Whole messages -/

def handleAmfCommand (conn : RtmpConn) (stream_id : UInt32) (mb : Mbuf) :
    RtmpConn × List RtmpEvent × Option Errno :=
  match rtmpAmfDecode mb with
  | .error e => (conn, [], some e)
  | .ok msg =>
    if conn.is_client ∧
        (strCaseEq (odictString msg "0") "_result" ∨ strCaseEq (odictString msg "0") "_error") then
      -- the transaction layer's error is dropped
      ((rtmpCtransResponse conn msg).1, (rtmpCtransResponse conn msg).2.1, none)
    else if stream_id = 0 then (conn, [.command msg], none)
    else (conn, [], none)

-- Of the events, only the ping is answered: the stream events find no stream.
def handleUserControlMsg (conn : RtmpConn) (mb : Mbuf) : RtmpConn × List RtmpEvent × Option Errno :=
  if mb.getLeft < 6 then (conn, [], some .EBADMSG)
  else if mb.readU16.1 = RTMP_EVENT_PING_REQUEST then
    match rtmpControl conn RTMP_TYPE_USER_CONTROL_MSG
        [.int RTMP_EVENT_PING_RESPONSE.toNat, .int mb.readU16.2.readU32.1.toNat] with
    | .error e => (conn, [], some e)
    | .ok bytes => (conn, [.send bytes], none)
  else (conn, [], none)

def handleDataMessage (conn : RtmpConn) (mb : Mbuf) : RtmpConn × List RtmpEvent × Option Errno :=
  match rtmpAmfDecode mb with
  | .error e => (conn, [], some e)
  | .ok _ => (conn, [], none)

-- Audio and video find no stream and fall through with the types the switch does not know.
def rtmpDechunkHandler (conn : RtmpConn) (hdr : RtmpHeader) (mb : Mbuf) :
    RtmpConn × List RtmpEvent × Option Errno :=
  if hdr.type_id = RTMP_TYPE_SET_CHUNK_SIZE then
    if mb.getLeft < 4 then (conn, [], some .EBADMSG)
    else
      -- `rtmp_dechunker_set_chunksize` ignores a size of zero
      (if mb.readU32.1 &&& 0x7fffffff = 0 then conn
        else { conn with dechunk := { conn.dechunk with chunk_sz := (mb.readU32.1 &&& 0x7fffffff).toNat } },
        [], none)
  else if hdr.type_id = RTMP_TYPE_ACKNOWLEDGEMENT then
    if mb.getLeft < 4 then (conn, [], some .EBADMSG) else (conn, [], none)
  else if hdr.type_id = RTMP_TYPE_AMF0 then handleAmfCommand conn hdr.stream_id mb
  else if hdr.type_id = RTMP_TYPE_WINDOW_ACK_SIZE then
    if mb.getLeft < 4 then (conn, [], some .EBADMSG)
    else (if mb.readU32.1 ≠ 0 then { conn with window_ack_size := mb.readU32.1 } else conn, [], none)
  else if hdr.type_id = RTMP_TYPE_SET_PEER_BANDWIDTH then
    if mb.getLeft < 5 then (conn, [], some .EBADMSG)
    else
      let conn := if mb.readU32.1 ≠ 0 then { conn with window_ack_size := mb.readU32.1 } else conn
      match rtmpControl conn RTMP_TYPE_WINDOW_ACK_SIZE [.int WINDOW_ACK_SIZE] with
      | .error e => (conn, [], some e)
      | .ok bytes => (conn, [.send bytes], none)
  else if hdr.type_id = RTMP_TYPE_USER_CONTROL_MSG then handleUserControlMsg conn mb
  else if hdr.type_id = RTMP_TYPE_DATA then handleDataMessage conn mb
  else (conn, [], none)

-- `rtmp_dechunker_receive(conn->dechunk, mb)` with `rtmp_dechunk_handler`. The dechunker calls the
-- handler last, so the handler's answer is the call's error, and what it does lands on the
-- connection as the dechunker left it.
def dechunkReceive (conn : RtmpConn) (mb : Mbuf) : RtmpConn × List RtmpEvent × Except Errno Mbuf :=
  let r := rtmpDechunkerReceive (fun hdr buf => (rtmpDechunkHandler conn hdr buf).2.2) conn.dechunk mb
  match r.msg with
  | none => ({ conn with dechunk := r.rd }, [], r.out)
  | some (hdr, buf) =>
    ((rtmpDechunkHandler { conn with dechunk := r.rd } hdr buf).1,
      (rtmpDechunkHandler { conn with dechunk := r.rd } hdr buf).2.1, r.out)

/-! ## The handshake and the receive loop -/

def clientHandlePacket (conn : RtmpConn) (mb : Mbuf) : RtmpConn × List RtmpEvent × Except Errno Mbuf :=
  match conn.state with
  | .VERSION_SENT =>
    if mb.getLeft < 1 + RTMP_HANDSHAKE_SIZE then (conn, [], .error .ENODATA)
    else if mb.readU8.1 ≠ RTMP_PROTOCOL_VERSION then (conn, [], .error .EPROTO)
    else
      -- S1 goes back as C2
      match mb.readU8.2.readMem RTMP_HANDSHAKE_SIZE with
      | .error e => (conn, [], .error e)
      | .ok (s1, mb) => ({ conn with state := .ACK_SENT }, [.send s1], .ok mb)
  | .ACK_SENT =>
    if mb.getLeft < RTMP_HANDSHAKE_SIZE then (conn, [], .error .ENODATA)
    else
      -- S2 is skipped
      let conn := { conn with send_chunk_size := 4096 }
      match rtmpControl conn RTMP_TYPE_SET_CHUNK_SIZE [.int conn.send_chunk_size.toNat] with
      | .error e => (conn, [], .error e)
      | .ok ctl =>
        match sendConnect conn with
        | (conn, evs, some e) => (conn, .send ctl :: evs, .error e)
        | (conn, evs, none) =>
          ({ conn with state := .HANDSHAKE_DONE }, .send ctl :: evs,
            .ok (mb.advance RTMP_HANDSHAKE_SIZE))
  | .HANDSHAKE_DONE => dechunkReceive conn mb
  | .UNINITIALIZED => (conn, [], .error .EPROTO)

def serverHandlePacket (conn : RtmpConn) (rand : Rand) (mb : Mbuf) :
    RtmpConn × List RtmpEvent × Except Errno Mbuf :=
  match conn.state with
  | .UNINITIALIZED =>
    if mb.getLeft < 1 then (conn, [], .error .ENODATA)
    else if mb.readU8.1 ≠ RTMP_PROTOCOL_VERSION then (conn, [], .error .EPROTO)
    else ((handshakeStart conn rand).1, (handshakeStart conn rand).2, .ok mb.readU8.2)
  | .VERSION_SENT =>
    if mb.getLeft < RTMP_HANDSHAKE_SIZE then (conn, [], .error .ENODATA)
    else
      -- C1 goes back as S2
      match mb.readMem RTMP_HANDSHAKE_SIZE with
      | .error e => (conn, [], .error e)
      | .ok (c1, mb) => ({ conn with state := .ACK_SENT }, [.send c1], .ok mb)
  | .ACK_SENT =>
    if mb.getLeft < RTMP_HANDSHAKE_SIZE then (conn, [], .error .ENODATA)
    else
      -- C2 is skipped
      let conn := { conn with send_chunk_size := 4096 }
      match rtmpControl conn RTMP_TYPE_SET_CHUNK_SIZE [.int conn.send_chunk_size.toNat] with
      | .error e => (conn, [], .error e)
      | .ok ctl =>
        ({ conn with state := .HANDSHAKE_DONE }, [.send ctl], .ok (mb.advance RTMP_HANDSHAKE_SIZE))
  | .HANDSHAKE_DONE => dechunkReceive conn mb

def handlePacket (conn : RtmpConn) (rand : Rand) (mb : Mbuf) :
    RtmpConn × List RtmpEvent × Except Errno Mbuf :=
  if conn.is_client then clientHandlePacket conn mb else serverHandlePacket conn rand mb

-- What the handlers leave to `tcp_recv_handler`: the bytes received and acknowledged, and a
-- window of acknowledgement that is not zero (a zero from the peer is ignored).
structure Keeps (conn conn' : RtmpConn) : Prop where
  total_bytes : conn'.total_bytes = conn.total_bytes
  last_ack : conn'.last_ack = conn.last_ack
  window : conn.window_ack_size ≠ 0 → conn'.window_ack_size ≠ 0

theorem Keeps.refl (conn : RtmpConn) : Keeps conn conn := ⟨rfl, rfl, id⟩

theorem Keeps.trans {conn conn' conn'' : RtmpConn} (first : Keeps conn conn') (second : Keeps conn' conn'') :
    Keeps conn conn'' :=
  ⟨second.total_bytes.trans first.total_bytes, second.last_ack.trans first.last_ack,
    fun nonzero => second.window (first.window nonzero)⟩

theorem connClose_keeps (conn : RtmpConn) (err : Errno) : Keeps conn (connClose conn err).1 := by
  unfold connClose
  split <;> exact ⟨rfl, rfl, id⟩

theorem connectRespHandler_keeps (conn : RtmpConn) (success : Bool) :
    Keeps conn (connectRespHandler conn success).1 := by
  unfold connectRespHandler
  split
  · exact connClose_keeps ..
  · split <;> exact ⟨rfl, rfl, id⟩

-- An `_error` for the pending `connect` closes the connection with `EPROTO`, and the
-- transaction is gone.
theorem rtmpCtransResponse_connect_error {conn : RtmpConn} {msg : Dict} {tid : UInt64} {ct : Ctrans}
    (number : odictGetNumber msg "1" = some tid) (pending : conn.ctransl.find? (·.tid == tid.toNat) = some ct)
    (connect : ct.resph = .connect) (refused : strCaseEq (odictString msg "0") "_result" = false)
    (open_ : conn.closed = false) :
    rtmpCtransResponse conn msg =
      ({ conn with ctransl := conn.ctransl.eraseP (·.tid == tid.toNat), closed := true }, [.close .EPROTO], none) := by
  simp [rtmpCtransResponse, number, pending, connect, connectRespHandler, refused, connClose, open_]

theorem rtmpCtransResponse_keeps (conn : RtmpConn) (msg : Dict) : Keeps conn (rtmpCtransResponse conn msg).1 := by
  unfold rtmpCtransResponse
  dsimp only
  repeat' split
  all_goals dsimp only
  all_goals first
    | exact ⟨rfl, rfl, id⟩
    | (refine Keeps.trans ?_ (connectRespHandler_keeps _ _); exact ⟨rfl, rfl, id⟩)

theorem rtmpDechunkHandler_keeps (conn : RtmpConn) (hdr : RtmpHeader) (mb : Mbuf) :
    Keeps conn (rtmpDechunkHandler conn hdr mb).1 := by
  unfold rtmpDechunkHandler handleAmfCommand handleUserControlMsg handleDataMessage
  dsimp only
  repeat' split
  -- the window the peer sends replaces the connection's only when it is not zero
  all_goals first
    | exact ⟨rfl, rfl, id⟩
    | exact ⟨rfl, rfl, fun _ => by assumption⟩
    | exact rtmpCtransResponse_keeps ..

theorem dechunkReceive_keeps (conn : RtmpConn) (mb : Mbuf) : Keeps conn (dechunkReceive conn mb).1 := by
  unfold dechunkReceive
  dsimp only
  split
  · exact ⟨rfl, rfl, id⟩
  · refine Keeps.trans ?_ (rtmpDechunkHandler_keeps ..)
    exact ⟨rfl, rfl, id⟩

theorem sendConnect_keeps (conn : RtmpConn) : Keeps conn (sendConnect conn).1 := by
  unfold sendConnect rtmpAmfRequest
  dsimp only
  repeat' split
  all_goals exact ⟨rfl, rfl, id⟩

theorem clientHandlePacket_keeps (conn : RtmpConn) (mb : Mbuf) : Keeps conn (clientHandlePacket conn mb).1 := by
  unfold clientHandlePacket
  split
  · -- S0 and S1
    repeat' split
    all_goals exact ⟨rfl, rfl, id⟩
  · -- S2, and the connect request with its own bookkeeping
    split
    · exact ⟨rfl, rfl, id⟩
    · dsimp only
      split
      · exact ⟨rfl, rfl, id⟩
      · have kept := Keeps.trans (⟨rfl, rfl, id⟩ : Keeps conn { conn with send_chunk_size := 4096 })
          (sendConnect_keeps _)
        split
        · rename_i connected
          rw [connected] at kept
          exact kept
        · rename_i connected
          rw [connected] at kept
          exact kept.trans ⟨rfl, rfl, id⟩
  · exact dechunkReceive_keeps ..
  · exact ⟨rfl, rfl, id⟩

theorem serverHandlePacket_keeps (conn : RtmpConn) (rand : Rand) (mb : Mbuf) :
    Keeps conn (serverHandlePacket conn rand mb).1 := by
  unfold serverHandlePacket
  split
  · repeat' split
    all_goals exact ⟨rfl, rfl, id⟩
  · repeat' split
    all_goals exact ⟨rfl, rfl, id⟩
  · dsimp only
    repeat' split
    all_goals exact ⟨rfl, rfl, id⟩
  · exact dechunkReceive_keeps ..

theorem handlePacket_keeps (conn : RtmpConn) (rand : Rand) (mb : Mbuf) :
    Keeps conn (handlePacket conn rand mb).1 := by
  unfold handlePacket
  split
  · exact clientHandlePacket_keeps ..
  · exact serverHandlePacket_keeps ..

theorem handlePacket_total_bytes (conn : RtmpConn) (rand : Rand) (mb : Mbuf) :
    (handlePacket conn rand mb).1.total_bytes = conn.total_bytes :=
  (handlePacket_keeps conn rand mb).total_bytes

theorem dechunkReceive_progress {conn : RtmpConn} {mb mb' : Mbuf}
    (h : (dechunkReceive conn mb).2.2 = .ok mb') : mb'.getLeft < mb.getLeft := by
  unfold dechunkReceive at h
  dsimp only at h
  split at h <;> exact rtmpDechunkerReceive_progress _ h

theorem clientHandlePacket_progress {conn : RtmpConn} {mb mb' : Mbuf}
    (h : (clientHandlePacket conn mb).2.2 = .ok mb') : mb'.getLeft < mb.getLeft := by
  unfold clientHandlePacket at h
  split at h
  · -- S0 and S1
    split at h
    · cases h
    next enough =>
      simp only [RTMP_HANDSHAKE_SIZE] at enough
      rw [readU8_snd_of_le mb (by omega)] at h
      split at h
      · cases h
      · split at h
        · cases h
        next read =>
          cases h
          have took := (readOn_readMem read).getLeft_le
          simp only [getLeft, advance_pos, advance_end] at enough took ⊢
          omega
  · -- S2
    split at h
    · cases h
    next enough =>
      dsimp only at h
      split at h
      · cases h
      · split at h
        · cases h
        · cases h
          simp only [getLeft, advance_pos, advance_end, RTMP_HANDSHAKE_SIZE] at enough ⊢
          omega
  · exact dechunkReceive_progress h
  · cases h

theorem serverHandlePacket_progress {conn : RtmpConn} {rand : Rand} {mb mb' : Mbuf}
    (h : (serverHandlePacket conn rand mb).2.2 = .ok mb') : mb'.getLeft < mb.getLeft := by
  unfold serverHandlePacket at h
  split at h
  · -- C0
    split at h
    · cases h
    next enough =>
      split at h
      · cases h
      · cases h
        exact getLeft_readU8_lt enough
  · -- C1
    split at h
    · cases h
    next enough =>
      split at h
      · cases h
      next read =>
        cases h
        rw [readMem_of_le _ _ (by omega)] at read
        cases read
        simp only [getLeft, advance_pos, advance_end, RTMP_HANDSHAKE_SIZE] at enough ⊢
        omega
  · -- C2
    split at h
    · cases h
    next enough =>
      dsimp only at h
      split at h
      · cases h
      · cases h
        simp only [getLeft, advance_pos, advance_end, RTMP_HANDSHAKE_SIZE] at enough ⊢
        omega
  · exact dechunkReceive_progress h

theorem handlePacket_progress {conn : RtmpConn} {rand : Rand} {mb mb' : Mbuf}
    (h : (handlePacket conn rand mb).2.2 = .ok mb') : mb'.getLeft < mb.getLeft := by
  unfold handlePacket at h
  split at h
  · exact clientHandlePacket_progress h
  · exact serverHandlePacket_progress h

-- The `while` loop of `tcp_recv_handler` on the reassembly buffer: a failed call rewinds the
-- buffer and ends the loop (`ENODATA` only waits for more bytes), and a buffer read to its end
-- is dropped.
def recvLoop (conn : RtmpConn) (rand : Rand) (mb : Mbuf) : RtmpConn × List RtmpEvent × Option Errno :=
  if mb.getLeft > 0 then
    -- a handler that closed the connection ends the call where the buffer stands (`!conn->tc`)
    if (handlePacket conn rand mb).1.closed then
      ({ (handlePacket conn rand mb).1 with mb := some ((handlePacket conn rand mb).2.2.toOption.getD mb) },
        (handlePacket conn rand mb).2.1, none)
    else
      match _ : (handlePacket conn rand mb).2.2 with
      | .error e =>
        ({ (handlePacket conn rand mb).1 with mb := some mb }, (handlePacket conn rand mb).2.1,
          if e = .ENODATA then none else some e)
      | .ok mb' =>
        if mb'.pos ≥ mb'.end_ then
          ({ (handlePacket conn rand mb).1 with mb := none }, (handlePacket conn rand mb).2.1, none)
        else
          ((recvLoop (handlePacket conn rand mb).1 rand mb').1,
            (handlePacket conn rand mb).2.1 ++ (recvLoop (handlePacket conn rand mb).1 rand mb').2.1,
            (recvLoop (handlePacket conn rand mb).1 rand mb').2.2)
  else ({ conn with mb := some mb }, [], none)
termination_by mb.getLeft
decreasing_by exact handlePacket_progress ‹_›

-- The re-assembly of fragments in `tcp_recv_handler`: the segment goes behind the bytes that
-- wait, up to `RTMP_MESSAGE_LEN_MAX` of them, or is the buffer when none wait.
def reassemble (cmb : Option Mbuf) (seg : Mbuf) : Except Errno Mbuf :=
  match cmb with
  | some cmb =>
    if cmb.getLeft + seg.getLeft > RTMP_MESSAGE_LEN_MAX then .error .EOVERFLOW
    else .ok (((cmb.setPos cmb.end_).writeMem seg.left).setPos cmb.pos)
  | none => .ok seg

-- `tcp_recv_handler`: the segment is counted and appended to the bytes that wait, the loop runs,
-- and once no error closed the connection, an acknowledgement goes out per window of bytes.
def tcpRecvHandler (conn : RtmpConn) (rand : Rand) (seg : Mbuf) : RtmpConn × List RtmpEvent :=
  let conn := { conn with total_bytes := conn.total_bytes + UInt64.ofNat seg.getLeft }
  match reassemble conn.mb seg with
  | .error e => connClose conn e
  | .ok mb =>
    match recvLoop conn rand mb with
    | (conn, evs, some e) => ((connClose conn e).1, evs ++ (connClose conn e).2)
    | (conn, evs, none) =>
      if conn.closed then (conn, evs)
      else if conn.total_bytes ≥ conn.last_ack + conn.window_ack_size.toUInt64 then
        let conn := { conn with last_ack := conn.total_bytes }
        match rtmpControl conn RTMP_TYPE_ACKNOWLEDGEMENT [.int conn.total_bytes.toUInt32.toNat] with
        | .error e => ((connClose conn e).1, evs ++ (connClose conn e).2)
        | .ok ack => (conn, evs ++ [.send ack])
      else (conn, evs)

-- TCP delivers the segments one by one while the connection is up.
def recvRun (conn : RtmpConn) (rand : Rand) : List (List UInt8) → RtmpConn × List RtmpEvent
  | [] => (conn, [])
  | seg :: segs =>
    if conn.closed then (conn, [])
    else
      ((recvRun (tcpRecvHandler conn rand ⟨seg, 0, seg.length⟩).1 rand segs).1,
        (tcpRecvHandler conn rand ⟨seg, 0, seg.length⟩).2 ++
          (recvRun (tcpRecvHandler conn rand ⟨seg, 0, seg.length⟩).1 rand segs).2)

/-! ## The receive loop, step by step -/

section Loop

variable {conn conn' : RtmpConn} {rand : Rand} {mb mb' : Mbuf} {evs : List RtmpEvent}

theorem recvLoop_empty (empty : mb.getLeft = 0) :
    recvLoop conn rand mb = ({ conn with mb := some mb }, [], none) := by
  rw [recvLoop, if_neg (by omega)]

theorem recvLoop_closed (left : 0 < mb.getLeft) (closed : (handlePacket conn rand mb).1.closed = true) :
    recvLoop conn rand mb =
      ({ (handlePacket conn rand mb).1 with mb := some ((handlePacket conn rand mb).2.2.toOption.getD mb) },
        (handlePacket conn rand mb).2.1, none) := by
  rw [recvLoop, if_pos left, if_pos closed]

theorem recvLoop_error {e : Errno} (left : 0 < mb.getLeft)
    (handled : handlePacket conn rand mb = (conn', evs, .error e)) (alive : conn'.closed = false) :
    recvLoop conn rand mb = ({ conn' with mb := some mb }, evs, if e = .ENODATA then none else some e) := by
  rw [recvLoop, if_pos left, if_neg (by rw [handled]; simp [alive])]
  split
  next e' fails =>
    rw [handled] at fails ⊢
    cases fails
    rfl
  next m ok =>
    rw [handled] at ok
    cases ok

theorem recvLoop_drained (left : 0 < mb.getLeft) (handled : handlePacket conn rand mb = (conn', evs, .ok mb'))
    (alive : conn'.closed = false) (drained : mb'.end_ ≤ mb'.pos) :
    recvLoop conn rand mb = ({ conn' with mb := none }, evs, none) := by
  rw [recvLoop, if_pos left, if_neg (by rw [handled]; simp [alive])]
  split
  next e fails =>
    rw [handled] at fails
    cases fails
  next m ok =>
    rw [handled] at ok ⊢
    cases ok
    simp [drained]

theorem recvLoop_more (left : 0 < mb.getLeft) (handled : handlePacket conn rand mb = (conn', evs, .ok mb'))
    (alive : conn'.closed = false) (more : mb'.pos < mb'.end_) :
    recvLoop conn rand mb = ((recvLoop conn' rand mb').1, evs ++ (recvLoop conn' rand mb').2.1,
      (recvLoop conn' rand mb').2.2) := by
  rw [recvLoop, if_pos left, if_neg (by rw [handled]; simp [alive])]
  split
  next e fails =>
    rw [handled] at fails
    cases fails
  next m ok =>
    rw [handled] at ok ⊢
    cases ok
    simp [Nat.not_le.mpr more]

end Loop

end Libre.Rtmp
