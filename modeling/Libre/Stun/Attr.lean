import Libre.Mbuf.Buffer

set_option autoImplicit false

/-!
# STUN attributes

`stun_attr_decode` from `stun/attr.c`, with `stun_addr_decode`: an attribute's type and length, its
value by type, and the padding to a multiple of four. The decoder only reads
(`stunAttrDecode_readOn`), which the message decoder's loop terminates on.
-/

namespace Libre.Stun

open BigEndian Mbuf

def STUN_ATTR_MAPPED_ADDR : UInt16 := 0x0001
def STUN_ATTR_CHANGE_REQ : UInt16 := 0x0003
def STUN_ATTR_USERNAME : UInt16 := 0x0006
def STUN_ATTR_MSG_INTEGRITY : UInt16 := 0x0008
def STUN_ATTR_ERR_CODE : UInt16 := 0x0009
def STUN_ATTR_UNKNOWN_ATTR : UInt16 := 0x000a
def STUN_ATTR_CHANNEL_NUMBER : UInt16 := 0x000c
def STUN_ATTR_LIFETIME : UInt16 := 0x000d
def STUN_ATTR_XOR_PEER_ADDR : UInt16 := 0x0012
def STUN_ATTR_DATA : UInt16 := 0x0013
def STUN_ATTR_REALM : UInt16 := 0x0014
def STUN_ATTR_NONCE : UInt16 := 0x0015
def STUN_ATTR_XOR_RELAY_ADDR : UInt16 := 0x0016
def STUN_ATTR_REQ_ADDR_FAMILY : UInt16 := 0x0017
def STUN_ATTR_EVEN_PORT : UInt16 := 0x0018
def STUN_ATTR_REQ_TRANSPORT : UInt16 := 0x0019
def STUN_ATTR_DONT_FRAGMENT : UInt16 := 0x001a
def STUN_ATTR_XOR_MAPPED_ADDR : UInt16 := 0x0020
def STUN_ATTR_RSV_TOKEN : UInt16 := 0x0022
def STUN_ATTR_PRIORITY : UInt16 := 0x0024
def STUN_ATTR_USE_CAND : UInt16 := 0x0025
def STUN_ATTR_PADDING : UInt16 := 0x0026
def STUN_ATTR_RESP_PORT : UInt16 := 0x0027
def STUN_ATTR_SOFTWARE : UInt16 := 0x8022
def STUN_ATTR_ALT_SERVER : UInt16 := 0x8023
def STUN_ATTR_FINGERPRINT : UInt16 := 0x8028
def STUN_ATTR_CONTROLLED : UInt16 := 0x8029
def STUN_ATTR_CONTROLLING : UInt16 := 0x802a
def STUN_ATTR_RESP_ORIGIN : UInt16 := 0x802b
def STUN_ATTR_OTHER_ADDR : UInt16 := 0x802c

def STUN_MAGIC_COOKIE : UInt32 := 0x2112a442
def STUN_TID_SIZE : Nat := 12
def STUN_AF_IPv4 : UInt8 := 0x01
def STUN_AF_IPv6 : UInt8 := 0x02

/-- `struct sa` as `sa_set_in` and `sa_set_in6` fill it. -/
inductive Sa
  | in4 (addr : UInt32) (port : UInt16)
  | in6 (addr : List UInt8) (port : UInt16)
  deriving DecidableEq, Repr

/-- The union `v` of `struct stun_attr`, by the member the decoder fills; `zero` is what
`mem_zalloc` leaves for the types with no value and for the skipped ones. -/
inductive AttrValue
  | sa (addr : Sa)
  | str (s : List UInt8)
  | changeReq (ip port : Bool)
  | msgIntegrity (mac : List UInt8)
  | errCode (code : UInt16) (reason : List UInt8)
  | unknownAttr (typev : List UInt16)
  | uint8 (v : UInt8)
  | uint16 (v : UInt16)
  | uint32 (v : UInt32)
  | uint64 (v : UInt64)
  | mb (window : Mbuf)
  | evenPort (r : Bool)
  | zero
  deriving DecidableEq, Repr

structure StunAttr where
  type : UInt16
  v : AttrValue
  deriving DecidableEq, Repr

/-- `in6_xor_tid`: the magic cookie over the first four bytes, the transaction id over the rest. -/
def in6XorTid (in6 tid : List UInt8) : List UInt8 :=
  List.zipWith (· ^^^ ·) in6 ([0x21, 0x12, 0xa4, 0x42] ++ tid)

/-- `stun_addr_decode(mb, addr, tid)`: a reserved byte, the family, the port and the address; with
a transaction id the port and the address are XOR-ed as `stun_addr_encode` wrote them. -/
def stunAddrDecode (mb : Mbuf) (tid : Option (List UInt8)) : Except Errno (Sa × Mbuf) :=
  if mb.getLeft < 4 then .error .EBADMSG
  else
    let family := mb.readU8.2.readU8
    let port := family.2.readU16
    let p := if tid.isSome then port.1 ^^^ (STUN_MAGIC_COOKIE >>> 16).toUInt16 else port.1
    if family.1 = STUN_AF_IPv4 then
      if port.2.getLeft < 4 then .error .EBADMSG
      else
        let addr4 := port.2.readU32
        .ok (.in4 (if tid.isSome then addr4.1 ^^^ STUN_MAGIC_COOKIE else addr4.1) p, addr4.2)
    else if family.1 = STUN_AF_IPv6 then
      if port.2.getLeft < 16 then .error .EBADMSG
      else
        -- the read cannot fail after the check, and the code does not look at its result
        let addr6 := match port.2.readMem 16 with
          | .ok r => r
          | .error _ => (List.replicate 16 0, port.2)
        .ok (.in6 (match tid with | some t => in6XorTid addr6.1 t | none => addr6.1) p, addr6.2)
    else .error .EAFNOSUPPORT

/-- `str_decode(mb, &str, len)`: the next `len` bytes, copied by `mbuf_strdup`. -/
def strDecode (mb : Mbuf) (len : Nat) : Except Errno (List UInt8 × Mbuf) :=
  if mb.getLeft < len then .error .EBADMSG
  else mb.readMem len

/-- The loop of an UNKNOWN-ATTRIBUTES value: `n` types read, the first eight kept (`typev` holds
as many types as the loop index while that is under eight). -/
def unknownLoop : Nat → Mbuf → List UInt16 → List UInt16 × Mbuf
  | 0, mb, typev => (typev, mb)
  | n + 1, mb, typev =>
    let type := mb.readU16
    unknownLoop n type.2 (if typev.length < 8 then typev ++ [type.1] else typev)

/-- The padding loop: step while the bytes taken since `start` are not a multiple of four and the
buffer has bytes left. -/
def padLoop (start : Nat) (mb : Mbuf) : Mbuf :=
  if (mb.pos - start) &&& 0x03 ≠ 0 ∧ mb.getLeft ≠ 0 then padLoop start (mb.advance 1) else mb
termination_by mb.getLeft
decreasing_by simp only [getLeft, advance_pos, advance_end] at *; omega

/-- The groups of `case` labels of the `switch` in `stun_attr_decode`. -/
inductive ValueCase
  | addr | xorAddr | changeReq | str | msgIntegrity | errCode | unknownAttr | uint16 | uint32
  | mb | uint8 | evenPort | noValue | uint64 | skip
  deriving DecidableEq, Repr

def valueCase (type : UInt16) : ValueCase :=
  if type ∈ [STUN_ATTR_MAPPED_ADDR, STUN_ATTR_ALT_SERVER, STUN_ATTR_RESP_ORIGIN,
      STUN_ATTR_OTHER_ADDR] then .addr
  else if type ∈ [STUN_ATTR_XOR_PEER_ADDR, STUN_ATTR_XOR_RELAY_ADDR,
      STUN_ATTR_XOR_MAPPED_ADDR] then .xorAddr
  else if type = STUN_ATTR_CHANGE_REQ then .changeReq
  else if type ∈ [STUN_ATTR_USERNAME, STUN_ATTR_REALM, STUN_ATTR_NONCE, STUN_ATTR_SOFTWARE] then .str
  else if type = STUN_ATTR_MSG_INTEGRITY then .msgIntegrity
  else if type = STUN_ATTR_ERR_CODE then .errCode
  else if type = STUN_ATTR_UNKNOWN_ATTR then .unknownAttr
  else if type ∈ [STUN_ATTR_CHANNEL_NUMBER, STUN_ATTR_RESP_PORT] then .uint16
  else if type ∈ [STUN_ATTR_LIFETIME, STUN_ATTR_PRIORITY, STUN_ATTR_FINGERPRINT] then .uint32
  else if type ∈ [STUN_ATTR_DATA, STUN_ATTR_PADDING] then .mb
  else if type ∈ [STUN_ATTR_REQ_ADDR_FAMILY, STUN_ATTR_REQ_TRANSPORT] then .uint8
  else if type = STUN_ATTR_EVEN_PORT then .evenPort
  else if type ∈ [STUN_ATTR_DONT_FRAGMENT, STUN_ATTR_USE_CAND] then .noValue
  else if type ∈ [STUN_ATTR_RSV_TOKEN, STUN_ATTR_CONTROLLING, STUN_ATTR_CONTROLLED] then .uint64
  else .skip

/-- The `switch` of `stun_attr_decode` on the attribute type: the value of `len` bytes, and `ua`
with a skipped comprehension-required type added. -/
def attrValueDecode (type : UInt16) (len : Nat) (tid : List UInt8) (mb : Mbuf) (ua : List UInt16) :
    Except Errno (AttrValue × Mbuf × List UInt16) :=
  match valueCase type with
  | .addr =>
    -- the plain address types fall through to the XOR-ed ones with no transaction id
    match stunAddrDecode mb none with
    | .ok (sa, mb) => .ok (.sa sa, mb, ua)
    | .error e => .error e
  | .xorAddr =>
    match stunAddrDecode mb (some tid) with
    | .ok (sa, mb) => .ok (.sa sa, mb, ua)
    | .error e => .error e
  | .changeReq =>
    if len ≠ 4 then .error .EBADMSG
    else
      let n := mb.readU32
      .ok (.changeReq ((n.1 >>> 2) &&& 0x1 = 1) ((n.1 >>> 1) &&& 0x1 = 1), n.2, ua)
  | .str =>
    match strDecode mb len with
    | .ok (str, mb) => .ok (.str str, mb, ua)
    | .error e => .error e
  | .msgIntegrity =>
    if len ≠ 20 then .error .EBADMSG
    else
      match mb.readMem 20 with
      | .ok (mac, mb) => .ok (.msgIntegrity mac, mb, ua)
      | .error e => .error e
  | .errCode =>
    if len < 4 then .error .EBADMSG
    else
      let cls := (mb.advance 2).readU8
      let number := cls.2.readU8
      match strDecode number.2 (len - 4) with
      | .ok (reason, mb) =>
        .ok (.errCode ((cls.1 &&& 0x7).toUInt16 * 100 + number.1.toUInt16) reason, mb, ua)
      | .error e => .error e
  | .unknownAttr =>
    let types := unknownLoop (len / 2) mb []
    .ok (.unknownAttr types.1, types.2, ua)
  | .uint16 =>
    if len < 2 then .error .EBADMSG
    else
      let v := mb.readU16
      .ok (.uint16 v.1, v.2, ua)
  | .uint32 =>
    if len ≠ 4 then .error .EBADMSG
    else
      let v := mb.readU32
      .ok (.uint32 v.1, v.2, ua)
  | .mb =>
    -- the value is a window on the same bytes
    .ok (.mb ⟨mb.buf, mb.pos, mb.pos + len⟩, mb.advance len, ua)
  | .uint8 =>
    if len < 1 then .error .EBADMSG
    else
      let v := mb.readU8
      .ok (.uint8 v.1, v.2, ua)
  | .evenPort =>
    if len < 1 then .error .EBADMSG
    else
      let v := mb.readU8
      .ok (.evenPort ((v.1 >>> 7) &&& 0x1 = 1), v.2, ua)
  | .noValue => if len > 0 then .error .EBADMSG else .ok (.zero, mb, ua)
  | .uint64 =>
    if len ≠ 8 then .error .EBADMSG
    else
      let v := mb.readU64
      .ok (.uint64 v.1, v.2, ua)
  | .skip =>
    .ok (.zero, mb.advance len, if type < 0x8000 ∧ ua.length < 8 then ua ++ [type] else ua)

/-- `stun_attr_decode(&attr, mb, tid, ua)`. -/
def stunAttrDecode (mb : Mbuf) (tid : List UInt8) (ua : List UInt16) :
    Except Errno (StunAttr × Mbuf × List UInt16) :=
  if mb.getLeft < 4 then .error .EBADMSG
  else
    let type := mb.readU16
    let len := type.2.readU16
    if len.2.getLeft < len.1.toNat then .error .EBADMSG
    else
      match attrValueDecode type.1 len.1.toNat tid len.2 ua with
      | .ok (v, mb, ua) => .ok (⟨type.1, v⟩, padLoop len.2.pos mb, ua)
      | .error e => .error e

/-! ## The decoder only reads -/

theorem readOn_padLoop (start : Nat) (mb : Mbuf) : ReadOn mb (padLoop start mb) := by
  fun_induction padLoop start mb with
  | case1 mb step ih => exact (readOn_advance mb (by omega)).trans ih
  | case2 mb stop => exact ReadOn.refl mb

theorem readOn_unknownLoop (n : Nat) (mb : Mbuf) (typev : List UInt16) :
    ReadOn mb (unknownLoop n mb typev).2 := by
  induction n generalizing mb typev with
  | zero => exact ReadOn.refl mb
  | succ n ih => exact (readOn_readU16 mb).trans (ih _ _)

theorem stunAddrDecode_readOn {mb mb' : Mbuf} {tid : Option (List UInt8)} {sa : Sa}
    (h : stunAddrDecode mb tid = .ok (sa, mb')) : ReadOn mb mb' := by
  have header : ReadOn mb mb.readU8.2.readU8.2.readU16.2 :=
    ((readOn_readU8 mb).trans (readOn_readU8 _)).trans (readOn_readU16 _)
  unfold stunAddrDecode at h
  by_cases short : mb.getLeft < 4
  · simp only [if_pos short, reduceCtorEq] at h
  simp only [if_neg short] at h
  -- the port is XOR-ed ahead of the switch on the family, so the cases go by hand
  by_cases v4 : mb.readU8.2.readU8.1 = STUN_AF_IPv4
  · simp only [if_pos v4] at h
    split at h
    · cases h
    · simp only [Except.ok.injEq, Prod.mk.injEq] at h
      rw [← h.2]
      exact header.trans (readOn_readU32 _)
  simp only [if_neg v4] at h
  by_cases v6 : mb.readU8.2.readU8.1 = STUN_AF_IPv6
  · simp only [if_pos v6] at h
    split at h
    · cases h
    · simp only [Except.ok.injEq, Prod.mk.injEq] at h
      rw [← h.2]
      split
      · rename_i read
        exact header.trans (readOn_readMem read)
      · exact header
  · simp only [if_neg v6, reduceCtorEq] at h

theorem strDecode_readOn {mb mb' : Mbuf} {len : Nat} {str : List UInt8}
    (h : strDecode mb len = .ok (str, mb')) : ReadOn mb mb' := by
  unfold strDecode at h
  split_ifs at h
  exact readOn_readMem h

theorem mbuf_of_guarded {c : Prop} [Decidable c] {e : Errno} {w v : AttrValue} {m mb' : Mbuf}
    {u ua' : List UInt16}
    (h : (if c then .error e else .ok (w, m, u) : Except Errno (AttrValue × Mbuf × List UInt16)) =
      .ok (v, mb', ua')) :
    mb' = m := by
  split at h
  · cases h
  · cases h
    rfl

/-- The value's reader keeps within the buffer, given the `len` bytes that the attribute header
promised are there. -/
theorem attrValueDecode_readOn {type : UInt16} {len : Nat} {tid : List UInt8} {mb mb' : Mbuf}
    {ua ua' : List UInt16} {v : AttrValue} (enough : len ≤ mb.getLeft)
    (h : attrValueDecode type len tid mb ua = .ok (v, mb', ua')) : ReadOn mb mb' := by
  unfold attrValueDecode at h
  split at h
  next =>
    split at h
    next _ _ decoded => cases h; exact stunAddrDecode_readOn decoded
    next => cases h
  next =>
    split at h
    next _ _ decoded => cases h; exact stunAddrDecode_readOn decoded
    next => cases h
  next => rw [mbuf_of_guarded h]; exact readOn_readU32 mb
  next =>
    split at h
    next _ _ decoded => cases h; exact strDecode_readOn decoded
    next => cases h
  next =>
    split at h
    next => cases h
    split at h
    next _ _ read => cases h; exact readOn_readMem read
    next => cases h
  next =>
    split at h
    next => cases h
    dsimp only at h
    split at h
    next _ _ reason =>
      cases h
      have reserved : ReadOn mb (mb.advance 2) := readOn_advance mb (by omega)
      exact ((reserved.trans (readOn_readU8 _)).trans (readOn_readU8 _)).trans
        (strDecode_readOn reason)
    next => cases h
  next => cases h; exact readOn_unknownLoop _ mb []
  next => rw [mbuf_of_guarded h]; exact readOn_readU16 mb
  next => rw [mbuf_of_guarded h]; exact readOn_readU32 mb
  next => cases h; exact readOn_advance mb enough
  next => rw [mbuf_of_guarded h]; exact readOn_readU8 mb
  next => rw [mbuf_of_guarded h]; exact readOn_readU8 mb
  next => rw [mbuf_of_guarded h]; exact ReadOn.refl mb
  next => rw [mbuf_of_guarded h]; exact readOn_readNet mb 8
  next => cases h; exact readOn_advance mb enough

/-- A decoded attribute was read from the buffer as it stands: the decoder moves past the four
bytes of the attribute header at least, and not past the end. -/
theorem stunAttrDecode_readOn {mb mb' : Mbuf} {tid : List UInt8} {ua ua' : List UInt16}
    {attr : StunAttr} (h : stunAttrDecode mb tid ua = .ok (attr, mb', ua')) :
    ReadOn mb mb' ∧ mb.pos + 4 ≤ mb'.pos := by
  unfold stunAttrDecode at h
  split at h
  · cases h
  rename_i enough
  have second : 2 ≤ (mb.advance 2).getLeft := by
    simp only [getLeft, advance_pos, advance_end] at enough ⊢
    omega
  have header : mb.readU16.2.readU16.2 = mb.advance 4 := by
    rw [readU16_snd_of_le mb (by omega), readU16_snd_of_le _ second, advance_advance]
  dsimp only at h
  rw [header] at h
  split at h
  · cases h
  rename_i room
  split at h
  next _ _ _ value =>
    cases h
    have value := (attrValueDecode_readOn (Nat.le_of_not_lt room) value).trans
      (readOn_padLoop (mb.advance 4).pos _)
    exact ⟨(readOn_advance mb (by omega)).trans value, value.forward⟩
  next => cases h

theorem stunAttrDecode_getLeft {mb mb' : Mbuf} {tid : List UInt8} {ua ua' : List UInt16}
    {attr : StunAttr} (h : stunAttrDecode mb tid ua = .ok (attr, mb', ua')) :
    mb'.getLeft + 4 ≤ mb.getLeft := by
  obtain ⟨reads, past⟩ := stunAttrDecode_readOn h
  have within := reads.within
  simp only [getLeft, reads.ends]
  omega

/-! ## Where an attribute ends

The padding realigns from where the value started, so an attribute ends where its type's reader
stops, not where `len` says. -/

theorem padLoop_aligned (start : Nat) (mb : Mbuf) (aligned : (mb.pos - start) &&& 0x03 = 0) :
    padLoop start mb = mb := by
  rw [padLoop]
  simp [aligned]

theorem stunAttrDecode_of_frame {mb : Mbuf} {tid : List UInt8} {ua : List UInt16}
    {type len : UInt16} {value : List UInt8}
    (h : Frame mb mb.pos (netBytes 2 type.toNat ++ netBytes 2 len.toNat ++ value))
    (room : len.toNat ≤ value.length) :
    stunAttrDecode mb tid ua =
      match attrValueDecode type len.toNat tid (mb.advance 4) ua with
      | .ok (v, mb', ua') => .ok (⟨type, v⟩, padLoop (mb.pos + 4) mb', ua')
      | .error e => .error e := by
  have ends := h.ends
  simp only [List.length_append, length_netBytes] at ends
  have t := @Frame.readU16_at mb mb.pos [] _ type (by simpa [List.append_assoc] using h) (by simp)
  have l := @Frame.readU16_at (mb.advance 2) mb.pos (netBytes 2 type.toNat) _ len
    (by simpa [List.append_assoc] using h) (by simp)
  have header : ¬ mb.getLeft < 4 := by simp only [getLeft]; omega
  have data : ¬ (mb.advance 4).getLeft < len.toNat := by
    simp only [getLeft, advance_pos, advance_end]; omega
  simp only [advance_advance, Nat.reduceAdd] at l
  simp only [stunAttrDecode, header, t, l, data, if_false, advance_pos]

theorem stunAddrDecode_in4 {mb : Mbuf} {a : Nat} {xs zs : List UInt8} {res : UInt8}
    {port : UInt16} {addr : UInt32} (tid : Option (List UInt8))
    (h : Frame mb a (xs ++ ([res, STUN_AF_IPv4] ++ netBytes 2 port.toNat ++ netBytes 4 addr.toNat) ++ zs))
    (at_ : mb.pos = a + xs.length) :
    stunAddrDecode mb tid =
      .ok (.in4 (if tid.isSome then addr ^^^ STUN_MAGIC_COOKIE else addr)
        (if tid.isSome then port ^^^ (STUN_MAGIC_COOKIE >>> 16).toUInt16 else port), mb.advance 8) := by
  have ends := h.ends
  simp only [List.length_append, List.length_cons, List.length_nil, length_netBytes] at ends
  have r := @Frame.readU8_at mb a xs _ res (by simpa [List.append_assoc] using h) at_
  have f := @Frame.readU8_at (mb.advance 1) a (xs ++ [res]) _ STUN_AF_IPv4
    (by simpa [List.append_assoc] using h) (by simp [at_]; omega)
  have p := @Frame.readU16_at (mb.advance 2) a (xs ++ [res, STUN_AF_IPv4]) _ port
    (by simpa [List.append_assoc] using h) (by simp [at_]; omega)
  have v := @Frame.readU32_at (mb.advance 4) a (xs ++ [res, STUN_AF_IPv4] ++ netBytes 2 port.toNat) _ addr
    (by simpa [List.append_assoc] using h) (by simp [at_]; omega)
  have fixed : ¬ mb.getLeft < 4 := by simp only [getLeft]; omega
  have address : ¬ (mb.advance 4).getLeft < 4 := by
    simp only [getLeft, advance_pos, advance_end]; omega
  simp only [advance_advance, Nat.reduceAdd] at f p v
  simp only [stunAddrDecode, fixed, r, f, p, address, v, if_false, if_true]

/-- An address attribute is read as the eight bytes of an IPv4 address whatever its length says:
with a length under eight the address comes from beyond the attribute, and the position lands
twelve bytes on for every length. -/
theorem stun_attr_decode_addr_ignores_len (mb : Mbuf) (tid : List UInt8) (ua : List UInt16)
    (type len port : UInt16) (addr : UInt32) (res : UInt8) (rest : List UInt8)
    (plain : valueCase type = .addr)
    (h : Frame mb mb.pos (netBytes 2 type.toNat ++ netBytes 2 len.toNat ++ [res, STUN_AF_IPv4] ++
      netBytes 2 port.toNat ++ netBytes 4 addr.toNat ++ rest))
    (room : len.toNat ≤ 8 + rest.length) :
    stunAttrDecode mb tid ua = .ok (⟨type, .sa (.in4 addr port)⟩, mb.advance 12, ua) := by
  have framed : Frame mb mb.pos (netBytes 2 type.toNat ++ netBytes 2 len.toNat ++
      (([res, STUN_AF_IPv4] ++ netBytes 2 port.toNat ++ netBytes 4 addr.toNat) ++ rest)) := by
    simpa only [List.append_assoc] using h
  have value := @stunAddrDecode_in4 (mb.advance 4) mb.pos
    (netBytes 2 type.toNat ++ netBytes 2 len.toNat) rest res port addr none
    (by simpa only [frame_advance, List.append_assoc] using h) (by simp)
  have aligned : padLoop (mb.pos + 4) (mb.advance 12) = mb.advance 12 := by
    apply padLoop_aligned
    rw [advance_pos, show mb.pos + 12 - (mb.pos + 4) = 8 by omega]
    rfl
  rw [stunAttrDecode_of_frame framed (by
    simp only [List.length_append, List.length_cons, List.length_nil, length_netBytes]
    omega)]
  simp only [attrValueDecode, plain, value, advance_advance, Nat.reduceAdd, aligned]
  rfl

/-- A MAPPED-ADDRESS attribute of length zero, and twelve bytes after it. -/
def zeroLengthMappedAddr : List UInt8 :=
  netBytes 2 STUN_ATTR_MAPPED_ADDR.toNat ++ netBytes 2 (0 : UInt16).toNat ++ [0, STUN_AF_IPv4] ++
    netBytes 2 (0x1234 : UInt16).toNat ++ netBytes 4 (0xc0000201 : UInt32).toNat ++ [0, 0, 0, 0]

theorem stun_attr_decode_addr_ignores_len_zero :
    valueCase STUN_ATTR_MAPPED_ADDR = .addr ∧
      Frame ⟨zeroLengthMappedAddr, 0, zeroLengthMappedAddr.length⟩ 0 zeroLengthMappedAddr ∧
      (0 : UInt16).toNat ≤ 8 + [0, 0, 0, 0].length ∧
      stunAttrDecode ⟨zeroLengthMappedAddr, 0, zeroLengthMappedAddr.length⟩ [] [] =
        .ok (⟨STUN_ATTR_MAPPED_ADDR, .sa (.in4 0xc0000201 0x1234)⟩,
          (⟨zeroLengthMappedAddr, 0, zeroLengthMappedAddr.length⟩ : Mbuf).advance 12, []) :=
  ⟨by decide, frame_self _, by decide,
    stun_attr_decode_addr_ignores_len ⟨zeroLengthMappedAddr, 0, zeroLengthMappedAddr.length⟩ [] []
      STUN_ATTR_MAPPED_ADDR 0 0x1234 0xc0000201 0 [0, 0, 0, 0] (by decide) (frame_self _) (by decide)⟩

end Libre.Stun
