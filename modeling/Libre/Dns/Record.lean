import Libre.Dns.Name

set_option autoImplicit false

/-!
# DNS resource records

`dns_rr_decode` and `dns_rr_encode` from `dns/rr.c`, with `dns_cstr_decode`, `dns_cstr_encode` and
`dns_dname_encode`. The rdata union is one inductive value, which the encoder reads as the member
its `type` selects; the name table `ht_dname` is the list of names written so far with their
offsets.
-/

namespace Libre.Dns

open BigEndian

def DNS_TYPE_A : UInt16 := 0x0001
def DNS_TYPE_NS : UInt16 := 0x0002
def DNS_TYPE_CNAME : UInt16 := 0x0005
def DNS_TYPE_SOA : UInt16 := 0x0006
def DNS_TYPE_PTR : UInt16 := 0x000c
def DNS_TYPE_MX : UInt16 := 0x000f
def DNS_TYPE_TXT : UInt16 := 0x0010
def DNS_TYPE_AAAA : UInt16 := 0x001c
def DNS_TYPE_SRV : UInt16 := 0x0021
def DNS_TYPE_NAPTR : UInt16 := 0x0023

inductive Rdata
  | a (addr : UInt32)
  | ns (nsdname : List UInt8)
  | cname (cname : List UInt8)
  | soa (mname rname : List UInt8) (serial refresh retry expire ttlmin : UInt32)
  | ptr (ptrdname : List UInt8)
  | mx (pref : UInt16) (exchange : List UInt8)
  | txt (data : List UInt8)
  | aaaa (addr : List UInt8)
  | srv (pri weight port : UInt16) (target : List UInt8)
  | naptr (order pref : UInt16) (flags services regexp replace : List UInt8)
  | none
  deriving DecidableEq, Repr

structure Dnsrr where
  name : List UInt8
  type : UInt16
  dnsclass : UInt16
  ttl : Int64
  rdlen : UInt16
  rdata : Rdata
  deriving DecidableEq, Repr

/-! ## Decoding -/

/-- `dns_cstr_decode`: a length byte and that many bytes. -/
def dnsCstrDecode (mb : Mbuf) : Except Errno (List UInt8 × Mbuf) :=
  if mb.getLeft < 1 then .error .EINVAL
  else
    let len := mb.readU8
    if len.2.getLeft < len.1.toNat then .error .EBADMSG
    else (len.2.readMem len.1.toNat).map fun r => (cstr r.1, r.2)

/-- The loop of the TXT case of `dns_rr_decode`: character-strings until `rdlen` bytes are
used, each no longer than what is left of them. -/
def txtDecode (mb : Mbuf) (rdlen : Nat) (data : List UInt8) : Except Errno (List UInt8 × Mbuf) :=
  if rdlen = 0 then .ok (data, mb)
  else
    let len := mb.readU8
    if len.1.toNat > rdlen - 1 then .error .EINVAL
    else
      match len.2.readMem len.1.toNat with
      | .ok (bytes, next) => txtDecode next (rdlen - 1 - len.1.toNat) (data ++ bytes)
      | .error e => .error e
termination_by rdlen
decreasing_by omega

/-- The `switch (lrr->type)` of `dns_rr_decode`, from the start of the rdata. -/
def rdataDecode (mb : Mbuf) (start : Nat) (type rdlen : UInt16) : Except Errno (Rdata × Mbuf) :=
  if type = DNS_TYPE_A then
    if rdlen ≠ 4 then .error .EINVAL else .ok (.a mb.readU32.1, mb.readU32.2)
  else if type = DNS_TYPE_NS then
    (dnsDnameDecode mb start).map fun r => (.ns r.1, r.2)
  else if type = DNS_TYPE_CNAME then
    (dnsDnameDecode mb start).map fun r => (.cname r.1, r.2)
  else if type = DNS_TYPE_SOA then do
    let (mname, mb) ← dnsDnameDecode mb start
    let (rname, mb) ← dnsDnameDecode mb start
    if mb.getLeft < 20 then throw .EINVAL
    let serial := mb.readU32
    let refresh := serial.2.readU32
    let retry := refresh.2.readU32
    let expire := retry.2.readU32
    let ttlmin := expire.2.readU32
    pure (.soa mname rname serial.1 refresh.1 retry.1 expire.1 ttlmin.1, ttlmin.2)
  else if type = DNS_TYPE_PTR then
    (dnsDnameDecode mb start).map fun r => (.ptr r.1, r.2)
  else if type = DNS_TYPE_MX then do
    if mb.getLeft < 2 then throw .EINVAL
    let pref := mb.readU16
    let (exchange, mb) ← dnsDnameDecode pref.2 start
    pure (.mx pref.1 exchange, mb)
  else if type = DNS_TYPE_TXT then
    (txtDecode mb rdlen.toNat []).map fun r => (.txt (cstr r.1), r.2)
  else if type = DNS_TYPE_AAAA then
    if rdlen ≠ 16 then .error .EINVAL else (mb.readMem 16).map fun r => (.aaaa r.1, r.2)
  else if type = DNS_TYPE_SRV then do
    if mb.getLeft < 6 then throw .EINVAL
    let pri := mb.readU16
    let weight := pri.2.readU16
    let port := weight.2.readU16
    let (target, mb) ← dnsDnameDecode port.2 start
    pure (.srv pri.1 weight.1 port.1 target, mb)
  else if type = DNS_TYPE_NAPTR then do
    if mb.getLeft < 4 then throw .EINVAL
    let order := mb.readU16
    let pref := order.2.readU16
    let (flags, mb) ← dnsCstrDecode pref.2
    let (services, mb) ← dnsCstrDecode mb
    let (regexp, mb) ← dnsCstrDecode mb
    let (replace, mb) ← dnsDnameDecode mb start
    pure (.naptr order.1 pref.1 flags services regexp replace, mb)
  else .ok (.none, mb.advance rdlen.toNat)

/-- `dns_rr_decode(mb, &rr, start)`: the owner name, ten fixed bytes, and the rdata. -/
def dnsRrDecode (mb : Mbuf) (start : Nat) : Except Errno (Dnsrr × Mbuf) := do
  let (name, mb) ← dnsDnameDecode mb start
  if mb.getLeft < 10 then throw .EINVAL
  let type := mb.readU16
  let dnsclass := type.2.readU16
  let ttl := dnsclass.2.readU32
  let rdlen := ttl.2.readU16
  if rdlen.2.getLeft < rdlen.1.toNat then throw .EINVAL
  let (rdata, mb) ← rdataDecode rdlen.2 start type.1 rdlen.1
  pure (⟨name, type.1, dnsclass.1, ttl.1.toUInt64.toInt64, rdlen.1, rdata⟩, mb)

/-! ## Encoding -/

/-- ASCII `tolower`, the case folding of `strcasecmp` and `hash_joaat_str_ci`. -/
def lowerAscii (c : UInt8) : UInt8 := if 65 ≤ c ∧ c ≤ 90 then c + 32 else c

/-- `str_casecmp(a, b) == 0`. -/
def sameName (a b : List UInt8) : Bool := a.map lowerAscii == b.map lowerAscii

/-- `dname_lookup`: the offset kept for a name written before. -/
def dnameLookup (ht : Option (List (List UInt8 × Nat))) (name : List UInt8) : Option Nat :=
  ht.bind fun t => (t.find? fun e => sameName e.1 name).map Prod.snd

/-- `dname_append`: a non-empty name with its offset, when the offset fits in a pointer. -/
def dnameAppend (ht : Option (List (List UInt8 × Nat))) (name : List UInt8) (pos : Nat) :
    Option (List (List UInt8 × Nat)) :=
  ht.map fun t => if pos > OFFSET_MASK.toNat ∨ name = [] then t else t ++ [(name, pos)]

/-- `dname_encode_pointer`. -/
def dnameEncodePointer (mb : Mbuf) (pos : Nat) : Mbuf :=
  mb.writeU16 (UInt16.ofNat pos ||| (COMP_MASK.toUInt16 <<< 8))

/-- `err |= e`: the only code that arises while encoding is `EINVAL`, so the first error stands
for the bitwise or of them. -/
def orErr : Except Errno Unit → Except Errno Unit → Except Errno Unit
  | .ok (), e => e
  | e, _ => e

/-- The loop of `dns_dname_encode` over the characters of the name, from the one after the
label at `pos` started; each dot closes a label by writing its length at `pos`. -/
def dnameEncodeLoop (start : Nat) (comp : Bool) : List UInt8 → Mbuf →
    Option (List (List UInt8 × Nat)) → Nat → Except Errno Unit × Mbuf × Option (List (List UInt8 × Nat))
  | [], mb, ht, pos =>
    let lablen := mb.pos - pos - 1
    if lablen = 0 then (.ok (), mb, ht)
    else (.ok (), (mb.overwrite pos [UInt8.ofNat lablen]).writeU8 0, ht)
  | c :: rest, mb, ht, pos =>
    let lablen := mb.pos - pos - 1
    if c = 46 then
      if lablen = 0 then (.error .EINVAL, mb, ht)
      else
        let mb := mb.overwrite pos [UInt8.ofNat lablen]
        match dnameLookup ht rest with
        | some p =>
          if comp then (.ok (), dnameEncodePointer mb p, ht)
          else dnameEncodeLoop start comp rest (mb.writeU8 0) ht mb.pos
        | none =>
          dnameEncodeLoop start comp rest (mb.writeU8 0) (dnameAppend ht rest (mb.pos - start))
            mb.pos
    else dnameEncodeLoop start comp rest (mb.writeU8 c) ht pos

/-- `dns_dname_encode(mb, name, ht_dname, start, comp)`. -/
def dnsDnameEncode (mb : Mbuf) (name : List UInt8) (ht : Option (List (List UInt8 × Nat)))
    (start : Nat) (comp : Bool) : Except Errno Unit × Mbuf × Option (List (List UInt8 × Nat)) :=
  match dnameLookup ht name, comp with
  | some p, true => (.ok (), dnameEncodePointer mb p, ht)
  | dn, _ =>
    let ht := if dn.isNone then dnameAppend ht name (mb.pos - start) else ht
    if name = [46] then (.ok (), mb.writeU8 0, ht)
    else dnameEncodeLoop start comp name (mb.writeU8 0) ht mb.pos

/-- `dns_cstr_encode`: the length as a byte, and that many bytes of the string. -/
def dnsCstrEncode (mb : Mbuf) (str : List UInt8) : Mbuf :=
  let len := UInt8.ofNat (cstr str).length
  (mb.writeU8 len).writeMem ((cstr str).take len.toNat)

/-- The `do ... while (dlen > 0)` loop of the TXT case of `dns_rr_encode`, on fuel: `none` when
the loop has not finished within `fuel` passes. -/
def txtEncode (data : List UInt8) : Nat → Mbuf → Nat → Nat → Option Mbuf
  | 0, _, _, _ => none
  | fuel + 1, mb, ptr, dlen =>
    let slen : UInt8 := min (UInt8.ofNat dlen) 0xff
    let mb := (mb.writeU8 slen).writeMem ((data.drop ptr).take slen.toNat)
    if dlen - slen.toNat > 0 then txtEncode data fuel mb (ptr + slen.toNat) (dlen - slen.toNat)
    else some mb

/-- The `switch (rr->type)` of `dns_rr_encode`, each case reading the member of the union its
type selects; `err` is the error so far, which the unknown case overwrites. -/
def rdataEncode (fuel : Nat) (mb : Mbuf) (type : UInt16) (rdata : Rdata)
    (ht : Option (List (List UInt8 × Nat))) (start : Nat) (err : Except Errno Unit) :
    Option (Except Errno Unit × Mbuf × Option (List (List UInt8 × Nat))) :=
  if type = DNS_TYPE_A then
    some (err, mb.writeU32 (match rdata with | .a addr => addr | _ => 0), ht)
  else if type = DNS_TYPE_NS then
    let r := dnsDnameEncode mb (match rdata with | .ns n => n | _ => []) ht start true
    some (orErr err r.1, r.2)
  else if type = DNS_TYPE_CNAME then
    let r := dnsDnameEncode mb (match rdata with | .cname n => n | _ => []) ht start true
    some (orErr err r.1, r.2)
  else if type = DNS_TYPE_SOA then
    match rdata with
    | .soa mname rname serial refresh retry expire ttlmin =>
      let m := dnsDnameEncode mb mname ht start true
      let r := dnsDnameEncode m.2.1 rname m.2.2 start true
      some (orErr (orErr err m.1) r.1, ((((r.2.1.writeU32 serial).writeU32 refresh).writeU32
        retry).writeU32 expire).writeU32 ttlmin, r.2.2)
    | _ =>
      let m := dnsDnameEncode mb [] ht start true
      let r := dnsDnameEncode m.2.1 [] m.2.2 start true
      some (orErr (orErr err m.1) r.1, ((((r.2.1.writeU32 0).writeU32 0).writeU32 0).writeU32
        0).writeU32 0, r.2.2)
  else if type = DNS_TYPE_PTR then
    let r := dnsDnameEncode mb (match rdata with | .ptr n => n | _ => []) ht start true
    some (orErr err r.1, r.2)
  else if type = DNS_TYPE_MX then
    let (pref, exchange) := match rdata with | .mx pref n => (pref, n) | _ => (0, [])
    let r := dnsDnameEncode (mb.writeU16 pref) exchange ht start true
    some (orErr err r.1, r.2)
  else if type = DNS_TYPE_TXT then
    let data := match rdata with | .txt d => d | _ => []
    (txtEncode data fuel mb 0 (cstr data).length).map fun mb => (err, mb, ht)
  else if type = DNS_TYPE_AAAA then
    let addr := match rdata with | .aaaa addr => addr | _ => []
    some (err, mb.writeMem ((addr ++ List.replicate 16 0).take 16), ht)
  else if type = DNS_TYPE_SRV then
    let (pri, weight, port, target) :=
      match rdata with | .srv pri weight port n => (pri, weight, port, n) | _ => (0, 0, 0, [])
    let r := dnsDnameEncode (((mb.writeU16 pri).writeU16 weight).writeU16 port) target ht start
      false
    some (orErr err r.1, r.2)
  else if type = DNS_TYPE_NAPTR then
    match rdata with
    | .naptr order pref flags services regexp replace =>
      let mb := dnsCstrEncode (dnsCstrEncode (dnsCstrEncode
        ((mb.writeU16 order).writeU16 pref) flags) services) regexp
      let r := dnsDnameEncode mb replace ht start false
      some (orErr err r.1, r.2)
    | _ =>
      let mb := dnsCstrEncode (dnsCstrEncode (dnsCstrEncode
        ((mb.writeU16 0).writeU16 0) []) []) []
      let r := dnsDnameEncode mb [] ht start false
      some (orErr err r.1, r.2)
  else some (.error .EINVAL, mb, ht)

/-- `dns_rr_encode(mb, rr, ttl_offs, ht_dname, start)` on fuel for its TXT loop: `none` when
that loop has not finished within `fuel` passes. The rdata length is written back over the
`rdlen` field once the rdata is written. -/
def dnsRrEncode (fuel : Nat) (mb : Mbuf) (rr : Dnsrr) (ttlOffs : Int64)
    (ht : Option (List (List UInt8 × Nat))) (start : Nat) :
    Option (Except Errno Unit × Mbuf × Option (List (List UInt8 × Nat))) := do
  let ttl : UInt32 := (if rr.ttl > ttlOffs then rr.ttl - ttlOffs else 0).toUInt64.toUInt32
  let owner := dnsDnameEncode mb rr.name ht start true
  let mb := (((owner.2.1.writeU16 rr.type).writeU16 rr.dnsclass).writeU32 ttl).writeU16 rr.rdlen
  let startRdata := mb.pos
  let (err, mb, ht) ← rdataEncode fuel mb rr.type rr.rdata owner.2.2 start owner.1
  let len := mb.pos - startRdata
  if len > 0xffff then return (.error .EOVERFLOW, mb, ht)
  let mb := (mb.setPos (startRdata - 2)).writeU16 (UInt16.ofNat len)
  return (err, mb.setPos (mb.pos + len), ht)

/-! ## The TXT loop

The chunk length `min((uint8_t)dlen, 0xff)` is `dlen % 256`, so from 256 bytes on the loop writes
empty chunks forever. -/

theorem toNat_slen (dlen : Nat) : (min (UInt8.ofNat dlen) 0xff).toNat = dlen % 256 := by
  rw [UInt8.toNat_min, UInt8.toNat_ofNat']
  have : dlen % 256 < 256 := Nat.mod_lt _ (by decide)
  simp only [UInt8.reduceToNat]
  omega

theorem txtEncode_stuck (data : List UInt8) : ∀ (fuel : Nat) (mb : Mbuf) (ptr dlen : Nat),
    dlen % 256 = 0 → 0 < dlen → txtEncode data fuel mb ptr dlen = none
  | 0, _, _, _, _, _ => rfl
  | fuel + 1, mb, ptr, dlen, whole, pos => by
    have empty := toNat_slen dlen
    rw [whole] at empty
    simp only [txtEncode, empty, Nat.sub_zero, Nat.add_zero, if_pos pos]
    exact txtEncode_stuck data fuel _ ptr dlen whole pos

theorem txtEncode_long (data : List UInt8) (fuel : Nat) (mb : Mbuf) {dlen : Nat}
    (long : 256 ≤ dlen) : txtEncode data fuel mb 0 dlen = none := by
  cases fuel with
  | zero => rfl
  | succ fuel =>
    have first := toNat_slen dlen
    have left : 0 < dlen - dlen % 256 := by omega
    simp only [txtEncode, first, if_pos left]
    exact txtEncode_stuck data fuel _ _ _ (by omega) left

theorem rdataEncode_txt (fuel : Nat) (mb : Mbuf) (data : List UInt8)
    (ht : Option (List (List UInt8 × Nat))) (start : Nat) (err : Except Errno Unit) :
    rdataEncode fuel mb DNS_TYPE_TXT (.txt data) ht start err =
      (txtEncode data fuel mb 0 (cstr data).length).map fun mb => (err, mb, ht) := by
  rw [rdataEncode.eq_def]
  simp [DNS_TYPE_A, DNS_TYPE_NS, DNS_TYPE_CNAME, DNS_TYPE_SOA, DNS_TYPE_PTR, DNS_TYPE_MX, DNS_TYPE_TXT]

/-- A TXT record whose data is 256 bytes or longer is never encoded: the record's loop runs
without end whatever the fuel. -/
theorem dns_rr_encode_txt_diverges (fuel : Nat) (mb : Mbuf) (rr : Dnsrr) (ttlOffs : Int64)
    (ht : Option (List (List UInt8 × Nat))) (start : Nat) (data : List UInt8)
    (txt : rr.type = DNS_TYPE_TXT) (isTxt : rr.rdata = .txt data) (long : 256 ≤ (cstr data).length) :
    dnsRrEncode fuel mb rr ttlOffs ht start = none := by
  simp [dnsRrEncode, txt, isTxt, rdataEncode_txt, txtEncode_long data fuel _ long]

theorem dns_rr_encode_txt_diverges_256 :
    (⟨[], DNS_TYPE_TXT, 1, 60, 0, .txt (List.replicate 256 97)⟩ : Dnsrr).type = DNS_TYPE_TXT ∧
      256 ≤ (cstr (List.replicate 256 97)).length ∧
      dnsRrEncode 1000 (Mbuf.alloc 0) ⟨[], DNS_TYPE_TXT, 1, 60, 0, .txt (List.replicate 256 97)⟩ 0
        (some []) 0 = none :=
  ⟨rfl, by decide +kernel,
    dns_rr_encode_txt_diverges 1000 (Mbuf.alloc 0) _ 0 (some []) 0 _ rfl rfl (by decide +kernel)⟩

/-! ## Framing

Only the A, AAAA, TXT and unknown cases are held to `rdlen`. -/

/-- The ten bytes after the owner name: type, class, TTL and `rdlen`, in network order. -/
def rrFixed (type dnsclass : UInt16) (ttl : UInt32) (rdlen : UInt16) : List UInt8 :=
  netBytes 2 type.toNat ++ netBytes 2 dnsclass.toNat ++ netBytes 4 ttl.toNat ++
    netBytes 2 rdlen.toNat

section Framing

open Mbuf

theorem dnsRrDecode_fixed {mb mb1 : Mbuf} {start : Nat} {name : List UInt8}
    {type dnsclass rdlen : UInt16} {ttl : UInt32} {rdata : List UInt8}
    (owner : dnsDnameDecode mb start = .ok (name, mb1))
    (h : Frame mb1 mb1.pos (rrFixed type dnsclass ttl rdlen ++ rdata))
    (room : rdlen.toNat ≤ rdata.length) :
    dnsRrDecode mb start = (rdataDecode (mb1.advance 10) start type rdlen).map fun r =>
      (⟨name, type, dnsclass, ttl.toUInt64.toInt64, rdlen, r.1⟩, r.2) := by
  have ends := h.ends
  simp only [rrFixed, List.length_append, length_netBytes] at ends
  have t := @Frame.readU16_at mb1 mb1.pos [] _ type
    (by simpa [rrFixed, List.append_assoc] using h) (by simp)
  have c := @Frame.readU16_at (mb1.advance 2) mb1.pos (netBytes 2 type.toNat) _ dnsclass
    (by simpa [rrFixed, List.append_assoc] using h) (by simp)
  have l := @Frame.readU32_at (mb1.advance 4) mb1.pos
    (netBytes 2 type.toNat ++ netBytes 2 dnsclass.toNat) _ ttl
    (by simpa [rrFixed, List.append_assoc] using h) (by simp)
  have r := @Frame.readU16_at (mb1.advance 8) mb1.pos
    (netBytes 2 type.toNat ++ netBytes 2 dnsclass.toNat ++ netBytes 4 ttl.toNat) _ rdlen
    (by simpa [rrFixed, List.append_assoc] using h) (by simp)
  have fixed : ¬ mb1.getLeft < 10 := by simp only [getLeft]; omega
  have data : ¬ (mb1.advance 10).getLeft < rdlen.toNat := by
    simp only [getLeft, advance_pos, advance_end]; omega
  simp only [advance_advance, Nat.reduceAdd] at c l r
  simp only [dnsRrDecode, owner, bind, Except.bind, fixed, t, c, l, r, data, if_false]
  cases rdataDecode (mb1.advance 10) start type rdlen <;> rfl

theorem rdataDecode_ns (mb : Mbuf) (start : Nat) (rdlen : UInt16) :
    rdataDecode mb start DNS_TYPE_NS rdlen = (dnsDnameDecode mb start).map fun r => (.ns r.1, r.2) := by
  simp [rdataDecode, DNS_TYPE_A, DNS_TYPE_NS]

/-- An NS record whose rdata is the root name with `junk` after it, `rdlen` counting both, is
accepted; decoding stops right after the name, before the end of the rdata. -/
theorem dns_rr_decode_ns_short (mb : Mbuf) (start : Nat) (dnsclass rdlen : UInt16) (ttl : UInt32)
    (junk rest : List UInt8) (len : rdlen.toNat = 1 + junk.length) (extra : junk ≠ [])
    (h : Frame mb mb.pos ([0] ++ rrFixed DNS_TYPE_NS dnsclass ttl rdlen ++ [0] ++ junk ++ rest)) :
    dnsRrDecode mb start =
        .ok (⟨[], DNS_TYPE_NS, dnsclass, ttl.toUInt64.toInt64, rdlen, .ns []⟩,
          mb.setPos (mb.pos + 12)) ∧
      mb.pos + 12 < mb.pos + 11 + rdlen.toNat := by
  have length : (rrFixed DNS_TYPE_NS dnsclass ttl rdlen).length = 10 := by simp [rrFixed]
  have whole : Frame mb mb.pos ([] ++ [0] ++ (rrFixed DNS_TYPE_NS dnsclass ttl rdlen ++
      ([0] ++ (junk ++ rest)))) := by simpa only [List.append_assoc, List.nil_append] using h
  have owner : dnsDnameDecode mb start = .ok ([], mb.setPos (mb.pos + 1)) :=
    dnsDnameDecode_root (by simpa using whole.lt_end) (by simpa using whole.getElem!_at)
  have after := @Frame.suffix _ _ ([] ++ [0]) _ whole
  have fixed : Frame (mb.setPos (mb.pos + 1)) (mb.setPos (mb.pos + 1)).pos
      (rrFixed DNS_TYPE_NS dnsclass ttl rdlen ++ ([0] ++ (junk ++ rest))) :=
    (frame_setPos _).mpr (by
      simpa only [List.nil_append, List.length_singleton, setPos_pos] using after)
  have rdataAt : Frame mb mb.pos (([0] ++ rrFixed DNS_TYPE_NS dnsclass ttl rdlen) ++ [0] ++
      (junk ++ rest)) := by simpa only [List.append_assoc] using h
  have target : dnsDnameDecode ((mb.setPos (mb.pos + 1)).advance 10) start =
      .ok ([], ((mb.setPos (mb.pos + 1)).advance 10).setPos (mb.pos + 1 + 10 + 1)) :=
    dnsDnameDecode_root (by simpa [length, Nat.add_assoc] using rdataAt.lt_end)
      (by simpa [length, Nat.add_assoc] using rdataAt.getElem!_at)
  have more : 0 < junk.length := List.length_pos_of_ne_nil extra
  refine ⟨?_, by omega⟩
  rw [dnsRrDecode_fixed owner fixed (by simp only [List.length_append, List.length_singleton]; omega),
    rdataDecode_ns, target]
  simp [Nat.add_assoc, Except.map]

theorem dns_rr_decode_ns_short_rdlen3 :
    (3 : UInt16).toNat = 1 + [0xff, 0xff].length ∧ ([0xff, 0xff] : List UInt8) ≠ [] ∧
      dnsRrDecode ⟨[0, 0, 2, 0, 1, 0, 0, 0, 60, 0, 3, 0, 0xff, 0xff], 0, 14⟩ 0 =
        .ok (⟨[], DNS_TYPE_NS, 1, (60 : UInt32).toUInt64.toInt64, 3, .ns []⟩,
          ⟨[0, 0, 2, 0, 1, 0, 0, 0, 60, 0, 3, 0, 0xff, 0xff], 12, 14⟩) :=
  ⟨by decide, by decide,
    (dns_rr_decode_ns_short ⟨[0, 0, 2, 0, 1, 0, 0, 0, 60, 0, 3, 0, 0xff, 0xff], 0, 14⟩ 0 1 3 60
      [0xff, 0xff] [] (by decide) (by decide) (by
        rw [show [0] ++ rrFixed DNS_TYPE_NS 1 60 3 ++ [0] ++ [0xff, 0xff] ++ [] =
          [0, 0, 2, 0, 1, 0, 0, 0, 60, 0, 3, 0, 0xff, 0xff] by decide]
        exact frame_self _)).1⟩

end Framing

end Libre.Dns
