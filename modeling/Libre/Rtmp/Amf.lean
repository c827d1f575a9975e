import Libre.Mbuf.Buffer
import Libre.Odict.Compare

set_option autoImplicit false

/-!
# AMF0 encoding and decoding

`rtmp_amf_vencode_object` (`rtmp/amf_enc.c`), `amf_decode_object`, `amf_decode_value` and
`rtmp_amf_decode` (`rtmp/amf_dec.c`), and the body `rtmp_amf_command` sends. The `va_list` is a
list of `Arg`; a `va_arg` of a missing or mistyped argument, undefined in C, is `EINVAL`. Over an
AMF value as a tree (`AmfValue`), the decoder reads back what the encoder writes.
-/

namespace Libre.Amf

open BigEndian Mbuf Libre.Odict

def RTMP_AMF_TYPE_ROOT : Int := -1
def RTMP_AMF_TYPE_NUMBER : Nat := 0x00
def RTMP_AMF_TYPE_BOOLEAN : Nat := 0x01
def RTMP_AMF_TYPE_STRING : Nat := 0x02
def RTMP_AMF_TYPE_OBJECT : Nat := 0x03
def RTMP_AMF_TYPE_NULL : Nat := 0x05
def RTMP_AMF_TYPE_ECMA_ARRAY : Nat := 0x08
def RTMP_AMF_TYPE_OBJECT_END : Nat := 0x09
def RTMP_AMF_TYPE_STRICT_ARRAY : Nat := 0x0a

/-! ## The encoder -/

-- A `va_arg` of the encoder: an `int`, a `const char *` (`none` for `NULL`) or a `double`, by its bits.
inductive Arg
  | int (v : Int)
  | str (s : Option (List UInt8))
  | double (bits : UInt64)
  deriving DecidableEq, Repr

-- `va_arg(*ap, int)`, with the arguments left, one fewer
def vaInt : (ap : List Arg) → Except Errno (Int × {rest : List Arg // rest.length < ap.length})
  | .int v :: ap => .ok (v, ⟨ap, by simp⟩)
  | _ => .error .EINVAL

-- `va_arg(*ap, const char *)`
def vaStr : (ap : List Arg) →
    Except Errno (Option (List UInt8) × {rest : List Arg // rest.length < ap.length})
  | .str s :: ap => .ok (s, ⟨ap, by simp⟩)
  | _ => .error .EINVAL

-- `va_arg(*ap, double)`
def vaDouble : (ap : List Arg) → Except Errno (UInt64 × {rest : List Arg // rest.length < ap.length})
  | .double bits :: ap => .ok (bits, ⟨ap, by simp⟩)
  | _ => .error .EINVAL

-- `rtmp_amf_encode_key(mb, key)`
def rtmpAmfEncodeKey (key : List UInt8) : Except Errno (List UInt8) :=
  if key.length > 65535 then .error .EOVERFLOW
  else .ok (netBytes 2 key.length ++ key)

-- `rtmp_amf_encode_number(mb, val)`: the bits in network order
def rtmpAmfEncodeNumber (bits : UInt64) : List UInt8 :=
  [UInt8.ofNat RTMP_AMF_TYPE_NUMBER] ++ netBytes 8 bits.toNat

-- `rtmp_amf_encode_boolean(mb, boolean)`
def rtmpAmfEncodeBoolean (b : Bool) : List UInt8 :=
  [UInt8.ofNat RTMP_AMF_TYPE_BOOLEAN, if b then 1 else 0]

-- `rtmp_amf_encode_string(mb, str)`
def rtmpAmfEncodeString (str : Option (List UInt8)) : Except Errno (List UInt8) :=
  match str with
  | none => .error .EINVAL
  | some s =>
    if s.length > 65535 then .error .EOVERFLOW
    else .ok ([UInt8.ofNat RTMP_AMF_TYPE_STRING] ++ netBytes 2 s.length ++ s)

-- `rtmp_amf_encode_null(mb)`
def rtmpAmfEncodeNull : List UInt8 := [UInt8.ofNat RTMP_AMF_TYPE_NULL]

-- `container_has_key(type)`
def containerHasKey (type : Int) : Bool :=
  type = RTMP_AMF_TYPE_OBJECT ∨ type = RTMP_AMF_TYPE_ECMA_ARRAY

-- The start of a container: its type, and for an array the count as a 32-bit word; the root
-- writes nothing.
def containerStart (container : Int) (propc : Nat) : Except Errno (List UInt8) :=
  if container = RTMP_AMF_TYPE_OBJECT then .ok [UInt8.ofNat RTMP_AMF_TYPE_OBJECT]
  else if container = RTMP_AMF_TYPE_ECMA_ARRAY ∨ container = RTMP_AMF_TYPE_STRICT_ARRAY then
    .ok ([UInt8.ofInt container] ++ netBytes 4 propc)
  else if container = RTMP_AMF_TYPE_ROOT then .ok []
  else .error .ENOTSUP

-- `rtmp_amf_encode_object_end(mb)`: an empty key and the end marker
def objectEnd : List UInt8 := netBytes 2 0 ++ [UInt8.ofNat RTMP_AMF_TYPE_OBJECT_END]

-- The key of a property inside an object or an ECMA array.
def encodeKeyArg (encode_key : Bool) (ap : List Arg) :
    Except Errno (List UInt8 × {rest : List Arg // rest.length ≤ ap.length}) :=
  if encode_key then
    match vaStr ap with
    | .error e => .error e
    | .ok (none, _) => .error .EINVAL
    | .ok (some key, ⟨rest, lt⟩) =>
      match rtmpAmfEncodeKey key with
      | .error e => .error e
      | .ok bytes => .ok (bytes, ⟨rest, lt.le⟩)
  else .ok ([], ⟨ap, le_refl _⟩)

-- An `int` sub-count passed as the `unsigned` count of the nested call.
def unsignedOf (v : Int) : Nat := (v % 4294967296).toNat

mutual

-- `rtmp_amf_vencode_object(mb, container, propc, ap)`: the bytes written and the arguments left.
def rtmpAmfVencodeObject (container : Int) (propc : Nat) (ap : List Arg) :
    Except Errno (List UInt8 × {rest : List Arg // rest.length < ap.length}) :=
  if none : propc = 0 then .error .EINVAL
  else
    match containerStart container propc with
    | .error e => .error e
    | .ok head =>
      match encodeProps (containerHasKey container) propc ap with
      | .error e => .error e
      | .ok (body, ⟨rest, used⟩) =>
        .ok (head ++ body ++ (if containerHasKey container then objectEnd else []),
          ⟨rest, by omega⟩)
termination_by 2 * ap.length + 1

-- The loop over the `propc` properties, counted down.
def encodeProps (encode_key : Bool) (n : Nat) (ap : List Arg) :
    Except Errno (List UInt8 × {rest : List Arg // rest.length + n ≤ ap.length}) :=
  match n with
  | 0 => .ok ([], ⟨ap, by simp⟩)
  | n + 1 =>
    match vaInt ap with
    | .error e => .error e
    | .ok (type, ⟨ap1, lt1⟩) =>
      match encodeKeyArg encode_key ap1 with
      | .error e => .error e
      | .ok (keyBytes, ⟨ap2, le2⟩) =>
        match encodeProp type ap2 with
        | .error e => .error e
        | .ok (valueBytes, ⟨ap3, le3⟩) =>
          match encodeProps encode_key n ap3 with
          | .error e => .error e
          | .ok (more, ⟨rest, le⟩) => .ok (keyBytes ++ valueBytes ++ more, ⟨rest, by omega⟩)
termination_by 2 * ap.length
decreasing_by all_goals omega

-- The `switch (type)` of one property's value.
def encodeProp (type : Int) (ap : List Arg) :
    Except Errno (List UInt8 × {rest : List Arg // rest.length ≤ ap.length}) :=
  if type = RTMP_AMF_TYPE_NUMBER then
    match vaDouble ap with
    | .error e => .error e
    | .ok (bits, ⟨rest, lt⟩) => .ok (rtmpAmfEncodeNumber bits, ⟨rest, lt.le⟩)
  else if type = RTMP_AMF_TYPE_BOOLEAN then
    match vaInt ap with
    | .error e => .error e
    | .ok (b, ⟨rest, lt⟩) => .ok (rtmpAmfEncodeBoolean (b ≠ 0), ⟨rest, lt.le⟩)
  else if type = RTMP_AMF_TYPE_STRING then
    match vaStr ap with
    | .error e => .error e
    | .ok (str, ⟨rest, lt⟩) =>
      match rtmpAmfEncodeString str with
      | .error e => .error e
      | .ok bytes => .ok (bytes, ⟨rest, lt.le⟩)
  else if type = RTMP_AMF_TYPE_NULL then .ok (rtmpAmfEncodeNull, ⟨ap, le_refl _⟩)
  else if type = RTMP_AMF_TYPE_OBJECT ∨ type = RTMP_AMF_TYPE_ECMA_ARRAY ∨
      type = RTMP_AMF_TYPE_STRICT_ARRAY then
    -- a container: its sub-count, then its properties, by recursion
    match vaInt ap with
    | .error e => .error e
    | .ok (subcount, ⟨ap1, lt1⟩) =>
      match rtmpAmfVencodeObject type (unsignedOf subcount) ap1 with
      | .error e => .error e
      | .ok (bytes, ⟨rest, lt⟩) => .ok (bytes, ⟨rest, by omega⟩)
  else .error .ENOTSUP
termination_by 2 * ap.length
decreasing_by omega

end

/-! ## The decoder -/

abbrev Dict := List (String × Value)

-- `str_dup` of what `mbuf_strdup` read: the bytes before the first NUL, one character each.
def cString (bytes : List UInt8) : String :=
  String.ofList ((bytes.takeWhile (· ≠ 0)).map fun b => Char.ofNat b.toNat)

theorem getLeft_readU8_lt {mb : Mbuf} (enough : ¬ mb.getLeft < 1) : mb.readU8.2.getLeft < mb.getLeft := by
  rw [readU8_snd_of_le mb (by omega)]
  simp only [getLeft, advance_pos, advance_end] at enough ⊢
  omega

theorem getLeft_readU16_lt {mb : Mbuf} (enough : ¬ mb.getLeft < 2) :
    mb.readU16.2.getLeft < mb.getLeft := by
  rw [readU16_snd_of_le mb (by omega)]
  simp only [getLeft, advance_pos, advance_end] at enough ⊢
  omega

theorem getLeft_readU32_le (mb : Mbuf) : mb.readU32.2.getLeft ≤ mb.getLeft :=
  (readOn_readU32 mb).getLeft_le

theorem getLeft_readU64_le (mb : Mbuf) : mb.readU64.2.getLeft ≤ mb.getLeft :=
  (readOn_readNet mb 8).getLeft_le

theorem getLeft_readMem_le {mb mb' : Mbuf} {n : Nat} {bytes : List UInt8}
    (h : mb.readMem n = .ok (bytes, mb')) : mb'.getLeft ≤ mb.getLeft :=
  (readOn_readMem h).getLeft_le

mutual

-- `amf_decode_object(dict, mb)`: properties until the empty key and the end marker, or until
-- the buffer ends.
def amfDecodeObject (dict : Dict) (mb : Mbuf) :
    Except Errno {r : Dict × Mbuf // r.2.getLeft ≤ mb.getLeft} :=
  if left : mb.getLeft = 0 then .ok ⟨(dict, mb), le_refl _⟩
  else if short : mb.getLeft < 2 then .error .ENODATA
  else
    -- the key's length; an empty key is followed by the end marker
    if mb.readU16.1 = 0 then
      if mb.readU16.2.getLeft < 1 then .error .ENODATA
      else if mb.readU16.2.readU8.1.toNat = RTMP_AMF_TYPE_OBJECT_END then
        .ok ⟨(dict, mb.readU16.2.readU8.2), by
          have := getLeft_readU16_lt short
          have := (readOn_readU8 mb.readU16.2).getLeft_le
          dsimp only
          omega⟩
      else .error .EBADMSG
    else if mb.readU16.2.getLeft < mb.readU16.1.toNat then .error .ENODATA
    else
      match keyed : mb.readU16.2.readMem mb.readU16.1.toNat with
      | .error e => .error e
      | .ok (key, mb1) =>
        match amfDecodeValue dict (cString key) mb1 with
        | .error e => .error e
        | .ok ⟨(dict, mb2), lt2⟩ =>
          match amfDecodeObject dict mb2 with
          | .error e => .error e
          | .ok ⟨r, le⟩ => .ok ⟨r, by
              have := getLeft_readU16_lt short
              have := getLeft_readMem_le keyed
              dsimp only at lt2
              omega⟩
termination_by 2 * mb.getLeft
decreasing_by
  all_goals
    have := getLeft_readU16_lt short
    have := getLeft_readMem_le keyed
    try dsimp only at lt2
    omega

-- `amf_decode_value(dict, key, mb)`: one value by its type byte, added to `dict` under `key`.
def amfDecodeValue (dict : Dict) (key : String) (mb : Mbuf) :
    Except Errno {r : Dict × Mbuf // r.2.getLeft < mb.getLeft} :=
  if short : mb.getLeft < 1 then .error .ENODATA
  else
    have took : mb.readU8.2.getLeft < mb.getLeft := getLeft_readU8_lt short
    if mb.readU8.1.toNat = RTMP_AMF_TYPE_NUMBER then
      if mb.readU8.2.getLeft < 8 then .error .ENODATA
      else
        .ok ⟨(dict ++ [(key, .double (Float.ofBits mb.readU8.2.readU64.1))], mb.readU8.2.readU64.2), by
          have := getLeft_readU64_le mb.readU8.2
          dsimp only
          omega⟩
    else if mb.readU8.1.toNat = RTMP_AMF_TYPE_BOOLEAN then
      if mb.readU8.2.getLeft < 1 then .error .ENODATA
      else
        .ok ⟨(dict ++ [(key, .bool (mb.readU8.2.readU8.1 ≠ 0))], mb.readU8.2.readU8.2), by
          have := (readOn_readU8 mb.readU8.2).getLeft_le
          dsimp only
          omega⟩
    else if mb.readU8.1.toNat = RTMP_AMF_TYPE_STRING then
      if lenShort : mb.readU8.2.getLeft < 2 then .error .ENODATA
      else if mb.readU8.2.readU16.2.getLeft < mb.readU8.2.readU16.1.toNat then .error .ENODATA
      else
        match read : mb.readU8.2.readU16.2.readMem mb.readU8.2.readU16.1.toNat with
        | .error e => .error e
        | .ok (str, mb') =>
          .ok ⟨(dict ++ [(key, .string (cString str))], mb'), by
            have := getLeft_readU16_lt lenShort
            have := getLeft_readMem_le read
            dsimp only
            omega⟩
    else if mb.readU8.1.toNat = RTMP_AMF_TYPE_NULL then
      .ok ⟨(dict ++ [(key, .null)], mb.readU8.2), took⟩
    else if mb.readU8.1.toNat = RTMP_AMF_TYPE_ECMA_ARRAY then
      -- the array length is read and ignored; the properties follow as in an object
      if mb.readU8.2.getLeft < 4 then .error .ENODATA
      else
        match amfDecodeObject [] mb.readU8.2.readU32.2 with
        | .error e => .error e
        | .ok ⟨(object, mb'), le⟩ =>
          .ok ⟨(dict ++ [(key, .object object)], mb'), by
            have := getLeft_readU32_le mb.readU8.2
            dsimp only at le ⊢
            omega⟩
    else if mb.readU8.1.toNat = RTMP_AMF_TYPE_OBJECT then
      match amfDecodeObject [] mb.readU8.2 with
      | .error e => .error e
      | .ok ⟨(object, mb'), le⟩ =>
        .ok ⟨(dict ++ [(key, .object object)], mb'), by
          dsimp only at le ⊢
          omega⟩
    else if mb.readU8.1.toNat = RTMP_AMF_TYPE_STRICT_ARRAY then
      if mb.readU8.2.getLeft < 4 then .error .ENODATA
      else if mb.readU8.2.readU32.1 = 0 ∨ mb.readU8.2.readU32.1.toNat > 65536 then .error .EPROTO
      else
        match arrayLoop [] 0 mb.readU8.2.readU32.1.toNat mb.readU8.2.readU32.2 with
        | .error e => .error e
        | .ok ⟨(object, mb'), le⟩ =>
          .ok ⟨(dict ++ [(key, .array object)], mb'), by
            have := getLeft_readU32_le mb.readU8.2
            dsimp only at le ⊢
            omega⟩
    else .error .EPROTO
termination_by 2 * mb.getLeft
decreasing_by
  all_goals
    have := getLeft_readU32_le mb.readU8.2
    omega

-- The `for` loop of a strict array: the elements keyed by their index.
def arrayLoop (dict : Dict) (i n : Nat) (mb : Mbuf) :
    Except Errno {r : Dict × Mbuf // r.2.getLeft ≤ mb.getLeft} :=
  if i < n then
    match amfDecodeValue dict (toString i) mb with
    | .error e => .error e
    | .ok ⟨(dict, mb'), lt⟩ =>
      match arrayLoop dict (i + 1) n mb' with
      | .error e => .error e
      | .ok ⟨r, le⟩ => .ok ⟨r, by
          dsimp only at lt
          omega⟩
  else .ok ⟨(dict, mb), le_refl _⟩
termination_by 2 * mb.getLeft + 1
decreasing_by
  all_goals
    try dsimp only at lt
    omega

end

-- The loop of `rtmp_amf_decode`: the values at the root, keyed by their index, until the buffer ends.
def decodeRoot (msg : Dict) (ix : Nat) (mb : Mbuf) : Except Errno Dict :=
  if mb.getLeft > 0 then
    match amfDecodeValue msg (toString ix) mb with
    | .error e => .error e
    | .ok ⟨(msg, mb'), lt⟩ => decodeRoot msg (ix + 1) mb'
  else .ok msg
termination_by mb.getLeft
decreasing_by
  dsimp only at lt
  omega

-- `rtmp_amf_decode(&msg, mb)`
def rtmpAmfDecode (mb : Mbuf) : Except Errno Dict := decodeRoot [] 0 mb

/-! ## Commands -/

-- The body `rtmp_amf_command(conn, stream_id, command, body_propc, ...)` sends: the command's name,
-- then the `body_propc` values at the root when there are any.
def rtmpAmfCommand (command : Option (List UInt8)) (body_propc : Nat) (ap : List Arg) :
    Except Errno (List UInt8) :=
  match command with
  | none => .error .EINVAL
  | some command =>
    match rtmpAmfEncodeString (some command) with
    | .error e => .error e
    | .ok name =>
      if body_propc = 0 then .ok name
      else
        match rtmpAmfVencodeObject RTMP_AMF_TYPE_ROOT body_propc ap with
        | .error e => .error e
        | .ok (body, _) => .ok (name ++ body)

/-! ## AMF values -/

-- A value as a caller describes it: a number by its 64 bits, a key or a string by its bytes.
inductive AmfValue
  | number (bits : UInt64)
  | boolean (b : Bool)
  | string (s : List UInt8)
  | null
  | object (props : List (List UInt8 × AmfValue))
  | ecmaArray (props : List (List UInt8 × AmfValue))
  | strictArray (elems : List AmfValue)

-- The bytes of a string as the characters of a `String`, one each.
def latin1 (bytes : List UInt8) : String := String.ofList (bytes.map fun b => Char.ofNat b.toNat)

def AmfValue.type : AmfValue → Nat
  | .number _ => RTMP_AMF_TYPE_NUMBER
  | .boolean _ => RTMP_AMF_TYPE_BOOLEAN
  | .string _ => RTMP_AMF_TYPE_STRING
  | .null => RTMP_AMF_TYPE_NULL
  | .object _ => RTMP_AMF_TYPE_OBJECT
  | .ecmaArray _ => RTMP_AMF_TYPE_ECMA_ARRAY
  | .strictArray _ => RTMP_AMF_TYPE_STRICT_ARRAY

mutual

-- The arguments after the type (and the key): the value, or a container's count and properties.
def valueArgs : AmfValue → List Arg
  | .number bits => [.double bits]
  | .boolean b => [.int (if b then 1 else 0)]
  | .string s => [.str (some s)]
  | .null => []
  | .object props => [.int props.length] ++ propsArgs props
  | .ecmaArray props => [.int props.length] ++ propsArgs props
  | .strictArray elems => [.int elems.length] ++ elemsArgs elems

def propsArgs : List (List UInt8 × AmfValue) → List Arg
  | [] => []
  | (key, v) :: props => [.int v.type, .str (some key)] ++ valueArgs v ++ propsArgs props

def elemsArgs : List AmfValue → List Arg
  | [] => []
  | v :: elems => [.int v.type] ++ valueArgs v ++ elemsArgs elems

end

mutual

def valueBytes : AmfValue → List UInt8
  | .number bits => rtmpAmfEncodeNumber bits
  | .boolean b => rtmpAmfEncodeBoolean b
  | .string s => [UInt8.ofNat RTMP_AMF_TYPE_STRING] ++ netBytes 2 s.length ++ s
  | .null => rtmpAmfEncodeNull
  | .object props => [UInt8.ofNat RTMP_AMF_TYPE_OBJECT] ++ propsBytes props ++ objectEnd
  | .ecmaArray props =>
    [UInt8.ofNat RTMP_AMF_TYPE_ECMA_ARRAY] ++ netBytes 4 props.length ++ propsBytes props ++ objectEnd
  | .strictArray elems =>
    [UInt8.ofNat RTMP_AMF_TYPE_STRICT_ARRAY] ++ netBytes 4 elems.length ++ elemsBytes elems

def propsBytes : List (List UInt8 × AmfValue) → List UInt8
  | [] => []
  | (key, v) :: props => netBytes 2 key.length ++ key ++ valueBytes v ++ propsBytes props

def elemsBytes : List AmfValue → List UInt8
  | [] => []
  | v :: elems => valueBytes v ++ elemsBytes elems

end

mutual

-- The odict value of a value: an ECMA array is an object, a strict array keyed by index.
def toOdict : AmfValue → Value
  | .number bits => .double (Float.ofBits bits)
  | .boolean b => .bool b
  | .string s => .string (latin1 s)
  | .null => .null
  | .object props => .object (propsOdict props)
  | .ecmaArray props => .object (propsOdict props)
  | .strictArray elems => .array (elemsOdict 0 elems)

def propsOdict : List (List UInt8 × AmfValue) → Dict
  | [] => []
  | (key, v) :: props => (latin1 key, toOdict v) :: propsOdict props

def elemsOdict (i : Nat) : List AmfValue → Dict
  | [] => []
  | v :: elems => (toString i, toOdict v) :: elemsOdict (i + 1) elems

end

def NulFree (bytes : List UInt8) : Bool := bytes.all (· ≠ 0)

mutual

-- What the round trip needs: strings and keys without NUL and within their 16-bit lengths, keys not
-- empty, containers not empty, counts that fit the `int` sub-count, and strict arrays of at most
-- 65536 elements, as the decoder takes them.
def AmfValue.Wf : AmfValue → Bool
  | .number _ | .boolean _ | .null => true
  | .string s => NulFree s && s.length ≤ 65535
  | .object props | .ecmaArray props =>
    props ≠ [] && props.length < 2 ^ 31 && propsWf props
  | .strictArray elems => elems ≠ [] && elems.length ≤ 65536 && elemsWf elems

def propsWf : List (List UInt8 × AmfValue) → Bool
  | [] => true
  | (key, v) :: props => key ≠ [] && NulFree key && key.length ≤ 65535 && v.Wf && propsWf props

def elemsWf : List AmfValue → Bool
  | [] => true
  | v :: elems => v.Wf && elemsWf elems

end

/-! ## The encoder writes the bytes of a value -/

theorem unsignedOf_natCast {n : Nat} (small : n < 2 ^ 31) : unsignedOf n = n := by
  unfold unsignedOf
  omega

theorem encodeKeyArg_true {key : List UInt8} (ap : List Arg) (fits : key.length ≤ 65535) :
    ∃ h, encodeKeyArg true (.str (some key) :: ap) = .ok (netBytes 2 key.length ++ key, ⟨ap, h⟩) := by
  refine ⟨by simp, ?_⟩
  simp [encodeKeyArg, vaStr, rtmpAmfEncodeKey, Nat.not_lt.mpr fits]

theorem encodeProps_succ {encode_key : Bool} {n : Nat} {type : Int} {ap ap2 ap3 rest : List Arg}
    {keyBytes bytes more : List UInt8} {le2 : ap2.length ≤ ap.length}
    (keyed : encodeKeyArg encode_key ap = .ok (keyBytes, ⟨ap2, le2⟩))
    {le3 : ap3.length ≤ ap2.length} (value : encodeProp type ap2 = .ok (bytes, ⟨ap3, le3⟩))
    {le : rest.length + n ≤ ap3.length}
    (others : encodeProps encode_key n ap3 = .ok (more, ⟨rest, le⟩)) :
    ∃ h, encodeProps encode_key (n + 1) (.int type :: ap) =
      .ok (keyBytes ++ bytes ++ more, ⟨rest, h⟩) := by
  refine ⟨by simp only [List.length_cons]; omega, ?_⟩
  rw [encodeProps]
  simp only [vaInt, keyed, value, others]

theorem rtmpAmfVencodeObject_eq {container : Int} {n : Nat} {head body : List UInt8}
    {ap rest : List Arg} (nonempty : n ≠ 0) (start : containerStart container n = .ok head)
    {le : rest.length + n ≤ ap.length}
    (props : encodeProps (containerHasKey container) n ap = .ok (body, ⟨rest, le⟩)) :
    ∃ h, rtmpAmfVencodeObject container n ap =
      .ok (head ++ body ++ (if containerHasKey container then objectEnd else []), ⟨rest, h⟩) := by
  refine ⟨by omega, ?_⟩
  rw [rtmpAmfVencodeObject]
  simp only [nonempty, dite_false, start, props]

theorem containerStart_object (n : Nat) :
    containerStart RTMP_AMF_TYPE_OBJECT n = .ok [UInt8.ofNat RTMP_AMF_TYPE_OBJECT] := by
  simp [containerStart]

theorem containerStart_array {type : Nat} (array : type = RTMP_AMF_TYPE_ECMA_ARRAY ∨
    type = RTMP_AMF_TYPE_STRICT_ARRAY) (n : Nat) :
    containerStart type n = .ok ([UInt8.ofNat type] ++ netBytes 4 n) := by
  rcases array with rfl | rfl <;> simp [containerStart, RTMP_AMF_TYPE_OBJECT, RTMP_AMF_TYPE_ECMA_ARRAY,
    RTMP_AMF_TYPE_STRICT_ARRAY] <;> rfl

theorem encodeProp_container {type : Nat} (container : type = RTMP_AMF_TYPE_OBJECT ∨
    type = RTMP_AMF_TYPE_ECMA_ARRAY ∨ type = RTMP_AMF_TYPE_STRICT_ARRAY) {sub : Nat}
    {ap rest : List Arg} {bytes : List UInt8} {lt : rest.length < ap.length} (small : sub < 2 ^ 31)
    (nested : rtmpAmfVencodeObject type sub ap = .ok (bytes, ⟨rest, lt⟩)) :
    ∃ h, encodeProp type (.int sub :: ap) = .ok (bytes, ⟨rest, h⟩) := by
  refine ⟨by simp only [List.length_cons]; omega, ?_⟩
  rw [encodeProp, if_neg (by rcases container with rfl | rfl | rfl <;> decide),
    if_neg (by rcases container with rfl | rfl | rfl <;> decide),
    if_neg (by rcases container with rfl | rfl | rfl <;> decide),
    if_neg (by rcases container with rfl | rfl | rfl <;> decide),
    if_pos (by rcases container with rfl | rfl | rfl <;> simp)]
  simp only [vaInt, unsignedOf_natCast small, nested]

mutual

theorem encodeProp_valueArgs : ∀ (v : AmfValue) (more : List Arg), v.Wf = true →
    ∃ h, encodeProp v.type (valueArgs v ++ more) = .ok (valueBytes v, ⟨more, h⟩)
  | .number bits, more, _ => by
    refine ⟨by simp [valueArgs], ?_⟩
    rw [encodeProp]
    simp [AmfValue.type, valueArgs, vaDouble, valueBytes]
  | .boolean b, more, _ => by
    refine ⟨by simp [valueArgs], ?_⟩
    rw [encodeProp]
    cases b <;> simp [AmfValue.type, valueArgs, vaInt, valueBytes, RTMP_AMF_TYPE_NUMBER,
      RTMP_AMF_TYPE_BOOLEAN]
  | .string s, more, wf => by
    simp only [AmfValue.Wf, Bool.and_eq_true, decide_eq_true_eq] at wf
    refine ⟨by simp [valueArgs], ?_⟩
    rw [encodeProp]
    simp [AmfValue.type, valueArgs, vaStr, valueBytes, rtmpAmfEncodeString, RTMP_AMF_TYPE_NUMBER,
      RTMP_AMF_TYPE_BOOLEAN, RTMP_AMF_TYPE_STRING, Nat.not_lt.mpr wf.2]
  | .null, more, _ => by
    refine ⟨by simp [valueArgs], ?_⟩
    rw [encodeProp]
    simp [AmfValue.type, valueArgs, valueBytes, RTMP_AMF_TYPE_NUMBER, RTMP_AMF_TYPE_BOOLEAN,
      RTMP_AMF_TYPE_STRING, RTMP_AMF_TYPE_NULL]
  | .object props, more, wf => by
    simp only [AmfValue.Wf, Bool.and_eq_true, decide_eq_true_eq] at wf
    obtain ⟨⟨nonempty, small⟩, inner⟩ := wf
    obtain ⟨_, body⟩ := encodeProps_propsArgs props more inner
    obtain ⟨_, whole⟩ := rtmpAmfVencodeObject_eq (by simpa using nonempty)
      (containerStart_object props.length) body
    have keyed : containerHasKey RTMP_AMF_TYPE_OBJECT = true := by decide
    rw [keyed, if_pos rfl] at whole
    exact encodeProp_container (.inl rfl) small whole
  | .ecmaArray props, more, wf => by
    simp only [AmfValue.Wf, Bool.and_eq_true, decide_eq_true_eq] at wf
    obtain ⟨⟨nonempty, small⟩, inner⟩ := wf
    obtain ⟨_, body⟩ := encodeProps_propsArgs props more inner
    obtain ⟨_, whole⟩ := rtmpAmfVencodeObject_eq (by simpa using nonempty)
      (containerStart_array (.inl rfl) props.length) body
    have keyed : containerHasKey RTMP_AMF_TYPE_ECMA_ARRAY = true := by decide
    rw [keyed, if_pos rfl] at whole
    exact encodeProp_container (.inr (.inl rfl)) small whole
  | .strictArray elems, more, wf => by
    simp only [AmfValue.Wf, Bool.and_eq_true, decide_eq_true_eq] at wf
    obtain ⟨⟨nonempty, few⟩, inner⟩ := wf
    obtain ⟨_, body⟩ := encodeProps_elemsArgs elems more inner
    obtain ⟨_, whole⟩ := rtmpAmfVencodeObject_eq (by simpa using nonempty)
      (containerStart_array (.inr rfl) elems.length) body
    have unkeyed : containerHasKey RTMP_AMF_TYPE_STRICT_ARRAY = false := by decide
    rw [unkeyed, if_neg (by decide), List.append_nil] at whole
    exact encodeProp_container (.inr (.inr rfl)) (by omega) whole

theorem encodeProps_propsArgs : ∀ (props : List (List UInt8 × AmfValue)) (more : List Arg),
    propsWf props = true →
    ∃ h, encodeProps true props.length (propsArgs props ++ more) = .ok (propsBytes props, ⟨more, h⟩)
  | [], more, _ => ⟨by simp, by simp only [propsArgs, propsBytes, List.length_nil, List.nil_append]; rw [encodeProps]⟩
  | (key, v) :: props, more, wf => by
    simp only [propsWf, Bool.and_eq_true, decide_eq_true_eq] at wf
    obtain ⟨⟨⟨⟨_, _⟩, fits⟩, wfv⟩, wfs⟩ := wf
    obtain ⟨_, keyed⟩ := encodeKeyArg_true (valueArgs v ++ (propsArgs props ++ more)) fits
    obtain ⟨_, value⟩ := encodeProp_valueArgs v (propsArgs props ++ more) wfv
    obtain ⟨_, others⟩ := encodeProps_propsArgs props more wfs
    have args : propsArgs ((key, v) :: props) ++ more =
        .int v.type :: .str (some key) :: (valueArgs v ++ (propsArgs props ++ more)) := by
      simp [propsArgs]
    rw [args, List.length_cons, propsBytes]
    exact encodeProps_succ keyed value others

theorem encodeProps_elemsArgs : ∀ (elems : List AmfValue) (more : List Arg), elemsWf elems = true →
    ∃ h, encodeProps false elems.length (elemsArgs elems ++ more) = .ok (elemsBytes elems, ⟨more, h⟩)
  | [], more, _ => ⟨by simp, by simp only [elemsArgs, elemsBytes, List.length_nil, List.nil_append]; rw [encodeProps]⟩
  | v :: elems, more, wf => by
    simp only [elemsWf, Bool.and_eq_true] at wf
    have keyed : encodeKeyArg false (valueArgs v ++ (elemsArgs elems ++ more)) =
        .ok ([], ⟨_, le_refl _⟩) := by simp [encodeKeyArg]
    obtain ⟨_, value⟩ := encodeProp_valueArgs v (elemsArgs elems ++ more) wf.1
    obtain ⟨_, others⟩ := encodeProps_elemsArgs elems more wf.2
    have args : elemsArgs (v :: elems) ++ more =
        .int v.type :: (valueArgs v ++ (elemsArgs elems ++ more)) := by
      simp [elemsArgs]
    rw [args, List.length_cons, elemsBytes, ← List.nil_append (valueBytes v)]
    exact encodeProps_succ keyed value others

end


/-! ## The decoder reads them back -/

theorem valueBytes_length_pos (v : AmfValue) : 0 < (valueBytes v).length := by
  cases v <;> simp [valueBytes, rtmpAmfEncodeNumber, rtmpAmfEncodeBoolean, rtmpAmfEncodeNull]

theorem elemsBytes_ne_nil {vs : List AmfValue} (nonempty : vs ≠ []) : elemsBytes vs ≠ [] := by
  obtain ⟨v, rest, rfl⟩ := List.exists_cons_of_ne_nil nonempty
  have first := valueBytes_length_pos v
  apply List.ne_nil_of_length_pos
  rw [elemsBytes, List.length_append]
  omega

@[simp] theorem length_objectEnd : objectEnd.length = 3 := rfl

theorem cString_of_nulFree {bytes : List UInt8} (free : NulFree bytes = true) :
    cString bytes = latin1 bytes := by
  rw [cString, latin1, List.takeWhile_eq_self_iff.mpr]
  simpa [NulFree] using free

section Values

variable {dict : Dict} {key : String} {mb : Mbuf} {rest : List UInt8}

theorem amfDecodeValue_number {bits : UInt64} (h : Frame mb mb.pos (valueBytes (.number bits) ++ rest)) :
    ∃ lt, amfDecodeValue dict key mb =
      .ok ⟨(dict ++ [(key, toOdict (.number bits))], mb.advance 9), lt⟩ := by
  obtain ⟨type, after⟩ := Frame.readU8_cons (by simpa [valueBytes, rtmpAmfEncodeNumber] using h)
  have value := after.readU64_front (v := bits)
  have left := after.getLeft_front
  rw [advance_advance] at value
  rw [length_netBytes] at left
  have room : ¬ (mb.advance 1).getLeft < 8 := by omega
  refine ⟨by simp only [getLeft, advance_pos, advance_end] at left ⊢; omega, ?_⟩
  rw [amfDecodeValue, dif_neg (by simp only [getLeft, advance_pos, advance_end] at left ⊢; omega)]
  simp [type, value, room, RTMP_AMF_TYPE_NUMBER, toOdict]

theorem amfDecodeValue_boolean {b : Bool} (h : Frame mb mb.pos (valueBytes (.boolean b) ++ rest)) :
    ∃ lt, amfDecodeValue dict key mb =
      .ok ⟨(dict ++ [(key, toOdict (.boolean b))], mb.advance 2), lt⟩ := by
  obtain ⟨type, after⟩ := Frame.readU8_cons (by simpa [valueBytes, rtmpAmfEncodeBoolean] using h)
  obtain ⟨value, -⟩ := after.readU8_cons
  have left := after.getLeft_eq
  rw [advance_advance] at value
  rw [List.length_cons] at left
  have room : ¬ (mb.advance 1).getLeft < 1 := by omega
  refine ⟨by simp only [getLeft, advance_pos, advance_end] at left ⊢; omega, ?_⟩
  rw [amfDecodeValue, dif_neg (by simp only [getLeft, advance_pos, advance_end] at left ⊢; omega)]
  cases b <;> simp [type, value, room, RTMP_AMF_TYPE_NUMBER, RTMP_AMF_TYPE_BOOLEAN, toOdict]

theorem amfDecodeValue_string {s : List UInt8} (wf : (AmfValue.string s).Wf = true)
    (h : Frame mb mb.pos (valueBytes (.string s) ++ rest)) :
    ∃ lt, amfDecodeValue dict key mb =
      .ok ⟨(dict ++ [(key, toOdict (.string s))], mb.advance (3 + s.length)), lt⟩ := by
  simp only [AmfValue.Wf, Bool.and_eq_true, decide_eq_true_eq] at wf
  obtain ⟨type, after⟩ := Frame.readU8_cons (by simpa [valueBytes] using h)
  have length := after.readU16_front (n := s.length)
  have str := (@Frame.skip _ (netBytes 2 s.length) _ after).readMem_front
  have left := after.getLeft_front
  simp only [advance_advance, length_netBytes, List.length_append] at length str left
  have fits : (UInt16.ofNat s.length).toNat = s.length := UInt16.toNat_ofNat_of_lt (by simp only [UInt16.size]; omega)
  have room : ¬ (mb.advance 1).getLeft < 2 := by omega
  have body : ¬ (mb.advance (1 + 2)).getLeft < s.length := by
    simp only [getLeft, advance_pos, advance_end] at left ⊢
    omega
  refine ⟨by simp only [getLeft, advance_pos, advance_end] at left ⊢; omega, ?_⟩
  rw [amfDecodeValue, dif_neg (by simp only [getLeft, advance_pos, advance_end] at left ⊢; omega)]
  have read : mb.readU8.2.readU16.2.readMem mb.readU8.2.readU16.1.toNat =
      .ok (s, mb.advance (3 + s.length)) := by
    simpa [type, length, fits] using str
  simp only [type, length, fits, room, body, UInt8.toNat_ofNat', Nat.reducePow, Nat.reduceMod, Nat.reduceEqDiff, RTMP_AMF_TYPE_NUMBER,
    RTMP_AMF_TYPE_BOOLEAN, RTMP_AMF_TYPE_STRING, dite_false, if_false, if_true]
  split
  next e fails => cases read.symm.trans fails
  next str mb' reads =>
    cases read.symm.trans reads
    simp [toOdict, cString_of_nulFree wf.1]

theorem amfDecodeValue_null (h : Frame mb mb.pos (valueBytes .null ++ rest)) :
    ∃ lt, amfDecodeValue dict key mb = .ok ⟨(dict ++ [(key, toOdict .null)], mb.advance 1), lt⟩ := by
  obtain ⟨type, -⟩ := Frame.readU8_cons (by simpa [valueBytes, rtmpAmfEncodeNull] using h)
  have left := h.getLeft_eq
  simp only [valueBytes, rtmpAmfEncodeNull, List.length_append, List.length_singleton] at left
  refine ⟨by simp only [getLeft, advance_pos, advance_end] at left ⊢; omega, ?_⟩
  rw [amfDecodeValue, dif_neg (by omega)]
  simp [type, RTMP_AMF_TYPE_NUMBER, RTMP_AMF_TYPE_BOOLEAN, RTMP_AMF_TYPE_STRING, RTMP_AMF_TYPE_NULL,
    toOdict]

theorem amfDecodeValue_object {object : Dict} {bytes : List UInt8}
    (h : Frame mb mb.pos (UInt8.ofNat RTMP_AMF_TYPE_OBJECT :: (bytes ++ rest)))
    (body : ∀ mb1 : Mbuf, Frame mb1 mb1.pos (bytes ++ rest) →
      ∃ le, amfDecodeObject [] mb1 = .ok ⟨(object, mb1.advance bytes.length), le⟩) :
    ∃ lt, amfDecodeValue dict key mb =
      .ok ⟨(dict ++ [(key, .object object)], mb.advance (1 + bytes.length)), lt⟩ := by
  obtain ⟨type, after⟩ := h.readU8_cons
  -- the nested call's result type names the buffer as the type byte's read leaves it
  obtain ⟨_, nested⟩ := body mb.readU8.2 (by rw [type]; exact after)
  have left := h.getLeft_eq
  simp only [List.length_cons, List.length_append] at left
  refine ⟨by simp only [getLeft, advance_pos, advance_end] at left ⊢; omega, ?_⟩
  rw [amfDecodeValue, dif_neg (by omega)]
  simp [type, nested, -readU8_snd, RTMP_AMF_TYPE_NUMBER, RTMP_AMF_TYPE_BOOLEAN, RTMP_AMF_TYPE_STRING,
    RTMP_AMF_TYPE_NULL, RTMP_AMF_TYPE_ECMA_ARRAY, RTMP_AMF_TYPE_OBJECT]

theorem amfDecodeValue_ecmaArray {n : Nat} {object : Dict} {bytes : List UInt8}
    (h : Frame mb mb.pos (UInt8.ofNat RTMP_AMF_TYPE_ECMA_ARRAY :: (netBytes 4 n ++ (bytes ++ rest))))
    (body : ∀ mb1 : Mbuf, Frame mb1 mb1.pos (bytes ++ rest) →
      ∃ le, amfDecodeObject [] mb1 = .ok ⟨(object, mb1.advance bytes.length), le⟩) :
    ∃ lt, amfDecodeValue dict key mb =
      .ok ⟨(dict ++ [(key, .object object)], mb.advance (5 + bytes.length)), lt⟩ := by
  obtain ⟨type, after⟩ := h.readU8_cons
  have count := after.readU32_front
  rw [advance_advance] at count
  obtain ⟨_, nested⟩ := body mb.readU8.2.readU32.2 (by rw [type]; dsimp only; rw [count]; exact after.skip)
  have left := h.getLeft_eq
  simp only [List.length_cons, List.length_append, length_netBytes] at left
  have room : ¬ (mb.advance 1).getLeft < 4 := by
    simp only [getLeft, advance_pos, advance_end] at left ⊢
    omega
  refine ⟨by simp only [getLeft, advance_pos, advance_end] at left ⊢; omega, ?_⟩
  rw [amfDecodeValue, dif_neg (by omega)]
  simp [type, count, room, nested, -readU8_snd, -readU32_snd, RTMP_AMF_TYPE_NUMBER, RTMP_AMF_TYPE_BOOLEAN,
    RTMP_AMF_TYPE_STRING, RTMP_AMF_TYPE_NULL, RTMP_AMF_TYPE_ECMA_ARRAY]

theorem amfDecodeValue_strictArray {n : Nat} {object : Dict} {bytes : List UInt8}
    (count : 0 < n ∧ n ≤ 65536)
    (h : Frame mb mb.pos (UInt8.ofNat RTMP_AMF_TYPE_STRICT_ARRAY :: (netBytes 4 n ++ (bytes ++ rest))))
    (body : ∀ mb1 : Mbuf, Frame mb1 mb1.pos (bytes ++ rest) →
      ∃ le, arrayLoop [] 0 n mb1 = .ok ⟨(object, mb1.advance bytes.length), le⟩) :
    ∃ lt, amfDecodeValue dict key mb =
      .ok ⟨(dict ++ [(key, .array object)], mb.advance (5 + bytes.length)), lt⟩ := by
  obtain ⟨type, after⟩ := h.readU8_cons
  have read := after.readU32_front
  rw [advance_advance] at read
  obtain ⟨_, nested⟩ := body mb.readU8.2.readU32.2 (by rw [type]; dsimp only; rw [read]; exact after.skip)
  have left := h.getLeft_eq
  simp only [List.length_cons, List.length_append, length_netBytes] at left
  have fits : (UInt32.ofNat n).toNat = n := UInt32.toNat_ofNat_of_lt (by simp only [UInt32.size]; omega)
  have nonzero : UInt32.ofNat n ≠ 0 := by
    intro zero
    have := congrArg UInt32.toNat zero
    rw [fits] at this
    simp at this
    omega
  have room : ¬ (mb.advance 1).getLeft < 4 := by
    simp only [getLeft, advance_pos, advance_end] at left ⊢
    omega
  refine ⟨by simp only [getLeft, advance_pos, advance_end] at left ⊢; omega, ?_⟩
  rw [amfDecodeValue, dif_neg (by omega)]
  simp [type, read, fits, nonzero, room, count.2, nested, -readU8_snd, -readU32_snd, RTMP_AMF_TYPE_NUMBER,
    RTMP_AMF_TYPE_BOOLEAN, RTMP_AMF_TYPE_STRING, RTMP_AMF_TYPE_NULL, RTMP_AMF_TYPE_ECMA_ARRAY,
    RTMP_AMF_TYPE_OBJECT, RTMP_AMF_TYPE_STRICT_ARRAY]

end Values

theorem amfDecodeObject_end {dict : Dict} {mb : Mbuf} {rest : List UInt8}
    (h : Frame mb mb.pos (objectEnd ++ rest)) :
    ∃ lt, amfDecodeObject dict mb = .ok ⟨(dict, mb.advance 3), lt⟩ := by
  have left := h.getLeft_front
  have key : mb.readU16 = (0, mb.advance 2) :=
    (Frame.readU16_front (n := 0) (by simpa only [objectEnd, List.append_assoc] using h))
  have marker : (mb.advance 2).readU8 = (UInt8.ofNat RTMP_AMF_TYPE_OBJECT_END, mb.advance 3) := by
    have after := @Frame.skip mb (netBytes 2 0) _ (by simpa only [objectEnd, List.append_assoc] using h)
    have read := @Frame.readU8_front (mb.advance 2) rest _ (by simpa using after)
    rwa [advance_advance] at read
  rw [length_objectEnd] at left
  have room : ¬ (mb.advance 2).getLeft < 1 := by
    simp only [getLeft, advance_pos, advance_end] at left ⊢
    omega
  refine ⟨by simp only [getLeft, advance_pos, advance_end] at left ⊢; omega, ?_⟩
  rw [amfDecodeObject, dif_neg (by omega), dif_neg (by omega)]
  simp only [key, marker, room, if_true, if_false]
  rfl

theorem amfDecodeObject_prop {dict dict1 : Dict} {mb mb1 : Mbuf} {keyBytes rest : List UInt8}
    {r : Dict × Mbuf} (nonempty : keyBytes ≠ []) (fits : keyBytes.length ≤ 65535)
    (h : Frame mb mb.pos (netBytes 2 keyBytes.length ++ (keyBytes ++ rest)))
    {lt : mb1.getLeft < (mb.advance (2 + keyBytes.length)).getLeft}
    (value : amfDecodeValue dict (cString keyBytes) (mb.advance (2 + keyBytes.length)) =
      .ok ⟨(dict1, mb1), lt⟩)
    {le : r.2.getLeft ≤ mb1.getLeft} (others : amfDecodeObject dict1 mb1 = .ok ⟨r, le⟩) :
    ∃ le', amfDecodeObject dict mb = .ok ⟨r, le'⟩ := by
  have length := h.readU16_front
  have key := h.skip.readMem_front
  have left := h.getLeft_front
  simp only [advance_advance, length_netBytes, List.length_append] at key left
  have sized : (UInt16.ofNat keyBytes.length).toNat = keyBytes.length :=
    UInt16.toNat_ofNat_of_lt (by simp only [UInt16.size]; omega)
  have named : UInt16.ofNat keyBytes.length ≠ 0 := by
    intro zero
    have := congrArg UInt16.toNat zero
    rw [sized] at this
    simp [List.length_eq_zero_iff, nonempty] at this
  have room : ¬ (mb.advance 2).getLeft < keyBytes.length := by
    simp only [getLeft, advance_pos, advance_end] at left ⊢
    omega
  have read : mb.readU16.2.readMem mb.readU16.1.toNat =
      .ok (keyBytes, mb.advance (2 + keyBytes.length)) := by
    simpa [length, sized] using key
  have shrinks : (mb.advance (2 + keyBytes.length)).getLeft ≤ mb.getLeft := by
    simp only [getLeft, advance_pos, advance_end]
    omega
  refine ⟨by omega, ?_⟩
  rw [amfDecodeObject, dif_neg (by omega), dif_neg (by omega)]
  simp only [length, sized, named, room, if_false]
  split
  next e fails => cases read.symm.trans fails
  next key mb' reads =>
    cases read.symm.trans reads
    simp [value, others]

theorem arrayLoop_done {dict : Dict} {i n : Nat} {mb : Mbuf} (done : n ≤ i) :
    arrayLoop dict i n mb = .ok ⟨(dict, mb), le_refl _⟩ := by
  rw [arrayLoop, if_neg (by omega)]

theorem arrayLoop_succ {dict dict1 : Dict} {i n : Nat} {mb mb1 : Mbuf} {r : Dict × Mbuf} (more : i < n)
    {lt : mb1.getLeft < mb.getLeft} (value : amfDecodeValue dict (toString i) mb = .ok ⟨(dict1, mb1), lt⟩)
    {le : r.2.getLeft ≤ mb1.getLeft} (others : arrayLoop dict1 (i + 1) n mb1 = .ok ⟨r, le⟩) :
    ∃ le', arrayLoop dict i n mb = .ok ⟨r, le'⟩ := by
  refine ⟨by omega, ?_⟩
  rw [arrayLoop, if_pos more]
  simp only [value, others]



mutual

theorem amfDecodeValue_valueBytes : ∀ (v : AmfValue) (dict : Dict) (key : String) (mb : Mbuf)
    (rest : List UInt8), v.Wf = true → Frame mb mb.pos (valueBytes v ++ rest) →
    ∃ lt, amfDecodeValue dict key mb =
      .ok ⟨(dict ++ [(key, toOdict v)], mb.advance (valueBytes v).length), lt⟩
  | .number bits, dict, key, mb, rest, _, h => by
    have length : (valueBytes (.number bits)).length = 9 := by
      simp [valueBytes, rtmpAmfEncodeNumber]
    rw [length]
    exact amfDecodeValue_number h
  | .boolean b, dict, key, mb, rest, _, h => by
    have length : (valueBytes (.boolean b)).length = 2 := by
      simp [valueBytes, rtmpAmfEncodeBoolean]
    rw [length]
    exact amfDecodeValue_boolean h
  | .string s, dict, key, mb, rest, wf, h => by
    have length : (valueBytes (.string s)).length = 3 + s.length := by
      simp [valueBytes]
      omega
    rw [length]
    exact amfDecodeValue_string wf h
  | .null, dict, key, mb, rest, _, h => by
    have length : (valueBytes .null).length = 1 := by simp [valueBytes, rtmpAmfEncodeNull]
    rw [length]
    exact amfDecodeValue_null h
  | .object props, dict, key, mb, rest, wf, h => by
    simp only [AmfValue.Wf, Bool.and_eq_true, decide_eq_true_eq] at wf
    have framed : Frame mb mb.pos
        (UInt8.ofNat RTMP_AMF_TYPE_OBJECT :: ((propsBytes props ++ objectEnd) ++ rest)) := by
      simpa [valueBytes] using h
    have length : (valueBytes (.object props)).length = 1 + (propsBytes props ++ objectEnd).length := by
      simp [valueBytes]
      omega
    rw [length, toOdict]
    exact amfDecodeValue_object framed
      fun mb1 inner => amfDecodeObject_propsBytes props [] mb1 rest wf.2 inner
  | .ecmaArray props, dict, key, mb, rest, wf, h => by
    simp only [AmfValue.Wf, Bool.and_eq_true, decide_eq_true_eq] at wf
    have framed : Frame mb mb.pos (UInt8.ofNat RTMP_AMF_TYPE_ECMA_ARRAY ::
        (netBytes 4 props.length ++ ((propsBytes props ++ objectEnd) ++ rest))) := by
      simpa [valueBytes] using h
    have length :
        (valueBytes (.ecmaArray props)).length = 5 + (propsBytes props ++ objectEnd).length := by
      simp [valueBytes]
      omega
    rw [length, toOdict]
    exact amfDecodeValue_ecmaArray framed
      fun mb1 inner => amfDecodeObject_propsBytes props [] mb1 rest wf.2 inner
  | .strictArray elems, dict, key, mb, rest, wf, h => by
    simp only [AmfValue.Wf, Bool.and_eq_true, decide_eq_true_eq] at wf
    obtain ⟨⟨nonempty, few⟩, inner⟩ := wf
    have framed : Frame mb mb.pos (UInt8.ofNat RTMP_AMF_TYPE_STRICT_ARRAY ::
        (netBytes 4 elems.length ++ (elemsBytes elems ++ rest))) := by
      simpa [valueBytes] using h
    have length : (valueBytes (.strictArray elems)).length = 5 + (elemsBytes elems).length := by
      simp [valueBytes]
      omega
    rw [length, toOdict]
    exact amfDecodeValue_strictArray ⟨List.length_pos_iff.mpr nonempty, few⟩ framed
      fun mb1 at_ => arrayLoop_elemsBytes elems [] 0 _ mb1 rest inner (Nat.zero_add _) at_

theorem amfDecodeObject_propsBytes : ∀ (props : List (List UInt8 × AmfValue)) (dict : Dict)
    (mb : Mbuf) (rest : List UInt8), propsWf props = true →
    Frame mb mb.pos ((propsBytes props ++ objectEnd) ++ rest) →
    ∃ le, amfDecodeObject dict mb =
      .ok ⟨(dict ++ propsOdict props, mb.advance (propsBytes props ++ objectEnd).length), le⟩
  | [], dict, mb, rest, _, h => by
    rw [propsOdict, List.append_nil, propsBytes, List.nil_append, length_objectEnd]
    exact amfDecodeObject_end (by simpa [propsBytes] using h)
  | (key, v) :: props, dict, mb, rest, wf, h => by
    simp only [propsWf, Bool.and_eq_true, decide_eq_true_eq] at wf
    obtain ⟨⟨⟨⟨nonempty, free⟩, fits⟩, wfv⟩, wfs⟩ := wf
    have framed : Frame mb mb.pos (netBytes 2 key.length ++
        (key ++ (valueBytes v ++ (propsBytes props ++ (objectEnd ++ rest))))) := by
      simpa [propsBytes] using h
    have atValue := framed.skip.skip
    simp only [length_netBytes, advance_advance] at atValue
    obtain ⟨_, value⟩ := amfDecodeValue_valueBytes v dict (cString key) (mb.advance (2 + key.length))
      ((propsBytes props ++ objectEnd) ++ rest) wfv (by simpa using atValue)
    obtain ⟨_, others⟩ := amfDecodeObject_propsBytes props (dict ++ [(cString key, toOdict v)])
      ((mb.advance (2 + key.length)).advance (valueBytes v).length) rest wfs
      (by simpa using atValue.skip)
    have length : (propsBytes ((key, v) :: props) ++ objectEnd).length =
        2 + key.length + (valueBytes v).length + (propsBytes props ++ objectEnd).length := by
      simp [propsBytes]
      omega
    rw [propsOdict, ← cString_of_nulFree free, ← List.singleton_append, ← List.append_assoc, length,
      ← advance_advance, ← advance_advance]
    exact amfDecodeObject_prop nonempty fits framed value others

theorem arrayLoop_elemsBytes : ∀ (elems : List AmfValue) (dict : Dict) (i n : Nat) (mb : Mbuf)
    (rest : List UInt8), elemsWf elems = true → i + elems.length = n →
    Frame mb mb.pos (elemsBytes elems ++ rest) →
    ∃ le, arrayLoop dict i n mb =
      .ok ⟨(dict ++ elemsOdict i elems, mb.advance (elemsBytes elems).length), le⟩
  | [], dict, i, n, mb, rest, _, count, _ => by
    rw [elemsOdict, List.append_nil, elemsBytes, List.length_nil, advance_zero]
    exact ⟨le_refl _, arrayLoop_done (by simp at count; omega)⟩
  | v :: elems, dict, i, n, mb, rest, wf, count, h => by
    simp only [elemsWf, Bool.and_eq_true] at wf
    have framed : Frame mb mb.pos (valueBytes v ++ (elemsBytes elems ++ rest)) := by
      simpa [elemsBytes] using h
    obtain ⟨_, value⟩ := amfDecodeValue_valueBytes v dict (toString i) mb _ wf.1 framed
    obtain ⟨_, others⟩ := arrayLoop_elemsBytes elems (dict ++ [(toString i, toOdict v)]) (i + 1) n
      (mb.advance (valueBytes v).length) rest wf.2 (by simp at count; omega) framed.skip
    rw [elemsOdict, ← List.singleton_append, ← List.append_assoc, elemsBytes, List.length_append,
      ← advance_advance]
    exact arrayLoop_succ (by simp at count; omega) value others

end

/-! ## At the root, and in a command -/

theorem decodeRoot_elemsBytes : ∀ (vs : List AmfValue) (msg : Dict) (ix : Nat) (mb : Mbuf),
    elemsWf vs = true → Frame mb mb.pos (elemsBytes vs) → decodeRoot msg ix mb = .ok (msg ++ elemsOdict ix vs)
  | [], msg, ix, mb, _, h => by
    have left := h.getLeft_eq
    rw [elemsBytes, List.length_nil] at left
    rw [decodeRoot, if_neg (by omega), elemsOdict, List.append_nil]
  | v :: vs, msg, ix, mb, wf, h => by
    simp only [elemsWf, Bool.and_eq_true] at wf
    have framed : Frame mb mb.pos (valueBytes v ++ elemsBytes vs) := by simpa [elemsBytes] using h
    have left := framed.getLeft_front
    have some := valueBytes_length_pos v
    obtain ⟨_, value⟩ := amfDecodeValue_valueBytes v msg (toString ix) mb _ wf.1 framed
    rw [decodeRoot, if_pos (by omega)]
    simp only [value]
    rw [decodeRoot_elemsBytes vs _ (ix + 1) _ wf.2 framed.skip, elemsOdict, List.append_assoc,
      List.singleton_append]

theorem rtmpAmfVencodeObject_root (vs : List AmfValue) (more : List Arg) (nonempty : vs ≠ [])
    (wf : elemsWf vs = true) :
    ∃ h, rtmpAmfVencodeObject RTMP_AMF_TYPE_ROOT vs.length (elemsArgs vs ++ more) =
      .ok (elemsBytes vs, ⟨more, h⟩) := by
  obtain ⟨_, body⟩ := encodeProps_elemsArgs vs more wf
  have start : containerStart RTMP_AMF_TYPE_ROOT vs.length = .ok [] := by
    simp [containerStart, RTMP_AMF_TYPE_ROOT, RTMP_AMF_TYPE_OBJECT, RTMP_AMF_TYPE_ECMA_ARRAY,
      RTMP_AMF_TYPE_STRICT_ARRAY]
  obtain ⟨h, whole⟩ := rtmpAmfVencodeObject_eq (by simpa using nonempty) start body
  have unkeyed : containerHasKey RTMP_AMF_TYPE_ROOT = false := by decide
  rw [unkeyed, if_neg (by decide), List.append_nil, List.nil_append] at whole
  exact ⟨h, whole⟩

-- What the encoder writes at the root is the values' bytes, and the decoder reads them back: each
-- value under its index.
theorem rtmpAmfDecode_vencode (vs : List AmfValue) (more : List Arg) (nonempty : vs ≠ [])
    (wf : elemsWf vs = true) :
    (∃ h, rtmpAmfVencodeObject RTMP_AMF_TYPE_ROOT vs.length (elemsArgs vs ++ more) =
      .ok (elemsBytes vs, ⟨more, h⟩)) ∧
    ∀ mb : Mbuf, Frame mb mb.pos (elemsBytes vs) → rtmpAmfDecode mb = .ok (elemsOdict 0 vs) := by
  refine ⟨rtmpAmfVencodeObject_root vs more nonempty wf, fun mb framed => ?_⟩
  rw [rtmpAmfDecode, decodeRoot_elemsBytes vs [] 0 mb wf framed, List.nil_append]

def sampleRoot : List AmfValue :=
  [.string [0x61], .object [([0x6b], .boolean true)]]

theorem rtmpAmfDecode_vencode_sample :
    sampleRoot ≠ [] ∧ elemsWf sampleRoot = true ∧
    ((∃ h, rtmpAmfVencodeObject RTMP_AMF_TYPE_ROOT sampleRoot.length (elemsArgs sampleRoot ++ []) =
      .ok (elemsBytes sampleRoot, ⟨[], h⟩)) ∧
    ∀ mb : Mbuf, Frame mb mb.pos (elemsBytes sampleRoot) →
      rtmpAmfDecode mb = .ok (elemsOdict 0 sampleRoot)) :=
  ⟨by decide, by decide, rtmpAmfDecode_vencode sampleRoot [] (by decide) (by decide)⟩

theorem rtmpAmfEncodeString_valueBytes {s : List UInt8} (fits : s.length ≤ 65535) :
    rtmpAmfEncodeString (some s) = .ok (valueBytes (.string s)) := by
  simp [rtmpAmfEncodeString, valueBytes, Nat.not_lt.mpr fits]

-- A command's body decodes to its name under "0" and its values under "1", "2", and so on.
theorem rtmpAmfDecode_command (command : List UInt8) (vs : List AmfValue)
    (named : (AmfValue.string command).Wf = true) (wf : elemsWf vs = true) :
    rtmpAmfCommand (some command) vs.length (elemsArgs vs) = .ok (elemsBytes (.string command :: vs)) ∧
    ∀ mb : Mbuf, Frame mb mb.pos (elemsBytes (.string command :: vs)) →
      rtmpAmfDecode mb = .ok (("0", .string (latin1 command)) :: elemsOdict 1 vs) := by
  have fits : command.length ≤ 65535 := by
    simp only [AmfValue.Wf, Bool.and_eq_true, decide_eq_true_eq] at named
    exact named.2
  refine ⟨?_, fun mb framed => ?_⟩
  · rw [rtmpAmfCommand]
    simp only [rtmpAmfEncodeString_valueBytes fits, elemsBytes]
    cases vs with
    | nil => simp [elemsBytes]
    | cons v vs =>
      have encoded := rtmpAmfVencodeObject_root (v :: vs) [] (List.cons_ne_nil v vs) wf
      rw [List.append_nil] at encoded
      obtain ⟨_, body⟩ := encoded
      rw [if_neg (by simp), body]
  · have whole := decodeRoot_elemsBytes (.string command :: vs) [] 0 mb (by simp [elemsWf, named, wf]) framed
    rw [rtmpAmfDecode, whole]
    rfl

theorem rtmpAmfDecode_command_connect :
    (AmfValue.string [0x63]).Wf = true ∧ elemsWf sampleRoot = true ∧
    (rtmpAmfCommand (some [0x63]) sampleRoot.length (elemsArgs sampleRoot) =
      .ok (elemsBytes (.string [0x63] :: sampleRoot)) ∧
    ∀ mb : Mbuf, Frame mb mb.pos (elemsBytes (.string [0x63] :: sampleRoot)) →
      rtmpAmfDecode mb = .ok (("0", .string (latin1 [0x63])) :: elemsOdict 1 sampleRoot)) :=
  ⟨by decide, by decide, rtmpAmfDecode_command [0x63] sampleRoot (by decide) (by decide)⟩

end Libre.Amf
