import Libre.Fmt.Regex
import Libre.Fmt.Pl
import Libre.Sa.Addr

set_option autoImplicit false

/-!
# Encoding and decoding URIs

`uri_encode`, `uri_decode_hostport` and `uri_decode` from `uri/uri.c`. The encoder's text is what
it hands a print handler that accepts every chunk; the family the decoder caches is the one
`sa_set` fills (`Libre.Sa`). A password that starts with a colon comes back without it
(`uri_password_colon_lost`).
-/

namespace Libre

structure Uri where
  scheme : List UInt8
  user : List UInt8
  password : List UInt8
  host : List UInt8
  af : Nat
  port : UInt16
  path : List UInt8
  params : List UInt8
  headers : List UInt8
  deriving DecidableEq, Repr

namespace Uri

open Libre.Fmt Libre.Sa

-- `pl_isset`
def plIsset (pl : List UInt8) : Bool := !pl.isEmpty

-- `%u` writes in base 10.
theorem decimal_base : 2 ≤ 10 := by decide

-- `uri_encode(pf, uri)`: the text written, or `EINVAL` without a scheme or a host.
def uriEncode (u : Uri) : Except Errno (List UInt8) :=
  if !plIsset u.scheme || !plIsset u.host then .error .EINVAL
  else
    let userinfo :=
      if plIsset u.user then
        u.user ++ (if plIsset u.password then cstr ":" ++ u.password else []) ++ cstr "@"
      else []
    -- the IPv6 address is delimited by `[` and `]`
    let host := if u.af = AF_INET6 then cstr "[" ++ u.host ++ cstr "]" else u.host
    let port := if u.port ≠ 0 then cstr ":" ++ localItoa u.port.toUInt64 10 decimal_base false else []
    .ok (u.scheme ++ cstr ":" ++ userinfo ++ host ++ port ++ u.path ++ u.params ++ u.headers)

-- The `i`th capture of a `re_regex` success, as the bytes it spans.
def capture (input : List UInt8) (caps : List Pl) (i : Nat) : List UInt8 :=
  match caps[i]? with
  | some c => (input.drop c.p).take c.l
  | none => []

-- `uri_decode_hostport(hostport, host, port)`: the host and the port text.
def uriDecodeHostport (hostport : List UInt8) : Except Errno (List UInt8 × List UInt8) :=
  match reRegex hostport (cstr "\\[[0-9a-f:]+\\][:]*[0-9]*") with
  | .ok caps => .ok (capture hostport caps 0, capture hostport caps 2)
  | .error _ =>
    match reRegex hostport (cstr "[^:]+[:]*[0-9]*") with
    | .ok caps => .ok (capture hostport caps 0, capture hostport caps 2)
    | .error e => .error e

-- The code at `out:`: the address family of the host, and the port if there is one.
def uriFinish (net : Net) (u : Uri) (port : List UInt8) : Uri :=
  { u with af := (match saSet net u.host with | .ok family => family | .error _ => AF_UNSPEC),
           port := if plIsset port then (plU32 port).toUInt16 else u.port }

-- `uri_decode(uri, pl)`
def uriDecode (net : Net) (pl : List UInt8) : Except Errno Uri :=
  let withUser :=
    match reRegex pl (cstr "[^:]+:[^@:]*[:]*[^@]*@[^/;? ]+[^;? ]*[^?]*[^]*") with
    | .ok caps =>
      match uriDecodeHostport (capture pl caps 4) with
      | .ok (host, port) =>
        some (⟨capture pl caps 0, capture pl caps 1, capture pl caps 3, host, 0, 0,
          capture pl caps 5, capture pl caps 6, capture pl caps 7⟩, port)
      | .error _ => none
    | .error _ => none
  match withUser with
  | some (u, port) => .ok (uriFinish net u port)
  | none =>
    match reRegex pl (cstr "[^:]+:[^/;? ]+[^;? ]*[^?]*[^]*") with
    | .error e => .error e
    | .ok caps =>
      match uriDecodeHostport (capture pl caps 1) with
      | .error e => .error e
      | .ok (host, port) =>
        .ok (uriFinish net ⟨capture pl caps 0, [], [], host, 0, 0, capture pl caps 2,
          capture pl caps 3, capture pl caps 4⟩ port)

-- The family `uri_decode` caches is one that `sa_set` fills, or `AF_UNSPEC` where it fails.
theorem uriDecode_af {net : Net} {pl : List UInt8} {u : Uri} (h : uriDecode net pl = .ok u) :
    u.af = AF_UNSPEC ∨ u.af = AF_UNIX ∨ u.af = AF_INET ∨ u.af = AF_INET6 := by
  have finish : ∀ v port, (uriFinish net v port).af = AF_UNSPEC ∨ (uriFinish net v port).af = AF_UNIX ∨
      (uriFinish net v port).af = AF_INET ∨ (uriFinish net v port).af = AF_INET6 := by
    intro v port
    simp only [uriFinish]
    split
    next family set => exact .inr (saSet_family set)
    next => exact .inl rfl
  unfold uriDecode at h
  dsimp only at h
  split at h
  · cases h
    exact finish _ _
  · split at h
    · cases h
    · split at h
      · cases h
      · cases h
        exact finish _ _

/-! ## A password that starts with a colon -/

-- `sip:alice::pw@atlanta.com` as a `struct uri`: a host name, for which `sa_set` fails.
def colonPassword : Uri :=
  ⟨cstr "sip", cstr "alice", cstr ":pw", cstr "atlanta.com", AF_UNSPEC, 0, [], [], []⟩

-- The encoder writes the password after a colon; the decoder's `[:]*` takes both colons, and the
-- password comes back as `pw`. The host is no numeric address for `inet_pton`.
theorem uri_password_colon_lost (net : Net) (name : ∀ af, net.inetPton af (cstr "atlanta.com") = none) :
    uriEncode colonPassword = .ok (cstr "sip:alice::pw@atlanta.com") ∧
      uriDecode net (cstr "sip:alice::pw@atlanta.com") =
        .ok { colonPassword with password := cstr "pw" } := by
  refine ⟨by decide, ?_⟩
  have decoded : uriDecode net (cstr "sip:alice::pw@atlanta.com") =
      .ok (uriFinish net { colonPassword with password := cstr "pw" } []) := by
    rfl
  have copied : plStrcpy (cstr "atlanta.com") 64 = cstr "atlanta.com" := by decide
  have failed : saSet net (cstr "atlanta.com") = .error .EINVAL := by
    apply saSet_rejected <;> rw [copied]
    · exact name AF_INET
    · exact name AF_INET6
    · decide
    · decide
  rw [decoded, uriFinish]
  simp [colonPassword, failed, plIsset]

theorem uri_password_colon_lost_name :
    (∀ af, (⟨fun _ _ => none, fun _ => none, false⟩ : Net).inetPton af (cstr "atlanta.com") = none) ∧
      uriEncode colonPassword = .ok (cstr "sip:alice::pw@atlanta.com") ∧
      uriDecode ⟨fun _ _ => none, fun _ => none, false⟩ (cstr "sip:alice::pw@atlanta.com") =
        .ok { colonPassword with password := cstr "pw" } :=
  ⟨fun _ => rfl, uri_password_colon_lost _ fun _ => rfl⟩

end Uri

end Libre
