import Libre.Fmt.Print
import Libre.Mbuf.Buffer

set_option autoImplicit false

/-!
# Socket addresses from text

`sa_set` and the functions under it in `sa/sa.c`, as far as the family of the address they fill.
The system's `inet_pton` and `getaddrinfo` and the build's `HAVE_UNIXSOCK` are parameters (`Net`).
-/

namespace Libre.Sa

open Libre.Fmt

def AF_UNSPEC : Nat := 0
def AF_UNIX : Nat := 1
def AF_INET : Nat := 2
def AF_INET6 : Nat := 10

-- What `sa.c` asks of the system: the bytes `inet_pton` writes when it returns 1, the families
-- `getaddrinfo` lists (`none` when it fails), and `HAVE_UNIXSOCK`.
structure Net where
  inetPton : Nat → List UInt8 → Option (List UInt8)
  getaddrinfo : List UInt8 → Option (List Nat)
  unixsock : Bool

-- `pl_strcpy(pl, buf, size)` for a `size` that is not zero, as the string functions then read
-- `buf`: at most `size - 1` bytes, up to the first NUL.
def plStrcpy (pl : List UInt8) (size : Nat) : List UInt8 :=
  (pl.take (size - 1)).takeWhile (· ≠ 0)

-- `IN6_IS_ADDR_V4MAPPED`: `::ffff:a.b.c.d`.
def in6IsAddrV4mapped (a : List UInt8) : Bool :=
  a.take 12 == List.replicate 10 0 ++ [0xff, 0xff]

-- `sa_set_sa(sa, s)`: the family of an IPv4 or IPv6 `sockaddr`.
def saSetSa (family : Nat) : Except Errno Nat :=
  if family = AF_INET ∨ family = AF_INET6 then .ok family else .error .EAFNOSUPPORT

-- The loop of `sa_addrinfo`: the first address `sa_set_sa` takes, else the error of the last
-- one; the address `sa_pton` zeroed stays when the list is empty.
def addrinfoLoop : List Nat → Except Errno Nat → Except Errno Nat
  | [], err => err
  | family :: rest, _ =>
    match saSetSa family with
    | .ok family => .ok family
    | .error e => addrinfoLoop rest (.error e)

-- `sa_addrinfo(addr, sa)`
def saAddrinfo (net : Net) (addr : List UInt8) : Except Errno Nat :=
  match net.getaddrinfo addr with
  | none => .error .EADDRNOTAVAIL
  | some families => addrinfoLoop families (.ok AF_UNSPEC)

-- `sa_pton(addr, sa)`: IPv4 first, then a UNIX path, a scoped link-local address and IPv6; an
-- IPv4-mapped IPv6 address is IPv4.
def saPton (net : Net) (addr : List UInt8) : Except Errno Nat :=
  match net.inetPton AF_INET addr with
  | some _ => .ok AF_INET
  | none =>
    if net.unixsock && addr.take 5 == cstr "unix:" then .ok AF_UNIX
    else if addr.take 5 == cstr "fe80:" && addr.contains '%'.toUInt8 then saAddrinfo net addr
    else
      match net.inetPton AF_INET6 addr with
      | some a => .ok (if in6IsAddrV4mapped a then AF_INET else AF_INET6)
      | none => .error .EINVAL

-- `sa_set_str(sa, addr, port)`: the families its `switch` sets a port and length for.
def saSetStr (net : Net) (addr : List UInt8) : Except Errno Nat :=
  match saPton net addr with
  | .error e => .error e
  | .ok family =>
    if (net.unixsock && family == AF_UNIX) || family == AF_INET || family == AF_INET6 then .ok family
    else .error .EAFNOSUPPORT

-- `sa_set(sa, addr, port)`: the text of `addr` copied into a buffer of 64 bytes.
def saSet (net : Net) (addr : List UInt8) : Except Errno Nat :=
  saSetStr net (plStrcpy addr 64)

theorem saSet_family {net : Net} {addr : List UInt8} {family : Nat} (h : saSet net addr = .ok family) :
    family = AF_UNIX ∨ family = AF_INET ∨ family = AF_INET6 := by
  unfold saSet saSetStr at h
  split at h
  · cases h
  · split at h
    next known =>
      cases h
      simp only [Bool.or_eq_true, Bool.and_eq_true, beq_iff_eq] at known
      omega
    · cases h

-- Text that is no numeric address and starts neither with `unix:` nor with `fe80:`: `sa_set`
-- fails.
theorem saSet_rejected {net : Net} {addr : List UInt8}
    (v4 : net.inetPton AF_INET (plStrcpy addr 64) = none) (v6 : net.inetPton AF_INET6 (plStrcpy addr 64) = none)
    (unix : (plStrcpy addr 64).take 5 ≠ cstr "unix:") (linkLocal : (plStrcpy addr 64).take 5 ≠ cstr "fe80:") :
    saSet net addr = .error .EINVAL := by
  simp [saSet, saSetStr, saPton, v4, v6, unix, linkLocal]

end Libre.Sa
