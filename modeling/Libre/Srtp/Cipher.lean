import Libre.Mbuf.Buffer

set_option autoImplicit false

/-!
# Ideal ciphers

The library's `aes` and `hmac` wrap OpenSSL, which is not part of the source; their documented
behaviour is a parameter (`Primitives`): counter mode XORs the data with a key stream of the key
and IV, and the GCM tag and HMAC-SHA1 are functions of their inputs.
-/

namespace Libre.Srtp

open BigEndian

inductive AesMode
  | CTR | GCM
  deriving DecidableEq, Repr

structure Primitives where
  keystream : AesMode → List UInt8 → List UInt8 → Nat → UInt8
  gcmTag : List UInt8 → List UInt8 → List UInt8 → List UInt8 → Fin 16 → UInt8
  hmacSha1 : List UInt8 → List UInt8 → Fin 20 → UInt8

/-- Ideal primitives that return zero everywhere, enough to run the calls on concrete input. -/
def zeroPrimitives : Primitives := ⟨fun _ _ _ _ => 0, fun _ _ _ _ _ => 0, fun _ _ _ => 0⟩

def xorBytes (a b : List UInt8) : List UInt8 := List.zipWith (· ^^^ ·) a b

/-- `struct aes`: the mode and the key it was allocated with. -/
structure Aes where
  mode : AesMode
  key : List UInt8
  deriving DecidableEq, Repr

structure AesCtx where
  aes : Aes
  iv : List UInt8
  aad : List UInt8
  done : List UInt8
  deriving DecidableEq, Repr

/-- `aes_alloc`: OpenSSL offers CTR with 128, 192 and 256-bit keys and GCM with 128 and 256. -/
def aesAlloc (mode : AesMode) (key : List UInt8) : Except Errno Aes :=
  match mode, key.length * 8 with
  | .CTR, 128 | .CTR, 192 | .CTR, 256 | .GCM, 128 | .GCM, 256 => .ok ⟨mode, key⟩
  | _, _ => .error .ENOTSUP

def aesSetIv (aes : Aes) (iv : List UInt8) : AesCtx := ⟨aes, iv, [], []⟩

section Ops

variable (prim : Primitives)

def AesCtx.crypt (ctx : AesCtx) (data : List UInt8) : List UInt8 :=
  data.mapIdx fun i b => b ^^^ prim.keystream ctx.aes.mode ctx.aes.key ctx.iv (ctx.done.length + i)

/-- `aes_encr` or `aes_decr` with no output buffer: the input is additional data. -/
def AesCtx.addAad (ctx : AesCtx) (data : List UInt8) : AesCtx := { ctx with aad := ctx.aad ++ data }

def aesEncr (ctx : AesCtx) (data : List UInt8) : List UInt8 × AesCtx :=
  let out := ctx.crypt prim data
  (out, { ctx with done := ctx.done ++ out })

def aesDecr (ctx : AesCtx) (data : List UInt8) : List UInt8 × AesCtx :=
  (ctx.crypt prim data, { ctx with done := ctx.done ++ data })

def aesGetAuthtag (ctx : AesCtx) : Except Errno (List UInt8) :=
  match ctx.aes.mode with
  | .GCM => .ok (List.ofFn (prim.gcmTag ctx.aes.key ctx.iv ctx.aad ctx.done))
  | .CTR => .error .ENOTSUP

def aesAuthenticate (ctx : AesCtx) (tag : List UInt8) : Except Errno Unit :=
  match ctx.aes.mode with
  | .GCM => if tag = List.ofFn (prim.gcmTag ctx.aes.key ctx.iv ctx.aad ctx.done) then .ok ()
      else .error .EAUTH
  | .CTR => .error .ENOTSUP

/-- `hmac_digest` into a 20-byte buffer; an empty message is refused. -/
def hmacDigest (key data : List UInt8) : Except Errno (List UInt8) :=
  if data = [] then .error .EINVAL else .ok (List.ofFn (prim.hmacSha1 key data))

/-- `srtp_derive`: the AES-CTR key stream under the master key, with the salt as IV and the
label folded into its eighth byte. -/
def srtpDerive (outLen : Nat) (label : UInt8) (masterKey masterSalt : List UInt8) :
    Except Errno (List UInt8) :=
  if outLen > 32 ∨ masterSalt.length > 16 then .error .EINVAL else
  let x := masterSalt ++ List.replicate (16 - masterSalt.length) 0
  let x := x.set 7 (x[7]! ^^^ label)
  match aesAlloc .CTR masterKey with
  | .error e => .error e
  | .ok aes => .ok ((aesEncr prim (aesSetIv aes x) (List.replicate outLen 0)).1)

end Ops

@[simp] theorem length_xorBytes (a b : List UInt8) :
    (xorBytes a b).length = min a.length b.length := by
  simp [xorBytes]

@[simp] theorem aesSetIv_aes (aes : Aes) (iv : List UInt8) : (aesSetIv aes iv).aes = aes := rfl
@[simp] theorem aesSetIv_iv (aes : Aes) (iv : List UInt8) : (aesSetIv aes iv).iv = iv := rfl
@[simp] theorem aesSetIv_aad (aes : Aes) (iv : List UInt8) : (aesSetIv aes iv).aad = [] := rfl
@[simp] theorem aesSetIv_done (aes : Aes) (iv : List UInt8) : (aesSetIv aes iv).done = [] := rfl

@[simp] theorem addAad_aes (ctx : AesCtx) (d : List UInt8) : (ctx.addAad d).aes = ctx.aes := rfl
@[simp] theorem addAad_iv (ctx : AesCtx) (d : List UInt8) : (ctx.addAad d).iv = ctx.iv := rfl
@[simp] theorem addAad_aad (ctx : AesCtx) (d : List UInt8) : (ctx.addAad d).aad = ctx.aad ++ d :=
  rfl
@[simp] theorem addAad_done (ctx : AesCtx) (d : List UInt8) : (ctx.addAad d).done = ctx.done := rfl

@[simp] theorem crypt_addAad (prim : Primitives) (ctx : AesCtx) (aad data : List UInt8) :
    (ctx.addAad aad).crypt prim data = ctx.crypt prim data := rfl

@[simp] theorem length_crypt (prim : Primitives) (ctx : AesCtx) (data : List UInt8) :
    (ctx.crypt prim data).length = data.length := by
  simp [AesCtx.crypt]

/-- Counter mode is its own inverse: decrypting under the same context undoes encryption. -/
theorem crypt_crypt (prim : Primitives) (ctx : AesCtx) (data : List UInt8) :
    ctx.crypt prim (ctx.crypt prim data) = data := by
  apply List.ext_getElem (by simp)
  intro i h _
  simp [AesCtx.crypt]

end Libre.Srtp
