import Mathlib.Algebra.Ring.Int.Defs
import Mathlib.Algebra.Ring.Nat
import AliyunIot.Infra.CStr
import AliyunIot.Infra.State
import Mathlib.Data.List.TakeWhile

/-!
# The OTA handle

`OTA_Struct_t` and the objects it points to: the digest contexts of `ota_lib.c` and the
fetch channel of `ota_fetch.c`, with the server's files behind it.
-/

namespace AliyunIot.Ota

inductive OtaState where
  | uninited | inited | pushed | fetching | fetched
  deriving DecidableEq

inductive OtaType where
  | none | cota | fota
  deriving DecidableEq

/-- The text of bytes up to the first NUL. -/
def cstrOf (bytes : List UInt8) : CStr :=
  ⟨bytes.takeWhile fun b => b ≠ 0, CStr.zero_not_mem_takeWhile bytes⟩

/-- What the module uses of the rest of the SDK, and of the server: `jsonValueOf json key`
is `otalib_JsonValueOf`, `atoi` converts to `uint32_t`, `md5` and `sha256` are the digests
of whole texts, and `file url` is what the server has there. -/
structure OtaLib where
  jsonValueOf : List UInt8 → String → Option (List UInt8)
  atoi : CStr → UInt32
  md5 : List UInt8 → List UInt8
  sha256 : List UInt8 → List UInt8
  file : CStr → List UInt8

/-! ## Digest contexts -/

/-- `iot_md5_context` and `iot_sha256_context` by what they absorbed. `finished` is said
of a context that a finalisation has used up. -/
structure Digest where
  absorbed : List UInt8
  finished : Bool
  deriving DecidableEq

/-- `otalib_MD5Init` and `otalib_Sha256Init`: none when there is no memory. -/
def digestInit (malloc : Bool) : Option Digest := if malloc then some ⟨[], false⟩ else none

/-- `utils_md5_update` and `utils_sha256_update`. -/
def Digest.update (d : Digest) (buf : List UInt8) : Digest :=
  { d with absorbed := d.absorbed ++ buf }

/-- What a finalisation absorbs after a text: `0x80`, zeros up to eight bytes short of a
block, and the length in bits. -/
def digestPadding (bits : Nat → List UInt8) (len : Nat) : List UInt8 :=
  let last := len % 64
  let padn := if last < 56 then 56 - last else 120 - last
  0x80 :: List.replicate (padn - 1) 0 ++ bits (8 * len)

/-- Eight bytes of a number, the least first. -/
def bitsLe (n : Nat) : List UInt8 := (List.range 8).map fun k => UInt8.ofNat (n / 256 ^ k)

/-- `utils_md5_finish` and `utils_sha256_finish`, with the context they leave. -/
def Digest.finish (d : Digest) (hash : List UInt8 → List UInt8) (bits : Nat → List UInt8) :
    List UInt8 × Digest :=
  (hash d.absorbed, ⟨d.absorbed ++ digestPadding bits d.absorbed.length, true⟩)

def hex2char (hex : UInt8) : UInt8 :=
  let hex := hex &&& 0xF
  if hex < 10 then 0x30 + hex else hex - 10 + 0x61

/-- The text that `otalib_MD5Finalize` and `otalib_Sha256Finalize` write. -/
def hexStr (digest : List UInt8) : List UInt8 :=
  digest.flatMap fun (b : UInt8) => [hex2char (b >>> 4), hex2char b]

/-! ## The fetch channel -/

/-- `otahttp_Struct_t`: where the next byte comes from. -/
structure FetchChannel where
  url : CStr
  pos : Nat
  deriving DecidableEq

/-- The bytes before the first `sep`. -/
def beforeSep (sep : List UInt8) : List UInt8 → Option (List UInt8)
  | [] => none
  | b :: bytes =>
    if sep.isPrefixOf (b :: bytes) then some []
    else (beforeSep sep bytes).map (b :: ·)

def protocolEnd : CStr := .ofString "://" (by decide)
def protocolHttp : CStr := .ofString "http" (by decide)
def protocolHttps : CStr := .ofString "https" (by decide)

/-- The protocols of `ofc_Init`; a url without one is read as `http`. -/
def httpUrl (url : CStr) : Bool :=
  match beforeSep protocolEnd.val url.val with
  | some protocol => protocol = protocolHttp.val || protocol = protocolHttps.val
  | none => true

/-- `ofc_Init`. The offset becomes an `int`; a server ignores the range it cannot read
and sends the file from its start. `malloc` is false when there is no memory. -/
def ofcInit (malloc : Bool) (url : CStr) (offset : UInt32) : Option FetchChannel :=
  if httpUrl url && malloc then some ⟨url, ((offset.toNat : Int).bmod (2 ^ 32)).toNat⟩ else none

/-- `ofc_Fetch`: an error, or at most `count` bytes of what is left of the file. -/
def ofcFetch (lib : OtaLib) (ch : FetchChannel) (bufLen : Nat)
    (http : Except {code : Int // code < State.success} Nat) :
    Except {code : Int // code < State.success} (List UInt8 × FetchChannel) :=
  match http with
  | .error code => .error code
  | .ok count =>
    let bytes := ((lib.file ch.url).drop ch.pos).take (min count bufLen)
    .ok (bytes, { ch with pos := ch.pos + bytes.length })

/-! ## The handle -/

/-- `OTA_Struct_t`, less what the calls below do not use. `md5sum` is the first 32 bytes
of its buffer; the last is never written. -/
structure OtaHandle where
  state : OtaState
  type : OtaType
  sizeFetched : UInt32
  sizeFile : UInt32
  purl : Option CStr
  version : Option CStr
  md5sum : List UInt8
  md5 : Option Digest
  sha256 : Option Digest
  chFetch : Option FetchChannel
  configId : Option CStr
  configSize : UInt32
  sign : Option CStr
  signMethod : Option CStr
  cotaUrl : Option CStr
  getType : Option CStr

/-- `IOT_OTA_Init`, when it succeeds. -/
def otaInit : OtaHandle where
  state := .inited
  type := .none
  sizeFetched := 0
  sizeFile := 0
  purl := none
  version := none
  md5sum := List.replicate 32 0
  md5 := digestInit true
  sha256 := digestInit true
  chFetch := none
  configId := none
  configSize := 0
  sign := none
  signMethod := none
  cotaUrl := none
  getType := none

end AliyunIot.Ota
