import AliyunIot.Lib.Probe

/-!
# CoAP deserializer

`CoAPDeserialize_common.c` as readers of the receive buffer. `left` and
`remlen` are signed as in the source. Fields of `CoAPMessage` that a call has
not assigned are `none`.
-/

namespace AliyunIot.Coap

open Lib

abbrev coapMsgMaxTokenLen : Nat := 8
abbrev coapMsgMaxOptionNum : Nat := 12

abbrev coapSuccess : Int := 0
abbrev coapErrorBase : Int := 256
abbrev coapErrorInvalidLength : Int := coapErrorBase + 4

structure CoapMsgHeader where
  version : UInt8
  type : UInt8
  tokenlen : UInt8
  code : UInt8
  msgid : UInt16
  deriving DecidableEq

/-- `CoAPMsgOption`; `val` is an offset into the buffer. -/
structure CoapMsgOption where
  num : UInt16
  len : UInt16
  val : Nat

/-- The fields of `CoAPMessage` the deserializer assigns; `optcount` is the
number of options. -/
structure CoapMessage where
  header : Option CoapMsgHeader := none
  token : List UInt8 := []
  options : List CoapMsgOption := []
  payloadlen : Option UInt16 := none
  payload : Option Nat := none

def coapDeserializeHeader (buf : Nat) : Probe CoapMsgHeader := do
  let b0 ← Probe.load buf
  let b1 ← Probe.load (buf + 1)
  let b2 ← Probe.load (buf + 2)
  let b3 ← Probe.load (buf + 3)
  return {
    version := (b0 >>> 6) &&& 0x03, type := (b0 >>> 4) &&& 0x03, tokenlen := b0 &&& 0x0F
    code := b1, msgid := (b2.toUInt16 <<< 8) + b3.toUInt16 }

/-- `memcpy` out of the buffer. -/
def loadBytes (buf : Nat) : Nat → Probe (List UInt8)
  | 0 => return []
  | n + 1 => do
    let b ← Probe.load buf
    let bs ← loadBytes (buf + 1) n
    return b :: bs

/-- `CoAPDeserialize_Token`: the bytes copied; it returns `tokenlen`. -/
def coapDeserializeToken (tokenlen buf : Nat) : Probe (List UInt8) :=
  loadBytes buf (if tokenlen > coapMsgMaxTokenLen then coapMsgMaxTokenLen else tokenlen)

/-- `COAP_OPT_CHECK(ptr, left, step)`: the moved pointer and what is left, or
`return -1`. -/
def coapOptCheck (ptr : Nat) (left : Int) (step : Nat) : Option (Nat × Int) :=
  if left < step then none
  else if left - step < 1 then none
  else some (ptr + step, left - step)

/-- The delta nibble: the number added to the previous one, with the pointer
and what is left behind its extension. -/
def coapOptDelta (optdelta : UInt8) (ptr : Nat) (left : Int) :
    Probe (Option (UInt16 × Nat × Int)) := do
  if optdelta = 13 then
    let b ← Probe.load ptr
    return (coapOptCheck ptr left 1).map fun r => ((13 : UInt16) + b.toUInt16, r)
  else if optdelta = 14 then
    let b ← Probe.load ptr
    let c ← Probe.load (ptr + 1)
    return (coapOptCheck ptr left 2).map fun r =>
      ((269 : UInt16) + (b.toUInt16 <<< 8) + c.toUInt16, r)
  else
    return some (optdelta.toUInt16, ptr, left)

/-- `CoAPDeserialize_Option`: the option and the bytes it takes, or `-1`. The
length nibble is extended as the delta nibble is; `optlen + 269 < 269` is
decided on `int` and never holds. -/
def coapDeserializeOption (buf : Nat) (left : Int) (predeltas : UInt16) :
    Probe (Option (CoapMsgOption × Nat)) := do
  let first ← Probe.load buf
  let optdelta := (first &&& 0xF0) >>> 4
  let optlen := first &&& 0x0F
  match coapOptCheck buf left 1 with
  | none => return none
  | some (ptr, left) =>
    match ← coapOptDelta optdelta ptr left with
    | none => return none
    | some (delta, ptr, left) =>
      match ← coapOptDelta optlen ptr left with
      | none => return none
      | some (len, ptr, _) =>
        return some (⟨predeltas + delta, len, ptr⟩, ptr - buf + len.toNat)

/-- The loop of `CoAPDeserialize_Options` with `slots` free entries: the options
read, and the final pointer or `-1`. -/
def coapDeserializeOptions : (slots ptr : Nat) → (left : Int) → (optdeltas : UInt16) →
    Probe (List CoapMsgOption × Option Nat)
  | 0, ptr, left, _ => do
    if left > 0 then
      let _ ← Probe.load ptr
      return ([], some ptr)
    else return ([], some ptr)
  | slots + 1, ptr, left, optdeltas => do
    if left > 0 then
      let b ← Probe.load ptr
      if b ≠ 0xFF then
        match ← coapDeserializeOption ptr left optdeltas with
        | none => return ([], none)
        | some (option, len) =>
          let (options, last) ←
            coapDeserializeOptions slots (ptr + len) (left - len) option.num
          return (option :: options, last)
      else return ([], some ptr)
    else return ([], some ptr)

/-- `CoAPDeserialize_Payload`: `payloadlen` and `payload`, if assigned. -/
def coapDeserializePayload (buf : Nat) (buflen : Int) : Probe (Option (UInt16 × Nat)) := do
  let b ← Probe.load buf
  if b = 0xFF then return some (UInt16.ofInt (buflen - 1), buf + 1)
  else return none

/-- `CoAPDeserialize_Message` from the result of the options on: `last` is where
they end, `none` a negative count. -/
def coapDeserializeEnd (msg : CoapMessage) (ptr : Nat) (remlen : Int) :
    Option Nat → Probe (Int × CoapMessage)
  | none => return (coapErrorInvalidLength, msg)
  | some last => do
    let count := last - ptr
    if count > remlen then return (coapErrorInvalidLength, msg)
    else
      let payload ← coapDeserializePayload last (remlen - count)
      return (coapSuccess,
        { msg with payloadlen := payload.map Prod.fst, payload := payload.map Prod.snd })

/-- `CoAPDeserialize_Message(msg, buf, buflen)`: the result and the message. -/
def coapDeserializeMessage (buflen : Int) : Probe (Int × CoapMessage) := do
  if buflen < 4 then return (coapErrorInvalidLength, {})
  else
    let header ← coapDeserializeHeader 0
    let ptr := 4
    let remlen := buflen - 4
    let token ← coapDeserializeToken header.tokenlen.toNat ptr
    let msg : CoapMessage := { header := some header, token := token }
    let count := header.tokenlen.toNat
    if count > remlen then return (coapErrorInvalidLength, msg)
    else
      let ptr := ptr + count
      let remlen := remlen - count
      let (options, last) ← coapDeserializeOptions coapMsgMaxOptionNum ptr remlen 0
      coapDeserializeEnd { msg with options := options } ptr remlen last

end AliyunIot.Coap
