import AliyunIot.Infra.CStr
import AliyunIot.Infra.Format
import AliyunIot.Infra.State

/-!
# Dynamic registration over HTTP

`_http_dynamic_register` of `dynreg.c`. The reply goes into a buffer of 256 bytes, and
`_parse_dynreg_result` looks in it three times for a key and takes what stands behind it: for the
code, for the data, and in the data for the device secret. A payload is the string from a place of
the buffer on, and comes with the `room` from there to the end of the buffer.
-/

namespace AliyunIot.Dynreg

open Format

def httpResponsePayloadLen : Nat := 256
def iotxProductKeyLen : Nat := 20
def iotxProductSecretLen : Nat := 64
def iotxDeviceNameLen : Nat := 32
def iotxDeviceSecretLen : Nat := 64

abbrev stateUserInputPs : Int := State.userInputBase - 0x0004
abbrev stateHttpDynregFailResp : Int := -0x0600 - 0x0001
abbrev stateHttpDynregInvalidDs : Int := -0x0600 - 0x0002

/-- `start` and `end` of a value; `end` is its last byte. -/
structure Slice where
  start : Nat
  stop : Nat

def Slice.len (s : Slice) : Nat := s.stop + 1 - s.start

/-- `_parse_string_value` of the string that begins at `pos`, and where it leaves `pos`. -/
def parseStringValue (payload : List UInt8) (pos : Nat) : Slice × Nat :=
  let idx := pos + 1 + (payload.drop (pos + 1)).idxOf 34
  (⟨pos + 1, idx - 1⟩, idx)

/-- How far the loop over the brackets of `_parse_dynreg_value` gets. -/
def bracketLoop (bracketCnt : Nat) : List UInt8 → Nat
  | [] => 0
  | b :: s =>
    let bracketCnt :=
      if b = 123 then bracketCnt + 1 else if b = 125 then bracketCnt - 1 else bracketCnt
    if bracketCnt = 0 then 0 else bracketLoop bracketCnt s + 1

/-- `_parse_dynreg_value`: the value at `pos`, none where it returns -1, and where it leaves
`pos`. -/
def parseDynregValue (payload key : List UInt8) (pos : Nat) : Option Slice × Nat :=
  if text "code" <+: key then
    let idx := pos + ((payload.drop pos).takeWhile isDigit).length
    (some ⟨pos, idx - 1⟩, idx - 1)
  else if text "data" <+: key then
    if payload.getD pos 0 ≠ 123 then (none, pos)
    else
      let idx := pos + bracketLoop 0 (payload.drop pos)
      (some ⟨pos, idx⟩, idx)
  else if payload.getD pos 0 ≠ 34 then (none, pos)
  else
    let (slice, pos) := parseStringValue payload pos
    (some slice, pos)

/-- The loop of `_parse_dynreg_result` from `idx` on, none where the comparison with the key
reads outside of the buffer. -/
def parseDynregLoop (payload key : List UInt8) (room : Nat) :
    Nat → Nat → Slice → Option (Int × Slice)
  | 0, _, slice => some (-1, slice)
  | rounds + 1, idx, slice =>
    if payload.length ≤ idx then some (-1, slice)
    else if payload.getD idx 0 = 34 then
      let pos := idx + 1 + (payload.drop (idx + 1)).idxOf 34
      if pos = payload.length ∨ payload.getD (pos + 1) 0 ≠ 58 then some (-1, slice)
      else
        match parseDynregValue payload key (pos + 2) with
        | (none, pos) => parseDynregLoop payload key room rounds (pos + 1) slice
        | (some slice, pos) =>
          if room < idx + 1 + key.length then none
          else if key <+: payload.drop (idx + 1) then some (0, slice)
          else parseDynregLoop payload key room rounds (pos + 1) slice
    else parseDynregLoop payload key room rounds (idx + 1) slice

/-- `_parse_dynreg_result`. Every round moves `idx`, so there are as many as bytes at most. -/
def parseDynregResult (payload key : List UInt8) (room : Nat) (slice : Slice) :
    Option (Int × Slice) :=
  parseDynregLoop payload key room payload.length 0 slice

def recvCallback (payload : List UInt8) (payloadLen : Nat) (ptr : List UInt8) : List UInt8 :=
  let len := (precision payload).length
  if payloadLen < len + ptr.length then payload
  else payload.take len ++ (ptr ++ payload.drop (len + ptr.length))

def takesNoArgument : List UInt8 → Bool
  | [] => true
  | 37 :: 37 :: s => takesNoArgument s
  | b :: s => b ≠ 37 && takesNoArgument s

/-- What comes of the request: an error, of an allocation or of the transport, or the body of a
response, of which `wrapper_http_perform` hands over what leaves room for a terminator. -/
inductive Reply where
  | failed (error : {state : Int // state < State.success})
  | body (bytes : List UInt8)

/-- How the call ends: it reads outside of the response buffer or, on behalf of the buffer,
arguments that were not given; or it returns, with the secret that it leaves. -/
inductive Outcome where
  | outside
  | returned (res : Int) (deviceSecret : List UInt8)
  deriving DecidableEq

/-- `iotx_device_secret` of a device. -/
abbrev SecretArray := {a : List UInt8 // a.length = iotxDeviceSecretLen + 1}

/-- `_fetch_dynreg_http_resp` from the third scan on, with what is left of the buffer behind the
beginning of the data, and the slice of the code. -/
def storeDeviceSecret (rest : List UInt8) (code : Slice) (deviceSecret : SecretArray) : Outcome :=
  match parseDynregResult (precision rest) (text "deviceSecret") rest.length code with
  | none => .outside
  | some (_, slice) =>
    -- the log prints the value before its length is looked at
    if 0 < slice.len ∧ rest.length ≤ slice.start then .outside
    else if iotxDeviceSecretLen < slice.len then
      .returned stateHttpDynregInvalidDs deviceSecret.val
    else if 0 < slice.len ∧ rest.length < slice.start + slice.len then .outside
    else
      .returned State.success
        ((rest.drop slice.start).take slice.len ++ deviceSecret.val.drop slice.len)

/-- `_fetch_dynreg_http_resp`, once the response is in the buffer; `stateHandler` says whether a
callback for the state event is set. -/
def parseResponse (stateHandler : Bool) (responsePayload : List UInt8)
    (deviceSecret : SecretArray) : Outcome :=
  let payload := precision responsePayload
  if (0 : UInt8) ∉ responsePayload then .outside
  else
    match parseDynregResult payload (text "code") responsePayload.length ⟨0, 0⟩ with
    | none => .outside
    | some (_, code) =>
      if responsePayload.length < code.start + 3 then .outside
      else if (responsePayload.drop code.start).take 3 ≠ text "200" then
        -- the response is the format of the event's message
        if stateHandler ∧ takesNoArgument (payload.drop code.start) = false then .outside
        else .returned stateHttpDynregFailResp deviceSecret.val
      else
        match parseDynregResult payload (text "data") responsePayload.length ⟨0, 0⟩ with
        | none => .outside
        | some (_, data) =>
          storeDeviceSecret (responsePayload.drop (data.start + 1)) code deviceSecret

def fetchDynregHttpResp (stateHandler : Bool) (reply : Reply) (deviceSecret : SecretArray) :
    Outcome :=
  match reply with
  | .failed error => .returned error deviceSecret.val
  | .body bytes =>
    let received := bytes.take (httpResponsePayloadLen - 1)
    parseResponse stateHandler
      (recvCallback (List.replicate httpResponsePayloadLen 0) httpResponsePayloadLen received)
      deviceSecret

structure DevMetaInfo where
  productKey : CStr
  productSecret : CStr
  deviceName : CStr
  deviceSecret : SecretArray

/-- `_http_dynamic_register`: what it returns, and the secret that it leaves. -/
def httpDynamicRegister (stateHandler : Bool) (reply : Reply) (info : DevMetaInfo) : Outcome :=
  if iotxProductKeyLen < info.productKey.strlen then
    .returned State.userInputPk info.deviceSecret.val
  else if iotxProductSecretLen < info.productSecret.strlen then
    .returned stateUserInputPs info.deviceSecret.val
  else if iotxDeviceNameLen < info.deviceName.strlen then
    .returned State.userInputDn info.deviceSecret.val
  else
    match fetchDynregHttpResp stateHandler reply info.deviceSecret with
    | .outside => .outside
    | .returned res deviceSecret =>
      .returned (if res < State.success then res else State.success) deviceSecret

end AliyunIot.Dynreg
