import AliyunIot.Dm.MessageCache
import AliyunIot.Infra.CStr
import AliyunIot.Infra.Hex
import AliyunIot.Infra.Strtod

/-!
# Messages to the user

The functions of `dm_message.c` that turn a request or a response of the cloud into an event:
the text that they compose for the dispatch thread, in the memory allocated for it.
`ComposeIo` is what their calls give, and `logReport` a LOG_REPORT_TO_CLOUD build.
-/

namespace AliyunIot.Dm

open Cjson Format

/-- The members of `iotx_dm_event_types_t` that carry these messages. -/
inductive EventType where
  | propertySet
  | propertyGet
  | thingServiceRequest
  | rrpcRequest
  | eventPropertyPostReply
  | eventSpecificPostReply
  | gatewayPermit

/-- An event: the bytes allocated for its message, and the text that is meant to be in them. -/
structure EventMessage where
  type : EventType
  buffer : List UInt8
  whole : List UInt8

structure DmMsgRequestPayload where
  id : LiteCjson
  version : LiteCjson
  method : LiteCjson
  params : LiteCjson
  deriving DecidableEq

structure DmMsgResponsePayload where
  id : LiteCjson
  code : LiteCjson
  data : LiteCjson
  message : LiteCjson
  deriving DecidableEq

def dmMsgRequestParse (strtod : Strtod) (payload : List UInt8) : Option DmMsgRequestPayload := do
  let lite ← dmUtilsJsonParse strtod payload .object
  let id ← dmUtilsJsonObjectItem strtod lite (text "id") .string
  let version ← dmUtilsJsonObjectItem strtod lite (text "version") .string
  let method ← dmUtilsJsonObjectItem strtod lite (text "method") .string
  let params ← dmUtilsJsonObjectItem strtod lite (text "params") .invalid
  some ⟨id, version, method, params⟩

/-- `dm_msg_response_parse`; the item of a message that is missing is cleared. -/
def dmMsgResponseParse (strtod : Strtod) (payload : List UInt8) : Option DmMsgResponsePayload := do
  let lite ← dmUtilsJsonParse strtod payload .object
  let id ← dmUtilsJsonObjectItem strtod lite (text "id") .string
  let code ← dmUtilsJsonObjectItem strtod lite (text "code") .number
  let data ← dmUtilsJsonObjectItem strtod lite (text "data") .invalid
  some ⟨id, code, data, (dmUtilsJsonObjectItem strtod lite (text "message") .invalid).getD .zero⟩

/-- The loop of `dm_utils_memtok`: a delimiter that is the last byte does not count. -/
def memtokFrom (delimiter : UInt8) (index : Nat) : List UInt8 → Nat → Nat → Option Nat
  | b :: c :: input, count, offset =>
    if b = delimiter then
      if count + 1 = index then some offset
      else memtokFrom delimiter index (c :: input) (count + 1) (offset + 1)
    else memtokFrom delimiter index (c :: input) count (offset + 1)
  | _, _, _ => none

/-- `dm_utils_memtok`: the offset of the delimiter number `index`. -/
def dmUtilsMemtok (input : List UInt8) (delimiter : UInt8) (index : Nat) : Option Nat :=
  memtokFrom delimiter index input 0 0

abbrev uint32Strlen : Nat := 10

/-- The allocations on the way to an event succeed, and `_dm_msg_send_to_user` takes it. -/
structure ComposeIo where
  malloc : Bool
  sent : Bool

/-- What the functions have in common: a message of `messageLen` bytes is allocated, cleared,
filled by `HAL_Snprintf` and sent. -/
def sendFormatted (io : ComposeIo) (type : EventType) (messageLen : Nat) (fmt : List UInt8)
    (args : List Arg) : Int × Option EventMessage :=
  if io.malloc = false then (State.sysDependMalloc, none)
  else if io.sent = false then (State.failReturn, none)
  else
    (State.success, some ⟨type, cleared messageLen (format fmt args), format fmt args⟩)

def dmMsgPropertySetFmt (logReport : Bool) : List UInt8 :=
  if logReport then text "\x7b\"devid\":%d,\"payload\":%.*s,\"msgid\":%.*s\x7d"
  else text "\x7b\"devid\":%d,\"payload\":%.*s\x7d"

def dmMsgPropertySet (logReport : Bool) (io : ComposeIo) (devid : Int)
    (request : DmMsgRequestPayload) : Int × Option EventMessage :=
  let messageLen := (dmMsgPropertySetFmt logReport).length + uint32Strlen +
    request.params.value.length + 1
  sendFormatted io .propertySet messageLen (dmMsgPropertySetFmt logReport)
    (if logReport then [.int devid, .slice request.params.value, .slice request.id.value]
    else [.int devid, .slice request.params.value])

def dmMsgThingPropertyGetFmt : List UInt8 :=
  text "\x7b\"id\":\"%.*s\",\"devid\":%d,\"payload\":%.*s,\"ctx\":\"%s\"\x7d"

/-- `dm_msg_property_get`; `ctx` is the bytes of the pointer. -/
def dmMsgPropertyGet (io : ComposeIo) (devid : Int) (request : DmMsgRequestPayload)
    (ctx : List UInt8) : Int × Option EventMessage :=
  let ctxAddrStr := infraHex2str ctx
  let messageLen := dmMsgThingPropertyGetFmt.length + request.id.value.length + uint32Strlen +
    request.params.value.length + ctxAddrStr.length + 1
  sendFormatted io .propertyGet messageLen dmMsgThingPropertyGetFmt
    [.slice request.id.value, .int devid, .slice request.params.value, .str ctxAddrStr]

def dmMsgServiceRequestFmt : List UInt8 :=
  text "\x7b\"id\":\"%.*s\",\"devid\":%d,\"serviceid\":\"%.*s\",\"payload\":%.*s,\"ctx\":\"%s\"\x7d"

/-- `strncmp(identifier, "SetProfilerOptions", identifier_len) == 0`. -/
def isProfilerSwitch (identifier : CStr) : Bool :=
  strncmpEq identifier.val (text "SetProfilerOptions")

/-- `dm_msg_thing_service_request`; `device` is what `dm_mgr_search_device_by_pkdn` finds. A
profiler switch goes to `parse_switch_info`. -/
def dmMsgThingServiceRequest (logReport : Bool) (io : ComposeIo) (device : Option Int)
    (identifier : CStr) (request : DmMsgRequestPayload) (ctx : List UInt8) :
    Int × Option EventMessage :=
  match device with
  | none => (State.failReturn, none)
  | some devid =>
    if logReport ∧ isProfilerSwitch identifier then (State.success, none)
    else
      let ctxAddrStr := infraHex2str ctx
      let messageLen := dmMsgServiceRequestFmt.length + request.id.value.length + uint32Strlen +
        identifier.strlen + request.params.value.length + ctxAddrStr.length + 1
      sendFormatted io .thingServiceRequest messageLen dmMsgServiceRequestFmt
        [.slice request.id.value, .int devid, .slice identifier.val, .slice request.params.value,
          .str ctxAddrStr]

def dmMsgEventRrpcRequestFmt : List UInt8 :=
  text ("\x7b\"id\":\"%.*s\",\"devid\":%d,\"serviceid\":\"%.*s\",\"rrpcid\":\"%.*s\"," ++
    "\"payload\":%.*s\x7d")

/-- The service of an rrpc request: what stands behind the second dot of its method. -/
def rrpcServiceid (method : List UInt8) : Option (List UInt8) :=
  (dmUtilsMemtok method 46 2).bind fun serviceOffset =>
    if serviceOffset ≥ method.length - 1 then none else some (method.drop (serviceOffset + 1))

def dmMsgRrpcRequest (io : ComposeIo) (device : Option Int) (rrpcid : CStr)
    (request : DmMsgRequestPayload) : Int × Option EventMessage :=
  match device with
  | none => (State.failReturn, none)
  | some devid =>
    match rrpcServiceid request.method.value with
    | none => (State.failReturn, none)
    | some serviceid =>
      let messageLen := dmMsgEventRrpcRequestFmt.length + request.id.value.length + uint32Strlen +
        serviceid.length + rrpcid.strlen + request.params.value.length + 1
      sendFormatted io .rrpcRequest messageLen dmMsgEventRrpcRequestFmt
        [.slice request.id.value, .int devid, .slice serviceid, .slice rrpcid.val,
          .slice request.params.value]

def responseId (atoi : Atoi) (response : DmMsgResponsePayload) : Int :=
  atoi.convert (precision response.id.value)

/-- The message is put in quotes again, in memory of its own. -/
def needsQuotes (response : DmMsgResponsePayload) : Bool :=
  response.message.value ≠ text "success" && response.message.type = .string

/-- `payload`, and its length: the data of a success, else the message. -/
def postReplyPayload (response : DmMsgResponsePayload) : List UInt8 :=
  if response.message.value = text "success" then response.data.value
  else if needsQuotes response then precision (34 :: (response.message.value ++ [34]))
  else response.message.value

def dmMsgEventPropertyPostReplyFmt : List UInt8 :=
  text "\x7b\"id\":%d,\"code\":%d,\"devid\":%d,\"payload\":%.*s\x7d"

def dmMsgThingEventPropertyPostReply (atoi : Atoi) (io : ComposeIo) (cache : DmMsgCache)
    (response : DmMsgResponsePayload) : Int × Option EventMessage :=
  if response.id.value.length > uint32Strlen then (State.failReturn, none)
  else
    let id := responseId atoi response
    match dmMsgCacheSearch cache id with
    | (_, none) => (State.failReturn, none)
    | (_, some node) =>
      if needsQuotes response ∧ io.malloc = false then (State.failReturn, none)
      else
        let payload := postReplyPayload response
        let messageLen := dmMsgEventPropertyPostReplyFmt.length + uint32Strlen * 3 +
          payload.length + 1
        sendFormatted io .eventPropertyPostReply messageLen dmMsgEventPropertyPostReplyFmt
          [.int id, .int response.code.valueInt, .int node.devid, .slice payload]

def dmMsgEventSpecificPostReplyFmt : List UInt8 :=
  text "\x7b\"id\":%d,\"code\":%d,\"devid\":%d,\"eventid\":\"%.*s\",\"payload\":\"%.*s\"\x7d"

/-- `dm_msg_thing_event_post_reply`; the identifier is the start of the rest of a topic. -/
def dmMsgThingEventPostReply (atoi : Atoi) (io : ComposeIo) (cache : DmMsgCache)
    (identifier : CStr) (identifierLen : Nat) (response : DmMsgResponsePayload) :
    Int × Option EventMessage :=
  if response.id.value.length > uint32Strlen then (State.failReturn, none)
  else
    let id := responseId atoi response
    match dmMsgCacheSearch cache id with
    | (_, none) => (State.failReturn, none)
    | (_, some node) =>
      let messageLen := dmMsgEventSpecificPostReplyFmt.length + uint32Strlen * 3 +
        identifier.strlen + response.message.value.length + 1
      sendFormatted io .eventSpecificPostReply messageLen dmMsgEventSpecificPostReplyFmt
        [.int id, .int response.code.valueInt, .int node.devid,
          .slice (identifier.val.take identifierLen), .slice response.message.value]

/-- `dm_msg_thing_gateway_permit`: the payload is copied as it is, and `rest` is what the last
byte of the memory holds. -/
def dmMsgThingGatewayPermit (strtod : Strtod) (io : ComposeIo) (payload : List UInt8)
    (rest : UInt8) : Int × Option EventMessage :=
  if payload = [] then (State.userInputInvalid, none)
  else
    match liteCjsonParse strtod payload with
    | none => (State.dmJsonParseFailed, none)
    | some lite =>
      if lite.type ≠ .object then (State.dmJsonParseFailed, none)
      else if io.malloc = false then (State.sysDependMalloc, none)
      else if io.sent = false then (State.failReturn, none)
      else (State.success, some ⟨.gatewayPermit, payload ++ [rest], payload⟩)

/-! ## The composed texts -/

theorem sendFormatted_eq {io : ComposeIo} {type : EventType} {len : Nat} {fmt : List UInt8}
    {args : List Arg} {e : EventMessage} :
    (sendFormatted io type len fmt args).2 = some e ↔
      (io.malloc = true ∧ io.sent = true) ∧
        e = ⟨type, cleared len (format fmt args), format fmt args⟩ := by
  unfold sendFormatted
  cases io.malloc <;> cases io.sent <;> simp [eq_comm]

end AliyunIot.Dm
