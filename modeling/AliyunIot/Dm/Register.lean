import AliyunIot.Dm.DeviceFields
import AliyunIot.Infra.CharBuf

/-!
# Registration replies

`dm_msg_thing_sub_register_reply` and `dm_msg_thing_proxy_product_register_reply`, from the
items that the parser finds in the data of a reply. They are none where bytes behind the
end of one of their `char` arrays are written, or read as part of a string. The messages to
the user are all allocated.
-/

namespace AliyunIot.Dm

open Lib

abbrev dmUtilsUint32Strlen : Nat := 10

/-- The `id` and the `code` of a `dm_msg_response_payload_t`. -/
structure ResponsePayload where
  id : CStr
  code : Int

/-- An item of the array of registered devices: its members, where they are strings. -/
structure RegisterItem where
  productKey : Option CStr
  deviceName : Option CStr
  deviceSecret : Option CStr

/-- An item of `failures`: its names, where they are strings, and the number `code` of its
`errorDetail`. -/
structure FailureItem where
  productKey : Option CStr
  deviceName : Option CStr
  errorCode : Option Int

/-- The data of a reply; a member is none when it is not an array. -/
inductive RegisterData where
  | subRegister (items : Option (List RegisterItem))
  | proxyRegister (successes : Option (List RegisterItem)) (failures : Option (List FailureItem))

/-- A message to the user. -/
structure RegisterEvent where
  id : CStr
  code : Int
  devid : Int

/-- The devices, the array `device_secret`, and the messages sent. -/
structure Registering where
  ctx : DmMgrCtx
  deviceSecret : CharBuf
  sent : List RegisterEvent

def Registering.start (ctx : DmMgrCtx) : Registering :=
  ⟨ctx, .zeros (iotxDeviceSecretLen + 1), []⟩

/-- The id goes to the user through `temp_id`. -/
def Registering.send (s : Registering) (response : ResponsePayload) (code devid : Int) :
    Option Registering := do
  let tempId ← (CharBuf.zeros dmUtilsUint32Strlen).memcpy response.id
  let id ← tempId.text
  some { s with sent := s.sent ++ [⟨id, code, devid⟩] }

/-- The names of an item, through `product_key` and `device_name`. -/
def copyNames (productKey deviceName : CStr) : Option (CStr × CStr) := do
  let productKey ← ((CharBuf.zeros (iotxProductKeyLen + 1)).memcpy productKey).bind CharBuf.text
  let deviceName ← ((CharBuf.zeros (iotxDeviceNameLen + 1)).memcpy deviceName).bind CharBuf.text
  some (productKey, deviceName)

def updateStateMachine (response : ResponsePayload) (ctx : DmMgrCtx) (devid : Int) : DmMgrCtx :=
  if response.code = iotxDmErrCodeSuccess then (dmMgrSetDevStatus ctx devid .registered).2
  else ctx

/-- The body of the loops over registered devices. -/
def registerItem (response : ResponsePayload) (s : Registering) (item : RegisterItem) :
    Option Registering :=
  match item.productKey, item.deviceName, item.deviceSecret with
  | some productKey, some deviceName, some deviceSecret => do
    let pkdn ← copyNames productKey deviceName
    let buf ← s.deviceSecret.memcpy deviceSecret
    let s := { s with deviceSecret := buf }
    match dmMgrSearchDevByPkdn s.ctx pkdn.1 pkdn.2 with
    | none => some s
    | some node =>
      let s := { s with ctx := updateStateMachine response s.ctx node.devid }
      let secret ← s.deviceSecret.text
      let (res, ctx) := dmMgrSetDeviceSecret s.ctx node.devid secret
      let s := { s with ctx := ctx }
      if res ≠ State.success then some s else s.send response response.code node.devid
  | _, _, _ => some s

def failureItem (response : ResponsePayload) (s : Registering) (item : FailureItem) :
    Option Registering :=
  match item.productKey, item.deviceName, item.errorCode with
  | some productKey, some deviceName, some errorCode => do
    let pkdn ← copyNames productKey deviceName
    match dmMgrSearchDevByPkdn s.ctx pkdn.1 pkdn.2 with
    | none => some s
    | some node =>
      let s := { s with ctx := updateStateMachine response s.ctx node.devid }
      s.send response errorCode node.devid
  | _, _, _ => some s

/-- The message to the user about a registration that is refused. -/
def Registering.sendRefused (s : Registering) (response : ResponsePayload) : Option Registering :=
  if response.code ≠ iotxDmErrCodeSuccess then s.send response response.code 0 else some s

def dmMsgThingSubRegisterReply (response : ResponsePayload) (items : Option (List RegisterItem))
    (ctx : DmMgrCtx) : Option (Int × Registering) := do
  let s ← (Registering.start ctx).sendRefused response
  match items with
  | none => some (State.dmJsonParseFailed, s)
  | some items =>
    let s ← items.foldlM (registerItem response) s
    some (State.success, s)

def dmMsgThingProxyProductRegisterReply (response : ResponsePayload)
    (successes : Option (List RegisterItem)) (failures : Option (List FailureItem))
    (ctx : DmMgrCtx) : Option (Int × Registering) :=
  let s := Registering.start ctx
  match successes with
  | none => some (State.dmJsonParseFailed, s)
  | some items => do
    let s ← items.foldlM (registerItem response) s
    match failures with
    | none => some (State.dmJsonParseFailed, s)
    | some items =>
      let s ← items.foldlM (failureItem response) s
      some (State.success, s)

def registerReply (response : ResponsePayload) (data : RegisterData) (ctx : DmMgrCtx) :
    Option (Int × Registering) :=
  match data with
  | .subRegister items => dmMsgThingSubRegisterReply response items ctx
  | .proxyRegister successes failures =>
    dmMsgThingProxyProductRegisterReply response successes failures ctx

/-! ## What a reply lists -/

structure Listing where
  pkdn : CStr × CStr
  deviceSecret : CStr

def RegisterItem.listing (item : RegisterItem) : Option Listing :=
  match item.productKey, item.deviceName, item.deviceSecret with
  | some productKey, some deviceName, some deviceSecret =>
    some ⟨(productKey, deviceName), deviceSecret⟩
  | _, _, _ => none

def FailureItem.pkdn (item : FailureItem) : Option (CStr × CStr) :=
  match item.productKey, item.deviceName, item.errorCode with
  | some productKey, some deviceName, some _ => some (productKey, deviceName)
  | _, _, _ => none

def RegisterData.registered : RegisterData → List Listing
  | .subRegister items => (items.getD []).filterMap RegisterItem.listing
  | .proxyRegister successes _ => (successes.getD []).filterMap RegisterItem.listing

def RegisterData.failed : RegisterData → List (CStr × CStr)
  | .subRegister _ => []
  | .proxyRegister none _ => []
  | .proxyRegister (some _) failures => (failures.getD []).filterMap FailureItem.pkdn

end AliyunIot.Dm
