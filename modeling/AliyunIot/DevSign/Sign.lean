import AliyunIot.Infra.CharAppend
import AliyunIot.Infra.Hex
import AliyunIot.Infra.State

/-!
# MQTT sign-in data

`dev_sign_mqtt.c`: `IOT_Sign_MQTT` with `_sign_get_clientid` and `_iotx_generate_sign_string`.
The answer is none when a buffer is read or written outside its size. `utils_hmac_sha256` is a
parameter.
-/

namespace AliyunIot.DevSign

open CharBuf

abbrev iotxProductKeyLen : Nat := 20
abbrev iotxDeviceNameLen : Nat := 32
abbrev iotxDeviceSecretLen : Nat := 64

abbrev devSignSourceMaxlen : Nat := 200
abbrev devSignHostnameMaxlen : Nat := 64
abbrev devSignClientIdMaxlen : Nat := 200
abbrev devSignUsernameMaxlen : Nat := 64
abbrev devSignPasswordMaxlen : Nat := 65

abbrev signFmtLen : Nat := 50

/-- `iotx_dev_meta_info_t`: each string is terminated in an array one byte longer than its
limit. -/
structure IotxDevMetaInfo where
  productKey : CStr
  deviceName : CStr
  deviceSecret : CStr
  productKey_le : productKey.strlen ≤ iotxProductKeyLen
  deviceName_le : deviceName.strlen ≤ iotxDeviceNameLen
  deviceSecret_le : deviceSecret.strlen ≤ iotxDeviceSecretLen

structure IotxSignMqtt where
  hostname : CharBuf
  port : Nat
  clientid : CharBuf
  username : CharBuf
  password : CharBuf

/-- `memset(signout, 0, sizeof(iotx_sign_mqtt_t))`. -/
def IotxSignMqtt.cleared : IotxSignMqtt where
  hostname := zeros devSignHostnameMaxlen
  port := 0
  clientid := zeros devSignClientIdMaxlen
  username := zeros devSignUsernameMaxlen
  password := zeros devSignPasswordMaxlen

/-! ## Texts -/

def textBar : CStr := ⟨[0x7C], by decide⟩
def textEquals : CStr := ⟨[0x3D], by decide⟩
def textComma : CStr := ⟨[0x2C], by decide⟩
def textDot : CStr := ⟨[0x2E], by decide⟩
def textAmpersand : CStr := ⟨[0x26], by decide⟩

def timestampValue : CStr := .ofString "2524608000000" (by decide)

def modeItlsDnsId2 : CStr := .ofString "8" (by decide)

/-- `SECURE_MODE` with `SUPPORT_TLS`. -/
def secureMode : CStr := .ofString "2" (by decide)

/-- `clientid_kv`, its third value set to `mode`. -/
def clientidKv (mode : CStr) : List (CStr × CStr) :=
  [(.ofString "timestamp" (by decide), timestampValue),
    (.ofString "_v" (by decide), .ofString "sdk-c-3.1.0" (by decide)),
    (.ofString "securemode" (by decide), mode),
    (.ofString "signmethod" (by decide), .ofString "hmacsha256" (by decide)),
    (.ofString "lan" (by decide), .ofString "C" (by decide)),
    (.ofString "_ss" (by decide), .ofString "1" (by decide)),
    (.ofString "gw" (by decide), .ofString "0" (by decide)),
    (.ofString "ext" (by decide), .ofString "0" (by decide))]

/-- `g_infra_mqtt_domain`; the entry of the custom region is set by the application. -/
def gInfraMqttDomain (custom : Option CStr) : Nat → Option CStr
  | 0 => some (.ofString "iot-as-mqtt.cn-shanghai.aliyuncs.com" (by decide))
  | 1 => some (.ofString "iot-as-mqtt.ap-southeast-1.aliyuncs.com" (by decide))
  | 2 => some (.ofString "iot-as-mqtt.ap-northeast-1.aliyuncs.com" (by decide))
  | 3 => some (.ofString "iot-as-mqtt.us-west-1.aliyuncs.com" (by decide))
  | 4 => some (.ofString "iot-as-mqtt.eu-central-1.aliyuncs.com" (by decide))
  | 5 => custom
  | _ => none

abbrev iotxCloudRegionCustom : Nat := 5
abbrev iotxMqttDomainNumber : Nat := 6

/-! ## `_sign_get_clientid` -/

/-- The loop over `clientid_kv`. -/
def clientidLoop : List (CStr × CStr) → CharBuf → Option (Int × CharBuf)
  | [], clientid => some (State.success, clientid)
  | (key, value) :: kvs, clientid => do
    let text ← clientid.text
    if text.strlen + key.strlen + value.strlen + 2 ≥ devSignClientIdMaxlen then
      return (State.mqttSignClientidBufShort, clientid)
    let clientid ← clientid.strAppend key
    let clientid ← clientid.strAppend textEquals
    let clientid ← clientid.strAppend value
    let clientid ← clientid.strAppend textComma
    clientidLoop kvs clientid

/-- `custom_kv`, when it is given. -/
def appendCustom (customKv : Option CStr) (clientid : CharBuf) : Option (Int × CharBuf) :=
  match customKv with
  | none => some (State.success, clientid)
  | some kv => do
    let text ← clientid.text
    if text.strlen + kv.strlen + 1 ≥ devSignClientIdMaxlen then
      return (State.mqttSignClientidBufShort, clientid)
    let clientid ← clientid.strAppend kv
    let clientid ← clientid.strAppend textComma
    return (State.success, clientid)

/-- `_sign_get_clientid` for the array `device_id`; the client id is cleared first. -/
def signGetClientid (deviceId : CharBuf) (customKv : Option CStr) (enableItls : UInt8) :
    Option (Int × CharBuf) := do
  let clientid := zeros devSignClientIdMaxlen
  let id ← deviceId.text
  if id.strlen + 1 ≥ devSignClientIdMaxlen then
    return (State.mqttSignClientidBufShort, clientid)
  let clientid ← clientid.memcpy id
  let clientid ← clientid.strAppend textBar
  let mode := if enableItls > 0 then modeItlsDnsId2 else secureMode
  let (res, clientid) ← clientidLoop (clientidKv mode) clientid
  if res < State.success then return (res, clientid)
  let (res, clientid) ← appendCustom customKv clientid
  if res < State.success then return (res, clientid)
  let text ← clientid.text
  return (State.success, clientid.set (text.strlen - 1) 0x7C)

/-! ## `_iotx_generate_sign_string` -/

def hex2str (input : List UInt8) : List UInt8 := infraHex2str input

def signPieces (deviceId deviceName productKey : CStr) : List CStr :=
  [.ofString "clientId" (by decide), deviceId, .ofString "deviceName" (by decide), deviceName,
    .ofString "productKey" (by decide), productKey, .ofString "timestamp" (by decide),
    timestampValue]

/-- `_iotx_generate_sign_string`: its code, and the 64 digits it writes at the start of
`sign_string`. -/
def iotxGenerateSignString (utilsHmacSha256 : List UInt8 → List UInt8 → Vector UInt8 32)
    (deviceId : CharBuf) (deviceName productKey deviceSecret : CStr) (signString : CharBuf) :
    Option (Int × CharBuf) := do
  let id ← deviceId.text
  let signsourceLen := (signFmtLen + id.strlen + deviceName.strlen + productKey.strlen
    + timestampValue.strlen) % 65536
  if signsourceLen ≥ devSignSourceMaxlen then
    return (State.mqttSignSourceBufShort, signString)
  let signsource ← (signPieces id deviceName productKey).foldlM strAppend
    (zeros devSignSourceMaxlen)
  let source ← signsource.text
  let signHex := utilsHmacSha256 source.val deviceSecret.val
  let digits := hex2str signHex.toList
  if digits.length ≤ signString.length then
    return (State.success, digits ++ signString.drop digits.length)
  else none

/-! ## `IOT_Sign_MQTT` -/

def signHostname (customDomain : Option CStr) (region : Nat) (productKey : CStr)
    (hostname : CharBuf) : Option (Int × CharBuf) :=
  if region = iotxCloudRegionCustom then
    match gInfraMqttDomain customDomain region with
    | none => some (State.userInputMqttDomain, hostname)
    | some domain => do
      let length := (domain.strlen + 1) % 65536
      if length ≥ devSignHostnameMaxlen then return (State.mqttSignHostnameBufShort, hostname)
      let hostname ← (zeros devSignHostnameMaxlen).memcpy domain
      return (State.success, hostname)
  else do
    let domain ← gInfraMqttDomain customDomain region
    let length := (productKey.strlen + domain.strlen + 2) % 65536
    if length ≥ devSignHostnameMaxlen then return (State.mqttSignHostnameBufShort, hostname)
    let hostname ← (zeros devSignHostnameMaxlen).memcpy productKey
    let hostname ← hostname.strAppend textDot
    let hostname ← hostname.strAppend domain
    return (State.success, hostname)

def signUsername (deviceName productKey : CStr) (username : CharBuf) : Option (Int × CharBuf) := do
  let length := (deviceName.strlen + productKey.strlen + 2) % 65536
  if length ≥ devSignUsernameMaxlen then return (State.mqttSignUsernameBufShort, username)
  let username ← (zeros devSignUsernameMaxlen).memcpy deviceName
  let username ← username.strAppend textAmpersand
  let username ← username.strAppend productKey
  return (State.success, username)

/-- `device_id`, an array of `IOTX_PRODUCT_KEY_LEN + IOTX_DEVICE_NAME_LEN + 1` bytes. -/
def fillDeviceId (productKey deviceName : CStr) : Option CharBuf := do
  let deviceId ← (zeros (iotxProductKeyLen + iotxDeviceNameLen + 1)).memcpy productKey
  let deviceId ← deviceId.strAppend textDot
  deviceId.strAppend deviceName

def iotSignMqtt (utilsHmacSha256 : List UInt8 → List UInt8 → Vector UInt8 32)
    (customDomain : Option CStr) (region : Nat) (metaInfo : Option IotxDevMetaInfo)
    (signout : IotxSignMqtt) : Option (Int × IotxSignMqtt) :=
  match metaInfo with
  | none => some (State.userInputInvalid, signout)
  | some info =>
    if region ≥ iotxMqttDomainNumber then some (State.userInputInvalid, signout)
    else do
      let signout := IotxSignMqtt.cleared
      let deviceId ← fillDeviceId info.productKey info.deviceName
      let (res, clientid) ← signGetClientid deviceId none 0
      let signout := { signout with clientid := clientid }
      if res < State.success then return (State.mqttSignClientidBufShort, signout)
      let (res, password) ← iotxGenerateSignString utilsHmacSha256 deviceId info.deviceName
        info.productKey info.deviceSecret signout.password
      let signout := { signout with password := password }
      if res < State.success then return (res, signout)
      let (res, hostname) ← signHostname customDomain region info.productKey signout.hostname
      let signout := { signout with hostname := hostname }
      if res < State.success then return (res, signout)
      let (res, username) ← signUsername info.deviceName info.productKey signout.username
      let signout := { signout with username := username }
      if res < State.success then return (res, signout)
      return (State.success, { signout with port := 443 })

end AliyunIot.DevSign
