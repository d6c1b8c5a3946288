import AliyunIot.Ota.Handle

/-!
# Upgrade messages

`ota_callback` and the parsers of `ota_lib.c`, which write the fields of a message into
the live handle one after another. `callback_received` says once what a message does.
-/

namespace AliyunIot.Ota

/-- `iotx_ota_topic_types_t`. -/
inductive OtaTopic where
  | deviceRequest | deviceUpgrate | configGet | configPush | max

/-- What the calls give that a message makes. -/
structure CallbackEnv where
  /-- whether there is memory for the text of a key -/
  malloc : String → Bool
  /-- what the stack holds where `otalib_GetConfigParams` puts `file_size_str` -/
  stack : List UInt8
  md5Init : Bool
  sha256Init : Bool
  ofcInit : Bool

/-- The handle once the parsers returned 0, or as they left it. -/
abbrev Parsed := Except OtaHandle OtaHandle

section
variable (lib : OtaLib) (env : CallbackEnv)

/-- `otalib_GetFirmwareVarlenPara`; `set` stores the pointer, null when there is no
memory. -/
def otalibGetFirmwareVarlenPara (doc : List UInt8) (key : String) (set : Option CStr → OtaHandle)
    (h : OtaHandle) : Parsed :=
  match lib.jsonValueOf doc key with
  | none => .error h
  | some value => if env.malloc key then .ok (set (some (cstrOf value))) else .error (set none)

def otalibGetFirmwareFixlenPara (doc : List UInt8) (key : String) (destLen : Nat)
    (set : List UInt8 → OtaHandle) (h : OtaHandle) : Parsed :=
  match lib.jsonValueOf doc key with
  | none => .error h
  | some value => if value.length > destLen then .error h else .ok (set value)

/-- `memcpy` to the start of a buffer. -/
def overwrite (buf value : List UInt8) : List UInt8 := value ++ buf.drop value.length

abbrev otaFilesizeStrLen : Nat := 16

def otalibGetParams (doc : List UInt8) (h : OtaHandle) : Parsed := do
  let h ← otalibGetFirmwareVarlenPara lib env doc "version" (fun s => { h with version := s }) h
  let h ← otalibGetFirmwareVarlenPara lib env doc "url" (fun s => { h with purl := s }) h
  let h ← otalibGetFirmwareFixlenPara lib doc "md5" 32
    (fun value => { h with md5sum := overwrite h.md5sum value }) h
  otalibGetFirmwareFixlenPara lib doc "size" otaFilesizeStrLen
    (fun value => { h with sizeFile := lib.atoi (cstrOf value) }) h

/-- The number that `otalib_GetConfigParams` reads; its buffer is not cleared. -/
def configSizeOf (value : List UInt8) : UInt32 :=
  lib.atoi (cstrOf ((overwrite env.stack value).take otaFilesizeStrLen))

def otalibGetConfigParams (doc : List UInt8) (h : OtaHandle) : Parsed := do
  let h ← otalibGetFirmwareVarlenPara lib env doc "configId" (fun s => { h with configId := s }) h
  let h ← otalibGetFirmwareFixlenPara lib doc "configSize" otaFilesizeStrLen
    (fun value => { h with configSize := configSizeOf lib env value }) h
  let h ← otalibGetFirmwareVarlenPara lib env doc "sign" (fun s => { h with sign := s }) h
  let h ← otalibGetFirmwareVarlenPara lib env doc "signMethod"
    (fun s => { h with signMethod := s }) h
  let h ← otalibGetFirmwareVarlenPara lib env doc "url" (fun s => { h with cotaUrl := s }) h
  otalibGetFirmwareVarlenPara lib env doc "getType" (fun s => { h with getType := s }) h

/-- The end of a firmware message, with its fields in the handle. -/
def firmwareParsed (h : OtaHandle) : Int × OtaHandle :=
  match h.purl.bind fun url => ofcInit env.ofcInit url h.sizeFetched with
  | none => (-1, { h with chFetch := none })
  | some ch => (0, { h with chFetch := some ch, type := .fota, state := .pushed })

/-- The handle when `ofc_Init` is called for a configuration. -/
def configReset (h : OtaHandle) : OtaHandle :=
  { h with
    sizeFile := h.configSize
    sizeFetched := 0
    md5 := digestInit env.md5Init
    sha256 := digestInit env.sha256Init }

def configParsed (h : OtaHandle) : Int × OtaHandle :=
  match h.cotaUrl.bind fun url => ofcInit env.ofcInit url 0 with
  | none => (-1, { configReset env h with chFetch := none })
  | some ch => (0, { configReset env h with chFetch := some ch, type := .cota, state := .pushed })

def textSuccess : CStr := .ofString "success" (by decide)
def text200 : CStr := .ofString "200" (by decide)

/-- The part of a message that has its fields, if the message says it is a good one. -/
def payloadOf (msg : List UInt8) : OtaTopic → Option (List UInt8)
  | .deviceRequest | .deviceUpgrate =>
    if lib.jsonValueOf msg "message" = some textSuccess.val then lib.jsonValueOf msg "data"
    else none
  | .configGet =>
    if lib.jsonValueOf msg "code" = some text200.val then lib.jsonValueOf msg "data" else none
  | .configPush => lib.jsonValueOf msg "params"
  | .max => none

def otaCallback (h : OtaHandle) (msg : List UInt8) (type : OtaTopic) : Int × OtaHandle :=
  if h.state = .fetching then (-1, h)
  else
    match payloadOf lib msg type with
    | none => (-1, h)
    | some doc =>
      match type with
      | .deviceRequest | .deviceUpgrate =>
        match otalibGetParams lib env doc h with
        | .error h => (-1, h)
        | .ok h => firmwareParsed env h
      | .configGet | .configPush =>
        match otalibGetConfigParams lib env doc h with
        | .error h => (-1, h)
        | .ok h => configParsed env h
      | .max => (-1, h)

end

/-! ## How far a message is read -/

theorem bind_ok (h : OtaHandle) (k : OtaHandle → Parsed) : (Except.ok h : Parsed) >>= k = k h := rfl

section
variable (lib : OtaLib) (env : CallbackEnv) (doc : List UInt8)

/-- The text of a key is there and there is memory for it. -/
structure Reads (key : String) (value : List UInt8) : Prop where
  found : lib.jsonValueOf doc key = some value
  malloc : env.malloc key = true

/-- The text of a key is not there, and its pointer is kept; or there is no memory for it,
and its pointer is null. -/
inductive Missed (key : String) (old : Option CStr) : Option CStr → Prop
  | missing (hv : lib.jsonValueOf doc key = none) : Missed key old old
  | noMemory {value : List UInt8} (hv : lib.jsonValueOf doc key = some value)
    (hm : env.malloc key = false) : Missed key old none

structure Fits (key : String) (destLen : Nat) (value : List UInt8) : Prop where
  found : lib.jsonValueOf doc key = some value
  short : value.length ≤ destLen

/-- A value that is missing or too long for its buffer. -/
def Unfit (key : String) (destLen : Nat) : Prop :=
  ∀ value, lib.jsonValueOf doc key = some value → destLen < value.length

variable {h : OtaHandle}

theorem varlen_cases (key : String) (old : Option CStr) (set : Option CStr → OtaHandle)
    (hset : set old = h) :
    (∃ s, Missed lib env doc key old s ∧
      otalibGetFirmwareVarlenPara lib env doc key set h = .error (set s)) ∨
    ∃ value, Reads lib env doc key value ∧
      otalibGetFirmwareVarlenPara lib env doc key set h = .ok (set (some (cstrOf value))) := by
  unfold otalibGetFirmwareVarlenPara
  rcases hv : lib.jsonValueOf doc key with _ | value
  · exact .inl ⟨old, .missing hv, congrArg Except.error hset.symm⟩
  · cases hm : env.malloc key with
    | false => exact .inl ⟨none, .noMemory hv hm, rfl⟩
    | true => exact .inr ⟨value, ⟨hv, hm⟩, rfl⟩

theorem fixlen_cases (key : String) (destLen : Nat) (set : List UInt8 → OtaHandle) (h : OtaHandle) :
    (Unfit lib doc key destLen ∧
      otalibGetFirmwareFixlenPara lib doc key destLen set h = .error h) ∨
    ∃ value, Fits lib doc key destLen value ∧
      otalibGetFirmwareFixlenPara lib doc key destLen set h = .ok (set value) := by
  unfold otalibGetFirmwareFixlenPara Unfit
  rcases hv : lib.jsonValueOf doc key with _ | value
  · exact .inl ⟨nofun, rfl⟩
  · by_cases hlen : value.length > destLen
    · exact .inl ⟨fun _ h => Option.some.inj h ▸ hlen, if_pos hlen⟩
    · exact .inr ⟨value, ⟨hv, Nat.not_lt.mp hlen⟩, if_neg hlen⟩

/-- What `otalib_GetParams` found, up to the first field that fails, and stored. -/
inductive FirmwareRead (h : OtaHandle) : Parsed → Prop
  | version {s : Option CStr} (hv : Missed lib env doc "version" h.version s) :
    FirmwareRead h (.error { h with version := s })
  | url {version : List UInt8} {s : Option CStr} (hv : Reads lib env doc "version" version)
    (hu : Missed lib env doc "url" h.purl s) :
    FirmwareRead h (.error { h with version := some (cstrOf version), purl := s })
  | md5 {version url : List UInt8} (hv : Reads lib env doc "version" version)
    (hu : Reads lib env doc "url" url) (hs : Unfit lib doc "md5" 32) :
    FirmwareRead h
      (.error { h with version := some (cstrOf version), purl := some (cstrOf url) })
  | size {version url md5 : List UInt8} (hv : Reads lib env doc "version" version)
    (hu : Reads lib env doc "url" url) (hs : Fits lib doc "md5" 32 md5)
    (hz : Unfit lib doc "size" otaFilesizeStrLen) :
    FirmwareRead h
      (.error { h with
        version := some (cstrOf version), purl := some (cstrOf url)
        md5sum := overwrite h.md5sum md5 })
  | all {version url md5 size : List UInt8} (hv : Reads lib env doc "version" version)
    (hu : Reads lib env doc "url" url) (hs : Fits lib doc "md5" 32 md5)
    (hz : Fits lib doc "size" otaFilesizeStrLen size) :
    FirmwareRead h
      (.ok { h with
        version := some (cstrOf version), purl := some (cstrOf url)
        md5sum := overwrite h.md5sum md5, sizeFile := lib.atoi (cstrOf size) })

theorem getParams_read (h : OtaHandle) :
    FirmwareRead lib env doc h (otalibGetParams lib env doc h) := by
  unfold otalibGetParams
  rcases varlen_cases lib env doc "version" h.version _ rfl with
    ⟨s, hv, heq⟩ | ⟨version, hv, heq⟩
  · rw [heq]
    exact .version hv
  rw [heq, bind_ok]
  rcases varlen_cases lib env doc "url" h.purl _ rfl with
    ⟨s, hu, heq⟩ | ⟨url, hu, heq⟩
  · rw [heq]
    exact .url hv hu
  rw [heq, bind_ok]
  rcases fixlen_cases lib doc "md5" 32 _ _ with ⟨hs, heq⟩ | ⟨md5, hs, heq⟩
  · rw [heq]
    exact .md5 hv hu hs
  rw [heq, bind_ok]
  rcases fixlen_cases lib doc "size" otaFilesizeStrLen _ _ with ⟨hz, heq⟩ | ⟨size, hz, heq⟩
  · rw [heq]
    exact .size hv hu hs hz
  rw [heq]
  exact .all hv hu hs hz

/-- The same for `otalib_GetConfigParams`. -/
inductive ConfigRead (h : OtaHandle) : Parsed → Prop
  | configId {s : Option CStr} (hi : Missed lib env doc "configId" h.configId s) :
    ConfigRead h (.error { h with configId := s })
  | configSize {configId : List UInt8} (hi : Reads lib env doc "configId" configId)
    (hz : Unfit lib doc "configSize" otaFilesizeStrLen) :
    ConfigRead h (.error { h with configId := some (cstrOf configId) })
  | sign {configId size : List UInt8} {s : Option CStr}
    (hi : Reads lib env doc "configId" configId)
    (hz : Fits lib doc "configSize" otaFilesizeStrLen size)
    (hs : Missed lib env doc "sign" h.sign s) :
    ConfigRead h
      (.error { h with
        configId := some (cstrOf configId), configSize := configSizeOf lib env size, sign := s })
  | signMethod {configId size sign : List UInt8} {s : Option CStr}
    (hi : Reads lib env doc "configId" configId)
    (hz : Fits lib doc "configSize" otaFilesizeStrLen size) (hs : Reads lib env doc "sign" sign)
    (hm : Missed lib env doc "signMethod" h.signMethod s) :
    ConfigRead h
      (.error { h with
        configId := some (cstrOf configId), configSize := configSizeOf lib env size
        sign := some (cstrOf sign), signMethod := s })
  | url {configId size sign method : List UInt8} {s : Option CStr}
    (hi : Reads lib env doc "configId" configId)
    (hz : Fits lib doc "configSize" otaFilesizeStrLen size) (hs : Reads lib env doc "sign" sign)
    (hm : Reads lib env doc "signMethod" method) (hu : Missed lib env doc "url" h.cotaUrl s) :
    ConfigRead h
      (.error { h with
        configId := some (cstrOf configId), configSize := configSizeOf lib env size
        sign := some (cstrOf sign), signMethod := some (cstrOf method), cotaUrl := s })
  | getType {configId size sign method url : List UInt8} {s : Option CStr}
    (hi : Reads lib env doc "configId" configId)
    (hz : Fits lib doc "configSize" otaFilesizeStrLen size) (hs : Reads lib env doc "sign" sign)
    (hm : Reads lib env doc "signMethod" method) (hu : Reads lib env doc "url" url)
    (hg : Missed lib env doc "getType" h.getType s) :
    ConfigRead h
      (.error { h with
        configId := some (cstrOf configId), configSize := configSizeOf lib env size
        sign := some (cstrOf sign), signMethod := some (cstrOf method)
        cotaUrl := some (cstrOf url), getType := s })
  | all {configId size sign method url getType : List UInt8}
    (hi : Reads lib env doc "configId" configId)
    (hz : Fits lib doc "configSize" otaFilesizeStrLen size) (hs : Reads lib env doc "sign" sign)
    (hm : Reads lib env doc "signMethod" method) (hu : Reads lib env doc "url" url)
    (hg : Reads lib env doc "getType" getType) :
    ConfigRead h
      (.ok { h with
        configId := some (cstrOf configId), configSize := configSizeOf lib env size
        sign := some (cstrOf sign), signMethod := some (cstrOf method)
        cotaUrl := some (cstrOf url), getType := some (cstrOf getType) })

theorem getConfigParams_read (h : OtaHandle) :
    ConfigRead lib env doc h (otalibGetConfigParams lib env doc h) := by
  unfold otalibGetConfigParams
  rcases varlen_cases lib env doc "configId" h.configId _ rfl with
    ⟨s, hi, heq⟩ | ⟨configId, hi, heq⟩
  · rw [heq]
    exact .configId hi
  rw [heq, bind_ok]
  rcases fixlen_cases lib doc "configSize" otaFilesizeStrLen _ _ with ⟨hz, heq⟩ | ⟨size, hz, heq⟩
  · rw [heq]
    exact .configSize hi hz
  rw [heq, bind_ok]
  rcases varlen_cases lib env doc "sign" h.sign _ rfl with ⟨s, hs, heq⟩ | ⟨sign, hs, heq⟩
  · rw [heq]
    exact .sign hi hz hs
  rw [heq, bind_ok]
  rcases varlen_cases lib env doc "signMethod" h.signMethod _ rfl with
    ⟨s, hm, heq⟩ | ⟨method, hm, heq⟩
  · rw [heq]
    exact .signMethod hi hz hs hm
  rw [heq, bind_ok]
  rcases varlen_cases lib env doc "url" h.cotaUrl _ rfl with ⟨s, hu, heq⟩ | ⟨url, hu, heq⟩
  · rw [heq]
    exact .url hi hz hs hm hu
  rw [heq, bind_ok]
  rcases varlen_cases lib env doc "getType" h.getType _ rfl with
    ⟨s, hg, heq⟩ | ⟨getType, hg, heq⟩
  · rw [heq]
    exact .getType hi hz hs hm hu hg
  rw [heq]
  exact .all hi hz hs hm hu hg

def Parsed.handle : Parsed → OtaHandle
  | .ok h | .error h => h

theorem FirmwareRead.frame {h : OtaHandle} {p : Parsed} (hr : FirmwareRead lib env doc h p) :
    p.handle = { h with
      version := p.handle.version, purl := p.handle.purl, md5sum := p.handle.md5sum
      sizeFile := p.handle.sizeFile } := by
  cases hr <;> rfl

theorem ConfigRead.frame {h : OtaHandle} {p : Parsed} (hr : ConfigRead lib env doc h p) :
    p.handle = { h with
      configId := p.handle.configId, configSize := p.handle.configSize, sign := p.handle.sign
      signMethod := p.handle.signMethod, cotaUrl := p.handle.cotaUrl
      getType := p.handle.getType } := by
  cases hr <;> rfl

def OtaTopic.kind : OtaTopic → OtaType
  | .deviceRequest | .deviceUpgrate => .fota
  | .configGet | .configPush => .cota
  | .max => .none

/-- What `ota_callback` does with a message. -/
inductive Received (h : OtaHandle) (msg : List UInt8) (type : OtaTopic) : Int × OtaHandle → Prop
  | ignored (hig : h.state = .fetching ∨ payloadOf lib msg type = none) :
    Received h msg type (-1, h)
  | firmwareUnread {doc : List UInt8} {after : OtaHandle} (hs : h.state ≠ .fetching)
    (hk : type.kind = .fota) (hd : payloadOf lib msg type = some doc)
    (hr : FirmwareRead lib env doc h (.error after)) : Received h msg type (-1, after)
  | firmwareClosed {doc : List UInt8} {after : OtaHandle} (hs : h.state ≠ .fetching)
    (hk : type.kind = .fota) (hd : payloadOf lib msg type = some doc)
    (hr : FirmwareRead lib env doc h (.ok after))
    (hno : (after.purl.bind fun url => ofcInit env.ofcInit url after.sizeFetched) = none) :
    Received h msg type (-1, { after with chFetch := none })
  | firmware {doc : List UInt8} {after : OtaHandle} {url : CStr} {ch : FetchChannel}
    (hs : h.state ≠ .fetching) (hk : type.kind = .fota)
    (hd : payloadOf lib msg type = some doc) (hr : FirmwareRead lib env doc h (.ok after))
    (hu : after.purl = some url) (hc : ofcInit env.ofcInit url after.sizeFetched = some ch) :
    Received h msg type
      (0, { after with chFetch := some ch, type := .fota, state := .pushed })
  | configUnread {doc : List UInt8} {after : OtaHandle} (hs : h.state ≠ .fetching)
    (hk : type.kind = .cota) (hd : payloadOf lib msg type = some doc)
    (hr : ConfigRead lib env doc h (.error after)) : Received h msg type (-1, after)
  | configClosed {doc : List UInt8} {after : OtaHandle} (hs : h.state ≠ .fetching)
    (hk : type.kind = .cota) (hd : payloadOf lib msg type = some doc)
    (hr : ConfigRead lib env doc h (.ok after))
    (hno : (after.cotaUrl.bind fun url => ofcInit env.ofcInit url 0) = none) :
    Received h msg type (-1, { configReset env after with chFetch := none })
  | config {doc : List UInt8} {after : OtaHandle} {url : CStr} {ch : FetchChannel}
    (hs : h.state ≠ .fetching) (hk : type.kind = .cota)
    (hd : payloadOf lib msg type = some doc) (hr : ConfigRead lib env doc h (.ok after))
    (hu : after.cotaUrl = some url) (hc : ofcInit env.ofcInit url 0 = some ch) :
    Received h msg type
      (0, { configReset env after with chFetch := some ch, type := .cota, state := .pushed })

theorem firmware_received {h : OtaHandle} {msg doc : List UInt8} {type : OtaTopic}
    (hs : h.state ≠ .fetching) (hk : type.kind = .fota)
    (hd : payloadOf lib msg type = some doc) :
    Received lib env h msg type
      (match otalibGetParams lib env doc h with
        | .error h => (-1, h)
        | .ok h => firmwareParsed env h) := by
  have hr := getParams_read lib env doc h
  generalize otalibGetParams lib env doc h = parsed at hr ⊢
  rcases parsed with after | after
  · exact .firmwareUnread hs hk hd hr
  · dsimp only
    unfold firmwareParsed
    split
    · next hno => exact .firmwareClosed hs hk hd hr hno
    · next ch hch =>
      obtain ⟨url, hu, hc⟩ := Option.bind_eq_some_iff.mp hch
      exact .firmware hs hk hd hr hu hc

theorem config_received {h : OtaHandle} {msg doc : List UInt8} {type : OtaTopic}
    (hs : h.state ≠ .fetching) (hk : type.kind = .cota)
    (hd : payloadOf lib msg type = some doc) :
    Received lib env h msg type
      (match otalibGetConfigParams lib env doc h with
        | .error h => (-1, h)
        | .ok h => configParsed env h) := by
  have hr := getConfigParams_read lib env doc h
  generalize otalibGetConfigParams lib env doc h = parsed at hr ⊢
  rcases parsed with after | after
  · exact .configUnread hs hk hd hr
  · dsimp only
    unfold configParsed
    split
    · next hno => exact .configClosed hs hk hd hr hno
    · next ch hch =>
      obtain ⟨url, hu, hc⟩ := Option.bind_eq_some_iff.mp hch
      exact .config hs hk hd hr hu hc

theorem callback_received (h : OtaHandle) (msg : List UInt8) (type : OtaTopic) :
    Received lib env h msg type (otaCallback lib env h msg type) := by
  unfold otaCallback
  split
  · next hs => exact .ignored (.inl hs)
  · next hs =>
    split
    · next hd => exact .ignored (.inr hd)
    · next doc hd =>
      cases type with
      | deviceRequest => exact firmware_received lib env hs rfl hd
      | deviceUpgrate => exact firmware_received lib env hs rfl hd
      | configGet => exact config_received lib env hs rfl hd
      | configPush => exact config_received lib env hs rfl hd
      | max => cases hd

end

end AliyunIot.Ota
