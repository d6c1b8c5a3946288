import AliyunIot.Dynreg.Register
import AliyunIot.Infra.CharBuf
import AliyunIot.Infra.JsonValue
import AliyunIot.Mqtt.Client

/-!
# Credentials in messages

`_mqtt_dynreg_topic_handle` and `iotx_mc_parse_identity_response` take credentials out of a payload
with `infra_json_value`, and copy what it finds without the first and the last byte. They are
right about the payloads where that is long enough, leaves room for the asterisks, and is the
value of the member that is wanted (`credentials_iff`).
-/

namespace AliyunIot.Mqtt.Credentials

open Format JsonValue Lib.Json
open Dynreg (iotxProductKeyLen iotxDeviceNameLen iotxDeviceSecretLen SecretArray)

/-- What `memcpy` takes of a value without its first byte, two bytes less than it has; none where
it reads behind the payload. The length is of type `uint32_t`. -/
def unquoted (payload : List UInt8) (slice : Slice) : Option (List UInt8) :=
  let len := (2 ^ 32 + slice.valueLen - 2) % 2 ^ 32
  if slice.value + 1 + len ≤ payload.length then
    some ((payload.drop (slice.value + 1)).take len)
  else none

/-! ## The device secret -/

def registerTopic : List UInt8 := text "/ext/register"
def asterisk : List UInt8 := text "**********************"

theorem length_asterisk : asterisk.length = 22 := by decide

/-- How the handler ends: it reads or writes outside of the payload and the secret; or nothing is
taken; or a slice is, with the secret and the payload that are left. -/
inductive Handled where
  | outside
  | ignored
  | received (slice : Slice) (ds : CharBuf) (payload : List UInt8)

def mqttDynregTopicHandle (ds : CharBuf) (eventType : EventType) (topicInfo : TopicInfo) :
    Handled :=
  match eventType with
  | .publishReceived =>
    -- behind a topic that is shorter, `memcmp` goes on in the packet
    if registerTopic <+: topicInfo.ptopic then
      match infraJsonValue topicInfo.payload (text "deviceSecret") with
      | none => .ignored
      | some deviceSecret =>
        match unquoted topicInfo.payload deviceSecret with
        | none => .outside
        | some secret =>
          match ds.write 0 secret,
            CharBuf.write topicInfo.payload (deviceSecret.value + 1 + 5) asterisk with
          | some ds, some payload => .received deviceSecret ds payload
          | _, _ => .outside
    else .ignored
  | _ => .ignored

/-! ## The identity -/

def identityTopic : List UInt8 := text "/ext/auth/identity/response"

/-- An array with room for `limit` characters. -/
abbrev Field (limit : Nat) := {a : CharBuf // a.length = limit + 1}

structure SdkImplCtx where
  productKey : Field iotxProductKeyLen
  deviceName : Field iotxDeviceNameLen

theorem length_copy_zeros {limit : Nat} {data : CStr} (h : data.strlen ≤ limit) :
    ((CharBuf.zeros (limit + 1)).copy data).length = limit + 1 := by
  rw [CharBuf.length_copy, CharBuf.length_zeros]
  rw [CharBuf.length_zeros]
  exact Nat.le_succ_of_le h

/-- `IOT_Ioctl` with `IOTX_IOCTL_SET_PRODUCT_KEY` or `IOTX_IOCTL_SET_DEVICE_NAME`. -/
def iotIoctlSet {limit : Nat} (field : Field limit) (data : CStr) : Field limit :=
  if h : data.strlen ≤ limit then ⟨(CharBuf.zeros (limit + 1)).copy data, length_copy_zeros h⟩
  else field

structure Allocs where
  payload : Bool
  productKey : Bool
  deviceName : Bool

def Allocs.Ok (allocs : Allocs) : Prop :=
  allocs.payload = true ∧ allocs.productKey = true ∧ allocs.deviceName = true

/-- How the response ends: outside of the payload; or nothing is taken; or two slices are, with
the identity that is left. -/
inductive Identified where
  | outside
  | returned
  | taken (productKey deviceName : Slice) (ctx : SdkImplCtx)

/-- `iotx_mc_parse_identity_response`. The callback for the event gets a copy of the payload, and
a string is what `HAL_Malloc` gives for its bytes and a zero. -/
def iotxMcParseIdentityResponse (allocs : Allocs) (ctx : SdkImplCtx) (topicMsg : TopicInfo) :
    Identified :=
  if topicMsg.ptopic ≠ identityTopic then .returned
  else if allocs.payload = false then .returned
  else
    match infraJsonValue topicMsg.payload (text "productKey"),
      infraJsonValue topicMsg.payload (text "deviceName") with
    | some productKey, some deviceName =>
      if allocs.productKey = false then .returned
      else
        match unquoted topicMsg.payload productKey with
        | none => .outside
        | some strProductKey =>
          if allocs.deviceName = false then .returned
          else
            match unquoted topicMsg.payload deviceName with
            | none => .outside
            | some strDeviceName =>
              .taken productKey deviceName
                { productKey := iotIoctlSet ctx.productKey (CharBuf.string (strProductKey ++ [0]))
                  deviceName := iotIoctlSet ctx.deviceName (CharBuf.string (strDeviceName ++ [0])) }
    | _, _ => .returned

/-! ## What is asked -/

abbrev Payload := {p : List UInt8 // p.length ≤ maxRemainingLength}

/-- The slice lies in the payload, and has two bytes or more. -/
def Inside (payload : List UInt8) (slice : Slice) : Prop :=
  2 ≤ slice.valueLen ∧ slice.value + slice.valueLen ≤ payload.length

/-- A message on the register topic: what is taken lies inside, fits into the secret, and is the
value of the member of an object; the secret and the payload keep their places. -/
def RegisterRight (payload : Payload) : Prop :=
  ∀ (ds : SecretArray) (msg : TopicInfo), msg.ptopic = registerTopic → msg.payload = payload.val →
    match mqttDynregTopicHandle ds.val .publishReceived msg with
    | .outside => False
    | .ignored =>
      ∀ d : StringObject, d.bytes = payload.val → ¬ d.HasMember (text "deviceSecret")
    | .received slice ds' payload' =>
      Inside payload.val slice ∧ slice.valueLen - 2 ≤ ds.val.length ∧
        ds'.length = ds.val.length ∧ payload'.length = payload.val.length ∧
        ∀ d : StringObject, d.bytes = payload.val → d.IsValueOf (text "deviceSecret") slice

/-- A message on the topic of the identity: what is taken lies inside, and is the values of the
members of an object. It is taken where both are there and the allocations succeed. -/
def IdentityRight (payload : Payload) : Prop :=
  ∀ (allocs : Allocs) (ctx : SdkImplCtx) (msg : TopicInfo), msg.ptopic = identityTopic →
      msg.payload = payload.val →
    match iotxMcParseIdentityResponse allocs ctx msg with
    | .outside => False
    | .returned =>
      allocs.Ok → ∀ d : StringObject, d.bytes = payload.val →
        ¬ (d.HasMember (text "productKey") ∧ d.HasMember (text "deviceName"))
    | .taken productKey deviceName _ =>
      Inside payload.val productKey ∧ Inside payload.val deviceName ∧
        ∀ d : StringObject, d.bytes = payload.val →
          d.IsValueOf (text "productKey") productKey ∧ d.IsValueOf (text "deviceName") deviceName

/-- Behind the first place of the key stand a colon and a delimiter. -/
def Finds (payload key : List UInt8) : Prop :=
  ∃ front q value d rest, Found payload key front q value d rest

/-- What is found has two bytes and at most 67, and 28 bytes stand in the payload from its start
on. In an object with the secret it is the value of that member, and in another nothing is
found. -/
structure RegisterSound (payload : List UInt8) : Prop where
  lengths : ∀ front q value d rest, Found payload (text "deviceSecret") front q value d rest →
    2 ≤ value.length ∧ value.length ≤ iotxDeviceSecretLen + 3 ∧ 27 ≤ value.length + rest.length
  present : ∀ d : StringObject, d.bytes = payload → d.HasMember (text "deviceSecret") →
    d.Reached (text "deviceSecret")
  absent : ∀ d : StringObject, d.bytes = payload → ¬ d.HasMember (text "deviceSecret") →
    ¬ Finds payload (text "deviceSecret")

/-- Where something is found for both, it has two bytes or more. In an object with both it is the
values of these members, and in another nothing is found for one of them. -/
structure IdentitySound (payload : List UInt8) : Prop where
  lengths : Finds payload (text "productKey") → Finds payload (text "deviceName") →
    ∀ key ∈ [text "productKey", text "deviceName"], ∀ front q value d rest,
      Found payload key front q value d rest → 2 ≤ value.length
  present : ∀ d : StringObject, d.bytes = payload → d.HasMember (text "productKey") →
    d.HasMember (text "deviceName") →
      d.Reached (text "productKey") ∧ d.Reached (text "deviceName")
  absent : ∀ d : StringObject, d.bytes = payload →
    ¬ (d.HasMember (text "productKey") ∧ d.HasMember (text "deviceName")) →
      ¬ (Finds payload (text "productKey") ∧ Finds payload (text "deviceName"))

section Slices

variable {payload key front value rest : List UInt8} {q d : UInt8} {slice : Slice}

theorem finds_iff : Finds payload key ↔ ∃ slice, infraJsonValue payload key = some slice := by
  constructor
  · rintro ⟨front, q, value, d, rest, h⟩
    exact ⟨_, infraJsonValue_iff.mpr ⟨front, q, value, d, rest, h, rfl⟩⟩
  · rintro ⟨slice, h⟩
    obtain ⟨front, q, value, d, rest, hfound, -⟩ := infraJsonValue_iff.mp h
    exact ⟨front, q, value, d, rest, hfound⟩

theorem slice_eq (hslice : infraJsonValue payload key = some slice)
    (h : Found payload key front q value d rest) :
    slice.valueLen = value.length ∧ 2 ≤ slice.value ∧
      payload.length = slice.value + (value.length + 1 + rest.length) := by
  have hvalue := infraJsonValue_iff.mpr ⟨front, q, value, d, rest, h, rfl⟩
  obtain rfl := Option.some.inj (hslice.symm.trans hvalue)
  refine ⟨rfl, Nat.le_add_left 2 _, ?_⟩
  rw [h.input_eq]
  simp only [List.length_append, List.length_cons]
  omega

theorem slice_lt (hslice : infraJsonValue payload key = some slice) :
    2 ≤ slice.value ∧ slice.value + slice.valueLen < payload.length := by
  obtain ⟨front, q, value, d, rest, h, -⟩ := infraJsonValue_iff.mp hslice
  obtain ⟨hlen, hstart, hsum⟩ := slice_eq hslice h
  exact ⟨hstart, by omega⟩

theorem unquoted_eq (hpayload : payload.length ≤ maxRemainingLength)
    (hslice : infraJsonValue payload key = some slice) :
    unquoted payload slice = if 2 ≤ slice.valueLen then
      some ((payload.drop (slice.value + 1)).take (slice.valueLen - 2)) else none := by
  obtain ⟨hstart, hlt⟩ := slice_lt hslice
  have hmax : payload.length < 2 ^ 32 - 1 := Nat.lt_of_le_of_lt hpayload (by decide)
  unfold unquoted
  by_cases htwo : 2 ≤ slice.valueLen
  · have hlen : (2 ^ 32 + slice.valueLen - 2) % 2 ^ 32 = slice.valueLen - 2 := by omega
    rw [hlen, if_pos (by omega), if_pos htwo]
  · have hlen : (2 ^ 32 + slice.valueLen - 2) % 2 ^ 32 = 2 ^ 32 + slice.valueLen - 2 := by omega
    rw [hlen, if_neg (by omega), if_neg htwo]

end Slices

/-! ## The secret -/

section Register

variable {ds : CharBuf} {payload : List UInt8} {slice : Slice} {msg : TopicInfo}

/-- A value that is long enough and not too long, and room for the asterisks. -/
def Fits (ds : CharBuf) (payload : List UInt8) (slice : Slice) : Prop :=
  2 ≤ slice.valueLen ∧ slice.valueLen - 2 ≤ ds.length ∧ slice.value + 28 ≤ payload.length

theorem isWord_deviceSecret : IsWord (text "deviceSecret") :=
  ⟨text "deviceSecre", 116, by decide, by decide, by simp [rfc8259]⟩

theorem handle_none (htopic : msg.ptopic = registerTopic)
    (h : infraJsonValue msg.payload (text "deviceSecret") = none) :
    mqttDynregTopicHandle ds .publishReceived msg = .ignored := by
  simp only [mqttDynregTopicHandle, htopic, List.prefix_rfl, if_true, h]

/-- The bytes of a slice without the first and the last. -/
def insideQuotes (payload : List UInt8) (slice : Slice) : List UInt8 :=
  (payload.drop (slice.value + 1)).take (slice.valueLen - 2)

theorem length_insideQuotes (h : Inside payload slice) :
    (insideQuotes payload slice).length = slice.valueLen - 2 := by
  rw [insideQuotes, List.length_take, List.length_drop]
  have hle := h.2
  have htwo := h.1
  omega

theorem handle_some (htopic : msg.ptopic = registerTopic)
    (hpayload : msg.payload.length ≤ maxRemainingLength)
    (h : infraJsonValue msg.payload (text "deviceSecret") = some slice) :
    mqttDynregTopicHandle ds .publishReceived msg =
      match if 2 ≤ slice.valueLen then some (insideQuotes msg.payload slice) else none with
      | none => .outside
      | some secret =>
        match ds.write 0 secret, CharBuf.write msg.payload (slice.value + 1 + 5) asterisk with
        | some ds, some payload => .received slice ds payload
        | _, _ => .outside := by
  simp only [mqttDynregTopicHandle, htopic, List.prefix_rfl, if_true, h, unquoted_eq hpayload h,
    insideQuotes]

theorem handle_fits (htopic : msg.ptopic = registerTopic)
    (hpayload : msg.payload.length ≤ maxRemainingLength)
    (h : infraJsonValue msg.payload (text "deviceSecret") = some slice)
    (hfits : Fits ds msg.payload slice) :
    mqttDynregTopicHandle ds .publishReceived msg =
      .received slice (ds.put 0 (insideQuotes msg.payload slice))
        (CharBuf.put msg.payload (slice.value + 1 + 5) asterisk) := by
  obtain ⟨htwo, hmax, hroom⟩ := hfits
  have hlt := (slice_lt h).2
  have hbetween := length_insideQuotes ⟨htwo, Nat.le_of_lt hlt⟩
  have hsecret : 0 + (insideQuotes msg.payload slice).length ≤ ds.length := by omega
  have hstars : slice.value + 1 + 5 + asterisk.length ≤ msg.payload.length := by
    rw [length_asterisk]
    omega
  simp only [handle_some htopic hpayload h, if_pos htwo, CharBuf.write, if_pos hsecret,
    if_pos hstars]

theorem handle_outside (htopic : msg.ptopic = registerTopic)
    (hpayload : msg.payload.length ≤ maxRemainingLength)
    (h : infraJsonValue msg.payload (text "deviceSecret") = some slice)
    (hnot : ¬ Fits ds msg.payload slice) :
    mqttDynregTopicHandle ds .publishReceived msg = .outside := by
  rw [handle_some htopic hpayload h]
  by_cases htwo : 2 ≤ slice.valueLen
  · have hlt := (slice_lt h).2
    have hbetween := length_insideQuotes ⟨htwo, Nat.le_of_lt hlt⟩
    by_cases hmax : slice.valueLen - 2 ≤ ds.length
    · have hstars : ¬ slice.value + 1 + 5 + asterisk.length ≤ msg.payload.length := fun hroom => by
        rw [length_asterisk] at hroom
        exact hnot ⟨htwo, hmax, hroom⟩
      have hsecret : 0 + (insideQuotes msg.payload slice).length ≤ ds.length := by omega
      simp only [if_pos htwo, CharBuf.write, if_pos hsecret, if_neg hstars]
    · have hsecret : ¬ 0 + (insideQuotes msg.payload slice).length ≤ ds.length := by omega
      simp only [if_pos htwo, CharBuf.write, if_neg hsecret]
  · rw [if_neg htwo]

theorem lengths_iff (ds : SecretArray)
    (h : infraJsonValue payload (text "deviceSecret") = some slice) :
    (∀ front q value d rest, Found payload (text "deviceSecret") front q value d rest →
      2 ≤ value.length ∧ value.length ≤ iotxDeviceSecretLen + 3 ∧
        27 ≤ value.length + rest.length) ↔ Fits ds.val payload slice := by
  have hds : ds.val.length = iotxDeviceSecretLen + 1 := ds.property
  constructor
  · intro hlengths
    obtain ⟨front, q, value, d, rest, hfound, -⟩ := infraJsonValue_iff.mp h
    obtain ⟨hlen, -, hsum⟩ := slice_eq h hfound
    obtain ⟨htwo, hmax, hroom⟩ := hlengths front q value d rest hfound
    exact ⟨by omega, by omega, by omega⟩
  · rintro ⟨htwo, hmax, hroom⟩ front q value d rest hfound
    obtain ⟨hlen, -, hsum⟩ := slice_eq h hfound
    exact ⟨by omega, by omega, by omega⟩

theorem registerRight_iff (payload : Payload) :
    RegisterRight payload ↔ RegisterSound payload.val := by
  obtain ⟨payload, hpayload⟩ := payload
  unfold RegisterRight
  dsimp only
  cases h : infraJsonValue payload (text "deviceSecret") with
  | none =>
    have hnothing : ¬ Finds payload (text "deviceSecret") := fun hfinds => by
      obtain ⟨slice, hslice⟩ := finds_iff.mp hfinds
      rw [h] at hslice
      cases hslice
    constructor
    · intro hright
      have hcleared := hright ⟨CharBuf.zeros _, CharBuf.length_zeros⟩
        { ptopic := registerTopic, payload := payload } rfl rfl
      rw [handle_none rfl h] at hcleared
      exact ⟨fun front q value d rest hfound => absurd ⟨_, _, _, _, _, hfound⟩ hnothing,
        fun d hd hmember => absurd hmember (hcleared d hd), fun _ _ _ => hnothing⟩
    · rintro hsound ds msg htopic rfl
      rw [handle_none htopic h]
      intro d hd hmember
      rw [← hd] at h
      exact not_reached isWord_deviceSecret h (hsound.present d hd hmember)
  | some slice =>
    have hlt := (slice_lt h).2
    constructor
    · intro hright
      have hcleared := hright ⟨CharBuf.zeros _, CharBuf.length_zeros⟩
        { ptopic := registerTopic, payload := payload } rfl rfl
      have hfits : Fits (CharBuf.zeros (iotxDeviceSecretLen + 1)) payload slice := by
        by_contra hnot
        rw [handle_outside rfl hpayload h hnot] at hcleared
        exact hcleared
      rw [handle_fits rfl hpayload h hfits] at hcleared
      obtain ⟨-, -, -, -, hdocs⟩ := hcleared
      have hreached : ∀ d : StringObject, d.bytes = payload → d.Reached (text "deviceSecret") := by
        rintro d rfl
        exact (isValueOf_iff isWord_deviceSecret h).mp (hdocs d rfl)
      exact ⟨(lengths_iff ⟨_, CharBuf.length_zeros⟩ h).mpr hfits,
        fun d hd _ => hreached d hd, fun d hd hnot => absurd (hreached d hd).hasMember hnot⟩
    · rintro hsound ds msg htopic rfl
      have hfits := (lengths_iff ds h).mp hsound.lengths
      have hinside : Inside msg.payload slice := ⟨hfits.1, Nat.le_of_lt hlt⟩
      rw [handle_fits htopic hpayload h hfits]
      refine ⟨hinside, hfits.2.1, ?_, ?_, ?_⟩
      · rw [CharBuf.length_put]
        rw [length_insideQuotes hinside, Nat.zero_add]
        exact hfits.2.1
      · rw [CharBuf.length_put]
        have hroom := hfits.2.2
        rw [length_asterisk]
        omega
      · intro d hd
        rw [← hd] at h
        refine (isValueOf_iff isWord_deviceSecret h).mpr ?_
        by_cases hmember : d.HasMember (text "deviceSecret")
        · exact hsound.present d hd hmember
        · exact absurd (finds_iff.mpr ⟨slice, hd ▸ h⟩) (hsound.absent d hd hmember)

end Register

/-! ## The product key and the device name -/

section Identity

variable {allocs : Allocs} {ctx : SdkImplCtx} {payload : List UInt8} {msg : TopicInfo}
  {productKey deviceName : Slice}

theorem isWord_productKey : IsWord (text "productKey") :=
  ⟨text "productKe", 121, by decide, by decide, by simp [rfc8259]⟩

theorem isWord_deviceName : IsWord (text "deviceName") :=
  ⟨text "deviceNam", 101, by decide, by decide, by simp [rfc8259]⟩

def identityOf (ctx : SdkImplCtx) (payload : List UInt8) (productKey deviceName : Slice) :
    SdkImplCtx where
  productKey := iotIoctlSet ctx.productKey (CharBuf.string (insideQuotes payload productKey ++ [0]))
  deviceName := iotIoctlSet ctx.deviceName (CharBuf.string (insideQuotes payload deviceName ++ [0]))

theorem identify_none (htopic : msg.ptopic = identityTopic)
    (h : infraJsonValue msg.payload (text "productKey") = none ∨
      infraJsonValue msg.payload (text "deviceName") = none) :
    iotxMcParseIdentityResponse allocs ctx msg = .returned := by
  unfold iotxMcParseIdentityResponse
  rw [if_neg (not_not.mpr htopic)]
  split
  · rfl
  · split
    next hproduct hdevice =>
      rcases h with h | h
      · rw [hproduct] at h
        cases h
      · rw [hdevice] at h
        cases h
    · rfl

theorem identify_some (htopic : msg.ptopic = identityTopic)
    (hpayload : msg.payload.length ≤ maxRemainingLength)
    (hproduct : infraJsonValue msg.payload (text "productKey") = some productKey)
    (hdevice : infraJsonValue msg.payload (text "deviceName") = some deviceName) :
    iotxMcParseIdentityResponse allocs ctx msg =
      if allocs.payload = false ∨ allocs.productKey = false then .returned
      else if 2 ≤ productKey.valueLen then
        if allocs.deviceName = false then .returned
        else if 2 ≤ deviceName.valueLen then
          .taken productKey deviceName (identityOf ctx msg.payload productKey deviceName)
        else .outside
      else .outside := by
  unfold iotxMcParseIdentityResponse
  rw [if_neg (not_not.mpr htopic), hproduct, hdevice]
  simp only [unquoted_eq hpayload hproduct, unquoted_eq hpayload hdevice]
  by_cases hcopy : allocs.payload = false
  · rw [if_pos hcopy, if_pos (.inl hcopy)]
  by_cases hkey : allocs.productKey = false
  · rw [if_neg hcopy, if_pos hkey, if_pos (.inr hkey)]
  rw [if_neg hcopy, if_neg hkey, if_neg (not_or.mpr ⟨hcopy, hkey⟩)]
  by_cases htwo : 2 ≤ productKey.valueLen
  · rw [if_pos htwo, if_pos htwo]
    by_cases hname : allocs.deviceName = false
    · simp only [if_pos hname]
    · by_cases htwo' : 2 ≤ deviceName.valueLen
      · simp only [if_neg hname, if_pos htwo']
        rfl
      · simp only [if_neg hname, if_neg htwo']
  · rw [if_neg htwo, if_neg htwo]

theorem two_le_iff (hproduct : infraJsonValue payload (text "productKey") = some productKey)
    (hdevice : infraJsonValue payload (text "deviceName") = some deviceName) :
    (Finds payload (text "productKey") → Finds payload (text "deviceName") →
      ∀ key ∈ [text "productKey", text "deviceName"], ∀ front q value d rest,
        Found payload key front q value d rest → 2 ≤ value.length) ↔
      2 ≤ productKey.valueLen ∧ 2 ≤ deviceName.valueLen := by
  constructor
  · intro hlengths
    have hlengths := hlengths (finds_iff.mpr ⟨_, hproduct⟩) (finds_iff.mpr ⟨_, hdevice⟩)
    have hlong : ∀ key ∈ [text "productKey", text "deviceName"], ∀ slice,
        infraJsonValue payload key = some slice → 2 ≤ slice.valueLen := by
      intro key hkey slice hslice
      obtain ⟨front, q, value, d, rest, hfound, -⟩ := infraJsonValue_iff.mp hslice
      rw [(slice_eq hslice hfound).1]
      exact hlengths key hkey front q value d rest hfound
    exact ⟨hlong _ (by simp) _ hproduct, hlong _ (by simp) _ hdevice⟩
  · rintro ⟨htwo, htwo'⟩ - - key hkey front q value d rest hfound
    rcases List.mem_cons.mp hkey with rfl | hkey
    · rw [← (slice_eq hproduct hfound).1]
      exact htwo
    · obtain rfl := List.mem_singleton.mp hkey
      rw [← (slice_eq hdevice hfound).1]
      exact htwo'

theorem identityRight_iff (payload : Payload) :
    IdentityRight payload ↔ IdentitySound payload.val := by
  obtain ⟨payload, hpayload⟩ := payload
  unfold IdentityRight
  dsimp only
  -- what is found for both keys, or nothing for one of them
  by_cases hboth : Finds payload (text "productKey") ∧ Finds payload (text "deviceName")
  · obtain ⟨productKey, hproduct⟩ := finds_iff.mp hboth.1
    obtain ⟨deviceName, hdevice⟩ := finds_iff.mp hboth.2
    constructor
    · intro hright
      have hcleared := hright ⟨true, true, true⟩
        ⟨⟨CharBuf.zeros _, CharBuf.length_zeros⟩, ⟨CharBuf.zeros _, CharBuf.length_zeros⟩⟩
        { ptopic := identityTopic, payload := payload } rfl rfl
      rw [identify_some rfl hpayload hproduct hdevice] at hcleared
      simp only [Bool.true_eq_false, or_self, if_false] at hcleared
      have htwo : 2 ≤ productKey.valueLen := by
        by_contra hshort
        rw [if_neg hshort] at hcleared
        exact hcleared
      have htwo' : 2 ≤ deviceName.valueLen := by
        by_contra hshort
        rw [if_pos htwo, if_neg hshort] at hcleared
        exact hcleared
      rw [if_pos htwo, if_pos htwo'] at hcleared
      obtain ⟨-, -, hdocs⟩ := hcleared
      have hreached : ∀ d : StringObject, d.bytes = payload →
          d.Reached (text "productKey") ∧ d.Reached (text "deviceName") := by
        rintro d rfl
        exact ⟨(isValueOf_iff isWord_productKey hproduct).mp (hdocs d rfl).1,
          (isValueOf_iff isWord_deviceName hdevice).mp (hdocs d rfl).2⟩
      exact ⟨(two_le_iff hproduct hdevice).mpr ⟨htwo, htwo'⟩, fun d hd _ _ => hreached d hd,
        fun d hd hnot => absurd ⟨(hreached d hd).1.hasMember, (hreached d hd).2.hasMember⟩ hnot⟩
    · rintro hsound allocs ctx msg htopic rfl
      obtain ⟨htwo, htwo'⟩ := (two_le_iff hproduct hdevice).mp hsound.lengths
      rw [identify_some htopic hpayload hproduct hdevice, if_pos htwo, if_pos htwo']
      by_cases hfails : allocs.payload = false ∨ allocs.productKey = false
      · rw [if_pos hfails]
        rintro ⟨hcopy, hkey, -⟩
        rw [hcopy, hkey] at hfails
        exact absurd hfails (by decide)
      rw [if_neg hfails]
      by_cases hname : allocs.deviceName = false
      · rw [if_pos hname]
        rintro ⟨-, -, hok⟩
        rw [hname] at hok
        cases hok
      rw [if_neg hname]
      refine ⟨⟨htwo, Nat.le_of_lt (slice_lt hproduct).2⟩,
        ⟨htwo', Nat.le_of_lt (slice_lt hdevice).2⟩, ?_⟩
      intro d hd
      have hmembers : d.HasMember (text "productKey") ∧ d.HasMember (text "deviceName") :=
        not_not.mp fun hnot => hsound.absent d hd hnot hboth
      obtain ⟨hkey, hname⟩ := hsound.present d hd hmembers.1 hmembers.2
      rw [← hd] at hproduct hdevice
      exact ⟨(isValueOf_iff isWord_productKey hproduct).mpr hkey,
        (isValueOf_iff isWord_deviceName hdevice).mpr hname⟩
  · have hnone : infraJsonValue payload (text "productKey") = none ∨
        infraJsonValue payload (text "deviceName") = none := by
      by_contra hnot
      obtain ⟨hproduct, hdevice⟩ := not_or.mp hnot
      exact hboth ⟨finds_iff.mpr (Option.ne_none_iff_exists'.mp hproduct),
        finds_iff.mpr (Option.ne_none_iff_exists'.mp hdevice)⟩
    constructor
    · intro hright
      have hcleared := hright ⟨true, true, true⟩
        ⟨⟨CharBuf.zeros _, CharBuf.length_zeros⟩, ⟨CharBuf.zeros _, CharBuf.length_zeros⟩⟩
        { ptopic := identityTopic, payload := payload } rfl rfl
      rw [identify_none rfl hnone] at hcleared
      exact ⟨fun hkey hname => absurd ⟨hkey, hname⟩ hboth,
        fun d hd hkey hname => absurd ⟨hkey, hname⟩ (hcleared ⟨rfl, rfl, rfl⟩ d hd),
        fun _ _ _ => hboth⟩
    · rintro hsound allocs ctx msg htopic rfl
      rw [identify_none htopic hnone]
      rintro - d hd ⟨hkey, hname⟩
      obtain ⟨hreached, hreached'⟩ := hsound.present d hd hkey hname
      rw [← hd] at hnone
      rcases hnone with hnone | hnone
      · exact not_reached isWord_productKey hnone hreached
      · exact not_reached isWord_deviceName hnone hreached'

end Identity

/-- The handlers are right about the payloads where the values that are found are those that are
wanted, and only about these. -/
theorem credentials_iff (payload : Payload) :
    RegisterRight payload ∧ IdentityRight payload ↔
      RegisterSound payload.val ∧ IdentitySound payload.val :=
  and_congr (registerRight_iff payload) (identityRight_iff payload)

/-- `{"deviceSecret":"a"}` -/
def shortSecret : Payload := ⟨123 :: text "\"deviceSecret\":\"a\"" ++ [125], by decide⟩

/-- The asterisks reach behind a payload that ends soon behind the secret. -/
theorem short_secret : ¬ RegisterRight shortSecret := by
  intro h
  have hcleared := h ⟨CharBuf.zeros _, CharBuf.length_zeros⟩
    { ptopic := registerTopic, payload := shortSecret.val } rfl rfl
  have hslice : infraJsonValue shortSecret.val (text "deviceSecret") = some ⟨16, 3⟩ := by decide
  have hnot : ¬ Fits (CharBuf.zeros (iotxDeviceSecretLen + 1)) shortSecret.val ⟨16, 3⟩ :=
    fun hfits => absurd hfits.2.2 (by decide)
  rw [handle_outside rfl shortSecret.property hslice hnot] at hcleared
  exact hcleared

end AliyunIot.Mqtt.Credentials
