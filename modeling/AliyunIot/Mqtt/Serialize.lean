import AliyunIot.Mqtt.Packet

/-!
# MQTT serializers

`MQTTConnectClient.c`, `MQTTSerializePublish.c`, `MQTTSubscribeClient.c` and
`MQTTUnsubscribeClient.c`: every serializer asks `MQTTPacket_len` of a
separately computed length whether the packet fits and then writes header,
remaining length and body (`serializePacket`).

`RespectsBuffer` is what the caller of a serializer relies on. It holds as soon
as the computed length is the length of the body that is written
(`serializePacket_respects`), so each serializer owes one length lemma.
-/

namespace AliyunIot.Mqtt

open Lib

/-- What a serializer returns, and the bytes it stored. -/
structure Serialized where
  rc : Int
  mem : Nat → Option UInt8

def serializePacket (buflen : Int) (remLen : Nat) (header : UInt8) (writeBody : Cursor → Cursor) :
    Serialized :=
  if (mqttPacketLen remLen : Int) > buflen then
    ⟨State.mqttpacketBufferTooShort, Cursor.start.mem⟩
  else
    let ptr := Cursor.start.put header
    let ptr := ptr.puts (mqttPacketEncode remLen)
    let ptr := writeBody ptr
    ⟨ptr.ptr, ptr.mem⟩

def packetBytes (header : UInt8) (remLen : Nat) (body : List UInt8) : List UInt8 :=
  header :: (mqttPacketEncode remLen ++ body)

theorem length_packetBytes (header : UInt8) (remLen : Nat) (body : List UInt8) :
    (packetBytes header remLen body).length =
      1 + (mqttPacketEncode remLen).length + body.length := by
  simp only [packetBytes, List.length_cons, List.length_append]; omega

theorem serializePacket_cases (buflen : Int) (remLen : Nat) (header : UInt8)
    {writeBody : Cursor → Cursor} {body : List UInt8} (hw : ∀ c, writeBody c = c.puts body) :
    (buflen < mqttPacketLen remLen ∧ serializePacket buflen remLen header writeBody =
        ⟨State.mqttpacketBufferTooShort, Cursor.start.mem⟩) ∨
    ((mqttPacketLen remLen : Int) ≤ buflen ∧ serializePacket buflen remLen header writeBody =
        ⟨(packetBytes header remLen body).length,
          (Cursor.start.puts (packetBytes header remLen body)).mem⟩) := by
  unfold serializePacket
  by_cases h : (mqttPacketLen remLen : Int) > buflen
  · exact .inl ⟨h, if_pos h⟩
  · refine .inr ⟨by omega, ?_⟩
    rw [if_neg h]
    simp only [hw, Cursor.put_eq_puts, Cursor.puts_append]
    simp [packetBytes, Cursor.start]

/-- A serializer call respects its buffer: it fails without storing at or past
`buf[buflen]`, or it returns `0 < n ≤ buflen`, stores exactly `buf[0..n)`, and
the remaining-length field, read back from memory, is what follows the fixed
header. -/
def RespectsBuffer (buflen : Int) (r : Serialized) : Prop :=
  (r.rc ≤ 0 ∧ ∀ i : Nat, buflen ≤ i → r.mem i = none) ∨
  (0 < r.rc ∧ r.rc ≤ buflen ∧ (∀ i : Nat, (r.mem i).isSome ↔ (i : Int) < r.rc) ∧
    ∀ m : Mem, ((mqttPacketDecodeBuf (overlay r.mem m) 1).2 : Int) =
      r.rc - (1 + (mqttPacketDecodeBuf (overlay r.mem m) 1).1))

theorem holds_packetBytes (header : UInt8) (remLen : Nat) (body : List UInt8) (m : Mem) :
    Holds (overlay (Cursor.start.puts (packetBytes header remLen body)).mem m) 1
      (mqttPacketEncode remLen) :=
  (holds_append.mp (holds_cons.mp (holds_overlay_puts (packetBytes header remLen body) m)).2).1

theorem serializePacket_respects {buflen : Int} {remLen : Nat} {header : UInt8}
    {writeBody : Cursor → Cursor} {body : List UInt8} (hw : ∀ c, writeBody c = c.puts body)
    (hlen : remLen = body.length) (hmax : remLen ≤ maxRemainingLength) :
    RespectsBuffer buflen (serializePacket buflen remLen header writeBody) := by
  rcases serializePacket_cases buflen remLen header hw with
    ⟨-, h⟩ | ⟨hfit, h⟩
  · exact .inl (by rw [h]; exact ⟨by decide, fun _ _ => rfl⟩)
  · rw [h]
    have hcap := le_mqttPacketLen hmax
    have hn := length_packetBytes header remLen body
    refine .inr ⟨?_, ?_, fun i => ?_, fun m => ?_⟩
    · show (0 : Int) < ((packetBytes header remLen body).length : Nat)
      omega
    · show ((packetBytes header remLen body).length : Int) ≤ buflen
      omega
    · show ((Cursor.start.puts (packetBytes header remLen body)).mem i).isSome ↔
        (i : Int) < (packetBytes header remLen body).length
      rw [Cursor.start_puts_mem, isSome_getElem?, Int.ofNat_lt]
    · rw [mqttPacketDecodeBuf_encode hmax (holds_packetBytes header remLen body m)]
      show (remLen : Int) = (packetBytes header remLen body).length - _
      rw [hn]; omega

/-! ## CONNECT -/

structure WillOptions where
  topicName : MqttString := {}
  message : MqttString := {}
  retained : UInt8 := 0
  qos : UInt8 := 0

/-- `MQTTPacket_connectData`. `mqttVersion` is documented as 3 (3.1) or 4 (3.1.1). -/
structure ConnectData where
  mqttVersion : UInt8 := 4
  clientID : MqttString := {}
  keepAliveInterval : UInt16 := 30
  cleansession : UInt8 := 1
  willFlag : UInt8 := 0
  will : WillOptions := {}
  username : MqttString := {}
  password : MqttString := {}

/-- `s.cstring || s.lenstring.data`. -/
def MqttString.present (s : MqttString) : Bool := s.cstring.isSome || s.lenstring.isSome

def mqttSerializeConnectLength (options : ConnectData) : Nat :=
  let len :=
    if options.mqttVersion = 3 then 12 else if options.mqttVersion = 4 then 10 else 0
  let len := len + (mqttStrlen options.clientID + 2)
  let len := if options.willFlag ≠ 0 then
      len + (mqttStrlen options.will.topicName + 2 + mqttStrlen options.will.message + 2) else len
  let len := if options.username.present then len + (mqttStrlen options.username + 2) else len
  if options.password.present then len + (mqttStrlen options.password + 2) else len

abbrev mqttConnFlagUserName : UInt8 := 0x80
abbrev mqttConnFlagPassword : UInt8 := 0x40
abbrev mqttConnFlagWillRetain : UInt8 := 0x20
abbrev mqttConnFlagWillFlag : UInt8 := 0x04
abbrev mqttConnFlagCleanSession : UInt8 := 0x02

/-- `flags.all` of a CONNECT. -/
def connectFlags (options : ConnectData) : UInt8 :=
  let flags : UInt8 := if options.cleansession ≠ 0 then mqttConnFlagCleanSession else 0
  let flags := flags ||| if options.willFlag ≠ 0 then mqttConnFlagWillFlag else 0
  let flags := if flags &&& mqttConnFlagWillFlag ≠ 0 then
      flags ||| ((options.will.qos &&& 0x03) <<< 3) |||
        (if options.will.retained ≠ 0 then mqttConnFlagWillRetain else 0)
    else flags
  let flags := if options.username.present then flags ||| mqttConnFlagUserName else flags
  if options.password.present then flags ||| mqttConnFlagPassword else flags

def writeProtocol (c : Cursor) (mqttVersion : UInt8) : Cursor :=
  if mqttVersion = 4 then (writeCString c (CStr.ofString "MQTT" (by decide))).put 4
  else (writeCString c (CStr.ofString "MQIsdp" (by decide))).put 3

def writeConnect (options : ConnectData) (ptr : Cursor) : Cursor :=
  let ptr := writeProtocol ptr options.mqttVersion
  let flags := connectFlags options
  let ptr := ptr.put flags
  let ptr := writeInt ptr options.keepAliveInterval.toNat
  let ptr := writeMqttString ptr options.clientID
  let ptr := if options.willFlag ≠ 0 then
      writeMqttString (writeMqttString ptr options.will.topicName) options.will.message else ptr
  let ptr := if flags &&& mqttConnFlagUserName ≠ 0 then writeMqttString ptr options.username
    else ptr
  if flags &&& mqttConnFlagPassword ≠ 0 then writeMqttString ptr options.password else ptr

def mqttSerializeConnect (buflen : Int) (options : ConnectData) : Serialized :=
  serializePacket buflen (mqttSerializeConnectLength options) (mqttHeaderSetType 0 .connect)
    (writeConnect options)

def strBytes (s : MqttString) : List UInt8 := be16 s.text.length ++ s.text

theorem length_strBytes {s : MqttString} (h : s.OneForm) :
    (strBytes s).length = mqttStrlen s + 2 := by
  rw [mqttStrlen_eq h, strBytes, List.length_append, length_be16, Nat.add_comm]

def protocolBytes (mqttVersion : UInt8) : List UInt8 :=
  if mqttVersion = 4 then [0, 4, 0x4D, 0x51, 0x54, 0x54, 4]
  else [0, 6, 0x4D, 0x51, 0x49, 0x73, 0x64, 0x70, 3]

theorem writeProtocol_eq (c : Cursor) (v : UInt8) :
    writeProtocol c v = c.puts (protocolBytes v) := by
  unfold writeProtocol protocolBytes
  split <;> rfl

theorem low_flags (c w r : Prop) [Decidable c] [Decidable w] [Decidable r] (q : UInt8) :
    ((((if c then mqttConnFlagCleanSession else 0) ||| if w then mqttConnFlagWillFlag else 0) |||
      ((q &&& 0x03) <<< 3)) ||| if r then mqttConnFlagWillRetain else 0) &&& 0xC0 = 0 := by
  have key : ∀ (c w r : Bool) (i : Fin 256),
      ((((bif c then mqttConnFlagCleanSession else 0) |||
        bif w then mqttConnFlagWillFlag else 0) |||
        ((UInt8.ofNat i &&& 0x03) <<< 3)) ||| bif r then mqttConnFlagWillRetain else 0) &&& 0xC0 =
        0 := by decide +kernel
  simpa [Bool.cond_decide] using key (decide c) (decide w) (decide r) ⟨q.toNat, q.toNat_lt⟩

theorem high_flags (u p : Bool) {f : UInt8} (hf : f &&& 0xC0 = 0) :
    ((if p then (if u then f ||| mqttConnFlagUserName else f) ||| mqttConnFlagPassword
      else if u then f ||| mqttConnFlagUserName else f) &&& mqttConnFlagUserName ≠ 0 ↔ u = true) ∧
    ((if p then (if u then f ||| mqttConnFlagUserName else f) ||| mqttConnFlagPassword
      else if u then f ||| mqttConnFlagUserName else f) &&& mqttConnFlagPassword ≠ 0 ↔
        p = true) := by
  have := (by decide +kernel : ∀ (u p : Bool) (i : Fin 256), UInt8.ofNat i &&& 0xC0 = 0 →
    ((if p then (if u then UInt8.ofNat i ||| mqttConnFlagUserName else UInt8.ofNat i) |||
        mqttConnFlagPassword
      else if u then UInt8.ofNat i ||| mqttConnFlagUserName else UInt8.ofNat i) &&&
        mqttConnFlagUserName ≠ 0 ↔ u = true) ∧
    ((if p then (if u then UInt8.ofNat i ||| mqttConnFlagUserName else UInt8.ofNat i) |||
        mqttConnFlagPassword
      else if u then UInt8.ofNat i ||| mqttConnFlagUserName else UInt8.ofNat i) &&&
        mqttConnFlagPassword ≠ 0 ↔ p = true))
  have h := this u p ⟨f.toNat, f.toNat_lt⟩
  simp only [UInt8.ofNat_toNat] at h
  exact h hf

theorem connectFlags_present (options : ConnectData) :
    (connectFlags options &&& mqttConnFlagUserName ≠ 0 ↔ options.username.present = true) ∧
    (connectFlags options &&& mqttConnFlagPassword ≠ 0 ↔ options.password.present = true) := by
  apply high_flags
  by_cases hw : ((if options.cleansession ≠ 0 then mqttConnFlagCleanSession else 0) |||
      if options.willFlag ≠ 0 then mqttConnFlagWillFlag else 0) &&& mqttConnFlagWillFlag ≠ 0
  · rw [if_pos hw]
    exact low_flags (options.cleansession ≠ 0) (options.willFlag ≠ 0) _ options.will.qos
  · rw [if_neg hw]
    simpa using low_flags (options.cleansession ≠ 0) (options.willFlag ≠ 0) False 0

def connectBody (options : ConnectData) : List UInt8 :=
  protocolBytes options.mqttVersion ++ connectFlags options ::
    (be16 options.keepAliveInterval.toNat ++ (strBytes options.clientID ++
      ((if options.willFlag ≠ 0 then
          strBytes options.will.topicName ++ strBytes options.will.message else []) ++
        ((if options.username.present then strBytes options.username else []) ++
          if options.password.present then strBytes options.password else []))))

theorem writeConnect_eq (options : ConnectData) (c : Cursor) :
    writeConnect options c = c.puts (connectBody options) := by
  obtain ⟨hu, hp⟩ := connectFlags_present options
  simp only [writeConnect, connectBody, hu, hp]
  by_cases h1 : options.willFlag ≠ 0 <;> by_cases h2 : options.username.present = true <;>
    by_cases h3 : options.password.present = true <;>
    simp [h1, h2, h3, strBytes, writeProtocol_eq, writeInt_eq, writeMqttString_eq,
      Cursor.put_eq_puts, Cursor.puts_append]

/-- Every string of the options is given in one form. -/
structure ConnectData.OneForm (options : ConnectData) : Prop where
  clientID : options.clientID.OneForm
  topicName : options.will.topicName.OneForm
  message : options.will.message.OneForm
  username : options.username.OneForm
  password : options.password.OneForm

/-- The MQTT versions `MQTTPacket_connectData` documents. -/
def ConnectData.VersionDocumented (options : ConnectData) : Prop :=
  options.mqttVersion = 3 ∨ options.mqttVersion = 4

theorem length_protocolBytes {v : UInt8} (h : v = 3 ∨ v = 4) :
    (protocolBytes v).length + 3 = if v = 3 then 12 else if v = 4 then 10 else 0 := by
  rcases h with rfl | rfl <;> rfl

theorem mqttSerializeConnectLength_eq {options : ConnectData} (hv : options.VersionDocumented)
    (h : options.OneForm) : mqttSerializeConnectLength options = (connectBody options).length := by
  have hp := length_protocolBytes hv
  have h1 := length_strBytes h.clientID
  have h2 := length_strBytes h.topicName
  have h3 := length_strBytes h.message
  have h4 := length_strBytes h.username
  have h5 := length_strBytes h.password
  unfold mqttSerializeConnectLength connectBody
  simp only [← hp, List.length_append, List.length_cons, length_be16, apply_ite List.length, h1, h2,
    h3, h4, h5, List.length_nil]
  by_cases hw : options.willFlag ≠ 0
  · rw [if_pos hw, if_pos hw]
    (repeat' split) <;> omega
  · rw [if_neg hw, if_neg hw]
    (repeat' split) <;> omega

/-! ## PUBLISH and acknowledgements -/

def mqttSerializePublishLength (qos : Nat) (topicName : MqttString) (payloadlen : Nat) : Nat :=
  let len := 2 + mqttStrlen topicName + payloadlen
  if 0 < qos then len + 2 else len

def publishHeader (dup : UInt8) (qos : Nat) (retained : UInt8) : UInt8 :=
  mqttHeaderSetRetain (mqttHeaderSetQos (mqttHeaderSetDup (mqttHeaderSetType 0 .publish) dup)
    (UInt8.ofNat qos)) retained

def writePublish (qos : Nat) (packetid : UInt16) (topicName : MqttString) (payload : List UInt8)
    (ptr : Cursor) : Cursor :=
  let ptr := writeMqttString ptr topicName
  let ptr := if 0 < qos then writeInt ptr packetid.toNat else ptr
  ptr.puts payload

def mqttSerializePublish (buflen : Int) (dup : UInt8) (qos : Nat) (retained : UInt8)
    (packetid : UInt16) (topicName : MqttString) (payload : List UInt8) : Serialized :=
  serializePacket buflen (mqttSerializePublishLength qos topicName payload.length)
    (publishHeader dup qos retained) (writePublish qos packetid topicName payload)

/-- The packet id field, absent at QoS 0. -/
def packetidBytes (qos : Nat) (packetid : UInt16) : List UInt8 :=
  if 0 < qos then be16 packetid.toNat else []

def publishBody (qos : Nat) (packetid : UInt16) (topicName : MqttString) (payload : List UInt8) :
    List UInt8 :=
  strBytes topicName ++ (packetidBytes qos packetid ++ payload)

theorem writePublish_eq (qos : Nat) (packetid : UInt16) (topicName : MqttString)
    (payload : List UInt8) (c : Cursor) :
    writePublish qos packetid topicName payload c =
      c.puts (publishBody qos packetid topicName payload) := by
  unfold writePublish publishBody packetidBytes strBytes
  by_cases h : 0 < qos <;>
    simp [h, writeInt_eq, writeMqttString_eq, Cursor.puts_append]

theorem mqttSerializePublishLength_eq {topicName : MqttString} (h : topicName.OneForm) (qos : Nat)
    (packetid : UInt16) (payload : List UInt8) :
    mqttSerializePublishLength qos topicName payload.length =
      (publishBody qos packetid topicName payload).length := by
  have hs := length_strBytes h
  unfold mqttSerializePublishLength publishBody packetidBytes
  by_cases hq : 0 < qos <;>
    simp only [hq, if_true, if_false, List.length_append, hs, length_be16, List.length_nil] <;>
    omega

/-- `MQTTSerialize_ack`: the header's QoS bits are 1 for PUBREL only. -/
def mqttSerializeAck (buflen : Int) (packettype : MsgType) (dup : UInt8) (packetid : UInt16) :
    Serialized :=
  if buflen < 4 then ⟨State.mqttpacketBufferTooShort, Cursor.start.mem⟩
  else
    let header := mqttHeaderSetQos (mqttHeaderSetDup (mqttHeaderSetType 0 packettype) dup)
      (if packettype = .pubrel then 1 else 0)
    let ptr := Cursor.start.put header
    let ptr := ptr.puts (mqttPacketEncode 2)
    let ptr := writeInt ptr packetid.toNat
    ⟨ptr.ptr, ptr.mem⟩

/-! ## SUBSCRIBE and UNSUBSCRIBE -/

/-- `topicFilters` with their `requestedQoSs`. -/
def mqttSerializeSubscribeLength (topicFilters : List (MqttString × UInt8)) : Nat :=
  topicFilters.foldl (fun len t => len + (2 + mqttStrlen t.1 + 1)) 2

def writeSubscribe (packetid : UInt16) (topicFilters : List (MqttString × UInt8)) (ptr : Cursor) :
    Cursor :=
  topicFilters.foldl (fun ptr t => (writeMqttString ptr t.1).put t.2)
    (writeInt ptr packetid.toNat)

def mqttSerializeSubscribe (buflen : Int) (dup : UInt8) (packetid : UInt16)
    (topicFilters : List (MqttString × UInt8)) : Serialized :=
  serializePacket buflen (mqttSerializeSubscribeLength topicFilters)
    (mqttHeaderSetQos (mqttHeaderSetDup (mqttHeaderSetType 0 .subscribe) dup) 1)
    (writeSubscribe packetid topicFilters)

def mqttSerializeUnsubscribeLength (topicFilters : List MqttString) : Nat :=
  topicFilters.foldl (fun len t => len + (2 + mqttStrlen t)) 2

def writeUnsubscribe (packetid : UInt16) (topicFilters : List MqttString) (ptr : Cursor) :
    Cursor :=
  topicFilters.foldl writeMqttString (writeInt ptr packetid.toNat)

def mqttSerializeUnsubscribe (buflen : Int) (dup : UInt8) (packetid : UInt16)
    (topicFilters : List MqttString) : Serialized :=
  serializePacket buflen (mqttSerializeUnsubscribeLength topicFilters)
    (mqttHeaderSetQos (mqttHeaderSetDup (mqttHeaderSetType 0 .unsubscribe) dup) 1)
    (writeUnsubscribe packetid topicFilters)

theorem foldl_puts {α : Type} (f : Cursor → α → Cursor) (g : α → List UInt8)
    (hf : ∀ c a, f c a = c.puts (g a)) (as : List α) (c : Cursor) :
    as.foldl f c = c.puts (as.flatMap g) := by
  induction as generalizing c with
  | nil => rfl
  | cons a as ih => rw [List.foldl_cons, ih, hf, Cursor.puts_append, List.flatMap_cons]

theorem foldl_length {α : Type} (f : α → Nat) (g : α → List UInt8) (as : List α)
    (hf : ∀ a ∈ as, f a = (g a).length) (n : Nat) :
    as.foldl (fun len a => len + f a) n = n + (as.flatMap g).length := by
  induction as generalizing n with
  | nil => rfl
  | cons a as ih =>
    rw [List.foldl_cons, ih fun b hb => hf b (List.mem_cons_of_mem _ hb),
      hf a List.mem_cons_self, List.flatMap_cons, List.length_append, Nat.add_assoc]

def subscribeBody (packetid : UInt16) (topicFilters : List (MqttString × UInt8)) : List UInt8 :=
  be16 packetid.toNat ++ topicFilters.flatMap fun t => strBytes t.1 ++ [t.2]

def unsubscribeBody (packetid : UInt16) (topicFilters : List MqttString) : List UInt8 :=
  be16 packetid.toNat ++ topicFilters.flatMap strBytes

variable (packetid : UInt16)

theorem writeSubscribe_eq (topicFilters : List (MqttString × UInt8)) (c : Cursor) :
    writeSubscribe packetid topicFilters c = c.puts (subscribeBody packetid topicFilters) := by
  rw [writeSubscribe, foldl_puts _ (fun t => strBytes t.1 ++ [t.2])
    (fun c t => by rw [writeMqttString_eq, Cursor.put_eq_puts, Cursor.puts_append]; rfl),
    writeInt_eq, Cursor.puts_append]
  rfl

theorem writeUnsubscribe_eq (topicFilters : List MqttString) (c : Cursor) :
    writeUnsubscribe packetid topicFilters c = c.puts (unsubscribeBody packetid topicFilters) := by
  rw [writeUnsubscribe, foldl_puts _ strBytes (fun c t => writeMqttString_eq c t), writeInt_eq,
    Cursor.puts_append]
  rfl

theorem mqttSerializeSubscribeLength_eq
    {topicFilters : List (MqttString × UInt8)} (h : ∀ t ∈ topicFilters, t.1.OneForm) :
    mqttSerializeSubscribeLength topicFilters = (subscribeBody packetid topicFilters).length := by
  rw [mqttSerializeSubscribeLength, foldl_length _ (fun t => strBytes t.1 ++ [t.2]) _ ?_,
    subscribeBody, List.length_append, length_be16]
  intro t ht
  rw [List.length_append, length_strBytes (h t ht), List.length_singleton]; omega

theorem mqttSerializeUnsubscribeLength_eq {topicFilters : List MqttString}
    (h : ∀ t ∈ topicFilters, t.OneForm) :
    mqttSerializeUnsubscribeLength topicFilters =
      (unsubscribeBody packetid topicFilters).length := by
  rw [mqttSerializeUnsubscribeLength, foldl_length _ strBytes _ ?_, unsubscribeBody,
    List.length_append, length_be16]
  intro t ht
  rw [length_strBytes (h t ht)]; omega

/-! ## Respecting the buffer -/

/-- Every serializer respects its buffer on strings given in one form and, for
CONNECT, on a documented version. -/
theorem serialize_respects (buflen : Int) :
    (∀ options : ConnectData, options.VersionDocumented → options.OneForm →
      mqttSerializeConnectLength options ≤ maxRemainingLength →
      RespectsBuffer buflen (mqttSerializeConnect buflen options)) ∧
    (∀ (dup : UInt8) (qos : Nat) (retained : UInt8) (packetid : UInt16) (topicName : MqttString)
      (payload : List UInt8), topicName.OneForm →
      mqttSerializePublishLength qos topicName payload.length ≤ maxRemainingLength →
      RespectsBuffer buflen
        (mqttSerializePublish buflen dup qos retained packetid topicName payload)) ∧
    (∀ (dup : UInt8) (packetid : UInt16) (topicFilters : List (MqttString × UInt8)),
      (∀ t ∈ topicFilters, t.1.OneForm) →
      mqttSerializeSubscribeLength topicFilters ≤ maxRemainingLength →
      RespectsBuffer buflen (mqttSerializeSubscribe buflen dup packetid topicFilters)) ∧
    (∀ (dup : UInt8) (packetid : UInt16) (topicFilters : List MqttString),
      (∀ t ∈ topicFilters, t.OneForm) →
      mqttSerializeUnsubscribeLength topicFilters ≤ maxRemainingLength →
      RespectsBuffer buflen (mqttSerializeUnsubscribe buflen dup packetid topicFilters)) := by
  refine ⟨?_, ?_, ?_, ?_⟩
  · intro options hv hf hmax
    exact serializePacket_respects (writeConnect_eq options)
      (mqttSerializeConnectLength_eq hv hf) hmax
  · intro dup qos retained packetid topicName payload hf hmax
    exact serializePacket_respects (writePublish_eq qos packetid topicName payload)
      (mqttSerializePublishLength_eq hf qos packetid payload) hmax
  · intro dup packetid topicFilters hf hmax
    exact serializePacket_respects (writeSubscribe_eq packetid topicFilters)
      (mqttSerializeSubscribeLength_eq packetid hf) hmax
  · intro dup packetid topicFilters hf hmax
    exact serializePacket_respects (writeUnsubscribe_eq packetid topicFilters)
      (mqttSerializeUnsubscribeLength_eq packetid hf) hmax

/-- The options of a client named `d`. -/
def connectOptions (mqttVersion : UInt8) : ConnectData :=
  { mqttVersion := mqttVersion, clientID := { cstring := some (CStr.ofString "d" (by decide)) } }

theorem serialize_respects_connect :
    (connectOptions 4).VersionDocumented ∧
    RespectsBuffer 15 (mqttSerializeConnect 15 (connectOptions 4)) :=
  ⟨.inr rfl, (serialize_respects 15).1 (connectOptions 4) (.inr rfl)
    ⟨.inr rfl, .inr rfl, .inr rfl, .inr rfl, .inr rfl⟩ (by decide)⟩

/-- A topic with both representations, `d` and `aaaa`. -/
def twoForms : MqttString where
  cstring := some (CStr.ofString "d" (by decide))
  lenstring := some (List.replicate 4 0x61)

theorem not_respectsBuffer_of_rc {buflen : Int} {out : Serialized} (h : buflen < out.rc)
    (hpos : 0 < out.rc) : ¬ RespectsBuffer buflen out := by
  rintro (⟨hle, -⟩ | ⟨-, hle, -⟩) <;> omega

/-- With version 5 the length walk counts no protocol name, and the writer
stores seventeen bytes into a buffer of five. A topic given in both forms is
counted by its `cstring` and written from its `lenstring`. -/
theorem serialize_overruns :
    (mqttSerializeConnectLength (connectOptions 5) ≤ maxRemainingLength ∧
      (mqttSerializeConnect 5 (connectOptions 5)).rc = 17 ∧
      ¬ RespectsBuffer 5 (mqttSerializeConnect 5 (connectOptions 5))) ∧
    mqttSerializePublishLength 0 twoForms 0 ≤ maxRemainingLength ∧
      (mqttSerializePublish 5 0 0 0 0 twoForms []).rc = 8 ∧
      ¬ RespectsBuffer 5 (mqttSerializePublish 5 0 0 0 0 twoForms []) := by
  have hconnect : (mqttSerializeConnect 5 (connectOptions 5)).rc = 17 := by decide +kernel
  have hpublish : (mqttSerializePublish 5 0 0 0 0 twoForms []).rc = 8 := by decide +kernel
  refine ⟨⟨by decide, hconnect, not_respectsBuffer_of_rc ?_ ?_⟩, by decide, hpublish,
    not_respectsBuffer_of_rc ?_ ?_⟩
  · rw [hconnect]; decide
  · rw [hconnect]; decide
  · rw [hpublish]; decide
  · rw [hpublish]; decide

end AliyunIot.Mqtt
