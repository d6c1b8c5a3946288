import AliyunIot.Mqtt.Serialize

/-!
# MQTT deserializers

`MQTTDeserialize_publish`, `_ack`, `_connack`, `_suback` and `_unsuback`. An
out-parameter the code has not assigned is `none`. Each of the five keeps the
number of remaining-length bytes in the variable it later returns, so a
one-byte length field turns an early exit into `1`.

`PublishWithin` and its siblings say that the reported fields are the packet's
own; `deserialize_strict_iff` is the exact condition for that, and
`publish_roundTrip` reads back what the publish serializer stored.
-/

namespace AliyunIot.Mqtt

open Lib

/-- Out-parameters of `MQTTDeserialize_publish`. `topicName` and `payload` point into the buffer. -/
structure PublishOut where
  rc : Int
  dup : Option UInt8 := none
  qos : Option UInt8 := none
  retained : Option UInt8 := none
  packetid : Option UInt16 := none
  topicName : LenString := {}
  payload : Option Nat := none
  payloadlen : Option Int := none

/-- `MQTTDeserialize_publish` once the remaining length has been read: topic,
packet id and payload between `curdata` and `enddata`. -/
def readPublish (buf : Mem) (out : PublishOut) (curdata enddata : Nat) : PublishOut :=
  match readMqttLenString buf curdata enddata with
  | (false, topicName, _) => { out with topicName := topicName }
  | (true, topicName, curdata) =>
    if (enddata : Int) - curdata < 0 then { out with topicName := topicName }
    else
      let hasId := 0 < mqttHeaderGetQos (buf 0)
      let packetid := if hasId then some (UInt16.ofNat (readInt buf curdata)) else none
      let curdata := if hasId then curdata + 2 else curdata
      { out with
        rc := 1, topicName := topicName, packetid := packetid, payload := some curdata,
        payloadlen := some ((enddata : Int) - curdata) }

def mqttDeserializePublish (buf : Mem) : PublishOut :=
  let header := buf 0
  if mqttHeaderGetType header ≠ MsgType.publish.code then { rc := 0 }
  else
    let (rc, mylen) := mqttPacketDecodeBuf buf 1
    let curdata := 1 + rc
    readPublish buf
      { rc := rc, dup := some (mqttHeaderGetDup header), qos := some (mqttHeaderGetQos header),
        retained := some (mqttHeaderGetRetain header) }
      curdata (curdata + mylen)

/-- Out-parameters of `MQTTDeserialize_ack`. -/
structure AckOut where
  rc : Int
  packettype : UInt8
  dup : UInt8
  packetid : Option UInt16 := none

def mqttDeserializeAck (buf : Mem) : AckOut :=
  let header := buf 0
  let dup := mqttHeaderGetDup header
  let packettype := mqttHeaderGetType header
  let (rc, mylen) := mqttPacketDecodeBuf buf 1
  let curdata := 1 + rc
  if mylen < 2 then ⟨rc, packettype, dup, none⟩
  else ⟨1, packettype, dup, some (UInt16.ofNat (readInt buf curdata))⟩

/-- Out-parameters of `MQTTDeserialize_connack`. -/
structure ConnackOut where
  rc : Int
  sessionPresent : Option UInt8 := none
  connackRc : Option UInt8 := none

def mqttDeserializeConnack (buf : Mem) : ConnackOut :=
  if mqttHeaderGetType (buf 0) ≠ MsgType.connack.code then { rc := 0 }
  else
    let (rc, mylen) := mqttPacketDecodeBuf buf 1
    let curdata := 1 + rc
    if mylen < 2 then { rc := rc }
    else
      let flags := buf curdata
      -- `sessionpresent` is the last bit field of the byte
      ⟨1, some (flags >>> 7), some (buf (curdata + 1))⟩

/-- Out-parameters of `MQTTDeserialize_suback`; `count` is the number of granted QoSs. -/
structure SubackOut where
  rc : Int
  packetid : Option UInt16 := none
  grantedQoSs : Option (List UInt8) := none

/-- The loop over `left` bytes of return codes. -/
def subackLoop (buf : Mem) (maxcount : Int) : Nat → Nat → List UInt8 → Int × List UInt8
  | 0, _, granted => (1, granted)
  | left + 1, curdata, granted =>
    if (granted.length : Int) ≥ maxcount then (-1, granted)
    else subackLoop buf maxcount left (curdata + 1) (granted ++ [buf curdata])

def mqttDeserializeSuback (buf : Mem) (maxcount : Int) : SubackOut :=
  if mqttHeaderGetType (buf 0) ≠ MsgType.suback.code then { rc := 0 }
  else
    let (rc, mylen) := mqttPacketDecodeBuf buf 1
    let curdata := 1 + rc
    if mylen < 2 then { rc := rc }
    else
      let packetid := UInt16.ofNat (readInt buf curdata)
      let (rc, granted) := subackLoop buf maxcount (mylen - 2) (curdata + 2) []
      ⟨rc, some packetid, some granted⟩

/-- `MQTTDeserialize_unsuback`: the result and the packet id. -/
def mqttDeserializeUnsuback (buf : Mem) : Int × Option UInt16 :=
  let ack := mqttDeserializeAck buf
  let rc := ack.rc
  let rc := if ack.packettype = MsgType.unsuback.code then 1 else rc
  (rc, ack.packetid)

/-! ## Fields of a packet -/

namespace MqttPacket

def type (p : MqttPacket) : UInt8 := mqttHeaderGetType p.header

/-- The QoS bits. -/
def qos (p : MqttPacket) : UInt8 := mqttHeaderGetQos p.header

def bodyStart (p : MqttPacket) : Nat := 1 + p.remLen.length

/-- The 16-bit integer at offset `k` of the body. -/
def int16 (p : MqttPacket) (k : Nat) : Nat :=
  256 * (p.body.getD k 0).toNat + (p.body.getD (k + 1) 0).toNat

/-- The topic of a PUBLISH ends inside the body. -/
def TopicFits (p : MqttPacket) : Prop := 2 ≤ p.body.length ∧ 2 + p.int16 0 ≤ p.body.length

instance (p : MqttPacket) : Decidable p.TopicFits :=
  inferInstanceAs (Decidable (_ ∧ _))

variable {p : MqttPacket} {buf : Mem}

theorem length_eq : p.bytes.length = p.bodyStart + p.body.length := length_bytes

theorem type_of_holds (h : Holds buf 0 p.bytes) : mqttHeaderGetType (buf 0) = p.type := by
  rw [holds_header h]; rfl

theorem byte_of_holds (h : Holds buf 0 p.bytes) {k : Nat} (hk : k < p.body.length) :
    buf (p.bodyStart + k) = p.body.getD k 0 := by
  rw [List.getD_eq_getElem?_getD, List.getElem?_eq_getElem hk]
  exact holds_body h k _ (List.getElem?_eq_getElem hk)

theorem readInt_of_holds (h : Holds buf 0 p.bytes) {k : Nat} (hk : k + 2 ≤ p.body.length) :
    readInt buf (p.bodyStart + k) = p.int16 k := by
  rw [readInt, byte_of_holds h (by omega), Nat.add_assoc, byte_of_holds h (by omega)]; rfl

end MqttPacket

/-- The reported PUBLISH is the packet's: topic and payload are slices of the
body, the id is read after the topic, the payload ends where the packet ends. -/
structure PublishWithin (p : MqttPacket) (out : PublishOut) : Prop where
  topic : ∃ d, out.topicName.data = some d ∧ p.bodyStart ≤ d ∧
    d + out.topicName.len ≤ p.bytes.length
  packetid : 0 < p.qos → 2 + out.topicName.len + 2 ≤ p.body.length ∧
    out.packetid = some (UInt16.ofNat (p.int16 (2 + out.topicName.len)))
  payload : ∃ d n, out.payload = some d ∧ out.payloadlen = some n ∧ p.bodyStart ≤ d ∧ 0 ≤ n ∧
    d + n = p.bytes.length

/-- The reported packet id is the first two bytes of the body. -/
def AckWithin (p : MqttPacket) (packetid : Option UInt16) : Prop :=
  2 ≤ p.body.length ∧ packetid = some (UInt16.ofNat (p.int16 0))

/-- The reported CONNACK is the first two bytes of the body. -/
def ConnackWithin (p : MqttPacket) (out : ConnackOut) : Prop :=
  ∃ flags rc rest, p.body = flags :: rc :: rest ∧ out.sessionPresent = some (flags >>> 7) ∧
    out.connackRc = some rc

/-- The reported id and granted QoSs are the body. -/
def SubackWithin (p : MqttPacket) (out : SubackOut) : Prop :=
  AckWithin p out.packetid ∧ out.grantedQoSs = some (p.body.drop 2)

section
variable {p : MqttPacket} {buf : Mem}

/-! ## What each deserializer computes on a packet -/

theorem mqttDeserializePublish_packet (h : Holds buf 0 p.bytes)
    (ht : p.type = MsgType.publish.code) :
    mqttDeserializePublish buf = readPublish buf
      { rc := p.remLen.length, dup := some (mqttHeaderGetDup p.header), qos := some p.qos,
        retained := some (mqttHeaderGetRetain p.header) } p.bodyStart p.bytes.length := by
  have ht' : ¬ mqttHeaderGetType (buf 0) ≠ MsgType.publish.code := by
    rw [MqttPacket.type_of_holds h]; exact not_not_intro ht
  simp only [mqttDeserializePublish, MqttPacket.decodeBuf h, if_neg ht']
  rw [p.length_eq, MqttPacket.holds_header h]; rfl

theorem readTopic_of_fits (h : Holds buf 0 p.bytes) (hf : p.TopicFits) :
    readMqttLenString buf p.bodyStart p.bytes.length =
      (true, ⟨p.int16 0, some (p.bodyStart + 2)⟩, p.bodyStart + 2 + p.int16 0) := by
  obtain ⟨h2, hfit⟩ := hf
  have hlen := p.length_eq
  have hr : readInt buf p.bodyStart = p.int16 0 := MqttPacket.readInt_of_holds h (k := 0) h2
  rw [readMqttLenString, if_pos (by omega)]
  simp only [hr]
  rw [if_pos (by omega)]

theorem readTopic_of_not_fits (h : Holds buf 0 p.bytes) (hf : ¬ p.TopicFits) :
    ∃ s c, readMqttLenString buf p.bodyStart p.bytes.length = (false, s, c) ∧ s.data = none := by
  have hlen := p.length_eq
  unfold readMqttLenString
  by_cases h2 : 2 ≤ p.body.length
  · have hr : readInt buf p.bodyStart = p.int16 0 := MqttPacket.readInt_of_holds h (k := 0) h2
    have hnot : ¬ 2 + p.int16 0 ≤ p.body.length := fun hle => hf ⟨h2, hle⟩
    rw [if_pos (by omega)]
    simp only [hr]
    rw [if_neg (by omega)]
    exact ⟨_, _, rfl, rfl⟩
  · rw [if_neg (by omega)]
    exact ⟨_, _, rfl, rfl⟩

def MqttPacket.payloadStart (p : MqttPacket) : Nat :=
  p.bodyStart + 2 + p.int16 0 + if 0 < p.qos then 2 else 0

theorem publish_of_topicFits (h : Holds buf 0 p.bytes) (ht : p.type = MsgType.publish.code)
    (hf : p.TopicFits) :
    mqttDeserializePublish buf =
      { rc := 1, dup := some (mqttHeaderGetDup p.header), qos := some p.qos,
        retained := some (mqttHeaderGetRetain p.header),
        packetid := if 0 < p.qos then
            some (UInt16.ofNat (readInt buf (p.bodyStart + 2 + p.int16 0))) else none,
        topicName := ⟨p.int16 0, some (p.bodyStart + 2)⟩, payload := some p.payloadStart,
        payloadlen := some ((p.bytes.length : Int) - p.payloadStart) } := by
  have hlen := p.length_eq
  have hfit := hf.2
  have hq : mqttHeaderGetQos (buf 0) = p.qos := by rw [MqttPacket.holds_header h]; rfl
  rw [mqttDeserializePublish_packet h ht, readPublish, readTopic_of_fits h hf]
  simp only [hq]
  rw [if_neg (by omega), MqttPacket.payloadStart]
  by_cases h0 : 0 < p.qos
  · simp only [if_pos h0]
  · simp only [if_neg h0, Nat.add_zero]

theorem publish_of_not_topicFits (h : Holds buf 0 p.bytes) (ht : p.type = MsgType.publish.code)
    (hf : ¬ p.TopicFits) : (mqttDeserializePublish buf).rc = p.remLen.length ∧
      (mqttDeserializePublish buf).topicName.data = none := by
  obtain ⟨s, c, hs, hd⟩ := readTopic_of_not_fits h hf
  rw [mqttDeserializePublish_packet h ht, readPublish, hs]
  exact ⟨rfl, hd⟩

theorem publish_of_type_ne (h : Holds buf 0 p.bytes) (ht : p.type ≠ MsgType.publish.code) :
    (mqttDeserializePublish buf).rc = 0 := by
  simp only [mqttDeserializePublish, MqttPacket.type_of_holds h, if_pos ht]

theorem mqttDeserializeAck_packet (h : Holds buf 0 p.bytes) :
    mqttDeserializeAck buf =
      if p.body.length < 2 then ⟨p.remLen.length, p.type, mqttHeaderGetDup p.header, none⟩
      else ⟨1, p.type, mqttHeaderGetDup p.header, some (UInt16.ofNat (p.int16 0))⟩ := by
  simp only [mqttDeserializeAck, MqttPacket.decodeBuf h, MqttPacket.holds_header h]
  by_cases h2 : p.body.length < 2
  · rw [if_pos h2, if_pos h2]; rfl
  · rw [if_neg h2, if_neg h2, ← MqttPacket.readInt_of_holds h (by omega)]; rfl

theorem mqttDeserializeConnack_packet (h : Holds buf 0 p.bytes) :
    mqttDeserializeConnack buf =
      if p.type ≠ MsgType.connack.code then { rc := 0 }
      else if p.body.length < 2 then { rc := p.remLen.length }
      else ⟨1, some (p.body.getD 0 0 >>> 7), some (p.body.getD 1 0)⟩ := by
  simp only [mqttDeserializeConnack, MqttPacket.decodeBuf h, MqttPacket.type_of_holds h]
  by_cases ht : p.type ≠ MsgType.connack.code
  · rw [if_pos ht, if_pos ht]
  rw [if_neg ht, if_neg ht]
  by_cases h2 : p.body.length < 2
  · rw [if_pos h2, if_pos h2]
  · rw [if_neg h2, if_neg h2, ← MqttPacket.byte_of_holds h (by omega),
      ← MqttPacket.byte_of_holds h (by omega)]; rfl

theorem subackLoop_eq (buf : Mem) (maxcount : Int) (left curdata : Nat) (granted : List UInt8) :
    (subackLoop buf maxcount left curdata granted).1 = 1 →
      (subackLoop buf maxcount left curdata granted).2 = granted ++ slice buf curdata left := by
  induction left generalizing curdata granted with
  | zero => intro _; simp [subackLoop, slice]
  | succ left ih =>
    rw [subackLoop]
    split
    · intro hrc; cases hrc
    · intro hrc
      rw [ih _ _ hrc, slice_succ, List.append_assoc]; rfl

theorem mqttDeserializeSuback_packet (h : Holds buf 0 p.bytes) (maxcount : Int) :
    mqttDeserializeSuback buf maxcount =
      if p.type ≠ MsgType.suback.code then { rc := 0 }
      else if p.body.length < 2 then { rc := p.remLen.length }
      else
        let r := subackLoop buf maxcount (p.body.length - 2) (p.bodyStart + 2) []
        ⟨r.1, some (UInt16.ofNat (p.int16 0)), some r.2⟩ := by
  simp only [mqttDeserializeSuback, MqttPacket.decodeBuf h, MqttPacket.type_of_holds h]
  by_cases ht : p.type ≠ MsgType.suback.code
  · rw [if_pos ht, if_pos ht]
  rw [if_neg ht, if_neg ht]
  by_cases h2 : p.body.length < 2
  · rw [if_pos h2, if_pos h2]
  · rw [if_neg h2, if_neg h2, ← MqttPacket.readInt_of_holds h (by omega)]; rfl

theorem slice_body (h : Holds buf 0 p.bytes) (k : Nat) :
    slice buf (p.bodyStart + k) (p.body.length - k) = p.body.drop k := by
  have hh : Holds buf (p.bodyStart + k) (p.body.drop k) := by
    intro i b hb
    rw [List.getElem?_drop] at hb
    rw [Nat.add_assoc]
    exact MqttPacket.holds_body h (k + i) b hb
  rw [← slice_of_holds hh, List.length_drop]

/-! ## When `1` means that the fields are there -/

/-- The PUBLISH has room for the id its QoS asks for, and a topic that does not
fit is not hidden behind a one-byte length field. -/
def PublishComplete (p : MqttPacket) : Prop :=
  p.type = MsgType.publish.code →
    (p.TopicFits → 0 < p.qos → 2 + p.int16 0 + 2 ≤ p.body.length) ∧
    (¬ p.TopicFits → p.remLen.length ≠ 1)

/-- The two leading bytes are there, or their absence is not hidden behind a
one-byte length field. -/
def AckComplete (p : MqttPacket) : Prop := p.body.length < 2 → p.remLen.length ≠ 1

theorem publish_iff (h : Holds buf 0 p.bytes) :
    ((mqttDeserializePublish buf).rc = 1 → PublishWithin p (mqttDeserializePublish buf)) ↔
      PublishComplete p := by
  by_cases ht : p.type = MsgType.publish.code
  swap
  · rw [publish_of_type_ne h ht]
    exact ⟨fun _ hc => absurd hc ht, fun _ hc => by cases hc⟩
  by_cases hf : p.TopicFits
  · have hlen := p.length_eq
    have hfit := hf.2
    have hstart : p.payloadStart = p.bodyStart + 2 + p.int16 0 + if 0 < p.qos then 2 else 0 := rfl
    rw [publish_of_topicFits h ht hf]
    constructor
    · intro hw _
      refine ⟨fun _ hq => ?_, fun hn => absurd hf hn⟩
      exact ((hw rfl).packetid hq).1
    · intro hc _
      have hroom := (hc ht).1 hf
      have hle : p.payloadStart ≤ p.bytes.length := by
        by_cases hq : 0 < p.qos
        · have := hroom hq
          rw [if_pos hq] at hstart; omega
        · rw [if_neg hq] at hstart; omega
      refine ⟨⟨_, rfl, by omega, ?_⟩, fun hq => ⟨hroom hq, ?_⟩,
        ⟨_, _, rfl, rfl, by omega, by omega, by omega⟩⟩
      · show p.bodyStart + 2 + p.int16 0 ≤ p.bytes.length
        omega
      · have hid : p.bodyStart + (2 + p.int16 0) = p.bodyStart + 2 + p.int16 0 := by omega
        have hread := MqttPacket.readInt_of_holds h (hroom hq)
        rw [hid] at hread
        simp only [if_pos hq, hread]
  · obtain ⟨hrc, hd⟩ := publish_of_not_topicFits h ht hf
    rw [hrc]
    constructor
    · intro hw _
      refine ⟨fun hn => absurd hn hf, fun _ h1 => ?_⟩
      obtain ⟨d, hd', -⟩ := (hw (by omega)).topic
      rw [hd] at hd'; cases hd'
    · intro hc h1
      exact absurd (by omega : p.remLen.length = 1) ((hc ht).2 hf)

theorem earlyExit_iff {P : Prop} (h2 : p.body.length < 2) (hP : ¬ P) :
    ((p.remLen.length : Int) = 1 → P) ↔ AckComplete p := by
  constructor
  · intro hw _ h1
    exact hP (hw (by omega))
  · intro hc h1
    exact absurd (by omega) (hc h2)

theorem not_ackWithin (h2 : p.body.length < 2) (id : Option UInt16) : ¬ AckWithin p id :=
  fun hw => absurd hw.1 (by omega)

theorem ack_iff (h : Holds buf 0 p.bytes) :
    ((mqttDeserializeAck buf).rc = 1 → AckWithin p (mqttDeserializeAck buf).packetid) ↔
      AckComplete p := by
  rw [mqttDeserializeAck_packet h]
  by_cases h2 : p.body.length < 2
  · rw [if_pos h2]
    exact earlyExit_iff h2 (not_ackWithin h2 _)
  · rw [if_neg h2]
    exact ⟨fun _ hn => absurd hn h2, fun _ _ => ⟨by omega, rfl⟩⟩

theorem connack_iff (h : Holds buf 0 p.bytes) :
    ((mqttDeserializeConnack buf).rc = 1 → ConnackWithin p (mqttDeserializeConnack buf)) ↔
      (p.type = MsgType.connack.code → AckComplete p) := by
  rw [mqttDeserializeConnack_packet h]
  by_cases ht : p.type ≠ MsgType.connack.code
  · rw [if_pos ht]
    exact ⟨fun _ hc => absurd hc ht, fun _ hc => by cases hc⟩
  rw [if_neg ht]
  by_cases h2 : p.body.length < 2
  · rw [if_pos h2, forall_prop_of_true (not_not.mp ht)]
    apply earlyExit_iff h2
    rintro ⟨flags, rc, rest, hb, -⟩
    rw [hb, List.length_cons, List.length_cons] at h2; omega
  · rw [if_neg h2]
    refine ⟨fun _ _ hn => absurd hn h2, fun _ _ => ?_⟩
    rcases hb : p.body with _ | ⟨a, _ | ⟨b, rest⟩⟩
    · rw [hb] at h2; simp at h2
    · rw [hb] at h2; simp at h2
    · exact ⟨a, b, rest, hb, rfl, rfl⟩

theorem suback_iff (h : Holds buf 0 p.bytes) (maxcount : Int) :
    ((mqttDeserializeSuback buf maxcount).rc = 1 →
      SubackWithin p (mqttDeserializeSuback buf maxcount)) ↔
      (p.type = MsgType.suback.code → AckComplete p) := by
  rw [mqttDeserializeSuback_packet h]
  by_cases ht : p.type ≠ MsgType.suback.code
  · rw [if_pos ht]
    exact ⟨fun _ hc => absurd hc ht, fun _ hc => by cases hc⟩
  rw [if_neg ht]
  by_cases h2 : p.body.length < 2
  · rw [if_pos h2, forall_prop_of_true (not_not.mp ht)]
    exact earlyExit_iff h2 fun hw => not_ackWithin h2 _ hw.1
  · rw [if_neg h2]
    refine ⟨fun _ _ hn => absurd hn h2, fun _ hrc => ⟨⟨by omega, rfl⟩, ?_⟩⟩
    show some _ = some _
    rw [subackLoop_eq _ _ _ _ _ hrc, slice_body h, List.nil_append]

theorem unsuback_iff (h : Holds buf 0 p.bytes) :
    ((mqttDeserializeUnsuback buf).1 = 1 → AckWithin p (mqttDeserializeUnsuback buf).2) ↔
      (AckComplete p ∧ (p.body.length < 2 → p.type ≠ MsgType.unsuback.code)) := by
  simp only [mqttDeserializeUnsuback, mqttDeserializeAck_packet h]
  by_cases h2 : p.body.length < 2
  · simp only [if_pos h2]
    by_cases ht : p.type = MsgType.unsuback.code
    · rw [if_pos ht]
      refine ⟨fun hw => ?_, fun hc => absurd ht (hc.2 h2)⟩
      have := (hw rfl).1
      omega
    · rw [if_neg ht, earlyExit_iff h2 (not_ackWithin h2 _)]
      exact ⟨fun hc => ⟨hc, fun _ => ht⟩, fun hc => hc.1⟩
  · simp only [if_neg h2]
    exact ⟨fun _ => ⟨fun hn => absurd hn h2, fun hn => absurd hn h2⟩, fun _ _ => ⟨by omega, rfl⟩⟩

/-- For each deserializer, the packets on which `1` means that what it reports
is in the packet. -/
theorem deserialize_strict_iff (h : Holds buf 0 p.bytes) (maxcount : Int) :
    (((mqttDeserializePublish buf).rc = 1 → PublishWithin p (mqttDeserializePublish buf)) ↔
      PublishComplete p) ∧
    (((mqttDeserializeAck buf).rc = 1 → AckWithin p (mqttDeserializeAck buf).packetid) ↔
      AckComplete p) ∧
    (((mqttDeserializeConnack buf).rc = 1 → ConnackWithin p (mqttDeserializeConnack buf)) ↔
      (p.type = MsgType.connack.code → AckComplete p)) ∧
    (((mqttDeserializeSuback buf maxcount).rc = 1 →
        SubackWithin p (mqttDeserializeSuback buf maxcount)) ↔
      (p.type = MsgType.suback.code → AckComplete p)) ∧
    (((mqttDeserializeUnsuback buf).1 = 1 → AckWithin p (mqttDeserializeUnsuback buf).2) ↔
      (AckComplete p ∧ (p.body.length < 2 → p.type ≠ MsgType.unsuback.code))) :=
  ⟨publish_iff h, ack_iff h, connack_iff h, suback_iff h maxcount, unsuback_iff h⟩

end

/-- `30 00`: a PUBLISH without a body. -/
def emptyPublish : MqttPacket := ⟨0x30, [0], [], by decide, by decide, rfl⟩

/-- `32 02 00 00`: an empty topic and no room for the packet id. -/
def publishWithoutId : MqttPacket := ⟨0x32, [2], [0, 0], by decide, by decide, rfl⟩

/-- Memory that holds `bs` and zeros after it. -/
def memOf (bs : List UInt8) : Mem := fun i => bs.getD i 0

theorem holds_memOf (bs : List UInt8) : Holds (memOf bs) 0 bs := by
  intro i b h
  rw [Nat.zero_add, memOf, List.getD_eq_getElem?_getD, h]; rfl

theorem deserialize_strict_iff_emptyPublish :
    Holds (memOf emptyPublish.bytes) 0 emptyPublish.bytes ∧
    (((mqttDeserializePublish (memOf emptyPublish.bytes)).rc = 1 →
        PublishWithin emptyPublish (mqttDeserializePublish (memOf emptyPublish.bytes))) ↔
      PublishComplete emptyPublish) :=
  ⟨holds_memOf _, (deserialize_strict_iff (holds_memOf _) 5).1⟩

/-- Both are reported as success: the first with neither topic nor payload, the
second with a payload of `-2` bytes. -/
theorem deserialize_publish_not_strict :
    (Holds (memOf emptyPublish.bytes) 0 emptyPublish.bytes ∧
      (mqttDeserializePublish (memOf emptyPublish.bytes)).rc = 1 ∧
      ¬ PublishWithin emptyPublish (mqttDeserializePublish (memOf emptyPublish.bytes))) ∧
    (Holds (memOf publishWithoutId.bytes) 0 publishWithoutId.bytes ∧
      (mqttDeserializePublish (memOf publishWithoutId.bytes)).rc = 1 ∧
      (mqttDeserializePublish (memOf publishWithoutId.bytes)).payloadlen = some (-2)) := by
  refine ⟨⟨holds_memOf _, by decide, fun hw => ?_⟩, holds_memOf _, by decide, by decide⟩
  obtain ⟨d, hd, -⟩ := hw.topic
  exact absurd hd (by decide +revert)

/-! ## PUBLISH round trip -/

theorem publishHeader_get {dup retained : UInt8} {qos : Nat} (hd : dup.toNat ≤ 1)
    (hr : retained.toNat ≤ 1) (hq : qos ≤ 2) :
    mqttHeaderGetType (publishHeader dup qos retained) = MsgType.publish.code ∧
    mqttHeaderGetDup (publishHeader dup qos retained) = dup ∧
    mqttHeaderGetQos (publishHeader dup qos retained) = UInt8.ofNat qos ∧
    mqttHeaderGetRetain (publishHeader dup qos retained) = retained := by
  have key : ∀ (d r : Fin 2) (q : Fin 3),
      mqttHeaderGetType (publishHeader (UInt8.ofNat d) q (UInt8.ofNat r)) = MsgType.publish.code ∧
      mqttHeaderGetDup (publishHeader (UInt8.ofNat d) q (UInt8.ofNat r)) = UInt8.ofNat d ∧
      mqttHeaderGetQos (publishHeader (UInt8.ofNat d) q (UInt8.ofNat r)) = UInt8.ofNat q ∧
      mqttHeaderGetRetain (publishHeader (UInt8.ofNat d) q (UInt8.ofNat r)) = UInt8.ofNat r := by
    decide
  simpa using key ⟨dup.toNat, by omega⟩ ⟨retained.toNat, by omega⟩ ⟨qos, by omega⟩

theorem be16_read (n : Nat) (h : n ≤ 65535) :
    256 * (UInt8.ofNat (n / 256)).toNat + (UInt8.ofNat (n % 256)).toNat = n := by
  rw [UInt8.toNat_ofNat', UInt8.toNat_ofNat']; omega

/-- What `MQTTDeserialize_publish` reports, as values instead of pointers. -/
structure PublishIs (buf : Mem) (out : PublishOut) (dup : UInt8) (qos : Nat) (retained : UInt8)
    (packetid : UInt16) (topic payload : List UInt8) : Prop where
  rc_eq : out.rc = 1
  dup_eq : out.dup = some dup
  qos_eq : out.qos = some (UInt8.ofNat qos)
  retained_eq : out.retained = some retained
  packetid_eq : 0 < qos → out.packetid = some packetid
  topic_eq : ∃ d, out.topicName.data = some d ∧ slice buf d out.topicName.len = topic
  payload_eq : ∃ d, out.payload = some d ∧ out.payloadlen = some payload.length ∧
    slice buf d payload.length = payload

theorem publish_of_holds {buf : Mem} {dup retained : UInt8} {qos : Nat} {packetid : UInt16}
    {topicName : MqttString} {payload : List UInt8} (hd : dup.toNat ≤ 1) (hr : retained.toNat ≤ 1)
    (hq : qos ≤ 2) (ht : topicName.text.length ≤ 65535)
    (hmax : (publishBody qos packetid topicName payload).length ≤ maxRemainingLength)
    (h : Holds buf 0 (packetBytes (publishHeader dup qos retained)
      (publishBody qos packetid topicName payload).length
      (publishBody qos packetid topicName payload))) :
    PublishIs buf (mqttDeserializePublish buf) dup qos retained packetid topicName.text
      payload := by
  obtain ⟨gt, gd, gq, gr⟩ := publishHeader_get hd hr hq
  let p := MqttPacket.ofBody (publishHeader dup qos retained)
    (publishBody qos packetid topicName payload) hmax
  have hp : Holds buf 0 p.bytes := h
  have hb : p.body = be16 topicName.text.length ++ (topicName.text ++
      (packetidBytes qos packetid ++ payload)) := by
    show publishBody qos packetid topicName payload = _
    rw [publishBody, strBytes, List.append_assoc]
  have hlen : p.bytes.length = p.bodyStart + 2 + topicName.text.length +
      (packetidBytes qos packetid).length + payload.length := by
    rw [p.length_eq, hb, List.length_append, List.length_append, List.length_append, length_be16]
    omega
  have hhold : Holds buf p.bodyStart p.body := MqttPacket.holds_body hp
  rw [hb] at hhold
  obtain ⟨-, hhold⟩ := holds_append.mp hhold
  rw [length_be16] at hhold
  obtain ⟨htopic, hhold⟩ := holds_append.mp hhold
  obtain ⟨hid, hpayload⟩ := holds_append.mp hhold
  have hi : p.int16 0 = topicName.text.length := by
    rw [MqttPacket.int16, hb]
    exact be16_read _ ht
  have hfit : p.TopicFits := by
    constructor
    · rw [hb, List.length_append, length_be16]; omega
    · rw [hi, hb, List.length_append, List.length_append, length_be16]; omega
  have hqos : p.qos = UInt8.ofNat qos := gq
  have hpos : 0 < p.qos ↔ 0 < qos := by
    rw [hqos, UInt8.lt_iff_toNat_lt, UInt8.toNat_ofNat', UInt8.toNat_zero]
    omega
  have hstart : p.payloadStart = p.bodyStart + 2 + topicName.text.length +
      (packetidBytes qos packetid).length := by
    rw [MqttPacket.payloadStart, hi, packetidBytes]
    by_cases h0 : 0 < qos
    · rw [if_pos (hpos.mpr h0), if_pos h0, length_be16]
    · rw [if_neg fun hc => h0 (hpos.mp hc), if_neg h0]; rfl
  rw [publish_of_topicFits hp gt hfit]
  refine ⟨rfl, congrArg some gd, congrArg some hqos, congrArg some gr, fun h0 => ?_,
    ⟨_, rfl, ?_⟩, ⟨_, rfl, ?_, ?_⟩⟩
  · rw [packetidBytes, if_pos h0] at hid
    simp only [if_pos (hpos.mpr h0), hi]
    rw [readInt_of_holds (by have := packetid.toNat_lt; omega) hid, UInt16.ofNat_toNat]
  · simp only [hi]
    exact slice_of_holds htopic
  · show some ((p.bytes.length : Int) - p.payloadStart) = some (payload.length : Int)
    rw [Option.some.injEq]
    omega
  · rw [hstart]
    exact slice_of_holds hpayload

/-- Reading back a PUBLISH the serializer stored, over any old buffer contents,
gives the packet it was built from; every remaining length survives encoding. -/
theorem publish_roundTrip :
    (∀ (buflen : Int) (dup retained : UInt8) (qos : Nat) (packetid : UInt16) (topic : CStr)
      (topicName : MqttString) (payload : List UInt8) (m : Mem),
      dup.toNat ≤ 1 → retained.toNat ≤ 1 → qos ≤ 2 → topic.strlen ≤ 65535 →
      topicName = { cstring := some topic } ∨ topicName = { lenstring := some topic.val } →
      mqttSerializePublishLength qos topicName payload.length ≤ maxRemainingLength →
      0 < (mqttSerializePublish buflen dup qos retained packetid topicName payload).rc →
      let buf :=
        overlay (mqttSerializePublish buflen dup qos retained packetid topicName payload).mem m
      PublishIs buf (mqttDeserializePublish buf) dup qos retained packetid topic.val payload) ∧
    (∀ (n : Nat) (buf : Mem) (pos : Nat), n ≤ maxRemainingLength →
      Holds buf pos (mqttPacketEncode n) →
      mqttPacketDecodeBuf buf pos = ((mqttPacketEncode n).length, n)) := by
  refine ⟨?_, fun n buf pos hn hh => mqttPacketDecodeBuf_encode hn hh⟩
  intro buflen dup retained qos packetid topic topicName payload m hd hr hq hlen hform hmax hrc
  have htext : topicName.text = topic.val ∧ topicName.OneForm := by
    rcases hform with rfl | rfl
    · exact ⟨rfl, .inr rfl⟩
    · refine ⟨?_, .inl rfl⟩
      rcases hv : topic.val with _ | ⟨b, bs⟩ <;> rfl
  have hl := mqttSerializePublishLength_eq htext.2 qos packetid payload
  rw [hl] at hmax
  have hcases := serializePacket_cases buflen
    (mqttSerializePublishLength qos topicName payload.length) (publishHeader dup qos retained)
    (fun c => writePublish_eq qos packetid topicName payload c)
  have hdef : mqttSerializePublish buflen dup qos retained packetid topicName payload =
      serializePacket buflen (mqttSerializePublishLength qos topicName payload.length)
        (publishHeader dup qos retained) (writePublish qos packetid topicName payload) := rfl
  rcases hcases with ⟨-, hs⟩ | ⟨-, hs⟩
  · rw [hdef, hs] at hrc
    exact absurd hrc (by decide)
  · rw [hdef, hs, hl, ← htext.1]
    exact publish_of_holds hd hr hq (by rw [htext.1]; exact hlen) hmax (holds_overlay_puts _ m)

theorem publish_roundTrip_cstring :
    0 < (mqttSerializePublish 16 0 1 0 7 { cstring := some ⟨[0x61], by decide⟩ } [0x62]).rc ∧
    PublishIs
      (overlay (mqttSerializePublish 16 0 1 0 7 { cstring := some ⟨[0x61], by decide⟩ } [0x62]).mem
        (memOf []))
      (mqttDeserializePublish (overlay (mqttSerializePublish 16 0 1 0 7
        { cstring := some ⟨[0x61], by decide⟩ } [0x62]).mem (memOf [])))
      0 1 0 7 [0x61] [0x62] :=
  have hrc : 0 <
      (mqttSerializePublish 16 0 1 0 7 { cstring := some ⟨[0x61], by decide⟩ } [0x62]).rc :=
    by decide +kernel
  ⟨hrc, publish_roundTrip.1 16 0 0 1 7 ⟨[0x61], by decide⟩ _ [0x62] (memOf []) (by decide)
    (by decide) (by decide) (by decide) (.inl rfl) (by decide) hrc⟩

end AliyunIot.Mqtt
