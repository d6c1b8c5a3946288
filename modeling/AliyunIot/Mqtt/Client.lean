import AliyunIot.Lib.Run
import AliyunIot.Mqtt.Deserialize
import AliyunIot.Mqtt.Topic

/-!
# MQTT client

The record `Client` of `iotx_mqtt_client.h` (dynamic memory, dynamic buffers,
QoS 1) and the helpers its operations share. What an operation cannot decide
is an input of it: whether an allocation succeeds, and the results of the
successive `ipstack.write` calls until the timer expires.

`heapNext` is not a field of the source: it numbers allocated list nodes, so
that a node can be named after its address has been reused.
-/

namespace AliyunIot.Mqtt

inductive McState where
  | invalid | initialized | connected | disconnected | disconnectedReconnecting | connectBlock
  deriving DecidableEq

inductive McNode where
  | normal | invalid
  deriving DecidableEq

inductive EventType where
  | undef | subscribeSuccess | subscribeTimeout | subscribeNack | unsubscribeSuccess
  | publishSuccess | publishReceived | bufferOverflow
  deriving DecidableEq

/-- `iotx_mqtt_event_handle_t`: a function pointer, `none` when NULL, and its context. -/
structure EventHandle where
  hFp : Option Nat := none
  pcontext : Nat := 0
  deriving DecidableEq

/-- `iotx_mc_topic_handle_t`; the topic type is read only with zipped topics. -/
structure TopicHandle where
  topicFilter : CStr
  handle : EventHandle
  deriving DecidableEq

/-- `iotx_mc_pub_info_t`; `len` is the length of `buf`, the start time an input
of the pass that compares it. -/
structure PubInfo where
  block : Nat
  nodeState : McNode
  msgId : UInt16
  buf : List UInt8
  deriving DecidableEq

structure SubSyncNode where
  block : Nat
  packetId : Nat
  ackType : EventType

structure Client where
  packetId : Nat := 0
  requestTimeoutMs : Nat := 2000
  bufSizeSend : Nat := 0
  bufSizeSendMax : Nat
  bufSizeReadMax : Nat
  bufSizeRead : Nat := 0
  keepaliveProbes : Nat := 0
  bufSend : Option (List UInt8) := none
  bufRead : Option (List UInt8) := none
  listSubHandle : List TopicHandle := []
  clientState : McState := .initialized
  connectData : ConnectData := {}
  listPubWaitAck : List PubInfo := []
  listSubSyncAck : List SubSyncNode := []
  handleEvent : EventHandle := {}
  heapNext : Nat := 0

abbrev iotxMcRepubNumMax : Nat := 10
abbrev iotxMcPacketIdMax : Nat := 65535
abbrev mqttDynbufSendMargin : Nat := 64
abbrev mqttDynbufRecvMargin : Nat := 8

def iotxMcSetClientState (c : Client) (newState : McState) : Client :=
  { c with clientState := newState }

def wrapperMqttCheckState (c : Client) : Bool := c.clientState = .connected

def iotxMcGetNextPacketid (c : Client) : Nat × Client :=
  let id := if c.packetId = iotxMcPacketIdMax then 1 else c.packetId + 1
  (id, { c with packetId := id })

/-! ## Send buffer and socket -/

def allocSendBuffer (c : Client) (len : Nat) (mallocOk : Bool) : Int × Client :=
  let tmpLen := mqttDynbufSendMargin + len
  let tmpLen := if tmpLen > c.bufSizeSendMax then c.bufSizeSendMax else tmpLen
  if mallocOk then
    (State.success, { c with bufSend := some (List.replicate tmpLen 0), bufSizeSend := tmpLen })
  else (State.sysDependMalloc, { c with bufSend := none })

def resetSendBuffer (c : Client) : Client :=
  if c.bufSend = none then c else { c with bufSend := none, bufSizeSend := 0 }

section
variable (c : Client) (len : Nat) (ok : Bool)

@[simp] theorem allocSendBuffer_listPubWaitAck : (allocSendBuffer c len ok).2.listPubWaitAck =
    c.listPubWaitAck := by
  unfold allocSendBuffer; cases ok <;> rfl

@[simp] theorem allocSendBuffer_heapNext : (allocSendBuffer c len ok).2.heapNext = c.heapNext := by
  unfold allocSendBuffer; cases ok <;> rfl

@[simp] theorem allocSendBuffer_listSubHandle : (allocSendBuffer c len ok).2.listSubHandle =
    c.listSubHandle := by
  unfold allocSendBuffer; cases ok <;> rfl

@[simp] theorem allocSendBuffer_packetId : (allocSendBuffer c len ok).2.packetId = c.packetId := by
  unfold allocSendBuffer; cases ok <;> rfl

@[simp] theorem allocSendBuffer_clientState : (allocSendBuffer c len ok).2.clientState =
    c.clientState := by
  unfold allocSendBuffer; cases ok <;> rfl

@[simp] theorem allocSendBuffer_handleEvent : (allocSendBuffer c len ok).2.handleEvent =
    c.handleEvent := by
  unfold allocSendBuffer; cases ok <;> rfl

@[simp] theorem allocSendBuffer_listSubSyncAck : (allocSendBuffer c len ok).2.listSubSyncAck =
    c.listSubSyncAck := by
  unfold allocSendBuffer; cases ok <;> rfl

@[simp] theorem resetSendBuffer_listPubWaitAck : (resetSendBuffer c).listPubWaitAck =
    c.listPubWaitAck := by
  unfold resetSendBuffer; split <;> rfl

@[simp] theorem resetSendBuffer_heapNext : (resetSendBuffer c).heapNext = c.heapNext := by
  unfold resetSendBuffer; split <;> rfl

@[simp] theorem resetSendBuffer_listSubHandle : (resetSendBuffer c).listSubHandle =
    c.listSubHandle := by
  unfold resetSendBuffer; split <;> rfl

@[simp] theorem resetSendBuffer_packetId : (resetSendBuffer c).packetId = c.packetId := by
  unfold resetSendBuffer; split <;> rfl

@[simp] theorem resetSendBuffer_listSubSyncAck : (resetSendBuffer c).listSubSyncAck =
    c.listSubSyncAck := by
  unfold resetSendBuffer; split <;> rfl

end

/-- A buffer of the given old contents after a serializer has stored into it. -/
def storeInto (old : List UInt8) (stored : Nat → Option UInt8) : List UInt8 :=
  (List.range old.length).map fun i => (stored i).getD (old.getD i 0)

/-- The loop of `iotx_mc_send_packet`: the bytes sent when the writes end, fail
or the timer expires. -/
def sendLoop (length : Int) : List Int → Int → Int
  | [], sent => sent
  | rc :: writes, sent =>
    if sent < length then if rc < 0 then sent else sendLoop length writes (sent + rc)
    else sent

def iotxMcSendPacket (length : Int) (writes : List Int) : Int :=
  if sendLoop length writes 0 = length then State.success else State.sysDependNwkClose

/-- `iotx_mqtt_topic_info_t`; the lengths are those of `ptopic` and `payload`. -/
structure TopicInfo where
  packetId : UInt16 := 0
  qos : UInt8 := 0
  dup : UInt8 := 0
  retain : UInt8 := 0
  ptopic : List UInt8 := []
  payload : List UInt8 := []
  deriving DecidableEq

/-- `iotx_mqtt_event_msg_t`: the message of an event. -/
inductive EventMsg where
  | packetId (id : UInt16)
  | topicInfo (info : TopicInfo)
  | text
  deriving DecidableEq

/-- What a callback was called with. -/
structure Invocation where
  handle : EventHandle
  eventType : EventType
  msg : EventMsg
  deriving DecidableEq

/-- `_handle_event`: nothing happens without a function. -/
def handleEvent (handle : EventHandle) (eventType : EventType) (msg : EventMsg) :
    List Invocation :=
  if handle.hFp = none then [] else [⟨handle, eventType, msg⟩]

end AliyunIot.Mqtt
