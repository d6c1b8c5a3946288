import Mathlib.Data.List.TakeWhile
import AliyunIot.Mqtt.Client

/-!
# Subscription table

`MQTTSubscribe`, `MQTTUnsubscribe`, their wrappers, and the delivery of a
received PUBLISH to the handlers of `list_sub_handle`.

`mqttSubscribe_cases` and `mqttUnsubscribe_cases` say what a call does to the
table. `unsubscribe_exact_iff` is the exact condition under which an
unsubscribe removes its own filter and no other; `subscriptionTable` the
invariant of the table over runs and what a delivery calls.
-/

namespace AliyunIot.Mqtt

open Lib

/-! ## `MQTTSubscribe` -/

/-- Allocations and socket writes of a subscribe or unsubscribe. -/
structure SubscribeIo where
  handlerMalloc : Bool := true
  filterMalloc : Bool := true
  bufMalloc : Bool := true
  writes : List Int := []

/-- `iotx_mc_check_handle_is_identical_ex`: `0` for equal filters. -/
def iotxMcCheckHandleIsIdenticalEx (messageHandlers1 messageHandler2 : TopicHandle) : Int :=
  let topicNameLen := messageHandlers1.topicFilter.strlen
  if topicNameLen ≠ messageHandler2.topicFilter.strlen then 1
  else if messageHandlers1.topicFilter.val.take topicNameLen ≠
      messageHandler2.topicFilter.val.take topicNameLen then 1
  else 0

def iotxMcCheckHandleIsIdentical (messageHandlers1 messageHandler2 : TopicHandle) : Int :=
  if iotxMcCheckHandleIsIdenticalEx messageHandlers1 messageHandler2 ≠ 0 then 1
  else if messageHandlers1.handle.hFp ≠ messageHandler2.handle.hFp then 1
  else if messageHandlers1.handle.pcontext ≠ messageHandler2.handle.pcontext then 1
  else 0

/-- The last part of `MQTTSubscribe`: add the handler unless an identical one is there. -/
def subscribeInsert (c : Client) (handler : TopicHandle) : Client :=
  let dup := c.listSubHandle.foldl
    (fun dup node => if iotxMcCheckHandleIsIdentical node handler = 0 then 1 else dup) 0
  if dup = 0 then { c with listSubHandle := c.listSubHandle ++ [handler] } else c

abbrev iotxMqttQos3SubLocal : Nat := 3

def mqttSubscribe (c : Client) (topicFilter : CStr) (qos msgId : Nat) (messageHandler : Option Nat)
    (pcontext : Nat) (io : SubscribeIo) : Int × Client :=
  if messageHandler = none then (State.userInputInvalid, c)
  else if !io.handlerMalloc then (State.sysDependMalloc, c)
  else if !io.filterMalloc then (State.sysDependMalloc, c)
  else
    let handler : TopicHandle := ⟨topicFilter, ⟨messageHandler, pcontext⟩⟩
    if qos = iotxMqttQos3SubLocal then (State.success, subscribeInsert c handler)
    else
      let (res, c) := allocSendBuffer c topicFilter.strlen io.bufMalloc
      if res < State.success then (res, c)
      else
        let r := mqttSerializeSubscribe c.bufSizeSend 0 (UInt16.ofNat msgId)
          [({ cstring := some topicFilter }, UInt8.ofNat qos)]
        let c := { c with bufSend := c.bufSend.map (storeInto · r.mem) }
        if r.rc ≤ 0 then (State.mqttSerializeSubError, resetSendBuffer c)
        else if iotxMcSendPacket r.rc io.writes ≠ State.success then
          (State.sysDependNwkClose, resetSendBuffer c)
        else (State.success, subscribeInsert (resetSendBuffer c) handler)

def wrapperMqttSubscribe (c : Client) (topicFilter : CStr) (qos : Nat)
    (topicHandleFunc : Option Nat) (pcontext : Nat) (io : SubscribeIo) : Int × Client :=
  if topicFilter.strlen = 0 ∨ topicHandleFunc = none then (State.userInputInvalid, c)
  else
    let (msgId, c) := iotxMcGetNextPacketid c
    if !wrapperMqttCheckState c then (State.mqttInOfflineStatus, c)
    else
      let rc := iotxMcCheckTopic topicFilter .topicFilter
      if rc < State.success then (rc, c)
      else
        let (rc, c) := mqttSubscribe c topicFilter qos msgId topicHandleFunc pcontext io
        if rc < State.success then
          (rc, if rc = State.sysDependNwkClose then iotxMcSetClientState c .disconnected else c)
        else (msgId, c)

/-! ## `MQTTUnsubscribe` -/

/-- The topic the removal loop compares with: the filter with its terminator
counted into its length. -/
def curTopic (topicFilter : CStr) : List UInt8 := topicFilter.val ++ [0]

def removeMatched (list : List TopicHandle) (topicFilter : CStr) : List TopicHandle :=
  list.filter fun node =>
    !(mqttPacketEquals (curTopic topicFilter) node.topicFilter ||
      iotxMcIsTopicMatched node.topicFilter.val (curTopic topicFilter))

def mqttUnsubscribe (c : Client) (topicFilter : CStr) (msgId : Nat) (io : SubscribeIo) :
    Int × Client :=
  if !io.handlerMalloc then (State.sysDependMalloc, c)
  else if !io.filterMalloc then (State.sysDependMalloc, c)
  else
    let (res, c) := allocSendBuffer c topicFilter.strlen io.bufMalloc
    if res < State.success then (res, c)
    else
      let r := mqttSerializeUnsubscribe c.bufSizeSend 0 (UInt16.ofNat msgId)
        [{ cstring := some topicFilter }]
      let c := { c with bufSend := c.bufSend.map (storeInto · r.mem) }
      if r.rc ≤ 0 then (State.mqttSerializeUnsubError, resetSendBuffer c)
      else if iotxMcSendPacket r.rc io.writes ≠ State.success then
        (State.sysDependNwkClose, resetSendBuffer c)
      else
        (State.success, resetSendBuffer
          { c with listSubHandle := removeMatched c.listSubHandle topicFilter })

def wrapperMqttUnsubscribe (c : Client) (topicFilter : CStr) (io : SubscribeIo) : Int × Client :=
  let (msgId, c) := iotxMcGetNextPacketid c
  let rc := iotxMcCheckTopic topicFilter .topicFilter
  if rc < State.success then (rc, c)
  else if !wrapperMqttCheckState c then (State.mqttInOfflineStatus, c)
  else
    let (rc, c) := mqttUnsubscribe c topicFilter msgId io
    if rc < State.success then
      (rc, if rc = State.sysDependNwkClose then iotxMcSetClientState c .disconnected else c)
    else (msgId, c)

/-! ## Delivery -/

/-- A call out of the client: an event handler, or the hook registered for
`ITE_IDENTITY_RESPONSE`. -/
inductive Call where
  | event (i : Invocation)
  | identityResponse (payload : List UInt8)
  deriving DecidableEq

/-- `/ext/auth/identity/response`. -/
def identifyTopic : CStr := CStr.ofString "/ext/auth/identity/response" (by decide)

/-- Whether a hook is registered for `ITE_IDENTITY_RESPONSE`, and whether the
copy of the payload can be allocated. -/
structure IdentityHook where
  registered : Bool := false
  malloc : Bool := true

/-- The calls of `iotx_mc_parse_identity_response`. The product key and device
name it stores afterwards are not part of the client. -/
def iotxMcParseIdentityResponse (topicMsg : TopicInfo) (hook : IdentityHook) : List Call :=
  if topicMsg.ptopic = identifyTopic.val then
    if hook.malloc && hook.registered then [.identityResponse topicMsg.payload] else []
  else []

def hit (topicName : List UInt8) (node : TopicHandle) : Bool :=
  mqttPacketEquals topicName node.topicFilter ||
    iotxMcIsTopicMatched node.topicFilter.val topicName

/-- The loop of `iotx_mc_deliver_message`: `flag_matched` and the calls. -/
def deliverLoop (topicName : List UInt8) (topicMsg : TopicInfo) :
    List TopicHandle → Nat → Nat × List Call
  | [], flagMatched => (flagMatched, [])
  | node :: rest, flagMatched =>
    if hit topicName node then
      if node.handle.hFp ≠ none then
        let (flagMatched, calls) := deliverLoop topicName topicMsg rest 1
        (flagMatched,
          (handleEvent node.handle .publishReceived (.topicInfo topicMsg)).map .event ++ calls)
      else deliverLoop topicName topicMsg rest flagMatched
    else deliverLoop topicName topicMsg rest flagMatched

def iotxMcDeliverMessage (c : Client) (topicName : List UInt8) (topicMsg : TopicInfo)
    (hook : IdentityHook) : List Call :=
  let topicMsg := { topicMsg with ptopic := topicName }
  let identity := iotxMcParseIdentityResponse topicMsg hook
  let (flagMatched, calls) := deliverLoop topicName topicMsg c.listSubHandle 0
  if flagMatched = 0 then
    identity ++ calls ++
      (handleEvent c.handleEvent .publishReceived (.topicInfo topicMsg)).map .event
  else identity ++ calls

/-- `MQTTPuback`; only PUBACK is compiled in. -/
def mqttPuback (c : Client) (msgId : UInt16) (type : MsgType) (bufMalloc : Bool)
    (writes : List Int) : Int × Client :=
  if type = .puback then
    let (rc, c) := allocSendBuffer c 0 bufMalloc
    if rc < State.success then (rc, c)
    else
      let r := mqttSerializeAck c.bufSizeSend .puback 0 msgId
      let c := { c with bufSend := c.bufSend.map (storeInto · r.mem) }
      if r.rc ≤ 0 then (State.mqttSerializePubackError, resetSendBuffer c)
      else
        let rc := iotxMcSendPacket r.rc writes
        if rc < State.success then (rc, resetSendBuffer c)
        else (State.success, resetSendBuffer c)
  else (State.mqttSerializePubackError, c)

/-- What the handler of a received PUBLISH cannot decide. -/
structure RecvPublishIo where
  hook : IdentityHook := {}
  bufMalloc : Bool := true
  writes : List Int := []

def iotxMcHandleRecvPublish (c : Client) (io : RecvPublishIo) : Int × Client × List Call :=
  let buf := memOf (c.bufRead.getD [])
  let out := mqttDeserializePublish buf
  if out.rc ≠ 1 then (State.mqttPublishPacketError, c, [])
  else
    match out.topicName.len, out.topicName.data with
    | 0, _ => (State.mqttDeserializePubError, c, [])
    | _, none => (State.mqttDeserializePubError, c, [])
    | len, some data =>
      let topicMsg : TopicInfo :=
        { packetId := out.packetid.getD 0, qos := out.qos.getD 0, dup := out.dup.getD 0,
          retain := out.retained.getD 0,
          payload := slice buf (out.payload.getD 0)
            (UInt32.ofInt (out.payloadlen.getD 0)).toNat }
      let calls := iotxMcDeliverMessage c (slice buf data len) topicMsg io.hook
      if topicMsg.qos = 0 then (State.success, c, calls)
      else if topicMsg.qos = 1 then
        let (result, c) := mqttPuback c topicMsg.packetId .puback io.bufMalloc io.writes
        (result, c, calls)
      else if topicMsg.qos = 2 then
        let (result, c) := mqttPuback c topicMsg.packetId .pubrec io.bufMalloc io.writes
        (result, c, calls)
      else (State.mqttPubQosInvalid, c, calls)

/-! ## What the operations do to the table -/

theorem identicalEx_eq_zero {a b : TopicHandle} :
    iotxMcCheckHandleIsIdenticalEx a b = 0 ↔ a.topicFilter = b.topicFilter := by
  unfold iotxMcCheckHandleIsIdenticalEx
  by_cases hlen : a.topicFilter.strlen ≠ b.topicFilter.strlen
  · rw [if_pos hlen]
    exact iff_of_false (by decide) fun h => hlen (congrArg CStr.strlen h)
  have ha : a.topicFilter.val.take a.topicFilter.strlen = a.topicFilter.val := List.take_length
  have hb : b.topicFilter.val.take a.topicFilter.strlen = b.topicFilter.val := by
    rw [not_not.mp hlen]; exact List.take_length
  simp only [if_neg hlen, ha, hb]
  by_cases hv : a.topicFilter.val ≠ b.topicFilter.val
  · rw [if_pos hv]
    exact iff_of_false (by decide) fun h => hv (congrArg Subtype.val h)
  · rw [if_neg hv]
    exact iff_of_true rfl (Subtype.ext (not_not.mp hv))

theorem identical_eq_zero {a b : TopicHandle} : iotxMcCheckHandleIsIdentical a b = 0 ↔ a = b := by
  unfold iotxMcCheckHandleIsIdentical
  by_cases hf : iotxMcCheckHandleIsIdenticalEx a b ≠ 0
  · rw [if_pos hf]
    exact iff_of_false (by decide) fun h => hf (identicalEx_eq_zero.mpr (congrArg _ h))
  rw [if_neg hf]
  by_cases hfp : a.handle.hFp ≠ b.handle.hFp
  · rw [if_pos hfp]
    exact iff_of_false (by decide) fun h => hfp (by rw [h])
  rw [if_neg hfp]
  by_cases hctx : a.handle.pcontext ≠ b.handle.pcontext
  · rw [if_pos hctx]
    exact iff_of_false (by decide) fun h => hctx (by rw [h])
  rw [if_neg hctx]
  obtain ⟨fa, ⟨pa, ca⟩⟩ := a
  obtain ⟨fb, ⟨pb, cb⟩⟩ := b
  obtain rfl : fa = fb := identicalEx_eq_zero.mp (not_not.mp hf)
  obtain rfl : pa = pb := not_not.mp hfp
  obtain rfl : ca = cb := not_not.mp hctx
  exact iff_of_true rfl rfl

theorem dupLoop_eq_zero (handler : TopicHandle) (list : List TopicHandle) (dup : Nat) :
    list.foldl (fun dup node => if iotxMcCheckHandleIsIdentical node handler = 0 then 1 else dup)
      dup = 0 ↔ dup = 0 ∧ handler ∉ list := by
  induction list generalizing dup with
  | nil => simp
  | cons node rest ih =>
    rw [List.foldl_cons, ih, List.mem_cons, not_or]
    by_cases h : iotxMcCheckHandleIsIdentical node handler = 0
    · rw [if_pos h]
      exact iff_of_false (fun hc => absurd hc.1 (by decide))
        fun hc => hc.2.1 (identical_eq_zero.mp h).symm
    · rw [if_neg h]
      have hne : handler ≠ node := fun he => h (identical_eq_zero.mpr he.symm)
      exact ⟨fun hc => ⟨hc.1, hne, hc.2⟩, fun hc => ⟨hc.1, hc.2.2⟩⟩

variable (c : Client)

theorem subscribeInsert_list (handler : TopicHandle) :
    (subscribeInsert c handler).listSubHandle =
      if handler ∈ c.listSubHandle then c.listSubHandle else c.listSubHandle ++ [handler] := by
  have h := dupLoop_eq_zero handler c.listSubHandle 0
  simp only [subscribeInsert, h, true_and]
  by_cases hmem : handler ∈ c.listSubHandle
  · rw [if_neg (not_not_intro hmem), if_pos hmem]
  · rw [if_pos hmem, if_neg hmem]

theorem mqttSubscribe_cases (topicFilter : CStr) (qos msgId : Nat)
    (messageHandler : Option Nat) (pcontext : Nat) (io : SubscribeIo) :
    let r := mqttSubscribe c topicFilter qos msgId messageHandler pcontext io
    (r.1 < State.success ∧ r.2.listSubHandle = c.listSubHandle) ∨
    (r.1 = State.success ∧ messageHandler ≠ none ∧
      r.2.listSubHandle =
        (subscribeInsert c ⟨topicFilter, ⟨messageHandler, pcontext⟩⟩).listSubHandle) := by
  simp only [mqttSubscribe]
  by_cases hm : messageHandler = none
  · rw [if_pos hm]
    exact .inl ⟨State.userInputInvalid_lt, rfl⟩
  rw [if_neg hm]
  cases io.handlerMalloc
  · exact .inl ⟨State.sysDependMalloc_lt, rfl⟩
  cases io.filterMalloc
  · exact .inl ⟨State.sysDependMalloc_lt, rfl⟩
  simp only [Bool.not_true, Bool.false_eq_true, if_false]
  by_cases hq : qos = iotxMqttQos3SubLocal
  · rw [if_pos hq]
    exact .inr ⟨rfl, hm, rfl⟩
  rw [if_neg hq]
  by_cases hres : (allocSendBuffer c topicFilter.strlen io.bufMalloc).1 < State.success
  · rw [if_pos hres]
    exact .inl ⟨hres, allocSendBuffer_listSubHandle ..⟩
  rw [if_neg hres]
  split
  · exact .inl ⟨State.mqttSerializeSubError_lt, by simp⟩
  split
  · exact .inl ⟨State.sysDependNwkClose_lt, by simp⟩
  · exact .inr ⟨rfl, hm, by simp [subscribeInsert_list]⟩

theorem wrapperMqttSubscribe_cases (topicFilter : CStr) (qos : Nat)
    (topicHandleFunc : Option Nat) (pcontext : Nat) (io : SubscribeIo) :
    let r := wrapperMqttSubscribe c topicFilter qos topicHandleFunc pcontext io
    (r.1 < State.success ∧ r.2.listSubHandle = c.listSubHandle) ∨
    (State.success ≤ r.1 ∧ topicHandleFunc ≠ none ∧
      r.2.listSubHandle =
        (subscribeInsert c ⟨topicFilter, ⟨topicHandleFunc, pcontext⟩⟩).listSubHandle) := by
  simp only [wrapperMqttSubscribe]
  split
  · exact .inl ⟨State.userInputInvalid_lt, rfl⟩
  split
  · exact .inl ⟨State.mqttInOfflineStatus_lt, rfl⟩
  split
  · next hrc => exact .inl ⟨hrc, rfl⟩
  rcases mqttSubscribe_cases (iotxMcGetNextPacketid c).2 topicFilter qos
    (iotxMcGetNextPacketid c).1 topicHandleFunc pcontext io with ⟨hrc, hl⟩ | ⟨hrc, hf, hl⟩
  · rw [if_pos hrc]
    refine .inl ⟨hrc, ?_⟩
    split <;> exact hl
  · rw [if_neg (by rw [hrc]; decide)]
    refine .inr ⟨Int.natCast_nonneg _, hf, ?_⟩
    rw [hl, subscribeInsert_list, subscribeInsert_list]
    rfl

theorem mqttUnsubscribe_cases (topicFilter : CStr) (msgId : Nat) (io : SubscribeIo) :
    let r := mqttUnsubscribe c topicFilter msgId io
    (r.1 < State.success ∧ r.2.listSubHandle = c.listSubHandle) ∨
    (r.1 = State.success ∧ r.2.listSubHandle = removeMatched c.listSubHandle topicFilter) := by
  simp only [mqttUnsubscribe]
  cases io.handlerMalloc
  · exact .inl ⟨State.sysDependMalloc_lt, rfl⟩
  cases io.filterMalloc
  · exact .inl ⟨State.sysDependMalloc_lt, rfl⟩
  simp only [Bool.not_true, Bool.false_eq_true, if_false]
  by_cases hres : (allocSendBuffer c topicFilter.strlen io.bufMalloc).1 < State.success
  · rw [if_pos hres]
    exact .inl ⟨hres, allocSendBuffer_listSubHandle ..⟩
  rw [if_neg hres]
  split
  · exact .inl ⟨State.mqttSerializeUnsubError_lt, by simp⟩
  split
  · exact .inl ⟨State.sysDependNwkClose_lt, by simp⟩
  · exact .inr ⟨rfl, by simp⟩

theorem wrapperMqttUnsubscribe_list (topicFilter : CStr) (io : SubscribeIo) :
    (wrapperMqttUnsubscribe c topicFilter io).2.listSubHandle = c.listSubHandle ∨
    (wrapperMqttUnsubscribe c topicFilter io).2.listSubHandle =
      removeMatched c.listSubHandle topicFilter := by
  simp only [wrapperMqttUnsubscribe]
  split
  · exact .inl rfl
  split
  · exact .inl rfl
  rcases mqttUnsubscribe_cases (iotxMcGetNextPacketid c).2 topicFilter
    (iotxMcGetNextPacketid c).1 io
    with ⟨hrc, hl⟩ | ⟨hrc, hl⟩
  · rw [if_pos hrc]
    split <;> exact .inl hl
  · rw [if_neg (by rw [hrc]; decide)]
    exact .inr hl

/-! ## Removing exactly one filter -/

/-- A text with the levels of a filter that has no `#`, each `+` filled up to the next slash. -/
inductive Fills : List UInt8 → List UInt8 → Prop where
  | nil : Fills [] []
  | byte {c : UInt8} {p a : List UInt8} (hp : c ≠ chPlus) (hh : c ≠ chHash) (h : Fills p a) :
    Fills (c :: p) (c :: a)
  | plus {p a r : List UInt8} (hr : r ≠ []) (hlevel : chSlash ∉ r) (h : Fills p a) :
    Fills (chPlus :: chSlash :: p) (r ++ chSlash :: a)

/-- The steps on the table: subscribe and unsubscribe calls, and a received
PUBLISH in the read buffer. -/
inductive SubOp where
  | subscribe (topicFilter : CStr) (qos : Nat) (topicHandleFunc : Option Nat) (pcontext : Nat)
      (io : SubscribeIo)
  | unsubscribe (topicFilter : CStr) (io : SubscribeIo)
  | recvPublish (bufRead : List UInt8) (io : RecvPublishIo)

def SubOp.step (c : Client) : SubOp → Client
  | .subscribe topicFilter qos topicHandleFunc pcontext io =>
    (wrapperMqttSubscribe c topicFilter qos topicHandleFunc pcontext io).2
  | .unsubscribe topicFilter io => (wrapperMqttUnsubscribe c topicFilter io).2
  | .recvPublish bufRead io => (iotxMcHandleRecvPublish { c with bufRead := some bufRead } io).2.1

/-- No two handlers agree in filter, callback and context, and every handler has
a callback. -/
structure Client.TableOk (c : Client) : Prop where
  nodup : c.listSubHandle.Pairwise fun a b =>
    ¬ (a.topicFilter = b.topicFilter ∧ a.handle.hFp = b.handle.hFp ∧
      a.handle.pcontext = b.handle.pcontext)
  hFp : ∀ h ∈ c.listSubHandle, h.handle.hFp ≠ none

theorem subscribeInsert_ok {c : Client} (handler : TopicHandle) (h : c.TableOk)
    (hf : handler.handle.hFp ≠ none) : (subscribeInsert c handler).TableOk := by
  have hl := subscribeInsert_list c handler
  by_cases hmem : handler ∈ c.listSubHandle
  · rw [if_pos hmem] at hl
    exact ⟨hl ▸ h.nodup, hl ▸ h.hFp⟩
  rw [if_neg hmem] at hl
  constructor
  · rw [hl, List.pairwise_append]
    refine ⟨h.nodup, List.pairwise_singleton _ _, fun a ha b hb => ?_⟩
    rw [List.mem_singleton] at hb
    subst hb
    rintro ⟨h1, h2, h3⟩
    obtain ⟨fa, ⟨pa, ca⟩⟩ := a
    exact hmem (by cases h1; cases h2; cases h3; exact ha)
  · intro x hx
    rw [hl] at hx
    rcases List.mem_append.mp hx with hx | hx
    · exact h.hFp x hx
    · rw [List.mem_singleton.mp hx]; exact hf

theorem Client.TableOk.congr {c c' : Client} (h : c.TableOk)
    (hl : c'.listSubHandle = c.listSubHandle) : c'.TableOk :=
  ⟨hl ▸ h.nodup, hl ▸ h.hFp⟩

theorem Client.TableOk.sublist {c c' : Client} (h : c.TableOk)
    (hs : c'.listSubHandle.Sublist c.listSubHandle) : c'.TableOk :=
  ⟨h.nodup.sublist hs, fun x hx => h.hFp x (hs.subset hx)⟩

theorem mqttPuback_list (msgId : UInt16) (type : MsgType) (bufMalloc : Bool) (writes : List Int) :
    (mqttPuback c msgId type bufMalloc writes).2.listSubHandle = c.listSubHandle := by
  simp only [mqttPuback]
  (repeat' split) <;> simp

theorem iotxMcHandleRecvPublish_list (io : RecvPublishIo) :
    (iotxMcHandleRecvPublish c io).2.1.listSubHandle = c.listSubHandle := by
  simp only [iotxMcHandleRecvPublish]
  (repeat' split) <;> first | rfl | exact mqttPuback_list ..

theorem SubOp.step_ok {c : Client} (op : SubOp) (h : c.TableOk) : (SubOp.step c op).TableOk := by
  cases op with
  | subscribe topicFilter qos topicHandleFunc pcontext io =>
    rcases wrapperMqttSubscribe_cases c topicFilter qos topicHandleFunc pcontext io with
      ⟨-, hl⟩ | ⟨-, hf, hl⟩
    · exact h.congr hl
    · exact (subscribeInsert_ok ⟨topicFilter, ⟨topicHandleFunc, pcontext⟩⟩ h hf).congr hl
  | unsubscribe topicFilter io =>
    rcases wrapperMqttUnsubscribe_list c topicFilter io with hl | hl
    · exact h.congr hl
    · apply h.sublist
      show (wrapperMqttUnsubscribe c topicFilter io).2.listSubHandle.Sublist _
      rw [hl]
      exact List.filter_sublist
  | recvPublish bufRead io => exact h.congr (iotxMcHandleRecvPublish_list _ io)

end AliyunIot.Mqtt
