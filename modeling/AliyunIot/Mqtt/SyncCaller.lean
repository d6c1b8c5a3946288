import AliyunIot.Mqtt.Cycle
import Mathlib.Logic.Function.Iterate

/-!
# Callers of synchronous subscribe

Any number of callers run `wrapper_mqtt_subscribe_sync` on one client, and the
yield thread hands SUBACKs to `_iotx_mqtt_event_handle_sub`. A step is what one
of them does between two acquisitions of a lock; `Pc` says where a caller
stands. The time a caller spends in `wrapper_mqtt_yield` is the time it stands
at `poll`.

`Thread.iterate_step` ties the steps to `wrapper_mqtt_subscribe`. A SUBACK finds
the record of its caller only if that has been linked, a poll looks at the first
record of the list only, and nothing is looked at after the timer has expired:
`Timely` says what the steps of a run must avoid.
-/

namespace AliyunIot.Mqtt

open Lib

/-! ## `MQTTSubscribe` in two parts -/

/-- `MQTTSubscribe` up to its use of the subscription list. -/
def mqttSubscribeSend (c : Client) (topicFilter : CStr) (qos msgId : Nat)
    (messageHandler : Option Nat) (io : SubscribeIo) : Int × Client :=
  if messageHandler = none then (State.userInputInvalid, c)
  else if !io.handlerMalloc then (State.sysDependMalloc, c)
  else if !io.filterMalloc then (State.sysDependMalloc, c)
  else if qos = iotxMqttQos3SubLocal then (State.success, c)
  else
    let (res, c) := allocSendBuffer c topicFilter.strlen io.bufMalloc
    if res < State.success then (res, c)
    else
      let r := mqttSerializeSubscribe c.bufSizeSend 0 (UInt16.ofNat msgId)
        [({ cstring := some topicFilter }, UInt8.ofNat qos)]
      let c := { c with bufSend := c.bufSend.map (storeInto · r.mem) }
      if r.rc ≤ 0 then (State.mqttSerializeSubError, resetSendBuffer c)
      else if iotxMcSendPacket r.rc io.writes ≠ State.success then
        (State.sysDependNwkClose, resetSendBuffer c)
      else (State.success, resetSendBuffer c)

theorem mqttSubscribe_eq_send (c : Client) (topicFilter : CStr) (qos msgId : Nat)
    (messageHandler : Option Nat) (pcontext : Nat) (io : SubscribeIo) :
    mqttSubscribe c topicFilter qos msgId messageHandler pcontext io =
      let r := mqttSubscribeSend c topicFilter qos msgId messageHandler io
      if r.1 < State.success then r
      else (r.1, subscribeInsert r.2 ⟨topicFilter, ⟨messageHandler, pcontext⟩⟩) := by
  simp only [mqttSubscribe, mqttSubscribeSend]
  by_cases hm : messageHandler = none
  · simp only [if_pos hm, if_pos State.userInputInvalid_lt]
  simp only [if_neg hm]
  cases io.handlerMalloc
  · simp only [Bool.not_false, if_true, if_pos State.sysDependMalloc_lt]
  cases io.filterMalloc
  · simp only [Bool.not_false, Bool.not_true, Bool.false_eq_true, if_true, if_false,
      if_pos State.sysDependMalloc_lt]
  simp only [Bool.not_true, Bool.false_eq_true, if_false]
  by_cases hq : qos = iotxMqttQos3SubLocal
  · simp only [if_pos hq, if_neg (show ¬ State.success < State.success by decide)]
  simp only [if_neg hq]
  by_cases hres : (allocSendBuffer c topicFilter.strlen io.bufMalloc).1 < State.success
  · simp only [if_pos hres]
  simp only [if_neg hres]
  by_cases hr :
    (mqttSerializeSubscribe (allocSendBuffer c topicFilter.strlen io.bufMalloc).2.bufSizeSend 0
      (UInt16.ofNat msgId) [({ cstring := some topicFilter }, UInt8.ofNat qos)]).rc ≤ 0
  · simp only [if_pos hr, if_pos State.mqttSerializeSubError_lt]
  simp only [if_neg hr]
  split
  · simp only [if_pos State.sysDependNwkClose_lt]
  · simp only [if_neg (show ¬ State.success < State.success by decide)]

theorem iotxMcHandleRecvSuback_client (c : Client) (stack : UInt16) :
    (iotxMcHandleRecvSuback c stack).2.1 = c ∨
      ∃ packetId eventType, (iotxMcHandleRecvSuback c stack).2.1 =
        iotxMqttEventHandleSub c packetId eventType := by
  unfold iotxMcHandleRecvSuback
  simp only
  split
  · exact .inl rfl
  · exact .inr ⟨_, _, rfl⟩

/-! ## Callers -/

/-- Where a caller stands: in `wrapper_mqtt_subscribe` with the packet id it has
taken (`checkState` … `fail`), or in the loop around it. -/
inductive Pc where
  | enter
  | checkState (msgId : Nat) | send (msgId : Nat) | insert (msgId : Nat) | fail
  | subscribed | link | poll | timer | cleanup
  | done (rc : Int)
  deriving DecidableEq

/-- Inside `wrapper_mqtt_subscribe`, or just behind it. -/
def Pc.subscribing : Pc → Bool
  | .checkState _ | .send _ | .insert _ | .fail | .subscribed => true
  | _ => false

/-- The arguments of a call, `qos` after the check of its range. -/
structure SyncArgs where
  topicFilter : CStr
  qos : Nat
  topicHandleFunc : Option Nat
  pcontext : Nat
  deriving DecidableEq

/-- The local variables of a call. `subed` carries the address of the record
with the flag. `acked` is no variable of the source: it is the packet id of the
last success SUBACK that was handled while the call held that id. -/
structure Thread where
  args : SyncArgs
  pc : Pc := .enter
  ret : Int := -1
  subed : Option Nat := none
  acked : Option Nat := none
  deriving DecidableEq

/-- What a step of a caller cannot decide. -/
structure SyncIo where
  inYieldCb : Bool := false
  subscribe : SubscribeIo := {}
  nodeMalloc : Bool := true
  expired : Bool := false

namespace Thread

/-- `wrapper_mqtt_subscribe` returns an error. -/
def refuse (t : Thread) (rc : Int) : Thread := { t with pc := .subscribed, ret := rc }

/-- The `list_for_each_entry_safe` loop of a poll, which ends after its first node. -/
def poll (c : Client) (t : Thread) : Client × Thread :=
  match c.listSubSyncAck with
  | [] => (c, { t with pc := .timer })
  | node :: rest =>
    if (node.packetId : Int) = t.ret then
      let removed := { c with listSubSyncAck := rest }
      match node.ackType with
      | .subscribeSuccess => (removed, { t with pc := .done t.ret, subed := none })
      | .subscribeNack | .subscribeTimeout =>
        (removed, { t with pc := .timer, ret := -1, subed := none })
      | _ => (c, { t with pc := .timer })
    else (c, { t with pc := .timer })

/-- One step of `wrapper_mqtt_subscribe_sync`. -/
def step (c : Client) (t : Thread) (io : SyncIo) : Client × Thread :=
  match t.pc with
  | .enter =>
    if t.ret < 0 then
      if t.args.topicFilter.strlen = 0 ∨ t.args.topicHandleFunc = none then
        (c, t.refuse State.userInputInvalid)
      else
        let (msgId, c) := iotxMcGetNextPacketid c
        (c, { t with pc := .checkState msgId })
    else (c, { t with pc := .link })
  | .checkState msgId =>
    if !wrapperMqttCheckState c then (c, t.refuse State.mqttInOfflineStatus)
    else
      let rc := iotxMcCheckTopic t.args.topicFilter .topicFilter
      if rc < State.success then (c, t.refuse rc) else (c, { t with pc := .send msgId })
  | .send msgId =>
    let (rc, c) := mqttSubscribeSend c t.args.topicFilter t.args.qos msgId t.args.topicHandleFunc
      io.subscribe
    if rc < State.success then
      if rc = State.sysDependNwkClose then (c, { t with pc := .fail }) else (c, t.refuse rc)
    else (c, { t with pc := .insert msgId })
  | .insert msgId =>
    (subscribeInsert c ⟨t.args.topicFilter, ⟨t.args.topicHandleFunc, t.args.pcontext⟩⟩,
      { t with pc := .subscribed, ret := msgId })
  | .fail => (iotxMcSetClientState c .disconnected, t.refuse State.sysDependNwkClose)
  | .subscribed =>
    if io.inYieldCb ∨ t.args.qos = iotxMqttQos3SubLocal then (c, { t with pc := .done t.ret })
    else (c, { t with pc := .link })
  | .link =>
    if t.subed = none ∧ 0 ≤ t.ret ∧ io.nodeMalloc then
      let node : SubSyncNode := { block := c.heapNext, packetId := t.ret.toNat, ackType := .undef }
      ({ c with listSubSyncAck := c.listSubSyncAck ++ [node], heapNext := c.heapNext + 1 },
        { t with pc := .poll, subed := some node.block })
    else (c, { t with pc := .poll })
  | .poll => t.poll c
  | .timer => (c, { t with pc := if io.expired then .cleanup else .enter })
  | .cleanup =>
    ({ c with listSubSyncAck := c.listSubSyncAck.filter fun node => (node.packetId : Int) ≠ t.ret },
      { t with pc := .done State.mqttSyncSubTimeout, subed := none })
  | .done _ => (c, t)

/-- The packet id of the request a call has under way. -/
def held (t : Thread) : Option Nat :=
  match t.pc with
  | .checkState msgId | .send msgId | .insert msgId => some msgId
  | .fail | .done _ => none
  | _ => if 0 < t.ret then some t.ret.toNat else none

end Thread

theorem Thread.iterate_step (c : Client) {t : Thread} (io : SyncIo) (hpc : t.pc = .enter)
    (hret : t.ret < 0) :
    ∃ n, (fun p : Client × Thread => p.2.step p.1 io)^[n] (c, t) =
      let r := wrapperMqttSubscribe c t.args.topicFilter t.args.qos t.args.topicHandleFunc
        t.args.pcontext io.subscribe
      (r.2, t.refuse r.1) := by
  obtain ⟨args, pc, ret, subed, acked⟩ := t
  obtain rfl : pc = .enter := hpc
  simp only [wrapperMqttSubscribe, mqttSubscribe_eq_send]
  by_cases hargs : args.topicFilter.strlen = 0 ∨ args.topicHandleFunc = none
  · exact ⟨1, by simp only [Function.iterate_one, Thread.step, if_pos hret, if_pos hargs]⟩
  simp only [if_neg hargs]
  by_cases hst : (!wrapperMqttCheckState (iotxMcGetNextPacketid c).2) = true
  · exact ⟨2, by simp only [Function.iterate_succ_apply, Function.iterate_zero_apply, Thread.step,
      if_pos hret, if_neg hargs, if_pos hst]; rfl⟩
  simp only [if_neg hst]
  by_cases hrc : iotxMcCheckTopic args.topicFilter .topicFilter < State.success
  · exact ⟨2, by simp only [Function.iterate_succ_apply, Function.iterate_zero_apply, Thread.step,
      if_pos hret, if_neg hargs, if_neg hst, if_pos hrc]; rfl⟩
  simp only [if_neg hrc]
  generalize hsend : mqttSubscribeSend (iotxMcGetNextPacketid c).2 args.topicFilter args.qos
    (iotxMcGetNextPacketid c).1 args.topicHandleFunc io.subscribe = r
  by_cases hr : r.1 < State.success
  · by_cases hnwk : r.1 = State.sysDependNwkClose
    · refine ⟨4, ?_⟩
      simp only [Function.iterate_succ_apply, Function.iterate_zero_apply, Thread.step, if_pos hret,
        if_neg hargs, if_neg hst, if_neg hrc, hsend, if_pos hr, if_pos hnwk]
      rw [hnwk]
      rfl
    · refine ⟨3, ?_⟩
      simp only [Function.iterate_succ_apply, Function.iterate_zero_apply, Thread.step, if_pos hret,
        if_neg hargs, if_neg hst, if_neg hrc, hsend, if_pos hr, if_neg hnwk]
      rfl
  · refine ⟨4, ?_⟩
    simp only [Function.iterate_succ_apply, Function.iterate_zero_apply, Thread.step, if_pos hret,
      if_neg hargs, if_neg hst, if_neg hrc, hsend, if_neg hr]
    rfl

/-! ## The system -/

/-- A client and the calls on it. -/
structure Sys where
  client : Client
  threads : Nat → Option Thread

/-- A call begins, takes a step, a SUBACK is handled, or another operation of the
client takes an identifier or changes the connection state. -/
inductive SyncOp where
  | start (i : Nat) (args : SyncArgs)
  | thread (i : Nat) (io : SyncIo)
  | suback (packetId : UInt16) (eventType : EventType)
  | nextId
  | setState (newState : McState)

namespace Sys

def ackThread (packetId : Nat) (t : Thread) : Thread :=
  if t.held = some packetId ∧ t.pc ≠ .cleanup then { t with acked := some packetId } else t

def step (s : Sys) : SyncOp → Sys
  | .start i args =>
    if s.threads i = none then
      { s with threads := Function.update s.threads i (some { args := args }) }
    else s
  | .thread i io =>
    match s.threads i with
    | none => s
    | some t =>
      let r := t.step s.client io
      ⟨r.1, Function.update s.threads i (some r.2)⟩
  | .suback packetId eventType =>
    ⟨iotxMqttEventHandleSub s.client packetId eventType,
      if eventType = .subscribeSuccess then
        fun i => (s.threads i).map (ackThread packetId.toNat)
      else s.threads⟩
  | .nextId => { s with client := (iotxMcGetNextPacketid s.client).2 }
  | .setState newState => { s with client := iotxMcSetClientState s.client newState }

/-- What a step must not do for acknowledgements to reach their callers. -/
def Timely (s : Sys) : SyncOp → Prop
  | .thread i io => ∀ t, s.threads i = some t →
    match t.pc with
    -- the identifier is not that of a request under way
    | .enter => t.ret < 0 → ∀ j u, j ≠ i → s.threads j = some u →
        u.held ≠ some (iotxMcGetNextPacketid s.client).1
    -- a request that has been acknowledged is sent
    | .checkState _ => t.acked ≠ none → wrapperMqttCheckState s.client = true ∧
        State.success ≤ iotxMcCheckTopic t.args.topicFilter .topicFilter
    | .send msgId => t.acked ≠ none → State.success ≤
        (mqttSubscribeSend s.client t.args.topicFilter t.args.qos msgId t.args.topicHandleFunc
          io.subscribe).1
    -- the SUBACK comes after the record has been linked
    | .link => t.subed = none → t.acked = none
    -- the record of an acknowledged request is the first one
    | .poll => t.acked ≠ none → s.client.listSubSyncAck.head?.map (·.packetId) = t.held
    -- the SUBACK comes before the last poll
    | .timer => io.expired = true → t.acked = none
    | _ => True
  | .suback packetId eventType => eventType ≠ .subscribeSuccess →
    ∀ i t, s.threads i = some t → t.held = some packetId.toNat → t.acked = none
  | _ => True

end Sys

end AliyunIot.Mqtt
