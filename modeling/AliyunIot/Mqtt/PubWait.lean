import AliyunIot.Mqtt.Client

/-!
# QoS 1 publishes waiting for their PUBACK

`MQTTPublish` queues a copy of the packet before it sends it, a PUBACK marks
the copies of its id invalid, and `MQTTPubInfoProc` deletes invalid copies and
sends overdue ones again. Runs interleave the three in any order, with any
outcome of allocations, socket writes and clocks.

`PubOp.step_keeps` says what one step does to a waiting copy,
`PubOp.step_acked` what it does to an acknowledged one; `pubWait_reliable` puts
the runs together.
-/

namespace AliyunIot.Mqtt

open Lib

/-! ## `MQTTPublish` -/

/-- What `MQTTPublish` cannot decide: the two allocations and the socket writes. -/
structure PublishIo where
  bufMalloc : Bool := true
  nodeMalloc : Bool := true
  writes : List Int := []

/-- `iotx_mc_push_pubInfo_to`: the client with the copy, and the copy's block. -/
def iotxMcPushPubInfoTo (c : Client) (len : Int) (msgId : UInt16) (mallocOk : Bool) :
    Except Int (Client × Nat) :=
  if len < 0 ∨ len > c.bufSizeSend then .error State.mqttTxBufferTooShort
  else if c.listPubWaitAck.length ≥ iotxMcRepubNumMax then .error State.mqttQos1RepubExceedMax
  else if !mallocOk then .error State.sysDependMalloc
  else
    let repubInfo : PubInfo :=
      { block := c.heapNext, nodeState := .normal, msgId := msgId,
        buf := (c.bufSend.getD []).take len.toNat }
    .ok ({ c with listPubWaitAck := c.listPubWaitAck ++ [repubInfo], heapNext := c.heapNext + 1 },
      repubInfo.block)

/-- The result of `MQTTPublish`; `packet` is what it handed to the socket. -/
structure PublishResult where
  rc : Int
  client : Client
  packet : List UInt8 := []

/-- `list_del` of the node at an address. -/
def listDel (list : List PubInfo) (block : Nat) : List PubInfo := list.filter (·.block ≠ block)

/-- The last part of `MQTTPublish`: send the packet and, when that fails, take
the queued copy out again. -/
def publishSend (c : Client) (len : Int) (node : Option Nat) (writes : List Int) : PublishResult :=
  let packet := (c.bufSend.getD []).take len.toNat
  if iotxMcSendPacket len writes ≠ State.success then
    let c := match node with
      | some block => { c with listPubWaitAck := listDel c.listPubWaitAck block }
      | none => c
    ⟨State.sysDependNwkClose, resetSendBuffer c, packet⟩
  else ⟨State.success, resetSendBuffer c, packet⟩

def mqttPublish (c : Client) (topicName : CStr) (topicMsg : TopicInfo) (io : PublishIo) :
    PublishResult :=
  let (res, c) := allocSendBuffer c (topicName.strlen + topicMsg.payload.length) io.bufMalloc
  if res < State.success then ⟨res, c, []⟩
  else
    let r := mqttSerializePublish c.bufSizeSend 0 topicMsg.qos.toNat topicMsg.retain
      topicMsg.packetId { cstring := some topicName } topicMsg.payload
    let c := { c with bufSend := c.bufSend.map (storeInto · r.mem) }
    if r.rc ≤ 0 then ⟨State.mqttSerializePubError, resetSendBuffer c, []⟩
    else if 0 < topicMsg.qos then
      match iotxMcPushPubInfoTo c r.rc topicMsg.packetId io.nodeMalloc with
      | .error res => ⟨res, resetSendBuffer c, []⟩
      | .ok (c, node) => publishSend c r.rc (some node) io.writes
    else publishSend c r.rc none io.writes

/-- A QoS 1 or 2 publish takes the next packet id; QoS 2 is refused after that. -/
def wrapperMqttPublish (c : Client) (topicName : CStr) (topicMsg : TopicInfo) (io : PublishIo) :
    PublishResult :=
  let rc := iotxMcCheckTopic topicName .topicName
  if rc < State.success then ⟨rc, c, []⟩
  else if !wrapperMqttCheckState c then ⟨State.mqttInOfflineStatus, c, []⟩
  else
    let takesId := topicMsg.qos = 1 ∨ topicMsg.qos = 2
    let (msgId, c) := if takesId then iotxMcGetNextPacketid c else (0, c)
    let topicMsg := if takesId then { topicMsg with packetId := UInt16.ofNat msgId } else topicMsg
    if topicMsg.qos = 2 then ⟨State.mqttPubQosInvalid, c, []⟩
    else
      let r := mqttPublish c topicName topicMsg io
      if r.rc < State.success then
        { r with
          client := if r.rc = State.sysDependNwkClose then iotxMcSetClientState r.client
            .disconnected
            else r.client }
      else { r with rc := msgId }

/-! ## PUBACK -/

def iotxMcMaskPubInfoFrom (c : Client) (msgId : UInt16) : Client :=
  { c with
    listPubWaitAck := c.listPubWaitAck.map fun node =>
      if node.msgId = msgId then { node with nodeState := .invalid } else node }

/-- `iotx_mc_handle_recv_PUBACK`; `stack` is the packet id when the
deserializer reports success without assigning one. -/
def iotxMcHandleRecvPuback (c : Client) (stack : UInt16) : Int × Client × List Invocation :=
  let ack := mqttDeserializeAck (memOf (c.bufRead.getD []))
  if ack.rc ≠ 1 then (State.mqttPublishAckPacketError, c, [])
  else
    let mypacketid := ack.packetid.getD stack
    (State.success, iotxMcMaskPubInfoFrom c mypacketid,
      handleEvent c.handleEvent .publishSuccess (.packetId mypacketid))

/-! ## `MQTTPubInfoProc` -/

/-- What a pass cannot decide, for the node of each block: the time it has
waited and the socket writes of its retransmission. -/
structure PassIo where
  spend : Nat → Nat
  writes : Nat → List Int

def mqttRePublish (buf : List UInt8) (writes : List Int) : Int :=
  if iotxMcSendPacket buf.length writes ≠ State.success then State.sysDependNwkClose
  else State.success

/-- The list after a pass, the client state, and what was sent again. -/
structure Pass where
  list : List PubInfo
  clientState : McState
  resent : List (Nat × List UInt8)

/-- The loop of `MQTTPubInfoProc`. -/
def pubInfoLoop (c : Client) (io : PassIo) : List PubInfo → Pass
  | [] => ⟨[], c.clientState, []⟩
  | node :: next =>
    if node.nodeState = .invalid then pubInfoLoop c io next
    else if c.clientState ≠ .connected then
      let p := pubInfoLoop c io next
      { p with list := node :: p.list }
    else if io.spend node.block ≤ c.requestTimeoutMs * 2 then
      let p := pubInfoLoop c io next
      { p with list := node :: p.list }
    else
      let rc := mqttRePublish node.buf (io.writes node.block)
      -- a failed retransmission ends the pass
      if rc = State.sysDependNwkClose then
        ⟨node :: next, .disconnected, [(node.block, node.buf)]⟩
      else
        let p := pubInfoLoop c io next
        { p with list := node :: p.list, resent := (node.block, node.buf) :: p.resent }

def mqttPubInfoProc (c : Client) (io : PassIo) : Client × List (Nat × List UInt8) :=
  let p := pubInfoLoop c io c.listPubWaitAck
  ({ c with listPubWaitAck := p.list, clientState := p.clientState }, p.resent)

/-! ## What one operation does to the list -/

/-- The copies fit the list, and their blocks have been handed out. -/
structure Client.PubWaitOk (c : Client) : Prop where
  length_le : c.listPubWaitAck.length ≤ iotxMcRepubNumMax
  lt_heapNext : ∀ n ∈ c.listPubWaitAck, n.block < c.heapNext

theorem listDel_append_new {list : List PubInfo} {node : PubInfo}
    (h : ∀ n ∈ list, n.block < node.block) : listDel (list ++ [node]) node.block = list := by
  rw [listDel, List.filter_append, List.filter_eq_self.mpr, List.filter_cons_of_neg,
    List.filter_nil, List.append_nil]
  · simp
  · intro n hn
    have := h n hn
    simp only [decide_eq_true_eq]
    omega

variable (c : Client)

theorem publishSend_heapNext (len : Int) (node : Option Nat) (writes : List Int) :
    (publishSend c len node writes).client.heapNext = c.heapNext := by
  unfold publishSend
  split
  · cases node <;> exact resetSendBuffer_heapNext _
  · exact resetSendBuffer_heapNext _

theorem publishSend_none_list (len : Int) (writes : List Int) :
    (publishSend c len none writes).client.listPubWaitAck = c.listPubWaitAck := by
  unfold publishSend
  split <;> exact resetSendBuffer_listPubWaitAck _

theorem publishSend_some_cases (len : Int) (block : Nat) (writes : List Int) :
    ((publishSend c len (some block) writes).rc = State.success ∧
      (publishSend c len (some block) writes).client.listPubWaitAck = c.listPubWaitAck) ∨
    ((publishSend c len (some block) writes).rc = State.sysDependNwkClose ∧
      (publishSend c len (some block) writes).client.listPubWaitAck =
        listDel c.listPubWaitAck block) := by
  unfold publishSend
  split
  · exact .inr ⟨rfl, resetSendBuffer_listPubWaitAck _⟩
  · exact .inl ⟨rfl, resetSendBuffer_listPubWaitAck _⟩

theorem publishSend_packet (len : Int) (node : Option Nat) (writes : List Int) :
    (publishSend c len node writes).packet = (c.bufSend.getD []).take len.toNat := by
  unfold publishSend; split <;> rfl

theorem iotxMcPushPubInfoTo_cases (len : Int) (msgId : UInt16) (mallocOk : Bool) :
    (∃ res, iotxMcPushPubInfoTo c len msgId mallocOk = .error res ∧ res ≠ State.success) ∨
    (c.listPubWaitAck.length < iotxMcRepubNumMax ∧
      iotxMcPushPubInfoTo c len msgId mallocOk =
        .ok ({ c with
          listPubWaitAck := c.listPubWaitAck ++
            [⟨c.heapNext, .normal, msgId, (c.bufSend.getD []).take len.toNat⟩],
          heapNext := c.heapNext + 1 }, c.heapNext)) := by
  unfold iotxMcPushPubInfoTo
  by_cases h1 : len < 0 ∨ len > c.bufSizeSend
  · exact .inl ⟨_, if_pos h1, by decide⟩
  by_cases h2 : c.listPubWaitAck.length ≥ iotxMcRepubNumMax
  · exact .inl ⟨_, by rw [if_neg h1, if_pos h2], by decide⟩
  cases mallocOk
  · exact .inl ⟨_, by rw [if_neg h1, if_neg h2]; rfl, by decide⟩
  · exact .inr ⟨by omega, by rw [if_neg h1, if_neg h2]; rfl⟩

/-- The outcomes of `MQTTPublish`: success with the packet that was sent queued
at the tail for QoS above 0, or the list as it was. -/
theorem mqttPublish_cases {c : Client} (hc : c.PubWaitOk) (topicName : CStr) (topicMsg : TopicInfo)
    (io : PublishIo) :
    ((mqttPublish c topicName topicMsg io).rc = State.success ∧ 0 < topicMsg.qos ∧
      c.listPubWaitAck.length < iotxMcRepubNumMax ∧
      (mqttPublish c topicName topicMsg io).client.listPubWaitAck =
        c.listPubWaitAck ++ [⟨c.heapNext, .normal, topicMsg.packetId,
          (mqttPublish c topicName topicMsg io).packet⟩] ∧
      (mqttPublish c topicName topicMsg io).client.heapNext = c.heapNext + 1) ∨
    (((mqttPublish c topicName topicMsg io).rc = State.success → ¬ 0 < topicMsg.qos) ∧
      (mqttPublish c topicName topicMsg io).client.listPubWaitAck = c.listPubWaitAck ∧
      c.heapNext ≤ (mqttPublish c topicName topicMsg io).client.heapNext) := by
  unfold mqttPublish
  have hl := allocSendBuffer_listPubWaitAck c (topicName.strlen + topicMsg.payload.length)
    io.bufMalloc
  have hh := allocSendBuffer_heapNext c (topicName.strlen + topicMsg.payload.length) io.bufMalloc
  generalize allocSendBuffer c (topicName.strlen + topicMsg.payload.length) io.bufMalloc = a
    at hl hh
  obtain ⟨res, c'⟩ := a
  simp only at hl hh ⊢
  by_cases hres : res < State.success
  · rw [if_pos hres]
    exact .inr ⟨fun h => absurd hres (by rw [show res = 0 from h]; decide), hl,
      Nat.le_of_eq hh.symm⟩
  rw [if_neg hres]
  generalize mqttSerializePublish c'.bufSizeSend 0 topicMsg.qos.toNat topicMsg.retain
    topicMsg.packetId { cstring := some topicName } topicMsg.payload = r
  by_cases hrc : r.rc ≤ 0
  · rw [if_pos hrc]
    exact .inr ⟨fun h => absurd h (show State.mqttSerializePubError ≠ State.success by decide),
      by simpa using hl, by simp [hh]⟩
  rw [if_neg hrc]
  by_cases hq : 0 < topicMsg.qos
  swap
  · rw [if_neg hq]
    exact .inr ⟨fun _ => hq, by rw [publishSend_none_list]; exact hl,
      by rw [publishSend_heapNext]; exact Nat.le_of_eq hh.symm⟩
  rw [if_pos hq]
  rcases iotxMcPushPubInfoTo_cases { c' with bufSend := c'.bufSend.map (storeInto · r.mem) } r.rc
    topicMsg.packetId io.nodeMalloc with ⟨res, hp, hne⟩ | ⟨hlen, hp⟩
  · rw [hp]
    exact .inr ⟨fun h => absurd h hne, by simpa using hl, by simp [hh]⟩
  rw [hp]
  simp only [hl, hh] at hlen ⊢
  rcases publishSend_some_cases
    { c' with
      bufSend := c'.bufSend.map (storeInto · r.mem)
      listPubWaitAck := c.listPubWaitAck ++ [⟨c.heapNext, .normal, topicMsg.packetId,
        ((c'.bufSend.map (storeInto · r.mem)).getD []).take r.rc.toNat⟩]
      heapNext := c.heapNext + 1 } r.rc c.heapNext io.writes with ⟨hs, hlist⟩ | ⟨hs, hlist⟩
  · refine .inl ⟨hs, hq, hlen, ?_, publishSend_heapNext ..⟩
    rw [hlist, publishSend_packet]
  · refine .inr ⟨fun h => absurd (hs.symm.trans h) (by decide), ?_, ?_⟩
    · rw [hlist]
      exact listDel_append_new hc.lt_heapNext
    · rw [publishSend_heapNext]
      exact Nat.le_succ _

theorem pubInfoLoop_cons (io : PassIo) (node : PubInfo) (next : List PubInfo) :
    (node.nodeState = .invalid ∧ pubInfoLoop c io (node :: next) = pubInfoLoop c io next) ∨
    (node.nodeState ≠ .invalid ∧ ∃ again, (∀ r ∈ again, r = (node.block, node.buf)) ∧
      pubInfoLoop c io (node :: next) =
        ⟨node :: (pubInfoLoop c io next).list, (pubInfoLoop c io next).clientState,
          again ++ (pubInfoLoop c io next).resent⟩) ∨
    (node.nodeState ≠ .invalid ∧ c.clientState = .connected ∧
      pubInfoLoop c io (node :: next) =
        ⟨node :: next, .disconnected, [(node.block, node.buf)]⟩) := by
  simp only [pubInfoLoop]
  by_cases hv : node.nodeState = .invalid
  · exact .inl ⟨hv, if_pos hv⟩
  rw [if_neg hv]
  by_cases hs : c.clientState ≠ .connected
  · rw [if_pos hs]
    exact .inr (.inl ⟨hv, [], by simp, rfl⟩)
  rw [if_neg hs]
  by_cases ht : io.spend node.block ≤ c.requestTimeoutMs * 2
  · rw [if_pos ht]
    exact .inr (.inl ⟨hv, [], by simp, rfl⟩)
  rw [if_neg ht]
  by_cases hr : mqttRePublish node.buf (io.writes node.block) = State.sysDependNwkClose
  · rw [if_pos hr]
    exact .inr (.inr ⟨hv, not_not.mp hs, rfl⟩)
  · rw [if_neg hr]
    exact .inr (.inl ⟨hv, [(node.block, node.buf)], by simp, rfl⟩)

theorem pubInfoLoop_sublist (io : PassIo) (list : List PubInfo) :
    (pubInfoLoop c io list).list.Sublist list := by
  induction list with
  | nil => exact List.Sublist.refl _
  | cons node next ih =>
    rcases pubInfoLoop_cons c io node next with ⟨-, e⟩ | ⟨-, _, -, e⟩ | ⟨-, -, e⟩ <;> rw [e]
    · exact ih.cons node
    · exact ih.cons_cons node

theorem mem_pubInfoLoop (io : PassIo) {list : List PubInfo} {n : PubInfo}
    (h : n ∈ list) (hn : n.nodeState ≠ .invalid) : n ∈ (pubInfoLoop c io list).list := by
  induction list with
  | nil => cases h
  | cons node next ih =>
    rcases pubInfoLoop_cons c io node next with ⟨hv, e⟩ | ⟨-, _, -, e⟩ | ⟨-, -, e⟩ <;> rw [e]
    · rcases List.mem_cons.mp h with rfl | h
      · exact absurd hv hn
      · exact ih h
    · rcases List.mem_cons.mp h with rfl | h
      · exact List.mem_cons_self
      · exact List.mem_cons_of_mem _ (ih h)
    · exact h

theorem mem_resent (io : PassIo) {list : List PubInfo} {r : Nat × List UInt8}
    (h : r ∈ (pubInfoLoop c io list).resent) :
    ∃ n ∈ list, n.nodeState ≠ .invalid ∧ r = (n.block, n.buf) := by
  induction list with
  | nil => cases h
  | cons node next ih =>
    have later (h : r ∈ (pubInfoLoop c io next).resent) :
        ∃ n ∈ node :: next, n.nodeState ≠ .invalid ∧ r = (n.block, n.buf) :=
      (ih h).imp fun n hn => ⟨List.mem_cons_of_mem _ hn.1, hn.2⟩
    rcases pubInfoLoop_cons c io node next with ⟨-, e⟩ | ⟨hv, again, ha, e⟩ | ⟨hv, -, e⟩ <;>
      rw [e] at h
    · exact later h
    · rcases List.mem_append.mp h with h | h
      · exact ⟨node, List.mem_cons_self, hv, ha r h⟩
      · exact later h
    · exact ⟨node, List.mem_cons_self, hv, List.mem_singleton.mp h⟩

theorem pubInfoLoop_complete (io : PassIo) {list : List PubInfo}
    (h : (pubInfoLoop c io list).clientState = c.clientState) {n : PubInfo}
    (hn : n ∈ (pubInfoLoop c io list).list) : n.nodeState ≠ .invalid := by
  induction list with
  | nil => cases hn
  | cons node next ih =>
    rcases pubInfoLoop_cons c io node next with ⟨-, e⟩ | ⟨hv, _, -, e⟩ | ⟨-, hs, e⟩ <;>
      rw [e] at h hn
    · exact ih h hn
    · rcases List.mem_cons.mp hn with rfl | hn
      · exact hv
      · exact ih h hn
    · exact absurd (h.trans hs) (show McState.disconnected ≠ .connected by decide)

/-! ## Runs -/

/-- The operations on the list: `MQTTPublish`, a handled PUBACK, a pass, and any
change of the connection state by the rest of the client. -/
inductive PubOp where
  | publish (topicName : CStr) (topicMsg : TopicInfo) (io : PublishIo)
  | puback (msgId : UInt16)
  | pubInfoProc (io : PassIo)
  | setState (newState : McState)

def PubOp.step (c : Client) : PubOp → Client
  | .publish topicName topicMsg io => (mqttPublish c topicName topicMsg io).client
  | .puback msgId => iotxMcMaskPubInfoFrom c msgId
  | .pubInfoProc io => (mqttPubInfoProc c io).1
  | .setState newState => iotxMcSetClientState c newState

namespace PubOp

variable {c : Client}

theorem step_ok (op : PubOp) (h : c.PubWaitOk) : (step c op).PubWaitOk := by
  cases op with
  | publish topicName topicMsg io =>
    rcases mqttPublish_cases h topicName topicMsg io with ⟨-, -, hlen, hl, hh⟩ | ⟨-, hl, hh⟩
    · constructor
      · show (mqttPublish c topicName topicMsg io).client.listPubWaitAck.length ≤ _
        rw [hl, List.length_append, List.length_singleton]; omega
      · intro n hn
        change n ∈ (mqttPublish c topicName topicMsg io).client.listPubWaitAck at hn
        show n.block < (mqttPublish c topicName topicMsg io).client.heapNext
        rw [hl] at hn
        rw [hh]
        rcases List.mem_append.mp hn with hn | hn
        · have := h.lt_heapNext n hn; omega
        · rw [List.mem_singleton] at hn
          subst hn; exact Nat.lt_succ_self _
    · exact ⟨hl ▸ h.length_le, fun n hn => Nat.lt_of_lt_of_le (h.lt_heapNext n (hl ▸ hn)) hh⟩
  | puback msgId =>
    refine ⟨?_, fun n hn => ?_⟩
    · show (c.listPubWaitAck.map _).length ≤ _
      rw [List.length_map]; exact h.length_le
    · obtain ⟨m, hm, rfl⟩ := List.mem_map.mp hn
      have := h.lt_heapNext m hm
      split <;> exact this
  | pubInfoProc io =>
    have hsub := pubInfoLoop_sublist c io c.listPubWaitAck
    exact ⟨Nat.le_trans hsub.length_le h.length_le, fun n hn => h.lt_heapNext n (hsub.subset hn)⟩
  | setState newState => exact ⟨h.length_le, h.lt_heapNext⟩

theorem step_keeps {n : PubInfo} (op : PubOp) (h : c.PubWaitOk)
    (hop : op ≠ .puback n.msgId) (hn : n ∈ c.listPubWaitAck) (hs : n.nodeState ≠ .invalid) :
    n ∈ (step c op).listPubWaitAck := by
  cases op with
  | publish topicName topicMsg io =>
    show n ∈ (mqttPublish c topicName topicMsg io).client.listPubWaitAck
    rcases mqttPublish_cases h topicName topicMsg io with ⟨-, -, -, hl, -⟩ | ⟨-, hl, -⟩
    · rw [hl]; exact List.mem_append_left _ hn
    · rw [hl]; exact hn
  | puback msgId =>
    refine List.mem_map.mpr ⟨n, hn, if_neg fun he => hop ?_⟩
    rw [he]
  | pubInfoProc io => exact mem_pubInfoLoop c io hn hs
  | setState newState => exact hn

/-- `block` has been handed out, and a copy in it has the property `Q`. -/
def InBlock (Q : PubInfo → Prop) (block : Nat) (c : Client) : Prop :=
  block < c.heapNext ∧ ∀ n ∈ c.listPubWaitAck, n.block = block → Q n

theorem step_inBlock {Q : PubInfo → Prop} (hQ : ∀ n, Q n → Q { n with nodeState := .invalid })
    {c : Client} {block : Nat} (op : PubOp) (h : c.PubWaitOk) (ha : InBlock Q block c) :
    InBlock Q block (step c op) := by
  obtain ⟨hb, ha⟩ := ha
  cases op with
  | publish topicName topicMsg io =>
    rcases mqttPublish_cases h topicName topicMsg io with ⟨-, -, -, hl, hh⟩ | ⟨-, hl, hh⟩
    · refine ⟨by show block < (mqttPublish c topicName topicMsg io).client.heapNext; omega,
        fun n hn he => ?_⟩
      change n ∈ (mqttPublish c topicName topicMsg io).client.listPubWaitAck at hn
      rw [hl] at hn
      rcases List.mem_append.mp hn with hn | hn
      · exact ha n hn he
      · rw [List.mem_singleton] at hn
        rw [hn] at he
        exact absurd he (Nat.ne_of_gt hb)
    · exact ⟨Nat.lt_of_lt_of_le hb hh, fun n hn he => ha n (hl ▸ hn) he⟩
  | puback msgId =>
    refine ⟨hb, fun n hn he => ?_⟩
    obtain ⟨m, hm, rfl⟩ := List.mem_map.mp hn
    split at he
    · next hid => rw [if_pos hid]; exact hQ m (ha m hm he)
    · next hid => rw [if_neg hid]; exact ha m hm he
  | pubInfoProc io =>
    exact ⟨hb, fun n hn he => ha n ((pubInfoLoop_sublist c io _).subset hn) he⟩
  | setState newState => exact ⟨hb, ha⟩

theorem run_ok (h : c.PubWaitOk) (ops : List PubOp) : (run step c ops).PubWaitOk :=
  run_invariant (fun _ op hc => step_ok op hc) h ops

theorem run_keeps {n : PubInfo} (h : c.PubWaitOk) (hn : n ∈ c.listPubWaitAck)
    (hs : n.nodeState ≠ .invalid) {ops : List PubOp} (hops : ∀ op ∈ ops, op ≠ .puback n.msgId) :
    n ∈ (run step c ops).listPubWaitAck :=
  (run_invariant_of (I := fun c : Client => c.PubWaitOk ∧ n ∈ c.listPubWaitAck)
    (fun _ op hop hc => ⟨step_ok op hc.1, step_keeps op hc.1 hop hc.2 hs⟩) ⟨h, hn⟩ hops).2

theorem run_inBlock {Q : PubInfo → Prop} (hQ : ∀ n, Q n → Q { n with nodeState := .invalid })
    {c : Client} {block : Nat} (h : c.PubWaitOk) (ha : InBlock Q block c) (ops : List PubOp) :
    InBlock Q block (run step c ops) :=
  (run_invariant (I := fun c : Client => c.PubWaitOk ∧ InBlock Q block c)
    (fun _ op hc => ⟨step_ok op hc.1, step_inBlock hQ op hc.1 hc.2⟩) ⟨h, ha⟩ ops).2

theorem run_puback {block : Nat} {msgId : UInt16} (h : c.PubWaitOk)
    (ha : InBlock (·.msgId = msgId) block c) (ops₁ ops₂ : List PubOp) :
    InBlock (·.nodeState = .invalid) block (run step c (ops₁ ++ .puback msgId :: ops₂)) := by
  have h₁ := run_ok h ops₁
  have hid : InBlock (·.msgId = msgId) block (run step c ops₁) :=
    run_inBlock (fun _ hq => hq) h ha _
  rw [run_append, run_cons]
  refine run_inBlock (fun _ _ => rfl) (step_ok (.puback msgId) h₁) ⟨hid.1, fun n hn he => ?_⟩ ops₂
  obtain ⟨m, hm, rfl⟩ := List.mem_map.mp hn
  split at he
  · next heq => rw [if_pos heq]
  · next hne => exact absurd (hid.2 m hm he) hne

theorem acked_pubInfoProc {block : Nat}
    (ha : InBlock (·.nodeState = .invalid) block c) (io : PassIo) :
    (∀ e ∈ (mqttPubInfoProc c io).2, e.1 ≠ block) ∧
      ((mqttPubInfoProc c io).1.clientState = c.clientState →
        ∀ n ∈ (mqttPubInfoProc c io).1.listPubWaitAck, n.block ≠ block) := by
  refine ⟨fun e he hb => ?_, fun hs n hn hb => ?_⟩
  · obtain ⟨n, hn, hv, rfl⟩ := mem_resent c io he
    exact hv (ha.2 n hn hb)
  · exact pubInfoLoop_complete c io hs hn (ha.2 n ((pubInfoLoop_sublist c io _).subset hn) hb)

end PubOp

/-- In every state of every run: the list is within its bound; a failed publish
leaves it alone; and a successful QoS 1 publish has a copy of the packet that
was sent in a block of its own, which stays as it is until a PUBACK of its id,
is not sent again after that, and is deleted for good by the next pass that is
not ended by a failed retransmission. -/
theorem pubWait_reliable {c₀ : Client} (h₀ : c₀.listPubWaitAck = []) (ops : List PubOp) :
    let c := run PubOp.step c₀ ops
    c.listPubWaitAck.length ≤ iotxMcRepubNumMax ∧
    ∀ (topicName : CStr) (topicMsg : TopicInfo) (io : PublishIo),
      let r := mqttPublish c topicName topicMsg io
      (r.rc ≠ State.success → r.client.listPubWaitAck = c.listPubWaitAck) ∧
      (r.rc = State.success → 0 < topicMsg.qos → ∃ block,
        (∀ ops', (∀ op ∈ ops', op ≠ .puback topicMsg.packetId) →
          ⟨block, .normal, topicMsg.packetId, r.packet⟩ ∈
            (run PubOp.step r.client ops').listPubWaitAck) ∧
        ∀ ops₁ ops₂,
          let c' := run PubOp.step r.client (ops₁ ++ .puback topicMsg.packetId :: ops₂)
          ∀ io', (∀ e ∈ (mqttPubInfoProc c' io').2, e.1 ≠ block) ∧
            ((mqttPubInfoProc c' io').1.clientState = c'.clientState →
              ∀ ops₃, ∀ n ∈ (run PubOp.step (mqttPubInfoProc c' io').1 ops₃).listPubWaitAck,
                n.block ≠ block)) := by
  intro c
  have hc : c.PubWaitOk := PubOp.run_ok ⟨by rw [h₀]; exact Nat.zero_le _,
    fun n hn => by rw [h₀] at hn; cases hn⟩ ops
  refine ⟨hc.length_le, fun topicName topicMsg io => ?_⟩
  intro r
  have hr : r.client.PubWaitOk := PubOp.step_ok (.publish topicName topicMsg io) hc
  have hcases := mqttPublish_cases hc topicName topicMsg io
  refine ⟨fun hrc => ?_, fun hrc hq => ?_⟩
  · rcases hcases with ⟨h, -⟩ | ⟨-, hl, -⟩
    · exact absurd h hrc
    · exact hl
  rcases hcases with ⟨-, -, -, hl, hh⟩ | ⟨h, -⟩
  swap
  · exact absurd hq (h hrc)
  have hmem : ⟨c.heapNext, .normal, topicMsg.packetId, r.packet⟩ ∈ r.client.listPubWaitAck := by
    rw [hl]
    exact List.mem_append_right _ (List.mem_singleton.mpr rfl)
  have hid : PubOp.InBlock (·.msgId = topicMsg.packetId) c.heapNext r.client := by
    refine ⟨by show c.heapNext < (mqttPublish c topicName topicMsg io).client.heapNext; omega,
      fun n hn he => ?_⟩
    change n ∈ (mqttPublish c topicName topicMsg io).client.listPubWaitAck at hn
    rw [hl] at hn
    rcases List.mem_append.mp hn with hn | hn
    · exact absurd he (Nat.ne_of_lt (hc.lt_heapNext n hn))
    · rw [List.mem_singleton.mp hn]
  refine ⟨c.heapNext,
    fun ops' => PubOp.run_keeps hr hmem (show McNode.normal ≠ .invalid by decide),
    fun ops₁ ops₂ => ?_⟩
  intro c' io'
  have hacked := PubOp.run_puback hr hid ops₁ ops₂
  have hc' : c'.PubWaitOk := PubOp.run_ok hr _
  obtain ⟨hagain, hgone⟩ := PubOp.acked_pubInfoProc hacked io'
  refine ⟨hagain, fun hs ops₃ n hn he => ?_⟩
  have hgone' : PubOp.InBlock (fun _ => False) c.heapNext (mqttPubInfoProc c' io').1 :=
    ⟨hacked.1, fun n hn he => hgone hs n hn he⟩
  exact (PubOp.run_inBlock (fun _ hq => hq) (PubOp.step_ok (.pubInfoProc io') hc') hgone' ops₃).2
    n hn he

/-- A connected client, and a QoS 1 publish of one byte to `/a`. -/
def connectedClient : Client :=
  { bufSizeSendMax := 1024, bufSizeReadMax := 1024, clientState := .connected }

def topicA : CStr := CStr.ofString "/a" (by decide)

def qos1Msg (packetId : UInt16) : TopicInfo :=
  { packetId := packetId, qos := 1, payload := [0x31] }

theorem pubWait_reliable_connected : let c := run PubOp.step connectedClient []
    (mqttPublish c topicA (qos1Msg 1) { writes := [9] }).rc = State.success ∧
    ((mqttPublish c topicA (qos1Msg 1) { writes := [9] }).rc = State.success → 0 < (qos1Msg 1).qos →
      ∃ block, ∀ ops', (∀ op ∈ ops', op ≠ .puback 1) →
        ⟨block, .normal, 1, (mqttPublish c topicA (qos1Msg 1) { writes := [9] }).packet⟩ ∈
          (run PubOp.step (mqttPublish c topicA (qos1Msg 1) { writes := [9] }).client
            ops').listPubWaitAck) :=
  ⟨by decide +kernel, fun hrc hq =>
    ((@pubWait_reliable connectedClient rfl []).2 topicA (qos1Msg 1)
      { writes := [9] }).2 hrc hq |>.imp fun _ h => h.1⟩

/-- Two publishes, the second of which has been acknowledged. -/
def secondAcked : Client :=
  run PubOp.step connectedClient
    [.publish topicA (qos1Msg 1) { writes := [9] }, .publish topicA (qos1Msg 2) { writes := [9] },
      .puback 2]

/-- The first copy is overdue and its retransmission fails: the pass ends before
it reaches the acknowledged one. -/
theorem pubInfoProc_leaves_acked :
    secondAcked.listPubWaitAck.map (fun n => (n.block, n.msgId, n.nodeState)) =
      [(0, 1, .normal), (1, 2, .invalid)] ∧
    (mqttPubInfoProc secondAcked ⟨fun _ => 5000, fun _ => []⟩).1.listPubWaitAck.map
      (fun n => (n.block, n.msgId, n.nodeState)) = [(0, 1, .normal), (1, 2, .invalid)] := by
  decide +kernel

end AliyunIot.Mqtt
