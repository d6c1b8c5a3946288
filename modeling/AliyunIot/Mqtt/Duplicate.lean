import AliyunIot.Mqtt.PubWait

/-!
# The DUP flag of a retransmission

A copy of a QoS 1 packet travels from the serializer through the send buffer into its node and
out again on a timer. `Traced` remembers, for the node in each block, the packet that
`MQTTPublish` sent; what a pass sends again is that packet, DUP bit included.
`resent_flagged_iff` says what this leaves of the flag.
-/

namespace AliyunIot.Mqtt

open Lib

/-! ## What is asked -/

/-- A packet with its DUP bit set. -/
def duplicate : List UInt8 → List UInt8
  | [] => []
  | head :: rest => mqttHeaderSetDup head 1 :: rest

def DupClear (packet : List UInt8) : Prop :=
  ∃ head rest, packet = head :: rest ∧ mqttHeaderGetDup head = 0

/-- The client, and the packet first sent for the node in each block. -/
structure Traced where
  client : Client
  first : Nat → Option (List UInt8) := fun _ => none

namespace Traced

/-- A publish that succeeds above QoS 0 leaves a node in the next block. -/
def step (s : Traced) (op : PubOp) : Traced where
  client := PubOp.step s.client op
  first :=
    match op with
    | .publish topicName topicMsg io =>
      let r := mqttPublish s.client topicName topicMsg io
      if r.rc = State.success ∧ 0 < topicMsg.qos then
        Function.update s.first s.client.heapNext (some r.packet)
      else s.first
    | _ => s.first

/-- What an operation sends again. -/
def resent (s : Traced) : PubOp → List (Nat × List UInt8)
  | .pubInfoProc io => (mqttPubInfoProc s.client io).2
  | _ => []

/-- Everything sent again is the first packet of its node with the DUP bit set. -/
def Flagged (s : Traced) (op : PubOp) : Prop :=
  ∀ again ∈ s.resent op, ∃ packet, s.first again.1 = some packet ∧ again.2 = duplicate packet

/-- Everything sent again is the first packet of its node, with the DUP bit clear. -/
def Repeated (s : Traced) (op : PubOp) : Prop :=
  ∀ again ∈ s.resent op, s.first again.1 = some again.2 ∧ DupClear again.2

/-- No pass of a connected client finds a copy that has waited for its PUBACK longer than twice
the request timeout. -/
def NoneOverdue (s : Traced) : PubOp → Prop
  | .pubInfoProc io => s.client.clientState = .connected → ∀ node ∈ s.client.listPubWaitAck,
      node.nodeState ≠ .invalid → io.spend node.block ≤ s.client.requestTimeoutMs * 2
  | _ => True

end Traced

/-! ## The first packet -/

theorem publishHeader_dup (qos : Nat) (retained : UInt8) :
    mqttHeaderGetDup (publishHeader 0 qos retained) = 0 := by
  have hqos : ∀ b : Fin 256, (UInt8.ofNat b <<< 1) &&& 0x06 ∈ ([0, 2, 4, 6] : List UInt8) := by
    decide +kernel
  have hretain : ∀ b : Fin 256, UInt8.ofNat b &&& 0x01 ∈ ([0, 1] : List UInt8) := by
    decide +kernel
  have hq := hqos ⟨(UInt8.ofNat qos).toNat, UInt8.toNat_lt _⟩
  have hr := hretain ⟨retained.toNat, retained.toNat_lt⟩
  rw [UInt8.ofNat_toNat] at hq hr
  unfold publishHeader mqttHeaderSetRetain mqttHeaderSetQos
  generalize (UInt8.ofNat qos <<< 1) &&& 0x06 = q at hq ⊢
  generalize retained &&& 0x01 = r at hr ⊢
  revert q r
  decide

theorem dupClear_ne_duplicate {packet : List UInt8} (h : DupClear packet) (other : List UInt8) :
    packet ≠ duplicate other := by
  obtain ⟨head, rest, rfl, hhead⟩ := h
  cases other with
  | nil => exact List.cons_ne_nil _ _
  | cons first others =>
    intro he
    obtain ⟨rfl, -⟩ := List.cons.inj he
    have hset (b : Fin 256) : mqttHeaderGetDup (mqttHeaderSetDup (UInt8.ofNat b) 1) ≠ 0 := by
      revert b; decide +kernel
    have := hset ⟨first.toNat, first.toNat_lt⟩
    rw [UInt8.ofNat_toNat] at this
    exact this hhead

theorem serializePacket_mem_zero {buflen : Int} {remLen : Nat} {header : UInt8}
    {writeBody : Cursor → Cursor} {body : List UInt8} (hw : ∀ c, writeBody c = c.puts body)
    (h : 0 < (serializePacket buflen remLen header writeBody).rc) :
    0 < buflen ∧ (serializePacket buflen remLen header writeBody).mem 0 = some header := by
  rcases serializePacket_cases buflen remLen header hw with ⟨-, e⟩ | ⟨hfit, e⟩
  · rw [e] at h
    exact absurd h (by decide)
  · rw [e]
    refine ⟨?_, ?_⟩
    · have : 0 < mqttPacketLen remLen := by
        simp only [mqttPacketLen]
        (repeat' split) <;> omega
      omega
    · show (Cursor.start.puts (packetBytes header remLen body)).mem 0 = some header
      rw [Cursor.start_puts_mem]
      rfl

theorem take_storeInto {old : List UInt8} {stored : Nat → Option UInt8} {header : UInt8} {len : Nat}
    (hold : 0 < old.length) (hstored : stored 0 = some header) (hlen : 0 < len) :
    ∃ rest, (storeInto old stored).take len = header :: rest := by
  obtain ⟨n, hn⟩ := Nat.exists_eq_succ_of_ne_zero (Nat.ne_of_gt hold)
  obtain ⟨m, rfl⟩ := Nat.exists_eq_succ_of_ne_zero (Nat.ne_of_gt hlen)
  rw [storeInto, hn, List.range_succ_eq_map, List.map_cons, hstored, List.take_succ_cons]
  exact ⟨_, rfl⟩

theorem allocSendBuffer_success {c : Client} {len : Nat} {mallocOk : Bool}
    (h : ¬ (allocSendBuffer c len mallocOk).1 < State.success) :
    ∃ old, (allocSendBuffer c len mallocOk).2.bufSend = some old ∧
      old.length = (allocSendBuffer c len mallocOk).2.bufSizeSend := by
  unfold allocSendBuffer at h ⊢
  cases mallocOk with
  | false => exact absurd (show State.sysDependMalloc < State.success by decide) h
  | true => exact ⟨_, rfl, List.length_replicate⟩

theorem mqttPublish_dupClear {c : Client} {topicName : CStr} {topicMsg : TopicInfo}
    {io : PublishIo} (h : (mqttPublish c topicName topicMsg io).rc = State.success) :
    DupClear (mqttPublish c topicName topicMsg io).packet := by
  unfold mqttPublish at h ⊢
  have halloc := @allocSendBuffer_success c (topicName.strlen + topicMsg.payload.length)
    io.bufMalloc
  generalize allocSendBuffer c (topicName.strlen + topicMsg.payload.length) io.bufMalloc = a
    at h halloc ⊢
  obtain ⟨res, c'⟩ := a
  simp only at h halloc ⊢
  by_cases hres : res < State.success
  · rw [if_pos hres] at h
    exact absurd hres (by rw [show res = 0 from h]; decide)
  rw [if_neg hres] at h ⊢
  obtain ⟨old, hold, hlen⟩ := halloc hres
  have hmem := @serializePacket_mem_zero c'.bufSizeSend
    (mqttSerializePublishLength topicMsg.qos.toNat { cstring := some topicName }
      topicMsg.payload.length)
    (publishHeader 0 topicMsg.qos.toNat topicMsg.retain) _ _
    (writePublish_eq topicMsg.qos.toNat topicMsg.packetId { cstring := some topicName }
      topicMsg.payload)
  rw [← mqttSerializePublish] at hmem
  generalize mqttSerializePublish c'.bufSizeSend 0 topicMsg.qos.toNat topicMsg.retain
    topicMsg.packetId { cstring := some topicName } topicMsg.payload = r at h hmem ⊢
  by_cases hrc : r.rc ≤ 0
  · rw [if_pos hrc] at h
    exact absurd h (show State.mqttSerializePubError ≠ State.success by decide)
  rw [if_neg hrc] at h ⊢
  obtain ⟨hsize, hheader⟩ := hmem (by omega)
  have hpacket : DupClear (((c'.bufSend.map (storeInto · r.mem)).getD []).take r.rc.toNat) := by
    rw [hold]
    obtain ⟨rest, hrest⟩ := @take_storeInto old r.mem _ r.rc.toNat (by omega) hheader (by omega)
    exact ⟨_, rest, hrest, publishHeader_dup _ _⟩
  by_cases hq : 0 < topicMsg.qos
  swap
  · rw [if_neg hq, publishSend_packet]
    exact hpacket
  rw [if_pos hq] at h ⊢
  rcases iotxMcPushPubInfoTo_cases { c' with bufSend := c'.bufSend.map (storeInto · r.mem) } r.rc
    topicMsg.packetId io.nodeMalloc with ⟨res, hp, hne⟩ | ⟨-, hp⟩
  · rw [hp] at h
    exact absurd h hne
  · rw [hp]
    simp only [publishSend_packet]
    exact hpacket

/-! ## What a pass sends again -/

theorem pubInfoLoop_resent_eq_nil (c : Client) (io : PassIo) (list : List PubInfo) :
    (pubInfoLoop c io list).resent = [] ↔
      (c.clientState = .connected → ∀ node ∈ list, node.nodeState ≠ .invalid →
        io.spend node.block ≤ c.requestTimeoutMs * 2) := by
  induction list with
  | nil => exact iff_of_true rfl fun _ node hnode => absurd hnode List.not_mem_nil
  | cons node next ih =>
    have hcons (hnode : c.clientState = .connected → node.nodeState ≠ .invalid →
          io.spend node.block ≤ c.requestTimeoutMs * 2) :
        (pubInfoLoop c io next).resent = [] ↔
          (c.clientState = .connected → ∀ n ∈ node :: next, n.nodeState ≠ .invalid →
            io.spend n.block ≤ c.requestTimeoutMs * 2) := by
      rw [ih]
      refine ⟨fun h hs n hn => ?_, fun h hs n hn => h hs n (List.mem_cons_of_mem _ hn)⟩
      rcases List.mem_cons.mp hn with rfl | hn
      · exact hnode hs
      · exact h hs n hn
    simp only [pubInfoLoop]
    by_cases hv : node.nodeState = .invalid
    · rw [if_pos hv]
      exact hcons fun _ hne => absurd hv hne
    rw [if_neg hv]
    by_cases hs : c.clientState ≠ .connected
    · rw [if_pos hs]
      exact hcons fun hconn => absurd hconn hs
    rw [if_neg hs]
    by_cases ht : io.spend node.block ≤ c.requestTimeoutMs * 2
    · rw [if_pos ht]
      exact hcons fun _ _ => ht
    rw [if_neg ht]
    refine iff_of_false ?_ fun h => ht (h (not_not.mp hs) node List.mem_cons_self hv)
    split <;> exact List.cons_ne_nil _ _

namespace Traced

theorem noneOverdue_iff (s : Traced) (op : PubOp) : s.NoneOverdue op ↔ s.resent op = [] := by
  cases op with
  | pubInfoProc io => exact (pubInfoLoop_resent_eq_nil s.client io s.client.listPubWaitAck).symm
  | publish topicName topicMsg io => exact iff_of_true trivial rfl
  | puback msgId => exact iff_of_true trivial rfl
  | setState newState => exact iff_of_true trivial rfl

/-! ## Runs -/

/-- Every copy is the first packet of its node. -/
structure Kept (s : Traced) : Prop where
  ok : s.client.PubWaitOk
  copy : ∀ node ∈ s.client.listPubWaitAck, s.first node.block = some node.buf
  clear : ∀ block packet, s.first block = some packet → DupClear packet

theorem Kept.of_nodes {s : Traced} (h : s.Kept) {list : List PubInfo}
    (hlist : ∀ node ∈ list, ∃ node' ∈ s.client.listPubWaitAck,
      node'.block = node.block ∧ node'.buf = node.buf) :
    ∀ node ∈ list, s.first node.block = some node.buf := by
  intro node hnode
  obtain ⟨node', hnode', hblock, hbuf⟩ := hlist node hnode
  rw [← hblock, ← hbuf]
  exact h.copy node' hnode'

theorem step_kept {s : Traced} (op : PubOp) (h : s.Kept) : (s.step op).Kept := by
  have hok := PubOp.step_ok op h.ok
  cases op with
  | publish topicName topicMsg io =>
    have hpub : (s.step (.publish topicName topicMsg io)).client =
      (mqttPublish s.client topicName topicMsg io).client := rfl
    rcases mqttPublish_cases h.ok topicName topicMsg io with
      ⟨hrc, hq, -, hl, -⟩ | ⟨hfail, hl, -⟩
    · have hfirst : (s.step (.publish topicName topicMsg io)).first =
          Function.update s.first s.client.heapNext
            (some (mqttPublish s.client topicName topicMsg io).packet) := if_pos ⟨hrc, hq⟩
      refine ⟨hok, fun node hnode => ?_, fun block packet hblock => ?_⟩
      · rw [hpub, hl] at hnode
        rw [hfirst]
        rcases List.mem_append.mp hnode with hnode | hnode
        · have := h.ok.lt_heapNext node hnode
          rw [Function.update_of_ne (by omega)]
          exact h.copy node hnode
        · rw [List.mem_singleton.mp hnode, Function.update_self]
      · rw [hfirst] at hblock
        by_cases hb : block = s.client.heapNext
        · rw [hb, Function.update_self, Option.some_inj] at hblock
          rw [← hblock]
          exact mqttPublish_dupClear hrc
        · rw [Function.update_of_ne hb] at hblock
          exact h.clear block packet hblock
    · have hfirst : (s.step (.publish topicName topicMsg io)).first = s.first :=
        if_neg fun hboth => hfail hboth.1 hboth.2
      refine ⟨hok, fun node hnode => ?_, hfirst ▸ h.clear⟩
      rw [hpub, hl] at hnode
      rw [hfirst]
      exact h.copy node hnode
  | puback msgId =>
    refine ⟨hok, h.of_nodes fun node hnode => ?_, h.clear⟩
    obtain ⟨node', hnode', rfl⟩ := List.mem_map.mp hnode
    refine ⟨node', hnode', ?_⟩
    split <;> exact ⟨rfl, rfl⟩
  | pubInfoProc io =>
    refine ⟨hok, h.of_nodes fun node hnode => ?_, h.clear⟩
    exact ⟨node, (pubInfoLoop_sublist s.client io _).subset hnode, rfl, rfl⟩
  | setState newState => exact ⟨hok, h.copy, h.clear⟩

theorem Kept.repeated {s : Traced} (h : s.Kept) (op : PubOp) : s.Repeated op := by
  intro again hagain
  cases op with
  | pubInfoProc io =>
    obtain ⟨node, hnode, -, rfl⟩ := mem_resent s.client io hagain
    have hcopy := h.copy node hnode
    exact ⟨hcopy, h.clear _ _ hcopy⟩
  | publish topicName topicMsg io => exact absurd hagain List.not_mem_nil
  | puback msgId => exact absurd hagain List.not_mem_nil
  | setState newState => exact absurd hagain List.not_mem_nil

theorem Kept.flagged_iff {s : Traced} (h : s.Kept) (op : PubOp) :
    s.Flagged op ↔ s.NoneOverdue op := by
  rw [noneOverdue_iff]
  constructor
  · intro hflagged
    refine List.eq_nil_iff_forall_not_mem.mpr fun again hagain => ?_
    obtain ⟨packet, -, hpacket⟩ := hflagged again hagain
    exact dupClear_ne_duplicate (h.repeated op again hagain).2 packet hpacket
  · intro hnil again hagain
    rw [hnil] at hagain
    exact absurd hagain List.not_mem_nil

end Traced

/-- In every run, whatever is sent again is the packet that `MQTTPublish` sent for the node, byte
for byte. So the DUP bit is as the protocol asks in exactly the runs in which nothing is sent
again. -/
theorem resent_flagged_iff {c₀ : Client} (h₀ : c₀.listPubWaitAck = []) (ops : List PubOp) :
    Meets Traced.step Traced.Repeated ⟨c₀, fun _ => none⟩ ops ∧
    (Meets Traced.step Traced.Flagged ⟨c₀, fun _ => none⟩ ops ↔
      Meets Traced.step Traced.NoneOverdue ⟨c₀, fun _ => none⟩ ops) := by
  have hnone (node : PubInfo) : node ∉ c₀.listPubWaitAck := by
    rw [h₀]
    exact List.not_mem_nil
  have hkept : Traced.Kept ⟨c₀, fun _ => none⟩ := by
    refine ⟨⟨?_, ?_⟩, ?_, ?_⟩
    · rw [h₀]
      exact Nat.zero_le _
    · exact fun node hnode => absurd hnode (hnone node)
    · exact fun node hnode => absurd hnode (hnone node)
    · exact fun _ _ hblock => nomatch hblock
  refine ⟨?_, ?_⟩
  · refine meets_iff_forall_split.mpr fun pre op _ _ => ?_
    exact (run_invariant (fun _ op h => Traced.step_kept op h) hkept pre).repeated op
  · exact meets_iff_of_invariant (fun _ op _ h => Traced.step_kept op h)
      (fun _ op h => h.flagged_iff op) hkept

/-- A QoS 1 publish, and a pass that comes more than twice the request timeout later. -/
def overdueRun : List PubOp :=
  [.publish topicA (qos1Msg 1) { writes := [9] }, .pubInfoProc ⟨fun _ => 5000, fun _ => [9]⟩]

theorem resent_flagged_overdue :
    ¬ Meets Traced.step Traced.NoneOverdue ⟨connectedClient, fun _ => none⟩ overdueRun ∧
    ¬ Meets Traced.step Traced.Flagged ⟨connectedClient, fun _ => none⟩ overdueRun := by
  have hoverdue : ¬ Meets Traced.step Traced.NoneOverdue ⟨connectedClient, fun _ => none⟩
      overdueRun := by
    intro h
    have hresent := (Traced.noneOverdue_iff _ _).mp h.2.1
    revert hresent
    decide +kernel
  exact ⟨hoverdue, mt (resent_flagged_iff rfl overdueRun).2.mp hoverdue⟩

/-- The packet goes out twice as `32 07 ...`. -/
theorem resent_without_dup :
    (mqttPublish connectedClient topicA (qos1Msg 1) { writes := [9] }).packet =
      [0x32, 7, 0, 2, 0x2F, 0x61, 0, 1, 0x31] ∧
    Traced.resent (run Traced.step ⟨connectedClient, fun _ => none⟩ (overdueRun.take 1))
        (.pubInfoProc ⟨fun _ => 5000, fun _ => [9]⟩) =
      [(0, [0x32, 7, 0, 2, 0x2F, 0x61, 0, 1, 0x31])] ∧
    ¬ Meets Traced.step Traced.Flagged ⟨connectedClient, fun _ => none⟩ overdueRun := by
  refine ⟨by decide +kernel, by decide +kernel, fun h => ?_⟩
  obtain ⟨packet, hfirst, hdup⟩ := h.2.1 (0, [0x32, 7, 0, 2, 0x2F, 0x61, 0, 1, 0x31])
    (by decide +kernel)
  refine dupClear_ne_duplicate ⟨0x32, _, rfl, by decide⟩ packet hdup

end AliyunIot.Mqtt
