import AliyunIot.Mqtt.PubWait
import AliyunIot.Mqtt.Subscribe
import Mathlib.Data.List.Induction

/-!
# Packet identifiers in flight

One counter, shared by publish, subscribe and unsubscribe, hands out the
identifiers `1 … 65535` in a circle. `idAt k` is the `k`-th of them. A waiting
copy remembers the identifier of its publish, so two copies clash only when the
counter has gone round once while the older one was waiting
(`packetIds_unambiguous`).
-/

namespace AliyunIot.Mqtt

open Lib

/-- The calls that take identifiers, PUBACKs, passes, and changes of the
connection state. -/
inductive IdOp where
  | publish (topicName : CStr) (topicMsg : TopicInfo) (io : PublishIo)
  | subscribe (topicFilter : CStr) (qos : Nat) (topicHandleFunc : Option Nat) (pcontext : Nat)
      (io : SubscribeIo)
  | unsubscribe (topicFilter : CStr) (io : SubscribeIo)
  | puback (msgId : UInt16)
  | pubInfoProc (io : PassIo)
  | setState (newState : McState)

namespace IdOp

def step (c : Client) : IdOp → Client
  | .publish topicName topicMsg io => (wrapperMqttPublish c topicName topicMsg io).client
  | .subscribe topicFilter qos topicHandleFunc pcontext io =>
    (wrapperMqttSubscribe c topicFilter qos topicHandleFunc pcontext io).2
  | .unsubscribe topicFilter io => (wrapperMqttUnsubscribe c topicFilter io).2
  | .puback msgId => iotxMcMaskPubInfoFrom c msgId
  | .pubInfoProc io => (mqttPubInfoProc c io).1
  | .setState newState => iotxMcSetClientState c newState

/-- A publish has one of the QoS values of a PUBLISH, `3` being for local
subscriptions only. -/
def QosDocumented : IdOp → Prop
  | .publish _ topicMsg _ => topicMsg.qos ≤ 2
  | _ => True

/-- How many identifiers a run hands out: a call of the generator, and nothing
else, moves the counter. -/
def idsIssued : Client → List IdOp → Nat
  | _, [] => 0
  | c, op :: ops =>
    (if (step c op).packetId = c.packetId then 0 else 1) + idsIssued (step c op) ops

theorem idsIssued_append (c : Client) (ops ops' : List IdOp) :
    idsIssued c (ops ++ ops') = idsIssued c ops + idsIssued (run step c ops) ops' := by
  induction ops generalizing c with
  | nil => simp [idsIssued]
  | cons op ops ih =>
    simp only [List.cons_append, idsIssued, run_cons]
    rw [ih, Nat.add_assoc]

theorem idsIssued_le_length (c : Client) (ops : List IdOp) : idsIssued c ops ≤ ops.length := by
  induction ops generalizing c with
  | nil => exact Nat.le_refl 0
  | cons op ops ih =>
    have := ih (step c op)
    simp only [idsIssued, List.length_cons]
    split <;> omega

end IdOp

/-! ## The counter -/

/-- The `k`-th identifier handed out by a fresh client, `0` before the first. -/
def idAt : Nat → Nat
  | 0 => 0
  | k + 1 => k % iotxMcPacketIdMax + 1

theorem idAt_le (k : Nat) : idAt k ≤ iotxMcPacketIdMax := by
  cases k with
  | zero => exact Nat.zero_le _
  | succ k => exact Nat.mod_lt k (by decide)

theorem next_idAt {c : Client} {k : Nat} (h : c.packetId = idAt k) :
    (iotxMcGetNextPacketid c).1 = idAt (k + 1) := by
  simp only [iotxMcGetNextPacketid, h]
  cases k with
  | zero => rfl
  | succ k =>
    by_cases hk : idAt (k + 1) = iotxMcPacketIdMax
    · rw [if_pos hk]
      simp only [idAt, iotxMcPacketIdMax] at hk ⊢
      omega
    · rw [if_neg hk]
      simp only [idAt, iotxMcPacketIdMax] at hk ⊢
      omega

theorem idAt_succ_ne (k : Nat) : idAt (k + 1) ≠ idAt k := by
  cases k with
  | zero => decide
  | succ k => simp only [idAt, iotxMcPacketIdMax]; omega

theorem round_of_idAt_eq {j k : Nat} (hj : 1 ≤ j) (hjk : j < k)
    (h : UInt16.ofNat (idAt j) = UInt16.ofNat (idAt k)) : j + iotxMcPacketIdMax ≤ k := by
  have hn : idAt j = idAt k := by
    have hj' := idAt_le j
    have hk' := idAt_le k
    have := congrArg UInt16.toNat h
    rw [UInt16.toNat_ofNat', UInt16.toNat_ofNat'] at this
    simp only [iotxMcPacketIdMax] at hj' hk'
    omega
  obtain ⟨j, rfl⟩ : ∃ i, j = i + 1 := ⟨j - 1, by omega⟩
  obtain ⟨k, rfl⟩ : ∃ i, k = i + 1 := ⟨k - 1, by omega⟩
  simp only [idAt, iotxMcPacketIdMax] at hn ⊢
  omega

theorem next_range {c : Client} (h : c.packetId ≤ iotxMcPacketIdMax) :
    1 ≤ (iotxMcGetNextPacketid c).1 ∧ (iotxMcGetNextPacketid c).1 ≤ iotxMcPacketIdMax := by
  simp only [iotxMcGetNextPacketid]
  by_cases hmax : c.packetId = iotxMcPacketIdMax
  · rw [if_pos hmax]
    exact ⟨Nat.le_refl 1, by decide⟩
  · rw [if_neg hmax]
    exact ⟨Nat.le_add_left 1 _, by omega⟩

/-! ## What one step does -/

variable (c : Client)

theorem subscribeInsert_frame (handler : TopicHandle) : let r := subscribeInsert c handler
    r.listPubWaitAck = c.listPubWaitAck ∧ r.heapNext = c.heapNext ∧ r.packetId = c.packetId := by
  unfold subscribeInsert
  simp only
  split <;> exact ⟨rfl, rfl, rfl⟩

theorem mqttSubscribe_frame (topicFilter : CStr) (qos msgId : Nat)
    (messageHandler : Option Nat) (pcontext : Nat) (io : SubscribeIo) :
    let r := (mqttSubscribe c topicFilter qos msgId messageHandler pcontext io).2
    r.listPubWaitAck = c.listPubWaitAck ∧ r.heapNext = c.heapNext ∧ r.packetId = c.packetId := by
  simp only [mqttSubscribe]
  (repeat' split) <;> simp [subscribeInsert_frame]

theorem mqttUnsubscribe_frame (topicFilter : CStr) (msgId : Nat) (io : SubscribeIo) :
    let r := (mqttUnsubscribe c topicFilter msgId io).2
    r.listPubWaitAck = c.listPubWaitAck ∧ r.heapNext = c.heapNext ∧ r.packetId = c.packetId := by
  simp only [mqttUnsubscribe]
  (repeat' split) <;> simp

theorem publishSend_packetId (len : Int) (node : Option Nat) (writes : List Int) :
    (publishSend c len node writes).client.packetId = c.packetId := by
  unfold publishSend
  split
  · cases node <;> exact resetSendBuffer_packetId _
  · exact resetSendBuffer_packetId _

theorem mqttPublish_packetId (topicName : CStr) (topicMsg : TopicInfo)
    (io : PublishIo) : (mqttPublish c topicName topicMsg io).client.packetId = c.packetId := by
  unfold mqttPublish
  have hp := allocSendBuffer_packetId c (topicName.strlen + topicMsg.payload.length) io.bufMalloc
  generalize allocSendBuffer c (topicName.strlen + topicMsg.payload.length) io.bufMalloc = a at hp
  obtain ⟨res, c'⟩ := a
  simp only at hp ⊢
  split
  · exact hp
  generalize mqttSerializePublish c'.bufSizeSend 0 topicMsg.qos.toNat topicMsg.retain
    topicMsg.packetId { cstring := some topicName } topicMsg.payload = r
  split
  · exact (resetSendBuffer_packetId _).trans hp
  split
  · rcases iotxMcPushPubInfoTo_cases { c' with bufSend := c'.bufSend.map (storeInto · r.mem) } r.rc
      topicMsg.packetId io.nodeMalloc with ⟨res, e, -⟩ | ⟨-, e⟩ <;> rw [e]
    · exact (resetSendBuffer_packetId _).trans hp
    · exact (publishSend_packetId ..).trans hp
  · exact (publishSend_packetId ..).trans hp

theorem IdOp.step_packetId (op : IdOp) :
    (IdOp.step c op).packetId = c.packetId ∨
      (IdOp.step c op).packetId = (iotxMcGetNextPacketid c).1 := by
  cases op with
  | publish topicName topicMsg io =>
    simp only [IdOp.step, wrapperMqttPublish]
    split
    · exact .inl rfl
    split
    · exact .inl rfl
    by_cases hid : topicMsg.qos = 1 ∨ topicMsg.qos = 2
    · simp only [if_pos hid]
      split
      · exact .inr rfl
      (repeat' split) <;> exact .inr (mqttPublish_packetId ..)
    · simp only [if_neg hid]
      split
      · exact .inl rfl
      (repeat' split) <;> exact .inl (mqttPublish_packetId ..)
  | subscribe topicFilter qos topicHandleFunc pcontext io =>
    simp only [IdOp.step, wrapperMqttSubscribe]
    split
    · exact .inl rfl
    (repeat' split) <;> first | exact .inr rfl | exact .inr (mqttSubscribe_frame ..).2.2
  | unsubscribe topicFilter io =>
    simp only [IdOp.step, wrapperMqttUnsubscribe]
    (repeat' split) <;> first | exact .inr rfl | exact .inr (mqttUnsubscribe_frame ..).2.2
  | puback msgId => exact .inl rfl
  | pubInfoProc io => exact .inl rfl
  | setState newState => exact .inl rfl

/-- The copies after a step, for a publish that a PUBLISH can express: old ones, which at
most were masked, or those before and one that bears the next identifier. -/
inductive Outcome (c c' : Client) : Prop where
  | keep (blocks : (c'.listPubWaitAck.map (·.block)).Sublist (c.listPubWaitAck.map (·.block)))
      (old : ∀ n' ∈ c'.listPubWaitAck, ∃ n ∈ c.listPubWaitAck, n'.block = n.block ∧
        n'.msgId = n.msgId ∧ (n'.nodeState ≠ .invalid → n' = n))
      (heap : c.heapNext ≤ c'.heapNext)
  | push (buf : List UInt8) (room : c.listPubWaitAck.length < iotxMcRepubNumMax)
      (list : c'.listPubWaitAck = c.listPubWaitAck ++
        [⟨c.heapNext, .normal, UInt16.ofNat (iotxMcGetNextPacketid c).1, buf⟩])
      (heap : c'.heapNext = c.heapNext + 1) (id : c'.packetId = (iotxMcGetNextPacketid c).1)

namespace Outcome

theorem of_list {c c' : Client} (list : c'.listPubWaitAck = c.listPubWaitAck)
    (heap : c.heapNext ≤ c'.heapNext) : Outcome c c' :=
  .keep (by rw [list]) (fun n hn => ⟨n, list ▸ hn, rfl, rfl, fun _ => rfl⟩) heap

theorem setState {c c' : Client} (newState : McState) :
    Outcome c c' → Outcome c (iotxMcSetClientState c' newState)
  | .keep blocks old heap => .keep blocks old heap
  | .push buf room list heap id => .push buf room list heap id

theorem ok {c c' : Client} (h : c.PubWaitOk) : Outcome c c' → c'.PubWaitOk
  | .keep blocks old heap =>
    ⟨by simpa using Nat.le_trans blocks.length_le (by simpa using h.length_le), fun n' hn' => by
      obtain ⟨n, hn, hb, -⟩ := old n' hn'
      have := h.lt_heapNext n hn
      omega⟩
  | .push buf room list heap _ =>
    ⟨by rw [list, List.length_append, List.length_singleton]; exact room, fun n' hn' => by
      rw [list] at hn'
      rcases List.mem_append.mp hn' with hn' | hn'
      · have := h.lt_heapNext n' hn'; omega
      · rw [List.mem_singleton.mp hn', heap]; exact Nat.lt_succ_self _⟩

end Outcome

theorem mqttPublish_outcome {c : Client} (c₁ : Client) (h : c.PubWaitOk)
    (list : c₁.listPubWaitAck = c.listPubWaitAck) (heap : c₁.heapNext = c.heapNext)
    (topicName : CStr) (topicMsg : TopicInfo) (io : PublishIo)
    (hq : 0 < topicMsg.qos → c₁.packetId = (iotxMcGetNextPacketid c).1 ∧
      topicMsg.packetId = UInt16.ofNat (iotxMcGetNextPacketid c).1) :
    Outcome c (mqttPublish c₁ topicName topicMsg io).client := by
  have h₁ : c₁.PubWaitOk := ⟨list ▸ h.length_le, fun n hn => heap ▸ h.lt_heapNext n (list ▸ hn)⟩
  rcases mqttPublish_cases h₁ topicName topicMsg io with ⟨-, hpos, hlen, hl, hh⟩ | ⟨-, hl, hh⟩
  · obtain ⟨hnext, hmsg⟩ := hq hpos
    exact .push _ (list ▸ hlen) (by rw [hl, list, heap, hmsg]) (by rw [hh, heap])
      ((mqttPublish_packetId ..).trans hnext)
  · exact .of_list (hl.trans list) (heap ▸ hh)

theorem wrapperMqttPublish_outcome {c : Client} (h : c.PubWaitOk) (topicName : CStr)
    {topicMsg : TopicInfo} (hq : topicMsg.qos ≤ 2) (io : PublishIo) :
    Outcome c (wrapperMqttPublish c topicName topicMsg io).client := by
  have hrefl : Outcome c c := .of_list rfl (Nat.le_refl _)
  simp only [wrapperMqttPublish]
  split
  · exact hrefl
  split
  · exact hrefl
  by_cases hid : topicMsg.qos = 1 ∨ topicMsg.qos = 2
  · simp only [if_pos hid]
    split
    · exact .of_list rfl (Nat.le_refl _)
    have hr := mqttPublish_outcome (iotxMcGetNextPacketid c).2 h rfl rfl topicName
      { topicMsg with packetId := UInt16.ofNat (iotxMcGetNextPacketid c).1 } io
      fun _ => ⟨rfl, rfl⟩
    split
    · split
      · exact hr.setState _
      · exact hr
    · exact hr
  · simp only [if_neg hid]
    have hzero : ¬ 0 < topicMsg.qos := by grind
    have hr := mqttPublish_outcome c h rfl rfl topicName topicMsg io
      fun hpos => absurd hpos hzero
    split
    · next h2 => exact absurd (.inr h2) hid
    split
    · split
      · exact hr.setState _
      · exact hr
    · exact hr

theorem wrapperMqttSubscribe_outcome (topicFilter : CStr) (qos : Nat)
    (topicHandleFunc : Option Nat) (pcontext : Nat) (io : SubscribeIo) :
    Outcome c (wrapperMqttSubscribe c topicFilter qos topicHandleFunc pcontext io).2 := by
  simp only [wrapperMqttSubscribe]
  split
  · exact .of_list rfl (Nat.le_refl _)
  split
  · exact .of_list rfl (Nat.le_refl _)
  split
  · exact .of_list rfl (Nat.le_refl _)
  obtain ⟨hl, hh, -⟩ := mqttSubscribe_frame (iotxMcGetNextPacketid c).2 topicFilter qos
    (iotxMcGetNextPacketid c).1 topicHandleFunc pcontext io
  split
  · split <;> exact .of_list hl (Nat.le_of_eq hh.symm)
  · exact .of_list hl (Nat.le_of_eq hh.symm)

theorem wrapperMqttUnsubscribe_outcome (topicFilter : CStr) (io : SubscribeIo) :
    Outcome c (wrapperMqttUnsubscribe c topicFilter io).2 := by
  simp only [wrapperMqttUnsubscribe]
  split
  · exact .of_list rfl (Nat.le_refl _)
  split
  · exact .of_list rfl (Nat.le_refl _)
  obtain ⟨hl, hh, -⟩ := mqttUnsubscribe_frame (iotxMcGetNextPacketid c).2 topicFilter
    (iotxMcGetNextPacketid c).1 io
  split
  · split <;> exact .of_list hl (Nat.le_of_eq hh.symm)
  · exact .of_list hl (Nat.le_of_eq hh.symm)

theorem IdOp.step_outcome {c : Client} (h : c.PubWaitOk) {op : IdOp} (hop : op.QosDocumented) :
    Outcome c (IdOp.step c op) := by
  cases op with
  | publish topicName topicMsg io => exact wrapperMqttPublish_outcome h topicName hop io
  | subscribe topicFilter qos topicHandleFunc pcontext io =>
    exact wrapperMqttSubscribe_outcome ..
  | unsubscribe topicFilter io => exact wrapperMqttUnsubscribe_outcome ..
  | puback msgId =>
    refine .keep ?_ (fun n' hn' => ?_) (Nat.le_refl _)
    · simp only [IdOp.step, iotxMcMaskPubInfoFrom, List.map_map]
      rw [List.map_congr_left (g := (·.block)) fun n _ => by
        simp only [Function.comp_apply]; split <;> rfl]
    · obtain ⟨n, hn, rfl⟩ := List.mem_map.mp hn'
      refine ⟨n, hn, ?_⟩
      split <;> simp
  | pubInfoProc io =>
    have hsub := pubInfoLoop_sublist c io c.listPubWaitAck
    exact .keep (hsub.map _) (fun n hn => ⟨n, hsub.subset hn, rfl, rfl, fun _ => rfl⟩)
      (Nat.le_refl _)
  | setState newState => exact .of_list rfl (Nat.le_refl _)

/-! ## Runs -/

namespace IdOp

/-- `n` bears the `s`-th identifier of the run, and while it waits it has been
in the list since then. -/
structure Stamped (c₀ : Client) (ops : List IdOp) (n : PubInfo) (s : Nat) : Prop where
  pos : 1 ≤ s
  le : s ≤ idsIssued c₀ ops
  msgId : n.msgId = UInt16.ofNat (idAt s)
  born : n.nodeState ≠ .invalid → ∃ pre mid, ops = pre ++ mid ∧
    n ∈ (run step c₀ pre).listPubWaitAck ∧ idsIssued c₀ pre = s

/-- The counter stands at the number of identifiers handed out, and the copies
lie in the order of their stamps `st`. -/
structure Inv (c₀ : Client) (ops : List IdOp) (st : Nat → Nat) : Prop where
  ok : (run step c₀ ops).PubWaitOk
  counter : (run step c₀ ops).packetId = idAt (idsIssued c₀ ops)
  stamped : ∀ n ∈ (run step c₀ ops).listPubWaitAck, Stamped c₀ ops n (st n.block)
  increasing : ((run step c₀ ops).listPubWaitAck.map (·.block)).Pairwise fun b b' => st b < st b'

theorem idsIssued_concat (c : Client) (ops : List IdOp) (op : IdOp) :
    idsIssued c (ops ++ [op]) = idsIssued c ops +
      if (step (run step c ops) op).packetId = (run step c ops).packetId then 0 else 1 := by
  rw [idsIssued_append]; rfl

variable {ops : List IdOp}

theorem idsIssued_concat_next {c : Client} {op : IdOp}
    (hc : (run step c ops).packetId = idAt (idsIssued c ops))
    (h : (step (run step c ops) op).packetId = (iotxMcGetNextPacketid (run step c ops)).1) :
    idsIssued c (ops ++ [op]) = idsIssued c ops + 1 := by
  rw [idsIssued_concat, h, next_idAt hc, hc, if_neg (idAt_succ_ne _)]

theorem idsIssued_concat_same {c : Client} {op : IdOp}
    (h : (step (run step c ops) op).packetId = (run step c ops).packetId) :
    idsIssued c (ops ++ [op]) = idsIssued c ops := by
  rw [idsIssued_concat, if_pos h, Nat.add_zero]

theorem Stamped.concat {c₀ : Client} {n : PubInfo} {s : Nat}
    (h : Stamped c₀ ops n s) (op : IdOp) : Stamped c₀ (ops ++ [op]) n s where
  pos := h.pos
  le := Nat.le_trans h.le (by rw [idsIssued_append]; exact Nat.le_add_right _ _)
  msgId := h.msgId
  born hn := by
    obtain ⟨pre, mid, rfl, hmem, hs⟩ := h.born hn
    exact ⟨pre, mid ++ [op], List.append_assoc .., hmem, hs⟩

theorem Inv.nil {c₀ : Client} (h₀ : c₀.listPubWaitAck = []) (hid : c₀.packetId = 0) :
    Inv c₀ [] (fun _ => 0) where
  ok := ⟨by rw [run_nil, h₀]; exact Nat.zero_le _, fun n hn => by rw [run_nil, h₀] at hn; cases hn⟩
  counter := hid
  stamped n hn := by rw [run_nil, h₀] at hn; cases hn
  increasing := by rw [run_nil, h₀]; exact List.Pairwise.nil

theorem Inv.concat {c₀ : Client} {st : Nat → Nat} (h : Inv c₀ ops st) {op : IdOp}
    (hop : op.QosDocumented) : ∃ st', Inv c₀ (ops ++ [op]) st' := by
  have hout := step_outcome h.ok hop
  have hrun := run_concat step c₀ ops op
  have hok := hout.ok h.ok
  rcases hout with ⟨blocks, old, -⟩ | ⟨buf, -, list, -, id⟩
  · refine ⟨st, hrun ▸ hok, ?_, fun n' hn' => ?_, ?_⟩
    · rw [hrun]
      rcases step_packetId (run step c₀ ops) op with id | id
      · rw [idsIssued_concat_same id, id, h.counter]
      · rw [idsIssued_concat_next h.counter id, id, next_idAt h.counter]
    · rw [hrun] at hn'
      obtain ⟨n, hn, hb, hm, he⟩ := old n' hn'
      have hs := (h.stamped n hn).concat op
      rw [hb]
      exact ⟨hs.pos, hs.le, hm.trans hs.msgId, fun hv => he hv ▸ hs.born (he hv ▸ hv)⟩
    · rw [hrun]
      exact h.increasing.sublist blocks
  · have hN := idsIssued_concat_next h.counter id
    have hnew : ∀ n ∈ (run step c₀ ops).listPubWaitAck,
        Function.update st (run step c₀ ops).heapNext (idsIssued c₀ ops + 1) n.block =
          st n.block := fun n hn =>
      Function.update_of_ne (Nat.ne_of_lt (h.ok.lt_heapNext n hn)) _ _
    refine ⟨Function.update st (run step c₀ ops).heapNext (idsIssued c₀ ops + 1), hrun ▸ hok, ?_,
      fun n hn => ?_, ?_⟩
    · rw [hrun, hN, id, next_idAt h.counter]
    · rw [hrun, list] at hn
      rcases List.mem_append.mp hn with hn | hn
      · rw [hnew n hn]
        exact (h.stamped n hn).concat op
      · rw [List.mem_singleton.mp hn, Function.update_self]
        refine ⟨Nat.le_add_left 1 _, Nat.le_of_eq hN.symm, by rw [next_idAt h.counter],
          fun _ => ⟨ops ++ [op], [], (List.append_nil _).symm, ?_, hN⟩⟩
        rw [hrun, list]
        exact List.mem_append_right _ (List.mem_singleton.mpr rfl)
    · rw [hrun, list, List.map_append, List.pairwise_append]
      refine ⟨?_, List.pairwise_singleton _ _, fun b hb b' hb' => ?_⟩
      · refine h.increasing.imp_of_mem fun {b b'} hb hb' hlt => ?_
        obtain ⟨n, hn, rfl⟩ := List.mem_map.mp hb
        obtain ⟨n', hn', rfl⟩ := List.mem_map.mp hb'
        rwa [hnew n hn, hnew n' hn']
      · obtain ⟨n, hn, rfl⟩ := List.mem_map.mp hb
        rw [List.map_singleton, List.mem_singleton] at hb'
        rw [hb', hnew n hn, Function.update_self]
        exact Nat.lt_succ_of_le (h.stamped n hn).le

theorem run_inv {c₀ : Client} (h₀ : c₀.listPubWaitAck = []) (hid : c₀.packetId = 0)
    (hqos : ∀ op ∈ ops, op.QosDocumented) : ∃ st, Inv c₀ ops st := by
  induction ops using List.reverseRecOn with
  | nil => exact ⟨_, Inv.nil h₀ hid⟩
  | append_singleton ops op ih =>
    obtain ⟨st, h⟩ := ih fun op' hop' => hqos op' (List.mem_append_left _ hop')
    exact h.concat (hqos op (List.mem_append_right _ (List.mem_singleton.mpr rfl)))

end IdOp

theorem packetId_le {c₀ : Client} (hid : c₀.packetId = 0) (ops : List IdOp) :
    (run IdOp.step c₀ ops).packetId ≤ iotxMcPacketIdMax := by
  refine run_invariant (I := fun c : Client => c.packetId ≤ iotxMcPacketIdMax)
    (fun c op h => ?_) (by rw [hid]; exact Nat.zero_le _) ops
  rcases IdOp.step_packetId c op with id | id
  · rw [id]; exact h
  · rw [id]; exact (next_range h).2

theorem length_filter_le_one {α : Type} {p : α → Prop} [DecidablePred p] {l : List α}
    (h : l.Pairwise fun a b => ¬ (p a ∧ p b)) : (l.filter p).length ≤ 1 := by
  have hf := h.filter p
  have hp : ∀ a ∈ l.filter p, p a := fun a ha => of_decide_eq_true (List.mem_filter.mp ha).2
  generalize l.filter p = l' at hf hp
  match l', hf, hp with
  | [], _, _ => exact Nat.zero_le 1
  | [_], _, _ => exact Nat.le_refl 1
  | a :: b :: t, hf, hp =>
    have hab := List.rel_of_pairwise_cons hf List.mem_cons_self
    exact absurd ⟨hp a List.mem_cons_self, hp b (List.mem_cons_of_mem _ List.mem_cons_self)⟩ hab

/-- In every run from a fresh client the next identifier is in `1 … 65535`. If
the publishes have a QoS that a PUBLISH can have, and no copy has waited while
65535 or more further identifiers were handed out, then the waiting copies bear
different identifiers, so that a PUBACK acknowledges at most one. -/
theorem packetIds_unambiguous {c₀ : Client} (h₀ : c₀.listPubWaitAck = []) (hid : c₀.packetId = 0)
    (ops : List IdOp) : let c := run IdOp.step c₀ ops
    (1 ≤ (iotxMcGetNextPacketid c).1 ∧ (iotxMcGetNextPacketid c).1 ≤ iotxMcPacketIdMax) ∧
    ((∀ op ∈ ops, op.QosDocumented) →
      (∀ pre mid, ops = pre ++ mid → ∀ n ∈ c.listPubWaitAck, n.nodeState ≠ .invalid →
        n ∈ (run IdOp.step c₀ pre).listPubWaitAck →
          IdOp.idsIssued (run IdOp.step c₀ pre) mid < iotxMcPacketIdMax) →
      (c.listPubWaitAck.Pairwise fun n n' =>
        n.nodeState ≠ .invalid → n'.nodeState ≠ .invalid → n.msgId ≠ n'.msgId) ∧
      ∀ msgId, (c.listPubWaitAck.filter
        fun n => n.nodeState ≠ .invalid ∧ n.msgId = msgId).length ≤ 1) := by
  intro c
  refine ⟨next_range (packetId_le hid ops), fun hqos hage => ?_⟩
  obtain ⟨st, h⟩ := IdOp.run_inv h₀ hid hqos
  have hpair : c.listPubWaitAck.Pairwise fun n n' =>
      n.nodeState ≠ .invalid → n'.nodeState ≠ .invalid → n.msgId ≠ n'.msgId := by
    refine (List.pairwise_map.mp h.increasing).imp_of_mem fun {n n'} hn hn' hlt hv hv' he => ?_
    have hs := h.stamped n hn
    have hs' := h.stamped n' hn'
    have hround := round_of_idAt_eq hs.pos hlt (hs.msgId.symm.trans (he.trans hs'.msgId))
    obtain ⟨pre, mid, rfl, hmem, hpre⟩ := hs.born hv
    have hyoung := hage pre mid rfl n hn hv hmem
    have hle := hs'.le
    rw [IdOp.idsIssued_append, hpre] at hle
    omega
  refine ⟨hpair, fun msgId => length_filter_le_one (hpair.imp fun {n n'} hne hb => ?_)⟩
  exact hne hb.1.1 hb.2.1 (hb.1.2.trans hb.2.2.symm)

def twoPublishes : List IdOp :=
  [.publish topicA (qos1Msg 0) { writes := [9] }, .publish topicA (qos1Msg 0) { writes := [9] }]

theorem packetIds_unambiguous_twoPublishes :
    (run IdOp.step connectedClient twoPublishes).listPubWaitAck.map
      (fun n => (n.msgId, n.nodeState)) =
      [(1, .normal), (2, .normal)] ∧
    (run IdOp.step connectedClient twoPublishes).listPubWaitAck.Pairwise fun n n' =>
      n.nodeState ≠ .invalid → n'.nodeState ≠ .invalid → n.msgId ≠ n'.msgId := by
  refine ⟨by decide +kernel, ((@packetIds_unambiguous connectedClient rfl rfl
    twoPublishes).2 (fun op hop => ?_) fun pre mid hops _ _ _ _ => ?_).1⟩
  · simp only [twoPublishes, List.mem_cons, List.not_mem_nil, or_false, or_self] at hop
    subst hop
    exact show (1 : UInt8) ≤ 2 by decide
  · have hlen := congrArg List.length hops
    have := IdOp.idsIssued_le_length (run IdOp.step connectedClient pre) mid
    simp only [twoPublishes, List.length_cons, List.length_nil, List.length_append] at hlen
    simp only [iotxMcPacketIdMax]
    omega

/-- A filter without a leading slash. -/
def topicX : CStr := CStr.ofString "x" (by decide)

theorem step_unsubscribe_topicX :
    IdOp.step c (.unsubscribe topicX {}) = (iotxMcGetNextPacketid c).2 := by
  have h : iotxMcCheckTopic topicX .topicFilter < State.success := by decide
  simp only [IdOp.step, wrapperMqttUnsubscribe, if_pos h]

theorem run_unsubscribe_topicX (k : Nat) (c : Client) (h : c.packetId + k ≤ iotxMcPacketIdMax) :
    run IdOp.step c (List.replicate k (.unsubscribe topicX {})) =
      { c with packetId := c.packetId + k } := by
  induction k generalizing c with
  | zero => rfl
  | succ k ih =>
    have hne : c.packetId ≠ iotxMcPacketIdMax := by omega
    have hnext : (iotxMcGetNextPacketid c).2 = { c with packetId := c.packetId + 1 } := by
      simp only [iotxMcGetNextPacketid, if_neg hne]
    rw [List.replicate_succ, run_cons, step_unsubscribe_topicX, hnext, ih _ (by simp only; omega),
      Nat.add_assoc, Nat.add_comm 1]

/-- A publish, one round of the counter, and a second publish: two waiting copies
with identifier 1. -/
theorem packetIds_clash :
    (run IdOp.step connectedClient
        ([.publish topicA (qos1Msg 0) { writes := [9] }] ++
          List.replicate 65534 (.unsubscribe topicX {}) ++
          [.publish topicA (qos1Msg 0) { writes := [9] }])).listPubWaitAck.map
      (fun n => (n.block, n.msgId, n.nodeState)) = [(0, 1, .normal), (1, 1, .normal)] ∧
    (run IdOp.step connectedClient
        [.publish topicA { qos1Msg 7 with qos := 3 } { writes := [9] },
          .publish topicA { qos1Msg 7 with qos := 3 } { writes := [9] }]).listPubWaitAck.map
      (fun n => (n.block, n.msgId, n.nodeState)) = [(0, 7, .normal), (1, 7, .normal)] := by
  refine ⟨?_, by decide +kernel⟩
  rw [run_append, run_append, run_unsubscribe_topicX _ _ (by decide +kernel)]
  decide +kernel

end AliyunIot.Mqtt
