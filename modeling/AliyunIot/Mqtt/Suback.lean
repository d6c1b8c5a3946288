import AliyunIot.Mqtt.Cycle

/-!
# The outcome of a SUBACK

`iotx_mc_handle_recv_SUBACK` reads every return code, but sets its flag anew for each of them:
the last one decides, and only by being `0x80`. `suback_outcome_iff` says for which packets the
event is still the one that the codes ask for.
-/

namespace AliyunIot.Mqtt

open Lib

/-! ## What is asked -/

def IsGranted (code : UInt8) : Prop := code = 0 ∨ code = 1 ∨ code = 2

instance (code : UInt8) : Decidable (IsGranted code) := inferInstanceAs (Decidable (_ ∨ _))

def subackEvent (codes : List UInt8) : EventType :=
  if ∀ code ∈ codes, IsGranted code then .subscribeSuccess else .subscribeNack

namespace MqttPacket

def subackId (p : MqttPacket) : UInt16 := UInt16.ofNat (p.int16 0)

def subackCodes (p : MqttPacket) : List UInt8 := p.body.drop 2

/-- A SUBACK with no more return codes than the handler reads. -/
structure IsSuback (p : MqttPacket) : Prop where
  type : p.type = MsgType.suback.code
  room : 2 ≤ p.body.length
  codes : (p.subackCodes.length : Int) ≤ mutliSubscirbeMax

end MqttPacket

/-- An event is raised with a packet id: the records of the id get it, and the callback is
called with it. -/
structure Raises (c : Client) (packetId : UInt16) (eventType : EventType)
    (result : Int × Client × List Invocation) : Prop where
  records : result.2.1 = iotxMqttEventHandleSub c packetId eventType
  calls : result.2.2 = handleEvent c.handleEvent eventType (.packetId packetId)

def Awaited (c : Client) (packetId : UInt16) : Prop :=
  c.handleEvent.hFp ≠ none ∨ ∃ node ∈ c.listSubSyncAck, node.packetId = packetId.toNat

/-! ## The handler -/

theorem subackFailFlag_eq_one (codes : List UInt8) :
    subackFailFlag codes = 1 ↔ codes.getLast? = some 0x80 := by
  unfold subackFailFlag
  rcases List.eq_nil_or_concat' codes with rfl | ⟨init, last, rfl⟩
  · simp
  · rw [List.foldl_append, List.foldl_cons, List.foldl_nil, List.getLast?_concat, Option.some_inj]
    split
    · next h => exact iff_of_true rfl h
    · next h => exact iff_of_false (by decide) h

theorem subackLoop_within (buf : Mem) {maxcount : Int} {left : Nat} {granted : List UInt8}
    (h : (granted.length + left : Int) ≤ maxcount) (curdata : Nat) :
    (subackLoop buf maxcount left curdata granted).1 = 1 := by
  induction left generalizing curdata granted with
  | zero => rfl
  | succ left ih =>
    rw [subackLoop, if_neg (by omega)]
    exact ih (by rw [List.length_append, List.length_singleton]; omega) _

section
variable {c : Client} {p : MqttPacket} (h : Holds (memOf (c.bufRead.getD [])) 0 p.bytes)
  (hp : p.IsSuback) (stack : UInt16)
include h hp

theorem mqttDeserializeSuback_suback :
    mqttDeserializeSuback (memOf (c.bufRead.getD [])) mutliSubscirbeMax =
      ⟨1, some p.subackId, some p.subackCodes⟩ := by
  have hroom := hp.room
  have hcodes : ((p.body.length - 2 : Nat) : Int) ≤ mutliSubscirbeMax := by
    rw [← List.length_drop]
    exact hp.codes
  have hfit : (([] : List UInt8).length + (p.body.length - 2 : Nat) : Int) ≤ mutliSubscirbeMax := by
    rw [List.length_nil, Int.natCast_zero, Int.zero_add]
    exact hcodes
  have hrc := subackLoop_within (memOf (c.bufRead.getD [])) hfit (p.bodyStart + 2)
  have hgranted := subackLoop_eq _ _ _ _ _ hrc
  rw [slice_body h, List.nil_append] at hgranted
  rw [mqttDeserializeSuback_packet h, if_neg (not_not.mpr hp.type), if_neg (by omega)]
  simp only [hrc, hgranted]
  rfl

theorem iotxMcHandleRecvSuback_raises :
    Raises c p.subackId
      (if p.subackCodes.getLast? = some 0x80 then .subscribeNack else .subscribeSuccess)
      (iotxMcHandleRecvSuback c stack) := by
  unfold iotxMcHandleRecvSuback
  rw [mqttDeserializeSuback_suback h hp]
  simp only [Option.getD_some, subackFailFlag_eq_one, iotxMqttEventHandleSub]
  exact ⟨rfl, rfl⟩

end

theorem raises_unique {c : Client} {packetId : UInt16} {ev ev' : EventType}
    {result : Int × Client × List Invocation} (h : Raises c packetId ev result) :
    Raises c packetId ev' result ↔ (Awaited c packetId → ev = ev') := by
  constructor
  · intro h' hawaited
    rcases hawaited with hfp | ⟨node, hnode, hid⟩
    · have hcalls := h.calls.symm.trans h'.calls
      simp only [handleEvent, if_neg hfp, List.cons.injEq, Invocation.mk.injEq] at hcalls
      exact hcalls.1.2.1
    · have hrecords := congrArg Client.listSubSyncAck (h.records.symm.trans h'.records)
      have hnodes := List.map_inj_left.mp hrecords node hnode
      rw [if_pos hid, if_pos hid] at hnodes
      exact congrArg SubSyncNode.ackType hnodes
  · intro hsame
    by_cases hawaited : Awaited c packetId
    · exact hsame hawaited ▸ h
    · obtain ⟨hfp, hnodes⟩ := not_or.mp hawaited
      have hmap (ev : EventType) : iotxMqttEventHandleSub c packetId ev = c := by
        have hself : c.listSubSyncAck.map (fun node =>
            if node.packetId = packetId.toNat then { node with ackType := ev } else node) =
              c.listSubSyncAck := by
          refine (List.map_congr_left fun node hnode => ?_).trans (List.map_id _)
          exact if_neg fun hid => hnodes ⟨node, hnode, hid⟩
        rw [iotxMqttEventHandleSub, hself]
      have hcalls (ev : EventType) : handleEvent c.handleEvent ev (.packetId packetId) = [] :=
        if_pos (not_not.mp hfp)
      exact ⟨by rw [h.records, hmap, hmap], by rw [h.calls, hcalls, hcalls]⟩

/-- The event is the one that the codes ask for exactly when all of them grant a QoS or the last
one is `0x80`, or when nobody is told. -/
theorem suback_outcome_iff {c : Client} {p : MqttPacket}
    (h : Holds (memOf (c.bufRead.getD [])) 0 p.bytes) (hp : p.IsSuback) (stack : UInt16) :
    Raises c p.subackId (subackEvent p.subackCodes) (iotxMcHandleRecvSuback c stack) ↔
      (Awaited c p.subackId →
        (∀ code ∈ p.subackCodes, IsGranted code) ∨ p.subackCodes.getLast? = some 0x80) := by
  rw [raises_unique (iotxMcHandleRecvSuback_raises h hp stack)]
  refine imp_congr_right fun _ => ?_
  unfold subackEvent
  by_cases hlast : p.subackCodes.getLast? = some 0x80
  · have hnot : ¬ ∀ code ∈ p.subackCodes, IsGranted code := fun hall =>
      absurd (hall _ (List.mem_of_getLast? hlast)) (by decide)
    rw [if_pos hlast, if_neg hnot]
    exact iff_of_true rfl (.inr hlast)
  · rw [if_neg hlast, or_iff_left hlast]
    split
    · next hall => exact iff_of_true rfl hall
    · next hall => exact iff_of_false nofun hall

/-- `90 04 00 01 80 00`: the first of two filters is refused. -/
def firstRefused : MqttPacket := ⟨0x90, [4], [0, 1, 0x80, 0], by decide, by decide, rfl⟩

/-- `90 04 00 01 00 80`: the second one is. -/
def secondRefused : MqttPacket := ⟨0x90, [4], [0, 1, 0, 0x80], by decide, by decide, rfl⟩

def receivedClient (p : MqttPacket) : Client :=
  { connectedClient with bufRead := some p.bytes, handleEvent := ⟨some 1, 0⟩ }

theorem suback_outcome_secondRefused :
    Raises (receivedClient secondRefused) 1 .subscribeNack
      (iotxMcHandleRecvSuback (receivedClient secondRefused) 0) :=
  (suback_outcome_iff (c := receivedClient secondRefused) (p := secondRefused) (holds_memOf _)
    ⟨by decide, by decide, by decide⟩ 0).mpr fun _ => .inr (by decide)

/-- The refusal of the first filter is reported as success. -/
theorem suback_refusal_lost :
    (0x80 : UInt8) ∈ firstRefused.subackCodes ∧ firstRefused.IsSuback ∧
    (iotxMcHandleRecvSuback (receivedClient firstRefused) 0).2.2 =
      [⟨⟨some 1, 0⟩, .subscribeSuccess, .packetId 1⟩] ∧
    ¬ Raises (receivedClient firstRefused) firstRefused.subackId
      (subackEvent firstRefused.subackCodes)
      (iotxMcHandleRecvSuback (receivedClient firstRefused) 0) := by
  refine ⟨by decide, ⟨by decide, by decide, by decide⟩, by decide, fun h => ?_⟩
  have hcalls := h.calls
  revert hcalls
  decide

end AliyunIot.Mqtt
