import AliyunIot.Mqtt.ReadPacket
import AliyunIot.Mqtt.PubWait
import AliyunIot.Mqtt.Subscribe

/-!
# The receive cycle

`iotx_mc_cycle` reads one packet and hands it to the handler of its type. It
leaves the connected state only for `STATE_SYS_DEPEND_NWK_CLOSE`, so a read that
stops inside a packet with another code leaves the rest of that packet to the
next cycle.

`Conn.step_framed` is the step and `cycle_framed` the run: while no read stops
inside a packet, what has been consumed of the connection is a whole number of
packets.
-/

namespace AliyunIot.Mqtt

open Lib

/-! ## SUBACK and UNSUBACK -/

abbrev mutliSubscirbeMax : Int := 5

/-- `_iotx_mqtt_event_handle_sub`: every record of the packet id gets the event type. -/
def iotxMqttEventHandleSub (c : Client) (packetId : UInt16) (eventType : EventType) : Client :=
  { c with
    listSubSyncAck := c.listSubSyncAck.map fun node =>
      if node.packetId = packetId.toNat then { node with ackType := eventType } else node }

/-- `fail_flag` after the loop over the granted QoSs: the last one decides. -/
def subackFailFlag (grantedQoS : List UInt8) : Int :=
  grantedQoS.foldl (fun _ qos => if qos = 0x80 then 1 else 0) (-1)

/-- `iotx_mc_handle_recv_SUBACK`; `stack` is the packet id when none was assigned. -/
def iotxMcHandleRecvSuback (c : Client) (stack : UInt16) : Int × Client × List Invocation :=
  let out := mqttDeserializeSuback (memOf (c.bufRead.getD [])) mutliSubscirbeMax
  if out.rc < 0 then (State.mqttDeserializeSubackError, c, [])
  else
    let mypacketid := out.packetid.getD stack
    let eventType : EventType :=
      if subackFailFlag (out.grantedQoSs.getD []) = 1 then .subscribeNack else .subscribeSuccess
    let c := iotxMqttEventHandleSub c mypacketid eventType
    (State.success, c, handleEvent c.handleEvent eventType (.packetId mypacketid))

/-- `iotx_mc_handle_recv_UNSUBACK`; the packet id is `0` when none was assigned. -/
def iotxMcHandleRecvUnsuback (c : Client) : Int × Client × List Invocation :=
  let (rc, packetid) := mqttDeserializeUnsuback (memOf (c.bufRead.getD []))
  if rc ≠ 1 then (State.mqttDeserializeUnsubackError, c, [])
  else
    (State.success, c,
      handleEvent c.handleEvent .unsubscribeSuccess (.packetId (packetid.getD 0)))

/-! ## `iotx_mc_cycle` -/

abbrev iotxMcKeepaliveProbeMax : Nat := 2

/-- What a cycle cannot decide: allocations, read results, the stack of the
acknowledgement handlers, and the answer to a PUBLISH. -/
structure CycleIo where
  read : ReadIo := {}
  reads : List Recv := []
  stack : UInt16 := 0
  publish : RecvPublishIo := {}

structure CycleResult where
  rc : Int
  client : Client
  sock : Sock
  calls : List Call := []

/-- The `switch` over the packet type: result, client and calls, `none` for a
type that no handler takes. -/
def dispatch (c : Client) (packetType : UInt8) (io : CycleIo) :
    Option (Int × Client × List Call) :=
  if packetType = MsgType.connack.code then some (State.success, c, [])
  else if packetType = MsgType.puback.code then
    let (rc, c, calls) := iotxMcHandleRecvPuback c io.stack
    some (rc, c, calls.map .event)
  else if packetType = MsgType.suback.code then
    let (rc, c, calls) := iotxMcHandleRecvSuback c io.stack
    some (rc, c, calls.map .event)
  else if packetType = MsgType.publish.code then some (iotxMcHandleRecvPublish c io.publish)
  else if packetType = MsgType.unsuback.code then
    let (rc, c, calls) := iotxMcHandleRecvUnsuback c
    some (rc, c, calls.map .event)
  else if packetType = MsgType.pingresp.code then some (State.success, c, [])
  else none

def iotxMcCycle (c : Client) (io : CycleIo) (s : Sock) : CycleResult :=
  if c.clientState ≠ .connected then ⟨State.mqttInOfflineStatus, c, s, []⟩
  else if iotxMcKeepaliveProbeMax < c.keepaliveProbes then
    ⟨State.mqttInOfflineStatus,
      { iotxMcSetClientState c .disconnected with keepaliveProbes := 0 }, s, []⟩
  else
    let r := iotxMcReadPacket c io.read s
    let calls := r.calls.map .event
    if r.rc ≠ State.success then
      let c := resetRecvBuffer r.client
      -- the only code that gives the connection up
      let c := if r.rc = State.sysDependNwkClose then iotxMcSetClientState c .disconnected else c
      ⟨State.sysDependNwkClose, c, r.sock, calls⟩
    else
      let packetType := r.packetType.getD 0
      if packetType = MsgType.mqttCptReserved.code then
        ⟨State.success, resetRecvBuffer r.client, r.sock, calls⟩
      else
        let c := { r.client with keepaliveProbes := 0 }
        match dispatch c packetType io with
        | none => ⟨State.mqttRecvUnknownPacket, resetRecvBuffer c, r.sock, calls⟩
        | some (rc, c, calls') => ⟨rc, resetRecvBuffer c, r.sock, calls ++ calls'⟩

/-! ## Runs -/

def Framed (bytes : List UInt8) : Prop :=
  ∃ ps : List MqttPacket, bytes = ps.flatMap MqttPacket.bytes

theorem framed_nil : Framed [] := ⟨[], rfl⟩

theorem Framed.append_packet {bytes : List UInt8} (h : Framed bytes) (p : MqttPacket) :
    Framed (bytes ++ p.bytes) := by
  obtain ⟨ps, rfl⟩ := h
  exact ⟨ps ++ [p], by rw [List.flatMap_append, List.flatMap_singleton]⟩

structure Conn where
  client : Client
  consumed : List UInt8

namespace Conn

def step (s : Conn) (io : CycleIo) : Conn :=
  let r := iotxMcCycle s.client io ⟨io.reads, s.consumed⟩
  ⟨r.client, r.sock.consumed⟩

/-- If the cycle reads a packet, the fixed header fits the read buffer, and the
read results do not make it stop inside the packet. -/
def ReadsWhole (s : Conn) (io : CycleIo) : Prop :=
  s.client.clientState = .connected → s.client.keepaliveProbes ≤ iotxMcKeepaliveProbeMax →
    io.read.bufMalloc = true → HeaderFits s.client.bufSizeReadMax io.reads ∧
      ¬ StopsInside s.client.bufSizeReadMax io.read io.reads

/-- While connected, whole packets have been consumed. -/
def Sync (s : Conn) : Prop := s.client.clientState = .connected → Framed s.consumed

end Conn

theorem iotxMcReadPacket_noMemory {c : Client} {io : ReadIo} (h : io.bufMalloc ≠ true) (s : Sock) :
    (iotxMcReadPacket c io s).sock = s := by
  unfold iotxMcReadPacket
  rcases allocRecvBuffer_cases c 0 io.bufMalloc with ⟨-, e⟩ | ⟨hm, -⟩
  · rw [e]; rfl
  · exact absurd hm h

theorem iotxMcCycle_sock {c : Client} (io : CycleIo) (s : Sock) (hs : c.clientState = .connected)
    (hk : c.keepaliveProbes ≤ iotxMcKeepaliveProbeMax) :
    (iotxMcCycle c io s).sock = (iotxMcReadPacket c io.read s).sock := by
  simp only [iotxMcCycle, if_neg (not_not_intro hs), if_neg (Nat.not_lt.mpr hk)]
  split
  · rfl
  split
  · rfl
  split <;> rfl

theorem iotxMcCycle_closed {c : Client} {io : CycleIo} {s : Sock} (hs : c.clientState = .connected)
    (hk : c.keepaliveProbes ≤ iotxMcKeepaliveProbeMax)
    (hrc : (iotxMcReadPacket c io.read s).rc = State.sysDependNwkClose) :
    (iotxMcCycle c io s).client.clientState = .disconnected := by
  have hne : (iotxMcReadPacket c io.read s).rc ≠ State.success := hrc ▸ (by decide)
  simp only [iotxMcCycle, if_neg (not_not_intro hs), if_neg (Nat.not_lt.mpr hk), if_pos hne,
    if_pos hrc]
  rfl

namespace Conn

theorem step_framed {s : Conn} {io : CycleIo} (hio : ReadsWhole s io) (h : Sync s) :
    Sync (step s io) := by
  by_cases hs : s.client.clientState = .connected
  swap
  · simp only [step, iotxMcCycle, if_pos hs]
    exact fun hc => absurd hc hs
  by_cases hk : s.client.keepaliveProbes ≤ iotxMcKeepaliveProbeMax
  swap
  · simp only [step, iotxMcCycle, if_neg (not_not_intro hs), if_pos (Nat.lt_of_not_le hk)]
    exact fun hc => absurd hc (show McState.disconnected ≠ .connected by decide)
  intro hc
  show Framed (iotxMcCycle s.client io ⟨io.reads, s.consumed⟩).sock.consumed
  rw [iotxMcCycle_sock io _ hs hk]
  by_cases hm : io.read.bufMalloc = true
  swap
  · rw [iotxMcReadPacket_noMemory hm]
    exact h hs
  obtain ⟨hfit, hstop⟩ := hio hs hk hm
  rcases iotxMcReadPacket_outcome io.read (s := ⟨io.reads, s.consumed⟩) hfit with
    hrc | ⟨hcons, -⟩ | ⟨p, hcons, -⟩ | ⟨-, -, hst⟩
  · have hd : (step s io).client.clientState = .disconnected := iotxMcCycle_closed hs hk hrc
    rw [hd] at hc
    exact absurd hc (by decide)
  · rw [hcons]
    exact h hs
  · rw [hcons]
    exact (h hs).append_packet p
  · exact absurd hst hstop

end Conn

/-- In every run of cycles whose reads find room for the fixed header and do
not stop inside a packet, a connected client has consumed a whole number of
packets of its connection. A read that succeeds with a packet type has consumed
one packet of that type, and the read buffer holds it. -/
theorem cycle_framed {s₀ : Conn} (h₀ : Framed s₀.consumed) (ios : List CycleIo)
    (hios : Meets Conn.step Conn.ReadsWhole s₀ ios) : let s := run Conn.step s₀ ios
    (s.client.clientState = .connected → Framed s.consumed) ∧
    ∀ (io : ReadIo) (reads : List Recv), HeaderFits s.client.bufSizeReadMax reads →
      let r := iotxMcReadPacket s.client io ⟨reads, s.consumed⟩
      r.rc = State.success → ∀ t, r.packetType = some t → t ≠ 0 →
        ∃ p : MqttPacket, r.sock.consumed = s.consumed ++ p.bytes ∧ t = p.type ∧
          Buffered p r.client := by
  intro s
  refine ⟨run_invariant_of_meets (I := Conn.Sync) (fun _ _ hio h => Conn.step_framed hio h) hios
    (fun _ => h₀), fun io reads hfit => ?_⟩
  intro r hrc t ht hne
  rcases iotxMcReadPacket_outcome io (s := ⟨reads, s.consumed⟩) hfit with
    hcl | ⟨-, htype⟩ | ⟨p, hcons, hbuf⟩ | ⟨hin, -, -⟩
  · exact absurd (hcl.symm.trans hrc) (by decide)
  · exact absurd (htype t ht) hne
  · exact ⟨p, hcons, hbuf t ht hne⟩
  · exact absurd hrc hin

/-! ## A short body -/

theorem not_framed {header n : UInt8} {rest : List UInt8} (hn : n.toNat < 128)
    (hrest : rest.length < n.toNat) : ¬ Framed (header :: n :: rest) := by
  rintro ⟨ps, h⟩
  rcases ps with _ | ⟨⟨header', field, body, hfield, _, hvalue⟩, ps⟩
  · cases h
  rcases field with _ | ⟨b, field⟩
  · exact hfield
  simp only [List.flatMap_cons, MqttPacket.bytes, List.cons_append, List.cons.injEq] at h
  obtain ⟨-, rfl, hrest'⟩ := h
  by_cases hne : field = []
  · subst hne
    have hlen := congrArg List.length hrest'
    simp only [List.nil_append, List.length_append, ← hvalue, Varint.value] at hlen
    omega
  · have := ((Varint.isField_cons hne).mp hfield).1
    omega

/-- The broker sends a QoS 0 PUBLISH to `/a` with the payload `40 02 00 01`. The
read of its body times out after four bytes, the next cycle finds the others. -/
def shortBodyIo : CycleIo :=
  { reads := [.data [0x30], .data [0x08], .data [0x00, 0x02, 0x2f, 0x61]] }

def payloadIo : CycleIo := { reads := [.data [0x40], .data [0x02], .data [0x00, 0x01]] }

/-- A connected client that waits for the PUBACK of identifier 1. -/
def waitingConn : Conn :=
  ⟨{ connectedClient with listPubWaitAck := [⟨0, .normal, 1, []⟩], heapNext := 1 }, []⟩

/-- The client stays connected inside the packet, and takes the payload for a
PUBACK. -/
theorem cycle_not_framed : let s := waitingConn.step shortBodyIo
    s.client.clientState = .connected ∧ s.consumed = [0x30, 0x08, 0x00, 0x02, 0x2f, 0x61] ∧
      ¬ Framed s.consumed ∧
      (s.step payloadIo).client.listPubWaitAck = [⟨0, .invalid, 1, []⟩] := by
  have h : (waitingConn.step shortBodyIo).consumed = [0x30, 0x08, 0x00, 0x02, 0x2f, 0x61] := by
    decide +kernel
  refine ⟨by decide +kernel, h, ?_, by decide +kernel⟩
  rw [h]
  exact not_framed (by decide) (by decide)

def pingrespIo : CycleIo := { reads := [.data [0xD0], .data [0x00]] }

theorem pingresp_fixedHeader {header : UInt8} {field : List UInt8} {rest : List Recv}
    (h : Sock.Gives pingrespIo.reads (header :: field) rest) : field = [] ∨ field = [0] := by
  cases h with
  | cons h =>
    cases h with
    | nil => exact .inl rfl
    | cons h =>
      cases h with
      | nil => exact .inr rfl

theorem pingresp_readsWhole (s : Conn) (hmax : s.client.bufSizeReadMax = 1024) :
    s.ReadsWhole pingrespIo := by
  intro _ _ _
  have hvalue : ∀ {header field rest}, FixedHeader pingrespIo.reads header field rest →
      Varint.value field = 0 := fun h => by
    rcases pingresp_fixedHeader h.gives with rfl | rfl <;> rfl
  refine ⟨fun header field rest h => ?_, fun hstop => ?_⟩
  · rw [hvalue h, hmax]
    decide +kernel
  · cases hstop with
    | badLength gives length _ =>
      rcases pingresp_fixedHeader gives with rfl | rfl <;> exact absurd length (by decide)
    | noMemory fixed pos _ => exact absurd pos (by rw [hvalue fixed]; decide)
    | shortBody fixed _ _ short =>
      exact absurd short (by rw [hvalue fixed]; exact Nat.not_lt_zero _)
    | shortDrain fixed pos _ _ => exact absurd pos (by rw [hvalue fixed]; decide)

theorem cycle_framed_pingresp :
    (run Conn.step waitingConn [pingrespIo]).client.clientState = .connected ∧
    (run Conn.step waitingConn [pingrespIo]).consumed = [0xD0, 0x00] ∧
    Framed (run Conn.step waitingConn [pingrespIo]).consumed := by
  have hc : (run Conn.step waitingConn [pingrespIo]).client.clientState = .connected := by
    decide +kernel
  exact ⟨hc, by decide +kernel, (@cycle_framed waitingConn framed_nil [pingrespIo]
    ⟨pingresp_readsWhole _ rfl, trivial⟩).1 hc⟩

end AliyunIot.Mqtt
