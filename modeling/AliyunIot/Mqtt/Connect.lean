import AliyunIot.Mqtt.Cycle

/-!
# Connecting and keeping the connection alive

`_mqtt_connect` doubles the keep-alive for the CONNECT and puts the configured value back behind
`MQTTConnect`, inside the loop that may send a second one. The ping timer and later reconnects
read the field again.

`oneKeepalive_iff` holds for every run of connections, reconnections and pings: the field and the
ping period stay as configured, and the announced keep-alive is the doubled one as long as no
second CONNECT goes out.
-/

namespace AliyunIot.Mqtt

open Lib

/-! ## `iotx_mc_set_connect_params` -/

abbrev configMqttKeepaliveInterval : UInt16 := 60
abbrev configMqttKeepaliveIntervalMin : UInt16 := 30
abbrev configMqttKeepaliveIntervalMax : UInt16 := 1200

def configuredKeepAlive (interval : UInt16) : UInt16 :=
  if interval < configMqttKeepaliveIntervalMin then configMqttKeepaliveInterval
  else if interval > configMqttKeepaliveIntervalMax then configMqttKeepaliveInterval
  else interval

def iotxMcSetConnectParams (c : Client) (connectParams : ConnectData) : Client :=
  { c with
    connectData :=
      { connectParams with
        keepAliveInterval := configuredKeepAlive connectParams.keepAliveInterval } }

/-! ## `MQTTConnect` -/

def Serialized.bytes (r : Serialized) : List UInt8 :=
  (List.range r.rc.toNat).map fun i => (r.mem i).getD 0

/-- One round of `_mqtt_connect`: what decides `MQTTConnect`, and the code that
`iotx_mc_wait_CONNACK` returns if it is called. -/
structure ConnectTry where
  bufMalloc : Bool := true
  writes : List Int := []
  connack : Int := State.success

/-- The result of `MQTTConnect`; `packet` is the CONNECT that was sent. -/
structure ConnectResult where
  rc : Int
  client : Client
  packet : List UInt8 := []

def mqttConnect (c : Client) (io : ConnectTry) : ConnectResult :=
  let len := mqttPacketLen (mqttSerializeConnectLength c.connectData)
  let (res, c) := allocSendBuffer c len io.bufMalloc
  if res < State.success then ⟨res, c, []⟩
  else
    let r := mqttSerializeConnect c.bufSizeSend c.connectData
    let c := { c with bufSend := c.bufSend.map (storeInto · r.mem) }
    if r.rc ≤ 0 then ⟨State.mqttSerializeConnError, resetSendBuffer c, []⟩
    else
      let res := iotxMcSendPacket r.rc io.writes
      if res < State.success then ⟨res, resetSendBuffer c, []⟩
      else ⟨State.success, resetSendBuffer c, r.bytes⟩

/-! ## `_mqtt_connect` -/

abbrev retryTimeLimit : Nat := 8 + 1

/-- `rc <= STATE_MQTT_CONNACK_VERSION_UNACCEPT && rc >= STATE_MQTT_CONNACK_NOT_AUTHORIZED`. -/
def IsReject (rc : Int) : Prop :=
  rc ≤ State.mqttConnackVersionUnaccept ∧ rc ≥ State.mqttConnackNotAuthorized

instance (rc : Int) : Decidable (IsReject rc) := inferInstanceAs (Decidable (_ ∧ _))

/-- How the rounds end; `sent` are the CONNECTs that went out. -/
structure ConnectRounds where
  rc : Int
  client : Client
  sent : List (List UInt8)

/-- `pClient->connect_data.keepAliveInterval = interval`. -/
def setKeepAliveInterval (c : Client) (interval : UInt16) : Client :=
  { c with connectData := { c.connectData with keepAliveInterval := interval } }

/-- The loop of `_mqtt_connect` with so many rounds left. -/
def connectLoop (userKeepAliveInterval : UInt16) :
    Nat → (Nat → ConnectTry) → Client → ConnectRounds
  | 0, _, c => ⟨State.mqttConnRetryExceedMax, c, []⟩
  | left + 1, tries, c =>
    let r := mqttConnect c (tries 0)
    let c := setKeepAliveInterval r.client userKeepAliveInterval
    if r.rc < State.success then ⟨r.rc, c, []⟩
    else
      let rc := (tries 0).connack
      let c := resetRecvBuffer c
      if IsReject rc then ⟨rc, c, [r.packet]⟩
      else if rc ≠ State.success then
        let next := connectLoop userKeepAliveInterval left (fun i => tries (i + 1)) c
        { next with sent := r.packet :: next.sent }
      else ⟨State.success, c, [r.packet]⟩

/-- The keep-alive of the first CONNECT: twice the configured one, within the maximum. -/
def doubledKeepAlive (interval : UInt16) : UInt16 :=
  if interval * 2 > configMqttKeepaliveIntervalMax then configMqttKeepaliveIntervalMax
  else interval * 2

/-- The client with its timers, and the CONNECTs that it has sent. `nextPingTime` and
`reconnectNextTime` are the milliseconds that the timers were last started with. -/
structure Link where
  client : Client
  nextPingTime : Option Nat := none
  reconnectTimeIntervalMs : Nat := 0
  reconnectNextTime : Option Nat := none
  wire : List (List UInt8) := []

namespace Link

/-- `utils_time_countdown_ms(&next_ping_time, keepAliveInterval * 1000)`. -/
def startPingTimer (s : Link) : Link :=
  { s with nextPingTime := some (s.client.connectData.keepAliveInterval.toNat * 1000) }

def mqttConnect (s : Link) (tries : Nat → ConnectTry) : Int × Link :=
  let userKeepAliveInterval := s.client.connectData.keepAliveInterval
  let c := setKeepAliveInterval s.client (doubledKeepAlive userKeepAliveInterval)
  let r := connectLoop userKeepAliveInterval (retryTimeLimit - 1) tries c
  let s := { s with client := r.client, wire := s.wire ++ r.sent }
  if r.rc ≠ State.success then (r.rc, s)
  else
    let c := { s.client with keepaliveProbes := 0 }
    (State.success, startPingTimer { s with client := iotxMcSetClientState c .connected })

/-- `wrapper_mqtt_connect` up to its receive cycles; `nwk` is what `_mqtt_nwk_connect` returns. -/
def wrapperMqttConnect (s : Link) (nwk : Int) (tries : Nat → ConnectTry) : Int × Link :=
  if nwk ≠ State.success then (nwk, s) else s.mqttConnect tries

end Link

/-! ## Pings and reconnections -/

def mqttSerializePingreq (buflen : Int) : Serialized :=
  if buflen < 2 then ⟨State.mqttpacketBufferTooShort, Cursor.start.mem⟩
  else
    let ptr := Cursor.start.put (mqttHeaderSetType 0 .pingreq)
    let ptr := ptr.puts (mqttPacketEncode 0)
    ⟨ptr.ptr, ptr.mem⟩

/-- What decides a call of `iotx_mc_keepalive`: whether the two timers have expired, the ping's
allocation and writes, and the rounds of a reconnection. -/
structure KeepaliveIo where
  pingExpired : Bool := false
  bufMalloc : Bool := true
  writes : List Int := []
  reconnectExpired : Bool := false
  tries : Nat → ConnectTry := fun _ => {}

def mqttKeepalive (c : Client) (io : KeepaliveIo) : Int × Client :=
  let (rc, c) := allocSendBuffer c 0 io.bufMalloc
  if rc < State.success then (rc, c)
  else
    let r := mqttSerializePingreq c.bufSizeSend
    let c := { c with bufSend := c.bufSend.map (storeInto · r.mem) }
    if r.rc ≤ 0 then (State.mqttSerializePingreqError, resetSendBuffer c)
    else if iotxMcSendPacket r.rc io.writes < State.success then
      (State.sysDependNwkClose, resetSendBuffer c)
    else (State.success, resetSendBuffer c)

abbrev iotxMcReconnectIntervalMinMs : Nat := 1000
abbrev iotxMcReconnectIntervalMaxMs : Nat := 30000

namespace Link

def iotxMcKeepaliveSub (s : Link) (io : KeepaliveIo) : Int × Link :=
  if !wrapperMqttCheckState s.client then (State.success, s)
  else if !io.pingExpired then (State.success, s)
  else
    let s := s.startPingTimer
    let (rc, c) := mqttKeepalive s.client io
    if rc < State.success then
      let c := if rc = State.sysDependNwkClose then iotxMcSetClientState c .disconnected else c
      (rc, { s with client := c })
    else (State.success, { s with client := { c with keepaliveProbes := c.keepaliveProbes + 1 } })

/-- `iotx_mc_attempt_reconnect`: the code of `_mqtt_nwk_connect` is ignored. -/
def iotxMcAttemptReconnect (s : Link) (io : KeepaliveIo) : Int × Link := s.mqttConnect io.tries

/-- The interval after a failed reconnection: twice as long, within the maximum. -/
def backOff (s : Link) : Link :=
  let interval :=
    if iotxMcReconnectIntervalMaxMs > s.reconnectTimeIntervalMs then s.reconnectTimeIntervalMs * 2
    else iotxMcReconnectIntervalMaxMs
  { s with
    reconnectTimeIntervalMs := interval
    reconnectNextTime := some (min iotxMcReconnectIntervalMaxMs interval) }

def iotxMcHandleReconnect (s : Link) (io : KeepaliveIo) : Int × Link :=
  if !io.reconnectExpired then (State.mqttWaitReconnTimer, s)
  else
    let (rc, s) := s.iotxMcAttemptReconnect io
    if rc = State.success then
      (State.success, { s with client := iotxMcSetClientState s.client .connected })
    else if rc = State.mqttAsyncStackConnInProg then (rc, s)
    else (rc, s.backOff)

def iotxMcKeepalive (s : Link) (io : KeepaliveIo) : Link :=
  let s := (s.iotxMcKeepaliveSub io).2
  let currentState := s.client.clientState
  if currentState = .disconnectedReconnecting ∨ currentState = .connectBlock then
    let (rc, s) := s.iotxMcHandleReconnect io
    if rc < State.success then s
    else { s with reconnectTimeIntervalMs := iotxMcReconnectIntervalMinMs }
  else if currentState = .disconnected then
    { s with
      client := iotxMcSetClientState s.client .disconnectedReconnecting
      reconnectTimeIntervalMs := iotxMcReconnectIntervalMinMs
      reconnectNextTime := some iotxMcReconnectIntervalMinMs }
  else s

end Link

/-! ## What is asked -/

/-- The keep-alive field of a CONNECT packet: behind header, remaining length, protocol name,
level and flags. -/
def connectKeepAlive (packet : List UInt8) : Nat :=
  let body := (packet.tail.dropWhile fun b => 128 ≤ b.toNat).tail
  readInt (memOf body) (2 + readInt (memOf body) 0 + 2)

/-- The operations on a connection: the first one, a call of `iotx_mc_keepalive`, and whatever
the rest of the client does, which leaves `connect_data` alone. -/
inductive LinkOp where
  | connect (nwk : Int) (tries : Nat → ConnectTry)
  | keepalive (io : KeepaliveIo)
  | other (client : Client)

/-- A first CONNECT that is sent is accepted or rejected, or the second one cannot be sent. -/
def SendsOnce (c : Client) (tries : Nat → ConnectTry) : Prop :=
  (mqttConnect c (tries 0)).rc = State.success → ¬ IsReject (tries 0).connack →
    (tries 0).connack ≠ State.success → (mqttConnect c (tries 1)).rc ≠ State.success

namespace Link

def step (s : Link) : LinkOp → Link
  | .connect nwk tries => (s.wrapperMqttConnect nwk tries).2
  | .keepalive io => s.iotxMcKeepalive io
  | .other client => { s with client := { client with connectData := s.client.connectData } }

/-- The field and the ping period are the configured ones, and no CONNECT has announced less. -/
structure Steady (interval : UInt16) (s : Link) : Prop where
  field : s.client.connectData.keepAliveInterval = interval
  ping : ∀ period, s.nextPingTime = some period → period = interval.toNat * 1000
  within : ∀ packet ∈ s.wire, interval.toNat ≤ connectKeepAlive packet

/-- Every CONNECT has announced twice the configured keep-alive, within the maximum. -/
def OneKeepAlive (interval : UInt16) (s : Link) : Prop :=
  ∀ packet ∈ s.wire, connectKeepAlive packet =
    min (2 * interval.toNat) configMqttKeepaliveIntervalMax.toNat

/-- The rounds that an operation goes through, if any. -/
def rounds (s : Link) : LinkOp → Option (Nat → ConnectTry)
  | .connect nwk tries => if nwk = State.success then some tries else none
  | .keepalive io =>
    let state := s.client.clientState
    if (state = .disconnectedReconnecting ∨ state = .connectBlock) ∧ io.reconnectExpired then
      some io.tries
    else none
  | .other _ => none

/-- No connection attempt sends a second CONNECT. -/
def SentOnce (s : Link) (op : LinkOp) : Prop :=
  ∀ tries, s.rounds op = some tries → SendsOnce s.client tries

end Link

/-! ## The announced keep-alive -/

theorem dropWhile_field {bs : List UInt8} (h : Varint.IsField bs) (rest : List UInt8) :
    ((bs ++ rest).dropWhile fun b => decide (128 ≤ b.toNat)).tail = rest := by
  induction bs with
  | nil => exact h.elim
  | cons b bs ih =>
    by_cases hbs : bs = []
    · subst hbs
      have hb : ¬ 128 ≤ b.toNat := Nat.not_le.mpr h
      rw [List.cons_append, List.dropWhile_cons_of_neg (by rw [decide_eq_true_eq]; exact hb)]
      rfl
    · obtain ⟨hb, hfield⟩ := (Varint.isField_cons hbs).mp h
      rw [List.cons_append, List.dropWhile_cons_of_pos (by rw [decide_eq_true_eq]; exact hb)]
      exact ih hfield

theorem connectKeepAlive_packetBytes (header : UInt8) (remLen : Nat) (options : ConnectData) :
    connectKeepAlive (packetBytes header remLen (connectBody options)) =
      options.keepAliveInterval.toNat := by
  have hbody : ((packetBytes header remLen (connectBody options)).tail.dropWhile
      fun b => decide (128 ≤ b.toNat)).tail = connectBody options := by
    rw [packetBytes, List.tail_cons, mqttPacketEncode_eq]
    exact dropWhile_field (Varint.isField_encode remLen) _
  have hread := be16_read options.keepAliveInterval.toNat (by
    have := options.keepAliveInterval.toNat_lt
    omega)
  unfold connectKeepAlive
  simp only [hbody]
  refine Eq.trans ?_ hread
  unfold connectBody protocolBytes
  split <;> rfl

theorem bytes_serializePacket {buflen : Int} {remLen : Nat} {header : UInt8}
    {writeBody : Cursor → Cursor} {body : List UInt8} (hw : ∀ c, writeBody c = c.puts body)
    (h : 0 < (serializePacket buflen remLen header writeBody).rc) :
    (serializePacket buflen remLen header writeBody).bytes = packetBytes header remLen body := by
  rcases serializePacket_cases buflen remLen header hw with ⟨-, e⟩ | ⟨-, e⟩
  · rw [e] at h
    exact absurd h (by decide)
  · rw [e]
    unfold Serialized.bytes
    simp only [Int.toNat_natCast, Cursor.start_puts_mem]
    apply List.ext_getElem
    · rw [List.length_map, List.length_range]
    · intro i hi hi'
      rw [List.getElem_map, List.getElem_range, List.getElem?_eq_getElem hi', Option.getD_some]

section
variable (c : Client) (len : Nat) (ok : Bool) (io : ConnectTry)

theorem allocSendBuffer_connectData : (allocSendBuffer c len ok).2.connectData = c.connectData := by
  unfold allocSendBuffer; cases ok <;> rfl

theorem allocSendBuffer_bufSizeSendMax :
    (allocSendBuffer c len ok).2.bufSizeSendMax = c.bufSizeSendMax := by
  unfold allocSendBuffer; cases ok <;> rfl

theorem resetSendBuffer_connectData : (resetSendBuffer c).connectData = c.connectData := by
  unfold resetSendBuffer; split <;> rfl

theorem resetSendBuffer_bufSizeSendMax : (resetSendBuffer c).bufSizeSendMax = c.bufSizeSendMax := by
  unfold resetSendBuffer; split <;> rfl

theorem resetRecvBuffer_connectData : (resetRecvBuffer c).connectData = c.connectData := by
  unfold resetRecvBuffer; split <;> rfl

theorem resetRecvBuffer_bufSizeSendMax : (resetRecvBuffer c).bufSizeSendMax = c.bufSizeSendMax := by
  unfold resetRecvBuffer; split <;> rfl

theorem mqttConnect_connectData : (mqttConnect c io).client.connectData = c.connectData := by
  unfold mqttConnect
  simp only
  (repeat' split) <;> simp only [resetSendBuffer_connectData, allocSendBuffer_connectData]

theorem mqttConnect_bufSizeSendMax :
    (mqttConnect c io).client.bufSizeSendMax = c.bufSizeSendMax := by
  unfold mqttConnect
  simp only
  (repeat' split) <;> simp only [resetSendBuffer_bufSizeSendMax, allocSendBuffer_bufSizeSendMax]

end

theorem mqttConnect_cases (c : Client) (io : ConnectTry) :
    (mqttConnect c io).rc < State.success ∨
    ((mqttConnect c io).rc = State.success ∧
      connectKeepAlive (mqttConnect c io).packet = c.connectData.keepAliveInterval.toNat) := by
  unfold mqttConnect
  simp only
  have hdata := allocSendBuffer_connectData c (mqttPacketLen (mqttSerializeConnectLength
    c.connectData)) io.bufMalloc
  generalize allocSendBuffer c (mqttPacketLen (mqttSerializeConnectLength c.connectData))
    io.bufMalloc = a at hdata ⊢
  obtain ⟨res, c'⟩ := a
  simp only at hdata ⊢
  by_cases hres : res < State.success
  · rw [if_pos hres]
    exact .inl hres
  rw [if_neg hres]
  by_cases hrc : (mqttSerializeConnect c'.bufSizeSend c'.connectData).rc ≤ 0
  · rw [if_pos hrc]
    exact .inl (by show State.mqttSerializeConnError < State.success; decide)
  rw [if_neg hrc]
  split
  · next hsend => exact .inl hsend
  · refine .inr ⟨rfl, ?_⟩
    have hbytes := bytes_serializePacket (writeConnect_eq c'.connectData)
      (show 0 < (mqttSerializeConnect c'.bufSizeSend c'.connectData).rc by omega)
    rw [mqttSerializeConnect, hbytes, connectKeepAlive_packetBytes, hdata]

theorem mqttSerializeConnect_rc (buflen : Int) (options : ConnectData) (interval : UInt16) :
    (mqttSerializeConnect buflen { options with keepAliveInterval := interval }).rc =
      (mqttSerializeConnect buflen options).rc := by
  have hlen : (connectBody { options with keepAliveInterval := interval }).length =
      (connectBody options).length := by
    simp only [connectBody, List.length_append, List.length_cons, length_be16, connectFlags]
  have hrem : mqttSerializeConnectLength { options with keepAliveInterval := interval } =
      mqttSerializeConnectLength options := rfl
  unfold mqttSerializeConnect
  rw [hrem]
  rcases serializePacket_cases buflen (mqttSerializeConnectLength options)
      (mqttHeaderSetType 0 .connect)
      (writeConnect_eq { options with keepAliveInterval := interval }) with ⟨h, e⟩ | ⟨h, e⟩ <;>
  rcases serializePacket_cases buflen (mqttSerializeConnectLength options)
      (mqttHeaderSetType 0 .connect) (writeConnect_eq options) with ⟨h', e'⟩ | ⟨h', e'⟩
  · rw [e, e']
  · omega
  · omega
  · rw [e, e']
    simp only [length_packetBytes, hlen]

theorem mqttConnect_rc {c c' : Client} {interval : UInt16}
    (hmax : c'.bufSizeSendMax = c.bufSizeSendMax)
    (hdata : c'.connectData = { c.connectData with keepAliveInterval := interval })
    (io : ConnectTry) : (mqttConnect c' io).rc = (mqttConnect c io).rc := by
  have hlen : mqttSerializeConnectLength c'.connectData =
      mqttSerializeConnectLength c.connectData := by
    rw [hdata]
    rfl
  unfold mqttConnect allocSendBuffer
  rw [hlen, hmax]
  cases io.bufMalloc with
  | false => rfl
  | true =>
    simp only [if_true, hdata, mqttSerializeConnect_rc]
    (repeat' split) <;> rfl

/-! ## The rounds -/

/-- The client that the next round, if there is one, starts from. -/
def nextClient (interval : UInt16) (c : Client) (io : ConnectTry) : Client :=
  resetRecvBuffer (setKeepAliveInterval (mqttConnect c io).client interval)

variable (interval : UInt16)

theorem nextClient_connectData (c : Client) (io : ConnectTry) :
    (nextClient interval c io).connectData =
      { c.connectData with keepAliveInterval := interval } := by
  rw [nextClient, resetRecvBuffer_connectData, setKeepAliveInterval, mqttConnect_connectData]

theorem nextClient_rc (c : Client) (io io' : ConnectTry) :
    (mqttConnect (nextClient interval c io) io').rc = (mqttConnect c io').rc := by
  refine mqttConnect_rc ?_ (nextClient_connectData interval c io) io'
  rw [nextClient, resetRecvBuffer_bufSizeSendMax, setKeepAliveInterval, mqttConnect_bufSizeSendMax]

theorem connectLoop_cases (left : Nat) (tries : Nat → ConnectTry) (c : Client) :
    let next := connectLoop interval left (fun i => tries (i + 1)) (nextClient interval c (tries 0))
    ((mqttConnect c (tries 0)).rc < State.success ∧
      (connectLoop interval (left + 1) tries c).client.connectData =
        { c.connectData with keepAliveInterval := interval } ∧
      (connectLoop interval (left + 1) tries c).sent = []) ∨
    ((mqttConnect c (tries 0)).rc = State.success ∧
      (IsReject (tries 0).connack ∨ (tries 0).connack = State.success) ∧
      (connectLoop interval (left + 1) tries c).client.connectData =
        { c.connectData with keepAliveInterval := interval } ∧
      (connectLoop interval (left + 1) tries c).sent = [(mqttConnect c (tries 0)).packet]) ∨
    ((mqttConnect c (tries 0)).rc = State.success ∧ ¬ IsReject (tries 0).connack ∧
      (tries 0).connack ≠ State.success ∧
      (connectLoop interval (left + 1) tries c).client = next.client ∧
      (connectLoop interval (left + 1) tries c).sent =
        (mqttConnect c (tries 0)).packet :: next.sent) := by
  intro next
  have hdata := nextClient_connectData interval c (tries 0)
  have hfield : (setKeepAliveInterval (mqttConnect c (tries 0)).client interval).connectData =
      { c.connectData with keepAliveInterval := interval } := by
    rw [setKeepAliveInterval, mqttConnect_connectData]
  rw [connectLoop]
  rcases mqttConnect_cases c (tries 0) with hrc | ⟨hrc, -⟩
  · rw [if_pos hrc]
    exact .inl ⟨hrc, hfield, rfl⟩
  rw [if_neg (by rw [hrc]; decide)]
  by_cases hreject : IsReject (tries 0).connack
  · rw [if_pos hreject]
    exact .inr (.inl ⟨hrc, .inl hreject, hdata, rfl⟩)
  rw [if_neg hreject]
  by_cases hconnack : (tries 0).connack = State.success
  · rw [if_neg (not_not.mpr hconnack)]
    exact .inr (.inl ⟨hrc, .inr hconnack, hdata, rfl⟩)
  · rw [if_pos hconnack]
    exact .inr (.inr ⟨hrc, hreject, hconnack, rfl, rfl⟩)

theorem connectLoop_configured {interval : UInt16} (left : Nat) {tries : Nat → ConnectTry}
    {c : Client} (h : c.connectData.keepAliveInterval = interval) :
    (connectLoop interval left tries c).client.connectData.keepAliveInterval = interval ∧
      ∀ packet ∈ (connectLoop interval left tries c).sent,
        connectKeepAlive packet = interval.toNat := by
  induction left generalizing tries c with
  | zero => exact ⟨h, fun packet hpacket => absurd hpacket List.not_mem_nil⟩
  | succ left ih =>
    have hfirst (hrc : (mqttConnect c (tries 0)).rc = State.success) :
        connectKeepAlive (mqttConnect c (tries 0)).packet = interval.toNat := by
      rcases mqttConnect_cases c (tries 0) with hfail | ⟨-, hkeep⟩
      · rw [hrc] at hfail
        exact absurd hfail (by decide)
      · rw [hkeep, h]
    rcases connectLoop_cases interval left tries c with
      ⟨-, hdata, hsent⟩ | ⟨hrc, -, hdata, hsent⟩ | ⟨hrc, -, -, hclient, hsent⟩
    · rw [hdata, hsent]
      exact ⟨rfl, fun packet hpacket => absurd hpacket List.not_mem_nil⟩
    · rw [hdata, hsent]
      refine ⟨rfl, fun packet hpacket => ?_⟩
      rw [List.mem_singleton.mp hpacket]
      exact hfirst hrc
    · obtain ⟨hfield, hall⟩ := @ih (fun i => tries (i + 1)) (nextClient interval c (tries 0))
        (by rw [nextClient_connectData])
      rw [hclient, hsent]
      refine ⟨hfield, fun packet hpacket => ?_⟩
      rcases List.mem_cons.mp hpacket with rfl | hpacket
      · exact hfirst hrc
      · exact hall packet hpacket

theorem connectLoop_sent_eq_nil (left : Nat) (tries : Nat → ConnectTry) (c : Client) :
    (connectLoop interval (left + 1) tries c).sent = [] ↔
      (mqttConnect c (tries 0)).rc ≠ State.success := by
  rcases connectLoop_cases interval left tries c with
    ⟨hrc, -, hsent⟩ | ⟨hrc, -, -, hsent⟩ | ⟨hrc, -, -, -, hsent⟩ <;> rw [hsent]
  · exact iff_of_true rfl (by intro h; rw [h] at hrc; exact absurd hrc (by decide))
  · exact iff_of_false (List.cons_ne_nil _ _) (not_not.mpr hrc)
  · exact iff_of_false (List.cons_ne_nil _ _) (not_not.mpr hrc)

/-- The first CONNECT of a connection attempt announces what the field holds, every later one the
configured keep-alive; there is a later one when the first is neither accepted nor rejected and
the second is sent. -/
theorem connectLoop_announces {interval : UInt16} (left : Nat) (tries : Nat → ConnectTry)
    (c : Client) :
    (connectLoop interval (left + 2) tries c).client.connectData.keepAliveInterval = interval ∧
    (∀ packet ∈ (connectLoop interval (left + 2) tries c).sent,
      connectKeepAlive packet = c.connectData.keepAliveInterval.toNat ∨
        connectKeepAlive packet = interval.toNat) ∧
    ((∀ packet ∈ (connectLoop interval (left + 2) tries c).sent,
        connectKeepAlive packet = c.connectData.keepAliveInterval.toNat) ↔
      (c.connectData.keepAliveInterval = interval ∨ SendsOnce c tries)) := by
  have hfirst (hrc : (mqttConnect c (tries 0)).rc = State.success) :
      connectKeepAlive (mqttConnect c (tries 0)).packet =
        c.connectData.keepAliveInterval.toNat := by
    rcases mqttConnect_cases c (tries 0) with hfail | ⟨-, hkeep⟩
    · rw [hrc] at hfail
      exact absurd hfail (by decide)
    · exact hkeep
  rcases connectLoop_cases interval (left + 1) tries c with
    ⟨hrc, hdata, hsent⟩ | ⟨hrc, hend, hdata, hsent⟩ | ⟨hrc, hreject, hconnack, hclient, hsent⟩
  · rw [hdata, hsent]
    refine ⟨rfl, fun packet hpacket => absurd hpacket List.not_mem_nil, iff_of_true ?_ ?_⟩
    · exact fun packet hpacket => absurd hpacket List.not_mem_nil
    · exact .inr fun h => absurd hrc (by rw [h]; decide)
  · rw [hdata, hsent]
    have hone : ∀ packet ∈ [(mqttConnect c (tries 0)).packet],
        connectKeepAlive packet = c.connectData.keepAliveInterval.toNat := by
      intro packet hpacket
      rw [List.mem_singleton.mp hpacket]
      exact hfirst hrc
    refine ⟨rfl, fun packet hpacket => .inl (hone packet hpacket), iff_of_true hone (.inr ?_)⟩
    intro _ hreject hconnack
    exact absurd hend (not_or.mpr ⟨hreject, hconnack⟩)
  · have hnext := nextClient_connectData interval c (tries 0)
    obtain ⟨hfield, hall⟩ := @connectLoop_configured interval (left + 1) (fun i => tries (i + 1))
      (nextClient interval c (tries 0)) (by rw [hnext])
    rw [hclient, hsent]
    refine ⟨hfield, fun packet hpacket => ?_, ?_⟩
    · rcases List.mem_cons.mp hpacket with rfl | hpacket
      · exact .inl (hfirst hrc)
      · exact .inr (hall packet hpacket)
    have hrest : (connectLoop interval (left + 1) (fun i => tries (i + 1))
        (nextClient interval c (tries 0))).sent = [] ↔
          (mqttConnect c (tries 1)).rc ≠ State.success := by
      rw [connectLoop_sent_eq_nil, nextClient_rc]
    constructor
    · intro hsame
      by_cases hsecond : (mqttConnect c (tries 1)).rc = State.success
      · obtain ⟨packet, hpacket⟩ := List.exists_mem_of_ne_nil _ (mt hrest.mp (not_not.mpr hsecond))
        refine .inl (UInt16.toNat_inj.mp ?_)
        rw [← hsame packet (List.mem_cons_of_mem _ hpacket), hall packet hpacket]
      · exact .inr fun _ _ _ => hsecond
    · intro hcases packet hpacket
      rcases List.mem_cons.mp hpacket with rfl | hpacket
      · exact hfirst hrc
      rcases hcases with hsame | honce
      · rw [hall packet hpacket, hsame]
      · rw [hrest.mpr (honce hrc hreject hconnack)] at hpacket
        exact absurd hpacket List.not_mem_nil

/-! ## Steps and runs -/

/-- A keep-alive that `iotx_mc_set_connect_params` lets through. -/
structure InRange (interval : UInt16) : Prop where
  min : configMqttKeepaliveIntervalMin.toNat ≤ interval.toNat
  max : interval.toNat ≤ configMqttKeepaliveIntervalMax.toNat

theorem configuredKeepAlive_inRange : InRange (configuredKeepAlive interval) := by
  unfold configuredKeepAlive
  split
  · exact ⟨by decide, by decide⟩
  · next hmin =>
    split
    · exact ⟨by decide, by decide⟩
    · next hmax => exact ⟨Nat.not_lt.mp hmin, Nat.not_lt.mp hmax⟩

theorem doubledKeepAlive_toNat {interval : UInt16} (h : InRange interval) :
    (doubledKeepAlive interval).toNat =
      min (2 * interval.toNat) configMqttKeepaliveIntervalMax.toNat := by
  have hmax : interval.toNat ≤ 1200 := h.max
  have hdouble : (interval * 2).toNat = 2 * interval.toNat := by
    rw [UInt16.toNat_mul, show (2 : UInt16).toNat = 2 from rfl]
    omega
  have hmaxNat : configMqttKeepaliveIntervalMax.toNat = 1200 := rfl
  unfold doubledKeepAlive
  split
  · next hgt =>
    have hgt' : 1200 < 2 * interval.toNat := by
      rw [← hdouble]
      exact hgt
    omega
  · next hle =>
    have hle' : 2 * interval.toNat ≤ 1200 := by
      rw [← hdouble]
      exact Nat.not_lt.mp hle
    omega

theorem doubledKeepAlive_eq_self {interval : UInt16} (h : InRange interval) :
    doubledKeepAlive interval = interval ↔ interval = configMqttKeepaliveIntervalMax := by
  have hmin : 30 ≤ interval.toNat := h.min
  have hmax : interval.toNat ≤ 1200 := h.max
  have hmaxNat : configMqttKeepaliveIntervalMax.toNat = 1200 := rfl
  rw [← UInt16.toNat_inj, ← UInt16.toNat_inj, doubledKeepAlive_toNat h]
  omega

namespace Link

/-- What a step other than a connection attempt does to the keep-alive: the ping timer at most. -/
structure Kept (s s' : Link) : Prop where
  data : s'.client.connectData = s.client.connectData
  wire : s'.wire = s.wire
  ping : s'.nextPingTime = s.nextPingTime ∨ s'.nextPingTime = s.startPingTimer.nextPingTime

theorem Kept.steady {interval : UInt16} {s s' : Link} (h : Kept s s') (hs : Steady interval s) :
    Steady interval s' := by
  refine ⟨by rw [h.data, hs.field], fun period hperiod => ?_, by rw [h.wire]; exact hs.within⟩
  rcases h.ping with hping | hping <;> rw [hping] at hperiod
  · exact hs.ping period hperiod
  · rw [startPingTimer, Option.some_inj] at hperiod
    rw [← hperiod, hs.field]

theorem Kept.oneKeepAlive {interval : UInt16} {s s' : Link} (h : Kept s s') :
    OneKeepAlive interval s' ↔ OneKeepAlive interval s := by
  rw [OneKeepAlive, OneKeepAlive, h.wire]

theorem mqttKeepalive_kept (c : Client) (io : KeepaliveIo) :
    (mqttKeepalive c io).2.connectData = c.connectData ∧
      (mqttKeepalive c io).2.clientState = c.clientState := by
  have hstate (c : Client) : (resetSendBuffer c).clientState = c.clientState := by
    unfold resetSendBuffer; split <;> rfl
  unfold mqttKeepalive
  simp only
  (repeat' split) <;> simp only [resetSendBuffer_connectData, allocSendBuffer_connectData, hstate,
    allocSendBuffer_clientState, and_self]

theorem iotxMcKeepaliveSub_kept (s : Link) (io : KeepaliveIo) :
    Kept s (s.iotxMcKeepaliveSub io).2 ∧
      ((s.iotxMcKeepaliveSub io).2 = s ∨ s.client.clientState = .connected ∧
        ((s.iotxMcKeepaliveSub io).2.client.clientState = .connected ∨
          (s.iotxMcKeepaliveSub io).2.client.clientState = .disconnected)) := by
  unfold iotxMcKeepaliveSub
  split
  · exact ⟨⟨rfl, rfl, .inl rfl⟩, .inl rfl⟩
  next hstate =>
  have hconnected : s.client.clientState = .connected := by
    simpa [wrapperMqttCheckState] using hstate
  split
  · exact ⟨⟨rfl, rfl, .inl rfl⟩, .inl rfl⟩
  obtain ⟨hdata, hkept⟩ := mqttKeepalive_kept s.startPingTimer.client io
  have hconnected' := hkept.trans hconnected
  simp only
  split
  · split
    · exact ⟨⟨hdata, rfl, .inr rfl⟩, .inr ⟨hconnected, .inr rfl⟩⟩
    · exact ⟨⟨hdata, rfl, .inr rfl⟩, .inr ⟨hconnected, .inl hconnected'⟩⟩
  · exact ⟨⟨hdata, rfl, .inr rfl⟩, .inr ⟨hconnected, .inl hconnected'⟩⟩

theorem mqttConnect_step {interval : UInt16} (h : InRange interval) {s : Link}
    (hs : Steady interval s) (tries : Nat → ConnectTry) :
    Steady interval (s.mqttConnect tries).2 ∧
      (OneKeepAlive interval (s.mqttConnect tries).2 ↔ OneKeepAlive interval s ∧
        (interval = configMqttKeepaliveIntervalMax ∨ SendsOnce s.client tries)) := by
  have hdouble := doubledKeepAlive_toNat h
  have hmax : interval.toNat ≤ configMqttKeepaliveIntervalMax.toNat := h.max
  have hfirst : (setKeepAliveInterval s.client (doubledKeepAlive interval)).connectData =
      { s.client.connectData with keepAliveInterval := doubledKeepAlive interval } := rfl
  have honce : SendsOnce (setKeepAliveInterval s.client (doubledKeepAlive interval)) tries ↔
      SendsOnce s.client tries := by
    have hrc (io : ConnectTry) :
        (AliyunIot.Mqtt.mqttConnect (setKeepAliveInterval s.client (doubledKeepAlive interval))
          io).rc = (AliyunIot.Mqtt.mqttConnect s.client io).rc :=
      @mqttConnect_rc s.client (setKeepAliveInterval s.client (doubledKeepAlive interval)) _ rfl
        hfirst io
    rw [SendsOnce, SendsOnce, hrc, hrc]
  obtain ⟨hfield, heach, hall⟩ := @connectLoop_announces interval 6 tries
    (setKeepAliveInterval s.client (doubledKeepAlive interval))
  rw [hfirst] at heach hall
  simp only [hdouble, doubledKeepAlive_eq_self h, honce] at heach hall
  have hwithin : ∀ packet ∈ (connectLoop interval (6 + 2) tries
      (setKeepAliveInterval s.client (doubledKeepAlive interval))).sent,
      interval.toNat ≤ connectKeepAlive packet := by
    intro packet hpacket
    rcases heach packet hpacket with heq | heq <;> omega
  have hwire : (s.mqttConnect tries).2.wire = s.wire ++ (connectLoop interval (6 + 2) tries
      (setKeepAliveInterval s.client (doubledKeepAlive interval))).sent := by
    unfold mqttConnect
    rw [hs.field]
    simp only
    split <;> rfl
  refine ⟨⟨?_, ?_, ?_⟩, ?_⟩
  · unfold mqttConnect
    rw [hs.field]
    simp only
    split <;> exact hfield
  · unfold mqttConnect
    rw [hs.field]
    simp only
    split
    · exact hs.ping
    · intro period hperiod
      rw [← Option.some.inj hperiod]
      exact congrArg (fun i : UInt16 => i.toNat * 1000) hfield
  · rw [hwire]
    intro packet hpacket
    rcases List.mem_append.mp hpacket with hpacket | hpacket
    · exact hs.within packet hpacket
    · exact hwithin packet hpacket
  · rw [OneKeepAlive, hwire, ← hall]
    exact List.forall_mem_append

theorem step_kept_iff {interval : UInt16} {s s' : Link} (h : Kept s s')
    (hs : Steady interval s) {P : Prop} (hP : P) :
    Steady interval s' ∧ (OneKeepAlive interval s' ↔ OneKeepAlive interval s ∧ P) :=
  ⟨h.steady hs, by rw [h.oneKeepAlive, and_iff_left hP]⟩

theorem iotxMcHandleReconnect_kept (s : Link) (io : KeepaliveIo) :
    (¬ io.reconnectExpired = true ∧ (s.iotxMcHandleReconnect io).2 = s) ∨
    (io.reconnectExpired = true ∧
      Kept (s.mqttConnect io.tries).2 (s.iotxMcHandleReconnect io).2) := by
  unfold iotxMcHandleReconnect iotxMcAttemptReconnect
  cases io.reconnectExpired with
  | false => exact .inl ⟨Bool.false_ne_true, rfl⟩
  | true =>
    refine .inr ⟨rfl, ?_⟩
    generalize s.mqttConnect io.tries = r
    obtain ⟨rc, s'⟩ := r
    simp only [Bool.not_true, Bool.false_eq_true, if_false]
    split
    · exact ⟨rfl, rfl, .inl rfl⟩
    · split <;> exact ⟨rfl, rfl, .inl rfl⟩

theorem iotxMcHandleReconnect_step {interval : UInt16} (h : InRange interval) {s : Link}
    (hs : Steady interval s) (io : KeepaliveIo) :
    Steady interval (s.iotxMcHandleReconnect io).2 ∧
      (OneKeepAlive interval (s.iotxMcHandleReconnect io).2 ↔ OneKeepAlive interval s ∧
        (interval = configMqttKeepaliveIntervalMax ∨
          (io.reconnectExpired = true → SendsOnce s.client io.tries))) := by
  rcases iotxMcHandleReconnect_kept s io with ⟨hexpired, hsame⟩ | ⟨hexpired, hkept⟩
  · rw [hsame]
    exact step_kept_iff ⟨rfl, rfl, .inl rfl⟩ hs (.inr fun h => absurd h hexpired)
  · obtain ⟨hsteady, hone⟩ := mqttConnect_step h hs io.tries
    refine ⟨hkept.steady hsteady, ?_⟩
    rw [hkept.oneKeepAlive, hone, hexpired]
    simp only [true_imp_iff]

theorem step_steady {interval : UInt16} (h : InRange interval) {s : Link}
    (hs : Steady interval s) (op : LinkOp) :
    Steady interval (s.step op) ∧ (OneKeepAlive interval (s.step op) ↔ OneKeepAlive interval s ∧
      (interval = configMqttKeepaliveIntervalMax ∨ s.SentOnce op)) := by
  cases op with
  | connect nwk tries =>
    simp only [step, wrapperMqttConnect, SentOnce, rounds]
    by_cases hnwk : nwk = State.success
    · rw [if_neg (not_not.mpr hnwk), if_pos hnwk]
      simp only [Option.some_inj, forall_eq']
      exact mqttConnect_step h hs tries
    · rw [if_pos hnwk, if_neg hnwk]
      exact step_kept_iff ⟨rfl, rfl, .inl rfl⟩ hs (.inr fun _ h => nomatch h)
  | keepalive io =>
    obtain ⟨hkept, hcases⟩ := iotxMcKeepaliveSub_kept s io
    simp only [step, iotxMcKeepalive, SentOnce, rounds]
    by_cases hstate : s.client.clientState = .disconnectedReconnecting ∨
        s.client.clientState = .connectBlock
    · have hsame : (s.iotxMcKeepaliveSub io).2 = s := by
        rcases hcases with hsame | ⟨hconnected, -⟩
        · exact hsame
        · rw [hconnected] at hstate
          exact absurd hstate (by decide)
      obtain ⟨hsteady, hone⟩ := iotxMcHandleReconnect_step h hs io
      have htries : (∀ tries, (if (s.client.clientState = .disconnectedReconnecting ∨
          s.client.clientState = .connectBlock) ∧ io.reconnectExpired = true then some io.tries
          else none) = some tries → SendsOnce s.client tries) ↔
          (io.reconnectExpired = true → SendsOnce s.client io.tries) := by
        by_cases hexpired : io.reconnectExpired = true
        · rw [if_pos ⟨hstate, hexpired⟩]
          simp only [Option.some_inj, forall_eq', hexpired, true_imp_iff]
        · rw [if_neg fun hboth => hexpired hboth.2]
          exact iff_of_true (fun _ h => nomatch h) fun h => absurd h hexpired
      rw [hsame, if_pos hstate, htries, ← hone]
      split
      · exact ⟨hsteady, Iff.rfl⟩
      · have hk : Kept (s.iotxMcHandleReconnect io).2 { (s.iotxMcHandleReconnect io).2 with
            reconnectTimeIntervalMs := iotxMcReconnectIntervalMinMs } := ⟨rfl, rfl, .inl rfl⟩
        exact ⟨hk.steady hsteady, hk.oneKeepAlive⟩
    · have hstate' : ¬ ((s.iotxMcKeepaliveSub io).2.client.clientState =
          .disconnectedReconnecting ∨
          (s.iotxMcKeepaliveSub io).2.client.clientState = .connectBlock) := by
        rcases hcases with hsame | ⟨-, hafter | hafter⟩
        · rw [hsame]
          exact hstate
        · rw [hafter]
          decide
        · rw [hafter]
          decide
      have hnone : ∀ tries, (if (s.client.clientState = .disconnectedReconnecting ∨
          s.client.clientState = .connectBlock) ∧ io.reconnectExpired = true then some io.tries
          else none) = some tries → SendsOnce s.client tries := by
        rw [if_neg fun hboth => hstate hboth.1]
        exact fun _ h => nomatch h
      rw [if_neg hstate']
      split
      · refine step_kept_iff ?_ hs (Or.inr hnone)
        exact ⟨hkept.data, hkept.wire, hkept.ping⟩
      · exact step_kept_iff hkept hs (Or.inr hnone)
  | other client =>
    refine step_kept_iff ?_ hs (Or.inr ?_)
    · exact ⟨rfl, rfl, .inl rfl⟩
    · exact fun _ h => nomatch h

theorem run_oneKeepAlive {interval : UInt16} (h : InRange interval) {s : Link}
    (hs : Steady interval s) {ops : List LinkOp} :
    OneKeepAlive interval (run step s ops) ↔ OneKeepAlive interval s ∧
      (interval = configMqttKeepaliveIntervalMax ∨ Meets step SentOnce s ops) := by
  induction ops generalizing s with
  | nil => exact (and_iff_left (.inr trivial)).symm
  | cons op ops ih =>
    obtain ⟨hsteady, hone⟩ := step_steady h hs op
    rw [run_cons, ih hsteady, hone, Meets, and_assoc, or_and_left]

end Link

/-- In every run, the field and the ping period are the configured ones and no CONNECT announces
less. Every CONNECT announces twice the configured keep-alive, within the maximum, exactly when
that is the maximum anyway or no connection attempt sends a second one. -/
theorem oneKeepalive_iff (c : Client) (params : ConnectData) (ops : List LinkOp) :
    let interval := configuredKeepAlive params.keepAliveInterval
    let s₀ : Link := { client := iotxMcSetConnectParams c params }
    Link.Steady interval (run Link.step s₀ ops) ∧
      (Link.OneKeepAlive interval (run Link.step s₀ ops) ↔
        interval = configMqttKeepaliveIntervalMax ∨ Meets Link.step Link.SentOnce s₀ ops) := by
  intro interval s₀
  have h : InRange interval := configuredKeepAlive_inRange params.keepAliveInterval
  have hs₀ : Link.Steady interval s₀ := by
    refine ⟨rfl, ?_, ?_⟩
    · exact fun _ hperiod => nomatch hperiod
    · exact fun packet hpacket => absurd hpacket List.not_mem_nil
  have hwire : Link.OneKeepAlive interval s₀ :=
    fun packet hpacket => absurd hpacket List.not_mem_nil
  have hsteady : Link.Steady interval (run Link.step s₀ ops) :=
    run_invariant (I := Link.Steady interval) (fun _ op hs => (Link.step_steady h hs op).1) hs₀ ops
  refine ⟨hsteady, ?_⟩
  rw [Link.run_oneKeepAlive h hs₀, and_iff_right hwire]

/-- A CONNECT that is not answered in time, and one that is accepted. -/
def unansweredTry : Nat → ConnectTry
  | 0 => { writes := [15], connack := State.sysDependNwkReadError }
  | _ => { writes := [15] }

/-- The connection attempt of a client whose configured keep-alive is 60 s. -/
def retriedLink : Link :=
  run Link.step
    { client := iotxMcSetConnectParams connectedClient
        { connectOptions 4 with keepAliveInterval := 60 } }
    [.connect State.success unansweredTry]

/-- The broker is told 120 s first, and 60 s on the connection that is used. -/
theorem keepalive_of_retry :
    configuredKeepAlive 60 = 60 ∧ retriedLink.wire.map connectKeepAlive = [120, 60] ∧
      ¬ Link.OneKeepAlive 60 retriedLink := by
  have hwire : retriedLink.wire.map connectKeepAlive = [120, 60] := by decide +kernel
  refine ⟨by decide, hwire, fun h => ?_⟩
  have hlast : 60 ∈ retriedLink.wire.map connectKeepAlive := by
    rw [hwire]
    decide
  obtain ⟨packet, hpacket, hkeep⟩ := List.mem_map.mp hlast
  rw [h packet hpacket] at hkeep
  exact absurd hkeep (by decide)

end AliyunIot.Mqtt
