import AliyunIot.Coap.Dispatch

/-!
# The cloud client

`Cloud_CoAPMessage.c`: sending through the one send buffer, the send list, the
datagrams received and the timer pass of `Cloud_CoAPMessage_cycle`. A node is
named by the number of its allocation, and a call's events say what it did.
-/

namespace AliyunIot.Coap

open Lib

/-- `Cloud_CoAPSendNode`; `message` is `none` where its copy could not be allocated. -/
structure CloudSendNode where
  id : Nat
  user : Nat
  msgid : UInt16
  acked : Bool
  token : List UInt8
  retransCount : UInt8
  timeout : UInt16
  timeoutVal : UInt16
  message : Option (List UInt8)
  resp : Option Nat

/-- What is kept of `Cloud_CoAPContext`: the send list. -/
structure CloudContext where
  list : CoapList CloudSendNode
  nextId : Nat

inductive CloudEvent where
  | write (data : List UInt8)
  | retransmit (id : Nat)
  | response (id : Nat) (resp : Option Nat) (user : Nat)
  | expired (id : Nat)
  deriving DecidableEq

abbrev cloudMaxRetryCount : UInt8 := 4
abbrev cloudAckTimeout : UInt16 := 2
abbrev cloudMaxTransmissionSpan : UInt16 := 10

/-- The offsets of `count` and `maxcount` in `Cloud_CoAPSendList`, and so what a
comparison of their addresses compares. -/
abbrev offsetCount : Nat := 0
abbrev offsetMaxcount : Nat := 1

/-- What the environment does in one `Cloud_CoAPMessage_send`: what `HAL_UDP_write`
returns, and the two allocations of the list. -/
structure CloudSendIo where
  written : Int
  node : Bool
  copy : Bool

/-- The node `Cloud_CoAPMessageList_add` fills. -/
def cloudSendNode (ctx : CloudContext) (message : OutMessage) (sendbuf : List UInt8)
    (io : CloudSendIo) : CloudSendNode where
  id := ctx.nextId
  user := message.user
  msgid := message.header.msgid
  acked := false
  token := message.token
  retransCount := if message.header.type = coapMessageTypeCon then 0 else cloudMaxRetryCount
  timeout :=
    if message.header.type = coapMessageTypeCon then cloudAckTimeout else cloudMaxTransmissionSpan
  timeoutVal := cloudAckTimeout
  message := if io.copy then some sendbuf else none
  resp := message.resp

/-- `Cloud_CoAPMessageList_add`: the addresses are compared, not the counters. -/
def cloudMessageListAdd (ctx : CloudContext) (message : OutMessage) (sendbuf : List UInt8)
    (io : CloudSendIo) : Int × CloudContext :=
  if io.node = false then (-1, ctx)
  else if offsetCount ≥ offsetMaxcount then (-1, ctx)
  else
    (0,
      { list :=
          { ctx.list with
            list := ctx.list.list ++ [cloudSendNode ctx message sendbuf io]
            count := ctx.list.count + 1 }
        nextId := ctx.nextId + 1 })

structure CloudOutcome where
  ret : Option Int
  ctx : CloudContext
  events : List CloudEvent

/-- `Cloud_CoAPNetwork_write` of what `HAL_UDP_write` returns. -/
def cloudNetworkWrite (rc : Int) : Int := if rc = -1 then coapErrorWriteFailed else coapSuccess

/-- `Cloud_CoAPMessage_send` from the datagram on; the result of the list is not
looked at. -/
def cloudMessageWrite (ctx : CloudContext) (message : OutMessage) (sendbuf : List UInt8)
    (io : CloudSendIo) : CloudOutcome :=
  let ret := cloudNetworkWrite io.written
  if ret = coapSuccess ∧ (coapReqMsg message.header || coapConRespMsg message.header) then
    ⟨some ret, (cloudMessageListAdd ctx message sendbuf io).2, [.write sendbuf]⟩
  else ⟨some ret, ctx, [.write sendbuf]⟩

variable (ctx : CloudContext)

theorem cloudWrite_events (message : OutMessage) (sendbuf : List UInt8)
    (io : CloudSendIo) : (cloudMessageWrite ctx message sendbuf io).events = [.write sendbuf] := by
  unfold cloudMessageWrite
  dsimp only
  split <;> rfl

/-- `Cloud_CoAPMessage_send`. The buffer has `COAP_MSG_MAX_PDU_LEN` bytes. -/
def cloudMessageSend (ctx : CloudContext) (message : OutMessage) (io : CloudSendIo) :
    CloudOutcome :=
  if coapMsgMaxPduLen < (coapSerializeMessageLength message).toNat then
    ⟨some coapErrorDataSize, ctx, []⟩
  else
    match coapSerializeMessage message (UInt16.ofNat coapMsgMaxPduLen) with
    | none => ⟨none, ctx, []⟩
    | some (n, img) => cloudMessageWrite ctx message (img.bytes (UInt16.ofInt n)) io

/-- `Cloud_CoAPAckMessage_handle`. -/
def cloudAckMessageHandle (ctx : CloudContext) (msgid : UInt16) : CloudContext :=
  match splitFirst (fun node => decide (node.msgid = msgid)) ctx.list.list with
  | none => ctx
  | some (as, node, bs) =>
    { ctx with list := { ctx.list with list := as ++ { node with acked := true } :: bs } }

/-- `Cloud_CoAPAckMessage_send`. -/
def cloudAckMessageSend (ctx : CloudContext) (msgid : UInt16) (io : CloudSendIo) : CloudOutcome :=
  cloudMessageSend ctx (coapMessageIdSet coapMessageInit msgid) io

/-- The list half of `Cloud_CoAPRespMessage_handle`: the handler is called and the
node removed. -/
def cloudRespNode (ctx : CloudContext) (message : CoapMessage) :
    CloudContext × List CloudEvent :=
  match splitFirst (fun node => sameToken node.token message.head.tokenlen message.token)
    ctx.list.list with
  | none => (ctx, [])
  | some (as, node, bs) =>
    ({ ctx with list := { ctx.list with list := as ++ bs, count := ctx.list.count - 1 } },
      [.response node.id node.resp node.user])

def cloudRespMessageHandle (ctx : CloudContext) (message : CoapMessage) (io : CloudSendIo) :
    CloudContext × List CloudEvent :=
  if message.head.type = coapMessageTypeCon then
    let out := cloudAckMessageSend ctx message.head.msgid io
    let found := cloudRespNode out.ctx message
    (found.1, out.events ++ found.2)
  else cloudRespNode ctx message

/-- `Cloud_CoAPMessage_handle` on what the deserializer leaves. -/
def cloudMessageHandle (ctx : CloudContext) (buf : Mem) (datalen : UInt16) (io : CloudSendIo) :
    CloudContext × List CloudEvent :=
  let message := (Probe.value buf (coapDeserializeMessage datalen.toNat)).2
  if coapAckMsg message.head then (cloudAckMessageHandle ctx message.head.msgid, [])
  else if coapRespMsg message.head then cloudRespMessageHandle ctx message io
  else (ctx, [])

/-- One node of the timer pass: the node if it stays, and what is done. -/
def cloudTimerNode (node : CloudSendNode) : Option CloudSendNode × List CloudEvent :=
  if node.timeout = 0 then
    let again : Bool := node.retransCount < cloudMaxRetryCount && !node.acked
    let next :=
      if again then
        { node with
          timeout := node.timeoutVal * 2
          timeoutVal := node.timeoutVal * 2
          retransCount := node.retransCount + 1 }
      else node
    let events := if again then [CloudEvent.retransmit node.id] else []
    if next.timeout > cloudMaxTransmissionSpan ∨ next.retransCount ≥ cloudMaxRetryCount then
      (none, events ++ [.expired node.id])
    else (some next, events)
  else (some { node with timeout := node.timeout - 1 }, [])

/-- The loop of `Cloud_CoAPMessage_cycle` over the list. -/
def cloudTimerPass (ctx : CloudContext) : CloudContext × List CloudEvent :=
  let gone := ctx.list.list.countP fun node => (cloudTimerNode node).1.isNone
  ({ ctx with
      list :=
        { ctx.list with
          list := ctx.list.list.filterMap fun node => (cloudTimerNode node).1
          count := ctx.list.count - UInt8.ofNat gone } },
    ctx.list.list.flatMap fun node => (cloudTimerNode node).2)

/-- A call of the client. `Cloud_CoAPMessage_cycle` is the datagrams that have come
in, one after the other, and then the timer pass. -/
inductive CloudOp where
  | send (message : OutMessage) (io : CloudSendIo)
  | datagram (buf : Mem) (datalen : UInt16) (io : CloudSendIo)
  | timer

def CloudOp.exec (ctx : CloudContext) : CloudOp → CloudContext × List CloudEvent
  | .send message io =>
    let out := cloudMessageSend ctx message io
    (out.ctx, out.events)
  | .datagram buf datalen io => cloudMessageHandle ctx buf datalen io
  | .timer => cloudTimerPass ctx

/-- `Cloud_CoAPContext_create`. -/
def cloudContextCreate (maxcount : UInt8) : CloudContext := ⟨⟨[], 0, maxcount⟩, 0⟩

/-! ## What a call can do -/

/-- The message of this send is put into the list: a request or a confirmable content
response that fits, is written, and whose node can be allocated. -/
def CloudLinks (message : OutMessage) (io : CloudSendIo) : Prop :=
  (coapSerializeMessageLength message).toNat ≤ coapMsgMaxPduLen ∧
  (coapSerializeMessage message (UInt16.ofNat coapMsgMaxPduLen)).isSome = true ∧
  cloudNetworkWrite io.written = coapSuccess ∧
  (coapReqMsg message.header || coapConRespMsg message.header) = true ∧ io.node = true

namespace CloudContext

def link (ctx : CloudContext) (node : CloudSendNode) : CloudContext where
  list := { ctx.list with list := ctx.list.list ++ [node], count := ctx.list.count + 1 }
  nextId := ctx.nextId + 1

def unlink (ctx : CloudContext) (as bs : List CloudSendNode) : CloudContext :=
  { ctx with list := { ctx.list with list := as ++ bs, count := ctx.list.count - 1 } }

def ack (ctx : CloudContext) (as : List CloudSendNode) (node : CloudSendNode)
    (bs : List CloudSendNode) : CloudContext :=
  { ctx with list := { ctx.list with list := as ++ { node with acked := true } :: bs } }

end CloudContext

def CloudEvent.IsWrite (e : CloudEvent) : Prop := ∃ data, e = .write data

inductive CloudStep (ctx : CloudContext) : CloudOp → CloudContext → List CloudEvent → Prop
  | linked {message io} (sendbuf : List UInt8) (h : CloudLinks message io) :
    CloudStep ctx (.send message io) (ctx.link (cloudSendNode ctx message sendbuf io))
      [.write sendbuf]
  | sent {message io events} (h : ¬ CloudLinks message io) (he : ∀ e ∈ events, e.IsWrite) :
    CloudStep ctx (.send message io) ctx events
  | acked {buf datalen io as node bs} (hack : coapAckMsg (decoded buf datalen).head = true)
    (hl : ctx.list.list = as ++ node :: bs) (hid : node.msgid = (decoded buf datalen).head.msgid)
    (has : ∀ a ∈ as, a.msgid ≠ (decoded buf datalen).head.msgid) :
    CloudStep ctx (.datagram buf datalen io) (ctx.ack as node bs) []
  | answered {buf datalen io as node bs events}
    (hresp : coapRespMsg (decoded buf datalen).head = true)
    (hl : ctx.list.list = as ++ node :: bs)
    (htoken : sameToken node.token (decoded buf datalen).head.tokenlen (decoded buf datalen).token =
      true) (he : ∀ e ∈ events, e.IsWrite) :
    CloudStep ctx (.datagram buf datalen io) (ctx.unlink as bs)
      (events ++ [.response node.id node.resp node.user])
  | ignored {buf datalen io events}
    (hnone : coapAckMsg (decoded buf datalen).head = true →
      ∀ a ∈ ctx.list.list, a.msgid ≠ (decoded buf datalen).head.msgid)
    (he : ∀ e ∈ events, e.IsWrite) : CloudStep ctx (.datagram buf datalen io) ctx events
  | timer : CloudStep ctx .timer (cloudTimerPass ctx).1 (cloudTimerPass ctx).2

theorem cloudListAdd_ctx (message : OutMessage) (sendbuf : List UInt8)
    (io : CloudSendIo) : (cloudMessageListAdd ctx message sendbuf io).2 =
      if io.node = true then ctx.link (cloudSendNode ctx message sendbuf io) else ctx := by
  unfold cloudMessageListAdd
  cases io.node with
  | false => rfl
  | true => rfl

theorem cloudSend_step (message : OutMessage) (io : CloudSendIo) :
    CloudStep ctx (.send message io) (cloudMessageSend ctx message io).ctx
      (cloudMessageSend ctx message io).events := by
  unfold cloudMessageSend
  split
  · next hlen => exact .sent (fun h => Nat.not_lt.mpr h.1 hlen) fun e he => by cases he
  · next hlen =>
    split
    · next hnone =>
      refine .sent (fun h => ?_) fun e he => by cases he
      have := h.2.1
      rw [hnone] at this
      cases this
    · next n img hsome =>
      unfold cloudMessageWrite
      dsimp only
      split
      · next hlist =>
        rw [cloudListAdd_ctx]
        split
        · next hnode =>
          refine .linked _ ⟨Nat.not_lt.mp hlen, ?_, hlist.1, hlist.2, hnode⟩
          rw [hsome]
          rfl
        · next hnode =>
          refine .sent (fun h => hnode h.2.2.2.2) fun e he => ?_
          exact ⟨_, List.mem_singleton.mp he⟩
      · next hlist =>
        refine .sent (fun h => hlist ⟨h.2.2.1, h.2.2.2.1⟩) fun e he => ?_
        exact ⟨_, List.mem_singleton.mp he⟩

theorem cloudAckSend_ctx (msgid : UInt16) (io : CloudSendIo) :
    (cloudAckMessageSend ctx msgid io).ctx = ctx ∧
      ∀ e ∈ (cloudAckMessageSend ctx msgid io).events, e.IsWrite := by
  have hnot : ¬ CloudLinks (coapMessageIdSet coapMessageInit msgid) io := by
    rintro ⟨-, -, -, h, -⟩
    cases h
  have h := cloudSend_step ctx (coapMessageIdSet coapMessageInit msgid) io
  unfold cloudAckMessageSend
  generalize (cloudMessageSend ctx (coapMessageIdSet coapMessageInit msgid) io).ctx = ctx' at *
  generalize (cloudMessageSend ctx (coapMessageIdSet coapMessageInit msgid) io).events = events at *
  cases h with
  | linked _ hlinks => exact absurd hlinks hnot
  | sent _ he => exact ⟨rfl, he⟩

theorem cloudResp_eq (message : CoapMessage) (io : CloudSendIo) :
    ∃ events, (∀ e ∈ events, CloudEvent.IsWrite e) ∧ cloudRespMessageHandle ctx message io =
      ((cloudRespNode ctx message).1, events ++ (cloudRespNode ctx message).2) := by
  unfold cloudRespMessageHandle
  split
  · obtain ⟨hctx, he⟩ := cloudAckSend_ctx ctx message.head.msgid io
    refine ⟨_, he, ?_⟩
    dsimp only
    rw [hctx]
  · exact ⟨[], (fun e he => by cases he), rfl⟩

theorem cloudDatagram_step (buf : Mem) (datalen : UInt16) (io : CloudSendIo) :
    CloudStep ctx (.datagram buf datalen io) (cloudMessageHandle ctx buf datalen io).1
      (cloudMessageHandle ctx buf datalen io).2 := by
  have hd : (Probe.value buf (coapDeserializeMessage datalen.toNat)).2 = decoded buf datalen := rfl
  unfold cloudMessageHandle
  simp only [hd]
  split
  · unfold cloudAckMessageHandle
    rcases splitFirst_cases (fun node : CloudSendNode =>
        decide (node.msgid = (decoded buf datalen).head.msgid)) ctx.list.list with
      ⟨hnone, hall⟩ | ⟨as, node, bs, hsome, hl, hid, has⟩
    · rw [hnone]
      exact .ignored (fun _ a ha => of_decide_eq_false (hall a ha)) fun e he => by cases he
    · rw [hsome]
      exact .acked ‹_› hl (of_decide_eq_true hid) fun a ha => of_decide_eq_false (has a ha)
  · next hack =>
    split
    · next hresp =>
      obtain ⟨events, he, heq⟩ := cloudResp_eq ctx (decoded buf datalen) io
      rw [heq]
      unfold cloudRespNode
      rcases splitFirst_cases (fun node : CloudSendNode => sameToken node.token
          (decoded buf datalen).head.tokenlen (decoded buf datalen).token) ctx.list.list with
        ⟨hnone, -⟩ | ⟨as, node, bs, hsome, hl, htoken, -⟩
      · rw [hnone]
        refine .ignored (fun h => absurd h hack) fun e hmem => ?_
        rw [List.append_nil] at hmem
        exact he e hmem
      · rw [hsome]
        exact .answered hresp hl htoken he
    · exact .ignored (fun h => absurd h hack) fun e he => by cases he

theorem exec_step (op : CloudOp) :
    ∃ ctx' events, op.exec ctx = (ctx', events) ∧ CloudStep ctx op ctx' events := by
  refine ⟨_, _, rfl, ?_⟩
  cases op with
  | send message io => exact cloudSend_step ctx message io
  | timer => exact .timer
  | datagram buf datalen io => exact cloudDatagram_step ctx buf datalen io

end AliyunIot.Coap
