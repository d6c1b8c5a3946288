import AliyunIot.Coap.Resource
import AliyunIot.Coap.Serialize

/-!
# CoAP server context

The context of `CoAPExport.c` with its lists, the observe lists of
`CoAPObserve.c`, and the sending half of `CoAPMessage.c`. What a call does besides
changing the context is the list of its `CoapEvent`s: datagrams handed to the
network and handlers called. What a handler does in turn is a call of its own.
-/

namespace AliyunIot.Coap

open Lib

structure NetworkAddr where
  addr : List UInt8
  port : UInt16
  deriving DecidableEq

inductive CoapReqResult where
  | requestSuccess | recvRespTimeout | recvRespSuc
  deriving DecidableEq

inductive CoapEvent where
  | write (remote : NetworkAddr) (data : List UInt8)
  | handler (handler : Nat) (result : CoapReqResult) (user : Nat) (remote : NetworkAddr)
  | resource (callback : Nat) (path : CStr) (remote : NetworkAddr)
  deriving DecidableEq

/-- `CoAPSendNode`; `msglen` is the number of bytes of `message`. `id` numbers the
nodes in the order they are listed. -/
structure CoapSendNode where
  id : Nat
  header : CoapMsgHeader
  retransCount : UInt8
  token : List UInt8
  timeout : Nat
  timeoutVal : UInt16
  handler : Option Nat
  remote : NetworkAddr
  user : Nat
  message : List UInt8
  acked : Bool
  keep : Bool
  deriving DecidableEq

/-- `CoapObserver`; the resource is the place of its node in the resource list. -/
structure CoapObserver where
  remote : NetworkAddr
  token : List UInt8
  ctype : UInt8
  resource : Nat
  sequenceNum : UInt32
  msgType : UInt8

structure CoapObservable where
  remote : NetworkAddr
  token : List UInt8
  callback : Option Nat
  maxAge : UInt32
  userdata : Nat

/-- `CoAPIntContext`; `nextId` is the number of the next node listed. -/
structure CoapContext where
  messageId : UInt16
  sendlist : CoapList CoapSendNode
  obsserver : CoapList CoapObserver
  obsclient : CoapList CoapObservable
  resource : ResourceList
  nextId : Nat

/-! ## The kinds of a message -/

def coapAckMsg (header : CoapMsgHeader) : Bool :=
  header.code = coapMsgCodeEmptyMessage && header.type = coapMessageTypeAck

def coapRespMsg (header : CoapMsgHeader) : Bool := header.code ≥ 0x40 && header.code < 0xc0

def coapPingMsg (header : CoapMsgHeader) : Bool :=
  header.code = coapMsgCodeEmptyMessage && header.type = coapMessageTypeCon

def coapResetMsg (header : CoapMsgHeader) : Bool := header.type = coapMessageTypeRst

def coapConRespMsg (header : CoapMsgHeader) : Bool :=
  header.code = coapMsgCode205Content && header.type = coapMessageTypeCon

def coapReqMsg (header : CoapMsgHeader) : Bool := 1 ≤ header.code && 32 > header.code

/-! ## Options of a message in hand -/

/-- An option as the getters read it: number, length and value bytes. -/
abbrev OptionView := UInt16 × UInt16 × List UInt8

def coapOptionPresent (options : List OptionView) (option : UInt16) : Bool :=
  options.any fun o => o.1 = option

/-- Bytes, high one first, `|`-ed into `data`. -/
def orBytes (data : UInt32) (bytes : List UInt8) : UInt32 :=
  data ||| bytes.foldl (fun (n : UInt32) b => (n <<< 8) ||| b.toUInt32) 0

/-- `CoAPUintOption_get`: the new `*data`, or `none` where there is no such option. -/
def coapUintOptionGet (options : List OptionView) (optnum : UInt16) (data : UInt32) :
    Option UInt32 :=
  (options.find? fun o => o.1 = optnum).map fun o =>
    if 1 ≤ o.2.1 ∧ o.2.1 ≤ 4 then orBytes data (o.2.2.take o.2.1.toNat) else 0

/-- The options of a built message, where `num` is the delta. -/
def OutMessage.views (message : OutMessage) : List OptionView :=
  message.options.map fun o => (o.num, o.len, o.val.getD [])

/-- The token of a node or observable against that of a message. -/
def sameToken (token : List UInt8) (tokenlen : UInt8) (msgToken : List UInt8) : Bool :=
  decide (0 ≠ token.length) && decide (token.length = tokenlen.toNat) && decide (token = msgToken)

theorem sameToken_eq_true {token : List UInt8} {tokenlen : UInt8} {msgToken : List UInt8} :
    sameToken token tokenlen msgToken = true ↔
      token ≠ [] ∧ token.length = tokenlen.toNat ∧ token = msgToken := by
  unfold sameToken
  rw [Bool.and_eq_true, Bool.and_eq_true, decide_eq_true_eq, decide_eq_true_eq, decide_eq_true_eq,
    and_assoc, ← List.length_pos_iff]
  refine and_congr_left fun _ => ?_
  omega

/-! ## Sending -/

/-- What the environment does in one `CoAPMessage_send`: whether the buffer and the
node can be allocated, what `CoAPNetwork_write` returns, whether the remote
address is a multicast one, and the time. -/
structure SendIo where
  buffer : Bool
  written : Int
  node : Bool
  multicast : Bool
  tick : Nat

abbrev coapMaxRetryCount : UInt8 := 8
abbrev coapAckTimeout : UInt16 := 600

def coapObsClientDelete (ctx : CoapContext) (message : OutMessage) : CoapContext :=
  if message.header.code = coapMsgCodeGet ∧
      coapUintOptionGet message.views coapOptionObserve 0 = some 1 then
    match splitFirst (fun node => sameToken node.token message.header.tokenlen message.token)
      ctx.obsclient.list with
    | some (as, _, bs) =>
      { ctx with
        obsclient := { ctx.obsclient with list := as ++ bs, count := ctx.obsclient.count - 1 } }
    | none => ctx
  else ctx

/-- The node `CoAPMessageList_add` fills. -/
def coapSendNode (ctx : CoapContext) (remote : NetworkAddr) (message : OutMessage)
    (buffer : List UInt8) (io : SendIo) : CoapSendNode where
  id := ctx.nextId
  header := message.header
  retransCount := if message.header.type = coapMessageTypeCon then coapMaxRetryCount else 0
  token := message.token
  timeout :=
    if message.header.type = coapMessageTypeCon then coapAckTimeout.toNat + io.tick
    else coapAckTimeout.toNat * 4 + io.tick
  timeoutVal := coapAckTimeout
  handler := message.handler
  remote := remote
  user := message.user
  message := buffer
  acked := false
  keep := io.multicast || decide (message.keep = 1)

def coapMessageListAdd (ctx : CoapContext) (remote : NetworkAddr) (message : OutMessage)
    (buffer : List UInt8) (io : SendIo) : Int × CoapContext :=
  if io.node = false then (coapErrorNull, ctx)
  else if ctx.sendlist.count ≥ ctx.sendlist.maxcount then (coapErrorDataSize, ctx)
  else
    (coapSuccess,
      { ctx with
        sendlist :=
          { ctx.sendlist with
            list := ctx.sendlist.list ++ [coapSendNode ctx remote message buffer io]
            count := ctx.sendlist.count + 1 }
        nextId := ctx.nextId + 1 })

/-- The first `len` bytes of a zeroed buffer after the stores. -/
def Image.bytes (img : Image) (len : UInt16) : List UInt8 :=
  (List.range len.toNat).map fun i => (img i).getD 0

/-- What a call leaves: the result (`none` where it has read through a `NULL`
option value), the context, and what it did. -/
structure Outcome where
  ret : Option Int
  ctx : CoapContext
  events : List CoapEvent

/-- `CoAPMessage_send` from the datagram on. -/
def coapMessageWrite (ctx : CoapContext) (remote : NetworkAddr) (message : OutMessage)
    (buff : List UInt8) (io : SendIo) : Outcome :=
  let ctx := coapObsClientDelete ctx message
  let events := [CoapEvent.write remote buff]
  let readlen := UInt16.ofInt io.written
  if UInt16.ofNat buff.length = readlen then
    if coapReqMsg message.header || coapConRespMsg message.header then
      let (ret, ctx) := coapMessageListAdd ctx remote message buff io
      ⟨some ret, ctx, events⟩
    else ⟨some coapSuccess, ctx, events⟩
  else ⟨some coapErrorWriteFailed, ctx, events⟩

theorem write_events (ctx : CoapContext) (remote : NetworkAddr) (message : OutMessage)
    (buff : List UInt8) (io : SendIo) :
    (coapMessageWrite ctx remote message buff io).events = [.write remote buff] := by
  unfold coapMessageWrite
  dsimp only
  split
  · split <;> rfl
  · rfl

/-- `CoAPMessage_send`. The buffer has `CoAPSerialize_MessageLength` bytes. -/
def coapMessageSend (ctx : CoapContext) (remote : NetworkAddr) (message : OutMessage)
    (io : SendIo) : Outcome :=
  let msglen := coapSerializeMessageLength message
  if coapMsgMaxPduLen < msglen.toNat then ⟨some coapErrorDataSize, ctx, []⟩
  else if io.buffer = false then ⟨some coapErrorNull, ctx, []⟩
  else
    match coapSerializeMessage message msglen with
    | none => ⟨none, ctx, []⟩
    | some (n, img) => coapMessageWrite ctx remote message (img.bytes (UInt16.ofInt n)) io

/-- `CoAPMessage_cancel` and `CoAPMessageId_cancel`: every node with the message id
is removed. -/
def coapMessageIdCancel (ctx : CoapContext) (msgid : UInt16) : CoapContext :=
  let gone := ctx.sendlist.list.countP fun node => node.header.msgid = msgid
  { ctx with
    sendlist :=
      { ctx.sendlist with
        list := ctx.sendlist.list.filter fun node => ! decide (node.header.msgid = msgid)
        count := ctx.sendlist.count - UInt8.ofNat gone } }

end AliyunIot.Coap
