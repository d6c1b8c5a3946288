import AliyunIot.Coap.Confined
import AliyunIot.Coap.Server

/-!
# Receiving a datagram

The receiving half of the server's `CoAPMessage.c`: the acknowledgement, response
and request handlers and `CoAPMessage_handle`, which dispatches on the header of
whatever was decoded. Option values are read from the receive buffer.
-/

namespace AliyunIot.Coap

open Lib

/-- The header of a decoded message, zeroed where nothing was decoded. -/
def CoapMessage.head (message : CoapMessage) : CoapMsgHeader :=
  message.header.getD ⟨0, 0, 0, 0, 0⟩

def CoapMessage.views (message : CoapMessage) (buf : Mem) : List OptionView :=
  message.options.map fun o => (o.num, o.len, slice buf o.val o.len.toNat)

/-- What the environment does while one datagram is handled: the one message that
is sent, and the allocation of an observable. -/
structure HandleIo where
  send : SendIo
  observable : Bool

def coapAckMessageHandle (ctx : CoapContext) (message : CoapMessage) :
    CoapContext × List CoapEvent :=
  match splitFirst (fun node => decide (node.header.msgid = message.head.msgid))
    ctx.sendlist.list with
  | none => (ctx, [])
  | some (as, node, bs) =>
    let sendlist :=
      if coapRespMsg node.header then
        { ctx.sendlist with list := as ++ bs, count := ctx.sendlist.count - 1 }
      else { ctx.sendlist with list := as ++ { node with acked := true } :: bs }
    ({ ctx with sendlist := sendlist },
      (node.handler.map fun h => CoapEvent.handler h .recvRespSuc node.user node.remote).toList)

/-- `CoAPAckMessage_send` and `CoAPRequestMessage_ack_send`. -/
def coapAckMessageSend (ctx : CoapContext) (remote : NetworkAddr) (msgid : UInt16) (io : SendIo) :
    Outcome :=
  coapMessageSend ctx remote (coapMessageIdSet coapMessageInit msgid) io

def coapRestMessageSend (ctx : CoapContext) (remote : NetworkAddr) (msgid : UInt16) (io : SendIo) :
    Outcome :=
  coapMessageSend ctx remote
    (coapMessageIdSet (coapMessageTypeSet coapMessageInit coapMessageTypeRst).2 msgid) io

/-- The message of `CoAPErrRespMessage_send`. A token length above 8, of which only
eight bytes were decoded, is refused by `CoAPMessageToken_set`. -/
def coapErrResponse (message : CoapMessage) (errCode : UInt8) : OutMessage :=
  let response := coapMessageIdSet (coapMessageCodeSet coapMessageInit errCode) message.head.msgid
  let response :=
    if message.head.tokenlen.toNat = message.token.length then
      (coapMessageTokenSet response message.token).2
    else response
  if message.head.type = coapMessageTypeCon then (coapMessageTypeSet response coapMessageTypeAck).2
  else (coapMessageTypeSet response message.head.type).2

def coapErrRespMessageSend (ctx : CoapContext) (remote : NetworkAddr) (message : CoapMessage)
    (errCode : UInt8) (io : SendIo) : Outcome :=
  coapMessageSend ctx remote (coapErrResponse message errCode) io

def coapNewObservable (message : CoapMessage) (options : List OptionView) (remote : NetworkAddr)
    (sendnode : CoapSendNode) : CoapObservable where
  remote := remote
  token := message.token
  callback := sendnode.handler
  maxAge := (coapUintOptionGet options coapOptionMaxage 0).getD 0
  userdata := sendnode.user

def coapObsClientAdd (ctx : CoapContext) (message : CoapMessage) (options : List OptionView)
    (remote : NetworkAddr) (sendnode : Option CoapSendNode) (malloc : Bool) :
    CoapContext × List CoapEvent :=
  let found := splitFirst
    (fun node => sameToken node.token message.head.tokenlen message.token) ctx.obsclient.list
  if coapOptionPresent options coapOptionObserve then
    match sendnode with
    | none =>
      match found with
      | none => (ctx, [])
      | some (as, node, bs) =>
        let maxAge := (coapUintOptionGet options coapOptionMaxage node.maxAge).getD node.maxAge
        ({ ctx with
            obsclient :=
              { ctx.obsclient with list := as ++ { node with maxAge := maxAge } :: bs } },
          (node.callback.map fun h =>
            CoapEvent.handler h .requestSuccess node.userdata remote).toList)
    | some sendnode =>
      if found.isNone ∧ ctx.obsclient.count < ctx.obsclient.maxcount ∧ malloc = true then
        ({ ctx with
            obsclient :=
              { ctx.obsclient with
                list := ctx.obsclient.list ++ [coapNewObservable message options remote sendnode]
                count := ctx.obsclient.count + 1 } }, [])
      else (ctx, [])
  else
    match found with
    | none => (ctx, [])
    | some (as, _, bs) =>
      ({ ctx with
          obsclient :=
            { ctx.obsclient with list := as ++ bs, count := ctx.obsclient.count - 1 } }, [])

def coapRespMessageHandle (ctx : CoapContext) (remote : NetworkAddr) (message : CoapMessage)
    (options : List OptionView) (io : HandleIo) : CoapContext × List CoapEvent :=
  let acked :=
    if message.head.type = coapMessageTypeCon then
      let out := coapAckMessageSend ctx remote message.head.msgid io.send
      (out.ctx, out.events)
    else (ctx, [])
  let ctx := acked.1
  match splitFirst (fun node => sameToken node.token message.head.tokenlen message.token)
    ctx.sendlist.list with
  | some (as, node, bs) =>
    let ctx :=
      if node.keep then ctx
      else
        { ctx with
          sendlist := { ctx.sendlist with list := as ++ bs, count := ctx.sendlist.count - 1 } }
    match node.handler with
    | some h =>
      let added := coapObsClientAdd ctx message options remote (some node) io.observable
      (added.1, acked.2 ++ added.2 ++ [.handler h .requestSuccess node.user remote])
    | none => (ctx, acked.2)
  | none =>
    let added := coapObsClientAdd ctx message options remote none io.observable
    (added.1, acked.2 ++ added.2)

/-- `strncpy` of `len` bytes: what follows a NUL is zero. -/
def strncpyBytes (val : List UInt8) : List UInt8 :=
  let text := val.takeWhile (· ≠ 0)
  text ++ List.replicate (val.length - text.length) 0

/-- The path array while the options are run through: one segment for each
`Uri-Path` that still fits the 128 bytes. -/
def coapRequestPath : List OptionView → List UInt8 → List UInt8
  | [], path => path
  | (num, len, val) :: options, path =>
    if num = coapOptionUriPath ∧ coapMsgMaxPathLen - 1 ≥ path.length + len.toNat then
      coapRequestPath options (path ++ chSlash :: strncpyBytes val)
    else coapRequestPath options path

/-- The array as a C string. -/
def cstrOf (bytes : List UInt8) : CStr :=
  ⟨bytes.takeWhile (· ≠ 0), CStr.zero_not_mem_takeWhile bytes⟩

def coapRequestMessageHandle (md5 : List UInt8 → List UInt8) (ctx : CoapContext)
    (remote : NetworkAddr) (message : CoapMessage) (options : List OptionView) (io : HandleIo) :
    CoapContext × List CoapEvent :=
  let path := cstrOf (coapRequestPath options [])
  let refuse (errCode : UInt8) :=
    let out := coapErrRespMessageSend ctx remote message errCode io.send
    (out.ctx, out.events)
  match coapResourceByPathGet md5 ctx.resource path with
  | none => refuse coapMsgCode404NotFound
  | some resource =>
    match resource.entry.callback with
    | none => refuse coapMsgCode405MethodNotAllowed
    | some callback =>
      if resource.entry.permission.toNat &&& (1 <<< (message.head.code.toNat - 1)) > 0 then
        if message.head.type = coapMessageTypeCon then
          let out := coapAckMessageSend ctx remote message.head.msgid io.send
          (out.ctx, out.events ++ [.resource callback path remote])
        else (ctx, [.resource callback path remote])
      else refuse coapMsgCode405MethodNotAllowed

/-- `CoAPMessage_handle`; the result of the deserializer is not looked at. -/
def coapMessageHandle (md5 : List UInt8 → List UInt8) (ctx : CoapContext) (remote : NetworkAddr)
    (buf : Mem) (datalen : UInt16) (io : HandleIo) : CoapContext × List CoapEvent :=
  let message := (Probe.value buf (coapDeserializeMessage datalen.toNat)).2
  let header := message.head
  if coapAckMsg header || coapResetMsg header then coapAckMessageHandle ctx message
  else if coapRespMsg header then
    coapRespMessageHandle ctx remote message (message.views buf) io
  else if coapPingMsg header then
    let out := coapRestMessageSend ctx remote header.msgid io.send
    (out.ctx, out.events)
  else if coapReqMsg header then
    coapRequestMessageHandle md5 ctx remote message (message.views buf) io
  else (ctx, [])

def decoded (buf : Mem) (datalen : UInt16) : CoapMessage :=
  (Probe.value buf (coapDeserializeMessage datalen.toNat)).2

end AliyunIot.Coap
