import AliyunIot.Coap.MessageId
import AliyunIot.Coap.Retransmit
import AliyunIot.Lib.Locks

/-!
# Notifying observers under the mutexes

`CoAPObsServer_notify` of `CoAPObserve.c` beside `Check_timeout` and `Retansmit`. A step
of either thread ends where the thread next waits for the mutex of the send list or of
the observer list: `CoAPMessage_send` is taken up to `CoAPMessageList_add` and from there,
`Check_timeout` up to `CoapObsServerAll_delete` and from there.
-/

namespace AliyunIot.Coap

open Lib

abbrev coapOptionContentFormat : UInt16 := 12

/-- What the environment does for one notification: the allocations of its three
options, what the handler makes of the payload (`none` where it fails), and the send. -/
structure NotifyIo where
  observe : Bool
  ctype : Bool
  maxage : Bool
  encrypted : Option Block
  send : SendIo

/-- A call of `CoAPObsServer_notify` that has found its resource: `handler` is whether
there is one for the payload, `io` the environment for the observer at each place. -/
structure NotifyCall where
  resource : Nat
  payload : Block
  handler : Bool
  io : Nat → NotifyIo

/-- The message to one observer; the payload is `none` where its encryption failed. -/
def coapNotification (node : CoapObserver) (maxage : UInt32) (msgid : UInt16)
    (payload : Option Block) (io : NotifyIo) : OutMessage :=
  let message := (coapMessageTypeSet coapMessageInit node.msgType).2
  let message := coapMessageCodeSet message coapMsgCode205Content
  let message := coapMessageIdSet message msgid
  let message := coapMessageHandlerSet message none
  let message := coapMessageUserDataSet message node.resource
  let message := (coapMessageTokenSet message node.token).2
  let message := (coapUintOptionAdd message coapOptionObserve node.sequenceNum io.observe).2
  let message := (coapUintOptionAdd message coapOptionContentFormat node.ctype.toUInt32 io.ctype).2
  let message := (coapUintOptionAdd message coapOptionMaxage maxage io.maxage).2
  match payload with
  | some payload => coapMessagePayloadSet message payload
  | none => message

def NotifyCall.payloadAt (call : NotifyCall) (i : Nat) : Option Block :=
  if call.handler then (call.io i).encrypted else some call.payload

def NotifyCall.maxage (call : NotifyCall) (ctx : CoapContext) : UInt32 :=
  (ctx.resource.list[call.resource]?).elim 0 fun resource => resource.entry.maxage

def NotifyCall.message (call : NotifyCall) (ctx : CoapContext) (i : Nat) (node : CoapObserver)
    (msgid : UInt16) : OutMessage :=
  coapNotification node (call.maxage ctx) msgid (call.payloadAt i) (call.io i)

/-- The message id and the sequence number of the observer at a place are used up. -/
def coapNotified (ctx : CoapContext) (i : Nat) (node : CoapObserver) : CoapContext :=
  { ctx with
    messageId := (coapMessageIdGen ctx.messageId).2
    obsserver :=
      { ctx.obsserver with
        list := ctx.obsserver.list.set i { node with sequenceNum := node.sequenceNum + 1 } } }

/-- The datagram of a `CoAPMessage_send` that gets as far as the lock of the send list. -/
def coapSendLocks (message : OutMessage) (io : SendIo) : Option (List UInt8) :=
  let msglen := coapSerializeMessageLength message
  if coapMsgMaxPduLen < msglen.toNat then none
  else if io.buffer = false then none
  else
    (coapSerializeMessage message msglen).bind fun (n, img) =>
      let buff := img.bytes (UInt16.ofInt n)
      if UInt16.ofNat buff.length = UInt16.ofInt io.written ∧
          (coapReqMsg message.header || coapConRespMsg message.header) = true ∧ io.node = true then
        some buff
      else none

/-- Where a notifying thread is: before the lock of the observer list, or holding it, at
the observer at a place or before the lock of the send list for that observer's
notification. -/
inductive Notifier where
  | idle
  | entering (call : NotifyCall)
  | visiting (call : NotifyCall) (i : Nat)
  | listing (call : NotifyCall) (i : Nat) (remote : NetworkAddr) (message : OutMessage)
    (buff : List UInt8)

/-- Where the thread of the cycle is in `Check_timeout`: before the lock of the send list,
holding it before the lock of the observer list, or before the handler's call. -/
inductive Cycle where
  | idle
  | scanning (tick : Nat)
  | deleting (tick : Nat) (node : CoapSendNode)
  | expired (tick : Nat) (node : CoapSendNode)

structure MutexThreads where
  ctx : CoapContext
  notifier : Notifier
  cycle : Cycle

/-- A step: a call begins, or the thread in it goes on. `other` is what the rest of the
server leaves behind in sections under one of the mutexes. -/
inductive MutexOp where
  | notify (path : CStr) (payload : Block) (handler : Bool) (io : Nat → NotifyIo)
  | notifier
  | checkTimeout (tick : Nat)
  | cycle
  | retansmit (tick : Nat)
  | other (sendlist : CoapList CoapSendNode) (obsserver : CoapList CoapObserver)
    (messageId : UInt16)

/-- The observer list is locked. -/
def Notifier.Holds : Notifier → Prop
  | visiting _ _ => True
  | listing _ _ _ _ _ => True
  | _ => False

instance : (notifier : Notifier) → Decidable notifier.Holds
  | .idle | .entering _ => .isFalse id
  | .visiting _ _ | .listing _ _ _ _ _ => .isTrue trivial

/-- The send list is locked. -/
def Cycle.Holds : Cycle → Prop
  | deleting _ _ => True
  | _ => False

instance : (cycle : Cycle) → Decidable cycle.Holds
  | .idle | .scanning _ | .expired _ _ => .isFalse id
  | .deleting _ _ => .isTrue trivial

namespace MutexThreads

/-- `CoAPObsServer_notify` up to the lock. -/
def notify (md5 : List UInt8 → List UInt8) (s : MutexThreads) (path : CStr) (payload : Block)
    (handler : Bool) (io : Nat → NotifyIo) : MutexThreads :=
  match s.ctx.resource.list.findIdx? (answersPath md5 path) with
  | some resource => { s with notifier := .entering ⟨resource, payload, handler, io⟩ }
  | none => s

/-- One turn of the loop of `CoAPObsServer_notify`, up to the lock of the send list. -/
def visit (s : MutexThreads) (call : NotifyCall) (i : Nat) : MutexThreads :=
  match s.ctx.obsserver.list[i]? with
  | none => { s with notifier := .idle }
  | some node =>
    if node.resource = call.resource then
      let message := call.message s.ctx i node (coapMessageIdGen s.ctx.messageId).1
      match coapSendLocks message (call.io i).send with
      | some buff => ⟨coapNotified s.ctx i node, .listing call i node.remote message buff, s.cycle⟩
      | none => ⟨coapNotified s.ctx i node, .visiting call (i + 1), s.cycle⟩
    else { s with notifier := .visiting call (i + 1) }

def stepNotifier (s : MutexThreads) : MutexThreads :=
  match s.notifier with
  | .idle => s
  | .entering call => { s with notifier := .visiting call 0 }
  | .visiting call i => s.visit call i
  | .listing call i remote message buff =>
    if s.cycle.Holds then s
    else
      { s with
        ctx := (coapMessageListAdd s.ctx remote message buff (call.io i).send).2
        notifier := .visiting call (i + 1) }

/-- One turn of the loop of `Check_timeout`, up to the lock of the observer list. -/
def scan (s : MutexThreads) (tick : Nat) : MutexThreads :=
  match splitFirst (coapTimedOut tick) s.ctx.sendlist.list with
  | none => { s with cycle := .idle }
  | some (as, node, bs) =>
    { s with
      ctx :=
        { s.ctx with
          sendlist := { s.ctx.sendlist with list := as ++ bs, count := s.ctx.sendlist.count - 1 } }
      cycle := .deleting tick node }

def stepCycle (s : MutexThreads) : MutexThreads :=
  match s.cycle with
  | .idle => s
  | .scanning tick => s.scan tick
  | .deleting tick node =>
    if s.notifier.Holds then s
    else
      { s with
        ctx := coapObsServerAllDelete s.ctx node.remote
        cycle := .expired tick node }
  | .expired tick _ => { s with cycle := .scanning tick }

/-- What the rest of the server does to the lists that are not locked. -/
def other (s : MutexThreads) (sendlist : CoapList CoapSendNode)
    (obsserver : CoapList CoapObserver) (messageId : UInt16) : MutexThreads :=
  { s with
    ctx :=
      { s.ctx with
        messageId := messageId
        sendlist := if s.cycle.Holds then s.ctx.sendlist else sendlist
        obsserver := if s.notifier.Holds then s.ctx.obsserver else obsserver } }

def next (md5 : List UInt8 → List UInt8) (s : MutexThreads) : MutexOp → MutexThreads
  | .notify path payload handler io =>
    match s.notifier with
    | .idle => s.notify md5 path payload handler io
    | _ => s
  | .notifier => s.stepNotifier
  | .checkTimeout tick =>
    match s.cycle with
    | .idle => { s with cycle := .scanning tick }
    | _ => s
  | .cycle => s.stepCycle
  | .retansmit tick =>
    match s.cycle with
    | .idle => { s with ctx := (coapRetansmit s.ctx tick).1 }
    | _ => s
  | .other sendlist obsserver messageId => s.other sendlist obsserver messageId

def init (ctx : CoapContext) : MutexThreads := ⟨ctx, .idle, .idle⟩

end MutexThreads

/-! ## Who waits for whom -/

inductive Mutex where
  | sendlist | obsserver
  deriving DecidableEq

inductive MutexThread where
  | notifier | cycle

def Notifier.stance : Notifier → Stance Mutex
  | idle => ⟨[], none⟩
  | entering _ => ⟨[], some .obsserver⟩
  | visiting _ _ => ⟨[.obsserver], none⟩
  | listing _ _ _ _ _ => ⟨[.obsserver], some .sendlist⟩

def Cycle.stance : Cycle → Stance Mutex
  | idle => ⟨[], none⟩
  | scanning _ => ⟨[], some .sendlist⟩
  | deleting _ _ => ⟨[.sendlist], some .obsserver⟩
  | expired _ _ => ⟨[], none⟩

def MutexThreads.stance (s : MutexThreads) : MutexThread → Stance Mutex
  | .notifier => s.notifier.stance
  | .cycle => s.cycle.stance

end AliyunIot.Coap
