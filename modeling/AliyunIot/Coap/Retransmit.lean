import AliyunIot.Coap.Dispatch
import AliyunIot.Coap.Lists
import AliyunIot.Lib.Keyed

/-!
# Retransmission

`Check_timeout` and `Retansmit` of the server's `CoAPMessage.c`, and what every
operation on the send list does to it (`SendlistStep`). `Check_timeout` calls a
handler after each node it has taken out, with the list unlocked, so that one turn
of its loop is an operation; what the handler does in turn comes before the next.
-/

namespace AliyunIot.Coap

open Lib

/-- What an operation does besides changing the context. -/
inductive ListEvent where
  | call (e : CoapEvent)
  | retransmit (id : Nat) (remote : NetworkAddr) (message : List UInt8)
  | timeout (id : Nat) (handler : Option Nat) (user : Nat) (remote : NetworkAddr)
  deriving DecidableEq

def coapObsServerAllDelete (ctx : CoapContext) (remote : NetworkAddr) : CoapContext :=
  let gone := ctx.obsserver.list.countP fun node => node.remote = remote
  { ctx with
    obsserver :=
      { ctx.obsserver with
        list := ctx.obsserver.list.filter fun node => ! decide (node.remote = remote)
        count := ctx.obsserver.count - UInt8.ofNat gone } }

/-- The test of `Check_timeout`. -/
def coapTimedOut (tick : Nat) (node : CoapSendNode) : Bool :=
  ! node.keep && ! (decide (node.retransCount > 0) || decide (node.timeout ≥ tick))

def coapCheckTimeoutTurn (ctx : CoapContext) (tick : Nat) : CoapContext × List ListEvent :=
  match splitFirst (coapTimedOut tick) ctx.sendlist.list with
  | none => (ctx, [])
  | some (as, node, bs) =>
    let ctx :=
      { ctx with
        sendlist := { ctx.sendlist with list := as ++ bs, count := ctx.sendlist.count - 1 } }
    (coapObsServerAllDelete ctx node.remote,
      [.timeout node.id node.handler node.user node.remote])

/-- One node of `Retansmit`; the product is an `int`. -/
def coapRetansmitNode (tick : Nat) (node : CoapSendNode) : CoapSendNode × List ListEvent :=
  if node.timeout > tick then (node, [])
  else if node.retransCount > 0 then
    let timeoutVal := UInt16.ofNat (node.timeoutVal.toNat * 3 / 2)
    let retransCount := node.retransCount - 1
    ({ node with
        timeoutVal := timeoutVal
        retransCount := retransCount
        timeout :=
          if retransCount = 0 then tick + coapAckTimeout.toNat else tick + timeoutVal.toNat },
      if node.acked then [] else [.retransmit node.id node.remote node.message])
  else (node, [])

def coapRetansmit (ctx : CoapContext) (tick : Nat) : CoapContext × List ListEvent :=
  ({ ctx with
      sendlist :=
        { ctx.sendlist with
          list := ctx.sendlist.list.map fun node => (coapRetansmitNode tick node).1 } },
    ctx.sendlist.list.flatMap fun node => (coapRetansmitNode tick node).2)

inductive ServerOp where
  | send (remote : NetworkAddr) (message : OutMessage) (io : SendIo)
  | cancel (msgid : UInt16)
  | datagram (remote : NetworkAddr) (buf : Mem) (datalen : UInt16) (io : HandleIo)
  | checkTimeout (tick : Nat)
  | retansmit (tick : Nat)

def ServerOp.exec (md5 : List UInt8 → List UInt8) (ctx : CoapContext) :
    ServerOp → CoapContext × List ListEvent
  | .send remote message io =>
    let out := coapMessageSend ctx remote message io
    (out.ctx, out.events.map .call)
  | .cancel msgid => (coapMessageIdCancel ctx msgid, [])
  | .datagram remote buf datalen io =>
    let r := coapMessageHandle md5 ctx remote buf datalen io
    (r.1, r.2.map .call)
  | .checkTimeout tick => coapCheckTimeoutTurn ctx tick
  | .retansmit tick => coapRetansmit ctx tick

/-! ## What an operation does to the send list -/

/-- The send list and the number of the next node. -/
structure SendQueue where
  list : CoapList CoapSendNode
  nextId : Nat

def CoapContext.queue (ctx : CoapContext) : SendQueue := ⟨ctx.sendlist, ctx.nextId⟩

namespace SendQueue

def link (q : SendQueue) (node : CoapSendNode) : SendQueue where
  list := { q.list with list := q.list.list ++ [node], count := q.list.count + 1 }
  nextId := q.nextId + 1

def unlink (q : SendQueue) (as bs : List CoapSendNode) : SendQueue :=
  { q with list := { q.list with list := as ++ bs, count := q.list.count - 1 } }

def update (q : SendQueue) (list : List CoapSendNode) : SendQueue :=
  { q with list := { q.list with list := list } }

end SendQueue

def CoapSendNode.calls (node : CoapSendNode) (result : CoapReqResult) (remote : NetworkAddr) :
    List ListEvent :=
  (node.handler.map fun h => .call (.handler h result node.user remote)).toList

def ListEvent.IsWrite (e : ListEvent) : Prop := ∃ remote data, e = .call (.write remote data)

/-- An acknowledgement or a reset, and a response. -/
def isAck (message : CoapMessage) : Bool := coapAckMsg message.head || coapResetMsg message.head

def isResp (message : CoapMessage) : Bool := ! isAck message && coapRespMsg message.head

variable (ctx : CoapContext)

theorem queue_obsClientDelete (message : OutMessage) :
    (coapObsClientDelete ctx message).queue = ctx.queue := by
  unfold coapObsClientDelete
  split
  · split <;> rfl
  · rfl

theorem send_eq (remote : NetworkAddr) (message : OutMessage) (io : SendIo) :
    (∃ ret, ret ≠ some coapSuccess ∧ coapMessageSend ctx remote message io = ⟨ret, ctx, []⟩) ∨
    ∃ buff, coapMessageSend ctx remote message io =
      coapMessageWrite ctx remote message buff io := by
  unfold coapMessageSend
  dsimp only
  split
  · exact .inl ⟨_, by decide, rfl⟩
  · split
    · exact .inl ⟨_, by decide, rfl⟩
    · split
      · exact .inl ⟨_, by decide, rfl⟩
      · exact .inr ⟨_, rfl⟩

end AliyunIot.Coap
