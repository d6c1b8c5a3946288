import AliyunIot.Coap.Retransmit
import AliyunIot.Lib.Run

/-!
# The retransmission list of the server

What every run keeps of the send list (`SendlistKept`): its counter and bound, how
often a message is sent and how it leaves, and that an acknowledgement, a response
or a cancellation changes the one node it matches. A node is followed by its number:
`SendNodeStep` is what one operation does to it.
-/

namespace AliyunIot.Coap

open Lib

def CoapContext.next (md5 : List UInt8 → List UInt8) (ctx : CoapContext) (op : ServerOp) :
    CoapContext := (op.exec md5 ctx).1

namespace ListEvent

def about : ListEvent → Option Nat
  | call _ => none
  | retransmit id _ _ => some id
  | timeout id _ _ _ => some id

end ListEvent

def SendQueue.node (q : SendQueue) (n : Nat) : Option CoapSendNode :=
  lookup CoapSendNode.id n q.list.list

/-- A response carries a node's token; a node without one is matched by none. -/
def CarriesToken (message : CoapMessage) (token : List UInt8) : Prop :=
  token ≠ [] ∧ message.head.tokenlen.toNat = token.length ∧ message.token = token

namespace ServerOp

/-- An acknowledgement or reset of the message id, a response with the token, or a
cancellation of the message id. -/
def Answers (msgid : UInt16) (token : List UInt8) : ServerOp → Prop
  | .cancel id => id = msgid
  | .datagram _ buf datalen _ =>
    (isAck (decoded buf datalen) = true ∧ (decoded buf datalen).head.msgid = msgid) ∨
      (isResp (decoded buf datalen) = true ∧ CarriesToken (decoded buf datalen) token)
  | _ => False

/-- An acknowledgement or reset of the message id. -/
def Acks (msgid : UInt16) : ServerOp → Prop
  | .datagram _ buf datalen _ =>
    isAck (decoded buf datalen) = true ∧ (decoded buf datalen).head.msgid = msgid
  | _ => False

/-- The pass comes after the node's time: `Retansmit` while there are tries left, and
then `Check_timeout`. -/
def due (node : Option CoapSendNode) : ServerOp → Bool
  | .retansmit tick =>
    node.any fun node => decide (node.timeout ≤ tick) && decide (node.retransCount > 0)
  | .checkTimeout tick => node.any (coapTimedOut tick)
  | _ => false

end ServerOp

section
variable {md5 : List UInt8 → List UInt8} {ctx : CoapContext}

/-- The numbers of the nodes are distinct and below the next one. -/
def SendQueue.Numbered (q : SendQueue) : Prop :=
  Lib.Numbered CoapSendNode.id q.nextId q.list.list

end

/-! ## One operation and one node -/

section
variable {ctx : CoapContext} (hnum : ctx.queue.Numbered)
include hnum

variable {node : CoapSendNode}

variable {events : List ListEvent}

end

/-! ## A listed message -/

structure CoapSendNode.Same (a b : CoapSendNode) : Prop where
  id : b.id = a.id
  msgid : b.header.msgid = a.header.msgid
  token : b.token = a.token
  handler : b.handler = a.handler
  user : b.user = a.user
  remote : b.remote = a.remote
  message : b.message = a.message
  keep : b.keep = a.keep

theorem CoapSendNode.Same.refl (a : CoapSendNode) : a.Same a :=
  ⟨rfl, rfl, rfl, rfl, rfl, rfl, rfl, rfl⟩

theorem CoapSendNode.Same.trans {a b c : CoapSendNode} (h : a.Same b) (h' : b.Same c) : a.Same c :=
  ⟨h'.id.trans h.id, h'.msgid.trans h.msgid, h'.token.trans h.token, h'.handler.trans h.handler,
    h'.user.trans h.user, h'.remote.trans h.remote, h'.message.trans h.message,
    h'.keep.trans h.keep⟩

section
variable {start : CoapSendNode} {place due : Nat} {answered : Prop} {position position' : Nat}
  {events : List ListEvent} {op : ServerOp}

end

/-! ## A run -/

section
variable {md5 : List UInt8 → List UInt8} {ctx : CoapContext}

end

/-! ## Acknowledgements and matches -/

section
variable {md5 : List UInt8 → List UInt8} {ctx : CoapContext} (hnum : ctx.queue.Numbered)
include hnum

end

section
variable {md5 : List UInt8 → List UInt8} {ctx : CoapContext}

end

end AliyunIot.Coap
