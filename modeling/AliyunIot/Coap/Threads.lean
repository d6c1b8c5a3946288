import AliyunIot.Coap.Retransmit
import AliyunIot.Lib.Ledger
import AliyunIot.Lib.Run

/-!
# The send list under several threads

Any number of threads inside `CoAPMessage_send`, `CoAPMessage_cancel` and
`CoAPMessageId_cancel`, and the receive thread inside `CoAPAckMessage_handle`,
`CoAPRespMessage_handle` and `Check_timeout`. A step is one section under the mutex
of the send list, or what a thread does between two of them. What a handler sends or
cancels are steps of their own, taken while the receive thread is in its call.
-/

namespace AliyunIot.Coap

open Lib

/-- Where the receive thread is with the node it has found: before the handler's
call, after it, or with a node that has timed out. -/
inductive Receiver where
  | idle
  | found (node : CoapSendNode)
  | called (node : CoapSendNode)
  | expired (node : CoapSendNode)
  deriving DecidableEq

/-- The send list, the messages whose datagram is written and that are not yet listed,
and the receive thread. The rest records what happened: the nodes allocated and freed,
the messages written, cancelled and timed out, those that a response was handled for
in time, and the calls of response handlers. -/
structure ServerThreads where
  sendlist : CoapList CoapSendNode
  written : List CoapSendNode
  receiver : Receiver
  nextId : Nat
  allocated : List Nat
  heap : Ledger
  messages : List CoapSendNode
  cancelled : List Nat
  timedOut : List Nat
  handled : List Nat
  calls : List Nat

/-- A thread's step. `write` is `CoAPMessage_send` up to the datagram, with what its
node will hold; `list` is `CoAPMessageList_add`; `resp` and `finish` are
`CoAPRespMessage_handle` up to the unlock and from the handler's return on; `expire`
is the locked part of a turn of `Check_timeout`. `garbage` is what is read from a freed
node. -/
inductive ThreadOp where
  | write (node : CoapSendNode)
  | list (id : Nat) (malloc : Bool)
  | cancel (msgid : UInt16)
  | ack (msgid : UInt16)
  | resp (message : CoapMessage)
  | call
  | finish (garbage : Bool)
  | expire (id : Nat)

namespace ServerThreads

def ids (nodes : List CoapSendNode) : List Nat := nodes.map CoapSendNode.id

def unlink (s : ServerThreads) (as bs : List CoapSendNode) : ServerThreads :=
  { s with sendlist := { s.sendlist with list := as ++ bs, count := s.sendlist.count - 1 } }

/-- A response to the message would be handled in time: it is a request that has a
handler and is not kept, and was not cancelled, timed out or answered before. -/
def InTime (s : ServerThreads) (node : CoapSendNode) : Prop :=
  node.keep = false ∧ node.handler ≠ none ∧ coapReqMsg node.header = true ∧
    node.id ∉ s.cancelled ∧ node.id ∉ s.timedOut ∧ node.id ∉ s.handled

instance (s : ServerThreads) (node : CoapSendNode) : Decidable (s.InTime node) := by
  unfold InTime
  infer_instance

def HasToken (message : CoapMessage) (node : CoapSendNode) : Prop :=
  message.head.tokenlen.toNat = node.token.length ∧ message.token = node.token

instance (message : CoapMessage) (node : CoapSendNode) : Decidable (HasToken message node) := by
  unfold HasToken
  infer_instance

def listAdd (s : ServerThreads) (id : Nat) (malloc : Bool) : ServerThreads :=
  match splitFirst (fun node => decide (node.id = id)) s.written with
  | none => s
  | some (as, node, bs) =>
    let s := { s with written := as ++ bs }
    if malloc = false then s
    else
      let s := { s with allocated := s.allocated ++ [node.id] }
      if s.sendlist.count ≥ s.sendlist.maxcount then { s with heap := s.heap.free [node.id] }
      else
        { s with
          sendlist :=
            { s.sendlist with
              list := s.sendlist.list ++ [node]
              count := s.sendlist.count + 1 } }

/-- `CoAPMessage_cancel` and `CoAPMessageId_cancel`. -/
def cancel (s : ServerThreads) (msgid : UInt16) : ServerThreads :=
  let gone := s.sendlist.list.filter fun node => node.header.msgid = msgid
  { s with
    sendlist :=
      { s.sendlist with
        list := s.sendlist.list.filter fun node => ! decide (node.header.msgid = msgid)
        count := s.sendlist.count - UInt8.ofNat gone.length }
    heap := (s.heap.touch (ids s.sendlist.list)).free (ids gone)
    cancelled := s.cancelled ++ ids (s.messages.filter fun node => node.header.msgid = msgid) }

/-- `CoAPAckMessage_handle`. -/
def ackHandle (s : ServerThreads) (msgid : UInt16) : ServerThreads :=
  match splitFirst (fun node => decide (node.header.msgid = msgid)) s.sendlist.list with
  | none => { s with heap := s.heap.touch (ids s.sendlist.list) }
  | some (as, node, bs) =>
    let s := { s with heap := s.heap.touch (ids (as ++ [node])) }
    if coapRespMsg node.header then
      { s.unlink as bs with heap := s.heap.free [node.id] }
    else
      { s with
        sendlist := { s.sendlist with list := as ++ { node with acked := true } :: bs } }

/-- `CoAPRespMessage_handle` up to the unlock. -/
def respHandle (s : ServerThreads) (message : CoapMessage) : ServerThreads :=
  let s' :=
    { s with
      handled := s.handled ++ ids (s.messages.filter fun node =>
        decide (s.InTime node) && decide (HasToken message node)) }
  match splitFirst (fun node => sameToken node.token message.head.tokenlen message.token)
    s.sendlist.list with
  | none => { s' with heap := s.heap.touch (ids s.sendlist.list) }
  | some (as, node, bs) =>
    let s' := { s' with heap := s.heap.touch (ids (as ++ [node])), receiver := .found node }
    if node.keep then s' else s'.unlink as bs

def call (s : ServerThreads) (node : CoapSendNode) : ServerThreads :=
  { s with
    receiver := .called node
    calls := if node.handler = none then s.calls else s.calls ++ [node.id] }

/-- `CoAPRespMessage_handle` from the handler's return on: the node's `keep` is read. -/
def finish (s : ServerThreads) (node : CoapSendNode) (garbage : Bool) : ServerThreads :=
  let keep := if node.id ∈ s.heap.freed then garbage else node.keep
  let heap := s.heap.touch [node.id]
  { s with receiver := .idle, heap := if keep then heap else heap.free [node.id] }

/-- The locked part of a turn of `Check_timeout` that takes out a node. -/
def expire (s : ServerThreads) (id : Nat) : ServerThreads :=
  match splitFirst (fun node => decide (node.id = id)) s.sendlist.list with
  | none => s
  | some (as, node, bs) =>
    if node.keep then s
    else
      { s.unlink as bs with
        heap := s.heap.touch (ids (as ++ [node]))
        timedOut := s.timedOut ++ [node.id]
        receiver := .expired node }

/-- The datagram of a message that is to be listed is written. -/
def write (s : ServerThreads) (node : CoapSendNode) : ServerThreads :=
  let node := { node with id := s.nextId }
  { s with
    written := s.written ++ [node]
    messages := s.messages ++ [node]
    nextId := s.nextId + 1 }

/-- One step; a step the receive thread cannot take does nothing. -/
def next (s : ServerThreads) : ThreadOp → ServerThreads
  | .write node =>
    if coapReqMsg node.header || coapConRespMsg node.header then s.write node else s
  | .list id malloc => s.listAdd id malloc
  | .cancel msgid => s.cancel msgid
  | .ack msgid => if s.receiver = .idle then s.ackHandle msgid else s
  | .resp message => if s.receiver = .idle then s.respHandle message else s
  | .call =>
    match s.receiver with
    | .found node => s.call node
    | _ => s
  | .finish garbage =>
    match s.receiver with
    | .called node => s.finish node garbage
    | .expired node =>
      { s with receiver := .idle, heap := (s.heap.touch [node.id]).free [node.id] }
    | _ => s
  | .expire id => if s.receiver = .idle then s.expire id else s

theorem next_call (s : ServerThreads) :
    (∃ node, s.receiver = .found node ∧ s.next .call = s.call node) ∨ s.next .call = s := by
  cases hr : s.receiver with
  | found node =>
    refine .inl ⟨node, rfl, ?_⟩
    simp only [next, hr]
  | _ =>
    refine .inr ?_
    simp only [next, hr]

theorem next_finish (s : ServerThreads) (garbage : Bool) :
    (∃ node, s.receiver = .called node ∧ s.next (.finish garbage) = s.finish node garbage) ∨
    (∃ node, s.receiver = .expired node ∧ s.next (.finish garbage) =
      { s with receiver := .idle, heap := (s.heap.touch [node.id]).free [node.id] }) ∨
    s.next (.finish garbage) = s := by
  cases hr : s.receiver with
  | called node =>
    refine .inl ⟨node, rfl, ?_⟩
    simp only [next, hr]
  | expired node =>
    refine .inr (.inl ⟨node, rfl, ?_⟩)
    simp only [next, hr]
  | _ =>
    refine .inr (.inr ?_)
    simp only [next, hr]

def init (maxcount : UInt8) : ServerThreads where
  sendlist := ⟨[], 0, maxcount⟩
  written := []
  receiver := .idle
  nextId := 0
  allocated := []
  heap := .empty
  messages := []
  cancelled := []
  timedOut := []
  handled := []
  calls := []

end ServerThreads

end AliyunIot.Coap
