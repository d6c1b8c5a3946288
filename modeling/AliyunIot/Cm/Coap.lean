import AliyunIot.Infra.CStr
import AliyunIot.Lib.First
import AliyunIot.Lib.Ledger

/-!
# Publishing over CoAP

`iotx_cm_coap.c`: any number of threads inside `_coap_publish`, the yield thread inside
`_coap_response_default`, and a thread that closes the connection. A step is one section
under the list lock, or what a thread does between two of them.
-/

namespace AliyunIot.Cm

open Lib

/-- `ext->ack_cb` and `ext->cb_context`. -/
structure CmAck where
  ackCb : Nat
  cbContext : Nat
  deriving DecidableEq

/-- A call of `_coap_publish`; `ack` is none when no callback was passed. -/
structure CoapPublish where
  id : Nat
  topic : CStr
  ack : Option CmAck
  deriving DecidableEq

/-- `coap_response_node_t`, made by the call `id`. -/
structure CoapResponseNode where
  id : Nat
  tokenNum : UInt32
  topic : CStr
  responceCb : Nat
  context : Nat
  deriving DecidableEq

/-- A message that was published, with the token it carries. -/
structure CoapSent where
  publish : CoapPublish
  token : UInt32

/-- Where a thread stands in `_coap_publish`: before `IOT_CoAP_SendMessage`, and after it,
with the token it has read. -/
inductive Publishing where
  | idle
  | send (publish : CoapPublish) (token : UInt32)
  | link (publish : CoapPublish) (token : UInt32)
  deriving DecidableEq

/-- Where the yield thread stands in `_coap_response_default` with the response to a call:
before the callback of the node it has taken, and after it. `next` is the node that the
walk has saved, none at the end of the list. -/
inductive Responding where
  | idle
  | callback (response : Nat) (token : UInt32) (node : CoapResponseNode) (next : Option Nat)
  | called (response : Nat) (token : UInt32) (next : Option Nat)
  deriving DecidableEq

/-- A callback that was invoked for the response to the call `response`, from the node of
the call `owner`. -/
structure CoapAckCall where
  response : Nat
  owner : Nat
  topic : CStr
  ack : CmAck
  deriving DecidableEq

/-- The outcomes of `IOT_CoAP_SendMessage`: refused before it takes a token, failed after
that, or `IOTX_SUCCESS`. -/
inductive SendOutcome where
  | refused | failed | success

/-- The connection, the records that wait for a response, and the threads. `sent`,
`handled` and `calls` record what happened. -/
structure CoapReplies where
  connected : Bool
  coapToken : UInt32
  list : List CoapResponseNode
  heap : Ledger
  threads : Nat → Publishing
  walker : Responding
  nextId : Nat
  sent : List CoapSent
  handled : List Nat
  calls : List CoapAckCall

/-- A step. `malloc` says which allocations succeed: those of a record, or, by the id of
the record, those of the copies of the topics. -/
inductive CoapOp where
  /-- `_coap_publish` up to `IOT_CoAP_GetCurToken` -/
  | publish (thread : Nat) (topic : CStr) (ack : Option CmAck)
  | send (thread : Nat) (outcome : SendOutcome)
  | link (thread : Nat) (malloc : Bool)
  /-- a token is taken for a message that is not published here -/
  | takeToken
  /-- `_coap_response_default` for a response to the call `id`, up to the unlock; `read`
  is whether its code, payload and token can be had -/
  | respond (id : Nat) (read : Bool) (malloc : Nat → Bool)
  | callback
  | resume (malloc : Nat → Bool)
  | close

namespace CoapReplies

def ids (nodes : List CoapResponseNode) : List Nat := nodes.map CoapResponseNode.id

def move (s : CoapReplies) (thread : Nat) (p : Publishing) : CoapReplies :=
  { s with threads := Function.update s.threads thread p }

/-- The loop of `_coap_response_default` over `rest`, up to the next unlock. A match whose
topic cannot be copied is passed over. -/
def walk (s : CoapReplies) (response : Nat) (token : UInt32) (rest : List CoapResponseNode)
    (malloc : Nat → Bool) : CoapReplies :=
  match splitFirst (fun node => decide (node.tokenNum = token) && malloc node.id) rest with
  | none =>
    { s with
      heap := s.heap.touch (ids rest), walker := .idle, handled := s.handled ++ [response] }
  | some (as, node, bs) =>
    { s with
      list := s.list.filter fun n => n.id ≠ node.id
      heap := (s.heap.touch (ids (as ++ node :: bs.take 1))).free [node.id]
      walker := .callback response token node (bs.head?.map CoapResponseNode.id) }

/-- The walk goes on from the node it has saved, if that is still there. -/
def resume (s : CoapReplies) (response : Nat) (token : UInt32) (next : Option Nat)
    (malloc : Nat → Bool) : CoapReplies :=
  match next with
  | none => { s with walker := .idle, handled := s.handled ++ [response] }
  | some id =>
    let s := { s with heap := s.heap.touch [id] }
    s.walk response token (s.list.dropWhile fun n => n.id ≠ id) malloc

def next (s : CoapReplies) : CoapOp → CoapReplies
  | .publish thread topic ack =>
    if s.connected ∧ s.threads thread = .idle then
      { s.move thread (.send ⟨s.nextId, topic, ack⟩ s.coapToken) with nextId := s.nextId + 1 }
    else s
  | .send thread outcome =>
    match s.threads thread with
    | .send publish token =>
      match outcome with
      | .refused => s.move thread .idle
      | .failed => { s.move thread .idle with coapToken := s.coapToken + 1 }
      | .success =>
        { s.move thread (.link publish token) with
          coapToken := s.coapToken + 1, sent := s.sent ++ [⟨publish, s.coapToken⟩] }
    | _ => s
  | .link thread malloc =>
    match s.threads thread with
    | .link publish token =>
      match publish.ack with
      | none => s.move thread .idle
      | some ack =>
        if malloc = false then s.move thread .idle
        else
          { s.move thread .idle with
            list := s.list ++ [⟨publish.id, token, publish.topic, ack.ackCb, ack.cbContext⟩] }
    | _ => s
  | .takeToken => { s with coapToken := s.coapToken + 1 }
  | .respond id read malloc =>
    if s.connected ∧ s.walker = .idle then
      match s.sent.find? fun x => x.publish.id = id with
      | none => s
      | some x =>
        if read = false then { s with handled := s.handled ++ [id] }
        else s.walk id x.token s.list malloc
    else s
  | .callback =>
    match s.walker with
    | .callback response token node next =>
      { s with
        walker := .called response token next
        calls := s.calls ++ [⟨response, node.id, node.topic, ⟨node.responceCb, node.context⟩⟩] }
    | _ => s
  | .resume malloc =>
    match s.walker with
    | .called response token next => s.resume response token next malloc
    | _ => s
  | .close =>
    { s with connected := false, list := [], heap := s.heap.free (ids s.list) }

/-- After `_coap_connect`. -/
def init (coapToken : UInt32) : CoapReplies where
  connected := true
  coapToken := coapToken
  list := []
  heap := .empty
  threads _ := .idle
  walker := .idle
  nextId := 0
  sent := []
  handled := []
  calls := []

end CoapReplies

end AliyunIot.Cm
