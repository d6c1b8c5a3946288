import AliyunIot.Infra.CStr
import AliyunIot.Infra.State
import AliyunIot.Lib.Ledger
import AliyunIot.Lib.Run

/-!
# Service requests

The list of service request contexts of `impl_linkkit.c`: the dispatch thread inserts
one for every service and rrpc request and takes out those that have timed out, and
any number of threads are inside `IOT_Linkkit_AnswerService`. A step is one section
under the mutex of the list, or what a thread does between two of them.
-/

namespace AliyunIot.Linkkit

open Lib

def configServiceListMaxlen : Nat := 30

def configServiceRequestTimeout : UInt64 := 20000

def iotxLinkkitRrpcIdLen : Nat := 25

/-- `infra_str2int`: spaces, a sign, and the digits up to another character. -/
def infraStr2int (input : CStr) : Int32 :=
  let value (text : List UInt8) : Int32 :=
    (text.takeWhile fun c => 0x30 ≤ c && c ≤ 0x39).foldl
      (fun temp c => temp * 10 + (Int32.ofNat c.toNat - 0x30)) 0
  match input.val.dropWhile (· == 0x20) with
  | 0x2b :: text => value text
  | 0x2d :: text => -value text
  | text => value text

/-- Whom a request came from: the id of its rrpc topic, or the ALCS peer, none for the
cloud. -/
inductive ServiceMeta where
  | rrpc (rrpcId : CStr)
  | general (alcsCtx : Option Nat)
  deriving DecidableEq

/-- `iotx_service_ctx_node_t` at the address `addr`, numbered by its insertion. -/
structure ServiceCtx where
  id : Nat
  addr : Nat
  msgid : Int32
  serviceMeta : ServiceMeta
  ctime : UInt64

def linkkitServiceListInsert (serviceListNum id : Nat) (malloc : Option Nat) (uptime : UInt64)
    (msgid : CStr) (serviceMeta : ServiceMeta) : Except Int ServiceCtx :=
  if serviceListNum ≥ configServiceListMaxlen then .error State.devModelInternalError
  else
    match malloc with
    | none => .error State.sysDependMalloc
    | some addr =>
      let node := ⟨id, addr, infraStr2int msgid, serviceMeta, uptime⟩
      match serviceMeta with
      | .rrpc rrpcid =>
        if rrpcid.strlen > iotxLinkkitRrpcIdLen then .error State.devModelRrpcidTooLong
        else .ok node
      | .general _ => .ok node

/-- Where a call of `IOT_Linkkit_AnswerService` is: before its search, with a context
that was in the list, before the send of the response, or before the removal. -/
inductive Answering where
  | idle
  | checked (id : Nat)
  | rrpc (id : Nat) (msgid : Int32)
  | general (id : Nat) (msgid : Int32) (alcsCtx : Option Nat)
  | answered (id : Nat)

/-- A published response: the context it is for, its `msgid` and where it goes. -/
structure ServiceResponse where
  ctx : Nat
  msgid : Int32
  peer : ServiceMeta
  deriving DecidableEq

/-- The list, its number, the context about to be listed by the dispatch thread, and
the threads that answer. The rest records what happened: the contexts listed and freed,
and the responses. -/
structure ServiceThreads where
  list : List ServiceCtx
  serviceListNum : Nat
  inserting : Option ServiceCtx
  threads : Nat → Answering
  nextId : Nat
  heap : Ledger
  inserted : List ServiceCtx
  responses : List ServiceResponse

/-- A thread's step. `insert` and `link` are `_linkkit_service_list_insert` up to the
lock and under it. `malloc` gives any address. What is read from a freed context is
`garbage`, where no type is one that is neither of the two; `published` says that the
response gets past the checks and the memory of the lower layers. -/
inductive ServiceOp where
  | insert (malloc : Option Nat) (uptime : UInt64) (msgid : CStr) (serviceMeta : ServiceMeta)
  | link
  | overtime (uptime : UInt64)
  | search (thread : Nat) (addr : Nat)
  | read (thread : Nat) (garbage : Int32 × Option ServiceMeta)
  | send (thread : Nat) (garbage : CStr) (published : Bool)
  | delete (thread : Nat) (garbage : Option ServiceMeta)

namespace ServiceThreads

def ids (nodes : List ServiceCtx) : List Nat := nodes.map ServiceCtx.id

def move (s : ServiceThreads) (thread : Nat) (a : Answering) : ServiceThreads :=
  { s with threads := Function.update s.threads thread a }

/-- The context is read outside the lock. -/
def touch (s : ServiceThreads) (id : Nat) : ServiceThreads :=
  { s with heap := s.heap.touch [id] }

/-- `_linkkit_service_list_delete` of each of the contexts, after a way through the
list. The list keeps what is not among them. -/
def remove (s : ServiceThreads) (gone : List Nat) : ServiceThreads :=
  { s with
    list := s.list.filter fun node => node.id ∉ gone
    serviceListNum := s.serviceListNum - gone.length
    heap := (s.heap.touch (ids s.list)).free gone }

/-- The locked part of `_linkkit_service_list_insert`. -/
def link (s : ServiceThreads) (node : ServiceCtx) : ServiceThreads :=
  { s with
    list := node :: s.list
    serviceListNum := s.serviceListNum + 1
    inserting := none
    heap := s.heap.touch (ids s.list)
    inserted := s.inserted ++ [node] }

/-- Where the clock was set back, the time of a context starts again. -/
def settle (uptime : UInt64) (node : ServiceCtx) : ServiceCtx :=
  if uptime < node.ctime then { node with ctime := uptime } else node

def expired (uptime : UInt64) (node : ServiceCtx) : Bool :=
  uptime - (settle uptime node).ctime ≥ configServiceRequestTimeout

def overtimeHandle (s : ServiceThreads) (uptime : UInt64) : ServiceThreads :=
  { s with list := s.list.map (settle uptime) }.remove (ids (s.list.filter (expired uptime)))

def search (s : ServiceThreads) (addr : Nat) : Option ServiceCtx :=
  s.list.find? fun node => node.addr = addr

/-- What a thread reads of a context: a linked one is as it was left. -/
def content (s : ServiceThreads) (id : Nat) (garbage : Int32 × Option ServiceMeta) :
    Int32 × Option ServiceMeta :=
  match s.list.find? fun node => node.id = id with
  | some node => (node.msgid, some node.serviceMeta)
  | none => garbage

/-- One step; a step that its thread cannot take does nothing. -/
def next (s : ServiceThreads) : ServiceOp → ServiceThreads
  | .insert malloc uptime msgid serviceMeta =>
    match s.inserting,
      linkkitServiceListInsert s.serviceListNum s.nextId malloc uptime msgid serviceMeta with
    | none, .ok node => { s with inserting := some node, nextId := s.nextId + 1 }
    | _, _ => s
  | .link =>
    match s.inserting with
    | some node => s.link node
    | none => s
  | .overtime uptime => if s.inserting = none then s.overtimeHandle uptime else s
  | .search thread addr =>
    match s.threads thread with
    | .idle =>
      let s' := { s with heap := s.heap.touch (ids s.list) }
      match s.search addr with
      | some node => s'.move thread (.checked node.id)
      | none => s'
    | _ => s
  | .read thread garbage =>
    match s.threads thread with
    | .checked id =>
      match s.content id garbage with
      | (msgid, some (.rrpc _)) => (s.touch id).move thread (.rrpc id msgid)
      | (msgid, some (.general alcsCtx)) =>
        (s.touch id).move thread (.general id msgid alcsCtx)
      | (_, none) => (s.touch id).move thread (.answered id)
    | _ => s
  | .send thread garbage published =>
    match s.threads thread with
    | .rrpc id msgid =>
      -- the id of the topic is read from the context only now
      let rrpcId :=
        match (s.content id (0, some (.rrpc garbage))).2 with
        | some (.rrpc text) => text
        | _ => garbage
      let s' := (s.touch id).move thread (.answered id)
      if published then { s' with responses := s.responses ++ [⟨id, msgid, .rrpc rrpcId⟩] }
      else s'
    | .general id msgid alcsCtx =>
      let s' := s.move thread (.answered id)
      if published then { s' with responses := s.responses ++ [⟨id, msgid, .general alcsCtx⟩] }
      else s'
    | _ => s
  | .delete thread garbage =>
    match s.threads thread with
    | .answered id =>
      let s' := (s.touch id).move thread .idle
      match (s.content id (0, garbage)).2 with
      | some _ => s'.remove [id]
      | none => { s' with serviceListNum := s.serviceListNum - 1 }
    | _ => s

/-- After `_iotx_linkkit_master_open`. -/
def init : ServiceThreads where
  list := []
  serviceListNum := 0
  inserting := none
  threads _ := .idle
  nextId := 0
  heap := .empty
  inserted := []
  responses := []

end ServiceThreads

end AliyunIot.Linkkit
