import AliyunIot.Infra.State
import AliyunIot.Lib.Ledger

/-!
# Synchronous requests of the gateway

`_iotx_linkkit_slave_connect`, `_iotx_linkkit_subdev_delete_topo` and the login and
logout of a sub-device, called by any number of threads under the linkkit mutex, and the
thread that delivers the replies. A request is published, and only then a record with a
semaphore is listed; the reply is looked for in the list. A step is one section under the
upstream mutex, or what a thread does between two of them.
-/

namespace AliyunIot.Linkkit

open Lib

abbrev iotxDmErrCodeSuccess : Int := 200

/-- What a call of `_iotx_linkkit_upstream_callback_remove` writes to the record. -/
def upstreamCode (code : Int) : Int :=
  if code = iotxDmErrCodeSuccess then State.success else State.devModelRefusedByCloud

/-- The calls that make synchronous requests, made under the linkkit mutex. -/
inductive SyncCall where
  | connect | deleteTopo | login | logout
  deriving DecidableEq

/-- The requests; `connect` registers the sub-device and then adds its topology. -/
inductive SyncRequest where
  | register | topoAdd | topoDelete | login | logout
  deriving DecidableEq

def SyncCall.first : SyncCall → SyncRequest
  | .connect => .register
  | .deleteTopo => .topoDelete
  | .login => .login
  | .logout => .logout

/-- `iotx_linkkit_upstream_sync_callback_node_t`; the record and its semaphore have one
number. -/
structure SyncNode where
  id : Nat
  msgid : Int
  code : Int
  deriving DecidableEq

/-- What a thread has in hand after it has published: the request, its message id, and the
codes of the replies that were handled since, before the wait has timed out. -/
structure Published where
  request : SyncRequest
  msgid : Int
  heard : List Int
  deriving DecidableEq

/-- Where a thread stands. The numbers are those of its semaphore. -/
inductive Syncing where
  | idle
  /-- before the linkkit mutex -/
  | lock (call : SyncCall)
  | begin (call : SyncCall)
  | publish (request : SyncRequest)
  | create (p : Published)
  | insert (p : Published) (id : Nat)
  | wait (p : Published) (id : Nat)
  /-- the wait has returned: before the record is looked at -/
  | woken (p : Published) (id : Nat)
  | timedOut (p : Published) (id : Nat) (res : Int)
  /-- a login was granted -/
  | subscribe (p : Published)
  /-- the call is about to return `res`, after the replies that its last request has heard -/
  | unlock (heard : List Int) (res : Int)
  deriving DecidableEq

/-- What a request of a thread came to: what its call returned, or `SUCCESS_RETURN` where the
call has gone on to the next request. -/
structure SyncOutcome where
  thread : Nat
  heard : List Int
  res : Int
  deriving DecidableEq

/-- The linkkit mutex with the thread that holds it, the list of records, the semaphores
with their counts, and the threads. The rest records what happened. -/
structure SyncThreads where
  mutex : Option Nat
  threads : Nat → Syncing
  list : List SyncNode
  posted : Nat → Nat
  nextId : Nat
  nodes : Ledger
  semaphores : Ledger
  locks : Nat → Nat
  unlocks : Nat → Nat
  inserted : List Nat
  outcomes : List SyncOutcome

inductive SyncOp where
  | call (thread : Nat) (call : SyncCall)
  | lock (thread : Nat)
  /-- the checks before the first request; `early` is the error of one that fails -/
  | begin (thread : Nat) (early : Option Int)
  /-- `iotx_dm_subdev_register` and its siblings, with what they return -/
  | publish (thread : Nat) (res : Int)
  | create (thread : Nat) (semaphore : Bool)
  | insert (thread : Nat) (malloc : Bool)
  /-- `HAL_SemaphoreWait` returns `SUCCESS_RETURN`, or `res` when it has timed out -/
  | wake (thread : Nat)
  | timeout (thread : Nat) (res : Int)
  /-- the section after the wait; `garbage` is what is read from a record that was freed -/
  | finish (thread : Nat) (garbage : Int)
  /-- `iotx_dm_subscribe` after a login -/
  | subscribe (thread : Nat) (res : Int)
  | unlock (thread : Nat)
  /-- the event of a reply is handled -/
  | reply (msgid code : Int)

/-- A thread that waits for a message id hears the reply to it. -/
def Published.hear (p : Published) (msgid code : Int) : Published :=
  if p.msgid = msgid then { p with heard := p.heard ++ [code] } else p

def Syncing.hear (msgid code : Int) : Syncing → Syncing
  | .create p => .create (p.hear msgid code)
  | .insert p id => .insert (p.hear msgid code) id
  | .wait p id => .wait (p.hear msgid code) id
  | .woken p id => .woken (p.hear msgid code) id
  | t => t

namespace SyncThreads

def ids (nodes : List SyncNode) : List Nat := nodes.map SyncNode.id

def move (s : SyncThreads) (t : Nat) (p : Syncing) : SyncThreads :=
  { s with threads := Function.update s.threads t p }

/-- `_iotx_linkkit_mutex_lock`, when the mutex is free. -/
def mutexLock (s : SyncThreads) (t : Nat) : SyncThreads :=
  { s with mutex := some t, locks := Function.update s.locks t (s.locks t + 1) }

def mutexUnlock (s : SyncThreads) (t : Nat) : SyncThreads :=
  { s with mutex := none, unlocks := Function.update s.unlocks t (s.unlocks t + 1) }

/-- A request fails early; that of the topology has unlocked the mutex then. -/
def giveUp (s : SyncThreads) (t : Nat) (request : SyncRequest) (heard : List Int) (res : Int) :
    SyncThreads :=
  if request = .topoAdd then (s.mutexUnlock t).move t (.unlock heard res)
  else s.move t (.unlock heard res)

/-- `_iotx_linkkit_upstream_sync_callback_list_insert`, and the semaphore goes if it
fails. -/
def insert (s : SyncThreads) (t : Nat) (p : Published) (id : Nat) (malloc : Bool) : SyncThreads :=
  let s := { s with nodes := s.nodes.touch (ids s.list) }
  if s.list.any fun node => node.msgid = p.msgid then
    { s.move t (.unlock p.heard State.devModelDupUpstreamMsg) with
      semaphores := s.semaphores.free [id] }
  else if malloc = false then
    { s.move t (.unlock p.heard State.sysDependMalloc) with semaphores := s.semaphores.free [id] }
  else
    { s.move t (.wait p id) with
      list := ⟨id, p.msgid, 0⟩ :: s.list, inserted := s.inserted ++ [id] }

/-- `_iotx_linkkit_upstream_sync_callback_list_remove`: the first record with the message
id goes, with its semaphore. -/
def remove (s : SyncThreads) (msgid : Int) : SyncThreads :=
  match s.list.find? fun node => node.msgid = msgid with
  | none => { s with nodes := s.nodes.touch (ids s.list) }
  | some node =>
    { s with
      list := s.list.erase node, semaphores := s.semaphores.free [node.id]
      nodes := (s.nodes.touch (ids s.list)).free [node.id] }

/-- Where the call goes on when its request was granted. -/
def granted (s : SyncThreads) (t : Nat) (p : Published) : SyncThreads :=
  match p.request with
  | .register =>
    { s.move t (.publish .topoAdd) with
      outcomes := s.outcomes ++ [⟨t, p.heard, State.success⟩] }
  | .login => s.move t (.subscribe p)
  | _ => s.move t (.unlock p.heard State.success)

/-- The section after a wait that has returned `SUCCESS_RETURN`. -/
def finish (s : SyncThreads) (t : Nat) (p : Published) (id : Nat) (garbage : Int) : SyncThreads :=
  let code := ((s.list.find? fun node => node.id = id).map SyncNode.code).getD garbage
  let s := { s with nodes := s.nodes.touch [id] }.remove p.msgid
  if code ≠ State.success then s.move t (.unlock p.heard State.devModelRefusedByCloud)
  else s.granted t p

/-- `_iotx_linkkit_upstream_callback_remove`. -/
def reply (s : SyncThreads) (msgid code : Int) : SyncThreads :=
  let s := { s with
    threads := fun t => (s.threads t).hear msgid code
    nodes := s.nodes.touch (ids s.list) }
  match s.list.find? fun node => node.msgid = msgid with
  | none => s
  | some node =>
    { s with
      list := s.list.map fun n => if n = node then { n with code := upstreamCode code } else n
      semaphores := s.semaphores.touch [node.id]
      posted := Function.update s.posted node.id (s.posted node.id + 1) }

def next (s : SyncThreads) : SyncOp → SyncThreads
  | .call t call => if s.threads t = .idle then s.move t (.lock call) else s
  | .lock t =>
    match s.threads t with
    | .lock call => if s.mutex = none then (s.mutexLock t).move t (.begin call) else s
    | _ => s
  | .begin t early =>
    match s.threads t with
    | .begin call =>
      match early with
      | some res => s.move t (.unlock [] res)
      | none => s.move t (.publish call.first)
    | _ => s
  | .publish t res =>
    match s.threads t with
    | .publish request =>
      if res < State.success then s.giveUp t request [] res
      else if request = .register ∧ res = State.success then s.move t (.publish .topoAdd)
      else s.move t (.create ⟨request, res, []⟩)
    | _ => s
  | .create t semaphore =>
    match s.threads t with
    | .create p =>
      if semaphore = false then s.giveUp t p.request p.heard State.sysDependSemaphoreCreate
      else { s.move t (.insert p s.nextId) with nextId := s.nextId + 1 }
    | _ => s
  | .insert t malloc =>
    match s.threads t with
    | .insert p id => s.insert t p id malloc
    | _ => s
  | .wake t =>
    match s.threads t with
    | .wait p id =>
      let s := { s with semaphores := s.semaphores.touch [id] }
      if s.posted id = 0 then s
      else { s.move t (.woken p id) with posted := Function.update s.posted id (s.posted id - 1) }
    | _ => s
  | .timeout t res =>
    match s.threads t with
    | .wait p id =>
      let s := { s with semaphores := s.semaphores.touch [id] }
      if s.posted id = 0 ∧ res < State.success then s.move t (.timedOut p id res) else s
    | _ => s
  | .finish t garbage =>
    match s.threads t with
    | .woken p id => s.finish t p id garbage
    | .timedOut p _ res =>
      (s.remove p.msgid).move t (.unlock p.heard
        (if p.request = .login then res else State.sysDependSemaphoreWait))
    | _ => s
  | .subscribe t res =>
    match s.threads t with
    | .subscribe p => s.move t (.unlock p.heard res)
    | _ => s
  | .unlock t =>
    match s.threads t with
    | .unlock heard res =>
      { (s.mutexUnlock t).move t .idle with outcomes := s.outcomes ++ [⟨t, heard, res⟩] }
    | _ => s
  | .reply msgid code => s.reply msgid code

def init : SyncThreads where
  mutex := none
  threads _ := .idle
  list := []
  posted _ := 0
  nextId := 0
  nodes := .empty
  semaphores := .empty
  locks _ := 0
  unlocks _ := 0
  inserted := []
  outcomes := []

end SyncThreads

end AliyunIot.Linkkit
