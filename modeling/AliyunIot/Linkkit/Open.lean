import AliyunIot.Infra.State
import AliyunIot.Lib.Ledger

/-!
# Opening and closing the master device

`_iotx_linkkit_master_open` and `_iotx_linkkit_master_close`, with the contexts of the
modules that `iotx_dm_open` and its error block go through. `OpenIo` is what the calls give
that can fail.
-/

namespace AliyunIot.Linkkit

open Lib

/-- A `list_head` of a global context: still zero, or initialised, with that many nodes. -/
inductive ListHead where
  | zero
  | ready (nodes : Nat)

/-- A mutex and the list that it guards: `dm_msg_cache_ctx_t`, `dm_ipc_t`, `dm_mgr_ctx`. -/
structure ListCtx where
  mutex : Option Nat
  list : ListHead

/-- The context after `memset`. -/
def ListCtx.zero : ListCtx := ⟨none, .zero⟩

/-- `iotx_cm_connection_t`; only a CoAP connection has a `list_lock`. -/
structure CmConnection where
  id : Nat
  listLock : Option Nat

def cmMaxFdNum : Nat := 3

inductive CmProtocolType where
  | mqtt | coap

/-- The options of a build; `alcs` is whether `iotx_alcs_destroy` takes a null handle for
no connection, and is none in a build without `ALCS_ENABLED`. -/
structure Build where
  gateway : Bool
  rawdataSolo : Bool
  ota : Bool
  messageCache : Bool
  alcs : Option Bool
  protocolType : CmProtocolType

/-- Whether the calls of an open give what they are called for. -/
structure OpenIo where
  mutex : Bool
  upstreamMutex : Bool
  serviceListMutex : Bool
  dmMutex : Bool
  cacheMutex : Bool
  ipcMutex : Bool
  mgrMutex : Bool
  devNode : Bool
  alcsConstruct : Bool
  connection : Bool
  listLock : Bool
  openParams : Bool
  deviceinfo : Bool
  fdLock : Bool

def OpenIo.good : OpenIo where
  mutex := true
  upstreamMutex := true
  serviceListMutex := true
  dmMutex := true
  cacheMutex := true
  ipcMutex := true
  mgrMutex := true
  devNode := true
  alcsConstruct := true
  connection := true
  listLock := true
  openParams := true
  deviceinfo := true
  fdLock := true

/-- The contexts of the modules under `iotx_dm_open`. The objects that exist are numbered
in the order in which they were made; `wild` counts the walks of a list whose head is zero,
and the other uses of a pointer that was never set. -/
structure Dm where
  mutex : Option Nat
  otaHandle : Option Nat
  cache : ListCtx
  ipc : ListCtx
  mgr : ListCtx
  connHandle : Option Nat
  clientFd : Nat
  connection : Option CmConnection
  fdLock : Option Nat
  cmFd : List (Option Nat)
  nextId : Nat
  heap : Ledger
  wild : Nat

namespace Dm

/-- An object is made, or the call gives null. -/
def create (s : Dm) (gives : Bool) : Option Nat × Dm :=
  if gives then (some s.nextId, { s with nextId := s.nextId + 1 }) else (none, s)

def lock (s : Dm) (mutex : Option Nat) : Dm := { s with heap := s.heap.touch mutex.toList }

/-- An object is destroyed; `HAL_MutexDestroy` does nothing with null. -/
def destroy (s : Dm) (id : Option Nat) : Dm := { s with heap := s.heap.free id.toList }

/-- `list_for_each_entry_safe`. -/
def walk (s : Dm) : ListHead → Dm
  | .zero => { s with wild := s.wild + 1 }
  | .ready _ => s

/-! ## The modules -/

def dmOtaInit (s : Dm) : Int × Dm := (State.success, { s with otaHandle := none })

def dmOtaDeinit (s : Dm) : Dm := { s.destroy s.otaHandle with otaHandle := none }

def dmMsgCacheInit (s : Dm) (io : OpenIo) : Int × Dm :=
  match s.create io.cacheMutex with
  | (none, s) => (State.sysDependMutexCreate, { s with cache := .zero })
  | (some id, s) => (State.success, { s with cache := ⟨some id, .ready 0⟩ })

def dmMsgCacheDeinit (s : Dm) : Dm :=
  let s := ((s.lock s.cache.mutex).walk s.cache.list).lock s.cache.mutex
  s.destroy s.cache.mutex

def dmIpcInit (s : Dm) (io : OpenIo) : Int × Dm :=
  match s.create io.ipcMutex with
  | (none, s) => (State.sysDependMutexCreate, { s with ipc := .zero })
  | (some id, s) => (State.success, { s with ipc := ⟨some id, .ready 0⟩ })

def dmIpcDeinit (s : Dm) : Dm := (s.destroy s.ipc.mutex).walk s.ipc.list

/-- `dm_mgr_init`; the local node is not in the new list, and its names are not too long. -/
def dmMgrInit (s : Dm) (io : OpenIo) : Int × Dm :=
  match s.create io.mgrMutex with
  | (none, s) => (State.sysDependMutexCreate, { s with mgr := .zero })
  | (some id, s) =>
    if io.devNode = false then
      (State.sysDependMalloc, { s.destroy (some id) with mgr := .zero })
    else (State.success, { s with mgr := ⟨some id, .ready 1⟩ })

def dmMgrDeinit (s : Dm) : Dm :=
  let s := ((s.lock s.mgr.mutex).walk s.mgr.list).lock s.mgr.mutex
  s.destroy s.mgr.mutex

def dmServerOpen (s : Dm) (io : OpenIo) : Int × Dm :=
  match s.create io.alcsConstruct with
  | (none, s) => (State.devModelAlcsConstructFailed, { s with connHandle := none })
  | (some id, s) => (State.success, { s with connHandle := some id })

def dmServerClose (s : Dm) (nullHandle : Bool) : Dm :=
  match s.connHandle with
  | some id => s.destroy (some id)
  | none => if nullHandle then s else { s with wild := s.wild + 1 }

/-! ## The connection -/

def iotxCmOpenMqtt (s : Dm) (io : OpenIo) : Dm :=
  if s.connection.isSome then s
  else
    match s.create io.connection with
    | (none, s) => s
    | (some id, s) =>
      if io.openParams = false then s.destroy (some id)
      else { s with connection := some ⟨id, none⟩ }

def iotxCmOpenCoap (s : Dm) (io : OpenIo) : Dm :=
  if s.connection.isSome then s
  else
    match s.create io.connection with
    | (none, s) => s
    | (some id, s) =>
      match s.create io.listLock with
      | (none, s) => s.destroy (some id)
      | (some lock, s) =>
        if io.openParams = false then (s.destroy (some lock)).destroy (some id)
        else if io.deviceinfo = false then (s.destroy (some lock)).destroy (some id)
        else { s with connection := some ⟨id, some lock⟩ }

/-- `close_func` of a connection that was not connected. `_mqtt_close` finds a null client;
the context that `_coap_close` deinitialises was never set. -/
def closeFunc (s : Dm) (protocolType : CmProtocolType) : Dm :=
  match s.connection with
  | none => s
  | some c =>
    match protocolType with
    | .mqtt => { s.destroy (some c.id) with connection := none }
    | .coap =>
      let s := (s.lock c.listLock).destroy c.listLock
      { s.destroy (some c.id) with
        connection := none
        wild := s.wild + 1 }

def getFd (s : Dm) (io : OpenIo) (connection : CmConnection) : Int × Dm :=
  let s :=
    if s.fdLock.isSome then s
    else
      let (lock, s) := s.create io.fdLock
      { s with fdLock := lock }
  if s.fdLock = none then (State.sysDependMutexCreate, s)
  else
    let s := s.lock s.fdLock
    match s.cmFd.findIdx? fun c => c = none with
    | none => (State.devModelCmFdNotFound, s)
    | some i => (i, { s with cmFd := s.cmFd.set i (some connection.id) })

def iotxCmOpen (s : Dm) (protocolType : CmProtocolType) (io : OpenIo) : Int × Dm :=
  let s :=
    match protocolType with
    | .mqtt => s.iotxCmOpenMqtt io
    | .coap => s.iotxCmOpenCoap io
  match s.connection with
  | none => (State.devModelCmOpenFailed, s)
  | some connection =>
    let (fd, s) := s.getFd io connection
    if fd < 0 then (fd, s.closeFunc protocolType) else (fd, s)

/-- `iotx_cm_close` when no connection is connected. -/
def iotxCmClose (s : Dm) (protocolType : CmProtocolType) (fd : Nat) : Dm :=
  if s.fdLock = none then s
  else
    let s := s.lock s.fdLock
    match s.cmFd[fd]?.join with
    | none => s
    | some _ =>
      if s.connection = none then s
      else
        let s := s.closeFunc protocolType
        let s := { s.lock s.fdLock with cmFd := s.cmFd.set fd none }
        { s.destroy s.fdLock with fdLock := none }

def dmClientOpen (s : Dm) (protocolType : CmProtocolType) (io : OpenIo) : Int × Dm :=
  let (res, s) := { s with clientFd := 0 }.iotxCmOpen protocolType io
  if res < State.success then (res, s) else (State.success, { s with clientFd := res.toNat })

def dmClientClose (s : Dm) (protocolType : CmProtocolType) : Dm :=
  s.iotxCmClose protocolType s.clientFd

/-! ## The device model -/

/-- The block `ERROR` of `iotx_dm_open`, and what `iotx_dm_close` does. -/
def deinit (b : Build) (s : Dm) : Dm :=
  let s := s.dmClientClose b.protocolType
  let s :=
    match b.alcs with
    | some nullHandle => s.dmServerClose nullHandle
    | none => s
  let s := s.dmMgrDeinit.dmIpcDeinit
  let s := if b.messageCache then s.dmMsgCacheDeinit else s
  let s := if b.ota then s.dmOtaDeinit else s
  s.destroy s.mutex

/-- The modules that `iotx_dm_open` initialises after its mutex, up to the first that
fails. -/
def initModules (b : Build) (io : OpenIo) (s : Dm) : Int × Dm :=
  let (res, s) := if b.ota then s.dmOtaInit else (State.success, s)
  if res ≠ State.success then (res, s)
  else
    let (res, s) := if b.messageCache then s.dmMsgCacheInit io else (State.success, s)
    if res ≠ State.success then (res, s)
    else
      -- `dm_msg_init` always succeeds
      let (res, s) := s.dmIpcInit io
      if res ≠ State.success then (res, s)
      else
        let (res, s) := s.dmMgrInit io
        if res ≠ State.success then (res, s)
        else
          let (res, s) := if b.alcs.isSome then s.dmServerOpen io else (State.success, s)
          if res < State.success then (res, s) else s.dmClientOpen b.protocolType io

def iotxDmOpen (b : Build) (io : OpenIo) (s : Dm) : Int × Dm :=
  match { s with mutex := none }.create io.dmMutex with
  | (none, s) => (State.sysDependMutexCreate, s)
  | (some id, s) =>
    let (res, s) := { s with mutex := some id }.initModules b io
    if res ≠ State.success then (res, s.deinit b) else (State.success, s)

/-- Before the first open. -/
def init : Dm where
  mutex := none
  otaHandle := none
  cache := .zero
  ipc := .zero
  mgr := .zero
  connHandle := none
  clientFd := 0
  connection := none
  fdLock := none
  cmFd := List.replicate cmMaxFdNum none
  nextId := 0
  heap := .empty
  wild := 0

end Dm

structure LinkkitCtx where
  mutex : Option Nat
  upstreamMutex : Option Nat
  serviceListMutex : Option Nat
  isOpened : Bool
  isYieldRunning : Bool
  yieldRunning : Bool
  upstreamSyncCallbackList : ListHead
  downstreamServiceList : ListHead

def LinkkitCtx.zero : LinkkitCtx := ⟨none, none, none, false, false, false, .zero, .zero⟩

structure Device where
  linkkit : LinkkitCtx
  dm : Dm

namespace Device

def init : Device := ⟨.zero, .init⟩

def createUpstreamMutex (b : Build) (io : OpenIo) (ctx : LinkkitCtx) (dm : Dm) :
    Option Nat × Dm :=
  if b.gateway then dm.create io.upstreamMutex else (ctx.upstreamMutex, dm)

/-- `service_list_mutex` is created, unless the build is `DEVICE_MODEL_RAWDATA_SOLO`. -/
def createServiceListMutex (b : Build) (io : OpenIo) (ctx : LinkkitCtx) (dm : Dm) :
    Option Nat × Dm :=
  if b.rawdataSolo then (ctx.serviceListMutex, dm) else dm.create io.serviceListMutex

/-- The mutexes are destroyed after a failure of `iotx_dm_open`. -/
def destroyMutexes (b : Build) (ctx : LinkkitCtx) (dm : Dm) : Dm :=
  let dm := if b.gateway then dm.destroy ctx.upstreamMutex else dm
  let dm := if b.rawdataSolo then dm else dm.destroy ctx.serviceListMutex
  dm.destroy ctx.mutex

def iotxLinkkitMasterOpen (b : Build) (io : OpenIo) (s : Device) : Int × Device :=
  if s.linkkit.isOpened then (State.devModelMasterAlreadyOpen, s)
  else
    match s.dm.create io.mutex with
    | (none, dm) =>
      (State.sysDependMutexCreate, ⟨{ s.linkkit with mutex := none, isOpened := false }, dm⟩)
    | (some mutex, dm) =>
      match createUpstreamMutex b io s.linkkit dm with
      | (upstreamMutex, dm) =>
        let ctx := { s.linkkit with
          mutex := some mutex
          upstreamMutex := upstreamMutex }
        if b.gateway = true ∧ upstreamMutex = none then
          (State.sysDependMutexCreate, ⟨{ ctx with isOpened := false }, dm.destroy (some mutex)⟩)
        else
          match createServiceListMutex b io ctx dm with
          | (serviceListMutex, dm) =>
            let ctx := { ctx with serviceListMutex := serviceListMutex }
            if b.rawdataSolo = false ∧ serviceListMutex = none then
              (State.sysDependMutexCreate,
                ⟨{ ctx with isOpened := false },
                  (dm.destroy (some mutex)).destroy upstreamMutex⟩)
            else
              match dm.iotxDmOpen b io with
              | (res, dm) =>
                if res ≠ State.success then
                  (res, ⟨{ ctx with isOpened := false }, destroyMutexes b ctx dm⟩)
                else
                  (State.success,
                    ⟨{ ctx with
                        isOpened := true
                        upstreamSyncCallbackList := .ready 0
                        downstreamServiceList := .ready 0 }, dm⟩)

def iotxLinkkitMasterClose (b : Build) (s : Device) : Int × Device :=
  let ctx := { s.linkkit with yieldRunning := false }
  if ctx.isYieldRunning then (State.devModelYieldRunning, ⟨ctx, s.dm⟩)
  else
    let dm := s.dm.lock ctx.mutex
    if ctx.isOpened = false then (State.devModelMasterNotOpenYet, ⟨ctx, dm.lock ctx.mutex⟩)
    else
      let dm := dm.deinit b
      let dm :=
        if b.gateway then
          (dm.walk ctx.upstreamSyncCallbackList).destroy ctx.upstreamMutex
        else dm
      let dm := (dm.lock ctx.mutex).destroy ctx.mutex
      let dm :=
        if b.rawdataSolo then dm
        else
          let dm := (dm.lock ctx.serviceListMutex).walk ctx.downstreamServiceList
          (dm.lock ctx.serviceListMutex).destroy ctx.serviceListMutex
      (State.success, ⟨.zero, dm⟩)

end Device

end AliyunIot.Linkkit
