import AliyunIot.Linkkit.EventCallback
import AliyunIot.Linkkit.ServiceList

/-!
# Contexts of local requests

The `dm_server_alcs_context_t` of a local service or property-get request in an
`ALCS_ENABLED` build, from `dm_server.c` through the text of an event, the dispatch queue and
the user's callbacks to the list of pending services. A step is one request, one event that is
dispatched, or one call of the user.
-/

namespace AliyunIot.Linkkit

open Lib Cjson Format AliyunIot.Dm

def configDispatchQueueMaxlen : Nat := 50

inductive AlcsRequest where
  | service | propertyGet

/-- An event of the dispatch queue, and the context it was made for. -/
structure AlcsEvent where
  message : EventMessage
  owner : Nat

/-- An `iotx_service_ctx_node_t` of the general type, and the context it was made for. -/
structure PendingService where
  id : Nat
  alcsCtx : Pointer
  owner : Option Nat
  deriving DecidableEq

/-- The dispatch queue, the list of pending services, and the contexts allocated with
their addresses, the last first. `responses` are the contexts that a response has used. -/
structure AlcsRun where
  opened : Bool
  queue : List AlcsEvent
  services : List PendingService
  nextId : Nat
  allocated : List (Nat × Pointer)
  heap : Ledger
  responses : List Nat

/-- The build, with or without LOG_REPORT_TO_CLOUD, and the C library. -/
structure AlcsEnv where
  logReport : Bool
  strtod : Strtod

abbrev ErrorCode := {code : Int // code < State.success}

/-- A local request, and what the calls give that it makes on its way to the queue. -/
structure ProcIo where
  /-- `source->uri` -/
  uri : CStr
  payload : List UInt8
  /-- `dm_msg_uri_parse_pkdn` -/
  parsePkdn : Option ErrorCode
  /-- the device that `dm_mgr_search_device_by_pkdn` finds -/
  device : Option {devid : Int // IsInt devid}
  /-- the allocations of the function that composes the event -/
  malloc : Bool
  ipcMsg : Bool
  node : Bool

structure DispatchIo where
  registered : Ite → Bool
  /-- the allocation of `request` -/
  request : Bool
  /-- the user gives a response -/
  responds : Bool
  /-- the response passes the checks of `dm_manager.c`, and its device is there -/
  assembled : Bool
  node : Bool

inductive AlcsOp where
  /-- a local request comes; `addr` is where its context would be, and `malloc` is whether
  `_dm_server_malloc_context` has its memory -/
  | request (request : AlcsRequest) (addr : Pointer) (malloc : Bool) (io : ProcIo)
  | dispatch (io : DispatchIo)
  /-- a service request of the cloud is listed -/
  | cloudService (node : Bool)
  /-- `IOT_Linkkit_AnswerService` for a pending service -/
  | answer (id : Nat) (assembled : Bool)
  /-- `iotx_linkkit_service_list_overtime_handle`, for the services that have timed out -/
  | overtime (expired : Nat → Bool)
  | close

/-- The service of a topic: what stands behind its sixth delimiter. -/
def topicService (uri : CStr) : Option CStr :=
  (dmUtilsMemtok uri.val 47 6).map fun serviceidPos =>
    ⟨uri.val.drop (serviceidPos + 1), fun h => uri.property (List.mem_of_mem_drop h)⟩

/-- The code of `dm_utils_memtok` where it finds no service. -/
def memtokFailed (uri : CStr) : Int :=
  if uri.val = [] then State.userInputInvalid else State.devModelUrlSplitFailed

/-- The code of `dm_msg_request_parse` for a payload that is no request. -/
def requestParseFailed (payload : List UInt8) : Int :=
  if payload = [] then State.userInputInvalid else State.devModelAlinkMsgParseFailed

namespace AlcsRun

def contextAt (s : AlcsRun) (p : Pointer) : Option Nat :=
  if p = nullPointer then none else (s.allocated.find? fun c => c.2 = p).map Prod.fst

/-- An address that malloc can give: of a pointer, not null, and not of a context that is
still allocated. -/
def Free (s : AlcsRun) (addr : Pointer) : Prop :=
  addr.length = sizeofUintptr ∧ addr ≠ nullPointer ∧
    ∀ c ∈ s.allocated, c.1 ∉ s.heap.freed → c.2 ≠ addr

instance (s : AlcsRun) (addr : Pointer) : Decidable (s.Free addr) := by
  unfold Free
  infer_instance

/-- `dm_server_free_context`, of a pointer that is not null. -/
def freeContext (s : AlcsRun) (p : Pointer) : AlcsRun :=
  { s with heap := s.heap.free (s.contextAt p).toList }

/-- `dm_msg_response` to the peer of a context. -/
def respond (s : AlcsRun) (p : Pointer) : AlcsRun :=
  { s with
    heap := s.heap.touch (s.contextAt p).toList
    responses := s.responses ++ (s.contextAt p).toList }

/-- `dm_ipc_msg_insert` has room and its node. -/
def composeIo (s : AlcsRun) (io : ProcIo) : ComposeIo where
  malloc := io.malloc
  sent := io.ipcMsg && decide (s.queue.length < configDispatchQueueMaxlen) && io.node

/-- The event that a function has composed, if any, is in the queue. -/
def queueEvent (s : AlcsRun) (owner : Nat) : Int × Option EventMessage → Int × AlcsRun
  | (res, none) => (res, s)
  | (res, some message) => (res, { s with queue := s.queue ++ [⟨message, owner⟩] })

def dmMsgProcThingServiceRequest (env : AlcsEnv) (s : AlcsRun) (ctx : Pointer) (owner : Nat)
    (io : ProcIo) : Int × AlcsRun :=
  match topicService io.uri with
  | none => (memtokFailed io.uri, s)
  | some identifier =>
    match io.parsePkdn with
    | some code => (code, s)
    | none =>
      match dmMsgRequestParse env.strtod io.payload with
      | none => (requestParseFailed io.payload, s)
      | some request =>
        s.queueEvent owner (dmMsgThingServiceRequest env.logReport (s.composeIo io)
          (io.device.map Subtype.val) identifier request ctx)

def dmMsgProcThingServicePropertyGet (env : AlcsEnv) (s : AlcsRun) (ctx : Pointer) (owner : Nat)
    (io : ProcIo) : Int × AlcsRun :=
  match io.parsePkdn with
  | some code => (code, s)
  | none =>
    match io.device with
    | none => (State.failReturn, s)
    | some devid =>
      match dmMsgRequestParse env.strtod io.payload with
      | none => (requestParseFailed io.payload, s)
      | some request => s.queueEvent owner (dmMsgPropertyGet (s.composeIo io) devid request ctx)

/-- `_dm_server_malloc_context`, when it has its memory. -/
def mallocContext (s : AlcsRun) (addr : Pointer) : AlcsRun :=
  { s with nextId := s.nextId + 1, allocated := (s.nextId, addr) :: s.allocated }

/-- `dm_server_thing_service_request` and `dm_server_thing_service_property_get`. -/
def serve (env : AlcsEnv) (s : AlcsRun) (request : AlcsRequest) (addr : Pointer) (io : ProcIo) :
    AlcsRun :=
  let owner := s.nextId
  let s := s.mallocContext addr
  match request with
  | .service =>
    let (res, s) := s.dmMsgProcThingServiceRequest env addr owner io
    if res < State.success then s.freeContext addr else s
  | .propertyGet => (s.dmMsgProcThingServicePropertyGet env addr owner io).2

/-- `_linkkit_service_list_insert`. -/
def listService (s : AlcsRun) (alcsCtx : Pointer) (owner : Option Nat) (node : Bool) : AlcsRun :=
  if s.services.length ≥ configServiceListMaxlen then s
  else if node = false then s
  else { s with services := ⟨s.nextId, alcsCtx, owner⟩ :: s.services, nextId := s.nextId + 1 }

/-- What the event callback finds: a service is listed where there is room, and its node. -/
def userIo (s : AlcsRun) (io : DispatchIo) : UserIo where
  registered := io.registered
  malloc := io.request
  listed := decide (s.services.length < configServiceListMaxlen) && io.node

/-- What comes of a call of the user: a service may be answered, or is listed, and the response
to a property get frees the context. -/
def called (owner : Nat) (io : DispatchIo) (s : AlcsRun) : UserCall → AlcsRun
  | .serviceRequest _ _ _ _ (.ctx p) =>
    if io.responds && io.assembled then s.respond p else s
  | .serviceRequestExt _ _ _ _ (.ctx p) => s.listService p (some owner) io.node
  | .propertyGet _ _ _ (.ctx p) =>
    if io.responds && io.assembled then (s.respond p).freeContext p else s
  | _ => s

/-- The dispatch of an event, whose text is the string in its memory. -/
def eventCallback (env : AlcsEnv) (s : AlcsRun) (e : AlcsEvent) (io : DispatchIo) : AlcsRun :=
  match (cString e.message.buffer).bind
      (iotxLinkkitEventCallback env.strtod (s.userIo io) e.message.type) with
  | none => s
  | some calls => calls.foldl (called e.owner io) s

/-- `_linkkit_service_list_delete`. -/
def deleteService (s : AlcsRun) (node : PendingService) : AlcsRun :=
  let s := { s with services := s.services.erase node }
  if node.alcsCtx = nullPointer then s else s.freeContext node.alcsCtx

/-- `_linkkit_service_list_destroy`; its first branch takes every node. -/
def destroyServices (s : AlcsRun) : AlcsRun := { s with services := [] }

def next (env : AlcsEnv) (s : AlcsRun) : AlcsOp → AlcsRun
  | .request request addr malloc io =>
    if s.opened = true ∧ s.Free addr then if malloc = false then s else s.serve env request addr io
    else s
  | .dispatch io =>
    match s.queue with
    | [] => s
    | e :: queue => { s with queue := queue }.eventCallback env e io
  | .cloudService node => if s.opened then s.listService nullPointer none node else s
  | .answer id assembled =>
    if s.opened then
      match s.services.find? fun node => node.id = id with
      | none => s
      | some node =>
        let s := if assembled then s.respond node.alcsCtx else s
        s.deleteService node
    else s
  | .overtime expired =>
    (s.services.filter fun node => expired node.id).foldl AlcsRun.deleteService s
  | .close => { s with opened := false, queue := [] }.destroyServices

/-- After `_iotx_linkkit_master_open`. -/
def init : AlcsRun where
  opened := true
  queue := []
  services := []
  nextId := 0
  allocated := []
  heap := .empty
  responses := []

end AlcsRun

end AliyunIot.Linkkit
