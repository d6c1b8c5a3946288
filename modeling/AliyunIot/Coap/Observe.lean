import AliyunIot.Coap.Notify

/-!
# Observe tables

`CoAPObsServer_add`, `CoapObsServer_delete` and the whole loop of
`CoAPObsServer_notify` of `CoAPObserve.c`, and runs of these, of
`CoapObsServerAll_delete`, `CoAPObsClient_add` and `CoAPObsClient_delete`, one call
at a time. `ObserveTables.history` records what the observers were told.
-/

namespace AliyunIot.Coap

open Lib

abbrev coapErrorNotFound : Int := coapErrorBase + 7
abbrev coapErrorObjAlreadyExist : Int := coapErrorBase + 14
abbrev coapCtAppJson : UInt8 := 50
abbrev coapOptionAccept : UInt16 := 17

/-- What an observer is found by: its resource and its remote address and port. -/
abbrev ObserverKey := Nat × NetworkAddr

def CoapObserver.key (node : CoapObserver) : ObserverKey := (node.resource, node.remote)

/-- A request with a token that fits `token`, all of which was decoded. -/
structure ObserveRequest where
  message : CoapMessage
  options : List OptionView
  token_eq : message.token.length = message.head.tokenlen.toNat
  token_le : message.token.length ≤ coapMsgMaxTokenLen

/-- The list of `CoAPObsServer_init`. -/
def coapObsServerInit (ctx : CoapContext) (obsMaxcount : UInt8) : CoapContext :=
  { ctx with obsserver := ⟨[], 0, obsMaxcount⟩ }

/-- The list of `CoAPObsClient_init`. -/
def coapObsClientInit (ctx : CoapContext) (obsMaxcount : UInt8) : CoapContext :=
  { ctx with obsclient := ⟨[], 0, obsMaxcount⟩ }

/-- The node `CoAPObsServer_add` fills. -/
def coapNewObserver (request : ObserveRequest) (key : ObserverKey) : CoapObserver :=
  let acceptype := (coapUintOptionGet request.options coapOptionAccept 0).getD 0
  { remote := key.2
    token := request.message.token
    ctype := if acceptype = 0 then coapCtAppJson else acceptype.toUInt8
    resource := key.1
    sequenceNum := 0
    msgType := request.message.head.type }

/-- `CoAPObsServer_add`; `observe` is what its local variable holds before it is read. -/
def coapObsServerAdd (md5 : List UInt8 → List UInt8) (ctx : CoapContext) (path : CStr)
    (remote : NetworkAddr) (request : ObserveRequest) (observe : UInt32) (malloc : Bool) :
    Int × CoapContext :=
  match ctx.resource.list.findIdx? (answersPath md5 path),
    coapUintOptionGet request.options coapOptionObserve observe with
  | some resource, some 0 =>
    match splitFirst (fun node => node.key = (resource, remote)) ctx.obsserver.list with
    | some (as, node, bs) =>
      (coapErrorObjAlreadyExist,
        { ctx with
          obsserver :=
            { ctx.obsserver with
              list := as ++ { node with token := request.message.token } :: bs } })
    | none =>
      if malloc = false then (coapErrorMalloc, ctx)
      else if ctx.obsserver.count ≥ ctx.obsserver.maxcount then (coapErrorDataSize, ctx)
      else
        (coapSuccess,
          { ctx with
            obsserver :=
              { ctx.obsserver with
                list := ctx.obsserver.list ++ [coapNewObserver request (resource, remote)]
                count := ctx.obsserver.count + 1 } })
  | _, _ => (coapErrorNotFound, ctx)

def coapObsServerDelete (ctx : CoapContext) (remote : NetworkAddr) (resource : Nat) :
    CoapContext :=
  match splitFirst (fun node => node.key = (resource, remote)) ctx.obsserver.list with
  | some (as, _, bs) =>
    { ctx with
      obsserver := { ctx.obsserver with list := as ++ bs, count := ctx.obsserver.count - 1 } }
  | none => ctx

/-! ## Notifying -/

/-- What is told about an observer: it is registered, its token is replaced, or a
notification with a sequence number is built for it, with the datagrams that were sent. -/
inductive ObserveEvent where
  | registered (key : ObserverKey) (token : List UInt8)
  | refreshed (key : ObserverKey) (token : List UInt8)
  | notified (key : ObserverKey) (sequenceNum : UInt32) (message : OutMessage)
    (sent : List CoapEvent)

/-- The loop of `CoAPObsServer_notify`; the result is `none` once a `NULL` option value
was read. -/
structure Notifying where
  ret : Option Int
  ctx : CoapContext
  events : List ObserveEvent

/-- One turn of the loop of `CoAPObsServer_notify`, at the observer at a place. -/
def coapNotifyTurn (call : NotifyCall) (s : Notifying) (i : Nat) : Notifying :=
  match s.ret, s.ctx.obsserver.list[i]? with
  | some _, some node =>
    if node.resource = call.resource then
      let message := call.message s.ctx i node (coapMessageIdGen s.ctx.messageId).1
      let out := coapMessageSend (coapNotified s.ctx i node) node.remote message (call.io i).send
      ⟨out.ret, out.ctx, s.events ++ [.notified node.key node.sequenceNum message out.events]⟩
    else s
  | _, _ => s

def coapObsServerNotify (md5 : List UInt8 → List UInt8) (ctx : CoapContext) (path : CStr)
    (payload : Block) (handler : Bool) (io : Nat → NotifyIo) : Notifying :=
  match ctx.resource.list.findIdx? (answersPath md5 path) with
  | some resource =>
    run (coapNotifyTurn ⟨resource, payload, handler, io⟩) ⟨some coapSuccess, ctx, []⟩
      (List.range ctx.obsserver.list.length)
  | none => ⟨some coapSuccess, ctx, []⟩

/-! ## Runs -/

/-- The send node of a response is the one with its token. -/
abbrev AnsweredNode (message : CoapMessage) :=
  { node : CoapSendNode // sameToken node.token message.head.tokenlen message.token = true }

/-- A call on the tables. -/
inductive ObserveOp where
  | serverAdd (path : CStr) (remote : NetworkAddr) (request : ObserveRequest) (observe : UInt32)
    (malloc : Bool)
  | serverDelete (remote : NetworkAddr) (resource : Nat)
  | serverAllDelete (remote : NetworkAddr)
  | serverNotify (path : CStr) (payload : Block) (handler : Bool) (io : Nat → NotifyIo)
  | clientAdd (message : CoapMessage) (options : List OptionView) (remote : NetworkAddr)
    (sendnode : Option (AnsweredNode message)) (malloc : Bool)
  | clientDelete (message : OutMessage)

/-- The context, what was told about the observers, and whether no `NULL` was read. -/
structure ObserveTables where
  ctx : CoapContext
  history : List ObserveEvent
  alive : Bool

/-- What `CoAPObsServer_add` has done for an observer. -/
def registration (ret : Int) (key : ObserverKey) (token : List UInt8) : List ObserveEvent :=
  if ret = coapSuccess then [.registered key token]
  else if ret = coapErrorObjAlreadyExist then [.refreshed key token]
  else []

namespace ObserveTables

def serverAdd (md5 : List UInt8 → List UInt8) (s : ObserveTables) (path : CStr)
    (remote : NetworkAddr) (request : ObserveRequest) (observe : UInt32) (malloc : Bool) :
    ObserveTables :=
  let added := coapObsServerAdd md5 s.ctx path remote request observe malloc
  { s with
    ctx := added.2
    history := s.history ++
      match s.ctx.resource.list.findIdx? (answersPath md5 path) with
      | some resource => registration added.1 (resource, remote) request.message.token
      | none => [] }

def serverNotify (md5 : List UInt8 → List UInt8) (s : ObserveTables) (path : CStr)
    (payload : Block) (handler : Bool) (io : Nat → NotifyIo) : ObserveTables :=
  let notifying := coapObsServerNotify md5 s.ctx path payload handler io
  ⟨notifying.ctx, s.history ++ notifying.events, notifying.ret.isSome⟩

def next (md5 : List UInt8 → List UInt8) (s : ObserveTables) (op : ObserveOp) : ObserveTables :=
  if s.alive then
    match op with
    | .serverAdd path remote request observe malloc =>
      s.serverAdd md5 path remote request observe malloc
    | .serverDelete remote resource => { s with ctx := coapObsServerDelete s.ctx remote resource }
    | .serverAllDelete remote => { s with ctx := coapObsServerAllDelete s.ctx remote }
    | .serverNotify path payload handler io => s.serverNotify md5 path payload handler io
    | .clientAdd message options remote sendnode malloc =>
      { s with
        ctx := (coapObsClientAdd s.ctx message options remote (sendnode.map (·.1)) malloc).1 }
    | .clientDelete message => { s with ctx := coapObsClientDelete s.ctx message }
  else s

def init (ctx : CoapContext) (obsserver obsclient : UInt8) : ObserveTables :=
  ⟨coapObsClientInit (coapObsServerInit ctx obsserver) obsclient, [], true⟩

end ObserveTables

end AliyunIot.Coap
