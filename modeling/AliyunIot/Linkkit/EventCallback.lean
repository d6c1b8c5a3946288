import AliyunIot.Dm.EventMessage
import AliyunIot.Infra.CjsonObject

/-!
# The event callback

`_iotx_linkkit_event_callback` for the events of `Dm.EventMessage`: the text of a message is
parsed, the types of its members are checked, and the callbacks of the user are called. It is
none where members are used that were never set.
-/

namespace AliyunIot.Linkkit

open Cjson Format AliyunIot.Dm

abbrev sizeofUintptr : Nat := 4

abbrev Pointer := List UInt8

def nullPointer : Pointer := List.replicate sizeofUintptr 0

/-- The callbacks of the user. -/
inductive Ite where
  | propertySet
  | propertyGet
  | serviceRequest
  | serviceRequestExt
  | reportReply
  | triggerEventReply
  | permitJoin
  deriving DecidableEq

/-- Where the answer of the user goes: to a peer, or to an rrpc topic. -/
inductive AnswerTo where
  | ctx (pointer : Pointer)
  | rrpc (rrpcid : List UInt8)
  deriving DecidableEq

/-- A call of the user. `id` and `answer` are what a callback's answer is sent with, and what
`_linkkit_service_list_insert` is given for `ITE_SERVICE_REQUEST_EXT`. -/
inductive UserCall where
  | propertySet (devid : Int) (request : List UInt8)
  | propertyGet (devid : Int) (request id : List UInt8) (answer : AnswerTo)
  | serviceRequest (devid : Int) (serviceid request id : List UInt8) (answer : AnswerTo)
  | serviceRequestExt (devid : Int) (serviceid id request : List UInt8) (answer : AnswerTo)
  | reportReply (devid id code : Int) (payload : List UInt8)
  | triggerEventReply (devid id code : Int) (eventid payload : List UInt8)
  | permitJoin (productKey : List UInt8) (time : Int)
  deriving DecidableEq

def UserCall.ite : UserCall → Ite
  | .propertySet _ _ => .propertySet
  | .propertyGet _ _ _ _ => .propertyGet
  | .serviceRequest _ _ _ _ _ => .serviceRequest
  | .serviceRequestExt _ _ _ _ _ => .serviceRequestExt
  | .reportReply _ _ _ _ => .reportReply
  | .triggerEventReply _ _ _ _ _ => .triggerEventReply
  | .permitJoin _ _ => .permitJoin

/-- What the event callback finds: the callbacks registered, whether its allocations succeed, and
whether the service list takes a request. -/
structure UserIo where
  registered : Ite → Bool
  malloc : Bool
  listed : Bool

def UserIo.call (io : UserIo) (call : UserCall) : List UserCall :=
  if io.registered call.ite then [call] else []

def UserIo.serve (io : UserIo) (devid : Int) (serviceid request id : List UInt8)
    (answer : AnswerTo) : List UserCall :=
  io.call (.serviceRequest devid serviceid request id answer) ++
    if io.listed then io.call (.serviceRequestExt devid serviceid id request answer) else []

/-- The pointer that `LITE_hexstr_convert` makes of a `ctx` member. -/
def ctxPointer (item : LiteCjson) : Pointer := liteHexstrConvert item.value nullPointer

/-- The members of a message that its event looks at. -/
abbrev Items := List UInt8 → LiteCjson

def onPropertySet (io : UserIo) (items : Items) : List UserCall :=
  let devid := items (text "devid")
  let payload := items (text "payload")
  if devid.type ≠ .number ∨ payload.type ≠ .object then []
  else if io.malloc = false then []
  else io.call (.propertySet devid.valueInt payload.value)

def onPropertyGet (io : UserIo) (items : Items) : List UserCall :=
  let id := items (text "id")
  let devid := items (text "devid")
  let payload := items (text "payload")
  if id.type ≠ .string ∨ devid.type ≠ .number ∨ payload.type ≠ .array then []
  else if io.malloc = false then []
  else
    io.call (.propertyGet devid.valueInt payload.value id.value
      (.ctx (ctxPointer (items (text "ctx")))))

def onServiceRequest (io : UserIo) (items : Items) : List UserCall :=
  let id := items (text "id")
  let devid := items (text "devid")
  let serviceid := items (text "serviceid")
  let payload := items (text "payload")
  if id.type ≠ .string ∨ devid.type ≠ .number ∨ serviceid.type ≠ .string ∨
      payload.type ≠ .object then []
  else if io.malloc = false then []
  else
    io.serve devid.valueInt serviceid.value payload.value id.value
      (.ctx (ctxPointer (items (text "ctx"))))

def onRrpcRequest (io : UserIo) (items : Items) : List UserCall :=
  let id := items (text "id")
  let devid := items (text "devid")
  let serviceid := items (text "serviceid")
  let rrpcid := items (text "rrpcid")
  let payload := items (text "payload")
  if id.type ≠ .string ∨ devid.type ≠ .number ∨ serviceid.type ≠ .string ∨
      rrpcid.type ≠ .string ∨ payload.type ≠ .object then []
  else if io.malloc = false then []
  else io.serve devid.valueInt serviceid.value payload.value id.value (.rrpc rrpcid.value)

/-- The user gets the payload of a reply only where it is an object. -/
def hasUserPayload (payload : LiteCjson) : Bool := payload.type = .object && payload.value ≠ []

def onPropertyPostReply (io : UserIo) (items : Items) : List UserCall :=
  let id := items (text "id")
  let code := items (text "code")
  let devid := items (text "devid")
  let payload := items (text "payload")
  if id.type ≠ .number ∨ code.type ≠ .number ∨ devid.type ≠ .number then []
  else if hasUserPayload payload then
    if io.malloc = false then []
    else io.call (.reportReply devid.valueInt id.valueInt code.valueInt payload.value)
  else io.call (.reportReply devid.valueInt id.valueInt code.valueInt [])

def onEventPostReply (io : UserIo) (items : Items) : List UserCall :=
  let id := items (text "id")
  let code := items (text "code")
  let devid := items (text "devid")
  let eventid := items (text "eventid")
  let payload := items (text "payload")
  if id.type ≠ .number ∨ code.type ≠ .number ∨ devid.type ≠ .number ∨ eventid.type ≠ .string ∨
      payload.type ≠ .string then []
  else if io.malloc = false then []
  else
    io.call (.triggerEventReply devid.valueInt id.valueInt code.valueInt eventid.value
      payload.value)

def onGatewayPermit (io : UserIo) (items : Items) : List UserCall :=
  let productKey := items (text "productKey")
  let time := items (text "time")
  if time.type ≠ .number then []
  else if productKey.type = .string then
    if io.malloc = false then []
    else io.call (.permitJoin productKey.value time.valueInt)
  else io.call (.permitJoin [] time.valueInt)

def onEvent (io : UserIo) (items : Items) : EventType → List UserCall
  | .propertySet => onPropertySet io items
  | .propertyGet => onPropertyGet io items
  | .thingServiceRequest => onServiceRequest io items
  | .rrpcRequest => onRrpcRequest io items
  | .eventPropertyPostReply => onPropertyPostReply io items
  | .eventSpecificPostReply => onEventPostReply io items
  | .gatewayPermit => onGatewayPermit io items

def iotxLinkkitEventCallback (strtod : Strtod) (io : UserIo) (type : EventType)
    (payload : List UInt8) : Option (List UserCall) :=
  match dmUtilsJsonParse strtod payload .invalid with
  | none => some []
  | some lite =>
    if lite.type ≠ .object then none
    else
      some (onEvent io (fun key => (dmUtilsJsonObjectItem strtod lite key .invalid).getD
        .zero) type)

/-- The members that a document tells, cleared where there are none. -/
def itemsOf (d : List UInt8 → Option LiteCjson) : Items := fun key => (d key).getD .zero

theorem eventCallback_eq (strtod : Strtod) (io : UserIo) (type : EventType)
    (payload : List UInt8) :
    iotxLinkkitEventCallback strtod io type payload =
      match document strtod payload with
      | none => some []
      | some (ty, d) => if ty ≠ .object then none else some (onEvent io (itemsOf d) type) := by
  have hitem : ∀ lite key, dmUtilsJsonObjectItem strtod lite key .invalid =
      liteCjsonObjectItem strtod lite key := fun lite key => by
    unfold dmUtilsJsonObjectItem
    cases liteCjsonObjectItem strtod lite key <;> rfl
  simp only [iotxLinkkitEventCallback, dmUtilsJsonParse, document, hitem]
  cases liteCjsonParse strtod payload <;> rfl

end AliyunIot.Linkkit
