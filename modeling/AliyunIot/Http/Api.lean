import AliyunIot.Infra.State

/-!
# HTTP messages and authentication

`IOT_HTTP_SendMessage` and `IOT_HTTP_DeviceNameAuth` of `iotx_http_api.c`, with the reports of
`infra_report.c` that the second makes through the first. The server is the sequence of its
responses, one for each request. A call is given the number of `IOT_HTTP_SendMessage` that may
be open at once, and answers none when it would need more.
-/

namespace AliyunIot.Http

abbrev iotxHttpSuccess : Int := 0
abbrev iotxHttpTokenExpiredError : Int := 20001
abbrev iotxHttpAuthTokenLen : Nat := 193

/-- What a request comes to: the result of `wrapper_http_perform`, none when there is no memory
or no handle for it, and what `LITE_json_value_of` finds in the response. -/
structure Response where
  perform : Option Int
  code : Option Int
  message : Bool
  messageId : Bool
  /-- The length of `info.token`. -/
  token : Option Nat

/-- `iotx_http_t`, with the number of requests made so far. -/
structure IotxHttp where
  isAuthed : Bool
  requests : Nat

/-- `iotx_http_message_param_t`: which of its pointers are there. -/
structure IotxHttpMessageParam where
  requestPayload : Bool
  responsePayload : Bool
  topicPath : Bool
  deriving DecidableEq

abbrev InfoReportFunc := IotxHttp → Option (Int × IotxHttp)

def halGetFirmwareVersion : Int := 8

def iotxReportMid : InfoReportFunc := fun ctx => some (State.success, ctx)

def iotxReportDevinfo (infoReportFunc : InfoReportFunc) : InfoReportFunc := fun ctx =>
  (infoReportFunc ctx).map fun (ret, ctx) =>
    if ret < 0 then (State.failReturn, ctx) else (State.success, ctx)

def iotxReportFirmwareVersion (infoReportFunc : InfoReportFunc) : InfoReportFunc := fun ctx =>
  if halGetFirmwareVersion ≤ 0 then some (State.failReturn, ctx)
  else
    (infoReportFunc ctx).map fun (ret, ctx) => if ret < 0 then (ret, ctx) else (State.success, ctx)

def iotHttpDeviceNameAuth (server : Nat → Response) (reportFunc : InfoReportFunc)
    (handleValid : Bool) (ctx : IotxHttp) : Option (Int × IotxHttp) :=
  if !handleValid then some (-1, ctx)
  else
    let response := server ctx.requests
    let ctx : IotxHttp := { isAuthed := false, requests := ctx.requests + 1 }
    match response.perform with
    | none => some (-1, ctx)
    | some perform =>
      if perform < 0 then some (-1, ctx)
      else
        match response.code, response.message with
        | none, _ => some (-1, ctx)
        | some _, false => some (-1, ctx)
        | some retCode, true =>
          if retCode ≠ iotxHttpSuccess then some (State.failReturn, ctx)
          else
            match response.token with
            | none => some (-1, ctx)
            | some length =>
              if length > iotxHttpAuthTokenLen - 1 then some (-1, ctx)
              else do
                let ctx := { ctx with isAuthed := true }
                let (ret, ctx) ← iotxReportMid ctx
                if ret ≠ State.success then return (ret, ctx)
                let (ret, ctx) ← iotxReportDevinfo reportFunc ctx
                if ret ≠ State.success then return (ret, ctx)
                let (ret, ctx) ← iotxReportFirmwareVersion reportFunc ctx
                if ret ≠ State.success then return (ret, ctx)
                return (0, ctx)

/-- The parameters of `http_report_func`: its own buffers. -/
def reportParam : IotxHttpMessageParam := ⟨true, true, true⟩

/-- `IOT_HTTP_SendMessage`, called with the parameters or `NULL`; `depth` of it may be open. -/
def iotHttpSendMessage (server : Nat → Response) : Nat → Bool → Option IotxHttpMessageParam →
    IotxHttp → Option (Int × IotxHttp)
  | 0, _, _, _ => none
  | depth + 1, handleValid, msgParam, ctx =>
    if !handleValid then some (-1, ctx)
    else
      match msgParam with
      | none => some (-1, ctx)
      | some msgParam =>
        if !ctx.isAuthed then some (-1, ctx)
        else if !msgParam.requestPayload then some (-1, ctx)
        else if !msgParam.responsePayload then some (-1, ctx)
        else if !msgParam.topicPath then some (-1, ctx)
        else
          let response := server ctx.requests
          let ctx := { ctx with requests := ctx.requests + 1 }
          match response.perform with
          | none => some (-1, ctx)
          | some ret =>
            if ret < 0 then some (ret, ctx)
            else
              match response.code, response.message with
              | none, _ => some (ret, ctx)
              | some _, false => some (ret, ctx)
              | some responseCode, true =>
                if responseCode = iotxHttpSuccess then
                  some (if response.messageId then 0 else ret, ctx)
                else if responseCode = iotxHttpTokenExpiredError then
                  -- the result of the authentication is ignored
                  (iotHttpDeviceNameAuth server
                    (fun ctx => iotHttpSendMessage server depth true (some reportParam) ctx) true
                    { ctx with isAuthed := false }).map fun (_, ctx) => (ret, ctx)
                else some (ret, ctx)

/-- `http_report_func` with a handle and a topic. -/
def httpReportFunc (server : Nat → Response) (depth : Nat) : InfoReportFunc := fun ctx =>
  iotHttpSendMessage server depth true (some reportParam) ctx

end AliyunIot.Http
