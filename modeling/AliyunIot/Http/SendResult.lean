import AliyunIot.Http.Api
import AliyunIot.Infra.HttpcHeader
import AliyunIot.Infra.JsonLookup

/-!
# What a sent message is told

`IOT_HTTP_SendMessage` of `iotx_http_api.c` with the response that it receives: the bytes that
`wrapper_http_perform` hands to `_http_recv_callback`, and what `LITE_json_value_of` finds in the
caller's buffer. One variable holds the length of the transfer and then the result of the call.
`reported_iff` says which responses are told as what they are.
-/

namespace AliyunIot.Http.Send

open Format Httpc.Header
open Httpc (Network readLen httpclientRaedHeadSize)

abbrev stateUserInputHttpPostData : Int := State.userInputBase - 0x000C

/-! ## Looking into the response -/

/-- A string from a position on. -/
def behindPos (src : CStr) (pos : Nat) : CStr :=
  ⟨src.val.drop pos, fun h => src.property (List.mem_of_mem_drop h)⟩

/-- The loop of `LITE_json_value_of` over the names between the dots of a key: what it copies, none
inside where a name is not found, none where it reads behind the string. -/
def descend : List CStr → CStr → Nat → Option (Option (List UInt8))
  | [], _, _ => some none
  | name :: names, src, srcLen =>
    match JsonParser.jsonGetValueByName src srcLen name with
    | .value val valLen _ =>
      if names = [] then some (some ((src.val.drop val).take valLen))
      else descend names (behindPos src val) valLen
    | .null => some none
    | .outside | .unfinished => none

def liteJsonValueOf (key : List CStr) (src : CStr) : Option (Option (List UInt8)) :=
  descend key src src.strlen

def codeKey : List CStr := [.ofString "code" (by decide)]
def messageKey : List CStr := [.ofString "message" (by decide)]
def messageIdKey : List CStr := [.ofString "info" (by decide), .ofString "messageId" (by decide)]

/-! ## The transfer -/

/-- What a call finds: whether the allocations before the transfer succeed and the three of the
values, the result of `_http_send`, the bytes that the server answers and the sizes, less one, of
the reads that do not time out, and the memory behind the receive buffer. -/
structure Exchange where
  headerMalloc : Bool
  httpInit : Bool
  responseMalloc : Bool
  codeMalloc : Bool
  messageMalloc : Bool
  messageIdMalloc : Bool
  send : Int
  response : List UInt8
  reads : List Nat
  stack : List UInt8

/-- `iotx_http_message_param_t`; the response payload is the memory from its pointer on. -/
structure MessageParam where
  topicPath : Bool
  requestPayloadLen : UInt32
  requestPayload : Option CStr
  responsePayloadLen : UInt32
  responsePayload : Option (List UInt8)

/-- The length as an `int`, if it is positive. -/
def positiveInt (len : UInt32) : Option { n : Nat // 0 < n ∧ n ≤ 2147483647 } :=
  if h : 0 < len.toNat ∧ len.toNat ≤ 2147483647 then some ⟨len.toNat, h⟩ else none

/-- `wrapper_http_init`, with the buffer that `wrapper_http_perform` allocates. -/
def newClient (bufLen : { n : Nat // 0 < n ∧ n ≤ 2147483647 }) : ClientData :=
  ⟨false, 0, 0, [], bufLen⟩

/-- `_http_recv_callback`, none where it copies a negative length. -/
def httpRecvCallback (ptr : List UInt8) (length payloadLen : Int) (payload : List UInt8) :
    Option (List UInt8) :=
  if length > payloadLen then some payload
  else if length < 0 then none
  else some (ptr.take length.toNat ++ payload.drop length.toNat)

/-- `wrapper_http_perform` on a new handle: what it returns, and the payload after the callback. -/
def wrapperHttpPerform (e : Exchange) (length maxLen : UInt32) (payload : List UInt8) :
    Option (Int × List UInt8) :=
  match positiveInt length, positiveInt maxLen with
  | none, _ => some (stateUserInputHttpPostData, payload)
  | some _, none => some (State.userInputInvalid, payload)
  | some _, some bufLen =>
    if !e.responseMalloc then some (State.sysDependMalloc, payload)
    else if e.send < State.success then some (e.send, payload)
    else
      match httpclientRecvResponse (newClient bufLen) ⟨e.response, e.reads⟩ e.stack with
      | .overflow | .negativeLength => none
      | .returned ret client _ =>
        if ret < State.success then some (ret, payload)
        else
          let received := client.responseContentLen - client.retrieveLen
          let buffer := client.responseBuf ++
            List.replicate (bufLen.val - client.responseBuf.length) 0
          (httpRecvCallback buffer received bufLen.val payload).map fun payload =>
            (received, payload)

/-! ## The call -/

/-- What a call leaves: what it returns, the response payload, the context. -/
structure Sent where
  ret : Int
  payload : List UInt8
  ctx : IotxHttp

/-- `HTTP_LITE_JSON_VALUE_OF`, null also where its allocation fails. -/
def httpLiteJsonValueOf (malloc : Bool) (key : List CStr) (src : CStr) :
    Option (Option (List UInt8)) :=
  (liteJsonValueOf key src).map fun value => if malloc then value else none

def textOf (payload : List UInt8) : CStr := ⟨precision payload, zero_not_mem_precision⟩

/-- `IOT_HTTP_SendMessage` behind the transfer, of `ret` bytes. -/
def readResponse (server : Nat → Response) (depth : Nat) (e : Exchange) (ret : Int)
    (payload : List UInt8) (ctx : IotxHttp) : Option Sent :=
  match httpLiteJsonValueOf e.codeMalloc codeKey (textOf payload) with
  | none => none
  | some none => some ⟨ret, payload, ctx⟩
  | some (some code) =>
    match httpLiteJsonValueOf e.messageMalloc messageKey (textOf payload) with
    | none => none
    | some none => some ⟨ret, payload, ctx⟩
    | some (some _) =>
      if Libc.atoi code = iotxHttpSuccess then
        match httpLiteJsonValueOf e.messageIdMalloc messageIdKey (textOf payload) with
        | none => none
        | some none => some ⟨ret, payload, ctx⟩
        | some (some _) => some ⟨0, payload, ctx⟩
      else if Libc.atoi code = iotxHttpTokenExpiredError then
        -- the result of the authentication is ignored
        (iotHttpDeviceNameAuth server (httpReportFunc server depth) true
          { ctx with isAuthed := false }).map fun (_, ctx) => ⟨ret, payload, ctx⟩
      else some ⟨ret, payload, ctx⟩

/-- `IOT_HTTP_SendMessage` behind its checks. -/
def sendRequest (server : Nat → Response) (depth : Nat) (e : Exchange) (length maxLen : UInt32)
    (payload : List UInt8) (ctx : IotxHttp) : Option Sent :=
  let ctx := { ctx with requests := ctx.requests + 1 }
  if !e.headerMalloc || !e.httpInit then some ⟨-1, payload, ctx⟩
  else
    match wrapperHttpPerform e length maxLen payload with
    | none => none
    | some (ret, payload) =>
      if ret < 0 then some ⟨ret, payload, ctx⟩
      else readResponse server depth e ret payload ctx

/-- The checks of `IOT_HTTP_SendMessage`: the lengths and the response payload that it goes on
with. -/
def checkParam (handleValid : Bool) (msgParam : Option MessageParam) (ctx : IotxHttp) :
    Option (UInt32 × UInt32 × List UInt8) :=
  match msgParam with
  | none => none
  | some param =>
    if !handleValid || !ctx.isAuthed || !param.topicPath then none
    else
      match param.requestPayload, param.responsePayload with
      | some request, some payload =>
        some (min param.requestPayloadLen (UInt32.ofNat (request.strlen + 1)),
          param.responsePayloadLen, payload)
      | _, _ => none

/-- `IOT_HTTP_SendMessage`; at most `depth` messages may be open in the authentication behind it. -/
def iotHttpSendMessage (server : Nat → Response) (depth : Nat) (e : Exchange) (handleValid : Bool)
    (msgParam : Option MessageParam) (ctx : IotxHttp) : Option Sent :=
  match checkParam handleValid msgParam ctx with
  | none => some ⟨-1, (msgParam.bind MessageParam.responsePayload).getD [], ctx⟩
  | some (length, maxLen, payload) => sendRequest server depth e length maxLen payload ctx

/-! ## What is asked -/

def IsZero (value : List UInt8) : Prop :=
  ∃ zeros, (value = zeros ∨ value = 45 :: zeros) ∧ zeros ≠ [] ∧ ∀ b ∈ zeros, b = 48

/-- A response carries the code of success, a message and the identifier of the message. -/
structure Carries (body : List UInt8) : Prop where
  code : ∃ value, liteJsonValueOf codeKey (textOf body) = some (some value) ∧ IsZero value
  message : ∃ value, liteJsonValueOf messageKey (textOf body) = some (some value)
  messageId : ∃ value, liteJsonValueOf messageIdKey (textOf body) = some (some value)

def receiving (bufLen : { n : Nat // 0 < n ∧ n ≤ 2147483647 }) : ClientData :=
  { newClient bufLen with isMore := true }

namespace Exchange

variable (e : Exchange)

def first (size : Nat) : ReadBuf := .ofRead e.response size e.stack

def afterFirst (size : Nat) (reads : List Nat) : Network :=
  ⟨e.response.drop (readLen size httpclientRaedHeadSize), reads⟩

/-- The transfer ends in an error. -/
def Fails (length maxLen : UInt32) : Prop :=
  positiveInt length = none ∨ positiveInt maxLen = none ∨ e.responseMalloc = false ∨ e.send < 0 ∨
    ∀ bufLen size reads, positiveInt maxLen = some bufLen → e.reads = size :: reads →
      e.response ≠ [] → HeaderFails (e.first size) (receiving bufLen) (e.afterFirst size reads)

/-- The server answers with a body, all of which is received and fits the response buffer. -/
def Answers (length maxLen : UInt32) (body : List UInt8) : Prop :=
  ∃ bufLen size reads crlfPos n, positiveInt length ≠ none ∧ positiveInt maxLen = some bufLen ∧
    e.responseMalloc = true ∧ 0 ≤ e.send ∧ e.reads = size :: reads ∧ e.response ≠ [] ∧
    HeaderServes (e.first size) (receiving bufLen) (e.afterFirst size reads) crlfPos n ∧
    n ≤ bufLen.val - 1 ∧
    body = ((stream ((e.first size).removeStatusLine crlfPos) (e.afterFirst size reads)).drop
      ((headerEnd ((e.first size).removeStatusLine crlfPos) (e.afterFirst size reads)).getD
        0)).take n.toNat

end Exchange

section
variable (server : Nat → Response) (e : Exchange) (handleValid : Bool)
  (msgParam : Option MessageParam) (ctx : IotxHttp)

def Accepts (body : List UInt8) : Prop :=
  ∃ length maxLen payload, checkParam handleValid msgParam ctx = some (length, maxLen, payload) ∧
    e.headerMalloc = true ∧ e.httpInit = true ∧ e.Answers length maxLen body ∧ Carries body

/-- The call returns zero just when the message is accepted, with the response in the payload as a
string, and a negative value in every other case. -/
structure Reported : Prop where
  returns : ∃ depth, iotHttpSendMessage server depth e handleValid msgParam ctx ≠ none
  success : ∀ {depth sent}, iotHttpSendMessage server depth e handleValid msgParam ctx = some sent →
    (sent.ret = 0 ↔ ∃ body, Accepts e handleValid msgParam ctx body)
  rejected : ∀ {depth sent},
    iotHttpSendMessage server depth e handleValid msgParam ctx = some sent →
    (¬ ∃ body, Accepts e handleValid msgParam ctx body) → sent.ret < 0
  ended : ∀ {depth sent body},
    iotHttpSendMessage server depth e handleValid msgParam ctx = some sent →
    Accepts e handleValid msgParam ctx body → body ++ [0] <+: sent.payload

/-- Where the checks pass, there is no transfer or it fails, or the message is accepted, with a
zero behind the response in the payload before the call and memory for the three values. -/
def Reportable : Prop :=
  ∀ length maxLen payload, checkParam handleValid msgParam ctx = some (length, maxLen, payload) →
    e.headerMalloc = false ∨ e.httpInit = false ∨ e.Fails length maxLen ∨
    ∃ body, e.Answers length maxLen body ∧ Carries body ∧ payload[body.length]? = some 0 ∧
      e.codeMalloc = true ∧ e.messageMalloc = true ∧ e.messageIdMalloc = true

end

/-! ## The call by what is found in its response -/

/-- What a request comes to, if its functions stay in their buffers. -/
def Exchange.toResponse (e : Exchange) (length maxLen : UInt32) (payload : List UInt8) :
    Option Response :=
  if !e.headerMalloc || !e.httpInit then some ⟨none, none, false, false, none⟩
  else
    match wrapperHttpPerform e length maxLen payload with
    | none => none
    | some (ret, payload) =>
      if ret < 0 then some ⟨some ret, none, false, false, none⟩
      else
        match httpLiteJsonValueOf e.codeMalloc codeKey (textOf payload),
          httpLiteJsonValueOf e.messageMalloc messageKey (textOf payload),
          httpLiteJsonValueOf e.messageIdMalloc messageIdKey (textOf payload) with
        | some code, some message, some messageId =>
          some ⟨some ret, code.map Libc.atoi, message.isSome, messageId.isSome, none⟩
        | _, _, _ => none

def MessageParam.pointers (param : MessageParam) : IotxHttpMessageParam :=
  ⟨param.requestPayload.isSome, param.responsePayload.isSome, param.topicPath⟩

variable {payload : List UInt8}

theorem checkParam_some {handleValid : Bool} {param : MessageParam} {ctx : IotxHttp}
    {length maxLen : UInt32}
    (h : checkParam handleValid (some param) ctx = some (length, maxLen, payload)) :
    handleValid = true ∧ ctx.isAuthed = true ∧ param.pointers = ⟨true, true, true⟩ := by
  unfold checkParam at h
  dsimp only at h
  split at h
  · cases h
  next hchecks =>
    split at h
    next hrequest hpayload =>
      simp only [Bool.or_eq_true, Bool.not_eq_true', not_or, Bool.not_eq_false] at hchecks
      obtain ⟨⟨hvalid, hauthed⟩, htopic⟩ := hchecks
      refine ⟨hvalid, hauthed, ?_⟩
      rw [MessageParam.pointers, hrequest, hpayload, htopic]
      rfl
    · cases h

theorem send_eq_of_response {server : Nat → Response} (depth : Nat) {e : Exchange}
    {handleValid : Bool} {param : MessageParam} {ctx : IotxHttp} {length maxLen : UInt32}
    (hcheck : checkParam handleValid (some param) ctx = some (length, maxLen, payload))
    (hresponse : e.toResponse length maxLen payload = some (server ctx.requests)) :
    (iotHttpSendMessage server depth e handleValid (some param) ctx).map (fun sent =>
        (sent.ret, sent.ctx)) =
      Http.iotHttpSendMessage server (depth + 1) handleValid (some param.pointers) ctx := by
  obtain ⟨rfl, hauthed, hpointers⟩ := checkParam_some hcheck
  unfold iotHttpSendMessage sendRequest Http.iotHttpSendMessage
  rw [hcheck, hpointers, hauthed]
  unfold Exchange.toResponse at hresponse
  simp only [Bool.not_true, Bool.false_eq_true, if_false]
  by_cases halloc : (!e.headerMalloc || !e.httpInit) = true
  · rw [if_pos halloc] at hresponse ⊢
    rw [← Option.some.inj hresponse]
    rfl
  rw [if_neg halloc] at hresponse ⊢
  cases hperform : wrapperHttpPerform e length maxLen payload with
  | none =>
    rw [hperform] at hresponse
    cases hresponse
  | some performed =>
    obtain ⟨ret, payload'⟩ := performed
    rw [hperform] at hresponse
    dsimp only at hresponse ⊢
    by_cases hret : ret < 0
    · rw [if_pos hret] at hresponse ⊢
      rw [← Option.some.inj hresponse]
      dsimp only
      rw [if_pos hret]
      rfl
    rw [if_neg hret] at hresponse ⊢
    unfold readResponse
    split at hresponse
    next code message messageId hcode hmessage hmessageId =>
      rw [hcode, hmessage, hmessageId, ← Option.some.inj hresponse]
      dsimp only
      rw [if_neg hret]
      rcases code with _ | code
      · rfl
      rcases message with _ | message
      · rfl
      dsimp only [Option.map_some, Option.isSome_some]
      by_cases hsuccess : Libc.atoi code = iotxHttpSuccess
      · rw [if_pos hsuccess, if_pos hsuccess]
        rcases messageId with _ | messageId <;> rfl
      rw [if_neg hsuccess, if_neg hsuccess]
      by_cases hexpired : Libc.atoi code = iotxHttpTokenExpiredError
      · rw [if_pos hexpired, if_pos hexpired, Option.map_map]
        rfl
      · rw [if_neg hexpired, if_neg hexpired]
        rfl
    · cases hresponse

/-! ## The transfer -/

section
variable {e : Exchange} {bufLen : { n : Nat // 0 < n ∧ n ≤ 2147483647 }} {size : Nat}
  {reads : List Nat} {length maxLen : UInt32} {payload body : List UInt8}

theorem recv_of_reads (bufLen : { n : Nat // 0 < n ∧ n ≤ 2147483647 })
    (hreads : e.reads = size :: reads) (hresponse : e.response ≠ []) :
    httpclientRecvResponse (newClient bufLen) ⟨e.response, e.reads⟩ e.stack =
      httpParseResponseHeader (e.first size) (receiving bufLen) (e.afterFirst size reads) := by
  unfold httpclientRecvResponse
  rw [if_neg (show ¬ (newClient bufLen).isMore = true from Bool.false_ne_true), hreads]
  exact if_neg hresponse

theorem perform_received (payload : List UInt8) (hlength : positiveInt length ≠ none)
    (hmax : positiveInt maxLen = some bufLen) (hmalloc : e.responseMalloc = true)
    (hsend : 0 ≤ e.send) :
    wrapperHttpPerform e length maxLen payload =
      match httpclientRecvResponse (newClient bufLen) ⟨e.response, e.reads⟩ e.stack with
      | .overflow | .negativeLength => none
      | .returned ret client _ =>
        if ret < State.success then some (ret, payload)
        else
          (httpRecvCallback (client.responseBuf ++
              List.replicate (bufLen.val - client.responseBuf.length) 0)
            (client.responseContentLen - client.retrieveLen) bufLen.val payload).map fun payload =>
              (client.responseContentLen - client.retrieveLen, payload) := by
  obtain ⟨len, hlen⟩ := Option.ne_none_iff_exists'.mp hlength
  have hmalloc' : ¬ (!e.responseMalloc) = true := by rw [hmalloc]; exact Bool.false_ne_true
  unfold wrapperHttpPerform
  rw [hlen, hmax]
  dsimp only
  rw [if_neg hmalloc', if_neg (Int.not_lt.mpr hsend)]

theorem recv_of_no_read (bufLen : { n : Nat // 0 < n ∧ n ≤ 2147483647 })
    (h : e.reads = [] ∨ e.response = []) : ∃ client net,
      httpclientRecvResponse (newClient bufLen) ⟨e.response, e.reads⟩ e.stack =
        .returned Httpc.stateSysDependNwkTimeout client net := by
  unfold httpclientRecvResponse
  rw [if_neg (show ¬ (newClient bufLen).isMore = true from Bool.false_ne_true)]
  cases hreads : e.reads with
  | nil => exact ⟨_, _, rfl⟩
  | cons size reads =>
    rw [hreads] at h
    exact ⟨_, _, if_pos (h.resolve_left (List.cons_ne_nil _ _))⟩

theorem perform_of_fails (payload : List UInt8) (h : e.Fails length maxLen) :
    ∃ ret, wrapperHttpPerform e length maxLen payload = some (ret, payload) ∧ ret < 0 := by
  by_cases hlength : positiveInt length = none
  · refine ⟨stateUserInputHttpPostData, ?_, by decide⟩
    rw [wrapperHttpPerform, hlength]
  obtain ⟨len, hlen⟩ := Option.ne_none_iff_exists'.mp hlength
  cases hmax : positiveInt maxLen with
  | none =>
    refine ⟨State.userInputInvalid, ?_, by decide⟩
    rw [wrapperHttpPerform, hlen, hmax]
  | some bufLen =>
    cases hmalloc : e.responseMalloc with
    | false =>
      refine ⟨State.sysDependMalloc, ?_, by decide⟩
      rw [wrapperHttpPerform, hlen, hmax, hmalloc]
      rfl
    | true =>
      by_cases hsend : e.send < 0
      · refine ⟨e.send, ?_, hsend⟩
        rw [wrapperHttpPerform, hlen, hmax, hmalloc]
        exact if_pos hsend
      · rw [perform_received payload hlength hmax hmalloc (Int.not_lt.mp hsend)]
        have hrecv : ∃ ret client net, httpclientRecvResponse (newClient bufLen)
            ⟨e.response, e.reads⟩ e.stack = .returned ret client net ∧ ret < 0 := by
          by_cases hread : e.reads = [] ∨ e.response = []
          · obtain ⟨client, net, heq⟩ := recv_of_no_read bufLen hread
            exact ⟨_, client, net, heq, by decide⟩
          · obtain ⟨hreads, hresponse⟩ := not_or.mp hread
            obtain ⟨size, reads, hcons⟩ := List.exists_cons_of_ne_nil hreads
            rw [recv_of_reads bufLen hcons hresponse]
            rcases h with h | h | h | h | h
            · exact absurd h hlength
            · rw [hmax] at h
              cases h
            · rw [hmalloc] at h
              cases h
            · exact absurd h hsend
            · exact header_fails (h bufLen size reads hmax hcons hresponse)
        obtain ⟨ret, client, net, heq, hneg⟩ := hrecv
        rw [heq]
        exact ⟨ret, if_pos hneg, hneg⟩

theorem callback_of_served {buf : ReadBuf} {net : Network} {n : Int} {client : ClientData}
    (hbuf : client.responseBufLen = bufLen) (hlen : client.responseContentLen = Cjson.saturate n)
    (hn : 0 ≤ n) (henough : min ((bufLen.val : Int) - 1) n ≤ bodyReach buf net)
    (hserved : BodyServed buf net n client) (payload : List UInt8) :
    (httpRecvCallback (client.responseBuf ++
          List.replicate (bufLen.val - client.responseBuf.length) 0)
        (client.responseContentLen - client.retrieveLen) bufLen.val payload).map (fun payload =>
          (client.responseContentLen - client.retrieveLen, payload)) =
      some ((client.responseBuf.length : Int),
        client.responseBuf ++ payload.drop client.responseBuf.length) := by
  subst hbuf
  have hpos := client.responseBufLen.property.1
  have hreach : bodyReach buf net ≤ (stream buf net).length - (headerEnd buf net).getD 0 :=
    Nat.min_le_left _ _
  have hwritten : (client.responseBuf.length : Int) =
      min ((client.responseBufLen.val : Int) - 1) n := by
    rw [hserved.written, List.length_take, List.length_drop]
    omega
  have hreceived : client.responseContentLen - client.retrieveLen = client.responseBuf.length := by
    rw [hlen, hserved.left, hwritten]
    omega
  rw [hreceived, httpRecvCallback, if_neg (by omega), if_neg (by omega), Int.toNat_natCast,
    List.take_left]
  rfl

theorem perform_of_not_fails (payload : List UInt8) (h : ¬ e.Fails length maxLen) :
    wrapperHttpPerform e length maxLen payload = none ∨
      ∃ ret payload', wrapperHttpPerform e length maxLen payload = some (ret, payload') ∧
        0 ≤ ret := by
  rw [Exchange.Fails, not_or, not_or, not_or, not_or] at h
  obtain ⟨hlength, -, hmalloc, hsend, hreceived⟩ := h
  push Not at hreceived
  obtain ⟨bufLen, size, reads, hmax, hreads, hresponse, hnot⟩ := hreceived
  have hmalloc' : e.responseMalloc = true := by simpa using hmalloc
  rw [perform_received payload hlength hmax hmalloc' (Int.not_lt.mp hsend),
    recv_of_reads bufLen hreads hresponse]
  rcases header_not_fails hnot with hover | hneg | ⟨crlfPos, n, hserves⟩
  · rw [hover]
    exact .inl rfl
  · rw [hneg]
    exact .inl rfl
  · obtain ⟨ret, client, net, hparse, hret, hlen, hbuf, hserved⟩ := header_serves hserves
    replace hbuf : client.responseBufLen = bufLen := hbuf
    have hcallback :=
      callback_of_served hbuf hlen hserves.nonneg hserves.enough hserved payload
    rw [hparse]
    dsimp only
    rw [if_neg (Int.not_lt.mpr hret), hcallback]
    exact .inr ⟨_, _, rfl, Int.natCast_nonneg _⟩

theorem perform_of_answers (payload : List UInt8) (h : e.Answers length maxLen body) :
    wrapperHttpPerform e length maxLen payload =
      some ((body.length : Int), body ++ payload.drop body.length) := by
  obtain ⟨bufLen, size, reads, crlfPos, n, hlength, hmax, hmalloc, hsend, hreads, hresponse,
    hserves, hfits, hbody⟩ := h
  rw [perform_received payload hlength hmax hmalloc hsend, recv_of_reads bufLen hreads hresponse]
  obtain ⟨ret, client, net, hparse, hret, hlen, hbuf, hserved⟩ := header_serves hserves
  replace hbuf : client.responseBufLen = bufLen := hbuf
  have hcallback :=
    callback_of_served hbuf hlen hserves.nonneg hserves.enough hserved payload
  have hwritten : client.responseBuf = body := by
    rw [hserved.written, hbody, hbuf]
    congr 2
    exact Int.min_eq_right hfits
  rw [hparse]
  dsimp only
  rw [if_neg (Int.not_lt.mpr hret), hcallback, hwritten]

end

/-! ## The response -/

theorem leadingNat_of_zeros {zeros : List UInt8} (h : ∀ b ∈ zeros, b = 48) :
    (Cjson.leadingNat zeros).2 = 0 := by
  induction zeros with
  | nil => rfl
  | cons b zeros ih =>
    obtain ⟨rfl, hzeros⟩ := List.forall_mem_cons.mp h
    exact ih hzeros

theorem atoi_of_isZero {value : List UInt8} (h : IsZero value) : Libc.atoi value = 0 := by
  obtain ⟨zeros, hvalue, -, hzeros⟩ := h
  have hdigits : ∀ b ∈ zeros, isDigit b = true := by
    intro b hb
    rw [hzeros b hb]
    decide
  have hnumber := leadingNat_of_zeros hzeros
  rcases hvalue with rfl | rfl
  · rw [Libc.atoi_digits hdigits, hnumber]
    decide
  · have hminus : Libc.atoi (45 :: zeros) = Cjson.saturate (-((Cjson.leadingNat zeros).2 : Int)) :=
      rfl
    rw [hminus, hnumber]
    decide

section
variable {server : Nat → Response} {depth : Nat} {e : Exchange} {ret : Int}
  {payload body : List UInt8} {ctx : IotxHttp} {sent : Sent}

theorem readResponse_cases (h : readResponse server depth e ret payload ctx = some sent) :
    (sent.ret = 0 ∨ sent.ret = ret) ∧ sent.payload = payload := by
  unfold readResponse at h
  split at h
  · cases h
  · cases h
    exact ⟨.inr rfl, rfl⟩
  split at h
  · cases h
  · cases h
    exact ⟨.inr rfl, rfl⟩
  split at h
  · split at h
    · cases h
    · cases h
      exact ⟨.inr rfl, rfl⟩
    · cases h
      exact ⟨.inl rfl, rfl⟩
  · split at h
    · obtain ⟨auth, -, rfl⟩ := Option.map_eq_some_iff.mp h
      exact ⟨.inr rfl, rfl⟩
    · cases h
      exact ⟨.inr rfl, rfl⟩

theorem readResponse_of_carries (server : Nat → Response) (depth : Nat) (e : Exchange) (ret : Int)
    (ctx : IotxHttp) (hcarries : Carries body) (htext : textOf payload = textOf body) :
    readResponse server depth e ret payload ctx =
      some ⟨if e.codeMalloc = true ∧ e.messageMalloc = true ∧ e.messageIdMalloc = true then 0
        else ret, payload, ctx⟩ := by
  obtain ⟨⟨code, hcode, hzero⟩, ⟨message, hmessage⟩, ⟨messageId, hmessageId⟩⟩ := hcarries
  unfold readResponse httpLiteJsonValueOf
  rw [htext, hcode, hmessage, hmessageId]
  cases e.codeMalloc with
  | false => rfl
  | true =>
    cases e.messageMalloc with
    | false => rfl
    | true =>
      simp only [Option.map_some, if_true, atoi_of_isZero hzero]
      cases e.messageIdMalloc <;> rfl

end

/-! ## What is told -/

theorem ne_nil_of_carries {body : List UInt8} (h : Carries body) : body ≠ [] := by
  rintro rfl
  obtain ⟨value, hvalue, -⟩ := h.code
  have hempty : liteJsonValueOf codeKey (textOf []) = some none := by decide
  rw [hempty] at hvalue
  cases hvalue

theorem textOf_of_zero {body : List UInt8} (h : payload[body.length]? = some 0) :
    textOf (body ++ payload.drop body.length) = textOf body ∧
      body ++ [0] <+: body ++ payload.drop body.length := by
  obtain ⟨hlt, hzero⟩ := List.getElem?_eq_some_iff.mp h
  have hdrop : payload.drop body.length = 0 :: payload.drop (body.length + 1) := by
    rw [List.drop_eq_getElem_cons hlt, hzero]
  rw [hdrop]
  refine ⟨Subtype.ext (precision_append_nul body _), ?_⟩
  exact List.prefix_append_right_inj body |>.mpr ⟨_, rfl⟩

section
variable {server : Nat → Response} {depth : Nat} {e : Exchange} {handleValid : Bool}
  {msgParam : Option MessageParam} {ctx : IotxHttp} {length maxLen : UInt32}
  {payload body : List UInt8} {sent : Sent}

theorem send_of_fails (server : Nat → Response) (depth : Nat)
    (h : ∀ length maxLen payload, checkParam handleValid msgParam ctx =
      some (length, maxLen, payload) →
        e.headerMalloc = false ∨ e.httpInit = false ∨ e.Fails length maxLen) :
    ∃ sent, iotHttpSendMessage server depth e handleValid msgParam ctx = some sent ∧
      sent.ret < 0 := by
  unfold iotHttpSendMessage
  cases hcheck : checkParam handleValid msgParam ctx with
  | none => exact ⟨_, rfl, show (-1 : Int) < 0 by decide⟩
  | some checked =>
    obtain ⟨length, maxLen, payload⟩ := checked
    dsimp only [sendRequest]
    by_cases halloc : (!e.headerMalloc || !e.httpInit) = true
    · rw [if_pos halloc]
      exact ⟨_, rfl, show (-1 : Int) < 0 by decide⟩
    · rw [if_neg halloc]
      have hfails : e.Fails length maxLen := by
        rcases h length maxLen payload hcheck with h | h | h
        · exact absurd (by rw [h]; rfl) halloc
        · exact absurd (by rw [h, Bool.not_false, Bool.or_true]) halloc
        · exact h
      obtain ⟨ret, hperform, hneg⟩ := perform_of_fails payload hfails
      rw [hperform]
      exact ⟨_, if_pos hneg, hneg⟩

theorem send_of_transfer (server : Nat → Response) (depth : Nat)
    (hcheck : checkParam handleValid msgParam ctx = some (length, maxLen, payload))
    (hheader : e.headerMalloc = true) (hinit : e.httpInit = true) :
    iotHttpSendMessage server depth e handleValid msgParam ctx =
      match wrapperHttpPerform e length maxLen payload with
      | none => none
      | some (ret, payload) =>
        if ret < 0 then some ⟨ret, payload, { ctx with requests := ctx.requests + 1 }⟩
        else readResponse server depth e ret payload { ctx with requests := ctx.requests + 1 } := by
  unfold iotHttpSendMessage sendRequest
  rw [hcheck, hheader, hinit]
  rfl

theorem send_of_answers (server : Nat → Response) (depth : Nat)
    (hcheck : checkParam handleValid msgParam ctx = some (length, maxLen, payload))
    (hheader : e.headerMalloc = true) (hinit : e.httpInit = true)
    (hanswers : e.Answers length maxLen body) (hcarries : Carries body)
    (hzero : payload[body.length]? = some 0) :
    iotHttpSendMessage server depth e handleValid msgParam ctx =
      some ⟨if e.codeMalloc = true ∧ e.messageMalloc = true ∧ e.messageIdMalloc = true then 0
        else body.length, body ++ payload.drop body.length,
        { ctx with requests := ctx.requests + 1 }⟩ := by
  rw [send_of_transfer server depth hcheck hheader hinit, perform_of_answers payload hanswers]
  dsimp only
  rw [if_neg (Int.not_lt.mpr (Int.natCast_nonneg _))]
  exact readResponse_of_carries server depth e _ _ hcarries (textOf_of_zero hzero).1

theorem answers_unique {body' : List UInt8} (h : e.Answers length maxLen body)
    (h' : e.Answers length maxLen body') : body' = body := by
  have hperform := perform_of_answers [] h'
  rw [perform_of_answers [] h] at hperform
  simpa using (congrArg Prod.snd (Option.some.inj hperform)).symm

theorem not_answers_of_fails (h : e.Fails length maxLen) : ¬ e.Answers length maxLen body := by
  intro hanswers
  obtain ⟨ret, hperform, hneg⟩ := perform_of_fails [] h
  rw [perform_of_answers [] hanswers] at hperform
  obtain ⟨rfl, -⟩ := Prod.mk.inj (Option.some.inj hperform)
  omega

theorem reported_of_fails (server : Nat → Response)
    (h : ∀ length maxLen payload, checkParam handleValid msgParam ctx =
      some (length, maxLen, payload) →
        e.headerMalloc = false ∨ e.httpInit = false ∨ e.Fails length maxLen) :
    Reported server e handleValid msgParam ctx := by
  have hrefused : ∀ body, ¬ Accepts e handleValid msgParam ctx body := by
    rintro body ⟨length, maxLen, payload, hcheck, hheader, hinit, hanswers, -⟩
    rcases h length maxLen payload hcheck with h | h | h
    · rw [hheader] at h
      cases h
    · rw [hinit] at h
      cases h
    · exact not_answers_of_fails h hanswers
  have hneg : ∀ {depth sent}, iotHttpSendMessage server depth e handleValid msgParam ctx =
      some sent → sent.ret < 0 := by
    intro depth sent hsent
    obtain ⟨sent', hsent', hneg⟩ := send_of_fails server depth h
    rw [hsent] at hsent'
    rwa [Option.some.inj hsent']
  refine ⟨⟨0, ?_⟩, fun hsent => ⟨fun hzero => ?_, ?_⟩, fun hsent _ => hneg hsent, ?_⟩
  · obtain ⟨sent, hsent, -⟩ := send_of_fails server 0 h
    rw [hsent]
    exact Option.some_ne_none _
  · exact absurd hzero (Int.ne_of_lt (hneg hsent))
  · rintro ⟨body, haccepts⟩
    exact absurd haccepts (hrefused body)
  · intro depth sent body _ haccepts
    exact absurd haccepts (hrefused body)

theorem reported_of_answers (server : Nat → Response)
    (hcheck : checkParam handleValid msgParam ctx = some (length, maxLen, payload))
    (hheader : e.headerMalloc = true) (hinit : e.httpInit = true)
    (hanswers : e.Answers length maxLen body) (hcarries : Carries body)
    (hzero : payload[body.length]? = some 0)
    (hmalloc : e.codeMalloc = true ∧ e.messageMalloc = true ∧ e.messageIdMalloc = true) :
    Reported server e handleValid msgParam ctx := by
  have haccepts : Accepts e handleValid msgParam ctx body :=
    ⟨length, maxLen, payload, hcheck, hheader, hinit, hanswers, hcarries⟩
  have hsend := fun depth =>
    send_of_answers server depth hcheck hheader hinit hanswers hcarries hzero
  simp only [if_pos hmalloc] at hsend
  refine ⟨⟨0, ?_⟩, fun {depth _} hsent => ?_, fun _ hno => absurd ⟨body, haccepts⟩ hno, ?_⟩
  · rw [hsend]
    exact Option.some_ne_none _
  · rw [hsend depth] at hsent
    obtain rfl := Option.some.inj hsent
    exact ⟨fun _ => ⟨body, haccepts⟩, fun _ => rfl⟩
  · rintro depth sent body' hsent ⟨length', maxLen', payload', hcheck', -, -, hanswers', -⟩
    obtain ⟨rfl, rfl, rfl⟩ : length = length' ∧ maxLen = maxLen' ∧ payload = payload' := by
      simpa using hcheck.symm.trans hcheck'
    obtain rfl := answers_unique hanswers hanswers'
    rw [hsend depth] at hsent
    obtain rfl := Option.some.inj hsent
    exact (textOf_of_zero hzero).2

end

/-- The result of a call tells what became of its message exactly when no response is received, or
the message is accepted by a response behind which the caller's buffer was zero. -/
theorem reported_iff (server : Nat → Response) (e : Exchange) (handleValid : Bool)
    (msgParam : Option MessageParam) (ctx : IotxHttp) :
    Reported server e handleValid msgParam ctx ↔ Reportable e handleValid msgParam ctx := by
  constructor
  · intro h length maxLen payload hcheck
    by_contra hno
    push Not at hno
    obtain ⟨hheader, hinit, hserved, hbad⟩ := hno
    have hheader' : e.headerMalloc = true := by simpa using hheader
    have hinit' : e.httpInit = true := by simpa using hinit
    obtain ⟨depth, hsome⟩ := h.returns
    obtain ⟨sent, hsent⟩ := Option.ne_none_iff_exists'.mp hsome
    have hread := hsent
    rw [send_of_transfer server depth hcheck hheader' hinit'] at hread
    rcases perform_of_not_fails payload hserved with hnone | ⟨ret, payload', hperform, hret⟩
    · rw [hnone] at hread
      cases hread
    rw [hperform] at hread
    dsimp only at hread
    rw [if_neg (Int.not_lt.mpr hret)] at hread
    obtain ⟨hreturned, hpayload⟩ := readResponse_cases hread
    -- a call that has come so far returns no negative value
    have haccepted : ∃ body, Accepts e handleValid msgParam ctx body := by
      by_contra hnot
      have hneg := h.rejected hsent hnot
      omega
    obtain ⟨body, haccepts⟩ := haccepted
    have hended := h.ended hsent haccepts
    have hzero := (h.success hsent).mpr ⟨body, haccepts⟩
    obtain ⟨length', maxLen', payload'', hcheck', -, -, hanswers, hcarries⟩ := haccepts
    obtain ⟨rfl, rfl, rfl⟩ : length = length' ∧ maxLen = maxLen' ∧ payload = payload'' := by
      simpa using hcheck.symm.trans hcheck'
    rw [perform_of_answers payload hanswers] at hperform
    obtain ⟨rfl, rfl⟩ := Prod.mk.inj (Option.some.inj hperform)
    have hbehind : payload[body.length]? = some 0 := by
      rw [hpayload] at hended
      obtain ⟨rest, hrest⟩ := (List.prefix_append_right_inj body).mp hended
      rw [← List.head?_drop, ← hrest]
      rfl
    rw [send_of_answers server depth hcheck hheader' hinit' hanswers hcarries hbehind] at hsent
    obtain rfl := Option.some.inj hsent
    by_cases hmalloc : e.codeMalloc = true ∧ e.messageMalloc = true ∧ e.messageIdMalloc = true
    · exact hbad body hanswers hcarries hbehind hmalloc.1 hmalloc.2.1 hmalloc.2.2
    · have hlen := hzero
      rw [if_neg hmalloc] at hlen
      exact ne_nil_of_carries hcarries (List.length_eq_zero_iff.mp (Int.natCast_eq_zero.mp hlen))
  · intro h
    by_cases hfails : ∀ length maxLen payload, checkParam handleValid msgParam ctx =
        some (length, maxLen, payload) →
          e.headerMalloc = false ∨ e.httpInit = false ∨ e.Fails length maxLen
    · exact reported_of_fails server hfails
    · push Not at hfails
      obtain ⟨length, maxLen, payload, hcheck, hheader, hinit, hserved⟩ := hfails
      rcases h length maxLen payload hcheck with hno | hno | hno |
        ⟨body, hanswers, hcarries, hzero, hmalloc⟩
      · exact absurd hno hheader
      · exact absurd hno hinit
      · exact absurd hno hserved
      · exact reported_of_answers server hcheck (by simpa using hheader) (by simpa using hinit)
          hanswers hcarries hzero hmalloc

/-! ## A rejected message -/

def rejection : List UInt8 := text "HTTP/1.1 200 OK" ++ Httpc.crlf ++ text "Content-Length: 38" ++
  Httpc.crlf ++ Httpc.crlf ++
  text "\x7b\"code\":10001,\"message\":\"param error\"\x7d"

def rejecting : Exchange where
  headerMalloc := true
  httpInit := true
  responseMalloc := true
  codeMalloc := true
  messageMalloc := true
  messageIdMalloc := true
  send := 0
  response := rejection
  reads := [31, 31, 31]
  stack := []

def message : MessageParam := ⟨true, 1, some ⟨[120], by decide⟩, 64, some (List.replicate 64 0)⟩

/-- The length of the response is returned, as for a transfer that is not over. -/
theorem rejection_not_reported : ¬ Reported (fun _ => ⟨none, none, false, false, none⟩) rejecting
    true (some message) ⟨true, 0⟩ := by
  intro h
  have hret : (iotHttpSendMessage (fun _ => ⟨none, none, false, false, none⟩) 0 rejecting true
      (some message) ⟨true, 0⟩).map Sent.ret = some 38 := by decide
  obtain ⟨sent, hsent, hlen⟩ := Option.map_eq_some_iff.mp hret
  have hneg := h.rejected hsent fun haccepts => by
    have hzero := (h.success hsent).mpr haccepts
    omega
  omega

end AliyunIot.Http.Send
