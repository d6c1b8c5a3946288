import AliyunIot.Infra.Atoi
import AliyunIot.Infra.State
import AliyunIot.Lib.Search

/-!
# Receiving an HTTP response

`infra_httpc.c` from `wrapper_http_perform` on, once the request is sent: the header is read
in pieces of 32 bytes into a buffer of 1024, the body by way of the same buffer into the
response buffer of the call. A call comes with the sizes of the network's reads; when they
run out, a read times out.
-/

namespace AliyunIot.Httpc

open Format Lib Libc

def httpclientReadBufSize : Nat := 1024
def httpclientRaedHeadSize : Nat := 32
def httpclientChunkSize : Nat := 1024

abbrev httpRetrieveMoreData : Int := 1

abbrev errorHttpUnresolvedDns : Int := -6

abbrev stateSysDependNwkTimeout : Int := State.sysDependBase - 0x0009
abbrev stateHttpRespMissingContentLen : Int := -0x0600 - 0x0005

def crlf : List UInt8 := [13, 10]

def contentLength : List UInt8 := text "Content-Length"

/-- What of `wrapper_http_handle_t` a response needs. -/
structure HttpHandle where
  isMore : Bool
  retrieveLen : Nat
  responseContentLen : Int
  alreadyReceived : Int

/-- The bytes that are still to be read, and the sizes, less one, of the reads that do not
time out. -/
structure Network where
  rest : List UInt8
  reads : List Nat
  deriving DecidableEq

/-- `strstr` in a buffer: the place of the text in the string that it holds. -/
def strstr (data needle : List UInt8) : Option Nat := search needle (precision data)

/-- How much `_http_recv` reads into a buffer of `maxLen` bytes where it does not time out. -/
def readLen (size maxLen : Nat) : Nat := min (size + 1) maxLen

/-- `_utils_fill_rx_buf`: whether the response buffer of `bufLen` bytes is full, what is
written to it, and the length that is left to retrieve. -/
def utilsFillRxBuf (bufLen : Nat) (written data : List UInt8) (retrieveLen : Nat) :
    Bool × List UInt8 × Nat :=
  if written.length + data.length < bufLen - 1 then
    (false, written ++ data, retrieveLen - data.length)
  else
    let room := bufLen - 1 - written.length
    (true, written ++ data.take room, retrieveLen - room)

/-- How `_http_get_response_body` ends. -/
structure BodyResult where
  ret : Int
  written : List UInt8
  retrieveLen : Nat
  isMore : Bool
  net : Network
  deriving DecidableEq

/-- A round of `_http_get_response_body` up to its read: the end of the loop, or what is
written and the length that is left. -/
def fillBody (bufLen : Nat) (written data : List UInt8) (retrieveLen : Nat) (net : Network) :
    BodyResult ⊕ List UInt8 × Nat :=
  match utilsFillRxBuf bufLen written (data.take retrieveLen) retrieveLen with
  | (true, written, retrieveLen) =>
    .inl ⟨httpRetrieveMoreData, written, retrieveLen, true, net⟩
  | (false, written, retrieveLen) =>
    if retrieveLen = 0 then .inl ⟨State.success, written, 0, false, net⟩
    else .inr (written, retrieveLen)

/-- `_http_get_response_body`, with `data` just read. -/
def httpGetResponseBody (bufLen : Nat) (written data : List UInt8) (retrieveLen : Nat)
    (rest : List UInt8) : List Nat → BodyResult
  | [] =>
    match fillBody bufLen written data retrieveLen ⟨rest, []⟩ with
    | .inl result => result
    | .inr (written, retrieveLen) =>
      ⟨stateSysDependNwkTimeout, written, retrieveLen, true, ⟨rest, []⟩⟩
  | size :: reads =>
    match fillBody bufLen written data retrieveLen ⟨rest, size :: reads⟩ with
    | .inl result => result
    | .inr (written, retrieveLen) =>
      if rest = [] then
        ⟨stateSysDependNwkTimeout, written, retrieveLen, true, ⟨rest, reads⟩⟩
      else
        let maxLen := min (min (httpclientChunkSize - 1) (bufLen - 1 - written.length)) retrieveLen
        httpGetResponseBody bufLen written (rest.take (readLen size maxLen)) retrieveLen
          (rest.drop (readLen size maxLen)) reads

/-- How the loop of `_http_parse_response_header` ends: it reads past the buffer, a read times
out, or the end of the header is found. -/
inductive HeaderRead where
  | overflow
  | timeout (net : Network)
  | found (data : List UInt8) (bodyEnd : Nat) (net : Network)

/-- The loop of `_http_parse_response_header` that reads until the end of the header. -/
def readHeader (data rest : List UInt8) : List Nat → HeaderRead
  | [] =>
    match strstr data (crlf ++ crlf) with
    | some bodyEnd => .found data bodyEnd ⟨rest, []⟩
    | none => .timeout ⟨rest, []⟩
  | size :: reads =>
    match strstr data (crlf ++ crlf) with
    | some bodyEnd => .found data bodyEnd ⟨rest, size :: reads⟩
    | none =>
      if rest = [] then .timeout ⟨rest, reads⟩
      else
        let len := readLen size httpclientRaedHeadSize
        if httpclientReadBufSize ≤ data.length + (rest.take len).length then .overflow
        else readHeader (data ++ rest.take len) (rest.drop len) reads

/-- What a response handler leaves: what it returns and has written, the handle, the network. -/
abbrev Received := Int × List UInt8 × HttpHandle × Network

/-- `_http_parse_response_header`, none where it writes outside of a buffer: behind its own,
or a negative length of the body. -/
def httpParseResponseHeader (bufLen : Nat) (handle : HttpHandle) (data : List UInt8)
    (net : Network) : Option Received :=
  let handle := { handle with responseContentLen := -1 }
  match strstr data crlf with
  | none => some (errorHttpUnresolvedDns, [], handle, net)
  | some crlfPos =>
    match readHeader (data.drop (crlfPos + 2)) net.rest net.reads with
    | .overflow => none
    | .timeout net => some (stateSysDependNwkTimeout, [], handle, net)
    | .found data bodyEnd net =>
      match strstr data contentLength with
      | none => some (stateHttpRespMissingContentLen, [], handle, net)
      | some pos =>
        let length := atoi (precision (data.drop (pos + 16)))
        if length < 0 then none
        else
          let body := httpGetResponseBody bufLen [] (data.drop (bodyEnd + 4)) length.toNat
            net.rest net.reads
          some (body.ret, body.written,
            { handle with
              isMore := body.isMore
              retrieveLen := body.retrieveLen
              responseContentLen := length },
            body.net)

def httpclientRecvResponse (bufLen : Nat) (handle : HttpHandle) (net : Network) :
    Option Received :=
  if handle.isMore then
    if handle.responseContentLen = -1 then
      some (State.sysDependNwkClose, [], handle, net)
    else
      let body := httpGetResponseBody bufLen [] [] handle.retrieveLen net.rest net.reads
      some (body.ret, body.written,
        { handle with isMore := body.isMore, retrieveLen := body.retrieveLen }, body.net)
  else
    let handle := { handle with isMore := true }
    match net.reads with
    | [] => some (stateSysDependNwkTimeout, [], handle, net)
    | size :: reads =>
      if net.rest = [] then some (stateSysDependNwkTimeout, [], handle, { net with reads })
      else
        let len := readLen size httpclientRaedHeadSize
        httpParseResponseHeader bufLen handle (net.rest.take len) ⟨net.rest.drop len, reads⟩

/-- `wrapper_http_perform` with a response buffer of `bufLen` bytes: what it returns, and what
its caller is given in the buffer for a returned length. -/
def wrapperHttpPerform (bufLen : Nat) (handle : HttpHandle) (net : Network) :
    Option Received :=
  match httpclientRecvResponse bufLen handle net with
  | none => none
  | some (ret, written, handle, net) =>
    if ret < State.success then some (ret, [], handle, net)
    else
      let received := handle.responseContentLen - handle.retrieveLen - handle.alreadyReceived
      let buffer := written ++ List.replicate (bufLen - written.length) 0
      some (received, buffer.take received.toNat,
        { handle with alreadyReceived := handle.responseContentLen - handle.retrieveLen }, net)

end AliyunIot.Httpc
