import AliyunIot.Infra.CharBuf
import AliyunIot.Infra.Format
import AliyunIot.Infra.State

/-!
# HTTP/2 streams

`http2_api.c` with `FS_ENABLED`, and of `iotx_http2.c` what sends: the nodes of the streams,
the header callback, and the calls that open, feed, query and close a stream. What nghttp2,
the allocations and the semaphore give is part of a call's arguments.
-/

namespace AliyunIot.Http2

open Format

inductive StreamType where
  | download | upload | auxiliary

/-- `http2_stream_node_t`; `posts` is how often its semaphore was posted. -/
structure Http2StreamNode where
  streamId : UInt32
  channelId : Option CStr
  streamType : StreamType
  posts : Nat
  statusCode : List UInt8
  rcvHdCnt : UInt8

/-- The node after `memset`. -/
def Http2StreamNode.fresh (streamId : UInt32) : Http2StreamNode :=
  ⟨streamId, none, .download, 0, [], 0⟩

/-! ## Response headers -/

/-- The arguments of `on_stream_header`, and whether a channel id can be allocated. -/
structure HeaderCallback where
  cat : Int
  name : List UInt8
  value : List UInt8
  malloc : Bool

def xDataStreamId : List UInt8 := text "x-data-stream-id"
def xFileUploadId : List UInt8 := text "x-file-upload-id"
def xNextAppendPosition : List UInt8 := text "x-next-append-position"
def xResponseStatus : List UInt8 := text "x-response-status"
def pseudoStatus : List UInt8 := text ":status"

/-- `memcmp(status, "200", 3) == 0`. -/
def isOk (status : List UInt8) : Bool := status.take 3 = text "200"

/-- `strncpy(node->status_code, value, 4)`, as a string. -/
def statusOf (value : List UInt8) : List UInt8 := (precision value).take 4

namespace Http2StreamNode

/-- A header that is counted; the second one posts. -/
def count (node : Http2StreamNode) : Http2StreamNode :=
  { node with
    rcvHdCnt := node.rcvHdCnt + 1
    posts := if node.rcvHdCnt + 1 = 2 then node.posts + 1 else node.posts }

/-- `on_stream_header` for the node of its stream; the headers of file uploads write to the
user's data. -/
def onStreamHeader (node : Http2StreamNode) (c : HeaderCallback) : Http2StreamNode :=
  if c.cat ≠ 1 then node
  else if strncmpEq c.name xDataStreamId then
    if c.malloc = false then { node with channelId := none }
    else { node with channelId := some (CharBuf.string c.value) }.count
  else if strncmpEq c.name xFileUploadId then node
  else if strncmpEq c.name xNextAppendPosition then node
  else if strncmpEq c.name xResponseStatus then
    { node with statusCode := statusOf c.value }.count
  else if strncmpEq c.name pseudoStatus then
    if isOk c.value then node
    else { node with statusCode := statusOf c.value, posts := node.posts + 1 }
  else node

/-- What `IOT_HTTP2_Stream_Open` returns when its wait has returned, and the channel id that
it copies; none when the channel id that it reads is null. -/
def openAnswer (node : Http2StreamNode) (waited : Int) (malloc : Bool) :
    Option (Int × Option CStr) :=
  if waited < 0 ∨ isOk node.statusCode = false then some (State.failReturn, none)
  else
    match node.channelId with
    | none => none
    | some channelId =>
      if malloc = false then some (State.failReturn, none)
      else some (State.success, some channelId)

end Http2StreamNode

/-! ## Sending -/

structure DataFrame where
  streamId : Int
  payload : List UInt8
  endStream : Bool
  deriving DecidableEq

/-- `stream_handle_t` with its `http2_connection_t`. `opened` are the ids that nghttp2 gave,
`sent` the DATA frames. -/
structure StreamHandle where
  streamList : List Http2StreamNode
  flag : Int
  nextStreamId : Nat
  opened : List UInt32
  sent : List DataFrame

/-- After `IOT_HTTP2_Connect`. -/
def StreamHandle.connected : StreamHandle := ⟨[], 0, 1, [], []⟩

abbrev nghttp2FlagEndStream : Int := 1

/-- What `data_read_callback` stores and the flags that it sets. -/
structure DataRead where
  payload : List UInt8
  eof : Bool
  noEndStream : Bool

/-- `data_read_callback` for the packet `data` and a buffer of `length` bytes, and the flag of
the connection after it. -/
def dataReadCallback (flag : Int) (data : List UInt8) (length : Nat) : DataRead × Int :=
  if flag ≠ nghttp2FlagEndStream then (⟨data.take length, true, true⟩, 0)
  else (⟨data.take length, true, false⟩, flag)

/-- The frames that nghttp2 makes of a packet: it calls for data, with buffers of these
lengths, until it is told the end. -/
def provide (streamId : Int) (data : List UInt8) : List Nat → Int → List DataFrame × Int
  | [], flag => ([], flag)
  | length :: lengths, flag =>
    let (read, flag) := dataReadCallback flag data length
    let frame := ⟨streamId, read.payload, read.eof && !read.noEndStream⟩
    if read.eof then ([frame], flag)
    else
      let (frames, flag) := provide streamId data lengths flag
      (frame :: frames, flag)

/-- How far a call of `iotx_http2_client_send` gets: it has no connection or no memory, the
submission fails, or what `nghttp2_session_send` returns after it. -/
inductive ClientSend where
  | unsubmitted
  | refused (err : {e : Int // e < 0})
  | submitted (rv : Int) (lengths : List Nat)

/-- `INT32_MAX`, the last stream id. -/
def int32Max : Nat := 2147483647

abbrev streamIdNotAvailable : Int := -509

namespace StreamHandle

/-- `iotx_http2_client_send` with headers: what it returns, and the stream id that it stores. A
refused submission keeps the next stream id, although `nghttp2` skips it where it takes the id and
cannot queue the frame: an id that is skipped is one more that is not in use. -/
def sendRequest (s : StreamHandle) (data : List UInt8) (send : ClientSend) :
    (Int × Int) × StreamHandle :=
  match send with
  | .unsubmitted => ((-1, 0), s)
  | .refused err => ((err, err), s)
  | .submitted rv lengths =>
    if int32Max < s.nextStreamId then ((streamIdNotAvailable, streamIdNotAvailable), s)
    else
      let id : Int := s.nextStreamId
      let (frames, flag) := if data = [] then ([], s.flag) else provide id data lengths s.flag
      ((rv, id),
        { s with
          flag := flag
          nextStreamId := s.nextStreamId + 2
          opened := s.opened ++ [.ofInt id]
          sent := s.sent ++ frames })

/-- `iotx_http2_client_send` of a packet on an open stream. -/
def sendData (s : StreamHandle) (streamId : Int) (data : List UInt8) (send : ClientSend) :
    Int × StreamHandle :=
  match send with
  | .unsubmitted => (-1, s)
  | .refused err => (err, s)
  | .submitted rv lengths =>
    let (frames, flag) := provide streamId data lengths s.flag
    (rv, { s with flag := flag, sent := s.sent ++ frames })

/-! ## The list of nodes -/

def nodeInsert (s : StreamHandle) (id : Int) (streamType : StreamType) (malloc semaphore : Bool) :
    Bool × StreamHandle :=
  if UInt32.ofInt id = 0 then (false, s)
  else if malloc = false then (false, s)
  else if semaphore = false then (false, s)
  else
    (true, { s with
      streamList := { Http2StreamNode.fresh (.ofInt id) with streamType } :: s.streamList })

def nodeRemove (s : StreamHandle) (id : UInt32) : StreamHandle :=
  { s with streamList := s.streamList.eraseP fun node => node.streamId = id }

def nodeSearch (s : StreamHandle) (id : UInt32) : Option Http2StreamNode :=
  s.streamList.find? fun node => node.streamId = id

def changeFirst (id : UInt32) (f : Http2StreamNode → Http2StreamNode) :
    List Http2StreamNode → List Http2StreamNode
  | [] => []
  | node :: nodes =>
    if node.streamId = id then f node :: nodes else node :: changeFirst id f nodes

def deliver (s : StreamHandle) (headers : List (Int × HeaderCallback)) : StreamHandle :=
  headers.foldl (fun s h =>
    { s with streamList := changeFirst (.ofInt h.1) (·.onStreamHeader h.2) s.streamList }) s

/-! ## The calls -/

/-- A wait for a semaphore: the headers that come meanwhile, and what it returns. -/
structure WaitIo where
  headers : List (Int × HeaderCallback)
  result : Int

/-- What the calls inside a request give: the allocation of its headers, the send, the node
and its semaphore, the wait. -/
structure RequestIo where
  nva : Bool
  send : ClientSend
  malloc : Bool
  semaphore : Bool
  wait : WaitIo

/-- A request is sent and its node inserted: what the call returns when it ends here, or what
the send has returned and the stream id. -/
def submit (s : StreamHandle) (streamType : StreamType) (data : List UInt8) (io : RequestIo) :
    (Int ⊕ Int × Int) × StreamHandle :=
  let ((rv, id), s) := s.sendRequest data io.send
  let (inserted, s) := s.nodeInsert id streamType io.malloc io.semaphore
  if rv < 0 then (.inl rv, s)
  else if inserted = false then (.inl State.failReturn, s)
  else (.inr (rv, id), s)

/-- What `IOT_HTTP2_Stream_Open` returns, none where it reads a null channel id, and the
channel id that it stores. -/
def iotHttp2StreamOpen (s : StreamHandle) (io : RequestIo) (channelMalloc : Bool) :
    Option (Int × Option CStr) × StreamHandle :=
  if io.nva = false then (some (State.failReturn, none), s)
  else
    match s.submit .auxiliary [] io with
    | (.inl _, s) => (some (State.failReturn, none), s)
    | (.inr (_, id), s) =>
      let s := s.deliver io.wait.headers
      match s.nodeSearch (.ofInt id) with
      | none => (none, s)
      | some node =>
        match node.openAnswer io.wait.result channelMalloc with
        | none => (none, s)
        | some (rv, channelId) =>
          (some (rv, channelId), if rv < 0 then s.nodeRemove node.streamId else s)

def iotHttp2StreamQuery (s : StreamHandle) (io : RequestIo) : Int × StreamHandle :=
  if io.nva = false then (State.failReturn, s)
  else
    match s.submit .download [] io with
    | (.inl rv, s) => (rv, s)
    | (.inr (_, id), s) =>
      let s := s.deliver io.wait.headers
      match s.nodeSearch (.ofInt id) with
      | none => (State.failReturn, s)
      | some node =>
        if io.wait.result < 0 ∨ isOk node.statusCode = false then
          (State.failReturn, s.nodeRemove node.streamId)
        else (io.wait.result, s)

structure StreamDataInfo where
  stream : List UInt8
  streamLen : UInt32
  sendLen : UInt32
  packetLen : UInt32
  h2StreamId : Int
  channelId : CStr

def StreamDataInfo.packet (info : StreamDataInfo) : List UInt8 :=
  info.stream.take info.packetLen.toNat

/-- `packet_len + send_len == stream_len` -/
def StreamDataInfo.isLast (info : StreamDataInfo) : Bool :=
  info.packetLen + info.sendLen = info.streamLen

def windowTries : Nat := 51

/-- The window that lets a packet pass, if one does in time. -/
def waitWindow (packetLen : UInt32) (windows : Nat → Int) : Option Int :=
  ((List.range windowTries).find? fun n => ¬ UInt32.ofInt (windows n) < packetLen).map windows

/-- The wait of `IOT_HTTP2_Stream_Send` for the answer to the last packet. -/
def awaitAnswer (s : StreamHandle) (id : Int) (wait : WaitIo) : Int × StreamHandle :=
  match s.nodeSearch (.ofInt id) with
  | none => (State.failReturn, s)
  | some _ =>
    let s := s.deliver wait.headers
    match s.nodeSearch (.ofInt id) with
    | none => (State.failReturn, s)
    | some node =>
      if wait.result < 0 ∨ isOk node.statusCode = false then
        (State.failReturn, s.nodeRemove node.streamId)
      else (wait.result, s)

def iotHttp2StreamSend (s : StreamHandle) (info : StreamDataInfo) (windows : Nat → Int)
    (io : RequestIo) : Int × StreamDataInfo × StreamHandle :=
  if info.streamLen = 0 ∨ info.packetLen = 0 then (State.failReturn, info, s)
  else if waitWindow info.packetLen windows = none then (State.failReturn, info, s)
  else if info.sendLen = 0 then
    if io.nva = false then (State.failReturn, info, s)
    else
      match s.submit .upload info.packet io with
      | (.inl _, s) => (State.failReturn, info, s)
      | (.inr (rv, id), s) =>
        let next := { info with h2StreamId := id, sendLen := info.sendLen + info.packetLen }
        if info.isLast then
          let (rv, s) := s.awaitAnswer id io.wait
          (rv, next, s)
        else (rv, next, s)
  else
    let (rv, s) := s.sendData info.h2StreamId info.packet io.send
    if rv < 0 then (State.failReturn, info, s)
    else
      let next := { info with sendLen := info.sendLen + info.packetLen }
      if info.isLast then
        let (rv, s) := s.awaitAnswer info.h2StreamId io.wait
        (rv, next, s)
      else (rv, next, s)

/-- The loop of `IOT_HTTP2_Stream_Close` over the nodes. -/
def closeNodes (id : UInt32) (channelId : CStr) : List Http2StreamNode → List Http2StreamNode
  | [] => []
  | node :: nodes =>
    if id = node.streamId then closeNodes id channelId nodes
    else if node.channelId = some channelId then closeNodes id channelId nodes
    else node :: closeNodes id channelId nodes

def iotHttp2StreamClose (s : StreamHandle) (info : StreamDataInfo) (send : ClientSend) :
    Int × StreamHandle :=
  let ((rv, _), s) := s.sendRequest [] send
  (rv, { s with
    streamList := closeNodes (.ofInt info.h2StreamId) info.channelId s.streamList })

end StreamHandle

end AliyunIot.Http2
