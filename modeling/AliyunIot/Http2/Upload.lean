import Mathlib.Logic.Function.Basic
import AliyunIot.Infra.State

/-!
# The queue of file uploads

`http2_upload_api.c`: any number of threads that request and stop uploads, the threads that
`http_upload_file_func` runs in, and the end of the connection. A step is one section under the
mutex of the list, or what a thread does between two of them; `HAL_ThreadCreate` starts the thread
before it stores its handle. An access to a node, a handle or a list that is gone is a fault.
-/

namespace AliyunIot.Http2.Upload

open State

/-! ## Requests -/

abbrev nullValueError : Int := -2
abbrev uploadStopByIoctl : Int := -14
abbrev uploadLenIsZero : Int := -12
abbrev uploadFilePathIsNull : Int := -11
abbrev uploadIdIsNull : Int := -10
abbrev uploadFileNotExist : Int := -9
abbrev uploadFileReadFailed : Int := -8
abbrev uploadStreamOpenFailed : Int := -7
abbrev uploadStreamSendFailed : Int := -6
abbrev uploadMallocFailed : Int := -5
abbrev uploadErrorCommon : Int := -1
abbrev uploadSuccess : Int := 0

abbrev uploadFileOptBitResume : UInt32 := 0x00000002
abbrev uploadFileOptBitSpecificLen : UInt32 := 0x00000004

/-- `http2_upload_params_t` and the callback; a `Bool` says that a pointer is not `NULL`. -/
structure UploadParams where
  /-- the handle, the parameters and the callbacks themselves -/
  given : Bool
  filePath : Bool
  partLen : UInt32
  uploadId : Bool
  uploadLen : UInt32
  optBitMap : UInt32
  uploadCompletedCb : Bool

/-- The checks of `IOT_HTTP2_UploadFile_Request`. -/
def UploadParams.check (p : UploadParams) : Int :=
  if p.given = false then nullValueError
  else if p.filePath = false then uploadFilePathIsNull
  else if p.optBitMap &&& uploadFileOptBitResume ≠ 0 ∧ p.uploadId = false then uploadIdIsNull
  else if p.optBitMap &&& uploadFileOptBitSpecificLen ≠ 0 ∧ p.uploadLen = 0 then uploadLenIsZero
  else success

/-- `http2_file_stream_t`, with the number of its allocation. -/
structure FileStream where
  id : Nat
  idx : Int
  specLen : UInt32
  partLen : UInt32
  endCb : Bool
  ifStop : Bool

def UploadParams.node (p : UploadParams) (id : Nat) (idx : Int) : FileStream where
  id := id
  idx := idx
  specLen := if p.optBitMap &&& uploadFileOptBitSpecificLen ≠ 0 then p.uploadLen else 0
  partLen := p.partLen
  endCb := p.uploadCompletedCb
  ifStop := false

/-! ## A transfer -/

abbrev fsUploadPacketLen : UInt32 := 10240

abbrev fsUploadPartLen : UInt32 := 1024 * 1024 * 4

/-- Where a transfer stands: `file_offset` in the file, `send_len` in the part. -/
structure Transfer where
  uploadLen : UInt32
  partLen : UInt32
  fileOffset : UInt32
  streamLen : UInt32
  sendLen : UInt32
  deriving DecidableEq

def Transfer.part (uploadLen partLen fileOffset : UInt32) : Transfer where
  uploadLen := uploadLen
  partLen := partLen
  fileOffset := fileOffset
  streamLen := if uploadLen - fileOffset < partLen then uploadLen - fileOffset else partLen
  sendLen := 0

/-- What `_http2_fs_node_handle` sets up once the channel is open. -/
def FileStream.transfer (node : FileStream) (filesize fsOffset : UInt32) : Transfer :=
  Transfer.part
    (if node.specLen ≠ 0 ∧ node.specLen + fsOffset < filesize then node.specLen + fsOffset
      else filesize)
    (if node.partLen < 1024 * 100 ∨ 1024 * 1024 * 100 < node.partLen then fsUploadPartLen
      else node.partLen)
    fsOffset

def Transfer.sent (x : Transfer) : Transfer :=
  { x with
    sendLen := x.sendLen +
      if x.streamLen - x.sendLen < fsUploadPacketLen then x.streamLen - x.sendLen
      else fsUploadPacketLen }

/-! ## Threads -/

abbrev http2IoctlStopUpload : Int := 0

/-- Where a thread of the application stands. -/
inductive Caller where
  | idle
  | inserting (node : FileStream)
  /-- the node is in the list: before `file_thread` is looked at -/
  | testing (id : Nat)
  | creating (id : Nat)
  /-- in `HAL_ThreadCreate`, the thread runs -/
  | storing (id : Nat)
  | searching (idx command : Int)
  | found (id : Nat) (command : Int)
  | stopping (id : Nat)

/-- Where a thread that runs `http_upload_file_func` stands. -/
inductive Worker where
  | none
  | top
  /-- `init_state` was set: before the list is looked at -/
  | locking
  | begun (id : Nat)
  | opening (id : Nat) (filesize : UInt32)
  | sending (id : Nat) (x : Transfer)
  | closing (id : Nat)
  /-- `_http2_fs_node_handle` has returned -/
  | finished (id : Nat)
  /-- the list was empty: before `file_thread` is cleared -/
  | leaving
  deriving DecidableEq

/-- How far `IOT_HTTP2_UploadFile_Disconnect` has come. -/
inductive Disconnecting where
  | no
  | waiting
  | released
  | dropped
  | closed
  deriving DecidableEq

/-- `g_http2_fs_ctx` and the threads. What follows `disconnecting` records what happened. -/
structure Uploads where
  /-- of the stream handle -/
  initState : Bool
  /-- the stream handle was freed -/
  handleFreed : Bool
  /-- not `NULL` -/
  http2Handle : Bool
  fileList : List FileStream
  /-- not `NULL` -/
  fileThread : Bool
  uploadIdx : Int
  callers : Nat → Caller
  workers : Nat → Worker
  disconnecting : Disconnecting
  nextId : Nat
  allocated : List Nat
  /-- the nodes that were put into the list -/
  inserted : List Nat
  /-- those with an `end_cb` -/
  asked : List Nat
  /-- the nodes that were taken out of it -/
  gone : List Nat
  /-- the nodes that were begun -/
  taken : List Nat
  callbacks : List (Nat × Int)
  /-- the requests that have returned `SUCCESS_RETURN`, and those that have returned an error -/
  accepted : List Nat
  refused : List Nat
  fault : Bool

/-- A step. The results of the calls that it makes are its input. -/
inductive Op where
  | request (t : Nat) (p : UploadParams) (malloc : Bool)
  | insert (t : Nat)
  | test (t : Nat)
  /-- `HAL_ThreadCreate` starts a thread with a number that is not in use, or fails -/
  | create (t w : Nat) (ok : Bool)
  | store (t : Nat)
  | ioctl (t : Nat) (idx command : Int)
  | search (t : Nat)
  | check (t : Nat)
  | stop (t : Nat)
  | top (w : Nat)
  | take (w : Nat)
  | handle (w : Nat) (filesize : Int32)
  /-- the offset of the response, if the channel was opened -/
  | open (w : Nat) (fsOffset : Option UInt32) (malloc : Bool)
  /-- one packet or the end of a part; `res` is what an empty part leaves uninitialised -/
  | send (w : Nat) (read : Bool) (sent res : Int)
  | close (w : Nat)
  | remove (w : Nat)
  | leave (w : Nat)
  | disconnect
  /-- `IOT_HTTP2_Disconnect`; a wait that fails does not free the handle -/
  | release (waited : Bool)
  | drop
  | destroy

namespace Uploads

def ids (nodes : List FileStream) : List Nat := nodes.map FileStream.id

def call (s : Uploads) (t : Nat) (c : Caller) : Uploads :=
  { s with callers := Function.update s.callers t c }

def work (s : Uploads) (w : Nat) (p : Worker) : Uploads :=
  { s with workers := Function.update s.workers w p }

def fail (s : Uploads) : Uploads := { s with fault := true }

def node? (s : Uploads) (id : Nat) : Option FileStream := s.fileList.find? fun node => node.id = id

/-- The callback, and `_http2_fs_node_handle` returns. -/
def complete (s : Uploads) (w id : Nat) (res : Int) : Uploads :=
  match s.node? id with
  | none => s.fail
  | some node =>
    { s.work w (.finished id) with
      callbacks := if node.endCb then s.callbacks ++ [(id, res)] else s.callbacks }

/-- The first part of `IOT_HTTP2_UploadFile_Request`. -/
def request (s : Uploads) (t : Nat) (p : UploadParams) (malloc : Bool) : Uploads :=
  if p.check ≠ success then s
  else if malloc = false then s
  else
    { s.call t (.inserting (p.node s.nextId s.uploadIdx)) with
      uploadIdx := s.uploadIdx + 1, nextId := s.nextId + 1
      allocated := s.allocated ++ [s.nextId] }

def insert (s : Uploads) (t : Nat) (node : FileStream) : Uploads :=
  if s.disconnecting = .closed then s.fail
  else
    { s.call t (.testing node.id) with
      fileList := s.fileList ++ [node], inserted := s.inserted ++ [node.id]
      asked := if node.endCb then s.asked ++ [node.id] else s.asked }

/-- `HAL_ThreadCreate` up to the start of the thread, or to its failure. -/
def create (s : Uploads) (t w id : Nat) (ok : Bool) : Uploads :=
  if ok = false then { s.call t .idle with refused := s.refused ++ [id] }
  else if s.workers w = .none then (s.call t (.storing id)).work w .top
  else s

/-- `_http2_fs_list_search_by_idx`. -/
def search (s : Uploads) (t : Nat) (idx command : Int) : Uploads :=
  if s.disconnecting = .closed then s.fail
  else
    match s.fileList.find? fun node => node.idx = idx with
    | none => s.call t .idle
    | some node => s.call t (.found node.id command)

/-- The `switch` of `IOT_HTTP2_Ioctl`. -/
def check (s : Uploads) (t id : Nat) (command : Int) : Uploads :=
  if command = http2IoctlStopUpload ∧ s.http2Handle then s.call t (.stopping id)
  else s.call t .idle

def stop (s : Uploads) (t id : Nat) : Uploads :=
  match s.node? id with
  | none => s.fail
  | some _ =>
    { s.call t .idle with
      fileList := s.fileList.map fun node =>
        if node.id = id then { node with ifStop := true } else node }

/-- The condition of the loop. -/
def top (s : Uploads) (w : Nat) : Uploads :=
  if s.http2Handle = false ∨ s.handleFreed then s.fail
  else if s.initState then s.work w .locking
  else s.work w .none

def take (s : Uploads) (w : Nat) : Uploads :=
  if s.disconnecting = .closed then s.fail
  else
    match s.fileList with
    | [] => s.work w .leaving
    | node :: _ => { s.work w (.begun node.id) with taken := s.taken ++ [node.id] }

/-- `_http2_fs_node_handle` up to the size of the file. -/
def handle (s : Uploads) (w id : Nat) (filesize : Int32) : Uploads :=
  if s.http2Handle = false then s.work w (.finished id)
  else
    match s.node? id with
    | none => s.fail
    | some _ =>
      if filesize ≤ 0 then s.complete w id uploadFileNotExist
      else s.work w (.opening id filesize.toUInt32)

/-- `_http2_fs_open_channel`, up to the first part. -/
def openChannel (s : Uploads) (w id : Nat) (filesize : UInt32) (fsOffset : Option UInt32)
    (malloc : Bool) : Uploads :=
  match s.node? id with
  | none => s.fail
  | some node =>
    if s.handleFreed then s.fail
    else
      match fsOffset with
      | none => s.complete w id uploadStreamOpenFailed
      | some offset =>
        if malloc = false then s.complete w id uploadMallocFailed
        else s.work w (.sending id (node.transfer filesize offset))

/-- One iteration of the loop of `_http2_fs_part_send_sync`. -/
def sendPacket (s : Uploads) (w id : Nat) (x : Transfer) (read : Bool) (sent : Int) : Uploads :=
  match s.node? id with
  | none => s.fail
  | some node =>
    if s.handleFreed then s.fail
    else if s.initState = false then s.complete w id uploadErrorCommon
    else if read = false then s.complete w id uploadFileReadFailed
    else if sent < 0 then s.complete w id uploadStreamSendFailed
    else if node.ifStop then s.complete w id uploadStopByIoctl
    else s.work w (.sending id x.sent)

def endPart (s : Uploads) (w id : Nat) (x : Transfer) (res : Int) : Uploads :=
  -- an empty part has not assigned `res`
  if x.streamLen = 0 ∧ res < success then s.complete w id res
  else if x.fileOffset + x.streamLen < x.uploadLen then
    s.work w (.sending id (Transfer.part x.uploadLen x.partLen (x.fileOffset + x.streamLen)))
  else s.work w (.closing id)

def close (s : Uploads) (w id : Nat) : Uploads :=
  if s.handleFreed then s.fail else s.complete w id uploadSuccess

/-- The node that has been handled is freed. -/
def remove (s : Uploads) (w id : Nat) : Uploads :=
  match s.node? id with
  | none => s.fail
  | some _ =>
    { s.work w .top with
      fileList := s.fileList.eraseP fun node => node.id = id
      gone := s.gone ++ [id], allocated := s.allocated.erase id }

/-- The section of `IOT_HTTP2_UploadFile_Disconnect`; its loop ends after the first node. -/
def drop (s : Uploads) : Uploads :=
  match s.fileList with
  | [] => { s with disconnecting := .dropped }
  | node :: rest =>
    { s with
      disconnecting := .dropped, fileList := rest
      gone := s.gone ++ [node.id], allocated := s.allocated.erase node.id }

def next (s : Uploads) : Op → Uploads
  | .request t p malloc =>
    match s.callers t with
    | .idle => s.request t p malloc
    | _ => s
  | .insert t =>
    match s.callers t with
    | .inserting node => s.insert t node
    | _ => s
  | .test t =>
    match s.callers t with
    | .testing id =>
      if s.fileThread then { s.call t .idle with accepted := s.accepted ++ [id] }
      else s.call t (.creating id)
    | _ => s
  | .create t w ok =>
    match s.callers t with
    | .creating id => s.create t w id ok
    | _ => s
  | .store t =>
    match s.callers t with
    | .storing id => { s.call t .idle with fileThread := true, accepted := s.accepted ++ [id] }
    | _ => s
  | .ioctl t idx command =>
    match s.callers t with
    | .idle => if s.http2Handle then s.call t (.searching idx command) else s
    | _ => s
  | .search t =>
    match s.callers t with
    | .searching idx command => s.search t idx command
    | _ => s
  | .check t =>
    match s.callers t with
    | .found id command => s.check t id command
    | _ => s
  | .stop t =>
    match s.callers t with
    | .stopping id => s.stop t id
    | _ => s
  | .top w =>
    match s.workers w with
    | .top => s.top w
    | _ => s
  | .take w =>
    match s.workers w with
    | .locking => s.take w
    | _ => s
  | .handle w filesize =>
    match s.workers w with
    | .begun id => s.handle w id filesize
    | _ => s
  | .open w fsOffset malloc =>
    match s.workers w with
    | .opening id filesize => s.openChannel w id filesize fsOffset malloc
    | _ => s
  | .send w read sent res =>
    match s.workers w with
    | .sending id x =>
      if x.sendLen < x.streamLen then s.sendPacket w id x read sent else s.endPart w id x res
    | _ => s
  | .close w =>
    match s.workers w with
    | .closing id => s.close w id
    | _ => s
  | .remove w =>
    match s.workers w with
    | .finished id => s.remove w id
    | _ => s
  | .leave w =>
    match s.workers w with
    | .leaving => { s.work w .none with fileThread := false }
    | _ => s
  | .disconnect =>
    match s.disconnecting with
    | .no => { s with disconnecting := .waiting, initState := false }
    | _ => s
  | .release waited =>
    match s.disconnecting with
    | .waiting => { s with disconnecting := .released, handleFreed := waited }
    | _ => s
  | .drop =>
    match s.disconnecting with
    | .released => s.drop
    | _ => s
  | .destroy =>
    match s.disconnecting with
    | .dropped =>
      { s with
        disconnecting := .closed, http2Handle := false, fileList := [], fileThread := false
        uploadIdx := 0 }
    | _ => s

/-- As `IOT_HTTP2_UploadFile_Connect` leaves it; `upload_idx` goes on. -/
def init (uploadIdx : Int) : Uploads where
  initState := true
  handleFreed := false
  http2Handle := true
  fileList := []
  fileThread := false
  uploadIdx := uploadIdx
  callers _ := .idle
  workers _ := .none
  disconnecting := .no
  nextId := 0
  allocated := []
  inserted := []
  asked := []
  gone := []
  taken := []
  callbacks := []
  accepted := []
  refused := []
  fault := false

end Uploads

end AliyunIot.Http2.Upload
