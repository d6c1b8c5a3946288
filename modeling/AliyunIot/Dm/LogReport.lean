import Mathlib.Algebra.Ring.Int.Defs
import AliyunIot.Infra.Cjson
import AliyunIot.Infra.CStr
import AliyunIot.Infra.Format
import AliyunIot.Lib.Run

/-!
# The log report

`dm_log_report.c` and `dm_mgr_upstream_thing_log_post` (LOG_REPORT_TO_CLOUD build). A step is
none where it writes outside the log buffer or `msg_array`, uses the log buffer while it is
NULL, divides by a sample interval of zero, or copies an id that was never set. `trace` is what
the statements are about: what is pushed, how full the buffer is at each capacity test, and
the texts that are handed over for upload.
-/

namespace AliyunIot.Dm

open Lib Cjson Format

/-- `CONFIG_MQTT_TX_MAXLEN - 174`. -/
def logPollSize : Nat := 2048 - 174

def reportLen : Nat := logPollSize - 110

def overflowLen : Nat := logPollSize - 10

abbrev msgIdLen : Nat := 64

abbrev localPostLen : Nat := 150

inductive ReportState where
  | ready
  | running
  | done
  deriving DecidableEq

inductive LogEvent where
  /-- The buffer holds the header only. -/
  | started
  | pushed (data : List UInt8)
  /-- `log_size` in a test for room, and the number of bytes in the buffer. -/
  | tested (logSize filled : Nat)
  /-- The text that is handed to `dm_msg_request`. -/
  | uploaded (text : List UInt8)
  deriving DecidableEq

/-- The static variables; a pointer is none when it is NULL, and `current_log_pos` is an
offset into the buffer. -/
structure LogReport where
  gLogPoll : Option (List UInt8)
  currentLogPos : Option Nat
  switchStatus : Bool
  sampleInterval : Nat
  sampleCount : Nat
  msgArray : List UInt8
  msgNum : Nat
  gReportStatus : ReportState
  logSize : Nat
  trace : List LogEvent

/-- The conversion to `unsigned int`. -/
def toUnsigned (i : Int) : Nat := (i % 2 ^ 32).toNat

namespace LogReport

def init : LogReport where
  gLogPoll := none
  currentLogPos := none
  switchStatus := false
  sampleInterval := 5
  sampleCount := 1000
  msgArray := List.replicate msgIdLen 0
  msgNum := 0
  gReportStatus := .ready
  logSize := 0
  trace := []

def record (s : LogReport) (e : LogEvent) : LogReport := { s with trace := s.trace ++ [e] }

def removeLogPoll (s : LogReport) : LogReport :=
  match s.gLogPoll with
  | none => s
  | some _ => { s with gLogPoll := none, currentLogPos := none }

/-- The buffer after the bytes are copied to `pos`. -/
def overwrite (buf : List UInt8) (pos : Nat) (data : List UInt8) : List UInt8 :=
  buf.take pos ++ (data ++ buf.drop (pos + data.length))

/-- `push_log`: the size of the log, and the state. -/
def pushLog (s : LogReport) (input : List UInt8) : Option (Nat × LogReport) :=
  match s.currentLogPos with
  | none => some (toUnsigned (-1), s)
  | some pos =>
    if input = [] then some (toUnsigned (-1), s)
    else
      match s.gLogPoll with
      | none => none
      | some buf =>
        if pos + input.length ≤ buf.length then
          some (pos + input.length, { s with
            gLogPoll := some (overwrite buf pos input)
            currentLogPos := some (pos + input.length) })
        else none

def addTail (s : LogReport) : Option (Nat × LogReport) :=
  match s.currentLogPos with
  | none | some 0 => none
  | some (pos + 1) => { s with currentLogPos := some pos }.pushLog (text "]\x7d")

def subprefixText : List UInt8 :=
  text "\x7b\"template\": \"traceContext logContent\",\"contents\":["

def addLogHeader (s : LogReport) : Option LogReport := (s.pushLog subprefixText).map Prod.snd

def resetLogPoll (s : LogReport) : Option LogReport :=
  match s.gLogPoll with
  | none => some s
  | some _ =>
    ({ s with
        gLogPoll := some (List.replicate logPollSize 0)
        currentLogPos := some 0 }.addLogHeader).map fun (s : LogReport) => s.record .started

/-- `malloc` is the outcome of the allocation. -/
def createLogPoll (s : LogReport) (malloc : Bool) : Option LogReport :=
  let s := s.removeLogPoll
  { s with gLogPoll := if malloc then some (List.replicate logPollSize 0) else none }.resetLogPoll

/-- `%.*s` of the buffer: `log_size + 1` bytes, or up to a zero. -/
def params (s : LogReport) : List UInt8 :=
  match s.gLogPoll with
  | none => []
  | some buf => precision (buf.take (s.logSize + 1))

/-- The part of `dm_mgr_upstream_thing_log_post` from the tail on; `assembled` is whether
`_dm_mgr_upstream_request_assemble` finds device 0. -/
def upload (s : LogReport) (assembled : Bool) : Option LogReport :=
  s.addTail.bind fun (size, s) =>
    let s := { s with logSize := size }
    if assembled then (s.record (.uploaded s.params)).resetLogPoll else s.resetLogPoll

/-- `dm_mgr_upstream_thing_log_post` without `force_upload`. -/
def logPost (s : LogReport) (payload : List UInt8) (assembled : Bool) : Option LogReport :=
  if payload = [] then some s
  else
    let s := s.record (.tested s.logSize (s.currentLogPos.getD 0))
    if toUnsigned (s.logSize + payload.length) < overflowLen then
      (s.pushLog payload).bind fun (size, s) =>
        let s := { s with logSize := size }.record (.pushed payload)
        if s.logSize > reportLen ∧ s.gReportStatus = .done then s.upload assembled else some s
    else s.resetLogPoll

def dmMgrUpstreamThingLogPost (s : LogReport) (payload : List UInt8) (forceUpload : Bool)
    (assembled : Bool) : Option LogReport :=
  if forceUpload then s.upload assembled else s.logPost payload assembled

/-- `stop_sample`; what is compared first is `current_log_pos > g_log_poll`. -/
def stopSample (s : LogReport) (assembled : Bool) : Option LogReport :=
  (if s.currentLogPos.getD 0 > 0 then s.dmMgrUpstreamThingLogPost [] true assembled
    else some s).map fun s =>
    { s with switchStatus := false }.removeLogPoll

/-- `set_target_msg`: whether it succeeds; an id is none when it was never set. -/
def setTargetMsg (s : LogReport) (input : Option (List UInt8)) : Option (Bool × LogReport) :=
  if s.switchStatus = false then some (false, s)
  else if s.sampleInterval = 0 then none
  else if s.msgNum % s.sampleInterval = 0 ∧ s.msgNum < s.sampleCount then
    match input with
    | none => none
    | some input =>
      if input = [] then some (false, s)
      else if input.length ≤ msgIdLen then
        some (true, { s with msgArray := strncpy input ++ s.msgArray.drop input.length })
      else none
  else some (false, s)

/-- `parse_msg_id`: the id is not set when the payload is no object. -/
def parseMsgId (strtod : Strtod) (payload : List UInt8) : Option (List UInt8) :=
  match dmUtilsJsonParse strtod payload .object with
  | none => none
  | some lite =>
    some ((dmUtilsJsonObjectItem strtod lite (text "id") .string).getD .zero).value

/-- The members of a profiler switch message: `Count`, `Interval`, `ProfileTarget`. -/
def switchMembers (strtod : Strtod) (payload : List UInt8) : Option (Int × Int × List UInt8) := do
  let lite ← dmUtilsJsonParse strtod payload .object
  let count ← liteCjsonObjectItem strtod lite (text "Count")
  let interval ← liteCjsonObjectItem strtod lite (text "Interval")
  let target ← liteCjsonObjectItem strtod lite (text "ProfileTarget")
  some (count.valueInt, interval.valueInt, target.value)

def parseSwitchInfo (strtod : Strtod) (s : LogReport) (payload : List UInt8)
    (malloc assembled : Bool) : Option LogReport :=
  match switchMembers strtod payload with
  | none => some s
  | some (count, interval, target) =>
    let s := { s with sampleCount := toUnsigned count, sampleInterval := toUnsigned interval }
    if strncmpEq target (text "propSet") = false then some s
    else if s.sampleInterval = 0 then some s
    else
      let s := { s with msgNum := 0 }
      if s.sampleCount = 0 then s.stopSample assembled
      else { s with switchStatus := true }.createLogPoll malloc

/-- The text that `send_permance_info` formats; an input that is none or empty is refused. -/
def performanceText (input comments : List UInt8) (reportFormat : Int) (uptime : Int) :
    Option (List UInt8) :=
  match reportFormat with
  | 0 =>
    if input = [] then none
    else some (text "\"" ++ (precision input ++ (text " " ++ (comments ++ (text " " ++
      (decimal uptime ++ text " "))))))
  | 1 => some (comments ++ (text " " ++ (decimal uptime ++ text " ")))
  | 2 => some (comments ++ (text " " ++ (decimal uptime ++ text "\",")))
  | _ => none

def sendPermanceInfo (s : LogReport) (input comments : List UInt8) (reportFormat : Int)
    (uptime : Int) (assembled : Bool) : Option LogReport :=
  if s.switchStatus = false then some s
  else
    match performanceText input comments reportFormat uptime with
    | none => some s
    | some line =>
      let s := if reportFormat = 2 then { s with gReportStatus := .done } else s
      (s.dmMgrUpstreamThingLogPost (snprintf localPostLen line) false assembled).map fun s =>
        if reportFormat = 2 then { s with gReportStatus := .ready } else s

/-- `strstr(payload, interest) != NULL`. -/
def interesting (payload : CStr) : Bool :=
  payload.val.tails.any fun t => (text "\"method\":\"thing.service.property.set").isPrefixOf t

def getMsgid (strtod : Strtod) (s : LogReport) (payload : CStr) (isCloud : Int) (uptime : Int)
    (assembled : Bool) : Option LogReport :=
  if s.switchStatus = false then some s
  else if interesting payload = false then some s
  else
    let found := payload.val.dropWhile (· ≠ 123)
    if found = [] then some s
    else
      let s := { s with msgNum := (s.msgNum + 1) % 2 ^ 32 }
      let id := parseMsgId strtod found
      if s.gReportStatus = .running then some s
      else if s.sampleCount ≤ s.msgNum then s.stopSample assembled
      else
        (s.setTargetMsg id).bind fun (taken, s) =>
          if taken = false then some s
          else
            let s := { s with gReportStatus := .running }
            if isCloud = 1 then
              s.sendPermanceInfo (id.getD []) (text "1_cloud") 0 uptime assembled
            else if isCloud = 0 then
              s.sendPermanceInfo (id.getD []) (text "1_alcs") 0 uptime assembled
            else some s

/-! ## Runs -/

/-- A switch message, a property-set message, a push of `send_permance_info`, and a forced
upload, with the time in milliseconds and the outcomes of what they call. -/
inductive LogStep where
  | switchMessage (payload : List UInt8) (malloc assembled : Bool)
  | propertySet (payload : CStr) (isCloud : Int) (uptime : Int64) (assembled : Bool)
  | push (input comments : List UInt8) (reportFormat : Int) (uptime : Int64) (assembled : Bool)
  | forceUpload (assembled : Bool)

def next (strtod : Strtod) (s : LogReport) : LogStep → Option LogReport
  | .switchMessage payload malloc assembled => parseSwitchInfo strtod s payload malloc assembled
  | .propertySet payload isCloud uptime assembled =>
    getMsgid strtod s payload isCloud uptime.toInt assembled
  | .push input comments reportFormat uptime assembled =>
    s.sendPermanceInfo input comments reportFormat uptime.toInt assembled
  | .forceUpload assembled => s.dmMgrUpstreamThingLogPost [] true assembled

/-- A run ends where a step is none. -/
def step (strtod : Strtod) (s : Option LogReport) (op : LogStep) : Option LogReport :=
  s.bind fun s => s.next strtod op

end LogReport

end AliyunIot.Dm
