import AliyunIot.Lib.Run

/-!
# The keep-alive loop

`http2_io` with `reconnect`: one step is one iteration of the loop. The results of the calls it
makes and the timers that have expired are its input. The retry counter goes back to zero only
when a connection is taken up again, so failures count over any number of good iterations in
between; and a failed `reconnect` leaves no connection, on which a ping is sent when it is due.
-/

namespace AliyunIot.Http2.KeepAlive

open Lib

abbrev iotHttp2KeepAliveCnt : Nat := 2

/-- What `stream_handle_t` and `http2_io` keep from one iteration to the next. -/
structure Http2Io where
  /-- `http2_connect` is not `NULL` -/
  http2Connect : Bool
  connectState : Bool
  retryCnt : Nat
  rv : Int
  timerValid : Bool

/-- The results that the calls of an iteration have when they are made, on a connection, and
whether `timer` and `timer_rsp` have expired. -/
structure IoInput where
  execIo : Int
  timerExpired : Bool
  sendPing : Int
  timerRspExpired : Bool
  recvPing : Int
  /-- `iotx_http2_client_connect_with_cb` makes a connection -/
  connects : Bool

inductive IoEvent where
  /-- `iotx_http2_exec_io`, and whether there is a connection -/
  | execIo (connection : Bool)
  | sendPing (connection : Bool)
  | recvPing
  | reconnect
  | onReconnect
  | onDisconnect
  deriving DecidableEq

/-- The handle as `IOT_HTTP2_Connect` leaves it; `timer_valid` is static. -/
def start (timerValid : Bool) : Http2Io where
  http2Connect := true
  connectState := false
  retryCnt := 0
  rv := 0
  timerValid := timerValid

def ioExec (io : Http2Io) (i : IoInput) : Http2Io × List IoEvent :=
  if io.connectState then
    ({ io with rv := if io.http2Connect then i.execIo else -1 }, [.execIo io.http2Connect])
  else (io, [])

def ioPing (io : Http2Io) (i : IoInput) : Http2Io × List IoEvent :=
  if i.timerExpired then
    let rv := if io.http2Connect then i.sendPing else -1
    ({ io with rv := rv, timerValid := if rv ≥ 0 then true else io.timerValid },
      [.sendPing io.http2Connect])
  else (io, [])

def ioRsp (io : Http2Io) (i : IoInput) : Http2Io × List IoEvent :=
  if io.timerValid && i.timerRspExpired then
    ({ io with rv := i.recvPing, timerValid := false }, [.recvPing])
  else (io, [])

/-- `reconnect`: the connection is closed, then made anew. -/
def reconnect (io : Http2Io) (i : IoInput) : Http2Io :=
  { io with http2Connect := i.connects, rv := if i.connects then 0 else -1 }

/-- What follows the calls; both callbacks are set. -/
def ioVerdict (io : Http2Io) (i : IoInput) : Http2Io × List IoEvent :=
  if io.rv < 0 then
    if io.retryCnt = iotHttp2KeepAliveCnt - 1 then
      if io.connectState then
        (reconnect { io with connectState := false } i, [.onDisconnect, .reconnect])
      else (reconnect io i, [.reconnect])
    else ({ io with retryCnt := (io.retryCnt + 1) % 256 }, [])
  else if !io.connectState then
    ({ io with connectState := true, retryCnt := 0 }, [.onReconnect])
  else (io, [])

/-- One iteration of `http2_io`. -/
def http2Io (io : Http2Io) (i : IoInput) : Http2Io × List IoEvent :=
  let (io, exec) := ioExec io i
  let (io, ping) := ioPing io i
  let (io, rsp) := ioRsp io i
  let (io, verdict) := ioVerdict io i
  (io, exec ++ ping ++ rsp ++ verdict)

def next (io : Http2Io) (i : IoInput) : Http2Io := (http2Io io i).1

def trace : Http2Io → List IoInput → List IoEvent
  | _, [] => []
  | io, i :: is => (http2Io io i).2 ++ trace (next io i) is

/-! ## The contract -/

/-- `timer_valid` when the response is looked for. -/
def awaitsPing (io : Http2Io) (i : IoInput) : Bool :=
  io.timerValid || i.timerExpired && io.http2Connect && decide (0 ≤ i.sendPing)

/-- The result of the last call that the iteration makes on a connection that is up. -/
def lastResult (io : Http2Io) (i : IoInput) : Int :=
  if awaitsPing io i && i.timerRspExpired then i.recvPing
  else if i.timerExpired then i.sendPing
  else i.execIo

def fails (io : Http2Io) (i : IoInput) : Bool := io.connectState && decide (lastResult io i < 0)

/-- How many iterations in a row, up to the last one, fail while connected. -/
def streak : Http2Io → Nat → List IoInput → Nat
  | _, n, [] => n
  | io, n, i :: is => streak (next io i) (if fails io i then n + 1 else 0) is

/-- The callbacks alternate; `up` says that the next one is `on_reconnect_cb`. -/
def Alternates : Bool → List IoEvent → Prop
  | _, [] => True
  | up, .onReconnect :: events => up = true ∧ Alternates false events
  | up, .onDisconnect :: events => up = false ∧ Alternates true events
  | up, _ :: events => Alternates up events

structure KeepsAlive (io : Http2Io) (is : List IoInput) : Prop where
  alternate : Alternates true (trace io is)
  consecutive : ∀ pre i post, is = pre ++ i :: post →
    .onDisconnect ∈ (http2Io (run next io pre) i).2 →
      iotHttp2KeepAliveCnt ≤ streak io 0 (pre ++ [i])
  notNull : IoEvent.execIo false ∉ trace io is ∧ IoEvent.sendPing false ∉ trace io is

/-- An iteration that keeps clear of the two defects: after a failure that a good iteration
followed, none fails before a reconnect; and without a connection no ping is due and no late
response is taken for one. -/
def Steady (io : Http2Io) (i : IoInput) : Prop :=
  (io.connectState = true → io.retryCnt = iotHttp2KeepAliveCnt - 1 → 0 ≤ io.rv →
    fails io i = false) ∧
  (io.http2Connect = false → i.timerExpired = false ∧
    (io.timerValid = true → i.timerRspExpired = true → i.recvPing < 0))

instance (io : Http2Io) (i : IoInput) : Decidable (Steady io i) :=
  inferInstanceAs (Decidable (_ ∧ _))

/-! ## One iteration -/

section Iteration

variable {io : Http2Io} {i : IoInput} {n : Nat}

def called (io : Http2Io) (i : IoInput) : Http2Io :=
  (ioRsp (ioPing (ioExec io i).1 i).1 i).1

def callEvents (io : Http2Io) (i : IoInput) : List IoEvent :=
  (ioExec io i).2 ++ (ioPing (ioExec io i).1 i).2 ++ (ioRsp (ioPing (ioExec io i).1 i).1 i).2

theorem http2Io_eq (io : Http2Io) (i : IoInput) :
    http2Io io i =
      ((ioVerdict (called io i) i).1, callEvents io i ++ (ioVerdict (called io i) i).2) := rfl

theorem next_eq (io : Http2Io) (i : IoInput) : next io i = (ioVerdict (called io i) i).1 := rfl

@[simp] theorem ioExec_http2Connect : (ioExec io i).1.http2Connect = io.http2Connect := by
  unfold ioExec
  split <;> rfl

@[simp] theorem ioExec_connectState : (ioExec io i).1.connectState = io.connectState := by
  unfold ioExec
  split <;> rfl

@[simp] theorem ioExec_retryCnt : (ioExec io i).1.retryCnt = io.retryCnt := by
  unfold ioExec
  split <;> rfl

@[simp] theorem ioPing_http2Connect : (ioPing io i).1.http2Connect = io.http2Connect := by
  unfold ioPing
  split <;> rfl

@[simp] theorem ioPing_connectState : (ioPing io i).1.connectState = io.connectState := by
  unfold ioPing
  split <;> rfl

@[simp] theorem ioPing_retryCnt : (ioPing io i).1.retryCnt = io.retryCnt := by
  unfold ioPing
  split <;> rfl

@[simp] theorem ioRsp_http2Connect : (ioRsp io i).1.http2Connect = io.http2Connect := by
  unfold ioRsp
  split <;> rfl

@[simp] theorem ioRsp_connectState : (ioRsp io i).1.connectState = io.connectState := by
  unfold ioRsp
  split <;> rfl

@[simp] theorem ioRsp_retryCnt : (ioRsp io i).1.retryCnt = io.retryCnt := by
  unfold ioRsp
  split <;> rfl

theorem mem_ioExec {e : IoEvent} (h : e ∈ (ioExec io i).2) :
    io.connectState = true ∧ e = .execIo io.http2Connect := by
  unfold ioExec at h
  split at h
  · rename_i hup
    exact ⟨hup, by simpa using h⟩
  · simp at h

theorem mem_ioPing {e : IoEvent} (h : e ∈ (ioPing io i).2) :
    i.timerExpired = true ∧ e = .sendPing io.http2Connect := by
  unfold ioPing at h
  split at h
  · rename_i hexpired
    exact ⟨hexpired, by simpa using h⟩
  · simp at h

theorem mem_ioRsp {e : IoEvent} (h : e ∈ (ioRsp io i).2) : e = .recvPing := by
  unfold ioRsp at h
  split at h
  · simpa using h
  · simp at h

@[simp] theorem called_http2Connect : (called io i).http2Connect = io.http2Connect := by
  simp [called]

@[simp] theorem called_connectState : (called io i).connectState = io.connectState := by
  simp [called]

@[simp] theorem called_retryCnt : (called io i).retryCnt = io.retryCnt := by
  simp [called]

theorem called_rv (hup : io.connectState = true) (hconn : io.http2Connect = true) :
    (called io i).rv = lastResult io i := by
  simp only [called, ioExec, ioPing, ioRsp, hup, hconn, if_true, lastResult, awaitsPing]
  cases i.timerExpired <;> cases i.timerRspExpired <;> by_cases hping : 0 ≤ i.sendPing <;>
    cases io.timerValid <;> simp [hping]

theorem called_rv_down (hup : io.connectState = false) (hconn : io.http2Connect = false)
    (hsteady : Steady io i) (h : io.rv < 0) : (called io i).rv < 0 := by
  obtain ⟨hexpired, hrsp⟩ := hsteady.2 hconn
  simp only [called, ioExec, ioPing, ioRsp, hup, hexpired, Bool.false_eq_true, if_false]
  split
  · rename_i hwait
    rw [Bool.and_eq_true] at hwait
    exact hrsp hwait.1 hwait.2
  · exact h

theorem mem_callEvents {e : IoEvent} (h : e ∈ callEvents io i) :
    io.connectState = true ∧ e = .execIo io.http2Connect ∨
      i.timerExpired = true ∧ e = .sendPing io.http2Connect ∨ e = .recvPing := by
  rw [callEvents, List.mem_append, List.mem_append] at h
  obtain (hexec | hping) | hrsp := h
  · exact .inl (mem_ioExec hexec)
  · have := mem_ioPing hping
    rw [ioExec_http2Connect] at this
    exact .inr (.inl this)
  · exact .inr (.inr (mem_ioRsp hrsp))

theorem alternates_append {up : Bool} {calls events : List IoEvent}
    (h : ∀ e ∈ calls, e ≠ .onReconnect ∧ e ≠ .onDisconnect) :
    Alternates up (calls ++ events) ↔ Alternates up events := by
  induction calls with
  | nil => rfl
  | cons e calls ih =>
    have hrest := ih fun e he => h e (List.mem_cons_of_mem _ he)
    obtain ⟨hreconnect, hdisconnect⟩ := h e List.mem_cons_self
    cases e with
    | onReconnect => exact absurd rfl hreconnect
    | onDisconnect => exact absurd rfl hdisconnect
    | execIo _ => exact hrest
    | sendPing _ => exact hrest
    | recvPing => exact hrest
    | reconnect => exact hrest

theorem alternates_callEvents (up : Bool) (events : List IoEvent) :
    Alternates up (callEvents io i ++ events) ↔ Alternates up events := by
  apply alternates_append
  intro e he
  obtain ⟨-, rfl⟩ | ⟨-, rfl⟩ | rfl := mem_callEvents he <;> simp

theorem alternates_ioVerdict {events : List IoEvent}
    (h : Alternates (!(ioVerdict io i).1.connectState) events) :
    Alternates (!io.connectState) ((ioVerdict io i).2 ++ events) := by
  unfold ioVerdict at h ⊢
  cases hup : io.connectState with
  | true =>
    rw [hup] at h
    split
    · split <;> simp_all [Alternates, reconnect]
    · simp_all
  | false =>
    rw [hup] at h
    split
    · split <;> simp_all [Alternates, reconnect]
    · simp_all [Alternates]

theorem mem_ioVerdict_onDisconnect (h : IoEvent.onDisconnect ∈ (ioVerdict io i).2) :
    io.rv < 0 ∧ io.retryCnt = iotHttp2KeepAliveCnt - 1 ∧ io.connectState = true := by
  unfold ioVerdict at h
  split at h
  · rename_i hrv
    split at h
    · rename_i hcnt
      split at h
      · rename_i hup
        exact ⟨hrv, hcnt, hup⟩
      · simp at h
    · simp at h
  · split at h <;> simp at h

theorem mem_ioVerdict_call {connection : Bool} :
    IoEvent.execIo connection ∉ (ioVerdict io i).2 ∧
      IoEvent.sendPing connection ∉ (ioVerdict io i).2 := by
  unfold ioVerdict
  split
  · split
    · split <;> simp
    · simp
  · split <;> simp

/-! ## Runs -/

/-- Without a connection the loop counts as disconnected and has a failure to go on with, and a
failure on the connection is counted in the streak. -/
structure Inv (io : Http2Io) (n : Nat) : Prop where
  down : io.http2Connect = false → io.connectState = false ∧ io.rv < 0
  cnt : io.retryCnt ≤ iotHttp2KeepAliveCnt - 1
  failed : io.connectState = true → io.rv < 0 → 1 ≤ n

theorem Inv.connected (h : Inv io n) (hup : io.connectState = true) : io.http2Connect = true := by
  by_contra hdown
  have := (h.down (by simpa using hdown)).1
  rw [hup] at this
  cases this

theorem Inv.fails_iff (h : Inv io n) (hup : io.connectState = true) :
    fails io i = true ↔ (called io i).rv < 0 := by
  rw [called_rv hup (h.connected hup), fails, hup]
  simp

theorem inv_start (timerValid : Bool) : Inv (start timerValid) 0 where
  down := nofun
  cnt := by simp [start]
  failed := nofun

theorem Inv.step (h : Inv io n) (hsteady : Steady io i) :
    Inv (next io i) (if fails io i then n + 1 else 0) := by
  have hcnt := h.cnt
  rw [next_eq, ioVerdict]
  simp only [called_retryCnt, called_connectState]
  split
  case isTrue hrv =>
    split
    case isTrue hlast =>
      split
      case isTrue hup =>
        exact ⟨fun hdown => by simp_all [reconnect], by simpa [reconnect] using hcnt,
          by simp [reconnect]⟩
      case isFalse hup =>
        exact ⟨fun hdown => by simp_all [reconnect], by simpa [reconnect] using hcnt,
          by simp_all [reconnect]⟩
    case isFalse hfirst =>
      have hzero : io.retryCnt = 0 := by
        have hle : io.retryCnt ≤ 1 := hcnt
        have hne : io.retryCnt ≠ 1 := hfirst
        omega
      refine ⟨fun hdown => ⟨?_, hrv⟩, by simp [hzero], fun hup _ => ?_⟩
      · exact (h.down (by simpa using hdown)).1
      · rw [if_pos ((h.fails_iff (by simpa using hup)).mpr hrv)]
        omega
  case isFalse hrv =>
    have hconn : io.http2Connect = true := by
      by_contra hdown
      obtain ⟨hup, hneg⟩ := h.down (by simpa using hdown)
      exact hrv (called_rv_down hup (by simpa using hdown) hsteady hneg)
    split
    · exact ⟨fun hdown => by simp_all, by simp, fun _ hneg => absurd hneg hrv⟩
    · exact ⟨fun hdown => by simp_all, by simpa using hcnt, fun _ hneg => absurd hneg hrv⟩

end Iteration

section Run

variable {io : Http2Io} {i : IoInput} {n : Nat}

theorem streak_concat (io : Http2Io) (n : Nat) (is : List IoInput) (i : IoInput) :
    streak io n (is ++ [i]) =
      if fails (run next io is) i then streak io n is + 1 else 0 := by
  induction is generalizing io n with
  | nil => rfl
  | cons j is ih => exact ih (next io j) _

theorem Inv.steps {is : List IoInput} (h : Inv io n) (hm : Meets next Steady io is) :
    Inv (run next io is) (streak io n is) := by
  induction is generalizing io n with
  | nil => exact h
  | cons i is ih => exact ih (h.step hm.1) hm.2

theorem alternates_trace (io : Http2Io) (is : List IoInput) :
    Alternates (!io.connectState) (trace io is) := by
  induction is generalizing io with
  | nil => exact trivial
  | cons i is ih =>
    have hrest := ih (next io i)
    rw [trace, http2Io_eq]
    rw [List.append_assoc, alternates_callEvents, ← called_connectState (i := i)]
    exact alternates_ioVerdict hrest

theorem disconnects_after_streak (h : Inv io n) (hsteady : Steady io i)
    (hmem : .onDisconnect ∈ (http2Io io i).2) : fails io i = true ∧ 1 ≤ n := by
  rw [http2Io_eq, List.mem_append] at hmem
  obtain hcall | hverdict := hmem
  · obtain ⟨-, h⟩ | ⟨-, h⟩ | h := mem_callEvents hcall <;> cases h
  · obtain ⟨hrv, hcnt, hup⟩ := mem_ioVerdict_onDisconnect hverdict
    rw [called_retryCnt] at hcnt
    rw [called_connectState] at hup
    have hfails := (h.fails_iff hup).mpr hrv
    refine ⟨hfails, h.failed hup ?_⟩
    by_contra hgood
    have := hsteady.1 hup hcnt (by omega)
    rw [hfails] at this
    cases this

theorem notNull_http2Io (h : Inv io n) (hsteady : Steady io i) :
    IoEvent.execIo false ∉ (http2Io io i).2 ∧ IoEvent.sendPing false ∉ (http2Io io i).2 := by
  rw [http2Io_eq, List.mem_append, List.mem_append]
  constructor
  · rintro (hcall | hverdict)
    · obtain ⟨hup, heq⟩ | ⟨-, heq⟩ | heq := mem_callEvents hcall
      · rw [h.connected hup] at heq
        cases heq
      · cases heq
      · cases heq
    · exact mem_ioVerdict_call.1 hverdict
  · rintro (hcall | hverdict)
    · obtain ⟨-, heq⟩ | ⟨hexpired, heq⟩ | heq := mem_callEvents hcall
      · cases heq
      · cases hconn : io.http2Connect with
        | true => rw [hconn] at heq; cases heq
        | false =>
          rw [(hsteady.2 hconn).1] at hexpired
          cases hexpired
      · cases heq
    · exact mem_ioVerdict_call.2 hverdict

theorem notNull_trace {is : List IoInput} (h : Inv io n) (hm : Meets next Steady io is) :
    IoEvent.execIo false ∉ trace io is ∧ IoEvent.sendPing false ∉ trace io is := by
  induction is generalizing io n with
  | nil => simp [trace]
  | cons i is ih =>
    obtain ⟨hexec, hping⟩ := notNull_http2Io h hm.1
    obtain ⟨hexecs, hpings⟩ := ih (h.step hm.1) hm.2
    rw [trace, List.mem_append, List.mem_append]
    exact ⟨not_or.mpr ⟨hexec, hexecs⟩, not_or.mpr ⟨hping, hpings⟩⟩

end Run

/-- In a run whose iterations are steady the loop keeps its contract. -/
theorem keepsAlive_of_steady (timerValid : Bool) (is : List IoInput)
    (h : Meets next Steady (start timerValid) is) : KeepsAlive (start timerValid) is where
  alternate := alternates_trace (start timerValid) is
  consecutive := by
    rintro pre i post rfl hmem
    obtain ⟨hpre, hi, -⟩ := meets_append.mp h
    obtain ⟨hfails, hone⟩ := disconnects_after_streak ((inv_start timerValid).steps hpre) hi hmem
    rw [streak_concat, if_pos hfails]
    show 2 ≤ _
    omega
  notNull := notNull_trace (inv_start timerValid) h

/-- No timer is due, and `iotx_http2_exec_io` gives `rv`. -/
def execResult (rv : Int) : IoInput where
  execIo := rv
  timerExpired := false
  sendPing := 0
  timerRspExpired := false
  recvPing := 0
  connects := true

theorem keepsAlive_two_failures :
    KeepsAlive (start false) [execResult 0, execResult (-1), execResult (-1), execResult 0] ∧
      IoEvent.onDisconnect ∈
        trace (start false) [execResult 0, execResult (-1), execResult (-1), execResult 0] :=
  ⟨keepsAlive_of_steady false _ (by decide), by decide⟩

/-- Two failures with a good iteration between them disconnect; and a reconnect that fails leaves
no connection, on which the ping that is due is sent. -/
theorem keepsAlive_fails :
    ¬ KeepsAlive (start false) [execResult 0, execResult (-1), execResult 0, execResult (-1)] ∧
      ¬ KeepsAlive (start false)
        [{ execResult 0 with timerExpired := true, sendPing := -1 },
         { execResult 0 with connects := false },
         { execResult 0 with timerExpired := true }] := by
  constructor
  · intro h
    have := h.consecutive [execResult 0, execResult (-1), execResult 0] (execResult (-1)) [] rfl
      (by decide)
    exact absurd this (by decide)
  · intro h
    exact h.notNull.2 (by decide)

end AliyunIot.Http2.KeepAlive
