import Mathlib.Algebra.Order.BigOperators.Group.List
import Mathlib.Algebra.Order.Ring.Nat
import AliyunIot.Http2.StreamTable

/-!
# The data of a stream

`delivered_never`: no stream that is sent to its end has the end of it marked, since nothing
sets the flag of the connection that the read callback asks for.
-/

namespace AliyunIot.Http2.StreamHandle

open Lib

/-- A packet that the caller puts into the stream data and sends, after other calls on the
connection. -/
structure SendCall where
  between : List StreamOp
  packet : List UInt8
  windows : Nat → Int
  io : RequestIo

def SendCall.put (c : SendCall) (info : StreamDataInfo) : StreamDataInfo :=
  { info with stream := c.packet, packetLen := .ofNat c.packet.length }

def sendAll : StreamHandle → StreamDataInfo → List SendCall →
    Option (StreamDataInfo × StreamHandle)
  | s, info, [] => some (info, s)
  | s, info, c :: calls =>
    let (rv, info, s) := (run next s c.between).iotHttp2StreamSend (c.put info) c.windows c.io
    if rv < 0 then none else s.sendAll info calls

/-- nghttp2 calls for the data of each packet, with room for a byte or more. -/
def SendCall.Called (c : SendCall) : Prop :=
  ∃ rv length lengths, c.io.send = .submitted rv (length :: lengths) ∧ 0 < length

structure Complete (info : StreamDataInfo) (calls : List SendCall) : Prop where
  start : info.sendLen = 0
  some : info.streamLen ≠ 0
  sum : (calls.map (·.packet.length)).sum = info.streamLen.toNat
  called : ∀ c ∈ calls, c.Called

def framesOn (s : StreamHandle) (id : Int) : List DataFrame :=
  s.sent.filter fun frame => frame.streamId = id

/-- What the frames of a stream have to be after its packets are sent. -/
structure Delivered (s : StreamHandle) (id : Int) (calls : List SendCall) : Prop where
  payload : (s.framesOn id).flatMap (·.payload) = calls.flatMap (·.packet)
  ended : ∀ init last, s.framesOn id = init ++ [last] →
    last.endStream = true ∧ ∀ frame ∈ init, frame.endStream = false
  window : ∀ c ∈ calls, ∃ window, waitWindow (.ofNat c.packet.length) c.windows = some window ∧
    (c.packet.length : Int) ≤ window

/-! ## Frames -/

variable {s : StreamHandle}

/-- No end of a stream is asked for, and none was sent. -/
structure NoEnd (s : StreamHandle) : Prop where
  flag : s.flag = 0
  sent : ∀ frame ∈ s.sent, frame.endStream = false

theorem connected_noEnd : NoEnd connected := ⟨rfl, nofun⟩

/-- The frames of a packet when the flag is not set: the first read ends it. -/
def cut (id : Int) (data : List UInt8) : List Nat → List DataFrame
  | [] => []
  | length :: _ => [⟨id, data.take length, false⟩]

theorem provide_eq (id : Int) (data : List UInt8) (lengths : List Nat) :
    provide id data lengths 0 = (cut id data lengths, 0) := by
  cases lengths <;> rfl

theorem endStream_of_mem_cut {id : Int} {data : List UInt8} {lengths : List Nat}
    {frame : DataFrame} (h : frame ∈ cut id data lengths) : frame.endStream = false := by
  cases lengths with
  | nil => exact absurd h List.not_mem_nil
  | cons length lengths => rw [List.mem_singleton.mp h]

theorem NoEnd.append (h : NoEnd s) {s' : StreamHandle} {id : Int} {data : List UInt8}
    {lengths : List Nat} (hflag : s'.flag = 0) (hsent : s'.sent = s.sent ++ cut id data lengths) :
    NoEnd s' := by
  refine ⟨hflag, fun frame hframe => ?_⟩
  rw [hsent] at hframe
  rcases List.mem_append.mp hframe with hframe | hframe
  · exact h.sent frame hframe
  · exact endStream_of_mem_cut hframe

theorem NoEnd.same (h : NoEnd s) {s' : StreamHandle} (hflag : s'.flag = s.flag)
    (hsent : s'.sent = s.sent) : NoEnd s' :=
  ⟨hflag.trans h.flag, fun frame hframe => h.sent frame (hsent ▸ hframe)⟩

theorem NoEnd.sendRequest (h : NoEnd s) (data : List UInt8) (send : ClientSend) :
    NoEnd (s.sendRequest data send).2 := by
  unfold StreamHandle.sendRequest
  cases send with
  | unsubmitted => exact h
  | refused err => exact h
  | submitted rv lengths =>
    dsimp only
    split
    · exact h
    split
    · exact h.same rfl (List.append_nil _)
    · rw [h.flag, provide_eq]
      exact h.append rfl rfl

theorem NoEnd.sendData (h : NoEnd s) (id : Int) (data : List UInt8) (send : ClientSend) :
    NoEnd (s.sendData id data send).2 := by
  unfold StreamHandle.sendData
  cases send with
  | unsubmitted => exact h
  | refused err => exact h
  | submitted rv lengths =>
    dsimp only
    rw [h.flag, provide_eq]
    exact h.append rfl rfl

theorem deliver_wire (s : StreamHandle) (headers : List (Int × HeaderCallback)) :
    (s.deliver headers).flag = s.flag ∧ (s.deliver headers).sent = s.sent := by
  induction headers generalizing s with
  | nil => exact ⟨rfl, rfl⟩
  | cons h headers ih => exact ih _

theorem NoEnd.deliver (h : NoEnd s) (headers : List (Int × HeaderCallback)) :
    NoEnd (s.deliver headers) :=
  h.same (deliver_wire s headers).1 (deliver_wire s headers).2

theorem submit_wire (s : StreamHandle) (streamType : StreamType) (data : List UInt8)
    (io : RequestIo) :
    (s.submit streamType data io).2.flag = (s.sendRequest data io.send).2.flag ∧
      (s.submit streamType data io).2.sent = (s.sendRequest data io.send).2.sent := by
  unfold submit
  generalize s.sendRequest data io.send = sent
  obtain ⟨⟨rv, id⟩, s'⟩ := sent
  rcases nodeInsert_cases s' id streamType io.malloc io.semaphore with ⟨heq, -⟩ | ⟨heq, -⟩
  all_goals
    dsimp only
    rw [heq]
    repeat' split
    all_goals exact ⟨rfl, rfl⟩

theorem NoEnd.submit (h : NoEnd s) (streamType : StreamType) (data : List UInt8)
    (io : RequestIo) : NoEnd (s.submit streamType data io).2 :=
  (h.sendRequest data io.send).same (submit_wire s streamType data io).1
    (submit_wire s streamType data io).2

theorem awaitAnswer_wire (s : StreamHandle) (id : Int) (wait : WaitIo) :
    (s.awaitAnswer id wait).2.flag = s.flag ∧ (s.awaitAnswer id wait).2.sent = s.sent := by
  have hwire := deliver_wire s wait.headers
  unfold awaitAnswer
  split
  · exact ⟨rfl, rfl⟩
  dsimp only
  split
  · exact hwire
  split
  · exact hwire
  · exact hwire

theorem NoEnd.awaitAnswer (h : NoEnd s) (id : Int) (wait : WaitIo) :
    NoEnd (s.awaitAnswer id wait).2 :=
  h.same (awaitAnswer_wire s id wait).1 (awaitAnswer_wire s id wait).2

theorem NoEnd.next (h : NoEnd s) (op : StreamOp) : NoEnd (s.next op) := by
  cases op with
  | «open» io channelMalloc =>
    rw [StreamHandle.next, iotHttp2StreamOpen]
    split
    · exact h
    have hsubmit := h.submit .auxiliary [] io
    generalize s.submit .auxiliary [] io = submitted at hsubmit
    obtain ⟨rv | ⟨rv, id⟩, s'⟩ := submitted
    · exact hsubmit
    · dsimp only at hsubmit ⊢
      split
      · exact hsubmit.deliver _
      split
      · exact hsubmit.deliver _
      split
      · exact (hsubmit.deliver _).same rfl rfl
      · exact hsubmit.deliver _
  | query io =>
    rw [StreamHandle.next, iotHttp2StreamQuery]
    split
    · exact h
    have hsubmit := h.submit .download [] io
    generalize s.submit .download [] io = submitted at hsubmit
    obtain ⟨rv | ⟨rv, id⟩, s'⟩ := submitted
    · exact hsubmit
    · dsimp only at hsubmit ⊢
      split
      · exact hsubmit.deliver _
      split
      · exact (hsubmit.deliver _).same rfl rfl
      · exact hsubmit.deliver _
  | send info windows io =>
    rw [StreamHandle.next, iotHttp2StreamSend]
    split
    · exact h
    split
    · exact h
    split
    · split
      · exact h
      have hsubmit := h.submit .upload info.packet io
      generalize s.submit .upload info.packet io = submitted at hsubmit
      obtain ⟨rv | ⟨rv, id⟩, s'⟩ := submitted
      · exact hsubmit
      · dsimp only at hsubmit ⊢
        split
        · exact hsubmit.awaitAnswer id io.wait
        · exact hsubmit
    · have hsend := h.sendData info.h2StreamId info.packet io.send
      generalize s.sendData info.h2StreamId info.packet io.send = sent at hsend
      obtain ⟨rv, s'⟩ := sent
      dsimp only at hsend ⊢
      split
      · exact hsend
      split
      · exact hsend.awaitAnswer info.h2StreamId io.wait
      · exact hsend
  | close info send => exact (h.sendRequest [] send).same rfl rfl

theorem NoEnd.sendRequest_sent (h : NoEnd s) {data : List UInt8} (send : ClientSend)
    (hdata : data ≠ []) (hrv : 0 ≤ (s.sendRequest data send).1.1) :
    ∃ rv lengths, send = .submitted rv lengths ∧ (s.sendRequest data send).2.sent =
      s.sent ++ cut (s.sendRequest data send).1.2 data lengths := by
  unfold StreamHandle.sendRequest at hrv ⊢
  cases send with
  | unsubmitted => simp at hrv
  | refused err =>
    have herr := err.2
    dsimp only at hrv
    omega
  | submitted rv lengths =>
    refine ⟨rv, lengths, rfl, ?_⟩
    dsimp only at hrv ⊢
    split
    · next hlt => simp [hlt] at hrv
    · rw [h.flag, provide_eq]

theorem NoEnd.sendData_sent (h : NoEnd s) (id : Int) (data : List UInt8) (send : ClientSend)
    (hrv : 0 ≤ (s.sendData id data send).1) :
    ∃ rv lengths, send = .submitted rv lengths ∧
      (s.sendData id data send).2.sent = s.sent ++ cut id data lengths := by
  unfold StreamHandle.sendData at hrv ⊢
  cases send with
  | unsubmitted => simp at hrv
  | refused err =>
    have herr := err.2
    dsimp only at hrv
    omega
  | submitted rv lengths =>
    refine ⟨rv, lengths, rfl, ?_⟩
    dsimp only
    rw [h.flag, provide_eq]

theorem sendRequest_of_submit (s : StreamHandle) (streamType : StreamType) (data : List UInt8)
    (io : RequestIo) (rv id : Int) (h : (s.submit streamType data io).1 = .inr (rv, id)) :
    (s.sendRequest data io.send).1 = (rv, id) ∧ 0 ≤ rv := by
  unfold submit at h
  generalize s.sendRequest data io.send = sent at h ⊢
  obtain ⟨⟨rv', id'⟩, s'⟩ := sent
  dsimp only at h ⊢
  split at h
  · simp at h
  split at h
  · simp at h
  · next hrv _ =>
    obtain ⟨rfl, rfl⟩ : rv' = rv ∧ id' = id := by simpa using h
    exact ⟨rfl, Int.not_lt.mp hrv⟩

theorem NoEnd.send_success (h : NoEnd s) {info info' : StreamDataInfo} {windows : Nat → Int}
    {io : RequestIo} {rv : Int} {s' : StreamHandle}
    (hlen : info.packetLen.toNat = info.stream.length)
    (hsend : s.iotHttp2StreamSend info windows io = (rv, info', s')) (hrv : 0 ≤ rv) :
    info.packetLen ≠ 0 ∧ (∃ window, waitWindow info.packetLen windows = some window) ∧
      info'.sendLen = info.sendLen + info.packetLen ∧ info'.streamLen = info.streamLen ∧
      (info.sendLen ≠ 0 → info'.h2StreamId = info.h2StreamId) ∧
      ∃ rv' lengths, io.send = .submitted rv' lengths ∧
        s'.sent = s.sent ++ cut info'.h2StreamId info.stream lengths := by
  have fails : ¬ 0 ≤ State.failReturn := by decide
  have heq : info.packet = info.stream := by
    rw [StreamDataInfo.packet, hlen, List.take_length]
  unfold iotHttp2StreamSend at hsend
  split at hsend
  · cases hsend
    exact absurd hrv fails
  next hnot =>
  have hpacket : info.packet ≠ [] := by
    intro hnil
    rw [heq] at hnil
    rw [hnil, List.length_nil] at hlen
    exact hnot (.inr (UInt32.toNat_inj.mp hlen))
  split at hsend
  · cases hsend
    exact absurd hrv fails
  next hwindow =>
  refine ⟨fun h0 => hnot (.inr h0), Option.ne_none_iff_exists'.mp hwindow, ?_⟩
  split at hsend
  · next hfirst =>
    split at hsend
    · cases hsend
      exact absurd hrv fails
    have hwire := (submit_wire s .upload info.packet io).2
    have hrequest := s.sendRequest_of_submit .upload info.packet io
    generalize s.submit .upload info.packet io = submitted at hsend hwire hrequest
    match submitted with
    | (.inl rv', s'') =>
      cases hsend
      exact absurd hrv fails
    | (.inr (rv', id), s'') =>
      obtain ⟨hsubmit, hrv'⟩ := hrequest rv' id rfl
      obtain ⟨rv'', lengths, hsubmitted, hsent⟩ :=
        h.sendRequest_sent io.send hpacket (by rw [hsubmit]; exact hrv')
      rw [hsubmit] at hsent
      have hall := hwire.trans hsent
      rw [heq] at hall
      dsimp only at hsend
      split at hsend
      · cases hsend
        refine ⟨rfl, rfl, fun hne => absurd hfirst hne, rv'', lengths, hsubmitted, ?_⟩
        rw [(awaitAnswer_wire s'' id io.wait).2]
        exact hall
      · cases hsend
        exact ⟨rfl, rfl, fun hne => absurd hfirst hne, rv'', lengths, hsubmitted, hall⟩
  · have hdata := h.sendData_sent info.h2StreamId info.packet io.send
    generalize s.sendData info.h2StreamId info.packet io.send = sent at hsend hdata
    obtain ⟨rv', s''⟩ := sent
    dsimp only at hsend hdata
    split at hsend
    · cases hsend
      exact absurd hrv fails
    next hrv' =>
    obtain ⟨rv'', lengths, hsubmitted, hall⟩ := hdata (Int.not_lt.mp hrv')
    rw [heq] at hall
    split at hsend
    · cases hsend
      refine ⟨rfl, rfl, fun _ => rfl, rv'', lengths, hsubmitted, ?_⟩
      rw [(awaitAnswer_wire s'' info.h2StreamId io.wait).2]
      exact hall
    · cases hsend
      exact ⟨rfl, rfl, fun _ => rfl, rv'', lengths, hsubmitted, hall⟩

/-! ## All the packets -/

theorem NoEnd.run (h : NoEnd s) (ops : List StreamOp) : NoEnd (Lib.run StreamHandle.next s ops) :=
  run_invariant (fun _ op h => h.next op) h ops

theorem sendAll_cons {info : StreamDataInfo} {c : SendCall} {calls : List SendCall}
    {result : StreamDataInfo × StreamHandle} (h : s.sendAll info (c :: calls) = some result) :
    ∃ rv info' s', 0 ≤ rv ∧
      (run StreamHandle.next s c.between).iotHttp2StreamSend (c.put info) c.windows c.io =
        (rv, info', s') ∧
      s'.sendAll info' calls = some result := by
  rw [sendAll] at h
  generalize (run StreamHandle.next s c.between).iotHttp2StreamSend (c.put info) c.windows c.io =
    sent at h
  obtain ⟨rv, info', s'⟩ := sent
  dsimp only at h
  split at h
  · simp at h
  · next hrv => exact ⟨rv, info', s', Int.not_lt.mp hrv, rfl, h⟩

theorem SendCall.toNat_packetLen {c : SendCall} (info : StreamDataInfo)
    (h : c.packet.length < 2 ^ 32) : (c.put info).packetLen.toNat = (c.put info).stream.length :=
  UInt32.toNat_ofNat_of_lt h

theorem Complete.fits {info : StreamDataInfo} {calls : List SendCall} (h : Complete info calls) :
    ∀ c ∈ calls, c.packet.length < 2 ^ 32 := by
  intro c hc
  have hmem := List.mem_map_of_mem (f := (·.packet.length)) hc
  have hle := List.le_sum_of_mem hmem
  have hlt := info.streamLen.toNat_lt
  rw [h.sum] at hle
  omega

theorem NoEnd.sendAll (h : NoEnd s) {info info' : StreamDataInfo} {calls : List SendCall}
    {s' : StreamHandle} (hfits : ∀ c ∈ calls, c.packet.length < 2 ^ 32)
    (hcalled : ∀ c ∈ calls, c.Called) (hsend : s.sendAll info calls = some (info', s')) :
    NoEnd s' ∧ (calls ≠ [] → s'.framesOn info'.h2StreamId ≠ []) := by
  induction calls generalizing s info with
  | nil =>
    obtain ⟨rfl, rfl⟩ : info = info' ∧ s = s' := by simpa [StreamHandle.sendAll] using hsend
    exact ⟨h, fun hne => absurd rfl hne⟩
  | cons c calls ih =>
    obtain ⟨rv, info₁, s₁, hrv, hstep, hrest⟩ := sendAll_cons hsend
    have hrun := h.run c.between
    have hnext : NoEnd s₁ := by
      have hnext := hrun.next (.send (c.put info) c.windows c.io)
      rwa [StreamHandle.next, hstep] at hnext
    obtain ⟨hfinal, hframes⟩ := ih hnext (fun c hc => hfits c (List.mem_cons_of_mem _ hc))
      (fun c hc => hcalled c (List.mem_cons_of_mem _ hc)) hrest
    refine ⟨hfinal, fun _ => ?_⟩
    by_cases hnil : calls = []
    · subst hnil
      obtain ⟨rfl, rfl⟩ : info₁ = info' ∧ s₁ = s' := by
        simpa [StreamHandle.sendAll] using hrest
      obtain ⟨-, -, -, -, -, rv', lengths, hsubmitted, hsent⟩ := hrun.send_success
        (c.toNat_packetLen info (hfits c List.mem_cons_self)) hstep hrv
      obtain ⟨rv'', length, lengths', hio, -⟩ := hcalled c List.mem_cons_self
      obtain ⟨-, rfl⟩ : rv'' = rv' ∧ length :: lengths' = lengths := by
        simpa [hio] using hsubmitted
      simp [framesOn, hsent, cut]
    · exact hframes hnil

theorem delivered_never (ops : List StreamOp) {info info' : StreamDataInfo}
    {calls : List SendCall} {s : StreamHandle} (hc : Complete info calls)
    (hsend : (run next connected ops).sendAll info calls = some (info', s)) :
    ¬ Delivered s info'.h2StreamId calls := by
  intro h
  obtain ⟨hnoend, hframes⟩ := (connected_noEnd.run ops).sendAll hc.fits hc.called hsend
  have hne : calls ≠ [] := by
    rintro rfl
    have hsum := hc.sum
    rw [List.map_nil, List.sum_nil] at hsum
    exact hc.some (UInt32.toNat_inj.mp hsum.symm)
  -- the last frame of the stream has no end
  obtain ⟨init, last, hlast⟩ := List.eq_nil_or_concat _ |>.resolve_left (hframes hne)
  rw [List.concat_eq_append] at hlast
  have hmem : last ∈ s.framesOn info'.h2StreamId := by
    rw [hlast]
    exact List.mem_append_right _ (List.mem_singleton_self _)
  have hend := hnoend.sent last (List.mem_filter.mp hmem).1
  rw [(h.ended init last hlast).1] at hend
  exact Bool.noConfusion hend

def oneByte : StreamDataInfo := ⟨[], 1, 0, 0, 0, CStr.empty⟩

/-- The byte goes out, and the answer is 200. -/
def oneCall : SendCall where
  between := []
  packet := [7]
  windows := fun _ => 65535
  io := ⟨true, .submitted 0 [16384], true, true,
    ⟨[(1, ⟨1, xResponseStatus, Format.text "200", true⟩)], 0⟩⟩

theorem oneCall_complete : Complete oneByte [oneCall] where
  start := rfl
  some := by decide
  sum := rfl
  called c hc := by
    rw [List.mem_singleton.mp hc]
    exact ⟨0, 16384, [], rfl, by decide⟩

theorem one_byte_not_delivered : ∃ info s, connected.sendAll oneByte [oneCall] = some (info, s) ∧
    ¬ Delivered s info.h2StreamId [oneCall] := by
  obtain ⟨⟨info, s⟩, hs⟩ := Option.isSome_iff_exists.mp
    (show (connected.sendAll oneByte [oneCall]).isSome = true by decide)
  exact ⟨info, s, hs, delivered_never [] oneCall_complete hs⟩

theorem end_of_stream_missing : ∃ info s, connected.sendAll oneByte [oneCall] = some (info, s) ∧
    s.framesOn info.h2StreamId = [⟨1, [7], false⟩] ∧
    ¬ Delivered s info.h2StreamId [oneCall] := by
  obtain ⟨⟨info, s⟩, hs⟩ := Option.isSome_iff_exists.mp
    (show (connected.sendAll oneByte [oneCall]).isSome = true by decide)
  have hframes : (connected.sendAll oneByte [oneCall]).map
      (fun result => result.2.framesOn result.1.h2StreamId) = some [⟨1, [7], false⟩] := by
    decide
  rw [hs, Option.map_some, Option.some.injEq] at hframes
  refine ⟨info, s, hs, hframes, fun h => ?_⟩
  exact Bool.noConfusion (h.ended [] _ hframes).1

end AliyunIot.Http2.StreamHandle
