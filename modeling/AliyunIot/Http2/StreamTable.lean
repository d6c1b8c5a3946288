import Mathlib.Data.List.Nodup
import AliyunIot.Http2.Stream
import AliyunIot.Lib.Run

/-!
# The list of streams

`streamTable_iff`: the list has one node for each stream, and no call that fails leaves a
node behind, in just the runs in which no request fails after its stream id was stored.
-/

namespace AliyunIot.Http2.StreamHandle

open Lib

inductive StreamOp where
  | open (io : RequestIo) (channelMalloc : Bool)
  | query (io : RequestIo)
  | send (info : StreamDataInfo) (windows : Nat → Int) (io : RequestIo)
  | close (info : StreamDataInfo) (send : ClientSend)

def next (s : StreamHandle) : StreamOp → StreamHandle
  | .open io channelMalloc => (s.iotHttp2StreamOpen io channelMalloc).2
  | .query io => (s.iotHttp2StreamQuery io).2
  | .send info windows io => (s.iotHttp2StreamSend info windows io).2.2
  | .close info send => (s.iotHttp2StreamClose info send).2

/-- What a call returns, none where it reads a null pointer. -/
def ret (s : StreamHandle) : StreamOp → Option Int
  | .open io channelMalloc => (s.iotHttp2StreamOpen io channelMalloc).1.map Prod.fst
  | .query io => some (s.iotHttp2StreamQuery io).1
  | .send info windows io => some (s.iotHttp2StreamSend info windows io).1
  | .close info send => some (s.iotHttp2StreamClose info send).1

def ids (s : StreamHandle) : List UInt32 := s.streamList.map Http2StreamNode.streamId

def Goes (info : StreamDataInfo) (node : Http2StreamNode) : Prop :=
  node.streamId = .ofInt info.h2StreamId ∨ node.channelId = some info.channelId

/-! ## What is asked -/

/-- What the list has to be after a call, and what the call may have done to it. -/
structure StepKept (s : StreamHandle) (op : StreamOp) : Prop where
  once : (s.next op).ids.Nodup
  opened : ∀ id ∈ (s.next op).ids, id ∈ (s.next op).opened
  failed : ∀ rv, s.ret op = some rv → rv < 0 → (s.next op).ids.Sublist s.ids
  closed : ∀ info send, op = .close info send →
    ∀ node, node ∈ (s.next op).streamList ↔ node ∈ s.streamList ∧ ¬ Goes info node

def StreamOp.request : StreamOp → Option RequestIo
  | .open io _ | .query io => if io.nva then some io else none
  | .send info windows io =>
    if info.streamLen ≠ 0 ∧ info.packetLen ≠ 0 ∧ waitWindow info.packetLen windows ≠ none ∧
        info.sendLen = 0 ∧ io.nva = true then some io
    else none
  | .close .. => none

/-- The send fails, but a stream id other than 0 is stored, and its node is made. -/
def Leaks (s : StreamHandle) (io : RequestIo) : Prop :=
  io.malloc = true ∧ io.semaphore = true ∧
    match io.send with
    | .unsubmitted => False
    | .refused err => UInt32.ofInt err ≠ 0
    | .submitted rv _ => rv < 0 ∨ int32Max < s.nextStreamId

def Careful (s : StreamHandle) (op : StreamOp) : Prop := ∀ io ∈ op.request, ¬ s.Leaks io

/-! ## The list -/

section
variable {s : StreamHandle} {id : UInt32}

theorem mem_closeNodes {channelId : CStr} {nodes : List Http2StreamNode} {node : Http2StreamNode} :
    node ∈ closeNodes id channelId nodes ↔
      node ∈ nodes ∧ ¬ (node.streamId = id ∨ node.channelId = some channelId) := by
  induction nodes with
  | nil => simp [closeNodes]
  | cons first nodes ih =>
    rw [closeNodes]
    split
    · next heq =>
      rw [ih, List.mem_cons]
      constructor
      · exact fun h => ⟨.inr h.1, h.2⟩
      · rintro ⟨rfl | h, hnot⟩
        · exact absurd (.inl heq.symm) hnot
        · exact ⟨h, hnot⟩
    next hne =>
    split
    · next heq =>
      rw [ih, List.mem_cons]
      constructor
      · exact fun h => ⟨.inr h.1, h.2⟩
      · rintro ⟨rfl | h, hnot⟩
        · exact absurd (.inr heq) hnot
        · exact ⟨h, hnot⟩
    next hchannel =>
    rw [List.mem_cons, ih, List.mem_cons]
    constructor
    · rintro (rfl | h)
      · exact ⟨.inl rfl, fun h => h.elim (fun h => hne h.symm) hchannel⟩
      · exact ⟨.inr h.1, h.2⟩
    · rintro ⟨rfl | h, hnot⟩
      · exact .inl rfl
      · exact .inr ⟨h, hnot⟩

theorem closeNodes_sublist {channelId : CStr} {nodes : List Http2StreamNode} :
    (closeNodes id channelId nodes).Sublist nodes := by
  induction nodes with
  | nil => exact .slnil
  | cons first nodes ih =>
    rw [closeNodes]
    split
    · exact ih.cons _
    split
    · exact ih.cons _
    · exact ih.cons_cons _

theorem onStreamHeader_streamId (node : Http2StreamNode) (c : HeaderCallback) :
    (node.onStreamHeader c).streamId = node.streamId := by
  unfold Http2StreamNode.onStreamHeader
  repeat' split
  all_goals rfl

theorem changeFirst_ids {f : Http2StreamNode → Http2StreamNode}
    (hf : ∀ node, (f node).streamId = node.streamId) (nodes : List Http2StreamNode) :
    (changeFirst id f nodes).map Http2StreamNode.streamId =
      nodes.map Http2StreamNode.streamId := by
  induction nodes with
  | nil => rfl
  | cons node nodes ih =>
    rw [changeFirst]
    split
    · simp [hf]
    · simp [ih]

theorem deliver_frame (s : StreamHandle) (headers : List (Int × HeaderCallback)) :
    (s.deliver headers).ids = s.ids ∧ (s.deliver headers).opened = s.opened ∧
      (s.deliver headers).nextStreamId = s.nextStreamId := by
  induction headers generalizing s with
  | nil => exact ⟨rfl, rfl, rfl⟩
  | cons h headers ih =>
    obtain ⟨hids, hopened, hnext⟩ := ih { s with
      streamList := changeFirst (.ofInt h.1) (·.onStreamHeader h.2) s.streamList }
    refine ⟨hids.trans ?_, hopened, hnext⟩
    exact changeFirst_ids (fun node => onStreamHeader_streamId node h.2) _

theorem streamId_of_search {node : Http2StreamNode} (h : s.nodeSearch id = some node) :
    node.streamId = id := by
  simpa using List.find?_some h

theorem exists_search (h : id ∈ s.ids) : ∃ node, s.nodeSearch id = some node := by
  obtain ⟨node, hnode, hid⟩ := List.mem_map.mp h
  cases hs : s.nodeSearch id with
  | some node => exact ⟨node, rfl⟩
  | none =>
    have hno := List.find?_eq_none.mp hs node hnode
    exact absurd hid (by simpa using hno)

theorem ids_nodeRemove : (s.nodeRemove id).ids = s.ids.erase id := by
  unfold nodeRemove ids
  induction s.streamList with
  | nil => rfl
  | cons node nodes ih =>
    by_cases h : node.streamId = id
    · simp [h]
    · rw [List.eraseP_cons_of_neg (by simpa using h), List.map_cons, List.map_cons,
        List.erase_cons_tail (by simpa using h), ih]

end

/-! ## Requests -/

/-- The ids are apart, were all opened, and come before the next one. -/
structure Inv (s : StreamHandle) : Prop where
  once : s.ids.Nodup
  opened : ∀ id ∈ s.ids, id ∈ s.opened
  lt : ∀ id ∈ s.opened, id.toNat < s.nextStreamId
  pos : 0 < s.nextStreamId

theorem connected_inv : Inv connected where
  once := List.nodup_nil
  opened _ h := nomatch h
  lt _ h := nomatch h
  pos := by decide

variable {s : StreamHandle}

theorem toNat_nextStreamId (h : s.nextStreamId ≤ int32Max) :
    (UInt32.ofInt (s.nextStreamId : Int)).toNat = s.nextStreamId := by
  have hlt : s.nextStreamId < 2 ^ 32 := Nat.lt_of_le_of_lt h (by decide)
  have hmod : ((s.nextStreamId : Int) % 2 ^ 32).toNat = s.nextStreamId := by omega
  rw [UInt32.ofInt, hmod]
  exact UInt32.toNat_ofNat_of_lt hlt

theorem Inv.next_fresh (h : Inv s) (hle : s.nextStreamId ≤ int32Max) :
    UInt32.ofInt (s.nextStreamId : Int) ∉ s.opened := by
  intro hmem
  have hlt := h.lt _ hmem
  rw [toNat_nextStreamId hle] at hlt
  exact Nat.lt_irrefl _ hlt

theorem Inv.sendRequest (h : Inv s) (data : List UInt8) (send : ClientSend) :
    Inv (s.sendRequest data send).2 ∧
      (s.sendRequest data send).2.streamList = s.streamList ∧
      (0 ≤ (s.sendRequest data send).1.1 →
        UInt32.ofInt (s.sendRequest data send).1.2 ∉ s.ids ∧
          UInt32.ofInt (s.sendRequest data send).1.2 ∈ (s.sendRequest data send).2.opened) := by
  unfold StreamHandle.sendRequest
  cases send with
  | unsubmitted => exact ⟨h, rfl, fun hrv => by simp at hrv⟩
  | refused err => exact ⟨h, rfl, fun hrv => absurd err.2 (by simpa using hrv)⟩
  | submitted rv lengths =>
    dsimp only
    split
    · exact ⟨h, rfl, fun hrv => absurd hrv (by simp)⟩
    next hle =>
    have hfresh := h.next_fresh (Nat.not_lt.mp hle)
    refine ⟨⟨h.once, fun id hid => ?_, fun id hid => ?_, ?_⟩, rfl, fun _ => ⟨?_, ?_⟩⟩
    · exact List.mem_append_left _ (h.opened id hid)
    · rcases List.mem_append.mp hid with hid | hid
      · exact Nat.lt_add_right 2 (h.lt id hid)
      · rw [List.mem_singleton.mp hid, toNat_nextStreamId (Nat.not_lt.mp hle)]
        exact Nat.lt_add_of_pos_right (by decide)
    · exact Nat.lt_add_right 2 h.pos
    · exact fun hmem => hfresh (h.opened _ hmem)
    · exact List.mem_append_right _ (List.mem_singleton_self _)

theorem nodeInsert_cases (s : StreamHandle) (id : Int) (streamType : StreamType)
    (malloc semaphore : Bool) :
    (s.nodeInsert id streamType malloc semaphore = (false, s) ∧
      (UInt32.ofInt id = 0 ∨ malloc = false ∨ semaphore = false)) ∨
    (s.nodeInsert id streamType malloc semaphore = (true, { s with
      streamList := { Http2StreamNode.fresh (.ofInt id) with streamType } :: s.streamList }) ∧
      UInt32.ofInt id ≠ 0 ∧ malloc = true ∧ semaphore = true) := by
  unfold nodeInsert
  split
  · next h => exact .inl ⟨rfl, .inl h⟩
  next hid =>
  split
  · next h => exact .inl ⟨rfl, .inr (.inl h)⟩
  next hmalloc =>
  split
  · next h => exact .inl ⟨rfl, .inr (.inr h)⟩
  next hsemaphore =>
  exact .inr ⟨rfl, hid, by simpa using hmalloc, by simpa using hsemaphore⟩

theorem leaks_iff (hpos : 0 < s.nextStreamId) (data : List UInt8) (io : RequestIo) :
    s.Leaks io ↔ (s.sendRequest data io.send).1.1 < 0 ∧
      UInt32.ofInt (s.sendRequest data io.send).1.2 ≠ 0 ∧
      io.malloc = true ∧ io.semaphore = true := by
  have zero : UInt32.ofInt 0 = 0 := by decide
  have exhausted : UInt32.ofInt streamIdNotAvailable ≠ 0 := by decide
  have negative : streamIdNotAvailable < 0 := by decide
  unfold Leaks StreamHandle.sendRequest
  cases io.send with
  | unsubmitted => simp [zero]
  | refused err =>
    have herr := err.2
    simp only [herr, true_and, ne_eq]
    tauto
  | submitted rv lengths =>
    dsimp only
    split
    · next hlt =>
      simp only [hlt, or_true, exhausted, negative, ne_eq, not_false_eq_true, and_true, true_and]
    · next hle =>
      have hid : UInt32.ofInt (s.nextStreamId : Int) ≠ 0 := by
        intro h0
        have hnat := toNat_nextStreamId (Nat.not_lt.mp hle)
        rw [h0] at hnat
        exact Nat.ne_of_lt hpos hnat
      simp only [hle, or_false, hid, ne_eq, not_false_eq_true, true_and]
      tauto

theorem Inv.submit (h : Inv s) (streamType : StreamType) (data : List UInt8) {io : RequestIo}
    (hleak : ¬ s.Leaks io) :
    Inv (s.submit streamType data io).2 ∧
      ((∃ rv < 0, (s.submit streamType data io).1 = .inl rv ∧
          (s.submit streamType data io).2.ids = s.ids) ∨
        ∃ rv ≥ 0, ∃ id, (s.submit streamType data io).1 = .inr (rv, id) ∧
          (s.submit streamType data io).2.ids = .ofInt id :: s.ids) := by
  obtain ⟨hinv, hlist, hfresh⟩ := h.sendRequest data io.send
  rw [leaks_iff h.pos data io] at hleak
  unfold StreamHandle.submit
  generalize s.sendRequest data io.send = sent at hinv hlist hfresh hleak
  obtain ⟨⟨rv, id⟩, s'⟩ := sent
  dsimp only at hinv hlist hfresh hleak ⊢
  have hids : s'.ids = s.ids := congrArg (List.map Http2StreamNode.streamId) hlist
  rcases nodeInsert_cases s' id streamType io.malloc io.semaphore with ⟨heq, -⟩ | ⟨heq, hid⟩
  · rw [heq]
    split
    · next hrv => exact ⟨hinv, .inl ⟨rv, hrv, rfl, hids⟩⟩
    · exact ⟨hinv, .inl ⟨State.failReturn, by decide, rfl, hids⟩⟩
  · rw [heq]
    split
    · next hrv => exact absurd ⟨hrv, hid⟩ hleak
    next hrv =>
    obtain ⟨hnot, hopened⟩ := hfresh (Int.not_lt.mp hrv)
    refine ⟨⟨?_, ?_, hinv.lt, hinv.pos⟩, .inr ⟨rv, Int.not_lt.mp hrv, id, rfl, ?_⟩⟩
    · rw [← hids] at hnot
      exact List.nodup_cons.mpr ⟨hnot, hinv.once⟩
    · intro other hmem
      rcases List.mem_cons.mp hmem with rfl | hmem
      · exact hopened
      · exact hinv.opened _ hmem
    · exact congrArg (UInt32.ofInt id :: ·) hids

theorem submit_of_leaks (hpos : 0 < s.nextStreamId) (streamType : StreamType)
    (data : List UInt8) {io : RequestIo} (hleak : s.Leaks io) :
    ∃ rv < 0, (s.submit streamType data io).1 = .inl rv ∧
      (s.submit streamType data io).2.ids.length = s.ids.length + 1 := by
  have hlist : (s.sendRequest data io.send).2.streamList = s.streamList := by
    unfold sendRequest
    cases io.send with
    | unsubmitted => rfl
    | refused err => rfl
    | submitted rv lengths =>
      dsimp only
      split <;> rfl
  rw [leaks_iff hpos data io] at hleak
  unfold submit
  generalize s.sendRequest data io.send = sent at hlist hleak
  obtain ⟨⟨rv, id⟩, s'⟩ := sent
  obtain ⟨hrv, hid, hmalloc, hsemaphore⟩ := hleak
  dsimp only at hlist hrv hid ⊢
  rcases nodeInsert_cases s' id streamType io.malloc io.semaphore with ⟨-, hno⟩ | ⟨heq, -⟩
  · rw [hmalloc, hsemaphore] at hno
    simp [hid] at hno
  · rw [heq]
    rw [if_pos hrv]
    exact ⟨rv, hrv, rfl, by simp [ids, hlist]⟩

/-! ## The calls -/

theorem Inv.of_frame {s' : StreamHandle} (h : Inv s) (hids : s'.ids.Sublist s.ids)
    (hopened : s'.opened = s.opened) (hnext : s'.nextStreamId = s.nextStreamId) : Inv s' where
  once := h.once.sublist hids
  opened id hid := by
    rw [hopened]
    exact h.opened id (hids.subset hid)
  lt := by
    rw [hopened, hnext]
    exact h.lt
  pos := hnext ▸ h.pos

theorem Inv.deliver (h : Inv s) (headers : List (Int × HeaderCallback)) :
    Inv (s.deliver headers) := by
  obtain ⟨hids, hopened, hnext⟩ := deliver_frame s headers
  exact h.of_frame (hids ▸ List.Sublist.refl _) hopened hnext

theorem Inv.nodeRemove (h : Inv s) (id : UInt32) : Inv (s.nodeRemove id) := by
  refine h.of_frame ?_ rfl rfl
  rw [ids_nodeRemove]
  exact List.erase_sublist

/-- A call keeps the invariant, and if it fails it has made no node that stays. -/
def CallKept (s : StreamHandle) (rv : Option Int) (s' : StreamHandle) : Prop :=
  Inv s' ∧ ∀ v, rv = some v → v < 0 → s'.ids.Sublist s.ids

theorem CallKept.of_ids {s' : StreamHandle} (h : Inv s') (hids : s'.ids = s.ids)
    (rv : Option Int) : CallKept s rv s' := by
  refine ⟨h, fun v _ _ => ?_⟩
  rw [hids]

theorem ids_remove_first {s' : StreamHandle} {id : UInt32} {ids : List UInt32}
    {headers : List (Int × HeaderCallback)} (hids : s'.ids = id :: ids) :
    ((s'.deliver headers).nodeRemove id).ids = ids := by
  rw [ids_nodeRemove, (deliver_frame s' headers).1, hids, List.erase_cons_head]

theorem search_first {s' : StreamHandle} {id : UInt32} {ids : List UInt32}
    (headers : List (Int × HeaderCallback)) (hids : s'.ids = id :: ids) :
    ∃ node, (s'.deliver headers).nodeSearch id = some node ∧ node.streamId = id := by
  have hmem : id ∈ (s'.deliver headers).ids := by
    rw [(deliver_frame s' headers).1, hids]
    exact List.mem_cons_self
  obtain ⟨node, hnode⟩ := exists_search hmem
  exact ⟨node, hnode, streamId_of_search hnode⟩

theorem Inv.open_kept (h : Inv s) (io : RequestIo) (channelMalloc : Bool)
    (hc : io.nva = true → ¬ s.Leaks io) :
    CallKept s ((s.iotHttp2StreamOpen io channelMalloc).1.map Prod.fst)
      (s.iotHttp2StreamOpen io channelMalloc).2 := by
  unfold iotHttp2StreamOpen
  split
  · exact .of_ids h rfl _
  next hnva =>
  obtain ⟨hinv, hcases⟩ := h.submit .auxiliary [] (hc (by simpa using hnva))
  generalize s.submit .auxiliary [] io = submitted at hinv hcases
  obtain ⟨result, s'⟩ := submitted
  rcases hcases with ⟨rv, -, rfl, hids⟩ | ⟨rv, -, id, rfl, hids⟩
  · exact .of_ids hinv hids _
  obtain ⟨node, hnode, hid⟩ := search_first io.wait.headers hids
  dsimp only
  rw [hnode]
  dsimp only
  cases node.openAnswer io.wait.result channelMalloc with
  | none => exact ⟨hinv.deliver _, nofun⟩
  | some answer =>
    dsimp only
    split
    · refine ⟨(hinv.deliver _).nodeRemove _, fun v _ _ => ?_⟩
      rw [hid, ids_remove_first hids]
    · next hrv =>
      refine ⟨hinv.deliver _, fun v hv hneg => ?_⟩
      exact absurd (Option.some.inj hv ▸ hneg) hrv

theorem Inv.query_kept (h : Inv s) (io : RequestIo) (hc : io.nva = true → ¬ s.Leaks io) :
    CallKept s (some (s.iotHttp2StreamQuery io).1) (s.iotHttp2StreamQuery io).2 := by
  unfold iotHttp2StreamQuery
  split
  · exact .of_ids h rfl _
  next hnva =>
  obtain ⟨hinv, hcases⟩ := h.submit .download [] (hc (by simpa using hnva))
  generalize s.submit .download [] io = submitted at hinv hcases
  obtain ⟨result, s'⟩ := submitted
  rcases hcases with ⟨rv, -, rfl, hids⟩ | ⟨rv, -, id, rfl, hids⟩
  · exact .of_ids hinv hids _
  obtain ⟨node, hnode, hid⟩ := search_first io.wait.headers hids
  dsimp only
  rw [hnode]
  dsimp only
  split
  · refine ⟨(hinv.deliver _).nodeRemove _, fun v _ _ => ?_⟩
    rw [hid, ids_remove_first hids]
  · next hok =>
    refine ⟨hinv.deliver _, fun v hv hneg => ?_⟩
    have heq : io.wait.result = v := Option.some.inj hv
    exact absurd (.inl (heq ▸ hneg)) hok

theorem Inv.awaitAnswer (h : Inv s) (id : Int) (wait : WaitIo) :
    Inv (s.awaitAnswer id wait).2 ∧
      ((s.awaitAnswer id wait).2.ids = s.ids ∧
          (UInt32.ofInt id ∈ s.ids → 0 ≤ (s.awaitAnswer id wait).1) ∨
        (s.awaitAnswer id wait).2.ids = s.ids.erase (.ofInt id)) := by
  have hids := (deliver_frame s wait.headers).1
  unfold StreamHandle.awaitAnswer
  cases hs : s.nodeSearch (.ofInt id) with
  | none =>
    refine ⟨h, .inl ⟨rfl, fun hmem => ?_⟩⟩
    obtain ⟨node, hnode⟩ := exists_search hmem
    simp [hs] at hnode
  | some _ =>
    dsimp only
    cases hs' : (s.deliver wait.headers).nodeSearch (.ofInt id) with
    | none =>
      refine ⟨h.deliver _, .inl ⟨hids, fun hmem => ?_⟩⟩
      obtain ⟨node, hnode⟩ := exists_search (hids ▸ hmem)
      simp [hs'] at hnode
    | some node =>
      dsimp only
      split
      · refine ⟨(h.deliver _).nodeRemove _, .inr ?_⟩
        rw [ids_nodeRemove, hids, streamId_of_search hs']
      · next hok => exact ⟨h.deliver _, .inl ⟨hids, fun _ => by omega⟩⟩

theorem sendData_frame (s : StreamHandle) (id : Int) (data : List UInt8) (send : ClientSend) :
    (s.sendData id data send).2.ids = s.ids ∧
      (s.sendData id data send).2.opened = s.opened ∧
      (s.sendData id data send).2.nextStreamId = s.nextStreamId := by
  cases send with
  | unsubmitted => exact ⟨rfl, rfl, rfl⟩
  | refused err => exact ⟨rfl, rfl, rfl⟩
  | submitted rv lengths => exact ⟨rfl, rfl, rfl⟩

theorem Inv.send_kept (h : Inv s) {info : StreamDataInfo} {windows : Nat → Int}
    {io : RequestIo} (hc : Careful s (.send info windows io)) :
    CallKept s (some (s.iotHttp2StreamSend info windows io).1)
      (s.iotHttp2StreamSend info windows io).2.2 := by
  unfold iotHttp2StreamSend
  split
  · exact .of_ids h rfl _
  next hlen =>
  split
  · exact .of_ids h rfl _
  next hwindow =>
  split
  · next hfirst =>
    split
    · exact .of_ids h rfl _
    next hnva =>
    have hrequest : StreamOp.request (.send info windows io) = some io := by
      rw [StreamOp.request, if_pos]
      simp only [not_or] at hlen
      exact ⟨hlen.1, hlen.2, hwindow, hfirst, by simpa using hnva⟩
    obtain ⟨hinv, hcases⟩ := h.submit .upload info.packet (hc io hrequest)
    generalize s.submit .upload info.packet io = submitted at hinv hcases
    obtain ⟨result, s'⟩ := submitted
    rcases hcases with ⟨rv, -, rfl, hids⟩ | ⟨rv, hrv, id, rfl, hids⟩
    · exact .of_ids hinv hids _
    dsimp only at hinv hids ⊢
    split
    · obtain ⟨hwait, hids' | hids'⟩ := hinv.awaitAnswer id io.wait
      · have hpos := hids'.2 (hids ▸ List.mem_cons_self)
        refine ⟨hwait, fun v hv hneg => ?_⟩
        have heq : (s'.awaitAnswer id io.wait).1 = v := Option.some.inj hv
        omega
      · rw [hids, List.erase_cons_head] at hids'
        exact .of_ids hwait hids' _
    · refine ⟨hinv, fun v hv hneg => ?_⟩
      have heq : rv = v := Option.some.inj hv
      omega
  · obtain ⟨hids, hopened, hnext⟩ := sendData_frame s info.h2StreamId info.packet io.send
    have hinv := h.of_frame (hids ▸ List.Sublist.refl _) hopened hnext
    generalize s.sendData info.h2StreamId info.packet io.send = sent at hinv hids
    obtain ⟨rv, s'⟩ := sent
    dsimp only at hinv hids ⊢
    split
    · exact .of_ids hinv hids _
    split
    · obtain ⟨hwait, hids' | hids'⟩ := hinv.awaitAnswer info.h2StreamId io.wait
      · exact .of_ids hwait (hids'.1.trans hids) _
      · refine ⟨hwait, fun v _ _ => ?_⟩
        rw [hids', hids]
        exact List.erase_sublist
    · exact .of_ids hinv hids _

theorem Inv.close_kept (h : Inv s) (info : StreamDataInfo) (send : ClientSend) :
    Inv (s.iotHttp2StreamClose info send).2 ∧
      (s.iotHttp2StreamClose info send).2.streamList =
        closeNodes (.ofInt info.h2StreamId) info.channelId s.streamList := by
  obtain ⟨hinv, hlist, -⟩ := h.sendRequest [] send
  unfold iotHttp2StreamClose
  dsimp only
  rw [hlist]
  refine ⟨?_, rfl⟩
  refine hinv.of_frame ?_ rfl rfl
  rw [ids, ids, hlist]
  exact (closeNodes_sublist).map _

/-! ## Runs -/

theorem StepKept.of_callKept {op : StreamOp} (h : CallKept s (s.ret op) (s.next op))
    (hop : ∀ info send, op ≠ .close info send) : StepKept s op where
  once := h.1.once
  opened := h.1.opened
  failed := h.2
  closed info send heq := absurd heq (hop info send)

theorem Inv.step (h : Inv s) {op : StreamOp} (hc : Careful s op) :
    Inv (s.next op) ∧ StepKept s op := by
  cases op with
  | «open» io channelMalloc =>
    have hkept := h.open_kept io channelMalloc fun hnva =>
      hc io (by simp [StreamOp.request, hnva])
    exact ⟨hkept.1, .of_callKept hkept (by simp)⟩
  | query io =>
    have hkept := h.query_kept io fun hnva => hc io (by simp [StreamOp.request, hnva])
    exact ⟨hkept.1, .of_callKept hkept (by simp)⟩
  | send info windows io =>
    have hkept := h.send_kept hc
    exact ⟨hkept.1, .of_callKept hkept (by simp)⟩
  | close info send =>
    obtain ⟨hinv, hlist⟩ := h.close_kept info send
    refine ⟨hinv, hinv.once, hinv.opened, fun rv _ _ => ?_, ?_⟩
    · rw [next, ids, hlist]
      exact closeNodes_sublist.map _
    · rintro info' send' heq node
      cases heq
      rw [next, hlist]
      exact mem_closeNodes

theorem ret_of_leaks (hpos : 0 < s.nextStreamId) {op : StreamOp} {io : RequestIo}
    (hrequest : io ∈ op.request) (hleak : s.Leaks io) :
    ∃ rv < 0, s.ret op = some rv ∧ (s.next op).ids.length = s.ids.length + 1 := by
  cases op with
  | «open» io' channelMalloc =>
    obtain ⟨hnva, rfl⟩ : io'.nva = true ∧ io' = io := by
      simpa [StreamOp.request] using hrequest
    obtain ⟨rv, -, hsubmit, hlen⟩ := submit_of_leaks hpos .auxiliary [] hleak
    simp only [ret, next, iotHttp2StreamOpen, hnva]
    generalize s.submit .auxiliary [] io' = submitted at hsubmit hlen
    obtain ⟨result, s'⟩ := submitted
    obtain rfl : result = .inl rv := hsubmit
    exact ⟨State.failReturn, by decide, rfl, hlen⟩
  | query io' =>
    obtain ⟨hnva, rfl⟩ : io'.nva = true ∧ io' = io := by
      simpa [StreamOp.request] using hrequest
    obtain ⟨rv, hrv, hsubmit, hlen⟩ := submit_of_leaks hpos .download [] hleak
    simp only [ret, next, iotHttp2StreamQuery, hnva]
    generalize s.submit .download [] io' = submitted at hsubmit hlen
    obtain ⟨result, s'⟩ := submitted
    obtain rfl : result = .inl rv := hsubmit
    exact ⟨rv, hrv, rfl, hlen⟩
  | send info windows io' =>
    obtain ⟨⟨hstream, hpacket, hwindow, hfirst, hnva⟩, rfl⟩ :
        (info.streamLen ≠ 0 ∧ info.packetLen ≠ 0 ∧
          waitWindow info.packetLen windows ≠ none ∧ info.sendLen = 0 ∧ io'.nva = true) ∧
        io' = io := by
      simpa [StreamOp.request] using hrequest
    obtain ⟨rv, -, hsubmit, hlen⟩ := submit_of_leaks hpos .upload info.packet hleak
    simp only [ret, next, iotHttp2StreamSend, hstream, hpacket, hwindow, hfirst, hnva, or_self]
    generalize s.submit .upload info.packet io' = submitted at hsubmit hlen
    obtain ⟨result, s'⟩ := submitted
    obtain rfl : result = .inl rv := hsubmit
    exact ⟨State.failReturn, by decide, rfl, hlen⟩
  | close info send => exact absurd hrequest (by simp [StreamOp.request])

theorem Inv.stepKept_iff (h : Inv s) (op : StreamOp) : StepKept s op ↔ Careful s op := by
  constructor
  · intro hkept io hrequest hleak
    obtain ⟨rv, hneg, hret, hlen⟩ := ret_of_leaks h.pos hrequest hleak
    have hle := (hkept.failed rv hret hneg).length_le
    omega
  · exact fun hc => (h.step hc).2

theorem streamTable_iff (ops : List StreamOp) :
    Meets next StepKept connected ops ↔ Meets next Careful connected ops :=
  meets_iff_of_invariant (fun _ _ hc h => (h.step hc).1) (fun _ op h => h.stepKept_iff op)
    connected_inv

/-- An open whose submission is refused: its node is keyed by the error. -/
theorem refused_open_leaks :
    let io : RequestIo := ⟨true, .refused ⟨-531, by decide⟩, true, true, ⟨[], 0⟩⟩
    ¬ Meets next StepKept connected [.open io true] := by
  intro io h
  have hkept := h.1.failed (-1) (by decide) (by decide)
  exact absurd hkept.length_le (by decide)

end AliyunIot.Http2.StreamHandle
