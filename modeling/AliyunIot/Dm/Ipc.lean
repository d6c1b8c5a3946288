import Mathlib.Data.List.Perm.Basic
import AliyunIot.Infra.State
import AliyunIot.Lib.Ledger
import AliyunIot.Lib.Run

/-!
# The message queue

`dm_ipc.c`, `_dm_msg_send_to_user`, which fills the queue, and `iotx_dm_dispatch`, which empties
it. Any number of calls of the two are under way; a step is a section under the mutex of the
queue, or what a call does between two of them. `kept_run`: what is accepted is taken in order
and handed to the callback once, and every block has one owner and is freed once, where the queue
is not used while it is closed (`Careful`).
-/

namespace AliyunIot.Dm.Ipc

open Lib

/-- `dm_ipc_msg_t` at the block `id`; `data` is the block of the message, if it has one. -/
structure DmIpcMsg where
  id : Nat
  type : Int
  data : Option Nat

structure DmIpcMsgNode where
  id : Nat
  data : DmIpcMsg

def DmIpcMsg.blocks (msg : DmIpcMsg) : List Nat := msg.data.toList ++ [msg.id]

def DmIpcMsgNode.blocks (node : DmIpcMsgNode) : List Nat := node.data.blocks ++ [node.id]

/-- `g_dm_ipc`, which is `opened` while it has a mutex, and the heap; `returned` are the messages
that the callers of `_dm_msg_send_to_user` have back. The rest records what happened since
`dm_ipc_init`. -/
structure DmIpc where
  opened : Bool
  maxSize : Int
  size : Int
  messageList : List DmIpcMsgNode
  nextId : Nat
  heap : Ledger
  returned : List Nat
  accepted : List DmIpcMsg
  taken : List DmIpcMsg
  callbacks : List DmIpcMsg
  fault : Bool

namespace DmIpc

def zero : DmIpc := ⟨false, 0, 0, [], 0, .empty, [], [], [], [], false⟩

/-- The mutex and the list are used, which are there from `dm_ipc_init` to `dm_ipc_deinit`. -/
def enter (s : DmIpc) : DmIpc := { s with fault := s.fault || !s.opened }

/-- `dm_ipc_init`; `mutex` says whether the mutex can be created. -/
def dmIpcInit (s : DmIpc) (maxSize : Int) (mutex : Bool) : DmIpc :=
  { s with
    opened := mutex, maxSize := if mutex then maxSize else 0, size := 0, messageList := []
    accepted := [], taken := [], callbacks := [] }

def deinitLoop (heap : Ledger) : List DmIpcMsgNode → Ledger
  | [] => heap
  | node :: list => deinitLoop (heap.free node.blocks) list

/-- `dm_ipc_deinit`, which leaves `size` as it was. -/
def dmIpcDeinit (s : DmIpc) : DmIpc :=
  let s := s.enter
  { s with opened := false, messageList := [], heap := deinitLoop s.heap s.messageList }

def dmIpcMsgInsert (s : DmIpc) (data : DmIpcMsg) (malloc : Bool) : Int × DmIpc :=
  let s := s.enter
  if s.size ≥ s.maxSize then (State.devModelMsgqFull, s)
  else if malloc then
    (State.success, { s with
      messageList := s.messageList ++ [⟨s.nextId, data⟩], size := s.size + 1
      nextId := s.nextId + 1, accepted := s.accepted ++ [data] })
  else (State.sysDependMalloc, s)

/-- `dm_ipc_msg_next`, with `*data`; none where the queue is empty. -/
def dmIpcMsgNext (s : DmIpc) : Option DmIpcMsg × DmIpc :=
  let s := s.enter
  match s.messageList with
  | [] => (none, s)
  | node :: list => (some node.data, { s with
      messageList := list, size := s.size - 1, heap := s.heap.free [node.id]
      taken := s.taken ++ [node.data] })

end DmIpc

/-- Where a call is: `_dm_msg_send_to_user` before the insertion, or before it frees a message
that was refused; `iotx_dm_dispatch` at its loop condition, before the callback, or before the
frees. -/
inductive Call where
  | insert (msg : DmIpcMsg)
  | refused (msg : DmIpcMsg)
  | next (count : Nat)
  | callback (count : Nat) (msg : DmIpcMsg)
  | release (count : Nat) (msg : DmIpcMsg)

structure Threads where
  ipc : DmIpc
  calls : List Call

/-- `step` is the next step of the call at `i`. -/
inductive Op where
  | init (mutex : Bool)
  | deinit
  | send (type : Int) (message malloc : Bool)
  | dispatch
  | step (i : Nat) (malloc : Bool)

section
variable (maxlen : Nat)

/-- A step of a call, and where it is then, if it goes on. The event callback, which is set,
reads the message. -/
def advance (s : DmIpc) (malloc : Bool) : Call → DmIpc × Option Call
  | .insert msg =>
    let (res, s) := s.dmIpcMsgInsert msg malloc
    (s, if res ≠ State.success then some (.refused msg) else none)
  | .refused msg =>
    ({ s with heap := s.heap.free [msg.id], returned := s.returned ++ msg.data.toList }, none)
  | .next count =>
    if maxlen = 0 ∨ count < maxlen then
      let (msg, s) := s.dmIpcMsgNext
      (s, msg.map (.callback (count + 1)))
    else (s, none)
  | .callback count msg =>
    ({ s with heap := s.heap.touch msg.blocks, callbacks := s.callbacks ++ [msg] },
      some (.release count msg))
  | .release count msg =>
    ({ s with heap := s.heap.free msg.blocks }, some (.next count))

/-- A step, where `maxlen` is `CONFIG_DISPATCH_QUEUE_MAXLEN`. The message of a `send` is a block
of its caller. -/
def next (s : Threads) : Op → Threads
  | .init mutex => { s with ipc := s.ipc.dmIpcInit maxlen mutex }
  | .deinit => { s with ipc := s.ipc.dmIpcDeinit }
  | .send type message malloc =>
    let data := if message then some s.ipc.nextId else none
    let id := s.ipc.nextId + data.toList.length
    if malloc then
      ⟨{ s.ipc with nextId := id + 1 }, .insert ⟨id, type, data⟩ :: s.calls⟩
    else ⟨{ s.ipc with nextId := id, returned := s.ipc.returned ++ data.toList }, s.calls⟩
  | .dispatch => { s with calls := .next 0 :: s.calls }
  | .step i malloc =>
    match s.calls[i]? with
    | some c =>
      let (ipc, c') := advance maxlen s.ipc malloc c
      ⟨ipc, c'.toList ++ s.calls.eraseIdx i⟩
    | none => s

end

/-! ## What a run keeps -/

def Call.blocks : Call → List Nat
  | .next _ => []
  | .insert msg | .refused msg | .callback _ msg | .release _ msg => msg.blocks

/-- The message that was taken and is not handed over yet. -/
def Call.due : Call → List DmIpcMsg
  | .callback _ msg => [msg]
  | _ => []

/-- What holds of the queue, where the calls have the blocks `hands` and are to hand `due` over:
every block has one owner, or was freed once. -/
structure Kept (maxlen : Nat) (s : DmIpc) (hands : List Nat) (due : List DmIpcMsg) : Prop where
  defined : s.fault = false ∧ s.heap.faults = []
  owned : ∀ id, s.heap.freed.count id + s.returned.count id +
    (s.messageList.flatMap DmIpcMsgNode.blocks).count id + hands.count id =
      if id < s.nextId then 1 else 0
  bounded : s.messageList.length ≤ maxlen
  once : (s.callbacks ++ due).Perm s.taken
  running : s.opened = true → s.size = s.messageList.length ∧ s.maxSize = maxlen ∧
    s.accepted = s.taken ++ s.messageList.map DmIpcMsgNode.data
  closed : s.opened = false → s.messageList = []

/-- The condition on a step. -/
def Careful (s : Threads) : Op → Prop
  | .init _ => s.ipc.opened = false
  | .deinit => s.ipc.opened = true ∧ s.calls = []
  | .send _ _ _ | .dispatch => s.ipc.opened = true
  | .step _ _ => True

instance : (s : Threads) → (op : Op) → Decidable (Careful s op)
  | _, .init _ | _, .send _ _ _ | _, .dispatch => inferInstanceAs (Decidable (_ = _))
  | _, .deinit => inferInstanceAs (Decidable (_ ∧ _))
  | _, .step _ _ => .isTrue trivial

theorem DmIpc.enter_eq {s : DmIpc} (h : s.opened = true) : s.enter = s := by
  cases s
  cases h
  rw [enter, Bool.not_true, Bool.or_false]

theorem zero_kept (maxlen : Nat) : Kept maxlen .zero [] [] where
  defined := ⟨rfl, rfl⟩
  owned _ := rfl
  bounded := Nat.zero_le _
  once := .nil
  running hopen := absurd hopen Bool.false_ne_true
  closed _ := rfl

section
variable {maxlen : Nat} {s : DmIpc} {hands : List Nat} {due : List DmIpcMsg}

theorem Kept.perm {hands' : List Nat} {due' : List DmIpcMsg} (h : Kept maxlen s hands due)
    (hh : hands.Perm hands') (hd : due.Perm due') : Kept maxlen s hands' due' :=
  { h with
    owned := fun id => by rw [← hh.count_eq]; exact h.owned id
    once := (hd.symm.append_left _).trans h.once }

theorem Kept.live (h : Kept maxlen s hands due) {id : Nat}
    (hid : id ∈ s.messageList.flatMap DmIpcMsgNode.blocks ++ hands) : id ∉ s.heap.freed := by
  intro hf
  have hone := h.owned id
  have hfreed := List.count_pos_iff.mpr hf
  have howned := List.count_pos_iff.mpr hid
  rw [List.count_append] at howned
  split at hone <;> omega

theorem Kept.fresh (n : Nat) (h : Kept maxlen s hands due) :
    Kept maxlen { s with nextId := s.nextId + n } (List.range' s.nextId n ++ hands) due := by
  refine { h with owned := fun id => ?_ }
  have hone := h.owned id
  simp only [List.count_append, List.count_range_1']
  split at hone <;> split <;> split <;> omega

theorem Kept.giveBack (back : List Nat) (h : Kept maxlen s (back ++ hands) due) :
    Kept maxlen { s with returned := s.returned ++ back } hands due := by
  refine { h with owned := fun id => ?_ }
  simp only [← h.owned id, List.count_append]
  omega

theorem Kept.release (freed : List Nat) (h : Kept maxlen s (freed ++ hands) due) :
    Kept maxlen { s with heap := s.heap.free freed } hands due := by
  have hlive : ∀ id ∈ freed, id ∉ s.heap.freed := fun id hid => h.live (by simp [hid])
  rw [Ledger.free_of_live hlive]
  refine { h with owned := fun id => ?_ }
  simp only [← h.owned id, List.count_append]
  omega

theorem closed_elim {P : Prop} (hopen : s.opened = true) (hno : s.opened = false) : P :=
  absurd (hopen.symm.trans hno) (by simp)

theorem insert_kept {msg : DmIpcMsg} (hopen : s.opened = true)
    (h : Kept maxlen s (msg.blocks ++ hands) due) (malloc : Bool) :
    (∃ res, res ≠ State.success ∧ s.dmIpcMsgInsert msg malloc = (res, s)) ∨
    ∃ s', s'.opened = true ∧ Kept maxlen s' hands due ∧
      s.dmIpcMsgInsert msg malloc = (State.success, s') := by
  obtain ⟨hsize, hmax, hfifo⟩ := h.running hopen
  rw [DmIpc.dmIpcMsgInsert, DmIpc.enter_eq hopen]
  split
  · exact .inl ⟨_, by decide, rfl⟩
  next hroom =>
  cases malloc with
  | false => exact .inl ⟨_, by decide, rfl⟩
  | true =>
    rw [if_pos rfl]
    refine .inr ⟨_, ?_, ?_, rfl⟩
    · exact hopen
    refine { h with
      owned := fun id => ?_, bounded := ?_, running := fun _ => ?_, closed := closed_elim hopen }
    · have hone := h.owned id
      simp only [List.flatMap_append, List.flatMap_singleton, DmIpcMsgNode.blocks,
        List.count_append, List.count_singleton, beq_iff_eq] at hone ⊢
      split at hone <;> split <;> split <;> omega
    · simp only [List.length_append, List.length_singleton]
      omega
    · simp [hsize, hmax, hfifo]

theorem next_kept (hopen : s.opened = true) (h : Kept maxlen s hands due) :
    s.dmIpcMsgNext = (none, s) ∨
    ∃ msg s', s'.opened = true ∧ Kept maxlen s' (msg.blocks ++ hands) (msg :: due) ∧
      s.dmIpcMsgNext = (some msg, s') := by
  rw [DmIpc.dmIpcMsgNext, DmIpc.enter_eq hopen]
  obtain ⟨hsize, hmax, hfifo⟩ := h.running hopen
  cases hlist : s.messageList with
  | nil => exact .inl rfl
  | cons node list =>
    refine .inr ⟨_, _, ?_, Kept.release [node.id] (s := { s with
      messageList := list, size := s.size - 1, taken := s.taken ++ [node.data] }) ?_, rfl⟩
    · exact hopen
    refine { h with
      owned := fun id => ?_, bounded := ?_, once := ?_, running := fun _ => ?_
      closed := closed_elim hopen }
    · have hone := h.owned id
      simp only [hlist, List.flatMap_cons, List.count_append, DmIpcMsgNode.blocks] at hone ⊢
      omega
    · have hbounded := h.bounded
      rw [hlist, List.length_cons] at hbounded
      exact Nat.le_of_succ_le hbounded
    · exact List.perm_middle.trans ((h.once.cons _).trans (List.perm_append_singleton _ _).symm)
    · simp [hsize, hmax, hfifo, hlist]

theorem Kept.deinitLoop (list : List DmIpcMsgNode)
    (h : Kept maxlen s (list.flatMap DmIpcMsgNode.blocks ++ hands) due) :
    Kept maxlen { s with heap := DmIpc.deinitLoop s.heap list } hands due := by
  induction list generalizing s with
  | nil => exact h
  | cons node list ih =>
    rw [List.flatMap_cons, List.append_assoc] at h
    exact ih (h.release node.blocks)

theorem advance_kept {c : Call} (hopen : s.opened = true)
    (h : Kept maxlen s (c.blocks ++ hands) (c.due ++ due)) (malloc : Bool) :
    (advance maxlen s malloc c).1.opened = true ∧ Kept maxlen (advance maxlen s malloc c).1
      ((advance maxlen s malloc c).2.toList.flatMap Call.blocks ++ hands)
      ((advance maxlen s malloc c).2.toList.flatMap Call.due ++ due) := by
  cases c with
  | insert msg =>
    obtain ⟨res, hres, heq⟩ | ⟨s', hopen', h', heq⟩ := insert_kept hopen h malloc
    · simp only [advance, heq, if_pos hres]
      exact ⟨hopen, by simpa [Call.due, Call.blocks] using h⟩
    · simp only [advance, heq]
      exact ⟨hopen', h'⟩
  | refused msg =>
    rw [Call.blocks, DmIpcMsg.blocks, List.append_assoc] at h
    exact ⟨hopen, (h.giveBack msg.data.toList).release [msg.id]⟩
  | next count =>
    simp only [advance]
    split
    · obtain heq | ⟨msg, s', hopen', h', heq⟩ := next_kept hopen h
      · rw [heq]
        exact ⟨hopen, h⟩
      · rw [heq]
        exact ⟨hopen', by simpa [Call.blocks, Call.due] using h'⟩
    · exact ⟨hopen, h⟩
  | callback count msg =>
    have htouch : s.heap.touch msg.blocks = s.heap := Ledger.touch_of_live fun id hid =>
      h.live (List.mem_append_right _ (List.mem_append_left _ hid))
    simp only [advance, htouch]
    refine ⟨hopen, { h with owned := ?_, once := ?_ }⟩
    · simpa [Call.blocks] using h.owned
    · simpa [Call.due] using h.once
  | release count msg => exact ⟨hopen, h.release msg.blocks⟩

theorem deinit_kept (hopen : s.opened = true) (h : Kept maxlen s hands due) :
    Kept maxlen s.dmIpcDeinit hands due := by
  rw [DmIpc.dmIpcDeinit, DmIpc.enter_eq hopen]
  -- the queue is empty at once, and its blocks are those of the loop
  refine Kept.deinitLoop (s := { s with opened := false, messageList := [] }) s.messageList
    { h with
      owned := fun id => ?_, bounded := Nat.zero_le _, closed := fun _ => rfl
      running := fun hno => absurd hno Bool.false_ne_true }
  simp only [← h.owned id, List.count_append, List.flatMap_nil, List.count_nil]
  omega

theorem init_kept (hclosed : s.opened = false) (h : Kept maxlen s [] []) (mutex : Bool) :
    Kept maxlen (s.dmIpcInit maxlen mutex) [] [] where
  defined := h.defined
  owned id := by
    have hone := h.owned id
    rwa [h.closed hclosed] at hone
  bounded := Nat.zero_le _
  once := .nil
  running hopen := ⟨rfl, if_pos hopen, rfl⟩
  closed _ := rfl

/-- What has to hold of the queue and the calls. -/
def Sound (maxlen : Nat) (s : Threads) : Prop :=
  Kept maxlen s.ipc (s.calls.flatMap Call.blocks) (s.calls.flatMap Call.due) ∧
    (s.ipc.opened = false → s.calls = [])

theorem next_sound (t : Threads) (op : Op) (hop : Careful t op) (h : Sound maxlen t) :
    Sound maxlen (next maxlen t op) := by
  obtain ⟨hk, hcalls⟩ := h
  cases op with
  | init mutex =>
    have hnil := hcalls hop
    refine ⟨?_, fun _ => hnil⟩
    rw [hnil] at hk
    simp only [next, hnil]
    exact init_kept hop hk mutex
  | deinit => exact ⟨deinit_kept hop.1 hk, fun _ => hop.2⟩
  | send type message malloc =>
    cases malloc with
    | false =>
      refine ⟨?_, closed_elim hop⟩
      cases message with
      | false => exact (hk.fresh 0).giveBack []
      | true => exact (hk.fresh 1).giveBack [t.ipc.nextId]
    | true =>
      refine ⟨?_, closed_elim hop⟩
      cases message with
      | false => exact hk.fresh 1
      | true => exact hk.fresh 2
  | dispatch =>
    refine ⟨?_, closed_elim hop⟩
    simpa [next, Call.blocks, Call.due] using hk
  | step i malloc =>
    cases hc : t.calls[i]? with
    | none =>
      rw [next, hc]
      exact ⟨hk, hcalls⟩
    | some c =>
      have hopen : t.ipc.opened = true := by
        by_contra hno
        rw [hcalls (Bool.eq_false_iff.mpr hno)] at hc
        cases hc
      obtain ⟨hi, rfl⟩ := List.getElem?_eq_some_iff.mp hc
      have hperm := (List.getElem_cons_eraseIdx_perm hi).symm
      obtain ⟨hopen', hk'⟩ := advance_kept (c := t.calls[i]) hopen
        (hk.perm (hperm.flatMap_right _) (hperm.flatMap_right _)) malloc
      simp only [next, hc]
      refine ⟨?_, closed_elim hopen'⟩
      rw [List.flatMap_append, List.flatMap_append]
      exact hk'

/-- In every careful run what is accepted is taken in order and handed over once, and every
block has one owner and is freed once. -/
theorem kept_run (maxlen : Nat) {ops : List Op} (hm : Meets (next maxlen) Careful ⟨.zero, []⟩ ops) :
    Sound maxlen (run (next maxlen) ⟨.zero, []⟩ ops) :=
  run_invariant_of_meets next_sound hm ⟨zero_kept maxlen, fun _ => rfl⟩

end

/-- One message is handed over, and the next one is in the queue when it is closed. -/
theorem kept_run_close :
    Sound 50 (run (next 50) ⟨.zero, []⟩ [.init true, .send 3 true true, .step 0 true, .dispatch,
      .step 0 true, .step 0 true, .step 0 true, .step 0 true, .send 4 false true, .step 0 true,
      .deinit]) :=
  kept_run 50 (by decide)

end AliyunIot.Dm.Ipc
