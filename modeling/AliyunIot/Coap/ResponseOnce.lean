import AliyunIot.Coap.Threads

/-!
# Live nodes and one response

`LiveOnce` says that no node is touched after it was freed, that each is freed once
when nobody has it any more, and that a message for which a response was handled in
time has its handler called once. `liveOnce_run`: this holds in every run in which
no kept node is cancelled while the receive thread is using it (`Careful`), and a
response is handled only when the message in time for it is listed and is the first
with its token.
-/

namespace AliyunIot.Coap

open Lib

namespace Receiver

/-- A node found for a response, until its `keep` has been read. -/
def inUse : Receiver → Option CoapSendNode
  | found node => some node
  | called node => some node
  | _ => none

/-- The node that is no longer in the list and that only the receive thread has. -/
def held : Receiver → List CoapSendNode
  | found node => if node.keep then [] else [node]
  | called node => if node.keep then [] else [node]
  | expired node => [node]
  | idle => []

/-- The handler is about to be called. -/
def isFound : Receiver → Nat → Bool
  | found node, id => node.id = id
  | _, _ => false

end Receiver

namespace ServerThreads

def holds (s : ServerThreads) : List CoapSendNode := s.sendlist.list ++ s.receiver.held

def nodes (s : ServerThreads) : List CoapSendNode := s.written ++ s.holds

/-- What a run has to keep of the nodes. -/
structure LiveOnce (s : ServerThreads) : Prop where
  clean : s.heap.Clean
  freed : ∀ id ∈ s.allocated,
    id ∈ s.heap.freed ↔ id ∉ ids s.holds
  response : ∀ id ∈ s.handled,
    s.calls.count id + (if s.receiver.isFound id then 1 else 0) = 1

/-- No kept node is cancelled while the receive thread uses it, and where a response is
in time for a message, that is listed and the first with its token. -/
def Careful (s : ServerThreads) : ThreadOp → Prop
  | .cancel msgid => ∀ node ∈ s.receiver.inUse, node.keep = true → node.header.msgid ≠ msgid
  | .resp message => ∀ node ∈ s.messages, s.InTime node → HasToken message node →
    (s.sendlist.list.find? fun x =>
      sameToken x.token message.head.tokenlen message.token).map CoapSendNode.id = some node.id
  | _ => True

instance (s : ServerThreads) (op : ThreadOp) : Decidable (s.Careful op) := by
  unfold Careful
  cases op <;> infer_instance

/-! ## The invariant -/

/-- A node holds what its message was written with. -/
structure Alike (a b : CoapSendNode) : Prop where
  id : b.id = a.id
  token : b.token = a.token
  keep : b.keep = a.keep
  handler : b.handler = a.handler
  msgid : b.header.msgid = a.header.msgid

/-- The nodes and the memory in a careful run. -/
structure Owned (s : ServerThreads) : Prop where
  numbered : Numbered CoapSendNode.id s.nextId s.messages
  distinct : (ids s.nodes).Nodup
  known : ∀ x ∈ s.nodes, ∃ m ∈ s.messages, Alike m x
  clean : s.heap.Clean
  allocated : ∀ id ∈ s.allocated, id < s.nextId
  freed : ∀ id ∈ s.heap.freed, id ∈ s.allocated
  live : ∀ x ∈ s.holds, x.id ∈ s.allocated ∧ x.id ∉ s.heap.freed
  fresh : ∀ x ∈ s.written, x.id ∉ s.allocated
  owned : ∀ id ∈ s.allocated, id ∈ s.heap.freed ∨ id ∈ ids s.holds
  kept : ∀ node ∈ s.receiver.inUse, node.keep = true → ∃ x ∈ s.sendlist.list, Alike node x

/-- The responses handled and the calls made in a careful run. -/
structure Answered (s : ServerThreads) : Prop where
  past : ∀ id ∈ s.handled ++ s.calls, id < s.nextId
  gone : ∀ x ∈ s.sendlist.list ++ s.written, x.id ∉ s.handled
  uncalled : ∀ x ∈ s.sendlist.list ++ s.written, x.keep = false → x.id ∉ s.calls
  answering : ∀ node, s.receiver = .found node → node.id ∈ s.handled → node.handler ≠ none
  response : ∀ id ∈ s.handled, s.calls.count id + (if s.receiver.isFound id then 1 else 0) = 1

theorem Alike.trans {a b c : CoapSendNode} (h : Alike a b) (h' : Alike b c) : Alike a c :=
  ⟨h'.id.trans h.id, h'.token.trans h.token, h'.keep.trans h.keep, h'.handler.trans h.handler,
    h'.msgid.trans h.msgid⟩

theorem ids_append (as bs : List CoapSendNode) : ids (as ++ bs) = ids as ++ ids bs :=
  List.map_append

theorem mem_ids {id : Nat} {l : List CoapSendNode} : id ∈ ids l ↔ ∃ x ∈ l, x.id = id := List.mem_map

theorem init_owned (maxcount : UInt8) : (init maxcount).Owned where
  numbered := .nil
  distinct := List.nodup_nil
  known := nofun
  clean := ⟨rfl, List.nodup_nil⟩
  allocated := nofun
  freed := nofun
  live := nofun
  fresh := nofun
  owned := nofun
  kept := nofun

theorem init_answered (maxcount : UInt8) : (init maxcount).Answered where
  past := nofun
  gone := nofun
  uncalled := nofun
  answering := nofun
  response := nofun

section
variable {s : ServerThreads} (h : s.Owned)
include h

theorem Owned.eq_of_id {x y : CoapSendNode} (hx : x ∈ s.nodes) (hy : y ∈ s.nodes)
    (hid : x.id = y.id) : x = y :=
  List.inj_on_of_nodup_map h.distinct hx hy hid

theorem Owned.id_lt {x : CoapSendNode} (hx : x ∈ s.nodes) : x.id < s.nextId := by
  obtain ⟨m, hm, hmx⟩ := h.known x hx
  rw [hmx.id]
  exact h.numbered.below m hm

theorem Owned.write (node : CoapSendNode) : (s.write node).Owned := by
  have hperm : (s.write node).nodes.Perm ({ node with id := s.nextId } :: s.nodes) := by
    show (s.written ++ [_] ++ s.holds).Perm _
    rw [List.append_assoc]
    exact List.perm_middle
  exact
    { h with
      numbered := h.numbered.concat rfl
      distinct := by
        refine (hperm.map CoapSendNode.id).nodup_iff.mpr (List.nodup_cons.mpr ⟨?_, h.distinct⟩)
        intro hmem
        obtain ⟨x, hx, hid⟩ := List.mem_map.mp hmem
        exact Nat.ne_of_lt (h.id_lt hx) hid
      known := by
        intro x hx
        rcases List.mem_cons.mp (hperm.mem_iff.mp hx) with rfl | hx
        · exact ⟨_, List.mem_append_right _ List.mem_cons_self, rfl, rfl, rfl, rfl, rfl⟩
        · obtain ⟨m, hm, hmx⟩ := h.known x hx
          exact ⟨m, List.mem_append_left _ hm, hmx⟩
      allocated := fun id hid => Nat.lt_succ_of_lt (h.allocated id hid)
      fresh := by
        intro x hx
        rcases List.mem_append.mp hx with hx | hx
        · exact h.fresh x hx
        · rw [List.mem_singleton.mp hx]
          exact fun hid => Nat.lt_irrefl _ (h.allocated _ hid) }

theorem Owned.release {s' : ServerThreads} (gone : List CoapSendNode)
    (hmessages : s'.messages = s.messages) (hnextId : s'.nextId = s.nextId)
    (hwritten : s'.written = s.written) (hallocated : s'.allocated = s.allocated)
    (hheap : s'.heap = s.heap.free (ids gone)) (hperm : s.holds.Perm (gone ++ s'.holds))
    (hkept : ∀ node ∈ s'.receiver.inUse, node.keep = true → ∃ x ∈ s'.sendlist.list, Alike node x) :
    s'.Owned := by
  have hmem (x : CoapSendNode) (hx : x ∈ gone ++ s'.holds) : x ∈ s.holds := hperm.mem_iff.mpr hx
  have hlive : ∀ id ∈ ids gone, id ∉ s.heap.freed := by
    intro id hid
    obtain ⟨x, hx, rfl⟩ := mem_ids.mp hid
    exact (h.live x (hmem x (List.mem_append_left _ hx))).2
  have hnodes : (ids (s.written ++ (gone ++ s'.holds))).Nodup := by
    refine ((List.Perm.append_left s.written hperm).map CoapSendNode.id).nodup_iff.mp ?_
    exact h.distinct
  have hholds : (ids (gone ++ s'.holds)).Nodup := by
    rw [ids_append] at hnodes
    exact hnodes.of_append_right
  have hapart (x : CoapSendNode) (hx : x ∈ s'.holds) : x.id ∉ ids gone := by
    rw [ids_append, List.nodup_append'] at hholds
    exact fun hid => hholds.2.2 hid (mem_ids.mpr ⟨x, hx, rfl⟩)
  have hfreed : s'.heap.freed = s.heap.freed ++ ids gone := by
    rw [hheap, Ledger.free_of_live hlive]
  constructor
  case numbered => exact hnextId ▸ hmessages ▸ h.numbered
  case distinct =>
    unfold nodes
    rw [hwritten]
    refine hnodes.sublist (List.Sublist.map _ (List.Sublist.append (List.Sublist.refl _) ?_))
    exact List.sublist_append_right _ _
  case known =>
    intro x hx
    rw [hmessages]
    apply h.known x
    unfold nodes at hx ⊢
    rw [hwritten] at hx
    rcases List.mem_append.mp hx with hx | hx
    · exact List.mem_append_left _ hx
    · exact List.mem_append_right _ (hmem x (List.mem_append_right _ hx))
  case clean =>
    rw [hheap]
    rw [ids_append] at hholds
    exact h.clean.free hholds.of_append_left hlive
  case allocated => exact hallocated ▸ hnextId ▸ h.allocated
  case freed =>
    intro id hid
    rw [hallocated]
    rw [hfreed] at hid
    rcases List.mem_append.mp hid with hid | hid
    · exact h.freed id hid
    · obtain ⟨x, hx, rfl⟩ := mem_ids.mp hid
      exact (h.live x (hmem x (List.mem_append_left _ hx))).1
  case live =>
    intro x hx
    obtain ⟨halloc, hnot⟩ := h.live x (hmem x (List.mem_append_right _ hx))
    rw [hallocated, hfreed]
    exact ⟨halloc, fun hid => (List.mem_append.mp hid).elim hnot (hapart x hx)⟩
  case fresh => exact hallocated ▸ hwritten ▸ h.fresh
  case owned =>
    intro id hid
    rw [hallocated] at hid
    rw [hfreed]
    rcases h.owned id hid with hid | hid
    · exact .inl (List.mem_append_left _ hid)
    · obtain ⟨x, hx, rfl⟩ := mem_ids.mp hid
      rcases List.mem_append.mp (hperm.mem_iff.mp hx) with hx | hx
      · exact .inl (List.mem_append_right _ (mem_ids.mpr ⟨x, hx, rfl⟩))
      · exact .inr (mem_ids.mpr ⟨x, hx, rfl⟩)
  case kept => exact hkept

variable {node : CoapSendNode}

theorem Owned.forget {as bs : List CoapSendNode} (hw : s.written = as ++ node :: bs) :
    Owned { s with written := as ++ bs } ∧ node.id ∉ ids ((as ++ bs) ++ s.holds) ∧
      node.id ∉ s.allocated ∧ node.id < s.nextId ∧ ∃ m ∈ s.messages, Alike m node := by
  have hperm : s.nodes.Perm (node :: ((as ++ bs) ++ s.holds)) := by
    unfold nodes
    rw [hw, List.append_assoc, List.append_assoc, List.cons_append]
    exact List.perm_middle
  have hd : (ids (node :: ((as ++ bs) ++ s.holds))).Nodup :=
    (hperm.map CoapSendNode.id).nodup_iff.mp h.distinct
  obtain ⟨hnot, hd⟩ := List.nodup_cons.mp hd
  have hmem : node ∈ s.nodes := hperm.mem_iff.mpr List.mem_cons_self
  have hnode : node ∈ s.written := hw ▸ List.mem_append_right _ List.mem_cons_self
  refine ⟨?_, hnot, h.fresh node hnode, h.id_lt hmem, h.known node hmem⟩
  exact
    { h with
      distinct := hd
      known := fun x hx => h.known x (hperm.mem_iff.mpr (List.mem_cons_of_mem _ hx))
      fresh := by
        intro x hx
        refine h.fresh x (hw ▸ ?_)
        rcases List.mem_append.mp hx with hx | hx
        · exact List.mem_append_left _ hx
        · exact List.mem_append_right _ (List.mem_cons_of_mem _ hx) }

theorem Owned.alloc_lt {n : Nat} (hlt : n < s.nextId) :
    ∀ id ∈ s.allocated ++ [n], id < s.nextId := by
  intro id hid
  rcases List.mem_append.mp hid with hid | hid
  · exact h.allocated id hid
  · rw [List.mem_singleton.mp hid]
    exact hlt

theorem Owned.fresh_concat {n : Nat} (hnew : n ∉ ids s.nodes) :
    ∀ x ∈ s.written, x.id ∉ s.allocated ++ [n] := by
  intro x hx hid
  rcases List.mem_append.mp hid with hid | hid
  · exact h.fresh x hx hid
  · exact hnew (mem_ids.mpr ⟨x, List.mem_append_left _ hx, List.mem_singleton.mp hid⟩)

section
variable {node : CoapSendNode} (hnew : node.id ∉ ids s.nodes) (halloc : node.id ∉ s.allocated)
  (hlt : node.id < s.nextId)
include hnew halloc hlt

theorem Owned.full :
    Owned { s with allocated := s.allocated ++ [node.id], heap := s.heap.free [node.id] } := by
  have hnot : node.id ∉ s.heap.freed := fun hid => halloc (h.freed _ hid)
  have hlive : ∀ id ∈ [node.id], id ∉ s.heap.freed := by
    intro id hid
    rw [List.mem_singleton.mp hid]
    exact hnot
  have hfreed : (s.heap.free [node.id]).freed = s.heap.freed ++ [node.id] := by
    rw [Ledger.free_of_live hlive]
  have hother (x : CoapSendNode) (hx : x ∈ s.holds) : x.id ≠ node.id :=
    fun hid => hnew (mem_ids.mpr ⟨x, List.mem_append_right _ hx, hid⟩)
  exact
    { h with
      clean := h.clean.free (List.nodup_singleton _) hlive
      allocated := h.alloc_lt hlt
      freed := by
        intro id hid
        rw [hfreed] at hid
        rcases List.mem_append.mp hid with hid | hid
        · exact List.mem_append_left _ (h.freed id hid)
        · exact List.mem_append_right _ hid
      live := by
        intro x hx
        obtain ⟨hin, hout⟩ := h.live x hx
        rw [hfreed]
        refine ⟨List.mem_append_left _ hin, fun hid => ?_⟩
        rcases List.mem_append.mp hid with hid | hid
        · exact hout hid
        · exact hother x hx (List.mem_singleton.mp hid)
      fresh := h.fresh_concat hnew
      owned := by
        intro id hid
        rw [hfreed]
        rcases List.mem_append.mp hid with hid | hid
        · exact (h.owned id hid).imp_left (List.mem_append_left _)
        · exact .inl (List.mem_append_right _ hid) }

theorem Owned.place (hknown : ∃ m ∈ s.messages, Alike m node) (count : UInt8) :
    Owned
      { s with
        allocated := s.allocated ++ [node.id]
        sendlist := { s.sendlist with list := s.sendlist.list ++ [node], count := count } } := by
  have hnot : node.id ∉ s.heap.freed := fun hid => halloc (h.freed _ hid)
  have hholds : (s.sendlist.list ++ [node] ++ s.receiver.held).Perm (node :: s.holds) := by
    rw [List.append_assoc]
    exact List.perm_middle
  have hperm : (s.written ++ (s.sendlist.list ++ [node] ++ s.receiver.held)).Perm
      (node :: s.nodes) :=
    (List.Perm.append_left s.written hholds).trans List.perm_middle
  have hd : (ids (s.written ++ (s.sendlist.list ++ [node] ++ s.receiver.held))).Nodup :=
    (hperm.map CoapSendNode.id).nodup_iff.mpr (List.nodup_cons.mpr ⟨hnew, h.distinct⟩)
  exact
    { h with
      distinct := hd
      known := by
        intro x hx
        rcases List.mem_cons.mp (hperm.mem_iff.mp hx) with rfl | hx
        · exact hknown
        · exact h.known x hx
      allocated := h.alloc_lt hlt
      freed := fun id hid => List.mem_append_left _ (h.freed id hid)
      live := by
        intro x hx
        rcases List.mem_cons.mp (hholds.mem_iff.mp hx) with rfl | hx
        · exact ⟨List.mem_append_right _ List.mem_cons_self, hnot⟩
        · exact ⟨List.mem_append_left _ (h.live x hx).1, (h.live x hx).2⟩
      fresh := h.fresh_concat hnew
      owned := by
        intro id hid
        have hids : (ids (s.sendlist.list ++ [node] ++ s.receiver.held)).Perm
            (node.id :: ids s.holds) :=
          hholds.map CoapSendNode.id
        rcases List.mem_append.mp hid with hid | hid
        · exact (h.owned id hid).imp_right fun hmem =>
            hids.mem_iff.mpr (List.mem_cons_of_mem _ hmem)
        · refine .inr (hids.mem_iff.mpr ?_)
          rw [List.mem_singleton.mp hid]
          exact List.mem_cons_self
      kept := by
        intro x hx hk
        obtain ⟨y, hy, hxy⟩ := h.kept x hx hk
        exact ⟨y, List.mem_append_left _ hy, hxy⟩ }

end

/-! ### Each step -/

theorem Owned.listAdd (id : Nat) (malloc : Bool) : (s.listAdd id malloc).Owned := by
  unfold ServerThreads.listAdd
  rcases splitFirst_cases (fun node : CoapSendNode => decide (node.id = id)) s.written with
    ⟨hnone, -⟩ | ⟨as, node, bs, hsome, hw, -, -⟩
  · rw [hnone]
    exact h
  · rw [hsome]
    obtain ⟨hs, hnew, halloc, hlt, hknown⟩ := h.forget hw
    dsimp only
    split
    · exact hs
    · split
      · exact hs.full hnew halloc hlt
      · exact hs.place hnew halloc hlt hknown _

theorem Owned.live_ids {l : List CoapSendNode} (hl : ∀ x ∈ l, x ∈ s.holds) :
    ∀ id ∈ ids l, id ∉ s.heap.freed := by
  intro id hid
  obtain ⟨x, hx, rfl⟩ := mem_ids.mp hid
  exact (h.live x (hl x hx)).2

theorem Owned.touch {l : List CoapSendNode} (hl : ∀ x ∈ l, x ∈ s.sendlist.list) :
    s.heap.touch (ids l) = s.heap :=
  Ledger.touch_of_live (h.live_ids fun x hx => List.mem_append_left _ (hl x hx))

theorem Owned.cancel {msgid : UInt16} (hcare : s.Careful (.cancel msgid)) :
    (s.cancel msgid).Owned := by
  refine h.release (s.sendlist.list.filter fun node => node.header.msgid = msgid) rfl rfl rfl rfl
    ?_ ?_ ?_
  · show (s.heap.touch (ids s.sendlist.list)).free _ = _
    rw [h.touch fun x hx => hx]
  · show (s.sendlist.list ++ s.receiver.held).Perm (_ ++ (_ ++ s.receiver.held))
    rw [← List.append_assoc]
    apply List.Perm.append_right
    have hpart := List.filter_append_perm (fun node => decide (node.header.msgid = msgid))
      s.sendlist.list
    exact hpart.symm
  · intro node hnode hk
    obtain ⟨x, hx, hxn⟩ := h.kept node hnode hk
    refine ⟨x, List.mem_filter.mpr ⟨hx, ?_⟩, hxn⟩
    rw [hxn.msgid, decide_eq_false (hcare node hnode hk)]
    rfl

theorem Owned.touch_prefix {as bs : List CoapSendNode} (hl : s.sendlist.list = as ++ node :: bs) :
    s.heap.touch (ids (as ++ [node])) = s.heap := by
  refine h.touch fun x hx => ?_
  rw [hl, List.append_cons]
  exact List.mem_append_left _ hx

theorem Owned.replace (hidle : s.receiver = .idle) {as bs : List CoapSendNode}
    {node' : CoapSendNode} (hl : s.sendlist.list = as ++ node :: bs) (hn : Alike node node') :
    Owned { s with sendlist := { s.sendlist with list := as ++ node' :: bs } } := by
  have hids : ids (as ++ node' :: bs ++ s.receiver.held) = ids s.holds := by
    unfold holds
    rw [hl, ids_append, ids_append, ids_append, ids_append]
    show _ ++ (node'.id :: ids bs) ++ _ = _ ++ (node.id :: ids bs) ++ _
    rw [hn.id]
  have hfrom (x : CoapSendNode) (hx : x ∈ as ++ node' :: bs ++ s.receiver.held) :
      ∃ y ∈ s.holds, Alike y x := by
    unfold holds
    rw [hl]
    rcases List.mem_append.mp hx with hx | hx
    · rcases List.mem_append.mp hx with hx | hx
      · exact ⟨x, List.mem_append_left _ (List.mem_append_left _ hx), rfl, rfl, rfl, rfl, rfl⟩
      · rcases List.mem_cons.mp hx with rfl | hx
        · exact ⟨node, List.mem_append_left _ (List.mem_append_right _ List.mem_cons_self), hn⟩
        · exact ⟨x, List.mem_append_left _ (List.mem_append_right _ (List.mem_cons_of_mem _ hx)),
            rfl, rfl, rfl, rfl, rfl⟩
    · exact ⟨x, List.mem_append_right _ hx, rfl, rfl, rfl, rfl, rfl⟩
  exact
    { h with
      distinct := by
        show (ids (s.written ++ (as ++ node' :: bs ++ s.receiver.held))).Nodup
        rw [ids_append, hids, ← ids_append]
        exact h.distinct
      known := by
        intro x hx
        rcases List.mem_append.mp hx with hx | hx
        · exact h.known x (List.mem_append_left _ hx)
        · obtain ⟨y, hy, hyx⟩ := hfrom x hx
          obtain ⟨m, hm, hmy⟩ := h.known y (List.mem_append_right _ hy)
          exact ⟨m, hm, hmy.trans hyx⟩
      live := by
        intro x hx
        obtain ⟨y, hy, hyx⟩ := hfrom x hx
        rw [hyx.id]
        exact h.live y hy
      owned := by
        intro id hid
        refine (h.owned id hid).imp_right fun hmem => ?_
        show id ∈ ids (as ++ node' :: bs ++ s.receiver.held)
        rw [hids]
        exact hmem
      kept := by
        intro x hx
        dsimp only at hx
        rw [hidle] at hx
        cases hx }

theorem Owned.take {as bs : List CoapSendNode} (hidle : s.receiver = .idle)
    (hl : s.sendlist.list = as ++ node :: bs) {s' : ServerThreads}
    (hmessages : s'.messages = s.messages) (hnextId : s'.nextId = s.nextId)
    (hwritten : s'.written = s.written) (hallocated : s'.allocated = s.allocated)
    (hheap : s'.heap = s.heap) (hlist : s'.sendlist.list = as ++ bs)
    (hheld : s'.receiver.held = [node]) (hused : ∀ x ∈ s'.receiver.inUse, x.keep = false) :
    s'.Owned := by
  refine h.release [] hmessages hnextId hwritten hallocated ?_ ?_ ?_
  · rw [hheap]
    exact (Ledger.free_nil _).symm
  · unfold holds
    rw [hidle, hl, hlist, hheld, List.nil_append]
    show (as ++ node :: bs ++ []).Perm _
    rw [List.append_nil]
    exact List.perm_middle.trans (List.perm_append_singleton node (as ++ bs)).symm
  · intro x hx hk
    rw [hused x hx] at hk
    cases hk

theorem Owned.ackHandle (hidle : s.receiver = .idle) (msgid : UInt16) :
    (s.ackHandle msgid).Owned := by
  unfold ServerThreads.ackHandle
  rcases splitFirst_cases (fun node : CoapSendNode => decide (node.header.msgid = msgid))
    s.sendlist.list with ⟨hnone, -⟩ | ⟨as, node, bs, hsome, hl, -, -⟩
  · rw [hnone, h.touch fun x hx => hx]
    exact h
  · rw [hsome]
    dsimp only
    rw [h.touch_prefix hl]
    split
    · refine h.release [node] rfl rfl rfl rfl rfl ?_ ?_
      · show (s.sendlist.list ++ s.receiver.held).Perm ([node] ++ (as ++ bs ++ s.receiver.held))
        rw [hl, ← List.append_assoc]
        exact List.Perm.append_right _ List.perm_middle
      · intro x hx
        have hx' : x ∈ s.receiver.inUse := hx
        rw [hidle] at hx'
        cases hx'
    · exact h.replace hidle hl ⟨rfl, rfl, rfl, rfl, rfl⟩

theorem Owned.respHandle (hidle : s.receiver = .idle) (message : CoapMessage) :
    (s.respHandle message).Owned := by
  unfold ServerThreads.respHandle
  rcases splitFirst_cases (fun node : CoapSendNode =>
      sameToken node.token message.head.tokenlen message.token) s.sendlist.list with
    ⟨hnone, -⟩ | ⟨as, node, bs, hsome, hl, -, -⟩
  · rw [hnone, h.touch fun x hx => hx]
    exact { h with }
  · rw [hsome]
    dsimp only
    rw [h.touch_prefix hl]
    split
    · next hk =>
      refine h.release [] rfl rfl rfl rfl (Ledger.free_nil _).symm ?_ ?_
      · show (s.sendlist.list ++ s.receiver.held).Perm
          (s.sendlist.list ++ if node.keep then [] else [node])
        rw [hidle, hk]
        exact List.Perm.refl _
      · rintro x ⟨⟩ -
        refine ⟨node, ?_, rfl, rfl, rfl, rfl, rfl⟩
        show node ∈ s.sendlist.list
        rw [hl]
        exact List.mem_append_right _ List.mem_cons_self
    · next hk =>
      have hk := eq_false_of_ne_true hk
      refine h.take hidle hl rfl rfl rfl rfl rfl rfl ?_ ?_
      · show (if node.keep then [] else [node]) = [node]
        rw [hk]
        rfl
      · rintro x ⟨⟩
        exact hk

theorem Owned.call (hfound : s.receiver = .found node) : (s.call node).Owned := by
  have hheld : s.receiver.held = (s.call node).receiver.held := by
    rw [hfound]
    rfl
  refine h.release [] rfl rfl rfl rfl (Ledger.free_nil _).symm ?_ ?_
  · unfold holds
    rw [hheld]
    exact List.Perm.refl _
  · rintro x ⟨⟩
    exact h.kept node (by rw [hfound]; rfl)

theorem Owned.freeHeld (hheld : s.receiver.held = [node]) :
    Owned { s with receiver := .idle, heap := (s.heap.touch [node.id]).free [node.id] } := by
  have hlive : ∀ id ∈ [node.id], id ∉ s.heap.freed :=
    h.live_ids (l := [node]) fun x hx => List.mem_append_right _ (hheld ▸ hx)
  refine h.release [node] rfl rfl rfl rfl ?_ ?_ nofun
  · show (s.heap.touch [node.id]).free [node.id] = s.heap.free [node.id]
    rw [Ledger.touch_of_live hlive]
  · unfold holds
    rw [hheld]
    show (s.sendlist.list ++ [node]).Perm ([node] ++ (s.sendlist.list ++ []))
    rw [List.append_nil]
    exact List.perm_append_comm

theorem Owned.finish (hcalled : s.receiver = .called node) (garbage : Bool) :
    (s.finish node garbage).Owned := by
  have hlive : node.id ∉ s.heap.freed := by
    cases hk : node.keep with
    | true =>
      -- A kept node is still in the list.
      obtain ⟨x, hx, hxn⟩ := h.kept node (by rw [hcalled]; rfl) hk
      exact hxn.id ▸ (h.live x (List.mem_append_left _ hx)).2
    | false =>
      refine (h.live node (List.mem_append_right _ ?_)).2
      rw [hcalled]
      show node ∈ if node.keep then [] else [node]
      rw [hk]
      exact List.mem_cons_self
  unfold ServerThreads.finish
  rw [if_neg hlive]
  dsimp only
  cases hk : node.keep with
  | true =>
    refine h.release [] rfl rfl rfl rfl ?_ ?_ nofun
    · show s.heap.touch [node.id] = s.heap.free []
      rw [Ledger.free_nil]
      refine Ledger.touch_of_live fun id hid => ?_
      rw [List.mem_singleton.mp hid]
      exact hlive
    · unfold holds
      rw [hcalled]
      show (s.sendlist.list ++ if node.keep then [] else [node]).Perm (s.sendlist.list ++ [])
      rw [hk]
      exact List.Perm.refl _
  | false =>
    apply h.freeHeld
    rw [hcalled]
    show (if node.keep then [] else [node]) = [node]
    rw [hk]
    rfl

theorem Owned.expire (hidle : s.receiver = .idle) (id : Nat) : (s.expire id).Owned := by
  unfold ServerThreads.expire
  rcases splitFirst_cases (fun node : CoapSendNode => decide (node.id = id)) s.sendlist.list with
    ⟨hnone, -⟩ | ⟨as, node, bs, hsome, hl, -, -⟩
  · rw [hnone]
    exact h
  · rw [hsome]
    dsimp only
    split
    · exact h
    · exact h.take hidle hl rfl rfl rfl rfl (h.touch_prefix hl) rfl rfl nofun

theorem Owned.next {op : ThreadOp} (hcare : s.Careful op) : (s.next op).Owned := by
  cases op with
  | write node =>
    show Owned (if _ then _ else _)
    split
    · exact h.write node
    · exact h
  | list id malloc => exact h.listAdd id malloc
  | cancel msgid => exact h.cancel hcare
  | ack msgid =>
    show Owned (if _ then _ else _)
    split
    · next hidle => exact h.ackHandle hidle msgid
    · exact h
  | resp message =>
    show Owned (if _ then _ else _)
    split
    · next hidle => exact h.respHandle hidle message
    · exact h
  | call =>
    rcases next_call s with ⟨node, hfound, heq⟩ | heq
    · rw [heq]
      exact h.call hfound
    · rw [heq]
      exact h
  | finish garbage =>
    rcases next_finish s garbage with ⟨node, hcalled, heq⟩ | ⟨node, hexpired, heq⟩ | heq
    · rw [heq]
      exact h.finish hcalled garbage
    · rw [heq]
      exact h.freeHeld (by rw [hexpired]; rfl)
    · rw [heq]
      exact h
  | expire id =>
    show Owned (if _ then _ else _)
    split
    · next hidle => exact h.expire hidle id
    · exact h

end

/-! ## Responses -/

section
variable {s : ServerThreads} (h : s.Owned) (ha : s.Answered)

include ha in
theorem Answered.of_same {s' : ServerThreads} (hhandled : s'.handled = s.handled)
    (hcalls : s'.calls = s.calls) (hnextId : s'.nextId = s.nextId)
    (hfrom : ∀ x ∈ s'.sendlist.list ++ s'.written, ∃ y ∈ s.sendlist.list ++ s.written, Alike y x)
    (hfound : ∀ id, s'.receiver.isFound id = s.receiver.isFound id)
    (hsame : ∀ node, s'.receiver = .found node → s.receiver = .found node) : s'.Answered := by
  constructor
  case past => exact hhandled ▸ hcalls ▸ hnextId ▸ ha.past
  case gone =>
    intro x hx
    obtain ⟨y, hy, hyx⟩ := hfrom x hx
    rw [hhandled, hyx.id]
    exact ha.gone y hy
  case uncalled =>
    intro x hx hk
    obtain ⟨y, hy, hyx⟩ := hfrom x hx
    rw [hcalls, hyx.id]
    exact ha.uncalled y hy (hyx.keep.symm.trans hk)
  case answering => exact fun node hnode => hhandled ▸ ha.answering node (hsame node hnode)
  case response =>
    intro id hid
    rw [hhandled] at hid
    rw [hcalls, hfound]
    exact ha.response id hid

theorem alike_refl (x : CoapSendNode) : Alike x x := ⟨rfl, rfl, rfl, rfl, rfl⟩

include ha in
theorem Answered.write (node : CoapSendNode) : (s.write node).Answered := by
  have hmem (x : CoapSendNode) (hx : x ∈ s.sendlist.list ++ (s.written ++ [{ node with
      id := s.nextId }])) : x ∈ s.sendlist.list ++ s.written ∨ x.id = s.nextId := by
    rw [← List.append_assoc] at hx
    rcases List.mem_append.mp hx with hx | hx
    · exact .inl hx
    · exact .inr (by rw [List.mem_singleton.mp hx])
  constructor
  case past => exact fun id hid => Nat.lt_succ_of_lt (ha.past id hid)
  case gone =>
    intro x hx hid
    rcases hmem x hx with hx | hx
    · exact ha.gone x hx hid
    · exact Nat.ne_of_lt (ha.past _ (List.mem_append_left _ hid)) hx
  case uncalled =>
    intro x hx hk hid
    rcases hmem x hx with hx | hx
    · exact ha.uncalled x hx hk hid
    · exact Nat.ne_of_lt (ha.past _ (List.mem_append_right _ hid)) hx
  case answering => exact ha.answering
  case response => exact ha.response

include ha in
theorem Answered.listAdd (id : Nat) (malloc : Bool) : (s.listAdd id malloc).Answered := by
  unfold ServerThreads.listAdd
  rcases splitFirst_cases (fun node : CoapSendNode => decide (node.id = id)) s.written with
    ⟨hnone, -⟩ | ⟨as, node, bs, hsome, hw, -, -⟩
  · rw [hnone]
    exact ha
  · rw [hsome]
    have hrest (x : CoapSendNode) (hx : x ∈ s.sendlist.list ++ (as ++ bs)) :
        ∃ y ∈ s.sendlist.list ++ s.written, Alike y x := by
      refine ⟨x, ?_, alike_refl x⟩
      rw [hw]
      rcases List.mem_append.mp hx with hx | hx
      · exact List.mem_append_left _ hx
      · exact List.mem_append_right _ (List.perm_middle.mem_iff.mpr (List.mem_cons_of_mem _ hx))
    dsimp only
    split
    · exact ha.of_same rfl rfl rfl hrest (fun _ => rfl) fun _ h => h
    · split
      · exact ha.of_same rfl rfl rfl hrest (fun _ => rfl) fun _ h => h
      · refine ha.of_same rfl rfl rfl (fun x hx => ?_) (fun _ => rfl) fun _ h => h
        rw [List.append_assoc] at hx
        rcases List.mem_append.mp hx with hx | hx
        · exact hrest x (List.mem_append_left _ hx)
        · rcases List.mem_append.mp hx with hx | hx
          · refine ⟨node, ?_, by rw [List.mem_singleton.mp hx]; exact alike_refl node⟩
            rw [hw]
            exact List.mem_append_right _ (List.mem_append_right _ List.mem_cons_self)
          · exact hrest x (List.mem_append_right _ hx)

include ha in
theorem Answered.cancel (msgid : UInt16) : (s.cancel msgid).Answered := by
  refine ha.of_same rfl rfl rfl (fun x hx => ⟨x, ?_, alike_refl x⟩) (fun _ => rfl) fun _ h => h
  rcases List.mem_append.mp hx with hx | hx
  · exact List.mem_append_left _ (List.mem_filter.mp hx).1
  · exact List.mem_append_right _ hx

theorem mem_around {as bs written : List CoapSendNode} {node : CoapSendNode}
    (hl : s.sendlist.list = as ++ node :: bs) {x : CoapSendNode} (hx : x ∈ as ++ bs ++ written) :
    x ∈ s.sendlist.list ++ written := by
  rw [hl]
  rcases List.mem_append.mp hx with hx | hx
  · exact List.mem_append_left _ (List.perm_middle.mem_iff.mpr (List.mem_cons_of_mem _ hx))
  · exact List.mem_append_right _ hx

include ha in
theorem Answered.ackHandle (msgid : UInt16) : (s.ackHandle msgid).Answered := by
  unfold ServerThreads.ackHandle
  rcases splitFirst_cases (fun node : CoapSendNode => decide (node.header.msgid = msgid))
    s.sendlist.list with ⟨hnone, -⟩ | ⟨as, node, bs, hsome, hl, -, -⟩
  · rw [hnone]
    exact ha.of_same rfl rfl rfl (fun x hx => ⟨x, hx, alike_refl x⟩) (fun _ => rfl) fun _ h => h
  · rw [hsome]
    dsimp only
    split
    · exact ha.of_same rfl rfl rfl (fun x hx => ⟨x, mem_around hl hx, alike_refl x⟩) (fun _ => rfl)
        fun _ h => h
    · refine ha.of_same rfl rfl rfl (fun x hx => ?_) (fun _ => rfl) fun _ h => h
      have hx' : x ∈ { node with acked := true } :: (as ++ bs ++ s.written) := by
        rcases List.mem_append.mp hx with hx | hx
        · rcases List.mem_cons.mp (List.perm_middle.mem_iff.mp hx) with hx | hx
          · exact hx ▸ List.mem_cons_self
          · exact List.mem_cons_of_mem _ (List.mem_append_left _ hx)
        · exact List.mem_cons_of_mem _ (List.mem_append_right _ hx)
      rcases List.mem_cons.mp hx' with rfl | hx
      · exact ⟨node, hl ▸ List.mem_append_left _ (List.mem_append_right _ List.mem_cons_self),
          rfl, rfl, rfl, rfl, rfl⟩
      · exact ⟨x, mem_around hl hx, alike_refl x⟩

include ha in
theorem Answered.expire (hidle : s.receiver = .idle) (id : Nat) : (s.expire id).Answered := by
  unfold ServerThreads.expire
  rcases splitFirst_cases (fun node : CoapSendNode => decide (node.id = id)) s.sendlist.list with
    ⟨hnone, -⟩ | ⟨as, node, bs, hsome, hl, -, -⟩
  · rw [hnone]
    exact ha
  · rw [hsome]
    dsimp only
    split
    · exact ha
    · exact ha.of_same rfl rfl rfl (fun x hx => ⟨x, mem_around hl hx, alike_refl x⟩)
        (fun _ => by rw [hidle]; rfl) nofun

include ha in
theorem Answered.done (hnot : ∀ id, s.receiver.isFound id = false) (heap : Ledger) :
    Answered { s with receiver := .idle, heap := heap } :=
  ha.of_same rfl rfl rfl (fun x hx => ⟨x, hx, alike_refl x⟩) (fun id => (hnot id).symm) nofun

include h in
theorem Owned.apart_held {x y : CoapSendNode} (hx : x ∈ s.sendlist.list ++ s.written)
    (hy : y ∈ s.receiver.held) : x.id ≠ y.id := by
  have hperm : s.nodes.Perm (s.sendlist.list ++ s.written ++ s.receiver.held) := by
    unfold nodes holds
    rw [← List.append_assoc]
    exact List.Perm.append_right _ List.perm_append_comm
  have hd := (hperm.map CoapSendNode.id).nodup_iff.mp h.distinct
  rw [List.map_append, List.nodup_append'] at hd
  exact fun hid => hd.2.2 (mem_ids.mpr ⟨x, hx, hid⟩) (mem_ids.mpr ⟨y, hy, rfl⟩)

include h in
theorem Owned.apart_listed {as bs : List CoapSendNode} {node : CoapSendNode}
    (hl : s.sendlist.list = as ++ node :: bs) {x : CoapSendNode} (hx : x ∈ as ++ bs ++ s.written) :
    x.id ≠ node.id := by
  have hperm : s.nodes.Perm (node :: (as ++ bs ++ s.written ++ s.receiver.held)) := by
    unfold nodes holds
    rw [hl, ← List.append_assoc]
    refine (List.Perm.append_right _ List.perm_append_comm).trans ?_
    rw [← List.cons_append, ← List.cons_append]
    exact List.Perm.append_right _ (List.Perm.append_right _ List.perm_middle)
  have hd := (hperm.map CoapSendNode.id).nodup_iff.mp h.distinct
  intro hid
  exact (List.nodup_cons.mp hd).1 (mem_ids.mpr ⟨x, List.mem_append_left _ hx, hid⟩)

include h in
theorem Owned.apart_used {x node : CoapSendNode} (hused : node ∈ s.receiver.inUse)
    (hheld : node.keep = false → node ∈ s.receiver.held) (hx : x ∈ s.sendlist.list ++ s.written)
    (hk : x.keep = false) : x.id ≠ node.id := by
  cases hn : node.keep with
  | false => exact h.apart_held hx (hheld hn)
  | true =>
    obtain ⟨y, hy, hyn⟩ := h.kept node hused hn
    intro hid
    have hmem : x ∈ s.nodes := by
      rcases List.mem_append.mp hx with hx | hx
      · exact List.mem_append_right _ (List.mem_append_left _ hx)
      · exact List.mem_append_left _ hx
    have hxy : x = y :=
      h.eq_of_id hmem (List.mem_append_right _ (List.mem_append_left _ hy)) (hid.trans hyn.id.symm)
    rw [hxy, hyn.keep, hn] at hk
    cases hk

include h ha in
theorem Answered.call {node : CoapSendNode} (hfound : s.receiver = .found node) :
    (s.call node).Answered := by
  have hused : node ∈ s.receiver.inUse := by
    rw [hfound]
    rfl
  have hheld (hk : node.keep = false) : node ∈ s.receiver.held := by
    rw [hfound]
    show node ∈ if node.keep then [] else [node]
    rw [hk]
    exact List.mem_cons_self
  have hlt : node.id < s.nextId := by
    cases hk : node.keep with
    | false => exact h.id_lt (List.mem_append_right _ (List.mem_append_right _ (hheld hk)))
    | true =>
      obtain ⟨x, hx, hxn⟩ := h.kept node hused hk
      exact hxn.id ▸ h.id_lt (List.mem_append_right _ (List.mem_append_left _ hx))
  have hcalls (id : Nat) (hid : id ∈ (s.call node).calls) : id ∈ s.calls ∨ id = node.id := by
    unfold ServerThreads.call at hid
    dsimp only at hid
    split at hid
    · exact .inl hid
    · exact (List.mem_append.mp hid).imp_right List.mem_singleton.mp
  constructor
  case past =>
    intro id hid
    rcases List.mem_append.mp hid with hid | hid
    · exact ha.past id (List.mem_append_left _ hid)
    · rcases hcalls id hid with hid | rfl
      · exact ha.past id (List.mem_append_right _ hid)
      · exact hlt
  case gone => exact ha.gone
  case uncalled =>
    intro x hx hk hid
    rcases hcalls _ hid with hid | hid
    · exact ha.uncalled x hx hk hid
    · exact h.apart_used hused hheld hx hk hid
  case answering => exact nofun
  case response =>
    intro id hid
    have hold := ha.response id hid
    rw [hfound] at hold
    show (if node.handler = none then s.calls else s.calls ++ [node.id]).count id + 0 = 1
    by_cases hn : node.id = id
    · have hhandler : node.handler ≠ none := ha.answering node hfound (hn ▸ hid)
      rw [if_neg hhandler, List.count_append, hn, List.count_singleton_self]
      rw [show (Receiver.found node).isFound id = true from decide_eq_true hn] at hold
      exact hold
    · rw [show (Receiver.found node).isFound id = false from decide_eq_false hn] at hold
      split
      · exact hold
      · rw [List.count_append, List.count_singleton, if_neg (by simpa using hn)]
        exact hold

def inTimeIds (s : ServerThreads) (message : CoapMessage) : List Nat :=
  ids (s.messages.filter fun node => decide (s.InTime node) && decide (HasToken message node))

theorem mem_inTimeIds {message : CoapMessage} {id : Nat} (hid : id ∈ s.inTimeIds message) :
    ∃ m ∈ s.messages, s.InTime m ∧ HasToken message m ∧ m.id = id := by
  obtain ⟨m, hm, hid⟩ := mem_ids.mp hid
  obtain ⟨hmem, hm⟩ := List.mem_filter.mp hm
  rw [Bool.and_eq_true, decide_eq_true_eq, decide_eq_true_eq] at hm
  exact ⟨m, hmem, hm.1, hm.2, hid⟩

section
variable {message : CoapMessage} {as bs : List CoapSendNode} {node : CoapSendNode}

theorem inTimeIds_of_none (hcare : s.Careful (.resp message))
    (hnone : splitFirst (fun node => sameToken node.token message.head.tokenlen message.token)
      s.sendlist.list = none) : s.inTimeIds message = [] := by
  refine List.eq_nil_iff_forall_not_mem.mpr fun id hid => ?_
  obtain ⟨m, hm, htime, htoken, -⟩ := mem_inTimeIds hid
  have hfirst := hcare m hm htime htoken
  rw [find?_eq_map_splitFirst, hnone] at hfirst
  cases hfirst

include h in
theorem inTimeIds_of_some (hcare : s.Careful (.resp message))
    (hsome : splitFirst (fun node => sameToken node.token message.head.tokenlen message.token)
      s.sendlist.list = some (as, node, bs)) (hnode : node ∈ s.sendlist.list) {id : Nat}
    (hid : id ∈ s.inTimeIds message) : id = node.id ∧ node.keep = false ∧ node.handler ≠ none := by
  obtain ⟨m, hm, htime, htoken, rfl⟩ := mem_inTimeIds hid
  have hfirst := hcare m hm htime htoken
  rw [find?_eq_map_splitFirst, hsome] at hfirst
  have heq : node.id = m.id := Option.some.inj hfirst
  obtain ⟨m', hm', hm'n⟩ :=
    h.known node (List.mem_append_right _ (List.mem_append_left _ hnode))
  obtain rfl : m = m' :=
    List.inj_on_of_nodup_map h.numbered.distinct hm hm' (heq.symm.trans hm'n.id)
  refine ⟨heq.symm, hm'n.keep ▸ htime.1, ?_⟩
  rw [hm'n.handler]
  exact htime.2.1

include ha in
theorem Answered.found_handled (hidle : s.receiver = .idle) (hnode : node ∈ s.sendlist.list)
    {id : Nat} (hid : id ∈ s.handled) :
    s.calls.count id + (if (Receiver.found node).isFound id then 1 else 0) = 1 := by
  have hne : ¬ node.id = id := fun heq =>
    ha.gone node (List.mem_append_left _ hnode) (heq ▸ hid)
  have hold := ha.response id hid
  rw [hidle] at hold
  rw [show (Receiver.found node).isFound id = false from decide_eq_false hne]
  exact hold

include ha in
theorem Answered.found_kept (hidle : s.receiver = .idle) (hnode : node ∈ s.sendlist.list)
    (heap : Ledger) : Answered { s with heap := heap, receiver := .found node } := by
  constructor
  case past => exact ha.past
  case gone => exact ha.gone
  case uncalled => exact ha.uncalled
  case answering =>
    rintro _ ⟨⟩ hid
    exact absurd hid (ha.gone node (List.mem_append_left _ hnode))
  case response => exact fun id hid => ha.found_handled hidle hnode hid

include h ha in
theorem Answered.found_taken (hidle : s.receiver = .idle)
    (hl : s.sendlist.list = as ++ node :: bs) {new : List Nat} (heap : Ledger)
    (hnew : ∀ id ∈ new, id = node.id ∧ node.keep = false ∧ node.handler ≠ none) :
    Answered ({ s with
      handled := s.handled ++ new, heap := heap, receiver := .found node }.unlink as bs) := by
  have hnode : node ∈ s.sendlist.list := hl ▸ List.mem_append_right _ List.mem_cons_self
  constructor
  case past =>
    intro id hid
    rcases List.mem_append.mp hid with hid | hid
    · rcases List.mem_append.mp hid with hid | hid
      · exact ha.past id (List.mem_append_left _ hid)
      · rw [(hnew id hid).1]
        exact h.id_lt (List.mem_append_right _ (List.mem_append_left _ hnode))
    · exact ha.past id (List.mem_append_right _ hid)
  case gone =>
    intro x hx hid
    rcases List.mem_append.mp hid with hid | hid
    · exact ha.gone x (mem_around hl hx) hid
    · exact h.apart_listed hl hx (hnew _ hid).1
  case uncalled => exact fun x hx => ha.uncalled x (mem_around hl hx)
  case answering =>
    rintro _ ⟨⟩ hid
    rcases List.mem_append.mp hid with hid | hid
    · exact absurd hid (ha.gone node (List.mem_append_left _ hnode))
    · exact (hnew _ hid).2.2
  case response =>
    intro id hid
    show s.calls.count id + (if (Receiver.found node).isFound id then 1 else 0) = 1
    rcases List.mem_append.mp hid with hid | hid
    · exact ha.found_handled hidle hnode hid
    · obtain ⟨rfl, hk, -⟩ := hnew id hid
      rw [show (Receiver.found node).isFound node.id = true from decide_eq_true rfl]
      rw [List.count_eq_zero_of_not_mem (ha.uncalled node (List.mem_append_left _ hnode) hk)]
      rfl

end

include h ha in
theorem Answered.respHandle (hidle : s.receiver = .idle) {message : CoapMessage}
    (hcare : s.Careful (.resp message)) : (s.respHandle message).Answered := by
  unfold ServerThreads.respHandle
  rcases splitFirst_cases (fun node : CoapSendNode =>
      sameToken node.token message.head.tokenlen message.token) s.sendlist.list with
    ⟨hnone, -⟩ | ⟨as, node, bs, hsome, hl, -, -⟩
  · rw [hnone, show ids (s.messages.filter _) = [] from inTimeIds_of_none hcare hnone]
    exact ha.of_same (List.append_nil _) rfl rfl (fun x hx => ⟨x, hx, alike_refl x⟩)
      (fun _ => rfl) fun _ h => h
  · have hnode : node ∈ s.sendlist.list := hl ▸ List.mem_append_right _ List.mem_cons_self
    have hnew (id : Nat) (hid : id ∈ s.inTimeIds message) :
        id = node.id ∧ node.keep = false ∧ node.handler ≠ none :=
      inTimeIds_of_some h hcare hsome hnode hid
    rw [hsome]
    dsimp only
    split
    · next hk =>
      have hnone : s.inTimeIds message = [] :=
        List.eq_nil_iff_forall_not_mem.mpr fun id hid => by
          rw [(hnew id hid).2.1] at hk
          cases hk
      rw [show ids (s.messages.filter _) = [] from hnone, List.append_nil]
      exact ha.found_kept hidle hnode _
    · exact ha.found_taken h hidle hl _ hnew

include h ha in
theorem Answered.next {op : ThreadOp} (hcare : s.Careful op) : (s.next op).Answered := by
  cases op with
  | write node =>
    show Answered (if _ then _ else _)
    split
    · exact ha.write node
    · exact ha
  | list id malloc => exact ha.listAdd id malloc
  | cancel msgid => exact ha.cancel msgid
  | ack msgid =>
    show Answered (if _ then _ else _)
    split
    · exact ha.ackHandle msgid
    · exact ha
  | resp message =>
    show Answered (if _ then _ else _)
    split
    · next hidle => exact ha.respHandle h hidle hcare
    · exact ha
  | call =>
    rcases next_call s with ⟨node, hfound, heq⟩ | heq
    · rw [heq]
      exact ha.call h hfound
    · rw [heq]
      exact ha
  | finish garbage =>
    rcases next_finish s garbage with ⟨node, hcalled, heq⟩ | ⟨node, hexpired, heq⟩ | heq
    · rw [heq]
      exact ha.done (fun id => by rw [hcalled]; rfl) _
    · rw [heq]
      exact ha.done (fun id => by rw [hexpired]; rfl) _
    · rw [heq]
      exact ha
  | expire id =>
    show Answered (if _ then _ else _)
    split
    · next hidle => exact ha.expire hidle id
    · exact ha

include h ha in
theorem liveOnce_of_inv : s.LiveOnce where
  clean := h.clean
  freed := by
    intro id hid
    constructor
    · intro hfreed hmem
      obtain ⟨x, hx, rfl⟩ := mem_ids.mp hmem
      exact (h.live x hx).2 hfreed
    · exact (h.owned id hid).resolve_right
  response := ha.response

end

/-! ## Every run -/

/-- What the receive thread and the senders keep between them, in every run in which no
kept node is cancelled under the receive thread and a response finds the message that it
is in time for. -/
theorem liveOnce_run (maxcount : UInt8) (ops : List ThreadOp)
    (hcare : Meets next Careful (init maxcount) ops) : (run next (init maxcount) ops).LiveOnce := by
  have hinv : (run next (init maxcount) ops).Owned ∧ (run next (init maxcount) ops).Answered :=
    run_invariant_of_meets (I := fun s => s.Owned ∧ s.Answered)
      (fun s op hcare h => ⟨h.1.next hcare, h.2.next h.1 hcare⟩) hcare
      ⟨init_owned maxcount, init_answered maxcount⟩
  exact liveOnce_of_inv hinv.1 hinv.2

/-- What the node of a confirmable `GET` with token `01` and handler 7 holds. -/
def tokenNode (keep : Bool) : CoapSendNode where
  id := 0
  header := ⟨1, coapMessageTypeCon, 1, coapMsgCodeGet, 1⟩
  retransCount := coapMaxRetryCount
  token := [0x01]
  timeout := coapAckTimeout.toNat
  timeoutVal := coapAckTimeout
  handler := some 7
  remote := ⟨[], 5683⟩
  user := 0
  message := [0x41, 0x01, 0x00, 0x01, 0x01]
  acked := false
  keep := keep

/-- A response 2.05 with token `01`. -/
def tokenContent : CoapMessage := (Probe.value (fun i => [0x51, 0x45, 0x00, 0x02, 0x01].getD i 0)
  (coapDeserializeMessage 5)).2

/-- The request is sent and listed, answered, and its handler called. -/
def answeredRun : List ThreadOp :=
  [.write (tokenNode false), .list 0 true, .ack 1, .resp tokenContent, .call, .finish true]

theorem liveOnce_answeredRun :
    (run next (init 8) answeredRun).LiveOnce ∧ (run next (init 8) answeredRun).handled = [0] ∧
      (run next (init 8) answeredRun).heap.freed = [0] :=
  ⟨liveOnce_run 8 answeredRun (by decide), by decide, by decide⟩

def cancelledRun (garbage : Bool) : List ThreadOp :=
  [.write (tokenNode true), .list 0 true, .resp tokenContent, .call, .cancel 1, .finish garbage]

/-- The response is handled before the sender has listed its request. -/
def earlyRun : List ThreadOp :=
  [.write (tokenNode false), .resp tokenContent, .list 0 true]

/-- The cancelled node is read after its free, and freed again where the byte read is
zero; and the early response is handled in time without a call of the handler. -/
theorem cancelled_not_live :
    ¬ (run next (init 8) (cancelledRun true)).LiveOnce ∧
    (run next (init 8) (cancelledRun true)).heap = ⟨[0], [0]⟩ ∧
    (run next (init 8) (cancelledRun false)).heap = ⟨[0, 0], [0, 0]⟩ ∧
    ¬ (run next (init 8) earlyRun).LiveOnce ∧
    (run next (init 8) earlyRun).handled = [0] ∧ (run next (init 8) earlyRun).calls = [] := by
  refine ⟨fun h => ?_, by decide, by decide, fun h => ?_, by decide, by decide⟩
  · exact absurd h.clean.faults (by decide)
  · exact absurd (h.response 0 (by decide)) (by decide)

end ServerThreads

end AliyunIot.Coap
