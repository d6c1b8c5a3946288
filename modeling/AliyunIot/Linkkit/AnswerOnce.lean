import Mathlib.Data.List.Perm.Basic
import AliyunIot.Linkkit.ServiceList

/-!
# Service requests are answered or expired once

`AnsweredOnce` says that every context that was listed is either linked or freed, once,
that none is touched after it was freed, that the number of the list is its length and
within its bound, and that a context has one response at most, to where its request
came from. `answeredOnce_run`: this holds in every run in which no search finds a
context that a thread is answering and none of these times out (`Careful`).
-/

namespace AliyunIot.Linkkit

open Lib

/-- The context a call has found, until it has removed it. -/
def Answering.holds : Answering → Option Nat
  | .idle => none
  | .checked id => some id
  | .rrpc id _ => some id
  | .general id _ _ => some id
  | .answered id => some id

/-- What a call has read of its context is what was stored. -/
def Answering.Knows (inserted : List ServiceCtx) : Answering → Prop
  | .rrpc id msgid =>
    ∃ m ∈ inserted, m.id = id ∧ m.msgid = msgid ∧ ∃ text, m.serviceMeta = .rrpc text
  | .general id msgid alcsCtx =>
    ∃ m ∈ inserted, m.id = id ∧ m.msgid = msgid ∧ m.serviceMeta = .general alcsCtx
  | _ => True

theorem Answering.Knows.mono {inserted inserted' : List ServiceCtx} {a : Answering}
    (h : a.Knows inserted) (hsub : ∀ m ∈ inserted, m ∈ inserted') : a.Knows inserted' := by
  cases a with
  | rrpc | general =>
    obtain ⟨m, hm, hknows⟩ := h
    exact ⟨m, hsub m hm, hknows⟩
  | _ => exact trivial

namespace ServiceThreads

/-- What a run has to keep of the contexts and their responses. -/
structure AnsweredOnce (s : ServiceThreads) : Prop where
  num : s.serviceListNum = s.list.length
  room : s.serviceListNum ≤ configServiceListMaxlen
  distinct : (ids s.inserted).Nodup
  once : (ids s.list ++ s.heap.freed).Perm (ids s.inserted)
  clean : s.heap.Clean
  single : (s.responses.map ServiceResponse.ctx).Nodup
  sent : ∀ r ∈ s.responses, ∃ m ∈ s.inserted,
    m.id = r.ctx ∧ m.msgid = r.msgid ∧ m.serviceMeta = r.peer

/-- No search finds a context that a thread is answering, and none of these times out. -/
def Careful (s : ServiceThreads) : ServiceOp → Prop
  | .search thread addr => s.threads thread = .idle →
    ∀ node ∈ s.search addr, ∀ t, node.id ∉ (s.threads t).holds
  | .overtime uptime => s.inserting = none →
    ∀ node ∈ s.list, expired uptime node = true → ∀ t, node.id ∉ (s.threads t).holds
  | _ => True

/-! ## The invariant -/

/-- A context is what was stored at its insertion, except for its time. -/
structure Alike (a b : ServiceCtx) : Prop where
  id : b.id = a.id
  msgid : b.msgid = a.msgid
  serviceMeta : b.serviceMeta = a.serviceMeta

/-- The contexts and the memory in a careful run. -/
structure Owned (s : ServiceThreads) : Prop where
  distinct : (ids s.inserted).Nodup
  past : ∀ x ∈ s.inserted, x.id < s.nextId
  inserting : ∀ x ∈ s.inserting, x.id ∉ ids s.inserted ∧ x.id < s.nextId
  once : (ids s.list ++ s.heap.freed).Perm (ids s.inserted)
  faults : s.heap.faults = []
  known : ∀ x ∈ s.list, ∃ m ∈ s.inserted, Alike m x
  num : s.serviceListNum = s.list.length
  room : s.list.length + s.inserting.toList.length ≤ configServiceListMaxlen
  held : ∀ t, ∀ id ∈ (s.threads t).holds, id ∈ ids s.list
  apart : ∀ t u id, id ∈ (s.threads t).holds → id ∈ (s.threads u).holds → t = u

/-- The responses in a careful run. -/
structure Answered (s : ServiceThreads) : Prop where
  told : ∀ t, (s.threads t).Knows s.inserted
  done : ∀ r ∈ s.responses, r.ctx ∈ s.heap.freed ∨ ∃ t, s.threads t = .answered r.ctx
  single : (s.responses.map ServiceResponse.ctx).Nodup
  sent : ∀ r ∈ s.responses, ∃ m ∈ s.inserted,
    m.id = r.ctx ∧ m.msgid = r.msgid ∧ m.serviceMeta = r.peer

theorem mem_ids {id : Nat} {l : List ServiceCtx} : id ∈ ids l ↔ ∃ x ∈ l, x.id = id := List.mem_map

theorem move_threads_self (s : ServiceThreads) (t : Nat) (a : Answering) :
    (s.move t a).threads t = a := Function.update_self ..

theorem move_threads_of_ne {s : ServiceThreads} {t u : Nat} {a : Answering} (hut : u ≠ t) :
    (s.move t a).threads u = s.threads u := Function.update_of_ne hut ..

theorem init_owned : init.Owned where
  distinct := List.nodup_nil
  past := nofun
  inserting := nofun
  once := .nil
  faults := rfl
  known := nofun
  num := rfl
  room := Nat.zero_le _
  held _ := nofun
  apart _ _ _ := nofun

theorem init_answered : init.Answered where
  told _ := trivial
  done := nofun
  single := List.nodup_nil
  sent := nofun

theorem Alike.trans {a b c : ServiceCtx} (h : Alike a b) (h' : Alike b c) : Alike a c :=
  ⟨h'.id.trans h.id, h'.msgid.trans h.msgid, h'.serviceMeta.trans h.serviceMeta⟩

variable (uptime : UInt64)

theorem settle_alike (node : ServiceCtx) : Alike node (settle uptime node) := by
  unfold settle
  by_cases hlt : uptime < node.ctime
  · rw [if_pos hlt]
    exact ⟨rfl, rfl, rfl⟩
  · rw [if_neg hlt]
    exact ⟨rfl, rfl, rfl⟩

theorem settle_id (node : ServiceCtx) : (settle uptime node).id = node.id :=
  (settle_alike uptime node).id

theorem linkkitServiceListInsert_ok {num id : Nat} {malloc : Option Nat} {uptime : UInt64}
    {msgid : CStr} {serviceMeta : ServiceMeta} {node : ServiceCtx}
    (hok : linkkitServiceListInsert num id malloc uptime msgid serviceMeta = .ok node) :
    num < configServiceListMaxlen ∧ node.id = id := by
  unfold linkkitServiceListInsert at hok
  by_cases hfull : num ≥ configServiceListMaxlen
  · rw [if_pos hfull] at hok
    cases hok
  rw [if_neg hfull] at hok
  refine ⟨Nat.lt_of_not_le hfull, ?_⟩
  cases malloc with
  | none => cases hok
  | some addr =>
    cases serviceMeta with
    | general => cases hok; rfl
    | rrpc text =>
      dsimp only at hok
      by_cases hlong : text.strlen > iotxLinkkitRrpcIdLen
      · rw [if_pos hlong] at hok
        cases hok
      · rw [if_neg hlong] at hok
        cases hok
        rfl

section
variable {s : ServiceThreads} (h : s.Owned)
include h

theorem Owned.all_distinct : (ids s.list ++ s.heap.freed).Nodup := h.once.nodup_iff.mpr h.distinct

theorem Owned.live {id : Nat} (hid : id ∈ ids s.list) : id ∉ s.heap.freed :=
  List.disjoint_of_nodup_append h.all_distinct hid

theorem Owned.touch_list : s.heap.touch (ids s.list) = s.heap :=
  Ledger.touch_of_live fun _ hid => h.live hid

theorem Owned.touch_held {id : Nat} (hid : id ∈ ids s.list) : s.touch id = s := by
  unfold ServiceThreads.touch
  rw [Ledger.touch_of_live fun x hx => by
    rw [List.mem_singleton] at hx
    exact hx ▸ h.live hid]

theorem Owned.eq_of_id {x y : ServiceCtx} (hx : x ∈ s.inserted) (hy : y ∈ s.inserted)
    (hid : x.id = y.id) : x = y := List.inj_on_of_nodup_map h.distinct hx hy hid

theorem Owned.content {id : Nat} (hid : id ∈ ids s.list) (garbage : Int32 × Option ServiceMeta) :
    ∃ m ∈ s.inserted, m.id = id ∧ s.content id garbage = (m.msgid, some m.serviceMeta) := by
  unfold ServiceThreads.content
  cases hfind : s.list.find? fun node => decide (node.id = id) with
  | none =>
    obtain ⟨x, hx, rfl⟩ := mem_ids.mp hid
    have hno := List.find?_eq_none.mp hfind x hx
    exact absurd (decide_eq_true rfl) hno
  | some node =>
    obtain ⟨m, hm, hlike⟩ := h.known node (List.mem_of_find?_eq_some hfind)
    have hnode : decide (node.id = id) = true :=
      List.find?_some (p := fun x : ServiceCtx => decide (x.id = id)) hfind
    refine ⟨m, hm, hlike.id.symm.trans (of_decide_eq_true hnode), ?_⟩
    dsimp only
    rw [hlike.msgid, hlike.serviceMeta]

theorem Owned.move {t : Nat} {a : Answering} (hlisted : ∀ id ∈ a.holds, id ∈ ids s.list)
    (hnew : ∀ id ∈ a.holds, ∀ u, id ∈ (s.threads u).holds → u = t) : (s.move t a).Owned where
  __ := h
  held u id hu := by
    by_cases hut : u = t
    · subst hut
      rw [move_threads_self] at hu
      exact hlisted id hu
    · rw [move_threads_of_ne hut] at hu
      exact h.held u id hu
  apart u v id hu hv := by
    by_cases hut : u = t <;> by_cases hvt : v = t
    · exact hut.trans hvt.symm
    · subst hut
      rw [move_threads_self] at hu
      rw [move_threads_of_ne hvt] at hv
      exact (hnew id hu v hv).symm
    · subst hvt
      rw [move_threads_self] at hv
      rw [move_threads_of_ne hut] at hu
      exact hnew id hv u hu
    · rw [move_threads_of_ne hut] at hu
      rw [move_threads_of_ne hvt] at hv
      exact h.apart u v id hu hv

theorem Owned.go {t : Nat} {a : Answering} (hsame : ∀ id ∈ a.holds, id ∈ (s.threads t).holds) :
    (s.move t a).Owned :=
  h.move (fun id hid => h.held t id (hsame id hid))
    fun id hid u hu => h.apart u t id hu (hsame id hid)

theorem Owned.remove {gone : List Nat} (hnodup : gone.Nodup) (hsub : ∀ id ∈ gone, id ∈ ids s.list)
    (hfree : ∀ t, ∀ id ∈ (s.threads t).holds, id ∉ gone) : (s.remove gone).Owned := by
  have hheap : (s.heap.touch (ids s.list)).free gone = ⟨s.heap.freed ++ gone, s.heap.faults⟩ := by
    rw [h.touch_list]
    exact Ledger.free_of_live fun id hid => h.live (hsub id hid)
  have hids : ids (s.list.filter fun node => node.id ∉ gone) =
      (ids s.list).filter fun id => id ∉ gone := by
    unfold ids
    rw [List.filter_map]
    rfl
  have hgone : ((ids s.list).filter fun id => id ∈ gone).Perm gone := by
    have hlist : (ids s.list).Nodup := (List.nodup_append'.mp h.all_distinct).1
    apply (List.perm_ext_iff_of_nodup (hlist.filter _) hnodup).mpr
    intro id
    rw [List.mem_filter, decide_eq_true_iff]
    exact ⟨fun hid => hid.2, fun hid => ⟨hsub id hid, hid⟩⟩
  have hsplit : (((ids s.list).filter fun id => id ∉ gone) ++ gone).Perm (ids s.list) := by
    refine (List.Perm.append_left _ hgone.symm).trans ?_
    refine List.perm_append_comm.trans ?_
    have hall := List.filter_append_perm (fun id => decide (id ∈ gone)) (ids s.list)
    simpa only [decide_not] using hall
  have hlength : (s.list.filter fun node => node.id ∉ gone).length + gone.length =
      s.list.length := by
    have hlen := hsplit.length_eq
    rw [← hids, List.length_append] at hlen
    unfold ids at hlen
    rwa [List.length_map, List.length_map] at hlen
  unfold ServiceThreads.remove
  rw [hheap]
  exact
    { distinct := h.distinct
      past := h.past
      inserting := h.inserting
      once := by
        rw [hids]
        refine List.Perm.trans ?_ h.once
        refine (List.perm_append_comm_assoc _ _ _).trans ?_
        refine (List.Perm.append_left _ hsplit).trans List.perm_append_comm
      faults := h.faults
      known := fun x hx => h.known x (List.mem_filter.mp hx).1
      num := by
        dsimp only
        have hnum := h.num
        omega
      room := by
        dsimp only
        have hroom := h.room
        omega
      held := fun t id hid => by
        rw [hids, List.mem_filter, decide_eq_true_iff]
        exact ⟨h.held t id hid, hfree t id hid⟩
      apart := h.apart }

theorem Owned.link {node : ServiceCtx} (hins : s.inserting = some node) : (s.link node).Owned := by
  obtain ⟨hnew, hlt⟩ := h.inserting node (by rw [hins]; rfl)
  unfold ServiceThreads.link
  rw [h.touch_list]
  exact
    { distinct := by
        unfold ids
        rw [List.map_append]
        exact List.Nodup.append h.distinct (List.nodup_singleton _) fun id hid hid' =>
          hnew (List.mem_singleton.mp hid' ▸ hid)
      past := fun x hx => by
        obtain hx | hx := List.mem_append.mp hx
        · exact h.past x hx
        · exact List.mem_singleton.mp hx ▸ hlt
      inserting := nofun
      once := by
        unfold ids
        rw [List.map_append, List.map_cons, List.cons_append]
        exact (h.once.cons node.id).trans (List.perm_append_singleton node.id _).symm
      faults := h.faults
      known := fun x hx => by
        obtain rfl | hx := List.mem_cons.mp hx
        · exact ⟨x, List.mem_append_right _ List.mem_cons_self, rfl, rfl, rfl⟩
        · obtain ⟨m, hm, hlike⟩ := h.known x hx
          exact ⟨m, List.mem_append_left _ hm, hlike⟩
      num := congrArg (· + 1) h.num
      room := by
        have hroom := h.room
        rw [hins] at hroom
        exact hroom
      held := fun t id hid => List.mem_cons_of_mem _ (h.held t id hid)
      apart := h.apart }

theorem Owned.insert {malloc : Option Nat} {uptime : UInt64} {msgid : CStr}
    {serviceMeta : ServiceMeta} {node : ServiceCtx}
    (hok : linkkitServiceListInsert s.serviceListNum s.nextId malloc uptime msgid serviceMeta =
      .ok node) :
    ({ s with inserting := some node, nextId := s.nextId + 1 } : ServiceThreads).Owned := by
  obtain ⟨hroom, hid⟩ := linkkitServiceListInsert_ok hok
  exact
    { h with
      past := fun x hx => Nat.lt_succ_of_lt (h.past x hx)
      inserting := fun x hx => by
        cases hx
        refine ⟨fun hmem => ?_, by rw [hid]; exact Nat.lt_succ_self _⟩
        obtain ⟨m, hm, hmid⟩ := mem_ids.mp hmem
        exact absurd (h.past m hm) (by rw [hmid, hid]; exact Nat.lt_irrefl _)
      room := by
        rw [h.num] at hroom
        exact hroom }

theorem Owned.settle (uptime : UInt64) :
    ({ s with list := s.list.map (settle uptime) } : ServiceThreads).Owned := by
  have hids : ids (s.list.map (ServiceThreads.settle uptime)) = ids s.list := by
    unfold ids
    rw [List.map_map]
    exact List.map_congr_left fun x _ => settle_id uptime x
  exact
    { h with
      once := by
        rw [hids]
        exact h.once
      known := fun x hx => by
        obtain ⟨y, hy, rfl⟩ := List.mem_map.mp hx
        obtain ⟨m, hm, hlike⟩ := h.known y hy
        exact ⟨m, hm, hlike.trans (settle_alike uptime y)⟩
      num := h.num.trans (List.length_map _).symm
      room := by
        rw [List.length_map]
        exact h.room
      held := fun t id hid => by
        rw [hids]
        exact h.held t id hid }

theorem Owned.overtimeHandle {uptime : UInt64}
    (hfree : ∀ node ∈ s.list, expired uptime node = true → ∀ t, node.id ∉ (s.threads t).holds) :
    (s.overtimeHandle uptime).Owned := by
  have hlist : (ids s.list).Nodup := (List.nodup_append'.mp h.all_distinct).1
  apply (h.settle uptime).remove
  · exact hlist.sublist (List.filter_sublist.map _)
  · intro id hid
    obtain ⟨x, hx, rfl⟩ := mem_ids.mp hid
    refine mem_ids.mpr ⟨ServiceThreads.settle uptime x, List.mem_map_of_mem ?_, settle_id uptime x⟩
    exact (List.mem_filter.mp hx).1
  · intro t id hid hgone
    obtain ⟨x, hx, rfl⟩ := mem_ids.mp hgone
    obtain ⟨hx, hexpired⟩ := List.mem_filter.mp hx
    exact hfree x hx hexpired t hid

end

section
variable {s : ServiceThreads} (h : s.Answered)
include h

theorem Answered.go {t : Nat} {a : Answering} (hknows : a.Knows s.inserted)
    (hnot : ∀ id, s.threads t ≠ .answered id) : (s.move t a).Answered where
  __ := h
  told u := by
    by_cases hut : u = t
    · subst hut
      rw [move_threads_self]
      exact hknows
    · rw [move_threads_of_ne hut]
      exact h.told u
  done r hr := by
    obtain hfreed | ⟨u, hu⟩ := h.done r hr
    · exact .inl hfreed
    · have hut : u ≠ t := fun hut => hnot r.ctx (hut ▸ hu)
      exact .inr ⟨u, (move_threads_of_ne hut).trans hu⟩

theorem Answered.link (node : ServiceCtx) : (s.link node).Answered where
  told t := (h.told t).mono fun _ hm => List.mem_append_left _ hm
  done := h.done
  single := h.single
  sent r hr := by
    obtain ⟨m, hm, hsent⟩ := h.sent r hr
    exact ⟨m, List.mem_append_left _ hm, hsent⟩

theorem Answered.respond {t : Nat} {m : ServiceCtx} (hm : m ∈ s.inserted)
    (hnot : ∀ id, s.threads t ≠ .answered id)
    (hfirst : m.id ∉ s.responses.map ServiceResponse.ctx) :
    ({ s.move t (.answered m.id) with
      responses := s.responses ++ [⟨m.id, m.msgid, m.serviceMeta⟩] } : ServiceThreads).Answered :=
  have hgo : (s.move t (.answered m.id)).Answered := h.go trivial hnot
  { told := hgo.told
    done := fun r hr => by
      obtain hr | hr := List.mem_append.mp hr
      · exact hgo.done r hr
      · rw [List.mem_singleton] at hr
        subst hr
        exact .inr ⟨t, move_threads_self s t _⟩
    single := by
      rw [List.map_append]
      refine List.Nodup.append h.single (List.nodup_singleton _) fun id hid hid' => hfirst ?_
      rwa [List.mem_singleton.mp hid'] at hid
    sent := fun r hr => by
      obtain hr | hr := List.mem_append.mp hr
      · exact h.sent r hr
      · rw [List.mem_singleton] at hr
        exact ⟨m, hm, by rw [hr], by rw [hr], by rw [hr]⟩ }

theorem Answered.overtimeHandle (uptime : UInt64) : (s.overtimeHandle uptime).Answered where
  __ := h
  done r hr := (h.done r hr).imp_left (List.mem_append_left _)

theorem Answered.delete {t id : Nat} (ht : s.threads t = .answered id) :
    ((s.move t .idle).remove [id]).Answered where
  told u := by
    by_cases hut : u = t
    · subst hut
      rw [show ((s.move u .idle).remove [id]).threads u = .idle from move_threads_self ..]
      exact trivial
    · rw [show ((s.move t .idle).remove [id]).threads u = s.threads u from move_threads_of_ne hut]
      exact h.told u
  done r hr := by
    obtain hfreed | ⟨u, hu⟩ := h.done r hr
    · exact .inl (List.mem_append_left _ hfreed)
    by_cases hut : u = t
    · rw [hut, ht] at hu
      injection hu with hid
      exact .inl (List.mem_append_right _ (hid ▸ List.mem_singleton_self _))
    · exact .inr ⟨u, (move_threads_of_ne hut).trans hu⟩
  single := h.single
  sent := h.sent

end

/-! ## What one step keeps -/

/-- What holds in every state of a careful run. -/
structure Inv (s : ServiceThreads) : Prop where
  owned : s.Owned
  answered : s.Answered

section
variable {s : ServiceThreads} (h : s.Inv)
include h

theorem Inv.insert (malloc : Option Nat) (uptime : UInt64) (msgid : CStr)
    (serviceMeta : ServiceMeta) : (s.next (.insert malloc uptime msgid serviceMeta)).Inv := by
  unfold ServiceThreads.next
  dsimp only
  split
  · next node _ hok =>
    exact ⟨h.owned.insert hok, { h.answered with }⟩
  · exact h

theorem Inv.link : (s.next .link).Inv := by
  unfold ServiceThreads.next
  dsimp only
  split
  · next node hins => exact ⟨h.owned.link hins, h.answered.link node⟩
  · exact h

theorem Inv.overtime {uptime : UInt64} (hc : s.Careful (.overtime uptime)) :
    (s.next (.overtime uptime)).Inv := by
  unfold ServiceThreads.next
  dsimp only
  by_cases hidle : s.inserting = none
  · rw [if_pos hidle]
    exact ⟨h.owned.overtimeHandle (hc hidle), h.answered.overtimeHandle uptime⟩
  · rw [if_neg hidle]
    exact h

variable {t : Nat}

theorem Inv.search {addr : Nat} (hc : s.Careful (.search t addr)) :
    (s.next (.search t addr)).Inv := by
  unfold ServiceThreads.next
  dsimp only
  rw [h.owned.touch_list]
  cases ht : s.threads t with
  | idle =>
    cases hsearch : s.search addr with
    | none => exact h
    | some node =>
      have hnode : node ∈ s.list := List.mem_of_find?_eq_some hsearch
      refine ⟨h.owned.move (fun id hid => ?_) fun id hid u hu => ?_, h.answered.go trivial ?_⟩
      · cases hid
        exact mem_ids.mpr ⟨node, hnode, rfl⟩
      · cases hid
        exact absurd hu (hc ht node hsearch u)
      · rw [ht]
        nofun
  | _ => exact h

theorem Inv.read (garbage : Int32 × Option ServiceMeta) : (s.next (.read t garbage)).Inv := by
  unfold ServiceThreads.next
  dsimp only
  cases ht : s.threads t with
  | checked id =>
    have hid : id ∈ (s.threads t).holds := by rw [ht]; rfl
    have hnot : ∀ id, s.threads t ≠ .answered id := by
      rw [ht]
      nofun
    obtain ⟨m, hm, hmid, hread⟩ := h.owned.content (h.owned.held t id hid) garbage
    dsimp only
    rw [hread, h.owned.touch_held (h.owned.held t id hid)]
    cases hmeta : m.serviceMeta with
    | rrpc text =>
      refine ⟨h.owned.go fun id' hid' => ?_, h.answered.go ⟨m, hm, hmid, rfl, text, hmeta⟩ hnot⟩
      cases hid'
      exact hid
    | general alcsCtx =>
      refine ⟨h.owned.go fun id' hid' => ?_, h.answered.go ⟨m, hm, hmid, rfl, hmeta⟩ hnot⟩
      cases hid'
      exact hid
  | _ => exact h

theorem Inv.unanswered {id : Nat} (hid : id ∈ (s.threads t).holds)
    (hnot : ∀ id, s.threads t ≠ .answered id) : id ∉ s.responses.map ServiceResponse.ctx := by
  intro hmem
  obtain ⟨r, hr, rfl⟩ := List.mem_map.mp hmem
  obtain hfreed | ⟨u, hu⟩ := h.answered.done r hr
  · exact h.owned.live (h.owned.held t r.ctx hid) hfreed
  · have hut : u = t := h.owned.apart u t r.ctx (by rw [hu]; rfl) hid
    exact hnot r.ctx (hut ▸ hu)

theorem Inv.respond {m : ServiceCtx} (hm : m ∈ s.inserted)
    (hid : m.id ∈ (s.threads t).holds) (hnot : ∀ id, s.threads t ≠ .answered id)
    (published : Bool) :
    (if published then
      { s.move t (.answered m.id) with
        responses := s.responses ++ [⟨m.id, m.msgid, m.serviceMeta⟩] }
    else s.move t (.answered m.id) : ServiceThreads).Inv := by
  have hgo : (s.move t (.answered m.id)).Owned := h.owned.go fun id hid' => by
    cases hid'
    exact hid
  cases published with
  | false =>
    rw [if_neg Bool.false_ne_true]
    exact ⟨hgo, h.answered.go trivial hnot⟩
  | true =>
    rw [if_pos rfl]
    exact ⟨{ hgo with }, h.answered.respond hm hnot (h.unanswered hid hnot)⟩

theorem Inv.send (garbage : CStr) (published : Bool) :
    (s.next (.send t garbage published)).Inv := by
  have htold := h.answered.told t
  unfold ServiceThreads.next
  dsimp only
  cases ht : s.threads t with
  | rrpc id msgid =>
    rw [ht] at htold
    obtain ⟨m, hm, rfl, rfl, text, hmeta⟩ := htold
    have hid : m.id ∈ (s.threads t).holds := by rw [ht]; rfl
    have hlisted := h.owned.held t m.id hid
    obtain ⟨m', hm', hmid, hread⟩ := h.owned.content hlisted (0, some (.rrpc garbage))
    obtain rfl : m' = m := h.owned.eq_of_id hm' hm hmid
    dsimp only
    rw [hread, h.owned.touch_held hlisted, hmeta]
    have hsent := h.respond hm hid (fun id => by rw [ht]; nofun) published
    rw [hmeta] at hsent
    exact hsent
  | general id msgid alcsCtx =>
    rw [ht] at htold
    obtain ⟨m, hm, rfl, rfl, hmeta⟩ := htold
    have hid : m.id ∈ (s.threads t).holds := by rw [ht]; rfl
    have hsent := h.respond hm hid (fun id => by rw [ht]; nofun) published
    rw [hmeta] at hsent
    exact hsent
  | _ => exact h

theorem Inv.delete (garbage : Option ServiceMeta) : (s.next (.delete t garbage)).Inv := by
  unfold ServiceThreads.next
  dsimp only
  cases ht : s.threads t with
  | answered id =>
    have hid : id ∈ (s.threads t).holds := by rw [ht]; rfl
    have hlisted := h.owned.held t id hid
    obtain ⟨m, -, -, hread⟩ := h.owned.content hlisted (0, garbage)
    dsimp only
    rw [hread, h.owned.touch_held hlisted]
    refine ⟨?_, h.answered.delete ht⟩
    apply (h.owned.go (a := .idle) nofun).remove (List.nodup_singleton id)
    · exact fun x hx => List.mem_singleton.mp hx ▸ hlisted
    intro u x hx hgone
    rw [List.mem_singleton] at hgone
    subst hgone
    by_cases hut : u = t
    · rw [hut, move_threads_self] at hx
      cases hx
    · rw [move_threads_of_ne hut] at hx
      exact hut (h.owned.apart u t x hx hid)
  | _ => exact h

theorem Inv.next {op : ServiceOp} (hc : s.Careful op) : (s.next op).Inv := by
  cases op with
  | insert malloc uptime msgid serviceMeta => exact h.insert malloc uptime msgid serviceMeta
  | link => exact h.link
  | overtime => exact h.overtime hc
  | search => exact h.search hc
  | read t garbage => exact h.read garbage
  | send t garbage published => exact h.send garbage published
  | delete t garbage => exact h.delete garbage

theorem Inv.answeredOnce : s.AnsweredOnce where
  num := h.owned.num
  room := h.owned.num ▸ Nat.le_trans (Nat.le_add_right _ _) h.owned.room
  distinct := h.owned.distinct
  once := h.owned.once
  clean := ⟨h.owned.faults, (List.nodup_append'.mp h.owned.all_distinct).2.1⟩
  single := h.answered.single
  sent := h.answered.sent

end

theorem expired_settle (node : ServiceCtx) :
    expired uptime (settle uptime node) = expired uptime node := by
  have hsettled : settle uptime (settle uptime node) = settle uptime node := by
    unfold settle
    by_cases hlt : uptime < node.ctime
    · rw [if_pos hlt]
      exact if_neg (UInt64.lt_irrefl _)
    · rw [if_neg hlt, if_neg hlt]
  unfold expired
  rw [hsettled]

theorem overtimeHandle_list (s : ServiceThreads) (uptime : UInt64) :
    ∀ node ∈ (s.overtimeHandle uptime).list, expired uptime node = false := by
  intro node hnode
  obtain ⟨hmap, hkept⟩ := List.mem_filter.mp hnode
  obtain ⟨x, hx, rfl⟩ := List.mem_map.mp hmap
  rw [expired_settle]
  by_contra hexpired
  rw [Bool.not_eq_false] at hexpired
  apply of_decide_eq_true hkept
  rw [settle_id]
  exact mem_ids.mpr ⟨x, List.mem_filter.mpr ⟨hx, hexpired⟩, rfl⟩

/-- In a careful run every context is answered or expired once, and expires in time. -/
theorem answeredOnce_run (ops : List ServiceOp) (hc : Meets next Careful init ops) :
    (run next init ops).AnsweredOnce ∧
    ∀ uptime, ∀ node ∈ ((run next init ops).overtimeHandle uptime).list,
      expired uptime node = false := by
  have hinv : (run next init ops).Inv :=
    run_invariant_of_meets (fun _ _ hc hi => hi.next hc) hc ⟨init_owned, init_answered⟩
  exact ⟨hinv.answeredOnce, overtimeHandle_list _⟩

def requestId : CStr := ⟨[0x37, 0x22], by decide⟩

theorem zero_not_mem_topic : (0 : UInt8) ∉ [0x78] := by decide

/-- The request `7` of the rrpc topic `x` is inserted at the address 1. -/
def insertOps : List ServiceOp :=
  [.insert (some 1) 0 requestId (.rrpc ⟨[0x78], zero_not_mem_topic⟩),
  .link]

def answerOps (thread : Nat) : List ServiceOp :=
  [.read thread (0, none), .send thread .empty true, .delete thread none]

theorem answeredOnce_run_rrpc :
    (run next init (insertOps ++ .search 0 1 :: answerOps 0)).AnsweredOnce ∧
      (run next init (insertOps ++ .search 0 1 :: answerOps 0)).responses =
        [⟨0, 7, .rrpc ⟨[0x78], zero_not_mem_topic⟩⟩] ∧
      (run next init (insertOps ++ .search 0 1 :: answerOps 0)).list = [] ∧
      (run next init (insertOps ++ .search 0 1 :: answerOps 0)).heap.freed = [0] := by
  refine ⟨(answeredOnce_run (insertOps ++ .search 0 1 :: answerOps 0)
    ⟨trivial, trivial, fun _ _ _ _ => nofun, trivial, trivial, trivial, trivial⟩).1, ?_, ?_, ?_⟩
  · decide
  · decide
  · decide

/-- Two threads answer one context, or one expires while a thread is about to. -/
theorem twice_not_answeredOnce :
    ¬ (run next init (insertOps ++ .search 0 1 :: .search 1 1 ::
      (answerOps 0).take 2 ++ answerOps 1)).AnsweredOnce ∧
    ¬ (run next init (insertOps ++ [.search 0 1, .overtime configServiceRequestTimeout,
      .read 0 (0, none)])).AnsweredOnce := by
  refine ⟨fun h => ?_, fun h => ?_⟩
  · have hsingle := h.single
    revert hsingle
    decide
  · have hfaults := h.clean.faults
    revert hfaults
    decide

end ServiceThreads

end AliyunIot.Linkkit
