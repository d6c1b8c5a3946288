import Mathlib.Data.List.Range
import AliyunIot.Lib.Run
import AliyunIot.Linkkit.SyncRequest

/-!
# Replies reach the caller that waits

`SyncKept` says that a request which has heard a reply comes to what the reply says, by the
next steps of its own thread whatever the others do, that every record is removed and every
semaphore destroyed once, neither touched afterwards, and that every thread has unlocked the
linkkit mutex as often as it locked it. `syncKept_run`: this holds in every run in which a
reply is handled only after the record of its request is listed, the topology request is not
given up before it waits, and the topics of a sub-device that was logged in can be subscribed
(`Careful`).
-/

namespace AliyunIot.Linkkit

open Lib

/-- Outside the linkkit mutex. -/
def Syncing.Out : Syncing → Prop
  | .idle | .lock _ => True
  | _ => False

instance : DecidablePred Syncing.Out := fun t => by
  unfold Syncing.Out; cases t <;> infer_instance

namespace SyncThreads

/-- The replies that a thread has heard whose wait is over, or is about to be. -/
def ended : Syncing → Option (List Int)
  | .wait p _ => if p.heard = [] then none else some p.heard
  | .woken p _ | .timedOut p _ _ | .subscribe p => some p.heard
  | .unlock heard _ => some heard
  | _ => none

/-- An operation is the next step of the thread, from its wait on. -/
def takes (t : Nat) (s : SyncThreads) (op : SyncOp) : Bool :=
  match s.threads t, op with
  | .wait _ _, .wake u => u = t
  | .woken _ _, .finish u _ => u = t
  | .timedOut _ _ _, .finish u _ => u = t
  | .subscribe _, .subscribe u _ => u = t
  | .unlock _ _, .unlock u => u = t
  | _, _ => false

/-- The condition on a step. -/
def Careful (s : SyncThreads) : SyncOp → Prop
  | .publish t res => s.threads t = .publish .topoAdd → State.success ≤ res
  | .create t semaphore => ∀ p, s.threads t = .create p → p.request = .topoAdd → semaphore = true
  | .subscribe _ res => res = State.success
  | .reply msgid _ => ∀ t p, s.threads t = .create p ∨ (∃ id, s.threads t = .insert p id) →
    p.msgid ≠ msgid
  | _ => True

/-- What a run has to keep of the requests, the records and the mutex. A thread that has heard a
reply, or has timed out, comes to an outcome of its own by four of its steps at most. -/
structure SyncKept (s : SyncThreads) : Prop where
  returned : ∀ t heard, ended (s.threads t) = some heard → ∀ more, Meets next Careful s more →
    4 ≤ turns next (takes t) s more →
    ∃ o ∈ (run next s more).outcomes.drop s.outcomes.length, o.thread = t ∧ heard <+: o.heard ∧
      ∀ code ∈ o.heard.getLast?, o.res = upstreamCode code
  outcome : ∀ o ∈ s.outcomes, ∀ code ∈ o.heard.getLast?, o.res = upstreamCode code
  distinct : s.inserted.Nodup
  once : (ids s.list ++ s.nodes.freed).Perm s.inserted
  removed : (∀ t, (s.threads t).Out) → s.list = []
  nodes : s.nodes.Clean
  semaphores : s.semaphores.Clean
  destroyed : (∀ t, (s.threads t).Out) → s.semaphores.freed.Perm (List.range s.nextId)
  balanced : ∀ t, s.locks t = s.unlocks t + if (s.threads t).Out then 0 else 1

/-! ## The invariant -/

/-- Every semaphore that was created is destroyed, except these. -/
def Settled (s : SyncThreads) (left : List Nat) : Prop :=
  (left ++ s.semaphores.freed).Perm (List.range s.nextId)

/-- The record of a thread is the only one listed, with the code of its last reply. -/
def Listed (s : SyncThreads) (p : Published) (id : Nat) : Prop :=
  s.Settled [id] ∧ ∃ code, s.list = [⟨id, p.msgid, code⟩] ∧
    ∀ c ∈ p.heard.getLast?, code = upstreamCode c

/-- What the thread under the linkkit mutex has made of the list and the semaphores. -/
def Holds (s : SyncThreads) : Syncing → Prop
  | .idle | .lock _ => False
  | .begin _ | .publish _ => s.list = [] ∧ s.Settled []
  | .create p => s.list = [] ∧ s.Settled [] ∧ p.heard = []
  | .insert p id => s.list = [] ∧ s.Settled [id] ∧ p.heard = [] ∧ s.posted id = 0 ∧ id ∉ s.inserted
  | .wait p id => s.Listed p id ∧ s.posted id = p.heard.length
  | .woken p id => s.Listed p id ∧ p.heard ≠ []
  | .timedOut p id _ => s.Listed p id ∧ p.heard = []
  | .subscribe p =>
    s.list = [] ∧ s.Settled [] ∧ ∀ c ∈ p.heard.getLast?, State.success = upstreamCode c
  | .unlock heard res => s.list = [] ∧ s.Settled [] ∧ ∀ c ∈ heard.getLast?, res = upstreamCode c

/-- The memory in a careful run. -/
structure Mem (s : SyncThreads) : Prop where
  nodeFaults : s.nodes.faults = []
  semaphoreFaults : s.semaphores.faults = []
  distinct : s.inserted.Nodup
  once : (ids s.list ++ s.nodes.freed).Perm s.inserted
  numbered : ∀ id ∈ s.inserted, id < s.nextId
  fresh : ∀ id, s.nextId ≤ id → s.posted id = 0

/-- The invariant of careful runs: one thread is under the mutex, and the others are out. -/
structure Inv (s : SyncThreads) : Prop where
  mem : s.Mem
  out : ∀ t, s.mutex ≠ some t → (s.threads t).Out
  holds : ∀ t, s.mutex = some t → s.Holds (s.threads t)
  free : s.mutex = none → s.list = [] ∧ s.Settled []
  count : ∀ t, s.locks t = s.unlocks t + if s.mutex = some t then 1 else 0
  outcome : ∀ o ∈ s.outcomes, ∀ code ∈ o.heard.getLast?, o.res = upstreamCode code

theorem move_threads_self (s : SyncThreads) (t : Nat) (p : Syncing) :
    (s.move t p).threads t = p := Function.update_self ..

theorem move_threads_of_ne {s : SyncThreads} {t u : Nat} {p : Syncing} (hut : u ≠ t) :
    (s.move t p).threads u = s.threads u := Function.update_of_ne hut ..

theorem init_inv : init.Inv where
  mem := ⟨rfl, rfl, List.nodup_nil, .nil, nofun, fun _ _ => rfl⟩
  out _ _ := trivial
  holds _ := nofun
  free _ := ⟨rfl, .nil⟩
  count _ := rfl
  outcome := nofun

section
variable {s : SyncThreads} (h : s.Inv)
include h

variable {t : Nat}

theorem Inv.holder (ht : ¬ (s.threads t).Out) : s.mutex = some t := by
  by_contra hne
  exact ht (h.out t hne)

theorem Inv.inside {p : Syncing} (ht : s.threads t = p) (hp : ¬ p.Out) :
    s.mutex = some t ∧ s.Holds p := by
  subst ht
  have hm := h.holder hp
  exact ⟨hm, h.holds t hm⟩

theorem Inv.update {s' : SyncThreads} (ht : s.mutex = some t)
    (hmutex : s'.mutex = s.mutex) (hlocks : s'.locks = s.locks) (hunlocks : s'.unlocks = s.unlocks)
    (hothers : ∀ u, u ≠ t → (s'.threads u).Out)
    (houtcome : ∀ o ∈ s'.outcomes, ∀ code ∈ o.heard.getLast?, o.res = upstreamCode code)
    (hmem : s'.Mem) (hholds : s'.Holds (s'.threads t)) : s'.Inv where
  mem := hmem
  out u hu := hothers u fun hut => hu (by rw [hut, hmutex, ht])
  holds u hu := by
    rw [hmutex, ht, Option.some_inj] at hu
    rw [← hu]
    exact hholds
  free hnone := by
    rw [hmutex, ht] at hnone
    cases hnone
  count u := by
    rw [hlocks, hunlocks, hmutex]
    exact h.count u
  outcome := houtcome

theorem Inv.others (ht : s.mutex = some t) {u : Nat} (hut : u ≠ t) : (s.threads u).Out := by
  apply h.out
  rw [ht]
  exact fun heq => hut (Option.some_inj.mp heq).symm

theorem Inv.go (ht : s.mutex = some t) {p : Syncing} (hp : s.Holds p) : (s.move t p).Inv := by
  refine h.update ht rfl rfl rfl (fun u hut => ?_) h.outcome { h.mem with } ?_
  · rw [move_threads_of_ne hut]
    exact h.others ht hut
  · rw [move_threads_self]
    cases p <;> exact hp

end

section
variable {s : SyncThreads}

/-! ## Semaphores and records -/

variable {id : Nat}

theorem Settled.lt {left : List Nat} (h : s.Settled left) (hid : id ∈ left) :
    id < s.nextId := List.mem_range.mp (h.subset (List.mem_append_left _ hid))

theorem Settled.live {left : List Nat} (h : s.Settled left) (hid : id ∈ left) :
    id ∉ s.semaphores.freed := by
  have hnodup : (left ++ s.semaphores.freed).Nodup := h.nodup_iff.mpr List.nodup_range
  exact fun hf => List.disjoint_of_nodup_append hnodup hid hf

theorem Settled.touch (h : s.Settled [id]) : s.semaphores.touch [id] = s.semaphores := by
  apply Ledger.touch_of_live
  intro id' hid'
  rw [List.mem_singleton.mp hid']
  exact h.live List.mem_cons_self

theorem Settled.free (h : s.Settled [id]) :
    s.semaphores.free [id] = ⟨s.semaphores.freed ++ [id], s.semaphores.faults⟩ := by
  apply Ledger.free_of_live
  intro id' hid'
  rw [List.mem_singleton.mp hid']
  exact h.live List.mem_cons_self

theorem Settled.destroyed (h : s.Settled [id]) :
    (s.semaphores.freed ++ [id]).Perm (List.range s.nextId) := List.perm_append_comm.trans h

theorem Settled.create (h : s.Settled []) :
    (s.nextId :: s.semaphores.freed).Perm (List.range (s.nextId + 1)) := by
  rw [List.range_succ]
  exact (h.cons _).trans (List.perm_append_singleton _ _).symm

theorem Mem.live (h : s.Mem) {n : SyncNode} (hlist : s.list = [n]) : n.id ∉ s.nodes.freed := by
  have hnodup := h.once.nodup_iff.mpr h.distinct
  rw [hlist] at hnodup
  exact fun hf => List.disjoint_of_nodup_append hnodup List.mem_cons_self hf

theorem Mem.touch (h : s.Mem) {n : SyncNode} (hlist : s.list = [n]) :
    s.nodes.touch [n.id] = s.nodes := by
  apply Ledger.touch_of_live
  intro id hid
  rw [List.mem_singleton.mp hid]
  exact h.live hlist

theorem Mem.remove (h : s.Mem) {p : Published} (hl : s.Listed p id) :
    s.remove p.msgid = { s with
      list := [], semaphores := ⟨s.semaphores.freed ++ [id], s.semaphores.faults⟩,
      nodes := ⟨s.nodes.freed ++ [id], s.nodes.faults⟩ } := by
  obtain ⟨hsettled, code, hlist, -⟩ := hl
  have hfind : s.list.find? (fun node => node.msgid = p.msgid) = some ⟨id, p.msgid, code⟩ := by
    rw [hlist]
    exact List.find?_cons_of_pos (decide_eq_true rfl)
  have htouch : s.nodes.touch (ids s.list) = s.nodes := by
    rw [hlist]
    exact h.touch hlist
  have hfree : s.nodes.free [id] = ⟨s.nodes.freed ++ [id], s.nodes.faults⟩ := by
    apply Ledger.free_of_live
    intro id' hid'
    rw [List.mem_singleton.mp hid']
    exact h.live hlist
  unfold SyncThreads.remove
  rw [hfind]
  dsimp only
  rw [htouch, hfree, hsettled.free, hlist, List.erase_cons_head]

theorem Mem.of_remove (h : s.Mem) {p : Published} (hl : s.Listed p id) :
    (s.remove p.msgid).Mem ∧ (s.remove p.msgid).list = [] ∧ (s.remove p.msgid).Settled [] := by
  rw [h.remove hl]
  obtain ⟨hsettled, code, hlist, -⟩ := hl
  refine ⟨{ h with once := ?_ }, rfl, hsettled.destroyed⟩
  have honce := h.once
  rw [hlist] at honce
  have hcomm : (s.nodes.freed ++ [id]).Perm ([id] ++ s.nodes.freed) := List.perm_append_comm
  exact hcomm.trans honce

theorem Listed.code {p : Published} (hl : s.Listed p id) (garbage : Int) :
    ∀ c ∈ p.heard.getLast?,
      ((s.list.find? fun node => node.id = id).map SyncNode.code).getD garbage =
        upstreamCode c := by
  obtain ⟨-, code, hlist, hcode⟩ := hl
  intro c hc
  have hfind : s.list.find? (fun node => node.id = id) = some ⟨id, p.msgid, code⟩ := by
    rw [hlist]
    exact List.find?_cons_of_pos (decide_eq_true rfl)
  rw [hfind]
  exact hcode c hc

theorem hear_out {msgid code : Int} {t : Syncing} (ht : t.Out) : (t.hear msgid code).Out := by
  cases t <;> exact ht

theorem reply_of_none {msgid code : Int}
    (hfind : s.list.find? (fun node => node.msgid = msgid) = none)
    (hlive : s.nodes.touch (ids s.list) = s.nodes) :
    s.reply msgid code = { s with threads := fun t => (s.threads t).hear msgid code } := by
  unfold SyncThreads.reply
  rw [hlive]
  dsimp only
  rw [hfind]

theorem Listed.reply {p : Published} (hl : s.Listed p id) (hmem : s.Mem) (code : Int) :
    s.reply p.msgid code = { s with
      threads := fun t => (s.threads t).hear p.msgid code
      list := [⟨id, p.msgid, upstreamCode code⟩]
      posted := Function.update s.posted id (s.posted id + 1) } := by
  obtain ⟨hsettled, old, hlist, -⟩ := hl
  have hfind : s.list.find? (fun node => node.msgid = p.msgid) = some ⟨id, p.msgid, old⟩ := by
    rw [hlist]
    exact List.find?_cons_of_pos (decide_eq_true rfl)
  have htouch : s.nodes.touch (ids s.list) = s.nodes := by
    rw [hlist]
    exact hmem.touch hlist
  unfold SyncThreads.reply
  rw [htouch]
  dsimp only
  rw [hfind]
  dsimp only
  rw [hsettled.touch, hlist, List.map_singleton, if_pos rfl]

theorem getLast?_mem_nil {P : Int → Prop} : ∀ c ∈ ([] : List Int).getLast?, P c := nofun

end

section
variable {s : SyncThreads} (h : s.Inv)
include h

/-! ## The steps -/

theorem Inv.call (t : Nat) (call : SyncCall) : (s.next (.call t call)).Inv := by
  unfold SyncThreads.next
  dsimp only
  split
  next hidle =>
    have hmutex : s.mutex ≠ some t := fun ht => by
      have hholds := h.holds t ht
      rw [hidle] at hholds
      exact hholds
    refine { h with mem := { h.mem with }, out := fun u hu => ?_, holds := fun u hu => ?_ }
    · by_cases hut : u = t
      · rw [hut, move_threads_self]
        exact trivial
      · rw [move_threads_of_ne hut]
        exact h.out u hu
    · have hut : u ≠ t := fun hut => hmutex (hut ▸ hu)
      rw [move_threads_of_ne hut]
      have hholds := h.holds u hu
      cases hp : s.threads u <;> rw [hp] at hholds <;> exact hholds
  · exact h

theorem Inv.lock (t : Nat) : (s.next (.lock t)).Inv := by
  unfold SyncThreads.next
  dsimp only
  cases ht : s.threads t with
  | lock call =>
    dsimp only
    split
    next hfree =>
      refine ⟨{ h.mem with }, fun u hu => ?_, fun u hu => ?_, nofun, fun u => ?_, h.outcome⟩
      · have hut : u ≠ t := fun hut => hu (by rw [hut]; rfl)
        rw [move_threads_of_ne hut]
        exact h.out u (by rw [hfree]; nofun)
      · cases hu
        rw [move_threads_self]
        exact h.free hfree
      · have hcount := h.count u
        rw [hfree] at hcount
        change Function.update s.locks t (s.locks t + 1) u = s.unlocks u +
          if some t = some u then 1 else 0
        by_cases hut : u = t
        · subst hut
          rw [Function.update_self, if_pos rfl, hcount]
          simp
        · rw [Function.update_of_ne hut,
            if_neg fun heq => hut (Option.some_inj.mp heq).symm, hcount]
          simp
    · exact h
  | _ => exact h

theorem Inv.begin (t : Nat) (early : Option Int) : (s.next (.begin t early)).Inv := by
  unfold SyncThreads.next
  dsimp only
  cases ht : s.threads t with
  | begin call =>
    obtain ⟨hm, hholds⟩ := h.inside ht id
    cases early with
    | some res => exact h.go hm ⟨hholds.1, hholds.2, getLast?_mem_nil⟩
    | none => exact h.go hm hholds
  | _ => exact h

variable {t : Nat}

theorem Inv.publish {res : Int} (hc : s.Careful (.publish t res)) :
    (s.next (.publish t res)).Inv := by
  unfold SyncThreads.next
  dsimp only
  cases ht : s.threads t with
  | publish request =>
    obtain ⟨hm, hholds⟩ := h.inside ht id
    dsimp only
    by_cases hres : res < State.success
    · rw [if_pos hres, giveUp]
      have hnot : request ≠ .topoAdd := by
        rintro rfl
        exact absurd (hc ht) (Int.not_le.mpr hres)
      rw [if_neg hnot]
      exact h.go hm ⟨hholds.1, hholds.2, getLast?_mem_nil⟩
    rw [if_neg hres]
    split
    · exact h.go hm hholds
    · exact h.go hm ⟨hholds.1, hholds.2, rfl⟩
  | _ => exact h

theorem Inv.create {semaphore : Bool} (hc : s.Careful (.create t semaphore)) :
    (s.next (.create t semaphore)).Inv := by
  unfold SyncThreads.next
  dsimp only
  cases ht : s.threads t with
  | create p =>
    obtain ⟨hm, hlist, hsettled, hheard⟩ := h.inside ht id
    dsimp only
    by_cases hsem : semaphore = false
    · rw [if_pos hsem, giveUp]
      have hnot : p.request ≠ .topoAdd := by
        intro hreq
        rw [hc p ht hreq] at hsem
        cases hsem
      rw [if_neg hnot, hheard]
      exact h.go hm ⟨hlist, hsettled, getLast?_mem_nil⟩
    rw [if_neg hsem]
    refine h.update hm rfl rfl rfl (fun u hut => ?_) h.outcome ?_ ?_
    · exact (move_threads_of_ne hut).symm ▸ h.others hm hut
    · refine { h.mem with
        numbered := fun id hid => Nat.lt_succ_of_lt (h.mem.numbered id hid)
        fresh := fun id hid => h.mem.fresh id (Nat.le_of_succ_le hid) }
    · have hself := move_threads_self s t (.insert p s.nextId)
      dsimp only
      rw [hself]
      exact ⟨hlist, hsettled.create, hheard, h.mem.fresh _ (Nat.le_refl _),
        fun hid => Nat.lt_irrefl _ (h.mem.numbered _ hid)⟩
  | _ => exact h

theorem Inv.insert (t : Nat) (malloc : Bool) : (s.next (.insert t malloc)).Inv := by
  unfold SyncThreads.next
  dsimp only
  cases ht : s.threads t with
  | insert p id =>
    obtain ⟨hm, hlist, hsettled, hheard, hposted, hnew⟩ := h.inside ht fun h => h
    have htouch : s.nodes.touch (ids s.list) = s.nodes := by
      rw [hlist]
      exact Ledger.touch_of_live nofun
    dsimp only
    rw [SyncThreads.insert, htouch]
    dsimp only
    rw [if_neg (by rw [hlist]; exact Bool.false_ne_true)]
    have hout : ∀ p u, u ≠ t → ((s.move t p).threads u).Out := by
      intro p u hut
      rw [move_threads_of_ne hut]
      exact h.others hm hut
    cases malloc with
    | false =>
      rw [if_pos rfl, hsettled.free]
      refine h.update hm rfl rfl rfl (hout _) h.outcome { h.mem with } ?_
      have hself := move_threads_self s t (.unlock p.heard State.sysDependMalloc)
      dsimp only
      rw [hheard] at hself ⊢
      rw [hself]
      exact ⟨hlist, hsettled.destroyed, getLast?_mem_nil⟩
    | true =>
      rw [if_neg (by decide)]
      refine h.update hm rfl rfl rfl (hout _) h.outcome ?_ ?_
      · refine { h.mem with distinct := ?_, once := ?_, numbered := fun i hi => ?_ }
        · refine List.nodup_append'.mpr ⟨h.mem.distinct, List.nodup_singleton _, fun i hi hi' => ?_⟩
          exact hnew (List.mem_singleton.mp hi' ▸ hi)
        · have honce := h.mem.once
          rw [hlist] at honce
          dsimp only
          rw [hlist]
          exact (honce.cons id).trans (List.perm_append_singleton _ _).symm
        · rcases List.mem_append.mp hi with hi | hi
          · exact h.mem.numbered i hi
          · rw [List.mem_singleton.mp hi]
            exact hsettled.lt List.mem_cons_self
      · have hself := move_threads_self s t (.wait p id)
        dsimp only
        rw [hself]
        refine ⟨⟨hsettled, 0, by rw [hlist], ?_⟩, ?_⟩
        · rw [hheard]
          exact getLast?_mem_nil
        · rw [hheard]
          exact hposted
  | _ => exact h

theorem Inv.wake (t : Nat) : (s.next (.wake t)).Inv := by
  unfold SyncThreads.next
  dsimp only
  cases ht : s.threads t with
  | wait p id =>
    obtain ⟨hm, hlisted, hposted⟩ := h.inside ht fun h => h
    dsimp only
    rw [hlisted.1.touch]
    by_cases hzero : s.posted id = 0
    · rw [if_pos hzero]
      exact h
    rw [if_neg hzero]
    refine h.update hm rfl rfl rfl (fun u hut => ?_) h.outcome ?_ ?_
    · exact (move_threads_of_ne hut).symm ▸ h.others hm hut
    · refine { h.mem with fresh := fun i hi => ?_ }
      have hne : i ≠ id := fun heq =>
        Nat.lt_irrefl _ (Nat.lt_of_lt_of_le (hlisted.1.lt List.mem_cons_self) (heq ▸ hi))
      exact (Function.update_of_ne hne ..).trans (h.mem.fresh i hi)
    · have hself := move_threads_self s t (.woken p id)
      dsimp only
      rw [hself]
      refine ⟨hlisted, fun hnil => hzero ?_⟩
      rw [hposted, hnil]
      rfl
  | _ => exact h

theorem Inv.timeout (t : Nat) (res : Int) : (s.next (.timeout t res)).Inv := by
  unfold SyncThreads.next
  dsimp only
  cases ht : s.threads t with
  | wait p id =>
    obtain ⟨hm, hlisted, hposted⟩ := h.inside ht fun h => h
    dsimp only
    rw [hlisted.1.touch]
    split
    next hout =>
      -- a reply that was handled has been posted
      refine h.go hm ⟨hlisted, ?_⟩
      rw [hout.1] at hposted
      exact List.length_eq_zero_iff.mp hposted.symm
    · exact h
  | _ => exact h

theorem Inv.finish (t : Nat) (garbage : Int) : (s.next (.finish t garbage)).Inv := by
  unfold SyncThreads.next
  dsimp only
  cases ht : s.threads t with
  | woken p id =>
    obtain ⟨hm, hlisted, hheard⟩ := h.inside ht fun h => h
    obtain ⟨hmem, hlist, hsettled⟩ := h.mem.of_remove hlisted
    have hcode := hlisted.code garbage
    have htouch : s.nodes.touch [id] = s.nodes := by
      obtain ⟨-, code, hl, -⟩ := hlisted
      exact h.mem.touch hl
    have hinv : ∀ q, (s.remove p.msgid).Holds q → ((s.remove p.msgid).move t q).Inv := by
      intro q hq
      rw [h.mem.remove hlisted] at hq hmem ⊢
      refine h.update hm rfl rfl rfl (fun u hut => ?_) h.outcome { hmem with } ?_
      · rw [move_threads_of_ne hut]
        exact h.others hm hut
      · rw [move_threads_self]
        cases q <;> exact hq
    dsimp only
    rw [SyncThreads.finish, htouch]
    by_cases hcase : ((s.list.find? fun node => node.id = id).map SyncNode.code).getD garbage ≠
        State.success
    · rw [if_pos hcase]
      refine hinv _ ⟨hlist, hsettled, fun c hc => ?_⟩
      have hrefused := hcode c hc
      unfold upstreamCode at hrefused ⊢
      split at hrefused
      · exact absurd hrefused hcase
      next hne => rw [if_neg hne]
    · rw [if_neg hcase]
      have hsuccess : ∀ c ∈ p.heard.getLast?, State.success = upstreamCode c :=
        fun c hc => (not_not.mp hcase).symm.trans (hcode c hc)
      unfold granted
      cases p.request with
      | register =>
        have hgo := hinv (.publish .topoAdd) ⟨hlist, hsettled⟩
        refine { hgo with mem := { hgo.mem with }, outcome := fun o ho => ?_ }
        rcases List.mem_append.mp ho with ho | ho
        · exact hgo.outcome o ho
        · rw [List.mem_singleton.mp ho]
          exact hsuccess
      | login => exact hinv _ ⟨hlist, hsettled, hsuccess⟩
      | _ => exact hinv _ ⟨hlist, hsettled, hsuccess⟩
  | timedOut p id res =>
    obtain ⟨hm, hlisted, hheard⟩ := h.inside ht fun h => h
    obtain ⟨hmem, hlist, hsettled⟩ := h.mem.of_remove hlisted
    dsimp only
    rw [hheard, h.mem.remove hlisted]
    rw [h.mem.remove hlisted] at hmem hsettled
    refine h.update hm rfl rfl rfl (fun u hut => ?_) h.outcome { hmem with } ?_
    · rw [move_threads_of_ne hut]
      exact h.others hm hut
    · rw [move_threads_self]
      exact ⟨rfl, hsettled, getLast?_mem_nil⟩
  | _ => exact h

theorem Inv.subscribe {res : Int} (hc : s.Careful (.subscribe t res)) :
    (s.next (.subscribe t res)).Inv := by
  unfold SyncThreads.next
  dsimp only
  cases ht : s.threads t with
  | subscribe p =>
    obtain ⟨hm, hholds⟩ := h.inside ht fun h => h
    obtain rfl : res = State.success := hc
    exact h.go hm hholds
  | _ => exact h

theorem Inv.unlock (t : Nat) : (s.next (.unlock t)).Inv := by
  unfold SyncThreads.next
  dsimp only
  cases ht : s.threads t with
  | unlock heard res =>
    obtain ⟨hm, hlist, hsettled, hres⟩ := h.inside ht fun h => h
    refine ⟨{ h.mem with }, fun u _ => ?_, nofun, fun _ => ⟨hlist, hsettled⟩, fun u => ?_,
      fun o ho => ?_⟩
    · by_cases hut : u = t
      · rw [hut]
        exact (move_threads_self (s.mutexUnlock t) t .idle).symm ▸ trivial
      · exact (move_threads_of_ne hut).symm ▸ h.others hm hut
    · have hcount := h.count u
      rw [hm] at hcount
      change s.locks u = Function.update s.unlocks t (s.unlocks t + 1) u + 0
      by_cases hut : u = t
      · subst hut
        rw [Function.update_self, hcount, if_pos rfl]
      · rw [Function.update_of_ne hut, hcount,
          if_neg fun heq => hut (Option.some_inj.mp heq).symm]
    · rcases List.mem_append.mp ho with ho | ho
      · exact h.outcome o ho
      · rw [List.mem_singleton.mp ho]
        exact hres
  | _ => exact h

theorem Inv.hear_others (ht : s.mutex = some t) (msgid code : Int) {u : Nat}
    (hut : u ≠ t) : ((s.threads u).hear msgid code).Out := hear_out (h.others ht hut)

variable {code : Int}

variable {msgid : Int}

theorem Inv.reply_unlisted (ht : s.mutex = some t)
    (hfind : s.list.find? (fun node => node.msgid = msgid) = none)
    (hlive : s.nodes.touch (ids s.list) = s.nodes)
    (hholds : s.Holds ((s.threads t).hear msgid code)) : (s.reply msgid code).Inv := by
  rw [reply_of_none hfind hlive]
  refine h.update ht rfl rfl rfl (fun u hut => h.hear_others ht msgid code hut) h.outcome
    { h.mem with } ?_
  dsimp only
  cases hp : (s.threads t).hear msgid code <;> rw [hp] at hholds <;> exact hholds

theorem Inv.reply_listed (ht : s.mutex = some t) {p : Published} {id : Nat} (hl : s.Listed p id)
    (hholds : ({ s with
      list := [⟨id, p.msgid, upstreamCode code⟩]
      posted := Function.update s.posted id (s.posted id + 1) } : SyncThreads).Holds
        ((s.threads t).hear p.msgid code)) : (s.reply p.msgid code).Inv := by
  rw [hl.reply h.mem]
  refine h.update ht rfl rfl rfl (fun u hut => h.hear_others ht p.msgid code hut) h.outcome
    { h.mem with once := ?_, fresh := fun i hi => ?_ } ?_
  · obtain ⟨-, old, hlist, -⟩ := hl
    have honce := h.mem.once
    rw [hlist] at honce
    exact honce
  · have hne : i ≠ id := fun heq =>
      Nat.lt_irrefl _ (Nat.lt_of_lt_of_le (hl.1.lt List.mem_cons_self) (heq ▸ hi))
    exact (Function.update_of_ne hne ..).trans (h.mem.fresh i hi)
  · dsimp only
    cases hp : (s.threads t).hear p.msgid code <;> rw [hp] at hholds <;> exact hholds

theorem Inv.reply_at (ht : s.mutex = some t) {p : Published} {id : Nat} (hl : s.Listed p id)
    (hother : p.msgid ≠ msgid → s.Holds ((s.threads t).hear msgid code)) (hown : ({ s with
      list := [⟨id, p.msgid, upstreamCode code⟩]
      posted := Function.update s.posted id (s.posted id + 1) } : SyncThreads).Holds
        ((s.threads t).hear p.msgid code)) : (s.reply msgid code).Inv := by
  by_cases hm : p.msgid = msgid
  · subst hm
    exact h.reply_listed ht hl hown
  · have hlisted := hl
    obtain ⟨-, old, hlist, -⟩ := hlisted
    refine h.reply_unlisted ht ?_ ?_ (hother hm)
    · rw [hlist]
      exact List.find?_cons_of_neg (by simpa using hm)
    · rw [hlist]
      exact h.mem.touch hlist

theorem Inv.reply (hc : s.Careful (.reply msgid code)) : (s.reply msgid code).Inv := by
  cases hmutex : s.mutex with
  | none =>
    obtain ⟨hlist, hsettled⟩ := h.free hmutex
    have hfind : s.list.find? (fun node => node.msgid = msgid) = none := by rw [hlist]; rfl
    have hlive : s.nodes.touch (ids s.list) = s.nodes := by
      rw [hlist]
      exact Ledger.touch_of_live nofun
    rw [reply_of_none hfind hlive]
    have hout : ∀ u, ((s.threads u).hear msgid code).Out :=
      fun u => hear_out (h.out u (by rw [hmutex]; nofun))
    refine { h with mem := { h.mem with }, out := fun u _ => hout u, holds := fun u hu => ?_ }
    rw [hmutex] at hu
    cases hu
  | some t =>
    have hholds := h.holds t hmutex
    have hempty : s.list = [] → s.Holds ((s.threads t).hear msgid code) →
        (s.reply msgid code).Inv := by
      intro hlist
      apply h.reply_unlisted hmutex
      · rw [hlist]
        rfl
      · rw [hlist]
        exact Ledger.touch_of_live nofun
    cases ht : s.threads t with
    | idle | lock => rw [ht] at hholds; exact hholds.elim
    | begin | publish | subscribe | unlock =>
      rw [ht] at hholds hempty
      exact hempty hholds.1 hholds
    | create p =>
      rw [ht] at hholds hempty
      refine hempty hholds.1 ?_
      rw [Syncing.hear, Published.hear, if_neg (hc t p (.inl ht))]
      exact hholds
    | insert p id =>
      rw [ht] at hholds hempty
      refine hempty hholds.1 ?_
      rw [Syncing.hear, Published.hear, if_neg (hc t p (.inr ⟨id, ht⟩))]
      exact hholds
    | wait p id =>
      rw [ht] at hholds
      refine h.reply_at hmutex hholds.1 (fun hm => ?_) ?_
      · rw [ht, Syncing.hear, Published.hear, if_neg hm]
        exact hholds
      · rw [ht, Syncing.hear, Published.hear, if_pos rfl]
        refine ⟨⟨hholds.1.1, _, rfl, fun c hlast => ?_⟩, ?_⟩
        · rw [List.getLast?_concat] at hlast
          cases hlast
          rfl
        · rw [List.length_append, ← hholds.2]
          exact Function.update_self ..
    | woken p id =>
      rw [ht] at hholds
      refine h.reply_at hmutex hholds.1 (fun hm => ?_) ?_
      · rw [ht, Syncing.hear, Published.hear, if_neg hm]
        exact hholds
      · rw [ht, Syncing.hear, Published.hear, if_pos rfl]
        refine ⟨⟨hholds.1.1, _, rfl, fun c hlast => ?_⟩, List.concat_ne_nil _ _⟩
        rw [List.getLast?_concat] at hlast
        cases hlast
        rfl
    | timedOut p id res =>
      rw [ht] at hholds
      refine h.reply_at hmutex hholds.1 (fun _ => by rw [ht]; exact hholds) ?_
      rw [ht]
      refine ⟨⟨hholds.1.1, _, rfl, ?_⟩, hholds.2⟩
      rw [hholds.2]
      exact getLast?_mem_nil

theorem Inv.next {op : SyncOp} (hc : s.Careful op) : (s.next op).Inv := by
  cases op with
  | call t call => exact h.call t call
  | lock t => exact h.lock t
  | begin t early => exact h.begin t early
  | publish t res => exact h.publish hc
  | create t semaphore => exact h.create hc
  | insert t malloc => exact h.insert t malloc
  | wake t => exact h.wake t
  | timeout t res => exact h.timeout t res
  | finish t garbage => exact h.finish t garbage
  | subscribe t res => exact h.subscribe hc
  | unlock t => exact h.unlock t
  | reply msgid code => exact h.reply hc

theorem Inv.not_out (ht : s.mutex = some t) : ¬ (s.threads t).Out := by
  have hholds := h.holds t ht
  cases hp : s.threads t <;> rw [hp] at hholds <;> first | exact hholds.elim | exact id

theorem Inv.free_of_out (hout : ∀ t, (s.threads t).Out) : s.list = [] ∧ s.Settled [] := by
  cases hmutex : s.mutex with
  | none => exact h.free hmutex
  | some t => exact absurd (hout t) (h.not_out hmutex)

theorem Inv.semaphores_nodup : s.semaphores.freed.Nodup := by
  have hperm : ∃ left, s.Settled left := by
    cases hmutex : s.mutex with
    | none => exact ⟨_, (h.free hmutex).2⟩
    | some t =>
      have hholds := h.holds t hmutex
      cases hp : s.threads t <;> rw [hp] at hholds
      case idle | lock => exact hholds.elim
      case begin | publish => exact ⟨_, hholds.2⟩
      case create | insert | subscribe | unlock => exact ⟨_, hholds.2.1⟩
      case wait | woken | timedOut => exact ⟨_, hholds.1.1⟩
  obtain ⟨left, hleft⟩ := hperm
  exact (List.nodup_append'.mp (hleft.nodup_iff.mpr List.nodup_range)).2.1

theorem Inv.careful_reply {p : Published} {id : Nat} (ht : s.threads t = .wait p id)
    (msgid code : Int) : s.Careful (.reply msgid code) := by
  have hm := h.holder (t := t) (by rw [ht]; exact fun h => h)
  rintro u q (hu | ⟨id', hu⟩)
  all_goals
    have hut : s.mutex = some u := h.holder (by rw [hu]; exact fun h => h)
    rw [hm, Option.some_inj] at hut
    rw [← hut, ht] at hu
    cases hu

/-! ## The return -/

end

section
variable {s : SyncThreads} {t : Nat} {heard : List Int}

def AtEnd (t : Nat) (heard : List Int) (s : SyncThreads) : Prop :=
  s.Inv ∧ ∃ heard', ended (s.threads t) = some heard' ∧ heard <+: heard'

def stepsLeft : Syncing → Nat
  | .wait _ _ => 3
  | .woken _ _ => 2
  | .timedOut _ _ _ | .subscribe _ => 1
  | _ => 0

/-- A step of the thread: it moves no other thread, and forgets no outcome. -/
def Moves (s : SyncThreads) (t : Nat) (s' : SyncThreads) : Prop :=
  (∃ p, s'.threads = Function.update s.threads t p) ∧ s.outcomes <+: s'.outcomes

theorem Moves.refl (s : SyncThreads) (t : Nat) : s.Moves t s :=
  ⟨⟨s.threads t, (Function.update_eq_self t s.threads).symm⟩, List.prefix_rfl⟩

theorem move_moves (s : SyncThreads) (t : Nat) (p : Syncing) : s.Moves t (s.move t p) :=
  ⟨⟨p, rfl⟩, List.prefix_rfl⟩

theorem giveUp_moves (s : SyncThreads) (t : Nat) (request : SyncRequest) (heard : List Int)
    (res : Int) : s.Moves t (s.giveUp t request heard res) := by
  unfold giveUp
  split
  · exact ⟨⟨_, rfl⟩, List.prefix_rfl⟩
  · exact s.move_moves t _

theorem insert_moves (s : SyncThreads) (t : Nat) (p : Published) (id : Nat) (malloc : Bool) :
    s.Moves t (s.insert t p id malloc) := by
  unfold insert
  dsimp only
  split
  · exact ⟨⟨_, rfl⟩, List.prefix_rfl⟩
  split <;> exact ⟨⟨_, rfl⟩, List.prefix_rfl⟩

theorem remove_frame (s : SyncThreads) (msgid : Int) :
    (s.remove msgid).threads = s.threads ∧ (s.remove msgid).outcomes = s.outcomes := by
  unfold remove
  split <;> exact ⟨rfl, rfl⟩

theorem granted_moves (s : SyncThreads) (t : Nat) (p : Published) : s.Moves t (s.granted t p) := by
  unfold granted
  split
  · exact ⟨⟨_, rfl⟩, List.prefix_append _ _⟩
  · exact s.move_moves t _
  · exact s.move_moves t _

theorem Moves.of_remove {msgid : Int} (nodes : Ledger) {s' : SyncThreads}
    (h : ({ s with nodes := nodes }.remove msgid).Moves t s') : s.Moves t s' := by
  obtain ⟨hthreads, houtcomes⟩ := remove_frame { s with nodes := nodes } msgid
  unfold Moves at h
  rwa [hthreads, houtcomes] at h

theorem finish_moves (s : SyncThreads) (t : Nat) (p : Published) (id : Nat) (garbage : Int) :
    s.Moves t (s.finish t p id garbage) := by
  unfold finish
  dsimp only
  split
  · exact .of_remove _ (move_moves _ t _)
  · exact .of_remove _ (granted_moves _ t p)

/-- The thread that takes a step, if it is not the one that delivers the replies. -/
def thread : SyncOp → Option Nat
  | .call t _ | .lock t | .begin t _ | .publish t _ | .create t _ | .insert t _ | .wake t
  | .timeout t _ | .finish t _ | .subscribe t _ | .unlock t => some t
  | .reply _ _ => none

theorem next_moves {op : SyncOp} (hop : thread op = some t) : s.Moves t (s.next op) := by
  cases op <;> cases hop <;> unfold next <;> dsimp only
  case call => split <;> first | exact s.move_moves t _ | exact .refl s t
  case lock =>
    split
    · split
      · exact ⟨⟨_, rfl⟩, List.prefix_rfl⟩
      · exact .refl s t
    · exact .refl s t
  case begin =>
    split
    · split <;> exact s.move_moves t _
    · exact .refl s t
  case publish =>
    split
    · split
      · exact s.giveUp_moves t _ _ _
      split <;> exact s.move_moves t _
    · exact .refl s t
  case create =>
    split
    · split
      · exact s.giveUp_moves t _ _ _
      · exact ⟨⟨_, rfl⟩, List.prefix_rfl⟩
    · exact .refl s t
  case insert =>
    split
    · exact s.insert_moves t _ _ _
    · exact .refl s t
  case wake =>
    split
    · split
      · exact ⟨⟨s.threads t, (Function.update_eq_self t s.threads).symm⟩, List.prefix_rfl⟩
      · exact ⟨⟨_, rfl⟩, List.prefix_rfl⟩
    · exact .refl s t
  case timeout =>
    split
    · split
      · exact ⟨⟨_, rfl⟩, List.prefix_rfl⟩
      · exact ⟨⟨s.threads t, (Function.update_eq_self t s.threads).symm⟩, List.prefix_rfl⟩
    · exact .refl s t
  case finish =>
    split
    · exact s.finish_moves t _ _ _
    · exact .of_remove s.nodes (move_moves _ t _)
    · exact .refl s t
  case subscribe =>
    split
    · exact s.move_moves t _
    · exact .refl s t
  case unlock =>
    split
    · exact ⟨⟨_, rfl⟩, List.prefix_append _ _⟩
    · exact .refl s t

theorem reply_frame (s : SyncThreads) (msgid code : Int) :
    (s.reply msgid code).threads = (fun t => (s.threads t).hear msgid code) ∧
      (s.reply msgid code).outcomes = s.outcomes := by
  unfold reply
  dsimp only
  split <;> exact ⟨rfl, rfl⟩

theorem outcomes_next (s : SyncThreads) (op : SyncOp) : s.outcomes <+: (s.next op).outcomes := by
  cases hop : thread op with
  | some t => exact (next_moves hop).2
  | none =>
    cases op <;> cases hop
    exact (s.reply_frame _ _).2 ▸ List.prefix_rfl

theorem ended_hear (msgid code : Int) {t : Syncing} {heard : List Int} (h : ended t = some heard) :
    ∃ heard', ended (t.hear msgid code) = some heard' ∧ heard <+: heard' ∧
      stepsLeft (t.hear msgid code) = stepsLeft t := by
  have hhear : ∀ p : Published, p.heard <+: (p.hear msgid code).heard := by
    intro p
    unfold Published.hear
    split
    · exact List.prefix_append _ _
    · exact List.prefix_rfl
  cases t with
  | wait p id =>
    simp only [ended] at h
    split at h
    · cases h
    next hne =>
      cases h
      have hne' : (p.hear msgid code).heard ≠ [] := (hhear p).ne_nil hne
      exact ⟨_, if_neg hne', hhear p, rfl⟩
  | woken p id =>
    cases h
    exact ⟨_, rfl, hhear p, rfl⟩
  | timedOut | subscribe | unlock => exact ⟨heard, h, List.prefix_rfl, rfl⟩
  | _ => cases h

theorem granted_self (s : SyncThreads) (t : Nat) (p : Published) :
    (s.granted t p).outcomes = s.outcomes ++ [⟨t, p.heard, State.success⟩] ∨
      ∃ q, (s.granted t p).threads t = q ∧ ended q = some p.heard ∧ stepsLeft q ≤ 1 := by
  unfold granted
  split
  · exact .inl rfl
  · exact .inr ⟨_, move_threads_self s t _, rfl, Nat.le_refl _⟩
  · exact .inr ⟨_, move_threads_self s t _, rfl, Nat.zero_le _⟩

theorem finish_self (s : SyncThreads) (t : Nat) (p : Published) (id : Nat) (garbage : Int) :
    (s.finish t p id garbage).outcomes = s.outcomes ++ [⟨t, p.heard, State.success⟩] ∨
      ∃ q, (s.finish t p id garbage).threads t = q ∧ ended q = some p.heard ∧ stepsLeft q ≤ 1 := by
  unfold finish
  dsimp only
  split
  · exact .inr ⟨_, move_threads_self _ t _, rfl, Nat.zero_le _⟩
  · have hgranted := granted_self ({ s with nodes := s.nodes.touch [id] }.remove p.msgid) t p
    rwa [(remove_frame _ _).2] at hgranted

theorem AtEnd.own (h : AtEnd t heard s) {op : SyncOp} (hop : takes t s op = true)
    (hs : (s.next op).Inv) :
    (∃ o ∈ (s.next op).outcomes.drop s.outcomes.length, o.thread = t ∧ heard <+: o.heard) ∨
      AtEnd t heard (s.next op) ∧
        stepsLeft ((s.next op).threads t) + 1 ≤ stepsLeft (s.threads t) := by
  obtain ⟨hinv, heard', hended, hprefix⟩ := h
  have hat : ∀ {n q}, (s.next op).threads t = q → ended q = some heard' → stepsLeft q + 1 ≤ n →
      AtEnd t heard (s.next op) ∧ stepsLeft ((s.next op).threads t) + 1 ≤ n :=
    fun hq hend hlt => ⟨⟨hs, heard', by rw [hq]; exact hend, hprefix⟩, by rw [hq]; exact hlt⟩
  have hout : ∀ {res}, (s.next op).outcomes = s.outcomes ++ [⟨t, heard', res⟩] →
      ∃ o ∈ (s.next op).outcomes.drop s.outcomes.length, o.thread = t ∧ heard <+: o.heard := by
    intro res hres
    rw [hres, List.drop_left]
    exact ⟨_, List.mem_singleton_self _, rfl, hprefix⟩
  unfold takes at hop
  cases hplace : s.threads t with
  | wait p id =>
    rw [hplace] at hop hended
    cases op with
    | wake u =>
      obtain rfl : u = t := by simpa using hop
      simp only [ended] at hended
      split at hended
      · cases hended
      next hne =>
        cases hended
        -- a reply that was heard has been posted
        have hposted : s.posted id ≠ 0 := by
          rw [(hinv.inside hplace fun h => h).2.2]
          exact fun hzero => hne (List.length_eq_zero_iff.mp hzero)
        have hwoken : (s.next (.wake u)).threads u = .woken p id := by
          simp only [next, hplace, if_neg hposted]
          exact move_threads_self _ u _
        exact .inr (hat hwoken rfl (Nat.le_refl _))
    | _ => cases hop
  | woken p id =>
    rw [hplace] at hop hended
    cases op with
    | finish u garbage =>
      obtain rfl : u = t := by simpa using hop
      cases hended
      have hnext : s.next (.finish u garbage) = s.finish u p id garbage := by
        simp only [next, hplace]
      rcases finish_self s u p id garbage with houtcomes | ⟨q, hq, hend, hle⟩
      · exact .inl (hout (hnext ▸ houtcomes))
      · exact .inr (hat (hnext ▸ hq) hend (Nat.succ_le_succ hle))
    | _ => cases hop
  | timedOut p id res =>
    rw [hplace] at hop hended
    cases op with
    | finish u garbage =>
      obtain rfl : u = t := by simpa using hop
      cases hended
      have hunlock : (s.next (.finish u garbage)).threads u = .unlock p.heard
          (if p.request = .login then res else State.sysDependSemaphoreWait) := by
        simp only [next, hplace]
        exact move_threads_self _ u _
      exact .inr (hat hunlock rfl (Nat.le_refl _))
    | _ => cases hop
  | subscribe p =>
    rw [hplace] at hop hended
    cases op with
    | subscribe u res =>
      obtain rfl : u = t := by simpa using hop
      cases hended
      have hunlock : (s.next (.subscribe u res)).threads u = .unlock p.heard res := by
        simp only [next, hplace]
        exact move_threads_self _ u _
      exact .inr (hat hunlock rfl (Nat.le_refl _))
    | _ => cases hop
  | unlock heard' res =>
    rw [hplace] at hop hended
    cases op with
    | unlock u =>
      obtain rfl : u = t := by simpa using hop
      cases hended
      refine .inl (@hout res ?_)
      simp only [next, hplace, mutexUnlock, move]
    | _ => cases hop
  | _ =>
    rw [hplace] at hop
    cases op <;> cases hop

theorem AtEnd.stays (h : AtEnd t heard s) {op : SyncOp} (hop : takes t s op = false) {u : Nat}
    (hu : thread op = some u) : (s.next op).threads t = s.threads t := by
  by_cases hut : u = t
  · subst hut
    obtain ⟨hinv, heard', hended, -⟩ := h
    unfold takes at hop
    cases hplace : s.threads u with
    | wait p id =>
      have hposted := (hinv.inside hplace fun h => h).2.2
      rw [hplace] at hop hended
      cases op with
      | wake v =>
        cases hu
        simp at hop
      | timeout v res =>
        cases hu
        simp only [ended] at hended
        split at hended
        · cases hended
        next hne =>
          have hzero : ¬ (s.posted id = 0 ∧ res < State.success) := fun hout =>
            hne (List.length_eq_zero_iff.mp (hposted.symm.trans hout.1))
          simp only [next, hplace, if_neg hzero]
      | reply msgid code => cases hu
      | _ =>
        cases hu
        simp only [next, hplace, reduceCtorEq, if_false]
    | woken p id =>
      rw [hplace] at hop
      cases op with
      | finish v garbage =>
        cases hu
        simp at hop
      | reply msgid code => cases hu
      | _ =>
        cases hu
        simp only [next, hplace, reduceCtorEq, if_false]
    | timedOut p id res =>
      rw [hplace] at hop
      cases op with
      | finish v garbage =>
        cases hu
        simp at hop
      | reply msgid code => cases hu
      | _ =>
        cases hu
        simp only [next, hplace, reduceCtorEq, if_false]
    | subscribe p =>
      rw [hplace] at hop
      cases op with
      | subscribe v res =>
        cases hu
        simp at hop
      | reply msgid code => cases hu
      | _ =>
        cases hu
        simp only [next, hplace, reduceCtorEq, if_false]
    | unlock heard res =>
      rw [hplace] at hop
      cases op with
      | unlock v =>
        cases hu
        simp at hop
      | reply msgid code => cases hu
      | _ =>
        cases hu
        simp only [next, hplace, reduceCtorEq, if_false]
    | _ =>
      rw [hplace] at hended
      cases hended
  · obtain ⟨⟨q, hq⟩, -⟩ := next_moves hu
    rw [hq]
    exact Function.update_of_ne (Ne.symm hut) ..

theorem AtEnd.step (h : AtEnd t heard s) {op : SyncOp} (hc : s.Careful op) :
    (∃ o ∈ (s.next op).outcomes.drop s.outcomes.length, o.thread = t ∧ heard <+: o.heard) ∨
      AtEnd t heard (s.next op) ∧
        stepsLeft ((s.next op).threads t) + (if takes t s op then 1 else 0) ≤
          stepsLeft (s.threads t) := by
  have hinv : (s.next op).Inv := h.1.next hc
  cases hop : takes t s op with
  | true => exact h.own hop hinv
  | false =>
    refine .inr ?_
    obtain ⟨-, heard', hended, hprefix⟩ := id h
    cases hu : thread op with
    | some u =>
      rw [h.stays hop hu]
      exact ⟨⟨hinv, heard', by rw [h.stays hop hu]; exact hended, hprefix⟩, Nat.le_refl _⟩
    | none =>
      cases op with
      | reply msgid code =>
        have hplace : (s.next (.reply msgid code)).threads t = (s.threads t).hear msgid code :=
          congrFun (s.reply_frame msgid code).1 t
        obtain ⟨heard'', hended', hmore, hleft⟩ := ended_hear msgid code hended
        rw [hplace, hleft]
        exact ⟨⟨hinv, heard'', by rw [hplace]; exact hended', hprefix.trans hmore⟩, Nat.le_refl _⟩
      | _ => cases hu

theorem mem_drop_of_prefix {α : Type} {l l' : List α} (h : l <+: l') {n : Nat} {a : α}
    (ha : a ∈ l.drop n) : a ∈ l'.drop n := by
  obtain ⟨l', rfl⟩ := h
  rw [List.drop_append]
  exact List.mem_append_left _ ha

theorem Inv.returned (h : s.Inv) (hended : ended (s.threads t) = some heard) {more : List SyncOp}
    (hm : Meets SyncThreads.next Careful s more)
    (hturns : 4 ≤ turns SyncThreads.next (takes t) s more) :
    ∃ o ∈ (run SyncThreads.next s more).outcomes.drop s.outcomes.length,
      o.thread = t ∧ heard <+: o.heard ∧
        ∀ code ∈ o.heard.getLast?, o.res = upstreamCode code := by
  have hrank : stepsLeft (s.threads t) < turns SyncThreads.next (takes t) s more := by
    have hle : stepsLeft (s.threads t) ≤ 3 := by cases s.threads t <;> simp [stepsLeft]
    omega
  obtain ⟨o, ho, hot, hheard⟩ :=
    run_reaches (I := fun s' => AtEnd t heard s' ∧ s.outcomes <+: s'.outcomes)
      (R := fun s' => stepsLeft (s'.threads t))
      (G := fun s' => ∃ o ∈ s'.outcomes.drop s.outcomes.length, o.thread = t ∧ heard <+: o.heard)
      (fun s' op ⟨o, ho, hot⟩ => ⟨o, mem_drop_of_prefix (outcomes_next s' op) ho, hot⟩)
      (fun s' op hc ⟨hat, hmore⟩ => by
        rcases hat.step hc with ⟨o, ho, hot⟩ | ⟨hat', hleft⟩
        · exact .inl ⟨o, List.drop_subset_drop_left _ hmore.length_le ho, hot⟩
        · exact .inr ⟨⟨hat', hmore.trans (outcomes_next s' op)⟩, hleft⟩)
      hm ⟨⟨h, heard, hended, List.prefix_rfl⟩, List.prefix_rfl⟩ hrank
  have hinv : (run SyncThreads.next s more).Inv :=
    run_invariant_of_meets (I := Inv) (fun _ _ hc h => h.next hc) hm h
  exact ⟨o, ho, hot, hheard, hinv.outcome o (List.mem_of_mem_drop ho)⟩

theorem Inv.syncKept (h : s.Inv) : s.SyncKept where
  returned _ _ hended _ hm hturns := h.returned hended hm hturns
  outcome := h.outcome
  distinct := h.mem.distinct
  once := h.mem.once
  removed hout := (h.free_of_out hout).1
  nodes := ⟨h.mem.nodeFaults,
    (List.nodup_append'.mp (h.mem.once.nodup_iff.mpr h.mem.distinct)).2.1⟩
  semaphores := ⟨h.mem.semaphoreFaults, h.semaphores_nodup⟩
  destroyed hout := (h.free_of_out hout).2
  balanced t := by
    rw [h.count t]
    by_cases ht : s.mutex = some t
    · rw [if_pos ht, if_neg (h.not_out ht)]
    · rw [if_neg ht, if_pos (h.out t ht)]

end

/-- In a careful run every reply reaches the caller that waits for it. -/
theorem syncKept_run (ops : List SyncOp) (hc : Meets next Careful init ops) :
    (run next init ops).SyncKept :=
  (run_invariant_of_meets (I := Inv) (fun _ _ hc h => h.next hc) hc init_inv).syncKept

/-- A thread logs a sub-device in, up to the publish of message 1. -/
def loginOps : List SyncOp := [.call 0 .login, .lock 0, .begin 0 none, .publish 0 1]

def listOps : List SyncOp := [.create 0 true, .insert 0 true]

def returnOps : List SyncOp := [.finish 0 0, .subscribe 0 State.success, .unlock 0]

theorem syncKept_run_login :
    (run next init (loginOps ++ listOps ++ .reply 1 200 :: .wake 0 :: returnOps)).SyncKept ∧
      (run next init (loginOps ++ listOps ++ .reply 1 200 :: .wake 0 :: returnOps)).outcomes =
        [⟨0, [200], State.success⟩] ∧
      (run next init (loginOps ++ listOps ++ .reply 1 200 :: .wake 0 :: returnOps)).list = [] ∧
      (run next init (loginOps ++ listOps ++
        .reply 1 200 :: .wake 0 :: returnOps)).semaphores.freed = [0] := by
  refine ⟨syncKept_run _ ?_, by decide, by decide, by decide⟩
  have hlist : Meets next Careful init (loginOps ++ listOps) :=
    ⟨trivial, trivial, trivial, nofun, fun _ _ _ => rfl, trivial, trivial⟩
  have hinv : (run next init (loginOps ++ listOps)).Inv :=
    run_invariant_of_meets (I := Inv) (fun _ _ hc h => h.next hc) hlist init_inv
  have hwait : (run next init (loginOps ++ listOps)).threads 0 = .wait ⟨.login, 1, []⟩ 0 := by
    decide
  refine meets_append.mpr ⟨hlist, ?_⟩
  exact ⟨hinv.careful_reply hwait 1 200, trivial, trivial, rfl, trivial, trivial⟩

def earlyReplyOps : List SyncOp :=
  loginOps ++ .reply 1 200 :: listOps ++ .timeout 0 State.sysDependSemaphoreWait :: returnOps

/-- The topology request of a registered sub-device is refused. -/
def topoAddFailsOps : List SyncOp :=
  [.call 0 .connect, .lock 0, .begin 0 none, .publish 0 State.success,
    .publish 0 State.sysDependMalloc, .unlock 0]

/-- A reply is lost, and a mutex is unlocked twice. -/
theorem reply_lost_unlocked_twice :
    ¬ (run next init earlyReplyOps).SyncKept ∧ ¬ (run next init topoAddFailsOps).SyncKept := by
  refine ⟨fun h => ?_, fun h => ?_⟩
  · have houtcome := h.outcome
    revert houtcome
    decide
  · have hbalanced := h.balanced 0
    revert hbalanced
    decide

end SyncThreads

end AliyunIot.Linkkit
