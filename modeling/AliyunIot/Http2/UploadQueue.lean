import Mathlib.Data.List.Nodup
import AliyunIot.Lib.Run
import AliyunIot.Http2.UploadRange

/-!
# Uploads are handled once and in order

`Sound` says what has to hold of the queue in every state, and what every careful continuation of
the run comes to. `sound_iff_careful`: it holds in every state of a run exactly if every step of the
run is `Careful`. The invariant relates the list to what was inserted (`Queue`), to the nodes that
the threads hold (`Work`) and to the callbacks (`Answers`).
-/

namespace AliyunIot.Http2.Upload

open Lib State

/-- The node that a thread has begun. -/
def Worker.held : Worker → Option Nat
  | .begun id | .opening id _ | .sending id _ | .closing id | .finished id => some id
  | _ => Option.none

/-- The node whose callback is still to be made. -/
def Worker.due : Worker → Option Nat
  | .begun id | .opening id _ | .sending id _ | .closing id => some id
  | _ => Option.none

/-- A thread that will look at the list again. -/
def Worker.Live : Worker → Prop
  | .none | .leaving => False
  | _ => True

/-- A part as it was set up, so that its end is ahead. -/
def Transfer.Ahead (x : Transfer) : Prop :=
  0 < x.partLen ∧ x.streamLen = (Transfer.part x.uploadLen x.partLen x.fileOffset).streamLen

def Worker.Ahead : Worker → Prop
  | .sending _ x => x.Ahead
  | _ => True

/-- A request that may still create a thread for its node. -/
def Caller.pending : Caller → Option Nat
  | .testing id | .creating id => some id
  | _ => none

/-- The node of a request that is in the list. -/
def Caller.named : Caller → Option Nat
  | .testing id | .creating id | .storing id => some id
  | _ => none

/-- The node of a request that is not in the list yet. -/
def Caller.fresh : Caller → Option Nat
  | .inserting node => some node.id
  | _ => none

def Caller.node? : Caller → Option Nat
  | .inserting node => some node.id
  | .testing id | .creating id | .storing id => some id
  | _ => none

namespace Uploads

/-- How often the callback of a node was made. -/
def answers (s : Uploads) (id : Nat) : Nat := (s.callbacks.map Prod.fst).count id

/-- No node waits without a thread, or a request other than these, that cares for it. -/
def Served (s : Uploads) (done : Nat → Prop) : Prop :=
  s.initState → s.fileList ≠ [] →
    (∃ w, (s.workers w).Live) ∨ ∃ t, ¬ done t ∧ (s.callers t).pending.isSome

/-- The condition on a step. -/
def Careful (s : Uploads) : Op → Prop
  | .request t p malloc =>
    s.callers t = .idle → p.check = success → malloc = true → s.disconnecting ≠ .closed
  | .insert t => ∀ node, s.callers t = .inserting node → s.disconnecting ≠ .closed
  | .test t => ∀ id, s.callers t = .testing id → s.fileThread → s.Served (· = t)
  | .create t _ ok => ∀ id, s.callers t = .creating id → ok = false →
    id ∉ ids s.fileList ∧ s.Served (· = t)
  | .search t => ∀ idx command, s.callers t = .searching idx command → s.disconnecting ≠ .closed
  | .stop t => ∀ id, s.callers t = .stopping id → id ∈ ids s.fileList
  | .top w => s.workers w = .top → s.http2Handle ∧ s.handleFreed = false
  | .take w => s.workers w = .locking → s.disconnecting ≠ .closed ∧
    ∀ id ∈ (ids s.fileList).head?, ∀ w', (s.workers w').held ≠ some id
  | .handle w _ => ∀ id, s.workers w = .begun id → s.http2Handle → id ∈ ids s.fileList
  | .open w _ _ => ∀ id filesize, s.workers w = .opening id filesize →
    id ∈ ids s.fileList ∧ s.handleFreed = false
  | .send w _ _ res => ∀ id x, s.workers w = .sending id x →
    if x.sendLen < x.streamLen then id ∈ ids s.fileList ∧ s.handleFreed = false
    else x.streamLen = 0 ∧ res < success → id ∈ ids s.fileList
  | .close w => ∀ id, s.workers w = .closing id → id ∈ ids s.fileList ∧ s.handleFreed = false
  | .remove w => ∀ id, s.workers w = .finished id → id ∈ ids s.fileList
  | .destroy => s.disconnecting = .dropped →
    s.fileList = [] ∧ ∀ t, (s.callers t).fresh = none
  | _ => True

/-- An operation is the next step of a thread that uploads, where it stands. -/
def takes (w : Nat) (s : Uploads) (op : Op) : Bool :=
  match s.workers w, op with
  | .top, .top v => v = w
  | .locking, .take v => v = w
  | .begun _, .handle v _ => v = w
  | .opening _ _, .open v _ _ => v = w
  | .sending _ _, .send v _ _ _ => v = w
  | .closing _, .close v => v = w
  | .finished _, .remove v => v = w
  | _, _ => false

/-- An operation is the next step of a request, where it stands. -/
def asks (t : Nat) (s : Uploads) (op : Op) : Bool :=
  match s.callers t, op with
  | .inserting _, .insert u => u = t
  | .testing _, .test u => u = t
  | .creating _, .create u w ok => u = t ∧ (ok = false ∨ s.workers w = .none)
  | .storing _, .store u => u = t
  | _, _ => false

/-- What has to hold of the queue. A request returns by four of its own steps, and a thread that
looks at the list again handles every node of it by finitely many of its own, in whatever order the
others take theirs. -/
structure Sound (s : Uploads) : Prop where
  defined : s.fault = false
  order : s.taken.Sublist s.inserted
  once : s.inserted.Nodup
  processed : s.initState → ∀ id ∈ s.accepted,
    id ∈ s.taken ∧ id ∈ s.gone ∨ id ∈ ids s.fileList
  atMostOne : ∀ id, s.answers id ≤ 1
  answered : s.initState → ∀ id ∈ s.asked, id ∈ s.gone → s.answers id = 1
  refused : ∀ id ∈ s.refused, id ∉ ids s.fileList
  served : s.Served fun _ => False
  returned : ∀ t id, (s.callers t).node? = some id → ∀ more, Meets next Careful s more →
    4 ≤ turns next (asks t) s more →
    id ∈ (run next s more).accepted ∨ id ∈ (run next s more).refused
  handled : ∀ w, (s.workers w).Live → ∀ id ∈ ids s.fileList, ∃ n, ∀ more,
    Meets next Careful s more → n ≤ turns next (takes w) s more → (run next s more).initState →
    id ∈ (run next s more).taken ∧ id ∈ (run next s more).gone ∧
      (id ∈ s.asked → (run next s more).answers id = 1)
  rest : s.initState → (∀ w, ¬ (s.workers w).Live) → (∀ t, (s.callers t).pending = none) →
    s.fileList = [] ∧ ∀ id ∈ s.accepted, id ∈ s.taken ∧ id ∈ s.gone ∧
      (id ∈ s.asked → s.answers id = 1)
  released : s.disconnecting = .closed → s.allocated = []

/-! ## The invariant -/

/-- The list and what was put into it and taken out of it. -/
structure Queue (s : Uploads) : Prop where
  split : s.inserted = s.gone ++ ids s.fileList
  nodup : s.inserted.Nodup
  bound : ∀ id ∈ s.inserted, id < s.nextId
  fresh : ∀ t id, (s.callers t).fresh = some id → id < s.nextId ∧ id ∉ s.inserted
  apart : ∀ t t' id, (s.callers t).fresh = some id → (s.callers t').fresh = some id → t = t'
  named : ∀ t id, (s.callers t).named = some id → id ∈ s.inserted
  asked : ∀ node ∈ s.fileList, node.endCb = true ↔ node.id ∈ s.asked
  askedOf : ∀ id ∈ s.asked, id ∈ s.inserted
  accepted : ∀ id ∈ s.accepted, id ∈ s.inserted
  refused : ∀ id ∈ s.refused, id ∈ s.gone
  allocated : ∀ id, id ∈ s.allocated ↔
    id ∈ ids s.fileList ∨ ∃ t, (s.callers t).fresh = some id
  allocatedOnce : s.allocated.Nodup

/-- The nodes that were begun, and the threads that hold them. -/
structure Work (s : Uploads) : Prop where
  held : ∀ w id, (s.workers w).held = some id →
    id ∈ s.taken ∧ (id ∈ ids s.fileList → (ids s.fileList).head? = some id)
  unique : ∀ w w' id, (s.workers w).held = some id → (s.workers w').held = some id → w = w'
  order : s.taken.Sublist (s.gone ++ (ids s.fileList).take 1)
  current : ∀ id, (ids s.fileList).head? = some id → id ∈ s.taken →
    ∃ w, (s.workers w).held = some id
  processed : s.initState → ∀ id ∈ s.gone, id ∈ s.taken
  kept : s.initState → ∀ w id, (s.workers w).held = some id → id ∈ ids s.fileList

structure Answers (s : Uploads) : Prop where
  atMostOne : ∀ id, s.answers id ≤ 1
  untaken : ∀ id, id ∉ s.taken → s.answers id = 0
  due : ∀ w id, (s.workers w).due = some id → s.answers id = 0
  done : s.http2Handle → ∀ id ∈ s.asked, id ∈ s.taken → (∀ w, (s.workers w).due ≠ some id) →
    s.answers id = 1

structure Inv (s : Uploads) : Prop where
  defined : s.fault = false
  queue : s.Queue
  works : s.Work
  answered : s.Answers
  served : s.Served fun _ => False
  closed : s.disconnecting = .closed → s.fileList = [] ∧ ∀ t, (s.callers t).fresh = none
  opened : s.http2Handle = true ↔ s.disconnecting ≠ .closed
  running : s.initState = true ↔ s.disconnecting = .no
  ahead : ∀ w, (s.workers w).Ahead

theorem init_inv (uploadIdx : Int) : (init uploadIdx).Inv where
  defined := rfl
  queue := ⟨rfl, List.nodup_nil, nofun, nofun, nofun, nofun, nofun, nofun, nofun, nofun,
    fun id => by simp [init, ids, Caller.fresh], List.nodup_nil⟩
  works := ⟨nofun, nofun, List.Sublist.refl _, nofun, nofun, nofun⟩
  answered := ⟨fun _ => Nat.zero_le _, fun _ _ => rfl, nofun, nofun⟩
  served _ h := absurd rfl h
  closed := nofun
  opened := by simp [init]
  running := by simp [init]
  ahead _ := trivial

section Basic

variable {s : Uploads} {t w : Nat} {c : Caller} {p : Worker}

theorem callers_call (s : Uploads) (t : Nat) (c : Caller) (t' : Nat) :
    (s.call t c).callers t' = if t' = t then c else s.callers t' := Function.update_apply ..

theorem workers_work (s : Uploads) (w : Nat) (p : Worker) (w' : Nat) :
    (s.work w p).workers w' = if w' = w then p else s.workers w' := Function.update_apply ..

theorem held_of_due {id : Nat} (h : p.due = some id) : p.held = some id := by
  cases p <;> simp_all [Worker.due, Worker.held]

theorem node?_eq_none_iff (s : Uploads) (id : Nat) : s.node? id = none ↔ id ∉ ids s.fileList := by
  simp [node?, ids]

theorem Queue.not_mem (h : s.Queue) {id : Nat} (hgone : id ∈ s.gone) : id ∉ ids s.fileList := by
  have hnodup := h.nodup
  rw [h.split] at hnodup
  exact List.disjoint_of_nodup_append hnodup hgone

theorem Queue.subset (h : s.Queue) (hw : s.Work) : ∀ id ∈ s.taken, id ∈ s.inserted := by
  intro id hid
  rw [h.split]
  rcases List.mem_append.mp (hw.order.subset hid) with hgone | hhead
  · exact List.mem_append_left _ hgone
  · exact List.mem_append_right _ (List.mem_of_mem_take hhead)

theorem Inv.processed (h : s.Inv) (hinit : s.initState) (id : Nat) (hid : id ∈ s.accepted) :
    id ∈ s.taken ∧ id ∈ s.gone ∨ id ∈ ids s.fileList := by
  have hmem := h.queue.accepted id hid
  rw [h.queue.split] at hmem
  exact (List.mem_append.mp hmem).imp_left fun hgone => ⟨h.works.processed hinit id hgone, hgone⟩

theorem Inv.answers_of_gone (h : s.Inv) (hinit : s.initState) (id : Nat) (hasked : id ∈ s.asked)
    (hgone : id ∈ s.gone) : s.answers id = 1 := by
  have htaken := h.works.processed hinit id hgone
  refine h.answered.done ?_ id hasked htaken fun w hdue => ?_
  · rw [h.opened, h.running.mp hinit]
    simp
  · exact h.queue.not_mem hgone (h.works.kept hinit w id (held_of_due hdue))

end Basic

/-! ## Steps of the application -/

section Callers

variable {s : Uploads} {t : Nat} {c : Caller} {id : Nat}

theorem served_call_iff (hc : c.pending = none) :
    (s.call t c).Served (fun _ => False) ↔ s.Served (· = t) := by
  have hpending : (∃ t', ¬ False ∧ ((s.call t c).callers t').pending.isSome) ↔
      ∃ t', ¬ t' = t ∧ (s.callers t').pending.isSome := by
    refine exists_congr fun t' => ?_
    rw [callers_call]
    by_cases ht : t' = t
    · simp [ht, hc]
    · simp [ht]
  exact imp_congr_right fun _ => imp_congr_right fun _ => or_congr_right hpending

theorem Served.except (h : s.Served fun _ => False) (ht : (s.callers t).pending = none) :
    s.Served (· = t) := by
  intro hinit hlist
  refine (h hinit hlist).imp_right ?_
  rintro ⟨t', -, hpending⟩
  refine ⟨t', ?_, hpending⟩
  rintro rfl
  simp [ht] at hpending

theorem served_of_pending {done : Nat → Prop} (ht : ¬ done t)
    (hpending : (s.callers t).pending.isSome) : s.Served done :=
  fun _ _ => .inr ⟨t, ht, hpending⟩

theorem fresh_call (hfresh : (s.callers t).fresh = none) (hc : c.fresh = none) (t' : Nat) :
    ((s.call t c).callers t').fresh = (s.callers t').fresh := by
  rw [callers_call]
  split
  · rename_i ht
    rw [ht, hfresh, hc]
  · rfl

theorem Queue.call (h : s.Queue) (hfresh : (s.callers t).fresh = none) (hc : c.fresh = none)
    (hnamed : ∀ id, c.named = some id → id ∈ s.inserted) : (s.call t c).Queue := by
  have heq := fresh_call hfresh hc
  refine { h with fresh := ?_, apart := ?_, named := ?_, allocated := ?_ }
  · simp only [heq]
    exact h.fresh
  · simp only [heq]
    exact h.apart
  · intro t' id hid
    rw [callers_call] at hid
    split at hid
    · exact hnamed id hid
    · exact h.named t' id hid
  · simp only [heq]
    exact h.allocated

theorem Inv.call (h : s.Inv) (hfresh : (s.callers t).fresh = none) (hc : c.fresh = none)
    (hnamed : ∀ id, c.named = some id → id ∈ s.inserted)
    (hserved : (s.call t c).Served fun _ => False) : (s.call t c).Inv := by
  refine { h with
    queue := h.queue.call hfresh hc hnamed, works := ?_, answered := ?_, served := hserved
    closed := ?_ }
  · exact { h.works with }
  · exact { h.answered with }
  · intro hclosed
    refine ⟨(h.closed hclosed).1, fun t' => ?_⟩
    rw [fresh_call hfresh hc]
    exact (h.closed hclosed).2 t'

theorem Inv.call_of_idle (h : s.Inv) (hfresh : (s.callers t).fresh = none)
    (hpending : (s.callers t).pending = none) (hc : c.fresh = none ∧ c.pending = none)
    (hnamed : c.named = none) : (s.call t c).Inv :=
  h.call hfresh hc.1 (fun _ hid => by rw [hnamed] at hid; cases hid)
    ((served_call_iff hc.2).mpr (h.served.except hpending))

theorem Inv.accept (h : s.Inv) (hid : id ∈ s.inserted) :
    Inv { s with accepted := s.accepted ++ [id] } := by
  refine { h with queue := { h.queue with accepted := ?_ }, works := ?_, answered := ?_ }
  · intro id' hid'
    rcases List.mem_append.mp hid' with hid' | hid'
    · exact h.queue.accepted id' hid'
    · rw [List.mem_singleton.mp hid']
      exact hid
  · exact { h.works with }
  · exact { h.answered with }

theorem Inv.refuse (h : s.Inv) (hid : id ∈ s.inserted) (hout : id ∉ ids s.fileList) :
    Inv { s with refused := s.refused ++ [id] } := by
  refine { h with queue := { h.queue with refused := ?_ }, works := ?_, answered := ?_ }
  · intro id' hid'
    rcases List.mem_append.mp hid' with hid' | hid'
    · exact h.queue.refused id' hid'
    · rw [List.mem_singleton.mp hid']
      rw [h.queue.split] at hid
      exact (List.mem_append.mp hid).resolve_right hout
  · exact { h.works with }
  · exact { h.answered with }

theorem Inv.thread (h : s.Inv) (fileThread : Bool) : Inv { s with fileThread := fileThread } := by
  refine { h with queue := { h.queue with }, works := ?_, answered := ?_ }
  · exact { h.works with }
  · exact { h.answered with }

theorem lt_nextId (h : s.Inv) (hid : id ∈ s.allocated) : id < s.nextId := by
  rw [h.queue.allocated] at hid
  rcases hid with hlist | ⟨t, ht⟩
  · apply h.queue.bound
    rw [h.queue.split]
    exact List.mem_append_right _ hlist
  · exact (h.queue.fresh t id ht).1

theorem fresh_call_self (s : Uploads) (t : Nat) (c : Caller) :
    ((s.call t c).callers t).fresh = c.fresh := by
  rw [callers_call, if_pos rfl]

theorem fresh_call_of_ne {t' : Nat} (ht : t' ≠ t) :
    ((s.call t c).callers t').fresh = (s.callers t').fresh := by
  rw [callers_call, if_neg ht]

theorem Inv.allocate (h : s.Inv) (hidle : s.callers t = .idle) (hopen : s.disconnecting ≠ .closed)
    (p : UploadParams) (uploadIdx : Int) :
    Inv { s.call t (.inserting (p.node s.nextId uploadIdx)) with
      uploadIdx := s.uploadIdx + 1, nextId := s.nextId + 1
      allocated := s.allocated ++ [s.nextId] } := by
  have hnew : s.nextId ∉ s.inserted := fun hmem => Nat.lt_irrefl _ (h.queue.bound _ hmem)
  have hself : ∀ id, ((s.call t (.inserting (p.node s.nextId uploadIdx))).callers t).fresh =
      some id ↔ s.nextId = id := by
    intro id
    rw [fresh_call_self]
    simp [Caller.fresh, UploadParams.node]
  have hother : ∀ t' ≠ t, ∀ id,
      ((s.call t (.inserting (p.node s.nextId uploadIdx))).callers t').fresh = some id →
        id < s.nextId ∧ id ∉ s.inserted ∧ (s.callers t').fresh = some id := by
    intro t' ht' id hid
    rw [fresh_call_of_ne ht'] at hid
    exact ⟨(h.queue.fresh t' id hid).1, (h.queue.fresh t' id hid).2, hid⟩
  have hidle' : (s.callers t).fresh = none := by rw [hidle]; rfl
  refine { h with
    queue := { h.queue with
      bound := ?_, fresh := ?_, apart := ?_, named := ?_, allocated := ?_, allocatedOnce := ?_ }
    works := { h.works with }, answered := { h.answered with }, served := ?_
    closed := fun hclosed => absurd hclosed hopen }
  · intro id hid
    exact Nat.lt_succ_of_lt (h.queue.bound id hid)
  · intro t' id hid
    by_cases ht' : t' = t
    · rw [ht'] at hid
      obtain rfl := (hself id).mp hid
      exact ⟨Nat.lt_succ_self _, hnew⟩
    · obtain ⟨hlt, hnot, -⟩ := hother t' ht' id hid
      exact ⟨Nat.lt_succ_of_lt hlt, hnot⟩
  · intro t₁ t₂ id h₁ h₂
    by_cases ht₁ : t₁ = t
    · by_cases ht₂ : t₂ = t
      · rw [ht₁, ht₂]
      · rw [ht₁] at h₁
        obtain rfl := (hself id).mp h₁
        exact absurd (hother t₂ ht₂ _ h₂).1 (Nat.lt_irrefl _)
    · by_cases ht₂ : t₂ = t
      · rw [ht₂] at h₂
        obtain rfl := (hself id).mp h₂
        exact absurd (hother t₁ ht₁ _ h₁).1 (Nat.lt_irrefl _)
      · exact h.queue.apart t₁ t₂ id (hother t₁ ht₁ id h₁).2.2 (hother t₂ ht₂ id h₂).2.2
  · intro t' id hid
    rw [callers_call] at hid
    split at hid
    · simp [Caller.named] at hid
    · exact h.queue.named t' id hid
  · intro id
    rw [List.mem_append, h.queue.allocated, List.mem_singleton, or_assoc]
    refine or_congr_right ⟨?_, ?_⟩
    · rintro (⟨t', ht'⟩ | rfl)
      · refine ⟨t', ?_⟩
        rw [fresh_call_of_ne ?_, ht']
        rintro rfl
        rw [hidle'] at ht'
        cases ht'
      · exact ⟨t, (hself _).mpr rfl⟩
    · rintro ⟨t', ht'⟩
      by_cases heq : t' = t
      · rw [heq] at ht'
        exact .inr ((hself id).mp ht').symm
      · exact .inl ⟨t', (hother t' heq id ht').2.2⟩
  · refine List.nodup_append.mpr ⟨h.queue.allocatedOnce, List.nodup_singleton _, ?_⟩
    intro id hid id' hid'
    rw [List.mem_singleton.mp hid']
    exact Nat.ne_of_lt (lt_nextId h hid)
  · have hpending : (s.callers t).pending = none := by rw [hidle]; rfl
    exact (served_call_iff (c := .inserting (p.node s.nextId uploadIdx)) rfl).mpr
      (h.served.except hpending)

theorem head?_append_of_mem {l : List Nat} {a b : Nat} (h : a ∈ l) :
    (l ++ [b]).head? = l.head? := by
  cases l with
  | nil => cases h
  | cons c l => rfl

theorem Inv.insert {node : FileStream} (h : s.Inv) (ht : s.callers t = .inserting node)
    (hopen : s.disconnecting ≠ .closed) : (s.insert t node).Inv := by
  have hfresh : (s.callers t).fresh = some node.id := by rw [ht]; rfl
  obtain ⟨hlt, hnew⟩ := h.queue.fresh t node.id hfresh
  have huntaken : node.id ∉ s.taken := fun hmem => hnew (h.queue.subset h.works _ hmem)
  have hids : ids (s.fileList ++ [node]) = ids s.fileList ++ [node.id] := by simp [ids]
  have hother : ∀ t' id, ((s.call t (.testing node.id)).callers t').fresh = some id →
      t' ≠ t ∧ (s.callers t').fresh = some id := by
    intro t' id hid
    by_cases ht' : t' = t
    · rw [ht', fresh_call_self] at hid
      cases hid
    · exact ⟨ht', by rwa [fresh_call_of_ne ht'] at hid⟩
  rw [Uploads.insert, if_neg hopen]
  refine { h with
    queue := { h.queue with
      split := ?_, nodup := ?_, bound := ?_, fresh := ?_, apart := ?_, named := ?_, asked := ?_,
      askedOf := ?_, accepted := ?_, allocated := ?_ }
    works := { h.works with held := ?_, order := ?_, current := ?_, kept := ?_ }
    answered := { h.answered with done := ?_ }
    served := ?_, closed := fun hclosed => absurd hclosed hopen }
  · show s.inserted ++ [node.id] = s.gone ++ ids (s.fileList ++ [node])
    rw [hids, h.queue.split, List.append_assoc]
  · refine List.nodup_append.mpr ⟨h.queue.nodup, List.nodup_singleton _, ?_⟩
    intro id hid id' hid'
    rw [List.mem_singleton.mp hid']
    rintro rfl
    exact hnew hid
  · intro id hid
    rcases List.mem_append.mp hid with hid | hid
    · exact h.queue.bound id hid
    · rwa [List.mem_singleton.mp hid]
  · intro t' id hid
    obtain ⟨hne, hid⟩ := hother t' id hid
    refine ⟨(h.queue.fresh t' id hid).1, fun hmem => ?_⟩
    rcases List.mem_append.mp hmem with hmem | hmem
    · exact (h.queue.fresh t' id hid).2 hmem
    · rw [List.mem_singleton.mp hmem] at hid
      exact hne (h.queue.apart t' t _ hid hfresh)
  · intro t₁ t₂ id h₁ h₂
    exact h.queue.apart t₁ t₂ id (hother t₁ id h₁).2 (hother t₂ id h₂).2
  · intro t' id hid
    rw [callers_call] at hid
    split at hid
    · cases hid
      exact List.mem_append_right _ (List.mem_singleton_self _)
    · exact List.mem_append_left _ (h.queue.named t' id hid)
  · intro n hn
    rcases List.mem_append.mp hn with hn | hn
    · have hmem : n.id ∈ s.inserted := by
        rw [h.queue.split]
        exact List.mem_append_right _ (List.mem_map_of_mem hn)
      have hne : n.id ≠ node.id := fun heq => hnew (heq ▸ hmem)
      rw [h.queue.asked n hn]
      split <;> simp [hne]
    · rw [List.mem_singleton.mp hn]
      have hunasked : node.id ∉ s.asked := fun hmem => hnew (h.queue.askedOf _ hmem)
      split <;> simp_all
  · intro id hid
    have hid' : id ∈ s.asked ∨ id = node.id := by
      revert hid
      split
      · simp
      · exact .inl
    rcases hid' with hid' | rfl
    · exact List.mem_append_left _ (h.queue.askedOf id hid')
    · exact List.mem_append_right _ (List.mem_singleton_self _)
  · exact fun id hid => List.mem_append_left _ (h.queue.accepted id hid)
  · intro id
    show id ∈ s.allocated ↔ id ∈ ids (s.fileList ++ [node]) ∨ _
    rw [hids, List.mem_append, List.mem_singleton, h.queue.allocated, or_assoc]
    refine or_congr_right ⟨?_, ?_⟩
    · rintro ⟨t', ht'⟩
      by_cases heq : t' = t
      · rw [heq, hfresh] at ht'
        exact .inl (Option.some.inj ht').symm
      · exact .inr ⟨t', (fresh_call_of_ne heq).trans ht'⟩
    · rintro (rfl | ⟨t', ht'⟩)
      · exact ⟨t, hfresh⟩
      · exact ⟨t', (hother t' id ht').2⟩
  · intro w id hid
    obtain ⟨htaken, hhead⟩ := h.works.held w id hid
    refine ⟨htaken, fun hmem => ?_⟩
    have hmem' : id ∈ ids (s.fileList ++ [node]) := hmem
    rw [hids, List.mem_append, List.mem_singleton] at hmem'
    obtain hmem' | rfl := hmem'
    · rw [hids, head?_append_of_mem hmem']
      exact hhead hmem'
    · exact absurd htaken huntaken
  · rw [hids]
    refine h.works.order.trans (List.Sublist.append_left ?_ _)
    cases ids s.fileList <;> simp
  · intro id hhead htaken
    refine h.works.current id ?_ htaken
    have hhead' : (ids (s.fileList ++ [node])).head? = some id := hhead
    rw [hids] at hhead'
    cases hl : ids s.fileList with
    | nil =>
      rw [hl] at hhead'
      cases hhead'
      exact absurd htaken huntaken
    | cons a l =>
      rw [hl] at hhead'
      exact hhead'
  · intro hinit w id hid
    rw [hids]
    exact List.mem_append_left _ (h.works.kept hinit w id hid)
  · intro hhandle id hasked htaken hdue
    refine h.answered.done hhandle id ?_ htaken hdue
    revert hasked
    have hne : id ≠ node.id := fun heq => huntaken (heq ▸ htaken)
    split <;> simp [hne]
  · refine @served_of_pending _ t _ not_false ?_
    show ((s.call t (.testing node.id)).callers t).pending.isSome
    rw [callers_call, if_pos rfl]
    rfl

theorem Inv.stop (h : s.Inv) (hidle : (s.callers t).fresh = none ∧ (s.callers t).pending = none)
    (hid : id ∈ ids s.fileList) : (s.stop t id).Inv := by
  obtain ⟨node, hnode⟩ := Option.ne_none_iff_exists'.mp
    (mt (node?_eq_none_iff s id).mp (not_not_intro hid))
  have hids : ids (s.fileList.map fun node =>
      if node.id = id then { node with ifStop := true } else node) = ids s.fileList := by
    rw [ids, List.map_map]
    apply List.map_congr_left
    intro n hn
    simp only [Function.comp_apply]
    split <;> rfl
  have h' := h.call_of_idle (c := .idle) hidle.1 hidle.2 ⟨rfl, rfl⟩ rfl
  simp only [Uploads.stop, hnode]
  refine { h' with
    queue := { h'.queue with split := ?_, asked := ?_, allocated := ?_ }
    works := { h'.works with held := ?_, order := ?_, current := ?_, kept := ?_ }
    answered := { h'.answered with }
    served := ?_, closed := ?_ }
  · rw [hids]
    exact h.queue.split
  · intro n hn
    obtain ⟨n', hn', rfl⟩ := List.mem_map.mp hn
    have := h.queue.asked n' hn'
    split <;> exact this
  · rw [hids]
    exact h'.queue.allocated
  · rw [hids]
    exact h.works.held
  · rw [hids]
    exact h.works.order
  · rw [hids]
    exact h.works.current
  · rw [hids]
    exact h.works.kept
  · intro hinit hlist
    refine h'.served hinit fun hnil => hlist ?_
    have hnil' : s.fileList = [] := hnil
    simp [hnil']
  · intro hclosed
    obtain ⟨hnil, hfresh⟩ := h'.closed hclosed
    have hnil' : s.fileList = [] := hnil
    exact ⟨by simp [hnil'], hfresh⟩

end Callers

/-! ## Steps of the threads that upload -/

section Workers

variable {s : Uploads} {w : Nat} {p : Worker} {id : Nat}

theorem held_work (hp : p.held = (s.workers w).held) (w' : Nat) :
    ((s.work w p).workers w').held = (s.workers w').held := by
  rw [workers_work]
  split
  · rename_i hw
    rw [hw, hp]
  · rfl

theorem due_work (hp : p.due = (s.workers w).due) (w' : Nat) :
    ((s.work w p).workers w').due = (s.workers w').due := by
  rw [workers_work]
  split
  · rename_i hw
    rw [hw, hp]
  · rfl

theorem Work.work (h : s.Work) (hp : p.held = (s.workers w).held) : (s.work w p).Work := by
  have heq := held_work hp
  refine { h with held := ?_, unique := ?_, current := ?_, kept := ?_ }
  · simp only [heq]
    exact h.held
  · simp only [heq]
    exact h.unique
  · simp only [heq]
    exact h.current
  · simp only [heq]
    exact h.kept

theorem ahead_work (h : ∀ w, (s.workers w).Ahead) (hp : p.Ahead) (w' : Nat) :
    ((s.work w p).workers w').Ahead := by
  rw [workers_work]
  split
  · exact hp
  · exact h w'

theorem Served.work {done : Nat → Prop} (h : s.Served done)
    (hp : s.initState → s.fileList ≠ [] → (s.workers w).Live → p.Live) :
    (s.work w p).Served done := by
  intro hinit hlist
  refine (h hinit hlist).imp_left ?_
  rintro ⟨w', hw'⟩
  refine ⟨w', ?_⟩
  rw [workers_work]
  split
  · rename_i heq
    rw [heq] at hw'
    exact hp hinit hlist hw'
  · exact hw'

theorem Inv.work (h : s.Inv) (hheld : p.held = (s.workers w).held)
    (hdue : p.due = (s.workers w).due) (hp : p.Ahead)
    (hlive : s.initState → s.fileList ≠ [] → (s.workers w).Live → p.Live) : (s.work w p).Inv := by
  have heq := due_work hdue
  refine { h with
    queue := { h.queue with }, works := h.works.work hheld
    answered := { h.answered with due := ?_, done := ?_ }, served := h.served.work hlive
    ahead := ahead_work h.ahead hp }
  · simp only [heq]
    exact h.answered.due
  · simp only [heq]
    exact h.answered.done

theorem Inv.abandon (h : s.Inv) (hheld : (s.workers w).held = some id)
    (hhandle : s.http2Handle = false) : (s.work w (.finished id)).Inv := by
  refine { h with
    queue := { h.queue with }, works := h.works.work hheld.symm
    answered := { h.answered with due := ?_, done := ?_ }
    served := h.served.work fun _ _ _ => trivial, ahead := ahead_work h.ahead trivial }
  · intro w' id' hdue
    rw [workers_work] at hdue
    split at hdue
    · cases hdue
    · exact h.answered.due w' id' hdue
  · intro htrue
    exact absurd (hhandle.symm.trans htrue) (by simp)

theorem Inv.complete (h : s.Inv) (hdue : (s.workers w).due = some id) (hid : id ∈ ids s.fileList)
    (res : Int) : (s.complete w id res).Inv := by
  have hheld := held_of_due hdue
  obtain ⟨node, hnode⟩ := Option.ne_none_iff_exists'.mp
    (mt (node?_eq_none_iff s id).mp (not_not_intro hid))
  have hmem : node ∈ s.fileList := List.mem_of_find?_eq_some hnode
  have hnid : node.id = id := by simpa using List.find?_some hnode
  have hasked : node.endCb = true ↔ id ∈ s.asked := by
    rw [← hnid]
    exact h.queue.asked node hmem
  -- the counts of the callbacks
  have hcount : ∀ id', (((if node.endCb then s.callbacks ++ [(id, res)] else s.callbacks).map
      Prod.fst).count id') = if node.endCb = true ∧ id' = id then s.answers id' + 1
        else s.answers id' := by
    intro id'
    by_cases hcb : node.endCb = true
    · by_cases heq : id' = id
      · simp [hcb, heq, answers]
      · simp [hcb, heq, answers, Ne.symm heq]
    · simp [hcb, answers]
  have hzero : s.answers id = 0 := h.answered.due w id hdue
  have hdue' : ∀ w' id', ((s.work w (.finished id)).workers w').due = some id' →
      id' ≠ id ∧ (s.workers w').due = some id' := by
    intro w' id' hd
    rw [workers_work] at hd
    split at hd
    · cases hd
    · rename_i hne
      refine ⟨?_, hd⟩
      rintro rfl
      exact hne (h.works.unique w' w id' (held_of_due hd) hheld)
  simp only [Uploads.complete, hnode]
  refine { h with
    queue := { h.queue with }, works := { h.works.work (p := .finished id) hheld.symm with }
    answered := ⟨?_, ?_, ?_, ?_⟩
    served := h.served.work (p := .finished id) fun _ _ _ => trivial
    ahead := ahead_work (p := .finished id) h.ahead trivial }
  · intro id'
    show ((if node.endCb then s.callbacks ++ [(id, res)] else s.callbacks).map
      Prod.fst).count id' ≤ 1
    rw [hcount]
    split
    · rename_i heq
      obtain rfl := heq.2
      exact Nat.le_of_eq (congrArg (· + 1) hzero)
    · exact h.answered.atMostOne id'
  · intro id' huntaken
    refine (hcount id').trans ?_
    have htaken := (h.works.held w id hheld).1
    have hne : ¬ (node.endCb = true ∧ id' = id) := by
      rintro ⟨-, rfl⟩
      exact huntaken htaken
    rw [if_neg hne]
    exact h.answered.untaken id' huntaken
  · intro w' id' hd
    obtain ⟨hne, hd⟩ := hdue' w' id' hd
    refine (hcount id').trans ?_
    rw [if_neg fun heq => hne heq.2]
    exact h.answered.due w' id' hd
  · intro hhandle id' hid' htaken hnone
    refine (hcount id').trans ?_
    by_cases heq : id' = id
    · rw [heq] at hid' ⊢
      rw [if_pos ⟨hasked.mpr hid', rfl⟩, hzero]
    · rw [if_neg fun hand => heq hand.2]
      refine h.answered.done hhandle id' hid' htaken fun w' hd => hnone w' ?_
      rw [workers_work, if_neg ?_, hd]
      rintro rfl
      rw [hdue] at hd
      exact heq (Option.some.inj hd).symm

theorem sublist_of_concat {l l' : List Nat} {a : Nat} (h : l.Sublist (l' ++ [a])) (ha : a ∉ l) :
    l.Sublist l' := by
  obtain ⟨l₁, l₂, rfl, h₁, h₂⟩ := List.sublist_append_iff.mp h
  cases l₂ with
  | nil => rwa [List.append_nil]
  | cons b l₂ =>
    have hb : b = a := List.mem_singleton.mp (h₂.subset List.mem_cons_self)
    exact absurd (by simp [hb]) ha

theorem Inv.begin {node : FileStream} {rest : List FileStream} (h : s.Inv)
    (hw : s.workers w = .locking) (hl : s.fileList = node :: rest)
    (hfree : ∀ w', (s.workers w').held ≠ some node.id) :
    Inv { s.work w (.begun node.id) with taken := s.taken ++ [node.id] } := by
  have hhead : (ids s.fileList).head? = some node.id := by rw [hl]; rfl
  have huntaken : node.id ∉ s.taken := by
    intro hmem
    obtain ⟨w', hw'⟩ := h.works.current node.id hhead hmem
    exact hfree w' hw'
  have hheld : ∀ w' id', ((s.work w (.begun node.id)).workers w').held = some id' →
      w' = w ∧ id' = node.id ∨ w' ≠ w ∧ id' ≠ node.id ∧ (s.workers w').held = some id' := by
    intro w' id' hd
    rw [workers_work] at hd
    split at hd
    · rename_i hw'
      exact .inl ⟨hw', (Option.some.inj hd).symm⟩
    · rename_i hw'
      refine .inr ⟨hw', ?_, hd⟩
      rintro rfl
      exact hfree w' hd
  have hself : ((s.work w (.begun node.id)).workers w).held = some node.id := by
    rw [workers_work, if_pos rfl]
    rfl
  have hmem : ∀ id', id' ∈ s.taken ++ [node.id] ↔ id' ∈ s.taken ∨ id' = node.id := by simp
  refine { h with
    queue := { h.queue with }
    works := ⟨?_, ?_, ?_, ?_, ?_, ?_⟩
    answered := { h.answered with untaken := ?_, due := ?_, done := ?_ }
    served := h.served.work (p := .begun node.id) fun _ _ _ => trivial
    ahead := ahead_work (p := .begun node.id) h.ahead trivial }
  · intro w' id' hd
    obtain ⟨-, rfl⟩ | ⟨-, -, hd⟩ := hheld w' id' hd
    · exact ⟨(hmem _).mpr (.inr rfl), fun _ => hhead⟩
    · exact ⟨(hmem _).mpr (.inl (h.works.held w' id' hd).1), (h.works.held w' id' hd).2⟩
  · intro w₁ w₂ id' h₁ h₂
    obtain ⟨rfl, rfl⟩ | ⟨hne₁, hid₁, h₁⟩ := hheld w₁ id' h₁
    · obtain ⟨rfl, -⟩ | ⟨-, hid₂, -⟩ := hheld w₂ _ h₂
      · rfl
      · exact absurd rfl hid₂
    · obtain ⟨-, rfl⟩ | ⟨-, -, h₂⟩ := hheld w₂ id' h₂
      · exact absurd rfl hid₁
      · exact h.works.unique w₁ w₂ id' h₁ h₂
  · have horder := h.works.order
    rw [hl] at horder
    show (s.taken ++ [node.id]).Sublist (s.gone ++ (ids s.fileList).take 1)
    rw [hl]
    exact (sublist_of_concat horder huntaken).append (List.Sublist.refl _)
  · intro id' hhead' _
    have hhead'' : (ids s.fileList).head? = some id' := hhead'
    rw [hhead] at hhead''
    exact ⟨w, hself.trans hhead''⟩
  · exact fun hinit id' hid' => (hmem id').mpr (.inl (h.works.processed hinit id' hid'))
  · intro hinit w' id' hd
    obtain ⟨-, rfl⟩ | ⟨-, -, hd⟩ := hheld w' id' hd
    · exact List.mem_of_mem_head? hhead
    · exact h.works.kept hinit w' id' hd
  · exact fun id' hnot => h.answered.untaken id' fun htaken => hnot ((hmem id').mpr (.inl htaken))
  · intro w' id' hd
    obtain ⟨-, rfl⟩ | ⟨hne, -, -⟩ := hheld w' id' (held_of_due hd)
    · exact h.answered.untaken _ huntaken
    · refine h.answered.due w' id' ?_
      rwa [workers_work, if_neg hne] at hd
  · intro hhandle id' hid' htaken hnone
    have hne : id' ≠ node.id := by
      rintro rfl
      refine hnone w ?_
      rw [workers_work, if_pos rfl]
      rfl
    refine h.answered.done hhandle id' hid' (((hmem id').mp htaken).resolve_right hne)
      fun w' hd => hnone w' ?_
    rw [workers_work, if_neg ?_, hd]
    rintro rfl
    rw [hw] at hd
    cases hd

section Out

variable {node : FileStream} {rest : List FileStream} (hl : s.fileList = node :: rest)
include hl

theorem Queue.out (h : s.Queue) (workers : Nat → Worker) :
    Queue { s with
      workers := workers, fileList := rest, gone := s.gone ++ [node.id]
      allocated := s.allocated.erase node.id } := by
  have hids : ids s.fileList = node.id :: ids rest := by rw [hl]; rfl
  have hnot : node.id ∉ ids rest := by
    have hnodup := h.nodup
    rw [h.split, hids] at hnodup
    exact (List.nodup_cons.mp (List.nodup_append.mp hnodup).2.1).1
  refine { h with
    split := ?_, asked := ?_, refused := ?_, allocated := ?_, allocatedOnce := ?_ }
  · rw [h.split, hids, List.append_assoc]
    rfl
  · intro n hn
    exact h.asked n (by rw [hl]; exact List.mem_cons_of_mem _ hn)
  · exact fun id hid => List.mem_append_left _ (h.refused id hid)
  · intro id
    rw [h.allocatedOnce.mem_erase_iff, h.allocated, hids, List.mem_cons]
    constructor
    · rintro ⟨hne, (rfl | hrest) | ht⟩
      · exact absurd rfl hne
      · exact .inl hrest
      · exact .inr ht
    · rintro (hrest | ⟨t, ht⟩)
      · exact ⟨fun heq => hnot (heq ▸ hrest), .inl (.inr hrest)⟩
      · refine ⟨?_, .inr ⟨t, ht⟩⟩
        rintro rfl
        refine (h.fresh t node.id ht).2 ?_
        rw [h.split, hids]
        simp
  · exact h.allocatedOnce.erase _

theorem Work.out (h : s.Work) (hq : s.Queue) {workers : Nat → Worker}
    (hsub : ∀ w id, (workers w).held = some id → (s.workers w).held = some id)
    (hinit : s.initState → node.id ∈ s.taken ∧ ∀ w, (workers w).held ≠ some node.id) :
    Work { s with
      workers := workers, fileList := rest, gone := s.gone ++ [node.id]
      allocated := s.allocated.erase node.id } := by
  have hids : ids s.fileList = node.id :: ids rest := by rw [hl]; rfl
  have hnodup := hq.nodup
  rw [hq.split, hids] at hnodup
  have horder := h.order
  rw [hids, List.take_succ_cons, List.take_zero] at horder
  have hnot : ∀ id ∈ ids rest, id ≠ node.id ∧ id ∉ s.gone := by
    intro id hid
    obtain ⟨-, hrest, hdis⟩ := List.nodup_append.mp hnodup
    refine ⟨?_, fun hgone => hdis id hgone id (List.mem_cons_of_mem _ hid) rfl⟩
    rintro rfl
    exact (List.nodup_cons.mp hrest).1 hid
  refine ⟨?_, ?_, ?_, ?_, ?_, ?_⟩
  · intro w id hd
    obtain ⟨htaken, hhead⟩ := h.held w id (hsub w id hd)
    refine ⟨htaken, fun hmem => ?_⟩
    rw [hids] at hhead
    have heq := hhead (List.mem_cons_of_mem _ hmem)
    exact absurd (Option.some.inj heq).symm (hnot id hmem).1
  · exact fun w w' id hd hd' => h.unique w w' id (hsub w id hd) (hsub w' id hd')
  · exact horder.trans (List.sublist_append_left _ _)
  · intro id hhead htaken
    have hmem : id ∈ ids rest := List.mem_of_mem_head? hhead
    rcases List.mem_append.mp (horder.subset htaken) with hgone | heq
    · exact absurd hgone (hnot id hmem).2
    · exact absurd (List.mem_singleton.mp heq) (hnot id hmem).1
  · intro hi id hid
    rcases List.mem_append.mp hid with hgone | heq
    · exact h.processed hi id hgone
    · rw [List.mem_singleton.mp heq]
      exact (hinit hi).1
  · intro hi w id hd
    have hmem := h.kept hi w id (hsub w id hd)
    rw [hids] at hmem
    rcases List.mem_cons.mp hmem with rfl | hrest
    · exact absurd hd ((hinit hi).2 w)
    · exact hrest

end Out

theorem Work.first (h : s.Work) (hheld : (s.workers w).held = some id)
    (hid : id ∈ ids s.fileList) : ∃ node rest, s.fileList = node :: rest ∧ node.id = id := by
  have hhead := (h.held w id hheld).2 hid
  cases hl : s.fileList with
  | nil => simp [hl, ids] at hid
  | cons node rest =>
    rw [hl] at hhead
    exact ⟨node, rest, rfl, Option.some.inj hhead⟩

theorem Inv.remove (h : s.Inv) (hw : s.workers w = .finished id) (hid : id ∈ ids s.fileList) :
    (s.remove w id).Inv := by
  have hheld : (s.workers w).held = some id := by rw [hw]; rfl
  obtain ⟨node, rest, hl, rfl⟩ := h.works.first hheld hid
  have hnode : s.node? node.id = some node := by simp [node?, hl]
  have herase : s.fileList.eraseP (fun n => n.id = node.id) = rest := by simp [hl]
  have hsub : ∀ w' id', ((s.work w .top).workers w').held = some id' →
      w' ≠ w ∧ (s.workers w').held = some id' := by
    intro w' id' hd
    rw [workers_work] at hd
    split at hd
    · cases hd
    · exact ⟨‹_›, hd⟩
  have hdue := due_work (s := s) (w := w) (p := .top) (by rw [hw]; rfl)
  simp only [Uploads.remove, hnode, herase]
  refine { h with
    queue := h.queue.out hl _
    works := h.works.out hl h.queue (fun w' id' hd => (hsub w' id' hd).2) ?_
    answered := { h.answered with due := ?_, done := ?_ }, served := ?_, closed := ?_
    ahead := ahead_work (p := .top) h.ahead trivial }
  · refine fun _ => ⟨(h.works.held w _ hheld).1, fun w' hd => ?_⟩
    obtain ⟨hne, hd⟩ := hsub w' _ hd
    exact hne (h.works.unique w' w _ hd hheld)
  · intro w' id' hd
    exact h.answered.due w' id' ((hdue w').symm.trans hd)
  · intro hhandle id' hid' htaken hnone
    exact h.answered.done hhandle id' hid' htaken fun w' hd => hnone w' ((hdue w').trans hd)
  · intro _ _
    refine .inl ⟨w, ?_⟩
    rw [workers_work, if_pos rfl]
    trivial
  · intro hclosed
    rw [(h.closed hclosed).1] at hl
    cases hl

end Workers

end Uploads

end AliyunIot.Http2.Upload
