import AliyunIot.Http2.UploadProgress

/-!
# Runs of the upload queue

A careful step keeps the invariant, and a step after which the queue is sound was careful. A run
that is not careful is the one in which a thread is about to leave when a request comes.
-/

namespace AliyunIot.Http2.Upload.Uploads

open Lib State

section Step

variable {s : Uploads} {t w id : Nat}

theorem Inv.request (h : s.Inv) (hidle : s.callers t = .idle) {p : UploadParams} {malloc : Bool}
    (hopen : p.check = success → malloc = true → s.disconnecting ≠ .closed) :
    (s.request t p malloc).Inv := by
  unfold Uploads.request
  split
  · exact h
  · rename_i hcheck
    split
    · exact h
    · rename_i hmalloc
      exact h.allocate hidle (hopen (not_not.mp hcheck) (by simpa using hmalloc)) p s.uploadIdx

theorem Inv.test (h : s.Inv) (ht : s.callers t = .testing id)
    (hserved : s.fileThread → s.Served (· = t)) : (s.next (.test t)).Inv := by
  have hid : id ∈ s.inserted := h.queue.named t id (by rw [ht]; rfl)
  have hfresh : (s.callers t).fresh = none := by rw [ht]; rfl
  simp only [next, ht]
  split
  · rename_i hthread
    refine Inv.accept (s := s.call t .idle) ?_ hid
    exact h.call hfresh rfl (fun _ hid => by cases hid)
      ((served_call_iff rfl).mpr (hserved hthread))
  · refine h.call hfresh rfl (fun id' hid' => ?_) (served_of_pending (t := t) not_false ?_)
    · cases hid'
      exact hid
    · rw [callers_call, if_pos rfl]
      rfl

theorem Inv.create (h : s.Inv) (ht : s.callers t = .creating id) {ok : Bool}
    (hcare : ok = false → id ∉ ids s.fileList ∧ s.Served (· = t)) : (s.create t w id ok).Inv := by
  have hid : id ∈ s.inserted := h.queue.named t id (by rw [ht]; rfl)
  have hfresh : (s.callers t).fresh = none := by rw [ht]; rfl
  unfold Uploads.create
  split
  · rename_i hok
    obtain ⟨hout, hserved⟩ := hcare hok
    refine Inv.refuse (s := s.call t .idle) ?_ hid hout
    exact h.call hfresh rfl (fun _ hid => by cases hid) ((served_call_iff rfl).mpr hserved)
  · split
    · rename_i hw
      -- the thread is there before the request is done
      have hwork := h.work (w := w) (p := .top) (by rw [hw]; rfl) (by rw [hw]; rfl)
        trivial fun _ _ _ => trivial
      refine Inv.call (s := s.work w .top) hwork hfresh rfl (fun id' hid' => ?_) fun _ _ => ?_
      · cases hid'
        exact hid
      · refine .inl ⟨w, ?_⟩
        show ((s.work w .top).workers w).Live
        rw [workers_work, if_pos rfl]
        trivial
    · exact h

theorem Inv.store (h : s.Inv) (ht : s.callers t = .storing id) : (s.next (.store t)).Inv := by
  have hid : id ∈ s.inserted := h.queue.named t id (by rw [ht]; rfl)
  have hcall := h.call_of_idle (t := t) (c := .idle) (by rw [ht]; rfl) (by rw [ht]; rfl)
    ⟨rfl, rfl⟩ rfl
  simp only [next, ht]
  exact (hcall.thread true).accept hid

theorem Inv.search (h : s.Inv) {idx command : Int} (ht : s.callers t = .searching idx command)
    (hopen : s.disconnecting ≠ .closed) : (s.search t idx command).Inv := by
  rw [Uploads.search, if_neg hopen]
  split
  · exact h.call_of_idle (by rw [ht]; rfl) (by rw [ht]; rfl) ⟨rfl, rfl⟩ rfl
  · exact h.call_of_idle (by rw [ht]; rfl) (by rw [ht]; rfl) ⟨rfl, rfl⟩ rfl

theorem Inv.check (h : s.Inv) {command : Int} (ht : s.callers t = .found id command) :
    (s.check t id command).Inv := by
  unfold Uploads.check
  split
  · exact h.call_of_idle (by rw [ht]; rfl) (by rw [ht]; rfl) ⟨rfl, rfl⟩ rfl
  · exact h.call_of_idle (by rw [ht]; rfl) (by rw [ht]; rfl) ⟨rfl, rfl⟩ rfl

theorem Inv.top (h : s.Inv) (hw : s.workers w = .top)
    (hhandle : s.http2Handle ∧ s.handleFreed = false) : (s.top w).Inv := by
  rw [Uploads.top, if_neg (by simp [hhandle])]
  split
  · exact h.work (by rw [hw]; rfl) (by rw [hw]; rfl) trivial fun _ _ _ => trivial
  · rename_i hinit
    exact h.work (by rw [hw]; rfl) (by rw [hw]; rfl) trivial fun hi => absurd hi hinit

theorem Inv.take (h : s.Inv) (hw : s.workers w = .locking) (hopen : s.disconnecting ≠ .closed)
    (hfree : ∀ id ∈ (ids s.fileList).head?, ∀ w', (s.workers w').held ≠ some id) :
    (s.take w).Inv := by
  rw [Uploads.take, if_neg hopen]
  split
  · rename_i hnil
    exact h.work (by rw [hw]; rfl) (by rw [hw]; rfl) trivial fun _ hne => absurd hnil hne
  · rename_i node rest hl
    exact h.begin hw hl (hfree node.id (by simp [hl, ids]))

theorem Inv.handle (h : s.Inv) (hw : s.workers w = .begun id)
    (hid : s.http2Handle → id ∈ ids s.fileList) (filesize : Int32) :
    (s.handle w id filesize).Inv := by
  unfold Uploads.handle
  split
  · rename_i hhandle
    exact h.abandon (by rw [hw]; rfl) hhandle
  · rename_i hhandle
    have hid' := hid (by simpa using hhandle)
    obtain ⟨node, hnode⟩ := exists_node hid'
    simp only [hnode]
    split
    · exact h.complete (by rw [hw]; rfl) hid' uploadFileNotExist
    · exact h.work (by rw [hw]; rfl) (by rw [hw]; rfl) trivial fun _ _ _ => trivial

theorem Inv.openChannel (h : s.Inv) {filesize : UInt32} (hw : s.workers w = .opening id filesize)
    (hid : id ∈ ids s.fileList) (hfreed : s.handleFreed = false) (fsOffset : Option UInt32)
    (malloc : Bool) : (s.openChannel w id filesize fsOffset malloc).Inv := by
  have hdue : (s.workers w).due = some id := by rw [hw]; rfl
  obtain ⟨node, hnode⟩ := exists_node hid
  simp only [Uploads.openChannel, hnode, hfreed, Bool.false_eq_true, if_false]
  split
  · exact h.complete hdue hid uploadStreamOpenFailed
  · split
    · exact h.complete hdue hid uploadMallocFailed
    · exact h.work (by rw [hw]; rfl) (by rw [hw]; rfl)
        ⟨partLength_pos node, rfl⟩ fun _ _ _ => trivial

theorem ahead_of_sending (h : s.Inv) {x : Transfer} (hw : s.workers w = .sending id x) :
    x.Ahead := by
  have hahead := h.ahead w
  rwa [hw] at hahead

theorem Inv.sendPacket (h : s.Inv) {x : Transfer} (hw : s.workers w = .sending id x)
    (hid : id ∈ ids s.fileList) (hfreed : s.handleFreed = false) (read : Bool) (sent : Int) :
    (s.sendPacket w id x read sent).Inv := by
  have hahead : x.Ahead := ahead_of_sending h hw
  have hdue : (s.workers w).due = some id := by rw [hw]; rfl
  obtain ⟨node, hnode⟩ := exists_node hid
  simp only [Uploads.sendPacket, hnode, hfreed, Bool.false_eq_true, if_false]
  split
  · exact h.complete hdue hid uploadErrorCommon
  · split
    · exact h.complete hdue hid uploadFileReadFailed
    · split
      · exact h.complete hdue hid uploadStreamSendFailed
      · split
        · exact h.complete hdue hid uploadStopByIoctl
        · exact h.work (by rw [hw]; rfl) (by rw [hw]; rfl) hahead fun _ _ _ => trivial

theorem Inv.endPart (h : s.Inv) {x : Transfer} (hw : s.workers w = .sending id x) {res : Int}
    (hid : x.streamLen = 0 ∧ res < success → id ∈ ids s.fileList) : (s.endPart w id x res).Inv := by
  unfold Uploads.endPart
  split
  · rename_i hfail
    exact h.complete (by rw [hw]; rfl) (hid hfail) res
  · split
    · exact h.work (by rw [hw]; rfl) (by rw [hw]; rfl)
        ⟨(ahead_of_sending h hw).1, rfl⟩ fun _ _ _ => trivial
    · exact h.work (by rw [hw]; rfl) (by rw [hw]; rfl) trivial fun _ _ _ => trivial

theorem Inv.drop (h : s.Inv) (hdis : s.disconnecting = .released) : s.drop.Inv := by
  have hinit : ¬ s.initState = true := by
    rw [h.running, hdis]
    simp
  have hopened : s.http2Handle = true := by
    rw [h.opened, hdis]
    simp
  unfold Uploads.drop
  split
  · exact { h with
      queue := { h.queue with }, works := { h.works with }, answered := { h.answered with }
      closed := nofun, opened := by simp [hopened], running := by simp [hinit] }
  · rename_i node rest hl
    exact { h with
      queue := { h.queue.out hl s.workers with }
      works := { h.works.out hl h.queue (fun _ _ hd => hd) fun hi => absurd hi hinit with }
      answered := { h.answered with }
      served := fun hi => absurd hi hinit
      closed := nofun, opened := by simp [hopened], running := by simp [hinit] }

theorem Inv.close (h : s.Inv) (disconnecting : Disconnecting)
    (hbefore : s.disconnecting ≠ .closed) (hafter : disconnecting ≠ .no ∧ disconnecting ≠ .closed)
    (handleFreed : Bool) :
    Inv { s with
      disconnecting := disconnecting, initState := false, handleFreed := handleFreed } := by
  have hopened : s.http2Handle = true := h.opened.mpr hbefore
  exact { h with
    queue := { h.queue with }
    works := { h.works with processed := nofun, kept := nofun }
    answered := { h.answered with }
    served := nofun
    closed := fun hclosed => absurd hclosed hafter.2
    opened := by simp [hopened, hafter.2], running := by simp [hafter.1] }

theorem Inv.destroy (h : s.Inv) (hdis : s.disconnecting = .dropped)
    (hcare : s.fileList = [] ∧ ∀ t, (s.callers t).fresh = none) : (s.next .destroy).Inv := by
  have hinit : ¬ s.initState = true := by
    rw [h.running, hdis]
    simp
  have hlist : { s with fileList := [] } = s := by rw [← hcare.1]
  simp only [next, hdis]
  have hqueue := h.queue
  have hworks := h.works
  rw [← hlist] at hqueue hworks
  exact { h with
    queue := { hqueue with }, works := { hworks with }
    answered := { h.answered with done := fun hhandle => absurd hhandle Bool.false_ne_true }
    served := fun hi => absurd hi hinit
    closed := fun _ => ⟨rfl, hcare.2⟩, opened := by simp, running := by simp [hinit] }

theorem next_inv {op : Op} (hcare : s.Careful op) (h : s.Inv) : (s.next op).Inv := by
  cases op with
  | request t p malloc =>
    simp only [next]
    split
    next hidle => exact h.request hidle (hcare hidle)
    next => exact h
  | insert t =>
    simp only [next]
    split
    next node ht => exact h.insert ht (hcare node ht)
    next => exact h
  | test t =>
    cases ht : s.callers t with
    | testing id => exact h.test ht (hcare id ht)
    | _ => simpa only [next, ht] using h
  | create t w ok =>
    simp only [next]
    split
    next id ht => exact h.create ht (hcare id ht)
    next => exact h
  | store t =>
    cases ht : s.callers t with
    | storing id => exact h.store ht
    | _ => simpa only [next, ht] using h
  | ioctl t idx command =>
    simp only [next]
    split
    next ht =>
      split
      · exact h.call_of_idle (by rw [ht]; rfl) (by rw [ht]; rfl) ⟨rfl, rfl⟩ rfl
      · exact h
    next => exact h
  | search t =>
    simp only [next]
    split
    next idx command ht => exact h.search ht (hcare idx command ht)
    next => exact h
  | check t =>
    simp only [next]
    split
    next id command ht => exact h.check ht
    next => exact h
  | stop t =>
    simp only [next]
    split
    next id ht => exact h.stop (by rw [ht]; exact ⟨rfl, rfl⟩) (hcare id ht)
    next => exact h
  | top w =>
    simp only [next]
    split
    next hw => exact h.top hw (hcare hw)
    next => exact h
  | take w =>
    simp only [next]
    split
    next hw => exact h.take hw (hcare hw).1 (hcare hw).2
    next => exact h
  | handle w filesize =>
    simp only [next]
    split
    next id hw => exact h.handle hw (hcare id hw) filesize
    next => exact h
  | «open» w fsOffset malloc =>
    simp only [next]
    split
    next id filesize hw =>
      obtain ⟨hid, hfreed⟩ := hcare id filesize hw
      exact h.openChannel hw hid hfreed fsOffset malloc
    next => exact h
  | send w read sent res =>
    simp only [next]
    split
    next id x hw =>
      have hcare := hcare id x hw
      split
      · rename_i hlt
        rw [if_pos hlt] at hcare
        exact h.sendPacket hw hcare.1 hcare.2 read sent
      · rename_i hlt
        rw [if_neg hlt] at hcare
        exact h.endPart hw hcare
    next => exact h
  | close w =>
    simp only [next]
    split
    next id hw =>
      obtain ⟨hid, hfreed⟩ := hcare id hw
      rw [Uploads.close, if_neg (by simp [hfreed])]
      exact h.complete (by rw [hw]; rfl) hid uploadSuccess
    next => exact h
  | remove w =>
    simp only [next]
    split
    next id hw => exact h.remove hw (hcare id hw)
    next => exact h
  | leave w =>
    simp only [next]
    split
    next hw =>
      have hwork := h.work (w := w) (p := .none) (by rw [hw]; rfl) (by rw [hw]; rfl)
        trivial fun _ _ hlive => by rw [hw] at hlive; exact hlive
      exact hwork.thread false
    next => exact h
  | disconnect =>
    simp only [next]
    split
    next hdis => exact h.close .waiting (by simp [hdis]) (by simp) s.handleFreed
    next => exact h
  | release waited =>
    simp only [next]
    split
    next hdis =>
      have hinit : s.initState = false := by
        rw [← Bool.not_eq_true, h.running, hdis]
        simp
      have := h.close .released (by simp [hdis]) (by simp) waited
      rwa [← hinit] at this
    next => exact h
  | drop =>
    simp only [next]
    split
    next hdis => exact h.drop hdis
    next => exact h
  | destroy =>
    cases hdis : s.disconnecting with
    | dropped => exact h.destroy hdis (hcare hdis)
    | _ => simpa only [next, hdis] using h

theorem not_sound_fail (s : Uploads) : ¬ s.fail.Sound := fun hs => by cases hs.defined

theorem mem_of_sound {f : FileStream → Uploads}
    (hs : (match s.node? id with | none => s.fail | some node => f node).Sound) :
    id ∈ ids s.fileList := by
  by_contra hnot
  rw [(node?_eq_none_iff s id).mpr hnot] at hs
  exact not_sound_fail s hs

theorem mem_of_complete {res : Int} (hs : (s.complete w id res).Sound) : id ∈ ids s.fileList :=
  mem_of_sound hs

theorem top_careful (hs : (s.top w).Sound) : s.http2Handle ∧ s.handleFreed = false := by
  by_contra hnot
  have hfail : s.http2Handle = false ∨ s.handleFreed := by
    cases hhandle : s.http2Handle <;> cases hfreed : s.handleFreed <;> simp_all
  rw [Uploads.top, if_pos hfail] at hs
  exact not_sound_fail s hs

theorem take_careful (h : s.Inv) (hs : (s.take w).Sound) :
    s.disconnecting ≠ .closed ∧
      ∀ id ∈ (ids s.fileList).head?, ∀ w', (s.workers w').held ≠ some id := by
  constructor
  · intro hclosed
    rw [Uploads.take, if_pos hclosed] at hs
    exact not_sound_fail s hs
  · intro id hid w' hheld
    -- the node would be begun twice
    have htaken := (h.works.held w' id hheld).1
    unfold Uploads.take at hs
    split at hs
    · exact not_sound_fail s hs
    · split at hs
      · rename_i hnil
        simp [hnil, ids] at hid
      · rename_i node rest hl
        have hnid : node.id = id := by simpa [hl, ids] using hid
        have hnodup : (s.taken ++ [node.id]).Nodup := hs.order.nodup hs.once
        rw [hnid] at hnodup
        exact (List.nodup_append.mp hnodup).2.2 id htaken id (List.mem_singleton_self _) rfl

theorem handle_careful {filesize : Int32} (hs : (s.handle w id filesize).Sound)
    (hhandle : s.http2Handle) : id ∈ ids s.fileList := by
  rw [Uploads.handle, if_neg (by simp [hhandle])] at hs
  exact mem_of_sound hs

theorem openChannel_careful {filesize : UInt32} {fsOffset : Option UInt32} {malloc : Bool}
    (hs : (s.openChannel w id filesize fsOffset malloc).Sound) :
    id ∈ ids s.fileList ∧ s.handleFreed = false := by
  have hid := mem_of_sound hs
  refine ⟨hid, ?_⟩
  obtain ⟨node, hnode⟩ := exists_node hid
  rw [← Bool.not_eq_true]
  intro hfreed
  simp only [Uploads.openChannel, hnode, hfreed, if_true] at hs
  exact not_sound_fail s hs

theorem sendPacket_careful {x : Transfer} {read : Bool} {sent : Int}
    (hs : (s.sendPacket w id x read sent).Sound) : id ∈ ids s.fileList ∧ s.handleFreed = false := by
  have hid := mem_of_sound hs
  refine ⟨hid, ?_⟩
  obtain ⟨node, hnode⟩ := exists_node hid
  rw [← Bool.not_eq_true]
  intro hfreed
  simp only [Uploads.sendPacket, hnode, hfreed, if_true] at hs
  exact not_sound_fail s hs

theorem close_careful (hs : (s.close w id).Sound) :
    id ∈ ids s.fileList ∧ s.handleFreed = false := by
  unfold Uploads.close at hs
  split at hs
  · exact absurd hs (not_sound_fail s)
  · rename_i hfreed
    exact ⟨mem_of_complete hs, by simpa using hfreed⟩

theorem careful_of_sound {op : Op} (h : s.Inv) (hs : (s.next op).Sound) : s.Careful op := by
  cases op with
  | request t p malloc =>
    intro hidle hcheck hmalloc hclosed
    have := hs.released
    simp [next, hidle, Uploads.request, hcheck, hmalloc, hclosed, Uploads.call] at this
  | insert t =>
    intro node ht hclosed
    simp only [next, ht, Uploads.insert, hclosed, if_true] at hs
    exact not_sound_fail s hs
  | test t =>
    intro id ht hthread
    have hserved := hs.served
    simp only [next, ht, hthread, if_true] at hserved
    exact (served_call_iff (c := .idle) rfl).mp hserved
  | create t w ok =>
    rintro id ht rfl
    simp only [next, ht, Uploads.create, if_true] at hs
    exact ⟨hs.refused id (List.mem_append_right _ (List.mem_singleton_self _)),
      (served_call_iff (c := .idle) rfl).mp hs.served⟩
  | search t =>
    intro idx command ht hclosed
    simp only [next, ht, Uploads.search, hclosed, if_true] at hs
    exact not_sound_fail s hs
  | stop t =>
    intro id ht
    simp only [next, ht] at hs
    exact mem_of_sound hs
  | top w =>
    intro hw
    simp only [next, hw] at hs
    exact top_careful hs
  | take w =>
    intro hw
    simp only [next, hw] at hs
    exact take_careful h hs
  | handle w filesize =>
    intro id hw hhandle
    simp only [next, hw] at hs
    exact handle_careful hs hhandle
  | «open» w fsOffset malloc =>
    intro id filesize hw
    simp only [next, hw] at hs
    exact openChannel_careful hs
  | send w read sent res =>
    intro id x hw
    simp only [next, hw] at hs
    split at hs
    · rename_i hlt
      rw [if_pos hlt]
      exact sendPacket_careful hs
    · rename_i hlt
      rw [if_neg hlt]
      intro hfail
      rw [Uploads.endPart, if_pos hfail] at hs
      exact mem_of_complete hs
  | close w =>
    intro id hw
    simp only [next, hw] at hs
    exact close_careful hs
  | remove w =>
    intro id hw
    simp only [next, hw] at hs
    exact mem_of_sound hs
  | destroy =>
    intro hdis
    have hempty := hs.released
    simp only [next, hdis] at hempty
    have hnone := List.eq_nil_iff_forall_not_mem.mp (hempty trivial)
    constructor
    · apply List.eq_nil_iff_forall_not_mem.mpr
      intro node hnode
      exact hnone node.id ((h.queue.allocated _).mpr (.inl (List.mem_map_of_mem hnode)))
    · intro t
      rw [Option.eq_none_iff_forall_ne_some]
      intro id ht
      exact hnone id ((h.queue.allocated _).mpr (.inr ⟨t, ht⟩))
  | _ => trivial

end Step

/-! ## Runs -/

section Runs

variable {s : Uploads} {t w id : Nat}

theorem returned_run (hid : (s.callers t).node? = some id) {more : List Op}
    (hm : Meets next Careful s more) (hturns : 4 ≤ turns next (asks t) s more) :
    id ∈ (run next s more).accepted ∨ id ∈ (run next s more).refused := by
  refine run_reaches (I := fun s => (s.callers t).node? = some id)
    (R := fun s => Caller.left (s.callers t))
    (G := fun s => id ∈ s.accepted ∨ id ∈ s.refused) (fun s op hg => ?_) (fun s op hc hid => ?_)
    hm hid (Nat.lt_of_le_of_lt (Caller.left_le _) hturns)
  · exact hg.imp (fun h => (stepped_next s op).accepted.subset h)
      fun h => (stepped_next s op).refused.subset h
  · cases hop : asks t s op with
    | true => exact asks_next hc hop hid
    | false =>
      refine .inr ?_
      rw [asks_stays hop hid]
      exact ⟨hid, Nat.le_refl _⟩

theorem Inv.handled_run (h : s.Inv) (hlive : (s.workers w).Live) (hid : id ∈ ids s.fileList)
    {more : List Op} (hm : Meets next Careful s more)
    (hturns : left w id s < turns next (takes w) s more) (hinit : (run next s more).initState) :
    id ∈ (run next s more).gone := by
  have hinit' : s.initState := (stepped_run s more).1 hinit
  refine (run_reaches (I := Waits w id) (R := left w id)
    (G := fun s => s.initState → id ∈ s.gone) (fun s op hg hi => ?_) (fun s op hc hw => ?_)
    hm ⟨h, hinit', hlive, hid⟩ hturns) hinit
  · exact (stepped_next s op).gone.subset (hg ((stepped_next s op).initState hi))
  · exact hw.step hc (next_inv hc hw.1)

theorem Inv.sound (h : s.Inv) : s.Sound where
  defined := h.defined
  order := by
    rw [h.queue.split]
    exact h.works.order.trans (List.Sublist.append_left (List.take_sublist 1 _) _)
  once := h.queue.nodup
  processed := h.processed
  atMostOne := h.answered.atMostOne
  answered := h.answers_of_gone
  refused id hid := h.queue.not_mem (h.queue.refused id hid)
  served := h.served
  returned _ _ hid _ hm hturns := returned_run hid hm hturns
  handled w hlive id hid := by
    refine ⟨left w id s + 1, fun more hm hturns hinit => ?_⟩
    have hinv : (run next s more).Inv := run_invariant_of_meets (fun _ _ => next_inv) hm h
    have hgone := h.handled_run hlive hid hm hturns hinit
    refine ⟨hinv.works.processed hinit id hgone, hgone, fun hasked => ?_⟩
    exact hinv.answers_of_gone hinit id ((stepped_run s more).2 hasked) hgone
  rest hinit hworkers hcallers := by
    have hlist : s.fileList = [] := by
      by_contra hne
      rcases h.served hinit hne with ⟨w, hw⟩ | ⟨t, -, ht⟩
      · exact hworkers w hw
      · simp [hcallers t] at ht
    refine ⟨hlist, fun id hid => ?_⟩
    obtain ⟨htaken, hgone⟩ := (h.processed hinit id hid).resolve_right (by simp [hlist, ids])
    exact ⟨htaken, hgone, fun hasked => h.answers_of_gone hinit id hasked hgone⟩
  released hclosed := by
    obtain ⟨hlist, hfresh⟩ := h.closed hclosed
    apply List.eq_nil_iff_forall_not_mem.mpr
    intro id hid
    rw [h.queue.allocated] at hid
    simp [hlist, hfresh, ids] at hid

end Runs

/-- The queue is sound in every state of a run exactly if every step of the run is careful. -/
theorem sound_iff_careful (uploadIdx : Int) (ops : List Op) :
    (∀ pre, pre <+: ops → (run next (init uploadIdx) pre).Sound) ↔
      Meets next Careful (init uploadIdx) ops :=
  forall_run_iff_meets (I := Inv) (fun _ => Inv.sound) (fun _ _ => next_inv)
    (fun _ _ => careful_of_sound) (init_inv uploadIdx)

/-- A request without options. -/
def plain : UploadParams := ⟨true, true, 0, true, 0, 0, true⟩

/-- The first request is done, and its thread has seen the empty list when the second one comes,
which still finds `file_thread` set. -/
def lateRequest : List Op :=
  [.request 0 plain true, .insert 0, .test 0, .create 0 0 true, .store 0, .top 0, .take 0,
    .handle 0 0, .remove 0, .top 0, .take 0, .request 0 plain true, .insert 0, .test 0, .leave 0]

/-- The second request was accepted and waits, but no thread is left. A request whose thread cannot
be created stays in the list. -/
theorem request_is_lost :
    ¬ (run next (init 0) lateRequest).Sound ∧
      ¬ (run next (init 0)
        [.request 0 plain true, .insert 0, .test 0, .create 0 0 false]).Sound := by
  constructor
  · intro hs
    have hserved := hs.served (by decide) (by decide)
    simp [lateRequest, next, Uploads.request, Uploads.insert, Uploads.create, Uploads.top,
      Uploads.take, Uploads.handle, Uploads.remove, Uploads.complete, Uploads.call, Uploads.work,
      node?, init, plain, UploadParams.check, UploadParams.node, Worker.Live, Caller.pending]
      at hserved
  · intro hs
    exact hs.refused 0 (by decide) (by decide)

end AliyunIot.Http2.Upload.Uploads
