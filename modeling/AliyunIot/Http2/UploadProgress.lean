import AliyunIot.Http2.UploadQueue

/-!
# What a thread of the upload queue comes to

A step leaves the place of every other thread as it is. The steps left to a request, and those left
to a thread that uploads until a node is taken out of the list, are counted by `Caller.left` and
`left`; an own step lowers the count and no other step raises it.
-/

namespace AliyunIot.Http2.Upload.Uploads
open Lib State

/-- The thread of the application that an operation is a step of. -/
def caller : Op → Option Nat
  | .request t _ _ | .insert t | .test t | .create t _ _ | .store t | .ioctl t _ _ | .search t
  | .check t | .stop t => some t
  | _ => none

/-- The thread that uploads an operation is a step of. -/
def worker : Op → Option Nat
  | .top w | .take w | .handle w _ | .open w _ _ | .send w _ _ _ | .close w | .remove w
  | .leave w => some w
  | _ => none

/-- A step as the threads see it that do not take it. -/
structure Stepped (op : Op) (s s' : Uploads) : Prop where
  callers : ∀ t, caller op ≠ some t → s'.callers t = s.callers t
  workers : ∀ w, worker op ≠ some w → s.workers w ≠ .none → s'.workers w = s.workers w
  initState : s'.initState → s.initState
  asked : s.asked <+: s'.asked
  gone : s.gone <+: s'.gone
  accepted : s.accepted <+: s'.accepted
  refused : s.refused <+: s'.refused
  fileList : s.disconnecting = .no → (∀ w, op ≠ .remove w) →
    ∃ more, ids s'.fileList = ids s.fileList ++ more

namespace Stepped

variable {s : Uploads} {op : Op} {t w : Nat}

theorem refl (op : Op) (s : Uploads) : Stepped op s s :=
  ⟨fun _ _ => rfl, fun _ _ _ => rfl, id, List.prefix_rfl, List.prefix_rfl, List.prefix_rfl,
    List.prefix_rfl,
    fun _ _ => ⟨[], (List.append_nil _).symm⟩⟩

theorem fail : Stepped op s s.fail := { refl op s with }

theorem call {o : Op} (s : Uploads) (ht : caller o = some t) (c : Caller) :
    Stepped o s (s.call t c) := by
  refine { refl o s with callers := fun u hu => ?_ }
  rw [callers_call, if_neg]
  rintro rfl
  exact hu ht

theorem work {o : Op} (s : Uploads) (hw : worker o = some w) (p : Worker) :
    Stepped o s (s.work w p) := by
  refine { refl o s with workers := fun v hv _ => ?_ }
  rw [workers_work, if_neg]
  rintro rfl
  exact hv hw

theorem complete (hw : worker op = some w) (id : Nat) (res : Int) :
    Stepped op s (s.complete w id res) := by
  unfold Uploads.complete
  split
  · exact fail
  · exact { work s hw (.finished id) with }

theorem ids_map_ifStop (nodes : List FileStream) (id : Nat) :
    ids (nodes.map fun node => if node.id = id then { node with ifStop := true } else node) =
      ids nodes := by
  unfold ids
  rw [List.map_map]
  refine List.map_congr_left fun node _ => ?_
  simp only [Function.comp]
  split <;> rfl

theorem insert (t : Nat) (node : FileStream) : Stepped (.insert t) s (s.insert t node) := by
  unfold Uploads.insert
  split
  · exact fail
  · refine { call (o := .insert t) s rfl (.testing node.id) with
      asked := ?_, fileList := fun _ _ => ⟨[node.id], by simp [ids]⟩ }
    split
    · exact List.prefix_append _ _
    · exact List.prefix_rfl

theorem create (t v : Nat) (id : Nat) (ok : Bool) :
    Stepped (.create t v ok) s (s.create t v id ok) := by
  unfold Uploads.create
  split
  · exact { call (o := .create t v ok) s rfl .idle with refused := List.prefix_append _ _ }
  · split
    · rename_i hv
      refine { call (o := .create t v ok) s rfl (.storing id) with workers := fun w _ hw => ?_ }
      rw [workers_work, if_neg]
      · rfl
      · rintro rfl
        exact hw hv
    · exact refl _ s

theorem stop (t : Nat) (id : Nat) : Stepped (.stop t) s (s.stop t id) := by
  unfold Uploads.stop
  split
  · exact fail
  · refine { call (o := .stop t) s rfl .idle with fileList := fun _ _ => ⟨[], ?_⟩ }
    exact (ids_map_ifStop _ _).trans (List.append_nil _).symm

theorem remove (w id : Nat) : Stepped (.remove w) s (s.remove w id) := by
  unfold Uploads.remove
  split
  · exact fail
  · exact { work (o := .remove w) s rfl .top with
      gone := List.prefix_append _ _, fileList := fun _ h => absurd rfl (h w) }

theorem drop (hdis : s.disconnecting = .released) : Stepped .drop s s.drop := by
  unfold Uploads.drop
  split
  · exact { refl .drop s with }
  · refine { refl .drop s with gone := List.prefix_append _ _, fileList := fun hno => ?_ }
    rw [hdis] at hno
    cases hno

theorem request (t : Nat) (p : UploadParams) (malloc : Bool) :
    Stepped (.request t p malloc) s (s.request t p malloc) := by
  unfold Uploads.request
  repeat' split
  · exact refl _ s
  · exact refl _ s
  · exact { call (o := .request t p malloc) s rfl _ with }

theorem take (w : Nat) : Stepped (.take w) s (s.take w) := by
  unfold Uploads.take
  repeat' split
  · exact fail
  · exact work s rfl .leaving
  · exact { work (o := .take w) s rfl _ with }

end Stepped

theorem stepped_next (s : Uploads) (op : Op) : Stepped op s (s.next op) := by
  -- a step is taken where its thread stands, or it is none
  cases op <;> rw [next] <;> split
  all_goals try exact .refl _ s
  all_goals try first
    | exact .request .. | exact .insert .. | exact .create .. | exact .stop .. | exact .take ..
    | exact .remove .. | exact .drop ‹_›
  -- those that record something
  all_goals try first
    | exact { Stepped.call (o := .store _) s rfl .idle with accepted := List.prefix_append _ _ }
    | exact { Stepped.work (o := .leave _) s rfl .none with }
    | exact { Stepped.refl .disconnect s with initState := nofun }
    | exact { Stepped.refl (.release _) s with }
    | exact { Stepped.refl .destroy s with
        fileList := fun hno => by simp_all }
  -- and those that move their thread, make the callback or fail
  all_goals
    try simp only [search, check, top, handle, openChannel, sendPacket, endPart, close]
    repeat' split
    all_goals first
      | exact .fail | exact .refl _ s | exact .call s rfl _ | exact .work s rfl _
      | exact .complete rfl _ _
      | exact { Stepped.call (o := .test _) s rfl .idle with accepted := List.prefix_append _ _ }

theorem stepped_run (s : Uploads) (ops : List Op) :
    ((run next s ops).initState → s.initState) ∧ s.asked ⊆ (run next s ops).asked :=
  run_invariant (I := fun s' => (s'.initState → s.initState) ∧ s.asked ⊆ s'.asked)
    (fun s' op h => ⟨fun hi => h.1 ((stepped_next s' op).initState hi),
      List.Subset.trans h.2 (stepped_next s' op).asked.subset⟩) ⟨id, List.Subset.refl _⟩ ops

section Requests

variable {s : Uploads} {t id : Nat}

/-- How many steps a request takes before its last. -/
def Caller.left : Caller → Nat
  | .inserting _ => 3
  | .testing _ => 2
  | .creating _ => 1
  | _ => 0

theorem Caller.left_le (c : Caller) : Caller.left c ≤ 3 := by
  cases c <;> simp [Caller.left]

theorem next_of_not_asks {op : Op} (ht : caller op = some t) (hop : asks t s op = false)
    (hid : (s.callers t).node? = some id) : s.next op = s := by
  unfold caller at ht
  split at ht
  all_goals cases ht
  all_goals
    unfold Caller.node? at hid
    split at hid
    all_goals simp_all [next, asks, create]

theorem asks_stays {op : Op} (hop : asks t s op = false) (hid : (s.callers t).node? = some id) :
    (s.next op).callers t = s.callers t := by
  by_cases ht : caller op = some t
  · rw [next_of_not_asks ht hop hid]
  · exact (stepped_next s op).callers t ht

theorem asks_next {op : Op} (hc : s.Careful op) (hop : asks t s op = true)
    (hid : (s.callers t).node? = some id) :
    (id ∈ (s.next op).accepted ∨ id ∈ (s.next op).refused) ∨
      ((s.next op).callers t).node? = some id ∧
        Caller.left ((s.next op).callers t) + 1 ≤ Caller.left (s.callers t) := by
  unfold asks at hop
  split at hop
  next node u ht =>
    obtain rfl : u = t := by simpa using hop
    have hnode : node.id = id := by simpa [ht, Caller.node?] using hid
    refine .inr ?_
    simp only [next, ht, insert, if_neg (hc node ht)]
    simp [Uploads.call, Caller.node?, Caller.left, hnode]
  next id' u ht =>
    obtain rfl : u = t := by simpa using hop
    obtain rfl : id' = id := by simpa [ht, Caller.node?] using hid
    simp only [next, ht]
    split
    · exact .inl (.inl (by simp))
    · exact .inr (by simp [Uploads.call, Caller.node?, Caller.left])
  next id' u w ok ht =>
    obtain ⟨rfl, hfree⟩ : u = t ∧ (ok = false ∨ s.workers w = .none) := by simpa using hop
    obtain rfl : id' = id := by simpa [ht, Caller.node?] using hid
    simp only [next, ht, create]
    split
    · exact .inl (.inr (by simp))
    · rename_i hok
      rw [if_pos (hfree.resolve_left hok)]
      exact .inr (by simp [Uploads.call, Uploads.work, Caller.node?, Caller.left])
  next id' u ht =>
    obtain rfl : u = t := by simpa using hop
    obtain rfl : id' = id := by simpa [ht, Caller.node?] using hid
    simp only [next, ht]
    exact .inl (.inl (by simp))
  next => cases hop

end Requests

section Nodes

variable {s : Uploads} {w id : Nat}

/-- More than the packets and the parts of a transfer. -/
def Transfer.left (x : Transfer) : Nat :=
  rangeLeft x.uploadLen x.fileOffset * 4294967296 + (x.streamLen - x.sendLen).toNat

theorem Transfer.left_le (x : Transfer) : Transfer.left x ≤ 18446744078004518912 := by
  have hrange : rangeLeft x.uploadLen x.fileOffset ≤ 4294967296 := by
    unfold rangeLeft
    split
    · exact Nat.le_of_lt (UInt32.toNat_lt _)
    · exact Nat.le_refl _
  have hlt := (x.streamLen - x.sendLen).toNat_lt
  unfold Transfer.left
  omega

theorem sent_left {x : Transfer} (h : x.sendLen < x.streamLen) :
    Transfer.left x.sent < Transfer.left x :=
  Nat.add_lt_add_left (packet_lt h) _

theorem part_left {x : Transfer} (hx : x.Ahead) (h : x.fileOffset + x.streamLen < x.uploadLen) :
    Transfer.left (Transfer.part x.uploadLen x.partLen (x.fileOffset + x.streamLen)) <
      Transfer.left x := by
  obtain ⟨hpart, hstream⟩ := hx
  rw [hstream] at h
  have hrange := rangeLeft_lt hpart h
  rw [← hstream] at hrange
  have hlt := UInt32.toNat_lt
    ((Transfer.part x.uploadLen x.partLen (x.fileOffset + x.streamLen)).streamLen -
      (Transfer.part x.uploadLen x.partLen (x.fileOffset + x.streamLen)).sendLen)
  unfold Transfer.left
  show rangeLeft x.uploadLen (x.fileOffset + x.streamLen) * 4294967296 + _ < _
  omega

/-- More than the steps of a thread until it removes the node that it holds or is to hold. -/
def Worker.left : Worker → Nat
  | .top => 18446744078004518912 + 6
  | .locking => 18446744078004518912 + 5
  | .begun _ => 18446744078004518912 + 4
  | .opening _ _ => 18446744078004518912 + 3
  | .sending _ x => Transfer.left x + 2
  | .closing _ => 1
  | _ => 0

/-- The steps of a thread until a node is removed: the nodes before it are handled first. -/
def left (w id : Nat) (s : Uploads) : Nat :=
  (ids s.fileList).idxOf id * (18446744078004518912 + 7) + Worker.left (s.workers w)

variable {op : Op}

theorem next_of_not_takes (hw : worker op = some w) (hop : takes w s op = false)
    (hlive : (s.workers w).Live) : s.next op = s := by
  unfold worker at hw
  split at hw
  all_goals cases hw
  all_goals
    cases hplace : s.workers w <;> simp_all [next, takes, Worker.Live]

theorem takes_stays (hop : takes w s op = false) (hlive : (s.workers w).Live) :
    (s.next op).workers w = s.workers w := by
  by_cases hw : worker op = some w
  · rw [next_of_not_takes hw hop hlive]
  · refine (stepped_next s op).workers w hw ?_
    intro hnone
    rw [hnone] at hlive
    exact hlive

theorem exists_node (h : id ∈ ids s.fileList) : ∃ node, s.node? id = some node :=
  Option.ne_none_iff_exists'.mp (mt (node?_eq_none_iff s id).mp (not_not_intro h))

theorem workers_work_self (s : Uploads) (w : Nat) (p : Worker) : (s.work w p).workers w = p := by
  rw [workers_work, if_pos rfl]

theorem workers_complete (hid : id ∈ ids s.fileList) (w : Nat) (res : Int) :
    (s.complete w id res).workers w = .finished id := by
  obtain ⟨node, hnode⟩ := exists_node hid
  simp only [complete, hnode]
  exact workers_work_self s w (.finished id)

/-- A live thread has come nearer to the end of its node. -/
def Nearer (p q : Worker) : Prop := q.Live ∧ Worker.left q + 1 ≤ Worker.left p

theorem nearer_complete {p : Worker} (hid : id ∈ ids s.fileList) (res : Int)
    (hp : 1 ≤ Worker.left p) : Nearer p ((s.complete w id res).workers w) := by
  rw [workers_complete hid]
  exact ⟨trivial, hp⟩

theorem nearer_work {p q : Worker} (hlive : q.Live) (hleft : Worker.left q + 1 ≤ Worker.left p) :
    Nearer p ((s.work w q).workers w) := by
  rw [workers_work_self]
  exact ⟨hlive, hleft⟩

theorem nearer_handle (hid : id ∈ ids s.fileList) (hhandle : s.http2Handle) (filesize : Int32) :
    Nearer (.begun id) ((s.handle w id filesize).workers w) := by
  obtain ⟨node, hnode⟩ := exists_node hid
  rw [handle, if_neg (by simp [hhandle])]
  simp only [hnode]
  split
  · exact nearer_complete hid _ (by simp [Worker.left])
  · exact nearer_work trivial (Nat.le_refl _)

theorem nearer_openChannel {filesize : UInt32} (hid : id ∈ ids s.fileList)
    (hfreed : s.handleFreed = false) (fsOffset : Option UInt32) (malloc : Bool) :
    Nearer (.opening id filesize) ((s.openChannel w id filesize fsOffset malloc).workers w) := by
  obtain ⟨node, hnode⟩ := exists_node hid
  simp only [openChannel, hnode, hfreed, Bool.false_eq_true, if_false]
  split
  · exact nearer_complete hid _ (by simp [Worker.left])
  · split
    · exact nearer_complete hid _ (by simp [Worker.left])
    · exact nearer_work trivial (Nat.add_le_add_right (Transfer.left_le _) 3)

theorem nearer_sendPacket {x : Transfer} (hid : id ∈ ids s.fileList)
    (hfreed : s.handleFreed = false) (hlt : x.sendLen < x.streamLen) (read : Bool) (sent : Int) :
    Nearer (.sending id x) ((s.sendPacket w id x read sent).workers w) := by
  have hpos : 1 ≤ Worker.left (.sending id x) := Nat.le_add_left 1 _
  obtain ⟨node, hnode⟩ := exists_node hid
  simp only [sendPacket, hnode, hfreed, Bool.false_eq_true, if_false]
  split
  · exact nearer_complete hid _ hpos
  · split
    · exact nearer_complete hid _ hpos
    · split
      · exact nearer_complete hid _ hpos
      · split
        · exact nearer_complete hid _ hpos
        · exact nearer_work trivial (Nat.add_le_add_right (sent_left hlt) 2)

theorem nearer_endPart {x : Transfer} (hx : x.Ahead) {res : Int}
    (hid : x.streamLen = 0 ∧ res < success → id ∈ ids s.fileList) :
    Nearer (.sending id x) ((s.endPart w id x res).workers w) := by
  unfold endPart
  split
  · rename_i hfail
    exact nearer_complete (hid hfail) _ (Nat.le_add_left 1 _)
  · split
    · rename_i hmore
      exact nearer_work trivial (Nat.add_le_add_right (part_left hx hmore) 2)
    · exact nearer_work trivial (Nat.le_add_left 2 _)

theorem takes_next (h : s.Inv) (hinit : s.initState) (hlist : s.fileList ≠ [])
    (hc : s.Careful op) (hop : takes w s op = true) (hremove : ∀ v, op ≠ .remove v) :
    Nearer (s.workers w) ((s.next op).workers w) := by
  have hdis := h.running.mp hinit
  have hhandle : s.http2Handle = true := h.opened.mpr (by simp [hdis])
  have hahead := h.ahead w
  unfold takes at hop
  split at hop
  next v hw =>
    obtain rfl : v = w := by simpa using hop
    simp only [next, hw, top]
    rw [if_neg (by simp [hc hw]), if_pos hinit]
    exact nearer_work trivial (Nat.le_refl _)
  next v hw =>
    obtain rfl : v = w := by simpa using hop
    simp only [next, hw, take]
    rw [if_neg (by simp [hdis])]
    split
    · rename_i hnil
      exact absurd hnil hlist
    · exact nearer_work (q := .begun _) trivial (Nat.le_refl _)
  next id v filesize hw =>
    obtain rfl : v = w := by simpa using hop
    simp only [next, hw]
    exact nearer_handle (hc id hw hhandle) hhandle filesize
  next id filesize v fsOffset malloc hw =>
    obtain rfl : v = w := by simpa using hop
    simp only [next, hw]
    exact nearer_openChannel (hc id filesize hw).1 (hc id filesize hw).2 fsOffset malloc
  next id x v read sent res hw =>
    obtain rfl : v = w := by simpa using hop
    have hcare := hc id x hw
    rw [hw] at hahead
    simp only [next, hw]
    split
    · rename_i hlt
      rw [if_pos hlt] at hcare
      exact nearer_sendPacket hcare.1 hcare.2 hlt read sent
    · rename_i hlt
      rw [if_neg hlt] at hcare
      exact nearer_endPart hahead hcare
  next id v hw =>
    obtain rfl : v = w := by simpa using hop
    obtain ⟨hid, hfreed⟩ := hc id hw
    simp only [next, hw, close]
    rw [if_neg (by simp [hfreed])]
    exact nearer_complete hid _ (Nat.le_refl _)
  next id v hw => exact absurd rfl (hremove v)
  next => cases hop

/-- A node waits in the list, on an open connection, and the thread will look at the list again. -/
def Waits (w id : Nat) (s : Uploads) : Prop :=
  s.Inv ∧ s.initState ∧ (s.workers w).Live ∧ id ∈ ids s.fileList

theorem remove_next {v id' : Nat} (h : s.Inv) (hv : s.workers v = .finished id')
    (hid : id' ∈ ids s.fileList) :
    ids s.fileList = id' :: ids (s.next (.remove v)).fileList ∧
      (s.next (.remove v)).gone = s.gone ++ [id'] ∧ (s.next (.remove v)).workers v = .top := by
  obtain ⟨node, rest, hl, rfl⟩ := h.works.first (w := v) (by rw [hv]; rfl) hid
  have hnode : s.node? node.id = some node := by simp [node?, hl]
  simp only [next, hv, remove, hnode]
  refine ⟨by simp [hl, ids], trivial, workers_work_self s v .top⟩

theorem Waits.remove (h : Waits w id s) {v id' : Nat} (hv : s.workers v = .finished id')
    (hid' : id' ∈ ids s.fileList) (hs : (s.next (.remove v)).Inv)
    (hinit : (s.next (.remove v)).initState) :
    id ∈ (s.next (.remove v)).gone ∨
      Waits w id (s.next (.remove v)) ∧
        left w id (s.next (.remove v)) + (if takes w s (.remove v) then 1 else 0) ≤
          left w id s := by
  obtain ⟨hinv, -, hlive, hid⟩ := h
  obtain ⟨hlist, hgone, htop⟩ := remove_next hinv hv hid'
  by_cases heq : id = id'
  · rw [hgone, heq]
    exact .inl (List.mem_append_right _ (List.mem_singleton_self _))
  rw [hlist] at hid
  have hrest := (List.mem_cons.mp hid).resolve_left heq
  have hidx : (ids s.fileList).idxOf id = (ids (s.next (.remove v)).fileList).idxOf id + 1 := by
    rw [hlist, List.idxOf_cons_ne _ (Ne.symm heq)]
  refine .inr ?_
  unfold left
  rw [hidx]
  cases hop : takes w s (.remove v) with
  | true =>
    obtain rfl : v = w := by
      unfold takes at hop
      split at hop <;> simp_all
    refine ⟨⟨hs, hinit, by rw [htop]; trivial, hrest⟩, ?_⟩
    rw [htop, hv]
    simp only [Worker.left, if_true]
    omega
  | false =>
    have hstay := takes_stays hop hlive
    refine ⟨⟨hs, hinit, by rw [hstay]; exact hlive, hrest⟩, ?_⟩
    rw [hstay, if_neg Bool.false_ne_true]
    omega

theorem Waits.keep (h : Waits w id s) (hremove : ∀ v, op ≠ .remove v)
    (hc : s.Careful op) (hs : (s.next op).Inv) (hinit : (s.next op).initState) :
    Waits w id (s.next op) ∧
      left w id (s.next op) + (if takes w s op then 1 else 0) ≤ left w id s := by
  obtain ⟨hinv, hinit', hlive, hid⟩ := h
  obtain ⟨more, hmore⟩ := (stepped_next s op).fileList (hinv.running.mp hinit') hremove
  have hid' : id ∈ ids (s.next op).fileList := by
    rw [hmore]
    exact List.mem_append_left _ hid
  have hidx : (ids (s.next op).fileList).idxOf id = (ids s.fileList).idxOf id := by
    rw [hmore, List.idxOf_append_of_mem hid]
  unfold left
  rw [hidx]
  cases hop : takes w s op with
  | true =>
    have hlist : s.fileList ≠ [] := by
      rintro hnil
      simp [hnil, ids] at hid
    obtain ⟨hlive', hleft⟩ := takes_next hinv hinit' hlist hc hop hremove
    refine ⟨⟨hs, hinit, hlive', hid'⟩, ?_⟩
    rw [if_pos rfl]
    omega
  | false =>
    have hstay := takes_stays hop hlive
    refine ⟨⟨hs, hinit, by rw [hstay]; exact hlive, hid'⟩, ?_⟩
    rw [hstay, if_neg Bool.false_ne_true]
    omega

theorem remove_idle {v : Nat} (hv : ∀ id, s.workers v ≠ .finished id) :
    s.next (.remove v) = s ∧ takes w s (.remove v) = false := by
  constructor
  · simp only [next]
  · unfold takes
    split
    case h_7 id u hid heq =>
      cases heq
      refine decide_eq_false ?_
      rintro rfl
      exact hv id hid
    all_goals simp_all

theorem Waits.step (h : Waits w id s) (hc : s.Careful op) (hs : (s.next op).Inv) :
    ((s.next op).initState → id ∈ (s.next op).gone) ∨
      Waits w id (s.next op) ∧
        left w id (s.next op) + (if takes w s op then 1 else 0) ≤ left w id s := by
  by_cases hinit : (s.next op).initState
  swap
  · exact .inl fun hi => absurd hi hinit
  by_cases hremove : ∃ v id', op = .remove v ∧ s.workers v = .finished id'
  · obtain ⟨v, id', rfl, hv⟩ := hremove
    exact (h.remove hv (hc id' hv) hs hinit).imp_left fun hgone _ => hgone
  · cases op with
    | remove v =>
      obtain ⟨hnext, hop⟩ := remove_idle (w := w) fun id' hv => hremove ⟨v, id', rfl, hv⟩
      rw [hnext, hop, if_neg Bool.false_ne_true, Nat.add_zero]
      exact .inr ⟨h, Nat.le_refl _⟩
    | _ =>
      refine .inr (h.keep ?_ hc hs hinit)
      intro v hv
      cases hv

end Nodes

end AliyunIot.Http2.Upload.Uploads
