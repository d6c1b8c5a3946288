import AliyunIot.Infra.State
import AliyunIot.Lib.First
import AliyunIot.Lib.Keyed
import AliyunIot.Lib.Run

/-!
# The message cache

`dm_message_cache.c`: the requests that wait for a reply, with `dmc_list_size` kept
beside their list. `msgCache_run`: the counter is right in every state of a run exactly
if no tick of it takes out an entry (`Spares`); whatever the counter says, an entry is
found until it is removed or times out, and a timeout is told once.
-/

namespace AliyunIot.Dm

open Lib

/-- The members of `iotx_dm_event_types_t` that a request is tracked under. -/
inductive IotxDmEvent where
  | subdevRegisterReply | subdevUnregisterReply | topoAddReply | topoDeleteReply
  | combineLoginReply | combineLogoutReply | eventPropertyPostReply
  deriving DecidableEq

/-- `dm_msg_cache_node_t`; `data` is an opaque pointer. -/
structure DmMsgCacheNode where
  msgid : Int
  devid : Int
  responseType : IotxDmEvent
  data : Option Nat
  ctime : Nat
  deriving DecidableEq

/-- `dm_msg_cache_ctx_t`. -/
structure DmMsgCache where
  dmcListSize : Int
  dmcList : List DmMsgCacheNode

abbrev configMsgcacheQueueMaxlen : Nat := 50
abbrev dmMsgCacheTimeoutMsDefault : Nat := 10000

def dmMsgCacheInit : DmMsgCache := ⟨0, []⟩

def dmMsgCacheInsert (ctx : DmMsgCache) (msgid devid : Int) (type : IotxDmEvent)
    (data : Option Nat) (malloc : Bool) (uptime : Nat) : Int × DmMsgCache :=
  if ctx.dmcListSize ≥ configMsgcacheQueueMaxlen then (State.devModelCtxListFull, ctx)
  else if malloc = false then (State.sysDependMalloc, ctx)
  else
    (State.success,
      { dmcListSize := ctx.dmcListSize + 1
        dmcList := ctx.dmcList ++ [⟨msgid, devid, type, data, uptime⟩] })

def dmMsgCacheSearch (ctx : DmMsgCache) (msgid : Int) : Int × Option DmMsgCacheNode :=
  if msgid < 0 then (State.userInputInvalid, none)
  else
    match ctx.dmcList.find? fun node => node.msgid = msgid with
    | some node => (State.success, some node)
    | none => (State.devModelCtxListEmpty, none)

def dmMsgCacheRemove (ctx : DmMsgCache) (msgid : Int) : Int × DmMsgCache :=
  match splitFirst (fun node : DmMsgCacheNode => decide (node.msgid = msgid)) ctx.dmcList with
  | some (as, _, bs) => (State.success, ⟨ctx.dmcListSize - 1, as ++ bs⟩)
  | none => (State.devModelCtxListEmpty, ctx)

/-- The node once `dm_msg_cache_tick` has looked at the clock. -/
def DmMsgCacheNode.rebase (node : DmMsgCacheNode) (currentTime : Nat) : DmMsgCacheNode :=
  if currentTime < node.ctime then { node with ctime := currentTime } else node

def DmMsgCacheNode.TimedOut (node : DmMsgCacheNode) (currentTime : Nat) : Prop :=
  currentTime - (node.rebase currentTime).ctime ≥ dmMsgCacheTimeoutMsDefault

instance (node : DmMsgCacheNode) (currentTime : Nat) : Decidable (node.TimedOut currentTime) :=
  inferInstanceAs (Decidable (_ ≥ _))

/-- The call of `dm_msg_send_msg_timeout_to_user` for a node. -/
abbrev TimeoutMsg := Int × Int × IotxDmEvent

def DmMsgCacheNode.timeoutMsg (node : DmMsgCacheNode) : TimeoutMsg :=
  (node.msgid, node.devid, node.responseType)

/-- The loop of `dm_msg_cache_tick`: the nodes left, and the timeouts sent. -/
def dmMsgCacheTickFrom (currentTime : Nat) :
    List DmMsgCacheNode → List DmMsgCacheNode × List TimeoutMsg
  | [] => ([], [])
  | node :: nodes =>
    let (left, sent) := dmMsgCacheTickFrom currentTime nodes
    if node.TimedOut currentTime then (left, (node.rebase currentTime).timeoutMsg :: sent)
    else (node.rebase currentTime :: left, sent)

def dmMsgCacheTick (ctx : DmMsgCache) (currentTime : Nat) : DmMsgCache × List TimeoutMsg :=
  let (left, sent) := dmMsgCacheTickFrom currentTime ctx.dmcList
  ({ ctx with dmcList := left }, sent)

/-! ## What the operations do to the list -/

theorem rebase_msgid (node : DmMsgCacheNode) (currentTime : Nat) :
    (node.rebase currentTime).msgid = node.msgid := by
  unfold DmMsgCacheNode.rebase
  split <;> rfl

theorem rebase_timeoutMsg (node : DmMsgCacheNode) (currentTime : Nat) :
    (node.rebase currentTime).timeoutMsg = node.timeoutMsg := by
  unfold DmMsgCacheNode.rebase
  split <;> rfl

theorem rebase_data (node : DmMsgCacheNode) (currentTime : Nat) :
    (node.rebase currentTime).data = node.data := by
  unfold DmMsgCacheNode.rebase
  split <;> rfl

theorem tickFrom_eq (currentTime : Nat) (nodes : List DmMsgCacheNode) :
    dmMsgCacheTickFrom currentTime nodes =
      ((nodes.filter fun node => ! decide (node.TimedOut currentTime)).map fun node =>
          node.rebase currentTime,
        (nodes.filter fun node => decide (node.TimedOut currentTime)).map
          DmMsgCacheNode.timeoutMsg) := by
  induction nodes with
  | nil => rfl
  | cons node nodes ih =>
    rw [dmMsgCacheTickFrom, ih, rebase_timeoutMsg]
    by_cases h : node.TimedOut currentTime
    · simp only [if_pos h, List.filter_cons, decide_eq_true h, Bool.not_true, if_true,
        Bool.false_eq_true, if_false, List.map_cons]
    · simp only [if_neg h, List.filter_cons, decide_eq_false h, Bool.not_false, if_true,
        Bool.false_eq_true, if_false, List.map_cons]

theorem insert_cases (ctx : DmMsgCache) (msgid devid : Int) (type : IotxDmEvent)
    (data : Option Nat) (malloc : Bool) (uptime : Nat) :
    ((dmMsgCacheInsert ctx msgid devid type data malloc uptime).1 ≠ State.success ∧
      (dmMsgCacheInsert ctx msgid devid type data malloc uptime).2 = ctx) ∨
    (ctx.dmcListSize < configMsgcacheQueueMaxlen ∧
      dmMsgCacheInsert ctx msgid devid type data malloc uptime =
        (State.success,
          ⟨ctx.dmcListSize + 1, ctx.dmcList ++ [⟨msgid, devid, type, data, uptime⟩]⟩)) := by
  unfold dmMsgCacheInsert
  split
  · exact .inl ⟨nofun, rfl⟩
  · next hsize =>
    split
    · exact .inl ⟨nofun, rfl⟩
    · exact .inr ⟨Int.not_le.mp hsize, rfl⟩

theorem remove_cases (ctx : DmMsgCache) (msgid : Int) :
    (dmMsgCacheRemove ctx msgid = (State.devModelCtxListEmpty, ctx) ∧
      ∀ node ∈ ctx.dmcList, node.msgid ≠ msgid) ∨
    ∃ as node bs, dmMsgCacheRemove ctx msgid =
        (State.success, ⟨ctx.dmcListSize - 1, as ++ bs⟩) ∧
      ctx.dmcList = as ++ node :: bs ∧ node.msgid = msgid ∧ ∀ a ∈ as, a.msgid ≠ msgid := by
  unfold dmMsgCacheRemove
  rcases splitFirst_cases (fun node : DmMsgCacheNode => decide (node.msgid = msgid)) ctx.dmcList
    with ⟨hnone, hall⟩ | ⟨as, node, bs, hsome, hlist, hmsgid, has⟩
  · rw [hnone]
    exact .inl ⟨rfl, fun node hnode => of_decide_eq_false (hall node hnode)⟩
  · rw [hsome]
    exact .inr ⟨as, node, bs, rfl, hlist, of_decide_eq_true hmsgid,
      fun a ha => of_decide_eq_false (has a ha)⟩

/-! ## Runs -/

inductive CacheOp where
  | insert (msgid devid : Int) (type : IotxDmEvent) (data : Option Nat) (malloc : Bool)
    (uptime : Nat)
  | search (msgid : Int)
  | remove (msgid : Int)
  | tick (currentTime : Nat)

/-- A node is inserted, one with an id is removed, or a timeout is told. -/
inductive CacheEvent where
  | inserted (node : DmMsgCacheNode)
  | removed (msgid : Int)
  | expired (sent : TimeoutMsg)
  deriving DecidableEq

structure CacheRun where
  ctx : DmMsgCache
  history : List CacheEvent

namespace CacheRun

def init : CacheRun := ⟨dmMsgCacheInit, []⟩

def next (s : CacheRun) : CacheOp → CacheRun
  | .insert msgid devid type data malloc uptime =>
    let (res, ctx) := dmMsgCacheInsert s.ctx msgid devid type data malloc uptime
    if res = State.success then
      ⟨ctx, s.history ++ [.inserted ⟨msgid, devid, type, data, uptime⟩]⟩
    else ⟨ctx, s.history⟩
  | .search _ => s
  | .remove msgid =>
    let (res, ctx) := dmMsgCacheRemove s.ctx msgid
    if res = State.success then ⟨ctx, s.history ++ [.removed msgid]⟩ else ⟨ctx, s.history⟩
  | .tick currentTime =>
    let (ctx, sent) := dmMsgCacheTick s.ctx currentTime
    ⟨ctx, s.history ++ sent.map .expired⟩

/-- What one operation does: nothing, insert a node, take one out, or tick. -/
inductive Step (s : CacheRun) : CacheOp → CacheRun → Prop
  | kept {op : CacheOp} (hop : ∀ t, op ≠ .tick t) : Step s op s
  | inserted {op : CacheOp} (hop : ∀ t, op ≠ .tick t) (node : DmMsgCacheNode)
    (hsize : s.ctx.dmcListSize < configMsgcacheQueueMaxlen) :
    Step s op ⟨⟨s.ctx.dmcListSize + 1, s.ctx.dmcList ++ [node]⟩, s.history ++ [.inserted node]⟩
  | removed {op : CacheOp} (hop : ∀ t, op ≠ .tick t) {as bs : List DmMsgCacheNode}
    {node : DmMsgCacheNode} (hlist : s.ctx.dmcList = as ++ node :: bs) :
    Step s op ⟨⟨s.ctx.dmcListSize - 1, as ++ bs⟩, s.history ++ [.removed node.msgid]⟩
  | ticked (t : Nat) :
    Step s (.tick t)
      ⟨⟨s.ctx.dmcListSize,
        (s.ctx.dmcList.filter fun node => ! decide (node.TimedOut t)).map fun node =>
          node.rebase t⟩,
        s.history ++ (s.ctx.dmcList.filter fun node => decide (node.TimedOut t)).map fun node =>
          .expired node.timeoutMsg⟩

theorem next_step (s : CacheRun) (op : CacheOp) : Step s op (s.next op) := by
  cases op with
  | insert msgid devid type data malloc uptime =>
    unfold next
    rcases insert_cases s.ctx msgid devid type data malloc uptime with ⟨hres, hctx⟩ | ⟨hsize, heq⟩
    · dsimp only
      rw [if_neg hres, hctx]
      exact .kept fun _ h => by cases h
    · simp only [heq, if_true]
      exact .inserted (fun _ h => by cases h) _ hsize
  | search msgid => exact .kept fun _ h => by cases h
  | remove msgid =>
    unfold next
    rcases remove_cases s.ctx msgid with ⟨heq, -⟩ | ⟨as, node, bs, heq, hlist, rfl, -⟩
    · simp only [heq]
      exact .kept fun _ h => by cases h
    · simp only [heq, if_true]
      exact .removed (fun _ h => by cases h) hlist
  | tick t =>
    unfold next dmMsgCacheTick
    simp only [tickFrom_eq, List.map_map]
    exact .ticked t

/-! ### The counter -/

/-- The counter is the number of nodes, at most the maximum, and an insert that says the
cache is full finds it full. -/
structure Accounted (ctx : DmMsgCache) : Prop where
  count : ctx.dmcListSize = ctx.dmcList.length
  bounded : ctx.dmcList.length ≤ configMsgcacheQueueMaxlen
  full : ∀ msgid devid type data malloc uptime,
    (dmMsgCacheInsert ctx msgid devid type data malloc uptime).1 = State.devModelCtxListFull →
    ctx.dmcList.length = configMsgcacheQueueMaxlen

/-- A tick takes out no node. -/
def Spares (s : CacheRun) : CacheOp → Prop
  | .tick t => ∀ node ∈ s.ctx.dmcList, ¬ node.TimedOut t
  | _ => True

instance (s : CacheRun) : (op : CacheOp) → Decidable (s.Spares op)
  | .tick t => inferInstanceAs (Decidable (∀ node ∈ s.ctx.dmcList, ¬ node.TimedOut t))
  | .insert .. | .search _ | .remove _ => .isTrue trivial

theorem accounted_of_count {ctx : DmMsgCache} (hcount : ctx.dmcListSize = ctx.dmcList.length)
    (hmax : ctx.dmcListSize ≤ configMsgcacheQueueMaxlen) : Accounted ctx := by
  refine ⟨hcount, by omega, fun msgid devid type data malloc uptime h => ?_⟩
  unfold dmMsgCacheInsert at h
  split at h
  · omega
  · split at h
    · cases h
    · cases h

variable {s : CacheRun}

theorem accounted_step {t : CacheRun} {op : CacheOp} (hstep : Step s op t) (hspares : s.Spares op)
    (h : Accounted s.ctx) : Accounted t.ctx := by
  have hmax := h.bounded
  have hcount := h.count
  cases hstep with
  | kept _ => exact h
  | inserted _ node hsize =>
    refine accounted_of_count ?_ ?_
    · rw [List.length_append, List.length_singleton, hcount]
      rfl
    · show s.ctx.dmcListSize + 1 ≤ _
      omega
  | @removed _ _ as bs node hlist =>
    have hlen : s.ctx.dmcList.length = (as ++ bs).length + 1 := by
      rw [hlist, List.length_append, List.length_append, List.length_cons]
      omega
    refine accounted_of_count ?_ ?_
    · show s.ctx.dmcListSize - 1 = ((as ++ bs).length : Int)
      omega
    · show s.ctx.dmcListSize - 1 ≤ _
      omega
  | ticked time =>
    have hall : (s.ctx.dmcList.filter fun node => ! decide (node.TimedOut time)) = s.ctx.dmcList :=
      List.filter_eq_self.mpr fun node hnode => by rw [decide_eq_false (hspares node hnode)]; rfl
    refine accounted_of_count ?_ ?_
    · show s.ctx.dmcListSize = _
      rw [hall, List.length_map, hcount]
    · show s.ctx.dmcListSize ≤ _
      omega

theorem spares_of_accounted {op : CacheOp} (h : Accounted s.ctx)
    (h' : Accounted (s.next op).ctx) : s.Spares op := by
  cases op with
  | tick time =>
    have hcount := h.count
    have hcount' := h'.count
    unfold next dmMsgCacheTick at hcount'
    simp only [tickFrom_eq, List.length_map] at hcount'
    have hlen : (s.ctx.dmcList.filter fun node => ! decide (node.TimedOut time)).length =
        s.ctx.dmcList.length := by omega
    intro node hnode
    have hkept := List.length_filter_eq_length_iff.mp hlen node hnode
    exact of_decide_eq_false (Bool.not_eq_true' _ ▸ hkept)
  | _ => exact trivial

theorem accounted_init : Accounted init.ctx := accounted_of_count rfl (by decide)

theorem accounted_iff (ops : List CacheOp) :
    (∀ pre post, ops = pre ++ post → Accounted (run next init pre).ctx) ↔
      Meets next Spares init ops := by
  constructor
  · intro h
    rw [meets_iff_forall_split]
    intro pre op post hops
    have hnext := h (pre ++ [op]) post (by rw [hops, List.append_assoc]; rfl)
    rw [run_concat] at hnext
    exact spares_of_accounted (h pre (op :: post) hops) hnext
  · rintro h pre post rfl
    exact run_invariant_of_meets (I := fun s : CacheRun => Accounted s.ctx)
      (fun s op hspares hs => accounted_step (next_step s op) hspares hs) (meets_append.mp h).1
      accounted_init

/-! ### The entries -/

/-- How many events of a kind there were about an id, and how many nodes have it. -/
def insertedCount (history : List CacheEvent) (msgid : Int) : Nat :=
  history.countP fun e => match e with
    | .inserted node => decide (node.msgid = msgid)
    | _ => false

def removedCount (history : List CacheEvent) (msgid : Int) : Nat :=
  history.countP fun e => decide (e = .removed msgid)

def expiredCount (history : List CacheEvent) (msgid : Int) : Nat :=
  history.countP fun e => match e with
    | .expired sent => decide (sent.1 = msgid)
    | _ => false

def cachedCount (ctx : DmMsgCache) (msgid : Int) : Nat :=
  ctx.dmcList.countP fun node => decide (node.msgid = msgid)

/-- A node was inserted, and none with its id removed or told to have timed out since. -/
def Live (history : List CacheEvent) (node : DmMsgCacheNode) : Prop :=
  ∃ before after, history = before ++ .inserted node :: after ∧
    .removed node.msgid ∉ after ∧ ∀ sent, .expired sent ∈ after → sent.1 ≠ node.msgid

def insertedIds (history : List CacheEvent) : List Int :=
  history.filterMap fun e => match e with
    | .inserted node => some node.msgid
    | _ => none

/-- The ids inserted are distinct and not negative. -/
def InsertedApart (history : List CacheEvent) : Prop :=
  (insertedIds history).Nodup ∧ ∀ msgid ∈ insertedIds history, 0 ≤ msgid

instance (history : List CacheEvent) : Decidable (InsertedApart history) :=
  inferInstanceAs (Decidable (_ ∧ _))

def Finds (ctx : DmMsgCache) (node : DmMsgCacheNode) : Prop :=
  ∃ found, dmMsgCacheSearch ctx node.msgid = (State.success, some found) ∧
    found.timeoutMsg = node.timeoutMsg ∧ found.data = node.data

/-- Every node inserted is in the cache, removed or told to have timed out. -/
def Balanced (s : CacheRun) : Prop :=
  ∀ msgid, insertedCount s.history msgid =
    cachedCount s.ctx msgid + removedCount s.history msgid + expiredCount s.history msgid

theorem balanced_step {t : CacheRun} {op : CacheOp} (hstep : Step s op t) (h : s.Balanced) :
    t.Balanced := by
  intro msgid
  have hs := h msgid
  unfold insertedCount cachedCount removedCount expiredCount at hs ⊢
  cases hstep with
  | kept _ => exact hs
  | inserted _ node hsize =>
    simp only [List.countP_append, List.countP_singleton]
    by_cases hid : node.msgid = msgid
    · simp [hid]
      omega
    · simp [hid]
      omega
  | @removed _ _ as bs node hlist =>
    simp only [hlist, List.countP_append, List.countP_cons, List.countP_nil] at hs ⊢
    by_cases hid : node.msgid = msgid
    · simp [hid] at hs ⊢
      omega
    · simp [hid] at hs ⊢
      omega
  | ticked time =>
    have hsplit := List.countP_eq_countP_filter_add s.ctx.dmcList
      (fun node => decide (node.msgid = msgid)) fun node => decide (node.TimedOut time)
    simp only [List.countP_append, List.countP_map, Function.comp_def, rebase_msgid,
      DmMsgCacheNode.timeoutMsg, reduceCtorEq, decide_false, List.countP_false]
    omega

theorem live_append {history es : List CacheEvent} {node : DmMsgCacheNode}
    (h : Live (history ++ es) node) :
    .inserted node ∈ es ∨ (Live history node ∧ .removed node.msgid ∉ es ∧
      ∀ sent, .expired sent ∈ es → sent.1 ≠ node.msgid) := by
  obtain ⟨before, after, hsplit, hremoved, hexpired⟩ := h
  rcases List.append_eq_append_iff.mp hsplit with ⟨mid, -, hes⟩ | ⟨mid, hhistory, hmid⟩
  · exact .inl (hes ▸ List.mem_append_right _ List.mem_cons_self)
  · cases mid with
    | nil =>
      rw [List.nil_append] at hmid
      exact .inl (hmid ▸ List.mem_cons_self)
    | cons e mid =>
      obtain ⟨rfl, rfl⟩ := List.cons.inj hmid
      refine .inr ⟨⟨before, mid, hhistory, fun hm => ?_, fun sent hm => ?_⟩, fun hm => ?_,
        fun sent hm => ?_⟩
      · exact hremoved (List.mem_append_left _ hm)
      · exact hexpired sent (List.mem_append_left _ hm)
      · exact hremoved (List.mem_append_right _ hm)
      · exact hexpired sent (List.mem_append_right _ hm)

/-- Every live node is in the cache, perhaps with another time. -/
def Keeps (s : CacheRun) : Prop :=
  ∀ node, Live s.history node →
    ∃ cached ∈ s.ctx.dmcList, cached.timeoutMsg = node.timeoutMsg ∧ cached.data = node.data

theorem keeps_step {t : CacheRun} {op : CacheOp} (hstep : Step s op t) (h : s.Keeps) : t.Keeps := by
  intro node hlive
  cases hstep with
  | kept _ => exact h node hlive
  | inserted _ new hsize =>
    rcases live_append hlive with hnew | ⟨hold, -⟩
    · cases List.mem_singleton.mp hnew
      exact ⟨node, List.mem_append_right _ List.mem_cons_self, rfl, rfl⟩
    · obtain ⟨cached, hmem, hsame⟩ := h node hold
      exact ⟨cached, List.mem_append_left _ hmem, hsame⟩
  | @removed _ _ as bs gone hlist =>
    rcases live_append hlive with hnew | ⟨hold, hremoved, -⟩
    · cases List.mem_singleton.mp hnew
    · obtain ⟨cached, hmem, hsame⟩ := h node hold
      refine ⟨cached, ?_, hsame⟩
      rw [hlist] at hmem
      rcases List.mem_append.mp hmem with hmem | hmem
      · exact List.mem_append_left _ hmem
      · rcases List.mem_cons.mp hmem with rfl | hmem
        · have hid : cached.msgid = node.msgid := congrArg Prod.fst hsame.1
          exact absurd (by rw [hid]; exact List.mem_cons_self) hremoved
        · exact List.mem_append_right _ hmem
  | ticked time =>
    rcases live_append hlive with hnew | ⟨hold, -, hexpired⟩
    · obtain ⟨_, _, hevent⟩ := List.mem_map.mp hnew
      cases hevent
    · obtain ⟨cached, hmem, hsame⟩ := h node hold
      have hid : cached.msgid = node.msgid := congrArg Prod.fst hsame.1
      have hkept : ¬ cached.TimedOut time := fun hout =>
        hexpired cached.timeoutMsg
          (List.mem_map_of_mem (List.mem_filter.mpr ⟨hmem, decide_eq_true hout⟩)) hid
      refine ⟨cached.rebase time, List.mem_map_of_mem (List.mem_filter.mpr ⟨hmem, ?_⟩), ?_, ?_⟩
      · rw [decide_eq_false hkept]
        rfl
      · rw [rebase_timeoutMsg, hsame.1]
      · rw [rebase_data, hsame.2]

theorem insertedCount_le {history : List CacheEvent} (h : InsertedApart history) (msgid : Int) :
    insertedCount history msgid ≤ 1 := by
  have hcount : insertedCount history msgid = (insertedIds history).count msgid := by
    unfold insertedCount insertedIds
    rw [List.count_filterMap]
    refine List.countP_congr fun e _ => ?_
    cases e <;> simp
  rw [hcount]
  exact List.nodup_iff_count_le_one.mp h.1 msgid

theorem eq_of_msgid (h : s.Balanced) (hapart : InsertedApart s.history)
    {as bs : List DmMsgCacheNode} {found cached : DmMsgCacheNode}
    (hlist : s.ctx.dmcList = as ++ found :: bs) (hmem : cached ∈ s.ctx.dmcList)
    (hid : cached.msgid = found.msgid) : cached = found := by
  have hle := insertedCount_le hapart found.msgid
  have hbalance := h found.msgid
  unfold cachedCount at hbalance
  rw [hlist, List.countP_append, List.countP_cons, if_pos (decide_eq_true rfl)] at hbalance
  have has : as.countP (fun node => decide (node.msgid = found.msgid)) = 0 := by omega
  have hbs : bs.countP (fun node => decide (node.msgid = found.msgid)) = 0 := by omega
  rw [hlist] at hmem
  rcases List.mem_append.mp hmem with hmem | hmem
  · exact absurd (decide_eq_true hid) (List.countP_eq_zero.mp has cached hmem)
  · rcases List.mem_cons.mp hmem with rfl | hmem
    · rfl
    · exact absurd (decide_eq_true hid) (List.countP_eq_zero.mp hbs cached hmem)

theorem finds_of_live (hkeeps : s.Keeps) (hbalanced : s.Balanced)
    (hapart : InsertedApart s.history) {node : DmMsgCacheNode} (hlive : Live s.history node) :
    Finds s.ctx node := by
  obtain ⟨cached, hmem, hmsg, hdata⟩ := hkeeps node hlive
  have hid : cached.msgid = node.msgid := congrArg Prod.fst hmsg
  have hpos : 0 ≤ node.msgid := by
    obtain ⟨before, after, hhistory, -⟩ := hlive
    refine hapart.2 _ (List.mem_filterMap.mpr ⟨.inserted node, ?_, rfl⟩)
    rw [hhistory]
    exact List.mem_append_right _ List.mem_cons_self
  rcases splitFirst_cases (fun n : DmMsgCacheNode => decide (n.msgid = node.msgid)) s.ctx.dmcList
    with ⟨-, hall⟩ | ⟨as, found, bs, hsome, hlist, hfound, -⟩
  · exact absurd (decide_eq_true hid) (by rw [hall cached hmem]; decide)
  · have hfound : found.msgid = node.msgid := of_decide_eq_true hfound
    obtain rfl := eq_of_msgid hbalanced hapart hlist hmem (hid.trans hfound.symm)
    refine ⟨cached, ?_, hmsg, hdata⟩
    unfold dmMsgCacheSearch
    rw [if_neg (Int.not_lt.mpr hpos), find?_eq_map_splitFirst, hsome]
    rfl

theorem balanced_run (ops : List CacheOp) : (run next init ops).Balanced :=
  run_invariant (fun s op h => balanced_step (next_step s op) h) (fun _ => rfl) ops

theorem keeps_run (ops : List CacheOp) : (run next init ops).Keeps := by
  refine run_invariant (fun s op h => keeps_step (next_step s op) h) ?_ ops
  rintro node ⟨before, after, hhistory, -⟩
  cases before <;> cases hhistory

/-- What a tick does to an entry: it stays, or its timeout is sent and it is gone. -/
def TicksOnce (ctx : DmMsgCache) (currentTime : Nat) : Prop :=
  (dmMsgCacheTick ctx currentTime).2 =
    (ctx.dmcList.filter fun node => decide (node.TimedOut currentTime)).map
      DmMsgCacheNode.timeoutMsg ∧
  (dmMsgCacheTick ctx currentTime).1.dmcList =
    (ctx.dmcList.filter fun node => ! decide (node.TimedOut currentTime)).map fun node =>
      node.rebase currentTime

theorem msgCache_run (ops : List CacheOp) :
    ((∀ pre post, ops = pre ++ post → Accounted (run next init pre).ctx) ↔
      Meets next Spares init ops) ∧
    let s := run next init ops
    (InsertedApart s.history → ∀ node, Live s.history node → Finds s.ctx node) ∧
    (∀ currentTime, TicksOnce s.ctx currentTime) ∧
    ∀ msgid, insertedCount s.history msgid =
      cachedCount s.ctx msgid + removedCount s.history msgid + expiredCount s.history msgid := by
  refine ⟨accounted_iff ops, fun hapart node => ?_, fun currentTime => ?_, balanced_run ops⟩
  · exact finds_of_live (keeps_run ops) (balanced_run ops) hapart
  · unfold TicksOnce dmMsgCacheTick
    rw [tickFrom_eq]
    exact ⟨rfl, rfl⟩

/-- As many requests as the cache has room for, which all time out. -/
def timedOutOps : List CacheOp :=
  (List.range configMsgcacheQueueMaxlen).map (fun k => .insert k 0 .topoAddReply none true 0) ++
    [.tick dmMsgCacheTimeoutMsDefault]

/-- The cache is empty and full. -/
theorem timedOutOps_not_accounted :
    (run next init timedOutOps).ctx.dmcList = [] ∧
    (dmMsgCacheInsert (run next init timedOutOps).ctx 51 0 .topoAddReply none true 10000).1 =
      State.devModelCtxListFull ∧
    ¬ ∀ pre post, timedOutOps = pre ++ post → Accounted (run next init pre).ctx := by
  have hlist : (run next init timedOutOps).ctx.dmcList = [] := by decide +kernel
  have hsize : (run next init timedOutOps).ctx.dmcListSize = configMsgcacheQueueMaxlen := by
    decide +kernel
  refine ⟨hlist, ?_, fun h => ?_⟩
  · unfold dmMsgCacheInsert
    rw [if_pos (Int.le_of_eq hsize.symm)]
  · have hcount := (h timedOutOps [] (List.append_nil _).symm).count
    rw [hlist, hsize] at hcount
    exact absurd hcount (by decide)

end CacheRun

end AliyunIot.Dm
