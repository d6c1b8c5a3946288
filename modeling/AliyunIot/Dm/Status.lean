import AliyunIot.Dm.MessageCache
import AliyunIot.Dm.Register

/-!
# Cloud commands and the status of a device

The command `thing/delete`, the replies to topo add, topo delete, login and logout requests,
the registrations, and `dm_mgr_upstream_combine_logout`. `last` remembers the last successful
reply about each device. `statusKept_run`: in a run in which no delete command names a
sub-device, no topo delete reply reports success, and no failed registration is listed in a
successful reply, the status of every device is the one its last successful reply gives, and a
logout is requested just after a login.
-/

namespace AliyunIot.Dm

open Lib

abbrev iotxDmErrCodeRequestError : Int := 400

/-- `dm_msg_thing_delete`; `sent` is whether the message goes to the user. -/
def dmMsgThingDelete (ctx : DmMgrCtx) (productKey deviceName : CStr) (sent : Bool) :
    Int × DmMgrCtx :=
  if productKey.strlen ≥ iotxProductKeyLen + 1 ∨ deviceName.strlen ≥ iotxDeviceNameLen + 1 then
    (State.userInputInvalid, ctx)
  else if (dmMgrSearchDevByPkdn ctx productKey deviceName).isSome then (State.failReturn, ctx)
  else
    -- `devid` is still zero
    let (res, ctx) := dmMgrDeviceDestroy ctx 0
    if res ≠ State.success then (State.failReturn, ctx)
    else if sent = false then (State.failReturn, ctx)
    else (State.success, ctx)

/-- The code with which `dm_msg_proc_thing_delete` answers, and the devices then. -/
def dmMsgProcThingDelete (ctx : DmMgrCtx) (productKey deviceName : CStr) (sent : Bool) :
    Int × DmMgrCtx :=
  let (res, ctx) := dmMsgThingDelete ctx productKey deviceName sent
  (if res = State.success then iotxDmErrCodeSuccess else iotxDmErrCodeRequestError, ctx)

/-- `Remove Message From Cache`; `id` is none when it has more than
`DM_UTILS_UINT32_STRLEN` characters. -/
def cacheAfter (cache : DmMsgCache) (id : Option Int) : DmMsgCache :=
  match id with
  | none => cache
  | some id => (dmMsgCacheRemove cache id).2

/-- What both topo replies do: the device is that of the cached request. -/
def topoReply (ctx : DmMgrCtx) (cache : DmMsgCache) (id : Option Int) (code : Int)
    (status : IotxDmDevStatus) : DmMgrCtx × DmMsgCache :=
  let ctx :=
    match id.bind fun id => (dmMsgCacheSearch cache id).2 with
    | none => ctx
    | some node =>
      if code = iotxDmErrCodeSuccess then (dmMgrSetDevStatus ctx node.devid status).2 else ctx
  (ctx, cacheAfter cache id)

def dmMsgProcThingTopoAddReply (ctx : DmMgrCtx) (cache : DmMsgCache) (id : Option Int)
    (code : Int) : DmMgrCtx × DmMsgCache := topoReply ctx cache id code .attached

def dmMsgProcThingTopoDeleteReply (ctx : DmMgrCtx) (cache : DmMsgCache) (id : Option Int)
    (code : Int) : DmMgrCtx × DmMsgCache := topoReply ctx cache id code .attached

/-- What the replies to login and logout do: the device is the one whose names are in the
data; a name is none when the data has no such string. -/
def combineReply (ctx : DmMgrCtx) (productKey deviceName : Option CStr) (code : Int)
    (status : IotxDmDevStatus) : Int × DmMgrCtx :=
  match productKey, deviceName with
  | some productKey, some deviceName =>
    if productKey.strlen ≥ iotxProductKeyLen + 1 ∨ deviceName.strlen ≥ iotxDeviceNameLen + 1 then
      (State.dmJsonParseFailed, ctx)
    else
      match dmMgrSearchDevByPkdn ctx productKey deviceName with
      | none => (State.failReturn, ctx)
      | some node =>
        (State.success,
          if code = iotxDmErrCodeSuccess then (dmMgrSetDevStatus ctx node.devid status).2 else ctx)
  | _, _ => (State.dmJsonParseFailed, ctx)

def dmMsgCombineLoginReply (ctx : DmMgrCtx) (productKey deviceName : Option CStr) (code : Int) :
    Int × DmMgrCtx := combineReply ctx productKey deviceName code .logined

def dmMsgCombineLogoutReply (ctx : DmMgrCtx) (productKey deviceName : Option CStr) (code : Int) :
    Int × DmMgrCtx := combineReply ctx productKey deviceName code .attached

/-- The loops over the items of a registration reply, as far as they touch a status. -/
def registerStatus (response : ResponsePayload) (ctx : DmMgrCtx) (pkdn : CStr × CStr) :
    DmMgrCtx :=
  match dmMgrSearchDevByPkdn ctx pkdn.1 pkdn.2 with
  | none => ctx
  | some node => updateStateMachine response ctx node.devid

/-- `dm_mgr_upstream_combine_logout`, and whether a request is sent; `params` is whether
`dm_msg_combine_logout` can make it. -/
def DmMgrCtx.dmMgrUpstreamCombineLogout (ctx : DmMgrCtx) (devid : Int) (params : Bool) :
    Int × Bool :=
  if devid < 0 then (State.userInputDevid, false)
  else
    match dmMgrSearchDevByDevid ctx devid with
    | none => (State.devModelDeviceNotFound, false)
    | some node =>
      if node.devStatus.rank < IotxDmDevStatus.logined.rank then
        (State.devModelSubdNotLogin, false)
      else if params = false then (State.sysDependMalloc, false)
      else (State.success, true)

/-! ## Runs -/

/-- What a successful reply says about a device. -/
inductive Transition where
  | topoAdd | topoDelete | login | logout | register

/-- The status after the last successful reply; before the first, a device was not yet
attached. -/
def Allowed : Option Transition → IotxDmDevStatus → Prop
  | none, status => status.rank < IotxDmDevStatus.attached.rank
  | some .topoAdd, status => status = .attached
  | some .topoDelete, status => status.rank < IotxDmDevStatus.attached.rank
  | some .login, status => status = .logined
  | some .logout, status => status = .attached
  | some .register, status => status = .registered

instance : (last : Option Transition) → (status : IotxDmDevStatus) → Decidable (Allowed last status)
  | none, status | some .topoDelete, status =>
    inferInstanceAs (Decidable (status.rank < IotxDmDevStatus.attached.rank))
  | some .topoAdd, status | some .logout, status =>
    inferInstanceAs (Decidable (status = .attached))
  | some .login, status => inferInstanceAs (Decidable (status = .logined))
  | some .register, status => inferInstanceAs (Decidable (status = .registered))

structure StatusRun where
  ctx : DmMgrCtx
  cache : DmMsgCache
  last : CStr × CStr → Option Transition

inductive StatusOp where
  | thingDelete (productKey deviceName : CStr) (sent : Bool)
  | topoAddReply (id : Option Int) (code : Int)
  | topoDeleteReply (id : Option Int) (code : Int)
  | loginReply (id : Option Int) (productKey deviceName : Option CStr) (code : Int)
  | logoutReply (id : Option Int) (productKey deviceName : Option CStr) (code : Int)
  /-- the names of the devices listed as registered, and of those listed among the failures -/
  | registerReply (id : Option Int) (response : ResponsePayload)
    (registered failed : List (CStr × CStr))
  /-- the user asks for a logout -/
  | logout (devid : Int) (params : Bool)
  /-- a request is cached, or the cache ticks -/
  | request (msgid devid : Int) (type : IotxDmEvent) (malloc : Bool) (uptime : Nat)
  | tick (currentTime : Nat)

namespace StatusRun

def topoDevice (s : StatusRun) (id : Option Int) : Option DmMgrDevNode :=
  (id.bind fun id => (dmMsgCacheSearch s.cache id).2).bind fun node =>
    s.ctx.devList.find? fun dev => dev.devid = node.devid

/-- The device that a login or logout reply is about. -/
def combineDevice (s : StatusRun) (productKey deviceName : Option CStr) : Option DmMgrDevNode :=
  productKey.bind fun pk => deviceName.bind fun dn =>
    if pk.strlen ≥ iotxProductKeyLen + 1 ∨ dn.strlen ≥ iotxDeviceNameLen + 1 then none
    else dmMgrSearchDevByPkdn s.ctx pk dn

/-- A reply about a device is remembered when it reports success. -/
def note (s : StatusRun) (device : Option DmMgrDevNode) (code : Int) (t : Transition) :
    CStr × CStr → Option Transition :=
  match device with
  | none => s.last
  | some node =>
    if code = iotxDmErrCodeSuccess then Function.update s.last node.pkdn (some t) else s.last

/-- The same for all that a registration reply lists as registered. -/
def noteListed (s : StatusRun) (response : ResponsePayload) (registered : List (CStr × CStr))
    (pkdn : CStr × CStr) : Option Transition :=
  if response.code = iotxDmErrCodeSuccess ∧ pkdn ∈ registered then some .register
  else s.last pkdn

def next (s : StatusRun) : StatusOp → StatusRun
  | .thingDelete productKey deviceName sent =>
    { s with ctx := (dmMsgProcThingDelete s.ctx productKey deviceName sent).2 }
  | .topoAddReply id code =>
    let (ctx, cache) := dmMsgProcThingTopoAddReply s.ctx s.cache id code
    ⟨ctx, cache, s.note (s.topoDevice id) code .topoAdd⟩
  | .topoDeleteReply id code =>
    let (ctx, cache) := dmMsgProcThingTopoDeleteReply s.ctx s.cache id code
    ⟨ctx, cache, s.note (s.topoDevice id) code .topoDelete⟩
  | .loginReply id productKey deviceName code =>
    { ctx := (dmMsgCombineLoginReply s.ctx productKey deviceName code).2
      cache := cacheAfter s.cache id
      last := s.note (s.combineDevice productKey deviceName) code .login }
  | .logoutReply id productKey deviceName code =>
    { ctx := (dmMsgCombineLogoutReply s.ctx productKey deviceName code).2
      cache := cacheAfter s.cache id
      last := s.note (s.combineDevice productKey deviceName) code .logout }
  | .registerReply id response registered failed =>
    -- the loop over the failures sets the status as the one over the successes does
    { ctx := (registered ++ failed).foldl (registerStatus response) s.ctx
      cache := cacheAfter s.cache id
      last := s.noteListed response registered }
  | .logout _ _ => s
  | .request msgid devid type malloc uptime =>
    { s with cache := (dmMsgCacheInsert s.cache msgid devid type none malloc uptime).2 }
  | .tick currentTime => { s with cache := (dmMsgCacheTick s.cache currentTime).1 }

/-- Every status is the one that the last successful reply gives. -/
def StatusKept (s : StatusRun) : Prop :=
  ∀ node ∈ s.ctx.devList, Allowed (s.last node.pkdn) node.devStatus

/-- The names belong to a device that is not the local node. -/
def SubDevice (s : StatusRun) (pkdn : CStr × CStr) : Prop :=
  ∃ node ∈ s.ctx.devList, node.pkdn = pkdn ∧ node.devid ≠ iotxDmLocalNodeDevid

/-- What a command and a logout have to do. -/
def StepKept (s : StatusRun) : StatusOp → Prop
  | .thingDelete productKey deviceName sent =>
    (s.SubDevice (productKey, deviceName) →
      (dmMsgProcThingDelete s.ctx productKey deviceName sent).2.devList =
        s.ctx.devList.filter fun node => node.pkdn ≠ (productKey, deviceName)) ∧
    (¬ s.SubDevice (productKey, deviceName) →
      dmMsgProcThingDelete s.ctx productKey deviceName sent =
        (iotxDmErrCodeRequestError, s.ctx))
  | .logout devid params =>
    (s.ctx.dmMgrUpstreamCombineLogout devid params).2 = true ↔ params = true ∧
      ∃ node ∈ s.ctx.devList, node.devid = devid ∧ s.last node.pkdn = some .login
  | _ => True

/-- The condition on a step. -/
def Careful (s : StatusRun) : StatusOp → Prop
  | .thingDelete productKey deviceName _ => ¬ s.SubDevice (productKey, deviceName)
  | .topoDeleteReply id code => code = iotxDmErrCodeSuccess → s.topoDevice id = none
  | .registerReply _ response registered failed =>
    response.code = iotxDmErrCodeSuccess → ∀ node ∈ s.ctx.devList, node.pkdn ∈ failed →
      node.pkdn ∈ registered ∨ s.last node.pkdn = some .register
  | _ => True

/-! ## The replies -/

def setStatus (status : IotxDmDevStatus) (node : DmMgrDevNode) : DmMgrDevNode :=
  { node with devStatus := status }

section
variable {ctx : DmMgrCtx} {s : StatusRun}

theorem setDevStatus_eq (hap : Apart ctx) (devid : Int) (status : IotxDmDevStatus) :
    (dmMgrSetDevStatus ctx devid status).2 =
      match ctx.devList.find? fun dev => dev.devid = devid with
      | none => ctx
      | some node => ctx.change node.pkdn (setStatus status) := by
  cases hfind : ctx.devList.find? fun dev => dev.devid = devid with
  | none =>
    have hnone : splitFirst (fun dev : DmMgrDevNode => decide (dev.devid = devid)) ctx.devList =
        none :=
      splitFirst_eq_none_iff.mpr fun dev hdev => by simpa using List.find?_eq_none.mp hfind dev hdev
    unfold dmMgrSetDevStatus
    split
    · rfl
    · rw [dmMgrSetDev, hnone]
  | some node =>
    obtain rfl : node.devid = devid := by simpa using List.find?_some hfind
    rw [setDevStatus_of_mem hap (List.mem_of_find?_eq_some hfind)]
    rfl

theorem topoReply_ctx (hap : Apart s.ctx) (id : Option Int) (code : Int)
    (status : IotxDmDevStatus) :
    (topoReply s.ctx s.cache id code status).1 =
      match s.topoDevice id with
      | none => s.ctx
      | some node =>
        if code = iotxDmErrCodeSuccess then s.ctx.change node.pkdn (setStatus status)
        else s.ctx := by
  unfold topoReply topoDevice
  cases id.bind fun id => (dmMsgCacheSearch s.cache id).2 with
  | none => rfl
  | some node =>
    dsimp only
    rw [Option.bind_some, setDevStatus_eq hap]
    cases s.ctx.devList.find? fun dev => dev.devid = node.devid with
    | none => exact ite_self _
    | some dev => rfl

theorem combineReply_ctx (hap : Apart s.ctx) (productKey deviceName : Option CStr) (code : Int)
    (status : IotxDmDevStatus) :
    (combineReply s.ctx productKey deviceName code status).2 =
      match s.combineDevice productKey deviceName with
      | none => s.ctx
      | some node =>
        if code = iotxDmErrCodeSuccess then s.ctx.change node.pkdn (setStatus status)
        else s.ctx := by
  unfold combineReply combineDevice
  cases productKey with
  | none => rfl
  | some pk =>
    cases deviceName with
    | none => rfl
    | some dn =>
      simp only [Option.bind_some]
      split
      · rfl
      cases hsearch : dmMgrSearchDevByPkdn s.ctx pk dn with
      | none => rfl
      | some node =>
        obtain ⟨hnode, -⟩ := (searchDevByPkdn_eq_some_iff hap).mp hsearch
        dsimp only
        rw [setDevStatus_of_mem hap hnode]
        rfl

/-! ## The invariant -/

structure Inv (s : StatusRun) : Prop where
  apart : Apart s.ctx
  kept : s.StatusKept

theorem Inv.reply (h : s.Inv) {device : Option DmMgrDevNode} {status : IotxDmDevStatus}
    {t : Transition} {code : Int} {ctx : DmMgrCtx} {cache : DmMsgCache}
    (hctx : ctx = match device with
      | none => s.ctx
      | some node =>
        if code = iotxDmErrCodeSuccess then s.ctx.change node.pkdn (setStatus status) else s.ctx)
    (hallowed : device.isSome = true → code = iotxDmErrCodeSuccess → Allowed (some t) status) :
    (⟨ctx, cache, s.note device code t⟩ : StatusRun).Inv := by
  cases device with
  | none =>
    rw [hctx]
    exact ⟨h.apart, h.kept⟩
  | some node =>
    by_cases hcode : code = iotxDmErrCodeSuccess
    · have hchange : ctx = s.ctx.change node.pkdn (setStatus status) := by
        rw [hctx]; exact if_pos hcode
      have hnote : s.note (some node) code t = Function.update s.last node.pkdn (some t) :=
        if_pos hcode
      rw [hchange, hnote]
      refine ⟨h.apart.change (fun _ => rfl) fun _ => rfl, fun n hn => ?_⟩
      obtain ⟨old, hold, heq⟩ := List.mem_map.mp hn
      by_cases hname : old.pkdn = node.pkdn
      · rw [if_pos hname] at heq
        subst heq
        have hlast : Function.update s.last node.pkdn (some t) (setStatus status old).pkdn =
            some t := (congrArg _ hname).trans (Function.update_self _ _ _)
        dsimp only
        rw [hlast]
        exact hallowed rfl hcode
      · rw [if_neg hname] at heq
        subst heq
        dsimp only
        rw [Function.update_of_ne hname]
        exact h.kept old hold
    · have hsame : ctx = s.ctx := by rw [hctx]; exact if_neg hcode
      have hnote : s.note (some node) code t = s.last := if_neg hcode
      rw [hsame, hnote]
      exact ⟨h.apart, h.kept⟩

theorem registerStatus_eq (hap : Apart ctx) (response : ResponsePayload) (pkdn : CStr × CStr) :
    registerStatus response ctx pkdn =
      if response.code = iotxDmErrCodeSuccess then ctx.change pkdn (setStatus .registered)
      else ctx := by
  unfold registerStatus
  cases hsearch : dmMgrSearchDevByPkdn ctx pkdn.1 pkdn.2 with
  | none =>
    have hnone := searchDevByPkdn_eq_none_iff.mp hsearch
    have hsame : ctx.change pkdn (setStatus .registered) = ctx :=
      change_of_unknown (fun hmem => by
        obtain ⟨node, hnode, heq⟩ := List.mem_map.mp hmem
        exact hnone node hnode heq) _
    rw [hsame]
    exact (ite_self _).symm
  | some node =>
    obtain ⟨hnode, heq⟩ := (searchDevByPkdn_eq_some_iff hap).mp hsearch
    dsimp only
    unfold updateStateMachine
    rw [setDevStatus_of_mem hap hnode, heq]
    rfl

/-- A device after a registration reply. -/
def listedStatus (response : ResponsePayload) (listed : List (CStr × CStr))
    (node : DmMgrDevNode) : DmMgrDevNode :=
  if response.code = iotxDmErrCodeSuccess ∧ node.pkdn ∈ listed then setStatus .registered node
  else node

theorem listedStatus_pkdn (response : ResponsePayload) (listed : List (CStr × CStr))
    (node : DmMgrDevNode) : (listedStatus response listed node).pkdn = node.pkdn := by
  unfold listedStatus
  split
  · rfl
  · rfl

theorem listedStatus_cons (response : ResponsePayload) (pkdn : CStr × CStr)
    (listed : List (CStr × CStr)) (node : DmMgrDevNode) :
    listedStatus response listed
        (if response.code = iotxDmErrCodeSuccess ∧ node.pkdn = pkdn then setStatus .registered node
          else node) =
      listedStatus response (pkdn :: listed) node := by
  unfold listedStatus
  by_cases hcode : response.code = iotxDmErrCodeSuccess
  · by_cases hname : node.pkdn = pkdn
    · have hkeep : (setStatus .registered node).pkdn = node.pkdn := rfl
      have htwice : setStatus .registered (setStatus .registered node) =
        setStatus .registered node :=
        rfl
      simp only [hcode, hname, true_and, if_true, List.mem_cons, true_or, hkeep, htwice, ite_self]
    · simp only [hcode, hname, true_and, if_false, List.mem_cons, false_or]
  · simp only [hcode, false_and, if_false]

theorem registerStatuses_eq (hap : Apart ctx) (response : ResponsePayload)
    (listed : List (CStr × CStr)) :
    Apart (listed.foldl (registerStatus response) ctx) ∧
      (listed.foldl (registerStatus response) ctx).devList =
        ctx.devList.map (listedStatus response listed) := by
  induction listed generalizing ctx with
  | nil =>
    have hid : listedStatus response [] = id := by
      funext node
      exact if_neg fun h => List.not_mem_nil h.2
    rw [hid, List.map_id]
    exact ⟨hap, rfl⟩
  | cons pkdn listed ih =>
    have hstep := registerStatus_eq hap response pkdn
    have hap' : Apart (registerStatus response ctx pkdn) := by
      rw [hstep]
      split
      · exact hap.change (fun _ => rfl) fun _ => rfl
      · exact hap
    have hlist : (registerStatus response ctx pkdn).devList = ctx.devList.map fun node =>
        if response.code = iotxDmErrCodeSuccess ∧ node.pkdn = pkdn then setStatus .registered node
        else node := by
      rw [hstep]
      by_cases hcode : response.code = iotxDmErrCodeSuccess
      · simp only [hcode, if_true, true_and]
        rfl
      · simp only [hcode, if_false, false_and, List.map_id']
    obtain ⟨hap'', heq⟩ := ih hap'
    refine ⟨hap'', ?_⟩
    rw [List.foldl_cons, heq, hlist, List.map_map]
    exact List.map_congr_left fun node _ => listedStatus_cons response pkdn listed node

theorem Inv.registerReply (h : s.Inv) {id : Option Int} {response : ResponsePayload}
    {registered failed : List (CStr × CStr)}
    (hc : s.Careful (.registerReply id response registered failed)) :
    (s.next (.registerReply id response registered failed)).Inv := by
  obtain ⟨hap, hlist⟩ := registerStatuses_eq h.apart response (registered ++ failed)
  refine ⟨hap, fun n hn => ?_⟩
  have hmem : n ∈ ((registered ++ failed).foldl (registerStatus response) s.ctx).devList := hn
  rw [hlist] at hmem
  obtain ⟨old, hold, rfl⟩ := List.mem_map.mp hmem
  change Allowed (s.noteListed response registered
    (listedStatus response (registered ++ failed) old).pkdn) _
  rw [listedStatus_pkdn]
  unfold noteListed listedStatus
  by_cases hcode : response.code = iotxDmErrCodeSuccess
  · by_cases hregistered : old.pkdn ∈ registered
    · rw [if_pos ⟨hcode, hregistered⟩,
        if_pos ⟨hcode, List.mem_append_left _ hregistered⟩]
      rfl
    rw [if_neg fun hand => hregistered hand.2]
    by_cases hfailed : old.pkdn ∈ failed
    · -- a device that is registered already stays so
      have hlast := (hc hcode old hold hfailed).resolve_left hregistered
      rw [hlast, if_pos ⟨hcode, List.mem_append_right _ hfailed⟩]
      rfl
    · rw [if_neg fun hand => (List.mem_append.mp hand.2).elim hregistered hfailed]
      exact h.kept old hold
  · rw [if_neg fun hand => hcode hand.1, if_neg fun hand => hcode hand.1]
    exact h.kept old hold

/-! ## Commands -/

theorem thingDelete_eq (ctx : DmMgrCtx) (productKey deviceName : CStr) (sent : Bool) :
    dmMsgProcThingDelete ctx productKey deviceName sent = (iotxDmErrCodeRequestError, ctx) := by
  have hdestroy : (dmMgrDeviceDestroy ctx 0).1 ≠ State.success ∧
      (dmMgrDeviceDestroy ctx 0).2 = ctx := by
    unfold dmMgrDeviceDestroy
    rw [if_neg (by omega)]
    cases hsplit : splitFirst (fun node : DmMgrDevNode => decide (node.devid = 0)) ctx.devList with
    | none => exact ⟨nofun, rfl⟩
    | some r =>
      obtain ⟨as, node, bs⟩ := r
      obtain ⟨-, hzero, -⟩ := splitFirst_eq_some_iff.mp hsplit
      have hlocal : node.devid = iotxDmLocalNodeDevid := of_decide_eq_true hzero
      dsimp only
      rw [if_pos hlocal]
      exact ⟨nofun, rfl⟩
  have hdelete : (dmMsgThingDelete ctx productKey deviceName sent).1 ≠ State.success ∧
      (dmMsgThingDelete ctx productKey deviceName sent).2 = ctx := by
    unfold dmMsgThingDelete
    split
    · exact ⟨nofun, rfl⟩
    split
    · exact ⟨nofun, rfl⟩
    dsimp only
    rw [if_pos hdestroy.1]
    exact ⟨nofun, hdestroy.2⟩
  unfold dmMsgProcThingDelete
  dsimp only
  rw [if_neg hdelete.1, hdelete.2]

theorem allowed_login {t : Option Transition} {status : IotxDmDevStatus} (h : Allowed t status) :
    ¬ status.rank < IotxDmDevStatus.logined.rank ↔ t = some .login := by
  have hrank : IotxDmDevStatus.attached.rank < IotxDmDevStatus.logined.rank := by decide
  rcases t with _ | t
  · have hlt : status.rank < IotxDmDevStatus.attached.rank := h
    exact iff_of_false (by omega) nofun
  cases t with
  | topoDelete =>
    have hlt : status.rank < IotxDmDevStatus.attached.rank := h
    exact iff_of_false (by omega) nofun
  | login =>
    have heq : status = .logined := h
    rw [heq]
    exact iff_of_true (Nat.lt_irrefl _) rfl
  | topoAdd | logout =>
    have heq : status = .attached := h
    rw [heq]
    exact iff_of_false (fun hn => hn hrank) nofun
  | register =>
    have heq : status = .registered := h
    rw [heq]
    exact iff_of_false (fun hn => hn (by decide)) nofun

theorem Inv.logout (h : s.Inv) (devid : Int) (params : Bool) :
    (s.ctx.dmMgrUpstreamCombineLogout devid params).2 = true ↔ params = true ∧
      ∃ node ∈ s.ctx.devList, node.devid = devid ∧ s.last node.pkdn = some .login := by
  unfold DmMgrCtx.dmMgrUpstreamCombineLogout
  by_cases hneg : devid < 0
  · rw [if_pos hneg]
    refine iff_of_false nofun fun ⟨_, node, hnode, hid, _⟩ => ?_
    have hnonneg := h.apart.ids.nonneg node hnode
    omega
  rw [if_neg hneg]
  cases hsearch : dmMgrSearchDevByDevid s.ctx devid with
  | none =>
    refine iff_of_false nofun fun ⟨_, node, hnode, hid, _⟩ => ?_
    have hnone := List.find?_eq_none.mp hsearch node hnode
    simp [hid] at hnone
  | some node =>
    have hnode := List.mem_of_find?_eq_some hsearch
    obtain rfl : node.devid = devid := by simpa using List.find?_some hsearch
    have hlogin := allowed_login (h.kept node hnode)
    have hone : (∃ other ∈ s.ctx.devList, other.devid = node.devid ∧
        s.last other.pkdn = some .login) ↔ s.last node.pkdn = some .login := by
      constructor
      · rintro ⟨other, hother, hid, hlast⟩
        rwa [List.inj_on_of_nodup_map h.apart.ids.distinct hother hnode hid] at hlast
      · exact fun hlast => ⟨node, hnode, rfl, hlast⟩
    rw [hone, ← hlogin]
    dsimp only
    split
    next hlow => exact iff_of_false nofun fun h => h.2 hlow
    next hlow =>
      cases params with
      | false => exact iff_of_false nofun fun h => nomatch h.1
      | true => exact iff_of_true rfl ⟨rfl, hlow⟩

/-! ## The steps -/

theorem Inv.next (h : s.Inv) {op : StatusOp} (hc : s.Careful op) : (s.next op).Inv := by
  cases op with
  | thingDelete productKey deviceName sent =>
    unfold StatusRun.next
    dsimp only
    rw [thingDelete_eq]
    exact ⟨h.apart, h.kept⟩
  | topoAddReply id code =>
    exact h.reply (topoReply_ctx h.apart id code .attached) fun _ _ => rfl
  | topoDeleteReply id code =>
    refine h.reply (topoReply_ctx h.apart id code .attached) fun hsome hcode => ?_
    rw [hc hcode] at hsome
    cases hsome
  | loginReply id productKey deviceName code =>
    exact h.reply (combineReply_ctx h.apart productKey deviceName code .logined) fun _ _ => rfl
  | logoutReply id productKey deviceName code =>
    exact h.reply (combineReply_ctx h.apart productKey deviceName code .attached) fun _ _ => rfl
  | registerReply id response registered failed => exact h.registerReply hc
  | logout devid params => exact h
  | request msgid devid type malloc uptime => exact ⟨h.apart, h.kept⟩
  | tick currentTime => exact ⟨h.apart, h.kept⟩

end

end StatusRun

end AliyunIot.Dm
