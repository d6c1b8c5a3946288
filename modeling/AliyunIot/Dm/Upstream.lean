import AliyunIot.Dm.Manager
import AliyunIot.Dm.MessageCache

/-!
# Upstream requests

The requests of `dm_manager.c` whose replies wait in the message cache: an id is taken,
the entry is made, `dm_msg_request` sends, and the entry is removed again when the send
is not reported as a success. `inStep_iff` says for every request when the answer of the
call and the cache tell the truth about what reached the cloud.
-/

namespace AliyunIot.Dm

open Lib

/-- `dm_msg_dest_type_t`. -/
inductive DmMsgDest where
  | cloud | local | all

def DmMsgDest.toCloud : DmMsgDest → Bool
  | .cloud | .all => true
  | .local => false

def DmMsgDest.toLocal : DmMsgDest → Bool
  | .local | .all => true
  | .cloud => false

/-- `dm_msg_request_t`, less the callback. -/
structure DmMsgRequest where
  msgid : Int
  devid : Int
  servicePrefix : CStr
  serviceName : CStr
  productKey : CStr
  deviceName : CStr
  params : Option CStr
  paramsLen : Int
  method : Option CStr

/-- What the calls give that a request makes. -/
structure UpstreamEnv where
  /-- `IOT_Ioctl` -/
  productKey : CStr
  deviceName : CStr
  /-- `dm_msg_thing_topo_add` and its siblings -/
  params : Except {code : Int // code < State.success} CStr
  serviceNameMalloc : Bool
  eventPostReplyOpt : Int
  cacheMalloc : Bool
  uptime : Nat
  uriMalloc : Bool
  payloadMalloc : Bool
  liteCjsonParse : Int
  clientPublish : Int
  alcsEnabled : Bool
  serverSend : Int

/-- `dm_msg_request`: the result, and what was published to the cloud. -/
def dmMsgRequest (env : UpstreamEnv) (type : DmMsgDest) (request : DmMsgRequest) :
    Int × Option DmMsgRequest :=
  if request.params = none ∨ request.method = none then (State.userInputInvalid, none)
  else if env.uriMalloc = false then (State.sysDependMalloc, none)
  else if env.payloadMalloc = false then (State.sysDependMalloc, none)
  else if env.liteCjsonParse < State.success then (State.devModelWrongJsonFormat, none)
  else
    let res := if type.toCloud then env.clientPublish else env.liteCjsonParse
    let res := if env.alcsEnabled && type.toLocal then env.serverSend else res
    (res, if type.toCloud ∧ State.success ≤ env.clientPublish then some request else none)

/-- `g_report_id`, the message cache and the devices. -/
structure UpstreamCtx where
  reportId : UInt32
  cache : DmMsgCache
  mgr : DmMgrCtx

def UpstreamCtx.iotxReportId (ctx : UpstreamCtx) : Int × UpstreamCtx :=
  ((ctx.reportId.toNat : Int).bmod (2 ^ 32), { ctx with reportId := ctx.reportId + 1 })

/-- A request ready to be sent: where to, and the event its reply is awaited under, if it
is. -/
structure Outgoing where
  request : DmMsgRequest
  type : DmMsgDest
  awaited : Option IotxDmEvent

/-- What a call returns and leaves, and what was published to the cloud. -/
structure Upstreamed where
  res : Int
  ctx : UpstreamCtx
  published : Option DmMsgRequest

/-- `dm_msg_cache_insert` as the requests call it; its result is dropped. -/
def UpstreamEnv.await (env : UpstreamEnv) (cache : DmMsgCache) (out : Outgoing) : DmMsgCache :=
  match out.awaited with
  | some event =>
    (dmMsgCacheInsert cache out.request.msgid out.request.devid event none env.cacheMalloc
      env.uptime).2
  | none => cache

/-- The end of every request: the entry, the send, and what the send's result makes of
both. -/
def UpstreamEnv.send (env : UpstreamEnv) (ctx : UpstreamCtx) (out : Outgoing) : Upstreamed :=
  let cache := env.await ctx.cache out
  let (res, published) := dmMsgRequest env out.type out.request
  if res ≠ State.success then
    ⟨res, { ctx with cache := (dmMsgCacheRemove cache out.request.msgid).2 }, published⟩
  else ⟨out.request.msgid, { ctx with cache := cache }, published⟩

/-- A request that was not made ends with its error. -/
def UpstreamEnv.sendAssembled (env : UpstreamEnv) :
    Except Int Outgoing × UpstreamCtx → Upstreamed
  | (.ok out, ctx) => env.send ctx out
  | (.error res, ctx) => ⟨res, ctx, none⟩

/-! ## The gateway's requests -/

abbrev dmUriSysPrefix : CStr := .ofString "/sys/%s/%s/" (by decide)
abbrev dmUriExtSessionPrefix : CStr := .ofString "/ext/session/%s/%s/" (by decide)

/-- What the requests about a device differ in. -/
structure GatewayService where
  servicePrefix : CStr
  serviceName : CStr
  method : CStr
  event : IotxDmEvent

def thingSubRegister : GatewayService :=
  ⟨dmUriSysPrefix, .ofString "thing/sub/register" (by decide),
    .ofString "thing.sub.register" (by decide), .subdevRegisterReply⟩

def thingProxyProductRegister : GatewayService :=
  ⟨dmUriSysPrefix, .ofString "thing/proxy/provisioning/product_register" (by decide),
    .ofString "thing.proxy.provisioning.product_register" (by decide), .subdevRegisterReply⟩

def thingSubUnregister : GatewayService :=
  ⟨dmUriSysPrefix, .ofString "thing/sub/unregister" (by decide),
    .ofString "thing.sub.unregister" (by decide), .subdevUnregisterReply⟩

def thingTopoAdd : GatewayService :=
  ⟨dmUriSysPrefix, .ofString "thing/topo/add" (by decide), .ofString "thing.topo.add" (by decide),
    .topoAddReply⟩

def thingTopoDelete : GatewayService :=
  ⟨dmUriSysPrefix, .ofString "thing/topo/delete" (by decide),
    .ofString "thing.topo.delete" (by decide), .topoDeleteReply⟩

def combineLogin : GatewayService :=
  ⟨dmUriExtSessionPrefix, .ofString "combine/login" (by decide),
    .ofString "combine.login" (by decide), .combineLoginReply⟩

def combineLogout : GatewayService :=
  ⟨dmUriExtSessionPrefix, .ofString "combine/logout" (by decide),
    .ofString "combine.logout" (by decide), .combineLogoutReply⟩

/-- From the params to the event, for a device that was found. -/
def gatewayAssemble (env : UpstreamEnv) (service : GatewayService) (ctx : UpstreamCtx)
    (devid : Int) : Except Int Outgoing × UpstreamCtx :=
  match env.params with
  | .error code => (.error code, ctx)
  | .ok params =>
    let (msgid, ctx) := ctx.iotxReportId
    (.ok ⟨⟨msgid, devid, service.servicePrefix, service.serviceName, env.productKey,
      env.deviceName, some params, params.strlen, some service.method⟩, .cloud,
      some service.event⟩, ctx)

def gatewayRequest (env : UpstreamEnv) (service : GatewayService) (ctx : UpstreamCtx)
    (devid : Int) : Except Int Outgoing × UpstreamCtx :=
  if devid < 0 then (.error State.userInputInvalid, ctx)
  else
    match dmMgrSearchDevByDevid ctx.mgr devid with
    | none => (.error State.devModelDeviceNotFound, ctx)
    | some _ => gatewayAssemble env service ctx devid

/-- Of the requests about a device, this one has its own code for a wrong id, and the
device must be logged in. -/
def logoutRequest (env : UpstreamEnv) (ctx : UpstreamCtx) (devid : Int) :
    Except Int Outgoing × UpstreamCtx :=
  if devid < 0 then (.error State.userInputDevid, ctx)
  else
    match dmMgrSearchDevByDevid ctx.mgr devid with
    | none => (.error State.devModelDeviceNotFound, ctx)
    | some node =>
      if node.devStatus.rank < IotxDmDevStatus.logined.rank then
        (.error State.devModelSubdNotLogin, ctx)
      else gatewayAssemble env combineLogout ctx devid

def dmMgrUpstreamThingSubRegister (env : UpstreamEnv) (ctx : UpstreamCtx) (devid : Int) :
    Upstreamed :=
  env.sendAssembled (gatewayRequest env thingSubRegister ctx devid)

def dmMgrUpstreamThingProxyProductRegister (env : UpstreamEnv) (ctx : UpstreamCtx) (devid : Int) :
    Upstreamed :=
  env.sendAssembled (gatewayRequest env thingProxyProductRegister ctx devid)

def dmMgrUpstreamThingSubUnregister (env : UpstreamEnv) (ctx : UpstreamCtx) (devid : Int) :
    Upstreamed :=
  env.sendAssembled (gatewayRequest env thingSubUnregister ctx devid)

def dmMgrUpstreamThingTopoAdd (env : UpstreamEnv) (ctx : UpstreamCtx) (devid : Int) :
    Upstreamed :=
  env.sendAssembled (gatewayRequest env thingTopoAdd ctx devid)

def dmMgrUpstreamThingTopoDelete (env : UpstreamEnv) (ctx : UpstreamCtx) (devid : Int) :
    Upstreamed :=
  env.sendAssembled (gatewayRequest env thingTopoDelete ctx devid)

def dmMgrUpstreamCombineLogin (env : UpstreamEnv) (ctx : UpstreamCtx) (devid : Int) :
    Upstreamed :=
  env.sendAssembled (gatewayRequest env combineLogin ctx devid)

def dmMgrUpstreamCombineLogout (env : UpstreamEnv) (ctx : UpstreamCtx) (devid : Int) :
    Upstreamed :=
  env.sendAssembled (logoutRequest env ctx devid)

/-! ## The posts -/

/-- The arguments of `dm_mgr_upstream_thing_property_post`. -/
structure PropertyPost where
  devid : Int
  payload : Option CStr
  payloadLen : Int

/-- The arguments of `dm_mgr_upstream_thing_event_post`. -/
structure EventPost extends PropertyPost where
  identifier : Option CStr
  identifierLen : Int
  method : Option CStr

/-- `_dm_mgr_upstream_request_assemble` and what follows in both posts. The id is spent
before the device is looked up. -/
def postAssemble (env : UpstreamEnv) (ctx : UpstreamCtx) (post : PropertyPost)
    (serviceName : CStr) (method : Option CStr) : Except Int Outgoing × UpstreamCtx :=
  let (msgid, ctx) := ctx.iotxReportId
  match dmMgrSearchDevByDevid ctx.mgr post.devid with
  | none => (.error State.devModelDeviceNotFound, ctx)
  | some node =>
    (.ok ⟨⟨msgid, post.devid, dmUriSysPrefix, serviceName, node.productKey, node.deviceName,
        post.payload, post.payloadLen, method⟩, .all,
      if env.eventPostReplyOpt ≠ 0 then some .eventPropertyPostReply else none⟩, ctx)

def propertyPostRequest (env : UpstreamEnv) (ctx : UpstreamCtx) (post : PropertyPost) :
    Except Int Outgoing × UpstreamCtx :=
  if post.devid < 0 ∨ post.payload = none ∨ post.payloadLen ≤ 0 then
    (.error State.userInputInvalid, ctx)
  else
    postAssemble env ctx post (.ofString "thing/event/property/post" (by decide))
      (some (.ofString "thing.event.property.post" (by decide)))

def eventPostPrefix : CStr := .ofString "thing/event/" (by decide)
def eventPostSuffix : CStr := .ofString "/post" (by decide)

/-- `DM_URI_THING_EVENT_POST` with at most `len` bytes of the identifier. -/
def eventPostName (identifier : CStr) (len : Int) : CStr :=
  ⟨eventPostPrefix.val ++ identifier.val.take len.toNat ++ eventPostSuffix.val, by
    rw [List.mem_append, List.mem_append, not_or, not_or]
    refine ⟨⟨eventPostPrefix.property, fun h => ?_⟩, eventPostSuffix.property⟩
    exact identifier.property (List.mem_of_mem_take h)⟩

def eventPostRequest (env : UpstreamEnv) (ctx : UpstreamCtx) (post : EventPost) :
    Except Int Outgoing × UpstreamCtx :=
  match post.identifier with
  | none => (.error State.userInputInvalid, ctx)
  | some identifier =>
    if post.devid < 0 ∨ post.identifierLen ≤ 0 ∨ post.method = none ∨ post.payload = none ∨
        post.payloadLen ≤ 0 then
      (.error State.userInputInvalid, ctx)
    else if env.serviceNameMalloc = false then (.error State.sysDependMalloc, ctx)
    else
      postAssemble env ctx post.toPropertyPost (eventPostName identifier post.identifierLen)
        post.method

def dmMgrUpstreamThingPropertyPost (env : UpstreamEnv) (ctx : UpstreamCtx) (post : PropertyPost) :
    Upstreamed :=
  env.sendAssembled (propertyPostRequest env ctx post)

def dmMgrUpstreamThingEventPost (env : UpstreamEnv) (ctx : UpstreamCtx) (post : EventPost) :
    Upstreamed :=
  env.sendAssembled (eventPostRequest env ctx post)

/-! ## Every request -/

inductive UpstreamCall where
  | subRegister (devid : Int)
  | proxyProductRegister (devid : Int)
  | subUnregister (devid : Int)
  | topoAdd (devid : Int)
  | topoDelete (devid : Int)
  | combineLogin (devid : Int)
  | combineLogout (devid : Int)
  | propertyPost (post : PropertyPost)
  | eventPost (post : EventPost)

namespace UpstreamCall

def call (env : UpstreamEnv) (ctx : UpstreamCtx) : UpstreamCall → Upstreamed
  | subRegister devid => dmMgrUpstreamThingSubRegister env ctx devid
  | proxyProductRegister devid => dmMgrUpstreamThingProxyProductRegister env ctx devid
  | subUnregister devid => dmMgrUpstreamThingSubUnregister env ctx devid
  | topoAdd devid => dmMgrUpstreamThingTopoAdd env ctx devid
  | topoDelete devid => dmMgrUpstreamThingTopoDelete env ctx devid
  | combineLogin devid => dmMgrUpstreamCombineLogin env ctx devid
  | combineLogout devid => dmMgrUpstreamCombineLogout env ctx devid
  | propertyPost post => dmMgrUpstreamThingPropertyPost env ctx post
  | eventPost post => dmMgrUpstreamThingEventPost env ctx post

/-- The part of the call before the entry is made. -/
def assembled (env : UpstreamEnv) (ctx : UpstreamCtx) :
    UpstreamCall → Except Int Outgoing × UpstreamCtx
  | subRegister devid => gatewayRequest env thingSubRegister ctx devid
  | proxyProductRegister devid => gatewayRequest env thingProxyProductRegister ctx devid
  | subUnregister devid => gatewayRequest env thingSubUnregister ctx devid
  | topoAdd devid => gatewayRequest env thingTopoAdd ctx devid
  | topoDelete devid => gatewayRequest env thingTopoDelete ctx devid
  | combineLogin devid => gatewayRequest env Dm.combineLogin ctx devid
  | combineLogout devid => logoutRequest env ctx devid
  | propertyPost post => propertyPostRequest env ctx post
  | eventPost post => eventPostRequest env ctx post

theorem call_eq (env : UpstreamEnv) (ctx : UpstreamCtx) (c : UpstreamCall) :
    c.call env ctx = env.sendAssembled (c.assembled env ctx) := by
  cases c <;> rfl

end UpstreamCall

/-! ## What a request leaves -/

/-- The entries that a reply with this id may find. -/
def entriesOf (cache : DmMsgCache) (msgid : Int) : List DmMsgCacheNode :=
  cache.dmcList.filter fun node => decide (node.msgid = msgid)

/-- The answer of the call, what reached the cloud and the entries with the id of the
request tell the same. -/
structure Upstreamed.Truthful (r : Upstreamed) (request : DmMsgRequest) : Prop where
  answer : 0 < r.res ↔ r.published = some request
  answer_msgid : 0 < r.res → r.res = request.msgid
  tracked : r.published = some request →
    ∃ entry, entriesOf r.ctx.cache request.msgid = [entry] ∧ entry.devid = request.devid
  untracked : r.res ≤ 0 → entriesOf r.ctx.cache request.msgid = []

/-- The uri and the payload are there, and the payload is JSON. -/
def UpstreamEnv.Attempts (env : UpstreamEnv) : Prop :=
  env.uriMalloc = true ∧ env.payloadMalloc = true ∧ State.success ≤ env.liteCjsonParse

instance (env : UpstreamEnv) : Decidable env.Attempts := inferInstanceAs (Decidable (_ ∧ _))

def UpstreamEnv.lastResult (env : UpstreamEnv) (type : DmMsgDest) : Int :=
  if env.alcsEnabled && type.toLocal then env.serverSend else env.clientPublish

/-- The entries with the request's id when it is sent. -/
def UpstreamEnv.entries (env : UpstreamEnv) (cache : DmMsgCache) (out : Outgoing) :
    List DmMsgCacheNode :=
  entriesOf (env.await cache out) out.request.msgid

/-- There is one entry, for the request's device. -/
def Outgoing.Single (out : Outgoing) (entries : List DmMsgCacheNode) : Prop :=
  ∃ entry, entries = [entry] ∧ entry.devid = out.request.devid

/-- `dm_msg_cache_insert` finds room in the cache and memory. -/
def UpstreamEnv.Inserts (env : UpstreamEnv) (cache : DmMsgCache) : Prop :=
  cache.dmcListSize < configMsgcacheQueueMaxlen ∧ env.cacheMalloc = true

instance (env : UpstreamEnv) (cache : DmMsgCache) : Decidable (env.Inserts cache) :=
  inferInstanceAs (Decidable (_ ∧ _))

/-- When the message reaches the cloud, its id is positive, the last transport says so,
and there is room for the entry and no older one with the id; or the last transport says
something else that is by chance the id, and one older entry takes the removal. When it
does not, the last transport says so and no older entry is left; or it denies it with an
id that is not positive, and there is neither room nor an older entry. -/
def UpstreamEnv.Agrees (env : UpstreamEnv) (cache : DmMsgCache) (out : Outgoing) : Prop :=
  let res := env.lastResult out.type
  let older := entriesOf cache out.request.msgid
  if env.Attempts then
    if State.success ≤ env.clientPublish then
      0 < out.request.msgid ∧
        (res = State.success ∧ (if env.Inserts cache then older = [] else out.Single older) ∨
        res = out.request.msgid ∧
          if env.Inserts cache then older.length = 1 else out.Single older.tail)
    else
      res < State.success ∧ (if env.Inserts cache then older = [] else older.tail = []) ∨
        res = State.success ∧ out.request.msgid ≤ 0 ∧ ¬ env.Inserts cache ∧ older = []
  else if env.Inserts cache then older = [] else older.tail = []

/-- The same of the entries with the id once the insert has been tried. -/
def UpstreamEnv.AgreesWith (env : UpstreamEnv) (entries : List DmMsgCacheNode) (out : Outgoing) :
    Prop :=
  let res := env.lastResult out.type
  if env.Attempts then
    if State.success ≤ env.clientPublish then
      0 < out.request.msgid ∧ (res = State.success ∧ out.Single entries ∨
        res = out.request.msgid ∧ out.Single entries.tail)
    else
      res < State.success ∧ entries.tail = [] ∨
        res = State.success ∧ out.request.msgid ≤ 0 ∧ entries = []
  else entries.tail = []

variable {out : Outgoing}

variable (env : UpstreamEnv)

theorem entries_eq (cache : DmMsgCache)
    (h : out.awaited ≠ none) : ∃ node : DmMsgCacheNode, node.devid = out.request.devid ∧
      env.entries cache out = entriesOf cache out.request.msgid ++
        if env.Inserts cache then [node] else [] := by
  obtain ⟨event, hevent⟩ := Option.ne_none_iff_exists'.mp h
  refine ⟨⟨out.request.msgid, out.request.devid, event, none, env.uptime⟩, rfl, ?_⟩
  unfold UpstreamEnv.entries UpstreamEnv.await dmMsgCacheInsert
  rw [hevent]
  dsimp only
  by_cases hin : env.Inserts cache
  · rw [if_pos hin, if_neg (Int.not_le.mpr hin.1), hin.2, if_neg Bool.noConfusion]
    simp [entriesOf]
  · rw [if_neg hin, List.append_nil]
    split
    · rfl
    · next hsize =>
      rw [if_pos (Bool.eq_false_iff.mpr fun hc => hin ⟨Int.not_le.mp hsize, hc⟩)]

theorem agreesWith_iff {env : UpstreamEnv} {cache : DmMsgCache} (h : out.awaited ≠ none) :
    env.AgreesWith (env.entries cache out) out ↔ env.Agrees cache out := by
  obtain ⟨node, hdevid, heq⟩ := entries_eq env cache h
  unfold UpstreamEnv.AgreesWith UpstreamEnv.Agrees
  rw [heq]
  by_cases hin : env.Inserts cache
  swap
  · simp only [hin, if_false, List.append_nil, not_false_eq_true, true_and]
  simp only [hin, if_true, not_true_eq_false, false_and, and_false, or_false]
  -- the new entry is the last one
  generalize entriesOf cache out.request.msgid = older
  rcases older with _ | ⟨first, _ | ⟨second, older⟩⟩ <;> simp [Outgoing.Single, hdevid]

theorem entriesOf_remove (cache : DmMsgCache) (msgid : Int) :
    entriesOf (dmMsgCacheRemove cache msgid).2 msgid = (entriesOf cache msgid).tail := by
  have hnone (nodes : List DmMsgCacheNode) (h : ∀ node ∈ nodes, node.msgid ≠ msgid) :
      (nodes.filter fun node => decide (node.msgid = msgid)) = [] :=
    List.filter_eq_nil_iff.mpr fun node hnode => by
      rw [decide_eq_true_eq]
      exact h node hnode
  unfold entriesOf
  rcases remove_cases cache msgid with ⟨heq, hall⟩ | ⟨as, node, bs, heq, hlist, hid, has⟩
  · rw [heq, hnone _ hall]
    rfl
  · rw [heq, hlist, List.filter_append, List.filter_append, hnone as has, List.filter_cons,
      decide_eq_true hid, if_pos rfl]
    rfl

/-- What `dm_msg_request` needs, and that the cloud is asked. -/
structure Outgoing.Ready (out : Outgoing) : Prop where
  params : out.request.params ≠ none
  method : out.request.method ≠ none
  toCloud : out.type.toCloud = true

theorem msgRequest_attempts {env : UpstreamEnv} (h : out.Ready) (ha : env.Attempts) :
    dmMsgRequest env out.type out.request = (env.lastResult out.type,
      if State.success ≤ env.clientPublish then some out.request else none) := by
  obtain ⟨huri, hpayload, hjson⟩ := ha
  unfold dmMsgRequest UpstreamEnv.lastResult
  rw [if_neg (not_or.mpr ⟨h.params, h.method⟩), huri, hpayload, h.toCloud, if_neg Bool.noConfusion,
    if_neg Bool.noConfusion, if_neg (Int.not_lt.mpr hjson)]
  simp only [if_true, true_and]

theorem msgRequest_fails {env : UpstreamEnv} (h : out.Ready) (ha : ¬ env.Attempts) :
    ∃ res < State.success, dmMsgRequest env out.type out.request = (res, none) := by
  unfold dmMsgRequest
  rw [if_neg (not_or.mpr ⟨h.params, h.method⟩)]
  split
  · exact ⟨_, State.sysDependMalloc_lt, rfl⟩
  · next huri =>
    split
    · exact ⟨_, State.sysDependMalloc_lt, rfl⟩
    · next hpayload =>
      split
      · exact ⟨_, by decide, rfl⟩
      · next hjson =>
        refine absurd ⟨?_, ?_, Int.not_lt.mp hjson⟩ ha
        · exact (Bool.not_eq_false _).mp huri
        · exact (Bool.not_eq_false _).mp hpayload

theorem send_of_request {env : UpstreamEnv} (ctx : UpstreamCtx) {res : Int}
    {published : Option DmMsgRequest}
    (h : dmMsgRequest env out.type out.request = (res, published)) : let r := env.send ctx out
    r.published = published ∧
    (res = State.success → r.res = out.request.msgid ∧
      entriesOf r.ctx.cache out.request.msgid = env.entries ctx.cache out) ∧
    (res ≠ State.success → r.res = res ∧
      entriesOf r.ctx.cache out.request.msgid = (env.entries ctx.cache out).tail) := by
  unfold UpstreamEnv.send UpstreamEnv.entries
  rw [h]
  dsimp only
  split
  · next hres => exact ⟨rfl, fun h => absurd h hres, fun _ => ⟨rfl, entriesOf_remove _ _⟩⟩
  · next hres => exact ⟨rfl, fun _ => ⟨rfl, rfl⟩, fun h => absurd h hres⟩

theorem truthful_iff_of_published {r : Upstreamed}
    (h : r.published = some out.request) : r.Truthful out.request ↔
      0 < r.res ∧ r.res = out.request.msgid ∧
        out.Single (entriesOf r.ctx.cache out.request.msgid) := by
  constructor
  · intro ht
    have hpos := ht.answer.mpr h
    exact ⟨hpos, ht.answer_msgid hpos, ht.tracked h⟩
  · rintro ⟨hpos, hid, hsingle⟩
    exact ⟨⟨fun _ => h, fun _ => hpos⟩, fun _ => hid, fun _ => hsingle, fun hle =>
      absurd hpos (Int.not_lt.mpr hle)⟩

theorem truthful_iff_of_unpublished {r : Upstreamed} (h : r.published = none) :
    r.Truthful out.request ↔
      r.res ≤ 0 ∧ entriesOf r.ctx.cache out.request.msgid = [] := by
  have hnone : r.published ≠ some out.request := by rw [h]; nofun
  constructor
  · intro ht
    have hle : r.res ≤ 0 := Int.not_lt.mp fun hpos => hnone (ht.answer.mp hpos)
    exact ⟨hle, ht.untracked hle⟩
  · rintro ⟨hle, hentries⟩
    have hpos : ¬ 0 < r.res := Int.not_lt.mpr hle
    exact ⟨⟨fun h => absurd h hpos, fun h => absurd h hnone⟩, fun h => absurd h hpos, fun h =>
      absurd h hnone, fun _ => hentries⟩

theorem truthful_send_iff (ctx : UpstreamCtx)
    (h : out.Ready) : (env.send ctx out).Truthful out.request ↔
      env.AgreesWith (env.entries ctx.cache out) out := by
  unfold UpstreamEnv.AgreesWith
  by_cases ha : env.Attempts
  · obtain ⟨hpub, hok, hbad⟩ := send_of_request ctx (msgRequest_attempts h ha)
    rw [if_pos ha]
    by_cases hcloud : State.success ≤ env.clientPublish
    · rw [if_pos hcloud] at hpub ⊢
      rw [truthful_iff_of_published hpub]
      by_cases hres : env.lastResult out.type = State.success
      · obtain ⟨hr, hentries⟩ := hok hres
        rw [hr, hentries, hres]
        constructor
        · rintro ⟨hpos, -, hsingle⟩
          exact ⟨hpos, .inl ⟨rfl, hsingle⟩⟩
        · rintro ⟨hpos, ⟨-, hsingle⟩ | ⟨hid, -⟩⟩
          · exact ⟨hpos, rfl, hsingle⟩
          · exact absurd hid (Int.ne_of_lt hpos)
      · obtain ⟨hr, hentries⟩ := hbad hres
        rw [hr, hentries]
        constructor
        · rintro ⟨hpos, hid, hsingle⟩
          exact ⟨hid ▸ hpos, .inr ⟨hid, hsingle⟩⟩
        · rintro ⟨hpos, ⟨hzero, -⟩ | ⟨hid, hsingle⟩⟩
          · exact absurd hzero hres
          · exact ⟨hid ▸ hpos, hid, hsingle⟩
    · rw [if_neg hcloud] at hpub ⊢
      rw [truthful_iff_of_unpublished hpub]
      by_cases hres : env.lastResult out.type = State.success
      · obtain ⟨hr, hentries⟩ := hok hres
        rw [hr, hentries, hres]
        constructor
        · exact fun h => .inr ⟨rfl, h⟩
        · rintro (⟨hlt, -⟩ | ⟨-, h⟩)
          · exact absurd hlt (Int.lt_irrefl _)
          · exact h
      · obtain ⟨hr, hentries⟩ := hbad hres
        rw [hr, hentries]
        constructor
        · exact fun h => .inl ⟨Int.lt_iff_le_and_ne.mpr ⟨h.1, hres⟩, h.2⟩
        · rintro (⟨hlt, hnone⟩ | ⟨hzero, -⟩)
          · exact ⟨Int.le_of_lt hlt, hnone⟩
          · exact absurd hzero hres
  · obtain ⟨res, hres, hreq⟩ := msgRequest_fails h ha
    obtain ⟨hpub, -, hbad⟩ := send_of_request ctx hreq
    obtain ⟨hr, hentries⟩ := hbad (Int.ne_of_lt hres)
    rw [if_neg ha, truthful_iff_of_unpublished hpub, hr, hentries]
    exact and_iff_right (Int.le_of_lt hres)

/-! ## What the functions assemble -/

/-- An error, or a request that is ready to be sent; the cache is not touched. -/
structure WellAssembled (ctx : UpstreamCtx) (a : Except Int Outgoing × UpstreamCtx) : Prop where
  cache : a.2.cache = ctx.cache
  error : ∀ code, a.1 = .error code → code < State.success
  ready : ∀ out, a.1 = .ok out → out.Ready

theorem wellAssembled_error {ctx after : UpstreamCtx} {code : Int} (hcode : code < State.success)
    (hafter : after.cache = ctx.cache) : WellAssembled ctx (.error code, after) :=
  ⟨hafter, fun _ h => by cases h; exact hcode, fun _ h => by cases h⟩

theorem wellAssembled_ok {ctx after : UpstreamCtx} (hout : out.Ready)
    (hafter : after.cache = ctx.cache) : WellAssembled ctx (.ok out, after) :=
  ⟨hafter, nofun, fun _ h => Except.ok.inj h ▸ hout⟩

theorem gatewayAssemble_well (service : GatewayService) (ctx : UpstreamCtx)
    (devid : Int) : WellAssembled ctx (gatewayAssemble env service ctx devid) := by
  unfold gatewayAssemble
  split
  · next code _ => exact wellAssembled_error code.property rfl
  · exact wellAssembled_ok ⟨nofun, nofun, rfl⟩ rfl

theorem gatewayRequest_well (service : GatewayService) (ctx : UpstreamCtx)
    (devid : Int) : WellAssembled ctx (gatewayRequest env service ctx devid) := by
  unfold gatewayRequest
  split
  · exact wellAssembled_error State.userInputInvalid_lt rfl
  · split
    · exact wellAssembled_error (by decide) rfl
    · exact gatewayAssemble_well env service ctx devid

theorem logoutRequest_well (ctx : UpstreamCtx) (devid : Int) :
    WellAssembled ctx (logoutRequest env ctx devid) := by
  unfold logoutRequest
  split
  · exact wellAssembled_error (by decide) rfl
  · split
    · exact wellAssembled_error (by decide) rfl
    · split
      · exact wellAssembled_error (by decide) rfl
      · exact gatewayAssemble_well env combineLogout ctx devid

theorem postAssemble_well (ctx : UpstreamCtx) {post : PropertyPost}
    (serviceName : CStr) {method : Option CStr} (hpayload : post.payload ≠ none)
    (hmethod : method ≠ none) :
      WellAssembled ctx (postAssemble env ctx post serviceName method) := by
  unfold postAssemble
  dsimp only
  split
  · exact wellAssembled_error (by decide) rfl
  · exact wellAssembled_ok ⟨hpayload, hmethod, rfl⟩ rfl

theorem propertyPostRequest_well (ctx : UpstreamCtx) (post : PropertyPost) :
    WellAssembled ctx (propertyPostRequest env ctx post) := by
  unfold propertyPostRequest
  split
  · exact wellAssembled_error State.userInputInvalid_lt rfl
  · next hbad =>
    rw [not_or, not_or] at hbad
    exact postAssemble_well env ctx _ hbad.2.1 nofun

theorem eventPostRequest_well (ctx : UpstreamCtx) (post : EventPost) :
    WellAssembled ctx (eventPostRequest env ctx post) := by
  unfold eventPostRequest
  split
  · exact wellAssembled_error State.userInputInvalid_lt rfl
  · split
    · exact wellAssembled_error State.userInputInvalid_lt rfl
    · next hbad =>
      simp only [not_or] at hbad
      split
      · exact wellAssembled_error State.sysDependMalloc_lt rfl
      · exact postAssemble_well env ctx _ hbad.2.2.2.1 hbad.2.2.1

namespace UpstreamCall

theorem assembled_well (env : UpstreamEnv) (ctx : UpstreamCtx) (c : UpstreamCall) :
    WellAssembled ctx (c.assembled env ctx) := by
  cases c with
  | combineLogout devid => exact logoutRequest_well env ctx devid
  | propertyPost post => exact propertyPostRequest_well env ctx post
  | eventPost post => exact eventPostRequest_well env ctx post
  | _ => exact gatewayRequest_well env _ ctx _

/-- A request that is sent and tracked ends truthfully; one that is not made reports an
error, publishes nothing and leaves the cache as it was. -/
def InStep (env : UpstreamEnv) (ctx : UpstreamCtx) (c : UpstreamCall) : Prop :=
  let r := c.call env ctx
  match (c.assembled env ctx).1 with
  | .ok out => out.awaited ≠ none → r.Truthful out.request
  | .error _ => r.res < State.success ∧ r.published = none ∧ r.ctx.cache = ctx.cache

theorem inStep_iff (env : UpstreamEnv) (ctx : UpstreamCtx) (c : UpstreamCall) :
    c.InStep env ctx ↔
      ∀ out, (c.assembled env ctx).1 = .ok out → out.awaited ≠ none →
        env.Agrees ctx.cache out := by
  have hwell := assembled_well env ctx c
  unfold InStep
  rw [call_eq]
  rcases hassembled : c.assembled env ctx with ⟨code | out, after⟩
  · rw [hassembled] at hwell
    refine iff_of_true ⟨hwell.error code rfl, rfl, hwell.cache⟩ fun out h => ?_
    cases h
  · rw [hassembled] at hwell
    have hcache : after.cache = ctx.cache := hwell.cache
    have hiff := truthful_send_iff env after (hwell.ready out rfl)
    rw [hcache] at hiff
    constructor
    · rintro h out' hout' htracked
      cases hout'
      exact (agreesWith_iff htracked).mp (hiff.mp (h htracked))
    · exact fun h htracked => hiff.mpr ((agreesWith_iff htracked).mpr (h out rfl htracked))

/-- A gateway with its local node only, and replies to its posts asked for. -/
def gatewayAlone : UpstreamCtx :=
  ⟨1, dmMsgCacheInit, ⟨1, [⟨0, 1, .empty, .empty, .empty, .empty, .online⟩]⟩⟩

/-- Everything succeeds but `dm_msg_cache_insert`, which finds no memory where
`cacheMalloc` is false, and the local send. -/
def allSent (cacheMalloc : Bool) : UpstreamEnv where
  productKey := .empty
  deviceName := .empty
  params := .ok .empty
  serviceNameMalloc := true
  eventPostReplyOpt := 1
  cacheMalloc := cacheMalloc
  uptime := 0
  uriMalloc := true
  payloadMalloc := true
  liteCjsonParse := 0
  clientPublish := 0
  alcsEnabled := true
  serverSend := -1

/-- A request whose entry could not be made, and a post that the local transport refused:
both are published, and no entry waits for the reply. -/
theorem untracked_not_inStep :
    ¬ (topoAdd 0).InStep (allSent false) gatewayAlone ∧
    ¬ (propertyPost ⟨0, some .empty, 1⟩).InStep (allSent true) gatewayAlone := by
  constructor
  · intro h
    obtain ⟨entry, hentries, -⟩ := (h nofun).tracked rfl
    exact absurd hentries nofun
  · intro h
    exact absurd ((h nofun).answer.mpr rfl) (by decide)

end UpstreamCall

end AliyunIot.Dm
