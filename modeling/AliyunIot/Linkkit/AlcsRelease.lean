import Mathlib.Data.List.Perm.Basic
import AliyunIot.Linkkit.AlcsContext
import AliyunIot.Linkkit.EventRoundTrip

/-!
# Contexts of local requests are freed once

`ReleasedOnce` says that every context has one place at most: in an event of the queue,
in the list of pending services, or among those freed, each of these once; that none is
used or freed after its free; and that none is left after a close. `releasedOnce_run`:
this holds in every run in which every request that gets its context and is not refused is
queued as a text that its members can be read from, every event goes on to the list or to a
response that frees its context, and a close finds none of them waiting (`Careful`).
-/

namespace AliyunIot.Linkkit

open Lib Lib.Json Cjson Format AliyunIot.Dm

namespace AlcsRun

def ids (s : AlcsRun) : List Nat := s.allocated.map Prod.fst

def waiting (s : AlcsRun) : List Nat :=
  s.queue.map AlcsEvent.owner ++ s.services.filterMap PendingService.owner

structure ReleasedOnce (s : AlcsRun) : Prop where
  distinct : s.ids.Nodup
  once : (s.waiting ++ s.heap.freed).Perm s.ids
  clean : s.heap.Clean
  none_left : s.opened = false → s.heap.freed.Perm s.ids

/-- The members of a request stay what they are between other members: its id, up to a zero, is
the text of a string, and its params are a value of the type. -/
def Embeddable (env : AlcsEnv) (type : CjsonType) (request : DmMsgRequestPayload) : Prop :=
  Cjson.isBody (precision request.id.value) = true ∧
    Embeds env.strtod type request.params.value

/-- A service that comes to its event is no switch of the profiler, its name is the text of a
string, and the request is `Embeddable`. -/
def ServiceCarried (env : AlcsEnv) (s : AlcsRun) (io : ProcIo) : Prop :=
  io.parsePkdn = none → io.device.isSome = true →
    ∀ identifier ∈ topicService io.uri, ∀ request ∈ dmMsgRequestParse env.strtod io.payload,
      ¬ (env.logReport = true ∧ isProfilerSwitch identifier = true) ∧
        ((s.composeIo io).malloc = true → (s.composeIo io).sent = true →
          Cjson.isBody identifier.val = true ∧ Embeddable env .object request)

/-- A property get meets no failure on its way to the queue, and its request is `Embeddable`. -/
def PropertyGetCarried (env : AlcsEnv) (s : AlcsRun) (io : ProcIo) : Prop :=
  io.parsePkdn = none ∧ io.device.isSome = true ∧
    (∃ request ∈ dmMsgRequestParse env.strtod io.payload, Embeddable env .array request) ∧
    (s.composeIo io).malloc = true ∧ (s.composeIo io).sent = true

/-- The event goes on to the list, or to a response. -/
def Handles (s : AlcsRun) (e : AlcsEvent) (io : DispatchIo) : Prop :=
  io.request = true ∧
    match e.message.type with
    | .thingServiceRequest =>
      io.registered .serviceRequestExt = true ∧ io.node = true ∧
        s.services.length < configServiceListMaxlen
    | .propertyGet =>
      io.registered .propertyGet = true ∧ io.responds = true ∧ io.assembled = true
    | _ => True

/-- The condition on a step. -/
def Careful (env : AlcsEnv) (s : AlcsRun) : AlcsOp → Prop
  | .request .service addr malloc io =>
    s.opened = true → s.Free addr → malloc = true → s.ServiceCarried env io
  | .request .propertyGet addr malloc io =>
    s.opened = true → s.Free addr → malloc = true → s.PropertyGetCarried env io
  | .dispatch io => ∀ e ∈ s.queue.head?, s.Handles e io
  | .close => s.queue = [] ∧ ∀ node ∈ s.services, node.owner = none
  | _ => True

instance (env : AlcsEnv) (s : AlcsRun) (io : ProcIo) : Decidable (s.ServiceCarried env io) := by
  unfold ServiceCarried Embeddable
  infer_instance

instance (env : AlcsEnv) (s : AlcsRun) (io : ProcIo) : Decidable (s.PropertyGetCarried env io) := by
  unfold PropertyGetCarried Embeddable
  infer_instance

instance (s : AlcsRun) (e : AlcsEvent) (io : DispatchIo) : Decidable (s.Handles e io) := by
  unfold Handles
  cases e.message.type <;> infer_instance

instance (env : AlcsEnv) (s : AlcsRun) : (op : AlcsOp) → Decidable (s.Careful env op)
  | .request .service _ _ _ | .request .propertyGet _ _ _ | .dispatch _ | .close => by
    unfold Careful
    infer_instance
  | .cloudService _ | .answer _ _ | .overtime _ => .isTrue trivial

/-! ## The invariant -/

def Points (s : AlcsRun) (node : PendingService) : Prop :=
  match node.owner with
  | some id => s.contextAt node.alcsCtx = some id
  | none => node.alcsCtx = nullPointer

/-- The user is called with the pointer when the event is dispatched. -/
inductive Carries (strtod : Strtod) (p : Pointer) : EventMessage → Prop where
  | service {buffer whole payload : List UInt8} {devid : Int} {serviceid request id : List UInt8}
    (hbuffer : cString buffer = some payload)
    (hcalls : ∀ user : UserIo, user.malloc = true →
      iotxLinkkitEventCallback strtod user .thingServiceRequest payload =
        some (user.serve devid serviceid request id (.ctx p))) :
    Carries strtod p ⟨.thingServiceRequest, buffer, whole⟩
  | propertyGet {buffer whole payload : List UInt8} {devid : Int} {request id : List UInt8}
    (hbuffer : cString buffer = some payload)
    (hcalls : ∀ user : UserIo, user.malloc = true →
      iotxLinkkitEventCallback strtod user .propertyGet payload =
        some (user.call (.propertyGet devid request id (.ctx p)))) :
    Carries strtod p ⟨.propertyGet, buffer, whole⟩

/-- The contexts in a careful run; a step is in charge of `left`. -/
structure Owned (env : AlcsEnv) (s : AlcsRun) (left : List Nat) : Prop where
  fresh : ∀ id ∈ s.ids, id < s.nextId
  distinct : s.ids.Nodup
  once : (left ++ s.waiting ++ s.heap.freed).Perm s.ids
  faults : s.heap.faults = []
  events : ∀ e ∈ s.queue, ∃ p, s.contextAt p = some e.owner ∧ Carries env.strtod p e.message
  services : ∀ node ∈ s.services, s.Points node
  nodes : s.services.Nodup
  numbered : ∀ node ∈ s.services, node.id < s.nextId
  closed : s.opened = false → s.queue = [] ∧ s.services = []

theorem init_owned (env : AlcsEnv) : init.Owned env [] where
  fresh := nofun
  distinct := List.nodup_nil
  once := .nil
  faults := rfl
  events := nofun
  services := nofun
  nodes := List.nodup_nil
  numbered := nofun
  closed := nofun

section
variable {env : AlcsEnv} {s : AlcsRun} {left : List Nat}

variable {p : Pointer} {id : Nat}

theorem contextAt_ne_null (h : s.contextAt p = some id) : p ≠ nullPointer := by
  rintro rfl
  rw [contextAt, if_pos rfl] at h
  cases h

theorem Owned.nodup (h : s.Owned env left) : (left ++ s.waiting ++ s.heap.freed).Nodup :=
  h.once.nodup_iff.mpr h.distinct

theorem Owned.live (h : s.Owned env left) (hid : id ∈ left ++ s.waiting) :
    id ∉ s.heap.freed := fun hf => List.disjoint_of_nodup_append h.nodup hid hf

theorem mem_waiting_of_event {e : AlcsEvent} (he : e ∈ s.queue) : e.owner ∈ s.waiting :=
  List.mem_append_left _ (List.mem_map_of_mem he)

theorem mem_waiting_of_service {node : PendingService} (hnode : node ∈ s.services)
    (hid : node.owner = some id) : id ∈ s.waiting :=
  List.mem_append_right _ (List.mem_filterMap.mpr ⟨node, hnode, hid⟩)

theorem mem_ids_of_contextAt (h : s.contextAt p = some id) : (id, p) ∈ s.allocated := by
  rw [contextAt, if_neg (contextAt_ne_null h)] at h
  obtain ⟨c, hc, rfl⟩ := Option.map_eq_some_iff.mp h
  obtain rfl : c.2 = p := by simpa using List.find?_some hc
  exact List.mem_of_find?_eq_some hc

variable {addr : Pointer}

theorem contextAt_mallocContext (hfree : s.Free addr)
    (hp : s.contextAt p = some id) (hlive : id ∉ s.heap.freed) :
    (s.mallocContext addr).contextAt p = some id := by
  have hne : addr ≠ p := (hfree.2.2 _ (mem_ids_of_contextAt hp) hlive).symm
  have hnull := contextAt_ne_null hp
  rw [contextAt, if_neg hnull] at hp ⊢
  rw [mallocContext, List.find?_cons_of_neg (by simpa using hne)]
  exact hp

theorem contextAt_new (hfree : s.Free addr) :
    (s.mallocContext addr).contextAt addr = some s.nextId := by
  rw [contextAt, if_neg hfree.2.1, mallocContext, List.find?_cons_of_pos (by simp)]
  rfl

/-! ## A request -/

theorem failReturn_lt : State.failReturn < State.success := by decide

theorem Owned.mallocContext (h : s.Owned env []) (hopen : s.opened = true)
    (hfree : s.Free addr) : (s.mallocContext addr).Owned env [s.nextId] where
  fresh id hid := by
    rcases List.mem_cons.mp hid with rfl | hid
    · exact Nat.lt_succ_self _
    · exact Nat.lt_succ_of_lt (h.fresh id hid)
  distinct := List.nodup_cons.mpr ⟨fun hid => Nat.lt_irrefl _ (h.fresh _ hid), h.distinct⟩
  once := h.once.cons s.nextId
  faults := h.faults
  events e he := by
    obtain ⟨p, hp, hcarries⟩ := h.events e he
    exact ⟨p, contextAt_mallocContext hfree hp
      (h.live (List.mem_append_right _ (mem_waiting_of_event he))), hcarries⟩
  services node hnode := by
    have hpoints := h.services node hnode
    unfold Points at hpoints ⊢
    cases howner : node.owner with
    | none =>
      rw [howner] at hpoints
      exact hpoints
    | some id =>
      rw [howner] at hpoints
      exact contextAt_mallocContext hfree hpoints
        (h.live (List.mem_append_right _ (mem_waiting_of_service hnode howner)))
  nodes := h.nodes
  numbered node hnode := Nat.lt_succ_of_lt (h.numbered node hnode)
  closed hclosed := by
    change s.opened = false at hclosed
    rw [hopen] at hclosed
    cases hclosed

theorem Owned.free (h : s.Owned env (id :: left))
    (hp : s.contextAt p = some id) : (s.freeContext p).Owned env left := by
  have hlive : id ∉ s.heap.freed := h.live (List.mem_append_left _ List.mem_cons_self)
  have hheap : s.heap.free [id] = ⟨s.heap.freed ++ [id], s.heap.faults⟩ := by
    apply Ledger.free_of_live
    intro id' hid'
    rw [List.mem_singleton.mp hid']
    exact hlive
  rw [freeContext, hp, Option.toList_some, hheap]
  refine { h with once := ?_ }
  have hperm : (left ++ s.waiting ++ (s.heap.freed ++ [id])).Perm
      (id :: (left ++ s.waiting ++ s.heap.freed)) := by
    rw [← List.append_assoc]
    exact List.perm_append_singleton _ _
  exact hperm.trans h.once

theorem Owned.respond (h : s.Owned env left)
    (hp : ∀ id ∈ s.contextAt p, id ∈ left ++ s.waiting) : (s.respond p).Owned env left := by
  have hheap : s.heap.touch (s.contextAt p).toList = s.heap := by
    apply Ledger.touch_of_live
    intro id hid
    exact h.live (hp id (Option.mem_toList.mp hid))
  rw [AlcsRun.respond, hheap]
  exact { h with }

theorem carries_serviceRequest {strtod : Strtod} (hread : ReadsDecimals strtod)
    {logReport : Bool} {io : ComposeIo} {devid : Int} (hdevid : IsInt devid) {identifier : CStr}
    {request : DmMsgRequestPayload} {ctx : Pointer} {message : EventMessage}
    (h : (dmMsgThingServiceRequest logReport io (some devid) identifier request ctx).2 =
      some message)
    (hctx : ctx.length = sizeofUintptr) (hid : Cjson.isBody (precision request.id.value) = true)
    (hsid : Cjson.isBody identifier.val = true)
    (hparams : Embeds strtod .object request.params.value) : Carries strtod ctx message := by
  unfold dmMsgThingServiceRequest at h
  dsimp only at h
  split at h
  · cases h
  · obtain ⟨-, rfl⟩ := sendFormatted_eq.mp h
    have h0 := @zero_not_mem_format dmMsgServiceRequestFmt [.slice request.id.value, .int devid,
      .slice identifier.val, .slice request.params.value, .str (infraHex2str ctx)] (by decide)
      (by simp [zero_not_mem_hex])
    exact .service ((cString_cleared h0).mpr (serviceRequest_fits ctx identifier hdevid))
      fun _ hmalloc => serviceRequest_called hread hdevid hctx hid hsid hparams hmalloc

theorem carries_propertyGet {strtod : Strtod} (hread : ReadsDecimals strtod) {io : ComposeIo}
    {devid : Int} (hdevid : IsInt devid) {request : DmMsgRequestPayload} {ctx : Pointer}
    {message : EventMessage} (h : (dmMsgPropertyGet io devid request ctx).2 = some message)
    (hctx : ctx.length = sizeofUintptr) (hid : Cjson.isBody (precision request.id.value) = true)
    (hparams : Embeds strtod .array request.params.value) : Carries strtod ctx message := by
  obtain ⟨-, rfl⟩ := sendFormatted_eq.mp h
  have h0 := @zero_not_mem_format dmMsgThingPropertyGetFmt [.slice request.id.value, .int devid,
    .slice request.params.value, .str (infraHex2str ctx)] (by decide) (by simp [zero_not_mem_hex])
  exact .propertyGet ((cString_cleared h0).mpr (propertyGet_fits ctx hdevid))
    fun _ hmalloc => propertyGet_called hread hdevid hctx hid hparams hmalloc

theorem sendFormatted_code (io : ComposeIo) (type : EventType) (len : Nat) (fmt : List UInt8)
    (args : List Arg) :
    (sendFormatted io type len fmt args).1 =
        State.success ∧ (sendFormatted io type len fmt args).2.isSome = true ∨
      (sendFormatted io type len fmt args).1 < State.success ∧
        (sendFormatted io type len fmt args).2 = none := by
  unfold sendFormatted
  split
  · exact .inr ⟨State.sysDependMalloc_lt, rfl⟩
  split
  · exact .inr ⟨failReturn_lt, rfl⟩
  · exact .inl ⟨rfl, rfl⟩

variable {owner : Nat}

theorem Owned.queueEvent (h : s.Owned env [owner])
    (hopen : s.opened = true) (hp : s.contextAt addr = some owner) {r : Int × Option EventMessage}
    (hcode : r.1 = State.success ∧ r.2.isSome = true ∨ r.1 < State.success ∧ r.2 = none)
    (hcarries : ∀ message ∈ r.2, Carries env.strtod addr message) :
    ((s.queueEvent owner r).1 < State.success ∧ (s.queueEvent owner r).2 = s) ∨
    ((s.queueEvent owner r).1 = State.success ∧ (s.queueEvent owner r).2.Owned env []) := by
  obtain ⟨res, message⟩ := r
  rcases hcode with ⟨hres, hmessage⟩ | ⟨hres, hmessage⟩
  · obtain ⟨message, rfl⟩ := Option.isSome_iff_exists.mp hmessage
    refine .inr ⟨hres, { h with once := ?_, events := fun e he => ?_, closed := fun hclosed => ?_ }⟩
    · have hwaiting : (s.queueEvent owner (res, some message)).2.waiting =
          s.queue.map AlcsEvent.owner ++ owner :: s.services.filterMap PendingService.owner := by
        rw [AlcsRun.queueEvent, waiting, List.map_append, List.append_assoc]
        rfl
      rw [List.nil_append, hwaiting]
      exact (List.perm_middle.append_right _).trans h.once
    · rcases List.mem_append.mp he with he | he
      · exact h.events e he
      · rw [List.mem_singleton.mp he]
        exact ⟨addr, hp, hcarries message rfl⟩
    · change s.opened = false at hclosed
      rw [hopen] at hclosed
      cases hclosed
  · obtain rfl : message = none := hmessage
    exact .inl ⟨hres, rfl⟩

theorem memtokFailed_lt (uri : CStr) : memtokFailed uri < State.success := by
  unfold memtokFailed
  split <;> decide

theorem requestParseFailed_lt (payload : List UInt8) :
    requestParseFailed payload < State.success := by
  unfold requestParseFailed
  split <;> decide

theorem Owned.dmMsgProcThingServiceRequest (hread : ReadsDecimals env.strtod)
    (h : s.Owned env [owner]) (hopen : s.opened = true)
    (hp : s.contextAt addr = some owner) (hlen : addr.length = sizeofUintptr) {io : ProcIo}
    (hio : s.ServiceCarried env io) :
    ((s.dmMsgProcThingServiceRequest env addr owner io).1 < State.success ∧
      (s.dmMsgProcThingServiceRequest env addr owner io).2 = s) ∨
    ((s.dmMsgProcThingServiceRequest env addr owner io).1 = State.success ∧
      (s.dmMsgProcThingServiceRequest env addr owner io).2.Owned env []) := by
  unfold AlcsRun.dmMsgProcThingServiceRequest
  cases hservice : topicService io.uri with
  | none => exact .inl ⟨memtokFailed_lt _, rfl⟩
  | some identifier =>
    cases hpkdn : io.parsePkdn with
    | some code => exact .inl ⟨code.2, rfl⟩
    | none =>
      cases hparse : dmMsgRequestParse env.strtod io.payload with
      | none => exact .inl ⟨requestParseFailed_lt _, rfl⟩
      | some request =>
        cases hdevice : io.device with
        | none => exact .inl ⟨failReturn_lt, rfl⟩
        | some devid =>
          obtain ⟨hswitch, hcarried⟩ :=
            hio hpkdn (by rw [hdevice]; rfl) identifier hservice request hparse
          refine h.queueEvent hopen hp ?_ fun message hmessage => ?_
          · unfold dmMsgThingServiceRequest
            rw [Option.map_some]
            dsimp only
            rw [if_neg hswitch]
            exact sendFormatted_code _ _ _ _ _
          · have hsends := hmessage
            unfold dmMsgThingServiceRequest at hsends
            rw [Option.map_some] at hsends
            dsimp only at hsends
            rw [if_neg hswitch] at hsends
            obtain ⟨hmalloc, hsent⟩ := (sendFormatted_eq.mp hsends).1
            obtain ⟨hsid, hid, hparams⟩ := hcarried hmalloc hsent
            exact carries_serviceRequest hread devid.2 hmessage hlen hid hsid hparams

theorem Owned.dmMsgProcThingServicePropertyGet (hread : ReadsDecimals env.strtod)
    (h : s.Owned env [owner]) (hopen : s.opened = true)
    (hp : s.contextAt addr = some owner) (hlen : addr.length = sizeofUintptr) {io : ProcIo}
    (hio : s.PropertyGetCarried env io) :
    (s.dmMsgProcThingServicePropertyGet env addr owner io).2.Owned env [] := by
  obtain ⟨hpkdn, hdevice, ⟨request, hparse, hid, hparams⟩, hsends⟩ := hio
  obtain ⟨devid, hdevice⟩ := Option.isSome_iff_exists.mp hdevice
  have hparse : dmMsgRequestParse env.strtod io.payload = some request := hparse
  have hqueued := h.queueEvent (r := dmMsgPropertyGet (s.composeIo io) devid request addr) hopen hp
    (sendFormatted_code _ _ _ _ _)
    fun message hmessage => carries_propertyGet hread devid.2 hmessage hlen hid hparams
  have hsuccess : (s.queueEvent owner (dmMsgPropertyGet (s.composeIo io) devid request addr)).1 =
      State.success := by
    simp [AlcsRun.queueEvent, dmMsgPropertyGet, sendFormatted, hsends]
  unfold AlcsRun.dmMsgProcThingServicePropertyGet
  rw [hpkdn]
  rw [hdevice]
  rw [hparse]
  rcases hqueued with ⟨hlt, -⟩ | ⟨-, hs⟩
  · exact absurd hsuccess (Int.ne_of_lt hlt)
  · exact hs

theorem Owned.serve (hread : ReadsDecimals env.strtod) (h : s.Owned env [])
    {request : AlcsRequest} {io : ProcIo} (hopen : s.opened = true)
    (hfree : s.Free addr) (hc : s.Careful env (.request request addr true io)) :
    (s.serve env request addr io).Owned env [] := by
  have howned := h.mallocContext hopen hfree
  have hp := contextAt_new hfree
  cases request with
  | service =>
    have hio : (s.mallocContext addr).ServiceCarried env io := hc hopen hfree rfl
    have hproc := howned.dmMsgProcThingServiceRequest hread hopen hp hfree.1 hio
    unfold AlcsRun.serve
    dsimp only
    rcases hproc with ⟨hres, hs⟩ | ⟨hres, hs⟩
    · rw [if_pos hres, hs]
      exact howned.free hp
    · rw [if_neg (by omega)]
      exact hs
  | propertyGet =>
    have hio : (s.mallocContext addr).PropertyGetCarried env io := hc hopen hfree rfl
    exact howned.dmMsgProcThingServicePropertyGet hread hopen hp hfree.1 hio

/-! ## An event -/

theorem Owned.listService (owner : Option Nat) {node : Bool}
    (h : s.Owned env owner.toList) (hopen : s.opened = true) (hp : s.Points ⟨s.nextId, p, owner⟩)
    (hroom : owner.isSome = true → node = true ∧ s.services.length < configServiceListMaxlen) :
    (s.listService p owner node).Owned env [] := by
  have hnone : ¬ owner.isSome = true → s.Owned env [] := fun howner => by
    rw [Option.not_isSome_iff_eq_none.mp howner] at h
    exact h
  unfold AlcsRun.listService
  split
  next hfull => exact hnone fun howner => absurd hfull (Nat.not_le.mpr (hroom howner).2)
  split
  next hnode =>
    refine hnone fun howner => ?_
    rw [(hroom howner).1] at hnode
    cases hnode
  refine { h with
    fresh := fun id hid => Nat.lt_succ_of_lt (h.fresh id hid)
    once := ?_
    services := fun n hn => ?_
    nodes := List.nodup_cons.mpr ⟨fun hn => Nat.lt_irrefl _ (h.numbered _ hn), h.nodes⟩
    numbered := fun n hn => ?_
    closed := fun hclosed => ?_ }
  · refine List.Perm.trans ?_ h.once
    refine List.Perm.append_right _ ?_
    cases owner with
    | none => exact .refl _
    | some id => exact List.perm_middle
  · rcases List.mem_cons.mp hn with rfl | hn
    · exact hp
    · exact h.services n hn
  · rcases List.mem_cons.mp hn with rfl | hn
    · exact Nat.lt_succ_self _
    · exact Nat.lt_succ_of_lt (h.numbered n hn)
  · rw [hopen] at hclosed
    cases hclosed

theorem Owned.dispatch {e : AlcsEvent} {queue : List AlcsEvent} {io : DispatchIo}
    (h : s.Owned env []) (hqueue : s.queue = e :: queue) (hio : s.Handles e io) :
    ({ s with queue := queue }.eventCallback env e io).Owned env [] := by
  have hopen : s.opened = true := by
    by_contra hclosed
    have hnil := (h.closed (by simpa using hclosed)).1
    rw [hqueue] at hnil
    cases hnil
  obtain ⟨p, hp, hcarries⟩ := h.events e (by simp [hqueue])
  have howned : ({ s with queue := queue } : AlcsRun).Owned env [e.owner] :=
    { h with
      once := by
        have honce := h.once
        rw [waiting, hqueue] at honce
        exact honce
      events := fun e' he' => h.events e' (by rw [hqueue]; exact List.mem_cons_of_mem _ he')
      closed := fun hclosed => by
        rw [hopen] at hclosed
        cases hclosed }
  have hrespond : (({ s with queue := queue } : AlcsRun).respond p).Owned env [e.owner] := by
    refine howned.respond fun id hid => List.mem_append_left _ ?_
    obtain rfl : e.owner = id := Option.some_inj.mp (hp.symm.trans hid)
    exact List.mem_singleton_self _
  obtain ⟨message, owner⟩ := e
  obtain ⟨hrequest, hio⟩ := hio
  unfold eventCallback
  cases hcarries with
  | service hbuffer hcalls =>
    obtain ⟨hext, hnode, hroom⟩ := hio
    rw [hbuffer, Option.bind_some, hcalls _ hrequest]
    have hlisted : (userIo { s with queue := queue } io).listed = true := by
      simp [userIo, hnode, hroom]
    rw [UserIo.serve, hlisted, if_pos rfl,
      call_of_registered (c := .serviceRequestExt _ _ _ _ _) hext]
    dsimp only
    rw [List.foldl_append]
    -- the callback that may give a response, if it is registered, goes first
    by_cases hfirst : io.registered .serviceRequest = true
    · rw [call_of_registered (c := .serviceRequest _ _ _ _ _) hfirst]
      simp only [List.foldl_cons, List.foldl_nil, called]
      split
      · exact hrespond.listService (some owner) hopen hp fun _ => ⟨hnode, hroom⟩
      · exact howned.listService (some owner) hopen hp fun _ => ⟨hnode, hroom⟩
    · rw [call_of_not_registered (c := .serviceRequest _ _ _ _ _) hfirst]
      exact howned.listService (some owner) hopen hp fun _ => ⟨hnode, hroom⟩
  | propertyGet hbuffer hcalls =>
    obtain ⟨hget, hresponds, hassembled⟩ := hio
    rw [hbuffer, Option.bind_some, hcalls _ hrequest,
      call_of_registered (c := .propertyGet _ _ _ _) hget]
    simp only [List.foldl_cons, List.foldl_nil, called, hresponds, hassembled, Bool.and_self]
    exact hrespond.free hp

/-! ## The list of pending services -/

theorem Owned.deleteService {node : PendingService} (h : s.Owned env [])
    (hnode : node ∈ s.services) : (s.deleteService node).Owned env [] := by
  have hperm := (List.perm_cons_erase hnode).filterMap PendingService.owner
  have howned : ({ s with services := s.services.erase node } : AlcsRun).Owned env
      node.owner.toList :=
    { h with
      once := by
        refine List.Perm.trans ?_ h.once
        refine List.Perm.append_right _ ?_
        refine List.Perm.trans ?_ (hperm.symm.append_left (s.queue.map AlcsEvent.owner))
        cases howner : node.owner with
        | none =>
          rw [List.filterMap_cons_none howner]
          exact .refl _
        | some id =>
          rw [List.filterMap_cons_some howner]
          have hmiddle : (s.queue.map AlcsEvent.owner ++
              id :: (s.services.erase node).filterMap PendingService.owner).Perm
              (id :: (s.queue.map AlcsEvent.owner ++
                (s.services.erase node).filterMap PendingService.owner)) := List.perm_middle
          exact hmiddle.symm
      services := fun n hn => h.services n (List.mem_of_mem_erase hn)
      nodes := h.nodes.erase node
      numbered := fun n hn => h.numbered n (List.mem_of_mem_erase hn)
      closed := fun hclosed => by
        obtain ⟨hqueue, hservices⟩ := h.closed hclosed
        rw [hservices] at hnode
        cases hnode }
  have hpoints := h.services node hnode
  unfold Points at hpoints
  unfold AlcsRun.deleteService
  cases howner : node.owner with
  | none =>
    rw [howner] at hpoints howned
    rw [if_pos hpoints]
    exact howned
  | some id =>
    rw [howner] at hpoints howned
    rw [if_neg (contextAt_ne_null hpoints)]
    exact howned.free hpoints

theorem Owned.deleteServices {nodes : List PendingService} (h : s.Owned env []) (hn : nodes.Nodup)
    (hnodes : ∀ node ∈ nodes, node ∈ s.services) :
    (nodes.foldl AlcsRun.deleteService s).Owned env [] := by
  induction nodes generalizing s with
  | nil => exact h
  | cons node nodes ih =>
    obtain ⟨hnotin, hn⟩ := List.nodup_cons.mp hn
    refine ih (h.deleteService (hnodes node List.mem_cons_self)) hn fun n hmem => ?_
    have hne : n ≠ node := fun hne => hnotin (hne ▸ hmem)
    have herase : n ∈ s.services.erase node :=
      (List.mem_erase_of_ne hne).mpr (hnodes n (List.mem_cons_of_mem _ hmem))
    unfold AlcsRun.deleteService
    split
    · exact herase
    · exact herase

theorem Owned.respondTo {node : PendingService} (h : s.Owned env []) (hnode : node ∈ s.services) :
    (s.respond node.alcsCtx).Owned env [] := by
  refine h.respond fun id hid => ?_
  have hpoints := h.services node hnode
  unfold Points at hpoints
  cases howner : node.owner with
  | none =>
    rw [howner] at hpoints
    exact absurd hpoints (contextAt_ne_null hid)
  | some id' =>
    rw [howner] at hpoints
    obtain rfl : id' = id := Option.some_inj.mp (hpoints.symm.trans hid)
    exact mem_waiting_of_service hnode howner

/-! ## The steps -/

theorem Owned.next (hread : ReadsDecimals env.strtod) (h : s.Owned env []) {op : AlcsOp}
    (hc : s.Careful env op) : (s.next env op).Owned env [] := by
  cases op with
  | request request addr malloc io =>
    unfold AlcsRun.next
    dsimp only
    split
    next hcond =>
      cases malloc with
      | false => exact h
      | true => exact h.serve hread hcond.1 hcond.2 hc
    · exact h
  | dispatch io =>
    unfold AlcsRun.next
    cases hqueue : s.queue with
    | nil => exact h
    | cons e queue => exact h.dispatch hqueue (hc e (by simp [hqueue]))
  | cloudService node =>
    unfold AlcsRun.next
    dsimp only
    split
    next hopen => exact h.listService none hopen rfl nofun
    · exact h
  | answer id assembled =>
    unfold AlcsRun.next
    dsimp only
    split
    next =>
      cases hfind : s.services.find? fun node => node.id = id with
      | none => exact h
      | some node =>
        have hnode := List.mem_of_find?_eq_some hfind
        dsimp only
        split
        · exact (h.respondTo hnode).deleteService hnode
        · exact h.deleteService hnode
    · exact h
  | overtime expired =>
    exact h.deleteServices (h.nodes.filter _) fun node hnode => (List.mem_filter.mp hnode).1
  | close =>
    obtain ⟨hqueue, hservices⟩ := hc
    have hnone : s.services.filterMap PendingService.owner = [] :=
      List.filterMap_eq_nil_iff.mpr hservices
    exact { h with
      once := by
        have honce := h.once
        rw [waiting, hqueue, hnone] at honce
        exact honce
      events := nofun
      services := nofun
      nodes := List.nodup_nil
      numbered := nofun
      closed := fun _ => ⟨rfl, rfl⟩ }

theorem Owned.releasedOnce (h : s.Owned env []) : s.ReleasedOnce where
  distinct := h.distinct
  once := h.once
  clean := ⟨h.faults, (List.nodup_append.mp h.nodup).2.1⟩
  none_left hclosed := by
    obtain ⟨hqueue, hservices⟩ := h.closed hclosed
    have honce := h.once
    rw [waiting, hqueue, hservices] at honce
    exact honce

end

/-- In a run that loses no context, every context is freed once, and none is left after the
close. -/
theorem releasedOnce_run {env : AlcsEnv} (hread : ReadsDecimals env.strtod) {ops : List AlcsOp}
    (hc : Meets (next env) (Careful env) init ops) : (run (next env) init ops).ReleasedOnce :=
  (run_invariant_of_meets (I := fun s : AlcsRun => s.Owned env [])
    (fun _ _ hc h => h.next hread hc) hc (init_owned env)).releasedOnce

end AlcsRun

/-- A build without log report. -/
def sampleAlcs : AlcsEnv := ⟨false, integerStrtod⟩

/-- A request for the service `echo`, with the params `{"a":1}`, that meets no failure. -/
def ProcIo.service : ProcIo where
  uri := ⟨text "/sys/pk/dn/thing/service/echo", by decide⟩
  payload := text ("\x7b\"id\":\"5\",\"version\":\"1.0\"," ++
    "\"method\":\"thing.service.echo\",\"params\":\x7b\"a\":1\x7d\x7d")
  parsePkdn := none
  device := some ⟨3, by decide⟩
  malloc := true
  ipcMsg := true
  node := true

/-- A request for the property `a`. -/
def ProcIo.propertyGet : ProcIo :=
  { ProcIo.service with
    payload := text ("\x7b\"id\":\"6\",\"version\":\"1.0\"," ++
      "\"method\":\"thing.service.property.get\",\"params\":[\"a\"]\x7d") }

/-- A payload that is no request. -/
def ProcIo.refused : ProcIo := { ProcIo.service with payload := text "\x7b\x7d" }

/-- `x","ctx":"00000000`, a name that gives the event a context of its own. -/
def ProcIo.quoted : ProcIo :=
  { ProcIo.service with
    uri := ⟨text "/sys/pk/dn/thing/service/x\",\"ctx\":\"00000000", by decide⟩ }

/-- A user with all callbacks, who responds. -/
def DispatchIo.good : DispatchIo := ⟨fun _ => true, true, true, true, true⟩

namespace AlcsRun

/-- A service that is answered, one that times out, one that is refused by its payload, and
a property get. -/
def releasedRun : List AlcsOp :=
  [.request .service [1, 0, 0, 0] true .service, .dispatch .good,
    .request .service [2, 0, 0, 0] true .service, .dispatch .good, .answer 1 true,
    .request .service [1, 0, 0, 0] true .refused,
    .request .propertyGet [3, 0, 0, 0] true .propertyGet, .dispatch .good,
    .overtime fun _ => true, .close]

theorem releasedOnce_run_mixed :
    Meets (next sampleAlcs) (Careful sampleAlcs) init releasedRun ∧
      (run (next sampleAlcs) init releasedRun).ReleasedOnce ∧
      (run (next sampleAlcs) init releasedRun).heap.freed = [0, 4, 5, 2] ∧
      (run (next sampleAlcs) init releasedRun).responses = [0, 2, 0, 5] :=
  have hcareful : Meets (next sampleAlcs) (Careful sampleAlcs) init releasedRun := by
    decide +kernel
  ⟨hcareful, releasedOnce_run readsDecimals_integerStrtod hcareful, by decide +kernel,
    by decide +kernel⟩

/-- A context stays allocated after the close: of a property get whose payload is not a
request, of a service when only `ITE_SERVICE_REQUEST` has a callback, of a service that is not
yet answered, and of one whose name is read as a context. -/
theorem contexts_lost :
    ¬ (run (next sampleAlcs) init [.request .propertyGet [1, 0, 0, 0] true .refused,
      .close]).ReleasedOnce ∧
    ¬ (run (next sampleAlcs) init [.request .service [1, 0, 0, 0] true .service,
      .dispatch { DispatchIo.good with registered := fun ite => ite = .serviceRequest },
      .close]).ReleasedOnce ∧
    ¬ (run (next sampleAlcs) init [.request .service [1, 0, 0, 0] true .service,
      .dispatch .good, .close]).ReleasedOnce ∧
    ¬ (run (next sampleAlcs) init [.request .service [1, 0, 0, 0] true .quoted,
      .dispatch .good, .answer 1 true, .close]).ReleasedOnce := by
  have hnone : ∀ s : AlcsRun, s.opened = false ∧ s.heap.freed = [] ∧ s.ids = [0] →
      ¬ s.ReleasedOnce := by
    rintro s ⟨hclosed, hfreed, hids⟩ h
    have hperm := h.none_left hclosed
    rw [hfreed, hids] at hperm
    exact List.not_mem_nil (hperm.mem_iff.mpr (List.mem_singleton_self 0))
  exact ⟨hnone _ (by decide +kernel), hnone _ (by decide +kernel), hnone _ (by decide +kernel),
    hnone _ (by decide +kernel)⟩

end AlcsRun

end AliyunIot.Linkkit
