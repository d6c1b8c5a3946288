import AliyunIot.Infra.CStr
import AliyunIot.Infra.State
import AliyunIot.Lib.Retry

/-!
# Subscribing all the topics of a device

`dm_server_subscribe_all` and `dm_client_subdev_unsubscribe`, which walk their uri map
and step the index back on a failure. `bulk_completes_iff`: they return, with every entry
subscribed to or unsubscribed from, exactly when the calls succeed as often as there are
entries; a failure that stays is met for ever.
-/

namespace AliyunIot.Dm

open Lib

/-! ## The uri maps -/

structure UriMapBuild where
  rawdataSolo : Bool
  shadow : Bool
  historyPost : Bool
  gateway : Bool

/-- `IOTX_DM_LOCAL_AUTH` and its parts. -/
abbrev iotxDmServiceLocal : Nat := 0x0002
abbrev iotxDmServiceLocalNoAuth : Nat := 0x0000
abbrev iotxDmServiceLocalAuth : Nat := 0x0100
abbrev iotxDmLocalAuth : Nat := iotxDmServiceLocal ||| iotxDmServiceLocalAuth
abbrev iotxDmLocalNoAuth : Nat := iotxDmServiceLocal ||| iotxDmServiceLocalNoAuth

abbrev iotxDmDeviceSingle : Nat := 0x01
abbrev iotxDmDeviceSubdev : Nat := 0x02
abbrev iotxDmDeviceGateway : Nat := 0x04
abbrev iotxDmDeviceAll : Nat := iotxDmDeviceSingle ||| iotxDmDeviceSubdev ||| iotxDmDeviceGateway

inductive DmServerHandler where
  | thingServicePropertySet | thingServicePropertyGet | thingServicePropertyPost
  | thingServiceRequest | thingDevCoreServiceDev

structure DmServerUriMap where
  uriName : Option String
  uriPrefix : Option String
  authType : Nat
  callback : DmServerHandler

/-- `dm_client_uri_map_t`, less the callback. -/
structure DmClientUriMap where
  uriName : Option String
  uriPrefix : Option String
  devType : Nat

def sysPrefix : Option String := some "/sys/%s/%s/"
def extSessionPrefix : Option String := some "/ext/session/%s/%s/"
def extNtpPrefix : Option String := some "/ext/ntp/%s/%s/"
def extErrorPrefix : Option String := some "/ext/error/%s/%s"

def gDmServerUriMap (build : UriMapBuild) : List DmServerUriMap :=
  (if build.rawdataSolo then [] else
    [⟨some "thing/service/property/set", sysPrefix, iotxDmLocalAuth, .thingServicePropertySet⟩,
      ⟨some "thing/service/property/get", sysPrefix, iotxDmLocalAuth, .thingServicePropertyGet⟩,
      ⟨some "thing/event/property/post", sysPrefix, iotxDmLocalAuth, .thingServicePropertyPost⟩,
      ⟨some "thing/service/#", sysPrefix, iotxDmLocalAuth, .thingServiceRequest⟩]) ++
  [⟨some "/dev/core/service/dev", none, iotxDmLocalNoAuth, .thingDevCoreServiceDev⟩]

def gDmClientUriMap (build : UriMapBuild) : List DmClientUriMap :=
  (if build.rawdataSolo then [] else
    [⟨some "thing/event/+/post_reply", sysPrefix, iotxDmDeviceAll⟩] ++
    (if build.shadow then
      [⟨some "thing/property/desired/delete_reply", sysPrefix, iotxDmDeviceAll⟩,
        ⟨some "thing/property/desired/get_reply", sysPrefix, iotxDmDeviceAll⟩,
        ⟨some "thing/service/property/get", sysPrefix, iotxDmDeviceAll⟩] else []) ++
    (if build.historyPost then
      [⟨some "thing/event/property/history/post_reply", sysPrefix, iotxDmDeviceAll⟩] else []) ++
    [⟨some "thing/service/property/set", sysPrefix, iotxDmDeviceAll⟩,
      ⟨some "thing/service/+", sysPrefix, iotxDmDeviceAll⟩,
      ⟨some "thing/deviceinfo/update_reply", sysPrefix, iotxDmDeviceAll⟩,
      ⟨some "thing/deviceinfo/delete_reply", sysPrefix, iotxDmDeviceAll⟩,
      ⟨some "thing/dynamicTsl/get_reply", sysPrefix, iotxDmDeviceAll⟩,
      ⟨some "rrpc/request/+", sysPrefix, iotxDmDeviceAll⟩,
      ⟨some "response", extNtpPrefix, iotxDmDeviceAll⟩,
      ⟨none, extErrorPrefix, iotxDmDeviceAll⟩]) ++
  [⟨some "thing/model/down_raw", sysPrefix, iotxDmDeviceAll⟩,
    ⟨some "thing/model/up_raw_reply", sysPrefix, iotxDmDeviceAll⟩] ++
  (if build.gateway then
    [⟨some "thing/topo/add/notify", sysPrefix, iotxDmDeviceGateway⟩,
      ⟨some "thing/gateway/permit", sysPrefix, iotxDmDeviceGateway⟩,
      ⟨some "thing/sub/register_reply", sysPrefix, iotxDmDeviceGateway⟩,
      ⟨some "thing/proxy/provisioning/product_register_reply", sysPrefix, iotxDmDeviceGateway⟩,
      ⟨some "thing/sub/unregister_reply", sysPrefix, iotxDmDeviceGateway⟩,
      ⟨some "thing/topo/add_reply", sysPrefix, iotxDmDeviceGateway⟩,
      ⟨some "thing/topo/delete_reply", sysPrefix, iotxDmDeviceGateway⟩,
      ⟨some "thing/topo/get_reply", sysPrefix, iotxDmDeviceGateway⟩,
      ⟨some "thing/list/found_reply", sysPrefix, iotxDmDeviceGateway⟩,
      ⟨some "combine/login_reply", extSessionPrefix, iotxDmDeviceGateway⟩,
      ⟨some "combine/logout_reply", extSessionPrefix, iotxDmDeviceGateway⟩,
      ⟨some "thing/disable", sysPrefix, iotxDmDeviceGateway⟩,
      ⟨some "thing/enable", sysPrefix, iotxDmDeviceGateway⟩,
      ⟨some "thing/delete", sysPrefix, iotxDmDeviceGateway⟩] else [])

/-! ## The uri of an entry -/

/-- The text that `HAL_Snprintf` makes of a format whose only directive is `%s`. -/
def formatStrings : List Char → List CStr → List UInt8
  | '%' :: 's' :: format, arg :: args => arg.val ++ formatStrings format args
  | c :: format, args => UInt8.ofNat c.toNat :: formatStrings format args
  | [], _ => []

def serviceNameText (uriPrefix name : Option String) (productKey deviceName : CStr) : List UInt8 :=
  ((uriPrefix.map fun p => formatStrings p.toList [productKey, deviceName]).getD []) ++
    ((name.map fun n => formatStrings n.toList []).getD [])

/-- `dm_utils_service_name` for a product key and a device name; `uri` is what
`*service_name` points to, and `malloc` the outcome of the allocation. -/
def dmUtilsServiceName (uriPrefix name : Option String) (productKey deviceName : CStr)
    (uri : Option (List UInt8)) (malloc : Bool) : Int × Option (List UInt8) :=
  if (uriPrefix = none ∧ name = none) ∨ uri ≠ none then (State.userInputInvalid, uri)
  else if malloc = false then (State.sysDependMalloc, none)
  else (State.success, some (serviceNameText uriPrefix name productKey deviceName))

/-! ## The two walks -/

/-- `iotx_dm_message_auth_types_t`, less the last. -/
inductive DmMessageAuth where
  | noAuth | auth

inductive UriCall where
  | serviceName (uriPrefix name : Option String)
  | serverSubscribe (uri : List UInt8) (callback : DmServerHandler) (needAuth : DmMessageAuth)
  | clientUnsubscribe (uri : List UInt8)

/-- What the calls of a pass of `dm_server_subscribe_all` return. -/
structure SubscribePass where
  serviceName : Int
  subscribe : Int

section
variable (productKey deviceName : CStr)

def serverSubscribeCall (entry : DmServerUriMap) : UriCall :=
  let needAuth := if entry.authType &&& iotxDmServiceLocalAuth ≠ 0
    then DmMessageAuth.auth else .noAuth
  .serverSubscribe (serviceNameText entry.uriPrefix entry.uriName productKey deviceName)
    entry.callback needAuth

def dmServerSubscribePass (entry : DmServerUriMap) (pass : SubscribePass) (index : Int) :
    Int × List UriCall :=
  let calls := [UriCall.serviceName entry.uriPrefix entry.uriName]
  if pass.serviceName < State.success then (index - 1, calls)
  else
    let calls := calls ++ [serverSubscribeCall productKey deviceName entry]
    if pass.subscribe < State.success then (index - 1, calls) else (index, calls)

/-- `dm_server_subscribe_all` for `fuel` passes at most, where pass `n` is given
`passes n`: the result and the calls. -/
def dmServerSubscribeAll (build : UriMapBuild) (passes : Nat → SubscribePass) (fuel : Nat) :
    Option (Int × List UriCall) :=
  (retryFor (gDmServerUriMap build) (fun _ => false)
    (fun entry n index => dmServerSubscribePass productKey deviceName entry (passes n) index)
    fuel 0 0).map fun calls => (State.success, calls)

def notForSubdev (entry : DmClientUriMap) : Bool := entry.devType &&& iotxDmDeviceSubdev = 0

def clientUnsubscribeCall (entry : DmClientUriMap) : UriCall :=
  .clientUnsubscribe (serviceNameText entry.uriPrefix entry.uriName productKey deviceName)

/-- A pass of `dm_client_subdev_unsubscribe` at an entry for sub-devices, where
`dm_utils_service_name` returns `serviceName`. -/
def dmClientSubdevUnsubscribePass (entry : DmClientUriMap) (serviceName : Int) (index : Int) :
    Int × List UriCall :=
  let calls := [UriCall.serviceName entry.uriPrefix entry.uriName]
  if serviceName < State.success then (index - 1, calls)
  else
    -- what `dm_client_unsubscribe` returns is not looked at
    (index, calls ++ [clientUnsubscribeCall productKey deviceName entry])

/-- `dm_client_subdev_unsubscribe` for `fuel` passes at most, where call `n` of
`dm_utils_service_name` returns `serviceNames n`. -/
def dmClientSubdevUnsubscribe (build : UriMapBuild) (serviceNames : Nat → Int) (fuel : Nat) :
    Option (Int × List UriCall) :=
  (retryFor (gDmClientUriMap build) notForSubdev
    (fun entry n index =>
      dmClientSubdevUnsubscribePass productKey deviceName entry (serviceNames n) index)
    fuel 0 0).map fun calls => (State.success, calls)

/-! ## When they return -/

/-- `dm_server_subscribe_all` returns, and has subscribed to every entry. -/
def ServerSubscribeCompletes (build : UriMapBuild) (passes : Nat → SubscribePass) : Prop :=
  ∃ fuel res calls,
    dmServerSubscribeAll productKey deviceName build passes fuel = some (res, calls) ∧
    ∀ entry ∈ gDmServerUriMap build, serverSubscribeCall productKey deviceName entry ∈ calls

/-- `dm_client_subdev_unsubscribe` returns, and has unsubscribed from every entry for
sub-devices. -/
def ClientUnsubscribeCompletes (build : UriMapBuild) (serviceNames : Nat → Int) : Prop :=
  ∃ fuel res calls,
    dmClientSubdevUnsubscribe productKey deviceName build serviceNames fuel = some (res, calls) ∧
    ∀ entry ∈ gDmClientUriMap build, notForSubdev entry = false →
      clientUnsubscribeCall productKey deviceName entry ∈ calls

end

/-- Both calls of a pass succeed. -/
def SubscribePass.Ok (pass : SubscribePass) : Prop :=
  State.success ≤ pass.serviceName ∧ State.success ≤ pass.subscribe

instance (pass : SubscribePass) : Decidable pass.Ok :=
  inferInstanceAs (Decidable (_ ∧ _))

section
variable (productKey deviceName : CStr)

theorem dmServerSubscribePass_retries (passes : Nat → SubscribePass) :
    Retries (fun entry n index => dmServerSubscribePass productKey deviceName entry
      (passes n) index)
      (fun n => (passes n).Ok)
      (fun entry n => (dmServerSubscribePass productKey deviceName entry (passes n) 0).2) where
  body_eq entry n index := by
    unfold dmServerSubscribePass
    by_cases hname : (passes n).serviceName < State.success
    · have hbad : ¬ (passes n).Ok := fun h => Int.not_le.mpr hname h.1
      rw [if_pos hname, if_pos hname, if_neg hbad]
    rw [if_neg hname, if_neg hname]
    by_cases hsub : (passes n).subscribe < State.success
    · have hbad : ¬ (passes n).Ok := fun h => Int.not_le.mpr hsub h.2
      rw [if_pos hsub, if_pos hsub, if_neg hbad]
    · have hok : (passes n).Ok := ⟨Int.not_lt.mp hname, Int.not_lt.mp hsub⟩
      rw [if_neg hsub, if_neg hsub, if_pos hok]

theorem dmClientSubdevUnsubscribePass_retries (serviceNames : Nat → Int) :
    Retries (fun entry n index =>
        dmClientSubdevUnsubscribePass productKey deviceName entry (serviceNames n) index)
      (fun n => State.success ≤ serviceNames n)
      (fun entry n =>
        (dmClientSubdevUnsubscribePass productKey deviceName entry (serviceNames n) 0).2) where
  body_eq entry n index := by
    unfold dmClientSubdevUnsubscribePass
    by_cases hname : serviceNames n < State.success
    · rw [if_pos hname, if_pos hname, if_neg (Int.not_le.mpr hname)]
    · rw [if_neg hname, if_neg hname, if_pos (Int.not_lt.mp hname)]

theorem mem_subscribePass (entry : DmServerUriMap) {pass : SubscribePass} (h : pass.Ok)
    (index : Int) : serverSubscribeCall productKey deviceName entry ∈
      (dmServerSubscribePass productKey deviceName entry pass index).2 := by
  unfold dmServerSubscribePass
  rw [if_neg (Int.not_lt.mpr h.1)]
  rw [if_neg (Int.not_lt.mpr h.2)]
  exact List.mem_append_right _ List.mem_cons_self

theorem mem_unsubscribePass (entry : DmClientUriMap) {serviceName : Int}
    (h : State.success ≤ serviceName) (index : Int) :
    clientUnsubscribeCall productKey deviceName entry ∈
      (dmClientSubdevUnsubscribePass productKey deviceName entry serviceName index).2 := by
  unfold dmClientSubdevUnsubscribePass
  rw [if_neg (Int.not_lt.mpr h)]
  exact List.mem_append_right _ List.mem_cons_self

theorem serverSubscribeCompletes_iff (build : UriMapBuild) (passes : Nat → SubscribePass) :
    ServerSubscribeCompletes productKey deviceName build passes ↔
      ∃ m, (gDmServerUriMap build).length ≤ Nat.count (fun n => (passes n).Ok) m := by
  have hretry := dmServerSubscribePass_retries productKey deviceName passes
  have hall : (gDmServerUriMap build).filter (fun _ => !false) = gDmServerUriMap build :=
    List.filter_true _
  have hreturns := retryFor_returns_iff hretry (gDmServerUriMap build) fun _ => false
  rw [hall] at hreturns
  rw [← hreturns]
  constructor
  · rintro ⟨fuel, res, calls, h, -⟩
    obtain ⟨outs, h, -⟩ := Option.map_eq_some_iff.mp h
    exact ⟨fuel, outs, h⟩
  · rintro ⟨fuel, outs, h⟩
    refine ⟨fuel, State.success, outs, by rw [dmServerSubscribeAll, h]; rfl, fun entry hentry => ?_⟩
    obtain ⟨n, hok, hn⟩ := retryFor_tries hretry h entry
      (by rw [pending, List.drop_zero, hall]; exact hentry)
    exact hn (mem_subscribePass productKey deviceName entry hok 0)

theorem clientUnsubscribeCompletes_iff (build : UriMapBuild) (serviceNames : Nat → Int) :
    ClientUnsubscribeCompletes productKey deviceName build serviceNames ↔
      ∃ m, ((gDmClientUriMap build).filter fun entry => !notForSubdev entry).length ≤
        Nat.count (fun n => State.success ≤ serviceNames n) m := by
  have hretry := dmClientSubdevUnsubscribePass_retries productKey deviceName serviceNames
  rw [← retryFor_returns_iff hretry (gDmClientUriMap build) notForSubdev]
  constructor
  · rintro ⟨fuel, res, calls, h, -⟩
    obtain ⟨outs, h, -⟩ := Option.map_eq_some_iff.mp h
    exact ⟨fuel, outs, h⟩
  · rintro ⟨fuel, outs, h⟩
    refine ⟨fuel, State.success, outs, by rw [dmClientSubdevUnsubscribe, h]; rfl,
      fun entry hentry hsub => ?_⟩
    obtain ⟨n, hok, hn⟩ := retryFor_tries hretry h entry
      (List.mem_filter.mpr ⟨by rw [List.drop_zero]; exact hentry, by rw [hsub]; rfl⟩)
    exact hn (mem_unsubscribePass productKey deviceName entry hok 0)

/-- Both walks return, with every entry subscribed to or unsubscribed from, exactly when the
calls succeed as often as there are entries to try. -/
theorem bulk_completes_iff (build : UriMapBuild) :
    (∀ passes, ServerSubscribeCompletes productKey deviceName build passes ↔
      ∃ m, (gDmServerUriMap build).length ≤ Nat.count (fun n => (passes n).Ok) m) ∧
    (∀ serviceNames, ClientUnsubscribeCompletes productKey deviceName build serviceNames ↔
      ∃ m, ((gDmClientUriMap build).filter fun entry => !notForSubdev entry).length ≤
        Nat.count (fun n => State.success ≤ serviceNames n) m) :=
  ⟨serverSubscribeCompletes_iff productKey deviceName build,
    clientUnsubscribeCompletes_iff productKey deviceName build⟩

end

theorem count_eq_zero_of_never {p : Nat → Prop} [DecidablePred p] (h : ∀ n, ¬ p n) (m : Nat) :
    Nat.count p m = 0 := by
  induction m with
  | zero => rfl
  | succ m ih => rw [Nat.count_succ, ih, if_neg (h m)]

/-- A table that stays full, and memory that stays out, are met for ever. -/
theorem bulk_never_returns :
    ¬ ServerSubscribeCompletes .empty .empty ⟨false, false, false, true⟩
      (fun _ => ⟨State.success, State.failReturn⟩) ∧
    ¬ ServerSubscribeCompletes .empty .empty ⟨false, false, false, true⟩
      (fun _ => ⟨State.sysDependMalloc, State.success⟩) ∧
    ¬ ClientUnsubscribeCompletes .empty .empty ⟨false, false, false, true⟩
      (fun _ => State.sysDependMalloc) := by
  refine ⟨?_, ?_, ?_⟩
  · rw [serverSubscribeCompletes_iff]
    rintro ⟨m, hm⟩
    rw [count_eq_zero_of_never (fun _ => by decide)] at hm
    exact absurd hm (by decide)
  · rw [serverSubscribeCompletes_iff]
    rintro ⟨m, hm⟩
    rw [count_eq_zero_of_never (fun _ => by decide)] at hm
    exact absurd hm (by decide)
  · rw [clientUnsubscribeCompletes_iff]
    rintro ⟨m, hm⟩
    rw [count_eq_zero_of_never (fun _ => by decide)] at hm
    exact absurd hm (by decide)

end AliyunIot.Dm
