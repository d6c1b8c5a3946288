import Mathlib.Algebra.Ring.Int.Defs
import Mathlib.Algebra.Ring.Nat
import AliyunIot.Infra.CStr
import AliyunIot.Infra.State
import AliyunIot.Lib.First
import AliyunIot.Lib.Keyed
import AliyunIot.Lib.Run

/-!
# The device manager

`dm_manager.c`: the list of devices that `dm_mgr_init` starts with the local node, and
the two ways of walking it. `devList_run`: ids and names stay apart, the local node
stays first, and both walks see the devices that are left in the order of their
creation.
-/

namespace AliyunIot.Dm

open Lib

abbrev iotxProductKeyLen : Nat := 20
abbrev iotxProductSecretLen : Nat := 64
abbrev iotxDeviceNameLen : Nat := 32
abbrev iotxDeviceSecretLen : Nat := 64

abbrev iotxDmLocalNodeDevid : Int := 0

inductive IotxDmDevStatus where
  | unauthorized | authorized | registered | attached | logined | online
  deriving DecidableEq

/-- The values of the enumeration. -/
def IotxDmDevStatus.rank : IotxDmDevStatus → Nat
  | unauthorized => 0
  | authorized => 1
  | registered => 2
  | attached => 3
  | logined => 4
  | online => 5

structure DmMgrDevNode where
  devid : Int
  devType : Int
  productKey : CStr
  productSecret : CStr
  deviceName : CStr
  deviceSecret : CStr
  devStatus : IotxDmDevStatus
  deriving DecidableEq

/-- The product key and the device name. -/
def DmMgrDevNode.pkdn (node : DmMgrDevNode) : CStr × CStr := (node.productKey, node.deviceName)

instance lawfulBEqPkdn : LawfulBEq (CStr × CStr) := inferInstance

structure DmMgrCtx where
  globalDevid : Int
  devList : List DmMgrDevNode

def dmMgrSearchDevByDevid (ctx : DmMgrCtx) (devid : Int) : Option DmMgrDevNode :=
  ctx.devList.find? fun node => node.devid = devid

/-- `_dm_mgr_search_dev_by_pkdn`; equal lengths and equal bytes are equal strings. -/
def dmMgrSearchDevByPkdn (ctx : DmMgrCtx) (productKey deviceName : CStr) : Option DmMgrDevNode :=
  ctx.devList.find? fun node => node.productKey = productKey ∧ node.deviceName = deviceName

def dmMgrInsertDev (ctx : DmMgrCtx) (devid devType : Int) (productKey deviceName : CStr)
    (malloc : Bool) : Int × DmMgrCtx :=
  if productKey.strlen ≥ iotxProductKeyLen + 1 then (State.userInputPk, ctx)
  else if deviceName.strlen ≥ iotxDeviceNameLen + 1 then (State.userInputDn, ctx)
  else if (dmMgrSearchDevByDevid ctx devid).isSome then
    (State.devModelDeviceAlreadyExist, ctx)
  else if malloc = false then (State.sysDependMalloc, ctx)
  else
    (State.success,
      { ctx with
        devList := ctx.devList ++
          [⟨devid, devType, productKey, .empty, deviceName, .empty, .unauthorized⟩] })

/-- `dm_mgr_init`; `productKey` and `deviceName` are what `IOT_Ioctl` gives. There is no
context, its bytes zeroed, when it fails. -/
def dmMgrInit (mutex malloc : Bool) (devType : Int) (productKey deviceName : CStr) :
    Int × Option DmMgrCtx :=
  if mutex = false then (State.sysDependMutexCreate, none)
  else
    let (res, ctx) := dmMgrInsertDev ⟨iotxDmLocalNodeDevid + 1, []⟩ iotxDmLocalNodeDevid devType
      productKey deviceName malloc
    if res ≠ State.success then (res, none) else (State.success, some ctx)

/-- The strings of a call of `dm_mgr_device_create`, none for a null pointer. -/
structure DeviceMeta where
  productKey : Option CStr
  productSecret : Option CStr
  deviceName : Option CStr
  deviceSecret : Option CStr

/-- `ctx->global_devid++` of an `int`. -/
def nextDevid (devid : Int) : Int := (devid + 1).bmod (2 ^ 32)

/-- `dm_mgr_device_create`, with what it writes to `devid`, where one was passed. -/
def dmMgrDeviceCreate (ctx : DmMgrCtx) (devType : Int) (device : DeviceMeta) (devid malloc : Bool) :
    Int × Option Int × DmMgrCtx :=
  match device.productKey, device.productSecret, device.deviceName with
  | some productKey, some productSecret, some deviceName =>
    if productKey.strlen ≥ iotxProductKeyLen + 1 ∨
        productSecret.strlen ≥ iotxProductSecretLen + 1 ∨
        deviceName.strlen ≥ iotxDeviceNameLen + 1 then (State.userInputInvalid, none, ctx)
    else if ∃ deviceSecret ∈ device.deviceSecret,
        deviceSecret.strlen ≥ iotxDeviceSecretLen + 1 then (State.userInputInvalid, none, ctx)
    else
      match dmMgrSearchDevByPkdn ctx productKey deviceName with
      | some node =>
        (State.devModelDeviceAlreadyExist, if devid then some node.devid else none, ctx)
      | none =>
        if malloc = false then (State.sysDependMalloc, none, ctx)
        else
          (State.success, if devid then some ctx.globalDevid else none,
            { globalDevid := nextDevid ctx.globalDevid
              devList := ctx.devList ++
                [⟨ctx.globalDevid, devType, productKey, productSecret, deviceName,
                  device.deviceSecret.getD .empty, .authorized⟩] })
  | _, _, _ => (State.userInputInvalid, none, ctx)

def dmMgrDeviceDestroy (ctx : DmMgrCtx) (devid : Int) : Int × DmMgrCtx :=
  if devid < 0 then (State.userInputDevid, ctx)
  else
    match splitFirst (fun node : DmMgrDevNode => decide (node.devid = devid)) ctx.devList with
    | none => (State.devModelDeviceNotFound, ctx)
    | some (as, node, bs) =>
      if node.devid = iotxDmLocalNodeDevid then (State.devModelSubdNotDeleteable, ctx)
      else (State.success, { ctx with devList := as ++ bs })

/-- `dm_mgr_device_number`; a list has too few nodes for the `int` to overflow. -/
def dmMgrDeviceNumber (ctx : DmMgrCtx) : Int := ctx.devList.foldl (fun index _ => index + 1) 0

/-- The loop of `dm_mgr_get_devid_by_index`. -/
def devidByIndexFrom (index : Int) : Int → List DmMgrDevNode → Option Int
  | _, [] => none
  | searchIndex, node :: nodes =>
    if searchIndex = index then some node.devid
    else devidByIndexFrom index (searchIndex + 1) nodes

def dmMgrGetDevidByIndex (ctx : DmMgrCtx) (index : Int) : Int × Option Int :=
  if index < 0 then (State.userInputInvalid, none)
  else
    match devidByIndexFrom index 0 ctx.devList with
    | some devid => (State.success, some devid)
    | none => (State.devModelDeviceNotFound, none)

/-- The loop of `dm_mgr_get_next_devid`. -/
def nextDevidFrom (devid : Int) : Option DmMgrDevNode → List DmMgrDevNode → Option Int
  | _, [] => none
  | searchNode, nextNode :: nodes =>
    if ∃ node ∈ searchNode, node.devid = devid then some nextNode.devid
    else nextDevidFrom devid (if nextNode.devid = devid then some nextNode else searchNode) nodes

def dmMgrGetNextDevid (ctx : DmMgrCtx) (devid : Int) : Int × Option Int :=
  if devid < 0 then (State.userInputInvalid, none)
  else
    match nextDevidFrom devid none ctx.devList with
    | some devidNext => (State.success, some devidNext)
    | none => (State.devModelDeviceNotFound, none)

/-- The ids that asking for the next device gives, from `devid` on, in at most `fuel`
calls. -/
def nextDevids (ctx : DmMgrCtx) : (fuel : Nat) → Int → List Int
  | 0, _ => []
  | fuel + 1, devid =>
    match dmMgrGetNextDevid ctx devid with
    | (_, some devidNext) => devidNext :: nextDevids ctx fuel devidNext
    | (_, none) => []

/-! ## The walks -/

variable {node : DmMgrDevNode}

theorem nextDevidFrom_found {devid : Int} {y : DmMgrDevNode} (hnode : node.devid = devid)
    (bs : List DmMgrDevNode) : nextDevidFrom devid (some node) (y :: bs) = some y.devid := by
  rw [nextDevidFrom, if_pos ⟨node, rfl, hnode⟩]

theorem nextDevidFrom_skip {devid : Int} {as : List DmMgrDevNode}
    (has : ∀ a ∈ as, a.devid ≠ devid) (bs : List DmMgrDevNode) :
    nextDevidFrom devid none (as ++ bs) = nextDevidFrom devid none bs := by
  induction as with
  | nil => rfl
  | cons a as ih =>
    rw [List.cons_append, nextDevidFrom, if_neg (by rintro ⟨node, h, -⟩; cases h),
      if_neg (has a List.mem_cons_self), ih fun b hb => has b (List.mem_cons_of_mem _ hb)]

theorem nextDevidFrom_split {as bs : List DmMgrDevNode} (has : ∀ a ∈ as, a.devid ≠ node.devid) :
    nextDevidFrom node.devid none (as ++ node :: bs) = (bs.head?).map DmMgrDevNode.devid := by
  rw [nextDevidFrom_skip has, nextDevidFrom, if_neg (by rintro ⟨x, h, -⟩; cases h), if_pos rfl]
  cases bs with
  | nil => rfl
  | cons y bs => exact nextDevidFrom_found rfl bs

theorem devidByIndexFrom_eq (index searchIndex : Nat) (nodes : List DmMgrDevNode) :
    devidByIndexFrom (searchIndex + index : Nat) searchIndex nodes =
      (nodes.map DmMgrDevNode.devid)[index]? := by
  induction nodes generalizing index searchIndex with
  | nil => rfl
  | cons node nodes ih =>
    rw [devidByIndexFrom, List.map_cons]
    cases index with
    | zero => exact if_pos rfl
    | succ index =>
      rw [if_neg (by omega), List.getElem?_cons_succ, ← ih index (searchIndex + 1)]
      congr 1
      omega

theorem number_eq (ctx : DmMgrCtx) : dmMgrDeviceNumber ctx = ctx.devList.length := by
  have hcount (nodes : List DmMgrDevNode) (index : Int) :
      nodes.foldl (fun index _ => index + 1) index = index + nodes.length := by
    induction nodes generalizing index with
    | nil => exact (Int.add_zero index).symm
    | cons node nodes ih =>
      rw [List.foldl_cons, ih, List.length_cons]
      omega
  rw [dmMgrDeviceNumber, hcount, Int.zero_add]

structure IdsApart (ctx : DmMgrCtx) : Prop where
  distinct : DistinctKeys DmMgrDevNode.devid ctx.devList
  nonneg : ∀ node ∈ ctx.devList, 0 ≤ node.devid

/-- What a walk returns and writes, where it finds this id or none. -/
def foundDevid : Option Int → Int × Option Int
  | some devid => (State.success, some devid)
  | none => (State.devModelDeviceNotFound, none)

theorem getNextDevid_split {ctx : DmMgrCtx} (h : IdsApart ctx) {as bs : List DmMgrDevNode}
    (hlist : ctx.devList = as ++ node :: bs) :
    dmMgrGetNextDevid ctx node.devid = foundDevid ((bs.head?).map DmMgrDevNode.devid) := by
  have hnonneg : ¬ node.devid < 0 :=
    Int.not_lt.mpr (h.nonneg node (hlist ▸ List.mem_append_right _ List.mem_cons_self))
  have hsplit : ∀ a ∈ as, a.devid ≠ node.devid := fun a ha =>
    distinctKeys_split (hlist ▸ h.distinct) a (List.mem_append_left _ ha)
  rw [dmMgrGetNextDevid, if_neg hnonneg, hlist, nextDevidFrom_split hsplit]
  cases bs <;> rfl

theorem nextDevids_eq {ctx : DmMgrCtx} (h : IdsApart ctx) {as bs : List DmMgrDevNode}
    (hlist : ctx.devList = as ++ node :: bs) {fuel : Nat}
    (hfuel : bs.length ≤ fuel) : nextDevids ctx fuel node.devid = bs.map DmMgrDevNode.devid := by
  induction bs generalizing as node fuel with
  | nil =>
    cases fuel with
    | zero => rfl
    | succ fuel => rw [nextDevids, getNextDevid_split h hlist]; rfl
  | cons y bs ih =>
    cases fuel with
    | zero => cases hfuel
    | succ fuel =>
      have hlist' : ctx.devList = (as ++ [node]) ++ y :: bs := by
        rw [hlist, List.append_assoc]
        rfl
      have hrest := ih hlist' (Nat.le_of_succ_le_succ hfuel)
      rw [nextDevids, getNextDevid_split h hlist]
      exact congrArg (y.devid :: ·) hrest

theorem walks_of_apart {ctx : DmMgrCtx} (h : IdsApart ctx)
    {rest : List DmMgrDevNode} (hlist : ctx.devList = node :: rest) :
    (∀ fuel : Nat, dmMgrDeviceNumber ctx ≤ fuel + 1 →
      nextDevids ctx fuel node.devid = rest.map DmMgrDevNode.devid) ∧
    (∀ as devid bs, node.devid :: rest.map DmMgrDevNode.devid = as ++ devid :: bs →
      dmMgrGetNextDevid ctx devid = foundDevid bs.head?) ∧
    (∀ index : Nat, dmMgrGetDevidByIndex ctx index =
      foundDevid (node.devid :: rest.map DmMgrDevNode.devid)[index]?) ∧
    dmMgrDeviceNumber ctx = (rest.map DmMgrDevNode.devid).length + 1 := by
  have hnumber : dmMgrDeviceNumber ctx = rest.length + 1 := by
    rw [number_eq, hlist, List.length_cons]
    rfl
  refine ⟨fun fuel hfuel => ?_, fun as devid bs hsplit => ?_, fun index => ?_, ?_⟩
  · have hfirst : ctx.devList = [] ++ node :: rest := hlist
    exact nextDevids_eq h hfirst (by omega)
  · rw [← List.map_cons, ← hlist] at hsplit
    obtain ⟨as', rest', hlist', -, hrest⟩ := List.map_eq_append_iff.mp hsplit
    obtain ⟨node', bs', rfl, rfl, rfl⟩ := List.map_eq_cons_iff.mp hrest
    rw [getNextDevid_split h hlist', List.head?_map]
  · have hindex := devidByIndexFrom_eq index 0 ctx.devList
    rw [Nat.zero_add] at hindex
    rw [dmMgrGetDevidByIndex, if_neg (by omega)]
    rw [← List.map_cons, ← hlist, ← hindex]
    cases devidByIndexFrom index 0 ctx.devList <;> rfl
  · rw [hnumber, List.length_map]

/-! ## Runs -/

inductive MgrOp where
  | deviceCreate (devType : Int) (device : DeviceMeta) (devid malloc : Bool)
  | deviceDestroy (devid : Int)

/-- The context, and the ids given out so far. -/
structure MgrRun where
  ctx : DmMgrCtx
  created : List Int

namespace MgrRun

def next (s : MgrRun) : MgrOp → MgrRun
  | .deviceCreate devType device devid malloc =>
    let (res, _, ctx) := dmMgrDeviceCreate s.ctx devType device devid malloc
    ⟨ctx, if res = State.success then s.created ++ [s.ctx.globalDevid] else s.created⟩
  | .deviceDestroy devid => ⟨(dmMgrDeviceDestroy s.ctx devid).2, s.created⟩

end MgrRun

/-- The product key and the device name fit into their fields. -/
def DmMgrDevNode.Fits (node : DmMgrDevNode) : Prop :=
  node.productKey.strlen ≤ iotxProductKeyLen ∧ node.deviceName.strlen ≤ iotxDeviceNameLen

theorem create_cases (ctx : DmMgrCtx) (devType : Int) (device : DeviceMeta) (devid malloc : Bool) :
    let r := dmMgrDeviceCreate ctx devType device devid malloc
    (r.1 ≠ State.success ∧ r.2.2 = ctx ∧
      (r.1 = State.devModelDeviceAlreadyExist → ∃ node ∈ ctx.devList,
        device.productKey = some node.productKey ∧ device.deviceName = some node.deviceName ∧
        r.2.1 = if devid then some node.devid else none)) ∨
    ∃ node : DmMgrDevNode, node.devid = ctx.globalDevid ∧ node.Fits ∧
      (∀ other ∈ ctx.devList, other.pkdn ≠ node.pkdn) ∧
      r = (State.success, if devid then some node.devid else none,
        ⟨nextDevid ctx.globalDevid, ctx.devList ++ [node]⟩) := by
  have hinvalid : State.userInputInvalid ≠ State.success ∧
      State.userInputInvalid ≠ State.devModelDeviceAlreadyExist := by decide
  have hmalloc : State.sysDependMalloc ≠ State.success ∧
      State.sysDependMalloc ≠ State.devModelDeviceAlreadyExist := by decide
  have hexist : State.devModelDeviceAlreadyExist ≠ State.success := by decide
  unfold dmMgrDeviceCreate
  split
  · next productKey productSecret deviceName hpk _ hdn =>
    split
    · exact .inl ⟨hinvalid.1, rfl, fun h => absurd h hinvalid.2⟩
    · next hlen =>
      simp only [not_or, Nat.not_le, Nat.lt_succ_iff] at hlen
      split
      · exact .inl ⟨hinvalid.1, rfl, fun h => absurd h hinvalid.2⟩
      · split
        · next node hfound =>
          refine .inl ⟨hexist, rfl, fun _ => ⟨node, List.mem_of_find?_eq_some hfound, ?_⟩⟩
          have hsame := of_decide_eq_true (List.find?_some
            (p := fun node : DmMgrDevNode =>
              decide (node.productKey = productKey ∧ node.deviceName = deviceName)) hfound)
          exact ⟨by rw [hpk, hsame.1], by rw [hdn, hsame.2], rfl⟩
        · next hnone =>
          split
          · exact .inl ⟨hmalloc.1, rfl, fun h => absurd h hmalloc.2⟩
          · refine .inr ⟨⟨ctx.globalDevid, devType, productKey, _, deviceName, _, _⟩, rfl,
              ⟨hlen.1, hlen.2.2⟩, fun other hother hsame => ?_, rfl⟩
            refine absurd ?_ (List.find?_eq_none.mp hnone other hother)
            exact decide_eq_true (Prod.mk.inj hsame)
  · exact .inl ⟨hinvalid.1, rfl, fun h => absurd h hinvalid.2⟩

theorem destroy_cases (ctx : DmMgrCtx) (devid : Int) : let r := dmMgrDeviceDestroy ctx devid
    (r.1 ≠ State.success ∧ r.2 = ctx) ∨
    ∃ as node bs, ctx.devList = as ++ node :: bs ∧ node.devid ≠ iotxDmLocalNodeDevid ∧
      r = (State.success, { ctx with devList := as ++ bs }) := by
  unfold dmMgrDeviceDestroy
  split
  · exact .inl ⟨nofun, rfl⟩
  · split
    · exact .inl ⟨nofun, rfl⟩
    · next as node bs hsome =>
      obtain ⟨hlist, -, -⟩ := splitFirst_eq_some_iff.mp hsome
      split
      · exact .inl ⟨nofun, rfl⟩
      · next hlocal => exact .inr ⟨as, node, bs, hlist, hlocal, rfl⟩

/-- The `k`-th id given out. -/
def devidAt (k : Nat) : Int := ((k : Int) + 1).bmod (2 ^ 32)

namespace MgrRun

/-- The ids given out count up; the list is the local node and then devices created, in
that order, with names apart. -/
structure Managed (s : MgrRun) : Prop where
  created : s.created = (List.range s.created.length).map devidAt
  globalDevid : s.ctx.globalDevid = devidAt s.created.length
  devList : ∃ node rest, s.ctx.devList = node :: rest ∧ node.devid = iotxDmLocalNodeDevid ∧
    (rest.map DmMgrDevNode.devid).Sublist s.created
  pkdn : DistinctKeys DmMgrDevNode.pkdn s.ctx.devList
  fits : ∀ node ∈ s.ctx.devList, node.Fits

theorem nextDevid_devidAt (k : Nat) : nextDevid (devidAt k) = devidAt (k + 1) := by
  unfold nextDevid devidAt
  rw [Int.bmod_add_bmod]
  rfl

variable {s : MgrRun}

theorem managed_next (h : s.Managed) (op : MgrOp) : (s.next op).Managed := by
  obtain ⟨node, rest, hlist, hlocal, hsub⟩ := h.devList
  cases op with
  | deviceCreate devType device devid malloc =>
    unfold next
    rcases create_cases s.ctx devType device devid malloc with
      ⟨hres, hctx, -⟩ | ⟨new, hnew, hfits, hpkdn, heq⟩
    · dsimp only
      rw [if_neg hres, hctx]
      exact h
    · simp only [heq, if_true]
      refine ⟨?_, ?_, ⟨node, rest ++ [new], ?_, hlocal, ?_⟩, ?_, fun other hother => ?_⟩
      · rw [List.length_append, List.length_singleton, List.range_succ, List.map_append,
          ← h.created, h.globalDevid]
        rfl
      · rw [h.globalDevid, nextDevid_devidAt, List.length_append, List.length_singleton]
      · rw [hlist, List.cons_append]
      · rw [List.map_append, List.map_singleton, hnew]
        exact hsub.append (List.Sublist.refl _)
      · exact distinctKeys_concat h.pkdn hpkdn
      · rcases List.mem_append.mp hother with hother | hother
        · exact h.fits other hother
        · exact List.mem_singleton.mp hother ▸ hfits
  | deviceDestroy devid =>
    unfold next
    rcases destroy_cases s.ctx devid with ⟨-, hctx⟩ | ⟨as, gone, bs, hsplit, hgone, heq⟩
    · dsimp only
      rw [hctx]
      exact h
    · dsimp only
      rw [heq]
      have hfewer : (as ++ bs).Sublist s.ctx.devList := by
        rw [hsplit]
        exact (List.Sublist.refl as).append (List.sublist_cons_self gone bs)
      cases as with
      | nil =>
        rw [hlist] at hsplit
        cases hsplit
        exact absurd hlocal hgone
      | cons a as =>
        rw [hlist] at hsplit
        obtain ⟨rfl, rfl⟩ := List.cons.inj hsplit
        refine ⟨h.created, h.globalDevid, ⟨node, as ++ bs, rfl, hlocal, ?_⟩, ?_,
          fun other hother => h.fits other (hfewer.subset hother)⟩
        · refine List.Sublist.trans (List.Sublist.map _ ?_) hsub
          exact (List.Sublist.refl as).append (List.sublist_cons_self gone bs)
        · exact distinctKeys_sublist hfewer h.pkdn

theorem insertDev_cases (ctx : DmMgrCtx) (devid devType : Int) (productKey deviceName : CStr)
    (malloc : Bool) : let r := dmMgrInsertDev ctx devid devType productKey deviceName malloc
    r.1 ≠ State.success ∨
    ∃ node : DmMgrDevNode, node.devid = devid ∧ node.Fits ∧
      r = (State.success, ⟨ctx.globalDevid, ctx.devList ++ [node]⟩) := by
  unfold dmMgrInsertDev
  split
  · exact .inl nofun
  · next hpk =>
    split
    · exact .inl nofun
    · next hdn =>
      split
      · exact .inl nofun
      · split
        · exact .inl nofun
        · exact .inr ⟨⟨devid, devType, productKey, .empty, deviceName, .empty, .unauthorized⟩, rfl,
            ⟨Nat.lt_succ_iff.mp (Nat.not_le.mp hpk), Nat.lt_succ_iff.mp (Nat.not_le.mp hdn)⟩, rfl⟩

theorem init_cases {mutex malloc : Bool} {devType : Int} {productKey deviceName : CStr}
    {ctx : DmMgrCtx}
    (h : dmMgrInit mutex malloc devType productKey deviceName = (State.success, some ctx)) :
    ∃ node : DmMgrDevNode, node.devid = iotxDmLocalNodeDevid ∧ node.Fits ∧
      ctx = ⟨1, [node]⟩ := by
  unfold dmMgrInit at h
  split at h
  · cases h
  · rcases insertDev_cases ⟨iotxDmLocalNodeDevid + 1, []⟩ iotxDmLocalNodeDevid devType productKey
      deviceName malloc with hres | ⟨node, hnode, hfits, heq⟩
    · dsimp only at h
      rw [if_pos hres] at h
      exact absurd (congrArg Prod.fst h) hres
    · rw [heq] at h
      dsimp only at h
      rw [if_neg (fun hne => hne rfl)] at h
      cases h
      exact ⟨node, hnode, hfits, rfl⟩

/-! ### Fewer than 2^31 devices -/

theorem devidAt_eq {k : Nat} (hk : k + 1 < 2 ^ 31) : devidAt k = k + 1 := by
  apply Int.bmod_eq_of_le <;> omega

theorem managed_init {node : DmMgrDevNode} (hnode : node.devid = iotxDmLocalNodeDevid)
    (hfits : node.Fits) : Managed ⟨⟨1, [node]⟩, []⟩ := by
  refine ⟨rfl, ?_, ⟨node, [], rfl, hnode, List.Sublist.refl _⟩, List.nodup_singleton _,
    fun other hother => List.mem_singleton.mp hother ▸ hfits⟩
  exact (devidAt_eq (k := 0) (by decide)).symm

theorem created_nodup (h : s.Managed) (hfew : s.created.length < 2 ^ 31) :
    (iotxDmLocalNodeDevid :: s.created).Nodup ∧ ∀ devid ∈ s.created, 0 < devid := by
  have hlt : ∀ devid ∈ s.created, ∃ k < s.created.length, devid = (k : Int) + 1 := by
    intro devid hdevid
    rw [h.created] at hdevid
    obtain ⟨k, hk, rfl⟩ := List.mem_map.mp hdevid
    have hk := List.mem_range.mp hk
    exact ⟨k, hk, devidAt_eq (by omega)⟩
  have hpos : ∀ devid ∈ s.created, 0 < devid := by
    intro devid hdevid
    obtain ⟨k, -, rfl⟩ := hlt devid hdevid
    omega
  refine ⟨List.nodup_cons.mpr ⟨fun hzero => absurd (hpos _ hzero) (by decide), ?_⟩, hpos⟩
  rw [h.created]
  refine List.Nodup.map_on (fun j hj k hk hjk => ?_) List.nodup_range
  have hj := List.mem_range.mp hj
  have hk := List.mem_range.mp hk
  rw [devidAt_eq (by omega), devidAt_eq (by omega)] at hjk
  omega

/-- The devices created that are still in the list, in the order of their creation. -/
def left (s : MgrRun) : List Int :=
  s.created.filter fun devid => decide (devid ∈ s.ctx.devList.map DmMgrDevNode.devid)

theorem apart_of_managed (h : s.Managed) (hfew : s.created.length < 2 ^ 31) :
    IdsApart s.ctx ∧ ∃ node rest, s.ctx.devList = node :: rest ∧
      node.devid = iotxDmLocalNodeDevid ∧ rest.map DmMgrDevNode.devid = s.left := by
  obtain ⟨node, rest, hlist, hlocal, hsub⟩ := h.devList
  obtain ⟨hnodup, hpos⟩ := created_nodup h hfew
  have hids : s.ctx.devList.map DmMgrDevNode.devid =
      iotxDmLocalNodeDevid :: rest.map DmMgrDevNode.devid := by
    rw [hlist, List.map_cons, hlocal]
  refine ⟨⟨?_, fun other hother => ?_⟩, node, rest, hlist, hlocal, ?_⟩
  · show (s.ctx.devList.map DmMgrDevNode.devid).Nodup
    rw [hids]
    exact hnodup.sublist (hsub.cons_cons _)
  · have hmem : other.devid ∈ s.ctx.devList.map DmMgrDevNode.devid := List.mem_map_of_mem hother
    rw [hids] at hmem
    rcases List.mem_cons.mp hmem with hzero | hmem
    · exact Int.le_of_eq hzero.symm
    · exact Int.le_of_lt (hpos _ (hsub.subset hmem))
  · unfold left
    rw [hids]
    have hsame : ∀ devid ∈ s.created,
        decide (devid ∈ iotxDmLocalNodeDevid :: rest.map DmMgrDevNode.devid) =
          decide (devid ∈ rest.map DmMgrDevNode.devid) := by
      intro devid hdevid
      have hne : devid ≠ iotxDmLocalNodeDevid := Int.ne_of_gt (hpos devid hdevid)
      rw [decide_eq_decide, List.mem_cons, or_iff_right hne]
    rw [List.filter_congr hsame, filter_mem_of_sublist hsub (List.nodup_cons.mp hnodup).2]

/-- The ids and the names are apart, and no id was given out twice. -/
structure Apart (s : MgrRun) : Prop where
  devid : DistinctKeys DmMgrDevNode.devid s.ctx.devList
  pkdn : DistinctKeys DmMgrDevNode.pkdn s.ctx.devList
  never_reused : (iotxDmLocalNodeDevid :: s.created).Nodup
  given_out : ∀ node ∈ s.ctx.devList, node.devid ∈ iotxDmLocalNodeDevid :: s.created

/-- Asked for the next device again and again, from the local node on, or for the device
at every index, the list gives the devices left in the order of their creation. -/
structure WalkedAlike (s : MgrRun) : Prop where
  local_node : ∃ rest, s.ctx.devList.map DmMgrDevNode.devid = iotxDmLocalNodeDevid :: rest
  next_devid : ∀ fuel : Nat, dmMgrDeviceNumber s.ctx ≤ fuel + 1 →
    nextDevids s.ctx fuel iotxDmLocalNodeDevid = s.left
  next_found : ∀ as devid bs, iotxDmLocalNodeDevid :: s.left = as ++ devid :: bs →
    dmMgrGetNextDevid s.ctx devid = foundDevid bs.head?
  by_index : ∀ index : Nat, dmMgrGetDevidByIndex s.ctx index =
    foundDevid (iotxDmLocalNodeDevid :: s.left)[index]?
  number : dmMgrDeviceNumber s.ctx = s.left.length + 1

/-- A call that fails leaves the context as it was, and to create a pair that is listed fails
and tells its id. -/
structure FailsCleanly (s : MgrRun) : Prop where
  create : ∀ devType device devid malloc,
    let r := dmMgrDeviceCreate s.ctx devType device devid malloc
    r.1 ≠ State.success → r.2.2 = s.ctx
  exists_told : ∀ devType device malloc,
    let r := dmMgrDeviceCreate s.ctx devType device true malloc
    r.1 = State.devModelDeviceAlreadyExist → ∃ node ∈ s.ctx.devList,
      (device.productKey, device.deviceName) = (some node.productKey, some node.deviceName) ∧
      r.2.1 = some node.devid
  listed_told : ∀ devType device productSecret devid malloc, ∀ node ∈ s.ctx.devList,
    device.productKey = some node.productKey → device.deviceName = some node.deviceName →
    device.productSecret = some productSecret → productSecret.strlen ≤ iotxProductSecretLen →
    (∀ deviceSecret ∈ device.deviceSecret, deviceSecret.strlen ≤ iotxDeviceSecretLen) →
    dmMgrDeviceCreate s.ctx devType device devid malloc =
      (State.devModelDeviceAlreadyExist, if devid then some node.devid else none, s.ctx)
  destroy : ∀ devid, let r := dmMgrDeviceDestroy s.ctx devid
    r.1 ≠ State.success → r.2 = s.ctx

theorem apart (h : s.Managed) (hfew : s.created.length < 2 ^ 31) : s.Apart := by
  obtain ⟨hapart, node, rest, hlist, hlocal, hleft⟩ := apart_of_managed h hfew
  refine ⟨hapart.distinct, h.pkdn, (created_nodup h hfew).1, fun other hother => ?_⟩
  rw [hlist] at hother
  rcases List.mem_cons.mp hother with rfl | hother
  · exact hlocal ▸ List.mem_cons_self
  · have hmem : other.devid ∈ s.left := hleft ▸ List.mem_map_of_mem hother
    exact List.mem_cons_of_mem _ (List.mem_of_mem_filter hmem)

theorem walkedAlike (h : s.Managed) (hfew : s.created.length < 2 ^ 31) : s.WalkedAlike := by
  obtain ⟨hapart, node, rest, hlist, hlocal, hleft⟩ := apart_of_managed h hfew
  obtain ⟨hnext, hfound, hindex, hnumber⟩ := walks_of_apart hapart hlist
  rw [hlocal, hleft] at hnext hfound hindex
  refine ⟨⟨rest.map DmMgrDevNode.devid, ?_⟩, hnext, hfound, hindex, ?_⟩
  · rw [hlist, List.map_cons, hlocal]
  · rw [hnumber, hleft]

theorem searchByPkdn_of_mem (h : s.Managed) {node : DmMgrDevNode} (hmem : node ∈ s.ctx.devList) :
    dmMgrSearchDevByPkdn s.ctx node.productKey node.deviceName = some node := by
  cases hfound : dmMgrSearchDevByPkdn s.ctx node.productKey node.deviceName with
  | none => exact absurd (decide_eq_true ⟨rfl, rfl⟩) (List.find?_eq_none.mp hfound node hmem)
  | some other =>
    have hsame : other.productKey = node.productKey ∧ other.deviceName = node.deviceName := by
      simpa using List.find?_some hfound
    exact congrArg some (List.inj_on_of_nodup_map h.pkdn (List.mem_of_find?_eq_some hfound) hmem
      (Prod.ext hsame.1 hsame.2))

theorem failsCleanly (h : s.Managed) : s.FailsCleanly := by
  refine ⟨fun devType device devid malloc hres => ?_, fun devType device malloc hres => ?_,
    fun devType device productSecret devid malloc node hmem hpk hdn hps hpslen hds => ?_,
    fun devid hres => ?_⟩
  · rcases create_cases s.ctx devType device devid malloc with ⟨-, hctx, -⟩ | ⟨_, -, -, -, heq⟩
    · exact hctx
    · exact absurd (congrArg Prod.fst heq) hres
  · rcases create_cases s.ctx devType device true malloc with ⟨-, -, htold⟩ | ⟨_, -, -, -, heq⟩
    · obtain ⟨node, hmem, hpk, hdn, hout⟩ := htold hres
      exact ⟨node, hmem, by rw [hpk, hdn], hout⟩
    · rw [heq] at hres
      cases hres
  · obtain ⟨hpklen, hdnlen⟩ := h.fits node hmem
    have hsecret : ¬ ∃ deviceSecret ∈ device.deviceSecret,
        deviceSecret.strlen ≥ iotxDeviceSecretLen + 1 := by
      rintro ⟨deviceSecret, hsome, hlen⟩
      exact Nat.not_le.mpr hlen (hds deviceSecret hsome)
    unfold dmMgrDeviceCreate
    rw [hpk, hdn, hps]
    dsimp only
    rw [if_neg (by omega), if_neg hsecret, searchByPkdn_of_mem h hmem]
  · rcases destroy_cases s.ctx devid with ⟨-, hctx⟩ | ⟨_, _, _, -, -, heq⟩
    · exact hctx
    · exact absurd (congrArg Prod.fst heq) hres

theorem devList_run {mutex malloc : Bool} {devType : Int} {productKey deviceName : CStr}
    {ctx : DmMgrCtx}
    (hinit : dmMgrInit mutex malloc devType productKey deviceName = (State.success, some ctx))
    (ops : List MgrOp) (hfew : (run next ⟨ctx, []⟩ ops).created.length < 2 ^ 31) :
    let s := run next ⟨ctx, []⟩ ops
    s.Apart ∧ s.WalkedAlike ∧ s.FailsCleanly := by
  obtain ⟨node, hnode, hfits, rfl⟩ := init_cases hinit
  have hmanaged : (run next ⟨⟨1, [node]⟩, []⟩ ops).Managed :=
    run_invariant (I := Managed) (fun _ op h => managed_next h op)
      (managed_init hnode hfits) ops
  exact ⟨apart hmanaged hfew, walkedAlike hmanaged hfew, failsCleanly hmanaged⟩

def named (name : CStr) : DeviceMeta := ⟨some .empty, some .empty, some name, none⟩

/-- Two devices created, the first destroyed, and its name taken again. -/
def reusedNameOps : List MgrOp :=
  [.deviceCreate 1 (named (.ofString "a" (by decide))) true true,
    .deviceCreate 1 (named (.ofString "b" (by decide))) true true,
    .deviceDestroy 1, .deviceCreate 1 (named (.ofString "a" (by decide))) true true]

/-- The devices left, the walks over them, and the answer to a second `b`. -/
theorem devList_run_reused :
    let s := run next ⟨⟨1, [⟨0, 0, .empty, .empty, .empty, .empty, .unauthorized⟩]⟩, []⟩
      reusedNameOps
    s.left = [2, 3] ∧ nextDevids s.ctx 3 0 = [2, 3] ∧
    dmMgrGetNextDevid s.ctx 2 = (State.success, some 3) ∧
    dmMgrGetDevidByIndex s.ctx 3 = (State.devModelDeviceNotFound, none) ∧
    dmMgrDeviceCreate s.ctx 1 (named (.ofString "b" (by decide))) true true =
      (State.devModelDeviceAlreadyExist, some 2, s.ctx) := by
  intro s
  have hleft : s.left = [2, 3] := by decide
  obtain ⟨-, hwalk, hfails⟩ :=
    devList_run (show dmMgrInit true true 0 .empty .empty = _ from rfl) reusedNameOps (by decide)
  refine ⟨hleft, (hwalk.next_devid 3 (by decide)).trans hleft, ?_, ?_, ?_⟩
  · exact hwalk.next_found [0] 2 [3] (congrArg (0 :: ·) hleft)
  · exact (hwalk.by_index 3).trans (congrArg (fun ids => foundDevid (0 :: ids)[3]?) hleft)
  · exact hfails.listed_told 1 (named (.ofString "b" (by decide))) .empty true true
      ⟨2, 1, .empty, .empty, .ofString "b" (by decide), .empty, .authorized⟩ (by decide) rfl rfl rfl
      (by decide) nofun

end MgrRun

end AliyunIot.Dm
