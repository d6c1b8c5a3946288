import AliyunIot.Dm.Manager

/-!
# Fields of a device

`dm_mgr_set_dev_status` and `dm_mgr_set_device_secret`: both find the device by its id, and
change one field of it. `setDev_of_mem`: as the ids of the devices are apart, this device
and no other.
-/

namespace AliyunIot.Dm

open Lib

abbrev iotxDmErrCodeSuccess : Int := 200

/-- What both functions do with the device they find. -/
def dmMgrSetDev (ctx : DmMgrCtx) (devid : Int) (f : DmMgrDevNode → DmMgrDevNode) :
    Int × DmMgrCtx :=
  match splitFirst (fun node : DmMgrDevNode => decide (node.devid = devid)) ctx.devList with
  | none => (State.devModelDeviceNotFound, ctx)
  | some (as, node, bs) => (State.success, { ctx with devList := as ++ f node :: bs })

def dmMgrSetDevStatus (ctx : DmMgrCtx) (devid : Int) (status : IotxDmDevStatus) :
    Int × DmMgrCtx :=
  if devid < 0 then (State.userInputInvalid, ctx)
  else dmMgrSetDev ctx devid fun node => { node with devStatus := status }

def dmMgrSetDeviceSecret (ctx : DmMgrCtx) (devid : Int) (deviceSecret : CStr) : Int × DmMgrCtx :=
  if devid < 0 ∨ deviceSecret.strlen ≥ iotxDeviceSecretLen + 1 then (State.userInputInvalid, ctx)
  else dmMgrSetDev ctx devid fun node => { node with deviceSecret := deviceSecret }

def DmMgrCtx.change (ctx : DmMgrCtx) (pkdn : CStr × CStr) (f : DmMgrDevNode → DmMgrDevNode) :
    DmMgrCtx :=
  { ctx with devList := ctx.devList.map fun node => if node.pkdn = pkdn then f node else node }

/-- The names belong to a device. -/
def Known (ctx : DmMgrCtx) (pkdn : CStr × CStr) : Prop :=
  pkdn ∈ ctx.devList.map DmMgrDevNode.pkdn

/-- Ids and names tell devices apart. -/
structure Apart (ctx : DmMgrCtx) : Prop where
  ids : IdsApart ctx
  pkdn : DistinctKeys DmMgrDevNode.pkdn ctx.devList

variable {ctx : DmMgrCtx} {pkdn : CStr × CStr}

theorem setDev_of_mem (h : Apart ctx) {node : DmMgrDevNode} (hnode : node ∈ ctx.devList)
    (f : DmMgrDevNode → DmMgrDevNode) :
    dmMgrSetDev ctx node.devid f = (State.success, ctx.change node.pkdn f) := by
  obtain ⟨as, bs, hlist⟩ := List.append_of_mem hnode
  have hids := distinctKeys_split (hlist ▸ h.ids.distinct)
  have hpkdn := distinctKeys_split (hlist ▸ h.pkdn)
  have hkeep : ∀ l : List DmMgrDevNode, (∀ n ∈ l, n.pkdn ≠ node.pkdn) →
      (l.map fun n => if n.pkdn = node.pkdn then f n else n) = l := fun l hl => by
    refine (List.map_congr_left fun n hn => if_neg (hl n hn)).trans (List.map_id'' (fun _ => rfl) l)
  have hsplit : splitFirst (fun n : DmMgrDevNode => decide (n.devid = node.devid)) ctx.devList =
      some (as, node, bs) := splitFirst_eq_some_iff.mpr
    ⟨hlist, by simp, fun a ha => by simpa using hids a (List.mem_append_left _ ha)⟩
  unfold dmMgrSetDev DmMgrCtx.change
  rw [hsplit, hlist, List.map_append, List.map_cons, if_pos rfl,
    hkeep as fun n hn => hpkdn n (List.mem_append_left _ hn),
    hkeep bs fun n hn => hpkdn n (List.mem_append_right _ hn)]

theorem setDevStatus_of_mem (h : Apart ctx) {node : DmMgrDevNode} (hnode : node ∈ ctx.devList)
    (status : IotxDmDevStatus) :
    dmMgrSetDevStatus ctx node.devid status =
      (State.success, ctx.change node.pkdn fun n => { n with devStatus := status }) := by
  unfold dmMgrSetDevStatus
  rw [if_neg (Int.not_lt.mpr (h.ids.nonneg node hnode)), setDev_of_mem h hnode]

theorem setDeviceSecret_of_mem (h : Apart ctx) {node : DmMgrDevNode} (hnode : node ∈ ctx.devList)
    {deviceSecret : CStr} (hlen : deviceSecret.strlen ≤ iotxDeviceSecretLen) :
    dmMgrSetDeviceSecret ctx node.devid deviceSecret =
      (State.success, ctx.change node.pkdn fun n => { n with deviceSecret := deviceSecret }) := by
  have hnonneg := h.ids.nonneg node hnode
  unfold dmMgrSetDeviceSecret
  rw [if_neg (by omega), setDev_of_mem h hnode]

theorem searchDevByPkdn_eq_some_iff (h : Apart ctx) {pk dn : CStr} {node : DmMgrDevNode} :
    dmMgrSearchDevByPkdn ctx pk dn = some node ↔ node ∈ ctx.devList ∧ node.pkdn = (pk, dn) := by
  constructor
  · intro hfind
    have hsame := List.find?_some hfind
    simp only [decide_eq_true_eq] at hsame
    exact ⟨List.mem_of_find?_eq_some hfind, Prod.ext hsame.1 hsame.2⟩
  · rintro ⟨hnode, hpkdn⟩
    obtain ⟨rfl, rfl⟩ := Prod.mk.inj hpkdn
    cases hfind : dmMgrSearchDevByPkdn ctx node.productKey node.deviceName with
    | none =>
      have hnone := List.find?_eq_none.mp hfind node hnode
      simp at hnone
    | some other =>
      have hsame := List.find?_some hfind
      simp only [decide_eq_true_eq] at hsame
      have heq := List.inj_on_of_nodup_map h.pkdn (List.mem_of_find?_eq_some hfind) hnode
        (Prod.ext hsame.1 hsame.2)
      rw [heq]

theorem searchDevByPkdn_eq_none_iff {pk dn : CStr} :
    dmMgrSearchDevByPkdn ctx pk dn = none ↔ ∀ node ∈ ctx.devList, node.pkdn ≠ (pk, dn) := by
  unfold dmMgrSearchDevByPkdn
  rw [List.find?_eq_none]
  refine forall₂_congr fun node _ => ?_
  simp [DmMgrDevNode.pkdn]

theorem Apart.of_fields {ctx' : DmMgrCtx} (h : Apart ctx)
    (hids : ctx'.devList.map DmMgrDevNode.devid = ctx.devList.map DmMgrDevNode.devid)
    (hnames : ctx'.devList.map DmMgrDevNode.pkdn = ctx.devList.map DmMgrDevNode.pkdn) :
    Apart ctx' := by
  refine ⟨⟨?_, fun node hnode => ?_⟩, ?_⟩
  · unfold DistinctKeys
    rw [hids]
    exact h.ids.distinct
  · have hmem : node.devid ∈ ctx.devList.map DmMgrDevNode.devid := by
      rw [← hids]
      exact List.mem_map_of_mem hnode
    obtain ⟨old, hold, heq⟩ := List.mem_map.mp hmem
    exact heq ▸ h.ids.nonneg old hold
  · unfold DistinctKeys
    rw [hnames]
    exact h.pkdn

theorem map_change {β : Type} {key : DmMgrDevNode → β} {f : DmMgrDevNode → DmMgrDevNode}
    (hkey : ∀ node, key (f node) = key node) (ctx : DmMgrCtx) (pkdn : CStr × CStr) :
    (ctx.change pkdn f).devList.map key = ctx.devList.map key := by
  rw [DmMgrCtx.change, List.map_map]
  refine List.map_congr_left fun node _ => ?_
  rw [Function.comp_apply]
  split
  · exact hkey node
  · rfl

theorem Apart.change (h : Apart ctx) {f : DmMgrDevNode → DmMgrDevNode}
    (hid : ∀ node, (f node).devid = node.devid) (hname : ∀ node, (f node).pkdn = node.pkdn) :
    Apart (ctx.change pkdn f) :=
  h.of_fields (map_change hid ctx pkdn) (map_change hname ctx pkdn)

theorem change_of_unknown (h : ¬ Known ctx pkdn)
    (f : DmMgrDevNode → DmMgrDevNode) : ctx.change pkdn f = ctx := by
  have hkeep : (ctx.devList.map fun n => if n.pkdn = pkdn then f n else n) = ctx.devList :=
    (List.map_congr_left fun n hn => if_neg fun heq : n.pkdn = pkdn =>
      h (List.mem_map.mpr ⟨n, hn, heq⟩)).trans (List.map_id'' (fun _ => rfl) _)
  rw [DmMgrCtx.change, hkeep]

theorem change_change (ctx : DmMgrCtx) (f g : DmMgrDevNode → DmMgrDevNode)
    (hname : ∀ node, (f node).pkdn = node.pkdn) :
    (ctx.change pkdn f).change pkdn g = ctx.change pkdn fun n => g (f n) := by
  unfold DmMgrCtx.change
  rw [List.map_map]
  congr 1
  refine List.map_congr_left fun n _ => ?_
  rw [Function.comp_apply]
  by_cases hn : n.pkdn = pkdn
  · rw [if_pos hn, if_pos ((hname n).trans hn), if_pos hn]
  · rw [if_neg hn, if_neg hn, if_neg hn]

theorem search_of_unknown (h : ¬ Known ctx pkdn) : dmMgrSearchDevByPkdn ctx pkdn.1 pkdn.2 = none :=
  searchDevByPkdn_eq_none_iff.mpr fun node hnode heq => h (List.mem_map.mpr ⟨node, hnode, heq⟩)

theorem search_of_known (hap : Apart ctx) (h : Known ctx pkdn) :
    ∃ node ∈ ctx.devList, node.pkdn = pkdn ∧
      dmMgrSearchDevByPkdn ctx pkdn.1 pkdn.2 = some node := by
  obtain ⟨node, hnode, heq⟩ := List.mem_map.mp h
  exact ⟨node, hnode, heq, (searchDevByPkdn_eq_some_iff hap).mpr ⟨hnode, heq⟩⟩

theorem known_change {f : DmMgrDevNode → DmMgrDevNode} {p : CStr × CStr}
    (hname : ∀ node, (f node).pkdn = node.pkdn) (q : CStr × CStr) :
    Known (ctx.change p f) q ↔ Known ctx q := by
  rw [Known, Known, map_change hname]

end AliyunIot.Dm
