import AliyunIot.Dm.Register

/-!
# What a registration reply does to the devices

`RegisterKept` is what a reply has to do: it leaves the arrays alone, gives the devices
that it lists their secrets, and registers only what it lists as registered.
`registerKept_iff` says when it does: the strings fit their arrays, no secret is followed by
a shorter one of a known device, and no failure lists a known device that is not registered.
-/

namespace AliyunIot.Dm

open Lib

/-- The device has the secret it is listed with last, or its own. -/
structure SecretKept (listed : List Listing) (node node' : DmMgrDevNode) : Prop where
  unlisted : (∀ l ∈ listed, l.pkdn ≠ node.pkdn) → node'.deviceSecret = node.deviceSecret
  last : ∀ pre l post, listed = pre ++ l :: post → l.pkdn = node.pkdn →
    (∀ later ∈ post, later.pkdn ≠ node.pkdn) → node'.deviceSecret = l.deviceSecret

/-- What becomes of a device. -/
structure NodeKept (response : ResponsePayload) (data : RegisterData)
    (node node' : DmMgrDevNode) : Prop where
  devid : node'.devid = node.devid
  pkdn : node'.pkdn = node.pkdn
  secret : SecretKept data.registered node node'
  status : node'.devStatus = node.devStatus ∨
    (node'.devStatus = .registered ∧ response.code = iotxDmErrCodeSuccess ∧
      ∃ l ∈ data.registered, l.pkdn = node.pkdn)

/-- The reply is handled inside the arrays, and every device is kept. -/
def RegisterKept (response : ResponsePayload) (data : RegisterData) (ctx : DmMgrCtx) : Prop :=
  ∃ res s, registerReply response data ctx = some (res, s) ∧
    List.Forall₂ (NodeKept response data) ctx.devList s.ctx.devList

def NamesFit (pkdn : CStr × CStr) : Prop :=
  pkdn.1.strlen ≤ iotxProductKeyLen ∧ pkdn.2.strlen ≤ iotxDeviceNameLen

/-- The id fits `temp_id`, with a terminator. -/
def IdFits (response : ResponsePayload) : Prop := response.id.strlen < dmUtilsUint32Strlen

/-- The strings of a listed device fit; a secret that needs no terminator may do without. -/
def Listing.Fits (ctx : DmMgrCtx) (response : ResponsePayload) (l : Listing) : Prop :=
  NamesFit l.pkdn ∧ l.deviceSecret.strlen ≤ iotxDeviceSecretLen + 1 ∧
    (Known ctx l.pkdn → l.deviceSecret.strlen ≤ iotxDeviceSecretLen ∧ IdFits response)

def FailureFits (ctx : DmMgrCtx) (response : ResponsePayload) (pkdn : CStr × CStr) : Prop :=
  NamesFit pkdn ∧ (Known ctx pkdn → IdFits response)

/-- The condition on a reply. -/
structure RegisterCareful (response : ResponsePayload) (data : RegisterData) (ctx : DmMgrCtx) :
    Prop where
  id : (∃ items, data = .subRegister items) → response.code ≠ iotxDmErrCodeSuccess →
    IdFits response
  registered : ∀ l ∈ data.registered, l.Fits ctx response
  failed : ∀ pkdn ∈ data.failed, FailureFits ctx response pkdn
  tails : ∀ pre l post, data.registered = pre ++ l :: post → Known ctx l.pkdn →
    (∀ later ∈ post, later.pkdn ≠ l.pkdn) →
    ∀ earlier ∈ pre, earlier.deviceSecret.strlen ≤ l.deviceSecret.strlen
  failures : response.code = iotxDmErrCodeSuccess → ∀ node ∈ ctx.devList,
    node.pkdn ∈ data.failed → node.devStatus = .registered ∨
      ∃ l ∈ data.registered, l.pkdn = node.pkdn

/-! ## One item -/

section
variable {response : ResponsePayload} {s : Registering} {pkdn : CStr × CStr}

theorem copyNames_of_fits (h : NamesFit pkdn) : copyNames pkdn.1 pkdn.2 = some pkdn := by
  unfold copyNames
  rw [CharBuf.text_memcpy_zeros (Nat.lt_succ_of_le h.1),
    CharBuf.text_memcpy_zeros (Nat.lt_succ_of_le h.2)]
  rfl

theorem copyNames_of_not_fits (h : ¬ NamesFit pkdn) : copyNames pkdn.1 pkdn.2 = none := by
  unfold copyNames
  by_cases hpk : pkdn.1.strlen ≤ iotxProductKeyLen
  · have hdn : iotxDeviceNameLen + 1 ≤ pkdn.2.strlen := Nat.lt_of_not_le fun hdn => h ⟨hpk, hdn⟩
    rw [CharBuf.text_memcpy_zeros (Nat.lt_succ_of_le hpk), CharBuf.text_memcpy_zeros_eq_none hdn]
    rfl
  · rw [CharBuf.text_memcpy_zeros_eq_none (Nat.lt_of_not_le hpk)]
    rfl

theorem send_of_fits (h : IdFits response) (code devid : Int) :
    s.send response code devid =
      some { s with sent := s.sent ++ [⟨response.id, code, devid⟩] } := by
  have htext := CharBuf.text_memcpy_zeros h
  obtain ⟨buf, hbuf, hid⟩ := Option.bind_eq_some_iff.mp htext
  simp only [Registering.send, hbuf, hid, Option.bind_eq_bind, Option.bind_some]

theorem send_of_not_fits (h : ¬ IdFits response) (code devid : Int) :
    s.send response code devid = none := by
  have htext := CharBuf.text_memcpy_zeros_eq_none (Nat.not_lt.mp h)
  unfold Registering.send
  cases hbuf : (CharBuf.zeros dmUtilsUint32Strlen).memcpy response.id with
  | none => rfl
  | some buf =>
    rw [hbuf, Option.bind_some] at htext
    simp [htext]

/-- The status that a listed device gets. -/
def statusAfter (response : ResponsePayload) (status : IotxDmDevStatus) : IotxDmDevStatus :=
  if response.code = iotxDmErrCodeSuccess then .registered else status

def listDevice (response : ResponsePayload) (node : DmMgrDevNode) : DmMgrDevNode :=
  { node with devStatus := statusAfter response node.devStatus }

theorem updateStateMachine_of_mem {ctx : DmMgrCtx} (h : Apart ctx) {node : DmMgrDevNode}
    (hnode : node ∈ ctx.devList) :
    updateStateMachine response ctx node.devid =
      ctx.change node.pkdn (listDevice response) := by
  unfold updateStateMachine listDevice statusAfter
  split
  · rw [setDevStatus_of_mem h hnode]
  · unfold DmMgrCtx.change
    simp

/-- What an item does to the device that it lists, when the array then holds `buf`. -/
def Listing.set (response : ResponsePayload) (buf : CharBuf) (node : DmMgrDevNode) :
    DmMgrDevNode :=
  { listDevice response node with deviceSecret := buf.string }

theorem Listing.set_pkdn (response : ResponsePayload) (buf : CharBuf) (node : DmMgrDevNode) :
    (Listing.set response buf node).pkdn = node.pkdn := rfl

/-- The array after the secret of an item is copied into it. -/
def copySecret (buf : CharBuf) (l : Listing) : CharBuf := buf.copy l.deviceSecret

/-- An item is handled inside the arrays. -/
def Passes (ctx : DmMgrCtx) (response : ResponsePayload) (buf : CharBuf) (l : Listing) : Prop :=
  NamesFit l.pkdn ∧ l.deviceSecret.strlen ≤ iotxDeviceSecretLen + 1 ∧
    (Known ctx l.pkdn → 0 ∈ copySecret buf l ∧ IdFits response)

theorem strlen_string_le {buf : CharBuf} (hlen : buf.length = iotxDeviceSecretLen + 1)
    (hzero : 0 ∈ buf) : buf.string.strlen ≤ iotxDeviceSecretLen := by
  have hpre : buf.string.val <+: buf := List.takeWhile_prefix _
  have hne : buf.string.val.length ≠ buf.length := fun heq => by
    have hnot := buf.string.property
    rw [hpre.eq_of_length heq] at hnot
    exact hnot hzero
  have hle := hpre.length_le
  rw [CStr.strlen]
  omega

variable {item : RegisterItem}

theorem listing_eq_some {l : Listing} (h : item.listing = some l) :
    item.productKey = some l.pkdn.1 ∧ item.deviceName = some l.pkdn.2 ∧
      item.deviceSecret = some l.deviceSecret := by
  unfold RegisterItem.listing at h
  split at h
  next pk dn ds hpk hdn hds =>
    cases h
    exact ⟨hpk, hdn, hds⟩
  · cases h

theorem registerItem_of_none (h : item.listing = none) : registerItem response s item = some s := by
  unfold RegisterItem.listing at h
  unfold registerItem
  split at h
  · cases h
  next hnone =>
    rcases hpk : item.productKey with _ | pk
    · rfl
    rcases hdn : item.deviceName with _ | dn
    · rfl
    rcases hds : item.deviceSecret with _ | ds
    · rfl
    exact (hnone pk dn ds hpk hdn hds).elim

theorem length_copySecret {buf : CharBuf} {l : Listing}
    (hlen : buf.length = iotxDeviceSecretLen + 1)
    (hsecret : l.deviceSecret.strlen ≤ iotxDeviceSecretLen + 1) :
    (copySecret buf l).length = iotxDeviceSecretLen + 1 := by
  rw [copySecret, CharBuf.length_copy (by rw [hlen]; exact hsecret), hlen]

theorem registerItem_of_known (response : ResponsePayload) {l : Listing}
    (hl : item.listing = some l)
    (hap : Apart s.ctx) (hlen : s.deviceSecret.length = iotxDeviceSecretLen + 1)
    (hnames : NamesFit l.pkdn) (hsecret : l.deviceSecret.strlen ≤ iotxDeviceSecretLen + 1)
    (hknown : Known s.ctx l.pkdn) :
    ∃ devid, registerItem response s item =
      if 0 ∈ copySecret s.deviceSecret l then
        Registering.send
          ⟨s.ctx.change l.pkdn (Listing.set response (copySecret s.deviceSecret l)),
            copySecret s.deviceSecret l, s.sent⟩ response response.code devid
      else none := by
  obtain ⟨hpk, hdn, hds⟩ := listing_eq_some hl
  obtain ⟨node, hnode, heq, hsearch⟩ := search_of_known hap hknown
  have hmemcpy : s.deviceSecret.memcpy l.deviceSecret = some (copySecret s.deviceSecret l) :=
    if_pos (by rw [hlen]; exact hsecret)
  refine ⟨node.devid, ?_⟩
  unfold registerItem
  rw [hpk, hdn, hds]
  simp only [copyNames_of_fits hnames, hmemcpy, Option.bind_eq_bind, Option.bind_some, hsearch,
    updateStateMachine_of_mem hap hnode]
  split
  next hzero =>
    have htext : (copySecret s.deviceSecret l).text =
        some (copySecret s.deviceSecret l).string := if_pos hzero
    have hap' : Apart (s.ctx.change node.pkdn (listDevice response)) :=
      hap.change (fun _ => rfl) fun _ => rfl
    have hnode' : listDevice response node ∈
        (s.ctx.change node.pkdn (listDevice response)).devList :=
      List.mem_map.mpr ⟨node, hnode, if_pos rfl⟩
    have hset : dmMgrSetDeviceSecret (s.ctx.change node.pkdn (listDevice response)) node.devid
          (copySecret s.deviceSecret l).string =
        (State.success, (s.ctx.change node.pkdn (listDevice response)).change node.pkdn fun n =>
          { n with deviceSecret := (copySecret s.deviceSecret l).string }) :=
      setDeviceSecret_of_mem hap' hnode' (strlen_string_le (length_copySecret hlen hsecret) hzero)
    rw [change_change s.ctx (listDevice response) _ fun _ => rfl, heq] at hset
    simp only [heq, htext, Option.bind_some, hset, ne_eq, not_true_eq_false, if_false]
    rfl
  next hzero =>
    have htext : (copySecret s.deviceSecret l).text = none := if_neg hzero
    rw [htext]
    rfl

theorem registerItem_of_passes {l : Listing} (hl : item.listing = some l)
    (hap : Apart s.ctx) (hlen : s.deviceSecret.length = iotxDeviceSecretLen + 1)
    (hpass : Passes s.ctx response s.deviceSecret l) :
    ∃ sent, registerItem response s item = some
      ⟨s.ctx.change l.pkdn (Listing.set response (copySecret s.deviceSecret l)),
        copySecret s.deviceSecret l, sent⟩ := by
  obtain ⟨hnames, hsecret, hrest⟩ := hpass
  by_cases hknown : Known s.ctx l.pkdn
  · obtain ⟨hzero, hid⟩ := hrest hknown
    obtain ⟨devid, heq⟩ := registerItem_of_known response hl hap hlen hnames
      hsecret hknown
    rw [heq, if_pos hzero, send_of_fits hid]
    exact ⟨_, rfl⟩
  · obtain ⟨hpk, hdn, hds⟩ := listing_eq_some hl
    have hmemcpy : s.deviceSecret.memcpy l.deviceSecret = some (copySecret s.deviceSecret l) :=
      if_pos (by rw [hlen]; exact hsecret)
    unfold registerItem
    rw [hpk, hdn, hds]
    simp only [copyNames_of_fits hnames, hmemcpy, Option.bind_eq_bind, Option.bind_some,
      search_of_unknown hknown, change_of_unknown hknown]
    exact ⟨_, rfl⟩

theorem registerItem_of_not_passes {l : Listing} (hl : item.listing = some l) (hap : Apart s.ctx)
    (hlen : s.deviceSecret.length = iotxDeviceSecretLen + 1)
    (hpass : ¬ Passes s.ctx response s.deviceSecret l) : registerItem response s item = none := by
  by_cases hfits : NamesFit l.pkdn ∧ l.deviceSecret.strlen ≤ iotxDeviceSecretLen + 1
  · obtain ⟨hnames, hsecret⟩ := hfits
    have hknown : Known s.ctx l.pkdn := by
      by_contra hknown
      exact hpass ⟨hnames, hsecret, fun h => absurd h hknown⟩
    obtain ⟨devid, heq⟩ := registerItem_of_known response hl hap hlen hnames
      hsecret hknown
    rw [heq]
    split
    next hzero =>
      exact send_of_not_fits (fun hid => hpass ⟨hnames, hsecret, fun _ => ⟨hzero, hid⟩⟩) _ _
    · rfl
  · obtain ⟨hpk, hdn, hds⟩ := listing_eq_some hl
    unfold registerItem
    rw [hpk, hdn, hds]
    by_cases hnames : NamesFit l.pkdn
    · have hmemcpy : s.deviceSecret.memcpy l.deviceSecret = none :=
        if_neg (by rw [hlen]; exact fun hsecret => hfits ⟨hnames, hsecret⟩)
      simp [copyNames_of_fits hnames, hmemcpy]
    · simp [copyNames_of_not_fits hnames]

/-! ## The loop over registered devices -/

/-- The devices and the array after an item. -/
def registerStep (response : ResponsePayload) (s : DmMgrCtx × CharBuf) (l : Listing) :
    DmMgrCtx × CharBuf :=
  (s.1.change l.pkdn (Listing.set response (copySecret s.2 l)), copySecret s.2 l)

theorem registerItems_of_passes {ctx : DmMgrCtx} {items : List RegisterItem}
    (hap : Apart s.ctx) (hlen : s.deviceSecret.length = iotxDeviceSecretLen + 1)
    (hknown : ∀ p, Known s.ctx p ↔ Known ctx p)
    (hm : Meets copySecret (Passes ctx response) s.deviceSecret
      (items.filterMap RegisterItem.listing)) :
    ∃ sent, items.foldlM (registerItem response) s = some
      ⟨(run (registerStep response) (s.ctx, s.deviceSecret)
          (items.filterMap RegisterItem.listing)).1,
        run copySecret s.deviceSecret (items.filterMap RegisterItem.listing), sent⟩ := by
  induction items generalizing s with
  | nil => exact ⟨s.sent, rfl⟩
  | cons item items ih =>
    rw [List.foldlM_cons]
    cases hl : item.listing with
    | none =>
      rw [List.filterMap_cons_none hl] at hm ⊢
      rw [registerItem_of_none hl]
      exact ih hap hlen hknown hm
    | some l =>
      rw [List.filterMap_cons_some hl] at hm ⊢
      obtain ⟨hpass, hm⟩ := hm
      have hsecret := hpass.2.1
      have hpass' : Passes s.ctx response s.deviceSecret l :=
        ⟨hpass.1, hsecret, fun h => hpass.2.2 ((hknown _).mp h)⟩
      obtain ⟨sent, heq⟩ := registerItem_of_passes hl hap hlen hpass'
      rw [heq]
      exact ih (hap.change (fun _ => rfl) (Listing.set_pkdn response _))
        (length_copySecret hlen hsecret)
        (fun p => (known_change (Listing.set_pkdn response _) p).trans (hknown p)) hm

theorem registerItems_of_not_passes {ctx : DmMgrCtx} {items : List RegisterItem}
    (response : ResponsePayload) (hap : Apart s.ctx)
    (hlen : s.deviceSecret.length = iotxDeviceSecretLen + 1)
    (hknown : ∀ p, Known s.ctx p ↔ Known ctx p)
    (hm : ¬ Meets copySecret (Passes ctx response) s.deviceSecret
      (items.filterMap RegisterItem.listing)) : items.foldlM (registerItem response) s = none := by
  induction items generalizing s with
  | nil => exact absurd trivial hm
  | cons item items ih =>
    rw [List.foldlM_cons]
    cases hl : item.listing with
    | none =>
      rw [List.filterMap_cons_none hl] at hm
      rw [registerItem_of_none hl]
      exact ih hap hlen hknown hm
    | some l =>
      rw [List.filterMap_cons_some hl] at hm
      by_cases hpass : Passes s.ctx response s.deviceSecret l
      · obtain ⟨sent, heq⟩ := registerItem_of_passes hl hap hlen hpass
        have hpass' : Passes ctx response s.deviceSecret l :=
          ⟨hpass.1, hpass.2.1, fun h => hpass.2.2 ((hknown _).mpr h)⟩
        rw [heq]
        exact ih (hap.change (fun _ => rfl) (Listing.set_pkdn response _))
          (length_copySecret hlen hpass.2.1)
          (fun p => (known_change (Listing.set_pkdn response _) p).trans (hknown p))
          fun hrest => hm ⟨hpass', hrest⟩
      · rw [registerItem_of_not_passes hl hap hlen hpass]
        rfl

end

/-! ## The array `device_secret` -/

section
variable {buf : CharBuf} {ls : List Listing}

theorem getD_run_copySecret (buf : CharBuf) (ls : List Listing) (n : Nat) :
    (run copySecret buf ls).getD n 0 = 0 ↔
      buf.getD n 0 = 0 ∧ ∀ l ∈ ls, l.deviceSecret.strlen ≤ n := by
  induction ls generalizing buf with
  | nil => exact (and_iff_left nofun).symm
  | cons l ls ih =>
    rw [run_cons, ih, List.forall_mem_cons, copySecret, CharBuf.getD_copy]
    split
    next hlt =>
      refine iff_of_false (fun h => CharBuf.charAt_ne_zero hlt h.1) fun h => ?_
      exact absurd h.2.1 (Nat.not_le.mpr hlt)
    next hge =>
      rw [and_iff_right (Nat.not_lt.mp hge)]

theorem length_run_copySecret (buf : CharBuf) (hlen : buf.length = iotxDeviceSecretLen + 1)
    (hfits : ∀ l ∈ ls, l.deviceSecret.strlen ≤ iotxDeviceSecretLen + 1) :
    (run copySecret buf ls).length = iotxDeviceSecretLen + 1 := by
  induction ls generalizing buf with
  | nil => exact hlen
  | cons l ls ih =>
    obtain ⟨hl, hls⟩ := List.forall_mem_cons.mp hfits
    exact ih _ (length_copySecret hlen hl) hls

theorem zero_mem_run_copySecret
    (hfits : ∀ l ∈ ls, l.deviceSecret.strlen ≤ iotxDeviceSecretLen + 1) :
    0 ∈ run copySecret (.zeros (iotxDeviceSecretLen + 1)) ls ↔
      ∀ l ∈ ls, l.deviceSecret.strlen ≤ iotxDeviceSecretLen := by
  have hlen := length_run_copySecret (.zeros (iotxDeviceSecretLen + 1))
    CharBuf.length_zeros hfits
  constructor
  · intro hmem l hl
    obtain ⟨n, hn, hzero⟩ := List.getElem_of_mem hmem
    rw [← List.getD_eq_getElem _ 0 hn, getD_run_copySecret] at hzero
    have hle := hzero.2 l hl
    omega
  · intro hls
    have hlt : iotxDeviceSecretLen <
        (run copySecret (.zeros (iotxDeviceSecretLen + 1)) ls).length := by
      omega
    have hzero := (getD_run_copySecret (.zeros (iotxDeviceSecretLen + 1)) ls
      iotxDeviceSecretLen).mpr ⟨rfl, hls⟩
    rw [List.getD_eq_getElem _ _ hlt] at hzero
    exact List.mem_of_getElem hzero

theorem string_run_copySecret {l : Listing} {pre : List Listing}
    (hfits : ∀ e ∈ pre, e.deviceSecret.strlen ≤ iotxDeviceSecretLen + 1)
    (hl : l.deviceSecret.strlen ≤ iotxDeviceSecretLen) :
    (copySecret (run copySecret (.zeros (iotxDeviceSecretLen + 1)) pre) l).string =
        l.deviceSecret ↔
      ∀ e ∈ pre, e.deviceSecret.strlen ≤ l.deviceSecret.strlen := by
  have hlen := length_run_copySecret (.zeros (iotxDeviceSecretLen + 1))
    CharBuf.length_zeros hfits
  have hzero : (CharBuf.zeros (iotxDeviceSecretLen + 1)).getD l.deviceSecret.strlen 0 = 0 := by
    rw [CharBuf.zeros, List.getD_replicate _ (Nat.lt_succ_of_le hl)]
  rw [copySecret, CharBuf.string_copy_eq_iff (by omega), getD_run_copySecret,
    and_iff_right hzero]

end

/-! ## One device -/

section
variable {response : ResponsePayload}

/-- A device and the array after an item. -/
def nodeStep (response : ResponsePayload) (s : DmMgrDevNode × CharBuf) (l : Listing) :
    DmMgrDevNode × CharBuf :=
  (if s.1.pkdn = l.pkdn then Listing.set response (copySecret s.2 l) s.1 else s.1,
    copySecret s.2 l)

theorem run_nodeStep_buf (response : ResponsePayload) (s : DmMgrDevNode × CharBuf)
    (ls : List Listing) : (run (nodeStep response) s ls).2 = run copySecret s.2 ls := by
  induction ls generalizing s with
  | nil => rfl
  | cons l ls ih => exact ih _

theorem run_registerStep (response : ResponsePayload) (ctx : DmMgrCtx) (buf : CharBuf)
    (ls : List Listing) :
    (run (registerStep response) (ctx, buf) ls).1.devList =
      ctx.devList.map fun node => (run (nodeStep response) (node, buf) ls).1 := by
  induction ls generalizing ctx buf with
  | nil => exact (List.map_id'' (fun _ => rfl) _).symm
  | cons l ls ih =>
    rw [run_cons, registerStep, ih, DmMgrCtx.change, List.map_map]
    rfl

theorem nodeStep_fields (response : ResponsePayload) (s : DmMgrDevNode × CharBuf) (l : Listing) :
    (nodeStep response s l).1.devid = s.1.devid ∧ (nodeStep response s l).1.pkdn = s.1.pkdn := by
  unfold nodeStep
  split
  · exact ⟨rfl, rfl⟩
  · exact ⟨rfl, rfl⟩

theorem run_nodeStep_fields (response : ResponsePayload) (s : DmMgrDevNode × CharBuf)
    (ls : List Listing) :
    (run (nodeStep response) s ls).1.devid = s.1.devid ∧
      (run (nodeStep response) s ls).1.pkdn = s.1.pkdn := by
  induction ls generalizing s with
  | nil => exact ⟨rfl, rfl⟩
  | cons l ls ih =>
    obtain ⟨hid, hname⟩ := ih (nodeStep response s l)
    obtain ⟨hid', hname'⟩ := nodeStep_fields response s l
    exact ⟨hid.trans hid', hname.trans hname'⟩

theorem run_nodeStep_unlisted {s : DmMgrDevNode × CharBuf} {ls : List Listing}
    (h : ∀ l ∈ ls, l.pkdn ≠ s.1.pkdn) : (run (nodeStep response) s ls).1 = s.1 := by
  induction ls generalizing s with
  | nil => rfl
  | cons l ls ih =>
    obtain ⟨hl, hls⟩ := List.forall_mem_cons.mp h
    have hstep : (nodeStep response s l).1 = s.1 := if_neg (Ne.symm hl)
    rw [run_cons, ih (by rw [hstep]; exact hls), hstep]

theorem run_nodeStep_secret {s : DmMgrDevNode × CharBuf} {pre post : List Listing} {l : Listing}
    (hl : l.pkdn = s.1.pkdn) (hpost : ∀ later ∈ post, later.pkdn ≠ s.1.pkdn) :
    (run (nodeStep response) s (pre ++ l :: post)).1.deviceSecret =
      (copySecret (run copySecret s.2 pre) l).string := by
  have hname := (run_nodeStep_fields response s pre).2
  have hbuf := run_nodeStep_buf response s pre
  rw [run_append, run_cons]
  generalize run (nodeStep response) s pre = s' at hname hbuf ⊢
  have hstep : (nodeStep response s' l).1 = Listing.set response (copySecret s'.2 l) s'.1 :=
    if_pos (hname.trans hl.symm)
  rw [run_nodeStep_unlisted, hstep, hbuf]
  · rfl
  · rw [hstep, Listing.set_pkdn, hname]
    exact hpost

theorem nodeStep_status (s : DmMgrDevNode × CharBuf) (l : Listing) :
    (nodeStep response s l).1.devStatus =
      if s.1.pkdn = l.pkdn then statusAfter response s.1.devStatus else s.1.devStatus := by
  unfold nodeStep
  split
  · rfl
  · rfl

theorem run_nodeStep_status (response : ResponsePayload) (s : DmMgrDevNode × CharBuf)
    (ls : List Listing) :
    (run (nodeStep response) s ls).1.devStatus =
      if response.code = iotxDmErrCodeSuccess ∧ ∃ l ∈ ls, l.pkdn = s.1.pkdn then .registered
      else s.1.devStatus := by
  induction ls generalizing s with
  | nil => simp
  | cons l ls ih =>
    obtain ⟨-, hname⟩ := nodeStep_fields response s l
    rw [run_cons, ih, hname, nodeStep_status, statusAfter]
    by_cases hcode : response.code = iotxDmErrCodeSuccess
    · by_cases hl : s.1.pkdn = l.pkdn
      · simp [hcode, hl]
      · simp [hcode, hl, Ne.symm hl]
    · simp [hcode]

end

/-! ## The loop over failures -/

section
variable {response : ResponsePayload} {s : Registering}

variable {item : FailureItem}

theorem pkdn_eq_some {p : CStr × CStr} (h : item.pkdn = some p) :
    ∃ code, item.productKey = some p.1 ∧ item.deviceName = some p.2 ∧
      item.errorCode = some code := by
  unfold FailureItem.pkdn at h
  split at h
  next pk dn code hpk hdn hcode =>
    cases h
    exact ⟨code, hpk, hdn, hcode⟩
  · cases h

theorem failureItem_of_none (h : item.pkdn = none) : failureItem response s item = some s := by
  unfold FailureItem.pkdn at h
  unfold failureItem
  split at h
  · cases h
  next hnone =>
    rcases hpk : item.productKey with _ | pk
    · rfl
    rcases hdn : item.deviceName with _ | dn
    · rfl
    rcases hcode : item.errorCode with _ | code
    · rfl
    exact (hnone pk dn code hpk hdn hcode).elim

theorem failureItem_of_fits {p : CStr × CStr} (hp : item.pkdn = some p)
    (hap : Apart s.ctx) (hfits : FailureFits s.ctx response p) :
    ∃ sent, failureItem response s item =
      some ⟨s.ctx.change p (listDevice response), s.deviceSecret, sent⟩ := by
  obtain ⟨code, hpk, hdn, hcode⟩ := pkdn_eq_some hp
  unfold failureItem
  rw [hpk, hdn, hcode]
  by_cases hknown : Known s.ctx p
  · obtain ⟨node, hnode, heq, hsearch⟩ := search_of_known hap hknown
    simp only [copyNames_of_fits hfits.1, Option.bind_eq_bind, Option.bind_some, hsearch,
      updateStateMachine_of_mem hap hnode, heq, send_of_fits (hfits.2 hknown)]
    exact ⟨_, rfl⟩
  · simp only [copyNames_of_fits hfits.1, Option.bind_eq_bind, Option.bind_some,
      search_of_unknown hknown, change_of_unknown hknown]
    exact ⟨_, rfl⟩

theorem failureItem_of_not_fits {p : CStr × CStr} (hp : item.pkdn = some p)
    (hap : Apart s.ctx) (hfits : ¬ FailureFits s.ctx response p) :
    failureItem response s item = none := by
  obtain ⟨code, hpk, hdn, hcode⟩ := pkdn_eq_some hp
  unfold failureItem
  rw [hpk, hdn, hcode]
  by_cases hnames : NamesFit p
  case neg => simp [copyNames_of_not_fits hnames]
  have hknown : Known s.ctx p := by
    by_contra hknown
    exact hfits ⟨hnames, fun h => absurd h hknown⟩
  obtain ⟨node, hnode, heq, hsearch⟩ := search_of_known hap hknown
  simp only [copyNames_of_fits hnames, Option.bind_eq_bind, Option.bind_some, hsearch]
  exact send_of_not_fits (fun hid => hfits ⟨hnames, fun _ => hid⟩) _ _

def failNode (response : ResponsePayload) (failed : List (CStr × CStr)) (node : DmMgrDevNode) :
    DmMgrDevNode := if node.pkdn ∈ failed then listDevice response node else node

theorem listDevice_idem (node : DmMgrDevNode) :
    listDevice response (listDevice response node) = listDevice response node := by
  unfold listDevice statusAfter
  split
  · rfl
  · rfl

theorem failNode_cons (p : CStr × CStr) (failed : List (CStr × CStr)) (node : DmMgrDevNode) :
    failNode response failed (if node.pkdn = p then listDevice response node else node) =
      failNode response (p :: failed) node := by
  unfold failNode
  by_cases hp : node.pkdn = p
  · have hname : (listDevice response node).pkdn = node.pkdn := rfl
    rw [if_pos hp, if_pos (List.mem_cons.mpr (.inl hp)), hname, listDevice_idem]
    exact ite_self _
  · rw [if_neg hp]
    have hmem : node.pkdn ∈ p :: failed ↔ node.pkdn ∈ failed := by simp [hp]
    exact if_congr hmem.symm rfl rfl

theorem failureItems_of_fits {ctx : DmMgrCtx} (items : List FailureItem) (hap : Apart s.ctx)
    (hknown : ∀ p, Known s.ctx p ↔ Known ctx p)
    (hfits : ∀ p ∈ items.filterMap FailureItem.pkdn, FailureFits ctx response p) :
    ∃ s', items.foldlM (failureItem response) s = some s' ∧
      s'.ctx.devList = s.ctx.devList.map
        (failNode response (items.filterMap FailureItem.pkdn)) := by
  induction items generalizing s with
  | nil => exact ⟨s, rfl, (List.map_id'' (fun _ => rfl) _).symm⟩
  | cons item items ih =>
    rw [List.foldlM_cons]
    cases hp : item.pkdn with
    | none =>
      rw [List.filterMap_cons_none hp] at hfits ⊢
      rw [failureItem_of_none hp]
      exact ih hap hknown hfits
    | some p =>
      rw [List.filterMap_cons_some hp] at hfits ⊢
      obtain ⟨hfit, hfits⟩ := List.forall_mem_cons.mp hfits
      obtain ⟨sent, heq⟩ := failureItem_of_fits hp hap
        ⟨hfit.1, fun h => hfit.2 ((hknown p).mp h)⟩
      have hname : ∀ node, (listDevice response node).pkdn = node.pkdn := fun _ => rfl
      obtain ⟨s', hs', hlist⟩ := ih
        (s := ⟨s.ctx.change p (listDevice response), s.deviceSecret, sent⟩)
        (hap.change (fun _ => rfl) hname)
        (fun q => (known_change hname q).trans (hknown q)) hfits
      refine ⟨s', by rw [heq]; exact hs', ?_⟩
      rw [hlist, DmMgrCtx.change, List.map_map]
      exact List.map_congr_left fun node _ => failNode_cons p _ node

theorem failureItems_of_not_fits {ctx : DmMgrCtx} (response : ResponsePayload)
    (items : List FailureItem) (hap : Apart s.ctx) (hknown : ∀ p, Known s.ctx p ↔ Known ctx p)
    (hfits : ¬ ∀ p ∈ items.filterMap FailureItem.pkdn, FailureFits ctx response p) :
    items.foldlM (failureItem response) s = none := by
  induction items generalizing s with
  | nil => exact absurd nofun hfits
  | cons item items ih =>
    rw [List.foldlM_cons]
    cases hp : item.pkdn with
    | none =>
      rw [List.filterMap_cons_none hp] at hfits
      rw [failureItem_of_none hp]
      exact ih hap hknown hfits
    | some p =>
      rw [List.filterMap_cons_some hp] at hfits
      by_cases hfit : FailureFits s.ctx response p
      · obtain ⟨sent, heq⟩ := failureItem_of_fits hp hap hfit
        have hfit' : FailureFits ctx response p := ⟨hfit.1, fun h => hfit.2 ((hknown p).mpr h)⟩
        have hname : ∀ node, (listDevice response node).pkdn = node.pkdn := fun _ => rfl
        rw [heq]
        exact ih (hap.change (fun _ => rfl) hname)
          (fun q => (known_change hname q).trans (hknown q))
          fun hrest => hfits (List.forall_mem_cons.mpr ⟨hfit', hrest⟩)
      · rw [failureItem_of_not_fits hp hap hfit]
        rfl

end

/-! ## A reply -/

section
variable {response : ResponsePayload} {data : RegisterData} {ctx : DmMgrCtx}

/-- What a reply does to a device. -/
def nodeAfter (response : ResponsePayload) (data : RegisterData) (node : DmMgrDevNode) :
    DmMgrDevNode :=
  failNode response data.failed
    (run (nodeStep response) (node, .zeros (iotxDeviceSecretLen + 1)) data.registered).1

/-- The reply is handled inside the arrays. -/
structure ReplyPasses (response : ResponsePayload) (data : RegisterData) (ctx : DmMgrCtx) :
    Prop where
  id : (∃ items, data = .subRegister items) → response.code ≠ iotxDmErrCodeSuccess →
    IdFits response
  registered : Meets copySecret (Passes ctx response) (.zeros (iotxDeviceSecretLen + 1))
    data.registered
  failed : ∀ pkdn ∈ data.failed, FailureFits ctx response pkdn

theorem map_nodeAfter_nil (hregistered : data.registered = []) (hfailed : data.failed = [])
    (nodes : List DmMgrDevNode) : nodes.map (nodeAfter response data) = nodes := by
  have hid : nodeAfter response data = id := by
    funext node
    rw [nodeAfter, hregistered, hfailed]
    rfl
  rw [hid, List.map_id]

theorem registerItems_start (items : List RegisterItem) {s : Registering} (hap : Apart s.ctx)
    (hbuf : s.deviceSecret = .zeros (iotxDeviceSecretLen + 1))
    (hm : Meets copySecret (Passes s.ctx response) (.zeros (iotxDeviceSecretLen + 1))
      (items.filterMap RegisterItem.listing)) :
    ∃ s', items.foldlM (registerItem response) s = some s' ∧ Apart s'.ctx ∧
      (∀ p, Known s'.ctx p ↔ Known s.ctx p) ∧
      s'.ctx.devList = s.ctx.devList.map fun node =>
        (run (nodeStep response) (node, .zeros (iotxDeviceSecretLen + 1))
          (items.filterMap RegisterItem.listing)).1 := by
  rw [← hbuf] at hm
  obtain ⟨sent, heq⟩ := registerItems_of_passes hap (hbuf ▸ CharBuf.length_zeros)
    (fun _ => .rfl) hm
  rw [heq]
  have hlist := run_registerStep response s.ctx s.deviceSecret
    (items.filterMap RegisterItem.listing)
  rw [hbuf] at hlist ⊢
  generalize (run (registerStep response) _ _).1 = ctx' at hlist ⊢
  have hids : ctx'.devList.map DmMgrDevNode.devid = s.ctx.devList.map DmMgrDevNode.devid := by
    rw [hlist, List.map_map]
    exact List.map_congr_left fun node _ => (run_nodeStep_fields response _ _).1
  have hnames : ctx'.devList.map DmMgrDevNode.pkdn = s.ctx.devList.map DmMgrDevNode.pkdn := by
    rw [hlist, List.map_map]
    exact List.map_congr_left fun node _ => (run_nodeStep_fields response _ _).2
  exact ⟨_, rfl, hap.of_fields hids hnames, fun p => by rw [Known, Known, hnames], hlist⟩

theorem sendRefused_of_fits (s : Registering)
    (hid : response.code ≠ iotxDmErrCodeSuccess → IdFits response) :
    ∃ sent, s.sendRefused response = some ⟨s.ctx, s.deviceSecret, sent⟩ := by
  unfold Registering.sendRefused
  split
  next hcode => exact ⟨_, send_of_fits (hid hcode) _ _⟩
  · exact ⟨_, rfl⟩

theorem registerReply_of_passes (hap : Apart ctx) (h : ReplyPasses response data ctx) :
    ∃ res s, registerReply response data ctx = some (res, s) ∧
      s.ctx.devList = ctx.devList.map (nodeAfter response data) := by
  cases data with
  | subRegister items =>
    obtain ⟨sent, hsent⟩ := sendRefused_of_fits (.start ctx) (h.id ⟨items, rfl⟩)
    simp only [registerReply, dmMsgThingSubRegisterReply, hsent, Option.bind_eq_bind,
      Option.bind_some]
    cases items with
    | none => exact ⟨_, _, rfl, (map_nodeAfter_nil rfl rfl _).symm⟩
    | some items =>
      obtain ⟨s', hs', -, -, hlist⟩ := registerItems_start items
        (s := ⟨ctx, .zeros (iotxDeviceSecretLen + 1), sent⟩) hap rfl h.registered
      exact ⟨State.success, s',
        congrArg (fun r => Option.bind r fun s => some (State.success, s)) hs', hlist⟩
  | proxyRegister successes failures =>
    cases successes with
    | none => exact ⟨_, _, rfl, (map_nodeAfter_nil rfl rfl _).symm⟩
    | some items =>
      obtain ⟨s', hs', hap', hknown, hlist⟩ := registerItems_start items
        (s := .start ctx) hap rfl h.registered
      simp only [registerReply, dmMsgThingProxyProductRegisterReply, hs', Option.bind_eq_bind,
        Option.bind_some]
      cases failures with
      | none => exact ⟨_, s', rfl, hlist⟩
      | some failures =>
        obtain ⟨s'', hs'', hlist'⟩ := failureItems_of_fits failures hap' hknown h.failed
        refine ⟨State.success, s'',
          congrArg (fun r => Option.bind r fun s => some (State.success, s)) hs'', ?_⟩
        rw [hlist', hlist, List.map_map]
        rfl

theorem registerReply_of_not_passes (hap : Apart ctx) (h : ¬ ReplyPasses response data ctx) :
    registerReply response data ctx = none := by
  cases data with
  | subRegister items =>
    simp only [registerReply, dmMsgThingSubRegisterReply, Option.bind_eq_bind]
    by_cases hid : response.code ≠ iotxDmErrCodeSuccess → IdFits response
    · obtain ⟨sent, hsent⟩ := sendRefused_of_fits (.start ctx) hid
      have hm : ¬ Meets copySecret (Passes ctx response) (.zeros (iotxDeviceSecretLen + 1))
          (RegisterData.subRegister items).registered := fun hm => h ⟨fun _ => hid, hm, nofun⟩
      rw [hsent, Option.bind_some]
      cases items with
      | none => exact absurd trivial hm
      | some items =>
        have hnone := registerItems_of_not_passes
          (s := ⟨ctx, .zeros (iotxDeviceSecretLen + 1), sent⟩) response hap CharBuf.length_zeros
          (fun _ => .rfl) hm
        exact congrArg (fun r => Option.bind r fun s => some (State.success, s)) hnone
    · obtain ⟨hcode, hid⟩ := Classical.not_imp.mp hid
      rw [Registering.sendRefused, if_pos hcode, send_of_not_fits hid]
      rfl
  | proxyRegister successes failures =>
    have hid : (∃ items, RegisterData.proxyRegister successes failures = .subRegister items) →
        response.code ≠ iotxDmErrCodeSuccess → IdFits response := fun ⟨items, heq⟩ => by cases heq
    cases successes with
    | none => exact absurd ⟨hid, trivial, nofun⟩ h
    | some items =>
      simp only [registerReply, dmMsgThingProxyProductRegisterReply, Option.bind_eq_bind]
      by_cases hm : Meets copySecret (Passes ctx response) (.zeros (iotxDeviceSecretLen + 1))
          (items.filterMap RegisterItem.listing)
      · obtain ⟨s', hs', hap', hknown, -⟩ := registerItems_start items
          (s := .start ctx) hap rfl hm
        rw [hs', Option.bind_some]
        cases failures with
        | none => exact absurd ⟨hid, hm, nofun⟩ h
        | some failures =>
          have hnone := failureItems_of_not_fits response failures hap' hknown
            fun hfits => h ⟨hid, hm, hfits⟩
          exact congrArg (fun r => Option.bind r fun s => some (State.success, s)) hnone
      · rw [registerItems_of_not_passes (s := .start ctx) response hap CharBuf.length_zeros
          (fun _ => .rfl) hm]
        rfl

theorem nodeAfter_fields (response : ResponsePayload) (data : RegisterData) (node : DmMgrDevNode) :
    (nodeAfter response data node).devid = node.devid ∧
      (nodeAfter response data node).pkdn = node.pkdn := by
  have hfields := run_nodeStep_fields response
    (node, .zeros (iotxDeviceSecretLen + 1)) data.registered
  unfold nodeAfter failNode
  split
  · exact hfields
  · exact hfields

theorem nodeAfter_secret (node : DmMgrDevNode) :
    (nodeAfter response data node).deviceSecret =
      (run (nodeStep response) (node, .zeros (iotxDeviceSecretLen + 1))
        data.registered).1.deviceSecret := by
  unfold nodeAfter failNode
  split
  · rfl
  · rfl

theorem nodeAfter_status (node : DmMgrDevNode) :
    (nodeAfter response data node).devStatus =
      if response.code = iotxDmErrCodeSuccess ∧
        ((∃ l ∈ data.registered, l.pkdn = node.pkdn) ∨ node.pkdn ∈ data.failed) then .registered
      else node.devStatus := by
  have hname := (run_nodeStep_fields response
    (node, .zeros (iotxDeviceSecretLen + 1)) data.registered).2
  have hstatus := run_nodeStep_status response
    (node, .zeros (iotxDeviceSecretLen + 1)) data.registered
  unfold nodeAfter failNode
  rw [hname]
  by_cases hcode : response.code = iotxDmErrCodeSuccess
  · by_cases hfailed : node.pkdn ∈ data.failed
    · simp [hcode, hfailed, listDevice, statusAfter]
    · simpa [hcode, hfailed] using hstatus
  · have hsame : (run (nodeStep response) (node, .zeros (iotxDeviceSecretLen + 1))
        data.registered).1.devStatus = node.devStatus := by simpa [hcode] using hstatus
    split
    · simp [hcode, listDevice, statusAfter, hsame]
    · simp [hcode, hsame]

theorem passes_of_careful (h : RegisterCareful response data ctx) :
    ReplyPasses response data ctx where
  id := h.id
  failed := h.failed
  registered := by
    rw [meets_iff_forall_split]
    intro pre l post hsplit
    have hl : l ∈ data.registered := by
      rw [hsplit]
      exact List.mem_append_right _ List.mem_cons_self
    obtain ⟨hnames, hsecret, hrest⟩ := h.registered l hl
    refine ⟨hnames, hsecret, fun hknown => ⟨?_, (hrest hknown).2⟩⟩
    -- the last item of the device bounds every secret up to here
    obtain ⟨mid, last, tail, hlast, hname, htail⟩ := exists_last_split
      (P := fun e : Listing => e.pkdn = l.pkdn) ⟨l, List.mem_cons_self (l := post), rfl⟩
    have hsplit' : data.registered = (pre ++ mid) ++ last :: tail := by
      rw [hsplit, hlast, List.append_assoc]
    have hmem : last ∈ data.registered := by
      rw [hsplit']
      exact List.mem_append_right _ List.mem_cons_self
    have hlong := ((h.registered last hmem).2.2 (hname ▸ hknown)).1
    have hearlier := h.tails (pre ++ mid) last tail hsplit' (hname ▸ hknown)
      fun later hlater => hname ▸ htail later hlater
    have hpre : ∀ e ∈ pre ++ [l], e.deviceSecret.strlen ≤ iotxDeviceSecretLen := by
      intro e he
      rcases List.mem_append.mp he with he | he
      · exact (hearlier e (List.mem_append_left _ he)).trans hlong
      · rw [List.mem_singleton.mp he]
        exact (hrest hknown).1
    have hzero := (zero_mem_run_copySecret fun e he => (hpre e he).trans (Nat.le_succ _)).mpr hpre
    rwa [run_concat] at hzero

theorem fits_of_passes (h : ReplyPasses response data ctx) :
    ∀ l ∈ data.registered, l.Fits ctx response := by
  intro l hl
  have hsplits := meets_iff_forall_split.mp h.registered
  have hfits : ∀ e ∈ data.registered, e.deviceSecret.strlen ≤ iotxDeviceSecretLen + 1 := by
    intro e he
    obtain ⟨pre, post, hsplit⟩ := List.append_of_mem he
    exact (hsplits pre e post hsplit).2.1
  obtain ⟨pre, post, hsplit⟩ := List.append_of_mem hl
  obtain ⟨hnames, hsecret, hrest⟩ := hsplits pre l post hsplit
  refine ⟨hnames, hsecret, fun hknown => ⟨?_, (hrest hknown).2⟩⟩
  have hzero := (hrest hknown).1
  rw [← run_concat copySecret, zero_mem_run_copySecret] at hzero
  · exact hzero l (List.mem_append_right _ (List.mem_singleton_self l))
  · intro e he
    refine hfits e ?_
    rw [hsplit, List.append_cons]
    exact List.mem_append_left _ he

/-- A registration reply does what it has to just when it is careful. -/
theorem registerKept_iff (hap : Apart ctx) :
    RegisterKept response data ctx ↔ RegisterCareful response data ctx := by
  constructor
  · rintro ⟨res, s, hreply, hkept⟩
    have hpasses : ReplyPasses response data ctx := by
      by_contra hnot
      rw [registerReply_of_not_passes hap hnot] at hreply
      cases hreply
    obtain ⟨res', s', hreply', hlist⟩ := registerReply_of_passes hap hpasses
    rw [hreply'] at hreply
    cases hreply
    rw [hlist, List.forall₂_map_right_iff, List.forall₂_same] at hkept
    have hfits := fits_of_passes hpasses
    refine ⟨hpasses.id, hfits, hpasses.failed, ?_, ?_⟩
    · intro pre l post hsplit hknown hlast
      obtain ⟨node, hnode, hname⟩ := List.mem_map.mp hknown
      have hsecret := (hkept node hnode).secret.last pre l post hsplit hname.symm
        fun later hlater => hname ▸ hlast later hlater
      have hmem : ∀ e ∈ pre ++ [l], e ∈ data.registered := fun e he => by
        rw [hsplit, List.append_cons]
        exact List.mem_append_left _ he
      have hl := hmem l (List.mem_append_right _ (List.mem_singleton_self l))
      rw [nodeAfter_secret, hsplit, run_nodeStep_secret (s := (node, _)) hname.symm
        fun later hlater => hname ▸ hlast later hlater] at hsecret
      exact (string_run_copySecret
        (fun e he => (hfits e (hmem e (List.mem_append_left _ he))).2.1)
        ((hfits l hl).2.2 hknown).1).mp hsecret
    · intro hcode node hnode hfailed
      have hstatus := (hkept node hnode).status
      rw [nodeAfter_status, if_pos ⟨hcode, .inr hfailed⟩] at hstatus
      rcases hstatus with hsame | ⟨-, -, hlisted⟩
      · exact .inl hsame.symm
      · exact .inr hlisted
  · intro h
    have hpasses := passes_of_careful h
    obtain ⟨res, s, hreply, hlist⟩ := registerReply_of_passes hap hpasses
    refine ⟨res, s, hreply, ?_⟩
    rw [hlist, List.forall₂_map_right_iff, List.forall₂_same]
    intro node hnode
    obtain ⟨hid, hname⟩ := nodeAfter_fields response data node
    refine ⟨hid, hname, ⟨fun hnot => ?_, fun pre l post hsplit hl hlast => ?_⟩, ?_⟩
    · rw [nodeAfter_secret, run_nodeStep_unlisted hnot]
    · have hknown : Known ctx l.pkdn := hl ▸ List.mem_map_of_mem hnode
      have hmem : ∀ e ∈ pre ++ [l], e ∈ data.registered := fun e he => by
        rw [hsplit, List.append_cons]
        exact List.mem_append_left _ he
      have hmem_l := hmem l (List.mem_append_right _ (List.mem_singleton_self l))
      rw [nodeAfter_secret, hsplit, run_nodeStep_secret (s := (node, _)) hl hlast]
      exact (string_run_copySecret
        (fun e he => (h.registered e (hmem e (List.mem_append_left _ he))).2.1)
        ((h.registered l hmem_l).2.2 hknown).1).mpr
        (h.tails pre l post hsplit hknown fun later hlater => hl ▸ hlast later hlater)
    · rw [nodeAfter_status]
      by_cases hcode : response.code = iotxDmErrCodeSuccess
      · by_cases hlisted : ∃ l ∈ data.registered, l.pkdn = node.pkdn
        · exact .inr ⟨if_pos ⟨hcode, .inl hlisted⟩, hcode, hlisted⟩
        · left
          by_cases hfailed : node.pkdn ∈ data.failed
          · rw [if_pos ⟨hcode, .inr hfailed⟩]
            exact ((h.failures hcode node hnode hfailed).resolve_right hlisted).symm
          · exact if_neg fun hboth => hboth.2.elim hlisted hfailed
      · exact .inl (if_neg fun hboth => hcode hboth.1)

end

/-! ## Two devices -/

def letters (n : Nat) : CStr := ⟨List.replicate n 97, by simp⟩

def subDevice (devid : Int) (deviceName : CStr) : DmMgrDevNode :=
  ⟨devid, 1, letters 1, .empty, deviceName, letters 3, .authorized⟩

def twoDevices : DmMgrCtx := ⟨3, [subDevice 1 (letters 1), subDevice 2 (letters 2)]⟩

theorem twoDevices_apart : Apart twoDevices where
  ids := ⟨by unfold DistinctKeys; decide, by decide⟩
  pkdn := by unfold DistinctKeys; decide

def listedItem (name secret : Nat) : RegisterItem :=
  ⟨some (letters 1), some (letters name), some (letters secret)⟩

theorem registerKept_twoDevices :
    Apart twoDevices ∧ RegisterKept ⟨letters 1, 200⟩
      (.proxyRegister (some [listedItem 1 4, listedItem 2 5, listedItem 9 6]) (some []))
      twoDevices := by
  refine ⟨twoDevices_apart, (registerKept_iff twoDevices_apart).mpr ⟨nofun, ?_, nofun, ?_, nofun⟩⟩
  · have hfits : ∀ l ∈ (RegisterData.proxyRegister
        (some [listedItem 1 4, listedItem 2 5, listedItem 9 6]) (some [])).registered,
        l.pkdn.1.strlen ≤ 20 ∧ l.pkdn.2.strlen ≤ 32 ∧ l.deviceSecret.strlen ≤ 64 := by decide
    intro l hl
    obtain ⟨hpk, hdn, hds⟩ := hfits l hl
    exact ⟨⟨hpk, hdn⟩, hds.trans (by decide), fun _ => ⟨hds, by unfold IdFits; decide⟩⟩
  · intro pre l post hsplit _ _ earlier hearlier
    change [(⟨(letters 1, letters 1), letters 4⟩ : Listing), ⟨(letters 1, letters 2), letters 5⟩,
      ⟨(letters 1, letters 9), letters 6⟩] = pre ++ l :: post at hsplit
    rcases pre with _ | ⟨a, _ | ⟨b, _ | ⟨c, pre⟩⟩⟩
    · cases hearlier
    · cases hsplit
      rw [List.mem_singleton.mp hearlier]
      decide
    · cases hsplit
      have hall : ∀ e ∈ [(⟨(letters 1, letters 1), letters 4⟩ : Listing),
          ⟨(letters 1, letters 2), letters 5⟩], e.deviceSecret.strlen ≤ 6 := by decide
      exact hall earlier hearlier
    · have hlen := congrArg List.length hsplit
      simp at hlen

/-- The second device gets the end of the secret before its own; a device is registered
because it is listed among the failures; a name is copied over the end of its array. -/
theorem registration_goes_wrong :
    ¬ RegisterKept ⟨letters 1, 200⟩
        (.subRegister (some [listedItem 1 5, listedItem 2 4])) twoDevices ∧
    ¬ RegisterKept ⟨letters 1, 200⟩
        (.proxyRegister (some []) (some [⟨some (letters 1), some (letters 1), some 6000⟩]))
        twoDevices ∧
    ¬ RegisterKept ⟨letters 1, 200⟩
        (.subRegister (some [listedItem 34 4])) twoDevices := by
  refine ⟨?_, ?_, ?_⟩
  · rintro ⟨res, s, hreply, hkept⟩
    have hsecrets : (registerReply ⟨letters 1, 200⟩
        (.subRegister (some [listedItem 1 5, listedItem 2 4])) twoDevices).map (fun r =>
          r.2.ctx.devList.map DmMgrDevNode.deviceSecret) = some [letters 5, letters 5] := by
      decide
    rw [hreply] at hsecrets
    obtain ⟨first, rest, -, hrest, hlist⟩ := List.forall₂_cons_left_iff.mp hkept
    obtain ⟨second, last, hsecond, -, hrest⟩ := List.forall₂_cons_left_iff.mp hrest
    have hlast := hsecond.secret.last [⟨(letters 1, letters 1), letters 5⟩]
      ⟨(letters 1, letters 2), letters 4⟩ [] rfl rfl nofun
    rw [Option.map_some, hlist, hrest] at hsecrets
    simp only [List.map_cons, Option.some_inj, List.cons.injEq] at hsecrets
    rw [hsecrets.2.1] at hlast
    exact absurd hlast (by decide)
  · rintro ⟨res, s, hreply, hkept⟩
    have hstatus : (registerReply ⟨letters 1, 200⟩
        (.proxyRegister (some []) (some [⟨some (letters 1), some (letters 1), some 6000⟩]))
        twoDevices).map (fun r => r.2.ctx.devList.map DmMgrDevNode.devStatus) =
          some [.registered, .authorized] := by
      decide
    rw [hreply] at hstatus
    obtain ⟨first, rest, hfirst, -, hlist⟩ := List.forall₂_cons_left_iff.mp hkept
    rw [Option.map_some, hlist] at hstatus
    simp only [List.map_cons, Option.some_inj, List.cons.injEq] at hstatus
    rcases hfirst.status with hsame | ⟨-, -, l, hl, -⟩
    · rw [hstatus.1] at hsame
      cases hsame
    · cases hl
  · rintro ⟨res, s, hreply, -⟩
    have hnone : (registerReply ⟨letters 1, 200⟩
        (.subRegister (some [listedItem 34 4])) twoDevices).isNone = true := by decide
    rw [hreply] at hnone
    cases hnone

end AliyunIot.Dm
