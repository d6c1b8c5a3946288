import AliyunIot.Coap.Dispatch
import Mathlib.Data.List.Flatten
import Mathlib.Data.List.TakeWhile

/-!
# Paths and `Uri-Path` options

`CoAPServerPath_2_option` splits a path into `Uri-Path` options, and the request
handler joins them again in an array of 128 bytes. `uriPath_inverse_iff` says for
which requests the resource is looked up under the joined path, and which paths
come back from being split.
-/

namespace AliyunIot.Coap

open Lib

/-! ## Joining -/

def pathText (levels : List (List UInt8)) : List UInt8 := levels.flatMap (chSlash :: ·)

def uriPathValues (options : List OptionView) : List (List UInt8) :=
  (options.filter fun o => o.1 = coapOptionUriPath).map fun o => o.2.2

def joinedPath (options : List OptionView) : List UInt8 := pathText (uriPathValues options)

/-- The bytes of the path array when the options have been run through. -/
def coapPathArray (options : List OptionView) : List UInt8 :=
  let written := coapRequestPath options []
  written ++ List.replicate (coapMsgMaxPathLen - written.length) 0

/-- `CoAPRequestMessage_handle` behind the loop over the options. -/
def coapRequestServe (md5 : List UInt8 → List UInt8) (ctx : CoapContext) (remote : NetworkAddr)
    (message : CoapMessage) (path : CStr) (io : HandleIo) : CoapContext × List CoapEvent :=
  let refuse (errCode : UInt8) :=
    let out := coapErrRespMessageSend ctx remote message errCode io.send
    (out.ctx, out.events)
  match coapResourceByPathGet md5 ctx.resource path with
  | none => refuse coapMsgCode404NotFound
  | some resource =>
    match resource.entry.callback with
    | none => refuse coapMsgCode405MethodNotAllowed
    | some callback =>
      if resource.entry.permission.toNat &&& (1 <<< (message.head.code.toNat - 1)) > 0 then
        if message.head.type = coapMessageTypeCon then
          let out := coapAckMessageSend ctx remote message.head.msgid io.send
          (out.ctx, out.events ++ [.resource callback path remote])
        else (ctx, [.resource callback path remote])
      else refuse coapMsgCode405MethodNotAllowed

theorem coapRequestMessageHandle_eq (md5 : List UInt8 → List UInt8) (ctx : CoapContext)
    (remote : NetworkAddr) (message : CoapMessage) (options : List OptionView) (io : HandleIo) :
    coapRequestMessageHandle md5 ctx remote message options io =
      coapRequestServe md5 ctx remote message (cstrOf (coapRequestPath options [])) io := rfl

/-- Requests with these options are looked up under `path`, which is terminated
inside its array, whatever their header says. -/
structure LookedUp (message : CoapMessage) (buf : Mem) (path : List UInt8) : Prop where
  terminated : 0 ∈ coapPathArray (message.views buf)
  text : (cstrOf (coapRequestPath (message.views buf) [])).val = path
  served : ∀ md5 ctx remote header io,
    coapRequestMessageHandle md5 ctx remote { message with header := header }
        (message.views buf) io =
      coapRequestServe md5 ctx remote { message with header := header } (cstrOf path) io

/-- No request with these options reaches a resource. -/
def PathRefused (message : CoapMessage) (buf : Mem) : Prop :=
  ∀ md5 ctx remote header io callback path,
    CoapEvent.resource callback path remote ∉
      (coapRequestMessageHandle md5 ctx remote { message with header := header }
        (message.views buf) io).2

def PathFits (options : List OptionView) : Prop :=
  (joinedPath options).length < coapMsgMaxPathLen ∧ 0 ∉ joinedPath options

/-- A request is looked up under its joined path where that fits, else rejected. -/
def LookupLaw (message : CoapMessage) (buf : Mem) : Prop :=
  (PathFits (message.views buf) → LookedUp message buf (joinedPath (message.views buf))) ∧
    (¬ PathFits (message.views buf) → PathRefused message buf)

theorem joinedPath_cons (o : OptionView) (options : List OptionView) :
    joinedPath (o :: options) =
      (if o.1 = coapOptionUriPath then chSlash :: o.2.2 else []) ++ joinedPath options := by
  unfold joinedPath uriPathValues pathText
  rw [List.filter_cons]
  by_cases ho : o.1 = coapOptionUriPath
  · rw [if_pos (decide_eq_true ho), if_pos ho, List.map_cons, List.flatMap_cons]
  · rw [if_neg (by simpa using ho), if_neg ho, List.nil_append]

theorem strncpyBytes_eq {val : List UInt8} (h : 0 ∉ val) : strncpyBytes val = val := by
  have htext : val.takeWhile (· ≠ 0) = val := by
    rw [List.takeWhile_eq_self_iff]
    intro b hb
    exact decide_eq_true fun h0 => h (h0 ▸ hb)
  unfold strncpyBytes
  rw [htext]
  simp

theorem cstrOf_val {bytes : List UInt8} (h : 0 ∉ bytes) : (cstrOf bytes).val = bytes := by
  show bytes.takeWhile _ = bytes
  rw [List.takeWhile_eq_self_iff]
  intro b hb
  exact decide_eq_true fun h0 => h (h0 ▸ hb)

theorem coapRequestPath_of_fits {options : List OptionView}
    (hlen : ∀ o ∈ options, o.2.2.length = o.2.1.toNat) {path : List UInt8}
    (hfit : path.length + (joinedPath options).length < coapMsgMaxPathLen)
    (hnul : 0 ∉ joinedPath options) :
    coapRequestPath options path = path ++ joinedPath options := by
  induction options generalizing path with
  | nil => exact (List.append_nil path).symm
  | cons o options ih =>
    obtain ⟨num, len, val⟩ := o
    have ho : val.length = len.toNat := hlen _ List.mem_cons_self
    have ih := fun path => @ih (fun o ho => hlen o (List.mem_cons_of_mem _ ho)) path
    rw [joinedPath_cons] at hfit hnul ⊢
    rw [coapRequestPath]
    by_cases hnum : num = coapOptionUriPath
    · rw [if_pos hnum] at hfit hnul ⊢
      rw [List.length_append, List.length_cons] at hfit
      rw [List.mem_append, not_or, List.mem_cons, not_or] at hnul
      have hroom : coapMsgMaxPathLen - 1 ≥ path.length + len.toNat := by
        simp only [coapMsgMaxPathLen, ho] at hfit ⊢
        omega
      rw [if_pos ⟨hnum, hroom⟩, strncpyBytes_eq hnul.1.2, ih _ ?_ hnul.2, List.append_assoc]
      rw [List.length_append, List.length_cons]
      omega
    · rw [if_neg hnum, List.nil_append] at hfit hnul ⊢
      rw [if_neg (fun h => hnum h.1)]
      exact ih _ hfit hnul

theorem zero_mem_coapPathArray {options : List OptionView}
    (h : (coapRequestPath options []).length < coapMsgMaxPathLen) : 0 ∈ coapPathArray options := by
  apply List.mem_append_right
  rw [List.mem_replicate]
  exact ⟨by omega, rfl⟩

theorem length_views {message : CoapMessage} {buf : Mem} :
    ∀ o ∈ message.views buf, o.2.2.length = o.2.1.toNat := by
  intro o ho
  obtain ⟨opt, -, rfl⟩ := List.mem_map.mp ho
  exact length_slice _ _ _

theorem coapRequestServe_found {md5 : List UInt8 → List UInt8} {ctx : CoapContext}
    {remote : NetworkAddr} {message : CoapMessage} {path : CStr} {io : HandleIo}
    {resource : CoapResource} {callback : Nat}
    (hget : coapResourceByPathGet md5 ctx.resource path = some resource)
    (hcallback : resource.entry.callback = some callback)
    (hpermit : resource.entry.permission.toNat &&& (1 <<< (message.head.code.toNat - 1)) > 0)
    (hnon : message.head.type ≠ coapMessageTypeCon) :
    coapRequestServe md5 ctx remote message path io =
      (ctx, [.resource callback path remote]) := by
  unfold coapRequestServe
  rw [hget]
  dsimp only
  rw [hcallback]
  dsimp only
  rw [if_pos hpermit, if_neg hnon]

/-- A context whose one resource answers to `path` and may be read. -/
def answering (path : CStr) : CoapContext where
  messageId := 0
  sendlist := ⟨[], 0, 0⟩
  obsserver := ⟨[], 0, 0⟩
  obsclient := ⟨[], 0, 0⟩
  resource := ⟨[⟨⟨1, 0, 0, some 0⟩, coapPathMd5Sum id path, none, .normal⟩], 1, 1⟩
  nextId := 0

theorem not_pathRefused (message : CoapMessage) (buf : Mem) : ¬ PathRefused message buf := by
  intro h
  let path := cstrOf (coapRequestPath (message.views buf) [])
  have hget : coapResourceByPathGet id (answering path).resource path =
      some ⟨⟨1, 0, 0, some 0⟩, coapPathMd5Sum id path, none, .normal⟩ := by
    unfold coapResourceByPathGet answering answersPath
    rw [List.find?_cons_of_pos (by simp)]
  have hserve (io : HandleIo) :
      coapRequestServe id (answering path) ⟨[], 0⟩
          { message with header := some ⟨1, 1, 0, coapMsgCodeGet, 0⟩ } path io =
        (answering path, [.resource 0 path ⟨[], 0⟩]) :=
    coapRequestServe_found hget rfl (show 1 &&& (1 <<< 0) > 0 by decide)
      (show (1 : UInt8) ≠ coapMessageTypeCon by decide)
  apply h id (answering path) ⟨[], 0⟩ (some ⟨1, 1, 0, coapMsgCodeGet, 0⟩)
    ⟨⟨true, 0, true, false, 0⟩, true⟩ 0 path
  rw [coapRequestMessageHandle_eq, hserve]
  exact List.mem_singleton.mpr rfl

theorem lookupLaw_iff (message : CoapMessage) (buf : Mem) :
    LookupLaw message buf ↔ PathFits (message.views buf) := by
  constructor
  · intro h
    by_contra hfit
    exact not_pathRefused message buf (h.2 hfit)
  · intro hfit
    refine ⟨fun _ => ?_, fun h => absurd hfit h⟩
    have hpath : coapRequestPath (message.views buf) [] = joinedPath (message.views buf) :=
      coapRequestPath_of_fits length_views (by simpa using hfit.1) hfit.2
    refine ⟨zero_mem_coapPathArray (hpath ▸ hfit.1), ?_, fun md5 ctx remote header io => ?_⟩
    · rw [hpath, cstrOf_val hfit.2]
    · rw [coapRequestMessageHandle_eq, hpath]

/-! ## Splitting -/

/-- What `strncpy` leaves of a level in the zeroed `path` of 128 bytes. -/
def pathBlock (level : List UInt8) : Block :=
  ⟨level.take (coapMsgMaxPathLen - 1), by
    rw [List.length_take]
    exact Nat.lt_of_le_of_lt (Nat.min_le_left _ _) (by decide)⟩

section
variable (malloc : Nat → Bool)

/-- `CoAPStrOption_add` with the next level, its result not looked at. The state
counts the calls, and `malloc k` is whether the allocation of call `k` succeeds. -/
def addLevel (s : OutMessage × Nat) (level : List UInt8) : OutMessage × Nat :=
  ((coapStrOptionAdd s.1 coapOptionUriPath (pathBlock level) (malloc s.2)).2, s.2 + 1)

/-- The loop of `CoAPServerPath_2_option` from `ptr` on; `seg` are the bytes from
`pstr` to `ptr`. -/
def pathLoop : List UInt8 → List UInt8 → OutMessage × Nat → OutMessage × Nat
  | [], _, s => s
  | c :: rest, seg, s =>
    let s := if c = chSlash ∧ seg ≠ [] then addLevel malloc s seg else s
    let seg := if c = chSlash then [] else seg ++ [c]
    let s := if rest = [] ∧ seg ≠ [] then addLevel malloc s seg else s
    pathLoop rest seg s

def coapServerPath2Option (uri : CStr) (message : OutMessage) : Int × OutMessage :=
  if coapMsgMaxPathLen ≤ uri.strlen then (coapErrorInvalidLength, message)
  else (coapSuccess, (pathLoop malloc uri.val [] (message, 0)).1)

/-- The levels that become options when `room` are free, `k` calls in. -/
def kept : Nat → Nat → List (List UInt8) → List (List UInt8)
  | _, _, [] => []
  | room, k, level :: levels =>
    if 0 < room ∧ malloc k = true then level :: kept (room - 1) (k + 1) levels
    else kept room (k + 1) levels

end

/-- The options of a message as they are decoded: the numbers are sums of deltas. -/
def numbered : UInt16 → List OutOption → List OptionView
  | _, [] => []
  | num, o :: os => (num + o.num, o.len, o.val.getD []) :: numbered (num + o.num) os

/-- A path with or without a leading slash whose levels are not empty, short
enough for `CoAPServerPath_2_option`. -/
structure LevelPath where
  levels : List (List UInt8)
  lead : Bool
  level_ne : ∀ level ∈ levels, level ≠ [] ∧ chSlash ∉ level ∧ 0 ∉ level
  short : (if lead then pathText levels else (pathText levels).tail).length < coapMsgMaxPathLen

def LevelPath.text (p : LevelPath) : List UInt8 :=
  if p.lead then pathText p.levels else (pathText p.levels).tail

theorem LevelPath.head_of_not_lead (p : LevelPath) (hlead : ¬ p.lead = true)
    (hlevels : p.levels ≠ []) : ∃ b ∈ p.text.head?, b ≠ chSlash := by
  obtain ⟨level, levels, heq⟩ := List.exists_cons_of_ne_nil hlevels
  obtain ⟨hne, hslash, -⟩ := p.level_ne level (heq ▸ List.mem_cons_self)
  obtain ⟨b, level, rfl⟩ := List.exists_cons_of_ne_nil hne
  rw [List.mem_cons, not_or] at hslash
  unfold LevelPath.text
  rw [if_neg hlead, heq]
  exact ⟨b, rfl, Ne.symm hslash.1⟩

abbrev NewMessage := {m : OutMessage // m.options = [] ∧ m.optdelta = 0}

theorem zero_not_mem_pathText {levels : List (List UInt8)} (h : ∀ level ∈ levels, 0 ∉ level) :
    0 ∉ pathText levels := by
  intro hmem
  obtain ⟨level, hlevel, hb⟩ := List.mem_flatMap.mp hmem
  rcases List.mem_cons.mp hb with hslash | hb
  · exact absurd hslash (by decide)
  · exact h level hlevel hb

theorem LevelPath.zero_not_mem_text (p : LevelPath) : 0 ∉ p.text := by
  have h := zero_not_mem_pathText fun level hlevel => (p.level_ne level hlevel).2.2
  unfold LevelPath.text
  split
  · exact h
  · exact fun hmem => h (List.mem_of_mem_tail hmem)

theorem LevelPath.level_short (p : LevelPath) :
    ∀ level ∈ p.levels, level.length < coapMsgMaxPathLen := by
  intro level hlevel
  have hpart : (chSlash :: level).length ≤ (pathText p.levels).length :=
    (List.sublist_flatten_of_mem (List.mem_map_of_mem hlevel)).length_le
  have htext := p.short
  rw [List.length_cons] at hpart
  split at htext
  · omega
  · rw [List.length_tail] at htext
    omega

def LevelPath.uri (p : LevelPath) : CStr := ⟨p.text, p.zero_not_mem_text⟩

def splitViews (malloc : Nat → Bool) (m : NewMessage) (p : LevelPath) : List OptionView :=
  numbered 0 (coapServerPath2Option malloc p.uri m.1).2.options

/-- The options, joined again, are the path. -/
structure RoundTrips (malloc : Nat → Bool) (m : NewMessage) (p : LevelPath) : Prop where
  terminated : 0 ∈ coapPathArray (splitViews malloc m p)
  text : (cstrOf (coapRequestPath (splitViews malloc m p) [])).val = p.text

/-! ## What the split keeps -/

section
variable (malloc : Nat → Bool)

theorem pathLoop_level {level rest : List UInt8} (hslash : chSlash ∉ level) (hrest : rest ≠ [])
    (seg : List UInt8) (s : OutMessage × Nat) :
    pathLoop malloc (level ++ rest) seg s = pathLoop malloc rest (seg ++ level) s := by
  induction level generalizing seg with
  | nil => rw [List.append_nil, List.nil_append]
  | cons c level ih =>
    rw [List.mem_cons, not_or] at hslash
    have hc : c ≠ chSlash := Ne.symm hslash.1
    have hmore : level ++ rest ≠ [] := List.append_ne_nil_of_right_ne_nil _ hrest
    rw [List.cons_append, pathLoop, if_neg hc, if_neg (fun h => hmore h.1),
      if_neg (fun h => hc h.1), ih hslash.2, List.append_assoc, List.singleton_append]

theorem pathLoop_last {level : List UInt8} (hslash : chSlash ∉ level) (hne : level ≠ [])
    (seg : List UInt8) (s : OutMessage × Nat) :
    pathLoop malloc level seg s = addLevel malloc s (seg ++ level) := by
  obtain ⟨init, c, rfl⟩ : ∃ init c, level = init ++ [c] :=
    ⟨_, _, (List.dropLast_concat_getLast hne).symm⟩
  rw [List.mem_append, not_or, List.mem_singleton] at hslash
  have hc : c ≠ chSlash := Ne.symm hslash.2
  rw [pathLoop_level malloc hslash.1 (List.cons_ne_nil _ _), pathLoop, if_neg hc,
    if_pos ⟨rfl, by simp⟩, if_neg (fun h => hc h.1), pathLoop, List.append_assoc]

theorem pathLoop_pathText {levels : List (List UInt8)} (hne : levels ≠ [])
    (h : ∀ level ∈ levels, level ≠ [] ∧ chSlash ∉ level) (seg : List UInt8) (s : OutMessage × Nat) :
    pathLoop malloc (pathText levels) seg s =
      levels.foldl (addLevel malloc) (if seg = [] then s else addLevel malloc s seg) := by
  induction levels generalizing seg s with
  | nil => exact absurd rfl hne
  | cons level levels ih =>
    obtain ⟨hlevel, hslash⟩ := h level List.mem_cons_self
    have htext : pathText (level :: levels) = chSlash :: (level ++ pathText levels) := rfl
    have hmore : level ++ pathText levels ≠ [] := List.append_ne_nil_of_left_ne_nil hlevel _
    have hfirst : pathLoop malloc (pathText (level :: levels)) seg s =
        pathLoop malloc (level ++ pathText levels) []
          (if seg = [] then s else addLevel malloc s seg) := by
      rw [htext, pathLoop, if_pos rfl, if_neg (fun h => h.2 rfl)]
      by_cases hseg : seg = []
      · rw [if_neg (fun h => h.2 hseg), if_pos hseg]
      · rw [if_pos ⟨rfl, hseg⟩, if_neg hseg]
    rw [hfirst, List.foldl_cons]
    by_cases hlevels : levels = []
    · subst hlevels
      have hlast : level ++ pathText [] = level := List.append_nil level
      rw [hlast, pathLoop_last malloc hslash hlevel, List.nil_append]
      rfl
    · have hrest : pathText levels ≠ [] := by
        obtain ⟨l, ls, rfl⟩ := List.exists_cons_of_ne_nil hlevels
        exact List.cons_ne_nil _ _
      rw [pathLoop_level malloc hslash hrest, List.nil_append,
        ih hlevels (fun l hl => h l (List.mem_cons_of_mem _ hl)), if_neg hlevel]

theorem pathLoop_text (p : LevelPath) (s : OutMessage × Nat) :
    pathLoop malloc p.text [] s = p.levels.foldl (addLevel malloc) s := by
  obtain ⟨levels, lead, hne, hshort⟩ := p
  have h : ∀ level ∈ levels, level ≠ [] ∧ chSlash ∉ level :=
    fun level hlevel => ⟨(hne level hlevel).1, (hne level hlevel).2.1⟩
  cases levels with
  | nil => cases lead <;> rfl
  | cons level levels =>
    have hfull := pathLoop_pathText malloc (List.cons_ne_nil level levels) h [] s
    rw [if_pos rfl] at hfull
    cases lead with
    | true => exact hfull
    | false =>
      -- The slash that is missing would only have moved `pstr`.
      have hmore : level ++ pathText levels ≠ [] :=
        List.append_ne_nil_of_left_ne_nil (h level List.mem_cons_self).1 _
      rw [← hfull]
      show pathLoop malloc (level ++ pathText levels) [] s =
        pathLoop malloc (chSlash :: (level ++ pathText levels)) [] s
      rw [pathLoop, if_pos rfl, if_neg (fun h => h.2 rfl),
        if_neg (fun h => h.2 rfl)]

/-! ## The options of the levels -/

def levelView (level : List UInt8) : OptionView :=
  (coapOptionUriPath, UInt16.ofNat level.length, level)

theorem numbered_concat (num : UInt16) (os : List OutOption) (o : OutOption) :
    numbered num (os ++ [o]) =
      numbered num os ++
        [(os.foldl (fun n o => n + o.num) num + o.num, o.len, o.val.getD [])] := by
  induction os generalizing num with
  | nil => rfl
  | cons a os ih =>
    rw [List.cons_append, numbered, numbered, ih, List.cons_append, List.foldl_cons]

/-- The running number of the options is the one the next delta is taken from. -/
def InStep (m : OutMessage) : Prop :=
  m.options.foldl (fun n o => n + o.num) 0 = m.optdelta.toUInt16

theorem addLevel_lost {s : OutMessage × Nat} (level : List UInt8)
    (h : ¬ (s.1.options.length < coapMsgMaxOptionNum ∧ malloc s.2 = true)) :
    addLevel malloc s level = (s.1, s.2 + 1) := by
  unfold addLevel coapStrOptionAdd
  split
  · rfl
  · next hroom =>
    rw [if_neg (fun hm => h ⟨Nat.lt_of_not_le hroom, hm⟩)]

theorem addLevel_kept {s : OutMessage × Nat} {level : List UInt8}
    (h : s.1.options.length < coapMsgMaxOptionNum ∧ malloc s.2 = true) (hs : InStep s.1)
    (hshort : level.length < coapMsgMaxPathLen) :
    numbered 0 (addLevel malloc s level).1.options =
        numbered 0 s.1.options ++ [levelView level] ∧
      (addLevel malloc s level).1.options.length = s.1.options.length + 1 ∧
      InStep (addLevel malloc s level).1 ∧ (addLevel malloc s level).2 = s.2 + 1 := by
  have hblock : (pathBlock level).1 = level :=
    List.take_of_length_le (by simp only [coapMsgMaxPathLen] at hshort ⊢; omega)
  have hnum : s.1.optdelta.toUInt16 + (coapOptionUriPath - s.1.optdelta.toUInt16) =
      coapOptionUriPath := by
    rw [UInt16.add_comm, UInt16.sub_add_cancel]
  unfold addLevel coapStrOptionAdd
  rw [dif_neg (Nat.not_le_of_lt h.1), if_pos h.2]
  refine ⟨?_, List.length_append, ?_, rfl⟩
  · show numbered 0 (s.1.options ++ [_]) = _
    rw [numbered_concat, hs, hnum]
    show _ ++ [(coapOptionUriPath, UInt16.ofNat (pathBlock level).1.length,
      (pathBlock level).1)] = _
    rw [hblock]
    rfl
  · show (s.1.options ++ [_]).foldl _ 0 = coapOptionUriPath.toUInt8.toUInt16
    rw [List.foldl_concat, hs, hnum]
    rfl

theorem numbered_split {levels : List (List UInt8)}
    (hshort : ∀ level ∈ levels, level.length < coapMsgMaxPathLen) {s : OutMessage × Nat}
    (hs : InStep s.1) :
    numbered 0 (levels.foldl (addLevel malloc) s).1.options =
      numbered 0 s.1.options ++
        (kept malloc (coapMsgMaxOptionNum - s.1.options.length) s.2 levels).map levelView := by
  induction levels generalizing s with
  | nil => exact (List.append_nil _).symm
  | cons level levels ih =>
    have hrest := fun l hl => hshort l (List.mem_cons_of_mem _ hl)
    rw [List.foldl_cons, kept]
    by_cases h : s.1.options.length < coapMsgMaxOptionNum ∧ malloc s.2 = true
    · obtain ⟨hview, hlength, hstep, hcount⟩ :=
        addLevel_kept malloc h hs (hshort level List.mem_cons_self)
      have hroom : 0 < coapMsgMaxOptionNum - s.1.options.length ∧ malloc s.2 = true :=
        ⟨Nat.sub_pos_of_lt h.1, h.2⟩
      rw [ih hrest hstep, hview, hlength, hcount, if_pos hroom, List.append_assoc,
        List.map_cons, List.singleton_append, Nat.sub_sub]
    · have hroom : ¬ (0 < coapMsgMaxOptionNum - s.1.options.length ∧ malloc s.2 = true) :=
        fun hr => h ⟨Nat.lt_of_sub_pos hr.1, hr.2⟩
      have hlost := @ih hrest (s.1, s.2 + 1) hs
      rw [addLevel_lost malloc level h, hlost, if_neg hroom]

theorem kept_sublist (room k : Nat) (levels : List (List UInt8)) :
    (kept malloc room k levels).Sublist levels := by
  induction levels generalizing room k with
  | nil => exact List.Sublist.slnil
  | cons level levels ih =>
    rw [kept]
    split
    · exact (ih _ _).cons_cons _
    · exact (ih _ _).cons _

theorem kept_eq_iff (room k : Nat) (levels : List (List UInt8)) :
    kept malloc room k levels = levels ↔
      levels.length ≤ room ∧ ∀ i < levels.length, malloc (k + i) = true := by
  induction levels generalizing room k with
  | nil => exact iff_of_true rfl ⟨Nat.zero_le _, fun i hi => absurd hi (Nat.not_lt_zero i)⟩
  | cons level levels ih =>
    rw [kept, List.length_cons]
    by_cases h : 0 < room ∧ malloc k = true
    · rw [if_pos h, List.cons_inj_right, ih]
      constructor
      · rintro ⟨hroom, hall⟩
        refine ⟨by omega, fun i hi => ?_⟩
        cases i with
        | zero => exact h.2
        | succ i =>
          rw [show k + (i + 1) = k + 1 + i by omega]
          exact hall i (by omega)
      · rintro ⟨hroom, hall⟩
        refine ⟨by omega, fun i hi => ?_⟩
        rw [show k + 1 + i = k + (i + 1) by omega]
        exact hall (i + 1) (by omega)
    · rw [if_neg h]
      refine iff_of_false (fun heq => ?_) fun hall => h ⟨by omega, hall.2 0 (by omega)⟩
      have := (kept_sublist malloc room (k + 1) levels).length_le
      rw [heq, List.length_cons] at this
      omega

theorem splitViews_eq (m : NewMessage) (p : LevelPath) :
    splitViews malloc m p = (kept malloc coapMsgMaxOptionNum 0 p.levels).map levelView := by
  have hstep : InStep m.1 := by
    unfold InStep
    rw [m.2.1, m.2.2]
    rfl
  have hfits : ¬ coapMsgMaxPathLen ≤ p.uri.strlen := Nat.not_le_of_lt p.short
  unfold splitViews coapServerPath2Option
  rw [if_neg hfits]
  show numbered 0 (pathLoop malloc p.text [] (m.1, 0)).1.options = _
  rw [pathLoop_text, numbered_split malloc p.level_short hstep, m.2.1]
  rfl

end

theorem joinedPath_levelView (levels : List (List UInt8)) :
    joinedPath (levels.map levelView) = pathText levels := by
  induction levels with
  | nil => rfl
  | cons level levels ih =>
    have hnum : (levelView level).1 = coapOptionUriPath := rfl
    rw [List.map_cons, joinedPath_cons, ih, if_pos hnum]
    rfl

theorem eq_of_pathText_eq {xs ys : List (List UInt8)} (h : xs.Sublist ys)
    (heq : pathText xs = pathText ys) : xs = ys := by
  induction h with
  | slnil => rfl
  | cons level h _ =>
    have hle : (pathText _).length ≤ (pathText _).length := (h.flatMap (chSlash :: ·)).length_le
    have hlen := congrArg List.length heq
    unfold pathText at hlen hle
    rw [List.flatMap_cons, List.length_append, List.length_cons] at hlen
    omega
  | cons_cons level _ ih =>
    unfold pathText at heq ih
    rw [List.flatMap_cons, List.flatMap_cons, List.append_cancel_left_eq] at heq
    rw [ih heq]

theorem head_coapRequestPath {options : List OptionView} {path : List UInt8}
    (h : ∀ b ∈ path.head?, b = chSlash) :
    ∀ b ∈ (coapRequestPath options path).head?, b = chSlash := by
  induction options generalizing path with
  | nil => exact h
  | cons o options ih =>
    obtain ⟨num, len, val⟩ := o
    rw [coapRequestPath]
    split
    · apply ih
      cases path with
      | nil =>
        rintro b ⟨⟩
        rfl
      | cons c path => exact h
    · exact ih h

theorem pathRoundTrips_iff (malloc : Nat → Bool) (m : NewMessage) (p : LevelPath) :
    RoundTrips malloc m p ↔
      (p.lead = true ∨ p.levels = []) ∧ p.levels.length ≤ coapMsgMaxOptionNum ∧
        ∀ k < p.levels.length, malloc k = true := by
  let ks := kept malloc coapMsgMaxOptionNum 0 p.levels
  have hsub : ks.Sublist p.levels := kept_sublist malloc _ _ _
  have hkept : ks = p.levels ↔ p.levels.length ≤ coapMsgMaxOptionNum ∧
      ∀ k < p.levels.length, malloc k = true := by
    rw [kept_eq_iff]
    simp only [Nat.zero_add]
  have hjoin : joinedPath (splitViews malloc m p) = pathText ks := by
    rw [splitViews_eq, joinedPath_levelView]
  have hlen : ∀ o ∈ splitViews malloc m p, o.2.2.length = o.2.1.toNat := by
    rw [splitViews_eq]
    intro o ho
    obtain ⟨level, hlevel, rfl⟩ := List.mem_map.mp ho
    have hshort := p.level_short level (hsub.subset hlevel)
    have hsize : level.length < UInt16.size := Nat.lt_trans hshort (by decide)
    exact (UInt16.toNat_ofNat_of_lt' hsize).symm
  have hnul : 0 ∉ pathText ks :=
    zero_not_mem_pathText fun level hlevel => (p.level_ne level (hsub.subset hlevel)).2.2
  -- The levels kept are written whole where they fit.
  have hwhole (hfit : (pathText ks).length < coapMsgMaxPathLen) :
      coapRequestPath (splitViews malloc m p) [] = pathText ks := by
    rw [coapRequestPath_of_fits hlen (by rw [hjoin]; simpa using hfit) (hjoin ▸ hnul), hjoin,
      List.nil_append]
  have hle : (pathText ks).length ≤ (pathText p.levels).length :=
    (hsub.flatMap (chSlash :: ·)).length_le
  have hshort := p.short
  constructor
  · rintro ⟨-, htext⟩
    by_cases hlevels : p.levels = []
    · exact ⟨.inr hlevels, hkept.mp (by rw [show ks = kept malloc _ _ _ from rfl, hlevels, kept])⟩
    by_cases hlead : p.lead = true
    · rw [if_pos hlead] at hshort
      rw [hwhole (Nat.lt_of_le_of_lt hle hshort), cstrOf_val hnul, LevelPath.text,
        if_pos hlead] at htext
      exact ⟨.inl hlead, hkept.mp (eq_of_pathText_eq hsub htext)⟩
    · -- What is joined starts with a slash, the path does not.
      obtain ⟨b, hb, hne⟩ := p.head_of_not_lead hlead hlevels
      rw [← htext] at hb
      have hempty : ∀ b ∈ ([] : List UInt8).head?, b = chSlash := fun b hb => by cases hb
      exfalso
      apply hne
      apply head_coapRequestPath hempty b
      have hhead : b ∈ (coapRequestPath (splitViews malloc m p) []).head?.filter (· ≠ 0) := by
        rw [← List.head?_takeWhile]
        exact hb
      exact Option.eq_some_of_filter_eq_some hhead
  · rintro ⟨hlead, hall⟩
    have hks : ks = p.levels := hkept.mpr hall
    have htext : p.text = pathText p.levels := by
      unfold LevelPath.text
      rcases hlead with hlead | hlevels
      · rw [if_pos hlead]
      · rw [hlevels]
        split <;> rfl
    have hfit : (pathText ks).length < coapMsgMaxPathLen := by
      rw [hks, ← htext]
      exact p.short
    refine ⟨zero_mem_coapPathArray (by rw [hwhole hfit]; exact hfit), ?_⟩
    rw [hwhole hfit, cstrOf_val hnul, hks, htext]

/-- **Uri-Path.** The law of the lookup holds for a request exactly if its joined
path fits the array as a string; a path comes back from being split exactly if it
starts with a slash or is empty and none of its levels is lost. -/
theorem uriPath_inverse_iff (message : CoapMessage) (buf : Nat → UInt8) (malloc : Nat → Bool)
    (m : NewMessage) (p : LevelPath) :
    (LookupLaw message buf ↔ PathFits (message.views buf)) ∧
      (RoundTrips malloc m p ↔
        (p.lead = true ∨ p.levels = []) ∧ p.levels.length ≤ coapMsgMaxOptionNum ∧
          ∀ k < p.levels.length, malloc k = true) :=
  ⟨lookupLaw_iff message buf, pathRoundTrips_iff malloc m p⟩

/-- One `Uri-Path` of 127 bytes, which the slash makes 128. -/
def longSegment : CoapMessage := { options := [⟨coapOptionUriPath, 127, 0⟩] }

/-- `/a`, thirteen times. -/
def thirteenLevels : LevelPath where
  levels := List.replicate 13 [0x61]
  lead := true
  level_ne := by decide
  short := by decide

/-- The array is filled without a terminator and nothing is rejected; a value with
a NUL is looked up under the text before it; the thirteenth level is lost. -/
theorem uriPath_not_inverse :
    (¬ LookupLaw longSegment (fun _ => 0x61) ∧
      0 ∉ coapPathArray (longSegment.views fun _ => 0x61)) ∧
    (¬ LookupLaw { options := [⟨coapOptionUriPath, 3, 0⟩] } (fun i => [0x61, 0, 0x62].getD i 0) ∧
      (cstrOf (coapRequestPath (CoapMessage.views { options := [⟨coapOptionUriPath, 3, 0⟩] }
        fun i => [0x61, 0, 0x62].getD i 0) [])).val = [chSlash, 0x61]) ∧
    ¬ RoundTrips (fun _ => true) ⟨coapMessageInit, rfl, rfl⟩ thirteenLevels := by
  refine ⟨⟨?_, by decide +kernel⟩, ⟨?_, by decide +kernel⟩, fun h => ?_⟩
  · rw [lookupLaw_iff]
    exact fun h => absurd h.1 (by decide +kernel)
  · rw [lookupLaw_iff]
    exact fun h => absurd h.2 (by decide)
  · have := ((pathRoundTrips_iff _ _ _).mp h).2.1
    exact absurd this (by decide)

end AliyunIot.Coap
