import AliyunIot.Coap.Registry
import AliyunIot.Lib.Run
import Mathlib.Data.List.Nodup

/-!
# The resource table serves a registry

`Shows` ties a table to a registry through the list of registrations it stands
for. A call of `CoAPResource_register` keeps it (`shows_step`) under the
condition `RegisterOk`, and from it come the lookups (`resources_served`).
-/

namespace AliyunIot.Coap

open Lib

/-! ## Runs of registrations -/

/-- The checksums of the paths in use tell them apart and are not all zero. -/
structure SumsDistinct (md5 : List UInt8 → List UInt8) (used : CStr → Prop) : Prop where
  inj : ∀ p q, used p → used q → coapPathMd5Sum md5 p = coapPathMd5Sum md5 q → p = q
  ne_zero : ∀ p, used p → coapPathMd5Sum md5 p ≠ List.replicate coapPathDefaultSumLen 0

/-- A call of `CoAPResource_register`. -/
structure RegisterCall where
  path : CStr
  entry : ResourceEntry
  io : CreateIo

def CoapList.filters (t : ResourceList) : List CStr := t.list.filterMap CoapResource.filterPath

section
variable (md5 : List UInt8 → List UInt8) (used : CStr → Prop)

/-- The call on the table, and on the registry if it returns `COAP_SUCCESS`. -/
def registerStep (s : ResourceList × Registry) (c : RegisterCall) : ResourceList × Registry :=
  let res := coapResourceRegister md5 s.1 c.path c.entry c.io
  (res.2, if res.1 = coapSuccess then s.2.register c.path.val c.entry else s.2)

/-- A new node can be created: the path is not too long and nothing fails. -/
def Creates (c : RegisterCall) : Prop :=
  c.path.strlen < coapMsgMaxPathLen ∧ c.io.node = true ∧
    (hasFilterMark c.path → c.io.filterPath = true)

/-- What a call needs in a table with room. A filter has its mark at the end, and
the first filter listed that starts with its text, if any, is itself. A new path
is answered by no filter listed. What is new can be created. -/
def RegisterOk (t : ResourceList) (c : RegisterCall) : Prop :=
  t.count < t.maxcount →
    if hasFilterMark c.path then
      (filterBase c.path.val).isSome ∧
        (∀ f ∈ t.filters.find? (fun f => c.path.val.isPrefixOf f.val), f = c.path) ∧
        (c.path ∉ t.filters → Creates c)
    else
      used c.path ∧
        ((∀ node ∈ t.list, node.path ≠ coapPathMd5Sum md5 c.path) →
          (∀ f ∈ t.filters, coapResourceTopicFilterMatch f c.path = false) ∧ Creates c)

/-- A lookup is of a path in use, and not of the bare `p/` of a filter `p/#`. -/
def LookupOk (t : ResourceList) (r : Registry) (path : CStr) : Prop :=
  used path ∧ (r.exact path.val ≠ none ∨ ∀ f ∈ t.filters, f.val ≠ path.val ++ [chHash])

structure Serves (t : ResourceList) (r : Registry) : Prop where
  count : t.count.toNat = t.list.length
  bounded : t.list.length ≤ t.maxcount.toNat
  distinct : (t.list.map fun node => (node.path, node.filterPath)).Nodup
  lookup : ∀ path, LookupOk used t r path →
    (coapResourceByPathGet md5 t path).map CoapResource.entry = r.lookup path.val
  exact : ∀ path, used path → r.exact path.val ≠ none →
    ∃ node, coapResourceByPathGet md5 t path = some node ∧ node.pathType = .normal
  error : ∀ c : RegisterCall, (coapResourceRegister md5 t c.path c.entry c.io).1 ≠ coapSuccess →
    (coapResourceRegister md5 t c.path c.entry c.io).2 = t

end

theorem register_of_error (md5 : List UInt8 → List UInt8) (t : ResourceList) (c : RegisterCall)
    (h : (coapResourceRegister md5 t c.path c.entry c.io).1 ≠ coapSuccess) :
    (coapResourceRegister md5 t c.path c.entry c.io).2 = t := by
  unfold coapResourceRegister at h ⊢
  by_cases hc : t.count ≥ t.maxcount
  · rw [if_pos hc]
  · rw [if_neg hc] at h
    exfalso
    revert h
    dsimp only
    split
    · exact fun h => h rfl
    · split <;> exact fun h => h rfl

/-! ## The registrations a table stands for -/

/-- A registration: its path, and what is attached to it. -/
abbrev Item := CStr × ResourceEntry

def Item.node (md5 : List UInt8 → List UInt8) (i : Item) : CoapResource :=
  if hasFilterMark i.1 then
    ⟨i.2, List.replicate coapPathDefaultSumLen 0, some i.1, .filter⟩
  else ⟨i.2, coapPathMd5Sum md5 i.1, none, .normal⟩

def entryOf (items : List Item) (text : List UInt8) : Option ResourceEntry :=
  (items.find? fun i => i.1.val = text).map Prod.snd

/-- The table is the list of these registrations, and the registry holds them. -/
structure Shows (md5 : List UInt8 → List UInt8) (used : CStr → Prop) (items : List Item)
    (t : ResourceList) (r : Registry) : Prop where
  list : t.list = items.map (Item.node md5)
  count : t.count.toNat = items.length
  bounded : items.length ≤ t.maxcount.toNat
  nodup : (items.map Prod.fst).Nodup
  used : ∀ p ∈ items.map Prod.fst, ¬ hasFilterMark p → used p
  marked : ∀ p ∈ items.map Prod.fst, hasFilterMark p → (filterBase p.val).isSome
  order : (items.map Prod.fst).Pairwise fun f p =>
    hasFilterMark f → ¬ hasFilterMark p → coapResourceTopicFilterMatch f p = false
  exact : ∀ text, r.exact text = if (filterBase text).isSome then none else entryOf items text
  filter : ∀ p, r.filter p = entryOf items (filterOf p)

theorem topicFilterMatch_iff {filter topic : CStr} {p : List UInt8}
    (h : filterBase filter.val = some p) : coapResourceTopicFilterMatch filter topic = true ↔
      ∃ x, x ≠ [] ∧ chSlash ∉ x ∧ topic.val = p ++ chSlash :: x := by
  have hf : filter.val = p ++ [chSlash] ++ [chHash] := by
    rw [filterBase_eq_some_iff.mp h, filterOf, List.append_assoc]
    rfl
  have hlen : filter.strlen - 1 = (p ++ [chSlash]).length := by
    rw [CStr.strlen, hf, List.length_append, List.length_singleton, Nat.add_sub_cancel]
  unfold coapResourceTopicFilterMatch
  rw [hlen, hf, List.take_left, CStr.strlen, Bool.and_eq_true, Bool.and_eq_true,
    List.isPrefixOf_iff_prefix, decide_eq_true_eq, Bool.not_eq_true', List.contains_eq_mem,
    decide_eq_false_iff_not]
  constructor
  · rintro ⟨⟨⟨x, hx⟩, hgt⟩, hno⟩
    rw [← hx] at hgt hno ⊢
    rw [List.drop_left] at hno
    refine ⟨x, ?_, hno, by simp⟩
    rintro rfl
    simp at hgt
  · rintro ⟨x, hne, hno, hx⟩
    have hx' : topic.val = (p ++ [chSlash]) ++ x := by rw [hx]; simp
    rw [hx', List.drop_left]
    refine ⟨⟨⟨x, rfl⟩, ?_⟩, hno⟩
    rw [List.length_append]
    have := List.length_pos_iff.mpr hne
    omega

variable {path : CStr}

theorem hasFilterMark_iff :
    hasFilterMark path = true ↔ [chSlash, chHash] <:+: path.val := decide_eq_true_iff

theorem hasFilterMark_of_filterBase {p : List UInt8}
    (h : filterBase path.val = some p) : hasFilterMark path = true := by
  rw [hasFilterMark_iff, filterBase_eq_some_iff.mp h]
  exact (List.suffix_append _ _).isInfix

section
variable {md5 : List UInt8 → List UInt8} {used : CStr → Prop} {items : List Item}
  {t : ResourceList} {r : Registry}

variable {i : Item}

theorem node_of_mark (h : hasFilterMark i.1 = true) : i.node md5 =
    ⟨i.2, List.replicate coapPathDefaultSumLen 0, some i.1, .filter⟩ := if_pos h

theorem node_of_path (h : ¬ hasFilterMark i.1 = true) :
    i.node md5 = ⟨i.2, coapPathMd5Sum md5 i.1, none, .normal⟩ := if_neg h

@[simp] theorem node_entry (i : Item) : (i.node md5).entry = i.2 := by
  unfold Item.node
  split <;> rfl

theorem pathType_node (i : Item) :
    (i.node md5).pathType = if hasFilterMark i.1 then .filter else .normal := by
  unfold Item.node
  split <;> rfl

theorem filterPath_nodes (md5 : List UInt8 → List UInt8) (items : List Item) :
    (items.map (Item.node md5)).filterMap CoapResource.filterPath =
      (items.map Prod.fst).filter fun p => hasFilterMark p := by
  induction items with
  | nil => rfl
  | cons i items ih =>
    rw [List.map_cons, List.map_cons]
    by_cases hm : hasFilterMark i.1 = true
    · rw [List.filterMap_cons_some (b := i.1) (by rw [node_of_mark hm]), ih,
        List.filter_cons_of_pos hm]
    · rw [List.filterMap_cons_none (by rw [node_of_path hm]), ih, List.filter_cons_of_neg hm]

theorem mem_filters (hs : Shows md5 used items t r) {f : CStr} :
    f ∈ t.filters ↔ (∃ i ∈ items, i.1 = f) ∧ hasFilterMark f = true := by
  rw [CoapList.filters, hs.list, filterPath_nodes, List.mem_filter, List.mem_map]

theorem entryOf_of_mem (hn : (items.map Prod.fst).Nodup) (hi : i ∈ items) :
    entryOf items i.1.val = some i.2 := by
  unfold entryOf
  induction items with
  | nil => cases hi
  | cons a items ih =>
    rw [List.map_cons, List.nodup_cons] at hn
    rw [List.find?_cons]
    rcases List.mem_cons.mp hi with rfl | hi
    · simp
    · have hne : ¬ a.1.val = i.1.val := by
        intro heq
        exact hn.1 (Subtype.ext heq ▸ List.mem_map_of_mem hi)
      rw [decide_eq_false hne]
      exact ih hn.2 hi

theorem mem_of_entryOf {text : List UInt8} {e : ResourceEntry} (h : entryOf items text = some e) :
    ∃ i ∈ items, i.1.val = text ∧ i.2 = e := by
  obtain ⟨i, hi, he⟩ := Option.map_eq_some_iff.mp h
  exact ⟨i, List.mem_of_find?_eq_some hi, by simpa using List.find?_some hi, he⟩

variable (hsum : SumsDistinct md5 used) (hs : Shows md5 used items t r)
include hsum hs

variable {path : CStr}

theorem answersPath_node (hp : used path) (hi : i ∈ items) :
    answersPath md5 path (i.node md5) = true ↔
      if hasFilterMark i.1 then coapResourceTopicFilterMatch i.1 path = true else path = i.1 := by
  by_cases hm : hasFilterMark i.1 = true
  · have hpos : i.1.strlen > 0 := by
      obtain ⟨p, hb⟩ := Option.isSome_iff_exists.mp (hs.marked _ (List.mem_map_of_mem hi) hm)
      rw [CStr.strlen, filterBase_eq_some_iff.mp hb, filterOf, List.length_append]
      exact Nat.lt_of_lt_of_le (by decide) (Nat.le_add_left 2 _)
    rw [node_of_mark hm, if_pos hm, answersPath]
    simp [hsum.ne_zero path hp, hpos]
  · rw [node_of_path hm, if_neg hm, answersPath]
    simp only [reduceCtorEq, decide_false, Bool.false_and, Bool.or_false, decide_eq_true_eq]
    exact ⟨fun h => hsum.inj _ _ hp (hs.used _ (List.mem_map_of_mem hi) hm) h, fun h => by rw [h]⟩

omit hsum in
theorem lookup_of_split {as bs : List Item}
    (hitems : items = as ++ i :: bs) (hi : answersPath md5 path (i.node md5) = true)
    (has : ∀ a ∈ as, answersPath md5 path (a.node md5) = false) :
    coapResourceByPathGet md5 t path = some (i.node md5) := by
  unfold coapResourceByPathGet
  rw [hs.list, hitems, List.map_append, List.map_cons, List.find?_append,
    List.find?_cons_of_pos hi]
  have hnone : (as.map (Item.node md5)).find? (answersPath md5 path) = none := by
    rw [List.find?_eq_none]
    intro n hn
    obtain ⟨a, ha, rfl⟩ := List.mem_map.mp hn
    rw [has a ha]
    decide
  rw [hnone]
  rfl

theorem lookup_exact (hp : used path) (hi : i ∈ items) (hpath : i.1 = path)
    (hm : ¬ hasFilterMark path = true) : coapResourceByPathGet md5 t path = some (i.node md5) := by
  obtain ⟨as, bs, hitems⟩ := List.append_of_mem hi
  have hmi : ¬ hasFilterMark i.1 = true := by rwa [hpath]
  refine lookup_of_split hs hitems ?_ fun a ha => ?_
  · rw [answersPath_node hsum hs hp hi, if_neg hmi, hpath]
  · have hmem : a ∈ items := by
      rw [hitems]
      exact List.mem_append_left _ ha
    rw [← Bool.not_eq_true, answersPath_node hsum hs hp hmem]
    split
    · next hma =>
      have hord := hs.order
      rw [hitems, List.map_append, List.pairwise_append] at hord
      have := hord.2.2 a.1 (List.mem_map_of_mem ha) i.1 (List.mem_map_of_mem List.mem_cons_self)
        hma hmi
      rw [hpath] at this
      rw [this]
      decide
    · intro heq
      have hnd := hs.nodup
      rw [hitems, List.map_append, List.nodup_append] at hnd
      exact hnd.2.2 a.1 (List.mem_map_of_mem ha) i.1 (List.mem_map_of_mem List.mem_cons_self)
        (heq.symm.trans hpath.symm)

omit hsum in
theorem exact_eq_some {e : ResourceEntry} (h : r.exact path.val = some e) :
    ∃ i ∈ items, i.1 = path ∧ i.2 = e ∧ ¬ hasFilterMark path = true := by
  rw [hs.exact] at h
  split at h
  · cases h
  · next hb =>
    obtain ⟨i, hi, hpath, he⟩ := mem_of_entryOf h
    have hpath : i.1 = path := Subtype.ext hpath
    refine ⟨i, hi, hpath, he, fun hm => hb ?_⟩
    rw [← hpath] at hm ⊢
    exact hs.marked _ (List.mem_map_of_mem hi) hm

theorem lookup_eq (hok : LookupOk used t r path) :
    (coapResourceByPathGet md5 t path).map CoapResource.entry = r.lookup path.val := by
  obtain ⟨hp, hbare⟩ := hok
  unfold Registry.lookup
  cases he : r.exact path.val with
  | some e =>
    obtain ⟨i, hi, hpath, rfl, hm⟩ := exact_eq_some hs he
    rw [lookup_exact hsum hs hp hi hpath hm, Option.map_some, node_entry, Option.some_or]
  | none =>
    have hbare := hbare.resolve_left (not_not_intro he)
    rw [Option.none_or]
    -- A registration of the path itself would have been found.
    have hnot : ∀ i ∈ items, ¬ hasFilterMark i.1 = true → path ≠ i.1 := by
      rintro i hi hm rfl
      have hb : ¬ (filterBase i.1.val).isSome = true := fun hb => by
        obtain ⟨p, hb⟩ := Option.isSome_iff_exists.mp hb
        exact hm (hasFilterMark_of_filterBase hb)
      rw [hs.exact, if_neg hb, entryOf_of_mem hs.nodup hi] at he
      cases he
    have hget : coapResourceByPathGet md5 t path =
        (items.find? fun i => answersPath md5 path (i.node md5)).map (Item.node md5) := by
      unfold coapResourceByPathGet
      rw [hs.list, List.find?_map]
      rfl
    rw [hget]
    cases hfind : items.find? (fun i => answersPath md5 path (i.node md5)) with
    | some i =>
      have hi := List.mem_of_find?_eq_some hfind
      have hans := (answersPath_node hsum hs hp hi).mp
        (List.find?_some (p := fun i => answersPath md5 path (Item.node md5 i)) hfind)
      by_cases hm : hasFilterMark i.1 = true
      · rw [if_pos hm] at hans
        obtain ⟨p, hb⟩ := Option.isSome_iff_exists.mp (hs.marked _ (List.mem_map_of_mem hi) hm)
        obtain ⟨x, -, hx, hpath⟩ := (topicFilterMatch_iff hb).mp hans
        rw [parent_eq_some_iff.mpr ⟨x, hx, hpath⟩, Option.bind_some, hs.filter,
          ← filterBase_eq_some_iff.mp hb, entryOf_of_mem hs.nodup hi, Option.map_some,
          Option.map_some, node_entry]
      · rw [if_neg hm] at hans
        exact absurd hans (hnot i hi hm)
    | none =>
      rw [Option.map_none, Option.map_none, eq_comm, Option.bind_eq_none_iff]
      intro p hparent
      obtain ⟨x, hx, hpath⟩ := parent_eq_some_iff.mp hparent
      by_contra hne
      obtain ⟨e, he⟩ := Option.ne_none_iff_exists'.mp hne
      rw [hs.filter] at he
      obtain ⟨i, hi, htext, -⟩ := mem_of_entryOf he
      have hb : filterBase i.1.val = some p := filterBase_eq_some_iff.mpr htext
      have hm := hasFilterMark_of_filterBase hb
      by_cases hx0 : x = []
      · refine hbare i.1 ((mem_filters hs).mpr ⟨⟨i, hi, rfl⟩, hm⟩) ?_
        rw [htext, hpath, hx0, filterOf, List.append_assoc]
        rfl
      · have hmatch := (topicFilterMatch_iff hb).mpr ⟨x, hx0, hx, hpath⟩
        have hans := (answersPath_node hsum hs hp hi).mpr (by rw [if_pos hm]; exact hmatch)
        exact List.find?_eq_none.mp hfind i hi hans

end

/-! ## One registration -/

theorem rewriteFirst_cases (same : CoapResource → Bool) (entry : ResourceEntry)
    (l : List CoapResource) :
    (rewriteFirst same entry l = none ∧ ∀ n ∈ l, same n = false) ∨
    ∃ as n bs, l = as ++ n :: bs ∧ same n = true ∧ (∀ a ∈ as, same a = false) ∧
      rewriteFirst same entry l = some (as ++ { n with entry := entry } :: bs) := by
  unfold rewriteFirst
  rcases splitFirst_cases same l with ⟨hnone, hall⟩ | ⟨as, n, bs, hsome, hl, hn, has⟩
  · exact .inl ⟨by rw [hnone]; rfl, hall⟩
  · exact .inr ⟨as, n, bs, hl, hn, has, by rw [hsome]; rfl⟩

theorem filterOf_inj {p q : List UInt8} (h : filterOf p = filterOf q) : p = q :=
  List.append_cancel_right h

theorem register_holds {r : Registry} {ent ent' : List UInt8 → Option ResourceEntry}
    (hexact : ∀ q, r.exact q = if (filterBase q).isSome then none else ent q)
    (hfilter : ∀ p, r.filter p = ent (filterOf p)) {text : List UInt8} {entry : ResourceEntry}
    (hent : ∀ q, ent' q = if q = text then some entry else ent q) :
    (∀ q, (r.register text entry).exact q = if (filterBase q).isSome then none else ent' q) ∧
    ∀ p, (r.register text entry).filter p = ent' (filterOf p) := by
  unfold Registry.register
  cases hb : filterBase text with
  | some p =>
    have htext := filterBase_eq_some_iff.mp hb
    refine ⟨fun q => ?_, fun q => ?_⟩
    · show r.exact q = _
      rw [hexact, hent]
      by_cases hq : q = text
      · rw [hq, hb]
        rfl
      · rw [if_neg hq]
    · show Function.update r.filter p (some entry) q = _
      rw [hent, htext]
      by_cases hq : q = p
      · rw [hq, Function.update_self, if_pos rfl]
      · rw [Function.update_of_ne hq, hfilter, if_neg fun h => hq (filterOf_inj h)]
  | none =>
    refine ⟨fun q => ?_, fun q => ?_⟩
    · show Function.update r.exact text (some entry) q = _
      rw [hent]
      by_cases hq : q = text
      · rw [hq, Function.update_self, hb, if_pos rfl]
        rfl
      · rw [Function.update_of_ne hq, hexact, if_neg hq]
    · show r.filter q = _
      have hne : filterOf q ≠ text := fun h => by
        rw [filterBase_eq_some_iff.mpr h.symm] at hb
        cases hb
      rw [hfilter, hent, if_neg hne]

theorem entryOf_rewrite {as bs : List Item} {i : Item} {entry : ResourceEntry}
    (hn : ((as ++ i :: bs).map Prod.fst).Nodup) (q : List UInt8) :
    entryOf (as ++ (i.1, entry) :: bs) q =
      if q = i.1.val then some entry else entryOf (as ++ i :: bs) q := by
  have hn' : ((as ++ (i.1, entry) :: bs).map Prod.fst).Nodup := by
    simpa only [List.map_append, List.map_cons] using hn
  by_cases hq : q = i.1.val
  · rw [if_pos hq, hq]
    exact entryOf_of_mem hn' (List.mem_append_right _ List.mem_cons_self)
  · rw [if_neg hq, entryOf, entryOf, List.find?_append, List.find?_append,
      List.find?_cons_of_neg (by simpa using Ne.symm hq),
      List.find?_cons_of_neg (by simpa using Ne.symm hq)]

theorem entryOf_append {items : List Item} (hnew : path ∉ items.map Prod.fst)
    (entry : ResourceEntry) (q : List UInt8) :
    entryOf (items ++ [(path, entry)]) q =
      if q = path.val then some entry else entryOf items q := by
  unfold entryOf
  rw [List.find?_append]
  by_cases hq : q = path.val
  · have hnone : items.find? (fun i => decide (i.1.val = q)) = none := by
      rw [List.find?_eq_none]
      intro i hi h
      have hval : i.1.val = path.val := by
        rw [← hq]
        simpa using h
      exact hnew (Subtype.ext hval ▸ List.mem_map_of_mem hi)
    rw [if_pos hq, hnone, hq]
    simp
  · rw [if_neg hq]
    simp [Ne.symm hq]

theorem sameResource_filter (md5 : List UInt8 → List UInt8) (path : CStr) (sum : List UInt8)
    (i : Item) : sameResource path .filter sum (i.node md5) = true ↔
      hasFilterMark i.1 = true ∧ path.val <+: i.1.val := by
  by_cases hm : hasFilterMark i.1 = true
  · rw [node_of_mark hm, and_iff_right hm, ← List.isPrefixOf_iff_prefix]
    rfl
  · rw [node_of_path hm]
    exact iff_of_false Bool.false_ne_true fun h => hm h.1

theorem sameResource_normal (md5 : List UInt8 → List UInt8) (path : CStr) (sum : List UInt8)
    (i : Item) : sameResource path .normal sum (i.node md5) = true ↔
      ¬ hasFilterMark i.1 = true ∧ sum = coapPathMd5Sum md5 i.1 := by
  by_cases hm : hasFilterMark i.1 = true
  · rw [node_of_mark hm]
    exact iff_of_false Bool.false_ne_true fun h => h.1 hm
  · rw [node_of_path hm, and_iff_right hm]
    exact decide_eq_true_iff

theorem create_of_creates (md5 : List UInt8 → List UInt8) {c : RegisterCall} (h : Creates c) :
    coapResourceCreate md5 c.path (if hasFilterMark c.path then .filter else .normal) c.entry c.io =
      some (Item.node md5 (c.path, c.entry)) := by
  obtain ⟨hlen, hnode, hfilter⟩ := h
  unfold coapResourceCreate
  rw [if_neg (Nat.not_le_of_lt hlen), if_neg (by rw [hnode]; decide)]
  by_cases hm : hasFilterMark c.path = true
  · rw [if_pos hm, node_of_mark hm]
    simp [hfilter hm]
  · rw [if_neg hm, node_of_path hm]

section
variable {md5 : List UInt8 → List UInt8} {used : CStr → Prop} {items : List Item}
  {t : ResourceList} {r : Registry} (hs : Shows md5 used items t r)
include hs

theorem Shows.rewrite {as bs : List Item} {i : Item} (hitems : items = as ++ i :: bs)
    (entry : ResourceEntry) :
    Shows md5 used (as ++ (i.1, entry) :: bs)
      { t with list := (as ++ (i.1, entry) :: bs).map (Item.node md5) }
      (r.register i.1.val entry) := by
  subst hitems
  have hpaths : (as ++ (i.1, entry) :: bs).map Prod.fst = (as ++ i :: bs).map Prod.fst := by
    rw [List.map_append, List.map_append]
    rfl
  have hlen : (as ++ (i.1, entry) :: bs).length = (as ++ i :: bs).length := by
    rw [List.length_append, List.length_append]
    rfl
  obtain ⟨hexact, hfilter⟩ := register_holds hs.exact hs.filter (entryOf_rewrite hs.nodup)
  exact ⟨rfl, hs.count.trans hlen.symm, hlen ▸ hs.bounded, hpaths ▸ hs.nodup, hpaths ▸ hs.used,
    hpaths ▸ hs.marked, hpaths ▸ hs.order, hexact, hfilter⟩

theorem Shows.append {path : CStr} (hnew : path ∉ items.map Prod.fst)
    (hroom : t.count < t.maxcount) (hused : ¬ hasFilterMark path = true → used path)
    (hmark : hasFilterMark path = true → (filterBase path.val).isSome)
    (hmatch : ¬ hasFilterMark path = true →
      ∀ f ∈ t.filters, coapResourceTopicFilterMatch f path = false) (entry : ResourceEntry) :
    Shows md5 used (items ++ [(path, entry)])
      { t with list := t.list ++ [Item.node md5 (path, entry)], count := t.count + 1 }
      (r.register path.val entry) := by
  obtain ⟨hexact, hfilter⟩ := register_holds hs.exact hs.filter (entryOf_append hnew entry)
  have hlt := UInt8.lt_iff_toNat_lt.mp hroom
  have hmax := t.maxcount.toNat_lt
  have hcount := hs.count
  have hpaths : (items ++ [(path, entry)]).map Prod.fst = items.map Prod.fst ++ [path] := by
    rw [List.map_append]
    rfl
  refine ⟨?_, ?_, ?_, ?_, ?_, ?_, ?_, hexact, hfilter⟩
  · rw [List.map_append, ← hs.list]
    rfl
  · show (t.count + 1).toNat = _
    rw [UInt8.toNat_add, List.length_append, ← hcount]
    show (t.count.toNat + 1) % 256 = t.count.toNat + 1
    omega
  · rw [List.length_append, ← hcount]
    exact hlt
  · rw [hpaths, List.nodup_append]
    refine ⟨hs.nodup, List.nodup_singleton _, fun a ha b hb => ?_⟩
    rw [List.mem_singleton.mp hb]
    exact fun h => hnew (h ▸ ha)
  · rw [hpaths, List.forall_mem_append]
    exact ⟨hs.used, List.forall_mem_singleton.mpr hused⟩
  · rw [hpaths, List.forall_mem_append]
    exact ⟨hs.marked, List.forall_mem_singleton.mpr hmark⟩
  · rw [hpaths, List.pairwise_append]
    refine ⟨hs.order, List.pairwise_singleton _ _, fun f hf b hb hfm hbm => ?_⟩
    rw [List.mem_singleton] at hb
    subst hb
    obtain ⟨i, hi, rfl⟩ := List.mem_map.mp hf
    exact hmatch hbm i.1 ((mem_filters hs).mpr ⟨⟨i, hi, rfl⟩, hfm⟩)

theorem rewriteFirst_shows (same : CoapResource → Bool) (entry : ResourceEntry) :
    (rewriteFirst same entry t.list = none ∧ ∀ i ∈ items, same (Item.node md5 i) = false) ∨
    ∃ as i bs, items = as ++ i :: bs ∧ same (Item.node md5 i) = true ∧
      (∀ a ∈ as, same (Item.node md5 a) = false) ∧
      rewriteFirst same entry t.list = some ((as ++ (i.1, entry) :: bs).map (Item.node md5)) := by
  rcases rewriteFirst_cases same entry t.list with
    ⟨hnone, hall⟩ | ⟨as, n, bs, hl, hn, has, hsome⟩
  · refine .inl ⟨hnone, fun i hi => hall _ ?_⟩
    rw [hs.list]
    exact List.mem_map_of_mem hi
  · rw [hs.list, List.map_eq_append_iff] at hl
    obtain ⟨is, is', rfl, rfl, hrest⟩ := hl
    obtain ⟨i, is', rfl, rfl, rfl⟩ := List.map_eq_cons_iff.mp hrest
    refine .inr ⟨is, i, is', rfl, hn, fun a ha => has _ (List.mem_map_of_mem ha), ?_⟩
    rw [hsome, List.map_append, List.map_cons]
    congr 3
    unfold Item.node
    split <;> rfl

theorem shows_step_filter {c : RegisterCall} (hroom : t.count < t.maxcount)
    (hm : hasFilterMark c.path = true) (hb : (filterBase c.path.val).isSome)
    (hfirst : ∀ f ∈ t.filters.find? (fun f => c.path.val.isPrefixOf f.val), f = c.path)
    (hnew : c.path ∉ t.filters → Creates c) :
    ∃ items', Shows md5 used items' (registerStep md5 (t, r) c).1
      (registerStep md5 (t, r) c).2 := by
  have hfull : ¬ t.count ≥ t.maxcount := UInt8.not_le.mpr hroom
  unfold registerStep coapResourceRegister
  simp only [if_neg hfull, if_pos hm]
  rcases rewriteFirst_shows hs
    (sameResource c.path .filter (List.replicate coapPathDefaultSumLen 0)) c.entry with
    ⟨hnone, hall⟩ | ⟨as, i, bs, hitems, hi, has, hsome⟩
  · have hmem : c.path ∉ items.map Prod.fst := by
      intro hp
      obtain ⟨i, hi, hpath⟩ := List.mem_map.mp hp
      have := (sameResource_filter md5 c.path (List.replicate coapPathDefaultSumLen 0) i).mpr
        ⟨by rw [hpath]; exact hm, by rw [hpath]⟩
      rw [hall i hi] at this
      cases this
    have hcreate := hnew fun hf => by
      obtain ⟨⟨i, hi, hpath⟩, -⟩ := (mem_filters hs).mp hf
      exact hmem (hpath ▸ List.mem_map_of_mem hi)
    have hnode := create_of_creates md5 hcreate
    rw [if_pos hm] at hnode
    rw [hnone]
    simp only [hnode, if_true]
    exact ⟨_, hs.append hmem hroom (fun h => absurd hm h) (fun _ => hb) (fun h => absurd hm h) _⟩
  · have hpath : i.1 = c.path := by
      apply hfirst
      obtain ⟨hmi, hpre⟩ := (sameResource_filter md5 _ _ i).mp hi
      unfold CoapList.filters
      rw [hs.list, filterPath_nodes, hitems, List.map_append, List.map_cons, List.filter_append,
        List.filter_cons_of_pos hmi, List.find?_append]
      have hnone : ((as.map Prod.fst).filter fun p => hasFilterMark p).find?
          (fun f => c.path.val.isPrefixOf f.val) = none := by
        rw [List.find?_eq_none]
        intro f hf
        obtain ⟨hf, hfm⟩ := List.mem_filter.mp hf
        obtain ⟨a, ha, rfl⟩ := List.mem_map.mp hf
        intro hpa
        have hsame := (sameResource_filter md5 c.path
          (List.replicate coapPathDefaultSumLen 0) a).mpr
          ⟨hfm, List.isPrefixOf_iff_prefix.mp hpa⟩
        rw [has a ha] at hsame
        cases hsame
      rw [hnone, Option.none_or, List.find?_cons_of_pos
        (p := fun f : CStr => c.path.val.isPrefixOf f.val) (List.isPrefixOf_iff_prefix.mpr hpre)]
      rfl
    rw [hsome]
    simp only [if_true]
    rw [← hpath]
    exact ⟨_, hs.rewrite hitems c.entry⟩

theorem shows_step_path (hsum : SumsDistinct md5 used) {c : RegisterCall}
    (hroom : t.count < t.maxcount) (hm : ¬ hasFilterMark c.path = true) (hused : used c.path)
    (hnew : (∀ node ∈ t.list, node.path ≠ coapPathMd5Sum md5 c.path) →
      (∀ f ∈ t.filters, coapResourceTopicFilterMatch f c.path = false) ∧ Creates c) :
    ∃ items', Shows md5 used items' (registerStep md5 (t, r) c).1
      (registerStep md5 (t, r) c).2 := by
  have hfull : ¬ t.count ≥ t.maxcount := UInt8.not_le.mpr hroom
  unfold registerStep coapResourceRegister
  simp only [if_neg hfull, if_neg hm]
  rcases rewriteFirst_shows hs
    (sameResource c.path .normal (coapPathMd5Sum md5 c.path)) c.entry with
    ⟨hnone, hall⟩ | ⟨as, i, bs, hitems, hi, has, hsome⟩
  · have hsame : ∀ i ∈ items, (i.node md5).path ≠ coapPathMd5Sum md5 c.path := by
      intro i hi heq
      by_cases hmi : hasFilterMark i.1 = true
      · rw [node_of_mark hmi] at heq
        exact hsum.ne_zero _ hused heq.symm
      · rw [node_of_path hmi] at heq
        have := (sameResource_normal md5 c.path (coapPathMd5Sum md5 c.path) i).mpr ⟨hmi, heq.symm⟩
        rw [hall i hi] at this
        cases this
    have hmem : c.path ∉ items.map Prod.fst := by
      intro hp
      obtain ⟨i, hi, hpath⟩ := List.mem_map.mp hp
      apply hsame i hi
      rw [node_of_path (by rwa [hpath]), hpath]
    obtain ⟨hmatch, hcreate⟩ := hnew fun node hn => by
      rw [hs.list] at hn
      obtain ⟨i, hi, rfl⟩ := List.mem_map.mp hn
      exact hsame i hi
    have hnode := create_of_creates md5 hcreate
    rw [if_neg hm] at hnode
    rw [hnone]
    simp only [hnode, if_true]
    exact ⟨_, hs.append hmem hroom (fun _ => hused) (fun h => absurd h hm) (fun _ => hmatch) _⟩
  · obtain ⟨hmi, hsums⟩ := (sameResource_normal md5 _ _ i).mp hi
    have hiu := hs.used i.1 (by rw [hitems, List.map_append]; simp) hmi
    have hpath : i.1 = c.path := hsum.inj _ _ hiu hused hsums.symm
    rw [hsome]
    simp only [if_true]
    rw [← hpath]
    exact ⟨_, hs.rewrite hitems c.entry⟩

end

theorem shows_step {md5 : List UInt8 → List UInt8} {used : CStr → Prop}
    (hsum : SumsDistinct md5 used) {items : List Item} {t : ResourceList} {r : Registry}
    (hs : Shows md5 used items t r) {c : RegisterCall} (hok : RegisterOk md5 used t c) :
    ∃ items', Shows md5 used items' (registerStep md5 (t, r) c).1
      (registerStep md5 (t, r) c).2 := by
  by_cases hroom : t.count < t.maxcount
  · have hok := hok hroom
    by_cases hm : hasFilterMark c.path = true
    · rw [if_pos hm] at hok
      exact shows_step_filter hs hroom hm hok.1 hok.2.1 hok.2.2
    · rw [if_neg hm] at hok
      exact shows_step_path hs hsum hroom hm hok.1 hok.2
  · have hfull : t.count ≥ t.maxcount := UInt8.not_lt.mp hroom
    refine ⟨items, ?_⟩
    unfold registerStep coapResourceRegister
    simp only [if_pos hfull]
    exact hs

theorem serves_of_shows {md5 : List UInt8 → List UInt8} {used : CStr → Prop}
    (hsum : SumsDistinct md5 used) {items : List Item} {t : ResourceList} {r : Registry}
    (hs : Shows md5 used items t r) : Serves md5 used t r where
  count := by rw [hs.count, hs.list, List.length_map]
  bounded := by
    rw [hs.list, List.length_map]
    exact hs.bounded
  distinct := by
    have hn := hs.nodup
    rw [List.Nodup, List.pairwise_map] at hn
    rw [hs.list, List.map_map, List.Nodup, List.pairwise_map]
    refine hn.imp_of_mem fun {i j} hi hj hne heq => hne ?_
    obtain ⟨hpath, hfilter⟩ := Prod.mk.inj heq
    by_cases hmi : hasFilterMark i.1 = true
    · rw [node_of_mark hmi] at hfilter
      by_cases hmj : hasFilterMark j.1 = true
      · rw [node_of_mark hmj] at hfilter
        exact Option.some.inj hfilter
      · rw [node_of_path hmj] at hfilter
        cases hfilter
    · rw [node_of_path hmi] at hpath hfilter
      by_cases hmj : hasFilterMark j.1 = true
      · rw [node_of_mark hmj] at hfilter
        cases hfilter
      · rw [node_of_path hmj] at hpath
        exact hsum.inj _ _ (hs.used _ (List.mem_map_of_mem hi) hmi)
          (hs.used _ (List.mem_map_of_mem hj) hmj) hpath
  lookup path hok := lookup_eq hsum hs hok
  exact path hp hne := by
    obtain ⟨e, he⟩ := Option.ne_none_iff_exists'.mp hne
    obtain ⟨i, hi, hpath, -, hm⟩ := exact_eq_some hs he
    refine ⟨i.node md5, lookup_exact hsum hs hp hi hpath hm, ?_⟩
    rw [pathType_node, hpath, if_neg hm]
  error c := register_of_error md5 t c

/-- **Resource table.** In every run of registrations that meet `RegisterOk` the
table serves the registry of the successful ones. -/
theorem resources_served {md5 : List UInt8 → List UInt8} {used : CStr → Prop}
    (hsum : SumsDistinct md5 used) (resMaxcount : UInt8) {calls : List RegisterCall}
    (hok : Meets (registerStep md5) (fun s c => RegisterOk md5 used s.1 c)
      (coapResourceInit resMaxcount, Registry.empty) calls) :
    let s := run (registerStep md5) (coapResourceInit resMaxcount, Registry.empty) calls
    Serves md5 used s.1 s.2 := by
  have hinit : ∃ items, Shows md5 used items (coapResourceInit resMaxcount) Registry.empty :=
    ⟨[], rfl, rfl, Nat.zero_le _, List.nodup_nil, (fun p hp => by cases hp),
      (fun p hp => by cases hp), List.Pairwise.nil, (fun q => by split <;> rfl), fun p => rfl⟩
  obtain ⟨items, hs⟩ := run_invariant_of_meets
    (I := fun s : ResourceList × Registry => ∃ items, Shows md5 used items s.1 s.2)
    (fun s c hc ⟨items, hs⟩ => shows_step hsum hs hc) hok hinit
  exact serves_of_shows hsum hs

/-- The paths `/a/b` and `/a/c` and the filter `/a/#`, with the digests of the paths. -/
def pathAB : CStr := CStr.ofString "/a/b" (by decide)
def pathAC : CStr := CStr.ofString "/a/c" (by decide)
def filterA : CStr := CStr.ofString "/a/#" (by decide)

def digests (path : List UInt8) : List UInt8 :=
  if path = pathAB.val then [0xAE, 0xE3, 0x1D, 0x71, 0xA4, 0xDC, 0xE5, 0xFE,
      0x24, 0x48, 0x15, 0x47, 0xCC, 0x86, 0x34, 0x76]
  else if path = pathAC.val then [0xCE, 0xDD, 0x7C, 0x00, 0xE3, 0xB2, 0x4D, 0x55,
      0x1B, 0x38, 0xF1, 0x3C, 0x8C, 0xD2, 0xE7, 0x91]
  else []

def usedPaths (path : CStr) : Prop := path = pathAB ∨ path = pathAC

theorem digests_distinct : SumsDistinct digests usedPaths where
  inj := by
    rintro p q (rfl | rfl) (rfl | rfl) h
    · rfl
    · exact absurd h (by decide)
    · exact absurd h (by decide)
    · rfl
  ne_zero := by
    rintro p (rfl | rfl)
    · decide
    · decide

def entryGet : ResourceEntry := ⟨1, 50, 60, some 1⟩
def entryPost : ResourceEntry := ⟨2, 50, 60, some 2⟩

def pathThenFilter : List RegisterCall :=
  [⟨pathAB, entryGet, ⟨true, true⟩⟩, ⟨filterA, entryPost, ⟨true, true⟩⟩]

def registered (calls : List RegisterCall) : ResourceList × Registry :=
  run (registerStep digests) (coapResourceInit 8, Registry.empty) calls

theorem resources_served_sample :
    Serves digests usedPaths (registered pathThenFilter).1 (registered pathThenFilter).2 := by
  refine resources_served digests_distinct 8 ⟨fun _ => ?_, fun _ => ?_, trivial⟩
  · exact ⟨.inl rfl, fun _ => ⟨by decide, by decide, rfl, by decide⟩⟩
  · exact ⟨by decide, by decide, fun _ => ⟨by decide, rfl, fun _ => rfl⟩⟩

/-- The filter first and then the path: the path is answered by the filter. And a
call whose allocation fails returns `COAP_SUCCESS` and registers nothing. -/
theorem resources_not_served :
    ((registered pathThenFilter.reverse).2.exact pathAB.val = some entryGet ∧
      (coapResourceByPathGet digests (registered pathThenFilter.reverse).1 pathAB).map
        CoapResource.entry = some entryPost ∧
      ¬ Serves digests usedPaths (registered pathThenFilter.reverse).1
        (registered pathThenFilter.reverse).2) ∧
    coapResourceRegister digests (coapResourceInit 8) pathAB entryGet ⟨false, false⟩ =
      (coapSuccess, coapResourceInit 8) := by
  refine ⟨⟨by decide, by decide, fun h => ?_⟩, by rfl⟩
  obtain ⟨node, hget, htype⟩ := h.exact pathAB (.inl rfl) (by decide)
  have hfound : (coapResourceByPathGet digests (registered pathThenFilter.reverse).1 pathAB).map
      CoapResource.pathType = some .filter := by decide
  rw [hget, Option.map_some, htype] at hfound
  cases hfound

end AliyunIot.Coap
