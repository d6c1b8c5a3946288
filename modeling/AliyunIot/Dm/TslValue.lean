import AliyunIot.Dm.TslDescription

/-!
# Loading a value

The parser of a property and the functions that it calls leave a value that mirrors the text where
the text is described and all the blocks are there, and nowhere else (`loads_propertyParse`). A
property is in the members of a struct again, so the induction is on how much text there is.
-/

namespace AliyunIot.Dm.Tsl

open Cjson Lib Lib.Alloc Libc State
open Format (text isDigit)
open Shadow (BasicType DataType DataValue Data IsIndex)
open List (Forall₂)

section

variable {strtod : Strtod} {alloc : Nat → Bool} {lite : LiteCjson} {n : Nat} {v : DataValue}

theorem elementsFrom_succ (lite : LiteCjson) (index todo : Nat) :
    elementsFrom strtod lite index (todo + 1) =
      elementOf strtod lite index :: elementsFrom strtod lite (index + 1) todo := by
  rw [elementsFrom, List.range'_succ, List.map_cons, elementsFrom]

theorem Named.object (h : Named strtod lite) : lite.type = .object :=
  object_of_item (item_of_memberOf (by rw [h.string]; exact CjsonType.noConfusion))

theorem object_of_entryDescribed (h : EntryDescribed strtod lite n) : lite.type = .object := by
  cases h with
  | mk hnamed => exact hnamed.object

theorem not_entryMirrors_zeroData : ¬ EntryMirrors strtod lite zeroData := fun h => nomatch h

/-! ## Structs -/

theorem loads_membersParse (h : ∀ i, (elementOf strtod lite i).type = .object →
      Parses alloc (propertyParse strtod alloc (elementOf strtod lite i))
        (EntryDescribed strtod (elementOf strtod lite i))
        (EntryMirrors strtod (elementOf strtod lite i))) (room todo index : Nat) :
    Parses alloc (membersParse strtod alloc lite room todo index)
      (fun n => todo ≤ room - index ∧
        Costs (EntryDescribed strtod) (elementsFrom strtod lite index todo) n)
      (Forall₂ (EntryMirrors strtod) (elementsFrom strtod lite index todo)) := by
  induction todo generalizing index with
  | zero =>
    rw [membersParse]
    refine Parses.cost_congr (loads_pure ⟨rfl, .nil⟩) fun n => ?_
    rw [elementsFrom, List.range'_zero, List.map_nil, costs_nil_iff, and_iff_right (Nat.zero_le _)]
  | succ todo ih =>
    rw [membersParse, elementsFrom_succ]
    by_cases hobject : (elementOf strtod lite index).type = .object
    · rw [dif_pos hobject]
      by_cases hroom : room ≤ index
      · rw [if_pos hroom]
        exact Parses.never loads_stray fun n hn => by omega
      · rw [if_neg hroom]
        refine Parses.cost_congr (loads_bind (h index hobject) ?_ ?_) fun n => room_step hroom
        · rintro ⟨res, d⟩ n heap ⟨rfl, hd⟩ hn hgranted
          obtain ⟨⟨res, ds⟩, hrest, rfl, hds⟩ := (ih (index + 1)).complete hn hgranted
          refine ⟨(success, d :: ds), ?_, rfl, .cons hd hds⟩
          rw [if_neg (fun hne => hne rfl), bind_of_eq hrest]
          rfl
        · rintro ⟨res, d⟩ ⟨res', ds⟩ heap heap' hx hkept
          by_cases hres : res = success
          · rw [if_neg (fun hne => hne hres)] at hx
            obtain ⟨⟨res'', ds'⟩, heap₁, hrest, hpure⟩ := bind_eq_some hx
            cases hpure
            obtain ⟨hd, hds⟩ := List.forall₂_cons.mp hkept
            exact ⟨hd, (ih (index + 1)).only hrest hds⟩
          · -- a failure ends the loop; its entry is good only where it is the last one
            rw [if_pos hres] at hx
            cases hx
            obtain ⟨hd, hnil⟩ := List.forall₂_cons.mp hkept
            have hlast := List.forall₂_nil_right_iff.mp hnil
            refine ⟨hd, 0, ⟨?_, hlast ▸ .nil⟩, granted_zero, rfl⟩
            have := congrArg List.length hlast
            simp only [elementsFrom, List.length_map, List.length_range', List.length_nil] at this
            omega
    · rw [dif_neg hobject]
      refine Parses.never (loads_fail ?_) fun n hn => ?_
      · intro hkept
        cases hkept
      · obtain ⟨n₁, n₂, hn₁, -⟩ := costs_cons_iff.mp hn.2
        exact hobject (object_of_entryDescribed hn₁)

theorem length_elements : (elements strtod lite).length = lite.size := by
  simp [elementsFrom]

theorem loads_structParse (h : ∀ i, (elementOf strtod lite i).type = .object →
      Parses alloc (propertyParse strtod alloc (elementOf strtod lite i))
        (EntryDescribed strtod (elementOf strtod lite i))
        (EntryMirrors strtod (elementOf strtod lite i))) :
    Parses alloc (structParse strtod alloc lite) (StructDescribed strtod lite)
      (StructMirrors strtod lite) := by
  have hnull : ∀ res : Int, ¬ Leaves (StructMirrors strtod lite) (res, .struct none) :=
    fun res hkept => nomatch hkept
  rw [structParse]
  by_cases hguard : lite.type ≠ .array ∨ lite.size = 0
  · rw [if_pos hguard]
    refine Parses.never (loads_fail (hnull _)) fun n hn => ?_
    cases hn with
    | mk harray hsize => exact hguard.elim (fun h => h harray) hsize
  · rw [if_neg hguard]
    have hcap : capacity lite.size dataSize ≤ (elements strtod lite).length := by
      rw [length_elements]
      exact capacity_le _ (by decide)
    have hmembers := loads_membersParse h (capacity lite.size dataSize) lite.size 0
    have hstruct : ∀ ds, StructMirrors strtod lite (.struct (some
        (fill (capacity lite.size dataSize) zeroData ds))) ↔
          Forall₂ (EntryMirrors strtod) (elements strtod lite) ds := by
      intro ds
      rw [← forall₂_fill (fun _ => not_entryMirrors_zeroData) hcap]
      constructor
      · intro hmirrors
        cases hmirrors with
        | mk hds => exact hds
      · exact .mk
    have hfill := parses_map hmembers hstruct
    refine Parses.cost_congr (loads_malloc (loads_malloc hfill (hnull _)) (hnull _)) fun n => ?_
    have hfits := @le_capacity_iff lite.size dataSize (by decide)
    constructor
    · intro hn
      cases hn with
      | mk harray hsize hfit hcosts =>
        exact ⟨_, ⟨_, ⟨hfits.mpr hfit, hcosts⟩, rfl⟩, rfl⟩
    · rintro ⟨-, ⟨n, ⟨hle, hcosts⟩, rfl⟩, rfl⟩
      push Not at hguard
      exact .mk hguard.1 hguard.2 (hfits.mp hle) hcosts

/-! ## Arrays -/

theorem structMirrors_membersOf :
    StructMirrors strtod lite (.struct (membersOf v)) ↔ StructMirrors strtod lite v := by
  constructor
  · intro h
    unfold membersOf at h
    split at h
    next => exact h
    next => cases h
  · intro h
    cases h with
    | mk hds => exact .mk hds

def ElementMirrors (strtod : Strtod) (specs : LiteCjson) (item : Option (List Data)) : Prop :=
  StructMirrors strtod specs (.struct item)

theorem not_elementMirrors_none : ¬ ElementMirrors strtod lite none := by
  intro h
  cases h

theorem loads_elementsParse
    (h : Parses alloc (structParse strtod alloc lite) (StructDescribed strtod lite)
      (StructMirrors strtod lite)) (room todo index : Nat) :
    Loads alloc (elementsParse strtod alloc lite room todo index)
      (fun n => todo ≤ room - index ∧
        Costs (StructDescribed strtod) (List.replicate todo lite) n)
      (Forall₂ (ElementMirrors strtod) (List.replicate todo lite))
      (Forall₂ (ElementMirrors strtod) (List.replicate todo lite)) := by
  induction todo generalizing index with
  | zero =>
    rw [elementsParse]
    refine (loads_pure .nil).congr (fun n => ?_) (fun _ => id) fun _ => id
    rw [List.replicate_zero, costs_nil_iff, and_iff_right (Nat.zero_le _)]
  | succ todo ih =>
    rw [elementsParse, List.replicate_succ]
    by_cases hroom : room ≤ index
    · rw [if_pos hroom]
      refine loads_stray.congr (fun n => ?_) (fun _ => id) fun _ => id
      constructor
      · rintro ⟨hle, -⟩
        omega
      · exact False.elim
    · rw [if_neg hroom]
      refine (loads_map₂ h (ih (index + 1)) ?_ ?_).congr (fun n => room_step hroom)
        (fun _ => id) fun _ => id
      · rintro ⟨res, v⟩ items ⟨-, hv⟩ hitems
        exact .cons (structMirrors_membersOf.mpr hv) hitems
      · rintro ⟨res, v⟩ items hkept
        obtain ⟨hv, hitems⟩ := List.forall₂_cons.mp hkept
        exact ⟨structMirrors_membersOf.mp hv, hitems⟩

theorem forall₂_replicate {α β : Type} {R : α → β → Prop} {a : α} {bs : List β} :
    Forall₂ R (List.replicate n a) bs ↔ bs.length = n ∧ ∀ b ∈ bs, R a b := by
  induction n generalizing bs with
  | zero =>
    rw [List.replicate_zero, List.forall₂_nil_left_iff]
    constructor
    · rintro rfl
      exact ⟨rfl, fun b hb => absurd hb List.not_mem_nil⟩
    · rintro ⟨hlen, -⟩
      exact List.eq_nil_of_length_eq_zero hlen
  | succ n ih =>
    cases bs with
    | nil =>
      rw [List.replicate_succ]
      constructor
      · intro h
        cases h
      · rintro ⟨hlen, -⟩
        cases hlen
    | cons b bs =>
      rw [List.replicate_succ, List.forall₂_cons, ih, List.length_cons, List.forall_mem_cons,
        Nat.add_right_cancel_iff]
      tauto

def StructsMirror (strtod : Strtod) (specs : LiteCjson) (n : Nat) (v : DataValue) : Prop :=
  ∃ items, v = .structArray n items ∧
    Forall₂ (ElementMirrors strtod) (List.replicate n specs) items

theorem loads_arrayStructParse
    (h : Parses alloc (structParse strtod alloc lite) (StructDescribed strtod lite)
      (StructMirrors strtod lite)) (n : Nat) :
    Parses alloc (arrayStructParse strtod alloc lite n)
      (fun k => (lite.type = .array ∧ lite.size ≠ 0 ∧ Fits n dataSize) ∧
        ∃ m, Costs (StructDescribed strtod) (List.replicate n lite) m ∧ k = m + 1)
      (StructsMirror strtod lite n) := by
  have hempty : ∀ res : Int, ¬ Leaves (StructsMirror strtod lite n)
      (res, .emptyArray .struct n) := by
    rintro res ⟨items, heq, -⟩
    cases heq
  rw [arrayStructParse]
  by_cases hguard : lite.type ≠ .array ∨ lite.size = 0
  · rw [if_pos hguard]
    refine Parses.never (loads_fail (hempty _)) fun k hk => ?_
    exact hguard.elim (fun h => h hk.1.1) hk.1.2.1
  · rw [if_neg hguard, Int.toNat_natCast]
    have hcap : capacity n dataSize ≤ (List.replicate n lite).length := by
      rw [List.length_replicate]
      exact capacity_le n (by decide)
    have hstructs : ∀ items, StructsMirror strtod lite n
        (.structArray n (fill (capacity n dataSize) none items)) ↔
          Forall₂ (ElementMirrors strtod) (List.replicate n lite) items := by
      intro items
      rw [← forall₂_fill (fun _ => not_elementMirrors_none) hcap]
      constructor
      · rintro ⟨items', heq, hitems⟩
        cases heq
        exact hitems
      · intro hitems
        exact ⟨_, rfl, hitems⟩
    have hitems := parses_of_loads (loads_elementsParse h (capacity n dataSize) n 0) hstructs
    refine Parses.cost_congr (loads_malloc hitems (hempty _)) fun k => ?_
    have hfits := @le_capacity_iff n dataSize (by decide)
    constructor
    · rintro ⟨⟨-, -, hfit⟩, m, hcosts, rfl⟩
      exact ⟨m, ⟨hfits.mpr hfit, hcosts⟩, rfl⟩
    · rintro ⟨m, ⟨hle, hcosts⟩, rfl⟩
      push Not at hguard
      exact ⟨⟨hguard.1, hguard.2, hfits.mp hle⟩, m, hcosts, rfl⟩

theorem funcArrayParse_eq (alloc : Nat → Bool) (t : BasicType) (size : Int) :
    funcArrayParse alloc t size = arrayCellsParse alloc t (width t) size := by
  cases t <;> rfl

theorem width_pos (t : BasicType) : 0 < width t := by
  cases t <;> decide

variable {specs : LiteCjson}

theorem loads_funcArrayParse {t : BasicType}
    (hn : IsIndex (sizeText strtod specs) n) (ht : itemType strtod specs = some (.basic t)) :
    Parses alloc (funcArrayParse alloc t n) (fun k => Fits n (width t) ∧ k = 1)
      (ArrayMirrors strtod specs) := by
  have hempty : ¬ Leaves (ArrayMirrors strtod specs) (sysDependMalloc, .emptyArray (.basic t) n) :=
    fun hkept => nomatch hkept
  rw [funcArrayParse_eq, arrayCellsParse]
  by_cases hfit : Fits n (width t)
  · have hcap : capacity n (width t) = n :=
      Nat.le_antisymm (capacity_le n (width_pos t)) ((le_capacity_iff (width_pos t)).mpr hfit)
    refine Parses.cost_congr (loads_malloc (loads_pure ⟨rfl, ?_⟩) hempty) fun k => ?_
    · refine .basic hn ht ?_
      rw [List.length_replicate, hcap]
    · simp [hfit]
  · refine Parses.never (loads_malloc_never (loads_fail ?_) hempty) fun k hk => hfit hk.1
    intro hkept
    cases hkept with
    | basic _ _ hlen =>
      rw [List.length_replicate] at hlen
      exact hfit ((le_capacity_iff (width_pos t)).mp (Nat.le_of_eq hlen.symm))

/-! ## What an array says of its elements -/

theorem item_of_value {key : List UInt8} (h : (memberOf strtod lite key).value ≠ []) :
    liteCjsonObjectItem strtod lite key = some (memberOf strtod lite key) :=
  item_of_ne fun hzero => h (congrArg LiteCjson.value hzero)

theorem object_of_type {key : List UInt8} {t : CjsonType} (ht : t ≠ .invalid)
    (h : (memberOf strtod lite key).type = t) : lite.type = .object :=
  object_of_item (item_of_memberOf (by rw [h]; exact ht))

theorem unended_of_isIndex {txt : List UInt8} (h : IsIndex txt n) : unended txt = true := by
  unfold unended
  rw [dropWhile_isspace_digits h.digits]
  split
  next => exact absurd rfl (head_ne_of_digits h.digits rfl rfl)
  next => exact absurd rfl (head_ne_of_digits h.digits rfl rfl)
  next => exact List.all_eq_true.mpr h.digits

theorem sizeStrAtoi_of_isIndex {txt : List UInt8} (h : IsIndex txt n)
    (hlen : txt.length ≤ dmUtilsUint32Strlen) :
    sizeStrAtoi txt = if txt.length < dmUtilsUint32Strlen then some (n : Int) else none := by
  rw [sizeStrAtoi, unended_of_isIndex h]
  by_cases hlt : txt.length < dmUtilsUint32Strlen
  · have hmax : (n : Int) ≤ intMax := by
      have hbound := leadingNat_lt txt
      have hpow : 10 ^ txt.length ≤ 10 ^ 9 :=
        Nat.pow_le_pow_right (by omega) (Nat.le_of_lt_succ hlt)
      rw [h.value] at hbound
      unfold intMax
      omega
    rw [if_pos hlt, if_neg (fun hfull => Nat.ne_of_lt hlt hfull.1), Shadow.atoi_of_isIndex h,
      Shadow.saturate_of_le hmax]
  · rw [if_neg hlt, if_pos ⟨Nat.le_antisymm hlen (Nat.not_lt.mp hlt), rfl⟩]

theorem itemType_of_described (h : ArrayDescribed strtod lite n) :
    ∃ t, itemType strtod lite = some t ∧ ((∃ b, t = .basic b) ∨ t = .struct ∧
      (specsOf strtod (itemOf strtod lite)).type = .array) := by
  cases h with
  | basic _ ht => exact ⟨_, ht, .inl ⟨_, rfl⟩⟩
  | struct _ ht harray => exact ⟨_, ht, .inr ⟨rfl, harray⟩⟩

theorem short_of_described (h : ArrayDescribed strtod lite n) :
    (sizeText strtod lite).length < dmUtilsUint32Strlen := by
  cases h with
  | basic hsized => exact hsized.short
  | struct hsized => exact hsized.short

theorem arrayHead_cases (hn : IsIndex (sizeText strtod specs) n) :
    (∃ t, (sizeText strtod specs).length < dmUtilsUint32Strlen ∧ itemType strtod specs = some t ∧
      arrayHead strtod specs = some ⟨success, t, n⟩) ∨
    (∀ m, ¬ ArrayDescribed strtod specs m) ∧ (arrayHead strtod specs = none ∨
      ∃ head, arrayHead strtod specs = some head ∧ head.res ≠ success) := by
  have hjson : dmJsonParseFailed ≠ success := by decide
  have hfail : failReturn ≠ success := by decide
  unfold arrayHead
  rw [item_of_value hn.ne]
  simp only
  by_cases hlong : (sizeText strtod specs).length > dmUtilsUint32Strlen
  · refine .inr ⟨fun m hm => ?_, .inr ?_⟩
    · have := short_of_described hm
      omega
    · rw [if_pos hlong]
      exact ⟨_, rfl, by decide⟩
  rw [if_neg hlong, sizeStrAtoi_of_isIndex hn (Nat.not_lt.mp hlong)]
  by_cases hshort : (sizeText strtod specs).length < dmUtilsUint32Strlen
  swap
  · rw [if_neg hshort]
    exact .inr ⟨fun m hm => hshort (short_of_described hm), .inl rfl⟩
  rw [if_pos hshort, Option.map_some]
  cases htype : liteCjsonObjectItem strtod (itemOf strtod specs) (text "type") with
  | none =>
    have hitem : itemType strtod specs = none := by
      rw [itemType, memberOf, htype]
      rfl
    refine .inr ⟨fun m hm => ?_, .inr ⟨⟨dmJsonParseFailed, .none, n⟩, rfl, hjson⟩⟩
    obtain ⟨t, ht, -⟩ := itemType_of_described hm
    rw [hitem] at ht
    cases ht
  | some type =>
    have hitem : itemType strtod specs = getType type.value := by
      rw [itemType, memberOf, htype]
      rfl
    simp only
    cases hget : getType type.value with
    | none =>
      refine .inr ⟨fun m hm => ?_, .inr ⟨⟨failReturn, .none, n⟩, rfl, hfail⟩⟩
      obtain ⟨t, ht, -⟩ := itemType_of_described hm
      rw [hitem, hget] at ht
      cases ht
    | some t =>
      rw [hget] at hitem
      cases hspecs : liteCjsonObjectItem strtod (itemOf strtod specs) (text "specs") with
      | some it => exact .inl ⟨t, hshort, hitem, by simp only⟩
      | none =>
        simp only
        by_cases hneeds : t = .array ∨ t = .struct
        · refine .inr ⟨fun m hm => ?_, .inr ⟨_, rfl, by simp [hneeds]⟩⟩
          obtain ⟨t', ht', hdescribed⟩ := itemType_of_described hm
          rw [hitem] at ht'
          cases ht'
          rcases hdescribed with ⟨b, rfl⟩ | ⟨-, harray⟩
          · rcases hneeds with h | h <;> cases h
          · rw [specsOf, memberOf, hspecs] at harray
            cases harray
        · exact .inl ⟨t, hshort, hitem, by rw [if_neg hneeds]⟩

theorem isIndex_unique {txt : List UInt8} {m : Nat} (h : IsIndex txt n) (h' : IsIndex txt m) :
    n = m :=
  h.value.symm.trans h'.value

theorem isIndex_of_described (h : ArrayDescribed strtod lite n) :
    ∃ m, IsIndex (sizeText strtod lite) m := by
  cases h with
  | basic hsized => exact ⟨_, hsized.isIndex⟩
  | struct hsized => exact ⟨_, hsized.isIndex⟩

theorem isIndex_of_mirrors (h : ArrayMirrors strtod lite v) :
    ∃ m, IsIndex (sizeText strtod lite) m := by
  cases h with
  | basic hn => exact ⟨_, hn⟩
  | struct hn => exact ⟨_, hn⟩

theorem arrayMirrors_iff_structs (hn : IsIndex (sizeText strtod specs) n)
    (ht : itemType strtod specs = some .struct) :
    ArrayMirrors strtod specs v ↔
      StructsMirror strtod (specsOf strtod (itemOf strtod specs)) n v := by
  constructor
  · intro h
    cases h with
    | basic _ ht' =>
      rw [ht] at ht'
      cases ht'
    | struct hn' _ hlen hitems =>
      cases isIndex_unique hn hn'
      exact ⟨_, rfl, forall₂_replicate.mpr ⟨hlen, hitems⟩⟩
  · rintro ⟨items, rfl, hitems⟩
    obtain ⟨hlen, hitems⟩ := forall₂_replicate.mp hitems
    exact .struct hn ht hlen hitems

theorem loads_arrayParse
    (h : Parses alloc (structParse strtod alloc (specsOf strtod (itemOf strtod specs)))
      (StructDescribed strtod (specsOf strtod (itemOf strtod specs)))
      (StructMirrors strtod (specsOf strtod (itemOf strtod specs)))) :
    Parses alloc (arrayParse strtod alloc specs) (ArrayDescribed strtod specs)
      (ArrayMirrors strtod specs) := by
  have hnull : ¬ Leaves (ArrayMirrors strtod specs) (sysDependMalloc, .nullArray) :=
    fun hkept => nomatch hkept
  have hempty : ∀ res t size, ¬ Leaves (ArrayMirrors strtod specs) (res, .emptyArray t size) :=
    fun res t size hkept => nomatch hkept
  by_cases hindex : ∃ n, IsIndex (sizeText strtod specs) n
  swap
  · exact Parses.never (loads_never fun r hkept => hindex (isIndex_of_mirrors hkept))
      fun n hn => hindex (isIndex_of_described hn)
  obtain ⟨n, hn⟩ := hindex
  have hobject : specs.type = .object := object_of_item (item_of_value hn.ne)
  rw [arrayParse, if_neg (not_not.mpr hobject)]
  obtain ⟨t, hshort, ht, hhead⟩ | ⟨hnot, hhead | ⟨head, hhead, hres⟩⟩ := arrayHead_cases hn
  · simp only [hhead, ne_eq, not_true_eq_false, if_false]
    cases t with
    | none =>
      refine Parses.never (loads_malloc_never (loads_fail (hempty _ _ _)) hnull) fun m hm => ?_
      obtain ⟨t, ht', hdescribed⟩ := itemType_of_described hm
      rw [ht] at ht'
      cases ht'
      simp at hdescribed
    | basic b =>
      refine Parses.cost_congr (loads_malloc (parses_orFail (f := fun v => v)
        (loads_funcArrayParse hn ht) fun v => Iff.rfl) hnull) fun k => ?_
      constructor
      · intro hk
        cases hk with
        | basic hsized ht' =>
          rw [ht] at ht'
          cases ht'
          cases isIndex_unique hn hsized.isIndex
          exact ⟨1, ⟨hsized.fits, rfl⟩, rfl⟩
        | struct _ ht' =>
          rw [ht] at ht'
          cases ht'
      · rintro ⟨m, ⟨hfit, rfl⟩, rfl⟩
        exact .basic ⟨hn, hshort, hfit⟩ ht
    | array =>
      refine Parses.never (loads_malloc_never (loads_fail (hempty _ _ _)) hnull) fun m hm => ?_
      obtain ⟨t, ht', hdescribed⟩ := itemType_of_described hm
      rw [ht] at ht'
      cases ht'
      simp at hdescribed
    | struct =>
      refine Parses.cost_congr (loads_malloc (parses_orFail (f := fun v => v)
        (loads_arrayStructParse h n) fun v => arrayMirrors_iff_structs hn ht) hnull) fun k => ?_
      constructor
      · intro hk
        cases hk with
        | basic _ ht' =>
          rw [ht] at ht'
          cases ht'
        | struct hsized _ harray hsize hcosts =>
          cases isIndex_unique hn hsized.isIndex
          exact ⟨_, ⟨⟨harray, hsize, hsized.fits⟩, _, hcosts, rfl⟩, rfl⟩
      · rintro ⟨m, ⟨⟨harray, hsize, hfit⟩, m, hcosts, rfl⟩, rfl⟩
        exact .struct ⟨hn, hshort, hfit⟩ ht harray hsize hcosts
  · simp only [hhead]
    exact Parses.never (loads_malloc_never loads_stray hnull) hnot
  · simp only [hhead, if_pos hres]
    exact Parses.never (loads_malloc_never (loads_fail (hempty _ _ _)) hnull) hnot

/-! ## Data types and properties -/

theorem not_mirrors_none : ¬ Mirrors strtod lite .none := by
  intro h
  cases h with
  | array _ h => cases h
  | struct _ h => cases h

theorem typeOf_of_described (h : Described strtod lite n) :
    ∃ t, typeOf strtod lite = some t ∧ t ≠ .none := by
  cases h with
  | basic ht => exact ⟨_, ht, DataType.noConfusion⟩
  | array ht => exact ⟨_, ht, DataType.noConfusion⟩
  | struct ht => exact ⟨_, ht, DataType.noConfusion⟩

theorem string_of_typeOf {t : DataType} (h : typeOf strtod lite = some t) :
    (memberOf strtod lite (text "type")).type = .string := by
  unfold typeOf at h
  split at h
  next hstring => exact hstring
  next => cases h

theorem mirrors_iff_array (ht : typeOf strtod lite = some .array) :
    Mirrors strtod lite v ↔ ArrayMirrors strtod (specsOf strtod lite) v := by
  constructor
  · intro h
    cases h with
    | basic ht' => exact absurd (ht.symm.trans ht') (by simp)
    | array _ h => exact h
    | struct ht' => exact absurd (ht.symm.trans ht') (by simp)
  · exact .array ht

theorem mirrors_iff_struct (ht : typeOf strtod lite = some .struct) :
    Mirrors strtod lite v ↔ StructMirrors strtod (specsOf strtod lite) v := by
  constructor
  · intro h
    cases h with
    | basic ht' => exact absurd (ht.symm.trans ht') (by simp)
    | array ht' => exact absurd (ht.symm.trans ht') (by simp)
    | struct _ h => exact h
  · exact .struct ht

theorem described_iff_array (ht : typeOf strtod lite = some .array) :
    Described strtod lite n ↔ ArrayDescribed strtod (specsOf strtod lite) n := by
  constructor
  · intro h
    cases h with
    | basic ht' => exact absurd (ht.symm.trans ht') (by simp)
    | array _ h => exact h
    | struct ht' => exact absurd (ht.symm.trans ht') (by simp)
  · exact .array ht

theorem described_iff_struct (ht : typeOf strtod lite = some .struct) :
    Described strtod lite n ↔ StructDescribed strtod (specsOf strtod lite) n := by
  constructor
  · intro h
    cases h with
    | basic ht' => exact absurd (ht.symm.trans ht') (by simp)
    | array ht' => exact absurd (ht.symm.trans ht') (by simp)
    | struct _ h => exact h
  · exact .struct ht

theorem described_iff_basic {t : BasicType} (ht : typeOf strtod lite = some (.basic t)) :
    Described strtod lite n ↔ n = 0 := by
  constructor
  · intro h
    cases h with
    | basic => rfl
    | array ht' => exact absurd (ht.symm.trans ht') (by simp)
    | struct ht' => exact absurd (ht.symm.trans ht') (by simp)
  · rintro rfl
    exact .basic ht

theorem loads_dataParse (h : ∀ it, it.type = .object → weight it < weight lite →
      Parses alloc (propertyParse strtod alloc it) (EntryDescribed strtod it)
        (EntryMirrors strtod it)) :
    Parses alloc (dataParse strtod alloc lite) (Described strtod lite) (Mirrors strtod lite) := by
  have hstruct : ∀ specs, weight specs ≤ weight lite →
      Parses alloc (structParse strtod alloc specs) (StructDescribed strtod specs)
        (StructMirrors strtod specs) := fun specs hle =>
    loads_structParse fun i hobject =>
      h _ hobject (Nat.lt_of_lt_of_le (weight_elementOf_lt hobject) hle)
  have hfail : ∀ res : Int, ¬ Leaves (Mirrors strtod lite) (res, .none) :=
    fun _ hkept => not_mirrors_none hkept
  rw [dataParse]
  by_cases hstring : (memberOf strtod lite (text "type")).type = .string
  swap
  · rw [if_pos hstring]
    refine Parses.never (loads_fail (hfail _)) fun n hn => ?_
    obtain ⟨t, ht, -⟩ := typeOf_of_described hn
    exact hstring (string_of_typeOf ht)
  rw [if_neg (not_not.mpr hstring)]
  have htype : typeOf strtod lite = getType (memberOf strtod lite (text "type")).value :=
    if_pos hstring
  cases hget : getType (memberOf strtod lite (text "type")).value with
  | none =>
    refine Parses.never (loads_fail (hfail _)) fun n hn => ?_
    obtain ⟨t, ht, -⟩ := typeOf_of_described hn
    rw [htype, hget] at ht
    cases ht
  | some t =>
    rw [hget] at htype
    cases t with
    | none =>
      refine Parses.never (loads_fail (hfail _)) fun n hn => ?_
      obtain ⟨t, ht, hne⟩ := typeOf_of_described hn
      rw [htype] at ht
      cases ht
      exact hne rfl
    | basic t =>
      exact Parses.cost_congr (loads_pure ⟨rfl, .basic htype⟩) fun n => described_iff_basic htype
    | array =>
      have hitem : weight (specsOf strtod (itemOf strtod (specsOf strtod lite))) ≤ weight lite :=
        Nat.le_trans weight_memberOf_le (Nat.le_trans weight_memberOf_le weight_memberOf_le)
      exact Parses.cost_congr (parses_orFail (f := fun v => v) (loads_arrayParse (hstruct _ hitem))
        fun v => mirrors_iff_array htype) fun n => described_iff_array htype
    | struct =>
      exact Parses.cost_congr (parses_orFail (f := fun v => v) (hstruct _ weight_memberOf_le)
        fun v => mirrors_iff_struct htype) fun n => described_iff_struct htype

theorem dmUtilsCopy_eq_iff {value : List UInt8} :
    (dmUtilsCopy value).val = value ↔ (0 : UInt8) ∉ value := by
  constructor
  · intro h
    rw [← h]
    exact (dmUtilsCopy value).property
  · exact AliyunIot.Format.precision_eq_self

theorem identifies_dmUtilsCopy : Identifies strtod lite
    (dmUtilsCopy (memberOf strtod lite (text "identifier")).value) ↔ Named strtod lite := by
  constructor
  · rintro ⟨hstring, heq⟩
    exact ⟨hstring, dmUtilsCopy_eq_iff.mp heq⟩
  · rintro ⟨hstring, hnul⟩
    exact ⟨hstring, dmUtilsCopy_eq_iff.mpr hnul⟩

theorem loads_identified {β : Type} {x : Alloc (Int × β)} {zero : β} {cost : Nat → Prop}
    {good kept : Int × β → Prop} (hzero : ∀ res, ¬ kept (res, zero))
    (hnamed : Named strtod lite → Loads alloc x cost good kept)
    (hunnamed : ¬ Named strtod lite → Loads alloc x (fun _ => False) good kept) :
    Loads alloc
      (if (memberOf strtod lite (text "identifier")).type ≠ .string then
        pure (dmJsonParseFailed, zero)
      else malloc alloc >>= fun got => if got = true then x else pure (failReturn, zero))
      (fun n => Named strtod lite ∧ ∃ m, cost m ∧ n = m + 1) good kept := by
  by_cases h : Named strtod lite
  · rw [if_neg (not_not.mpr h.string)]
    exact (loads_malloc (hnamed h) (hzero _)).congr (fun n => and_iff_right h) (fun _ => id)
      fun _ => id
  · have hnever : ∀ n, (Named strtod lite ∧ ∃ m, cost m ∧ n = m + 1) ↔ False :=
      fun n => iff_false_intro fun hn => h hn.1
    split
    · exact (loads_fail (hzero _)).congr hnever (fun _ => id) fun _ => id
    · exact (loads_malloc_never (hunnamed h) (hzero _)).congr hnever (fun _ => id) fun _ => id

theorem loads_propertyParse (lite : LiteCjson) :
    Parses alloc (propertyParse strtod alloc lite) (EntryDescribed strtod lite)
      (EntryMirrors strtod lite) := by
  induction hw : weight lite using Nat.strong_induction_on generalizing lite with
  | _ w ih =>
    subst hw
    have hcost : ∀ n, EntryDescribed strtod lite n ↔
        Named strtod lite ∧ ∃ m, Described strtod (dataTypeOf strtod lite) m ∧ n = m + 1 := by
      intro n
      constructor
      · intro hn
        cases hn with
        | mk hnamed hdescribed => exact ⟨hnamed, _, hdescribed, rfl⟩
      · rintro ⟨hnamed, m, hdescribed, rfl⟩
        exact .mk hnamed hdescribed
    have hentry : ∀ v, EntryMirrors strtod lite
        (some (dmUtilsCopy (memberOf strtod lite (text "identifier")).value), v) ↔
          Named strtod lite ∧ Mirrors strtod (dataTypeOf strtod lite) v := by
      intro v
      constructor
      · intro h
        cases h with
        | mk hid hv => exact ⟨identifies_dmUtilsCopy.mp hid, hv⟩
      · rintro ⟨hnamed, hv⟩
        exact .mk (identifies_dmUtilsCopy.mpr hnamed) hv
    rw [propertyParse]
    refine Parses.cost_congr (loads_identified (fun _ h => not_entryMirrors_zeroData h) ?_ ?_) hcost
    · intro hnamed
      by_cases hobject : (dataTypeOf strtod lite).type = .object
      · rw [dif_pos hobject]
        apply parses_orFail (loads_dataParse fun it hit hlt =>
          ih _ (Nat.lt_trans hlt (weight_memberOf_lt hobject)) it rfl)
        exact fun v => (hentry v).trans (and_iff_right hnamed)
      · rw [dif_neg hobject]
        have hnone : ∀ res id, ¬ Leaves (EntryMirrors strtod lite) (res, (some id, .none)) := by
          intro res id h
          cases h with
          | mk _ hv => exact not_mirrors_none hv
        refine Parses.never (loads_fail (hnone _ _)) fun n hn => ?_
        obtain ⟨t, ht, -⟩ := typeOf_of_described hn
        exact hobject (object_of_type CjsonType.noConfusion (string_of_typeOf ht))
    · intro hunnamed
      split
      · exact loads_bind_never fun r => loads_fail fun h => hunnamed ((hentry _).mp h).1
      · exact loads_fail fun h => hunnamed ((hentry _).mp h).1

end

end AliyunIot.Dm.Tsl
