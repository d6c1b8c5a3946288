import AliyunIot.Dm.TslValue

/-!
# A thing model is loaded as a whole

What `dm_tsl_alink_create` should do (`LoadsWhole`): where it succeeds, the shadow mirrors the
text, and where it fails nothing of it is left. The entries that fail are passed over and the
blocks of a failed load are not freed, so it does that exactly where there is nothing to load,
or the text is described and no block is missing (`loadsWhole_iff`).
-/

namespace AliyunIot.Dm.Tsl

open Cjson Lib Lib.Alloc Libc State
open Format (text)
open Shadow (DataValue Data)
open List (Forall₂)

/-! ## The text and the shadow -/

section

variable (strtod : Strtod)

def arrayOf (lite : LiteCjson) (key : List UInt8) : LiteCjson :=
  if (memberOf strtod lite key).type = .array then memberOf strtod lite key else .zero

/-- There is an entry for each element of the array. -/
structure TableMirrors {α : Type} (good : LiteCjson → α → Prop) (lite : LiteCjson)
    (table : Table α) : Prop where
  number : table.number = lite.size
  entries : Forall₂ good (elements strtod lite) table.entries

/-- The event of a `post` is ignored. -/
structure EventMirrors (lite : LiteCjson) (event : Event) : Prop where
  identifier : ∃ identifier, event.identifier = some identifier ∧
    Identifies strtod lite identifier
  outputDatas : (memberOf strtod lite (text "identifier")).value ≠ text "post" →
    TableMirrors strtod (EntryMirrors strtod) (arrayOf strtod lite (text "outputData"))
      event.outputDatas

abbrev SetOrGet (name : List UInt8) : Prop := name = text "set" ∨ name = text "get"

structure ServiceMirrors (lite : LiteCjson) (service : Service) : Prop where
  identifier : ∃ identifier, service.identifier = some identifier ∧
    Identifies strtod lite identifier
  outputDatas : ¬ SetOrGet (memberOf strtod lite (text "identifier")).value →
    TableMirrors strtod (EntryMirrors strtod) (arrayOf strtod lite (text "outputData"))
      service.outputDatas
  inputDatas : ¬ SetOrGet (memberOf strtod lite (text "identifier")).value →
    TableMirrors strtod (EntryMirrors strtod) (arrayOf strtod lite (text "inputData"))
      service.inputDatas

/-- The shadow has what the text says, and in the same order. -/
structure ShadowMirrors (root : LiteCjson) (shadow : DmShw) : Prop where
  properties : TableMirrors strtod (EntryMirrors strtod)
    (arrayOf strtod root (text "properties")) shadow.properties
  events : TableMirrors strtod (EventMirrors strtod) (arrayOf strtod root (text "events"))
    shadow.events
  services : TableMirrors strtod (ServiceMirrors strtod) (arrayOf strtod root (text "services"))
    shadow.services

/-- A thing model is loaded completely or not at all, and nothing is accessed outside the
buffers. -/
structure LoadsWhole (alloc : Nat → Bool) (tsl : List UInt8) : Prop where
  inBuffers : dmTslAlinkCreate strtod alloc none tsl .empty ≠ none
  completely : ∀ shadow heap,
    dmTslAlinkCreate strtod alloc none tsl .empty = some ((success, shadow), heap) →
    ∃ root shw, liteCjsonParse strtod tsl = some root ∧ shadow = some shw ∧
      ShadowMirrors strtod root shw
  notAtAll : ∀ res shadow heap,
    dmTslAlinkCreate strtod alloc none tsl .empty = some ((res, shadow), heap) → res ≠ success →
    shadow = none ∧ heap.live = 0

/-! ## Texts that can be loaded -/

/-- Each element of the array is described, and a block for the entries has a size. -/
inductive TableDescribed (cost : LiteCjson → Nat → Prop) (size : Nat) : LiteCjson → Nat → Prop
  | empty {lite : LiteCjson} : lite.size = 0 → TableDescribed cost size lite 0
  | entries {lite : LiteCjson} {n : Nat} : lite.size ≠ 0 → Fits lite.size size →
    Costs cost (elements strtod lite) n → TableDescribed cost size lite (n + 1)

inductive EventDescribed : LiteCjson → Nat → Prop
  | post {lite : LiteCjson} : Named strtod lite →
    (memberOf strtod lite (text "identifier")).value = text "post" → EventDescribed lite 1
  | outputs {lite : LiteCjson} {n : Nat} : Named strtod lite →
    (memberOf strtod lite (text "identifier")).value ≠ text "post" →
    TableDescribed strtod (EntryDescribed strtod) dataSize
      (arrayOf strtod lite (text "outputData")) n →
    EventDescribed lite (n + 1)

inductive ServiceDescribed : LiteCjson → Nat → Prop
  | setOrGet {lite : LiteCjson} : Named strtod lite →
    SetOrGet (memberOf strtod lite (text "identifier")).value → ServiceDescribed lite 1
  | datas {lite : LiteCjson} {m n : Nat} : Named strtod lite →
    ¬ SetOrGet (memberOf strtod lite (text "identifier")).value →
    TableDescribed strtod (EntryDescribed strtod) dataSize
      (arrayOf strtod lite (text "outputData")) m →
    TableDescribed strtod (EntryDescribed strtod) dataSize
      (arrayOf strtod lite (text "inputData")) n →
    ServiceDescribed lite (m + n + 1)

def AbsentOrArray (root : LiteCjson) (key : List UInt8) : Prop :=
  ∀ it, liteCjsonObjectItem strtod root key = some it → it.type = .array

def MemberDescribed (cost : LiteCjson → Nat → Prop) (size : Nat) (root : LiteCjson)
    (key : List UInt8) (n : Nat) : Prop :=
  AbsentOrArray strtod root key ∧ TableDescribed strtod cost size (arrayOf strtod root key) n

/-- The text describes a thing whose shadow takes the number of blocks, besides its own. -/
inductive RootDescribed : LiteCjson → Nat → Prop
  | mk {root : LiteCjson} {n₁ n₂ n₃ : Nat} :
    MemberDescribed strtod (EntryDescribed strtod) dataSize root (text "properties") n₁ →
    MemberDescribed strtod (EventDescribed strtod) eventSize root (text "events") n₂ →
    MemberDescribed strtod (ServiceDescribed strtod) serviceSize root (text "services") n₃ →
    RootDescribed root (n₁ + n₂ + n₃)

/-- There is nothing to load, or the text is described and no block is missing. -/
inductive Loadable (alloc : Nat → Bool) (tsl : List UInt8) : Prop
  | noText : tsl = [] → Loadable alloc tsl
  | noShadow : alloc 0 = false → Loadable alloc tsl
  | noObject : (∀ root, liteCjsonParse strtod tsl = some root → root.type ≠ .object) →
    Loadable alloc tsl
  | described {root : LiteCjson} {n : Nat} : liteCjsonParse strtod tsl = some root →
    root.type = .object → RootDescribed strtod root n → (∀ k ≤ n, alloc k = true) →
    Loadable alloc tsl

end

/-! ## Tables -/

section

variable {strtod : Strtod} {alloc : Nat → Bool} {lite : LiteCjson} {key : List UInt8} {n size : Nat}
  {α : Type} {zero : α} {objects : Bool} {parse : LiteCjson → Alloc (Int × α)}
  {cost : LiteCjson → Nat → Prop} {good : LiteCjson → α → Prop}

/-- An entry that is passed over where it fails: what its parser reports is not looked at. -/
def ParsesEntry (alloc : Nat → Bool) (parse : LiteCjson → Alloc (Int × α))
    (cost : LiteCjson → Nat → Prop) (good : LiteCjson → α → Prop) : Prop :=
  ∀ it, Loads alloc (parse it) (cost it) (Leaves (good it)) (Leaves (good it))

theorem loads_entriesParse (hparse : ParsesEntry alloc parse cost good)
    (hobject : ∀ it n, cost it n → it.type = .object) (room todo index : Nat) :
    Parses alloc (entriesParse strtod objects parse lite room todo index)
      (fun n => todo ≤ room - index ∧ Costs cost (elementsFrom strtod lite index todo) n)
      (Forall₂ good (elementsFrom strtod lite index todo)) := by
  induction todo generalizing index with
  | zero =>
    rw [entriesParse]
    refine Parses.cost_congr (loads_pure ⟨rfl, .nil⟩) fun n => ?_
    rw [elementsFrom, List.range'_zero, List.map_nil, costs_nil_iff, and_iff_right (Nat.zero_le _)]
  | succ todo ih =>
    rw [entriesParse, elementsFrom_succ]
    have hfail : ¬ Leaves (Forall₂ good (elementOf strtod lite index ::
        elementsFrom strtod lite (index + 1) todo)) (failReturn, []) := fun h => by
      cases h
    have hcosts : ∀ {n}, Costs cost (elementOf strtod lite index ::
        elementsFrom strtod lite (index + 1) todo) n →
          (elementOf strtod lite index).type = .object := by
      intro n hn
      obtain ⟨n₁, n₂, hn₁, -⟩ := costs_cons_iff.mp hn
      exact hobject _ _ hn₁
    cases hitem : liteCjsonArrayItem strtod lite index with
    | none =>
      refine Parses.never (loads_fail hfail) fun n hn => ?_
      have htype := hcosts hn.2
      rw [elementOf, hitem] at htype
      cases htype
    | some it =>
      have helement : elementOf strtod lite index = it := by
        rw [elementOf, hitem]
        rfl
      rw [helement] at hfail hcosts ⊢
      simp only
      by_cases hobjects : objects = true ∧ it.type ≠ .object
      · rw [if_pos hobjects]
        exact Parses.never (loads_fail hfail) fun n hn => hobjects.2 (hcosts hn.2)
      · rw [if_neg hobjects]
        by_cases hroom : room ≤ index
        · rw [if_pos hroom]
          exact Parses.never loads_stray fun n hn => by omega
        · rw [if_neg hroom]
          refine Parses.cost_congr (loads_map₂ (hparse it) (ih (index + 1)) ?_ ?_)
            fun n => room_step hroom
          · rintro ⟨res, a⟩ ⟨res', as⟩ ha ⟨hres, has⟩
            exact ⟨hres, .cons ha has⟩
          · rintro ⟨res, a⟩ ⟨res', as⟩ hkept
            exact List.forall₂_cons.mp hkept

theorem loads_tableParse (hparse : ParsesEntry alloc parse cost good)
    (hobject : ∀ it n, cost it n → it.type = .object) (hzero : ∀ it, ¬ good it zero)
    (hsize : 0 < size) :
    Parses alloc (tableParse strtod alloc objects size zero parse lite)
      (TableDescribed strtod cost size lite) (TableMirrors strtod good lite) := by
  rw [tableParse]
  by_cases hempty : lite.size = 0
  · rw [if_pos hempty]
    refine Parses.cost_congr (loads_pure ⟨rfl, hempty.symm, ?_⟩) fun n => ?_
    · simp [elementsFrom, hempty, Table.entries, Table.empty]
    · constructor
      · intro hn
        cases hn with
        | empty => rfl
        | entries hne => exact absurd hempty hne
      · rintro rfl
        exact .empty hempty
  · rw [if_neg hempty]
    have hcap : capacity lite.size size ≤ (elements strtod lite).length := by
      rw [length_elements]
      exact capacity_le _ hsize
    have htable : ∀ as, TableMirrors strtod good lite
        ⟨lite.size, some (fill (capacity lite.size size) zero as)⟩ ↔
          Forall₂ good (elements strtod lite) as := by
      intro as
      rw [← forall₂_fill hzero hcap]
      exact ⟨fun h => h.entries, fun h => ⟨rfl, h⟩⟩
    refine Parses.cost_congr (loads_malloc (parses_map
      (loads_entriesParse hparse hobject (capacity lite.size size) lite.size 0) htable) ?_)
      fun n => ?_
    · intro hkept
      have hlen := hkept.entries.length_eq
      rw [length_elements] at hlen
      exact hempty hlen
    · have hfits := @le_capacity_iff lite.size size hsize
      constructor
      · intro hn
        cases hn with
        | empty hzero => exact absurd hzero hempty
        | entries _ hfit hcosts => exact ⟨_, ⟨hfits.mpr hfit, hcosts⟩, rfl⟩
      · rintro ⟨m, ⟨hle, hcosts⟩, rfl⟩
        exact .entries hempty (hfits.mp hle) hcosts

end

/-! ## Entries -/

section

variable {strtod : Strtod} {alloc : Nat → Bool} {lite : LiteCjson} {n : Nat}

theorem tableMirrors_empty {α : Type} {good : LiteCjson → α → Prop} :
    TableMirrors strtod good .zero .empty :=
  ⟨rfl, .nil⟩

theorem tableDescribed_zero_iff {cost : LiteCjson → Nat → Prop} {size : Nat} :
    TableDescribed strtod cost size .zero n ↔ n = 0 := by
  constructor
  · intro h
    cases h with
    | empty => rfl
    | entries hne => exact absurd rfl hne
  · rintro rfl
    exact .empty rfl

theorem parsesEntry_property :
    ParsesEntry alloc (propertyParse strtod alloc) (EntryDescribed strtod) (EntryMirrors strtod) :=
  fun it => (loads_propertyParse it).congr (fun _ => Iff.rfl) (fun _ h => h.2) fun _ h => h

theorem parsesEntry_inputdata : ParsesEntry alloc (serviceInputdataParse strtod alloc)
    (EntryDescribed strtod) (EntryMirrors strtod) := by
  intro it
  rw [serviceInputdataParse]
  split
  next hobject =>
    have hzero : ¬ Leaves (EntryMirrors strtod it) (userInputInvalid, zeroData) :=
      not_entryMirrors_zeroData
    refine (loads_fail hzero).congr (fun n => ?_) (fun _ => id) fun _ => id
    exact iff_false_intro fun hn => hobject (object_of_entryDescribed hn)
  next => exact parsesEntry_property it

theorem loads_datasParse {objects : Bool} {parse : LiteCjson → Alloc (Int × Data)}
    (h : ParsesEntry alloc parse (EntryDescribed strtod) (EntryMirrors strtod)) :
    Parses alloc (tableParse strtod alloc objects dataSize zeroData parse lite)
      (TableDescribed strtod (EntryDescribed strtod) dataSize lite)
      (TableMirrors strtod (EntryMirrors strtod) lite) :=
  loads_tableParse h (fun _ _ => object_of_entryDescribed) (fun _ => not_entryMirrors_zeroData)
    (by decide)

theorem eventDescribed_iff : EventDescribed strtod lite n ↔
    Named strtod lite ∧ ∃ m,
      (((memberOf strtod lite (text "identifier")).value = text "post" ∧ m = 0) ∨
        (memberOf strtod lite (text "identifier")).value ≠ text "post" ∧
          TableDescribed strtod (EntryDescribed strtod) dataSize
            (arrayOf strtod lite (text "outputData")) m) ∧ n = m + 1 := by
  constructor
  · intro h
    cases h with
    | post hnamed hpost => exact ⟨hnamed, 0, .inl ⟨hpost, rfl⟩, rfl⟩
    | outputs hnamed hpost htable => exact ⟨hnamed, _, .inr ⟨hpost, htable⟩, rfl⟩
  · rintro ⟨hnamed, m, ⟨hpost, rfl⟩ | ⟨hpost, htable⟩, rfl⟩
    · exact .post hnamed hpost
    · exact .outputs hnamed hpost htable

theorem eventMirrors_copy {table : Table Data} : EventMirrors strtod lite
    ⟨some (dmUtilsCopy (memberOf strtod lite (text "identifier")).value), table⟩ ↔
      Named strtod lite ∧ ((memberOf strtod lite (text "identifier")).value ≠ text "post" →
        TableMirrors strtod (EntryMirrors strtod) (arrayOf strtod lite (text "outputData"))
          table) := by
  constructor
  · rintro ⟨⟨identifier, heq, hid⟩, htable⟩
    cases heq
    exact ⟨identifies_dmUtilsCopy.mp hid, htable⟩
  · rintro ⟨hnamed, htable⟩
    exact ⟨⟨_, rfl, identifies_dmUtilsCopy.mpr hnamed⟩, htable⟩

theorem not_eventMirrors_zero : ¬ EventMirrors strtod lite zeroEvent := by
  rintro ⟨⟨identifier, heq, -⟩, -⟩
  cases heq

theorem loads_eventParse : ParsesEntry alloc (eventParse strtod alloc) (EventDescribed strtod)
    (EventMirrors strtod) := by
  intro lite
  have hleaves : ∀ (res : Int) (table : Table Data), Leaves (EventMirrors strtod lite)
      (res, ⟨some (dmUtilsCopy (memberOf strtod lite (text "identifier")).value), table⟩) ↔
        Named strtod lite ∧ ((memberOf strtod lite (text "identifier")).value ≠ text "post" →
          TableMirrors strtod (EntryMirrors strtod) (arrayOf strtod lite (text "outputData"))
            table) := fun _ _ => eventMirrors_copy
  rw [eventParse]
  refine (loads_identified (fun _ h => not_eventMirrors_zero h) ?_ ?_).congr
    (fun n => eventDescribed_iff) (fun _ => id) fun _ => id
  · intro hnamed
    simp only [dmUtilsCopy_eq_iff.mpr hnamed.nul]
    by_cases hpost : (memberOf strtod lite (text "identifier")).value = text "post"
    · rw [if_pos hpost]
      refine (loads_pure ((hleaves _ _).mpr ⟨hnamed, fun h => absurd hpost h⟩)).congr
        (fun n => ?_) (fun _ => id) fun _ => id
      simp [hpost]
    · rw [if_neg hpost]
      by_cases harray : (memberOf strtod lite (text "outputData")).type = .array
      · have harrayOf : arrayOf strtod lite (text "outputData") =
            memberOf strtod lite (text "outputData") := if_pos harray
        rw [if_neg (not_not.mpr harray)]
        refine (parses_orFail (loads_datasParse parsesEntry_property) fun table => ?_).congr
          (fun n => ?_) (fun _ h => h.2) fun _ h => h
        · rw [eventMirrors_copy, harrayOf, and_iff_right hnamed, imp_iff_right hpost]
        · simp [hpost, harrayOf]
      · have harrayOf : arrayOf strtod lite (text "outputData") = .zero := if_neg harray
        rw [if_pos harray]
        refine (loads_pure ((hleaves _ _).mpr ⟨hnamed, fun _ => ?_⟩)).congr
          (fun n => ?_) (fun _ => id) fun _ => id
        · rw [harrayOf]
          exact tableMirrors_empty
        · simp [hpost, harrayOf, tableDescribed_zero_iff]
  · intro hunnamed
    have hnone : ∀ res table, ¬ Leaves (EventMirrors strtod lite)
        (res, ⟨some (dmUtilsCopy (memberOf strtod lite (text "identifier")).value), table⟩) :=
      fun res table h => hunnamed ((hleaves res table).mp h).1
    simp only
    split
    · exact loads_fail (hnone _ _)
    · split
      · exact loads_fail (hnone _ _)
      · exact loads_bind_never fun r => loads_fail (hnone _ _)

theorem loads_optionalParse {key : List UInt8} {parse : LiteCjson → Alloc (Int × Table Data)}
    (h : ∀ it, Parses alloc (parse it) (TableDescribed strtod (EntryDescribed strtod) dataSize it)
      (TableMirrors strtod (EntryMirrors strtod) it)) :
    Parses alloc (optionalParse parse (memberOf strtod lite key))
      (TableDescribed strtod (EntryDescribed strtod) dataSize (arrayOf strtod lite key))
      (TableMirrors strtod (EntryMirrors strtod) (arrayOf strtod lite key)) := by
  unfold optionalParse arrayOf
  split
  · exact h _
  · exact Parses.cost_congr (loads_pure ⟨rfl, tableMirrors_empty⟩) fun n => tableDescribed_zero_iff

theorem serviceDescribed_iff : ServiceDescribed strtod lite n ↔
    Named strtod lite ∧ ∃ k,
      ((SetOrGet (memberOf strtod lite (text "identifier")).value ∧ k = 0) ∨
        ¬ SetOrGet (memberOf strtod lite (text "identifier")).value ∧ ∃ n₁ n₂,
          TableDescribed strtod (EntryDescribed strtod) dataSize
            (arrayOf strtod lite (text "outputData")) n₁ ∧
          TableDescribed strtod (EntryDescribed strtod) dataSize
            (arrayOf strtod lite (text "inputData")) n₂ ∧ k = n₁ + n₂) ∧ n = k + 1 := by
  constructor
  · intro h
    cases h with
    | setOrGet hnamed hignored => exact ⟨hnamed, 0, .inl ⟨hignored, rfl⟩, rfl⟩
    | datas hnamed hignored houtputs hinputs =>
      exact ⟨hnamed, _, .inr ⟨hignored, _, _, houtputs, hinputs, rfl⟩, rfl⟩
  · rintro ⟨hnamed, k, ⟨hignored, rfl⟩ | ⟨hignored, n₁, n₂, houtputs, hinputs, rfl⟩, rfl⟩
    · exact .setOrGet hnamed hignored
    · exact .datas hnamed hignored houtputs hinputs

theorem serviceMirrors_copy {inputs outputs : Table Data} : ServiceMirrors strtod lite
    ⟨some (dmUtilsCopy (memberOf strtod lite (text "identifier")).value), inputs, outputs⟩ ↔
      Named strtod lite ∧ (¬ SetOrGet (memberOf strtod lite (text "identifier")).value →
        TableMirrors strtod (EntryMirrors strtod) (arrayOf strtod lite (text "outputData"))
          outputs ∧
        TableMirrors strtod (EntryMirrors strtod) (arrayOf strtod lite (text "inputData"))
          inputs) := by
  constructor
  · rintro ⟨⟨identifier, heq, hid⟩, houtputs, hinputs⟩
    cases heq
    exact ⟨identifies_dmUtilsCopy.mp hid, fun h => ⟨houtputs h, hinputs h⟩⟩
  · rintro ⟨hnamed, htables⟩
    exact ⟨⟨_, rfl, identifies_dmUtilsCopy.mpr hnamed⟩, fun h => (htables h).1,
      fun h => (htables h).2⟩

theorem other_iff {p q r : Prop} (h : ¬ p) : p ∧ q ∨ ¬ p ∧ r ↔ r := by
  rw [and_iff_right h]
  exact or_iff_right fun hpq => h hpq.1

theorem not_serviceMirrors_zero : ¬ ServiceMirrors strtod lite zeroService := by
  rintro ⟨⟨identifier, heq, -⟩, -⟩
  cases heq

theorem loads_serviceParse : ParsesEntry alloc (serviceParse strtod alloc)
    (ServiceDescribed strtod) (ServiceMirrors strtod) := by
  intro lite
  have hleaves : ∀ (res : Int) (inputs outputs : Table Data), Leaves (ServiceMirrors strtod lite)
      (res, ⟨some (dmUtilsCopy (memberOf strtod lite (text "identifier")).value), inputs,
        outputs⟩) ↔
        Named strtod lite ∧ (¬ SetOrGet (memberOf strtod lite (text "identifier")).value →
          TableMirrors strtod (EntryMirrors strtod) (arrayOf strtod lite (text "outputData"))
            outputs ∧
          TableMirrors strtod (EntryMirrors strtod) (arrayOf strtod lite (text "inputData"))
            inputs) := fun _ _ _ => serviceMirrors_copy
  rw [serviceParse]
  refine (loads_identified (fun _ h => not_serviceMirrors_zero h) ?_ ?_).congr
    (fun n => serviceDescribed_iff) (fun _ => id) fun _ => id
  · intro hnamed
    simp only [dmUtilsCopy_eq_iff.mpr hnamed.nul]
    have houtputs : Parses alloc _ _ _ := @loads_optionalParse strtod alloc lite (text "outputData")
      (serviceOutputdatasParse strtod alloc) fun it => loads_datasParse parsesEntry_property
    have hinputs : Parses alloc _ _ _ := @loads_optionalParse strtod alloc lite (text "inputData")
      (serviceInputdatasParse strtod alloc) fun it => loads_datasParse parsesEntry_inputdata
    by_cases hignored : SetOrGet (memberOf strtod lite (text "identifier")).value
    · rw [if_pos hignored]
      refine (loads_pure ((hleaves _ _ _).mpr ⟨hnamed, fun h => absurd hignored h⟩)).congr
        (fun n => ?_) (fun _ => id) fun _ => id
      simp [hignored]
    · rw [if_neg hignored]
      refine (loads_bind houtputs ?_ ?_).congr (fun n => other_iff hignored) (fun _ => id)
        fun _ => id
      · rintro ⟨res, outputs⟩ n heap ⟨rfl, hout⟩ hn hgranted
        obtain ⟨⟨res, inputs⟩, hx, rfl, hin⟩ := hinputs.complete hn hgranted
        rw [if_neg (fun hne => hne rfl)]
        exact ⟨_, bind_of_eq hx, (hleaves _ _ _).mpr ⟨hnamed, fun _ => ⟨hout, hin⟩⟩⟩
      · rintro ⟨res, outputs⟩ b heap heap' hx hkept
        by_cases hres : res = success
        · rw [if_neg (fun hne => hne hres)] at hx
          obtain ⟨⟨res', inputs⟩, heap₁, hread, hpure⟩ := bind_eq_some hx
          cases hpure
          obtain ⟨hout, hin⟩ := ((hleaves _ _ _).mp hkept).2 hignored
          exact ⟨hout, hinputs.only hread hin⟩
        · rw [if_pos hres] at hx
          cases hx
          obtain ⟨hout, hin⟩ := ((hleaves _ _ _).mp hkept).2 hignored
          exact ⟨hout, 0, .empty hin.number.symm, granted_zero, rfl⟩
  · intro hunnamed
    have hnone : ∀ res inputs outputs, ¬ Leaves (ServiceMirrors strtod lite)
        (res, ⟨some (dmUtilsCopy (memberOf strtod lite (text "identifier")).value), inputs,
          outputs⟩) := fun res inputs outputs h => hunnamed ((hleaves res inputs outputs).mp h).1
    simp only
    split
    · exact loads_fail (hnone _ _ _)
    · refine loads_bind_never fun outputs => ?_
      split
      · exact loads_fail (hnone _ _ _)
      · exact loads_bind_never fun inputs => loads_fail (hnone _ _ _)

end

/-! ## The shadow -/

section

variable {strtod : Strtod} {alloc : Nat → Bool} {root : LiteCjson} {tsl : List UInt8}

theorem loads_memberTableParse {α : Type} {key : List UInt8} {size : Nat} {zero : α}
    {parse : LiteCjson → Alloc (Int × α)} {cost : LiteCjson → Nat → Prop}
    {good : LiteCjson → α → Prop} (hparse : ParsesEntry alloc parse cost good)
    (hobject : ∀ it n, cost it n → it.type = .object) (hzero : ∀ it, ¬ good it zero)
    (hsize : 0 < size) :
    Loads alloc (memberTableParse strtod alloc key size zero parse root)
      (MemberDescribed strtod cost size root key)
      (Succeeds (TableMirrors strtod good (arrayOf strtod root key)))
      (Succeeds (TableMirrors strtod good (arrayOf strtod root key))) := by
  unfold memberTableParse
  cases hitem : liteCjsonObjectItem strtod root key with
  | none =>
    have harrayOf : arrayOf strtod root key = .zero := by
      rw [arrayOf, memberOf, hitem]
      rfl
    have habsent : AbsentOrArray strtod root key := fun it hit => by rw [hitem] at hit; cases hit
    rw [harrayOf]
    refine (loads_pure ⟨rfl, tableMirrors_empty⟩).congr (fun n => ?_) (fun _ => id) fun _ => id
    rw [MemberDescribed, harrayOf, and_iff_right habsent, tableDescribed_zero_iff]
  | some lite =>
    simp only
    by_cases harray : lite.type = .array
    · have harrayOf : arrayOf strtod root key = lite := by
        rw [arrayOf, memberOf, hitem]
        exact if_pos harray
      have hpresent : AbsentOrArray strtod root key := by
        intro it hit
        rw [hitem] at hit
        cases hit
        exact harray
      rw [if_neg (not_not.mpr harray), harrayOf]
      refine (loads_tableParse hparse hobject hzero hsize).congr (fun n => ?_) (fun _ => id)
        fun _ h => h.2
      rw [MemberDescribed, harrayOf, and_iff_right hpresent]
    · rw [if_pos harray]
      refine (loads_fail ?_).congr (fun n => ?_) (fun _ => id) fun _ => id
      · rintro ⟨hres, -⟩
        cases hres
      · exact iff_false_intro fun hn => harray (hn.1 lite hitem)

theorem loads_then {β γ : Type} {x : Alloc (Int × β)} {f : Int × β → Alloc γ} {bad : Int × β → γ}
    {cost cost' : Nat → Prop} {good : β → Prop} {good' kept' : γ → Prop}
    (h : Loads alloc x cost (Succeeds good) (Succeeds good))
    (hf : ∀ r, good r.2 → Loads alloc (f r) cost' good' kept')
    (hnot : ∀ r, ¬ good r.2 → Loads alloc (f r) (fun _ => False) good' kept')
    (hbad : ∀ r, ¬ kept' (bad r)) :
    Loads alloc (x >>= fun r => if r.1 ≠ success then pure (bad r) else f r)
      (fun n => ∃ n₁ n₂, cost n₁ ∧ cost' n₂ ∧ n = n₁ + n₂) good' kept' := by
  apply loads_bind h
  · rintro r n heap ⟨hres, ha⟩ hn hgranted
    rw [if_neg (not_not.mpr hres)]
    exact (hf r ha).complete hn hgranted
  · intro r c heap heap' hx hc
    by_cases hres : r.1 = success
    · rw [if_neg (not_not.mpr hres)] at hx
      by_cases ha : good r.2
      · exact ⟨⟨hres, ha⟩, (hf r ha).only hx hc⟩
      · obtain ⟨n, hn, -⟩ := (hnot r ha).only hx hc
        exact hn.elim
    · rw [if_pos hres] at hx
      cases hx
      exact absurd hc (hbad r)

theorem object_of_eventDescribed {lite : LiteCjson} {n : Nat} (h : EventDescribed strtod lite n) :
    lite.type = .object :=
  (eventDescribed_iff.mp h).1.object

theorem object_of_serviceDescribed {lite : LiteCjson} {n : Nat}
    (h : ServiceDescribed strtod lite n) : lite.type = .object :=
  (serviceDescribed_iff.mp h).1.object

theorem loads_propertiesParse : Loads alloc (propertiesParse strtod alloc root)
    (MemberDescribed strtod (EntryDescribed strtod) dataSize root (text "properties"))
    (Succeeds (TableMirrors strtod (EntryMirrors strtod) (arrayOf strtod root (text "properties"))))
    (Succeeds
      (TableMirrors strtod (EntryMirrors strtod) (arrayOf strtod root (text "properties")))) :=
  loads_memberTableParse parsesEntry_property (fun _ _ => object_of_entryDescribed)
    (fun _ => not_entryMirrors_zeroData) (by decide)

theorem loads_eventsParse : Loads alloc (eventsParse strtod alloc root)
    (MemberDescribed strtod (EventDescribed strtod) eventSize root (text "events"))
    (Succeeds (TableMirrors strtod (EventMirrors strtod) (arrayOf strtod root (text "events"))))
    (Succeeds (TableMirrors strtod (EventMirrors strtod) (arrayOf strtod root (text "events")))) :=
  loads_memberTableParse loads_eventParse (fun _ _ => object_of_eventDescribed)
    (fun _ => not_eventMirrors_zero) (by decide)

theorem loads_servicesParse : Loads alloc (servicesParse strtod alloc root)
    (MemberDescribed strtod (ServiceDescribed strtod) serviceSize root (text "services")) (Succeeds
      (TableMirrors strtod (ServiceMirrors strtod) (arrayOf strtod root (text "services"))))
    (Succeeds
      (TableMirrors strtod (ServiceMirrors strtod) (arrayOf strtod root (text "services")))) :=
  loads_memberTableParse loads_serviceParse (fun _ _ => object_of_serviceDescribed)
    (fun _ => not_serviceMirrors_zero) (by decide)

theorem rootDescribed_iff {n : Nat} : RootDescribed strtod root n ↔
    ∃ n₁ m, MemberDescribed strtod (EntryDescribed strtod) dataSize root (text "properties") n₁ ∧
      (∃ n₂ n₃, MemberDescribed strtod (EventDescribed strtod) eventSize root (text "events") n₂ ∧
        MemberDescribed strtod (ServiceDescribed strtod) serviceSize root (text "services") n₃ ∧
          m = n₂ + n₃) ∧ n = n₁ + m := by
  constructor
  · intro h
    cases h with
    | mk h₁ h₂ h₃ => exact ⟨_, _, h₁, ⟨_, _, h₂, h₃, rfl⟩, Nat.add_assoc ..⟩
  · rintro ⟨n₁, m, h₁, ⟨n₂, n₃, h₂, h₃, rfl⟩, rfl⟩
    rw [← Nat.add_assoc]
    exact .mk h₁ h₂ h₃

/-- A load that succeeded, with a shadow that mirrors the text. -/
def Loaded (strtod : Strtod) (root : LiteCjson) (r : Int × Option DmShw) : Prop :=
  r.1 = success ∧ ∃ shw, r.2 = some shw ∧ ShadowMirrors strtod root shw

theorem loads_tablesParse : Loads alloc (tablesParse strtod alloc root)
    (RootDescribed strtod root) (Loaded strtod root) (Loaded strtod root) := by
  have hfail : failReturn ≠ success := by decide
  have hbad : ∀ shadow, ¬ Loaded strtod root (failReturn, shadow) := fun shadow h => hfail h.1
  refine (loads_then loads_propertiesParse (fun properties hp => loads_then loads_eventsParse
    (fun events he => loads_map loads_servicesParse ?_ ?_) (fun events he => ?_) fun _ => hbad _)
      (fun properties hp => ?_) fun _ => hbad _).congr (fun n => rootDescribed_iff) (fun _ => id)
        fun _ => id
  · rintro ⟨res, services⟩ ⟨rfl, hs⟩
    exact ⟨rfl, _, rfl, hp, he, hs⟩
  · rintro ⟨res, services⟩ ⟨hres, shw, heq, hmirrors⟩
    cases heq
    exact ⟨orFail_eq_success.mp hres, hmirrors.services⟩
  · refine loads_bind_never fun r => loads_fail ?_
    rintro ⟨-, shw, heq, hmirrors⟩
    cases heq
    exact he hmirrors.events
  · have hnone : ∀ res events services, ¬ Loaded strtod root
        (res, some ⟨properties.2, events, services⟩) := by
      rintro res events services ⟨-, shw, heq, hmirrors⟩
      cases heq
      exact hp hmirrors.properties
    refine loads_bind_never fun r => ?_
    split
    · exact loads_fail (hbad _)
    · exact loads_bind_never fun r => loads_fail (hnone _ _ _)

theorem shadow_of_tablesParse {heap heap' : Heap} {res : Int} {shadow : Option DmShw}
    (h : tablesParse strtod alloc root heap = some ((res, shadow), heap')) : shadow ≠ none := by
  obtain ⟨properties, heap₁, -, h⟩ := bind_eq_some h
  split at h
  next =>
    cases h
    exact Option.some_ne_none _
  next =>
    obtain ⟨events, heap₂, -, h⟩ := bind_eq_some h
    split at h
    next =>
      cases h
      exact Option.some_ne_none _
    next =>
      obtain ⟨services, heap₃, -, h⟩ := bind_eq_some h
      cases h
      exact Option.some_ne_none _

theorem create_of_object (htsl : tsl ≠ []) (halloc : alloc 0 = true)
    (hparse : liteCjsonParse strtod tsl = some root) (hobject : root.type = .object) :
    dmTslAlinkCreate strtod alloc none tsl .empty =
      tablesParse strtod alloc root (Heap.empty.after 1) := by
  rw [dmTslAlinkCreate, if_neg (by simp [htsl]), bind_of_eq (malloc_granted halloc), if_pos rfl,
    hparse]
  simp only
  rw [if_neg (not_not.mpr hobject)]

theorem create_of_nothing (h : tsl = [] ∨ alloc 0 = false ∨
    ∀ root, liteCjsonParse strtod tsl = some root → root.type ≠ .object) :
    ∃ res asked, res ≠ success ∧
      dmTslAlinkCreate strtod alloc none tsl .empty = some ((res, none), ⟨asked, 0⟩) := by
  rw [dmTslAlinkCreate]
  by_cases htsl : tsl = []
  · rw [if_pos (.inr htsl)]
    exact ⟨userInputInvalid, 0, by decide, rfl⟩
  rw [if_neg (by simp [htsl])]
  cases halloc : alloc 0 with
  | false =>
    refine ⟨sysDependMalloc, 1, by decide, ?_⟩
    have hmalloc : malloc alloc .empty = some (false, ⟨1, 0⟩) :=
      if_neg (by simp [Heap.empty, halloc])
    rw [bind_of_eq hmalloc, if_neg Bool.false_ne_true]
    rfl
  | true =>
    have hobject := (h.resolve_left htsl).resolve_left (by simp [halloc])
    refine ⟨dmJsonParseFailed, 1, by decide, ?_⟩
    rw [bind_of_eq (malloc_granted halloc), if_pos rfl]
    cases hparse : liteCjsonParse strtod tsl with
    | none => rfl
    | some root =>
      simp only
      rw [if_pos (hobject root hparse)]
      rfl

theorem loadsWhole_of_nothing {res : Int} {asked : Nat} (hres : res ≠ success)
    (h : dmTslAlinkCreate strtod alloc none tsl .empty = some ((res, none), ⟨asked, 0⟩)) :
    LoadsWhole strtod alloc tsl where
  inBuffers := by
    rw [h]
    exact Option.some_ne_none _
  completely := by
    intro shadow heap hcreate
    rw [h] at hcreate
    cases hcreate
    exact absurd rfl hres
  notAtAll := by
    intro res' shadow heap hcreate _
    rw [h] at hcreate
    cases hcreate
    exact ⟨rfl, rfl⟩

theorem loadsWhole_of_mirrors {heap : Heap} {shw : DmShw}
    (hparse : liteCjsonParse strtod tsl = some root) (hmirrors : ShadowMirrors strtod root shw)
    (h : dmTslAlinkCreate strtod alloc none tsl .empty = some ((success, some shw), heap)) :
    LoadsWhole strtod alloc tsl where
  inBuffers := by
    rw [h]
    exact Option.some_ne_none _
  completely := by
    intro shadow heap' hcreate
    rw [h] at hcreate
    cases hcreate
    exact ⟨root, shw, hparse, rfl, hmirrors⟩
  notAtAll := by
    intro res shadow heap' hcreate hres
    rw [h] at hcreate
    cases hcreate
    exact absurd rfl hres

theorem granted_tables {n : Nat} (h : alloc 0 = true) :
    Granted alloc (Heap.empty.after 1) n ↔ ∀ k ≤ n, alloc k = true := by
  constructor
  · intro hgranted k hk
    cases k with
    | zero => exact h
    | succ k =>
      have := hgranted k hk
      rwa [Heap.after_asked, Nat.add_comm] at this
  · intro hall k hk
    rw [Heap.after_asked, Nat.add_comm]
    exact hall (k + 1) hk

/-- A thing model is loaded completely or not at all exactly where there is nothing to load, or
where the text is described and no block is missing. -/
theorem loadsWhole_iff (strtod : Strtod) (alloc : Nat → Bool) (tsl : List UInt8) :
    LoadsWhole strtod alloc tsl ↔ Loadable strtod alloc tsl := by
  by_cases hnothing : tsl = [] ∨ alloc 0 = false ∨
      ∀ root, liteCjsonParse strtod tsl = some root → root.type ≠ .object
  · obtain ⟨res, asked, hres, hcreate⟩ := @create_of_nothing strtod alloc tsl hnothing
    refine iff_of_true (loadsWhole_of_nothing hres hcreate) ?_
    rcases hnothing with htsl | halloc | hobject
    · exact .noText htsl
    · exact .noShadow halloc
    · exact .noObject hobject
  · push Not at hnothing
    obtain ⟨htsl, halloc, root, hparse, hobject⟩ := hnothing
    rw [Bool.ne_false_iff] at halloc
    have hcreate := create_of_object htsl halloc hparse hobject
    constructor
    · intro h
      cases hresult : tablesParse strtod alloc root (Heap.empty.after 1) with
      | none => exact absurd (hcreate.trans hresult) h.inBuffers
      | some r =>
        obtain ⟨⟨res, shadow⟩, heap⟩ := r
        -- a failure in the tables leaves the shadow
        have hres : res = success := by
          by_contra hres
          exact shadow_of_tablesParse hresult (h.notAtAll _ _ _ (hcreate.trans hresult) hres).1
        subst hres
        obtain ⟨root', shw, hparse', rfl, hmirrors⟩ := h.completely _ _ (hcreate.trans hresult)
        rw [hparse] at hparse'
        cases hparse'
        obtain ⟨n, hdescribed, hgranted, -⟩ :=
          loads_tablesParse.only hresult ⟨rfl, shw, rfl, hmirrors⟩
        exact .described hparse hobject hdescribed ((granted_tables halloc).mp hgranted)
    · intro h
      cases h with
      | noText h => exact absurd h htsl
      | noShadow h => exact absurd (halloc.symm.trans h) Bool.true_eq_false.mp
      | noObject h => exact absurd hobject (h root hparse)
      | @described root' n hparse' _ hdescribed hgranted =>
        rw [hparse] at hparse'
        cases hparse'
        obtain ⟨⟨res, shadow⟩, hload, rfl, shw, rfl, hmirrors⟩ :=
          loads_tablesParse.complete hdescribed ((granted_tables halloc).mpr hgranted)
        exact loadsWhole_of_mirrors hparse hmirrors (hcreate.trans hload)

end

/-- Properties that are no array: the load fails, the shadow is not freed and `*shadow` is left. -/
theorem shadow_is_left :
    ¬ LoadsWhole integerStrtod (fun _ => true) (text "\x7b\"properties\":1\x7d") := by
  intro h
  have hcreate : dmTslAlinkCreate integerStrtod (fun _ => true) none
      (text "\x7b\"properties\":1\x7d") .empty =
        some ((failReturn, some ⟨.empty, .empty, .empty⟩), ⟨1, 1⟩) := by
    rfl
  exact Option.some_ne_none _ (h.notAtAll _ _ _ hcreate (by decide)).1

end AliyunIot.Dm.Tsl
