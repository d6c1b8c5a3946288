import AliyunIot.Dm.Shadow
import AliyunIot.Infra.CharBuf
import AliyunIot.Infra.CjsonShrink
import AliyunIot.Lib.Alloc

/-!
# Loading a thing model

`dm_tsl_alink.c`: the description of a thing in JSON becomes the tree of its shadow. Sizes are
those of a 32-bit target, and `alloc` says which of the calls of `HAL_Malloc` succeed, the first
one of a load is number 0. A program that leaves its buffers has no result.
-/

namespace AliyunIot.Dm.Tsl

open Cjson Lib Lib.Alloc Libc State
open Format (text isDigit)
open Shadow (BasicType DataType DataValue Data)

/-! ## The text -/

section

variable (strtod : Strtod)

/-- What `lite_cjson_object_item` leaves in a cleared item. -/
def memberOf (lite : LiteCjson) (key : List UInt8) : LiteCjson :=
  (liteCjsonObjectItem strtod lite key).getD .zero

/-- What `lite_cjson_array_item` leaves in a cleared item. -/
def elementOf (lite : LiteCjson) (index : Nat) : LiteCjson :=
  (liteCjsonArrayItem strtod lite index).getD .zero

end

/-- How much text there is for the items of an item. -/
def weight (lite : LiteCjson) : Nat :=
  match lite.type with
  | .array | .object => lite.value.length
  | _ => 0

theorem weight_of_object {lite : LiteCjson} (h : lite.type = .object) :
    weight lite = lite.value.length := by
  rw [weight, h]

theorem weight_of_array {lite : LiteCjson} (h : lite.type = .array) :
    weight lite = lite.value.length := by
  rw [weight, h]

section

variable {strtod : Strtod} {lite it : LiteCjson} {key : List UInt8} {index : Nat}

theorem object_of_item (h : liteCjsonObjectItem strtod lite key = some it) :
    lite.type = .object := by
  unfold liteCjsonObjectItem at h
  split at h
  next => cases h
  next hguard =>
    push Not at hguard
    exact hguard.1

theorem array_of_item (h : liteCjsonArrayItem strtod lite index = some it) :
    lite.type = .array := by
  unfold liteCjsonArrayItem at h
  split at h
  next => cases h
  next hguard =>
    push Not at hguard
    exact hguard.1

theorem item_of_ne {found : Option LiteCjson} (h : found.getD .zero ≠ .zero) :
    found = some (found.getD .zero) := by
  cases found with
  | none => exact absurd rfl h
  | some it => rfl

theorem item_of_memberOf (h : (memberOf strtod lite key).type ≠ .invalid) :
    liteCjsonObjectItem strtod lite key = some (memberOf strtod lite key) :=
  item_of_ne fun hzero => h (congrArg LiteCjson.type hzero)

theorem item_of_elementOf (h : (elementOf strtod lite index).type ≠ .invalid) :
    liteCjsonArrayItem strtod lite index = some (elementOf strtod lite index) :=
  item_of_ne fun hzero => h (congrArg LiteCjson.type hzero)

theorem weight_memberOf_lt (h : (memberOf strtod lite key).type = .object) :
    weight (memberOf strtod lite key) < weight lite := by
  have hitem := item_of_memberOf (by rw [h]; exact CjsonType.noConfusion)
  rw [weight_of_object h, weight_of_object (object_of_item hitem)]
  exact liteCjsonObjectItem_lt hitem (.inl h)

theorem weight_memberOf_le : weight (memberOf strtod lite key) ≤ weight lite := by
  by_cases hobject : (memberOf strtod lite key).type = .object
  · exact Nat.le_of_lt (weight_memberOf_lt hobject)
  · by_cases harray : (memberOf strtod lite key).type = .array
    · have hitem := item_of_memberOf (by rw [harray]; exact CjsonType.noConfusion)
      rw [weight_of_array harray, weight_of_object (object_of_item hitem)]
      exact Nat.le_of_lt (liteCjsonObjectItem_lt hitem (.inr harray))
    · unfold weight
      split
      · contradiction
      · contradiction
      · exact Nat.zero_le _

theorem weight_elementOf_lt (h : (elementOf strtod lite index).type = .object) :
    weight (elementOf strtod lite index) < weight lite := by
  have hitem := item_of_elementOf (by rw [h]; exact CjsonType.noConfusion)
  rw [weight_of_object h, weight_of_array (array_of_item hitem)]
  exact liteCjsonArrayItem_lt hitem (.inl h)

end

/-! ## Types and sizes -/

def gDmTslAlinkMapping : List (DataType × List UInt8) :=
  [(.none, text "none"), (.basic .int, text "int"), (.basic .float, text "float"),
    (.basic .double, text "double"), (.basic .text, text "text"), (.basic .enum, text "enum"),
    (.basic .date, text "date"), (.basic .bool, text "bool"), (.array, text "array"),
    (.struct, text "struct")]

def getType (name : List UInt8) : Option DataType :=
  if name = [] then none else (gDmTslAlinkMapping.find? fun m => m.2 = name).map Prod.fst

/-- `DM_UTILS_UINT32_STRLEN`, the size of `size_str`. -/
def dmUtilsUint32Strlen : Nat := 10

/-- No byte ends the number that `atoi` reads. -/
def unended (s : List UInt8) : Bool :=
  match s.dropWhile isspace with
  | 45 :: ds | 43 :: ds => ds.all isDigit
  | ds => ds.all isDigit

/-- `atoi(size_str)`; a text that fills the buffer leaves no zero behind it. -/
def sizeStrAtoi (value : List UInt8) : Option Int :=
  if value.length = dmUtilsUint32Strlen ∧ unended value = true then none else some (atoi value)

/-- How many entries of the size are in a block for `count` of them. The number of bytes is a
`size_t`. -/
def capacity (count : Int) (size : Nat) : Nat := ((count * size) % 4294967296).toNat / size

/-- `sizeof(dm_shw_data_t)`. -/
def dataSize : Nat := 24

/-- `sizeof(dm_shw_event_t)`. -/
def eventSize : Nat := 20

/-- `sizeof(dm_shw_service_t)`. -/
def serviceSize : Nat := 20

/-- A block of `room` cleared entries after the first ones were filled. -/
def fill {α : Type} (room : Nat) (zero : α) (entries : List α) : List α :=
  entries ++ List.replicate (room - entries.length) zero

/-- An entry after `memset`. -/
def zeroData : Data := (none, .none)

/-- The callers make one code of every failure. -/
def orFail (res : Int) : Int := if res = success then success else failReturn

/-- `dm_utils_copy` of an item, as the string that is read from the copy. -/
def dmUtilsCopy (value : List UInt8) : CStr := CharBuf.string value

/-! ## Values -/

section

variable (strtod : Strtod) (alloc : Nat → Bool)

/-- What the `func_array_parse` of the types without members share. -/
def arrayCellsParse (t : BasicType) (width : Nat) (size : Int) : Alloc (Int × DataValue) := do
  if ← malloc alloc then
    return (success, .basicArray t size (List.replicate (capacity size width) t.zero))
  else return (sysDependMalloc, .emptyArray (.basic t) size)

def arrayIntParse : Int → Alloc (Int × DataValue) := arrayCellsParse alloc .int 4

def arrayFloatParse : Int → Alloc (Int × DataValue) := arrayCellsParse alloc .float 4

def arrayDoubleParse : Int → Alloc (Int × DataValue) := arrayCellsParse alloc .double 8

def arrayTextParse : Int → Alloc (Int × DataValue) := arrayCellsParse alloc .text 4

def arrayEnumParse : Int → Alloc (Int × DataValue) := arrayCellsParse alloc .enum 4

def arrayDateParse : Int → Alloc (Int × DataValue) := arrayCellsParse alloc .date 4

def arrayBoolParse : Int → Alloc (Int × DataValue) := arrayCellsParse alloc .bool 4

def funcArrayParse : BasicType → Int → Alloc (Int × DataValue)
  | .int => arrayIntParse alloc
  | .float => arrayFloatParse alloc
  | .double => arrayDoubleParse alloc
  | .text => arrayTextParse alloc
  | .enum => arrayEnumParse alloc
  | .date => arrayDateParse alloc
  | .bool => arrayBoolParse alloc

/-- What `_dm_shw_array_parse` reads: the code so far, what is in the array, and how many. -/
structure ArrayHead where
  res : Int
  type : DataType
  size : Int

/-- `_dm_shw_array_parse` up to the call of `func_array_parse`. A member that is there passes the
checks, whatever its type. -/
def arrayHead (lite : LiteCjson) : Option ArrayHead :=
  match liteCjsonObjectItem strtod lite (text "size") with
  | none => some ⟨dmJsonParseFailed, .none, 0⟩
  | some size =>
    if size.value.length > dmUtilsUint32Strlen then some ⟨failReturn, .none, 0⟩
    else
      (sizeStrAtoi size.value).map fun n =>
        -- an item that is missing has no type either
        match liteCjsonObjectItem strtod (memberOf strtod lite (text "item")) (text "type") with
        | none => ⟨dmJsonParseFailed, .none, n⟩
        | some type =>
          match getType type.value with
          | none => ⟨failReturn, .none, n⟩
          | some t =>
            match liteCjsonObjectItem strtod (memberOf strtod lite (text "item"))
              (text "specs") with
            | none =>
              ⟨if t = .array ∨ t = .struct then dmJsonParseFailed else success, t, n⟩
            | some _ => ⟨success, t, n⟩

/-- What `_dm_shw_struct_parse` has left in an entry of an array of structs. -/
def membersOf : DataValue → Option (List Data)
  | .struct members => members
  | _ => none

mutual

def dataParse (lite : LiteCjson) : Alloc (Int × DataValue) :=
  if (memberOf strtod lite (text "type")).type ≠ .string then
    pure (dmJsonParseFailed, .none)
  else
    match getType (memberOf strtod lite (text "type")).value with
    | none => pure (failReturn, .none)
    -- `func_parse` is `NULL`
    | some .none => pure (failReturn, .none)
    | some (.basic t) => pure (success, .basic t t.zero)
    | some .array => do
      let r ← arrayParse (memberOf strtod lite (text "specs"))
      return (orFail r.1, r.2)
    | some .struct => do
      let r ← structParse (memberOf strtod lite (text "specs"))
      return (orFail r.1, r.2)
termination_by (weight lite, 5, 0)
decreasing_by
  all_goals
    have := @weight_memberOf_le strtod lite (text "specs")
    simp only [Prod.lex_def]
    omega

def arrayParse (lite : LiteCjson) : Alloc (Int × DataValue) :=
  if lite.type ≠ .object then pure (userInputInvalid, .nullArray)
  else do
    if ← malloc alloc then
      match arrayHead strtod lite with
      | none => stray
      | some head =>
        if head.res ≠ success then return (head.res, .emptyArray head.type head.size)
        else
          match head.type with
          | .none => return (failReturn, .emptyArray .none head.size)
          | .basic t => do
            let r ← funcArrayParse alloc t head.size
            return (orFail r.1, r.2)
          -- `_dm_shw_array_array_parse` does nothing
          | .array => return (success, .emptyArray .array head.size)
          | .struct => do
            let r ← arrayStructParse
              (memberOf strtod (memberOf strtod lite (text "item")) (text "specs")) head.size
            return (orFail r.1, r.2)
    else return (sysDependMalloc, .nullArray)
termination_by (weight lite, 4, 0)
decreasing_by
  have hitem := @weight_memberOf_le strtod lite (text "item")
  have := @weight_memberOf_le strtod (memberOf strtod lite (text "item")) (text "specs")
  simp only [Prod.lex_def]
  omega

def arrayStructParse (lite : LiteCjson) (size : Int) : Alloc (Int × DataValue) :=
  if lite.type ≠ .array ∨ lite.size = 0 then
    pure (userInputInvalid, .emptyArray .struct size)
  else do
    if ← malloc alloc then
      let items ← elementsParse lite (capacity size dataSize) size.toNat 0
      return (success, .structArray size (fill (capacity size dataSize) none items))
    else return (sysDependMalloc, .emptyArray .struct size)
termination_by (weight lite, 3, 0)
decreasing_by
  simp only [Prod.lex_def, true_and]
  omega

/-- The loop of `_dm_shw_array_struct_parse`. A struct that fails is passed over. -/
def elementsParse (lite : LiteCjson) (room : Nat) :
    Nat → Nat → Alloc (List (Option (List Data)))
  | 0, _ => pure []
  | todo + 1, index =>
    if room ≤ index then stray
    else do
      let r ← structParse lite
      let rest ← elementsParse lite room todo (index + 1)
      return membersOf r.2 :: rest
termination_by todo => (weight lite, 2, todo)
decreasing_by
  all_goals
    simp only [Prod.lex_def, true_and]
    omega

def structParse (lite : LiteCjson) : Alloc (Int × DataValue) :=
  if lite.type ≠ .array ∨ lite.size = 0 then pure (userInputInvalid, .struct none)
  else do
    if ← malloc alloc then
      if ← malloc alloc then
        let r ← membersParse lite (capacity lite.size dataSize) lite.size 0
        return (r.1, .struct (some (fill (capacity lite.size dataSize) zeroData r.2)))
      else return (sysDependMalloc, .struct none)
    else return (sysDependMalloc, .struct none)
termination_by (weight lite, 1, 0)
decreasing_by
  simp only [Prod.lex_def, true_and]
  omega

/-- The loop of `_dm_shw_struct_parse`. -/
def membersParse (lite : LiteCjson) (room : Nat) : Nat → Nat → Alloc (Int × List Data)
  | 0, _ => pure (success, [])
  | todo + 1, index =>
    if h : (elementOf strtod lite index).type = .object then
      if room ≤ index then stray
      else do
        let r ← propertyParse (elementOf strtod lite index)
        if r.1 ≠ success then return (failReturn, [r.2])
        else
          let rest ← membersParse lite room todo (index + 1)
          return (rest.1, r.2 :: rest.2)
    else pure (dmJsonParseFailed, [])
termination_by todo => (weight lite, 0, todo)
decreasing_by
  · have := weight_elementOf_lt h
    simp only [Prod.lex_def, true_and]
    omega
  · simp only [Prod.lex_def, true_and]
    omega

def propertyParse (lite : LiteCjson) : Alloc (Int × Data) :=
  if (memberOf strtod lite (text "identifier")).type ≠ .string then
    pure (dmJsonParseFailed, zeroData)
  else do
    if ← malloc alloc then
      let identifier := some (dmUtilsCopy (memberOf strtod lite (text "identifier")).value)
      if _h : (memberOf strtod lite (text "dataType")).type = .object then
        let r ← dataParse (memberOf strtod lite (text "dataType"))
        return (orFail r.1, (identifier, r.2))
      else return (dmJsonParseFailed, (identifier, .none))
    else return (failReturn, zeroData)
termination_by (weight lite, 0, 0)
decreasing_by
  have := weight_memberOf_lt _h
  simp only [Prod.lex_def]
  omega

end

/-! ## Tables -/

/-- A number of entries, and the block for them. -/
structure Table (α : Type) where
  number : Nat
  storage : Option (List α)

/-- A table after `memset`. -/
def Table.empty {α : Type} : Table α := ⟨0, none⟩

def Table.entries {α : Type} (table : Table α) : List α := table.storage.getD []

/-- The loop over the entries of a table. What `parse` returns is not looked at; with `objects`
an element that is none ends the loop. -/
def entriesParse {α : Type} (objects : Bool) (parse : LiteCjson → Alloc (Int × α))
    (lite : LiteCjson) (room : Nat) : Nat → Nat → Alloc (Int × List α)
  | 0, _ => pure (success, [])
  | todo + 1, index =>
    match liteCjsonArrayItem strtod lite index with
    | none => pure (failReturn, [])
    | some it =>
      if objects = true ∧ it.type ≠ .object then pure (failReturn, [])
      else if room ≤ index then stray
      else do
        let r ← parse it
        let rest ← entriesParse objects parse lite room todo (index + 1)
        return (rest.1, r.2 :: rest.2)

/-- What the tables share: a block for the elements of an array, and the loop over them. -/
def tableParse {α : Type} (objects : Bool) (size : Nat) (zero : α)
    (parse : LiteCjson → Alloc (Int × α)) (lite : LiteCjson) : Alloc (Int × Table α) :=
  if lite.size = 0 then pure (success, .empty)
  else do
    if ← malloc alloc then
      let r ← entriesParse strtod objects parse lite (capacity lite.size size) lite.size 0
      return (r.1, ⟨lite.size, some (fill (capacity lite.size size) zero r.2)⟩)
    else return (sysDependMalloc, ⟨lite.size, none⟩)

/-- `dm_shw_event_t`; nothing is read into its `input_datas`. -/
structure Event where
  identifier : Option CStr
  outputDatas : Table Data

structure Service where
  identifier : Option CStr
  inputDatas : Table Data
  outputDatas : Table Data

structure DmShw where
  properties : Table Data
  events : Table Event
  services : Table Service

def zeroEvent : Event := ⟨none, .empty⟩

def zeroService : Service := ⟨none, .empty, .empty⟩

def eventOutputdataParse : LiteCjson → Alloc (Int × Data) := propertyParse strtod alloc

def eventOutputdatasParse : LiteCjson → Alloc (Int × Table Data) :=
  tableParse strtod alloc true dataSize zeroData (eventOutputdataParse strtod alloc)

def eventParse (lite : LiteCjson) : Alloc (Int × Event) :=
  if (memberOf strtod lite (text "identifier")).type ≠ .string then
    pure (dmJsonParseFailed, zeroEvent)
  else do
    if ← malloc alloc then
      let identifier := dmUtilsCopy (memberOf strtod lite (text "identifier")).value
      if identifier.val = text "post" then return (success, ⟨some identifier, .empty⟩)
      else if (memberOf strtod lite (text "outputData")).type ≠ .array then
        return (dmJsonParseFailed, ⟨some identifier, .empty⟩)
      else
        let r ← eventOutputdatasParse strtod alloc (memberOf strtod lite (text "outputData"))
        return (orFail r.1, ⟨some identifier, r.2⟩)
    else return (failReturn, zeroEvent)

def serviceOutputdataParse : LiteCjson → Alloc (Int × Data) := propertyParse strtod alloc

def serviceOutputdatasParse : LiteCjson → Alloc (Int × Table Data) :=
  tableParse strtod alloc true dataSize zeroData (serviceOutputdataParse strtod alloc)

def serviceInputdataParse (lite : LiteCjson) : Alloc (Int × Data) :=
  if lite.type ≠ .object then pure (userInputInvalid, zeroData) else propertyParse strtod alloc lite

def serviceInputdatasParse : LiteCjson → Alloc (Int × Table Data) :=
  tableParse strtod alloc false dataSize zeroData (serviceInputdataParse strtod alloc)

/-- The optional members of a service: nothing is done for one that is no array. -/
def optionalParse (parse : LiteCjson → Alloc (Int × Table Data)) (lite : LiteCjson) :
    Alloc (Int × Table Data) :=
  if lite.type = .array then parse lite else pure (success, .empty)

def serviceParse (lite : LiteCjson) : Alloc (Int × Service) :=
  if (memberOf strtod lite (text "identifier")).type ≠ .string then
    pure (dmJsonParseFailed, zeroService)
  else do
    if ← malloc alloc then
      let identifier := dmUtilsCopy (memberOf strtod lite (text "identifier")).value
      if identifier.val = text "set" ∨ identifier.val = text "get" then
        return (success, ⟨some identifier, .empty, .empty⟩)
      else
        let outputs ← optionalParse (serviceOutputdatasParse strtod alloc)
          (memberOf strtod lite (text "outputData"))
        if outputs.1 ≠ success then return (failReturn, ⟨some identifier, .empty, outputs.2⟩)
        else
          let inputs ← optionalParse (serviceInputdatasParse strtod alloc)
            (memberOf strtod lite (text "inputData"))
          return (orFail inputs.1, ⟨some identifier, inputs.2, outputs.2⟩)
    else return (failReturn, zeroService)

/-- What `_dm_shw_properties_parse`, `_dm_shw_events_parse` and `_dm_shw_services_parse` share. -/
def memberTableParse {α : Type} (key : List UInt8) (size : Nat) (zero : α)
    (parse : LiteCjson → Alloc (Int × α)) (root : LiteCjson) : Alloc (Int × Table α) :=
  match liteCjsonObjectItem strtod root key with
  | none => pure (success, .empty)
  | some lite =>
    if lite.type ≠ .array then pure (dmJsonParseFailed, .empty)
    else tableParse strtod alloc true size zero parse lite

def propertiesParse : LiteCjson → Alloc (Int × Table Data) :=
  memberTableParse strtod alloc (text "properties") dataSize zeroData (propertyParse strtod alloc)

def eventsParse : LiteCjson → Alloc (Int × Table Event) :=
  memberTableParse strtod alloc (text "events") eventSize zeroEvent (eventParse strtod alloc)

def servicesParse : LiteCjson → Alloc (Int × Table Service) :=
  memberTableParse strtod alloc (text "services") serviceSize zeroService
    (serviceParse strtod alloc)

def tablesParse (root : LiteCjson) : Alloc (Int × Option DmShw) := do
  let properties ← propertiesParse strtod alloc root
  if properties.1 ≠ success then
    return (failReturn, some ⟨properties.2, .empty, .empty⟩)
  else
    let events ← eventsParse strtod alloc root
    if events.1 ≠ success then
      return (failReturn, some ⟨properties.2, events.2, .empty⟩)
    else
      let services ← servicesParse strtod alloc root
      return (orFail services.1, some ⟨properties.2, events.2, services.2⟩)

/-- `dm_tsl_alink_create`: the result, and `*shadow` after it. -/
def dmTslAlinkCreate (shadow : Option DmShw) (tsl : List UInt8) :
    Alloc (Int × Option DmShw) :=
  if shadow.isSome ∨ tsl = [] then pure (userInputInvalid, shadow)
  else do
    if ← malloc alloc then
      match liteCjsonParse strtod tsl with
      | none =>
        free
        return (dmJsonParseFailed, none)
      | some root =>
        if root.type ≠ .object then
          free
          return (dmJsonParseFailed, none)
        else tablesParse strtod alloc root
    else return (sysDependMalloc, none)

end

end AliyunIot.Dm.Tsl
