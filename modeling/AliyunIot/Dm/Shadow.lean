import AliyunIot.Infra.Atoi
import AliyunIot.Infra.CjsonItem
import AliyunIot.Infra.State

/-!
# The shadow of a thing model

The data tree of `dm_shadow.c`, its search by key, and the setter and getter of a property. A tree
may be what is left of a description that did not load, so a pointer of it may be `NULL`; a call
that follows one, or goes past a storage, has no result. A pointer to an entry is the path to it.
-/

namespace AliyunIot.Dm.Shadow

open Libc State

/-! ## The tree -/

/-- The data types without members or elements. -/
inductive BasicType where
  | int
  | float
  | double
  | text
  | enum
  | date
  | bool
  deriving DecidableEq

/-- `dm_shw_data_type_e`. -/
inductive DataType where
  | none
  | basic (t : BasicType)
  | array
  | struct
  deriving DecidableEq

/-- What a value of the type is kept in: an `int`, the bits of a `float` or a `double`, or a
string, of which the buffer is kept. -/
@[reducible] def BasicType.Cell : BasicType → Type
  | .int | .enum | .bool => Int32
  | .float => UInt32
  | .double => UInt64
  | .text | .date => Option (List UInt8)

/-- After `memset`. -/
def BasicType.zero : (t : BasicType) → t.Cell
  | .int | .enum | .bool => (0 : Int32)
  | .float => (0 : UInt32)
  | .double => (0 : UInt64)
  | .text | .date => (none : Option (List UInt8))

/-- `dm_shw_data_value_t`. The elements of an array of structs have no identifier. -/
inductive DataValue where
  /-- the type is `DM_SHW_DATA_TYPE_NONE` -/
  | none
  | basic (t : BasicType) (v : t.Cell)
  /-- an array, `value` is `NULL` -/
  | nullArray
  /-- an array whose storage is `NULL` -/
  | emptyArray (type : DataType) (size : Int)
  | basicArray (t : BasicType) (size : Int) (items : List t.Cell)
  | structArray (size : Int) (items : List (Option (List (Option CStr × DataValue))))
  /-- a struct, or one without members where its storage is `NULL` -/
  | struct (members : Option (List (Option CStr × DataValue)))

abbrev Data := Option CStr × DataValue

/-- From a value to an entry below it. -/
inductive Step where
  | member (i : Nat)
  | element (i j : Nat)
  deriving DecidableEq

namespace DataValue

def find : DataValue → List Step → Option DataValue
  | v, [] => some v
  | .struct (some members), .member i :: path => members[i]?.bind fun d => d.2.find path
  | .structArray _ items, .element i j :: path =>
    (items[i]?.join.bind fun members => members[j]?).bind fun d => d.2.find path
  | _, _ => Option.none

/-- The tree with another value at a path. -/
def update (f : DataValue → DataValue) : DataValue → List Step → DataValue
  | v, [] => f v
  | .struct (some members), .member i :: path =>
    .struct (some (members.modify i fun d => (d.1, update f d.2 path)))
  | .structArray size items, .element i j :: path =>
    .structArray size (items.modify i (Option.map fun members =>
      members.modify j fun d => (d.1, update f d.2 path)))
  | v, _ => v

end DataValue

/-! ## Keys -/

def dmUtilsMemtok (delimiter : UInt8) : List UInt8 → Option Nat
  | [] => none
  | b :: input =>
    if b = delimiter ∧ input ≠ [] then some 0 else (dmUtilsMemtok delimiter input).map (· + 1)

/-- The parts that `dm_utils_memtok` cuts a key into, one after the other. -/
def segments : List UInt8 → List (List UInt8)
  | [] => [[]]
  | b :: key =>
    if b = 46 ∧ key ≠ [] then [] :: segments key
    else
      match segments key with
      | [] => [[b]]
      | s :: rest => (b :: s) :: rest

/-- What the searches take from a part of a key. -/
structure Segment where
  /-- what is compared with an identifier, `partial_offset` bytes -/
  name : List UInt8
  partialInputLen : Nat
  arrayIndex : Int

/-- `dm_utils_strarr_index` of a part of a key; it leaves the length in front of the brackets also
where the index is too long. Its loop is that of `_lite_cjson_key_array_index`. -/
def segment (key : List UInt8) : Segment :=
  match Cjson.scanBrackets key 0 key ⟨0, none, none⟩ with
  | some ⟨_, some pre, some suf⟩ =>
    if suf + 1 = key.length then
      if suf - pre - 1 > 10 then ⟨key, pre, 0⟩
      else ⟨key.take pre, pre, atoi ((key.drop (pre + 1)).take (suf - pre - 1))⟩
    else ⟨key, 0, 0⟩
  | _ => ⟨key, 0, 0⟩

/-! ## The search -/

/-- What a search gives: no result, a failure, or the path to an entry and the index. -/
inductive Found where
  | undefined
  | failed
  | found (path : List Step) (index : Int)

def Found.under (step : Step) : Found → Found
  | .undefined => .undefined
  | .failed => .failed
  | .found path index => .found (step :: path) index

/-- The first entry with the name, as the loop over the members of a struct finds it. -/
inductive Named where
  | undefined
  | missing
  | named (i : Nat) (v : DataValue)

/-- An entry whose type is none is passed over. -/
def firstNamed (name : List UInt8) : Nat → List Data → Named
  | _, [] => .missing
  | _, (none, _) :: _ => .undefined
  | i, (some identifier, v) :: rest =>
    if identifier.val = name then
      match v with
      | .none => firstNamed name (i + 1) rest
      | v => .named i v
    else firstNamed name (i + 1) rest

theorem length_pos_of_segment {key : List UInt8} (h : (segment key).partialInputLen ≠ 0) :
    0 < key.length := by
  cases key with
  | nil => exact absurd rfl h
  | cons b key => simp

/-- The `switch` that `_dm_shw_data_search` and `_dm_shw_data_struct_search` share, for an entry
that has the name of the part `seg` of a key, with `_dm_shw_data_array_search`; `rest` is what
follows in the key. -/
def valueSearch (v : DataValue) (seg : List UInt8) (rest : List (List UInt8)) : Found :=
  match v with
  | .none => .failed
  | .basic _ _ =>
    if (segment seg).partialInputLen ≠ 0 ∨ rest ≠ [] then .failed else .found [] 0
  | .nullArray =>
    if (segment seg).partialInputLen = 0 then if rest = [] then .found [] 0 else .failed
    else .undefined
  | .emptyArray type _ =>
    if (segment seg).partialInputLen = 0 then if rest = [] then .found [] 0 else .failed
    else
      match type with
      | .basic _ => if rest.length ≤ 1 then .found [] (segment seg).arrayIndex else .failed
      | _ => .failed
  | .basicArray _ _ _ =>
    if (segment seg).partialInputLen = 0 then if rest = [] then .found [] 0 else .failed
    else if rest.length ≤ 1 then .found [] (segment seg).arrayIndex
    else .failed
  | .structArray _ items =>
    if _hp : (segment seg).partialInputLen = 0 then if rest = [] then .found [] 0 else .failed
    else if (segment seg).arrayIndex < 0 then .undefined
    else
      -- what follows the first part is left out
      let part := rest.headD []
      match items[(segment seg).arrayIndex.toNat]? with
      | some (some members) =>
        match firstNamed (segment part).name 0 members with
        | .undefined => .undefined
        | .missing => .failed
        | .named j v =>
          (valueSearch v part []).under (.element (segment seg).arrayIndex.toNat j)
      | _ => .undefined
  | .struct members =>
    match rest with
    | [] => .found [] 0
    | part :: rest =>
      if (segment seg).partialInputLen ≠ 0 then .failed
      else
        match members with
        | none => .undefined
        | some members =>
          match firstNamed (segment part).name 0 members with
          | .undefined => .undefined
          | .missing => .failed
          | .named i v => (valueSearch v part rest).under (.member i)
termination_by seg.length + (rest.map fun part => part.length + 1).sum
decreasing_by
  · have hpos := length_pos_of_segment _hp
    cases rest with
    | nil => simpa using hpos
    | cons part rest =>
      simp only [List.headD_cons, List.map_cons, List.sum_cons, List.map_nil, List.sum_nil]
      omega
  · simp only [List.map_cons, List.sum_cons]
    omega

def dataSearch (d : Data) (key : List UInt8) : Found :=
  match segments key, d.1 with
  | seg :: rest, some identifier =>
    if identifier.val = (segment seg).name then valueSearch d.2 seg rest else .failed
  | _, _ => .undefined

/-- The loop of `_dm_shw_property_search`. -/
def propertyLoop (key : List UInt8) : Nat → List Data → Found
  | _, [] => .failed
  | i, d :: properties =>
    match dataSearch d key with
    | .undefined => .undefined
    | .failed => propertyLoop key (i + 1) properties
    | .found path index => .found (.member i :: path) index

def propertySearch (properties : List Data) (key : List UInt8) : Found :=
  if key = [] then .failed else propertyLoop key 0 properties

/-! ## Setting and getting -/

/-- The memory behind a `void *value`, as it is read for each type; `text` has `value_len` bytes. -/
structure View where
  int : Int32
  float : UInt32
  double : UInt64
  text : List UInt8

/-- What is taken where `value` is `NULL`. -/
def View.null : View := ⟨0, 0, 0, [78, 85, 76, 76]⟩

/-- `func_set` of the type, with whether there is memory for a text. -/
def funcSet (value : View) (malloc : Bool) : (t : BasicType) → Int × t.Cell
  | .int => (success, value.int)
  | .float => (success, value.float)
  | .double => (success, value.double)
  | .text => if malloc then (success, some value.text) else (sysDependMalloc, none)
  | .enum => (success, if value.int < 0 then 0 else value.int)
  | .date => if malloc then (success, some value.text) else (sysDependMalloc, none)
  | .bool =>
    (success, if value.int = 0 then value.int else if value.int = 1 then value.int else 0)

def funcArraySet (value : View) (malloc : Bool) : (t : BasicType) → Int × t.Cell
  | .int => (success, value.int)
  | .float => (success, value.float)
  | .double => (success, value.double)
  | .text => if malloc then (success, some value.text) else (failReturn, none)
  | .enum => (success, value.int)
  | .date => if malloc then (success, some value.text) else (failReturn, none)
  | .bool => (success, value.int)

/-- A copy of a text, up to its terminator; `missing` is returned where there is none. -/
def textGet (missing : Int) (malloc : Bool) (text : Option (List UInt8)) :
    Except Int (Option (List UInt8)) :=
  match text with
  | none => .error missing
  | some text => if malloc then .ok (some (text.takeWhile (· ≠ 0))) else .error failReturn

/-- `func_get` and `func_array_get` of the type, into a cleared value. -/
def funcGet (missing : Int) (malloc : Bool) : (t : BasicType) → t.Cell → Except Int t.Cell
  | .int, v | .enum, v | .bool, v => .ok v
  | .float, v => .ok v
  | .double, v => .ok v
  | .text, v | .date, v => textGet missing malloc v

/-- A value with its type. -/
structure Leaf where
  type : BasicType
  cell : type.Cell

/-- The checks of `_dm_shw_data_array_set` and `_dm_shw_data_array_get`. -/
def OutOfRange (size index : Int) : Prop := index < 0 ∨ size ≤ index

instance (size index : Int) : Decidable (OutOfRange size index) :=
  inferInstanceAs (Decidable (_ ∨ _))

/-- `_dm_shw_data_set` and `_dm_shw_data_array_set`. -/
def dataSet (v : DataValue) (index : Int) (value : View) (malloc : Bool) :
    Option (Int × DataValue) :=
  match v with
  | .none => some (failReturn, v)
  | .basic t _ => some ((funcSet value malloc t).1, .basic t (funcSet value malloc t).2)
  | .nullArray => some (userInputInvalid, v)
  | .emptyArray type size =>
    if OutOfRange size index then some (userInputInvalid, v)
    else
      match type with
      | .basic _ => none
      | _ => some (failReturn, v)
  | .basicArray t size items =>
    if OutOfRange size index then some (userInputInvalid, v)
    else if index.toNat < items.length then
      some ((funcArraySet value malloc t).1,
        .basicArray t size (items.set index.toNat (funcArraySet value malloc t).2))
    else none
  | .structArray size _ =>
    if OutOfRange size index then some (userInputInvalid, v) else some (failReturn, v)
  | .struct _ => some (failReturn, v)

/-- `_dm_shw_data_get` and `_dm_shw_data_array_get`. -/
def dataGet (v : DataValue) (index : Int) (malloc : Bool) : Option (Except Int Leaf) :=
  match v with
  | .none | .nullArray | .struct _ => some (.error failReturn)
  | .basic t v => some ((funcGet failReturn malloc t v).map (Leaf.mk t))
  | .emptyArray type size =>
    if OutOfRange size index then some (.error failReturn)
    else
      match type with
      | .basic _ => some (.error userInputInvalid)
      | _ => some (.error failReturn)
  | .basicArray t size items =>
    if OutOfRange size index then some (.error failReturn)
    else
      match items[index.toNat]? with
      | some v => some ((funcGet userInputInvalid malloc t v).map (Leaf.mk t))
      | none => none
  | .structArray _ _ => some (.error failReturn)

abbrev dmTslPropertySetFailed : Int := -8

abbrev dmTslPropertyGetFailed : Int := -9

/-- The properties as members of one value, so that a path leads from it to an entry. -/
abbrev root (properties : List Data) : DataValue := .struct (some properties)

def updateProperties (f : DataValue → DataValue) (properties : List Data) : List Step → List Data
  | .member i :: path => properties.modify i fun d => (d.1, d.2.update f path)
  | _ => properties

def dmShwSetPropertyValue (properties : List Data) (key : List UInt8) (value : Option View)
    (malloc : Bool) : Option (Int × List Data) :=
  match propertySearch properties key with
  | .undefined => none
  | .failed => some (failReturn, properties)
  | .found path index =>
    match (root properties).find path with
    | none => none
    | some data =>
      (dataSet data index (value.getD View.null) malloc).map fun (res, data') =>
        (if res = success then success else dmTslPropertySetFailed,
          updateProperties (fun _ => data') properties path)

def dmShwGetPropertyValue (properties : List Data) (key : List UInt8) (malloc : Bool) :
    Option (Except Int Leaf) :=
  match propertySearch properties key with
  | .undefined => none
  | .failed => some (.error (if key = [] then userInputInvalid else failReturn))
  | .found path index =>
    match (root properties).find path with
    | none => none
    | some data =>
      (dataGet data index malloc).map fun
        | .ok leaf => .ok leaf
        | .error _ => .error dmTslPropertyGetFailed

end AliyunIot.Dm.Shadow
