import AliyunIot.Lib.Json

/-!
# lite_cjson

The parser of `infra_cjson.c`. An offset counts from the start of the text, a value is a slice
of it. The nesting limit is what the recursion is on: `parseValue` is given how many levels
are left. `strtod` is the C library's.
-/

namespace AliyunIot.Cjson

open Lib

/-- How many bytes `strtod` converts, and the number that they give, without its fraction. -/
structure Strtod where
  convert : List UInt8 → Nat × Int
  converted_le : ∀ s, (convert s).1 ≤ s.length

inductive CjsonType where
  | invalid
  | false
  | true
  | null
  | number
  | string
  | array
  | object
  deriving DecidableEq

structure LiteCjson where
  type : CjsonType
  value : List UInt8
  size : Nat
  valueInt : Int
  deriving DecidableEq

/-- The item after `memset`. -/
def LiteCjson.zero : LiteCjson := ⟨.invalid, [], 0, 0⟩

def liteCjsonNestingLimit : Nat := 1000

def intMax : Int := 2147483647

def intMin : Int := -2147483648

/-- `use saturation in case of overflow` -/
def saturate (number : Int) : Int :=
  if number ≥ intMax then intMax else if number ≤ intMin then intMin else number

def isSpace (b : UInt8) : Bool := b ≤ 32

/-- The bytes that are copied for `strtod`. -/
def isNumberByte (b : UInt8) : Bool :=
  (48 ≤ b && b ≤ 57) || b = 43 || b = 45 || b = 101 || b = 69 || b = 46

def startsNumber (b : UInt8) : Bool := b = 45 || (48 ≤ b && b ≤ 57)

/-- `sizeof(number_c_string) - 1`. -/
def numberLen : Nat := 63

section

variable (strtod : Strtod) (content : List UInt8)

/-- At the end of the text the offset steps back. -/
def bufferSkipWhitespace (o : Nat) : Nat :=
  let o' := o + ((content.drop o).takeWhile isSpace).length
  if o' = content.length then o' - 1 else o'

def skipUtf8Bom : Nat :=
  if 4 < content.length ∧ content.take 3 = [0xEF, 0xBB, 0xBF] then 3 else 0

/-- `strncmp(buffer_at_offset, word, strlen(word)) == 0` where the word can be read. -/
def readsWord (word : List UInt8) (o : Nat) : Bool := (content.drop o).take word.length = word

def parseNumber (o : Nat) : Option (LiteCjson × Nat) :=
  let numberCString := ((content.drop o).takeWhile isNumberByte).take numberLen
  let (len, number) := strtod.convert numberCString
  if len = 0 then none
  else some (⟨.number, (content.drop o).take len, 0, saturate number⟩, o + len)

/-- Where the closing quote is, from the byte behind the opening one. -/
def inputEnd : List UInt8 → Option Nat
  | [] => none
  | [b] => if b = 34 then some 0 else none
  | b :: c :: s =>
    if b = 34 then some 0
    else if b = 92 then (inputEnd s).map (· + 2)
    else (inputEnd (c :: s)).map (· + 1)

def parseString (o : Nat) : Option (LiteCjson × Nat) :=
  if content[o]? = some 34 then
    (inputEnd (content.drop (o + 1))).map fun len =>
      (⟨.string, (content.drop (o + 1)).take len, 0, 0⟩, o + len + 2)
  else none

/-- The slice from the bracket at `start` to the one at `last`, and the offset behind it. -/
def container (type : CjsonType) (start size last : Nat) : LiteCjson × Nat :=
  (⟨type, (content.drop start).take (last - start + 1), size, 0⟩, last + 1)

/-- The loop over the elements of an array, from the first one; it gives how many there are and
where it stopped. An element is a byte at least, so `content.length + 1` rounds are enough. -/
def parseElements (parseValue : Nat → Option (LiteCjson × Nat)) :
    Nat → Nat → Nat → Option (Nat × Nat)
  | 0, _, _ => none
  | rounds + 1, o, size =>
    (parseValue (bufferSkipWhitespace content o)).bind fun (_, o) =>
      let o := bufferSkipWhitespace content o
      if content[o]? = some 44 then parseElements parseValue rounds (o + 1) (size + 1)
      else some (size + 1, o)

def parseArray (parseValue : Nat → Option (LiteCjson × Nat)) (start : Nat) :
    Option (LiteCjson × Nat) :=
  let o := bufferSkipWhitespace content (start + 1)
  if content[o]? = some 93 then some (container content .array start 0 o)
  else
    (parseElements content parseValue (content.length + 1) o 0).bind fun (size, last) =>
      if content[last]? = some 93 then some (container content .array start size last) else none

/-- A member of an object: its key, its value, and the offset of the byte that ends it. -/
def parseMember (parseValue : Nat → Option (LiteCjson × Nat)) (o : Nat) :
    Option (LiteCjson × LiteCjson × Nat) :=
  (parseString content (bufferSkipWhitespace content o)).bind fun (key, o) =>
    let o := bufferSkipWhitespace content o
    if content[o]? = some 58 then
      (parseValue (bufferSkipWhitespace content (o + 1))).map fun (value, o) =>
        (key, value, bufferSkipWhitespace content o)
    else none

/-- How a loop over the members of an object ends: at a member it looks for, or behind the
last one. -/
inductive Walk where
  | found (key value : LiteCjson)
  | ended (size last : Nat)

/-- The loop over the members of an object, from the first one, which `parse_object` and the
functions that look a member up share. -/
def walkMembers (parseValue : Nat → Option (LiteCjson × Nat)) (wanted : Nat → LiteCjson → Bool) :
    Nat → Nat → Nat → Option Walk
  | 0, _, _ => none
  | rounds + 1, o, index =>
    (parseMember content parseValue o).bind fun (key, value, o) =>
      if wanted index key then some (.found key value)
      else if content[o]? = some 44 then walkMembers parseValue wanted rounds (o + 1) (index + 1)
      else some (.ended (index + 1) o)

def parseObject (parseValue : Nat → Option (LiteCjson × Nat)) (start : Nat) :
    Option (LiteCjson × Nat) :=
  let o := bufferSkipWhitespace content (start + 1)
  if content[o]? = some 125 then some (container content .object start 0 o)
  else
    match walkMembers content parseValue (fun _ _ => false) (content.length + 1) o 0 with
    | some (.ended size last) =>
      if content[last]? = some 125 then some (container content .object start size last) else none
    | _ => none

/-- The literal `word` as a value. -/
def literal (type : CjsonType) (word : List UInt8) (o : Nat) : LiteCjson × Nat :=
  (⟨type, word, 0, 0⟩, o + word.length)

/-- `process appropriately`, with the parsers of arrays and objects. -/
def dispatch (parseArray parseObject : Nat → Option (LiteCjson × Nat)) (o : Nat) :
    Option (LiteCjson × Nat) :=
  if readsWord content [110, 117, 108, 108] o then
    some (literal .null [110, 117, 108, 108] o)
  else if readsWord content [102, 97, 108, 115, 101] o then
    some (literal .false [102, 97, 108, 115, 101] o)
  else if readsWord content [116, 114, 117, 101] o then
    some (literal .true [116, 114, 117, 101] o)
  else
    match content[o]? with
    | none => none
    | some b =>
      if b = 34 then parseString content o
      else if startsNumber b then parseNumber strtod content o
      else if b = 91 then parseArray o
      else if b = 123 then parseObject o
      else none

/-- `parse_value`, with `levels` left before the nesting limit. -/
def parseValue : Nat → Nat → Option (LiteCjson × Nat)
  | 0, o => dispatch strtod content (fun _ => none) (fun _ => none) o
  | levels + 1, o =>
    dispatch strtod content (parseArray content (parseValue levels))
      (parseObject content (parseValue levels)) o

def liteCjsonParse : Option LiteCjson :=
  if content = [] then none
  else
    (parseValue strtod content liteCjsonNestingLimit
      (bufferSkipWhitespace content (skipUtf8Bom content))).map Prod.fst

end

/-- `_lite_cjson_object_item`: the first member with the key. -/
def liteCjsonObjectItem (strtod : Strtod) (lite : LiteCjson) (key : List UInt8) :
    Option LiteCjson :=
  if lite.type ≠ .object ∨ lite.size = 0 ∨ key = [] then none
  else
    let content := lite.value
    let o := bufferSkipWhitespace content 1
    if content[0]? ≠ some 123 ∨ content[o]? = some 125 then none
    else
      match walkMembers content (parseValue strtod content liteCjsonNestingLimit)
        (fun _ item => item.value = key) (content.length + 1) o 0 with
      | some (.found _ value) => some value
      | _ => none

/-- `dm_utils_json_parse`: the text as an item, cleared where it is none or not of the type. -/
def dmUtilsJsonParse (strtod : Strtod) (payload : List UInt8) (type : CjsonType) :
    Option LiteCjson :=
  match liteCjsonParse strtod payload with
  | none => none
  | some lite => if type ≠ .invalid ∧ lite.type ≠ type then none else some lite

/-- `dm_utils_json_object_item` for a key that names one member: the item, cleared where there
is none of the type. -/
def dmUtilsJsonObjectItem (strtod : Strtod) (lite : LiteCjson) (key : List UInt8)
    (type : CjsonType) : Option LiteCjson :=
  match liteCjsonObjectItem strtod lite key with
  | none => none
  | some item => if type ≠ .invalid ∧ item.type ≠ type then none else some item

end AliyunIot.Cjson
