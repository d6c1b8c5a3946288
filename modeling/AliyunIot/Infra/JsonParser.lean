import AliyunIot.Infra.CStr

/-!
# The JSON cursor

`infra_json_parser.c`: the cursor goes over the members of an object or the entries of an array
by hand. A pointer is a position in the text, whose terminator stands at its length;
`strEnd` is the length that the caller gives.
-/

namespace AliyunIot.JsonParser

inductive JsonType where
  | string
  | object
  | array
  | number
  | boolean
  deriving DecidableEq

/-- `strchr` from a position on. -/
def strchr (text : List UInt8) (pos : Nat) (c : UInt8) : Option Nat :=
  ((text.drop pos).findIdx? (· = c)).map (pos + ·)

/-- `json_get_object`: the opening bracket behind blanks. -/
def jsonGetObject (bracket : UInt8) (strEnd : Nat) : Nat → List UInt8 → Option Nat
  | _, [] => none
  | pos, b :: rest =>
    if strEnd ≤ pos then none
    else if b = 32 then jsonGetObject bracket strEnd (pos + 1) rest
    else if b = bracket then some pos
    else none

def startType (b : UInt8) : Option JsonType :=
  if b = 34 then some .string
  else if b = 123 then some .object
  else if b = 91 then some .array
  else if b = 45 ∨ 48 ≤ b ∧ b ≤ 57 then some .number
  else if b = 116 ∨ b = 84 ∨ b = 102 ∨ b = 70 then some .boolean
  else none

def findValue (strEnd : Nat) : Nat → List UInt8 → Option (JsonType × Nat)
  | _, [] => none
  | pos, b :: rest =>
    if strEnd ≤ pos then none
    else
      match startType b with
      | some type => some (type, pos)
      | none => findValue strEnd (pos + 1) rest

def booleanLen (value : List UInt8) : Option Nat :=
  if value.take 4 = [116, 114, 117, 101] ∨ value.take 4 = [84, 82, 85, 69] then some 4
  else if value.take 5 = [102, 97, 108, 115, 101] ∨ value.take 5 = [70, 65, 76, 83, 69] then
    some 5
  else none

def isNumberByte (b : UInt8) : Bool :=
  (48 ≤ b && b ≤ 57) || b = 46 || b = 43 || b = 45 || b = 101 || b = 69

def jsonMark : JsonType → UInt8 × UInt8
  | .array => (91, 93)
  | _ => (123, 125)

/-- The loop that looks for the end of a value that starts at `start` with the bytes `value`:
the length of the value, 0 when it does not end. -/
def valueLen (type : JsonType) (value : List UInt8) (strEnd start : Nat) :
    Nat → Bool → Nat → List UInt8 → Nat
  | _, _, _, [] => 0
  | depth, inString, pos, b :: rest =>
    if strEnd ≤ pos then 0
    else
      match type with
      | .boolean =>
        match booleanLen value with
        | some len => len
        | none => valueLen type value strEnd start depth inString (pos + 1) rest
      | .number =>
        if isNumberByte b then valueLen type value strEnd start depth inString (pos + 1) rest
        else pos - start
      | .string =>
        if b = 34 then pos - start
        else valueLen type value strEnd start depth inString (pos + 1) rest
      | .object | .array =>
        if b = (jsonMark type).2 then
          if inString then valueLen type value strEnd start depth inString (pos + 1) rest
          else if depth = 0 then pos - start + 1
          else valueLen type value strEnd start (depth - 1) inString (pos + 1) rest
        else if b = (jsonMark type).1 then
          valueLen type value strEnd start (if inString then depth else depth + 1) inString
            (pos + 1) rest
        else if b = 34 then valueLen type value strEnd start depth (!inString) (pos + 1) rest
        else valueLen type value strEnd start depth inString (pos + 1) rest

/-- A key and value that were found: positions and lengths; an entry of an array has no key. -/
structure Entry where
  key : Option (Nat × Nat)
  val : Nat
  valLen : Nat
  valType : JsonType
  deriving DecidableEq

/-- What `json_get_next_object` does: it returns null, it returns the next position, or it
writes through the null pointer that an array gives for the key. -/
inductive Next where
  | null
  | found (entry : Entry) (pos : Nat)
  | nullWrite
  deriving DecidableEq

/-- `json_get_next_object` from the value on. -/
def nextValue (text : List UInt8) (strEnd : Nat) (key : Option (Nat × Nat)) (from? : Option Nat) :
    Next :=
  match from?.bind fun pos => findValue strEnd pos (text.drop pos) with
  | none => .null
  | some (type, pos) =>
    let val := if type = .string then pos + 1 else pos
    let scan := if type = .boolean then pos else pos + 1
    let len := valueLen type (text.drop val) strEnd val 0 false scan (text.drop scan)
    match key with
    | none =>
      if strEnd < val + len then .nullWrite
      else .found ⟨none, val, len, type⟩ (if type = .string then val + len + 1 else val + len)
    | some (name, nameLen) =>
      if strEnd < name + nameLen then .null
      else if strEnd < val + len then .null
      else
        .found ⟨some (name, nameLen), val, len, type⟩
          (if type = .string then val + len + 1 else val + len)

def jsonGetNextObject (isObject : Bool) (text : List UInt8) (strEnd pos : Nat) : Next :=
  if isObject then
    match strchr text pos 34 with
    | none => .null
    | some quote =>
      match strchr text (quote + 1) 34 with
      | none => .null
      | some quote' =>
        nextValue text strEnd (some (quote + 1, quote' - (quote + 1))) (strchr text quote' 58)
  else nextValue text strEnd none (some pos)

/-- How an iteration ends: with what it reports, with an access outside of the text, or it is
not over after so many rounds. -/
inductive Walk where
  | finished (entries : List Entry)
  | outside
  | unfinished

def Walk.cons (entry : Entry) : Walk → Walk
  | .finished entries => .finished (entry :: entries)
  | walk => walk

/-- The loops of `json_object_for_each_kv` and `json_array_for_each_entry`. -/
def forEach (isObject : Bool) (text : List UInt8) (strEnd : Nat) : Nat → Nat → Walk
  | 0, _ => .unfinished
  | fuel + 1, pos =>
    if text.length < pos then .outside
    else if pos = text.length then .finished []
    else
      match jsonGetNextObject isObject text strEnd (if isObject then pos else pos + 1) with
      | .null => .finished []
      | .nullWrite => .outside
      | .found entry pos => (forEach isObject text strEnd fuel pos).cons entry

/-- `json_object_for_each_kv` and `json_array_for_each_entry`. -/
def iterate (isObject : Bool) (text : CStr) (strEnd fuel : Nat) : Walk :=
  match jsonGetObject (if isObject then 123 else 91) strEnd 0 text.val with
  | none => .finished []
  | some pos => forEach isObject text.val strEnd fuel pos

end AliyunIot.JsonParser
