import AliyunIot.Infra.CStr
import AliyunIot.Infra.Cjson

/-!
# Printing with lite_cjson

`lite_cjson_print` and `lite_cjson_print_unformatted` of `infra_cjson.c`, over a buffer that
grows as it is written. A result `none` is an access outside of a block. What is printed is
the text of the item, or nothing; the buffer is written inside of its bounds, and is freed
(`print_text`).
-/

namespace AliyunIot.Cjson

/-! ## Items -/

mutual

inductive Item (D : Type) where
  | invalid
  | null
  | false
  | true
  | number (valuedouble : D)
  | raw (valuestring : Option CStr)
  | string (valuestring : Option CStr)
  | array (child : Items D)
  | object (child : Items D)

/-- The items from a `child` on: the first of them with its `string`, and those at `next`. -/
inductive Items (D : Type) where
  | nil
  | cons (string : Option CStr) (item : Item D) (next : Items D)

end

def Items.isNil {D : Type} : Items D → Bool
  | .nil => true
  | .cons _ _ _ => false

/-- What the C library makes of a `double`: `%f`, `%1.15g` and `%1.17g`, and whether a text is
read back as the number. -/
structure Doubles (D : Type) where
  finite : D → Bool
  percentF : D → CStr
  floatBack : List UInt8 → D → Bool
  percent15 : D → CStr
  doubleBack : List UInt8 → D → Bool
  percent17 : D → CStr

/-- `sprintf` to the 26 bytes of `number_buffer`. -/
def intoNumberBuffer (text : List UInt8) : Option (List UInt8) :=
  if text.length < 26 then some text else none

/-- The last loop of `remove_zero`, from the last byte. -/
def stripZeros : List UInt8 → List UInt8
  | [] => []
  | b :: s => if b = 48 then stripZeros s else if b = 46 then s else b :: s

def removeZero (text : List UInt8) : List UInt8 :=
  if 46 ∈ text then (stripZeros text.reverse).reverse else text

section

variable {D : Type} (dbl : Doubles D)

/-- What `print_number` leaves in `number_buffer`. -/
def numberBuffer (d : D) : Option (List UInt8) :=
  if dbl.finite d = false then intoNumberBuffer [110, 117, 108, 108]
  else do
    let text ← intoNumberBuffer (dbl.percentF d).val
    if dbl.floatBack text d = false then
      let text ← intoNumberBuffer (dbl.percent15 d).val
      if dbl.doubleBack text d = false then intoNumberBuffer (dbl.percent17 d).val else return text
    else return removeZero text

end

/-! ## The buffer -/

/-- `printbuffer`, with the calls of `malloc` so far and the blocks that are not freed. -/
structure Printbuffer where
  buffer : Option (List UInt8)
  length : Nat
  offset : Nat
  depth : Nat
  format : Bool
  calls : Nat
  live : Nat

/-- The heap: whether a call of `malloc` succeeds for a size, and what is in the block. -/
structure PrintHeap where
  malloc : Nat → Nat → Bool
  junk : Nat → Nat → UInt8

def PrintHeap.block (heap : PrintHeap) (calls size : Nat) : List UInt8 :=
  (List.range size).map (heap.junk calls)

def store (buf : List UInt8) (off : Nat) (bytes : List UInt8) : Option (List UInt8) :=
  if off + bytes.length ≤ buf.length then
    some (buf.take off ++ (bytes ++ buf.drop (off + bytes.length)))
  else none

/-- Bytes stored `skip` behind the offset. -/
def Printbuffer.put (p : Printbuffer) (skip : Nat) (bytes : List UInt8) : Option Printbuffer := do
  let buf ← p.buffer
  let buf ← store buf (p.offset + skip) bytes
  return { p with buffer := some buf }

/-- The new size in `ensure`. -/
def grownSize (needed : Nat) : Option Nat :=
  if 1073741823 < needed then if needed ≤ 2147483647 then some 2147483647 else none
  else some (needed * 2)

/-- `ensure`, without `realloc`: whether there is room behind the offset. -/
def ensure (heap : PrintHeap) (needed : Nat) (p : Printbuffer) : Option (Bool × Printbuffer) :=
  match p.buffer with
  | none => some (false, p)
  | some buf =>
    if 0 < p.length ∧ p.length ≤ p.offset then some (false, p)
    else if 2147483647 < needed then some (false, p)
    else
      let needed := needed + p.offset + 1
      if needed ≤ p.length then some (true, p)
      else
        match grownSize needed with
        | none => some (false, p)
        | some newsize =>
          if heap.malloc p.calls newsize then do
            let newbuffer := heap.block p.calls newsize
            if p.offset + 1 ≤ buf.length then
              let newbuffer ← store newbuffer 0 (buf.take (p.offset + 1))
              return (true, { p with
                buffer := some newbuffer, length := newsize, calls := p.calls + 1 })
            else none
          else
            some (false, { p with
              buffer := none, length := 0, calls := p.calls + 1, live := p.live - 1 })

/-- `update_offset`, that reads up to the next NUL. -/
def updateOffset (p : Printbuffer) : Option Printbuffer :=
  match p.buffer with
  | none => some p
  | some buf =>
    if 0 ∈ buf.drop p.offset then
      some { p with offset := p.offset + ((buf.drop p.offset).takeWhile (· ≠ 0)).length }
    else none

/-! ## Printing -/

/-- `ensure` and, when there is room, `write`. -/
def ensuring (heap : PrintHeap) (needed : Nat) (p : Printbuffer)
    (write : Printbuffer → Option Printbuffer) : Option (Bool × Printbuffer) := do
  let (ok, p) ← ensure heap needed p
  if ok = false then return (false, p)
  let p ← write p
  return (true, p)

/-- The steps of a function that returns `false` at the first that does. -/
def andThen (step : Option (Bool × Printbuffer))
    (next : Printbuffer → Option (Bool × Printbuffer)) : Option (Bool × Printbuffer) := do
  let (ok, p) ← step
  if ok = false then return (false, p)
  next p

/-- How many bytes more than one are printed for a byte of a string. -/
def escapeCount (b : UInt8) : Nat :=
  if b = 34 ∨ b = 92 ∨ b = 8 ∨ b = 12 ∨ b = 10 ∨ b = 13 ∨ b = 9 then 1 else if b < 32 then 5 else 0

def escapeCharacters : List UInt8 → Nat
  | [] => 0
  | b :: s => escapeCount b + escapeCharacters s

/-- A digit of `%04x`. -/
def hexDigit (n : UInt8) : UInt8 := if n < 10 then 48 + n else 87 + n

/-- What stands for a byte of a string. -/
def escape (b : UInt8) : List UInt8 :=
  if 31 < b ∧ b ≠ 34 ∧ b ≠ 92 then [b]
  else if b = 92 then [92, 92]
  else if b = 34 then [92, 34]
  else if b = 8 then [92, 98]
  else if b = 12 then [92, 102]
  else if b = 10 then [92, 110]
  else if b = 13 then [92, 114]
  else if b = 9 then [92, 116]
  else [92, 117, 48, 48, hexDigit (b >>> 4), hexDigit (b &&& 15)]

/-- What is stored for it: `sprintf` puts a NUL behind its digits. -/
def escapeWrites (b : UInt8) : List UInt8 :=
  if 6 ≤ (escape b).length then escape b ++ [0] else escape b

/-- The loop that copies the string, `skip` behind the offset. -/
def copyEscaped : List UInt8 → Nat → Printbuffer → Option Printbuffer
  | [], _, p => some p
  | b :: s, skip, p => do
    let p ← p.put skip (escapeWrites b)
    copyEscaped s (skip + (escape b).length) p

def printStringPtr (heap : PrintHeap) (input : Option CStr) (p : Printbuffer) :
    Option (Bool × Printbuffer) :=
  match input with
  | none => ensuring heap 3 p fun p => p.put 0 [34, 34, 0]
  | some input =>
    let outputLength := input.val.length + escapeCharacters input.val
    ensuring heap (outputLength + 3) p fun p => do
      if escapeCharacters input.val = 0 then
        let p ← p.put 0 [34]
        let p ← p.put 1 input.val
        p.put (outputLength + 1) [34, 0]
      else
        let p ← p.put 0 [34]
        let p ← copyEscaped input.val 1 p
        p.put (outputLength + 1) [34, 0]

/-- The literals, and the text of a `cJSON_Raw`. -/
def printWord (heap : PrintHeap) (word : List UInt8) (p : Printbuffer) :
    Option (Bool × Printbuffer) :=
  ensuring heap (word.length + 1) p fun p => p.put 0 (word ++ [0])

def printBytes (heap : PrintHeap) (needed : Nat) (bytes : List UInt8) (behind : List UInt8)
    (p : Printbuffer) : Option (Bool × Printbuffer) :=
  ensuring heap needed p fun p => do
    let p ← p.put 0 (bytes ++ behind)
    return { p with offset := p.offset + bytes.length }

section

variable {D : Type} (dbl : Doubles D) (heap : PrintHeap)

def printNumber (d : D) (p : Printbuffer) : Option (Bool × Printbuffer) := do
  let text ← numberBuffer dbl d
  if 25 < text.length then return (false, p)
  printBytes heap (text.length + 1) text [0] p

/-- `p->depth++`. -/
def Printbuffer.deeper (p : Printbuffer) : Printbuffer := { p with depth := p.depth + 1 }

/-- `p->depth--`. -/
def Printbuffer.higher (p : Printbuffer) : Printbuffer := { p with depth := p.depth - 1 }

/-- A step, and `update_offset`. -/
def updating (step : Option (Bool × Printbuffer)) : Option (Bool × Printbuffer) :=
  andThen step fun p => (updateOffset p).map (true, ·)

def printComma (p : Printbuffer) : Option (Bool × Printbuffer) :=
  let comma : List UInt8 := if p.format then [44, 32] else [44]
  printBytes heap (comma.length + 1) comma [0] p

def printMemberEnd (last : Bool) (p : Printbuffer) : Option (Bool × Printbuffer) :=
  let bytes : List UInt8 := (if last then [] else [44]) ++ if p.format then [10] else []
  printBytes heap (bytes.length + 1) bytes [0] p

def printTabs (p : Printbuffer) : Option (Bool × Printbuffer) :=
  if p.format then printBytes heap p.depth (List.replicate p.depth 9) [] p else some (true, p)

def printKey (string : Option CStr) (p : Printbuffer) : Option (Bool × Printbuffer) :=
  andThen (updating (printStringPtr heap string p)) fun p =>
    let colon : List UInt8 := if p.format then [58, 9] else [58]
    printBytes heap colon.length colon [] p

def printObjectEnd (p : Printbuffer) : Option (Bool × Printbuffer) :=
  let tabs : List UInt8 := if p.format then List.replicate (p.depth - 1) 9 else []
  let needed := if p.format then p.depth + 1 else 2
  andThen (ensuring heap needed p fun p => p.put 0 (tabs ++ [125, 0])) fun p =>
    some (true, p.higher)

mutual

def printValue : Item D → Printbuffer → Option (Bool × Printbuffer)
  | .invalid, p => some (false, p)
  | .null, p => printWord heap [110, 117, 108, 108] p
  | .false, p => printWord heap [102, 97, 108, 115, 101] p
  | .true, p => printWord heap [116, 114, 117, 101] p
  | .number d, p => printNumber dbl heap d p
  | .raw none, p => some (false, p)
  | .raw (some valuestring), p => printWord heap valuestring.val p
  | .string valuestring, p => printStringPtr heap valuestring p
  | .array child, p =>
    andThen (ensuring heap 1 p fun p => p.put 0 [91]) fun p =>
      andThen (printElements child { p with offset := p.offset + 1, depth := p.depth + 1 }) fun p =>
        andThen (ensuring heap 2 p fun p => p.put 0 [93, 0]) fun p => some (true, p.higher)
  | .object child, p =>
    let opening : List UInt8 := if p.format then [123, 10] else [123]
    andThen (printBytes heap (opening.length + 1) opening [] p.deeper) fun p =>
      andThen (printMembers child p) fun p => printObjectEnd heap p

/-- The loop of `print_array`. -/
def printElements : Items D → Printbuffer → Option (Bool × Printbuffer)
  | .nil, p => some (true, p)
  | .cons _ item next, p =>
    andThen (updating (printValue item p)) fun p =>
      andThen (if next.isNil then some (true, p) else printComma heap p) fun p =>
        printElements next p

/-- The loop of `print_object`. -/
def printMembers : Items D → Printbuffer → Option (Bool × Printbuffer)
  | .nil, p => some (true, p)
  | .cons string item next, p =>
    andThen (printTabs heap p) fun p =>
      andThen (printKey heap string p) fun p =>
        andThen (updating (printValue item p)) fun p =>
          andThen (printMemberEnd heap next.isNil p) fun p => printMembers next p

end

/-- `print`: the text that is returned, and the blocks that are left. -/
def print (item : Item D) (format : Bool) : Option (Option (List UInt8) × Nat) :=
  if heap.malloc 0 256 = false then some (none, 0)
  else do
    let (ok, p) ← updating (printValue dbl heap item
      ⟨some (heap.block 0 256), 256, 0, 0, format, 1, 1⟩)
    if ok = false then return (none, if p.buffer.isSome then p.live - 1 else p.live)
    match p.buffer with
    | none => none
    | some buffer =>
      if heap.malloc p.calls (p.offset + 1) = false then return (none, p.live - 1)
      let printed ← store (heap.block p.calls (p.offset + 1)) 0
        (buffer.take (min p.length (p.offset + 1)))
      let printed ← store printed p.offset [0]
      return (some (printed.takeWhile (· ≠ 0)), p.live)

def liteCjsonPrint (item : Item D) : Option (Option (List UInt8) × Nat) := print dbl heap item true

def liteCjsonPrintUnformatted (item : Item D) : Option (Option (List UInt8) × Nat) :=
  print dbl heap item false

end

/-! ## The text of an item -/

def stringText (string : Option CStr) : List UInt8 :=
  Lib.Json.quote ((string.elim [] Subtype.val).flatMap escape)

def tabs (format : Bool) (depth : Nat) : List UInt8 :=
  if format then List.replicate depth 9 else []

def newline (format : Bool) : List UInt8 := if format then [10] else []

section

variable {D : Type} (dbl : Doubles D) (format : Bool)

mutual

def Item.text : Item D → Nat → List UInt8
  | .invalid, _ => []
  | .null, _ => [110, 117, 108, 108]
  | .false, _ => [102, 97, 108, 115, 101]
  | .true, _ => [116, 114, 117, 101]
  | .number d, _ => (numberBuffer dbl d).getD []
  | .raw valuestring, _ => valuestring.elim [] Subtype.val
  | .string valuestring, _ => stringText valuestring
  | .array child, depth => 91 :: (child.elements (depth + 1) ++ [93])
  | .object child, depth =>
    123 :: (newline format ++ (child.members (depth + 1) ++ (tabs format depth ++ [125])))

def Items.elements : Items D → Nat → List UInt8
  | .nil, _ => []
  | .cons _ item next, depth =>
    item.text depth ++
      ((if next.isNil then [] else 44 :: (if format then [32] else [])) ++ next.elements depth)

def Items.members : Items D → Nat → List UInt8
  | .nil, _ => []
  | .cons string item next, depth =>
    tabs format depth ++ (stringText string ++ (58 :: (if format then [9] else []) ++
      (item.text depth ++ ((if next.isNil then [] else [44]) ++
        (newline format ++ next.members depth)))))

end

mutual

/-- All the numbers fit in `number_buffer`. -/
def Item.Narrow : Item D → Prop
  | .number d => (numberBuffer dbl d).isSome
  | .array child => child.Narrow
  | .object child => child.Narrow
  | _ => True

def Items.Narrow : Items D → Prop
  | .nil => True
  | .cons _ item next => item.Narrow ∧ next.Narrow

end

mutual

/-- No item is of an unknown type, or a `cJSON_Raw` without its text. -/
def Item.printable : Item D → Bool
  | .invalid => false
  | .raw valuestring => valuestring.isSome
  | .array child => child.printable
  | .object child => child.printable
  | _ => true

def Items.printable : Items D → Bool
  | .nil => true
  | .cons _ item next => item.printable && next.printable

end

end

/-! ## What a step leaves -/

/-- The buffer starts with `bytes`, and is not freed. -/
structure Holds (format : Bool) (depth off : Nat) (bytes rest : List UInt8) (p : Printbuffer) :
    Prop where
  buffer : p.buffer = some (bytes ++ rest)
  length : p.length = bytes.length + rest.length
  length_le : p.length ≤ 2147483647
  offset : p.offset = off
  depth : p.depth = depth
  format : p.format = format
  live : p.live = 1

/-- The offset is behind `s`, and there is room for `n` bytes and a NUL. -/
def Room (format : Bool) (depth : Nat) (s : List UInt8) (n : Nat) (p : Printbuffer) : Prop :=
  ∃ rest, n < rest.length ∧ Holds format depth s.length s rest p

/-- `t` is written behind `s`, with its NUL. -/
def Done (format : Bool) (depth : Nat) (s t : List UInt8) (p : Printbuffer) : Prop :=
  ∃ k rest, k ≤ t.length ∧ Holds format depth (s.length + k) (s ++ t) (0 :: rest) p

/-- A step ends with `true` and what is promised, or with `false` for a reason; then the buffer
is there or freed. -/
def Outcome (cause : Prop) (step : Option (Bool × Printbuffer)) (promised : Printbuffer → Prop) :
    Prop :=
  ∃ ok p, step = some (ok, p) ∧
    (ok = true ∧ promised p ∨ ok = false ∧ p.live = (if p.buffer.isSome then 1 else 0) ∧ cause)

section

variable {cause : Prop} {promised promised' : Printbuffer → Prop} {p : Printbuffer}
  {step : Option (Bool × Printbuffer)} {format : Bool} {depth off : Nat}
  {s t bytes rest : List UInt8}

theorem outcome_true (h : promised p) : Outcome cause (some (true, p)) promised :=
  ⟨true, p, rfl, .inl ⟨rfl, h⟩⟩

theorem Outcome.mono (h : Outcome cause step promised) (himp : ∀ p, promised p → promised' p) :
    Outcome cause step promised' := by
  obtain ⟨ok, p, hstep, ⟨hok, hp⟩ | hfail⟩ := h
  · exact ⟨ok, p, hstep, .inl ⟨hok, himp p hp⟩⟩
  · exact ⟨ok, p, hstep, .inr hfail⟩

theorem Outcome.andThen {next : Printbuffer → Option (Bool × Printbuffer)}
    (h : Outcome cause step promised) (hnext : ∀ p, promised p → Outcome cause (next p) promised') :
    Outcome cause (Cjson.andThen step next) promised' := by
  obtain ⟨ok, p, rfl, ⟨rfl, hp⟩ | ⟨rfl, hfail⟩⟩ := h
  · exact hnext p hp
  · exact ⟨false, p, rfl, .inr ⟨rfl, hfail⟩⟩

theorem store_append (s bytes : List UInt8) (h : bytes.length ≤ rest.length) :
    store (s ++ rest) s.length bytes = some (s ++ (bytes ++ rest.drop bytes.length)) := by
  rw [store, if_pos (by rw [List.length_append]; omega), List.take_left, List.drop_append]
  simp

theorem Holds.put (h : Holds format depth off s rest p) (skip : Nat) (bytes : List UInt8)
    (hskip : off + skip = s.length) (hroom : bytes.length ≤ rest.length) :
    ∃ p', p.put skip bytes = some p' ∧
      Holds format depth off (s ++ bytes) (rest.drop bytes.length) p' := by
  refine ⟨{ p with buffer := some (s ++ (bytes ++ rest.drop bytes.length)) }, ?_, ?_⟩
  · rw [Printbuffer.put, h.buffer, h.offset, hskip]
    simp only [Option.bind_eq_bind, Option.bind_some, store_append s bytes hroom]
    rfl
  · refine { h with buffer := by rw [List.append_assoc], length := ?_ }
    simp only [h.length, List.length_append, List.length_drop]
    omega

variable {needed : Nat}

theorem ensure_outcome (heap : PrintHeap) (h : Room format depth s 0 p)
    (hmem : ∀ calls size, heap.malloc calls size = false → cause)
    (hbig : 2147483647 < s.length + needed + 1 → cause) :
    Outcome cause (ensure heap needed p) (Room format depth s needed) := by
  obtain ⟨rest, hpos, hp⟩ := h
  have hlen := hp.length
  have hfail : Outcome cause (some (false, p)) (Room format depth s needed) ∨
      ¬ 2147483647 < s.length + needed + 1 := by
    by_cases hc : 2147483647 < s.length + needed + 1
    · exact .inl ⟨false, p, rfl, .inr ⟨rfl, by rw [hp.live, hp.buffer]; rfl, hbig hc⟩⟩
    · exact .inr hc
  rw [ensure, hp.buffer]
  dsimp only
  rw [if_neg (by rw [hp.offset]; omega), hp.offset]
  split
  · next hneeded => exact hfail.resolve_right fun hn => hn (by omega)
  split
  · next hle =>
    exact outcome_true ⟨rest, by omega, hp⟩
  split
  · next hgrown =>
    refine hfail.resolve_right fun hn => ?_
    unfold grownSize at hgrown
    split at hgrown
    · split at hgrown
      · cases hgrown
      · exact hn (by omega)
    · cases hgrown
  next newsize hgrown =>
  have hsize : needed + s.length + 1 ≤ newsize ∧ newsize ≤ 2147483647 := by
    unfold grownSize at hgrown
    split at hgrown
    · split at hgrown
      · cases hgrown
        omega
      · cases hgrown
    · cases hgrown
      omega
  split
  case isFalse hno =>
    refine ⟨false, _, rfl, .inr ⟨rfl, ?_, hmem _ _ (by simpa using hno)⟩⟩
    simp [hp.live]
  case isTrue =>
    cases rest with
    | nil => exact absurd hpos (Nat.lt_irrefl 0)
    | cons b rest =>
    have htake : (s ++ b :: rest).take (s.length + 1) = s ++ [b] := by
      rw [List.take_append, List.take_of_length_le (Nat.le_succ _)]
      simp
    have hblock : (heap.block p.calls newsize).length = newsize := by
      simp [PrintHeap.block]
    have hfits : (s ++ [b]).length ≤ (heap.block p.calls newsize).length := by
      rw [hblock, List.length_append, List.length_singleton]
      omega
    have hstore : store (heap.block p.calls newsize) 0 (s ++ [b]) =
        some (s ++ [b] ++ (heap.block p.calls newsize).drop (s ++ [b]).length) :=
      store_append [] (s ++ [b]) hfits
    rw [if_pos (by simp), htake, hstore]
    refine outcome_true ⟨b :: (heap.block p.calls newsize).drop (s ++ [b]).length, ?_, ?_⟩
    · simp only [List.length_cons, List.length_drop, hblock, List.length_append, List.length_nil]
      omega
    · refine { hp with buffer := by simp, length := ?_, length_le := hsize.2, offset := rfl }
      simp only [List.length_cons, List.length_drop, hblock, List.length_append, List.length_nil]
      omega

theorem ensuring_outcome (heap : PrintHeap) {write : Printbuffer → Option Printbuffer}
    (h : Room format depth s 0 p) (hmem : ∀ calls size, heap.malloc calls size = false → cause)
    (hbig : 2147483647 < s.length + needed + 1 → cause)
    (hwrite : ∀ p, Room format depth s needed p → ∃ p', write p = some p' ∧ promised p') :
    Outcome cause (ensuring heap needed p write) promised := by
  obtain ⟨ok, p', hens, ⟨rfl, hroom⟩ | ⟨rfl, hfail⟩⟩ := ensure_outcome heap h hmem hbig
  · obtain ⟨p'', hw, hp⟩ := hwrite p' hroom
    refine ⟨true, p'', ?_, .inl ⟨rfl, hp⟩⟩
    simp [ensuring, hens, hw]
  · refine ⟨false, p', ?_, .inr ⟨rfl, hfail⟩⟩
    simp [ensuring, hens]

theorem updating_outcome {good : Prop} (ht : 0 ∉ t)
    (h : Outcome cause step fun p => good ∧ Done format depth s t p) :
    Outcome cause (updating step) fun p => good ∧ Room format depth (s ++ t) 0 p := by
  refine h.andThen fun p hp => ?_
  obtain ⟨hgood, k, rest, hk, hp⟩ := hp
  have hdrop : (s ++ t ++ 0 :: rest).drop (s.length + k) = t.drop k ++ 0 :: rest := by
    rw [List.append_assoc, List.drop_append]
    have hs : s.drop (s.length + k) = [] := List.drop_of_length_le (by omega)
    rw [hs, List.nil_append, Nat.add_sub_cancel_left, List.drop_append_of_le_length hk]
  have hplain : ∀ b ∈ t.drop k, (decide (b ≠ 0)) = true := fun b hb => by
    refine decide_eq_true fun h0 => ht ?_
    exact h0 ▸ List.mem_of_mem_drop hb
  have htake : ((t.drop k ++ 0 :: rest).takeWhile (· ≠ 0)).length = t.length - k := by
    rw [List.takeWhile_append_of_pos hplain, List.takeWhile_cons_of_neg (by decide),
      List.append_nil, List.length_drop]
  have hup : updateOffset p = some { p with offset := s.length + k + (t.length - k) } := by
    rw [updateOffset, hp.buffer]
    dsimp only
    rw [hp.offset, hdrop, htake, if_pos (by simp)]
  rw [hup]
  refine outcome_true ⟨hgood, 0 :: rest, Nat.succ_pos _, { hp with offset := ?_ }⟩
  rw [List.length_append]
  show s.length + k + (t.length - k) = s.length + t.length
  omega

theorem Holds.of_append (h : Holds format depth off (s ++ t) rest p) :
    Holds format depth off s (t ++ rest) p := by
  refine { h with buffer := by rw [h.buffer, List.append_assoc], length := ?_ }
  rw [h.length, List.length_append, List.length_append]
  omega

theorem Holds.done {k : Nat} (h : Holds format depth (s.length + k) (s ++ (t ++ [0])) rest p)
    (hk : k ≤ t.length) : Done format depth s t p := by
  rw [← List.append_assoc] at h
  exact ⟨k, rest, hk, h.of_append⟩

theorem Room.put {n : Nat} (h : Room format depth s n p) (hn : t.length < n + 1) :
    ∃ p', p.put 0 (t ++ [0]) = some p' ∧ Done format depth s t p' := by
  obtain ⟨rest, hlt, hp⟩ := h
  obtain ⟨p', hput, hp'⟩ := hp.put 0 (t ++ [0]) (Nat.add_zero _)
    (by rw [List.length_append, List.length_singleton]; omega)
  exact ⟨p', hput, Holds.done (k := 0) hp' (Nat.zero_le _)⟩

theorem printBytes_outcome (heap : PrintHeap) {behind : List UInt8}
    (h : Room format depth s 0 p) (hmem : ∀ calls size, heap.malloc calls size = false → cause)
    (hbig : 2147483647 < s.length + needed + 1 → cause)
    (hneeded : bytes.length + behind.length ≤ needed) :
    Outcome cause (printBytes heap needed bytes behind p) (Room format depth (s ++ bytes) 0) := by
  refine ensuring_outcome heap h hmem hbig fun p hroom => ?_
  obtain ⟨rest, hlt, hp⟩ := hroom
  obtain ⟨p', hput, hp'⟩ := hp.put 0 (bytes ++ behind) (Nat.add_zero _)
    (by rw [List.length_append]; omega)
  rw [hput]
  rw [← List.append_assoc] at hp'
  have hsplit := hp'.of_append
  refine ⟨_, rfl, behind ++ rest.drop (bytes ++ behind).length, ?_, { hsplit with offset := ?_ }⟩
  · simp only [List.length_append, List.length_drop]
    omega
  · rw [List.length_append, ← hsplit.offset]

theorem printWord_outcome (heap : PrintHeap) {word : List UInt8} (h : Room format depth s 0 p)
    (hmem : ∀ calls size, heap.malloc calls size = false → cause)
    (hbig : 2147483647 < s.length + word.length + 2 → cause) :
    Outcome cause (printWord heap word p) (Done format depth s word) :=
  ensuring_outcome heap h hmem hbig fun _ hroom => hroom.put (by omega)

end

/-! ## Strings -/

def escapeLetters : List (UInt8 × UInt8) :=
  [(92, 92), (34, 34), (8, 98), (12, 102), (10, 110), (13, 114), (9, 116)]

theorem escape_cases (b : UInt8) :
    (escape b = [b] ∧ escapeCount b = 0 ∧ 32 ≤ b ∧ b ≠ 34 ∧ b ≠ 92) ∨
      (∃ e, escape b = [92, e] ∧ escapeCount b = 1 ∧ (b, e) ∈ escapeLetters) ∨
      (escape b = [92, 117, 48, 48, hexDigit (b >>> 4), hexDigit (b &&& 15)] ∧
        escapeCount b = 5 ∧ b < 32) := by
  by_cases hshort : b = 92 ∨ b = 34 ∨ b = 8 ∨ b = 12 ∨ b = 10 ∨ b = 13 ∨ b = 9
  · right; left
    rcases hshort with rfl | rfl | rfl | rfl | rfl | rfl | rfl
    exacts [⟨92, by decide⟩, ⟨34, by decide⟩, ⟨98, by decide⟩, ⟨102, by decide⟩, ⟨110, by decide⟩,
      ⟨114, by decide⟩, ⟨116, by decide⟩]
  simp only [not_or] at hshort
  have hle : 31 < b ↔ ¬ b < 32 := by
    rw [UInt8.lt_iff_toNat_lt, UInt8.lt_iff_toNat_lt]
    simp only [UInt8.reduceToNat]
    omega
  by_cases hlt : b < 32
  · exact .inr (.inr (by simp [escape, escapeCount, hle, hlt, hshort]))
  · exact .inl (by simp [escape, escapeCount, hle, hlt, hshort, UInt8.not_lt.mp hlt])

theorem length_escape (b : UInt8) : (escape b).length = 1 + escapeCount b := by
  rcases escape_cases b with ⟨heq, hcount, -⟩ | ⟨e, heq, hcount, -⟩ | ⟨heq, hcount, -⟩
  all_goals
    rw [heq, hcount]
    rfl

theorem length_flatMap_escape (s : List UInt8) :
    (s.flatMap escape).length = s.length + escapeCharacters s := by
  induction s with
  | nil => rfl
  | cons b s ih =>
    rw [List.flatMap_cons, List.length_append, ih, length_escape, List.length_cons,
      escapeCharacters]
    omega

theorem flatMap_escape_eq {s : List UInt8} (h : escapeCharacters s = 0) : s.flatMap escape = s := by
  induction s with
  | nil => rfl
  | cons b s ih =>
    rw [escapeCharacters] at h
    rcases escape_cases b with ⟨hb, -⟩ | ⟨e, -, hcount, -⟩ | ⟨-, hcount, -⟩
    · rw [List.flatMap_cons, hb, ih (by omega), List.singleton_append]
    all_goals omega

theorem isHexDigit_hexDigit {n : UInt8} (hn : n < 16) :
    Lib.Json.isHexDigit (hexDigit n) = true := by
  have hsmall : ∀ k : Fin 16, Lib.Json.isHexDigit (hexDigit (UInt8.ofNat k)) = true := by decide
  have h := hsmall ⟨n.toNat, UInt8.lt_iff_toNat_lt.mp hn⟩
  rwa [UInt8.ofNat_toNat] at h

theorem isHexDigit_nibbles (b : UInt8) : Lib.Json.isHexDigit (hexDigit (b >>> 4)) = true ∧
    Lib.Json.isHexDigit (hexDigit (b &&& 15)) = true := by
  constructor
  · refine isHexDigit_hexDigit ?_
    have hlt := UInt8.toNat_lt b
    rw [UInt8.lt_iff_toNat_lt, UInt8.toNat_shiftRight, Nat.shiftRight_eq_div_pow]
    exact Nat.div_lt_of_lt_mul hlt
  · refine isHexDigit_hexDigit ?_
    rw [UInt8.lt_iff_toNat_lt, UInt8.toNat_and]
    exact Nat.lt_of_le_of_lt Nat.and_le_right (by decide)

theorem zero_not_mem_escape {b : UInt8} (hb : b ≠ 0) : 0 ∉ escape b := by
  rcases escape_cases b with ⟨heq, -⟩ | ⟨e, heq, -, he⟩ | ⟨heq, -, -⟩
  · simp [heq, hb.symm]
  · have hletters : ∀ p ∈ escapeLetters, p.2 ≠ 0 := by simp [escapeLetters]
    simp [heq, (hletters _ he).symm]
  · have hdigit : ∀ {n : UInt8}, Lib.Json.isHexDigit n = true → 0 ≠ n := by
      rintro n h rfl
      cases h
    obtain ⟨hhigh, hlow⟩ := isHexDigit_nibbles b
    simp [heq, hdigit hhigh, hdigit hlow]

theorem zero_not_mem_stringText (string : Option CStr) : 0 ∉ stringText string := by
  have hbody : 0 ∉ (string.elim [] Subtype.val).flatMap escape := by
    intro h
    obtain ⟨b, hb, hmem⟩ := List.mem_flatMap.mp h
    refine zero_not_mem_escape (fun h0 => ?_) hmem
    subst h0
    cases string with
    | none => cases hb
    | some s => exact s.property hb
  simp [stringText, Lib.Json.quote, hbody]

section

variable {cause : Prop} {p : Printbuffer} {format : Bool} {depth off : Nat}
  {s rest : List UInt8}

theorem copyEscaped_holds (string : List UInt8) (skip : Nat)
    (h : Holds format depth off s rest p) (hskip : off + skip = s.length)
    (hroom : (string.flatMap escape).length < rest.length) :
    ∃ p' rest', copyEscaped string skip p = some p' ∧
      Holds format depth off (s ++ string.flatMap escape) rest' p' ∧
      rest'.length = rest.length - (string.flatMap escape).length := by
  induction string generalizing s rest skip p with
  | nil => exact ⟨p, rest, rfl, by simpa using h, rfl⟩
  | cons b string ih =>
    rw [List.flatMap_cons, List.length_append] at hroom
    obtain ⟨behind, hbehind, hlen⟩ :
        ∃ behind, escapeWrites b = escape b ++ behind ∧ behind.length ≤ 1 := by
      unfold escapeWrites
      split
      · exact ⟨[0], rfl, Nat.le_refl 1⟩
      · exact ⟨[], by simp, Nat.zero_le 1⟩
    obtain ⟨p', hput, hp'⟩ := h.put skip (escapeWrites b) hskip
      (by rw [hbehind, List.length_append]; omega)
    rw [hbehind, ← List.append_assoc] at hp'
    have hlenBehind : (behind ++ rest.drop (escape b ++ behind).length).length =
        rest.length - (escape b).length := by
      simp only [List.length_append, List.length_drop]
      omega
    obtain ⟨p'', rest'', hcopy, hp'', hlen''⟩ := ih (skip + (escape b).length) hp'.of_append
      (by rw [List.length_append]; omega) (by rw [hlenBehind]; omega)
    refine ⟨p'', rest'', ?_, ?_, ?_⟩
    · simp only [copyEscaped, hput, Option.bind_eq_bind, Option.bind_some, hcopy]
    · rwa [List.flatMap_cons, ← List.append_assoc]
    · rw [hlen'', hlenBehind, List.flatMap_cons, List.length_append]
      omega

theorem printStringPtr_outcome (heap : PrintHeap) (string : Option CStr)
    (h : Room format depth s 0 p) (hmem : ∀ calls size, heap.malloc calls size = false → cause)
    (hbig : 2147483647 < s.length + (stringText string).length + 2 → cause) :
    Outcome cause (printStringPtr heap string p) (Done format depth s (stringText string)) := by
  cases string with
  | none =>
    rw [printStringPtr]
    exact ensuring_outcome heap h hmem hbig fun p hroom =>
      hroom.put (t := [34, 34]) (by decide)
  | some string =>
    obtain ⟨input, hzero⟩ := string
    have hlen := length_flatMap_escape input
    have hbig' :
        2147483647 < s.length + (input.length + escapeCharacters input + 3) + 1 → cause := by
      refine fun hlt => hbig ?_
      simp only [stringText, Lib.Json.quote, Option.elim, List.length_cons, List.length_append,
        List.length_nil, hlen]
      omega
    rw [printStringPtr]
    dsimp only
    refine ensuring_outcome heap h hmem hbig' fun p hroom => ?_
    obtain ⟨rest, hlt, hp⟩ := hroom
    obtain ⟨p₁, hput₁, hp₁⟩ := hp.put 0 [34] (Nat.add_zero _)
      (by rw [List.length_singleton]; omega)
    have hcopied : ∃ p₂ rest₂, (if escapeCharacters input = 0 then p₁.put 1 input
          else copyEscaped input 1 p₁) = some p₂ ∧
        Holds format depth s.length (s ++ [34] ++ input.flatMap escape) rest₂ p₂ ∧
        2 ≤ rest₂.length := by
      split
      case isTrue hnone =>
        rw [flatMap_escape_eq hnone]
        obtain ⟨p₂, hput₂, hp₂⟩ := hp₁.put 1 input
          (by rw [List.length_append]; rfl)
          (by rw [List.length_drop, List.length_singleton]; omega)
        refine ⟨p₂, _, hput₂, hp₂, ?_⟩
        simp only [List.length_drop, List.length_singleton]
        omega
      case isFalse =>
        obtain ⟨p₂, rest₂, hcopy, hp₂, hlen₂⟩ := copyEscaped_holds input 1 hp₁
          (by rw [List.length_append]; rfl)
          (by rw [List.length_drop, List.length_singleton]; omega)
        refine ⟨p₂, rest₂, hcopy, hp₂, ?_⟩
        rw [hlen₂, List.length_drop, List.length_singleton]
        omega
    obtain ⟨p₂, rest₂, hcopy, hp₂, hroom₂⟩ := hcopied
    obtain ⟨p₃, hput₃, hp₃⟩ := hp₂.put (input.length + escapeCharacters input + 1)
      [34, 0] (by simp only [List.length_append, List.length_singleton]; omega) hroom₂
    have htext : s ++ [34] ++ input.flatMap escape ++ [34, 0] =
        s ++ (stringText (some ⟨input, hzero⟩) ++ [0]) := by
      simp [stringText, Lib.Json.quote]
    rw [htext] at hp₃
    refine ⟨p₃, ?_, Holds.done (k := 0) hp₃ (Nat.zero_le _)⟩
    split at hcopy
    case isTrue hnone => simp [hnone, hput₁, hcopy, ← hput₃]
    case isFalse hsome => simp [hsome, hput₁, hcopy, ← hput₃]

end

/-! ## Values -/

theorem stripZeros_suffix (s : List UInt8) : stripZeros s <:+ s := by
  induction s with
  | nil => exact List.suffix_refl []
  | cons b s ih =>
    rw [stripZeros]
    split
    · exact ih.trans (List.suffix_cons b s)
    split
    · exact List.suffix_cons b s
    · exact List.suffix_refl (b :: s)

theorem removeZero_front (text : List UInt8) : removeZero text <+: text := by
  unfold removeZero
  split
  · rw [← List.reverse_suffix, List.reverse_reverse]
    exact stripZeros_suffix text.reverse
  · exact List.prefix_refl text

theorem eq_of_intoNumberBuffer {text t : List UInt8} (h : intoNumberBuffer text = some t) :
    t = text ∧ text.length < 26 := by
  unfold intoNumberBuffer at h
  split at h
  case isTrue hlt =>
    cases h
    exact ⟨rfl, hlt⟩
  case isFalse => cases h

section

variable {D : Type} {dbl : Doubles D}

theorem numberBuffer_cases {d : D} {t : List UInt8} (h : numberBuffer dbl d = some t) :
    (dbl.finite d = false ∧ t = [110, 117, 108, 108]) ∨
      (dbl.finite d = true ∧ (dbl.percentF d).val.length < 26 ∧ t.length < 26 ∧
        (t = removeZero (dbl.percentF d).val ∨ t = (dbl.percent15 d).val ∨
          t = (dbl.percent17 d).val)) := by
  unfold numberBuffer at h
  split at h
  case isTrue hnan => exact .inl ⟨hnan, (eq_of_intoNumberBuffer h).1⟩
  case isFalse hfin =>
    obtain ⟨f, hf, h⟩ := Option.bind_eq_some_iff.mp h
    obtain ⟨rfl, hlt⟩ := eq_of_intoNumberBuffer hf
    refine .inr ⟨by simpa using hfin, hlt, ?_⟩
    split at h
    case isTrue =>
      obtain ⟨g, hg, h⟩ := Option.bind_eq_some_iff.mp h
      obtain ⟨rfl, hlt'⟩ := eq_of_intoNumberBuffer hg
      split at h
      case isTrue =>
        obtain ⟨rfl, hlt''⟩ := eq_of_intoNumberBuffer h
        exact ⟨hlt'', .inr (.inr rfl)⟩
      case isFalse =>
        cases h
        exact ⟨hlt', .inr (.inl rfl)⟩
    case isFalse =>
      cases h
      exact ⟨Nat.lt_of_le_of_lt (removeZero_front _).length_le hlt, .inl rfl⟩

theorem numberBuffer_plain {d : D} {t : List UInt8} (h : numberBuffer dbl d = some t) :
    t.length < 26 ∧ 0 ∉ t := by
  rcases numberBuffer_cases h with ⟨-, rfl⟩ | ⟨-, -, hlt, rfl | rfl | rfl⟩
  · exact ⟨by decide, by decide⟩
  · exact ⟨hlt, fun h0 => (dbl.percentF d).property ((removeZero_front _).subset h0)⟩
  · exact ⟨hlt, (dbl.percent15 d).property⟩
  · exact ⟨hlt, (dbl.percent17 d).property⟩

theorem Item.both {value : Item D → Prop} {items : Items D → Prop} (invalid : value .invalid)
    (null : value .null) (false : value .false) (true : value .true)
    (number : ∀ d, value (.number d)) (raw : ∀ valuestring, value (.raw valuestring))
    (string : ∀ valuestring, value (.string valuestring))
    (array : ∀ child, items child → value (.array child))
    (object : ∀ child, items child → value (.object child)) (nil : items .nil)
    (cons : ∀ string item next, value item → items next → items (.cons string item next)) :
    (∀ item, value item) ∧ ∀ child, items child :=
  ⟨fun item => Item.rec invalid null false true number raw string array object nil cons item,
    fun child => Items.rec invalid null false true number raw string array object nil cons child⟩

theorem Items.each {items : Items D → Prop} (nil : items .nil)
    (cons : ∀ string item next, items next → items (.cons string item next)) (child : Items D) :
    items child := by
  have hboth : (∀ _ : Item D, True) ∧ ∀ child, items child := by
    apply Item.both
    case nil => exact nil
    case cons => exact fun string item next _ ih => cons string item next ih
    all_goals intros; trivial
  exact hboth.2 child

theorem zero_not_mem_tabs (format : Bool) (depth : Nat) : 0 ∉ tabs format depth := by
  unfold tabs
  split
  · exact fun h => absurd (List.eq_of_mem_replicate h) (by decide)
  · exact List.not_mem_nil

theorem zero_not_mem_newline (format : Bool) : 0 ∉ newline format := by
  cases format <;> decide

theorem zero_not_mem_text (dbl : Doubles D) (format : Bool) :
    (∀ (item : Item D) depth, 0 ∉ item.text dbl format depth) ∧
      ∀ (child : Items D) depth,
        0 ∉ child.elements dbl format depth ∧ 0 ∉ child.members dbl format depth := by
  apply Item.both
  case invalid => exact fun _ => List.not_mem_nil
  case null | false | true =>
    intro depth
    simp [Item.text]
  case number =>
    intro d depth h
    rw [Item.text] at h
    cases ht : numberBuffer dbl d with
    | none =>
      rw [ht] at h
      cases h
    | some t =>
      rw [ht] at h
      exact (numberBuffer_plain ht).2 h
  case raw =>
    intro valuestring depth
    cases valuestring with
    | none => exact List.not_mem_nil
    | some s => exact s.property
  case string => exact fun valuestring _ => zero_not_mem_stringText valuestring
  case array =>
    intro child ih depth
    simp [Item.text, (ih (depth + 1)).1]
  case object =>
    intro child ih depth
    simp [Item.text, (ih (depth + 1)).2, zero_not_mem_newline, zero_not_mem_tabs]
  case nil => exact fun _ => ⟨List.not_mem_nil, List.not_mem_nil⟩
  case cons =>
    intro string item next hitem hnext depth
    have hitem := hitem depth
    obtain ⟨helements, hmembers⟩ := hnext depth
    constructor
    · rw [Items.elements]
      split_ifs <;> simp [hitem, helements]
    · rw [Items.members]
      split_ifs <;>
        simp [hitem, hmembers, zero_not_mem_newline, zero_not_mem_tabs, zero_not_mem_stringText]

variable (dbl) (heap : PrintHeap) (cause : Prop) (format : Bool)

def ValuePrints (item : Item D) : Prop :=
  ∀ {depth s p}, Room format depth s 0 p → item.Narrow dbl →
    (item.printable = false → cause) →
    (2147483647 < s.length + (item.text dbl format depth).length + 2 → cause) →
    Outcome cause (printValue dbl heap item p) fun p =>
      item.printable = true ∧ Done format depth s (item.text dbl format depth) p

def ElementsPrint (child : Items D) : Prop :=
  ∀ {depth s p}, Room format depth s 0 p → child.Narrow dbl →
    (child.printable = false → cause) →
    (2147483647 < s.length + (child.elements dbl format depth).length + 2 → cause) →
    Outcome cause (printElements dbl heap child p) fun p =>
      child.printable = true ∧ Room format depth (s ++ child.elements dbl format depth) 0 p

def MembersPrint (child : Items D) : Prop :=
  ∀ {depth s p}, Room format depth s 0 p → child.Narrow dbl →
    (child.printable = false → cause) →
    (2147483647 < s.length + (child.members dbl format depth).length + 2 → cause) →
    Outcome cause (printMembers dbl heap child p) fun p =>
      child.printable = true ∧ Room format depth (s ++ child.members dbl format depth) 0 p

variable {dbl heap cause format} {depth : Nat} {s : List UInt8} {p : Printbuffer}

theorem Room.kept {n : Nat} (h : Room format depth s n p) :
    p.format = format ∧ p.depth = depth := by
  obtain ⟨rest, -, hp⟩ := h
  exact ⟨hp.format, hp.depth⟩

theorem Room.deeper {n : Nat} (h : Room format depth s n p) :
    Room format (depth + 1) s n p.deeper := by
  obtain ⟨rest, hlt, hp⟩ := h
  exact ⟨rest, hlt, { hp with depth := by rw [Printbuffer.deeper, hp.depth] }⟩

theorem Done.higher {t : List UInt8} (h : Done format (depth + 1) s t p) :
    Done format depth s t p.higher := by
  obtain ⟨k, rest, hk, hp⟩ := h
  exact ⟨k, rest, hk, { hp with depth := by rw [Printbuffer.higher, hp.depth]; rfl }⟩

theorem Done.behind {a t : List UInt8} (h : Done format depth (s ++ a) t p) :
    Done format depth s (a ++ t) p := by
  obtain ⟨k, rest, hk, hp⟩ := h
  rw [List.append_assoc, List.length_append, Nat.add_assoc] at hp
  exact ⟨a.length + k, rest, by rw [List.length_append]; omega, hp⟩

variable {item : Item D}

theorem fails_of_unprintable {promised : Printbuffer → Prop}
    (h : Room format depth s 0 p) (hgood : item.printable = false → cause)
    (hf : item.printable = false) : Outcome cause (some (false, p)) promised := by
  obtain ⟨rest, -, hheld⟩ := h
  exact ⟨false, p, rfl, .inr ⟨rfl, by rw [hheld.live, hheld.buffer]; rfl, hgood hf⟩⟩

variable (hmem : ∀ calls size, heap.malloc calls size = false → cause)

include hmem

theorem printNumber_prints (d : D) : ValuePrints dbl heap cause format (.number d) := by
  intro depth s p h hnarrow _ hbig
  cases ht : numberBuffer dbl d with
  | none =>
    rw [Item.Narrow, ht] at hnarrow
    cases hnarrow
  | some t =>
    obtain ⟨hlt, -⟩ := numberBuffer_plain ht
    have htext : (Item.number d).text dbl format depth = t := by rw [Item.text, ht]; rfl
    rw [htext] at hbig ⊢
    have hprint : printNumber dbl heap d p = printBytes heap (t.length + 1) t [0] p := by
      simp only [printNumber, ht, Option.bind_eq_bind, Option.bind_some]
      rw [if_neg (by omega)]
    rw [printValue, hprint]
    refine ensuring_outcome heap h hmem (fun hlt => hbig (by omega)) fun p hroom => ?_
    obtain ⟨rest, hroom, hp⟩ := hroom
    obtain ⟨p', hput, hp'⟩ := hp.put 0 (t ++ [0]) (Nat.add_zero _)
      (by rw [List.length_append, List.length_singleton]; omega)
    refine ⟨{ p' with offset := p'.offset + t.length }, by rw [hput]; rfl, rfl, ?_⟩
    exact Holds.done { hp' with offset := by rw [hp'.offset] } (Nat.le_refl t.length)

theorem printArray_prints {child : Items D} (ih : ElementsPrint dbl heap cause format child) :
    ValuePrints dbl heap cause format (.array child) := by
  intro depth s p h hnarrow hgood hbig
  have hlen : ((Item.array child).text dbl format depth).length =
      (child.elements dbl format (depth + 1)).length + 2 := by
    simp only [Item.text, List.length_cons, List.length_append, List.length_nil]
  rw [hlen] at hbig
  have hopen : Outcome cause (ensuring heap 1 p fun p => p.put 0 [91]) fun p =>
      Room format depth (s ++ [91]) 0 { p with offset := p.offset + 1 } := by
    refine ensuring_outcome heap h hmem (fun hlt => hbig (by omega)) fun p hroom => ?_
    obtain ⟨rest, hroom, hp⟩ := hroom
    obtain ⟨p', hput, hp'⟩ := hp.put 0 [91] (Nat.add_zero _) (Nat.le_of_lt hroom)
    refine ⟨p', hput, rest.drop 1, by rw [List.length_drop]; omega, { hp' with offset := ?_ }⟩
    rw [List.length_append, ← hp'.offset]
    rfl
  rw [printValue]
  refine hopen.andThen fun p hp => ?_
  refine (ih hp.deeper hnarrow hgood fun hlt => hbig ?_).andThen fun p hp => ?_
  · rw [List.length_append, List.length_singleton] at hlt
    omega
  obtain ⟨hprintable, hp⟩ := hp
  have hclose : Outcome cause (printWord heap [93] p) _ := printWord_outcome heap hp hmem
    fun hlt => hbig (by
      simp only [List.length_append, List.length_singleton] at hlt
      omega)
  refine hclose.andThen fun p hp => outcome_true ⟨hprintable, ?_⟩
  rw [List.append_assoc] at hp
  exact hp.higher.behind

theorem printObject_prints {child : Items D} (ih : MembersPrint dbl heap cause format child) :
    ValuePrints dbl heap cause format (.object child) := by
  intro depth s p h hnarrow hgood hbig
  have hlen : ((Item.object child).text dbl format depth).length =
      1 + (newline format).length + (child.members dbl format (depth + 1)).length +
        (tabs format depth).length + 1 := by
    simp only [Item.text, List.length_cons, List.length_append, List.length_nil]
    omega
  rw [hlen] at hbig
  have hopening : (if p.deeper.format then ([123, 10] : List UInt8) else [123]) =
      123 :: newline format := by
    rw [h.deeper.kept.1]
    cases format <;> rfl
  rw [printValue, show p.format = p.deeper.format from rfl, hopening]
  refine (printBytes_outcome heap h.deeper hmem (fun hlt => hbig ?_) ?_).andThen fun p hp => ?_
  · rw [List.length_cons] at hlt
    omega
  · exact Nat.le_succ _
  refine (ih hp hnarrow hgood fun hlt => hbig ?_).andThen fun p hp => ?_
  · simp only [List.length_append, List.length_cons] at hlt
    omega
  obtain ⟨hprintable, hp⟩ := hp
  have hend : printObjectEnd heap p =
      andThen (printWord heap (tabs format depth ++ [125]) p) fun p => some (true, p.higher) := by
    rw [printObjectEnd, printWord, hp.kept.1, hp.kept.2, tabs]
    split <;> simp
  have hclose : Outcome cause (printWord heap (tabs format depth ++ [125]) p) _ :=
    printWord_outcome heap hp hmem fun hlt => hbig (by
      simp only [List.length_append, List.length_cons, List.length_nil] at hlt
      omega)
  rw [hend]
  refine hclose.andThen fun p hp => outcome_true ⟨hprintable, ?_⟩
  rw [List.append_assoc] at hp
  have hdone := hp.higher.behind
  have htext : (Item.object child).text dbl format depth = 123 :: newline format ++
      child.members dbl format (depth + 1) ++ (tabs format depth ++ [125]) := by
    simp only [Item.text, List.cons_append, List.append_assoc]
  rw [htext]
  exact hdone

theorem printElements_print {string : Option CStr} {next : Items D}
    (hitem : ValuePrints dbl heap cause format item)
    (hnext : ElementsPrint dbl heap cause format next) :
    ElementsPrint dbl heap cause format (.cons string item next) := by
  intro depth s p h hnarrow hgood hbig
  rw [Items.elements] at hbig ⊢
  simp only [List.length_append] at hbig
  rw [Items.printable] at hgood ⊢
  rw [printElements]
  have hvalue := updating_outcome ((zero_not_mem_text dbl format).1 item depth)
    (hitem h hnarrow.1 (fun hf => hgood (by rw [hf]; rfl)) (fun hlt => hbig (by omega)))
  refine hvalue.andThen fun p hp => ?_
  obtain ⟨hprintable, hp⟩ := hp
  have hcomma : Outcome cause (if next.isNil = true then some (true, p) else printComma heap p)
      (Room format depth (s ++ item.text dbl format depth ++
        (if next.isNil then [] else 44 :: (if format then [32] else []))) 0) := by
    split
    · next hnil =>
      rw [if_pos hnil] at hbig
      rw [List.append_nil]
      exact outcome_true hp
    · next hnil =>
      rw [if_neg hnil, List.length_cons] at hbig
      have hbytes : (if p.format then ([44, 32] : List UInt8) else [44]) =
          44 :: (if format then [32] else []) := by
        rw [hp.kept.1]
        cases format <;> rfl
      rw [printComma, hbytes]
      refine printBytes_outcome heap hp hmem (fun hlt => hbig ?_) (Nat.le_refl _)
      simp only [List.length_append, List.length_cons] at hlt
      omega
  refine hcomma.andThen fun p hp => ?_
  refine (hnext hp hnarrow.2 (fun hf => hgood (by rw [hf, Bool.and_false]))
    fun hlt => hbig ?_).mono fun p hp => ?_
  · simp only [List.length_append] at hlt
    omega
  · refine ⟨by rw [hprintable, hp.1]; rfl, ?_⟩
    have hroom := hp.2
    simpa only [List.append_assoc] using hroom

theorem printMembers_print {string : Option CStr} {next : Items D}
    (hitem : ValuePrints dbl heap cause format item)
    (hnext : MembersPrint dbl heap cause format next) :
    MembersPrint dbl heap cause format (.cons string item next) := by
  intro depth s p h hnarrow hgood hbig
  rw [Items.members] at hbig ⊢
  simp only [List.length_append, List.length_cons] at hbig
  rw [Items.printable] at hgood ⊢
  rw [printMembers]
  have htabs : Outcome cause (printTabs heap p)
      (Room format depth (s ++ tabs format depth) 0) := by
    rw [printTabs, h.kept.1, h.kept.2]
    rw [tabs] at hbig ⊢
    split
    · next hf =>
      rw [if_pos hf, List.length_replicate] at hbig
      refine printBytes_outcome heap h hmem (fun hlt => hbig (by omega)) ?_
      simp
    · rw [List.append_nil]
      exact outcome_true h
  refine htabs.andThen fun p hp => ?_
  have hkey : Outcome cause (printKey heap string p) (Room format depth (s ++ tabs format depth ++
      stringText string ++ 58 :: (if format then [9] else [])) 0) := by
    have hstring := printStringPtr_outcome heap string hp hmem fun hlt => hbig (by
      rw [List.length_append] at hlt
      omega)
    have hgood : Outcome cause (printStringPtr heap string p) fun p =>
        True ∧ Done format depth (s ++ tabs format depth) (stringText string) p :=
      hstring.mono fun _ hp => ⟨trivial, hp⟩
    refine (updating_outcome (zero_not_mem_stringText string) hgood).andThen fun p hp => ?_
    obtain ⟨-, hp⟩ := hp
    have hbytes : (if p.format then ([58, 9] : List UInt8) else [58]) =
        58 :: (if format then [9] else []) := by
      rw [hp.kept.1]
      cases format <;> rfl
    rw [hbytes]
    refine printBytes_outcome heap hp hmem (fun hlt => hbig ?_) (Nat.le_refl _)
    simp only [List.length_append, List.length_cons] at hlt
    omega
  refine hkey.andThen fun p hp => ?_
  have hvalue := updating_outcome ((zero_not_mem_text dbl format).1 item depth)
    (hitem hp hnarrow.1 (fun hf => hgood (by rw [hf]; rfl)) fun hlt => hbig (by
      simp only [List.length_append, List.length_cons] at hlt
      omega))
  refine hvalue.andThen fun p hp => ?_
  obtain ⟨hprintable, hp⟩ := hp
  have hbytes : (if next.isNil then [] else ([44] : List UInt8)) ++
      (if p.format then [10] else []) = (if next.isNil then [] else [44]) ++ newline format := by
    rw [hp.kept.1, newline]
  rw [printMemberEnd, hbytes]
  have hend : Outcome cause (printBytes heap
      (((if next.isNil then [] else [44]) ++ newline format).length + 1)
      ((if next.isNil then [] else [44]) ++ newline format) [0] p)
      (Room format depth (s ++ tabs format depth ++ stringText string ++
        58 :: (if format then [9] else []) ++ item.text dbl format depth ++
          ((if next.isNil then [] else [44]) ++ newline format)) 0) := by
    refine printBytes_outcome heap hp hmem (fun hlt => hbig ?_) (Nat.le_refl _)
    simp only [List.length_append, List.length_cons] at hlt
    omega
  refine hend.andThen fun p hp => ?_
  refine (hnext hp hnarrow.2 (fun hf => hgood (by rw [hf, Bool.and_false]))
    fun hlt => hbig ?_).mono fun p hp => ?_
  · simp only [List.length_append, List.length_cons] at hlt
    omega
  · refine ⟨by rw [hprintable, hp.1]; rfl, ?_⟩
    have hroom := hp.2
    simpa only [List.append_assoc, List.cons_append] using hroom

theorem printWord_prints {word : List UInt8} (h : Room format depth s 0 p)
    (hbig : 2147483647 < s.length + word.length + 2 → cause) :
    Outcome cause (printWord heap word p) fun p => true = true ∧ Done format depth s word p :=
  (printWord_outcome heap h hmem hbig).mono fun _ hp => ⟨rfl, hp⟩

theorem print_prints :
    (∀ item : Item D, ValuePrints dbl heap cause format item) ∧
      ∀ child : Items D, ElementsPrint dbl heap cause format child ∧
        MembersPrint dbl heap cause format child := by
  apply Item.both
  case invalid => exact fun h _ hgood _ => fails_of_unprintable h hgood rfl
  case null | false | true => exact fun h _ _ hbig => printWord_prints hmem h hbig
  case number => exact fun d => printNumber_prints hmem d
  case raw =>
    intro valuestring depth s p h _ hgood hbig
    cases valuestring with
    | none => exact fails_of_unprintable h hgood rfl
    | some word => exact printWord_prints hmem h hbig
  case string =>
    intro valuestring depth s p h _ _ hbig
    exact (printStringPtr_outcome heap valuestring h hmem hbig).mono fun _ hp => ⟨rfl, hp⟩
  case array => exact fun child ih => printArray_prints hmem ih.1
  case object => exact fun child ih => printObject_prints hmem ih.2
  case nil =>
    constructor
    all_goals
      intro depth s p h _ _ _
      refine outcome_true ⟨rfl, ?_⟩
      simpa only [Items.elements, Items.members, List.append_nil] using h
  case cons =>
    exact fun string item next hitem hnext => ⟨printElements_print hmem hitem hnext.1,
      printMembers_print hmem hitem hnext.2⟩

omit hmem

theorem print_result {t : List UInt8} (h : Outcome cause (updating (printValue dbl heap item
      ⟨some (heap.block 0 256), 256, 0, 0, format, 1, 1⟩)) fun p =>
        item.printable = true ∧ Room format 0 t 0 p) (h0 : 0 ∉ t)
    (hmem : ∀ calls size, heap.malloc calls size = false → cause) :
    (item.printable = true ∧
        print dbl heap item format = some (some t, 1)) ∨
      (print dbl heap item format = some (none, 0) ∧ cause) := by
  rw [print]
  by_cases hfirst : heap.malloc 0 256 = false
  · rw [if_pos hfirst]
    exact .inr ⟨rfl, hmem 0 256 hfirst⟩
  rw [if_neg hfirst]
  obtain ⟨ok, p, hstep, ⟨rfl, hprintable, rest, hpos, hp⟩ | ⟨rfl, hlive, hcause⟩⟩ := h
  · rw [hstep]
    simp only [Option.bind_eq_bind, Option.bind_some, Bool.true_eq_false, if_false, hp.buffer,
      hp.offset, hp.length, hp.live]
    by_cases hlast : heap.malloc p.calls (t.length + 1) = false
    · rw [if_pos hlast]
      exact .inr ⟨rfl, hmem _ _ hlast⟩
    · rw [if_neg hlast]
      cases rest with
      | nil => exact absurd hpos (Nat.lt_irrefl 0)
      | cons b rest =>
      have htake : (t ++ b :: rest).take
          (min (t.length + (b :: rest).length)
            (t.length + 1)) = t ++ [b] := by
        rw [List.length_cons, Nat.min_eq_right (by omega), List.take_append,
          List.take_of_length_le (Nat.le_succ _)]
        simp
      have hblock : (heap.block p.calls (t.length + 1)).length =
          (t ++ [b]).length := by
        simp [PrintHeap.block]
      have hcopy : store (heap.block p.calls (t.length + 1)) 0
          (t ++ [b]) = some (t ++ [b]) := by
        have hstore := store_append [] (t ++ [b]) (Nat.le_of_eq hblock.symm)
        rwa [← hblock, List.drop_length, List.append_nil] at hstore
      have hend : store (t ++ [b]) t.length [0] =
          some (t ++ [0]) := store_append _ [0] (Nat.le_refl 1)
      have hplain : ∀ c ∈ t, (decide (c ≠ 0)) = true := fun c hc =>
        decide_eq_true fun hzero => h0 (hzero ▸ hc)
      refine .inl ⟨hprintable, ?_⟩
      simp only [htake, hcopy, hend, Option.bind_some]
      rw [List.takeWhile_append_of_pos hplain, List.takeWhile_cons_of_neg (by decide),
        List.append_nil]
      rfl
  · rw [hstep]
    refine .inr ⟨?_, hcause⟩
    simp only [Option.bind_eq_bind, Option.bind_some, if_true, hlive]
    cases p.buffer <;> rfl

theorem print_cases (dbl : Doubles D) (heap : PrintHeap) (format : Bool) (hnarrow : item.Narrow dbl)
    (hgood : item.printable = false → cause)
    (hmem : ∀ calls size, heap.malloc calls size = false → cause)
    (hbig : 2147483647 < (item.text dbl format 0).length + 2 → cause) :
    (item.printable = true ∧
        print dbl heap item format = some (some (item.text dbl format 0), 1)) ∨
      (print dbl heap item format = some (none, 0) ∧ cause) := by
  have hstart : Room format 0 [] 0 ⟨some (heap.block 0 256), 256, 0, 0, format, 1, 1⟩ := by
    have hlen : (heap.block 0 256).length = 256 := by simp [PrintHeap.block]
    exact ⟨heap.block 0 256, by omega, rfl, by rw [hlen]; rfl, (by decide : 256 ≤ 2147483647),
      rfl, rfl, rfl, rfl⟩
  have h0 := (zero_not_mem_text dbl format).1 item 0
  have hvalue := (print_prints hmem).1 item hstart hnarrow hgood fun hlt => hbig (by
    rwa [List.length_nil, Nat.zero_add] at hlt)
  exact print_result (updating_outcome h0 hvalue) h0 hmem

/-- The text of the item is printed, inside of the bounds of the buffer, and is the one block
that is left. Else nothing is left: an item that has no text, a `malloc` that fails or a text of
almost `INT_MAX` bytes is the reason. -/
theorem print_text (dbl : Doubles D) (heap : PrintHeap) (format : Bool) (item : Item D)
    (hnarrow : item.Narrow dbl) :
    (item.printable = true ∧
        print dbl heap item format = some (some (item.text dbl format 0), 1)) ∨
      (print dbl heap item format = some (none, 0) ∧
        (item.printable = false ∨ (∃ calls size, heap.malloc calls size = false) ∨
          2147483647 < (item.text dbl format 0).length + 2)) :=
  print_cases dbl heap format hnarrow .inl (fun calls size h => .inr (.inl ⟨calls, size, h⟩))
    fun hlt => .inr (.inr hlt)

end

/-- The C library on the two numbers 1 and 0.5. -/
def oneAndHalf : Doubles Bool where
  finite _ := true
  percentF half :=
    if half then ⟨[48, 46, 53, 48, 48, 48, 48, 48], by decide⟩
    else ⟨[49, 46, 48, 48, 48, 48, 48, 48], by decide⟩
  floatBack _ _ := true
  percent15 half := if half then ⟨[48, 46, 53], by decide⟩ else ⟨[49], by decide⟩
  doubleBack _ _ := true
  percent17 half := if half then ⟨[48, 46, 53], by decide⟩ else ⟨[49], by decide⟩

/-- `[0.5, {"k": "\n"}]`. -/
def smallArray : Item Bool :=
  .array (.cons none (.number true) (.cons none
    (.object (.cons (some ⟨[107], by decide⟩) (.string (some ⟨[10], by decide⟩)) .nil)) .nil))

theorem print_text_array :
    print oneAndHalf ⟨fun _ _ => true, fun _ _ => 0⟩ smallArray true =
      some (some [91, 48, 46, 53, 44, 32, 123, 10, 9, 9, 34, 107, 34, 58, 9, 34, 92, 110, 34, 10, 9,
        125, 93], 1) := by
  have hnarrow : smallArray.Narrow oneAndHalf := ⟨rfl, ⟨trivial, trivial⟩, trivial⟩
  rcases print_text oneAndHalf ⟨fun _ _ => true, fun _ _ => 0⟩ true smallArray hnarrow with
    ⟨-, hprint⟩ | ⟨-, hbad | ⟨calls, size, hbad⟩ | hbad⟩
  · exact hprint
  · cases hbad
  · cases hbad
  · exact absurd hbad (by decide)

end AliyunIot.Cjson
