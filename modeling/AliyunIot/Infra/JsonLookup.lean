import Mathlib.Data.List.TakeWhile
import AliyunIot.Infra.JsonCursor
import AliyunIot.Lib.First
import AliyunIot.Lib.JsonValue

/-!
# Values by name

`json_get_value_by_name` goes over the members of an object with the cursor. It compares the bytes
of a key as they stand, with no eye to escape sequences. It finds the value of a name where the
cursor keeps pace with the members up to it (`findsFirst_of_keepsPace`); where it passes the
members in front of the first one with the name, it finds that value only so
(`keepsPace_of_findsFirst`).
-/

namespace AliyunIot.JsonParser

open Lib Lib.Json

/-- What `json_get_value_by_name` gives: a slice of the text, or the null pointer; or the cursor
leaves the text, or the iteration is not over. -/
inductive Lookup where
  | value (val valLen : Nat) (valType : JsonType)
  | null
  | outside
  | unfinished
  deriving DecidableEq

def jsonGetValueByNameCb (text name : List UInt8) (key keyLen : Nat) : Bool :=
  keyLen = name.length && (text.drop key).take keyLen = name

/-- `json_parse_name_value`, for a callback that takes the value of the key it finishes at. -/
def jsonParseNameValue (pfnCB : Nat → Nat → Bool) (text : List UInt8) (strEnd : Nat) :
    Nat → Nat → Lookup
  | 0, _ => .unfinished
  | fuel + 1, pos =>
    if text.length < pos then .outside
    else if pos = text.length then .null
    else
      match jsonGetNextObject true text strEnd pos with
      | .null => .null
      | .nullWrite => .outside
      | .found ⟨none, _, _, _⟩ pos => jsonParseNameValue pfnCB text strEnd fuel pos
      | .found ⟨some (key, keyLen), val, valLen, valType⟩ pos =>
        if keyLen ≠ 0 ∧ valLen ≠ 0 ∧ pfnCB key keyLen then .value val valLen valType
        else jsonParseNameValue pfnCB text strEnd fuel pos

def jsonGetValueByName (text : CStr) (strLen : Nat) (name : CStr) : Lookup :=
  match jsonGetObject 123 strLen 0 text.val with
  | none => .null
  | some pos =>
    jsonParseNameValue (jsonGetValueByNameCb text.val name.val) text.val strLen
      (text.strlen + 1) pos

/-! ## Objects -/

/-- The text of an object between spaces, and the bytes behind it up to the terminator. -/
structure DocumentParts where
  lead : List UInt8
  gap : List UInt8
  members : List Member
  tail : List UInt8
  rest : List UInt8

/-- Between the brackets: the gap where there are no members. -/
def DocumentParts.inner (d : DocumentParts) : List UInt8 :=
  match d.members with
  | [] => d.gap
  | m :: ms => joined ((m :: ms).map Member.bytes)

def DocumentParts.object (d : DocumentParts) : List UInt8 := 123 :: (d.inner ++ [125])

def DocumentParts.bytes (d : DocumentParts) : List UInt8 :=
  d.lead ++ (d.object ++ (d.tail ++ d.rest))

/-- A valid JSON object in a C string. -/
structure Document extends DocumentParts where
  levels : Nat
  lead_spaces : Spaces rfc8259 lead
  gap_spaces : Spaces rfc8259 gap
  tail_spaces : Spaces rfc8259 tail
  members_ok : ∀ m ∈ members, m.Ok rfc8259 (IsValue rfc8259 levels)
  no_nul : (0 : UInt8) ∉ toDocumentParts.bytes

def valueFront (m : Member) : List UInt8 :=
  m.before ++ (quote m.key ++ (m.after ++ 58 :: m.value.before))

namespace Document

variable (d : Document)

def text : CStr := ⟨d.bytes, d.no_nul⟩

/-- The length of the object and of the spaces around it. -/
def strLen : Nat := d.lead.length + d.object.length + d.tail.length

/-- What stands in front of the value of `m` behind the members `as`. -/
def ahead (as : List Member) (m : Member) : List UInt8 :=
  d.lead ++ 123 :: (as.flatMap (fun a => a.bytes ++ [44]) ++ valueFront m)

/-- The members in front of the first one whose key spells the name, escape sequences decoded. -/
def others (name : CStr) : List Member :=
  d.members.takeWhile fun m => unescape m.key ≠ some name.val

def fromNamed (name : CStr) : List Member :=
  d.members.dropWhile fun m => unescape m.key ≠ some name.val

end Document

/-- The type that `json_get_value_by_name` gives for a value; there is none for null. -/
def kindType : Kind → Option JsonType
  | .null => none
  | .false | .true => some .boolean
  | .number => some .number
  | .string => some .string
  | .array _ => some .array
  | .object _ => some .object

/-- The quotes that are left out on either side of a value. -/
def quotes : Kind → Nat
  | .string => 1
  | _ => 0

def IsValueOf (d : Document) (as : List Member) (m : Member) (result : Lookup) : Prop :=
  ∃ type, kindType m.value.kind = some type ∧
    result = .value ((d.ahead as m).length + quotes m.value.kind)
      (m.value.text.length - 2 * quotes m.value.kind) type

/-- The value of the first member with the name is found, and nothing where there is none. -/
def FindsFirst (d : Document) (name : CStr) : Prop :=
  match d.fromNamed name with
  | [] => jsonGetValueByName d.text d.strLen name = .null
  | m :: _ => IsValueOf d (d.others name) m (jsonGetValueByName d.text d.strLen name)

/-! ## Where the cursor keeps pace -/

/-- How deep in brackets outside of quotes a text ends, and whether in quotes; none where a
bracket is closed that was not opened. Quotes are taken in pairs, escaped or not. -/
def brackets (opening closing : UInt8) : Nat → Bool → List UInt8 → Option (Nat × Bool)
  | depth, inString, [] => some (depth, inString)
  | depth, inString, b :: s =>
    if b = closing then
      if inString then brackets opening closing depth inString s
      else if depth = 0 then none
      else brackets opening closing (depth - 1) inString s
    else if b = opening then
      brackets opening closing (if inString then depth else depth + 1) inString s
    else if b = 34 then brackets opening closing depth (!inString) s
    else brackets opening closing depth inString s

def Balanced (type : JsonType) (inner : List UInt8) : Prop :=
  brackets (jsonMark type).1 (jsonMark type).2 0 false inner = some (0, false)

/-- The cursor finds the end of such a value. -/
def Skips : Kind → List UInt8 → Prop
  | .null, _ => False
  | .string, t => 34 ∉ t.tail.dropLast
  | .array _, t => Balanced .array t.tail.dropLast
  | .object _, t => Balanced .object t.tail.dropLast
  | _, _ => True

/-- The cursor passes such a member: no quote in its key, and it finds the end of its value. -/
def Passes (m : Member) : Prop := (34 : UInt8) ∉ m.key ∧ Skips m.value.kind m.value.text

/-- Such a member is reported. -/
def IsPlain (m : Member) : Prop :=
  Passes m ∧ m.key ≠ [] ∧ (m.value.kind = .string → m.value.text.length ≠ 2)

/-- Such a member is taken for the one with the name: its key has the bytes of the name. -/
def Answers (name : List UInt8) (m : Member) : Prop := m.key = name ∧ IsPlain m

def IsBlank (lead : List UInt8) : Prop := ∀ b ∈ lead, b = 32

/-- The cursor keeps pace up to the first member with the name, and takes no other for it. -/
def KeepsPace (d : Document) (name : CStr) : Prop :=
  match d.fromNamed name with
  | [] => ¬ IsBlank d.lead ∨ ∀ m ∈ d.members, Passes m ∧ ¬ Answers name.val m
  | m :: _ => IsBlank d.lead ∧ (∀ a ∈ d.others name, Passes a ∧ ¬ Answers name.val a) ∧
      Answers name.val m

section Values

variable {type : JsonType} {value s : List UInt8} {strEnd start pos depth : Nat} {inString : Bool}

theorem valueLen_string {body : List UInt8} (hbody : 34 ∉ body) (hlt : pos + body.length < strEnd) :
    valueLen .string value strEnd start depth inString pos (body ++ 34 :: s) =
      pos + body.length - start := by
  induction body generalizing pos with
  | nil =>
    rw [List.length_nil, Nat.add_zero] at hlt ⊢
    simp only [List.nil_append, valueLen, if_neg (Nat.not_le.mpr hlt), if_true]
  | cons b body ih =>
    obtain ⟨hb, hbody⟩ := not_or.mp (mt List.mem_cons.mpr hbody)
    rw [List.length_cons] at hlt
    have hih := ih hbody (show pos + 1 + body.length < strEnd by omega)
    simp only [List.cons_append, valueLen, if_neg (Nat.not_le.mpr (show pos < strEnd by omega)),
      if_neg (Ne.symm hb), hih, List.length_cons]
    omega

theorem valueLen_number {digits : List UInt8} {b : UInt8}
    (hdigits : ∀ c ∈ digits, isNumberByte c = true) (hb : isNumberByte b = false)
    (hlt : pos + digits.length < strEnd) :
    valueLen .number value strEnd start depth inString pos (digits ++ b :: s) =
      pos + digits.length - start := by
  induction digits generalizing pos with
  | nil =>
    rw [List.length_nil, Nat.add_zero] at hlt ⊢
    simp [valueLen, Nat.not_le.mpr hlt, hb]
  | cons c digits ih =>
    obtain ⟨hc, hdigits⟩ := List.forall_mem_cons.mp hdigits
    rw [List.length_cons] at hlt
    have hih := ih hdigits (show pos + 1 + digits.length < strEnd by omega)
    simp only [List.cons_append, valueLen, if_neg (Nat.not_le.mpr (show pos < strEnd by omega)),
      if_pos hc, hih, List.length_cons]
    omega

theorem valueLen_cons (htype : type = .object ∨ type = .array) (hlt : pos < strEnd) (b : UInt8) :
    valueLen type value strEnd start depth inString pos (b :: s) =
      if b = (jsonMark type).2 then
        if inString then valueLen type value strEnd start depth inString (pos + 1) s
        else if depth = 0 then pos - start + 1
        else valueLen type value strEnd start (depth - 1) inString (pos + 1) s
      else if b = (jsonMark type).1 then
        valueLen type value strEnd start (if inString then depth else depth + 1) inString
          (pos + 1) s
      else if b = 34 then valueLen type value strEnd start depth (!inString) (pos + 1) s
      else valueLen type value strEnd start depth inString (pos + 1) s := by
  rcases htype with rfl | rfl
  · rw [valueLen, if_neg (Nat.not_le.mpr hlt)]
  · rw [valueLen, if_neg (Nat.not_le.mpr hlt)]

theorem valueLen_brackets (htype : type = .object ∨ type = .array) {inner : List UInt8}
    {depth' : Nat} {inString' : Bool}
    (h : brackets (jsonMark type).1 (jsonMark type).2 depth inString inner =
      some (depth', inString')) (hle : pos + inner.length ≤ strEnd) :
    valueLen type value strEnd start depth inString pos (inner ++ s) =
      valueLen type value strEnd start depth' inString' (pos + inner.length) s := by
  induction inner generalizing pos depth inString with
  | nil =>
    cases h
    rfl
  | cons b inner ih =>
    rw [List.length_cons] at hle ⊢
    have hnext : pos + (inner.length + 1) = pos + 1 + inner.length := by omega
    rw [hnext] at hle ⊢
    rw [brackets] at h
    rw [List.cons_append, valueLen_cons htype (by omega)]
    split at h
    next hclose =>
      rw [if_pos hclose]
      split at h
      next hin => rw [if_pos hin, ih h hle]
      next hin =>
        split at h
        · cases h
        next hdepth => rw [if_neg hin, if_neg hdepth, ih h hle]
    next hclose =>
      rw [if_neg hclose]
      split at h
      next hopen => rw [if_pos hopen, ih h hle]
      next hopen =>
        rw [if_neg hopen]
        split at h
        next hquote => rw [if_pos hquote, ih h hle]
        next hquote => rw [if_neg hquote, ih h hle]

theorem valueLen_early (value s : List UInt8) (start : Nat)
    (htype : type = .object ∨ type = .array) {inner : List UInt8}
    (h : brackets (jsonMark type).1 (jsonMark type).2 depth inString inner = none)
    (hle : pos + inner.length ≤ strEnd) :
    ∃ i < inner.length,
      valueLen type value strEnd start depth inString pos (inner ++ s) = pos + i - start + 1 := by
  induction inner generalizing pos depth inString with
  | nil => cases h
  | cons b inner ih =>
    rw [List.length_cons] at hle ⊢
    have hlater : ∀ {depth inString}, brackets (jsonMark type).1 (jsonMark type).2 depth inString
        inner = none → ∃ i < inner.length + 1, valueLen type value strEnd start depth inString
          (pos + 1) (inner ++ s) = pos + i - start + 1 := fun h => by
      obtain ⟨i, hi, heq⟩ := ih h (show pos + 1 + inner.length ≤ strEnd by omega)
      exact ⟨i + 1, by omega, by rw [heq]; congr 2; omega⟩
    rw [brackets] at h
    rw [List.cons_append, valueLen_cons htype (by omega)]
    split at h
    next hclose =>
      rw [if_pos hclose]
      split at h
      next hin =>
        rw [if_pos hin]
        exact hlater h
      next hin =>
        rw [if_neg hin]
        split at h
        next hdepth =>
          rw [if_pos hdepth]
          exact ⟨0, by omega, rfl⟩
        next hdepth =>
          rw [if_neg hdepth]
          exact hlater h
    next hclose =>
      rw [if_neg hclose]
      split at h
      next hopen =>
        rw [if_pos hopen]
        exact hlater h
      next hopen =>
        rw [if_neg hopen]
        split at h
        next hquote =>
          rw [if_pos hquote]
          exact hlater h
        next hquote =>
          rw [if_neg hquote]
          exact hlater h

theorem valueLen_late (value s : List UInt8) (strEnd start pos depth : Nat) (inString : Bool)
    (htype : type = .object ∨ type = .array) :
    valueLen type value strEnd start depth inString pos s = 0 ∨
      pos - start < valueLen type value strEnd start depth inString pos s := by
  induction s generalizing pos depth inString with
  | nil => exact .inl rfl
  | cons b s ih =>
    have hlater : ∀ {depth inString}, valueLen type value strEnd start depth inString (pos + 1) s =
        0 ∨ pos - start < valueLen type value strEnd start depth inString (pos + 1) s := by
      intro depth inString
      have hih := ih (pos + 1) depth inString
      omega
    by_cases hlt : pos < strEnd
    · rw [valueLen_cons htype hlt]
      split
      · split
        · exact hlater
        split
        · exact .inr (by omega)
        · exact hlater
      split
      · exact hlater
      split
      · exact hlater
      · exact hlater
    · left
      rcases htype with rfl | rfl
      · rw [valueLen, if_pos (Nat.le_of_not_lt hlt)]
      · rw [valueLen, if_pos (Nat.le_of_not_lt hlt)]

theorem valueLen_eq_iff (htype : type = .object ∨ type = .array) {inner : List UInt8}
    (hle : pos + 1 + inner.length < strEnd) :
    valueLen type value strEnd pos 0 false (pos + 1) (inner ++ (jsonMark type).2 :: s) =
      inner.length + 2 ↔ Balanced type inner := by
  unfold Balanced
  cases h : brackets (jsonMark type).1 (jsonMark type).2 0 false inner with
  | none =>
    obtain ⟨i, hi, heq⟩ := valueLen_early value ((jsonMark type).2 :: s) pos htype h
      (Nat.le_of_lt hle)
    rw [heq]
    constructor
    · intro hlen
      omega
    · intro h
      cases h
  | some r =>
    obtain ⟨depth, inString⟩ := r
    rw [valueLen_brackets htype h (Nat.le_of_lt hle), valueLen_cons htype hle, if_pos rfl,
      Option.some.injEq, Prod.mk.injEq]
    have hlate : ∀ {depth inString}, valueLen type value strEnd pos depth inString
        (pos + 1 + inner.length + 1) s ≠ inner.length + 2 := by
      intro depth inString heq
      rcases valueLen_late value s strEnd pos (pos + 1 + inner.length + 1) depth inString htype with
        h | h
      · omega
      · omega
    cases inString with
    | true => simp [hlate]
    | false =>
      by_cases hdepth : depth = 0
      · subst hdepth
        simp only [Bool.false_eq_true, if_false, if_true, and_self, iff_true]
        omega
      · simp [hdepth, hlate]

end Values

/-! ## A round of the cursor at a member -/

section Rounds

variable {n : Nat} {k : Kind} {t : List UInt8}

theorem space_facts {b : UInt8} (h : rfc8259.space b) :
    startType b = none ∧ b ≠ 34 ∧ b ≠ 58 ∧ isNumberByte b = false := by
  rcases h with rfl | rfl | rfl | rfl <;> decide

theorem digit_facts {b : UInt8} (h : 48 ≤ b ∧ b ≤ 57) :
    startType b = some .number ∧ isNumberByte b = true := by
  have hne : b ≠ 34 ∧ b ≠ 123 ∧ b ≠ 91 := by
    refine ⟨?_, ?_, ?_⟩
    · rintro rfl
      exact absurd h (by decide)
    · rintro rfl
      exact absurd h (by decide)
    · rintro rfl
      exact absurd h (by decide)
  constructor
  · rw [startType, if_neg hne.1, if_neg hne.2.1, if_neg hne.2.2, if_pos (.inr h)]
  · simp [isNumberByte, h.1, h.2]

theorem number_facts (h : IsNumber t) :
    (∃ b s, t = b :: s ∧ startType b = some .number) ∧ ∀ b ∈ t, isNumberByte b = true := by
  obtain ⟨sign, int, frac, exp, rfl, hsign, hint, hfrac, hexp⟩ := h
  have hdigits : ∀ {ds}, Digits ds → ∀ b ∈ ds, isNumberByte b = true :=
    fun hds b hb => (digit_facts (hds.2 b hb)).2
  obtain ⟨d, s, rfl, hd⟩ : ∃ d s, int = d :: s ∧ startType d = some .number := by
    rcases hint with rfl | ⟨hds, -⟩
    · exact ⟨48, [], rfl, by decide⟩
    · obtain ⟨d, s, rfl⟩ := List.exists_cons_of_ne_nil hds.1
      exact ⟨d, s, rfl, (digit_facts (hds.2 d List.mem_cons_self)).1⟩
  have hintBytes : ∀ b ∈ d :: s, isNumberByte b = true := by
    rcases hint with h | ⟨hds, -⟩
    · rw [h]
      decide
    · exact hdigits hds
  constructor
  · rcases hsign with rfl | rfl
    · exact ⟨d, s ++ (frac ++ exp), rfl, hd⟩
    · exact ⟨45, d :: s ++ (frac ++ exp), rfl, by decide⟩
  · intro b hb
    simp only [List.mem_append] at hb
    rcases hb with hb | hb | hb | hb
    · rcases hsign with rfl | rfl
      · cases hb
      · rw [List.mem_singleton.mp hb]
        decide
    · exact hintBytes b hb
    · rcases hfrac with rfl | ⟨ds, rfl, hds⟩
      · cases hb
      · rcases List.mem_cons.mp hb with rfl | hb
        · decide
        · exact hdigits hds b hb
    · rcases hexp with rfl | ⟨e, sgn, ds, rfl, he, hsgn, hds⟩
      · cases hb
      · rcases List.mem_cons.mp hb with rfl | hb
        · rcases he with rfl | rfl <;> decide
        rcases List.mem_append.mp hb with hb | hb
        · rcases hsgn with rfl | rfl | rfl
          · cases hb
          · rw [List.mem_singleton.mp hb]
            decide
          · rw [List.mem_singleton.mp hb]
            decide
        · exact hdigits hds b hb

theorem startType_of_isValue (h : IsValue rfc8259 n k t) :
    ∃ b s, t = b :: s ∧ startType b = kindType k := by
  cases k with
  | null | false | true =>
    rw [IsValue] at h
    exact ⟨_, _, h, by decide⟩
  | number =>
    rw [IsValue] at h
    exact (number_facts h).1
  | string =>
    rw [IsValue] at h
    obtain ⟨body, -, rfl⟩ := h
    exact ⟨34, body ++ [34], rfl, by decide⟩
  | array size =>
    cases n with
    | zero => exact h.elim
    | succ n =>
      obtain ⟨inner, rfl, -⟩ := h
      exact ⟨91, inner ++ [93], rfl, rfl⟩
  | object size =>
    cases n with
    | zero => exact h.elim
    | succ n =>
      obtain ⟨inner, rfl, -⟩ := h
      exact ⟨123, inner ++ [125], rfl, rfl⟩

variable {text : List UInt8} {strEnd pos : Nat} {s : List UInt8} {c : UInt8}

theorem valueLen_of_isValue (hk : IsValue rfc8259 n k t) {type : JsonType}
    (htype : kindType k = some type) (hdrop : text.drop pos = t ++ s)
    (hs : ∀ b ∈ s.head?, isNumberByte b = false) (hne : s ≠ []) (hlt : pos + t.length < strEnd) :
    let val := pos + quotes k
    let scan := if type = .boolean then pos else pos + 1
    let len := valueLen type (text.drop val) strEnd val 0 false scan (text.drop scan)
    val + len ≤ strEnd ∧ (len = t.length - 2 * quotes k ↔ Skips k t) := by
  have hafter : ∀ {b s'}, t = b :: s' → text.drop (pos + 1) = s' ++ s := fun ht => by
    rw [← List.drop_drop, hdrop, ht]
    rfl
  have hbound : type ≠ .boolean → ∀ value scan rest, pos + quotes k ≤ scan →
      pos + quotes k + valueLen type value strEnd (pos + quotes k) 0 false scan rest ≤ strEnd := by
    intro hne value scan rest hscan
    have hpos : 0 < t.length := by
      obtain ⟨b, s', rfl, -⟩ := startType_of_isValue hk
      exact Nat.succ_pos _
    have hquotes : quotes k ≤ 1 := by cases k <;> simp [quotes]
    rcases valueLen_le type strEnd value rest 0 false hne hscan with h | ⟨h, -, -⟩
    · omega
    · exact h
  have hcontainer : ∀ {type inner}, type = .object ∨ type = .array →
      t = (jsonMark type).1 :: (inner ++ [(jsonMark type).2]) → ∀ {value},
      valueLen type value strEnd pos 0 false (pos + 1) (text.drop (pos + 1)) = t.length ↔
        Balanced type t.tail.dropLast := by
    intro type inner hor ht value
    have hlen : t.length = inner.length + 2 := by simp [ht]
    have hinner : t.tail.dropLast = inner := by rw [ht, List.tail_cons, List.dropLast_concat]
    rw [hafter ht, hlen, hinner, List.append_assoc, List.singleton_append]
    exact valueLen_eq_iff hor (by omega)
  cases k with
  | null => cases htype
  | false | true =>
    cases htype
    rw [IsValue] at hk
    subst hk
    have hrest : text.drop pos ≠ [] := by
      rw [hdrop]
      simp
    simp only [quotes, Nat.add_zero, if_true]
    rw [valueLen_boolean _ _ _ _ (by omega) hrest, hdrop]
    simp only [List.length_cons, List.length_nil] at hlt
    refine ⟨?_, by simp [booleanLen, Skips]⟩
    simp [booleanLen]
    omega
  | number =>
    cases htype
    rw [IsValue] at hk
    obtain ⟨⟨b, digits, rfl, -⟩, hbytes⟩ := number_facts hk
    obtain ⟨d, s', rfl⟩ := List.exists_cons_of_ne_nil hne
    have hdigits := (List.forall_mem_cons.mp hbytes).2
    have hlen : valueLen .number (text.drop (pos + 0)) strEnd (pos + 0) 0 false (pos + 1)
        (text.drop (pos + 1)) = digits.length + 1 := by
      rw [hafter rfl, valueLen_number hdigits (hs d rfl) (by rw [List.length_cons] at hlt; omega)]
      omega
    refine ⟨hbound (by decide) _ _ _ (Nat.le_succ pos), ?_⟩
    rw [Nat.add_zero] at hlen
    simp [quotes, Skips, hlen]
  | string =>
    cases htype
    rw [IsValue] at hk
    obtain ⟨body, -, rfl⟩ := hk
    have hbody : text.drop (pos + 1) = body ++ 34 :: s := by
      rw [hafter rfl]
      simp
    have hquote : (quote body).length = body.length + 2 := by simp [quote]
    rw [hquote] at hlt ⊢
    refine ⟨hbound (by decide) _ _ _ (Nat.le_refl _), ?_⟩
    simp only [quotes, Nat.mul_one, reduceCtorEq, if_false, hbody, Skips, quote, List.tail_cons,
      List.dropLast_concat]
    by_cases hin : (34 : UInt8) ∈ body
    · obtain ⟨p, r, rfl, hp⟩ := List.eq_append_cons_of_mem hin
      rw [List.length_append, List.length_cons] at hlt
      rw [List.append_assoc, List.cons_append, valueLen_string hp (by omega)]
      simp
    · rw [valueLen_string hin (by omega)]
      simp [hin]
  | array size =>
    cases htype
    cases n with
    | zero => exact hk.elim
    | succ n =>
      obtain ⟨inner, rfl, -⟩ := hk
      exact ⟨hbound (by decide) _ _ _ (Nat.le_succ pos), hcontainer (.inr rfl) rfl⟩
  | object size =>
    cases htype
    cases n with
    | zero => exact hk.elim
    | succ n =>
      obtain ⟨inner, rfl, -⟩ := hk
      exact ⟨hbound (by decide) _ _ _ (Nat.le_succ pos), hcontainer (.inl rfl) rfl⟩

theorem head?_spaces {ws : List UInt8} (hws : Spaces rfc8259 ws) (hc : isNumberByte c = false) :
    ∀ b ∈ (ws ++ c :: s).head?, isNumberByte b = false := by
  cases ws with
  | nil =>
    rintro b ⟨⟩
    exact hc
  | cons d ws =>
    rintro b ⟨⟩
    exact (space_facts (hws d List.mem_cons_self)).2.2.2

theorem drop_append {p r : List UInt8} (h : text.drop pos = p ++ r) :
    text.drop (pos + p.length) = r := by
  rw [← List.drop_drop, h, List.drop_left]

theorem nextValue_of_isValue {el : Element} (hel : el.Ok rfc8259 (IsValue rfc8259 n))
    {type : JsonType} (htype : kindType el.kind = some type)
    (hdrop : text.drop pos = 58 :: (el.bytes ++ c :: s)) (hc : isNumberByte c = false)
    (hlt : pos + 1 + el.bytes.length < strEnd) {key keyLen : Nat} (hkey : key + keyLen ≤ strEnd) :
    let val := pos + 1 + el.before.length + quotes el.kind
    ∃ len, nextValue text strEnd (some (key, keyLen)) (some pos) =
        .found ⟨some (key, keyLen), val, len, type⟩ (val + len + quotes el.kind) ∧
      (len = el.text.length - 2 * quotes el.kind ↔ Skips el.kind el.text) := by
  obtain ⟨hbefore, hvalue, hafter⟩ := hel
  obtain ⟨b, t, htext, hstart⟩ := startType_of_isValue hvalue
  rw [htype] at hstart
  have hlen : el.bytes.length = el.before.length + el.text.length + el.after.length := by
    simp only [Element.bytes, List.length_append]
    omega
  have hparts : text.drop pos = (58 :: el.before) ++ (el.text ++ (el.after ++ c :: s)) := by
    rw [hdrop, Element.bytes]
    simp only [List.cons_append, List.append_assoc]
  have hat := drop_append hparts
  have hcons : (58 :: el.before).length = 1 + el.before.length := by
    rw [List.length_cons]
    omega
  rw [hcons, ← Nat.add_assoc] at hat
  have hfind : findValue strEnd pos (text.drop pos) =
      some (type, pos + 1 + el.before.length) := by
    refine findValue_eq_some.mpr ⟨58 :: el.before, b, t ++ (el.after ++ c :: s), ?_, ?_, hstart, ?_,
      by omega⟩
    · rw [hparts, htext]
      simp only [List.cons_append]
    · exact List.forall_mem_cons.mpr ⟨by decide, fun d hd => (space_facts (hbefore d hd)).1⟩
    · rw [hcons, Nat.add_assoc]
  have hbehind : (el.after ++ c :: s) ≠ [] := by simp
  obtain ⟨hle, hiff⟩ := valueLen_of_isValue hvalue htype hat (head?_spaces hafter hc) hbehind
    (show pos + 1 + el.before.length + el.text.length < strEnd by omega)
  have hquotes : (if type = .string then pos + 1 + el.before.length + 1
      else pos + 1 + el.before.length) = pos + 1 + el.before.length + quotes el.kind := by
    cases hkind : el.kind <;> rw [hkind] at htype <;> cases htype <;> rfl
  have hend : ∀ m, (if type = .string then m + 1 else m) = m + quotes el.kind := by
    intro m
    cases hkind : el.kind <;> rw [hkind] at htype <;> cases htype <;> rfl
  refine ⟨_, ?_, hiff⟩
  rw [nextValue, Option.bind_some, hfind]
  simp only [hquotes, hend]
  rw [if_neg (Nat.not_lt.mpr hkey), if_neg (Nat.not_lt.mpr hle)]

theorem round_of_key {front : List UInt8} {m : Member} (hbefore : Spaces rfc8259 m.before)
    (hafter : Spaces rfc8259 m.after) (hkey : 34 ∉ m.key) (hfront : 34 ∉ front)
    (hdrop : text.drop pos = front ++ (m.bytes ++ s)) :
    let key := pos + front.length + m.before.length + 1
    let colon := key + m.key.length + 1 + m.after.length
    jsonGetNextObject true text strEnd pos =
        nextValue text strEnd (some (key, m.key.length)) (some colon) ∧
      text.drop colon = 58 :: (m.value.bytes ++ s) ∧ (text.drop key).take m.key.length = m.key := by
  have hparts : text.drop pos = (front ++ m.before) ++
      34 :: (m.key ++ 34 :: (m.after ++ 58 :: (m.value.bytes ++ s))) := by
    rw [hdrop, Member.bytes, quote]
    simp only [List.append_assoc, List.cons_append, List.nil_append]
  have hspaces : ∀ {ws : List UInt8}, Spaces rfc8259 ws → 34 ∉ ws ∧ 58 ∉ ws := fun hws =>
    ⟨fun h => (space_facts (hws _ h)).2.1 rfl, fun h => (space_facts (hws _ h)).2.2.1 rfl⟩
  have hlen : (front ++ m.before).length = front.length + m.before.length := List.length_append
  have hquote : strchr text pos 34 = some (pos + front.length + m.before.length) := by
    refine strchr_eq_some.mpr ⟨_, _, hparts, ?_, by rw [hlen, Nat.add_assoc]⟩
    rw [List.mem_append, not_or]
    exact ⟨hfront, (hspaces hbefore).1⟩
  have hkeyAt : text.drop (pos + front.length + m.before.length + 1) =
      m.key ++ 34 :: (m.after ++ 58 :: (m.value.bytes ++ s)) := by
    have h := drop_append hparts
    rw [hlen, ← Nat.add_assoc] at h
    exact drop_append (p := [34]) h
  have hquote' : strchr text (pos + front.length + m.before.length + 1) 34 =
      some (pos + front.length + m.before.length + 1 + m.key.length) :=
    strchr_eq_some.mpr ⟨_, _, hkeyAt, hkey, rfl⟩
  have hquoteAt := drop_append hkeyAt
  have hcolon : strchr text (pos + front.length + m.before.length + 1 + m.key.length) 58 =
      some (pos + front.length + m.before.length + 1 + m.key.length + 1 + m.after.length) := by
    refine strchr_eq_some.mpr ⟨34 :: m.after, m.value.bytes ++ s, hquoteAt, ?_, ?_⟩
    · rw [List.mem_cons, not_or]
      exact ⟨by decide, (hspaces hafter).2⟩
    · rw [List.length_cons]
      omega
  have hcolonAt := drop_append (drop_append (p := [34]) hquoteAt)
  refine ⟨?_, hcolonAt, by rw [hkeyAt, List.take_left]⟩
  have hlenKey : pos + front.length + m.before.length + 1 + m.key.length -
      (pos + front.length + m.before.length + 1) = m.key.length := by omega
  simp only [jsonGetNextObject, if_true, hquote, hquote', hcolon, hlenKey]

theorem length_valueFront (m : Member) : (valueFront m).length =
    m.before.length + 1 + m.key.length + 1 + m.after.length + 1 + m.value.before.length := by
  simp only [valueFront, quote, List.length_append, List.length_cons, List.length_nil]
  omega

theorem length_member (m : Member) : m.bytes.length =
    (valueFront m).length + m.value.text.length + m.value.after.length := by
  simp only [valueFront, Member.bytes, Element.bytes, List.length_append, List.length_cons]
  omega

theorem round_of_member {front : List UInt8} {m : Member} (hm : m.Ok rfc8259 (IsValue rfc8259 n))
    (hkey : 34 ∉ m.key) {type : JsonType} (htype : kindType m.value.kind = some type)
    (hfront : 34 ∉ front) (hdrop : text.drop pos = front ++ (m.bytes ++ c :: s))
    (hc : isNumberByte c = false) (hlt : pos + front.length + m.bytes.length < strEnd) :
    let key := pos + front.length + m.before.length + 1
    let val := pos + front.length + (valueFront m).length + quotes m.value.kind
    ∃ len, jsonGetNextObject true text strEnd pos =
        .found ⟨some (key, m.key.length), val, len, type⟩ (val + len + quotes m.value.kind) ∧
      (text.drop key).take m.key.length = m.key ∧
      (len = m.value.text.length - 2 * quotes m.value.kind ↔
        Skips m.value.kind m.value.text) := by
  obtain ⟨hbefore, -, hafter, hel⟩ := hm
  obtain ⟨hround, hcolon, hslice⟩ := round_of_key hbefore hafter hkey hfront hdrop
  have hfrontLen := length_valueFront m
  have hlen := length_member m
  have hvalueLen : m.value.bytes.length =
      m.value.before.length + m.value.text.length + m.value.after.length := by
    simp only [Element.bytes, List.length_append]
    omega
  obtain ⟨len, hvalue, hiff⟩ := nextValue_of_isValue hel htype hcolon hc
    (show _ < strEnd by omega)
    (show pos + front.length + m.before.length + 1 + m.key.length ≤ strEnd by omega)
  have hval : pos + front.length + m.before.length + 1 + m.key.length + 1 + m.after.length + 1 +
      m.value.before.length = pos + front.length + (valueFront m).length := by omega
  rw [hval] at hvalue
  exact ⟨len, hround.trans hvalue, hslice, hiff⟩

end Rounds

/-! ## The runs -/

section Runs

variable {n : Nat} {text name : List UInt8} {strEnd pos : Nat} {s front : List UInt8} {c : UInt8}
  {m : Member}

theorem lt_length_of_drop (h : text.drop pos = front ++ (m.bytes ++ s)) : pos < text.length := by
  have hlen := congrArg List.length h
  have hmember := length_member m
  have hfront := length_valueFront m
  simp only [List.length_drop, List.length_append] at hlen
  omega

theorem quotes_le (hk : IsValue rfc8259 n m.value.kind m.value.text) :
    2 * quotes m.value.kind ≤ m.value.text.length := by
  cases hkind : m.value.kind with
  | string =>
    rw [hkind, IsValue] at hk
    obtain ⟨body, -, htext⟩ := hk
    rw [htext]
    simp [quotes, quote]
  | null | false | true | number | array | object => exact Nat.zero_le _

theorem kindType_of_skips (h : Skips m.value.kind m.value.text) :
    ∃ type, kindType m.value.kind = some type := by
  cases hkind : m.value.kind with
  | null =>
    rw [hkind] at h
    exact h.elim
  | false | true | number | string | array | object => exact ⟨_, rfl⟩

variable {type : JsonType}

variable {val valLen pos' : Nat}

theorem jsonParseNameValue_found {key keyLen : Nat}
    (hpos : pos < text.length) (h : jsonGetNextObject true text strEnd pos =
      .found ⟨some (key, keyLen), val, valLen, type⟩ pos') (pfnCB : Nat → Nat → Bool) (fuel : Nat) :
    jsonParseNameValue pfnCB text strEnd (fuel + 1) pos =
      if keyLen ≠ 0 ∧ valLen ≠ 0 ∧ pfnCB key keyLen then .value val valLen type
      else jsonParseNameValue pfnCB text strEnd fuel pos' := by
  rw [jsonParseNameValue, if_neg (by omega), if_neg (by omega), h]

theorem lookup_pass (hm : m.Ok rfc8259 (IsValue rfc8259 n)) (hpass : Passes m)
    (hname : ¬ Answers name m)
    (hfront : 34 ∉ front) (hdrop : text.drop pos = front ++ (m.bytes ++ c :: s))
    (hc : isNumberByte c = false) (hlt : pos + front.length + m.bytes.length < strEnd)
    (fuel : Nat) :
    ∃ pos', text.drop pos' = m.value.after ++ c :: s ∧
      pos' + m.value.after.length = pos + front.length + m.bytes.length ∧
      jsonParseNameValue (jsonGetValueByNameCb text name) text strEnd (fuel + 1) pos =
        jsonParseNameValue (jsonGetValueByNameCb text name) text strEnd fuel pos' := by
  obtain ⟨type, htype⟩ := kindType_of_skips hpass.2
  obtain ⟨len, hround, hslice, hiff⟩ := round_of_member hm hpass.1 htype hfront hdrop hc hlt
  have hlen := hiff.mpr hpass.2
  have hquotes := quotes_le hm.2.2.2.2.1
  have hmember := length_member m
  have hend : pos + front.length + (valueFront m).length + quotes m.value.kind + len +
      quotes m.value.kind = pos + (front ++ (valueFront m ++ m.value.text)).length := by
    simp only [List.length_append]
    omega
  rw [hend] at hround
  have hparts : text.drop pos =
      (front ++ (valueFront m ++ m.value.text)) ++ (m.value.after ++ c :: s) := by
    rw [hdrop]
    simp [Member.bytes, Element.bytes, valueFront]
  refine ⟨_, drop_append hparts, ?_, ?_⟩
  · simp only [List.length_append]
    omega
  · rw [jsonParseNameValue_found (lt_length_of_drop hdrop) hround]
    refine if_neg ?_
    rintro ⟨hkeyLen, hvalLen, hcb⟩
    simp only [jsonGetValueByNameCb, hslice, Bool.and_eq_true, decide_eq_true_eq] at hcb
    refine hname ⟨hcb.2, hpass, fun hkey => hkeyLen (by rw [hkey]; rfl), fun hkind htwo => ?_⟩
    rw [hkind, htwo] at hlen
    exact hvalLen hlen

theorem not_mem_after (hm : m.Ok rfc8259 (IsValue rfc8259 n)) : (34 : UInt8) ∉ m.value.after :=
  fun h => (space_facts (hm.2.2.2.2.2 _ h)).2.1 rfl

theorem lookup_others {as : List Member} (hok : ∀ a ∈ as, a.Ok rfc8259 (IsValue rfc8259 n))
    (hpass : ∀ a ∈ as, Passes a ∧ ¬ Answers name a) (hfront : 34 ∉ front)
    (hdrop : text.drop pos = front ++ (as.flatMap (fun a => a.bytes ++ [44]) ++ s)) (strEnd : Nat)
    (hlt : pos + front.length + (as.flatMap fun a => a.bytes ++ [44]).length ≤ strEnd)
    (fuel : Nat) :
    ∃ pos' front', text.drop pos' = front' ++ s ∧ 34 ∉ front' ∧
      pos' + front'.length =
        pos + front.length + (as.flatMap fun a => a.bytes ++ [44]).length ∧
      jsonParseNameValue (jsonGetValueByNameCb text name) text strEnd (as.length + fuel) pos =
        jsonParseNameValue (jsonGetValueByNameCb text name) text strEnd fuel pos' := by
  induction as generalizing pos front with
  | nil => exact ⟨pos, front, hdrop, hfront, rfl, by rw [List.length_nil, Nat.zero_add]⟩
  | cons a as ih =>
    obtain ⟨hokA, hok⟩ := List.forall_mem_cons.mp hok
    obtain ⟨⟨hpassA, hnameA⟩, hpass⟩ := List.forall_mem_cons.mp hpass
    rw [List.flatMap_cons] at hdrop hlt ⊢
    simp only [List.append_assoc, List.cons_append, List.nil_append] at hdrop
    simp only [List.length_append, List.length_singleton] at hlt ⊢
    obtain ⟨pos₁, hdrop₁, hpos₁, heq₁⟩ := lookup_pass hokA hpassA hnameA hfront hdrop
      (by decide) (show pos + front.length + a.bytes.length < strEnd by omega) (as.length + fuel)
    have hfront₁ : (34 : UInt8) ∉ a.value.after ++ [44] := by
      rw [List.mem_append, not_or]
      exact ⟨not_mem_after hokA, by decide⟩
    have hlen₁ : (a.value.after ++ [44]).length = a.value.after.length + 1 := List.length_append
    obtain ⟨pos', front', hdrop', hfront', hpos', heq'⟩ := ih hok hpass hfront₁
      (by rw [hdrop₁]; simp only [List.append_assoc, List.singleton_append])
      (by rw [hlen₁]; omega)
    refine ⟨pos', front', hdrop', hfront', by rw [hpos', hlen₁]; omega, ?_⟩
    rw [List.length_cons, Nat.add_right_comm, heq₁, heq']

theorem lookup_end (front s : List UInt8) (hfront : 34 ∉ front) (hdrop : text.drop pos = front ++ s)
    (hne : front ≠ [])
    (hend : strEnd ≤ pos + front.length) (pfnCB : Nat → Nat → Bool) (fuel : Nat) :
    jsonParseNameValue pfnCB text strEnd (fuel + 1) pos = .null := by
  have hpos : pos < text.length := by
    have hlen := congrArg List.length hdrop
    have hfrontPos := List.length_pos_iff.mpr hne
    rw [List.length_drop, List.length_append] at hlen
    omega
  have hbehind : ∀ {p c q}, strchr text p c = some q → p ≤ q := fun h => by
    obtain ⟨_, _, -, -, rfl⟩ := strchr_eq_some.mp h
    exact Nat.le_add_right _ _
  have hnull : jsonGetNextObject true text strEnd pos = .null := by
    rw [jsonGetNextObject, if_pos rfl]
    cases hquote : strchr text pos 34 with
    | none => rfl
    | some quote =>
      dsimp only
      have hle : pos + front.length ≤ quote := by
        obtain ⟨before, after, heq, hbefore, rfl⟩ := strchr_eq_some.mp hquote
        rw [hdrop] at heq
        rcases List.append_eq_append_iff.mp heq with ⟨r, rfl, -⟩ | ⟨r, hr, heq'⟩
        · rw [List.length_append]
          omega
        · cases r with
          | nil =>
            rw [List.append_nil] at hr
            exact Nat.le_of_eq (by rw [hr])
          | cons b r =>
            rw [List.cons_append] at heq'
            rw [hr, ← (List.cons.inj heq').1] at hfront
            exact absurd (List.mem_append_right _ List.mem_cons_self) hfront
      cases hquote' : strchr text (quote + 1) 34 with
      | none => rfl
      | some quote' =>
        dsimp only
        have hle' := hbehind hquote'
        cases hcolon : strchr text quote' 58 with
        | none => rfl
        | some colon =>
          have hle'' := hbehind hcolon
          have hfind : findValue strEnd colon (text.drop colon) = none := by
            cases text.drop colon with
            | nil => rfl
            | cons b s => rw [findValue, if_pos (by omega)]
          rw [nextValue, Option.bind_some, hfind]
  rw [jsonParseNameValue, if_neg (by omega), if_neg (by omega), hnull]

theorem lookup_plain (hm : m.Ok rfc8259 (IsValue rfc8259 n)) (hplain : IsPlain m)
    (hfront : 34 ∉ front) (hdrop : text.drop pos = front ++ (m.bytes ++ c :: s))
    (hc : isNumberByte c = false) (hlt : pos + front.length + m.bytes.length < strEnd)
    (fuel : Nat) :
    ∃ type, kindType m.value.kind = some type ∧
      jsonParseNameValue (jsonGetValueByNameCb text m.key) text strEnd (fuel + 1) pos =
        .value (pos + front.length + (valueFront m).length + quotes m.value.kind)
          (m.value.text.length - 2 * quotes m.value.kind) type := by
  obtain ⟨⟨hkey, hskips⟩, hne, hlong⟩ := hplain
  obtain ⟨type, htype⟩ := kindType_of_skips hskips
  obtain ⟨len, hround, hslice, hiff⟩ := round_of_member hm hkey htype hfront hdrop hc hlt
  have hlen := hiff.mpr hskips
  have hquotes := quotes_le hm.2.2.2.2.1
  have hnonempty : len ≠ 0 := by
    obtain ⟨b, t, htext, -⟩ := startType_of_isValue hm.2.2.2.2.1
    have hpos : 0 < m.value.text.length := by
      rw [htext]
      exact Nat.succ_pos _
    cases hkind : m.value.kind with
    | string =>
      have hlong := hlong hkind
      rw [hkind] at hlen hquotes
      simp only [quotes] at hlen hquotes
      omega
    | null | false | true | number | array | object =>
      rw [hkind] at hlen
      simp only [quotes] at hlen
      omega
  refine ⟨type, htype, ?_⟩
  rw [jsonParseNameValue_found (lt_length_of_drop hdrop) hround, if_pos, hlen]
  refine ⟨fun h => hne (List.length_eq_zero_iff.mp h), hnonempty, ?_⟩
  simp only [jsonGetValueByNameCb, hslice, decide_true, Bool.and_true]

theorem le_val_of_nextValue {key : Option (Nat × Nat)} {entry : Entry}
    (h : nextValue text strEnd key (some pos) = .found entry pos') : pos ≤ entry.val := by
  rw [nextValue, Option.bind_some] at h
  cases hfind : findValue strEnd pos (text.drop pos) with
  | none => simp [hfind] at h
  | some r =>
    obtain ⟨type, start⟩ := r
    obtain ⟨gap, b, after, -, -, -, rfl, -⟩ := findValue_eq_some.mp hfind
    have hle : pos + gap.length ≤
        if type = .string then pos + gap.length + 1 else pos + gap.length := by
      split
      · exact Nat.le_succ _
      · exact Nat.le_refl _
    simp only [hfind] at h
    generalize (if type = .string then pos + gap.length + 1 else pos + gap.length) = val at h hle
    generalize (if type = .boolean then pos + gap.length else pos + gap.length + 1) = scan at h
    generalize valueLen type _ strEnd val 0 false scan _ = len at h
    have hval : entry.val = val := by
      cases key with
      | none =>
        dsimp only at h
        split at h
        · cases h
        · injection h with h
          rw [← h]
      | some key =>
        dsimp only at h
        split at h
        · cases h
        split at h
        · cases h
        · injection h with h
          rw [← h]
    omega

theorem key_of_found {key keyLen : Nat} (h : jsonGetNextObject true text strEnd pos =
      .found ⟨some (key, keyLen), val, valLen, type⟩ pos') :
    (34 : UInt8) ∉ (text.drop key).take keyLen ∧ pos < val := by
  rw [jsonGetNextObject, if_pos rfl] at h
  cases hquote : strchr text pos 34 with
  | none => simp [hquote] at h
  | some quote =>
    cases hquote' : strchr text (quote + 1) 34 with
    | none => simp [hquote, hquote'] at h
    | some quote' =>
      simp only [hquote, hquote'] at h
      obtain ⟨before, after, hdrop, -, rfl⟩ := strchr_eq_some.mp hquote
      obtain ⟨name, after', hname, hnot, rfl⟩ := strchr_eq_some.mp hquote'
      cases hcolon : strchr text (pos + before.length + 1 + name.length) 58 with
      | none => simp [hcolon, nextValue] at h
      | some colon =>
        obtain ⟨gap, after'', -, -, rfl⟩ := strchr_eq_some.mp hcolon
        rw [hcolon] at h
        have hval : _ ≤ val := le_val_of_nextValue h
        have hkey : some (key, keyLen) = _ := (nextValue_found h).1
        simp only [Option.some.injEq, Prod.mk.injEq] at hkey
        obtain ⟨rfl, rfl⟩ := hkey
        have hlen : pos + before.length + 1 + name.length - (pos + before.length + 1) =
            name.length := by omega
        rw [hlen, hname, List.take_left]
        exact ⟨hnot, by omega⟩

theorem lookup_value {fuel : Nat}
    (h : jsonParseNameValue (jsonGetValueByNameCb text name) text strEnd fuel pos =
      .value val valLen type) : valLen ≠ 0 ∧ name ≠ [] ∧ (34 : UInt8) ∉ name ∧ pos < val := by
  induction fuel generalizing pos with
  | zero => cases h
  | succ fuel ih =>
    rw [jsonParseNameValue] at h
    split at h
    · cases h
    split at h
    · cases h
    split at h
    · cases h
    · cases h
    next hround =>
      obtain ⟨h₁, h₂, h₃, h₄⟩ := ih h
      obtain ⟨-, hgo, -⟩ := object_found hround
      exact ⟨h₁, h₂, h₃, by omega⟩
    next hround =>
      split at h
      next hmatch =>
        cases h
        obtain ⟨hkeyLen, hvalLen, hcb⟩ := hmatch
        simp only [jsonGetValueByNameCb, Bool.and_eq_true, decide_eq_true_eq] at hcb
        obtain ⟨hlen, hslice⟩ := hcb
        obtain ⟨hquote, hgo⟩ := key_of_found hround
        refine ⟨hvalLen, ?_, hslice ▸ hquote, hgo⟩
        rintro rfl
        exact hkeyLen hlen
      next =>
        obtain ⟨h₁, h₂, h₃, h₄⟩ := ih h
        obtain ⟨-, hgo, -⟩ := object_found hround
        exact ⟨h₁, h₂, h₃, by omega⟩

theorem answers_of_lookup (hm : m.Ok rfc8259 (IsValue rfc8259 n)) (hfront : 34 ∉ front)
    (hdrop : text.drop pos = front ++ (m.bytes ++ c :: s)) (hc : isNumberByte c = false)
    (hlt : pos + front.length + m.bytes.length < strEnd) {fuel : Nat}
    (hname : unescape m.key = some name) (htype : kindType m.value.kind = some type)
    (h : jsonParseNameValue (jsonGetValueByNameCb text name) text strEnd (fuel + 1) pos =
      .value (pos + front.length + (valueFront m).length + quotes m.value.kind)
        (m.value.text.length - 2 * quotes m.value.kind) type) : Answers name m := by
  obtain ⟨hlen, hne, hquote, -⟩ := lookup_value h
  have hkey : (34 : UInt8) ∉ m.key := fun hmem =>
    hquote ((unescaped hm.2.1 hname).quote hmem).1
  obtain ⟨len, hround, hslice, hiff⟩ := round_of_member hm hkey htype hfront hdrop hc hlt
  rw [jsonParseNameValue_found (lt_length_of_drop hdrop) hround] at h
  split at h
  next hmatch =>
    have hcb := hmatch.2.2
    simp only [jsonGetValueByNameCb, hslice, Bool.and_eq_true, decide_eq_true_eq] at hcb
    obtain ⟨-, rfl⟩ := hcb
    refine ⟨rfl, ⟨hkey, hiff.mp (Lookup.value.inj h).2.1⟩, hne, fun hkind htwo => ?_⟩
    rw [hkind, htwo] at hlen
    exact hlen rfl
  next =>
    -- what is found later stands behind the value
    obtain ⟨-, -, -, hgo⟩ := lookup_value h
    omega

end Runs

/-! ## Documents -/

section Documents

variable {d : Document} {name : CStr} {s : List UInt8}

theorem jsonGetObject_blank {lead : List UInt8} {strEnd pos : Nat} (hlead : IsBlank lead)
    (hlt : pos + lead.length < strEnd) :
    jsonGetObject 123 strEnd pos (lead ++ 123 :: s) = some (pos + lead.length) := by
  induction lead generalizing pos with
  | nil =>
    rw [List.length_nil, Nat.add_zero] at hlt ⊢
    rw [List.nil_append, jsonGetObject, if_neg (by omega), if_neg (by decide), if_pos rfl]
  | cons b lead ih =>
    obtain ⟨rfl, htail⟩ := List.forall_mem_cons.mp hlead
    rw [List.length_cons] at hlt ⊢
    rw [List.cons_append, jsonGetObject, if_neg (by omega), if_pos rfl, ih htail (by omega)]
    congr 1
    omega

theorem jsonGetObject_other {lead : List UInt8} {strEnd pos : Nat}
    (hspaces : Spaces rfc8259 lead) (hlead : ¬ IsBlank lead) :
    jsonGetObject 123 strEnd pos (lead ++ s) = none := by
  induction lead generalizing pos with
  | nil => exact absurd (fun b hb => absurd hb List.not_mem_nil) hlead
  | cons b lead ih =>
    obtain ⟨hb, hspaces⟩ := List.forall_mem_cons.mp hspaces
    rw [List.cons_append, jsonGetObject]
    split
    · rfl
    split
    next hblank => exact ih hspaces fun h => hlead (List.forall_mem_cons.mpr ⟨hblank, h⟩)
    next =>
      refine if_neg ?_
      rcases hb with rfl | rfl | rfl | rfl <;> decide

theorem joined_at (as : List Member) (m : Member) (bs : List Member) (s : List UInt8) :
    ∃ c s', isNumberByte c = false ∧ s.length ≤ s'.length ∧
      joined ((as ++ m :: bs).map Member.bytes) ++ 125 :: s =
        as.flatMap (fun a => a.bytes ++ [44]) ++ (m.bytes ++ c :: s') := by
  rw [joined_flatMap as (List.cons_ne_nil m bs), List.append_assoc]
  cases bs with
  | nil => exact ⟨125, s, by decide, Nat.le_refl _, rfl⟩
  | cons b bs =>
    refine ⟨44, joined ((b :: bs).map Member.bytes) ++ 125 :: s, by decide, ?_, ?_⟩
    · rw [List.length_append, List.length_cons]
      omega
    · rw [List.map_cons, joined_cons (by simp), List.append_assoc]
      rfl

theorem length_le_flatMap (as : List Member) :
    as.length ≤ (as.flatMap fun a => a.bytes ++ [44]).length := by
  induction as with
  | nil => exact Nat.zero_le _
  | cons a as ih =>
    rw [List.flatMap_cons, List.length_append, List.length_append, List.length_cons,
      List.length_singleton]
    omega

theorem members_eq (d : Document) (name : CStr) :
    d.others name ++ d.fromNamed name = d.members := List.takeWhile_append_dropWhile

theorem key_of_fromNamed {m : Member} {bs : List Member} (h : d.fromNamed name = m :: bs) :
    unescape m.key = some name.val := by
  have hhead := List.head_dropWhile_not
    (fun m : Member => decide (unescape m.key ≠ some name.val))
    (l := d.members) (by rw [show d.members.dropWhile _ = m :: bs from h]; simp)
  simp only [show d.members.dropWhile _ = m :: bs from h, List.head_cons] at hhead
  simpa using hhead

theorem text_drop (d : Document) :
    d.text.val.drop d.lead.length = [123] ++ (d.inner ++ 125 :: (d.tail ++ d.rest)) := by
  show (d.lead ++ (d.object ++ (d.tail ++ d.rest))).drop d.lead.length = _
  rw [List.drop_left, DocumentParts.object]
  simp only [List.cons_append, List.append_assoc, List.nil_append]

theorem length_object (d : Document) : d.object.length = d.inner.length + 2 := by
  simp [DocumentParts.object]

theorem strlen_text (d : Document) :
    d.text.strlen = d.lead.length + (d.object.length + (d.tail.length + d.rest.length)) := by
  show (d.lead ++ (d.object ++ (d.tail ++ d.rest))).length = _
  simp only [List.length_append]

theorem inner_of_members {m : Member} {ms : List Member} (h : d.members = m :: ms) :
    d.inner = joined (d.members.map Member.bytes) := by
  rw [DocumentParts.inner, h]

theorem jsonGetValueByName_blank (hlead : IsBlank d.lead) (name : CStr) :
    jsonGetValueByName d.text d.strLen name =
      jsonParseNameValue (jsonGetValueByNameCb d.text.val name.val) d.text.val d.strLen
        (d.text.strlen + 1) d.lead.length := by
  have hobject := length_object d
  have hlt : 0 + d.lead.length < d.strLen := by
    rw [Document.strLen]
    omega
  have hfirst := jsonGetObject_blank (s := d.inner ++ 125 :: (d.tail ++ d.rest)) hlead hlt
  have hbytes : d.text.val = d.lead ++ 123 :: (d.inner ++ 125 :: (d.tail ++ d.rest)) := by
    have h := List.take_append_drop d.lead.length d.text.val
    rw [text_drop] at h
    rw [← h]
    congr 1
    exact List.take_left
  rw [jsonGetValueByName]
  conv_lhs =>
    rw [hbytes, hfirst]
  rw [Nat.zero_add, ← hbytes]

theorem at_member (hlead : IsBlank d.lead) {as bs : List Member} {m : Member}
    (hmembers : d.members = as ++ m :: bs) (hpass : ∀ a ∈ as, Passes a ∧ ¬ Answers name.val a) :
    ∃ pos front c s fuel, (34 : UInt8) ∉ front ∧ isNumberByte c = false ∧
      d.text.val.drop pos = front ++ (m.bytes ++ c :: s) ∧
      pos + front.length + m.bytes.length < d.strLen ∧
      pos + front.length + (valueFront m).length = (d.ahead as m).length ∧
      jsonGetValueByName d.text d.strLen name =
        jsonParseNameValue (jsonGetValueByNameCb d.text.val name.val) d.text.val d.strLen
          (fuel + 1) pos := by
  obtain ⟨m', ms', hcons⟩ : ∃ m' ms', d.members = m' :: ms' :=
    List.exists_cons_of_ne_nil (by rw [hmembers]; simp)
  obtain ⟨c, s, hc, hs, hjoined⟩ := joined_at as m bs (d.tail ++ d.rest)
  have hinner := inner_of_members hcons
  rw [hmembers] at hinner
  have hdrop := text_drop d
  rw [hinner, hjoined] at hdrop
  have hlen := congrArg List.length hjoined
  have hobject := length_object d
  have hfuel := length_le_flatMap as
  have hstrlen := strlen_text d
  rw [hinner] at hobject
  simp only [List.length_append, List.length_cons] at hlen hs
  obtain ⟨pos, front, hdrop', hfront, hpos, heq⟩ := lookup_others
    (fun a ha => d.members_ok a (by rw [hmembers]; exact List.mem_append_left _ ha)) hpass
    (by decide) hdrop d.strLen
    (by rw [Document.strLen, hobject, List.length_singleton]; omega)
    (d.text.strlen - as.length + 1)
  rw [List.length_singleton] at hpos
  refine ⟨pos, front, c, s, d.text.strlen - as.length, hfront, hc, hdrop', ?_, ?_, ?_⟩
  · rw [Document.strLen, hobject]
    omega
  · simp only [Document.ahead, List.length_append, List.length_cons]
    omega
  · have hsum : d.text.strlen + 1 = as.length + (d.text.strlen - as.length + 1) := by omega
    rw [jsonGetValueByName_blank hlead, hsum, heq]

theorem not_mem_spaces {ws : List UInt8} (hws : Spaces rfc8259 ws) : (34 : UInt8) ∉ ws :=
  fun h => (space_facts (hws _ h)).2.1 rfl

theorem nothing_found (hlead : IsBlank d.lead)
    (hpass : ∀ m ∈ d.members, Passes m ∧ ¬ Answers name.val m) :
    jsonGetValueByName d.text d.strLen name = .null := by
  have hdrop := text_drop d
  have hobject := length_object d
  have hstrlen := strlen_text d
  rw [jsonGetValueByName_blank hlead]
  rcases List.eq_nil_or_concat d.members with hnil | ⟨init, m, hmembers⟩
  · have hinner : d.inner = d.gap := by rw [DocumentParts.inner, hnil]
    rw [hinner] at hdrop hobject
    refine lookup_end (123 :: (d.gap ++ 125 :: d.tail)) d.rest ?_ ?_
      (List.cons_ne_nil _ _) ?_ _ _
    · simp only [List.mem_cons, List.mem_append, not_or]
      exact ⟨by decide, not_mem_spaces d.gap_spaces, by decide, not_mem_spaces d.tail_spaces⟩
    · rw [hdrop]
      simp only [List.cons_append, List.append_assoc, List.nil_append]
    · rw [Document.strLen, hobject]
      simp only [List.length_cons, List.length_append]
      omega
  · rw [List.concat_eq_append] at hmembers
    have hinner : d.inner = joined ((init ++ [m]).map Member.bytes) := by
      obtain ⟨m', ms', hcons⟩ : ∃ m' ms', d.members = m' :: ms' :=
        List.exists_cons_of_ne_nil (by rw [hmembers]; simp)
      rw [inner_of_members hcons, hmembers]
    rw [joined_flatMap init (List.cons_ne_nil m [])] at hinner
    have hok : ∀ a ∈ init ++ [m], a.Ok rfc8259 (IsValue rfc8259 d.levels) ∧ Passes a ∧
        ¬ Answers name.val a := fun a ha => by
      have ha' : a ∈ d.members := by rwa [hmembers]
      exact ⟨d.members_ok a ha', hpass a ha'⟩
    have hinit := fun a (ha : a ∈ init) => hok a (List.mem_append_left _ ha)
    obtain ⟨hm, hpassM, hnameM⟩ := hok m (by simp)
    have hlen := congrArg List.length hinner
    have hfuel := length_le_flatMap init
    rw [hinner, List.append_assoc] at hdrop
    simp only [List.map_cons, List.map_nil, joined] at hdrop hlen
    rw [List.length_append] at hlen
    obtain ⟨pos, front, hdrop', hfront, hpos, heq⟩ := lookup_others
      (fun a ha => (hinit a ha).1) (fun a ha => (hinit a ha).2) (by decide) hdrop d.strLen
      (by rw [Document.strLen, hobject, List.length_singleton]; omega)
      (d.text.strlen - init.length - 1 + 1 + 1)
    rw [List.length_singleton] at hpos
    obtain ⟨pos', hdrop'', hpos', heq'⟩ := lookup_pass hm hpassM hnameM hfront hdrop' (by decide)
      (show pos + front.length + m.bytes.length < d.strLen by
        rw [Document.strLen, hobject]
        omega)
      (d.text.strlen - init.length - 1 + 1)
    have hsum : d.text.strlen + 1 =
        init.length + (d.text.strlen - init.length - 1 + 1 + 1) := by omega
    rw [hsum, heq, heq']
    refine lookup_end (m.value.after ++ 125 :: d.tail) d.rest ?_ ?_ (by simp) ?_ _ _
    · simp only [List.mem_cons, List.mem_append, not_or]
      exact ⟨not_mem_after hm, by decide, not_mem_spaces d.tail_spaces⟩
    · rw [hdrop'']
      simp only [List.cons_append, List.append_assoc]
    · rw [Document.strLen, hobject]
      simp only [List.length_cons, List.length_append]
      omega

theorem lookup_answers (hlead : IsBlank d.lead) {as bs : List Member} {m : Member}
    (hmembers : d.members = as ++ m :: bs)
    (hpass : ∀ a ∈ as, Passes a ∧ ¬ Answers name.val a) (hm : Answers name.val m) :
    IsValueOf d as m (jsonGetValueByName d.text d.strLen name) := by
  obtain ⟨pos, front, c, s, fuel, hfront, hc, hdrop, hlt, hahead, heq⟩ :=
    at_member hlead hmembers hpass
  have hmem : m ∈ d.members := by rw [hmembers]; exact List.mem_append_right _ List.mem_cons_self
  obtain ⟨type, htype, hvalue⟩ :=
    lookup_plain (d.members_ok m hmem) hm.2 hfront hdrop hc hlt fuel
  exact ⟨type, htype, by rw [heq, ← hm.1, hvalue, hahead]⟩

theorem findsFirst_of_keepsPace (h : KeepsPace d name) : FindsFirst d name := by
  unfold KeepsPace at h
  unfold FindsFirst
  cases hnamed : d.fromNamed name with
  | nil =>
    rw [hnamed] at h
    by_cases hlead : IsBlank d.lead
    · exact nothing_found hlead (h.resolve_left (not_not_intro hlead))
    · have hnone : jsonGetObject 123 d.strLen 0 d.text.val = none :=
        jsonGetObject_other d.lead_spaces hlead
      rw [jsonGetValueByName, hnone]
  | cons m bs =>
    rw [hnamed] at h
    obtain ⟨hlead, hpass, hplain⟩ := h
    exact lookup_answers hlead (hnamed ▸ (members_eq d name).symm) hpass hplain

theorem ahead_lt (as cs : List Member) {a : Member} (m : Member)
    (ha : IsValue rfc8259 d.levels a.value.kind a.value.text) :
    (d.ahead as a).length + quotes a.value.kind < (d.ahead (as ++ a :: cs) m).length := by
  have hquotes := quotes_le ha
  have hmember := length_member a
  simp only [Document.ahead, List.flatMap_append, List.flatMap_cons, List.length_append,
    List.length_cons, List.length_nil]
  omega

theorem not_answers_of_lookup (hlead : IsBlank d.lead) {as bs : List Member}
    (hmembers : d.members = as ++ bs) (hpass : ∀ a ∈ as, Passes a)
    (hother : ∀ as' a cs, as = as' ++ a :: cs →
      ¬ IsValueOf d as' a (jsonGetValueByName d.text d.strLen name)) :
    ∀ a ∈ as, Passes a ∧ ¬ Answers name.val a := by
  classical
  cases hsplit : splitFirst (fun a => decide (Answers name.val a)) as with
  | none =>
    intro a ha
    exact ⟨hpass a ha, of_decide_eq_false (splitFirst_eq_none_iff.mp hsplit a ha)⟩
  | some r =>
    obtain ⟨as', a, cs⟩ := r
    obtain ⟨rfl, ha, has⟩ := splitFirst_eq_some_iff.mp hsplit
    rw [List.append_assoc, List.cons_append] at hmembers
    refine absurd (lookup_answers hlead hmembers (fun b hb => ?_) (of_decide_eq_true ha))
      (hother as' a cs rfl)
    exact ⟨hpass b (List.mem_append_left _ hb), of_decide_eq_false (has b hb)⟩

theorem keepsPace_of_findsFirst
    (hpass : ¬ IsBlank d.lead ∨ ∀ a ∈ d.others name, Passes a) (h : FindsFirst d name) :
    KeepsPace d name := by
  unfold FindsFirst at h
  unfold KeepsPace
  have hmembers := members_eq d name
  cases hnamed : d.fromNamed name with
  | nil =>
    rw [hnamed] at h hmembers
    by_cases hlead : IsBlank d.lead
    · right
      have hpass := hpass.resolve_left (not_not_intro hlead)
      rw [List.append_nil] at hmembers
      rw [hmembers] at hpass
      refine not_answers_of_lookup hlead (List.append_nil _).symm hpass ?_
      rintro as a cs - ⟨type, -, hvalue⟩
      rw [h] at hvalue
      cases hvalue
    · exact .inl hlead
  | cons m bs =>
    rw [hnamed] at h hmembers
    obtain ⟨type, htype, hvalue⟩ := h
    have hlead : IsBlank d.lead := by
      by_contra hlead
      have hnone : jsonGetObject 123 d.strLen 0 d.text.val = none :=
        jsonGetObject_other d.lead_spaces hlead
      rw [jsonGetValueByName, hnone] at hvalue
      cases hvalue
    have hm : ∀ a ∈ d.others name ++ m :: bs, a.Ok rfc8259 (IsValue rfc8259 d.levels) :=
      fun a ha => d.members_ok a (hmembers ▸ ha)
    have hothers : ∀ a ∈ d.others name, Passes a ∧ ¬ Answers name.val a := by
      refine not_answers_of_lookup hlead hmembers.symm
        (hpass.resolve_left (not_not_intro hlead)) ?_
      rintro as a cs has ⟨type', -, hvalue'⟩
      have ha : a.Ok rfc8259 (IsValue rfc8259 d.levels) := hm a (by rw [has]; simp)
      have hlt := ahead_lt as cs m ha.2.2.2.2.1
      rw [hvalue, ← has] at *
      obtain ⟨heq, -⟩ := Lookup.value.inj hvalue'
      omega
    obtain ⟨pos, front, c, s, fuel, hfront, hc, hdrop, hlt, hahead, heq⟩ :=
      at_member hlead hmembers.symm hothers
    rw [heq, ← hahead] at hvalue
    exact ⟨hlead, hothers, answers_of_lookup (hm m (by simp)) hfront hdrop hc hlt
      (key_of_fromNamed hnamed) htype hvalue⟩

end Documents

/-- Wherever the cursor keeps pace the value of the first member with the name is found; and only
there, where it passes the members in front of that one. -/
theorem findsFirst_keepsPace (d : Document) (name : CStr) :
    (KeepsPace d name → FindsFirst d name) ∧
      ((¬ IsBlank d.lead ∨ ∀ a ∈ d.others name, Passes a) → FindsFirst d name →
        KeepsPace d name) :=
  ⟨findsFirst_of_keepsPace, keepsPace_of_findsFirst⟩

theorem isValue_one {n : Nat} : IsValue rfc8259 n .number [49] := by
  rw [IsValue]
  exact ⟨[], [49], [], [], rfl, .inl rfl,
    .inr ⟨⟨by simp, List.forall_mem_singleton.mpr (by decide)⟩, by decide⟩, .inl rfl, .inl rfl⟩

/-- ` {"a":"x","b":[1]}`. -/
def plainDocument : Document where
  lead := [32]
  gap := []
  members := [⟨[], [97], [], ⟨[], .string, [34, 120, 34], []⟩⟩,
    ⟨[], [98], [], ⟨[], .array 1, [91, 49, 93], []⟩⟩]
  tail := []
  rest := []
  levels := 1
  lead_spaces := List.forall_mem_singleton.mpr (.inr (.inr (.inr rfl)))
  gap_spaces := spaces_nil
  tail_spaces := spaces_nil
  members_ok := by
    refine List.forall_mem_cons.mpr ⟨?_, List.forall_mem_singleton.mpr ?_⟩
    · refine ⟨spaces_nil, rfl, spaces_nil, spaces_nil, ?_, spaces_nil⟩
      rw [IsValue]
      exact ⟨[120], rfl, rfl⟩
    · exact ⟨spaces_nil, rfl, spaces_nil, spaces_nil,
        ⟨[49], rfl, .inr ⟨[⟨[], .number, [49], []⟩], by simp, rfl,
          List.forall_mem_singleton.mpr ⟨spaces_nil, isValue_one, spaces_nil⟩, rfl⟩⟩, spaces_nil⟩
  no_nul := by decide

theorem plain_value_found : FindsFirst plainDocument ⟨[98], by decide⟩ := by
  refine (findsFirst_keepsPace plainDocument ⟨[98], by decide⟩).1 ⟨?_, ?_, rfl, ?_⟩
  · exact List.forall_mem_singleton.mpr rfl
  · refine List.forall_mem_singleton.mpr ⟨⟨?_, ?_⟩, fun h => absurd h.1 (by decide)⟩
    · show (34 : UInt8) ∉ [97]
      decide
    · show (34 : UInt8) ∉ [120]
      decide
  · refine ⟨⟨?_, ?_⟩, List.cons_ne_nil _ _, fun h => nomatch h⟩
    · show (34 : UInt8) ∉ [98]
      decide
    · show Balanced .array [49]
      rfl

/-- `{"a":null,"b":1}`. -/
def nullDocument : Document where
  lead := []
  gap := []
  members := [⟨[], [97], [], ⟨[], .null, [110, 117, 108, 108], []⟩⟩,
    ⟨[], [98], [], ⟨[], .number, [49], []⟩⟩]
  tail := []
  rest := []
  levels := 0
  lead_spaces := spaces_nil
  gap_spaces := spaces_nil
  tail_spaces := spaces_nil
  members_ok := by
    refine List.forall_mem_cons.mpr ⟨?_, List.forall_mem_singleton.mpr ?_⟩
    · exact ⟨spaces_nil, rfl, spaces_nil, spaces_nil, by rw [IsValue], spaces_nil⟩
    · exact ⟨spaces_nil, rfl, spaces_nil, spaces_nil, isValue_one, spaces_nil⟩
  no_nul := by decide

/-- Instead of null, the value of `a` is the key behind it. -/
theorem null_value_lost :
    jsonGetValueByName nullDocument.text nullDocument.strLen ⟨[97], by decide⟩ =
        .value 11 1 .string ∧
      ¬ FindsFirst nullDocument ⟨[97], by decide⟩ := by
  refine ⟨by decide, ?_⟩
  rintro ⟨type, htype, -⟩
  cases htype

end AliyunIot.JsonParser
