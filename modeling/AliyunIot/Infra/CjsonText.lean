import AliyunIot.Infra.Cjson

/-!
# What the parser accepts

`lexis` is what `lite_cjson` takes for spaces, numbers and strings. A value of the grammar is
parsed wherever it stands in a text (`parseValue_of_isValue`).
-/

namespace AliyunIot.Cjson

open Lib Lib.Json

/-- What may stand between the quotes: no quote but behind a backslash. -/
def isBody : List UInt8 → Bool
  | [] => true
  | [b] => b ≠ 34 && b ≠ 92
  | b :: c :: s => if b = 34 then false else if b = 92 then isBody s else isBody (c :: s)

/-- A number that `strtod` converts to its end. -/
structure IsNumber (strtod : Strtod) (t : List UInt8) : Prop where
  starts : ∃ b s, t = b :: s ∧ startsNumber b = true
  bytes : ∀ b ∈ t, isNumberByte b = true
  length_le : t.length ≤ numberLen
  converted : (strtod.convert t).1 = t.length

def lexis (strtod : Strtod) : Lexis where
  space b := isSpace b = true
  number := IsNumber strtod
  body s := isBody s = true

/-- The item that a value of the text is parsed to. -/
def item (strtod : Strtod) : Kind → List UInt8 → LiteCjson
  | .null, t => ⟨.null, t, 0, 0⟩
  | .false, t => ⟨.false, t, 0, 0⟩
  | .true, t => ⟨.true, t, 0, 0⟩
  | .number, t => ⟨.number, t, 0, saturate (strtod.convert t).2⟩
  | .string, t => ⟨.string, t.tail.dropLast, 0, 0⟩
  | .array size, t => ⟨.array, t, size, 0⟩
  | .object size, t => ⟨.object, t, size, 0⟩

def keyItem (key : List UInt8) : LiteCjson := ⟨.string, key, 0, 0⟩

/-- A byte that ends a value: neither a space nor a byte of a number. -/
def Ends (b : UInt8) : Prop := isSpace b = false ∧ isNumberByte b = false

section Bytes

theorem isNumberByte_of_isSpace {b : UInt8} (h : isSpace b = true) : isNumberByte b = false := by
  simp only [isSpace, decide_eq_true_eq, UInt8.le_iff_toNat_le] at h
  simp only [isNumberByte, UInt8.le_iff_toNat_le, Bool.or_eq_false_iff, Bool.and_eq_false_imp,
    decide_eq_true_eq, decide_eq_false_iff_not, ← UInt8.toNat_inj]
  simp only [UInt8.reduceToNat] at *
  omega

theorem opens_of_startsNumber {b : UInt8} (h : startsNumber b = true) :
    isSpace b = false ∧ b ≠ 93 ∧ b ≠ 0xEF := by
  simp only [startsNumber, UInt8.le_iff_toNat_le, Bool.or_eq_true, Bool.and_eq_true,
    decide_eq_true_eq, ← UInt8.toNat_inj] at h
  simp only [isSpace, UInt8.le_iff_toNat_le, decide_eq_false_iff_not, ne_eq, ← UInt8.toNat_inj]
  simp only [UInt8.reduceToNat] at *
  omega

theorem isNumberByte_of_startsNumber {b : UInt8} (h : startsNumber b = true) :
    isNumberByte b = true := by
  simp only [startsNumber, Bool.or_eq_true] at h
  simp only [isNumberByte, Bool.or_eq_true]
  rcases h with h | h
  · exact .inl (.inl (.inl (.inr h)))
  · exact .inl (.inl (.inl (.inl (.inl h))))

theorem ends_comma : Ends 44 := ⟨rfl, rfl⟩

end Bytes

variable {strtod : Strtod} {content : List UInt8} {o n : Nat}

theorem getElem?_of_drop {b : UInt8} {s : List UInt8} (h : content.drop o = b :: s) :
    content[o]? = some b := by
  have h0 : (content.drop o)[0]? = some b := by rw [h]; rfl
  rwa [List.getElem?_drop, Nat.add_zero] at h0

theorem drop_add_of_drop {s rest : List UInt8} (h : content.drop o = s ++ rest) :
    content.drop (o + s.length) = rest := by
  rw [← List.drop_drop, h, List.drop_left]

theorem lt_length_of_drop {b : UInt8} {s : List UInt8} (h : content.drop o = b :: s) :
    o < content.length := by
  have hlen := congrArg List.length h
  simp only [List.length_drop, List.length_cons] at hlen
  omega

theorem bufferSkipWhitespace_eq {ws rest : List UInt8} {b : UInt8}
    (h : content.drop o = ws ++ b :: rest) (hws : ∀ c ∈ ws, isSpace c = true)
    (hb : isSpace b = false) : bufferSkipWhitespace content o = o + ws.length := by
  have htake : (content.drop o).takeWhile isSpace = ws := by
    rw [h, List.takeWhile_append_of_pos hws, List.takeWhile_cons_of_neg (by simp [hb]),
      List.append_nil]
  have hlt : o + ws.length < content.length := lt_length_of_drop (drop_add_of_drop h)
  simp only [bufferSkipWhitespace, htake]
  rw [if_neg (by omega)]

theorem bufferSkipWhitespace_self {rest : List UInt8} {b : UInt8} (h : content.drop o = b :: rest)
    (hb : isSpace b = false) : bufferSkipWhitespace content o = o := by
  have hnil : content.drop o = [] ++ b :: rest := h
  exact bufferSkipWhitespace_eq hnil (fun c hc => absurd hc List.not_mem_nil) hb

section Strings

theorem inputEnd_quote (s : List UInt8) : inputEnd (34 :: s) = some 0 := by
  cases s with
  | nil => rfl
  | cons b s => rfl

theorem inputEnd_of_isBody {body : List UInt8} (h : isBody body = true) (s : List UInt8) :
    inputEnd (body ++ 34 :: s) = some body.length := by
  induction body using isBody.induct with
  | case1 => exact inputEnd_quote s
  | case2 b =>
    simp only [isBody, Bool.and_eq_true, decide_eq_true_eq] at h
    simp only [List.cons_append, List.nil_append, inputEnd, if_neg h.1, if_neg h.2,
      inputEnd_quote, Option.map_some, List.length_singleton, Nat.zero_add]
  | case3 c t =>
    rw [isBody, if_pos rfl] at h
    cases h
  | case4 c t _ ih =>
    rw [isBody, if_neg (by decide), if_pos rfl] at h
    simp only [List.cons_append, inputEnd, if_pos, ih h, Option.map_some, List.length_cons]
    rfl
  | case5 b c t hb hb' ih =>
    rw [isBody, if_neg hb, if_neg hb'] at h
    have hih := ih h
    rw [List.cons_append] at hih
    simp only [List.cons_append, inputEnd, if_neg hb, if_neg hb', hih, Option.map_some,
      List.length_cons]

theorem isBody_of_inputEnd {s : List UInt8} {len : Nat} (h : inputEnd s = some len) :
    ∃ body rest, s = body ++ 34 :: rest ∧ body.length = len ∧ isBody body = true := by
  induction s using inputEnd.induct generalizing len with
  | case1 => cases h
  | case2 =>
    cases h
    exact ⟨[], [], rfl, rfl, rfl⟩
  | case3 b hb =>
    rw [inputEnd, if_neg hb] at h
    cases h
  | case4 c t =>
    rw [inputEnd, if_pos rfl] at h
    cases h
    exact ⟨[], c :: t, rfl, rfl, rfl⟩
  | case5 c t _ ih =>
    rw [inputEnd, if_neg (by decide), if_pos rfl] at h
    obtain ⟨n, hn, rfl⟩ := Option.map_eq_some_iff.mp h
    obtain ⟨body, rest, rfl, rfl, hbody⟩ := ih hn
    exact ⟨92 :: c :: body, rest, rfl, rfl, by rw [isBody, if_neg (by decide), if_pos rfl, hbody]⟩
  | case6 b c t hb hb' ih =>
    rw [inputEnd, if_neg hb, if_neg hb'] at h
    obtain ⟨n, hn, rfl⟩ := Option.map_eq_some_iff.mp h
    obtain ⟨body, rest, hs, rfl, hbody⟩ := ih hn
    refine ⟨b :: body, rest, by rw [hs]; rfl, rfl, ?_⟩
    cases body with
    | nil => simp [isBody, hb, hb']
    | cons d body => rw [isBody, if_neg hb, if_neg hb', hbody]

theorem length_quote (s : List UInt8) : (quote s).length = s.length + 2 := by
  simp only [quote, List.length_cons, List.length_append, List.length_nil]

theorem parseString_of_isBody {body rest : List UInt8} (hbody : isBody body = true)
    (h : content.drop o = quote body ++ rest) :
    parseString content o = some (keyItem body, o + (quote body).length) := by
  have hcons : content.drop o = 34 :: (body ++ 34 :: rest) := by
    rw [h, quote]; simp only [List.cons_append, List.append_assoc, List.nil_append]
  have hdrop : content.drop (o + 1) = body ++ 34 :: rest :=
    drop_add_of_drop (s := [34]) hcons
  rw [parseString, if_pos (getElem?_of_drop hcons), hdrop, inputEnd_of_isBody hbody,
    Option.map_some,
    List.take_left, length_quote, keyItem]
  rfl

theorem isBody_of_parseString {lite : LiteCjson} {e : Nat}
    (h : parseString content o = some (lite, e)) :
    ∃ body, isBody body = true ∧ lite = keyItem body ∧
      content.drop o = quote body ++ content.drop e ∧ o < e := by
  unfold parseString at h
  split at h
  case isFalse => cases h
  case isTrue hq =>
    obtain ⟨len, hlen, heq⟩ := Option.map_eq_some_iff.mp h
    obtain ⟨body, rest, hdrop, rfl, hbody⟩ := isBody_of_inputEnd hlen
    cases heq
    refine ⟨body, hbody, by rw [hdrop, List.take_left]; rfl, ?_, by omega⟩
    obtain ⟨hlt, hget⟩ := List.getElem?_eq_some_iff.mp hq
    have hrest : content.drop (o + body.length + 2) = rest := by
      have hquote : content.drop (o + 1) = (body ++ [34]) ++ rest := by
        rw [hdrop]; simp only [List.append_assoc, List.cons_append, List.nil_append]
      have h1 := drop_add_of_drop hquote
      rw [List.length_append, List.length_singleton] at h1
      rw [← h1]
      congr 1
      omega
    rw [hrest, List.drop_eq_getElem_cons hlt, hget, hdrop, quote]
    simp only [List.cons_append, List.append_assoc, List.nil_append]

end Strings

section Accepted

/-- No byte behind a number continues it. -/
def Stops (k : Kind) (rest : List UInt8) : Prop :=
  k = .number → ∀ b ∈ rest.head?, isNumberByte b = false

variable {b : UInt8}

theorem stops_cons {k : Kind} {s : List UInt8} (h : isNumberByte b = false) : Stops k (b :: s) := by
  rintro - c hc
  cases hc
  exact h

theorem stops_spaces {k : Kind} {ws s : List UInt8}
    (hws : ∀ c ∈ ws, isSpace c = true) (hb : Ends b) : Stops k (ws ++ b :: s) := by
  cases ws with
  | nil => exact stops_cons hb.2
  | cons c ws => exact stops_cons (isNumberByte_of_isSpace (hws c List.mem_cons_self))

variable {rest : List UInt8}

theorem parseNumber_of_isNumber {t : List UInt8} (ht : IsNumber strtod t)
    (hrest : ∀ b ∈ rest.head?, isNumberByte b = false) (h : content.drop o = t ++ rest) :
    parseNumber strtod content o = some (item strtod .number t, o + t.length) := by
  have htake : (content.drop o).takeWhile isNumberByte = t := by
    rw [h, List.takeWhile_append_of_pos ht.bytes]
    cases rest with
    | nil => rw [List.takeWhile_nil, List.append_nil]
    | cons b s => rw [List.takeWhile_cons_of_neg (by simp [hrest b rfl]), List.append_nil]
  obtain ⟨b, s, hcons, -⟩ := ht.starts
  have hne : t.length ≠ 0 := by rw [hcons]; exact Nat.succ_ne_zero _
  have hfull : t.take numberLen = t := List.take_of_length_le ht.length_le
  simp only [parseNumber, htake, hfull, ht.converted, if_neg hne, item]
  rw [h, List.take_left]

theorem readsWord_self {word : List UInt8} (h : content.drop o = word ++ rest) :
    readsWord content word o = true := by
  rw [readsWord, h, List.take_left]
  exact decide_eq_true rfl

theorem readsWord_of_head {word s : List UInt8} {c : UInt8} (h : content.drop o = b :: s)
    (hne : b ≠ c) : readsWord content (c :: word) o = false := by
  simp only [readsWord, h, List.length_cons, List.take_succ_cons, decide_eq_false_iff_not]
  exact fun heq => hne (List.cons.inj heq).1

theorem dispatch_of_head {array object : Nat → Option (LiteCjson × Nat)}
    {s : List UInt8} (h : content.drop o = b :: s) (hn : b ≠ 110) (hf : b ≠ 102) (ht : b ≠ 116) :
    dispatch strtod content array object o =
      if b = 34 then parseString content o
      else if startsNumber b then parseNumber strtod content o
      else if b = 91 then array o
      else if b = 123 then object o
      else none := by
  rw [dispatch, readsWord_of_head h hn, readsWord_of_head h hf, readsWord_of_head h ht]
  simp only [Bool.false_eq_true, if_false, getElem?_of_drop h]

theorem head_of_isValue {k : Kind} {t : List UInt8} (h : IsValue (lexis strtod) n k t) :
    ∃ b s, t = b :: s ∧ isSpace b = false ∧ b ≠ 93 ∧ b ≠ 0xEF := by
  cases k with
  | null | false | true =>
    rw [IsValue] at h
    exact ⟨_, _, h, rfl, by decide, by decide⟩
  | number =>
    rw [IsValue] at h
    obtain ⟨b, s, rfl, hb⟩ := h.starts
    exact ⟨b, s, rfl, opens_of_startsNumber hb⟩
  | string =>
    rw [IsValue] at h
    obtain ⟨body, -, rfl⟩ := h
    exact ⟨34, body ++ [34], rfl, rfl, by decide, by decide⟩
  | array size =>
    cases n with
    | zero => exact h.elim
    | succ n =>
      obtain ⟨inner, rfl, -⟩ := h
      exact ⟨91, inner ++ [93], rfl, rfl, by decide, by decide⟩
  | object size =>
    cases n with
    | zero => exact h.elim
    | succ n =>
      obtain ⟨inner, rfl, -⟩ := h
      exact ⟨123, inner ++ [125], rfl, rfl, by decide, by decide⟩

/-- `value` parses the values of the grammar, wherever they stand. -/
def Parses (strtod : Strtod) (content : List UInt8) (n : Nat)
    (value : Nat → Option (LiteCjson × Nat)) : Prop :=
  ∀ o k t rest, IsValue (lexis strtod) n k t → Stops k rest → content.drop o = t ++ rest →
    value o = some (item strtod k t, o + t.length)

variable {value : Nat → Option (LiteCjson × Nat)}

theorem parse_element (hv : Parses strtod content n value) {e : Element}
    (he : e.Ok (lexis strtod) (IsValue (lexis strtod) n))
    (hb : Ends b) (h : content.drop o = e.bytes ++ b :: rest) :
    ∃ o', value (bufferSkipWhitespace content o) = some (item strtod e.kind e.text, o') ∧
      bufferSkipWhitespace content o' = o + e.bytes.length ∧
      content.drop (o + e.bytes.length) = b :: rest := by
  obtain ⟨hbefore, hvalue, hafter⟩ := he
  obtain ⟨c, s, htext, hc, -⟩ := head_of_isValue hvalue
  have hparts : content.drop o = e.before ++ (e.text ++ (e.after ++ b :: rest)) := by
    rw [h, Element.bytes]; simp only [List.append_assoc]
  have hfirst : content.drop o = e.before ++ c :: (s ++ (e.after ++ b :: rest)) := by
    rw [hparts, htext, List.cons_append]
  have hskip := bufferSkipWhitespace_eq hfirst hbefore hc
  have htextAt := drop_add_of_drop hparts
  have hafterAt := drop_add_of_drop htextAt
  refine ⟨o + e.before.length + e.text.length, ?_, ?_, drop_add_of_drop h⟩
  · rw [hskip]
    exact hv _ _ _ _ hvalue (stops_spaces hafter hb) htextAt
  · rw [bufferSkipWhitespace_eq hafterAt hafter hb.1]
    simp only [Element.bytes, List.length_append]
    omega

theorem parse_member (hv : Parses strtod content n value) {m : Member}
    (hm : m.Ok (lexis strtod) (IsValue (lexis strtod) n))
    (hb : Ends b) (h : content.drop o = m.bytes ++ b :: rest) :
    parseMember content value o =
        some (keyItem m.key, item strtod m.value.kind m.value.text, o + m.bytes.length) ∧
      content.drop (o + m.bytes.length) = b :: rest := by
  obtain ⟨hbefore, hkey, hafter, hvalue⟩ := hm
  have hparts : content.drop o =
      m.before ++ (quote m.key ++ (m.after ++ 58 :: (m.value.bytes ++ b :: rest))) := by
    rw [h, Member.bytes]; simp only [List.append_assoc, List.cons_append]
  have hskip : bufferSkipWhitespace content o = o + m.before.length :=
    bufferSkipWhitespace_eq hparts hbefore rfl
  have hkeyAt := drop_add_of_drop hparts
  have hafterAt := drop_add_of_drop hkeyAt
  have hcolon := bufferSkipWhitespace_eq hafterAt hafter rfl
  have hcolonAt := drop_add_of_drop hafterAt
  have hvalueAt := drop_add_of_drop (s := [58]) hcolonAt
  obtain ⟨o', hval, hend, -⟩ := parse_element hv hvalue hb hvalueAt
  refine ⟨?_, drop_add_of_drop h⟩
  rw [parseMember, hskip, parseString_of_isBody hkey hkeyAt]
  simp only [Option.bind_some, hcolon, getElem?_of_drop hcolonAt, if_true]
  rw [List.length_singleton] at hval hend
  rw [hval, Option.map_some, hend]
  simp only [Member.bytes, List.length_append, List.length_cons]
  congr 3
  omega

theorem length_le_joined {α : Type} (bytes : α → List UInt8) {ms : List α}
    (h : ∀ m ∈ ms, bytes m ≠ []) : ms.length ≤ (joined (ms.map bytes)).length := by
  induction ms with
  | nil => exact Nat.zero_le _
  | cons m ms ih =>
    obtain ⟨hm, hms⟩ := List.forall_mem_cons.mp h
    have hpos := List.length_pos_iff.mpr hm
    have hle := ih hms
    cases ms with
    | nil => simpa [joined] using Nat.succ_le_of_lt hpos
    | cons m' ms =>
      rw [List.map_cons, joined_cons (by simp)]
      simp only [List.length_append, List.length_cons] at hle ⊢
      omega

variable {rounds : Nat}

theorem parseElements_joined (hv : Parses strtod content n value) {es : List Element}
    (hne : es ≠ []) (hes : ∀ e ∈ es, e.Ok (lexis strtod) (IsValue (lexis strtod) n))
    (hb : Ends b) (hcomma : b ≠ 44) (hrounds : es.length ≤ rounds) (size : Nat)
    (h : content.drop o = joined (es.map Element.bytes) ++ b :: rest) :
    parseElements content value rounds o size =
      some (size + es.length, o + (joined (es.map Element.bytes)).length) := by
  induction es generalizing o rounds size with
  | nil => exact absurd rfl hne
  | cons e es ih =>
    obtain ⟨he, hes⟩ := List.forall_mem_cons.mp hes
    cases rounds with
    | zero => cases hrounds
    | succ rounds =>
      cases es with
      | nil =>
        obtain ⟨o', hval, hend, hdrop⟩ := parse_element hv he hb h
        simp only [parseElements, hval, Option.bind_some, hend, getElem?_of_drop hdrop]
        rw [if_neg (by simpa using hcomma)]
        rfl
      | cons e' es =>
        have hcons : (e' :: es).map Element.bytes ≠ [] := by simp
        rw [List.map_cons, joined_cons hcons, List.append_assoc, List.cons_append] at h
        obtain ⟨o', hval, hend, hdrop⟩ := parse_element hv he ends_comma h
        have hnext := drop_add_of_drop (s := [44]) hdrop
        simp only [parseElements, hval, Option.bind_some, hend, getElem?_of_drop hdrop, if_true]
        rw [List.length_singleton] at hnext
        rw [ih (by simp) hes (Nat.le_of_succ_le_succ hrounds) _ hnext,
          List.map_cons (l := e' :: es),
          joined_cons hcons]
        simp only [List.length_append, List.length_cons]
        congr 2 <;> omega

/-- How the loop from `o` ends that passes `as` and finds the first of `tail`. -/
def walked (strtod : Strtod) (as tail : List Member) (index o : Nat) : Walk :=
  match tail with
  | [] => .ended (index + as.length) (o + (joined (as.map Member.bytes)).length)
  | m :: _ => .found (keyItem m.key) (item strtod m.value.kind m.value.text)

theorem walkMembers_joined (hv : Parses strtod content n value)
    (wanted : Nat → LiteCjson → Bool) {as tail : List Member}
    (has : ∀ m ∈ as, ∀ i, wanted i (keyItem m.key) = false)
    (htail : ∀ m ∈ tail.head?, ∀ i, wanted i (keyItem m.key) = true) (hne : as ++ tail ≠ [])
    (hms : ∀ m ∈ as ++ tail, m.Ok (lexis strtod) (IsValue (lexis strtod) n))
    (hb : Ends b) (hcomma : b ≠ 44) (hrounds : (as ++ tail).length ≤ rounds) (index : Nat)
    (h : content.drop o = joined ((as ++ tail).map Member.bytes) ++ b :: rest) :
    walkMembers content value wanted rounds o index = some (walked strtod as tail index o) := by
  induction as generalizing o rounds index with
  | nil =>
    cases tail with
    | nil => exact absurd rfl hne
    | cons m ms =>
      have hm := (List.forall_mem_cons.mp hms).1
      cases rounds with
      | zero => cases hrounds
      | succ rounds =>
        have hat : ∃ c s, Ends c ∧ content.drop o = m.bytes ++ c :: s := by
          cases ms with
          | nil => exact ⟨b, rest, hb, h⟩
          | cons m' ms =>
            refine ⟨44, joined ((m' :: ms).map Member.bytes) ++ b :: rest, ends_comma, ?_⟩
            rw [h, List.nil_append, List.map_cons, joined_cons (by simp), List.append_assoc,
              List.cons_append]
        obtain ⟨c, s, hc, hat⟩ := hat
        obtain ⟨hmember, -⟩ := parse_member hv hm hc hat
        simp only [walkMembers, hmember, Option.bind_some, htail m rfl, if_true, walked]
  | cons a as ih =>
    obtain ⟨ha, hms⟩ := List.forall_mem_cons.mp hms
    obtain ⟨hwa, has⟩ := List.forall_mem_cons.mp has
    cases rounds with
    | zero => cases hrounds
    | succ rounds =>
      cases hrest : as ++ tail with
      | nil =>
        obtain ⟨rfl, rfl⟩ := List.append_eq_nil_iff.mp hrest
        obtain ⟨hmember, hdrop⟩ := parse_member hv ha hb h
        simp only [walkMembers, hmember, Option.bind_some, hwa, getElem?_of_drop hdrop]
        rw [if_neg (by simp), if_neg (by simpa using hcomma)]
        rfl
      | cons m ms =>
        have hcons : (as ++ tail).map Member.bytes ≠ [] := by rw [hrest]; simp
        rw [List.cons_append, List.map_cons, joined_cons hcons, List.append_assoc,
          List.cons_append] at h
        obtain ⟨hmember, hdrop⟩ := parse_member hv ha ends_comma h
        have hnext := drop_add_of_drop (s := [44]) hdrop
        rw [List.length_singleton] at hnext
        simp only [walkMembers, hmember, Option.bind_some, hwa, getElem?_of_drop hdrop, if_true]
        rw [if_neg (by simp), ih has (by rw [hrest]; simp) hms 
          (Nat.le_of_succ_le_succ hrounds) _ hnext]
        cases tail with
        | nil =>
          have has' : as.map Member.bytes ≠ [] := by
            rw [List.append_nil] at hcons; exact hcons
          simp only [walked, List.map_cons, joined_cons has', List.length_append, List.length_cons]
          congr 2 <;> omega
        | cons m' ms' => rfl

theorem container_eq (type : CjsonType) (size : Nat) {c : UInt8} {inner : List UInt8}
    (h : content.drop o = b :: (inner ++ c :: rest)) :
    container content type o size (o + 1 + inner.length) =
      (⟨type, b :: (inner ++ [c]), size, 0⟩, o + (b :: (inner ++ [c])).length) := by
  have hparts : content.drop o = (b :: (inner ++ [c])) ++ rest := by
    rw [h]; simp only [List.cons_append, List.append_assoc, List.nil_append]
  have hlen : o + 1 + inner.length - o + 1 = (b :: (inner ++ [c])).length := by
    simp only [List.length_cons, List.length_append, List.length_nil]
    omega
  rw [container, hlen, hparts, List.take_left, List.length_cons, List.length_append,
    List.length_singleton]
  congr 1
  omega

theorem element_bytes_ne_nil {e : Element}
    (he : e.Ok (lexis strtod) (IsValue (lexis strtod) n)) : e.bytes ≠ [] := by
  obtain ⟨b, s, htext, -⟩ := head_of_isValue he.2.1
  rw [Element.bytes, htext]
  simp

theorem member_bytes_ne_nil (m : Member) : m.bytes ≠ [] := by
  rw [Member.bytes, quote]
  simp

theorem bufferSkipWhitespace_idem {ws : List UInt8}
    (h : content.drop o = ws ++ b :: rest) (hws : ∀ c ∈ ws, isSpace c = true)
    (hb : isSpace b = false) :
    bufferSkipWhitespace content (bufferSkipWhitespace content o) =
      bufferSkipWhitespace content o := by
  rw [bufferSkipWhitespace_eq h hws hb]
  exact bufferSkipWhitespace_self (drop_add_of_drop h) hb

variable {size : Nat}

theorem parseElements_skip (h : bufferSkipWhitespace content (bufferSkipWhitespace content o) =
      bufferSkipWhitespace content o) :
    parseElements content value rounds (bufferSkipWhitespace content o) size =
      parseElements content value rounds o size := by
  cases rounds with
  | zero => rfl
  | succ rounds => simp only [parseElements, h]

theorem walkMembers_skip {wanted : Nat → LiteCjson → Bool} {index : Nat}
    (h : bufferSkipWhitespace content (bufferSkipWhitespace content o) =
      bufferSkipWhitespace content o) :
    walkMembers content value wanted rounds (bufferSkipWhitespace content o) index =
      walkMembers content value wanted rounds o index := by
  cases rounds with
  | zero => rfl
  | succ rounds => simp only [walkMembers, parseMember, h]

theorem length_inner_le {s : List UInt8} (h : content.drop o = b :: (s ++ rest)) :
    s.length ≤ content.length := by
  have hlen := congrArg List.length h
  simp only [List.length_drop, List.length_cons, List.length_append] at hlen
  omega

theorem parseArray_of_isValue (hv : Parses strtod content n value) {inner : List UInt8}
    (hinner : Inner (Spaces (lexis strtod)) (Element.Ok (lexis strtod) (IsValue (lexis strtod) n))
      Element.bytes size inner) (h : content.drop o = 91 :: (inner ++ 93 :: rest)) :
    parseArray content value o =
      some (item strtod (.array size) (91 :: (inner ++ [93])),
        o + (91 :: (inner ++ [93])).length) := by
  have hin := drop_add_of_drop (s := [91]) h
  rw [List.length_singleton] at hin
  rcases hinner with ⟨rfl, hspaces⟩ | ⟨es, hne, rfl, hes, rfl⟩
  · have hskip := bufferSkipWhitespace_eq hin hspaces rfl
    simp only [parseArray, hskip, getElem?_of_drop (drop_add_of_drop hin), if_true,
      container_eq _ _ h,
      item]
  · obtain ⟨e, es', rfl⟩ := List.exists_cons_of_ne_nil hne
    have he := hes e List.mem_cons_self
    obtain ⟨b, s, htext, hb, hb', -⟩ := head_of_isValue he.2.1
    obtain ⟨s', hs'⟩ : ∃ s', content.drop (o + 1) = e.before ++ b :: s' := by
      cases es' with
      | nil =>
        exact ⟨s ++ (e.after ++ 93 :: rest), by rw [hin]; simp [joined, Element.bytes, htext]⟩
      | cons e' es' =>
        rw [hin, List.map_cons, joined_cons (by simp), Element.bytes, htext]
        simp
    have hfirst := drop_add_of_drop hs'
    have hskip := bufferSkipWhitespace_eq hs' he.1 hb
    have hidem := bufferSkipWhitespace_idem hs' he.1 hb
    have hrounds : (e :: es').length ≤ content.length + 1 :=
      Nat.le_succ_of_le <| Nat.le_trans (length_le_joined Element.bytes
        fun e he => element_bytes_ne_nil (hes e he))
        (length_inner_le h)
    have hloop := parseElements_joined hv hne hes (b := 93) ⟨rfl, rfl⟩ (by decide) hrounds 0
      hin
    rw [← parseElements_skip hidem] at hloop
    simp only [parseArray]
    rw [if_neg (by rw [hskip, getElem?_of_drop hfirst]; simpa using hb'), hloop]
    simp only [Option.bind_some, getElem?_of_drop (drop_add_of_drop hin), if_true,
      container_eq _ _ h,
      item, Nat.zero_add]

theorem walkMembers_object (hv : Parses strtod content n value)
    (wanted : Nat → LiteCjson → Bool) (as tail : List Member)
    (has : ∀ m ∈ as, ∀ i, wanted i (keyItem m.key) = false)
    (htail : ∀ m ∈ tail.head?, ∀ i, wanted i (keyItem m.key) = true) (hne : as ++ tail ≠ [])
    (hms : ∀ m ∈ as ++ tail, m.Ok (lexis strtod) (IsValue (lexis strtod) n))
    (h : content.drop o = 123 :: (joined ((as ++ tail).map Member.bytes) ++ 125 :: rest)) :
    content[bufferSkipWhitespace content (o + 1)]? = some 34 ∧
    walkMembers content value wanted (content.length + 1) (bufferSkipWhitespace content (o + 1)) 0 =
      some (walked strtod as tail 0 (o + 1)) := by
  have hin := drop_add_of_drop (s := [123]) h
  rw [List.length_singleton] at hin
  obtain ⟨m, ms, hcons⟩ := List.exists_cons_of_ne_nil hne
  have hm := hms m (by rw [hcons]; exact List.mem_cons_self)
  obtain ⟨s, hs⟩ : ∃ s, content.drop (o + 1) = m.before ++ 34 :: s := by
    cases ms with
    | nil =>
      refine ⟨m.key ++ 34 :: (m.after ++ 58 :: (m.value.bytes ++ 125 :: rest)), ?_⟩
      rw [hin, hcons]
      simp [joined, Member.bytes, quote]
    | cons m' ms =>
      rw [hin, hcons, List.map_cons, joined_cons (by simp), Member.bytes, quote]
      simp
  have hskip := bufferSkipWhitespace_eq hs hm.1 rfl
  have hidem := bufferSkipWhitespace_idem hs hm.1 rfl
  have hrounds : (as ++ tail).length ≤ content.length + 1 :=
    Nat.le_succ_of_le <|
      Nat.le_trans (length_le_joined Member.bytes fun m _ => member_bytes_ne_nil m)
      (length_inner_le h)
  have hloop := walkMembers_joined hv wanted has htail hne hms (b := 125) ⟨rfl, rfl⟩ (by decide)
    hrounds 0 hin
  rw [← walkMembers_skip hidem] at hloop
  exact ⟨by rw [hskip, getElem?_of_drop (drop_add_of_drop hs)], hloop⟩

theorem parseObject_of_isValue (hv : Parses strtod content n value) {inner : List UInt8}
    (hinner : Inner (Spaces (lexis strtod)) (Member.Ok (lexis strtod) (IsValue (lexis strtod) n))
      Member.bytes size inner) (h : content.drop o = 123 :: (inner ++ 125 :: rest)) :
    parseObject content value o =
      some (item strtod (.object size) (123 :: (inner ++ [125])),
        o + (123 :: (inner ++ [125])).length) := by
  have hin := drop_add_of_drop (s := [123]) h
  rw [List.length_singleton] at hin
  rcases hinner with ⟨rfl, hspaces⟩ | ⟨ms, hne, rfl, hms, rfl⟩
  · have hskip := bufferSkipWhitespace_eq hin hspaces rfl
    simp only [parseObject, hskip, getElem?_of_drop (drop_add_of_drop hin), if_true,
      container_eq _ _ h, item]
  · rw [← List.append_nil ms] at hne hms
    obtain ⟨hfirst, hloop⟩ :=
      walkMembers_object hv (fun _ _ => false) ms [] (fun _ _ _ => rfl)
        (fun m hm => nomatch hm) hne hms
      (by rw [List.append_nil]; exact h)
    simp only [parseObject, hfirst, hloop, walked]
    rw [if_neg (by decide), if_pos (getElem?_of_drop (drop_add_of_drop hin)),
      container_eq _ _ h, item,
      Nat.zero_add]

theorem dispatch_of_isValue {array object : Nat → Option (LiteCjson × Nat)} {k : Kind}
    {t : List UInt8} (hk : IsValue (lexis strtod) n k t)
    (hflat : ∀ size, k ≠ .array size ∧ k ≠ .object size) (hstops : Stops k rest)
    (h : content.drop o = t ++ rest) :
    dispatch strtod content array object o = some (item strtod k t, o + t.length) := by
  cases k with
  | null =>
    rw [IsValue] at hk
    subst hk
    rw [dispatch, if_pos (readsWord_self h), literal, item]
  | false =>
    rw [IsValue] at hk
    subst hk
    rw [dispatch, readsWord_of_head h (by decide), if_neg (by decide), if_pos (readsWord_self h),
      literal, item]
  | true =>
    rw [IsValue] at hk
    subst hk
    rw [dispatch, readsWord_of_head h (by decide), readsWord_of_head h (by decide),
      if_neg (by decide), if_neg (by decide), if_pos (readsWord_self h), literal, item]
  | number =>
    rw [IsValue] at hk
    obtain ⟨b, s, rfl, hb⟩ := hk.starts
    have hne : ∀ c, startsNumber c = false → b ≠ c := fun c hc heq => by
      rw [heq, hc] at hb
      cases hb
    rw [dispatch_of_head h (hne 110 rfl) (hne 102 rfl) (hne 116 rfl), if_neg (hne 34 rfl),
      if_pos hb]
    exact parseNumber_of_isNumber hk (hstops rfl) h
  | string =>
    rw [IsValue] at hk
    obtain ⟨body, hbody, rfl⟩ := hk
    rw [dispatch_of_head h (by decide) (by decide) (by decide), if_pos rfl,
      parseString_of_isBody hbody h, item, keyItem, quote, List.tail_cons, List.dropLast_concat]
  | array size => exact absurd rfl (hflat size).1
  | object size => exact absurd rfl (hflat size).2

theorem parseValue_of_isValue (strtod : Strtod) (content : List UInt8) (n : Nat) :
    Parses strtod content n (parseValue strtod content n) := by
  induction n with
  | zero =>
    intro o k t rest hk hstops h
    refine dispatch_of_isValue hk (fun size => ⟨?_, ?_⟩) hstops h
    · rintro rfl
      exact hk
    · rintro rfl
      exact hk
  | succ n ih =>
    intro o k t rest hk hstops h
    cases k with
    | array size =>
      obtain ⟨inner, rfl, hinner⟩ := hk
      rw [List.cons_append, List.append_assoc, List.singleton_append] at h
      rw [parseValue, dispatch_of_head h (by decide) (by decide) (by decide), if_neg (by decide),
        if_neg (by decide), if_pos rfl]
      exact parseArray_of_isValue ih hinner h
    | object size =>
      obtain ⟨inner, rfl, hinner⟩ := hk
      rw [List.cons_append, List.append_assoc, List.singleton_append] at h
      rw [parseValue, dispatch_of_head h (by decide) (by decide) (by decide), if_neg (by decide),
        if_neg (by decide), if_neg (by decide), if_pos rfl]
      exact parseObject_of_isValue ih hinner h
    | null | false | true | number | string =>
      exact dispatch_of_isValue hk (by simp) hstops h

end Accepted

theorem liteCjsonParse_of_isValue {k : Kind} {t : List UInt8}
    (ht : IsValue (lexis strtod) liteCjsonNestingLimit k t) :
    liteCjsonParse strtod t = some (item strtod k t) := by
  obtain ⟨b, s, hcons, hb, -, hbom⟩ := head_of_isValue ht
  have hne : t ≠ [] := by rw [hcons]; exact List.cons_ne_nil b s
  have hskipBom : skipUtf8Bom t = 0 := by
    refine if_neg fun h => hbom ?_
    rw [hcons, List.take_succ_cons] at h
    exact (List.cons.inj h.2).1
  have hskip : bufferSkipWhitespace t 0 = 0 := bufferSkipWhitespace_self hcons hb
  have hvalue := parseValue_of_isValue strtod t liteCjsonNestingLimit 0 k t [] ht
    (fun _ b hb => nomatch hb) (List.append_nil t).symm
  rw [liteCjsonParse, if_neg hne, hskipBom, hskip, hvalue, Option.map_some]

end AliyunIot.Cjson
