import AliyunIot.Infra.CjsonObject
import AliyunIot.Lib.Separated

/-!
# The members of a value

The text of an array or an object that is parsed to the end of the text is a bracket and its
members (`arrayText_of_parsed`, `objectText_of_parsed`). Where the text ends too early, the last
member is cut: it ends with the byte that closes the array or object around it.
-/

namespace AliyunIot.Cjson

open Lib Lib.Json Lib.Separated

/-- A `strtod` that converts every run of number bytes: with it a text is judged by its shape. -/
def anyNumber : Strtod where
  convert s := (s.length, 0)
  converted_le _ := Nat.le_refl _

/-- The value is parsed from its text alone, to the end. -/
def Parsed (strtod : Strtod) (n : Nat) (k : Kind) (t : List UInt8) : Prop :=
  parseValue strtod t n 0 = some (item strtod k t, t.length)

/-- An element that ends with the bracket that closes the array around it. -/
def CutElement (strtod : Strtod) (n : Nat) (e : Element) : Prop :=
  Spaces (lexis strtod) e.before ∧ e.after = [] ∧ Parsed strtod n e.kind e.text ∧
    IsContainer (item strtod e.kind e.text)

def CutMember (strtod : Strtod) (n : Nat) (m : Member) : Prop :=
  Spaces (lexis strtod) m.before ∧ isBody m.key = true ∧ Spaces (lexis strtod) m.after ∧
    CutElement strtod n m.value

def WholeElement (strtod : Strtod) (n : Nat) (e : Element) : Prop :=
  e.Ok (lexis strtod) (IsValue (lexis strtod) n)

def WholeMember (strtod : Strtod) (n : Nat) (m : Member) : Prop :=
  m.Ok (lexis strtod) (IsValue (lexis strtod) n)

def elementItem (strtod : Strtod) (e : Element) : LiteCjson := item strtod e.kind e.text

def memberItems (strtod : Strtod) (m : Member) : LiteCjson × LiteCjson :=
  (keyItem m.key, elementItem strtod m.value)

/-- The text of an array or an object: nothing but spaces between its brackets, or its members
behind the first bracket, up to the last one. -/
def Bracketed {α : Type} (strtod : Strtod) (whole cut : α → Prop) (bytes : α → List UInt8)
    (opening closing : UInt8) (parts : List α) (v : List UInt8) : Prop :=
  (parts = [] ∧ ∃ ws, Spaces (lexis strtod) ws ∧ v = opening :: (ws ++ [closing])) ∨
    parts ≠ [] ∧ v.getLast? = some closing ∧
      ∃ s, v = opening :: s ∧ Closed whole cut bytes closing parts s

def ArrayText (strtod : Strtod) (n : Nat) : List Element → List UInt8 → Prop :=
  Bracketed strtod (WholeElement strtod n) (CutElement strtod n) Element.bytes 91 93

def ObjectText (strtod : Strtod) (n : Nat) : List Member → List UInt8 → Prop :=
  Bracketed strtod (WholeMember strtod n) (CutMember strtod n) Member.bytes 123 125

variable {strtod : Strtod} {content : List UInt8} {o n e : Nat} {lite : LiteCjson}
  {value : Nat → Option (LiteCjson × Nat)}

section Dispatch

theorem end_of_parseString (h : parseString content o = some (lite, e)) :
    e = o + (quote lite.value).length := by
  unfold parseString at h
  split at h
  case isFalse => cases h
  case isTrue =>
    obtain ⟨len, hlen, heq⟩ := Option.map_eq_some_iff.mp h
    obtain ⟨body, rest, hdrop, rfl, -⟩ := isBody_of_inputEnd hlen
    cases heq
    rw [hdrop, List.take_left, length_quote]
    rfl

theorem number_of_parseNumber {b : UInt8} (h : parseNumber strtod content o = some (lite, e))
    (hb : content[o]? = some b) (hstarts : startsNumber b = true) :
    ∃ t, IsNumber anyNumber t ∧ lite.type = .number ∧ content.drop o = t ++ content.drop e ∧
      e = o + t.length := by
  simp only [parseNumber] at h
  split at h
  case isTrue => cases h
  case isFalse hlen =>
    cases h
    obtain ⟨holt, hget⟩ := List.getElem?_eq_some_iff.mp hb
    have hsplit := List.takeWhile_append_dropWhile (p := isNumberByte) (l := content.drop o)
    have hbytes : ∀ c ∈ (content.drop o).takeWhile isNumberByte, isNumberByte c = true :=
      fun c hc => List.mem_takeWhile_imp hc
    obtain ⟨s, hs⟩ : ∃ s, (content.drop o).takeWhile isNumberByte = b :: s := by
      rw [List.drop_eq_getElem_cons holt, hget, List.takeWhile_cons_of_pos]
      · exact ⟨_, rfl⟩
      · exact isNumberByte_of_startsNumber hstarts
    generalize (content.drop o).takeWhile isNumberByte = run at hlen hsplit hbytes hs ⊢
    have hle := strtod.converted_le (run.take numberLen)
    rw [List.length_take] at hle
    generalize (strtod.convert (run.take numberLen)).1 = len at hlen hle ⊢
    have htake : (run.take len).length = len := by
      rw [List.length_take]
      omega
    refine ⟨run.take len, ⟨⟨b, s.take (len - 1), ?_, hstarts⟩,
      fun c hc => hbytes c (List.mem_of_mem_take hc), by omega, rfl⟩, rfl, ?_, by omega⟩
    · obtain ⟨m, rfl⟩ : ∃ m, len = m + 1 := ⟨len - 1, by omega⟩
      rw [hs, List.take_succ_cons, Nat.add_sub_cancel]
    · rw [← List.drop_drop, ← hsplit, List.drop_append_of_le_length (by omega),
        ← List.append_assoc, List.take_append_drop]

theorem dispatch_cases {array object : Nat → Option (LiteCjson × Nat)}
    (h : dispatch strtod content array object o = some (lite, e)) :
    (∃ k t, IsValue (lexis anyNumber) 0 k t ∧ ¬ IsContainer lite ∧
      content.drop o = t ++ content.drop e ∧ e = o + t.length) ∨
    (content[o]? = some 91 ∧ array o = some (lite, e)) ∨
    (content[o]? = some 123 ∧ object o = some (lite, e)) := by
  have hflat : ∀ (type : CjsonType), type ≠ .object → type ≠ .array → lite.type = type →
      ¬ IsContainer lite := fun _ h₁ h₂ heq hc => hc.elim (heq ▸ h₁) (heq ▸ h₂)
  unfold dispatch at h
  split at h
  case isTrue hword =>
    cases h
    exact .inl ⟨.null, _, by rw [IsValue], hflat _ (by decide) (by decide) rfl,
      drop_of_readsWord hword, rfl⟩
  split at h
  case isTrue hword =>
    cases h
    exact .inl ⟨.false, _, by rw [IsValue], hflat _ (by decide) (by decide) rfl,
      drop_of_readsWord hword, rfl⟩
  split at h
  case isTrue hword =>
    cases h
    exact .inl ⟨.true, _, by rw [IsValue], hflat _ (by decide) (by decide) rfl,
      drop_of_readsWord hword, rfl⟩
  split at h
  case h_1 => cases h
  case h_2 b hb =>
    split at h
    case isTrue =>
      obtain ⟨body, hbody, rfl, hdrop, -⟩ := isBody_of_parseString h
      refine .inl ⟨.string, quote body, ?_, hflat .string (by decide) (by decide) rfl,
        hdrop, end_of_parseString h⟩
      rw [IsValue]
      exact ⟨body, hbody, rfl⟩
    split at h
    case isTrue hstarts =>
      obtain ⟨t, ht, htype, hdrop, he⟩ := number_of_parseNumber h hb hstarts
      refine .inl ⟨.number, t, ?_, hflat _ (by decide) (by decide) htype, hdrop, he⟩
      rw [IsValue]
      exact ht
    split at h
    case isTrue hbracket => exact .inr (.inl ⟨by rw [hb, hbracket], h⟩)
    split at h
    case isTrue hbrace => exact .inr (.inr ⟨by rw [hb, hbrace], h⟩)
    cases h

/-- The bracket that a container ends with. -/
def closing (type : CjsonType) : UInt8 := if type = .array then 93 else 125

end Dispatch

/-! ## The loops as readers -/

section Loops

def elementStep (content : List UInt8) (value : Nat → Option (LiteCjson × Nat)) (o : Nat) :
    Option (LiteCjson × Nat) :=
  (value (bufferSkipWhitespace content o)).map fun r => (r.1, bufferSkipWhitespace content r.2)

def memberStep (content : List UInt8) (value : Nat → Option (LiteCjson × Nat)) (o : Nat) :
    Option ((LiteCjson × LiteCjson) × Nat) :=
  (parseMember content value o).map fun r => ((r.1, r.2.1), r.2.2)

theorem value_of_elementStep {x : LiteCjson} {e : Nat}
    (h : elementStep content value o = some (x, e)) :
    ∃ e₀, value (bufferSkipWhitespace content o) = some (x, e₀) ∧
      bufferSkipWhitespace content e₀ = e := by
  obtain ⟨⟨x', e₀⟩, hval, heq⟩ := Option.map_eq_some_iff.mp h
  cases heq
  exact ⟨e₀, hval, rfl⟩

theorem member_of_memberStep {x : LiteCjson × LiteCjson} {e : Nat}
    (h : memberStep content value o = some (x, e)) :
    parseMember content value o = some (x.1, x.2, e) := by
  obtain ⟨⟨key, lite, e'⟩, hmember, heq⟩ := Option.map_eq_some_iff.mp h
  cases heq
  exact hmember

variable {last : Nat}

theorem reads_of_parseElements {rounds size size' : Nat}
    (h : parseElements content value rounds o size = some (size', last)) :
    ∃ xs, Reads content (elementStep content value) o xs last ∧ size' = size + xs.length := by
  induction rounds generalizing o size with
  | zero => cases h
  | succ rounds ih =>
    simp only [parseElements] at h
    obtain ⟨⟨lite, e⟩, hval, h⟩ := Option.bind_eq_some_iff.mp h
    have hstep : elementStep content value o = some (lite, bufferSkipWhitespace content e) := by
      rw [elementStep, hval, Option.map_some]
    split at h
    next hcomma =>
      obtain ⟨xs, hreads, rfl⟩ := ih h
      refine ⟨lite :: xs, .more hstep hcomma hreads, ?_⟩
      rw [List.length_cons]
      omega
    next hend =>
      cases h
      exact ⟨[lite], .last hstep hend, rfl⟩

theorem parseElements_of_reads {xs : List LiteCjson}
    (h : Reads content (elementStep content value) o xs last) (rounds : Nat)
    (hrounds : xs.length ≤ rounds) (size : Nat) :
    parseElements content value rounds o size = some (size + xs.length, last) := by
  induction h generalizing rounds size with
  | last hstep hend =>
    cases rounds with
    | zero => cases hrounds
    | succ rounds =>
      obtain ⟨e₀, hval, rfl⟩ := value_of_elementStep hstep
      simp only [parseElements, hval, Option.bind_some, if_neg hend, List.length_singleton]
  | more hstep hcomma _ ih =>
    cases rounds with
    | zero => cases hrounds
    | succ rounds =>
      obtain ⟨e₀, hval, rfl⟩ := value_of_elementStep hstep
      simp only [parseElements, hval, Option.bind_some, if_pos hcomma,
        ih _ (Nat.le_of_succ_le_succ hrounds), List.length_cons, Option.some.injEq, Prod.mk.injEq,
        and_true]
      omega

/-- How a loop ends that has the members in front of it. -/
def walkEnd (wanted : Nat → LiteCjson → Bool) (last : Nat) :
    Nat → List (LiteCjson × LiteCjson) → Walk
  | index, [] => .ended index last
  | index, x :: xs =>
    if wanted index x.1 then .found x.1 x.2 else walkEnd wanted last (index + 1) xs

theorem reads_of_walkMembers {rounds index size : Nat}
    (h : walkMembers content value (fun _ _ => false) rounds o index = some (.ended size last)) :
    ∃ xs, Reads content (memberStep content value) o xs last ∧ size = index + xs.length := by
  induction rounds generalizing o index with
  | zero => cases h
  | succ rounds ih =>
    simp only [walkMembers] at h
    obtain ⟨⟨key, lite, e⟩, hmember, h⟩ := Option.bind_eq_some_iff.mp h
    have hstep : memberStep content value o = some ((key, lite), e) := by
      rw [memberStep, hmember, Option.map_some]
    simp only [Bool.false_eq_true, if_false] at h
    split at h
    next hcomma =>
      obtain ⟨xs, hreads, rfl⟩ := ih h
      refine ⟨(key, lite) :: xs, .more hstep hcomma hreads, ?_⟩
      rw [List.length_cons]
      omega
    next hend =>
      cases h
      exact ⟨[(key, lite)], .last hstep hend, rfl⟩

theorem walkMembers_of_reads {xs : List (LiteCjson × LiteCjson)}
    (h : Reads content (memberStep content value) o xs last) (rounds : Nat)
    (hrounds : xs.length ≤ rounds) (wanted : Nat → LiteCjson → Bool) (index : Nat) :
    walkMembers content value wanted rounds o index = some (walkEnd wanted last index xs) := by
  induction h generalizing rounds index with
  | last hstep hend =>
    cases rounds with
    | zero => cases hrounds
    | succ rounds =>
      simp only [walkMembers, member_of_memberStep hstep, Option.bind_some, if_neg hend, walkEnd]
      split <;> rfl
  | more hstep hcomma _ ih =>
    cases rounds with
    | zero => cases hrounds
    | succ rounds =>
      simp only [walkMembers, member_of_memberStep hstep, Option.bind_some, if_pos hcomma,
        ih _ (Nat.le_of_succ_le_succ hrounds), walkEnd]
      split <;> rfl

theorem walkEnd_false (last : Nat) (index : Nat) (xs : List (LiteCjson × LiteCjson)) :
    walkEnd (fun _ _ => false) last index xs = .ended (index + xs.length) last := by
  induction xs generalizing index with
  | nil => rfl
  | cons x xs ih =>
    rw [walkEnd, if_neg (by decide), ih, List.length_cons]
    congr 1
    omega

end Loops

/-! ## Where a value ends -/

section Ends

theorem parseArray_cases (h : parseArray content value o = some (lite, e)) :
    ∃ last xs, e = last + 1 ∧ content[last]? = some 93 ∧
      lite = ⟨.array, (content.drop o).take (last - o + 1), xs.length, 0⟩ ∧
      ((last = bufferSkipWhitespace content (o + 1) ∧ xs = []) ∨
        Reads content (elementStep content value) (bufferSkipWhitespace content (o + 1)) xs
          last) := by
  simp only [parseArray] at h
  split at h
  next hempty =>
    cases h
    exact ⟨_, [], rfl, hempty, rfl, .inl ⟨rfl, rfl⟩⟩
  next =>
    obtain ⟨⟨size, last⟩, hloop, h⟩ := Option.bind_eq_some_iff.mp h
    obtain ⟨xs, hreads, hsize⟩ := reads_of_parseElements hloop
    split at h
    next hlast =>
      cases h
      exact ⟨_, xs, rfl, hlast, by rw [hsize, Nat.zero_add], .inr hreads⟩
    next => cases h

theorem parseObject_cases (h : parseObject content value o = some (lite, e)) :
    ∃ last xs, e = last + 1 ∧ content[last]? = some 125 ∧
      lite = ⟨.object, (content.drop o).take (last - o + 1), xs.length, 0⟩ ∧
      ((last = bufferSkipWhitespace content (o + 1) ∧ xs = []) ∨
        Reads content (memberStep content value) (bufferSkipWhitespace content (o + 1)) xs
          last) := by
  simp only [parseObject] at h
  split at h
  next hempty =>
    cases h
    exact ⟨_, [], rfl, hempty, rfl, .inl ⟨rfl, rfl⟩⟩
  next =>
    split at h
    case h_2 => cases h
    case h_1 size last hloop =>
      obtain ⟨xs, hreads, hsize⟩ := reads_of_walkMembers hloop
      split at h
      next hlast =>
        cases h
        exact ⟨_, xs, rfl, hlast, by rw [hsize, Nat.zero_add], .inr hreads⟩
      next => cases h

theorem parseValue_cases (h : parseValue strtod content n o = some (lite, e)) :
    (¬ IsContainer lite ∧ ∃ k t, IsValue (lexis anyNumber) 0 k t ∧
      content.drop o = t ++ content.drop e ∧ e = o + t.length) ∨
    ∃ last size, e = last + 1 ∧ content[last]? = some (closing lite.type) ∧ IsContainer lite ∧
      lite = ⟨lite.type, (content.drop o).take (e - o), size, 0⟩ := by
  obtain ⟨hlt, -⟩ := advances_parseValue strtod content n o lite e h
  obtain ⟨array, object, harray, hobject, h⟩ :
      ∃ array object, (array o = some (lite, e) → ∃ value, parseArray content value o =
          some (lite, e)) ∧
        (object o = some (lite, e) → ∃ value, parseObject content value o = some (lite, e)) ∧
        dispatch strtod content array object o = some (lite, e) := by
    cases n with
    | zero =>
      refine ⟨fun _ => none, fun _ => none, ?_, ?_, h⟩
      · intro h
        cases h
      · intro h
        cases h
    | succ n => exact ⟨_, _, fun h => ⟨_, h⟩, fun h => ⟨_, h⟩, h⟩
  rcases dispatch_cases h with ⟨k, t, hk, hflat, hdrop, he⟩ | ⟨-, h⟩ | ⟨-, h⟩
  · exact .inl ⟨hflat, k, t, hk, hdrop, he⟩
  · obtain ⟨_, h⟩ := harray h
    obtain ⟨last, xs, rfl, hlast, rfl, -⟩ := parseArray_cases h
    have hlen : last - o + 1 = last + 1 - o := by omega
    exact .inr ⟨last, xs.length, rfl, hlast, .inr rfl, by rw [hlen]⟩
  · obtain ⟨_, h⟩ := hobject h
    obtain ⟨last, xs, rfl, hlast, rfl, -⟩ := parseObject_cases h
    have hlen : last - o + 1 = last + 1 - o := by omega
    exact .inr ⟨last, xs.length, rfl, hlast, .inl rfl, by rw [hlen]⟩

theorem end_le_length (h : parseValue strtod content n o = some (lite, e)) :
    e ≤ content.length := by
  rcases parseValue_cases h with ⟨-, k, t, hk, hdrop, he⟩ | ⟨last, size, rfl, hlast, -⟩
  · have hpos := length_pos_of_isValue hk
    have hlen := congrArg List.length hdrop
    rw [List.length_drop, List.length_append, List.length_drop] at hlen
    omega
  · exact lt_of_getElem? hlast

theorem getLast?_of_flat {k : Kind} {t : List UInt8} {b : UInt8}
    (hk : IsValue (lexis anyNumber) 0 k t) (hb : t.getLast? = some b) : b ≠ 93 ∧ b ≠ 125 := by
  cases k with
  | null | false | true =>
    rw [IsValue] at hk
    subst hk
    cases hb
    decide
  | number =>
    rw [IsValue] at hk
    have hnum := hk.bytes b (List.mem_of_getLast? hb)
    constructor
    · rintro rfl
      cases hnum
    · rintro rfl
      cases hnum
  | string =>
    rw [IsValue] at hk
    obtain ⟨body, -, rfl⟩ := hk
    rw [quote, ← List.cons_append, List.getLast?_concat] at hb
    cases hb
    decide
  | array size => exact hk.elim
  | object size => exact hk.elim

theorem getLast?_drop {s : List UInt8} (h : content.drop o = s) (hne : s ≠ []) :
    s.getLast? = content[content.length - 1]? := by
  have hpos := List.length_pos_iff.mpr hne
  have hlen := congrArg List.length h
  rw [List.length_drop] at hlen
  rw [List.getLast?_eq_getElem?, ← h, List.getElem?_drop, List.length_drop]
  congr 1
  omega

theorem isContainer_of_end (h : parseValue strtod content n o = some (lite, content.length))
    {b : UInt8} (hb : content[content.length - 1]? = some b) (hbracket : b = 93 ∨ b = 125) :
    IsContainer lite ∧ b = closing lite.type := by
  rcases parseValue_cases h with ⟨-, k, t, hk, hdrop, he⟩ | ⟨last, size, he, hlast, hc, -⟩
  · rw [List.drop_length, List.append_nil] at hdrop
    have hne : t ≠ [] := List.length_pos_iff.mp (length_pos_of_isValue hk)
    rw [← getLast?_drop hdrop hne] at hb
    obtain ⟨h₁, h₂⟩ := getLast?_of_flat hk hb
    exact absurd hbracket (by simp [h₁, h₂])
  · rw [he, Nat.add_sub_cancel, hlast] at hb
    exact ⟨hc, (Option.some.inj hb).symm⟩

end Ends

/-! ## A round and the bytes of a member -/

section Rounds

theorem parsed_of_end (h : parseValue strtod content n o = some (lite, content.length))
    (hc : IsContainer lite) :
    ∃ k, item strtod k (content.drop o) = lite ∧ Parsed strtod n k (content.drop o) := by
  obtain ⟨hgo, -⟩ := advances_parseValue strtod content n o lite _ h
  have hne : content.drop o ≠ [] := List.length_pos_iff.mp (by rw [List.length_drop]; omega)
  have htake : (content.take o).length = o := List.length_take_of_le (by omega)
  have hbehind := parseValue_behind strtod (content.take o) hne n 0
  rw [List.take_append_drop, htake, Nat.add_zero, h] at hbehind
  obtain ⟨⟨lite', e'⟩, hval, heq⟩ := Option.map_eq_some_iff.mp hbehind.symm
  simp only [moved, Prod.mk.injEq] at heq
  obtain ⟨rfl, hend⟩ := heq
  have he' : e' = (content.drop o).length := by
    rw [List.length_drop]
    omega
  subst he'
  rcases parseValue_cases h with ⟨hflat, -⟩ | ⟨last, size, -, -, -, heq⟩
  · exact absurd hc hflat
  rw [List.take_of_length_le (by rw [List.length_drop])] at heq
  have hkind : ∃ k, item strtod k (content.drop o) = lite' := by
    rcases hc with htype | htype
    · exact ⟨.object size, by rw [heq, htype]; rfl⟩
    · exact ⟨.array size, by rw [heq, htype]; rfl⟩
  obtain ⟨k, rfl⟩ := hkind
  exact ⟨k, rfl, hval⟩

theorem isValue_of_container (h : parseValue strtod content (n + 1) o = some (lite, e))
    (hc : IsContainer lite) (hlt : e < content.length) :
    ∃ k t, IsValue (lexis strtod) (n + 1) k t ∧ lite = item strtod k t ∧
      content.drop o = t ++ content.drop e := by
  rcases dispatch_cases h with ⟨_, _, -, hflat, -⟩ | ⟨hfirst, h⟩ | ⟨hfirst, h⟩
  · exact absurd hc hflat
  · exact isValue_of_parseArray (isValue_of_parseValue strtod content n) h hfirst hlt
  · exact isValue_of_parseObject (isValue_of_parseValue strtod content n) h hfirst hlt

theorem parsed_of_isValue {k : Kind} {t : List UInt8} (h : IsValue (lexis strtod) n k t) :
    Parsed strtod n k t := by
  have hval := parseValue_of_isValue strtod t n 0 k t [] h (fun _ b hb => nomatch hb)
    (List.append_nil t).symm
  rwa [Nat.zero_add] at hval

theorem Parsed.succ {k : Kind} {t : List UInt8} (h : Parsed strtod n k t) :
    Parsed strtod (n + 1) k t := parseValue_succ strtod t n _ _ h

theorem CutElement.succ {el : Element} (h : CutElement strtod n el) :
    CutElement strtod (n + 1) el := ⟨h.1, h.2.1, h.2.2.1.succ, h.2.2.2⟩

theorem CutMember.succ {m : Member} (h : CutMember strtod n m) : CutMember strtod (n + 1) m :=
  ⟨h.1, h.2.1, h.2.2.1, h.2.2.2.succ⟩

theorem parsed_of_container (h : parseValue strtod content (n + 1) o = some (lite, e))
    (hc : IsContainer lite) : ∃ k t, item strtod k t = lite ∧ Parsed strtod (n + 1) k t := by
  by_cases hlt : e < content.length
  · obtain ⟨k, t, hk, rfl, -⟩ := isValue_of_container h hc hlt
    exact ⟨k, t, rfl, parsed_of_isValue hk⟩
  · obtain rfl : e = content.length := by
      have hle := end_le_length h
      omega
    obtain ⟨k, rfl, hparsed⟩ := parsed_of_end h hc
    exact ⟨k, _, rfl, hparsed⟩

theorem dispatch_of_parseValue (h : parseValue strtod content n o = some (lite, e)) :
    ∃ array object, dispatch strtod content array object o = some (lite, e) := by
  cases n with
  | zero => exact ⟨_, _, h⟩
  | succ n => exact ⟨_, _, h⟩

theorem head_of_parsed {k : Kind} {t : List UInt8} (h : Parsed strtod n k t) :
    ∃ b s, t = b :: s ∧ isSpace b = false ∧ b ≠ 0xEF := by
  obtain ⟨_, _, hdispatch⟩ := dispatch_of_parseValue h
  rcases dispatch_cases hdispatch with ⟨k', t', hk, -, hdrop, -⟩ | ⟨hfirst, -⟩ | ⟨hfirst, -⟩
  · obtain ⟨b, s, rfl, hb, -, hbom⟩ := head_of_isValue hk
    rw [List.drop_length, List.append_nil] at hdrop
    exact ⟨b, s, hdrop, hb, hbom⟩
  · cases t with
    | nil => cases hfirst
    | cons b s =>
      cases hfirst
      exact ⟨91, s, rfl, rfl, by decide⟩
  · cases t with
    | nil => cases hfirst
    | cons b s =>
      cases hfirst
      exact ⟨123, s, rfl, rfl, by decide⟩

theorem whole_of_elementStep
    (h : elementStep content (parseValue strtod content n) o = some (lite, e)) {b : UInt8}
    (hb : content[e]? = some b) (hends : Ends b) (hlt : e + 1 < content.length) :
    ∃ el : Element, WholeElement strtod n el ∧ elementItem strtod el = lite ∧
      content.drop o = el.bytes ++ content.drop e := by
  obtain ⟨⟨lite', e₀⟩, hval, heq⟩ := Option.map_eq_some_iff.mp h
  cases heq
  obtain ⟨el, hel, rfl, hdrop⟩ :=
    element_of_value (isValue_of_parseValue strtod content n) hval hb hends hlt
  exact ⟨el, hel, rfl, hdrop⟩

theorem last_of_elementStep (ho : o < content.length)
    (h : elementStep content (parseValue strtod content n) o = some (lite, e)) {b : UInt8}
    (hb : content[e]? = some b) (hbracket : b = 93 ∨ b = 125) (hend : e + 1 = content.length) :
    (∃ el : Element, WholeElement strtod n el ∧ elementItem strtod el = lite ∧
      content.drop o = el.bytes ++ [b]) ∨
    ∃ el : Element, CutElement strtod n el ∧ elementItem strtod el = lite ∧
      content.drop o = el.bytes := by
  have hends : Ends b := by
    rcases hbracket with rfl | rfl
    · exact ⟨rfl, rfl⟩
    · exact ⟨rfl, rfl⟩
  obtain ⟨⟨lite', e₀⟩, hval, heq⟩ := Option.map_eq_some_iff.mp h
  cases heq
  obtain ⟨-, c, hc, hns, -⟩ := advances_parseValue strtod content n _ _ _ hval
  obtain ⟨before, hbefore, hdropO, -⟩ := drop_of_skip ho hc hns
  have hstart : content.drop o = before ++ content.drop (bufferSkipWhitespace content o) := by
    obtain ⟨hlt, hget⟩ := List.getElem?_eq_some_iff.mp hc
    rw [List.drop_eq_getElem_cons hlt, hget]
    exact hdropO
  have hle := end_le_length hval
  by_cases he₀ : e₀ < content.length
  · left
    obtain ⟨after, hafter, hdropE, -⟩ := drop_of_skip he₀ hb hends.1
    obtain ⟨k, t, hk, rfl, hdropT⟩ := isValue_of_parseValue strtod content n _ _ _ _ hval
      (List.getElem?_eq_getElem he₀)
      (isNumberByte_behind hafter hends hdropE (List.getElem?_eq_getElem he₀))
    refine ⟨⟨before, k, t, after⟩, ⟨hbefore, hk, hafter⟩, rfl, ?_⟩
    rw [hstart, hdropT, hdropE, List.drop_of_length_le (Nat.le_of_eq hend.symm), Element.bytes]
    simp only [List.append_assoc]
  · right
    obtain rfl : e₀ = content.length := by omega
    have hlast : content[content.length - 1]? = some b := by
      rw [← hb]
      congr 1
      omega
    have hcont := (isContainer_of_end hval hlast hbracket).1
    obtain ⟨k, rfl, hparsed⟩ := parsed_of_end hval hcont
    refine ⟨⟨before, k, _, []⟩, ⟨hbefore, rfl, hparsed, hcont⟩, rfl, ?_⟩
    rw [Element.bytes, List.append_nil]
    exact hstart

theorem key_of_memberStep (strtod : Strtod) {key : LiteCjson} (ho : o < content.length)
    (h : memberStep content value o = some ((key, lite), e))
    (hlast : content[content.length - 1]? ≠ some 58) :
    ∃ before body after colon, Spaces (lexis strtod) before ∧ isBody body = true ∧
      Spaces (lexis strtod) after ∧ key = keyItem body ∧ colon < content.length ∧
      content.drop o = before ++ (quote body ++ (after ++ 58 :: content.drop colon)) ∧
      elementStep content value colon = some (lite, e) := by
  obtain ⟨⟨key', lite', e'⟩, hmember, heq⟩ := Option.map_eq_some_iff.mp h
  cases heq
  simp only [parseMember] at hmember
  obtain ⟨⟨key', e₀⟩, hkey, hmember⟩ := Option.bind_eq_some_iff.mp hmember
  simp only at hmember
  split at hmember
  case isFalse => cases hmember
  case isTrue hcolon =>
    obtain ⟨⟨lite', e₁⟩, hval, heq⟩ := Option.map_eq_some_iff.mp hmember
    simp only [Prod.mk.injEq] at heq
    obtain ⟨rfl, rfl, rfl⟩ := heq
    obtain ⟨hcolonLt, hget⟩ := List.getElem?_eq_some_iff.mp hcolon
    have hnotLast : bufferSkipWhitespace content e₀ ≠ content.length - 1 := fun heq =>
      hlast (by rw [← heq]; exact hcolon)
    obtain ⟨body, hbody, rfl, hdropKey, -⟩ := isBody_of_parseString hkey
    have he₀ : e₀ < content.length := by
      have h₁ := le_skip_succ content e₀
      have hlen := congrArg List.length hdropKey
      have hquote := length_quote body
      have hstop : ∀ m, content.length ≤ m → (List.takeWhile isSpace (content.drop m)) = [] :=
        fun m hm => by rw [List.drop_of_length_le hm, List.takeWhile_nil]
      by_contra hge
      have hskip : bufferSkipWhitespace content e₀ = e₀ ∨
          bufferSkipWhitespace content e₀ = content.length - 1 := by
        simp only [bufferSkipWhitespace, hstop e₀ (by omega), List.length_nil, Nat.add_zero]
        split
        next heq => exact .inr (by rw [heq])
        next => exact .inl rfl
      omega
    obtain ⟨after, hafter, hdropColon, -⟩ := drop_of_skip he₀ hcolon rfl
    have hquoteAt : content[bufferSkipWhitespace content o]? = some 34 := getElem?_of_drop hdropKey
    obtain ⟨before, hbefore, hdropO, -⟩ := drop_of_skip ho hquoteAt rfl
    refine ⟨before, body, after, _, hbefore, hbody, hafter, rfl,
      show bufferSkipWhitespace content e₀ + 1 < content.length by omega, ?_, ?_⟩
    · obtain ⟨hquoteLt, hquote⟩ := List.getElem?_eq_some_iff.mp hquoteAt
      rw [← hdropColon, ← hdropKey, hdropO, List.drop_eq_getElem_cons hquoteLt, hquote]
    · rw [elementStep, hval, Option.map_some]

theorem whole_of_memberStep {key : LiteCjson}
    (h : memberStep content (parseValue strtod content n) o = some ((key, lite), e)) {b : UInt8}
    (hb : content[e]? = some b) (hends : Ends b) (hlt : e + 1 < content.length) :
    ∃ m : Member, WholeMember strtod n m ∧ memberItems strtod m = (key, lite) ∧
      content.drop o = m.bytes ++ content.drop e := by
  obtain ⟨⟨key', lite', e'⟩, hmember, heq⟩ := Option.map_eq_some_iff.mp h
  cases heq
  obtain ⟨m, hm, rfl, rfl, hdrop⟩ :=
    member_of_parseMember (isValue_of_parseValue strtod content n) hmember hb hends hlt
  exact ⟨m, hm, rfl, hdrop⟩

theorem last_of_memberStep {key : LiteCjson} (ho : o < content.length)
    (h : memberStep content (parseValue strtod content n) o = some ((key, lite), e)) {b : UInt8}
    (hb : content[e]? = some b) (hbracket : b = 93 ∨ b = 125) (hend : e + 1 = content.length) :
    (∃ m : Member, WholeMember strtod n m ∧ memberItems strtod m = (key, lite) ∧
      content.drop o = m.bytes ++ [b]) ∨
    ∃ m : Member, CutMember strtod n m ∧ memberItems strtod m = (key, lite) ∧
      content.drop o = m.bytes := by
  have hlast : content[content.length - 1]? ≠ some 58 := by
    have hindex : content.length - 1 = e := by omega
    rw [hindex, hb]
    rcases hbracket with rfl | rfl
    · decide
    · decide
  obtain ⟨before, body, after, colon, hbefore, hbody, hafter, rfl, hcolon, hdrop, hstep⟩ :=
    key_of_memberStep strtod ho h hlast
  rcases last_of_elementStep hcolon hstep hb hbracket hend with
    ⟨el, hel, rfl, hdropEl⟩ | ⟨el, hel, rfl, hdropEl⟩
  · refine .inl ⟨⟨before, body, after, el⟩, ⟨hbefore, hbody, hafter, hel⟩, rfl, ?_⟩
    rw [hdrop, hdropEl, Member.bytes]
    simp only [List.append_assoc, List.cons_append]
  · refine .inr ⟨⟨before, body, after, el⟩, ⟨hbefore, hbody, hafter, hel⟩, rfl, ?_⟩
    rw [hdrop, hdropEl, Member.bytes]

/-! The other way round: from the bytes to the round. -/

theorem elementStep_of_whole {el : Element} {c : UInt8} {rest : List UInt8}
    (hel : WholeElement strtod n el) (hc : Ends c) (h : content.drop o = el.bytes ++ c :: rest) :
    elementStep content (parseValue strtod content n) o =
      some (elementItem strtod el, o + el.bytes.length) := by
  obtain ⟨e, hval, hskip, -⟩ :=
    parse_element (parseValue_of_isValue strtod content n) hel hc h
  rw [elementStep, hval, Option.map_some, hskip]
  rfl

theorem skip_length (content : List UInt8) :
    bufferSkipWhitespace content content.length = content.length - 1 := by
  simp [bufferSkipWhitespace]

theorem elementStep_of_cut {el : Element} (hel : CutElement strtod n el)
    (h : content.drop o = el.bytes) :
    elementStep content (parseValue strtod content n) o =
      some (elementItem strtod el, content.length - 1) := by
  obtain ⟨hbefore, hafter, hparsed, -⟩ := hel
  obtain ⟨b, s, htext, hns, -⟩ := head_of_parsed hparsed
  rw [Element.bytes, hafter, List.append_nil] at h
  have hfirst : content.drop o = el.before ++ b :: s := by rw [h, htext]
  have hne : el.text ≠ [] := by
    rw [htext]
    exact List.cons_ne_nil b s
  have hat := drop_add_of_drop h
  have hlen := congrArg List.length hat
  have hpos := List.length_pos_iff.mpr hne
  rw [List.length_drop] at hlen
  have htake : (content.take (o + el.before.length)).length = o + el.before.length :=
    List.length_take_of_le (by omega)
  have hbehind := parseValue_behind strtod (content.take (o + el.before.length)) hne n 0
  conv at hbehind =>
    lhs
    rw [← hat, List.take_append_drop, htake, Nat.add_zero]
  have hend : (content.take (o + el.before.length)).length + el.text.length = content.length := by
    omega
  rw [hparsed, Option.map_some, moved, hend] at hbehind
  rw [elementStep, bufferSkipWhitespace_eq hfirst hbefore hns, hbehind, Option.map_some,
    skip_length]
  rfl

theorem memberStep_of_whole {m : Member} {c : UInt8} {rest : List UInt8}
    (hm : WholeMember strtod n m) (hc : Ends c) (h : content.drop o = m.bytes ++ c :: rest) :
    memberStep content (parseValue strtod content n) o =
      some (memberItems strtod m, o + m.bytes.length) := by
  obtain ⟨hmember, -⟩ := parse_member (parseValue_of_isValue strtod content n) hm hc h
  rw [memberStep, hmember]
  rfl

theorem memberStep_of_cut {m : Member} (hm : CutMember strtod n m) (h : content.drop o = m.bytes) :
    memberStep content (parseValue strtod content n) o =
      some (memberItems strtod m, content.length - 1) := by
  obtain ⟨hbefore, hkey, hafter, hel⟩ := hm
  have hskip : bufferSkipWhitespace content o = o + m.before.length :=
    bufferSkipWhitespace_eq h hbefore rfl
  have hkeyAt := drop_add_of_drop h
  have hafterAt := drop_add_of_drop hkeyAt
  have hcolon := bufferSkipWhitespace_eq hafterAt hafter rfl
  have hcolonAt := drop_add_of_drop hafterAt
  have hvalueAt := drop_add_of_drop (s := [58]) hcolonAt
  obtain ⟨⟨lite, e⟩, hval, heq⟩ := Option.map_eq_some_iff.mp (elementStep_of_cut hel hvalueAt)
  simp only [Prod.mk.injEq] at heq
  obtain ⟨rfl, heq⟩ := heq
  rw [List.length_singleton] at hval
  simp only [memberStep, parseMember, hskip, parseString_of_isBody hkey hkeyAt, Option.bind_some,
    hcolon, getElem?_of_drop hcolonAt, if_true, hval, Option.map_some, heq, memberItems]

end Rounds

/-! ## Arrays and objects -/

section Brackets

theorem skip_of_last (strtod : Strtod) (ho : o < content.length) {b : UInt8}
    (hb : content[content.length - 1]? = some b) (hns : isSpace b = false) :
    ∃ ws c rest, Spaces (lexis strtod) ws ∧ isSpace c = false ∧ content.drop o = ws ++ c :: rest ∧
      bufferSkipWhitespace content o = o + ws.length := by
  have hne : content.drop o ≠ [] := List.length_pos_iff.mp (by rw [List.length_drop]; omega)
  have hsplit := List.takeWhile_append_dropWhile (p := isSpace) (l := content.drop o)
  have hws : ∀ c ∈ (content.drop o).takeWhile isSpace, isSpace c = true :=
    fun c hc => List.mem_takeWhile_imp hc
  have hlast := getLast?_drop (o := o) rfl hne
  rw [hb] at hlast
  cases hrest : (content.drop o).dropWhile isSpace with
  | nil =>
    rw [hrest, List.append_nil] at hsplit
    rw [← hsplit] at hlast
    rw [hws b (List.mem_of_getLast? hlast)] at hns
    cases hns
  | cons c rest =>
    rw [hrest] at hsplit
    have hc : isSpace c = false := by
      have hhead := List.head_dropWhile_not isSpace (l := content.drop o) (by rw [hrest]; simp)
      simpa [hrest] using hhead
    exact ⟨_, c, rest, hws, hc, hsplit.symm, bufferSkipWhitespace_eq hsplit.symm hws hc⟩

theorem skip_idem_of_last (ho : o < content.length) {b : UInt8}
    (hb : content[content.length - 1]? = some b) (hns : isSpace b = false) :
    bufferSkipWhitespace content (bufferSkipWhitespace content o) =
      bufferSkipWhitespace content o := by
  obtain ⟨ws, c, rest, hws, hc, hdrop, -⟩ := skip_of_last anyNumber ho hb hns
  exact bufferSkipWhitespace_idem hdrop hws hc

theorem reads_congr {β : Type} {step : Nat → Option (β × Nat)} {o o' last : Nat} {xs : List β}
    (hstep : step o = step o') (h : Reads content step o xs last) :
    Reads content step o' xs last := by
  cases h with
  | last hx hend => exact .last (hstep ▸ hx) hend
  | more hx hcomma hrest => exact .more (hstep ▸ hx) hcomma hrest

theorem elementStep_skip (h : bufferSkipWhitespace content (bufferSkipWhitespace content o) =
      bufferSkipWhitespace content o) :
    elementStep content value (bufferSkipWhitespace content o) = elementStep content value o := by
  rw [elementStep, h]
  rfl

theorem memberStep_skip (h : bufferSkipWhitespace content (bufferSkipWhitespace content o) =
      bufferSkipWhitespace content o) :
    memberStep content value (bufferSkipWhitespace content o) = memberStep content value o := by
  rw [memberStep, parseMember, h]
  rfl

variable {α β : Type} {whole cut : α → Prop} {bytes : α → List UInt8}
  {step : Nat → Option (β × Nat)} {opening closing : UInt8} {v : List UInt8}

theorem bracketed_of_reads (strtod : Strtod) (tell : α → β) (hclosing : closing ≠ 44)
    (hns : isSpace closing = false) (hne : opening ≠ closing)
    (hskip : bufferSkipWhitespace v (bufferSkipWhitespace v 1) = bufferSkipWhitespace v 1 →
      step (bufferSkipWhitespace v 1) = step 1)
    (hstep : ∀ o x e c, o < v.length → step o = some (x, e) → v[e]? = some c →
      (c = 44 ∨ c = closing) → e + 1 < v.length →
      ∃ a, whole a ∧ tell a = x ∧ v.drop o = bytes a ++ v.drop e)
    (hlast : ∀ o x e, o < v.length → step o = some (x, e) → v[e]? = some closing →
      e + 1 = v.length →
      (∃ a, whole a ∧ tell a = x ∧ v.drop o = bytes a ++ [closing]) ∨
        ∃ a, cut a ∧ tell a = x ∧ v.drop o = bytes a)
    (hfirst : v[0]? = some opening) {last : Nat} (hb : v[last]? = some closing)
    (hend : last + 1 = v.length) {xs : List β} (h : (last = bufferSkipWhitespace v 1 ∧ xs = []) ∨
      Reads v step (bufferSkipWhitespace v 1) xs last) :
    ∃ parts, parts.map tell = xs ∧ Bracketed strtod whole cut bytes opening closing parts v := by
  have hindex : v.length - 1 = last := by omega
  have hb' : v[v.length - 1]? = some closing := by rw [hindex, hb]
  have hlen : 1 < v.length := by
    have hlast0 : last ≠ 0 := by
      rintro rfl
      rw [hfirst] at hb
      exact hne (Option.some.inj hb)
    omega
  have hsplit : v = opening :: v.drop 1 := by
    cases v with
    | nil => cases hfirst
    | cons b s =>
      cases hfirst
      rfl
  rcases h with ⟨hempty, rfl⟩ | h
  · obtain ⟨ws, hws, hdrop, -⟩ := drop_of_skip hlen (hempty ▸ hb) hns
    refine ⟨[], rfl, .inl ⟨rfl, ws, hws, ?_⟩⟩
    rw [← hempty, List.drop_of_length_le (Nat.le_of_eq hend.symm)] at hdrop
    rw [← hdrop]
    exact hsplit
  · have hreads := reads_congr (hskip (skip_idem_of_last hlen hb' hns)) h
    obtain ⟨parts, rfl, hclosed⟩ := parts_of_reads hclosing hstep hlast hreads hlen hb hend
    refine ⟨parts, rfl, .inr ⟨?_, ?_, _, hsplit, hclosed⟩⟩
    · rintro rfl
      exact hreads.ne_nil rfl
    · rw [List.getLast?_eq_getElem?, hb']

theorem reads_of_bracketed {tell : α → β} (hclosing : closing ≠ 44) (hns : isSpace closing = false)
    (hskip : bufferSkipWhitespace v (bufferSkipWhitespace v 1) = bufferSkipWhitespace v 1 →
      step (bufferSkipWhitespace v 1) = step 1)
    (hstep : ∀ a o c rest, whole a → (c = 44 ∨ c = closing) → v.drop o = bytes a ++ c :: rest →
      step o = some (tell a, o + (bytes a).length))
    (hlast : ∀ a o, cut a → v.drop o = bytes a → step o = some (tell a, v.length - 1))
    (hbytes : ∀ a, whole a ∨ cut a → bytes a ≠ []) {parts : List α} (hne : parts ≠ [])
    (h : Bracketed strtod whole cut bytes opening closing parts v) :
    Reads v step (bufferSkipWhitespace v 1) (parts.map tell) (v.length - 1) ∧
      bufferSkipWhitespace v (bufferSkipWhitespace v 1) = bufferSkipWhitespace v 1 ∧
      v[v.length - 1]? = some closing ∧ parts.length + 1 ≤ v.length := by
  rcases h with ⟨hnil, -⟩ | ⟨-, hlastByte, s, rfl, hclosed⟩
  · exact absurd hnil hne
  rw [List.getLast?_eq_getElem?] at hlastByte
  have hle : parts.length ≤ s.length := by
    have hall : ∀ a ∈ parts, bytes a ≠ [] := by
      rcases hclosed with ⟨hparts, -⟩ | ⟨init, a, rfl, hinit, hcut, -⟩
      · exact fun a ha => hbytes a (.inl (hparts a ha))
      · intro b hb
        rcases List.mem_append.mp hb with hb | hb
        · exact hbytes b (.inl (hinit b hb))
        · rw [List.mem_singleton.mp hb]
          exact hbytes a (.inr hcut)
    have hjoined := length_le_joined bytes hall
    rcases hclosed with ⟨-, rfl⟩ | ⟨_, _, -, -, -, rfl⟩
    · rw [List.length_append]
      omega
    · exact hjoined
  have hpos := List.length_pos_iff.mpr hne
  have hlen : 1 < (opening :: s).length := by
    rw [List.length_cons]
    omega
  have hreads : Reads (opening :: s) step 1 (parts.map tell) ((opening :: s).length - 1) :=
    reads_of_parts hclosing hstep hlast hlastByte hne hclosed
  have hidem := skip_idem_of_last hlen hlastByte hns
  refine ⟨reads_congr (hskip hidem).symm hreads, hidem, hlastByte, ?_⟩
  rw [List.length_cons]
  omega

end Brackets

section Containers

variable {v : List UInt8} {es : List Element} {ms : List Member}

theorem bytes_ne_nil_of_cut {el : Element} (h : CutElement strtod n el) : el.bytes ≠ [] := by
  obtain ⟨b, s, htext, -⟩ := head_of_parsed h.2.2.1
  rw [Element.bytes, htext]
  simp

theorem ends_of_comma_or {c b : UInt8} (h : c = 44 ∨ c = b) (hb : Ends b) : Ends c := by
  rcases h with rfl | rfl
  · exact ends_comma
  · exact hb

theorem arrayText_of_parsed (h : parseValue strtod v (n + 1) 0 = some (lite, v.length))
    (htype : lite.type = .array) :
    ∃ es, ArrayText strtod n es v ∧ lite = ⟨.array, v, es.length, 0⟩ := by
  rcases dispatch_cases h with ⟨k, t, -, hflat, -⟩ | ⟨hfirst, h⟩ | ⟨-, h⟩
  · exact absurd (.inr htype) hflat
  · obtain ⟨last, xs, hend, hlast, rfl, hread⟩ := parseArray_cases h
    have hfull : (v.drop 0).take (last - 0 + 1) = v := by
      rw [List.drop_zero]
      exact List.take_of_length_le (by omega)
    obtain ⟨es, rfl, htext⟩ := bracketed_of_reads strtod (elementItem strtod)
      (by decide) rfl (by decide) (fun h => elementStep_skip h)
      (fun o x e c ho hx hc hor hlt =>
        whole_of_elementStep hx hc (ends_of_comma_or hor ⟨rfl, rfl⟩) hlt)
      (fun o x e ho hx hc hend => last_of_elementStep ho hx hc (.inl rfl) hend)
      hfirst hlast hend.symm hread
    exact ⟨es, htext, by rw [hfull, List.length_map]⟩
  · obtain ⟨_, _, -, -, rfl, -⟩ := parseObject_cases h
    cases htype

theorem objectText_of_parsed (h : parseValue strtod v (n + 1) 0 = some (lite, v.length))
    (htype : lite.type = .object) :
    ∃ ms, ObjectText strtod n ms v ∧ lite = ⟨.object, v, ms.length, 0⟩ := by
  rcases dispatch_cases h with ⟨k, t, -, hflat, -⟩ | ⟨-, h⟩ | ⟨hfirst, h⟩
  · exact absurd (.inl htype) hflat
  · obtain ⟨_, _, -, -, rfl, -⟩ := parseArray_cases h
    cases htype
  · obtain ⟨last, xs, hend, hlast, rfl, hread⟩ := parseObject_cases h
    have hfull : (v.drop 0).take (last - 0 + 1) = v := by
      rw [List.drop_zero]
      exact List.take_of_length_le (by omega)
    obtain ⟨ms, rfl, htext⟩ := bracketed_of_reads strtod (memberItems strtod)
      (by decide) rfl (by decide) (fun h => memberStep_skip h)
      (fun o x e c ho hx hc hor hlt =>
        whole_of_memberStep hx hc (ends_of_comma_or hor ⟨rfl, rfl⟩) hlt)
      (fun o x e ho hx hc hend => last_of_memberStep ho hx hc (.inr rfl) hend)
      hfirst hlast hend.symm hread
    exact ⟨ms, htext, by rw [hfull, List.length_map]⟩

theorem reads_of_arrayText (h : ArrayText strtod n es v) (hne : es ≠ []) :
    Reads v (elementStep v (parseValue strtod v n)) (bufferSkipWhitespace v 1)
        (es.map (elementItem strtod)) (v.length - 1) ∧
      bufferSkipWhitespace v (bufferSkipWhitespace v 1) = bufferSkipWhitespace v 1 ∧
      v[v.length - 1]? = some 93 ∧ es.length + 1 ≤ v.length :=
  reads_of_bracketed (by decide) rfl (fun h => elementStep_skip h)
    (fun _ _ _ _ ha hor hdrop => elementStep_of_whole ha (ends_of_comma_or hor ⟨rfl, rfl⟩) hdrop)
    (fun _ _ ha hdrop => elementStep_of_cut ha hdrop)
    (fun _ ha => ha.elim element_bytes_ne_nil bytes_ne_nil_of_cut) hne h

theorem reads_of_objectText (h : ObjectText strtod n ms v) (hne : ms ≠ []) :
    Reads v (memberStep v (parseValue strtod v n)) (bufferSkipWhitespace v 1)
        (ms.map (memberItems strtod)) (v.length - 1) ∧
      bufferSkipWhitespace v (bufferSkipWhitespace v 1) = bufferSkipWhitespace v 1 ∧
      v[v.length - 1]? = some 125 ∧ ms.length + 1 ≤ v.length :=
  reads_of_bracketed (by decide) rfl (fun h => memberStep_skip h)
    (fun _ _ _ _ ha hor hdrop => memberStep_of_whole ha (ends_of_comma_or hor ⟨rfl, rfl⟩) hdrop)
    (fun _ _ ha hdrop => memberStep_of_cut ha hdrop)
    (fun m _ => member_bytes_ne_nil m) hne h

theorem first_of_elements {xs : List LiteCjson} {last : Nat}
    (h : Reads content (elementStep content (parseValue strtod content n)) o xs last) :
    content[bufferSkipWhitespace content o]? ≠ some 93 := by
  have hstart : ∀ {x e}, elementStep content (parseValue strtod content n) o = some (x, e) →
      content[bufferSkipWhitespace content o]? ≠ some 93 := fun hstep => by
    obtain ⟨⟨x', e₀⟩, hval, -⟩ := Option.map_eq_some_iff.mp hstep
    obtain ⟨_, _, hdispatch⟩ := dispatch_of_parseValue hval
    rcases dispatch_cases hdispatch with ⟨k, t, hk, -, hdrop, -⟩ | ⟨hfirst, -⟩ | ⟨hfirst, -⟩
    · obtain ⟨b, s, rfl, -, hb, -⟩ := head_of_isValue hk
      rw [getElem?_of_drop hdrop]
      simpa using hb
    · rw [hfirst]
      decide
    · rw [hfirst]
      decide
  cases h with
  | last hx => exact hstart hx
  | more hx => exact hstart hx

theorem first_of_members {xs : List (LiteCjson × LiteCjson)} {last : Nat}
    (h : Reads content (memberStep content value) o xs last) :
    content[bufferSkipWhitespace content o]? = some 34 := by
  have hstart : ∀ {x e}, memberStep content value o = some (x, e) →
      content[bufferSkipWhitespace content o]? = some 34 := fun hstep => by
    obtain ⟨key, hkey, -⟩ := Option.bind_eq_some_iff.mp (member_of_memberStep hstep)
    obtain ⟨body, -, -, hdrop, -⟩ := isBody_of_parseString hkey
    exact getElem?_of_drop hdrop
  cases h with
  | last hx => exact hstart hx
  | more hx => exact hstart hx

theorem container_full (type : CjsonType) (size : Nat) (hpos : 0 < v.length) :
    container v type 0 size (v.length - 1) = (⟨type, v, size, 0⟩, v.length) := by
  have hlen : v.length - 1 - 0 + 1 = v.length := by omega
  have hlen' : v.length - 1 + 1 = v.length := by omega
  rw [container, hlen, hlen', List.drop_zero, List.take_length]

theorem isValue_of_spaces {ws : List UInt8} (hws : Spaces (lexis strtod) ws) :
    IsValue (lexis strtod) (n + 1) (.array 0) (91 :: (ws ++ [93])) ∧
      IsValue (lexis strtod) (n + 1) (.object 0) (123 :: (ws ++ [125])) :=
  ⟨⟨ws, rfl, .inl ⟨rfl, hws⟩⟩, ⟨ws, rfl, .inl ⟨rfl, hws⟩⟩⟩

theorem parsed_of_arrayText (h : ArrayText strtod n es v) :
    parseValue strtod v (n + 1) 0 = some (⟨.array, v, es.length, 0⟩, v.length) := by
  by_cases hne : es = []
  · subst hne
    rcases h with ⟨-, ws, hws, rfl⟩ | ⟨hne, -⟩
    · exact parsed_of_isValue (isValue_of_spaces hws).1
    · exact absurd rfl hne
  obtain ⟨hreads, hidem, hlast, hle⟩ := reads_of_arrayText h hne
  have hloop := parseElements_of_reads hreads (v.length + 1) (by rw [List.length_map]; omega) 0
  obtain ⟨s, hv⟩ : ∃ s, v.drop 0 = 91 :: s := by
    rcases h with ⟨rfl, -⟩ | ⟨-, -, s, rfl, -⟩
    · exact absurd rfl hne
    · exact ⟨s, rfl⟩
  rw [parseValue, dispatch_of_head hv (by decide) (by decide) (by decide), if_neg (by decide),
    if_neg (by decide), if_pos rfl]
  have hfirst := first_of_elements hreads
  rw [hidem] at hfirst
  simp only [parseArray, Nat.zero_add]
  rw [if_neg hfirst, hloop, Option.bind_some]
  simp only [hlast, if_true, List.length_map, Nat.zero_add]
  rw [container_full _ _ (by omega)]

theorem parsed_of_objectText (h : ObjectText strtod n ms v) :
    parseValue strtod v (n + 1) 0 = some (⟨.object, v, ms.length, 0⟩, v.length) := by
  by_cases hne : ms = []
  · subst hne
    rcases h with ⟨-, ws, hws, rfl⟩ | ⟨hne, -⟩
    · exact parsed_of_isValue (isValue_of_spaces hws).2
    · exact absurd rfl hne
  obtain ⟨hreads, hidem, hlast, hle⟩ := reads_of_objectText h hne
  have hloop := walkMembers_of_reads hreads (v.length + 1) (by rw [List.length_map]; omega)
    (fun _ _ => false) 0
  obtain ⟨s, hv⟩ : ∃ s, v.drop 0 = 123 :: s := by
    rcases h with ⟨rfl, -⟩ | ⟨-, -, s, rfl, -⟩
    · exact absurd rfl hne
    · exact ⟨s, rfl⟩
  rw [walkEnd_false] at hloop
  rw [parseValue, dispatch_of_head hv (by decide) (by decide) (by decide), if_neg (by decide),
    if_neg (by decide), if_neg (by decide), if_pos rfl]
  have hfirst := first_of_members hreads
  rw [hidem] at hfirst
  simp only [parseObject, Nat.zero_add]
  rw [if_neg (by rw [hfirst]; decide), hloop]
  simp only [hlast, if_true, List.length_map, Nat.zero_add]
  rw [container_full _ _ (by omega)]

end Containers

end AliyunIot.Cjson
