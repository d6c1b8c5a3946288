import AliyunIot.Infra.CjsonSound

/-!
# The parser goes ahead

A value ends behind its first byte (`advances_parseValue`). So a loop over elements or members
needs no more rounds than there are bytes, what stands in front of a text does not change how it
is parsed (`parseValue_behind`), and neither do more levels (`parseValue_succ`).
-/

namespace AliyunIot.Cjson

open Lib Lib.Json

variable {strtod : Strtod} {content : List UInt8} {o n : Nat}
  {value value' : Nat → Option (LiteCjson × Nat)}

/-- What `value` parses starts with a byte that is neither a space nor a comma, and ends behind
it. -/
def Advances (content : List UInt8) (value : Nat → Option (LiteCjson × Nat)) : Prop :=
  ∀ o lite e, value o = some (lite, e) →
    o < e ∧ ∃ b, content[o]? = some b ∧ isSpace b = false ∧ b ≠ 44

section Skip

theorem le_skip_succ (content : List UInt8) (o : Nat) : o ≤ bufferSkipWhitespace content o + 1 := by
  simp only [bufferSkipWhitespace]
  split <;> omega

theorem le_skip (h : o < content.length) : o ≤ bufferSkipWhitespace content o := by
  simp only [bufferSkipWhitespace]
  split <;> omega

theorem skip_lt (h : o ≤ content.length) (hpos : 0 < content.length) :
    bufferSkipWhitespace content o < content.length := by
  have hle := (List.takeWhile_sublist isSpace (l := content.drop o)).length_le
  rw [List.length_drop] at hle
  simp only [bufferSkipWhitespace]
  split <;> omega

theorem lt_of_getElem? {b : UInt8} (h : content[o]? = some b) : o < content.length :=
  (List.getElem?_eq_some_iff.mp h).1

theorem drop_of_skip {b : UInt8} (ho : o < content.length)
    (hb : content[bufferSkipWhitespace content o]? = some b) (hns : isSpace b = false) :
    ∃ ws, (∀ c ∈ ws, isSpace c = true) ∧
      content.drop o = ws ++ b :: content.drop (bufferSkipWhitespace content o + 1) ∧
      bufferSkipWhitespace content o = o + ws.length := by
  have hsplit := List.takeWhile_append_dropWhile (p := isSpace) (l := content.drop o)
  have hws : ∀ c ∈ (content.drop o).takeWhile isSpace, isSpace c = true :=
    fun c hc => List.mem_takeWhile_imp hc
  obtain ⟨hlt, hget⟩ := List.getElem?_eq_some_iff.mp hb
  by_cases hend : o + ((content.drop o).takeWhile isSpace).length = content.length
  · -- everything up to the end is spaces, also the byte that is stepped back to
    have hskip : bufferSkipWhitespace content o = content.length - 1 := by
      simp only [bufferSkipWhitespace, hend, if_true]
    have hmem : b ∈ (content.drop o).takeWhile isSpace := by
      have hfull : (content.drop o).takeWhile isSpace = content.drop o :=
        (List.takeWhile_sublist _).eq_of_length (by rw [List.length_drop]; omega)
      rw [hfull, ← hget]
      refine List.mem_of_getElem? (i := bufferSkipWhitespace content o - o) ?_
      rw [List.getElem?_drop, hget, ← hb]
      congr 1
      omega
    rw [hws b hmem] at hns
    cases hns
  · have hskip : bufferSkipWhitespace content o =
        o + ((content.drop o).takeWhile isSpace).length := by
      simp only [bufferSkipWhitespace, if_neg hend]
    refine ⟨_, hws, ?_, hskip⟩
    rw [← hget, ← List.drop_eq_getElem_cons hlt, hskip, drop_add_of_drop hsplit.symm, hsplit]

end Skip

section Advances

theorem lt_of_parseMember (hv : Advances content value) {key lite : LiteCjson} {m : Nat}
    (h : parseMember content value o = some (key, lite, m)) :
    bufferSkipWhitespace content o ≤ m ∧
      bufferSkipWhitespace content o + 1 < content.length := by
  simp only [parseMember] at h
  obtain ⟨⟨key', e₀⟩, hkey, h⟩ := Option.bind_eq_some_iff.mp h
  obtain ⟨body, -, -, hdrop, hlt⟩ := isBody_of_parseString hkey
  have hquote : bufferSkipWhitespace content o + 1 < content.length := by
    have hlen := congrArg List.length hdrop
    have hbody := length_quote body
    rw [List.length_drop, List.length_append] at hlen
    omega
  simp only at h
  split at h
  case isFalse => cases h
  case isTrue hcolon =>
    obtain ⟨⟨lite', e₁⟩, hval, heq⟩ := Option.map_eq_some_iff.mp h
    simp only [Prod.mk.injEq] at heq
    obtain ⟨-, -, rfl⟩ := heq
    obtain ⟨hgo, -⟩ := hv _ _ _ hval
    have h₁ := le_skip_succ content e₀
    have h₂ := le_skip_succ content (bufferSkipWhitespace content e₀ + 1)
    have h₃ := le_skip_succ content e₁
    exact ⟨by omega, hquote⟩

theorem le_of_parseElements (hv : Advances content value) {rounds size size' last : Nat}
    (h : parseElements content value rounds o size = some (size', last)) :
    bufferSkipWhitespace content o ≤ last := by
  induction rounds generalizing o size with
  | zero => cases h
  | succ rounds ih =>
    simp only [parseElements] at h
    obtain ⟨⟨lite, e⟩, hval, h⟩ := Option.bind_eq_some_iff.mp h
    obtain ⟨hgo, -⟩ := hv _ _ _ hval
    have h₁ := le_skip_succ content e
    simp only at h
    split at h
    · have h₂ := le_skip_succ content (bufferSkipWhitespace content e + 1)
      have hle := ih h
      omega
    · cases h
      omega

theorem le_of_walkMembers (hv : Advances content value) {wanted : Nat → LiteCjson → Bool}
    {rounds index size last : Nat}
    (h : walkMembers content value wanted rounds o index = some (.ended size last)) :
    bufferSkipWhitespace content o ≤ last := by
  induction rounds generalizing o index with
  | zero => cases h
  | succ rounds ih =>
    simp only [walkMembers] at h
    obtain ⟨⟨key, lite, m⟩, hmember, h⟩ := Option.bind_eq_some_iff.mp h
    obtain ⟨hle, -⟩ := lt_of_parseMember hv hmember
    simp only at h
    split at h
    · cases h
    split at h
    · have h₂ := le_skip_succ content (m + 1)
      have hle' := ih h
      omega
    · cases h
      exact hle

theorem le_skip_open {b : UInt8} (hb : content[o]? = some b) :
    o ≤ bufferSkipWhitespace content (o + 1) ∧
      o ≤ bufferSkipWhitespace content (bufferSkipWhitespace content (o + 1)) := by
  have hlt := lt_of_getElem? hb
  have h₁ := le_skip_succ content (o + 1)
  have hin : bufferSkipWhitespace content (o + 1) < content.length :=
    skip_lt (by omega) (by omega)
  have h₂ := le_skip hin
  omega

theorem lt_of_parseArray (hv : Advances content value) {b : UInt8} (hb : content[o]? = some b)
    {lite : LiteCjson} {e : Nat} (h : parseArray content value o = some (lite, e)) : o < e := by
  obtain ⟨h₁, h₂⟩ := le_skip_open hb
  simp only [parseArray] at h
  split at h
  · cases h
    omega
  · obtain ⟨⟨size, last⟩, hloop, h⟩ := Option.bind_eq_some_iff.mp h
    have hle := le_of_parseElements hv hloop
    split at h
    · cases h
      omega
    · cases h

theorem lt_of_parseObject (hv : Advances content value) {b : UInt8} (hb : content[o]? = some b)
    {lite : LiteCjson} {e : Nat} (h : parseObject content value o = some (lite, e)) : o < e := by
  obtain ⟨h₁, h₂⟩ := le_skip_open hb
  simp only [parseObject] at h
  split at h
  · cases h
    omega
  · split at h
    case h_2 => cases h
    case h_1 size last hloop =>
      have hle := le_of_walkMembers hv hloop
      split at h
      · cases h
        omega
      · cases h

theorem advances_dispatch {array object : Nat → Option (LiteCjson × Nat)}
    (harray : ∀ o lite e, content[o]? = some 91 → array o = some (lite, e) → o < e)
    (hobject : ∀ o lite e, content[o]? = some 123 → object o = some (lite, e) → o < e) :
    Advances content (dispatch strtod content array object) := by
  intro o lite e h
  have hword : ∀ {b : UInt8} {word : List UInt8}, readsWord content (b :: word) o = true →
      content[o]? = some b := fun h => getElem?_of_drop (drop_of_readsWord h)
  unfold dispatch at h
  split at h
  case isTrue hw =>
    cases h
    exact ⟨by simp [List.length], _, hword hw, rfl, by decide⟩
  split at h
  case isTrue hw =>
    cases h
    exact ⟨by simp [List.length], _, hword hw, rfl, by decide⟩
  split at h
  case isTrue hw =>
    cases h
    exact ⟨by simp [List.length], _, hword hw, rfl, by decide⟩
  split at h
  case h_1 => cases h
  case h_2 b hb =>
    split at h
    case isTrue hquote =>
      obtain ⟨body, -, -, -, hlt⟩ := isBody_of_parseString h
      exact ⟨hlt, b, hb, by rw [hquote]; rfl, by rw [hquote]; decide⟩
    split at h
    case isTrue hstarts =>
      have hcomma : b ≠ 44 := by
        rintro rfl
        cases hstarts
      simp only [parseNumber] at h
      split at h
      · cases h
      · cases h
        exact ⟨by omega, b, hb, (opens_of_startsNumber hstarts).1, hcomma⟩
    split at h
    case isTrue hbracket =>
      exact ⟨harray o lite e (by rw [hb, hbracket]) h, b, hb, by rw [hbracket]; rfl,
        by rw [hbracket]; decide⟩
    split at h
    case isTrue hbrace =>
      exact ⟨hobject o lite e (by rw [hb, hbrace]) h, b, hb, by rw [hbrace]; rfl,
        by rw [hbrace]; decide⟩
    cases h

theorem advances_parseValue (strtod : Strtod) (content : List UInt8) (n : Nat) :
    Advances content (parseValue strtod content n) := by
  induction n with
  | zero => exact advances_dispatch (fun _ _ _ _ h => nomatch h) (fun _ _ _ _ h => nomatch h)
  | succ n ih =>
    exact advances_dispatch (fun _ _ _ hb h => lt_of_parseArray ih hb h)
      (fun _ _ _ hb h => lt_of_parseObject ih hb h)

end Advances

section Rounds

theorem rounds_left {rounds e : Nat} (hv : Advances content value) {lite : LiteCjson}
    (hval : value (bufferSkipWhitespace content o) = some (lite, e))
    (hcomma : content[bufferSkipWhitespace content e]? = some 44)
    (h : content.length - o < rounds + 1) :
    content.length - (bufferSkipWhitespace content e + 1) < rounds := by
  obtain ⟨hgo, b, hb, -, hne⟩ := hv _ _ _ hval
  have hlt := lt_of_getElem? hb
  have hcommaLt := lt_of_getElem? hcomma
  have h₁ := le_skip_succ content e
  have h₂ := le_skip_succ content o
  by_cases ho : o < content.length
  · have h₃ := le_skip ho
    omega
  · -- the element is the last byte of the text, so it is the comma
    have hlast : bufferSkipWhitespace content e = bufferSkipWhitespace content o := by omega
    rw [hlast, hb] at hcomma
    exact absurd (Option.some.inj hcomma) hne

theorem parseElements_rounds (hv : Advances content value) {rounds rounds' : Nat}
    (h : content.length - o < rounds) (h' : content.length - o < rounds') (size : Nat) :
    parseElements content value rounds o size = parseElements content value rounds' o size := by
  induction rounds generalizing rounds' o size with
  | zero => cases h
  | succ rounds ih =>
    obtain ⟨rounds', rfl⟩ : ∃ k, rounds' = k + 1 := ⟨rounds' - 1, by omega⟩
    simp only [parseElements]
    cases hval : value (bufferSkipWhitespace content o) with
    | none => rfl
    | some r =>
      simp only [Option.bind_some]
      split
      next hcomma =>
        exact ih (rounds_left hv hval hcomma h) (rounds_left hv hval hcomma h') _
      next => rfl

theorem walkMembers_rounds (hv : Advances content value) {wanted : Nat → LiteCjson → Bool}
    {rounds rounds' : Nat} (h : content.length - o < rounds) (h' : content.length - o < rounds')
    (index : Nat) :
    walkMembers content value wanted rounds o index =
      walkMembers content value wanted rounds' o index := by
  induction rounds generalizing rounds' o index with
  | zero => cases h
  | succ rounds ih =>
    obtain ⟨rounds', rfl⟩ : ∃ k, rounds' = k + 1 := ⟨rounds' - 1, by omega⟩
    simp only [walkMembers]
    cases hmember : parseMember content value o with
    | none => rfl
    | some r =>
      obtain ⟨key, lite, m⟩ := r
      obtain ⟨hle, hlt⟩ := lt_of_parseMember hv hmember
      have h₁ := le_skip_succ content o
      simp only [Option.bind_some]
      split
      · rfl
      split
      next hcomma =>
        have hcommaLt := lt_of_getElem? hcomma
        have h₂ : o ≤ bufferSkipWhitespace content o := by
          by_cases ho : o < content.length
          · exact le_skip ho
          · omega
        exact ih (by omega) (by omega) _
      next => rfl

end Rounds

/-! ## A text behind another -/

section Append

variable {p : List UInt8}

/-- A result whose offset counts from the start of what stands in front. -/
def moved {α : Type} (k : Nat) (r : α × Nat) : α × Nat := (r.1, k + r.2)

/-- A walk that starts `i` members and `k` bytes later. -/
def Walk.moved (i k : Nat) : Walk → Walk
  | .found key value => .found key value
  | .ended size last => .ended (i + size) (k + last)

/-- `value'` parses behind `p` what `value` parses. -/
def Moves (p : List UInt8) (value value' : Nat → Option (LiteCjson × Nat)) : Prop :=
  ∀ o, value' (p.length + o) = (value o).map (moved p.length)

theorem drop_behind (p content : List UInt8) (o : Nat) :
    (p ++ content).drop (p.length + o) = content.drop o := by
  rw [← List.drop_drop, List.drop_left]

theorem getElem?_behind (p content : List UInt8) (o : Nat) :
    (p ++ content)[p.length + o]? = content[o]? := by
  rw [List.getElem?_append_right (by omega), Nat.add_sub_cancel_left]

theorem skip_behind (hne : content ≠ []) (o : Nat) :
    bufferSkipWhitespace (p ++ content) (p.length + o) =
      p.length + bufferSkipWhitespace content o := by
  have hpos := List.length_pos_iff.mpr hne
  simp only [bufferSkipWhitespace, drop_behind, List.length_append]
  split <;> split <;> omega

theorem parseString_behind (o : Nat) :
    parseString (p ++ content) (p.length + o) = (parseString content o).map (moved p.length) := by
  have hdrop : (p ++ content).drop (p.length + o + 1) = content.drop (o + 1) :=
    drop_behind p content (o + 1)
  simp only [parseString, getElem?_behind, hdrop]
  split
  · rw [Option.map_map]
    congr 1
    funext len
    simp only [Function.comp_apply, moved, Prod.mk.injEq, true_and]
    omega
  · rfl

theorem parseNumber_behind (o : Nat) :
    parseNumber strtod (p ++ content) (p.length + o) =
      (parseNumber strtod content o).map (moved p.length) := by
  simp only [parseNumber, drop_behind]
  split
  · rfl
  · simp only [Option.map_some, moved, Nat.add_assoc]

theorem container_behind (type : CjsonType) (start size last : Nat) :
    container (p ++ content) type (p.length + start) size (p.length + last) =
      moved p.length (container content type start size last) := by
  have hlen : p.length + last - (p.length + start) = last - start := by omega
  simp only [container, drop_behind, hlen, moved, Nat.add_assoc]

theorem parseElements_behind (hne : content ≠ []) (hv : Moves p value value')
    (rounds o size : Nat) :
    parseElements (p ++ content) value' rounds (p.length + o) size =
      (parseElements content value rounds o size).map (moved p.length) := by
  induction rounds generalizing o size with
  | zero => rfl
  | succ rounds ih =>
    simp only [parseElements, skip_behind hne, hv (bufferSkipWhitespace content o)]
    cases value (bufferSkipWhitespace content o) with
    | none => rfl
    | some r =>
      simp only [Option.map_some, Option.bind_some, moved, skip_behind hne, getElem?_behind]
      split
      · rw [Nat.add_assoc]
        exact ih _ _
      · rfl

theorem parseMember_behind (hne : content ≠ []) (hv : Moves p value value') (o : Nat) :
    parseMember (p ++ content) value' (p.length + o) =
      (parseMember content value o).map fun r => (r.1, moved p.length r.2) := by
  simp only [parseMember, skip_behind hne, parseString_behind]
  cases parseString content (bufferSkipWhitespace content o) with
  | none => rfl
  | some r =>
    simp only [Option.map_some, Option.bind_some, moved, skip_behind hne, getElem?_behind]
    split
    · have hnext := skip_behind (p := p) hne (bufferSkipWhitespace content r.2 + 1)
      rw [← Nat.add_assoc] at hnext
      rw [hnext, hv]
      cases value (bufferSkipWhitespace content (bufferSkipWhitespace content r.2 + 1)) with
      | none => rfl
      | some r' => simp only [Option.map_some, moved, skip_behind hne]
    · rfl

theorem walkMembers_behind (hne : content ≠ []) (hv : Moves p value value')
    (wanted : LiteCjson → Bool) (rounds o index i : Nat) :
    walkMembers (p ++ content) value' (fun _ => wanted) rounds (p.length + o) (i + index) =
      (walkMembers content value (fun _ => wanted) rounds o index).map
        (Walk.moved i p.length) := by
  induction rounds generalizing o index with
  | zero => rfl
  | succ rounds ih =>
    simp only [walkMembers, parseMember_behind hne hv]
    cases parseMember content value o with
    | none => rfl
    | some r =>
      simp only [Option.map_some, Option.bind_some, moved, getElem?_behind]
      split
      · rfl
      split
      · rw [Nat.add_assoc, Nat.add_assoc]
        exact ih _ _
      · rfl

theorem parseArray_behind (hne : content ≠ []) (hadv : Advances content value)
    (hv : Moves p value value') (o : Nat) :
    parseArray (p ++ content) value' (p.length + o) =
      (parseArray content value o).map (moved p.length) := by
  have hopen := skip_behind (p := p) hne (o + 1)
  rw [← Nat.add_assoc] at hopen
  have hlen : (p ++ content).length = p.length + content.length := List.length_append
  -- the loop has rounds for what stands in front, too
  have hrounds : parseElements content value ((p ++ content).length + 1)
      (bufferSkipWhitespace content (o + 1)) 0 =
      parseElements content value (content.length + 1) (bufferSkipWhitespace content (o + 1)) 0 :=
    parseElements_rounds hadv (by omega) (by omega) 0
  simp only [parseArray, hopen, getElem?_behind]
  split
  · rw [container_behind, Option.map_some]
  · rw [parseElements_behind hne hv, hrounds]
    cases parseElements content value (content.length + 1) _ 0 with
    | none => rfl
    | some r =>
      simp only [Option.map_some, Option.bind_some, moved, getElem?_behind]
      split
      · rw [container_behind, Option.map_some]
      · rfl

theorem parseObject_behind (hne : content ≠ []) (hadv : Advances content value)
    (hv : Moves p value value') (o : Nat) :
    parseObject (p ++ content) value' (p.length + o) =
      (parseObject content value o).map (moved p.length) := by
  have hopen := skip_behind (p := p) hne (o + 1)
  rw [← Nat.add_assoc] at hopen
  have hlen : (p ++ content).length = p.length + content.length := List.length_append
  have hrounds : walkMembers content value (fun _ _ => false) ((p ++ content).length + 1)
      (bufferSkipWhitespace content (o + 1)) 0 =
      walkMembers content value (fun _ _ => false) (content.length + 1)
        (bufferSkipWhitespace content (o + 1)) 0 :=
    walkMembers_rounds hadv (by omega) (by omega) 0
  have hwalk := walkMembers_behind (p := p) hne hv (fun _ => false) ((p ++ content).length + 1)
    (bufferSkipWhitespace content (o + 1)) 0 0
  simp only [parseObject, hopen, getElem?_behind]
  split
  · rw [container_behind, Option.map_some]
  · rw [hwalk, hrounds]
    cases walkMembers content value (fun _ _ => false) (content.length + 1) _ 0 with
    | none => rfl
    | some w =>
      cases w with
      | found key lite => rfl
      | ended size last =>
        simp only [Option.map_some, Walk.moved, getElem?_behind, Nat.zero_add]
        split
        · rw [container_behind, Option.map_some]
        · rfl

theorem dispatch_behind {array array' object object' : Nat → Option (LiteCjson × Nat)}
    (harray : Moves p array array') (hobject : Moves p object object') :
    Moves p (dispatch strtod content array object)
      (dispatch strtod (p ++ content) array' object') := by
  intro o
  have hword : ∀ word, readsWord (p ++ content) word (p.length + o) = readsWord content word o :=
    fun word => by rw [readsWord, readsWord, drop_behind]
  have hliteral : ∀ type word, literal type word (p.length + o) =
      moved p.length (literal type word o) := fun type word => by
    simp only [literal, moved, Nat.add_assoc]
  simp only [dispatch, hword, hliteral, getElem?_behind, parseString_behind, parseNumber_behind,
    harray o, hobject o]
  split
  · rfl
  split
  · rfl
  split
  · rfl
  split
  · rfl
  · split
    · rfl
    split
    · rfl
    split
    · rfl
    split <;> rfl

theorem parseValue_behind (strtod : Strtod) (p : List UInt8) (hne : content ≠ []) (n : Nat) :
    Moves p (parseValue strtod content n) (parseValue strtod (p ++ content) n) := by
  induction n with
  | zero => exact dispatch_behind (fun _ => rfl) (fun _ => rfl)
  | succ n ih =>
    have hadv := advances_parseValue strtod content n
    exact dispatch_behind (parseArray_behind hne hadv ih) (parseObject_behind hne hadv ih)

end Append

/-! ## More levels -/

section Levels

/-- `value'` parses what `value` does. -/
def Extends (value value' : Nat → Option (LiteCjson × Nat)) : Prop :=
  ∀ o r, value o = some r → value' o = some r

theorem ite_extends {α : Type} {c : Prop} [Decidable c] {a a' b b' : Option α} {r : α}
    (ha : a = some r → a' = some r) (hb : b = some r → b' = some r)
    (h : (if c then a else b) = some r) : (if c then a' else b') = some r := by
  split at h
  next hc => rw [if_pos hc, ha h]
  next hc => rw [if_neg hc, hb h]

theorem parseElements_extends (hv : Extends value value') {rounds size : Nat} {r : Nat × Nat}
    (h : parseElements content value rounds o size = some r) :
    parseElements content value' rounds o size = some r := by
  induction rounds generalizing o size with
  | zero => cases h
  | succ rounds ih =>
    simp only [parseElements] at h ⊢
    obtain ⟨r', hval, h⟩ := Option.bind_eq_some_iff.mp h
    rw [hv _ _ hval, Option.bind_some]
    exact ite_extends ih id h

theorem parseMember_extends (hv : Extends value value') {r : LiteCjson × LiteCjson × Nat}
    (h : parseMember content value o = some r) : parseMember content value' o = some r := by
  simp only [parseMember] at h ⊢
  obtain ⟨key, hkey, h⟩ := Option.bind_eq_some_iff.mp h
  rw [hkey, Option.bind_some]
  refine ite_extends (fun h => ?_) id h
  obtain ⟨r', hval, hr⟩ := Option.map_eq_some_iff.mp h
  rw [hv _ _ hval, Option.map_some, hr]

theorem walkMembers_extends (hv : Extends value value') {wanted : Nat → LiteCjson → Bool}
    {rounds index : Nat} {w : Walk} (h : walkMembers content value wanted rounds o index = some w) :
    walkMembers content value' wanted rounds o index = some w := by
  induction rounds generalizing o index with
  | zero => cases h
  | succ rounds ih =>
    simp only [walkMembers] at h ⊢
    obtain ⟨r, hmember, h⟩ := Option.bind_eq_some_iff.mp h
    rw [parseMember_extends hv hmember, Option.bind_some]
    exact ite_extends id (ite_extends ih id) h

theorem parseArray_extends (hv : Extends value value') :
    Extends (parseArray content value) (parseArray content value') := by
  intro o r h
  refine ite_extends id (fun h => ?_) h
  obtain ⟨r', hloop, h⟩ := Option.bind_eq_some_iff.mp h
  rw [parseElements_extends hv hloop, Option.bind_some]
  exact h

theorem parseObject_extends (hv : Extends value value') :
    Extends (parseObject content value) (parseObject content value') := by
  intro o r h
  refine ite_extends id (fun h => ?_) h
  split at h
  case h_2 => cases h
  case h_1 size last hloop =>
    rw [walkMembers_extends hv hloop]
    exact h

theorem dispatch_extends {array array' object object' : Nat → Option (LiteCjson × Nat)}
    (harray : Extends array array') (hobject : Extends object object') :
    Extends (dispatch strtod content array object) (dispatch strtod content array' object') := by
  intro o r h
  refine ite_extends id (ite_extends id (ite_extends id fun h => ?_)) h
  cases hb : content[o]? with
  | none =>
    rw [hb] at h
    cases h
  | some b =>
    rw [hb] at h
    exact ite_extends id (ite_extends id (ite_extends (harray _ _)
      (ite_extends (hobject _ _) id))) h

theorem parseValue_succ (strtod : Strtod) (content : List UInt8) (n : Nat) :
    Extends (parseValue strtod content n) (parseValue strtod content (n + 1)) := by
  induction n with
  | zero => exact dispatch_extends (fun _ _ h => nomatch h) (fun _ _ h => nomatch h)
  | succ n ih => exact dispatch_extends (parseArray_extends ih) (parseObject_extends ih)

end Levels

end AliyunIot.Cjson
