import AliyunIot.Infra.CjsonShift

/-!
# Objects member by member

`document` is all that `lite_cjson` tells of a text: the type of its value, and the item of each
key. What it tells of an object comes from its first member and the object that the rest of it
makes (`document_cons`). `isValue_of_document`: a slice that is read back from inside an object
is a value of the grammar.
-/

namespace AliyunIot.Cjson

open Lib Lib.Json

/-- The loop over the members that a text starts with. -/
def walk (strtod : Strtod) (n : Nat) (wanted : LiteCjson → Bool) (s : List UInt8) : Option Walk :=
  walkMembers s (parseValue strtod s n) (fun _ => wanted) (s.length + 1) 0 0

def Walk.item : Walk → Option LiteCjson
  | .found _ value => some value
  | .ended _ _ => none

/-- The object that a walk over the members behind the bracket closes. -/
def Walk.object (s : List UInt8) : Walk → Option LiteCjson
  | .found _ _ => none
  | .ended size last =>
    if s[last]? = some 125 then some ⟨.object, 123 :: s.take (last + 1), size, 0⟩ else none

/-- The type of the value of a text, and the item of each key. -/
def document (strtod : Strtod) (t : List UInt8) :
    Option (CjsonType × (List UInt8 → Option LiteCjson)) :=
  (liteCjsonParse strtod t).map fun lite => (lite.type, liteCjsonObjectItem strtod lite)

variable {strtod : Strtod} {content s rest : List UInt8} {n o : Nat} {wanted : LiteCjson → Bool}
  {m : Member} {key : List UInt8}

section Walks

theorem walkMembers_walk (strtod : Strtod) (n : Nat) (wanted : LiteCjson → Bool)
    (p : List UInt8) (hne : s ≠ []) {rounds : Nat} (h : s.length < rounds) (i : Nat) :
    walkMembers (p ++ s) (parseValue strtod (p ++ s) n) (fun _ => wanted) rounds p.length i =
      (walk strtod n wanted s).map (Walk.moved i p.length) := by
  have hmoved := walkMembers_behind hne (parseValue_behind strtod p hne n) wanted rounds 0 0 i
  have hrounds : walkMembers s (parseValue strtod s n) (fun _ => wanted) rounds 0 0 =
      walkMembers s (parseValue strtod s n) (fun _ => wanted) (s.length + 1) 0 0 :=
    walkMembers_rounds (advances_parseValue strtod s n) (by omega) (by omega) 0
  rw [Nat.add_zero, Nat.add_zero, hrounds] at hmoved
  exact hmoved

theorem walk_of_member (hm : m.Ok (lexis strtod) (IsValue (lexis strtod) n)) {b : UInt8}
    (hb : Ends b) :
    walk strtod n wanted (m.bytes ++ b :: rest) =
      if wanted (keyItem m.key) then
        some (.found (keyItem m.key) (item strtod m.value.kind m.value.text))
      else if b = 44 then
        walkMembers (m.bytes ++ b :: rest) (parseValue strtod (m.bytes ++ b :: rest) n)
          (fun _ => wanted) (m.bytes ++ b :: rest).length (m.bytes.length + 1) 1
      else some (.ended 1 m.bytes.length) := by
  obtain ⟨hmember, hdrop⟩ := parse_member (o := 0)
    (parseValue_of_isValue strtod (m.bytes ++ b :: rest) n) hm hb List.drop_zero
  rw [Nat.zero_add] at hmember hdrop
  simp only [walk, walkMembers, hmember, Option.bind_some, getElem?_of_drop hdrop,
    Option.some.injEq, Nat.zero_add]

theorem walk_wanted (hm : m.Ok (lexis strtod) (IsValue (lexis strtod) n)) {b : UInt8}
    (hb : Ends b) (hw : wanted (keyItem m.key) = true) :
    walk strtod n wanted (m.bytes ++ b :: rest) =
      some (.found (keyItem m.key) (item strtod m.value.kind m.value.text)) := by
  rw [walk_of_member hm hb, if_pos hw]

theorem walk_pass (hm : m.Ok (lexis strtod) (IsValue (lexis strtod) n))
    (hw : wanted (keyItem m.key) = false) (hne : rest ≠ []) :
    walk strtod n wanted (m.bytes ++ 44 :: rest) =
      (walk strtod n wanted rest).map (Walk.moved 1 (m.bytes.length + 1)) := by
  have hsplit : m.bytes ++ 44 :: rest = (m.bytes ++ [44]) ++ rest := by simp
  have hlen : (m.bytes ++ [44]).length = m.bytes.length + 1 := by simp
  have hpos := List.length_pos_iff.mpr (member_bytes_ne_nil m)
  have hrounds : rest.length < (m.bytes ++ 44 :: rest).length := by
    simp only [List.length_append, List.length_cons]
    omega
  have hgo := walkMembers_walk strtod n wanted (m.bytes ++ [44]) hne hrounds 1
  rw [← hsplit, hlen] at hgo
  rw [walk_of_member hm ends_comma, hw, if_neg (by decide), if_pos rfl, hgo]

theorem walk_end (hm : m.Ok (lexis strtod) (IsValue (lexis strtod) n))
    (hw : wanted (keyItem m.key) = false) :
    walk strtod n wanted (m.bytes ++ 125 :: rest) = some (.ended 1 m.bytes.length) := by
  rw [walk_of_member hm ⟨rfl, rfl⟩, hw, if_neg (by decide), if_neg (by decide)]

theorem lt_of_ended {value : Nat → Option (LiteCjson × Nat)} {rounds index size last : Nat}
    {wanted : Nat → LiteCjson → Bool}
    (h : walkMembers content value wanted rounds o index = some (.ended size last)) :
    index < size := by
  induction rounds generalizing o index with
  | zero => cases h
  | succ rounds ih =>
    simp only [walkMembers] at h
    obtain ⟨r, -, h⟩ := Option.bind_eq_some_iff.mp h
    split at h
    · cases h
    split at h
    · have hlt := ih h
      omega
    · cases h
      omega

end Walks

section Objects

theorem drop_zero_quote (h : s.head? = some 34) : ∃ s', s.drop 0 = 34 :: s' := by
  cases s with
  | nil => cases h
  | cons b s' =>
    cases h
    exact ⟨s', rfl⟩

theorem ne_nil_of_head (h : s.head? = some 34) : s ≠ [] := by
  rintro rfl
  cases h

theorem skip_open (h : s.head? = some 34) : bufferSkipWhitespace (123 :: s) 1 = 1 := by
  obtain ⟨s', hs'⟩ := drop_zero_quote h
  have hdrop : (123 :: s).drop 1 = 34 :: s' := hs'
  exact bufferSkipWhitespace_self hdrop rfl

theorem walkMembers_open (strtod : Strtod) (n : Nat) (wanted : LiteCjson → Bool)
    (h : s.head? = some 34) :
    walkMembers (123 :: s) (parseValue strtod (123 :: s) n) (fun _ => wanted)
        ((123 :: s).length + 1) 1 0 =
      (walk strtod n wanted s).map (Walk.moved 0 1) :=
  walkMembers_walk strtod n wanted [123] (ne_nil_of_head h)
    (by simp only [List.length_cons]; omega) 0

theorem getElem?_open (h : s.head? = some 34) : (123 :: s)[1]? = some 34 := by
  obtain ⟨s', hs'⟩ := drop_zero_quote h
  exact getElem?_of_drop (s := s') hs'

theorem liteCjsonParse_object (h : s.head? = some 34) :
    liteCjsonParse strtod (123 :: s) =
      (walk strtod 999 (fun _ => false) s).bind (Walk.object s) := by
  have hdrop : (123 :: s).drop 0 = 123 :: s := rfl
  have hskipBom : skipUtf8Bom (123 :: s) = 0 := by
    refine if_neg fun hbom => ?_
    rw [List.take_succ_cons] at hbom
    exact absurd (List.cons.inj hbom.2).1 (by decide)
  have hskip : bufferSkipWhitespace (123 :: s) 0 = 0 := bufferSkipWhitespace_self hdrop rfl
  have hvalue : parseValue strtod (123 :: s) liteCjsonNestingLimit 0 =
      parseObject (123 :: s) (parseValue strtod (123 :: s) 999) 0 := by
    rw [liteCjsonNestingLimit, parseValue, dispatch_of_head hdrop (by decide) (by decide)
      (by decide), if_neg (by decide), if_neg (by decide), if_neg (by decide), if_pos rfl]
  rw [liteCjsonParse, if_neg (List.cons_ne_nil _ _), hskipBom, hskip, hvalue]
  simp only [parseObject, Nat.zero_add, skip_open h, getElem?_open h, walkMembers_open _ _ _ h]
  rw [if_neg (by decide)]
  cases walk strtod 999 (fun _ => false) s with
  | none => rfl
  | some w =>
    cases w with
    | found key lite => rfl
    | ended size last =>
      have hget : (123 :: s)[1 + last]? = s[last]? := getElem?_behind [123] s last
      have htake : 1 + last - 0 + 1 = last + 1 + 1 := by omega
      simp only [Option.map_some, Option.bind_some, Walk.moved, hget, Walk.object, container,
        List.drop_zero, htake, List.take_succ_cons, Nat.zero_add]
      split <;> rfl

theorem liteCjsonObjectItem_object (h : s.head? = some 34) (hkey : key ≠ []) {size : Nat}
    (hsize : size ≠ 0) :
    liteCjsonObjectItem strtod ⟨.object, 123 :: s, size, 0⟩ key =
      (walk strtod liteCjsonNestingLimit (fun item => item.value = key) s).bind Walk.item := by
  have hopen := walkMembers_open strtod liteCjsonNestingLimit (fun item => item.value = key) h
  simp only [liteCjsonObjectItem]
  rw [if_neg (by simp [hsize, hkey]), if_neg (by simp [skip_open h, getElem?_open h]), skip_open h,
    hopen]
  cases walk strtod liteCjsonNestingLimit (fun item => item.value = key) s with
  | none => rfl
  | some w => cases w <;> rfl

theorem liteCjsonObjectItem_nil (lite : LiteCjson) : liteCjsonObjectItem strtod lite [] = none := by
  simp [liteCjsonObjectItem]

theorem head?_member (hbefore : m.before = []) : (m.bytes ++ s).head? = some 34 := by
  simp [Member.bytes, hbefore, quote]

theorem member_mono (hm : m.Ok (lexis strtod) (IsValue (lexis strtod) 999)) :
    m.Ok (lexis strtod) (IsValue (lexis strtod) liteCjsonNestingLimit) :=
  hm.mono fun _ _ hk => hk.succ

theorem document_cons (hm : m.Ok (lexis strtod) (IsValue (lexis strtod) 999))
    (hbefore : m.before = []) (hkey : m.key ≠ []) (hrest : rest.head? = some 34) :
    document strtod (123 :: (m.bytes ++ 44 :: rest)) =
      (document strtod (123 :: rest)).map fun d =>
        (d.1, fun key => if key = m.key then some (item strtod m.value.kind m.value.text)
          else d.2 key) := by
  have hne := ne_nil_of_head hrest
  rw [document, document, liteCjsonParse_object (head?_member hbefore), liteCjsonParse_object hrest,
    walk_pass hm rfl hne]
  cases hwalk : walk strtod 999 (fun _ => false) rest with
  | none => rfl
  | some w =>
    cases w with
    | found key lite => rfl
    | ended size last =>
      have hsplit : m.bytes ++ 44 :: rest = (m.bytes ++ [44]) ++ rest := by simp
      have hlen : m.bytes.length + 1 = (m.bytes ++ [44]).length := by simp
      have hsize : size ≠ 0 := Nat.ne_of_gt (lt_of_ended hwalk)
      have hhead : (rest.take (last + 1)).head? = some 34 := by
        rw [List.head?_take, if_neg (Nat.succ_ne_zero _), hrest]
      have htake : (m.bytes ++ 44 :: rest).take (m.bytes.length + 1 + last + 1) =
          m.bytes ++ 44 :: rest.take (last + 1) := by
        rw [hsplit, hlen, Nat.add_assoc, List.take_length_add_append, List.append_assoc]
        rfl
      have hget : (m.bytes ++ 44 :: rest)[m.bytes.length + 1 + last]? = rest[last]? := by
        rw [hsplit, hlen, getElem?_behind]
      simp only [Option.map_some, Option.bind_some, Walk.moved, Walk.object, hget, htake]
      split
      case isFalse => rfl
      case isTrue =>
        simp only [Option.map_some, Option.some.injEq, Prod.mk.injEq, true_and]
        funext key
        by_cases hnil : key = []
        · subst hnil
          rw [if_neg (Ne.symm hkey), liteCjsonObjectItem_nil, liteCjsonObjectItem_nil]
        rw [liteCjsonObjectItem_object (head?_member hbefore) hnil (by omega),
          liteCjsonObjectItem_object hhead hnil hsize]
        split
        next heq =>
          rw [walk_wanted (member_mono hm) ends_comma (decide_eq_true heq.symm)]
          rfl
        next hneq =>
          rw [walk_pass (member_mono hm) (decide_eq_false (Ne.symm hneq)) (ne_nil_of_head hhead)]
          cases walk strtod liteCjsonNestingLimit (fun item => item.value = key)
              (rest.take (last + 1)) with
          | none => rfl
          | some w => cases w <;> rfl

theorem document_last (hm : m.Ok (lexis strtod) (IsValue (lexis strtod) 999))
    (hbefore : m.before = []) (hkey : m.key ≠ []) :
    document strtod (123 :: (m.bytes ++ 125 :: rest)) =
      some (.object, fun key =>
        if key = m.key then some (item strtod m.value.kind m.value.text) else none) := by
  have hget : (m.bytes ++ 125 :: rest)[m.bytes.length]? = some 125 := by simp
  have htake : (m.bytes ++ 125 :: rest).take (m.bytes.length + 1) = m.bytes ++ 125 :: [] := by
    rw [List.take_length_add_append]
    rfl
  rw [document, liteCjsonParse_object (head?_member hbefore), walk_end hm rfl, Option.bind_some,
    Walk.object, if_pos hget, htake, Option.map_some]
  simp only [Option.some.injEq, Prod.mk.injEq, true_and]
  funext key
  by_cases hnil : key = []
  · subst hnil
    rw [if_neg (Ne.symm hkey), liteCjsonObjectItem_nil]
  rw [liteCjsonObjectItem_object (head?_member hbefore) hnil Nat.one_ne_zero]
  split
  next heq =>
    rw [walk_wanted (member_mono hm) ⟨rfl, rfl⟩ (decide_eq_true heq.symm)]
    rfl
  next hneq =>
    rw [walk_end (member_mono hm) (decide_eq_false (Ne.symm hneq))]
    rfl

theorem type_of_document (h : s.head? = some 34) {type : CjsonType}
    {d : List UInt8 → Option LiteCjson} (hd : document strtod (123 :: s) = some (type, d)) :
    type = .object := by
  rw [document, liteCjsonParse_object h] at hd
  obtain ⟨lite, hlite, heq⟩ := Option.map_eq_some_iff.mp hd
  obtain ⟨w, -, hobject⟩ := Option.bind_eq_some_iff.mp hlite
  cases w with
  | found key lite => cases hobject
  | ended size last =>
    simp only [Walk.object] at hobject
    split at hobject
    · cases hobject
      exact (congrArg Prod.fst heq).symm
    · cases hobject

/-- What a document that starts with a member tells. -/
def told (strtod : Strtod) (m : Member) (d : List UInt8 → Option LiteCjson) :
    List UInt8 → Option LiteCjson :=
  fun key => if key = m.key then some (item strtod m.value.kind m.value.text) else d key

theorem exists_document_cons (hm : m.Ok (lexis strtod) (IsValue (lexis strtod) 999))
    (hbefore : m.before = []) (hkey : m.key ≠ []) (hrest : rest.head? = some 34)
    {p : (List UInt8 → Option LiteCjson) → Prop} :
    (∃ d, document strtod (123 :: (m.bytes ++ 44 :: rest)) = some (.object, d) ∧ p d) ↔
      ∃ d, document strtod (123 :: rest) = some (.object, d) ∧ p (told strtod m d) := by
  rw [document_cons hm hbefore hkey hrest]
  constructor
  · rintro ⟨d, hd, hp⟩
    obtain ⟨⟨type, d'⟩, hd', heq⟩ := Option.map_eq_some_iff.mp hd
    simp only [Prod.mk.injEq] at heq
    obtain ⟨rfl, rfl⟩ := heq
    exact ⟨d', hd', hp⟩
  · rintro ⟨d, hd, hp⟩
    exact ⟨told strtod m d, by rw [hd]; rfl, hp⟩

theorem exists_document_last (hm : m.Ok (lexis strtod) (IsValue (lexis strtod) 999))
    (hbefore : m.before = []) (hkey : m.key ≠ []) {p : (List UInt8 → Option LiteCjson) → Prop} :
    (∃ d, document strtod (123 :: (m.bytes ++ 125 :: rest)) = some (.object, d) ∧ p d) ↔
      p (told strtod m fun _ => none) := by
  rw [document_last hm hbefore hkey]
  constructor
  · rintro ⟨d, hd, hp⟩
    cases hd
    exact hp
  · exact fun hp => ⟨_, rfl, hp⟩

end Objects

/-! ## What is read back -/

section ReadBack

def IsContainer (lite : LiteCjson) : Prop := lite.type = .object ∨ lite.type = .array

theorem value_of_item {k : Kind} {t : List UInt8} (h : IsContainer (item strtod k t)) :
    (item strtod k t).value = t := by
  cases k with
  | array size => rfl
  | object size => rfl
  | null | false | true | number | string => rcases h with h | h <;> cases h

variable {lite : LiteCjson}

theorem slice_of_parseArray {value : Nat → Option (LiteCjson × Nat)} {e : Nat}
    (h : parseArray content value o = some (lite, e)) :
    lite.value = (content.drop o).take (e - 1 - o + 1) := by
  simp only [parseArray] at h
  split at h
  · cases h
    rfl
  · obtain ⟨⟨size, last⟩, -, h⟩ := Option.bind_eq_some_iff.mp h
    split at h
    · cases h
      rfl
    · cases h

theorem slice_of_parseObject {value : Nat → Option (LiteCjson × Nat)} {e : Nat}
    (h : parseObject content value o = some (lite, e)) :
    lite.value = (content.drop o).take (e - 1 - o + 1) := by
  simp only [parseObject] at h
  split at h
  · cases h
    rfl
  · split at h
    · split at h
      · cases h
        rfl
      · cases h
    · cases h

theorem slice_of_dispatch {array object : Nat → Option (LiteCjson × Nat)}
    {e : Nat} (hc : IsContainer lite)
    (harray : array o = some (lite, e) → lite.value = (content.drop o).take (e - 1 - o + 1))
    (hobject : object o = some (lite, e) → lite.value = (content.drop o).take (e - 1 - o + 1))
    (h : dispatch strtod content array object o = some (lite, e)) :
    lite.value = (content.drop o).take (e - 1 - o + 1) := by
  have hnot : ∀ type value size number, type ≠ .object → type ≠ .array →
      ¬ IsContainer ⟨type, value, size, number⟩ := fun _ _ _ _ h₁ h₂ h => h.elim h₁ h₂
  unfold dispatch at h
  split at h
  · cases h
    exact absurd hc (hnot _ _ _ _ (by decide) (by decide))
  split at h
  · cases h
    exact absurd hc (hnot _ _ _ _ (by decide) (by decide))
  split at h
  · cases h
    exact absurd hc (hnot _ _ _ _ (by decide) (by decide))
  split at h
  case h_1 => cases h
  case h_2 b hb =>
    split at h
    · obtain ⟨body, -, rfl, -⟩ := isBody_of_parseString h
      exact absurd hc (hnot _ _ _ _ (by decide) (by decide))
    split at h
    · simp only [parseNumber] at h
      split at h
      · cases h
      · cases h
        exact absurd hc (hnot _ _ _ _ (by decide) (by decide))
    split at h
    · exact harray h
    split at h
    · exact hobject h
    cases h

theorem slice_of_parseValue {e : Nat} (hc : IsContainer lite)
    (h : parseValue strtod content n o = some (lite, e)) :
    lite.value = (content.drop o).take (e - o) := by
  obtain ⟨hlt, -⟩ := advances_parseValue strtod content n o lite e h
  have hlen : e - 1 - o + 1 = e - o := by omega
  rw [← hlen]
  cases n with
  | zero =>
    refine slice_of_dispatch hc ?_ ?_ h
    · intro h
      cases h
    · intro h
      cases h
  | succ n => exact slice_of_dispatch hc slice_of_parseArray slice_of_parseObject h

theorem parseMember_key (hkey : isBody key = true) (value : Nat → Option (LiteCjson × Nat)) :
    parseMember (quote key ++ 58 :: s) value 0 =
      (value (bufferSkipWhitespace (quote key ++ 58 :: s) (key.length + 3))).map fun r =>
        (keyItem key, r.1, bufferSkipWhitespace (quote key ++ 58 :: s) r.2) := by
  have hdrop : (quote key ++ 58 :: s).drop 0 = quote key ++ 58 :: s := rfl
  have hfirst : (quote key ++ 58 :: s).drop 0 = 34 :: (key ++ [34] ++ 58 :: s) := rfl
  have hcolon := drop_add_of_drop hdrop
  have hlen := length_quote key
  have hskip : bufferSkipWhitespace (quote key ++ 58 :: s) 0 = 0 :=
    bufferSkipWhitespace_self hfirst rfl
  have hskip' := bufferSkipWhitespace_self hcolon rfl
  have hthree : 0 + (quote key).length + 1 = key.length + 3 := by omega
  simp only [parseMember, hskip, parseString_of_isBody hkey hdrop, Option.bind_some, hskip',
    getElem?_of_drop hcolon, if_true, hthree]

theorem walk_first {size last : Nat} {c : UInt8}
    (h : walk strtod n (fun _ => false) s = some (.ended size last)) (hlast : s[last]? = some c) :
    ∃ key lite m b, parseMember s (parseValue strtod s n) 0 = some (key, lite, m) ∧ m ≤ last ∧
      s[m]? = some b ∧ (b = 44 ∨ b = c) := by
  simp only [walk, walkMembers] at h
  obtain ⟨⟨key, lite, m⟩, hmember, h⟩ := Option.bind_eq_some_iff.mp h
  simp only [Bool.false_eq_true, if_false] at h
  refine ⟨key, lite, m, ?_⟩
  split at h
  next hcomma =>
    have hle := le_of_walkMembers (advances_parseValue strtod s n) h
    have hskip := le_skip_succ s (m + 1)
    exact ⟨44, hmember, by omega, hcomma, .inl rfl⟩
  next =>
    cases h
    exact ⟨c, hmember, Nat.le_refl _, hlast, .inr rfl⟩

variable {type : CjsonType}

theorem walk_of_document (hs : s.head? = some 34)
    {items : List UInt8 → Option LiteCjson} (h : document strtod (123 :: s) = some (type, items)) :
    ∃ size last, walk strtod 999 (fun _ => false) s = some (.ended size last) ∧
      s[last]? = some 125 ∧
      items = liteCjsonObjectItem strtod ⟨.object, 123 :: s.take (last + 1), size, 0⟩ := by
  rw [document, liteCjsonParse_object hs] at h
  obtain ⟨lite, hlite, heq⟩ := Option.map_eq_some_iff.mp h
  simp only [Prod.mk.injEq] at heq
  obtain ⟨rfl, rfl⟩ := heq
  obtain ⟨w, hwalk, hobject⟩ := Option.bind_eq_some_iff.mp hlite
  cases w with
  | found key lite => cases hobject
  | ended size last =>
    simp only [Walk.object] at hobject
    split at hobject
    case isFalse => cases hobject
    case isTrue hlast =>
      cases hobject
      exact ⟨size, last, hwalk, hlast, rfl⟩

variable {it : LiteCjson}

theorem walks_of_document (hs : s.head? = some 34)
    {items : List UInt8 → Option LiteCjson} (h : document strtod (123 :: s) = some (type, items))
    (hkey : key ≠ []) (hit : items key = some it) :
    ∃ size last, walk strtod 999 (fun _ => false) s = some (.ended size last) ∧
      s[last]? = some 125 ∧
      (walk strtod liteCjsonNestingLimit (fun item => item.value = key)
        (s.take (last + 1))).bind Walk.item = some it := by
  obtain ⟨size, last, hwalk, hlast, rfl⟩ := walk_of_document hs h
  have hhead : (s.take (last + 1)).head? = some 34 := by
    rw [List.head?_take, if_neg (Nat.succ_ne_zero _), hs]
  have hsize : size ≠ 0 := Nat.ne_of_gt (lt_of_ended hwalk)
  rw [liteCjsonObjectItem_object hhead hkey hsize] at hit
  exact ⟨size, last, hwalk, hlast, hit⟩

theorem value_of_found {value : Nat → Option (LiteCjson × Nat)} {rounds index : Nat}
    {wanted : Nat → LiteCjson → Bool} {key : LiteCjson}
    (h : walkMembers content value wanted rounds o index = some (.found key lite)) :
    ∃ v e, value v = some (lite, e) := by
  induction rounds generalizing o index with
  | zero => cases h
  | succ rounds ih =>
    simp only [walkMembers] at h
    obtain ⟨⟨key', lite', m⟩, hmember, h⟩ := Option.bind_eq_some_iff.mp h
    split at h
    · cases h
      simp only [parseMember] at hmember
      obtain ⟨r, -, hmember⟩ := Option.bind_eq_some_iff.mp hmember
      split at hmember
      · obtain ⟨⟨lite', e⟩, hval, heq⟩ := Option.map_eq_some_iff.mp hmember
        cases heq
        exact ⟨_, _, hval⟩
      · cases hmember
    split at h
    · exact ih h
    · cases h

theorem value_of_objectItem (h : liteCjsonObjectItem strtod lite key = some it) :
    ∃ v e, parseValue strtod lite.value liteCjsonNestingLimit v = some (it, e) := by
  simp only [liteCjsonObjectItem] at h
  split at h
  · cases h
  split at h
  · cases h
  split at h
  next hfound =>
    cases h
    exact value_of_found hfound
  · cases h

theorem mem_of_document (hs : s.head? = some 34)
    {d : List UInt8 → Option LiteCjson} (h : document strtod (123 :: s) = some (type, d))
    (hkey : key ≠ []) (hit : d key = some it) (hc : IsContainer it) : ∀ b ∈ it.value, b ∈ s := by
  obtain ⟨size, last, -, -, hfound⟩ := walks_of_document hs h hkey hit
  obtain ⟨w, hwalk, hw⟩ := Option.bind_eq_some_iff.mp hfound
  cases w with
  | ended size last => cases hw
  | found key' lite =>
    cases hw
    obtain ⟨v, e, hval⟩ := value_of_found hwalk
    intro b hb
    rw [slice_of_parseValue hc hval] at hb
    exact List.mem_of_mem_take (List.mem_of_mem_drop (List.mem_of_mem_take hb))

theorem drop_value (key s : List UInt8) : (quote key ++ 58 :: s).drop (key.length + 3) = s := by
  have hsplit : quote key ++ 58 :: s = (quote key ++ [58]) ++ s := by simp
  have hlen : key.length + 3 = (quote key ++ [58]).length := by
    rw [List.length_append, length_quote, List.length_singleton]
  rw [hsplit, hlen, List.drop_left]

theorem parseMember_string (hbody : isBody key = true) (n : Nat) :
    parseMember (quote key ++ 58 :: 34 :: s)
        (parseValue strtod (quote key ++ 58 :: 34 :: s) (n + 1)) 0 =
      (parseString (quote key ++ 58 :: 34 :: s) (key.length + 3)).map fun r =>
        (keyItem key, r.1, bufferSkipWhitespace (quote key ++ 58 :: 34 :: s) r.2) := by
  have hdrop := drop_value key (34 :: s)
  rw [parseMember_key hbody, bufferSkipWhitespace_self hdrop rfl, parseValue,
    dispatch_of_head hdrop (by decide) (by decide) (by decide), if_pos rfl]

theorem inputEnd_of_document (hbody : isBody key = true) {d : List UInt8 → Option LiteCjson}
    (h : document strtod (123 :: (quote key ++ 58 :: 34 :: s)) = some (type, d)) :
    ∃ len, inputEnd s = some len := by
  obtain ⟨size, last, hwalk, hlast, -⟩ := walk_of_document (by rfl) h
  obtain ⟨key', lite, m, b, hmember, -⟩ := walk_first hwalk hlast
  rw [parseMember_string hbody] at hmember
  obtain ⟨r, hval, -⟩ := Option.map_eq_some_iff.mp hmember
  have hbehind : (quote key ++ 58 :: 34 :: s).drop (key.length + 3 + 1) = s := by
    rw [← List.drop_drop, drop_value, List.drop_succ_cons, List.drop_zero]
  simp only [parseString, hbehind] at hval
  split at hval
  · obtain ⟨len, hlen, -⟩ := Option.map_eq_some_iff.mp hval
    exact ⟨len, hlen⟩
  · cases hval

theorem isBody_of_document (hbody : isBody key = true) (hkey : key ≠ [])
    {d : List UInt8 → Option LiteCjson}
    (h : document strtod (123 :: (quote key ++ 58 :: 34 :: s)) = some (type, d))
    (hit : d key = some it) : isBody it.value = true := by
  obtain ⟨size, last, hwalk, hlast, hfound⟩ := walks_of_document (by rfl) h hkey hit
  obtain ⟨key', lite, m, b, hmember, hle, -, -⟩ := walk_first hwalk hlast
  have hquote := length_quote key
  -- the bracket at the end stands behind the quote that opens the value
  have hbehind : key.length + 3 ≤ last := by
    rw [parseMember_string hbody] at hmember
    obtain ⟨⟨lite', e⟩, hval, heq⟩ := Option.map_eq_some_iff.mp hmember
    obtain ⟨-, -, -, -, hgo⟩ := isBody_of_parseString hval
    simp only [Prod.mk.injEq] at heq
    have hskip := le_skip_succ (quote key ++ 58 :: 34 :: s) e
    omega
  have htake : (quote key ++ 58 :: 34 :: s).take (last + 1) =
      quote key ++ 58 :: 34 :: s.take (last - (key.length + 3)) := by
    have hsum : last + 1 = (quote key).length + (last - (key.length + 3) + 1 + 1) := by omega
    rw [hsum, List.take_length_add_append, List.take_succ_cons, List.take_succ_cons]
  rw [htake] at hfound
  obtain ⟨w, hw, hit'⟩ := Option.bind_eq_some_iff.mp hfound
  rw [walk, liteCjsonNestingLimit, walkMembers, parseMember_string hbody] at hw
  obtain ⟨r, hr, hw⟩ := Option.bind_eq_some_iff.mp hw
  obtain ⟨⟨lite', e⟩, hval, rfl⟩ := Option.map_eq_some_iff.mp hr
  simp only [keyItem, decide_true, if_true] at hw
  cases hw
  cases hit'
  obtain ⟨body, hb, rfl, -⟩ := isBody_of_parseString hval
  exact hb

theorem isValue_of_document {p x : List UInt8} (hbody : isBody key = true) (hkey : key ≠ [])
    (hx : x ≠ []) {items : List UInt8 → Option LiteCjson}
    (h : document strtod (123 :: (quote key ++ 58 :: (p ++ x))) = some (type, items))
    (hit : items key = some it) (hp : it.value = p) (hc : IsContainer it) :
    ∃ k, IsValue (lexis strtod) 999 k p ∧ it = item strtod k p := by
  obtain ⟨size, last, hwalk, hlast, hfound⟩ := walks_of_document (by rfl) h hkey hit
  obtain ⟨key', lite, m, b, hmember, hle, hb, hbEnds⟩ := walk_first hwalk hlast
  generalize hS : quote key ++ 58 :: (p ++ x) = S at hwalk hlast hfound hmember hb
  have hdropC : S.drop (key.length + 3) = p ++ x := by
    rw [← hS]
    exact drop_value key (p ++ x)
  have hends : Ends b := by
    rcases hbEnds with rfl | rfl
    · exact ends_comma
    · exact ⟨rfl, rfl⟩
  have hmemberS := parseMember_key (s := p ++ x) hbody (parseValue strtod S 999)
  rw [hS, hmember] at hmemberS
  obtain ⟨⟨lite', e⟩, hval, heq⟩ := Option.map_eq_some_iff.mp hmemberS.symm
  simp only [Prod.mk.injEq] at heq
  obtain ⟨rfl, rfl, rfl⟩ := heq
  obtain ⟨hgo, b', hb', hns, -⟩ := advances_parseValue strtod S 999 _ _ _ hval
  have hxpos := List.length_pos_iff.mpr hx
  have hlenS : S.length - (key.length + 3) = p.length + x.length := by
    rw [← List.length_drop, hdropC, List.length_append]
  obtain ⟨ws, hws, hdropV, hskipV⟩ := drop_of_skip (by omega) hb' hns
  have hdropV' : b' :: S.drop (bufferSkipWhitespace S (key.length + 3) + 1) =
      S.drop (bufferSkipWhitespace S (key.length + 3)) := by
    obtain ⟨hlt, hget⟩ := List.getElem?_eq_some_iff.mp hb'
    rw [List.drop_eq_getElem_cons hlt, hget]
  rw [hdropV'] at hdropV
  have hmLt := lt_of_getElem? hb
  have hlastLt := lt_of_getElem? hlast
  have hskipE := le_skip_succ S e
  by_cases he : e < S.length
  · -- the value ends before the text does
    obtain ⟨ws', hws', hdropE, hskip⟩ := drop_of_skip he hb hends.1
    obtain ⟨k, t, hk, rfl, hdropT⟩ := isValue_of_parseValue strtod S 999 _ _ _ _ hval
      (List.getElem?_eq_getElem he)
      (isNumberByte_behind hws' hends hdropE (List.getElem?_eq_getElem he))
    let M : Member := ⟨[], key, [], ⟨ws, k, t, ws'⟩⟩
    have hM : M.Ok (lexis strtod) (IsValue (lexis strtod) 999) :=
      ⟨spaces_nil, hbody, spaces_nil, hws, hk, hws'⟩
    have hSM : S = M.bytes ++ b :: S.drop (bufferSkipWhitespace S e + 1) := by
      conv_lhs => rw [← hS, ← hdropC, hdropV, hdropT, hdropE]
      simp [M, Member.bytes, Element.bytes]
    have hlenM : M.bytes.length = bufferSkipWhitespace S e := by
      have hlen := congrArg List.length hSM
      simp only [List.length_append, List.length_cons, List.length_drop] at hlen
      omega
    have htake : S.take (last + 1) =
        M.bytes ++ b :: (S.drop (bufferSkipWhitespace S e + 1)).take (last - M.bytes.length) := by
      conv_lhs => rw [hSM]
      have hsum : last + 1 = M.bytes.length + (last - M.bytes.length + 1) := by omega
      rw [hsum, List.take_length_add_append, List.take_succ_cons]
    rw [htake, walk_wanted (member_mono hM) hends (decide_eq_true rfl)] at hfound
    have hit' : item strtod k t = it := Option.some.inj hfound
    rw [← hit'] at hc hp ⊢
    rw [value_of_item hc] at hp
    exact ⟨k, hp ▸ hk, by rw [hp]⟩
  · -- the last bracket is taken for the end of the value and of the object
    have heq : e = S.length := by omega
    have hfull : S.take (last + 1) = S := List.take_of_length_le (by omega)
    have hmore := parseMember_key (s := p ++ x) hbody (parseValue strtod S liteCjsonNestingLimit)
    have hval' : parseValue strtod S liteCjsonNestingLimit _ = _ :=
      parseValue_succ strtod S 999 _ _ hval
    rw [hS, hval', Option.map_some] at hmore
    rw [hfull] at hfound
    simp only [walk, walkMembers, hmore, Option.bind_some, keyItem, decide_true, if_true,
      Walk.item] at hfound
    cases hfound
    have hslice := slice_of_parseValue hc hval
    rw [hp, heq, List.take_of_length_le (by rw [List.length_drop])] at hslice
    rw [hdropC, ← hslice] at hdropV
    -- so the slice stands behind as many spaces as bytes follow it
    have hlenWs : ws.length = x.length := by
      have hlen := congrArg List.length hdropV
      simp only [List.length_append] at hlen
      omega
    have hpb : p = b' :: S.drop (bufferSkipWhitespace S (key.length + 3) + 1) := by
      rw [hslice, hdropV']
    obtain ⟨c, ws', rfl⟩ := List.exists_cons_of_ne_nil (List.length_pos_iff.mp (hlenWs ▸ hxpos))
    rw [hpb, List.cons_append, List.cons_append] at hdropV
    have hspace := hws c List.mem_cons_self
    rw [← (List.cons.inj hdropV).1, hns] at hspace
    cases hspace

end ReadBack

end AliyunIot.Cjson
