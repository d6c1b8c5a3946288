import AliyunIot.Infra.Atoi
import AliyunIot.Infra.CjsonItem

/-!
# Keys with dots and indices

`lite_cjson_object_item` takes a key of `key_len` bytes that stands in a longer string, and looks
for its dots and brackets on its own. `compound_lookup_iff` says for which keys it finds what the
segments of the key name one by one.
-/

namespace AliyunIot.Cjson

open Lib Libc Format

/-- `atoi` as the accessors take it. -/
def libcAtoi : Atoi where
  convert := Libc.atoi
  isInt s := by
    rw [atoi_eq]
    exact isInt_saturate _

section
variable (strtod : Strtod)

/-- The rounds of `lite_cjson_object_item` over what stands between the dots from `key_iter` on, up
to the end of the string; `left` is `key_len - (key_iter - key)`. A part of no or less than no bytes
is found nowhere. -/
def itemRounds : List (List UInt8) → Int → LiteCjson → Option LiteCjson
  | [], _, lite => some lite
  | [part], left, lite =>
    if left < 0 then none else itemOfPart strtod libcAtoi lite (part.take left.toNat)
  | part :: parts, left, lite =>
    (itemOfPart strtod libcAtoi lite part).bind
      (itemRounds parts (left - (part.length + 1 : Nat)))

/-- `lite_cjson_object_item` for the first `keyLen` bytes of a string. -/
def liteCjsonObjectItemIn (lite : LiteCjson) (key : CStr) (keyLen : Nat) : Option LiteCjson :=
  if lite.type ≠ .object ∨ lite.size = 0 ∨ keyLen = 0 then none
  else itemRounds strtod (key.val.splitOn 46) keyLen lite

end

/-- A segment of a key: a name and what may stand in brackets behind it. -/
structure Segment where
  name : List UInt8
  index : Option (List UInt8)
  plain : ∀ b ∈ name ++ index.getD [], b ≠ 0 ∧ b ≠ 46 ∧ b ≠ 91 ∧ b ≠ 93

namespace Segment

def text (seg : Segment) : List UInt8 :=
  match seg.index with
  | none => seg.name
  | some n => seg.name ++ 91 :: (n ++ [93])

/-- A decimal number: digits, and at least one. -/
def IsDecimal (n : List UInt8) : Prop := n ≠ [] ∧ ∀ b ∈ n, isDigit b = true

instance (n : List UInt8) : Decidable (IsDecimal n) :=
  inferInstanceAs (Decidable (n ≠ [] ∧ ∀ b ∈ n, isDigit b = true))

/-- What a segment names: a member, or an element of the array that is the member. -/
def lookup (strtod : Strtod) (lite : LiteCjson) (seg : Segment) : Option LiteCjson :=
  match seg.index with
  | none => liteCjsonObjectItem strtod lite seg.name
  | some n =>
    if IsDecimal n then
      (liteCjsonObjectItem strtod lite seg.name).bind fun array =>
        liteCjsonArrayItem strtod array (leadingNat n).2
    else none

/-- The index, if any, is a number of at most ten digits. -/
def Readable (seg : Segment) : Prop := ∀ n ∈ seg.index, IsDecimal n ∧ n.length ≤ 10

end Segment

def keyText : List Segment → List UInt8
  | [] => []
  | [seg] => seg.text
  | seg :: segs => seg.text ++ 46 :: keyText segs

section
variable (strtod : Strtod)

def descend (lite : LiteCjson) (segs : List Segment) : Option LiteCjson :=
  segs.foldlM (Segment.lookup strtod) lite

/-- What a segment is taken for: an index of one to ten bytes for the number that `atoi` makes of
it, and a segment with any other index for the name of a member. -/
def misread (lite : LiteCjson) (seg : Segment) : Option LiteCjson :=
  match seg.index with
  | none => liteCjsonObjectItem strtod lite seg.name
  | some n =>
    if n = [] ∨ 10 < n.length then liteCjsonObjectItem strtod lite seg.text
    else
      (liteCjsonObjectItem strtod lite seg.name).bind fun array =>
        liteCjsonArrayItem strtod array (Libc.atoi n)

/-- The segments looked up in turn, each as what it is taken for. -/
def follow (lite : LiteCjson) (segs : List Segment) : Option LiteCjson :=
  segs.foldlM (misread strtod) lite

/-- Every index the descent comes to is readable, or what is misread there leads to the same end. -/
def ReadAlike : LiteCjson → List Segment → Prop
  | _, [] => True
  | lite, seg :: segs =>
    (seg.Readable → ∀ next ∈ seg.lookup strtod lite, ReadAlike next segs) ∧
      (¬ seg.Readable →
        (misread strtod lite seg).bind (follow strtod · segs) =
          (seg.lookup strtod lite).bind (descend strtod · segs))

end

/-- An object that was parsed; the length of its text is an `int`. -/
structure ParsedObject (strtod : Strtod) where
  content : List UInt8
  lite : LiteCjson
  parsed : liteCjsonParse strtod content = some lite
  type_eq : lite.type = .object
  short : (lite.value.length : Int) ≤ intMax

/-! ## The parts of a segment -/

variable {strtod : Strtod}

theorem scanBrackets_append {key xs rest : List UInt8} (h : ∀ b ∈ xs, b ≠ 91 ∧ b ≠ 93) (i : Nat)
    (found : Brackets) :
    scanBrackets key i (xs ++ rest) found = scanBrackets key (i + xs.length) rest found := by
  induction xs generalizing i with
  | nil => rfl
  | cons b xs ih =>
    obtain ⟨⟨hpre, hsuf⟩, hxs⟩ := List.forall_mem_cons.mp h
    rw [List.cons_append, scanBrackets, if_neg hpre, if_neg hsuf, ih hxs, List.length_cons]
    congr 1
    omega

namespace Segment

variable (seg : Segment)

theorem plain_name : ∀ b ∈ seg.name, b ≠ 91 ∧ b ≠ 93 :=
  fun b hb => (seg.plain b (List.mem_append_left _ hb)).2.2

theorem plain_index {n : List UInt8} (h : seg.index = some n) : ∀ b ∈ n, b ≠ 91 ∧ b ≠ 93 :=
  fun b hb => (seg.plain b (List.mem_append_right _ (by rw [h]; exact hb))).2.2

theorem mem_text {b : UInt8} (h : b ∈ seg.text) :
    b ∈ seg.name ++ seg.index.getD [] ∨ b = 91 ∨ b = 93 := by
  unfold text at h
  split at h
  · exact .inl (List.mem_append_left _ h)
  · next n hn =>
    rw [List.mem_append, List.mem_cons, List.mem_append, List.mem_singleton] at h
    rw [hn, List.mem_append]
    rcases h with hname | hopen | hindex | hclose
    · exact .inl (.inl hname)
    · exact .inr (.inl hopen)
    · exact .inl (.inr hindex)
    · exact .inr (.inr hclose)

theorem dot_not_mem_text : 46 ∉ seg.text := by
  intro h
  rcases seg.mem_text h with hplain | hopen | hclose
  · exact (seg.plain 46 hplain).2.1 rfl
  · cases hopen
  · cases hclose

theorem zero_not_mem_text : 0 ∉ seg.text := by
  intro h
  rcases seg.mem_text h with hplain | hopen | hclose
  · exact (seg.plain 0 hplain).1 rfl
  · cases hopen
  · cases hclose

theorem keyArrayIndex_none (h : seg.index = none) :
    liteCjsonKeyArrayIndex libcAtoi seg.text = none := by
  have htext : seg.text = seg.name := by rw [text, h]
  rw [liteCjsonKeyArrayIndex, htext, scanBrackets_plain seg.plain_name]

theorem keyArrayIndex_some {n : List UInt8} (h : seg.index = some n) :
    liteCjsonKeyArrayIndex libcAtoi seg.text =
      if n = [] ∨ 10 < n.length then none else some (seg.name.length, Libc.atoi n) := by
  have htext : seg.text = seg.name ++ 91 :: (n ++ [93]) := by rw [text, h]
  have hindex := seg.plain_index h
  -- The byte in front of the closing bracket is the opening one exactly for an empty index.
  have hbefore : seg.text[seg.name.length + 1 + n.length - 1]? = some 91 ↔ n = [] := by
    have hpos : seg.name.length + 1 + n.length - 1 = seg.name.length + n.length := by omega
    rw [htext, hpos, List.getElem?_append_right (Nat.le_add_right _ _), Nat.add_sub_cancel_left]
    rcases List.eq_nil_or_concat n with rfl | ⟨init, b, rfl⟩
    · exact iff_of_true rfl rfl
    · rw [List.concat_eq_append] at hindex ⊢
      rw [List.length_append, List.length_singleton, List.getElem?_cons_succ, List.append_assoc,
        List.getElem?_append_right (Nat.le_refl _), Nat.sub_self]
      refine iff_of_false (fun hb => ?_) (by simp)
      exact (hindex b (by simp)).1 (Option.some.inj hb)
  have hscan : scanBrackets seg.text 0 seg.text ⟨0, none, none⟩ =
      if n = [] then none
      else some ⟨0, some seg.name.length, some (seg.name.length + 1 + n.length)⟩ := by
    conv_lhs => arg 3; rw [htext]
    rw [scanBrackets_append seg.plain_name, Nat.zero_add, scanBrackets, if_pos rfl,
      if_neg (fun h => h rfl), scanBrackets_append hindex, scanBrackets, if_neg (by decide),
      if_pos rfl, if_neg (fun h => h rfl)]
    by_cases hn : n = []
    · rw [if_pos (hbefore.mpr hn), if_pos hn]
    · rw [if_neg (fun hb => hn (hbefore.mp hb)), if_neg hn]
      rfl
  rw [liteCjsonKeyArrayIndex, hscan]
  by_cases hn : n = []
  · rw [if_pos hn, if_pos (.inl hn)]
  · have hlength : seg.name.length + 1 + n.length + 1 = seg.text.length := by
      rw [htext, List.length_append, List.length_cons, List.length_append, List.length_singleton]
      omega
    have hspan : seg.name.length + 1 + n.length - seg.name.length - 1 = n.length := by omega
    have hslice : (seg.text.drop (seg.name.length + 1)).take n.length = n := by
      have hsplit : seg.text = seg.name ++ [91] ++ (n ++ [93]) := by
        rw [htext, List.append_assoc, List.singleton_append]
      have hopen : seg.name.length + 1 = (seg.name ++ [91]).length := by
        rw [List.length_append, List.length_singleton]
      rw [hsplit, hopen, List.drop_left, List.take_left]
    rw [if_neg hn]
    dsimp only
    rw [if_pos hlength, hspan]
    by_cases hlong : 10 < n.length
    · rw [if_pos hlong, if_pos (.inr hlong)]
    · rw [if_neg hlong, if_neg (fun h => h.elim hn hlong), hslice]
      rfl

end Segment

theorem itemOfPart_text (lite : LiteCjson) (seg : Segment) :
    itemOfPart strtod libcAtoi lite seg.text = misread strtod lite seg := by
  unfold itemOfPart misread
  cases hindex : seg.index with
  | none =>
    have htext : seg.text = seg.name := by rw [Segment.text, hindex]
    rw [seg.keyArrayIndex_none hindex, htext]
  | some n =>
    have hname : seg.text.take seg.name.length = seg.name := by
      rw [Segment.text, hindex]
      exact List.take_left
    rw [seg.keyArrayIndex_some hindex]
    by_cases hn : n = [] ∨ 10 < n.length
    · rw [if_pos hn]
      dsimp only
      rw [if_pos hn]
    · rw [if_neg hn]
      dsimp only
      rw [if_neg hn, hname]
      cases liteCjsonObjectItem strtod lite seg.name with
      | none => rfl
      | some array =>
        dsimp only [Option.bind_some]
        split
        · next htype =>
          rw [liteCjsonArrayItem, if_pos (.inl htype)]
        · rfl

/-! ## Items that were parsed -/

/-- An item that was parsed, of a length that is an `int`. -/
def Parsable (strtod : Strtod) (lite : LiteCjson) : Prop :=
  (∃ text, liteCjsonParse strtod text = some lite) ∧ (lite.value.length : Int) ≤ intMax

theorem Within.length_le {a b : List UInt8} (h : Within a b) : a.length ≤ b.length := by
  obtain ⟨before, after, rfl⟩ := h
  rw [List.length_append, List.length_append]
  omega

variable {lite : LiteCjson}

theorem Parsable.member {item : LiteCjson} (h : Parsable strtod lite) {name : List UInt8}
    (hitem : liteCjsonObjectItem strtod lite name = some item) : Parsable strtod item := by
  obtain ⟨⟨text, htext⟩, hshort⟩ := h
  have hguard : ¬ (lite.type ≠ .object ∨ lite.size = 0 ∨ name = []) := by
    intro hg
    rw [liteCjsonObjectItem, if_pos hg] at hitem
    cases hitem
  have htype : lite.type = .object := not_not.mp fun h => hguard (.inl h)
  obtain ⟨ms, hms⟩ := (accessors_agree strtod libcAtoi text lite htext).2 htype
  have heq : liteCjsonObjectItem strtod lite name =
      liteCjsonObjectItem strtod ⟨.object, lite.value, ms.length, 0⟩ name := by
    simp only [liteCjsonObjectItem, htype, hms.size_eq]
  rw [heq, liteCjsonObjectItem_eq hms.text.succ fun h => hguard (.inr (.inr h))] at hitem
  obtain ⟨m, hm, rfl⟩ := Option.map_eq_some_iff.mp hitem
  have hmem := List.mem_of_find?_eq_some hm
  obtain ⟨hin, hwhole⟩ := within_bracketed hms.text hmem
  have hlen := ((within_member hwhole).2.trans hin).length_le
  exact ⟨⟨_, hms.alone m hmem⟩, by omega⟩

theorem Parsable.element {item : LiteCjson} (h : Parsable strtod lite) {i : Int}
    (hitem : liteCjsonArrayItem strtod lite i = some item) : Parsable strtod item := by
  obtain ⟨⟨text, htext⟩, hshort⟩ := h
  have htype : lite.type = .array := by
    by_contra h
    rw [liteCjsonArrayItem, if_pos (.inl h)] at hitem
    cases hitem
  obtain ⟨es, hes⟩ := (accessors_agree strtod libcAtoi text lite htext).1 htype
  have hlen := (hes.within i item hitem).length_le
  rw [hes.item_eq] at hitem
  split at hitem
  · cases hitem
  · obtain ⟨e, he, rfl⟩ := Option.map_eq_some_iff.mp hitem
    exact ⟨⟨_, hes.alone e (List.mem_of_getElem? he)⟩, by omega⟩

theorem arrayItem_saturate (h : Parsable strtod lite) (n : Nat) :
    liteCjsonArrayItem strtod lite (saturate n) = liteCjsonArrayItem strtod lite n := by
  obtain ⟨⟨text, htext⟩, hshort⟩ := h
  by_cases htype : lite.type = .array
  · obtain ⟨es, hes⟩ := (accessors_agree strtod libcAtoi text lite htext).1 htype
    have hsize : es.length ≤ lite.value.length := by
      by_cases hne : es = []
      · rw [hne]
        exact Nat.zero_le _
      · obtain ⟨-, -, -, hle⟩ := reads_of_arrayText hes.text hne
        omega
    by_cases hn : (n : Int) < intMax
    · have hmin : ¬ (n : Int) ≤ intMin := by
        unfold intMin
        omega
      rw [saturate, if_neg (Int.not_le.mpr hn), if_neg hmin]
    · have hmax : saturate (n : Int) = intMax := saturate_of_le (Int.not_lt.mp hn)
      have hout (i : Int) (hi : intMax ≤ i) : liteCjsonArrayItem strtod lite i = none := by
        have hsizeEq := hes.size_eq
        have hge : i ≥ lite.size := by omega
        rw [liteCjsonArrayItem, if_pos (.inr (.inr hge))]
      rw [hmax, hout _ (Int.le_refl _), hout _ (Int.not_lt.mp hn)]
  · rw [liteCjsonArrayItem, if_pos (.inl htype), liteCjsonArrayItem, if_pos (.inl htype)]

theorem misread_of_readable (h : Parsable strtod lite) {seg : Segment}
    (hread : seg.Readable) : misread strtod lite seg = seg.lookup strtod lite := by
  unfold misread Segment.lookup
  cases hindex : seg.index with
  | none => rfl
  | some n =>
    obtain ⟨hdecimal, hshort⟩ := hread n hindex
    dsimp only
    rw [if_neg (fun h => h.elim hdecimal.1 (Nat.not_lt_of_le hshort)), if_pos hdecimal]
    cases hitem : liteCjsonObjectItem strtod lite seg.name with
    | none => rfl
    | some array =>
      rw [Option.bind_some, Option.bind_some, atoi_digits hdecimal.2,
        arrayItem_saturate (h.member hitem)]

theorem Parsable.lookup {item : LiteCjson} (h : Parsable strtod lite) {seg : Segment}
    (hitem : seg.lookup strtod lite = some item) : Parsable strtod item := by
  unfold Segment.lookup at hitem
  split at hitem
  · exact h.member hitem
  · split at hitem
    · obtain ⟨array, harray, hitem⟩ := Option.bind_eq_some_iff.mp hitem
      exact (h.member harray).element hitem
    · cases hitem

/-! ## The rounds -/

theorem itemRounds_cons (part : List UInt8) {parts : List (List UInt8)} (hne : parts ≠ [])
    (left : Int) (lite : LiteCjson) :
    itemRounds strtod (part :: parts) left lite =
      (itemOfPart strtod libcAtoi lite part).bind
        (itemRounds strtod parts (left - (part.length + 1 : Nat))) := by
  obtain ⟨part', parts, rfl⟩ := List.exists_cons_of_ne_nil hne
  rfl

theorem itemRounds_of_neg {parts : List (List UInt8)} (hne : parts ≠ []) {left : Int}
    (h : left < 0) (lite : LiteCjson) : itemRounds strtod parts left lite = none := by
  induction parts generalizing left lite with
  | nil => exact absurd rfl hne
  | cons part parts ih =>
    by_cases hparts : parts = []
    · rw [hparts, itemRounds, if_pos h]
    · rw [itemRounds_cons part hparts, Option.bind_eq_none_iff]
      intro next _
      exact ih hparts (by omega) next

theorem splitOn_dot {xs : List UInt8} (h : 46 ∉ xs) (ys : List UInt8) :
    (xs ++ 46 :: ys).splitOn 46 = xs :: ys.splitOn 46 := by
  rw [List.splitOn_append_cons_self, List.splitOn_eq_singleton h, List.singleton_append]

theorem itemRounds_key {segs : List Segment} (hne : segs ≠ []) (after : List UInt8)
    (lite : LiteCjson) :
    itemRounds strtod ((keyText segs ++ after).splitOn 46) (keyText segs).length lite =
      if 46 ∈ after then none else follow strtod lite segs := by
  induction segs generalizing lite with
  | nil => exact absurd rfl hne
  | cons seg segs ih =>
    have hdot := seg.dot_not_mem_text
    cases segs with
    | nil =>
      rw [keyText]
      by_cases hafter : 46 ∈ after
      · obtain ⟨xs, ys, rfl, hxs⟩ := List.eq_append_cons_of_mem hafter
        have hpart : 46 ∉ seg.text ++ xs := by
          rw [List.mem_append, not_or]
          exact ⟨hdot, hxs⟩
        rw [← List.append_assoc, splitOn_dot hpart, if_pos hafter,
          itemRounds_cons _ (List.splitOn_ne_nil _ _), Option.bind_eq_none_iff]
        intro next _
        apply itemRounds_of_neg (List.splitOn_ne_nil _ _)
        rw [List.length_append]
        omega
      · have hpart : 46 ∉ seg.text ++ after := by
          rw [List.mem_append, not_or]
          exact ⟨hdot, hafter⟩
        have hleft : ¬ ((seg.text.length : Int) < 0) := by omega
        rw [List.splitOn_eq_singleton hpart, itemRounds, if_neg hleft, Int.toNat_natCast,
          List.take_left, if_neg hafter, follow, List.foldlM_cons, itemOfPart_text]
        simp only [List.foldlM_nil, bind_pure]
    | cons seg' segs =>
      have hleft : ((seg.text ++ 46 :: keyText (seg' :: segs)).length : Int) -
          (seg.text.length + 1 : Nat) = (keyText (seg' :: segs)).length := by
        rw [List.length_append, List.length_cons]
        omega
      have hrest := ih (List.cons_ne_nil _ _)
      rw [keyText, List.append_assoc, List.cons_append, splitOn_dot hdot,
        itemRounds_cons _ (List.splitOn_ne_nil _ _), hleft]
      · by_cases hafter : 46 ∈ after
        · rw [if_pos hafter, Option.bind_eq_none_iff]
          intro next _
          rw [hrest, if_pos hafter]
        · rw [if_neg hafter, follow, List.foldlM_cons, itemOfPart_text]
          congr 1
          funext next
          rw [hrest, if_neg hafter]
          rfl
      · exact List.cons_ne_nil _ _

theorem follow_eq_descend_iff (h : Parsable strtod lite) (segs : List Segment) :
    follow strtod lite segs = descend strtod lite segs ↔ ReadAlike strtod lite segs := by
  induction segs generalizing lite with
  | nil => exact iff_of_true rfl trivial
  | cons seg segs ih =>
    have hfollow : follow strtod lite (seg :: segs) =
        (misread strtod lite seg).bind (follow strtod · segs) := by
      rw [follow, List.foldlM_cons]
      rfl
    have hdescend : descend strtod lite (seg :: segs) =
        (seg.lookup strtod lite).bind (descend strtod · segs) := by
      rw [descend, List.foldlM_cons]
      rfl
    rw [hfollow, hdescend, ReadAlike]
    by_cases hread : seg.Readable
    · rw [misread_of_readable h hread, and_iff_left (fun hnot => absurd hread hnot),
        imp_iff_right hread]
      cases hitem : seg.lookup strtod lite with
      | none => exact iff_of_true rfl fun next hnext => by cases hnext
      | some next =>
        rw [Option.bind_some, Option.bind_some, ih (h.lookup hitem)]
        simp only [Option.mem_some_iff, forall_eq']
    · rw [and_iff_right (fun hyes => absurd hyes hread), imp_iff_right hread]

theorem zero_not_mem_keyText (segs : List Segment) : 0 ∉ keyText segs := by
  induction segs with
  | nil => exact List.not_mem_nil
  | cons seg segs ih =>
    cases segs with
    | nil => exact seg.zero_not_mem_text
    | cons seg' segs =>
      rw [keyText, List.mem_append, List.mem_cons]
      · rintro (h | h | h)
        · exact seg.zero_not_mem_text h
        · cases h
        · exact ih h
      · exact List.cons_ne_nil _ _

/-- The key in front of `after`. -/
def keyIn (segs : List Segment) (after : CStr) : CStr :=
  ⟨keyText segs ++ after.val, by
    rw [List.mem_append, not_or]
    exact ⟨zero_not_mem_keyText segs, after.2⟩⟩

theorem follow_of_refused (first : Segment) (rest : List Segment)
    (h : lite.size = 0 ∨ (keyText (first :: rest)).length = 0) :
    follow strtod lite (first :: rest) = none := by
  have hitem (key : List UInt8) (hkey : lite.size = 0 ∨ key = []) :
      liteCjsonObjectItem strtod lite key = none := by
    rw [liteCjsonObjectItem, if_pos (.inr hkey)]
  have hfirst : misread strtod lite first = none := by
    unfold misread
    rcases h with hsize | hlen
    · split
      · exact hitem _ (.inl hsize)
      · split
        · exact hitem _ (.inl hsize)
        · rw [hitem _ (.inl hsize)]
          rfl
    · have htext : first.text = [] := by
        cases rest with
        | nil => exact List.length_eq_zero_iff.mp hlen
        | cons seg segs =>
          rw [keyText] at hlen
          · rw [List.length_append, List.length_cons] at hlen
            omega
          · exact List.cons_ne_nil _ _
      unfold Segment.text at htext
      split at htext
      · exact hitem _ (.inr htext)
      · exact absurd htext (by simp)
  rw [follow, List.foldlM_cons, hfirst]
  rfl

theorem liteCjsonObjectItemIn_key (o : ParsedObject strtod) (first : Segment)
    (rest : List Segment) (after : CStr) :
    liteCjsonObjectItemIn strtod o.lite (keyIn (first :: rest) after)
        (keyText (first :: rest)).length =
      if 46 ∈ after.val then none else follow strtod o.lite (first :: rest) := by
  unfold liteCjsonObjectItemIn
  split
  · next h =>
    rw [follow_of_refused first rest (h.resolve_left (not_not.mpr o.type_eq)), ite_self]
  · exact itemRounds_key (List.cons_ne_nil _ _) after.val o.lite

/-- The lookup of a key finds what its segments name one by one, whatever follows the key. -/
def CompoundLaw (o : ParsedObject strtod) (segs : List Segment) (after : CStr) : Prop :=
  liteCjsonObjectItemIn strtod o.lite (keyIn segs after) (keyText segs).length =
    descend strtod o.lite segs

/-- **Compound keys.** A key is looked up segment by segment exactly if its segments are read alike
and no dot stands behind it, or there is one and the segments lead nowhere. -/
theorem compound_lookup_iff (o : ParsedObject strtod) (first : Segment) (rest : List Segment)
    (after : CStr) :
    CompoundLaw o (first :: rest) after ↔
      46 ∉ after.val ∧ ReadAlike strtod o.lite (first :: rest) ∨
        46 ∈ after.val ∧ descend strtod o.lite (first :: rest) = none := by
  have hparsable : Parsable strtod o.lite := ⟨⟨o.content, o.parsed⟩, o.short⟩
  rw [CompoundLaw, liteCjsonObjectItemIn_key, ← follow_eq_descend_iff hparsable]
  by_cases hafter : 46 ∈ after.val
  · rw [if_pos hafter]
    constructor
    · intro h
      exact .inr ⟨hafter, h.symm⟩
    · rintro (⟨hno, -⟩ | ⟨-, h⟩)
      · exact absurd hafter hno
      · exact h.symm
  · rw [if_neg hafter]
    constructor
    · intro h
      exact .inl ⟨hafter, h⟩
    · rintro (⟨-, h⟩ | ⟨hyes, -⟩)
      · exact h
      · exact absurd hyes hafter

/-- `{"a":[7],"b":8}`. -/
def sevenEight : ParsedObject integerStrtod where
  content := [123, 34, 97, 34, 58, 91, 55, 93, 44, 34, 98, 34, 58, 56, 125]
  lite := ⟨.object, [123, 34, 97, 34, 58, 91, 55, 93, 44, 34, 98, 34, 58, 56, 125], 2, 0⟩
  parsed := by decide
  type_eq := rfl
  short := by decide

/-- `a[x]` finds the first element, `a[00000000000]` none, and `b` is not found in front of
`.c`. -/
theorem compound_lookup_fails :
    ¬ CompoundLaw sevenEight [⟨[97], some [120], by decide⟩] CStr.empty ∧
      ¬ CompoundLaw sevenEight [⟨[97], some (List.replicate 11 48), by decide⟩] CStr.empty ∧
      ¬ CompoundLaw sevenEight [⟨[98], none, by decide⟩] ⟨[46, 99], by decide⟩ := by
  refine ⟨?_, ?_, ?_⟩ <;> unfold CompoundLaw <;> decide

end AliyunIot.Cjson
