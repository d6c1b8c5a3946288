import AliyunIot.Infra.CStr
import AliyunIot.Infra.CjsonMembers
import AliyunIot.Infra.Strtod

/-!
# The accessors of lite_cjson

The functions that look up an element or a member go over the slice of its array or object
again. They agree with what was parsed (`accessors_agree`), also where the text ends too early.
-/

namespace AliyunIot.Cjson

open Lib Lib.Json Lib.Separated

section

variable (strtod : Strtod)

def arrayItemLoop (content : List UInt8) (parseValue : Nat → Option (LiteCjson × Nat))
    (index : Int) : Nat → Nat → Nat → Option LiteCjson
  | 0, _, _ => none
  | rounds + 1, o, iterIndex =>
    (parseValue (bufferSkipWhitespace content o)).bind fun (item, o) =>
      let o := bufferSkipWhitespace content o
      if (iterIndex : Int) = index then some item
      else if content[o]? = some 44 then
        arrayItemLoop content parseValue index rounds (o + 1) (iterIndex + 1)
      else none

def liteCjsonArrayItem (lite : LiteCjson) (index : Int) : Option LiteCjson :=
  if lite.type ≠ .array ∨ index < 0 ∨ index ≥ lite.size then none
  else
    let content := lite.value
    let o := bufferSkipWhitespace content 1
    if content[0]? ≠ some 91 ∨ content[o]? = some 93 then none
    else
      arrayItemLoop content (parseValue strtod content liteCjsonNestingLimit) index
        (content.length + 1) o 0

/-- `lite_cjson_object_item_by_index`: the key and the value. -/
def liteCjsonObjectItemByIndex (lite : LiteCjson) (index : Int) :
    Option (LiteCjson × LiteCjson) :=
  if lite.type ≠ .object ∨ lite.size = 0 ∨ index < 0 ∨ index ≥ lite.size then none
  else
    let content := lite.value
    let o := bufferSkipWhitespace content 1
    if content[0]? ≠ some 123 ∨ content[o]? = some 125 then none
    else
      match walkMembers content (parseValue strtod content liteCjsonNestingLimit)
        (fun itemIndex _ => (itemIndex : Int) = index) (content.length + 1) o 0 with
      | some (.found key value) => some (key, value)
      | _ => none

/-- The brackets that were found in a key, and how many are open. -/
structure Brackets where
  deep : Nat
  pre : Option Nat
  suf : Option Nat

/-- The loop of `_lite_cjson_key_array_index`, from the byte at `index` on. -/
def scanBrackets (key : List UInt8) : Nat → List UInt8 → Brackets → Option Brackets
  | _, [], found => some found
  | index, b :: rest, found =>
    if b = 91 then
      if found.deep ≠ 0 then none
      else scanBrackets key (index + 1) rest ⟨found.deep + 1, found.pre <|> some index, found.suf⟩
    else if b = 93 then
      if found.deep ≠ 1 then none
      else if key[index - 1]? = some 91 then none
      else scanBrackets key (index + 1) rest ⟨found.deep - 1, found.pre, found.suf <|> some index⟩
    else scanBrackets key (index + 1) rest found

/-- `_lite_cjson_key_array_index`: the length of the key in front of the brackets, and the index
between them. -/
def liteCjsonKeyArrayIndex (atoi : Atoi) (key : List UInt8) : Option (Nat × Int) :=
  match scanBrackets key 0 key ⟨0, none, none⟩ with
  | some ⟨_, some pre, some suf⟩ =>
    if suf + 1 = key.length then
      if suf - pre - 1 > 10 then none
      else some (pre, atoi.convert ((key.drop (pre + 1)).take (suf - pre - 1)))
    else none
  | _ => none

/-- One round of `lite_cjson_object_item`: a key, or a key and an index in brackets. -/
def itemOfPart (atoi : Atoi) (lite : LiteCjson) (part : List UInt8) : Option LiteCjson :=
  match liteCjsonKeyArrayIndex atoi part with
  | some (partialKeyLen, arrayIndex) =>
    match liteCjsonObjectItem strtod lite (part.take partialKeyLen) with
    | some prev => if prev.type ≠ .array then none else liteCjsonArrayItem strtod prev arrayIndex
    | none => none
  | none => liteCjsonObjectItem strtod lite part

/-- `lite_cjson_object_item`: the parts of the key stand between dots. -/
def liteCjsonObjectItemPath (atoi : Atoi) (lite : LiteCjson) (key : CStr) : Option LiteCjson :=
  if lite.type ≠ .object ∨ lite.size = 0 ∨ key.val = [] then none
  else (key.val.splitOn 46).foldlM (itemOfPart strtod atoi) lite

end

/-- A key that names a member of the object itself. -/
def IsPlainKey (key : CStr) : Prop := key.val ≠ [] ∧ ∀ b ∈ key.val, b ≠ 46 ∧ b ≠ 91 ∧ b ≠ 93

/-- `slice` lies in `s`. -/
def Within (slice s : List UInt8) : Prop := ∃ before after, s = before ++ (slice ++ after)

/-- What `lite_cjson` tells of an array is what its text is made of. -/
structure ArrayAgrees (strtod : Strtod) (lite : LiteCjson) (es : List Element) : Prop where
  text : ArrayText strtod 999 es lite.value
  size_eq : lite.size = es.length
  item_eq : ∀ i : Int, liteCjsonArrayItem strtod lite i =
    if i < 0 then none else es[i.toNat]?.map (elementItem strtod)
  alone : ∀ e ∈ es, liteCjsonParse strtod e.text = some (elementItem strtod e)
  within : ∀ i it, liteCjsonArrayItem strtod lite i = some it → Within it.value lite.value

structure ObjectAgrees (strtod : Strtod) (atoi : Atoi) (lite : LiteCjson) (ms : List Member) :
    Prop where
  text : ObjectText strtod 999 ms lite.value
  size_eq : lite.size = ms.length
  byIndex : ∀ i : Int, liteCjsonObjectItemByIndex strtod lite i =
    if i < 0 then none else ms[i.toNat]?.map (memberItems strtod)
  byKey : ∀ key, IsPlainKey key → liteCjsonObjectItemPath strtod atoi lite key =
    (ms.find? fun m => m.key = key.val).map fun m => elementItem strtod m.value
  alone : ∀ m ∈ ms, liteCjsonParse strtod m.value.text = some (elementItem strtod m.value)
  within_index : ∀ i key it, liteCjsonObjectItemByIndex strtod lite i = some (key, it) →
    Within key.value lite.value ∧ Within it.value lite.value
  within_key : ∀ key it, IsPlainKey key →
    liteCjsonObjectItemPath strtod atoi lite key = some it → Within it.value lite.value

variable {strtod : Strtod} {atoi : Atoi} {content v : List UInt8} {n o : Nat} {lite : LiteCjson}
  {es : List Element} {ms : List Member} {value : Nat → Option (LiteCjson × Nat)}

section Loops

theorem arrayItemLoop_of_reads {xs : List LiteCjson} {last : Nat}
    (h : Reads content (elementStep content value) o xs last) {rounds : Nat}
    (hrounds : xs.length ≤ rounds) (iter i : Nat) (hi : iter ≤ i) :
    arrayItemLoop content value i rounds o iter = xs[i - iter]? := by
  induction h generalizing rounds iter with
  | last hstep hend =>
    cases rounds with
    | zero => cases hrounds
    | succ rounds =>
      obtain ⟨e₀, hval, rfl⟩ := value_of_elementStep hstep
      simp only [arrayItemLoop, hval, Option.bind_some, if_neg hend, Int.natCast_inj]
      split
      next heq => rw [heq, Nat.sub_self, List.getElem?_cons_zero]
      next hne => rw [List.getElem?_eq_none (by rw [List.length_singleton]; omega)]
  | more hstep hcomma _ ih =>
    cases rounds with
    | zero => cases hrounds
    | succ rounds =>
      obtain ⟨e₀, hval, rfl⟩ := value_of_elementStep hstep
      simp only [arrayItemLoop, hval, Option.bind_some, if_pos hcomma, Int.natCast_inj]
      split
      next heq => rw [heq, Nat.sub_self, List.getElem?_cons_zero]
      next hne =>
        have hindex : i - iter = i - (iter + 1) + 1 := by omega
        rw [ih (Nat.le_of_succ_le_succ hrounds) _ (by omega), hindex, List.getElem?_cons_succ]

theorem walkEnd_index (last i : Nat) (xs : List (LiteCjson × LiteCjson)) (index : Nat)
    (hi : index ≤ i) :
    walkEnd (fun itemIndex _ => decide (itemIndex = i)) last index xs =
      match xs[i - index]? with
      | some x => .found x.1 x.2
      | none => .ended (index + xs.length) last := by
  induction xs generalizing index with
  | nil => rfl
  | cons x xs ih =>
    simp only [walkEnd, decide_eq_true_eq]
    split
    next heq => rw [heq, Nat.sub_self, List.getElem?_cons_zero]
    next hne =>
      have hindex : i - index = i - (index + 1) + 1 := by omega
      rw [ih _ (by omega), hindex, List.getElem?_cons_succ, List.length_cons]
      have hlen : index + 1 + xs.length = index + (xs.length + 1) := by omega
      rw [hlen]

theorem walkEnd_key (last : Nat) (key : List UInt8) (ms : List Member) (index : Nat) :
    walkEnd (fun _ item => item.value = key) last index (ms.map (memberItems strtod)) =
      match ms.find? (fun m => m.key = key) with
      | some m => .found (keyItem m.key) (elementItem strtod m.value)
      | none => .ended (index + ms.length) last := by
  induction ms generalizing index with
  | nil => rfl
  | cons m ms ih =>
    rw [List.map_cons, walkEnd, List.find?_cons]
    by_cases hkey : m.key = key
    · simp [memberItems, keyItem, hkey]
    · have hlen : index + 1 + ms.length = index + (ms.length + 1) := by omega
      simp [memberItems, keyItem, hkey, ih, hlen]

end Loops

section Levels

theorem WholeElement.succ {e : Element} (h : WholeElement strtod n e) :
    WholeElement strtod (n + 1) e := h.mono fun _ _ hk => hk.succ

theorem WholeMember.succ {m : Member} (h : WholeMember strtod n m) :
    WholeMember strtod (n + 1) m := h.mono fun _ _ hk => hk.succ

theorem closed_mono {α : Type} {whole whole' cut cut' : α → Prop} {bytes : α → List UInt8}
    {closing : UInt8} {parts : List α} {s : List UInt8} (hwhole : ∀ a, whole a → whole' a)
    (hcut : ∀ a, cut a → cut' a) (h : Closed whole cut bytes closing parts s) :
    Closed whole' cut' bytes closing parts s := by
  rcases h with ⟨hparts, hs⟩ | ⟨init, a, hparts, hinit, ha, hs⟩
  · exact .inl ⟨fun a ha => hwhole a (hparts a ha), hs⟩
  · exact .inr ⟨init, a, hparts, fun b hb => hwhole b (hinit b hb), hcut a ha, hs⟩

theorem ArrayText.succ (h : ArrayText strtod n es v) : ArrayText strtod (n + 1) es v := by
  rcases h with h | ⟨hne, hlast, s, hv, hclosed⟩
  · exact .inl h
  · exact .inr ⟨hne, hlast, s, hv,
      closed_mono (fun _ ha => WholeElement.succ ha) (fun _ ha => ha.succ) hclosed⟩

theorem ObjectText.succ (h : ObjectText strtod n ms v) : ObjectText strtod (n + 1) ms v := by
  rcases h with h | ⟨hne, hlast, s, hv, hclosed⟩
  · exact .inl h
  · exact .inr ⟨hne, hlast, s, hv,
      closed_mono (fun _ ha => WholeMember.succ ha) (fun _ ha => ha.succ) hclosed⟩

end Levels

section Keys

theorem scanBrackets_plain {key rest : List UInt8} (h : ∀ b ∈ rest, b ≠ 91 ∧ b ≠ 93) (index : Nat)
    (found : Brackets) : scanBrackets key index rest found = some found := by
  induction rest generalizing index with
  | nil => rfl
  | cons b rest ih =>
    obtain ⟨⟨hpre, hsuf⟩, hrest⟩ := List.forall_mem_cons.mp h
    rw [scanBrackets, if_neg hpre, if_neg hsuf, ih hrest]

theorem liteCjsonObjectItemPath_plain {key : CStr} (hkey : IsPlainKey key) :
    liteCjsonObjectItemPath strtod atoi lite key = liteCjsonObjectItem strtod lite key.val := by
  obtain ⟨hne, hplain⟩ := hkey
  have hdots : key.val.splitOn 46 = [key.val] := by
    refine List.splitOnP_eq_singleton fun b hb => ?_
    simpa using (hplain b hb).1
  have hnone : liteCjsonKeyArrayIndex atoi key.val = none := by
    rw [liteCjsonKeyArrayIndex, scanBrackets_plain fun b hb => (hplain b hb).2]
  by_cases hguard : lite.type ≠ .object ∨ lite.size = 0 ∨ key.val = []
  · rw [liteCjsonObjectItemPath, if_pos hguard, liteCjsonObjectItem, if_pos hguard]
  · rw [liteCjsonObjectItemPath, if_neg hguard, hdots, List.foldlM_cons, itemOfPart, hnone]
    simp only [List.foldlM_nil, bind_pure]

end Keys

section Slices

theorem within_append (p slice s : List UInt8) : Within slice (p ++ (slice ++ s)) := ⟨p, s, rfl⟩

theorem Within.trans {a b c : List UInt8} (h : Within a b) (h' : Within b c) : Within a c := by
  obtain ⟨p, s, rfl⟩ := h
  obtain ⟨p', s', rfl⟩ := h'
  exact ⟨p' ++ p, s ++ s', by simp only [List.append_assoc]⟩

theorem within_item {k : Kind} {t : List UInt8} (h : Parsed strtod n k t) :
    Within (item strtod k t).value t := by
  have hself : Within t t := ⟨[], [], by simp⟩
  cases k with
  | string =>
    obtain ⟨b, s, rfl, -⟩ := head_of_parsed h
    refine ⟨[b], s.drop (s.length - 1), ?_⟩
    rw [item, List.tail_cons, List.dropLast_eq_take, List.take_append_drop]
    rfl
  | null | false | true | number | array | object => exact hself

theorem within_joined {p : List UInt8} {ps : List (List UInt8)} (h : p ∈ ps) :
    Within p (joined ps) := by
  obtain ⟨as, bs, rfl⟩ := List.append_of_mem h
  have hright : ∃ s, joined (p :: bs) = p ++ s := by
    cases bs with
    | nil => exact ⟨[], (List.append_nil p).symm⟩
    | cons b bs => exact ⟨44 :: joined (b :: bs), rfl⟩
  obtain ⟨s, hs⟩ := hright
  cases as with
  | nil => exact ⟨[], s, hs⟩
  | cons a as =>
    refine ⟨joined (a :: as) ++ [44], s, ?_⟩
    rw [joined_append (List.cons_ne_nil _ _) (List.cons_ne_nil _ _), hs]
    simp only [List.append_assoc, List.cons_append, List.nil_append]

theorem within_bracketed {α : Type} {whole cut : α → Prop} {bytes : α → List UInt8}
    {opening closing : UInt8} {parts : List α} {a : α}
    (h : Bracketed strtod whole cut bytes opening closing parts v) (ha : a ∈ parts) :
    Within (bytes a) v ∧ (whole a ∨ cut a) := by
  rcases h with ⟨rfl, -⟩ | ⟨-, -, s, rfl, hclosed⟩
  · cases ha
  have hin := within_joined (List.mem_map_of_mem (f := bytes) ha)
  rcases hclosed with ⟨hparts, rfl⟩ | ⟨init, b, rfl, hinit, hcut, rfl⟩
  · exact ⟨hin.trans (within_append [opening] _ [closing]), .inl (hparts a ha)⟩
  · refine ⟨hin.trans ⟨[opening], [], by simp⟩, ?_⟩
    rcases List.mem_append.mp ha with ha | ha
    · exact .inl (hinit a ha)
    · rw [List.mem_singleton.mp ha]
      exact .inr hcut

theorem parsed_of_element {el : Element} (h : WholeElement strtod n el ∨ CutElement strtod n el) :
    Parsed strtod n el.kind el.text :=
  h.elim (fun h => parsed_of_isValue h.2.1) fun h => h.2.2.1

theorem within_element {el : Element} (h : WholeElement strtod n el ∨ CutElement strtod n el) :
    Within (elementItem strtod el).value el.bytes :=
  (within_item (parsed_of_element h)).trans ⟨el.before, el.after, rfl⟩

theorem element_of_member {m : Member} (h : WholeMember strtod n m ∨ CutMember strtod n m) :
    WholeElement strtod n m.value ∨ CutElement strtod n m.value :=
  h.imp (fun h => h.2.2.2) fun h => h.2.2.2

theorem within_member {m : Member} (h : WholeMember strtod n m ∨ CutMember strtod n m) :
    Within m.key m.bytes ∧ Within (elementItem strtod m.value).value m.bytes := by
  constructor
  · exact ⟨m.before ++ [34], [34] ++ (m.after ++ 58 :: m.value.bytes), by
      simp [Member.bytes, quote]⟩
  · refine (within_element (element_of_member h)).trans
      ⟨m.before ++ (quote m.key ++ (m.after ++ [58])), [], ?_⟩
    simp [Member.bytes]

theorem liteCjsonParse_of_parsed {k : Kind} {t : List UInt8}
    (h : Parsed strtod liteCjsonNestingLimit k t) :
      liteCjsonParse strtod t = some (item strtod k t) := by
  obtain ⟨b, s, ht, hb, hbom⟩ := head_of_parsed h
  have hdrop : t.drop 0 = b :: s := by rw [List.drop_zero, ht]
  have hskipBom : skipUtf8Bom t = 0 := by
    refine if_neg fun h => hbom ?_
    rw [ht, List.take_succ_cons] at h
    exact (List.cons.inj h.2).1
  have hne : t ≠ [] := by
    rw [ht]
    exact List.cons_ne_nil b s
  have hvalue : parseValue strtod t liteCjsonNestingLimit 0 = _ := h
  rw [liteCjsonParse, if_neg hne, hskipBom, bufferSkipWhitespace_self hdrop hb, hvalue,
    Option.map_some]

end Slices

section Accessors

theorem liteCjsonArrayItem_eq (h : ArrayText strtod liteCjsonNestingLimit es v) (i : Int) :
    liteCjsonArrayItem strtod ⟨.array, v, es.length, 0⟩ i =
      if i < 0 then none else es[i.toNat]?.map (elementItem strtod) := by
  simp only [liteCjsonArrayItem]
  by_cases hneg : i < 0
  · rw [if_pos (.inr (.inl hneg)), if_pos hneg]
  obtain ⟨j, rfl⟩ := Int.eq_ofNat_of_zero_le (Int.not_lt.mp hneg)
  rw [if_neg hneg, Int.toNat_natCast]
  by_cases hj : es.length ≤ j
  · rw [if_pos (.inr (.inr (Int.ofNat_le.mpr hj))), List.getElem?_eq_none hj, Option.map_none]
  have hne : es ≠ [] := by
    rintro rfl
    exact hj (Nat.zero_le j)
  obtain ⟨hreads, hidem, -, hle⟩ := reads_of_arrayText h hne
  have hfirst := first_of_elements hreads
  rw [hidem] at hfirst
  have hopen : v[0]? = some 91 := by
    rcases h with ⟨rfl, -⟩ | ⟨-, -, s, rfl, -⟩
    · exact absurd rfl hne
    · rfl
  have hguard : ¬ ((CjsonType.array : CjsonType) ≠ .array ∨ (j : Int) < 0 ∨
    (j : Int) ≥ es.length) := by
    simp only [ne_eq, not_true_eq_false, false_or, not_or]
    omega
  rw [if_neg hguard, if_neg (by simp [hopen, hfirst]),
    arrayItemLoop_of_reads hreads (by rw [List.length_map]; omega) 0 j (Nat.zero_le j),
      Nat.sub_zero,
    List.getElem?_map]

theorem walkMembers_of_objectText (h : ObjectText strtod liteCjsonNestingLimit ms v) (hne : ms ≠ [])
    (wanted : Nat → LiteCjson → Bool) :
    ¬ (v[0]? ≠ some 123 ∨ v[bufferSkipWhitespace v 1]? = some 125) ∧
    walkMembers v (parseValue strtod v liteCjsonNestingLimit) wanted (v.length + 1)
        (bufferSkipWhitespace v 1) 0 =
      some (walkEnd wanted (v.length - 1) 0 (ms.map (memberItems strtod))) := by
  obtain ⟨hreads, hidem, -, hle⟩ := reads_of_objectText h hne
  have hfirst := first_of_members hreads
  rw [hidem] at hfirst
  have hopen : v[0]? = some 123 := by
    rcases h with ⟨rfl, -⟩ | ⟨-, -, s, rfl, -⟩
    · exact absurd rfl hne
    · rfl
  exact ⟨by simp [hopen, hfirst],
    walkMembers_of_reads hreads _ (by rw [List.length_map]; omega) wanted 0⟩

theorem liteCjsonObjectItemByIndex_eq (h : ObjectText strtod liteCjsonNestingLimit ms v) (i : Int) :
    liteCjsonObjectItemByIndex strtod ⟨.object, v, ms.length, 0⟩ i =
      if i < 0 then none else ms[i.toNat]?.map (memberItems strtod) := by
  simp only [liteCjsonObjectItemByIndex]
  by_cases hneg : i < 0
  · rw [if_pos (.inr (.inr (.inl hneg))), if_pos hneg]
  obtain ⟨j, rfl⟩ := Int.eq_ofNat_of_zero_le (Int.not_lt.mp hneg)
  rw [if_neg hneg, Int.toNat_natCast]
  by_cases hj : ms.length ≤ j
  · rw [if_pos (.inr (.inr (.inr (Int.ofNat_le.mpr hj)))), List.getElem?_eq_none hj,
      Option.map_none]
  have hne : ms ≠ [] := by
    rintro rfl
    exact hj (Nat.zero_le j)
  have hpos := List.length_pos_iff.mpr hne
  obtain ⟨hbrackets, hwalk⟩ :=
    walkMembers_of_objectText h hne (fun itemIndex _ => ((itemIndex : Int) = j : Bool))
  have hguard : ¬ ((CjsonType.object : CjsonType) ≠ .object ∨ ms.length = 0 ∨ (j : Int) < 0 ∨
      (j : Int) ≥ ms.length) := by
    simp only [ne_eq, not_true_eq_false, false_or, not_or]
    omega
  rw [if_neg hguard, if_neg hbrackets, hwalk]
  simp only [Int.natCast_inj]
  rw [walkEnd_index _ _ _ _ (Nat.zero_le j), Nat.sub_zero, List.getElem?_map,
    List.getElem?_eq_getElem (by omega)]
  rfl

theorem liteCjsonObjectItem_eq (h : ObjectText strtod liteCjsonNestingLimit ms v)
    {key : List UInt8} (hkey : key ≠ []) :
    liteCjsonObjectItem strtod ⟨.object, v, ms.length, 0⟩ key =
      (ms.find? fun m => m.key = key).map fun m => elementItem strtod m.value := by
  simp only [liteCjsonObjectItem]
  by_cases hne : ms = []
  · subst hne
    rw [if_pos (.inr (.inl rfl)), List.find?_nil, Option.map_none]
  have hpos := List.length_pos_iff.mpr hne
  obtain ⟨hbrackets, hwalk⟩ := walkMembers_of_objectText h hne (fun _ item => item.value = key)
  have hguard : ¬ ((CjsonType.object : CjsonType) ≠ .object ∨ ms.length = 0 ∨ key = []) := by
    simp only [ne_eq, not_true_eq_false, false_or, not_or]
    exact ⟨by omega, hkey⟩
  rw [if_neg hguard, if_neg hbrackets, hwalk, walkEnd_key]
  cases ms.find? fun m => m.key = key with
  | none => rfl
  | some m => rfl

theorem arrayAgrees_of_text (h : ArrayText strtod 999 es v) :
    ArrayAgrees strtod ⟨.array, v, es.length, 0⟩ es := by
  have hitem := liteCjsonArrayItem_eq h.succ
  have hmember : ∀ {e}, e ∈ es → Within e.bytes v ∧
      (WholeElement strtod 999 e ∨ CutElement strtod 999 e) := fun he => within_bracketed h he
  refine ⟨h, rfl, hitem, ?_, ?_⟩
  · intro e he
    exact liteCjsonParse_of_parsed (parsed_of_element (hmember he).2).succ
  · intro i it hit
    rw [hitem] at hit
    split at hit
    · cases hit
    obtain ⟨e, he, rfl⟩ := Option.map_eq_some_iff.mp hit
    obtain ⟨hin, hel⟩ := hmember (List.mem_of_getElem? he)
    exact (within_element hel).trans hin

theorem objectAgrees_of_text (atoi : Atoi) (h : ObjectText strtod 999 ms v) :
    ObjectAgrees strtod atoi ⟨.object, v, ms.length, 0⟩ ms := by
  have hindex := liteCjsonObjectItemByIndex_eq h.succ
  have hkey : ∀ key : CStr, IsPlainKey key →
      liteCjsonObjectItemPath strtod atoi ⟨.object, v, ms.length, 0⟩ key =
        (ms.find? fun m => m.key = key.val).map fun m => elementItem strtod m.value :=
    fun key hplain => by
      rw [liteCjsonObjectItemPath_plain hplain, liteCjsonObjectItem_eq h.succ hplain.1]
  have hmember : ∀ {m}, m ∈ ms → Within m.bytes v ∧
      (WholeMember strtod 999 m ∨ CutMember strtod 999 m) := fun hm => within_bracketed h hm
  refine ⟨h, rfl, hindex, hkey, ?_, ?_, ?_⟩
  · intro m hm
    exact liteCjsonParse_of_parsed (parsed_of_element (element_of_member (hmember hm).2)).succ
  · intro i key it hit
    rw [hindex] at hit
    split at hit
    · cases hit
    obtain ⟨m, hm, heq⟩ := Option.map_eq_some_iff.mp hit
    cases heq
    obtain ⟨hin, hel⟩ := hmember (List.mem_of_getElem? hm)
    obtain ⟨hkeyIn, hvalueIn⟩ := within_member hel
    exact ⟨hkeyIn.trans hin, hvalueIn.trans hin⟩
  · intro key it hplain hit
    rw [hkey key hplain] at hit
    obtain ⟨m, hm, rfl⟩ := Option.map_eq_some_iff.mp hit
    obtain ⟨hin, hel⟩ := hmember (List.mem_of_find?_eq_some hm)
    exact (within_member hel).2.trans hin

end Accessors

/-- What the accessors tell of an array or an object is what was parsed. -/
theorem accessors_agree (strtod : Strtod) (atoi : Atoi) (content : List UInt8) (lite : LiteCjson)
    (h : liteCjsonParse strtod content = some lite) :
    (lite.type = .array → ∃ es, ArrayAgrees strtod lite es) ∧
      (lite.type = .object → ∃ ms, ObjectAgrees strtod atoi lite ms) := by
  have hne : content ≠ [] := by
    rintro rfl
    cases h
  rw [liteCjsonParse, if_neg hne] at h
  obtain ⟨⟨lite', e⟩, hval, rfl⟩ := Option.map_eq_some_iff.mp h
  have hparsed : IsContainer lite' → parseValue strtod lite'.value 1000 0 =
      some (lite', lite'.value.length) := fun hc => by
    obtain ⟨k, t, rfl, hparsed⟩ := parsed_of_container (n := 999) hval hc
    rw [value_of_item hc]
    exact hparsed
  constructor
  · intro htype
    obtain ⟨es, htext, heq⟩ := arrayText_of_parsed (n := 999) (hparsed (.inr htype)) htype
    refine ⟨es, ?_⟩
    rw [heq]
    exact arrayAgrees_of_text htext
  · intro htype
    obtain ⟨ms, htext, heq⟩ := objectText_of_parsed (n := 999) (hparsed (.inl htype)) htype
    refine ⟨ms, ?_⟩
    rw [heq]
    exact objectAgrees_of_text atoi htext

/-- `{"a":{"b":1}`, an object that ends too early. -/
theorem accessors_agree_cut :
    ∃ ms, ObjectAgrees integerStrtod integerAtoi
      ⟨.object, [123, 34, 97, 34, 58, 123, 34, 98, 34, 58, 49, 125], 1, 0⟩ ms :=
  (accessors_agree integerStrtod integerAtoi
    [123, 34, 97, 34, 58, 123, 34, 98, 34, 58, 49, 125] _ (by decide)).2 rfl

end AliyunIot.Cjson
