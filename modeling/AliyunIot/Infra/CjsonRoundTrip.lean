import AliyunIot.Infra.CjsonItem
import AliyunIot.Infra.CjsonPrint
import AliyunIot.Lib.JsonValue

/-!
# What is printed is read back

The text of an item is a value of RFC 8259, formatted or not (`text_isValue`). `lite_cjson_parse`
and the functions that take an item of an array or an object find the item in it again
(`print_read_back`).
-/

namespace AliyunIot.Cjson

open Lib Lib.Json

/-! ## Strings -/

theorem escapeLetters_escaped : ∀ p ∈ escapeLetters, p.2 ≠ 117 ∧ escaped p.2 = p.1 ∧
    [34, 92, 47, 98, 102, 110, 114, 116].contains p.2 = true := by
  simp [escapeLetters, escaped]

theorem isBody_escape (b : UInt8) : Json.isBody (escape b) = true := by
  rcases escape_cases b with ⟨heq, -, hle, hq, hs⟩ | ⟨e, heq, -, he⟩ | ⟨heq, -, -⟩
  · rw [heq]
    exact isBody_of_plain (List.forall_mem_singleton.mpr (by simp [isPlain, hle, hq, hs]))
  · obtain ⟨hne, -, hletter⟩ := escapeLetters_escaped _ he
    rw [heq, Json.isBody.eq_3 e [] (fun _ _ _ _ _ h => absurd h hne), hletter]
    rfl
  · obtain ⟨hhigh, hlow⟩ := isHexDigit_nibbles b
    rw [heq, Json.isBody, hhigh, hlow]
    rfl

theorem isBody_flatMap_escape (s : List UInt8) : Json.isBody (s.flatMap escape) = true := by
  induction s with
  | nil => rfl
  | cons b s ih =>
    rw [List.flatMap_cons]
    exact isBody_append (isBody_escape b) ih

theorem unescape_unit {h₁ h₂ h₃ h₄ : UInt8} {s t : List UInt8}
    (hunit : codeUnit h₁ h₂ h₃ h₄ < 0xD800) (hutf : utf8 (codeUnit h₁ h₂ h₃ h₄) = some t) :
    unescape (92 :: 117 :: h₁ :: h₂ :: h₃ :: h₄ :: s) = (unescape s).map (t ++ ·) := by
  have hnot : ¬ (0xD800 ≤ codeUnit h₁ h₂ h₃ h₄ ∧ codeUnit h₁ h₂ h₃ h₄ < 0xDC00) := by omega
  by_cases hpair : ∃ k₁ k₂ k₃ k₄ r, s = 92 :: 117 :: k₁ :: k₂ :: k₃ :: k₄ :: r
  · obtain ⟨k₁, k₂, k₃, k₄, r, rfl⟩ := hpair
    rw [unescape.eq_2, if_neg hnot, hutf]
    cases unescape (92 :: 117 :: k₁ :: k₂ :: k₃ :: k₄ :: r) <;> rfl
  · rw [unescape.eq_3 _ _ _ _ _ fun k₁ k₂ k₃ k₄ r h => hpair ⟨k₁, k₂, k₃, k₄, r, h⟩,
      if_neg hnot, hutf]
    cases unescape s <;> rfl

theorem unescape_escape (b : UInt8) (s : List UInt8) :
    unescape (escape b ++ s) = (unescape s).map (b :: ·) := by
  rcases escape_cases b with ⟨heq, -, -, -, hne⟩ | ⟨e, heq, -, he⟩ | ⟨heq, -, hlt⟩
  · rw [heq]
    exact unescape.eq_5 b s (fun _ _ _ _ _ h => absurd h hne) (fun _ _ h => absurd h hne)
  · obtain ⟨hne, hesc, -⟩ := escapeLetters_escaped _ he
    rw [heq, List.cons_append, List.cons_append, List.nil_append,
      unescape.eq_4 e s (fun _ _ _ _ _ h => absurd h hne), hesc]
  · have hsmall : ∀ k : Fin 32,
        codeUnit 48 48 (hexDigit (UInt8.ofNat k >>> 4)) (hexDigit (UInt8.ofNat k &&& 15)) < 0xD800 ∧
        utf8 (codeUnit 48 48 (hexDigit (UInt8.ofNat k >>> 4)) (hexDigit (UInt8.ofNat k &&& 15))) =
          some [UInt8.ofNat k] := by decide
    have hnat : b.toNat < 32 := UInt8.lt_iff_toNat_lt.mp hlt
    obtain ⟨hunit, hutf⟩ := hsmall ⟨b.toNat, hnat⟩
    rw [UInt8.ofNat_toNat] at hunit hutf
    rw [heq]
    simp only [List.cons_append, List.nil_append]
    rw [unescape_unit hunit hutf]
    rfl

theorem unescape_flatMap_escape (s : List UInt8) : unescape (s.flatMap escape) = some s := by
  induction s with
  | nil => rfl
  | cons b s ih => rw [List.flatMap_cons, unescape_escape, ih, Option.map_some]

theorem ne_of_isHexDigit {b : UInt8} (h : isHexDigit b = true) : b ≠ 34 ∧ b ≠ 92 := by
  constructor
  all_goals
    rintro rfl
    exact absurd h (by decide)

theorem isBody_of_standard {s : List UInt8} (h : Json.isBody s = true) : isBody s = true := by
  have hplain : ∀ {b : UInt8} {t}, b ≠ 34 → b ≠ 92 → isBody t = true → isBody (b :: t) = true := by
    intro b t h34 h92 ht
    cases t with
    | nil => simp [isBody, h34, h92]
    | cons c t => rw [isBody, if_neg h34, if_neg h92, ht]
  have hescaped : ∀ {c : UInt8} {t}, isBody t = true → isBody (92 :: c :: t) = true := by
    intro c t ht
    rw [isBody, if_neg (by decide), if_pos rfl, ht]
  induction s using Json.isBody.induct with
  | case1 => rfl
  | case2 h₁ h₂ h₃ h₄ s ih =>
    simp only [Json.isBody, Bool.and_eq_true] at h
    obtain ⟨⟨⟨⟨k₁, k₂⟩, k₃⟩, k₄⟩, hs⟩ := h
    refine hescaped (hplain (ne_of_isHexDigit k₁).1 (ne_of_isHexDigit k₁).2 ?_)
    refine hplain (ne_of_isHexDigit k₂).1 (ne_of_isHexDigit k₂).2 ?_
    refine hplain (ne_of_isHexDigit k₃).1 (ne_of_isHexDigit k₃).2 ?_
    exact hplain (ne_of_isHexDigit k₄).1 (ne_of_isHexDigit k₄).2 (ih hs)
  | case3 e s hne ih =>
    rw [Json.isBody.eq_3 e s hne, Bool.and_eq_true] at h
    exact hescaped (ih h.2)
  | case4 b s hne hne' ih =>
    rw [Json.isBody.eq_4 b s hne hne', isPlain, Bool.and_eq_true, Bool.and_eq_true,
      Bool.and_eq_true] at h
    exact hplain (by simpa using h.1.1.2) (by simpa using h.1.2) (ih h.2)

/-! ## Numbers -/

section

variable {D : Type}

/-- The texts that `printf` makes of a finite number: `%f` has digits on both sides of a point. -/
structure Printf (dbl : Doubles D) : Prop where
  percentF : ∀ d, dbl.finite d = true → ∃ sign int frac : List UInt8,
    (dbl.percentF d).val = sign ++ (int ++ 46 :: frac) ∧ (sign = [] ∨ sign = [45]) ∧
      (int = [48] ∨ Digits int ∧ int.head? ≠ some 48) ∧ Digits frac
  percent15 : ∀ d, dbl.finite d = true → Json.IsNumber (dbl.percent15 d).val
  percent17 : ∀ d, dbl.finite d = true → Json.IsNumber (dbl.percent17 d).val

theorem stripZeros_digits {ds : List UInt8} (rest : List UInt8) (hds : ∀ b ∈ ds, 48 ≤ b ∧ b ≤ 57) :
    ∃ kept, (∀ b ∈ kept, 48 ≤ b ∧ b ≤ 57) ∧ stripZeros (ds ++ 46 :: rest) =
      if kept = [] then rest else kept ++ 46 :: rest := by
  induction ds with
  | nil => exact ⟨[], fun _ h => absurd h List.not_mem_nil, rfl⟩
  | cons b ds ih =>
    obtain ⟨hb, hds⟩ := List.forall_mem_cons.mp hds
    obtain ⟨kept, hkept, hstrip⟩ := ih hds
    rw [List.cons_append, stripZeros]
    by_cases hzero : b = 48
    · rw [if_pos hzero]
      exact ⟨kept, hkept, hstrip⟩
    · have hpoint : b ≠ 46 := by
        rintro rfl
        exact absurd hb.1 (by decide)
      rw [if_neg hzero, if_neg hpoint]
      exact ⟨b :: ds, List.forall_mem_cons.mpr ⟨hb, hds⟩, rfl⟩

theorem isNumber_removeZero {sign int frac : List UInt8} (hsign : sign = [] ∨ sign = [45])
    (hint : int = [48] ∨ Digits int ∧ int.head? ≠ some 48) (hfrac : Digits frac) :
    Json.IsNumber (removeZero (sign ++ (int ++ 46 :: frac))) := by
  have hds : ∀ b ∈ frac.reverse, 48 ≤ b ∧ b ≤ 57 := fun b hb => hfrac.2 b (List.mem_reverse.mp hb)
  obtain ⟨kept, hkept, hstrip⟩ := stripZeros_digits (sign ++ int).reverse hds
  have hreverse : (sign ++ (int ++ 46 :: frac)).reverse =
      frac.reverse ++ 46 :: (sign ++ int).reverse := by simp
  rw [removeZero, if_pos (by simp), hreverse, hstrip]
  split
  · refine ⟨sign, int, [], [], ?_, hsign, hint, .inl rfl, .inl rfl⟩
    rw [List.reverse_reverse, List.append_nil, List.append_nil]
  · next hne =>
    refine ⟨sign, int, 46 :: kept.reverse, [], ?_, hsign, hint, .inr ⟨_, rfl, ?_, ?_⟩, .inl rfl⟩
    · simp
    · simpa using hne
    · exact fun b hb => hkept b (List.mem_reverse.mp hb)

theorem isNumber_numberBuffer {dbl : Doubles D} (hprintf : Printf dbl) {d : D} {t : List UInt8}
    (hfin : dbl.finite d = true) (h : numberBuffer dbl d = some t) : Json.IsNumber t := by
  rcases numberBuffer_cases h with ⟨hnan, -⟩ | ⟨-, -, -, rfl | rfl | rfl⟩
  · rw [hfin] at hnan
    cases hnan
  · obtain ⟨sign, int, frac, heq, hsign, hint, hfrac⟩ := hprintf.percentF d hfin
    rw [heq]
    exact isNumber_removeZero hsign hint hfrac
  · exact hprintf.percent15 d hfin
  · exact hprintf.percent17 d hfin

def ConvertsNumerals (strtod : Strtod) : Prop :=
  ∀ t, Json.IsNumber t → t.length ≤ numberLen → (strtod.convert t).1 = t.length

theorem isNumberByte_of_digit {b : UInt8} (h : 48 ≤ b ∧ b ≤ 57) : isNumberByte b = true := by
  simp [isNumberByte, h.1, h.2]

theorem startsNumber_of_digit {b : UInt8} (h : 48 ≤ b ∧ b ≤ 57) : startsNumber b = true := by
  simp [startsNumber, h.1, h.2]

theorem isNumber_of_standard {strtod : Strtod} (hstrtod : ConvertsNumerals strtod)
    {t : List UInt8} (h : Json.IsNumber t) (hlen : t.length ≤ numberLen) : IsNumber strtod t := by
  have hconverted := hstrtod t h hlen
  obtain ⟨sign, int, frac, exp, rfl, hsign, hint, hfrac, hexp⟩ := h
  have hdigits : ∀ {ds : List UInt8}, Digits ds → ∀ b ∈ ds, isNumberByte b = true :=
    fun hds b hb => isNumberByte_of_digit (hds.2 b hb)
  have hintDigits : Digits int := by
    rcases hint with rfl | hint
    · exact ⟨List.cons_ne_nil _ _, by decide⟩
    · exact hint.1
  refine ⟨?_, ?_, hlen, hconverted⟩
  · rcases hsign with rfl | rfl
    · obtain ⟨hne, hds⟩ := hintDigits
      cases int with
      | nil => exact absurd rfl hne
      | cons b int => exact ⟨b, _, rfl, startsNumber_of_digit (hds b List.mem_cons_self)⟩
    · exact ⟨45, _, rfl, rfl⟩
  · have hsignBytes : ∀ b ∈ sign, isNumberByte b = true := by
      rcases hsign with rfl | rfl <;> decide
    have hfracBytes : ∀ b ∈ frac, isNumberByte b = true := by
      rcases hfrac with rfl | ⟨ds, rfl, hds⟩
      · exact fun b hb => absurd hb List.not_mem_nil
      · exact List.forall_mem_cons.mpr ⟨rfl, hdigits hds⟩
    have hexpBytes : ∀ b ∈ exp, isNumberByte b = true := by
      rcases hexp with rfl | ⟨e, s, ds, rfl, he, hs, hds⟩
      · exact fun b hb => absurd hb List.not_mem_nil
      · refine List.forall_mem_cons.mpr ⟨by rcases he with rfl | rfl <;> rfl, ?_⟩
        refine List.forall_mem_append.mpr ⟨?_, hdigits hds⟩
        rcases hs with rfl | rfl | rfl <;> decide
    simp only [List.forall_mem_append]
    exact ⟨hsignBytes, hdigits hintDigits, hfracBytes, hexpBytes⟩

/-! ## The printed text is a value -/

/-- The lexis of the standard, with the numbers that fit in `number_buffer`. -/
def printedLexis : Lexis where
  space := rfc8259.space
  number t := Json.IsNumber t ∧ t.length < 26
  body := rfc8259.body

variable {n : Nat}

theorem isValue_standard {k : Kind} {t : List UInt8} (h : IsValue printedLexis n k t) :
    IsValue rfc8259 n k t :=
  IsValue.lexis (L := printedLexis) (fun _ hb => hb) (fun _ hn => hn.1) (fun _ hs => hs) h

theorem isValue_accepted {strtod : Strtod} (hstrtod : ConvertsNumerals strtod)
    {k : Kind} {t : List UInt8} (h : IsValue printedLexis n k t) :
    IsValue (lexis strtod) n k t := by
  refine IsValue.lexis (L := printedLexis) (fun b hb => ?_) (fun t ht => ?_)
    (fun s hs => isBody_of_standard hs) h
  · rcases hb with rfl | rfl | rfl | rfl <;> rfl
  · have hlt := ht.2
    exact isNumber_of_standard hstrtod ht.1 (by unfold numberLen; omega)

variable (dbl : Doubles D)

def Items.length : Items D → Nat
  | .nil => 0
  | .cons _ _ next => next.length + 1

/-- The kind of value that is printed: no JSON number stands for what is not finite. -/
def Item.kind : Item D → Kind
  | .false => .false
  | .true => .true
  | .number d => if dbl.finite d then .number else .null
  | .string _ => .string
  | .array child => .array child.length
  | .object child => .object child.length
  | _ => .null

mutual

/-- How deep arrays and objects are nested. -/
def Item.levels : Item D → Nat
  | .array child => child.levels + 1
  | .object child => child.levels + 1
  | _ => 0

def Items.levels : Items D → Nat
  | .nil => 0
  | .cons _ item next => max item.levels next.levels

end

mutual

/-- No item is invalid, or brings its own text. -/
def Item.Plain : Item D → Prop
  | .invalid => False
  | .raw _ => False
  | .array child => child.Plain
  | .object child => child.Plain
  | _ => True

def Items.Plain : Items D → Prop
  | .nil => True
  | .cons _ item next => item.Plain ∧ next.Plain

end

variable (format : Bool)

/-- The elements of a printed array, with what is printed before them. -/
def Items.elementList (depth : Nat) : List UInt8 → Items D → List Element
  | _, .nil => []
  | before, .cons _ item next =>
    ⟨before, item.kind dbl, item.text dbl format depth, []⟩ ::
      next.elementList depth (if format then [32] else [])

/-- The members of a printed object, `closing` behind the last one. -/
def Items.memberList (depth : Nat) (closing : List UInt8) : Items D → List Member
  | .nil => []
  | .cons string item next =>
    ⟨newline format ++ tabs format depth, (string.elim [] Subtype.val).flatMap escape, [],
      ⟨if format then [9] else [], item.kind dbl, item.text dbl format depth,
        if next.isNil then newline format ++ closing else []⟩⟩ :: next.memberList depth closing

variable (depth : Nat)

theorem length_elementList (before : List UInt8) (child : Items D) :
    (child.elementList dbl format depth before).length = child.length := by
  induction child using Items.each generalizing before with
  | nil => rfl
  | cons string item next ih => rw [Items.elementList, List.length_cons, ih, Items.length]

theorem length_memberList (closing : List UInt8) (child : Items D) :
    (child.memberList dbl format depth closing).length = child.length := by
  induction child using Items.each with
  | nil => rfl
  | cons string item next ih => rw [Items.memberList, List.length_cons, ih, Items.length]

theorem elements_joined (before : List UInt8) (child : Items D) :
    child = .nil ∨ child.elementList dbl format depth before ≠ [] ∧
      before ++ child.elements dbl format depth =
        joined ((child.elementList dbl format depth before).map Element.bytes) := by
  induction child using Items.each generalizing before with
  | nil => exact .inl rfl
  | cons string item next ih =>
    refine .inr ⟨List.cons_ne_nil _ _, ?_⟩
    rw [Items.elements, Items.elementList, List.map_cons]
    cases next with
    | nil => simp [joined, Items.isNil, Items.elements, Items.elementList, Element.bytes]
    | cons string' item' next' =>
      obtain ⟨hne, hjoined⟩ := (ih (if format then [32] else [])).resolve_left (by simp)
      rw [joined_cons (mt List.map_eq_nil_iff.mp hne), ← hjoined]
      simp [Items.isNil, Element.bytes]

theorem members_joined (closing : List UInt8) (child : Items D) :
    child = .nil ∨ child.memberList dbl format depth closing ≠ [] ∧
      newline format ++ (child.members dbl format depth ++ closing) =
        joined ((child.memberList dbl format depth closing).map Member.bytes) := by
  induction child using Items.each with
  | nil => exact .inl rfl
  | cons string item next ih =>
    refine .inr ⟨List.cons_ne_nil _ _, ?_⟩
    rw [Items.members, Items.memberList, List.map_cons]
    cases next with
    | nil =>
      simp [joined, Items.isNil, Items.members, Items.memberList, Member.bytes, Element.bytes,
        stringText]
    | cons string' item' next' =>
      obtain ⟨hne, hjoined⟩ := ih.resolve_left (by simp)
      rw [joined_cons (mt List.map_eq_nil_iff.mp hne), ← hjoined]
      simp [Items.isNil, Member.bytes, Element.bytes, stringText]

variable {dbl format}

theorem spaces_tabs : Spaces printedLexis (tabs format depth) := by
  unfold tabs
  split
  · intro b hb
    rw [List.eq_of_mem_replicate hb]
    exact .inl rfl
  · exact spaces_nil

theorem spaces_newline : Spaces printedLexis (newline format) := by
  unfold newline
  split
  · exact List.forall_mem_singleton.mpr (.inr (.inl rfl))
  · exact spaces_nil

theorem spaces_append {L : Lexis} {s t : List UInt8} (hs : Spaces L s) (ht : Spaces L t) :
    Spaces L (s ++ t) :=
  List.forall_mem_append.mpr ⟨hs, ht⟩

theorem text_isValue (format : Bool) (hprintf : Printf dbl) :
    (∀ item : Item D, item.Plain → item.Narrow dbl → ∀ depth,
        IsValue printedLexis item.levels (item.kind dbl) (item.text dbl format depth)) ∧
      ∀ child : Items D, child.Plain → child.Narrow dbl → ∀ depth,
        (∀ before, Spaces printedLexis before →
          ∀ e ∈ child.elementList dbl format depth before,
            e.Ok printedLexis (IsValue printedLexis child.levels)) ∧
        ∀ closing, Spaces printedLexis closing →
          ∀ m ∈ child.memberList dbl format depth closing,
            m.Ok printedLexis (IsValue printedLexis child.levels) := by
  apply Item.both
  case invalid => exact fun hplain => hplain.elim
  case null | false | true => exact fun _ _ _ => rfl
  case number =>
    intro d _ hnarrow depth
    cases ht : numberBuffer dbl d with
    | none =>
      rw [Item.Narrow, ht] at hnarrow
      cases hnarrow
    | some t =>
      rw [Item.text, ht, Option.getD_some, Item.kind]
      cases hfin : dbl.finite d with
      | true => exact ⟨isNumber_numberBuffer hprintf hfin ht, (numberBuffer_plain ht).1⟩
      | false =>
        rcases numberBuffer_cases ht with ⟨-, rfl⟩ | ⟨hfin', -⟩
        · rfl
        · rw [hfin] at hfin'
          cases hfin'
  case raw => exact fun _ hplain => hplain.elim
  case string => exact fun valuestring _ _ _ => ⟨_, isBody_flatMap_escape _, rfl⟩
  case array =>
    intro child ih hplain hnarrow depth
    refine ⟨child.elements dbl format (depth + 1), rfl, ?_⟩
    have hes := (ih hplain hnarrow (depth + 1)).1 [] spaces_nil
    rcases elements_joined dbl format (depth + 1) [] child with rfl | ⟨hne, hjoined⟩
    · exact .inl ⟨rfl, spaces_nil⟩
    · exact .inr ⟨_, hne, length_elementList .., hes, hjoined⟩
  case object =>
    intro child ih hplain hnarrow depth
    refine ⟨newline format ++ (child.members dbl format (depth + 1) ++ tabs format depth), ?_, ?_⟩
    · simp [Item.text]
    have hms := (ih hplain hnarrow (depth + 1)).2 (tabs format depth) (spaces_tabs depth)
    rcases members_joined dbl format (depth + 1) (tabs format depth) child with rfl | ⟨hne, hjoined⟩
    · exact .inl ⟨rfl, spaces_append spaces_newline (spaces_tabs depth)⟩
    · exact .inr ⟨_, hne, length_memberList .., hms, hjoined⟩
  case nil => exact fun _ _ _ => ⟨fun _ _ _ he => absurd he List.not_mem_nil,
      fun _ _ _ hm => absurd hm List.not_mem_nil⟩
  case cons =>
    intro string item next hitem hnext hplain hnarrow depth
    have hvalue := (hitem hplain.1 hnarrow.1 depth).mono (Nat.le_max_left item.levels next.levels)
    obtain ⟨helements, hmembers⟩ := hnext hplain.2 hnarrow.2 depth
    have hup : ∀ k t, IsValue printedLexis next.levels k t →
        IsValue printedLexis (max item.levels next.levels) k t :=
      fun _ _ h => h.mono (Nat.le_max_right _ _)
    constructor
    · intro before hbefore
      refine List.forall_mem_cons.mpr ⟨⟨hbefore, hvalue, spaces_nil⟩, fun e he => ?_⟩
      refine (helements _ ?_ e he).mono hup
      split
      · exact List.forall_mem_singleton.mpr (.inr (.inr (.inr rfl)))
      · exact spaces_nil
    · intro closing hclosing
      refine List.forall_mem_cons.mpr ⟨?_, fun m hm => (hmembers closing hclosing m hm).mono hup⟩
      refine ⟨spaces_append spaces_newline (spaces_tabs depth), isBody_flatMap_escape _, spaces_nil,
        ?_, hvalue, ?_⟩
      · show Spaces printedLexis (if format = true then [9] else [])
        split
        · exact List.forall_mem_singleton.mpr (.inl rfl)
        · exact spaces_nil
      · show Spaces printedLexis (if next.isNil = true then newline format ++ closing else [])
        split
        · exact spaces_append spaces_newline hclosing
        · exact spaces_nil

/-! ## What is read back -/

variable (dbl) (strtod : Strtod)

mutual

/-- The item that was parsed is the item that was printed; the functions that take the elements
and the members out of it find all of them, in their order. -/
def Item.ReadBack : Item D → LiteCjson → Prop
  | .null, lite => lite.type = .null
  | .false, lite => lite.type = .false
  | .true, lite => lite.type = .true
  | .number d, lite =>
    if dbl.finite d then
      lite.type = .number ∧ numberBuffer dbl d = some lite.value ∧
        lite.valueInt = saturate (strtod.convert lite.value).2
    else lite.type = .null
  | .string valuestring, lite =>
    lite.type = .string ∧ unescape lite.value = some (valuestring.elim [] Subtype.val)
  | .array child, lite =>
    lite.type = .array ∧ lite.size = child.length ∧ child.ElementsBack lite 0
  | .object child, lite =>
    lite.type = .object ∧ lite.size = child.length ∧ child.MembersBack lite 0
  | _, _ => False

def Items.ElementsBack : Items D → LiteCjson → Nat → Prop
  | .nil, _, _ => True
  | .cons _ item next, lite, index =>
    (∃ element, liteCjsonArrayItem strtod lite index = some element ∧ item.ReadBack element) ∧
      next.ElementsBack lite (index + 1)

def Items.MembersBack : Items D → LiteCjson → Nat → Prop
  | .nil, _, _ => True
  | .cons string item next, lite, index =>
    (∃ key value, liteCjsonObjectItemByIndex strtod lite index = some (key, value) ∧
      key.type = .string ∧ unescape key.value = some (string.elim [] Subtype.val) ∧
      item.ReadBack value) ∧
      next.MembersBack lite (index + 1)

end

variable {dbl strtod}

theorem arrayText_of_elements {es : List Element} {inner : List UInt8}
    (hes : ∀ e ∈ es, WholeElement strtod n e)
    (h : es = [] ∧ inner = [] ∨ es ≠ [] ∧ inner = joined (es.map Element.bytes)) :
    ArrayText strtod n es (91 :: (inner ++ [93])) := by
  rcases h with ⟨rfl, rfl⟩ | ⟨hne, rfl⟩
  · exact .inl ⟨rfl, [], spaces_nil, rfl⟩
  · exact .inr ⟨hne, by simp [List.getLast?_cons], _, rfl, .inl ⟨hes, rfl⟩⟩

theorem objectText_of_members {ms : List Member} {inner : List UInt8}
    (hms : ∀ m ∈ ms, WholeMember strtod n m)
    (h : ms = [] ∧ Spaces (lexis strtod) inner ∨ ms ≠ [] ∧ inner = joined (ms.map Member.bytes)) :
    ObjectText strtod n ms (123 :: (inner ++ [125])) := by
  rcases h with ⟨rfl, hspaces⟩ | ⟨hne, rfl⟩
  · exact .inl ⟨rfl, inner, hspaces, rfl⟩
  · exact .inr ⟨hne, by simp [List.getLast?_cons], _, rfl, .inl ⟨hms, rfl⟩⟩

theorem spaces_accepted {s : List UInt8} (h : Spaces printedLexis s) :
    Spaces (lexis strtod) s := fun b hb => by
  rcases h b hb with rfl | rfl | rfl | rfl <;> rfl

theorem wholeElement_of_printed (hstrtod : ConvertsNumerals strtod) {m : Nat} (hnm : n ≤ m)
    {e : Element} (he : e.Ok printedLexis (IsValue printedLexis n)) : WholeElement strtod m e :=
  ⟨spaces_accepted he.1, (isValue_accepted hstrtod he.2.1).mono hnm, spaces_accepted he.2.2⟩

theorem wholeMember_of_printed (hstrtod : ConvertsNumerals strtod) {k : Nat} (hnk : n ≤ k)
    {m : Member} (hm : m.Ok printedLexis (IsValue printedLexis n)) : WholeMember strtod k m :=
  ⟨spaces_accepted hm.1, isBody_of_standard hm.2.1, spaces_accepted hm.2.2.1,
    wholeElement_of_printed hstrtod hnk hm.2.2.2⟩

theorem arrayText_of_printed (format : Bool) (hprintf : Printf dbl)
    (hstrtod : ConvertsNumerals strtod) {child : Items D} (hplain : child.Plain)
    (hnarrow : child.Narrow dbl) (hlevels : child.levels ≤ liteCjsonNestingLimit) (depth : Nat) :
    ArrayText strtod liteCjsonNestingLimit (child.elementList dbl format (depth + 1) [])
      ((Item.array child).text dbl format depth) := by
  have hes := ((text_isValue format hprintf).2 child hplain hnarrow (depth + 1)).1 [] spaces_nil
  refine arrayText_of_elements (fun e he => wholeElement_of_printed hstrtod hlevels (hes e he)) ?_
  exact (elements_joined dbl format (depth + 1) [] child).imp (by rintro rfl; exact ⟨rfl, rfl⟩) id

theorem objectText_of_printed (format : Bool) (hprintf : Printf dbl)
    (hstrtod : ConvertsNumerals strtod) {child : Items D} (hplain : child.Plain)
    (hnarrow : child.Narrow dbl) (hlevels : child.levels ≤ liteCjsonNestingLimit) (depth : Nat) :
    ObjectText strtod liteCjsonNestingLimit
      (child.memberList dbl format (depth + 1) (tabs format depth))
      ((Item.object child).text dbl format depth) := by
  have hms := ((text_isValue format hprintf).2 child hplain hnarrow (depth + 1)).2
    (tabs format depth) (spaces_tabs depth)
  have htext : (Item.object child).text dbl format depth = 123 :: (newline format ++
      (child.members dbl format (depth + 1) ++ tabs format depth) ++ [125]) := by
    simp [Item.text]
  rw [htext]
  refine objectText_of_members (fun m hm => wholeMember_of_printed hstrtod hlevels (hms m hm)) ?_
  refine (members_joined dbl format (depth + 1) _ child).imp ?_ id
  rintro rfl
  exact ⟨rfl, spaces_accepted (spaces_append spaces_newline (spaces_tabs depth))⟩

theorem readBack_of_item (format : Bool) (hprintf : Printf dbl)
    (hstrtod : ConvertsNumerals strtod) :
    (∀ it : Item D, it.Plain → it.Narrow dbl → it.levels ≤ liteCjsonNestingLimit → ∀ depth,
        it.ReadBack dbl strtod (item strtod (it.kind dbl) (it.text dbl format depth))) ∧
      ∀ child : Items D, child.Plain → child.Narrow dbl → child.levels ≤ liteCjsonNestingLimit →
        ∀ depth lite (index : Nat),
        (∀ before, (∀ i : Nat, liteCjsonArrayItem strtod lite (index + i : Nat) =
            (child.elementList dbl format depth before)[i]?.map (elementItem strtod)) →
          child.ElementsBack dbl strtod lite index) ∧
        ∀ closing, (∀ i : Nat, liteCjsonObjectItemByIndex strtod lite (index + i : Nat) =
            (child.memberList dbl format depth closing)[i]?.map (memberItems strtod)) →
          child.MembersBack dbl strtod lite index := by
  apply Item.both
  case invalid => exact fun hplain => hplain.elim
  case null | false | true => exact fun _ _ _ _ => rfl
  case number =>
    intro d _ hnarrow _ depth
    cases ht : numberBuffer dbl d with
    | none =>
      rw [Item.Narrow, ht] at hnarrow
      cases hnarrow
    | some t =>
      rw [Item.ReadBack, Item.text, ht, Option.getD_some, Item.kind]
      cases dbl.finite d with
      | true => exact ⟨rfl, rfl, rfl⟩
      | false => rfl
  case raw => exact fun _ hplain => hplain.elim
  case string =>
    intro valuestring _ _ _ depth
    refine ⟨rfl, ?_⟩
    simp only [Item.kind, Item.text, item, stringText, quote, List.tail_cons]
    rw [List.dropLast_concat]
    exact unescape_flatMap_escape _
  case array =>
    intro child ih hplain hnarrow hlevels depth
    have hle : child.levels ≤ liteCjsonNestingLimit := Nat.le_of_succ_le hlevels
    have htext := arrayText_of_printed format hprintf hstrtod hplain hnarrow hle depth
    refine ⟨rfl, rfl, (ih hplain hnarrow hle (depth + 1) _ 0).1 [] fun i => ?_⟩
    have heq := liteCjsonArrayItem_eq htext i
    rw [length_elementList, if_neg (by omega), Int.toNat_natCast] at heq
    rw [Nat.zero_add]
    exact heq
  case object =>
    intro child ih hplain hnarrow hlevels depth
    have hle : child.levels ≤ liteCjsonNestingLimit := Nat.le_of_succ_le hlevels
    have htext := objectText_of_printed format hprintf hstrtod hplain hnarrow hle depth
    refine ⟨rfl, rfl, (ih hplain hnarrow hle (depth + 1) _ 0).2 (tabs format depth) fun i => ?_⟩
    have heq := liteCjsonObjectItemByIndex_eq htext i
    rw [length_memberList, if_neg (by omega), Int.toNat_natCast] at heq
    rw [Nat.zero_add]
    exact heq
  case nil => exact fun _ _ _ _ _ _ => ⟨fun _ _ => trivial, fun _ _ => trivial⟩
  case cons =>
    intro string it next hitem hnext hplain hnarrow hlevels depth lite index
    have hitem := hitem hplain.1 hnarrow.1 (Nat.le_trans (Nat.le_max_left _ _) hlevels) depth
    have hnext := hnext hplain.2 hnarrow.2 (Nat.le_trans (Nat.le_max_right _ _) hlevels) depth lite
      (index + 1)
    constructor
    · intro before hlist
      refine ⟨⟨_, hlist 0, hitem⟩, hnext.1 (if format then [32] else []) fun i => ?_⟩
      rw [Nat.add_assoc, Nat.add_comm 1 i]
      exact hlist (i + 1)
    · intro closing hlist
      refine ⟨⟨_, _, hlist 0, rfl, unescape_flatMap_escape _, hitem⟩, hnext.2 closing fun i => ?_⟩
      rw [Nat.add_assoc, Nat.add_comm 1 i]
      exact hlist (i + 1)

/-- What is printed, formatted or not, is a value of RFC 8259, and is parsed to the item that was
printed, down to each element and member. -/
theorem print_read_back (dbl : Doubles D) (strtod : Strtod) (heap : PrintHeap) (format : Bool)
    (it : Item D) (text : List UInt8) (live : Nat) (hprintf : Printf dbl)
    (hstrtod : ConvertsNumerals strtod) (hplain : it.Plain) (hnarrow : it.Narrow dbl)
    (hlevels : it.levels ≤ liteCjsonNestingLimit)
    (h : print dbl heap it format = some (some text, live)) :
    IsValue rfc8259 it.levels (it.kind dbl) text ∧
      ∃ lite, liteCjsonParse strtod text = some lite ∧ it.ReadBack dbl strtod lite := by
  have heq : text = it.text dbl format 0 := by
    have hcases : (it.printable = true ∧ _) ∨ _ ∧ True :=
      print_cases dbl heap format hnarrow (fun _ => trivial) (fun _ _ _ => trivial)
        fun _ => trivial
    rcases hcases with ⟨-, hprint⟩ | ⟨hprint, -⟩
    · rw [hprint] at h
      cases h
      rfl
    · rw [hprint] at h
      cases h
  subst heq
  have hvalue := (text_isValue format hprintf).1 it hplain hnarrow 0
  refine ⟨isValue_standard hvalue, _, ?_,
    (readBack_of_item format hprintf hstrtod).1 it hplain hnarrow hlevels 0⟩
  exact liteCjsonParse_of_isValue ((isValue_accepted hstrtod hvalue).mono hlevels)

end

/-- `strtod` on whole numerals, with the integer that they start with. -/
def numeralStrtod : Strtod where
  convert s := (s.length, (integerConvert s).2)
  converted_le _ := Nat.le_refl _

theorem printf_oneAndHalf : Printf oneAndHalf := by
  have hdigit : ∀ {b : UInt8}, 48 ≤ b ∧ b ≤ 57 → Digits [b] := fun hb =>
    ⟨List.cons_ne_nil _ _, List.forall_mem_singleton.mpr hb⟩
  have hzeros : Digits [48, 48, 48, 48, 48, 48] := ⟨by decide, by decide⟩
  have hfive : Digits [53, 48, 48, 48, 48, 48] := ⟨by decide, by decide⟩
  have hone : Json.IsNumber [49] :=
    ⟨[], [49], [], [], rfl, .inl rfl, .inr ⟨hdigit (by decide), by decide⟩, .inl rfl, .inl rfl⟩
  have hhalf : Json.IsNumber [48, 46, 53] :=
    ⟨[], [48], [46, 53], [], rfl, .inl rfl, .inl rfl, .inr ⟨[53], rfl, hdigit (by decide)⟩,
      .inl rfl⟩
  constructor
  · intro half _
    cases half with
    | false =>
      exact ⟨[], [49], _, rfl, .inl rfl, .inr ⟨hdigit (by decide), by decide⟩, hzeros⟩
    | true => exact ⟨[], [48], _, rfl, .inl rfl, .inl rfl, hfive⟩
  all_goals
    intro half _
    cases half with
    | false => exact hone
    | true => exact hhalf

theorem print_smallArray :
    print oneAndHalf ⟨fun _ _ => true, fun _ _ => 0⟩ smallArray false =
      some (some [91, 48, 46, 53, 44, 123, 34, 107, 34, 58, 34, 92, 110, 34, 125, 93], 1) := by
  have hcases : (smallArray.printable = true ∧ _) ∨ _ ∧ False :=
    print_cases oneAndHalf ⟨fun _ _ => true, fun _ _ => 0⟩ false
      ⟨rfl, ⟨trivial, trivial⟩, trivial⟩ (by decide) (fun _ _ h => by cases h) (by decide)
  exact (hcases.resolve_right fun h => h.2).2

theorem print_read_back_array :
    ∃ lite, liteCjsonParse numeralStrtod [91, 48, 46, 53, 44, 123, 34, 107, 34, 58, 34, 92, 110, 34,
        125, 93] = some lite ∧ smallArray.ReadBack oneAndHalf numeralStrtod lite :=
  (print_read_back oneAndHalf numeralStrtod ⟨fun _ _ => true, fun _ _ => 0⟩ false smallArray _ 1
    printf_oneAndHalf (fun _ _ _ => rfl) ⟨trivial, ⟨trivial, trivial⟩, trivial⟩
    ⟨rfl, ⟨trivial, trivial⟩, trivial⟩ (by decide) print_smallArray).2

end AliyunIot.Cjson
