import AliyunIot.Infra.JsonParser

/-!
# The cursor stays in the text

`iterate_iff`: an iteration ends, reads nothing behind the terminator and reports slices of
the text, just when no round of it finds a text that is cut off behind the opening quote of
its value, or an array's boolean that the given length cuts off.
-/

namespace AliyunIot.JsonParser

/-! ## What is asked -/

/-- The slices of an entry are in a text of `len` bytes. -/
def Entry.Inside (len : Nat) (entry : Entry) : Prop :=
  entry.val + entry.valLen ≤ len ∧ ∀ name nameLen, entry.key = some (name, nameLen) →
    name + nameLen ≤ len

/-- The iteration is over after some rounds, without leaving the text. -/
def StaysInside (isObject : Bool) (text : CStr) (strEnd : Nat) : Prop :=
  ∃ fuel entries, iterate isObject text strEnd fuel = .finished entries ∧
    ∀ entry ∈ entries, entry.Inside text.strlen

/-- The positions that the rounds of an iteration start from. -/
inductive Reached (isObject : Bool) (text : CStr) (strEnd : Nat) : Nat → Prop where
  | first {pos : Nat} : jsonGetObject (if isObject then 123 else 91) strEnd 0 text.val = some pos →
      Reached isObject text strEnd pos
  | next {pos pos' : Nat} {entry : Entry} : Reached isObject text strEnd pos →
      pos < text.strlen →
      jsonGetNextObject isObject text.val strEnd (if isObject then pos else pos + 1) =
        .found entry pos' →
      Reached isObject text strEnd pos'

/-- No byte starts a value. -/
def NoStart (s : List UInt8) : Prop := ∀ b ∈ s, startType b = none

/-- The text ends with the first quote of a value. -/
def CutAtQuote (rest : List UInt8) : Prop := ∃ gap, rest = gap ++ [34] ∧ NoStart gap

/-- A boolean starts before `room` bytes and ends behind them. -/
def CutBoolean (rest : List UInt8) (room : Nat) : Prop :=
  ∃ gap value len, rest = gap ++ value ∧ NoStart gap ∧ booleanLen value = some len ∧
    gap.length < room ∧ room < gap.length + len

/-- A round that goes wrong: behind its key, or behind its bracket or comma, the text is cut
off. -/
def CutOff (isObject : Bool) (text : CStr) (strEnd pos : Nat) : Prop :=
  if isObject then
    text.strlen ≤ strEnd ∧ ∃ before name after rest,
      text.val.drop pos = before ++ 34 :: (name ++ 34 :: (after ++ 58 :: rest)) ∧
      34 ∉ before ∧ 34 ∉ name ∧ 58 ∉ after ∧ CutAtQuote rest
  else
    text.strlen ≤ strEnd ∧ CutAtQuote (text.val.drop (pos + 1)) ∨
      CutBoolean (text.val.drop (pos + 1)) (strEnd - (pos + 1))

/-! ## Searching -/

section
variable {text rest : List UInt8} {pos strEnd : Nat} {c : UInt8}

theorem findIdx?_eq_some {n : Nat} :
    rest.findIdx? (· = c) = some n ↔ ∃ before after, rest = before ++ c :: after ∧ c ∉ before ∧
      n = before.length := by
  induction rest generalizing n with
  | nil => simp
  | cons b rest ih =>
    rw [List.findIdx?_cons]
    by_cases hb : b = c
    · subst hb
      simp only [decide_true, if_true, Option.some.injEq]
      constructor
      · rintro rfl
        exact ⟨[], rest, rfl, List.not_mem_nil, rfl⟩
      · rintro ⟨before, after, heq, hnot, rfl⟩
        cases before with
        | nil => rfl
        | cons x before =>
          obtain ⟨rfl, -⟩ := List.cons.inj heq
          exact absurd List.mem_cons_self hnot
    · simp only [hb, decide_false, Bool.false_eq_true, if_false, Option.map_eq_some_iff, ih]
      constructor
      · rintro ⟨m, ⟨before, after, rfl, hnot, rfl⟩, rfl⟩
        refine ⟨b :: before, after, rfl, ?_, rfl⟩
        rw [List.mem_cons, not_or]
        exact ⟨fun h => hb h.symm, hnot⟩
      · rintro ⟨before, after, heq, hnot, rfl⟩
        cases before with
        | nil => exact absurd (List.cons.inj heq).1 hb
        | cons x before =>
          obtain ⟨rfl, rfl⟩ := List.cons.inj heq
          exact ⟨before.length, ⟨before, after, rfl, fun h => hnot (List.mem_cons_of_mem _ h),
            rfl⟩, rfl⟩

theorem strchr_eq_some {n : Nat} :
    strchr text pos c = some n ↔ ∃ before after, text.drop pos = before ++ c :: after ∧
      c ∉ before ∧ n = pos + before.length := by
  rw [strchr, Option.map_eq_some_iff]
  constructor
  · rintro ⟨m, hm, rfl⟩
    obtain ⟨before, after, heq, hnot, rfl⟩ := findIdx?_eq_some.mp hm
    exact ⟨before, after, heq, hnot, rfl⟩
  · rintro ⟨before, after, heq, hnot, rfl⟩
    exact ⟨_, findIdx?_eq_some.mpr ⟨before, after, heq, hnot, rfl⟩, rfl⟩

theorem findValue_eq_some {type : JsonType} {n : Nat} :
    findValue strEnd pos rest = some (type, n) ↔ ∃ gap b after, rest = gap ++ b :: after ∧
      NoStart gap ∧ startType b = some type ∧ n = pos + gap.length ∧ n < strEnd := by
  induction rest generalizing pos with
  | nil => simp [findValue]
  | cons b rest ih =>
    rw [findValue]
    split
    · next hle =>
      refine ⟨nofun, ?_⟩
      rintro ⟨gap, _, _, _, _, _, rfl, hlt⟩
      omega
    next hlt =>
    split
    · next type' htype =>
      constructor
      · intro h
        obtain ⟨rfl, rfl⟩ : type' = type ∧ pos = n := by simpa using h
        exact ⟨[], b, rest, rfl, nofun, htype, rfl, Nat.not_le.mp hlt⟩
      · rintro ⟨gap, b', after, heq, hgap, hstart, rfl, -⟩
        cases gap with
        | nil =>
          obtain ⟨rfl, -⟩ := List.cons.inj heq
          rw [htype, Option.some.injEq] at hstart
          rw [hstart]
          rfl
        | cons x gap =>
          obtain ⟨rfl, -⟩ := List.cons.inj heq
          have hnone := hgap b List.mem_cons_self
          simp [htype] at hnone
    · next htype =>
      rw [ih]
      constructor
      · rintro ⟨gap, b', after, rfl, hgap, hstart, rfl, hn⟩
        refine ⟨b :: gap, b', after, rfl, ?_, hstart, ?_, hn⟩
        · exact List.forall_mem_cons.mpr ⟨htype, hgap⟩
        · rw [List.length_cons]
          omega
      · rintro ⟨gap, b', after, heq, hgap, hstart, rfl, hn⟩
        cases gap with
        | nil =>
          obtain ⟨rfl, -⟩ := List.cons.inj heq
          simp [htype] at hstart
        | cons x gap =>
          obtain ⟨rfl, rfl⟩ := List.cons.inj heq
          refine ⟨gap, b', after, rfl, (List.forall_mem_cons.mp hgap).2, hstart, ?_, hn⟩
          rw [List.length_cons]
          omega

theorem booleanLen_le {value : List UInt8} {len : Nat} (h : booleanLen value = some len) :
    len ≤ value.length := by
  unfold booleanLen at h
  split at h
  · next htake =>
    obtain rfl : 4 = len := by simpa using h
    have hlen : (value.take 4).length = 4 := by rcases htake with h | h <;> rw [h] <;> rfl
    rw [List.length_take] at hlen
    omega
  split at h
  · next htake =>
    obtain rfl : 5 = len := by simpa using h
    have hlen : (value.take 5).length = 5 := by rcases htake with h | h <;> rw [h] <;> rfl
    rw [List.length_take] at hlen
    omega
  · simp at h

theorem valueLen_le (type : JsonType) (strEnd : Nat) (value rest : List UInt8) {start : Nat}
    (depth : Nat) (inString : Bool) (htype : type ≠ .boolean) (hstart : start ≤ pos) :
    valueLen type value strEnd start depth inString pos rest = 0 ∨
      (start + valueLen type value strEnd start depth inString pos rest ≤ strEnd ∧
        start + valueLen type value strEnd start depth inString pos rest ≤ pos + rest.length ∧
        (type = .string →
          start + valueLen type value strEnd start depth inString pos rest <
            pos + rest.length)) := by
  induction rest generalizing pos depth inString with
  | nil => exact .inl rfl
  | cons b rest ih =>
    have step (depth : Nat) (inString : Bool) :
        valueLen type value strEnd start depth inString (pos + 1) rest = 0 ∨
        (start + valueLen type value strEnd start depth inString (pos + 1) rest ≤ strEnd ∧
          start + valueLen type value strEnd start depth inString (pos + 1) rest ≤
            pos + (b :: rest).length ∧
          (type = .string →
            start + valueLen type value strEnd start depth inString (pos + 1) rest <
              pos + (b :: rest).length)) := by
      have hcons : (b :: rest).length = rest.length + 1 := rfl
      have h : start ≤ pos + 1 := by omega
      rcases @ih (pos + 1) depth inString h with h | ⟨h₁, h₂, h₃⟩
      · exact .inl h
      · refine .inr ⟨h₁, by omega, fun hs => ?_⟩
        have hlt := h₃ hs
        omega
    have hcons : (b :: rest).length = rest.length + 1 := rfl
    cases type with
    | boolean => exact absurd rfl htype
    | number =>
      rw [valueLen]
      split
      · exact .inl rfl
      split
      · exact step _ _
      · exact .inr ⟨by omega, by omega, nofun⟩
    | string =>
      rw [valueLen]
      split
      · exact .inl rfl
      split
      · exact .inr ⟨by omega, by omega, fun _ => by omega⟩
      · exact step _ _
    | object | array =>
      rw [valueLen]
      split
      · exact .inl rfl
      split
      · split
        · exact step _ _
        split
        · exact .inr ⟨by omega, by omega, nofun⟩
        · exact step _ _
      split
      · exact step _ _
      split
      · exact step _ _
      · exact step _ _

theorem valueLen_boolean (value : List UInt8) (start depth : Nat) (inString : Bool)
    (hlt : pos < strEnd) (hne : rest ≠ []) :
    valueLen .boolean value strEnd start depth inString pos rest = (booleanLen value).getD 0 := by
  cases hlen : booleanLen value with
  | some len =>
    cases rest with
    | nil => exact absurd rfl hne
    | cons b rest => simp [valueLen, Nat.not_le.mpr hlt, hlen]
  | none =>
    clear hne hlt
    induction rest generalizing pos with
    | nil => rfl
    | cons b rest ih =>
      simp only [valueLen, hlen, ih]
      split <;> rfl

end

/-! ## A round -/

section
variable {text : List UInt8} {strEnd pos pos' : Nat} {key : Option (Nat × Nat)} {entry : Entry}

theorem eq_quote_of_startType {b : UInt8} (h : startType b = some .string) : b = 34 := by
  unfold startType at h
  split at h
  · assumption
  repeat' split at h
  all_goals simp at h

theorem startType_of_booleanLen {b : UInt8} {value : List UInt8} {len : Nat}
    (h : booleanLen (b :: value) = some len) : startType b = some .boolean := by
  have hb : b = 116 ∨ b = 84 ∨ b = 102 ∨ b = 70 := by
    unfold booleanLen at h
    split at h
    · next htake =>
      simp only [List.take_succ_cons, List.cons.injEq] at htake
      tauto
    split at h
    · next htake =>
      simp only [List.take_succ_cons, List.cons.injEq] at htake
      tauto
    · simp at h
  rcases hb with rfl | rfl | rfl | rfl <;> decide

/-- The value that a round comes to: its start, its length and where the cursor goes. -/
structure ValueAt (text : List UInt8) (strEnd pos : Nat) (type : JsonType) (start len : Nat) :
    Prop where
  from_le : pos ≤ start
  inside : start + len ≤ text.length
  given : type ≠ .boolean → start + len ≤ strEnd
  string : type = .string → start + len < text.length ∨ start = text.length ∧ len = 0 ∧
    text.length ≤ strEnd ∧ CutAtQuote (text.drop pos)
  boolean : type = .boolean → ∃ gap, text.drop pos = gap ++ text.drop start ∧ NoStart gap ∧
    start = pos + gap.length ∧ start < strEnd ∧ len = (booleanLen (text.drop start)).getD 0

theorem valueAt_of_findValue {type : JsonType} {quote : Nat}
    (h : findValue strEnd pos (text.drop pos) = some (type, quote)) :
    let start := if type = .string then quote + 1 else quote
    let scan := if type = .boolean then quote else quote + 1
    ValueAt text strEnd pos type start
      (valueLen type (text.drop start) strEnd start 0 false scan (text.drop scan)) := by
  obtain ⟨gap, b, after, hdrop, hgap, hstart, rfl, hlt⟩ := findValue_eq_some.mp h
  have hlen : (text.drop pos).length = gap.length + (after.length + 1) := by
    rw [hdrop, List.length_append, List.length_cons]
  rw [List.length_drop] at hlen
  have hquote : text.drop (pos + gap.length) = b :: after := by
    rw [← List.drop_drop, hdrop, List.drop_left]
  have hafter : text.drop (pos + gap.length + 1) = after := by
    rw [← List.drop_drop, hquote, List.drop_one, List.tail_cons]
  intro start scan
  by_cases hboolean : type = .boolean
  · subst hboolean
    have hvalue := valueLen_boolean (b :: after) (pos + gap.length) 0 false hlt
      (List.cons_ne_nil b after)
    have hle : (booleanLen (b :: after)).getD 0 ≤ (b :: after).length := by
      cases hb : booleanLen (b :: after) with
      | none => exact Nat.zero_le _
      | some len => exact booleanLen_le hb
    have hs : start = pos + gap.length := rfl
    have hscan : scan = pos + gap.length := rfl
    rw [hs, hscan, hquote, hvalue]
    rw [List.length_cons] at hle
    refine ⟨Nat.le_add_right _ _, by omega, fun h => absurd rfl h, nofun, fun _ => ?_⟩
    exact ⟨gap, by rw [hquote, hdrop], hgap, rfl, hlt, by rw [hquote]⟩
  · have hscan : scan = pos + gap.length + 1 := if_neg hboolean
    have hle : start ≤ pos + gap.length + 1 := by
      by_cases hs : type = .string
      · exact Nat.le_of_eq (if_pos hs)
      · exact Nat.le_trans (Nat.le_of_eq (if_neg hs)) (Nat.le_succ _)
    have hfrom : pos ≤ start := by
      by_cases hs : type = .string
      · exact Nat.le_trans (by omega) (Nat.le_of_eq (if_pos hs).symm)
      · exact Nat.le_trans (by omega) (Nat.le_of_eq (if_neg hs).symm)
    have hbound := valueLen_le _ strEnd (text.drop start) after 0 false hboolean hle
    rw [hscan, hafter]
    generalize valueLen type (text.drop start) strEnd start 0 false (pos + gap.length + 1) after =
      len at hbound
    refine ⟨hfrom, ?_, fun _ => ?_, fun hs => ?_, fun h => absurd h hboolean⟩
    · rcases hbound with rfl | ⟨-, h, -⟩ <;> omega
    · rcases hbound with rfl | ⟨h, -, -⟩ <;> omega
    · have hstring : start = pos + gap.length + 1 := if_pos hs
      rcases hbound with rfl | ⟨-, -, h⟩
      · cases after with
        | nil =>
          rw [List.length_nil] at hlen
          have hb : b = 34 := eq_quote_of_startType (hs ▸ hstart)
          refine .inr ⟨by omega, rfl, by omega, gap, ?_, hgap⟩
          rw [hdrop, hb]
        | cons x after =>
          rw [List.length_cons] at hlen
          exact .inl (by omega)
      · have hlt' := h hs
        exact .inl (by omega)

theorem nextValue_found (h : nextValue text strEnd key (some pos) = .found entry pos') :
    entry.key = key ∧ entry.val + entry.valLen ≤ text.length ∧ pos ≤ pos' ∧
      (∀ name nameLen, key = some (name, nameLen) → name + nameLen ≤ strEnd) ∧
      (pos' ≤ text.length ∨
        pos' = text.length + 1 ∧ text.length ≤ strEnd ∧ CutAtQuote (text.drop pos)) := by
  rw [nextValue, Option.bind_some] at h
  cases hfind : findValue strEnd pos (text.drop pos) with
  | none => simp [hfind] at h
  | some found =>
    obtain ⟨type, quote⟩ := found
    have hvalue := valueAt_of_findValue hfind
    rw [hfind] at h
    dsimp only at h hvalue
    generalize (if type = .string then quote + 1 else quote) = start at h hvalue
    generalize valueLen type (text.drop start) strEnd start 0 false _ _ = len at h hvalue
    have hcursor : pos ≤ (if type = .string then start + len + 1 else start + len) ∧
        ((if type = .string then start + len + 1 else start + len) ≤ text.length ∨
          (if type = .string then start + len + 1 else start + len) = text.length + 1 ∧
            text.length ≤ strEnd ∧ CutAtQuote (text.drop pos)) := by
      have hfrom := hvalue.from_le
      have hinside := hvalue.inside
      by_cases hs : type = .string
      · rw [if_pos hs]
        rcases hvalue.string hs with hlt | ⟨hstart, hlen, hend, hcut⟩
        · exact ⟨by omega, .inl hlt⟩
        · exact ⟨by omega, .inr ⟨by omega, hend, hcut⟩⟩
      · rw [if_neg hs]
        exact ⟨by omega, .inl hinside⟩
    cases key with
    | none =>
      dsimp only at h
      split at h
      · simp at h
      · obtain ⟨rfl, rfl⟩ := Next.found.inj h
        exact ⟨rfl, hvalue.inside, hcursor.1, nofun, hcursor.2⟩
    | some name =>
      obtain ⟨name, nameLen⟩ := name
      dsimp only at h
      split at h
      · simp at h
      next hname =>
      split at h
      · simp at h
      · obtain ⟨rfl, rfl⟩ := Next.found.inj h
        refine ⟨rfl, hvalue.inside, hcursor.1, fun name' nameLen' heq => ?_, hcursor.2⟩
        obtain ⟨rfl, rfl⟩ : name = name' ∧ nameLen = nameLen' := by simpa using heq
        exact Nat.not_lt.mp hname

theorem nextValue_of_cut (hend : text.length ≤ strEnd) (hcut : CutAtQuote (text.drop pos))
    (hkey : ∀ name nameLen, key = some (name, nameLen) → name + nameLen ≤ strEnd) :
    ∃ entry, nextValue text strEnd key (some pos) = .found entry (text.length + 1) := by
  obtain ⟨gap, hdrop, hgap⟩ := hcut
  have hlen : (text.drop pos).length = gap.length + 1 := by
    rw [hdrop, List.length_append, List.length_singleton]
  rw [List.length_drop] at hlen
  have hfind : findValue strEnd pos (text.drop pos) = some (.string, pos + gap.length) :=
    findValue_eq_some.mpr ⟨gap, 34, [], hdrop, hgap, rfl, rfl, by omega⟩
  have hnil : text.drop (pos + gap.length + 1) = [] := List.drop_of_length_le (by omega)
  rw [nextValue, Option.bind_some, hfind]
  dsimp only
  rw [if_pos rfl, if_pos rfl, if_neg (show ¬ JsonType.string = JsonType.boolean by decide), hnil]
  have hval : pos + gap.length + 1 = text.length := by omega
  rw [hval]
  cases key with
  | none => exact ⟨⟨none, text.length, 0, .string⟩, if_neg (Nat.not_lt.mpr hend)⟩
  | some name =>
    obtain ⟨name, nameLen⟩ := name
    refine ⟨⟨some (name, nameLen), text.length, 0, .string⟩, ?_⟩
    dsimp only
    rw [if_neg (Nat.not_lt.mpr (hkey name nameLen rfl))]
    exact if_neg (Nat.not_lt.mpr hend)

theorem nextValue_nullWrite_iff :
    nextValue text strEnd key (some pos) = .nullWrite ↔
      key = none ∧ CutBoolean (text.drop pos) (strEnd - pos) := by
  rw [nextValue, Option.bind_some]
  constructor
  · intro h
    cases hfind : findValue strEnd pos (text.drop pos) with
    | none => simp [hfind] at h
    | some found =>
      obtain ⟨type, quote⟩ := found
      have hvalue := valueAt_of_findValue hfind
      rw [hfind] at h
      dsimp only at h hvalue
      generalize (if type = .string then quote + 1 else quote) = start at h hvalue
      generalize valueLen type (text.drop start) strEnd start 0 false _ _ = len at h hvalue
      cases key with
      | some name =>
        dsimp only at h
        repeat' split at h
        all_goals simp at h
      | none =>
        refine ⟨rfl, ?_⟩
        dsimp only at h
        split at h
        · next hlt =>
          by_cases hboolean : type = .boolean
          · obtain ⟨gap, hdrop, hgap, hstart, hbefore, hlen⟩ := hvalue.boolean hboolean
            cases hb : booleanLen (text.drop start) with
            | none =>
              rw [hb, Option.getD_none] at hlen
              omega
            | some len' =>
              rw [hb, Option.getD_some] at hlen
              exact ⟨gap, text.drop start, len', hdrop, hgap, hb, by omega, by omega⟩
          · have hle := hvalue.given hboolean
            omega
        · simp at h
  · rintro ⟨rfl, gap, value, len, hdrop, hgap, hlen, hbefore, hbehind⟩
    cases value with
    | nil => simp [booleanLen] at hlen
    | cons b value =>
      have hboolean : startType b = some .boolean := startType_of_booleanLen hlen
      have hfind : findValue strEnd pos (text.drop pos) = some (.boolean, pos + gap.length) :=
        findValue_eq_some.mpr ⟨gap, b, value, hdrop, hgap, hboolean, rfl, by omega⟩
      have hvalue : text.drop (pos + gap.length) = b :: value := by
        rw [← List.drop_drop, hdrop, List.drop_left]
      have hcount := valueLen_boolean (b :: value) (pos + gap.length) 0 false
        (show pos + gap.length < strEnd by omega) (List.cons_ne_nil b value)
      rw [hlen, Option.getD_some] at hcount
      rw [hfind]
      dsimp only
      rw [if_neg (show ¬ JsonType.boolean = JsonType.string by decide), if_pos rfl, hvalue,
        hcount]
      exact if_pos (by omega)

end

section
variable {text : List UInt8} {strEnd pos pos' : Nat} {entry : Entry}

theorem key_parts {quote quote' colon : Nat} (h : strchr text pos 34 = some quote)
    (h' : strchr text (quote + 1) 34 = some quote') (hc : strchr text quote' 58 = some colon) :
    ∃ before name after rest,
      text.drop pos = before ++ 34 :: (name ++ 34 :: (after ++ 58 :: rest)) ∧
      34 ∉ before ∧ 34 ∉ name ∧ 58 ∉ after ∧ quote = pos + before.length ∧
      quote' = quote + 1 + name.length ∧ colon = quote' + 1 + after.length ∧
      text.drop colon = 58 :: rest := by
  obtain ⟨before, rest₁, hdrop, hbefore, rfl⟩ := strchr_eq_some.mp h
  obtain ⟨name, rest₂, hdrop₁, hname, rfl⟩ := strchr_eq_some.mp h'
  obtain ⟨after, rest₃, hdrop₂, hafter, rfl⟩ := strchr_eq_some.mp hc
  have hrest₁ : text.drop (pos + before.length + 1) = rest₁ := by
    rw [← List.drop_drop, ← List.drop_drop, hdrop, List.drop_left]
    rfl
  have hrest₂ : text.drop (pos + before.length + 1 + name.length) = 34 :: rest₂ := by
    rw [← List.drop_drop, hdrop₁, List.drop_left]
  rw [hrest₂] at hdrop₂
  cases after with
  | nil => simp at hdrop₂
  | cons x after =>
    rw [List.cons_append] at hdrop₂
    obtain ⟨rfl, rfl⟩ := List.cons.inj hdrop₂
    refine ⟨before, name, after, rest₃, ?_, hbefore, hname,
      fun h => hafter (List.mem_cons_of_mem _ h), rfl, rfl, ?_, ?_⟩
    · rw [hdrop, ← hrest₁, hdrop₁]
    · rw [List.length_cons]
      omega
    · rw [List.length_cons, ← List.drop_drop, hrest₂, List.drop_succ_cons, List.drop_left]

theorem cutAtQuote_colon {rest : List UInt8} : CutAtQuote (58 :: rest) ↔ CutAtQuote rest := by
  constructor
  · rintro ⟨gap, heq, hgap⟩
    cases gap with
    | nil => simp at heq
    | cons x gap =>
      obtain ⟨rfl, rfl⟩ := List.cons.inj heq
      exact ⟨gap, rfl, (List.forall_mem_cons.mp hgap).2⟩
  · rintro ⟨gap, rfl, hgap⟩
    exact ⟨58 :: gap, rfl, List.forall_mem_cons.mpr ⟨by decide, hgap⟩⟩

theorem object_found (h : jsonGetNextObject true text strEnd pos = .found entry pos') :
    entry.Inside text.length ∧ pos < pos' ∧
      (pos' ≤ text.length ∨ pos' = text.length + 1 ∧ text.length ≤ strEnd ∧
        ∃ before name after rest,
          text.drop pos = before ++ 34 :: (name ++ 34 :: (after ++ 58 :: rest)) ∧
          34 ∉ before ∧ 34 ∉ name ∧ 58 ∉ after ∧ CutAtQuote rest) := by
  rw [jsonGetNextObject, if_pos rfl] at h
  cases hquote : strchr text pos 34 with
  | none => simp [hquote] at h
  | some quote =>
    cases hquote' : strchr text (quote + 1) 34 with
    | none => simp [hquote, hquote'] at h
    | some quote' =>
      rw [hquote] at h
      dsimp only at h
      rw [hquote'] at h
      dsimp only at h
      cases hcolon : strchr text quote' 58 with
      | none => simp [hcolon, nextValue] at h
      | some colon =>
        rw [hcolon] at h
        obtain ⟨before, name, after, rest, hdrop, hbefore, hname, hafter, rfl, rfl, rfl, hrest⟩ :=
          key_parts hquote hquote' hcolon
        obtain ⟨hkey, hval, hle, -, hcursor⟩ := nextValue_found h
        have hlen := congrArg List.length hrest
        rw [List.length_drop, List.length_cons] at hlen
        refine ⟨⟨hval, fun name' nameLen' heq => ?_⟩, by omega, ?_⟩
        · rw [hkey, Option.some.injEq, Prod.mk.injEq] at heq
          omega
        · refine hcursor.imp id fun ⟨hpos, hend, hcut⟩ => ⟨hpos, hend, ?_⟩
          rw [hrest, cutAtQuote_colon] at hcut
          exact ⟨before, name, after, rest, hdrop, hbefore, hname, hafter, hcut⟩

theorem object_of_cut (hend : text.length ≤ strEnd) {before name after rest : List UInt8}
    (hdrop : text.drop pos = before ++ 34 :: (name ++ 34 :: (after ++ 58 :: rest)))
    (hbefore : 34 ∉ before) (hname : 34 ∉ name) (hafter : 58 ∉ after) (hcut : CutAtQuote rest) :
    ∃ entry, jsonGetNextObject true text strEnd pos = .found entry (text.length + 1) := by
  have hquote : strchr text pos 34 = some (pos + before.length) :=
    strchr_eq_some.mpr ⟨before, _, hdrop, hbefore, rfl⟩
  have hdrop₁ : text.drop (pos + before.length + 1) = name ++ 34 :: (after ++ 58 :: rest) := by
    rw [← List.drop_drop, ← List.drop_drop, hdrop, List.drop_left]
    rfl
  have hquote' : strchr text (pos + before.length + 1) 34 =
      some (pos + before.length + 1 + name.length) :=
    strchr_eq_some.mpr ⟨name, _, hdrop₁, hname, rfl⟩
  have hdrop₂ : text.drop (pos + before.length + 1 + name.length) =
    34 :: (after ++ 58 :: rest) := by
    rw [← List.drop_drop, hdrop₁, List.drop_left]
  have hcolon : strchr text (pos + before.length + 1 + name.length) 58 =
      some (pos + before.length + 1 + name.length + (34 :: after).length) :=
    strchr_eq_some.mpr ⟨34 :: after, rest, hdrop₂, by simp [hafter], rfl⟩
  have hrest : text.drop (pos + before.length + 1 + name.length + (34 :: after).length) =
      58 :: rest := by
    rw [← List.drop_drop, hdrop₂, ← List.cons_append, List.drop_left]
  have hlen := congrArg List.length hdrop₂
  rw [List.length_drop, List.length_cons] at hlen
  rw [jsonGetNextObject, if_pos rfl, hquote]
  dsimp only
  rw [hquote']
  dsimp only
  rw [hcolon]
  refine nextValue_of_cut hend (by rw [hrest]; exact cutAtQuote_colon.mpr hcut) ?_
  intro name' nameLen' heq
  rw [Option.some.injEq, Prod.mk.injEq] at heq
  omega

theorem object_nullWrite : jsonGetNextObject true text strEnd pos ≠ .nullWrite := by
  rw [jsonGetNextObject, if_pos rfl]
  cases strchr text pos 34 with
  | none => exact nofun
  | some quote =>
    dsimp only
    cases strchr text (quote + 1) 34 with
    | none => exact nofun
    | some quote' =>
      dsimp only
      cases strchr text quote' 58 with
      | none => exact nofun
      | some colon => exact fun h => nomatch (nextValue_nullWrite_iff.mp h).1

end

/-! ## The iteration -/

section
variable {isObject : Bool} {text : CStr} {strEnd pos pos' : Nat} {entry : Entry}

theorem jsonGetNextObject_array (text : List UInt8) (strEnd pos : Nat) :
    jsonGetNextObject false text strEnd pos = nextValue text strEnd none (some pos) := rfl

theorem round_found
    (h : jsonGetNextObject isObject text.val strEnd (if isObject then pos else pos + 1) =
      .found entry pos') :
    entry.Inside text.strlen ∧ pos < pos' ∧
      (pos' ≤ text.strlen ∨ pos' = text.strlen + 1 ∧ CutOff isObject text strEnd pos) := by
  cases isObject with
  | true => exact object_found h
  | false =>
    rw [if_neg Bool.false_ne_true, jsonGetNextObject_array] at h
    obtain ⟨hkey, hval, hle, -, hcursor⟩ := nextValue_found h
    refine ⟨⟨hval, fun name nameLen heq => ?_⟩, hle, ?_⟩
    · rw [hkey] at heq
      simp at heq
    · exact hcursor.imp id fun ⟨hnext, hend, hcut⟩ => ⟨hnext, .inl ⟨hend, hcut⟩⟩

theorem round_of_cutOff (h : CutOff isObject text strEnd pos) :
    (∃ entry, jsonGetNextObject isObject text.val strEnd (if isObject then pos else pos + 1) =
      .found entry (text.strlen + 1)) ∨
    jsonGetNextObject isObject text.val strEnd (if isObject then pos else pos + 1) =
      .nullWrite := by
  cases isObject with
  | true =>
    obtain ⟨hend, before, name, after, rest, hdrop, hbefore, hname, hafter, hcut⟩ := h
    exact .inl (object_of_cut hend hdrop hbefore hname hafter hcut)
  | false =>
    rw [if_neg Bool.false_ne_true, jsonGetNextObject_array]
    rcases h with ⟨hend, hcut⟩ | hcut
    · exact .inl (nextValue_of_cut hend hcut (by simp))
    · exact .inr (nextValue_nullWrite_iff.mpr ⟨rfl, hcut⟩)

theorem cutOff_of_nullWrite
    (h : jsonGetNextObject isObject text.val strEnd (if isObject then pos else pos + 1) =
      .nullWrite) : CutOff isObject text strEnd pos := by
  cases isObject with
  | true => exact absurd h object_nullWrite
  | false =>
    rw [if_neg Bool.false_ne_true, jsonGetNextObject_array] at h
    exact .inr (nextValue_nullWrite_iff.mp h).2

theorem jsonGetObject_le {bracket : UInt8} {rest : List UInt8} {start : Nat}
    (h : jsonGetObject bracket strEnd start rest = some pos) : pos ≤ start + rest.length := by
  induction rest generalizing start with
  | nil => exact nomatch h
  | cons b rest ih =>
    rw [jsonGetObject] at h
    rw [List.length_cons]
    split at h
    · simp at h
    split at h
    · have hle := ih h
      omega
    split at h
    · obtain rfl : start = pos := by simpa using h
      omega
    · simp at h

theorem walk_cons_finished {walk : Walk} {entries : List Entry}
    (h : walk.cons entry = .finished entries) :
    ∃ rest, walk = .finished rest ∧ entries = entry :: rest := by
  cases walk with
  | finished rest => exact ⟨rest, rfl, (Walk.finished.inj h).symm⟩
  | outside => exact nomatch h
  | unfinished => exact nomatch h

theorem forEach_finished (hcut : ∀ pos, Reached isObject text strEnd pos → pos < text.strlen →
    ¬ CutOff isObject text strEnd pos) {fuel : Nat} (hreached : Reached isObject text strEnd pos)
    (hpos : pos ≤ text.strlen) (hfuel : text.strlen < fuel + pos) :
    ∃ entries, forEach isObject text.val strEnd fuel pos = .finished entries ∧
      ∀ entry ∈ entries, entry.Inside text.strlen := by
  induction fuel generalizing pos with
  | zero => omega
  | succ fuel ih =>
    have hlen : text.val.length = text.strlen := rfl
    rw [forEach, if_neg (by omega)]
    split
    · exact ⟨[], rfl, nofun⟩
    next hne =>
    have hlt : pos < text.strlen := by omega
    cases hnext : jsonGetNextObject isObject text.val strEnd
        (if isObject then pos else pos + 1) with
    | null => exact ⟨[], rfl, nofun⟩
    | nullWrite => exact absurd (cutOff_of_nullWrite hnext) (hcut pos hreached hlt)
    | found entry pos' =>
      obtain ⟨hinside, hahead, hstays⟩ := round_found hnext
      have hstays' := hstays.resolve_right fun h => hcut pos hreached hlt h.2
      obtain ⟨entries, hwalk, hentries⟩ := ih (.next hreached hlt hnext) hstays' (by omega)
      refine ⟨entry :: entries, ?_, List.forall_mem_cons.mpr ⟨hinside, hentries⟩⟩
      dsimp only
      rw [hwalk]
      rfl

theorem finished_of_reached {fuel : Nat} {entries : List Entry}
    (h : iterate isObject text strEnd fuel = .finished entries)
    (hreached : Reached isObject text strEnd pos) :
    ∃ fuel' entries', forEach isObject text.val strEnd fuel' pos = .finished entries' := by
  induction hreached with
  | first hfirst =>
    rw [iterate, hfirst] at h
    exact ⟨fuel, entries, h⟩
  | next _ hlt hnext ih =>
    obtain ⟨fuel', entries', hwalk⟩ := ih
    have hlen : text.val.length = text.strlen := rfl
    cases fuel' with
    | zero => exact nomatch hwalk
    | succ fuel' =>
      rw [forEach, if_neg (by omega), if_neg (by omega), hnext] at hwalk
      obtain ⟨rest, hrest, -⟩ := walk_cons_finished hwalk
      exact ⟨fuel', rest, hrest⟩

theorem iterate_iff (isObject : Bool) (text : CStr) (strEnd : Nat) :
    StaysInside isObject text strEnd ↔ ∀ pos, Reached isObject text strEnd pos →
      pos < text.strlen → ¬ CutOff isObject text strEnd pos := by
  have hlen : text.val.length = text.strlen := rfl
  constructor
  · rintro ⟨fuel, entries, hwalk, -⟩ pos hreached hlt hcut
    obtain ⟨fuel', entries', hfinished⟩ := finished_of_reached hwalk hreached
    cases fuel' with
    | zero => exact nomatch hfinished
    | succ fuel' =>
      rw [forEach, if_neg (by omega), if_neg (by omega)] at hfinished
      rcases round_of_cutOff hcut with ⟨entry, hnext⟩ | hnext
      · rw [hnext] at hfinished
        obtain ⟨rest, hrest, -⟩ := walk_cons_finished hfinished
        cases fuel' with
        | zero => exact nomatch hrest
        | succ fuel' =>
          rw [forEach, if_pos (by omega)] at hrest
          exact nomatch hrest
      · rw [hnext] at hfinished
        exact nomatch hfinished
  · intro hcut
    cases hfirst : jsonGetObject (if isObject then 123 else 91) strEnd 0 text.val with
    | none => exact ⟨0, [], by rw [iterate, hfirst], nofun⟩
    | some pos =>
      have hreached : Reached isObject text strEnd pos := .first hfirst
      have hle := jsonGetObject_le hfirst
      have hfuel : text.strlen < text.strlen + 1 + pos := by omega
      obtain ⟨entries, hwalk, hinside⟩ := forEach_finished hcut hreached (by omega) hfuel
      exact ⟨text.strlen + 1, entries, by rw [iterate, hfirst]; exact hwalk, hinside⟩

/-- A text that is cut off behind the opening quote of a value. -/
theorem cut_value_outside : let text : CStr := ⟨[123, 34, 97, 34, 58, 34], by decide⟩
    ¬ StaysInside true text text.strlen := by
  rintro text ⟨fuel, entries, hwalk, -⟩
  have hfirst : jsonGetObject 123 6 0 text.val = some 0 := by decide
  have hround : jsonGetNextObject true text.val 6 0 =
      .found ⟨some (2, 1), 6, 0, .string⟩ 7 := by decide
  have hiterate : iterate true text 6 fuel = forEach true text.val 6 fuel 0 := by
    rw [iterate, if_pos rfl, hfirst]
  have hwalk' : forEach true text.val 6 fuel 0 = .finished entries := hiterate ▸ hwalk
  cases fuel with
  | zero => exact nomatch hwalk'
  | succ fuel =>
    rw [forEach, if_neg (by decide), if_neg (by decide), if_pos rfl, hround] at hwalk'
    obtain ⟨rest, hrest, -⟩ := walk_cons_finished hwalk'
    cases fuel with
    | zero => exact nomatch hrest
    | succ fuel =>
      rw [forEach, if_pos (by decide)] at hrest
      exact nomatch hrest

end

end AliyunIot.JsonParser
