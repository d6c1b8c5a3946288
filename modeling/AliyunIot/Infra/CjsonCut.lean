import AliyunIot.Infra.CjsonMembers
import AliyunIot.Infra.Strtod

/-!
# Texts that end too early

The bracket at the end of a text may close several values (`acceptsWellFormed_iff`): a text that
lacks only further copies of its last bracket is parsed. Everything else that is parsed is a
value of the grammar.
-/

namespace AliyunIot.Cjson

open Lib Lib.Json Lib.Separated

/-- What the parser passes in front of the value: a byte order mark and spaces. -/
def IsLead (total : Nat) (lead : List UInt8) : Prop :=
  ∃ ws, Spaces (lexis anyNumber) ws ∧
    (lead = ws ∨ 4 < total ∧ lead = 0xEF :: 0xBB :: 0xBF :: ws)

/-- Where `lite_cjson_parse` leaves the offset when it succeeds. -/
def consumed (strtod : Strtod) (content : List UInt8) : Option Nat :=
  if content = [] then none
  else
    (parseValue strtod content liteCjsonNestingLimit
      (bufferSkipWhitespace content (skipUtf8Bom content))).map Prod.snd

/-- What was consumed is a value, whatever `strtod` takes for a number. -/
def WellFormed (content : List UInt8) (e : Nat) : Prop :=
  ∃ lead k t, IsLead content.length lead ∧ content.take e = lead ++ t ∧
    IsValue (lexis anyNumber) liteCjsonNestingLimit k t

/-- The parser takes only a value from the text, and rejects the text if it is a value without
its last bracket. -/
def AcceptsWellFormed (strtod : Strtod) (content : List UInt8) : Prop :=
  (∀ e, consumed strtod content = some e → WellFormed content e) ∧
    ∀ lead k t b, IsLead content.length lead → content = lead ++ t → (b = 93 ∨ b = 125) →
      IsValue (lexis anyNumber) liteCjsonNestingLimit k (t ++ [b]) →
      liteCjsonParse strtod content = none

/-- The text lacks further copies of the bracket that it ends with, and nothing else. -/
def LacksBrackets (strtod : Strtod) (content : List UInt8) : Prop :=
  ∃ lead k t b m, IsLead content.length lead ∧ content = lead ++ t ∧ (b = 93 ∨ b = 125) ∧
    t.getLast? = some b ∧
    IsValue (lexis strtod) liteCjsonNestingLimit k (t ++ List.replicate (m + 1) b)

variable {strtod : Strtod} {content : List UInt8} {n o e : Nat} {k : Kind} {t : List UInt8}
  {lite : LiteCjson}

section Lists

theorem replicate_concat (m : Nat) (b : UInt8) :
    List.replicate m b ++ [b] = List.replicate (m + 1) b := List.replicate_succ'.symm

theorem split_replicate {p s : List UInt8} {m : Nat} {b : UInt8}
    (h : p ++ t = s ++ List.replicate m b) (ht : ∃ c ∈ t, c ≠ b) :
    ∃ s', t = s' ++ List.replicate m b ∧ s = p ++ s' ∧ s' ≠ [] := by
  obtain ⟨c, hc, hne⟩ := ht
  rcases List.append_eq_append_iff.mp h with ⟨s', rfl, ht⟩ | ⟨s', rfl, hrep⟩
  · refine ⟨s', ht, rfl, ?_⟩
    rintro rfl
    rw [ht, List.nil_append] at hc
    exact hne (List.eq_of_mem_replicate hc)
  · have hmem : c ∈ List.replicate m b := by
      rw [hrep]
      exact List.mem_append_right s' hc
    exact absurd (List.eq_of_mem_replicate hmem) hne

theorem getLast?_append_ne {p s : List UInt8} (h : s ≠ []) : (p ++ s).getLast? = s.getLast? := by
  rw [List.getLast?_append]
  cases hs : s.getLast? with
  | none => exact absurd (List.getLast?_eq_none_iff.mp hs) h
  | some b => rfl

theorem getLast?_replicate {s : List UInt8} {b : UInt8} {m : Nat} (h : s.getLast? = some b) :
    (s ++ List.replicate m b).getLast? = some b := by
  cases m with
  | zero => rwa [List.replicate_zero, List.append_nil]
  | succ m => rw [← replicate_concat, ← List.append_assoc, List.getLast?_concat]

end Lists

section Parts

variable {α : Type} {whole cut : α → Prop} {bytes : α → List UInt8} {closing : UInt8}
  {parts : List α} {s : List UInt8}

theorem closed_completed (h : Closed whole cut bytes closing parts s)
    (hs : s.getLast? = some closing) (hcut : ∀ a, cut a → (bytes a).getLast? = some closing →
      ∃ a' m, whole a' ∧ bytes a' = bytes a ++ List.replicate m closing)
    (hbytes : ∀ a, cut a → bytes a ≠ []) :
    ∃ (parts' : List α) (m : Nat), parts'.length = parts.length ∧ (∀ a ∈ parts', whole a) ∧
      s ++ List.replicate m closing = joined (parts'.map bytes) ++ [closing] := by
  rcases h with ⟨hparts, rfl⟩ | ⟨init, a, rfl, hinit, ha, rfl⟩
  · exact ⟨parts, 0, rfl, hparts, List.append_nil _⟩
  · have hjoined : joined ((init ++ [a]).map bytes) =
        joined (init.map bytes ++ [[]] ) ++ bytes a := by
      rw [joined_concat, List.map_append, List.map_singleton, List.nil_append]
    rw [hjoined, getLast?_append_ne (hbytes a ha)] at hs
    obtain ⟨a', m, ha', hbytes'⟩ := hcut a ha hs
    refine ⟨init ++ [a'], m + 1, by simp, ?_, ?_⟩
    · intro b hb
      rcases List.mem_append.mp hb with hb | hb
      · exact hinit b hb
      · rw [List.mem_singleton.mp hb]
        exact ha'
    · rw [List.map_append, List.map_append, List.map_singleton, List.map_singleton, hbytes',
        ← replicate_concat, ← List.append_assoc, joined_concat]

theorem closed_truncated {m : Nat} (hparts : ∀ a ∈ parts, whole a) (hne : parts ≠ [])
    (h : joined (parts.map bytes) = s ++ List.replicate m closing) (hs : s.getLast? = some closing)
    (hwhole : ∀ a, whole a → ∃ c ∈ bytes a, c ≠ closing)
    (hcut : ∀ a s, whole a → bytes a = s ++ List.replicate m closing →
      s.getLast? = some closing → ∃ a', cut a' ∧ bytes a' = s) :
    ∃ parts', parts' ≠ [] ∧ Closed whole cut bytes closing parts' s := by
  obtain ⟨init, a, rfl⟩ : ∃ init a, parts = init ++ [a] :=
    ⟨_, _, (List.dropLast_append_getLast hne).symm⟩
  have hjoined : ∀ p, joined (init.map bytes ++ [p]) = joined (init.map bytes ++ [[]]) ++ p :=
    fun p => by rw [joined_concat, List.nil_append]
  rw [List.map_append, List.map_singleton, hjoined] at h
  have ha : whole a := hparts a (by simp)
  obtain ⟨s', hbytes, rfl, hne'⟩ := split_replicate h (hwhole a ha)
  rw [getLast?_append_ne hne'] at hs
  obtain ⟨a', ha', rfl⟩ := hcut a s' ha hbytes hs
  refine ⟨init ++ [a'], by simp, .inr ⟨init, a', rfl, ?_, ha', ?_⟩⟩
  · exact fun b hb => hparts b (List.mem_append_left _ hb)
  · rw [List.map_append, List.map_singleton, hjoined (bytes a')]

end Parts

/-! ## What is parsed lacks brackets at most -/

section Completed

/-- The values that are parsed on a level become values of the grammar with further brackets. -/
def Completes (strtod : Strtod) (n : Nat) : Prop :=
  ∀ k t, Parsed strtod n k t → IsContainer (item strtod k t) → ∃ k' m b, (b = 93 ∨ b = 125) ∧
    t.getLast? = some b ∧ IsValue (lexis strtod) n k' (t ++ List.replicate m b)

theorem text_ne_nil {el : Element} (h : CutElement strtod n el) : el.text ≠ [] := by
  obtain ⟨b, s, htext, -⟩ := head_of_parsed h.2.2.1
  rw [htext]
  exact List.cons_ne_nil b s

theorem bytes_of_cut {el : Element} (h : CutElement strtod n el) :
    el.bytes = el.before ++ el.text := by rw [Element.bytes, h.2.1, List.append_nil]

theorem element_completed (hn : Completes strtod n) {el : Element} {b : UInt8}
    (h : CutElement strtod n el) (hb : el.bytes.getLast? = some b) :
    ∃ el' m, WholeElement strtod n el' ∧ el'.bytes = el.bytes ++ List.replicate m b := by
  obtain ⟨k, m, b', -, hlast, hk⟩ := hn _ _ h.2.2.1 h.2.2.2
  rw [bytes_of_cut h, getLast?_append_ne (text_ne_nil h), hlast] at hb
  cases hb
  refine ⟨⟨el.before, k, el.text ++ List.replicate m b, []⟩, m, ⟨h.1, hk, spaces_nil⟩, ?_⟩
  rw [bytes_of_cut h, Element.bytes, List.append_nil, List.append_assoc]

theorem bytes_of_member (m : Member) :
    m.bytes = (m.before ++ (quote m.key ++ (m.after ++ [58]))) ++ m.value.bytes := by
  simp [Member.bytes]

theorem member_completed (hn : Completes strtod n) {m : Member} {b : UInt8}
    (h : CutMember strtod n m) (hb : m.bytes.getLast? = some b) :
    ∃ m' i, WholeMember strtod n m' ∧ m'.bytes = m.bytes ++ List.replicate i b := by
  obtain ⟨hbefore, hkey, hafter, hel⟩ := h
  rw [bytes_of_member, getLast?_append_ne (bytes_ne_nil_of_cut hel)] at hb
  obtain ⟨el', i, hel', hbytes⟩ := element_completed hn hel hb
  refine ⟨⟨m.before, m.key, m.after, el'⟩, i, ⟨hbefore, hkey, hafter, hel'⟩, ?_⟩
  rw [bytes_of_member, bytes_of_member, hbytes]
  simp only [List.append_assoc]

theorem getLast?_bracketed {opening c : UInt8} {s : List UInt8}
    (h : (opening :: s).getLast? = some c) (hne : opening ≠ c) : s.getLast? = some c := by
  cases s with
  | nil => exact absurd (Option.some.inj h) hne
  | cons b s => rwa [List.getLast?_cons_cons] at h

theorem array_completed (hn : Completes strtod n) {es : List Element}
    (h : ArrayText strtod n es t) :
    ∃ k m, t.getLast? = some 93 ∧ IsValue (lexis strtod) (n + 1) k (t ++ List.replicate m 93) := by
  rcases h with ⟨-, ws, hws, rfl⟩ | ⟨hne, hlast, s, rfl, hclosed⟩
  · refine ⟨.array 0, 0, by rw [← List.cons_append, List.getLast?_concat], ?_⟩
    rw [List.replicate_zero, List.append_nil]
    exact (isValue_of_spaces hws).1
  · obtain ⟨es', m, hlen, hes', hs⟩ := closed_completed hclosed
      (getLast?_bracketed hlast (by decide))
      (fun _ ha hb => element_completed hn ha hb) (fun _ ha => bytes_ne_nil_of_cut ha)
    have hne' : es' ≠ [] := by
      rintro rfl
      exact hne (List.length_eq_zero_iff.mp hlen.symm)
    refine ⟨.array es'.length, m, hlast, _, ?_, .inr ⟨es', hne', rfl, hes', rfl⟩⟩
    rw [List.cons_append, hs]

theorem object_completed (hn : Completes strtod n) {ms : List Member}
    (h : ObjectText strtod n ms t) :
    ∃ k m, t.getLast? = some 125 ∧
      IsValue (lexis strtod) (n + 1) k (t ++ List.replicate m 125) := by
  rcases h with ⟨-, ws, hws, rfl⟩ | ⟨hne, hlast, s, rfl, hclosed⟩
  · refine ⟨.object 0, 0, by rw [← List.cons_append, List.getLast?_concat], ?_⟩
    rw [List.replicate_zero, List.append_nil]
    exact (isValue_of_spaces hws).2
  · obtain ⟨ms', m, hlen, hms', hs⟩ := closed_completed hclosed
      (getLast?_bracketed hlast (by decide))
      (fun _ ha hb => member_completed hn ha hb) (fun m _ => member_bytes_ne_nil m)
    have hne' : ms' ≠ [] := by
      rintro rfl
      exact hne (List.length_eq_zero_iff.mp hlen.symm)
    refine ⟨.object ms'.length, m, hlast, _, ?_, .inr ⟨ms', hne', rfl, hms', rfl⟩⟩
    rw [List.cons_append, hs]

theorem completes (strtod : Strtod) (n : Nat) : Completes strtod n := by
  induction n with
  | zero =>
    intro k t h hc
    rcases dispatch_cases h with ⟨_, _, -, hflat, -⟩ | ⟨-, h⟩ | ⟨-, h⟩
    · exact absurd hc hflat
    · cases h
    · cases h
  | succ n ih =>
    intro k t h hc
    rcases hc with htype | htype
    · obtain ⟨ms, htext, -⟩ := objectText_of_parsed h htype
      obtain ⟨k', m, hlast, hk'⟩ := object_completed ih htext
      exact ⟨k', m, 125, .inr rfl, hlast, hk'⟩
    · obtain ⟨es, htext, -⟩ := arrayText_of_parsed h htype
      obtain ⟨k', m, hlast, hk'⟩ := array_completed ih htext
      exact ⟨k', m, 93, .inl rfl, hlast, hk'⟩

end Completed

/-! ## What lacks brackets is parsed -/

section Truncated

/-- A value without copies of its last bracket at the end is parsed. -/
def Truncates (strtod : Strtod) (n : Nat) : Prop :=
  ∀ k t m b, IsValue (lexis strtod) n k (t ++ List.replicate m b) → (b = 93 ∨ b = 125) →
    t.getLast? = some b → ∃ k', Parsed strtod n k' t ∧ IsContainer (item strtod k' t)

variable {b : UInt8}

theorem getLast?_of_spaces {ws : List UInt8} (hws : Spaces (lexis strtod) ws)
    (hb : ws.getLast? = some b) : isSpace b = true := hws b (List.mem_of_getLast? hb)

theorem isSpace_of_bracket (h : b = 93 ∨ b = 125) : isSpace b = false := by
  rcases h with rfl | rfl
  · rfl
  · rfl

theorem exists_ne_bracket (hb : b = 93 ∨ b = 125)
    (h : IsValue (lexis strtod) n k t) : ∃ c ∈ t, c ≠ b := by
  obtain ⟨c, s, rfl, -, h93, -⟩ := head_of_isValue h
  rcases hb with rfl | rfl
  · exact ⟨c, List.mem_cons_self, h93⟩
  refine ⟨c, List.mem_cons_self, ?_⟩
  rintro rfl
  cases k with
  | null | false | true =>
    rw [IsValue] at h
    cases h
  | number =>
    rw [IsValue] at h
    have hnum := h.bytes 125 List.mem_cons_self
    cases hnum
  | string =>
    rw [IsValue] at h
    obtain ⟨body, -, h⟩ := h
    cases h
  | array size =>
    cases n with
    | zero => exact h.elim
    | succ n =>
      obtain ⟨inner, h, -⟩ := h
      cases h
  | object size =>
    cases n with
    | zero => exact h.elim
    | succ n =>
      obtain ⟨inner, h, -⟩ := h
      cases h

theorem element_truncated (hn : Truncates strtod n) {el : Element} {m : Nat}
    {s : List UInt8} (hb : b = 93 ∨ b = 125) (h : WholeElement strtod n el)
    (hbytes : el.bytes = s ++ List.replicate m b) (hs : s.getLast? = some b) :
    ∃ el', CutElement strtod n el' ∧ el'.bytes = s := by
  obtain ⟨hbefore, hk, hafter⟩ := h
  have hlast : el.bytes.getLast? = some b := by rw [hbytes, getLast?_replicate hs]
  -- no spaces stand behind the bracket
  have hnil : el.after = [] := by
    by_contra hne
    have htail : el.after.getLast? = some b := by
      rw [← getLast?_append_ne (p := el.before ++ el.text) hne, List.append_assoc]
      exact hlast
    have hspace := getLast?_of_spaces hafter htail
    rw [isSpace_of_bracket hb] at hspace
    cases hspace
  rw [Element.bytes, hnil, List.append_nil] at hbytes
  obtain ⟨s', htext, rfl, hne⟩ := split_replicate hbytes (exists_ne_bracket hb hk)
  rw [getLast?_append_ne hne] at hs
  obtain ⟨k', hparsed, hc⟩ := hn _ s' m b (htext ▸ hk) hb hs
  exact ⟨⟨el.before, k', s', []⟩, ⟨hbefore, rfl, hparsed, hc⟩, by rw [Element.bytes,
    List.append_nil]⟩

theorem member_truncated (hn : Truncates strtod n) {m : Member} {i : Nat}
    {s : List UInt8} (hb : b = 93 ∨ b = 125) (h : WholeMember strtod n m)
    (hbytes : m.bytes = s ++ List.replicate i b) (hs : s.getLast? = some b) :
    ∃ m', CutMember strtod n m' ∧ m'.bytes = s := by
  obtain ⟨hbefore, hkey, hafter, hel⟩ := h
  have hvalue : ∃ c ∈ m.value.bytes, c ≠ b := by
    obtain ⟨c, hc, hne⟩ := exists_ne_bracket hb hel.2.1
    exact ⟨c, by simp [Element.bytes, hc], hne⟩
  rw [bytes_of_member] at hbytes
  obtain ⟨s', hbytes', rfl, hne⟩ := split_replicate hbytes hvalue
  rw [getLast?_append_ne hne] at hs
  obtain ⟨el', hel', rfl⟩ := element_truncated hn hb hel hbytes' hs
  exact ⟨⟨m.before, m.key, m.after, el'⟩, ⟨hbefore, hkey, hafter, hel'⟩, bytes_of_member _⟩

theorem exists_ne_in_element {el : Element} (h : WholeElement strtod n el) :
    ∃ c ∈ el.bytes, c ≠ 93 := by
  obtain ⟨c, hc, hne⟩ := exists_ne_bracket (.inl rfl) h.2.1
  exact ⟨c, by simp [Element.bytes, hc], hne⟩

theorem exists_ne_in_member (m : Member) : ∃ c ∈ m.bytes, c ≠ 125 :=
  ⟨34, by simp [Member.bytes, quote], by decide⟩

theorem inner_truncated {opening closing : UInt8} {s inner : List UInt8} {m : Nat}
    (h : s ++ List.replicate (m + 1) b = opening :: (inner ++ [closing]))
    (hs : s.getLast? = some b) (hne : opening ≠ b) :
    b = closing ∧ ∃ s', s = opening :: s' ∧ inner = s' ++ List.replicate m b ∧
      s'.getLast? = some b := by
  rw [← replicate_concat, ← List.append_assoc, ← List.cons_append] at h
  obtain ⟨hinner, hclosing⟩ := List.append_inj' h rfl
  cases s with
  | nil => cases hs
  | cons c s' =>
    obtain ⟨rfl, htail⟩ := List.cons.inj hinner
    exact ⟨(List.cons.inj hclosing).1, s', rfl, htail.symm, getLast?_bracketed hs hne⟩

theorem shape_of_isValue (h : IsValue (lexis strtod) n k t) : IsValue (lexis anyNumber) n k t :=
  IsValue.lexis (L := lexis strtod) (fun _ hb => hb)
    (fun _ ht => ⟨ht.starts, ht.bytes, ht.length_le, rfl⟩) (fun _ hs => hs) h

theorem kind_of_bracket (h : IsValue (lexis strtod) n k t) (hb : b = 93 ∨ b = 125)
    (hlast : t.getLast? = some b) : ∃ size, k = .array size ∨ k = .object size := by
  have hflat : IsValue (lexis anyNumber) 0 k t → False := fun h0 => by
    obtain ⟨h93, h125⟩ := getLast?_of_flat h0 hlast
    exact hb.elim h93 h125
  have h' := shape_of_isValue h
  cases k with
  | array size => exact ⟨size, .inl rfl⟩
  | object size => exact ⟨size, .inr rfl⟩
  | null | false | true | number | string => exact absurd (by simpa only [IsValue] using h') hflat

theorem array_truncated (hn : Truncates strtod n) {size m : Nat}
    (h : IsValue (lexis strtod) (n + 1) (.array size) (t ++ List.replicate (m + 1) b))
    (hb : b = 93 ∨ b = 125) (hs : t.getLast? = some b) : ∃ es, ArrayText strtod n es t := by
  obtain ⟨inner, hbytes, hinner⟩ := h
  have hopen : (91 : UInt8) ≠ b := by rcases hb with rfl | rfl <;> decide
  obtain ⟨rfl, s', rfl, rfl, hs'⟩ := inner_truncated hbytes hs hopen
  rcases hinner with ⟨-, hspaces⟩ | ⟨es, hne, -, hes, hjoined⟩
  · cases getLast?_of_spaces hspaces (getLast?_replicate hs')
  · obtain ⟨es', hne', hclosed⟩ := closed_truncated hes hne hjoined.symm hs'
      (fun _ ha => exists_ne_in_element ha)
      (fun _ _ ha hbytes hlast => element_truncated hn (.inl rfl) ha hbytes hlast)
    exact ⟨es', .inr ⟨hne', hs, s', rfl, hclosed⟩⟩

theorem object_truncated (hn : Truncates strtod n) {size m : Nat}
    (h : IsValue (lexis strtod) (n + 1) (.object size) (t ++ List.replicate (m + 1) b))
    (hb : b = 93 ∨ b = 125) (hs : t.getLast? = some b) : ∃ ms, ObjectText strtod n ms t := by
  obtain ⟨inner, hbytes, hinner⟩ := h
  have hopen : (123 : UInt8) ≠ b := by rcases hb with rfl | rfl <;> decide
  obtain ⟨rfl, s', rfl, rfl, hs'⟩ := inner_truncated hbytes hs hopen
  rcases hinner with ⟨-, hspaces⟩ | ⟨ms, hne, -, hms, hjoined⟩
  · cases getLast?_of_spaces hspaces (getLast?_replicate hs')
  · obtain ⟨ms', hne', hclosed⟩ := closed_truncated hms hne hjoined.symm hs'
      (fun m _ => exists_ne_in_member m)
      (fun _ _ ha hbytes hlast => member_truncated hn (.inr rfl) ha hbytes hlast)
    exact ⟨ms', .inr ⟨hne', hs, s', rfl, hclosed⟩⟩

theorem truncates (strtod : Strtod) (n : Nat) : Truncates strtod n := by
  induction n with
  | zero =>
    intro k t m b h hb hs
    obtain ⟨size, rfl | rfl⟩ := kind_of_bracket h hb (getLast?_replicate hs)
    · exact h.elim
    · exact h.elim
  | succ n ih =>
    intro k t m b h hb hs
    obtain ⟨size, hk⟩ := kind_of_bracket h hb (getLast?_replicate hs)
    cases m with
    | zero =>
      rw [List.replicate_zero, List.append_nil] at h
      refine ⟨k, parsed_of_isValue h, ?_⟩
      rcases hk with rfl | rfl
      · exact .inr rfl
      · exact .inl rfl
    | succ m =>
      rcases hk with rfl | rfl
      · obtain ⟨es, htext⟩ := array_truncated ih h hb hs
        exact ⟨.array es.length, parsed_of_arrayText htext, .inr rfl⟩
      · obtain ⟨ms, htext⟩ := object_truncated ih h hb hs
        exact ⟨.object ms.length, parsed_of_objectText htext, .inl rfl⟩

end Truncated

section Lead

def startOf (content : List UInt8) : Nat := bufferSkipWhitespace content (skipUtf8Bom content)

theorem startOf_of_lead {lead : List UInt8} {b : UInt8} {s : List UInt8}
    (hlead : IsLead (lead ++ b :: s).length lead) (hb : isSpace b = false) (hbom : b ≠ 0xEF) :
    startOf (lead ++ b :: s) = lead.length := by
  obtain ⟨ws, hws, rfl | ⟨hlen, rfl⟩⟩ := hlead
  · have hskip : skipUtf8Bom (lead ++ b :: s) = 0 := by
      refine if_neg fun h => ?_
      cases lead with
      | nil => exact hbom (List.cons.inj h.2).1
      | cons c ws =>
        have hc := hws c List.mem_cons_self
        rw [(List.cons.inj h.2).1] at hc
        cases hc
    have hdrop : (lead ++ b :: s).drop 0 = lead ++ b :: s := rfl
    rw [startOf, hskip, bufferSkipWhitespace_eq hdrop hws hb, Nat.zero_add]
  · have hskip : skipUtf8Bom (0xEF :: 0xBB :: 0xBF :: ws ++ b :: s) = 3 := if_pos ⟨hlen, rfl⟩
    have hdrop : (0xEF :: 0xBB :: 0xBF :: ws ++ b :: s).drop 3 = ws ++ b :: s := rfl
    rw [startOf, hskip, bufferSkipWhitespace_eq hdrop hws hb]
    simp only [List.length_cons]
    omega

theorem lead_of_startOf {b : UInt8} (hb : content[startOf content]? = some b)
    (hns : isSpace b = false) : IsLead content.length (content.take (startOf content)) := by
  have hlt := lt_of_getElem? hb
  have hbom : skipUtf8Bom content = 0 ∨ skipUtf8Bom content = 3 ∧ 4 < content.length ∧
      content.take 3 = [0xEF, 0xBB, 0xBF] := by
    unfold skipUtf8Bom
    split
    next h => exact .inr ⟨rfl, h⟩
    next => exact .inl rfl
  have hbehind : skipUtf8Bom content < content.length := by
    rcases hbom with h0 | ⟨h3, hlen, -⟩
    · omega
    · omega
  obtain ⟨ws, hws, hdrop, hstart⟩ := drop_of_skip hbehind hb hns
  refine ⟨ws, hws, ?_⟩
  have hsplit : content.take (startOf content) = content.take (skipUtf8Bom content) ++ ws := by
    rw [startOf, hstart, List.take_add, hdrop, List.take_left]
  rcases hbom with h0 | ⟨h3, hlen, htake⟩
  · left
    rw [hsplit, h0]
    rfl
  · right
    rw [hsplit, h3, htake]
    exact ⟨hlen, rfl⟩

end Lead

section Consumed

theorem consumed_eq (hne : content ≠ []) : consumed strtod content =
    (parseValue strtod content liteCjsonNestingLimit (startOf content)).map Prod.snd :=
  if_neg hne

theorem isSome_consumed (strtod : Strtod) (content : List UInt8) :
    (consumed strtod content).isSome = (liteCjsonParse strtod content).isSome := by
  unfold consumed liteCjsonParse
  split
  · rfl
  · rw [Option.isSome_map, Option.isSome_map]

theorem liteCjsonParse_eq_none : liteCjsonParse strtod content = none ↔
    consumed strtod content = none := by
  have h := isSome_consumed strtod content
  rw [← Option.not_isSome_iff_eq_none, ← Option.not_isSome_iff_eq_none, h]

theorem head_of_value (h : IsValue (lexis strtod) n k t) :
    ∃ b s, t = b :: s ∧ isSpace b = false ∧ b ≠ 0xEF := by
  obtain ⟨b, s, ht, hb, -, hbom⟩ := head_of_isValue h
  exact ⟨b, s, ht, hb, hbom⟩

theorem isContainer_of_kind (h : ∃ size, k = .array size ∨ k = .object size) :
    IsContainer (item strtod k t) := by
  obtain ⟨size, rfl | rfl⟩ := h
  · exact .inr rfl
  · exact .inl rfl

theorem head_of_kind {size : Nat} (h : IsValue (lexis strtod) n k t)
    (hk : k = .array size ∨ k = .object size) : ∃ c s, t = c :: s ∧ (c = 91 ∨ c = 123) := by
  rcases hk with rfl | rfl
  · cases n with
    | zero => exact h.elim
    | succ n =>
      obtain ⟨inner, rfl, -⟩ := h
      exact ⟨91, inner ++ [93], rfl, .inl rfl⟩
  · cases n with
    | zero => exact h.elim
    | succ n =>
      obtain ⟨inner, rfl, -⟩ := h
      exact ⟨123, inner ++ [125], rfl, .inr rfl⟩

theorem kind_of_head {c : UInt8} {s : List UInt8} (h : IsValue (lexis strtod) n k (c :: s))
    (hc : c = 91 ∨ c = 123) : ∃ size, k = .array size ∨ k = .object size := by
  cases k with
  | array size => exact ⟨size, .inl rfl⟩
  | object size => exact ⟨size, .inr rfl⟩
  | null | false | true =>
    rw [IsValue] at h
    rw [(List.cons.inj h).1] at hc
    exact absurd hc (by decide)
  | number =>
    rw [IsValue] at h
    have hnum := h.bytes c List.mem_cons_self
    rcases hc with rfl | rfl
    · cases hnum
    · cases hnum
  | string =>
    rw [IsValue] at h
    obtain ⟨body, -, h⟩ := h
    rw [(List.cons.inj h).1] at hc
    exact absurd hc (by decide)

theorem prefix_free {k' : Kind} {s : List UInt8} (h : IsValue (lexis strtod) n k t)
    (h' : IsValue (lexis strtod) n k' (t ++ s)) (hc : IsContainer (item strtod k t)) : s = [] := by
  have hstops : Stops k s := by
    rintro rfl
    exact hc.elim (fun h => nomatch h) (fun h => nomatch h)
  have hshort := parseValue_of_isValue strtod (t ++ s) n 0 k t s h hstops rfl
  have hlong : parseValue strtod (t ++ s) n 0 = _ := parsed_of_isValue h'
  rw [hshort] at hlong
  have hlen := congrArg Prod.snd (Option.some.inj hlong)
  simp only [List.length_append, Nat.zero_add] at hlen
  exact List.length_eq_zero_iff.mp (by omega)

theorem wellFormed_or_lacks (h : consumed strtod content = some e) :
    WellFormed content e ∨ LacksBrackets strtod content := by
  have hne : content ≠ [] := by
    rintro rfl
    cases h
  rw [consumed_eq hne] at h
  obtain ⟨⟨lite, e'⟩, hval, rfl⟩ := Option.map_eq_some_iff.mp h
  obtain ⟨hgo, b, hb, hns, -⟩ := advances_parseValue strtod content _ _ _ _ hval
  have hlead := lead_of_startOf hb hns
  have htake : ∀ {s}, content.drop (startOf content) = s ++ content.drop e' →
      e' = startOf content + s.length → content.take e' = content.take (startOf content) ++ s :=
    fun hdrop he => by rw [he, List.take_add, hdrop, List.take_left]
  have hstart : content.take (startOf content) ++ content.drop (startOf content) = content :=
    List.take_append_drop _ _
  rcases parseValue_cases hval with ⟨-, k, t, hk, hdrop, he⟩ | ⟨last, size, -, -, hc, -⟩
  · exact .inl ⟨_, k, t, hlead, htake hdrop he, hk.mono (Nat.zero_le _)⟩
  by_cases hend : e' < content.length
  · -- an array or an object that ends before the text does
    left
    obtain ⟨k, t, hk, -, hdrop⟩ := isValue_of_container (n := 999) hval hc hend
    have hlen := congrArg List.length hdrop
    rw [List.length_append, List.length_drop, List.length_drop] at hlen
    exact ⟨_, k, t, hlead, htake hdrop (by omega), shape_of_isValue hk⟩
  · obtain rfl : e' = content.length := by
      have hle := end_le_length hval
      omega
    obtain ⟨k, rfl, hparsed⟩ := parsed_of_end hval hc
    obtain ⟨k', m, b', hbracket, hlast, hk'⟩ := completes strtod _ _ _ hparsed hc
    cases m with
    | zero =>
      rw [List.replicate_zero, List.append_nil] at hk'
      exact .inl ⟨_, k', _, hlead, by rw [List.take_length]; exact hstart.symm,
        shape_of_isValue hk'⟩
    | succ m => exact .inr ⟨_, k', _, b', m, hlead, hstart.symm, hbracket, hlast, hk'⟩

theorem consumed_of_lacks (h : LacksBrackets strtod content) :
    consumed strtod content = some content.length := by
  obtain ⟨lead, k, t, b, m, hlead, rfl, hbracket, hlast, hk⟩ := h
  obtain ⟨k', hparsed, -⟩ := truncates strtod _ _ _ _ _ hk hbracket hlast
  have hne : t ≠ [] := by
    rintro rfl
    cases hlast
  obtain ⟨c, s, rfl⟩ := List.exists_cons_of_ne_nil hne
  obtain ⟨c', s', hcons, hc, hbom⟩ := head_of_value hk
  obtain ⟨rfl, -⟩ := List.cons.inj hcons
  have hmoved := parseValue_behind strtod lead hne liteCjsonNestingLimit 0
  rw [hparsed, Nat.add_zero] at hmoved
  rw [consumed_eq (by simp), startOf_of_lead hlead hc hbom, hmoved, Option.map_some,
    Option.map_some, moved, List.length_append]

end Consumed

theorem acceptsWellFormed_iff (strtod : Strtod) (content : List UInt8) :
    AcceptsWellFormed strtod content ↔ ¬ LacksBrackets strtod content := by
  constructor
  · rintro ⟨hwell, -⟩ hlacks
    obtain ⟨lead', k', t', hlead', htake, hk'⟩ := hwell _ (consumed_of_lacks hlacks)
    obtain ⟨lead, k, t, b, m, hlead, hcontent, hbracket, hlast, hk⟩ := hlacks
    rw [List.take_length] at htake
    obtain ⟨c, s, hs, hc, hbom⟩ := head_of_value hk
    obtain ⟨c', s', rfl, hc', hbom'⟩ := head_of_value hk'
    have hne : t ≠ [] := by
      rintro rfl
      cases hlast
    obtain ⟨d, r, rfl⟩ := List.exists_cons_of_ne_nil hne
    obtain ⟨rfl, -⟩ := List.cons.inj hs
    -- the text in front of the value is the same, and so is what was consumed
    have hstart := startOf_of_lead (hcontent ▸ hlead) hc hbom
    have hstart' := startOf_of_lead (htake ▸ hlead') hc' hbom'
    rw [← hcontent] at hstart
    rw [← htake, hstart] at hstart'
    obtain ⟨-, heq⟩ := List.append_inj (hcontent.symm.trans htake) hstart'
    cases heq
    obtain ⟨size, hkind⟩ := kind_of_bracket hk' hbracket hlast
    have hnil := prefix_free hk' (shape_of_isValue hk) (isContainer_of_kind ⟨size, hkind⟩)
    cases hnil
  · intro hlacks
    have hwell : ∀ e, consumed strtod content = some e → WellFormed content e := fun e he =>
      (wellFormed_or_lacks he).resolve_right hlacks
    refine ⟨hwell, ?_⟩
    intro lead k t b hlead hcontent hbracket hk
    rw [liteCjsonParse_eq_none]
    by_contra hsome
    obtain ⟨e, he⟩ := Option.ne_none_iff_exists'.mp hsome
    obtain ⟨lead', k', t', hlead', htake, hk'⟩ := hwell e he
    obtain ⟨size, hkind⟩ := kind_of_bracket hk hbracket List.getLast?_concat
    obtain ⟨c, s, rfl, hopen⟩ : ∃ c s, t = c :: s ∧ (c = 91 ∨ c = 123) := by
      obtain ⟨c, s, hs, hopen⟩ := head_of_kind hk hkind
      cases t with
      | nil =>
        obtain ⟨d, hd, hne⟩ := exists_ne_bracket hbracket hk
        exact absurd (List.mem_singleton.mp hd) hne
      | cons d s' => exact ⟨d, s', rfl, (List.cons.inj hs).1 ▸ hopen⟩
    have hc : isSpace c = false ∧ c ≠ 0xEF := by rcases hopen with rfl | rfl <;> decide
    obtain ⟨c', s', rfl, hc', hbom'⟩ := head_of_value hk'
    have hfull : content = lead' ++ c' :: (s' ++ content.drop e) := by
      have htaken := List.take_append_drop e content
      rw [htake, List.append_assoc, List.cons_append] at htaken
      exact htaken.symm
    have hstart := startOf_of_lead (hcontent ▸ hlead) hc.1 hc.2
    have hstart' := startOf_of_lead (hfull ▸ hlead') hc' hbom'
    rw [← hcontent] at hstart
    rw [← hfull, hstart] at hstart'
    obtain ⟨-, heq⟩ := List.append_inj (hcontent.symm.trans hfull) hstart'
    obtain ⟨rfl, rfl⟩ := List.cons.inj heq
    rw [← List.cons_append, List.append_assoc] at hk
    have hnil := prefix_free hk' hk (isContainer_of_kind (kind_of_head hk' hopen))
    cases List.append_eq_nil_iff.mp hnil |>.2

/-- `[[1]`: the bracket closes both arrays. -/
theorem cut_array_accepted : ¬ AcceptsWellFormed integerStrtod [91, 91, 49, 93] := by
  rintro ⟨-, hrejected⟩
  have hlead : IsLead 4 [] := ⟨[], spaces_nil, .inl rfl⟩
  have hone : IsValue (lexis anyNumber) 998 .number [49] := by
    rw [IsValue]
    exact ⟨⟨49, [], rfl, rfl⟩, List.forall_mem_singleton.mpr (by decide), by decide, rfl⟩
  have hinner : IsValue (lexis anyNumber) 999 (.array 1) [91, 49, 93] :=
    ⟨[49], rfl, .inr ⟨[⟨[], .number, [49], []⟩], by simp, rfl,
      List.forall_mem_singleton.mpr ⟨spaces_nil, hone, spaces_nil⟩, rfl⟩⟩
  have houter : IsValue (lexis anyNumber) 1000 (.array 1) [91, 91, 49, 93, 93] :=
    ⟨[91, 49, 93], rfl, .inr ⟨[⟨[], .array 1, [91, 49, 93], []⟩], by simp, rfl,
      List.forall_mem_singleton.mpr ⟨spaces_nil, hinner, spaces_nil⟩, rfl⟩⟩
  have hnone := hrejected [] (.array 1) [91, 91, 49, 93] 93 hlead rfl (.inl rfl) houter
  have hsome : (liteCjsonParse integerStrtod [91, 91, 49, 93]).isSome = true := by
    decide
  rw [hnone] at hsome
  cases hsome

end AliyunIot.Cjson
