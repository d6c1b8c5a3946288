import Mathlib.Data.List.TakeWhile
import AliyunIot.Infra.CjsonText

/-!
# What the parser parses

Before the end of the text the parser takes values of the grammar only
(`isValue_of_parseValue`). At the end it steps back to the last byte, and may take one bracket
for the end of several values.
-/

namespace AliyunIot.Cjson

open Lib Lib.Json

variable {strtod : Strtod} {content : List UInt8} {o n : Nat}

/-- What `value` parses before the end of the text is a value of the grammar. -/
def Sound (strtod : Strtod) (content : List UInt8) (n : Nat)
    (value : Nat → Option (LiteCjson × Nat)) : Prop :=
  ∀ o lite e b, value o = some (lite, e) → content[e]? = some b → isNumberByte b = false →
    ∃ k t, IsValue (lexis strtod) n k t ∧ lite = item strtod k t ∧
      content.drop o = t ++ content.drop e

variable {value : Nat → Option (LiteCjson × Nat)}

theorem bufferSkipWhitespace_cases (content : List UInt8) (o : Nat) :
    (∃ ws b rest, content.drop o = ws ++ b :: rest ∧ (∀ c ∈ ws, isSpace c = true) ∧
      isSpace b = false ∧ bufferSkipWhitespace content o = o + ws.length) ∨
    content.length ≤ bufferSkipWhitespace content o + 1 := by
  have hsplit := List.takeWhile_append_dropWhile (p := isSpace) (l := content.drop o)
  cases hrest : (content.drop o).dropWhile isSpace with
  | nil =>
    right
    rw [hrest, List.append_nil] at hsplit
    have hlen := congrArg List.length hsplit
    rw [List.length_drop] at hlen
    simp only [bufferSkipWhitespace]
    split <;> omega
  | cons b rest =>
    left
    rw [hrest] at hsplit
    have hws : ∀ c ∈ (content.drop o).takeWhile isSpace, isSpace c = true :=
      fun c hc => List.mem_takeWhile_imp hc
    have hb : isSpace b = false := by
      have hhead := List.head_dropWhile_not isSpace (l := content.drop o) (by rw [hrest]; simp)
      simpa [hrest] using hhead
    exact ⟨_, b, rest, hsplit.symm, hws, hb, bufferSkipWhitespace_eq hsplit.symm hws hb⟩

theorem bufferSkipWhitespace_away (content : List UInt8) (o : Nat)
    (h : bufferSkipWhitespace content o + 1 < content.length) :
    ∃ ws, (∀ c ∈ ws, isSpace c = true) ∧
      content.drop o = ws ++ content.drop (bufferSkipWhitespace content o) ∧
      bufferSkipWhitespace content (bufferSkipWhitespace content o) =
        bufferSkipWhitespace content o := by
  rcases bufferSkipWhitespace_cases content o with ⟨ws, b, rest, hdrop, hws, hb, hskip⟩ | hend
  · refine ⟨ws, hws, ?_, bufferSkipWhitespace_idem hdrop hws hb⟩
    rw [hskip, drop_add_of_drop hdrop, hdrop]
  · omega

theorem lt_length_of_drop_append {s : List UInt8} {m : Nat}
    (h : content.drop o = s ++ content.drop m)
    (hm : m < content.length) : o + s.length < content.length := by
  have hlen := congrArg List.length h
  simp only [List.length_drop, List.length_append] at hlen
  omega

theorem length_pos_of_isValue {k : Kind} {t : List UInt8} (h : IsValue (lexis strtod) n k t) :
    0 < t.length := by
  obtain ⟨b, s, rfl, -⟩ := head_of_isValue h
  exact Nat.succ_pos _

variable {b : UInt8}

theorem isNumberByte_behind {ws s : List UInt8} {c : UInt8} (hws : ∀ c ∈ ws, isSpace c = true)
    (hb : Ends b) (h : content.drop o = ws ++ b :: s) (hc : content[o]? = some c) :
    isNumberByte c = false := by
  cases ws with
  | nil =>
    rw [getElem?_of_drop h] at hc
    cases hc
    exact hb.2
  | cons d ws =>
    rw [getElem?_of_drop h] at hc
    cases hc
    exact isNumberByte_of_isSpace (hws _ List.mem_cons_self)

variable {lite : LiteCjson} {e : Nat}

theorem element_of_value (hv : Sound strtod content n value)
    (hval : value (bufferSkipWhitespace content o) = some (lite, e))
    (hend : content[bufferSkipWhitespace content e]? = some b) (hb : Ends b)
    (hlt : bufferSkipWhitespace content e + 1 < content.length) :
    ∃ el : Element, el.Ok (lexis strtod) (IsValue (lexis strtod) n) ∧
      lite = item strtod el.kind el.text ∧
      content.drop o = el.bytes ++ content.drop (bufferSkipWhitespace content e) := by
  obtain ⟨after, hafter, hdropEnd, -⟩ := bufferSkipWhitespace_away content e hlt
  have hat : content.drop (bufferSkipWhitespace content e) =
      b :: content.drop (bufferSkipWhitespace content e + 1) := by
    obtain ⟨h, hget⟩ := List.getElem?_eq_some_iff.mp hend
    rw [List.drop_eq_getElem_cons h, hget]
  have hlte : e < content.length := by
    have := lt_length_of_drop_append hdropEnd (by omega)
    omega
  have hc : content[e]? = some content[e] := List.getElem?_eq_getElem hlte
  obtain ⟨k, t, hk, rfl, hdrop⟩ := hv _ _ _ _ hval hc
    (isNumberByte_behind hafter hb (by rw [hdropEnd, hat]) hc)
  have hpos := length_pos_of_isValue hk
  have hstart := lt_length_of_drop_append hdrop hlte
  obtain ⟨before, hbefore, hdropStart, -⟩ := bufferSkipWhitespace_away content o (by omega)
  refine ⟨⟨before, k, t, after⟩, ⟨hbefore, hk, hafter⟩, rfl, ?_⟩
  rw [hdropStart, hdrop, hdropEnd, Element.bytes]
  simp only [List.append_assoc]

theorem elements_of_parseElements (hv : Sound strtod content n value) {rounds size size' last : Nat}
    (h : parseElements content value rounds o size = some (size', last))
    (hb : content[last]? = some b) (hends : Ends b) (hlt : last + 1 < content.length) :
    ∃ es : List Element, es ≠ [] ∧ size + es.length = size' ∧
      (∀ e ∈ es, e.Ok (lexis strtod) (IsValue (lexis strtod) n)) ∧
      content.drop o = joined (es.map Element.bytes) ++ content.drop last := by
  induction rounds generalizing o size with
  | zero => cases h
  | succ rounds ih =>
    simp only [parseElements] at h
    obtain ⟨⟨lite, e⟩, hval, h⟩ := Option.bind_eq_some_iff.mp h
    simp only at h
    split at h
    next hcomma =>
      obtain ⟨es, hne, hsize, hes, hdrop⟩ := ih h
      have hmore := lt_length_of_drop_append hdrop (by omega)
      obtain ⟨el, hel, -, hdropEl⟩ := element_of_value hv hval hcomma ends_comma (by omega)
      refine ⟨el :: es, List.cons_ne_nil _ _, ?_, List.forall_mem_cons.mpr ⟨hel, hes⟩, ?_⟩
      · rw [List.length_cons, ← hsize]
        omega
      · obtain ⟨hcommaLt, hget⟩ := List.getElem?_eq_some_iff.mp hcomma
        rw [hdropEl, List.drop_eq_getElem_cons hcommaLt, hget, hdrop, List.map_cons,
          joined_cons (by simpa using hne)]
        simp only [List.append_assoc, List.cons_append]
    next =>
      cases h
      obtain ⟨el, hel, -, hdropEl⟩ := element_of_value hv hval hb hends hlt
      exact ⟨[el], List.cons_ne_nil _ _, rfl, List.forall_mem_singleton.mpr hel, hdropEl⟩

theorem member_of_parseMember (hv : Sound strtod content n value) {key : LiteCjson}
    (h : parseMember content value o = some (key, lite, e)) (hb : content[e]? = some b)
    (hends : Ends b) (hlt : e + 1 < content.length) :
    ∃ m : Member, m.Ok (lexis strtod) (IsValue (lexis strtod) n) ∧ key = keyItem m.key ∧
      lite = item strtod m.value.kind m.value.text ∧
      content.drop o = m.bytes ++ content.drop e := by
  simp only [parseMember] at h
  obtain ⟨⟨key', e₀⟩, hkey, h⟩ := Option.bind_eq_some_iff.mp h
  simp only at h
  split at h
  case isFalse => cases h
  case isTrue hcolon =>
    obtain ⟨⟨lite', e₁⟩, hval, heq⟩ := Option.map_eq_some_iff.mp h
    simp only [Prod.mk.injEq] at heq
    obtain ⟨rfl, rfl, rfl⟩ := heq
    obtain ⟨el, hel, hlite, hdropEl⟩ := element_of_value hv hval hb hends hlt
    have hcolonEnd := lt_length_of_drop_append hdropEl (by omega)
    obtain ⟨after, hafter, hdropColon, -⟩ := bufferSkipWhitespace_away content e₀ (by omega)
    obtain ⟨body, hbody, rfl, hdropKey, -⟩ := isBody_of_parseString hkey
    obtain ⟨hcolonLt, hget⟩ := List.getElem?_eq_some_iff.mp hcolon
    have he₀ := lt_length_of_drop_append hdropColon hcolonLt
    have hkeyEnd := lt_length_of_drop_append hdropKey (by omega)
    have hquote := length_quote body
    obtain ⟨before, hbefore, hdropStart, -⟩ := bufferSkipWhitespace_away content o (by omega)
    refine ⟨⟨before, body, after, el⟩, ⟨hbefore, hbody, hafter, hel⟩, rfl, hlite, ?_⟩
    rw [hdropStart, hdropKey, hdropColon, List.drop_eq_getElem_cons hcolonLt, hget, hdropEl,
      Member.bytes]
    simp only [List.append_assoc, List.cons_append]

theorem members_of_walkMembers (hv : Sound strtod content n value) {rounds index size last : Nat}
    (h : walkMembers content value (fun _ _ => false) rounds o index = some (.ended size last))
    (hb : content[last]? = some b) (hends : Ends b) (hlt : last + 1 < content.length) :
    ∃ ms : List Member, ms ≠ [] ∧ index + ms.length = size ∧
      (∀ m ∈ ms, m.Ok (lexis strtod) (IsValue (lexis strtod) n)) ∧
      content.drop o = joined (ms.map Member.bytes) ++ content.drop last := by
  induction rounds generalizing o index with
  | zero => cases h
  | succ rounds ih =>
    simp only [walkMembers] at h
    obtain ⟨⟨key, lite, e⟩, hmember, h⟩ := Option.bind_eq_some_iff.mp h
    simp only [Bool.false_eq_true, if_false] at h
    split at h
    next hcomma =>
      obtain ⟨ms, hne, hsize, hms, hdrop⟩ := ih h
      have hmore := lt_length_of_drop_append hdrop (by omega)
      obtain ⟨m, hm, -, -, hdropM⟩ := member_of_parseMember hv hmember hcomma ends_comma (by omega)
      refine ⟨m :: ms, List.cons_ne_nil _ _, ?_, List.forall_mem_cons.mpr ⟨hm, hms⟩, ?_⟩
      · rw [List.length_cons, ← hsize]
        omega
      · obtain ⟨hcommaLt, hget⟩ := List.getElem?_eq_some_iff.mp hcomma
        rw [hdropM, List.drop_eq_getElem_cons hcommaLt, hget, hdrop, List.map_cons,
          joined_cons (by simpa using hne)]
        simp only [List.append_assoc, List.cons_append]
    next =>
      cases h
      obtain ⟨m, hm, -, -, hdropM⟩ := member_of_parseMember hv hmember hb hends hlt
      exact ⟨[m], List.cons_ne_nil _ _, rfl, List.forall_mem_singleton.mpr hm, hdropM⟩

theorem container_of_drop (type : CjsonType) (size : Nat) {last : Nat} {c : UInt8}
    {inner : List UInt8} (hb : content[o]? = some b) (hc : content[last]? = some c)
    (hdrop : content.drop (o + 1) = inner ++ content.drop last) (hlt : last + 1 < content.length) :
    container content type o size last = (⟨type, b :: (inner ++ [c]), size, 0⟩, last + 1) ∧
      content.drop o = (b :: (inner ++ [c])) ++ content.drop (last + 1) := by
  obtain ⟨holt, hgetB⟩ := List.getElem?_eq_some_iff.mp hb
  obtain ⟨hllt, hgetC⟩ := List.getElem?_eq_some_iff.mp hc
  have hfull : content.drop o = b :: (inner ++ c :: content.drop (last + 1)) := by
    rw [List.drop_eq_getElem_cons holt, hgetB, hdrop, List.drop_eq_getElem_cons hllt, hgetC]
  have hlast : last = o + 1 + inner.length := by
    have hlen := congrArg List.length hdrop
    simp only [List.length_drop, List.length_append] at hlen
    omega
  constructor
  · have heq := container_eq type size hfull
    rw [← hlast] at heq
    rw [heq]
    simp only [List.length_cons, List.length_append, List.length_nil]
    congr 1
    omega
  · rw [hfull]
    simp only [List.cons_append, List.append_assoc, List.nil_append]

theorem isValue_of_parseArray (hv : Sound strtod content n value)
    (h : parseArray content value o = some (lite, e)) (hstart : content[o]? = some 91)
    (hlt : e < content.length) :
    ∃ k t, IsValue (lexis strtod) (n + 1) k t ∧ lite = item strtod k t ∧
      content.drop o = t ++ content.drop e := by
  simp only [parseArray] at h
  split at h
  next hempty =>
    have hpair := Option.some.inj h
    have he : bufferSkipWhitespace content (o + 1) + 1 = e := congrArg Prod.snd hpair
    obtain ⟨ws, hws, hdrop, -⟩ := bufferSkipWhitespace_away content (o + 1) (by omega)
    obtain ⟨hcont, hfull⟩ := container_of_drop .array 0 hstart hempty hdrop
      (by omega)
    rw [hcont] at hpair
    cases hpair
    exact ⟨.array 0, _, ⟨ws, rfl, .inl ⟨rfl, hws⟩⟩, rfl, hfull⟩
  next =>
    obtain ⟨⟨size, last⟩, hloop, h⟩ := Option.bind_eq_some_iff.mp h
    split at h
    case isFalse => cases h
    case isTrue hlast =>
      have hpair := Option.some.inj h
      have he : last + 1 = e := congrArg Prod.snd hpair
      have hfirst : bufferSkipWhitespace content (o + 1) + 1 < content.length := by
        obtain ⟨es, hne, -, hes, hdrop⟩ :=
          elements_of_parseElements hv hloop hlast ⟨rfl, rfl⟩ (by omega)
        have hmore := lt_length_of_drop_append hdrop (by omega)
        have hpos := List.length_pos_iff.mpr hne
        have hle := length_le_joined Element.bytes fun e he => element_bytes_ne_nil (hes e he)
        omega
      obtain ⟨ws, hws, hdropStart, hidem⟩ := bufferSkipWhitespace_away content (o + 1) hfirst
      rw [parseElements_skip hidem] at hloop
      obtain ⟨es, hne, hsize, hes, hdrop⟩ :=
        elements_of_parseElements hv hloop hlast ⟨rfl, rfl⟩ (by omega)
      obtain ⟨hcont, hfull⟩ := container_of_drop .array size hstart hlast hdrop
        (by omega)
      rw [hcont] at hpair
      cases hpair
      exact ⟨.array size, _, ⟨_, rfl, .inr ⟨es, hne, by omega, hes, rfl⟩⟩, rfl, hfull⟩

theorem isValue_of_parseObject (hv : Sound strtod content n value)
    (h : parseObject content value o = some (lite, e)) (hstart : content[o]? = some 123)
    (hlt : e < content.length) :
    ∃ k t, IsValue (lexis strtod) (n + 1) k t ∧ lite = item strtod k t ∧
      content.drop o = t ++ content.drop e := by
  simp only [parseObject] at h
  split at h
  next hempty =>
    have hpair := Option.some.inj h
    have he : bufferSkipWhitespace content (o + 1) + 1 = e := congrArg Prod.snd hpair
    obtain ⟨ws, hws, hdrop, -⟩ := bufferSkipWhitespace_away content (o + 1) (by omega)
    obtain ⟨hcont, hfull⟩ := container_of_drop .object 0 hstart hempty hdrop
      (by omega)
    rw [hcont] at hpair
    cases hpair
    exact ⟨.object 0, _, ⟨ws, rfl, .inl ⟨rfl, hws⟩⟩, rfl, hfull⟩
  next =>
    split at h
    case h_2 => cases h
    case h_1 size last hloop =>
      split at h
      case isFalse => cases h
      case isTrue hlast =>
        have hpair := Option.some.inj h
        have he : last + 1 = e := congrArg Prod.snd hpair
        have hfirst : bufferSkipWhitespace content (o + 1) + 1 < content.length := by
          obtain ⟨ms, hne, -, -, hdrop⟩ :=
            members_of_walkMembers hv hloop hlast ⟨rfl, rfl⟩ (by omega)
          have hmore := lt_length_of_drop_append hdrop (by omega)
          have hpos := List.length_pos_iff.mpr hne
          have hle := length_le_joined Member.bytes fun m (_ : m ∈ ms) => member_bytes_ne_nil m
          omega
        obtain ⟨ws, hws, hdropStart, hidem⟩ := bufferSkipWhitespace_away content (o + 1) hfirst
        rw [walkMembers_skip hidem] at hloop
        obtain ⟨ms, hne, hsize, hms, hdrop⟩ :=
          members_of_walkMembers hv hloop hlast ⟨rfl, rfl⟩ (by omega)
        obtain ⟨hcont, hfull⟩ := container_of_drop .object size hstart hlast
          hdrop (by omega)
        rw [hcont] at hpair
        cases hpair
        exact ⟨.object size, _, ⟨_, rfl, .inr ⟨ms, hne, by omega, hms, rfl⟩⟩, rfl, hfull⟩

theorem isNumber_of_parseNumber {c : UInt8}
    (h : parseNumber strtod content o = some (lite, e)) (hb : content[o]? = some b)
    (hstarts : startsNumber b = true) (hc : content[e]? = some c) (hstop : isNumberByte c = false) :
    ∃ t, IsNumber strtod t ∧ lite = item strtod .number t ∧
      content.drop o = t ++ content.drop e := by
  simp only [parseNumber] at h
  split at h
  case isTrue => cases h
  case isFalse hlen =>
    cases h
    obtain ⟨holt, hget⟩ := List.getElem?_eq_some_iff.mp hb
    generalize hrun : (content.drop o).takeWhile isNumberByte = run at hlen hc ⊢
    have hsplit := List.takeWhile_append_dropWhile (p := isNumberByte) (l := content.drop o)
    rw [hrun] at hsplit
    have hbytes : ∀ c ∈ run, isNumberByte c = true := fun c hc => by
      rw [← hrun] at hc
      exact List.mem_takeWhile_imp hc
    have hle := strtod.converted_le (run.take numberLen)
    have htake := List.length_take_le' numberLen run
    -- a conversion that ends inside the run is followed by a byte of a number
    have hall : (strtod.convert (run.take numberLen)).1 = run.length := by
      by_contra hne
      have hin : (strtod.convert (run.take numberLen)).1 < run.length := by omega
      rw [← List.getElem?_drop, ← hsplit, List.getElem?_append_left hin,
        List.getElem?_eq_getElem hin] at hc
      cases hc
      rw [hbytes _ (List.getElem_mem hin)] at hstop
      cases hstop
    have hshort : run.length ≤ numberLen := by
      rw [List.length_take] at hle
      omega
    have hfull : run.take numberLen = run := List.take_of_length_le hshort
    rw [hfull] at hall ⊢
    rw [hall]
    have hdrop : content.drop o = run ++ content.drop (o + run.length) := by
      rw [← List.drop_drop, ← hsplit, List.drop_left]
    obtain ⟨s, hs⟩ : ∃ s, run = b :: s := by
      rw [← hrun, List.drop_eq_getElem_cons holt, hget, List.takeWhile_cons_of_pos]
      · exact ⟨_, rfl⟩
      · exact isNumberByte_of_startsNumber hstarts
    refine ⟨run, ⟨⟨b, s, hs, hstarts⟩, hbytes, hshort, hall⟩, ?_, hdrop⟩
    rw [item, hdrop, List.take_left]

theorem drop_of_readsWord {word : List UInt8} (h : readsWord content word o = true) :
    content.drop o = word ++ content.drop (o + word.length) := by
  have htake : (content.drop o).take word.length = word := by simpa [readsWord] using h
  rw [← List.drop_drop, ← congrArg (· ++ _) htake, List.take_append_drop]

theorem isValue_of_dispatch {array object : Nat → Option (LiteCjson × Nat)}
    {c : UInt8} (h : dispatch strtod content array object o = some (lite, e))
    (hc : content[e]? = some c) (hstop : isNumberByte c = false)
    (harray : array o = some (lite, e) → content[o]? = some 91 →
      ∃ k t, IsValue (lexis strtod) n k t ∧ lite = item strtod k t ∧
        content.drop o = t ++ content.drop e)
    (hobject : object o = some (lite, e) → content[o]? = some 123 →
      ∃ k t, IsValue (lexis strtod) n k t ∧ lite = item strtod k t ∧
        content.drop o = t ++ content.drop e) :
    ∃ k t, IsValue (lexis strtod) n k t ∧ lite = item strtod k t ∧
      content.drop o = t ++ content.drop e := by
  unfold dispatch at h
  split at h
  case isTrue hword =>
    cases h
    exact ⟨.null, _, by rw [IsValue], rfl, drop_of_readsWord hword⟩
  split at h
  case isTrue hword =>
    cases h
    exact ⟨.false, _, by rw [IsValue], rfl, drop_of_readsWord hword⟩
  split at h
  case isTrue hword =>
    cases h
    exact ⟨.true, _, by rw [IsValue], rfl, drop_of_readsWord hword⟩
  split at h
  case h_1 => cases h
  case h_2 b hb =>
    split at h
    case isTrue =>
      obtain ⟨body, hbody, rfl, hdrop, -⟩ := isBody_of_parseString h
      refine ⟨.string, quote body, ?_, ?_, hdrop⟩
      · rw [IsValue]
        exact ⟨body, hbody, rfl⟩
      · rw [item, quote, List.tail_cons, List.dropLast_concat, keyItem]
    split at h
    case isTrue hstarts =>
      obtain ⟨t, ht, rfl, hdrop⟩ := isNumber_of_parseNumber h hb hstarts hc hstop
      exact ⟨.number, t, by rw [IsValue]; exact ht, rfl, hdrop⟩
    split at h
    case isTrue hbracket => exact harray h (by rw [hb, hbracket])
    split at h
    case isTrue hbrace => exact hobject h (by rw [hb, hbrace])
    cases h

theorem isValue_of_parseValue (strtod : Strtod) (content : List UInt8) (n : Nat) :
    Sound strtod content n (parseValue strtod content n) := by
  induction n with
  | zero =>
    intro o lite e c h hc hstop
    exact isValue_of_dispatch h hc hstop (fun h _ => nomatch h) (fun h _ => nomatch h)
  | succ n ih =>
    intro o lite e c h hc hstop
    have hlt := (List.getElem?_eq_some_iff.mp hc).1
    exact isValue_of_dispatch h hc hstop (fun h hb => isValue_of_parseArray ih h hb hlt)
      (fun h hb => isValue_of_parseObject ih h hb hlt)

end AliyunIot.Cjson
