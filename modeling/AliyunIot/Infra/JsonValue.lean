import Mathlib.Data.List.GetD
import AliyunIot.Infra.JsonLookup
import AliyunIot.Lib.Search

/-!
# Values by the text of a key

`infra_json_value` does not parse: it takes the first place where the text of the key stands, and
what lies between a colon close behind it and the next delimiter (`infraJsonValue_iff`). In an
object of strings that is the value of a member where the object is written without spaces there
and the text of the key stands nowhere in front of it (`infraJsonValue_member`).
-/

namespace AliyunIot.JsonValue

open Lib Lib.Json

/-- `value` and `value_len`: where a value begins in the input, and how long it is. -/
structure Slice where
  value : Nat
  valueLen : Nat
  deriving DecidableEq

def isDelimiter (b : UInt8) : Bool := b = 44 || b = 125 || b = 93

/-- What `infra_json_value` does with a key that ends at `idx`. -/
def valueAt (input : List UInt8) (idx : Nat) : Option Slice :=
  if input.length ≤ idx + 4 ∨ input.getD (idx + 1) 0 ≠ 58 then none
  else ((input.drop (idx + 2)).findIdx? isDelimiter).map fun n => ⟨idx + 2, n⟩

/-- The loop of `infra_json_value` from `idx` on, with what the input goes on with there. -/
def infraJsonValueLoop (input key : List UInt8) : Nat → List UInt8 → Option Slice
  | _, [] => none
  | idx, b :: s =>
    if (b :: s).length ≤ key.length then none
    else if key <+: b :: s then valueAt input (idx + key.length)
    else infraJsonValueLoop input key (idx + 1) s

/-- `infra_json_value`, none where it returns -1. -/
def infraJsonValue (input key : List UInt8) : Option Slice := infraJsonValueLoop input key 0 input

/-- The key stands in the input behind `front` for the first time; one byte and a colon follow it,
and the value up to the first delimiter. -/
structure Found (input key front : List UInt8) (q : UInt8) (value : List UInt8)
    (delimiter : UInt8) (rest : List UInt8) : Prop where
  input_eq : input = front ++ (key ++ q :: 58 :: (value ++ delimiter :: rest))
  first : search key input = some front.length
  plain : ∀ b ∈ value, isDelimiter b = false
  ended : isDelimiter delimiter = true
  room : 2 ≤ value.length + rest.length

section Search

variable {input key front s : List UInt8} {idx n : Nat} {slice : Slice}

theorem findIdx_eq_some_iff : s.findIdx? isDelimiter = some n ↔
    ∃ value d rest, s = value ++ d :: rest ∧ value.length = n ∧
      (∀ b ∈ value, isDelimiter b = false) ∧ isDelimiter d = true := by
  induction s generalizing n with
  | nil => simp
  | cons b s ih =>
    rw [List.findIdx?_cons]
    by_cases hb : isDelimiter b = true
    · rw [if_pos hb, Option.some.injEq]
      constructor
      · rintro rfl
        exact ⟨[], b, s, rfl, rfl, fun b hb => absurd hb List.not_mem_nil, hb⟩
      · rintro ⟨value, d, rest, heq, rfl, hplain, -⟩
        cases value with
        | nil => rfl
        | cons c value =>
          obtain ⟨rfl, -⟩ := List.cons.inj heq
          exact absurd (hplain b List.mem_cons_self) (by rw [hb]; decide)
    · rw [if_neg hb, Option.map_eq_some_iff]
      constructor
      · rintro ⟨m, hm, rfl⟩
        obtain ⟨value, d, rest, rfl, rfl, hplain, hd⟩ := ih.mp hm
        refine ⟨b :: value, d, rest, rfl, rfl, ?_, hd⟩
        exact List.forall_mem_cons.mpr ⟨Bool.eq_false_iff.mpr hb, hplain⟩
      · rintro ⟨value, d, rest, heq, rfl, hplain, hd⟩
        cases value with
        | nil =>
          obtain ⟨rfl, -⟩ := List.cons.inj heq
          exact absurd hd hb
        | cons c value =>
          obtain ⟨rfl, rfl⟩ := List.cons.inj heq
          exact ⟨value.length, ih.mpr ⟨value, d, rest, rfl, rfl,
            (List.forall_mem_cons.mp hplain).2, hd⟩, rfl⟩

theorem valueAt_iff : valueAt input idx = some slice ↔
    ∃ front q value d rest, input = front ++ q :: 58 :: (value ++ d :: rest) ∧
      front.length = idx ∧ (∀ b ∈ value, isDelimiter b = false) ∧ isDelimiter d = true ∧
      2 ≤ value.length + rest.length ∧ slice = ⟨idx + 2, value.length⟩ := by
  unfold valueAt
  constructor
  · intro h
    split at h
    · cases h
    next hguard =>
      obtain ⟨hlen, hcolon⟩ := not_or.mp hguard
      obtain ⟨n, hn, rfl⟩ := Option.map_eq_some_iff.mp h
      obtain ⟨value, d, rest, hdrop, rfl, hplain, hd⟩ := findIdx_eq_some_iff.mp hn
      have hlt : idx + 1 < input.length := by omega
      have hbyte : input[idx + 1] = 58 := by
        rw [← List.getD_eq_getElem _ 0 hlt]
        exact not_not.mp hcolon
      have hinput : input = input.take idx ++ input[idx] :: 58 :: (value ++ d :: rest) := by
        have hcons : input.drop idx = input[idx] :: input[idx + 1] :: input.drop (idx + 2) := by
          rw [List.drop_eq_getElem_cons (Nat.lt_of_succ_lt hlt), List.drop_eq_getElem_cons hlt]
        rw [← hdrop, ← hbyte, ← hcons, List.take_append_drop]
      have hfront : (input.take idx).length = idx := by
        rw [List.length_take]
        omega
      refine ⟨_, _, value, d, rest, hinput, hfront, hplain, hd, ?_, rfl⟩
      have hsum := congrArg List.length hinput
      simp only [List.length_append, List.length_cons, hfront] at hsum
      omega
  · rintro ⟨front, q, value, d, rest, rfl, rfl, hplain, hd, hroom, rfl⟩
    have hcolon : (front ++ q :: 58 :: (value ++ d :: rest)).getD (front.length + 1) 0 = 58 := by
      rw [List.getD_append_right _ _ _ _ (Nat.le_add_right _ _), Nat.add_sub_cancel_left]
      rfl
    have hdrop : (front ++ q :: 58 :: (value ++ d :: rest)).drop (front.length + 2) =
        value ++ d :: rest := by
      rw [← List.drop_drop, List.drop_left]
      rfl
    rw [if_neg, hdrop, findIdx_eq_some_iff.mpr ⟨value, d, rest, rfl, rfl, hplain, hd⟩]
    · rfl
    · rw [hcolon, not_or]
      refine ⟨?_, fun h => h rfl⟩
      simp only [List.length_append, List.length_cons]
      omega

theorem infraJsonValueLoop_eq (input key s : List UInt8) (idx : Nat) :
    infraJsonValueLoop input key idx s = (search key s).bind fun i =>
      if s.length ≤ i + key.length then none else valueAt input (idx + i + key.length) := by
  induction s generalizing idx with
  | nil =>
    rw [infraJsonValueLoop, search]
    split
    · rfl
    · rfl
  | cons b s ih =>
    rw [infraJsonValueLoop]
    by_cases hprefix : key <+: b :: s
    · rw [search_cons_match hprefix, Option.bind_some, Nat.zero_add, if_pos hprefix]
      rfl
    · rw [search_cons_mismatch hprefix, if_neg hprefix, ih, Option.bind_map]
      split
      next hshort =>
        cases hs : search key s with
        | none => rfl
        | some i =>
          have hle : (b :: s).length ≤ i + 1 + key.length := by omega
          exact (if_pos hle).symm
      next =>
        congr 1
        funext i
        have hlen : s.length ≤ i + key.length ↔ (b :: s).length ≤ i + 1 + key.length := by
          rw [List.length_cons]
          omega
        have hplace : idx + 1 + i + key.length = idx + (i + 1) + key.length := by omega
        simp only [Function.comp_apply, hlen, hplace]

theorem infraJsonValue_iff : infraJsonValue input key = some slice ↔
    ∃ front q value d rest, Found input key front q value d rest ∧
      slice = ⟨front.length + key.length + 2, value.length⟩ := by
  rw [infraJsonValue, infraJsonValueLoop_eq, Option.bind_eq_some_iff]
  constructor
  · rintro ⟨i, hsearch, h⟩
    split at h
    · cases h
    next hlt =>
      rw [Nat.zero_add] at h
      obtain ⟨front, q, value, d, rest, hinput, hlen, hplain, hd, hroom, rfl⟩ := valueAt_iff.mp h
      -- the key ends where the byte in front of the colon stands
      have hfront : front = input.take i ++ key := by
        obtain ⟨behind, hbehind⟩ := prefix_of_search hsearch
        have hsplit : input = (input.take i ++ key) ++ behind := by
          rw [List.append_assoc, hbehind, List.take_append_drop]
        refine (List.append_inj (hinput.symm.trans hsplit) ?_).1
        rw [hlen, List.length_append, List.length_take]
        omega
      have hi : (input.take i).length = i := by
        rw [List.length_take]
        omega
      refine ⟨input.take i, q, value, d, rest, ⟨?_, by rw [hi]; exact hsearch, hplain, hd, hroom⟩,
        by rw [hi]⟩
      rw [hfront, List.append_assoc] at hinput
      exact hinput
  · rintro ⟨front, q, value, d, rest, h, rfl⟩
    refine ⟨front.length, h.first, ?_⟩
    rw [if_neg, Nat.zero_add]
    · refine valueAt_iff.mpr ⟨front ++ key, q, value, d, rest, ?_, List.length_append, h.plain,
        h.ended, h.room, rfl⟩
      rw [List.append_assoc]
      exact h.input_eq
    · rw [h.input_eq]
      simp only [List.length_append, List.length_cons]
      omega

end Search

/-! ## Objects of strings -/

/-- A JSON object whose members are strings, and the spaces around it. -/
structure StringObject where
  lead : List UInt8
  object : List UInt8
  tail : List UInt8
  members : List Member
  lead_spaces : Spaces rfc8259 lead
  tail_spaces : Spaces rfc8259 tail
  isObject : IsObject rfc8259 0 members object
  strings : ∀ m ∈ members, m.value.kind = .string

namespace StringObject

variable (d : StringObject)

def bytes : List UInt8 := d.lead ++ (d.object ++ d.tail)

/-- What stands in front of the quote that ends the key of `m`, behind the members `as`. -/
def keyFront (as : List Member) (m : Member) : List UInt8 :=
  d.lead ++ 123 :: (as.flatMap (fun a => a.bytes ++ [44]) ++ (m.before ++ 34 :: m.key))

def valueFront (as : List Member) (m : Member) : List UInt8 :=
  d.keyFront as m ++ 34 :: (m.after ++ 58 :: m.value.before)

def HasMember (key : List UInt8) : Prop := ∃ m ∈ d.members, unescape m.key = some key

/-- `m`, behind the members `as`, has the key, and the bytes between the quotes of its value stand
for themselves. -/
structure Holds (key : List UInt8) (as : List Member) (m : Member) : Prop where
  members_eq : ∃ bs, d.members = as ++ m :: bs
  key_eq : unescape m.key = some key
  value_eq : ∃ body, m.value.text = quote body ∧ unescape body = some body

def IsValueOf (key : List UInt8) (slice : Slice) : Prop :=
  ∃ as m, d.Holds key as m ∧ slice = ⟨(d.valueFront as m).length, m.value.text.length⟩

/-- The key of `m` ends where the text of the key ends at its first place. No space stands at the
value, and no delimiter in it. -/
structure Reaches (key : List UInt8) (as : List Member) (m : Member) : Prop where
  first : ∃ i, search key d.bytes = some i ∧ i + key.length = (d.keyFront as m).length
  after_key : m.after = []
  before_value : m.value.before = []
  behind_value : m.value.after = []
  plain : ∀ b ∈ m.value.text, isDelimiter b = false

def Reached (key : List UInt8) : Prop := ∃ as m, d.Holds key as m ∧ d.Reaches key as m

end StringObject

/-- A key that ends with a byte that is no quote and no space. -/
def IsWord (key : List UInt8) : Prop := ∃ init b, key = init ++ [b] ∧ b ≠ 34 ∧ ¬ rfc8259.space b

section Objects

variable {d : StringObject} {key : List UInt8} {as bs : List Member} {m : Member} {slice : Slice}

theorem StringObject.bytes_split (h : d.members = as ++ m :: bs) :
    ∃ c rest, isDelimiter c = true ∧
      d.bytes = d.valueFront as m ++ (m.value.text ++ (m.value.after ++ c :: rest)) := by
  obtain ⟨-, inner, hobject, ⟨hnil, -⟩ | ⟨-, rfl⟩⟩ := d.isObject
  · rw [h] at hnil
    simp at hnil
  · have hrest : ∃ c rest, isDelimiter c = true ∧
        joined ((m :: bs).map Member.bytes) ++ 125 :: d.tail = m.bytes ++ c :: rest := by
      cases bs with
      | nil => exact ⟨125, d.tail, by decide, rfl⟩
      | cons b bs =>
        refine ⟨44, joined ((b :: bs).map Member.bytes) ++ 125 :: d.tail, by decide, ?_⟩
        rw [List.map_cons, joined_cons (by simp), List.append_assoc]
        rfl
    obtain ⟨c, rest, hc, hrest⟩ := hrest
    refine ⟨c, rest, hc, ?_⟩
    have hinner : joined (d.members.map Member.bytes) ++ 125 :: d.tail =
        as.flatMap (fun a => a.bytes ++ [44]) ++ (m.bytes ++ c :: rest) := by
      rw [h, joined_flatMap as (List.cons_ne_nil m bs), List.append_assoc, hrest]
    rw [StringObject.bytes, hobject, StringObject.valueFront, StringObject.keyFront]
    simp only [List.cons_append, List.append_assoc, List.nil_append, hinner, Member.bytes,
      Element.bytes, quote]

theorem StringObject.Holds.two_le (h : d.Holds key as m) : 2 ≤ m.value.text.length := by
  obtain ⟨body, htext, -⟩ := h.value_eq
  rw [htext, quote, List.length_cons, List.length_append, List.length_singleton]
  omega

theorem StringObject.Holds.spaces (h : d.Holds key as m) :
    Spaces rfc8259 m.after ∧ Spaces rfc8259 m.value.before ∧ Spaces rfc8259 m.value.after := by
  obtain ⟨bs, hbs⟩ := h.members_eq
  have hm : m ∈ d.members := by rw [hbs]; exact List.mem_append_right _ List.mem_cons_self
  obtain ⟨-, -, hafter, hbefore, -, hbehind⟩ := d.isObject.1 m hm
  exact ⟨hafter, hbefore, hbehind⟩

theorem space_facts {b : UInt8} (h : rfc8259.space b) :
    isDelimiter b = false ∧ b ≠ 34 ∧ b ≠ 58 := by
  rcases h with rfl | rfl | rfl | rfl <;> decide

theorem eq_nil_of_append {front p s : List UInt8} {q : UInt8} (hs : Spaces rfc8259 s)
    (hq : ¬ rfc8259.space q) (h : front ++ [q] = p ++ s) : s = [] := by
  obtain rfl | ⟨init, b, rfl⟩ := s.eq_nil_or_concat
  · rfl
  · rw [List.concat_eq_append, ← List.append_assoc] at h
    obtain ⟨-, hb⟩ := List.append_inj' h rfl
    obtain rfl : q = b := List.singleton_inj.mp hb
    exact absurd (hs q (by simp)) hq

theorem front_eq {front p after before : List UInt8} {q : UInt8} (hkey : IsWord key)
    (hafter : Spaces rfc8259 after) (hbefore : Spaces rfc8259 before)
    (h : front ++ (key ++ [q, 58]) = p ++ 34 :: (after ++ 58 :: before)) :
    after = [] ∧ before = [] ∧ front ++ key = p := by
  have hcolon : (front ++ key ++ [q]) ++ [58] = (p ++ 34 :: (after ++ [58])) ++ before := by
    simpa using h
  obtain rfl := eq_nil_of_append hbefore (fun hs => (space_facts hs).2.2 rfl) hcolon
  rw [List.append_nil, ← List.cons_append, ← List.append_assoc] at hcolon
  obtain ⟨hquote, -⟩ := List.append_inj' hcolon rfl
  obtain ⟨init, b, rfl, hb34, hb⟩ := hkey
  obtain rfl | ⟨spaces, c, rfl⟩ := after.eq_nil_or_concat
  · exact ⟨rfl, rfl, (List.append_inj' hquote rfl).1⟩
  · -- a space behind the key would stand behind its quote
    have hsplit : (front ++ (init ++ [b])) ++ [q] = ((p ++ [34]) ++ spaces) ++ [c] := by
      simpa using hquote
    obtain ⟨hword, -⟩ := List.append_inj' hsplit rfl
    rw [← List.append_assoc] at hword
    have hspaces : Spaces rfc8259 spaces := fun x hx => hafter x (by simp [hx])
    obtain rfl := eq_nil_of_append hspaces hb hword
    rw [List.append_nil] at hword
    exact absurd (List.singleton_inj.mp (List.append_inj' hword rfl).2) hb34

theorem infraJsonValue_member (h : d.Holds key as m) (hkey : IsWord key) :
    infraJsonValue d.bytes key = some ⟨(d.valueFront as m).length, m.value.text.length⟩ ↔
      d.Reaches key as m := by
  obtain ⟨bs, hbs⟩ := h.members_eq
  obtain ⟨c, rest, hc, hbytes⟩ := StringObject.bytes_split hbs
  obtain ⟨hafter, hbefore, hbehind⟩ := h.spaces
  constructor
  · intro hvalue
    obtain ⟨front, q, value, c', rest', hfound, hslice⟩ := infraJsonValue_iff.mp hvalue
    obtain ⟨hstart, hlen⟩ := Slice.mk.inj hslice
    have heq : (front ++ (key ++ [q, 58])) ++ (value ++ c' :: rest') =
        d.valueFront as m ++ (m.value.text ++ (m.value.after ++ c :: rest)) := by
      rw [← hbytes, hfound.input_eq]
      simp only [List.append_assoc, List.cons_append, List.nil_append]
    have hfronts : (front ++ (key ++ [q, 58])).length = (d.valueFront as m).length := by
      rw [hstart]
      simp only [List.length_append, List.length_cons, List.length_nil]
      omega
    obtain ⟨hfront, hrest⟩ := List.append_inj heq hfronts
    obtain ⟨rfl, hends⟩ := List.append_inj hrest hlen.symm
    obtain ⟨hafter', hbefore', hword⟩ := front_eq hkey hafter hbefore hfront
    refine ⟨⟨front.length, hfound.first, by rw [← hword, List.length_append]⟩, hafter', hbefore',
      ?_, hfound.plain⟩
    cases hspaces : m.value.after with
    | nil => rfl
    | cons b spaces =>
      rw [hspaces] at hends hbehind
      obtain ⟨rfl, -⟩ := List.cons.inj hends
      have hspace := (space_facts (hbehind c' List.mem_cons_self)).1
      exact absurd hfound.ended (by rw [hspace]; decide)
  · intro hreach
    obtain ⟨i, hi, hend⟩ := hreach.first
    rw [StringObject.valueFront, hreach.after_key, hreach.before_value, hreach.behind_value]
      at hbytes
    obtain ⟨behind, hprefix⟩ := prefix_of_search hi
    have hsplit : (d.bytes.take i ++ key) ++ behind = d.keyFront as m ++
        34 :: 58 :: (m.value.text ++ c :: rest) := by
      rw [List.append_assoc, hprefix, List.take_append_drop, hbytes]
      simp only [List.append_assoc, List.cons_append, List.nil_append]
    have hile : (d.bytes.take i).length = i := by
      rw [List.length_take, hbytes]
      simp only [List.length_append]
      omega
    obtain ⟨hword, -⟩ := List.append_inj hsplit (by rw [List.length_append, hile, hend])
    refine infraJsonValue_iff.mpr ⟨d.bytes.take i, 34, m.value.text, c, rest, ⟨?_, ?_,
      hreach.plain, hc, ?_⟩, ?_⟩
    · rw [← List.append_assoc, hword, hbytes]
      simp only [List.append_assoc, List.cons_append, List.nil_append]
    · rw [hile, hi]
    · exact Nat.le_add_right_of_le h.two_le
    · rw [StringObject.valueFront, hreach.after_key, hreach.before_value, hile, hend,
        List.length_append]
      rfl

theorem isValueOf_iff (hkey : IsWord key) (h : infraJsonValue d.bytes key = some slice) :
    d.IsValueOf key slice ↔ d.Reached key := by
  constructor
  · rintro ⟨as, m, hm, rfl⟩
    exact ⟨as, m, hm, (infraJsonValue_member hm hkey).mp h⟩
  · rintro ⟨as, m, hm, hreach⟩
    have hfound := (infraJsonValue_member hm hkey).mpr hreach
    exact ⟨as, m, hm, Option.some.inj (h.symm.trans hfound)⟩

theorem not_reached (hkey : IsWord key) (h : infraJsonValue d.bytes key = none) :
    ¬ d.Reached key := fun ⟨_, _, hm, hreach⟩ => by
  rw [(infraJsonValue_member hm hkey).mpr hreach] at h
  cases h

theorem StringObject.Reached.hasMember (h : d.Reached key) : d.HasMember key := by
  obtain ⟨as, m, hm, -⟩ := h
  obtain ⟨bs, hbs⟩ := hm.members_eq
  exact ⟨m, by rw [hbs]; exact List.mem_append_right _ List.mem_cons_self, hm.key_eq⟩

/-! ### No byte is zero -/

theorem zero_not_mem_spaces {s : List UInt8} (h : Spaces rfc8259 s) : (0 : UInt8) ∉ s :=
  fun h0 => by
    rcases h 0 h0 with h | h | h | h
    all_goals exact absurd h (by decide)

theorem zero_not_mem_quote {s : List UInt8} (h : isBody s = true) : (0 : UInt8) ∉ quote s := by
  rw [quote, List.mem_cons, List.mem_append, List.mem_singleton]
  rintro (h0 | h0 | h0)
  · exact absurd h0 (by decide)
  · exact zero_not_mem_of_isBody h h0
  · exact absurd h0 (by decide)

theorem StringObject.zero_not_mem_member (hm : m ∈ d.members) : (0 : UInt8) ∉ m.bytes := by
  obtain ⟨hlead, hbody, hafter, hbefore, hvalue, hbehind⟩ := d.isObject.1 m hm
  rw [d.strings m hm] at hvalue
  obtain ⟨body, hvalue, htext⟩ := hvalue
  have hkey := zero_not_mem_quote hbody
  have hstring := zero_not_mem_quote hvalue
  have hlead := zero_not_mem_spaces hlead
  have hafter := zero_not_mem_spaces hafter
  have hbefore := zero_not_mem_spaces hbefore
  have hbehind := zero_not_mem_spaces hbehind
  rw [Member.bytes, Element.bytes, htext]
  simp [hkey, hstring, hlead, hafter, hbefore, hbehind]

theorem StringObject.zero_not_mem (d : StringObject) : (0 : UInt8) ∉ d.bytes := by
  obtain ⟨-, inner, hobject, hinner⟩ := d.isObject
  have hlead := zero_not_mem_spaces d.lead_spaces
  have htail := zero_not_mem_spaces d.tail_spaces
  have hmid : (0 : UInt8) ∉ inner := by
    rcases hinner with ⟨-, hspaces⟩ | ⟨-, rfl⟩
    · exact zero_not_mem_spaces hspaces
    · intro h0
      rcases mem_joined h0 with h0 | ⟨p, hp, h0⟩
      · exact absurd h0 (by decide)
      · obtain ⟨m, hm, rfl⟩ := List.mem_map.mp hp
        exact StringObject.zero_not_mem_member hm h0
  rw [StringObject.bytes, hobject]
  simp [hlead, htail, hmid]

end Objects

end AliyunIot.JsonValue
