import Mathlib.Algebra.Ring.Nat
import AliyunIot.Lib.Json

/-!
# What JSON texts stand for

The bytes of a string, the number of a numeral, the members of an object.
-/

namespace AliyunIot.Lib.Json

/-! ## Strings -/

def hexValue (b : UInt8) : Nat :=
  if b ≤ 57 then b.toNat - 48 else if b ≤ 70 then b.toNat - 55 else b.toNat - 87

def codeUnit (h₁ h₂ h₃ h₄ : UInt8) : Nat :=
  ((hexValue h₁ * 16 + hexValue h₂) * 16 + hexValue h₃) * 16 + hexValue h₄

/-- The byte of an escape sequence without digits. -/
def escaped : UInt8 → UInt8
  | 98 => 8
  | 102 => 12
  | 110 => 10
  | 114 => 13
  | 116 => 9
  | b => b

def utf8 (codePoint : Nat) : Option (List UInt8) :=
  if codePoint.isValidChar then some (String.utf8EncodeChar (Char.ofNat codePoint)) else none

/-- The bytes that the inside of a string stands for, none where half of a surrogate pair is
missing. -/
def unescape : List UInt8 → Option (List UInt8)
  | [] => some []
  | 92 :: 117 :: h₁ :: h₂ :: h₃ :: h₄ :: s =>
    let unit := codeUnit h₁ h₂ h₃ h₄
    if 0xD800 ≤ unit ∧ unit < 0xDC00 then
      match s with
      | 92 :: 117 :: k₁ :: k₂ :: k₃ :: k₄ :: s =>
        let low := codeUnit k₁ k₂ k₃ k₄
        if 0xDC00 ≤ low ∧ low < 0xE000 then do
          let b ← utf8 (0x10000 + (unit - 0xD800) * 0x400 + (low - 0xDC00))
          return b ++ (← unescape s)
        else none
      | _ => none
    else do
      let b ← utf8 unit
      return b ++ (← unescape s)
  | 92 :: e :: s => (unescape s).map (escaped e :: ·)
  | b :: s => (unescape s).map (b :: ·)

theorem unescape_of_plain {s : List UInt8} (h : ∀ b ∈ s, b ≠ 92) : unescape s = some s := by
  induction s with
  | nil => rfl
  | cons b s ih =>
    obtain ⟨hb, hs⟩ := List.forall_mem_cons.mp h
    rw [unescape.eq_5 b s (fun _ _ _ _ _ he => absurd he hb) (fun _ _ he => absurd he hb), ih hs]
    rfl

theorem ne_quote_of_isHexDigit {b : UInt8} (h : isHexDigit b = true) : b ≠ 34 := by
  rintro rfl
  exact absurd h (by decide)

theorem length_utf8 {codePoint : Nat} {b : List UInt8} (h : utf8 codePoint = some b) :
    b.length ≤ 4 := by
  unfold utf8 at h
  split at h
  · obtain rfl := Option.some.inj h
    rw [String.length_utf8EncodeChar]
    exact Char.utf8Size_le_four _
  · cases h

theorem isBody_digits {h₁ h₂ h₃ h₄ : UInt8} {s : List UInt8}
    (h : isBody (92 :: 117 :: h₁ :: h₂ :: h₃ :: h₄ :: s) = true) : isBody s = true ∧
      (92 :: 117 :: h₁ :: h₂ :: h₃ :: h₄ :: s).idxOf 34 = s.idxOf 34 + 6 := by
  simp only [isBody, Bool.and_eq_true] at h
  obtain ⟨⟨⟨⟨hh₁, hh₂⟩, hh₃⟩, hh₄⟩, hs⟩ := h
  refine ⟨hs, ?_⟩
  simp [ne_quote_of_isHexDigit hh₁, ne_quote_of_isHexDigit hh₂,
    ne_quote_of_isHexDigit hh₃, ne_quote_of_isHexDigit hh₄]

/-- What the inside of a string stands for: it is not longer, as long only without escape sequences,
and a quote in it moves to the front. -/
structure Unescaped (s t : List UInt8) : Prop where
  le : t.length ≤ s.length
  plain : t.length = s.length → (92 : UInt8) ∉ s
  quote : (34 : UInt8) ∈ s → (34 : UInt8) ∈ t ∧ t.idxOf 34 < s.idxOf 34

theorem idxOf_append_le (b t : List UInt8) : (b ++ t).idxOf 34 ≤ b.length + t.idxOf 34 := by
  rw [List.idxOf_append]
  split
  · exact Nat.le_add_right_of_le (Nat.le_of_lt (List.idxOf_lt_length_of_mem ‹_›))
  · omega

theorem Unescaped.escape {s t b : List UInt8} (h : Unescaped s t) (front : List UInt8)
    (hb : b.length < front.length) (hidx : (front ++ s).idxOf 34 = s.idxOf 34 + front.length) :
    Unescaped (front ++ s) (b ++ t) where
  le := by
    have hle := h.le
    simp only [List.length_append]
    omega
  plain heq := by
    have hle := h.le
    simp only [List.length_append] at heq
    omega
  quote hmem := by
    have hs : (34 : UInt8) ∈ s := by
      by_contra hnot
      have hlt := List.idxOf_lt_length_of_mem hmem
      rw [hidx, List.idxOf_eq_length hnot, List.length_append] at hlt
      omega
    obtain ⟨ht, hlt⟩ := h.quote hs
    have hle := idxOf_append_le b t
    exact ⟨List.mem_append_right _ ht, by omega⟩

theorem unescaped {s t : List UInt8} (hbody : isBody s = true) (h : unescape s = some t) :
    Unescaped s t := by
  fun_induction unescape s generalizing t with
  | case1 =>
    cases h
    exact ⟨Nat.le_refl _, fun _ => List.not_mem_nil, nofun⟩
  | case2 =>
    rename_i ih
    obtain ⟨hbody, hunit⟩ := isBody_digits hbody
    obtain ⟨hbody, hlow⟩ := isBody_digits hbody
    obtain ⟨b, hutf, hb⟩ := Option.bind_eq_some_iff.mp h
    obtain ⟨t', ht, htb⟩ := Option.bind_eq_some_iff.mp hb
    obtain rfl : b ++ t' = t := Option.some.inj htb
    have hlen := length_utf8 hutf
    refine (ih hbody ht).escape [_, _, _, _, _, _, _, _, _, _, _, _] ?_ ?_
    · simp only [List.length_cons, List.length_nil]
      omega
    · exact hunit.trans (by rw [hlow]; rfl)
  | case3 | case4 => cases h
  | case5 =>
    rename_i ih
    obtain ⟨hbody, hunit⟩ := isBody_digits hbody
    obtain ⟨b, hutf, hb⟩ := Option.bind_eq_some_iff.mp h
    obtain ⟨t', ht, htb⟩ := Option.bind_eq_some_iff.mp hb
    obtain rfl : b ++ t' = t := Option.some.inj htb
    have hlen := length_utf8 hutf
    refine (ih hbody ht).escape [_, _, _, _, _, _] ?_ hunit
    simp only [List.length_cons, List.length_nil]
    omega
  | case6 e s hno ih =>
    rw [isBody.eq_3 e s hno, Bool.and_eq_true] at hbody
    obtain ⟨t', ht, rfl⟩ := Option.map_eq_some_iff.mp h
    have hs := ih hbody.2 ht
    by_cases he : e = 34
    · subst he
      refine ⟨Nat.succ_le_succ (Nat.le_succ_of_le hs.le), fun heq => ?_, fun _ => ⟨?_, ?_⟩⟩
      · have hle := hs.le
        simp only [List.length_cons] at heq
        omega
      · exact List.mem_cons_self
      · simp [escaped]
    · refine hs.escape [92, e] (show [escaped e].length < _ from Nat.lt_succ_self 1) ?_
      simp [he]
  | case7 b s hno hno' ih =>
    rw [isBody.eq_4 b s hno hno', Bool.and_eq_true] at hbody
    obtain ⟨t', ht, rfl⟩ := Option.map_eq_some_iff.mp h
    have hs := ih hbody.2 ht
    have hne : b ≠ 34 ∧ b ≠ 92 := by
      constructor
      · rintro rfl
        exact absurd hbody.1 (by decide)
      · rintro rfl
        exact absurd hbody.1 (by decide)
    refine ⟨Nat.succ_le_succ hs.le, fun heq => ?_, fun hmem => ?_⟩
    · rw [List.mem_cons, not_or]
      exact ⟨hne.2.symm, hs.plain (Nat.succ.inj heq)⟩
    · obtain ⟨ht, hlt⟩ := hs.quote ((List.mem_cons.mp hmem).resolve_left hne.1.symm)
      refine ⟨List.mem_cons_of_mem _ ht, ?_⟩
      simp only [List.idxOf_cons, beq_eq_false_iff_ne.mpr hne.1, cond_false]
      omega

/-! ## Numbers -/

def isDecimal (b : UInt8) : Bool := 48 ≤ b && b ≤ 57

def decimalValue (ds : List UInt8) : Nat := ds.foldl (fun n b => n * 10 + (b.toNat - 48)) 0

def exponentValue : List UInt8 → Int
  | 45 :: ds => -decimalValue ds
  | 43 :: ds => decimalValue ds
  | ds => decimalValue ds

/-- The digits of a number without sign, and the power of ten that they are taken with. -/
def scientific (t : List UInt8) : Nat × Int :=
  let int := t.takeWhile isDecimal
  let rest := t.dropWhile isDecimal
  let frac := if rest.head? = some 46 then rest.tail.takeWhile isDecimal else []
  let exp := (rest.dropWhile fun b => b ≠ 101 && b ≠ 69).tail
  (decimalValue (int ++ frac), exponentValue exp - frac.length)

def IsNatural (n : Nat) (t : List UInt8) : Prop :=
  IsNumber t ∧ t.head? ≠ some 45 ∧
    (scientific t).1 * 10 ^ (scientific t).2.toNat = n * 10 ^ (-(scientific t).2).toNat

/-! ## Objects -/

def IsObject (L : Lexis) (n : Nat) (ms : List Member) (t : List UInt8) : Prop :=
  (∀ m ∈ ms, m.Ok L (IsValue L n)) ∧ ∃ inner, t = 123 :: (inner ++ [125]) ∧
    (ms = [] ∧ Spaces L inner ∨ ms ≠ [] ∧ inner = joined (ms.map Member.bytes))

theorem isValue_of_isObject {L : Lexis} {n : Nat} {ms : List Member} {t : List UInt8}
    (h : IsObject L n ms t) : IsValue L (n + 1) (.object ms.length) t := by
  obtain ⟨hok, inner, rfl, hinner⟩ := h
  refine ⟨inner, rfl, ?_⟩
  rcases hinner with ⟨rfl, hspaces⟩ | ⟨hne, hinner⟩
  · exact .inl ⟨rfl, hspaces⟩
  · exact .inr ⟨ms, hne, rfl, hok, hinner⟩

theorem mem_joined {ps : List (List UInt8)} {b : UInt8} (h : b ∈ joined ps) :
    b = 44 ∨ ∃ p ∈ ps, b ∈ p := by
  induction ps with
  | nil => cases h
  | cons p ps ih =>
    by_cases hne : ps = []
    · subst hne
      exact .inr ⟨p, List.mem_singleton.mpr rfl, h⟩
    · rw [joined_cons hne, List.mem_append, List.mem_cons] at h
      rcases h with h | rfl | h
      · exact .inr ⟨p, List.mem_cons_self, h⟩
      · exact .inl rfl
      · refine (ih h).imp_right fun ⟨q, hq, hb⟩ => ⟨q, List.mem_cons_of_mem _ hq, hb⟩

theorem mem_joined_of_mem {ps : List (List UInt8)} {p : List UInt8} {b : UInt8} (hp : p ∈ ps)
    (hb : b ∈ p) : b ∈ joined ps := by
  induction ps with
  | nil => cases hp
  | cons q ps ih =>
    by_cases hne : ps = []
    · subst hne
      rw [List.mem_singleton] at hp
      exact hp ▸ hb
    · rw [joined_cons hne, List.mem_append, List.mem_cons]
      rcases List.mem_cons.mp hp with rfl | hp
      · exact .inl hb
      · exact .inr (.inr (ih hp))

theorem joined_map_cons {α : Type} (f : α → List UInt8) (a : α) (as : List α) (s : List UInt8) :
    ∃ rest, joined ((a :: as).map f) ++ s = f a ++ rest := by
  cases as with
  | nil => exact ⟨s, rfl⟩
  | cons b as =>
    refine ⟨44 :: (joined ((b :: as).map f) ++ s), ?_⟩
    rw [List.map_cons, joined_cons (by simp), List.append_assoc]
    rfl

theorem joined_flatMap (as : List Member) {ms : List Member} (hne : ms ≠ []) :
    joined ((as ++ ms).map Member.bytes) =
      as.flatMap (fun a => a.bytes ++ [44]) ++ joined (ms.map Member.bytes) := by
  induction as with
  | nil => rfl
  | cons a as ih =>
    rw [List.cons_append, List.map_cons, joined_cons (by simp [hne]), ih, List.flatMap_cons]
    simp only [List.append_assoc, List.cons_append, List.nil_append]

/-- What stands in an object in front of the value of `m`, behind the members `as`. -/
def frontOf (as : List Member) (m : Member) : List UInt8 :=
  123 :: (as.flatMap (fun a => a.bytes ++ [44]) ++
    (m.before ++ (quote m.key ++ (m.after ++ 58 :: m.value.before))))

theorem isObject_split {L : Lexis} {n : Nat} {as bs : List Member} {m : Member} {t : List UInt8}
    (h : IsObject L n (as ++ m :: bs) t) :
    ∃ behind, t = frontOf as m ++ (m.value.text ++ behind) := by
  obtain ⟨-, inner, rfl, ⟨hnil, -⟩ | ⟨-, rfl⟩⟩ := h
  · exact absurd hnil (by simp)
  · obtain ⟨rest, hrest⟩ := joined_map_cons Member.bytes m bs [125]
    refine ⟨m.value.after ++ rest, ?_⟩
    rw [joined_flatMap as (List.cons_ne_nil m bs), List.append_assoc, hrest]
    simp [frontOf, Member.bytes, Element.bytes]

def objectText (ms : List Member) : List UInt8 := 123 :: (joined (ms.map Member.bytes) ++ [125])

theorem isObject_objectText {L : Lexis} {n : Nat} {ms : List Member} (hne : ms ≠ [])
    (hok : ∀ m ∈ ms, m.Ok L (IsValue L n)) : IsObject L n ms (objectText ms) :=
  ⟨hok, _, rfl, .inr ⟨hne, rfl⟩⟩

def named (ms : List Member) (name : List UInt8) : Option Member :=
  ms.find? fun m => unescape m.key = some name

/-- `m` is the first member with the name, and stands behind `as`. -/
def FirstNamed (ms : List Member) (name : List UInt8) (as : List Member) (m : Member) : Prop :=
  (∃ bs, ms = as ++ m :: bs) ∧ unescape m.key = some name ∧ ∀ a ∈ as, unescape a.key ≠ some name

theorem named_eq_some_iff {ms : List Member} {name : List UInt8} {m : Member} :
    named ms name = some m ↔ ∃ as, FirstNamed ms name as m := by
  unfold named FirstNamed
  rw [List.find?_eq_some_iff_append]
  simp only [decide_eq_true_eq, Bool.not_eq_true', decide_eq_false_iff_not]
  constructor
  · rintro ⟨hm, as, bs, rfl, has⟩
    exact ⟨as, ⟨bs, rfl⟩, hm, has⟩
  · rintro ⟨as, ⟨bs, rfl⟩, hm, has⟩
    exact ⟨hm, as, bs, rfl, has⟩

end AliyunIot.Lib.Json
