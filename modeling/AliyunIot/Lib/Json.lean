import Mathlib.Data.List.Basic

/-!
# JSON texts

The grammar of JSON values over bytes. What a space, a number and the inside of a string are
is a parameter (`Lexis`); `IsValue L n k t` says that `t` is a value of kind `k` nested in at
most `n` levels. `rfc8259` is the lexis of the standard.
-/

namespace AliyunIot.Lib.Json

/-- What a text is made of. -/
structure Lexis where
  space : UInt8 → Prop
  number : List UInt8 → Prop
  body : List UInt8 → Prop

/-- The kinds of values; arrays and objects with how many members they have. -/
inductive Kind where
  | null
  | false
  | true
  | number
  | string
  | array (size : Nat)
  | object (size : Nat)

/-- A value with the spaces around it. -/
structure Element where
  before : List UInt8
  kind : Kind
  text : List UInt8
  after : List UInt8

def Element.bytes (e : Element) : List UInt8 := e.before ++ (e.text ++ e.after)

/-- A member of an object: its key with the spaces around it, and its value. -/
structure Member where
  before : List UInt8
  key : List UInt8
  after : List UInt8
  value : Element

def quote (s : List UInt8) : List UInt8 := 34 :: (s ++ [34])

def Member.bytes (m : Member) : List UInt8 :=
  m.before ++ (quote m.key ++ (m.after ++ 58 :: m.value.bytes))

/-- The parts with commas between them. -/
def joined : List (List UInt8) → List UInt8
  | [] => []
  | [p] => p
  | p :: q :: ps => p ++ 44 :: joined (q :: ps)

/-- What stands between the brackets of an array or an object: spaces only, or the members. -/
def Inner (spaces : List UInt8 → Prop) {α : Type} (ok : α → Prop) (bytes : α → List UInt8)
    (size : Nat) (inner : List UInt8) : Prop :=
  (size = 0 ∧ spaces inner) ∨
    ∃ ms : List α, ms ≠ [] ∧ ms.length = size ∧ (∀ m ∈ ms, ok m) ∧ inner = joined (ms.map bytes)

section

variable (L : Lexis)

def Spaces (s : List UInt8) : Prop := ∀ b ∈ s, L.space b

def Element.Ok (value : Kind → List UInt8 → Prop) (e : Element) : Prop :=
  Spaces L e.before ∧ value e.kind e.text ∧ Spaces L e.after

def Member.Ok (value : Kind → List UInt8 → Prop) (m : Member) : Prop :=
  Spaces L m.before ∧ L.body m.key ∧ Spaces L m.after ∧ m.value.Ok L value

def IsValue : Nat → Kind → List UInt8 → Prop
  | _, .null, t => t = [110, 117, 108, 108]
  | _, .false, t => t = [102, 97, 108, 115, 101]
  | _, .true, t => t = [116, 114, 117, 101]
  | _, .number, t => L.number t
  | _, .string, t => ∃ body, L.body body ∧ t = quote body
  | 0, .array _, _ => False
  | 0, .object _, _ => False
  | n + 1, .array size, t => ∃ inner, t = 91 :: (inner ++ [93]) ∧
      Inner (Spaces L) (Element.Ok L (IsValue n)) Element.bytes size inner
  | n + 1, .object size, t => ∃ inner, t = 123 :: (inner ++ [125]) ∧
      Inner (Spaces L) (Member.Ok L (IsValue n)) Member.bytes size inner

end

def Digits (s : List UInt8) : Prop := s ≠ [] ∧ ∀ b ∈ s, 48 ≤ b ∧ b ≤ 57

/-- A sign, an integer without leading zeros, a fraction and an exponent. -/
def IsNumber (t : List UInt8) : Prop :=
  ∃ sign int frac exp : List UInt8, t = sign ++ (int ++ (frac ++ exp)) ∧
    (sign = [] ∨ sign = [45]) ∧ (int = [48] ∨ Digits int ∧ int.head? ≠ some 48) ∧
    (frac = [] ∨ ∃ ds, frac = 46 :: ds ∧ Digits ds) ∧
    (exp = [] ∨ ∃ e s ds, exp = e :: (s ++ ds) ∧ (e = 101 ∨ e = 69) ∧
      (s = [] ∨ s = [43] ∨ s = [45]) ∧ Digits ds)

def isHexDigit (b : UInt8) : Bool :=
  (48 ≤ b && b ≤ 57) || (65 ≤ b && b ≤ 70) || (97 ≤ b && b ≤ 102)

/-- A byte that stands for itself in a string. -/
def isPlain (b : UInt8) : Bool := 32 ≤ b && b ≠ 34 && b ≠ 92

/-- Plain bytes and escape sequences. -/
def isBody : List UInt8 → Bool
  | [] => true
  | 92 :: 117 :: h₁ :: h₂ :: h₃ :: h₄ :: s =>
    isHexDigit h₁ && isHexDigit h₂ && isHexDigit h₃ && isHexDigit h₄ && isBody s
  | 92 :: e :: s => [34, 92, 47, 98, 102, 110, 114, 116].contains e && isBody s
  | b :: s => isPlain b && isBody s

def rfc8259 : Lexis where
  space b := b = 9 ∨ b = 10 ∨ b = 13 ∨ b = 32
  number := IsNumber
  body s := isBody s = true

section Lemmas

variable {L : Lexis} {n : Nat} {k : Kind} {t : List UInt8}

theorem isBody_append {s t : List UInt8} (hs : isBody s = true) (ht : isBody t = true) :
    isBody (s ++ t) = true := by
  induction s using isBody.induct with
  | case1 => exact ht
  | case2 h₁ h₂ h₃ h₄ s ih =>
    simp only [isBody, Bool.and_eq_true] at hs
    simp only [List.cons_append, isBody, Bool.and_eq_true]
    exact ⟨hs.1, ih hs.2⟩
  | case3 e s h ih =>
    rw [isBody.eq_3 e s h, Bool.and_eq_true] at hs
    have hne : e ≠ 117 := by
      rintro rfl
      exact absurd hs.1 (by decide)
    rw [List.cons_append, List.cons_append, isBody.eq_3 e (s ++ t)
      (fun _ _ _ _ _ he => absurd he hne),
      Bool.and_eq_true]
    exact ⟨hs.1, ih hs.2⟩
  | case4 b s h h' ih =>
    rw [isBody.eq_4 b s h h', Bool.and_eq_true] at hs
    have hne : b ≠ 92 := by
      rintro rfl
      exact absurd hs.1 (by decide)
    rw [List.cons_append, isBody.eq_4 b (s ++ t) (fun _ _ _ _ _ hb => absurd hb hne)
      (fun _ _ hb => absurd hb hne), Bool.and_eq_true]
    exact ⟨hs.1, ih hs.2⟩

theorem le_of_isBody {s : List UInt8} (h : isBody s = true) : ∀ b ∈ s, 32 ≤ b := by
  have hhex : ∀ b, isHexDigit b = true → 32 ≤ b := fun b hb => by
    simp only [isHexDigit, Bool.or_eq_true, Bool.and_eq_true, decide_eq_true_eq,
      UInt8.le_iff_toNat_le, UInt8.reduceToNat] at hb ⊢
    omega
  have hescape : ∀ b : UInt8, [34, 92, 47, 98, 102, 110, 114, 116].contains b = true → 32 ≤ b := by
    intro b hb
    have hall : ([34, 92, 47, 98, 102, 110, 114, 116] : List UInt8).all (32 ≤ ·) = true := by
      decide
    exact of_decide_eq_true (List.all_eq_true.mp hall b (by simpa using hb))
  induction s using isBody.induct with
  | case1 => exact fun b hb => absurd hb List.not_mem_nil
  | case2 h₁ h₂ h₃ h₄ s ih =>
    simp only [isBody, Bool.and_eq_true] at h
    obtain ⟨⟨⟨⟨k₁, k₂⟩, k₃⟩, k₄⟩, hs⟩ := h
    simp only [List.forall_mem_cons]
    exact ⟨by decide, by decide, hhex _ k₁, hhex _ k₂, hhex _ k₃, hhex _ k₄, ih hs⟩
  | case3 e s hne ih =>
    rw [isBody.eq_3 e s hne, Bool.and_eq_true] at h
    simp only [List.forall_mem_cons]
    exact ⟨by decide, hescape e h.1, ih h.2⟩
  | case4 b s hne hne' ih =>
    rw [isBody.eq_4 b s hne hne', Bool.and_eq_true, isPlain, Bool.and_eq_true,
      Bool.and_eq_true] at h
    simp only [List.forall_mem_cons]
    exact ⟨of_decide_eq_true h.1.1.1, ih h.2⟩

theorem zero_not_mem_of_isBody {s : List UInt8} (h : isBody s = true) : (0 : UInt8) ∉ s :=
  fun h0 => absurd (le_of_isBody h 0 h0) (by decide)

theorem isBody_of_plain {s : List UInt8} (h : ∀ b ∈ s, isPlain b = true) : isBody s = true := by
  induction s with
  | nil => rfl
  | cons b s ih =>
    obtain ⟨hb, hs⟩ := List.forall_mem_cons.mp h
    have hne : b ≠ 92 := by
      rintro rfl
      exact absurd hb (by decide)
    rw [isBody.eq_4 b s (fun _ _ _ _ _ heq => absurd heq hne) (fun _ _ heq => absurd heq hne), hb,
      ih hs, Bool.and_self]

theorem joined_cons {p : List UInt8} {ps : List (List UInt8)} (h : ps ≠ []) :
    joined (p :: ps) = p ++ 44 :: joined ps := by
  cases ps with
  | nil => exact absurd rfl h
  | cons q ps => rfl

theorem joined_append {ps qs : List (List UInt8)} (hp : ps ≠ []) (hq : qs ≠ []) :
    joined (ps ++ qs) = joined ps ++ 44 :: joined qs := by
  induction ps with
  | nil => exact absurd rfl hp
  | cons p ps ih =>
    cases ps with
    | nil => exact joined_cons hq
    | cons q ps =>
      have hne : q :: ps ≠ [] := List.cons_ne_nil q ps
      have happ : q :: ps ++ qs ≠ [] := List.append_ne_nil_of_left_ne_nil hne qs
      rw [List.cons_append, joined_cons happ, ih hne, joined_cons hne]
      simp only [List.append_assoc, List.cons_append]

theorem joined_concat (ps : List (List UInt8)) (p s : List UInt8) :
    joined (ps ++ [p]) ++ s = joined (ps ++ [p ++ s]) := by
  induction ps with
  | nil => rfl
  | cons q ps ih =>
    rw [List.cons_append, List.cons_append, joined_cons (by simp), joined_cons (by simp), ← ih,
      List.append_assoc, List.cons_append]

theorem spaces_nil : Spaces L [] := fun _ h => absurd h List.not_mem_nil

theorem Inner.mono {spaces : List UInt8 → Prop} {α : Type} {ok ok' : α → Prop}
    {bytes : α → List UInt8} {size : Nat} {inner : List UInt8} (hok : ∀ m, ok m → ok' m)
    (h : Inner spaces ok bytes size inner) : Inner spaces ok' bytes size inner := by
  rcases h with h | ⟨ms, hne, hlen, hms, hinner⟩
  · exact .inl h
  · exact .inr ⟨ms, hne, hlen, fun m hm => hok m (hms m hm), hinner⟩

theorem Element.Ok.mono {value value' : Kind → List UInt8 → Prop} {e : Element}
    (hv : ∀ k t, value k t → value' k t) (h : e.Ok L value) : e.Ok L value' :=
  ⟨h.1, hv _ _ h.2.1, h.2.2⟩

theorem Member.Ok.mono {value value' : Kind → List UInt8 → Prop} {m : Member}
    (hv : ∀ k t, value k t → value' k t) (h : m.Ok L value) : m.Ok L value' :=
  ⟨h.1, h.2.1, h.2.2.1, h.2.2.2.mono hv⟩

theorem IsValue.succ (h : IsValue L n k t) : IsValue L (n + 1) k t := by
  induction n generalizing k t with
  | zero =>
    cases k with
    | array size => exact h.elim
    | object size => exact h.elim
    | null | false | true | number | string => simpa only [IsValue] using h
  | succ n ih =>
    cases k with
    | array size =>
      obtain ⟨inner, ht, hinner⟩ := h
      exact ⟨inner, ht, hinner.mono fun e he => he.mono fun _ _ => ih⟩
    | object size =>
      obtain ⟨inner, ht, hinner⟩ := h
      exact ⟨inner, ht, hinner.mono fun m hm => hm.mono fun _ _ => ih⟩
    | null | false | true | number | string => simpa only [IsValue] using h

theorem IsValue.mono {m : Nat} (h : IsValue L n k t) (hnm : n ≤ m) : IsValue L m k t := by
  induction hnm with
  | refl => exact h
  | step _ ih => exact ih.succ

theorem IsValue.lexis {L' : Lexis} (hspace : ∀ b, L.space b → L'.space b)
    (hnumber : ∀ t, L.number t → L'.number t) (hbody : ∀ s, L.body s → L'.body s)
    (h : IsValue L n k t) : IsValue L' n k t := by
  induction n generalizing k t with
  | zero =>
    cases k with
    | array size => exact h.elim
    | object size => exact h.elim
    | number =>
      rw [IsValue] at h ⊢
      exact hnumber t h
    | string =>
      rw [IsValue] at h ⊢
      obtain ⟨body, hb, ht⟩ := h
      exact ⟨body, hbody body hb, ht⟩
    | null | false | true => simpa only [IsValue] using h
  | succ n ih =>
    have hspaces : ∀ {s}, Spaces L s → Spaces L' s := fun hs b hb => hspace b (hs b hb)
    have helement : ∀ {e : Element}, e.Ok L (IsValue L n) → e.Ok L' (IsValue L' n) :=
      fun he => ⟨hspaces he.1, ih he.2.1, hspaces he.2.2⟩
    cases k with
    | array size =>
      obtain ⟨inner, ht, ⟨hsize, hs⟩ | ⟨es, hne, hlen, hes, hinner⟩⟩ := h
      · exact ⟨inner, ht, .inl ⟨hsize, hspaces hs⟩⟩
      · exact ⟨inner, ht, .inr ⟨es, hne, hlen, fun e he => helement (hes e he), hinner⟩⟩
    | object size =>
      obtain ⟨inner, ht, ⟨hsize, hs⟩ | ⟨ms, hne, hlen, hms, hinner⟩⟩ := h
      · exact ⟨inner, ht, .inl ⟨hsize, hspaces hs⟩⟩
      · refine ⟨inner, ht, .inr ⟨ms, hne, hlen, fun m hm => ?_, hinner⟩⟩
        obtain ⟨h₁, h₂, h₃, h₄⟩ := hms m hm
        exact ⟨hspaces h₁, hbody _ h₂, hspaces h₃, helement h₄⟩
    | number =>
      rw [IsValue] at h ⊢
      exact hnumber t h
    | string =>
      rw [IsValue] at h ⊢
      obtain ⟨body, hb, ht⟩ := h
      exact ⟨body, hbody body hb, ht⟩
    | null | false | true => simpa only [IsValue] using h

end Lemmas

end AliyunIot.Lib.Json
