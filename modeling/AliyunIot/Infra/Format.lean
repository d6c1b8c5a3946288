import Mathlib.Algebra.Ring.Nat
import Mathlib.Data.List.TakeWhile
import Mathlib.Tactic.Common

/-!
# Formatted text

What `HAL_Snprintf` makes of its directives, and the string functions with a length:
`decimal` for `%d` and `%ld`, `precision` for `%.*s`.
-/

namespace AliyunIot.Format

/-- The bytes of a literal of the source. -/
def text (s : String) : List UInt8 := s.toList.map fun c => UInt8.ofNat c.toNat

def digits (n : Nat) : List UInt8 := (Nat.toDigits 10 n).map fun c => UInt8.ofNat c.toNat

/-- `%d` and `%ld`. -/
def decimal (n : Int) : List UInt8 := if n < 0 then 45 :: digits n.natAbs else digits n.natAbs

/-- `%.*s` with the length of the slice: it ends at a zero. -/
def precision (s : List UInt8) : List UInt8 := s.takeWhile (· ≠ 0)

/-- The string that is left in an array of `size` bytes. -/
def snprintf (size : Nat) (s : List UInt8) : List UInt8 := s.take (size - 1)

/-- `strncmp(a, b, len) == 0` for the `len` bytes of `a` and a literal `b`. -/
def strncmpEq : List UInt8 → List UInt8 → Bool
  | [], _ => true
  | x :: _, [] => x = 0
  | x :: a, y :: b => x = y && strncmpEq a b

/-- `strncpy(_, a, len)` for the `len` bytes of `a`: what follows a zero is zero. -/
def strncpy (a : List UInt8) : List UInt8 :=
  precision a ++ List.replicate (a.length - (precision a).length) 0

/-- An argument of `HAL_Snprintf`; a slice comes with its length. -/
inductive Arg where
  | int (i : Int)
  | slice (s : List UInt8)
  | str (s : List UInt8)

/-- The text of a format with `%d`, `%.*s` and `%s`. -/
def format : List UInt8 → List Arg → List UInt8
  | 37 :: 100 :: fmt, .int i :: args => decimal i ++ format fmt args
  | 37 :: 46 :: 42 :: 115 :: fmt, .slice s :: args => precision s ++ format fmt args
  | 37 :: 115 :: fmt, .str s :: args => s ++ format fmt args
  | b :: fmt, args => b :: format fmt args
  | [], _ => []

/-- What is left in a cleared array of `size` bytes. -/
def cleared (size : Nat) (s : List UInt8) : List UInt8 :=
  snprintf size s ++ List.replicate (size - (snprintf size s).length) 0

def cString (bytes : List UInt8) : Option (List UInt8) :=
  if (0 : UInt8) ∈ bytes then some (precision bytes) else none

variable {n : Nat} {s : List UInt8}

def isDigit (b : UInt8) : Bool := 48 ≤ b && b ≤ 57

theorem isDigit_of_mem_digits {b : UInt8} (h : b ∈ digits n) : isDigit b = true := by
  obtain ⟨c, hc, rfl⟩ := List.mem_map.mp h
  have hdigit := Nat.isDigit_of_mem_toDigits (by decide) (by decide) hc
  simp only [Char.isDigit, Bool.and_eq_true, decide_eq_true_eq, ge_iff_le,
    UInt32.le_iff_toNat_le] at hdigit
  have hlo : 48 ≤ c.toNat := hdigit.1
  have hhi : c.toNat ≤ 57 := hdigit.2
  simp only [isDigit, Bool.and_eq_true, decide_eq_true_eq, UInt8.le_iff_toNat_le,
    UInt8.toNat_ofNat', UInt8.reduceToNat]
  omega

theorem digits_ne_nil : digits n ≠ [] := by
  simp [digits]

theorem length_digits_le {k : Nat} (hk : 0 < k) (h : n < 10 ^ k) : (digits n).length ≤ k := by
  rw [digits, List.length_map]
  exact (Nat.length_toDigits_le_iff (by decide) hk).mpr h

theorem decimal_eq (i : Int) :
    ∃ sign, (sign = [] ∨ sign = [45]) ∧ decimal i = sign ++ digits i.natAbs := by
  unfold decimal
  split
  · exact ⟨[45], .inr rfl, rfl⟩
  · exact ⟨[], .inl rfl, rfl⟩

theorem mem_decimal {i : Int} {b : UInt8} (h : b ∈ decimal i) : b = 45 ∨ isDigit b = true := by
  obtain ⟨sign, hsign, heq⟩ := decimal_eq i
  rw [heq, List.mem_append] at h
  rcases h with h | h
  · rcases hsign with rfl | rfl
    · cases h
    · exact .inl (List.mem_singleton.mp h)
  · exact .inr (isDigit_of_mem_digits h)

theorem length_decimal_le {i : Int} {k : Nat} (hk : 0 < k) (h : i.natAbs < 10 ^ k) :
    (decimal i).length ≤ k + 1 := by
  have hlen := length_digits_le hk h
  obtain ⟨sign, hsign, heq⟩ := decimal_eq i
  rw [heq, List.length_append]
  rcases hsign with rfl | rfl
  · simp only [List.length_nil]
    omega
  · simp only [List.length_singleton]
    omega

theorem precision_eq_self (h : (0 : UInt8) ∉ s) : precision s = s := by
  rw [precision, List.takeWhile_eq_self_iff]
  intro b hb
  simpa using fun h0 : b = 0 => h (h0 ▸ hb)

theorem zero_not_mem_precision : (0 : UInt8) ∉ precision s := fun h => by
  have hb := List.mem_takeWhile_imp h
  simp at hb

theorem length_precision_le : (precision s).length ≤ s.length :=
  (List.takeWhile_sublist _).length_le

theorem precision_append_of_mem (h : (0 : UInt8) ∈ s) (rest : List UInt8) :
    precision (s ++ rest) = precision s := by
  rw [precision, List.takeWhile_append, if_neg]
  · rfl
  · intro hlen
    have hself : precision s = s := (List.takeWhile_prefix _).eq_of_length hlen
    rw [← hself] at h
    exact zero_not_mem_precision h

theorem precision_of_no_zero (h : (0 : UInt8) ∉ s) (s' : List UInt8) :
    precision (s ++ s') = s ++ precision s' := by
  refine List.takeWhile_append_of_pos fun b hb => ?_
  have hne : b ≠ 0 := fun h0 => h (h0 ▸ hb)
  simp [hne]

theorem precision_append_zero {rest : List UInt8} (h : (0 : UInt8) ∉ s) :
    precision (s ++ 0 :: rest) = s := by
  have hs : ∀ b ∈ s, (b ≠ 0) = true := by
    intro b hb
    simpa using fun h0 : b = 0 => h (h0 ▸ hb)
  rw [precision, List.takeWhile_append_of_pos (by simpa using hs),
    List.takeWhile_cons_of_neg (by simp),
    List.append_nil]

/-- At most so many bytes more than its directive. -/
def Arg.size : Arg → Nat
  | .int _ => 9
  | .slice s => s.length
  | .str s => s.length

theorem length_format_le (fmt : List UInt8) {args : List Arg}
    (h : ∀ i, Arg.int i ∈ args → (decimal i).length ≤ 11) :
    (format fmt args).length ≤ fmt.length + (args.map Arg.size).sum := by
  induction fmt, args using format.induct with
  | case1 fmt i args ih =>
    have hi := h i List.mem_cons_self
    have hle := ih fun j hj => h j (List.mem_cons_of_mem _ hj)
    simp only [format, List.length_append, List.length_cons, List.map_cons, List.sum_cons, Arg.size]
    omega
  | case2 fmt s args ih =>
    have hs := length_precision_le (s := s)
    have hle := ih fun j hj => h j (List.mem_cons_of_mem _ hj)
    simp only [format, List.length_append, List.length_cons, List.map_cons, List.sum_cons, Arg.size]
    omega
  | case3 fmt s args ih =>
    have hle := ih fun j hj => h j (List.mem_cons_of_mem _ hj)
    simp only [format, List.length_append, List.length_cons, List.map_cons, List.sum_cons, Arg.size]
    omega
  | case4 b fmt args h₁ h₂ h₃ ih =>
    have hle := ih h
    rw [format.eq_4 args b fmt h₁ h₂ h₃, List.length_cons, List.length_cons]
    omega
  | case5 args => simp [format]

theorem zero_not_mem_format {fmt : List UInt8} {args : List Arg} (hfmt : (0 : UInt8) ∉ fmt)
    (h : ∀ s, Arg.str s ∈ args → (0 : UInt8) ∉ s) : (0 : UInt8) ∉ format fmt args := by
  induction fmt, args using format.induct with
  | case1 fmt i args ih =>
    have hle := ih (fun h0 => hfmt (by simp [h0])) fun s hs => h s (List.mem_cons_of_mem _ hs)
    rw [format, List.mem_append]
    rintro (h0 | h0)
    · rcases mem_decimal h0 with h0 | h0 <;> cases h0
    · exact hle h0
  | case2 fmt s args ih =>
    have hle := ih (fun h0 => hfmt (by simp [h0])) fun s hs => h s (List.mem_cons_of_mem _ hs)
    rw [format, List.mem_append]
    rintro (h0 | h0)
    · exact zero_not_mem_precision h0
    · exact hle h0
  | case3 fmt s args ih =>
    have hle := ih (fun h0 => hfmt (by simp [h0])) fun s hs => h s (List.mem_cons_of_mem _ hs)
    rw [format, List.mem_append]
    rintro (h0 | h0)
    · exact h s List.mem_cons_self h0
    · exact hle h0
  | case4 b fmt args h₁ h₂ h₃ ih =>
    have hle := ih (List.not_mem_of_not_mem_cons hfmt) h
    rw [format.eq_4 args b fmt h₁ h₂ h₃, List.mem_cons]
    rintro (h0 | h0)
    · exact hfmt (by simp [h0])
    · exact hle h0
  | case5 args => simp [format]

theorem snprintf_eq_self {size : Nat} (h : s.length < size) : snprintf size s = s :=
  List.take_of_length_le (by omega)

theorem cString_cleared {size : Nat} (hs : (0 : UInt8) ∉ s) :
    cString (cleared size s) = some s ↔ s.length < size := by
  have hlen : (snprintf size s).length = min (size - 1) s.length := List.length_take
  constructor
  · intro h
    unfold cString at h
    split at h
    case isFalse => cases h
    case isTrue hzero =>
      have hmem : (0 : UInt8) ∉ snprintf size s := fun h => hs (List.mem_of_mem_take h)
      rw [cleared, List.mem_append, or_iff_right hmem, List.mem_replicate] at hzero
      obtain ⟨k, hk⟩ := Nat.exists_eq_succ_of_ne_zero hzero.1
      rw [cleared, hk, List.replicate_succ, Option.some.injEq, precision_append_zero hmem] at h
      have heq := congrArg List.length h
      omega
  · intro h
    obtain ⟨k, hk⟩ : ∃ k, size - s.length = k + 1 := ⟨size - s.length - 1, by omega⟩
    rw [cString, cleared, snprintf_eq_self h, hk, List.replicate_succ, if_pos (by simp),
      precision_append_zero hs]

theorem cString_append_singleton {b : UInt8} :
    cString (s ++ [b]) = some s ↔ b = 0 ∧ (0 : UInt8) ∉ s := by
  constructor
  · intro h
    unfold cString at h
    split at h
    case isFalse => cases h
    case isTrue hmem =>
      rw [Option.some.injEq] at h
      have hs : (0 : UInt8) ∉ s := by
        rw [← h]
        exact zero_not_mem_precision
      have hb : (0 : UInt8) = b := by simpa [hs] using hmem
      exact ⟨hb.symm, hs⟩
  · rintro ⟨rfl, hs⟩
    rw [cString, if_pos (by simp), precision_append_zero hs]

theorem length_strncpy : (strncpy s).length = s.length := by
  have hle : (precision s).length ≤ s.length := (List.takeWhile_sublist _).length_le
  rw [strncpy, List.length_append, List.length_replicate]
  omega

end AliyunIot.Format
