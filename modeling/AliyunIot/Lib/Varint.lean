import Mathlib.Algebra.Group.Nat.Defs
import Mathlib.Data.List.Basic

/-!
# Base-128 length fields

A length is written seven bits a byte, least significant first, with the top
bit set on every byte but the last. `encode` is the shortest field of a
length, `value` what a field stands for, and `IsField` the shape a reader
stops after. A field need not be the shortest one (`[0x80, 0x00]` stands for
`0`), so a reader is compared with `value` and a writer with `encode`.
-/

namespace AliyunIot.Lib.Varint

/-- The shortest field of `n`. -/
def encode (n : Nat) : List UInt8 :=
  if n < 128 then [UInt8.ofNat n] else UInt8.ofNat (n % 128 + 128) :: encode (n / 128)

/-- The length a field stands for. -/
def value : List UInt8 → Nat
  | [] => 0
  | b :: bs => b.toNat % 128 + 128 * value bs

/-- One complete field: the top bit on every byte but the last. -/
def IsField : List UInt8 → Prop
  | [] => False
  | [b] => b.toNat < 128
  | b :: bs => 128 ≤ b.toNat ∧ IsField bs

instance : ∀ bs, Decidable (IsField bs)
  | [] => instDecidableFalse
  | [b] => inferInstanceAs (Decidable (b.toNat < 128))
  | b :: c :: bs =>
    have := instDecidableIsField (c :: bs)
    inferInstanceAs (Decidable (128 ≤ b.toNat ∧ IsField (c :: bs)))

theorem encode_of_lt {n : Nat} (h : n < 128) : encode n = [UInt8.ofNat n] := by
  rw [encode, if_pos h]

theorem encode_of_ge {n : Nat} (h : 128 ≤ n) :
    encode n = UInt8.ofNat (n % 128 + 128) :: encode (n / 128) := by
  rw [encode, if_neg (by omega)]

theorem encode_ne_nil (n : Nat) : encode n ≠ [] := by
  rw [encode]; split <;> simp

theorem isField_cons {b : UInt8} {bs : List UInt8} (hne : bs ≠ []) :
    IsField (b :: bs) ↔ 128 ≤ b.toNat ∧ IsField bs := by
  cases bs with
  | nil => exact absurd rfl hne
  | cons c bs => rfl

theorem value_encode (n : Nat) : value (encode n) = n := by
  induction n using Nat.strongRecOn with
  | ind n ih =>
    by_cases h : n < 128
    · rw [encode_of_lt h]
      simp only [value, UInt8.toNat_ofNat']; omega
    · rw [encode_of_ge (by omega), value, ih (n / 128) (by omega), UInt8.toNat_ofNat']
      omega

theorem isField_encode (n : Nat) : IsField (encode n) := by
  induction n using Nat.strongRecOn with
  | ind n ih =>
    by_cases h : n < 128
    · rw [encode_of_lt h]
      show (UInt8.ofNat n).toNat < 128
      rw [UInt8.toNat_ofNat']; omega
    · rw [encode_of_ge (by omega), isField_cons (encode_ne_nil _)]
      refine ⟨?_, ih (n / 128) (by omega)⟩
      rw [UInt8.toNat_ofNat']; omega

theorem length_encode_le (k n : Nat) (h : n < 128 ^ (k + 1)) : (encode n).length ≤ k + 1 := by
  induction k generalizing n with
  | zero => rw [encode_of_lt (by simpa using h)]; simp
  | succ k ih =>
    by_cases h1 : n < 128
    · rw [encode_of_lt h1]; simp
    · rw [encode_of_ge (by omega), List.length_cons]
      have hdiv : n / 128 < 128 ^ (k + 1) := by
        rw [Nat.div_lt_iff_lt_mul (by decide)]
        rwa [Nat.pow_succ] at h
      have := ih (n / 128) hdiv
      omega

theorem length_encode_le_of_isField {bs : List UInt8} (h : IsField bs) :
    (encode (value bs)).length ≤ bs.length := by
  induction bs with
  | nil => exact h.elim
  | cons b bs ih =>
    by_cases hbs : bs = []
    · subst hbs
      have hb : b.toNat < 128 := h
      rw [encode_of_lt (by simp only [value]; omega)]; simp
    · have ih' := ih ((isField_cons hbs).mp h).2
      by_cases hv : value (b :: bs) < 128
      · rw [encode_of_lt hv]; simp
      · rw [encode_of_ge (by omega), List.length_cons, List.length_cons]
        have : value (b :: bs) / 128 = value bs := by simp only [value]; omega
        rw [this]; omega

theorem length_encode {n : Nat} (h : n < 128 ^ 4) :
    (encode n).length =
      if n < 128 then 1 else if n < 16384 then 2 else if n < 2097152 then 3 else 4 := by
  by_cases h1 : n < 128
  · rw [encode_of_lt h1, if_pos h1]; rfl
  rw [if_neg h1, encode_of_ge (by omega)]
  by_cases h2 : n < 16384
  · rw [encode_of_lt (by omega), if_pos h2]; rfl
  rw [if_neg h2, encode_of_ge (by omega)]
  by_cases h3 : n < 2097152
  · rw [encode_of_lt (by omega), if_pos h3]; rfl
  rw [if_neg h3, encode_of_ge (by omega), encode_of_lt (by omega)]; rfl

end AliyunIot.Lib.Varint
