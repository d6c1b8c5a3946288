import AliyunIot.Infra.Cjson
import AliyunIot.Infra.Format

/-!
# Numbers read back

`ReadsDecimals strtod` is what the C library promises of the integers that `%d` prints.
`integerStrtod` is `strtod` on texts that start with an integer and no fraction.
-/

namespace AliyunIot.Cjson

open Format

/-- The integers of a `double` are read back as they are printed. -/
def ReadsDecimals (strtod : Strtod) : Prop :=
  ∀ i : Int, intMin ≤ i → i ≤ intMax → strtod.convert (decimal i) = ((decimal i).length, i)

def IsInt (i : Int) : Prop := intMin ≤ i ∧ i ≤ intMax

instance (i : Int) : Decidable (IsInt i) := inferInstanceAs (Decidable (_ ∧ _))

/-- The `int` that `atoi` makes of a C string. -/
structure Atoi where
  convert : List UInt8 → Int
  isInt : ∀ s, IsInt (convert s)

theorem isInt_saturate (i : Int) : IsInt (saturate i) := by
  unfold IsInt saturate intMin intMax
  split
  · omega
  split <;> omega

theorem saturate_eq_self {i : Int} (hi : IsInt i) : saturate i = i := by
  obtain ⟨hlo, hhi⟩ := hi
  unfold saturate intMin intMax at *
  split
  · omega
  split <;> omega

/-- The number of the digits that a text starts with, and how many there are. -/
def leadingNat (s : List UInt8) : Nat × Nat :=
  let ds := s.takeWhile isDigit
  (ds.length, ds.foldl (fun n b => 10 * n + (b.toNat - 48)) 0)

def integerConvert : List UInt8 → Nat × Int
  | 45 :: s =>
    if (leadingNat s).1 = 0 then (0, 0)
    else ((leadingNat s).1 + 1, -((leadingNat s).2 : Int))
  | s => ((leadingNat s).1, (leadingNat s).2)

theorem leadingNat_le (s : List UInt8) : (leadingNat s).1 ≤ s.length :=
  (List.takeWhile_sublist _).length_le

/-- `atoi` on texts that start with an integer. -/
def integerAtoi : Atoi where
  convert s := saturate (integerConvert s).2
  isInt _ := isInt_saturate _

def integerStrtod : Strtod where
  convert := integerConvert
  converted_le s := by
    unfold integerConvert
    split
    next s =>
      have hle := leadingNat_le s
      split
      · exact Nat.zero_le _
      · rw [List.length_cons]
        omega
    next => exact leadingNat_le _

theorem foldl_digits {cs : List Char} (h : ∀ c ∈ cs, c.toNat < 256) (init : Nat) :
    (cs.map fun c => UInt8.ofNat c.toNat).foldl (fun n b => 10 * n + (b.toNat - 48)) init =
      Nat.ofDigitChars 10 cs init := by
  induction cs generalizing init with
  | nil => simp
  | cons c cs ih =>
    obtain ⟨hc, hcs⟩ := List.forall_mem_cons.mp h
    rw [List.map_cons, List.foldl_cons, ih hcs, Nat.ofDigitChars_cons, UInt8.toNat_ofNat',
      Nat.mod_eq_of_lt hc]
    rfl

theorem leadingNat_digits (n : Nat) : leadingNat (digits n) = ((digits n).length, n) := by
  have hall : (digits n).takeWhile isDigit = digits n := by
    rw [List.takeWhile_eq_self_iff]
    exact fun b hb => isDigit_of_mem_digits hb
  have hsmall : ∀ c ∈ Nat.toDigits 10 n, c.toNat < 256 := by
    intro c hc
    have hdigit := Nat.isDigit_of_mem_toDigits (by decide) (by decide) hc
    simp only [Char.isDigit, Bool.and_eq_true, decide_eq_true_eq, ge_iff_le,
      UInt32.le_iff_toNat_le] at hdigit
    have hhi : c.toNat ≤ 57 := hdigit.2
    omega
  simp only [leadingNat, hall]
  rw [digits, foldl_digits hsmall, Nat.ofDigitChars_toDigits (by decide) (by decide)]

theorem readsDecimals_integerStrtod : ReadsDecimals integerStrtod := by
  intro i _ _
  have hlead := leadingNat_digits i.natAbs
  have hpos := List.length_pos_iff.mpr (digits_ne_nil (n := i.natAbs))
  show integerConvert (decimal i) = _
  by_cases hneg : i < 0
  · rw [decimal, if_pos hneg, integerConvert, hlead]
    simp only [if_neg (Nat.ne_of_gt hpos), List.length_cons, Prod.mk.injEq, true_and]
    omega
  · rw [decimal, if_neg hneg]
    have hfirst : ∀ s, digits i.natAbs ≠ 45 :: s := fun s h => by
      have hdigit :=
        isDigit_of_mem_digits (n := i.natAbs) (b := 45) (by rw [h]; exact List.mem_cons_self)
      cases hdigit
    rw [integerConvert.eq_2 _ hfirst, hlead, Prod.mk.injEq]
    exact ⟨rfl, by omega⟩

end AliyunIot.Cjson
