import AliyunIot.Infra.Strtod

/-!
# `atoi`

White space, a sign and digits, up to the first byte that is none. A number that is no `int`
is taken to the nearest one.
-/

namespace AliyunIot.Libc

open Format Cjson

def isspace (b : UInt8) : Bool := b = 32 || 9 ≤ b && b ≤ 13

def atoi (s : List UInt8) : Int :=
  match s.dropWhile isspace with
  | 45 :: ds => saturate (-((leadingNat ds).2 : Int))
  | 43 :: ds => saturate (leadingNat ds).2
  | ds => saturate (leadingNat ds).2

theorem digit_bounds {b : UInt8} (h : isDigit b = true) : 48 ≤ b.toNat ∧ b.toNat ≤ 57 := by
  simp only [isDigit, Bool.and_eq_true, decide_eq_true_eq, UInt8.le_iff_toNat_le] at h
  exact h

theorem dropWhile_isspace_digits {ds : List UInt8} (h : ∀ b ∈ ds, isDigit b = true) :
    ds.dropWhile isspace = ds := by
  cases ds with
  | nil => rfl
  | cons b ds =>
    obtain ⟨hlo, -⟩ := digit_bounds (h b List.mem_cons_self)
    have hspace : isspace b = false := by
      simp only [isspace, Bool.or_eq_false_iff, decide_eq_false_iff_not, Bool.and_eq_false_iff,
        UInt8.le_iff_toNat_le]
      refine ⟨?_, .inr ?_⟩
      · rintro rfl
        revert hlo
        decide
      · show ¬ b.toNat ≤ 13
        omega
    rw [List.dropWhile_cons_of_neg (by simp [hspace])]

theorem head_ne_of_digits {b c : UInt8} {ds s : List UInt8} (h : ∀ b ∈ ds, isDigit b = true)
    (heq : ds = c :: s) (hb : isDigit b = false) : c ≠ b := by
  rintro rfl
  rw [h c (heq ▸ List.mem_cons_self)] at hb
  cases hb

theorem atoi_digits {ds : List UInt8} (h : ∀ b ∈ ds, isDigit b = true) :
    atoi ds = saturate (leadingNat ds).2 := by
  unfold atoi
  rw [dropWhile_isspace_digits h]
  split
  next => exact absurd rfl (head_ne_of_digits h rfl rfl)
  next => exact absurd rfl (head_ne_of_digits h rfl rfl)
  next => rfl

theorem atoi_decimal {i : Int} (h : IsInt i) : atoi (decimal i) = i := by
  have hdigits : ∀ b ∈ digits i.natAbs, isDigit b = true := fun b hb => isDigit_of_mem_digits hb
  by_cases hneg : i < 0
  · have habs : -(i.natAbs : Int) = i := by omega
    rw [decimal, if_pos hneg]
    calc atoi (45 :: digits i.natAbs) = saturate (-((leadingNat (digits i.natAbs)).2 : Int)) := rfl
      _ = saturate i := by rw [leadingNat_digits, habs]
      _ = i := saturate_eq_self h
  · have habs : (i.natAbs : Int) = i := by omega
    rw [decimal, if_neg hneg, atoi_digits hdigits, leadingNat_digits, habs]
    exact saturate_eq_self h

theorem foldl_digits_lt {ds : List UInt8} (h : ∀ b ∈ ds, isDigit b = true) (n : Nat) :
    ds.foldl (fun n b => 10 * n + (b.toNat - 48)) n < (n + 1) * 10 ^ ds.length := by
  induction ds generalizing n with
  | nil => simp
  | cons b ds ih =>
    obtain ⟨hb, hds⟩ := List.forall_mem_cons.mp h
    obtain ⟨-, hhi⟩ := digit_bounds hb
    have hstep : 10 * n + (b.toNat - 48) + 1 ≤ (n + 1) * 10 := by omega
    calc (b :: ds).foldl (fun n b => 10 * n + (b.toNat - 48)) n
        < (10 * n + (b.toNat - 48) + 1) * 10 ^ ds.length := ih hds _
      _ ≤ (n + 1) * 10 * 10 ^ ds.length := Nat.mul_le_mul_right _ hstep
      _ = (n + 1) * 10 ^ (b :: ds).length := by
        rw [List.length_cons, Nat.pow_succ, Nat.mul_assoc, Nat.mul_comm 10]

theorem leadingNat_lt (s : List UInt8) : (leadingNat s).2 < 10 ^ s.length := by
  have hlt := foldl_digits_lt (fun b hb => List.mem_takeWhile_imp (p := isDigit) (l := s) hb) 0
  calc (leadingNat s).2 < (0 + 1) * 10 ^ (s.takeWhile isDigit).length := hlt
    _ = 10 ^ (s.takeWhile isDigit).length := by rw [Nat.zero_add, Nat.one_mul]
    _ ≤ 10 ^ s.length := Nat.pow_le_pow_right (by omega) (leadingNat_le s)

/-! ## What follows a text -/

def behindSign : List UInt8 → List UInt8
  | [] => []
  | b :: ds => if b = 45 ∨ b = 43 then ds else b :: ds

/-- The text behind white space and sign. -/
def numberPart (s : List UInt8) : List UInt8 := behindSign (s.dropWhile isspace)

/-- The number of a text is settled: something that is no digit ends it, or it is out of the range
of an `int`. -/
def Settled (s : List UInt8) : Prop :=
  (∃ b ∈ numberPart s, isDigit b = false) ∨ intMax ≤ atoi s ∨ atoi s ≤ intMin

instance (s : List UInt8) : Decidable (Settled s) :=
  inferInstanceAs (Decidable ((∃ b ∈ numberPart s, isDigit b = false) ∨ _))

/-- The text has a minus sign. -/
def isNegative (s : List UInt8) : Bool := (s.dropWhile isspace).head? = some 45

theorem atoi_eq (s : List UInt8) :
    atoi s = saturate (if isNegative s then -((leadingNat (numberPart s)).2 : Int)
      else (leadingNat (numberPart s)).2) := by
  unfold atoi isNegative numberPart
  generalize s.dropWhile isspace = ds
  split
  · rfl
  · rfl
  · next hneg hpos =>
    cases ds with
    | nil => rfl
    | cons b ds =>
      have hsign : ¬ (b = 45 ∨ b = 43) := by
        rintro (rfl | rfl)
        · exact hneg ds rfl
        · exact hpos ds rfl
      rw [behindSign, if_neg hsign, List.head?_cons, if_neg]
      rw [decide_eq_true_eq, Option.some_inj]
      exact fun h => hsign (.inl h)

theorem numberPart_append {s t : List UInt8} (h : s.dropWhile isspace ≠ [] ∨ t = [49]) :
    isNegative (s ++ t) = isNegative s ∧ numberPart (s ++ t) = numberPart s ++ t := by
  unfold isNegative numberPart
  rcases hs : s.dropWhile isspace with _ | ⟨b, ds⟩
  · obtain rfl : t = [49] := h.resolve_left (not_not.mpr hs)
    rw [List.dropWhile_append, if_pos (by rw [hs]; rfl)]
    exact ⟨rfl, rfl⟩
  · rw [List.dropWhile_append, if_neg (by rw [hs]; exact Bool.false_ne_true), hs]
    refine ⟨rfl, ?_⟩
    rw [List.cons_append, behindSign, behindSign]
    split <;> rfl

theorem le_foldl_digits (ds : List UInt8) (n : Nat) :
    n ≤ ds.foldl (fun n b => 10 * n + (b.toNat - 48)) n := by
  induction ds generalizing n with
  | nil => exact Nat.le_refl n
  | cons b ds ih =>
    calc n ≤ 10 * n + (b.toNat - 48) := by omega
      _ ≤ _ := ih _

theorem leadingNat_append (ds t : List UInt8) :
    (leadingNat ds).2 ≤ (leadingNat (ds ++ t)).2 ∧
      ((∃ b ∈ ds, isDigit b = false) → (leadingNat (ds ++ t)).2 = (leadingNat ds).2) ∧
      ((∀ b ∈ ds, isDigit b = true) → t = [49] →
        (leadingNat (ds ++ t)).2 = 10 * (leadingNat ds).2 + 1) := by
  by_cases hall : ∀ b ∈ ds, isDigit b = true
  · have htake : (ds ++ t).takeWhile isDigit = ds ++ t.takeWhile isDigit :=
      List.takeWhile_append_of_pos hall
    have hself : ds.takeWhile isDigit = ds := List.takeWhile_eq_self_iff.mpr hall
    unfold leadingNat
    simp only [htake, hself, List.foldl_append]
    refine ⟨le_foldl_digits _ _, ?_, ?_⟩
    · rintro ⟨b, hb, hno⟩
      rw [hall b hb] at hno
      cases hno
    · rintro - rfl
      exact rfl
  · have htake : (ds ++ t).takeWhile isDigit = ds.takeWhile isDigit := by
      rw [List.takeWhile_append, if_neg]
      intro hlen
      have hself := (List.takeWhile_sublist isDigit).eq_of_length hlen
      exact hall (List.takeWhile_eq_self_iff.mp hself)
    unfold leadingNat
    simp only [htake]
    exact ⟨Nat.le_refl _, fun _ => trivial, fun h => absurd h hall⟩

theorem saturate_of_le {i : Int} (h : intMax ≤ i) : saturate i = intMax := if_pos h

theorem saturate_of_ge {i : Int} (h : i ≤ intMin) : saturate i = intMin := by
  have hlt : ¬ i ≥ intMax := by
    unfold intMin intMax at *
    omega
  rw [saturate, if_neg hlt, if_pos h]

theorem le_of_saturate {i : Int} :
    (intMax ≤ saturate i ↔ intMax ≤ i) ∧ (saturate i ≤ intMin ↔ i ≤ intMin) := by
  unfold saturate intMax intMin
  split
  · omega
  · split <;> omega

theorem atoi_append_of_settled {s : List UInt8} (h : Settled s) (t : List UInt8) :
    atoi (s ++ t) = atoi s := by
  have hs : s.dropWhile isspace ≠ [] := by
    intro hnil
    have hpart : numberPart s = [] := by rw [numberPart, hnil]; rfl
    have hzero : atoi s = 0 := by rw [atoi, hnil]; rfl
    rw [Settled, hpart, hzero] at h
    revert h
    decide
  obtain ⟨hneg, hpart⟩ := numberPart_append (t := t) (.inl hs)
  obtain ⟨hle, hends, -⟩ := leadingNat_append (numberPart s) t
  rw [Settled, atoi_eq s] at h
  rw [atoi_eq, atoi_eq, hneg, hpart]
  rcases h with hend | hrange
  · rw [hends hend]
  rw [le_of_saturate.1, le_of_saturate.2] at hrange
  cases hsign : isNegative s with
  | true =>
    rw [hsign] at hrange
    simp only [if_true] at hrange ⊢
    have hmin : -((leadingNat (numberPart s)).2 : Int) ≤ intMin := by
      unfold intMax intMin at *
      omega
    rw [saturate_of_ge hmin, saturate_of_ge (by omega)]
  | false =>
    rw [hsign] at hrange
    simp only [Bool.false_eq_true, if_false] at hrange ⊢
    have hmax : intMax ≤ ((leadingNat (numberPart s)).2 : Int) := by
      unfold intMax intMin at *
      omega
    rw [saturate_of_le hmax, saturate_of_le (by omega)]

theorem atoi_append_one {s : List UInt8} (h : ¬ Settled s) : atoi (s ++ [49]) ≠ atoi s := by
  obtain ⟨hneg, hpart⟩ := numberPart_append (s := s) (t := [49]) (.inr rfl)
  obtain ⟨hdigits, hrange⟩ := not_or.mp h
  have hall : ∀ b ∈ numberPart s, isDigit b = true := by
    intro b hb
    by_contra hno
    exact hdigits ⟨b, hb, Bool.eq_false_iff.mpr hno⟩
  have hone := (leadingNat_append (numberPart s) [49]).2.2 hall rfl
  rw [atoi_eq s, le_of_saturate.1, le_of_saturate.2] at hrange
  rw [atoi_eq, atoi_eq, hneg, hpart, hone]
  generalize (leadingNat (numberPart s)).2 = n at hrange ⊢
  unfold saturate intMax intMin at *
  cases hsign : isNegative s <;> rw [hsign] at hrange <;>
    simp only [if_true, Bool.false_eq_true, if_false] at hrange ⊢ <;> omega

end AliyunIot.Libc
