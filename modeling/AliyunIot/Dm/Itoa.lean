import AliyunIot.Infra.Atoi
import AliyunIot.Infra.CharBuf
import AliyunIot.Infra.State

/-!
# Numerals of the device model

`dm_utils_itoa` and `dm_utils_itoa_direct` print a number into an array of eleven bytes, of which
they let `HAL_Snprintf` have ten. A numeral of ten or eleven characters is cut off (`rendered_iff`).
-/

namespace AliyunIot.Dm.Itoa

open Format Libc

abbrev sysDependSnprintf : Int := State.sysDependBase - 0x000E

/-- `HAL_Snprintf` with `"%d"`: the length of the numeral, and the array after it. -/
def halSnprintf (str : CharBuf) (len : Nat) (input : Int32) : Int × CharBuf :=
  let numeral := decimal input.toInt
  (numeral.length, str.put 0 (snprintf len numeral ++ [0]))

/-- What the two functions have in common. `output` is none where it is `NULL`, and else what the
pointer leads to before and after the call. -/
def itoaInto (malloc : Bool) (input : Int32) (output : Option (Option CharBuf)) :
    Int × Option (Option CharBuf) :=
  match output with
  | some none =>
    let (res, tempOutput) := halSnprintf (CharBuf.zeros (10 + 1)) 10 input
    if res < 0 then (sysDependSnprintf, some none)
    else if malloc = false then (State.sysDependMalloc, some none)
    else
      let s := tempOutput.string
      (State.success, some (some ((CharBuf.zeros (s.strlen + 1)).copy s)))
  | _ => (State.userInputInvalid, output)

def dmUtilsItoaDirect (halMalloc : Bool) := itoaInto halMalloc

def dmUtilsItoa (dmMalloc : Bool) := itoaInto dmMalloc

/-- The call has given the numeral of the number, and it is read back. -/
def IsNumeral (input : Int32) (result : Int × Option (Option CharBuf)) : Prop :=
  ∃ buf s, result = (State.success, some (some buf)) ∧ buf.text = some s ∧
    s.val = decimal input.toInt ∧ atoi s.val = input.toInt

theorem length_decimal_le_nine {i : Int} :
    (decimal i).length ≤ 9 ↔ -99999999 ≤ i ∧ i ≤ 999999999 := by
  by_cases hneg : i < 0
  · have hlen : (digits i.natAbs).length ≤ 8 ↔ i.natAbs < 100000000 := by
      rw [digits, List.length_map]
      exact Nat.length_toDigits_le_iff (by decide) (by decide)
    rw [decimal, if_pos hneg, List.length_cons]
    omega
  · have hlen : (digits i.natAbs).length ≤ 9 ↔ i.natAbs < 1000000000 := by
      rw [digits, List.length_map]
      exact Nat.length_toDigits_le_iff (by decide) (by decide)
    rw [decimal, if_neg hneg, hlen]
    omega

theorem zero_not_mem_decimal {i : Int} : (0 : UInt8) ∉ decimal i := fun h => by
  rcases mem_decimal h with h | h
  · exact absurd h (by decide)
  · exact absurd h (by decide)

variable (input : Int32)

theorem tempOutput_string :
    (halSnprintf (CharBuf.zeros (10 + 1)) 10 input).2.string.val =
      (decimal input.toInt).take 9 := by
  have h0 : (0 : UInt8) ∉ (decimal input.toInt).take 9 :=
    fun h => zero_not_mem_decimal (List.mem_of_mem_take h)
  rw [halSnprintf, CharBuf.put, List.take_zero, List.nil_append, List.append_assoc]
  exact precision_append_zero h0

theorem itoaInto_eq : ∃ buf s,
    itoaInto true input (some none) = (State.success, some (some buf)) ∧ buf.text = some s ∧
      s.val = (decimal input.toInt).take 9 := by
  have hres : ¬ (halSnprintf (CharBuf.zeros (10 + 1)) 10 input).1 < 0 :=
    Int.not_lt.mpr (Int.natCast_nonneg _)
  refine ⟨_, _, ?_, CharBuf.text_copy_zeros (Nat.lt_succ_self _), tempOutput_string input⟩
  rw [itoaInto]
  exact if_neg hres

theorem isNumeral_iff :
    IsNumeral input (itoaInto true input (some none)) ↔ (decimal input.toInt).length ≤ 9 := by
  obtain ⟨buf, s, hresult, htext, hs⟩ := itoaInto_eq input
  rw [hresult]
  constructor
  · rintro ⟨buf', s', heq, htext', hs', -⟩
    obtain rfl : buf = buf' := by simpa using heq
    obtain rfl : s = s' := Option.some.inj (htext.symm.trans htext')
    rw [← hs', hs]
    exact List.length_take_le _ _
  · intro hle
    rw [List.take_of_length_le hle] at hs
    refine ⟨buf, s, rfl, htext, hs, ?_⟩
    rw [hs]
    exact atoi_decimal ⟨input.minValue_le_toInt, input.toInt_le⟩

/-- Both functions give the numeral of the numbers that have no more than nine characters, and of
no others. -/
theorem rendered_iff (input : Int32) :
    IsNumeral input (dmUtilsItoaDirect true input (some none)) ∧
        IsNumeral input (dmUtilsItoa true input (some none)) ↔
      -99999999 ≤ input.toInt ∧ input.toInt ≤ 999999999 := by
  rw [← length_decimal_le_nine, ← isNumeral_iff]
  exact and_self_iff

/-- The last digit of a number is lost. -/
theorem tenth_digit_lost : ¬ IsNumeral 1000000000 (dmUtilsItoa true 1000000000 (some none)) := by
  intro h
  have hle := (isNumeral_iff 1000000000).mp h
  exact absurd hle (by decide)

end AliyunIot.Dm.Itoa
