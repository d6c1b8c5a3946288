import Mathlib.Data.List.Basic

/-!
# Hexadecimal text

`infra_hex2str` and `LITE_hexstr_convert`. A text that the first makes is turned back by
the second into the bytes it was made of (`liteHexstrConvert_infraHex2str`).
-/

namespace AliyunIot

def zEncode (digit : UInt8) : UInt8 := if digit < 10 then 0x30 + digit else 0x41 + (digit - 10)

def infraHex2str (input : List UInt8) : List UInt8 :=
  input.flatMap fun (b : UInt8) => [zEncode ((b >>> 4) &&& 0xf), zEncode (b &&& 0xf)]

def hexvalOfChar (hex : UInt8) : UInt8 :=
  if 0x30 ≤ hex ∧ hex ≤ 0x39 then hex - 0x30
  else if 0x61 ≤ hex ∧ hex ≤ 0x66 then hex - 0x61 + 10
  else if 0x41 ≤ hex ∧ hex ≤ 0x46 then hex - 0x41 + 10
  else 0

/-- The loop of `LITE_hexstr_convert`: the bytes of `output` are written while there are
two characters left for them. -/
def hexstrLoop : List UInt8 → List UInt8 → List UInt8
  | c0 :: c1 :: input, _ :: output =>
    (hexvalOfChar c0 <<< 4 ||| hexvalOfChar c1) :: hexstrLoop input output
  | _, output => output

/-- `LITE_hexstr_convert` into a buffer that holds `output`. -/
def liteHexstrConvert (input output : List UInt8) : List UInt8 :=
  if input.length % 2 ≠ 0 then output else hexstrLoop input output

theorem hexvalOfChar_zEncode (b : UInt8) :
    hexvalOfChar (zEncode ((b >>> 4) &&& 0xf)) <<< 4 |||
      hexvalOfChar (zEncode (b &&& 0xf)) = b := by
  have hall : ∀ n < 256, hexvalOfChar (zEncode ((UInt8.ofNat n >>> 4) &&& 0xf)) <<< 4 |||
      hexvalOfChar (zEncode (UInt8.ofNat n &&& 0xf)) = UInt8.ofNat n := by decide +kernel
  have hb := hall b.toNat b.toNat_lt
  rw [UInt8.ofNat_toNat] at hb
  exact hb

theorem plain_zEncode {digit : UInt8} (h : digit < 16) :
    zEncode digit ≠ 0 ∧ zEncode digit ≠ 34 ∧ zEncode digit ≠ 92 := by
  have hall : ∀ n < 16, zEncode (UInt8.ofNat n) ≠ 0 ∧ zEncode (UInt8.ofNat n) ≠ 34 ∧
      zEncode (UInt8.ofNat n) ≠ 92 := by decide
  have hdigit := hall digit.toNat (UInt8.lt_iff_toNat_lt.mp h)
  rw [UInt8.ofNat_toNat] at hdigit
  exact hdigit

theorem lowNibble_lt (b : UInt8) : b &&& 0xf < 16 := by
  rw [UInt8.lt_iff_toNat_lt, UInt8.toNat_and]
  exact Nat.lt_succ_of_le Nat.and_le_right

theorem plain_infraHex2str {input : List UInt8} {c : UInt8} (h : c ∈ infraHex2str input) :
    c ≠ 0 ∧ c ≠ 34 ∧ c ≠ 92 := by
  obtain ⟨b, -, hc⟩ := List.mem_flatMap.mp h
  rcases List.mem_cons.mp hc with rfl | hc
  · exact plain_zEncode (lowNibble_lt _)
  · obtain rfl := List.mem_singleton.mp hc
    exact plain_zEncode (lowNibble_lt _)

theorem infraHex2str_length (input : List UInt8) :
    (infraHex2str input).length = 2 * input.length := by
  induction input with
  | nil => rfl
  | cons b input ih =>
    rw [infraHex2str, List.flatMap_cons, List.length_append, ← infraHex2str, ih]
    simp only [List.length_cons, List.length_nil]
    omega

theorem hexstrLoop_infraHex2str {input output : List UInt8} (hlen : output.length = input.length) :
    hexstrLoop (infraHex2str input) output = input := by
  induction input generalizing output with
  | nil => exact List.length_eq_zero_iff.mp hlen
  | cons b input ih =>
    cases output with
    | nil => cases hlen
    | cons c output =>
      have hcons : infraHex2str (b :: input) =
          zEncode ((b >>> 4) &&& 0xf) :: zEncode (b &&& 0xf) :: infraHex2str input := rfl
      rw [hcons, hexstrLoop, hexvalOfChar_zEncode, ih (Nat.succ_inj.mp hlen)]

theorem liteHexstrConvert_infraHex2str {input output : List UInt8}
    (hlen : output.length = input.length) :
    liteHexstrConvert (infraHex2str input) output = input := by
  have heven : ¬ (infraHex2str input).length % 2 ≠ 0 := by
    rw [infraHex2str_length]
    omega
  rw [liteHexstrConvert, if_neg heven, hexstrLoop_infraHex2str hlen]

end AliyunIot
