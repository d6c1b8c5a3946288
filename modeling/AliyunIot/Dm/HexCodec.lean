import AliyunIot.Infra.Hex
import AliyunIot.Infra.State

/-!
# Hexadecimal text of the device model

`dm_utils_hex_to_str` and `dm_utils_str_to_hex` of `dm_utils.c`. What the first writes the second
reads back (`strToHex_hexToStr`). A lower-case digit is none of the second's, and gets the value of
the digit before it; so it agrees with `LITE_hexstr_convert` only on some texts (`codecs_iff`).
-/

namespace AliyunIot.Dm.HexCodec

open State

/-- Bytes whose number is an `int`. -/
abbrev Input := {s : List UInt8 // s.length < 2147483648}

/-- What `iter_char` becomes of a nibble. -/
def hexChar (nibble : UInt8) : UInt8 := if nibble ≤ 9 then nibble + 0x30 else nibble + (0x41 - 0x0A)

def hexToStrLoop (input : List UInt8) : List UInt8 :=
  input.flatMap fun (b : UInt8) => [hexChar ((b >>> 4) &&& 0x0F), hexChar (b &&& 0x0F)]

/-- `dm_utils_hex_to_str`, none where `output_len` leaves its range. -/
def dmUtilsHexToStr (input : Input) (malloc : Bool) : Option (Except Int (List UInt8)) :=
  if input.val = [] then some (.error userInputInvalid)
  else if 2147483648 ≤ 2 * input.val.length then none
  else if malloc then some (.ok (hexToStrLoop input.val)) else some (.error sysDependMalloc)

/-- `iter_char` after one more character: without a branch for it, it stays. -/
def nextIterChar (iterChar c : UInt8) : UInt8 :=
  if 0x30 ≤ c ∧ c ≤ 0x39 then c - 0x30
  else if 0x41 ≤ c ∧ c ≤ 0x46 then c - 0x41 + 0x0A
  else iterChar

/-- The loop of `dm_utils_str_to_hex`; the bytes of the output are zero before it. -/
def strToHexLoop (iterChar : UInt8) : List UInt8 → List UInt8
  | c0 :: c1 :: input =>
    let hi := nextIterChar iterChar c0
    let lo := nextIterChar hi c1
    (((hi <<< 4) &&& 0xF0) ||| (lo &&& 0x0F)) :: strToHexLoop lo input
  | _ => []

def dmUtilsStrToHex (input : Input) (malloc : Bool) : Except Int (List UInt8) :=
  if input.val = [] ∨ input.val.length % 2 ≠ 0 then .error userInputInvalid
  else if malloc then .ok (strToHexLoop 0 input.val) else .error sysDependMalloc

/-! ## Hexadecimal digits -/

def hexValue (c : UInt8) : Option UInt8 :=
  if 0x30 ≤ c ∧ c ≤ 0x39 then some (c - 0x30)
  else if 0x41 ≤ c ∧ c ≤ 0x46 then some (c - 0x41 + 10)
  else if 0x61 ≤ c ∧ c ≤ 0x66 then some (c - 0x61 + 10)
  else none

/-- The text has two digits for each byte. -/
inductive Denotes : List UInt8 → List UInt8 → Prop where
  | nil : Denotes [] []
  | pair {c0 c1 hi lo : UInt8} {s bytes : List UInt8} (h0 : hexValue c0 = some hi)
    (h1 : hexValue c1 = some lo) (h : Denotes s bytes) :
    Denotes (c0 :: c1 :: s) ((16 * hi + lo) :: bytes)

abbrev IsLower (c : UInt8) : Prop := 0x61 ≤ c ∧ c ≤ 0x66

/-- Each lower-case digit has the value of the last digit before it that is none, where `value`
stands for what comes before the text. -/
def Carried : UInt8 → List UInt8 → Prop
  | _, [] => True
  | value, c :: s =>
    if IsLower c then hexValue c = some value ∧ Carried value s
    else Carried ((hexValue c).getD value) s

section Digits

variable {c hi lo hi' lo' value : UInt8} {s bytes : List UInt8}

theorem hexValue_lt {v : UInt8} (h : hexValue c = some v) : v < 16 := by
  rw [UInt8.lt_iff_toNat_lt]
  unfold hexValue at h
  simp only [UInt8.le_iff_toNat_le] at h
  have hc := c.toNat_lt
  split at h
  · cases h
    rw [UInt8.toNat_sub]
    simp only [UInt8.toNat_ofNat] at *
    omega
  · split at h
    · cases h
      rw [UInt8.toNat_add, UInt8.toNat_sub]
      simp only [UInt8.toNat_ofNat] at *
      omega
    · split at h
      · cases h
        rw [UInt8.toNat_add, UInt8.toNat_sub]
        simp only [UInt8.toNat_ofNat] at *
        omega
      · cases h

theorem hexvalOfChar_of_value {v : UInt8} (h : hexValue c = some v) : hexvalOfChar c = v := by
  unfold hexValue at h
  unfold hexvalOfChar
  simp only [UInt8.le_iff_toNat_le, UInt8.toNat_ofNat] at h ⊢
  split at h
  next hdigit =>
    rw [if_pos hdigit]
    exact Option.some.inj h
  next hdigit =>
    rw [if_neg hdigit]
    split at h
    next hupper =>
      rw [if_neg (by omega), if_pos hupper]
      exact Option.some.inj h
    next hupper =>
      split at h
      next hlower =>
        rw [if_pos hlower]
        exact Option.some.inj h
      next => cases h

theorem nextIterChar_of_value {v : UInt8} (value : UInt8) (h : hexValue c = some v) :
    (IsLower c ∧ nextIterChar value c = value) ∨ (¬ IsLower c ∧ nextIterChar value c = v) := by
  unfold hexValue at h
  unfold nextIterChar IsLower
  simp only [UInt8.le_iff_toNat_le, UInt8.toNat_ofNat] at h ⊢
  split at h
  next hdigit =>
    refine .inr ⟨by omega, ?_⟩
    rw [if_pos hdigit]
    exact Option.some.inj h
  next hdigit =>
    rw [if_neg hdigit]
    split at h
    next hupper =>
      refine .inr ⟨by omega, ?_⟩
      rw [if_pos hupper]
      exact Option.some.inj h
    next hupper =>
      split at h
      next hlower => exact .inl ⟨hlower, if_neg hupper⟩
      next => cases h

theorem and_low (b : UInt8) : (b &&& 0x0F).toNat = b.toNat % 16 := by
  rw [UInt8.toNat_and]
  exact Nat.and_two_pow_sub_one_eq_mod b.toNat 4

theorem shift_right (b : UInt8) : (b >>> 4).toNat = b.toNat / 16 := by
  rw [UInt8.toNat_shiftRight]
  exact Nat.shiftRight_eq_div_pow b.toNat 4

theorem hexValue_hexChar (h : hi < 16) :
    hexValue (hexChar hi) = some hi ∧ ¬ IsLower (hexChar hi) := by
  have hall : ∀ n < 16, hexValue (hexChar (UInt8.ofNat n)) = some (UInt8.ofNat n) ∧
      ¬ (0x61 ≤ hexChar (UInt8.ofNat n) ∧ hexChar (UInt8.ofNat n) ≤ 0x66) := by decide
  have hdigit := hall hi.toNat (UInt8.lt_iff_toNat_lt.mp h)
  rw [UInt8.ofNat_toNat] at hdigit
  exact hdigit

theorem shift_or (hlo : lo < 16) (hhi : hi < 16) : (hi <<< 4 ||| lo) = 16 * hi + lo := by
  rw [UInt8.lt_iff_toNat_lt] at hlo hhi
  change lo.toNat < 16 at hlo
  change hi.toNat < 16 at hhi
  apply UInt8.toNat_inj.mp
  have hshift : (hi <<< 4).toNat = hi.toNat <<< 4 := by
    rw [UInt8.toNat_shiftLeft]
    apply Nat.mod_eq_of_lt
    rw [Nat.shiftLeft_eq]
    show hi.toNat * 16 < 256
    omega
  rw [UInt8.toNat_or, hshift, Nat.shiftLeft_eq, Nat.mul_comm,
    ← Nat.two_pow_add_eq_or_of_lt (i := 4) hlo, UInt8.toNat_add, UInt8.toNat_mul]
  show 16 * hi.toNat + lo.toNat = (16 * hi.toNat % 256 + lo.toNat) % 256
  omega

theorem masked_or (hlo : lo < 16) (hhi : hi < 16) :
    (((hi <<< 4) &&& 0xF0) ||| (lo &&& 0x0F)) = 16 * hi + lo := by
  have hall : ∀ n < 16, ((UInt8.ofNat n <<< (4 : UInt8)) &&& (0xF0 : UInt8)) =
      UInt8.ofNat n <<< (4 : UInt8) := by decide
  have hhigh := hall hi.toNat (UInt8.lt_iff_toNat_lt.mp hhi)
  rw [UInt8.ofNat_toNat] at hhigh
  have hlow : lo &&& 0x0F = lo := by
    apply UInt8.toNat_inj.mp
    rw [and_low]
    exact Nat.mod_eq_of_lt (UInt8.lt_iff_toNat_lt.mp hlo)
  rw [hhigh, hlow, shift_or hlo hhi]

theorem nibbles_inj (hlo : lo < 16) (hhi : hi < 16) (hlo' : lo' < 16) (hhi' : hi' < 16) :
    16 * hi + lo = 16 * hi' + lo' ↔ hi = hi' ∧ lo = lo' := by
  simp only [UInt8.lt_iff_toNat_lt, UInt8.toNat_ofNat] at hlo hhi hlo' hhi'
  simp only [← UInt8.toNat_inj, UInt8.toNat_add, UInt8.toNat_mul, UInt8.toNat_ofNat]
  omega

theorem nibbles_of_byte (b : UInt8) :
    (16 : UInt8) * ((b >>> (4 : UInt8)) &&& 0x0F) + (b &&& 0x0F) = b := by
  apply UInt8.toNat_inj.mp
  have hb := b.toNat_lt
  rw [UInt8.toNat_add, UInt8.toNat_mul, and_low, and_low, shift_right]
  show (16 * (b.toNat / 16 % 16) % 256 + b.toNat % 16) % 256 = b.toNat
  omega

theorem nibble_lt (b : UInt8) : b &&& 0x0F < 16 := by
  rw [UInt8.lt_iff_toNat_lt, and_low]
  exact Nat.mod_lt _ (by decide)

end Digits

/-! ## Writing and reading back -/

section Codecs

variable {c value : UInt8} {s bytes : List UInt8}

theorem denotes_hexToStrLoop (input : List UInt8) : Denotes (hexToStrLoop input) input := by
  induction input with
  | nil => exact .nil
  | cons b input ih =>
    have h := Denotes.pair (hexValue_hexChar (nibble_lt (b >>> 4))).1
      (hexValue_hexChar (nibble_lt b)).1 ih
    rwa [nibbles_of_byte] at h

theorem carried_hexToStrLoop (value : UInt8) (input : List UInt8) :
    Carried value (hexToStrLoop input) := by
  induction input generalizing value with
  | nil => trivial
  | cons b input ih =>
    have hhi := hexValue_hexChar (nibble_lt (b >>> 4))
    have hlo := hexValue_hexChar (nibble_lt b)
    rw [hexToStrLoop, List.flatMap_cons]
    show Carried value (_ :: _ :: hexToStrLoop input)
    rw [Carried, if_neg hhi.2, Carried, if_neg hlo.2]
    exact ih _

theorem carried_cons_iff {v : UInt8} (h : hexValue c = some v) :
    Carried value (c :: s) ↔ nextIterChar value c = v ∧ Carried (nextIterChar value c) s := by
  rw [Carried]
  rcases nextIterChar_of_value value h with ⟨hlower, hnext⟩ | ⟨hnot, hnext⟩
  · rw [if_pos hlower, hnext, h, Option.some.injEq, eq_comm]
  · rw [if_neg hnot, hnext, h, Option.getD_some, and_iff_right rfl]

theorem nextIterChar_lt {v : UInt8} (h : hexValue c = some v) (hvalue : value < 16) :
    nextIterChar value c < 16 := by
  rcases nextIterChar_of_value value h with ⟨-, hnext⟩ | ⟨-, hnext⟩
  · rw [hnext]
    exact hvalue
  · rw [hnext]
    exact hexValue_lt h

theorem strToHexLoop_iff (h : Denotes s bytes) (hvalue : value < 16) :
    strToHexLoop value s = bytes ↔ Carried value s := by
  induction h generalizing value with
  | nil => exact iff_of_true rfl trivial
  | @pair c0 c1 hi lo s bytes h0 h1 h ih =>
    have hnext0 := nextIterChar_lt h0 hvalue
    have hnext1 := nextIterChar_lt h1 hnext0
    rw [strToHexLoop, List.cons.injEq, masked_or hnext1 hnext0,
      nibbles_inj hnext1 hnext0 (hexValue_lt h1) (hexValue_lt h0), ih hnext1, and_assoc,
      carried_cons_iff h0, carried_cons_iff h1]

theorem hexstrLoop_of_denotes {output : List UInt8} (h : Denotes s bytes)
    (hlen : output.length = bytes.length) : hexstrLoop s output = bytes := by
  induction h generalizing output with
  | nil => exact List.eq_nil_of_length_eq_zero hlen
  | pair h0 h1 _ ih =>
    cases output with
    | nil => cases hlen
    | cons b output =>
      rw [hexstrLoop, hexvalOfChar_of_value h0, hexvalOfChar_of_value h1,
        shift_or (hexValue_lt h1) (hexValue_lt h0), ih (Nat.succ.inj hlen)]

theorem length_of_denotes (h : Denotes s bytes) : s.length = 2 * bytes.length := by
  induction h with
  | nil => rfl
  | pair _ _ _ ih =>
    rw [List.length_cons, List.length_cons, List.length_cons, ih]
    omega

theorem liteHexstrConvert_of_denotes {output : List UInt8} (h : Denotes s bytes)
    (hlen : output.length = bytes.length) : liteHexstrConvert s output = bytes := by
  have heven : ¬ s.length % 2 ≠ 0 := by
    rw [length_of_denotes h]
    omega
  rw [liteHexstrConvert, if_neg heven, hexstrLoop_of_denotes h hlen]

theorem dmUtilsStrToHex_eq {s : Input} (h : Denotes s.val bytes) (malloc : Bool) :
    dmUtilsStrToHex s malloc = .ok bytes ↔ malloc = true ∧ s.val ≠ [] ∧ Carried 0 s.val := by
  have heven : ¬ s.val.length % 2 ≠ 0 := by
    rw [length_of_denotes h]
    omega
  rw [dmUtilsStrToHex]
  by_cases hempty : s.val = []
  · rw [if_pos (.inl hempty)]
    exact iff_of_false nofun fun h => h.2.1 hempty
  · rw [if_neg (not_or.mpr ⟨hempty, heven⟩)]
    cases malloc with
    | false => exact iff_of_false nofun nofun
    | true =>
      rw [if_pos rfl, Except.ok.injEq, strToHexLoop_iff h (by decide)]
      exact ⟨fun h => ⟨rfl, hempty, h⟩, fun h => h.2.2⟩

theorem strToHex_hexToStr {t : Input} (ht : t.val = hexToStrLoop bytes) (hne : bytes ≠ []) :
    dmUtilsStrToHex t true = .ok bytes := by
  have hdenotes : Denotes t.val bytes := ht ▸ denotes_hexToStrLoop bytes
  refine (dmUtilsStrToHex_eq hdenotes true).mpr ⟨rfl, fun hnil => hne ?_, ?_⟩
  · have hlen := length_of_denotes hdenotes
    rw [hnil, List.length_nil] at hlen
    exact List.eq_nil_of_length_eq_zero (by omega)
  · rw [ht]
    exact carried_hexToStrLoop 0 bytes

end Codecs

/-! ## The codecs -/

/-- A byte string comes back, and a text of digits is read as what it denotes by both readers. -/
structure CodecsLaw (b s : Input) (mallocStr mallocHex : Bool) : Prop where
  inverse : ∃ t : Input, dmUtilsHexToStr b mallocStr = some (.ok t.val) ∧
    dmUtilsStrToHex t mallocHex = .ok b.val
  agree : ∀ bytes, Denotes s.val bytes → dmUtilsStrToHex s mallocHex = .ok bytes ∧
    ∀ output : List UInt8, output.length = bytes.length →
      liteHexstrConvert s.val output = bytes

/-- The codecs agree and invert each other where there is memory, on what is not empty and whose
text can be measured, and on texts without a lower-case digit of another value than the last digit
before it that is not lower-case. -/
theorem codecs_iff (b s : Input) (mallocStr mallocHex : Bool) :
    CodecsLaw b s mallocStr mallocHex ↔
      mallocStr = true ∧ mallocHex = true ∧ b.val ≠ [] ∧ 2 * b.val.length < 2147483648 ∧
        ∀ bytes, Denotes s.val bytes → s.val ≠ [] ∧ Carried 0 s.val := by
  have hdenotes := denotes_hexToStrLoop b.val
  constructor
  · rintro ⟨⟨t, hwrite, hread⟩, hagree⟩
    unfold dmUtilsHexToStr at hwrite
    split at hwrite
    · cases hwrite
    next hne =>
      split at hwrite
      · cases hwrite
      next hsize =>
        cases mallocStr with
        | false => cases hwrite
        | true =>
          rw [if_pos rfl, Option.some.injEq, Except.ok.injEq] at hwrite
          have htext := (dmUtilsStrToHex_eq (hwrite ▸ hdenotes) mallocHex).mp hread
          refine ⟨rfl, htext.1, hne, Nat.lt_of_not_le hsize, fun bytes hbytes => ?_⟩
          exact ((dmUtilsStrToHex_eq hbytes mallocHex).mp (hagree bytes hbytes).1).2
  · rintro ⟨rfl, rfl, hne, hsize, hcarried⟩
    refine ⟨?_, fun bytes hbytes => ⟨?_, fun output => liteHexstrConvert_of_denotes hbytes⟩⟩
    · have hlen : (hexToStrLoop b.val).length < 2147483648 := by
        rw [length_of_denotes hdenotes]
        exact hsize
      refine ⟨⟨_, hlen⟩, ?_, strToHex_hexToStr rfl hne⟩
      rw [dmUtilsHexToStr, if_neg hne, if_neg (Nat.not_le.mpr hsize), if_pos rfl]
    · exact (dmUtilsStrToHex_eq hbytes true).mpr ⟨rfl, hcarried bytes hbytes⟩

/-- `1a` is read as `0x11`, and `Aa` as `0xAA`. -/
theorem lower_case_misread :
    dmUtilsStrToHex ⟨[0x31, 0x61], by decide⟩ true = .ok [0x11] ∧
      liteHexstrConvert [0x31, 0x61] [0] = [0x1A] ∧
      dmUtilsStrToHex ⟨[0x41, 0x61], by decide⟩ true = .ok [0xAA] ∧
      ¬ CodecsLaw ⟨[0], by decide⟩ ⟨[0x31, 0x61], by decide⟩ true true := by
  have hread : dmUtilsStrToHex ⟨[0x31, 0x61], by decide⟩ true = .ok [0x11] := rfl
  refine ⟨hread, by decide, rfl, fun h => ?_⟩
  have hbytes : Denotes [0x31, 0x61] [0x1A] := @Denotes.pair 0x31 0x61 1 10 [] [] rfl rfl .nil
  have hagree := (h.agree _ hbytes).1
  rw [hread] at hagree
  exact absurd (Except.ok.inj hagree) (by decide)

end AliyunIot.Dm.HexCodec
