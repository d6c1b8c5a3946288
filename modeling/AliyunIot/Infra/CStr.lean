import Mathlib.Data.List.Basic

/-!
# C strings

`CStr` is the text of a NUL-terminated string: the bytes before the
terminator, none of them zero. `charAt` is what `s[i]` reads for
`i ≤ strlen(s)`, the terminator included.
-/

namespace AliyunIot

section
variable {p : UInt8 → Prop} [DecidablePred p] (s : List UInt8)

/-- What holds of all the bytes of a text is tried on them, not on all 256. -/
instance decidableForallMem : Decidable (∀ b ∈ s, p b) := List.decidableBAll p s

instance decidableExistsMem : Decidable (∃ b ∈ s, p b) := List.decidableBEx p s

end

/-- The bytes of a NUL-terminated string, without the terminator. -/
abbrev CStr := {s : List UInt8 // (0 : UInt8) ∉ s}

namespace CStr

def empty : CStr := ⟨[], List.not_mem_nil⟩

def strlen (s : CStr) : Nat := s.val.length

/-- `s[i]`, the terminator past the last byte. -/
def charAt (s : CStr) (i : Nat) : UInt8 := s.val.getD i 0

theorem zero_not_mem_takeWhile (s : List UInt8) : (0 : UInt8) ∉ s.takeWhile (· ≠ 0) := fun h => by
  have hne := List.all_eq_true.mp List.all_takeWhile 0 h
  simp at hne

/-- The text of a string literal of the source. -/
def ofString (s : String) (h : (0 : UInt8) ∉ s.toList.map (fun c => UInt8.ofNat c.toNat)) : CStr :=
  ⟨s.toList.map fun c => UInt8.ofNat c.toNat, h⟩

end CStr

end AliyunIot
