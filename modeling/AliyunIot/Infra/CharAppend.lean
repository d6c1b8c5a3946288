import Mathlib.Algebra.Ring.Nat
import AliyunIot.Infra.CharBuf

/-!
# Strings appended in a character buffer

`memcpy(buf + strlen(buf), s, strlen(s))` on a cleared array, the way several strings are put
together in one buffer. A buffer that is filled to the last byte has no terminator, and the next
`strlen` on it reads behind its end.
-/

namespace AliyunIot

namespace CStr

def append (s t : CStr) : CStr :=
  ⟨s.val ++ t.val, fun h => (List.mem_append.mp h).elim s.property t.property⟩

/-- `s[strlen(s) - 1] = c`. -/
def setLast (s : CStr) (c : UInt8) (hc : c ≠ 0) : CStr :=
  ⟨s.val.dropLast ++ [c], by
    simp only [List.mem_append, List.mem_singleton, not_or]
    exact ⟨fun hmem => s.property (List.dropLast_subset _ hmem), hc.symm⟩⟩

instance : Append CStr := ⟨append⟩

variable {s t u : CStr}

@[simp] theorem val_append : (s ++ t).val = s.val ++ t.val := rfl

@[simp] theorem strlen_append : (s ++ t).strlen = s.strlen + t.strlen := List.length_append

theorem val_setLast (c : UInt8) (hc : c ≠ 0) : (s.setLast c hc).val = s.val.dropLast ++ [c] := rfl

theorem append_assoc : s ++ t ++ u = s ++ (t ++ u) := Subtype.ext (List.append_assoc _ _ _)

theorem strlen_foldl (ts : List CStr) :
    (ts.foldl (· ++ ·) s).strlen = s.strlen + (ts.map strlen).sum := by
  induction ts generalizing s with
  | nil => simp
  | cons t ts ih =>
    rw [List.foldl_cons, ih, strlen_append, List.map_cons, List.sum_cons]
    omega

end CStr

namespace CharBuf

/-- `memcpy(buf + strlen(buf), s, strlen(s))`, or none when `strlen` finds no terminator or the
bytes do not fit. -/
def strAppend (buf : CharBuf) (s : CStr) : Option CharBuf :=
  buf.text.bind fun head =>
    if head.strlen + s.strlen ≤ buf.length then
      some (head.val ++ s.val ++ buf.drop (head.strlen + s.strlen))
    else none

/-- A cleared array with a string at its start. -/
def filled (size : Nat) (s : CStr) : CharBuf := s.val ++ zeros (size - s.strlen)

variable {size : Nat} {s t : CStr}

theorem length_filled (h : s.strlen ≤ size) : (filled size s).length = size := by
  have hlen : s.val.length = s.strlen := rfl
  rw [filled, List.length_append, length_zeros]
  omega

theorem zeros_eq_filled (size : Nat) : zeros size = filled size CStr.empty := rfl

theorem memcpy_zeros (h : s.strlen ≤ size) : (zeros size).memcpy s = some (filled size s) := by
  rw [memcpy, if_pos (by rw [length_zeros]; exact h), copy, filled, zeros, List.drop_replicate]
  rfl

theorem text_filled (h : s.strlen < size) : (filled size s).text = some s := by
  have hcopy := text_memcpy_zeros h
  rw [memcpy_zeros (Nat.le_of_lt h)] at hcopy
  exact hcopy

theorem text_full (h : s.strlen = size) : (filled size s).text = none := by
  have hcopy := text_memcpy_zeros_eq_none (Nat.le_of_eq h.symm)
  rw [memcpy_zeros (Nat.le_of_eq h)] at hcopy
  exact hcopy

theorem strAppend_filled (hs : s.strlen < size) (h : s.strlen + t.strlen ≤ size) :
    (filled size s).strAppend t = some (filled size (s ++ t)) := by
  have hsum : (s.val ++ t.val).length = s.strlen + t.strlen := List.length_append
  have hdrop : (filled size s).drop (s.strlen + t.strlen)
      = zeros (size - (s.strlen + t.strlen)) := by
    have hlen : s.val.length = s.strlen := rfl
    rw [filled, List.drop_append, List.drop_eq_nil_of_le (by omega), List.nil_append, zeros,
      zeros, List.drop_replicate]
    congr 1
    omega
  rw [strAppend, text_filled hs, Option.bind_some, if_pos (by rw [length_filled hs.le]; exact h),
    hdrop, filled, CStr.val_append, CStr.strlen_append]

theorem foldlM_strAppend {ts : List CStr} (h : (ts.foldl (· ++ ·) s).strlen < size) :
    ts.foldlM strAppend (filled size s) = some (filled size (ts.foldl (· ++ ·) s)) := by
  rw [CStr.strlen_foldl] at h
  induction ts generalizing s with
  | nil => rfl
  | cons t ts ih =>
    rw [List.map_cons, List.sum_cons] at h
    rw [List.foldlM_cons, strAppend_filled (by omega) (by omega), List.foldl_cons]
    exact ih (by rw [CStr.strlen_append]; omega)

theorem set_last {c : UInt8} (hc : c ≠ 0) (hpos : 0 < s.strlen) :
    (filled size s).set (s.strlen - 1) c = filled size (s.setLast c hc) := by
  obtain ⟨l, hl⟩ := s
  obtain rfl | ⟨init, b, rfl⟩ := l.eq_nil_or_concat
  · cases hpos
  · simp [filled, CStr.strlen, CStr.setLast, List.concat_eq_append]

end CharBuf

end AliyunIot
