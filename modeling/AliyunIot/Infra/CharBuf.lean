import Mathlib.Data.List.GetD
import Mathlib.Data.List.TakeWhile
import AliyunIot.Infra.CStr

/-!
# Character buffers

A `char` array that strings are copied into with `memcpy`, without their terminator. What
is read from it as a string ends at the first zero, which may be one that an earlier string
left (`string_copy_eq_iff`), or is not there (`text`).
-/

namespace AliyunIot

abbrev CharBuf := List UInt8

namespace CharBuf

/-- The array after `memset`. -/
def zeros (size : Nat) : CharBuf := List.replicate size 0

/-- The array after the bytes of a string are copied to its start. -/
def copy (buf : CharBuf) (s : CStr) : CharBuf := s.val ++ buf.drop s.strlen

/-- `memcpy(buf, s, strlen(s))`, or none when it writes behind the end. -/
def memcpy (buf : CharBuf) (s : CStr) : Option CharBuf :=
  if s.strlen ≤ buf.length then some (buf.copy s) else none

/-- The array after bytes are copied to a position. -/
def put (buf : CharBuf) (pos : Nat) (data : List UInt8) : CharBuf :=
  buf.take pos ++ (data ++ buf.drop (pos + data.length))

/-- Bytes copied to a position, or none when they reach behind the end. -/
def write (buf : CharBuf) (pos : Nat) (data : List UInt8) : Option CharBuf :=
  if pos + data.length ≤ buf.length then some (buf.put pos data) else none

/-- The bytes up to the first zero. -/
def string (buf : CharBuf) : CStr := ⟨buf.takeWhile (· ≠ 0), CStr.zero_not_mem_takeWhile buf⟩

/-- The string in the array, or none when it has no terminator. -/
def text (buf : CharBuf) : Option CStr := if 0 ∈ buf then some buf.string else none

variable {buf : CharBuf} {s : CStr} {n : Nat}

theorem length_zeros : (zeros n).length = n := List.length_replicate

theorem length_copy (h : s.strlen ≤ buf.length) : (buf.copy s).length = buf.length := by
  have hlen : s.val.length = s.strlen := rfl
  rw [copy, List.length_append, List.length_drop]
  omega

theorem getD_copy (buf : CharBuf) (s : CStr) (n : Nat) :
    (buf.copy s).getD n 0 = if n < s.strlen then s.charAt n else buf.getD n 0 := by
  unfold copy
  split
  next hn => rw [List.getD_append _ _ _ _ hn, CStr.charAt]
  next hn =>
    have hle : s.val.length ≤ n := Nat.not_lt.mp hn
    rw [List.getD_append_right _ _ _ _ hle, CStr.strlen]
    simp only [List.getD_eq_getElem?_getD, List.getElem?_drop]
    congr 2
    omega

theorem charAt_ne_zero (h : n < s.strlen) : s.charAt n ≠ 0 := fun h0 => by
  have hn : n < s.val.length := h
  have hmem := List.getElem_mem hn
  rw [CStr.charAt, List.getD_eq_getElem _ _ hn] at h0
  rw [h0] at hmem
  exact s.property hmem

theorem string_copy (buf : CharBuf) (s : CStr) :
    (buf.copy s).string.val = s.val ++ (buf.drop s.strlen).takeWhile (· ≠ 0) :=
  List.takeWhile_append_of_pos fun c hc => by
    simpa using fun hc0 : c = 0 => s.property (hc0 ▸ hc)

theorem string_copy_eq_iff (h : s.strlen < buf.length) :
    (buf.copy s).string = s ↔ buf.getD s.strlen 0 = 0 := by
  have hcons : buf.drop s.strlen = buf[s.strlen] :: buf.drop (s.strlen + 1) :=
    List.drop_eq_getElem_cons h
  rw [← Subtype.coe_inj, string_copy, hcons, List.getD_eq_getElem _ _ h]
  by_cases hzero : buf[s.strlen] = 0
  · simp [hzero]
  · rw [List.takeWhile_cons_of_pos (by simpa using hzero)]
    simp [hzero]

theorem text_memcpy_zeros (h : s.strlen < n) : ((zeros n).memcpy s).bind text = some s := by
  have hle : s.strlen ≤ (zeros n).length := by rw [length_zeros]; omega
  have hzero : (zeros n).getD s.strlen 0 = 0 := by rw [zeros, List.getD_replicate _ h]
  have hmem : (0 : UInt8) ∈ (zeros n).copy s := by
    refine List.mem_append_right _ ?_
    rw [zeros, List.drop_replicate]
    exact List.mem_replicate.mpr ⟨by omega, rfl⟩
  rw [memcpy, if_pos hle, Option.bind_some, text, if_pos hmem,
    (string_copy_eq_iff (by rw [length_zeros]; exact h)).mpr hzero]

theorem text_copy_zeros (h : s.strlen < n) : ((zeros n).copy s).text = some s := by
  have hle : s.strlen ≤ (zeros n).length := by rw [length_zeros]; exact Nat.le_of_lt h
  have htext := text_memcpy_zeros h
  rw [memcpy, if_pos hle] at htext
  exact htext

theorem text_memcpy_zeros_eq_none (h : n ≤ s.strlen) : ((zeros n).memcpy s).bind text = none := by
  unfold memcpy
  split
  next hle =>
    have hdrop : (zeros n).drop s.strlen = [] := List.drop_eq_nil_of_le
      (by rw [length_zeros]; exact h)
    rw [Option.bind_some, text, copy, hdrop, List.append_nil, if_neg s.property]
  · rfl

theorem write_append (front back data : List UInt8) (h : data.length ≤ back.length) :
    write (front ++ back) front.length data =
      some (front ++ (data ++ back.drop data.length)) := by
  have hle : front.length + data.length ≤ (front ++ back).length := by
    rw [List.length_append]
    omega
  rw [write, if_pos hle, put, List.take_left, List.drop_append]
  congr 3
  rw [List.drop_eq_nil_of_le (Nat.le_add_right _ _), List.nil_append, Nat.add_sub_cancel_left]

variable {data : List UInt8} {pos : Nat}

theorem length_put (h : pos + data.length ≤ buf.length) :
    (buf.put pos data).length = buf.length := by
  simp only [put, List.length_append, List.length_take, List.length_drop]
  omega

theorem take_put (h : pos ≤ buf.length) :
    (buf.put pos data).take (pos + data.length) = buf.take pos ++ data := by
  have hlen : pos + data.length = (buf.take pos ++ data).length := by
    rw [List.length_append, List.length_take, Nat.min_eq_left h]
  rw [put, ← List.append_assoc, hlen, List.take_left]

theorem drop_put (h : pos ≤ buf.length) :
    (buf.put pos data).drop (pos + data.length) = buf.drop (pos + data.length) := by
  have hlen : (buf.take pos ++ data).length = pos + data.length := by
    rw [List.length_append, List.length_take, Nat.min_eq_left h]
  rw [put, ← List.append_assoc]
  exact List.drop_left' hlen

theorem getElem?_put {i : Nat} (h : pos + data.length ≤ buf.length)
    (hi : i < pos ∨ pos + data.length ≤ i) : (buf.put pos data)[i]? = buf[i]? := by
  have hpos : (buf.take pos).length = pos := by
    rw [List.length_take]
    omega
  rcases hi with hi | hi
  · rw [put, List.getElem?_append_left (by omega), List.getElem?_take_of_lt hi]
  · have hdrop : (buf.put pos data).drop (pos + data.length) = buf.drop (pos + data.length) :=
      drop_put (Nat.le_of_add_right_le h)
    obtain ⟨k, rfl⟩ : ∃ k, i = pos + data.length + k := ⟨i - (pos + data.length), by omega⟩
    rw [← List.getElem?_drop, hdrop, List.getElem?_drop]

end CharBuf

end AliyunIot
