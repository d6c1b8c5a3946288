import Mathlib.Data.List.Basic

/-!
# Bytes in memory

`Holds m off bs`: the memory `m` carries the bytes `bs` from address `off` on.
`Cursor` is a write pointer: `mem` records what has been stored (`none` where
nothing was) and `ptr` is the next address. A writer that only ever stores at
the pointer and advances it is `Cursor.puts` of a byte list, and from
`Cursor.start` the stored image is that list (`start_puts_mem`).
-/

namespace AliyunIot.Lib

/-- A byte memory, addressed from the start of one buffer. -/
abbrev Mem := Nat → UInt8

def Holds (m : Mem) (off : Nat) (bs : List UInt8) : Prop :=
  ∀ i b, bs[i]? = some b → m (off + i) = b

theorem holds_nil (m : Mem) (off : Nat) : Holds m off [] := by
  intro i b h; simp at h

variable {off : Nat}

theorem holds_cons {m : Mem} {b : UInt8} {bs : List UInt8} :
    Holds m off (b :: bs) ↔ m off = b ∧ Holds m (off + 1) bs := by
  constructor
  · intro h
    refine ⟨h 0 b rfl, fun i x hx => ?_⟩
    have := h (i + 1) x hx
    rwa [show off + (i + 1) = off + 1 + i by omega] at this
  · rintro ⟨h0, h⟩ i x hx
    rcases i with _ | i
    · simp only [List.getElem?_cons_zero, Option.some.injEq] at hx
      subst hx; exact h0
    · have := h i x hx
      rwa [show off + 1 + i = off + (i + 1) by omega] at this

theorem holds_append {m : Mem} {as bs : List UInt8} :
    Holds m off (as ++ bs) ↔ Holds m off as ∧ Holds m (off + as.length) bs := by
  induction as generalizing off with
  | nil => simp [holds_nil]
  | cons a as ih =>
    rw [List.cons_append, holds_cons, holds_cons, ih, and_assoc, List.length_cons,
      show off + 1 + as.length = off + (as.length + 1) by omega]

/-- The `n` bytes at `off`. -/
def slice (m : Mem) (off n : Nat) : List UInt8 := (List.range n).map fun i => m (off + i)

@[simp] theorem length_slice (m : Mem) (off n : Nat) : (slice m off n).length = n := by
  simp [slice]

theorem slice_succ (m : Mem) (off n : Nat) :
    slice m off (n + 1) = m off :: slice m (off + 1) n := by
  simp only [slice, List.range_succ_eq_map, List.map_cons, List.map_map, Nat.add_zero]
  congr 1
  apply List.map_congr_left
  intro i _
  show m (off + (i + 1)) = m (off + 1 + i)
  congr 1; omega

theorem slice_of_holds {m : Mem} {bs : List UInt8} (h : Holds m off bs) :
    slice m off bs.length = bs := by
  apply List.ext_getElem (by simp)
  intro i h1 h2
  simp only [slice, List.getElem_map, List.getElem_range]
  exact h i _ (List.getElem?_eq_getElem h2)

theorem holds_slice (m : Mem) (off n : Nat) : Holds m off (slice m off n) := by
  intro i b h
  simp only [slice, List.getElem?_map, Option.map_eq_some_iff] at h
  obtain ⟨j, hj, rfl⟩ := h
  obtain ⟨-, rfl⟩ := List.getElem?_eq_some_iff.mp hj
  simp

/-- A write pointer over memory. -/
structure Cursor where
  mem : Nat → Option UInt8
  ptr : Nat

namespace Cursor

/-- Nothing stored yet, at the start of the buffer. -/
def start : Cursor := ⟨fun _ => none, 0⟩

/-- `*ptr++ = b`. -/
def put (c : Cursor) (b : UInt8) : Cursor :=
  ⟨fun i => if i = c.ptr then some b else c.mem i, c.ptr + 1⟩

/-- Store `bs` one byte after the other. -/
def puts (c : Cursor) (bs : List UInt8) : Cursor := bs.foldl put c

variable (c : Cursor)

theorem puts_append (as bs : List UInt8) : (c.puts as).puts bs = c.puts (as ++ bs) := by
  simp [puts]

theorem put_eq_puts (b : UInt8) : c.put b = c.puts [b] := rfl

@[simp] theorem put_ptr (b : UInt8) : (c.put b).ptr = c.ptr + 1 := rfl

theorem put_mem (b : UInt8) (i : Nat) :
    (c.put b).mem i = if i = c.ptr then some b else c.mem i := rfl

@[simp] theorem puts_ptr (bs : List UInt8) : (c.puts bs).ptr = c.ptr + bs.length := by
  induction bs generalizing c with
  | nil => rfl
  | cons b bs ih =>
    show ((c.put b).puts bs).ptr = _
    rw [ih, List.length_cons, put_ptr]; omega

theorem puts_mem (bs : List UInt8) (i : Nat) :
    (c.puts bs).mem i =
      if c.ptr ≤ i ∧ i < c.ptr + bs.length then bs[i - c.ptr]? else c.mem i := by
  induction bs generalizing c with
  | nil => rw [if_neg (by simp)]; rfl
  | cons b bs ih =>
    show ((c.put b).puts bs).mem i = _
    rw [ih, put_ptr, put_mem, List.length_cons]
    by_cases h0 : i = c.ptr
    · subst h0
      rw [if_neg (by omega), if_pos rfl, if_pos (by omega), Nat.sub_self]; rfl
    · by_cases h1 : c.ptr ≤ i ∧ i < c.ptr + (bs.length + 1)
      · rw [if_pos (by omega), if_pos h1, show i - c.ptr = i - (c.ptr + 1) + 1 by omega]; rfl
      · rw [if_neg (by omega), if_neg h0, if_neg h1]

theorem start_puts_mem (bs : List UInt8) (i : Nat) : (start.puts bs).mem i = bs[i]? := by
  rw [puts_mem]
  simp only [start, Nat.zero_le, Nat.zero_add, true_and, Nat.sub_zero]
  split
  · rfl
  · next h => exact (List.getElem?_eq_none (by omega)).symm

end Cursor

/-- Memory after the stores of `c`, over the old contents `m`. -/
def overlay (stored : Nat → Option UInt8) (m : Mem) : Mem := fun i => (stored i).getD (m i)

theorem holds_overlay_puts (bs : List UInt8) (m : Mem) :
    Holds (overlay (Cursor.start.puts bs).mem m) 0 bs := by
  intro i b h
  simp only [overlay, Cursor.start_puts_mem, Nat.zero_add, h, Option.getD_some]

/-- A buffer after a store of `bs` at `off`; what lies past its end is lost. -/
def storeAt (buf : List UInt8) (off : Nat) (bs : List UInt8) : List UInt8 :=
  (buf.take off ++ bs ++ buf.drop (off + bs.length)).take buf.length

@[simp] theorem length_storeAt (buf : List UInt8) (off : Nat) (bs : List UInt8) :
    (storeAt buf off bs).length = buf.length := by
  simp only [storeAt, List.length_take, List.length_append, List.length_drop]
  omega

theorem prefix_storeAt {pre buf : List UInt8} (h : pre <+: buf) (bs : List UInt8)
    (hlen : pre.length + bs.length ≤ buf.length) : pre ++ bs <+: storeAt buf pre.length bs := by
  obtain ⟨t, rfl⟩ := h
  rw [storeAt, List.take_left, List.prefix_take_iff]
  exact ⟨List.prefix_append _ _, by rw [List.length_append]; exact hlen⟩

end AliyunIot.Lib
