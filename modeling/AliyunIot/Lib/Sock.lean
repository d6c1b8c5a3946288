import Mathlib.Data.List.Basic

/-!
# A socket read under a timeout

The results of the successive reads are inputs: bytes that arrive before the
timeout, or an error. `consumed` collects what has been taken off the
connection. `Gives reads bs rest`: the next reads, of one byte each, deliver
`bs`; `Drains size n reads`: reads of at most `size` bytes deliver `n` of them.
-/

namespace AliyunIot.Lib

/-- What one read meets. No bytes is a timeout. -/
inductive Recv where
  | data (bs : List UInt8)
  | error (code : Nat)

/-- The results to come, timeouts when they run out, and the bytes read so far. -/
structure Sock where
  reads : List Recv
  consumed : List UInt8

/-- A read: its return value, the bytes it stored and the socket after it. -/
structure Sock.Result where
  rc : Int
  bytes : List UInt8
  sock : Sock

namespace Sock

/-- `read(buf, len, timeout)`: the number of bytes read, negative on an error. -/
def recv : Sock → Nat → Result
  | ⟨[], consumed⟩, _ => ⟨0, [], ⟨[], consumed⟩⟩
  | ⟨.data bs :: reads, consumed⟩, len =>
    ⟨(bs.take len).length, bs.take len, ⟨reads, consumed ++ bs.take len⟩⟩
  | ⟨.error code :: reads, consumed⟩, _ => ⟨Int.negSucc code, [], ⟨reads, consumed⟩⟩

theorem recv_consumed (s : Sock) (len : Nat) :
    (s.recv len).sock.consumed = s.consumed ++ (s.recv len).bytes := by
  rcases s with ⟨_ | ⟨bs | code, reads⟩, consumed⟩ <;> simp [recv]

theorem recv_nonneg {s : Sock} {len : Nat} (h : 0 ≤ (s.recv len).rc) :
    (s.recv len).rc = (s.recv len).bytes.length := by
  rcases s with ⟨_ | ⟨bs | code, reads⟩, consumed⟩
  · rfl
  · rfl
  · exact absurd h (by simp [recv])

theorem recv_zero_bytes (s : Sock) : (s.recv 0).bytes = [] := by
  rcases s with ⟨_ | ⟨bs | code, reads⟩, consumed⟩ <;> simp [recv]

theorem recv_one_cases (s : Sock) :
    ((s.recv 1).rc ≤ 0 ∧ (s.recv 1).sock.consumed = s.consumed) ∨
    ∃ b more reads, s.reads = .data (b :: more) :: reads ∧
      s.recv 1 = ⟨1, [b], ⟨reads, s.consumed ++ [b]⟩⟩ := by
  rcases s with ⟨_ | ⟨bs | code, reads⟩, consumed⟩
  · exact .inl ⟨Int.le_refl 0, rfl⟩
  · rcases bs with _ | ⟨b, more⟩
    · exact .inl ⟨Int.le_refl 0, List.append_nil _⟩
    · exact .inr ⟨b, more, reads, rfl, rfl⟩
  · exact .inl ⟨Int.le_of_lt (Int.negSucc_lt_zero code), rfl⟩

/-- The next reads, of one byte each, deliver `bs`, and `rest` comes after them. -/
inductive Gives : List Recv → List UInt8 → List Recv → Prop
  | nil (reads : List Recv) : Gives reads [] reads
  | cons {b : UInt8} {bs more : List UInt8} {reads rest : List Recv} (h : Gives reads bs rest) :
    Gives (.data (b :: more) :: reads) (b :: bs) rest

/-- Reads of at most `size` bytes deliver `n` bytes without falling short. -/
inductive Drains (size : Nat) : Nat → List Recv → Prop
  | last {n : Nat} {bs : List UInt8} {rest : List Recv} (hn : n ≤ size) (h : n ≤ bs.length) :
    Drains size n (.data bs :: rest)
  | more {n : Nat} {bs : List UInt8} {rest : List Recv} (hn : size < n) (h : size ≤ bs.length)
    (hrest : Drains size (n - size) rest) : Drains size n (.data bs :: rest)

theorem recv_full {s : Sock} {len : Nat} (hlen : 0 < len) (h : (s.recv len).rc = len) :
    ∃ bs reads, s.reads = .data bs :: reads ∧ len ≤ bs.length ∧
      s.recv len = ⟨len, bs.take len, ⟨reads, s.consumed ++ bs.take len⟩⟩ := by
  rcases s with ⟨_ | ⟨bs | code, reads⟩, consumed⟩
  · simp only [recv] at h; omega
  · simp only [recv, Int.natCast_inj] at h
    refine ⟨bs, reads, rfl, ?_, by simp only [recv, h]⟩
    rw [List.length_take] at h; omega
  · simp only [recv] at h; omega

end Sock

end AliyunIot.Lib
