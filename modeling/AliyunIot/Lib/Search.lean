import Mathlib.Data.List.Infix

/-!
# The first place of a pattern

`search needle xs` is the first place in `xs` where `needle` begins. It is decided by what
comes before the end of that place: `search_append`, `search_take`.
-/

namespace AliyunIot.Lib

variable {α : Type} [DecidableEq α] {needle xs ys : List α} {n : Nat}

def search (needle : List α) : List α → Option Nat
  | [] => if needle = [] then some 0 else none
  | x :: xs => if needle <+: x :: xs then some 0 else (search needle xs).map (· + 1)

theorem search_cons_match {x : α} (h : needle <+: x :: xs) :
    search needle (x :: xs) = some 0 := if_pos h

theorem search_cons_mismatch {x : α} (h : ¬ needle <+: x :: xs) :
    search needle (x :: xs) = (search needle xs).map (· + 1) := if_neg h

theorem search_nil (xs : List α) : search [] xs = some 0 := by
  cases xs <;> simp [search]

theorem prefix_of_search (h : search needle xs = some n) : needle <+: xs.drop n := by
  induction xs generalizing n with
  | nil =>
    rw [search] at h
    split at h
    · next hnil => simp [hnil]
    · simp at h
  | cons x xs ih =>
    by_cases hp : needle <+: x :: xs
    · rw [search_cons_match hp] at h
      obtain rfl : 0 = n := by simpa using h
      exact hp
    · rw [search_cons_mismatch hp] at h
      obtain ⟨m, hm, rfl⟩ := Option.map_eq_some_iff.mp h
      exact ih hm

theorem length_le_of_search (h : search needle xs = some n) :
    n + needle.length ≤ xs.length ∨ needle = [] := by
  have hle := (prefix_of_search h).length_le
  rw [List.length_drop] at hle
  rcases Nat.eq_zero_or_pos needle.length with h0 | hpos
  · exact .inr (List.length_eq_zero_iff.mp h0)
  · omega

theorem search_append (h : search needle xs = some n) (ys : List α) :
    search needle (xs ++ ys) = some n := by
  induction xs generalizing n with
  | nil =>
    rw [search] at h
    split at h
    · next hnil =>
      obtain rfl : 0 = n := by simpa using h
      subst hnil
      exact search_nil _
    · simp at h
  | cons x xs ih =>
    by_cases hp : needle <+: x :: xs
    · have hp' : needle <+: x :: (xs ++ ys) := hp.trans (List.prefix_append (x :: xs) ys)
      rw [search_cons_match hp] at h
      rw [List.cons_append, search_cons_match hp', h]
    · rw [search_cons_mismatch hp] at h
      obtain ⟨m, hm, rfl⟩ := Option.map_eq_some_iff.mp h
      have hlen := length_le_of_search hm
      have hp' : ¬ needle <+: x :: (xs ++ ys) := by
        intro hprefix
        refine hp (List.prefix_of_prefix_length_le hprefix
          (List.prefix_append (x :: xs) ys) ?_)
        rcases hlen with hlen | rfl
        · rw [List.length_cons]
          omega
        · exact Nat.zero_le _
      rw [List.cons_append, search_cons_mismatch hp', ih hm]
      rfl

theorem search_take (h : search needle xs = some n) {m : Nat} (hm : m < n + needle.length) :
    search needle (xs.take m) = none := by
  cases hs : search needle (xs.take m) with
  | none => rfl
  | some k =>
    have happ := search_append hs (xs.drop m)
    rw [List.take_append_drop, h, Option.some.injEq] at happ
    subst happ
    have hle := length_le_of_search hs
    rw [List.length_take] at hle
    rcases hle with hle | rfl
    · omega
    · rw [search_nil, Option.some.injEq] at h
      rw [List.length_nil] at hm
      omega

theorem search_take_of_le (h : search needle xs = some n) {m : Nat}
    (hm : n + needle.length ≤ m) : search needle (xs.take m) = some n := by
  induction xs generalizing n m with
  | nil => rwa [List.take_nil]
  | cons x xs ih =>
    by_cases hp : needle <+: x :: xs
    · rw [search_cons_match hp] at h
      obtain rfl : 0 = n := by simpa using h
      rcases m with _ | m
      · obtain rfl : needle = [] := List.length_eq_zero_iff.mp (by omega)
        exact search_nil _
      · have hp' : needle <+: (x :: xs).take (m + 1) := List.prefix_take_iff.mpr ⟨hp, by omega⟩
        exact search_cons_match hp'
    · rw [search_cons_mismatch hp] at h
      obtain ⟨k, hk, rfl⟩ := Option.map_eq_some_iff.mp h
      rcases m with _ | m
      · omega
      · have hp' : ¬ needle <+: x :: xs.take m :=
          fun hprefix => hp (List.prefix_take_iff (i := m + 1).mp hprefix).1
        rw [List.take_succ_cons, search_cons_mismatch hp', ih hk (by omega)]
        rfl

end AliyunIot.Lib
