import Mathlib.Data.List.Basic

/-!
# The first element with a property

`splitFirst p l` is the part of `l` before the first element with `p`, that
element, and the rest: what a loop that breaks at its first match has in hand.
`exists_last_split` is the split at the last one.
-/

namespace AliyunIot.Lib

variable {α : Type}

def splitFirst (p : α → Bool) : List α → Option (List α × α × List α)
  | [] => none
  | x :: l =>
    if p x then some ([], x, l)
    else (splitFirst p l).map fun (as, y, bs) => (x :: as, y, bs)

theorem splitFirst_eq_none_iff {p : α → Bool} {l : List α} :
    splitFirst p l = none ↔ ∀ x ∈ l, p x = false := by
  induction l with
  | nil => exact iff_of_true rfl fun x hx => absurd hx List.not_mem_nil
  | cons x l ih =>
    rw [splitFirst, List.forall_mem_cons]
    cases hx : p x with
    | true => exact iff_of_false (by simp) fun h => by cases h.1
    | false =>
      rw [if_neg Bool.false_ne_true, Option.map_eq_none_iff, ih]
      exact (and_iff_right rfl).symm

theorem splitFirst_eq_some_iff {p : α → Bool} {l as bs : List α} {x : α} :
    splitFirst p l = some (as, x, bs) ↔
      l = as ++ x :: bs ∧ p x = true ∧ ∀ a ∈ as, p a = false := by
  induction l generalizing as with
  | nil => exact iff_of_false (by simp [splitFirst]) fun h => by simp at h
  | cons y l ih =>
    rw [splitFirst]
    cases hy : p y with
    | true =>
      rw [if_pos rfl]
      constructor
      · intro h
        cases h
        exact ⟨rfl, hy, fun a ha => absurd ha List.not_mem_nil⟩
      · rintro ⟨hl, hx, has⟩
        cases as with
        | nil => cases hl; rfl
        | cons a as =>
          cases hl
          rw [has y List.mem_cons_self] at hy
          cases hy
    | false =>
      rw [if_neg Bool.false_ne_true, Option.map_eq_some_iff]
      constructor
      · rintro ⟨⟨as', x', bs'⟩, h, heq⟩
        cases heq
        obtain ⟨rfl, hx, has⟩ := ih.mp h
        exact ⟨rfl, hx, List.forall_mem_cons.mpr ⟨hy, has⟩⟩
      · rintro ⟨hl, hx, has⟩
        cases as with
        | nil =>
          cases hl
          rw [hx] at hy
          cases hy
        | cons a as =>
          cases hl
          exact ⟨(as, x, bs), ih.mpr ⟨rfl, hx, fun b hb => has b (List.mem_cons_of_mem _ hb)⟩, rfl⟩

theorem splitFirst_cases (p : α → Bool) (l : List α) :
    (splitFirst p l = none ∧ ∀ x ∈ l, p x = false) ∨
    ∃ as x bs, splitFirst p l = some (as, x, bs) ∧ l = as ++ x :: bs ∧ p x = true ∧
      ∀ a ∈ as, p a = false := by
  cases h : splitFirst p l with
  | none => exact .inl ⟨rfl, splitFirst_eq_none_iff.mp h⟩
  | some r =>
    obtain ⟨as, x, bs⟩ := r
    exact .inr ⟨as, x, bs, rfl, splitFirst_eq_some_iff.mp h⟩

theorem find?_eq_map_splitFirst (p : α → Bool) (l : List α) :
    l.find? p = (splitFirst p l).map fun r => r.2.1 := by
  induction l with
  | nil => rfl
  | cons x l ih =>
    rw [splitFirst, List.find?_cons]
    cases hx : p x with
    | true => rfl
    | false =>
      rw [if_neg Bool.false_ne_true, ih, Option.map_map]
      rfl

theorem exists_last_split {P : α → Prop} {l : List α} (h : ∃ x ∈ l, P x) :
    ∃ as x bs, l = as ++ x :: bs ∧ P x ∧ ∀ y ∈ bs, ¬ P y := by
  induction l with
  | nil =>
    obtain ⟨x, hx, -⟩ := h
    cases hx
  | cons y l ih =>
    by_cases hl : ∃ x ∈ l, P x
    · obtain ⟨as, x, bs, rfl, hx, hbs⟩ := ih hl
      exact ⟨y :: as, x, bs, rfl, hx, hbs⟩
    · obtain ⟨x, hx, hPx⟩ := h
      have hnone : ∀ z ∈ l, ¬ P z := fun z hz hPz => hl ⟨z, hz, hPz⟩
      rcases List.mem_cons.mp hx with rfl | hx
      · exact ⟨[], x, l, rfl, hPx, hnone⟩
      · exact absurd hPx (hnone x hx)

theorem forall_split_concat {P : List α → α → Prop} {l : List α} {x : α}
    (h : ∀ as y bs, l = as ++ y :: bs → P as y) (hx : P l x) :
    ∀ as y bs, l ++ [x] = as ++ y :: bs → P as y := by
  intro as y bs hl
  rcases List.eq_nil_or_concat bs with rfl | ⟨bs, z, rfl⟩
  · obtain ⟨rfl, hxy⟩ := List.append_inj' hl rfl
    cases hxy
    exact hx
  · have hl' : l ++ [x] = (as ++ y :: bs) ++ [z] := by
      rw [hl, List.concat_eq_append, List.append_assoc, List.cons_append]
    exact h as y bs (List.append_inj' hl' rfl).1

end AliyunIot.Lib
