import Mathlib.Data.Nat.Count

/-!
# Loops that step their index back

`retryFor` is a `for` loop over a table whose body may leave an index one smaller, so
that the next pass takes the same entry again. `retryFor_returns_iff`: it returns exactly
when the passes that may fail succeed as often as there are entries to try, and then
(`retryFor_tries`) every entry has had a pass that succeeded.
-/

namespace AliyunIot.Lib

variable {α β : Type}

/-- `for (index = 0; index < number; index++)` over a table, from `index`, for `fuel`
passes at most. `body` gives the index that a pass leaves and what the pass does; `n`
counts the passes that do not skip their entry. -/
def retryFor (table : List α) (skip : α → Bool) (body : α → Nat → Int → Int × List β) :
    Nat → Nat → Int → Option (List β)
  | 0, _, _ => none
  | fuel + 1, n, index =>
    match table[index.toNat]? with
    | none => some []
    | some x =>
      if skip x then retryFor table skip body fuel n (index + 1)
      else
        let (index, out) := body x n index
        (retryFor table skip body fuel (n + 1) (index + 1)).map (out ++ ·)

/-- The entries from `index` on that the loop has to try. -/
def pending (table : List α) (skip : α → Bool) (index : Nat) : List α :=
  (table.drop index).filter fun x => !skip x

/-- Pass `n` goes on to the next entry exactly when `ok n`, and does `out x n`. -/
structure Retries (body : α → Nat → Int → Int × List β) (ok : Nat → Prop) [DecidablePred ok]
    (out : α → Nat → List β) : Prop where
  body_eq : ∀ x n index, body x n index = (if ok n then index else index - 1, out x n)

theorem pending_of_none {table : List α} {skip : α → Bool} {index : Nat}
    (h : table[index]? = none) : pending table skip index = [] := by
  have hlen : table.length ≤ index := List.getElem?_eq_none_iff.mp h
  rw [pending, List.drop_eq_nil_of_le hlen, List.filter_nil]

theorem pending_of_some {table : List α} {skip : α → Bool} {index : Nat} {x : α}
    (h : table[index]? = some x) :
    pending table skip index =
      if skip x then pending table skip (index + 1) else x :: pending table skip (index + 1) := by
  obtain ⟨hlt, rfl⟩ := List.getElem?_eq_some_iff.mp h
  rw [pending, List.drop_eq_getElem_cons hlt, List.filter_cons]
  cases hskip : skip table[index] with
  | true => rw [if_neg (by decide), if_pos rfl, pending]
  | false => rw [if_pos (by decide), if_neg (by decide), pending]

theorem count_from_succ (ok : Nat → Prop) [DecidablePred ok] (n m : Nat) :
    Nat.count (fun i => ok (n + i)) (m + 1) =
      Nat.count (fun i => ok (n + 1 + i)) m + if ok n then 1 else 0 := by
  rw [Nat.count_succ']
  simp only [Nat.add_zero, Nat.add_assoc, Nat.add_comm 1]

section
variable {table : List α} {skip : α → Bool} {body : α → Nat → Int → Int × List β}
  {ok : Nat → Prop} [DecidablePred ok] {out : α → Nat → List β}

variable {fuel n index : Nat}

theorem retryFor_pass (hbody : Retries body ok out) {x : α}
    (hx : table[index]? = some x) (hskip : skip x = false) :
    retryFor table skip body (fuel + 1) n index =
      (retryFor table skip body fuel (n + 1) (if ok n then ↑(index + 1) else ↑index)).map
        (out x n ++ ·) := by
  have hx' : table[(index : Int).toNat]? = some x := hx
  rw [retryFor, hx']
  dsimp only
  rw [if_neg (by rw [hskip]; decide), hbody.body_eq]
  dsimp only
  by_cases hok : ok n
  · rw [if_pos hok, if_pos hok, Int.natCast_succ]
  · rw [if_neg hok, if_neg hok, Int.sub_add_cancel]

theorem retryFor_skip {x : α} (hx : table[index]? = some x) (hskip : skip x = true) :
    retryFor table skip body (fuel + 1) n index =
      retryFor table skip body fuel n ↑(index + 1) := by
  have hx' : table[(index : Int).toNat]? = some x := hx
  rw [retryFor, hx']
  dsimp only
  rw [if_pos hskip, Int.natCast_succ]

theorem retryFor_end (hx : table[index]? = none) :
    retryFor table skip body (fuel + 1) n index = some [] := by
  have hx' : table[(index : Int).toNat]? = none := hx
  rw [retryFor, hx']

theorem count_of_retryFor (hbody : Retries body ok out) {outs : List β}
    (h : retryFor table skip body fuel n index = some outs) :
    ∃ m, (pending table skip index).length ≤ Nat.count (fun i => ok (n + i)) m := by
  induction fuel generalizing n index outs with
  | zero => cases h
  | succ fuel ih =>
    cases hx : table[index]? with
    | none => exact ⟨0, by rw [pending_of_none hx]; exact Nat.zero_le _⟩
    | some x =>
      rw [pending_of_some hx]
      cases hskip : skip x with
      | true =>
        rw [retryFor_skip hx hskip] at h
        rw [if_pos rfl]
        exact ih h
      | false =>
        rw [retryFor_pass hbody hx hskip] at h
        obtain ⟨outs', h, -⟩ := Option.map_eq_some_iff.mp h
        rw [if_neg (by decide), List.length_cons]
        by_cases hok : ok n
        · rw [if_pos hok] at h
          obtain ⟨m, hm⟩ := ih h
          refine ⟨m + 1, ?_⟩
          rw [count_from_succ, if_pos hok]
          omega
        · rw [if_neg hok] at h
          obtain ⟨m, hm⟩ := ih h
          refine ⟨m + 1, ?_⟩
          rw [count_from_succ, if_neg hok]
          rw [pending_of_some hx, if_neg (by rw [hskip]; decide), List.length_cons] at hm
          omega

theorem retryFor_of_count (hbody : Retries body ok out) (m : Nat)
    (hm : (pending table skip index).length ≤ Nat.count (fun i => ok (n + i)) m) :
    ∃ fuel outs, retryFor table skip body fuel n index = some outs := by
  -- the measure is the passes left and then the entries left
  obtain ⟨k, hk⟩ : ∃ k, m + (table.length - index) ≤ k := ⟨_, Nat.le_refl _⟩
  induction k generalizing m n index with
  | zero =>
    have hx : table[index]? = none := List.getElem?_eq_none_iff.mpr (by omega)
    exact ⟨1, [], retryFor_end hx⟩
  | succ k ih =>
    cases hx : table[index]? with
    | none => exact ⟨1, [], retryFor_end hx⟩
    | some x =>
      have hlt : index < table.length := (List.getElem?_eq_some_iff.mp hx).1
      rw [pending_of_some hx] at hm
      cases hskip : skip x with
      | true =>
        rw [hskip, if_pos rfl] at hm
        obtain ⟨fuel, outs, h⟩ := ih m hm (by omega)
        exact ⟨fuel + 1, outs, by rw [retryFor_skip hx hskip, h]⟩
      | false =>
        rw [hskip, if_neg (by decide), List.length_cons] at hm
        cases m with
        | zero =>
          rw [Nat.count_zero] at hm
          omega
        | succ m =>
          rw [count_from_succ] at hm
          have hnext : ∃ fuel outs, retryFor table skip body fuel (n + 1)
              (if ok n then ↑(index + 1) else ↑index) = some outs := by
            by_cases hok : ok n
            · rw [if_pos hok] at hm ⊢
              exact ih m (by omega) (by omega)
            · rw [if_neg hok] at hm ⊢
              refine ih m ?_ (by omega)
              rw [pending_of_some hx, if_neg (by rw [hskip]; decide), List.length_cons]
              omega
          obtain ⟨fuel, outs, h⟩ := hnext
          exact ⟨fuel + 1, out x n ++ outs, by rw [retryFor_pass hbody hx hskip, h]; rfl⟩

theorem retryFor_returns_iff (hbody : Retries body ok out) (table : List α) (skip : α → Bool) :
    (∃ fuel outs, retryFor table skip body fuel 0 0 = some outs) ↔
      ∃ m, (table.filter fun x => !skip x).length ≤ Nat.count ok m := by
  constructor
  · rintro ⟨fuel, outs, h⟩
    have h' : retryFor table skip body fuel 0 ↑(0 : Nat) = some outs := h
    obtain ⟨m, hm⟩ := count_of_retryFor hbody h'
    simp only [Nat.zero_add] at hm
    exact ⟨m, hm⟩
  · rintro ⟨m, hm⟩
    have hm' : (pending table skip 0).length ≤ Nat.count (fun i => ok (0 + i)) m := by
      simp only [Nat.zero_add]
      exact hm
    exact retryFor_of_count hbody m hm'

theorem retryFor_tries (hbody : Retries body ok out) {outs : List β}
    (h : retryFor table skip body fuel n index = some outs) :
    ∀ x ∈ pending table skip index, ∃ i, ok i ∧ out x i ⊆ outs := by
  induction fuel generalizing n index outs with
  | zero => cases h
  | succ fuel ih =>
    intro y hy
    cases hx : table[index]? with
    | none =>
      rw [pending_of_none hx] at hy
      cases hy
    | some x =>
      cases hskip : skip x with
      | true =>
        rw [pending_of_some hx, hskip, if_pos rfl] at hy
        rw [retryFor_skip hx hskip] at h
        exact ih h y hy
      | false =>
        rw [retryFor_pass hbody hx hskip] at h
        obtain ⟨outs', hrest, rfl⟩ := Option.map_eq_some_iff.mp h
        have hlater (hy : ∃ i, ok i ∧ out y i ⊆ outs') : ∃ i, ok i ∧ out y i ⊆ out x n ++ outs' :=
          hy.imp fun i hi => ⟨hi.1, List.Subset.trans hi.2 (List.subset_append_right _ _)⟩
        by_cases hok : ok n
        · rw [if_pos hok] at hrest
          rw [pending_of_some hx, hskip, if_neg (by decide)] at hy
          rcases List.mem_cons.mp hy with rfl | hy
          · exact ⟨n, hok, List.subset_append_left _ _⟩
          · exact hlater (ih hrest y hy)
        · -- the next pass takes the same entry
          rw [if_neg hok] at hrest
          exact hlater (ih hrest y hy)

end

end AliyunIot.Lib
