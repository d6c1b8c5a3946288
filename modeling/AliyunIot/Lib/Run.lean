import Mathlib.Data.List.Basic

/-!
# Runs

`run step s is` is the state after the inputs `is`. `run_invariant` turns a
step lemma into a statement about every run; `Meets C s is` says that every
input of the run is taken in a state where `C` holds, and
`run_invariant_of_meets` is the same rule for such runs. `rank_run_eq_zero` and `run_reaches`
are the rules for what a party comes to by its own inputs, whatever the others do.
-/

namespace AliyunIot.Lib

variable {σ ι : Type}

/-- The state after the inputs. -/
def run (step : σ → ι → σ) (s : σ) (is : List ι) : σ := is.foldl step s

@[simp] theorem run_nil (step : σ → ι → σ) (s : σ) : run step s [] = s := rfl

@[simp] theorem run_cons (step : σ → ι → σ) (s : σ) (i : ι) (is : List ι) :
    run step s (i :: is) = run step (step s i) is := rfl

theorem run_append (step : σ → ι → σ) (s : σ) (is js : List ι) :
    run step s (is ++ js) = run step (run step s is) js := List.foldl_append

theorem run_concat (step : σ → ι → σ) (s : σ) (is : List ι) (i : ι) :
    run step s (is ++ [i]) = step (run step s is) i := by
  rw [run_append]; rfl

variable {step : σ → ι → σ} {I : σ → Prop} {s : σ}

theorem run_invariant (hstep : ∀ s i, I s → I (step s i))
    (h : I s) (is : List ι) : I (run step s is) := by
  induction is generalizing s with
  | nil => exact h
  | cons i is ih => exact ih (hstep s i h)

variable {is : List ι}

theorem run_invariant_of {P : ι → Prop} (hstep : ∀ s i, P i → I s → I (step s i)) (h : I s)
    (hP : ∀ i ∈ is, P i) : I (run step s is) := by
  induction is generalizing s with
  | nil => exact h
  | cons i is ih =>
    exact ih (hstep s i (hP i List.mem_cons_self) h) fun j hj => hP j (List.mem_cons_of_mem _ hj)

/-- Every input is taken in a state where `C` holds of the state and the input. -/
def Meets (step : σ → ι → σ) (C : σ → ι → Prop) : σ → List ι → Prop
  | _, [] => True
  | s, i :: is => C s i ∧ Meets step C (step s i) is

instance {step : σ → ι → σ} {C : σ → ι → Prop} [∀ s i, Decidable (C s i)] :
    (s : σ) → (is : List ι) → Decidable (Meets step C s is)
  | _, [] => .isTrue trivial
  | s, i :: is =>
    haveI : Decidable (Meets step C (step s i) is) := instDecidableMeets (step s i) is
    inferInstanceAs (Decidable (C s i ∧ Meets step C (step s i) is))

variable {C : σ → ι → Prop}

theorem run_invariant_of_meets (hstep : ∀ s i, C s i → I s → I (step s i)) (hm : Meets step C s is)
    (h : I s) : I (run step s is) := by
  induction is generalizing s with
  | nil => exact h
  | cons i is ih => exact ih hm.2 (hstep s i hm.1 h)

theorem rank_run_eq_zero {O : ι → Bool} {R : σ → Nat} (hstep : ∀ s i, C s i → I s → I (step s i))
    (hown : ∀ s i, C s i → I s → O i = true → R (step s i) ≤ R s - 1)
    (hother : ∀ s i, C s i → I s → O i = false → R (step s i) ≤ R s)
    (hm : Meets step C s is) (h : I s) (hn : R s ≤ is.countP O) : R (run step s is) = 0 := by
  induction is generalizing s with
  | nil => exact Nat.le_zero.mp hn
  | cons i is ih =>
    refine ih hm.2 (hstep s i hm.1 h) ?_
    rw [List.countP_cons] at hn
    cases hi : O i with
    | true =>
      have := hown s i hm.1 h hi
      rw [hi, if_pos rfl] at hn
      omega
    | false =>
      rw [hi, if_neg Bool.false_ne_true] at hn
      exact Nat.le_trans (hother s i hm.1 h hi) hn

/-- How many inputs of a run are a party's own, in the states they are taken in. -/
def turns (step : σ → ι → σ) (own : σ → ι → Bool) : σ → List ι → Nat
  | _, [] => 0
  | s, i :: is => (if own s i then 1 else 0) + turns step own (step s i) is

theorem run_reaches {G : σ → Prop} {own : σ → ι → Bool}
    {R : σ → Nat} (hstay : ∀ s i, G s → G (step s i)) (hstep : ∀ s i, C s i → I s →
      G (step s i) ∨ I (step s i) ∧ R (step s i) + (if own s i then 1 else 0) ≤ R s)
    (hm : Meets step C s is) (h : I s) (hn : R s < turns step own s is) : G (run step s is) := by
  induction is generalizing s with
  | nil => exact absurd hn (Nat.not_lt_zero _)
  | cons i is ih =>
    rcases hstep s i hm.1 h with hg | ⟨hi, hrank⟩
    · exact run_invariant hstay hg is
    · rw [turns] at hn
      exact ih hm.2 hi (by omega)

theorem meets_of_invariant {S : σ → ι → Prop}
    (hstep : ∀ s i, C s i → I s → I (step s i)) (hsafe : ∀ s i, C s i → I s → S s i)
    (hm : Meets step C s is) (h : I s) : Meets step S s is := by
  induction is generalizing s with
  | nil => exact trivial
  | cons i is ih => exact ⟨hsafe s i hm.1 h, ih hm.2 (hstep s i hm.1 h)⟩

theorem meets_iff_of_invariant {S : σ → ι → Prop}
    (hstep : ∀ s i, C s i → I s → I (step s i)) (hiff : ∀ s i, I s → (S s i ↔ C s i))
    (h : I s) : Meets step S s is ↔ Meets step C s is := by
  induction is generalizing s with
  | nil => exact Iff.rfl
  | cons i is ih =>
    simp only [Meets]
    rw [hiff s i h]
    exact and_congr_right fun hc => ih (hstep s i hc h)

theorem forall_run_iff_meets {G : σ → Prop}
    (hgood : ∀ s, I s → G s) (hstep : ∀ s i, C s i → I s → I (step s i))
    (hexact : ∀ s i, I s → G (step s i) → C s i) (h : I s) :
    (∀ js, js <+: is → G (run step s js)) ↔ Meets step C s is := by
  induction is generalizing s with
  | nil =>
    refine ⟨fun _ => trivial, fun _ js hjs => ?_⟩
    rw [List.prefix_nil.mp hjs]
    exact hgood s h
  | cons i is ih =>
    constructor
    · intro hall
      have hi : C s i := hexact s i h (hall [i] (by simp))
      refine ⟨hi, (ih (hstep s i hi h)).mp fun js hjs => ?_⟩
      exact hall (i :: js) (List.cons_prefix_cons.mpr ⟨rfl, hjs⟩)
    · rintro ⟨hi, hm⟩ js hjs
      cases js with
      | nil => exact hgood s h
      | cons j js =>
        obtain ⟨rfl, hrest⟩ := List.cons_prefix_cons.mp hjs
        exact (ih (hstep s j hi h)).mpr hm js hrest

theorem run_iff_meets {G : σ → Prop}
    (hstep : ∀ s i, I s → I (step s i)) (hiff : ∀ s i, I s → (G (step s i) ↔ G s ∧ C s i))
    (h : I s) : G (run step s is) ↔ G s ∧ Meets step C s is := by
  induction is generalizing s with
  | nil => exact (and_iff_left trivial).symm
  | cons i is ih => rw [run_cons, ih (hstep s i h), hiff s i h, Meets, and_assoc]

theorem meets_concat {i : ι}
    (hm : Meets step C s is) (hi : C (run step s is) i) : Meets step C s (is ++ [i]) := by
  induction is generalizing s with
  | nil => exact ⟨hi, trivial⟩
  | cons j is ih => exact ⟨hm.1, ih hm.2 hi⟩

theorem meets_append {js : List ι} :
    Meets step C s (is ++ js) ↔ Meets step C s is ∧ Meets step C (run step s is) js := by
  induction is generalizing s with
  | nil => simp only [List.nil_append, Meets, run_nil, true_and]
  | cons i is ih => rw [List.cons_append, Meets, Meets, ih, and_assoc, run_cons]

theorem meets_iff_forall_split :
    Meets step C s is ↔ ∀ pre i post, is = pre ++ i :: post → C (run step s pre) i := by
  constructor
  · rintro h pre i post rfl
    exact (meets_append.mp h).2.1
  · intro h
    induction is generalizing s with
    | nil => exact trivial
    | cons i is ih =>
      refine ⟨h [] i is rfl, ih fun pre j post his => ?_⟩
      exact h (i :: pre) j post (by rw [his, List.cons_append])

end AliyunIot.Lib
