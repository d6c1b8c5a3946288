import Mathlib.Data.List.Forall2

/-!
# Programs whose allocations may fail

A program counts its requests for memory; a pattern `alloc` says which of them get a block, and
`none` is an access outside the blocks. `Loads` says of a program exactly when it leaves a good
value: it has to be given all the blocks of one of its costs. There is a rule for each way
programs are put together.
-/

namespace AliyunIot.Lib

/-- How many blocks were asked for, and how many are in use. -/
structure Heap where
  asked : Nat
  live : Nat

namespace Heap

def empty : Heap := ⟨0, 0⟩

/-- After `n` requests that all got a block. -/
def after (heap : Heap) (n : Nat) : Heap := ⟨heap.asked + n, heap.live + n⟩

@[simp] theorem after_zero (heap : Heap) : heap.after 0 = heap := rfl

@[simp] theorem after_asked (heap : Heap) (n : Nat) : (heap.after n).asked = heap.asked + n := rfl

@[simp] theorem after_after (heap : Heap) (m n : Nat) :
    (heap.after m).after n = heap.after (m + n) := by
  simp only [after, Nat.add_assoc]

end Heap

abbrev Alloc (α : Type) := StateT Heap Option α

namespace Alloc

variable {α β γ : Type}

/-- A request for a block, and whether it got one. -/
def malloc (alloc : Nat → Bool) : Alloc Bool := fun heap =>
  if alloc heap.asked then some (true, heap.after 1) else some (false, ⟨heap.asked + 1, heap.live⟩)

def free : Alloc Unit := fun heap => some ((), ⟨heap.asked, heap.live - 1⟩)

/-- An access outside the blocks. -/
def stray : Alloc α := fun _ => none

theorem bind_eq (x : Alloc α) (f : α → Alloc β) (heap : Heap) :
    (x >>= f) heap = (x heap).bind fun r => f r.1 r.2 := rfl

@[simp] theorem pure_eq (a : α) (heap : Heap) : (pure a : Alloc α) heap = some (a, heap) := rfl

@[simp] theorem stray_eq (heap : Heap) : (stray : Alloc α) heap = none := rfl

variable {heap : Heap}

theorem bind_of_eq {x : Alloc α} {f : α → Alloc β} {heap' : Heap} {a : α}
    (h : x heap = some (a, heap')) : (x >>= f) heap = f a heap' := by
  rw [bind_eq, h, Option.bind_some]

theorem bind_eq_some {x : Alloc α} {f : α → Alloc β} {r : β × Heap}
    (h : (x >>= f) heap = some r) : ∃ a heap', x heap = some (a, heap') ∧ f a heap' = some r := by
  obtain ⟨⟨a, heap'⟩, hx, hf⟩ := Option.bind_eq_some_iff.mp h
  exact ⟨a, heap', hx, hf⟩

theorem malloc_granted {alloc : Nat → Bool} (h : alloc heap.asked = true) :
    malloc alloc heap = some (true, heap.after 1) := if_pos h

theorem malloc_cases {alloc : Nat → Bool} {heap' : Heap} {got : Bool}
    (h : malloc alloc heap = some (got, heap')) :
    got = true ∧ alloc heap.asked = true ∧ heap' = heap.after 1 ∨ got = false := by
  unfold malloc at h
  split at h
  next hgot =>
    cases h
    exact .inl ⟨rfl, hgot, rfl⟩
  next =>
    cases h
    exact .inr rfl

/-- The next `n` requests all get a block. -/
def Granted (alloc : Nat → Bool) (heap : Heap) (n : Nat) : Prop :=
  ∀ k < n, alloc (heap.asked + k) = true

section

variable {alloc : Nat → Bool} {heap : Heap} {m n : Nat}

theorem granted_zero : Granted alloc heap 0 := fun _ h => absurd h (Nat.not_lt_zero _)

theorem granted_one : Granted alloc heap 1 ↔ alloc heap.asked = true := by
  constructor
  · intro h
    exact h 0 Nat.one_pos
  · intro h k hk
    rw [Nat.lt_one_iff.mp hk, Nat.add_zero]
    exact h

theorem granted_add :
    Granted alloc heap (m + n) ↔ Granted alloc heap m ∧ Granted alloc (heap.after m) n := by
  constructor
  · intro h
    refine ⟨fun k hk => h k (by omega), fun k hk => ?_⟩
    rw [Heap.after_asked, Nat.add_assoc]
    exact h (m + k) (by omega)
  · rintro ⟨hm, hn⟩ k hk
    by_cases hlt : k < m
    · exact hm k hlt
    · have := hn (k - m) (by omega)
      rw [Heap.after_asked, Nat.add_assoc] at this
      rwa [show m + (k - m) = k by omega] at this

end

/-! ## Loading -/

/-- `x` gives a value that is `good` where one of its costs is granted, and a value that is
`kept` is what it leaves only there. -/
structure Loads (alloc : Nat → Bool) (x : Alloc α) (cost : Nat → Prop) (good kept : α → Prop) :
    Prop where
  complete : ∀ {n heap}, cost n → Granted alloc heap n →
    ∃ a, x heap = some (a, heap.after n) ∧ good a
  only : ∀ {heap a heap'}, x heap = some (a, heap') → kept a →
    ∃ n, cost n ∧ Granted alloc heap n ∧ heap' = heap.after n

variable {alloc : Nat → Bool} {x : Alloc α} {cost : Nat → Prop} {good kept : α → Prop}

theorem Loads.congr {cost' : Nat → Prop} {good' kept' : α → Prop} (h : Loads alloc x cost good kept)
    (hcost : ∀ n, cost' n ↔ cost n) (hgood : ∀ a, good a → good' a)
    (hkept : ∀ a, kept' a → kept a) : Loads alloc x cost' good' kept' where
  complete := by
    intro n heap hn hgranted
    obtain ⟨a, hx, ha⟩ := h.complete ((hcost n).mp hn) hgranted
    exact ⟨a, hx, hgood a ha⟩
  only := by
    intro heap a heap' hx ha
    obtain ⟨n, hn, hgranted, heq⟩ := h.only hx (hkept a ha)
    exact ⟨n, (hcost n).mpr hn, hgranted, heq⟩

theorem loads_pure {a : α} (ha : good a) : Loads alloc (pure a) (· = 0) good kept where
  complete := by
    rintro n heap rfl -
    exact ⟨a, rfl, ha⟩
  only := by
    rintro heap b heap' hx -
    cases hx
    exact ⟨0, rfl, granted_zero, rfl⟩

theorem loads_fail {a : α} (ha : ¬ kept a) : Loads alloc (pure a) (fun _ => False) good kept where
  complete := fun h => h.elim
  only := by
    intro heap b heap' hx hb
    cases hx
    exact absurd hb ha

theorem loads_never (h : ∀ a, ¬ kept a) : Loads alloc x (fun _ => False) good kept where
  complete := fun h => h.elim
  only := fun _ hkept => absurd hkept (h _)

theorem loads_stray : Loads alloc (stray : Alloc α) (fun _ => False) good kept where
  complete := fun h => h.elim
  only := fun hx => nomatch hx

variable {good' kept' : β → Prop}

theorem loads_map {f : α → β} (h : Loads alloc x cost good kept)
    (hgood : ∀ a, good a → good' (f a)) (hkept : ∀ a, kept' (f a) → kept a) :
    Loads alloc (x >>= fun a => pure (f a)) cost good' kept' where
  complete := by
    intro n heap hn hgranted
    obtain ⟨a, hx, ha⟩ := h.complete hn hgranted
    exact ⟨f a, bind_of_eq hx, hgood a ha⟩
  only := by
    intro heap b heap' hx hb
    obtain ⟨a, heap₁, hx, hpure⟩ := bind_eq_some hx
    cases hpure
    exact h.only hx (hkept a hb)

theorem loads_bind_never {f : α → Alloc β}
    (h : ∀ a, Loads alloc (f a) (fun _ => False) good' kept') :
    Loads alloc (x >>= f) (fun _ => False) good' kept' where
  complete := fun h => h.elim
  only := by
    intro heap b heap' hbind hb
    obtain ⟨a, heap₁, -, hf⟩ := bind_eq_some hbind
    obtain ⟨n, hnever, -⟩ := (h a).only hf hb
    exact hnever.elim

theorem loads_bind {f : α → Alloc β} {cost' : Nat → Prop} (h : Loads alloc x cost good kept)
    (hcomplete : ∀ a n heap, good a → cost' n → Granted alloc heap n →
      ∃ b, f a heap = some (b, heap.after n) ∧ good' b)
    (honly : ∀ a b heap heap', f a heap = some (b, heap') → kept' b →
      kept a ∧ ∃ n, cost' n ∧ Granted alloc heap n ∧ heap' = heap.after n) :
    Loads alloc (x >>= f) (fun n => ∃ n₁ n₂, cost n₁ ∧ cost' n₂ ∧ n = n₁ + n₂) good' kept' where
  complete := by
    rintro n heap ⟨n₁, n₂, h₁, h₂, rfl⟩ hgranted
    obtain ⟨hfirst, hsecond⟩ := granted_add.mp hgranted
    obtain ⟨a, hx, ha⟩ := h.complete h₁ hfirst
    obtain ⟨b, hf, hb⟩ := hcomplete a n₂ _ ha h₂ hsecond
    refine ⟨b, ?_, hb⟩
    rw [bind_of_eq hx, hf, Heap.after_after]
  only := by
    intro heap b heap' hbind hb
    obtain ⟨a, heap₁, hx, hf⟩ := bind_eq_some hbind
    obtain ⟨ha, n₂, h₂, hsecond, rfl⟩ := honly a b heap₁ heap' hf hb
    obtain ⟨n₁, h₁, hfirst, rfl⟩ := h.only hx ha
    exact ⟨n₁ + n₂, ⟨n₁, n₂, h₁, h₂, rfl⟩, granted_add.mpr ⟨hfirst, hsecond⟩, Heap.after_after ..⟩

theorem loads_map₂ {y : Alloc β} {f : α → β → γ} {cost' : Nat → Prop}
    {good'' kept'' : γ → Prop} (h : Loads alloc x cost good kept)
    (h' : Loads alloc y cost' good' kept') (hgood : ∀ a b, good a → good' b → good'' (f a b))
    (hkept : ∀ a b, kept'' (f a b) → kept a ∧ kept' b) :
    Loads alloc (x >>= fun a => y >>= fun b => pure (f a b))
      (fun n => ∃ n₁ n₂, cost n₁ ∧ cost' n₂ ∧ n = n₁ + n₂) good'' kept'' := by
  apply loads_bind h
  · intro a n heap ha hn hgranted
    obtain ⟨b, hy, hb⟩ := h'.complete hn hgranted
    exact ⟨f a b, bind_of_eq hy, hgood a b ha hb⟩
  · intro a c heap heap' hbind hc
    obtain ⟨b, heap₁, hy, hpure⟩ := bind_eq_some hbind
    cases hpure
    obtain ⟨ha, hb⟩ := hkept a b hc
    exact ⟨ha, h'.only hy hb⟩

theorem loads_malloc {bad : α} (h : Loads alloc x cost good kept) (hbad : ¬ kept bad) :
    Loads alloc (malloc alloc >>= fun got => if got = true then x else pure bad)
      (fun n => ∃ m, cost m ∧ n = m + 1) good kept where
  complete := by
    rintro n heap ⟨m, hm, rfl⟩ hgranted
    obtain ⟨hfirst, hrest⟩ := granted_add.mp (Nat.add_comm m 1 ▸ hgranted)
    obtain ⟨a, hx, ha⟩ := h.complete hm hrest
    refine ⟨a, ?_, ha⟩
    rw [bind_of_eq (malloc_granted (granted_one.mp hfirst)), if_pos rfl, hx, Heap.after_after,
      Nat.add_comm]
  only := by
    intro heap a heap' hx ha
    obtain ⟨got, heap₁, hgot, hx⟩ := bind_eq_some hx
    obtain ⟨rfl, hgranted, rfl⟩ | rfl := malloc_cases hgot
    · rw [if_pos rfl] at hx
      obtain ⟨m, hm, hrest, rfl⟩ := h.only hx ha
      refine ⟨m + 1, ⟨m, hm, rfl⟩, ?_, ?_⟩
      · rw [Nat.add_comm]
        exact granted_add.mpr ⟨granted_one.mpr hgranted, hrest⟩
      · rw [Heap.after_after, Nat.add_comm]
    · rw [if_neg Bool.false_ne_true] at hx
      cases hx
      exact absurd ha hbad

theorem loads_malloc_never {bad : α} (h : Loads alloc x (fun _ => False) good kept)
    (hbad : ¬ kept bad) :
    Loads alloc (malloc alloc >>= fun got => if got = true then x else pure bad)
      (fun _ => False) good kept := by
  refine (loads_malloc h hbad).congr (fun n => ?_) (fun _ => id) fun _ => id
  simp

end Alloc

inductive Costs {α : Type} (cost : α → Nat → Prop) : List α → Nat → Prop
  | nil : Costs cost [] 0
  | cons {a : α} {as : List α} {m n : Nat} :
      cost a m → Costs cost as n → Costs cost (a :: as) (m + n)

theorem costs_nil_iff {α : Type} {cost : α → Nat → Prop} {n : Nat} : Costs cost [] n ↔ n = 0 := by
  constructor
  · intro h
    cases h
    rfl
  · rintro rfl
    exact .nil

theorem costs_cons_iff {α : Type} {cost : α → Nat → Prop} {a : α} {as : List α} {n : Nat} :
    Costs cost (a :: as) n ↔ ∃ n₁ n₂, cost a n₁ ∧ Costs cost as n₂ ∧ n = n₁ + n₂ := by
  constructor
  · intro h
    cases h with
    | cons ha has => exact ⟨_, _, ha, has, rfl⟩
  · rintro ⟨n₁, n₂, ha, has, rfl⟩
    exact .cons ha has

end AliyunIot.Lib
