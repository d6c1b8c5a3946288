import Mathlib.Logic.Relation
import Mathlib.Tactic.Common

/-!
# Threads that wait for locks

A thread holds some locks and may wait for one more. `Deadlock` is a circle of threads
each of which waits for a lock that the next one holds. Where every thread waits for a
lock that ranks above those it holds, there is none.
-/

namespace AliyunIot.Lib

variable {τ κ : Type}

/-- The locks a thread holds, and the one it waits for. -/
structure Stance (κ : Type) where
  held : List κ
  wants : Option κ
  deriving DecidableEq

/-- The first thread waits for a lock that the second one holds. -/
def WaitsFor (stance : τ → Stance κ) (t u : τ) : Prop :=
  ∃ k, (stance t).wants = some k ∧ k ∈ (stance u).held

def Deadlock (stance : τ → Stance κ) : Prop :=
  ∃ t, Relation.TransGen (WaitsFor stance) t t

/-- The lock waited for ranks above every lock held. -/
def Stance.Ordered (rank : κ → Nat) (s : Stance κ) : Prop :=
  ∀ k, s.wants = some k → ∀ l ∈ s.held, rank l < rank k

variable {stance : τ → Stance κ}

theorem deadlock_of_crossed {t u : τ} (h : WaitsFor stance t u) (h' : WaitsFor stance u t) :
    Deadlock stance :=
  ⟨t, .tail (.single h) h'⟩

theorem rank_lt_of_waits {rank : κ → Nat} (hord : ∀ t, (stance t).Ordered rank) {t u : τ}
    (h : Relation.TransGen (WaitsFor stance) t u) {k l : κ} (hk : (stance t).wants = some k)
    (hl : (stance u).wants = some l) : rank k < rank l := by
  induction h generalizing l with
  | single h =>
    obtain ⟨k', hk', hheld⟩ := h
    cases hk.symm.trans hk'
    exact hord _ l hl k hheld
  | tail _ h ih =>
    obtain ⟨k', hk', hheld⟩ := h
    exact Nat.lt_trans (ih hk') (hord _ l hl k' hheld)

theorem not_deadlock_of_ordered {rank : κ → Nat} (hord : ∀ t, (stance t).Ordered rank) :
    ¬ Deadlock stance := by
  rintro ⟨t, h⟩
  obtain ⟨u, ⟨k, hk, -⟩, -⟩ := Relation.TransGen.head'_iff.mp h
  exact Nat.lt_irrefl _ (rank_lt_of_waits hord h hk hk)

end AliyunIot.Lib
