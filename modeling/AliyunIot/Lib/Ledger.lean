import Mathlib.Data.List.Nodup

/-!
# A ledger of freed objects

What has been freed, and the accesses and frees that came after the free of their
object. A program that touches and frees only what is not freed leaves no fault.
-/

namespace AliyunIot.Lib

structure Ledger where
  freed : List Nat
  faults : List Nat
  deriving DecidableEq

namespace Ledger

def empty : Ledger := ⟨[], []⟩

/-- The objects are read or written. -/
def touch (h : Ledger) (ids : List Nat) : Ledger :=
  { h with faults := h.faults ++ ids.filter fun id => id ∈ h.freed }

def free (h : Ledger) (ids : List Nat) : Ledger :=
  { h.touch ids with freed := h.freed ++ ids }

theorem touch_of_live {h : Ledger} {ids : List Nat} (hlive : ∀ id ∈ ids, id ∉ h.freed) :
    h.touch ids = h := by
  have hnone : (ids.filter fun id => id ∈ h.freed) = [] :=
    List.filter_eq_nil_iff.mpr fun id hid => by simpa using hlive id hid
  unfold touch
  rw [hnone, List.append_nil]

theorem free_of_live {h : Ledger} {ids : List Nat} (hlive : ∀ id ∈ ids, id ∉ h.freed) :
    h.free ids = ⟨h.freed ++ ids, h.faults⟩ := by
  unfold free
  rw [touch_of_live hlive]

theorem free_nil (h : Ledger) : h.free [] = h := by
  rw [free_of_live fun id hid => absurd hid List.not_mem_nil, List.append_nil]

/-- Nothing was touched or freed after its free. -/
structure Clean (h : Ledger) : Prop where
  faults : h.faults = []
  once : h.freed.Nodup

theorem Clean.free {h : Ledger} (hc : h.Clean) {ids : List Nat} (hn : ids.Nodup)
    (hlive : ∀ id ∈ ids, id ∉ h.freed) : (h.free ids).Clean := by
  rw [free_of_live hlive]
  exact ⟨hc.faults, List.Nodup.append hc.once hn fun id hf hid => hlive id hid hf⟩

end Ledger

end AliyunIot.Lib
