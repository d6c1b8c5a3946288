import AliyunIot.Coap.Message

/-!
# Lists with a counter

`CoapList.Bounded` says that the counter of a list is the number of its nodes and
not above `maxcount`; the updates of the list and its counter that keep it.
-/

namespace AliyunIot.Coap

variable {α : Type} {l : CoapList α}

/-- The counter is the number of nodes, and there are at most `maxcount`. -/
structure CoapList.Bounded (l : CoapList α) : Prop where
  count : l.count.toNat = l.list.length
  bounded : l.list.length ≤ l.maxcount.toNat

namespace CoapList.Bounded

theorem empty (maxcount : UInt8) : Bounded (⟨[], 0, maxcount⟩ : CoapList α) :=
  ⟨rfl, Nat.zero_le _⟩

theorem append (h : l.Bounded) (hroom : l.list.length < l.maxcount.toNat) (x : α) :
    Bounded { l with list := l.list ++ [x], count := l.count + 1 } := by
  have hlt := l.maxcount.toNat_lt
  have hcount := h.count
  refine ⟨?_, ?_⟩
  · show (l.count + 1).toNat = (l.list ++ [x]).length
    rw [UInt8.toNat_add, List.length_append, ← hcount]
    show (l.count.toNat + 1) % 256 = l.count.toNat + 1
    omega
  · show (l.list ++ [x]).length ≤ _
    rw [List.length_append]
    exact hroom

theorem drop (h : l.Bounded) {xs : List α} {n : Nat} (hlen : xs.length + n = l.list.length) :
    Bounded { l with list := xs, count := l.count - UInt8.ofNat n } := by
  have hlt := l.maxcount.toNat_lt
  have hcount := h.count
  have hmax := h.bounded
  have hn : (UInt8.ofNat n).toNat = n :=
    UInt8.toNat_ofNat_of_lt' (by rw [UInt8.size]; omega)
  have hle : UInt8.ofNat n ≤ l.count := by
    rw [UInt8.le_iff_toNat_le, hn]
    omega
  refine ⟨?_, ?_⟩
  · show (l.count - UInt8.ofNat n).toNat = xs.length
    rw [UInt8.toNat_sub_of_le _ _ hle, hn]
    omega
  · show xs.length ≤ l.maxcount.toNat
    omega

theorem remove (h : l.Bounded) {as bs : List α} {x : α} (hl : l.list = as ++ x :: bs) :
    Bounded { l with list := as ++ bs, count := l.count - 1 } := by
  refine h.drop (n := 1) ?_
  rw [hl, List.length_append, List.length_append, List.length_cons]
  omega

theorem replace (h : l.Bounded) {as bs : List α} {x : α} (hl : l.list = as ++ x :: bs) (y : α) :
    Bounded { l with list := as ++ y :: bs } := by
  have hlen : (as ++ y :: bs).length = l.list.length := by
    rw [hl, List.length_append, List.length_append, List.length_cons, List.length_cons]
  exact ⟨h.count.trans hlen.symm, Nat.le_trans (Nat.le_of_eq hlen) h.bounded⟩

end CoapList.Bounded

end AliyunIot.Coap
