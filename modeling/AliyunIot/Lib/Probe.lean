import AliyunIot.Lib.Bytes

/-!
# Readers and what they read

A `Probe α` is a reader of memory: it returns, or loads one address and goes on
with the byte found there. `value` is what it returns on a memory and `reads`
the addresses it loads. Loads are the only way to learn about the memory, so a
reader whose loads stay below `n` cannot tell two memories apart that agree
below `n` (`Confined.value_congr`).
-/

namespace AliyunIot.Lib

inductive Probe (α : Type) where
  | ret (a : α)
  | read (addr : Nat) (k : UInt8 → Probe α)

namespace Probe

variable {α β : Type}

/-- Sequential composition. -/
def bind : Probe α → (α → Probe β) → Probe β
  | ret a, f => f a
  | read addr k, f => read addr fun b => bind (k b) f

instance : Monad Probe where
  pure := ret
  bind := bind

def load (addr : Nat) : Probe UInt8 := read addr ret

/-- The result on memory `m`. -/
def value (m : Mem) : Probe α → α
  | ret a => a
  | read addr k => value m (k (m addr))

/-- The addresses loaded on memory `m`, in order. -/
def reads (m : Mem) : Probe α → List Nat
  | ret _ => []
  | read addr k => addr :: reads m (k (m addr))

@[simp] theorem value_pure (m : Mem) (a : α) : value m (pure a : Probe α) = a := rfl
@[simp] theorem reads_pure (m : Mem) (a : α) : reads m (pure a : Probe α) = [] := rfl
@[simp] theorem value_load (m : Mem) (addr : Nat) : value m (load addr) = m addr := rfl
@[simp] theorem reads_load (m : Mem) (addr : Nat) : reads m (load addr) = [addr] := rfl

@[simp] theorem value_bind (m : Mem) (p : Probe α) (f : α → Probe β) :
    value m (p >>= f) = value m (f (value m p)) := by
  induction p with
  | ret a => rfl
  | read addr k ih => exact ih (m addr)

@[simp] theorem reads_bind (m : Mem) (p : Probe α) (f : α → Probe β) :
    reads m (p >>= f) = reads m p ++ reads m (f (value m p)) := by
  induction p with
  | ret a => rfl
  | read addr k ih => exact congrArg (addr :: ·) (ih (m addr))

variable {m : Mem}

theorem run_congr {m' : Mem} (p : Probe α) (h : ∀ a ∈ reads m p, m' a = m a) :
    value m' p = value m p ∧ reads m' p = reads m p := by
  induction p with
  | ret a => exact ⟨rfl, rfl⟩
  | read addr k ih =>
    have ha : m' addr = m addr := h addr List.mem_cons_self
    have hk := ih (m addr) fun a hm => h a (List.mem_cons_of_mem _ hm)
    simp only [value, reads, ha]
    exact ⟨hk.1, congrArg _ hk.2⟩

/-- Every load of `p` on `m` is in `[lo, hi)`. -/
def Confined (m : Mem) (lo hi : Nat) (p : Probe α) : Prop := ∀ a ∈ reads m p, lo ≤ a ∧ a < hi

variable {lo hi : Nat}

theorem Confined.value_congr {m' : Mem} {p : Probe α} (h : Confined m lo hi p)
    (hm : ∀ a, lo ≤ a → a < hi → m' a = m a) : value m' p = value m p :=
  (run_congr p fun a ha => hm a (h a ha).1 (h a ha).2).1

theorem Confined.mono {lo' hi' : Nat} {p : Probe α} (h : Confined m lo hi p)
    (hlo : lo' ≤ lo) (hhi : hi ≤ hi') : Confined m lo' hi' p :=
  fun a ha => ⟨Nat.le_trans hlo (h a ha).1, Nat.lt_of_lt_of_le (h a ha).2 hhi⟩

theorem confined_pure (m : Mem) (lo hi : Nat) (a : α) : Confined m lo hi (pure a : Probe α) :=
  fun _ ha => absurd ha List.not_mem_nil

theorem confined_load {addr : Nat} (h1 : lo ≤ addr) (h2 : addr < hi) :
    Confined m lo hi (load addr) := by
  intro a ha
  rw [reads_load, List.mem_singleton] at ha
  subst ha; exact ⟨h1, h2⟩

theorem confined_bind {p : Probe α} {f : α → Probe β} :
    Confined m lo hi (p >>= f) ↔ Confined m lo hi p ∧ Confined m lo hi (f (value m p)) := by
  simp only [Confined, reads_bind, List.mem_append]
  exact ⟨fun h => ⟨fun a ha => h a (.inl ha), fun a ha => h a (.inr ha)⟩,
    fun h a ha => ha.elim (h.1 a) (h.2 a)⟩

end Probe

end AliyunIot.Lib
