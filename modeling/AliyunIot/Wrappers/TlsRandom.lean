import Mathlib.Algebra.Ring.Nat
import Mathlib.Data.List.Basic

/-!
# The random source of TLS

`_ssl_random` counts the bytes of a request with 32 bits, and the places with eight: from the
257th byte on it fills the first ones again (`fills_iff`).
-/

namespace AliyunIot.Wrappers.TlsRandom

def halRandom (region random : UInt32) : UInt32 := if 0 < region then random % region else random

/-- A byte that is stored, and how far behind `output`. -/
structure Store where
  place : Nat
  byte : UInt8

/-- The stores of the loop of `_ssl_random` in turn; `rand` are the values of the calls from the
first of the request on. -/
def sslRandomLoop (rand : Nat → UInt32) : Nat → Nat → UInt8 → List Store
  | 0, _, _ => []
  | rnglen + 1, call, rngoffset =>
    ⟨rngoffset.toNat, (halRandom 0 (rand call)).toUInt8⟩ ::
      sslRandomLoop rand rnglen (call + 1) (rngoffset + 1)

/-- `_ssl_random`; `rnglen` is a `uint32_t`, `rngoffset` a `uint8_t`. -/
def sslRandom (rand : Nat → UInt32) (outputLen : Nat) : List Store :=
  sslRandomLoop rand (outputLen % 2 ^ 32) 0 0

/-- Every byte of the request is stored at least once, each store is a value of `HAL_Random`, and
none is outside. -/
structure Fills (rand : Nat → UInt32) (outputLen : Nat) : Prop where
  covered : ∀ place < outputLen, ∃ byte, ⟨place, byte⟩ ∈ sslRandom rand outputLen
  drawn : ∀ store ∈ sslRandom rand outputLen, ∃ call,
    store.byte = (halRandom 0 (rand call)).toUInt8
  inside : ∀ store ∈ sslRandom rand outputLen, store.place < outputLen

section Stores

variable {rand : Nat → UInt32} {rnglen call outputLen : Nat} {rngoffset : UInt8} {store : Store}

theorem mem_sslRandomLoop : store ∈ sslRandomLoop rand rnglen call rngoffset ↔
    ∃ k < rnglen, store =
      ⟨(rngoffset.toNat + k) % 256, (halRandom 0 (rand (call + k))).toUInt8⟩ := by
  induction rnglen generalizing call rngoffset with
  | zero =>
    constructor
    · intro h
      cases h
    · rintro ⟨k, hk, -⟩
      exact absurd hk (Nat.not_lt_zero k)
  | succ rnglen ih =>
    have hplace : ∀ k, ((rngoffset + 1).toNat + k) % 256 = (rngoffset.toNat + (k + 1)) % 256 := by
      intro k
      rw [UInt8.toNat_add]
      have hone : (1 : UInt8).toNat = 1 := rfl
      omega
    have hfirst : (rngoffset.toNat + 0) % 256 = rngoffset.toNat :=
      Nat.mod_eq_of_lt rngoffset.toNat_lt
    rw [sslRandomLoop, List.mem_cons, ih]
    constructor
    · rintro (rfl | ⟨k, hk, rfl⟩)
      · exact ⟨0, Nat.succ_pos _, by rw [hfirst, Nat.add_zero]⟩
      · refine ⟨k + 1, Nat.succ_lt_succ hk, ?_⟩
        rw [hplace, Nat.add_right_comm, Nat.add_assoc]
    · rintro ⟨k, hk, rfl⟩
      cases k with
      | zero => exact .inl (by rw [hfirst, Nat.add_zero])
      | succ k =>
        refine .inr ⟨k, Nat.lt_of_succ_lt_succ hk, ?_⟩
        rw [hplace, Nat.add_right_comm, Nat.add_assoc]

theorem place_lt (h : store ∈ sslRandom rand outputLen) : store.place < 256 := by
  obtain ⟨k, -, rfl⟩ := mem_sslRandomLoop.mp h
  exact Nat.mod_lt _ (by decide)

theorem mem_sslRandom (hshort : outputLen ≤ 256) : store ∈ sslRandom rand outputLen ↔
    ∃ k < outputLen, store = ⟨k, (halRandom 0 (rand k)).toUInt8⟩ := by
  have hlen : outputLen % 2 ^ 32 = outputLen := by omega
  have hplace : ∀ k < outputLen, ((0 : UInt8).toNat + k) % 256 = k := by
    intro k hk
    have hzero : (0 : UInt8).toNat = 0 := rfl
    omega
  rw [sslRandom, hlen, mem_sslRandomLoop]
  constructor
  · rintro ⟨k, hk, rfl⟩
    exact ⟨k, hk, by rw [hplace k hk, Nat.zero_add]⟩
  · rintro ⟨k, hk, rfl⟩
    exact ⟨k, hk, by rw [hplace k hk, Nat.zero_add]⟩

/-- A request is filled just when the places of all its bytes have eight bits. -/
theorem fills_iff (rand : Nat → UInt32) (outputLen : Nat) :
    Fills rand outputLen ↔ outputLen ≤ 256 := by
  constructor
  · intro h
    by_contra hlong
    obtain ⟨byte, hbyte⟩ := h.covered 256 (Nat.lt_of_not_le hlong)
    exact Nat.lt_irrefl 256 (place_lt hbyte)
  · intro hshort
    refine ⟨fun place hlt => ?_, fun store h => ?_, fun store h => ?_⟩
    · exact ⟨_, (mem_sslRandom hshort).mpr ⟨place, hlt, rfl⟩⟩
    · obtain ⟨k, -, rfl⟩ := (mem_sslRandom hshort).mp h
      exact ⟨k, rfl⟩
    · obtain ⟨k, hk, rfl⟩ := (mem_sslRandom hshort).mp h
      exact hk

end Stores

/-- The last byte of a request of 257 bytes is not stored. -/
theorem last_byte_stale : ¬ Fills (fun _ => 0) 257 := fun h => by
  obtain ⟨byte, hbyte⟩ := h.covered 256 (by decide)
  exact Nat.lt_irrefl 256 (place_lt hbyte)

end AliyunIot.Wrappers.TlsRandom
