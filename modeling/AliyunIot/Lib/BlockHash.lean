import Mathlib.Algebra.Ring.Nat
import Mathlib.Data.List.Basic

/-!
# Hash functions over blocks

A message is cut into blocks of `n` elements, and `process` takes a chaining value over
each (`absorb`). What has been absorbed so far and what comes next can be cut anywhere
(`absorb_append`), which is what a digest context relies on. `blockHash` pads a message of
bytes to whole blocks of 64, the last eight bytes its length in bits.
-/

namespace AliyunIot.Lib.BlockHash

variable {σ α : Type}

/-- The chaining value behind the first `k` blocks of `xs`, and the rest of `xs`. -/
def absorbN (n : Nat) (process : σ → List α → σ) : Nat → σ → List α → σ × List α
  | 0, s, xs => (s, xs)
  | k + 1, s, xs => absorbN n process k (process s (xs.take n)) (xs.drop n)

/-- The chaining value behind all blocks of `xs`, and what is too short for one. -/
def absorb (n : Nat) (process : σ → List α → σ) (s : σ) (xs : List α) : σ × List α :=
  absorbN n process (xs.length / n) s xs

section

variable {n : Nat} {process : σ → List α → σ}

theorem absorbN_rest (k : Nat) (s : σ) (xs : List α) :
    (absorbN n process k s xs).2 = xs.drop (n * k) := by
  induction k generalizing s xs with
  | zero => rfl
  | succ k ih => rw [absorbN, ih, List.drop_drop, Nat.mul_succ, Nat.add_comm]

theorem absorbN_add (j k : Nat) (s : σ) (xs : List α) :
    absorbN n process (j + k) s xs =
      absorbN n process k (absorbN n process j s xs).1 (absorbN n process j s xs).2 := by
  induction j generalizing s xs with
  | zero => rw [Nat.zero_add]; rfl
  | succ j ih => rw [Nat.succ_add, absorbN, ih]; rfl

theorem absorbN_append {k : Nat} {xs : List α} (h : n * k ≤ xs.length) (s : σ) (ys : List α) :
    absorbN n process k s (xs ++ ys) =
      ((absorbN n process k s xs).1, (absorbN n process k s xs).2 ++ ys) := by
  induction k generalizing s xs with
  | zero => rfl
  | succ k ih =>
    rw [Nat.mul_succ] at h
    have hn : n ≤ xs.length := Nat.le_trans (Nat.le_add_left _ _) h
    have hrest : n * k ≤ (xs.drop n).length := by
      rw [List.length_drop]
      exact Nat.le_sub_of_add_le h
    rw [absorbN, absorbN, List.take_append_of_le_length hn, List.drop_append_of_le_length hn,
      ih hrest]

theorem absorb_short {xs : List α} (h : xs.length < n) (s : σ) :
    absorb n process s xs = (s, xs) := by
  rw [absorb, Nat.div_eq_of_lt h, absorbN]

@[simp] theorem absorb_nil (s : σ) : absorb n process s [] = (s, []) := by
  rw [absorb, List.length_nil, Nat.zero_div, absorbN]

theorem absorb_step {xs : List α} (hn : 0 < n) (h : n ≤ xs.length) (s : σ) :
    absorb n process s xs = absorb n process (process s (xs.take n)) (xs.drop n) := by
  have hblocks : xs.length / n = (xs.length - n) / n + 1 := by
    rw [← Nat.add_div_right _ hn, Nat.sub_add_cancel h]
  rw [absorb, absorb, hblocks, absorbN, List.length_drop]

theorem length_absorb (s : σ) (xs : List α) : (absorb n process s xs).2.length = xs.length % n := by
  rw [absorb, absorbN_rest, List.length_drop, Nat.mod_eq_sub_mul_div]

theorem absorb_append (hn : 0 < n) (s : σ) (xs ys : List α) :
    absorb n process s (xs ++ ys) =
      absorb n process (absorb n process s xs).1 ((absorb n process s xs).2 ++ ys) := by
  have hwhole : n * (xs.length / n) ≤ xs.length := Nat.mul_div_le _ _
  have hblocks : (xs ++ ys).length / n =
      xs.length / n + ((absorb n process s xs).2 ++ ys).length / n := by
    rw [List.length_append, List.length_append, length_absorb, ← Nat.mul_add_div hn,
      ← Nat.add_assoc, Nat.div_add_mod]
  rw [absorb, hblocks, absorbN_add, absorbN_append hwhole]
  rfl

theorem absorb_fill {rest xs : List α} (hn : 0 < n) (hrest : rest.length ≤ n)
    (h : n - rest.length ≤ xs.length) (s : σ) :
    absorb n process s (rest ++ xs) =
      absorb n process (process s (rest ++ xs.take (n - rest.length)))
        (xs.drop (n - rest.length)) := by
  have hfull : n ≤ (rest ++ xs).length := by
    rw [List.length_append]
    omega
  rw [absorb_step hn hfull, List.take_append, List.drop_append, List.take_of_length_le hrest,
    List.drop_of_length_le hrest, List.nil_append]

theorem absorb_map {τ : Type} {process' : τ → List α → τ} (f : σ → τ)
    (h : ∀ s (b : List α), b.length = n → f (process s b) = process' (f s) b) (s : σ)
    (xs : List α) :
    absorb n process' (f s) xs = (f (absorb n process s xs).1, (absorb n process s xs).2) := by
  have hrun (k : Nat) : ∀ s (xs : List α), n * k ≤ xs.length →
      absorbN n process' k (f s) xs =
        (f (absorbN n process k s xs).1, (absorbN n process k s xs).2) := by
    induction k with
    | zero => intros; rfl
    | succ k ih =>
      intro s xs hk
      rw [Nat.mul_succ] at hk
      have hblock : (xs.take n).length = n := by
        rw [List.length_take, Nat.min_eq_left (Nat.le_trans (Nat.le_add_left _ _) hk)]
      rw [absorbN, absorbN, ← h _ _ hblock, ih]
      rw [List.length_drop]
      exact Nat.le_sub_of_add_le hk
  exact hrun _ s xs (Nat.mul_div_le _ _)

end

/-! ## Padding -/

/-- The `w` lowest bytes of a number, the least first. -/
def leBytes (w k : Nat) : List UInt8 := (List.range w).map fun i => UInt8.ofNat (k / 256 ^ i)

/-- The `w` lowest bytes of a number, the greatest first. -/
def beBytes (w k : Nat) : List UInt8 := (leBytes w k).reverse

variable (w k : Nat)

@[simp] theorem length_leBytes : (leBytes w k).length = w := by
  rw [leBytes, List.length_map, List.length_range]

@[simp] theorem length_beBytes : (beBytes w k).length = w := by
  rw [beBytes, List.length_reverse, length_leBytes]

theorem leBytes_add (v w k : Nat) : leBytes (v + w) k = leBytes v k ++ leBytes w (k / 256 ^ v) := by
  rw [leBytes, leBytes, leBytes, List.range_add, List.map_append, List.map_map]
  congr 1
  apply List.map_congr_left
  intro i _
  rw [Function.comp_apply, Nat.pow_add, Nat.div_div_eq_div_mul]

theorem leBytes_mod : leBytes w (k % 256 ^ w) = leBytes w k := by
  apply List.map_congr_left
  intro i hi
  have hw : 256 ^ w = 256 ^ i * (256 * 256 ^ (w - i - 1)) := by
    rw [← Nat.pow_succ', ← Nat.pow_add]
    congr 1
    have hlt := List.mem_range.mp hi
    omega
  apply UInt8.toNat_inj.mp
  rw [UInt8.toNat_ofNat', UInt8.toNat_ofNat', hw, Nat.mod_mul_right_div_self,
    Nat.mod_mul_right_mod]

/-- How many bytes go between a message of `len` bytes and its length. -/
def padn (len : Nat) : Nat := if len % 64 < 56 then 56 - len % 64 else 120 - len % 64

/-- What is put behind a message of `len` bytes: a one bit, zeros, and the length in bits
as `bits` writes it. -/
def padding (bits : Nat → List UInt8) (len : Nat) : List UInt8 :=
  0x80 :: List.replicate (padn len - 1) 0 ++ bits (8 * len)

theorem padn_pos (len : Nat) : 0 < padn len := by
  unfold padn
  split <;> omega

theorem padn_le (len : Nat) : padn len ≤ 64 := by
  unfold padn
  split <;> omega

/-- The chaining value behind the padded message. -/
def blockHash (process : σ → List UInt8 → σ) (bits : Nat → List UInt8) (init : σ)
    (msg : List UInt8) : σ :=
  (absorb 64 process init (msg ++ padding bits msg.length)).1

theorem blockHash_map {τ : Type} {process : σ → List UInt8 → σ} {process' : τ → List UInt8 → τ}
    {bits : Nat → List UInt8} (f : σ → τ)
    (h : ∀ s (b : List UInt8), b.length = 64 → f (process s b) = process' (f s) b) (init : σ)
    (msg : List UInt8) :
    f (blockHash process bits init msg) = blockHash process' bits (f init) msg := by
  rw [blockHash, blockHash, absorb_map f h]

/-! ## Keyed hashes -/

/-- A key of at most a block, in a block; a longer one is hashed before. -/
def macKey (hash : List UInt8 → List UInt8) (key : List UInt8) : List UInt8 :=
  let k0 := if key.length ≤ 64 then key else hash key
  k0 ++ List.replicate (64 - k0.length) 0

/-- The keyed-hash message authentication code. -/
def hmac (hash : List UInt8 → List UInt8) (key msg : List UInt8) : List UInt8 :=
  hash ((macKey hash key).map (· ^^^ 0x5c) ++ hash ((macKey hash key).map (· ^^^ 0x36) ++ msg))

theorem macKey_short {hash : List UInt8 → List UInt8} {key : List UInt8} (h : key.length ≤ 64) :
    macKey hash key = key ++ List.replicate (64 - key.length) 0 := by
  simp only [macKey, if_pos h]

end AliyunIot.Lib.BlockHash
