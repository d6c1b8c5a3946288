import AliyunIot.Lib.BlockHash
import Mathlib.Data.Nat.NthRoot.Defs

/-!
# The secure hash standard

SHA-1 and SHA-256 as FIPS 180-4 defines them. A block is 64 bytes, or sixteen words, the
first byte of a word its highest; the schedule goes on from the words of the block, and
each round takes one word of it.
-/

namespace AliyunIot.Lib.Fips180

/-- The word of four bytes, the highest first. -/
def beWord (b0 b1 b2 b3 : UInt8) : UInt32 :=
  UInt32.ofNat (((b0.toNat * 256 + b1.toNat) * 256 + b2.toNat) * 256 + b3.toNat)

def blockWord (block : List UInt8) (t : Nat) : UInt32 :=
  beWord (block.getD (4 * t) 0) (block.getD (4 * t + 1) 0) (block.getD (4 * t + 2) 0)
    (block.getD (4 * t + 3) 0)

def rotl (x n : UInt32) : UInt32 := (x <<< n) ||| (x >>> (32 - n))

def rotr (x n : UInt32) : UInt32 := (x >>> n) ||| (x <<< (32 - n))

def ch (x y z : UInt32) : UInt32 := (x &&& y) ^^^ (~~~x &&& z)

def parity (x y z : UInt32) : UInt32 := x ^^^ y ^^^ z

def maj (x y z : UInt32) : UInt32 := (x &&& y) ^^^ (x &&& z) ^^^ (y &&& z)

/-! ## Constants -/

def primesBelow (n : Nat) : List Nat :=
  (List.range n).filter fun p => 2 ≤ p ∧ ∀ d < p, 2 ≤ d → p % d ≠ 0

/-- The first 32 bits of the fractional part of the square root of `p`. -/
def squareRootBits (p : Nat) : UInt32 := UInt32.ofNat (Nat.nthRoot 2 (p * 2 ^ 64))

/-- The first 32 bits of the fractional part of the cube root of `p`. -/
def cubeRootBits (p : Nat) : UInt32 := UInt32.ofNat (Nat.nthRoot 3 (p * 2 ^ 96))

/-! ## SHA-1 -/

section

variable (block : List UInt8)

def sha1Schedule (t : Nat) : UInt32 :=
  if t < 16 then blockWord block t
  else rotl (sha1Schedule (t - 3) ^^^ sha1Schedule (t - 8) ^^^ sha1Schedule (t - 14) ^^^
    sha1Schedule (t - 16)) 1

def sha1F (t : Nat) : UInt32 → UInt32 → UInt32 → UInt32 :=
  if t < 20 then ch else if t < 40 then parity else if t < 60 then maj else parity

/-- The square roots of 2, 3, 5 and 10, a quarter of each. -/
def sha1K (t : Nat) : UInt32 :=
  UInt32.ofNat (Nat.nthRoot 2
    ((if t < 20 then 2 else if t < 40 then 3 else if t < 60 then 5 else 10) * 2 ^ 60))

structure Sha1Work where
  a : UInt32
  b : UInt32
  c : UInt32
  d : UInt32
  e : UInt32

def sha1Step (w : Sha1Work) (t : Nat) : Sha1Work where
  a := rotl w.a 5 + sha1F t w.b w.c w.d + w.e + sha1K t + sha1Schedule block t
  b := w.a
  c := rotl w.b 30
  d := w.c
  e := w.d

def sha1Compress (h : Sha1Work) : Sha1Work :=
  let w := (List.range 80).foldl (sha1Step block) h
  ⟨w.a + h.a, w.b + h.b, w.c + h.c, w.d + h.d, w.e + h.e⟩

end

def sha1Init : Sha1Work := ⟨0x67452301, 0xEFCDAB89, 0x98BADCFE, 0x10325476, 0xC3D2E1F0⟩

def Sha1Work.digest (h : Sha1Work) : List UInt8 :=
  [h.a, h.b, h.c, h.d, h.e].flatMap fun w => BlockHash.beBytes 4 w.toNat

def sha1 (msg : List UInt8) : List UInt8 :=
  (BlockHash.blockHash (fun h block => sha1Compress block h) (BlockHash.beBytes 8) sha1Init
    msg).digest

/-! ## SHA-256 -/

def bigSigma0 (x : UInt32) : UInt32 := rotr x 2 ^^^ rotr x 13 ^^^ rotr x 22

def bigSigma1 (x : UInt32) : UInt32 := rotr x 6 ^^^ rotr x 11 ^^^ rotr x 25

def smallSigma0 (x : UInt32) : UInt32 := rotr x 7 ^^^ rotr x 18 ^^^ (x >>> 3)

def smallSigma1 (x : UInt32) : UInt32 := rotr x 17 ^^^ rotr x 19 ^^^ (x >>> 10)

section

variable (block : List UInt8)

def sha256Schedule (t : Nat) : UInt32 :=
  if t < 16 then blockWord block t
  else smallSigma1 (sha256Schedule (t - 2)) + sha256Schedule (t - 7) +
    smallSigma0 (sha256Schedule (t - 15)) + sha256Schedule (t - 16)

def sha256K (t : Nat) : UInt32 := cubeRootBits ((primesBelow 312).getD t 0)

structure Sha256Work where
  a : UInt32
  b : UInt32
  c : UInt32
  d : UInt32
  e : UInt32
  f : UInt32
  g : UInt32
  h : UInt32
  deriving DecidableEq

def sha256Step (w : Sha256Work) (t : Nat) : Sha256Work :=
  let t1 := w.h + bigSigma1 w.e + ch w.e w.f w.g + sha256K t + sha256Schedule block t
  let t2 := bigSigma0 w.a + maj w.a w.b w.c
  ⟨t1 + t2, w.a, w.b, w.c, w.d + t1, w.e, w.f, w.g⟩

def sha256Compress (h : Sha256Work) : Sha256Work :=
  let w := (List.range 64).foldl (sha256Step block) h
  ⟨w.a + h.a, w.b + h.b, w.c + h.c, w.d + h.d, w.e + h.e, w.f + h.f, w.g + h.g, w.h + h.h⟩

end

def sha256Init : Sha256Work :=
  ⟨squareRootBits 2, squareRootBits 3, squareRootBits 5, squareRootBits 7, squareRootBits 11,
    squareRootBits 13, squareRootBits 17, squareRootBits 19⟩

def Sha256Work.digest (h : Sha256Work) : List UInt8 :=
  [h.a, h.b, h.c, h.d, h.e, h.f, h.g, h.h].flatMap fun w => BlockHash.beBytes 4 w.toNat

def sha256 (msg : List UInt8) : List UInt8 :=
  (BlockHash.blockHash (fun h block => sha256Compress block h) (BlockHash.beBytes 8) sha256Init
    msg).digest

theorem primesBelow_312 : primesBelow 312 =
    [2, 3, 5, 7, 11, 13, 17, 19, 23, 29, 31, 37, 41, 43, 47, 53, 59, 61, 67, 71, 73, 79, 83, 89, 97,
      101, 103, 107, 109, 113, 127, 131, 137, 139, 149, 151, 157, 163, 167, 173, 179, 181, 191, 193,
      197, 199, 211, 223, 227, 229, 233, 239, 241, 251, 257, 263, 269, 271, 277, 281, 283, 293, 307,
      311] := by
  decide +kernel

theorem length_sha1 (msg : List UInt8) : (sha1 msg).length = 20 := by
  simp [sha1, Sha1Work.digest]

theorem length_sha256 (msg : List UInt8) : (sha256 msg).length = 32 := by
  simp [sha256, Sha256Work.digest]

/-! ## Other ways to the same words -/

theorem beWord_eq (b0 b1 b2 b3 : UInt8) :
    (b0.toUInt32 <<< 24) ||| (b1.toUInt32 <<< 16) ||| (b2.toUInt32 <<< 8) ||| b3.toUInt32 =
      beWord b0 b1 b2 b3 := by
  have h0 := b0.toNat_lt
  have h1 := b1.toNat_lt
  have h2 := b2.toNat_lt
  have h3 := b3.toNat_lt
  apply UInt32.toNat_inj.mp
  have hshift (b : UInt8) (n : UInt32) (k : Nat) (hn : n.toNat % 32 = k) (hk : k ≤ 24) :
      (b.toUInt32 <<< n).toNat = b.toNat <<< k := by
    have hb := b.toNat_lt
    rw [UInt32.toNat_shiftLeft, UInt8.toNat_toUInt32, hn, Nat.mod_eq_of_lt]
    rw [Nat.shiftLeft_eq]
    calc b.toNat * 2 ^ k
        ≤ b.toNat * 2 ^ 24 := Nat.mul_le_mul_left _ (Nat.pow_le_pow_right (by decide) hk)
      _ < 2 ^ 32 := by omega
  rw [UInt32.toNat_or, UInt32.toNat_or, UInt32.toNat_or, hshift b0 24 24 rfl (by decide),
    hshift b1 16 16 rfl (by decide), hshift b2 8 8 rfl (by decide), UInt8.toNat_toUInt32,
    Nat.or_assoc, Nat.or_assoc, ← Nat.shiftLeft_add_eq_or_of_lt h3,
    ← Nat.shiftLeft_add_eq_or_of_lt (i := 16), ← Nat.shiftLeft_add_eq_or_of_lt (i := 24)]
  · simp only [Nat.shiftLeft_eq, beWord, UInt32.toNat_ofNat']
    omega
  · simp only [Nat.shiftLeft_eq]
    omega
  · simp only [Nat.shiftLeft_eq]
    omega

theorem ch_eq (x y z : UInt32) : z ^^^ (x &&& (y ^^^ z)) = ch x y z := by
  apply UInt32.toBitVec_inj.mp
  ext i hi
  simp only [ch, UInt32.toBitVec_xor, UInt32.toBitVec_and, UInt32.toBitVec_not, BitVec.getElem_xor,
    BitVec.getElem_and, BitVec.getElem_not]
  cases x.toBitVec[i] <;> cases y.toBitVec[i] <;> cases z.toBitVec[i] <;> rfl

theorem maj_eq (x y z : UInt32) : (x &&& y) ||| (z &&& (x ||| y)) = maj x y z := by
  apply UInt32.toBitVec_inj.mp
  ext i hi
  simp only [maj, UInt32.toBitVec_xor, UInt32.toBitVec_and, UInt32.toBitVec_or, BitVec.getElem_xor,
    BitVec.getElem_and, BitVec.getElem_or]
  cases x.toBitVec[i] <;> cases y.toBitVec[i] <;> cases z.toBitVec[i] <;> rfl

end AliyunIot.Lib.Fips180
