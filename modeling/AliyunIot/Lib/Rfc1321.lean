import AliyunIot.Lib.Fips180

/-!
# The MD5 message digest

MD5 as RFC 1321 defines it, in four rounds of sixteen steps over four words. The first byte
of a word is its lowest.
-/

namespace AliyunIot.Lib.Rfc1321

/-- The word of four bytes, the lowest first. -/
def leWord (b0 b1 b2 b3 : UInt8) : UInt32 := Fips180.beWord b3 b2 b1 b0

def blockWord (block : List UInt8) (k : Nat) : UInt32 :=
  leWord (block.getD (4 * k) 0) (block.getD (4 * k + 1) 0) (block.getD (4 * k + 2) 0)
    (block.getD (4 * k + 3) 0)

def f (x y z : UInt32) : UInt32 := (x &&& y) ||| (~~~x &&& z)
def g (x y z : UInt32) : UInt32 := (x &&& z) ||| (y &&& ~~~z)
def h (x y z : UInt32) : UInt32 := x ^^^ y ^^^ z
def i (x y z : UInt32) : UInt32 := y ^^^ (x ||| ~~~z)

/-- The function of step `n`, counted from 0. -/
def auxiliary (n : Nat) : UInt32 → UInt32 → UInt32 → UInt32 :=
  if n < 16 then f else if n < 32 then g else if n < 48 then h else i

/-- The word that step `n` takes. -/
def wordOf (n : Nat) : Nat :=
  (if n < 16 then n else if n < 32 then 5 * n + 1 else if n < 48 then 3 * n + 5 else 7 * n) % 16

/-- How far step `n` rotates. -/
def shiftOf (n : Nat) : UInt32 :=
  (if n < 16 then [7, 12, 17, 22] else if n < 32 then [5, 9, 14, 20]
    else if n < 48 then [4, 11, 16, 23] else [6, 10, 15, 21]).getD (n % 4) 0

/-- The integer part of 2^32 times the sine of `n + 1` radians, without its sign. -/
def sineOf (n : Nat) : UInt32 :=
  [
    0xD76AA478, 0xE8C7B756, 0x242070DB, 0xC1BDCEEE, 0xF57C0FAF, 0x4787C62A, 0xA8304613, 0xFD469501,
    0x698098D8, 0x8B44F7AF, 0xFFFF5BB1, 0x895CD7BE, 0x6B901122, 0xFD987193, 0xA679438E, 0x49B40821,
    0xF61E2562, 0xC040B340, 0x265E5A51, 0xE9B6C7AA, 0xD62F105D, 0x02441453, 0xD8A1E681, 0xE7D3FBC8,
    0x21E1CDE6, 0xC33707D6, 0xF4D50D87, 0x455A14ED, 0xA9E3E905, 0xFCEFA3F8, 0x676F02D9, 0x8D2A4C8A,
    0xFFFA3942, 0x8771F681, 0x6D9D6122, 0xFDE5380C, 0xA4BEEA44, 0x4BDECFA9, 0xF6BB4B60, 0xBEBFBC70,
    0x289B7EC6, 0xEAA127FA, 0xD4EF3085, 0x04881D05, 0xD9D4D039, 0xE6DB99E5, 0x1FA27CF8, 0xC4AC5665,
    0xF4292244, 0x432AFF97, 0xAB9423A7, 0xFC93A039, 0x655B59C3, 0x8F0CCC92, 0xFFEFF47D, 0x85845DD1,
    0x6FA87E4F, 0xFE2CE6E0, 0xA3014314, 0x4E0811A1, 0xF7537E82, 0xBD3AF235, 0x2AD7D2BB, 0xEB86D391
  ].getD n 0

/-- The four registers. -/
structure Work where
  a : UInt32
  b : UInt32
  c : UInt32
  d : UInt32

/-- Step `n`, after which the registers change places. -/
def step (block : List UInt8) (w : Work) (n : Nat) : Work where
  a := w.d
  b := w.b + Fips180.rotl (w.a + auxiliary n w.b w.c w.d + blockWord block (wordOf n) + sineOf n)
    (shiftOf n)
  c := w.b
  d := w.c

def compress (block : List UInt8) (w : Work) : Work :=
  let v := (List.range 64).foldl (step block) w
  ⟨v.a + w.a, v.b + w.b, v.c + w.c, v.d + w.d⟩

def init : Work := ⟨0x67452301, 0xEFCDAB89, 0x98BADCFE, 0x10325476⟩

def Work.digest (w : Work) : List UInt8 :=
  [w.a, w.b, w.c, w.d].flatMap fun x => BlockHash.leBytes 4 x.toNat

def md5 (msg : List UInt8) : List UInt8 :=
  (BlockHash.blockHash (fun w block => compress block w) (BlockHash.leBytes 8) init msg).digest

theorem length_md5 (msg : List UInt8) : (md5 msg).length = 16 := by
  simp [md5, Work.digest]

/-! ## Other ways to the same words -/

theorem leWord_eq (b0 b1 b2 b3 : UInt8) :
    b0.toUInt32 ||| (b1.toUInt32 <<< 8) ||| (b2.toUInt32 <<< 16) ||| (b3.toUInt32 <<< 24) =
      leWord b0 b1 b2 b3 := by
  rw [leWord, ← Fips180.beWord_eq]
  generalize b1.toUInt32 <<< 8 = w1
  generalize b2.toUInt32 <<< 16 = w2
  generalize b3.toUInt32 <<< 24 = w3
  ac_rfl

theorem f_eq (x y z : UInt32) : z ^^^ (x &&& (y ^^^ z)) = f x y z := by
  apply UInt32.toBitVec_inj.mp
  ext i hi
  simp only [f, UInt32.toBitVec_xor, UInt32.toBitVec_and, UInt32.toBitVec_or, UInt32.toBitVec_not,
    BitVec.getElem_xor, BitVec.getElem_and, BitVec.getElem_or, BitVec.getElem_not]
  cases x.toBitVec[i] <;> cases y.toBitVec[i] <;> cases z.toBitVec[i] <;> rfl

theorem g_eq (x y z : UInt32) : y ^^^ (z &&& (x ^^^ y)) = g x y z := by
  apply UInt32.toBitVec_inj.mp
  ext i hi
  simp only [g, UInt32.toBitVec_xor, UInt32.toBitVec_and, UInt32.toBitVec_or, UInt32.toBitVec_not,
    BitVec.getElem_xor, BitVec.getElem_and, BitVec.getElem_or, BitVec.getElem_not]
  cases x.toBitVec[i] <;> cases y.toBitVec[i] <;> cases z.toBitVec[i] <;> rfl

end AliyunIot.Lib.Rfc1321
