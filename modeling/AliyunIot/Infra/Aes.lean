import AliyunIot.Lib.Bytes
import AliyunIot.Lib.Cbc

/-!
# AES in CBC mode

`infra_aes128_init`, `infra_aes128_cbc_encrypt` and `infra_aes128_cbc_decrypt` of
`infra_aes.c`, over the blocks of a buffer. The block cipher `infra_aes_crypt_ecb` is a
parameter (`AesCipher`).
-/

namespace AliyunIot.Infra

open Lib

abbrev AesBlock := Vector UInt8 16

/-- `infra_aes_crypt_ecb` under a key, in either mode. -/
structure AesCipher where
  encrypt : AesBlock → AesBlock → AesBlock
  decrypt : AesBlock → AesBlock → AesBlock

structure PlatformAes where
  key : AesBlock
  iv : AesBlock

def xorBlock (a b : AesBlock) : AesBlock := Vector.zipWith (· ^^^ ·) a b

theorem xorBlock_cancel (a b : AesBlock) : xorBlock (xorBlock a b) b = a := by
  apply Vector.ext
  intro i hi
  simp only [xorBlock, Vector.getElem_zipWith]
  rw [UInt8.xor_assoc, UInt8.xor_self, UInt8.xor_zero]

/-- `infra_aes128_init`; `calloc` is whether it can be allocated. -/
def infraAes128Init (key iv : AesBlock) (calloc : Bool) : Option PlatformAes :=
  if calloc then some ⟨key, iv⟩ else none

def infraAesCryptCbcEncrypt (cipher : AesCipher) (aes : PlatformAes) (input : AesBlock) :
    PlatformAes × AesBlock :=
  let output := cipher.encrypt aes.key (xorBlock input aes.iv)
  ({ aes with iv := output }, output)

def infraAesCryptCbcDecrypt (cipher : AesCipher) (aes : PlatformAes) (input : AesBlock) :
    PlatformAes × AesBlock :=
  let output := xorBlock (cipher.decrypt aes.key input) aes.iv
  ({ aes with iv := input }, output)

def cbcLoop (crypt : PlatformAes → AesBlock → PlatformAes × AesBlock) :
    PlatformAes → List AesBlock → PlatformAes × List AesBlock
  | aes, [] => (aes, [])
  | aes, input :: src =>
    let (aes, output) := crypt aes input
    let (aes, dst) := cbcLoop crypt aes src
    (aes, output :: dst)

/-- `infra_aes128_cbc_encrypt`, for at least one block: the result, the context behind
it, and the blocks stored in `dst`. -/
def infraAes128CbcEncrypt (cipher : AesCipher) (aes : Option PlatformAes)
    (src : Option (List AesBlock)) : Int × Option PlatformAes × List AesBlock :=
  match aes, src with
  | some aes, some src =>
    let (aes, dst) := cbcLoop (infraAesCryptCbcEncrypt cipher) aes src
    (0, some aes, dst)
  | aes, _ => (-1, aes, [])

def infraAes128CbcDecrypt (cipher : AesCipher) (aes : Option PlatformAes)
    (src : Option (List AesBlock)) : Int × Option PlatformAes × List AesBlock :=
  match aes, src with
  | some aes, some src =>
    let (aes, dst) := cbcLoop (infraAesCryptCbcDecrypt cipher) aes src
    (0, some aes, dst)
  | aes, _ => (-1, aes, [])

variable (cipher : AesCipher)

theorem cbcLoop_encrypt (key iv : AesBlock) (src : List AesBlock) :
    cbcLoop (infraAesCryptCbcEncrypt cipher) ⟨key, iv⟩ src =
      (⟨key, Cbc.chain iv (Cbc.encrypt xorBlock (cipher.encrypt key) iv src)⟩,
        Cbc.encrypt xorBlock (cipher.encrypt key) iv src) := by
  induction src generalizing iv with
  | nil => rfl
  | cons input src ih =>
    rw [cbcLoop, Cbc.encrypt, Cbc.chain_cons]
    simp only [infraAesCryptCbcEncrypt, ih]

theorem cbcLoop_decrypt (key iv : AesBlock) (src : List AesBlock) :
    cbcLoop (infraAesCryptCbcDecrypt cipher) ⟨key, iv⟩ src =
      (⟨key, Cbc.chain iv src⟩, Cbc.decrypt xorBlock (cipher.decrypt key) iv src) := by
  induction src generalizing iv with
  | nil => rfl
  | cons input src ih =>
    rw [cbcLoop, Cbc.decrypt, Cbc.chain_cons]
    simp only [infraAesCryptCbcDecrypt, ih]

theorem cbcEncrypt_eq (key iv : AesBlock) (src : List AesBlock) :
    infraAes128CbcEncrypt cipher (some ⟨key, iv⟩) (some src) =
      (0, some ⟨key, Cbc.chain iv (Cbc.encrypt xorBlock (cipher.encrypt key) iv src)⟩,
        Cbc.encrypt xorBlock (cipher.encrypt key) iv src) := by
  simp only [infraAes128CbcEncrypt, cbcLoop_encrypt]

theorem cbcDecrypt_eq (key iv : AesBlock) (src : List AesBlock) :
    infraAes128CbcDecrypt cipher (some ⟨key, iv⟩) (some src) =
      (0, some ⟨key, Cbc.chain iv src⟩, Cbc.decrypt xorBlock (cipher.decrypt key) iv src) := by
  simp only [infraAes128CbcDecrypt, cbcLoop_decrypt]

/-! ## The blocks of a buffer -/

def blockAt (m : Mem) (off : Nat) : AesBlock := ⟨(slice m off 16).toArray, by simp⟩

def blocksAt (m : Mem) : Nat → Nat → List AesBlock
  | _, 0 => []
  | off, n + 1 => blockAt m off :: blocksAt m (off + 16) n

def blockBytes (bs : List AesBlock) : List UInt8 := bs.flatMap Vector.toList

@[simp] theorem length_blocksAt (m : Mem) (off n : Nat) : (blocksAt m off n).length = n := by
  induction n generalizing off with
  | zero => rfl
  | succ n ih => rw [blocksAt, List.length_cons, ih]

theorem blocksAt_add (m : Mem) (off n k : Nat) :
    blocksAt m off (n + k) = blocksAt m off n ++ blocksAt m (off + 16 * n) k := by
  induction n generalizing off with
  | zero =>
    rw [Nat.zero_add]
    rfl
  | succ n ih =>
    rw [Nat.succ_add, blocksAt, blocksAt, ih, List.cons_append, Nat.add_assoc, Nat.mul_succ,
      Nat.add_comm 16]

theorem toList_blockAt (m : Mem) (off : Nat) : (blockAt m off).toList = slice m off 16 := rfl

@[simp] theorem blockBytes_cons (b : AesBlock) (bs : List AesBlock) :
    blockBytes (b :: bs) = b.toList ++ blockBytes bs := rfl

theorem blockBytes_append (as bs : List AesBlock) :
    blockBytes (as ++ bs) = blockBytes as ++ blockBytes bs := List.flatMap_append

@[simp] theorem length_blockBytes (bs : List AesBlock) :
    (blockBytes bs).length = 16 * bs.length := by
  induction bs with
  | nil => rfl
  | cons b bs ih =>
    rw [blockBytes_cons, List.length_append, ih, List.length_cons, Vector.length_toList]
    omega

theorem blocksAt_of_holds {m : Mem} {off : Nat} {bs : List AesBlock}
    (h : Holds m off (blockBytes bs)) : blocksAt m off bs.length = bs := by
  induction bs generalizing off with
  | nil => rfl
  | cons b bs ih =>
    rw [blockBytes_cons, holds_append, Vector.length_toList] at h
    have hblock : blockAt m off = b := by
      apply Vector.toList_inj.mp
      have hslice := slice_of_holds h.1
      rw [Vector.length_toList] at hslice
      rw [toList_blockAt, hslice]
    rw [List.length_cons, blocksAt, hblock, ih h.2]

end AliyunIot.Infra
