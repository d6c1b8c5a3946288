import AliyunIot.Infra.DigestContext
import AliyunIot.Lib.Fips180

/-!
# SHA-256

`infra_sha256.c`, with `INFRA_SHA256_SMALLER`. The rounds of `utilsSha256Process` are those
of the standard (`work_process`), so that a context that was started and given a
message, in whatever pieces, finishes with the standard's digest of it.
-/

namespace AliyunIot.Infra

open Lib

structure Sha256Context extends DigestContext (Vector UInt32 8) where
  is224 : Int

def sha256Zero : Sha256Context :=
  ⟨⟨0, 0, Vector.replicate 8 0, Vector.replicate 64 0⟩, 0⟩

def utilsSha256Init (_ctx : Sha256Context) : Sha256Context := sha256Zero

def sha256State : Vector UInt32 8 :=
  #v[0x6A09E667, 0xBB67AE85, 0x3C6EF372, 0xA54FF53A, 0x510E527F, 0x9B05688C, 0x1F83D9AB, 0x5BE0CD19]

def utilsSha256Starts (ctx : Sha256Context) : Sha256Context :=
  { ctx with
    total0 := 0
    total1 := 0
    state := sha256State
    is224 := 0 }

def getUint32Be (b : Vector UInt8 64) (i : Nat) : UInt32 :=
  ((b[i]?.getD 0).toUInt32 <<< 24) ||| ((b[i + 1]?.getD 0).toUInt32 <<< 16) |||
    ((b[i + 2]?.getD 0).toUInt32 <<< 8) ||| (b[i + 3]?.getD 0).toUInt32

namespace Sha256

/-- The table `K`. -/
def K : Vector UInt32 64 := #v[
  0x428A2F98, 0x71374491, 0xB5C0FBCF, 0xE9B5DBA5,
  0x3956C25B, 0x59F111F1, 0x923F82A4, 0xAB1C5ED5,
  0xD807AA98, 0x12835B01, 0x243185BE, 0x550C7DC3,
  0x72BE5D74, 0x80DEB1FE, 0x9BDC06A7, 0xC19BF174,
  0xE49B69C1, 0xEFBE4786, 0x0FC19DC6, 0x240CA1CC,
  0x2DE92C6F, 0x4A7484AA, 0x5CB0A9DC, 0x76F988DA,
  0x983E5152, 0xA831C66D, 0xB00327C8, 0xBF597FC7,
  0xC6E00BF3, 0xD5A79147, 0x06CA6351, 0x14292967,
  0x27B70A85, 0x2E1B2138, 0x4D2C6DFC, 0x53380D13,
  0x650A7354, 0x766A0ABB, 0x81C2C92E, 0x92722C85,
  0xA2BFE8A1, 0xA81A664B, 0xC24B8B70, 0xC76C51A3,
  0xD192E819, 0xD6990624, 0xF40E3585, 0x106AA070,
  0x19A4C116, 0x1E376C08, 0x2748774C, 0x34B0BCB5,
  0x391C0CB3, 0x4ED8AA4A, 0x5B9CCA4F, 0x682E6FF3,
  0x748F82EE, 0x78A5636F, 0x84C87814, 0x8CC70208,
  0x90BEFFFA, 0xA4506CEB, 0xBEF9A3F7, 0xC67178F2]

def SHR (x n : UInt32) : UInt32 := (x &&& 0xFFFFFFFF) >>> n
def ROTR (x n : UInt32) : UInt32 := SHR x n ||| (x <<< (32 - n))

def S0 (x : UInt32) : UInt32 := ROTR x 7 ^^^ ROTR x 18 ^^^ SHR x 3
def S1 (x : UInt32) : UInt32 := ROTR x 17 ^^^ ROTR x 19 ^^^ SHR x 10
def S2 (x : UInt32) : UInt32 := ROTR x 2 ^^^ ROTR x 13 ^^^ ROTR x 22
def S3 (x : UInt32) : UInt32 := ROTR x 6 ^^^ ROTR x 11 ^^^ ROTR x 25

def F0 (x y z : UInt32) : UInt32 := (x &&& y) ||| (z &&& (x ||| y))
def F1 (x y z : UInt32) : UInt32 := z ^^^ (x &&& (y ^^^ z))

/-- `R(t)`, the word it stores. -/
def R (W : Vector UInt32 64) (t : Nat) : UInt32 :=
  S1 (W[t - 2]?.getD 0) + W[t - 7]?.getD 0 + S0 (W[t - 15]?.getD 0) + W[t - 16]?.getD 0

/-- `P` of the eight variables in their order. -/
def P (A : Vector UInt32 8) (x k : UInt32) : Vector UInt32 8 :=
  let temp1 := A[7] + S3 A[4] + F1 A[4] A[5] A[6] + k + x
  let temp2 := S2 A[0] + F0 A[0] A[1] A[2]
  (A.set 3 (A[3] + temp1)).set 7 (temp1 + temp2)

/-- The moves behind `P`. -/
def rotate (A : Vector UInt32 8) : Vector UInt32 8 :=
  let temp1 := A[7]
  let A := A.set 7 A[6]
  let A := A.set 6 A[5]
  let A := A.set 5 A[4]
  let A := A.set 4 A[3]
  let A := A.set 3 A[2]
  let A := A.set 2 A[1]
  let A := A.set 1 A[0]
  A.set 0 temp1

/-- One turn of the loop, over `A` and `W`. -/
def round (data : Vector UInt8 64) (st : Vector UInt32 8 × Vector UInt32 64) (i : Nat) :
    Vector UInt32 8 × Vector UInt32 64 :=
  let W := st.2.setIfInBounds i (if i < 16 then getUint32Be data (4 * i) else R st.2 i)
  (rotate (P st.1 (W[i]?.getD 0) (K[i]?.getD 0)), W)

end Sha256

/-- `utils_sha256_process`, of `state`. Every word of `W` is stored before it is read. -/
def utilsSha256Process (state : Vector UInt32 8) (data : Vector UInt8 64) : Vector UInt32 8 :=
  let st := (List.range 64).foldl (Sha256.round data) (state, Vector.replicate 64 0)
  Vector.zipWith (· + ·) state st.1

def utilsSha256Update (ctx : Sha256Context) (input : List UInt8) : Sha256Context :=
  { ctx with toDigestContext := digestUpdate utilsSha256Process ctx.toDigestContext input }

def utilsSha256Finish (ctx : Sha256Context) (output : List UInt8) : Sha256Context × List UInt8 :=
  let done := digestFinish utilsSha256Process msglenBe ctx.toDigestContext
  let words := done.state.toList.flatMap putUint32Be
  ({ ctx with toDigestContext := done },
    if ctx.is224 = 0 then words else words.take 28 ++ output.drop 28)

def utilsSha256 (ctx : Sha256Context) (input output : List UInt8) : List UInt8 :=
  let ctx := utilsSha256Starts (utilsSha256Init ctx)
  (utilsSha256Finish (utilsSha256Update ctx input) output).2

/-! ## The rounds of the standard -/

theorem mask_word (x : UInt32) : x &&& 0xFFFFFFFF = x := by
  apply UInt32.toNat_inj.mp
  rw [UInt32.toNat_and]
  exact (Nat.and_two_pow_sub_one_eq_mod x.toNat 32).trans (Nat.mod_eq_of_lt x.toNat_lt)

namespace Sha256

theorem SHR_eq (x n : UInt32) : SHR x n = x >>> n := by
  rw [SHR, mask_word]

theorem ROTR_eq (x n : UInt32) : ROTR x n = Fips180.rotr x n := by
  rw [ROTR, SHR_eq, Fips180.rotr]

theorem S0_eq (x : UInt32) : S0 x = Fips180.smallSigma0 x := by
  rw [S0, ROTR_eq, ROTR_eq, SHR_eq, Fips180.smallSigma0]

theorem S1_eq (x : UInt32) : S1 x = Fips180.smallSigma1 x := by
  rw [S1, ROTR_eq, ROTR_eq, SHR_eq, Fips180.smallSigma1]

theorem S2_eq (x : UInt32) : S2 x = Fips180.bigSigma0 x := by
  rw [S2, ROTR_eq, ROTR_eq, ROTR_eq, Fips180.bigSigma0]

theorem S3_eq (x : UInt32) : S3 x = Fips180.bigSigma1 x := by
  rw [S3, ROTR_eq, ROTR_eq, ROTR_eq, Fips180.bigSigma1]

theorem F0_eq (x y z : UInt32) : F0 x y z = Fips180.maj x y z := Fips180.maj_eq x y z

theorem F1_eq (x y z : UInt32) : F1 x y z = Fips180.ch x y z := Fips180.ch_eq x y z

theorem K_eq {t : Nat} (ht : t < 64) : K[t]?.getD 0 = Fips180.sha256K t := by
  have hall : ∀ t < 64, K[t]?.getD 0 = Fips180.cubeRootBits (
      [2, 3, 5, 7, 11, 13, 17, 19, 23, 29, 31, 37, 41, 43, 47, 53, 59, 61, 67, 71, 73, 79, 83, 89,
        97, 101, 103, 107, 109, 113, 127, 131, 137, 139, 149, 151, 157, 163, 167, 173, 179, 181,
        191, 193, 197, 199, 211, 223, 227, 229, 233, 239, 241, 251, 257, 263, 269, 271, 277, 281,
        283, 293, 307, 311].getD t 0) := by
    decide +kernel
  rw [Fips180.sha256K, Fips180.primesBelow_312]
  exact hall t ht

/-- The eight variables in the order of the standard. -/
def work (A : Vector UInt32 8) : Fips180.Sha256Work :=
  ⟨A[0], A[1], A[2], A[3], A[4], A[5], A[6], A[7]⟩

theorem work_rotate (A : Vector UInt32 8) :
    work (rotate A) = ⟨A[7], A[0], A[1], A[2], A[3], A[4], A[5], A[6]⟩ := by
  simp [work, rotate]

theorem work_round {A : Vector UInt32 8} {block : List UInt8} {x k : UInt32} {t : Nat}
    (hx : x = Fips180.sha256Schedule block t) (hk : k = Fips180.sha256K t) :
    work (rotate (P A x k)) = Fips180.sha256Step block (work A) t := by
  rw [work_rotate, P, S3_eq, F1_eq, S2_eq, F0_eq, hx, hk]
  simp [work, Fips180.sha256Step]

/-- What the loop has made of the variables `state` and of `W` before turn `t`. -/
structure Reached (block : List UInt8) (state : Vector UInt32 8) (t : Nat)
    (st : Vector UInt32 8 × Vector UInt32 64) : Prop where
  work : work st.1 = (List.range t).foldl (Fips180.sha256Step block) (work state)
  words : ∀ i < t, st.2[i]?.getD 0 = Fips180.sha256Schedule block i

end Sha256

theorem getD_blockOf (data : List UInt8) {i : Nat} (hi : i < 64) :
    (blockOf data)[i]?.getD 0 = data.getD i 0 := by
  rw [blockOf, Vector.getElem?_ofFn, dif_pos hi, Option.getD_some]

theorem getUint32Be_blockOf (data : List UInt8) {t : Nat} (ht : t < 16) :
    getUint32Be (blockOf data) (4 * t) = Fips180.blockWord data t := by
  rw [getUint32Be, getD_blockOf _ (by omega), getD_blockOf _ (by omega), getD_blockOf _ (by omega),
    getD_blockOf _ (by omega), Fips180.beWord_eq, Fips180.blockWord]

namespace Sha256

theorem Reached.word {block : List UInt8} {state : Vector UInt32 8} {t : Nat}
    {st : Vector UInt32 8 × Vector UInt32 64} (h : Reached block state t st) :
    (if t < 16 then getUint32Be (blockOf block) (4 * t) else R st.2 t) =
      Fips180.sha256Schedule block t := by
  rw [Fips180.sha256Schedule]
  split
  next ht => exact getUint32Be_blockOf block ht
  next ht =>
    rw [R, h.words _ (by omega), h.words _ (by omega), h.words _ (by omega), h.words _ (by omega),
      S1_eq, S0_eq]

theorem Reached.round {block : List UInt8} {state : Vector UInt32 8} {t : Nat}
    {st : Vector UInt32 8 × Vector UInt32 64} (h : Reached block state t st) (ht : t < 64) :
    Reached block state (t + 1) (round (blockOf block) st t) := by
  have hwords (i : Nat) (hi : i < t + 1) :
      (st.2.setIfInBounds t (Fips180.sha256Schedule block t))[i]?.getD 0 =
        Fips180.sha256Schedule block i := by
    rw [Vector.getElem?_setIfInBounds]
    by_cases heq : t = i
    · subst heq
      rw [if_pos rfl, if_pos ht, Option.getD_some]
    · rw [if_neg heq]
      exact h.words i (by omega)
  unfold Sha256.round
  rw [h.word]
  refine ⟨?_, hwords⟩
  rw [List.range_succ, List.foldl_append, ← h.work]
  exact work_round (hwords t (Nat.lt_succ_self t)) (K_eq ht)

theorem Reached.rounds (block : List UInt8) (state : Vector UInt32 8) :
    ∀ t ≤ 64, Reached block state t
      ((List.range t).foldl (Sha256.round (blockOf block)) (state, Vector.replicate 64 0)) := by
  intro t
  induction t with
  | zero => exact fun _ => ⟨rfl, fun i hi => absurd hi (Nat.not_lt_zero i)⟩
  | succ t ih =>
    intro ht
    rw [List.range_succ, List.foldl_append]
    exact (ih (Nat.le_of_succ_le ht)).round ht

end Sha256

theorem work_process (state : Vector UInt32 8) (block : List UInt8) :
    Sha256.work (utilsSha256Process state (blockOf block)) =
      Fips180.sha256Compress block (Sha256.work state) := by
  rw [Fips180.sha256Compress, ← (Sha256.Reached.rounds block state 64 (Nat.le_refl 64)).work,
    utilsSha256Process]
  simp [Sha256.work, UInt32.add_comm]

/-! ## The digest of a message -/

theorem work_state : Sha256.work sha256State = Fips180.sha256Init := by
  decide +kernel

theorem digest_work (state : Vector UInt32 8) :
    (Sha256.work state).digest = state.toList.flatMap putUint32Be := by
  have hlist : state.toList = [state[0], state[1], state[2], state[3], state[4], state[5], state[6],
      state[7]] := toList_eq_ofFn state
  rw [hlist]
  simp only [Fips180.Sha256Work.digest, Sha256.work, List.flatMap_cons, List.flatMap_nil,
    putUint32Be_eq]

/-- The message `msg` is in the context. -/
def Sha256Context.Carries (ctx : Sha256Context) (msg : List UInt8) : Prop :=
  Infra.Carries utilsSha256Process sha256State msg ctx.toDigestContext ∧ ctx.is224 = 0

theorem Sha256Context.carries_starts (ctx : Sha256Context) : (utilsSha256Starts ctx).Carries [] :=
  ⟨Infra.Carries.starts _ ctx.buffer, rfl⟩

theorem Sha256Context.Carries.update {ctx : Sha256Context} {msg input : List UInt8}
    (h : ctx.Carries msg) (hlen : input.length < 4294967296) :
    (utilsSha256Update ctx input).Carries (msg ++ input) :=
  ⟨h.1.update hlen, h.2⟩

theorem foldl_sha256Update (ctx : Sha256Context) (pieces : List (List UInt8)) :
    pieces.foldl utilsSha256Update ctx = { ctx with
      toDigestContext := pieces.foldl (digestUpdate utilsSha256Process) ctx.toDigestContext } := by
  induction pieces generalizing ctx with
  | nil => rfl
  | cons p pieces ih => exact ih _

theorem Sha256Context.Carries.updates {ctx : Sha256Context} {msg : List UInt8}
    (h : ctx.Carries msg) (pieces : List (List UInt8))
      (hlen : ∀ p ∈ pieces, p.length < 4294967296) :
    (pieces.foldl utilsSha256Update ctx).Carries (msg ++ pieces.flatten) := by
  rw [foldl_sha256Update]
  exact ⟨h.1.updates pieces hlen, h.2⟩

theorem Sha256Context.Carries.finish {ctx : Sha256Context} {msg : List UInt8}
    (h : ctx.Carries msg) (output : List UInt8) :
    (utilsSha256Finish ctx output).1.Carries
        (msg ++ BlockHash.padding (BlockHash.beBytes 8) msg.length) ∧
      (utilsSha256Finish ctx output).2 = Fips180.sha256 msg := by
  have hend := h.1.finish (fun _ _ _ => beBytes_two_words) (BlockHash.length_beBytes 8)
  refine ⟨⟨hend, h.2⟩, ?_⟩
  have hstate := h.1.hash work_process (fun _ _ _ => beBytes_two_words)
    (BlockHash.length_beBytes 8)
  unfold utilsSha256Finish
  dsimp only
  rw [if_pos h.2, ← digest_work, hstate, work_state]
  rfl

/-- A message can be given in any pieces: what is written is its digest. -/
theorem sha256_pieces (ctx : Sha256Context) (pieces : List (List UInt8)) (output : List UInt8)
    (hlen : ∀ p ∈ pieces, p.length < 4294967296) :
    (utilsSha256Finish (pieces.foldl utilsSha256Update (utilsSha256Starts ctx)) output).2 =
      Fips180.sha256 pieces.flatten :=
  ((Sha256Context.carries_starts ctx).updates pieces hlen |>.finish output).2

theorem sha256_pieces_abc :
    (utilsSha256Finish ([[0x61], [0x62, 0x63]].foldl utilsSha256Update
      (utilsSha256Starts sha256Zero)) []).2 = Fips180.sha256 [0x61, 0x62, 0x63] :=
  sha256_pieces sha256Zero [[0x61], [0x62, 0x63]] [] (by decide)

end AliyunIot.Infra
