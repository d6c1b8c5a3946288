import AliyunIot.Infra.Sha1
import AliyunIot.Lib.Rfc1321

/-!
# MD5

`infra_md5.c`. The 64 steps of `utilsMd5Process` are written out, over four variables whose
roles go round; with the variables in their roles they are the steps of RFC 1321
(`Md5.Reached`).
-/

namespace AliyunIot.Infra

open Lib

abbrev Md5Context := DigestContext (Vector UInt32 4)

def md5Zero : Md5Context := ⟨0, 0, Vector.replicate 4 0, Vector.replicate 64 0⟩

def utilsMd5Init (_ctx : Md5Context) : Md5Context := md5Zero

def md5State : Vector UInt32 4 := #v[0x67452301, 0xEFCDAB89, 0x98BADCFE, 0x10325476]

def utilsMd5Starts (ctx : Md5Context) : Md5Context :=
  { ctx with total0 := 0, total1 := 0, state := md5State }

def getUint32Le (b : Vector UInt8 64) (i : Nat) : UInt32 :=
  (b[i]?.getD 0).toUInt32 ||| ((b[i + 1]?.getD 0).toUInt32 <<< 8) |||
    ((b[i + 2]?.getD 0).toUInt32 <<< 16) ||| ((b[i + 3]?.getD 0).toUInt32 <<< 24)

namespace Md5

/-- The arguments of `P`: which variable is `a`, and so on. -/
structure Line where
  a : Fin 4
  b : Fin 4
  c : Fin 4
  d : Fin 4
  k : Fin 16
  s : UInt32
  t : UInt32
  deriving DecidableEq

/-- What `P` does to the variables, `x` being `X[k]`. -/
def Line.turn (F : UInt32 → UInt32 → UInt32 → UInt32) (x : UInt32) (l : Line)
    (v : Vector UInt32 4) : Vector UInt32 4 :=
  let v := v.set l.a (v[l.a] + (F v[l.b] v[l.c] v[l.d] + x + l.t))
  v.set l.a (Sha1.S v[l.a] l.s + v[l.b])

/-- `P`, under the `F` that is defined around it. -/
def P (F : UInt32 → UInt32 → UInt32 → UInt32) (X : Vector UInt32 16) (v : Vector UInt32 4)
    (l : Line) : Vector UInt32 4 :=
  l.turn F X[l.k] v

def F0 (x y z : UInt32) : UInt32 := z ^^^ (x &&& (y ^^^ z))
def F16 (x y z : UInt32) : UInt32 := y ^^^ (z &&& (x ^^^ y))
def F32 (x y z : UInt32) : UInt32 := x ^^^ y ^^^ z
def F48 (x y z : UInt32) : UInt32 := y ^^^ (x ||| ~~~z)

abbrev A : Fin 4 := 0
abbrev B : Fin 4 := 1
abbrev C : Fin 4 := 2
abbrev D : Fin 4 := 3

def lines0 : List Line := [
  ⟨A, B, C, D, 0, 7, 0xD76AA478⟩, ⟨D, A, B, C, 1, 12, 0xE8C7B756⟩,
  ⟨C, D, A, B, 2, 17, 0x242070DB⟩, ⟨B, C, D, A, 3, 22, 0xC1BDCEEE⟩,
  ⟨A, B, C, D, 4, 7, 0xF57C0FAF⟩, ⟨D, A, B, C, 5, 12, 0x4787C62A⟩,
  ⟨C, D, A, B, 6, 17, 0xA8304613⟩, ⟨B, C, D, A, 7, 22, 0xFD469501⟩,
  ⟨A, B, C, D, 8, 7, 0x698098D8⟩, ⟨D, A, B, C, 9, 12, 0x8B44F7AF⟩,
  ⟨C, D, A, B, 10, 17, 0xFFFF5BB1⟩, ⟨B, C, D, A, 11, 22, 0x895CD7BE⟩,
  ⟨A, B, C, D, 12, 7, 0x6B901122⟩, ⟨D, A, B, C, 13, 12, 0xFD987193⟩,
  ⟨C, D, A, B, 14, 17, 0xA679438E⟩, ⟨B, C, D, A, 15, 22, 0x49B40821⟩]

def lines16 : List Line := [
  ⟨A, B, C, D, 1, 5, 0xF61E2562⟩, ⟨D, A, B, C, 6, 9, 0xC040B340⟩,
  ⟨C, D, A, B, 11, 14, 0x265E5A51⟩, ⟨B, C, D, A, 0, 20, 0xE9B6C7AA⟩,
  ⟨A, B, C, D, 5, 5, 0xD62F105D⟩, ⟨D, A, B, C, 10, 9, 0x02441453⟩,
  ⟨C, D, A, B, 15, 14, 0xD8A1E681⟩, ⟨B, C, D, A, 4, 20, 0xE7D3FBC8⟩,
  ⟨A, B, C, D, 9, 5, 0x21E1CDE6⟩, ⟨D, A, B, C, 14, 9, 0xC33707D6⟩,
  ⟨C, D, A, B, 3, 14, 0xF4D50D87⟩, ⟨B, C, D, A, 8, 20, 0x455A14ED⟩,
  ⟨A, B, C, D, 13, 5, 0xA9E3E905⟩, ⟨D, A, B, C, 2, 9, 0xFCEFA3F8⟩,
  ⟨C, D, A, B, 7, 14, 0x676F02D9⟩, ⟨B, C, D, A, 12, 20, 0x8D2A4C8A⟩]

def lines32 : List Line := [
  ⟨A, B, C, D, 5, 4, 0xFFFA3942⟩, ⟨D, A, B, C, 8, 11, 0x8771F681⟩,
  ⟨C, D, A, B, 11, 16, 0x6D9D6122⟩, ⟨B, C, D, A, 14, 23, 0xFDE5380C⟩,
  ⟨A, B, C, D, 1, 4, 0xA4BEEA44⟩, ⟨D, A, B, C, 4, 11, 0x4BDECFA9⟩,
  ⟨C, D, A, B, 7, 16, 0xF6BB4B60⟩, ⟨B, C, D, A, 10, 23, 0xBEBFBC70⟩,
  ⟨A, B, C, D, 13, 4, 0x289B7EC6⟩, ⟨D, A, B, C, 0, 11, 0xEAA127FA⟩,
  ⟨C, D, A, B, 3, 16, 0xD4EF3085⟩, ⟨B, C, D, A, 6, 23, 0x04881D05⟩,
  ⟨A, B, C, D, 9, 4, 0xD9D4D039⟩, ⟨D, A, B, C, 12, 11, 0xE6DB99E5⟩,
  ⟨C, D, A, B, 15, 16, 0x1FA27CF8⟩, ⟨B, C, D, A, 2, 23, 0xC4AC5665⟩]

def lines48 : List Line := [
  ⟨A, B, C, D, 0, 6, 0xF4292244⟩, ⟨D, A, B, C, 7, 10, 0x432AFF97⟩,
  ⟨C, D, A, B, 14, 15, 0xAB9423A7⟩, ⟨B, C, D, A, 5, 21, 0xFC93A039⟩,
  ⟨A, B, C, D, 12, 6, 0x655B59C3⟩, ⟨D, A, B, C, 3, 10, 0x8F0CCC92⟩,
  ⟨C, D, A, B, 10, 15, 0xFFEFF47D⟩, ⟨B, C, D, A, 1, 21, 0x85845DD1⟩,
  ⟨A, B, C, D, 8, 6, 0x6FA87E4F⟩, ⟨D, A, B, C, 15, 10, 0xFE2CE6E0⟩,
  ⟨C, D, A, B, 6, 15, 0xA3014314⟩, ⟨B, C, D, A, 13, 21, 0x4E0811A1⟩,
  ⟨A, B, C, D, 4, 6, 0xF7537E82⟩, ⟨D, A, B, C, 11, 10, 0xBD3AF235⟩,
  ⟨C, D, A, B, 2, 15, 0x2AD7D2BB⟩, ⟨B, C, D, A, 9, 21, 0xEB86D391⟩]

def load (data : Vector UInt8 64) : Vector UInt32 16 :=
  Vector.ofFn fun i => getUint32Le data (4 * i)

end Md5

open Md5 in
def utilsMd5Process (state : Vector UInt32 4) (data : Vector UInt8 64) : Vector UInt32 4 :=
  let X := load data
  let v := lines0.foldl (P F0 X) state
  let v := lines16.foldl (P F16 X) v
  let v := lines32.foldl (P F32 X) v
  let v := lines48.foldl (P F48 X) v
  Vector.zipWith (· + ·) state v

def utilsMd5Update (ctx : Md5Context) (input : List UInt8) : Md5Context :=
  digestUpdate utilsMd5Process ctx input

/-- `utils_md5_finish`, with what it writes to `output`. -/
def utilsMd5Finish (ctx : Md5Context) : Md5Context × List UInt8 :=
  let done := digestFinish utilsMd5Process msglenLe ctx
  (done, done.state.toList.flatMap putUint32Le)

def utilsMd5 (ctx : Md5Context) (input : List UInt8) : List UInt8 :=
  (utilsMd5Finish (utilsMd5Update (utilsMd5Starts (utilsMd5Init ctx)) input)).2

/-! ## The steps of the standard -/

theorem getUint32Le_blockOf (data : List UInt8) {k : Nat} (hk : k < 16) :
    getUint32Le (blockOf data) (4 * k) = Rfc1321.blockWord data k := by
  rw [getUint32Le, getD_blockOf _ (by omega), getD_blockOf _ (by omega), getD_blockOf _ (by omega),
    getD_blockOf _ (by omega), Rfc1321.leWord_eq, Rfc1321.blockWord]

namespace Md5

/-- The variables by role, where `r` is `a`. -/
def work (r : Fin 4) (v : Vector UInt32 4) : Rfc1321.Work := ⟨v[r], v[r + 1], v[r + 2], v[r + 3]⟩

/-- Line `n` as the standard has it. -/
def line (n : Nat) : Line :=
  let r := Fin.ofNat 4 (3 * n)
  ⟨r, r + 1, r + 2, r + 3, Fin.ofNat 16 (Rfc1321.wordOf n), Rfc1321.shiftOf n, Rfc1321.sineOf n⟩

theorem lines_eq :
    lines0 = (List.range' 0 16).map line ∧ lines16 = (List.range' 16 16).map line ∧
      lines32 = (List.range' 32 16).map line ∧ lines48 = (List.range' 48 16).map line := by
  decide +kernel

theorem work_turn (F : UInt32 → UInt32 → UInt32 → UInt32) (x : UInt32) (r : Fin 4) (k : Fin 16)
    (s t : UInt32) (v : Vector UInt32 4) :
    work (r + 3) (Line.turn F x ⟨r, r + 1, r + 2, r + 3, k, s, t⟩ v) =
      ⟨v[r + 3], v[r + 1] + Fips180.rotl (v[r] + F v[r + 1] v[r + 2] v[r + 3] + x + t) s, v[r + 1],
        v[r + 2]⟩ := by
  have hsum (a f x t : UInt32) : a + f + x + t = a + (f + x + t) := by ac_rfl
  obtain ⟨r, hr⟩ := r
  interval_cases r <;> simp [work, Line.turn, Sha1.S_eq, hsum] <;> exact UInt32.add_comm _ _

theorem work_line {F : UInt32 → UInt32 → UInt32 → UInt32} {block : List UInt8} {n : Nat}
    (hF : ∀ x y z, F x y z = Rfc1321.auxiliary n x y z) (v : Vector UInt32 4) :
    work (Fin.ofNat 4 (3 * (n + 1))) (P F (load (blockOf block)) v (line n)) =
      Rfc1321.step block (work (Fin.ofNat 4 (3 * n)) v) n := by
  have hrole : Fin.ofNat 4 (3 * (n + 1)) = Fin.ofNat 4 (3 * n) + 3 := by
    apply Fin.ext
    simp [Fin.val_add]
    omega
  have hlt : Rfc1321.wordOf n < 16 := Nat.mod_lt _ (by decide)
  have hword : (load (blockOf block))[Fin.ofNat 16 (Rfc1321.wordOf n)] =
      Rfc1321.blockWord block (Rfc1321.wordOf n) := by
    rw [← getUint32Le_blockOf block hlt, load, Fin.getElem_fin, Vector.getElem_ofFn]
    simp only [Fin.val_ofNat, Nat.mod_eq_of_lt hlt]
  rw [hrole, line, P, work_turn, hword, hF]
  rfl

/-- The variables before line `n`, in their roles. -/
def Reached (block : List UInt8) (state : Vector UInt32 4) (n : Nat) (v : Vector UInt32 4) : Prop :=
  work (Fin.ofNat 4 (3 * n)) v = (List.range n).foldl (Rfc1321.step block) (work 0 state)

theorem Reached.lines {F : UInt32 → UInt32 → UInt32 → UInt32} {block : List UInt8}
    {state : Vector UInt32 4} (m : Nat) {n : Nat} {v : Vector UInt32 4}
    (h : Reached block state n v)
    (hF : ∀ i < n + m, n ≤ i → ∀ x y z, F x y z = Rfc1321.auxiliary i x y z) :
    Reached block state (n + m)
      (((List.range' n m).map line).foldl (P F (load (blockOf block))) v) := by
  induction m generalizing n v with
  | zero => exact h
  | succ m ih =>
    rw [List.range'_succ, List.map_cons, List.foldl_cons, ← Nat.succ_add_eq_add_succ]
    refine ih ?_ fun i hi hle => hF i (by omega) (by omega)
    unfold Reached
    rw [work_line (hF n (by omega) (Nat.le_refl n)), h, List.range_succ, List.foldl_append]
    rfl

theorem Reached.all (block : List UInt8) (state : Vector UInt32 4) :
    Reached block state 64 (lines48.foldl (P F48 (load (blockOf block)))
      (lines32.foldl (P F32 (load (blockOf block))) (lines16.foldl (P F16 (load (blockOf block)))
        (lines0.foldl (P F0 (load (blockOf block))) state)))) := by
  obtain ⟨h0, h16, h32, h48⟩ := lines_eq
  have hstart : Reached block state 0 state := rfl
  rw [h0, h16, h32, h48]
  refine (((hstart.lines 16 ?_).lines 16 ?_).lines 16 ?_).lines 16 ?_
  · intro i hi _ x y z
    rw [Rfc1321.auxiliary, if_pos (by omega)]
    exact Rfc1321.f_eq x y z
  · intro i hi hle x y z
    rw [Rfc1321.auxiliary, if_neg (by omega), if_pos (by omega)]
    exact Rfc1321.g_eq x y z
  · intro i hi hle x y z
    rw [Rfc1321.auxiliary, if_neg (by omega), if_neg (by omega), if_pos (by omega)]
    rfl
  · intro i hi hle x y z
    rw [Rfc1321.auxiliary, if_neg (by omega), if_neg (by omega), if_neg (by omega)]
    rfl

end Md5

theorem work_md5Process (state : Vector UInt32 4) (block : List UInt8) :
    Md5.work 0 (utilsMd5Process state (blockOf block)) =
      Rfc1321.compress block (Md5.work 0 state) := by
  have hall := Md5.Reached.all block state
  have hrole : Fin.ofNat 4 (3 * 64) = 0 := rfl
  rw [Md5.Reached, hrole] at hall
  rw [Rfc1321.compress, ← hall, utilsMd5Process]
  simp [Md5.work, UInt32.add_comm]

/-! ## The digest of a message -/

theorem digest_md5Work (state : Vector UInt32 4) :
    (Md5.work 0 state).digest = state.toList.flatMap putUint32Le := by
  have hlist : state.toList = [state[0], state[1], state[2], state[3]] := toList_eq_ofFn state
  rw [hlist]
  simp only [Rfc1321.Work.digest, List.flatMap_cons, List.flatMap_nil, putUint32Le_eq]
  rfl

theorem Carries.md5Finish {ctx : Md5Context} {msg : List UInt8}
    (h : Carries utilsMd5Process md5State msg ctx) : (utilsMd5Finish ctx).2 = Rfc1321.md5 msg := by
  have hstate := h.hash work_md5Process (fun _ _ _ => leBytes_two_words)
    (BlockHash.length_leBytes 8)
  have hinit : Md5.work 0 md5State = Rfc1321.init := rfl
  unfold utilsMd5Finish
  dsimp only
  rw [← digest_md5Work, hstate, hinit]
  rfl

/-- A message can be given in any pieces: what is written is its digest. -/
theorem md5_pieces (ctx : Md5Context) (pieces : List (List UInt8))
    (hlen : ∀ p ∈ pieces, p.length < 4294967296) :
    (utilsMd5Finish (pieces.foldl utilsMd5Update (utilsMd5Starts ctx))).2 =
      Rfc1321.md5 pieces.flatten :=
  ((Carries.starts md5State ctx.buffer).updates pieces hlen).md5Finish

theorem md5_pieces_abc :
    (utilsMd5Finish ([[0x61], [0x62, 0x63]].foldl utilsMd5Update (utilsMd5Starts md5Zero))).2 =
      Rfc1321.md5 [0x61, 0x62, 0x63] :=
  md5_pieces md5Zero [[0x61], [0x62, 0x63]] (by decide)

end AliyunIot.Infra
