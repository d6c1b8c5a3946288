import AliyunIot.Infra.Sha256
import Mathlib.Data.Fin.Basic
import Mathlib.Tactic.IntervalCases

/-!
# SHA-1

`infra_sha1.c`. The 80 rounds of `utilsSha1Process` are written out, over five variables
whose roles go round, and a ring of sixteen words that is overwritten as it is used. The
variables in their roles are those of the standard, and the ring has the last sixteen words
of its schedule (`Sha1.Reached`).
-/

namespace AliyunIot.Infra

open Lib

abbrev Sha1Context := DigestContext (Vector UInt32 5)

def sha1Zero : Sha1Context := ⟨0, 0, Vector.replicate 5 0, Vector.replicate 64 0⟩

def utilsSha1Init (_ctx : Sha1Context) : Sha1Context := sha1Zero

def sha1State : Vector UInt32 5 :=
  #v[0x67452301, 0xEFCDAB89, 0x98BADCFE, 0x10325476, 0xC3D2E1F0]

def utilsSha1Starts (ctx : Sha1Context) : Sha1Context :=
  { ctx with total0 := 0, total1 := 0, state := sha1State }

namespace Sha1

def S (x n : UInt32) : UInt32 := (x <<< n) ||| ((x &&& 0xFFFFFFFF) >>> (32 - n))

/-- The word of a line: `W[i]`, or `R(t)`. -/
inductive Word where
  | w (i : Nat)
  | r (t : Nat)
  deriving DecidableEq

/-- The arguments of `P`: which variable is `a`, and so on. -/
structure Line where
  a : Fin 5
  b : Fin 5
  c : Fin 5
  d : Fin 5
  e : Fin 5
  x : Word
  deriving DecidableEq

/-- The word of a line, and the ring when it has been read; `R(t)` stores it. -/
def Word.read (W : Vector UInt32 16) : Word → UInt32 × Vector UInt32 16
  | .w i => (W[i]?.getD 0, W)
  | .r t =>
    let temp := W[(t - 3) &&& 0x0F]?.getD 0 ^^^ W[(t - 8) &&& 0x0F]?.getD 0 ^^^
      W[(t - 14) &&& 0x0F]?.getD 0 ^^^ W[t &&& 0x0F]?.getD 0
    (S temp 1, W.setIfInBounds (t &&& 0x0F) (S temp 1))

/-- What `P` does to the variables. -/
def Line.turn (F : UInt32 → UInt32 → UInt32 → UInt32) (K x : UInt32) (l : Line)
    (v : Vector UInt32 5) : Vector UInt32 5 :=
  let v := v.set l.e (v[l.e] + (S v[l.a] 5 + F v[l.b] v[l.c] v[l.d] + K + x))
  v.set l.b (S v[l.b] 30)

/-- `P`, under the `F` and `K` that are defined around it. -/
def P (F : UInt32 → UInt32 → UInt32 → UInt32) (K : UInt32)
    (st : Vector UInt32 5 × Vector UInt32 16) (l : Line) : Vector UInt32 5 × Vector UInt32 16 :=
  let x := l.x.read st.2
  (l.turn F K x.1 st.1, x.2)

def F0 (x y z : UInt32) : UInt32 := z ^^^ (x &&& (y ^^^ z))
def F20 (x y z : UInt32) : UInt32 := x ^^^ y ^^^ z
def F40 (x y z : UInt32) : UInt32 := (x &&& y) ||| (z &&& (x ||| y))
def F60 (x y z : UInt32) : UInt32 := x ^^^ y ^^^ z

section

abbrev A : Fin 5 := 0
abbrev B : Fin 5 := 1
abbrev C : Fin 5 := 2
abbrev D : Fin 5 := 3
abbrev E : Fin 5 := 4

def lines0 : List Line := [
  ⟨A, B, C, D, E, .w 0⟩, ⟨E, A, B, C, D, .w 1⟩, ⟨D, E, A, B, C, .w 2⟩, ⟨C, D, E, A, B, .w 3⟩,
  ⟨B, C, D, E, A, .w 4⟩, ⟨A, B, C, D, E, .w 5⟩, ⟨E, A, B, C, D, .w 6⟩, ⟨D, E, A, B, C, .w 7⟩,
  ⟨C, D, E, A, B, .w 8⟩, ⟨B, C, D, E, A, .w 9⟩, ⟨A, B, C, D, E, .w 10⟩, ⟨E, A, B, C, D, .w 11⟩,
  ⟨D, E, A, B, C, .w 12⟩, ⟨C, D, E, A, B, .w 13⟩, ⟨B, C, D, E, A, .w 14⟩, ⟨A, B, C, D, E, .w 15⟩,
  ⟨E, A, B, C, D, .r 16⟩, ⟨D, E, A, B, C, .r 17⟩, ⟨C, D, E, A, B, .r 18⟩, ⟨B, C, D, E, A, .r 19⟩]

def lines20 : List Line := [
  ⟨A, B, C, D, E, .r 20⟩, ⟨E, A, B, C, D, .r 21⟩, ⟨D, E, A, B, C, .r 22⟩, ⟨C, D, E, A, B, .r 23⟩,
  ⟨B, C, D, E, A, .r 24⟩, ⟨A, B, C, D, E, .r 25⟩, ⟨E, A, B, C, D, .r 26⟩, ⟨D, E, A, B, C, .r 27⟩,
  ⟨C, D, E, A, B, .r 28⟩, ⟨B, C, D, E, A, .r 29⟩, ⟨A, B, C, D, E, .r 30⟩, ⟨E, A, B, C, D, .r 31⟩,
  ⟨D, E, A, B, C, .r 32⟩, ⟨C, D, E, A, B, .r 33⟩, ⟨B, C, D, E, A, .r 34⟩, ⟨A, B, C, D, E, .r 35⟩,
  ⟨E, A, B, C, D, .r 36⟩, ⟨D, E, A, B, C, .r 37⟩, ⟨C, D, E, A, B, .r 38⟩, ⟨B, C, D, E, A, .r 39⟩]

def lines40 : List Line := [
  ⟨A, B, C, D, E, .r 40⟩, ⟨E, A, B, C, D, .r 41⟩, ⟨D, E, A, B, C, .r 42⟩, ⟨C, D, E, A, B, .r 43⟩,
  ⟨B, C, D, E, A, .r 44⟩, ⟨A, B, C, D, E, .r 45⟩, ⟨E, A, B, C, D, .r 46⟩, ⟨D, E, A, B, C, .r 47⟩,
  ⟨C, D, E, A, B, .r 48⟩, ⟨B, C, D, E, A, .r 49⟩, ⟨A, B, C, D, E, .r 50⟩, ⟨E, A, B, C, D, .r 51⟩,
  ⟨D, E, A, B, C, .r 52⟩, ⟨C, D, E, A, B, .r 53⟩, ⟨B, C, D, E, A, .r 54⟩, ⟨A, B, C, D, E, .r 55⟩,
  ⟨E, A, B, C, D, .r 56⟩, ⟨D, E, A, B, C, .r 57⟩, ⟨C, D, E, A, B, .r 58⟩, ⟨B, C, D, E, A, .r 59⟩]

def lines60 : List Line := [
  ⟨A, B, C, D, E, .r 60⟩, ⟨E, A, B, C, D, .r 61⟩, ⟨D, E, A, B, C, .r 62⟩, ⟨C, D, E, A, B, .r 63⟩,
  ⟨B, C, D, E, A, .r 64⟩, ⟨A, B, C, D, E, .r 65⟩, ⟨E, A, B, C, D, .r 66⟩, ⟨D, E, A, B, C, .r 67⟩,
  ⟨C, D, E, A, B, .r 68⟩, ⟨B, C, D, E, A, .r 69⟩, ⟨A, B, C, D, E, .r 70⟩, ⟨E, A, B, C, D, .r 71⟩,
  ⟨D, E, A, B, C, .r 72⟩, ⟨C, D, E, A, B, .r 73⟩, ⟨B, C, D, E, A, .r 74⟩, ⟨A, B, C, D, E, .r 75⟩,
  ⟨E, A, B, C, D, .r 76⟩, ⟨D, E, A, B, C, .r 77⟩, ⟨C, D, E, A, B, .r 78⟩, ⟨B, C, D, E, A, .r 79⟩]

end

def load (data : Vector UInt8 64) : Vector UInt32 16 :=
  Vector.ofFn fun i => getUint32Be data (4 * i)

end Sha1

open Sha1 in
def utilsSha1Process (state : Vector UInt32 5) (data : Vector UInt8 64) : Vector UInt32 5 :=
  let st := (state, load data)
  let st := lines0.foldl (P F0 0x5A827999) st
  let st := lines20.foldl (P F20 0x6ED9EBA1) st
  let st := lines40.foldl (P F40 0x8F1BBCDC) st
  let st := lines60.foldl (P F60 0xCA62C1D6) st
  Vector.zipWith (· + ·) state st.1

def utilsSha1Update (ctx : Sha1Context) (input : List UInt8) : Sha1Context :=
  digestUpdate utilsSha1Process ctx input

/-- `utils_sha1_finish`, with what it writes to `output`. -/
def utilsSha1Finish (ctx : Sha1Context) : Sha1Context × List UInt8 :=
  let done := digestFinish utilsSha1Process msglenBe ctx
  (done, done.state.toList.flatMap putUint32Be)

def utilsSha1 (ctx : Sha1Context) (input : List UInt8) : List UInt8 :=
  (utilsSha1Finish (utilsSha1Update (utilsSha1Starts (utilsSha1Init ctx)) input)).2

/-! ## The rounds of the standard -/

namespace Sha1

theorem S_eq (x n : UInt32) : S x n = Fips180.rotl x n := by
  rw [S, mask_word, Fips180.rotl]

/-- The variables by role, where `r` is `a`. -/
def work (r : Fin 5) (v : Vector UInt32 5) : Fips180.Sha1Work :=
  ⟨v[r], v[r + 1], v[r + 2], v[r + 3], v[r + 4]⟩

/-- Line `t` as the standard has it: the roles go round, and so does the ring. -/
def line (t : Nat) : Line :=
  let r := Fin.ofNat 5 (4 * t)
  ⟨r, r + 1, r + 2, r + 3, r + 4, if t < 16 then .w t else .r t⟩

theorem lines_eq :
    lines0 = (List.range' 0 20).map line ∧ lines20 = (List.range' 20 20).map line ∧
      lines40 = (List.range' 40 20).map line ∧ lines60 = (List.range' 60 20).map line := by
  decide

variable {t : Nat}

theorem F_eq (x y z : UInt32) :
    (if t < 20 then F0 x y z else if t < 40 then F20 x y z else if t < 60 then F40 x y z
      else F60 x y z) = Fips180.sha1F t x y z := by
  unfold Fips180.sha1F
  split
  · exact Fips180.ch_eq x y z
  · split
    · rfl
    · split
      · exact Fips180.maj_eq x y z
      · rfl

variable {block : List UInt8}

theorem work_turn {F : UInt32 → UInt32 → UInt32 → UInt32} {K x : UInt32}
    (hF : ∀ x y z, F x y z = Fips180.sha1F t x y z) (hK : K = Fips180.sha1K t)
    (hx : x = Fips180.sha1Schedule block t) (r : Fin 5) (w : Word) (v : Vector UInt32 5) :
    work (r + 4) (Line.turn F K x ⟨r, r + 1, r + 2, r + 3, r + 4, w⟩ v) =
      Fips180.sha1Step block (work r v) t := by
  subst hK hx
  have hsum (s f e k x : UInt32) : s + f + e + k + x = e + (s + f + k + x) := by ac_rfl
  obtain ⟨r, hr⟩ := r
  interval_cases r <;> simp [work, Line.turn, Fips180.sha1Step, hF, S_eq, hsum]

/-- What the lines before `t` have made of the variables `state` and of the words loaded. -/
structure Reached (block : List UInt8) (state : Vector UInt32 5) (t : Nat)
    (st : Vector UInt32 5 × Vector UInt32 16) : Prop where
  work : work (Fin.ofNat 5 (4 * t)) st.1 =
    (List.range t).foldl (Fips180.sha1Step block) (work 0 state)
  ring : ∀ i < max t 16, max t 16 ≤ i + 16 → st.2[i % 16]?.getD 0 = Fips180.sha1Schedule block i

theorem and_0x0F (n : Nat) : n &&& 0x0F = n % 16 := Nat.and_two_pow_sub_one_eq_mod n 4

theorem Reached.read {state : Vector UInt32 5}
    {st : Vector UInt32 5 × Vector UInt32 16} (h : Reached block state t st) :
    ((line t).x.read st.2).1 = Fips180.sha1Schedule block t ∧
      ∀ i < max (t + 1) 16, max (t + 1) 16 ≤ i + 16 →
        ((line t).x.read st.2).2[i % 16]?.getD 0 = Fips180.sha1Schedule block i := by
  by_cases ht : t < 16
  · have hx : (line t).x = .w t := if_pos ht
    rw [hx]
    refine ⟨?_, fun i hi hlast => h.ring i (by omega) (by omega)⟩
    have hw := h.ring t (by omega) (by omega)
    rw [Nat.mod_eq_of_lt ht] at hw
    exact hw
  · have hx : (line t).x = .r t := if_neg ht
    have hmod : t % 16 = (t - 16) % 16 := by omega
    have hword : ((line t).x.read st.2).1 = Fips180.sha1Schedule block t := by
      rw [hx, Fips180.sha1Schedule, if_neg ht]
      simp only [Word.read, and_0x0F, S_eq]
      rw [h.ring (t - 3) (by omega) (by omega), h.ring (t - 8) (by omega) (by omega),
        h.ring (t - 14) (by omega) (by omega), hmod, h.ring (t - 16) (by omega) (by omega)]
    refine ⟨hword, fun i hi hlast => ?_⟩
    have hring : ((line t).x.read st.2).2 =
        st.2.setIfInBounds (t % 16) ((line t).x.read st.2).1 := by
      rw [hx]
      simp only [Word.read, and_0x0F]
    rw [hring, hword, Vector.getElem?_setIfInBounds]
    by_cases heq : t = i
    · subst heq
      rw [if_pos rfl, if_pos (Nat.mod_lt _ (by decide)), Option.getD_some]
    · rw [if_neg (by omega)]
      exact h.ring i (by omega) (by omega)

theorem Reached.line {F : UInt32 → UInt32 → UInt32 → UInt32} {K : UInt32}
    {state : Vector UInt32 5} {st : Vector UInt32 5 × Vector UInt32 16}
    (h : Reached block state t st) (hF : ∀ x y z, F x y z = Fips180.sha1F t x y z)
    (hK : K = Fips180.sha1K t) : Reached block state (t + 1) (P F K st (line t)) := by
  obtain ⟨hword, hring⟩ := h.read
  refine ⟨?_, hring⟩
  have hrole : Fin.ofNat 5 (4 * (t + 1)) = Fin.ofNat 5 (4 * t) + 4 := by
    apply Fin.ext
    simp [Fin.val_add]
    omega
  rw [List.range_succ, List.foldl_append, ← h.work, hrole]
  exact work_turn hF hK hword _ _ st.1

theorem Reached.lines {F : UInt32 → UInt32 → UInt32 → UInt32} {K : UInt32}
    {state : Vector UInt32 5} (n : Nat) {st : Vector UInt32 5 × Vector UInt32 16}
    (h : Reached block state t st)
    (hF : ∀ i < t + n, t ≤ i → ∀ x y z, F x y z = Fips180.sha1F i x y z)
    (hK : ∀ i < t + n, t ≤ i → K = Fips180.sha1K i) :
    Reached block state (t + n) (((List.range' t n).map Sha1.line).foldl (P F K) st) := by
  induction n generalizing t st with
  | zero => exact h
  | succ n ih =>
    rw [List.range'_succ, List.map_cons, List.foldl_cons, ← Nat.succ_add_eq_add_succ]
    refine ih (h.line (hF t (by omega) (Nat.le_refl t)) (hK t (by omega) (Nat.le_refl t)))
      (fun i hi hle => hF i (by omega) (by omega)) fun i hi hle => hK i (by omega) (by omega)

theorem Reached.load (block : List UInt8) (state : Vector UInt32 5) :
    Reached block state 0 (state, load (blockOf block)) := by
  refine ⟨rfl, fun i hi _ => ?_⟩
  have hlt : i < 16 := hi
  rw [Nat.mod_eq_of_lt hlt, Sha1.load, Vector.getElem?_ofFn, dif_pos hlt, Option.getD_some,
    getUint32Be_blockOf block hlt, Fips180.sha1Schedule, if_pos hlt]

theorem K_eq :
    (if t < 20 then 0x5A827999 else if t < 40 then 0x6ED9EBA1 else if t < 60 then 0x8F1BBCDC
      else 0xCA62C1D6) = Fips180.sha1K t := by
  have hroots : ∀ p ∈ [(2, 0x5A827999), (3, 0x6ED9EBA1), (5, 0x8F1BBCDC), (10, 0xCA62C1D6)],
      p.2 = UInt32.ofNat (Nat.nthRoot 2 (p.1 * 2 ^ 60)) := by
    decide +kernel
  simp only [List.forall_mem_cons] at hroots
  obtain ⟨h0, h20, h40, h60, -⟩ := hroots
  unfold Fips180.sha1K
  split
  · exact h0
  · split
    · exact h20
    · split
      · exact h40
      · exact h60

open Sha1 in
theorem Reached.all (block : List UInt8) (state : Vector UInt32 5) :
    Reached block state 80 (lines60.foldl (P F60 0xCA62C1D6) (lines40.foldl (P F40 0x8F1BBCDC)
      (lines20.foldl (P F20 0x6ED9EBA1) (lines0.foldl (P F0 0x5A827999)
        (state, Sha1.load (blockOf block)))))) := by
  obtain ⟨h0, h20, h40, h60⟩ := lines_eq
  rw [h0, h20, h40, h60]
  refine ((((Reached.load block state).lines 20 ?_ ?_).lines 20 ?_ ?_).lines 20 ?_ ?_).lines
    20 ?_ ?_
  all_goals
    intro i hi hle
  · intro x y z
    rw [← F_eq, if_pos (by omega)]
  · rw [← K_eq, if_pos (by omega)]
  · intro x y z
    rw [← F_eq, if_neg (by omega), if_pos (by omega)]
  · rw [← K_eq, if_neg (by omega), if_pos (by omega)]
  · intro x y z
    rw [← F_eq, if_neg (by omega), if_neg (by omega), if_pos (by omega)]
  · rw [← K_eq, if_neg (by omega), if_neg (by omega), if_pos (by omega)]
  · intro x y z
    rw [← F_eq, if_neg (by omega), if_neg (by omega), if_neg (by omega)]
  · rw [← K_eq, if_neg (by omega), if_neg (by omega), if_neg (by omega)]

end Sha1

theorem work_sha1Process (state : Vector UInt32 5) (block : List UInt8) :
    Sha1.work 0 (utilsSha1Process state (blockOf block)) =
      Fips180.sha1Compress block (Sha1.work 0 state) := by
  have hrole : Fin.ofNat 5 (4 * 80) = 0 := rfl
  rw [Fips180.sha1Compress, ← (Sha1.Reached.all block state).work, utilsSha1Process, hrole]
  simp [Sha1.work, UInt32.add_comm]

/-! ## The digest of a message -/

theorem digest_sha1Work (state : Vector UInt32 5) :
    (Sha1.work 0 state).digest = state.toList.flatMap putUint32Be := by
  have hlist : state.toList = [state[0], state[1], state[2], state[3], state[4]] :=
    toList_eq_ofFn state
  rw [hlist]
  simp only [Fips180.Sha1Work.digest, List.flatMap_cons, List.flatMap_nil, putUint32Be_eq]
  rfl

theorem Carries.sha1Finish {ctx : Sha1Context} {msg : List UInt8}
    (h : Carries utilsSha1Process sha1State msg ctx) :
    (utilsSha1Finish ctx).2 = Fips180.sha1 msg := by
  have hstate := h.hash work_sha1Process (fun _ _ _ => beBytes_two_words)
    (BlockHash.length_beBytes 8)
  have hinit : Sha1.work 0 sha1State = Fips180.sha1Init := rfl
  unfold utilsSha1Finish
  dsimp only
  rw [← digest_sha1Work, hstate, hinit]
  rfl

/-- A message can be given in any pieces: what is written is its digest. -/
theorem sha1_pieces (ctx : Sha1Context) (pieces : List (List UInt8))
    (hlen : ∀ p ∈ pieces, p.length < 4294967296) :
    (utilsSha1Finish (pieces.foldl utilsSha1Update (utilsSha1Starts ctx))).2 =
      Fips180.sha1 pieces.flatten :=
  ((Carries.starts sha1State ctx.buffer).updates pieces hlen).sha1Finish

theorem sha1_pieces_abc :
    (utilsSha1Finish ([[0x61], [0x62, 0x63]].foldl utilsSha1Update (utilsSha1Starts sha1Zero))).2 =
      Fips180.sha1 [0x61, 0x62, 0x63] :=
  sha1_pieces sha1Zero [[0x61], [0x62, 0x63]] (by decide)

end AliyunIot.Infra
