import AliyunIot.Lib.BlockHash
import Mathlib.Data.List.GetD

/-!
# Digest contexts

What `infra_sha256.c`, `infra_sha1.c` and `infra_md5.c` have in common: the contexts
differ in their `state`, the functions in how a block is processed (`process`) and in how
a word is written (`put`). A context of a message (`Carries`) carries the chaining value
behind its whole blocks, the rest of it in `buffer`, and its length; `digestUpdate` keeps
that, however the message is cut, and `digestFinish` pads it.
-/

namespace AliyunIot.Infra

open Lib

/-- `iot_sha256_context` (less `is224`), `iot_sha1_context` and `iot_md5_context`. -/
structure DigestContext (σ : Type) where
  total0 : UInt32
  total1 : UInt32
  state : σ
  buffer : Vector UInt8 64

/-- The 64 bytes at `data`. -/
def blockOf (data : List UInt8) : Vector UInt8 64 := Vector.ofFn fun i => data.getD i 0

/-- `memcpy(buffer + left, input, ilen)`. -/
def putBuffer (buffer : Vector UInt8 64) (left : Nat) (input : List UInt8) : Vector UInt8 64 :=
  Vector.ofFn fun i =>
    if left ≤ i ∧ i < left + input.length then input.getD (i - left) 0 else buffer[i]

def putUint32Be (n : UInt32) : List UInt8 :=
  [(n >>> 24).toUInt8, (n >>> 16).toUInt8, (n >>> 8).toUInt8, n.toUInt8]

def putUint32Le (n : UInt32) : List UInt8 :=
  [n.toUInt8, (n >>> 8).toUInt8, (n >>> 16).toUInt8, (n >>> 24).toUInt8]

section

variable {σ : Type} (process : σ → Vector UInt8 64 → σ)

/-- The loop over the blocks of `input`, and the copy behind it. -/
def digestBlocks (left : Nat) (ctx : DigestContext σ) (input : List UInt8) : DigestContext σ :=
  if 64 ≤ input.length then
    digestBlocks left { ctx with state := process ctx.state (blockOf input) } (input.drop 64)
  else if 0 < input.length then { ctx with buffer := putBuffer ctx.buffer left input }
  else ctx
termination_by input.length
decreasing_by rw [List.length_drop]; omega

/-- `utils_sha256_update`, `utils_sha1_update` and `utils_md5_update`, of the bytes of
`input`. -/
def digestUpdate (ctx : DigestContext σ) (input : List UInt8) : DigestContext σ :=
  let ilen := UInt32.ofNat input.length
  if ilen = 0 then ctx else
  let left := (ctx.total0 &&& 0x3F).toNat
  let fill := 64 - left
  let total0 := ctx.total0 + ilen
  let total1 := if total0 < ilen then ctx.total1 + 1 else ctx.total1
  let ctx := { ctx with total0 := total0, total1 := total1 }
  if left ≠ 0 ∧ fill ≤ input.length then
    let buffer := putBuffer ctx.buffer left (input.take fill)
    let ctx := { ctx with buffer := buffer, state := process ctx.state buffer }
    digestBlocks process 0 ctx (input.drop fill)
  else digestBlocks process left ctx input

/-- `sha256_padding`, `sha1_padding` and `iot_md5_padding`. -/
def digestPadding : List UInt8 := 0x80 :: List.replicate 63 0

/-- `utils_sha256_finish`, `utils_sha1_finish` and `utils_md5_finish`, up to the state they
write out; `msglen high low` is how the length is written. -/
def digestFinish (msglen : UInt32 → UInt32 → List UInt8) (ctx : DigestContext σ) :
    DigestContext σ :=
  let high := (ctx.total0 >>> 29) ||| (ctx.total1 <<< 3)
  let low := ctx.total0 <<< 3
  let last := ctx.total0 &&& 0x3F
  let padn := if last < 56 then 56 - last else 120 - last
  let ctx := digestUpdate process ctx (digestPadding.take padn.toNat)
  digestUpdate process ctx (msglen high low)

end

/-! ## The buffer -/

theorem blockOf_toList (block : Vector UInt8 64) : blockOf block.toList = block := by
  apply Vector.ext
  intro i hi
  have hlt : i < block.toList.length := by
    rw [Vector.length_toList]
    exact hi
  rw [blockOf, Vector.getElem_ofFn, List.getD_eq_getElem _ _ hlt, Vector.getElem_toList]

theorem blockOf_take (data : List UInt8) : blockOf (data.take 64) = blockOf data := by
  apply Vector.ext
  intro i hi
  simp only [blockOf, Vector.getElem_ofFn, List.getD_eq_getElem?_getD, List.getElem?_take,
    if_pos hi]

theorem getElem?_toList_putBuffer (buffer : Vector UInt8 64) (left : Nat) (input : List UInt8)
    {i : Nat} (hi : i < 64) :
    (putBuffer buffer left input).toList[i]? =
      some (if left ≤ i ∧ i < left + input.length then input.getD (i - left) 0 else buffer[i]) := by
  rw [List.getElem?_eq_getElem (by rw [Vector.length_toList]; exact hi), Vector.getElem_toList,
    putBuffer, Vector.getElem_ofFn]
  rfl

theorem take_putBuffer (buffer : Vector UInt8 64) {left : Nat} {input : List UInt8}
    (h : left + input.length ≤ 64) :
    (putBuffer buffer left input).toList.take (left + input.length) =
      buffer.toList.take left ++ input := by
  have hleft : (buffer.toList.take left).length = left := by
    rw [List.length_take, Vector.length_toList]
    omega
  apply List.ext_getElem?
  intro i
  rw [List.getElem?_take, List.getElem?_append, hleft]
  by_cases hi : i < left + input.length
  · rw [if_pos hi, getElem?_toList_putBuffer _ _ _ (by omega)]
    by_cases hl : i < left
    · rw [if_neg (by omega), if_pos hl, List.getElem?_take, if_pos hl,
        List.getElem?_eq_getElem (by rw [Vector.length_toList]; omega), Vector.getElem_toList]
    · have hin : i - left < input.length := by omega
      rw [if_pos ⟨by omega, hi⟩, if_neg hl, List.getD_eq_getElem _ _ hin,
        List.getElem?_eq_getElem hin]
  · rw [if_neg hi, if_neg (by omega), List.getElem?_eq_none (by omega)]

theorem putBuffer_fill (buffer : Vector UInt8 64) {left : Nat} {input : List UInt8}
    (hleft : left ≤ 64) (h : 64 - left ≤ input.length) :
    putBuffer buffer left (input.take (64 - left)) =
      blockOf (buffer.toList.take left ++ input.take (64 - left)) := by
  have htake : left + (input.take (64 - left)).length = 64 := by
    rw [List.length_take, Nat.min_eq_left h, Nat.add_sub_cancel' hleft]
  have hall := take_putBuffer buffer (Nat.le_of_eq htake)
  rw [htake] at hall
  rw [← hall, List.take_of_length_le (Nat.le_of_eq Vector.length_toList), blockOf_toList]

theorem toList_eq_ofFn {α : Type} {n : Nat} (v : Vector α n) :
    v.toList = List.ofFn fun i : Fin n => v[i] := by
  simp [← Vector.toList_ofFn]

/-! ## A context of a message -/

section

variable {σ : Type} {process : σ → Vector UInt8 64 → σ} {init : σ}

def overBlocks (process : σ → Vector UInt8 64 → σ) (s : σ) (block : List UInt8) : σ :=
  process s (blockOf block)

/-- `ctx` is what a message `msg` leaves of a context that starts with `init`. -/
structure Carries (process : σ → Vector UInt8 64 → σ) (init : σ) (msg : List UInt8)
    (ctx : DigestContext σ) : Prop where
  total : ctx.total1.toNat * 4294967296 + ctx.total0.toNat = msg.length % 18446744073709551616
  state : ctx.state = (BlockHash.absorb 64 (overBlocks process) init msg).1
  buffer : ctx.buffer.toList.take (msg.length % 64) =
    (BlockHash.absorb 64 (overBlocks process) init msg).2

theorem Carries.left {msg : List UInt8} {ctx : DigestContext σ}
    (h : Carries process init msg ctx) : (ctx.total0 &&& 0x3F).toNat = msg.length % 64 := by
  have htotal := h.total
  have hmask : (ctx.total0 &&& 0x3F).toNat = ctx.total0.toNat % 64 :=
    Nat.and_two_pow_sub_one_eq_mod ctx.total0.toNat 6
  rw [hmask]
  omega

theorem two_words (high x : Nat) :
    (high * 4294967296 + x) % 18446744073709551616 =
      (high + x / 4294967296) % 4294967296 * 4294967296 + x % 4294967296 := by
  have hm := @Nat.mod_mul 4294967296 4294967296 (high * 4294967296 + x)
  rw [Nat.mul_add_mod_self_right, Nat.mul_comm high, Nat.mul_add_div (by decide)] at hm
  rw [Nat.mul_comm high, Nat.mul_comm _ 4294967296, Nat.add_comm _ (x % 4294967296)]
  exact hm

theorem total_update {total0 total1 : UInt32} {len n : Nat} (hn : n < 4294967296)
    (h : total1.toNat * 4294967296 + total0.toNat = len % 18446744073709551616) :
    (if total0 + UInt32.ofNat n < UInt32.ofNat n then total1 + 1 else total1).toNat * 4294967296 +
        (total0 + UInt32.ofNat n).toNat = (len + n) % 18446744073709551616 := by
  have hlen : (UInt32.ofNat n).toNat = n := Nat.mod_eq_of_lt hn
  have h0 := total0.toNat_lt
  have h1 := total1.toNat_lt
  rw [← Nat.mod_add_mod, ← h, Nat.add_assoc, two_words]
  simp only [UInt32.lt_iff_toNat_lt, UInt32.toNat_add, hlen]
  split
  next hcarry =>
    have hdiv : (total0.toNat + n) / 4294967296 = 1 := by omega
    rw [hdiv, UInt32.toNat_add, UInt32.toNat_one]
  next hcarry =>
    have hdiv : (total0.toNat + n) / 4294967296 = 0 := by omega
    rw [hdiv, Nat.add_zero, Nat.mod_eq_of_lt h1]

theorem digestBlocks_absorb (left : Nat) (ctx : DigestContext σ) (input : List UInt8)
    (h : left = 0 ∨ left + input.length < 64) :
    (digestBlocks process left ctx input).total0 = ctx.total0 ∧
    (digestBlocks process left ctx input).total1 = ctx.total1 ∧
    ((digestBlocks process left ctx input).state,
      (digestBlocks process left ctx input).buffer.toList.take ((left + input.length) % 64)) =
      BlockHash.absorb 64 (overBlocks process) ctx.state
        (ctx.buffer.toList.take left ++ input) := by
  have hleft (hl : left ≤ 64) : (ctx.buffer.toList.take left).length = left := by
    rw [List.length_take, Vector.length_toList]
    omega
  rw [digestBlocks]
  split
  next hfull =>
    obtain rfl : left = 0 := by omega
    obtain ⟨h0, h1, hrest⟩ := digestBlocks_absorb 0
      { ctx with state := process ctx.state (blockOf input) } (input.drop 64) (Or.inl rfl)
    refine ⟨h0, h1, ?_⟩
    have hmod : (0 + input.length) % 64 = (0 + (input.drop 64).length) % 64 := by
      rw [List.length_drop]
      omega
    rw [hmod, hrest, List.take_zero, List.nil_append, List.nil_append,
      BlockHash.absorb_step (by decide) hfull, overBlocks, blockOf_take]
  next hshort =>
    have hlt : left + input.length < 64 := by omega
    have hsum : (ctx.buffer.toList.take left ++ input).length < 64 := by
      rw [List.length_append, hleft (by omega)]
      exact hlt
    rw [BlockHash.absorb_short hsum, Nat.mod_eq_of_lt hlt]
    split
    next => exact ⟨rfl, rfl, congrArg (Prod.mk ctx.state) (take_putBuffer _ (Nat.le_of_lt hlt))⟩
    next hnone =>
      obtain rfl : input = [] := List.length_eq_zero_iff.mp (by omega)
      refine ⟨rfl, rfl, ?_⟩
      rw [List.append_nil]
      rfl
termination_by input.length
decreasing_by rw [List.length_drop]; omega

theorem Carries.ofBlocks (left : Nat) {msg input rest : List UInt8} {ctx : DigestContext σ}
    (htotal : ctx.total1.toNat * 4294967296 + ctx.total0.toNat =
      (msg.length + input.length) % 18446744073709551616)
    (happ : BlockHash.absorb 64 (overBlocks process) init (msg ++ input) =
      BlockHash.absorb 64 (overBlocks process) ctx.state (ctx.buffer.toList.take left ++ rest))
    (hmod : (msg ++ input).length % 64 = (left + rest.length) % 64)
    (hleft : left = 0 ∨ left + rest.length < 64) :
    Carries process init (msg ++ input) (digestBlocks process left ctx rest) := by
  obtain ⟨h0, h1, hblocks⟩ := digestBlocks_absorb left ctx rest hleft
  rw [← happ] at hblocks
  refine ⟨?_, congrArg Prod.fst hblocks, ?_⟩
  · rw [h0, h1, List.length_append]
    exact htotal
  · rw [hmod]
    exact congrArg Prod.snd hblocks

theorem Carries.update {msg input : List UInt8} {ctx : DigestContext σ}
    (h : Carries process init msg ctx) (hlen : input.length < 4294967296) :
    Carries process init (msg ++ input) (digestUpdate process ctx input) := by
  have hilen : (UInt32.ofNat input.length).toNat = input.length := Nat.mod_eq_of_lt hlen
  have htotal := total_update hlen h.total
  have hcur : msg.length % 64 < 64 := Nat.mod_lt _ (by decide)
  have hrest : (ctx.buffer.toList.take (msg.length % 64)).length = msg.length % 64 := by
    rw [h.buffer, BlockHash.length_absorb]
  have happ : BlockHash.absorb 64 (overBlocks process) init (msg ++ input) = _ :=
    BlockHash.absorb_append (by decide) init msg input
  rw [← h.state, ← h.buffer] at happ
  unfold digestUpdate
  by_cases hzero : input = []
  · subst hzero
    rw [List.append_nil, if_pos (by rfl)]
    exact h
  have hpos : UInt32.ofNat input.length ≠ 0 := by
    intro h0
    rw [h0] at hilen
    exact hzero (List.length_eq_zero_iff.mp hilen.symm)
  rw [if_neg hpos, h.left]
  dsimp only
  split
  next hfill =>
    -- the block that was begun is completed, and the rest starts at the next one
    have hfull : 64 - (ctx.buffer.toList.take (msg.length % 64)).length ≤ input.length := by
      rw [hrest]
      exact hfill.2
    rw [BlockHash.absorb_fill (by decide) (by omega) hfull, hrest, overBlocks,
      ← putBuffer_fill _ (Nat.le_of_lt hcur) hfill.2] at happ
    refine .ofBlocks 0 htotal happ ?_ (Or.inl rfl)
    rw [List.length_append, List.length_drop]
    omega
  next hfill => exact .ofBlocks _ htotal happ (by rw [List.length_append]; omega) (by omega)

theorem Carries.updates {msg : List UInt8} {ctx : DigestContext σ}
    (h : Carries process init msg ctx) (pieces : List (List UInt8))
    (hlen : ∀ p ∈ pieces, p.length < 4294967296) :
    Carries process init (msg ++ pieces.flatten) (pieces.foldl (digestUpdate process) ctx) := by
  induction pieces generalizing msg ctx with
  | nil =>
    rw [List.flatten_nil, List.append_nil]
    exact h
  | cons p pieces ih =>
    rw [List.flatten_cons, ← List.append_assoc]
    exact ih (h.update (hlen p List.mem_cons_self))
      fun q hq => hlen q (List.mem_cons_of_mem p hq)

end

/-! ## The length -/

theorem toNat_or_shiftLeft (a b : UInt32) (ha : a.toNat < 8) :
    (a ||| (b <<< 3)).toNat = a.toNat + b.toNat * 8 % 4294967296 := by
  have hb : (b <<< 3).toNat = b.toNat * 8 % 4294967296 := by
    rw [UInt32.toNat_shiftLeft, Nat.shiftLeft_eq]
    rfl
  rw [UInt32.toNat_or, hb, Nat.or_comm]
  have hmul : b.toNat * 8 % 4294967296 = (b.toNat * 8 % 4294967296 / 8) <<< 3 := by
    rw [Nat.shiftLeft_eq]
    omega
  rw [hmul, ← Nat.shiftLeft_add_eq_or_of_lt ha, Nat.add_comm]

theorem bits_total {total0 total1 : UInt32} {len : Nat}
    (h : total1.toNat * 4294967296 + total0.toNat = len % 18446744073709551616) :
    ((total0 >>> 29) ||| (total1 <<< 3)).toNat * 4294967296 + (total0 <<< 3).toNat =
      8 * len % 18446744073709551616 := by
  have h0 := total0.toNat_lt
  have hshift : (total0 >>> 29).toNat = total0.toNat / 536870912 := by
    rw [UInt32.toNat_shiftRight, Nat.shiftRight_eq_div_pow]
    rfl
  have hlow : (total0 <<< 3).toNat = 8 * total0.toNat % 4294967296 := by
    rw [UInt32.toNat_shiftLeft, Nat.shiftLeft_eq, Nat.mul_comm]
    rfl
  rw [toNat_or_shiftLeft _ _ (by rw [hshift]; omega), hshift, hlow, ← Nat.mul_mod_mod 8 len, ← h,
    Nat.mul_add, ← Nat.mul_assoc, two_words]
  have hcarry : 8 * total0.toNat / 4294967296 = total0.toNat / 536870912 := by omega
  rw [hcarry]
  congr 2
  omega

theorem putUint32Le_eq (n : UInt32) : putUint32Le n = BlockHash.leBytes 4 n.toNat := by
  have hbyte (k : UInt32) : (n >>> k).toUInt8 = UInt8.ofNat (n.toNat / 2 ^ (k.toNat % 32)) := by
    apply UInt8.toNat_inj.mp
    rw [UInt32.toNat_toUInt8, UInt32.toNat_shiftRight, Nat.shiftRight_eq_div_pow,
      UInt8.toNat_ofNat']
  have hlow : n.toUInt8 = UInt8.ofNat n.toNat := rfl
  have hbytes :
    BlockHash.leBytes 4 n.toNat = [UInt8.ofNat (n.toNat / 1), UInt8.ofNat (n.toNat / 256),
    UInt8.ofNat (n.toNat / 65536), UInt8.ofNat (n.toNat / 16777216)] := rfl
  rw [hbytes, putUint32Le, hbyte, hbyte, hbyte, hlow, Nat.div_one]
  rfl

theorem putUint32Be_eq (n : UInt32) : putUint32Be n = BlockHash.beBytes 4 n.toNat := by
  have hrev : putUint32Be n = (putUint32Le n).reverse := rfl
  rw [hrev, putUint32Le_eq, BlockHash.beBytes]

/-- How `utils_md5_finish` writes the length. -/
def msglenLe (high low : UInt32) : List UInt8 := putUint32Le low ++ putUint32Le high

/-- How `utils_sha256_finish` and `utils_sha1_finish` do. -/
def msglenBe (high low : UInt32) : List UInt8 := putUint32Be high ++ putUint32Be low

theorem leBytes_two_words {high low : UInt32} {k : Nat}
    (h : high.toNat * 4294967296 + low.toNat = k % 18446744073709551616) :
    msglenLe high low = BlockHash.leBytes 8 k := by
  have hlow := low.toNat_lt
  have hword : 256 ^ 4 = 4294967296 := rfl
  have hmod : BlockHash.leBytes 4 (high.toNat * 4294967296 + low.toNat) =
      BlockHash.leBytes 4 low.toNat := by
    rw [← BlockHash.leBytes_mod, hword, Nat.mul_add_mod_self_right, Nat.mod_eq_of_lt hlow]
  have hdiv : (high.toNat * 4294967296 + low.toNat) / 256 ^ 4 = high.toNat := by
    rw [hword, Nat.mul_comm, Nat.mul_add_div (by decide), Nat.div_eq_of_lt hlow, Nat.add_zero]
  rw [← BlockHash.leBytes_mod, show 256 ^ 8 = 18446744073709551616 from rfl, ← h,
    BlockHash.leBytes_add 4 4, hmod, hdiv, msglenLe, putUint32Le_eq, putUint32Le_eq]

theorem beBytes_two_words {high low : UInt32} {k : Nat}
    (h : high.toNat * 4294967296 + low.toNat = k % 18446744073709551616) :
    msglenBe high low = BlockHash.beBytes 8 k := by
  have hrev : msglenBe high low = (msglenLe high low).reverse := rfl
  rw [hrev, leBytes_two_words h, BlockHash.beBytes]

/-! ## The end of a message -/

section

variable {σ : Type} {process : σ → Vector UInt8 64 → σ} {init : σ}

theorem toNat_padn {last : UInt32} {len : Nat} (h : last.toNat = len % 64) :
    (if last < 56 then 56 - last else 120 - last).toNat = BlockHash.padn len := by
  have hlt : last < 56 ↔ len % 64 < 56 := by rw [UInt32.lt_iff_toNat_lt, h]; rfl
  have hmod : len % 64 < 64 := Nat.mod_lt _ (by decide)
  rw [BlockHash.padn]
  by_cases hlast : len % 64 < 56
  · have hle : last ≤ 56 := by
      rw [UInt32.le_iff_toNat_le, h]
      exact Nat.le_of_lt hlast
    rw [if_pos (hlt.mpr hlast), if_pos hlast, UInt32.toNat_sub_of_le _ _ hle, h]
    rfl
  · have hle : last ≤ 120 := by
      rw [UInt32.le_iff_toNat_le, h]
      exact Nat.le_trans (Nat.le_of_lt hmod) (by decide)
    rw [if_neg (mt hlt.mp hlast), if_neg hlast, UInt32.toNat_sub_of_le _ _ hle, h]
    rfl

theorem Carries.finish {msglen : UInt32 → UInt32 → List UInt8} {bits : Nat → List UInt8}
    (hmsglen : ∀ (high low : UInt32) (k : Nat),
      high.toNat * 4294967296 + low.toNat = k % 18446744073709551616 → msglen high low = bits k)
    (hbits : ∀ k, (bits k).length = 8) {msg : List UInt8} {ctx : DigestContext σ}
    (h : Carries process init msg ctx) :
    Carries process init (msg ++ BlockHash.padding bits msg.length)
      (digestFinish process msglen ctx) := by
  have hpos := BlockHash.padn_pos msg.length
  have hle := BlockHash.padn_le msg.length
  have hpadn := toNat_padn h.left
  have hzeros : digestPadding.take (BlockHash.padn msg.length) =
      0x80 :: List.replicate (BlockHash.padn msg.length - 1) 0 := by
    obtain ⟨n, hn⟩ : ∃ n, BlockHash.padn msg.length = n + 1 := ⟨_, (Nat.sub_add_cancel hpos).symm⟩
    rw [hn, digestPadding, List.take_succ_cons, List.take_replicate, Nat.min_eq_left (by omega),
      Nat.add_sub_cancel]
  have hend := h.updates [digestPadding.take (BlockHash.padn msg.length), bits (8 * msg.length)]
    (by
      intro p hp
      rcases List.mem_cons.mp hp with rfl | hp
      · rw [List.length_take]
        omega
      · rw [List.mem_singleton.mp hp, hbits]
        decide)
  rw [List.flatten_cons, List.flatten_cons, List.flatten_nil, List.append_nil, hzeros,
    ← hmsglen _ _ _ (bits_total h.total)] at hend
  unfold digestFinish
  dsimp only
  rw [hpadn, hzeros, BlockHash.padding, ← hmsglen _ _ _ (bits_total h.total)]
  exact hend

theorem Carries.hash {τ : Type} {work : σ → τ} {compress : List UInt8 → τ → τ}
    (hwork : ∀ s block, work (process s (blockOf block)) = compress block (work s))
    {msglen : UInt32 → UInt32 → List UInt8} {bits : Nat → List UInt8}
    (hmsglen : ∀ (high low : UInt32) (k : Nat),
      high.toNat * 4294967296 + low.toNat = k % 18446744073709551616 → msglen high low = bits k)
    (hbits : ∀ k, (bits k).length = 8) {msg : List UInt8} {ctx : DigestContext σ}
    (h : Carries process init msg ctx) :
    work (digestFinish process msglen ctx).state =
      BlockHash.blockHash (fun w block => compress block w) bits (work init) msg :=
  (congrArg work (h.finish hmsglen hbits).state).trans
    (BlockHash.blockHash_map work (fun s block _ => hwork s block) init msg)

theorem Carries.starts (init : σ) (buffer : Vector UInt8 64) :
    Carries process init [] ⟨0, 0, init, buffer⟩ where
  total := by rw [List.length_nil, Nat.zero_mod, UInt32.toNat_zero]
  state := by rw [BlockHash.absorb_nil]
  buffer := by rw [BlockHash.absorb_nil, List.length_nil, Nat.zero_mod, List.take_zero]

end

end AliyunIot.Infra
