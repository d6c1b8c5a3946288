import AliyunIot.Lib.Run
import Mathlib.Logic.Function.Iterate

/-!
# CoAP message identifiers

The generators of server and client, each a counter that starts at `1`. Both
return the counter and then move it, up to `65535`; there the server goes back
to `1` and returns the new value, the client returns `1` and stays. Before that
every identifier is new, from then on `1` comes twice in a row
(`messageIds_fresh_iff`).
-/

namespace AliyunIot.Coap

abbrev coapMaxMessageId : UInt16 := 65535

/-- `CoAPMessageId_gen` on `ctx->message_id`: the identifier, and the counter it leaves. -/
def coapMessageIdGen (messageId : UInt16) : UInt16 × UInt16 :=
  if coapMaxMessageId = messageId then (1, 1) else (messageId, messageId + 1)

/-- `Cloud_CoAPMessageId_gen` on `context->message_id`. -/
def cloudCoapMessageIdGen (messageId : UInt16) : UInt16 × UInt16 :=
  if coapMaxMessageId = messageId then (1, messageId) else (messageId, messageId + 1)

/-- `message_id` after `CoAPContext_create` and `Cloud_CoAPContext_create`. -/
abbrev messageIdInit : UInt16 := 1

def counterAfter (gen : UInt16 → UInt16 × UInt16) (messageId : UInt16) (n : Nat) : UInt16 :=
  (fun c => (gen c).2)^[n] messageId

/-- What call number `n` returns, counted from `0`. -/
def idAfter (gen : UInt16 → UInt16 × UInt16) (messageId : UInt16) (n : Nat) : UInt16 :=
  (gen (counterAfter gen messageId n)).1

/-- `k` calls return identifiers in `1 … 65535`, no two of them equal that are
fewer than 65534 calls apart. -/
def IdsFresh (gen : UInt16 → UInt16 × UInt16) (messageId : UInt16) (k : Nat) : Prop :=
  (∀ i, i < k → 1 ≤ (idAfter gen messageId i).toNat ∧ (idAfter gen messageId i).toNat ≤ 65535) ∧
  ∀ i j, i < j → j < k → j - i < 65534 → idAfter gen messageId i ≠ idAfter gen messageId j

/-- What the two generators share: below `65535` they return the counter and
add one to it, and there they return `1`, twice. -/
structure Wrapping (gen : UInt16 → UInt16 × UInt16) : Prop where
  count : ∀ c, c ≠ coapMaxMessageId → gen c = (c, c + 1)
  wrap : (gen coapMaxMessageId).1 = 1
  again : (gen (gen coapMaxMessageId).2).1 = 1
  pos : (gen coapMaxMessageId).2 ≠ 0

theorem coapMessageIdGen_wrapping : Wrapping coapMessageIdGen where
  count _ h := if_neg (Ne.symm h)
  wrap := rfl
  again := rfl
  pos := by decide

theorem cloudCoapMessageIdGen_wrapping : Wrapping cloudCoapMessageIdGen where
  count _ h := if_neg (Ne.symm h)
  wrap := rfl
  again := rfl
  pos := by decide

theorem toNat_maxMessageId : coapMaxMessageId.toNat = 65535 := rfl

theorem toNat_lt_of_ne_max {c : UInt16} (h : c ≠ coapMaxMessageId) : c.toNat < 65535 := by
  have hlt := c.toNat_lt
  have hne := UInt16.toNat_inj.ne.mpr h
  rw [toNat_maxMessageId] at hne
  omega

theorem toNat_succ {c : UInt16} (h : c ≠ coapMaxMessageId) : (c + 1).toNat = c.toNat + 1 := by
  have := toNat_lt_of_ne_max h
  rw [UInt16.toNat_add]
  exact Nat.mod_eq_of_lt (by rw [show (1 : UInt16).toNat = 1 from rfl]; omega)

theorem counterAfter_succ (gen : UInt16 → UInt16 × UInt16) (c : UInt16) (n : Nat) :
    counterAfter gen c (n + 1) = (gen (counterAfter gen c n)).2 :=
  Function.iterate_succ_apply' _ _ _

section
variable {gen : UInt16 → UInt16 × UInt16} (hg : Wrapping gen) {c : UInt16}
include hg

theorem counterAfter_ne_zero (hc : c ≠ 0) (n : Nat) : counterAfter gen c n ≠ 0 := by
  induction n with
  | zero => exact hc
  | succ n ih =>
    rw [counterAfter_succ]
    by_cases hm : counterAfter gen c n = coapMaxMessageId
    · rw [hm]
      exact hg.pos
    · rw [hg.count _ hm]
      intro h0
      have hs := toNat_succ hm
      rw [show counterAfter gen c n + 1 = 0 from h0] at hs
      exact absurd hs.symm (Nat.succ_ne_zero _)

theorem counterAfter_toNat {n : Nat} (h : c.toNat + n ≤ 65535) :
    (counterAfter gen c n).toNat = c.toNat + n := by
  induction n with
  | zero => rfl
  | succ n ih =>
    have hn := ih (by omega)
    have hne : counterAfter gen c n ≠ coapMaxMessageId := by
      rw [← UInt16.toNat_inj.ne, hn, toNat_maxMessageId]
      omega
    rw [counterAfter_succ, hg.count _ hne, toNat_succ hne, hn, Nat.add_assoc]

theorem idAfter_toNat {n : Nat} (h : c.toNat + n < 65535) :
    (idAfter gen c n).toNat = c.toNat + n := by
  have hn := counterAfter_toNat hg (c := c) (n := n) (by omega)
  have hne : counterAfter gen c n ≠ coapMaxMessageId := by
    rw [← UInt16.toNat_inj.ne, hn, toNat_maxMessageId]
    omega
  rw [idAfter, hg.count _ hne, hn]

theorem idAfter_wrap {n : Nat} (h : c.toNat + n = 65535) :
    idAfter gen c n = 1 ∧ idAfter gen c (n + 1) = 1 := by
  have hn : counterAfter gen c n = coapMaxMessageId := by
    rw [← UInt16.toNat_inj, counterAfter_toNat hg (by omega), h]
    rfl
  rw [idAfter, idAfter, counterAfter_succ, hn]
  exact ⟨hg.wrap, hg.again⟩

theorem one_le_idAfter (hc : c ≠ 0) (n : Nat) :
    1 ≤ (idAfter gen c n).toNat ∧ (idAfter gen c n).toNat ≤ 65535 := by
  have hn := counterAfter_ne_zero hg hc n
  have hlt := (idAfter gen c n).toNat_lt
  refine ⟨?_, by omega⟩
  by_cases hm : counterAfter gen c n = coapMaxMessageId
  · rw [idAfter, hm, hg.wrap]
    decide
  · rw [idAfter, hg.count _ hm]
    exact Nat.pos_of_ne_zero fun h0 => hn (UInt16.toNat_inj.mp h0)

theorem idsFresh_iff (hc : c ≠ 0) (k : Nat) : IdsFresh gen c k ↔ c.toNat + k ≤ 65536 := by
  have hpos : c.toNat ≠ 0 := fun h0 => hc (UInt16.toNat_inj.mp h0)
  have hlt := c.toNat_lt
  constructor
  · intro h
    refine Nat.le_of_not_lt fun hk => ?_
    obtain ⟨h1, h2⟩ := idAfter_wrap hg (c := c) (n := 65535 - c.toNat) (by omega)
    exact h.2 _ (65535 - c.toNat + 1) (by omega) (by omega) (by omega) (h1.trans h2.symm)
  · intro hk
    refine ⟨fun i _ => one_le_idAfter hg hc i, fun i j hij hj hd heq => ?_⟩
    have hi := idAfter_toNat hg (c := c) (n := i) (by omega)
    rw [heq] at hi
    -- Only the last call can be the one that wraps.
    by_cases hw : c.toNat + j = 65535
    · rw [(idAfter_wrap hg hw).1] at hi
      have : (1 : UInt16).toNat = 1 := rfl
      omega
    · rw [idAfter_toNat hg (by omega)] at hi
      omega

end

/-- From every counter a generator reaches, its next `k` identifiers are in
range, and they are fresh exactly as long as the counter does not wrap twice. -/
theorem messageIds_fresh_iff (n k : Nat) :
    (IdsFresh coapMessageIdGen (counterAfter coapMessageIdGen messageIdInit n) k ↔
      (counterAfter coapMessageIdGen messageIdInit n).toNat + k ≤ 65536) ∧
    (IdsFresh cloudCoapMessageIdGen (counterAfter cloudCoapMessageIdGen messageIdInit n) k ↔
      (counterAfter cloudCoapMessageIdGen messageIdInit n).toNat + k ≤ 65536) :=
  ⟨idsFresh_iff coapMessageIdGen_wrapping
      (counterAfter_ne_zero coapMessageIdGen_wrapping (by decide) n) k,
    idsFresh_iff cloudCoapMessageIdGen_wrapping
      (counterAfter_ne_zero cloudCoapMessageIdGen_wrapping (by decide) n) k⟩

/-- Calls 65534 and 65535 of either generator, counted from `0`, both return `1`. -/
theorem messageIds_repeat :
    (idAfter coapMessageIdGen messageIdInit 65534 = 1 ∧
      idAfter coapMessageIdGen messageIdInit 65535 = 1) ∧
    (idAfter cloudCoapMessageIdGen messageIdInit 65534 = 1 ∧
      idAfter cloudCoapMessageIdGen messageIdInit 65535 = 1) ∧
    ¬ IdsFresh coapMessageIdGen messageIdInit 65536 ∧
    ¬ IdsFresh cloudCoapMessageIdGen messageIdInit 65536 := by
  have hs := idAfter_wrap coapMessageIdGen_wrapping (c := messageIdInit) (n := 65534) rfl
  have hc := idAfter_wrap cloudCoapMessageIdGen_wrapping (c := messageIdInit) (n := 65534) rfl
  refine ⟨hs, hc, fun h => ?_, fun h => ?_⟩
  · exact h.2 65534 65535 (by omega) (by omega) (by omega) (hs.1.trans hs.2.symm)
  · exact h.2 65534 65535 (by omega) (by omega) (by omega) (hc.1.trans hc.2.symm)

end AliyunIot.Coap
