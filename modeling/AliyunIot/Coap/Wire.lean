import AliyunIot.Coap.Serialize
import AliyunIot.Coap.Confined

/-!
# Decoding what the serializer writes

The bytes of one option, of the option list and of a complete datagram, read
back by the deserializer (`decode_wire`), and what an accepted datagram says
about its own length (`message_total`).
-/

namespace AliyunIot.Coap

open Lib

/-! ## Decoding what an option stores -/

theorem highByte_toNat (d : UInt16) : ((d &&& 0xFF00) >>> 8).toUInt8.toNat = d.toNat / 256 := by
  have hlt := d.toNat_lt
  rw [UInt16.toNat_toUInt8, UInt16.toNat_shiftRight, UInt16.toNat_and]
  rw [Nat.shiftRight_and_distrib]
  show (d.toNat >>> 8 &&& 2 ^ 8 - 1) % 2 ^ 8 = _
  rw [Nat.and_two_pow_sub_one_eq_mod, Nat.shiftRight_eq_div_pow]
  omega

theorem lowByte_toNat (d : UInt16) : (d &&& 0x00FF).toUInt8.toNat = d.toNat % 256 := by
  rw [UInt16.toNat_toUInt8, UInt16.toNat_and]
  show (d.toNat &&& 2 ^ 8 - 1) % 2 ^ 8 = _
  rw [Nat.and_two_pow_sub_one_eq_mod, Nat.mod_mod]

theorem bytes_join (d : UInt16) :
    (((d &&& 0xFF00) >>> 8).toUInt8.toUInt16 <<< 8) + (d &&& 0x00FF).toUInt8.toUInt16 = d := by
  have hlt := d.toNat_lt
  rw [← UInt16.toNat_inj, UInt16.toNat_add, UInt16.toNat_shiftLeft, UInt8.toNat_toUInt16,
    UInt8.toNat_toUInt16, highByte_toNat, lowByte_toNat]
  show ((d.toNat / 256) <<< 8 % 2 ^ 16 + _) % 2 ^ 16 = _
  rw [Nat.shiftLeft_eq]
  omega

theorem nibbles_split : ∀ a b : Fin 16,
    (((UInt8.ofNat a <<< 4) ||| (UInt8.ofNat b &&& 0x0F)) &&& 0xF0) >>> 4 = UInt8.ofNat a ∧
    ((UInt8.ofNat a <<< 4) ||| (UInt8.ofNat b &&& 0x0F)) &&& 0x0F = UInt8.ofNat b ∧
    (a ≠ 15 → ((UInt8.ofNat a <<< 4) ||| (UInt8.ofNat b &&& 0x0F)) ≠ 0xFF) := by decide

theorem optNibble_lt (n : UInt16) : (optNibble n).toNat < 15 := by
  unfold optNibble
  split
  · decide
  · split
    · decide
    · next h =>
      have hn : n.toNat < 13 := Nat.lt_of_not_le fun h13 => h (UInt16.le_iff_toNat_le.mpr h13)
      rw [UInt16.toNat_toUInt8]
      omega

theorem firstByte_split (num len : UInt16) :
    (((optNibble num <<< 4) ||| (optNibble len &&& 0x0F)) &&& 0xF0) >>> 4 = optNibble num ∧
    ((optNibble num <<< 4) ||| (optNibble len &&& 0x0F)) &&& 0x0F = optNibble len ∧
    ((optNibble num <<< 4) ||| (optNibble len &&& 0x0F)) ≠ 0xFF := by
  have hn := optNibble_lt num
  have hl := optNibble_lt len
  obtain ⟨h1, h2, h3⟩ := nibbles_split ⟨(optNibble num).toNat, by omega⟩
    ⟨(optNibble len).toNat, by omega⟩
  simp only [UInt8.ofNat_toNat] at h1 h2 h3
  exact ⟨h1, h2, h3 fun h15 => by have := congrArg Fin.val h15; simp at this; omega⟩

variable {rest : List UInt8}

theorem extension_optExt (n : UInt16) (h : rest ≠ []) :
    extension (optNibble n) (optExt n ++ rest) = .ext n (optExt n).length := by
  obtain ⟨b, rest, rfl⟩ := List.exists_cons_of_ne_nil h
  have hlt := n.toNat_lt
  unfold extension optNibble optExt
  by_cases h269 : 269 ≤ n
  · simp only [if_pos h269, List.cons_append, List.nil_append]
    rw [if_neg (by decide), if_pos trivial, UInt16.add_assoc, bytes_join]
    rw [UInt16.add_comm, UInt16.sub_add_cancel]
    rfl
  · by_cases h13 : 13 ≤ n
    · simp only [if_neg h269, if_pos h13, List.cons_append, List.nil_append]
      rw [if_pos trivial]
      have hn : n.toNat < 269 := Nat.lt_of_not_le fun h0 => h269 (UInt16.le_iff_toNat_le.mpr h0)
      have hsub : (n - 13).toNat = n.toNat - 13 := UInt16.toNat_sub_of_le _ _ h13
      have hge : 13 ≤ n.toNat := UInt16.le_iff_toNat_le.mp h13
      have hb : (13 : UInt16) + (n - 13).toUInt8.toUInt16 = n := by
        rw [← UInt16.toNat_inj, UInt16.toNat_add, UInt8.toNat_toUInt16, UInt16.toNat_toUInt8, hsub]
        rw [show (13 : UInt16).toNat = 13 from rfl]
        omega
      rw [hb]
      rfl
    · have hn : n.toNat < 13 := Nat.lt_of_not_le fun h0 => h13 (UInt16.le_iff_toNat_le.mpr h0)
      have h8 : n.toUInt8.toNat = n.toNat := by
        rw [UInt16.toNat_toUInt8]
        omega
      have hne13 : n.toUInt8 ≠ 13 := by
        rw [← UInt8.toNat_inj.ne, h8]
        exact Nat.ne_of_lt hn
      have hne14 : n.toUInt8 ≠ 14 := by
        rw [← UInt8.toNat_inj.ne, h8]
        exact Nat.ne_of_lt (Nat.lt_succ_of_lt hn)
      simp only [if_neg h269, if_neg h13, if_neg hne13, if_neg hne14]
      congr 1
      rw [← UInt16.toNat_inj, UInt8.toNat_toUInt16, h8]

theorem extension_optExt_nil (n : UInt16) (h : optExt n ≠ []) :
    extension (optNibble n) (optExt n) = .short := by
  unfold optExt at h
  unfold extension optNibble optExt
  by_cases h269 : 269 ≤ n
  · simp only [if_pos h269]
    rfl
  · by_cases h13 : 13 ≤ n
    · simp only [if_neg h269, if_pos h13]
      rfl
    · rw [if_neg h269, if_neg h13] at h
      exact absurd rfl h

def OutOption.head (o : OutOption) : Nat := 1 + (optExt o.num).length + (optExt o.len).length

theorem OutOption.length_eq (o : OutOption) : o.length = o.head + o.len.toNat := rfl

theorem optHead_bytes {o : OutOption} (h : o.val.getD [] ++ rest ≠ []) :
    optHead (o.bytes ++ rest) = .value o.num o.head o.len := by
  obtain ⟨h1, h2, -⟩ := firstByte_split o.num o.len
  have hlen : optExt o.len ++ (o.val.getD [] ++ rest) ≠ [] := by
    intro h0
    exact h (List.append_eq_nil_iff.mp h0).2
  have hnum : optExt o.num ++ (optExt o.len ++ (o.val.getD [] ++ rest)) ≠ [] := by
    intro h0
    exact hlen (List.append_eq_nil_iff.mp h0).2
  unfold OutOption.bytes optHeadBytes
  rw [List.cons_append, List.cons_append, List.append_assoc, List.append_assoc, optHead,
    if_neg hnum, h1, h2, extension_optExt _ hlen]
  simp only [List.drop_left]
  rw [extension_optExt _ h]
  rfl

theorem optHead_bytes_nil {o : OutOption} (hl : o.len = 0) (h : o.val.getD [] = []) :
    optHead o.bytes = .short := by
  obtain ⟨h1, -, -⟩ := firstByte_split o.num o.len
  unfold OutOption.bytes optHeadBytes
  rw [h, hl, List.append_nil, show optExt 0 = [] from rfl, List.append_nil, optHead]
  by_cases hn : optExt o.num = []
  · rw [if_pos hn]
  · rw [if_neg hn, ← hl, h1, extension_optExt_nil _ hn]

/-- The options as they are decoded from `ptr` on behind the number `pre`. -/
def decodedOptions : Nat → UInt16 → List OutOption → List CoapMsgOption
  | _, _, [] => []
  | ptr, pre, o :: os =>
    ⟨pre + o.num, o.len, ptr + o.head⟩ :: decodedOptions (ptr + o.length) (pre + o.num) os

/-- The last option is not an empty one at the very end. -/
def EndsInValue (os : List OutOption) (rest : List UInt8) : Prop :=
  rest ≠ [] ∨ ∀ o ∈ os.getLast?, o.len ≠ 0

/-- What is behind the options is nothing or a payload marker. -/
def AtMarker : List UInt8 → Prop
  | [] => True
  | b :: _ => b = 0xFF

theorem length_value {o : OutOption} (h : o.Readable) : (o.val.getD []).length = o.len.toNat := by
  cases hv : o.val with
  | some bs => exact o.held bs hv
  | none =>
    rw [h hv]
    rfl

theorem bytes_ne_nil (o : OutOption) : o.bytes ≠ [] := List.cons_ne_nil _ _

variable {m : Mem}

variable {ptr : Nat}

theorem options_stop (hm : AtMarker rest) (h : Holds m ptr rest) (slots : Nat) (pre : UInt16) :
    Probe.value m (coapDeserializeOptions slots ptr rest.length pre) = ([], some ptr) := by
  cases rest with
  | nil =>
    rw [List.length_nil, Int.natCast_zero, coapDeserializeOptions_of_nonpos _ _ _ (Int.le_refl 0)]
    rfl
  | cons b rest =>
    have hl : ((b :: rest).length : Int) > 0 := by
      rw [List.length_cons]
      omega
    have hff : ¬ Probe.value m (Probe.load ptr) ≠ 0xFF :=
      not_not_intro ((holds_cons.mp h).1.trans hm)
    cases slots with
    | zero => rw [coapDeserializeOptions, if_pos hl]; rfl
    | succ slots =>
      rw [coapDeserializeOptions, if_pos hl, Probe.value_bind, if_neg hff]
      rfl

theorem options_decode_cons {o : OutOption} (hr : o.Readable) (slots : Nat)
    {tail : List UInt8} (h : Holds m ptr (o.bytes ++ tail)) (pre : UInt16) :
    let run := Probe.value m (coapDeserializeOptions (slots + 1) ptr (o.bytes ++ tail).length pre)
    (o.val.getD [] ++ tail = [] → run.2 = none) ∧
    (o.val.getD [] ++ tail ≠ [] →
      run =
        let next := Probe.value m
          (coapDeserializeOptions slots (ptr + o.length) tail.length (pre + o.num))
        (⟨pre + o.num, o.len, ptr + o.head⟩ :: next.1, next.2)) := by
  have hne : o.bytes ++ tail ≠ [] := List.append_ne_nil_of_left_ne_nil (bytes_ne_nil o) _
  have hl : ((o.bytes ++ tail).length : Int) > 0 := by
    have := List.length_pos_iff.mpr hne
    omega
  have hff : Probe.value m (Probe.load ptr) ≠ 0xFF := by
    have := (holds_cons.mp h).1
    rw [Probe.value_load, this]
    exact (firstByte_split o.num o.len).2.2
  have hrun := coapDeserializeOption_spec h hne pre
  rw [coapDeserializeOptions, if_pos hl, Probe.value_bind, if_pos hff, Probe.value_bind]
  constructor
  · intro hnil
    obtain ⟨hv, rfl⟩ := List.append_eq_nil_iff.mp hnil
    have hlen : o.len = 0 := by
      have := length_value hr
      rw [hv] at this
      exact UInt16.toNat_inj.mp this.symm
    rw [List.append_nil] at hrun ⊢
    rw [optHead_bytes_nil hlen hv] at hrun
    rcases hrun with ⟨hc, -⟩ | ⟨-, hnone, -⟩ | ⟨_, _, _, hc, -⟩
    · cases hc
    · rw [hnone]
      rfl
    · cases hc
  · intro hsome
    rw [optHead_bytes hsome] at hrun
    rcases hrun with ⟨hc, -⟩ | ⟨hc, -⟩ | ⟨delta, head, len, hc, -, -, hv, -⟩
    · cases hc
    · cases hc
    · cases hc
      have hleft : ((o.bytes ++ tail).length : Int) - (o.head + o.len.toNat : Nat) =
          tail.length := by
        rw [List.length_append, hr.length_bytes, o.length_eq]
        omega
      rw [hv]
      simp only [Probe.value_bind, Probe.value_pure, hleft, o.length_eq]

theorem options_decode {os : List OutOption} (hr : ∀ o ∈ os, o.Readable)
    {slots : Nat} (hs : os.length ≤ slots) (hm : AtMarker rest)
    (h : Holds m ptr (os.flatMap OutOption.bytes ++ rest)) (pre : UInt16) :
    (EndsInValue os rest →
      Probe.value m (coapDeserializeOptions slots ptr
          (os.flatMap OutOption.bytes ++ rest).length pre) =
        (decodedOptions ptr pre os, some (ptr + optionsLength os))) ∧
    (¬ EndsInValue os rest →
      (Probe.value m (coapDeserializeOptions slots ptr
          (os.flatMap OutOption.bytes ++ rest).length pre)).2 = none) := by
  induction os generalizing slots ptr pre with
  | nil =>
    refine ⟨fun _ => options_stop hm h slots pre, fun hend => absurd ?_ hend⟩
    exact .inr fun o ho => by cases ho
  | cons o os ih =>
    obtain ⟨slots, rfl⟩ : ∃ k, slots = k + 1 :=
      ⟨slots - 1, by rw [List.length_cons] at hs; omega⟩
    have ho := hr o List.mem_cons_self
    rw [List.flatMap_cons, List.append_assoc] at h ⊢
    have htail := (holds_append.mp h).2
    rw [ho.length_bytes] at htail
    obtain ⟨hnone, hsome⟩ := options_decode_cons ho slots h pre
    obtain ⟨ih1, ih2⟩ := ih (fun x hx => hr x (List.mem_cons_of_mem _ hx))
      (Nat.le_of_succ_le_succ hs) htail (pre + o.num)
    by_cases hnil : o.val.getD [] ++ (os.flatMap OutOption.bytes ++ rest) = []
    · -- An empty option with nothing behind it.
      refine ⟨fun hend => absurd hend ?_, fun _ => hnone hnil⟩
      obtain ⟨hv, htl⟩ := List.append_eq_nil_iff.mp hnil
      obtain ⟨hos, rfl⟩ := List.append_eq_nil_iff.mp htl
      have hlen : o.len = 0 := by
        have := length_value ho
        rw [hv] at this
        exact UInt16.toNat_inj.mp this.symm
      obtain rfl : os = [] := by
        cases os with
        | nil => rfl
        | cons x os => exact absurd (List.append_eq_nil_iff.mp hos).1 (bytes_ne_nil x)
      rintro (h0 | h0)
      · exact h0 rfl
      · exact h0 o rfl hlen
    · have hends : EndsInValue (o :: os) rest ↔ EndsInValue os rest := by
        cases os with
        | nil =>
          refine iff_of_true ?_ (.inr fun o ho => by cases ho)
          by_cases hrest : rest = []
          · refine .inr fun x hx hlen => hnil ?_
            obtain rfl : o = x := by simpa using hx
            have := length_value ho
            rw [hlen] at this
            rw [List.length_eq_zero_iff.mp this, hrest]
            rfl
          · exact .inl hrest
        | cons x os => unfold EndsInValue; rw [List.getLast?_cons_cons]
      have hrun := hsome hnil
      rw [hends]
      refine ⟨fun hend => ?_, fun hend => ?_⟩
      · rw [hrun, ih1 hend, optionsLength_cons, Nat.add_assoc]
        rfl
      · rw [hrun]
        exact ih2 hend

/-! ## Decoding a complete datagram -/

theorem headerByte_split : ∀ (v t : Fin 4) (n : Fin 16),
    let b := (((UInt8.ofNat v &&& 0x3) <<< 6) ||| ((UInt8.ofNat t &&& 0x3) <<< 4)) |||
      (UInt8.ofNat n &&& 0x0F)
    (b >>> 6) &&& 0x03 = UInt8.ofNat v ∧ (b >>> 4) &&& 0x03 = UInt8.ofNat t ∧
      b &&& 0x0F = UInt8.ofNat n := by decide

section
variable {m : Mem} {msg : OutMessage}

theorem headerAt_wire (h : Holds m 0 (coapSerializeHeader msg 4)) : headerAt m = msg.header := by
  have hv := UInt8.lt_iff_toNat_lt.mp msg.version_lt
  have ht := UInt8.lt_iff_toNat_lt.mp msg.type_lt
  have hn : msg.header.tokenlen.toNat < 16 := by
    have := msg.tokenlen_le
    rw [msg.tokenlen_eq] at this
    exact Nat.lt_of_le_of_lt this (by decide)
  obtain ⟨h1, h2, h3⟩ := headerByte_split ⟨_, hv⟩ ⟨_, ht⟩ ⟨_, hn⟩
  simp only [UInt8.ofNat_toNat] at h1 h2 h3
  have h0 : coapSerializeHeader msg 4 = _ := if_neg (by decide)
  rw [h0] at h
  simp only [holds_cons] at h
  obtain ⟨hb0, hb1, hb2, hb3, -⟩ := h
  show CoapMsgHeader.mk ((m 0 >>> 6) &&& 0x03) ((m 0 >>> 4) &&& 0x03) (m 0 &&& 0x0F) (m 1)
    (((m 2).toUInt16 <<< 8) + (m 3).toUInt16) = msg.header
  rw [hb0, hb1, hb2, hb3, h1, h2, h3, bytes_join]

theorem value_loadBytes (m : Mem) (buf n : Nat) :
    Probe.value m (loadBytes buf n) = slice m buf n := by
  induction n generalizing buf with
  | zero => rfl
  | succ n ih => rw [loadBytes, Probe.value_bind, Probe.value_bind, ih, slice_succ]; rfl

def payloadWire (msg : OutMessage) : List UInt8 :=
  if msg.payload.1 = [] then [] else 0xFF :: msg.payload.1

theorem atMarker_payloadWire (msg : OutMessage) : AtMarker (payloadWire msg) := by
  unfold payloadWire
  split <;> trivial

def optionsEnd (msg : OutMessage) : Nat := 4 + msg.token.length + optionsLength msg.options

theorem wireLength_eq (msg : OutMessage) :
    wireLength msg = optionsEnd msg + (payloadWire msg).length := by
  unfold wireLength optionsEnd payloadWire
  split <;> rfl

variable (hr : msg.Readable) (h : Holds m 0 (wire msg))
include hr h

theorem holds_wire : headerAt m = msg.header ∧ Holds m 4 msg.token ∧
    Holds m (4 + msg.token.length) (msg.options.flatMap OutOption.bytes ++ payloadWire msg) ∧
    Holds m (optionsEnd msg) (payloadWire msg) := by
  unfold wire at h
  rw [List.append_assoc, List.append_assoc, holds_append, holds_append, Nat.zero_add] at h
  obtain ⟨h1, h2, h3⟩ := h
  refine ⟨headerAt_wire h1, h2, h3, ?_⟩
  have h4 := (holds_append.mp h3).2
  rwa [length_flatMap_bytes hr] at h4

/-- The decoded message when the last option is accepted, as far as the payload. -/
def decodedWire (msg : OutMessage) : CoapMessage :=
  { header := some msg.header, token := msg.token,
    options := decodedOptions (4 + msg.token.length) 0 msg.options }

theorem message_run_wire :
    Probe.value m (coapDeserializeMessage (wireLength msg)) =
      Probe.value m (coapDeserializeEnd (decodedHead m (wireLength msg)) (4 + msg.token.length)
        ((wireLength msg : Int) - 4 - msg.token.length)
        (Probe.value m (optionsRun m (wireLength msg))).2) ∧
    (decodedHead m (wireLength msg)).header = some msg.header ∧
    (decodedHead m (wireLength msg)).token = msg.token ∧
    optionsRun m (wireLength msg) = coapDeserializeOptions coapMsgMaxOptionNum
      (4 + msg.token.length) (msg.options.flatMap OutOption.bytes ++ payloadWire msg).length 0 := by
  obtain ⟨hhead, htok, -, -⟩ := holds_wire hr h
  have hlen := wireLength_eq msg
  have htl := msg.tokenlen_eq
  unfold optionsEnd at hlen
  have hfit : 4 + (headerAt m).tokenlen.toNat ≤ wireLength msg := by
    rw [hhead]
    omega
  obtain ⟨hv, -⟩ := message_run (by omega) hfit
  rw [hhead, ← htl] at hv
  refine ⟨hv, by rw [← hhead]; rfl, ?_, ?_⟩
  · have hle : ¬ msg.header.tokenlen.toNat > coapMsgMaxTokenLen := by
      rw [← htl]
      exact Nat.not_lt_of_le msg.tokenlen_le
    show Probe.value m (coapDeserializeToken (headerAt m).tokenlen.toNat 4) = _
    rw [hhead, coapDeserializeToken, if_neg hle, value_loadBytes, ← htl, slice_of_holds htok]
  · unfold optionsRun
    rw [hhead, ← htl]
    congr 1
    rw [List.length_append, length_flatMap_bytes hr]
    omega

theorem decode_wire_short (hend : ¬ EndsInValue msg.options (payloadWire msg)) :
    (Probe.value m (coapDeserializeMessage (wireLength msg))).1 = coapErrorInvalidLength := by
  obtain ⟨hv, -, -, hopt⟩ := message_run_wire hr h
  have hrun := (options_decode hr msg.optcount_le (atMarker_payloadWire msg)
    (holds_wire hr h).2.2.1 0).2 hend
  rw [hv, hopt, hrun]
  rfl

theorem decode_wire (hend : EndsInValue msg.options (payloadWire msg)) :
    Probe.value m (coapDeserializeMessage (wireLength msg)) = (coapSuccess,
      if m (optionsEnd msg) = 0xFF then
        { decodedWire msg with
          payloadlen := some (UInt16.ofInt (((payloadWire msg).length : Int) - 1))
          payload := some (optionsEnd msg + 1) }
      else decodedWire msg) := by
  obtain ⟨hv, hhead, htok, hopt⟩ := message_run_wire hr h
  have hrun := (options_decode hr msg.optcount_le (atMarker_payloadWire msg)
    (holds_wire hr h).2.2.1 0).1 hend
  rw [← hopt] at hrun
  have hlen := wireLength_eq msg
  have hdec : decodedHead m (wireLength msg) = decodedWire msg := by
    have hopts : (decodedHead m (wireLength msg)).options =
        decodedOptions (4 + msg.token.length) 0 msg.options := by
      show (Probe.value m (optionsRun m (wireLength msg))).1 = _
      rw [hrun]
    rw [decodedWire, ← hopts, ← hhead, ← htok]
    rfl
  rw [hv, hrun, hdec]
  have hin : ¬ ((4 + msg.token.length + optionsLength msg.options - (4 + msg.token.length) : Nat) :
      Int) > (wireLength msg : Int) - 4 - msg.token.length := by
    unfold optionsEnd at hlen
    omega
  obtain ⟨-, hff, hno⟩ := @end_of_le m (decodedWire msg) _ _ _ hin
  by_cases hm : m (optionsEnd msg) = 0xFF
  · have hpay : (wireLength msg : Int) - 4 - msg.token.length -
        ((4 + msg.token.length + optionsLength msg.options - (4 + msg.token.length) : Nat) : Int) -
          1 = ((payloadWire msg).length : Int) - 1 := by
      unfold optionsEnd at hlen
      omega
    rw [if_pos hm, hff hm, hpay]
    rfl
  · rw [if_neg hm, hno hm]
    rfl

end

/-! ## A decoded message is no longer than its datagram -/

def valueBytes (os : List CoapMsgOption) : Nat := (os.map fun o => o.len.toNat).sum

theorem coapDeserializeOption_len {buf : Nat} {left : Int} {pre : UInt16}
    {r : CoapMsgOption × Nat} (h : Probe.value m (coapDeserializeOption buf left pre) = some r) :
    r.1.len.toNat ≤ r.2 := by
  rw [coapDeserializeOption, Probe.value_bind] at h
  cases hc : coapOptCheck buf left 1 with
  | none =>
    rw [hc] at h
    cases h
  | some a =>
    rw [hc, Probe.value_bind] at h
    split at h
    · cases h
    · rw [Probe.value_bind] at h
      split at h
      · cases h
      · cases h
        exact Nat.le_add_left _ _

theorem options_total (m : Mem) (slots ptr : Nat) (left : Int) (pre : UInt16) {last : Nat}
    (h : (Probe.value m (coapDeserializeOptions slots ptr left pre)).2 = some last) :
    ptr + valueBytes (Probe.value m (coapDeserializeOptions slots ptr left pre)).1 ≤ last := by
  induction slots generalizing ptr left pre with
  | zero =>
    rw [coapDeserializeOptions] at h ⊢
    by_cases hl : left > 0
    · rw [if_pos hl] at h ⊢
      cases h
      exact Nat.le_refl _
    · rw [if_neg hl] at h ⊢
      cases h
      exact Nat.le_refl _
  | succ slots ih =>
    rw [coapDeserializeOptions] at h ⊢
    by_cases hl : left > 0
    · rw [if_pos hl, Probe.value_bind] at h ⊢
      by_cases hff : Probe.value m (Probe.load ptr) ≠ 0xFF
      · rw [if_pos hff, Probe.value_bind] at h ⊢
        cases ho : Probe.value m (coapDeserializeOption ptr left pre) with
        | none =>
          rw [ho] at h
          cases h
        | some r =>
          rw [ho] at h
          simp only [Probe.value_bind, Probe.value_pure] at h ⊢
          have hlen := coapDeserializeOption_len ho
          have := ih _ _ _ h
          simp only [valueBytes, List.map_cons, List.sum_cons] at this ⊢
          omega
      · rw [if_neg hff] at h ⊢
        cases h
        exact Nat.le_refl _
    · rw [if_neg hl] at h ⊢
      cases h
      exact Nat.le_refl _

theorem message_total {n : Int} {msg : CoapMessage}
    (h : Probe.value m (coapDeserializeMessage n) = (coapSuccess, msg)) :
    (valueBytes msg.options : Int) ≤ n := by
  have hfail : ∀ {r : Int × CoapMessage}, r.1 = coapErrorInvalidLength → r ≠ (coapSuccess, msg) :=
    fun h1 h2 => error_ne_success (h1.symm.trans (congrArg Prod.fst h2))
  by_cases h4 : n < 4
  · rw [coapDeserializeMessage, if_pos h4] at h
    exact absurd h (hfail rfl)
  obtain ⟨n, rfl⟩ : ∃ k : Nat, n = k := ⟨n.toNat, by omega⟩
  by_cases htok : n < 4 + (headerAt m).tokenlen.toNat
  · rw [(message_of_token_cut (by omega) htok).1] at h
    exact absurd h (hfail rfl)
  obtain ⟨hv, -⟩ := message_run (by omega) (Nat.le_of_not_lt htok)
  rw [hv] at h
  cases hlast : (Probe.value m (optionsRun m n)).2 with
  | none =>
    rw [hlast] at h
    exact absurd h (hfail rfl)
  | some last =>
    rw [hlast] at h
    have htotal := options_total m _ _ _ _ hlast
    by_cases hover : ((last - (4 + (headerAt m).tokenlen.toNat) : Nat) : Int) >
        (n : Int) - 4 - (headerAt m).tokenlen.toNat
    · rw [end_of_over hover] at h
      exact absurd h (hfail rfl)
    · have hopts : msg.options = (Probe.value m (optionsRun m n)).1 := by
        obtain ⟨-, hff, hno⟩ := @end_of_le m (decodedHead m n) _ _ _ hover
        by_cases hb : m last = 0xFF
        · rw [hff hb] at h
          rw [← (Prod.mk.inj h).2]
          rfl
        · rw [hno hb] at h
          rw [← (Prod.mk.inj h).2]
          rfl
      rw [hopts]
      unfold optionsRun at htotal ⊢
      omega

end AliyunIot.Coap
