import AliyunIot.Coap.Build
import AliyunIot.Coap.Wire

/-!
# Encoding and decoding a built message

A built message is written by `CoAPSerialize_Message` over a buffer whose old
contents are `behind`, and the bytes written are decoded. `roundTrip_iff` says
when everything comes back.
-/

namespace AliyunIot.Coap

open Lib

def CoapMessage.payloadBytes (msg : CoapMessage) (buf : Mem) : List UInt8 :=
  match msg.payload, msg.payloadlen with
  | some p, some len => slice buf p len.toNat
  | _, _ => []

/-- The decoded message is the built one: header and token, the options by number
and value, and the payload, which lies inside the `n` bytes. -/
structure Returns (buf : Mem) (n : Int) (ops : List BuildOp) (msg : CoapMessage) : Prop where
  header : msg.header = some (built ops).header
  token : msg.token = (built ops).token
  options : msg.options.map (fun o => (o.num, slice buf o.val o.len.toNat)) = optionsAdded ops
  payload : msg.payloadBytes buf = (built ops).payload.1
  inside : ∀ p ∈ msg.payload, ∀ len ∈ msg.payloadlen, ((p + len.toNat : Nat) : Int) ≤ n

/-- What the serializer writes over `behind` is decoded to what was built. -/
def RoundTrip (ops : List BuildOp) (behind : Mem) (buflen : UInt16) : Prop :=
  ∃ n img msg, coapSerializeMessage (built ops) buflen = some (n, img) ∧
    Probe.value (overlay img behind) (coapDeserializeMessage n) = (coapSuccess, msg) ∧
    Returns (overlay img behind) n ops msg

/-! ## Numbers and values -/

theorem toUInt8_toUInt16_iff (n : UInt16) : n.toUInt8.toUInt16 = n ↔ n ≤ 255 := by
  have hlt := n.toNat_lt
  rw [← UInt16.toNat_inj, UInt8.toNat_toUInt16, UInt16.toNat_toUInt8, UInt16.le_iff_toNat_le]
  show n.toNat % 256 = n.toNat ↔ n.toNat ≤ 255
  omega

theorem add_sub_eq_iff (a b n : UInt16) : a + (n - b) = n ↔ a = b := by
  have hb : b + (n - b) = n := by rw [UInt16.add_comm, UInt16.sub_add_cancel]
  constructor
  · intro h
    exact (UInt16.add_left_inj (n - b)).mp (h.trans hb.symm)
  · rintro rfl
    exact hb

theorem value_decoded {m : Mem} {o : OutOption} (hr : o.Readable) {ptr : Nat}
    {tail : List UInt8} (h : Holds m ptr (o.bytes ++ tail)) :
    slice m (ptr + o.head) o.len.toNat = o.val.getD [] := by
  unfold OutOption.bytes at h
  rw [List.append_assoc, holds_append, holds_append] at h
  have hhead : (optHeadBytes o.num o.len).length = o.head := by
    unfold optHeadBytes OutOption.head
    rw [List.length_cons, List.length_append]
    omega
  rw [← length_value hr, ← hhead]
  exact slice_of_holds h.2.1

theorem decodedOptions_eq_iff {m : Mem} {os : List OutOption} (hr : ∀ o ∈ os, o.Readable)
    {d : UInt8} {added : List (UInt16 × List UInt8)} (hc : Carries d os added) {ptr : Nat}
    {tail : List UInt8} (h : Holds m ptr (os.flatMap OutOption.bytes ++ tail)) :
    (decodedOptions ptr d.toUInt16 os).map (fun o => (o.num, slice m o.val o.len.toNat)) = added ↔
      ∀ n ∈ (added.map Prod.fst).dropLast, n ≤ 255 := by
  induction os generalizing d added ptr with
  | nil =>
    cases added with
    | nil => exact iff_of_true rfl fun n hn => by cases hn
    | cons a added => exact hc.elim
  | cons o os ih =>
    obtain _ | ⟨⟨n, v⟩, added⟩ := added
    · exact hc.elim
    obtain ⟨hnum, -, hval, hc⟩ := hc
    have ho := hr o List.mem_cons_self
    rw [List.flatMap_cons, List.append_assoc] at h
    have htail := (holds_append.mp h).2
    rw [ho.length_bytes] at htail
    have hn : d.toUInt16 + o.num = n := by
      rw [hnum]
      exact (add_sub_eq_iff _ _ _).mpr rfl
    rw [decodedOptions, List.map_cons, hn, value_decoded ho h, hval ho, List.cons_inj_right]
    by_cases h255 : n ≤ 255
    · -- The number survives in the byte it is kept in.
      have hih := ih (fun x hx => hr x (List.mem_cons_of_mem _ hx)) hc htail
      rw [(toUInt8_toUInt16_iff n).mpr h255] at hih
      rw [hih]
      cases added with
      | nil => exact Iff.rfl
      | cons a added =>
        rw [List.map_cons, List.map_cons, List.map_cons, List.dropLast_cons_cons,
          List.forall_mem_cons]
        exact (and_iff_right h255).symm
    · obtain _ | ⟨⟨n', v'⟩, added⟩ := added
      · cases os with
        | nil => exact iff_of_true rfl fun n hn => by cases hn
        | cons o' os => exact hc.elim
      · cases os with
        | nil => exact hc.elim
        | cons o' os =>
          refine iff_of_false (fun heq => h255 ?_) fun hall => h255 ?_
          · rw [decodedOptions, List.map_cons, List.cons.injEq, Prod.mk.injEq, hc.1] at heq
            exact (toUInt8_toUInt16_iff n).mp ((add_sub_eq_iff _ _ _).mp heq.1.1).symm
          · exact hall n List.mem_cons_self

/-! ## The round trip -/

/-- What a built message needs to come back: it fits a datagram, only the last
option number is above 255, every number was stored, and the bytes do not end in
an empty option or before a stray marker. -/
structure ComesBack (ops : List BuildOp) (behind : Mem) : Prop where
  fits : wireLength (built ops) ≤ coapMsgMaxPduLen
  numbers : ∀ n ∈ ((optionsAdded ops).map Prod.fst).dropLast, n ≤ 255
  stored : ∀ op ∈ ops, op.Stored
  ends : (built ops).payload.1 ≠ [] ∨
    (∀ a ∈ (optionsAdded ops).getLast?, a.2 ≠ []) ∧ behind (wireLength (built ops)) ≠ 0xFF

theorem Carries.last_iff {d : UInt8} {os : List OutOption} {added : List (UInt16 × List UInt8)}
    (h : Carries d os added) : (∀ o ∈ os.getLast?, o.len ≠ 0) ↔ ∀ a ∈ added.getLast?, a.2 ≠ [] := by
  induction os generalizing d added with
  | nil =>
    cases added with
    | nil => exact iff_of_true (fun o ho => by cases ho) fun a ha => by cases ha
    | cons a added => exact h.elim
  | cons o os ih =>
    obtain _ | ⟨⟨n, v⟩, added⟩ := added
    · exact h.elim
    obtain ⟨-, hlen, -, hc⟩ := h
    cases os with
    | nil =>
      cases added with
      | nil =>
        simp only [List.getLast?_singleton, Option.mem_some_iff, forall_eq', ne_eq,
          ← UInt16.toNat_inj, hlen]
        exact not_congr List.length_eq_zero_iff
      | cons a added => exact hc.elim
    | cons o' os =>
      cases added with
      | nil => exact hc.elim
      | cons a added =>
        rw [List.getLast?_cons_cons, List.getLast?_cons_cons]
        exact ih hc

theorem Carries.optionsLength_le {d : UInt8} {os : List OutOption}
    {added : List (UInt16 × List UInt8)} (h : Carries d os added) :
    optionsLength os ≤ 5 * os.length + (added.map fun a => a.2.length).sum := by
  induction os generalizing d added with
  | nil => exact Nat.zero_le _
  | cons o os ih =>
    obtain _ | ⟨⟨n, v⟩, added⟩ := added
    · exact h.elim
    obtain ⟨-, hlen, -, hc⟩ := h
    have hnum := length_optExt_le o.num
    have hl := length_optExt_le o.len
    have := ih hc
    rw [optionsLength_cons, OutOption.length, List.map_cons, List.sum_cons, List.length_cons, hlen]
    dsimp only
    omega

theorem serialize_le {msg : OutMessage} {buflen : UInt16} {n : Int} {img : Image}
    (h : coapSerializeMessage msg buflen = some (n, img)) : n ≤ buflen.toNat := by
  unfold coapSerializeMessage at h
  simp only [Option.bind_eq_bind, Option.bind_eq_some_iff] at h
  obtain ⟨r, -, h⟩ := h
  have := congrArg Prod.fst (Option.some.inj h)
  omega

section
variable {ops : List BuildOp} (hops : AllAdd ops) {behind : Mem} {buflen : UInt16}
  (hlen : coapSerializeMessageLength (built ops) ≤ buflen) (hmax : buflen.toNat ≤ coapMsgMaxPduLen)
include hops hlen hmax

theorem wireLength_le_of_roundTrip (h : RoundTrip ops behind buflen) :
    wireLength (built ops) ≤ buflen.toNat := by
  obtain ⟨n, img, msg, hser, hdec, hret⟩ := h
  have hn := serialize_le hser
  have htotal := message_total hdec
  have hcar := (built_holding hops).carries.optionsLength_le
  have htok := (built ops).tokenlen_le
  have hcount := (built ops).optcount_le
  have hvalues : ((optionsAdded ops).map fun a => a.2.length).sum = valueBytes msg.options := by
    rw [← hret.options, List.map_map]
    unfold valueBytes
    congr 1
    apply List.map_congr_left
    intro o _
    exact length_slice _ _ _
  have hpay : ((built ops).payload.1.length : Int) ≤ max n 0 := by
    rw [← hret.payload]
    unfold CoapMessage.payloadBytes
    cases hp : msg.payload with
    | none => exact Int.le_max_right _ _
    | some p =>
      cases hl : msg.payloadlen with
      | none => exact Int.le_max_right _ _
      | some len =>
        have := hret.inside p hp len hl
        simp only [length_slice]
        omega
  have hlt : wireLength (built ops) < 65536 := by
    unfold wireLength
    simp only [coapMsgMaxPduLen, coapMsgMaxTokenLen, coapMsgMaxOptionNum] at hmax htok hcount
    split <;> omega
  rw [← messageLength_toNat hlt]
  exact UInt16.le_iff_toNat_le.mp hlen

end

theorem holds_written (bs : List UInt8) (behind : Mem) :
    Holds (overlay (fun i => bs[i]?) behind) 0 bs := by
  intro i b hb
  rw [Nat.zero_add, overlay, hb, Option.getD_some]

theorem overlay_behind {msg : OutMessage} (hr : msg.Readable) (behind : Mem) :
    overlay (fun i => (wire msg)[i]?) behind (wireLength msg) = behind (wireLength msg) := by
  rw [overlay, List.getElem?_eq_none (Nat.le_of_eq (length_wire hr)), Option.getD_none]

theorem optionsAdded_iff {ops : List BuildOp} (hops : AllAdd ops) (hr : (built ops).Readable)
    {m : Mem} (h : Holds m 0 (wire (built ops))) :
    ((decodedWire (built ops)).options.map fun o => (o.num, slice m o.val o.len.toNat)) =
        optionsAdded ops ↔
      ∀ n ∈ ((optionsAdded ops).map Prod.fst).dropLast, n ≤ 255 :=
  decodedOptions_eq_iff hr (built_holding hops).carries (holds_wire hr h).2.2.1

theorem endsInValue_iff {ops : List BuildOp} (hops : AllAdd ops) :
    EndsInValue (built ops).options (payloadWire (built ops)) ↔
      (built ops).payload.1 ≠ [] ∨ ∀ a ∈ (optionsAdded ops).getLast?, a.2 ≠ [] := by
  unfold EndsInValue
  rw [(built_holding hops).carries.last_iff]
  unfold payloadWire
  split
  · next hp => exact or_congr (iff_of_false (fun h => h rfl) fun h => h hp) Iff.rfl
  · next hp => exact or_congr (iff_of_true (List.cons_ne_nil _ _) hp) Iff.rfl

section
variable {ops : List BuildOp} (hops : AllAdd ops) {behind : Mem} {buflen : UInt16}
  (hlen : coapSerializeMessageLength (built ops) ≤ buflen) (hmax : buflen.toNat ≤ coapMsgMaxPduLen)
include hops hlen hmax

theorem comesBack_of_roundTrip (h : RoundTrip ops behind buflen) : ComesBack ops behind := by
  have hfit := wireLength_le_of_roundTrip hops hlen hmax h
  obtain ⟨n, img, msg, hser, hdec, hret⟩ := h
  have hr : (built ops).Readable := by
    by_contra hnot
    have hlt := buflen.toNat_lt
    have hopt : optionsLength (built ops).options < 65536 := by
      unfold wireLength at hfit
      omega
    rw [serialize_of_not_readable hnot hopt] at hser
    cases hser
  rw [serialize_wire hr hfit] at hser
  cases hser
  have hold := holds_written (wire (built ops)) behind
  have hends : EndsInValue (built ops).options (payloadWire (built ops)) := by
    by_contra hshort
    have := decode_wire_short hr hold hshort
    rw [hdec] at this
    exact error_ne_success this.symm
  rw [decode_wire hr hold hends] at hdec
  have hmsg := (Prod.mk.inj hdec).2
  refine ⟨Nat.le_trans hfit hmax, ?_, (built_readable hops).mp hr, ?_⟩
  · rw [← optionsAdded_iff hops hr hold, ← hret.options, ← hmsg]
    split <;> rfl
  · by_cases hp : (built ops).payload.1 = []
    · have hpw : payloadWire (built ops) = [] := if_pos hp
      have hend : wireLength (built ops) = optionsEnd (built ops) := by
        rw [wireLength_eq, hpw]
        rfl
      have hlast := ((endsInValue_iff hops).mp hends).resolve_left (not_not_intro hp)
      refine .inr ⟨hlast, fun hff => ?_⟩
      rw [← overlay_behind hr behind, hend] at hff
      rw [if_pos hff] at hmsg
      have := hret.inside (optionsEnd (built ops) + 1) (by rw [← hmsg]; rfl) _ (by rw [← hmsg]; rfl)
      rw [hend] at this
      omega
    · exact .inl hp

omit hmax in
theorem roundTrip_of_comesBack (h : ComesBack ops behind) : RoundTrip ops behind buflen := by
  have hr : (built ops).Readable := (built_readable hops).mpr h.stored
  have hfits := h.fits
  have hfit : wireLength (built ops) ≤ buflen.toNat := by
    simp only [coapMsgMaxPduLen] at hfits
    rw [← messageLength_toNat (by omega)]
    exact UInt16.le_iff_toNat_le.mp hlen
  have hold := holds_written (wire (built ops)) behind
  have hends := (endsInValue_iff hops).mpr (h.ends.imp_right And.left)
  have hdec := decode_wire hr hold hends
  have hopts := (optionsAdded_iff hops hr hold).mpr h.numbers
  have hn := wireLength_eq (built ops)
  refine ⟨_, _, _, serialize_wire hr hfit, hdec, ?_⟩
  by_cases hp : (built ops).payload.1 = []
  · -- Without a payload the byte behind the datagram is no marker.
    have hpw : payloadWire (built ops) = [] := if_pos hp
    have hend : wireLength (built ops) = optionsEnd (built ops) := by
      rw [hn, hpw]
      rfl
    have hff := (h.ends.resolve_left (not_not_intro hp)).2
    rw [← overlay_behind hr behind, hend] at hff
    rw [if_neg hff]
    exact ⟨rfl, rfl, hopts, hp.symm, fun p hp => by cases hp⟩
  · have hpw : payloadWire (built ops) = 0xFF :: (built ops).payload.1 := if_neg hp
    obtain ⟨-, -, -, hpay⟩ := holds_wire hr hold
    rw [hpw, holds_cons] at hpay
    have hlt := (built ops).payload.2
    have h16 : (UInt16.ofInt (((payloadWire (built ops)).length : Int) - 1)).toNat =
        (built ops).payload.1.length := by
      rw [hpw, List.length_cons, UInt16.ofInt, UInt16.toNat_ofNat']
      omega
    rw [if_pos hpay.1]
    refine ⟨rfl, rfl, hopts, ?_, ?_⟩
    · show slice _ _ _ = _
      rw [h16]
      exact slice_of_holds hpay.2
    · rintro p ⟨⟩ len ⟨⟩
      rw [h16, hn, hpw, List.length_cons]
      omega

/-- **Round trip.** What is built comes back exactly under `ComesBack`. -/
theorem roundTrip_iff : RoundTrip ops behind buflen ↔ ComesBack ops behind :=
  ⟨comesBack_of_roundTrip hops hlen hmax, roundTrip_of_comesBack hops hlen⟩

end

/-- A request with an empty option, a path, a number and a payload. -/
def getDevice : List BuildOp :=
  [.typeSet coapMessageTypeCon, .codeSet coapMsgCodeGet, .idSet 7, .tokenSet [0xAB, 0xCD],
    .uintOption coapOptionObserve 0 true,
    .strOption coapOptionUriPath ⟨[0x73, 0x79, 0x73], by decide⟩ true,
    .uintOption coapOptionMaxage 300 true, .payloadSet ⟨[0x7B, 0x7D], by decide⟩]

theorem allAdd_getDevice : AllAdd getDevice :=
  ⟨trivial, trivial, trivial, trivial, rfl, rfl, rfl, trivial, trivial⟩

theorem roundTrip_iff_getDevice : RoundTrip getDevice (fun _ => 0xFF) 1280 := by
  have hnumbers : ∀ n ∈ ((optionsAdded getDevice).map Prod.fst).dropLast, n ≤ 255 := by
    have hadded : ((optionsAdded getDevice).map Prod.fst).dropLast =
      [coapOptionObserve, coapOptionUriPath] := by decide
    intro n hn
    rw [hadded] at hn
    rcases List.mem_cons.mp hn with rfl | hn
    · decide
    · rw [List.mem_singleton.mp hn]
      decide
  exact (roundTrip_iff allAdd_getDevice (by decide) (by decide)).mpr
    ⟨by decide, hnumbers, by decide, .inl (by decide)⟩

/-- `Observe: 0` as the last option, and a number behind one above 255. -/
def getObserve : List BuildOp := [.codeSet coapMsgCodeGet, .uintOption coapOptionObserve 0 true]

def twoLarge : List BuildOp :=
  [.strOption 300 ⟨[1], by decide⟩ true, .strOption 301 ⟨[1], by decide⟩ true]

/-- Neither comes back: the first is rejected, the second gets another number. -/
theorem roundTrip_fails :
    (AllAdd getObserve ∧ (optionsAdded getObserve).Pairwise (·.1 ≤ ·.1) ∧
      coapSerializeMessageLength (built getObserve) = 5 ∧
      ¬ RoundTrip getObserve (fun _ => 0) 5) ∧
    AllAdd twoLarge ∧ (optionsAdded twoLarge).Pairwise (·.1 ≤ ·.1) ∧
      coapSerializeMessageLength (built twoLarge) = 11 ∧
      ¬ RoundTrip twoLarge (fun _ => 0) 11 := by
  have hobs : AllAdd getObserve := ⟨trivial, rfl, trivial⟩
  have hlarge : AllAdd twoLarge := ⟨rfl, rfl, trivial⟩
  refine ⟨⟨hobs, by decide, by decide, fun h => ?_⟩, hlarge, by decide, by decide, fun h => ?_⟩
  · have := (comesBack_of_roundTrip hobs (by decide) (by decide) h).ends
    revert this
    decide
  · have hnumbers := (comesBack_of_roundTrip hlarge (by decide) (by decide) h).numbers
    exact absurd (hnumbers 300 List.mem_cons_self) (by decide)

end AliyunIot.Coap
