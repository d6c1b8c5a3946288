import AliyunIot.Coap.Deserialize

/-!
# Shape of a CoAP datagram

What follows the token, as the list of bytes that were received: options, then
a payload marker or the end. `shape` classifies it without a buffer behind it,
and `options_spec` says what the option loop does with each shape.
-/

namespace AliyunIot.Coap

open Lib

/-- The extension of a nibble at the head of `bs`: a two-byte extension of
which one byte is left, nothing left behind the extension, or the extended
value and the bytes it takes. -/
inductive Ext where
  | cut
  | short
  | ext (n : UInt16) (size : Nat)

def extension (nibble : UInt8) (bs : List UInt8) : Ext :=
  if nibble = 13 then
    match bs with
    | b :: _ :: _ => .ext ((13 : UInt16) + b.toUInt16) 1
    | _ => .short
  else if nibble = 14 then
    match bs with
    | b :: c :: _ :: _ => .ext ((269 : UInt16) + (b.toUInt16 <<< 8) + c.toUInt16) 2
    | [_, _] => .short
    | _ => .cut
  else .ext nibble.toUInt16 0

/-- One option: cut in an extension, nothing behind its head, or the sizes of
its head and of its value. -/
inductive OptHead where
  | cut
  | short
  | value (delta : UInt16) (head : Nat) (len : UInt16)

def optHead : List UInt8 → OptHead
  | [] => .short
  | first :: bs =>
    if bs = [] then .short
    else
      match extension ((first &&& 0xF0) >>> 4) bs with
      | .cut => .cut
      | .short => .short
      | .ext delta k =>
        match extension (first &&& 0x0F) (bs.drop k) with
        | .cut => .cut
        | .short => .short
        | .ext len k' => .value delta (1 + k + k') len

/-- How the bytes after the token end: an option is malformed or runs past the
end, a two-byte extension is cut after one byte, the options use up the
datagram, a marker precedes a payload of `n` bytes, or all slots are taken. -/
inductive Shape where
  | rejected
  | cut
  | exhausted
  | marker (n : Nat)
  | full

def shape : Nat → List UInt8 → Shape
  | _, [] => .exhausted
  | 0, b :: bs => if b = 0xFF then .marker bs.length else .full
  | slots + 1, b :: bs =>
    if b = 0xFF then .marker bs.length
    else
      match optHead (b :: bs) with
      | .cut => .cut
      | .short => .rejected
      | .value _ head len =>
        if (b :: bs).length < head + len.toNat then .rejected
        else shape slots ((b :: bs).drop (head + len.toNat))

/-- The options occupy `[start, last)` one behind the other, each with a head of
at least one byte before its value. -/
def Tiles : Nat → List CoapMsgOption → Nat → Prop
  | start, [], last => start = last
  | start, o :: os, last => start < o.val ∧ Tiles (o.val + o.len.toNat) os last

variable {start last : Nat}

theorem Tiles.unique {last' : Nat} {os : List CoapMsgOption} (h : Tiles start os last)
    (h' : Tiles start os last') : last = last' := by
  induction os generalizing start with
  | nil => exact h.symm.trans h'
  | cons o os ih => exact ih h.2 h'.2

theorem Tiles.le {os : List CoapMsgOption} (h : Tiles start os last) : start ≤ last := by
  induction os generalizing start with
  | nil => exact Nat.le_of_eq h
  | cons o os ih =>
    have h1 := h.1
    have h2 := ih h.2
    omega

theorem Tiles.value_le {os : List CoapMsgOption} (h : Tiles start os last)
    {o : CoapMsgOption} (ho : o ∈ os) : start < o.val ∧ o.val + o.len.toNat ≤ last := by
  induction os generalizing start with
  | nil => cases ho
  | cons x os ih =>
    rcases List.mem_cons.mp ho with rfl | ho
    · exact ⟨h.1, h.2.le⟩
    · have h1 := h.1
      have h2 := ih h.2 ho
      exact ⟨by omega, h2.2⟩

section
variable {m : Mem} {ptr : Nat} {bs : List UInt8}

theorem holds_drop (h : Holds m ptr bs) (k : Nat) : Holds m (ptr + k) (bs.drop k) := by
  intro i b hb
  rw [List.getElem?_drop] at hb
  rw [Nat.add_assoc]
  exact h (k + i) b hb

theorem coapOptCheck_of_lt {k : Nat} (bs : List UInt8) (h : k < bs.length) :
    coapOptCheck ptr bs.length k = some (ptr + k, ((bs.drop k).length : Int)) := by
  rw [coapOptCheck, if_neg (by omega), if_neg (by omega), List.length_drop]
  congr 2
  omega

theorem coapOptCheck_of_le {k : Nat} (h : bs.length ≤ k) : coapOptCheck ptr bs.length k = none := by
  rw [coapOptCheck]
  split
  · rfl
  · rw [if_pos (by omega)]

theorem coapOptDelta_spec (h : Holds m ptr bs) (hne : bs ≠ []) (nibble : UInt8) :
    (extension nibble bs = .cut ∧
      ptr + bs.length ∈ Probe.reads m (coapOptDelta nibble ptr bs.length)) ∨
    (extension nibble bs = .short ∧
      Probe.value m (coapOptDelta nibble ptr bs.length) = none ∧
      Probe.Confined m ptr (ptr + bs.length) (coapOptDelta nibble ptr bs.length)) ∨
    ∃ n k, extension nibble bs = .ext n k ∧ k < bs.length ∧
      Probe.value m (coapOptDelta nibble ptr bs.length) =
        some (n, ptr + k, ((bs.drop k).length : Int)) ∧
      Probe.Confined m ptr (ptr + bs.length) (coapOptDelta nibble ptr bs.length) := by
  have hpos : 0 < bs.length := List.length_pos_iff.mpr hne
  unfold coapOptDelta extension
  by_cases h13 : nibble = 13
  · simp only [if_pos h13]
    have hconf : Probe.Confined m ptr (ptr + bs.length) (Probe.load ptr) :=
      Probe.confined_load (by omega) (by omega)
    rcases bs with _ | ⟨b, _ | ⟨c, rest⟩⟩
    · exact absurd rfl hne
    · refine .inr (.inl ⟨rfl, ?_, ?_⟩)
      · rw [Probe.value_bind, Probe.value_pure, coapOptCheck_of_le (by simp)]; rfl
      · exact Probe.confined_bind.mpr ⟨hconf, Probe.confined_pure _ _ _ _⟩
    · refine .inr (.inr ⟨_, _, rfl, by simp, ?_, ?_⟩)
      · rw [Probe.value_bind, Probe.value_pure, coapOptCheck_of_lt _ (by simp), Probe.value_load,
          (holds_cons.mp h).1]; rfl
      · exact Probe.confined_bind.mpr ⟨hconf, Probe.confined_pure _ _ _ _⟩
  simp only [if_neg h13]
  by_cases h14 : nibble = 14
  · simp only [if_pos h14]
    rcases bs with _ | ⟨b, _ | ⟨c, _ | ⟨d, rest⟩⟩⟩
    · exact absurd rfl hne
    · exact .inl ⟨rfl, by simp⟩
    · refine .inr (.inl ⟨rfl, ?_, ?_⟩)
      · simp only [Probe.value_bind, Probe.value_pure]
        rw [coapOptCheck_of_le (by simp)]; rfl
      · refine Probe.confined_bind.mpr ⟨Probe.confined_load (by omega) (by omega), ?_⟩
        exact Probe.confined_bind.mpr
          ⟨Probe.confined_load (by omega) (by simp), Probe.confined_pure _ _ _ _⟩
    · refine .inr (.inr ⟨_, _, rfl, by simp, ?_, ?_⟩)
      · have hb := (holds_cons.mp h).1
        have hc := (holds_cons.mp (holds_cons.mp h).2).1
        simp only [Probe.value_bind, Probe.value_pure, Probe.value_load, hb, hc]
        rw [coapOptCheck_of_lt _ (by simp)]; rfl
      · refine Probe.confined_bind.mpr ⟨Probe.confined_load (by omega) (by omega), ?_⟩
        exact Probe.confined_bind.mpr
          ⟨Probe.confined_load (by omega) (by simp), Probe.confined_pure _ _ _ _⟩
  · simp only [if_neg h14]
    exact .inr (.inr ⟨_, 0, rfl, hpos, by simp, Probe.confined_pure _ _ _ _⟩)

theorem coapDeserializeOption_spec (h : Holds m ptr bs) (hne : bs ≠ []) (predeltas : UInt16) :
    (optHead bs = .cut ∧
      ptr + bs.length ∈ Probe.reads m (coapDeserializeOption ptr bs.length predeltas)) ∨
    (optHead bs = .short ∧
      Probe.value m (coapDeserializeOption ptr bs.length predeltas) = none ∧
      Probe.Confined m ptr (ptr + bs.length) (coapDeserializeOption ptr bs.length predeltas)) ∨
    ∃ delta head len, optHead bs = .value delta head len ∧ 0 < head ∧ head < bs.length ∧
      Probe.value m (coapDeserializeOption ptr bs.length predeltas) =
        some (⟨predeltas + delta, len, ptr + head⟩, head + len.toNat) ∧
      Probe.Confined m ptr (ptr + bs.length) (coapDeserializeOption ptr bs.length predeltas) := by
  obtain ⟨first, rest, rfl⟩ : ∃ first rest, bs = first :: rest := by
    cases bs with
    | nil => exact absurd rfl hne
    | cons b rest => exact ⟨b, rest, rfl⟩
  have hlen : (first :: rest).length = rest.length + 1 := List.length_cons
  have hfirst : Probe.Confined m ptr (ptr + (first :: rest).length) (Probe.load ptr) :=
    Probe.confined_load (by omega) (by omega)
  have hb := (holds_cons.mp h).1
  by_cases hr : rest = []
  · subst hr
    refine .inr (.inl ⟨rfl, ?_, ?_⟩)
    · rw [coapDeserializeOption, Probe.value_bind]
      rw [coapOptCheck_of_le (by simp)]; rfl
    · rw [coapDeserializeOption, Probe.confined_bind]
      refine ⟨hfirst, ?_⟩
      rw [coapOptCheck_of_le (by simp)]
      exact Probe.confined_pure _ _ _ _
  have h1 : Holds m (ptr + 1) rest := (holds_cons.mp h).2
  have hpos : 0 < rest.length := List.length_pos_iff.mpr hr
  have hend : ptr + 1 + rest.length = ptr + (first :: rest).length := by omega
  have hcheck : coapOptCheck ptr (first :: rest).length 1 = some (ptr + 1, (rest.length : Int)) :=
    coapOptCheck_of_lt (first :: rest) (by omega)
  simp only [coapDeserializeOption, Probe.value_bind, Probe.reads_bind, Probe.confined_bind,
    Probe.value_load, Probe.reads_load, hb, hcheck, optHead, if_neg hr]
  rcases coapOptDelta_spec h1 hr ((first &&& 0xF0) >>> 4) with
    ⟨he, hcut⟩ | ⟨he, hv, hc⟩ | ⟨delta, k, he, hk, hv, hc⟩
  · rw [he, ← hend]
    exact .inl ⟨rfl, List.mem_append_right _ (List.mem_append_left _ hcut)⟩
  · rw [he, hv]
    refine .inr (.inl ⟨rfl, rfl, hfirst, ?_, Probe.confined_pure _ _ _ _⟩)
    exact hc.mono (by omega) (by omega)
  rw [he, hv]
  simp only [Probe.value_bind, Probe.reads_bind, Probe.confined_bind]
  have h2 : Holds m (ptr + 1 + k) (rest.drop k) := holds_drop h1 k
  have hlen2 : (rest.drop k).length = rest.length - k := List.length_drop
  have hr2 : rest.drop k ≠ [] := by
    intro hnil
    rw [hnil, List.length_nil] at hlen2; omega
  have hc' : Probe.Confined m ptr (ptr + (first :: rest).length)
      (coapOptDelta ((first &&& 0xF0) >>> 4) (ptr + 1) rest.length) := hc.mono (by omega) (by omega)
  have hend2 : ptr + 1 + k + (rest.drop k).length = ptr + (first :: rest).length := by omega
  rcases coapOptDelta_spec h2 hr2 (first &&& 0x0F) with
    ⟨he2, hcut⟩ | ⟨he2, hv2, hc2⟩ | ⟨len, k', he2, hk', hv2, hc2⟩
  · rw [he2, ← hend2]
    exact .inl ⟨rfl,
      List.mem_append_right _ (List.mem_append_right _ (List.mem_append_left _ hcut))⟩
  · rw [he2, hv2]
    refine .inr (.inl ⟨rfl, rfl, hfirst, hc', ?_, Probe.confined_pure _ _ _ _⟩)
    exact hc2.mono (by omega) (by omega)
  · rw [he2, hv2]
    refine .inr (.inr ⟨delta, 1 + k + k', len, rfl, by omega, by omega, ?_, hfirst, hc', ?_,
      Probe.confined_pure _ _ _ _⟩)
    · simp only [Probe.value_pure]
      rw [show ptr + 1 + k + k' = ptr + (1 + k + k') by omega, Nat.add_sub_cancel_left]
    · exact hc2.mono (by omega) (by omega)

/-! ## The option loop -/

/-- What the loop over the bytes `bs` does, by their shape. -/
def OptionsSpec (m : Mem) (ptr : Nat) (bs : List UInt8)
    (p : Probe (List CoapMsgOption × Option Nat)) : Shape → Prop
  | .cut => ptr + bs.length ∈ Probe.reads m p
  | .rejected => Probe.Confined m ptr (ptr + bs.length) p ∧
      ∀ last, (Probe.value m p).2 = some last → ptr + bs.length < last
  | .exhausted => Probe.Confined m ptr (ptr + bs.length) p ∧
      (Probe.value m p).2 = some (ptr + bs.length)
  | .marker n => Probe.Confined m ptr (ptr + bs.length) p ∧
      ∃ last, (Probe.value m p).2 = some last ∧ last + 1 + n = ptr + bs.length ∧ m last = 0xFF ∧
        Tiles ptr (Probe.value m p).1 last
  | .full => Probe.Confined m ptr (ptr + bs.length) p ∧
      ∃ last, (Probe.value m p).2 = some last ∧ last < ptr + bs.length ∧ m last ≠ 0xFF ∧
        Tiles ptr (Probe.value m p).1 last

theorem coapDeserializeOptions_of_nonpos (slots ptr : Nat) (left : Int) (h : left ≤ 0)
    (optdeltas : UInt16) :
    coapDeserializeOptions slots ptr left optdeltas = pure ([], some ptr) := by
  cases slots <;> exact if_neg (by omega)

theorem length_coapDeserializeOptions (m : Mem) (slots ptr : Nat) (left : Int)
    (optdeltas : UInt16) :
    (Probe.value m (coapDeserializeOptions slots ptr left optdeltas)).1.length ≤ slots := by
  induction slots generalizing ptr left optdeltas with
  | zero =>
    rw [coapDeserializeOptions]
    split <;> exact Nat.le_refl 0
  | succ slots ih =>
    rw [coapDeserializeOptions]
    split
    · rw [Probe.value_bind]
      split
      · rw [Probe.value_bind]
        cases Probe.value m (coapDeserializeOption ptr left optdeltas) with
        | none => exact Nat.zero_le _
        | some r =>
          simp only [Probe.value_bind]
          exact Nat.succ_le_succ (ih _ _ _)
      · exact Nat.zero_le _
    · exact Nat.zero_le _

theorem optionsSpec_stop {b : UInt8} {rest : List UInt8} (h : Holds m ptr (b :: rest))
    {p : Probe (List CoapMsgOption × Option Nat)} (hv : Probe.value m p = ([], some ptr))
    (hr : Probe.reads m p = [ptr]) :
    OptionsSpec m ptr (b :: rest) p (if b = 0xFF then .marker rest.length else .full) := by
  have hl : (b :: rest).length = rest.length + 1 := List.length_cons
  have hm := (holds_cons.mp h).1
  have hc : Probe.Confined m ptr (ptr + (b :: rest).length) p := fun a ha => by
    rw [hr, List.mem_singleton] at ha
    omega
  have htiles : Tiles ptr (Probe.value m p).1 ptr := by
    rw [hv]
    rfl
  by_cases hb : b = 0xFF
  · rw [if_pos hb]
    exact ⟨hc, ptr, by rw [hv], by omega, hm.trans hb, htiles⟩
  · rw [if_neg hb]
    exact ⟨hc, ptr, by rw [hv], by omega, by rwa [hm], htiles⟩

theorem optionsSpec_cons {slots : Nat} {b : UInt8} {rest : List UInt8}
    (h : Holds m ptr (b :: rest)) (hb : b ≠ 0xFF) (optdeltas : UInt16)
    (ih : ∀ {ptr bs} (_ : Holds m ptr bs) (optdeltas : UInt16),
      OptionsSpec m ptr bs (coapDeserializeOptions slots ptr bs.length optdeltas)
        (shape slots bs)) :
    OptionsSpec m ptr (b :: rest)
      (coapDeserializeOptions (slots + 1) ptr (b :: rest).length optdeltas)
      (shape (slots + 1) (b :: rest)) := by
  have hl : (b :: rest).length = rest.length + 1 := List.length_cons
  have hload : Probe.Confined m ptr (ptr + (b :: rest).length) (Probe.load ptr) :=
    Probe.confined_load (by omega) (by omega)
  have hne : Probe.value m (Probe.load ptr) ≠ 0xFF := by
    rwa [Probe.value_load, (holds_cons.mp h).1]
  have hl0 : ((b :: rest).length : Int) > 0 := by omega
  simp only [shape, if_neg hb]
  rw [coapDeserializeOptions, if_pos hl0]
  rcases coapDeserializeOption_spec h (List.cons_ne_nil _ _) optdeltas with
    ⟨ho, hcut⟩ | ⟨ho, hv, hc⟩ | ⟨delta, head, len, ho, hpos, hhead, hv, hc⟩
  · rw [ho]
    simp only [OptionsSpec, Probe.reads_bind, if_pos hne]
    exact List.mem_append_right _ (List.mem_append_left _ hcut)
  · rw [ho]
    simp only [OptionsSpec, Probe.confined_bind, Probe.value_bind, if_pos hne, hv]
    exact ⟨⟨hload, hc, Probe.confined_pure _ _ _ _⟩, fun last hlast => by cases hlast⟩
  rw [ho]
  simp only
  by_cases hover : (b :: rest).length < head + len.toNat
  · rw [if_pos hover]
    have hstop := coapDeserializeOptions_of_nonpos slots (ptr + (head + len.toNat))
      ((b :: rest).length - (head + len.toNat : Nat)) (by omega) (optdeltas + delta)
    simp only [OptionsSpec, Probe.confined_bind, Probe.value_bind, if_pos hne, hv, hstop]
    refine ⟨⟨hload, hc, Probe.confined_pure _ _ _ _, Probe.confined_pure _ _ _ _⟩,
      fun last hlast => ?_⟩
    cases hlast
    omega
  rw [if_neg hover]
  have hleft : ((b :: rest).length : Int) - (head + len.toNat : Nat) =
      ((b :: rest).drop (head + len.toNat)).length := by
    rw [List.length_drop]; omega
  have hend : ptr + (head + len.toNat) + ((b :: rest).drop (head + len.toNat)).length =
      ptr + (b :: rest).length := by
    rw [List.length_drop]; omega
  have hspec := ih (holds_drop h (head + len.toNat)) (optdeltas + delta)
  have hstart : ptr < ptr + head := by omega
  generalize shape slots ((b :: rest).drop (head + len.toNat)) = sh at hspec ⊢
  cases sh <;>
    simp only [OptionsSpec, Probe.confined_bind, Probe.value_bind, if_pos hne,
      Probe.reads_bind, hv, hleft, hend] at hspec ⊢
  case cut =>
    exact List.mem_append_right _ (List.mem_append_right _ (List.mem_append_left _ hspec))
  all_goals
    refine ⟨⟨hload, hc, hspec.1.mono (by omega) (Nat.le_refl _), Probe.confined_pure _ _ _ _⟩, ?_⟩
  case rejected => exact hspec.2
  case exhausted => exact hspec.2
  case marker n =>
    obtain ⟨last, hlast, hn, hff, ht⟩ := hspec.2
    refine ⟨last, hlast, hn, hff, hstart, ?_⟩
    rwa [Nat.add_assoc]
  case full =>
    obtain ⟨last, hlast, hn, hff, ht⟩ := hspec.2
    refine ⟨last, hlast, hn, hff, hstart, ?_⟩
    rwa [Nat.add_assoc]

theorem options_spec (slots : Nat) (h : Holds m ptr bs) (optdeltas : UInt16) :
    OptionsSpec m ptr bs (coapDeserializeOptions slots ptr bs.length optdeltas)
      (shape slots bs) := by
  induction slots generalizing ptr bs optdeltas with
  | zero =>
    rcases bs with _ | ⟨b, rest⟩
    · exact ⟨Probe.confined_pure _ _ _ _, rfl⟩
    have hp : coapDeserializeOptions 0 ptr (b :: rest).length optdeltas =
        Probe.load ptr >>= fun _ => pure ([], some ptr) :=
      if_pos (by rw [List.length_cons]; omega)
    rw [hp]
    exact optionsSpec_stop h rfl rfl
  | succ slots ih =>
    rcases bs with _ | ⟨b, rest⟩
    · exact ⟨Probe.confined_pure _ _ _ _, rfl⟩
    by_cases hb : b = 0xFF
    · have hne : ¬ Probe.value m (Probe.load ptr) ≠ 0xFF :=
        not_not_intro ((holds_cons.mp h).1.trans hb)
      have hl0 : ((b :: rest).length : Int) > 0 := by rw [List.length_cons]; omega
      have hstop := @optionsSpec_stop m ptr b rest h
        (coapDeserializeOptions (slots + 1) ptr (b :: rest).length optdeltas)
      rw [if_pos hb] at hstop
      simp only [shape, if_pos hb]
      refine hstop ?_ ?_ <;>
        simp only [coapDeserializeOptions, if_pos hl0, Probe.value_bind, Probe.reads_bind,
          if_neg hne, Probe.value_pure, Probe.reads_pure, Probe.reads_load, List.append_nil]
    · exact optionsSpec_cons h hb optdeltas ih

end

end AliyunIot.Coap
