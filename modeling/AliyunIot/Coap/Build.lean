import AliyunIot.Coap.Serialize
import AliyunIot.Lib.Run

/-!
# Runs of the message builder

A message is built by a run of the setters and option adders. `Holding` is the
invariant of such a run: the options are the ones added, each with the delta to
the number before it as `optdelta` keeps it.
-/

namespace AliyunIot.Coap

open Lib

inductive BuildOp where
  | typeSet (type : UInt8)
  | codeSet (code : UInt8)
  | idSet (msgid : UInt16)
  | tokenSet (token : List UInt8)
  | strOption (optnum : UInt16) (data : Block) (malloc : Bool)
  | uintOption (optnum : UInt16) (data : UInt32) (malloc : Bool)
  | payloadSet (payload : Block)

namespace BuildOp

def step (m : OutMessage) : BuildOp → OutMessage
  | typeSet type => (coapMessageTypeSet m type).2
  | codeSet code => coapMessageCodeSet m code
  | idSet msgid => coapMessageIdSet m msgid
  | tokenSet token => (coapMessageTokenSet m token).2
  | strOption optnum data malloc => (coapStrOptionAdd m optnum data malloc).2
  | uintOption optnum data malloc => (coapUintOptionAdd m optnum data malloc).2
  | payloadSet payload => coapMessagePayloadSet m payload

/-- An adder returns `COAP_SUCCESS`. -/
def Adds (m : OutMessage) : BuildOp → Prop
  | strOption optnum data malloc => (coapStrOptionAdd m optnum data malloc).1 = coapSuccess
  | uintOption optnum data malloc => (coapUintOptionAdd m optnum data malloc).1 = coapSuccess
  | _ => True

/-- The option a call adds, with its number and value. -/
def option : BuildOp → List (UInt16 × List UInt8)
  | strOption optnum data _ => [(optnum, data.1)]
  | uintOption optnum data _ => [(optnum, uintValue data)]
  | _ => []

/-- The call does not lose the value of a number to a failed allocation. -/
def Stored : BuildOp → Prop
  | uintOption _ data malloc => data ≠ 0 → malloc = true
  | _ => True

instance : DecidablePred Stored
  | uintOption _ data malloc => inferInstanceAs (Decidable (data ≠ 0 → malloc = true))
  | typeSet _ | codeSet _ | idSet _ | tokenSet _ | strOption .. | payloadSet _ =>
    inferInstanceAs (Decidable True)

end BuildOp

def built (ops : List BuildOp) : OutMessage := run BuildOp.step coapMessageInit ops

def optionsAdded (ops : List BuildOp) : List (UInt16 × List UInt8) := ops.flatMap BuildOp.option

/-- Every adder of the run succeeds. -/
def AllAdd (ops : List BuildOp) : Prop := Meets BuildOp.step BuildOp.Adds coapMessageInit ops

/-! ## The options of a built message -/

/-- `os` are the options `added` behind the running number `d`: each the delta to
the number before it as that is kept, the length of the value, and the value
itself if it can be read. -/
def Carries : UInt8 → List OutOption → List (UInt16 × List UInt8) → Prop
  | _, [], [] => True
  | d, o :: os, (n, v) :: added =>
    o.num = n - d.toUInt16 ∧ o.len.toNat = v.length ∧ (o.Readable → o.val.getD [] = v) ∧
      Carries n.toUInt8 os added
  | _, _, _ => False

/-- The running number behind `added`. -/
def lastDelta (d : UInt8) : List (UInt16 × List UInt8) → UInt8
  | [] => d
  | (n, _) :: added => lastDelta n.toUInt8 added

theorem Carries.concat {d : UInt8} {os : List OutOption} {added : List (UInt16 × List UInt8)}
    (h : Carries d os added) {o : OutOption} {n : UInt16} {v : List UInt8}
    (hn : o.num = n - (lastDelta d added).toUInt16) (hl : o.len.toNat = v.length)
    (hv : o.Readable → o.val.getD [] = v) :
    Carries d (os ++ [o]) (added ++ [(n, v)]) ∧ lastDelta d (added ++ [(n, v)]) = n.toUInt8 := by
  induction os generalizing d added with
  | nil =>
    cases added with
    | nil => exact ⟨⟨hn, hl, hv, trivial⟩, rfl⟩
    | cons a added => exact h.elim
  | cons x os ih =>
    cases added with
    | nil => exact h.elim
    | cons a added =>
      obtain ⟨h1, h2, h3, h4⟩ := h
      obtain ⟨ih1, ih2⟩ := ih h4 hn
      exact ⟨⟨h1, h2, h3, ih1⟩, ih2⟩

/-- What is true of a message whose options are `added`. -/
structure Holding (m : OutMessage) (added : List (UInt16 × List UInt8)) : Prop where
  carries : Carries 0 m.options added
  delta : m.optdelta = lastDelta 0 added

theorem Holding.addOption {m : OutMessage} {added : List (UInt16 × List UInt8)}
    (h : Holding m added) (optnum len : UInt16) (val : Option (List UInt8))
    (held : ∀ bs ∈ val, bs.length = len.toNat) (hlt : m.options.length < coapMsgMaxOptionNum)
    {v : List UInt8} (hlen : len.toNat = v.length)
      (hval : (val = none → len = 0) → val.getD [] = v) :
    Holding (m.addOption optnum len val held hlt) (added ++ [(optnum, v)]) := by
  obtain ⟨h1, h2⟩ := h.carries.concat (o := ⟨optnum - m.optdelta.toUInt16, len, val, held⟩)
    (n := optnum) (v := v) (by rw [h.delta]) hlen hval
  exact ⟨h1, h2.symm⟩

theorem Holding.step {m : OutMessage} {added : List (UInt16 × List UInt8)} (h : Holding m added)
    {op : BuildOp} (hop : op.Adds m) : Holding (op.step m) (added ++ op.option) := by
  have keep : Holding m (added ++ []) := by
    rw [List.append_nil]
    exact h
  cases op with
  | typeSet type =>
    show Holding (coapMessageTypeSet m type).2 (added ++ [])
    unfold coapMessageTypeSet
    split
    · exact ⟨keep.carries, keep.delta⟩
    · exact keep
  | codeSet code => exact ⟨keep.carries, keep.delta⟩
  | idSet msgid => exact ⟨keep.carries, keep.delta⟩
  | tokenSet token =>
    show Holding (coapMessageTokenSet m token).2 (added ++ [])
    unfold coapMessageTokenSet
    split
    · exact keep
    · exact ⟨keep.carries, keep.delta⟩
  | strOption optnum data malloc =>
    simp only [BuildOp.Adds, coapStrOptionAdd] at hop
    simp only [BuildOp.step, BuildOp.option, coapStrOptionAdd]
    split at hop
    · cases hop
    next hlt =>
      split at hop
      · next hm =>
        rw [dif_neg hlt, if_pos hm]
        exact h.addOption _ _ _ _ (Nat.lt_of_not_le hlt) (UInt16.toNat_ofNat_of_lt' data.2)
          fun _ => rfl
      · cases hop
  | uintOption optnum data malloc =>
    simp only [BuildOp.Adds, coapUintOptionAdd] at hop
    simp only [BuildOp.step, BuildOp.option, coapUintOptionAdd]
    split at hop
    · cases hop
    next hlt =>
      have hle := length_uintValue_le data
      have hlen : (UInt16.ofNat (uintValue data).length).toNat = (uintValue data).length :=
        UInt16.toNat_ofNat_of_lt' (by rw [UInt16.size]; omega)
      rw [dif_neg hlt]
      refine h.addOption _ _ _ _ (Nat.lt_of_not_le hlt) hlen fun hr => ?_
      split at hr
      · next hm => rw [if_pos hm, Option.getD_some]
      · next hm =>
        rw [if_neg hm, Option.getD_none]
        rw [hr rfl] at hlen
        exact (List.length_eq_zero_iff.mp hlen.symm).symm
  | payloadSet payload => exact ⟨keep.carries, keep.delta⟩

theorem Holding.run {m : OutMessage} {added : List (UInt16 × List UInt8)} (h : Holding m added)
    {ops : List BuildOp} (hops : Meets BuildOp.step BuildOp.Adds m ops) :
    Holding (Lib.run BuildOp.step m ops) (added ++ optionsAdded ops) := by
  induction ops generalizing m added with
  | nil =>
    rw [optionsAdded, List.flatMap_nil, List.append_nil]
    exact h
  | cons op ops ih =>
    have := ih (h.step hops.1) hops.2
    rwa [List.append_assoc] at this

theorem built_holding {ops : List BuildOp} (hops : AllAdd ops) :
    Holding (built ops) (optionsAdded ops) := by
  have hinit : Holding coapMessageInit [] := ⟨trivial, rfl⟩
  exact hinit.run hops

theorem readable_addOption (m : OutMessage) (optnum len : UInt16) (val : Option (List UInt8))
    (held : ∀ bs ∈ val, bs.length = len.toNat) (hlt : m.options.length < coapMsgMaxOptionNum) :
    (m.addOption optnum len val held hlt).Readable ↔ m.Readable ∧ (val = none → len = 0) := by
  unfold OutMessage.Readable OutMessage.addOption
  rw [List.forall_mem_append]
  exact and_congr_right fun _ => List.forall_mem_singleton

theorem readable_step {m : OutMessage} {op : BuildOp} (hop : op.Adds m) :
    (op.step m).Readable ↔ m.Readable ∧ op.Stored := by
  have keep : m.Readable ↔ m.Readable ∧ True := (and_true _).symm.to_iff
  cases op with
  | typeSet type =>
    show (coapMessageTypeSet m type).2.Readable ↔ _
    unfold coapMessageTypeSet
    split <;> exact keep
  | codeSet code => exact keep
  | idSet msgid => exact keep
  | tokenSet token =>
    show (coapMessageTokenSet m token).2.Readable ↔ _
    unfold coapMessageTokenSet
    split <;> exact keep
  | strOption optnum data malloc =>
    simp only [BuildOp.Adds, coapStrOptionAdd] at hop
    simp only [BuildOp.step, BuildOp.Stored, coapStrOptionAdd]
    split at hop
    · cases hop
    next hlt =>
      split at hop
      · next hm =>
        rw [dif_neg hlt, if_pos hm, readable_addOption]
        exact and_congr_right fun _ => iff_true_intro fun h0 => by cases h0
      · cases hop
  | uintOption optnum data malloc =>
    simp only [BuildOp.Adds, coapUintOptionAdd] at hop
    simp only [BuildOp.step, BuildOp.Stored, coapUintOptionAdd]
    split at hop
    · cases hop
    next hlt =>
      rw [dif_neg hlt, readable_addOption]
      refine and_congr_right fun _ => ?_
      by_cases hd : data = 0
      · subst hd
        exact iff_of_true (fun _ => rfl) fun h0 => absurd rfl h0
      · have hlen : UInt16.ofNat (uintValue data).length ≠ 0 := by
          unfold uintValue
          rw [if_neg hd]
          repeat' split
          all_goals
            simp only [List.length_cons, List.length_nil]
            decide
        cases malloc with
        | true => exact iff_of_true (fun h0 => by simp [hd] at h0) fun _ => rfl
        | false => exact iff_of_false (fun h0 => hlen (h0 (by simp))) fun h0 => by cases h0 hd
  | payloadSet payload => exact keep

theorem readable_run {m : OutMessage} {ops : List BuildOp}
    (hops : Meets BuildOp.step BuildOp.Adds m ops) :
    (Lib.run BuildOp.step m ops).Readable ↔ m.Readable ∧ ∀ op ∈ ops, op.Stored := by
  induction ops generalizing m with
  | nil => simp
  | cons op ops ih =>
    rw [run_cons, ih hops.2, readable_step hops.1, List.forall_mem_cons, and_assoc]

theorem built_readable {ops : List BuildOp} (hops : AllAdd ops) :
    (built ops).Readable ↔ ∀ op ∈ ops, op.Stored := by
  rw [built, readable_run hops]
  exact and_iff_right fun o ho => absurd ho List.not_mem_nil

end AliyunIot.Coap
