import AliyunIot.Coap.Cloud
import AliyunIot.Coap.Lists
import AliyunIot.Lib.Run

/-!
# The bound of the cloud client's send list

The list is bounded by a comparison of two addresses, which never holds.
`listBounded_iff`: in a run the counter stays the length of the list and below
`maxcount` exactly when every message is put into a list that has room.
-/

namespace AliyunIot.Coap

open Lib

def CloudContext.next (ctx : CloudContext) (op : CloudOp) : CloudContext := (op.exec ctx).1

/-- A message is put into the list only while that has room. -/
def HasRoom (ctx : CloudContext) : CloudOp → Prop
  | .send message io => CloudLinks message io → ctx.list.list.length < ctx.list.maxcount.toNat
  | _ => True

/-- In every state reached the list is bounded, and a message that would be put into a
full list is refused with an error and without a change. -/
structure ListBounded (ctx : CloudContext) (ops : List CloudOp) : Prop where
  reached : ∀ pre post, ops = pre ++ post → (run CloudContext.next ctx pre).list.Bounded
  refused : ∀ pre message io post, ops = pre ++ .send message io :: post →
    CloudLinks message io →
    (run CloudContext.next ctx pre).list.maxcount.toNat ≤
      (run CloudContext.next ctx pre).list.list.length →
    (∃ e, (cloudMessageSend (run CloudContext.next ctx pre) message io).ret = some e ∧
      e ≠ coapSuccess) ∧
    (cloudMessageSend (run CloudContext.next ctx pre) message io).ctx =
      run CloudContext.next ctx pre

theorem timer_bounded {ctx : CloudContext} (h : ctx.list.Bounded) :
    (cloudTimerPass ctx).1.list.Bounded := by
  apply h.drop
  rw [List.length_filterMap_eq_countP, List.length_eq_countP_add_countP
    (fun node => (cloudTimerNode node).1.isSome) (l := ctx.list.list)]
  refine congrArg _ (List.countP_congr fun node _ => ?_)
  cases (cloudTimerNode node).1 <;> simp

theorem next_bounded (ctx : CloudContext) (op : CloudOp) (hroom : HasRoom ctx op)
    (h : ctx.list.Bounded) : (ctx.next op).list.Bounded := by
  obtain ⟨ctx', events, hexec, hstep⟩ := exec_step ctx op
  unfold CloudContext.next
  rw [hexec]
  clear hexec
  cases hstep with
  | linked sendbuf hlinks => exact h.append (hroom hlinks) _
  | sent _ _ => exact h
  | acked _ hl _ _ => exact h.replace hl _
  | answered _ hl _ _ => exact h.remove hl
  | ignored _ _ => exact h
  | timer => exact timer_bounded h

theorem next_of_links (ctx : CloudContext) {message : OutMessage} {io : CloudSendIo}
    (h : CloudLinks message io) :
    (ctx.next (.send message io)).list.list.length = ctx.list.list.length + 1 ∧
      (ctx.next (.send message io)).list.maxcount = ctx.list.maxcount := by
  obtain ⟨ctx', events, hexec, hstep⟩ := exec_step ctx (.send message io)
  unfold CloudContext.next
  rw [hexec]
  clear hexec
  cases hstep with
  | linked sendbuf _ => exact ⟨List.length_append, rfl⟩
  | sent hnot _ => exact absurd h hnot

/-- **The bound of the cloud client's list.** A run keeps it exactly when every message
is put into a list with room. -/
theorem listBounded_iff (maxcount : UInt8) (ops : List CloudOp) :
    ListBounded (cloudContextCreate maxcount) ops ↔
      Meets CloudContext.next HasRoom (cloudContextCreate maxcount) ops := by
  constructor
  · rintro ⟨hreached, -⟩
    refine meets_iff_forall_split.mpr fun pre op post hops => ?_
    cases op with
    | datagram buf datalen io => trivial
    | timer => trivial
    | send message io =>
      intro hlinks
      obtain ⟨hlen, hmax⟩ := next_of_links (run CloudContext.next _ pre) hlinks
      have hnext := (hreached (pre ++ [.send message io]) post (by simp [hops])).bounded
      rw [run_concat, hlen, hmax] at hnext
      exact hnext
  · intro hmeets
    constructor
    · rintro pre post rfl
      exact run_invariant_of_meets next_bounded (meets_append.mp hmeets).1 (.empty maxcount)
    · intro pre message io post hops hlinks hfull
      have hroom := meets_iff_forall_split.mp hmeets pre _ post hops hlinks
      exact absurd hfull (Nat.not_le.mpr hroom)

/-- A confirmable `GET`. -/
def cloudGet : OutMessage :=
  (coapMessageTypeSet (coapMessageCodeSet coapMessageInit coapMsgCodeGet) coapMessageTypeCon).2

/-- The second request goes into a list of at most one node, as a success. -/
theorem cloudList_not_bounded :
    (run CloudContext.next (cloudContextCreate 1)
      [.send cloudGet ⟨4, true, true⟩, .send cloudGet ⟨4, true, true⟩]).list.list.length = 2 ∧
    (cloudMessageSend (run CloudContext.next (cloudContextCreate 1)
      [.send cloudGet ⟨4, true, true⟩]) cloudGet ⟨4, true, true⟩).ret = some coapSuccess ∧
    ¬ ListBounded (cloudContextCreate 1)
      [.send cloudGet ⟨4, true, true⟩, .send cloudGet ⟨4, true, true⟩] := by
  have hlen : (run CloudContext.next (cloudContextCreate 1)
      [.send cloudGet ⟨4, true, true⟩, .send cloudGet ⟨4, true, true⟩]).list.list.length = 2 := by
    decide
  refine ⟨hlen, by decide, fun h => ?_⟩
  have hle := (h.reached _ [] (List.append_nil _).symm).bounded
  rw [hlen] at hle
  revert hle
  decide

end AliyunIot.Coap
