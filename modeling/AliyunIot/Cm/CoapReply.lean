import AliyunIot.Cm.Coap
import AliyunIot.Lib.Run

/-!
# Responses reach their own publisher

`Replied` says that every callback invoked for the response to a published message is
that of the call which published it, with its topic and context, once at most, that a
response which has been handled has invoked it, that a response which comes in is handed to
it by the yield thread's next callback, and that no freed record was touched.
`replied_run`: this holds in every run in which a message takes the token its publisher
has read, no token comes twice, no allocation fails, a response is handled only after its
record is linked, and the connection is not closed while a thread is inside (`Careful`).
-/

namespace AliyunIot.Cm

open Lib

/-- The call a thread is inside. -/
def Publishing.publish : Publishing → Option CoapPublish
  | .idle => none
  | .send publish _ => some publish
  | .link publish _ => some publish

/-- The response whose callback is still to come. -/
def Responding.awaits : Responding → Option Nat
  | .callback response .. => some response
  | _ => none

namespace CoapReplies

def sentIds (s : CoapReplies) : List Nat := s.sent.map fun x => x.publish.id

/-- The responses a callback was invoked for. -/
def answered (s : CoapReplies) : List Nat := s.calls.map CoapAckCall.response

/-- The condition on a step. -/
def Careful (s : CoapReplies) : CoapOp → Prop
  | .send thread outcome => ∀ publish token, s.threads thread = .send publish token →
    outcome = .success →
      (publish.ack.isSome → token = s.coapToken) ∧ s.coapToken ∉ s.sent.map CoapSent.token
  | .link thread malloc => ∀ publish token, s.threads thread = .link publish token →
    publish.ack.isSome → malloc = true
  | .respond id read malloc => read = true ∧ malloc id = true ∧
    ∀ thread publish token, s.threads thread = .link publish token → publish.id ≠ id
  | .close => s.walker = .idle ∧ ∀ thread, s.threads thread = .idle
  | _ => True

/-- What a run has to keep of the responses and of the records. -/
structure Replied (s : CoapReplies) : Prop where
  own : ∀ c ∈ s.calls, c.owner = c.response ∧
    ∃ x ∈ s.sent, x.publish.id = c.response ∧ x.publish.topic = c.topic ∧
      x.publish.ack = some c.ack
  once : s.answered.Nodup
  reached : ∀ x ∈ s.sent, x.publish.ack.isSome → x.publish.id ∈ s.handled →
    x.publish.id ∈ s.answered
  -- a response that comes in now, whatever the other threads do before the callback
  delivered : ∀ x ∈ s.sent, ∀ ack, x.publish.ack = some ack → s.connected = true →
    s.walker = .idle → ∀ malloc more,
    Meets next Careful s (.respond x.publish.id true malloc :: more) → CoapOp.callback ∈ more →
      ⟨x.publish.id, x.publish.id, x.publish.topic, ack⟩ ∈
        (run next s (.respond x.publish.id true malloc :: more)).calls
  clean : s.heap.Clean

/-! ## The invariant -/

/-- The record of a message that was published. -/
structure Stands (node : CoapResponseNode) (x : CoapSent) : Prop where
  id : node.id = x.publish.id
  token : node.tokenNum = x.token
  topic : node.topic = x.publish.topic
  ack : x.publish.ack = some ⟨node.responceCb, node.context⟩

/-- The messages, the records and the memory in a careful run. -/
structure Owned (s : CoapReplies) : Prop where
  fresh : ∀ id ∈ s.sentIds, id < s.nextId
  distinct : s.sentIds.Nodup
  tokens : (s.sent.map CoapSent.token).Nodup
  sending : ∀ t publish token, s.threads t = .send publish token →
    publish.id < s.nextId ∧ publish.id ∉ s.sentIds
  linking : ∀ t publish token, s.threads t = .link publish token →
    (∃ x ∈ s.sent, x.publish = publish ∧ (publish.ack.isSome → x.token = token)) ∧
      publish.id ∉ ids s.list ∧ publish.id ∉ s.heap.freed
  apart : ∀ t u p q, p ∈ (s.threads t).publish → q ∈ (s.threads u).publish → p.id = q.id → t = u
  stands : ∀ node ∈ s.list, ∃ x ∈ s.sent, Stands node x
  known : ∀ id ∈ s.heap.freed, id ∈ s.sentIds
  once : (ids s.list ++ s.heap.freed).Nodup
  faults : s.heap.faults = []

def Holds (s : CoapReplies) : Responding → Prop
  | .idle => True
  | .callback response token node next =>
    (∃ x ∈ s.sent, Stands node x ∧ x.publish.id = response ∧ x.token = token) ∧
      response ∈ s.heap.freed ∧ response ∉ s.answered ∧ ∀ id ∈ next, id ∈ ids s.list
  | .called response token next =>
    (∃ x ∈ s.sent, x.publish.id = response ∧ x.token = token) ∧
      response ∈ s.heap.freed ∧ response ∈ s.answered ∧ ∀ id ∈ next, id ∈ ids s.list

/-- The responses in a careful run. -/
structure Answered (s : CoapReplies) : Prop where
  placed : ∀ x ∈ s.sent, x.publish.ack.isSome →
    x.publish.id ∈ ids s.list ∨ x.publish.id ∈ s.heap.freed ∨
      ∃ t token, s.threads t = .link x.publish token
  gone : s.connected = true → ∀ id ∈ s.heap.freed, id ∈ s.answered ∨ id ∈ s.walker.awaits
  holds : s.Holds s.walker
  own : ∀ c ∈ s.calls, c.owner = c.response ∧
    ∃ x ∈ s.sent, x.publish.id = c.response ∧ x.publish.topic = c.topic ∧
      x.publish.ack = some c.ack
  past : ∀ id ∈ s.answered, id ∈ s.heap.freed
  single : s.answered.Nodup
  heard : ∀ id ∈ s.handled, id ∈ s.sentIds
  reached : ∀ x ∈ s.sent, x.publish.ack.isSome → x.publish.id ∈ s.handled →
    x.publish.id ∈ s.answered

theorem mem_ids {id : Nat} {l : List CoapResponseNode} : id ∈ ids l ↔ ∃ n ∈ l, n.id = id :=
  List.mem_map

theorem move_threads_self (s : CoapReplies) (t : Nat) (p : Publishing) :
    (s.move t p).threads t = p := Function.update_self ..

theorem move_threads_of_ne {s : CoapReplies} {t u : Nat} {p : Publishing} (hut : u ≠ t) :
    (s.move t p).threads u = s.threads u := Function.update_of_ne hut ..

theorem move_cases {s : CoapReplies} {t u : Nat} {p q : Publishing}
    (h : (s.move t p).threads u = q) : u = t ∧ p = q ∨ u ≠ t ∧ s.threads u = q := by
  by_cases hut : u = t
  · rw [hut, move_threads_self] at h
    exact .inl ⟨hut, h⟩
  · rw [move_threads_of_ne hut] at h
    exact .inr ⟨hut, h⟩

theorem init_owned (coapToken : UInt32) : (init coapToken).Owned where
  fresh := nofun
  distinct := List.nodup_nil
  tokens := List.nodup_nil
  sending _ _ _ := nofun
  linking _ _ _ := nofun
  apart _ _ _ _ := nofun
  stands := nofun
  known := nofun
  once := List.nodup_nil
  faults := rfl

theorem init_answered (coapToken : UInt32) : (init coapToken).Answered where
  placed := nofun
  gone _ := nofun
  holds := trivial
  own := nofun
  past := nofun
  single := List.nodup_nil
  heard := nofun
  reached := nofun

section
variable {s : CoapReplies}

variable {x : CoapSent}

theorem Owned.sent_eq_of_id (h : s.Owned) {y : CoapSent} (hx : x ∈ s.sent) (hy : y ∈ s.sent)
    (hid : x.publish.id = y.publish.id) : x = y := List.inj_on_of_nodup_map h.distinct hx hy hid

theorem Owned.sent_eq_of_token (h : s.Owned) {y : CoapSent} (hx : x ∈ s.sent) (hy : y ∈ s.sent)
    (htoken : x.token = y.token) : x = y := List.inj_on_of_nodup_map h.tokens hx hy htoken

variable {id : Nat}

theorem Owned.listed_sent (h : s.Owned) (hid : id ∈ ids s.list) : id ∈ s.sentIds := by
  obtain ⟨n, hn, rfl⟩ := mem_ids.mp hid
  obtain ⟨x, hx, hstands⟩ := h.stands n hn
  exact List.mem_map.mpr ⟨x, hx, hstands.id.symm⟩

variable {t : Nat}

theorem Owned.held_lt (h : s.Owned) {p : CoapPublish}
    (hp : p ∈ (s.threads t).publish) : p.id < s.nextId := by
  cases ht : s.threads t with
  | idle => rw [ht] at hp; cases hp
  | send q token => rw [ht] at hp; cases hp; exact (h.sending t _ token ht).1
  | link q token =>
    rw [ht] at hp
    cases hp
    obtain ⟨⟨x, hx, rfl, -⟩, -⟩ := h.linking t _ token ht
    exact h.fresh _ (List.mem_map_of_mem hx)

theorem Owned.live (h : s.Owned) (hid : id ∈ ids s.list) : id ∉ s.heap.freed :=
  fun hf => List.disjoint_of_nodup_append h.once hid hf

theorem Owned.touch_listed (h : s.Owned) {l : List CoapResponseNode} (hl : ∀ n ∈ l, n ∈ s.list) :
    s.heap.touch (ids l) = s.heap := by
  apply Ledger.touch_of_live
  intro id hid
  obtain ⟨n, hn, rfl⟩ := mem_ids.mp hid
  exact h.live (List.mem_map_of_mem (hl n hn))

/-! ## The publishers -/

theorem Owned.leave (h : s.Owned) (t : Nat) : (s.move t .idle).Owned where
  fresh := h.fresh
  distinct := h.distinct
  tokens := h.tokens
  sending u p token hu := by
    rcases move_cases hu with ⟨-, heq⟩ | ⟨-, hu⟩
    · cases heq
    · exact h.sending u p token hu
  linking u p token hu := by
    rcases move_cases hu with ⟨-, heq⟩ | ⟨-, hu⟩
    · cases heq
    · exact h.linking u p token hu
  apart u v p q hp hq hpq := by
    by_cases hut : u = t
    · rw [hut, move_threads_self] at hp
      cases hp
    by_cases hvt : v = t
    · rw [hvt, move_threads_self] at hq
      cases hq
    rw [move_threads_of_ne hut] at hp
    rw [move_threads_of_ne hvt] at hq
    exact h.apart u v p q hp hq hpq
  stands := h.stands
  known := h.known
  once := h.once
  faults := h.faults

theorem Answered.leave (h : s.Answered)
    (hnot : ∀ p token, s.threads t = .link p token → p.ack.isSome = false) :
    (s.move t .idle).Answered where
  placed x hx hack := by
    rcases h.placed x hx hack with hl | hf | ⟨u, token, hu⟩
    · exact .inl hl
    · exact .inr (.inl hf)
    · refine .inr (.inr ⟨u, token, ?_⟩)
      by_cases hut : u = t
      · rw [hut] at hu
        rw [hnot _ _ hu] at hack
        cases hack
      · rw [move_threads_of_ne hut]
        exact hu
  gone := h.gone
  holds := h.holds
  own := h.own
  past := h.past
  single := h.single
  heard := h.heard
  reached := h.reached

theorem Owned.publish (h : s.Owned) (topic : CStr) (ack : Option CmAck) :
    ({ s.move t (.send ⟨s.nextId, topic, ack⟩ s.coapToken) with
      nextId := s.nextId + 1 } : CoapReplies).Owned where
  fresh id hid := Nat.lt_succ_of_lt (h.fresh id hid)
  distinct := h.distinct
  tokens := h.tokens
  sending u p token hu := by
    rcases move_cases hu with ⟨-, heq⟩ | ⟨-, hu⟩
    · cases heq
      exact ⟨Nat.lt_succ_self _, fun hid => Nat.lt_irrefl _ (h.fresh _ hid)⟩
    · obtain ⟨hlt, hnot⟩ := h.sending u p token hu
      exact ⟨Nat.lt_succ_of_lt hlt, hnot⟩
  linking u p token hu := by
    rcases move_cases hu with ⟨-, heq⟩ | ⟨-, hu⟩
    · cases heq
    · exact h.linking u p token hu
  apart u v p q hp hq hpq := by
    -- the new call has an id that no other has
    by_cases hut : u = t <;> by_cases hvt : v = t
    · rw [hut, hvt]
    · rw [hut, move_threads_self] at hp
      rw [move_threads_of_ne hvt] at hq
      cases hp
      exact absurd hpq.symm (Nat.ne_of_lt (h.held_lt hq))
    · rw [hvt, move_threads_self] at hq
      rw [move_threads_of_ne hut] at hp
      cases hq
      exact absurd hpq (Nat.ne_of_lt (h.held_lt hp))
    · rw [move_threads_of_ne hut] at hp
      rw [move_threads_of_ne hvt] at hq
      exact h.apart u v p q hp hq hpq
  stands := h.stands
  known := h.known
  once := h.once
  faults := h.faults

theorem Answered.move (h : s.Answered) {p : Publishing}
    (hnot : ∀ q token, s.threads t ≠ .link q token) : (s.move t p).Answered where
  placed x hx hack := by
    rcases h.placed x hx hack with hl | hf | ⟨u, token, hu⟩
    · exact .inl hl
    · exact .inr (.inl hf)
    · refine .inr (.inr ⟨u, token, ?_⟩)
      by_cases hut : u = t
      · rw [hut] at hu
        exact absurd hu (hnot _ _)
      · rw [move_threads_of_ne hut]
        exact hu
  gone := h.gone
  holds := h.holds
  own := h.own
  past := h.past
  single := h.single
  heard := h.heard
  reached := h.reached

variable {token : UInt32}

theorem Owned.send (h : s.Owned) {p : CoapPublish}
    (ht : s.threads t = .send p token) (htoken : p.ack.isSome → token = s.coapToken)
    (hnew : s.coapToken ∉ s.sent.map CoapSent.token) :
    ({ s.move t (.link p token) with
      coapToken := s.coapToken + 1,
      sent := s.sent ++ [⟨p, s.coapToken⟩] } : CoapReplies).Owned := by
  obtain ⟨hlt, hnot⟩ := h.sending t p token ht
  have hp : p ∈ (s.threads t).publish := by rw [ht]; rfl
  have hids : (s.sent ++ [(⟨p, s.coapToken⟩ : CoapSent)]).map (fun x => x.publish.id) =
      s.sentIds ++ [p.id] := List.map_append
  have hother : ∀ u q, u ≠ t → q ∈ (s.threads u).publish → q.id ≠ p.id :=
    fun u q hut hq hqp => hut (h.apart u t q p hq hp hqp)
  refine ⟨?_, ?_, ?_, ?_, ?_, ?_, ?_, ?_, h.once, h.faults⟩
  · intro id hid
    rw [sentIds, hids] at hid
    rcases List.mem_append.mp hid with hid | hid
    · exact h.fresh id hid
    · rw [List.mem_singleton.mp hid]
      exact hlt
  · rw [sentIds, hids]
    exact List.nodup_append'.mpr ⟨h.distinct, List.nodup_singleton _,
      fun id hid hid' => hnot (List.mem_singleton.mp hid' ▸ hid)⟩
  · rw [List.map_append]
    refine List.nodup_append'.mpr ⟨h.tokens, List.nodup_singleton _, fun tok htok htok' => ?_⟩
    rw [List.mem_singleton.mp htok'] at htok
    exact hnew htok
  · intro u q tok hu
    rcases move_cases hu with ⟨-, heq⟩ | ⟨hut, hu'⟩
    · cases heq
    obtain ⟨hqlt, hqnot⟩ := h.sending u q tok hu'
    refine ⟨hqlt, fun hid => ?_⟩
    rw [sentIds, hids] at hid
    rcases List.mem_append.mp hid with hid | hid
    · exact hqnot hid
    · exact hother u q hut (by rw [hu']; rfl) (List.mem_singleton.mp hid)
  · intro u q tok hu
    rcases move_cases hu with ⟨-, heq⟩ | ⟨-, hu⟩
    · cases heq
      refine ⟨⟨_, List.mem_append_right _ List.mem_cons_self, rfl, fun hack => (htoken hack).symm⟩,
        fun hid => hnot (h.listed_sent hid), fun hid => hnot (h.known _ hid)⟩
    · obtain ⟨⟨x, hx, hxq⟩, hfree⟩ := h.linking u q tok hu
      exact ⟨⟨x, List.mem_append_left _ hx, hxq⟩, hfree⟩
  · intro u v q r hq hr hqr
    by_cases hut : u = t <;> by_cases hvt : v = t
    · rw [hut, hvt]
    · rw [hut, move_threads_self] at hq
      rw [move_threads_of_ne hvt] at hr
      cases hq
      exact absurd hqr.symm (hother v r hvt hr)
    · rw [hvt, move_threads_self] at hr
      rw [move_threads_of_ne hut] at hq
      cases hr
      exact absurd hqr (hother u q hut hq)
    · rw [move_threads_of_ne hut] at hq
      rw [move_threads_of_ne hvt] at hr
      exact h.apart u v q r hq hr hqr
  · intro node hnode
    obtain ⟨x, hx, hstands⟩ := h.stands node hnode
    exact ⟨x, List.mem_append_left _ hx, hstands⟩
  · intro id hid
    rw [sentIds, hids]
    exact List.mem_append_left _ (h.known id hid)

theorem Holds.mono {s' : CoapReplies} {w : Responding} (h : s.Holds w)
    (hsent : ∀ x ∈ s.sent, x ∈ s'.sent) (hfreed : s'.heap = s.heap) (hcalls : s'.calls = s.calls)
    (hlist : ∀ id ∈ ids s.list, id ∈ ids s'.list) : s'.Holds w := by
  cases w with
  | idle => exact trivial
  | callback response token node next =>
    obtain ⟨⟨x, hx, hrest⟩, hf, hnot, hnext⟩ := h
    refine ⟨⟨x, hsent x hx, hrest⟩, ?_, ?_, fun id hid => hlist id (hnext id hid)⟩
    · rw [hfreed]
      exact hf
    · rw [answered, hcalls]
      exact hnot
  | called response token next =>
    obtain ⟨⟨x, hx, hrest⟩, hf, hin, hnext⟩ := h
    refine ⟨⟨x, hsent x hx, hrest⟩, ?_, ?_, fun id hid => hlist id (hnext id hid)⟩
    · rw [hfreed]
      exact hf
    · rw [answered, hcalls]
      exact hin

theorem Answered.send (h : s.Answered) (ho : s.Owned) {p : CoapPublish}
    (ht : s.threads t = .send p token) :
    ({ s.move t (.link p token) with
      coapToken := s.coapToken + 1,
      sent := s.sent ++ [⟨p, s.coapToken⟩] } : CoapReplies).Answered where
  placed x hx hack := by
    rcases List.mem_append.mp hx with hx | hx
    · rcases h.placed x hx hack with hl | hf | ⟨u, tok, hu⟩
      · exact .inl hl
      · exact .inr (.inl hf)
      · refine .inr (.inr ⟨u, tok, ?_⟩)
        have hut : u ≠ t := by
          rintro rfl
          rw [ht] at hu
          cases hu
        exact (move_threads_of_ne hut).trans hu
    · cases List.mem_singleton.mp hx
      exact .inr (.inr ⟨t, token, move_threads_self ..⟩)
  gone := h.gone
  holds := h.holds.mono (fun _ hx => List.mem_append_left _ hx) rfl rfl fun _ hid => hid
  own c hc := by
    obtain ⟨howner, x, hx, hrest⟩ := h.own c hc
    exact ⟨howner, x, List.mem_append_left _ hx, hrest⟩
  past := h.past
  single := h.single
  heard id hid := by
    obtain ⟨x, hx, rfl⟩ := List.mem_map.mp (h.heard id hid)
    exact List.mem_map_of_mem (List.mem_append_left _ hx)
  reached x hx hack hid := by
    rcases List.mem_append.mp hx with hx | hx
    · exact h.reached x hx hack hid
    · -- a response is handled only after its message was published
      cases List.mem_singleton.mp hx
      exact absurd (h.heard _ hid) (ho.sending t p token ht).2

theorem Owned.link (h : s.Owned) {p : CoapPublish} {ack : CmAck}
    (ht : s.threads t = .link p token) (hack : p.ack = some ack) :
    ({ s.move t .idle with
      list := s.list ++ [⟨p.id, token, p.topic, ack.ackCb, ack.cbContext⟩] } :
        CoapReplies).Owned := by
  obtain ⟨⟨x, hx, hxp, htoken⟩, hlist, hfreed⟩ := h.linking t p token ht
  have hp : p ∈ (s.threads t).publish := by rw [ht]; rfl
  have hids : ids (s.list ++ [⟨p.id, token, p.topic, ack.ackCb, ack.cbContext⟩]) =
      ids s.list ++ [p.id] := List.map_append
  have hleft := h.leave t
  refine { hleft with linking := fun u q tok hu => ?_, stands := fun node hnode => ?_, once := ?_ }
  · obtain ⟨hsent, hnot, hfree⟩ := hleft.linking u q tok hu
    refine ⟨hsent, fun hid => ?_, hfree⟩
    rw [hids] at hid
    rcases List.mem_append.mp hid with hid | hid
    · exact hnot hid
    · have hut : u ≠ t := by
        rintro rfl
        cases (move_threads_self ..).symm.trans hu
      have hu' : s.threads u = .link q tok := (move_threads_of_ne hut).symm.trans hu
      exact hut (h.apart u t q p (by rw [hu']; rfl) hp (List.mem_singleton.mp hid))
  · rcases List.mem_append.mp hnode with hnode | hnode
    · exact h.stands node hnode
    · cases List.mem_singleton.mp hnode
      subst hxp
      exact ⟨x, hx, rfl, (htoken (by rw [hack]; rfl)).symm, rfl, hack⟩
  · rw [hids, List.append_assoc]
    apply List.nodup_append'.mpr
    obtain ⟨hl, hf, hd⟩ := List.nodup_append'.mp h.once
    refine ⟨hl, List.nodup_cons.mpr ⟨hfreed, hf⟩, fun id hid hid' => ?_⟩
    rcases List.mem_cons.mp hid' with rfl | hid'
    · exact hlist hid
    · exact hd hid hid'

theorem Answered.link (h : s.Answered) {p : CoapPublish}
    (ht : s.threads t = .link p token) (node : CoapResponseNode) (hnode : node.id = p.id) :
    ({ s.move t .idle with list := s.list ++ [node] } : CoapReplies).Answered where
  placed x hx hack := by
    have hids : ids (s.list ++ [node]) = ids s.list ++ [p.id] := by
      rw [← hnode]
      exact List.map_append
    rw [hids]
    rcases h.placed x hx hack with hl | hf | ⟨u, tok, hu⟩
    · exact .inl (List.mem_append_left _ hl)
    · exact .inr (.inl hf)
    · by_cases hut : u = t
      · rw [hut, ht] at hu
        cases hu
        exact .inl (List.mem_append_right _ List.mem_cons_self)
      · exact .inr (.inr ⟨u, tok, (move_threads_of_ne hut).trans hu⟩)
  gone := h.gone
  holds := h.holds.mono (fun _ hx => hx) rfl rfl fun id hid => by
    obtain ⟨n, hn, rfl⟩ := mem_ids.mp hid
    exact List.mem_map_of_mem (List.mem_append_left _ hn)
  own := h.own
  past := h.past
  single := h.single
  heard := h.heard
  reached := h.reached

/-! ## The yield thread -/

theorem mem_list_of_split {q : CoapResponseNode → Bool} {l as bs : List CoapResponseNode}
    {node : CoapResponseNode} (hsplit : splitFirst q l = some (as, node, bs)) :
    node ∈ l ∧ q node = true := by
  obtain ⟨rfl, hq, -⟩ := splitFirst_eq_some_iff.mp hsplit
  exact ⟨List.mem_append_right _ List.mem_cons_self, hq⟩

theorem Owned.drop (h : s.Owned) {node : CoapResponseNode} (hnode : node ∈ s.list)
    (w : Responding) :
    ({ s with
      list := s.list.filter fun n => n.id ≠ node.id, heap := s.heap.free [node.id],
      walker := w } : CoapReplies).Owned := by
  have hid : node.id ∈ ids s.list := List.mem_map_of_mem hnode
  have hheap : s.heap.free [node.id] = ⟨s.heap.freed ++ [node.id], s.heap.faults⟩ := by
    apply Ledger.free_of_live
    intro id hmem
    rw [List.mem_singleton.mp hmem]
    exact h.live hid
  have hsub : ∀ id ∈ ids (s.list.filter fun n => n.id ≠ node.id), id ∈ ids s.list := by
    intro id hmem
    obtain ⟨n, hn, rfl⟩ := mem_ids.mp hmem
    exact List.mem_map_of_mem (List.mem_filter.mp hn).1
  rw [hheap]
  refine { h with
    linking := fun u q tok hu => ?_, stands := fun n hn => ?_, known := fun id hmem => ?_,
    once := ?_ }
  · obtain ⟨hsent, hnot, hfree⟩ := h.linking u q tok hu
    refine ⟨hsent, fun hmem => hnot (hsub _ hmem), fun hmem => ?_⟩
    rcases List.mem_append.mp hmem with hmem | hmem
    · exact hfree hmem
    · rw [List.mem_singleton.mp hmem] at hnot
      exact hnot hid
  · exact h.stands n (List.mem_filter.mp hn).1
  · rcases List.mem_append.mp hmem with hmem | hmem
    · exact h.known id hmem
    · rw [List.mem_singleton.mp hmem]
      exact h.listed_sent hid
  · obtain ⟨hl, hf, hd⟩ := List.nodup_append'.mp h.once
    apply List.nodup_append'.mpr
    refine ⟨hl.sublist (List.filter_sublist.map _), ?_, fun id hmem hmem' => ?_⟩
    · exact List.nodup_append'.mpr ⟨hf, List.nodup_singleton _, fun id hmem hmem' =>
        h.live hid (List.mem_singleton.mp hmem' ▸ hmem)⟩
    · rcases List.mem_append.mp hmem' with hmem' | hmem'
      · exact hd (hsub id hmem) hmem'
      · obtain ⟨n, hn, hne⟩ := mem_ids.mp hmem
        apply of_decide_eq_true (List.mem_filter.mp hn).2
        rw [hne, List.mem_singleton.mp hmem']

theorem Owned.walk (h : s.Owned) {rest : List CoapResponseNode} (hrest : ∀ n ∈ rest, n ∈ s.list)
    (response : Nat) (token : UInt32) (malloc : Nat → Bool) :
    (s.walk response token rest malloc).Owned := by
  unfold CoapReplies.walk
  cases hsplit : splitFirst (fun node => decide (node.tokenNum = token) && malloc node.id) rest with
  | none =>
    rw [h.touch_listed hrest]
    exact { h with }
  | some found =>
    obtain ⟨as, node, bs⟩ := found
    have hmem := (mem_list_of_split hsplit).1
    have htouch : s.heap.touch (ids (as ++ node :: bs.take 1)) = s.heap := by
      apply h.touch_listed
      intro n hn
      apply hrest
      rw [(splitFirst_eq_some_iff.mp hsplit).1]
      exact ((List.take_sublist 1 bs).cons_cons node |>.append_left as).subset hn
    dsimp only
    rw [htouch]
    exact h.drop (hrest node hmem) _

theorem Owned.id_of_token (h : s.Owned) (hx : x ∈ s.sent) {n : CoapResponseNode}
    (hn : n ∈ s.list) (htoken : n.tokenNum = x.token) : Stands n x := by
  obtain ⟨y, hy, hstands⟩ := h.stands n hn
  obtain rfl := h.sent_eq_of_token hx hy (htoken.symm.trans hstands.token)
  exact hstands

theorem Owned.stands_of_id (h : s.Owned) (hx : x ∈ s.sent)
    (hid : x.publish.id ∈ ids s.list) : ∃ n ∈ s.list, Stands n x := by
  obtain ⟨n, hn, hnid⟩ := mem_ids.mp hid
  obtain ⟨y, hy, hstands⟩ := h.stands n hn
  obtain rfl := h.sent_eq_of_id hx hy (hnid.symm.trans hstands.id)
  exact ⟨n, hn, hstands⟩

variable {response : Nat}

theorem Answered.done (h : s.Answered) (hsent : response ∈ s.sentIds)
    (hdone : ∀ x ∈ s.sent, x.publish.id = response → x.publish.ack.isSome →
      response ∈ s.answered) (hawaits : s.walker.awaits = none) :
    ({ s with walker := .idle, handled := s.handled ++ [response] } : CoapReplies).Answered := by
  refine { h with
    gone := fun hopen id hid => ?_, holds := trivial, heard := fun id hid => ?_,
    reached := fun x hx hack hid => ?_ }
  · rcases h.gone hopen id hid with hin | hin
    · exact .inl hin
    · rw [hawaits] at hin
      cases hin
  · rcases List.mem_append.mp hid with hid | hid
    · exact h.heard id hid
    · rw [List.mem_singleton.mp hid]
      exact hsent
  · rcases List.mem_append.mp hid with hid | hid
    · exact h.reached x hx hack hid
    · rw [List.mem_singleton.mp hid]
      exact hdone x hx (List.mem_singleton.mp hid) hack

variable {malloc : Nat → Bool}

theorem Answered.respond (h : s.Answered) (ho : s.Owned) (hx : x ∈ s.sent)
    (hopen : s.connected = true) (hidle : s.walker = .idle) (hmalloc : malloc x.publish.id = true)
    (hlinked : ∀ t p token, s.threads t = .link p token → p.id ≠ x.publish.id) :
    (s.walk x.publish.id x.token s.list malloc).Answered := by
  have hawaits : s.walker.awaits = none := by rw [hidle]; rfl
  have hgone : ∀ id ∈ s.heap.freed, id ∈ s.answered := by
    intro id hid
    rcases h.gone hopen id hid with hin | hin
    · exact hin
    · rw [hawaits] at hin
      cases hin
  unfold CoapReplies.walk
  cases hsplit : splitFirst (fun node => decide (node.tokenNum = x.token) && malloc node.id)
    s.list with
  | none =>
    rw [ho.touch_listed fun _ hn => hn]
    refine h.done (List.mem_map_of_mem hx) (fun y hy hyx hack => ?_) hawaits
    obtain rfl := ho.sent_eq_of_id hy hx hyx
    rcases h.placed y hy hack with hl | hf | ⟨t, token, ht⟩
    · obtain ⟨n, hn, hstands⟩ := ho.stands_of_id hy hl
      have hmiss := splitFirst_eq_none_iff.mp hsplit n hn
      rw [hstands.token, hstands.id, hmalloc] at hmiss
      simp at hmiss
    · exact hgone _ hf
    · exact absurd rfl (hlinked t _ token ht)
  | some found =>
    obtain ⟨as, node, bs⟩ := found
    obtain ⟨hnode, hmatch⟩ := mem_list_of_split hsplit
    obtain ⟨hlist, -, -⟩ := splitFirst_eq_some_iff.mp hsplit
    have hstands : Stands node x :=
      ho.id_of_token hx hnode (of_decide_eq_true (Bool.and_eq_true_iff.mp hmatch).1)
    have hid : node.id ∈ ids s.list := List.mem_map_of_mem hnode
    have htouch : s.heap.touch (ids (as ++ node :: bs.take 1)) = s.heap := by
      apply ho.touch_listed
      intro n hn
      rw [hlist]
      exact ((List.take_sublist 1 bs).cons_cons node |>.append_left as).subset hn
    have hheap : s.heap.free [node.id] = ⟨s.heap.freed ++ [node.id], s.heap.faults⟩ := by
      apply Ledger.free_of_live
      intro id hmem
      rw [List.mem_singleton.mp hmem]
      exact ho.live hid
    dsimp only
    rw [htouch, hheap]
    refine { h with
      placed := fun y hy hack => ?_, gone := fun _ id hmem => ?_, holds := ?_,
      past := fun id hmem => List.mem_append_left _ (h.past id hmem) }
    · rcases h.placed y hy hack with hl | hf | hlink
      · by_cases hyn : y.publish.id = node.id
        · rw [hyn]
          exact .inr (.inl (List.mem_append_right _ List.mem_cons_self))
        · obtain ⟨n, hn, hny⟩ := mem_ids.mp hl
          refine .inl (mem_ids.mpr ⟨n, List.mem_filter.mpr ⟨hn, decide_eq_true ?_⟩, hny⟩)
          rw [hny]
          exact hyn
      · exact .inr (.inl (List.mem_append_left _ hf))
      · exact .inr (.inr hlink)
    · rcases List.mem_append.mp hmem with hmem | hmem
      · exact .inl (hgone id hmem)
      · rw [List.mem_singleton.mp hmem, hstands.id]
        exact .inr rfl
    · refine ⟨⟨x, hx, hstands, rfl, rfl⟩, ?_, ?_, ?_⟩
      · rw [← hstands.id]
        exact List.mem_append_right _ List.mem_cons_self
      · rw [← hstands.id]
        exact fun hin => ho.live hid (h.past _ hin)
      · intro id hnext
        obtain ⟨n, hn, rfl⟩ := Option.map_eq_some_iff.mp hnext
        have hnbs : n ∈ bs := List.mem_of_head? hn
        refine mem_ids.mpr ⟨n, List.mem_filter.mpr ⟨?_, decide_eq_true fun heq => ?_⟩, rfl⟩
        · rw [hlist]
          exact List.mem_append_right _ (List.mem_cons_of_mem _ hnbs)
        · -- the ids of the list are distinct, and the next node comes after
          have hnodup := (List.nodup_append'.mp ho.once).1
          rw [hlist, ids, List.map_append, List.map_cons] at hnodup
          have hcons := (List.nodup_append'.mp hnodup).2.1
          exact (List.nodup_cons.mp hcons).1 (heq ▸ List.mem_map_of_mem hnbs)

theorem Owned.of_same {s' : CoapReplies} (h : s.Owned) (hsent : s'.sent = s.sent)
    (hlist : s'.list = s.list) (hheap : s'.heap = s.heap) (hthreads : s'.threads = s.threads)
    (hnext : s'.nextId = s.nextId) : s'.Owned := by
  cases s
  cases s'
  cases hsent
  cases hlist
  cases hheap
  cases hthreads
  cases hnext
  exact { h with }

theorem Answered.callback (h : s.Answered) {node : CoapResponseNode} {next : Option Nat}
    (hw : s.walker = .callback response token node next) :
    ({ s with
      walker := .called response token next,
      calls := s.calls ++ [⟨response, node.id, node.topic, ⟨node.responceCb, node.context⟩⟩] } :
        CoapReplies).Answered := by
  have hholds := h.holds
  rw [hw] at hholds
  obtain ⟨⟨x, hx, hstands, hid, htoken⟩, hfreed, hnot, hnext⟩ := hholds
  have hanswered : (s.calls ++ [(⟨response, node.id, node.topic,
      ⟨node.responceCb, node.context⟩⟩ : CoapAckCall)]).map CoapAckCall.response =
      s.answered ++ [response] := List.map_append
  refine ⟨h.placed, fun hopen id hmem => ?_, ⟨⟨x, hx, hid, htoken⟩, hfreed, ?_, hnext⟩,
    fun c hc => ?_, fun id hmem => ?_, ?_, h.heard, fun y hy hack hmem => ?_⟩
  · left
    rw [answered, hanswered]
    rcases h.gone hopen id hmem with hin | hin
    · exact List.mem_append_left _ hin
    · rw [hw] at hin
      cases hin
      exact List.mem_append_right _ List.mem_cons_self
  · rw [answered, hanswered]
    exact List.mem_append_right _ List.mem_cons_self
  · rcases List.mem_append.mp hc with hc | hc
    · exact h.own c hc
    · cases List.mem_singleton.mp hc
      exact ⟨hstands.id.trans hid, x, hx, hid, hstands.topic.symm, hstands.ack⟩
  · rw [answered, hanswered] at hmem
    rcases List.mem_append.mp hmem with hmem | hmem
    · exact h.past id hmem
    · rw [List.mem_singleton.mp hmem]
      exact hfreed
  · rw [answered, hanswered]
    refine List.nodup_append'.mpr ⟨h.single, List.nodup_singleton _, fun id hmem hmem' => ?_⟩
    rw [List.mem_singleton.mp hmem'] at hmem
    exact hnot hmem
  · rw [answered, hanswered]
    exact List.mem_append_left _ (h.reached y hy hack hmem)

theorem Answered.resume (h : s.Answered) (ho : s.Owned)
    {next : Option Nat} (hw : s.walker = .called response token next) (malloc : Nat → Bool) :
    (s.resume response token next malloc).Owned ∧
      (s.resume response token next malloc).Answered := by
  have hholds := h.holds
  rw [hw] at hholds
  obtain ⟨⟨x, hx, hid, htoken⟩, hfreed, hin, hnext⟩ := hholds
  have hawaits : s.walker.awaits = none := by rw [hw]; rfl
  have hsent : response ∈ s.sentIds := List.mem_map.mpr ⟨x, hx, hid⟩
  have hdone := h.done hsent (fun _ _ _ _ => hin) hawaits
  unfold CoapReplies.resume
  cases next with
  | none => exact ⟨ho.of_same rfl rfl rfl rfl rfl, hdone⟩
  | some id =>
    have htouch : s.heap.touch [id] = s.heap := by
      apply Ledger.touch_of_live
      intro id' hmem
      rw [List.mem_singleton.mp hmem]
      exact ho.live (hnext id rfl)
    have hrest : ∀ n ∈ s.list.dropWhile fun n => n.id ≠ id, n ∈ s.list :=
      fun n hn => (List.dropWhile_suffix _).subset hn
    have hnone : splitFirst (fun node => decide (node.tokenNum = token) && malloc node.id)
        (s.list.dropWhile fun n => n.id ≠ id) = none := by
      apply splitFirst_eq_none_iff.mpr
      intro n hn
      rw [Bool.and_eq_false_iff]
      left
      apply decide_eq_false
      intro heq
      have hstands := ho.id_of_token hx (hrest n hn) (heq.trans htoken.symm)
      apply ho.live (List.mem_map_of_mem (hrest n hn))
      rw [hstands.id, hid]
      exact hfreed
    dsimp only
    rw [htouch]
    refine ⟨ho.walk hrest response token malloc, ?_⟩
    unfold CoapReplies.walk
    rw [hnone]
    rw [ho.touch_listed hrest]
    exact hdone

theorem Owned.close (h : s.Owned) (hidle : ∀ t, s.threads t = .idle) : (s.next .close).Owned := by
  have hheap : s.heap.free (ids s.list) = ⟨s.heap.freed ++ ids s.list, s.heap.faults⟩ :=
    Ledger.free_of_live fun id hid => h.live hid
  unfold CoapReplies.next
  rw [hheap]
  refine { h with
    linking := fun t p token ht => ?_, stands := nofun, known := fun id hid => ?_, once := ?_ }
  · rw [hidle t] at ht
    cases ht
  · rcases List.mem_append.mp hid with hid | hid
    · exact h.known id hid
    · exact h.listed_sent hid
  · have hcomm := List.nodup_append_comm.mp h.once
    exact hcomm

theorem Answered.close (h : s.Answered) (ho : s.Owned) (hwalker : s.walker = .idle) :
    (s.next .close).Answered := by
  have hheap : s.heap.free (ids s.list) = ⟨s.heap.freed ++ ids s.list, s.heap.faults⟩ :=
    Ledger.free_of_live fun id hid => ho.live hid
  unfold CoapReplies.next
  rw [hheap]
  refine { h with
    placed := fun x hx hack => ?_, gone := nofun, holds := ?_,
    past := fun id hid => List.mem_append_left _ (h.past id hid) }
  · rcases h.placed x hx hack with hl | hf | hlink
    · exact .inr (.inl (List.mem_append_right _ hl))
    · exact .inr (.inl (List.mem_append_left _ hf))
    · exact .inr (.inr hlink)
  · rw [hwalker]
    exact trivial

/-- The invariant of careful runs. -/
structure Inv (s : CoapReplies) : Prop where
  owned : s.Owned
  answered : s.Answered

theorem Inv.send (h : s.Inv) {outcome : SendOutcome}
    (hc : s.Careful (.send t outcome)) : (s.next (.send t outcome)).Inv := by
  unfold CoapReplies.next
  dsimp only
  cases ht : s.threads t with
  | send p token =>
    have hleave : (s.move t .idle).Inv :=
      ⟨h.owned.leave t, h.answered.move fun _ _ hl => by rw [ht] at hl; cases hl⟩
    cases outcome with
    | refused => exact hleave
    | failed =>
      exact ⟨hleave.owned.of_same rfl rfl rfl rfl rfl, { hleave.answered with }⟩
    | success =>
      obtain ⟨htoken, hnew⟩ := hc p token ht rfl
      exact ⟨h.owned.send ht htoken hnew, h.answered.send h.owned ht⟩
  | _ => exact h

theorem Inv.link (h : s.Inv) {malloc : Bool} (hc : s.Careful (.link t malloc)) :
    (s.next (.link t malloc)).Inv := by
  unfold CoapReplies.next
  dsimp only
  cases ht : s.threads t with
  | link p token =>
    dsimp only
    cases hack : p.ack with
    | none =>
      refine ⟨h.owned.leave t, h.answered.leave fun q token hq => ?_⟩
      rw [ht] at hq
      cases hq
      rw [hack]
      rfl
    | some ack =>
      have hmalloc : malloc = true := hc p token ht (by rw [hack]; rfl)
      dsimp only
      rw [if_neg (by rw [hmalloc]; decide)]
      exact ⟨h.owned.link ht hack, h.answered.link ht _ rfl⟩
  | _ => exact h

theorem Inv.respond (h : s.Inv) {read : Bool}
    (hc : s.Careful (.respond id read malloc)) : (s.next (.respond id read malloc)).Inv := by
  obtain ⟨hread, hmalloc, hlinked⟩ := hc
  unfold CoapReplies.next
  dsimp only
  by_cases hgo : s.connected = true ∧ s.walker = .idle
  · rw [if_pos hgo]
    cases hfind : s.sent.find? fun x => x.publish.id = id with
    | none => exact h
    | some x =>
      have hx : x ∈ s.sent := List.mem_of_find?_eq_some hfind
      have hid := List.find?_some hfind
      obtain rfl : x.publish.id = id := of_decide_eq_true hid
      dsimp only
      rw [if_neg (by rw [hread]; decide)]
      exact ⟨h.owned.walk (fun _ hn => hn) _ _ _,
        h.answered.respond h.owned hx hgo.1 hgo.2 hmalloc hlinked⟩
  · rw [if_neg hgo]
    exact h

theorem Inv.next (h : s.Inv) {op : CoapOp} (hc : s.Careful op) : (s.next op).Inv := by
  cases op with
  | publish t topic ack =>
    unfold CoapReplies.next
    dsimp only
    by_cases hgo : s.connected = true ∧ s.threads t = .idle
    · rw [if_pos hgo]
      have hmove : (s.move t (.send ⟨s.nextId, topic, ack⟩ s.coapToken)).Answered :=
        h.answered.move fun _ _ hl => by rw [hgo.2] at hl; cases hl
      exact ⟨h.owned.publish topic ack, { hmove with }⟩
    · rw [if_neg hgo]
      exact h
  | send => exact h.send hc
  | link => exact h.link hc
  | takeToken => exact ⟨h.owned.of_same rfl rfl rfl rfl rfl, { h.answered with }⟩
  | respond => exact h.respond hc
  | callback =>
    unfold CoapReplies.next
    cases hw : s.walker with
    | callback response token node next =>
      exact ⟨h.owned.of_same rfl rfl rfl rfl rfl, h.answered.callback hw⟩
    | _ => exact h
  | resume malloc =>
    unfold CoapReplies.next
    cases hw : s.walker with
    | called response token next =>
      obtain ⟨howned, hanswered⟩ := h.answered.resume h.owned hw malloc
      exact ⟨howned, hanswered⟩
    | _ => exact h
  | close => exact ⟨h.owned.close hc.2, h.answered.close h.owned hc.1⟩

/-! ## The callback to come -/

@[simp] theorem walk_calls (s : CoapReplies) (response : Nat) (token : UInt32)
    (rest : List CoapResponseNode) (malloc : Nat → Bool) :
    (s.walk response token rest malloc).calls = s.calls := by
  unfold CoapReplies.walk
  split <;> rfl

@[simp] theorem walk_sent (s : CoapReplies) (response : Nat) (token : UInt32)
    (rest : List CoapResponseNode) (malloc : Nat → Bool) :
    (s.walk response token rest malloc).sent = s.sent := by
  unfold CoapReplies.walk
  split <;> rfl

theorem walk_cases (s : CoapReplies) (response : Nat) (token : UInt32)
    (rest : List CoapResponseNode) (malloc : Nat → Bool) :
    response ∈ (s.walk response token rest malloc).handled ∨
      response ∈ (s.walk response token rest malloc).walker.awaits := by
  unfold CoapReplies.walk
  split
  · exact .inl (List.mem_append_right _ List.mem_cons_self)
  · exact .inr rfl

/-- The messages and the calls are only added to, and a callback to come stays so or comes. -/
structure Keeps (s s' : CoapReplies) : Prop where
  sent : s.sent ⊆ s'.sent
  calls : s.calls ⊆ s'.calls
  awaits : ∀ id ∈ s.walker.awaits, id ∈ s'.answered ∨ id ∈ s'.walker.awaits

theorem Keeps.of_eq {s s' : CoapReplies} (hsent : s'.sent = s.sent) (hcalls : s'.calls = s.calls)
    (hwalker : s'.walker = s.walker) : Keeps s s' where
  sent := hsent ▸ List.Subset.refl _
  calls := hcalls ▸ List.Subset.refl _
  awaits _ hid := .inr (hwalker ▸ hid)

theorem Keeps.of_none {s s' : CoapReplies} (hsent : s'.sent = s.sent) (hcalls : s'.calls = s.calls)
    (hnone : s.walker.awaits = none) : Keeps s s' where
  sent := hsent ▸ List.Subset.refl _
  calls := hcalls ▸ List.Subset.refl _
  awaits id hid := by rw [hnone] at hid; cases hid

theorem next_keeps (s : CoapReplies) (op : CoapOp) : Keeps s (s.next op) := by
  have hsame : Keeps s s := .of_eq rfl rfl rfl
  unfold CoapReplies.next
  cases op with
  | publish t topic ack =>
    dsimp only
    split
    · exact .of_eq rfl rfl rfl
    · exact hsame
  | send t outcome =>
    dsimp only
    cases s.threads t with
    | send p token =>
      cases outcome with
      | success => exact ⟨List.subset_append_left _ _, List.Subset.refl _, fun _ => .inr⟩
      | _ => exact .of_eq rfl rfl rfl
    | _ => exact hsame
  | link t malloc =>
    dsimp only
    cases s.threads t with
    | link p token =>
      dsimp only
      cases p.ack with
      | none => exact .of_eq rfl rfl rfl
      | some ack => dsimp only; split <;> exact .of_eq rfl rfl rfl
    | _ => exact hsame
  | takeToken | close => exact .of_eq rfl rfl rfl
  | respond id read malloc =>
    dsimp only
    split
    · next hgo =>
      have hnone : s.walker.awaits = none := by rw [hgo.2]; rfl
      cases s.sent.find? fun x => x.publish.id = id with
      | none => exact hsame
      | some x =>
        dsimp only
        split
        · exact .of_eq rfl rfl rfl
        · exact .of_none (walk_sent ..) (walk_calls ..) hnone
    · exact hsame
  | callback =>
    cases hw : s.walker with
    | callback response token node next =>
      refine ⟨List.Subset.refl _, List.subset_append_left _ _, fun id hid => .inl ?_⟩
      rw [hw] at hid
      cases hid
      simp [answered]
    | _ => exact hsame
  | resume malloc =>
    cases hw : s.walker with
    | called response token next =>
      have hnone : s.walker.awaits = none := by rw [hw]; rfl
      cases next with
      | none => exact .of_none rfl rfl hnone
      | some id => exact .of_none (walk_sent ..) (walk_calls ..) hnone
    | _ => exact hsame

theorem run_keeps (s : CoapReplies) (ops : List CoapOp) :
    s.sent ⊆ (run next s ops).sent ∧ s.calls ⊆ (run next s ops).calls :=
  run_invariant (I := fun s' : CoapReplies => s.sent ⊆ s'.sent ∧ s.calls ⊆ s'.calls)
    (fun s' op ⟨hsent, hcalls⟩ =>
      ⟨List.Subset.trans hsent (next_keeps s' op).sent,
        List.Subset.trans hcalls (next_keeps s' op).calls⟩)
    ⟨List.Subset.refl _, List.Subset.refl _⟩ ops

/-- The callback of a response was invoked or is still to come. -/
def Pending (s : CoapReplies) (id : Nat) : Prop := id ∈ s.answered ∨ id ∈ s.walker.awaits

theorem Pending.next (h : s.Pending id) (op : CoapOp) : (s.next op).Pending id :=
  h.elim (fun hin => .inl (List.map_subset _ (next_keeps s op).calls hin))
    ((next_keeps s op).awaits id)

theorem Pending.callback (h : s.Pending id) : id ∈ (s.next .callback).answered := by
  refine (h.next .callback).resolve_right ?_
  unfold CoapReplies.next
  cases hw : s.walker with
  | callback => nofun
  | _ => rw [hw]; nofun

theorem Inv.pending (h : s.Inv) (hx : x ∈ s.sent) (hack : x.publish.ack.isSome)
    (hopen : s.connected = true) (hidle : s.walker = .idle)
    (hc : s.Careful (.respond x.publish.id true malloc)) :
    (s.next (.respond x.publish.id true malloc)).Pending x.publish.id := by
  have hinv := h.respond hc
  have hsent := (next_keeps s (.respond x.publish.id true malloc)).sent hx
  have hcases : x.publish.id ∈ (s.next (.respond x.publish.id true malloc)).handled ∨
      x.publish.id ∈ (s.next (.respond x.publish.id true malloc)).walker.awaits := by
    unfold CoapReplies.next
    dsimp only
    rw [if_pos ⟨hopen, hidle⟩]
    cases hfind : s.sent.find? fun y => y.publish.id = x.publish.id with
    | none => exact absurd (decide_eq_true rfl) (List.find?_eq_none.mp hfind x hx)
    | some y => exact walk_cases ..
  exact hcases.imp (hinv.answered.reached x hsent hack) id

theorem Inv.delivered (h : s.Inv) (hx : x ∈ s.sent) {ack : CmAck}
    (hack : x.publish.ack = some ack) (hopen : s.connected = true) (hidle : s.walker = .idle)
    {more : List CoapOp}
    (hm : Meets CoapReplies.next Careful s (.respond x.publish.id true malloc :: more))
    (hmore : CoapOp.callback ∈ more) :
    ⟨x.publish.id, x.publish.id, x.publish.topic, ack⟩ ∈
      (run CoapReplies.next s (.respond x.publish.id true malloc :: more)).calls := by
  have hinv : (run CoapReplies.next s (.respond x.publish.id true malloc :: more)).Inv :=
    run_invariant_of_meets (I := Inv) (fun _ _ hc h => h.next hc) hm h
  obtain ⟨pre, post, rfl⟩ := List.append_of_mem hmore
  have hpre := run_invariant (I := fun s : CoapReplies => s.Pending x.publish.id)
    (fun _ op hp => hp.next op)
    (h.pending hx (by rw [hack]; rfl) hopen hidle hm.1) pre
  have hin : x.publish.id ∈ (run CoapReplies.next s
      (.respond x.publish.id true malloc :: (pre ++ .callback :: post))).answered := by
    rw [run_cons, run_append, run_cons]
    exact List.map_subset _ (run_keeps _ post).2 hpre.callback
  obtain ⟨c, hcall, hresponse⟩ := List.mem_map.mp hin
  obtain ⟨howner, y, hy, hid, htopic, hyack⟩ := hinv.answered.own c hcall
  obtain rfl := hinv.owned.sent_eq_of_id hy ((run_keeps s _).1 hx) (hid.trans hresponse)
  obtain rfl : c = ⟨y.publish.id, y.publish.id, y.publish.topic, ack⟩ := by
    cases c
    simp_all
  exact hcall

theorem Inv.replied (h : s.Inv) : s.Replied where
  own := h.answered.own
  once := h.answered.single
  reached := h.answered.reached
  delivered _ hx _ hack hopen hidle _ _ hm hmore := h.delivered hx hack hopen hidle hm hmore
  clean := ⟨h.owned.faults, (List.nodup_append'.mp h.owned.once).2.1⟩

end

/-- In a careful run every response reaches its own publisher. -/
theorem replied_run (coapToken : UInt32) (ops : List CoapOp)
    (hc : Meets next Careful (init coapToken) ops) : (run next (init coapToken) ops).Replied :=
  (run_invariant_of_meets (I := Inv) (fun _ _ hc h => h.next hc) hc
    ⟨init_owned coapToken, init_answered coapToken⟩).replied

def publishOps (thread : Nat) : List CoapOp :=
  [.publish thread .empty (some ⟨thread, thread⟩), .send thread .success, .link thread true]

def respondOps (id : Nat) : List CoapOp :=
  [.respond id true fun _ => true, .callback, .resume fun _ => true]

/-- Two messages, and the response to the second: its own callback is the one that is invoked. -/
theorem replied_run_two :
    let s := run next (init 0x01020304) (publishOps 0 ++ publishOps 1 ++ respondOps 1)
    s.Replied ∧ s.calls = [⟨1, 1, .empty, ⟨1, 1⟩⟩] ∧ ids s.list = [0] ∧ s.walker = .idle := by
  refine ⟨replied_run _ _ (meets_append.mpr ⟨meets_append.mpr ⟨?_, ?_⟩, ?_⟩), by decide⟩
  · refine ⟨trivial, fun p token ht _ => ?_, fun _ _ _ _ => rfl, trivial⟩
    cases ht
    exact ⟨fun _ => rfl, nofun⟩
  · refine ⟨trivial, fun p token ht _ => ?_, fun _ _ _ _ => rfl, trivial⟩
    cases ht
    exact ⟨fun _ => rfl, by decide⟩
  · refine ⟨⟨rfl, rfl, fun t p token ht => ?_⟩, trivial, trivial, trivial⟩
    -- both threads have left
    simp [run, publishOps, init, next, move] at ht

def sameTokenOps : List CoapOp :=
  [.publish 0 .empty (some ⟨0, 0⟩), .publish 1 .empty (some ⟨1, 1⟩), .send 0 .success,
    .send 1 .success, .link 0 true, .link 1 true]

def closeInCallbackOps : List CoapOp :=
  publishOps 0 ++ publishOps 1 ++ [.respond 0 true fun _ => true, .close, .callback,
    .resume fun _ => true]

/-- One response invokes two callbacks, a response comes before its record is linked, and a
walk goes on from a record that was freed. -/
theorem replies_go_astray :
    ¬ (run next (init 0x01020304) (sameTokenOps ++ respondOps 0 ++
      [.callback])).Replied ∧
    ¬ (run next (init 0x01020304) ((publishOps 0).take 2 ++ respondOps 0)).Replied ∧
    ¬ (run next (init 0x01020304) closeInCallbackOps).Replied := by
  refine ⟨fun h => ?_, fun h => ?_, fun h => ?_⟩
  · have hown := fun c hc => (h.own c hc).1
    revert hown
    decide
  · have hreached := h.reached
    revert hreached
    decide
  · have hfaults := h.clean.faults
    revert hfaults
    decide

end CoapReplies

end AliyunIot.Cm
