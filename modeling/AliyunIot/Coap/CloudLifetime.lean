import AliyunIot.Coap.CloudList
import AliyunIot.Lib.Keyed

/-!
# Lifetime of a cloud request

A node is followed by the number of its allocation. `NodeStep` says what one call
does to it, `Followed` what is known of it in a run, and `lifetimes_of_advances` puts
the calls together. A node that was acknowledged and whose timer has run
out is neither sent again nor removed (`Stalled`): the condition on the calls is that
no timer pass meets one, and that an acknowledgement can only mean one node.
-/

namespace AliyunIot.Coap

open Lib

def cloudEvents : CloudContext → List CloudOp → List CloudEvent
  | _, [] => []
  | ctx, op :: ops => (op.exec ctx).2 ++ cloudEvents (ctx.next op) ops

def CloudEvent.about : CloudEvent → Option Nat
  | .write _ => none
  | .retransmit id => some id
  | .response id _ _ => some id
  | .expired id => some id

/-- The node has left the list. -/
def CloudEvent.IsEnd : CloudEvent → Bool
  | .response _ _ _ => true
  | .expired _ => true
  | _ => false

def aboutNode (n : Nat) (events : List CloudEvent) : List CloudEvent :=
  events.filter fun e => e.about = some n

def CloudContext.node (ctx : CloudContext) (n : Nat) : Option CloudSendNode :=
  lookup CloudSendNode.id n ctx.list.list

namespace CloudOp

/-- An acknowledgement of the message id. -/
def Acks (msgid : UInt16) : CloudOp → Prop
  | .datagram buf datalen _ =>
    coapAckMsg (decoded buf datalen).head = true ∧ (decoded buf datalen).head.msgid = msgid
  | _ => False

def Answers (token : List UInt8) : CloudOp → Prop
  | .datagram buf datalen _ =>
    coapRespMsg (decoded buf datalen).head = true ∧
      sameToken token (decoded buf datalen).head.tokenlen (decoded buf datalen).token = true
  | _ => False

def isTimer : CloudOp → Bool
  | .timer => true
  | _ => false

end CloudOp

/-- The timer has run out on an acknowledged request with tries left. -/
def CloudSendNode.Stalled (node : CloudSendNode) : Prop :=
  node.timeout = 0 ∧ node.acked = true ∧ node.retransCount < cloudMaxRetryCount

instance (node : CloudSendNode) : Decidable node.Stalled := by
  unfold CloudSendNode.Stalled
  infer_instance

/-- No timer pass meets a stalled node, and an acknowledgement has the message id of
at most one. -/
def Advances (ctx : CloudContext) : CloudOp → Prop
  | .timer => ∀ node ∈ ctx.list.list, ¬ node.Stalled
  | .datagram buf datalen _ => coapAckMsg (decoded buf datalen).head = true →
    ctx.list.list.countP (fun node => node.msgid = (decoded buf datalen).head.msgid) ≤ 1
  | .send _ _ => True

instance (ctx : CloudContext) (op : CloudOp) : Decidable (Advances ctx op) := by
  unfold Advances
  cases op <;> infer_instance

/-- As long as it is listed nothing has ended a node, and what ended one that has left
is one call of its handler or one expiry. -/
def Ended (message : OutMessage) (n : Nat) (node : Option CloudSendNode)
    (events : List CloudEvent) : Prop :=
  match node with
  | some _ => events.filter CloudEvent.IsEnd = []
  | none => events.filter CloudEvent.IsEnd = [.response n message.resp message.user] ∨
    events.filter CloudEvent.IsEnd = [.expired n]

/-- A request that was put into the list by a send in `ctx`, in the calls after it. A response
with its token ends it, unless it is that of one listed before it, and calls its handler. -/
structure Lifetime (ctx : CloudContext) (message : OutMessage) (io : CloudSendIo)
    (post : List CloudOp) : Prop where
  retransmitted : (cloudEvents (ctx.next (.send message io)) post).count (.retransmit ctx.nextId) ≤
    cloudMaxRetryCount.toNat
  acknowledged : ∀ a op b, post = a ++ op :: b → op.Acks message.header.msgid →
    .retransmit ctx.nextId ∉
      cloudEvents (run CloudContext.next (ctx.next (.send message io)) (a ++ [op])) b
  leaves : 17 ≤ post.countP CloudOp.isTimer →
    (run CloudContext.next (ctx.next (.send message io)) post).node ctx.nextId = none
  ends : Ended message ctx.nextId
    ((run CloudContext.next (ctx.next (.send message io)) post).node ctx.nextId)
    (aboutNode ctx.nextId (cloudEvents (ctx.next (.send message io)) post))
  answered : ∀ a op b resp user, post = a ++ op :: b →
    .response ctx.nextId resp user ∈
      (op.exec (run CloudContext.next (ctx.next (.send message io)) a)).2 →
    op.Answers message.token
  answers : ∀ a op b as node bs, post = a ++ op :: b → op.Answers message.token →
    (run CloudContext.next (ctx.next (.send message io)) a).list.list = as ++ node :: bs →
    node.id = ctx.nextId → (∀ x ∈ as, ¬ op.Answers x.token) →
    aboutNode ctx.nextId (op.exec (run CloudContext.next (ctx.next (.send message io)) a)).2 =
      [.response ctx.nextId message.resp message.user] ∧
    (run CloudContext.next (ctx.next (.send message io)) (a ++ [op])).node ctx.nextId = none

/-! ## One call -/

inductive NodeStep (op : CloudOp) :
    Option CloudSendNode → List CloudEvent → Option CloudSendNode → Prop
  | absent : NodeStep op none [] none
  | kept {node} (htimer : op.isTimer = false) (hack : ¬ op.Acks node.msgid) :
    NodeStep op (some node) [] (some node)
  | acked {node} (htimer : op.isTimer = false) :
    NodeStep op (some node) [] (some { node with acked := true })
  | answered {node} (htimer : op.isTimer = false) (h : op.Answers node.token) :
    NodeStep op (some node) [.response node.id node.resp node.user] none
  | timer {node} (htimer : op.isTimer = true) (h : ¬ node.Stalled) :
    NodeStep op (some node) (cloudTimerNode node).2 (cloudTimerNode node).1

/-- The numbers of the nodes are distinct and below the next one. -/
def CloudContext.Numbered (ctx : CloudContext) : Prop :=
  Lib.Numbered CloudSendNode.id ctx.nextId ctx.list.list

theorem timerNode_keeps (node node' : CloudSendNode) (h : (cloudTimerNode node).1 = some node') :
    node'.id = node.id := by
  unfold cloudTimerNode at h
  dsimp only at h
  repeat' split at h
  all_goals cases h
  all_goals rfl

theorem timerNode_events (node : CloudSendNode) :
    ∀ e ∈ (cloudTimerNode node).2, e = .retransmit node.id ∨ e = .expired node.id := by
  unfold cloudTimerNode
  dsimp only
  repeat' split
  all_goals simp

theorem timerNode_about (node : CloudSendNode) :
    ∀ e ∈ (cloudTimerNode node).2, e.about = some node.id := by
  intro e he
  rcases timerNode_events node e he with rfl | rfl <;> rfl

theorem count_aboutNode (n : Nat) (events : List CloudEvent) :
    (aboutNode n events).count (.retransmit n) = events.count (.retransmit n) :=
  List.count_filter (decide_eq_true rfl)

theorem aboutNode_append (n : Nat) (as bs : List CloudEvent) :
    aboutNode n (as ++ bs) = aboutNode n as ++ aboutNode n bs := List.filter_append _ _

variable {n : Nat}

theorem aboutNode_writes {events : List CloudEvent} (h : ∀ e ∈ events, e.IsWrite) :
    aboutNode n events = [] := by
  refine List.filter_eq_nil_iff.mpr fun e he => ?_
  obtain ⟨data, rfl⟩ := h e he
  simp [CloudEvent.about]

/-! The node with a number after an update of the list. -/

variable {ctx : CloudContext} {node : CloudSendNode}

theorem node_link (hn : n < ctx.nextId)
    (hid : node.id = ctx.nextId) : (ctx.link node).node n = ctx.node n := by
  unfold CloudContext.node
  apply lookup_concat.trans
  rw [if_neg (by omega), Option.or_none]

theorem node_of_mem (hnum : ctx.Numbered)
    (h : node ∈ ctx.list.list) : ctx.node node.id = some node :=
  lookup_of_mem hnum.distinct h

section
variable {ctx : CloudContext} (hnum : ctx.Numbered) {as bs : List CloudSendNode}
  {node : CloudSendNode} (hl : ctx.list.list = as ++ node :: bs) (n : Nat)
include hnum hl

theorem node_ack : (ctx.ack as node bs).node n =
    if node.id = n then some { node with acked := true } else ctx.node n := by
  unfold CloudContext.node
  rw [hl]
  exact lookup_splice (o := some { node with acked := true }) (by rintro y ⟨⟩; rfl)
    (hl ▸ hnum.distinct)

theorem node_unlink : (ctx.unlink as bs).node n = if node.id = n then none else ctx.node n := by
  unfold CloudContext.node
  rw [hl]
  exact lookup_splice (o := none) (by rintro y ⟨⟩) (hl ▸ hnum.distinct)

end

theorem not_ack_of_resp {header : CoapMsgHeader} (h : coapRespMsg header = true) :
    ¬ coapAckMsg header = true := by
  intro hack
  have hcode : header.code = coapMsgCodeEmptyMessage :=
    of_decide_eq_true (Bool.and_eq_true_iff.mp hack).1
  unfold coapRespMsg at h
  rw [hcode] at h
  cases h

theorem id_eq_of_countP {l as bs : List CloudSendNode} {x : CloudSendNode} {msgid : UInt16}
    (hl : l = as ++ node :: bs) (hcount : l.countP (fun y => y.msgid = msgid) ≤ 1)
    (hnode : node.msgid = msgid) (hx : x ∈ l) (hxid : x.msgid = msgid) : x = node := by
  rw [hl] at hcount hx
  rw [List.countP_append, List.countP_cons, if_pos (decide_eq_true hnode)] at hcount
  have hzero (ys : List CloudSendNode) (h0 : ys.countP (fun y => y.msgid = msgid) = 0) : x ∉ ys :=
    fun hmem => List.countP_eq_zero.mp h0 x hmem (decide_eq_true hxid)
  rcases List.mem_append.mp hx with hx | hx
  · exact absurd hx (hzero as (by omega))
  · rcases List.mem_cons.mp hx with rfl | hx
    · rfl
    · exact absurd hx (hzero bs (by omega))

variable {op : CloudOp}

theorem exec_of_answers {as bs : List CloudSendNode}
    (hl : ctx.list.list = as ++ node :: bs) (hans : op.Answers node.token)
    (has : ∀ x ∈ as, ¬ op.Answers x.token) :
    ∃ events, (∀ e ∈ events, CloudEvent.IsWrite e) ∧
      op.exec ctx = (ctx.unlink as bs, events ++ [.response node.id node.resp node.user]) := by
  cases op with
  | send _ _ => exact hans.elim
  | timer => exact hans.elim
  | datagram buf datalen io =>
    obtain ⟨hresp, htoken⟩ := hans
    have hfirst : splitFirst (fun x : CloudSendNode => sameToken x.token
        (decoded buf datalen).head.tokenlen (decoded buf datalen).token) ctx.list.list =
        some (as, node, bs) :=
      splitFirst_eq_some_iff.mpr ⟨hl, htoken, fun a ha => Bool.eq_false_iff.mpr fun h =>
        has a ha ⟨hresp, h⟩⟩
    obtain ⟨events, he, heq⟩ := cloudResp_eq ctx (decoded buf datalen) io
    refine ⟨events, he, ?_⟩
    show cloudMessageHandle ctx buf datalen io = _
    have hd : (Probe.value buf (coapDeserializeMessage datalen.toNat)).2 =
      decoded buf datalen := rfl
    unfold cloudMessageHandle
    simp only [hd]
    rw [if_neg (not_ack_of_resp hresp), if_pos hresp, heq]
    unfold cloudRespNode
    rw [hfirst]
    rfl

theorem nextId_le (op : CloudOp) : ctx.nextId ≤ (ctx.next op).nextId := by
  obtain ⟨ctx', events, hexec, hstep⟩ := exec_step ctx op
  unfold CloudContext.next
  rw [hexec]
  cases hstep with
  | linked _ _ => exact Nat.le_succ _
  | _ => exact Nat.le_refl _

theorem nodeStep_kept {own : Option CloudSendNode}
    (htimer : op.isTimer = false) (hack : ∀ node, own = some node → ¬ op.Acks node.msgid) :
    NodeStep op own [] own := by
  cases own with
  | none => exact .absent
  | some node => exact .kept htimer (hack node rfl)

section
variable {ctx : CloudContext} (hnum : ctx.Numbered)
include hnum

theorem numbered_next (op : CloudOp) : (ctx.next op).Numbered := by
  obtain ⟨ctx', events, hexec, hstep⟩ := exec_step ctx op
  unfold CloudContext.next
  rw [hexec]
  cases hstep with
  | linked _ _ => exact hnum.concat rfl
  | sent _ _ => exact hnum
  | @acked _ _ _ as node bs _ hl _ _ =>
    have hspl : Lib.Numbered CloudSendNode.id ctx.nextId (as ++ node :: bs) := hl ▸ hnum
    exact hspl.splice (o := some { node with acked := true }) (by rintro y ⟨⟩; rfl)
  | @answered _ _ _ as node bs _ _ hl _ _ =>
    have hspl : Lib.Numbered CloudSendNode.id ctx.nextId (as ++ node :: bs) := hl ▸ hnum
    exact hspl.splice (o := none) (by rintro y ⟨⟩)
  | ignored _ _ => exact hnum
  | timer => exact hnum.filterMap timerNode_keeps

theorem node_step {op : CloudOp} (hadv : Advances ctx op) {n : Nat} (hn : n < ctx.nextId) :
    NodeStep op (ctx.node n) (aboutNode n (op.exec ctx).2) ((ctx.next op).node n) := by
  obtain ⟨ctx', events, hexec, hstep⟩ := exec_step ctx op
  unfold CloudContext.next
  rw [hexec]
  cases hstep with
  | linked sendbuf _ =>
    rw [node_link hn rfl]
    exact nodeStep_kept rfl fun node _ h => h
  | sent _ he =>
    rw [aboutNode_writes he]
    exact nodeStep_kept rfl fun node _ h => h
  | @acked buf datalen io as node bs hack hl hid _ =>
    rw [node_ack hnum hl]
    have hmem : node ∈ ctx.list.list := hl ▸ List.mem_append_right _ List.mem_cons_self
    by_cases hown : node.id = n
    · rw [if_pos hown, ← hown, node_of_mem hnum hmem]
      exact .acked rfl
    · rw [if_neg hown]
      refine nodeStep_kept rfl fun x hx hacks => hown ?_
      rw [← id_eq_of_countP hl (hadv hack) hid (lookup_mem hx) hacks.2.symm, lookup_key hx]
  | @answered buf datalen io as node bs events hresp hl htoken he =>
    rw [node_unlink hnum hl, aboutNode_append, aboutNode_writes he]
    have hmem : node ∈ ctx.list.list := hl ▸ List.mem_append_right _ List.mem_cons_self
    by_cases hown : node.id = n
    · rw [if_pos hown, ← hown, node_of_mem hnum hmem]
      have hev : aboutNode node.id [.response node.id node.resp node.user] =
          [.response node.id node.resp node.user] := by
        simp [aboutNode, CloudEvent.about]
      rw [hev]
      exact .answered rfl ⟨hresp, htoken⟩
    · have hev : aboutNode n [.response node.id node.resp node.user] = [] := by
        simp [aboutNode, CloudEvent.about, hown]
      rw [if_neg hown, hev]
      exact nodeStep_kept rfl fun x _ hacks => not_ack_of_resp hresp hacks.1
  | @ignored buf datalen io events hnone he =>
    rw [aboutNode_writes he]
    refine nodeStep_kept rfl fun node hnode hacks => ?_
    exact hnone hacks.1 node (lookup_mem hnode) hacks.2.symm
  | timer =>
    have hev : aboutNode n (cloudTimerPass ctx).2 = ((ctx.node n).map _).getD [] :=
      filter_flatMap_about timerNode_about hnum.distinct
    have hnode : (cloudTimerPass ctx).1.node n = (ctx.node n).bind _ :=
      lookup_filterMap timerNode_keeps hnum.distinct
    rw [hev, hnode]
    cases hown : ctx.node n with
    | none => exact .absent
    | some node => exact .timer rfl (hadv node (lookup_mem hown))

end

/-! ## A listed node -/

def CloudSendNode.Timed (node : CloudSendNode) : Prop :=
  (node.retransCount = 0 ∧ node.timeoutVal = 2 ∧ node.timeout ≤ 2) ∨
  (node.retransCount = 1 ∧ node.timeoutVal = 4 ∧ node.timeout ≤ 4) ∨
  (node.retransCount = 2 ∧ node.timeoutVal = 8 ∧ node.timeout ≤ 8) ∨
  (node.retransCount = 4 ∧ node.timeout ≤ 10)

def CloudSendNode.left (node : CloudSendNode) : Nat :=
  node.timeout.toNat + 1 +
    (if node.retransCount = 0 then 14 else if node.retransCount = 1 then 9 else 0)

def CloudSendNode.Same (node node' : CloudSendNode) : Prop :=
  node'.id = node.id ∧ node'.msgid = node.msgid ∧ node'.token = node.token ∧
    node'.resp = node.resp ∧ node'.user = node.user ∧ node'.acked = node.acked

theorem timerNode_running (ht : node.timeout ≠ 0) :
    cloudTimerNode node = (some { node with timeout := node.timeout - 1 }, []) := if_neg ht

theorem timerNode_again (ht : node.timeout = 0) (hack : node.acked = false)
    (hr : node.retransCount < cloudMaxRetryCount) :
    cloudTimerNode node =
      if node.timeoutVal * 2 > cloudMaxTransmissionSpan ∨
        node.retransCount + 1 ≥ cloudMaxRetryCount then
        (none, [.retransmit node.id, .expired node.id])
      else
        (some { node with
          timeout := node.timeoutVal * 2
          timeoutVal := node.timeoutVal * 2
          retransCount := node.retransCount + 1 }, [.retransmit node.id]) := by
  have hagain : (decide (node.retransCount < cloudMaxRetryCount) && !node.acked) = true := by
    rw [hack, decide_eq_true hr]
    rfl
  unfold cloudTimerNode
  simp only [if_pos ht, hagain, if_true]
  rfl

theorem timerNode_over (ht : node.timeout = 0) (hr : node.retransCount = cloudMaxRetryCount) :
    cloudTimerNode node = (none, [.expired node.id]) := by
  have hagain : (decide (node.retransCount < cloudMaxRetryCount) && !node.acked) = false := by
    rw [hr]
    rfl
  unfold cloudTimerNode
  simp only [if_pos ht, hagain, Bool.false_eq_true, if_false]
  rw [if_pos (.inr (by rw [hr]; decide))]
  rfl

theorem timerNode_cases (hok : node.Timed) (hs : ¬ node.Stalled) :
    (∃ node', cloudTimerNode node = (some node', []) ∧ node.Same node' ∧ node'.Timed ∧
      node'.left + 1 ≤ node.left ∧ node'.retransCount = node.retransCount) ∨
    (∃ node', cloudTimerNode node = (some node', [.retransmit node.id]) ∧ node.acked = false ∧
      node.Same node' ∧ node'.Timed ∧ node'.left + 1 ≤ node.left ∧
      node'.retransCount = node.retransCount + 1) ∨
    (node.acked = false ∧ node.retransCount = 2 ∧
      cloudTimerNode node = (none, [.retransmit node.id, .expired node.id])) ∨
    cloudTimerNode node = (none, [.expired node.id]) := by
  by_cases ht : node.timeout = 0
  · by_cases hr : node.retransCount = cloudMaxRetryCount
    · exact .inr (.inr (.inr (timerNode_over ht hr)))
    · have hlt : node.retransCount < cloudMaxRetryCount := by
        rcases hok with ⟨h, -⟩ | ⟨h, -⟩ | ⟨h, -⟩ | ⟨h, -⟩
        · rw [h]; decide
        · rw [h]; decide
        · rw [h]; decide
        · exact absurd h hr
      have hack : node.acked = false := by
        cases h : node.acked with
        | false => rfl
        | true => exact absurd ⟨ht, h, hlt⟩ hs
      rw [timerNode_again ht hack hlt]
      rcases hok with ⟨h, hval, -⟩ | ⟨h, hval, -⟩ | ⟨h, hval, -⟩ | ⟨h, -⟩
      · rw [hval, h, if_neg (by decide)]
        refine .inr (.inl ⟨_, rfl, hack, ⟨rfl, rfl, rfl, rfl, rfl, rfl⟩, .inr (.inl ?_), ?_, rfl⟩)
        · exact ⟨rfl, rfl, UInt16.le_refl _⟩
        · unfold CloudSendNode.left
          rw [h, ht]
          exact Nat.le_refl 15
      · rw [hval, h, if_neg (by decide)]
        refine .inr (.inl ⟨_, rfl, hack, ⟨rfl, rfl, rfl, rfl, rfl, rfl⟩,
          .inr (.inr (.inl ?_)), ?_, rfl⟩)
        · exact ⟨rfl, rfl, UInt16.le_refl _⟩
        · unfold CloudSendNode.left
          rw [h, ht]
          exact Nat.le_refl 10
      · rw [hval, h, if_pos (by decide)]
        exact .inr (.inr (.inl ⟨hack, rfl, rfl⟩))
      · exact absurd h hr
  · have hpos : 1 ≤ node.timeout := by
      rw [UInt16.le_iff_toNat_le]
      exact Nat.one_le_iff_ne_zero.mpr fun h0 => ht (UInt16.toNat_inj.mp h0)
    have hsub : (node.timeout - 1).toNat = node.timeout.toNat - 1 :=
      UInt16.toNat_sub_of_le _ _ hpos
    have hnat : 1 ≤ node.timeout.toNat := UInt16.le_iff_toNat_le.mp hpos
    have hle {b : UInt16} (hb : node.timeout ≤ b) : node.timeout - 1 ≤ b := by
      rw [UInt16.le_iff_toNat_le] at hb ⊢
      omega
    rw [timerNode_running ht]
    refine .inl ⟨_, rfl, ⟨rfl, rfl, rfl, rfl, rfl, rfl⟩, ?_, ?_, rfl⟩
    · rcases hok with ⟨h, hval, hb⟩ | ⟨h, hval, hb⟩ | ⟨h, hval, hb⟩ | ⟨h, hb⟩
      · exact .inl ⟨h, hval, hle hb⟩
      · exact .inr (.inl ⟨h, hval, hle hb⟩)
      · exact .inr (.inr (.inl ⟨h, hval, hle hb⟩))
      · exact .inr (.inr (.inr ⟨h, hle hb⟩))
    · unfold CloudSendNode.left
      dsimp only
      omega

/-! ## A run -/

/-- The node of a request after some timer passes, and the events about it so far. -/
def Followed (message : OutMessage) (n passes : Nat) (own : Option CloudSendNode)
    (events : List CloudEvent) : Prop :=
  Ended message n own events ∧
  match own with
  | some node =>
    (node.id = n ∧ node.msgid = message.header.msgid ∧ node.token = message.token ∧
      node.resp = message.resp ∧ node.user = message.user) ∧
    node.Timed ∧ node.left + passes ≤ 17 ∧
    events.count (.retransmit n) ≤ node.retransCount.toNat
  | none => events.count (.retransmit n) ≤ 4

theorem CloudSendNode.Timed.count_le (h : node.Timed) : node.retransCount.toNat ≤ 4 := by
  rcases h with ⟨h, -⟩ | ⟨h, -⟩ | ⟨h, -⟩ | ⟨h, -⟩
  all_goals
    rw [h]
    decide

section
variable {message : OutMessage} {n passes : Nat}

theorem followed_timer {node : CloudSendNode} {events : List CloudEvent} (hs : ¬ node.Stalled)
    (h : Followed message n passes (some node) events) :
    Followed message n (passes + 1) (cloudTimerNode node).1
      (events ++ (cloudTimerNode node).2) := by
  obtain ⟨hend, ⟨hid, hmsgid, htoken, hresp, huser⟩, htimed, hleft, hcount⟩ := h
  have hle := htimed.count_le
  rcases timerNode_cases htimed hs with
    ⟨node', heq, ⟨h1, h2, h3, h4, h5, -⟩, htimed', hleft', hr⟩ |
    ⟨node', heq, -, ⟨h1, h2, h3, h4, h5, -⟩, htimed', hleft', hr⟩ | ⟨-, hr, heq⟩ | heq
  · rw [heq, List.append_nil]
    refine ⟨hend, ⟨h1.trans hid, h2.trans hmsgid, h3.trans htoken, h4.trans hresp,
      h5.trans huser⟩, htimed', by omega, ?_⟩
    rw [hr]
    exact hcount
  · have hsum : node'.retransCount.toNat = node.retransCount.toNat + 1 := by
      have hle' := htimed'.count_le
      rw [hr, UInt8.toNat_add]
      show (node.retransCount.toNat + 1) % 256 = _
      omega
    rw [heq, hid]
    refine ⟨?_, ⟨h1.trans hid, h2.trans hmsgid, h3.trans htoken, h4.trans hresp,
      h5.trans huser⟩, htimed', by omega, ?_⟩
    · show (events ++ _).filter _ = []
      rw [List.filter_append, hend]
      rfl
    · rw [List.count_append, List.count_singleton_self, hsum]
      exact Nat.succ_le_succ hcount
  · rw [heq, hid]
    refine ⟨.inr ?_, ?_⟩
    · rw [List.filter_append, hend]
      rfl
    · rw [hr] at hcount
      have htwo : (2 : UInt8).toNat = 2 := rfl
      have hnew : [CloudEvent.retransmit n, .expired n].count (.retransmit n) = 1 := by simp
      rw [List.count_append, hnew]
      omega
  · rw [heq, hid]
    refine ⟨.inr ?_, ?_⟩
    · rw [List.filter_append, hend]
      rfl
    · have hnew : [CloudEvent.expired n].count (.retransmit n) = 0 := by simp
      rw [List.count_append, hnew]
      omega

theorem followed_step {op : CloudOp} {own own' : Option CloudSendNode}
    {events new : List CloudEvent} (hstep : NodeStep op own new own')
    (h : Followed message n passes own events) :
    Followed message n (passes + if op.isTimer then 1 else 0) own' (events ++ new) := by
  cases hstep with
  | absent =>
    rw [List.append_nil]
    exact h
  | kept htimer hack =>
    rw [List.append_nil, htimer]
    exact h
  | acked htimer =>
    rw [List.append_nil, htimer]
    exact h
  | timer htimer hs =>
    rw [htimer]
    exact followed_timer hs h
  | @answered node htimer hans =>
    obtain ⟨hend, ⟨hid, -, -, hresp, huser⟩, htimed, -, hcount⟩ := h
    refine ⟨.inl ?_, ?_⟩
    · rw [List.filter_append, hend, hid, hresp, huser]
      rfl
    · have hnew : [CloudEvent.response node.id node.resp node.user].count (.retransmit n) = 0 := by
        simp
      have hle := htimed.count_le
      rw [List.count_append, hnew]
      omega

theorem followed_run {ctx : CloudContext} {ops : List CloudOp} {events : List CloudEvent}
    (hmeets : Meets CloudContext.next Advances ctx ops) (hnum : ctx.Numbered) (hn : n < ctx.nextId)
    (h : Followed message n passes (ctx.node n) events) :
    Followed message n (passes + ops.countP CloudOp.isTimer)
      ((run CloudContext.next ctx ops).node n) (events ++ aboutNode n (cloudEvents ctx ops)) := by
  induction ops generalizing ctx passes events with
  | nil =>
    rw [cloudEvents, aboutNode, List.filter_nil, List.append_nil]
    exact h
  | cons op ops ih =>
    obtain ⟨hadv, hmeets⟩ := hmeets
    have hnext := followed_step (node_step hnum hadv hn) h
    have := ih hmeets (numbered_next hnum op) (Nat.lt_of_lt_of_le hn (nextId_le op)) hnext
    rw [cloudEvents, aboutNode_append, ← List.append_assoc, run_cons, List.countP_cons,
      Nat.add_comm (ops.countP _), ← Nat.add_assoc]
    exact this

end

/-! ## After the acknowledgement -/

/-- The node has left the list or is acknowledged. -/
def Silent (own : Option CloudSendNode) : Prop := ∀ node ∈ own, node.acked = true

theorem timerNode_acked (hack : node.acked = true) :
    (∀ e ∈ (cloudTimerNode node).2, e = .expired node.id) ∧ Silent (cloudTimerNode node).1 := by
  have hagain : (decide (node.retransCount < cloudMaxRetryCount) && !node.acked) = false := by
    rw [hack, Bool.not_true, Bool.and_false]
  unfold cloudTimerNode Silent
  simp only [hagain, Bool.false_eq_true, if_false, List.nil_append]
  split
  · split
    · exact ⟨fun e he => List.mem_singleton.mp he, (fun x hx => by cases hx)⟩
    · exact ⟨(fun e he => by cases he), by rintro x ⟨⟩; exact hack⟩
  · exact ⟨(fun e he => by cases he), by rintro x ⟨⟩; exact hack⟩

theorem cloudSilent_step {own own' : Option CloudSendNode} {new : List CloudEvent}
    (hstep : NodeStep op own new own') (h : Silent own) (n : Nat) :
    .retransmit n ∉ new ∧ Silent own' := by
  cases hstep with
  | absent => exact ⟨List.not_mem_nil, h⟩
  | kept _ _ => exact ⟨List.not_mem_nil, h⟩
  | acked _ => exact ⟨List.not_mem_nil, (by rintro x ⟨⟩; rfl)⟩
  | answered _ _ => exact ⟨by simp, (fun x hx => by cases hx)⟩
  | @timer node _ _ =>
    obtain ⟨hevents, hown⟩ := timerNode_acked (h node rfl)
    exact ⟨(fun hmem => by cases hevents _ hmem), hown⟩

theorem silent_of_acks {own own' : Option CloudSendNode} {new : List CloudEvent}
    (hstep : NodeStep op own new own') (hacks : ∀ node ∈ own, op.Acks node.msgid) :
    Silent own' := by
  cases hstep with
  | absent => exact fun x hx => by cases hx
  | kept _ hnot => exact absurd (hacks _ rfl) hnot
  | acked _ =>
    rintro x ⟨⟩
    rfl
  | answered _ _ => exact fun x hx => by cases hx
  | timer htimer _ =>
    cases op with
    | timer => exact (hacks _ rfl).elim
    | send _ _ => cases htimer
    | datagram _ _ _ => cases htimer

theorem answers_of_response {own own' : Option CloudSendNode}
    {new : List CloudEvent} (hstep : NodeStep op own new own') {resp : Option Nat}
    {user : Nat} (hmem : .response n resp user ∈ new) {token : List UInt8}
    (htoken : ∀ node ∈ own, node.token = token) : op.Answers token := by
  cases hstep with
  | absent => cases hmem
  | kept _ _ => cases hmem
  | acked _ => cases hmem
  | answered _ hans => exact htoken _ rfl ▸ hans
  | timer _ _ => rcases timerNode_events _ _ hmem with h | h <;> cases h

theorem cloudSilent_run {ops : List CloudOp}
    (hmeets : Meets CloudContext.next Advances ctx ops) (hnum : ctx.Numbered) (hn : n < ctx.nextId)
    (h : Silent (ctx.node n)) : .retransmit n ∉ cloudEvents ctx ops := by
  induction ops generalizing ctx with
  | nil => exact List.not_mem_nil
  | cons op ops ih =>
    obtain ⟨hadv, hmeets⟩ := hmeets
    obtain ⟨hnew, hown⟩ := cloudSilent_step (node_step hnum hadv hn) h n
    refine fun hmem => (List.mem_append.mp hmem).elim (fun hmem => hnew ?_) ?_
    · exact List.mem_filter.mpr ⟨hmem, decide_eq_true rfl⟩
    · exact ih hmeets (numbered_next hnum op) (Nat.lt_of_lt_of_le hn (nextId_le op)) hown

/-! ## The run after a send -/

theorem numbered_run (hnum : ctx.Numbered) (ops : List CloudOp) :
    (run CloudContext.next ctx ops).Numbered :=
  run_invariant (I := CloudContext.Numbered) (fun _ op h => numbered_next h op) hnum ops

theorem nextId_run (ops : List CloudOp) : ctx.nextId ≤ (run CloudContext.next ctx ops).nextId :=
  run_invariant (I := fun c : CloudContext => ctx.nextId ≤ c.nextId)
    (fun _ op h => Nat.le_trans h (nextId_le op)) (Nat.le_refl _) ops

theorem followed_send (hnum : ctx.Numbered) {message : OutMessage}
    {io : CloudSendIo} (h : CloudLinks message io) :
    Followed message ctx.nextId 0 ((ctx.next (.send message io)).node ctx.nextId) [] ∧
      ctx.nextId < (ctx.next (.send message io)).nextId := by
  obtain ⟨ctx', events, hexec, hstep⟩ := exec_step ctx (.send message io)
  unfold CloudContext.next
  rw [hexec]
  cases hstep with
  | sent hnot _ => exact absurd h hnot
  | linked sendbuf _ =>
    have hnode : (ctx.link (cloudSendNode ctx message sendbuf io)).node ctx.nextId =
        some (cloudSendNode ctx message sendbuf io) := by
      have hnone : lookup CloudSendNode.id ctx.nextId ctx.list.list = none :=
        lookup_eq_none_iff.mpr fun x hx => Nat.ne_of_lt (hnum.below x hx)
      apply lookup_concat.trans
      rw [hnone, Option.none_or]
      exact if_pos rfl
    rw [hnode]
    refine ⟨⟨rfl, ⟨rfl, rfl, rfl, rfl, rfl⟩, ?_⟩, Nat.lt_succ_self _⟩
    unfold CloudSendNode.Timed CloudSendNode.left cloudSendNode
    dsimp only
    split
    · exact ⟨.inl ⟨rfl, rfl, UInt16.le_refl _⟩, Nat.le_refl 17, Nat.le_refl 0⟩
    · exact ⟨.inr (.inr (.inr ⟨rfl, UInt16.le_refl _⟩)), by decide, Nat.zero_le _⟩

theorem lifetime_of_send (hnum : ctx.Numbered) {message : OutMessage}
    {io : CloudSendIo} (hlinks : CloudLinks message io) {post : List CloudOp}
    (hmeets : Meets CloudContext.next Advances (ctx.next (.send message io)) post) :
    Lifetime ctx message io post := by
  obtain ⟨hsent, hn⟩ := followed_send hnum hlinks
  have hnum' := numbered_next hnum (.send message io)
  -- The node after the calls `a`, and what one more call does to it.
  have hfollow {a b : List CloudOp} (hpost : post = a ++ b) :=
    followed_run (meets_append.mp (hpost ▸ hmeets)).1 hnum' hn hsent
  have hstep {a b : List CloudOp} {op : CloudOp} (hpost : post = a ++ op :: b) :=
    node_step (numbered_run hnum' a) (meets_iff_forall_split.mp hmeets a op b hpost)
      (Nat.lt_of_lt_of_le hn (nextId_run a))
  have hall := hfollow (List.append_nil post).symm
  rw [List.nil_append, Nat.zero_add] at hall
  constructor
  case retransmitted =>
    rw [← count_aboutNode]
    revert hall
    cases (run CloudContext.next (ctx.next (.send message io)) post).node ctx.nextId with
    | none => exact fun hall => hall.2
    | some node => exact fun hall => Nat.le_trans hall.2.2.2.2 hall.2.2.1.count_le
  case acknowledged =>
    intro a op b hpost hacks
    have hsilent := silent_of_acks (hstep hpost) fun node hnode => by
      have hown := hfollow hpost
      rw [hnode] at hown
      rw [hown.2.1.2.1]
      exact hacks
    rw [← run_concat CloudContext.next] at hsilent
    have hpost' : post = (a ++ [op]) ++ b := by rw [hpost, List.append_assoc, List.singleton_append]
    exact cloudSilent_run (meets_append.mp (hpost' ▸ hmeets)).2 (numbered_run hnum' _)
      (Nat.lt_of_lt_of_le hn (nextId_run _)) hsilent
  case leaves =>
    intro hpasses
    revert hall
    cases (run CloudContext.next (ctx.next (.send message io)) post).node ctx.nextId with
    | none => exact fun _ => rfl
    | some node =>
      intro hall
      have hleft := hall.2.2.2.1
      unfold CloudSendNode.left at hleft
      omega
  case ends => exact hall.1
  case answered =>
    intro a op b resp user hpost hmem
    have hown := hfollow hpost
    have hmem' : .response ctx.nextId resp user ∈ aboutNode ctx.nextId _ :=
      List.mem_filter.mpr ⟨hmem, decide_eq_true rfl⟩
    exact answers_of_response (hstep hpost) hmem' fun node hnode => by
      rw [hnode] at hown
      exact hown.2.1.2.2.1
  case answers =>
    intro a op b as node bs hpost hans hl hid has
    have hown := hfollow hpost
    have hnuma := numbered_run hnum' a
    rw [← hid, node_of_mem hnuma (hl ▸ List.mem_append_right _ List.mem_cons_self)] at hown
    obtain ⟨-, ⟨-, -, htoken, hresp, huser⟩, -⟩ := hown
    obtain ⟨events, he, hexec⟩ := exec_of_answers hl (htoken ▸ hans) has
    rw [run_concat]
    unfold CloudContext.next at hexec ⊢
    rw [hexec, aboutNode_append, aboutNode_writes he, hid, hresp, huser]
    refine ⟨by simp [aboutNode, CloudEvent.about], ?_⟩
    exact (node_unlink hnuma hl ctx.nextId).trans (if_pos hid)

def Lifetimes (ctx : CloudContext) (ops : List CloudOp) : Prop :=
  ∀ pre message io post, ops = pre ++ .send message io :: post → CloudLinks message io →
    Lifetime (run CloudContext.next ctx pre) message io post

/-- **Lifetime of a cloud request.** In a run whose timer passes meet no stalled node,
every message listed is sent again at most four times and never after its
acknowledgement, and leaves the list within 17 timer passes in one way; a response with
its token ends it with one call of its handler. -/
theorem lifetimes_of_advances (maxcount : UInt8) (ops : List CloudOp)
    (h : Meets CloudContext.next Advances (cloudContextCreate maxcount) ops) :
    Lifetimes (cloudContextCreate maxcount) ops := by
  rintro pre message io post rfl hlinks
  have hnum : (cloudContextCreate maxcount).Numbered := .nil
  exact lifetime_of_send (numbered_run hnum pre) hlinks (meets_append.mp h).2.2

/-- A `GET` with the token `0A` and a handler. -/
def tokenGet : OutMessage := { (coapMessageTokenSet cloudGet [0x0A]).2 with resp := some 3 }

/-- A response with the token `0A`. -/
def tokenResponse : CloudOp :=
  .datagram (fun i => [0x51, 0x45, 0x00, 0x09, 0x0A].getD i 0) 5 ⟨0, true, true⟩

/-- Of two requests the first is not answered, and the second has its handler called. -/
theorem lifetimes_answered :
    Lifetimes (cloudContextCreate 8) ([.send cloudGet ⟨4, true, true⟩,
      .send tokenGet ⟨5, true, true⟩, tokenResponse] ++ List.replicate 17 .timer) ∧
    (run CloudContext.next (cloudContextCreate 8) [.send cloudGet ⟨4, true, true⟩,
      .send tokenGet ⟨5, true, true⟩, tokenResponse]).node 1 = none ∧
    aboutNode 1 (tokenResponse.exec (run CloudContext.next (cloudContextCreate 8)
      [.send cloudGet ⟨4, true, true⟩, .send tokenGet ⟨5, true, true⟩])).2 =
        [.response 1 (some 3) 0] := by
  have h := lifetimes_of_advances 8 ([.send cloudGet ⟨4, true, true⟩,
    .send tokenGet ⟨5, true, true⟩, tokenResponse] ++ List.replicate 17 .timer) (by decide)
  have hlinks : CloudLinks tokenGet ⟨5, true, true⟩ :=
    ⟨by decide, by decide, by decide, by decide, rfl⟩
  obtain ⟨hcalled, hgone⟩ := (h [.send cloudGet ⟨4, true, true⟩] tokenGet ⟨5, true, true⟩ _ rfl
    hlinks).answers [] tokenResponse _ [_] _ [] rfl
      ⟨by decide, by decide⟩ rfl rfl fun x hx hans => by
      -- the token of the first request is empty
      rw [List.mem_singleton.mp hx] at hans
      exact (sameToken_eq_true.mp hans.2).1 rfl
  exact ⟨h, hgone, hcalled⟩

/-- The acknowledgement of message 0. -/
def ackZero : Mem := fun i => [0x60, 0x00, 0x00, 0x00].getD i 0

/-- A confirmable request and its acknowledgement. -/
def ackedGet : List CloudOp := [.send cloudGet ⟨4, true, true⟩, .datagram ackZero 4 ⟨0, true, true⟩]

theorem timerNode_stalled (h : node.Stalled) : cloudTimerNode node = (some node, []) := by
  obtain ⟨ht, hack, hr⟩ := h
  have hagain : (decide (node.retransCount < cloudMaxRetryCount) && !node.acked) = false := by
    rw [hack, Bool.not_true, Bool.and_false]
  have hnot : ¬ (node.timeout > cloudMaxTransmissionSpan ∨
      node.retransCount ≥ cloudMaxRetryCount) := by
    rw [ht]
    rintro (h | h)
    · cases h
    · exact UInt8.not_le.mpr hr h
  unfold cloudTimerNode
  simp only [if_pos ht, hagain, Bool.false_eq_true, if_false, if_neg hnot]

theorem stalled_stays (hnum : ctx.Numbered)
    (h : ctx.node n = some node) (hs : node.Stalled) (k : Nat) :
    (run CloudContext.next ctx (List.replicate k .timer)).node n = some node := by
  induction k generalizing ctx with
  | zero => exact h
  | succ k ih =>
    rw [List.replicate_succ, run_cons]
    refine ih (numbered_next hnum .timer) ?_
    have hnode : (ctx.next .timer).node n = (ctx.node n).bind _ :=
      lookup_filterMap timerNode_keeps hnum.distinct
    rw [hnode, h, Option.bind_some, timerNode_stalled hs]

theorem acked_stays (k : Nat) : (run CloudContext.next (cloudContextCreate 8)
    (ackedGet ++ List.replicate k .timer)).node 0 ≠ none := by
  have hnum : (cloudContextCreate 8).Numbered := .nil
  obtain _ | _ | k := k
  · decide
  · decide
  · obtain ⟨node, hnode, hs⟩ : ∃ node, (run CloudContext.next (cloudContextCreate 8)
        (ackedGet ++ List.replicate 2 .timer)).node 0 = some node ∧ node.Stalled :=
      ⟨_, rfl, by decide⟩
    have hrun := stalled_stays (numbered_run hnum _) hnode hs k
    rw [← run_append, List.append_assoc, List.replicate_append_replicate, Nat.add_comm] at hrun
    rw [hrun]
    exact Option.some_ne_none node

/-- An acknowledged request is in the list after any number of timer passes, also after
the 17 that end every other one. -/
theorem ackedGet_no_lifetime :
    (∀ k, (run CloudContext.next (cloudContextCreate 8)
      (ackedGet ++ List.replicate k .timer)).node 0 ≠ none) ∧
    ¬ Lifetimes (cloudContextCreate 8) (ackedGet ++ List.replicate 17 .timer) := by
  refine ⟨acked_stays, fun h => ?_⟩
  have hlinks : CloudLinks cloudGet ⟨4, true, true⟩ := by
    refine ⟨by decide, by decide, by decide, by decide, rfl⟩
  have hlife := h [] cloudGet ⟨4, true, true⟩ _ rfl hlinks
  exact acked_stays 17 (hlife.leaves (by decide))

end AliyunIot.Coap
