import AliyunIot.Coap.Notify

/-!
# Lock order

`CoAPObsServer_notify` takes the mutex of the send list under that of the observer list,
`Check_timeout` the other way round. `noDeadlock_run`: the two never wait for each other in
a run in which `Check_timeout` takes out no node while a notify that holds the observer
list has a notification to list, and no such notify begins in between (`Careful`).
`deadlock_of_not_careful`: after any other step the notifying thread runs into the deadlock.
-/

namespace AliyunIot.Coap

open Lib

/-! ## The steps against the functions of one thread -/

variable (message : OutMessage)

theorem code_tokenSet (token : List UInt8) :
    (coapMessageTokenSet message token).2.header.code = message.header.code := by
  unfold coapMessageTokenSet
  split <;> rfl

theorem code_uintOptionAdd (optnum : UInt16) (data : UInt32) (malloc : Bool) :
    (coapUintOptionAdd message optnum data malloc).2.header.code = message.header.code := by
  unfold coapUintOptionAdd
  split <;> rfl

theorem code_notification (node : CoapObserver) (maxage : UInt32) (msgid : UInt16)
    (payload : Option Block) (io : NotifyIo) :
    (coapNotification node maxage msgid payload io).header.code = coapMsgCode205Content := by
  unfold coapNotification
  cases payload
  all_goals
    dsimp only [coapMessagePayloadSet]
    rw [code_uintOptionAdd, code_uintOptionAdd, code_uintOptionAdd, code_tokenSet]
    rfl

theorem send_of_locks {message : OutMessage} {io : SendIo} {buff : List UInt8}
    (h : coapSendLocks message io = some buff) (ctx : CoapContext) (remote : NetworkAddr) :
    (coapMessageSend ctx remote message io).ctx =
      (coapMessageListAdd (coapObsClientDelete ctx message) remote message buff io).2 := by
  unfold coapSendLocks at h
  unfold coapMessageSend
  dsimp only at h ⊢
  split at h
  · cases h
  · next hlen =>
    split at h
    · cases h
    · next hbuf =>
      rw [if_neg hlen, if_neg hbuf]
      obtain ⟨⟨n, img⟩, hser, h⟩ := Option.bind_eq_some_iff.mp h
      rw [hser]
      dsimp only at h ⊢
      split at h
      · next hall =>
        cases h
        unfold coapMessageWrite
        rw [if_pos hall.1, if_pos hall.2.1]
      · cases h

theorem send_of_not_locks {message : OutMessage} {io : SendIo}
    (h : coapSendLocks message io = none) (ctx : CoapContext) (remote : NetworkAddr) :
    (coapMessageSend ctx remote message io).ctx.queue = ctx.queue := by
  unfold coapSendLocks at h
  unfold coapMessageSend
  dsimp only at h ⊢
  split at h
  · next hlen =>
    rw [if_pos hlen]
  · next hlen =>
    rw [if_neg hlen]
    split at h
    · next hbuf =>
      rw [if_pos hbuf]
    · next hbuf =>
      rw [if_neg hbuf]
      cases hser : coapSerializeMessage message (coapSerializeMessageLength message) with
      | none => rfl
      | some r =>
        obtain ⟨n, img⟩ := r
        rw [hser, Option.bind_some] at h
        dsimp only at h ⊢
        unfold coapMessageWrite
        dsimp only
        split
        · next hwritten =>
          split
          · next hkind =>
            have hnode : io.node = false := by
              refine eq_false_of_ne_true fun hnode => ?_
              rw [if_pos ⟨hwritten, hkind, hnode⟩] at h
              cases h
            unfold coapMessageListAdd
            rw [if_pos hnode]
            exact queue_obsClientDelete ctx message
          · exact queue_obsClientDelete ctx message
        · exact queue_obsClientDelete ctx message

theorem obsClientDelete_notification (ctx ctx' : CoapContext) (call : NotifyCall) (i : Nat)
    (node : CoapObserver) (msgid : UInt16) :
    coapObsClientDelete ctx (call.message ctx' i node msgid) = ctx := by
  refine if_neg fun h => absurd h.1 ?_
  unfold NotifyCall.message
  rw [code_notification]
  decide

namespace MutexThreads

theorem stepNotifier_send {s : MutexThreads} {call : NotifyCall} {i : Nat} {node : CoapObserver}
    (hc : ¬ s.cycle.Holds) (hnode : s.ctx.obsserver.list[i]? = some node)
    (hres : node.resource = call.resource) {message : OutMessage}
    (hm : message = call.message s.ctx i node (coapMessageIdGen s.ctx.messageId).1) :
    (∃ buff, (s.visit call i).notifier = .listing call i node.remote message buff ∧
      (s.visit call i).stepNotifier.ctx =
        (coapMessageSend (coapNotified s.ctx i node) node.remote message (call.io i).send).ctx) ∨
    (s.visit call i).notifier = .visiting call (i + 1) ∧ (s.visit call i).ctx.queue =
      (coapMessageSend (coapNotified s.ctx i node) node.remote message
        (call.io i).send).ctx.queue := by
  unfold visit
  rw [hnode]
  dsimp only
  rw [if_pos hres, ← hm]
  cases hbuff : coapSendLocks message (call.io i).send with
  | some buff =>
    refine .inl ⟨buff, rfl, ?_⟩
    rw [send_of_locks hbuff, hm, obsClientDelete_notification]
    unfold stepNotifier
    exact congrArg MutexThreads.ctx (if_neg hc)
  | none => exact .inr ⟨rfl, (send_of_not_locks hbuff _ _).symm⟩

theorem stepCycle_turn {s : MutexThreads} {tick : Nat} (hc : s.cycle = .scanning tick)
    (hn : ¬ s.notifier.Holds) {node : CoapSendNode} (hnode : node ∈ s.ctx.sendlist.list)
    (hout : coapTimedOut tick node = true) :
    s.stepCycle.stepCycle.ctx = (coapCheckTimeoutTurn s.ctx tick).1 := by
  rcases splitFirst_cases (coapTimedOut tick) s.ctx.sendlist.list with
    ⟨-, hall⟩ | ⟨as, first, bs, hsome, -, -, -⟩
  · rw [hall node hnode] at hout
    cases hout
  · have hscan : s.stepCycle = s.scan tick := by
      unfold stepCycle
      rw [hc]
    rw [hscan]
    unfold stepCycle scan coapCheckTimeoutTurn
    rw [hsome]
    exact congrArg MutexThreads.ctx (if_neg hn)

end MutexThreads

/-! ## What decides whether a notification is listed -/

theorem serializeOptionsFrom_snd (buf : Nat) (os : List OutOption) (img img' : Image)
    (count : UInt16) :
    (coapSerializeOptionsFrom buf os img count).map Prod.snd =
      (coapSerializeOptionsFrom buf os img' count).map Prod.snd := by
  induction os generalizing img img' count with
  | nil => rfl
  | cons o os ih =>
    unfold coapSerializeOptionsFrom
    cases coapSerializeOption o with
    | none => rfl
    | some bytes =>
      simp only [Option.bind_eq_bind, Option.bind_some]
      split
      · exact ih _ _ _
      · rfl

theorem serialize_idSet (msgid buflen : UInt16) :
    (coapSerializeMessage (coapMessageIdSet message msgid) buflen).map Prod.fst =
      (coapSerializeMessage message buflen).map Prod.fst := by
  have hheader : (coapSerializeHeader (coapMessageIdSet message msgid) buflen).length =
      (coapSerializeHeader message buflen).length := by
    unfold coapSerializeHeader
    split <;> rfl
  have htoken (n : UInt16) : coapSerializeToken (coapMessageIdSet message msgid) n =
      coapSerializeToken message n := rfl
  have hpayload (n : Nat) : coapSerializePayload (coapMessageIdSet message msgid) n =
      coapSerializePayload message n := rfl
  have hoptions (img img' : Image) (ptr : Nat) :
      (coapSerializeOptions (coapMessageIdSet message msgid) img ptr).map Prod.snd =
        (coapSerializeOptions message img' ptr).map Prod.snd :=
    serializeOptionsFrom_snd ptr message.options img img' 0
  unfold coapSerializeMessage
  simp only [hheader, htoken, hpayload, Option.bind_eq_bind]
  generalize hr : coapSerializeOptions (coapMessageIdSet message msgid) _ _ = r
  generalize hr' : coapSerializeOptions message _ _ = r'
  have hsame : r.map Prod.snd = r'.map Prod.snd := by
    rw [← hr, ← hr']
    exact hoptions _ _ _
  cases r with
  | none =>
    cases r' with
    | none => rfl
    | some q => cases hsame
  | some p =>
    cases r' with
    | none => cases hsame
    | some q =>
      obtain ⟨img, count⟩ := p
      obtain ⟨img', count'⟩ := q
      cases hsame
      rfl

theorem sendLocks_idSet (msgid : UInt16) (io : SendIo) :
    (coapSendLocks (coapMessageIdSet message msgid) io).isSome =
      (coapSendLocks message io).isSome := by
  have hlength : coapSerializeMessageLength (coapMessageIdSet message msgid) =
    coapSerializeMessageLength message := rfl
  have hser := serialize_idSet message msgid (coapSerializeMessageLength message)
  unfold coapSendLocks
  rw [hlength]
  dsimp only
  split
  · rfl
  · split
    · rfl
    · generalize coapSerializeMessage (coapMessageIdSet message msgid) _ = r at hser ⊢
      generalize coapSerializeMessage message _ = r' at hser ⊢
      cases r with
      | none =>
        cases r' with
        | none => rfl
        | some q => cases hser
      | some p =>
        cases r' with
        | none => cases hser
        | some q =>
          obtain ⟨n, img⟩ := p
          obtain ⟨n', img'⟩ := q
          cases hser
          have hbytes :
              (img.bytes (UInt16.ofInt n)).length = (img'.bytes (UInt16.ofInt n)).length := by
            unfold Image.bytes
            rw [List.length_map, List.length_map]
          have hkind : (coapReqMsg (coapMessageIdSet message msgid).header ||
              coapConRespMsg (coapMessageIdSet message msgid).header) =
            (coapReqMsg message.header || coapConRespMsg message.header) := rfl
          simp only [Option.bind_some, hbytes, hkind]
          by_cases hall : UInt16.ofNat (img'.bytes (UInt16.ofInt n)).length =
            UInt16.ofInt io.written ∧
              (coapReqMsg message.header || coapConRespMsg message.header) = true ∧ io.node = true
          · rw [if_pos hall, if_pos hall]
            rfl
          · rw [if_neg hall, if_neg hall]

theorem tokenSet_idSet (msgid : UInt16) (token : List UInt8) :
    (coapMessageTokenSet (coapMessageIdSet message msgid) token).2 =
      coapMessageIdSet (coapMessageTokenSet message token).2 msgid := by
  unfold coapMessageTokenSet
  split <;> rfl

theorem uintOptionAdd_idSet (msgid optnum : UInt16) (data : UInt32) (malloc : Bool) :
    (coapUintOptionAdd (coapMessageIdSet message msgid) optnum data malloc).2 =
      coapMessageIdSet (coapUintOptionAdd message optnum data malloc).2 msgid := by
  have hoptions : (coapMessageIdSet message msgid).options = message.options := rfl
  unfold coapUintOptionAdd
  by_cases h : coapMsgMaxOptionNum ≤ message.options.length
  · rw [dif_pos h, dif_pos (hoptions ▸ h)]
  · rw [dif_neg h, dif_neg (hoptions ▸ h)]
    rfl

theorem notification_eq (node : CoapObserver) (maxage : UInt32) (msgid : UInt16)
    (payload : Option Block) (io : NotifyIo) :
    coapNotification node maxage msgid payload io =
      coapMessageIdSet (coapNotification node maxage 0 payload io) msgid := by
  have hzero (message : OutMessage) : coapMessageIdSet message msgid =
    coapMessageIdSet (coapMessageIdSet message 0) msgid := rfl
  have hhandler (message : OutMessage) : coapMessageHandlerSet
    (coapMessageIdSet message msgid) none =
    coapMessageIdSet (coapMessageHandlerSet message none) msgid := rfl
  have huser (message : OutMessage) (user : Nat) :
    coapMessageUserDataSet (coapMessageIdSet message msgid) user =
      coapMessageIdSet (coapMessageUserDataSet message user) msgid := rfl
  have hpayload (message : OutMessage) (payload : Block) :
    coapMessagePayloadSet (coapMessageIdSet message msgid) payload =
      coapMessageIdSet (coapMessagePayloadSet message payload) msgid := rfl
  unfold coapNotification
  dsimp only
  rw [hzero, hhandler, huser, tokenSet_idSet, uintOptionAdd_idSet, uintOptionAdd_idSet,
    uintOptionAdd_idSet]
  cases payload with
  | none => rfl
  | some payload => exact hpayload _ payload

/-! ## Notifications to be listed -/

/-- The notification to the observer at a place gets as far as the send list. -/
def NotifyCall.Lists (call : NotifyCall) (ctx : CoapContext) (node : CoapObserver)
    (i : Nat) : Prop :=
  node.resource = call.resource ∧
    (coapSendLocks (call.message ctx i node 0) (call.io i).send).isSome = true

instance (call : NotifyCall) (ctx : CoapContext) (node : CoapObserver) (i : Nat) :
    Decidable (call.Lists ctx node i) := by
  unfold NotifyCall.Lists
  infer_instance

/-- Some notification from a place on gets there. -/
def NotifyCall.Coming (call : NotifyCall) (ctx : CoapContext) (i : Nat) : Prop :=
  ∃ p ∈ ctx.obsserver.list.zipIdx, i ≤ p.2 ∧ call.Lists ctx p.1 p.2

instance (call : NotifyCall) (ctx : CoapContext) (i : Nat) : Decidable (call.Coming ctx i) := by
  unfold NotifyCall.Coming
  infer_instance

/-- The notify has a notification to list before it unlocks the observer list. -/
def Notifier.Coming (ctx : CoapContext) : Notifier → Prop
  | idle => False
  | entering call => call.Coming ctx 0
  | visiting call i => call.Coming ctx i
  | listing _ _ _ _ _ => True

instance (ctx : CoapContext) : (notifier : Notifier) → Decidable (notifier.Coming ctx)
  | .idle => .isFalse id
  | .entering call => inferInstanceAs (Decidable (call.Coming ctx 0))
  | .visiting call i => inferInstanceAs (Decidable (call.Coming ctx i))
  | .listing _ _ _ _ _ => .isTrue trivial

/-- The notifying thread is about to lock the observer list. -/
def Notifier.Enters : Notifier → Prop
  | entering _ => True
  | _ => False

instance : (notifier : Notifier) → Decidable notifier.Enters
  | .entering _ => .isTrue trivial
  | .idle | .visiting _ _ | .listing _ _ _ _ _ => .isFalse id

/-- `Check_timeout` is about to take out a node. -/
def Cycle.TakesOut (ctx : CoapContext) : Cycle → Prop
  | scanning tick => ∃ node ∈ ctx.sendlist.list, coapTimedOut tick node = true
  | _ => False

instance (ctx : CoapContext) : (cycle : Cycle) → Decidable (cycle.TakesOut ctx)
  | .scanning tick =>
    inferInstanceAs (Decidable (∃ node ∈ ctx.sendlist.list, coapTimedOut tick node = true))
  | .idle | .deleting _ _ | .expired _ _ => .isFalse id

namespace MutexThreads

/-- A node is taken out only while no notify that holds the observer list has a
notification to list, and no such notify locks the list until the node's observers are
deleted. -/
def Careful (s : MutexThreads) : MutexOp → Prop
  | .cycle => s.cycle.TakesOut s.ctx → s.notifier.Holds → ¬ s.notifier.Coming s.ctx
  | .notifier => s.notifier.Enters → s.notifier.Coming s.ctx → ¬ s.cycle.Holds
  | _ => True

instance (s : MutexThreads) (op : MutexOp) : Decidable (s.Careful op) := by
  unfold Careful
  cases op <;> infer_instance

/-- While `Check_timeout` waits for the observer list, its holder lists nothing. -/
def Apart (s : MutexThreads) : Prop :=
  s.cycle.Holds → s.notifier.Holds → ¬ s.notifier.Coming s.ctx

/-! ## The steps of a notify -/

variable {call : NotifyCall} {i : Nat}

theorem coming_of_lists {ctx : CoapContext} {j : Nat} {node : CoapObserver}
    (hnode : ctx.obsserver.list[j]? = some node) (hij : i ≤ j) (h : call.Lists ctx node j) :
    call.Coming ctx i :=
  ⟨(node, j), List.mem_zipIdx_iff_getElem?.mpr hnode, hij, h⟩

theorem lists_congr {ctx ctx' : CoapContext}
    (hres : ctx'.resource = ctx.resource) (node : CoapObserver) (j : Nat) :
    call.Lists ctx' node j ↔ call.Lists ctx node j := by
  unfold NotifyCall.Lists NotifyCall.message NotifyCall.maxage
  rw [hres]

theorem coming_congr {ctx ctx' : CoapContext} (hres : ctx'.resource = ctx.resource)
    (hlist : ∀ j, i ≤ j → ctx'.obsserver.list[j]? = ctx.obsserver.list[j]?)
    (h : call.Coming ctx' i) : call.Coming ctx i := by
  obtain ⟨⟨node, j⟩, hmem, hij, h⟩ := h
  rw [List.mem_zipIdx_iff_getElem?, hlist j hij] at hmem
  exact coming_of_lists hmem hij ((lists_congr hres node j).mp h)

theorem coming_succ {ctx : CoapContext} (h : call.Coming ctx (i + 1)) : call.Coming ctx i := by
  obtain ⟨p, hp, hle, h⟩ := h
  exact ⟨p, hp, Nat.le_of_succ_le hle, h⟩

theorem visit_cases (s : MutexThreads) (call : NotifyCall) (i : Nat) :
    (s.visit call i = { s with notifier := .idle } ∧ s.ctx.obsserver.list[i]? = none) ∨
    (∃ ctx' : CoapContext, s.visit call i = ⟨ctx', .visiting call (i + 1), s.cycle⟩ ∧
      ctx'.resource = s.ctx.resource ∧
      (∀ j, i + 1 ≤ j → ctx'.obsserver.list[j]? = s.ctx.obsserver.list[j]?) ∧
      ∀ node, s.ctx.obsserver.list[i]? = some node → ¬ call.Lists s.ctx node i) ∨
    ∃ ctx' remote message buff node,
      s.visit call i = ⟨ctx', .listing call i remote message buff, s.cycle⟩ ∧
      s.ctx.obsserver.list[i]? = some node ∧ call.Lists s.ctx node i := by
  unfold visit
  cases hnode : s.ctx.obsserver.list[i]? with
  | none => exact .inl ⟨rfl, rfl⟩
  | some node =>
    dsimp only
    by_cases hres : node.resource = call.resource
    · rw [if_pos hres]
      have hlocks : (coapSendLocks (call.message s.ctx i node (coapMessageIdGen s.ctx.messageId).1)
          (call.io i).send).isSome =
          (coapSendLocks (call.message s.ctx i node 0) (call.io i).send).isSome := by
        unfold NotifyCall.message
        rw [notification_eq, sendLocks_idSet]
      cases hbuff : coapSendLocks (call.message s.ctx i node (coapMessageIdGen s.ctx.messageId).1)
          (call.io i).send with
      | some buff =>
        rw [hbuff] at hlocks
        exact .inr (.inr ⟨_, _, _, buff, node, rfl, rfl, hres, hlocks.symm⟩)
      | none =>
        rw [hbuff] at hlocks
        refine .inr (.inl ⟨_, rfl, rfl, fun j hj => ?_, ?_⟩)
        · exact List.getElem?_set_ne (Nat.ne_of_lt hj)
        · rintro x hx ⟨-, h⟩
          cases hx
          rw [← hlocks] at h
          cases h
    · rw [if_neg hres]
      refine .inr (.inl ⟨s.ctx, rfl, rfl, fun _ _ => rfl, ?_⟩)
      rintro x hx ⟨h, -⟩
      cases hx
      exact hres h

theorem exists_of_holds {c : Cycle} (h : c.Holds) : ∃ tick node, c = .deleting tick node := by
  cases c with
  | deleting tick node => exact ⟨tick, node, rfl⟩
  | _ => exact h.elim

/-! ## Every run -/

variable {s : MutexThreads}

theorem apart_stepNotifier (h : s.Apart) (hcare : s.Careful .notifier) : s.stepNotifier.Apart := by
  unfold stepNotifier
  cases hn : s.notifier with
  | idle => exact h
  | entering call =>
    rintro hc - hcoming
    refine hcare ?_ ?_ hc
    · rw [hn]
      exact trivial
    · rw [hn]
      exact hcoming
  | visiting call i =>
    have hcoming (hc : s.cycle.Holds) : ¬ call.Coming s.ctx i := by
      have hnone := h hc
      rw [hn] at hnone
      exact hnone trivial
    dsimp only
    rcases visit_cases s call i with
      ⟨heq, -⟩ | ⟨ctx', heq, hres, hlist, -⟩ |
        ⟨ctx', remote, message, buff, node, heq, hnode, hlists⟩
    · rw [heq]
      exact fun _ hheld => hheld.elim
    · rw [heq]
      exact fun hc _ h' => hcoming hc (coming_succ (coming_congr hres hlist h'))
    · rw [heq]
      exact fun hc _ _ => hcoming hc (coming_of_lists hnode (Nat.le_refl i) hlists)
  | listing call i remote message buff =>
    dsimp only
    split
    · exact h
    · next hc => exact fun hc' => absurd hc' hc

theorem apart_stepCycle (h : s.Apart) (hcare : s.Careful .cycle) : s.stepCycle.Apart := by
  unfold stepCycle
  cases hc : s.cycle with
  | idle => exact h
  | scanning tick =>
    dsimp only
    unfold scan
    rcases splitFirst_cases (coapTimedOut tick) s.ctx.sendlist.list with
      ⟨hnone, -⟩ | ⟨as, node, bs, hsome, hl, hout, -⟩
    · rw [hnone]
      exact fun hc' => hc'.elim
    · rw [hsome]
      -- Only the send list has changed.
      refine fun _ hheld hcoming => hcare ?_ hheld ?_
      · rw [hc]
        exact ⟨node, hl ▸ List.mem_append_right _ List.mem_cons_self, hout⟩
      · cases hn : s.notifier with
        | idle => exact absurd hheld (by rw [hn]; exact id)
        | entering call => exact absurd hheld (by rw [hn]; exact id)
        | visiting call i =>
          rw [hn] at hcoming
          exact coming_congr rfl (fun _ _ => rfl) hcoming
        | listing call i remote message buff => exact trivial
  | deleting tick node =>
    dsimp only
    split
    · exact h
    · exact fun hc' => hc'.elim
  | expired tick node => exact fun hc' => hc'.elim

theorem apart_other (h : s.Apart) (sendlist : CoapList CoapSendNode)
    (obsserver : CoapList CoapObserver) (messageId : UInt16) :
    (s.other sendlist obsserver messageId).Apart := by
  intro hc hheld hcoming
  apply h hc hheld
  have hheld' : s.notifier.Holds := hheld
  unfold other at hcoming
  rw [if_pos hheld'] at hcoming
  cases hn : s.notifier with
  | idle => exact absurd hheld' (by rw [hn]; exact id)
  | entering call => exact absurd hheld' (by rw [hn]; exact id)
  | visiting call i =>
    rw [hn] at hcoming
    exact coming_congr rfl (fun _ _ => rfl) hcoming
  | listing call i remote message buff => exact trivial

theorem apart_next (md5 : List UInt8 → List UInt8) {op : MutexOp}
    (hcare : s.Careful op) (h : s.Apart) : (s.next md5 op).Apart := by
  cases op with
  | notify path payload handler io =>
    unfold next notify
    cases hn : s.notifier with
    | idle =>
      dsimp only
      split
      · exact fun _ hheld => hheld.elim
      · exact h
    | _ => exact h
  | notifier => exact apart_stepNotifier h hcare
  | checkTimeout tick =>
    unfold next
    cases hc : s.cycle with
    | idle => exact fun hc' => hc'.elim
    | _ => exact h
  | cycle => exact apart_stepCycle h hcare
  | retansmit tick =>
    unfold next
    dsimp only
    split
    · next hc =>
      have hnot : ¬ s.cycle.Holds := by
        rw [hc]
        exact id
      exact fun hc' => absurd hc' hnot
    · exact h
  | other sendlist obsserver messageId => exact apart_other h sendlist obsserver messageId

/-- The order in which the mutexes are taken while `Check_timeout` holds the send list,
and otherwise. -/
def rank (s : MutexThreads) : Mutex → Nat
  | .sendlist => if s.cycle.Holds then 0 else 1
  | .obsserver => if s.cycle.Holds then 1 else 0

theorem ordered_of_apart (h : s.Apart) (t : MutexThread) : (s.stance t).Ordered s.rank := by
  intro k hk l hl
  cases t with
  | notifier =>
    unfold stance at hk hl
    cases hn : s.notifier with
    | listing call i remote message buff =>
      have hnot : ¬ s.cycle.Holds := by
        intro hc
        have hnone := h hc
        rw [hn] at hnone
        exact hnone trivial trivial
      rw [hn] at hk hl
      cases hk
      cases List.mem_singleton.mp hl
      unfold rank
      rw [if_neg hnot, if_neg hnot]
      exact Nat.zero_lt_one
    | entering call =>
      rw [hn] at hl
      cases hl
    | _ =>
      rw [hn] at hk
      cases hk
  | cycle =>
    unfold stance at hk hl
    cases hc : s.cycle with
    | deleting tick node =>
      have hheld : s.cycle.Holds := by
        rw [hc]
        exact trivial
      rw [hc] at hk hl
      cases hk
      cases List.mem_singleton.mp hl
      unfold rank
      rw [if_pos hheld, if_pos hheld]
      exact Nat.zero_lt_one
    | scanning tick =>
      rw [hc] at hl
      cases hl
    | _ =>
      rw [hc] at hk
      cases hk

/-- **No lock-order deadlock** in a run that meets the condition. -/
theorem noDeadlock_run (md5 : List UInt8 → List UInt8) (ctx : CoapContext) (ops : List MutexOp)
    (hcare : Meets (next md5) Careful (init ctx) ops) :
    ¬ Deadlock (run (next md5) (init ctx) ops).stance := by
  have happart : (run (next md5) (init ctx) ops).Apart :=
    run_invariant_of_meets (fun _ _ hcare h => apart_next md5 hcare h) hcare fun hc => hc.elim
  exact not_deadlock_of_ordered (ordered_of_apart happart)

/-! ## The deadlock -/

theorem deadlock_of_held {remote : NetworkAddr} {message : OutMessage} {buff : List UInt8}
    (hn : s.notifier = .listing call i remote message buff) (hc : s.cycle.Holds) :
    Deadlock s.stance := by
  obtain ⟨tick, node, hcycle⟩ := exists_of_holds hc
  refine deadlock_of_crossed (t := .notifier) (u := .cycle) ⟨.sendlist, ?_, ?_⟩
    ⟨.obsserver, ?_, ?_⟩
  all_goals
    unfold stance
    dsimp only
  · rw [hn]
    rfl
  · rw [hcycle]
    exact List.mem_cons_self
  · rw [hcycle]
    rfl
  · rw [hn]
    exact List.mem_cons_self

theorem stuck_of_held (md5 : List UInt8 → List UInt8)
    {remote : NetworkAddr} {message : OutMessage} {buff : List UInt8}
    (hn : s.notifier = .listing call i remote message buff) (hc : s.cycle.Holds) (op : MutexOp) :
    (s.next md5 op).notifier = s.notifier ∧ (s.next md5 op).cycle = s.cycle := by
  obtain ⟨tick, node, hcycle⟩ := exists_of_holds hc
  have hheld : s.notifier.Holds := by
    rw [hn]
    exact trivial
  cases op with
  | notifier =>
    have heq : s.stepNotifier = s := by
      unfold stepNotifier
      rw [hn]
      exact if_pos hc
    exact ⟨congrArg notifier heq, congrArg MutexThreads.cycle heq⟩
  | cycle =>
    have heq : s.stepCycle = s := by
      unfold stepCycle
      rw [hcycle]
      exact if_pos hheld
    exact ⟨congrArg notifier heq, congrArg MutexThreads.cycle heq⟩
  | other => exact ⟨rfl, rfl⟩
  | notify =>
    unfold next
    simp only [hn, and_self]
  | _ =>
    unfold next
    simp only [hcycle, and_self]

theorem deadlock_of_visiting (md5 : List UInt8 → List UInt8)
    {node : CoapObserver} {k : Nat} : ∀ {s : MutexThreads} {i : Nat}, s.cycle.Holds →
      s.notifier = .visiting call i → s.ctx.obsserver.list[i + k]? = some node →
      call.Lists s.ctx node (i + k) →
      ∃ n, Deadlock (run (next md5) s (List.replicate n .notifier)).stance := by
  induction k with
  | zero =>
    intro s i hc hn hnode hlists
    have hstep : s.next md5 .notifier = s.visit call i := by
      show s.stepNotifier = _
      unfold stepNotifier
      rw [hn]
    refine ⟨1, ?_⟩
    show Deadlock (s.next md5 .notifier).stance
    rw [hstep]
    rcases visit_cases s call i with
      ⟨-, hend⟩ | ⟨ctx', -, -, -, hnot⟩ | ⟨ctx', remote, message, buff, -, heq, -, -⟩
    · cases hnode.symm.trans hend
    · exact absurd hlists (hnot node hnode)
    · rw [heq]
      exact deadlock_of_held rfl hc
  | succ k ih =>
    intro s i hc hn hnode hlists
    have hstep : s.next md5 .notifier = s.visit call i := by
      show s.stepNotifier = _
      unfold stepNotifier
      rw [hn]
    rcases visit_cases s call i with
      ⟨-, hend⟩ | ⟨ctx', heq, hres, hlist, -⟩ | ⟨ctx', remote, message, buff, -, heq, -, -⟩
    · have hle := List.getElem?_eq_none_iff.mp hend
      rw [List.getElem?_eq_none (Nat.le_trans hle (Nat.le_add_right i (k + 1)))] at hnode
      cases hnode
    · have hplace : i + 1 + k = i + (k + 1) := by omega
      obtain ⟨n, hn'⟩ := ih (s := ⟨ctx', .visiting call (i + 1), s.cycle⟩) hc rfl
        (by rw [hlist _ (Nat.le_add_right _ _), hplace]; exact hnode)
        (by rw [lists_congr hres, hplace]; exact hlists)
      refine ⟨n + 1, ?_⟩
      rw [List.replicate_succ, run_cons, hstep, heq]
      exact hn'
    · refine ⟨1, ?_⟩
      show Deadlock (s.next md5 .notifier).stance
      rw [hstep, heq]
      exact deadlock_of_held rfl hc

theorem deadlock_of_coming (md5 : List UInt8 → List UInt8) (hc : s.cycle.Holds)
    (hheld : s.notifier.Holds) (hcoming : s.notifier.Coming s.ctx) :
    ∃ n, Deadlock (run (next md5) s (List.replicate n .notifier)).stance := by
  cases hn : s.notifier with
  | idle => exact absurd hheld (by rw [hn]; exact id)
  | entering call => exact absurd hheld (by rw [hn]; exact id)
  | listing call i remote message buff => exact ⟨0, deadlock_of_held hn hc⟩
  | visiting call i =>
    rw [hn] at hcoming
    obtain ⟨⟨node, j⟩, hmem, hij, hlists⟩ := hcoming
    obtain ⟨k, rfl⟩ := Nat.exists_eq_add_of_le hij
    exact deadlock_of_visiting md5 hc hn (List.mem_zipIdx_iff_getElem?.mp hmem) hlists

theorem deadlock_of_not_careful (md5 : List UInt8 → List UInt8) {op : MutexOp}
    (hnot : ¬ s.Careful op) :
    ∃ n, Deadlock (run (next md5) (s.next md5 op) (List.replicate n .notifier)).stance := by
  cases op with
  | notifier =>
    unfold Careful at hnot
    rw [Classical.not_imp, Classical.not_imp, Classical.not_not] at hnot
    obtain ⟨henter, hcoming, hc⟩ := hnot
    cases hn : s.notifier with
    | entering call =>
      have hstep : s.next md5 .notifier = { s with notifier := .visiting call 0 } := by
        show s.stepNotifier = _
        unfold stepNotifier
        rw [hn]
      rw [hn] at hcoming
      rw [hstep]
      exact deadlock_of_coming md5 hc trivial hcoming
    | _ => exact absurd henter (by rw [hn]; exact id)
  | cycle =>
    unfold Careful at hnot
    rw [Classical.not_imp, Classical.not_imp, Classical.not_not] at hnot
    obtain ⟨htakes, hheld, hcoming⟩ := hnot
    cases hc : s.cycle with
    | scanning tick =>
      rw [hc] at htakes
      obtain ⟨node, hnode, hout⟩ := htakes
      rcases splitFirst_cases (coapTimedOut tick) s.ctx.sendlist.list with
        ⟨-, hall⟩ | ⟨as, first, bs, hsome, -, -, -⟩
      · rw [hall node hnode] at hout
        cases hout
      · have hstep : s.next md5 .cycle = s.scan tick := by
          show s.stepCycle = _
          unfold stepCycle
          rw [hc]
        rw [hstep]
        unfold scan
        rw [hsome]
        refine deadlock_of_coming md5 trivial hheld ?_
        cases hn : s.notifier with
        | visiting call i =>
          rw [hn] at hcoming
          exact coming_congr rfl (fun _ _ => rfl) hcoming
        | listing call i remote message buff => exact trivial
        | _ => exact absurd hheld (by rw [hn]; exact id)
    | _ => exact absurd htakes (by rw [hc]; exact id)
  | _ => exact absurd trivial hnot

/-- A context with one resource, and an observer of it that is sent confirmable messages. -/
def observedContext : CoapContext where
  messageId := 1
  sendlist := ⟨[], 0, 8⟩
  obsserver := ⟨[⟨⟨[], 5683⟩, [0x01], 50, 0, 0, coapMessageTypeCon⟩], 1, 8⟩
  obsclient := ⟨[], 0, 8⟩
  resource := ⟨[⟨⟨1, 50, 60, none⟩, [1, 1, 1, 1, 1], none, .normal⟩], 1, 8⟩
  nextId := 0

/-- A notify of a one-byte payload, whose datagram of `written` bytes is sent. -/
def notifyOne (written : Int) : MutexOp :=
  .notify ⟨[chSlash, 0x61], by decide⟩ ⟨[0x31], by decide⟩ false
    fun _ => ⟨true, true, true, none, ⟨true, written, true, false, 0⟩⟩

/-- A notification is sent, listed and retransmitted for the last time. -/
def unansweredRun : List MutexOp :=
  [notifyOne 12, .notifier, .notifier, .notifier, .notifier] ++
    (List.range 8).map fun k => .retansmit (20000 * (k + 1))

def timedOutRun : List MutexOp :=
  unansweredRun ++ [.checkTimeout 200000, .cycle, .cycle, .cycle, .cycle, notifyOne 13, .notifier]

theorem noDeadlock_timedOutRun :
    ¬ Deadlock
      (run (next fun _ => List.replicate 16 1) (init observedContext) timedOutRun).stance ∧
    (run (next fun _ => List.replicate 16 1) (init observedContext) timedOutRun).ctx.sendlist.list =
      [] ∧
    (run (next fun _ => List.replicate 16 1) (init observedContext)
      timedOutRun).ctx.obsserver.list =
      [] :=
  ⟨noDeadlock_run _ observedContext timedOutRun (by decide), by decide, by decide⟩

/-- The notification times out while the next one is between its datagram and the list. -/
def crossedRun : List MutexOp :=
  unansweredRun ++ [notifyOne 13, .notifier, .notifier, .checkTimeout 200000, .cycle]

theorem crossedRun_deadlock :
    Deadlock (run (next fun _ => List.replicate 16 1)
      (init observedContext) crossedRun).stance := by
  have hn : (run (next fun _ => List.replicate 16 1) (init observedContext) crossedRun).stance
      .notifier = ⟨[.obsserver], some .sendlist⟩ := by decide
  have hc : (run (next fun _ => List.replicate 16 1) (init observedContext) crossedRun).stance
      .cycle = ⟨[.sendlist], some .obsserver⟩ := by decide
  refine deadlock_of_crossed (t := .notifier) (u := .cycle) ⟨.sendlist, ?_, ?_⟩
    ⟨.obsserver, ?_, ?_⟩
  · rw [hn]
  · rw [hc]
    exact List.mem_cons_self
  · rw [hc]
  · rw [hn]
    exact List.mem_cons_self

end MutexThreads

end AliyunIot.Coap
