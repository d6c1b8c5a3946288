import AliyunIot.Mqtt.SyncCaller
import Mathlib.Data.List.Nodup

/-!
# Synchronous subscribe

`Sys.Inv` is the invariant of the runs whose steps are timely: the requests
under way have different packet ids, and each record of `list_sub_sync_ack` is
that of one of them. `Sys.Inv.of_step` keeps it over a step of a caller,
`Sys.Inv.of_suback` over a SUBACK, and `subscribeSync_acked` is what such runs
guarantee to an acknowledged caller.
-/

namespace AliyunIot.Mqtt

open Lib

/-! ## The invariant -/

/-- What holds of one call: its record is in the list under its packet id, and
once acknowledged the call is under way or has returned that id. -/
structure Thread.Ok (list : List SubSyncNode) (t : Thread) : Prop where
  record : ∀ block, t.subed = some block → ∃ node ∈ list, node.block = block ∧
    t.held = some node.packetId ∧ (t.acked ≠ none → node.ackType = .subscribeSuccess)
  acked : ∀ m, t.acked = some m → 0 < m ∧ (t.pc = .done m ∨ t.held = some m ∧ t.pc ≠ .cleanup)
  unlinked : t.pc.subscribing = true → t.subed = none
  held_pos : ∀ m, t.held = some m → 0 < m
  ret_ne : t.ret ≠ 0

/-- Calls hold different packet ids, and every record is that of one call. -/
structure Sys.Inv (s : Sys) : Prop where
  threads : ∀ i t, s.threads i = some t → t.Ok s.client.listSubSyncAck
  distinct : ∀ i j t u m, i ≠ j → s.threads i = some t → s.threads j = some u →
    t.held = some m → u.held ≠ some m
  owner : ∀ node ∈ s.client.listSubSyncAck, ∃ i t, s.threads i = some t ∧
    t.subed = some node.block ∧ t.held = some node.packetId
  nodup : (s.client.listSubSyncAck.map (·.packetId)).Nodup

/-- The client and call `i` after a step of the call. -/
abbrev Sys.put (s : Sys) (i : Nat) (c : Client) (t : Thread) : Sys :=
  ⟨c, Function.update s.threads i (some t)⟩

namespace Sys.Inv

variable {s : Sys}

theorem owner_self (h : s.Inv) {i : Nat} {t : Thread} (ht : s.threads i = some t)
    {node : SubSyncNode} (hn : node ∈ s.client.listSubSyncAck)
    (hheld : t.held = some node.packetId) : t.subed = some node.block := by
  obtain ⟨j, u, hu, hsub, hheld'⟩ := h.owner node hn
  by_cases hij : i = j
  · subst hij
    rw [ht] at hu
    rwa [Option.some.inj hu]
  · exact absurd hheld' (h.distinct i j t u _ hij ht hu hheld)

theorem update_cases {threads : Nat → Option Thread} {i j : Nat} {t' u : Thread}
    (h : Function.update threads i (some t') j = some u) :
    (j = i ∧ u = t') ∨ (j ≠ i ∧ threads j = some u) := by
  by_cases hji : j = i
  · subst hji
    rw [Function.update_self] at h
    exact .inl ⟨rfl, (Option.some.inj h).symm⟩
  · rw [Function.update_of_ne hji] at h
    exact .inr ⟨hji, h⟩

/-- A step of call `i` that leaves the records of the others, and gives every
record that is left to it or to one of them. -/
theorem of_thread (h : s.Inv) {i : Nat} {t t' : Thread} (ht : s.threads i = some t) {c' : Client}
    (keep : ∀ node ∈ s.client.listSubSyncAck, t.held ≠ some node.packetId →
      node ∈ c'.listSubSyncAck)
    (ok : t'.Ok c'.listSubSyncAck) (held : ∀ m, t'.held = some m → t.held = some m ∨
      ∀ j u, j ≠ i → s.threads j = some u → u.held ≠ some m)
    (owner : ∀ node ∈ c'.listSubSyncAck,
      (node ∈ s.client.listSubSyncAck ∧ t.held ≠ some node.packetId) ∨
      (t'.subed = some node.block ∧ t'.held = some node.packetId))
    (nodup : (c'.listSubSyncAck.map (·.packetId)).Nodup) :
    (s.put i c' t').Inv where
  threads j u hu := by
    rcases update_cases hu with ⟨-, rfl⟩ | ⟨hji, hu⟩
    · exact ok
    · have hok := h.threads j u hu
      refine ⟨fun block hb => ?_, hok.acked, hok.unlinked, hok.held_pos, hok.ret_ne⟩
      obtain ⟨node, hn, hblock, hheld, hack⟩ := hok.record block hb
      exact ⟨node, keep node hn fun hti => h.distinct j i u t _ hji hu ht hheld hti, hblock, hheld,
        hack⟩
  distinct j k u v m hjk hu hv hm hm' := by
    have hfresh : ∀ l w, l ≠ i → s.threads l = some w → w.held = some m → t'.held ≠ some m :=
      fun l w hl hw hwm hm => by
        rcases held m hm with ht' | hne
        · exact h.distinct l i w t m hl hw ht hwm ht'
        · exact hne l w hl hw hwm
    rcases update_cases hu with ⟨rfl, rfl⟩ | ⟨hji, hu'⟩
    · rcases update_cases hv with ⟨rfl, -⟩ | ⟨hki, hv'⟩
      · exact hjk rfl
      · exact hfresh k v hki hv' hm' hm
    · rcases update_cases hv with ⟨rfl, rfl⟩ | ⟨hki, hv'⟩
      · exact hfresh j u hji hu' hm hm'
      · exact h.distinct j k u v m hjk hu' hv' hm hm'
  owner node hn := by
    rcases owner node hn with ⟨hmem, hne⟩ | ⟨hsub, hheld⟩
    · obtain ⟨j, u, hu, hsub, hheld⟩ := h.owner node hmem
      have hji : j ≠ i := by
        rintro rfl
        rw [ht] at hu
        exact hne (Option.some.inj hu ▸ hheld)
      exact ⟨j, u, (Function.update_of_ne hji _ _).trans hu, hsub, hheld⟩
    · exact ⟨i, t', Function.update_self .., hsub, hheld⟩
  nodup := nodup

theorem of_local (h : s.Inv) {i : Nat} {t t' : Thread} (ht : s.threads i = some t) {c' : Client}
    (list : c'.listSubSyncAck = s.client.listSubSyncAck) (subed : t'.subed = t.subed)
    (ok : t'.Ok s.client.listSubSyncAck)
    (held : t'.held = t.held ∨ t.subed = none ∧ ∀ m, t'.held = some m → t.held = some m ∨
      ∀ j u, j ≠ i → s.threads j = some u → u.held ≠ some m) : (s.put i c' t').Inv := by
  refine h.of_thread ht (fun node hn _ => by rw [list]; exact hn) (by rw [list]; exact ok)
    (fun m hm => ?_) (fun node hn => ?_) (by rw [list]; exact h.nodup)
  · rcases held with heq | ⟨-, hnew⟩
    · exact .inl (heq ▸ hm)
    · exact hnew m hm
  · rw [list] at hn
    by_cases hheld : t.held = some node.packetId
    · have hsub := h.owner_self ht hn hheld
      rcases held with heq | ⟨hnone, -⟩
      · exact .inr ⟨subed.trans hsub, heq.trans hheld⟩
      · rw [hnone] at hsub
        cases hsub
    · exact .inl ⟨hn, hheld⟩

end Sys.Inv

/-! ## Steps -/

/-- In the loop of `wrapper_mqtt_subscribe_sync`, where `ret` carries the packet id. -/
def Pc.inLoop : Pc → Bool
  | .enter | .subscribed | .link | .poll | .timer | .cleanup => true
  | _ => false

/-- The call has not returned. -/
def Pc.underWay : Pc → Bool
  | .done _ => false
  | _ => true

theorem Pc.underWay_of_inLoop {pc : Pc} (h : pc.inLoop = true) : pc.underWay = true := by
  cases pc <;> first | rfl | cases h

namespace Thread

variable {t : Thread} {list : List SubSyncNode}

theorem held_inLoop (h : t.pc.inLoop = true) :
    t.held = if 0 < t.ret then some t.ret.toNat else none := by
  unfold held
  cases hpc : t.pc <;> first | rfl | (rw [hpc] at h; cases h)

theorem held_move (h : t.pc.inLoop = true) {pc : Pc} (hpc : pc.inLoop = true) :
    ({ t with pc := pc } : Thread).held = t.held := by
  rw [held_inLoop h]
  exact held_inLoop hpc

theorem ret_of_held {m : Nat} (h : t.pc.inLoop = true) (hm : t.held = some m) :
    (m : Int) = t.ret := by
  rw [held_inLoop h] at hm
  split at hm
  · have := Option.some.inj hm
    omega
  · cases hm

theorem held_of_acked (h : t.Ok list) (hpc : t.pc.underWay = true) {m : Nat}
    (hm : t.acked = some m) : 0 < m ∧ t.held = some m ∧ t.pc ≠ .cleanup := by
  obtain ⟨hpos, hd | hh⟩ := h.acked m hm
  · rw [hd] at hpc
    cases hpc
  · exact ⟨hpos, hh⟩

theorem acked_none_of_held (h : t.Ok list) (hheld : t.held = none) (hpc : t.pc.underWay = true) :
    t.acked = none := by
  cases hm : t.acked with
  | none => rfl
  | some m =>
    have hh := (held_of_acked h hpc hm).2.1
    rw [hheld] at hh
    cases hh

theorem subed_none_of_held (h : t.Ok list) (hheld : t.held = none) : t.subed = none := by
  cases hb : t.subed with
  | none => rfl
  | some block =>
    obtain ⟨node, -, -, hh, -⟩ := h.record block hb
    rw [hheld] at hh
    cases hh

theorem Ok.move {t' : Thread} (h : t.Ok list) (hheld : t'.held = t.held) (hsub : t'.subed = t.subed)
    (hack : t'.acked = t.acked) (hret : t'.ret ≠ 0) (hpc : t'.pc ≠ .cleanup)
    (hun : t'.pc.subscribing = true → t.subed = none) (hway : t.pc.underWay = true) :
    t'.Ok list where
  record block hb := by
    rw [hsub] at hb
    rw [hheld, hack]
    exact h.record block hb
  acked m hm := by
    obtain ⟨hpos, hh, -⟩ := held_of_acked h hway (hack ▸ hm)
    exact ⟨hpos, .inr ⟨hheld.trans hh, hpc⟩⟩
  unlinked hp := hsub.trans (hun hp)
  held_pos m hm := h.held_pos m (hheld ▸ hm)
  ret_ne := hret

theorem Ok.fresh {t' : Thread} (hsub : t'.subed = none) (hack : t'.acked = none)
    (hpos : ∀ m, t'.held = some m → 0 < m) (hret : t'.ret ≠ 0) : t'.Ok list where
  record block hb := by rw [hsub] at hb; cases hb
  acked m hm := by rw [hack] at hm; cases hm
  unlinked _ := hsub
  held_pos := hpos
  ret_ne := hret

end Thread

theorem mqttSubscribeSend_listSubSyncAck (c : Client) (topicFilter : CStr) (qos msgId : Nat)
    (messageHandler : Option Nat) (io : SubscribeIo) :
    (mqttSubscribeSend c topicFilter qos msgId messageHandler io).2.listSubSyncAck =
      c.listSubSyncAck := by
  simp only [mqttSubscribeSend]
  (repeat' split) <;> simp

theorem subscribeInsert_listSubSyncAck (c : Client) (handler : TopicHandle) :
    (subscribeInsert c handler).listSubSyncAck = c.listSubSyncAck := by
  simp only [subscribeInsert]
  split <;> rfl

theorem nextPacketid_pos (c : Client) : 0 < (iotxMcGetNextPacketid c).1 := by
  simp only [iotxMcGetNextPacketid]
  split
  · exact Nat.one_pos
  · exact Nat.succ_pos _

namespace Sys.Inv

variable {s : Sys} {i : Nat} {t : Thread}

theorem of_refuse (h : s.Inv) (ht : s.threads i = some t) {c' : Client} {rc : Int}
    (list : c'.listSubSyncAck = s.client.listSubSyncAck) (hsub : t.subed = none)
    (hack : t.acked = none) (hrc : rc < 0) : (s.put i c' (t.refuse rc)).Inv := by
  have hheld : (t.refuse rc).held = none := if_neg (by simp only [Thread.refuse]; omega)
  refine h.of_local ht list rfl (Thread.Ok.fresh hsub hack (fun m hm => ?_) (Int.ne_of_lt hrc))
    (.inr ⟨hsub, fun m hm => ?_⟩) <;>
  · rw [hheld] at hm
    cases hm

theorem of_move (h : s.Inv) (ht : s.threads i = some t) {c' : Client} {t' : Thread}
    (list : c'.listSubSyncAck = s.client.listSubSyncAck) (hheld : t'.held = t.held)
    (hsub : t'.subed = t.subed) (hack : t'.acked = t.acked) (hret : t'.ret ≠ 0)
    (hpc : t'.pc ≠ .cleanup) (hun : t'.pc.subscribing = true → t.subed = none)
    (hway : t.pc.underWay = true) : (s.put i c' t').Inv :=
  h.of_local ht list hsub ((h.threads i t ht).move hheld hsub hack hret hpc hun hway) (.inl hheld)

theorem of_next (h : s.Inv) (ht : s.threads i = some t) (hin : t.pc.inLoop = true) {pc : Pc}
    (hpc : pc.inLoop = true) (hsub : pc.subscribing = false) (hcl : pc ≠ .cleanup) :
    (s.put i s.client { t with pc := pc }).Inv := by
  refine h.of_move ht rfl (Thread.held_move hin hpc) rfl rfl (h.threads i t ht).ret_ne hcl
    (fun hp => ?_) (Pc.underWay_of_inLoop hin)
  exact absurd (hsub.symm.trans hp) (by decide)

theorem of_take (h : s.Inv) (ht : s.threads i = some t) {node : SubSyncNode}
    {rest : List SubSyncNode} (hlist : s.client.listSubSyncAck = node :: rest)
    (hnode : t.held = some node.packetId) {t' : Thread} (hok : t'.Ok rest)
    (hnone : t'.held = none) : (s.put i { s.client with listSubSyncAck := rest } t').Inv := by
  have hnodup := h.nodup
  rw [hlist, List.map_cons, List.nodup_cons] at hnodup
  refine h.of_thread ht (fun n hn hne => ?_) hok (fun m hm => ?_)
    (fun n hn => .inl ⟨?_, fun he => ?_⟩) hnodup.2
  · rw [hlist] at hn
    rcases List.mem_cons.mp hn with rfl | hn
    · exact absurd hnode hne
    · exact hn
  · rw [hnone] at hm
    cases hm
  · rw [hlist]
    exact List.mem_cons_of_mem _ hn
  -- what is left belongs to other calls
  · rw [hnode] at he
    exact hnodup.1 (Option.some.inj he ▸ List.mem_map_of_mem hn)

theorem ackType_of_acked (h : s.Inv) (ht : s.threads i = some t) {node : SubSyncNode}
    (hn : node ∈ s.client.listSubSyncAck) (hheld : t.held = some node.packetId)
    (hack : t.acked ≠ none) : node.ackType = .subscribeSuccess := by
  obtain ⟨node', hn', -, hh, hs⟩ := (h.threads i t ht).record _ (h.owner_self ht hn hheld)
  have heq : node' = node :=
    List.inj_on_of_nodup_map h.nodup hn' hn (Option.some.inj (hh.symm.trans hheld))
  exact heq ▸ hs hack

theorem of_poll (h : s.Inv) (ht : s.threads i = some t) (hpc : t.pc = .poll) :
    (s.put i (t.poll s.client).1 (t.poll s.client).2).Inv := by
  have hok := h.threads i t ht
  have hin : t.pc.inLoop = true := by rw [hpc]; rfl
  have hnext : (s.put i s.client { t with pc := .timer }).Inv :=
    h.of_next ht hin rfl rfl (by decide)
  unfold Thread.poll
  rcases hlist : s.client.listSubSyncAck with _ | ⟨node, rest⟩
  · exact hnext
  simp only
  split
  swap
  · exact hnext
  next hret =>
  have hnode : t.held = some node.packetId := by
    rw [Thread.held_inLoop hin, if_pos (by have := hok.ret_ne; omega), ← hret, Int.toNat_natCast]
  have hgiveUp : node.ackType ≠ .subscribeSuccess →
      (s.put i { s.client with listSubSyncAck := rest }
        { t with pc := .timer, ret := -1, subed := none }).Inv := by
    intro hne
    -- a record that says otherwise has not been acknowledged
    have hack : t.acked = none := by_contra fun ha =>
      hne (h.ackType_of_acked ht (hlist ▸ List.mem_cons_self) hnode ha)
    exact h.of_take ht hlist hnode
      (Thread.Ok.fresh rfl hack (fun m hm => by cases hm) (show (-1 : Int) ≠ 0 by decide)) rfl
  cases hty : node.ackType with
  | subscribeSuccess =>
    refine h.of_take ht hlist hnode ⟨(fun block hb => by cases hb), fun m hm => ?_, fun _ => rfl,
      (fun m hm => by cases hm), hok.ret_ne⟩ rfl
    obtain ⟨hpos, hh, -⟩ := Thread.held_of_acked hok (Pc.underWay_of_inLoop hin) hm
    exact ⟨hpos, .inl (congrArg Pc.done (Thread.ret_of_held hin hh).symm)⟩
  | subscribeNack => exact hgiveUp (by rw [hty]; decide)
  | subscribeTimeout => exact hgiveUp (by rw [hty]; decide)
  | undef => exact hnext
  | unsubscribeSuccess => exact hnext
  | publishSuccess => exact hnext
  | publishReceived => exact hnext
  | bufferOverflow => exact hnext

theorem of_link (h : s.Inv) (ht : s.threads i = some t) (hpc : t.pc = .link)
    (hsub : t.subed = none) (hret : 0 ≤ t.ret) (hack : t.acked = none) : let node : SubSyncNode :=
      { block := s.client.heapNext, packetId := t.ret.toNat, ackType := .undef }
    (s.put i { s.client with
        listSubSyncAck := s.client.listSubSyncAck ++ [node], heapNext := s.client.heapNext + 1 }
      { t with pc := .poll, subed := some node.block }).Inv := by
  intro node
  have hok := h.threads i t ht
  have hpos : 0 < t.ret := by
    have := hok.ret_ne
    omega
  have hheld : t.held = some t.ret.toNat := by
    rw [Thread.held_inLoop (by rw [hpc]; rfl), if_pos hpos]
  have hheld' : ({ t with pc := .poll, subed := some node.block } : Thread).held =
      some t.ret.toNat := if_pos hpos
  have hnew : ∀ n ∈ s.client.listSubSyncAck, n.packetId ≠ t.ret.toNat := fun n hn he => by
    have := h.owner_self ht hn (he ▸ hheld)
    rw [hsub] at this
    cases this
  have hmem : node ∈ s.client.listSubSyncAck ++ [node] :=
    List.mem_append_right _ (List.mem_singleton.mpr rfl)
  refine h.of_thread ht (fun n hn _ => List.mem_append_left _ hn) ?_
    (fun m hm => .inl (by rw [hheld, ← hheld']; exact hm)) (fun n hn => ?_) ?_
  · exact ⟨fun block hb => ⟨node, hmem, Option.some.inj hb, hheld', fun hne => absurd hack hne⟩,
      (fun m hm => by rw [hack] at hm; cases hm), (fun hp => by cases hp),
      fun m hm => hok.held_pos m (by rw [hheld, ← hheld']; exact hm), hok.ret_ne⟩
  · rcases List.mem_append.mp hn with hn | hn
    · exact .inl ⟨hn, fun he => hnew n hn (by rw [hheld] at he; exact (Option.some.inj he).symm)⟩
    · rw [List.mem_singleton.mp hn]
      exact .inr ⟨rfl, hheld'⟩
  · rw [List.map_append, List.map_singleton, List.nodup_append]
    refine ⟨h.nodup, by simp, fun a ha b hb => ?_⟩
    obtain ⟨n, hn, rfl⟩ := List.mem_map.mp ha
    rw [List.mem_singleton.mp hb]
    exact hnew n hn

theorem of_cleanup (h : s.Inv) (ht : s.threads i = some t) (hpc : t.pc = .cleanup) :
    Sys.Inv ⟨{ s.client with
        listSubSyncAck :=
          s.client.listSubSyncAck.filter fun node => (node.packetId : Int) ≠ t.ret },
      Function.update s.threads i
        (some { t with pc := .done State.mqttSyncSubTimeout, subed := none })⟩ := by
  have hok := h.threads i t ht
  have hin : t.pc.inLoop = true := by rw [hpc]; rfl
  have hack : t.acked = none := by
    cases hm : t.acked with
    | none => rfl
    | some m => exact absurd hpc (Thread.held_of_acked hok (Pc.underWay_of_inLoop hin) hm).2.2
  refine h.of_thread ht (fun n hn hne => ?_)
    (Thread.Ok.fresh rfl hack (fun m hm => by cases hm) hok.ret_ne) (fun m hm => by cases hm)
    (fun n hn => ?_) (h.nodup.sublist (List.filter_sublist.map _))
  · refine List.mem_filter.mpr ⟨hn, decide_eq_true fun he => hne ?_⟩
    have hpos := hok.ret_ne
    rw [Thread.held_inLoop hin, if_pos (by omega), ← he, Int.toNat_natCast]
  · obtain ⟨hmem, hne⟩ := List.mem_filter.mp hn
    exact .inl ⟨hmem, fun he => of_decide_eq_true hne (Thread.ret_of_held hin he)⟩

theorem of_enter (h : s.Inv) {io : SyncIo} (htm : s.Timely (.thread i io))
    (ht : s.threads i = some t) (hpc : t.pc = .enter) :
    (s.put i (t.step s.client io).1 (t.step s.client io).2).Inv := by
  have hok := h.threads i t ht
  have hin : t.pc.inLoop = true := by rw [hpc]; rfl
  have hid := htm t ht
  simp only [hpc] at hid
  simp only [Thread.step, hpc]
  by_cases hret : t.ret < 0
  swap
  · rw [if_neg hret]
    exact h.of_next ht hin rfl rfl (by decide)
  rw [if_pos hret]
  have hnone : t.held = none := by
    rw [Thread.held_inLoop hin, if_neg (by omega)]
  have hsub := Thread.subed_none_of_held hok hnone
  have hack := Thread.acked_none_of_held hok hnone (Pc.underWay_of_inLoop hin)
  split
  · exact h.of_refuse ht rfl hsub hack State.userInputInvalid_lt
  · refine h.of_local ht rfl rfl (Thread.Ok.fresh hsub hack (fun m hm => ?_) hok.ret_ne)
      (.inr ⟨hsub, fun m hm => .inr ?_⟩)
    · rw [← Option.some.inj hm]
      exact nextPacketid_pos _
    · rw [← Option.some.inj hm]
      exact hid hret

variable {msgId : Nat}

theorem of_checkState (h : s.Inv) {io : SyncIo} (htm : s.Timely (.thread i io))
    (ht : s.threads i = some t) (hpc : t.pc = .checkState msgId) :
    (s.put i (t.step s.client io).1 (t.step s.client io).2).Inv := by
  have hok := h.threads i t ht
  have hsent := htm t ht
  simp only [hpc] at hsent
  have hsub := hok.unlinked (by rw [hpc]; rfl)
  have hheld : t.held = some msgId := by rw [Thread.held, hpc]
  simp only [Thread.step, hpc]
  by_cases hst : wrapperMqttCheckState s.client = true
  swap
  · rw [if_pos (by simpa using hst)]
    exact h.of_refuse ht rfl hsub (by_contra fun hne => hst (hsent hne).1)
      State.mqttInOfflineStatus_lt
  rw [if_neg (by simpa using hst)]
  by_cases hrc : iotxMcCheckTopic t.args.topicFilter .topicFilter < State.success
  · rw [if_pos hrc]
    exact h.of_refuse ht rfl hsub
      (by_contra fun hne => absurd hrc (Int.not_lt.mpr (hsent hne).2)) hrc
  · rw [if_neg hrc]
    exact h.of_move ht rfl hheld.symm rfl rfl hok.ret_ne (by simp) (fun _ => hsub)
      (by rw [hpc]; rfl)

theorem of_send (h : s.Inv) {io : SyncIo} (htm : s.Timely (.thread i io))
    (ht : s.threads i = some t) (hpc : t.pc = .send msgId) :
    (s.put i (t.step s.client io).1 (t.step s.client io).2).Inv := by
  have hok := h.threads i t ht
  have hsent := htm t ht
  simp only [hpc] at hsent
  have hsub := hok.unlinked (by rw [hpc]; rfl)
  have hheld : t.held = some msgId := by rw [Thread.held, hpc]
  have hlist := mqttSubscribeSend_listSubSyncAck s.client t.args.topicFilter t.args.qos msgId
    t.args.topicHandleFunc io.subscribe
  simp only [Thread.step, hpc]
  by_cases hrc : (mqttSubscribeSend s.client t.args.topicFilter t.args.qos msgId
      t.args.topicHandleFunc io.subscribe).1 < State.success
  swap
  · rw [if_neg hrc]
    exact h.of_move ht hlist hheld.symm rfl rfl hok.ret_ne (by simp) (fun _ => hsub)
      (by rw [hpc]; rfl)
  rw [if_pos hrc]
  have hack : t.acked = none := by_contra fun hne => absurd hrc (Int.not_lt.mpr (hsent hne))
  split
  · exact h.of_local ht hlist rfl (Thread.Ok.fresh hsub hack (fun m hm => by cases hm) hok.ret_ne)
      (.inr ⟨hsub, fun m hm => by cases hm⟩)
  · exact h.of_refuse ht hlist hsub hack hrc

theorem of_insert (h : s.Inv) (ht : s.threads i = some t)
    (hpc : t.pc = .insert msgId) (handler : TopicHandle) :
    (s.put i (subscribeInsert s.client handler)
      { t with pc := .subscribed, ret := msgId }).Inv := by
  have hok := h.threads i t ht
  have hsub := hok.unlinked (by rw [hpc]; rfl)
  have hheld : t.held = some msgId := by rw [Thread.held, hpc]
  have hpos : (0 : Int) < msgId := by
    have := hok.held_pos msgId hheld
    omega
  refine h.of_move ht (subscribeInsert_listSubSyncAck ..) ?_ rfl rfl (Int.ne_of_gt hpos) (by simp)
    (fun _ => hsub) (by rw [hpc]; rfl)
  rw [hheld]
  exact if_pos hpos

theorem of_return (h : s.Inv) (ht : s.threads i = some t) (hpc : t.pc = .subscribed) :
    (s.put i s.client { t with pc := .done t.ret }).Inv := by
  have hok := h.threads i t ht
  have hin : t.pc.inLoop = true := by rw [hpc]; rfl
  have hsub := hok.unlinked (by rw [hpc]; rfl)
  refine h.of_local ht rfl rfl ⟨fun block hb => ?_, fun m hm => ?_, (fun hp => by cases hp),
    (fun m hm => by cases hm), hok.ret_ne⟩ (.inr ⟨hsub, (fun m hm => by cases hm)⟩)
  · exact absurd (hsub.symm.trans hb) (by simp)
  · obtain ⟨hpos, hh, -⟩ := Thread.held_of_acked hok (Pc.underWay_of_inLoop hin) hm
    exact ⟨hpos, .inl (congrArg Pc.done (Thread.ret_of_held hin hh).symm)⟩

theorem of_expired (h : s.Inv) (ht : s.threads i = some t) (hpc : t.pc = .timer)
    (hack : t.acked = none) : (s.put i s.client { t with pc := .cleanup }).Inv := by
  have hok := h.threads i t ht
  have hheld : ({ t with pc := .cleanup } : Thread).held = t.held :=
    Thread.held_move (by rw [hpc]; rfl) rfl
  refine h.of_local ht rfl rfl ⟨?_, (fun m hm => ?_), (fun hp => by cases hp), ?_, hok.ret_ne⟩
    (.inl hheld)
  · rw [hheld]
    exact hok.record
  · exact absurd (hack.symm.trans hm) (by simp)
  · rw [hheld]
    exact hok.held_pos

theorem of_step (h : s.Inv) {io : SyncIo} (htm : s.Timely (.thread i io))
    (ht : s.threads i = some t) : (s.put i (t.step s.client io).1 (t.step s.client io).2).Inv := by
  have hok := h.threads i t ht
  have htm' := htm t ht
  cases hpc : t.pc with
  | enter => exact h.of_enter htm ht hpc
  | checkState msgId => exact h.of_checkState htm ht hpc
  | send msgId => exact h.of_send htm ht hpc
  | insert msgId =>
    simp only [Thread.step, hpc]
    exact h.of_insert ht hpc _
  | fail =>
    have hnone : t.held = none := by rw [Thread.held, hpc]
    simp only [Thread.step, hpc]
    exact h.of_refuse ht rfl (Thread.subed_none_of_held hok hnone)
      (Thread.acked_none_of_held hok hnone (by rw [hpc]; rfl)) State.sysDependNwkClose_lt
  | subscribed =>
    simp only [Thread.step, hpc]
    split
    · exact h.of_return ht hpc
    · exact h.of_next ht (by rw [hpc]; rfl) rfl rfl (by decide)
  | link =>
    simp only [hpc] at htm'
    simp only [Thread.step, hpc]
    split
    · next hc => exact h.of_link ht hpc hc.1 hc.2.1 (htm' hc.1)
    · exact h.of_next ht (by rw [hpc]; rfl) rfl rfl (by decide)
  | poll =>
    simp only [Thread.step, hpc]
    exact h.of_poll ht hpc
  | timer =>
    simp only [hpc] at htm'
    simp only [Thread.step, hpc]
    split
    · next hexp => exact h.of_expired ht hpc (htm' hexp)
    · exact h.of_next ht (by rw [hpc]; rfl) rfl rfl (by decide)
  | cleanup =>
    simp only [Thread.step, hpc]
    exact h.of_cleanup ht hpc
  | done rc =>
    simp only [Thread.step, hpc]
    exact h.of_local ht rfl rfl hok (.inl rfl)

end Sys.Inv

/-! ## SUBACKs and the others -/

namespace Sys

section
variable (m : Nat) (t : Thread)

@[simp] theorem ackThread_held : (ackThread m t).held = t.held := by
  unfold ackThread; split <;> rfl

@[simp] theorem ackThread_pc : (ackThread m t).pc = t.pc := by
  unfold ackThread; split <;> rfl

@[simp] theorem ackThread_subed : (ackThread m t).subed = t.subed := by
  unfold ackThread; split <;> rfl

@[simp] theorem ackThread_ret : (ackThread m t).ret = t.ret := by
  unfold ackThread; split <;> rfl

end

theorem ackThread_acked (m : Nat) (t : Thread) :
    (t.held = some m ∧ t.pc ≠ .cleanup ∧ (ackThread m t).acked = some m) ∨
      (ackThread m t).acked = t.acked := by
  unfold ackThread
  split
  · next h => exact .inl ⟨h.1, h.2, rfl⟩
  · exact .inr rfl

theorem mem_eventHandleSub {c : Client} (packetId : UInt16) (eventType : EventType)
    {node : SubSyncNode} (hn : node ∈ c.listSubSyncAck) :
    ∃ node' ∈ (iotxMqttEventHandleSub c packetId eventType).listSubSyncAck,
      node'.block = node.block ∧ node'.packetId = node.packetId ∧
      (node.packetId = packetId.toNat → node'.ackType = eventType) ∧
      (node.packetId ≠ packetId.toNat → node'.ackType = node.ackType) := by
  refine ⟨_, List.mem_map_of_mem hn, ?_⟩
  split
  · next h => exact ⟨rfl, rfl, fun _ => rfl, fun hne => absurd h hne⟩
  · next h => exact ⟨rfl, rfl, fun he => absurd he h, fun _ => rfl⟩

variable {packetId : UInt16} {eventType : EventType}

theorem mem_of_eventHandleSub {c : Client} {node' : SubSyncNode}
    (hn : node' ∈ (iotxMqttEventHandleSub c packetId eventType).listSubSyncAck) :
    ∃ node ∈ c.listSubSyncAck, node'.block = node.block ∧ node'.packetId = node.packetId := by
  obtain ⟨node, hmem, rfl⟩ := List.mem_map.mp hn
  exact ⟨node, hmem, by split <;> rfl, by split <;> rfl⟩

theorem eventHandleSub_packetIds (c : Client) (packetId : UInt16) (eventType : EventType) :
    (iotxMqttEventHandleSub c packetId eventType).listSubSyncAck.map (·.packetId) =
      c.listSubSyncAck.map (·.packetId) := by
  simp only [iotxMqttEventHandleSub, List.map_map]
  refine List.map_congr_left fun node _ => ?_
  simp only [Function.comp_apply]
  split <;> rfl

/-- What a timely SUBACK does to a call: it acknowledges it, or leaves what the
call knows, and does not withdraw an acknowledgement. -/
structure SubackOn (packetId : UInt16) (eventType : EventType) (t u : Thread) : Prop where
  held : u.held = t.held
  subed : u.subed = t.subed
  pc : u.pc = t.pc
  ret : u.ret = t.ret
  acked : (eventType = .subscribeSuccess ∧ t.held = some packetId.toNat ∧ t.pc ≠ .cleanup ∧
      u.acked = some packetId.toNat) ∨
    (u.acked = t.acked ∧
      (eventType = .subscribeSuccess ∨ (t.held = some packetId.toNat → t.acked = none)))

theorem step_suback {s : Sys} (htm : s.Timely (.suback packetId eventType)) {i : Nat} {u : Thread}
    (hu : (s.step (.suback packetId eventType)).threads i = some u) :
    ∃ t, s.threads i = some t ∧ SubackOn packetId eventType t u := by
  simp only [Sys.step] at hu
  by_cases hev : eventType = .subscribeSuccess
  · rw [if_pos hev] at hu
    obtain ⟨t, ht, rfl⟩ := Option.map_eq_some_iff.mp hu
    refine ⟨t, ht, by simp, by simp, by simp, by simp, ?_⟩
    rcases ackThread_acked packetId.toNat t with ⟨hheld, hpc, hack⟩ | hack
    · exact .inl ⟨hev, hheld, hpc, hack⟩
    · exact .inr ⟨hack, .inl hev⟩
  · rw [if_neg hev] at hu
    exact ⟨u, hu, rfl, rfl, rfl, rfl, .inr ⟨rfl, .inr (htm hev i u hu)⟩⟩

theorem SubackOn.ok {t u : Thread}
    (ht : SubackOn packetId eventType t u) {c : Client} (hok : t.Ok c.listSubSyncAck) :
    u.Ok (iotxMqttEventHandleSub c packetId eventType).listSubSyncAck where
  record block hb := by
    obtain ⟨node, hn, hblock, hh, hs⟩ := hok.record block (ht.subed ▸ hb)
    obtain ⟨node', hn', hb', hp', heq, hne⟩ := mem_eventHandleSub packetId eventType hn
    refine ⟨node', hn', hb'.trans hblock, by rw [ht.held, hh, hp'], fun ha => ?_⟩
    by_cases hid : node.packetId = packetId.toNat
    · rw [heq hid]
      rcases ht.acked with ⟨hev, -⟩ | ⟨hsame, hev | hnone⟩
      · exact hev
      · exact hev
      · exact absurd (hsame.trans (hnone (hid ▸ hh))) ha
    · rw [hne hid]
      rcases ht.acked with ⟨-, hown, -⟩ | ⟨hsame, -⟩
      · exact absurd (Option.some.inj (hh.symm.trans hown)) hid
      · exact hs (hsame ▸ ha)
  acked m hm := by
    rcases ht.acked with ⟨-, hown, hcl, hnew⟩ | ⟨hsame, -⟩
    · obtain rfl := Option.some.inj (hm.symm.trans hnew)
      exact ⟨hok.held_pos _ hown, .inr ⟨ht.held.trans hown, ht.pc ▸ hcl⟩⟩
    · rw [ht.held, ht.pc]
      exact hok.acked m (hsame ▸ hm)
  unlinked hp := ht.subed.trans (hok.unlinked (ht.pc ▸ hp))
  held_pos m hm := hok.held_pos m (ht.held ▸ hm)
  ret_ne := ht.ret ▸ hok.ret_ne

namespace Inv

variable {s : Sys}

theorem of_suback (h : s.Inv) {packetId : UInt16} {eventType : EventType}
    (htm : s.Timely (.suback packetId eventType)) :
    (s.step (.suback packetId eventType)).Inv where
  threads i u hu := by
    obtain ⟨t, ht, hon⟩ := step_suback htm hu
    exact hon.ok (h.threads i t ht)
  distinct i j u v m hij hu hv hm hm' := by
    obtain ⟨t, ht, hon⟩ := step_suback htm hu
    obtain ⟨t', ht', hon'⟩ := step_suback htm hv
    exact h.distinct i j t t' m hij ht ht' (hon.held ▸ hm) (hon'.held ▸ hm')
  owner node' hn' := by
    obtain ⟨node, hn, hb, hp⟩ := mem_of_eventHandleSub hn'
    obtain ⟨i, t, ht, hsub, hheld⟩ := h.owner node hn
    rw [hb, hp]
    by_cases hev : eventType = .subscribeSuccess
    · refine ⟨i, ackThread packetId.toNat t, ?_, by simpa using hsub, by simpa using hheld⟩
      simp only [Sys.step, if_pos hev, ht, Option.map_some]
    · refine ⟨i, t, ?_, hsub, hheld⟩
      simp only [Sys.step, if_neg hev, ht]
  nodup := (eventHandleSub_packetIds ..).symm ▸ h.nodup

theorem init (h₀ : ∀ i, s.threads i = none) (hlist : s.client.listSubSyncAck = []) : s.Inv where
  threads i t ht := by rw [h₀] at ht; cases ht
  distinct i j t u m _ ht := by rw [h₀] at ht; cases ht
  owner node hn := by rw [hlist] at hn; cases hn
  nodup := by rw [hlist]; exact List.nodup_nil

theorem of_start (h : s.Inv) (i : Nat) (args : SyncArgs) : (s.step (.start i args)).Inv := by
  simp only [Sys.step]
  by_cases hi : s.threads i = none
  swap
  · rw [if_neg hi]
    exact h
  rw [if_pos hi]
  have hnone : ({ args := args } : Thread).held = none := rfl
  have hne : ∀ {j u}, s.threads j = some u → j ≠ i := fun hu he => by
    rw [he, hi] at hu
    cases hu
  refine ⟨fun j u hu => ?_, fun j k u v m hjk hu hv hm hm' => ?_, fun node hn => ?_, h.nodup⟩
  · rcases update_cases hu with ⟨-, rfl⟩ | ⟨-, hu'⟩
    · exact Thread.Ok.fresh rfl rfl (fun m hm => by cases hm) (show (-1 : Int) ≠ 0 by decide)
    · exact h.threads j u hu'
  · rcases update_cases hu with ⟨-, rfl⟩ | ⟨-, hu'⟩
    · cases hm
    rcases update_cases hv with ⟨-, rfl⟩ | ⟨-, hv'⟩
    · cases hm'
    · exact h.distinct j k u v m hjk hu' hv' hm hm'
  · obtain ⟨j, u, hu, hsub, hheld⟩ := h.owner node hn
    exact ⟨j, u, (Function.update_of_ne (hne hu) _ _).trans hu, hsub, hheld⟩

theorem step (h : s.Inv) {op : SyncOp} (htm : s.Timely op) : (s.step op).Inv := by
  cases op with
  | start i args => exact h.of_start i args
  | thread i io =>
    cases ht : s.threads i with
    | none =>
      simp only [Sys.step, ht]
      exact h
    | some t =>
      simp only [Sys.step, ht]
      exact h.of_step htm ht
  | suback packetId eventType => exact h.of_suback htm
  | nextId => exact ⟨h.threads, h.distinct, h.owner, h.nodup⟩
  | setState newState => exact ⟨h.threads, h.distinct, h.owner, h.nodup⟩

end Inv

theorem Inv.poll_acked {s : Sys} (h : s.Inv) {i : Nat} {t : Thread} {m : Nat}
    (ht : s.threads i = some t) (hack : t.acked = some m) (hpc : t.pc = .poll) {io : SyncIo}
    (htm : s.Timely (.thread i io)) :
    ((s.step (.thread i io)).threads i).map (·.pc) = some (.done m) := by
  have hin : t.pc.inLoop = true := by rw [hpc]; rfl
  have hheld := (Thread.held_of_acked (h.threads i t ht) (Pc.underWay_of_inLoop hin) hack).2.1
  have hfirst := htm t ht
  simp only [hpc, hack, hheld] at hfirst
  obtain ⟨node, hhead, hid⟩ := Option.map_eq_some_iff.mp (hfirst (by simp))
  obtain ⟨rest, hlist⟩ : ∃ rest, s.client.listSubSyncAck = node :: rest :=
    List.head?_eq_some_iff.mp hhead
  have hnode : t.held = some node.packetId := hheld.trans (congrArg some hid.symm)
  have hsucc : node.ackType = .subscribeSuccess :=
    h.ackType_of_acked ht (hlist ▸ List.mem_cons_self) hnode (by rw [hack]; simp)
  simp only [Sys.step, ht, Thread.step, hpc, Thread.poll, hlist,
    if_pos (Thread.ret_of_held hin hnode), hsucc, Function.update_self, Option.map_some,
    Option.some.injEq, Pc.done.injEq]
  exact (Thread.ret_of_held hin hheld).symm

theorem step_other {s : Sys} {i : Nat} {t : Thread} (ht : s.threads i = some t) {op : SyncOp}
    (hop : ∀ io, op ≠ .thread i io) :
    ∃ t', (s.step op).threads i = some t' ∧ t'.subed = t.subed ∧ t'.held = t.held ∧
      t'.pc = t.pc ∧ (t'.acked = t.acked ∨ t.held ≠ none ∧ t'.acked = t.held) := by
  cases op with
  | start j args =>
    simp only [Sys.step]
    split
    · next hj =>
      have hij : i ≠ j := by
        rintro rfl
        rw [ht] at hj
        cases hj
      exact ⟨t, (Function.update_of_ne hij _ _).trans ht, rfl, rfl, rfl, .inl rfl⟩
    · exact ⟨t, ht, rfl, rfl, rfl, .inl rfl⟩
  | thread j io =>
    have hij : i ≠ j := by
      rintro rfl
      exact hop io rfl
    simp only [Sys.step]
    split
    · exact ⟨t, ht, rfl, rfl, rfl, .inl rfl⟩
    · exact ⟨t, (Function.update_of_ne hij _ _).trans ht, rfl, rfl, rfl, .inl rfl⟩
  | suback packetId eventType =>
    simp only [Sys.step]
    split
    · refine ⟨ackThread packetId.toNat t, congrArg (Option.map _) ht, by simp, by simp, by simp, ?_⟩
      rcases ackThread_acked packetId.toNat t with ⟨hheld, -, hack⟩ | hack
      · exact .inr ⟨by rw [hheld]; simp, hack.trans hheld.symm⟩
      · exact .inl hack
    · exact ⟨t, ht, rfl, rfl, rfl, .inl rfl⟩
  | nextId => exact ⟨t, ht, rfl, rfl, rfl, .inl rfl⟩
  | setState newState => exact ⟨t, ht, rfl, rfl, rfl, .inl rfl⟩

end Sys

/-! ## What an acknowledged call comes to -/

/-- How many steps an acknowledged call takes at most until it returns. -/
def Pc.stepsLeft : Pc → Nat
  | .checkState _ => 6
  | .send _ => 5
  | .insert _ | .timer => 4
  | .subscribed | .enter => 3
  | .link => 2
  | .poll => 1
  | .fail | .cleanup | .done _ => 0

theorem Pc.stepsLeft_le (pc : Pc) : pc.stepsLeft ≤ 6 := by
  cases pc <;> simp [stepsLeft]

/-- The step is one of call `i`. -/
def SyncOp.isStepOf (i : Nat) : SyncOp → Bool
  | .thread j _ => j = i
  | _ => false

theorem Thread.step_acked (c : Client) (t : Thread) (io : SyncIo) :
    (t.step c io).2.acked = t.acked := by
  simp only [Thread.step, Thread.poll]
  (repeat' split) <;> rfl

theorem Sys.Inv.stepsLeft_step {s : Sys} (h : s.Inv) {i : Nat} {t : Thread} {m : Nat}
    (ht : s.threads i = some t) (hack : t.acked = some m) {io : SyncIo}
    (htm : s.Timely (.thread i io)) : (t.step s.client io).2.pc.stepsLeft ≤ t.pc.stepsLeft - 1 := by
  have hok := h.threads i t ht
  have htm' := htm t ht
  have hne : t.acked ≠ none := by rw [hack]; simp
  cases hpc : t.pc with
  | enter =>
    have hin : t.pc.inLoop = true := by rw [hpc]; rfl
    obtain ⟨hpos, hheld, -⟩ := Thread.held_of_acked hok (Pc.underWay_of_inLoop hin) hack
    have := Thread.ret_of_held hin hheld
    simp only [Thread.step, hpc, if_neg (show ¬ t.ret < 0 by omega)]
    decide
  | checkState msgId =>
    simp only [hpc] at htm'
    obtain ⟨hst, hrc⟩ := htm' hne
    simp only [Thread.step, hpc, hst, if_neg (Int.not_lt.mpr hrc)]
    exact Nat.le_refl _
  | send msgId =>
    simp only [hpc] at htm'
    simp only [Thread.step, hpc, if_neg (Int.not_lt.mpr (htm' hne))]
    exact Nat.le_refl _
  | insert msgId =>
    simp only [Thread.step, hpc]
    exact Nat.le_refl _
  | fail =>
    have hnone : t.held = none := by rw [Thread.held, hpc]
    exact absurd (Thread.acked_none_of_held hok hnone (by rw [hpc]; rfl)) hne
  | subscribed =>
    simp only [Thread.step, hpc]
    split <;> simp [Pc.stepsLeft]
  | link =>
    simp only [Thread.step, hpc]
    split <;> simp [Pc.stepsLeft]
  | poll =>
    have hdone := h.poll_acked ht hack hpc htm
    simp only [Sys.step, ht, Function.update_self, Option.map_some, Option.some.injEq] at hdone
    simp [hdone, Pc.stepsLeft]
  | timer =>
    simp only [hpc] at htm'
    simp only [Thread.step, hpc, if_neg fun hexp => hne (htm' hexp)]
    decide
  | cleanup =>
    exact absurd hpc (Thread.held_of_acked hok (by rw [hpc]; rfl) hack).2.2
  | done rc =>
    simp only [Thread.step, hpc]
    exact Nat.zero_le _

/-- Call `i` has been acknowledged under the packet id `m`. -/
def AckedAs (i m : Nat) (s : Sys) : Prop :=
  s.Inv ∧ ∃ t, s.threads i = some t ∧ t.acked = some m

/-- The steps that call `i` takes at most until it returns. -/
def Sys.stepsLeft (i : Nat) (s : Sys) : Nat :=
  ((s.threads i).map (·.pc.stepsLeft)).getD 0

namespace AckedAs
variable {i m : Nat} {s : Sys} {op : SyncOp}

theorem exists_own (h : op.isStepOf i = true) : ∃ io, op = .thread i io := by
  cases op with
  | thread j io => exact ⟨io, by rw [of_decide_eq_true h]⟩
  | _ => cases h

theorem other (h : AckedAs i m s) (hop : op.isStepOf i = false) :
    ∃ t', (s.step op).threads i = some t' ∧ t'.acked = some m ∧
      Sys.stepsLeft i s = t'.pc.stepsLeft := by
  obtain ⟨hinv, t, ht, hack⟩ := h
  have hother (io : SyncIo) : op ≠ .thread i io := by
    rintro rfl
    simp [SyncOp.isStepOf] at hop
  obtain ⟨t', ht', -, -, hpc, hacked⟩ := Sys.step_other ht hother
  refine ⟨t', ht', ?_, by simp [Sys.stepsLeft, ht, hpc]⟩
  rcases hacked with hacked | ⟨hheld, hacked⟩
  · exact hacked.trans hack
  · obtain ⟨-, hd | ⟨hm, -⟩⟩ := (hinv.threads i t ht).acked m hack
    · rw [Thread.held, hd] at hheld
      exact absurd rfl hheld
    · exact hacked.trans hm

theorem step (h : AckedAs i m s) (htm : s.Timely op) : AckedAs i m (s.step op) := by
  refine ⟨h.1.step htm, ?_⟩
  cases hop : op.isStepOf i with
  | false =>
    obtain ⟨t', ht', hack, -⟩ := h.other hop
    exact ⟨t', ht', hack⟩
  | true =>
    obtain ⟨io, rfl⟩ := exists_own hop
    obtain ⟨-, t, ht, hack⟩ := h
    simp only [Sys.step, ht]
    exact ⟨_, Function.update_self .., (Thread.step_acked ..).trans hack⟩

theorem returns (h : AckedAs i m s) {more : List SyncOp} (hm : Meets Sys.step Sys.Timely s more)
    (hn : 6 ≤ more.countP (SyncOp.isStepOf i)) :
    ((run Sys.step s more).threads i).map (·.pc) = some (.done m) := by
  obtain ⟨hinv, t, ht, hack⟩ := run_invariant_of_meets (I := AckedAs i m)
    (fun _ _ htm h => h.step htm) hm h
  have hzero : Sys.stepsLeft i (run Sys.step s more) = 0 := by
    refine rank_run_eq_zero (I := AckedAs i m) (fun _ _ htm h => h.step htm)
      (fun s op htm h hop => ?_) (fun s op htm h hop => ?_) hm h (le_trans ?_ hn)
    · obtain ⟨io, rfl⟩ := exists_own hop
      obtain ⟨hinv, t, ht, hack⟩ := h
      simpa [Sys.stepsLeft, Sys.step, ht] using hinv.stepsLeft_step ht hack htm
    · obtain ⟨t', ht', -, hleft⟩ := h.other hop
      rw [hleft, Sys.stepsLeft, ht', Option.map_some, Option.getD_some]
    · obtain ⟨-, t, ht, -⟩ := h
      rw [Sys.stepsLeft, ht, Option.map_some, Option.getD_some]
      exact t.pc.stepsLeft_le
  rw [Sys.stepsLeft, ht, Option.map_some, Option.getD_some] at hzero
  rw [ht, Option.map_some]
  obtain ⟨-, hd | ⟨hheld, hclean⟩⟩ := (hinv.threads i t ht).acked m hack
  · rw [hd]
  · cases hpc : t.pc with
    | fail => rw [Thread.held, hpc] at hheld; cases hheld
    | done rc => rw [Thread.held, hpc] at hheld; cases hheld
    | cleanup => exact absurd hpc hclean
    | _ => rw [hpc] at hzero; cases hzero

end AckedAs

/-- In every run whose steps are timely: a call whose packet id a success SUBACK
has acknowledged before its timer was found expired returns that id, at its next
poll, and nothing else, and six steps of its own bring it there, whatever the others
do between them; and the record of a call is in the list after every step of another
call. -/
theorem subscribeSync_acked {s₀ : Sys} (h₀ : ∀ i, s₀.threads i = none)
    (hlist : s₀.client.listSubSyncAck = []) (ops : List SyncOp)
    (hops : Meets Sys.step Sys.Timely s₀ ops) : let s := run Sys.step s₀ ops
    (∀ i t m, s.threads i = some t → t.acked = some m →
      0 < m ∧ (∀ rc, t.pc = .done rc → rc = m) ∧
      (t.pc = .poll → ∀ io, s.Timely (.thread i io) →
        ((s.step (.thread i io)).threads i).map (·.pc) = some (.done m)) ∧
      ∀ more, Meets Sys.step Sys.Timely s more → 6 ≤ more.countP (SyncOp.isStepOf i) →
        ((run Sys.step s more).threads i).map (·.pc) = some (.done m)) ∧
    ∀ i t block, s.threads i = some t → t.subed = some block →
      ∀ op, s.Timely op → (∀ io, op ≠ .thread i io) →
        ∃ node ∈ (s.step op).client.listSubSyncAck, node.block = block ∧
          t.held = some node.packetId := by
  intro s
  have h : s.Inv := run_invariant_of_meets (I := Sys.Inv) (fun _ _ htm h => h.step htm) hops
    (Sys.Inv.init h₀ hlist)
  refine ⟨fun i t m ht hack => ?_, fun i t block ht hsub op htm hop => ?_⟩
  · obtain ⟨hpos, hwhere⟩ := (h.threads i t ht).acked m hack
    refine ⟨hpos, fun rc hrc => ?_, fun hpc io htm => h.poll_acked ht hack hpc htm,
      fun more hmore hn => AckedAs.returns ⟨h, t, ht, hack⟩ hmore hn⟩
    rcases hwhere with hd | ⟨hh, -⟩
    · exact Pc.done.inj (hrc.symm.trans hd)
    · rw [Thread.held, hrc] at hh
      cases hh
  · obtain ⟨t', ht', hsub', hheld', -⟩ := Sys.step_other ht hop
    obtain ⟨node, hn, hblock, hheld, -⟩ :=
      ((h.step htm).threads i t' ht').record block (hsub'.trans hsub)
    exact ⟨node, hn, hblock, hheld'.symm.trans hheld⟩

/-! ## Missed and received SUBACKs -/

/-- Nobody calls yet. -/
def syncSys : Sys := ⟨connectedClient, fun _ => none⟩

def syncArgs : SyncArgs := ⟨topicA, 1, some 7, 0⟩

/-- A step of caller `i`, whose SUBSCRIBE goes out whole. -/
def stepOf (i : Nat) : SyncOp := .thread i { subscribe := { writes := [9] } }

/-- A step of caller `i` after its timeout. -/
def lateStepOf (i : Nat) : SyncOp := .thread i { expired := true }

/-- From the call to the first poll: the SUBSCRIBE is sent by the third step. -/
def toPoll (i : Nat) : List SyncOp := .start i syncArgs :: List.replicate 6 (stepOf i)

/-- In the first run the SUBACK is handled between the send and the link, in the
second the acknowledged record is the second one of the list. -/
theorem subscribeSync_misses :
    ((run Sys.step syncSys
        (.start 0 syncArgs :: List.replicate 3 (stepOf 0) ++ .suback 1 .subscribeSuccess ::
          List.replicate 4 (stepOf 0) ++ [lateStepOf 0, stepOf 0])).threads 0).map
      (fun t => (t.acked, t.pc)) = some (some 1, .done State.mqttSyncSubTimeout) ∧
    ((run Sys.step syncSys
        (toPoll 0 ++ toPoll 1 ++ [.suback 2 .subscribeSuccess, stepOf 1, lateStepOf 1,
          stepOf 1])).threads 1).map
      (fun t => (t.acked, t.pc)) = some (some 2, .done State.mqttSyncSubTimeout) := by
  decide +kernel

theorem timely_alone {s : Sys} {i : Nat} (halone : ∀ j, j ≠ i → s.threads j = none)
    (hack : ∀ t, s.threads i = some t → t.acked = none) (io : SyncIo) :
    s.Timely (.thread i io) := by
  intro t ht
  have hnone := hack t ht
  split
  · intro _ j u hj hu
    rw [halone j hj] at hu
    cases hu
  · exact fun hne => absurd hnone hne
  · exact fun hne => absurd hnone hne
  · exact fun _ => hnone
  · exact fun hne => absurd hnone hne
  · exact fun _ => hnone
  · trivial

theorem meets_alone {s : Sys} {i : Nat} (halone : ∀ j, j ≠ i → s.threads j = none)
    (hack : ∀ t, s.threads i = some t → t.acked = none) (n : Nat) (io : SyncIo) :
    Meets Sys.step Sys.Timely s (List.replicate n (.thread i io)) := by
  induction n generalizing s with
  | zero => trivial
  | succ n ih =>
    refine ⟨timely_alone halone hack io, ih (fun j hj => ?_) fun t ht => ?_⟩
    · simp only [Sys.step]
      split
      · exact halone j hj
      · exact (Function.update_of_ne hj _ _).trans (halone j hj)
    · simp only [Sys.step] at ht
      split at ht
      · exact hack t ht
      · next u hu =>
        simp only [Function.update_self, Option.some.injEq] at ht
        rw [← ht, Thread.step_acked]
        exact hack u hu

theorem timely_of_linked {s : Sys} {i : Nat} {t : Thread} {io : SyncIo} (ht : s.threads i = some t)
    (hpc : t.pc = .timer ∧ io.expired = false ∨ t.pc = .enter ∧ 0 ≤ t.ret ∨
      t.pc = .link ∧ t.subed ≠ none ∨
      t.pc = .poll ∧ s.client.listSubSyncAck.head?.map (·.packetId) = t.held ∨
      t.pc = .done t.ret) : s.Timely (.thread i io) := by
  intro t' ht'
  obtain rfl := Option.some.inj (ht.symm.trans ht')
  rcases hpc with ⟨h, hexp⟩ | ⟨h, hret⟩ | ⟨h, hsub⟩ | ⟨h, hfirst⟩ | h
  · rw [h, hexp]
    exact fun hc => absurd hc Bool.false_ne_true
  · rw [h]
    exact fun hc => absurd hc (Int.not_lt.mpr hret)
  · rw [h]
    exact fun hc => absurd hc hsub
  · rw [h]
    exact fun _ => hfirst
  · rw [h]
    trivial

/-- The run of one caller up to a SUBACK that comes after its first poll. -/
def acknowledged : List SyncOp := toPoll 0 ++ [stepOf 0, .suback 1 .subscribeSuccess]

/-- The caller is at its timer, goes round the loop once more and returns. -/
theorem subscribeSync_acked_alone :
    ((run Sys.step syncSys acknowledged).threads 0).map (·.pc) = some .timer ∧
    ((run Sys.step syncSys (acknowledged ++ List.replicate 6 (stepOf 0))).threads 0).map (·.pc) =
      some (.done 1) := by
  have ht : (run Sys.step syncSys acknowledged).threads 0 =
      some { args := syncArgs, pc := .timer, ret := 1, subed := some 0, acked := some 1 } := by
    decide +kernel
  have hmeets : Meets Sys.step Sys.Timely syncSys acknowledged :=
    (@meets_append _ _ _ _ (toPoll 0 ++ [stepOf 0]) _ _).mpr
      ⟨⟨trivial, meets_alone (fun j hj => Function.update_of_ne hj _ _)
        (fun t ht => by rw [← Option.some.inj ht]) 7 _⟩, fun hne => absurd rfl hne, trivial⟩
  refine ⟨by rw [ht]; rfl, ?_⟩
  rw [run_append]
  refine ((subscribeSync_acked (fun _ => rfl) rfl acknowledged hmeets).1 0 _ 1 ht rfl).2.2.2 _ ?_
    (by decide)
  refine ⟨timely_of_linked ht (by decide),
    timely_of_linked (t := ⟨syncArgs, .enter, 1, some 0, some 1⟩) (by decide +kernel) (by decide),
    timely_of_linked (t := ⟨syncArgs, .link, 1, some 0, some 1⟩) (by decide +kernel) (by decide),
    timely_of_linked (t := ⟨syncArgs, .poll, 1, some 0, some 1⟩) (by decide +kernel)
      (by decide +kernel),
    timely_of_linked (t := ⟨syncArgs, .done 1, 1, none, some 1⟩) (by decide +kernel) (by decide),
    timely_of_linked (t := ⟨syncArgs, .done 1, 1, none, some 1⟩) (by decide +kernel) (by decide),
    trivial⟩

end AliyunIot.Mqtt
