import AliyunIot.Coap.LockOrder
import AliyunIot.Coap.Observe

/-!
# The observe tables over a run

`Tabled` is what every call on the tables keeps: the counters, the keys, and that the
history tells of every observer the token and the sequence number it has.
`observeTables_run` assembles it for every run.
-/

namespace AliyunIot.Coap

open Lib

/-! ## What was told about an observer -/

def ObserveEvent.token (key : ObserverKey) (token : Option (List UInt8)) :
    ObserveEvent → Option (List UInt8)
  | registered k t | refreshed k t => if k = key then some t else token
  | notified .. => token

def ObserveEvent.number (key : ObserverKey) (n : UInt32) : ObserveEvent → UInt32
  | registered k _ => if k = key then 0 else n
  | refreshed .. => n
  | notified k sequenceNum _ _ => if k = key then sequenceNum + 1 else n

def latestToken (key : ObserverKey) (history : List ObserveEvent) : Option (List UInt8) :=
  history.foldl (ObserveEvent.token key) none

/-- `0` after the registration, then one more than the last notification built. -/
def nextNumber (key : ObserverKey) (history : List ObserveEvent) : UInt32 :=
  history.foldl (ObserveEvent.number key) 0

/-- A notification has the token registered last and the next number, and what was sent
of it went to its observer and has that number as its Observe option. -/
def ObserveEvent.Told (before : List ObserveEvent) : ObserveEvent → Prop
  | notified key sequenceNum message sent =>
    latestToken key before = some message.token ∧ sequenceNum = nextNumber key before ∧
      (sent ≠ [] → coapUintOptionGet message.views coapOptionObserve 0 = some sequenceNum) ∧
      ∀ e ∈ sent, ∃ data, e = .write key.2 data
  | _ => True

def AllTold (history : List ObserveEvent) : Prop :=
  ∀ before e after, history = before ++ e :: after → e.Told before

theorem latestToken_concat (key : ObserverKey) (history : List ObserveEvent) (e : ObserveEvent) :
    latestToken key (history ++ [e]) = e.token key (latestToken key history) := by
  unfold latestToken
  rw [List.foldl_append]
  rfl

theorem nextNumber_concat (key : ObserverKey) (history : List ObserveEvent) (e : ObserveEvent) :
    nextNumber key (history ++ [e]) = e.number key (nextNumber key history) := by
  unfold nextNumber
  rw [List.foldl_append]
  rfl

theorem AllTold.concat {history : List ObserveEvent} (h : AllTold history) {e : ObserveEvent}
    (he : e.Told history) : AllTold (history ++ [e]) := by
  intro before x after hsplit
  rcases List.eq_nil_or_concat after with rfl | ⟨after, y, rfl⟩
  · obtain ⟨rfl, hx⟩ := List.append_inj' hsplit rfl
    cases hx
    exact he
  · rw [List.concat_eq_append, ← List.cons_append, ← List.append_assoc] at hsplit
    exact h before x after (List.append_inj' hsplit rfl).1

/-! ## The message of a notification -/

theorem token_uintOptionAdd (message : OutMessage) (optnum : UInt16) (data : UInt32)
    (malloc : Bool) : (coapUintOptionAdd message optnum data malloc).2.token = message.token := by
  unfold coapUintOptionAdd
  split <;> rfl

theorem token_notification {node : CoapObserver} (h : node.token.length ≤ coapMsgMaxTokenLen)
    (maxage : UInt32) (msgid : UInt16) (payload : Option Block) (io : NotifyIo) :
    (coapNotification node maxage msgid payload io).token = node.token := by
  unfold coapNotification
  cases payload
  all_goals
    dsimp only [coapMessagePayloadSet]
    rw [token_uintOptionAdd, token_uintOptionAdd, token_uintOptionAdd]
    unfold coapMessageTokenSet
    rw [dif_neg (Nat.not_lt.mpr h)]

def observeOption (node : CoapObserver) (io : NotifyIo) : OutOption where
  num := coapOptionObserve
  len := UInt16.ofNat (uintValue node.sequenceNum).length
  val := if io.observe ∧ node.sequenceNum ≠ 0 then some (uintValue node.sequenceNum) else none
  held := by
    have hle := length_uintValue_le node.sequenceNum
    intro bs hbs
    split at hbs
    · cases hbs
      exact (UInt16.toNat_ofNat_of_lt' (by rw [UInt16.size]; omega)).symm
    · cases hbs

theorem options_uintOptionAdd (message : OutMessage) (optnum : UInt16) (data : UInt32)
    (malloc : Bool) : ∃ more, (coapUintOptionAdd message optnum data malloc).2.options =
      message.options ++ more := by
  unfold coapUintOptionAdd
  split
  · exact ⟨[], (List.append_nil _).symm⟩
  · exact ⟨_, rfl⟩

theorem options_notification (node : CoapObserver) (maxage : UInt32) (msgid : UInt16)
    (payload : Option Block) (io : NotifyIo) :
    ∃ more, (coapNotification node maxage msgid payload io).options =
      observeOption node io :: more := by
  have hfirst (message : OutMessage) (h : message.options = []) (hd : message.optdelta = 0) :
      (coapUintOptionAdd message coapOptionObserve node.sequenceNum io.observe).2.options =
        [observeOption node io] := by
    unfold coapUintOptionAdd
    rw [dif_neg (by rw [h]; decide)]
    unfold OutMessage.addOption
    simp only [h, hd]
    rfl
  have htoken (message : OutMessage) : (coapMessageTokenSet message node.token).2.options =
      message.options ∧ (coapMessageTokenSet message node.token).2.optdelta = message.optdelta := by
    unfold coapMessageTokenSet
    split <;> exact ⟨rfl, rfl⟩
  have htype : (coapMessageTypeSet coapMessageInit node.msgType).2.options = [] ∧
      (coapMessageTypeSet coapMessageInit node.msgType).2.optdelta = 0 := by
    unfold coapMessageTypeSet
    split <;> exact ⟨rfl, rfl⟩
  unfold coapNotification
  cases payload
  all_goals
    dsimp only [coapMessagePayloadSet]
    obtain ⟨as, has⟩ := options_uintOptionAdd _ coapOptionMaxage maxage io.maxage
    obtain ⟨bs, hbs⟩ := options_uintOptionAdd _ coapOptionContentFormat node.ctype.toUInt32 io.ctype
    rw [has, hbs, hfirst]
    · exact ⟨bs ++ as, by rw [List.append_assoc]; rfl⟩
    · exact (htoken _).1.trans htype.1
    · exact (htoken _).2.trans htype.2

/-! ## The number in the Observe option -/

theorem toNat_maskedByte (n mask : UInt32) (k : Nat) (hk : k < 32)
    (hmask : mask.toNat >>> k = 255) :
    ((n &&& mask) >>> UInt32.ofNat k).toUInt8.toNat = n.toNat / 2 ^ k % 256 := by
  have hofNat : (UInt32.ofNat k).toNat = k := UInt32.toNat_ofNat_of_lt' (by rw [UInt32.size]; omega)
  rw [UInt32.toNat_toUInt8, UInt32.toNat_shiftRight, UInt32.toNat_and, hofNat, Nat.mod_eq_of_lt hk,
    Nat.shiftRight_and_distrib, hmask, Nat.shiftRight_eq_div_pow,
    Nat.and_two_pow_sub_one_eq_mod _ 8, Nat.mod_mod]

theorem toNat_orByte (m : UInt32) (b : UInt8) (h : m.toNat < 2 ^ 24) :
    ((m <<< 8) ||| b.toUInt32).toNat = m.toNat * 256 + b.toNat := by
  have hb := b.toNat_lt
  have hlt : m.toNat <<< 8 < 2 ^ 32 := by
    rw [Nat.shiftLeft_eq]
    omega
  rw [UInt32.toNat_or, UInt32.toNat_shiftLeft, UInt8.toNat_toUInt32]
  show m.toNat <<< 8 % 2 ^ 32 ||| b.toNat = _
  rw [Nat.mod_eq_of_lt hlt, ← Nat.shiftLeft_add_eq_or_of_lt hb, Nat.shiftLeft_eq]

theorem toNat_orBytes (bytes : List UInt8) (m : UInt32)
    (h : (m.toNat + 1) * 256 ^ bytes.length ≤ 2 ^ 32) :
    (bytes.foldl (fun (n : UInt32) b => (n <<< 8) ||| b.toUInt32) m).toNat =
      bytes.foldl (fun (n : Nat) b => n * 256 + b.toNat) m.toNat := by
  induction bytes generalizing m with
  | nil => rfl
  | cons b bytes ih =>
    have hb := b.toNat_lt
    have hpow : 0 < 256 ^ bytes.length := Nat.pow_pos (by decide)
    rw [List.length_cons, Nat.pow_succ, Nat.mul_comm (256 ^ bytes.length), ← Nat.mul_assoc] at h
    have hm : (m.toNat + 1) * 256 ≤ 2 ^ 32 := Nat.le_trans (Nat.le_mul_of_pos_right _ hpow) h
    have hbyte := toNat_orByte m b (by omega)
    rw [List.foldl_cons, List.foldl_cons, ih, hbyte]
    rw [hbyte]
    exact Nat.le_trans (Nat.mul_le_mul_right _ (by omega)) h

theorem orBytes_uintValue (n : UInt32) : orBytes 0 (uintValue n) = n := by
  have hlt := n.toNat_lt
  have h24 : ((n &&& 0xFF000000) >>> 24).toUInt8.toNat = _ :=
    toNat_maskedByte n 0xFF000000 24 (by decide) (by decide)
  have h16 : ((n &&& 0xFF0000) >>> 16).toUInt8.toNat = _ :=
    toNat_maskedByte n 0xFF0000 16 (by decide) (by decide)
  have h8 : ((n &&& 0xFF00) >>> 8).toUInt8.toNat = _ :=
    toNat_maskedByte n 0xFF00 8 (by decide) (by decide)
  have h0 : ((n &&& 0xFF) >>> 0).toUInt8.toNat = _ :=
    toNat_maskedByte n 0xFF 0 (by decide) (by decide)
  have hzero : (0 : UInt32).toNat = 0 := rfl
  rw [UInt32.shiftRight_zero] at h0
  have hbound : ((0 : UInt32).toNat + 1) * 256 ^ (uintValue n).length ≤ 2 ^ 32 := by
    rw [hzero, Nat.zero_add, Nat.one_mul]
    exact Nat.pow_le_pow_right (by decide) (length_uintValue_le n)
  apply UInt32.toNat_inj.mp
  unfold orBytes
  rw [UInt32.zero_or, toNat_orBytes _ _ hbound, hzero]
  unfold uintValue
  split
  · next h =>
    rw [h]
    rfl
  · split
    · next h =>
      have hle : n.toNat ≤ 255 := h
      rw [List.foldl_cons, List.foldl_nil, UInt32.toNat_toUInt8]
      omega
    · split
      · next h =>
        have hle : n.toNat ≤ 65535 := h
        simp only [List.foldl_cons, List.foldl_nil, h8, h0]
        omega
      · simp only [List.foldl_cons, List.foldl_nil, h24, h16, h8, h0]
        omega

theorem uintValue_eq_nil_iff (n : UInt32) : uintValue n = [] ↔ n = 0 := by
  refine ⟨fun h => ?_, fun h => if_pos h⟩
  rw [← orBytes_uintValue n, h]
  rfl

theorem observe_of_readable {node : CoapObserver} {io : NotifyIo} {message : OutMessage}
    {more : List OutOption} (h : message.options = observeOption node io :: more)
    (hr : (observeOption node io).Readable) :
    coapUintOptionGet message.views coapOptionObserve 0 = some node.sequenceNum := by
  have hle := length_uintValue_le node.sequenceNum
  have hlen : (observeOption node io).len.toNat = (uintValue node.sequenceNum).length :=
    UInt16.toNat_ofNat_of_lt' (by rw [UInt16.size]; omega)
  have hval : (observeOption node io).val.getD [] = uintValue node.sequenceNum := by
    cases hv : (observeOption node io).val with
    | none =>
      rw [hr hv] at hlen
      exact (List.length_eq_zero_iff.mp hlen.symm).symm
    | some bs =>
      unfold observeOption at hv
      split at hv
      · cases hv
        rfl
      · cases hv
  have hviews : message.views =
      (coapOptionObserve, (observeOption node io).len, uintValue node.sequenceNum) ::
        more.map fun o => (o.num, o.len, o.val.getD []) := by
    rw [OutMessage.views, h, List.map_cons, hval]
    rfl
  unfold coapUintOptionGet
  rw [hviews, List.find?_cons, decide_eq_true rfl]
  dsimp only [Option.map_some]
  rw [hlen, List.take_length]
  split
  · rw [orBytes_uintValue]
  · next hout =>
    have hzero : (uintValue node.sequenceNum).length = 0 := by
      rw [UInt16.le_iff_toNat_le, UInt16.le_iff_toNat_le, hlen] at hout
      simp only [UInt16.toNat_ofNat] at hout
      omega
    rw [(uintValue_eq_nil_iff _).mp (List.length_eq_zero_iff.mp hzero)]

/-! ## A notification being sent -/

theorem tables_write (ctx : CoapContext) (remote : NetworkAddr) (message : OutMessage)
    (buff : List UInt8) (io : SendIo) (h : coapObsClientDelete ctx message = ctx) :
    (coapMessageWrite ctx remote message buff io).ctx.obsserver = ctx.obsserver ∧
    (coapMessageWrite ctx remote message buff io).ctx.obsclient = ctx.obsclient := by
  unfold coapMessageWrite
  rw [h]
  dsimp only
  split
  · split
    · unfold coapMessageListAdd
      split
      · exact ⟨rfl, rfl⟩
      · split <;> exact ⟨rfl, rfl⟩
    · exact ⟨rfl, rfl⟩
  · exact ⟨rfl, rfl⟩

theorem tables_send (ctx : CoapContext) (remote : NetworkAddr) (message : OutMessage)
    (io : SendIo) (h : coapObsClientDelete ctx message = ctx) :
    (coapMessageSend ctx remote message io).ctx.obsserver = ctx.obsserver ∧
    (coapMessageSend ctx remote message io).ctx.obsclient = ctx.obsclient := by
  rcases send_eq ctx remote message io with ⟨ret, -, heq⟩ | ⟨buff, heq⟩
  · rw [heq]
    exact ⟨rfl, rfl⟩
  · rw [heq]
    exact tables_write ctx remote message buff io h

theorem sent_remote (ctx : CoapContext) (remote : NetworkAddr) (message : OutMessage)
    (io : SendIo) :
    ∀ e ∈ (coapMessageSend ctx remote message io).events, ∃ data, e = .write remote data := by
  intro e he
  rcases send_eq ctx remote message io with ⟨ret, -, heq⟩ | ⟨buff, heq⟩
  · rw [heq] at he
    cases he
  · rw [heq, write_events] at he
    exact ⟨buff, List.mem_singleton.mp he⟩

theorem readable_of_sent {ctx : CoapContext} {remote : NetworkAddr} {message : OutMessage}
    {io : SendIo} {o : OutOption} {more : List OutOption} (ho : message.options = o :: more)
    (h : (coapMessageSend ctx remote message io).events ≠ []) : o.Readable := by
  by_contra hr
  refine h ?_
  have hser (buflen : UInt16) : coapSerializeMessage message buflen = none := by
    unfold coapSerializeMessage coapSerializeOptions
    simp only [ho, coapSerializeOptionsFrom, serializeOption_of_not_readable hr]
    rfl
  unfold coapMessageSend
  simp only [hser]
  split
  · rfl
  · split <;> rfl

/-! ## The invariant -/

/-- What every call on the tables keeps of the context and the history. -/
structure Tabled (ctx : CoapContext) (history : List ObserveEvent) : Prop where
  server : ctx.obsserver.Bounded
  client : ctx.obsclient.Bounded
  observers : DistinctKeys CoapObserver.key ctx.obsserver.list
  observables : DistinctKeys CoapObservable.token ctx.obsclient.list
  tokens : ∀ node ∈ ctx.obsserver.list, node.token.length ≤ coapMsgMaxTokenLen
  latest : ∀ node ∈ ctx.obsserver.list, latestToken node.key history = some node.token
  numbers : ∀ node ∈ ctx.obsserver.list, nextNumber node.key history = node.sequenceNum
  told : AllTold history

def ObserveEvent.About (key : ObserverKey) (e : ObserveEvent) : Prop :=
  ∀ k ≠ key, (∀ token, e.token k token = token) ∧ ∀ n, e.number k n = n

namespace Tabled
variable {ctx ctx' : CoapContext} {history : List ObserveEvent}

theorem sublist (h : Tabled ctx history) (hclient : ctx'.obsclient = ctx.obsclient)
    (hserver : ctx'.obsserver.Bounded) (hsub : ctx'.obsserver.list.Sublist ctx.obsserver.list) :
    Tabled ctx' history where
  server := hserver
  client := hclient ▸ h.client
  observers := distinctKeys_sublist hsub h.observers
  observables := hclient ▸ h.observables
  tokens node hnode := h.tokens node (hsub.subset hnode)
  latest node hnode := h.latest node (hsub.subset hnode)
  numbers node hnode := h.numbers node (hsub.subset hnode)
  told := h.told

theorem replaceClient (h : Tabled ctx history) (hserver : ctx'.obsserver = ctx.obsserver)
    (hclient : ctx'.obsclient.Bounded)
    (hkeys : DistinctKeys CoapObservable.token ctx'.obsclient.list) : Tabled ctx' history where
  server := hserver ▸ h.server
  client := hclient
  observers := hserver ▸ h.observers
  observables := hkeys
  tokens node hnode := h.tokens node (hserver ▸ hnode)
  latest node hnode := h.latest node (hserver ▸ hnode)
  numbers node hnode := h.numbers node (hserver ▸ hnode)
  told := h.told

theorem replace (h : Tabled ctx history) {as bs : List CoapObserver} {node y : CoapObserver}
    (hlist : ctx.obsserver.list = as ++ node :: bs) (hkey : y.key = node.key)
    (hclient : ctx'.obsclient = ctx.obsclient)
    (hserver : ctx'.obsserver = { ctx.obsserver with list := as ++ y :: bs })
    (hlen : y.token.length ≤ coapMsgMaxTokenLen) {e : ObserveEvent} (habout : e.About node.key)
    (hlatest : latestToken node.key (history ++ [e]) = some y.token)
    (hnumber : nextNumber node.key (history ++ [e]) = y.sequenceNum) (htold : e.Told history) :
    Tabled ctx' (history ++ [e]) := by
  have hdistinct : DistinctKeys CoapObserver.key (as ++ node :: bs) := hlist ▸ h.observers
  -- every observer is the one changed, or an old one with another key
  have hmem (x : CoapObserver) (hx : x ∈ ctx'.obsserver.list) :
      x = y ∨ (x ∈ ctx.obsserver.list ∧ x.key ≠ node.key) := by
    rw [hserver] at hx
    rw [hlist]
    rcases List.mem_append.mp hx with hx | hx
    · exact .inr ⟨List.mem_append_left _ hx,
        distinctKeys_split hdistinct x (List.mem_append_left _ hx)⟩
    · rcases List.mem_cons.mp hx with rfl | hx
      · exact .inl rfl
      · exact .inr ⟨List.mem_append_right _ (List.mem_cons_of_mem _ hx),
          distinctKeys_split hdistinct x (List.mem_append_right _ hx)⟩
  refine ⟨?_, hclient ▸ h.client, ?_, hclient ▸ h.observables, ?_, ?_, ?_, h.told.concat htold⟩
  · rw [hserver]
    exact h.server.replace hlist y
  · rw [hserver]
    exact distinctKeys_replace hkey hdistinct
  · intro x hx
    rcases hmem x hx with rfl | ⟨hx, -⟩
    · exact hlen
    · exact h.tokens x hx
  · intro x hx
    rcases hmem x hx with rfl | ⟨hx, hne⟩
    · rw [hkey]
      exact hlatest
    · rw [latestToken_concat, (habout _ hne).1]
      exact h.latest x hx
  · intro x hx
    rcases hmem x hx with rfl | ⟨hx, hne⟩
    · rw [hkey]
      exact hnumber
    · rw [nextNumber_concat, (habout _ hne).2]
      exact h.numbers x hx

theorem register (h : Tabled ctx history) (node : CoapObserver)
    (hroom : ctx.obsserver.count < ctx.obsserver.maxcount)
    (hnew : ∀ x ∈ ctx.obsserver.list, x.key ≠ node.key) (hclient : ctx'.obsclient = ctx.obsclient)
    (hserver : ctx'.obsserver =
      { ctx.obsserver with
        list := ctx.obsserver.list ++ [node], count := ctx.obsserver.count + 1 })
    (hlen : node.token.length ≤ coapMsgMaxTokenLen) (hnumber : node.sequenceNum = 0) :
    Tabled ctx' (history ++ [.registered node.key node.token]) := by
  have hlt : ctx.obsserver.list.length < ctx.obsserver.maxcount.toNat := by
    rw [← h.server.count]
    exact UInt8.lt_iff_toNat_lt.mp hroom
  have hmem (x : CoapObserver) (hx : x ∈ ctx'.obsserver.list) :
      x = node ∨ x ∈ ctx.obsserver.list := by
    rw [hserver] at hx
    exact (List.mem_append.mp hx).symm.imp_left List.mem_singleton.mp
  refine ⟨?_, hclient ▸ h.client, ?_, hclient ▸ h.observables, ?_, ?_, ?_,
    h.told.concat trivial⟩
  · rw [hserver]
    exact h.server.append hlt node
  · rw [hserver]
    exact distinctKeys_concat h.observers hnew
  · intro x hx
    rcases hmem x hx with rfl | hx
    · exact hlen
    · exact h.tokens x hx
  · intro x hx
    rw [latestToken_concat]
    rcases hmem x hx with rfl | hx
    · exact if_pos rfl
    · exact (if_neg (hnew x hx).symm).trans (h.latest x hx)
  · intro x hx
    rw [nextNumber_concat]
    rcases hmem x hx with rfl | hx
    · exact (if_pos rfl).trans hnumber.symm
    · exact (if_neg (hnew x hx).symm).trans (h.numbers x hx)

end Tabled

/-! ## The calls -/

variable {ctx : CoapContext} {history : List ObserveEvent}

/-- What `CoAPObsServer_add` can do: nothing, replace the token of an observer, or add one. -/
inductive ServerAddStep (s : ObserveTables) (request : ObserveRequest) : ObserveTables → Prop
  | refused : ServerAddStep s request s
  | refreshed {as bs : List CoapObserver} {node : CoapObserver}
    (hlist : s.ctx.obsserver.list = as ++ node :: bs) :
    ServerAddStep s request
      { s with
        ctx :=
          { s.ctx with
            obsserver :=
              { s.ctx.obsserver with
                list := as ++ { node with token := request.message.token } :: bs } }
        history := s.history ++ [.refreshed node.key request.message.token] }
  | registered (key : ObserverKey) (hroom : s.ctx.obsserver.count < s.ctx.obsserver.maxcount)
    (hnew : ∀ x ∈ s.ctx.obsserver.list, x.key ≠ key) :
    ServerAddStep s request
      { s with
        ctx :=
          { s.ctx with
            obsserver :=
              { s.ctx.obsserver with
                list := s.ctx.obsserver.list ++ [coapNewObserver request key]
                count := s.ctx.obsserver.count + 1 } }
        history := s.history ++ [.registered key request.message.token] }

theorem registration_refused {ret : Int} (hret : ret ≠ coapSuccess)
    (hexist : ret ≠ coapErrorObjAlreadyExist) (key : ObserverKey) (token : List UInt8) :
    registration ret key token = [] := by
  unfold registration
  rw [if_neg hret, if_neg hexist]

theorem serverAdd_step (md5 : List UInt8 → List UInt8) (s : ObserveTables) (path : CStr)
    (remote : NetworkAddr) (request : ObserveRequest) (observe : UInt32) (malloc : Bool) :
    ServerAddStep s request (s.serverAdd md5 path remote request observe malloc) := by
  unfold ObserveTables.serverAdd
  cases hresource : s.ctx.resource.list.findIdx? (answersPath md5 path) with
  | none =>
    simp only [coapObsServerAdd, hresource, List.append_nil]
    exact .refused
  | some resource =>
    by_cases hget : coapUintOptionGet request.options coapOptionObserve observe = some 0
    · rcases splitFirst_cases (fun node : CoapObserver => decide (node.key = (resource, remote)))
        s.ctx.obsserver.list with ⟨hnone, hall⟩ | ⟨as, node, bs, hsome, hlist, hkey, -⟩
      · simp only [coapObsServerAdd, hresource, hget, hnone]
        split
        · dsimp only
          rw [registration_refused (by decide) (by decide), List.append_nil]
          exact .refused
        · split
          · dsimp only
            rw [registration_refused (by decide) (by decide), List.append_nil]
            exact .refused
          · next hroom =>
            exact .registered (resource, remote) (UInt8.not_le.mp hroom)
              fun x hx => of_decide_eq_false (hall x hx)
      · simp only [coapObsServerAdd, hresource, hget, hsome]
        rw [← of_decide_eq_true hkey]
        exact .refreshed hlist
    · have hnot : coapObsServerAdd md5 s.ctx path remote request observe malloc =
          (coapErrorNotFound, s.ctx) := by
        unfold coapObsServerAdd
        split
        · next hzero => exact absurd hzero hget
        · rfl
      rw [hnot]
      dsimp only
      rw [registration_refused (by decide) (by decide), List.append_nil]
      exact .refused

theorem tabled_serverAdd {s t : ObserveTables} {request : ObserveRequest}
    (h : Tabled s.ctx s.history) (hstep : ServerAddStep s request t) : Tabled t.ctx t.history := by
  cases hstep with
  | refused => exact h
  | @refreshed as bs node hlist =>
    have hnumber := h.numbers node (hlist ▸ List.mem_append_right _ List.mem_cons_self)
    refine h.replace (y := { node with token := request.message.token })
      (e := .refreshed node.key request.message.token) hlist rfl ?_ ?_ request.token_le
      (fun k hk => ⟨fun _ => if_neg hk.symm, fun _ => rfl⟩) ?_ ?_ trivial
    · rfl
    · rfl
    · rw [latestToken_concat]
      exact if_pos rfl
    · rw [nextNumber_concat]
      exact hnumber
  | registered key hroom hnew =>
    exact h.register (coapNewObserver request key) hroom hnew rfl rfl request.token_le rfl

theorem tabled_serverDelete (h : Tabled ctx history) (remote : NetworkAddr) (resource : Nat) :
    Tabled (coapObsServerDelete ctx remote resource) history := by
  unfold coapObsServerDelete
  rcases splitFirst_cases (fun node : CoapObserver => decide (node.key = (resource, remote)))
    ctx.obsserver.list with ⟨hnone, -⟩ | ⟨as, node, bs, hsome, hlist, -, -⟩
  · rw [hnone]
    exact h
  · rw [hsome]
    refine h.sublist rfl (h.server.remove hlist) ?_
    rw [hlist]
    exact List.Sublist.append (List.Sublist.refl as) (List.sublist_cons_self node bs)

theorem tabled_serverAllDelete (h : Tabled ctx history) (remote : NetworkAddr) :
    Tabled (coapObsServerAllDelete ctx remote) history := by
  refine h.sublist rfl (h.server.drop ?_) List.filter_sublist
  have hlen := List.length_eq_countP_add_countP (fun node : CoapObserver => decide
    (node.remote = remote)) (l := ctx.obsserver.list)
  have hnot : (fun node : CoapObserver => decide ¬ decide (node.remote = remote) = true) =
      fun node => ! decide (node.remote = remote) := funext fun node => by simp
  rw [hnot, List.countP_eq_length_filter (p := fun node : CoapObserver => ! _)] at hlen
  omega

theorem tabled_notifyTurn {call : NotifyCall} {s : Notifying} {i : Nat}
    (h : Tabled s.ctx (history ++ s.events)) :
    Tabled (coapNotifyTurn call s i).ctx (history ++ (coapNotifyTurn call s i).events) := by
  unfold coapNotifyTurn
  split
  · next node hret hnode =>
    split
    · obtain ⟨hi, hget⟩ := List.getElem?_eq_some_iff.mp hnode
      obtain ⟨as, bs, hlist, -, hset⟩ :=
        @List.exists_of_set _ i { node with sequenceNum := node.sequenceNum + 1 } _ hi
      rw [hget] at hlist
      have hmem : node ∈ s.ctx.obsserver.list := List.mem_of_getElem hget
      obtain ⟨more, hmore⟩ := options_notification node (call.maxage s.ctx)
        (coapMessageIdGen s.ctx.messageId).1 (call.payloadAt i) (call.io i)
      obtain ⟨hserver, hclient⟩ := tables_send (coapNotified s.ctx i node) node.remote
        (call.message s.ctx i node (coapMessageIdGen s.ctx.messageId).1) (call.io i).send
        (obsClientDelete_notification _ _ call i node _)
      rw [← List.append_assoc]
      refine h.replace (y := { node with sequenceNum := node.sequenceNum + 1 }) hlist rfl hclient
        ?_ (h.tokens node hmem) (fun k hk => ⟨fun _ => rfl, fun _ => if_neg hk.symm⟩) ?_ ?_ ?_
      · rw [hserver, ← hset]
        rfl
      · rw [latestToken_concat]
        exact h.latest node hmem
      · rw [nextNumber_concat]
        exact if_pos rfl
      · refine ⟨?_, (h.numbers node hmem).symm, fun hsent => ?_, sent_remote _ _ _ _⟩
        · exact (h.latest node hmem).trans
            (congrArg some (token_notification (h.tokens node hmem) _ _ _ _).symm)
        · exact observe_of_readable hmore (readable_of_sent hmore hsent)
    · exact h
  · exact h

theorem tabled_serverNotify (md5 : List UInt8 → List UInt8) {s : ObserveTables}
    (h : Tabled s.ctx s.history) (path : CStr) (payload : Block) (handler : Bool)
    (io : Nat → NotifyIo) :
    Tabled (s.serverNotify md5 path payload handler io).ctx
      (s.serverNotify md5 path payload handler io).history := by
  have hnil : Tabled s.ctx (s.history ++ []) := by
    rw [List.append_nil]
    exact h
  unfold ObserveTables.serverNotify coapObsServerNotify
  split
  · next resource _ =>
    exact run_invariant (I := fun t : Notifying => Tabled t.ctx (s.history ++ t.events))
      (fun t i ht => tabled_notifyTurn ht) hnil _
  · exact hnil

/-! ### The observables -/

theorem tabled_clientAdd (h : Tabled ctx history) (message : CoapMessage)
    (options : List OptionView) (remote : NetworkAddr) (sendnode : Option (AnsweredNode message))
    (malloc : Bool) :
    Tabled (coapObsClientAdd ctx message options remote (sendnode.map (·.1)) malloc).1 history := by
  rcases splitFirst_cases (fun node => sameToken node.token message.head.tokenlen message.token)
    ctx.obsclient.list with ⟨hnone, hall⟩ | ⟨as, node, bs, hsome, hlist, hkey, -⟩
  · cases sendnode with
    | none =>
      simp only [coapObsClientAdd, hnone, Option.map_none]
      split <;> exact h
    | some sendnode =>
      simp only [coapObsClientAdd, hnone, Option.map_some]
      split
      · split
        · next hroom =>
          obtain ⟨hne, hlen, htoken⟩ := sameToken_eq_true.mp sendnode.2
          refine h.replaceClient rfl (h.client.append ?_ _) (distinctKeys_concat h.observables ?_)
          · rw [← h.client.count]
            exact UInt8.lt_iff_toNat_lt.mp hroom.2.1
          · intro x hx hsame
            have hsame : x.token = message.token := hsame
            have hfalse := hall x hx
            rw [hsame, ← htoken, sameToken_eq_true.mpr ⟨hne, hlen, rfl⟩] at hfalse
            cases hfalse
        · exact h
      · exact h
  · have hremoved : Tabled
        { ctx with
          obsclient :=
            { ctx.obsclient with list := as ++ bs, count := ctx.obsclient.count - 1 } }
              history := by
      refine h.replaceClient rfl (h.client.remove hlist) ?_
      refine distinctKeys_sublist ?_ h.observables
      rw [hlist]
      exact List.Sublist.append (List.Sublist.refl as) (List.sublist_cons_self node bs)
    cases sendnode with
    | none =>
      simp only [coapObsClientAdd, hsome, Option.map_none]
      split
      · refine h.replaceClient rfl (h.client.replace hlist _) ?_
        have hdistinct : DistinctKeys CoapObservable.token (as ++ node :: bs) :=
          hlist ▸ h.observables
        refine distinctKeys_replace ?_ hdistinct
        rfl
      · exact hremoved
    | some sendnode =>
      simp only [coapObsClientAdd, hsome, Option.map_some]
      split
      · split
        · next hroom => cases hroom.1
        · exact h
      · exact hremoved

theorem tabled_clientDelete (h : Tabled ctx history) (message : OutMessage) :
    Tabled (coapObsClientDelete ctx message) history := by
  unfold coapObsClientDelete
  split
  · rcases splitFirst_cases (fun node => sameToken node.token message.header.tokenlen message.token)
      ctx.obsclient.list with ⟨hnone, -⟩ | ⟨as, node, bs, hsome, hlist, -, -⟩
    · rw [hnone]
      exact h
    · rw [hsome]
      refine h.replaceClient rfl (h.client.remove hlist) (distinctKeys_sublist ?_ h.observables)
      rw [hlist]
      exact List.Sublist.append (List.Sublist.refl as) (List.sublist_cons_self node bs)
  · exact h

/-! ## Runs -/

theorem tabled_init (ctx : CoapContext) (obsserver obsclient : UInt8) :
    Tabled (ObserveTables.init ctx obsserver obsclient).ctx [] where
  server := CoapList.Bounded.empty obsserver
  client := CoapList.Bounded.empty obsclient
  observers := List.nodup_nil
  observables := List.nodup_nil
  tokens _ hnode := absurd hnode List.not_mem_nil
  latest _ hnode := absurd hnode List.not_mem_nil
  numbers _ hnode := absurd hnode List.not_mem_nil
  told before e after h := by simp at h

namespace ObserveTables

theorem tabled_next (md5 : List UInt8 → List UInt8) {s : ObserveTables}
    (h : Tabled s.ctx s.history) (op : ObserveOp) :
    Tabled (s.next md5 op).ctx (s.next md5 op).history := by
  unfold next
  split
  · cases op with
    | serverAdd path remote request observe malloc =>
      exact tabled_serverAdd h (serverAdd_step md5 s path remote request observe malloc)
    | serverDelete remote resource => exact tabled_serverDelete h remote resource
    | serverAllDelete remote => exact tabled_serverAllDelete h remote
    | serverNotify path payload handler io =>
      exact tabled_serverNotify md5 h path payload handler io
    | clientAdd message options remote sendnode malloc =>
      exact tabled_clientAdd h message options remote sendnode malloc
    | clientDelete message => exact tabled_clientDelete h message
  · exact h

theorem tabled_run (md5 : List UInt8 → List UInt8) (ctx : CoapContext) (obsserver obsclient : UInt8)
    (ops : List ObserveOp) :
    Tabled (run (next md5) (init ctx obsserver obsclient) ops).ctx
      (run (next md5) (init ctx obsserver obsclient) ops).history :=
  run_invariant (I := fun s : ObserveTables => Tabled s.ctx s.history)
    (fun _ op h => tabled_next md5 h op) (tabled_init ctx obsserver obsclient) ops

theorem observeTables_run (md5 : List UInt8 → List UInt8) (ctx : CoapContext)
    (obsserver obsclient : UInt8) (ops : List ObserveOp) :
    let s := run (next md5) (init ctx obsserver obsclient) ops
    s.ctx.obsserver.Bounded ∧ s.ctx.obsclient.Bounded ∧
    DistinctKeys CoapObserver.key s.ctx.obsserver.list ∧
    DistinctKeys CoapObservable.token s.ctx.obsclient.list ∧
    (∀ remote node, node ∈ (coapObsServerAllDelete s.ctx remote).obsserver.list ↔
      node ∈ s.ctx.obsserver.list ∧ node.remote ≠ remote) ∧
    AllTold s.history := by
  have h := tabled_run md5 ctx obsserver obsclient ops
  refine ⟨h.server, h.client, h.observers, h.observables, fun remote node => ?_, h.told⟩
  show node ∈ List.filter _ _ ↔ _
  rw [List.mem_filter, Bool.not_eq_true', decide_eq_false_iff_not]

/-- Of two notifications that were sent one after the other, the number of the second is
one more than that of the first. -/
def SentInSequence (history : List ObserveEvent) : Prop :=
  ∀ before key n message sent mid n' message' sent' after,
    history = before ++ .notified key n message sent ::
      (mid ++ .notified key n' message' sent' :: after) →
    sent ≠ [] → sent' ≠ [] → (∀ k m s, .notified key k m s ∈ mid → s = []) →
    (∀ token, .registered key token ∉ mid) → n' = n + 1

def resourceContext : CoapContext where
  messageId := 1
  sendlist := ⟨[], 0, 8⟩
  obsserver := ⟨[], 0, 0⟩
  obsclient := ⟨[], 0, 0⟩
  resource := ⟨[⟨⟨1, 50, 60, none⟩, [1, 1, 1, 1, 1], none, .normal⟩], 1, 8⟩
  nextId := 0

/-- A confirmable request with the Observe option `0`. -/
def observeRequest : ObserveRequest where
  message := { header := some ⟨1, coapMessageTypeCon, 1, coapMsgCodeGet, 1⟩, token := [0x01] }
  options := [(coapOptionObserve, 0, [])]
  token_eq := rfl
  token_le := Nat.le_of_ble_eq_true rfl

theorem zero_not_mem_path : (0 : UInt8) ∉ [chSlash, 0x61] := by simp [chSlash]

theorem length_payload_lt : ([0x31] : List UInt8).length < 65536 := by decide

def notifyBuffer (buffer : Bool) : ObserveOp :=
  .serverNotify ⟨[chSlash, 0x61], zero_not_mem_path⟩ ⟨[0x31], length_payload_lt⟩ false
    fun _ => ⟨true, true, true, none, ⟨buffer, 12, true, false, 0⟩⟩

/-- The second of three notifications is not sent. -/
def skippedRun : List ObserveOp :=
  [.serverAdd ⟨[chSlash, 0x61], zero_not_mem_path⟩ ⟨[], 5683⟩ observeRequest 0 true,
    notifyBuffer true, notifyBuffer false, notifyBuffer true]

theorem skippedRun_not_sentInSequence :
    ¬ SentInSequence
      (run (next fun _ => List.replicate 16 1) (init resourceContext 8 8) skippedRun).history := by
  intro h
  have hnext := h [_] (0, ⟨[], 5683⟩) 0 _ _ [.notified (0, ⟨[], 5683⟩) 1 _ _] 2 _ _ [] rfl
    (by decide) (by decide) ?_ ?_
  · exact absurd hnext (by decide)
  · intro k m sent hmem
    cases List.mem_singleton.mp hmem
    rfl
  · intro token hmem
    cases List.mem_singleton.mp hmem

end ObserveTables

end AliyunIot.Coap
