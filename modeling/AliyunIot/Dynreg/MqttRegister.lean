import AliyunIot.Mqtt.Credentials

/-!
# Dynamic registration over MQTT

The wait of `_mqtt_dynamic_register` for the secret that `_mqtt_dynreg_topic_handle` takes out of
a message. The elapsed time is the start minus the present time, so the wait is over as soon as the
clock goes on, unless it goes on by nearly its whole range (`timeout_iff`). It waits for the secret
if the clock stands until the message is there, and waits long enough if it jumps over the whole
wait (`waits_iff`).
-/

namespace AliyunIot.Dynreg.MqttRegister

open Format JsonValue Lib.Json Mqtt
open Mqtt.Credentials

def mqttDynregTimeoutMs : UInt64 := 15 * 1000

/-- A register message with a secret that is not too long. -/
structure RegisterMessage extends StringObject where
  member : Member
  secret : List UInt8
  info : TopicInfo
  member_named : named members (text "deviceSecret") = some member
  value_eq : ∃ body, member.value.text = quote body ∧ unescape body = some secret
  secret_le : secret.length ≤ iotxDeviceSecretLen
  ptopic_eq : info.ptopic = registerTopic
  payload_eq : info.payload = toStringObject.bytes
  payload_le : info.payload.length ≤ maxRemainingLength

/-- The values of `HAL_UptimeMs`, the first one in front of the loop and one in each round, and the
round in whose yield the message is delivered. -/
structure Environment where
  uptime : Nat → UInt64
  mono : ∀ k, uptime k ≤ uptime (k + 1)
  delivery : Option (Nat × RegisterMessage)

/-- What the wait has come to: it reads outside of the secret, or the handler reads or writes
outside; or it is not over, or over at a time, with the secret that is there. -/
inductive Stop where
  | outside
  | running
  | ended (timenow : UInt64) (deviceSecret : CharBuf)
  deriving DecidableEq

/-- What the wait has come to, after so many yields. -/
structure Waited where
  yields : Nat
  stop : Stop
  deriving DecidableEq

namespace Environment

variable (env : Environment)

/-- `wrapper_mqtt_yield` in a round: what it leaves of the secret, none where the handler reads or
writes outside. -/
def wrapperMqttYield (round : Nat) (deviceSecret : CharBuf) : Option CharBuf :=
  match env.delivery with
  | none => some deviceSecret
  | some (n, msg) =>
    if round = n then
      match mqttDynregTopicHandle deviceSecret .publishReceived msg.info with
      | .outside => none
      | .ignored => some deviceSecret
      | .received _ deviceSecret _ => some deviceSecret
    else some deviceSecret

/-- The loop of `_mqtt_dynamic_register` from a round on, for so many rounds. -/
def waitLoop : Nat → Nat → UInt64 → CharBuf → Waited
  | 0, round, _, _ => ⟨round, .running⟩
  | rounds + 1, round, timestart, deviceSecret =>
    let timenow := env.uptime (round + 1)
    let timestart := if timenow < timestart then timenow else timestart
    if mqttDynregTimeoutMs ≤ timestart - timenow then ⟨round, .ended timenow deviceSecret⟩
    else
      match env.wrapperMqttYield round deviceSecret with
      | none => ⟨round + 1, .outside⟩
      | some deviceSecret =>
        match deviceSecret.text with
        | none => ⟨round + 1, .outside⟩
        | some s =>
          if 0 < s.strlen then ⟨round + 1, .ended timenow deviceSecret⟩
          else waitLoop rounds (round + 1) timestart deviceSecret

def wait (rounds : Nat) : Waited :=
  env.waitLoop rounds 0 (env.uptime 0) (CharBuf.zeros (iotxDeviceSecretLen + 1))

end Environment

/-- How the call ends, if it does: with an error in front of the wait; outside; or with a result,
the secret that has been received, and the array of the device. -/
inductive Registration where
  | failed (res : Int)
  | outside
  | running
  | returned (res : Int) (received : CStr) (deviceSecret : CharBuf)

/-- `_mqtt_dynamic_register`, with the error of the parameters or of the connection if there is
one, and a wait for so many rounds. -/
def mqttDynamicRegister (error : Option Int) (env : Environment) (rounds : Nat)
    (deviceSecret : SecretArray) : Registration :=
  match error with
  | some res => .failed res
  | none =>
    match (env.wait rounds).stop with
    | .outside => .outside
    | .running => .running
    | .ended _ received =>
      match received.text with
      | none => .outside
      | some s =>
        let res := if 0 < s.strlen then State.success else stateHttpDynregInvalidDs
        match CharBuf.memcpy deviceSecret.val s with
        | none => .outside
        | some deviceSecret => .returned res s deviceSecret

/-! ## What is asked -/

namespace Environment

variable (env : Environment)

def passed (timenow : UInt64) : Nat := timenow.toNat - (env.uptime 0).toNat

/-- The secret that has been delivered in one of the yields is there. -/
def Received (yields : Nat) (deviceSecret : CharBuf) : Prop :=
  ∃ n msg s, env.delivery = some (n, msg) ∧ n < yields ∧ deviceSecret.text = some s ∧
    s.val = msg.secret

end Environment

/-- The wait ends with the secret, or after the timeout. It does end then, without another yield.
Where the message is delivered in one of its yields, the call returns success, and the secret that
was received and the one of the device are that of the message. -/
structure WaitsForSecret (env : Environment) (deviceSecret : SecretArray) : Prop where
  long_enough : ∀ rounds yields timenow received,
    env.wait rounds = ⟨yields, .ended timenow received⟩ →
      env.Received yields received ∨ mqttDynregTimeoutMs.toNat ≤ env.passed timenow
  ends : ∀ round, mqttDynregTimeoutMs.toNat ≤ env.passed (env.uptime (round + 1)) →
    (env.wait (round + 1)).stop ≠ .running ∧ (env.wait (round + 1)).yields ≤ round
  received : ∀ n msg rounds, env.delivery = some (n, msg) → n < (env.wait rounds).yields →
    ∃ rounds s field, mqttDynamicRegister none env rounds deviceSecret =
      .returned State.success s field ∧ s.val = msg.secret ∧ field.text = some s

/-- The clock stands up to a round. -/
def Environment.Steady (env : Environment) (round : Nat) : Prop :=
  ∀ j < round, env.uptime (j + 1) = env.uptime 0

/-- The clock first goes on over the whole wait, but not by nearly all of its range, or it goes on
when the message has been delivered. -/
def Environment.Jumps (env : Environment) : Prop :=
  ∀ round, (∀ n msg, env.delivery = some (n, msg) → round ≤ n) → env.Steady round →
    env.uptime (round + 1) ≠ env.uptime 0 →
      mqttDynregTimeoutMs.toNat ≤ env.passed (env.uptime (round + 1)) ∧
        env.passed (env.uptime (round + 1)) ≤ 2 ^ 64 - mqttDynregTimeoutMs.toNat

/-- What is found in the message is the secret, there is one, and 28 bytes stand in the message
from its quote on; in the array of the device stands a zero behind its place. -/
def Arrives (msg : RegisterMessage) (deviceSecret : SecretArray) : Prop :=
  msg.secret ≠ [] ∧ deviceSecret.val.getD msg.secret.length 0 = 0 ∧
    ∃ front q x y d rest, 25 ≤ msg.secret.length + rest.length ∧
      Found msg.info.payload (text "deviceSecret") front q (x :: (msg.secret ++ [y])) d rest

/-! ## The clock -/

theorem timeout_iff {start now : UInt64} (h : start ≤ now) :
    mqttDynregTimeoutMs ≤ start - now ↔
      start ≠ now ∧ now.toNat - start.toNat ≤ 2 ^ 64 - mqttDynregTimeoutMs.toNat := by
  have htimeout : mqttDynregTimeoutMs.toNat = 15000 := by decide
  have hnow := now.toNat_lt
  have hle := UInt64.le_iff_toNat_le.mp h
  rw [UInt64.le_iff_toNat_le, UInt64.toNat_sub, htimeout, Ne, ← UInt64.toNat_inj]
  omega

section Rounds

variable {env : Environment} {round rounds n : Nat} {timestart : UInt64} {ds : CharBuf} {s : CStr}
  {msg : RegisterMessage}

theorem start_le (env : Environment) (k : Nat) : env.uptime 0 ≤ env.uptime k := by
  induction k with
  | zero => exact UInt64.le_refl _
  | succ k ih => exact UInt64.le_trans ih (env.mono k)

theorem Environment.Steady.mono {round' : Nat} (h : env.Steady round) (hle : round' ≤ round) :
    env.Steady round' := fun j hj => h j (Nat.lt_of_lt_of_le hj hle)

theorem yield_quiet (h : ∀ n msg, env.delivery = some (n, msg) → round ≠ n) (ds : CharBuf) :
    env.wrapperMqttYield round ds = some ds := by
  unfold Environment.wrapperMqttYield
  cases hdelivery : env.delivery with
  | none => rfl
  | some delivery =>
    obtain ⟨n, msg⟩ := delivery
    exact if_neg (h n msg hdelivery)

theorem waitLoop_stands (h : env.uptime (round + 1) = timestart) :
    env.waitLoop (rounds + 1) round timestart ds =
      match env.wrapperMqttYield round ds with
      | none => ⟨round + 1, .outside⟩
      | some ds =>
        match ds.text with
        | none => ⟨round + 1, .outside⟩
        | some s =>
          if 0 < s.strlen then ⟨round + 1, .ended timestart ds⟩
          else env.waitLoop rounds (round + 1) timestart ds := by
  have hno : ¬ mqttDynregTimeoutMs ≤ timestart - timestart :=
    fun htimeout => ((timeout_iff (UInt64.le_refl _)).mp htimeout).1 rfl
  rw [Environment.waitLoop, h, ite_self]
  exact if_neg hno

theorem waitLoop_goes (hle : timestart ≤ env.uptime (round + 1))
    (hne : env.uptime (round + 1) ≠ timestart)
    (hgap : (env.uptime (round + 1)).toNat - timestart.toNat ≤
      2 ^ 64 - mqttDynregTimeoutMs.toNat) :
    env.waitLoop (rounds + 1) round timestart ds =
      ⟨round, .ended (env.uptime (round + 1)) ds⟩ := by
  have hstart : ¬ env.uptime (round + 1) < timestart := UInt64.not_lt.mpr hle
  rw [Environment.waitLoop, if_neg hstart, if_pos ((timeout_iff hle).mpr ⟨hne.symm, hgap⟩)]

theorem cleared_text : ∃ s, (CharBuf.zeros (iotxDeviceSecretLen + 1)).text = some s ∧
    s.strlen = 0 := ⟨⟨[], List.not_mem_nil⟩, by decide, rfl⟩

theorem wait_steady (hsteady : env.Steady round)
    (hquiet : ∀ n msg, env.delivery = some (n, msg) → round ≤ n) (rounds : Nat) :
    env.wait (round + rounds) =
      env.waitLoop rounds round (env.uptime 0) (CharBuf.zeros (iotxDeviceSecretLen + 1)) := by
  induction round generalizing rounds with
  | zero =>
    rw [Nat.zero_add]
    rfl
  | succ round ih =>
    have hquiet' : ∀ n msg, env.delivery = some (n, msg) → round ≠ n :=
      fun n msg h => Nat.ne_of_lt (hquiet n msg h)
    have hsum : round + 1 + rounds = round + (rounds + 1) := by omega
    obtain ⟨s, hs, hempty⟩ := cleared_text
    rw [hsum, ih (hsteady.mono (Nat.le_succ _)) (fun n msg h => Nat.le_of_lt (hquiet n msg h)),
      waitLoop_stands (hsteady round (Nat.lt_succ_self _)), yield_quiet hquiet']
    dsimp only
    rw [hs]
    dsimp only
    rw [if_neg (by omega)]

theorem wait_running (hsteady : env.Steady round)
    (hquiet : ∀ n msg, env.delivery = some (n, msg) → round ≤ n) :
    env.wait round = ⟨round, .running⟩ := wait_steady hsteady hquiet 0

theorem waitLoop_after (hquiet : ∀ n msg, env.delivery = some (n, msg) → n < round)
    (htext : ds.text = some s) (hempty : s.strlen = 0) {timenow : UInt64} {received : CharBuf}
    (h : (env.waitLoop rounds round timestart ds).stop = .ended timenow received) :
    received = ds := by
  induction rounds generalizing round timestart with
  | zero => cases h
  | succ rounds ih =>
    have hquiet' : ∀ n msg, env.delivery = some (n, msg) → round ≠ n :=
      fun n msg hd => Nat.ne_of_gt (hquiet n msg hd)
    rw [Environment.waitLoop] at h
    generalize (if env.uptime (round + 1) < timestart then env.uptime (round + 1)
      else timestart) = timestart' at h
    split at h
    · cases h
      rfl
    · rw [yield_quiet hquiet'] at h
      dsimp only at h
      rw [htext] at h
      dsimp only at h
      rw [if_neg (by omega)] at h
      exact ih (fun n msg hd => Nat.lt_succ_of_lt (hquiet n msg hd)) h

end Rounds

/-! ## The message -/

section Message

variable {env : Environment} {round rounds n : Nat} {ds : CharBuf} {s : CStr}
  {msg : RegisterMessage} {payload key front mid rest : List UInt8} {q x y d : UInt8}
  {deviceSecret : SecretArray}

theorem insideQuotes_eq (h : Found payload key front q (x :: (mid ++ [y])) d rest) :
    insideQuotes payload ⟨front.length + key.length + 2, (x :: (mid ++ [y])).length⟩ = mid := by
  have hsplit : payload = (front ++ (key ++ [q, 58, x])) ++ (mid ++ y :: d :: rest) := by
    rw [h.input_eq]
    simp
  have hstart : front.length + key.length + 2 + 1 = (front ++ (key ++ [q, 58, x])).length := by
    simp only [List.length_append, List.length_cons, List.length_nil]
    omega
  have hlen : (x :: (mid ++ [y])).length - 2 = mid.length := by
    rw [List.length_cons, List.length_append]
    rfl
  rw [insideQuotes, hsplit]
  rw [hstart, List.drop_left, hlen, List.take_left]

theorem text_put_zeros (size : Nat) {bytes : List UInt8} (h0 : (0 : UInt8) ∉ bytes)
    (hle : bytes.length ≤ size) : ((CharBuf.zeros size).put 0 bytes).text =
      if bytes.length < size then some ⟨bytes, h0⟩ else none := by
  have hcopy : (CharBuf.zeros size).memcpy ⟨bytes, h0⟩ =
      some ((CharBuf.zeros size).put 0 bytes) := by
    rw [CharBuf.memcpy, if_pos (by rw [CharBuf.length_zeros]; exact hle), CharBuf.put,
      Nat.zero_add, List.take_zero, List.nil_append]
    rfl
  split
  next hlt =>
    have h := CharBuf.text_memcpy_zeros (s := ⟨bytes, h0⟩) hlt
    rw [hcopy] at h
    exact h
  next hge =>
    have h := CharBuf.text_memcpy_zeros_eq_none (s := ⟨bytes, h0⟩) (Nat.not_lt.mp hge)
    rw [hcopy] at h
    exact h

theorem yield_found (hdelivery : env.delivery = some (n, msg))
    (h : Found msg.info.payload (text "deviceSecret") front q (x :: (mid ++ [y])) d rest)
    (hmid : mid.length ≤ iotxDeviceSecretLen + 1) (hroom : 25 ≤ mid.length + rest.length) :
    env.wrapperMqttYield n (CharBuf.zeros (iotxDeviceSecretLen + 1)) =
      some ((CharBuf.zeros (iotxDeviceSecretLen + 1)).put 0 mid) := by
  have hvalue := infraJsonValue_iff.mpr ⟨front, q, _, d, rest, h, rfl⟩
  have hsum := (slice_eq hvalue h).2.2
  have hlen : (x :: (mid ++ [y])).length = mid.length + 2 := by
    rw [List.length_cons, List.length_append]
    rfl
  have hfits : Fits (CharBuf.zeros (iotxDeviceSecretLen + 1)) msg.info.payload
      ⟨front.length + (text "deviceSecret").length + 2, (x :: (mid ++ [y])).length⟩ := by
    refine ⟨?_, ?_, ?_⟩
    · dsimp only
      omega
    · rw [CharBuf.length_zeros]
      dsimp only
      omega
    · dsimp only at hsum ⊢
      omega
  unfold Environment.wrapperMqttYield
  rw [hdelivery]
  dsimp only
  rw [if_pos rfl, handle_fits msg.ptopic_eq msg.payload_le hvalue hfits, insideQuotes_eq h]

theorem yield_cases (hdelivery : env.delivery = some (n, msg))
    (h : env.wrapperMqttYield n (CharBuf.zeros (iotxDeviceSecretLen + 1)) = some ds) :
    ds = CharBuf.zeros (iotxDeviceSecretLen + 1) ∨
      ∃ front q x mid y d rest, mid.length ≤ iotxDeviceSecretLen + 1 ∧
        25 ≤ mid.length + rest.length ∧
        Found msg.info.payload (text "deviceSecret") front q (x :: (mid ++ [y])) d rest := by
  cases hvalue : infraJsonValue msg.info.payload (text "deviceSecret") with
  | none =>
    unfold Environment.wrapperMqttYield at h
    rw [hdelivery] at h
    dsimp only at h
    rw [if_pos rfl, handle_none msg.ptopic_eq hvalue] at h
    exact .inl (Option.some.inj h).symm
  | some slice =>
    right
    have hfits : Fits (CharBuf.zeros (iotxDeviceSecretLen + 1)) msg.info.payload slice := by
      by_contra hnot
      unfold Environment.wrapperMqttYield at h
      rw [hdelivery] at h
      dsimp only at h
      rw [if_pos rfl, handle_outside msg.ptopic_eq msg.payload_le hvalue hnot] at h
      cases h
    obtain ⟨front, q, value, d, rest, hfound, -⟩ := infraJsonValue_iff.mp hvalue
    obtain ⟨hlen, -, hsum⟩ := slice_eq hvalue hfound
    obtain ⟨htwo, hmax, hroom⟩ := hfits
    rw [CharBuf.length_zeros] at hmax
    cases value with
    | nil => exact absurd hlen (by rw [List.length_nil]; omega)
    | cons x tail =>
      obtain rfl | ⟨mid, y, rfl⟩ := tail.eq_nil_or_concat
      · exact absurd hlen (by rw [List.length_singleton]; omega)
      · rw [List.concat_eq_append] at hfound hlen hsum
        have hvalue : (x :: (mid ++ [y])).length = mid.length + 2 := by
          rw [List.length_cons, List.length_append]
          rfl
        exact ⟨front, q, x, mid, y, d, rest, by omega, by omega, hfound⟩

theorem zero_not_mem_mid
    (h : Found msg.info.payload key front q (x :: (mid ++ [y])) d rest) : (0 : UInt8) ∉ mid := by
  intro h0
  refine msg.toStringObject.zero_not_mem ?_
  rw [← msg.payload_eq, h.input_eq]
  simp [h0]

theorem wait_delivery (hdelivery : env.delivery = some (n, msg)) (hsteady : env.Steady (n + 1))
    (rounds : Nat) : env.wait (n + (rounds + 1)) =
      match env.wrapperMqttYield n (CharBuf.zeros (iotxDeviceSecretLen + 1)) with
      | none => ⟨n + 1, .outside⟩
      | some ds =>
        match ds.text with
        | none => ⟨n + 1, .outside⟩
        | some s =>
          if 0 < s.strlen then ⟨n + 1, .ended (env.uptime 0) ds⟩
          else env.waitLoop rounds (n + 1) (env.uptime 0) ds := by
  have hquiet : ∀ n' msg', env.delivery = some (n', msg') → n ≤ n' := fun n' msg' h => by
    rw [hdelivery] at h
    cases h
    exact Nat.le_refl n
  rw [wait_steady (hsteady.mono (Nat.le_succ n)) hquiet,
    waitLoop_stands (hsteady n (Nat.lt_succ_self n))]

theorem wait_arrives (hdelivery : env.delivery = some (n, msg)) (hsteady : env.Steady (n + 1))
    (h : Arrives msg deviceSecret) : ∃ ds s, ds.text = some s ∧ s.val = msg.secret ∧
      ∀ rounds, env.wait (n + (rounds + 1)) = ⟨n + 1, .ended (env.uptime 0) ds⟩ := by
  obtain ⟨hne, -, front, q, x, y, d, rest, hroom, hfound⟩ := h
  have hle := msg.secret_le
  have hyield := yield_found hdelivery hfound (Nat.le_succ_of_le hle) hroom
  have htext := text_put_zeros (iotxDeviceSecretLen + 1) (zero_not_mem_mid hfound)
    (Nat.le_succ_of_le hle)
  rw [if_pos (Nat.lt_succ_of_le hle)] at htext
  refine ⟨_, _, htext, rfl, fun rounds => ?_⟩
  rw [wait_delivery hdelivery hsteady, hyield]
  dsimp only
  rw [htext]
  exact if_pos (List.length_pos_iff.mpr hne)

theorem register_returned {res : Int} {field : CharBuf}
    (h : mqttDynamicRegister none env rounds deviceSecret = .returned res s field) :
    ∃ timenow received, (env.wait rounds).stop = .ended timenow received ∧
      received.text = some s ∧ CharBuf.memcpy deviceSecret.val s = some field ∧
        res = if 0 < s.strlen then State.success else stateHttpDynregInvalidDs := by
  unfold mqttDynamicRegister at h
  dsimp only at h
  split at h
  · cases h
  · cases h
  next timenow received hstop =>
    split at h
    · cases h
    next s' htext =>
      split at h
      · cases h
      next field' hfield =>
        cases h
        exact ⟨timenow, received, hstop, htext, hfield, rfl⟩

theorem register_ended {timenow : UInt64} {received : CharBuf}
    (hstop : (env.wait rounds).stop = .ended timenow received) (htext : received.text = some s)
    (hle : s.strlen ≤ deviceSecret.val.length) :
    mqttDynamicRegister none env rounds deviceSecret =
      .returned (if 0 < s.strlen then State.success else stateHttpDynregInvalidDs) s
        (CharBuf.copy deviceSecret.val s) := by
  unfold mqttDynamicRegister
  rw [hstop]
  dsimp only
  rw [htext]
  dsimp only
  rw [CharBuf.memcpy, if_pos hle]

theorem text_copy_iff (hlt : s.strlen < deviceSecret.val.length) :
    (CharBuf.copy deviceSecret.val s).text = some s ↔
      deviceSecret.val.getD s.strlen 0 = 0 := by
  rw [← CharBuf.string_copy_eq_iff hlt, CharBuf.text]
  constructor
  · intro h
    split at h
    · exact Option.some.inj h
    · cases h
  · intro h
    have hmem : (0 : UInt8) ∈ CharBuf.copy deviceSecret.val s := by
      have hzero := (CharBuf.string_copy_eq_iff hlt).mp h
      rw [List.getD_eq_getElem _ _ hlt] at hzero
      refine List.mem_append_right _ (List.mem_drop_iff_getElem.mpr ⟨0, by omega, ?_⟩)
      exact hzero
    rw [if_pos hmem, h]

theorem yield_of_ended (hdelivery : env.delivery = some (n, msg)) (hsteady : env.Steady (n + 1))
    {timenow : UInt64} {received : CharBuf}
    (hstop : (env.wait rounds).stop = .ended timenow received) :
    env.wrapperMqttYield n (CharBuf.zeros (iotxDeviceSecretLen + 1)) = some received := by
  have hlate : n < rounds := by
    by_contra hearly
    have hrun := wait_running (hsteady.mono (show rounds ≤ n + 1 by omega)) (fun n' msg' h => by
      rw [hdelivery] at h
      cases h
      omega)
    rw [hrun] at hstop
    cases hstop
  obtain ⟨more, rfl⟩ : ∃ more, rounds = n + (more + 1) := ⟨rounds - n - 1, by omega⟩
  rw [wait_delivery hdelivery hsteady more] at hstop
  cases hyield : env.wrapperMqttYield n (CharBuf.zeros (iotxDeviceSecretLen + 1)) with
  | none =>
    rw [hyield] at hstop
    cases hstop
  | some ds =>
    rw [hyield] at hstop
    dsimp only at hstop
    cases hds : ds.text with
    | none =>
      rw [hds] at hstop
      cases hstop
    | some s =>
      rw [hds] at hstop
      dsimp only at hstop
      by_cases hfull : 0 < s.strlen
      · rw [if_pos hfull] at hstop
        cases hstop
        rfl
      · rw [if_neg hfull] at hstop
        rw [waitLoop_after (fun n' msg' h => ?_) hds (by omega) hstop]
        rw [hdelivery] at h
        cases h
        exact Nat.lt_succ_self n

theorem arrives_iff (hdelivery : env.delivery = some (n, msg)) (hsteady : env.Steady (n + 1)) :
    (∃ rounds s field, mqttDynamicRegister none env rounds deviceSecret =
      .returned State.success s field ∧ s.val = msg.secret ∧ field.text = some s) ↔
      Arrives msg deviceSecret := by
  have hlength : deviceSecret.val.length = iotxDeviceSecretLen + 1 := deviceSecret.property
  have hle := msg.secret_le
  constructor
  · rintro ⟨rounds, s, field, hreturned, hs, hfield⟩
    obtain ⟨timenow, received, hstop, htext, hcopy, hres⟩ := register_returned hreturned
    have hpos : 0 < s.strlen := by
      by_contra hempty
      rw [if_neg hempty] at hres
      exact absurd hres (by decide)
    have hyield := yield_of_ended hdelivery hsteady hstop
    rcases yield_cases hdelivery hyield with rfl | ⟨front, q, x, mid, y, d, rest, hmid, hroom,
      hfound⟩
    · obtain ⟨empty, hempty, hzero⟩ := cleared_text
      obtain rfl := Option.some.inj (hempty.symm.trans htext)
      exact absurd hpos (by omega)
    · have hput := Option.some.inj (hyield.symm.trans (yield_found hdelivery hfound hmid hroom))
      rw [hput, text_put_zeros _ (zero_not_mem_mid hfound) hmid] at htext
      split at htext
      next hlt =>
        obtain rfl := Option.some.inj htext
        obtain rfl : mid = msg.secret := hs
        have hlen : CStr.strlen ⟨msg.secret, zero_not_mem_mid hfound⟩ = msg.secret.length := rfl
        rw [CharBuf.memcpy, if_pos (by omega)] at hcopy
        obtain rfl := Option.some.inj hcopy
        exact ⟨List.length_pos_iff.mp hpos, (text_copy_iff (by omega)).mp hfield, front, q, x, y,
          d, rest, hroom, hfound⟩
      next => cases htext
  · intro harrives
    obtain ⟨ds, s, htext, hs, hwait⟩ := wait_arrives hdelivery hsteady harrives
    have hlen : s.strlen = msg.secret.length := by rw [← hs]; rfl
    have hstop : (env.wait (n + (0 + 1))).stop = .ended (env.uptime 0) ds := by rw [hwait 0]
    have hpos : 0 < s.strlen := by
      rw [hlen]
      exact List.length_pos_iff.mpr harrives.1
    have hlt : s.strlen < deviceSecret.val.length := by omega
    refine ⟨n + (0 + 1), s, _, ?_, hs, (text_copy_iff hlt).mpr ?_⟩
    · rw [register_ended hstop htext (Nat.le_of_lt hlt), if_pos hpos]
    · rw [hlen]
      exact harrives.2.1

end Message

/-! ## The wait -/

section Wait

variable {env : Environment} {deviceSecret : SecretArray} {round rounds : Nat}

/-- The clock goes on for the first time in a round, and nothing has been delivered in front. -/
structure FirstTick (env : Environment) (round : Nat) : Prop where
  quiet : ∀ n msg, env.delivery = some (n, msg) → round ≤ n
  steady : env.Steady round
  goes : env.uptime (round + 1) ≠ env.uptime 0

theorem FirstTick.wait_ended (h : FirstTick env round) (rounds : Nat)
    (hgap : env.passed (env.uptime (round + 1)) ≤ 2 ^ 64 - mqttDynregTimeoutMs.toNat) :
    env.wait (round + (rounds + 1)) = ⟨round, .ended (env.uptime (round + 1))
      (CharBuf.zeros (iotxDeviceSecretLen + 1))⟩ := by
  rw [wait_steady h.steady h.quiet, waitLoop_goes (start_le env _) h.goes hgap]

theorem FirstTick.lt_yields (h : FirstTick env round)
    (hgap : ¬ env.passed (env.uptime (round + 1)) ≤ 2 ^ 64 - mqttDynregTimeoutMs.toNat) :
    (env.wait (round + 1)).yields = round + 1 := by
  have hstart : ¬ env.uptime (round + 1) < env.uptime 0 := UInt64.not_lt.mpr (start_le env _)
  have hno : ¬ mqttDynregTimeoutMs ≤ env.uptime 0 - env.uptime (round + 1) :=
    fun htimeout => hgap ((timeout_iff (start_le env _)).mp htimeout).2
  rw [wait_steady h.steady h.quiet 1, Environment.waitLoop, if_neg hstart, if_neg hno]
  split
  · rfl
  · split
    · rfl
    · split
      · rfl
      · rfl

theorem jumps_of_waits (h : WaitsForSecret env deviceSecret) : env.Jumps := by
  intro round hquiet hsteady hgoes
  have htick : FirstTick env round := ⟨hquiet, hsteady, hgoes⟩
  have hmax := (env.uptime (round + 1)).toNat_lt
  have htimeout : mqttDynregTimeoutMs.toNat = 15000 := by decide
  by_cases hgap : env.passed (env.uptime (round + 1)) ≤ 2 ^ 64 - mqttDynregTimeoutMs.toNat
  · refine ⟨?_, hgap⟩
    have hended := htick.wait_ended 0 hgap
    rcases h.long_enough _ _ _ _ hended with ⟨n, msg, s, hdelivery, hn, -⟩ | hlong
    · exact absurd (hquiet n msg hdelivery) (Nat.not_le.mpr hn)
    · exact hlong
  · have hyields := (h.ends round (by omega)).2
    rw [htick.lt_yields hgap] at hyields
    omega

theorem arrives_of_waits (h : WaitsForSecret env deviceSecret) {n : Nat} {msg : RegisterMessage}
    (hdelivery : env.delivery = some (n, msg)) (hsteady : env.Steady (n + 1)) :
    Arrives msg deviceSecret := by
  refine (arrives_iff hdelivery hsteady).mp (h.received n msg (n + (0 + 1)) hdelivery ?_)
  have hwait := wait_delivery hdelivery hsteady 0
  rw [hwait]
  split
  · exact Nat.lt_succ_self n
  · split
    · exact Nat.lt_succ_self n
    · split
      · exact Nat.lt_succ_self n
      · exact Nat.lt_succ_self n

theorem waits_delivered {n : Nat} {msg : RegisterMessage}
    (hdelivery : env.delivery = some (n, msg)) (hsteady : env.Steady (n + 1))
    (harrives : Arrives msg deviceSecret) : WaitsForSecret env deviceSecret := by
  obtain ⟨ds, s, htext, hs, hwait⟩ := wait_arrives hdelivery hsteady harrives
  have hquiet : ∀ {rounds}, rounds ≤ n → ∀ n' msg', env.delivery = some (n', msg') →
      rounds ≤ n' := fun hle n' msg' h => by
    rw [hdelivery] at h
    cases h
    exact hle
  -- the wait is running, or it has ended with the secret
  have hcases : ∀ rounds, rounds ≤ n ∧ env.wait rounds = ⟨rounds, .running⟩ ∨
      env.wait rounds = ⟨n + 1, .ended (env.uptime 0) ds⟩ := by
    intro rounds
    by_cases hle : rounds ≤ n
    · exact .inl ⟨hle, wait_running (hsteady.mono (Nat.le_succ_of_le hle)) (hquiet hle)⟩
    · obtain ⟨more, rfl⟩ : ∃ more, rounds = n + (more + 1) := ⟨rounds - n - 1, by omega⟩
      exact .inr (hwait more)
  refine ⟨fun rounds yields timenow received h => ?_, fun round hround => ?_,
    fun n' msg' rounds h _ => ?_⟩
  · rcases hcases rounds with ⟨-, hrun⟩ | hended
    · rw [hrun] at h
      cases h
    · rw [hended] at h
      cases h
      exact .inl ⟨n, msg, s, hdelivery, Nat.lt_succ_self n, htext, hs⟩
  · have hlate : n < round := by
      by_contra hearly
      have hstands := hsteady round (by omega)
      rw [Environment.passed, hstands, Nat.sub_self] at hround
      exact absurd hround (by decide)
    rcases hcases (round + 1) with ⟨hle, -⟩ | hended
    · omega
    · rw [hended]
      exact ⟨fun h => (by cases h), hlate⟩
  · rw [hdelivery] at h
    cases h
    exact (arrives_iff hdelivery hsteady).mpr harrives

theorem waits_ticked (htick : FirstTick env round)
    (hlong : mqttDynregTimeoutMs.toNat ≤ env.passed (env.uptime (round + 1)))
    (hgap : env.passed (env.uptime (round + 1)) ≤ 2 ^ 64 - mqttDynregTimeoutMs.toNat) :
    WaitsForSecret env deviceSecret := by
  have hcases : ∀ rounds, rounds ≤ round ∧ env.wait rounds = ⟨rounds, .running⟩ ∨
      env.wait rounds = ⟨round, .ended (env.uptime (round + 1))
        (CharBuf.zeros (iotxDeviceSecretLen + 1))⟩ := by
    intro rounds
    by_cases hle : rounds ≤ round
    · exact .inl ⟨hle, wait_running (htick.steady.mono hle)
        fun n msg h => Nat.le_trans hle (htick.quiet n msg h)⟩
    · obtain ⟨more, rfl⟩ : ∃ more, rounds = round + (more + 1) := ⟨rounds - round - 1, by omega⟩
      exact .inr (htick.wait_ended more hgap)
  refine ⟨fun rounds yields timenow received h => ?_, fun round' hround => ?_,
    fun n msg rounds h hyields => ?_⟩
  · rcases hcases rounds with ⟨-, hrun⟩ | hended
    · rw [hrun] at h
      cases h
    · rw [hended] at h
      cases h
      exact .inr hlong
  · have hlate : round ≤ round' := by
      by_contra hearly
      have hstands := htick.steady round' (by omega)
      rw [Environment.passed, hstands, Nat.sub_self] at hround
      exact absurd hround (by decide)
    rcases hcases (round' + 1) with ⟨hle, -⟩ | hended
    · omega
    · rw [hended]
      exact ⟨fun h => (by cases h), hlate⟩
  · have hle := htick.quiet n msg h
    rcases hcases rounds with ⟨hrounds, hrun⟩ | hended
    · rw [hrun] at hyields
      dsimp only at hyields
      omega
    · rw [hended] at hyields
      dsimp only at hyields
      omega

theorem waits_forever (hdelivery : env.delivery = none) (hsteady : ∀ round, env.Steady round) :
    WaitsForSecret env deviceSecret := by
  have hrun : ∀ rounds, env.wait rounds = ⟨rounds, .running⟩ := fun rounds =>
    wait_running (hsteady rounds) fun n msg h => by rw [hdelivery] at h; cases h
  refine ⟨fun rounds yields timenow received h => ?_, fun round hround => ?_,
    fun n msg rounds h _ => ?_⟩
  · rw [hrun] at h
    cases h
  · rw [Environment.passed, hsteady (round + 1) round (Nat.lt_succ_self _), Nat.sub_self] at hround
    exact absurd hround (by decide)
  · rw [hdelivery] at h
    cases h

theorem steady_or_ticks (env : Environment) (n : Nat) :
    env.Steady n ∨ ∃ round < n, env.Steady round ∧ env.uptime (round + 1) ≠ env.uptime 0 := by
  induction n with
  | zero => exact .inl fun j hj => absurd hj (Nat.not_lt_zero j)
  | succ n ih =>
    rcases ih with hsteady | ⟨round, hlt, h⟩
    · by_cases hstands : env.uptime (n + 1) = env.uptime 0
      · left
        intro j hj
        rcases Nat.lt_succ_iff_lt_or_eq.mp hj with hj | rfl
        · exact hsteady j hj
        · exact hstands
      · exact .inr ⟨n, Nat.lt_succ_self n, hsteady, hstands⟩
    · exact .inr ⟨round, Nat.lt_succ_of_lt hlt, h⟩

/-- The wait is right where the clock stands until a message that arrives is delivered, or jumps
over the whole wait, and only there. -/
theorem waits_iff (env : Environment) (deviceSecret : SecretArray) :
    WaitsForSecret env deviceSecret ↔
      env.Jumps ∧ ∀ n msg, env.delivery = some (n, msg) → env.Steady (n + 1) →
        Arrives msg deviceSecret := by
  constructor
  · exact fun h => ⟨jumps_of_waits h, fun n msg => arrives_of_waits h⟩
  · rintro ⟨hjumps, harrives⟩
    have hticked : ∀ {round}, FirstTick env round → WaitsForSecret env deviceSecret := fun htick =>
      waits_ticked htick (hjumps _ htick.quiet htick.steady htick.goes).1
        (hjumps _ htick.quiet htick.steady htick.goes).2
    cases hdelivery : env.delivery with
    | none =>
      have hquiet : ∀ {round}, ∀ n msg, env.delivery = some (n, msg) → round ≤ n :=
        fun n msg h => by rw [hdelivery] at h; cases h
      by_cases hsteady : ∀ round, env.Steady round
      · exact waits_forever hdelivery hsteady
      · obtain ⟨m, hm⟩ := not_forall.mp hsteady
        obtain ⟨round, -, hround, hgoes⟩ := (steady_or_ticks env m).resolve_left hm
        exact hticked ⟨hquiet, hround, hgoes⟩
    | some delivery =>
      obtain ⟨n, msg⟩ := delivery
      rcases steady_or_ticks env (n + 1) with hsteady | ⟨round, hlt, hround, hgoes⟩
      · exact waits_delivered hdelivery hsteady (harrives n msg hdelivery hsteady)
      · refine hticked ⟨fun n' msg' h => ?_, hround, hgoes⟩
        rw [hdelivery] at h
        cases h
        exact Nat.le_of_lt_succ hlt

end Wait

/-- The clock goes on by a millisecond when the wait begins. -/
def ticking : Environment where
  uptime k := if k = 0 then 0 else 1
  mono k := by
    cases k with
    | zero => decide
    | succ k => exact UInt64.le_refl _
  delivery := none

/-- The wait is over at once. -/
theorem not_waiting :
    ¬ WaitsForSecret ticking ⟨CharBuf.zeros (iotxDeviceSecretLen + 1), CharBuf.length_zeros⟩ := by
  intro h
  have hended : ticking.wait 1 = ⟨0, .ended 1 (CharBuf.zeros (iotxDeviceSecretLen + 1))⟩ := by
    decide
  rcases h.long_enough 1 0 1 _ hended with ⟨n, msg, s, hdelivery, -⟩ | hlong
  · cases hdelivery
  · exact absurd hlong (by decide)

end AliyunIot.Dynreg.MqttRegister
