import AliyunIot.Infra.Atoi
import AliyunIot.Infra.CharBuf
import AliyunIot.Infra.JsonLookup

/-!
# The time of an NTP reply

`linkkit_ntp_time_reply` of `impl_ntp.c`. The server's time is a text of up to twenty digits; half
the round trip is added to its last nine, which stay nine: a carry out of them is cut off to
999999999 (`reply_iff`).
-/

namespace AliyunIot.Dm.NtpTime

open Format Cjson Libc JsonParser Lib

abbrev ntpTimeStrMaxLen : Nat := 20

def devTxTime : CStr := CStr.ofString "deviceSendTime" (by decide)

def serverRxTime : CStr := CStr.ofString "serverRecvTime" (by decide)

def serverTxTime : CStr := CStr.ofString "serverSendTime" (by decide)

/-- An MQTT event; only a publish has a topic and a payload. -/
structure Msg where
  publishReceived : Bool
  payload : Option CStr
  payloadLen : Nat

/-- How the function leaves early: at `NTP_FAIL`, or beyond the payload or a buffer. -/
inductive Leave where
  | ntpFail
  | outside

def timeElem (payload : CStr) (payloadLen : Nat) (name : CStr) : Except Leave (List UInt8) :=
  match jsonGetValueByName payload payloadLen name with
  | .value val len _ =>
    if len = 0 ∨ ntpTimeStrMaxLen < len then .error .ntpFail
    else .ok ((payload.val.drop val).take len)
  | .null => .error .ntpFail
  | .outside | .unfinished => .error .outside

def store (buf : CharBuf) (pos : Nat) (data : List UInt8) : Except Leave CharBuf :=
  match buf.write pos data with
  | some buf => .ok buf
  | none => .error .outside

/-- The loop that makes a number of the time of the device. -/
def toTx (elem : List UInt8) : UInt32 := elem.foldl (fun tx b => tx * 10 + (b.toUInt32 - 48)) 0

/-- `%0*u`. -/
def padded (width n : Nat) : List UInt8 :=
  List.replicate (width - (digits n).length) 48 ++ digits n

/-- The half of the round trip is added to the last nine digits. -/
def addDiff (serverTx : CharBuf) (diff : UInt32) : Except Leave CharBuf :=
  let len := serverTx.string.strlen
  let elem := if 9 < len then len - 9 else 0
  let tx := UInt32.ofInt (atoi (serverTx.string.val.drop elem)) + diff
  let tx := if 999999999 < tx then 999999999 else tx
  store serverTx elem ((if 9 < len then padded 9 tx.toNat else digits tx.toNat) ++ [0])

/-- From the payload to `g_ntp_time`, which is zero before. -/
def ntpTime (payload : CStr) (payloadLen : Nat) (uptimeMs : UInt32) : Except Leave CharBuf := do
  let zeros := CharBuf.zeros (ntpTimeStrMaxLen + 1)
  let elem ← timeElem payload payloadLen serverTxTime
  let serverTx ← store zeros 0 elem
  let elem ← timeElem payload payloadLen serverRxTime
  let _ ← store zeros 0 elem
  let elem ← timeElem payload payloadLen devTxTime
  let diff := (uptimeMs - toTx elem) >>> 1
  if 1000000 ≤ diff then
    .error .ntpFail
  else
    let serverTx ← addDiff serverTx diff
    store zeros 0 (strncpy (serverTx.take ntpTimeStrMaxLen))

/-- `linkkit_ntp_time_reply`: the `g_ntp_time` that the callback gets, none where a read or a
write leaves the payload or a buffer. -/
def linkkitNtpTimeReply (gNtpTime : CharBuf) (msg : Msg) (uptimeMs : UInt32) : Option CharBuf :=
  if msg.publishReceived then
    match msg.payload with
    | none => some gNtpTime
    | some payload =>
      if msg.payloadLen = 0 then some gNtpTime
      else
        match ntpTime payload msg.payloadLen uptimeMs with
        | .ok time => some time
        | .error .ntpFail => some (CharBuf.zeros (ntpTimeStrMaxLen + 1))
        | .error .outside => none
  else some gNtpTime

/-! ## Replies -/

def HasNumeral (payload : CStr) (payloadLen : Nat) (name : CStr) (n : Nat) : Prop :=
  ∃ val type, jsonGetValueByName payload payloadLen name = .value val (digits n).length type ∧
    (payload.val.drop val).take (digits n).length = digits n

/-- A payload with the three times. -/
structure Reply where
  payload : CStr
  payloadLen : Nat
  deviceSendTime : Nat
  serverRecvTime : Nat
  serverSendTime : Nat
  device_le : (digits deviceSendTime).length ≤ ntpTimeStrMaxLen
  recv_le : (digits serverRecvTime).length ≤ ntpTimeStrMaxLen
  send_le : (digits serverSendTime).length ≤ ntpTimeStrMaxLen
  device_found : HasNumeral payload payloadLen devTxTime deviceSendTime
  recv_found : HasNumeral payload payloadLen serverRxTime serverRecvTime
  send_found : HasNumeral payload payloadLen serverTxTime serverSendTime

namespace Reply

def msg (r : Reply) : Msg := ⟨true, some r.payload, r.payloadLen⟩

def half (r : Reply) (uptimeMs : UInt32) : Nat :=
  (((uptimeMs.toNat : Int) - r.deviceSendTime) % 4294967296).toNat / 2

/-- What the callback should get. -/
def time (r : Reply) (uptimeMs : UInt32) : List UInt8 :=
  if 1000000 ≤ r.half uptimeMs then [] else digits (r.serverSendTime + r.half uptimeMs)

end Reply

/-! ## Decimal digits -/

section Digits

variable {n p q width : Nat} {ds : List UInt8}

theorem digits_mul_ten_add {d : Nat} (hn : 0 < n) (hd : d < 10) :
    digits (10 * n + d) = digits n ++ digits d := by
  rw [digits, ← Nat.toDigits_append_toDigits (by decide) hn hd, List.map_append]
  rfl

theorem digits_inj (h : digits p = digits q) : p = q := by
  have hlead := congrArg leadingNat h
  rw [leadingNat_digits, leadingNat_digits] at hlead
  exact congrArg Prod.snd hlead

theorem length_digits_of_lt_ten (h : n < 10) : (digits n).length = 1 := by
  have hle := length_digits_le (k := 1) (by decide) h
  have hpos := List.length_pos_iff.mpr (digits_ne_nil (n := n))
  omega

theorem padded_succ (width q : Nat) :
    padded (width + 2) q = padded (width + 1) (q / 10) ++ digits (q % 10) := by
  have hlast := length_digits_of_lt_ten (Nat.mod_lt q (show 0 < 10 by decide))
  by_cases hsmall : q < 10
  · have hdiv : q / 10 = 0 := Nat.div_eq_of_lt hsmall
    rw [padded, padded, hdiv, Nat.mod_eq_of_lt hsmall, length_digits_of_lt_ten hsmall]
    show List.replicate (width + 1) 48 ++ digits q = List.replicate width 48 ++ [48] ++ digits q
    rw [List.replicate_succ']
  · have hpos : 0 < q / 10 := Nat.div_pos (Nat.not_lt.mp hsmall) (by decide)
    have happend := digits_mul_ten_add hpos (Nat.mod_lt q (show 0 < 10 by decide))
    rw [Nat.div_add_mod] at happend
    rw [padded, padded, happend, List.length_append, hlast, List.append_assoc]
    congr 2
    omega

theorem lt_of_length_digits (hwidth : 0 < width) (h : (digits n).length ≤ width) :
    n < 10 ^ width := by
  rw [digits, List.length_map] at h
  exact (Nat.length_toDigits_le_iff (by decide) hwidth).mp h

theorem digits_append_padded (width : Nat) (hp : 0 < p) (hq : q < 10 ^ (width + 1)) :
    digits (p * 10 ^ (width + 1) + q) = digits p ++ padded (width + 1) q := by
  induction width generalizing q with
  | zero =>
    have hq : q < 10 := by simpa using hq
    rw [padded, length_digits_of_lt_ten hq, Nat.mul_comm]
    exact digits_mul_ten_add hp hq
  | succ width ih =>
    have hdiv : q / 10 < 10 ^ (width + 1) := by
      rw [Nat.pow_succ] at hq
      omega
    have hsplit : p * 10 ^ (width + 2) + q =
        10 * (p * 10 ^ (width + 1) + q / 10) + q % 10 := by
      have hpow : p * 10 ^ (width + 2) = 10 * (p * 10 ^ (width + 1)) := by
        rw [Nat.pow_succ 10 (width + 1), ← Nat.mul_assoc, Nat.mul_comm]
      omega
    have hfront : 0 < p * 10 ^ (width + 1) + q / 10 :=
      Nat.add_pos_left (Nat.mul_pos hp (Nat.pow_pos (by decide))) _
    rw [hsplit, digits_mul_ten_add hfront (Nat.mod_lt q (by decide)), ih hdiv, padded_succ,
      List.append_assoc]

theorem digits_append_nine (hp : 0 < p) (hq : q < 1000000000) :
    digits (p * 1000000000 + q) = digits p ++ padded 9 q := digits_append_padded 8 hp hq

theorem length_padded (width : Nat) (hq : q < 10 ^ (width + 1)) :
    (padded (width + 1) q).length = width + 1 := by
  have hle := length_digits_le (Nat.succ_pos width) hq
  rw [padded, List.length_append, List.length_replicate]
  omega

theorem isDigit_of_mem_padded {b : UInt8} (h : b ∈ padded width q) : isDigit b = true := by
  rcases List.mem_append.mp h with h | h
  · rw [(List.mem_replicate.mp h).2]
    rfl
  · exact isDigit_of_mem_digits h

theorem leadingNat_of_digits (h : ∀ b ∈ ds, isDigit b = true) :
    (leadingNat ds).2 = ds.foldl (fun n b => 10 * n + (b.toNat - 48)) 0 := by
  have hall : ds.takeWhile isDigit = ds := List.takeWhile_eq_self_iff.mpr h
  simp only [leadingNat, hall]

theorem leadingNat_padded (width q : Nat) : (leadingNat (padded width q)).2 = q := by
  have hzeros : ∀ k, (List.replicate k (48 : UInt8)).foldl
      (fun n b => 10 * n + (b.toNat - 48)) 0 = 0 := by
    intro k
    induction k with
    | zero => rfl
    | succ k ih =>
      rw [List.replicate_succ, List.foldl_cons]
      exact ih
  rw [leadingNat_of_digits fun b => isDigit_of_mem_padded, padded, List.foldl_append, hzeros,
    ← leadingNat_of_digits fun b => isDigit_of_mem_digits, leadingNat_digits]

theorem atoi_padded (width : Nat) (hq : q < 1000000000) : atoi (padded width q) = q := by
  rw [atoi_digits fun b => isDigit_of_mem_padded, leadingNat_padded, saturate,
    if_neg (by unfold intMax; omega), if_neg (by unfold intMin; omega)]

theorem toTx_of_digits (h : ∀ b ∈ ds, isDigit b = true) :
    toTx ds = UInt32.ofNat (leadingNat ds).2 := by
  have hfold : ∀ n : Nat, ds.foldl (fun tx b => tx * 10 + (b.toUInt32 - 48)) (UInt32.ofNat n) =
      UInt32.ofNat (ds.foldl (fun n b => 10 * n + (b.toNat - 48)) n) := by
    induction ds with
    | nil => exact fun n => rfl
    | cons b ds ih =>
      intro n
      obtain ⟨hb, hds⟩ := List.forall_mem_cons.mp h
      obtain ⟨hlo, -⟩ := digit_bounds hb
      rw [List.foldl_cons, List.foldl_cons, ← ih hds]
      congr 1
      apply UInt32.toNat_inj.mp
      rw [UInt32.toNat_add, UInt32.toNat_mul, UInt32.toNat_sub, UInt8.toNat_toUInt32]
      simp only [UInt32.toNat_ofNat']
      show (n % 4294967296 * 10 % 4294967296 + (4294967296 - 48 + b.toNat) % 4294967296) %
        4294967296 = (10 * n + (b.toNat - 48)) % 4294967296
      have hb := b.toNat_lt
      omega
  rw [leadingNat_of_digits h]
  exact hfold 0

theorem toTx_digits (n : Nat) : toTx (digits n) = UInt32.ofNat n := by
  rw [toTx_of_digits fun b => isDigit_of_mem_digits, leadingNat_digits]

end Digits

/-! ## The sum -/

section Sum

variable {front back s : List UInt8} {n : Nat} {diff : UInt32}

/-- A time in its buffer. -/
def filled (s : List UInt8) : CharBuf :=
  s ++ List.replicate (ntpTimeStrMaxLen + 1 - s.length) 0

theorem store_zeros (h : s.length ≤ ntpTimeStrMaxLen) :
    store (CharBuf.zeros (ntpTimeStrMaxLen + 1)) 0 s = .ok (filled s) := by
  have hwrite := CharBuf.write_append [] (CharBuf.zeros (ntpTimeStrMaxLen + 1)) s (by
    rw [CharBuf.length_zeros]
    omega)
  rw [List.nil_append, List.length_nil, List.nil_append] at hwrite
  rw [store, hwrite, CharBuf.zeros, List.drop_replicate]
  rfl

theorem store_filled (front : List UInt8) {data : List UInt8} (hback : back.length ≤ data.length)
    (hdata : front.length + data.length ≤ ntpTimeStrMaxLen) :
    store (filled (front ++ back)) front.length (data ++ [0]) = .ok (filled (front ++ data)) := by
  have hwrite := CharBuf.write_append front
    (back ++ List.replicate (ntpTimeStrMaxLen + 1 - (front ++ back).length) 0) (data ++ [0]) (by
      simp only [List.length_append, List.length_replicate, List.length_singleton]
      omega)
  rw [← List.append_assoc] at hwrite
  rw [store, filled, hwrite, List.drop_append, List.drop_eq_nil_of_le (by simp; omega),
    List.nil_append, List.drop_replicate, filled, List.append_assoc, List.append_assoc,
    List.singleton_append, ← List.replicate_succ]
  simp only [List.length_append, List.length_singleton]
  congr 5
  omega

theorem string_filled (h : s.length ≤ ntpTimeStrMaxLen) (hs : (0 : UInt8) ∉ s) :
    (filled s).string.val = s := by
  have hrest : ntpTimeStrMaxLen + 1 - s.length = ntpTimeStrMaxLen - s.length + 1 := by omega
  rw [filled, hrest, List.replicate_succ]
  exact precision_append_zero hs

theorem text_filled (h : s.length ≤ ntpTimeStrMaxLen) (hs : (0 : UInt8) ∉ s) :
    (filled s).text.map Subtype.val = some s := by
  have hmem : (0 : UInt8) ∈ filled s :=
    List.mem_append_right _ (List.mem_replicate.mpr ⟨by omega, rfl⟩)
  rw [CharBuf.text, if_pos hmem, Option.map_some, string_filled h hs]

theorem store_strncpy (h : s.length ≤ ntpTimeStrMaxLen) (hs : (0 : UInt8) ∉ s) :
    store (CharBuf.zeros (ntpTimeStrMaxLen + 1)) 0
      (strncpy ((filled s).take ntpTimeStrMaxLen)) = .ok (filled s) := by
  have htake : (filled s).take ntpTimeStrMaxLen =
      s ++ List.replicate (ntpTimeStrMaxLen - s.length) 0 := by
    rw [filled, List.take_append, List.take_of_length_le h, List.take_replicate]
    congr 2
    omega
  have hcopy : strncpy ((filled s).take ntpTimeStrMaxLen) =
      s ++ List.replicate (ntpTimeStrMaxLen - s.length) 0 := by
    have hprecision : precision ((filled s).take ntpTimeStrMaxLen) = s := by
      have hrest : ∀ k, precision (List.replicate k 0) = [] := fun k => by
        cases k <;> rfl
      have hall : ∀ b ∈ s, decide (b ≠ 0) = true := fun b hb =>
        decide_eq_true fun h0 => hs (h0 ▸ hb)
      rw [htake, precision, List.takeWhile_append_of_pos hall]
      exact (congrArg (s ++ ·) (hrest _)).trans (List.append_nil s)
    rw [strncpy, hprecision, htake]
    congr 2
    simp
  rw [hcopy, store_zeros (by simp; omega), filled, filled, List.append_assoc,
    List.replicate_append_replicate]
  congr 3
  simp
  omega

theorem zero_not_mem_digits (n : Nat) : (0 : UInt8) ∉ digits n := fun h => by
  have hzero := isDigit_of_mem_digits h
  cases hzero

theorem length_digits_mono {m : Nat} (h : n ≤ m) : (digits n).length ≤ (digits m).length := by
  have hpos := List.length_pos_iff.mpr (digits_ne_nil (n := m))
  exact length_digits_le hpos (Nat.lt_of_le_of_lt h (lt_of_length_digits hpos le_rfl))

theorem toNat_capped {low : Nat} (hlow : low < 1000000000) (hdiff : diff.toNat < 1000000) :
    (if 999999999 < UInt32.ofInt low + diff then 999999999
      else UInt32.ofInt low + diff).toNat = min (low + diff.toNat) 999999999 := by
  have hsum : (UInt32.ofInt low + diff).toNat = low + diff.toNat := by
    have hint : ((low : Int) % 2 ^ 32).toNat = low := by omega
    rw [UInt32.toNat_add, UInt32.ofInt, hint, UInt32.toNat_ofNat']
    omega
  split
  next h =>
    rw [UInt32.lt_iff_toNat_lt, hsum] at h
    exact (Nat.min_eq_right (Nat.le_of_lt h)).symm
  next h =>
    rw [UInt32.lt_iff_toNat_lt, hsum] at h
    rw [hsum]
    exact (Nat.min_eq_left (Nat.not_lt.mp h)).symm

theorem addDiff_filled (hlen : (digits n).length ≤ ntpTimeStrMaxLen)
    (hdiff : diff.toNat < 1000000) :
    addDiff (filled (digits n)) diff =
      .ok (filled (digits (n / 1000000000 * 1000000000 +
        min (n % 1000000000 + diff.toNat) 999999999))) := by
  have hlow := Nat.mod_lt n (show 0 < 1000000000 by decide)
  have hstring := string_filled hlen (zero_not_mem_digits n)
  have hstrlen : (filled (digits n)).string.strlen = (digits n).length :=
    congrArg List.length hstring
  simp only [addDiff, hstring, hstrlen]
  by_cases hsmall : n < 1000000000
  · have hle := length_digits_le (k := 9) (by decide) hsmall
    have hatoi : atoi (digits n) = n := by
      have hpadded := atoi_padded 0 hsmall
      rwa [padded, Nat.zero_sub, List.replicate_zero, List.nil_append] at hpadded
    have hmono : n ≤ min (n + diff.toNat) 999999999 := by omega
    have hnine : (digits (min (n + diff.toNat) 999999999)).length ≤ 9 :=
      length_digits_le (by decide) (Nat.lt_of_le_of_lt (Nat.min_le_right _ _) (by decide))
    rw [if_neg (Nat.not_lt.mpr hle), if_neg (Nat.not_lt.mpr hle), List.drop_zero, hatoi,
      toNat_capped hsmall hdiff, Nat.div_eq_of_lt hsmall, Nat.mod_eq_of_lt hsmall, Nat.zero_mul,
      Nat.zero_add]
    exact store_filled [] (length_digits_mono hmono)
      (by rw [List.length_nil, Nat.zero_add]; exact Nat.le_trans hnine (by decide))
  · have hhigh : 0 < n / 1000000000 := Nat.div_pos (Nat.not_lt.mp hsmall) (by decide)
    have hcap : min (n % 1000000000 + diff.toNat) 999999999 < 10 ^ 9 := by omega
    have hsplit : digits n = digits (n / 1000000000) ++ padded 9 (n % 1000000000) := by
      rw [← digits_append_nine hhigh hlow, Nat.div_add_mod']
    have hlength : (digits n).length = (digits (n / 1000000000)).length + 9 := by
      rw [hsplit, List.length_append, length_padded 8 hlow]
    have hnine : 9 < (digits n).length := by
      have hpos := List.length_pos_iff.mpr (digits_ne_nil (n := n / 1000000000))
      omega
    have hfront : (digits n).length - 9 = (digits (n / 1000000000)).length := by omega
    rw [if_pos hnine, if_pos hnine, hfront, hsplit, List.drop_left, atoi_padded 9 hlow,
      toNat_capped hlow hdiff, digits_append_nine hhigh hcap]
    apply store_filled
    · rw [length_padded 8 hlow, length_padded 8 hcap]
    · rw [length_padded 8 hcap, ← hlength]
      exact hlen

end Sum

/-! ## What the callback gets -/

section Reply

variable (r : Reply) (uptimeMs : UInt32)

theorem timeElem_of_hasNumeral {payload : CStr} {payloadLen n : Nat} {name : CStr}
    (hlen : (digits n).length ≤ ntpTimeStrMaxLen) (h : HasNumeral payload payloadLen name n) :
    timeElem payload payloadLen name = .ok (digits n) := by
  obtain ⟨val, type, hlookup, hslice⟩ := h
  have hpos := List.length_pos_iff.mpr (digits_ne_nil (n := n))
  have hrange : ¬ ((digits n).length = 0 ∨ ntpTimeStrMaxLen < (digits n).length) := by omega
  simp only [timeElem, hlookup, if_neg hrange, hslice]

theorem half_eq : ((uptimeMs - UInt32.ofNat r.deviceSendTime) >>> 1).toNat = r.half uptimeMs := by
  rw [UInt32.toNat_shiftRight, UInt32.toNat_sub, UInt32.toNat_ofNat', Reply.half]
  show ((4294967296 - r.deviceSendTime % 4294967296 + uptimeMs.toNat) % 4294967296) >>> 1 = _
  rw [Nat.shiftRight_eq_div_pow]
  have hlt := uptimeMs.toNat_lt
  omega

theorem payloadLen_ne_zero : r.payloadLen ≠ 0 := by
  intro h
  obtain ⟨val, type, hlookup, -⟩ := r.send_found
  rw [h] at hlookup
  have hnone : jsonGetObject 123 0 0 r.payload.val = none := by
    cases r.payload.val with
    | nil => rfl
    | cons b s => rfl
  rw [jsonGetValueByName, hnone] at hlookup
  cases hlookup

/-- The sum as the function makes it. -/
def cutTime : Nat :=
  r.serverSendTime / 1000000000 * 1000000000 +
    min (r.serverSendTime % 1000000000 + r.half uptimeMs) 999999999

theorem length_cutTime : (digits (cutTime r uptimeMs)).length ≤ ntpTimeStrMaxLen := by
  have hlt := lt_of_length_digits (by decide) r.send_le
  apply length_digits_le (by decide)
  change r.serverSendTime < 100000000000000000000 at hlt
  show cutTime r uptimeMs < 100000000000000000000
  unfold cutTime
  omega

theorem linkkitNtpTimeReply_eq (gNtpTime : CharBuf) :
    linkkitNtpTimeReply gNtpTime r.msg uptimeMs =
      some (filled (if 1000000 ≤ r.half uptimeMs then [] else digits (cutTime r uptimeMs))) := by
  have hsend := timeElem_of_hasNumeral r.send_le r.send_found
  have hrecv := timeElem_of_hasNumeral r.recv_le r.recv_found
  have hdevice := timeElem_of_hasNumeral r.device_le r.device_found
  have hdiff : (1000000 : UInt32) ≤ (uptimeMs - UInt32.ofNat r.deviceSendTime) >>> 1 ↔
      1000000 ≤ r.half uptimeMs := by
    rw [UInt32.le_iff_toNat_le, half_eq]
    rfl
  simp only [linkkitNtpTimeReply, Reply.msg, if_true, if_neg (payloadLen_ne_zero r), ntpTime, hsend,
    hrecv, hdevice, store_zeros r.send_le, store_zeros r.recv_le, toTx_digits, hdiff, bind,
    Except.bind]
  by_cases hhalf : 1000000 ≤ r.half uptimeMs
  · simp only [if_pos hhalf]
    rfl
  · have hlt : ((uptimeMs - UInt32.ofNat r.deviceSendTime) >>> 1).toNat < 1000000 := by
      rw [half_eq]
      omega
    simp only [if_neg hhalf, addDiff_filled r.send_le hlt, half_eq]
    rw [← cutTime, store_strncpy (length_cutTime r uptimeMs) (zero_not_mem_digits _)]

end Reply

/-- The callback gets the time, and no write leaves a buffer. -/
def TimeLaw (r : Reply) (gNtpTime : CharBuf) (uptimeMs : UInt32) : Prop :=
  ∃ time, linkkitNtpTimeReply gNtpTime r.msg uptimeMs = some time ∧
    time.text.map Subtype.val = some (r.time uptimeMs)

/-- The callback gets the time where there is none to get, or the sum stays within the last nine
digits. -/
theorem reply_iff (r : Reply) (gNtpTime : CharBuf) (uptimeMs : UInt32) :
    TimeLaw r gNtpTime uptimeMs ↔
      1000000 ≤ r.half uptimeMs ∨
        r.serverSendTime % 1000000000 + r.half uptimeMs < 1000000000 := by
  rw [TimeLaw, linkkitNtpTimeReply_eq, Reply.time]
  simp only [Option.some.injEq, exists_eq_left']
  by_cases hhalf : 1000000 ≤ r.half uptimeMs
  · simp only [if_pos hhalf]
    exact iff_of_true (text_filled (Nat.zero_le _) List.not_mem_nil) (.inl hhalf)
  · simp only [if_neg hhalf, text_filled (length_cutTime r uptimeMs) (zero_not_mem_digits _),
      Option.some.injEq, or_iff_right hhalf]
    constructor
    · intro h
      have hsum := digits_inj h
      unfold cutTime at hsum
      omega
    · intro h
      congr 1
      unfold cutTime
      omega

/-- `{"deviceSendTime":"0","serverRecvTime":"1","serverSendTime":"1999999999"}`. -/
def carrying : Reply where
  payload := CStr.ofString
    "\x7b\"deviceSendTime\":\"0\",\"serverRecvTime\":\"1\",\"serverSendTime\":\"1999999999\"\x7d"
    (by decide)
  payloadLen := 74
  deviceSendTime := 0
  serverRecvTime := 1
  serverSendTime := 1999999999
  device_le := by decide
  recv_le := by decide
  send_le := by decide
  device_found := ⟨19, .string, by decide, by decide⟩
  recv_found := ⟨40, .string, by decide, by decide⟩
  send_found := ⟨61, .string, by decide, by decide⟩

/-- Two milliseconds after the start the callback gets the server's time, without the half. -/
theorem carry_lost : ¬ TimeLaw carrying (CharBuf.zeros 21) 2 := by
  rintro ⟨time, htime, htext⟩
  have hhalf : ¬ 1000000 ≤ carrying.half 2 := by decide
  rw [linkkitNtpTimeReply_eq, if_neg hhalf, Option.some.injEq] at htime
  rw [← htime, text_filled (length_cutTime carrying 2) (zero_not_mem_digits _), Reply.time,
    if_neg hhalf, Option.some.injEq] at htext
  have hsame : cutTime carrying 2 = 2000000000 := digits_inj htext
  exact absurd hsame (by decide)

end AliyunIot.Dm.NtpTime
