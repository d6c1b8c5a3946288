import Mathlib.Algebra.GroupWithZero.Nat
import AliyunIot.Coap.Message

/-!
# CoAP serializer

`CoAPSerialize_common.c`. A writer that stores byte after byte is the list of
those bytes; the options are stored at `&buf[count]`, where `count` is an
`unsigned short` that may wrap, so there and in `CoAPSerialize_Message` the
buffer is carried along as an image of what has been stored. `none` is a read
through a `NULL` option value. `wire` is the complete datagram of a message and
`serialize_wire` what the writer does when nothing wraps.
-/

namespace AliyunIot.Coap

open Lib

/-- What has been stored into a buffer, `none` where nothing was. -/
abbrev Image := Nat → Option UInt8

def Image.store (img : Image) (off : Nat) (bs : List UInt8) : Image :=
  ((Cursor.mk img off).puts bs).mem

def coapSerializeHeader (msg : OutMessage) (buflen : UInt16) : List UInt8 :=
  if 4 > buflen then []
  else
    [(((msg.header.version &&& 0x3) <<< 6) ||| ((msg.header.type &&& 0x3) <<< 4)) |||
        (msg.header.tokenlen &&& 0x0F),
      msg.header.code,
      ((msg.header.msgid &&& 0xFF00) >>> 8).toUInt8,
      (msg.header.msgid &&& 0x00FF).toUInt8]

def coapSerializeToken (msg : OutMessage) (buflen : UInt16) : List UInt8 :=
  if buflen < msg.header.tokenlen.toUInt16 then [] else msg.token

/-- The nibble for a delta or a length, and the bytes of its extension. -/
def optNibble (n : UInt16) : UInt8 :=
  if 269 ≤ n then 14 else if 13 ≤ n then 13 else n.toUInt8

def optExt (n : UInt16) : List UInt8 :=
  if 269 ≤ n then [(((n - 269) &&& 0xFF00) >>> 8).toUInt8, ((n - 269) &&& 0x00FF).toUInt8]
  else if 13 ≤ n then [(n - 13).toUInt8]
  else []

/-- What an option stores before its value. -/
def optHeadBytes (num len : UInt16) : List UInt8 :=
  ((optNibble num <<< 4) ||| (optNibble len &&& 0x0F)) :: (optExt num ++ optExt len)

/-- The bytes of `memcpy(ptr, option->val, option->len)`. -/
def OutOption.value (option : OutOption) : Option (List UInt8) :=
  match option.val with
  | some bs => some bs
  | none => if option.len = 0 then some [] else none

/-- `CoAPSerialize_Option`: the bytes stored; it returns their number. -/
def coapSerializeOption (option : OutOption) : Option (List UInt8) :=
  option.value.map fun val => optHeadBytes option.num option.len ++ val

/-- The loop of `CoAPSerialize_Options` at `count`: the image and the count. -/
def coapSerializeOptionsFrom (buf : Nat) :
    List OutOption → Image → UInt16 → Option (Image × UInt16)
  | [], img, count => some (img, count)
  | option :: options, img, count => do
    let bytes ← coapSerializeOption option
    let img := img.store (buf + count.toNat) bytes
    let len := UInt16.ofNat bytes.length
    if 0 < len then coapSerializeOptionsFrom buf options img (count + len)
    else return (img, 0)

/-- `CoAPSerialize_Options` into the buffer at `buf`. -/
def coapSerializeOptions (msg : OutMessage) (img : Image) (buf : Nat) : Option (Image × UInt16) :=
  coapSerializeOptionsFrom buf msg.options img 0

def coapSerializeOptionLen (option : OutOption) : UInt16 :=
  let len : UInt16 := 1
  let len := if 269 ≤ option.num then len + 2 else if 13 ≤ option.num then len + 1 else len
  let len := if 269 ≤ option.len then len + 2 else if 13 ≤ option.len then len + 1 else len
  len + option.len

/-- The loop of `CoAPSerialize_OptionsLen` at `count`. -/
def coapSerializeOptionsLenFrom : List OutOption → UInt16 → UInt16
  | [], count => count
  | option :: options, count =>
    let len := coapSerializeOptionLen option
    if 0 < len then coapSerializeOptionsLenFrom options (count + len) else 0

def coapSerializeOptionsLen (msg : OutMessage) : UInt16 :=
  coapSerializeOptionsLenFrom msg.options 0

/-- `CoAPSerialize_Payload`; `buflen` and the sum are `int`. -/
def coapSerializePayload (msg : OutMessage) (buflen : Nat) : List UInt8 :=
  if msg.payloadlen.toNat + 1 > buflen then []
  else if msg.payloadlen > 0 then 0xFF :: msg.payload.1
  else []

def coapSerializeMessageLength (msg : OutMessage) : UInt16 :=
  let msglen := 4 + msg.header.tokenlen.toUInt16 + coapSerializeOptionsLen msg
  if 0 < msg.payloadlen then msglen + msg.payloadlen + 1 else msglen

/-- `CoAPSerialize_Message` into a buffer at `0`: the result and what was stored.
`remlen` and `count` are `unsigned short`. -/
def coapSerializeMessage (msg : OutMessage) (buflen : UInt16) : Option (Int × Image) := do
  let header := coapSerializeHeader msg buflen
  let img := Image.store (fun _ => none) 0 header
  let count := UInt16.ofNat header.length
  let ptr := count.toNat
  let remlen := buflen - count
  let token := coapSerializeToken msg remlen
  let img := img.store ptr token
  let count := UInt16.ofNat token.length
  let ptr := ptr + count.toNat
  let remlen := remlen - count
  let (img, count) ← coapSerializeOptions msg img ptr
  let ptr := ptr + count.toNat
  let remlen := remlen - count
  let payload := coapSerializePayload msg remlen.toNat
  let img := img.store ptr payload
  let count := UInt16.ofNat payload.length
  let remlen := remlen - count
  return ((buflen.toNat : Int) - remlen.toNat, img)

/-! ## Lengths -/

/-- The bytes an option takes, as an exact number. -/
def OutOption.length (o : OutOption) : Nat :=
  1 + (optExt o.num).length + (optExt o.len).length + o.len.toNat

def optionsLength (os : List OutOption) : Nat := (os.map OutOption.length).sum

/-- The bytes of a complete datagram. -/
def wireLength (msg : OutMessage) : Nat :=
  4 + msg.token.length + optionsLength msg.options +
    (if msg.payload.1 = [] then 0 else msg.payload.1.length + 1)

@[simp] theorem optionsLength_nil : optionsLength [] = 0 := rfl

@[simp] theorem optionsLength_cons (o : OutOption) (os : List OutOption) :
    optionsLength (o :: os) = o.length + optionsLength os := by
  simp only [optionsLength, List.map_cons, List.sum_cons]

theorem length_optExt_le (n : UInt16) : (optExt n).length ≤ 2 := by
  unfold optExt
  repeat' split
  all_goals simp

theorem OutOption.length_pos (o : OutOption) : 0 < o.length := by
  unfold OutOption.length
  omega

theorem optionLen_toNat (o : OutOption) : (coapSerializeOptionLen o).toNat = o.length % 65536 := by
  unfold coapSerializeOptionLen OutOption.length optExt
  repeat' split
  all_goals simp [UInt16.toNat_add]

theorem optionsLenFrom_toNat {os : List OutOption} {count : UInt16}
    (h : count.toNat + optionsLength os < 65536) :
    (coapSerializeOptionsLenFrom os count).toNat = count.toNat + optionsLength os := by
  induction os generalizing count with
  | nil => rfl
  | cons o os ih =>
    rw [optionsLength_cons] at h ⊢
    have hpos := o.length_pos
    have hlen : (coapSerializeOptionLen o).toNat = o.length := by
      rw [optionLen_toNat, Nat.mod_eq_of_lt (by omega)]
    have h0 : 0 < coapSerializeOptionLen o := by
      rw [UInt16.lt_iff_toNat_lt, hlen]
      exact hpos
    have hsum : (count + coapSerializeOptionLen o).toNat = count.toNat + o.length := by
      rw [UInt16.toNat_add, hlen, Nat.mod_eq_of_lt (by omega)]
    rw [coapSerializeOptionsLenFrom, if_pos h0, ih (by omega), hsum]
    omega

theorem tokenlen_toNat (msg : OutMessage) :
    msg.header.tokenlen.toUInt16.toNat = msg.token.length := by
  rw [UInt8.toNat_toUInt16, msg.tokenlen_eq]

theorem payloadlen_pos_iff (msg : OutMessage) : 0 < msg.payloadlen ↔ msg.payload.1 ≠ [] := by
  rw [UInt16.lt_iff_toNat_lt, msg.toNat_payloadlen]
  exact List.length_pos_iff

theorem messageLength_toNat {msg : OutMessage} (h : wireLength msg < 65536) :
    (coapSerializeMessageLength msg).toNat = wireLength msg := by
  have htok := tokenlen_toNat msg
  have hpay := msg.toNat_payloadlen
  unfold wireLength at h ⊢
  have hopt : (coapSerializeOptionsLen msg).toNat = optionsLength msg.options := by
    rw [coapSerializeOptionsLen, optionsLenFrom_toNat]
    · exact Nat.zero_add _
    · show 0 + _ < _
      omega
  by_cases hp : msg.payload.1 = []
  · have hnot : ¬ 0 < msg.payloadlen := fun h0 => (payloadlen_pos_iff msg).mp h0 hp
    rw [if_pos hp] at h ⊢
    simp only [coapSerializeMessageLength, if_neg hnot, UInt16.toNat_add, htok, hopt]
    rw [show (4 : UInt16).toNat = 4 from rfl]
    omega
  · have hpos : 0 < msg.payloadlen := (payloadlen_pos_iff msg).mpr hp
    rw [if_neg hp] at h ⊢
    simp only [coapSerializeMessageLength, if_pos hpos, UInt16.toNat_add, htok, hopt, hpay]
    rw [show (4 : UInt16).toNat = 4 from rfl, show (1 : UInt16).toNat = 1 from rfl]
    omega

/-! ## What is stored -/

/-- The option can be read: no `NULL` value with a length. -/
def OutOption.Readable (o : OutOption) : Prop := o.val = none → o.len = 0

instance (o : OutOption) : Decidable o.Readable := by
  unfold OutOption.Readable
  infer_instance

def OutMessage.Readable (msg : OutMessage) : Prop := ∀ o ∈ msg.options, o.Readable

def OutOption.bytes (o : OutOption) : List UInt8 := optHeadBytes o.num o.len ++ o.val.getD []

def wire (msg : OutMessage) : List UInt8 :=
  coapSerializeHeader msg 4 ++ msg.token ++ msg.options.flatMap OutOption.bytes ++
    (if msg.payload.1 = [] then [] else 0xFF :: msg.payload.1)

theorem Image.store_nil (img : Image) (off : Nat) : img.store off [] = img := rfl

theorem Image.store_store (img : Image) (off : Nat) (as bs : List UInt8) :
    (img.store off as).store (off + as.length) bs = img.store off (as ++ bs) := by
  unfold Image.store
  rw [← Cursor.puts_append]
  congr 2
  rw [← Cursor.puts_ptr ⟨img, off⟩ as]

theorem Image.store_start (bs : List UInt8) : Image.store (fun _ => none) 0 bs = fun i => bs[i]? :=
  funext fun i => Cursor.start_puts_mem bs i

theorem serializeOption_of_readable {o : OutOption} (h : o.Readable) :
    coapSerializeOption o = some o.bytes := by
  unfold coapSerializeOption OutOption.value OutOption.bytes
  cases hv : o.val with
  | some bs => rfl
  | none =>
    rw [if_pos (h hv)]
    rfl

theorem serializeOption_of_not_readable {o : OutOption} (h : ¬ o.Readable) :
    coapSerializeOption o = none := by
  unfold OutOption.Readable at h
  obtain ⟨hv, hl⟩ := Classical.not_imp.mp h
  unfold coapSerializeOption OutOption.value
  rw [hv]
  simp only [if_neg hl, Option.map_none]

theorem OutOption.Readable.length_bytes {o : OutOption} (h : o.Readable) :
    o.bytes.length = o.length := by
  unfold OutOption.bytes OutOption.length optHeadBytes
  rw [List.length_append, List.length_cons, List.length_append]
  cases hv : o.val with
  | some bs =>
    rw [Option.getD_some, o.held bs hv]
    omega
  | none =>
    rw [h hv, Option.getD_none]
    show _ + 0 = _ + 0
    omega

theorem length_flatMap_bytes {os : List OutOption} (h : ∀ o ∈ os, o.Readable) :
    (os.flatMap OutOption.bytes).length = optionsLength os := by
  induction os with
  | nil => rfl
  | cons o os ih =>
    rw [List.flatMap_cons, List.length_append, optionsLength_cons,
      (h o List.mem_cons_self).length_bytes, ih fun x hx => h x (List.mem_cons_of_mem _ hx)]

theorem length_wire {msg : OutMessage} (h : msg.Readable) : (wire msg).length = wireLength msg := by
  unfold wire wireLength
  rw [List.length_append, List.length_append, List.length_append, length_flatMap_bytes h]
  have h4 : (coapSerializeHeader msg 4).length = 4 := rfl
  rw [h4]
  split <;> rfl

theorem serializeOptionsFrom_cons {o : OutOption} (ho : o.Readable) (count : UInt16)
    (h : count.toNat + o.length < 65536) :
    ∃ count' : UInt16, count'.toNat = count.toNat + o.length ∧
      ∀ (buf : Nat) (os : List OutOption) (img : Image),
        coapSerializeOptionsFrom buf (o :: os) img count =
          coapSerializeOptionsFrom buf os (img.store (buf + count.toNat) o.bytes) count' := by
  have hpos := o.length_pos
  have hu : (UInt16.ofNat o.bytes.length).toNat = o.length := by
    rw [ho.length_bytes]
    exact UInt16.toNat_ofNat_of_lt' (by rw [UInt16.size]; omega)
  have h0 : 0 < UInt16.ofNat o.bytes.length := by
    rw [UInt16.lt_iff_toNat_lt, hu]
    exact hpos
  refine ⟨count + UInt16.ofNat o.bytes.length, ?_, fun buf os img => ?_⟩
  · rw [UInt16.toNat_add, hu, Nat.mod_eq_of_lt h]
  · rw [coapSerializeOptionsFrom, serializeOption_of_readable ho]
    show (if _ then _ else _) = _
    rw [if_pos h0]

theorem serializeOptionsFrom_of_readable {os : List OutOption} (hr : ∀ o ∈ os, o.Readable)
    (img : Image) (buf : Nat) (count : UInt16) (h : count.toNat + optionsLength os < 65536) :
    ∃ count', coapSerializeOptionsFrom buf os img count =
        some (img.store (buf + count.toNat) (os.flatMap OutOption.bytes), count') ∧
      count'.toNat = count.toNat + optionsLength os := by
  induction os generalizing img count with
  | nil => exact ⟨count, rfl, rfl⟩
  | cons o os ih =>
    have ho := hr o List.mem_cons_self
    rw [optionsLength_cons] at h ⊢
    obtain ⟨next, hnext, hcons⟩ := serializeOptionsFrom_cons ho count (by omega)
    obtain ⟨count', hrun, hcount⟩ := ih (fun x hx => hr x (List.mem_cons_of_mem _ hx))
      (img.store (buf + count.toNat) o.bytes) next (by omega)
    refine ⟨count', ?_, by omega⟩
    rw [hcons, hrun, hnext, List.flatMap_cons, ← Image.store_store, ho.length_bytes, Nat.add_assoc]

theorem serializeOptionsFrom_of_not_readable {os : List OutOption}
    (hr : ¬ ∀ o ∈ os, o.Readable) {img : Image} {buf : Nat} (count : UInt16)
    (h : count.toNat + optionsLength os < 65536) :
    coapSerializeOptionsFrom buf os img count = none := by
  induction os generalizing img count with
  | nil => exact absurd (fun o ho => absurd ho List.not_mem_nil) hr
  | cons o os ih =>
    rw [optionsLength_cons] at h
    by_cases ho : o.Readable
    · obtain ⟨next, hnext, hcons⟩ := serializeOptionsFrom_cons ho count (by omega)
      rw [hcons]
      refine ih (fun hall => hr fun x hx => ?_) _ (by omega)
      rcases List.mem_cons.mp hx with rfl | hx
      · exact ho
      · exact hall x hx
    · rw [coapSerializeOptionsFrom, serializeOption_of_not_readable ho]
      rfl

section
variable {msg : OutMessage} {buflen : UInt16}

theorem serializeHeader_of_le (h : 4 ≤ buflen.toNat) :
    coapSerializeHeader msg buflen = coapSerializeHeader msg 4 := by
  have h4 : ¬ 4 > buflen := by
    rw [gt_iff_lt, UInt16.lt_iff_toNat_lt]
    exact Nat.not_lt_of_le h
  unfold coapSerializeHeader
  rw [if_neg h4, if_neg (by decide)]

theorem serializeToken_of_le (h : msg.token.length ≤ buflen.toNat) :
    coapSerializeToken msg buflen = msg.token := by
  apply if_neg
  rw [UInt16.lt_iff_toNat_lt, tokenlen_toNat]
  exact Nat.not_lt_of_le h

variable (msg buflen) in
theorem serializePayload_of_lt (h : msg.payload.1 ≠ [] → msg.payload.1.length < buflen.toNat) :
    coapSerializePayload msg buflen.toNat =
      if msg.payload.1 = [] then [] else 0xFF :: msg.payload.1 := by
  unfold coapSerializePayload
  rw [msg.toNat_payloadlen]
  by_cases hp : msg.payload.1 = []
  · rw [if_pos hp, if_neg (fun h0 => (payloadlen_pos_iff msg).mp h0 hp)]
    split <;> rfl
  · have := h hp
    rw [if_neg hp, if_neg (by omega), if_pos ((payloadlen_pos_iff msg).mpr hp)]

variable (buflen) in
theorem toNat_remlen_sub (k : Nat) (h : k ≤ buflen.toNat) :
    (UInt16.ofNat k).toNat = k ∧ (buflen - UInt16.ofNat k).toNat = buflen.toNat - k := by
  have hlt := buflen.toNat_lt
  have hk : (UInt16.ofNat k).toNat = k := UInt16.toNat_ofNat_of_lt' (by rw [UInt16.size]; omega)
  refine ⟨hk, ?_⟩
  rw [UInt16.toNat_sub_of_le _ _ (UInt16.le_iff_toNat_le.mpr (by rw [hk]; exact h)), hk]

theorem serialize_wire (hr : msg.Readable) (h : wireLength msg ≤ buflen.toNat) :
    coapSerializeMessage msg buflen = some ((wireLength msg : Int), fun i => (wire msg)[i]?) := by
  have hlt := buflen.toNat_lt
  have hlen : (wire msg).length = wireLength msg := length_wire hr
  unfold wireLength at h
  have hhead : coapSerializeHeader msg buflen = coapSerializeHeader msg 4 :=
    serializeHeader_of_le (by omega)
  have hhead4 : (coapSerializeHeader msg 4).length = 4 := rfl
  obtain ⟨hc1, hrem1⟩ := toNat_remlen_sub buflen 4 (by omega)
  have htok : coapSerializeToken msg (buflen - UInt16.ofNat 4) = msg.token :=
    serializeToken_of_le (by omega)
  obtain ⟨hc2, hrem2⟩ := toNat_remlen_sub (buflen - UInt16.ofNat 4) msg.token.length
    (by omega)
  obtain ⟨count, hrun, hcount⟩ := serializeOptionsFrom_of_readable hr
    (Image.store (fun _ => none) 0 (coapSerializeHeader msg 4 ++ msg.token))
    (4 + msg.token.length) 0 (by show 0 + _ < _; omega)
  have hzero : (0 : UInt16).toNat = 0 := rfl
  rw [hzero, Nat.zero_add] at hcount
  rw [hzero, Nat.add_zero] at hrun
  have hle : count ≤ buflen - UInt16.ofNat 4 - UInt16.ofNat msg.token.length := by
    rw [UInt16.le_iff_toNat_le]
    omega
  have hrem3 := UInt16.toNat_sub_of_le _ _ hle
  have hpay := serializePayload_of_lt msg
    (buflen - UInt16.ofNat 4 - UInt16.ofNat msg.token.length - count) fun hp => by
      rw [if_neg hp] at h
      omega
  have h1 : (Image.store (fun _ => none) 0 (coapSerializeHeader msg 4)).store 4 msg.token =
      Image.store (fun _ => none) 0 (coapSerializeHeader msg 4 ++ msg.token) :=
    Image.store_store _ 0 _ _
  have h2 := Image.store_store (fun _ => none) 0 (coapSerializeHeader msg 4 ++ msg.token)
    (msg.options.flatMap OutOption.bytes)
  have h3 := Image.store_store (fun _ => none) 0 (coapSerializeHeader msg 4 ++ msg.token ++
    msg.options.flatMap OutOption.bytes) (if msg.payload.1 = [] then [] else 0xFF :: msg.payload.1)
  rw [List.length_append, hhead4, Nat.zero_add] at h2
  rw [List.length_append, List.length_append, hhead4, length_flatMap_bytes hr, Nat.zero_add] at h3
  unfold coapSerializeMessage coapSerializeOptions
  simp only [hhead, hhead4, hc1, htok, hc2, h1, hrun, hpay, Option.bind_eq_bind, Option.bind_some,
    hcount, h2, h3]
  refine congrArg some (Prod.ext ?_ (Image.store_start (wire msg)))
  generalize hp : (if msg.payload.1 = [] then [] else 0xFF :: msg.payload.1) = payload at hpay h ⊢
  have hplen : payload.length = if msg.payload.1 = [] then 0 else msg.payload.1.length + 1 := by
    rw [← hp]
    split <;> rfl
  obtain ⟨-, hrem4⟩ := toNat_remlen_sub
    (buflen - UInt16.ofNat 4 - UInt16.ofNat msg.token.length - count) payload.length (by omega)
  rw [hrem4]
  unfold wireLength
  omega

theorem serialize_of_not_readable (hr : ¬ msg.Readable) (h : optionsLength msg.options < 65536) :
    coapSerializeMessage msg buflen = none := by
  unfold coapSerializeMessage coapSerializeOptions
  simp only [serializeOptionsFrom_of_not_readable hr 0 (by show 0 + _ < _; omega)]
  rfl

end

end AliyunIot.Coap
