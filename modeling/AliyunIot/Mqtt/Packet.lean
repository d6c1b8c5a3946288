import AliyunIot.Infra.CStr
import AliyunIot.Infra.State
import AliyunIot.Lib.Bytes
import AliyunIot.Lib.Varint

/-!
# MQTT packet primitives

`MQTTPacket.c` and the macros of `MQTTPacket.h`: header bits, the
remaining-length field, 16-bit integers and the two kinds of `MQTTString`.
Writers act on a `Cursor`, readers on a `Mem` and an offset.

`MqttPacket` is one framed packet: header byte, remaining-length field and a
body of exactly the length the field stands for. `mqttPacketEncode_eq` and
`mqttPacketDecodeBuf_field` tie the two length loops to `Lib.Varint`.
-/

namespace AliyunIot.Mqtt

open Lib

/-! ## Header byte -/

/-- `enum msgTypes`. -/
inductive MsgType where
  | mqttCptReserved | connect | connack | publish | puback | pubrec | pubrel | pubcomp
  | subscribe | suback | unsubscribe | unsuback | pingreq | pingresp | disconnect
  deriving DecidableEq

def MsgType.code : MsgType → UInt8
  | .mqttCptReserved => 0 | .connect => 1 | .connack => 2 | .publish => 3 | .puback => 4
  | .pubrec => 5 | .pubrel => 6 | .pubcomp => 7 | .subscribe => 8 | .suback => 9
  | .unsubscribe => 10 | .unsuback => 11 | .pingreq => 12 | .pingresp => 13 | .disconnect => 14

def mqttHeaderGetType (head : UInt8) : UInt8 := (head &&& 0xF0) >>> 4
def mqttHeaderGetDup (head : UInt8) : UInt8 := (head &&& 0x08) >>> 3
def mqttHeaderGetQos (head : UInt8) : UInt8 := (head &&& 0x06) >>> 1
def mqttHeaderGetRetain (head : UInt8) : UInt8 := head &&& 0x01

def mqttHeaderSetType (head : UInt8) (type : MsgType) : UInt8 :=
  head ||| ((type.code <<< 4) &&& 0xF0)
def mqttHeaderSetDup (head dup : UInt8) : UInt8 := head ||| ((dup <<< 3) &&& 0x08)
def mqttHeaderSetQos (head qos : UInt8) : UInt8 := head ||| ((qos <<< 1) &&& 0x06)
def mqttHeaderSetRetain (head retain : UInt8) : UInt8 := head ||| (retain &&& 0x01)

/-! ## Remaining length -/

/-- `MQTTPacket_encode`: the bytes it stores at `buf[0..rc)`. -/
def mqttPacketEncode (length : Nat) : List UInt8 :=
  let d := UInt8.ofNat (length % 128)
  if 0 < length / 128 then (d ||| 0x80) :: mqttPacketEncode (length / 128) else [d]
termination_by length
decreasing_by omega

/-- `MQTTPacket_decode` from its `n`-th last length byte on: the bytes counted
and the value. A fifth length byte is counted but not read. -/
def mqttPacketDecodeLoop (getchar : Nat → UInt8) : Nat → Nat → Nat → Nat → Nat × Nat
  | 0, len, value, _ => (len + 1, value)
  | n + 1, len, value, multiplier =>
    let c := getchar len
    let value := value + (c &&& 127).toNat * multiplier
    if c &&& 128 ≠ 0 then mqttPacketDecodeLoop getchar n (len + 1) value (multiplier * 128)
    else (len + 1, value)

abbrev maxNoOfRemainingLengthBytes : Nat := 4

def mqttPacketDecodeBuf (buf : Mem) (pos : Nat) : Nat × Nat :=
  mqttPacketDecodeLoop (fun i => buf (pos + i)) maxNoOfRemainingLengthBytes 0 0 1

def mqttPacketLen (remLen : Nat) : Nat :=
  let remLen := remLen + 1
  if remLen < 128 then remLen + 1
  else if remLen < 16384 then remLen + 2
  else if remLen < 2097151 then remLen + 3
  else remLen + 4

variable {n : Nat}

theorem or_top_bit (h : n < 128) : UInt8.ofNat n ||| 0x80 = UInt8.ofNat (n + 128) := by
  have := (by decide : ∀ i : Fin 128, UInt8.ofNat i ||| 0x80 = UInt8.ofNat (i + 128))
  exact this ⟨n, h⟩

theorem low_bits (c : UInt8) : (c &&& 127).toNat = c.toNat % 128 := by
  rw [UInt8.toNat_and]
  exact Nat.and_two_pow_sub_one_eq_mod c.toNat 7

theorem top_bit_ne_zero (c : UInt8) : c &&& 128 ≠ 0 ↔ 128 ≤ c.toNat := by
  have := (by decide +kernel : ∀ i : Fin 256, UInt8.ofNat i &&& 128 ≠ 0 ↔ 128 ≤ i.val)
  have h := this ⟨c.toNat, c.toNat_lt⟩
  simpa using h

theorem mqttPacketEncode_eq (length : Nat) : mqttPacketEncode length = Varint.encode length := by
  induction length using Nat.strongRecOn with
  | ind n ih =>
    rw [mqttPacketEncode]
    by_cases h : n < 128
    · rw [Varint.encode_of_lt h, if_neg (by omega), Nat.mod_eq_of_lt h]
    · rw [Varint.encode_of_ge (by omega)]
      rw [if_pos (by omega), ih (n / 128) (by omega), or_top_bit (by omega)]

theorem mqttPacketDecodeLoop_field {getchar : Nat → UInt8} {bs : List UInt8}
    (hf : Varint.IsField bs) : ∀ {n len value multiplier : Nat}, bs.length ≤ n →
      Holds getchar len bs →
      mqttPacketDecodeLoop getchar n len value multiplier =
        (len + bs.length, value + multiplier * Varint.value bs) := by
  induction bs with
  | nil => exact hf.elim
  | cons b bs ih =>
    intro n len value multiplier hn hh
    obtain ⟨hb, hh⟩ := holds_cons.mp hh
    obtain ⟨n, rfl⟩ : ∃ m, n = m + 1 := ⟨n - 1, by simp only [List.length_cons] at hn; omega⟩
    rw [mqttPacketDecodeLoop]
    simp only [hb, low_bits, top_bit_ne_zero]
    by_cases hbs : bs = []
    · subst hbs
      have hlt : b.toNat < 128 := hf
      rw [if_neg (by omega)]
      simp [Varint.value, Nat.mul_comm]
    · obtain ⟨hge, hf⟩ := (Varint.isField_cons hbs).mp hf
      rw [if_pos hge, ih hf (by simp only [List.length_cons] at hn; omega) hh, List.length_cons,
        Varint.value]
      congr 1
      · omega
      · rw [Nat.mul_add, Nat.mul_comm (b.toNat % 128), Nat.mul_assoc]; omega

variable {buf : Mem}

theorem mqttPacketDecodeBuf_field {pos : Nat} {bs : List UInt8}
    (hf : Varint.IsField bs) (hlen : bs.length ≤ maxNoOfRemainingLengthBytes)
    (hh : Holds buf pos bs) : mqttPacketDecodeBuf buf pos = (bs.length, Varint.value bs) := by
  have hh' : Holds (fun i => buf (pos + i)) 0 bs := by
    intro i b h
    have := hh i b h
    simpa using this
  rw [mqttPacketDecodeBuf, mqttPacketDecodeLoop_field hf hlen hh']
  simp

abbrev maxRemainingLength : Nat := 268435455

theorem length_mqttPacketEncode_le (h : n ≤ maxRemainingLength) :
    (mqttPacketEncode n).length ≤ maxNoOfRemainingLengthBytes := by
  rw [mqttPacketEncode_eq]
  exact Varint.length_encode_le 3 n (show n < 128 ^ 4 by unfold maxRemainingLength at h; omega)

theorem mqttPacketDecodeBuf_encode {pos : Nat} (h : n ≤ maxRemainingLength)
    (hh : Holds buf pos (mqttPacketEncode n)) :
    mqttPacketDecodeBuf buf pos = ((mqttPacketEncode n).length, n) := by
  have hlen := length_mqttPacketEncode_le h
  rw [mqttPacketEncode_eq] at hh hlen ⊢
  rw [mqttPacketDecodeBuf_field (Varint.isField_encode n) hlen hh, Varint.value_encode]

theorem le_mqttPacketLen (h : n ≤ maxRemainingLength) :
    1 + (mqttPacketEncode n).length + n ≤ mqttPacketLen n := by
  have hn : n < 128 ^ 4 := by unfold maxRemainingLength at h; omega
  rw [mqttPacketEncode_eq, Varint.length_encode hn]
  simp only [mqttPacketLen]
  (repeat' split) <;> omega

/-! ## Integers and strings -/

/-- `readInt(&ptr)`; the caller moves `ptr` by two. -/
def readInt (buf : Mem) (ptr : Nat) : Nat := 256 * (buf ptr).toNat + (buf (ptr + 1)).toNat

def writeInt (c : Cursor) (anInt : Nat) : Cursor :=
  (c.put (UInt8.ofNat (anInt / 256))).put (UInt8.ofNat (anInt % 256))

/-- The two bytes of `writeInt`. -/
def be16 (n : Nat) : List UInt8 := [UInt8.ofNat (n / 256), UInt8.ofNat (n % 256)]

@[simp] theorem length_be16 (n : Nat) : (be16 n).length = 2 := rfl

theorem writeInt_eq (c : Cursor) (n : Nat) : writeInt c n = c.puts (be16 n) := rfl

theorem readInt_of_holds {ptr : Nat} (hn : n ≤ 65535) (h : Holds buf ptr (be16 n)) :
    readInt buf ptr = n := by
  obtain ⟨h1, h⟩ := holds_cons.mp h
  obtain ⟨h2, -⟩ := holds_cons.mp h
  rw [readInt, h1, h2, UInt8.toNat_ofNat', UInt8.toNat_ofNat']
  omega

/-- `MQTTString`: a C string, a length-delimited string, or neither. The
length of `lenstring` is that of its data. -/
structure MqttString where
  cstring : Option CStr := none
  lenstring : Option (List UInt8) := none

namespace MqttString

/-- The bytes of `lenstring`, none when its pointer is NULL. -/
def lenData (s : MqttString) : List UInt8 := s.lenstring.getD []

/-- The string is given in one of the two representations, not in both. -/
def OneForm (s : MqttString) : Prop := s.cstring = none ∨ s.lenData = []

/-- The bytes `writeMQTTString` emits after the length. -/
def text (s : MqttString) : List UInt8 :=
  if 0 < s.lenData.length then s.lenData else (s.cstring.map Subtype.val).getD []

end MqttString

def mqttStrlen (s : MqttString) : Nat :=
  match s.cstring with
  | some c => c.strlen
  | none => s.lenData.length

def writeCString (c : Cursor) (string : CStr) : Cursor :=
  (writeInt c string.strlen).puts string.val

def writeMqttString (c : Cursor) (s : MqttString) : Cursor :=
  if 0 < s.lenData.length then (writeInt c s.lenData.length).puts s.lenData
  else match s.cstring with
    | some str => writeCString c str
    | none => writeInt c 0

theorem writeMqttString_eq (c : Cursor) (s : MqttString) :
    writeMqttString c s = c.puts (be16 s.text.length ++ s.text) := by
  unfold writeMqttString MqttString.text
  by_cases h : 0 < s.lenData.length
  · rw [if_pos h, if_pos h, writeInt_eq, Cursor.puts_append]
  · rw [if_neg h, if_neg h]
    cases s.cstring with
    | none => rfl
    | some str => exact Cursor.puts_append c (be16 str.strlen) str.val

theorem mqttStrlen_eq {s : MqttString} (h : s.OneForm) : mqttStrlen s = s.text.length := by
  unfold mqttStrlen MqttString.text
  rcases h with h | h
  · rw [h]
    by_cases h0 : 0 < s.lenData.length
    · rw [if_pos h0]
    · rw [if_neg h0]
      simpa using h0
  · rw [h, if_neg (by simp)]
    cases s.cstring <;> rfl

/-- The out-parameters of a length-delimited string: `lenstring.len` and
`lenstring.data`, an offset into the buffer (`none` is NULL). -/
structure LenString where
  len : Nat := 0
  data : Option Nat := none

/-- `readMQTTLenString(mqttstring, &ptr, enddata)`: success, the string and the
moved pointer. -/
def readMqttLenString (buf : Mem) (ptr enddata : Nat) : Bool × LenString × Nat :=
  if 1 < enddata - ptr then
    let len := readInt buf ptr
    let ptr := ptr + 2
    if ptr + len ≤ enddata then (true, ⟨len, some ptr⟩, ptr + len)
    else (false, ⟨len, none⟩, ptr)
  else (false, {}, ptr)

/-- `MQTTPacket_equals(a, b)` on a length-delimited `a`. -/
def mqttPacketEquals (a : List UInt8) (b : CStr) : Bool :=
  a.length == b.strlen && a == b.val

/-! ## Framed packets -/

/-- One packet as the broker frames it. The remaining-length field need not
be the shortest one. -/
structure MqttPacket where
  header : UInt8
  remLen : List UInt8
  body : List UInt8
  remLen_isField : Varint.IsField remLen
  remLen_length : remLen.length ≤ maxNoOfRemainingLengthBytes
  remLen_value : Varint.value remLen = body.length

def MqttPacket.bytes (p : MqttPacket) : List UInt8 := p.header :: (p.remLen ++ p.body)

namespace MqttPacket

variable {p : MqttPacket} {buf : Mem}

theorem length_bytes : p.bytes.length = 1 + p.remLen.length + p.body.length := by
  simp only [bytes, List.length_cons, List.length_append]; omega

theorem holds_header (h : Holds buf 0 p.bytes) : buf 0 = p.header := (holds_cons.mp h).1

theorem holds_body (h : Holds buf 0 p.bytes) : Holds buf (1 + p.remLen.length) p.body := by
  have := (holds_append.mp (holds_cons.mp h).2).2
  rwa [Nat.zero_add] at this

theorem decodeBuf (h : Holds buf 0 p.bytes) :
    mqttPacketDecodeBuf buf 1 = (p.remLen.length, p.body.length) := by
  rw [← p.remLen_value]
  exact mqttPacketDecodeBuf_field p.remLen_isField p.remLen_length
    (holds_append.mp (holds_cons.mp h).2).1

def ofBody (header : UInt8) (body : List UInt8) (h : body.length ≤ maxRemainingLength) :
    MqttPacket where
  header := header
  remLen := mqttPacketEncode body.length
  body := body
  remLen_isField := by rw [mqttPacketEncode_eq]; exact Varint.isField_encode _
  remLen_length := length_mqttPacketEncode_le h
  remLen_value := by rw [mqttPacketEncode_eq]; exact Varint.value_encode _

end MqttPacket

end AliyunIot.Mqtt
