import AliyunIot.Coap.Deserialize

/-!
# Building a CoAP message

`CoAPMessage_common.c`: a message to be sent is initialised, its header, token
and payload are set and its options are added. `OutMessage` is the `CoAPMessage`
on that side, where an option value is a block of its own; what the C types and
the setters keep true of it are its fields. The readers of a received message
are at the end.
-/

namespace AliyunIot.Coap

open Lib

abbrev coapErrorInvalidParam : Int := coapErrorBase + 1
abbrev coapErrorNull : Int := coapErrorBase + 2
abbrev coapErrorMalloc : Int := coapErrorBase + 3
abbrev coapErrorDataSize : Int := coapErrorBase + 5
abbrev coapErrorWriteFailed : Int := coapErrorBase + 10

abbrev coapMsgMaxPduLen : Nat := 1280
abbrev coapMsgMaxPathLen : Nat := 128
abbrev coapCurVersion : UInt8 := 1

abbrev coapMessageTypeCon : UInt8 := 0
abbrev coapMessageTypeAck : UInt8 := 2
abbrev coapMessageTypeRst : UInt8 := 3

abbrev coapMsgCodeEmptyMessage : UInt8 := 0
abbrev coapMsgCodeGet : UInt8 := 1
abbrev coapMsgCode205Content : UInt8 := 0x45
abbrev coapMsgCode404NotFound : UInt8 := 0x84
abbrev coapMsgCode405MethodNotAllowed : UInt8 := 0x85

abbrev coapOptionObserve : UInt16 := 6
abbrev coapOptionUriPath : UInt16 := 11
abbrev coapOptionMaxage : UInt16 := 14

/-- `CoAPList`: the nodes from the head on, with the counter and its bound. -/
structure CoapList (α : Type) where
  list : List α
  count : UInt8
  maxcount : UInt8

/-- Bytes whose number is an `unsigned short`. -/
abbrev Block := { bs : List UInt8 // bs.length < 65536 }

/-- `CoAPMsgOption` of a message to be sent: `num` is the delta, `val` the block
or `none` for `NULL`. -/
structure OutOption where
  num : UInt16
  len : UInt16
  val : Option (List UInt8)
  held : ∀ bs ∈ val, bs.length = len.toNat

/-- `CoAPMessage` to be sent; `optcount` is the number of options, `payloadlen`
that of the payload bytes. Handlers and user data are opaque pointers. -/
structure OutMessage where
  header : CoapMsgHeader
  token : List UInt8
  options : List OutOption
  optdelta : UInt8
  payload : Block
  handler : Option Nat
  resp : Option Nat
  user : Nat
  keep : Int
  version_lt : header.version < 4
  type_lt : header.type < 4
  tokenlen_eq : token.length = header.tokenlen.toNat
  tokenlen_le : token.length ≤ coapMsgMaxTokenLen
  optcount_le : options.length ≤ coapMsgMaxOptionNum

namespace OutMessage

def payloadlen (m : OutMessage) : UInt16 := UInt16.ofNat m.payload.1.length

theorem toNat_payloadlen (m : OutMessage) : m.payloadlen.toNat = m.payload.1.length :=
  UInt16.toNat_ofNat_of_lt' m.payload.2

end OutMessage

def coapMessageInit : OutMessage where
  header := ⟨coapCurVersion, coapMessageTypeAck, 0, coapMsgCodeEmptyMessage, 0⟩
  token := []
  options := []
  optdelta := 0
  payload := ⟨[], by decide⟩
  handler := none
  resp := none
  user := 0
  keep := 0
  version_lt := by decide
  type_lt := by decide
  tokenlen_eq := rfl
  tokenlen_le := by decide
  optcount_le := by decide

def coapMessageIdSet (m : OutMessage) (msgid : UInt16) : OutMessage :=
  { m with header := { m.header with msgid := msgid } }

def coapMessageCodeSet (m : OutMessage) (code : UInt8) : OutMessage :=
  { m with header := { m.header with code := code } }

/-- `CoAPMessageType_set`: the four types are `0 … 3`. -/
def coapMessageTypeSet (m : OutMessage) (type : UInt8) : Int × OutMessage :=
  if h : type < 4 then
    (coapSuccess, { m with header := { m.header with type := type }, type_lt := h })
  else (coapErrorInvalidParam, m)

/-- `CoAPMessageToken_set`; `tokenlen` is the number of bytes. -/
def coapMessageTokenSet (m : OutMessage) (token : List UInt8) : Int × OutMessage :=
  if h : coapMsgMaxTokenLen < token.length then (coapErrorInvalidLength, m)
  else
    (coapSuccess,
      { m with
        header := { m.header with tokenlen := UInt8.ofNat token.length }
        token := token
        tokenlen_eq := by
          simp only [coapMsgMaxTokenLen] at h
          exact (UInt8.toNat_ofNat_of_lt' (by rw [UInt8.size]; omega)).symm
        tokenlen_le := Nat.le_of_not_lt h })

def coapMessagePayloadSet (m : OutMessage) (payload : Block) : OutMessage :=
  { m with payload := payload }

def coapMessageHandlerSet (m : OutMessage) (handler : Option Nat) : OutMessage :=
  { m with handler := handler }

def coapMessageUserDataSet (m : OutMessage) (user : Nat) : OutMessage := { m with user := user }

/-- The entry `options[optcount]` is taken and the running number moved to
`optnum`, truncated to the `unsigned char` it is kept in. -/
def OutMessage.addOption (m : OutMessage) (optnum len : UInt16) (val : Option (List UInt8))
    (held : ∀ bs ∈ val, bs.length = len.toNat) (h : m.options.length < coapMsgMaxOptionNum) :
    OutMessage :=
  { m with
    options := m.options ++ [⟨optnum - m.optdelta.toUInt16, len, val, held⟩]
    optdelta := optnum.toUInt8
    optcount_le := by rw [List.length_append]; exact h }

/-- `CoAPStrOption_add`; `malloc` is whether `coap_malloc` succeeds. -/
def coapStrOptionAdd (m : OutMessage) (optnum : UInt16) (data : Block) (malloc : Bool) :
    Int × OutMessage :=
  if h : coapMsgMaxOptionNum ≤ m.options.length then (coapErrorInvalidParam, m)
  else if malloc then
    (coapSuccess, m.addOption optnum (UInt16.ofNat data.1.length) (some data.1)
      (by rintro bs ⟨⟩; exact (UInt16.toNat_ofNat_of_lt' data.2).symm) (Nat.lt_of_not_le h))
  else (coapErrorMalloc, m)

/-- The bytes `CoAPUintOption_add` stores for a number. -/
def uintValue (data : UInt32) : List UInt8 :=
  if data = 0 then []
  else if data ≤ 255 then [data.toUInt8]
  else if data ≤ 65535 then [((data &&& 0xFF00) >>> 8).toUInt8, (data &&& 0x00FF).toUInt8]
  else
    [((data &&& 0xFF000000) >>> 24).toUInt8, ((data &&& 0x00FF0000) >>> 16).toUInt8,
      ((data &&& 0x0000FF00) >>> 8).toUInt8, (data &&& 0x000000FF).toUInt8]

theorem length_uintValue_le (data : UInt32) : (uintValue data).length ≤ 4 := by
  unfold uintValue
  repeat' split
  all_goals simp

/-- `CoAPUintOption_add`: no allocation for `0`, and a failed one leaves `NULL`. -/
def coapUintOptionAdd (m : OutMessage) (optnum : UInt16) (data : UInt32) (malloc : Bool) :
    Int × OutMessage :=
  if h : coapMsgMaxOptionNum ≤ m.options.length then (coapErrorInvalidParam, m)
  else
    (coapSuccess, m.addOption optnum (UInt16.ofNat (uintValue data).length)
      (if malloc ∧ data ≠ 0 then some (uintValue data) else none)
      (by
        have hle := length_uintValue_le data
        intro bs hbs
        split at hbs
        · cases hbs
          exact (UInt16.toNat_ofNat_of_lt' (by rw [UInt16.size]; omega)).symm
        · cases hbs)
      (Nat.lt_of_not_le h))

end AliyunIot.Coap
