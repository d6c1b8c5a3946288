import AliyunIot.Dm.EventMessage
import AliyunIot.Infra.CjsonObject

/-!
# The texts of the messages

Each format composes an object: its members one by one, and the slices of the cloud's message
between them.
-/

namespace AliyunIot.Dm

open Lib Lib.Json Cjson Format

def numberMember (key : List UInt8) (i : Int) : Member :=
  ⟨[], key, [], ⟨[], .number, decimal i, []⟩⟩

def stringMember (key s : List UInt8) : Member := ⟨[], key, [], ⟨[], .string, quote s, []⟩⟩

def valueMember (key : List UInt8) (k : Kind) (t : List UInt8) : Member :=
  ⟨[], key, [], ⟨[], k, t, []⟩⟩

variable {strtod : Strtod} {key s rest : List UInt8} {i : Int} {n : Nat}

section Members

theorem numberMember_append :
    (numberMember key i).bytes ++ rest = quote key ++ 58 :: (decimal i ++ rest) := by
  simp [numberMember, Member.bytes, Element.bytes]

theorem stringMember_append :
    (stringMember key s).bytes ++ rest = quote key ++ 58 :: 34 :: (s ++ 34 :: rest) := by
  simp [stringMember, Member.bytes, Element.bytes, quote]

theorem valueMember_append {k : Kind} {t : List UInt8} :
    (valueMember key k t).bytes ++ rest = quote key ++ 58 :: (t ++ rest) := by
  simp [valueMember, Member.bytes, Element.bytes]

theorem isNumberByte_of_isDigit {b : UInt8} (h : isDigit b = true) : isNumberByte b = true := by
  rw [isDigit] at h
  simp [isNumberByte, h]

theorem isNumber_decimal (hread : ReadsDecimals strtod) (hi : IsInt i) :
    IsNumber strtod (decimal i) := by
  have hdigits : ∀ b ∈ digits i.natAbs, isDigit b = true := fun b hb => isDigit_of_mem_digits hb
  obtain ⟨d, ds, hds⟩ := List.exists_cons_of_ne_nil (digits_ne_nil (n := i.natAbs))
  constructor
  · obtain ⟨sign, hsign, heq⟩ := decimal_eq i
    rcases hsign with rfl | rfl
    · have hd := hdigits d (by rw [hds]; exact List.mem_cons_self)
      rw [isDigit] at hd
      exact ⟨d, ds, by rw [heq, hds]; rfl, by simp [startsNumber, hd]⟩
    · exact ⟨45, _, heq, rfl⟩
  · intro b hb
    rcases mem_decimal hb with rfl | hb
    · rfl
    · exact isNumberByte_of_isDigit hb
  · have hsmall : i.natAbs < 10 ^ 10 := by
      obtain ⟨hlo, hhi⟩ := hi
      rw [intMin] at hlo
      rw [intMax] at hhi
      omega
    have hlen := length_decimal_le (by decide) hsmall
    rw [numberLen]
    omega
  · rw [hread i hi.1 hi.2]

theorem numberMember_ok (hread : ReadsDecimals strtod) (hi : IsInt i)
    (hkey : Cjson.isBody key = true) :
    (numberMember key i).Ok (lexis strtod) (IsValue (lexis strtod) n) := by
  refine ⟨spaces_nil, hkey, spaces_nil, spaces_nil, ?_, spaces_nil⟩
  show IsValue _ _ .number (decimal i)
  rw [IsValue]
  exact isNumber_decimal hread hi

theorem stringMember_ok (hs : Cjson.isBody s = true) (hkey : Cjson.isBody key = true) :
    (stringMember key s).Ok (lexis strtod) (IsValue (lexis strtod) n) := by
  refine ⟨spaces_nil, hkey, spaces_nil, spaces_nil, ?_, spaces_nil⟩
  show IsValue _ _ .string (quote s)
  rw [IsValue]
  exact ⟨s, hs, rfl⟩

theorem valueMember_ok {k : Kind} {t : List UInt8} (ht : IsValue (lexis strtod) n k t)
    (hkey : Cjson.isBody key = true) :
    (valueMember key k t).Ok (lexis strtod) (IsValue (lexis strtod) n) :=
  ⟨spaces_nil, hkey, spaces_nil, spaces_nil, ht, spaces_nil⟩

theorem item_decimal (hread : ReadsDecimals strtod) (hi : IsInt i) :
    item strtod .number (decimal i) = ⟨.number, decimal i, 0, i⟩ := by
  rw [item, hread i hi.1 hi.2, saturate_eq_self hi]

theorem item_quote : item strtod .string (quote s) = keyItem s := by
  rw [item, quote, List.tail_cons, List.dropLast_concat, keyItem]

theorem isBody_of_unquoted (h34 : (34 : UInt8) ∉ s) (h92 : (92 : UInt8) ∉ s) :
    Cjson.isBody s = true := by
  induction s using Cjson.isBody.induct with
  | case1 => rfl
  | case2 b =>
    rw [List.mem_singleton] at h34 h92
    simp [Cjson.isBody, Ne.symm h34, Ne.symm h92]
  | case3 c t => exact absurd List.mem_cons_self h34
  | case4 c t _ ih => exact absurd List.mem_cons_self h92
  | case5 b c t hb hb' ih =>
    rw [Cjson.isBody, if_neg hb, if_neg hb']
    exact ih (List.not_mem_of_not_mem_cons h34) (List.not_mem_of_not_mem_cons h92)

end Members

section Numbers

variable {content : List UInt8} {o e : Nat} {lite : LiteCjson}

theorem isInt_zero : IsInt 0 := by decide

theorem valueInt_of_parseArray {value : Nat → Option (LiteCjson × Nat)}
    (h : parseArray content value o = some (lite, e)) : lite.valueInt = 0 := by
  simp only [parseArray] at h
  split at h
  · cases h
    rfl
  · obtain ⟨⟨size, last⟩, -, h⟩ := Option.bind_eq_some_iff.mp h
    split at h
    · cases h
      rfl
    · cases h

theorem valueInt_of_parseObject {value : Nat → Option (LiteCjson × Nat)}
    (h : parseObject content value o = some (lite, e)) : lite.valueInt = 0 := by
  simp only [parseObject] at h
  split at h
  · cases h
    rfl
  · split at h
    · split at h
      · cases h
        rfl
      · cases h
    · cases h

theorem isInt_of_dispatch {array object : Nat → Option (LiteCjson × Nat)}
    (harray : array o = some (lite, e) → lite.valueInt = 0)
    (hobject : object o = some (lite, e) → lite.valueInt = 0)
    (h : dispatch strtod content array object o = some (lite, e)) : IsInt lite.valueInt := by
  unfold dispatch at h
  split at h
  · cases h
    exact isInt_zero
  split at h
  · cases h
    exact isInt_zero
  split at h
  · cases h
    exact isInt_zero
  split at h
  case h_1 => cases h
  case h_2 b hb =>
    split at h
    · obtain ⟨body, -, rfl, -⟩ := isBody_of_parseString h
      exact isInt_zero
    split at h
    · simp only [parseNumber] at h
      split at h
      · cases h
      · cases h
        exact isInt_saturate _
    split at h
    · rw [harray h]
      exact isInt_zero
    split at h
    · rw [hobject h]
      exact isInt_zero
    cases h

theorem isInt_of_parseValue (h : parseValue strtod content n o = some (lite, e)) :
    IsInt lite.valueInt := by
  cases n with
  | zero =>
    refine isInt_of_dispatch ?_ ?_ h
    · intro h
      cases h
    · intro h
      cases h
  | succ n => exact isInt_of_dispatch valueInt_of_parseArray valueInt_of_parseObject h

theorem type_of_parseArray {value : Nat → Option (LiteCjson × Nat)}
    (h : parseArray content value o = some (lite, e)) : lite.type = .array := by
  simp only [parseArray] at h
  split at h
  · cases h
    rfl
  · obtain ⟨⟨size, last⟩, -, h⟩ := Option.bind_eq_some_iff.mp h
    split at h
    · cases h
      rfl
    · cases h

theorem type_of_parseObject {value : Nat → Option (LiteCjson × Nat)}
    (h : parseObject content value o = some (lite, e)) : lite.type = .object := by
  simp only [parseObject] at h
  split at h
  · cases h
    rfl
  · split at h
    · split at h
      · cases h
        rfl
      · cases h
    · cases h

theorem isBody_of_dispatch {array object : Nat → Option (LiteCjson × Nat)}
    (harray : array o = some (lite, e) → lite.type = .array)
    (hobject : object o = some (lite, e) → lite.type = .object)
    (h : dispatch strtod content array object o = some (lite, e)) (ht : lite.type = .string) :
    Cjson.isBody lite.value = true := by
  unfold dispatch at h
  split at h
  · cases h
    cases ht
  split at h
  · cases h
    cases ht
  split at h
  · cases h
    cases ht
  split at h
  case h_1 => cases h
  case h_2 b hb =>
    split at h
    · obtain ⟨body, hbody, rfl, -⟩ := isBody_of_parseString h
      exact hbody
    split at h
    · simp only [parseNumber] at h
      split at h
      · cases h
      · cases h
        cases ht
    split at h
    · rw [harray h] at ht
      cases ht
    split at h
    · rw [hobject h] at ht
      cases ht
    cases h

theorem isBody_of_parseValue (h : parseValue strtod content n o = some (lite, e))
    (ht : lite.type = .string) : Cjson.isBody lite.value = true := by
  cases n with
  | zero =>
    refine isBody_of_dispatch ?_ ?_ h ht
    · intro h
      cases h
    · intro h
      cases h
  | succ n => exact isBody_of_dispatch type_of_parseArray type_of_parseObject h ht

theorem isBody_message {payload : List UInt8} {response : DmMsgResponsePayload}
    (h : dmMsgResponseParse strtod payload = some response)
    (ht : response.message.type = .string) : Cjson.isBody response.message.value = true := by
  obtain ⟨lite, -, h⟩ := Option.bind_eq_some_iff.mp h
  obtain ⟨id, -, h⟩ := Option.bind_eq_some_iff.mp h
  obtain ⟨code, -, h⟩ := Option.bind_eq_some_iff.mp h
  obtain ⟨data, -, h⟩ := Option.bind_eq_some_iff.mp h
  cases h
  unfold dmUtilsJsonObjectItem at ht ⊢
  cases hit : liteCjsonObjectItem strtod lite (text "message") with
  | none =>
    rw [hit] at ht
    cases ht
  | some it =>
    rw [hit] at ht
    obtain ⟨v, e, hval⟩ := value_of_objectItem hit
    exact isBody_of_parseValue hval ht

theorem isInt_code {payload : List UInt8} {response : DmMsgResponsePayload}
    (h : dmMsgResponseParse strtod payload = some response) : IsInt response.code.valueInt := by
  obtain ⟨lite, -, h⟩ := Option.bind_eq_some_iff.mp h
  obtain ⟨id, -, h⟩ := Option.bind_eq_some_iff.mp h
  obtain ⟨code, hcode, h⟩ := Option.bind_eq_some_iff.mp h
  obtain ⟨data, -, h⟩ := Option.bind_eq_some_iff.mp h
  cases h
  unfold dmUtilsJsonObjectItem at hcode
  split at hcode
  · cases hcode
  next it hit =>
    split at hcode
    · cases hcode
    · cases hcode
      obtain ⟨v, e, hval⟩ := value_of_objectItem hit
      exact isInt_of_parseValue hval

end Numbers

section Texts

variable {devid id code : Int} {p q sid ctx t : List UInt8}

/-- The object of the payload of a message, and what follows it. -/
def payloadText (p rest : List UInt8) : List UInt8 := quote (text "payload") ++ 58 :: (p ++ rest)

/-- The last member of a request that comes with a context. -/
def ctxText (ctx : List UInt8) : List UInt8 := (stringMember (text "ctx") ctx).bytes ++ [125]

theorem format_propertySet :
    format (dmMsgPropertySetFmt false) [.int devid, .slice p] =
      123 :: ((numberMember (text "devid") devid).bytes ++
        44 :: payloadText (precision p) [125]) := by
  rw [numberMember_append]
  rfl

theorem format_propertySet_logReport :
    format (dmMsgPropertySetFmt true) [.int devid, .slice p, .slice t] =
      123 :: ((numberMember (text "devid") devid).bytes ++ 44 :: payloadText (precision p)
        (44 :: (quote (text "msgid") ++ 58 :: (precision t ++ [125])))) := by
  rw [numberMember_append]
  rfl

theorem format_propertyGet :
    format dmMsgThingPropertyGetFmt [.slice t, .int devid, .slice p, .str ctx] =
      123 :: ((stringMember (text "id") (precision t)).bytes ++
        44 :: ((numberMember (text "devid") devid).bytes ++
          44 :: payloadText (precision p) (44 :: ctxText ctx))) := by
  rw [stringMember_append, numberMember_append, ctxText, stringMember_append]
  rfl

theorem format_serviceRequest :
    format dmMsgServiceRequestFmt [.slice t, .int devid, .slice sid, .slice p, .str ctx] =
      123 :: ((stringMember (text "id") (precision t)).bytes ++
        44 :: ((numberMember (text "devid") devid).bytes ++
          44 :: ((stringMember (text "serviceid") (precision sid)).bytes ++
            44 :: payloadText (precision p) (44 :: ctxText ctx)))) := by
  rw [stringMember_append, numberMember_append, stringMember_append, ctxText, stringMember_append]
  rfl

theorem format_rrpcRequest :
    format dmMsgEventRrpcRequestFmt [.slice t, .int devid, .slice sid, .slice q, .slice p] =
      123 :: ((stringMember (text "id") (precision t)).bytes ++
        44 :: ((numberMember (text "devid") devid).bytes ++
          44 :: ((stringMember (text "serviceid") (precision sid)).bytes ++
            44 :: ((stringMember (text "rrpcid") (precision q)).bytes ++
              44 :: payloadText (precision p) [125])))) := by
  rw [stringMember_append, numberMember_append, stringMember_append, stringMember_append]
  rfl

theorem format_propertyPostReply :
    format dmMsgEventPropertyPostReplyFmt [.int id, .int code, .int devid, .slice p] =
      123 :: ((numberMember (text "id") id).bytes ++
        44 :: ((numberMember (text "code") code).bytes ++
          44 :: ((numberMember (text "devid") devid).bytes ++
            44 :: payloadText (precision p) [125]))) := by
  rw [numberMember_append, numberMember_append, numberMember_append]
  rfl

theorem format_eventPostReply :
    format dmMsgEventSpecificPostReplyFmt
        [.int id, .int code, .int devid, .slice q, .slice p] =
      123 :: ((numberMember (text "id") id).bytes ++
        44 :: ((numberMember (text "code") code).bytes ++
          44 :: ((numberMember (text "devid") devid).bytes ++
            44 :: ((stringMember (text "eventid") (precision q)).bytes ++
              44 :: ((stringMember (text "payload") (precision p)).bytes ++ [125]))))) := by
  rw [numberMember_append, numberMember_append, numberMember_append, stringMember_append,
    stringMember_append]
  rfl

end Texts

end AliyunIot.Dm
