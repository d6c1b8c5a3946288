import AliyunIot.Coap.Cloud

/-!
# Length accounting

`CoAPSerialize_MessageLength` sizes the buffer and guards the send on both sides,
and it is an `unsigned short`. `LengthAccounted` says that it is the exact length and
what follows from that for the two senders; `lengthAccounted_iff` is the condition.
-/

namespace AliyunIot.Coap

open Lib

/-- The writer counts `n` bytes, stores the complete datagram and stores nothing at
the end of its buffer or behind it. -/
def WritesAll (message : OutMessage) (n : Nat) (buflen : UInt16) : Prop :=
  ∃ img, coapSerializeMessage message buflen = some ((n : Int), img) ∧
    (∀ i, img i = (wire message)[i]?) ∧ ∀ i, buflen.toNat ≤ i → img i = none

/-- A send that returns an error and hands nothing to the network. -/
def Rejected {ε : Type} (ret : Option Int) (events : List ε) : Prop :=
  (∃ e, ret = some e ∧ e ≠ coapSuccess) ∧ events = []

/-- The computed length is the exact one, a buffer with that room takes the message,
and the two senders reject the message or send all of it. -/
structure LengthAccounted (message : OutMessage) : Prop where
  length : (coapSerializeMessageLength message).toNat = wireLength message
  written : ∀ buflen, coapSerializeMessageLength message ≤ buflen →
    WritesAll message (coapSerializeMessageLength message).toNat buflen
  server : ∀ ctx remote io,
    Rejected (coapMessageSend ctx remote message io).ret
      (coapMessageSend ctx remote message io).events ∨
    (coapMessageSend ctx remote message io).events = [.write remote (wire message)]
  cloud : ∀ ctx io,
    Rejected (cloudMessageSend ctx message io).ret (cloudMessageSend ctx message io).events ∨
    (cloudMessageSend ctx message io).events = [.write (wire message)]

/-! ## Messages whose length fits -/

theorem Image.bytes_getElem? {l : List UInt8} (h : l.length < 65536) :
    Image.bytes (fun i => l[i]?) (UInt16.ofInt (l.length : Int)) = l := by
  have hlen : (UInt16.ofInt (l.length : Int)).toNat = l.length := by
    show (UInt16.ofNat ((l.length : Int) % 2 ^ 16).toNat).toNat = _
    have hmod : ((l.length : Int) % 2 ^ 16).toNat = l.length := by omega
    rw [hmod]
    exact UInt16.toNat_ofNat_of_lt' h
  unfold Image.bytes
  rw [hlen]
  refine List.ext_getElem (by rw [List.length_map, List.length_range]) fun i h1 h2 => ?_
  rw [List.getElem_map, List.getElem_range]
  show l[i]?.getD 0 = _
  rw [List.getElem?_eq_getElem h2, Option.getD_some]

section
variable {message : OutMessage} (hr : message.Readable) (hlt : wireLength message < 65536)
include hr hlt

theorem bytes_wire :
    Image.bytes (fun i => (wire message)[i]?) (UInt16.ofInt (wireLength message : Int)) =
      wire message := by
  rw [← length_wire hr] at hlt ⊢
  exact Image.bytes_getElem? hlt

theorem writesAll_of_fits {buflen : UInt16} (h : coapSerializeMessageLength message ≤ buflen) :
    WritesAll message (coapSerializeMessageLength message).toNat buflen := by
  have hlen := messageLength_toNat hlt
  have hle : wireLength message ≤ buflen.toNat := by
    rw [← hlen]
    exact UInt16.le_iff_toNat_le.mp h
  refine ⟨_, by rw [serialize_wire hr hle, hlen], fun i => rfl, fun i hi => ?_⟩
  apply List.getElem?_eq_none
  rw [length_wire hr]
  exact Nat.le_trans hle hi

theorem serverSend_of_fits (ctx : CoapContext) (remote : NetworkAddr) (io : SendIo) :
    Rejected (coapMessageSend ctx remote message io).ret
      (coapMessageSend ctx remote message io).events ∨
    (coapMessageSend ctx remote message io).events = [.write remote (wire message)] := by
  have hlen := messageLength_toNat hlt
  unfold coapMessageSend
  dsimp only
  split
  · exact .inl ⟨⟨_, rfl, by decide⟩, rfl⟩
  · split
    · exact .inl ⟨⟨_, rfl, by decide⟩, rfl⟩
    · rw [serialize_wire hr (Nat.le_of_eq hlen.symm)]
      refine .inr ?_
      rw [write_events, bytes_wire hr hlt]

theorem cloudSend_of_fits (ctx : CloudContext) (io : CloudSendIo) :
    Rejected (cloudMessageSend ctx message io).ret (cloudMessageSend ctx message io).events ∨
    (cloudMessageSend ctx message io).events = [.write (wire message)] := by
  have hlen := messageLength_toNat hlt
  unfold cloudMessageSend
  split
  · exact .inl ⟨⟨_, rfl, by decide⟩, rfl⟩
  · next hmax =>
    have hle : wireLength message ≤ (UInt16.ofNat coapMsgMaxPduLen).toNat := by
      rw [hlen] at hmax
      exact Nat.le_of_not_lt hmax
    rw [serialize_wire hr hle]
    refine .inr ?_
    rw [cloudWrite_events, bytes_wire hr hlt]

end

/-- **Length accounting.** The length is accounted for exactly when the complete
datagram has at most 65535 bytes and every option value can be read. -/
theorem lengthAccounted_iff (message : OutMessage) :
    LengthAccounted message ↔ wireLength message ≤ 65535 ∧ message.Readable := by
  constructor
  · intro h
    have hlt : wireLength message < 65536 := by
      rw [← h.length]
      exact UInt16.toNat_lt _
    refine ⟨Nat.le_of_lt_succ hlt, Classical.byContradiction fun hr => ?_⟩
    -- A writer that reads through `NULL` has no result.
    obtain ⟨img, hsome, -⟩ := h.written _ (UInt16.le_refl _)
    rw [serialize_of_not_readable hr (by unfold wireLength at hlt; omega)] at hsome
    cases hsome
  · rintro ⟨hle, hr⟩
    have hlt : wireLength message < 65536 := Nat.lt_succ_of_le hle
    exact ⟨messageLength_toNat hlt, fun _ hb => writesAll_of_fits hr hlt hb,
      serverSend_of_fits hr hlt, cloudSend_of_fits hr hlt⟩

/-! ## Lengths that wrap -/

/-- A `GET` with 65535 bytes of payload. -/
def longPayload : OutMessage :=
  coapMessagePayloadSet (coapMessageCodeSet coapMessageInit coapMsgCodeGet)
    ⟨List.replicate 65535 0, by rw [List.length_replicate]; decide⟩

/-- A `GET` with one option of 65529 bytes. -/
def longOption : OutMessage :=
  (coapStrOptionAdd (coapMessageCodeSet coapMessageInit coapMsgCodeGet) coapOptionUriPath
    ⟨List.replicate 65529 0, by rw [List.length_replicate]; decide⟩ true).2

theorem payloadlen_longPayload : longPayload.payloadlen = 65535 := by
  unfold OutMessage.payloadlen longPayload coapMessagePayloadSet
  rw [List.length_replicate]
  rfl

theorem messageLength_longPayload : coapSerializeMessageLength longPayload = 4 := by
  unfold coapSerializeMessageLength
  rw [payloadlen_longPayload]
  rfl

theorem serialize_longPayload : coapSerializeMessage longPayload 4 =
    some (4, fun i => [0x60, 0x01, 0x00, 0x00][i]?) := by
  have hheader : coapSerializeHeader longPayload 4 = [0x60, 0x01, 0x00, 0x00] := rfl
  have htoken : coapSerializeToken longPayload 0 = [] := rfl
  have hoptions (img : Image) : coapSerializeOptions longPayload img 4 = some (img, 0) := rfl
  have hpay : coapSerializePayload longPayload 0 = [] := by
    unfold coapSerializePayload
    rw [payloadlen_longPayload]
    rfl
  have hroom : (4 : UInt16) - UInt16.ofNat [(0x60 : UInt8), 0x01, 0x00, 0x00].length = 0 := rfl
  have hptr : (UInt16.ofNat [(0x60 : UInt8), 0x01, 0x00, 0x00].length).toNat +
    (UInt16.ofNat ([] : List UInt8).length).toNat = 4 := rfl
  have hroom' : (0 : UInt16) - UInt16.ofNat ([] : List UInt8).length - 0 = 0 := rfl
  unfold coapSerializeMessage
  simp only [hheader, hroom, htoken, hptr, hoptions, Option.bind_eq_bind, Option.bind_some, hroom',
    UInt16.toNat_zero, hpay]
  exact congrArg some (Prod.ext rfl (Image.store_start _))

theorem options_longOption : ∃ o : OutOption, longOption.options = [o] ∧ o.num = 11 ∧
    o.len = 65529 ∧ o.val = some (List.replicate 65529 0) := by
  refine ⟨_, rfl, rfl, ?_, rfl⟩
  dsimp only
  rw [List.length_replicate]
  rfl

theorem messageLength_longOption : coapSerializeMessageLength longOption = 0 := by
  obtain ⟨o, ho, hnum, hlen, -⟩ := options_longOption
  have hopt : coapSerializeOptionsLen longOption = 65532 := by
    unfold coapSerializeOptionsLen
    rw [ho, coapSerializeOptionsLenFrom, coapSerializeOptionLen, hnum, hlen]
    rfl
  unfold coapSerializeMessageLength
  rw [hopt]
  rfl

theorem serialize_longOption : ∃ n img,
    coapSerializeMessage longOption 0 = some (n, img) ∧ img 65531 ≠ none := by
  obtain ⟨o, ho, hnum, hlen, hval⟩ := options_longOption
  have hr : ∀ x ∈ longOption.options, x.Readable := by
    rw [ho]
    rintro x hx hnone
    rw [List.mem_singleton.mp hx, hval] at hnone
    cases hnone
  have hlength : optionsLength longOption.options = 65532 := by
    rw [ho, optionsLength_cons, optionsLength_nil, OutOption.length, hnum, hlen]
    rfl
  have hbytes := length_flatMap_bytes hr
  obtain ⟨count, hrun, -⟩ := serializeOptionsFrom_of_readable hr (fun _ => none) 0 0
    (by rw [hlength]; decide)
  have hoptions : coapSerializeOptions longOption (fun _ => none) 0 =
      some (Image.store (fun _ => none) 0 (longOption.options.flatMap OutOption.bytes), count) :=
    hrun
  have hheader : coapSerializeHeader longOption 0 = [] := rfl
  have htoken : coapSerializeToken longOption 0 = [] := rfl
  have hpay (room : Nat) : coapSerializePayload longOption room = [] := by
    unfold coapSerializePayload
    split <;> rfl
  have hroom : (0 : UInt16) - UInt16.ofNat ([] : List UInt8).length = 0 := rfl
  have hptr : (UInt16.ofNat ([] : List UInt8).length).toNat = 0 := rfl
  unfold coapSerializeMessage
  simp only [hheader, hroom, htoken, Image.store_nil, hptr, hoptions, Option.bind_eq_bind,
    Option.bind_some, hpay]
  refine ⟨_, _, rfl, ?_⟩
  rw [Image.store_start]
  show (longOption.options.flatMap OutOption.bytes)[65531]? ≠ none
  rw [List.getElem?_eq_getElem (by rw [hbytes, hlength]; decide)]
  exact Option.some_ne_none _

/-- Of a message with 65535 payload bytes the four header bytes are sent, as a success,
and an option of 65529 bytes is stored into a buffer of none. -/
theorem longPayload_not_accounted :
    ¬ LengthAccounted longPayload ∧
    (∀ ctx remote, (coapMessageSend ctx remote longPayload ⟨true, 4, true, false, 0⟩).events =
      [.write remote [0x60, 0x01, 0x00, 0x00]]) ∧
    coapSerializeMessageLength longOption = 0 ∧
    ∃ n img, coapSerializeMessage longOption 0 = some (n, img) ∧ img 65531 ≠ none := by
  refine ⟨fun h => ?_, fun ctx remote => ?_, messageLength_longOption, serialize_longOption⟩
  · have hlen := h.length
    have hpay : longPayload.payload.1.length = 65535 := List.length_replicate
    have hne : longPayload.payload.1 ≠ [] := List.ne_nil_of_length_pos (by rw [hpay]; decide)
    rw [messageLength_longPayload, wireLength, if_neg hne, hpay] at hlen
    have h4 : (4 : UInt16).toNat = 4 := rfl
    omega
  · have hmax : ¬ coapMsgMaxPduLen < (4 : UInt16).toNat := by decide
    unfold coapMessageSend
    simp only [messageLength_longPayload, if_neg hmax, Bool.true_eq_false, if_false,
      serialize_longPayload]
    rw [write_events]
    rfl

end AliyunIot.Coap
