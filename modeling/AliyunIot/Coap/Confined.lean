import AliyunIot.Coap.Datagram

/-!
# Decoding stays inside the datagram

`DecodesDatagram` is what the receive path relies on: no load at or past
`buf[buflen]`, a result that depends on the datagram only, and a decoded
message that accounts for every byte. `decodesDatagram_iff` is the exact class
of datagrams on which `CoAPDeserialize_Message` does so.
-/

namespace AliyunIot.Coap

open Lib

/-- The decoded message accounts for the datagram: header and token, options
one behind the other up to `last`, then the end or a marker and the payload. -/
def Accounted (buf : Mem) (buflen : Int) (msg : CoapMessage) : Prop :=
  ∃ header last, msg.header = some header ∧ header.tokenlen.toNat ≤ coapMsgMaxTokenLen ∧
    msg.options.length ≤ coapMsgMaxOptionNum ∧
    (∀ o ∈ msg.options, ((o.val + o.len.toNat : Nat) : Int) ≤ buflen) ∧
    Tiles (4 + header.tokenlen.toNat) msg.options last ∧
    ((msg.payload = none ∧ (last : Int) = buflen) ∨
      ∃ n : UInt16, buf last = 0xFF ∧ msg.payload = some (last + 1) ∧ msg.payloadlen = some n ∧
        ((last + 1 + n.toNat : Nat) : Int) = buflen)

/-- Decoding is confined to the datagram `buf[0..buflen)`. -/
structure DecodesDatagram (buf : Mem) (buflen : Int) : Prop where
  reads : ∀ a ∈ Probe.reads buf (coapDeserializeMessage buflen), (a : Int) < buflen
  agree : ∀ buf' : Mem, (∀ a : Nat, (a : Int) < buflen → buf' a = buf a) →
    Probe.value buf' (coapDeserializeMessage buflen) =
      Probe.value buf (coapDeserializeMessage buflen)
  accounted : (Probe.value buf (coapDeserializeMessage buflen)).1 = coapSuccess →
    Accounted buf buflen (Probe.value buf (coapDeserializeMessage buflen)).2

def tokenLen (d : List UInt8) : Nat := (d.getD 0 0 &&& 0x0F).toNat

/-- The datagrams that are decoded in bounds and completely: too short for a
header, or with the token bytes that are copied and then rejected for the token
or the options, or ended by a marker and a payload. -/
def Decodable (d : List UInt8) : Prop :=
  d.length < 4 ∨
  (4 + min coapMsgMaxTokenLen (tokenLen d) ≤ d.length ∧
    (d.length < 4 + tokenLen d ∨
      shape coapMsgMaxOptionNum (d.drop (4 + tokenLen d)) = .rejected ∨
      ∃ n, n ≤ 65535 ∧ tokenLen d ≤ coapMsgMaxTokenLen ∧
        shape coapMsgMaxOptionNum (d.drop (4 + tokenLen d)) = .marker n))

theorem reads_loadBytes (m : Mem) (buf n : Nat) :
    Probe.reads m (loadBytes buf n) = List.range' buf n := by
  induction n generalizing buf with
  | zero => rfl
  | succ n ih =>
    simp only [loadBytes, Probe.reads_bind, ih, Probe.reads_pure, Probe.reads_load,
      List.append_nil, List.range'_succ, List.singleton_append]

section
variable {buf : Mem} {n : Nat}

theorem decodesDatagram_of_confined (hc : Probe.Confined buf 0 n (coapDeserializeMessage n))
    (ha : (Probe.value buf (coapDeserializeMessage n)).1 = coapSuccess →
      Accounted buf n (Probe.value buf (coapDeserializeMessage n)).2) :
    DecodesDatagram buf n where
  reads a h := by have := (hc a h).2; omega
  agree buf' h := hc.value_congr fun a _ hlt => h a (by omega)
  accounted := ha

theorem not_decodesDatagram_of_read (h : n ∈ Probe.reads buf (coapDeserializeMessage n)) :
    ¬ DecodesDatagram buf n :=
  fun hd => absurd (hd.reads n h) (by omega)

theorem error_ne_success : coapErrorInvalidLength ≠ coapSuccess := by decide

def headerAt (m : Mem) : CoapMsgHeader := Probe.value m (coapDeserializeHeader 0)

theorem reads_header (m : Mem) : Probe.reads m (coapDeserializeHeader 0) = [0, 1, 2, 3] := rfl

theorem tokenlen_headerAt (hn : 4 ≤ n) :
    (headerAt buf).tokenlen.toNat = tokenLen (slice buf 0 n) := by
  obtain ⟨k, rfl⟩ : ∃ k, n = k + 1 := ⟨n - 1, by omega⟩
  rw [slice_succ]; rfl

theorem message_of_token_cut (hn : 4 ≤ n) (h : n < 4 + (headerAt buf).tokenlen.toNat) :
    Probe.value buf (coapDeserializeMessage n) = (coapErrorInvalidLength,
      { header := some (headerAt buf),
        token := Probe.value buf (coapDeserializeToken (headerAt buf).tokenlen.toNat 4) }) ∧
    Probe.reads buf (coapDeserializeMessage n) = [0, 1, 2, 3] ++
      Probe.reads buf (coapDeserializeToken (headerAt buf).tokenlen.toNat 4) := by
  have h4 : ¬ (n : Int) < 4 := by omega
  have hc : ((headerAt buf).tokenlen.toNat : Int) > (n : Int) - 4 := by omega
  unfold headerAt at hc
  unfold coapDeserializeMessage
  simp only [if_neg h4, Probe.value_bind, Probe.reads_bind, reads_header, if_pos hc,
    Probe.value_pure, Probe.reads_pure, List.append_nil]
  exact ⟨rfl, rfl⟩

/-- The option loop of a message whose token fits. -/
def optionsRun (buf : Mem) (n : Nat) : Probe (List CoapMsgOption × Option Nat) :=
  coapDeserializeOptions coapMsgMaxOptionNum (4 + (headerAt buf).tokenlen.toNat)
    ((n : Int) - 4 - (headerAt buf).tokenlen.toNat) 0

def decodedHead (buf : Mem) (n : Nat) : CoapMessage :=
  { header := some (headerAt buf),
    token := Probe.value buf (coapDeserializeToken (headerAt buf).tokenlen.toNat 4),
    options := (Probe.value buf (optionsRun buf n)).1 }

/-- The loads of a message up to its options. -/
def headReads (buf : Mem) (n : Nat) : List Nat :=
  [0, 1, 2, 3] ++ (Probe.reads buf (coapDeserializeToken (headerAt buf).tokenlen.toNat 4) ++
    Probe.reads buf (optionsRun buf n))

theorem message_run (hn : 4 ≤ n) (h : 4 + (headerAt buf).tokenlen.toNat ≤ n) :
    let rest := coapDeserializeEnd (decodedHead buf n) (4 + (headerAt buf).tokenlen.toNat)
      ((n : Int) - 4 - (headerAt buf).tokenlen.toNat) (Probe.value buf (optionsRun buf n)).2
    Probe.value buf (coapDeserializeMessage n) = Probe.value buf rest ∧
    Probe.reads buf (coapDeserializeMessage n) = headReads buf n ++ Probe.reads buf rest := by
  have h4 : ¬ (n : Int) < 4 := by omega
  have hc : ¬ ((headerAt buf).tokenlen.toNat : Int) > (n : Int) - 4 := by omega
  unfold headerAt at hc
  unfold coapDeserializeMessage
  simp only [if_neg h4, Probe.value_bind, Probe.reads_bind, reads_header, if_neg hc]
  refine ⟨rfl, ?_⟩
  simp only [headReads, List.append_assoc]
  rfl

section
variable {msg : CoapMessage} {ptr last : Nat} {remlen : Int}

theorem end_of_over (h : ((last - ptr : Nat) : Int) > remlen) :
    coapDeserializeEnd msg ptr remlen (some last) = pure (coapErrorInvalidLength, msg) := if_pos h

theorem end_of_le (h : ¬ ((last - ptr : Nat) : Int) > remlen) :
    Probe.reads buf (coapDeserializeEnd msg ptr remlen (some last)) = [last] ∧
    (buf last = 0xFF → Probe.value buf (coapDeserializeEnd msg ptr remlen (some last)) =
      (coapSuccess,
        { msg with
          payloadlen := some (UInt16.ofInt (remlen - (last - ptr : Nat) - 1))
          payload := some (last + 1) })) ∧
    (buf last ≠ 0xFF → Probe.value buf (coapDeserializeEnd msg ptr remlen (some last)) =
      (coapSuccess, { msg with payloadlen := none, payload := none })) := by
  simp only [coapDeserializeEnd, if_neg h, coapDeserializePayload, Probe.value_bind,
    Probe.reads_bind, Probe.reads_load, Probe.value_pure, Probe.reads_pure]
  refine ⟨?_, fun hff => ?_, fun hff => ?_⟩
  · split <;> rfl
  · have hff' : Probe.value buf (Probe.load last) = 0xFF := hff
    rw [if_pos hff']; rfl
  · have hff' : ¬ Probe.value buf (Probe.load last) = 0xFF := hff
    rw [if_neg hff']; rfl

end

theorem confined_token {t : Nat} (h : 4 + min coapMsgMaxTokenLen t ≤ n) :
    Probe.Confined buf 0 n (coapDeserializeToken t 4) := by
  intro a ha
  rw [coapDeserializeToken, reads_loadBytes, List.mem_range'_1] at ha
  split at ha <;> omega

theorem holds_options : Holds buf (4 + (headerAt buf).tokenlen.toNat)
      ((slice buf 0 n).drop (4 + (headerAt buf).tokenlen.toNat)) := by
  have := holds_drop (holds_slice buf 0 n) (4 + (headerAt buf).tokenlen.toNat)
  rwa [Nat.zero_add] at this

theorem optionsRun_spec (h : 4 + (headerAt buf).tokenlen.toNat ≤ n) :
    OptionsSpec buf (4 + (headerAt buf).tokenlen.toNat)
      ((slice buf 0 n).drop (4 + (headerAt buf).tokenlen.toNat)) (optionsRun buf n)
      (shape coapMsgMaxOptionNum ((slice buf 0 n).drop (4 + (headerAt buf).tokenlen.toNat))) := by
  have hleft : ((n : Int) - 4 - (headerAt buf).tokenlen.toNat) =
      (((slice buf 0 n).drop (4 + (headerAt buf).tokenlen.toNat)).length : Nat) := by
    rw [List.length_drop, length_slice]; omega
  have hs := options_spec coapMsgMaxOptionNum (@holds_options buf n) 0
  rwa [← hleft] at hs

theorem mem_headReads {a : Nat} : a ∈ headReads buf n ↔ a ∈ [0, 1, 2, 3] ∨
    a ∈ Probe.reads buf (coapDeserializeToken (headerAt buf).tokenlen.toNat 4) ∨
    a ∈ Probe.reads buf (optionsRun buf n) := by
  simp only [headReads, List.mem_append]

theorem confined_headReads (h : 4 + (headerAt buf).tokenlen.toNat ≤ n)
    (hc : Probe.Confined buf (4 + (headerAt buf).tokenlen.toNat) n (optionsRun buf n)) {a : Nat}
    (ha : a ∈ headReads buf n) : 0 ≤ a ∧ a < n := by
  rcases mem_headReads.mp ha with ha | ha | ha
  · simp only [List.mem_cons, List.not_mem_nil, or_false] at ha
    omega
  · exact confined_token (by omega) a ha
  · exact ⟨Nat.zero_le a, (hc a ha).2⟩

/-! ## The end of a message, by the shape of its options -/

theorem decodesDatagram_of_rejected (hn : 4 ≤ n) (h : 4 + (headerAt buf).tokenlen.toNat ≤ n)
    (hc : Probe.Confined buf (4 + (headerAt buf).tokenlen.toNat) n (optionsRun buf n))
    (hover : ∀ last, (Probe.value buf (optionsRun buf n)).2 = some last → n < last) :
    DecodesDatagram buf n := by
  obtain ⟨hv, hr⟩ := message_run hn h
  have hrest : coapDeserializeEnd (decodedHead buf n) (4 + (headerAt buf).tokenlen.toNat)
      ((n : Int) - 4 - (headerAt buf).tokenlen.toNat) (Probe.value buf (optionsRun buf n)).2 =
        pure (coapErrorInvalidLength, decodedHead buf n) := by
    cases hl : (Probe.value buf (optionsRun buf n)).2 with
    | none => rfl
    | some last =>
      have := hover last hl
      exact end_of_over (by omega)
  rw [hrest] at hv hr
  refine decodesDatagram_of_confined (fun a ha => ?_) fun hs => ?_
  · rw [hr, Probe.reads_pure, List.append_nil] at ha
    exact confined_headReads h hc ha
  · rw [hv, Probe.value_pure] at hs
    exact absurd hs error_ne_success

theorem not_decodesDatagram_of_exhausted (hn : 4 ≤ n) (h : 4 + (headerAt buf).tokenlen.toNat ≤ n)
    (hl : (Probe.value buf (optionsRun buf n)).2 = some n) : ¬ DecodesDatagram buf n := by
  apply not_decodesDatagram_of_read
  have hr := (message_run hn h).2
  rw [hl] at hr
  rw [hr, (end_of_le (by omega)).1]
  exact List.mem_append_right _ (List.mem_singleton.mpr rfl)

section
variable {last : Nat} (hn : 4 ≤ n) (h : 4 + (headerAt buf).tokenlen.toNat ≤ n)
  (hl : (Probe.value buf (optionsRun buf n)).2 = some last) (hlt : last < n)
  (ht : Tiles (4 + (headerAt buf).tokenlen.toNat) (Probe.value buf (optionsRun buf n)).1 last)
include hn h hl hlt ht

theorem message_marker (hff : buf last = 0xFF) :
    Probe.value buf (coapDeserializeMessage n) = (coapSuccess,
      { decodedHead buf n with
        payloadlen := some (UInt16.ofInt ((n - last - 1 : Nat) : Int))
        payload := some (last + 1) }) ∧
    Probe.reads buf (coapDeserializeMessage n) = headReads buf n ++ [last] := by
  have hstart := ht.le
  have hin : ¬ ((last - (4 + (headerAt buf).tokenlen.toNat) : Nat) : Int) >
      (n : Int) - 4 - (headerAt buf).tokenlen.toNat := by omega
  have hpay : (n : Int) - 4 - (headerAt buf).tokenlen.toNat -
      ((last - (4 + (headerAt buf).tokenlen.toNat) : Nat) : Int) - 1 =
        ((n - last - 1 : Nat) : Int) := by omega
  obtain ⟨hv, hr⟩ := message_run hn h
  rw [hl] at hv hr
  rw [(end_of_le hin).1] at hr
  rw [(end_of_le hin).2.1 hff, hpay] at hv
  exact ⟨hv, hr⟩

theorem decodesDatagram_of_marker (hff : buf last = 0xFF)
    (hc : Probe.Confined buf (4 + (headerAt buf).tokenlen.toNat) n (optionsRun buf n))
    (hlen : n - last - 1 ≤ 65535) (htok : (headerAt buf).tokenlen.toNat ≤ coapMsgMaxTokenLen) :
    DecodesDatagram buf n := by
  obtain ⟨hv, hr⟩ := message_marker hn h hl hlt ht hff
  refine decodesDatagram_of_confined (fun a ha => ?_) fun _ => ?_
  · rw [hr] at ha
    rcases List.mem_append.mp ha with ha | ha
    · exact confined_headReads h hc ha
    · rw [List.mem_singleton] at ha
      omega
  · rw [hv]
    refine ⟨headerAt buf, last, rfl, htok, length_coapDeserializeOptions .., fun o ho => ?_, ht,
      .inr ⟨_, hff, rfl, rfl, ?_⟩⟩
    · have := (ht.value_le ho).2
      omega
    · have hofInt : (UInt16.ofInt ((n - last - 1 : Nat) : Int)).toNat = n - last - 1 := by
        rw [UInt16.ofInt, UInt16.toNat_ofNat']
        omega
      rw [hofInt]
      omega

theorem marker_le_of_decodesDatagram (hff : buf last = 0xFF) (hd : DecodesDatagram buf n) :
    n - last - 1 ≤ 65535 ∧ (headerAt buf).tokenlen.toNat ≤ coapMsgMaxTokenLen := by
  have hv := (message_marker hn h hl hlt ht hff).1
  have hacc := hd.accounted (by rw [hv])
  rw [hv] at hacc
  obtain ⟨header, last', hh, htok, -, -, ht', hrest⟩ := hacc
  cases hh
  obtain rfl := ht.unique ht'
  rcases hrest with ⟨hnone, -⟩ | ⟨m, -, -, hlen, hm⟩
  · cases hnone
  · cases hlen
    have := (UInt16.ofInt ((n - last - 1 : Nat) : Int)).toNat_lt
    exact ⟨by omega, htok⟩

theorem not_decodesDatagram_of_full (hff : buf last ≠ 0xFF) : ¬ DecodesDatagram buf n := by
  intro hd
  have hstart := ht.le
  have hin : ¬ ((last - (4 + (headerAt buf).tokenlen.toNat) : Nat) : Int) >
      (n : Int) - 4 - (headerAt buf).tokenlen.toNat := by omega
  have hv := (message_run hn h).1
  rw [hl, (end_of_le hin).2.2 hff] at hv
  have hacc := hd.accounted (by rw [hv])
  rw [hv] at hacc
  obtain ⟨header, last', hh, -, -, -, ht', hrest⟩ := hacc
  cases hh
  obtain rfl := ht.unique ht'
  rcases hrest with ⟨-, hlast⟩ | ⟨m, -, hp, -⟩
  · omega
  · cases hp

end

theorem decodesDatagram_of_token (hn : 4 ≤ n) (h : 4 + (headerAt buf).tokenlen.toNat ≤ n) :
    DecodesDatagram buf n ↔
      (shape coapMsgMaxOptionNum
          ((slice buf 0 n).drop (4 + (headerAt buf).tokenlen.toNat)) = .rejected ∨
        ∃ k, k ≤ 65535 ∧ (headerAt buf).tokenlen.toNat ≤ coapMsgMaxTokenLen ∧
          shape coapMsgMaxOptionNum
            ((slice buf 0 n).drop (4 + (headerAt buf).tokenlen.toNat)) = .marker k) := by
  have hspec := optionsRun_spec h
  have hend : 4 + (headerAt buf).tokenlen.toNat +
      ((slice buf 0 n).drop (4 + (headerAt buf).tokenlen.toNat)).length = n := by
    rw [List.length_drop, length_slice]; omega
  generalize shape coapMsgMaxOptionNum
    ((slice buf 0 n).drop (4 + (headerAt buf).tokenlen.toNat)) = sh at hspec ⊢
  cases sh <;> simp only [OptionsSpec, hend] at hspec
  case cut =>
    refine ⟨fun hd => absurd hd (not_decodesDatagram_of_read ?_), by simp⟩
    rw [(message_run hn h).2]
    exact List.mem_append_left _ (mem_headReads.mpr (.inr (.inr hspec)))
  case rejected =>
    exact ⟨fun _ => .inl rfl, fun _ => decodesDatagram_of_rejected hn h hspec.1 hspec.2⟩
  case exhausted =>
    exact ⟨fun hd => absurd hd (not_decodesDatagram_of_exhausted hn h hspec.2), by simp⟩
  case marker k =>
    obtain ⟨hc, last, hl, hk, hff, ht⟩ := hspec
    obtain rfl : k = n - last - 1 := by omega
    constructor
    · intro hd
      obtain ⟨hlen, htok⟩ := marker_le_of_decodesDatagram hn h hl (by omega) ht hff hd
      exact .inr ⟨_, hlen, htok, rfl⟩
    · rintro (hs | ⟨k, hlen, htok, hs⟩)
      · cases hs
      · rw [← Shape.marker.inj hs] at hlen
        exact decodesDatagram_of_marker hn h hl (by omega) ht hff hc hlen htok
  case full =>
    obtain ⟨-, last, hl, hlt, hff, ht⟩ := hspec
    exact ⟨fun hd => absurd hd (not_decodesDatagram_of_full hn h hl hlt ht hff), by simp⟩

/-- `CoAPDeserialize_Message` is confined to the datagram and accounts for it
exactly on the decodable ones. -/
theorem decodesDatagram_iff (buf : Mem) (buflen : Int) :
    DecodesDatagram buf buflen ↔ Decodable (slice buf 0 buflen.toNat) := by
  rw [Decodable, length_slice]
  by_cases h4 : buflen < 4
  · refine iff_of_true ?_ (.inl (by omega))
    have hm : coapDeserializeMessage buflen = pure (coapErrorInvalidLength, {}) := if_pos h4
    exact ⟨by rw [hm]; exact fun a ha => absurd ha List.not_mem_nil,
      fun _ _ => by rw [hm]; rfl, by rw [hm]; exact fun hs => absurd hs error_ne_success⟩
  obtain ⟨n, rfl⟩ : ∃ n : Nat, buflen = n := ⟨buflen.toNat, by omega⟩
  have hn : 4 ≤ n := by omega
  rw [Int.toNat_natCast, ← tokenlen_headerAt hn, or_iff_right (by omega)]
  by_cases htok : n < 4 + (headerAt buf).tokenlen.toNat
  · obtain ⟨hv, hr⟩ := message_of_token_cut hn htok
    constructor
    · intro hd
      refine ⟨?_, .inl htok⟩
      refine Nat.le_of_not_lt fun hlt => not_decodesDatagram_of_read ?_ hd
      rw [hr, coapDeserializeToken, reads_loadBytes]
      refine List.mem_append_right _ (List.mem_range'_1.mpr ?_)
      split <;> omega
    · intro hc
      refine decodesDatagram_of_confined (fun a ha => ?_) fun hs => ?_
      · rw [hr] at ha
        rcases List.mem_append.mp ha with ha | ha
        · simp only [List.mem_cons, List.not_mem_nil, or_false] at ha
          omega
        · exact confined_token hc.1 a ha
      · rw [hv] at hs
        exact absurd hs error_ne_success
  · rw [decodesDatagram_of_token hn (by omega), or_iff_right htok]
    exact ⟨fun hs => ⟨by omega, hs⟩, fun hs => hs.2⟩

end

/-- An empty acknowledgement, and the same four bytes with a `0xFF` behind them. -/
def emptyAck : Mem := fun i => [0x60, 0x00, 0x00, 0x01].getD i 0
def emptyAckMarker : Mem := fun i => [0x60, 0x00, 0x00, 0x01, 0xFF].getD i 0

/-- The byte behind an empty acknowledgement is read, and a `0xFF` there makes
a payload of 65535 bytes. -/
theorem emptyAck_not_decodesDatagram :
    (∀ a : Nat, (a : Int) < 4 → emptyAckMarker a = emptyAck a) ∧
    Probe.reads emptyAck (coapDeserializeMessage 4) = [0, 1, 2, 3, 4] ∧
    (Probe.value emptyAck (coapDeserializeMessage 4)).1 = coapSuccess ∧
    (Probe.value emptyAck (coapDeserializeMessage 4)).2.payloadlen = none ∧
    (Probe.value emptyAckMarker (coapDeserializeMessage 4)).2.payloadlen = some 65535 ∧
    ¬ DecodesDatagram emptyAck 4 := by
  refine ⟨fun a ha => ?_, by decide, by decide, by decide, by decide, fun hd => ?_⟩
  · obtain rfl | rfl | rfl | rfl : a = 0 ∨ a = 1 ∨ a = 2 ∨ a = 3 := by omega
    all_goals rfl
  · exact absurd (hd.reads 4 (by decide)) (by decide)

end AliyunIot.Coap
