import AliyunIot.Lib.Sock
import AliyunIot.Mqtt.Client

/-!
# Reading one packet

`iotx_mc_read_packet`: header byte, remaining length, then the body into the
read buffer, or piecewise into nowhere when the packet is larger than the
buffer may become.

`iotxMcReadPacket_outcome`: a call takes one whole packet off the connection,
takes nothing, asks for the connection to be closed, or is in one of the
situations of `StopsInside`, where it has read a part of a packet and returns
some other code.
-/

namespace AliyunIot.Mqtt

open Lib
open Sock (Gives Drains)

/-! ## Read buffer -/

/-- `_alloc_recv_buffer(c, len)`. The old contents are copied. -/
def allocRecvBuffer (c : Client) (len : Nat) (mallocOk : Bool) : Int × Client :=
  let tmpLen := mqttDynbufRecvMargin + len
  let tmpLen := if tmpLen > c.bufSizeReadMax then c.bufSizeReadMax else tmpLen
  if !mallocOk then (State.sysDependMalloc, c)
  else
    let temp := List.replicate tmpLen 0
    let temp := match c.bufRead with
      | some old => storeAt temp 0 (old.take (min c.bufSizeRead tmpLen))
      | none => temp
    (State.success, { c with bufRead := some temp, bufSizeRead := tmpLen })

def resetRecvBuffer (c : Client) : Client :=
  if c.bufRead = none then c else { c with bufRead := none, bufSizeRead := 0 }

def storeRead (c : Client) (off : Nat) (bs : List UInt8) : Client :=
  { c with bufRead := c.bufRead.map (storeAt · off bs) }

/-! ## `iotx_mc_read_packet` -/

/-- Result of `iotx_mc_decode_packet`: return value, `*value` and the socket. -/
structure DecodeResult where
  rc : Int
  value : Nat
  sock : Sock

/-- The loop of `iotx_mc_decode_packet` from its `n`-th last length byte on. -/
def iotxMcDecodeLoop : Nat → Nat → Nat → Nat → Sock → DecodeResult
  | 0, _, value, _, s => ⟨State.mqttpacketReadError, value, s⟩
  | n + 1, len, value, multiplier, s =>
    let r := s.recv 1
    if r.rc ≤ State.success then ⟨State.sysDependNwkClose, value, r.sock⟩
    else
      let i := r.bytes.headD 0
      let value := value + (i &&& 127).toNat * multiplier
      if i &&& 128 ≠ 0 then iotxMcDecodeLoop n (len + 1) value (multiplier * 128) r.sock
      else ⟨(len : Int) + 1, value, r.sock⟩

def iotxMcDecodePacket (s : Sock) : DecodeResult :=
  iotxMcDecodeLoop maxNoOfRemainingLengthBytes 0 0 1 s

/-- The loop that reads an oversized body: whether no read fell short, the
buffer and the socket. A read buffer of size 0 is refused by `iotx_mc_init`. -/
def drainLoop (size remLen : Nat) (buf : List UInt8) (s : Sock) : Bool × List UInt8 × Sock :=
  let needReadLen := if remLen > size then size else remLen
  let r := s.recv needReadLen
  let buf := storeAt buf 0 r.bytes
  if r.rc ≠ needReadLen then (false, buf, r.sock)
  else if 0 < remLen - needReadLen ∧ 0 < size then
    drainLoop size (remLen - needReadLen) buf r.sock
  else (true, buf, r.sock)
termination_by remLen
decreasing_by split <;> omega

/-- Result of `iotx_mc_read_packet`; `packetType` is `none` when the call has
not assigned it. -/
structure ReadResult where
  rc : Int
  client : Client
  sock : Sock
  packetType : Option UInt8 := none
  calls : List Invocation := []

/-- The two allocations of `iotx_mc_read_packet`. -/
structure ReadIo where
  bufMalloc : Bool := true
  growMalloc : Bool := true

/-- The last part of `iotx_mc_read_packet`: the `remLen` bytes behind the `len`
bytes of the fixed header. -/
def readBody (c : Client) (remLen len : Nat) (s : Sock) : ReadResult :=
  if 0 < remLen ∧ remLen + len > c.bufSizeRead then
    let (ok, buf, s) := drainLoop c.bufSizeRead remLen (c.bufRead.getD []) s
    let c := { c with bufRead := some buf }
    if !ok then ⟨State.sysDependNwkReadError, c, s, some 0, []⟩
    else ⟨State.success, c, s, some 0, handleEvent c.handleEvent .bufferOverflow .text⟩
  else
    let r := s.recv remLen
    let c := storeRead c len r.bytes
    if 0 < remLen ∧ r.rc < 0 then { rc := State.sysDependNwkClose, client := c, sock := r.sock }
    else if 0 < remLen ∧ r.rc ≠ remLen then
      { rc := State.mqttPacketReadError, client := c, sock := r.sock }
    else
      let packetType := mqttHeaderGetType (memOf (c.bufRead.getD []) 0)
      let c := if len + remLen < c.bufSizeRead then storeRead c (len + remLen) [0] else c
      { rc := State.success, client := c, sock := r.sock, packetType := some packetType }

/-- `iotx_mc_read_packet` once the fixed header has been put into the buffer. -/
def readRest (c : Client) (io : ReadIo) (remLen len : Nat) (s : Sock) : ReadResult :=
  let (rc, c) := allocRecvBuffer c (remLen + len) io.growMalloc
  if rc < 0 then { rc := rc, client := c, sock := s }
  else readBody c remLen len s

def iotxMcReadPacket (c : Client) (io : ReadIo) (s : Sock) : ReadResult :=
  let (rc, c) := allocRecvBuffer c 0 io.bufMalloc
  if rc < 0 then { rc := rc, client := c, sock := s }
  else
    let r := s.recv 1
    let c := storeRead c 0 r.bytes
    if r.rc = 0 then { rc := State.success, client := c, sock := r.sock, packetType := some 0 }
    else if r.rc < State.success then { rc := State.sysDependNwkClose, client := c, sock := r.sock }
    else
      let d := iotxMcDecodePacket r.sock
      if d.rc < 0 then { rc := d.rc, client := c, sock := d.sock }
      else
        -- the remaining length goes back into the buffer in its shortest form
        let c := storeRead c 1 (mqttPacketEncode d.value)
        readRest c io d.value (1 + (mqttPacketEncode d.value).length) d.sock

/-! ## Situations -/

/-- The fixed header a read finds: a header byte and a remaining length of at
most four bytes, each delivered by a read of its own, before `rest`. -/
structure FixedHeader (reads : List Recv) (header : UInt8) (field : List UInt8)
    (rest : List Recv) : Prop where
  gives : Gives reads (header :: field) rest
  isField : Varint.IsField field
  length_le : field.length ≤ maxNoOfRemainingLengthBytes

/-- The bytes a packet takes in the read buffer. -/
def bufferedSize (remLen : Nat) : Nat := remLen + (1 + (mqttPacketEncode remLen).length)

/-- The read results that leave `iotx_mc_read_packet` inside a packet, with a
return value other than `STATE_SYS_DEPEND_NWK_CLOSE`. -/
inductive StopsInside (bufSizeReadMax : Nat) (io : ReadIo) (reads : List Recv) : Prop
  /-- Every one of four length bytes announces another one. -/
  | badLength {header : UInt8} {field : List UInt8} {rest : List Recv}
    (gives : Gives reads (header :: field) rest)
    (length : field.length = maxNoOfRemainingLengthBytes) (more : ∀ b ∈ field, 128 ≤ b.toNat)
  /-- There is no memory for the body. -/
  | noMemory {header : UInt8} {field : List UInt8} {rest : List Recv}
    (fixed : FixedHeader reads header field rest) (pos : 0 < Varint.value field)
    (malloc : io.growMalloc = false)
  /-- The body fits and its read falls short without an error. -/
  | shortBody {header : UInt8} {field bs : List UInt8} {rest : List Recv}
    (fixed : FixedHeader reads header field rest)
    (fits : bufferedSize (Varint.value field) ≤ bufSizeReadMax)
    (read : rest.headD (.data []) = .data bs) (short : bs.length < Varint.value field)
  /-- The body does not fit and one of the reads that drain it falls short or fails. -/
  | shortDrain {header : UInt8} {field : List UInt8} {rest : List Recv}
    (fixed : FixedHeader reads header field rest) (pos : 0 < Varint.value field)
    (large : bufSizeReadMax < bufferedSize (Varint.value field))
    (short : ¬ Drains bufSizeReadMax (Varint.value field) rest)

/-- The fixed header, its length in the shortest form, fits the read buffer. -/
def HeaderFits (bufSizeReadMax : Nat) (reads : List Recv) : Prop :=
  ∀ header field rest, FixedHeader reads header field rest →
    1 + (mqttPacketEncode (Varint.value field)).length ≤ bufSizeReadMax

/-! ## The parts of a read -/

theorem iotxMcDecodeLoop_cases (n len value multiplier : Nat) (s : Sock) :
    let d := iotxMcDecodeLoop n len value multiplier s
    d.rc = State.sysDependNwkClose ∨
    (d.rc = State.mqttpacketReadError ∧ ∃ field rest, Gives s.reads field rest ∧
      field.length = n ∧ ∀ b ∈ field, 128 ≤ b.toNat) ∨
    ∃ field rest, Gives s.reads field rest ∧ Varint.IsField field ∧ field.length ≤ n ∧
      d = ⟨((len + field.length : Nat) : Int), value + multiplier * Varint.value field,
        ⟨rest, s.consumed ++ field⟩⟩ := by
  induction n generalizing len value multiplier s with
  | zero => exact .inr (.inl ⟨rfl, [], s.reads, .nil _, rfl, fun b hb => by cases hb⟩)
  | succ n ih =>
    simp only [iotxMcDecodeLoop]
    rcases s.recv_one_cases with ⟨hrc, -⟩ | ⟨b, more, reads, hreads, hr⟩
    · rw [if_pos (show (s.recv 1).rc ≤ State.success from hrc)]
      exact .inl rfl
    rw [hr, hreads]
    simp only [List.headD_cons, low_bits, top_bit_ne_zero]
    rw [if_neg (show ¬ (1 : Int) ≤ State.success by decide)]
    by_cases hb : 128 ≤ b.toNat
    · rw [if_pos hb]
      rcases ih (len + 1) (value + b.toNat % 128 * multiplier) (multiplier * 128)
        ⟨reads, s.consumed ++ [b]⟩ with h | ⟨h, field, rest, hg, hl, hm⟩ |
          ⟨field, rest, hg, hf, hl, h⟩
      · exact .inl h
      · refine .inr (.inl ⟨h, b :: field, rest, .cons hg, by rw [List.length_cons, hl], ?_⟩)
        intro b' hb'
        rcases List.mem_cons.mp hb' with rfl | hb'
        · exact hb
        · exact hm b' hb'
      · have hne : field ≠ [] := by rintro rfl; exact hf
        refine .inr (.inr ⟨b :: field, rest, .cons hg, (Varint.isField_cons hne).mpr ⟨hb, hf⟩,
          by rw [List.length_cons]; omega, ?_⟩)
        rw [h]
        simp only [Varint.value, List.length_cons, List.append_assoc, List.singleton_append,
          DecodeResult.mk.injEq, and_true]
        refine ⟨by push_cast; omega, ?_⟩
        rw [Nat.mul_add, Nat.mul_comm (b.toNat % 128), Nat.mul_assoc]
        omega
    · rw [if_neg hb]
      refine .inr (.inr ⟨[b], reads, .cons (.nil _), Nat.lt_of_not_le hb, by simp, ?_⟩)
      simp only [Varint.value, List.length_cons, List.length_nil, DecodeResult.mk.injEq, and_true]
      refine ⟨by push_cast; omega, ?_⟩
      rw [Nat.mul_zero, Nat.add_zero, Nat.mul_comm]

theorem drainLoop_cases {size : Nat} (hsize : 0 < size) {remLen : Nat} (hrem : 0 < remLen)
    (buf : List UInt8) (s : Sock) :
    ((drainLoop size remLen buf s).1 = false ∧ ¬ Drains size remLen s.reads) ∨
    ((drainLoop size remLen buf s).1 = true ∧ ∃ body, body.length = remLen ∧
      (drainLoop size remLen buf s).2.2.consumed = s.consumed ++ body) := by
  induction remLen using Nat.strongRecOn generalizing buf s with
  | ind remLen ih =>
    unfold drainLoop
    generalize hneed : (if remLen > size then size else remLen) = need
    have hpos : 0 < need := by rw [← hneed]; split <;> omega
    simp only
    by_cases hrc : (s.recv need).rc ≠ need
    · rw [if_pos hrc]
      refine .inl ⟨rfl, fun hd => hrc ?_⟩
      rcases s with ⟨_ | ⟨r, reads⟩, consumed⟩
      · cases hd
      · cases hd with
        | last hn h =>
          rw [if_neg (by omega)] at hneed
          subst hneed
          simp only [Sock.recv, List.length_take, Nat.min_eq_left h]
        | more hn h hrest =>
          rw [if_pos hn] at hneed
          subst hneed
          simp only [Sock.recv, List.length_take, Nat.min_eq_left h]
    rw [if_neg hrc]
    obtain ⟨bs, reads, hreads, hlen, hr⟩ := Sock.recv_full hpos (not_not.mp hrc)
    rw [hr, hreads]
    by_cases hleft : 0 < remLen - need ∧ 0 < size
    · rw [if_pos hleft]
      rw [if_pos (by split at hneed <;> omega)] at hneed
      subst hneed
      rcases ih (remLen - size) (by omega) hleft.1 (storeAt buf 0 (bs.take size))
        ⟨reads, s.consumed ++ bs.take size⟩ with ⟨h, hd⟩ | ⟨h, body, hbody, hcons⟩
      · refine .inl ⟨h, fun hd' => ?_⟩
        cases hd' with
        | last hn _ => omega
        | more _ _ hrest => exact hd hrest
      · refine .inr ⟨h, bs.take size ++ body, ?_, by rw [hcons, List.append_assoc]⟩
        rw [List.length_append, List.length_take, hbody]
        omega
    · rw [if_neg hleft]
      refine .inr ⟨rfl, bs.take need, ?_, rfl⟩
      rw [List.length_take]
      split at hneed <;> omega

theorem allocRecvBuffer_cases (c : Client) (len : Nat) (mallocOk : Bool) :
    (mallocOk = false ∧ allocRecvBuffer c len mallocOk = (State.sysDependMalloc, c)) ∨
    (mallocOk = true ∧ ∃ temp, temp.length = min (mqttDynbufRecvMargin + len) c.bufSizeReadMax ∧
      (∀ old pre, c.bufRead = some old → c.bufSizeRead = old.length → pre <+: old →
        pre.length ≤ temp.length → pre <+: temp) ∧
      allocRecvBuffer c len mallocOk =
        (State.success, { c with bufRead := some temp, bufSizeRead := temp.length })) := by
  unfold allocRecvBuffer
  cases mallocOk
  · exact .inl ⟨rfl, rfl⟩
  refine .inr ⟨rfl, ?_⟩
  simp only [Bool.not_true, Bool.false_eq_true, if_false]
  generalize htmp : (if mqttDynbufRecvMargin + len > c.bufSizeReadMax then c.bufSizeReadMax
    else mqttDynbufRecvMargin + len) = tmpLen
  have hmin : tmpLen = min (mqttDynbufRecvMargin + len) c.bufSizeReadMax := by
    rw [← htmp]; split <;> omega
  rcases hold : c.bufRead with _ | old
  · exact ⟨List.replicate tmpLen 0, by rw [List.length_replicate, hmin],
      (fun _ _ h => by cases h), by rw [List.length_replicate]⟩
  · refine ⟨storeAt (List.replicate tmpLen 0) 0 (old.take (min c.bufSizeRead tmpLen)),
      by rw [length_storeAt, List.length_replicate, hmin], fun old' pre h hsize hpre hlen => ?_,
      by rw [length_storeAt, List.length_replicate]⟩
    obtain rfl : old = old' := Option.some.inj h
    rw [length_storeAt, List.length_replicate] at hlen
    have hp := prefix_storeAt (show [] <+: List.replicate tmpLen (0 : UInt8) from List.nil_prefix)
      (old.take (min c.bufSizeRead tmpLen))
      (by simp only [List.length_nil, List.length_take, List.length_replicate]; omega)
    refine List.IsPrefix.trans (List.prefix_take_iff.mpr ⟨hpre, ?_⟩) hp
    have := hpre.length_le
    omega

theorem memOf_zero_of_prefix {pre buf : List UInt8} (h : pre <+: buf) (hne : pre ≠ []) :
    memOf buf 0 = pre.headD 0 := by
  obtain ⟨t, rfl⟩ := h
  cases pre with
  | nil => exact absurd rfl hne
  | cons b pre => rfl

theorem readBody_cases (c : Client) (remLen : Nat) {buf pre : List UInt8} (s : Sock)
    (hbuf : c.bufRead = some buf) (hsize : buf.length = c.bufSizeRead) (hpre : pre <+: buf)
    (hne : pre ≠ []) : let r := readBody c remLen pre.length s
    r.rc = State.sysDependNwkClose ∨
    (r.rc ≠ State.success ∧ 0 < remLen ∧
      ((c.bufSizeRead < remLen + pre.length ∧ ¬ Drains c.bufSizeRead remLen s.reads) ∨
        (remLen + pre.length ≤ c.bufSizeRead ∧
          ∃ bs, s.reads.headD (.data []) = .data bs ∧ bs.length < remLen))) ∨
    ∃ body, body.length = remLen ∧ r.sock.consumed = s.consumed ++ body ∧
      (r.packetType = some 0 ∨
        (r.packetType = some (mqttHeaderGetType (pre.headD 0)) ∧
          ∃ buf', r.client.bufRead = some buf' ∧ buf'.length = r.client.bufSizeRead ∧
            pre ++ body <+: buf')) := by
  have hlen : 0 < pre.length := List.length_pos_iff.mpr hne
  have hle := hpre.length_le
  simp only [readBody, hbuf, Option.getD_some]
  by_cases hbig : 0 < remLen ∧ remLen + pre.length > c.bufSizeRead
  · rw [if_pos hbig]
    rcases drainLoop_cases (show 0 < c.bufSizeRead by omega) hbig.1 buf s with
      ⟨h, hd⟩ | ⟨h, body, hbody, hcons⟩
    · simp only [h, Bool.not_false, if_true]
      exact .inr (.inl ⟨by decide, hbig.1, .inl ⟨hbig.2, hd⟩⟩)
    · simp only [h, Bool.not_true, Bool.false_eq_true, if_false]
      exact .inr (.inr ⟨body, hbody, hcons, .inl trivial⟩)
  rw [if_neg hbig]
  by_cases hneg : 0 < remLen ∧ (s.recv remLen).rc < 0
  · rw [if_pos hneg]
    exact .inl rfl
  rw [if_neg hneg]
  by_cases hshort : 0 < remLen ∧ (s.recv remLen).rc ≠ remLen
  · rw [if_pos hshort]
    refine .inr (.inl ⟨show State.mqttPacketReadError ≠ State.success by decide, hshort.1,
      .inr ⟨by omega, ?_⟩⟩)
    rcases s with ⟨_ | ⟨bs | code, reads⟩, consumed⟩
    · exact ⟨[], rfl, hshort.1⟩
    · refine ⟨bs, rfl, ?_⟩
      have := hshort.2
      simp only [Sock.recv, List.length_take] at this
      omega
    · exact absurd ⟨hshort.1, Int.negSucc_lt_zero code⟩ hneg
  rw [if_neg hshort]
  have hbody : (s.recv remLen).bytes.length = remLen := by
    by_cases h0 : 0 < remLen
    · have := Sock.recv_nonneg (show 0 ≤ (s.recv remLen).rc by omega)
      omega
    · obtain rfl : remLen = 0 := by omega
      rw [Sock.recv_zero_bytes]; rfl
  have hroom : pre.length + (s.recv remLen).bytes.length ≤ buf.length := by omega
  have hstored := prefix_storeAt hpre _ hroom
  have hread : (storeRead c pre.length (s.recv remLen).bytes).bufRead =
      some (storeAt buf pre.length (s.recv remLen).bytes) := by
    simp only [storeRead, hbuf, Option.map_some]
  refine .inr (.inr ⟨(s.recv remLen).bytes, hbody, Sock.recv_consumed s remLen, .inr ⟨?_, ?_⟩⟩)
  · rw [hread, Option.getD_some,
      memOf_zero_of_prefix ((List.prefix_append _ _).trans hstored) hne]
  · split
    · next hnul =>
      have hlast := prefix_storeAt hstored [0] (by
        rw [length_storeAt, List.length_append, List.length_singleton, hbody, hsize]
        exact Nat.succ_le_of_lt hnul)
      rw [List.length_append, hbody] at hlast
      exact ⟨_, by simp only [storeRead, hbuf, Option.map_some],
        by rw [length_storeAt, length_storeAt]; exact hsize, (List.prefix_append _ _).trans hlast⟩
    · exact ⟨_, hread, by rw [length_storeAt]; exact hsize, hstored⟩

/-! ## What a read takes off the connection -/

/-- The packet as the read buffer holds it, its length in the shortest form. -/
def MqttPacket.buffered (p : MqttPacket) : List UInt8 :=
  p.header :: (mqttPacketEncode p.body.length ++ p.body)

/-- `p` lies in the read buffer. -/
def Buffered (p : MqttPacket) (c : Client) : Prop :=
  ∃ buf, c.bufRead = some buf ∧ buf.length = c.bufSizeRead ∧ p.buffered <+: buf

/-- The outcomes of `iotx_mc_read_packet`. -/
inductive ReadOutcome (c : Client) (io : ReadIo) (s : Sock) (r : ReadResult) : Prop
  | closed (rc : r.rc = State.sysDependNwkClose)
  | nothing (consumed : r.sock.consumed = s.consumed)
    (type : ∀ t, r.packetType = some t → t = 0)
  | whole (p : MqttPacket) (consumed : r.sock.consumed = s.consumed ++ p.bytes)
    (buffered : ∀ t, r.packetType = some t → t ≠ 0 → t = p.type ∧ Buffered p r.client)
  | inside (rc : r.rc ≠ State.success) (malloc : io.bufMalloc = true)
    (stops : StopsInside c.bufSizeReadMax io s.reads)

def FixedHeader.packet {reads rest : List Recv} {header : UInt8} {field body : List UInt8}
    (h : FixedHeader reads header field rest) (hbody : body.length = Varint.value field) :
    MqttPacket where
  header := header
  remLen := field
  body := body
  remLen_isField := h.isField
  remLen_length := h.length_le
  remLen_value := hbody.symm

theorem prefix_fixedHeader {temp enc : List UInt8} (header : UInt8)
    (h : 1 + enc.length ≤ temp.length) :
    header :: enc <+: storeAt (storeAt temp 0 [header]) 1 enc := by
  have h1 := prefix_storeAt (show [] <+: temp from List.nil_prefix) [header]
    (by simp only [List.length_nil, List.length_singleton]; omega)
  exact prefix_storeAt (show [header] <+: _ from h1) enc (by rw [length_storeAt]; exact h)

theorem readRest_cases (c : Client) (io : ReadIo) {reads rest : List Recv} {header : UInt8}
    {field buf pre : List UInt8} (hfixed : FixedHeader reads header field rest)
    (hpre : pre = header :: mqttPacketEncode (Varint.value field)) (hbuf : c.bufRead = some buf)
    (hsize : buf.length = c.bufSizeRead) (hfront : pre <+: buf)
    (hmax : pre.length ≤ c.bufSizeReadMax) (consumed : List UInt8) :
    let r := readRest c io (Varint.value field) pre.length ⟨rest, consumed⟩
    r.rc = State.sysDependNwkClose ∨
    (r.rc ≠ State.success ∧ StopsInside c.bufSizeReadMax io reads) ∨
    ∃ p : MqttPacket, p.header = header ∧ p.remLen = field ∧
      r.sock.consumed = consumed ++ p.body ∧
      ∀ t, r.packetType = some t → t ≠ 0 → t = p.type ∧ Buffered p r.client := by
  have hlen : pre.length = 1 + (mqttPacketEncode (Varint.value field)).length := by
    rw [hpre, List.length_cons, Nat.add_comm]
  have hsz : bufferedSize (Varint.value field) = Varint.value field + pre.length := by
    rw [bufferedSize, hlen]
  unfold readRest
  rcases allocRecvBuffer_cases c (Varint.value field + pre.length) io.growMalloc with
    ⟨hgrow, e⟩ | ⟨hgrow, temp, htemp, hkeep, e⟩
  · rw [e]
    by_cases h0 : 0 < Varint.value field
    · exact .inr (.inl ⟨show State.sysDependMalloc ≠ State.success by decide,
        .noMemory hfixed h0 hgrow⟩)
    · have hempty : ([] : List UInt8).length = Varint.value field := by
        rw [List.length_nil]
        omega
      exact .inr (.inr ⟨hfixed.packet hempty, rfl, rfl, (List.append_nil _).symm,
        fun t h => by cases h⟩)
  rw [e]
  simp only [if_neg (show ¬ State.success < 0 by decide)]
  have hroom : pre.length ≤ temp.length := by rw [htemp]; omega
  rcases readBody_cases { c with bufRead := some temp, bufSizeRead := temp.length }
    (Varint.value field) ⟨rest, consumed⟩ rfl rfl
    (hkeep buf pre hbuf hsize.symm hfront hroom) (by rw [hpre]; exact List.cons_ne_nil _ _) with
    h | ⟨hrc, hpos, hstop⟩ | ⟨body, hbody, hcons, htype⟩
  · exact .inl h
  · refine .inr (.inl ⟨hrc, ?_⟩)
    rcases hstop with ⟨hbig, hd⟩ | ⟨hsmall, bs, hbs, hshort⟩
    · have hmaxlen : temp.length = c.bufSizeReadMax := by
        simp only [mqttDynbufRecvMargin] at htemp hbig
        omega
      simp only [hmaxlen] at hbig hd
      exact .shortDrain hfixed hpos (by omega) hd
    · simp only at hsmall
      exact .shortBody hfixed (by omega) hbs hshort
  · refine .inr (.inr ⟨hfixed.packet hbody, rfl, rfl, hcons, fun t ht hne => ?_⟩)
    rcases htype with h0 | ⟨hty, buf', hb, hl, hp⟩
    · rw [h0] at ht
      exact absurd (Option.some.inj ht).symm hne
    · rw [hty] at ht
      refine ⟨?_, buf', hb, hl, ?_⟩
      · rw [← Option.some.inj ht, hpre]; rfl
      · rw [hpre] at hp
        simpa only [MqttPacket.buffered, FixedHeader.packet, hbody, List.cons_append] using hp

theorem iotxMcReadPacket_outcome {c : Client} (io : ReadIo) {s : Sock}
    (hfit : HeaderFits c.bufSizeReadMax s.reads) :
    ReadOutcome c io s (iotxMcReadPacket c io s) := by
  unfold iotxMcReadPacket
  rcases allocRecvBuffer_cases c 0 io.bufMalloc with ⟨-, e⟩ | ⟨hm, temp, hlen, -, e⟩
  · rw [e]
    exact .nothing rfl fun t h => by cases h
  rw [e]
  simp only [if_neg (show ¬ State.success < 0 by decide)]
  rcases s.recv_one_cases with ⟨hrc, hcons⟩ | ⟨header, more, reads, hreads, hr⟩
  · by_cases h0 : (s.recv 1).rc = 0
    · rw [if_pos h0]
      exact .nothing hcons fun t h => (Option.some.inj h).symm
    · rw [if_neg h0, if_pos (show (s.recv 1).rc < State.success by
        have : State.success = 0 := rfl
        omega)]
      exact .closed rfl
  rw [hr]
  simp only [if_neg (show ¬ (1 : Int) = 0 by decide),
    if_neg (show ¬ (1 : Int) < State.success by decide)]
  have hgives : ∀ {field rest}, Gives reads field rest → Gives s.reads (header :: field) rest :=
    fun h => hreads ▸ .cons h
  rcases iotxMcDecodeLoop_cases maxNoOfRemainingLengthBytes 0 0 1
    ⟨reads, s.consumed ++ [header]⟩ with
    hd | ⟨hd, field, rest, hg, hl, hmore⟩ | ⟨field, rest, hg, hf, hl, hd⟩
  · rw [if_pos (show (iotxMcDecodePacket _).rc < 0 from hd ▸ State.sysDependNwkClose_lt)]
    exact .closed hd
  · rw [if_pos (show (iotxMcDecodePacket _).rc < 0 from hd ▸ (by decide))]
    have hne : (iotxMcDecodePacket ⟨reads, s.consumed ++ [header]⟩).rc ≠ State.success :=
      hd ▸ (by decide)
    exact .inside hne hm (.badLength (hgives hg) hl hmore)
  have hd' : iotxMcDecodePacket ⟨reads, s.consumed ++ [header]⟩ =
      ⟨(field.length : Nat), Varint.value field, ⟨rest, s.consumed ++ [header] ++ field⟩⟩ := by
    rw [iotxMcDecodePacket, hd, Nat.zero_add, Nat.zero_add, Nat.one_mul]
  have hfixed : FixedHeader s.reads header field rest := ⟨hgives hg, hf, hl⟩
  have hroom := hfit header field rest hfixed
  rw [hd']
  simp only [if_neg (show ¬ ((field.length : Nat) : Int) < 0 by omega)]
  have henc : (mqttPacketEncode (Varint.value field)).length ≤ 4 := by
    rw [mqttPacketEncode_eq]
    exact Nat.le_trans (Varint.length_encode_le_of_isField hf) hl
  generalize hpre : header :: mqttPacketEncode (Varint.value field) = pre
  have hprelen : pre.length = 1 + (mqttPacketEncode (Varint.value field)).length := by
    rw [← hpre, List.length_cons, Nat.add_comm]
  have hfront : pre <+: storeAt (storeAt temp 0 [header]) 1
    (mqttPacketEncode (Varint.value field)) :=
    hpre ▸ prefix_fixedHeader header (by rw [hlen]; simp only [mqttDynbufRecvMargin]; omega)
  rw [← hprelen]
  rcases readRest_cases (storeRead (storeRead
      { c with bufRead := some temp, bufSizeRead := temp.length } 0 [header]) 1
      (mqttPacketEncode (Varint.value field))) io hfixed hpre.symm rfl
    (by rw [length_storeAt, length_storeAt]; rfl) hfront (hprelen ▸ hroom)
    (s.consumed ++ [header] ++ field) with h | ⟨hrc, hstop⟩ | ⟨p, hhead, hfield, hcons, hbuf⟩
  · exact .closed h
  · exact .inside hrc hm hstop
  · refine .whole p ?_ hbuf
    rw [hcons, MqttPacket.bytes, hhead, hfield]
    simp only [List.append_assoc, List.cons_append, List.nil_append]

end AliyunIot.Mqtt
