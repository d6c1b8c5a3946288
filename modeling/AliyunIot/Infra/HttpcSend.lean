import AliyunIot.Infra.CharBuf
import AliyunIot.Infra.Format
import AliyunIot.Infra.State

/-!
# Sending an HTTP request

`_utils_fill_tx_buffer` puts strings into a buffer of 1024 bytes and writes it out when it is full.
Any result but zero ends the call, a complete write as well, and after zero the buffer stays full:
nothing is lost up to an error (`conserves`), but a longer text is only ever ended by an error.
`_http_send_header` looks at the result of its first call only (`buffering_iff`).
-/

namespace AliyunIot.Httpc.Send

open Format

abbrev httpclientSendBufSize : Nat := 1024

/-- A result of the write of the transport: all the bytes, none, or an error. -/
inductive Write where
  | complete
  | zero
  | error (code : Nat)
  deriving DecidableEq

/-- The value that it returns for `len` bytes. -/
def Write.ret (len : Nat) : Write → Int
  | .complete => len
  | .zero => 0
  | .error code => Int.negSucc code

/-- The buffer of a request, and the writes that were made with their results. -/
structure Tx where
  sendBuf : CharBuf
  sendIdx : Nat
  writes : List (List UInt8 × Write)

/-- A call returns, or it is not over. -/
inductive Ends where
  | returned (ret : Int)
  | unfinished

namespace Tx

def start : Tx := ⟨CharBuf.zeros httpclientSendBufSize, 0, []⟩

/-- The bytes that the transport has taken. -/
def sent (s : Tx) : List UInt8 := (s.writes.filter (·.2 = .complete)).flatMap (·.1)

def pending (s : Tx) : List UInt8 := s.sendBuf.take s.sendIdx

/-- One more write; `results` are those of the transport in turn. -/
def write (s : Tx) (results : Nat → Write) (data : List UInt8) : Tx :=
  { s with writes := s.writes ++ [(data, results s.writes.length)] }

end Tx

section Model

variable (results : Nat → Write)

/-- The loop of `_utils_fill_tx_buffer`; `buf` is not moved on. -/
def fillLoop (buf : List UInt8) : Nat → Nat → Nat → Tx → Ends × Tx
  | 0, _, _, s => (.unfinished, s)
  | fuel + 1, idx, len, s =>
    let cpLen := if len ≤ httpclientSendBufSize - idx then len else httpclientSendBufSize - idx
    let sendBuf := s.sendBuf.put idx (buf.take cpLen)
    if idx + cpLen = httpclientSendBufSize then
      let ret := (results s.writes.length).ret httpclientSendBufSize
      let s := { s with sendBuf := sendBuf }.write results sendBuf
      if ret ≠ 0 then (.returned ret, s)
      else if len - cpLen ≠ 0 then fillLoop buf fuel (idx + cpLen) (len - cpLen) s
      else (.returned State.success, { s with sendIdx := idx + cpLen })
    else if len - cpLen ≠ 0 then
      fillLoop buf fuel (idx + cpLen) (len - cpLen) { s with sendBuf := sendBuf }
    else (.returned State.success, { s with sendBuf := sendBuf, sendIdx := idx + cpLen })

/-- The string and the length that `_utils_fill_tx_buffer` gets. -/
structure Input where
  buf : CStr
  len : Nat
  len_le : len ≤ buf.strlen

/-- No length is the length of the string. -/
def Input.bytes (i : Input) : List UInt8 := if i.len = 0 then i.buf.val else i.buf.val.take i.len

def Input.ofString (s : CStr) : Input := ⟨s, s.strlen, le_rfl⟩

def utilsFillTxBuffer (fuel : Nat) (i : Input) (s : Tx) : Ends × Tx :=
  fillLoop results i.buf.val fuel s.sendIdx (if i.len = 0 then i.buf.strlen else i.len) s

/-- Calls one after the other, whatever they return; none where one of them is not over. -/
def fillAll (fuel : Nat) : List Input → Tx → Option (List Int) × Tx
  | [], s => (some [], s)
  | i :: is, s =>
    match utilsFillTxBuffer results fuel i s with
    | (.unfinished, s) => (none, s)
    | (.returned ret, s) => ((fillAll fuel is s).1.map (ret :: ·), (fillAll fuel is s).2)

/-- `HTTPCLIENT_REQUEST_TYPE`, and any other number. -/
inductive Method where
  | get
  | post
  | put
  | delete
  | head
  | other

def Method.meth : Method → List UInt8
  | .get => text "GET"
  | .post => text "POST"
  | .put => text "PUT"
  | .delete => text "DELETE"
  | .head => text "HEAD"
  | .other => []

/-- What `_http_send_header` gets; a body comes with its length and perhaps a content type. -/
structure Request where
  method : Method
  host : CStr
  path : CStr
  header : Option CStr
  post : Option (Int × Option CStr)

/-- The string that `HAL_Snprintf` makes in an array of `HTTPCLIENT_SEND_BUF_SIZE` bytes. -/
def printed (s : List UInt8) : CStr :=
  ⟨snprintf httpclientSendBufSize (precision s),
    fun h => zero_not_mem_precision (List.mem_of_mem_take h)⟩

namespace Request

variable (r : Request)

/-- `"%s %s HTTP/1.1\r\nHost: %s\r\n"`. -/
def lineText : List UInt8 :=
  r.method.meth ++ 32 :: (r.path.val ++
    (text " HTTP/1.1\r\nHost: " ++ (r.host.val ++ [13, 10])))

def line : Input := .ofString (printed r.lineText)

/-- What is filled in behind the request line. -/
def headers : List Input :=
  (r.header.map Input.ofString).toList ++
    (match r.post with
    | none => []
    | some (postBufLen, contentType) =>
      .ofString (printed (text "Content-Length: " ++ (decimal postBufLen ++ [13, 10]))) ::
        (contentType.map fun type =>
          Input.ofString (printed (text "Content-Type: " ++ (type.val ++ [13, 10])))).toList) ++
    [⟨⟨[13, 10], by decide⟩, 0, Nat.zero_le _⟩]

def length : Nat := ((r.line :: r.headers).map fun i => i.bytes.length).sum

end Request

/-- The write at the end of `_http_send_header`. -/
def writePending (s : Tx) : Ends × Tx :=
  let ret := (results s.writes.length).ret s.pending.length
  if ret ≤ 0 then (.returned State.sysDependNwkClose, s.write results s.pending)
  else (.returned State.success, s.write results s.pending)

def httpSendHeader (fuel : Nat) (r : Request) : Ends × Tx :=
  match utilsFillTxBuffer results fuel r.line .start with
  | (.unfinished, s) => (.unfinished, s)
  | (.returned ret, s) =>
    if ret ≠ 0 then (.returned State.sysDependNwkClose, s)
    else
      match fillAll results fuel r.headers s with
      | (none, s) => (.unfinished, s)
      | (some _, s) => writePending results s

end Model

/-! ## One call -/

section Call

variable {results : Nat → Write} {buf : List UInt8} {fuel idx len : Nat} {s : Tx} {i : Input}

theorem ret_eq_zero_iff {w : Write} : w.ret httpclientSendBufSize = 0 ↔ w = .zero := by
  cases w with
  | complete => exact iff_of_false (by decide) nofun
  | zero => exact iff_of_true rfl rfl
  | error code => exact iff_of_false (Int.negSucc_ne_zero code) nofun

/-- The state after some bytes are put and the buffer is written out. -/
def flushed (results : Nat → Write) (s : Tx) (idx : Nat) (data : List UInt8) : Tx :=
  { s with sendBuf := s.sendBuf.put idx data }.write results (s.sendBuf.put idx data)

theorem fillLoop_fits (h : idx + len < httpclientSendBufSize) :
    fillLoop results buf (fuel + 1) idx len s =
      (.returned State.success,
        { s with sendBuf := s.sendBuf.put idx (buf.take len), sendIdx := idx + len }) := by
  have hlen : len ≤ httpclientSendBufSize - idx := by omega
  simp only [fillLoop, if_pos hlen, if_neg (Nat.ne_of_lt h), Nat.sub_self, ne_eq,
    not_true_eq_false, if_false]

theorem fillLoop_fills (h : idx + len = httpclientSendBufSize) :
    fillLoop results buf (fuel + 1) idx len s =
      if results s.writes.length = .zero then
        (.returned State.success,
          { flushed results s idx (buf.take len) with sendIdx := httpclientSendBufSize })
      else
        (.returned ((results s.writes.length).ret httpclientSendBufSize),
          flushed results s idx (buf.take len)) := by
  have hlen : len ≤ httpclientSendBufSize - idx := by omega
  simp only [fillLoop, if_pos hlen, h, Nat.sub_self, ne_eq, ret_eq_zero_iff, ite_not, if_true]
  rfl

theorem fillLoop_over (hidx : idx ≤ httpclientSendBufSize) (h : httpclientSendBufSize < idx + len) :
    fillLoop results buf (fuel + 1) idx len s =
      if results s.writes.length = .zero then
        fillLoop results buf fuel httpclientSendBufSize (len - (httpclientSendBufSize - idx))
          (flushed results s idx (buf.take (httpclientSendBufSize - idx)))
      else
        (.returned ((results s.writes.length).ret httpclientSendBufSize),
          flushed results s idx (buf.take (httpclientSendBufSize - idx))) := by
  have hlen : ¬ len ≤ httpclientSendBufSize - idx := by omega
  have hfull : idx + (httpclientSendBufSize - idx) = httpclientSendBufSize := by omega
  have hrest : len - (httpclientSendBufSize - idx) ≠ 0 := by omega
  simp only [fillLoop, if_neg hlen, hfull, if_true, ne_eq, ret_eq_zero_iff, ite_not, if_neg hrest]
  rfl

theorem length_writes_flushed (data : List UInt8) :
    (flushed results s idx data).writes.length = s.writes.length + 1 :=
  List.length_append

theorem fillLoop_ne_success (hidx : idx ≤ httpclientSendBufSize)
    (h : httpclientSendBufSize < idx + len) :
    (fillLoop results buf fuel idx len s).1 ≠ .returned State.success := by
  induction fuel generalizing idx len s with
  | zero => exact nofun
  | succ fuel ih =>
    rw [fillLoop_over hidx h]
    split
    · exact ih le_rfl (by omega)
    next hzero =>
      intro hret
      exact hzero (ret_eq_zero_iff.mp (Ends.returned.inj hret))

theorem fillLoop_stuck (hidx : idx ≤ httpclientSendBufSize)
    (h : httpclientSendBufSize < idx + len) (hzero : ∀ i ≥ s.writes.length, results i = .zero) :
    (fillLoop results buf fuel idx len s).1 = .unfinished := by
  induction fuel generalizing idx len s with
  | zero => rfl
  | succ fuel ih =>
    rw [fillLoop_over hidx h, if_pos (hzero _ le_rfl)]
    refine ih le_rfl (by omega) fun i hi => hzero i ?_
    rw [length_writes_flushed] at hi
    omega

theorem fillLoop_returns (hidx : idx ≤ httpclientSendBufSize)
    (h : httpclientSendBufSize < idx + len) {k : Nat} (hk : results (s.writes.length + k) ≠ .zero) :
    ∃ ret, (fillLoop results buf (k + 1) idx len s).1 = .returned ret := by
  induction k generalizing idx len s with
  | zero =>
    rw [Nat.add_zero] at hk
    rw [fillLoop_over hidx h, if_neg hk]
    exact ⟨_, rfl⟩
  | succ k ih =>
    rw [fillLoop_over hidx h]
    split
    · refine ih le_rfl (by omega) ?_
      rwa [length_writes_flushed, Nat.add_assoc, Nat.add_comm 1]
    · exact ⟨_, rfl⟩

theorem fillLoop_returns_iff (hidx : idx ≤ httpclientSendBufSize) :
    (∃ fuel ret, (fillLoop results buf fuel idx len s).1 = .returned ret) ↔
      idx + len ≤ httpclientSendBufSize ∨ ∃ i ≥ s.writes.length, results i ≠ .zero := by
  constructor
  · rintro ⟨fuel, ret, hret⟩
    by_contra hnot
    obtain ⟨hover, hzero⟩ := not_or.mp hnot
    push Not at hzero
    rw [fillLoop_stuck hidx (Nat.lt_of_not_le hover) hzero] at hret
    cases hret
  · intro h
    by_cases hover : httpclientSendBufSize < idx + len
    · obtain ⟨i, hi, hne⟩ := h.resolve_left (Nat.not_le.mpr hover)
      obtain ⟨k, rfl⟩ := Nat.exists_eq_add_of_le hi
      exact ⟨k + 1, fillLoop_returns hidx hover hne⟩
    · rcases Nat.lt_or_eq_of_le (Nat.not_lt.mp hover) with hlt | heq
      · exact ⟨1, _, by rw [fillLoop_fits hlt]⟩
      · refine ⟨1, ?_⟩
        rw [fillLoop_fills heq]
        split
        · exact ⟨_, rfl⟩
        · exact ⟨_, rfl⟩

theorem length_bytes (i : Input) : i.bytes.length = if i.len = 0 then i.buf.strlen else i.len := by
  unfold Input.bytes
  split
  · rfl
  · rw [List.length_take]
    exact Nat.min_eq_left i.len_le

theorem take_bytes (i : Input) : i.buf.val.take i.bytes.length = i.bytes := by
  rw [length_bytes, Input.bytes]
  split
  · exact List.take_length
  · rfl

theorem fill_eq (fuel : Nat) (i : Input) (s : Tx) : utilsFillTxBuffer results fuel i s =
    fillLoop results i.buf.val fuel s.sendIdx i.bytes.length s := by
  rw [utilsFillTxBuffer, length_bytes]

theorem fill_fits (h : s.sendIdx + i.bytes.length < httpclientSendBufSize) :
    utilsFillTxBuffer results (fuel + 1) i s =
      (.returned State.success, { s with
        sendBuf := s.sendBuf.put s.sendIdx i.bytes, sendIdx := s.sendIdx + i.bytes.length }) := by
  rw [fill_eq, fillLoop_fits h, take_bytes]

theorem fill_fills (h : s.sendIdx + i.bytes.length = httpclientSendBufSize) :
    utilsFillTxBuffer results (fuel + 1) i s =
      if results s.writes.length = .zero then
        (.returned State.success,
          { flushed results s s.sendIdx i.bytes with sendIdx := httpclientSendBufSize })
      else
        (.returned ((results s.writes.length).ret httpclientSendBufSize),
          flushed results s s.sendIdx i.bytes) := by
  rw [fill_eq, fillLoop_fills h, take_bytes]

theorem fill_returns (results : Nat → Write) (fuel : Nat)
    (h : s.sendIdx + i.bytes.length ≤ httpclientSendBufSize) :
    ∃ ret s', utilsFillTxBuffer results (fuel + 1) i s = (.returned ret, s') ∧
      s'.sendIdx ≤ s.sendIdx + i.bytes.length := by
  rcases Nat.lt_or_eq_of_le h with hlt | heq
  · exact ⟨_, _, fill_fits hlt, le_rfl⟩
  · rw [fill_fills heq]
    split
    · exact ⟨_, _, rfl, Nat.le_of_eq heq.symm⟩
    · exact ⟨_, _, rfl, Nat.le_add_right _ _⟩

end Call

/-! ## Calls one after the other -/

section Calls

variable {results : Nat → Write} {fuel : Nat} {s s' : Tx} {i : Input} {is : List Input}
  {rets : List Int} {bytes : List UInt8}

/-- How long the texts are together. -/
def total (is : List Input) : Nat := (is.map fun i => i.bytes.length).sum

theorem total_cons (i : Input) (is : List Input) : total (i :: is) = i.bytes.length + total is := by
  rw [total, List.map_cons, List.sum_cons, total]

theorem fillAll_returns (h : s.sendIdx + total is ≤ httpclientSendBufSize) :
    ∃ rets, (fillAll results 1 is s).1 = some rets := by
  induction is generalizing s with
  | nil => exact ⟨[], rfl⟩
  | cons i is ih =>
    rw [total_cons] at h
    obtain ⟨ret, s', hfill, hidx⟩ := fill_returns results 0 (s := s) (i := i) (by omega)
    obtain ⟨rets, hrets⟩ := ih (s := s') (by omega)
    exact ⟨ret :: rets, by simp only [fillAll, hfill, hrets, Option.map_some]⟩

theorem fillAll_stuck (results : Nat → Write) (fuel : Nat)
    (hidx : s.sendIdx ≤ httpclientSendBufSize) (h : httpclientSendBufSize < s.sendIdx + total is)
    (hzero : ∀ i, results i = .zero) : (fillAll results fuel is s).1 = none := by
  induction is generalizing s with
  | nil => exact absurd h (Nat.not_lt.mpr hidx)
  | cons i is ih =>
    rw [total_cons] at h
    by_cases hover : httpclientSendBufSize < s.sendIdx + i.bytes.length
    · have hstuck : (utilsFillTxBuffer results fuel i s).1 = .unfinished := by
        rw [fill_eq]
        exact fillLoop_stuck hidx hover fun i _ => hzero i
      rw [fillAll]
      split
      next => rfl
      next heq =>
        rw [heq] at hstuck
        cases hstuck
    · have hrest : httpclientSendBufSize < s.sendIdx + i.bytes.length + total is := by omega
      cases fuel with
      | zero => rfl
      | succ fuel =>
        rcases Nat.lt_or_eq_of_le (Nat.not_lt.mp hover) with hlt | heq
        · simp only [fillAll, fill_fits hlt]
          rw [ih (Nat.le_of_lt hlt) hrest, Option.map_none]
        · rw [heq] at hrest
          simp only [fillAll, fill_fills heq, if_pos (hzero _)]
          rw [ih le_rfl hrest, Option.map_none]

/-- Up to now nothing was taken, and the texts are in the buffer. -/
structure Kept (s : Tx) (bytes : List UInt8) : Prop where
  size : s.sendBuf.length = httpclientSendBufSize
  idx_le : s.sendIdx ≤ httpclientSendBufSize
  pending : s.pending = bytes
  zero : ∀ w ∈ s.writes, w.2 = .zero

theorem kept_start : Kept .start [] := ⟨CharBuf.length_zeros, Nat.zero_le _, rfl, nofun⟩

theorem Kept.sent (h : Kept s bytes) : s.sent = [] := by
  have hnone : s.writes.filter (fun w => decide (w.2 = .complete)) = [] :=
    List.filter_eq_nil_iff.mpr fun w hw => by
      rw [h.zero w hw]
      decide
  rw [Tx.sent, hnone, List.flatMap_nil]

theorem pending_put (hsize : s.sendBuf.length = httpclientSendBufSize)
    (hidx : s.sendIdx ≤ httpclientSendBufSize) (data : List UInt8) :
    (s.sendBuf.put s.sendIdx data).take (s.sendIdx + data.length) = s.pending ++ data :=
  CharBuf.take_put (by rw [hsize]; exact hidx)

theorem Kept.step (h : Kept s bytes)
    (hfill : utilsFillTxBuffer results fuel i s = (.returned State.success, s')) :
    Kept s' (bytes ++ i.bytes) := by
  have hpending := pending_put h.size h.idx_le i.bytes
  rw [h.pending] at hpending
  by_cases hover : httpclientSendBufSize < s.sendIdx + i.bytes.length
  · rw [fill_eq] at hfill
    exact absurd (congrArg Prod.fst hfill) (fillLoop_ne_success h.idx_le hover)
  · have hsize : (s.sendBuf.put s.sendIdx i.bytes).length = httpclientSendBufSize := by
      rw [CharBuf.length_put (by rw [h.size]; omega), h.size]
    cases fuel with
    | zero => cases hfill
    | succ fuel =>
      rcases Nat.lt_or_eq_of_le (Nat.not_lt.mp hover) with hlt | heq
      · rw [fill_fits hlt] at hfill
        cases hfill
        exact ⟨hsize, Nat.le_of_lt hlt, hpending, h.zero⟩
      · rw [fill_fills heq] at hfill
        split at hfill
        next hzero =>
          cases hfill
          rw [heq] at hpending
          refine ⟨hsize, le_rfl, hpending, fun w hw => ?_⟩
          rcases List.mem_append.mp hw with hw | hw
          · exact h.zero w hw
          · rw [List.mem_singleton.mp hw]
            exact hzero
        next hzero =>
          have hret := Ends.returned.inj (congrArg Prod.fst hfill)
          exact absurd (ret_eq_zero_iff.mp hret) hzero

theorem Kept.run (h : Kept s bytes) (hfill : fillAll results fuel is s = (some rets, s'))
    (hrets : ∀ ret ∈ rets, ret = State.success) : Kept s' (bytes ++ is.flatMap Input.bytes) := by
  induction is generalizing s bytes rets with
  | nil =>
    cases hfill
    rwa [List.flatMap_nil, List.append_nil]
  | cons i is ih =>
    rw [fillAll] at hfill
    split at hfill
    · cases hfill
    next ret s₁ hstep =>
      obtain ⟨hmap, hs'⟩ := Prod.mk.inj hfill
      obtain ⟨rets', hrets', rfl⟩ := Option.map_eq_some_iff.mp hmap
      obtain ⟨hret, hrets⟩ := List.forall_mem_cons.mp hrets
      rw [hret] at hstep
      rw [List.flatMap_cons, ← List.append_assoc]
      exact ih (h.step hstep) (Prod.ext hrets' hs') hrets

end Calls

/-! ## Requests -/

section Requests

variable {results : Nat → Write} {fuel : Nat} {s s' : Tx} {is : List Input} {rets : List Int}

theorem fillAll_quiet (h : s.sendIdx + total is < httpclientSendBufSize)
    (hfill : fillAll results fuel is s = (some rets, s')) : s'.writes = s.writes := by
  induction is generalizing s rets with
  | nil =>
    cases hfill
    rfl
  | cons i is ih =>
    rw [total_cons] at h
    cases fuel with
    | zero => cases hfill
    | succ fuel =>
      simp only [fillAll, fill_fits (show s.sendIdx + i.bytes.length < _ by omega)] at hfill
      obtain ⟨hmap, hs'⟩ := Prod.mk.inj hfill
      obtain ⟨rets', hrets', -⟩ := Option.map_eq_some_iff.mp hmap
      have hrest : s.sendIdx + i.bytes.length + total is < httpclientSendBufSize := by omega
      have hwrites := ih (s := { s with
        sendBuf := s.sendBuf.put s.sendIdx i.bytes, sendIdx := s.sendIdx + i.bytes.length })
        hrest (Prod.ext hrets' hs')
      exact hwrites

def errorFirst : Nat → Write
  | 0 => .error 0
  | _ + 1 => .complete

theorem errorFirst_ne_zero (i : Nat) : errorFirst i ≠ .zero := by
  cases i <;> exact nofun

/-- The first write of all was the error. -/
structure AfterError (s : Tx) : Prop where
  size : s.sendBuf.length = httpclientSendBufSize
  pos : 0 < s.sendIdx
  lt : s.sendIdx < httpclientSendBufSize
  first : s.writes = [] ∨ ∃ data, (data, .error 0) ∈ s.writes

theorem AfterError.flush (h : AfterError s) (idx : Nat) (data : List UInt8)
    (hdata : idx + data.length ≤ httpclientSendBufSize) :
    AfterError (flushed errorFirst s idx data) ∧ (flushed errorFirst s idx data).writes ≠ [] := by
  refine ⟨⟨?_, h.pos, h.lt, .inr ?_⟩, List.append_ne_nil_of_right_ne_nil _ (List.cons_ne_nil _ _)⟩
  · exact (CharBuf.length_put (by rw [h.size]; exact hdata)).trans h.size
  · rcases h.first with hnil | ⟨data', hmem⟩
    · refine ⟨s.sendBuf.put idx data, List.mem_append_right _ ?_⟩
      simp only [hnil, List.length_nil, errorFirst, List.mem_singleton]
    · exact ⟨data', List.mem_append_left _ hmem⟩

theorem AfterError.step (h : AfterError s) (i : Input) :
    ∃ ret s', utilsFillTxBuffer errorFirst 1 i s = (.returned ret, s') ∧ AfterError s' ∧
      (s.writes ≠ [] → s'.writes ≠ []) ∧
      (s'.writes ≠ [] ∨ s'.sendIdx = s.sendIdx + i.bytes.length) := by
  by_cases hlt : s.sendIdx + i.bytes.length < httpclientSendBufSize
  · refine ⟨_, _, fill_fits hlt, ⟨?_, ?_, hlt, h.first⟩, id, .inr rfl⟩
    · exact (CharBuf.length_put (by rw [h.size]; exact Nat.le_of_lt hlt)).trans h.size
    · exact Nat.lt_of_lt_of_le h.pos (Nat.le_add_right _ _)
  · rcases Nat.lt_or_eq_of_le (Nat.not_lt.mp hlt) with hover | heq
    · have hflushed := h.flush s.sendIdx
        (i.buf.val.take (httpclientSendBufSize - s.sendIdx)) (by
          rw [List.length_take]
          have hle := h.lt
          omega)
      refine ⟨(errorFirst s.writes.length).ret httpclientSendBufSize, flushed errorFirst s s.sendIdx
        (i.buf.val.take (httpclientSendBufSize - s.sendIdx)), ?_, hflushed.1, fun _ => hflushed.2,
        .inl hflushed.2⟩
      rw [fill_eq, fillLoop_over (Nat.le_of_lt h.lt) hover, if_neg (errorFirst_ne_zero _)]
    · have hflushed := h.flush s.sendIdx i.bytes (Nat.le_of_eq heq.symm)
      refine ⟨(errorFirst s.writes.length).ret httpclientSendBufSize,
        flushed errorFirst s s.sendIdx i.bytes, ?_, hflushed.1, fun _ => hflushed.2,
        .inl hflushed.2⟩
      rw [fill_fills heq.symm, if_neg (errorFirst_ne_zero _)]

theorem fillAll_errorFirst (h : AfterError s) (is : List Input) :
    ∃ rets s', fillAll errorFirst 1 is s = (some rets, s') ∧ AfterError s' ∧
      (s.writes ≠ [] ∨ httpclientSendBufSize ≤ s.sendIdx + total is → s'.writes ≠ []) := by
  induction is generalizing s with
  | nil =>
    exact ⟨[], s, rfl, h, fun hor => hor.elim id fun hle => absurd h.lt (Nat.not_lt.mpr hle)⟩
  | cons i is ih =>
    obtain ⟨ret, s₁, hfill, hafter, hmono, hnext⟩ := h.step i
    obtain ⟨rets, s', hrest, hafter', hwrites⟩ := ih hafter
    refine ⟨ret :: rets, s', by simp only [fillAll, hfill, hrest, Option.map_some], hafter', ?_⟩
    rintro (hne | hle)
    · exact hwrites (.inl (hmono hne))
    · rw [total_cons, ← Nat.add_assoc] at hle
      rcases hnext with hne | hidx
      · exact hwrites (.inl hne)
      · exact hwrites (.inr (by rw [hidx]; exact hle))

theorem bytes_ofString (s : CStr) : (Input.ofString s).bytes = s.val := by
  rw [Input.bytes, Input.ofString]
  split
  · rfl
  · exact List.take_length

theorem zero_not_mem_lineText (r : Request) : (0 : UInt8) ∉ r.lineText := by
  have hmeth : (0 : UInt8) ∉ r.method.meth := by
    cases r.method <;> decide
  have hversion : (0 : UInt8) ∉ text " HTTP/1.1\r\nHost: " := by decide
  simp only [Request.lineText, List.mem_append, List.mem_cons, List.not_mem_nil, not_or]
  exact ⟨hmeth, by decide, r.path.property, hversion, r.host.property, by decide, by decide, id⟩

theorem line_bytes (r : Request) : r.line.bytes = snprintf httpclientSendBufSize r.lineText := by
  rw [Request.line, bytes_ofString]
  show snprintf httpclientSendBufSize (precision r.lineText) = _
  rw [precision_eq_self (zero_not_mem_lineText r)]

theorem length_line (r : Request) :
    0 < r.line.bytes.length ∧ r.line.bytes.length < httpclientSendBufSize := by
  have hpos : 0 < r.lineText.length := by
    rw [Request.lineText, List.length_append, List.length_cons]
    omega
  rw [line_bytes, snprintf, List.length_take]
  show 0 < min 1023 r.lineText.length ∧ min 1023 r.lineText.length < 1024
  omega

def lineFilled (r : Request) : Tx :=
  ⟨Tx.start.sendBuf.put 0 r.line.bytes, r.line.bytes.length, []⟩

theorem fill_line (r : Request) (fuel : Nat) :
    utilsFillTxBuffer results (fuel + 1) r.line .start =
      (.returned State.success, lineFilled r) := by
  have hlt : Tx.start.sendIdx + r.line.bytes.length < httpclientSendBufSize := by
    rw [Tx.start, Nat.zero_add]
    exact (length_line r).2
  rw [fill_fits hlt, lineFilled]
  simp only [Tx.start, Nat.zero_add]

theorem httpSendHeader_eq (r : Request) (fuel : Nat) : httpSendHeader results (fuel + 1) r =
    match fillAll results (fuel + 1) r.headers (lineFilled r) with
    | (none, s) => (.unfinished, s)
    | (some _, s) => writePending results s := by
  rw [httpSendHeader, fill_line]
  rfl

theorem reported_of_lt {r : Request} {ret : Int} {data : List UInt8} {code : Nat}
    (h : r.length < httpclientSendBufSize)
    (hsend : httpSendHeader results fuel r = (.returned ret, s))
    (hmem : (data, .error code) ∈ s.writes) : ret ≠ State.success := by
  cases fuel with
  | zero => cases hsend
  | succ fuel =>
    rw [httpSendHeader_eq] at hsend
    split at hsend
    · cases hsend
    next rets s₁ hfill =>
      have hidx : (lineFilled r).sendIdx + total r.headers < httpclientSendBufSize := h
      have hquiet : s₁.writes = [] := fillAll_quiet hidx hfill
      have hwrites : (writePending results s₁).2.writes = [(s₁.pending, results 0)] := by
        rw [writePending]
        split <;> simp only [Tx.write, hquiet, List.nil_append, List.length_nil]
      rw [hsend] at hwrites
      rw [hwrites, List.mem_singleton] at hmem
      have herror : results s₁.writes.length = .error code := by
        rw [hquiet]
        exact (congrArg Prod.snd hmem).symm
      have hret : Int.negSucc code ≤ 0 := Int.le_of_lt (Int.negSucc_lt_zero code)
      rw [writePending, herror, Write.ret, if_pos hret] at hsend
      cases hsend
      decide

theorem unreported_of_le {r : Request} (h : httpclientSendBufSize ≤ r.length) :
    ∃ s data, httpSendHeader errorFirst 1 r = (.returned State.success, s) ∧
      (data, .error 0) ∈ s.writes := by
  have hstart : AfterError (lineFilled r) := by
    refine ⟨?_, (length_line r).1, (length_line r).2, .inl rfl⟩
    have hlen : 0 + r.line.bytes.length ≤ Tx.start.sendBuf.length := by
      rw [Tx.start, CharBuf.length_zeros, Nat.zero_add]
      exact Nat.le_of_lt (length_line r).2
    exact (CharBuf.length_put hlen).trans CharBuf.length_zeros
  obtain ⟨rets, s, hfill, hafter, hwrites⟩ := fillAll_errorFirst hstart r.headers
  have hne := hwrites (.inr h)
  obtain ⟨data, hmem⟩ := hafter.first.resolve_left hne
  refine ⟨s.write errorFirst s.pending, data, ?_, List.mem_append_left _ hmem⟩
  have hcomplete : errorFirst s.writes.length = .complete := by
    obtain ⟨w, ws, hws⟩ := List.exists_cons_of_ne_nil hne
    rw [hws]
    rfl
  have hlen : s.pending.length = s.sendIdx := by
    rw [Tx.pending, List.length_take, hafter.size]
    exact Nat.min_eq_left (Nat.le_of_lt hafter.lt)
  have hpos := hafter.pos
  rw [httpSendHeader_eq, hfill]
  show writePending errorFirst s = _
  rw [writePending, hcomplete, Write.ret, hlen, if_neg (by omega)]

theorem unfinished_of_lt {r : Request} (h : httpclientSendBufSize < r.length) (fuel : Nat) :
    (httpSendHeader (fun _ => .zero) fuel r).1 = .unfinished := by
  cases fuel with
  | zero => rfl
  | succ fuel =>
    have hstuck := fillAll_stuck (fun _ => .zero) (fuel + 1) (s := lineFilled r)
      (Nat.le_of_lt (length_line r).2) h fun _ => rfl
    rw [httpSendHeader_eq]
    split
    · rfl
    next heq =>
      rw [heq] at hstuck
      cases hstuck

end Requests

/-! ## The front of a request -/

section Front

variable {results : Nat → Write} {front buf data : List UInt8} {fuel idx len : Nat} {s : Tx}

/-- The buffer begins with the text, and so did all that was written. -/
structure Led (front : List UInt8) (s : Tx) : Prop where
  size : s.sendBuf.length = httpclientSendBufSize
  le_idx : front.length ≤ s.sendIdx
  idx_le : s.sendIdx ≤ httpclientSendBufSize
  buf : front <+: s.sendBuf
  writes : ∀ w ∈ s.writes, front <+: w.1

theorem prefix_put (h : front <+: s.sendBuf) (hidx : front.length ≤ idx) :
    front <+: s.sendBuf.put idx data := by
  have htake : front <+: s.sendBuf.take idx := List.prefix_take_iff.mpr ⟨h, hidx⟩
  exact htake.trans (List.prefix_append _ _)

theorem Led.put (h : Led front s) (hidx : front.length ≤ idx)
    (hdata : idx + data.length ≤ httpclientSendBufSize) :
    Led front { s with sendBuf := s.sendBuf.put idx data } :=
  ⟨(CharBuf.length_put (by rw [h.size]; exact hdata)).trans h.size, h.le_idx, h.idx_le,
    prefix_put h.buf hidx, h.writes⟩

theorem Led.write (h : Led front s) (hdata : front <+: data) :
    Led front (s.write results data) := by
  refine ⟨h.size, h.le_idx, h.idx_le, h.buf, fun w hw => ?_⟩
  rcases List.mem_append.mp hw with hw | hw
  · exact h.writes w hw
  · rw [List.mem_singleton.mp hw]
    exact hdata

theorem Led.flush (h : Led front s) (results : Nat → Write) (data : List UInt8)
    (hidx : front.length ≤ idx) (hdata : idx + data.length ≤ httpclientSendBufSize) :
    Led front (flushed results s idx data) :=
  (h.put hidx hdata).write (prefix_put h.buf hidx)

theorem Led.setIdx (h : Led front s) (hidx : front.length ≤ idx)
    (hle : idx ≤ httpclientSendBufSize) : Led front { s with sendIdx := idx } :=
  ⟨h.size, hidx, hle, h.buf, h.writes⟩

theorem Led.loop (h : Led front s) (hidx : front.length ≤ idx) (hle : idx ≤ httpclientSendBufSize) :
    Led front (fillLoop results buf fuel idx len s).2 := by
  induction fuel generalizing idx len s with
  | zero => exact h
  | succ fuel ih =>
    by_cases hover : httpclientSendBufSize < idx + len
    · have hflush := h.flush results
        (buf.take (httpclientSendBufSize - idx)) hidx (by rw [List.length_take]; omega)
      rw [fillLoop_over hle hover]
      split
      · exact ih hflush (Nat.le_trans hidx hle) le_rfl
      · exact hflush
    · have hdata : idx + (buf.take len).length ≤ httpclientSendBufSize := by
        rw [List.length_take]
        omega
      rcases Nat.lt_or_eq_of_le (Nat.not_lt.mp hover) with hlt | heq
      · rw [fillLoop_fits hlt]
        exact (h.put hidx hdata).setIdx (Nat.le_trans hidx (Nat.le_add_right _ _))
          (Nat.le_of_lt hlt)
      · have hflush := h.flush results _ hidx hdata
        rw [fillLoop_fills heq]
        split
        · exact hflush.setIdx (Nat.le_trans hidx hle) le_rfl
        · exact hflush

theorem Led.run (h : Led front s) (results : Nat → Write) (fuel : Nat) (is : List Input) :
    Led front (fillAll results fuel is s).2 := by
  induction is generalizing s with
  | nil => exact h
  | cons i is ih =>
    have hstep : Led front (utilsFillTxBuffer results fuel i s).2 := by
      rw [fill_eq]
      exact h.loop h.le_idx h.idx_le
    rw [fillAll]
    split
    next heq => rwa [heq] at hstep
    next heq =>
      rw [heq] at hstep
      exact ih hstep

theorem led_line (r : Request) : Led r.line.bytes (lineFilled r) := by
  have hlt := Nat.le_of_lt (length_line r).2
  have hlen : 0 + r.line.bytes.length ≤ Tx.start.sendBuf.length := by
    rw [Tx.start, CharBuf.length_zeros, Nat.zero_add]
    exact hlt
  exact ⟨(CharBuf.length_put hlen).trans CharBuf.length_zeros, le_rfl, hlt,
    List.prefix_append _ _, nofun⟩

theorem line_prefix (r : Request) (fuel : Nat) :
    ∀ w ∈ (httpSendHeader results fuel r).2.writes, r.line.bytes <+: w.1 := by
  cases fuel with
  | zero => exact nofun
  | succ fuel =>
    have hled := (led_line r).run results (fuel + 1) r.headers
    rw [httpSendHeader_eq]
    split
    next heq =>
      rw [heq] at hled
      exact hled.writes
    next rets s heq =>
      rw [heq] at hled
      have hpending : r.line.bytes <+: s.pending := List.prefix_take_iff.mpr ⟨hled.buf, hled.le_idx⟩
      rw [writePending]
      split
      · exact (hled.write hpending).writes
      · exact (hled.write hpending).writes

theorem writes_of_unfinished (results : Nat → Write) (i : Input)
    (hidx : s.sendIdx ≤ httpclientSendBufSize)
    (h : (utilsFillTxBuffer results 1 i s).1 = .unfinished) :
    (utilsFillTxBuffer results 1 i s).2.writes ≠ [] := by
  rw [fill_eq] at h ⊢
  by_cases hover : httpclientSendBufSize < s.sendIdx + i.bytes.length
  · rw [fillLoop_over hidx hover]
    split <;> exact List.append_ne_nil_of_right_ne_nil _ (List.cons_ne_nil _ _)
  · obtain ⟨ret, s', hret, -⟩ := fill_returns results 0 (Nat.not_lt.mp hover)
    rw [← fill_eq, hret] at h
    cases h

theorem writes_of_fillAll (results : Nat → Write) (is : List Input) (h : Led front s)
    (hnone : (fillAll results 1 is s).1 = none) : (fillAll results 1 is s).2.writes ≠ [] := by
  induction is generalizing s with
  | nil => cases hnone
  | cons i is ih =>
    have hstep : Led front (utilsFillTxBuffer results 1 i s).2 := by
      rw [fill_eq]
      exact h.loop h.le_idx h.idx_le
    have hwrites := writes_of_unfinished results i h.idx_le
    rw [fillAll] at hnone ⊢
    split
    next heq =>
      rw [heq] at hwrites
      exact hwrites rfl
    next heq =>
      rw [heq] at hstep hnone
      exact ih hstep (Option.map_eq_none_iff.mp hnone)

theorem exists_write (r : Request) : (httpSendHeader results 1 r).2.writes ≠ [] := by
  have hwrites := writes_of_fillAll results r.headers (led_line r)
  rw [httpSendHeader_eq]
  split
  next heq =>
    rw [heq] at hwrites
    exact hwrites rfl
  next =>
    rw [writePending]
    split <;> exact List.append_ne_nil_of_right_ne_nil _ (List.cons_ne_nil _ _)

end Front

/-- Each call is over, up to an error the transport and the buffer have the texts, and an error
of the transport is one of the request. -/
structure BufferingLaw (inputs : List Input) (r : Request) : Prop where
  terminates : ∀ results, ∃ fuel rets, (fillAll results fuel inputs .start).1 = some rets
  conserves : ∀ results fuel is rets s, is <+: inputs →
    fillAll results fuel is .start = (some rets, s) → (∀ ret ∈ rets, ret = State.success) →
      s.sent ++ s.pending = is.flatMap Input.bytes
  reported : ∀ results fuel ret s data code, httpSendHeader results fuel r = (.returned ret, s) →
    (data, .error code) ∈ s.writes → ret ≠ State.success

theorem bufferingLaw_iff (inputs : List Input) (r : Request) :
    BufferingLaw inputs r ↔
      total inputs ≤ httpclientSendBufSize ∧ r.length < httpclientSendBufSize := by
  constructor
  · rintro ⟨hterminates, -, hreported⟩
    constructor
    · by_contra hover
      obtain ⟨fuel, rets, hrets⟩ := hterminates fun _ => .zero
      rw [fillAll_stuck _ _ (Nat.zero_le _) (by rw [Tx.start]; omega) fun _ => rfl] at hrets
      cases hrets
    · by_contra hle
      obtain ⟨s, data, hsend, hmem⟩ := unreported_of_le (Nat.not_lt.mp hle)
      exact hreported _ _ _ s data 0 hsend hmem rfl
  · rintro ⟨hfits, hlt⟩
    refine ⟨fun results => ⟨1, fillAll_returns (by rw [Tx.start, Nat.zero_add]; exact hfits)⟩, ?_,
      fun results fuel ret s data code => reported_of_lt hlt⟩
    intro results fuel is rets s _ hfill hrets
    have hkept := kept_start.run hfill hrets
    rw [hkept.sent, hkept.pending, List.nil_append, List.nil_append]

/-- Whatever the transport returns, the buffer keeps to this for texts that fit into it together,
and for requests that leave a byte of it. For given results, a call returns exactly if its text
fits behind what is pending or a write from then on does not return zero. -/
theorem buffering_iff (inputs : List Input) (r : Request) :
    (BufferingLaw inputs r ↔
      total inputs ≤ httpclientSendBufSize ∧ r.length < httpclientSendBufSize) ∧
    ∀ results (s : Tx) (i : Input), s.sendIdx ≤ httpclientSendBufSize →
      ((∃ fuel ret, (utilsFillTxBuffer results fuel i s).1 = .returned ret) ↔
        s.sendIdx + i.bytes.length ≤ httpclientSendBufSize ∨
          ∃ k ≥ s.writes.length, results k ≠ .zero) := by
  refine ⟨bufferingLaw_iff inputs r, fun results s i hidx => ?_⟩
  simp only [fill_eq]
  exact fillLoop_returns_iff hidx

def longHeader : Request where
  method := .get
  host := ⟨[104], by decide⟩
  path := ⟨[47], by decide⟩
  header := some ⟨List.replicate 1024 97, fun h => by
    have heq := (List.mem_replicate.mp h).2
    cases heq⟩
  post := none

/-- The error of the first write is lost, and text that does not fit is never through. -/
theorem error_unreported :
    (∃ s data, httpSendHeader errorFirst 1 longHeader = (.returned State.success, s) ∧
      (data, .error 0) ∈ s.writes) ∧
      (∀ fuel, (httpSendHeader (fun _ => .zero) fuel longHeader).1 = .unfinished) ∧
      ¬ BufferingLaw [] longHeader := by
  have hheaders : httpclientSendBufSize ≤ total longHeader.headers := by
    show 1024 ≤ total (Input.ofString _ :: [_])
    rw [total_cons, bytes_ofString, List.length_replicate]
    exact Nat.le_add_right _ _
  have hline := (length_line longHeader).1
  have hlt : httpclientSendBufSize < longHeader.length := by
    rw [Request.length, ← total, total_cons]
    omega
  have hunreported := unreported_of_le (Nat.le_of_lt hlt)
  refine ⟨hunreported, unfinished_of_lt hlt, fun h => ?_⟩
  obtain ⟨s, data, hsend, hmem⟩ := hunreported
  exact h.reported _ _ _ s data 0 hsend hmem rfl

end AliyunIot.Httpc.Send
