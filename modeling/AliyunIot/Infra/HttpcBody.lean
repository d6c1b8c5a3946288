import Mathlib.Algebra.BigOperators.Group.List.Basic
import AliyunIot.Infra.Httpc
import AliyunIot.Lib.Run

/-!
# The body of an HTTP response

`body_delivered`: where no read times out in the header or after bytes of the body were
written in the same call, and the bytes of the body that come with the header fit the
response buffer, the calls hand out the body piece by piece, say that it is complete
when it is, and come to that as long as they can read.
-/

namespace AliyunIot.Httpc

open Lib Libc Format

/-- A response: a status line, the other lines of the header, the body. -/
structure Response where
  statusLine : List UInt8
  head : List UInt8
  body : List UInt8
  line_end : search crlf (statusLine ++ crlf) = some statusLine.length
  head_end : search (crlf ++ crlf) (head ++ (crlf ++ crlf)) = some head.length
  no_zero : (0 : UInt8) ∉ statusLine ++ head

namespace Response

/-- What follows the status line. -/
def after (r : Response) : List UInt8 := r.head ++ (crlf ++ crlf) ++ r.body

def bytes (r : Response) : List UInt8 := r.statusLine ++ crlf ++ r.after

/-- The first `Content-Length` of the header is followed by two bytes, white space and the
length of the body. -/
def Announced (r : Response) : Prop :=
  ∃ pos, search contentLength r.head = some pos ∧ pos + 16 ≤ r.head.length ∧
    (Cjson.leadingNat ((r.head.drop (pos + 16)).dropWhile isspace)).1 ≠ 0 ∧
    (Cjson.leadingNat ((r.head.drop (pos + 16)).dropWhile isspace)).2 = r.body.length ∧
    (r.body.length : Int) ≤ Cjson.intMax

end Response

/-- A call: its response buffer, and the reads that do not time out in it. -/
structure Call where
  bufLen : Nat
  two_le : 2 ≤ bufLen
  reads : List Nat

def Call.reading (c : Call) : Bool := !c.reads.isEmpty

/-- The handle and the network, with what the caller got: the bytes, and whether a call said that
there is no more. -/
structure Session where
  handle : HttpHandle
  rest : List UInt8
  delivered : List UInt8
  completed : Bool

def start (r : Response) : Session := ⟨⟨false, 0, 0, 0⟩, r.bytes, [], false⟩

namespace Session

def perform (s : Session) (c : Call) : Option Received :=
  wrapperHttpPerform c.bufLen s.handle ⟨s.rest, c.reads⟩

def next (s : Session) (c : Call) : Session :=
  match s.perform c with
  | none => s
  | some (ret, piece, handle, net) =>
    { handle
      rest := net.rest
      delivered := s.delivered ++ piece
      completed := s.completed || (decide (0 ≤ ret) && !handle.isMore) }

/-! ## What is asked -/

/-- What a call has to keep: what is not delivered is still to be read, the body is complete when
a call says so, a call fails only when it has made all its reads, and one behind the header that
can read hands out as much of the body as its buffer takes. -/
structure StepKept (r : Response) (s : Session) (c : Call) : Prop where
  inside : s.perform c ≠ none
  lossless : ∃ todo, (s.next c).delivered ++ todo = r.body ∧ todo <:+ (s.next c).rest
  complete : (s.next c).completed = true → (s.next c).delivered = r.body
  served : ∀ ret piece handle net, s.perform c = some (ret, piece, handle, net) → ret < 0 →
    net.reads = [] ∨ s.delivered = r.body
  handed : c.reading = true → s.rest ≠ r.bytes → s.delivered ≠ r.body →
    ∃ piece handle net, s.perform c = some (((piece.length : Nat) : Int), piece, handle, net) ∧
      piece.length = min (c.bufLen - 1) (r.body.length - s.delivered.length)

/-- How far reads into the body go. -/
def reach (reads : List Nat) : Nat :=
  (reads.map fun size => readLen size (httpclientChunkSize - 1)).sum

/-- The bytes that are read, from `taken` on, until there are `need` of the `total`, by reads of
the header, and the reads that are left. -/
def takenBy (need total taken : Nat) : List Nat → Option (Nat × List Nat)
  | [] => if need ≤ taken then some (taken, []) else none
  | size :: reads =>
    if need ≤ taken then some (taken, size :: reads)
    else takenBy need total (min (taken + readLen size httpclientRaedHeadSize) total) reads

/-- The first read brings the status line, no read of the header times out or overruns the
buffer, what comes with it of the body fits the response buffer, and then no read times
out, unless nothing came with it and the first one does. -/
def HeaderServed (r : Response) (c : Call) : Prop :=
  ∃ size reads taken left, c.reads = size :: reads ∧
    r.statusLine.length + 2 ≤ readLen size httpclientRaedHeadSize ∧
    takenBy (r.head.length + 4) r.after.length
      (min (readLen size httpclientRaedHeadSize) r.bytes.length - (r.statusLine.length + 2))
      reads = some (taken, left) ∧
    taken < httpclientReadBufSize ∧
    taken - (r.head.length + 4) ≤ c.bufLen - 1 ∧
    (taken = r.head.length + 4 ∧ left = [] ∨
      min (c.bufLen - 1) r.body.length ≤ taken - (r.head.length + 4) + reach left)

def Careful (r : Response) (s : Session) (c : Call) : Prop :=
  if s.handle.isMore then c.reads = [] ∨ min (c.bufLen - 1) s.handle.retrieveLen ≤ reach c.reads
  else s.rest ≠ [] → r.body = [] ∧ c.reads = [] ∨ r.Announced ∧ HeaderServed r c

end Session

/-! ## The body -/

section
variable {n : Nat} {written data rest : List UInt8} {retrieve : Nat} {reads : List Nat}

/-- The calls that get on: all that was read is written, and the response buffer is full if
there may be more. -/
structure BodyServed (n : Nat) (written data rest : List UInt8) (retrieve : Nat)
    (result : BodyResult) : Prop where
  ret : 0 ≤ result.ret
  got : ∃ got, result.written = written ++ data ++ got ∧ got ++ result.net.rest = rest
  retrieve : result.retrieveLen + result.written.length = retrieve + written.length
  full : result.isMore = true → result.written.length = n - 1
  ended : result.isMore = false → result.retrieveLen = 0
  room : result.written.length ≤ n - 1

/-- A round whose data fit: the buffer is full, nothing is left to retrieve, or it goes on. -/
theorem fillBody_cases (n : Nat) (written data : List UInt8) (retrieve : Nat) (net : Network)
    (hroom : written.length + data.length ≤ n - 1) (hdata : data.length ≤ retrieve) :
    (written.length + data.length = n - 1 ∧
      fillBody n written data retrieve net =
        .inl ⟨httpRetrieveMoreData, written ++ data, retrieve - data.length, true, net⟩) ∨
    (written.length + data.length < n - 1 ∧ retrieve = data.length ∧
      fillBody n written data retrieve net =
        .inl ⟨State.success, written ++ data, 0, false, net⟩) ∨
    (written.length + data.length < n - 1 ∧ data.length < retrieve ∧
      fillBody n written data retrieve net = .inr (written ++ data, retrieve - data.length)) := by
  unfold fillBody utilsFillRxBuf
  rw [List.take_of_length_le hdata]
  by_cases hfull : written.length + data.length < n - 1
  · rw [if_pos hfull]
    by_cases hall : retrieve = data.length
    · have hzero : retrieve - data.length = 0 := by omega
      exact .inr (.inl ⟨hfull, hall, by simp [hzero]⟩)
    · have hne : retrieve - data.length ≠ 0 := by omega
      exact .inr (.inr ⟨hfull, by omega, by simp [hne]⟩)
  · have hlen : n - 1 - written.length = data.length := by omega
    rw [if_neg hfull]
    exact .inl ⟨by omega, by simp [hlen]⟩

theorem bodyServed_full (hfull : written.length + data.length = n - 1)
    (hdata : data.length ≤ retrieve) : BodyServed n written data rest retrieve
      ⟨httpRetrieveMoreData, written ++ data, retrieve - data.length, true, ⟨rest, reads⟩⟩ where
  ret := show (0 : Int) ≤ 1 by decide
  got := ⟨[], by simp, rfl⟩
  retrieve := by
    simp only [List.length_append]
    omega
  full _ := by rw [List.length_append, hfull]
  ended := nofun
  room := by rw [List.length_append, hfull]

theorem bodyServed_done (hroom : written.length + data.length ≤ n - 1)
    (hall : retrieve = data.length) : BodyServed n written data rest retrieve
      ⟨State.success, written ++ data, 0, false, ⟨rest, reads⟩⟩ where
  ret := Int.le_refl 0
  got := ⟨[], by simp, rfl⟩
  retrieve := by
    simp only [List.length_append]
    omega
  full := nofun
  ended _ := rfl
  room := by rw [List.length_append]; exact hroom

theorem httpGetResponseBody_served (hroom : written.length + data.length ≤ n - 1)
    (hrest : data.length + rest.length = retrieve)
    (hreach : min (n - 1) (written.length + retrieve) ≤
      written.length + data.length + Session.reach reads) :
    BodyServed n written data rest retrieve
      (httpGetResponseBody n written data retrieve rest reads) := by
  induction reads generalizing written data rest retrieve with
  | nil =>
    have hreach' : min (n - 1) (written.length + retrieve) ≤ written.length + data.length := hreach
    rw [httpGetResponseBody]
    rcases fillBody_cases n written data retrieve ⟨rest, []⟩ hroom (by omega) with
      ⟨hfull, heq⟩ | ⟨hlt, hall, heq⟩ | ⟨hlt, hmore, heq⟩
    · rw [heq]
      exact bodyServed_full hfull (by omega)
    · rw [heq]
      exact bodyServed_done (Nat.le_of_lt hlt) hall
    · omega
  | cons size reads ih =>
    rw [httpGetResponseBody]
    rcases fillBody_cases n written data retrieve ⟨rest, size :: reads⟩ hroom (by omega) with
      ⟨hfull, heq⟩ | ⟨hlt, hall, heq⟩ | ⟨hlt, hmore, heq⟩
    · rw [heq]
      exact bodyServed_full hfull (by omega)
    · rw [heq]
      exact bodyServed_done (Nat.le_of_lt hlt) hall
    · rw [heq]
      have hne : rest ≠ [] := fun hnil => by
        rw [hnil, List.length_nil] at hrest
        omega
      dsimp only
      rw [if_neg hne]
      generalize hlen : readLen size _ = len
      have hreachCons : Session.reach (size :: reads) =
          readLen size (httpclientChunkSize - 1) + Session.reach reads := List.sum_cons
      rw [List.length_append] at hlen
      unfold readLen at hlen hreachCons
      have htake : (rest.take len).length = min len rest.length := List.length_take
      have hdrop : (rest.drop len).length = rest.length - len := List.length_drop
      have happ : (written ++ data).length = written.length + data.length := List.length_append
      have hstep : BodyServed n (written ++ data) (rest.take len) (rest.drop len)
          (retrieve - data.length) (httpGetResponseBody n (written ++ data) (rest.take len)
            (retrieve - data.length) (rest.drop len) reads) := by
        apply ih
        · rw [happ, htake]
          omega
        · rw [htake, hdrop]
          omega
        · rw [happ, htake]
          omega
      obtain ⟨got, hgot, hleft⟩ := hstep.got
      refine ⟨hstep.ret, ⟨rest.take len ++ got, ?_, ?_⟩, ?_, hstep.full, hstep.ended, hstep.room⟩
      · rw [hgot, List.append_assoc (written ++ data)]
      · rw [List.append_assoc, hleft, List.take_append_drop]
      · have hretrieve := hstep.retrieve
        rw [happ] at hretrieve
        omega

end

/-! ## The header -/

section
variable {r : Response} {reads : List Nat} {t : Nat}

theorem precision_eq_of_no_zero {s : List UInt8} (h : (0 : UInt8) ∉ s) : precision s = s := by
  have heq := precision_of_no_zero h []
  rwa [List.append_nil, show precision [] = [] from rfl, List.append_nil] at heq

theorem crlf_no_zero {s : List UInt8} (h : (0 : UInt8) ∉ s) :
    (0 : UInt8) ∉ s ++ (crlf ++ crlf) := by
  rw [List.mem_append]
  exact fun hmem => hmem.elim h (by decide)

theorem atoi_of_leadingNat {value : List UInt8} {n : Nat}
    (hdigits : (Cjson.leadingNat (value.dropWhile isspace)).1 ≠ 0)
    (hnum : (Cjson.leadingNat (value.dropWhile isspace)).2 = n) (hmax : (n : Int) ≤ Cjson.intMax)
    (b : UInt8) (more : List UInt8) (hb : isDigit b = false) : atoi (value ++ b :: more) = n := by
  have hne : value.dropWhile isspace ≠ [] := fun hnil => by
    rw [hnil] at hdigits
    exact hdigits rfl
  have hdrop : (value ++ b :: more).dropWhile isspace =
      value.dropWhile isspace ++ b :: more := by
    rw [List.dropWhile_append]
    simp [hne]
  rw [atoi, hdrop]
  generalize value.dropWhile isspace = value at hdigits hnum hne
  have htake : (value ++ b :: more).takeWhile isDigit = value.takeWhile isDigit := by
    rw [List.takeWhile_append]
    split
    · next hall =>
      have heq := (List.takeWhile_prefix isDigit (l := value)).eq_of_length hall
      rw [List.takeWhile_cons_of_neg (by simp [hb]), List.append_nil, heq]
    · rfl
  have hleading : Cjson.leadingNat (value ++ b :: more) = Cjson.leadingNat value := by
    unfold Cjson.leadingNat
    rw [htake]
  obtain ⟨first, tail, rfl⟩ := List.exists_cons_of_ne_nil hne
  have hfirst : first ≠ 45 ∧ first ≠ 43 := by
    constructor
    all_goals
      rintro rfl
      exact hdigits (by simp [Cjson.leadingNat, isDigit])
  split
  · next heq => exact absurd (List.cons.inj heq).1 hfirst.1
  · next heq => exact absurd (List.cons.inj heq).1 hfirst.2
  rw [hleading, hnum]
  unfold Cjson.saturate Cjson.intMin
  unfold Cjson.intMax at hmax ⊢
  split
  · omega
  split <;> omega

namespace Response

theorem head_no_zero (r : Response) : (0 : UInt8) ∉ r.head :=
  fun h => r.no_zero (List.mem_append_right _ h)

theorem statusLine_no_zero (r : Response) : (0 : UInt8) ∉ r.statusLine :=
  fun h => r.no_zero (List.mem_append_left _ h)

theorem length_after (r : Response) : r.after.length = r.head.length + 4 + r.body.length := by
  simp only [after, List.length_append]
  rfl

theorem length_bytes (r : Response) :
    r.bytes.length = r.statusLine.length + 2 + r.after.length := by
  simp only [bytes, List.length_append]
  rfl

theorem take_after (h : r.head.length + 4 ≤ t) :
    r.after.take t = r.head ++ (crlf ++ crlf) ++ r.body.take (t - (r.head.length + 4)) := by
  have hlen : (r.head ++ (crlf ++ crlf)).length = r.head.length + 4 := List.length_append
  rw [after, List.take_append, List.take_of_length_le (by omega), hlen]

theorem strstr_head_end (h : r.head.length + 4 ≤ t) :
    strstr (r.after.take t) (crlf ++ crlf) = some r.head.length := by
  rw [strstr, take_after h, precision_of_no_zero (crlf_no_zero r.head_no_zero)]
  exact search_append r.head_end _

theorem strstr_head_end_none (h : t < r.head.length + 4) :
    strstr (r.after.take t) (crlf ++ crlf) = none := by
  have hlen : (r.head ++ (crlf ++ crlf)).length = r.head.length + 4 := List.length_append
  have htake : r.after.take t = (r.head ++ (crlf ++ crlf)).take t := by
    rw [after, List.take_append_of_le_length (by omega)]
  have hzero : (0 : UInt8) ∉ (r.head ++ (crlf ++ crlf)).take t :=
    fun hmem => crlf_no_zero r.head_no_zero (List.mem_of_mem_take hmem)
  rw [strstr, htake, precision_eq_of_no_zero hzero]
  exact search_take r.head_end h

theorem Announced.atoi_length (h : r.Announced) : ∃ pos,
    search contentLength r.head = some pos ∧ ∀ part : List UInt8,
      atoi (precision ((r.head ++ (crlf ++ crlf) ++ part).drop (pos + 16))) =
        r.body.length := by
  obtain ⟨pos, hpos, hle, hdigits, hnum, hmax⟩ := h
  refine ⟨pos, hpos, fun part => ?_⟩
  have hzero : (0 : UInt8) ∉ r.head.drop (pos + 16) ++ (crlf ++ crlf) :=
    crlf_no_zero fun hmem => r.head_no_zero (List.mem_of_mem_drop hmem)
  rw [List.drop_append_of_le_length (by rw [List.length_append]; omega),
    List.drop_append_of_le_length hle, precision_of_no_zero hzero]
  rw [List.append_assoc]
  exact atoi_of_leadingNat hdigits hnum hmax (13) _ (by decide)

end Response

theorem readHeader_found {t' : Nat} {left : List Nat} (ht : t ≤ r.after.length)
    (h : Session.takenBy (r.head.length + 4) r.after.length t reads = some (t', left))
    (hcap : t' < httpclientReadBufSize) :
    readHeader (r.after.take t) (r.after.drop t) reads =
        .found (r.after.take t') r.head.length ⟨r.after.drop t', left⟩ ∧
      r.head.length + 4 ≤ t' ∧ t' ≤ r.after.length ∧ t ≤ t' := by
  induction reads generalizing t with
  | nil =>
    rw [Session.takenBy] at h
    split at h
    · next hneed =>
      obtain ⟨rfl, rfl⟩ : t = t' ∧ [] = left := by simpa using h
      rw [readHeader, Response.strstr_head_end hneed]
      exact ⟨rfl, hneed, ht, Nat.le_refl _⟩
    · simp at h
  | cons size reads ih =>
    rw [Session.takenBy] at h
    split at h
    · next hneed =>
      obtain ⟨rfl, rfl⟩ : t = t' ∧ size :: reads = left := by simpa using h
      rw [readHeader, Response.strstr_head_end hneed]
      exact ⟨rfl, hneed, ht, Nat.le_refl _⟩
    · next hneed =>
      have hlen := r.length_after
      obtain ⟨hfound, hneed', ht', hle⟩ := ih (Nat.min_le_right _ _) h
      have hpos : 0 < readLen size httpclientRaedHeadSize := by
        unfold readLen httpclientRaedHeadSize
        omega
      rw [readHeader, Response.strstr_head_end_none (by omega)]
      have hne : r.after.drop t ≠ [] := by
        rw [Ne, List.drop_eq_nil_iff]
        omega
      have htake : r.after.take t ++ (r.after.drop t).take (readLen size httpclientRaedHeadSize) =
          r.after.take (min (t + readLen size httpclientRaedHeadSize) r.after.length) := by
        rw [← List.take_add, List.take_eq_take_min]
      have hsum : (r.after.take t).length +
          ((r.after.drop t).take (readLen size httpclientRaedHeadSize)).length =
          min (t + readLen size httpclientRaedHeadSize) r.after.length := by
        rw [← List.length_append, htake, List.length_take]
        omega
      have hdrop : (r.after.drop t).drop (readLen size httpclientRaedHeadSize) =
          r.after.drop (min (t + readLen size httpclientRaedHeadSize) r.after.length) := by
        rw [List.drop_drop]
        rcases Nat.le_total (t + readLen size httpclientRaedHeadSize) r.after.length with hle | hle
        · rw [Nat.min_eq_left hle]
        · rw [Nat.min_eq_right hle, List.drop_of_length_le hle, List.drop_length]
      dsimp only
      rw [if_neg hne, hsum, if_neg (by omega), htake, hdrop]
      exact ⟨hfound, hneed', ht', by omega⟩

end

/-! ## A call -/

theorem httpGetResponseBody_cases (n : Nat) (data : List UInt8) {rest : List UInt8}
    {retrieve : Nat} {reads : List Nat} (hroom : data.length ≤ n - 1)
    (hrest : data.length + rest.length = retrieve)
    (hc : data = [] ∧ reads = [] ∨ min (n - 1) retrieve ≤ data.length + Session.reach reads) :
    BodyServed n [] data rest retrieve (httpGetResponseBody n [] data retrieve rest reads) ∨
      data = [] ∧ reads = [] ∧ httpGetResponseBody n [] data retrieve rest reads =
        ⟨stateSysDependNwkTimeout, [], retrieve, true, ⟨rest, []⟩⟩ := by
  by_cases hreach : min (n - 1) retrieve ≤ data.length + Session.reach reads
  · refine .inl (httpGetResponseBody_served ?_ hrest ?_)
    · rwa [List.length_nil, Nat.zero_add]
    · simpa using hreach
  · obtain ⟨rfl, rfl⟩ := hc.resolve_right hreach
    refine .inr ⟨rfl, rfl, ?_⟩
    have hzero : Session.reach [] = 0 := rfl
    rw [hzero, List.length_nil] at hreach
    rw [httpGetResponseBody]
    rcases fillBody_cases n [] [] retrieve ⟨rest, []⟩
      (by simp) (Nat.zero_le _) with ⟨hfull, -⟩ | ⟨-, hall, -⟩ | ⟨-, -, heq⟩
    · rw [List.length_nil] at hfull
      omega
    · rw [List.length_nil] at hall
      omega
    · rw [heq]
      rfl

namespace Session

variable {r : Response} {s : Session} {c : Call} {ret : Int} {written : List UInt8}
  {handle : HttpHandle} {net : Network}

theorem perform_of_served (h : httpclientRecvResponse c.bufLen s.handle ⟨s.rest, c.reads⟩ =
      some (ret, written, handle, net)) (hret : 0 ≤ ret)
    (hlen : handle.responseContentLen - handle.retrieveLen - handle.alreadyReceived =
      written.length) :
    s.perform c = some ((written.length : Int), written,
      { handle with alreadyReceived := handle.responseContentLen - handle.retrieveLen }, net) := by
  unfold perform wrapperHttpPerform
  rw [h]
  dsimp only
  rw [if_neg (Int.not_lt.mpr hret), hlen, Int.toNat_natCast, List.take_left]

theorem perform_of_failed (h : httpclientRecvResponse c.bufLen s.handle ⟨s.rest, c.reads⟩ =
      some (ret, written, handle, net)) (hret : ret < 0) :
    s.perform c = some (ret, [], handle, net) := by
  unfold perform wrapperHttpPerform
  rw [h]
  dsimp only
  rw [if_pos hret]

/-- Before the header is read, or with the body read as far as it was handed out. -/
inductive Phase (r : Response) (s : Session) : Prop where
  | begin (isMore : Bool) (handle : s.handle = ⟨isMore, 0, 0, 0⟩) (rest : s.rest = r.bytes)
      (delivered : s.delivered = []) (empty : isMore = true → r.body = [])
  | body (length : s.handle.responseContentLen = r.body.length)
      (retrieve : s.handle.retrieveLen = s.rest.length)
      (received : s.handle.alreadyReceived = s.delivered.length)
      (whole : s.delivered ++ s.rest = r.body)
      (ended : s.handle.isMore = false → s.rest = [] ∧ s.completed = true)

structure Inv (r : Response) (s : Session) : Prop where
  phase : Phase r s
  complete : s.completed = true → s.delivered = r.body

theorem start_inv (r : Response) : Inv r (start r) where
  phase := .begin false rfl rfl rfl nofun
  complete := nofun

/-- How many calls that can read may still come before the body is complete. -/
def pending (r : Response) (s : Session) : Nat :=
  if s.completed then 0
  else (if s.rest = r.bytes then 1 else 0) + (r.body.length - s.delivered.length) + 1

theorem pending_completed (hdone : s.completed = true) : pending r s = 0 := if_pos hdone

theorem pending_body (hrest : s.rest.length ≤ r.body.length) :
    pending r s ≤ r.body.length - s.delivered.length + 1 := by
  have hne : s.rest ≠ r.bytes := fun heq => by
    have hlen := r.length_bytes
    have hafter := r.length_after
    rw [heq] at hrest
    omega
  unfold pending
  rw [if_neg hne, Nat.zero_add]
  split
  · exact Nat.zero_le _
  · exact Nat.le_refl _

theorem lt_pending (hdone : s.completed = false) :
    r.body.length - s.delivered.length < pending r s := by
  unfold pending
  rw [hdone, if_neg Bool.false_ne_true]
  omega

theorem next_failed (hperform : s.perform c = some (ret, [], handle, net)) (hret : ret < 0) :
    s.next c = { s with handle := handle, rest := net.rest } := by
  unfold next
  rw [hperform]
  dsimp only
  rw [decide_eq_false (Int.not_le.mpr hret), List.append_nil, Bool.false_and, Bool.or_false]

theorem next_served {piece : List UInt8}
    (hperform : s.perform c = some (((piece.length : Nat) : Int), piece, handle, net)) :
    s.next c = ⟨handle, net.rest, s.delivered ++ piece, s.completed || !handle.isMore⟩ := by
  unfold next
  rw [hperform]
  dsimp only
  rw [decide_eq_true (Int.natCast_nonneg _), Bool.true_and]

/-! ## Careful calls -/

structure Step (r : Response) (s : Session) (c : Call) : Prop where
  inv : Inv r (s.next c)
  inside : s.perform c ≠ none
  served : ∀ ret piece handle net, s.perform c = some (ret, piece, handle, net) → ret < 0 →
    net.reads = [] ∨ s.delivered = r.body
  handed : c.reading = true → s.rest ≠ r.bytes → s.delivered ≠ r.body →
    ∃ piece handle net, s.perform c = some (((piece.length : Nat) : Int), piece, handle, net) ∧
      piece.length = min (c.bufLen - 1) (r.body.length - s.delivered.length)
  fewer : pending r (s.next c) ≤ pending r s - if c.reading then 1 else 0

theorem step_of_failed (h : Inv r s)
    (hperform : s.perform c = some (ret, [], handle, net)) (hret : ret < 0)
    (hphase : Phase r { s with handle := handle, rest := net.rest })
    (hserved : net.reads = [] ∨ s.delivered = r.body)
    (hhanded : c.reading = true → s.rest ≠ r.bytes → s.delivered = r.body)
    (hfewer : pending r { s with handle := handle, rest := net.rest } ≤
      pending r s - if c.reading then 1 else 0) : Step r s c where
  inv := by
    rw [next_failed hperform hret]
    exact ⟨hphase, h.complete⟩
  inside := by
    rw [hperform]
    exact nofun
  served ret' piece' handle' net' heq _ := by
    cases hperform.symm.trans heq
    exact hserved
  handed hreading hrest hne := absurd (hhanded hreading hrest) hne
  fewer := by
    rw [next_failed hperform hret]
    exact hfewer

theorem step_of_served (h : Inv r s) {piece : List UInt8}
    (hperform : s.perform c = some (((piece.length : Nat) : Int), piece, handle, net))
    (hphase : Phase r ⟨handle, net.rest, s.delivered ++ piece, s.completed || !handle.isMore⟩)
    (hover : handle.isMore = false → s.delivered ++ piece = r.body)
    (hmore : handle.isMore = true → piece ≠ [] ∧ net.rest.length ≤ r.body.length)
    (hpiece : s.delivered.length + piece.length ≤ r.body.length) (hhanded : s.rest = r.bytes ∨
      piece.length = min (c.bufLen - 1) (r.body.length - s.delivered.length)) : Step r s c where
  inv := by
    rw [next_served hperform]
    refine ⟨hphase, fun hcompleted => ?_⟩
    rcases Bool.or_eq_true_iff.mp hcompleted with hdone | hdone
    · have hlen := congrArg List.length (h.complete hdone)
      have hnil : piece = [] := List.length_eq_zero_iff.mp (by omega)
      rw [hnil, List.append_nil, h.complete hdone]
    · exact hover ((Bool.not_eq_true' _).mp hdone)
  inside := by
    rw [hperform]
    exact nofun
  served ret' piece' handle' net' heq hneg := by
    cases hperform.symm.trans heq
    exact absurd hneg (Int.not_lt.mpr (Int.natCast_nonneg _))
  handed _ hrest _ := ⟨piece, handle, net, hperform, hhanded.resolve_left hrest⟩
  fewer := by
    rw [next_served hperform]
    cases hdone : s.completed || !handle.isMore with
    | true => exact Nat.le_trans (Nat.le_of_eq (pending_completed rfl)) (Nat.zero_le _)
    | false =>
      obtain ⟨hcompleted, hisMore⟩ := Bool.or_eq_false_iff.mp hdone
      obtain ⟨hne, hrest⟩ := hmore (by simpa using hisMore)
      have hpos := List.length_pos_iff.mpr hne
      have hlt := lt_pending (r := r) hcompleted
      refine Nat.le_trans (pending_body (r := r) hrest) ?_
      rw [List.length_append]
      split <;> omega

theorem step_of_bodyServed (h : Inv r s) {data rest : List UInt8} {retrieve : Nat}
    {result : BodyResult} (hrecv : httpclientRecvResponse c.bufLen s.handle ⟨s.rest, c.reads⟩ =
      some (result.ret, result.written, handle, result.net))
    (hdata : s.delivered ++ (data ++ rest) = r.body)
    (hretrieve : retrieve = data.length + rest.length)
    (hserved : BodyServed c.bufLen [] data rest retrieve result)
    (hhandle : handle.responseContentLen = r.body.length ∧
      handle.alreadyReceived = s.delivered.length ∧ handle.retrieveLen = result.retrieveLen ∧
      handle.isMore = result.isMore) : Step r s c := by
  obtain ⟨hlength, hreceived, hleft, hisMore⟩ := hhandle
  obtain ⟨got, hgot, hrest⟩ := hserved.got
  rw [List.nil_append] at hgot
  have hcount := hserved.retrieve
  have hwritten : result.written.length = data.length + got.length := by
    rw [hgot, List.length_append]
  have hrestlen : rest.length = got.length + result.net.rest.length := by
    rw [← hrest, List.length_append]
  have hbody : r.body.length = s.delivered.length + (data.length + rest.length) := by
    rw [← hdata, List.length_append, List.length_append]
  rw [List.length_nil] at hcount
  have hperform := perform_of_served hrecv hserved.ret (by rw [hlength, hreceived, hleft]; omega)
  have hwhole : s.delivered ++ result.written ++ result.net.rest = r.body := by
    rw [hgot, ← hdata, ← hrest]
    simp only [List.append_assoc]
  have hover : result.isMore = false → result.net.rest = [] := by
    intro hfalse
    have hzero := hserved.ended hfalse
    exact List.length_eq_zero_iff.mp (by omega)
  refine step_of_served h hperform ?_ ?_ ?_ (by omega) (.inr ?_)
  · refine .body hlength ?_ ?_ hwhole ?_
    · dsimp only
      omega
    · dsimp only
      rw [hlength, hleft, List.length_append]
      omega
    · intro hfalse
      refine ⟨hover (hisMore ▸ hfalse), ?_⟩
      dsimp only at hfalse ⊢
      rw [hfalse, Bool.not_false, Bool.or_true]
  · intro hfalse
    rw [hover (hisMore ▸ hfalse), List.append_nil] at hwhole
    exact hwhole
  · intro htrue
    have hfull := hserved.full (hisMore ▸ htrue)
    have htwo := c.two_le
    refine ⟨fun hnil => ?_, by omega⟩
    rw [hnil, List.length_nil] at hfull
    omega
  · -- the buffer is full, or nothing is left
    have hroom := hserved.room
    cases hend : result.isMore with
    | true =>
      have hfull := hserved.full hend
      omega
    | false =>
      have hzero := hserved.ended hend
      omega

theorem timeout_neg : stateSysDependNwkTimeout < 0 := by decide

theorem httpclientRecvResponse_more (bufLen : Nat) (net : Network)
    (hmore : handle.isMore = true) (hne : handle.responseContentLen ≠ -1) {result : BodyResult}
    (heq : httpGetResponseBody bufLen [] [] handle.retrieveLen net.rest net.reads = result) :
    httpclientRecvResponse bufLen handle net = some (result.ret, result.written,
      { handle with isMore := result.isMore, retrieveLen := result.retrieveLen },
      result.net) := by
  rw [httpclientRecvResponse, if_pos hmore, if_neg hne, ← heq]

theorem httpGetResponseBody_zero {n : Nat} (hn : 2 ≤ n) (rest : List UInt8) (reads : List Nat) :
    httpGetResponseBody n [] [] 0 rest reads =
      ⟨State.success, [], 0, false, ⟨rest, reads⟩⟩ := by
  have hfill : fillBody n [] [] 0 ⟨rest, reads⟩ =
      .inl ⟨State.success, [], 0, false, ⟨rest, reads⟩⟩ := by
    rcases fillBody_cases n [] [] 0 ⟨rest, reads⟩ (by simp) (Nat.le_refl _) with
      ⟨hfull, -⟩ | ⟨-, -, heq⟩ | ⟨-, hlt, -⟩
    · rw [List.length_nil] at hfull
      omega
    · exact heq
    · exact absurd hlt (Nat.not_lt_zero _)
  cases reads <;> rw [httpGetResponseBody, hfill]

theorem step_of_more (h : Inv r s) (hmore : s.handle.isMore = true)
    (hc : c.reads = [] ∨ min (c.bufLen - 1) s.handle.retrieveLen ≤ reach c.reads) : Step r s c := by
  cases h.phase with
  | begin isMore hhandle hrest hdelivered hempty =>
    -- nothing was read, and there is no body
    have hlength : s.handle.responseContentLen = 0 := by rw [hhandle]
    have hretrieve : s.handle.retrieveLen = 0 := by rw [hhandle]
    have hreceived : s.handle.alreadyReceived = 0 := by rw [hhandle]
    have hnil : r.body = [] := hempty (by rw [hhandle] at hmore; exact hmore)
    have hbody := httpGetResponseBody_zero c.two_le s.rest c.reads
    rw [← hretrieve] at hbody
    have hrecv := httpclientRecvResponse_more c.bufLen ⟨s.rest, c.reads⟩ hmore
      (by rw [hlength]; decide) hbody
    have hperform := perform_of_served hrecv (Int.le_refl 0) (by
      rw [hlength, hretrieve, hreceived]
      rfl)
    refine step_of_served h hperform ?_ ?_ nofun ?_ (.inl hrest)
    · refine .begin false ?_ hrest ?_ nofun
      · rw [hlength, hretrieve]
        rfl
      · rw [List.append_nil, hdelivered]
    · intro _
      rw [hdelivered, hnil]
      rfl
    · rw [hdelivered]
      exact Nat.zero_le _
  | body hlength hretrieve hreceived hwhole hover =>
    have hrecv := httpclientRecvResponse_more c.bufLen ⟨s.rest, c.reads⟩ hmore
      (by rw [hlength]; omega) rfl
    have hcase := httpGetResponseBody_cases c.bufLen [] (Nat.zero_le _)
      (show [].length + s.rest.length = s.handle.retrieveLen by rw [hretrieve]; simp)
      (hc.imp (fun h => ⟨rfl, h⟩) fun h => by simpa using h)
    rcases hcase with hserved | ⟨-, hreads, heq⟩
    · refine step_of_bodyServed h hrecv ?_ ?_ hserved ⟨hlength, hreceived, rfl, rfl⟩
      · exact hwhole
      · rw [hretrieve]
        simp
    · rw [heq] at hrecv
      have hidle : c.reading = false := by rw [Call.reading, hreads]; rfl
      refine step_of_failed h (perform_of_failed hrecv timeout_neg) timeout_neg ?_ (.inl rfl) ?_ ?_
      · exact .body hlength hretrieve hreceived hwhole nofun
      · rw [hidle]
        nofun
      · rw [hidle]
        exact Nat.le_refl _

theorem httpParseResponseHeader_found (r : Response) (ha : r.Announced) (bufLen : Nat) {size : Nat}
    {reads left : List Nat} {taken : Nat} (handle : HttpHandle)
    (hfirst : r.statusLine.length + 2 ≤ readLen size httpclientRaedHeadSize)
    (htaken : takenBy (r.head.length + 4) r.after.length
      (min (readLen size httpclientRaedHeadSize) r.bytes.length - (r.statusLine.length + 2))
      reads = some (taken, left))
    (hcap : taken < httpclientReadBufSize) :
    r.head.length + 4 ≤ taken ∧ taken ≤ r.after.length ∧
      httpParseResponseHeader bufLen handle
        (r.bytes.take (readLen size httpclientRaedHeadSize))
        ⟨r.bytes.drop (readLen size httpclientRaedHeadSize), reads⟩ =
      (let body := httpGetResponseBody bufLen [] (r.body.take (taken - (r.head.length + 4)))
        r.body.length (r.body.drop (taken - (r.head.length + 4))) left
      some (body.ret, body.written,
        { handle with
          isMore := body.isMore
          retrieveLen := body.retrieveLen
          responseContentLen := r.body.length }, body.net)) := by
  generalize readLen size httpclientRaedHeadSize = len at hfirst htaken
  have hbytes := r.length_bytes
  have hline : (r.statusLine ++ crlf).length = r.statusLine.length + 2 := List.length_append
  have hafter := r.length_after
  generalize ht : min len r.bytes.length - (r.statusLine.length + 2) = t at htaken
  obtain ⟨hfound, hneed, htotal, -⟩ := readHeader_found (by omega) htaken hcap
  refine ⟨hneed, htotal, ?_⟩
  -- the first read holds the status line and a part of the rest
  have htake : r.bytes.take len = r.statusLine ++ crlf ++ r.after.take t := by
    rw [Response.bytes, List.take_append, hline, List.take_of_length_le (by omega)]
    congr 1
    rw [List.take_eq_take_iff]
    omega
  have hdrop : r.bytes.drop len = r.after.drop t := by
    rw [Response.bytes, List.drop_append, hline, List.drop_of_length_le (by omega),
      List.nil_append]
    rcases Nat.le_total len r.bytes.length with hlen | hlen
    · congr 1
      omega
    · rw [List.drop_of_length_le (by omega), List.drop_of_length_le (by omega)]
  have hcrlf : strstr (r.bytes.take len) crlf = some r.statusLine.length := by
    have hzero : (0 : UInt8) ∉ r.statusLine ++ crlf := by
      rw [List.mem_append]
      exact fun hmem => hmem.elim r.statusLine_no_zero (by decide)
    rw [strstr, htake, precision_of_no_zero hzero]
    exact search_append r.line_end _
  have hrest : (r.bytes.take len).drop (r.statusLine.length + 2) = r.after.take t := by
    rw [htake, ← hline, List.drop_left]
  obtain ⟨pos, hpos, hatoi⟩ := ha.atoi_length
  have hfield : strstr (r.after.take taken) contentLength = some pos := by
    rw [strstr, Response.take_after hneed,
      precision_of_no_zero (crlf_no_zero r.head_no_zero), List.append_assoc]
    exact search_append hpos _
  have hlength : atoi (precision ((r.after.take taken).drop (pos + 16))) = r.body.length := by
    rw [Response.take_after hneed]
    exact hatoi _
  have hhead : (r.head ++ (crlf ++ crlf)).length = r.head.length + 4 := List.length_append
  have hdata : (r.after.take taken).drop (r.head.length + 4) =
      r.body.take (taken - (r.head.length + 4)) := by
    rw [Response.take_after hneed, ← hhead, List.drop_left]
  have hleft : r.after.drop taken = r.body.drop (taken - (r.head.length + 4)) := by
    rw [Response.after, List.drop_append, hhead, List.drop_of_length_le (by omega),
      List.nil_append]
  unfold httpParseResponseHeader
  simp only [hcrlf, hrest, hdrop, hfound, hfield, hlength, hdata, hleft,
    if_neg (Int.not_lt.mpr (Int.natCast_nonneg r.body.length)), Int.toNat_natCast]

theorem step_of_begin (h : Inv r s) (hmore : s.handle.isMore = false)
    (hc : s.rest ≠ [] → r.body = [] ∧ c.reads = [] ∨ r.Announced ∧ HeaderServed r c) :
    Step r s c := by
  cases h.phase with
  | begin isMore hhandle hrest hdelivered hempty =>
    have hne : s.rest ≠ [] := by
      have hlen := r.length_bytes
      intro hnil
      rw [← hrest, hnil, List.length_nil] at hlen
      omega
    rcases hc hne with ⟨hbody, hreads⟩ | ⟨hannounced, size, reads, taken, left, hreads, hfirst,
      htaken, hcap, hfit, hreach⟩
    · have hrecv : httpclientRecvResponse c.bufLen s.handle ⟨s.rest, c.reads⟩ =
          some (stateSysDependNwkTimeout, [], { s.handle with isMore := true },
            ⟨s.rest, c.reads⟩) := by
        rw [httpclientRecvResponse, hmore, hreads]
        rfl
      have hidle : c.reading = false := by rw [Call.reading, hreads]; rfl
      refine step_of_failed h (perform_of_failed hrecv timeout_neg) timeout_neg ?_ (.inl hreads)
        (fun _ hne => absurd hrest hne) ?_
      · refine .begin true ?_ hrest hdelivered fun _ => hbody
        rw [hhandle]
      · rw [hidle]
        exact Nat.le_refl _
    · obtain ⟨hneed, htotal, hparse⟩ := httpParseResponseHeader_found r hannounced
        c.bufLen { s.handle with isMore := true } hfirst htaken hcap
      have hlen := r.length_after
      have hbytes := r.length_bytes
      have hrecv : httpclientRecvResponse c.bufLen s.handle ⟨s.rest, c.reads⟩ =
          httpParseResponseHeader c.bufLen { s.handle with isMore := true }
            (r.bytes.take (readLen size httpclientRaedHeadSize))
            ⟨r.bytes.drop (readLen size httpclientRaedHeadSize), reads⟩ := by
        rw [httpclientRecvResponse, hmore, hreads]
        dsimp only
        rw [if_neg hne, hrest]
        rfl
      rw [hparse] at hrecv
      generalize hk : taken - (r.head.length + 4) = k at hrecv hfit hreach
      have htake : (r.body.take k).length = k := by
        rw [List.length_take]
        omega
      have hdrop : (r.body.drop k).length = r.body.length - k := List.length_drop
      have hcase := httpGetResponseBody_cases c.bufLen (r.body.take k)
        (by rw [htake]; exact hfit)
        (show (r.body.take k).length + (r.body.drop k).length = r.body.length by
          rw [htake, hdrop]
          omega)
        (hreach.imp (fun h => ⟨?_, h.2⟩) fun h => by rw [htake]; exact h)
      · rcases hcase with hserved | ⟨hnil, hleft, heq⟩
        · refine step_of_bodyServed h hrecv ?_ ?_ hserved ⟨rfl, ?_, rfl, rfl⟩
          · rw [hdelivered, List.take_append_drop, List.nil_append]
          · rw [htake, hdrop]
            omega
          · rw [hdelivered, hhandle]
            rfl
        · rw [heq] at hrecv
          have hzero : k = 0 := by rw [← htake, hnil, List.length_nil]
          refine step_of_failed h (perform_of_failed hrecv timeout_neg) timeout_neg ?_ (.inl rfl)
            (fun _ hne => absurd hrest hne) ?_
          · refine .body rfl ?_ ?_ ?_ nofun
            · rw [hzero, List.drop_zero]
            · rw [hdelivered, hhandle]
              rfl
            · rw [hdelivered, hzero, List.drop_zero, List.nil_append]
          · cases hdone : s.completed with
            | true => exact Nat.le_trans (Nat.le_of_eq (pending_completed rfl)) (Nat.zero_le _)
            | false =>
              have hpending : pending r s = 1 + (r.body.length - s.delivered.length) + 1 := by
                unfold pending
                rw [hdone, if_neg Bool.false_ne_true, if_pos hrest]
              refine Nat.le_trans (pending_body (r := r) ?_) ?_
              · rw [hzero, List.drop_zero]
              · rw [hpending]
                dsimp only
                split <;> omega
      · rw [show k = 0 by omega, List.take_zero]
  | body hlength hretrieve hreceived hwhole hover =>
    -- the body was complete, and nothing comes behind it
    obtain ⟨hnil, hdone⟩ := hover hmore
    have hrecv : ∃ reads, httpclientRecvResponse c.bufLen s.handle ⟨s.rest, c.reads⟩ =
        some (stateSysDependNwkTimeout, [], { s.handle with isMore := true },
          ⟨s.rest, reads⟩) := by
      rw [httpclientRecvResponse, hmore]
      cases c.reads with
      | nil => exact ⟨[], rfl⟩
      | cons size reads => exact ⟨reads, by simp [hnil]⟩
    obtain ⟨reads, hrecv⟩ := hrecv
    refine step_of_failed h (perform_of_failed hrecv timeout_neg) timeout_neg ?_
      (.inr (h.complete hdone)) (fun _ _ => h.complete hdone) ?_
    · exact .body hlength hretrieve hreceived hwhole nofun
    · exact Nat.le_trans (Nat.le_of_eq (pending_completed hdone)) (Nat.zero_le _)

theorem step_of_careful (h : Inv r s) (hc : Careful r s c) : Step r s c := by
  unfold Careful at hc
  split at hc
  · next hmore => exact step_of_more h hmore hc
  · next hmore => exact step_of_begin h (by simpa using hmore) hc

theorem Step.kept (h : Step r s c) : StepKept r s c where
  inside := h.inside
  lossless := by
    cases h.inv.phase with
    | begin isMore hhandle hrest hdelivered hempty =>
      refine ⟨r.body, by rw [hdelivered]; rfl, ?_⟩
      rw [hrest, Response.bytes, Response.after, ← List.append_assoc]
      exact List.suffix_append _ _
    | body hlength hretrieve hreceived hwhole hover =>
      exact ⟨(s.next c).rest, hwhole, List.suffix_refl _⟩
  complete := h.inv.complete
  served := h.served
  handed := h.handed

/-- The bytes of the body come one after the other, whatever the splits and timeouts, and when
more calls than it has bytes and one could read, it is complete. -/
theorem body_delivered (r : Response) {calls : List Call}
    (hc : Meets next (Careful r) (start r) calls) :
    Meets next (StepKept r) (start r) calls ∧
      (r.body.length + 1 < calls.countP Call.reading →
        (run next (start r) calls).completed = true ∧
          (run next (start r) calls).delivered = r.body) := by
  have hinv := run_invariant_of_meets (fun _ _ hc h => (step_of_careful h hc).inv) hc
    (start_inv r)
  refine ⟨meets_of_invariant (I := Inv r) (fun _ _ hc h => (step_of_careful h hc).inv)
    (fun _ _ hc h => (step_of_careful h hc).kept) hc (start_inv r), fun hlt => ?_⟩
  have hstart : pending r (start r) = r.body.length + 2 := by
    have hsum : pending r (start r) = 1 + (r.body.length - 0) + 1 := by
      simp [pending, start]
    omega
  have hzero : pending r (run next (start r) calls) = 0 :=
    rank_run_eq_zero (O := Call.reading) (I := Inv r) (fun _ _ hc h => (step_of_careful h hc).inv)
      (fun _ _ hc h hown => by simpa [hown] using (step_of_careful h hc).fewer)
      (fun _ _ hc h hown => by simpa [hown] using (step_of_careful h hc).fewer)
      hc (start_inv r) (by omega)
  have hdone : (run next (start r) calls).completed = true := by
    by_contra hnot
    have hpos := lt_pending (r := r) (Bool.eq_false_iff.mpr hnot)
    omega
  exact ⟨hdone, hinv.complete hdone⟩

def hello : Response where
  statusLine := text "HTTP/1.1 200 OK"
  head := text "Content-Length: 5"
  body := text "hello"
  line_end := by decide
  head_end := by decide
  no_zero := by decide

theorem hello_announced : hello.Announced :=
  ⟨0, by decide, by decide, by decide, by decide, by decide⟩

/-- The header and three bytes of the body in three reads. -/
def firstCall : Call := ⟨4, by decide, [31, 7, 0]⟩

def byteCall : Call := ⟨2, by decide, [0]⟩

/-- A first call, one whose read times out, one for the rest of the body, and more. -/
def helloCalls : List Call :=
  [firstCall, ⟨4, by decide, []⟩, ⟨9, by decide, [0, 0]⟩, byteCall, byteCall, byteCall, byteCall,
    byteCall]

theorem careful_of_more (hmore : s.handle.isMore = true)
    (h : c.reads = [] ∨ min (c.bufLen - 1) s.handle.retrieveLen ≤ reach c.reads) :
    Careful r s c := by
  rw [Careful, if_pos hmore]
  exact h

theorem careful_of_ended (hmore : s.handle.isMore = false) (hrest : s.rest = []) :
    Careful r s c := by
  rw [Careful, if_neg (by rw [hmore]; exact Bool.false_ne_true)]
  exact fun hne => absurd hrest hne

theorem hello_careful : Meets next (Careful hello) (start hello) helloCalls := by
  refine ⟨?_, careful_of_more ?_ (.inl ?_), careful_of_more ?_ (.inr ?_), careful_of_ended ?_ ?_,
    careful_of_more ?_ (.inr ?_), careful_of_ended ?_ ?_, careful_of_more ?_ (.inr ?_),
    careful_of_ended ?_ ?_, trivial⟩
  · rw [Careful, if_neg (by decide)]
    exact fun _ => .inr ⟨hello_announced, 31, [7, 0], 23, [0], rfl, by decide,
      by decide, by decide, by decide, by decide⟩
  all_goals decide

/-- Three bytes, none, and the other two, with which the body is complete. -/
theorem hello_delivered :
    Meets next (StepKept hello) (start hello) helloCalls ∧
      (run next (start hello) helloCalls).completed = true ∧
      (run next (start hello) helloCalls).delivered = hello.body ∧
      (run next (start hello) (helloCalls.take 2)).delivered = text "hel" ∧
      (run next (start hello) (helloCalls.take 3)).delivered = text "hello" := by
  obtain ⟨hkept, hdone⟩ := body_delivered hello hello_careful
  obtain ⟨hcompleted, hdelivered⟩ := hdone (by decide)
  exact ⟨hkept, hcompleted, hdelivered, by decide, by decide⟩

/-- The body comes with the end of the header, and is larger than the response buffer. -/
theorem leftover_lost : let calls : List Call := [⟨4, by decide, [31, 31]⟩]
    ¬ Meets next (StepKept hello) (start hello) calls ∧
      (run next (start hello) calls).delivered = text "hel" ∧
      (run next (start hello) calls).rest = [] := by
  intro calls
  have hdelivered : (run next (start hello) calls).delivered = text "hel" := by decide
  have hrest : (run next (start hello) calls).rest = [] := by decide
  refine ⟨fun h => ?_, hdelivered, hrest⟩
  obtain ⟨todo, hwhole, hsuffix⟩ := h.1.lossless
  have hnil : todo = [] := List.suffix_nil.mp (hrest ▸ hsuffix)
  have heq : (run next (start hello) calls).delivered = hello.body := by
    rw [hnil, List.append_nil] at hwhole
    exact hwhole
  rw [hdelivered] at heq
  exact absurd heq (by decide)

end Session

end AliyunIot.Httpc
