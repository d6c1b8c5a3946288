import AliyunIot.Infra.HttpcBody

/-!
# What a response header does to its buffer

`_http_parse_response_header` and `_http_get_response_body` of `infra_httpc.c` again, with their
counters as integers and with the buffer of `httpclient_recv_response` as it lies in memory: what
is behind a terminator stays there when the buffer is moved, and `Content-Length` is read sixteen
bytes behind its first letter, wherever that is. `header_safe_iff` says for which bytes and reads
the header stays in the buffer and no length is negative.
-/

namespace AliyunIot.Httpc.Header

open Lib Format

/-! ## The buffer -/

/-- The buffer of `httpclient_recv_response`: what was read, up to its terminator, and the memory
behind the terminator, beyond the end of the buffer too. -/
structure ReadBuf where
  data : List UInt8
  behind : List UInt8
  fits : data.length < httpclientReadBufSize

namespace ReadBuf

/-- The memory from the start of the buffer on. -/
def bytes (buf : ReadBuf) : List UInt8 := buf.data ++ 0 :: buf.behind

/-- The first read into the buffer, which is zero, with the memory behind the buffer. -/
def ofRead (rest : List UInt8) (size : Nat) (stack : List UInt8) : ReadBuf where
  data := rest.take (readLen size httpclientRaedHeadSize)
  behind := List.replicate (httpclientReadBufSize - 1 -
    (rest.take (readLen size httpclientRaedHeadSize)).length) 0 ++ stack
  fits := by
    rw [List.length_take]
    unfold readLen httpclientRaedHeadSize httpclientReadBufSize
    omega

/-- A read behind the data and a terminator behind the read, if both are inside the buffer. -/
def append (buf : ReadBuf) (read : List UInt8) : Option ReadBuf :=
  if h : buf.data.length + read.length < httpclientReadBufSize then
    some ⟨buf.data ++ read, buf.behind.drop read.length, by rwa [List.length_append]⟩
  else none

/-- The status line is ended, and what follows it is moved to the start of the buffer, with the
terminator. -/
def removeStatusLine (buf : ReadBuf) (crlfPos : Nat) : ReadBuf where
  data := buf.data.drop (crlfPos + 2)
  behind := (buf.data.set crlfPos 0 ++ 0 :: buf.behind).drop
    (buf.data.length - (crlfPos + 2) + 1)
  fits := by
    rw [List.length_drop]
    exact Nat.lt_of_le_of_lt (Nat.sub_le _ _) buf.fits

end ReadBuf

/-- `httpclient_data_t`: the counters, and what is written of a response buffer, whose size
`wrapper_http_perform` checks. -/
structure ClientData where
  isMore : Bool
  retrieveLen : Int
  responseContentLen : Int
  responseBuf : List UInt8
  responseBufLen : { n : Nat // 0 < n ∧ n ≤ 2147483647 }

/-- What a response handler comes to: it writes outside of its buffer, it passes a negative
length, or it returns. -/
inductive Outcome where
  | overflow
  | negativeLength
  | returned (ret : Int) (client : ClientData) (net : Network)

/-! ## The body -/

/-- `_utils_fill_rx_buf`, none where it copies a negative length. -/
def utilsFillRxBuf (data : List UInt8) (len : Int) (client : ClientData) :
    Option (Int × ClientData) :=
  let count : Int := client.responseBuf.length
  let bufLen : Int := client.responseBufLen.val
  if count + len < bufLen - 1 then
    if len < 0 then none
    else
      some (State.success,
        { client with
          responseBuf := client.responseBuf ++ data.take len.toNat
          retrieveLen := client.retrieveLen - len })
  else if bufLen - 1 - count < 0 then none
  else
    some (httpRetrieveMoreData,
      { client with
        responseBuf := client.responseBuf ++ data.take (bufLen - 1 - count).toNat
        retrieveLen := client.retrieveLen - (bufLen - 1 - count) })

/-- A round of `_http_get_response_body` up to its read: how it ends, or how much it asks for. -/
def bodyRound (data : List UInt8) (client : ClientData) (net : Network) :
    Outcome ⊕ ClientData × Int :=
  match utilsFillRxBuf data (min data.length client.retrieveLen) client with
  | none => .inl .negativeLength
  | some (ret, client) =>
    if ret = httpRetrieveMoreData then .inl (.returned ret client net)
    else if client.retrieveLen = 0 then
      .inl (.returned State.success { client with isMore := false } net)
    else
      let maxLen : Int :=
        min (min (httpclientChunkSize - 1)
          (client.responseBufLen.val - 1 - client.responseBuf.length)) client.retrieveLen
      if maxLen < 0 then .inl .negativeLength
      else if httpclientReadBufSize < maxLen then .inl .overflow
      else .inr (client, maxLen)

/-- The loops of `_http_get_response_body`. -/
def bodyLoop (data : List UInt8) (client : ClientData) (rest : List UInt8) : List Nat → Outcome
  | [] =>
    match bodyRound data client ⟨rest, []⟩ with
    | .inl outcome => outcome
    | .inr (client, _) => .returned stateSysDependNwkTimeout client ⟨rest, []⟩
  | size :: reads =>
    match bodyRound data client ⟨rest, size :: reads⟩ with
    | .inl outcome => outcome
    | .inr (client, maxLen) =>
      if rest = [] then .returned stateSysDependNwkTimeout client ⟨rest, reads⟩
      else
        let len := readLen size maxLen.toNat
        bodyLoop (rest.take len) client (rest.drop len) reads

def httpGetResponseBody (data : List UInt8) (client : ClientData) (net : Network) : Outcome :=
  let client := { client with isMore := true, responseBuf := [] }
  if client.responseContentLen = -1 then .returned State.sysDependNwkClose client net
  else bodyLoop data client net.rest net.reads

/-! ## The header -/

inductive HeaderRead where
  | overflow
  | timeout (net : Network)
  | found (buf : ReadBuf) (bodyEnd : Nat) (net : Network)

/-- The loop of `_http_parse_response_header`. -/
def readHeader (buf : ReadBuf) (rest : List UInt8) : List Nat → HeaderRead
  | [] =>
    match strstr buf.bytes (crlf ++ crlf) with
    | some bodyEnd => .found buf bodyEnd ⟨rest, []⟩
    | none => .timeout ⟨rest, []⟩
  | size :: reads =>
    match strstr buf.bytes (crlf ++ crlf) with
    | some bodyEnd => .found buf bodyEnd ⟨rest, size :: reads⟩
    | none =>
      if rest = [] then .timeout ⟨rest, reads⟩
      else
        let len := readLen size httpclientRaedHeadSize
        match buf.append (rest.take len) with
        | none => .overflow
        | some buf => readHeader buf (rest.drop len) reads

/-- `_http_parse_response_header`, with the first read in the buffer. -/
def httpParseResponseHeader (buf : ReadBuf) (client : ClientData) (net : Network) : Outcome :=
  let client := { client with responseContentLen := -1 }
  match strstr buf.bytes crlf with
  | none => .returned errorHttpUnresolvedDns client net
  | some crlfPos =>
    match readHeader (buf.removeStatusLine crlfPos) net.rest net.reads with
    | .overflow => .overflow
    | .timeout net => .returned stateSysDependNwkTimeout client net
    | .found buf bodyEnd net =>
      match strstr buf.bytes contentLength with
      | none => .returned stateHttpRespMissingContentLen client net
      | some pos =>
        let length := Libc.atoi (precision (buf.bytes.drop (pos + 16)))
        httpGetResponseBody (buf.data.drop (bodyEnd + 4))
          { client with responseContentLen := length, retrieveLen := length } net

/-- `httpclient_recv_response`, with the memory behind its buffer. -/
def httpclientRecvResponse (client : ClientData) (net : Network) (stack : List UInt8) : Outcome :=
  if client.isMore then httpGetResponseBody [] client net
  else
    let client := { client with isMore := true }
    match net.reads with
    | [] => .returned stateSysDependNwkTimeout client net
    | size :: reads =>
      if net.rest = [] then .returned stateSysDependNwkTimeout client { net with reads }
      else
        httpParseResponseHeader (.ofRead net.rest size stack) client
          ⟨net.rest.drop (readLen size httpclientRaedHeadSize), reads⟩

/-! ## What is asked -/

/-- The number at the start of a text, of any size. -/
def numberOf (s : List UInt8) : Int :=
  if Libc.isNegative s then -((Cjson.leadingNat (Libc.numberPart s)).2 : Int)
  else (Cjson.leadingNat (Libc.numberPart s)).2

/-- How far the reads of a header go, of `total` bytes, until it ends at one of `ends`, and the
reads that are left. -/
def headerReach (ends : Option Nat) (total taken : Nat) : List Nat → Nat × List Nat
  | [] => (taken, [])
  | size :: reads =>
    if ends.any (· ≤ taken) then (taken, size :: reads)
    else headerReach ends total (min (taken + readLen size httpclientRaedHeadSize) total) reads

section
variable (buf : ReadBuf) (net : Network)

/-- All that there is to read, from the start of the buffer on. -/
def stream : List UInt8 := buf.data ++ net.rest

def headerEnd : Option Nat := (strstr (stream buf net) (crlf ++ crlf)).map (· + 4)

def reached : Nat × List Nat :=
  headerReach (headerEnd buf net) (stream buf net).length buf.data.length net.reads

/-- The number sixteen bytes behind `Content-Length` in the buffer, once the header was read. -/
def lengthRead : Option Int :=
  let taken := (reached buf net).1
  if (headerEnd buf net).any (· ≤ taken) then
    (strstr ((stream buf net).take taken) contentLength).map fun pos =>
      numberOf (precision (((stream buf net).take taken ++
        0 :: buf.behind.drop (taken - buf.data.length)).drop (pos + 16)))
  else none

/-- How many bytes of the body can be read. -/
def bodyReach : Nat :=
  let (taken, left) := reached buf net
  let bodyStart := (headerEnd buf net).getD 0
  min ((stream buf net).length - bodyStart) (taken - bodyStart + Session.reach left)

/-- The header has a `Content-Length` whose value is the length of something: a number, not
negative and in the range of an `int`. -/
def StatesLength : Prop :=
  ∃ bodyStart pos value, headerEnd buf net = some bodyStart ∧
    strstr ((stream buf net).take bodyStart) contentLength = some pos ∧
    (((stream buf net).take bodyStart).drop (pos + contentLength.length)).takeWhile (· ≠ 13) =
      58 :: value ∧
    (Cjson.leadingNat (Libc.numberPart value)).1 ≠ 0 ∧
    0 ≤ numberOf value ∧ numberOf value ≤ Cjson.intMax

end

/-- The header stays in its buffer and passes no negative length, leaves no negative counter but
for a length that is not known, and is no success unless it states a length. -/
structure HeaderSafe (buf : ReadBuf) (client : ClientData) (net : Network) : Prop where
  inside : httpParseResponseHeader buf client net ≠ .overflow
  lengths : httpParseResponseHeader buf client net ≠ .negativeLength
  counters : ∀ {ret client' net'}, httpParseResponseHeader buf client net =
    .returned ret client' net' → 0 ≤ client'.retrieveLen ∧
      (0 ≤ client'.responseContentLen ∨ client'.responseContentLen = -1 ∧ ret < 0)
  stated : ∀ {ret client' net'}, httpParseResponseHeader buf client net =
    .returned ret client' net' → 0 ≤ ret →
      ∃ crlfPos, strstr buf.bytes crlf = some crlfPos ∧
        StatesLength (buf.removeStatusLine crlfPos) net

/-- The reads bring less than a buffer until the header ends or they run out, the number that is
read is not negative, and where the header states no length they do not bring enough for it. -/
def HeaderServed (buf : ReadBuf) (client : ClientData) (net : Network) : Prop :=
  ∀ crlfPos, strstr buf.bytes crlf = some crlfPos →
    (reached (buf.removeStatusLine crlfPos) net).1 < httpclientReadBufSize ∧
    ∀ n, lengthRead (buf.removeStatusLine crlfPos) net = some n → 0 ≤ n ∧
      (StatesLength (buf.removeStatusLine crlfPos) net ∨
        bodyReach (buf.removeStatusLine crlfPos) net <
          min ((client.responseBufLen.val : Int) - 1) n)

/-! ## The loops with natural counters -/

def ClientData.after (client : ClientData) (body : BodyResult) : ClientData :=
  { client with
    isMore := body.isMore, retrieveLen := body.retrieveLen, responseBuf := body.written }

section
variable {data rest : List UInt8} {client : ClientData} {net : Network} {retrieve : Nat}

theorem utilsFillRxBuf_eq (hlen : client.retrieveLen = retrieve)
    (hroom : client.responseBuf.length ≤ client.responseBufLen.val - 1) :
    utilsFillRxBuf data (min data.length client.retrieveLen) client =
      match Httpc.utilsFillRxBuf client.responseBufLen.val client.responseBuf
        (data.take retrieve) retrieve with
      | (full, written, left) =>
        some (if full then httpRetrieveMoreData else State.success,
          { client with responseBuf := written, retrieveLen := left }) := by
  obtain ⟨isMore, retrieveLen, contentLen, written, bufLen, hpos, hmax⟩ := client
  obtain rfl : retrieveLen = retrieve := hlen
  dsimp only at hroom
  have htake : (data.take retrieve).length = min retrieve data.length := List.length_take
  unfold utilsFillRxBuf Httpc.utilsFillRxBuf
  dsimp only
  by_cases hfit : written.length + (data.take retrieve).length < bufLen - 1
  · have hmin : (min (data.length : Int) retrieve).toNat = min data.length retrieve := by omega
    have hdata : data.take (min data.length retrieve) = data.take retrieve := by
      rw [Nat.min_comm, ← List.take_eq_take_min]
    have hleft : (retrieve : Int) - min (data.length : Int) retrieve =
        (retrieve - (data.take retrieve).length : Nat) := by omega
    rw [if_pos hfit, if_pos (by omega), if_neg (by omega), hmin, hdata, hleft]
    rfl
  · have hcopy : ((bufLen : Int) - 1 - written.length).toNat = bufLen - 1 - written.length := by
      omega
    have hdata : data.take (bufLen - 1 - written.length) =
        (data.take retrieve).take (bufLen - 1 - written.length) := by
      rw [List.take_take, Nat.min_eq_left (by omega)]
    have hleft : (retrieve : Int) - ((bufLen : Int) - 1 - written.length) =
        (retrieve - (bufLen - 1 - written.length) : Nat) := by omega
    rw [if_neg hfit, if_neg (by omega), if_neg (by omega), hcopy, hdata, hleft]
    rfl

theorem written_le {bufLen left : Nat} {written written' : List UInt8}
    (h : fillBody bufLen written data retrieve net = .inr (written', left)) :
    written'.length ≤ bufLen - 1 := by
  unfold fillBody Httpc.utilsFillRxBuf at h
  split at h
  · next heq =>
    cases h
  · next heq =>
    split at heq
    · next hfit =>
      obtain ⟨rfl, -⟩ : _ = _ ∧ _ := by simpa using heq
      split at h
      · cases h
      · obtain ⟨rfl, -⟩ : _ = written' ∧ _ := by simpa using h
        rw [List.length_append]
        exact Nat.le_of_lt hfit
    · simp at heq

theorem bodyRound_eq (hmore : client.isMore = true) (hlen : client.retrieveLen = retrieve)
    (hroom : client.responseBuf.length ≤ client.responseBufLen.val - 1) :
    bodyRound data client net =
      match fillBody client.responseBufLen.val client.responseBuf data retrieve net with
      | .inl body => .inl (.returned body.ret (client.after body) body.net)
      | .inr (written, left) =>
        .inr ({ client with responseBuf := written, retrieveLen := left },
          (min (min (httpclientChunkSize - 1)
            (client.responseBufLen.val - 1 - written.length)) left : Nat)) := by
  have hnext : ∀ written left, fillBody client.responseBufLen.val client.responseBuf data retrieve
      net = .inr (written, left) → written.length ≤ client.responseBufLen.val - 1 :=
    fun _ _ h => written_le h
  rw [bodyRound, utilsFillRxBuf_eq hlen hroom]
  unfold fillBody at hnext ⊢
  rcases hcoarse : Httpc.utilsFillRxBuf client.responseBufLen.val client.responseBuf
      (data.take retrieve) retrieve with ⟨full, written, left⟩
  rw [hcoarse] at hnext
  have hbuf := client.responseBufLen.property.1
  cases full with
  | true =>
    dsimp only
    rw [if_pos rfl, if_pos rfl, ClientData.after, hmore]
  | false =>
    dsimp only
    have hne : State.success ≠ httpRetrieveMoreData := by decide
    rw [if_neg Bool.false_ne_true, if_neg hne]
    by_cases hzero : left = 0
    · rw [if_pos hzero, if_pos (by omega), hzero]
      rfl
    · have hroom' := hnext written left (if_neg hzero)
      have hmax : min (min ((httpclientChunkSize : Int) - 1)
          (client.responseBufLen.val - 1 - written.length)) left =
          (min (min (httpclientChunkSize - 1) (client.responseBufLen.val - 1 - written.length))
            left : Nat) := by
        unfold httpclientChunkSize
        omega
      have hread : ¬ (httpclientReadBufSize : Int) <
          (min (min (httpclientChunkSize - 1) (client.responseBufLen.val - 1 - written.length))
            left : Nat) := by
        unfold httpclientChunkSize httpclientReadBufSize
        omega
      rw [if_neg hzero, if_neg (by omega), hmax, if_neg (by omega), if_neg hread]

theorem bodyLoop_eq {reads : List Nat} (hmore : client.isMore = true)
    (hlen : client.retrieveLen = retrieve)
    (hroom : client.responseBuf.length ≤ client.responseBufLen.val - 1) :
    bodyLoop data client rest reads =
      let body := Httpc.httpGetResponseBody client.responseBufLen.val client.responseBuf data
        retrieve rest reads
      .returned body.ret (client.after body) body.net := by
  induction reads generalizing data client rest retrieve with
  | nil =>
    rw [bodyLoop, bodyRound_eq hmore hlen hroom, Httpc.httpGetResponseBody]
    rcases fillBody _ _ _ _ _ with body | ⟨written, left⟩
    · rfl
    · dsimp only
      rw [ClientData.after, hmore]
  | cons size reads ih =>
    rw [bodyLoop, bodyRound_eq hmore hlen hroom, Httpc.httpGetResponseBody]
    rcases hround : fillBody _ _ _ _ _ with body | ⟨written, left⟩
    · rfl
    · dsimp only
      by_cases hrest : rest = []
      · rw [if_pos hrest, if_pos hrest, ClientData.after, hmore]
      · rw [if_neg hrest, if_neg hrest, Int.toNat_natCast]
        exact ih hmore rfl (written_le hround)

end

theorem bodyLoop_negative {data rest : List UInt8} {client : ClientData} (reads : List Nat)
    (hlen : client.retrieveLen < 0) (hwritten : client.responseBuf = []) :
    bodyLoop data client rest reads = .negativeLength := by
  have hbuf := client.responseBufLen.property.1
  have hround : ∀ net, bodyRound data client net = .inl .negativeLength := by
    intro net
    have hmin : min (data.length : Int) client.retrieveLen = client.retrieveLen := by omega
    have hcount : (client.responseBuf.length : Int) + client.retrieveLen <
        client.responseBufLen.val - 1 := by
      rw [hwritten, List.length_nil]
      omega
    rw [bodyRound, hmin, utilsFillRxBuf, if_pos hcount, if_pos hlen]
  cases reads with
  | nil => rw [bodyLoop, hround]
  | cons size reads => rw [bodyLoop, hround]

/-! ## The header as it is read -/

theorem precision_append_nul (s t : List UInt8) : precision (s ++ 0 :: t) = precision s := by
  unfold precision
  rw [List.takeWhile_append]
  split
  · next hall =>
    have hself := (List.takeWhile_sublist (fun b : UInt8 => decide (b ≠ 0))).eq_of_length hall
    rw [List.takeWhile_cons_of_neg (by simp), List.append_nil, hself]
  · rfl

theorem takeWhile_take {α : Type} (p : α → Bool) (s : List α) (m : Nat) :
    (s.take m).takeWhile p = (s.takeWhile p).take m := by
  induction s generalizing m with
  | nil => rw [List.take_nil, List.takeWhile_nil, List.take_nil]
  | cons b s ih =>
    rcases m with _ | m
    · rfl
    · by_cases hb : p b = true
      · rw [List.take_succ_cons, List.takeWhile_cons_of_pos hb, List.takeWhile_cons_of_pos hb,
          List.take_succ_cons, ih]
      · rw [List.take_succ_cons, List.takeWhile_cons_of_neg hb, List.takeWhile_cons_of_neg hb,
          List.take_nil]

theorem strstr_bytes (buf : ReadBuf) (needle : List UInt8) :
    strstr buf.bytes needle = strstr buf.data needle := by
  rw [strstr, strstr, ReadBuf.bytes, precision_append_nul]

theorem strstr_take_iff {s needle : List UInt8} {m p : Nat} (hne : needle ≠ []) :
    strstr (s.take m) needle = some p ↔ strstr s needle = some p ∧ p + needle.length ≤ m := by
  rw [strstr, strstr, precision, takeWhile_take, ← precision]
  constructor
  · intro h
    have hle := (length_le_of_search h).resolve_right hne
    have happ := search_append h ((precision s).drop m)
    rw [List.take_append_drop] at happ
    rw [List.length_take] at hle
    exact ⟨happ, by omega⟩
  · rintro ⟨h, hle⟩
    exact search_take_of_le h hle

/-! ## The header with the data alone -/

def HeaderRead.ofData : HeaderRead → Httpc.HeaderRead
  | .overflow => .overflow
  | .timeout net => .timeout net
  | .found buf bodyEnd net => .found buf.data bodyEnd net

def Outcome.received (alreadyReceived : Int) : Outcome → Option Received
  | .overflow | .negativeLength => none
  | .returned ret client net =>
    some (ret, client.responseBuf,
      ⟨client.isMore, client.retrieveLen.toNat, client.responseContentLen, alreadyReceived⟩, net)

theorem append_cases (buf : ReadBuf) (read : List UInt8) :
    httpclientReadBufSize ≤ buf.data.length + read.length ∧ buf.append read = none ∨
      buf.data.length + read.length < httpclientReadBufSize ∧
        ∃ buf', buf.append read = some buf' ∧ buf'.data = buf.data ++ read ∧
          buf'.behind = buf.behind.drop read.length := by
  unfold ReadBuf.append
  by_cases h : buf.data.length + read.length < httpclientReadBufSize
  · rw [dif_pos h]
    exact .inr ⟨h, _, rfl, rfl, rfl⟩
  · rw [dif_neg h]
    exact .inl ⟨Nat.not_lt.mp h, rfl⟩

theorem readHeader_ofData (buf : ReadBuf) (rest : List UInt8) (reads : List Nat) :
    (readHeader buf rest reads).ofData = Httpc.readHeader buf.data rest reads := by
  induction reads generalizing buf rest with
  | nil =>
    rw [readHeader, Httpc.readHeader, strstr_bytes]
    cases strstr buf.data (crlf ++ crlf) <;> rfl
  | cons size reads ih =>
    rw [readHeader, Httpc.readHeader, strstr_bytes]
    cases strstr buf.data (crlf ++ crlf) with
    | some bodyEnd => rfl
    | none =>
      dsimp only
      by_cases hrest : rest = []
      · rw [if_pos hrest, if_pos hrest]
        rfl
      · rw [if_neg hrest, if_neg hrest]
        rcases append_cases buf (rest.take (readLen size httpclientRaedHeadSize)) with
          ⟨hfull, happend⟩ | ⟨hfits, buf', happend, hdata, -⟩
        · rw [happend, if_pos hfull]
          rfl
        · rw [happend, if_neg (Nat.not_le.mpr hfits), ← hdata]
          exact ih buf' _

variable {buf : ReadBuf}

/-- Where the length is read from the data, and is not the one that stands for none, the two
models agree. -/
theorem httpParseResponseHeader_received {client : ClientData} {net : Network}
    {handle : HttpHandle} (hmore : handle.isMore = client.isMore)
    (hleft : client.retrieveLen = handle.retrieveLen) (hwritten : client.responseBuf = [])
    (hlength : ∀ {crlfPos buf' bodyEnd net' pos}, strstr buf.bytes crlf = some crlfPos →
      readHeader (buf.removeStatusLine crlfPos) net.rest net.reads = .found buf' bodyEnd net' →
      strstr buf'.bytes contentLength = some pos →
      Libc.atoi (precision (buf'.bytes.drop (pos + 16))) ≠ -1 ∧
        Libc.atoi (precision (buf'.data.drop (pos + 16))) =
          Libc.atoi (precision (buf'.bytes.drop (pos + 16)))) :
    (httpParseResponseHeader buf client net).received handle.alreadyReceived =
      Httpc.httpParseResponseHeader client.responseBufLen.val handle buf.data net := by
  obtain ⟨isMore, retrieveLen, contentLen, alreadyReceived⟩ := handle
  obtain rfl : isMore = client.isMore := hmore
  have hnat : client.retrieveLen.toNat = retrieveLen := by
    rw [hleft]
    exact Int.toNat_natCast _
  unfold httpParseResponseHeader Httpc.httpParseResponseHeader
  rw [← strstr_bytes]
  cases hcrlf : strstr buf.bytes crlf with
  | none =>
    dsimp only [Outcome.received]
    rw [hwritten, hnat]
  | some crlfPos =>
    have hdata : (buf.removeStatusLine crlfPos).data = buf.data.drop (crlfPos + 2) := rfl
    dsimp only
    rw [← hdata, ← readHeader_ofData]
    cases hread : readHeader (buf.removeStatusLine crlfPos) net.rest net.reads with
    | overflow => rfl
    | timeout net' =>
      dsimp only [Outcome.received, HeaderRead.ofData]
      rw [hwritten, hnat]
    | found buf' bodyEnd net' =>
      dsimp only [HeaderRead.ofData]
      rw [← strstr_bytes]
      cases hpos : strstr buf'.bytes contentLength with
      | none =>
        dsimp only [Outcome.received]
        rw [hwritten, hnat]
      | some pos =>
        obtain ⟨hknown, hsame⟩ := hlength hcrlf hread hpos
        dsimp only
        rw [hsame]
        generalize Libc.atoi (precision (buf'.bytes.drop (pos + 16))) = length at hknown ⊢
        rw [httpGetResponseBody]
        rw [if_neg hknown]
        by_cases hneg : length < 0
        · rw [if_pos hneg, bodyLoop_negative net'.reads hneg rfl]
          rfl
        · obtain ⟨m, rfl⟩ := Int.eq_ofNat_of_zero_le (Int.not_lt.mp hneg)
          rw [if_neg hneg, bodyLoop_eq rfl rfl (Nat.zero_le _)]
          rfl

/-! ## How far the reads go -/

section
variable {ends : Option Nat} {total taken : Nat}

theorem ended_iff : ends.any (· ≤ taken) = true ↔ ∃ e, ends = some e ∧ e ≤ taken := by
  cases ends <;> simp

theorem le_headerReach (reads : List Nat) (h : taken ≤ total) :
    taken ≤ (headerReach ends total taken reads).1 ∧
      (headerReach ends total taken reads).1 ≤ total := by
  induction reads generalizing taken with
  | nil => exact ⟨Nat.le_refl _, h⟩
  | cons size reads ih =>
    rw [headerReach]
    split
    · exact ⟨Nat.le_refl _, h⟩
    · obtain ⟨hle, hle'⟩ := ih (Nat.min_le_right (taken + readLen size _) total)
      exact ⟨by omega, hle'⟩

theorem headerReach_of_ended (reads : List Nat) (h : ends.any (· ≤ taken) = true) :
    headerReach ends total taken reads = (taken, reads) := by
  cases reads with
  | nil => rfl
  | cons size reads => exact if_pos h

end

/-- What the loop comes to, by how far the reads go. -/
inductive ReadsTo (buf : ReadBuf) (net : Network) : HeaderRead → Prop
  | overflow (h : httpclientReadBufSize ≤ (reached buf net).1) : ReadsTo buf net .overflow
  | timeout (net' : Network) (h : (reached buf net).1 < httpclientReadBufSize)
      (hends : (headerEnd buf net).any (· ≤ (reached buf net).1) = false) :
      ReadsTo buf net (.timeout net')
  | found (buf' : ReadBuf) (bodyEnd : Nat)
      (hends : headerEnd buf net = some (bodyEnd + 4)) (hle : bodyEnd + 4 ≤ (reached buf net).1)
      (hdata : buf'.data = (stream buf net).take (reached buf net).1)
      (hbehind : buf'.behind = buf.behind.drop ((reached buf net).1 - buf.data.length)) :
      ReadsTo buf net (.found buf' bodyEnd
        ⟨(stream buf net).drop (reached buf net).1, (reached buf net).2⟩)

theorem stream_take (buf : ReadBuf) (net : Network) :
    (stream buf net).take buf.data.length = buf.data := List.take_left

theorem strstr_end_iff (buf : ReadBuf) (net : Network) (bodyEnd : Nat) :
    strstr buf.bytes (crlf ++ crlf) = some bodyEnd ↔
      headerEnd buf net = some (bodyEnd + 4) ∧ bodyEnd + 4 ≤ buf.data.length := by
  have hne : crlf ++ crlf ≠ [] := by decide
  have hlen : (crlf ++ crlf).length = 4 := rfl
  rw [strstr_bytes, ← stream_take buf net, strstr_take_iff hne, hlen, stream_take, headerEnd]
  refine and_congr_left fun _ => ?_
  cases strstr (stream buf net) (crlf ++ crlf) <;> simp

theorem not_ended (net : Network) (h : strstr buf.bytes (crlf ++ crlf) = none) :
    (headerEnd buf net).any (· ≤ buf.data.length) = false := by
  by_contra hany
  obtain ⟨e, he, hle⟩ := ended_iff.mp (Bool.not_eq_false _ ▸ hany)
  obtain ⟨bodyEnd, -, rfl⟩ := Option.map_eq_some_iff.mp he
  rw [(strstr_end_iff buf net bodyEnd).mpr ⟨he, hle⟩] at h
  cases h

theorem readsTo_found {bodyEnd : Nat} (net : Network)
    (h : strstr buf.bytes (crlf ++ crlf) = some bodyEnd) :
    ReadsTo buf net (.found buf bodyEnd net) := by
  obtain ⟨hend, hle⟩ := (strstr_end_iff buf net bodyEnd).mp h
  have hreached : reached buf net = (buf.data.length, net.reads) :=
    headerReach_of_ended net.reads (ended_iff.mpr ⟨_, hend, hle⟩)
  have hdrop : (stream buf net).drop buf.data.length = net.rest := List.drop_left
  have hfound : ReadsTo buf net (.found buf bodyEnd
      ⟨(stream buf net).drop (reached buf net).1, (reached buf net).2⟩) :=
    .found buf bodyEnd hend (by rwa [hreached]) (by rw [hreached, stream_take])
      (by rw [hreached, Nat.sub_self, List.drop_zero])
  rw [hreached, hdrop] at hfound
  exact hfound

theorem le_reached (buf : ReadBuf) (net : Network) :
    buf.data.length ≤ (reached buf net).1 ∧ (reached buf net).1 ≤ (stream buf net).length :=
  le_headerReach net.reads (by rw [stream, List.length_append]; exact Nat.le_add_right _ _)

section
variable {buf : ReadBuf} {rest : List UInt8} {size : Nat} {reads : List Nat}

theorem reached_cons (h : strstr buf.bytes (crlf ++ crlf) = none) :
    reached buf ⟨rest, size :: reads⟩ =
      headerReach (headerEnd buf ⟨rest, size :: reads⟩) (stream buf ⟨rest, size :: reads⟩).length
        (buf.data.length + (rest.take (readLen size httpclientRaedHeadSize)).length) reads := by
  have hsum : min (buf.data.length + readLen size httpclientRaedHeadSize)
      (stream buf ⟨rest, size :: reads⟩).length =
      buf.data.length + (rest.take (readLen size httpclientRaedHeadSize)).length := by
    rw [stream, List.length_append, List.length_take]
    dsimp only
    omega
  rw [reached, headerReach, if_neg (by rw [not_ended _ h]; exact Bool.false_ne_true), hsum]

theorem readsTo_append {buf' : ReadBuf} {result : HeaderRead}
    (hnone : strstr buf.bytes (crlf ++ crlf) = none)
    (hdata : buf'.data = buf.data ++ rest.take (readLen size httpclientRaedHeadSize))
    (hbehind : buf'.behind =
      buf.behind.drop (rest.take (readLen size httpclientRaedHeadSize)).length)
    (h : ReadsTo buf' ⟨rest.drop (readLen size httpclientRaedHeadSize), reads⟩ result) :
    ReadsTo buf ⟨rest, size :: reads⟩ result := by
  have hcons : reached buf ⟨rest, size :: reads⟩ = _ := reached_cons hnone
  generalize readLen size httpclientRaedHeadSize = len at *
  have hstream : stream buf' ⟨rest.drop len, reads⟩ = stream buf ⟨rest, size :: reads⟩ := by
    rw [stream, stream, hdata, List.append_assoc, List.take_append_drop]
  have hend : headerEnd buf' ⟨rest.drop len, reads⟩ = headerEnd buf ⟨rest, size :: reads⟩ := by
    rw [headerEnd, headerEnd, hstream]
  have hreached : reached buf' ⟨rest.drop len, reads⟩ = reached buf ⟨rest, size :: reads⟩ := by
    rw [reached, hend, hstream, hcons, hdata, List.length_append]
  cases h with
  | overflow h => exact .overflow (hreached ▸ h)
  | timeout net' h hends => exact .timeout net' (hreached ▸ h) (hreached ▸ hend ▸ hends)
  | found buf'' bodyEnd hends hle hdata' hbehind' =>
    have hlen : buf'.data.length = buf.data.length + (rest.take len).length := by
      rw [hdata, List.length_append]
    have hmem : buf''.behind = buf.behind.drop
        ((reached buf ⟨rest, size :: reads⟩).1 - buf.data.length) := by
      have hle' := (le_reached buf' ⟨rest.drop len, reads⟩).1
      rw [hreached] at hle'
      rw [hbehind', hbehind, List.drop_drop, hreached, hlen]
      congr 1
      omega
    rw [hend] at hends
    rw [hreached] at hle hdata' ⊢
    rw [hstream] at hdata' ⊢
    exact .found buf'' bodyEnd hends hle hdata' hmem

end

theorem readHeader_spec (buf : ReadBuf) (rest : List UInt8) (reads : List Nat) :
    ReadsTo buf ⟨rest, reads⟩ (readHeader buf rest reads) := by
  induction reads generalizing buf rest with
  | nil =>
    rw [readHeader]
    cases h : strstr buf.bytes (crlf ++ crlf) with
    | some bodyEnd => exact readsTo_found _ h
    | none => exact .timeout _ buf.fits (not_ended _ h)
  | cons size reads ih =>
    rw [readHeader]
    cases h : strstr buf.bytes (crlf ++ crlf) with
    | some bodyEnd => exact readsTo_found _ h
    | none =>
      dsimp only
      have htotal : (stream buf ⟨rest, size :: reads⟩).length = buf.data.length + rest.length :=
        List.length_append
      by_cases hrest : rest = []
      · rw [if_pos hrest]
        rw [hrest, List.length_nil, Nat.add_zero, ← hrest] at htotal
        have hreached : (reached buf ⟨rest, size :: reads⟩).1 = buf.data.length := by
          obtain ⟨hle, hle'⟩ := le_reached buf ⟨rest, size :: reads⟩
          omega
        refine .timeout _ ?_ ?_
        · rw [hreached]
          exact buf.fits
        · rw [hreached]
          exact not_ended _ h
      · rw [if_neg hrest]
        rcases append_cases buf (rest.take (readLen size httpclientRaedHeadSize)) with
          ⟨hfull, happend⟩ | ⟨-, buf', happend, hdata, hbehind⟩
        · rw [happend]
          refine .overflow ?_
          rw [reached_cons h]
          refine Nat.le_trans hfull (le_headerReach reads ?_).1
          rw [htotal, List.length_take]
          omega
        · rw [happend]
          exact readsTo_append h hdata hbehind (ih buf' _)

/-! ## The body as it is read -/

section
variable {n : Nat} {written : List UInt8}

theorem fillBody_result (data : List UInt8) (retrieve : Nat) (net : Network)
    (hroom : written.length ≤ n - 1) :
    (min (n - 1 - written.length) retrieve ≤ data.length ∧ ∃ ret isMore, 0 ≤ ret ∧
      fillBody n written data retrieve net =
        .inl ⟨ret, written ++ data.take (min (n - 1 - written.length) retrieve),
          retrieve - min (n - 1 - written.length) retrieve, isMore, net⟩) ∨
    (data.length < min (n - 1 - written.length) retrieve ∧
      fillBody n written data retrieve net = .inr (written ++ data, retrieve - data.length)) := by
  have htake : (data.take retrieve).length = min retrieve data.length := List.length_take
  unfold fillBody Httpc.utilsFillRxBuf
  by_cases hfit : written.length + (data.take retrieve).length < n - 1
  · rw [if_pos hfit, htake]
    dsimp only
    by_cases hall : retrieve ≤ data.length
    · have hwant : min (n - 1 - written.length) retrieve = retrieve := by omega
      refine .inl ⟨by omega, State.success, false, Int.le_refl 0, ?_⟩
      rw [if_pos (by omega), hwant, Nat.sub_self]
    · have hleft : retrieve - min retrieve data.length = retrieve - data.length := by omega
      refine .inr ⟨by omega, ?_⟩
      rw [if_neg (by omega), hleft, List.take_of_length_le (by omega)]
  · rw [if_neg hfit]
    have hwant : min (n - 1 - written.length) retrieve = n - 1 - written.length := by omega
    refine .inl ⟨by omega, httpRetrieveMoreData, true, by decide, ?_⟩
    dsimp only
    rw [hwant, List.take_take, Nat.min_eq_left (by omega)]

theorem reach_step (want size total more : Nat) :
    want ≤ min total (size + more) ↔
      want ≤ min (min (min size want) total + (total - min size want))
        (min (min size want) total + more) := by
  omega

/-- The loops write what there is to write when it can be read, and else time out. -/
theorem httpGetResponseBody_result (data : List UInt8) (retrieve : Nat) (rest : List UInt8)
    (reads : List Nat) (hroom : written.length ≤ n - 1) :
    (min (n - 1 - written.length) retrieve ≤
        min (data.length + rest.length) (data.length + Session.reach reads) →
      0 ≤ (Httpc.httpGetResponseBody n written data retrieve rest reads).ret ∧
      (Httpc.httpGetResponseBody n written data retrieve rest reads).written =
        written ++ (data ++ rest).take (min (n - 1 - written.length) retrieve) ∧
      (Httpc.httpGetResponseBody n written data retrieve rest reads).retrieveLen =
        retrieve - min (n - 1 - written.length) retrieve) ∧
    (min (data.length + rest.length) (data.length + Session.reach reads) <
        min (n - 1 - written.length) retrieve →
      (Httpc.httpGetResponseBody n written data retrieve rest reads).ret =
        stateSysDependNwkTimeout) := by
  induction reads generalizing written data rest retrieve with
  | nil =>
    have hzero : Session.reach [] = 0 := rfl
    rw [Httpc.httpGetResponseBody, hzero]
    rcases fillBody_result data retrieve ⟨rest, []⟩ hroom with
      ⟨hwant, ret, isMore, hret, heq⟩ | ⟨hwant, heq⟩
    · rw [heq]
      refine ⟨fun _ => ⟨hret, ?_, rfl⟩, fun h => by omega⟩
      rw [List.take_append_of_le_length hwant]
    · rw [heq]
      exact ⟨fun h => by omega, fun _ => rfl⟩
  | cons size reads ih =>
    have hcons : Session.reach (size :: reads) =
      readLen size (httpclientChunkSize - 1) + Session.reach reads := List.sum_cons
    rw [Httpc.httpGetResponseBody]
    rcases fillBody_result data retrieve ⟨rest, size :: reads⟩ hroom with
      ⟨hwant, ret, isMore, hret, heq⟩ | ⟨hwant, heq⟩
    · rw [heq]
      refine ⟨fun _ => ⟨hret, ?_, rfl⟩, fun h => by omega⟩
      rw [List.take_append_of_le_length hwant]
    · rw [heq]
      dsimp only
      by_cases hrest : rest = []
      · rw [if_pos hrest, hrest, List.length_nil]
        exact ⟨fun h => by omega, fun _ => rfl⟩
      · rw [if_neg hrest]
        have hroom' : (written ++ data).length ≤ n - 1 := by
          rw [List.length_append]
          omega
        have hwant' : min (n - 1 - (written ++ data).length) (retrieve - data.length) =
            min (n - 1 - written.length) retrieve - data.length := by
          rw [List.length_append]
          omega
        generalize hlen : readLen size _ = len
        have hlen' : len = min (readLen size (httpclientChunkSize - 1))
            (min (n - 1 - written.length) retrieve - data.length) := by
          rw [← hlen, ← hwant', Nat.min_assoc, readLen, readLen, Nat.min_assoc]
        obtain ⟨hgot, hlost⟩ := ih (rest.take len) (retrieve - data.length) (rest.drop len) hroom'
        have hsplit : (data ++ rest).take (min (n - 1 - written.length) retrieve) =
            data ++ rest.take (min (n - 1 - written.length) retrieve - data.length) := by
          rw [List.take_append, List.take_of_length_le (Nat.le_of_lt hwant)]
        rw [hwant', List.length_take, List.length_drop, hlen'] at hgot hlost
        rw [hcons, hsplit, hlen']
        generalize min (n - 1 - written.length) retrieve = want at *
        have hstep := reach_step (want - data.length) (readLen size (httpclientChunkSize - 1))
          rest.length (Session.reach reads)
        have hmore : want - data.length ≤
            min rest.length (readLen size (httpclientChunkSize - 1) + Session.reach reads) ↔
            want ≤ min (data.length + rest.length)
              (data.length + (readLen size (httpclientChunkSize - 1) + Session.reach reads)) := by
          rw [Nat.add_min_add_left, Nat.sub_le_iff_le_add']
        refine ⟨fun h => ?_, fun h => hlost ?_⟩
        · obtain ⟨hret, hwritten, hretrieve⟩ := hgot (hstep.mp (hmore.mpr h))
          refine ⟨hret, ?_, ?_⟩
          · rw [hwritten, List.append_assoc, List.take_append_drop]
          · rw [hretrieve, Nat.sub_sub, Nat.add_sub_cancel' (Nat.le_of_lt hwant)]
        · refine Nat.not_le.mp fun h' => ?_
          exact Nat.not_le_of_lt h (hmore.mp (hstep.mpr h'))

end

/-! ## What a header comes to -/

/-- What is written of a body of so many bytes, and what is left of it. -/
structure BodyServed (buf : ReadBuf) (net : Network) (n : Int) (client : ClientData) : Prop where
  written : client.responseBuf = ((stream buf net).drop ((headerEnd buf net).getD 0)).take
    (min ((client.responseBufLen.val : Int) - 1) n).toNat
  left : client.retrieveLen = Cjson.saturate n - min ((client.responseBufLen.val : Int) - 1) n

theorem saturate_cases {n : Int} (hn : 0 ≤ n) (bufLen : { n : Nat // 0 < n ∧ n ≤ 2147483647 }) :
    ∃ m : Nat, Cjson.saturate n = m ∧
      ((min (bufLen.val - 1) m : Nat) : Int) = min ((bufLen.val : Int) - 1) n := by
  obtain ⟨bufLen, hpos, hmax⟩ := bufLen
  refine ⟨(Cjson.saturate n).toNat, ?_⟩
  unfold Cjson.saturate Cjson.intMax Cjson.intMin
  dsimp only
  split
  · omega
  · split <;> omega

theorem bodyReach_eq {net : Network} {bodyStart : Nat} (hend : headerEnd buf net = some bodyStart) :
    bodyReach buf net = min ((stream buf net).length - bodyStart)
      ((reached buf net).1 - bodyStart + Session.reach (reached buf net).2) := by
  rw [bodyReach, hend]
  rfl

theorem httpGetResponseBody_of_length {net : Network} (client : ClientData)
    {n : Int} {bodyStart : Nat} (hend : headerEnd buf net = some bodyStart)
    (hle : bodyStart ≤ (reached buf net).1) (hn : 0 ≤ n) :
    ∃ ret client' net', httpGetResponseBody
        (((stream buf net).take (reached buf net).1).drop bodyStart)
        { client with responseContentLen := Cjson.saturate n, retrieveLen := Cjson.saturate n }
        ⟨(stream buf net).drop (reached buf net).1, (reached buf net).2⟩ =
          .returned ret client' net' ∧
      client'.responseContentLen = Cjson.saturate n ∧
      client'.responseBufLen = client.responseBufLen ∧ 0 ≤ client'.retrieveLen ∧
      ((bodyReach buf net : Int) < min ((client.responseBufLen.val : Int) - 1) n ∧ ret < 0 ∨
        min ((client.responseBufLen.val : Int) - 1) n ≤ bodyReach buf net ∧ 0 ≤ ret ∧
          BodyServed buf net n client') := by
  obtain ⟨m, hm, hwant⟩ := saturate_cases hn client.responseBufLen
  have hknown : ¬ Cjson.saturate n = -1 := by omega
  have hreach := bodyReach_eq hend
  have htotal := (le_reached buf net).2
  rw [httpGetResponseBody]
  rw [if_neg hknown, bodyLoop_eq rfl hm (Nat.zero_le _)]
  have hread : (((stream buf net).take (reached buf net).1).drop bodyStart) ++
      (stream buf net).drop (reached buf net).1 = (stream buf net).drop bodyStart := by
    rw [← List.drop_append_of_le_length (by rw [List.length_take]; omega),
      List.take_append_drop]
  have hempty : ([] : List UInt8).length ≤ client.responseBufLen.val - 1 := Nat.zero_le _
  obtain ⟨hgot, hlost⟩ := httpGetResponseBody_result
    (((stream buf net).take (reached buf net).1).drop bodyStart) m
    ((stream buf net).drop (reached buf net).1) (reached buf net).2 hempty
  rw [hread, List.nil_append] at hgot
  simp only [List.length_drop, List.length_take, List.length_nil, Nat.sub_zero,
    Nat.min_eq_left htotal] at hgot hlost
  have hsum : (reached buf net).1 - bodyStart +
      ((stream buf net).length - (reached buf net).1) = (stream buf net).length - bodyStart := by
    omega
  rw [hsum, ← hreach] at hgot hlost
  generalize Httpc.httpGetResponseBody _ _ _ _ _ _ = body at hgot hlost ⊢
  refine ⟨_, _, _, rfl, rfl, rfl, Int.natCast_nonneg _, ?_⟩
  by_cases hserved : min (client.responseBufLen.val - 1) m ≤ bodyReach buf net
  · obtain ⟨hret, hwritten, hleft⟩ := hgot hserved
    refine .inr ⟨by omega, hret, ?_, ?_⟩
    · show body.written = _
      rw [hwritten, hend]
      congr 1
      exact (Int.toNat_natCast _).symm.trans (congrArg Int.toNat hwant)
    · show (body.retrieveLen : Int) =
        Cjson.saturate n - min ((client.responseBufLen.val : Int) - 1) n
      rw [hleft, hm, ← hwant]
      omega
  · refine .inl ⟨by omega, ?_⟩
    rw [hlost (by omega)]
    decide

section
variable {buf : ReadBuf} {client : ClientData} {net : Network} {crlfPos : Nat}

theorem lengthRead_of_found {buf' : ReadBuf} {bodyEnd : Nat}
    (hend : headerEnd buf net = some (bodyEnd + 4)) (hle : bodyEnd + 4 ≤ (reached buf net).1)
    (hdata : buf'.data = (stream buf net).take (reached buf net).1)
    (hbehind : buf'.behind = buf.behind.drop ((reached buf net).1 - buf.data.length)) :
    lengthRead buf net = (strstr buf'.bytes contentLength).map fun pos =>
      numberOf (precision (buf'.bytes.drop (pos + 16))) := by
  rw [strstr_bytes, ReadBuf.bytes, hdata, hbehind]
  exact if_pos (ended_iff.mpr ⟨_, hend, hle⟩)

theorem httpParseResponseHeader_cases (client : ClientData) (net : Network)
    (h : strstr buf.bytes crlf = some crlfPos) :
    httpclientReadBufSize ≤ (reached (buf.removeStatusLine crlfPos) net).1 ∧
      httpParseResponseHeader buf client net = .overflow ∨
    (reached (buf.removeStatusLine crlfPos) net).1 < httpclientReadBufSize ∧
      (lengthRead (buf.removeStatusLine crlfPos) net = none ∧
        (∃ ret net', ret < 0 ∧ httpParseResponseHeader buf client net =
          .returned ret { client with responseContentLen := -1 } net') ∨
      ∃ n bodyStart, lengthRead (buf.removeStatusLine crlfPos) net = some n ∧
        headerEnd (buf.removeStatusLine crlfPos) net = some bodyStart ∧
        bodyStart ≤ (reached (buf.removeStatusLine crlfPos) net).1 ∧
        httpParseResponseHeader buf client net = httpGetResponseBody
          (((stream (buf.removeStatusLine crlfPos) net).take
            (reached (buf.removeStatusLine crlfPos) net).1).drop bodyStart)
          { client with responseContentLen := Cjson.saturate n, retrieveLen := Cjson.saturate n }
          ⟨(stream (buf.removeStatusLine crlfPos) net).drop
            (reached (buf.removeStatusLine crlfPos) net).1,
            (reached (buf.removeStatusLine crlfPos) net).2⟩) := by
  unfold httpParseResponseHeader
  rw [h]
  dsimp only
  generalize buf.removeStatusLine crlfPos = b
  have hspec : ReadsTo b net (readHeader b net.rest net.reads) :=
    readHeader_spec b net.rest net.reads
  generalize readHeader b net.rest net.reads = result at hspec
  cases hspec with
  | overflow hfull => exact .inl ⟨hfull, rfl⟩
  | timeout net' hfits hends =>
    refine .inr ⟨hfits, .inl ⟨?_, _, net', by decide, rfl⟩⟩
    rw [lengthRead, hends]
    rfl
  | found buf' bodyEnd hends hle hdata hbehind =>
    have hfits := buf'.fits
    rw [hdata, List.length_take, Nat.min_eq_left (le_reached b net).2] at hfits
    have hlength := lengthRead_of_found hends hle hdata hbehind
    refine .inr ⟨hfits, ?_⟩
    cases hpos : strstr buf'.bytes contentLength with
    | none =>
      rw [hpos] at hlength
      refine .inl ⟨hlength, stateHttpRespMissingContentLen,
        ⟨(stream b net).drop (reached b net).1, (reached b net).2⟩, by decide, ?_⟩
      dsimp only
      rw [hpos]
    | some pos =>
      rw [hpos] at hlength
      refine .inr ⟨_, _, hlength, hends, hle, ?_⟩
      dsimp only
      rw [hpos]
      dsimp only
      rw [Libc.atoi_eq, hdata]
      rfl

theorem httpGetResponseBody_unknown (data : List UInt8) (client : ClientData) (net : Network) :
    httpGetResponseBody data
        { client with
          responseContentLen := Cjson.saturate (-1), retrieveLen := Cjson.saturate (-1) } net =
      .returned State.sysDependNwkClose
        { client with
          isMore := true, responseContentLen := -1, retrieveLen := -1, responseBuf := [] } net := by
  have hunknown : Cjson.saturate (-1) = -1 := by decide
  rw [hunknown, httpGetResponseBody]
  exact if_pos rfl

theorem httpGetResponseBody_negative {n : Int} (data : List UInt8) (client : ClientData)
    (net : Network) (hn : n < -1) :
    httpGetResponseBody data
        { client with responseContentLen := Cjson.saturate n, retrieveLen := Cjson.saturate n }
        net = .negativeLength := by
  have hneg : Cjson.saturate n < -1 := by
    unfold Cjson.saturate Cjson.intMax Cjson.intMin
    split
    · omega
    · split <;> omega
  have hknown : ¬ Cjson.saturate n = -1 := Int.ne_of_lt hneg
  rw [httpGetResponseBody]
  rw [if_neg hknown]
  exact bodyLoop_negative net.reads (by dsimp only; omega) rfl

theorem HeaderSafe.of_returned {ret : Int} {client' : ClientData} {net' : Network}
    (hparse : httpParseResponseHeader buf client net = .returned ret client' net')
    (hleft : 0 ≤ client'.retrieveLen)
    (hlen : 0 ≤ client'.responseContentLen ∨ client'.responseContentLen = -1 ∧ ret < 0)
    (hstated : 0 ≤ ret → ∃ crlfPos, strstr buf.bytes crlf = some crlfPos ∧
      StatesLength (buf.removeStatusLine crlfPos) net) : HeaderSafe buf client net where
  inside h := by rw [hparse] at h; cases h
  lengths h := by rw [hparse] at h; cases h
  counters h := by
    rw [hparse] at h
    cases h
    exact ⟨hleft, hlen⟩
  stated h hret := by
    rw [hparse] at h
    cases h
    exact hstated hret

/-- A header is safe exactly when its reads do not overrun the buffer before its end and the
number that is read is not negative, and is in range where there is enough to read. -/
theorem header_safe_iff (hclient : 0 ≤ client.retrieveLen) :
    HeaderSafe buf client net ↔ HeaderServed buf client net := by
  constructor
  · intro hsafe crlfPos hcrlf
    rcases httpParseResponseHeader_cases client net hcrlf with ⟨-, hover⟩ | ⟨hfits, hheader⟩
    · exact absurd hover hsafe.inside
    refine ⟨hfits, fun n hlength => ?_⟩
    rcases hheader with ⟨hnone, -⟩ | ⟨n', bodyStart, hlength', hend, hle, hparse⟩
    · rw [hnone] at hlength
      cases hlength
    obtain rfl : n' = n := Option.some.inj (hlength'.symm.trans hlength)
    have hn : 0 ≤ n' := by
      by_contra hneg
      by_cases hunknown : n' = -1
      · rw [hunknown, httpGetResponseBody_unknown] at hparse
        exact absurd (hsafe.counters hparse).1 (show ¬ (0 : Int) ≤ -1 by decide)
      · rw [httpGetResponseBody_negative _ client _ (by omega)] at hparse
        exact hsafe.lengths hparse
    obtain ⟨ret, client', net', hbody, -, -, -, hshort | ⟨-, hret, -⟩⟩ :=
      httpGetResponseBody_of_length client hend hle hn
    · exact ⟨hn, .inr hshort.1⟩
    · rw [hbody] at hparse
      obtain ⟨crlfPos', hcrlf', hstates⟩ := hsafe.stated hparse hret
      obtain rfl : crlfPos' = crlfPos := Option.some.inj (hcrlf'.symm.trans hcrlf)
      exact ⟨hn, .inl hstates⟩
  · intro hserved
    cases hcrlf : strstr buf.bytes crlf with
    | none =>
      have hparse : httpParseResponseHeader buf client net =
          .returned errorHttpUnresolvedDns { client with responseContentLen := -1 } net := by
        unfold httpParseResponseHeader
        rw [hcrlf]
      have hneg : errorHttpUnresolvedDns < 0 := by decide
      exact .of_returned hparse hclient (.inr ⟨rfl, hneg⟩) fun hret => by omega
    | some crlfPos =>
      obtain ⟨hfits, hnumber⟩ := hserved crlfPos hcrlf
      rcases httpParseResponseHeader_cases client net hcrlf with
        ⟨hover, -⟩ | ⟨-, ⟨-, ret, net', hneg, hparse⟩ | ⟨n, bodyStart, hlength, hend, hle, hparse⟩⟩
      · omega
      · exact .of_returned hparse hclient (.inr ⟨rfl, hneg⟩) fun hret => by omega
      · obtain ⟨hn, hstates⟩ := hnumber n hlength
        obtain ⟨ret, client', net', hbody, hlen, -, hleft, hcases⟩ :=
          httpGetResponseBody_of_length client hend hle hn
        rw [hbody] at hparse
        obtain ⟨m, hm, -⟩ := saturate_cases hn client.responseBufLen
        refine .of_returned hparse hleft (.inl (by omega)) fun hret => ⟨crlfPos, hcrlf, ?_⟩
        rcases hcases with ⟨-, hneg⟩ | ⟨henough, -⟩
        · omega
        · exact hstates.resolve_right (by omega)

/-! ## When a response is received -/

/-- The header, or the body behind it, ends in an error: it has no status line in the first read,
or the reads run out, in the buffer, before the header has ended with a length or before there is
enough of the body. -/
def HeaderFails (buf : ReadBuf) (client : ClientData) (net : Network) : Prop :=
  ∀ crlfPos, strstr buf.bytes crlf = some crlfPos →
    (reached (buf.removeStatusLine crlfPos) net).1 < httpclientReadBufSize ∧
    ∀ n, lengthRead (buf.removeStatusLine crlfPos) net = some n → n = -1 ∨ 0 ≤ n ∧
      bodyReach (buf.removeStatusLine crlfPos) net < min ((client.responseBufLen.val : Int) - 1) n

/-- The header announces so many bytes, and they can be read as far as there is room. -/
structure HeaderServes (buf : ReadBuf) (client : ClientData) (net : Network) (crlfPos : Nat)
    (n : Int) : Prop where
  statusLine : strstr buf.bytes crlf = some crlfPos
  fits : (reached (buf.removeStatusLine crlfPos) net).1 < httpclientReadBufSize
  length : lengthRead (buf.removeStatusLine crlfPos) net = some n
  nonneg : 0 ≤ n
  enough : min ((client.responseBufLen.val : Int) - 1) n ≤
    bodyReach (buf.removeStatusLine crlfPos) net

theorem header_fails (h : HeaderFails buf client net) : ∃ ret client' net',
    httpParseResponseHeader buf client net = .returned ret client' net' ∧ ret < 0 := by
  cases hcrlf : strstr buf.bytes crlf with
  | none =>
    refine ⟨errorHttpUnresolvedDns, { client with responseContentLen := -1 }, net, ?_, by decide⟩
    unfold httpParseResponseHeader
    rw [hcrlf]
  | some crlfPos =>
    obtain ⟨hfits, hnumber⟩ := h crlfPos hcrlf
    rcases httpParseResponseHeader_cases client net hcrlf with
      ⟨hover, -⟩ | ⟨-, ⟨-, ret, net', hneg, hparse⟩ | ⟨n, bodyStart, hlength, hend, hle, hparse⟩⟩
    · omega
    · exact ⟨ret, _, net', hparse, hneg⟩
    rw [hparse]
    rcases hnumber n hlength with rfl | ⟨hn, hshort⟩
    · exact ⟨_, _, _, httpGetResponseBody_unknown _ client _, by decide⟩
    · obtain ⟨ret, client', net', hbody, -, -, -, ⟨-, hneg⟩ | ⟨henough, -⟩⟩ :=
        httpGetResponseBody_of_length client hend hle hn
      · exact ⟨ret, client', net', hbody, hneg⟩
      · omega

theorem header_serves {n : Int} (h : HeaderServes buf client net crlfPos n) :
    ∃ ret client' net', httpParseResponseHeader buf client net = .returned ret client' net' ∧
      0 ≤ ret ∧ client'.responseContentLen = Cjson.saturate n ∧
      client'.responseBufLen = client.responseBufLen ∧
      BodyServed (buf.removeStatusLine crlfPos) net n client' := by
  have hfits := h.fits
  have henough := h.enough
  rcases httpParseResponseHeader_cases client net h.statusLine with
    ⟨hover, -⟩ | ⟨-, ⟨hnone, -⟩ | ⟨n', bodyStart, hlength, hend, hle, hparse⟩⟩
  · omega
  · rw [h.length] at hnone
    cases hnone
  obtain rfl : n' = n := Option.some.inj (hlength.symm.trans h.length)
  obtain ⟨ret, client', net', hbody, hlen, hbuf, -, ⟨hshort, -⟩ | ⟨-, hret, hserved⟩⟩ :=
    httpGetResponseBody_of_length client hend hle h.nonneg
  · omega
  · exact ⟨ret, client', net', hparse.trans hbody, hret, hlen, hbuf, hserved⟩

theorem header_not_fails (h : ¬ HeaderFails buf client net) :
    httpParseResponseHeader buf client net = .overflow ∨
      httpParseResponseHeader buf client net = .negativeLength ∨
      ∃ crlfPos n, HeaderServes buf client net crlfPos n := by
  unfold HeaderFails at h
  push Not at h
  obtain ⟨crlfPos, hcrlf, hnot⟩ := h
  rcases httpParseResponseHeader_cases client net hcrlf with
    ⟨-, hparse⟩ | ⟨hfits, ⟨hnone, -⟩ | ⟨n, bodyStart, hlength, -, -, hparse⟩⟩
  · exact .inl hparse
  · obtain ⟨n, hlength, -⟩ := hnot hfits
    rw [hnone] at hlength
    cases hlength
  · obtain ⟨n', hlength', hunknown, henough⟩ := hnot hfits
    obtain rfl : n' = n := Option.some.inj (hlength'.symm.trans hlength)
    by_cases hn : 0 ≤ n'
    · specialize henough hn
      exact .inr (.inr ⟨crlfPos, n', hcrlf, hfits, hlength, hn, by omega⟩)
    · refine .inr (.inl (hparse.trans ?_))
      exact httpGetResponseBody_negative _ client _ (by omega)

end

/-! ## Two responses -/

def fresh : ClientData := ⟨true, 0, 0, [], ⟨256, by decide⟩⟩

def helloResponse : List UInt8 := text "HTTP/1.1 200 OK" ++ crlf ++ text "Content-Length: 2" ++
  crlf ++ crlf ++ text "hi"

theorem header_safe_hello : 0 ≤ fresh.retrieveLen ∧
    HeaderSafe (.ofRead helloResponse 31 []) fresh ⟨helloResponse.drop 32, [31]⟩ := by
  have hclient : 0 ≤ fresh.retrieveLen := by decide
  refine ⟨hclient, (header_safe_iff hclient).mpr fun crlfPos hcrlf => ?_⟩
  obtain rfl : 15 = crlfPos := Option.some.inj ((show _ = some 15 by decide).symm.trans hcrlf)
  refine ⟨by decide, fun n hn => ?_⟩
  obtain rfl : 2 = n := Option.some.inj ((show _ = some (2 : Int) by decide).symm.trans hn)
  exact ⟨by decide, .inl ⟨21, 0, text " 2", by decide, by decide, by decide, by decide, by decide,
    by decide⟩⟩

def negativeResponse : List UInt8 := text "HTTP/1.1 200 OK" ++ crlf ++ text "Content-Length: -2" ++
  crlf ++ crlf

/-- A length of minus two is copied. -/
theorem negative_header_unsafe :
    ¬ HeaderSafe (.ofRead negativeResponse 31 []) fresh ⟨negativeResponse.drop 32, [31]⟩ :=
  fun h => h.lengths rfl

end AliyunIot.Httpc.Header
