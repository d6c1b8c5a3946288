import AliyunIot.Infra.CharBuf

/-!
# Saved TLS sessions

`ssl_serialize_session` and `ssl_deserialize_session` copy a session as it lies in memory, with its
pointers, and the ticket behind it. The room for the ticket is compared with the size of a session,
a record that is too long is refused only when its ticket has been allocated, and a record without
a ticket keeps the pointer that was stored (`session_iff`).
-/

namespace AliyunIot.Wrappers.TlsSession

/-- Where the members of `mbedtls_ssl_session` lie that are looked at; a pointer and a `size_t`
have `word` bytes. -/
structure Layout where
  word : Nat
  size : Nat
  peerCert : Nat
  ticket : Nat
  ticketLen : Nat
  peerCert_le : peerCert + word ≤ ticket
  ticket_le : ticket + word ≤ ticketLen
  ticketLen_le : ticketLen + word ≤ size

/-- The number of a `size_t`, from its lowest byte on. -/
def leValue (s : List UInt8) : Nat := s.foldr (fun b n => b.toNat + 256 * n) 0

def field (bytes : List UInt8) (off len : Nat) : List UInt8 := (bytes.drop off).take len

namespace Layout

variable (L : Layout)

def null : List UInt8 := List.replicate L.word 0

def ticketPtr (bytes : List UInt8) : List UInt8 := field bytes L.ticket L.word

def ticketLenOf (bytes : List UInt8) : Nat := leValue (field bytes L.ticketLen L.word)

/-- What `HAL_Malloc` gives where it does not fail. -/
abbrev Address := {a : List UInt8 // a.length = L.word ∧ a ≠ L.null}

end Layout

/-- A session in memory, and the bytes that its ticket points to. -/
structure Session (L : Layout) where
  bytes : List UInt8
  ticket : List UInt8
  length_bytes : bytes.length = L.size
  length_ticket : ticket.length = L.ticketLenOf bytes

inductive SslError where
  | bufferTooSmall
  | badInputData
  | allocFailed

inductive AuthMode where
  | ca
  | psk

/-- How a session is saved: with a write behind the buffer, an error, or `olen` and the buffer. -/
inductive Saved where
  | outside
  | error (e : SslError)
  | done (olen : Nat) (buf : CharBuf)

/-- How one is restored: with a read behind the record, or with an error or none, the session that
is left, and the ticket if one is allocated. -/
inductive Restored where
  | outside
  | returned (error : Option SslError) (session : List UInt8) (ticket : Option (List UInt8))

section

variable {L : Layout}

def sslSerializeSession (session : Session L) (buf : CharBuf) : Saved :=
  if buf.length < L.size then .error .bufferTooSmall
  else
    match buf.write 0 session.bytes with
    | none => .outside
    | some buf =>
      if buf.length - L.size < L.size then .error .bufferTooSmall
      else
        match buf.write L.size session.ticket with
        | none => .outside
        | some buf => .done (L.size + L.ticketLenOf session.bytes) buf

/-- A `memcpy` out of a record, none where it reads behind it. -/
def readAt (buf : List UInt8) (pos len : Nat) : Option (List UInt8) :=
  if pos + len ≤ buf.length then some (field buf pos len) else none

variable (L) in
/-- `session->peer_cert = NULL`, which is left out with a shared key. -/
def clearPeerCert (mode : AuthMode) (session : CharBuf) : CharBuf :=
  match mode with
  | .ca => session.put L.peerCert L.null
  | .psk => session

variable (L) in
def sslDeserializeSession (mode : AuthMode) (malloc : Option L.Address) (session buf : CharBuf) :
    Restored :=
  if buf.length < L.size then .returned (some .badInputData) session none
  else
    match readAt buf 0 L.size with
    | none => .outside
    | some session =>
      let session := clearPeerCert L mode session
      let ticketLen := L.ticketLenOf session
      if 0 < ticketLen then
        if buf.length - L.size < ticketLen then .returned (some .badInputData) session none
        else
          match malloc with
          | none => .returned (some .allocFailed) (session.put L.ticket L.null) none
          | some address =>
            match readAt buf L.size ticketLen with
            | none => .outside
            | some ticket =>
              let session := session.put L.ticket address.val
              if L.size + ticketLen ≠ buf.length then
                .returned (some .badInputData) session (some ticket)
              else .returned none session (some ticket)
      else if L.size ≠ buf.length then .returned (some .badInputData) session none
      else .returned none session none

/-! ## What is asked -/

def Agrees (L : Layout) (a b : List UInt8) : Prop :=
  ∀ i, ¬ (L.peerCert ≤ i ∧ i < L.peerCert + L.word) → ¬ (L.ticket ≤ i ∧ i < L.ticket + L.word) →
    a[i]? = b[i]?

/-- A session is written in the buffer, `olen` bytes of it, or there is an error. -/
def Saved.Within (session : Session L) (buf : CharBuf) : Saved → Prop
  | .outside => False
  | .error _ => True
  | .done olen buf' => olen ≤ buf.length ∧ olen = (session.bytes ++ session.ticket).length ∧
      buf'.take olen = session.bytes ++ session.ticket ∧ buf'.drop olen = buf.drop olen

/-- No more than the record is read. The pointer to the ticket is `NULL` or was allocated, or there
is an error and nothing is allocated. -/
def Restored.Confined (malloc : Option L.Address) : Restored → Prop
  | .outside => False
  | .returned none session ticket => L.ticketPtr session = L.null ∨
      ∃ address, malloc = some address ∧ ticket.isSome ∧ L.ticketPtr session = address.val
  | .returned (some _) _ ticket => ticket = none

/-- What is saved lies in the buffer and is restored, whatever was in memory before, and a record is
restored from its own bytes. -/
structure SessionLaw (mode : AuthMode) (session : Session L) (buf stored : CharBuf) : Prop where
  saves : (sslSerializeSession session buf).Within session buf
  restores : ∀ olen buf' address old, sslSerializeSession session buf = .done olen buf' →
    ∃ restored ticket,
      sslDeserializeSession L mode (some address) old (buf'.take olen) =
          .returned none restored ticket ∧
        Agrees L restored session.bytes ∧ ticket.getD [] = session.ticket
  confined : ∀ malloc old, (sslDeserializeSession L mode malloc old stored).Confined malloc

/-- The session has room in the buffer if two without tickets have. A record without a ticket has no
pointer to one, and one with a ticket has nothing behind it. -/
structure Storable (session : Session L) (buf stored : CharBuf) : Prop where
  room : 2 * L.size ≤ buf.length → L.size + L.ticketLenOf session.bytes ≤ buf.length
  pointer : stored.length = L.size → L.ticketLenOf stored = 0 → L.ticketPtr stored = L.null
  whole : 0 < L.ticketLenOf stored → stored.length ≤ L.size + L.ticketLenOf stored

end

/-! ## Members -/

section Fields

variable {a b bytes data : List UInt8} {buf : CharBuf} {off len pos : Nat}

theorem field_congr (h : ∀ i, off ≤ i → i < off + len → a[i]? = b[i]?) :
    field a off len = field b off len := by
  refine List.ext_getElem? fun i => ?_
  rw [field, field, List.getElem?_take, List.getElem?_take]
  split
  next hi => rw [List.getElem?_drop, List.getElem?_drop, h (off + i) (by omega) (by omega)]
  next => rfl

theorem field_put_self (h : pos + data.length ≤ buf.length) :
    field (buf.put pos data) pos data.length = data := by
  have hpos : (buf.take pos).length = pos := by
    rw [List.length_take]
    omega
  rw [field, CharBuf.put, List.drop_left' hpos, List.take_left]

end Fields

/-! ## The two functions -/

section Calls

variable {L : Layout} {mode : AuthMode} {session : Session L} {buf stored old : CharBuf}
  {malloc : Option L.Address}

/-- What is saved where the buffer has room for the session and its ticket. -/
def savedBuf (session : Session L) (buf : CharBuf) : CharBuf :=
  CharBuf.put (CharBuf.put buf 0 session.bytes) L.size session.ticket

theorem serialize_eq (session : Session L) (buf : CharBuf) :
    sslSerializeSession session buf =
      if buf.length < 2 * L.size then .error .bufferTooSmall
      else if L.size + L.ticketLenOf session.bytes ≤ buf.length then
        .done (L.size + L.ticketLenOf session.bytes) (savedBuf session buf)
      else .outside := by
  have hbytes := session.length_bytes
  have hticket := session.length_ticket
  unfold sslSerializeSession
  by_cases hsize : buf.length < L.size
  · rw [if_pos hsize, if_pos (by omega)]
  · have hfits : 0 + session.bytes.length ≤ buf.length := by omega
    have hput : (CharBuf.put buf 0 session.bytes).length = buf.length := CharBuf.length_put hfits
    rw [if_neg hsize, CharBuf.write, if_pos hfits]
    dsimp only
    rw [CharBuf.write, hput, hticket]
    by_cases htwo : buf.length < 2 * L.size
    · rw [if_pos htwo, if_pos (by omega)]
    · rw [if_neg htwo, if_neg (show ¬ buf.length - L.size < L.size by omega)]
      by_cases hroom : L.size + L.ticketLenOf session.bytes ≤ buf.length
      · rw [if_pos hroom, if_pos hroom]
        rfl
      · rw [if_neg hroom, if_neg hroom]

theorem savedBuf_eq (hroom : L.size + L.ticketLenOf session.bytes ≤ buf.length) :
    (savedBuf session buf).take (L.size + L.ticketLenOf session.bytes) =
        session.bytes ++ session.ticket ∧
      (savedBuf session buf).drop (L.size + L.ticketLenOf session.bytes) =
        buf.drop (L.size + L.ticketLenOf session.bytes) := by
  have hbytes := session.length_bytes
  have hfits : 0 + session.bytes.length ≤ buf.length := by omega
  have hput : (CharBuf.put buf 0 session.bytes).length = buf.length := CharBuf.length_put hfits
  have hsize : L.size ≤ (CharBuf.put buf 0 session.bytes).length := by omega
  have htake : (CharBuf.put buf 0 session.bytes).take L.size = session.bytes := by
    rw [← hbytes, ← Nat.zero_add session.bytes.length, CharBuf.take_put (Nat.zero_le _),
      List.take_zero, List.nil_append]
  have hdrop : (CharBuf.put buf 0 session.bytes).drop L.size = buf.drop L.size := by
    rw [← hbytes, ← Nat.zero_add session.bytes.length, CharBuf.drop_put (Nat.zero_le _)]
  rw [savedBuf, ← session.length_ticket]
  constructor
  · rw [CharBuf.take_put hsize, htake]
  · rw [CharBuf.drop_put hsize, ← List.drop_drop, hdrop, List.drop_drop]

variable (L) in
/-- The session that a record begins with, as it is when its ticket is looked for. -/
def frontOf (mode : AuthMode) (stored : CharBuf) : CharBuf :=
  clearPeerCert L mode (stored.take L.size)

theorem length_null : L.null.length = L.word := List.length_replicate

theorem getElem?_frontOf (h : L.size ≤ stored.length) {i : Nat} (hi : i < L.size)
    (hne : ¬ (L.peerCert ≤ i ∧ i < L.peerCert + L.word)) :
    (frontOf L mode stored)[i]? = stored[i]? := by
  have hpeer := L.peerCert_le
  have hticket := L.ticket_le
  have hlen := L.ticketLen_le
  have hfits : L.peerCert + L.null.length ≤ (stored.take L.size).length := by
    rw [length_null, List.length_take]
    omega
  cases mode with
  | ca =>
    rw [frontOf, clearPeerCert, CharBuf.getElem?_put hfits (by rw [length_null]; omega),
      List.getElem?_take_of_lt hi]
  | psk => rw [frontOf, clearPeerCert, List.getElem?_take_of_lt hi]

theorem field_frontOf (h : L.size ≤ stored.length) {off len : Nat} (hend : off + len ≤ L.size)
    (hbehind : L.peerCert + L.word ≤ off) :
    field (frontOf L mode stored) off len = field stored off len :=
  field_congr fun i hlo hhi => getElem?_frontOf h (by omega) (by omega)

theorem ticketLenOf_frontOf (h : L.size ≤ stored.length) :
    L.ticketLenOf (frontOf L mode stored) = L.ticketLenOf stored := by
  have hpeer := L.peerCert_le
  have hticket := L.ticket_le
  rw [Layout.ticketLenOf, field_frontOf h L.ticketLen_le (by omega), Layout.ticketLenOf]

theorem ticketPtr_frontOf (h : L.size ≤ stored.length) :
    L.ticketPtr (frontOf L mode stored) = L.ticketPtr stored := by
  have hticket := L.ticket_le
  have hlen := L.ticketLen_le
  rw [Layout.ticketPtr, field_frontOf h (by omega) L.peerCert_le, Layout.ticketPtr]

theorem length_frontOf (h : L.size ≤ stored.length) : (frontOf L mode stored).length = L.size := by
  have hpeer := L.peerCert_le
  have hticket := L.ticket_le
  have hlen := L.ticketLen_le
  have htake : (stored.take L.size).length = L.size := by
    rw [List.length_take, Nat.min_eq_left h]
  cases mode with
  | ca =>
    rw [frontOf, clearPeerCert, CharBuf.length_put (by rw [length_null, htake]; omega), htake]
  | psk => rw [frontOf, clearPeerCert, htake]

theorem readAt_front (h : L.size ≤ stored.length) :
    readAt stored 0 L.size = some (stored.take L.size) := by
  rw [readAt, Nat.zero_add, if_pos h, field, List.drop_zero]

theorem deserialize_short (h : stored.length < L.size) :
    sslDeserializeSession L mode malloc old stored = .returned (some .badInputData) old none := by
  rw [sslDeserializeSession, if_pos h]

theorem deserialize_no_ticket (h : L.size ≤ stored.length) (hnone : L.ticketLenOf stored = 0) :
    sslDeserializeSession L mode malloc old stored =
      .returned (if L.size = stored.length then none else some .badInputData)
        (frontOf L mode stored) none := by
  have hfront : ¬ 0 < L.ticketLenOf (frontOf L mode stored) := by
    rw [ticketLenOf_frontOf h, hnone]
    exact Nat.lt_irrefl 0
  rw [sslDeserializeSession, if_neg (Nat.not_lt.mpr h), readAt_front h]
  dsimp only
  rw [← frontOf, if_neg hfront]
  by_cases hlen : L.size = stored.length
  · rw [if_neg (not_not.mpr hlen), if_pos hlen]
  · rw [if_pos hlen, if_neg hlen]

theorem deserialize_cut (h : L.size ≤ stored.length)
    (hcut : stored.length < L.size + L.ticketLenOf stored) :
    sslDeserializeSession L mode malloc old stored =
      .returned (some .badInputData) (frontOf L mode stored) none := by
  rw [sslDeserializeSession, if_neg (Nat.not_lt.mpr h), readAt_front h]
  dsimp only
  rw [← frontOf, ticketLenOf_frontOf h, if_pos (by omega),
    if_pos (by omega)]

theorem deserialize_ticket (hpos : 0 < L.ticketLenOf stored)
    (h : L.size + L.ticketLenOf stored ≤ stored.length) :
    sslDeserializeSession L mode malloc old stored =
      match malloc with
      | none => .returned (some .allocFailed) ((frontOf L mode stored).put L.ticket L.null) none
      | some address =>
        .returned (if L.size + L.ticketLenOf stored = stored.length then none
            else some .badInputData)
          ((frontOf L mode stored).put L.ticket address.val)
          (some (field stored L.size (L.ticketLenOf stored))) := by
  have hsize : L.size ≤ stored.length := by omega
  rw [sslDeserializeSession, if_neg (Nat.not_lt.mpr hsize), readAt_front hsize]
  dsimp only
  rw [← frontOf, ticketLenOf_frontOf hsize, if_pos hpos,
    if_neg (by omega)]
  cases malloc with
  | none => rfl
  | some address =>
    rw [readAt, if_pos h]
    dsimp only
    by_cases hlen : L.size + L.ticketLenOf stored = stored.length
    · rw [if_neg (not_not.mpr hlen), if_pos hlen]
    · rw [if_pos hlen, if_neg hlen]

/-! ## What is saved is restored -/

theorem length_saved (session : Session L) :
    (session.bytes ++ session.ticket).length = L.size + L.ticketLenOf session.bytes := by
  rw [List.length_append, session.length_bytes, session.length_ticket]

theorem getElem?_saved (session : Session L) {i : Nat} (hi : i < L.size) :
    (session.bytes ++ session.ticket)[i]? = session.bytes[i]? :=
  List.getElem?_append_left (by rw [session.length_bytes]; exact hi)

theorem ticketLenOf_saved (session : Session L) :
    L.ticketLenOf (session.bytes ++ session.ticket) = L.ticketLenOf session.bytes := by
  have hlen := L.ticketLen_le
  rw [Layout.ticketLenOf, field_congr fun i _ hhi => getElem?_saved session (by omega),
    Layout.ticketLenOf]

theorem field_saved_ticket (session : Session L) :
    field (session.bytes ++ session.ticket) L.size (L.ticketLenOf session.bytes) =
      session.ticket := by
  rw [field, ← session.length_ticket, List.drop_left' session.length_bytes, List.take_length]

theorem agrees_frontOf (session : Session L) :
    Agrees L (frontOf L mode (session.bytes ++ session.ticket)) session.bytes := by
  have hlen := length_saved session
  have hsize : L.size ≤ (session.bytes ++ session.ticket).length := by omega
  intro i hpeer _
  by_cases hi : i < L.size
  · rw [getElem?_frontOf hsize hi hpeer, getElem?_saved session hi]
  · have hfront : (frontOf L mode (session.bytes ++ session.ticket)).length ≤ i := by
      rw [length_frontOf hsize]
      exact Nat.not_lt.mp hi
    have hbytes : session.bytes.length ≤ i := by
      rw [session.length_bytes]
      exact Nat.not_lt.mp hi
    rw [List.getElem?_eq_none hfront, List.getElem?_eq_none hbytes]

theorem Agrees.put_ticket {a b pointer : List UInt8} (h : Agrees L a b) (ha : a.length = L.size)
    (hpointer : pointer.length = L.word) : Agrees L (CharBuf.put a L.ticket pointer) b := by
  have hlen := L.ticketLen_le
  have hticket := L.ticket_le
  intro i hpeer hi
  rw [CharBuf.getElem?_put (by omega) (by omega)]
  exact h i hpeer hi

theorem deserialize_saved (session : Session L) (address : L.Address) (old : CharBuf) :
    ∃ restored ticket,
      sslDeserializeSession L mode (some address) old (session.bytes ++ session.ticket) =
          .returned none restored ticket ∧
        Agrees L restored session.bytes ∧ ticket.getD [] = session.ticket := by
  have hlen := length_saved session
  have hsize : L.size ≤ (session.bytes ++ session.ticket).length := by omega
  rcases Nat.eq_zero_or_pos (L.ticketLenOf session.bytes) with hnone | hpos
  · have hticket : session.ticket = [] :=
      List.eq_nil_of_length_eq_zero (session.length_ticket.trans hnone)
    refine ⟨frontOf L mode (session.bytes ++ session.ticket), none, ?_, agrees_frontOf session,
      hticket.symm⟩
    rw [deserialize_no_ticket hsize (by rw [ticketLenOf_saved, hnone]), if_pos (by omega)]
  · refine ⟨(frontOf L mode (session.bytes ++ session.ticket)).put L.ticket address.val,
      some session.ticket, ?_, (agrees_frontOf session).put_ticket (length_frontOf hsize)
        address.property.1, rfl⟩
    rw [deserialize_ticket (by rw [ticketLenOf_saved]; exact hpos)
      (by rw [ticketLenOf_saved, hlen])]
    rw [ticketLenOf_saved, if_pos hlen.symm, field_saved_ticket]

/-! ## What is stored -/

/-- An address other than `NULL`. -/
def Layout.someAddress (L : Layout) (h : 0 < L.word) : L.Address :=
  ⟨List.replicate L.word 1, List.length_replicate, fun heq => by
    rw [Layout.null, List.replicate_inj] at heq
    rcases heq.2 with hzero | hone
    · omega
    · exact absurd hone (by decide)⟩

theorem word_pos (h : 0 < L.ticketLenOf stored) : 0 < L.word := by
  rcases Nat.eq_zero_or_pos L.word with hzero | hpos
  · rw [Layout.ticketLenOf, field, hzero, List.take_zero] at h
    exact absurd h (Nat.lt_irrefl 0)
  · exact hpos

theorem confined_no_ticket (h : L.size ≤ stored.length) (hnone : L.ticketLenOf stored = 0) :
    (sslDeserializeSession L mode malloc old stored).Confined malloc ↔
      (stored.length = L.size → L.ticketPtr stored = L.null) := by
  rw [deserialize_no_ticket h hnone]
  by_cases hlen : L.size = stored.length
  · rw [if_pos hlen, Restored.Confined, ticketPtr_frontOf h]
    constructor
    · rintro (hnull | ⟨_, _, hticket, _⟩) _
      · exact hnull
      · exact absurd hticket Bool.false_ne_true
    · exact fun hnull => Or.inl (hnull hlen.symm)
  · rw [if_neg hlen, Restored.Confined]
    exact ⟨fun _ heq => absurd heq.symm hlen, fun _ => rfl⟩

theorem confined_ticket (hpos : 0 < L.ticketLenOf stored)
    (hle : stored.length ≤ L.size + L.ticketLenOf stored) :
    (sslDeserializeSession L mode malloc old stored).Confined malloc := by
  rcases Nat.lt_or_ge stored.length L.size with hshort | hsize
  · rw [deserialize_short hshort, Restored.Confined]
  · rcases Nat.lt_or_eq_of_le hle with hcut | hlen
    · rw [deserialize_cut hsize hcut, Restored.Confined]
    · rw [deserialize_ticket hpos hlen.ge]
      cases malloc with
      | none => rw [Restored.Confined]
      | some address =>
        have hfits : L.ticket + address.val.length ≤ (frontOf L mode stored).length := by
          have hlayout := L.ticket_le
          have hend := L.ticketLen_le
          rw [length_frontOf hsize, address.property.1]
          omega
        have hpointer := field_put_self hfits
        rw [address.property.1] at hpointer
        rw [if_pos hlen.symm, Restored.Confined]
        exact Or.inr ⟨address, rfl, rfl, hpointer⟩

theorem not_confined_long (hlong : L.size + L.ticketLenOf stored < stored.length)
    (hpos : 0 < L.ticketLenOf stored) (address : L.Address) :
    ¬ (sslDeserializeSession L mode (some address) old stored).Confined (some address) := by
  rw [deserialize_ticket hpos hlong.le]
  rw [if_neg hlong.ne, Restored.Confined]
  exact Option.some_ne_none _

theorem within_iff (session : Session L) (buf : CharBuf) :
    (sslSerializeSession session buf).Within session buf ↔
      (2 * L.size ≤ buf.length → L.size + L.ticketLenOf session.bytes ≤ buf.length) := by
  rw [serialize_eq]
  by_cases hshort : buf.length < 2 * L.size
  · rw [if_pos hshort, Saved.Within]
    exact ⟨fun _ h => absurd h (Nat.not_le_of_lt hshort), fun _ => trivial⟩
  · rw [if_neg hshort]
    by_cases hroom : L.size + L.ticketLenOf session.bytes ≤ buf.length
    · rw [if_pos hroom, Saved.Within, length_saved]
      exact ⟨fun _ _ => hroom, fun _ => ⟨hroom, rfl, savedBuf_eq hroom⟩⟩
    · rw [if_neg hroom, Saved.Within]
      exact ⟨False.elim, fun h => hroom (h (Nat.not_lt.mp hshort))⟩

theorem take_of_serialize {olen : Nat} {buf' : CharBuf}
    (h : sslSerializeSession session buf = .done olen buf') :
    buf'.take olen = session.bytes ++ session.ticket := by
  rw [serialize_eq] at h
  split at h
  · exact Saved.noConfusion h
  · split at h
    next hroom =>
      obtain ⟨rfl, rfl⟩ := Saved.done.inj h
      exact (savedBuf_eq hroom).1
    next => exact Saved.noConfusion h

/-- Which sessions are saved and which records restored as they should be. -/
theorem session_iff (mode : AuthMode) (session : Session L) (buf stored : CharBuf) :
    SessionLaw mode session buf stored ↔ Storable session buf stored := by
  constructor
  · intro law
    refine ⟨(within_iff session buf).mp law.saves, fun hlen hnone => ?_, fun hpos => ?_⟩
    · exact (confined_no_ticket hlen.ge hnone).mp (law.confined none []) hlen
    · by_contra hlong
      exact not_confined_long (Nat.not_le.mp hlong) hpos (L.someAddress (word_pos hpos))
        (law.confined _ [])
  · intro h
    refine ⟨(within_iff session buf).mpr h.room, fun olen buf' address old hdone => ?_,
      fun malloc old => ?_⟩
    · rw [take_of_serialize hdone]
      exact deserialize_saved session address old
    · rcases Nat.eq_zero_or_pos (L.ticketLenOf stored) with hnone | hpos
      · rcases Nat.lt_or_ge stored.length L.size with hshort | hsize
        · rw [deserialize_short hshort, Restored.Confined]
        · exact (confined_no_ticket hsize hnone).mpr fun hlen => h.pointer hlen hnone
      · exact confined_ticket hpos (h.whole hpos)

theorem not_sessionLaw (htwo : 2 * L.size ≤ buf.length)
    (hfull : buf.length < L.size + L.ticketLenOf session.bytes) :
    ¬ SessionLaw mode session buf stored := fun law => by
  have hroom := (within_iff session buf).mp law.saves htwo
  omega

/-- `mbedtls_ssl_session` with pointers of 32 bits. -/
def layout32 : Layout where
  word := 4
  size := 124
  peerCert := 92
  ticket := 100
  ticketLen := 104
  peerCert_le := by decide
  ticket_le := by decide
  ticketLen_le := by decide

theorem field_ticketLen (front back : List UInt8) (h : front.length = 104) :
    layout32.ticketLenOf (front ++ ([5, 1, 0, 0] ++ back)) = 261 := by
  have hfield : field (front ++ ([5, 1, 0, 0] ++ back)) 104 4 = [5, 1, 0, 0] := by
    rw [field, List.drop_left' h]
    rfl
  exact congrArg leValue hfield

def largeTicket : Session layout32 where
  bytes := List.replicate 104 0 ++ ([5, 1, 0, 0] ++ List.replicate 16 0)
  ticket := List.replicate 261 0
  length_bytes := by simp only [List.length_append, List.length_replicate]; rfl
  length_ticket := by rw [List.length_replicate, field_ticketLen _ _ List.length_replicate]

theorem largeTicket_len : layout32.ticketLenOf largeTicket.bytes = 261 :=
  field_ticketLen _ _ List.length_replicate

/-- It is written behind a buffer of `TLS_MAX_SESSION_BUF` bytes. -/
theorem ticket_behind_buffer :
    ¬ SessionLaw .ca largeTicket (CharBuf.zeros 384) (CharBuf.zeros 124) := by
  apply not_sessionLaw
  · rw [CharBuf.length_zeros]
    decide
  · rw [CharBuf.length_zeros, largeTicket_len]
    decide

end Calls

end AliyunIot.Wrappers.TlsSession
