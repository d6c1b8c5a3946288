import Mathlib.Algebra.Ring.Nat
import AliyunIot.Wrappers.Transport
import AliyunIot.Lib.Run

/-!
# What the clients rely on

A read gives a positive number exactly for the bytes it stores, 0 when nothing has arrived on a
connection that is still usable, a negative number on one that is not; a write that does not
report a failure does not understate what has been accepted. `Keeps` says in terms of the results
of the lower layer, the connection and the shared status which calls do so.
-/

namespace AliyunIot.Wrappers

open Lib

/-- A read of at most `len` bytes from `c` that returns `ret`. -/
structure ReadContract (c : Conn) (len : UInt32) (ret : Int) (buf : List UInt8) (c' : Conn) :
    Prop where
  data : 0 < ret → ret ≤ len.toNat ∧ buf = bytesAt c.stream c.taken ret.toNat ∧
    c'.taken = c.taken + ret.toNat
  nothing : ret = 0 → buf = [] ∧ c'.taken = c.taken ∧ c'.down = false
  failure : ret < 0 → buf = [] ∧ c'.taken = c.taken ∧ c'.down = true

def WriteContract (c : Conn) (ret : Int) (c' : Conn) : Prop :=
  ret < 0 ∨ (c'.sent.length : Int) ≤ c.sent.length + ret

def Call.Contract (t : Transport) : Call → Prop
  | .tcpRead fd len timeoutMs rs => ∀ ret buf c,
    halTcpRead (t.tcp fd) len timeoutMs rs = some (ret, buf, c) →
      ReadContract (t.tcp fd) len ret buf c
  | .tcpWrite fd buf len timeoutMs rs => ∀ ret c,
    halTcpWrite (t.tcp fd) buf len timeoutMs rs = some (ret, c) →
      WriteContract (t.tcp fd) ret c
  | .sslRead handle len rs => ∀ done,
    networkSslRead t.netStatus (t.tls handle) len rs = some done →
      ReadContract (t.tls handle) len done.ret done.buf done.conn
  | .sslWrite handle buf len rs => ∀ ret c,
    networkSslWrite (t.tls handle) buf len rs = some (ret, c) →
      WriteContract (t.tls handle) ret c

/-! ## The condition -/

def Recv.size : Recv → Nat
  | .data n _ => n
  | _ => 0

def SslRead.size : SslRead → Nat
  | .data n _ => n
  | _ => 0

def SslWrite.size : SslWrite → Nat
  | .room n _ => n
  | _ => 0

variable {n : Nat}

@[simp] theorem Recv.size_data {pos : 0 < n} : (data n pos).size = n := rfl

@[simp] theorem SslRead.size_data {pos : 0 < n} : (data n pos).size = n := rfl

@[simp] theorem SslWrite.size_room {pos : 0 < n} : (room n pos).size = n := rfl

/-- The result is that the connection is closed or has failed. -/
def Recv.ends : Recv → Bool
  | .closed | .failed => true
  | _ => false

/-- A TCP read keeps its contract if it delivers bytes, or the connection is usable after it. -/
def KeepsTcpRead (c : Conn) (len : UInt32) (rs : List (Recv × UInt32)) : Prop :=
  let arrived := min len.toNat (rs.map fun r => r.1.size).sum
  arrived < 2147483648 ∧ (arrived = 0 → c.down = false ∧ ∀ r ∈ rs, r.1.ends = false)

/-- A TLS read keeps its contract by its last result, `arrived` bytes after its beginning. -/
def KeepsLast (netStatus : Int) (down : Bool) (arrived : Nat) : Option SslRead → Prop
  | none => arrived = 0 → (netStatus = 0 ↔ down = false)
  | some (.data _ _) => True
  | some .eof => arrived = 0 → netStatus = -2
  | some .peerCloseNotify => True
  | some .timeout | some .sessionTicketExpired | some .nonFatal => arrived = 0 → down = false
  | some .connEof => 0 < arrived
  | some .want => arrived = 0 ∧ down = true
  | some .fatal => arrived = 0

def KeepsSslRead (netStatus : Int) (c : Conn) (len : UInt32) (rs : List SslRead) : Prop :=
  let arrived := min len.toNat (rs.map SslRead.size).sum
  arrived < 2147483648 ∧ KeepsLast netStatus c.down arrived rs.getLast?

/-- `mbedtls_ssl_write` gives 0 to a TLS write only as long as it has accepted nothing. -/
def KeepsSslWrite (len : UInt32) (rs : List SslWrite) : Prop :=
  rs.getLast? = some .timeout → min len.toNat (rs.map SslWrite.size).sum = 0

def Call.Keeps (t : Transport) : Call → Prop
  | .tcpRead fd len timeoutMs rs =>
    (halTcpRead (t.tcp fd) len timeoutMs rs).isSome → KeepsTcpRead (t.tcp fd) len rs
  | .tcpWrite .. => True
  | .sslRead handle len rs =>
    (networkSslRead t.netStatus (t.tls handle) len rs).isSome →
      KeepsSslRead t.netStatus (t.tls handle) len rs
  | .sslWrite handle buf len rs =>
    (networkSslWrite (t.tls handle) buf len rs).isSome → KeepsSslWrite len rs

/-! ## Bytes and results -/

@[simp] theorem length_bytesAt (f : Nat → UInt8) (i n : Nat) : (bytesAt f i n).length = n := by
  simp [bytesAt]

theorem bytesAt_add (f : Nat → UInt8) (i m n : Nat) :
    bytesAt f i (m + n) = bytesAt f i m ++ bytesAt f (i + m) n := by
  simp [bytesAt, List.range_add, Nat.add_assoc]

theorem int32_of_lt (h : n < 2147483648) : int32 n = n := if_pos h

theorem int32_neg (h : 2147483648 ≤ n) (hn : n < 4294967296) : int32 n < 0 := by
  rw [int32, if_neg (by omega)]
  omega

theorem returning_eq_some {ρ α : Type} {rest : List ρ} {value result : α} :
    returning rest value = some result ↔ rest = [] ∧ value = result := by
  cases rest <;> simp [returning]

section Transfer

variable {c c' : Conn} {len timeoutMs : UInt32}

theorem tcpReadLoop_eq {buf buf' : List UInt8} {rs : List (Recv × UInt32)}
    (hle : buf.length ≤ len.toNat) (h : tcpReadLoop len timeoutMs c buf rs = some (buf', c')) :
    ∃ n, n = min (len.toNat - buf.length) (rs.map fun r => r.1.size).sum ∧
      buf' = buf ++ bytesAt c.stream c.taken n ∧ c'.taken = c.taken + n ∧
      c'.down = (c.down || rs.any fun r => r.1.ends) := by
  induction rs generalizing c buf with
  | nil => simp [tcpReadLoop] at h
  | cons r rs ih =>
    obtain ⟨r, elapsedMs⟩ := r
    cases r with
    | data n pos =>
      have hlen : (buf ++ bytesAt c.stream c.taken (min n (len.toNat - buf.length))).length =
          buf.length + min n (len.toNat - buf.length) := by
        simp
      simp only [tcpReadLoop] at h
      have hdata : (Recv.data n pos).ends = false := rfl
      simp only [List.map_cons, List.sum_cons, Recv.size_data, List.any_cons, hdata, Bool.false_or]
      split at h
      · obtain ⟨m, hm, hbuf, htaken, hdown⟩ := ih (by omega) h
        refine ⟨min n (len.toNat - buf.length) + m, by omega, ?_, ?_, hdown⟩
        · rw [hbuf, bytesAt_add, List.append_assoc]
          rfl
        · rw [htaken, Conn.take, Nat.add_assoc]
      · obtain ⟨rfl, heq⟩ := returning_eq_some.mp h
        cases heq
        exact ⟨_, by simp [Nat.min_comm], rfl, rfl, by simp [Conn.take]⟩
    | closed =>
      simp only [tcpReadLoop] at h
      have hsize : Recv.closed.size = 0 := rfl
      have hends : Recv.closed.ends = true := rfl
      simp only [List.map_cons, List.sum_cons, hsize, List.any_cons, hends, Bool.true_or,
        Bool.or_true, Nat.zero_add]
      split at h
      · obtain ⟨m, hm, hbuf, htaken, hdown⟩ := ih hle h
        exact ⟨m, hm, hbuf, htaken, by simpa [Conn.close] using hdown⟩
      · obtain ⟨rfl, heq⟩ := returning_eq_some.mp h
        cases heq
        exact ⟨0, by simp, by simp [bytesAt], rfl, rfl⟩
    | wouldBlock =>
      simp only [tcpReadLoop] at h
      obtain ⟨rfl, heq⟩ := returning_eq_some.mp h
      cases heq
      exact ⟨0, by simp [Recv.size], by simp [bytesAt], rfl, by simp [Recv.ends]⟩
    | failed =>
      simp only [tcpReadLoop] at h
      obtain ⟨rfl, heq⟩ := returning_eq_some.mp h
      cases heq
      exact ⟨0, by simp [Recv.size], by simp [bytesAt], rfl, by simp [Conn.close, Recv.ends]⟩

variable {n : Nat}

theorem readContract_iff (hn : n ≤ len.toNat) (htaken : c'.taken = c.taken + n) :
    ReadContract c len (int32 n) (bytesAt c.stream c.taken n) c' ↔
      n < 2147483648 ∧ (n = 0 → c'.down = false) := by
  have hlen := len.toNat_lt
  constructor
  · intro h
    constructor
    · by_contra hbig
      have hneg := int32_neg (Nat.not_lt.mp hbig) (by omega)
      have := congrArg List.length (h.failure hneg).1
      simp at this
      omega
    · rintro rfl
      exact (h.nothing rfl).2.2
  · rintro ⟨hlt, hdown⟩
    rw [int32_of_lt hlt]
    refine ⟨fun hpos => ⟨by omega, rfl, htaken⟩, fun hzero => ?_, fun hneg => by omega⟩
    have hn0 : n = 0 := by omega
    subst hn0
    exact ⟨rfl, htaken, hdown rfl⟩

variable {ret : Int}

theorem tcpRead_contract_iff {buf : List UInt8} {rs : List (Recv × UInt32)}
    (h : halTcpRead c len timeoutMs rs = some (ret, buf, c')) :
    ReadContract c len ret buf c' ↔ KeepsTcpRead c len rs := by
  obtain ⟨⟨buf', c''⟩, hloop, heq⟩ := Option.map_eq_some_iff.mp h
  cases heq
  obtain ⟨n, hn, hbuf, htaken, hdown⟩ := tcpReadLoop_eq (Nat.zero_le _) hloop
  rw [List.nil_append] at hbuf
  rw [List.length_nil, Nat.sub_zero] at hn
  rw [hbuf, length_bytesAt, readContract_iff (by omega) htaken, KeepsTcpRead, ← hn, hdown]
  simp

theorem tcpWriteLoop_eq {f : Nat → UInt8} {lenXfer lenXfer' : Nat} {rs : List (Send × UInt32)}
    (hle : lenXfer ≤ len.toNat)
    (h : tcpWriteLoop f len timeoutMs c lenXfer rs = some (lenXfer', c')) :
    lenXfer ≤ lenXfer' ∧ lenXfer' ≤ len.toNat ∧
      c'.sent = c.sent ++ bytesAt f lenXfer (lenXfer' - lenXfer) := by
  induction rs generalizing c lenXfer with
  | nil => simp [tcpWriteLoop] at h
  | cons r rs ih =>
    obtain ⟨r, elapsedMs⟩ := r
    cases r with
    | room n =>
      simp only [tcpWriteLoop] at h
      split at h
      · obtain ⟨hge, hlen, hsent⟩ := ih (by omega) h
        refine ⟨by omega, hlen, ?_⟩
        have hsplit : lenXfer' - lenXfer = min n (len.toNat - lenXfer) +
            (lenXfer' - (lenXfer + min n (len.toNat - lenXfer))) := by
          omega
        rw [hsent, hsplit, bytesAt_add, ← List.append_assoc]
        rfl
      · obtain ⟨rfl, heq⟩ := returning_eq_some.mp h
        cases heq
        refine ⟨by omega, by omega, ?_⟩
        rw [Nat.add_sub_cancel_left]
        rfl
    | wouldBlock =>
      simp only [tcpWriteLoop] at h
      obtain ⟨rfl, heq⟩ := returning_eq_some.mp h
      cases heq
      exact ⟨Nat.le_refl _, hle, by simp [bytesAt]⟩
    | failed =>
      simp only [tcpWriteLoop] at h
      obtain ⟨rfl, heq⟩ := returning_eq_some.mp h
      cases heq
      exact ⟨Nat.le_refl _, hle, by simp [bytesAt, Conn.close]⟩

theorem tcpWrite_contract {f : Nat → UInt8} {rs : List (Send × UInt32)}
    (h : halTcpWrite c f len timeoutMs rs = some (ret, c')) : WriteContract c ret c' := by
  obtain ⟨⟨lenXfer, c''⟩, hloop, heq⟩ := Option.map_eq_some_iff.mp h
  cases heq
  obtain ⟨-, hlen, hsent⟩ := tcpWriteLoop_eq (Nat.zero_le _) hloop
  have hlt := len.toNat_lt
  by_cases hsmall : lenXfer < 2147483648
  · right
    rw [hsent, int32_of_lt hsmall]
    simp
  · exact .inl (int32_neg (by omega) (by omega))

theorem readContract_iff_of_neg (hret : ret < 0) (htaken : c'.taken = c.taken + n) :
    ReadContract c len ret (bytesAt c.stream c.taken n) c' ↔ n = 0 ∧ c'.down = true := by
  constructor
  · intro h
    obtain ⟨hbuf, -, hdown⟩ := h.failure hret
    exact ⟨by simpa using congrArg List.length hbuf, hdown⟩
  · rintro ⟨rfl, hdown⟩
    exact ⟨fun hpos => by omega, fun hzero => by omega, fun _ => ⟨rfl, htaken, hdown⟩⟩

variable {netStatus : Int}

theorem keepsLast_cons {pos : 0 < n} {down : Bool} {arrived : Nat}
    (h : 0 < arrived) (rs : List SslRead) :
    KeepsLast netStatus down arrived (SslRead.data n pos :: rs).getLast? ↔
      KeepsLast 0 down arrived rs.getLast? := by
  have hne : arrived ≠ 0 := Nat.pos_iff_ne_zero.mp h
  cases rs with
  | nil => simp [KeepsLast, hne]
  | cons r rs =>
    rw [List.getLast?_cons_cons]
    cases hlast : (r :: rs).getLast? with
    | none => simp at hlast
    | some last => cases last <;> simp [KeepsLast, hne]

theorem arrived_last {r : SslRead} (hn : n ≤ len.toNat) (hr : r.size = 0) :
    min len.toNat (n + (List.map SslRead.size [r]).sum) = n := by
  simp [hr, hn]

theorem sslReadLoop_contract_iff {rs : List SslRead}
    {done : SslReadDone} (hn : n ≤ len.toNat) (hstatus : netStatus ≤ 0)
    (hzero : 0 < n → netStatus = 0)
    (h : sslReadLoop len netStatus (c.take n) (bytesAt c.stream c.taken n) rs = some done) :
    ReadContract c len done.ret done.buf done.conn ↔
      min len.toNat (n + (rs.map SslRead.size).sum) < 2147483648 ∧
        KeepsLast netStatus c.down (min len.toNat (n + (rs.map SslRead.size).sum)) rs.getLast? := by
  have htake : (c.take n).taken = c.taken + n := rfl
  have hclose : (c.take n).close.taken = c.taken + n := rfl
  induction rs generalizing n netStatus with
  | nil =>
    simp only [sslReadLoop, length_bytesAt] at h
    split at h
    · cases h
    · cases h
      have harrived : min len.toNat (n + (List.map SslRead.size []).sum) = n := by simp [hn]
      rw [harrived]
      show ReadContract c len (if 0 < n then int32 n else netStatus) _ _ ↔ _
      split
      case isTrue hpos =>
        rw [readContract_iff hn htake]
        simp [KeepsLast, Nat.pos_iff_ne_zero.mp hpos]
      case isFalse hpos =>
        have hn0 : n = 0 := by omega
        subst hn0
        by_cases hup : netStatus = 0
        · subst hup
          show ReadContract c len (int32 0) _ _ ↔ _
          rw [readContract_iff hn htake]
          simp [KeepsLast, Conn.take]
        · rw [readContract_iff_of_neg (by omega) htake]
          simp [KeepsLast, Conn.take, hup]
  | cons r rs ih =>
    simp only [sslReadLoop, length_bytesAt] at h
    split at h
    case isFalse hfull => cases h
    case isTrue hlt =>
      cases r with
      | data m pos =>
        have hbytes : bytesAt c.stream c.taken n ++
            bytesAt (c.take n).stream (c.take n).taken (min m (len.toNat - n)) =
            bytesAt c.stream c.taken (n + min m (len.toNat - n)) := (bytesAt_add ..).symm
        have hconn : (c.take n).take (min m (len.toNat - n)) =
            c.take (n + min m (len.toNat - n)) := by
          simp [Conn.take, Nat.add_assoc]
        simp only [hbytes, hconn] at h
        have hsum : min len.toNat (n + (List.map SslRead.size (.data m pos :: rs)).sum) =
            min len.toNat (n + min m (len.toNat - n) + (rs.map SslRead.size).sum) := by
          rw [List.map_cons, List.sum_cons, SslRead.size_data]
          omega
        rw [hsum, keepsLast_cons (by omega)]
        exact ih (by omega) (Int.le_refl 0) (fun _ => rfl) h rfl rfl
      | eof =>
        obtain ⟨rfl, rfl⟩ := returning_eq_some.mp h
        rw [arrived_last (r := .eof) hn rfl]
        show ReadContract c len (if netStatus = -2 then netStatus else int32 n)
          (bytesAt c.stream c.taken n) (c.take n).close ↔ _
        split
        case isTrue hclosed =>
          have hn0 : n = 0 := by
            by_contra hpos
            have := hzero (by omega)
            omega
          rw [readContract_iff_of_neg (by omega) hclose]
          simp [KeepsLast, Conn.close, hclosed, hn0]
        case isFalse hopen =>
          rw [readContract_iff hn hclose]
          simp [KeepsLast, Conn.close, hopen]
      | peerCloseNotify =>
        obtain ⟨rfl, rfl⟩ := returning_eq_some.mp h
        rw [arrived_last (r := .peerCloseNotify) hn rfl]
        show ReadContract c len (if 0 < n then int32 n else -2) (bytesAt c.stream c.taken n)
          (c.take n).close ↔ _
        split
        case isTrue hpos =>
          rw [readContract_iff hn hclose]
          simp [KeepsLast, Nat.pos_iff_ne_zero.mp hpos]
        case isFalse hpos =>
          rw [readContract_iff_of_neg (by omega) hclose]
          simp [KeepsLast, Conn.close]
          omega
      | timeout | sessionTicketExpired | nonFatal =>
        obtain ⟨rfl, rfl⟩ := returning_eq_some.mp h
        rw [arrived_last hn, readContract_iff hn htake]
        all_goals rfl
      | connEof =>
        obtain ⟨rfl, rfl⟩ := returning_eq_some.mp h
        rw [arrived_last (r := .connEof) hn rfl, readContract_iff hn hclose]
        simp [KeepsLast, Conn.close, Nat.pos_iff_ne_zero]
      | want =>
        obtain ⟨rfl, rfl⟩ := returning_eq_some.mp h
        rw [arrived_last (r := .want) hn rfl]
        show ReadContract c len (-1) (bytesAt c.stream c.taken n) (c.take n) ↔ _
        rw [readContract_iff_of_neg (by omega) htake]
        simp only [KeepsLast, List.getLast?_singleton]
        show n = 0 ∧ c.down = true ↔ _
        exact ⟨fun ⟨hn0, hdown⟩ => ⟨by omega, hn0, hdown⟩, fun h => h.2⟩
      | fatal =>
        obtain ⟨rfl, rfl⟩ := returning_eq_some.mp h
        rw [arrived_last (r := .fatal) hn rfl]
        show ReadContract c len (-1) (bytesAt c.stream c.taken n) (c.take n).close ↔ _
        rw [readContract_iff_of_neg (by omega) hclose]
        simp only [KeepsLast, List.getLast?_singleton]
        exact ⟨fun ⟨hn0, _⟩ => ⟨by omega, hn0⟩, fun h => ⟨h.2, rfl⟩⟩

theorem sslRead_contract_iff {rs : List SslRead} {done : SslReadDone}
    (hstatus : netStatus ≤ 0) (h : networkSslRead netStatus c len rs = some done) :
    ReadContract c len done.ret done.buf done.conn ↔ KeepsSslRead netStatus c len rs := by
  have := sslReadLoop_contract_iff (n := 0) (Nat.zero_le _) hstatus (fun h => by omega) h
  rwa [Nat.zero_add] at this

theorem sslReadLoop_netStatus {buf : List UInt8} {rs : List SslRead}
    {done : SslReadDone} (hstatus : netStatus ≤ 0)
    (h : sslReadLoop len netStatus c buf rs = some done) : done.netStatus ≤ 0 := by
  induction rs generalizing netStatus c buf with
  | nil =>
    simp only [sslReadLoop] at h
    split at h
    · cases h
    · cases h
      exact hstatus
  | cons r rs ih =>
    simp only [sslReadLoop] at h
    split at h
    case isFalse hfull => cases h
    case isTrue hlt =>
      cases r with
      | data m pos => exact ih (Int.le_refl 0) h
      | eof | timeout | connEof | sessionTicketExpired | nonFatal =>
        obtain ⟨rfl, rfl⟩ := returning_eq_some.mp h
        exact hstatus
      | peerCloseNotify =>
        obtain ⟨rfl, rfl⟩ := returning_eq_some.mp h
        show (-2 : Int) ≤ 0
        omega
      | want | fatal =>
        obtain ⟨rfl, rfl⟩ := returning_eq_some.mp h
        show (-1 : Int) ≤ 0
        omega

theorem sslWriteLoop_contract_iff {f : Nat → UInt8} {rs : List SslWrite}
    (hn : n ≤ len.toNat) {sent : List UInt8} (hsent : c.sent = sent ++ bytesAt f 0 n)
    (h : sslWriteLoop f len c n rs = some (ret, c')) :
    (ret < 0 ∨ (c'.sent.length : Int) ≤ sent.length + ret) ↔
      (rs.getLast? = some .timeout →
        min len.toNat (n + (rs.map SslWrite.size).sum) = 0) := by
  have hlen := len.toNat_lt
  induction rs generalizing n c with
  | nil =>
    simp only [sslWriteLoop] at h
    split at h
    · cases h
    · cases h
      simp only [List.getLast?_nil, reduceCtorEq, false_imp_iff, iff_true]
      by_cases hsmall : n < 2147483648
      · right
        rw [hsent, int32_of_lt hsmall]
        simp
      · exact .inl (int32_neg (by omega) (by omega))
  | cons r rs ih =>
    simp only [sslWriteLoop] at h
    split at h
    case isFalse hfull => cases h
    case isTrue hlt =>
      cases r with
      | room m pos =>
        have hsent' : (c.accept (bytesAt f n (min m (len.toNat - n)))).sent =
            sent ++ bytesAt f 0 (n + min m (len.toNat - n)) := by
          rw [bytesAt_add, Nat.zero_add, ← List.append_assoc, ← hsent]
          rfl
        have hsum : min len.toNat (n + (List.map SslWrite.size (.room m pos :: rs)).sum) =
            min len.toNat (n + min m (len.toNat - n) + (rs.map SslWrite.size).sum) := by
          rw [List.map_cons, List.sum_cons, SslWrite.size_room]
          omega
        refine (ih (by omega) hsent' h).trans ?_
        rw [hsum]
        cases rs with
        | nil => simp
        | cons r rs => rw [List.getLast?_cons_cons]
      | timeout =>
        obtain ⟨rfl, heq⟩ := returning_eq_some.mp h
        cases heq
        rw [hsent]
        simp [SslWrite.size]
        omega
      | want | fatal =>
        obtain ⟨rfl, heq⟩ := returning_eq_some.mp h
        cases heq
        simp

theorem sslWrite_contract_iff {f : Nat → UInt8} {rs : List SslWrite}
    (h : networkSslWrite c f len rs = some (ret, c')) :
    WriteContract c ret c' ↔ KeepsSslWrite len rs := by
  have := sslWriteLoop_contract_iff (Nat.zero_le _) (List.append_nil _).symm h
  rwa [Nat.zero_add] at this

end Transfer

/-! ## Runs -/

theorem call_netStatus {t : Transport} (call : Call) (h : t.netStatus ≤ 0) :
    (t.call call).netStatus ≤ 0 := by
  cases call with
  | tcpRead fd len timeoutMs rs =>
    simp only [Transport.call]
    split <;> exact h
  | tcpWrite fd buf len timeoutMs rs =>
    simp only [Transport.call]
    split <;> exact h
  | sslRead handle len rs =>
    simp only [Transport.call]
    split
    · rename_i heq
      exact sslReadLoop_netStatus h heq
    · exact h
  | sslWrite handle buf len rs =>
    simp only [Transport.call]
    split <;> exact h

theorem call_contract_iff {t : Transport} (call : Call) (h : t.netStatus ≤ 0) :
    call.Contract t ↔ call.Keeps t := by
  cases call with
  | tcpRead fd len timeoutMs rs =>
    simp only [Call.Contract, Call.Keeps]
    constructor
    · intro hcontract hreturns
      obtain ⟨⟨ret, buf, c⟩, heq⟩ := Option.isSome_iff_exists.mp hreturns
      exact (tcpRead_contract_iff heq).mp (hcontract ret buf c heq)
    · intro hkeeps ret buf c heq
      exact (tcpRead_contract_iff heq).mpr (hkeeps (by rw [heq]; rfl))
  | tcpWrite fd buf len timeoutMs rs =>
    simp only [Call.Contract, Call.Keeps, iff_true]
    exact fun ret c heq => tcpWrite_contract heq
  | sslRead handle len rs =>
    simp only [Call.Contract, Call.Keeps]
    constructor
    · intro hcontract hreturns
      obtain ⟨done, heq⟩ := Option.isSome_iff_exists.mp hreturns
      exact (sslRead_contract_iff h heq).mp (hcontract done heq)
    · intro hkeeps done heq
      exact (sslRead_contract_iff h heq).mpr (hkeeps (by rw [heq]; rfl))
  | sslWrite handle buf len rs =>
    simp only [Call.Contract, Call.Keeps]
    constructor
    · intro hcontract hreturns
      obtain ⟨⟨ret, c⟩, heq⟩ := Option.isSome_iff_exists.mp hreturns
      exact (sslWrite_contract_iff heq).mp (hcontract ret c heq)
    · intro hkeeps ret c heq
      exact (sslWrite_contract_iff heq).mpr (hkeeps (by rw [heq]; rfl))

/-- In a run over any number of connections every call keeps its contract if and only if every
call meets the condition. -/
theorem contract_iff_keeps (tcp tls : Nat → Conn) (calls : List Call) :
    Meets Transport.call (fun t call => call.Contract t) ⟨tcp, tls, 0⟩ calls ↔
      Meets Transport.call (fun t call => call.Keeps t) ⟨tcp, tls, 0⟩ calls :=
  meets_iff_of_invariant (I := fun t => t.netStatus ≤ 0)
    (fun _ call _ h => call_netStatus call h) (fun _ call h => call_contract_iff call h)
    (Int.le_refl 0)

def fresh : Conn where
  stream := fun _ => 0
  taken := 0
  sent := []
  down := false

def freshTransport : Transport := ⟨fun _ => fresh, fun _ => fresh, 0⟩

/-- The end of a TCP stream and of a TLS stream are read as 0; an error takes the bytes that came
before it; a timeout takes back the bytes written; and the end of one TLS connection is given for
another that has been asked for nothing. -/
theorem contract_fails :
    ¬ Call.Contract freshTransport (.tcpRead 0 4 100 [(.closed, 100)]) ∧
      ¬ Call.Contract freshTransport (.sslRead 0 4 [.eof]) ∧
      ¬ Call.Contract freshTransport (.sslRead 0 4 [.data 2 (by decide), .fatal]) ∧
      ¬ Call.Contract freshTransport (.sslWrite 0 (fun _ => 7) 4 [.room 2 (by decide), .timeout]) ∧
      ¬ Meets Transport.call (fun t call => call.Contract t) freshTransport
        [.sslRead 0 4 [.peerCloseNotify], .sslRead 1 0 []] := by
  refine ⟨fun h => ?_, fun h => ?_, fun h => ?_, fun h => ?_, fun h => ?_⟩
  · exact absurd ((h _ _ _ rfl).nothing rfl).2.2 (by decide)
  · exact absurd ((h _ rfl).nothing rfl).2.2 (by decide)
  · exact absurd ((h _ rfl).failure (by decide)).1 (by decide)
  · obtain hneg | hle := h _ _ rfl
    · exact absurd hneg (by decide)
    · exact absurd hle (by decide)
  · exact absurd ((h.2.1 _ rfl).failure (by decide)).2.2 (by decide)

end AliyunIot.Wrappers
