import Mathlib.Data.List.Basic

/-!
# Reads and writes of the transport

`HAL_TCP_Read`, `HAL_TCP_Write`, `_network_ssl_read` and `_network_ssl_write` over a connection.
The results of the socket calls, or of `mbedtls_ssl_read` and `mbedtls_ssl_write`, are the input of
a call: exactly those that the call asks for, so that a list it does not use up, or that is too
short for it to return, gives nothing. The status of the TLS reads is one for all connections.
-/

namespace AliyunIot.Wrappers

/-- A `uint32_t` returned as `int32_t`. -/
def int32 (n : Nat) : Int := if n < 2147483648 then n else (n : Int) - 4294967296

/-- A connection: the bytes of its peer and how many have been taken, the bytes it has accepted,
and whether the lower layer has reported that it is closed or has failed. -/
structure Conn where
  stream : Nat → UInt8
  taken : Nat
  sent : List UInt8
  down : Bool

def bytesAt (f : Nat → UInt8) (i n : Nat) : List UInt8 := (List.range n).map fun k => f (i + k)

namespace Conn

def take (c : Conn) (n : Nat) : Conn := { c with taken := c.taken + n }

def accept (c : Conn) (bytes : List UInt8) : Conn := { c with sent := c.sent ++ bytes }

def close (c : Conn) : Conn := { c with down := true }

end Conn

/-- The value of a call that has used its last result. -/
def returning {ρ α : Type} (rest : List ρ) (value : α) : Option α :=
  match rest with
  | [] => some value
  | _ :: _ => none

/-! ## TCP -/

/-- What `TCPSocket::recv` finds: bytes, of which it gives as many as it is asked for, the end of
the stream, which it gives as 0, `NSAPI_ERROR_WOULD_BLOCK` or another error. -/
inductive Recv where
  | data (n : Nat) (pos : 0 < n)
  | closed
  | wouldBlock
  | failed

/-- What `TCPSocket::send` finds: room for `n` bytes, or an error. -/
inductive Send where
  | room (n : Nat)
  | wouldBlock
  | failed

/-- The loop of `HAL_TCP_Read` from `len_xfer` on, which is the length of `buf`; each result comes
with the time since the call. -/
def tcpReadLoop (len timeoutMs : UInt32) :
    Conn → List UInt8 → List (Recv × UInt32) → Option (List UInt8 × Conn)
  | _, _, [] => none
  | c, buf, (r, elapsedMs) :: rs =>
    let more (c : Conn) (buf : List UInt8) :=
      if buf.length < len.toNat ∧ elapsedMs < timeoutMs then tcpReadLoop len timeoutMs c buf rs
      else returning rs (buf, c)
    match r with
    | .data n _ =>
      let rc := min n (len.toNat - buf.length)
      more (c.take rc) (buf ++ bytesAt c.stream c.taken rc)
    | .closed => more c.close buf
    | .wouldBlock => returning rs (buf, c)
    | .failed => returning rs (buf, c.close)

/-- `HAL_TCP_Read`: the value returned, what the buffer has got and the connection. -/
def halTcpRead (c : Conn) (len timeoutMs : UInt32) (rs : List (Recv × UInt32)) :
    Option (Int × List UInt8 × Conn) :=
  (tcpReadLoop len timeoutMs c [] rs).map fun (buf, c) => (int32 buf.length, buf, c)

/-- The loop of `HAL_TCP_Write` from `lenXfer` on. -/
def tcpWriteLoop (buf : Nat → UInt8) (len timeoutMs : UInt32) :
    Conn → Nat → List (Send × UInt32) → Option (Nat × Conn)
  | _, _, [] => none
  | c, lenXfer, (r, elapsedMs) :: rs =>
    match r with
    | .room n =>
      let rc := min n (len.toNat - lenXfer)
      let c := c.accept (bytesAt buf lenXfer rc)
      let lenXfer := lenXfer + rc
      if lenXfer < len.toNat ∧ elapsedMs < timeoutMs then
        tcpWriteLoop buf len timeoutMs c lenXfer rs
      else returning rs (lenXfer, c)
    | .wouldBlock => returning rs (lenXfer, c)
    | .failed => returning rs (lenXfer, c.close)

def halTcpWrite (c : Conn) (buf : Nat → UInt8) (len timeoutMs : UInt32)
    (rs : List (Send × UInt32)) : Option (Int × Conn) :=
  (tcpWriteLoop buf len timeoutMs c 0 rs).map fun (lenXfer, c) => (int32 lenXfer, c)

/-! ## TLS -/

/-- What `mbedtls_ssl_read` finds; the last two stand for the results without a branch of their
own: those that leave the connection as it is, such as `MBEDTLS_ERR_SSL_WANT_READ`, and the
others. -/
inductive SslRead where
  | data (n : Nat) (pos : 0 < n)
  /-- 0 -/
  | eof
  | peerCloseNotify
  | timeout
  | connEof
  | sessionTicketExpired
  | nonFatal
  | want
  | fatal

/-- What `mbedtls_ssl_write` finds. -/
inductive SslWrite where
  | room (n : Nat) (pos : 0 < n)
  /-- 0 -/
  | timeout
  | want
  | fatal

/-- What `_network_ssl_read` leaves. -/
structure SslReadDone where
  ret : Int
  netStatus : Int
  buf : List UInt8
  conn : Conn

/-- The loop of `_network_ssl_read` from `readLen` on, which is the length of `buf`. -/
def sslReadLoop (len : UInt32) : Int → Conn → List UInt8 → List SslRead → Option SslReadDone
  | netStatus, c, buf, [] =>
    if buf.length < len.toNat then none
    else some ⟨if 0 < buf.length then int32 buf.length else netStatus, netStatus, buf, c⟩
  | netStatus, c, buf, r :: rs =>
    if buf.length < len.toNat then
      match r with
      | .data n _ =>
        let ret := min n (len.toNat - buf.length)
        sslReadLoop len 0 (c.take ret) (buf ++ bytesAt c.stream c.taken ret) rs
      | .eof =>
        returning rs
          ⟨if netStatus = -2 then netStatus else int32 buf.length, netStatus, buf, c.close⟩
      | .peerCloseNotify =>
        returning rs ⟨if 0 < buf.length then int32 buf.length else -2, -2, buf, c.close⟩
      | .timeout => returning rs ⟨int32 buf.length, netStatus, buf, c⟩
      | .connEof => returning rs ⟨int32 buf.length, netStatus, buf, c.close⟩
      | .sessionTicketExpired => returning rs ⟨int32 buf.length, netStatus, buf, c⟩
      | .nonFatal => returning rs ⟨int32 buf.length, netStatus, buf, c⟩
      | .want => returning rs ⟨-1, -1, buf, c⟩
      | .fatal => returning rs ⟨-1, -1, buf, c.close⟩
    else none

def networkSslRead (netStatus : Int) (c : Conn) (len : UInt32) (rs : List SslRead) :
    Option SslReadDone :=
  sslReadLoop len netStatus c [] rs

def sslWriteLoop (buf : Nat → UInt8) (len : UInt32) :
    Conn → Nat → List SslWrite → Option (Int × Conn)
  | c, writtenLen, [] => if writtenLen < len.toNat then none else some (int32 writtenLen, c)
  | c, writtenLen, r :: rs =>
    if writtenLen < len.toNat then
      match r with
      | .room n _ =>
        let ret := min n (len.toNat - writtenLen)
        sslWriteLoop buf len (c.accept (bytesAt buf writtenLen ret)) (writtenLen + ret) rs
      | .timeout => returning rs (0, c)
      | .want => returning rs (-1, c)
      | .fatal => returning rs (-1, c.close)
    else none

def networkSslWrite (c : Conn) (buf : Nat → UInt8) (len : UInt32) (rs : List SslWrite) :
    Option (Int × Conn) :=
  sslWriteLoop buf len c 0 rs

/-! ## Calls on any number of connections -/

/-- The connections, TCP and TLS, by handle, and the static `net_status`. -/
structure Transport where
  tcp : Nat → Conn
  tls : Nat → Conn
  netStatus : Int

inductive Call where
  | tcpRead (fd : Nat) (len timeoutMs : UInt32) (rs : List (Recv × UInt32))
  | tcpWrite (fd : Nat) (buf : Nat → UInt8) (len timeoutMs : UInt32) (rs : List (Send × UInt32))
  | sslRead (handle : Nat) (len : UInt32) (rs : List SslRead)
  | sslWrite (handle : Nat) (buf : Nat → UInt8) (len : UInt32) (rs : List SslWrite)

namespace Transport

def setTcp (t : Transport) (fd : Nat) (c : Conn) : Transport :=
  { t with tcp := Function.update t.tcp fd c }

def setTls (t : Transport) (handle : Nat) (c : Conn) : Transport :=
  { t with tls := Function.update t.tls handle c }

/-- `utils_net_read` or `utils_net_write` on a connection. -/
def call (t : Transport) : Call → Transport
  | .tcpRead fd len timeoutMs rs =>
    match halTcpRead (t.tcp fd) len timeoutMs rs with
    | some (_, _, c) => t.setTcp fd c
    | none => t
  | .tcpWrite fd buf len timeoutMs rs =>
    match halTcpWrite (t.tcp fd) buf len timeoutMs rs with
    | some (_, c) => t.setTcp fd c
    | none => t
  | .sslRead handle len rs =>
    match networkSslRead t.netStatus (t.tls handle) len rs with
    | some done => { t.setTls handle done.conn with netStatus := done.netStatus }
    | none => t
  | .sslWrite handle buf len rs =>
    match networkSslWrite (t.tls handle) buf len rs with
    | some (_, c) => t.setTls handle c
    | none => t

end Transport

end AliyunIot.Wrappers
