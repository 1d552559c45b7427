/-
This file models one TCP connection of src/drivers/net.c: the slot of the
connection, the segments that it sends and takes in, and the calls of its owner.
All of it runs under `net_lock`. The bytes of a packet are a segment with its
header fields; whether the checksum of the pseudo header and the segment comes
to zero is a field of it.
-/

import Mathlib.Data.BitVec
import Mathlib.Data.List.Basic

namespace MectovOS.Net

/-! ### Segments -/

/-- `TCP_MAX_CONNS`, `TCP_CONN_BUF` and the size of `tcp_header_t`. -/
def tcpMaxConns : Nat := 16
def tcpConnBuf : Nat := 16384
def tcpHeaderSize : Nat := 20

/-- `TCP_RETRANS_MS`, `TCP_RETRANS_MAX` and `TCP_CONNECT_TIMEOUT_MS`. -/
def tcpRetransMs : BitVec 32 := 6000
def tcpRetransMax : Nat := 5
def tcpConnectTimeoutMs : BitVec 32 := 10000

/-- Sequence numbers, addresses of four bytes, ports, ticks and bytes. -/
abbrev Seq := BitVec 32
abbrev Ip := BitVec 32
abbrev Port := BitVec 16
abbrev Tick := BitVec 32
abbrev Bytes := List UInt8

/-- The flags of a segment that are looked at. -/
structure Flags where
  fin : Bool
  syn : Bool
  rst : Bool
  psh : Bool
  ack : Bool
  deriving DecidableEq

/-- `TCP_SYN`, `TCP_SYN | TCP_ACK`, `TCP_ACK`, `TCP_ACK | TCP_PSH` and `TCP_ACK | TCP_FIN`. -/
def Flags.synOnly : Flags := ⟨false, true, false, false, false⟩
def Flags.synAck : Flags := ⟨false, true, false, false, true⟩
def Flags.ackOnly : Flags := ⟨false, false, false, false, true⟩
def Flags.data : Flags := ⟨false, false, false, true, true⟩
def Flags.finAck : Flags := ⟨true, false, false, false, true⟩

/-- A segment that comes in. `rest` are the bytes behind the fixed header, options included, and
`dataOffset` is the length of the header in words. -/
structure Segment where
  srcIp : Ip
  srcPort : Port
  dstPort : Port
  seq : Seq
  ack : Seq
  flags : Flags
  dataOffset : BitVec 4
  rest : Bytes
  valid : Bool

/-- `tcp_len`, `header_len` and the payload. -/
def Segment.length (segment : Segment) : Nat := tcpHeaderSize + segment.rest.length
def Segment.headerLen (segment : Segment) : Nat := segment.dataOffset.toNat * 4
def Segment.payload (segment : Segment) : Bytes :=
  segment.rest.drop (segment.headerLen - tcpHeaderSize)

/-- A segment that goes out. -/
structure Sent where
  dstIp : Ip
  srcPort : Port
  dstPort : Port
  seq : Seq
  ack : Seq
  flags : Flags
  window : Nat
  payload : Bytes
  deriving DecidableEq

/-! ### The connection -/

/-- The states of a connection. -/
inductive TcpState where
  | closed
  | synSent
  | established
  | finWait1
  | finWait2
  | closeWait
  | lastAck
  | listen
  | synRcvd
  deriving DecidableEq

/-- `tcp_conn_t`; `rx` are the first `rx_len` bytes of the receive buffer, `txPending` the first
`tx_pending_len` bytes of the segment that is not acknowledged, and a parent of -1 is `none`. -/
structure TcpConn where
  inUse : Bool
  state : TcpState
  remoteIp : Ip
  remotePort : Port
  localPort : Port
  seq : Seq
  ack : Seq
  rx : Bytes
  eof : Bool
  lastTxTick : Tick
  unackedSeq : Seq
  unackedLen : Nat
  txPending : Bytes
  retransCount : Nat
  connStartTick : Tick
  listenParent : Option Nat
  accepted : Bool
  deriving DecidableEq

/-- `memset(c, 0, sizeof(tcp_conn_t))`. -/
def TcpConn.zero : TcpConn :=
  ⟨false, .closed, 0, 0, 0, 0, 0, [], false, 0, 0, 0, [], 0, 0, some 0, false⟩

/-- The slot is given back. -/
def TcpConn.freed (conn : TcpConn) : TcpConn := { conn with state := .closed, inUse := false }

/-- What surrounds a step: whether the gateway is resolved, the tick, the next random number and
the address of the gateway. -/
structure Env where
  netReady : Bool
  now : Tick
  random : BitVec 32
  gatewayIp : Ip

/-- What a step leaves of the connection, and the segments it sends. -/
abbrev Step := TcpConn × List Sent

/-- `net_send_tcp_segment`: only what takes sequence numbers stamps the retransmit timer. -/
def sendSegment (env : Env) (conn : TcpConn) (flags : Flags) (payload : Bytes) : Step :=
  if env.netReady = false then (conn, [])
  else
    ({ conn with
        lastTxTick := if payload ≠ [] ∨ flags.syn = true ∨ flags.fin = true then env.now
          else conn.lastTxTick },
      [{ dstIp := conn.remoteIp
         srcPort := conn.localPort
         dstPort := conn.remotePort
         seq := conn.seq
         ack := conn.ack
         flags := flags
         window := min (tcpConnBuf - conn.rx.length) 65535
         payload := payload }])

/-! ### The calls of the owner -/

/-- The sequence number of a connection that starts. -/
def initialSeq (env : Env) (localPort : Port) : Seq :=
  if env.random = 0 then env.now * 12345 + localPort.setWidth 32 else env.random

/-- The slot as `tcp_start_conn` fills it in; port 80 goes to the proxy on the gateway. -/
def connStarted (env : Env) (conn : TcpConn) (targetIp : Ip) (port : Port) : TcpConn :=
  { conn with
    remoteIp := if port = 80 then env.gatewayIp else targetIp
    remotePort := if port = 80 then 8888 else port
    seq := initialSeq env conn.localPort
    ack := 0
    rx := []
    eof := false
    unackedLen := 0
    retransCount := 0
    connStartTick := env.now
    state := .synSent }

/-- `tcp_start_conn`. -/
def startConn (env : Env) (conn : TcpConn) (targetIp : Ip) (port : Port) : Step :=
  let sent := sendSegment env (connStarted env conn targetIp port) .synOnly []
  ({ sent.1 with seq := sent.1.seq + 1 }, sent.2)

/-- The bytes of a call that go out at once. -/
def sendLimit : Nat := 1400

/-- `net_tcp_send` on a slot in use: the number of bytes that it takes, or a code. -/
def tcpSend (env : Env) (conn : TcpConn) (payload : Bytes) : Int × Step :=
  if conn.state ≠ .established then (-1, conn, [])
  else if 0 < conn.unackedLen then (0, conn, [])
  else
    let bytes := payload.take sendLimit
    let recorded := { conn with
      unackedSeq := conn.seq
      unackedLen := bytes.length
      retransCount := 0
      txPending := if bytes = [] then conn.txPending else bytes }
    let sent := sendSegment env recorded .data bytes
    (bytes.length, { sent.1 with seq := sent.1.seq + BitVec.ofNat 32 bytes.length }, sent.2)

/-- What `net_tcp_recv` gives back: bytes, or a code. -/
inductive Received where
  | bytes (bytes : Bytes)
  | code (code : Int)
  deriving DecidableEq

/-- The room below which the peer waits for an update of the window. -/
def windowTight : Nat := 1460

/-- `net_tcp_recv` on a slot in use. -/
def tcpRecv (env : Env) (conn : TcpConn) (maxLen : Nat) : Received × Step :=
  if conn.state = .closed then (.code (-1), conn, [])
  else if conn.rx = [] then (.code (if conn.eof then -1 else 0), conn, [])
  else
    let drained := { conn with rx := conn.rx.drop maxLen }
    if tcpConnBuf - conn.rx.length < windowTight ∧
        windowTight ≤ tcpConnBuf - drained.rx.length ∧
        (conn.state = .established ∨ conn.state = .closeWait) then
      (.bytes (conn.rx.take maxLen), sendSegment env drained .ackOnly [])
    else (.bytes (conn.rx.take maxLen), drained, [])

/-- `net_tcp_close` on a slot in use. -/
def tcpClose (env : Env) (conn : TcpConn) : Step :=
  if conn.state = .established then
    let sent := sendSegment env conn .finAck []
    ({ sent.1 with seq := sent.1.seq + 1, state := .finWait1 }, sent.2)
  else if conn.state = .closeWait then
    let sent := sendSegment env conn .finAck []
    ({ sent.1 with seq := sent.1.seq + 1, state := .lastAck }, sent.2)
  else (conn.freed, [])

/-- The sweep of `net_poll` over a slot in use: an attempt that takes too long is given up, and a
segment that is not acknowledged is sent again. -/
def tcpSweep (env : Env) (conn : TcpConn) : Step :=
  if conn.state = .synSent then
    if tcpConnectTimeoutMs ≤ env.now - conn.connStartTick then (conn.freed, []) else (conn, [])
  else if 0 < conn.unackedLen ∧ conn.retransCount < tcpRetransMax ∧
      tcpRetransMs ≤ env.now - conn.lastTxTick then
    let sent := sendSegment env
      { conn with retransCount := conn.retransCount + 1, seq := conn.unackedSeq } .data
      conn.txPending
    ({ sent.1 with seq := conn.seq }, sent.2)
  else (conn, [])

/-! ### Incoming segments -/

/-- A segment for a connection that has sent its SYN. -/
def synSentInput (env : Env) (conn : TcpConn) (segment : Segment) : Step :=
  if segment.flags.syn = true ∧ segment.flags.ack = true ∧
      (segment.ack = conn.seq ∨ segment.ack = conn.seq + 1) then
    sendSegment env
      { conn with
        seq := if segment.ack = conn.seq + 1 then segment.ack else conn.seq
        ack := segment.seq + 1
        state := .established
        retransCount := 0 } .ackOnly []
  else (conn, [])

/-- A segment for a connection that has answered a SYN. -/
def synRcvdInput (env : Env) (conn : TcpConn) (segment : Segment) : Step :=
  if segment.flags.ack = true ∧ segment.flags.syn = false ∧ segment.ack = conn.seq then
    ({ conn with state := .established, retransCount := 0 }, [])
  else if segment.flags.syn = true then
    let sent := sendSegment env conn .synAck []
    ({ sent.1 with seq := segment.seq + 1 }, sent.2)
  else (conn, [])

/-- An acknowledgment of the data that was sent clears the retransmit state. -/
def clearUnacked (conn : TcpConn) (segment : Segment) : TcpConn :=
  if segment.flags.ack = true ∧ 0 < conn.unackedLen ∧
      conn.unackedSeq + BitVec.ofNat 32 conn.unackedLen ≤ segment.ack then
    { conn with unackedLen := 0, txPending := [], retransCount := 0 }
  else conn

/-- Data that is next in order and fits is stored. -/
def appendData (env : Env) (conn : TcpConn) (segment : Segment) : Step :=
  if segment.payload ≠ [] ∧ (conn.state = .established ∨ conn.state = .closeWait) then
    if segment.seq = conn.ack ∧ conn.rx.length + segment.payload.length ≤ tcpConnBuf then
      sendSegment env
        { conn with
          rx := conn.rx ++ segment.payload
          ack := segment.seq + BitVec.ofNat 32 segment.payload.length } .ackOnly []
    else sendSegment env conn .ackOnly []
  else (conn, [])

/-- The number behind the FIN of a segment. -/
def finNumber (segment : Segment) : Seq :=
  segment.seq + BitVec.ofNat 32 segment.payload.length + 1

/-- The FIN of the peer. -/
def peerFin (env : Env) (conn : TcpConn) (segment : Segment) : Step :=
  if segment.flags.fin = false then (conn, [])
  else if conn.state = .established ∨ conn.state = .closeWait then
    sendSegment env
      { conn with state := .closeWait, ack := finNumber segment, eof := true } .ackOnly []
  else if conn.state = .finWait2 then
    let sent := sendSegment env { conn with ack := finNumber segment } .ackOnly []
    (sent.1.freed, sent.2)
  else (conn, [])

/-- The FIN of this side is acknowledged, and then the FIN of the peer is looked at. -/
def closeInput (env : Env) (conn : TcpConn) (segment : Segment) : Step :=
  if conn.state = .finWait1 ∧ segment.flags.ack = true ∧ conn.seq ≤ segment.ack then
    if segment.flags.fin then (conn.freed, [])
    else peerFin env { conn with state := .finWait2 } segment
  else if conn.state = .lastAck ∧ segment.flags.ack = true ∧ conn.seq ≤ segment.ack then
    (conn.freed, [])
  else peerFin env conn segment

/-- A segment for a connection whose handshake is done. -/
def dataInput (env : Env) (conn : TcpConn) (segment : Segment) : Step :=
  if segment.headerLen < tcpHeaderSize ∨ segment.length < segment.headerLen then (conn, [])
  else
    let stored := appendData env (clearUnacked conn segment) segment
    let closed := closeInput env stored.1 segment
    (closed.1, stored.2 ++ closed.2)

/-- The most that fits behind the pseudo header in the buffer of the checksum. -/
def tcpLenMax : Nat := 1488

/-- `net_handle_tcp` once the segment is matched to its connection. -/
def tcpInput (env : Env) (conn : TcpConn) (segment : Segment) : Step :=
  if tcpLenMax < segment.length then (conn, [])
  else if segment.valid = false then (conn, [])
  else if segment.flags.rst then (conn.freed, [])
  else if conn.state = .synSent then synSentInput env conn segment
  else if conn.state = .synRcvd then synRcvdInput env conn segment
  else dataInput env conn segment

/-! ### The life of a connection -/

/-- What can happen to a connection. -/
inductive ConnEvent where
  | send (payload : Bytes)
  | recv (maxLen : Nat)
  | close
  | sweep
  | segment (segment : Segment)

/-- The connection behind an event, and what it sends. -/
def TcpConn.on (env : Env) (conn : TcpConn) : ConnEvent → Step
  | .send payload => (tcpSend env conn payload).2
  | .recv maxLen => (tcpRecv env conn maxLen).2
  | .close => tcpClose env conn
  | .sweep => tcpSweep env conn
  | .segment segment => tcpInput env conn segment

end MectovOS.Net
