/-
# One signaling connection

A connection collects the bytes of a frame in `querybuf`. `bytesExpected` is
both the number of bytes the next `read` asks for and one half of the threshold
at which the frame parser acts; `bytesProcessed` is the other half, and after a
request has been handed on it is set to the sentinel 65535.

`processQueryBuffer` is a `while` loop that need not end, so it takes a bound
on its iterations and answers `none` when the bound is used up. `ret` supplies
the results of the successive calls of `_process_request` it makes.
-/

import Xrtc.Base.EventLoop
import Xrtc.Base.Sds
import Xrtc.Base.Socket
import Xrtc.Base.XHead

namespace Xrtc.Server

open Xrtc.Machine Xrtc.Base

def MAX_RES_BUF : ℕ := 4096

/-- The value `bytes_processed` is given once a request has been handed on. -/
def PROCESSED_SENTINEL : ℕ := 65535

/-- A queued reply: a slice of a buffer of `XHEAD_SIZE + MAX_RES_BUF` bytes. -/
structure ReplyMsg where
  bytes : List UInt8
  size_le : bytes.length ≤ XHEAD_SIZE + MAX_RES_BUF
  deriving DecidableEq

inductive ConnState
  | stateHead
  | stateBody
  deriving DecidableEq

structure TcpConnection where
  fd : ℤ
  ioWatcher : IOWatcher := createIoEvent
  querybuf : Sds := sdsempty
  bytesExpected : ℕ := XHEAD_SIZE
  bytesProcessed : ℕ := 0
  currentState : ConnState := .stateHead
  lastActiveTime : ℕ := 0
  replyMsgs : List ReplyMsg := []
  deriving DecidableEq

/-- One call of `_process_request`: the header and body slices it is given. -/
structure RequestCall where
  header : List UInt8
  body : List UInt8
  deriving DecidableEq

namespace TcpConnection

/-- The condition of the `while` loop, in `size_t` arithmetic. -/
def hasEnough (c : TcpConnection) : Bool :=
  decide (sdslen c.querybuf ≥ toSize (c.bytesExpected + c.bytesProcessed))

/-- The header laid over the start of the receive buffer. -/
def head (c : TcpConnection) : XHead := XHead.ofBuffer c.querybuf.buf

/-- The assignments after a header with the right magic number. -/
def enterBody (c : TcpConnection) : TcpConnection :=
  { c with
    currentState := .stateBody
    bytesProcessed := XHEAD_SIZE
    bytesExpected := c.head.bodyLen.toNat }

/-- The assignment after a request that was accepted. -/
def markProcessed (c : TcpConnection) : TcpConnection :=
  { c with bytesProcessed := PROCESSED_SENTINEL }

/-- The slices that the loop passes to `_process_request`. -/
def requestCall (c : TcpConnection) : RequestCall where
  header := c.querybuf.buf.take XHEAD_SIZE
  body := fieldAt c.querybuf.buf XHEAD_SIZE c.head.bodyLen.toNat

/-- `_process_query_buffer`: its return code, the connection it leaves behind
and the requests it made, after the `calls` made already. -/
def processQueryBuffer (ret : ℕ → ℤ) :
    ℕ → TcpConnection → List RequestCall → Option (ℤ × TcpConnection × List RequestCall)
  | 0, _, _ => none
  | fuel + 1, c, calls =>
      if c.hasEnough then
        match c.currentState with
        | .stateHead =>
            if XHEAD_MAGIC_NUM ≠ c.head.magicNum then
              some (-1, c, calls)
            else
              processQueryBuffer ret fuel c.enterBody calls
        | .stateBody =>
            if ret calls.length ≠ 0 then
              some (-1, c, calls ++ [c.requestCall])
            else
              processQueryBuffer ret fuel c.markProcessed (calls ++ [c.requestCall])
      else
        some (0, c, calls)

/-- How one activation of `_read_conn` ends. -/
inductive ReadOutcome
  /-- It returns and the connection stays open. -/
  | kept (c : TcpConnection) (calls : List RequestCall)
  /-- It returns after `_close_conn`. -/
  | closed (calls : List RequestCall)
  /-- `zrealloc` ran out of memory and aborted the process. -/
  | aborted
  /-- The bytes went, or were about to go, outside the receive buffer. -/
  | overrun
  /-- The `while` loop did not end within the given number of iterations. -/
  | looping
  deriving DecidableEq

/-- `_read_conn` behind the call of `_process_query_buffer`. -/
def ReadOutcome.ofLoop : Option (ℤ × TcpConnection × List RequestCall) → ReadOutcome
  | none => .looping
  | some (code, c, calls) => if code ≠ 0 then .closed calls else .kept c calls

/-- The number of bytes `_read_conn` asks `read` for: `bytes_expected` as an
`int`, then as the `size_t` of the system call. -/
def readCount (c : TcpConnection) : ℕ := toSize (toInt32 c.bytesExpected)

/-- The receive buffer `_read_conn` hands to `read`, or `none` where the
allocator aborts. -/
def roomForRead (c : TcpConnection) : Option Sds := sdsMakeRoomFor c.querybuf c.readCount

/-- `_read_conn` from the `read` call on, which stores its bytes in `querybuf`. -/
def readInto (ret : ℕ → ℤ) (fuel now : ℕ) (c : TcpConnection) (r : ReadResult)
    (querybuf : Sds) : ReadOutcome :=
  let qbLen := toInt32 (sdslen c.querybuf)
  if qbLen < 0 ∨ qbLen + r.bytes.length > querybuf.alloc then
    .overrun
  else
    let nread := sockReadData r
    let querybuf := { querybuf with buf := querybuf.buf.take qbLen.toNat ++ r.bytes }
    let c := { c with querybuf := querybuf, lastActiveTime := now }
    if nread = -1 then
      .closed []
    else
      let c := if nread > 0 then { c with querybuf := sdsIncrLen c.querybuf nread } else c
      .ofLoop (processQueryBuffer ret fuel c [])

/-- `_read_conn` from the table lookup on. `r` is the answer of the kernel to
its `read` call and `now` the clock reading behind it. -/
def readConn (ret : ℕ → ℤ) (fuel now : ℕ) (c : TcpConnection) (r : ReadResult) : ReadOutcome :=
  c.roomForRead.elim .aborted (c.readInto ret fuel now r)

end TcpConnection

end Xrtc.Server
