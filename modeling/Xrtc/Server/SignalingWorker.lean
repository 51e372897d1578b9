/-
# The callbacks of a signaling worker

A worker owns a table that maps descriptor numbers to connections. The table
holds raw pointers, so the model keeps the heap beside it: an address that is
not in the heap belongs to a destroyed connection, and dereferencing it is a
fault. The kernel's answers, the clock, the allocator's choice of an address
and the JSON writer are arguments. A callback either returns the next worker or
says in which way the thread does not return from it.
-/

import Xrtc.Base.RtcMsg
import Xrtc.Server.Session
import Xrtc.Server.Writing

namespace Xrtc.Server

open Xrtc.Machine Xrtc.Base

/-- The ways in which a callback does not return. -/
inductive Fault
  /-- The process was aborted, by the allocator or by `vector::resize`. -/
  | aborted
  /-- Memory outside a block, or never written, was accessed. -/
  | overrun
  /-- A loop did not end within the given bound. -/
  | looping
  /-- A destroyed connection was dereferenced. -/
  | wildPointer
  /-- The connection table was indexed outside its range. -/
  | outOfRange
  deriving DecidableEq

structure SignalingWorker where
  conns : List (Option Addr) := []
  heap : Addr → Option TcpConnection := fun _ => none
  connectionTimeoutMs : ℤ := 0

/-- The members of the JSON reply. -/
structure ResRoot where
  errNo : ℤ
  errMsg : String
  offer : List UInt8
  deriving DecidableEq

namespace SignalingWorker

/-- `_conns[fd]`, with a null pointer for an entry outside the table. -/
def connAt (w : SignalingWorker) (fd : ℤ) : Option Addr := (w.conns[fd.toNat]?).join

def deref (w : SignalingWorker) (addr : Addr) : Except Fault TcpConnection :=
  (w.heap addr).elim (.error .wildPointer) .ok

def store (w : SignalingWorker) (addr : Addr) (c : TcpConnection) : SignalingWorker :=
  { w with heap := Function.update w.heap addr (some c) }

/-- `_remove_conn` on the connection `c` at `addr`: clear its entry and destroy it. -/
def removeConn (w : SignalingWorker) (addr : Addr) (c : TcpConnection) :
    Except Fault SignalingWorker :=
  if 0 ≤ c.fd ∧ c.fd.toNat < w.conns.length then
    .ok { w with
      conns := w.conns.set c.fd.toNat none
      heap := Function.update w.heap addr none }
  else
    .error .outOfRange

/-- `_close_conn`. The descriptor itself belongs to the process, not the worker. -/
def closeConn (w : SignalingWorker) (addr : Addr) : Except Fault SignalingWorker := do
  let c ← w.deref addr
  w.removeConn addr c

/-- The bound of `vector::resize` for pointers. -/
def MAX_TABLE_SIZE : ℕ := 2 ^ 60 - 1

/-- The table after `_conns.resize(fd * 2, nullptr)`, where it is too short. -/
def grownTable (conns : List (Option Addr)) (fd : ℤ) : Except Fault (List (Option Addr)) :=
  if toSize fd ≥ conns.length then
    let size := toSize (toInt32 (fd * 2))
    if size > MAX_TABLE_SIZE then
      .error .aborted
    else
      .ok (conns.take size ++ List.replicate (size - conns.length) none)
  else
    .ok conns

/-- The connection that `_new_conn` installs. -/
def fresh (fd : ℤ) (now : ℕ) : TcpConnection :=
  { fd := fd
    ioWatcher := startIoEvent createIoEvent fd .READ
    lastActiveTime := now }

/-- `_new_conn`. `setup` says whether the socket options could be set, `peer`
whether the peer address could be read; `addr` is where the allocator puts the
connection. A connection whose peer is unknown is never destroyed. -/
def newConn (w : SignalingWorker) (fd : ℤ) (setup peer : Bool) (addr : Addr) (now : ℕ) :
    Except Fault SignalingWorker :=
  if fd < 0 then
    .ok w
  else if !setup then
    .ok w
  else if !peer then
    .ok (w.store addr { fd := fd })
  else do
    let conns ← grownTable w.conns fd
    if fd.toNat < conns.length then
      .ok ({ w with conns := conns.set fd.toNat (some addr) }.store addr (fresh fd now))
    else
      .error .outOfRange

/-- The fields that `_process_push` takes from the parsed body. -/
structure PushRequest where
  uid : ℕ
  streamName : List UInt8
  audio : ℤ
  video : ℤ
  deriving DecidableEq

/-- The message that `_process_push` sends for the connection at `addr`. -/
def processPush (worker : ℕ) (addr : Addr) (fd : ℤ) (root : PushRequest) (logId : UInt32) :
    RtcMsg where
  cmdno := CMDNO_PUSH
  streamName := root.streamName
  audio := root.audio
  video := root.video
  uid := root.uid
  logId := toInt32 logId.toNat
  worker := some worker
  conn := some addr
  fd := fd

/-- What an activation of `TcpConnection.readConn` makes of the worker. -/
def afterRead (w : SignalingWorker) (addr : Addr) :
    TcpConnection.ReadOutcome → Except Fault (SignalingWorker × List RequestCall)
  | .kept c calls => .ok (w.store addr c, calls)
  | .closed calls => (w.closeConn addr).map fun w => (w, calls)
  | .aborted => .error .aborted
  | .overrun => .error .overrun
  | .looping => .error .looping

/-- `_read_conn`, with the requests it makes. -/
def readConn (w : SignalingWorker) (fuel : ℕ) (fd : ℤ) (e : ReadEvent) :
    Except Fault (SignalingWorker × List RequestCall) :=
  if fd < 0 ∨ fd ≥ toInt32 w.conns.length then
    .ok (w, [])
  else
    match w.connAt fd with
    | none => .ok (w, [])
    | some addr => do
        let c ← w.deref addr
        w.afterRead addr (c.readConn e.ret fuel e.now e.result)

/-- `_write_conn`, with the bytes the socket accepts. `results` are the answers
of the kernel; where they do not bring the loop to its end it is still running. -/
def writeConn (w : SignalingWorker) (fd : ℤ) (now : ℕ) (results : List WriteResult) :
    Except Fault (SignalingWorker × List UInt8) :=
  if fd ≤ 0 ∨ toSize fd ≥ w.conns.length then
    .ok (w, [])
  else
    match w.connAt fd with
    | none => .ok (w, [])
    | some addr => do
        let c ← w.deref addr
        let s := WriteState.writeLoop { replyMsgs := c.replyMsgs } results
        if s.failed then
          (w.closeConn addr).map fun w => (w, s.sent)
        else if s.replyMsgs ≠ [] then
          .error .looping
        else
          let c :=
            { c with
              replyMsgs := []
              lastActiveTime := now
              ioWatcher := stopIoEvent c.ioWatcher c.fd .WRITE }
          .ok (w.store addr c, s.sent)

/-- `_process_timeout`, in the unsigned arithmetic of the source. -/
def processTimeout (w : SignalingWorker) (addr : Addr) (now : ℕ) :
    Except Fault SignalingWorker := do
  let c ← w.deref addr
  if toSize ((now : ℤ) - c.lastActiveTime) ≥ (w.connectionTimeoutMs % 2 ^ 32).toNat then
    w.removeConn addr c
  else
    .ok w

/-- The JSON members of a reply. -/
def resRoot (msg : RtcMsg) : ResRoot :=
  if msg.errNo ≠ 0 then
    { errNo := msg.errNo, errMsg := "process sdp error", offer := [] }
  else
    { errNo := msg.errNo, errMsg := "process sdp success", offer := msg.sdp }

/-- `_add_reply`. -/
def addReply (c : TcpConnection) (resMsg : ReplyMsg) : TcpConnection :=
  { c with
    replyMsgs := c.replyMsgs ++ [resMsg]
    ioWatcher := startIoEvent c.ioWatcher c.fd .WRITE }

/-- The reply frame: the header of the request with a new body length, and the
body. There is none where the body exceeds the buffer, or where the header was
never received. -/
def replyFrame (c : TcpConnection) (resBody : List UInt8) : Except Fault ReplyMsg :=
  if h : resBody.length ≤ MAX_RES_BUF ∧ XHEAD_SIZE ≤ c.querybuf.buf.length then
    .ok
      { bytes :=
          putAt (c.querybuf.buf.take XHEAD_SIZE) XHead.bodyLenOffset
            (littleEndian 4 resBody.length) ++ resBody
        size_le := by
          have hoffset : XHead.bodyLenOffset + 4 ≤ XHEAD_SIZE := by decide
          rw [List.length_append, length_putAt]
          · rw [List.length_take_of_le h.2]
            exact Nat.add_le_add_left h.1 _
          · rw [length_littleEndian, List.length_take_of_le h.2]
            exact hoffset }
  else
    .error .overrun

/-- `_response_server_offer`. `writeString` is the JSON writer. The answer says
at which address the reply was queued, if it was. -/
def responseServerOffer (writeString : ResRoot → List UInt8) (w : SignalingWorker) (msg : RtcMsg) :
    Except Fault (SignalingWorker × Option Addr) :=
  match msg.conn with
  | none => .ok (w, none)
  | some addr =>
      if msg.fd ≤ 0 ∨ toSize msg.fd ≥ w.conns.length then
        .ok (w, none)
      else if w.connAt msg.fd ≠ some addr then
        .ok (w, none)
      else do
        let c ← w.deref addr
        let resMsg ← replyFrame c (writeString (resRoot msg))
        .ok (w.store addr (addReply c resMsg), some addr)

end SignalingWorker

end Xrtc.Server
