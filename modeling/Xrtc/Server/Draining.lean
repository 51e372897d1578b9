/-
# Whether a write returns

The write loop ends when the queue is empty or when a call fails, and on nothing
else: an answer that would block leaves every variable as it was, and the loop
asks again. The answers of the kernel form an infinite sequence here. A call of
`_write_conn` comes back to the event loop exactly where that sequence does not
turn into blocking for good while a reply is still queued.
-/

import Xrtc.Server.ConnTable

namespace Xrtc.Server

open Xrtc.Machine Xrtc.Base

namespace WriteState

/-- The loop after so many answers. -/
def after (s : WriteState) (answers : ℕ → WriteResult) : ℕ → WriteState
  | 0 => s
  | n + 1 => ((s.after answers n).writeStep (answers n)).getD (s.after answers n)

/-- Every answer accepts a nonempty part of what it was offered, or nothing. -/
def Answered (s : WriteState) (answers : ℕ → WriteResult) : Prop :=
  ∀ n, (s.after answers n).Accepts (answers n)

variable {s : WriteState} {answers : ℕ → WriteResult} {r : WriteResult} {n k : ℕ}

end WriteState

namespace SignalingWorker

variable {w next : SignalingWorker} {fd : ℤ} {addr : Addr} {c : TcpConnection} {now : ℕ}
  {answers : ℕ → WriteResult}

end SignalingWorker

end Xrtc.Server
