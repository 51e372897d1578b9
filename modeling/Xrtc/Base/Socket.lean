/-
# Socket calls

The results the kernel can give to one `read` or `write` call on a non-blocking
socket, and the wrappers that turn them into the return codes the callers see.
An end of file is reported as an error; a call that would block is reported as
zero bytes.

`generic_accept` calls `accept` once, in front of a loop that looks at the result
until it is one it can return. A result that asks for another try never changes,
and an error closes the listening socket.
-/

import Xrtc.Machine.Word

namespace Xrtc.Base

open Xrtc.Machine

/-- What the kernel answers to one `read` call. -/
inductive ReadResult
  | data (bytes : List UInt8)
  | wouldBlock
  | endOfFile
  | failed
  deriving DecidableEq

/-- What the kernel answers to one `write` call. -/
inductive WriteResult
  | accepted (count : ℕ)
  | wouldBlock
  | failed
  deriving DecidableEq

/-- The bytes that one `read` call stores. -/
def ReadResult.bytes : ReadResult → List UInt8
  | .data bytes => bytes
  | .wouldBlock | .endOfFile | .failed => []

/-- The number of bytes that one `write` call takes. -/
def WriteResult.count : WriteResult → ℕ
  | .accepted count => count
  | .wouldBlock | .failed => 0

/-- The return code of `sock_read_data`. -/
def sockReadData : ReadResult → ℤ
  | .data bytes => toInt32 bytes.length
  | .wouldBlock => 0
  | .endOfFile => -1
  | .failed => -1

/-- The return code of `sock_write_data`. -/
def sockWriteData : WriteResult → ℤ
  | .accepted count => toInt32 count
  | .wouldBlock => 0
  | .failed => -1

/-- What the kernel answers to one `accept` call: a descriptor, `EAGAIN` or
`EWOULDBLOCK`, or another error number. -/
inductive AcceptResult
  | accepted (cfd : ℕ)
  | wouldBlock
  | failed (errno : ℕ)
  deriving DecidableEq

/-- What `generic_accept` returns, and whether it has closed its socket. -/
structure AcceptReturn where
  cfd : ℤ
  closed : Bool
  deriving DecidableEq

/-- The loop of `generic_accept`, or nothing where it goes on after `fuel` rounds. -/
def acceptLoop (result : AcceptResult) : ℕ → Option AcceptReturn
  | 0 => none
  | fuel + 1 =>
      match result with
      | .accepted cfd => some ⟨cfd, false⟩
      | .wouldBlock => acceptLoop result fuel
      | .failed _ => some ⟨-1, true⟩

/-- `generic_accept`, with the answer to its only call of `accept`. -/
def genericAccept (fuel : ℕ) (answer : AcceptResult) : Option AcceptReturn := acceptLoop answer fuel

/-- `tcp_accept` passes the result on. The address of the peer is for the log. -/
def tcpAccept (fuel : ℕ) (answer : AcceptResult) : Option AcceptReturn := genericAccept fuel answer

/-- The answer that asks for another try is looked at for ever. -/
theorem genericAccept_wouldBlock (fuel : ℕ) : genericAccept fuel .wouldBlock = none := by
  induction fuel with
  | zero => rfl
  | succ fuel ih => exact ih

/-- Every other error closes the listening socket. -/
theorem genericAccept_failed (fuel errno : ℕ) :
    genericAccept (fuel + 1) (.failed errno) = some ⟨-1, true⟩ := rfl

end Xrtc.Base
