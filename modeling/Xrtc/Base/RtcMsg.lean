/-
# Messages between the threads

`RtcMsg` travels from a signaling worker through the RTC server to an RTC
worker and back. It names the connection it belongs to by an address and a
descriptor number, and its signaling worker by an index. Strings are byte
strings.
-/

import Mathlib.Data.Int.Notation
import Mathlib.Data.Nat.Notation

namespace Xrtc.Base

def CMDNO_PUSH : ℤ := 1

/-- A heap address, as a raw pointer holds it. -/
abbrev Addr := ℕ

structure RtcMsg where
  cmdno : ℤ
  streamName : List UInt8
  audio : ℤ
  video : ℤ
  uid : ℕ
  certificate : Option Addr := none
  logId : ℤ
  worker : Option ℕ := none
  conn : Option Addr := none
  fd : ℤ := -1
  sdp : List UInt8 := []
  errNo : ℤ := 0
  deriving DecidableEq

end Xrtc.Base
