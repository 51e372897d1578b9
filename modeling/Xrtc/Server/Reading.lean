/-
# One activation of `_read_conn`

`Waiting` is how every activation that returns leaves a connection behind: the
loop invariant holds and the loop has nothing left to do. The results here say
which buffer the next `read` is given, what each answer of the kernel makes of a
waiting connection, and that a connection which is kept is waiting again.
-/

import Xrtc.Server.Framing

namespace Xrtc.Server.TcpConnection

open Xrtc.Machine Xrtc.Base

variable {c next : TcpConnection} {ret : ℕ → ℤ} {fuel now : ℕ} {calls made : List RequestCall}

/-! ## A waiting connection and its next read -/

/-- What every activation that returns leaves behind: the loop invariant, a
false loop condition, and a block whose free space `int` arithmetic describes
as long as the body length has not been converted to a negative `int`. -/
structure Waiting (c : TcpConnection) : Prop where
  shape : c.Shape
  quiet : c.hasEnough = false
  room_lt : c.querybuf.room < 2 ^ 31 ∨ c.currentState = .stateBody ∧ c.bytesExpected < 2 ^ 31

theorem Waiting.len_lt (h : c.Waiting) : c.querybuf.buf.length < 2 ^ 31 :=
  (h.shape.hasEnough_eq_false_iff.mp h.quiet).2

/-- The block that `read` is given is sound and holds the bytes of before. It
has the room that was asked for, or the request had become negative. -/
structure Grown (c : TcpConnection) (grown : Sds) : Prop where
  wf : grown.Wf
  buf_eq : grown.buf = c.querybuf.buf
  room : c.bytesExpected < 2 ^ 31 ∧ c.readCount ≤ grown.room ∨
    2 ^ 31 ≤ c.bytesExpected ∧ grown.room < c.readCount
  room_lt : grown.room < 2 ^ 31 ∨ c.currentState = .stateBody ∧ c.bytesExpected < 2 ^ 31

theorem readCount_of_lt (hsmall : c.bytesExpected < 2 ^ 31) : c.readCount = c.bytesExpected := by
  rw [readCount, toInt32_of_range (by omega) (by omega)]
  unfold toSize
  omega

theorem readCount_of_ge (hlarge : 2 ^ 31 ≤ c.bytesExpected) (hlt : c.bytesExpected < 2 ^ 32) :
    c.readCount = 2 ^ 64 - (2 ^ 32 - c.bytesExpected) := by
  rw [readCount, toInt32_of_high (by omega) (by omega)]
  unfold toSize
  omega

/-- A body length below `2 ^ 31` is asked for as it is, and fits. -/
theorem Waiting.roomForRead_of_lt (h : c.Waiting) (hsmall : c.bytesExpected < 2 ^ 31) :
    ∃ grown, c.roomForRead = some grown ∧ c.Grown grown := by
  have hcount := readCount_of_lt hsmall
  obtain ⟨grown, heq, hwf, hbuf, hroom, hbound⟩ :=
    h.shape.wf.makeRoomFor h.len_lt c.readCount (by omega)
  refine ⟨grown, heq, hwf, hbuf, Or.inl ⟨hsmall, hroom⟩, ?_⟩
  have hpre : SDS_MAX_PREALLOC = 2 ^ 20 := rfl
  have hsize : XHEAD_SIZE = 36 := rfl
  have hlen := (h.shape.hasEnough_eq_false_iff.mp h.quiet).1
  -- only a connection that waits for its header must not collect much room
  cases h.shape.phase with
  | head state expected processed =>
      rcases h.room_lt with hroom' | ⟨hbody, -⟩
      · exact Or.inl (by omega)
      · rw [state] at hbody
        cases hbody
  | body framed processed => exact Or.inr ⟨framed.state, hsmall⟩
  | served framed processed => exact Or.inr ⟨framed.state, hsmall⟩

/-- The sizes at which a negative request makes the allocator abort. -/
def Refused (c : TcpConnection) : Prop :=
  2 ^ 31 ≤ c.bytesExpected ∧
    c.bytesExpected + c.querybuf.buf.length + SDS_MAX_PREALLOC + (SDSHDR_SIZE + 1) < 2 ^ 32

theorem Waiting.framed_of_ge (h : c.Waiting) (hlarge : 2 ^ 31 ≤ c.bytesExpected) : c.Framed := by
  cases h.shape.phase with
  | head state expected processed =>
      rw [expected] at hlarge
      exact absurd hlarge (by decide)
  | body framed processed => exact framed
  | served framed processed => exact framed

theorem Waiting.roomForRead_of_refused (h : c.Waiting) (hrefused : c.Refused) :
    c.roomForRead = none := by
  obtain ⟨hlarge, hsum⟩ := hrefused
  have hlt := h.shape.phase.bounds.1
  have hroom : c.querybuf.room < 2 ^ 31 := by
    rcases h.room_lt with hroom | ⟨-, hsmall⟩
    · exact hroom
    · omega
  rw [roomForRead, readCount_of_ge hlarge hlt]
  exact h.shape.wf.makeRoomFor_neg_eq_none h.len_lt hroom (by omega) (by omega)

/-- A negative request that is not refused leaves a block that is too short for
what it already holds, or one with less room than the request. -/
theorem Waiting.roomForRead_of_ge (h : c.Waiting) (hlarge : 2 ^ 31 ≤ c.bytesExpected)
    (hnot : ¬ c.Refused) :
    ∃ grown, c.roomForRead = some grown ∧
      (grown.alloc < c.querybuf.buf.length ∨ c.Grown grown) := by
  have hlt := h.shape.phase.bounds.1
  have hcount := readCount_of_ge hlarge hlt
  have hcomplete := (h.framed_of_ge hlarge).complete
  have hroom : c.querybuf.room < 2 ^ 31 := by
    rcases h.room_lt with hroom | ⟨-, hsmall⟩
    · exact hroom
    · omega
  have hnear : ¬ (c.bytesExpected + c.querybuf.buf.length + SDS_MAX_PREALLOC +
      (SDSHDR_SIZE + 1) < 2 ^ 32) := fun hsum => hnot ⟨hlarge, hsum⟩
  have hsize : XHEAD_SIZE = 36 := rfl
  obtain ⟨grown, heq, hgrown⟩ := h.shape.wf.makeRoomFor_neg (by omega) h.len_lt hroom
    (2 ^ 32 - c.bytesExpected) (by omega) (by omega) (by omega)
  refine ⟨grown, by rw [roomForRead, hcount, heq], ?_⟩
  rcases hgrown with hshort | ⟨hwf, hbuf, hsmall⟩
  · exact Or.inl hshort
  · exact Or.inr ⟨hwf, hbuf, Or.inr ⟨hlarge, by omega⟩, Or.inl hsmall⟩

/-- **The three ways to get a buffer for the next read.** -/
theorem Waiting.roomForRead_cases (h : c.Waiting) :
    c.Refused ∧ c.roomForRead = none ∨
      ¬ c.Refused ∧ ∃ grown, c.roomForRead = some grown ∧
        (2 ^ 31 ≤ c.bytesExpected ∧ grown.alloc < c.querybuf.buf.length ∨ c.Grown grown) := by
  by_cases hrefused : c.Refused
  · exact Or.inl ⟨hrefused, h.roomForRead_of_refused hrefused⟩
  · refine Or.inr ⟨hrefused, ?_⟩
    by_cases hsmall : c.bytesExpected < 2 ^ 31
    · obtain ⟨grown, heq, hgrown⟩ := h.roomForRead_of_lt hsmall
      exact ⟨grown, heq, Or.inr hgrown⟩
    · obtain ⟨grown, heq, hgrown⟩ := h.roomForRead_of_ge (by omega) hrefused
      exact ⟨grown, heq, hgrown.imp_left fun hshort => ⟨by omega, hshort⟩⟩

/-! ## One activation of `_read_conn` -/

/-- The kernel's side of one `read` call: it stores between one and
`bytes_expected` bytes, or none. -/
def Answers (c : TcpConnection) : ReadResult → Prop
  | .data bytes => bytes ≠ [] ∧ bytes.length ≤ c.bytesExpected
  | .wouldBlock | .endOfFile | .failed => True

/-- The connection after `bytes` have been stored in the block `grown`. -/
def received (c : TcpConnection) (grown : Sds) (bytes : List UInt8) (now : ℕ) : TcpConnection :=
  { c with
    querybuf := sdsIncrLen { grown with buf := grown.buf ++ bytes } bytes.length
    lastActiveTime := now }

variable {grown : Sds} {r : ReadResult} {bytes : List UInt8}

theorem buf_received (hgrown : c.Grown grown) (bytes : List UInt8) (now : ℕ) :
    (c.received grown bytes now).querybuf.buf = c.querybuf.buf ++ bytes := by
  rw [← hgrown.buf_eq]
  rfl

/-- An answer that fits the block is shorter than `2 ^ 31` bytes. -/
theorem Grown.bytes_lt (hgrown : c.Grown grown) (hanswers : c.Answers (.data bytes))
    (hfits : c.querybuf.buf.length + bytes.length ≤ grown.alloc) : bytes.length < 2 ^ 31 := by
  have hbytes := hanswers.2
  rcases hgrown.room_lt with hroom | ⟨-, hsmall⟩
  · rw [Sds.room, hgrown.buf_eq] at hroom
    omega
  · omega

theorem Waiting.qbLen_eq (h : c.Waiting) :
    toInt32 (sdslen c.querybuf) = c.querybuf.buf.length := by
  rw [h.shape.wf.sdslen_eq h.len_lt]
  exact toInt32_of_range (by omega) (by have := h.len_lt; omega)

/-- The allocator aborts before anything is read. -/
theorem readConn_of_aborted (hroom : c.roomForRead = none) :
    c.readConn ret fuel now r = .aborted := by
  rw [readConn, hroom, Option.elim_none]

/-- Bytes that fit are appended to the buffer, and the loop runs on the result. -/
theorem Waiting.readConn_of_data (h : c.Waiting) (hroom : c.roomForRead = some grown)
    (hgrown : c.Grown grown) (hanswers : c.Answers (.data bytes))
    (hfits : c.querybuf.buf.length + bytes.length ≤ grown.alloc) :
    c.readConn ret fuel now (.data bytes) =
      .ofLoop (processQueryBuffer ret fuel (c.received grown bytes now) []) := by
  have hlt := hgrown.bytes_lt hanswers hfits
  have hpos : 0 < bytes.length := List.length_pos_iff.mpr hanswers.1
  have hread : sockReadData (.data bytes) = bytes.length :=
    toInt32_of_range (by omega) (by omega)
  have htake : grown.buf.take c.querybuf.buf.length = grown.buf := by
    rw [hgrown.buf_eq, List.take_length]
  rw [readConn, hroom, Option.elim_some, readInto, h.qbLen_eq]
  simp only [hread, ReadResult.bytes, Int.toNat_natCast, htake]
  rw [if_neg (by omega), if_neg (by omega), if_pos (by omega), received]

/-- A call that would block leaves the buffer as it was, and the loop runs. -/
theorem Waiting.readConn_of_wouldBlock (h : c.Waiting) (hroom : c.roomForRead = some grown)
    (hgrown : c.Grown grown) :
    c.readConn ret fuel now .wouldBlock =
      .ofLoop (processQueryBuffer ret fuel (c.received grown [] now) []) := by
  have hfits : c.querybuf.buf.length ≤ grown.alloc := by
    rw [← hgrown.buf_eq]
    exact hgrown.wf.fits
  have hlen : toInt32 (grown.len + 0) = grown.len := by
    rw [hgrown.wf.len_eq, toInt32_add_left, add_zero]
  have hfree : toInt32 (grown.free - 0) = grown.free := by
    rw [hgrown.wf.free_eq, toInt32_sub_left, sub_zero]
  have htake : grown.buf.take c.querybuf.buf.length = grown.buf := by
    rw [hgrown.buf_eq, List.take_length]
  rw [readConn, hroom, Option.elim_some, readInto, h.qbLen_eq]
  simp only [received, sdsIncrLen, sockReadData, ReadResult.bytes, Int.toNat_natCast,
    List.append_nil, List.length_nil, Nat.cast_zero, hlen, hfree, htake]
  rw [if_neg (by omega), if_neg (by decide), if_neg (by decide)]

/-- An end of file or an error closes the connection. -/
theorem Waiting.readConn_of_closed (h : c.Waiting) (hroom : c.roomForRead = some grown)
    (hfits : c.querybuf.buf.length ≤ grown.alloc) (hr : r = .endOfFile ∨ r = .failed) :
    c.readConn ret fuel now r = .closed [] := by
  have hbytes : r.bytes = [] := by
    rcases hr with rfl | rfl <;> rfl
  have hread : sockReadData r = -1 := by
    rcases hr with rfl | rfl <;> rfl
  rw [readConn, hroom, Option.elim_some, readInto, h.qbLen_eq]
  simp only [hbytes, hread, List.length_nil]
  rw [if_neg (by omega), if_pos trivial]

/-- Bytes that arrive behind a complete header do not change it. -/
theorem Framed.received (hframed : c.Framed) (hgrown : c.Grown grown) :
    (c.received grown bytes now).Framed := by
  have hbuf := buf_received hgrown bytes now
  have hhead : (c.received grown bytes now).head = c.head := by
    rw [head, hbuf, XHead.ofBuffer_append hframed.complete]
    rfl
  refine ⟨hframed.state, ?_, by rw [hhead]; exact hframed.magic,
    by rw [hhead]; exact hframed.expected⟩
  rw [hbuf, List.length_append]
  exact le_trans hframed.complete (Nat.le_add_right _ _)

theorem Waiting.shape_received (h : c.Waiting) (now : ℕ) (hgrown : c.Grown grown)
    (hfits : c.querybuf.buf.length + bytes.length ≤ grown.alloc) (hlt : bytes.length < 2 ^ 31) :
    (c.received grown bytes now).Shape := by
  have hlen := h.len_lt
  refine ⟨?_, ?_, ?_⟩
  · apply hgrown.wf.append
    rw [Sds.room, hgrown.buf_eq]
    omega
  · rw [buf_received hgrown, List.length_append]
    omega
  · cases h.shape.phase with
    | head state expected processed => exact .head state expected processed
    | body framed processed => exact .body (framed.received hgrown) processed
    | served framed processed => exact .served (framed.received hgrown) processed

theorem Grown.room_received (hgrown : c.Grown grown) (bytes : List UInt8) (now : ℕ) :
    (c.received grown bytes now).querybuf.room < 2 ^ 31 ∨
      c.currentState = .stateBody ∧ c.bytesExpected < 2 ^ 31 := by
  refine hgrown.room_lt.imp_left fun hroom => ?_
  have hlen : grown.buf.length ≤ (grown.buf ++ bytes).length := by
    rw [List.length_append]
    exact Nat.le_add_right _ _
  simp only [Sds.room] at hroom ⊢
  exact lt_of_le_of_lt (Nat.sub_le_sub_left hlen _) hroom

/-- A loop that returned zero on a received buffer leaves a waiting connection. -/
theorem Waiting.of_ofLoop (h : c.Waiting) (hgrown : c.Grown grown)
    (hfits : c.querybuf.buf.length + bytes.length ≤ grown.alloc) (hlt : bytes.length < 2 ^ 31)
    (hkept : ReadOutcome.ofLoop
      (processQueryBuffer ret fuel (c.received grown bytes now) []) = .kept next made) :
    next.Waiting := by
  cases hloop : processQueryBuffer ret fuel (c.received grown bytes now) [] with
  | none =>
      rw [hloop] at hkept
      cases hkept
  | some result =>
      obtain ⟨code, last, calls⟩ := result
      rw [hloop] at hkept
      simp only [ReadOutcome.ofLoop] at hkept
      split at hkept
      · cases hkept
      · rename_i hcode
        rw [not_not] at hcode
        subst hcode
        cases hkept
        obtain ⟨hshape, hquiet, hbuf, hstay⟩ :=
          (h.shape_received now hgrown hfits hlt).of_processQueryBuffer hloop
        refine ⟨hshape, hquiet, ?_⟩
        rcases hgrown.room_received bytes now with hroom | ⟨hbody, hsmall⟩
        · exact Or.inl (hbuf ▸ hroom)
        · obtain ⟨hstate, hexpected⟩ := hstay hbody
          exact Or.inr ⟨hstate, by rw [hexpected]; exact hsmall⟩

/-- The loop keeps whatever its two assignments keep. -/
theorem keeps_of_processQueryBuffer {α : Type} {field : TcpConnection → α} {code : ℤ}
    (henter : ∀ d : TcpConnection, field d.enterBody = field d)
    (hmark : ∀ d : TcpConnection, field d.markProcessed = field d)
    (hresult : processQueryBuffer ret fuel c calls = some (code, next, made)) :
    field next = field c := by
  induction fuel generalizing c calls with
  | zero => cases hresult
  | succ fuel ih =>
      unfold processQueryBuffer at hresult
      split at hresult
      · split at hresult
        · split at hresult
          · cases hresult
            rfl
          · rw [ih hresult, henter]
        · split at hresult
          · cases hresult
            rfl
          · rw [ih hresult, hmark]
      · cases hresult
        rfl

/-- What the loop keeps has, after an activation, the value it had when the bytes
were stored and the clock was read. -/
theorem keeps_of_readConn {α : Type} {field : TcpConnection → α}
    (henter : ∀ d : TcpConnection, field d.enterBody = field d)
    (hmark : ∀ d : TcpConnection, field d.markProcessed = field d)
    (hkept : c.readConn ret fuel now r = .kept next made) :
    ∃ querybuf, field next = field { c with querybuf := querybuf, lastActiveTime := now } := by
  rw [readConn] at hkept
  cases hroom : c.roomForRead with
  | none =>
      rw [hroom, Option.elim_none] at hkept
      cases hkept
  | some grown =>
      rw [hroom, Option.elim_some, readInto] at hkept
      simp only at hkept
      split at hkept
      · cases hkept
      · split at hkept
        · cases hkept
        · have hstored : ∀ stored : TcpConnection,
              ReadOutcome.ofLoop (processQueryBuffer ret fuel stored []) = .kept next made →
              field next = field stored := by
            intro stored hloop
            cases hresult : processQueryBuffer ret fuel stored [] with
            | none =>
                rw [hresult] at hloop
                cases hloop
            | some result =>
                obtain ⟨code, last, calls⟩ := result
                rw [hresult, ReadOutcome.ofLoop] at hloop
                split at hloop
                · cases hloop
                · cases hloop
                  exact keeps_of_processQueryBuffer henter hmark hresult
          have hfield := hstored _ hkept
          split at hfield
          · exact ⟨_, hfield⟩
          · exact ⟨_, hfield⟩

/-- An activation touches neither the descriptor nor the watcher nor the replies. -/
theorem frame_of_readConn (hkept : c.readConn ret fuel now r = .kept next made) :
    next.fd = c.fd ∧ next.ioWatcher = c.ioWatcher ∧ next.replyMsgs = c.replyMsgs := by
  let frame (d : TcpConnection) := (d.fd, d.ioWatcher, d.replyMsgs)
  have hloop : ∃ querybuf,
      frame next = frame { c with querybuf := querybuf, lastActiveTime := now } :=
    keeps_of_readConn (fun _ => rfl) (fun _ => rfl) hkept
  obtain ⟨querybuf, hframe⟩ := hloop
  obtain ⟨hfd, hrest⟩ := Prod.mk.inj hframe
  obtain ⟨hwatcher, hreplies⟩ := Prod.mk.inj hrest
  exact ⟨hfd, hwatcher, hreplies⟩

/-- An activation that keeps the connection has noted the time. -/
theorem lastActiveTime_of_readConn (hkept : c.readConn ret fuel now r = .kept next made) :
    next.lastActiveTime = now := by
  have hloop : ∃ querybuf, next.lastActiveTime =
      { c with querybuf := querybuf, lastActiveTime := now : TcpConnection }.lastActiveTime :=
    keeps_of_readConn (fun _ => rfl) (fun _ => rfl) hkept
  obtain ⟨querybuf, htime⟩ := hloop
  exact htime

/-! ## Activations that return, and those that do not -/

/-- A complete header has been taken note of. -/
theorem Waiting.framed (h : c.Waiting) (hcomplete : XHEAD_SIZE ≤ c.querybuf.buf.length) :
    c.Framed := by
  cases hstate : c.currentState with
  | stateHead =>
      obtain ⟨-, hsum⟩ := h.shape.unserved hstate
      have hlen := (h.shape.hasEnough_eq_false_iff.mp h.quiet).1
      omega
  | stateBody => exact h.shape.framed hstate

/-- A waiting connection has not been sent a wrong magic number. -/
theorem Waiting.not_rejected (h : c.Waiting) : ¬ Rejected c.querybuf.buf := by
  rintro ⟨hcomplete, hmagic⟩
  exact hmagic (h.framed hcomplete).magic

theorem Waiting.tally_eq (h : c.Waiting) (htally : c.Tally calls) :
    calls = requests c.querybuf.buf :=
  h.shape.tally_eq h.quiet htally

/-- Bytes that arrive later do not change what has been requested. -/
theorem Tally.received (htally : c.Tally calls) (hgrown : c.Grown grown) :
    (c.received grown bytes now).Tally calls := by
  have hprocessed : (c.received grown bytes now).bytesProcessed = c.bytesProcessed := rfl
  by_cases hserved : c.bytesProcessed = PROCESSED_SENTINEL
  · rw [Tally, if_pos hserved] at htally
    obtain ⟨hcomplete, hcalls⟩ := htally
    obtain ⟨hlater, hsame⟩ := hcomplete.append bytes
    rw [Tally, hprocessed, if_pos hserved, buf_received hgrown, hsame]
    exact ⟨hlater, hcalls⟩
  · rw [htally.eq_nil hserved]
    exact Tally.of_unserved (hprocessed ▸ hserved)

/-- An answer after which the buffer is still inside its block and below the
sentinel, unless the allocator aborts first. -/
def Tame (c : TcpConnection) (r : ReadResult) : Prop :=
  ∀ grown, c.roomForRead = some grown →
    c.querybuf.buf.length + r.bytes.length ≤ grown.alloc ∧
      BelowSentinel (c.querybuf.buf ++ r.bytes)

/-- How `_read_conn` ends on a tame answer, when `calls` were made before. -/
inductive Served (ret : ℕ → ℤ) (c : TcpConnection) (calls : List RequestCall) (r : ReadResult) :
    ReadOutcome → Prop
  | kept {next : TcpConnection} {made : List RequestCall} (waiting : next.Waiting)
      (tally : next.Tally (calls ++ made)) (buf_eq : next.querybuf.buf = c.querybuf.buf ++ r.bytes)
      (accepted : made ≠ [] → ret 0 = 0) : Served ret c calls r (.kept next made)
  | closed {made : List RequestCall}
      (calls_eq : calls ++ made = requests (c.querybuf.buf ++ r.bytes))
      (cause : Rejected (c.querybuf.buf ++ r.bytes) ∨ made ≠ [] ∧ ret 0 ≠ 0 ∨
        r = .endOfFile ∨ r = .failed) : Served ret c calls r (.closed made)
  | aborted (refused : c.Refused) : Served ret c calls r .aborted

/-- What the loop makes of stored bytes that stay below the sentinel. -/
theorem Waiting.served_of_loop (h : c.Waiting) (ret : ℕ → ℤ) (now : ℕ) (htally : c.Tally calls)
    (hgrown : c.Grown grown)
    (hfits : c.querybuf.buf.length + r.bytes.length ≤ grown.alloc)
    (hlt : r.bytes.length < 2 ^ 31) (hbelow : BelowSentinel (c.querybuf.buf ++ r.bytes)) :
    ∃ outcome, (∀ fuel, ReadOutcome.ofLoop (processQueryBuffer ret (fuel + LOOP_BOUND)
      (c.received grown r.bytes now) []) = outcome) ∧ Served ret c calls r outcome := by
  have hbuf := buf_received hgrown r.bytes now
  obtain ⟨code, last, made, hloop, hcalls, hend⟩ :=
    (h.shape_received now hgrown hfits hlt).loop_returns ret
      (by rw [hbuf]; exact hbelow) (htally.received hgrown)
  rw [hbuf] at hcalls hend
  rcases hend with ⟨rfl, hlast, haccepted⟩ | ⟨hcode, hcause⟩
  · have hkept (fuel : ℕ) : ReadOutcome.ofLoop (processQueryBuffer ret (fuel + LOOP_BOUND)
        (c.received grown r.bytes now) []) = .kept last made := by
      rw [hloop, ReadOutcome.ofLoop, if_neg (not_not.mpr rfl)]
    refine ⟨.kept last made, hkept, .kept ?_ hlast ?_ haccepted⟩
    · exact h.of_ofLoop hgrown hfits hlt (hkept 0)
    · obtain ⟨-, -, hsame, -⟩ :=
        (h.shape_received now hgrown hfits hlt).of_processQueryBuffer (hloop 0)
      rw [hsame, hbuf]
  · refine ⟨.closed made, fun fuel => ?_, .closed hcalls (hcause.imp_right Or.inl)⟩
    rw [hloop, ReadOutcome.ofLoop, if_pos hcode]

/-- **A tame answer.** The activation returns within the loop bound, and the
requests made by then are those of the bytes received. -/
theorem Waiting.served_of_tame (h : c.Waiting) (ret : ℕ → ℤ) (now : ℕ)
    (htally : c.Tally calls) (hanswers : c.Answers r) (htame : c.Tame r) :
    ∃ outcome, (∀ fuel, c.readConn ret (fuel + LOOP_BOUND) now r = outcome) ∧
      Served ret c calls r outcome := by
  rcases h.roomForRead_cases with ⟨hrefused, hnone⟩ | ⟨-, grown, hsome, hgrown⟩
  · exact ⟨.aborted, fun fuel => readConn_of_aborted hnone, .aborted hrefused⟩
  obtain ⟨hfits, hbelow⟩ := htame grown hsome
  have hgood : c.Grown grown := by
    rcases hgrown with ⟨-, hshort⟩ | hgood
    · omega
    · exact hgood
  have hclosed (hend : r = .endOfFile ∨ r = .failed) (hnone : r.bytes = []) :
      ∃ outcome, (∀ fuel, c.readConn ret (fuel + LOOP_BOUND) now r = outcome) ∧
        Served ret c calls r outcome := by
    refine ⟨.closed [], fun fuel => h.readConn_of_closed hsome (by omega) hend,
      .closed ?_ (Or.inr (Or.inr hend))⟩
    rw [hnone, List.append_nil, List.append_nil]
    exact h.tally_eq htally
  cases r with
  | data bytes =>
      obtain ⟨outcome, hloop, hserved⟩ := h.served_of_loop ret now htally hgood
        hfits (hgood.bytes_lt hanswers hfits) hbelow
      refine ⟨outcome, fun fuel => ?_, hserved⟩
      rw [h.readConn_of_data hsome hgood hanswers hfits]
      exact hloop fuel
  | wouldBlock =>
      obtain ⟨outcome, hloop, hserved⟩ := h.served_of_loop ret now htally hgood
        hfits (Nat.two_pow_pos 31) hbelow
      refine ⟨outcome, fun fuel => ?_, hserved⟩
      rw [h.readConn_of_wouldBlock hsome hgood]
      exact hloop fuel
  | endOfFile => exact hclosed (Or.inl rfl) rfl
  | failed => exact hclosed (Or.inr rfl) rfl

/-- Where the body length is below `2 ^ 31`, the sentinel is the only limit. -/
theorem Waiting.tame_of_lt (h : c.Waiting) (hsmall : c.bytesExpected < 2 ^ 31)
    (hanswers : c.Answers r) (hbelow : BelowSentinel (c.querybuf.buf ++ r.bytes)) : c.Tame r := by
  obtain ⟨grown, hsome, hgrown⟩ := h.roomForRead_of_lt hsmall
  intro grown' hroom
  rw [hsome] at hroom
  cases hroom
  refine ⟨?_, hbelow⟩
  have hfits := hgrown.wf.fits
  rw [hgrown.buf_eq] at hfits
  cases r with
  | data bytes =>
      have hbytes : bytes.length ≤ c.readCount := readCount_of_lt hsmall ▸ hanswers.2
      have hcount : c.readCount ≤ grown.room := by
        rcases hgrown.room with ⟨-, hroom⟩ | ⟨hlarge, -⟩
        · exact hroom
        · omega
      rw [Sds.room, hgrown.buf_eq] at hcount
      have hlen : (ReadResult.data bytes).bytes.length = bytes.length := rfl
      omega
  | wouldBlock => exact hfits
  | endOfFile => exact hfits
  | failed => exact hfits

end Xrtc.Server.TcpConnection
