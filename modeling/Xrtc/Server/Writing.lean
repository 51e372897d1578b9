/-
# The write loop of a connection

`_write_conn` offers the first queued message to `write` until the queue is
empty. `cur_pos` counts how much of that message has been accepted, but the
call is always given the whole message. The loop is a step function here, one
step for each answer of the kernel, and the bytes the socket has accepted are
recorded beside the variables of the source. The result says exactly which
answers make the accepted bytes the concatenation of the queued messages.
-/

import Xrtc.Machine.Run
import Xrtc.Server.TcpConnection
import Xrtc.Xrpc.Request

namespace Xrtc.Server

open Xrtc.Machine Xrtc.Base

/-- The variables of the loop: the queue, `cur_pos`, the bytes accepted by the
socket so far, and whether a call has failed. -/
structure WriteState where
  replyMsgs : List ReplyMsg
  curPos : ℤ := 0
  sent : List UInt8 := []
  failed : Bool := false
  deriving DecidableEq

namespace WriteState

/-- One iteration of the loop. There is none behind an empty queue or an error. -/
def writeStep (s : WriteState) (r : WriteResult) : Option WriteState :=
  match s.failed, s.replyMsgs with
  | true, _ => none
  | false, [] => none
  | false, msg :: rest =>
      let ret := sockWriteData r
      let s := { s with sent := s.sent ++ msg.bytes.take r.count }
      if ret < 0 then
        some { s with failed := true }
      else if ret = 0 then
        some s
      else if toSize (ret + s.curPos) ≥ msg.bytes.length then
        some { s with replyMsgs := rest, curPos := 0 }
      else
        some { s with curPos := s.curPos + ret }

/-- The whole loop: it takes answers until it ends. -/
def writeLoop : WriteState → List WriteResult → WriteState
  | s, [] => s
  | s, r :: results =>
      match s.writeStep r with
      | none => s
      | some next => writeLoop next results

/-- The kernel accepts a nonempty part of what it is offered, or nothing. -/
def Accepts (s : WriteState) : WriteResult → Prop
  | .accepted count =>
      ∀ msg rest, s.replyMsgs = msg :: rest → 0 < count ∧ count ≤ msg.bytes.length
  | .wouldBlock | .failed => True

/-- The accepted bytes, which come from the start of the message, are the ones
that were due behind the part accepted before, and not more. -/
def Aligned (s : WriteState) : WriteResult → Prop
  | .accepted count =>
      ∀ msg rest, s.replyMsgs = msg :: rest →
        s.curPos.toNat + count ≤ msg.bytes.length ∧
          msg.bytes.take count = (msg.bytes.drop s.curPos.toNat).take count
  | .wouldBlock | .failed => True

/-- What the socket should still be given. -/
def due (s : WriteState) : List UInt8 :=
  match s.replyMsgs with
  | [] => []
  | msg :: rest => msg.bytes.drop s.curPos.toNat ++ (rest.map ReplyMsg.bytes).flatten

/-- The loop invariant: `cur_pos` lies inside the first message. -/
structure InRange (s : WriteState) : Prop where
  nonneg : 0 ≤ s.curPos
  inside : ∀ msg rest, s.replyMsgs = msg :: rest → s.curPos.toNat < msg.bytes.length ∨ s.curPos = 0

variable {s next last : WriteState} {r : WriteResult} {results : List WriteResult}

/-- Everything one iteration can do when the kernel keeps to its part. -/
inductive Stepped (s : WriteState) (msg : ReplyMsg) (rest : List ReplyMsg) :
    WriteResult → WriteState → Prop
  | failed : Stepped s msg rest .failed { s with failed := true }
  | blocked : Stepped s msg rest .wouldBlock s
  | finished {count : ℕ} (bound : count ≤ msg.bytes.length)
      (whole : msg.bytes.length ≤ s.curPos.toNat + count) :
      Stepped s msg rest (.accepted count)
        { s with replyMsgs := rest, curPos := 0, sent := s.sent ++ msg.bytes.take count }
  | partially {count : ℕ} (part : s.curPos.toNat + count < msg.bytes.length) :
      Stepped s msg rest (.accepted count)
        { s with curPos := s.curPos + count, sent := s.sent ++ msg.bytes.take count }

theorem stepped_of_writeStep (hrange : s.InRange) (haccepts : s.Accepts r)
    (hstep : s.writeStep r = some next) :
    ∃ msg rest, s.replyMsgs = msg :: rest ∧ Stepped s msg rest r next := by
  obtain ⟨replyMsgs, curPos, sent, failed⟩ := s
  cases failed with
  | true => cases hstep
  | false =>
      cases replyMsgs with
      | nil => cases hstep
      | cons msg rest =>
          refine ⟨msg, rest, rfl, ?_⟩
          have hnonneg : 0 ≤ curPos := hrange.nonneg
          have hsize := msg.size_le
          have hbound : XHEAD_SIZE + MAX_RES_BUF = 4132 := rfl
          cases r with
          | failed =>
              simp only [writeStep, sockWriteData, WriteResult.count, List.take_zero,
                List.append_nil] at hstep
              cases hstep
              exact .failed
          | wouldBlock =>
              simp only [writeStep, sockWriteData, WriteResult.count, List.take_zero,
                List.append_nil] at hstep
              cases hstep
              exact .blocked
          | accepted count =>
              obtain ⟨hpos, hcount⟩ := haccepts msg rest rfl
              have hret : sockWriteData (.accepted count) = count :=
                toInt32_of_range (by omega) (by omega)
              have hinside : curPos.toNat < msg.bytes.length ∨ curPos = 0 :=
                hrange.inside msg rest rfl
              have hsum : toSize (count + curPos) = curPos.toNat + count := by
                unfold toSize
                omega
              simp only [writeStep, hret, WriteResult.count, hsum] at hstep
              rw [if_neg (by omega), if_neg (by omega)] at hstep
              split at hstep
              · rename_i hwhole
                cases hstep
                exact .finished hcount hwhole
              · rename_i hpart
                cases hstep
                exact .partially (not_le.mp hpart)

/-! ## What one iteration keeps -/

variable {msg : ReplyMsg} {rest : List ReplyMsg}

theorem due_of_cons (hmsgs : s.replyMsgs = msg :: rest) :
    s.due = msg.bytes.drop s.curPos.toNat ++ (rest.map ReplyMsg.bytes).flatten := by
  rw [due, hmsgs]

/-- At the start of a message everything queued is due. -/
theorem due_of_start (hstart : s.curPos = 0) :
    s.due = (s.replyMsgs.map ReplyMsg.bytes).flatten := by
  unfold due
  cases hmsgs : s.replyMsgs with
  | nil => rfl
  | cons msg rest =>
      rw [hstart]
      rfl

/-- Behind a part of a message the rest of it is due. -/
theorem due_of_part (hrange : s.InRange) (hmsgs : s.replyMsgs = msg :: rest) (count : ℕ)
    (sent : List UInt8) :
    ({ s with curPos := s.curPos + count, sent := sent } : WriteState).due =
      msg.bytes.drop (s.curPos.toNat + count) ++ (rest.map ReplyMsg.bytes).flatten := by
  rw [← Int.toNat_add_nat hrange.nonneg count]
  exact due_of_cons hmsgs

theorem Stepped.inRange (hrange : s.InRange) (hmsgs : s.replyMsgs = msg :: rest)
    (hstepped : Stepped s msg rest r next) : next.InRange := by
  have hnonneg := hrange.nonneg
  cases hstepped with
  | failed => exact ⟨hnonneg, hrange.inside⟩
  | blocked => exact hrange
  | finished bound whole => exact ⟨le_rfl, fun _ _ _ => Or.inr rfl⟩
  | @partially count part =>
      refine ⟨Int.add_nonneg hnonneg (Int.natCast_nonneg count), ?_⟩
      intro first others hfirst
      rw [show first = msg by simp_all]
      have hsum : (s.curPos + count).toNat = s.curPos.toNat + count :=
        Int.toNat_add_nat hnonneg count
      exact Or.inl (hsum ▸ part)

/-- The socket never gives bytes back. -/
theorem Stepped.sent_grows (hstepped : Stepped s msg rest r next) : s.sent <+: next.sent := by
  cases hstepped with
  | failed => exact List.prefix_rfl
  | blocked => exact List.prefix_rfl
  | finished bound whole => exact List.prefix_append _ _
  | partially part => exact List.prefix_append _ _

/-- The bytes sent and due never become fewer in all: too much may be sent, but
never too little. -/
theorem Stepped.length_le (hrange : s.InRange) (hmsgs : s.replyMsgs = msg :: rest)
    (hstepped : Stepped s msg rest r next) :
    s.sent.length + s.due.length ≤ next.sent.length + next.due.length := by
  have hdue := due_of_cons hmsgs
  cases hstepped with
  | failed => exact le_rfl
  | blocked => exact le_rfl
  | finished bound whole =>
      rw [hdue, due_of_start rfl]
      simp only [List.length_append, List.length_drop, List.length_take]
      omega
  | @partially count part =>
      rw [hdue, due_of_part hrange hmsgs]
      simp only [List.length_append, List.length_drop, List.length_take]
      omega

/-- An aligned iteration moves bytes from what is due to what is sent. -/
theorem Stepped.due_eq (hrange : s.InRange) (hmsgs : s.replyMsgs = msg :: rest)
    (hstepped : Stepped s msg rest r next) (haligned : s.Aligned r) :
    next.sent ++ next.due = s.sent ++ s.due := by
  have hdue := due_of_cons hmsgs
  cases hstepped with
  | failed => rfl
  | blocked => rfl
  | @finished count bound whole =>
      obtain ⟨hfits, hsame⟩ := haligned msg rest hmsgs
      have hall : (msg.bytes.drop s.curPos.toNat).take count = msg.bytes.drop s.curPos.toNat := by
        rw [List.take_of_length_le]
        rw [List.length_drop]
        omega
      rw [hdue, due_of_start rfl, hsame, hall, List.append_assoc]
  | @partially count part =>
      obtain ⟨hfits, hsame⟩ := haligned msg rest hmsgs
      have hsplit : (msg.bytes.drop s.curPos.toNat).take count ++
          msg.bytes.drop (s.curPos.toNat + count) = msg.bytes.drop s.curPos.toNat := by
        rw [← List.drop_drop, List.take_append_drop]
      rw [hdue, due_of_part hrange hmsgs, hsame, List.append_assoc,
        ← List.append_assoc _ _ (List.flatten _), hsplit]

/-- An iteration that is not aligned cannot be made good: the bytes sent from
then on differ from those that were due, in their order or in their number. -/
theorem Stepped.sent_ne (hrange : s.InRange) (hmsgs : s.replyMsgs = msg :: rest)
    (hstepped : Stepped s msg rest r next) (hwrong : ¬ s.Aligned r)
    (hgrows : next.sent <+: last.sent)
    (hlength : next.sent.length + next.due.length ≤ last.sent.length) :
    last.sent ≠ s.sent ++ s.due := by
  intro heq
  apply hwrong
  have hdue := due_of_cons hmsgs
  rw [heq] at hgrows hlength
  -- a part that was due as far as its length goes is also made of the right bytes
  have haligned (count : ℕ) (hfits : s.curPos.toNat + count ≤ msg.bytes.length)
      (hsent : s.sent ++ msg.bytes.take count <+: s.sent ++ s.due) :
      s.Aligned (.accepted count) := by
    intro first others hfirst
    rw [hmsgs] at hfirst
    cases hfirst
    refine ⟨hfits, ?_⟩
    rw [List.prefix_append_right_inj, List.prefix_iff_eq_take, List.length_take_of_le (by omega),
      hdue, List.take_append_of_le_length (by rw [List.length_drop]; omega)] at hsent
    exact hsent
  cases hstepped with
  | failed => trivial
  | blocked => trivial
  | @finished count bound whole =>
      refine haligned count ?_ hgrows
      rw [hdue, due_of_start rfl] at hlength
      simp only [List.length_append, List.length_drop, List.length_take] at hlength
      rcases hrange.inside msg rest hmsgs with hinside | hstart
      · omega
      · rw [hstart, Int.toNat_zero]
        omega
  | @partially count part => exact haligned count (le_of_lt part) hgrows

/-! ## The whole loop -/

/-- Along a run the socket keeps what it has, and what is sent and due together
does not become shorter. -/
theorem run_keeps (hrange : s.InRange) (haccepts : RunMeets writeStep Accepts s results)
    (hrun : run writeStep s results = some last) :
    last.InRange ∧ s.sent <+: last.sent ∧
      s.sent.length + s.due.length ≤ last.sent.length + last.due.length := by
  refine run_preserves_of_meets
    (fun t => t.InRange ∧ s.sent <+: t.sent ∧
      s.sent.length + s.due.length ≤ t.sent.length + t.due.length)
    ?_ ⟨hrange, List.prefix_rfl, le_rfl⟩ haccepts hrun
  intro t next r ht hr hstep
  obtain ⟨hrange, hgrows, hlength⟩ := ht
  obtain ⟨msg, rest, hmsgs, hstepped⟩ := stepped_of_writeStep hrange hr hstep
  exact ⟨hstepped.inRange hrange hmsgs, hgrows.trans hstepped.sent_grows,
    hlength.trans (hstepped.length_le hrange hmsgs)⟩

/-- The equivalence from any state of the loop on. -/
theorem sent_eq_due_iff (hrange : s.InRange) (haccepts : RunMeets writeStep Accepts s results)
    (hrun : run writeStep s results = some last) (hdrained : last.replyMsgs = []) :
    last.sent = s.sent ++ s.due ↔ RunMeets writeStep Aligned s results := by
  induction results generalizing s with
  | nil =>
      cases hrun
      have hdue : last.due = [] := by
        rw [due, hdrained]
      rw [hdue, List.append_nil]
      exact iff_of_true rfl trivial
  | cons r results ih =>
      obtain ⟨next, hstep, hrest⟩ := run_cons_eq_some.mp hrun
      obtain ⟨msg, rest, hmsgs, hstepped⟩ := stepped_of_writeStep hrange haccepts.1 hstep
      have hrange' := hstepped.inRange hrange hmsgs
      have haccepts' := haccepts.2 next hstep
      have hrunMeets : RunMeets writeStep Aligned s (r :: results) ↔
          s.Aligned r ∧ RunMeets writeStep Aligned next results := by
        simp only [RunMeets, hstep, Option.some.injEq, forall_eq']
      rw [hrunMeets, ← ih hrange' haccepts' hrest]
      by_cases haligned : s.Aligned r
      · rw [and_iff_right haligned, hstepped.due_eq hrange hmsgs haligned]
      · obtain ⟨-, hgrows, hlength⟩ := run_keeps hrange' haccepts' hrest
        have hdue : last.due = [] := by
          rw [due, hdrained]
        rw [hdue, List.length_nil, Nat.add_zero] at hlength
        exact iff_of_false (hstepped.sent_ne hrange hmsgs haligned hgrows hlength)
          fun hboth => haligned hboth.1

/-- **When the loop sends what was queued.** In every run that empties the queue
without an error, the bytes the socket accepted are the queued messages in order
if and only if every accepted part was aligned. -/
theorem sent_eq_flatten_iff (msgs : List ReplyMsg) (results : List WriteResult) (last : WriteState)
    (haccepts : RunMeets writeStep Accepts { replyMsgs := msgs } results)
    (hrun : run writeStep { replyMsgs := msgs } results = some last)
    (hdrained : last.replyMsgs = []) :
    last.sent = (msgs.map ReplyMsg.bytes).flatten ↔
      RunMeets writeStep Aligned { replyMsgs := msgs } results := by
  have hrange : InRange { replyMsgs := msgs } := ⟨le_rfl, fun _ _ _ => Or.inr rfl⟩
  rw [← sent_eq_due_iff hrange haccepts hrun hdrained, due_of_start rfl]
  rfl

/-- A reply frame: the header of a two-byte body and that body. -/
def smallReply : ReplyMsg where
  bytes := (Xrpc.requestHeader 1 2).bytes ++ [123, 125]
  size_le := by decide

/-- A reply that is taken in one piece, after a call that would block. -/
theorem sent_eq_flatten_smallReply :
    ∃ last, run writeStep { replyMsgs := [smallReply] } [.wouldBlock, .accepted 38] = some last ∧
      last.replyMsgs = [] ∧ last.sent = ([smallReply].map ReplyMsg.bytes).flatten := by
  have hblocked : writeStep { replyMsgs := [smallReply] } .wouldBlock =
      some { replyMsgs := [smallReply] } := by decide
  have hmeets (guard : WriteState → WriteResult → Prop)
      (hfirst : guard { replyMsgs := [smallReply] } .wouldBlock)
      (hsecond : guard { replyMsgs := [smallReply] } (.accepted 38)) :
      RunMeets writeStep guard { replyMsgs := [smallReply] } [.wouldBlock, .accepted 38] := by
    refine ⟨hfirst, fun next hnext => ?_⟩
    rw [hblocked] at hnext
    cases hnext
    exact ⟨hsecond, fun _ _ => trivial⟩
  refine ⟨{ replyMsgs := [], sent := smallReply.bytes }, by decide, rfl, ?_⟩
  refine (sent_eq_flatten_iff _ _ _ (hmeets Accepts trivial ?_) (by decide) rfl).mpr
    (hmeets Aligned trivial ?_)
  · intro msg rest hmsgs
    cases hmsgs
    decide
  · intro msg rest hmsgs
    cases hmsgs
    decide

/-- A reply that is taken in two pieces: the second one starts over. -/
theorem sent_ne_smallReply :
    ∃ last, RunMeets writeStep Accepts { replyMsgs := [smallReply] } [.accepted 20, .accepted 18] ∧
      run writeStep { replyMsgs := [smallReply] } [.accepted 20, .accepted 18] = some last ∧
      last.replyMsgs = [] ∧ last.failed = false ∧
      last.sent ≠ ([smallReply].map ReplyMsg.bytes).flatten := by
  refine ⟨{ replyMsgs := [], sent := smallReply.bytes.take 20 ++ smallReply.bytes.take 18 },
    ⟨?_, fun next hnext => ⟨?_, fun _ _ => trivial⟩⟩, by decide, rfl, rfl, by decide⟩
  · intro msg rest hmsgs
    cases hmsgs
    decide
  · have hpart : writeStep { replyMsgs := [smallReply] } (.accepted 20) =
        some { replyMsgs := [smallReply], curPos := 20, sent := smallReply.bytes.take 20 } := by
      decide
    rw [hpart] at hnext
    cases hnext
    intro msg rest hmsgs
    cases hmsgs
    decide

end WriteState

end Xrtc.Server
