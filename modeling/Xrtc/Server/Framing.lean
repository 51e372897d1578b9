/-
# The frame parser of one connection

`Shape` is the loop invariant of `_process_query_buffer`: the buffer header is
sound, and the connection is waiting for a header, for a body, or has had its
request handed on. The loop has two kinds of activation. On a buffer below the
sentinel it returns within three iterations, and the requests made so far are a
function of the bytes received. On any other buffer it makes one request after
the other for as long as they are accepted.
-/

import Xrtc.Server.TcpConnection

namespace Xrtc.Server.TcpConnection

open Xrtc.Machine Xrtc.Base

variable {c next : TcpConnection} {ret : ℕ → ℤ} {fuel now : ℕ} {calls made : List RequestCall}

@[simp]
theorem querybuf_enterBody (c : TcpConnection) : c.enterBody.querybuf = c.querybuf := rfl

@[simp]
theorem querybuf_markProcessed (c : TcpConnection) : c.markProcessed.querybuf = c.querybuf := rfl

/-! ## One iteration of the loop -/

theorem processQueryBuffer_of_not_hasEnough (hquiet : c.hasEnough = false) :
    processQueryBuffer ret (fuel + 1) c calls = some (0, c, calls) := by
  rw [processQueryBuffer, hquiet]
  rfl

theorem processQueryBuffer_of_wrong_magic (henough : c.hasEnough = true)
    (hstate : c.currentState = .stateHead) (hmagic : c.head.magicNum ≠ XHEAD_MAGIC_NUM) :
    processQueryBuffer ret (fuel + 1) c calls = some (-1, c, calls) := by
  rw [processQueryBuffer, henough, hstate]
  exact if_pos hmagic.symm

theorem processQueryBuffer_of_header (henough : c.hasEnough = true)
    (hstate : c.currentState = .stateHead) (hmagic : c.head.magicNum = XHEAD_MAGIC_NUM) :
    processQueryBuffer ret (fuel + 1) c calls =
      processQueryBuffer ret fuel c.enterBody calls := by
  rw [processQueryBuffer, henough, hstate]
  exact if_neg (not_not.mpr hmagic.symm)

theorem processQueryBuffer_of_body (henough : c.hasEnough = true)
    (hstate : c.currentState = .stateBody) :
    processQueryBuffer ret (fuel + 1) c calls =
      if ret calls.length ≠ 0 then some (-1, c, calls ++ [c.requestCall])
      else processQueryBuffer ret fuel c.markProcessed (calls ++ [c.requestCall]) := by
  rw [processQueryBuffer, henough, hstate]
  rfl

/-- The loop in the body state when the sentinel does stop it: at most one
request is made, and exactly when enough bytes are there. -/
theorem processQueryBuffer_in_body (hstate : c.currentState = .stateBody)
    (hsentinel : c.markProcessed.hasEnough = false) :
    processQueryBuffer ret (fuel + 2) c calls =
      if c.hasEnough then
        if ret calls.length ≠ 0 then some (-1, c, calls ++ [c.requestCall])
        else some (0, c.markProcessed, calls ++ [c.requestCall])
      else some (0, c, calls) := by
  by_cases henough : c.hasEnough = true
  · rw [processQueryBuffer_of_body henough hstate, if_pos henough,
      processQueryBuffer_of_not_hasEnough hsentinel]
  · rw [if_neg henough]
    exact processQueryBuffer_of_not_hasEnough (Bool.not_eq_true _ ▸ henough)

/-! ## The loop invariant -/

/-- The buffer starts with a complete header that the loop has taken note of. -/
structure Framed (c : TcpConnection) : Prop where
  state : c.currentState = .stateBody
  complete : XHEAD_SIZE ≤ c.querybuf.buf.length
  magic : c.head.magicNum = XHEAD_MAGIC_NUM
  expected : c.bytesExpected = c.head.bodyLen.toNat

/-- The three phases of a connection. -/
inductive Phase (c : TcpConnection) : Prop
  | head (state : c.currentState = .stateHead) (expected : c.bytesExpected = XHEAD_SIZE)
      (processed : c.bytesProcessed = 0)
  | body (framed : c.Framed) (processed : c.bytesProcessed = XHEAD_SIZE)
  | served (framed : c.Framed) (processed : c.bytesProcessed = PROCESSED_SENTINEL)

/-- The loop invariant. -/
structure Shape (c : TcpConnection) : Prop where
  wf : c.querybuf.Wf
  len_lt : c.querybuf.buf.length < 2 ^ 32
  phase : c.Phase

theorem Phase.bounds (hphase : c.Phase) :
    c.bytesExpected < 2 ^ 32 ∧ c.bytesProcessed ≤ PROCESSED_SENTINEL := by
  have hbody : c.head.bodyLen.toNat < 2 ^ 32 := c.head.bodyLen.toNat_lt
  cases hphase with
  | head state expected processed =>
      rw [expected, processed]
      decide
  | body framed processed =>
      rw [framed.expected, processed]
      exact ⟨hbody, by decide⟩
  | served framed processed =>
      rw [framed.expected, processed]
      exact ⟨hbody, le_rfl⟩

/-- The loop condition in terms of the bytes that have really arrived. A buffer
of `2 ^ 31` bytes or more always counts as enough. -/
theorem Shape.hasEnough_iff (h : c.Shape) :
    c.hasEnough = true ↔
      c.bytesExpected + c.bytesProcessed ≤ c.querybuf.buf.length ∨
        2 ^ 31 ≤ c.querybuf.buf.length := by
  obtain ⟨hexpected, hprocessed⟩ := h.phase.bounds
  have hlen := h.len_lt
  have hsum : toSize (c.bytesExpected + c.bytesProcessed) =
      c.bytesExpected + c.bytesProcessed := by
    unfold toSize PROCESSED_SENTINEL at *
    omega
  rw [hasEnough, decide_eq_true_iff, hsum]
  by_cases hsmall : c.querybuf.buf.length < 2 ^ 31
  · rw [h.wf.sdslen_eq hsmall]
    omega
  · have hhigh := h.wf.sdslen_of_high (by omega) hlen
    unfold PROCESSED_SENTINEL at hprocessed
    omega

theorem Shape.hasEnough_eq_false_iff (h : c.Shape) :
    c.hasEnough = false ↔
      c.querybuf.buf.length < c.bytesExpected + c.bytesProcessed ∧
        c.querybuf.buf.length < 2 ^ 31 := by
  rw [← Bool.not_eq_true, h.hasEnough_iff]
  omega

theorem Shape.enterBody (h : c.Shape) (henough : c.hasEnough = true)
    (hmagic : c.head.magicNum = XHEAD_MAGIC_NUM) : c.enterBody.Shape := by
  refine ⟨h.wf, h.len_lt, .body ⟨rfl, ?_, hmagic, rfl⟩ rfl⟩
  have hlarge := h.hasEnough_iff.mp henough
  have hsize : XHEAD_SIZE < 2 ^ 31 := by decide
  cases h.phase with
  | head state expected processed =>
      simp only [querybuf_enterBody]
      omega
  | body framed processed => exact framed.complete
  | served framed processed => exact framed.complete

theorem Shape.framed (h : c.Shape) (hstate : c.currentState = .stateBody) : c.Framed := by
  cases h.phase with
  | head state expected processed =>
      rw [state] at hstate
      cases hstate
  | body framed processed => exact framed
  | served framed processed => exact framed

theorem Framed.markProcessed (h : c.Framed) : c.markProcessed.Framed :=
  ⟨h.state, h.complete, h.magic, h.expected⟩

theorem Shape.markProcessed (h : c.Shape) (hstate : c.currentState = .stateBody) :
    c.markProcessed.Shape :=
  ⟨h.wf, h.len_lt, .served (h.framed hstate).markProcessed rfl⟩

/-- **Exit rule.** The loop returns zero only with its invariant intact and its
condition false. It never touches the buffer, and never leaves the body state. -/
theorem Shape.of_processQueryBuffer (h : c.Shape)
    (hresult : processQueryBuffer ret fuel c calls = some (0, next, made)) :
    next.Shape ∧ next.hasEnough = false ∧ next.querybuf = c.querybuf ∧
      (c.currentState = .stateBody →
        next.currentState = .stateBody ∧ next.bytesExpected = c.bytesExpected) := by
  induction fuel generalizing c calls with
  | zero => cases hresult
  | succ fuel ih =>
      by_cases henough : c.hasEnough = true
      · cases hstate : c.currentState with
        | stateHead =>
            by_cases hmagic : c.head.magicNum = XHEAD_MAGIC_NUM
            · rw [processQueryBuffer_of_header henough hstate hmagic] at hresult
              obtain ⟨hshape, hquiet, hbuf, -⟩ := ih (h.enterBody henough hmagic) hresult
              exact ⟨hshape, hquiet, hbuf, fun hbody => by cases hbody⟩
            · rw [processQueryBuffer_of_wrong_magic henough hstate hmagic] at hresult
              simp at hresult
        | stateBody =>
            rw [processQueryBuffer_of_body henough hstate] at hresult
            split at hresult
            · simp at hresult
            · obtain ⟨hshape, hquiet, hbuf, hstay⟩ := ih (h.markProcessed hstate) hresult
              exact ⟨hshape, hquiet, hbuf, fun _ => hstay hstate⟩
      · rw [Bool.not_eq_true] at henough
        rw [processQueryBuffer_of_not_hasEnough henough] at hresult
        simp only [Option.some.injEq, Prod.mk.injEq, true_and] at hresult
        obtain ⟨rfl, -⟩ := hresult
        exact ⟨h, henough, rfl, fun hbody => ⟨hbody, rfl⟩⟩

/-! ## The requests of a buffer -/

/-- A received buffer that does not reach the sentinel: while the header is
incomplete or wrong there is no bound, and behind a right one the buffer stays
below `body_len + 65535` and below `2 ^ 31` bytes. -/
def BelowSentinel (buf : List UInt8) : Prop :=
  XHEAD_SIZE ≤ buf.length → (XHead.ofBuffer buf).magicNum = XHEAD_MAGIC_NUM →
    buf.length < (XHead.ofBuffer buf).bodyLen.toNat + PROCESSED_SENTINEL ∧
      buf.length < 2 ^ 31

/-- A complete header with another magic number. -/
def Rejected (buf : List UInt8) : Prop :=
  XHEAD_SIZE ≤ buf.length ∧ (XHead.ofBuffer buf).magicNum ≠ XHEAD_MAGIC_NUM

/-- The buffer holds a right header and the whole body it announces. -/
def Complete (buf : List UInt8) : Prop :=
  XHEAD_SIZE + (XHead.ofBuffer buf).bodyLen.toNat ≤ buf.length ∧
    (XHead.ofBuffer buf).magicNum = XHEAD_MAGIC_NUM

instance (buf : List UInt8) : Decidable (Complete buf) :=
  inferInstanceAs (Decidable (_ ∧ _))

/-- The slices that a complete buffer is cut into. -/
def frameCall (buf : List UInt8) : RequestCall where
  header := buf.take XHEAD_SIZE
  body := fieldAt buf XHEAD_SIZE (XHead.ofBuffer buf).bodyLen.toNat

/-- The requests that a buffer has given rise to, whatever the reads it came in. -/
def requests (buf : List UInt8) : List RequestCall :=
  if Complete buf then [frameCall buf] else []

theorem requests_of_rejected {buf : List UInt8} (hrejected : Rejected buf) : requests buf = [] :=
  if_neg fun hcomplete => hrejected.2 hcomplete.2

/-- Bytes behind a complete frame do not change its request. -/
theorem Complete.append {buf : List UInt8} (hcomplete : Complete buf) (bytes : List UInt8) :
    Complete (buf ++ bytes) ∧ frameCall (buf ++ bytes) = frameCall buf := by
  obtain ⟨hlen, hmagic⟩ := hcomplete
  have hhead : XHead.ofBuffer (buf ++ bytes) = XHead.ofBuffer buf :=
    XHead.ofBuffer_append (by omega)
  constructor
  · rw [Complete, hhead, List.length_append]
    exact ⟨by omega, hmagic⟩
  · rw [frameCall, hhead, List.take_append_of_le_length (by omega), fieldAt_append_left hlen]
    rfl

/-- What has been requested so far: the frame of the buffer once the sentinel is
set, and nothing before. -/
def Tally (c : TcpConnection) (calls : List RequestCall) : Prop :=
  if c.bytesProcessed = PROCESSED_SENTINEL then
    Complete c.querybuf.buf ∧ calls = [frameCall c.querybuf.buf]
  else
    calls = []

theorem Tally.of_served (hserved : c.bytesProcessed = PROCESSED_SENTINEL)
    (hcomplete : Complete c.querybuf.buf) : c.Tally [frameCall c.querybuf.buf] := by
  rw [Tally, if_pos hserved]
  exact ⟨hcomplete, rfl⟩

theorem Tally.of_unserved (hunserved : c.bytesProcessed ≠ PROCESSED_SENTINEL) : c.Tally [] := by
  rw [Tally, if_neg hunserved]

theorem Tally.eq_nil (htally : c.Tally calls)
    (hunserved : c.bytesProcessed ≠ PROCESSED_SENTINEL) : calls = [] := by
  rwa [Tally, if_neg hunserved] at htally

/-- In the head state nothing has been requested, and the sentinel is not set. -/
theorem Shape.unserved (h : c.Shape) (hstate : c.currentState = .stateHead) :
    c.bytesProcessed ≠ PROCESSED_SENTINEL ∧ c.bytesExpected + c.bytesProcessed = XHEAD_SIZE := by
  cases h.phase with
  | head state expected processed =>
      rw [expected, processed]
      exact ⟨by decide, rfl⟩
  | body framed processed =>
      rw [framed.state] at hstate
      cases hstate
  | served framed processed =>
      rw [framed.state] at hstate
      cases hstate

/-- When the loop has nothing left to do, the requests are those of the buffer. -/
theorem Shape.tally_eq (h : c.Shape) (hquiet : c.hasEnough = false) (htally : c.Tally calls) :
    calls = requests c.querybuf.buf := by
  obtain ⟨hlen, -⟩ := h.hasEnough_eq_false_iff.mp hquiet
  by_cases hserved : c.bytesProcessed = PROCESSED_SENTINEL
  · rw [Tally, if_pos hserved] at htally
    rw [requests, if_pos htally.1]
    exact htally.2
  · rw [htally.eq_nil hserved, requests, if_neg]
    rintro ⟨hlong, -⟩
    cases h.phase with
    | head state expected processed => omega
    | body framed processed =>
        have hexpected : c.bytesExpected = (XHead.ofBuffer c.querybuf.buf).bodyLen.toNat :=
          framed.expected
        omega
    | served framed processed => exact hserved processed

/-! ## The two kinds of activation -/

/-- The sentinel stops the loop exactly on a buffer below it. -/
theorem Shape.markProcessed_hasEnough_iff (h : c.Shape) (hstate : c.currentState = .stateBody) :
    c.markProcessed.hasEnough = false ↔ BelowSentinel c.querybuf.buf := by
  have hframed := h.framed hstate
  have hexpected : c.markProcessed.bytesExpected = (XHead.ofBuffer c.querybuf.buf).bodyLen.toNat :=
    hframed.expected
  rw [(h.markProcessed hstate).hasEnough_eq_false_iff, hexpected, querybuf_markProcessed]
  constructor
  · intro hbelow _ _
    exact hbelow
  · intro hbelow
    exact hbelow hframed.complete hframed.magic

/-- How an activation on a buffer below the sentinel ends: the requests are
those of the buffer, and the connection is given up only over a wrong magic
number or a request that was not accepted. -/
def Ends (ret : ℕ → ℤ) (c : TcpConnection) (calls : List RequestCall) (code : ℤ)
    (last : TcpConnection) (made : List RequestCall) : Prop :=
  calls ++ made = requests c.querybuf.buf ∧
    (code = 0 ∧ last.Tally (calls ++ made) ∧ (made ≠ [] → ret 0 = 0) ∨
      code ≠ 0 ∧ (Rejected c.querybuf.buf ∨ made ≠ [] ∧ ret 0 ≠ 0))

/-- The loop on a framed buffer below the sentinel. -/
theorem Shape.loop_in_body (h : c.Shape) (ret : ℕ → ℤ) (hstate : c.currentState = .stateBody)
    (hbelow : BelowSentinel c.querybuf.buf) (htally : c.Tally calls) :
    ∃ code last made, (∀ fuel, processQueryBuffer ret (fuel + 2) c [] = some (code, last, made)) ∧
      c.Ends ret calls code last made := by
  have hquiet := (h.markProcessed_hasEnough_iff hstate).mpr hbelow
  have hframed := h.framed hstate
  by_cases henough : c.hasEnough = true
  · -- the sentinel is not set yet: a set one would make the condition false
    have hfirst : c.bytesProcessed ≠ PROCESSED_SENTINEL := by
      intro hset
      have hsame : c.markProcessed = c := by
        rw [TcpConnection.markProcessed, ← hset]
      rw [hsame, henough] at hquiet
      cases hquiet
    have hcalls := htally.eq_nil hfirst
    subst hcalls
    have hcomplete : Complete c.querybuf.buf := by
      refine ⟨?_, hframed.magic⟩
      have hlen := (hbelow hframed.complete hframed.magic).2
      have hlarge := h.hasEnough_iff.mp henough
      have hexpected : c.bytesExpected = (XHead.ofBuffer c.querybuf.buf).bodyLen.toNat :=
        hframed.expected
      cases h.phase with
      | head state expected processed =>
          rw [state] at hstate
          cases hstate
      | body framed processed => omega
      | served framed processed => exact absurd processed hfirst
    have hrequests : [] ++ [c.requestCall] = requests c.querybuf.buf := (if_pos hcomplete).symm
    by_cases hret : ret 0 = 0
    · refine ⟨0, c.markProcessed, [c.requestCall], fun fuel => ?_, hrequests, Or.inl ⟨rfl, ?_, ?_⟩⟩
      · rw [processQueryBuffer_in_body hstate hquiet, if_pos henough, List.length_nil,
          if_neg (not_not.mpr hret)]
        rfl
      · exact Tally.of_served rfl hcomplete
      · intro _
        exact hret
    · refine ⟨-1, c, [c.requestCall], fun fuel => ?_, hrequests,
        Or.inr ⟨by decide, Or.inr ⟨List.cons_ne_nil _ _, hret⟩⟩⟩
      rw [processQueryBuffer_in_body hstate hquiet, if_pos henough, List.length_nil, if_pos hret]
      rfl
  · refine ⟨0, c, [], fun fuel => ?_, ?_, Or.inl ⟨rfl, ?_, fun hmade => absurd rfl hmade⟩⟩
    · rw [processQueryBuffer_in_body hstate hquiet, if_neg henough]
    · rw [List.append_nil]
      exact h.tally_eq (Bool.not_eq_true _ ▸ henough) htally
    · rw [List.append_nil]
      exact htally

/-- A loop activation that returns at all takes at most this many iterations:
one for the header, one for the request, and one to find nothing left. -/
def LOOP_BOUND : ℕ := 3

/-- **The loop on a buffer below the sentinel** returns within the bound. -/
theorem Shape.loop_returns (h : c.Shape) (ret : ℕ → ℤ)
    (hbelow : BelowSentinel c.querybuf.buf) (htally : c.Tally calls) :
    ∃ code last made,
      (∀ fuel, processQueryBuffer ret (fuel + LOOP_BOUND) c [] = some (code, last, made)) ∧
        c.Ends ret calls code last made := by
  cases hstate : c.currentState with
  | stateBody =>
      obtain ⟨code, last, made, hloop, hends⟩ := h.loop_in_body ret hstate hbelow htally
      exact ⟨code, last, made, fun fuel => hloop (fuel + 1), hends⟩
  | stateHead =>
      obtain ⟨hunserved, hsum⟩ := h.unserved hstate
      have hnone := htally.eq_nil hunserved
      subst hnone
      by_cases henough : c.hasEnough = true
      · by_cases hmagic : c.head.magicNum = XHEAD_MAGIC_NUM
        · have hprocessed : c.enterBody.bytesProcessed = XHEAD_SIZE := rfl
          obtain ⟨code, last, made, hloop, hends⟩ :=
            (h.enterBody henough hmagic).loop_in_body ret rfl hbelow
              (Tally.of_unserved (by rw [hprocessed]; decide))
          refine ⟨code, last, made, fun fuel => ?_, hends⟩
          rw [show fuel + LOOP_BOUND = fuel + 2 + 1 from rfl,
            processQueryBuffer_of_header henough hstate hmagic, hloop]
        · have hrejected : Rejected c.querybuf.buf := by
            refine ⟨?_, hmagic⟩
            have hlarge := h.hasEnough_iff.mp henough
            have hsize : XHEAD_SIZE < 2 ^ 31 := by decide
            omega
          refine ⟨-1, c, [], fun fuel => ?_, ?_, Or.inr ⟨by decide, Or.inl hrejected⟩⟩
          · exact processQueryBuffer_of_wrong_magic henough hstate hmagic
          · rw [List.append_nil, requests_of_rejected hrejected]
      · refine ⟨0, c, [], fun fuel => ?_, ?_, Or.inl ⟨rfl, ?_, fun hmade => absurd rfl hmade⟩⟩
        · exact processQueryBuffer_of_not_hasEnough (Bool.not_eq_true _ ▸ henough)
        · rw [List.append_nil]
          exact h.tally_eq (Bool.not_eq_true _ ▸ henough) htally
        · rw [List.append_nil]
          exact htally

end Xrtc.Server.TcpConnection
