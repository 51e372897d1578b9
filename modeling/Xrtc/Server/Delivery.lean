/-
# Requests on the wire reach the worker

Each descriptor of a worker has a client behind it. A client either sends one
request as the Go client writes it, or something whose header carries another
magic number. The kernel hands the bytes of all clients to the worker in pieces
and in an order of its own. The theorem follows every descriptor through such a
run: a request is made once, when its last byte has arrived, with the log id and
the body that were sent, and a stranger is cut off when its header is complete.
-/

import Xrtc.Server.ConnTable

namespace Xrtc.Server

open Xrtc.Machine Xrtc.Base
open TcpConnection (LOOP_BOUND BelowSentinel Rejected Complete requests frameCall)

/-- What is on the other side of a connection. -/
inductive Client
  | request (logId : UInt32) (body : List UInt8)
  | stranger (bytes : List UInt8)

namespace Client

/-- The bytes a client sends in all. -/
def stream : Client → List UInt8
  | request logId body =>
      match (Xrpc.newRequest (some body) logId).write with
      | .ok bytes => bytes
      | .error _ => []
  | stranger bytes => bytes

/-- A body below `2 ^ 30` bytes, or a complete header with a wrong magic number. -/
def Fair : Client → Prop
  | request _ body => body.length < 2 ^ 30
  | stranger bytes => Rejected bytes

end Client

/-- A worker together with the requests made so far, each with its descriptor. -/
structure Reception where
  worker : SignalingWorker
  calls : List (ℤ × RequestCall) := []

namespace Reception

/-- One read event on a descriptor. -/
def step (fuel : ℕ) (s : Reception) (event : ℤ × ReadEvent) : Option Reception :=
  match s.worker.readConn fuel event.1 event.2 with
  | .ok (worker, made) => some ⟨worker, s.calls ++ made.map fun call => (event.1, call)⟩
  | .error _ => none

/-- The requests made on one descriptor. -/
def callsOn (s : Reception) (fd : ℤ) : List RequestCall :=
  (s.calls.filter fun call => call.1 = fd).map Prod.snd

/-- The bytes that the events bring to one descriptor. -/
def receivedOn (fd : ℤ) (events : List (ℤ × ReadEvent)) : List UInt8 :=
  ((events.filter fun event => event.1 = fd).map fun event => event.2.result.bytes).flatten

/-- The kernel answers within what was asked for, with bytes or not at all. -/
def Answered (s : Reception) (event : ℤ × ReadEvent) : Prop :=
  ∀ c, s.worker.lookup event.1 = some c →
    c.Answers event.2.result ∧ event.2.result ≠ .endOfFile ∧ event.2.result ≠ .failed

/-- What the run makes of one client's descriptor. -/
def Delivered (client : Client) (received : List UInt8) (entry : Option TcpConnection)
    (calls : List RequestCall) : Prop :=
  match client with
  | .request logId body =>
      if received = client.stream then
        calls = [⟨received.take XHEAD_SIZE, body⟩] ∧
          (XHead.ofBuffer (received.take XHEAD_SIZE)).logId = logId
      else
        calls = [] ∧ entry ≠ none
  | .stranger _ => calls = [] ∧ (entry = none ↔ XHEAD_SIZE ≤ received.length)

/-! ## One descriptor -/

/-- A stream none of whose parts reaches the sentinel or announces a body of
`2 ^ 31` bytes or more. -/
def Benign (stream : List UInt8) : Prop :=
  ∀ received, received <+: stream → BelowSentinel received ∧
    (XHEAD_SIZE ≤ received.length → (XHead.ofBuffer received).magicNum = XHEAD_MAGIC_NUM →
      (XHead.ofBuffer received).bodyLen.toNat < 2 ^ 31)

/-- A descriptor after `received`: its connection waits for more, or was closed
over a header that is wrong or a request that was not accepted. -/
def Follows (received : List UInt8) (entry : Option TcpConnection) (calls : List RequestCall) :
    Prop :=
  match entry with
  | some c => c.Waiting ∧ c.Tally calls ∧ c.querybuf.buf = received
  | none => calls = requests received ∧ (Rejected received ∨ Complete received)

variable {stream received bytes : List UInt8} {entry : Option TcpConnection}
  {calls : List RequestCall} {c : TcpConnection} {e : ReadEvent} {fuel : ℕ}

theorem Follows.calls_eq (hfollows : Follows received entry calls) : calls = requests received := by
  cases entry with
  | none => exact hfollows.1
  | some c =>
      obtain ⟨hwaiting, htally, hbuf⟩ := hfollows
      rw [hwaiting.tally_eq htally, hbuf]

/-- Bytes that come to a closed descriptor change nothing. -/
theorem Follows.append_closed (hfollows : Follows received none calls) (bytes : List UInt8) :
    Follows (received ++ bytes) none calls := by
  obtain ⟨hcalls, hrejected | hcomplete⟩ := hfollows
  · have hlater : Rejected (received ++ bytes) := by
      refine ⟨?_, ?_⟩
      · rw [List.length_append]
        exact le_trans hrejected.1 (Nat.le_add_right _ _)
      · rw [XHead.ofBuffer_append hrejected.1]
        exact hrejected.2
    refine ⟨?_, Or.inl hlater⟩
    rw [hcalls, TcpConnection.requests_of_rejected hrejected,
      TcpConnection.requests_of_rejected hlater]
  · obtain ⟨hlater, hsame⟩ := hcomplete.append bytes
    refine ⟨?_, Or.inr hlater⟩
    rw [hcalls, requests, requests, if_pos hcomplete, if_pos hlater, hsame]

/-- On a benign stream a connection never asks for `2 ^ 31` bytes. -/
theorem bytesExpected_lt (hbenign : Benign stream) (hpart : received <+: stream)
    (hwaiting : c.Waiting) (hbuf : c.querybuf.buf = received) : c.bytesExpected < 2 ^ 31 := by
  cases hstate : c.currentState with
  | stateHead =>
      obtain ⟨-, hsum⟩ := hwaiting.shape.unserved hstate
      have hsize : XHEAD_SIZE = 36 := rfl
      omega
  | stateBody =>
      have hframed := hwaiting.shape.framed hstate
      rw [hframed.expected, TcpConnection.head, hbuf]
      refine (hbenign received hpart).2 (hbuf ▸ hframed.complete) ?_
      rw [← hbuf]
      exact hframed.magic

/-- **One read on one descriptor** of a benign stream. -/
theorem Follows.read (hbenign : Benign stream) (hpart : received ++ e.result.bytes <+: stream)
    (hfollows : Follows received (some c) calls) (hanswers : c.Answers e.result)
    (hopen : e.result ≠ .endOfFile ∧ e.result ≠ .failed) (fuel : ℕ) :
    (∃ next made, c.readConn e.ret (fuel + LOOP_BOUND) e.now e.result = .kept next made ∧
        Follows (received ++ e.result.bytes) (some next) (calls ++ made)) ∨
      ∃ made, c.readConn e.ret (fuel + LOOP_BOUND) e.now e.result = .closed made ∧
        Follows (received ++ e.result.bytes) none (calls ++ made) := by
  obtain ⟨hwaiting, htally, hbuf⟩ := hfollows
  have hsmall := bytesExpected_lt hbenign ((List.prefix_append _ _).trans hpart) hwaiting hbuf
  have htame := hwaiting.tame_of_lt hsmall hanswers (by rw [hbuf]; exact (hbenign _ hpart).1)
  obtain ⟨outcome, hread, hserved⟩ := hwaiting.served_of_tame e.ret e.now htally hanswers htame
  cases hserved with
  | @kept next made waiting tally buf_eq _ =>
      exact Or.inl ⟨next, made, hread fuel, waiting, tally, by rw [buf_eq, hbuf]⟩
  | @closed made calls_eq cause =>
      rw [hbuf] at calls_eq cause
      refine Or.inr ⟨made, hread fuel, calls_eq, ?_⟩
      rcases cause with hrejected | ⟨hmade, -⟩ | hend | hend
      · exact Or.inl hrejected
      · right
        by_contra hincomplete
        rw [requests, if_neg hincomplete, List.append_eq_nil_iff] at calls_eq
        exact hmade calls_eq.2
      · exact absurd hend hopen.1
      · exact absurd hend hopen.2
  | aborted refused => exact absurd refused.1 (not_le.mpr hsmall)

/-! ## All descriptors of a worker -/

theorem receivedOn_cons (fd : ℤ) (event : ℤ × ReadEvent) (events : List (ℤ × ReadEvent)) :
    receivedOn fd (event :: events) = receivedOn fd [event] ++ receivedOn fd events := by
  simp only [receivedOn, List.filter_cons, List.filter_nil]
  split <;> simp

theorem receivedOn_self (fd : ℤ) (e : ReadEvent) : receivedOn fd [(fd, e)] = e.result.bytes := by
  simp [receivedOn]

theorem receivedOn_of_ne {fd other : ℤ} (hne : other ≠ fd) (e : ReadEvent) :
    receivedOn other [(fd, e)] = [] := by
  simp [receivedOn, hne.symm]

theorem callsOn_self (s : Reception) (fd : ℤ) (w : SignalingWorker) (made : List RequestCall) :
    callsOn ⟨w, s.calls ++ made.map fun call => (fd, call)⟩ fd = s.callsOn fd ++ made := by
  have hall : (made.map fun call => (fd, call)).filter (fun call => call.1 = fd) =
      made.map fun call => (fd, call) :=
    List.filter_eq_self.mpr (by simp)
  simp [callsOn, hall, Function.comp_def]

theorem callsOn_of_ne (s : Reception) {fd other : ℤ} (hne : other ≠ fd) (w : SignalingWorker)
    (made : List RequestCall) :
    callsOn ⟨w, s.calls ++ made.map fun call => (fd, call)⟩ other = s.callsOn other := by
  simp [callsOn, hne.symm]

/-- Every tracked descriptor follows the bytes it has received, and no other
descriptor is in the table. -/
structure Tracks (tracked : ℤ → Prop) (received : ℤ → List UInt8) (s : Reception) : Prop where
  consistent : s.worker.Consistent
  follows : ∀ fd, tracked fd → Follows (received fd) (s.worker.lookup fd) (s.callsOn fd)
  absent : ∀ fd, ¬ tracked fd → s.worker.lookup fd = none

variable {tracked : ℤ → Prop} {before : ℤ → List UInt8} {s : Reception}

/-- A step that changes one descriptor as it should, and no other. -/
theorem Tracks.of_step {fd : ℤ} {w : SignalingWorker} {made : List RequestCall}
    (htracks : Tracks tracked before s) (hconsistent : w.Consistent)
    (hself : tracked fd →
      Follows (before fd ++ e.result.bytes) (w.lookup fd) (s.callsOn fd ++ made))
    (habsent : ¬ tracked fd → w.lookup fd = none)
    (hothers : ∀ other, other ≠ fd → w.lookup other = s.worker.lookup other) :
    Tracks tracked (fun n => before n ++ receivedOn n [(fd, e)])
      ⟨w, s.calls ++ made.map fun call => (fd, call)⟩ := by
  refine ⟨hconsistent, ?_, ?_⟩
  · intro n hn
    by_cases hsame : n = fd
    · subst hsame
      simp only [receivedOn_self]
      rw [callsOn_self s n w made]
      exact hself hn
    · simp only [receivedOn_of_ne hsame, List.append_nil]
      rw [callsOn_of_ne s hsame w made, hothers n hsame]
      exact htracks.follows n hn
  · intro n hn
    by_cases hsame : n = fd
    · subst hsame
      exact habsent hn
    · rw [hothers n hsame]
      exact htracks.absent n hn

/-- **One read event of the worker** keeps every descriptor on its track. -/
theorem Tracks.step {event : ℤ × ReadEvent} {streams : ℤ → List UInt8}
    (hbenign : ∀ fd, tracked fd → Benign (streams fd)) (htracks : Tracks tracked before s)
    (hpart : ∀ fd, tracked fd → before fd ++ receivedOn fd [event] <+: streams fd)
    (hanswered : s.Answered event) (fuel : ℕ) :
    ∃ next, s.step (fuel + LOOP_BOUND) event = some next ∧
      Tracks tracked (fun fd => before fd ++ receivedOn fd [event]) next := by
  obtain ⟨fd, e⟩ := event
  cases hlookup : s.worker.lookup fd with
  | none =>
      refine ⟨⟨s.worker, s.calls ++ [].map fun call => (fd, call)⟩, ?_, ?_⟩
      · rw [Reception.step, SignalingWorker.readConn_of_lookup_none htracks.consistent hlookup]
      · refine htracks.of_step htracks.consistent ?_ (htracks.absent fd) fun _ _ => rfl
        intro hfd
        have hfollows := htracks.follows fd hfd
        rw [hlookup] at hfollows ⊢
        rw [List.append_nil]
        exact hfollows.append_closed _
  | some c =>
      have hfd : tracked fd := by
        by_contra hfd
        rw [htracks.absent fd hfd] at hlookup
        cases hlookup
      have hfollows := htracks.follows fd hfd
      rw [hlookup] at hfollows
      obtain ⟨hanswers, hopen⟩ := hanswered c hlookup
      have hpart' := hpart fd hfd
      rw [receivedOn_self] at hpart'
      obtain ⟨hkept, hclosed⟩ :=
        SignalingWorker.readConn_spec (fuel + LOOP_BOUND) e htracks.consistent hlookup
      rcases hfollows.read (hbenign fd hfd) hpart' hanswers hopen fuel with
        ⟨next, made, hread, hnext⟩ | ⟨made, hread, hnext⟩
      · obtain ⟨w, hw, hconsistent, hself, hothers⟩ := hkept next made hread
        refine ⟨⟨w, s.calls ++ made.map fun call => (fd, call)⟩, ?_, ?_⟩
        · rw [Reception.step, hw]
        · refine htracks.of_step hconsistent ?_ (absurd hfd) hothers
          intro _
          rw [hself]
          exact hnext
      · obtain ⟨w, hw, hconsistent, hself, hothers⟩ := hclosed made hread
        refine ⟨⟨w, s.calls ++ made.map fun call => (fd, call)⟩, ?_, ?_⟩
        · rw [Reception.step, hw]
        · refine htracks.of_step hconsistent ?_ (absurd hfd) hothers
          intro _
          rw [hself]
          exact hnext

/-- **A whole run** keeps every descriptor on its track. -/
theorem Tracks.run {events : List (ℤ × ReadEvent)} {streams : ℤ → List UInt8}
    (hbenign : ∀ fd, tracked fd → Benign (streams fd)) (htracks : Tracks tracked before s)
    (hpart : ∀ fd, tracked fd → before fd ++ receivedOn fd events <+: streams fd)
    (hanswered : RunMeets (Reception.step (fuel + LOOP_BOUND)) Answered s events) :
    ∃ last, Machine.run (Reception.step (fuel + LOOP_BOUND)) s events = some last ∧
      Tracks tracked (fun fd => before fd ++ receivedOn fd events) last := by
  induction events generalizing s before with
  | nil =>
      refine ⟨s, rfl, ?_⟩
      simpa [receivedOn] using htracks
  | cons event events ih =>
      have hsplit (fd : ℤ) : before fd ++ receivedOn fd (event :: events) =
          before fd ++ receivedOn fd [event] ++ receivedOn fd events := by
        rw [receivedOn_cons, List.append_assoc]
      simp only [hsplit] at hpart ⊢
      obtain ⟨next, hstep, hnext⟩ := htracks.step hbenign
        (fun fd hfd => (List.prefix_append _ _).trans (hpart fd hfd)) hanswered.1 fuel
      obtain ⟨last, hrun, hlast⟩ := ih hnext hpart (hanswered.2 next hstep)
      exact ⟨last, run_cons_eq_some.mpr ⟨next, hstep, hrun⟩, hlast⟩

/-! ## What clients send -/

theorem stream_request (logId : UInt32) {body : List UInt8} (hbody : body.length < 2 ^ 30) :
    (Client.request logId body).stream =
      (Xrpc.requestHeader logId body.length).bytes ++ body := by
  rw [Client.stream, Xrpc.newRequest_write (lt_trans hbody (by decide))]
  rfl

/-- A part of a request that has its whole header. -/
theorem request_part {logId : UInt32} {body : List UInt8} (hbody : body.length < 2 ^ 30)
    (hpart : received <+: (Client.request logId body).stream)
    (hlong : XHEAD_SIZE ≤ received.length) :
    ∃ rest, rest <+: body ∧ received = (Xrpc.requestHeader logId body.length).bytes ++ rest := by
  have hsize : Xrpc.HEADER_SIZE = XHEAD_SIZE := rfl
  have hheader : (Xrpc.requestHeader logId body.length).bytes.length ≤ received.length := by
    rw [Xrpc.Header.length_bytes, hsize]
    exact hlong
  rw [stream_request logId hbody] at hpart
  refine ⟨body.take (received.length - (Xrpc.requestHeader logId body.length).bytes.length),
    List.take_prefix _ _, ?_⟩
  rw [List.prefix_iff_eq_take, List.take_append, List.take_of_length_le hheader] at hpart
  exact hpart

/-- A part of a stranger's bytes that has the whole header is rejected. -/
theorem stranger_part {all : List UInt8} (hrejected : Rejected all) (hpart : received <+: all)
    (hlong : XHEAD_SIZE ≤ received.length) : Rejected received := by
  obtain ⟨rest, rfl⟩ := hpart
  refine ⟨hlong, ?_⟩
  rw [← XHead.ofBuffer_append hlong]
  exact hrejected.2

theorem benign_of_fair {client : Client} (hfair : client.Fair) : Benign client.stream := by
  intro received hpart
  cases client with
  | request logId body =>
      have hbody : body.length < 2 ^ 30 := hfair
      have hframe (hlong : XHEAD_SIZE ≤ received.length) : BelowSentinel received ∧
          (XHead.ofBuffer received).bodyLen.toNat < 2 ^ 31 := by
        obtain ⟨rest, hrest, rfl⟩ := request_part hbody hpart hlong
        have hlen := hrest.length_le
        have hsentinel : PROCESSED_SENTINEL = 65535 := rfl
        have hsize : XHEAD_SIZE = 36 := rfl
        refine ⟨(Session.belowSentinel_request logId (by omega) rest).mpr
          ⟨by omega, by omega⟩, ?_⟩
        rw [Xrpc.ofBuffer_requestHeader, Xrpc.toNat_bodyLen_requestHeader logId (by omega)]
        omega
      refine ⟨?_, ?_⟩
      · intro hlong
        exact (hframe hlong).1 hlong
      · intro hlong _
        exact (hframe hlong).2
  | stranger bytes =>
      have hwrong (hlong : XHEAD_SIZE ≤ received.length) :
          (XHead.ofBuffer received).magicNum ≠ XHEAD_MAGIC_NUM :=
        (stranger_part hfair hpart hlong).2
      refine ⟨?_, ?_⟩
      · intro hlong hmagic
        exact absurd hmagic (hwrong hlong)
      · intro hlong hmagic
        exact absurd hmagic (hwrong hlong)

/-- The requests of a part of a request frame. -/
theorem requests_of_part {logId : UInt32} {body : List UInt8} (hbody : body.length < 2 ^ 30)
    (hpart : received <+: (Client.request logId body).stream) :
    (Complete received ↔ received = (Client.request logId body).stream) ∧ ¬ Rejected received := by
  have hstream := stream_request logId hbody
  have hsize : Xrpc.HEADER_SIZE = XHEAD_SIZE := rfl
  have hlength : (Client.request logId body).stream.length = XHEAD_SIZE + body.length := by
    rw [hstream, List.length_append, Xrpc.Header.length_bytes, hsize]
  have hhead (hlong : XHEAD_SIZE ≤ received.length) :
      XHead.ofBuffer received = (Xrpc.requestHeader logId body.length).toXHead := by
    obtain ⟨rest, -, rfl⟩ := request_part hbody hpart hlong
    exact Xrpc.ofBuffer_requestHeader logId body.length rest
  have hbodyLen := Xrpc.toNat_bodyLen_requestHeader logId (lt_trans hbody (by decide))
  refine ⟨⟨?_, ?_⟩, ?_⟩
  · intro hcomplete
    have hlong := hcomplete.1
    rw [hhead (le_trans (Nat.le_add_right _ _) hlong), hbodyLen, ← hlength] at hlong
    exact hpart.eq_of_length_le hlong
  · intro hwhole
    have hlong : XHEAD_SIZE ≤ received.length := by
      rw [hwhole, hlength]
      exact Nat.le_add_right _ _
    refine ⟨?_, ?_⟩
    · rw [hhead hlong, hbodyLen, ← hlength, hwhole]
    · rw [hhead hlong]
      rfl
  · intro hrejected
    apply hrejected.2
    rw [hhead hrejected.1]
    rfl

/-- A descriptor that follows a part of a fair client's bytes. -/
theorem Follows.delivered {client : Client} (hfair : client.Fair)
    (hpart : received <+: client.stream) (hfollows : Follows received entry calls) :
    Delivered client received entry calls := by
  have hcalls := hfollows.calls_eq
  cases client with
  | request logId body =>
      have hbody : body.length < 2 ^ 30 := hfair
      obtain ⟨hcomplete, hright⟩ := requests_of_part hbody hpart
      unfold Delivered
      simp only
      by_cases hwhole : received = (Client.request logId body).stream
      · have hheader : ((Xrpc.requestHeader logId body.length).bytes ++ body).take XHEAD_SIZE =
            (Xrpc.requestHeader logId body.length).bytes :=
          List.take_left' (Xrpc.Header.length_bytes _)
        rw [if_pos hwhole, hcalls, requests, if_pos (hcomplete.mpr hwhole), frameCall, hwhole,
          stream_request logId hbody, Xrpc.ofBuffer_requestHeader,
          Xrpc.toNat_bodyLen_requestHeader logId (lt_trans hbody (by decide)),
          fieldAt_append_right (by rw [Xrpc.Header.length_bytes]; rfl), List.take_length,
          hheader, Xrpc.ofBuffer_bytes]
        exact ⟨rfl, rfl⟩
      · rw [if_neg hwhole]
        have hincomplete : ¬ Complete received := fun h => hwhole (hcomplete.mp h)
        refine ⟨by rw [hcalls, requests, if_neg hincomplete], ?_⟩
        rintro rfl
        exact hfollows.2.elim hright hincomplete
  | stranger bytes =>
      have hwrong (hlong : XHEAD_SIZE ≤ received.length) : Rejected received :=
        stranger_part hfair hpart hlong
      have hincomplete : ¬ Complete received := by
        intro hcomplete
        exact (hwrong (le_trans (Nat.le_add_right _ _) hcomplete.1)).2 hcomplete.2
      refine ⟨by rw [hcalls, requests, if_neg hincomplete], ?_, ?_⟩
      · rintro rfl
        exact (hfollows.2.resolve_right hincomplete).1
      · intro hlong
        cases entry with
        | none => rfl
        | some c =>
            obtain ⟨hwaiting, -, hbuf⟩ := hfollows
            refine absurd ?_ hwaiting.not_rejected
            rw [hbuf]
            exact hwrong hlong

/-- A worker all of whose connections have just been installed. -/
def Accepting (w : SignalingWorker) : Prop :=
  w.Consistent ∧ ∀ fd c, w.lookup fd = some c → ∃ now, c = SignalingWorker.fresh fd now

theorem follows_fresh (fd : ℤ) (now : ℕ) :
    Follows [] (some (SignalingWorker.fresh fd now)) [] := by
  have hprocessed : (SignalingWorker.fresh fd now).bytesProcessed = 0 := rfl
  refine ⟨⟨⟨Sds.wf_sdsempty, Nat.two_pow_pos 32, .head rfl rfl rfl⟩, rfl,
    Or.inl (Nat.two_pow_pos 31)⟩, ?_, rfl⟩
  exact TcpConnection.Tally.of_unserved (by rw [hprocessed]; decide)

/-- **Requests are delivered.** Whatever pieces the kernel cuts the clients'
bytes into, in whatever order the read events of all descriptors come and
whatever `_process_request` returns: no event faults, a request is made on its
descriptor exactly when it has been received in full, once and with its own log
id and body, and a stranger is closed exactly when its header is complete. -/
theorem run_delivers (fuel : ℕ) (w : SignalingWorker) (clients : ℤ → Client)
    (events : List (ℤ × ReadEvent)) (haccepting : Accepting w)
    (hfair : ∀ fd, w.lookup fd ≠ none → (clients fd).Fair)
    (hpart : ∀ fd, w.lookup fd ≠ none → receivedOn fd events <+: (clients fd).stream)
    (hanswered : RunMeets (step (fuel + LOOP_BOUND)) Answered { worker := w } events) :
    ∃ last, run (step (fuel + LOOP_BOUND)) { worker := w } events = some last ∧
      ∀ fd, w.lookup fd ≠ none →
        Delivered (clients fd) (receivedOn fd events) (last.worker.lookup fd)
          (last.callsOn fd) := by
  have htracks : Tracks (fun fd => w.lookup fd ≠ none) (fun _ => []) { worker := w } := by
    refine ⟨haccepting.1, ?_, ?_⟩
    · intro fd hfd
      obtain ⟨c, hc⟩ := Option.ne_none_iff_exists'.mp hfd
      obtain ⟨now, rfl⟩ := haccepting.2 fd c hc
      rw [hc]
      exact follows_fresh fd now
    · intro fd hfd
      exact not_not.mp hfd
  obtain ⟨last, hrun, hlast⟩ := htracks.run (fun fd hfd => benign_of_fair (hfair fd hfd))
    hpart hanswered
  exact ⟨last, hrun, fun fd hfd => (hlast.follows fd hfd).delivered (hfair fd hfd) (hpart fd hfd)⟩

/-- Two descriptors: a request without a body on one, and nothing yet on the other. -/
def twoEvents : List (ℤ × ReadEvent) :=
  [(5, { result := .data (Xrpc.requestHeader 9 0).bytes }), (6, { result := .wouldBlock })]

theorem run_delivers_two :
    ∃ w last, w.lookup 5 ≠ none ∧ w.lookup 6 ≠ none ∧
      run (step (0 + LOOP_BOUND)) { worker := w } twoEvents = some last ∧
      last.callsOn 5 = [⟨(Xrpc.requestHeader 9 0).bytes, []⟩] ∧ last.callsOn 6 = [] := by
  obtain ⟨w₁, -, hw₁, -, hheap₁, hself₁, hothers₁⟩ := SignalingWorker.newConn_spec
    (SignalingWorker.consistent_empty 0) (by decide : (1 : ℤ) ≤ 5) (by decide)
    (rfl : ({} : SignalingWorker).heap 100 = none) 0
  obtain ⟨w, -, hw, -, -, hself, hothers⟩ := SignalingWorker.newConn_spec hw₁
    (by decide : (1 : ℤ) ≤ 6) (by decide) (by rw [hheap₁]; rfl : w₁.heap 200 = none) 0
  have hfive : w.lookup 5 = some (SignalingWorker.fresh 5 0) := by
    rw [hothers 5 (by decide), hself₁]
  have haccepting : Accepting w := by
    refine ⟨hw, ?_⟩
    intro fd c hc
    by_cases hsix : fd = 6
    · subst hsix
      rw [hself] at hc
      exact ⟨0, (Option.some.inj hc).symm⟩
    · by_cases hfd : fd = 5
      · subst hfd
        rw [hfive] at hc
        exact ⟨0, (Option.some.inj hc).symm⟩
      · rw [hothers fd hsix, hothers₁ fd hfd, SignalingWorker.lookup] at hc
        split at hc
        · cases hc
        · simp [SignalingWorker.connAt] at hc
  have hstream : (Client.request 9 []).stream = (Xrpc.requestHeader 9 0).bytes := by
    rw [stream_request 9 (by decide), List.append_nil]
    rfl
  have hfive' : receivedOn 5 twoEvents = (Xrpc.requestHeader 9 0).bytes := by
    rw [twoEvents, receivedOn_cons, receivedOn_self, receivedOn_of_ne (by decide), List.append_nil]
    rfl
  have hothers' (fd : ℤ) (hfd : fd ≠ 5) : receivedOn fd twoEvents = [] := by
    rw [twoEvents, receivedOn_cons, receivedOn_of_ne hfd, List.nil_append]
    by_cases hsix : fd = 6
    · rw [hsix, receivedOn_self]
      rfl
    · rw [receivedOn_of_ne hsix]
  have hpart (fd : ℤ) : receivedOn fd twoEvents <+: (Client.request 9 []).stream := by
    by_cases hfd : fd = 5
    · refine ⟨[], ?_⟩
      rw [List.append_nil, hfd, hfive', hstream]
    · rw [hothers' fd hfd]
      exact List.nil_prefix
  have hanswered : RunMeets (step (0 + LOOP_BOUND)) Answered { worker := w } twoEvents := by
    refine ⟨?_, fun next _ => ⟨?_, fun _ _ => trivial⟩⟩
    · intro c hc
      rw [hfive] at hc
      cases hc
      refine ⟨⟨by decide, ?_⟩, by simp, by simp⟩
      exact le_of_eq (Xrpc.Header.length_bytes _)
    · intro c _
      exact ⟨trivial, by simp, by simp⟩
  obtain ⟨last, hrun, hlast⟩ := run_delivers 0 w (fun _ => .request 9 []) twoEvents haccepting
    (fun _ _ => by simp [Client.Fair]) (fun fd _ => hpart fd) hanswered
  refine ⟨w, last, by rw [hfive]; simp, by rw [hself]; simp, hrun, ?_, ?_⟩
  · have hdelivered := hlast 5 (by rw [hfive]; simp)
    rw [hfive', Delivered] at hdelivered
    simp only [hstream, if_true] at hdelivered
    exact hdelivered.1.trans (by decide)
  · have hdelivered := hlast 6 (by rw [hself]; simp)
    rw [hothers' 6 (by decide), Delivered] at hdelivered
    simp only [hstream] at hdelivered
    rw [if_neg (by decide)] at hdelivered
    exact hdelivered.1

end Reception

end Xrtc.Server
