/-
# The signaling server

`SignalingServer` owns the listening socket and the signaling workers. `init`
reads the configuration and creates the workers; the accept callback takes a
connection and hands its descriptor to the workers in turn, by a counter that is
an `int` and a remainder that is taken by the number of workers.

What YAML makes of the configuration file, and whether the system calls and the
workers' own initialisation succeed, are arguments.
-/

import Xrtc.Base.Socket
import Xrtc.Machine.Run

namespace Xrtc.Server

open Xrtc.Machine Xrtc.Base

structure SignalingServerOptions where
  host : String
  port : ℤ
  workerThreadNum : ℤ
  connectionTimeoutMs : ℤ
  isInt : -2 ^ 31 ≤ workerThreadNum ∧ workerThreadNum < 2 ^ 31

/-- What `init` finds. -/
structure InitEnvironment where
  /-- The options, or the text of a `YAML::Exception`; nothing for a null file name. -/
  config : Option (Except String SignalingServerOptions)
  /-- `pipe` succeeds. -/
  pipe : Bool
  /-- The result of `create_tcp_socket`. -/
  createTcpSocket : String → ℤ → ℤ
  /-- `SignalingServerWorker::init` succeeds for the worker with this id. -/
  workerInit : ℕ → Bool
  /-- `SignalingServerWorker::start` succeeds. -/
  workerStart : ℕ → Bool

/-- The members of the server, and to which worker the descriptors were handed. -/
structure SignalingServer where
  options : SignalingServerOptions
  listenFd : ℤ
  workers : List ℕ := []
  nextWorkerId : ℤ := 0
  notified : List (ℕ × ℤ) := []

/-- What the language leaves undefined in the dispatch of a connection. -/
inductive DispatchFault
  | divisionByZero
  | signedOverflow
  | outOfRange
  deriving DecidableEq

namespace SignalingServer

/-- `_create_worker`; nothing where it returns -1. -/
def createWorker (env : InitEnvironment) (s : SignalingServer) (workerId : ℕ) :
    Option SignalingServer :=
  if !env.workerInit workerId then
    none
  else if !env.workerStart workerId then
    none
  else
    some { s with workers := s.workers ++ [workerId] }

/-- `SignalingServer::init`; nothing where it returns -1. -/
def init (env : InitEnvironment) : Option SignalingServer :=
  match env.config with
  | none | some (.error _) => none
  | some (.ok options) =>
      if !env.pipe then
        none
      else
        let listenFd := env.createTcpSocket options.host options.port
        if listenFd = -1 then
          none
        else
          run (createWorker env) { options := options, listenFd := listenFd }
            (List.range options.workerThreadNum.toNat)

/-- `_dispatch_new_conn`. The counter is converted to `size_t` for the remainder,
and the remainder back to `int`. -/
def dispatchNewConn (s : SignalingServer) (fd : ℤ) : Except DispatchFault SignalingServer :=
  if s.workers.length = 0 then
    .error .divisionByZero
  else if s.nextWorkerId = 2 ^ 31 - 1 then
    .error .signedOverflow
  else
    let workerId := toInt32 ((toSize s.nextWorkerId % s.workers.length : ℕ) : ℤ)
    if workerId < 0 then
      .error .outOfRange
    else
      match s.workers[workerId.toNat]? with
      | none => .error .outOfRange
      | some worker =>
          .ok { s with
            nextWorkerId := s.nextWorkerId + 1
            notified := s.notified ++ [(worker, fd)] }

/-- The dispatch of one connection after the other. -/
def dispatchAll (s : SignalingServer) : List ℤ → Except DispatchFault SignalingServer
  | [] => .ok s
  | fd :: fds => do
      let s ← s.dispatchNewConn fd
      s.dispatchAll fds

/-- After the connections before it, the connection with the descriptor `fd` is
dispatched without a fault, to the worker whose turn it is. -/
def Dispatches (s : SignalingServer) (before : List ℤ) (fd : ℤ) : Prop :=
  ∃ prior next, s.dispatchAll before = .ok prior ∧ prior.dispatchNewConn fd = .ok next ∧
    next.notified = prior.notified ++ [(before.length % s.workers.length, fd)]

variable {env : InitEnvironment} {s next last : SignalingServer} {fd : ℤ} {fds : List ℤ}

/-- What the loop of `init` has created. -/
theorem run_createWorker {ids : List ℕ} (hrun : run (createWorker env) s ids = some last) :
    last = { s with workers := s.workers ++ ids } := by
  induction ids generalizing s with
  | nil =>
      cases hrun
      rw [List.append_nil]
  | cons workerId ids ih =>
      obtain ⟨next, hstep, hrest⟩ := run_cons_eq_some.mp hrun
      rw [createWorker] at hstep
      split at hstep
      · cases hstep
      split at hstep
      · cases hstep
      cases hstep
      rw [ih hrest]
      simp only [List.append_assoc, List.singleton_append]

/-- A server that `init` accepts has as many workers as the configuration says,
and none where it says a negative number. -/
theorem init_eq_some (hinit : init env = some s) :
    s.workers = List.range s.options.workerThreadNum.toNat ∧ s.nextWorkerId = 0 := by
  rw [init] at hinit
  split at hinit
  · cases hinit
  · cases hinit
  split at hinit
  · cases hinit
  simp only at hinit
  split at hinit
  · cases hinit
  · rw [run_createWorker hinit]
    exact ⟨List.nil_append _, rfl⟩

/-- A dispatch that goes well. -/
theorem dispatchNewConn_eq_ok (hdispatch : s.dispatchNewConn fd = .ok next) :
    s.workers.length ≠ 0 ∧ s.nextWorkerId ≠ 2 ^ 31 - 1 ∧ next.workers = s.workers ∧
      next.nextWorkerId = s.nextWorkerId + 1 := by
  rw [dispatchNewConn] at hdispatch
  split at hdispatch
  · cases hdispatch
  rename_i hworkers
  split at hdispatch
  · cases hdispatch
  rename_i hcounter
  simp only at hdispatch
  split at hdispatch
  · cases hdispatch
  split at hdispatch
  · cases hdispatch
  cases hdispatch
  exact ⟨hworkers, hcounter, rfl, rfl⟩

/-- The descriptor goes to one of the workers. -/
theorem notified_of_dispatchNewConn (hdispatch : s.dispatchNewConn fd = .ok next) :
    ∃ worker ∈ s.workers, next.notified = s.notified ++ [(worker, fd)] := by
  rw [dispatchNewConn] at hdispatch
  split at hdispatch
  · cases hdispatch
  split at hdispatch
  · cases hdispatch
  simp only at hdispatch
  split at hdispatch
  · cases hdispatch
  split at hdispatch
  · cases hdispatch
  next worker hworker =>
    cases hdispatch
    exact ⟨worker, List.mem_of_getElem? hworker, rfl⟩

theorem dispatchAll_eq_ok (hmax : s.nextWorkerId ≤ 2 ^ 31 - 1)
    (hdispatch : s.dispatchAll fds = .ok last) :
    last.workers = s.workers ∧ last.nextWorkerId = s.nextWorkerId + fds.length ∧
      last.nextWorkerId ≤ 2 ^ 31 - 1 := by
  induction fds generalizing s with
  | nil =>
      cases hdispatch
      exact ⟨rfl, (add_zero _).symm, hmax⟩
  | cons fd fds ih =>
      rw [dispatchAll] at hdispatch
      cases hnext : s.dispatchNewConn fd with
      | error fault =>
          rw [hnext] at hdispatch
          cases hdispatch
      | ok next =>
          rw [hnext] at hdispatch
          obtain ⟨-, hcounter, hworkers, hid⟩ := dispatchNewConn_eq_ok hnext
          obtain ⟨hlast, hlastId, hlastMax⟩ := ih (s := next) (by omega) hdispatch
          refine ⟨hlast.trans hworkers, ?_, hlastMax⟩
          rw [hlastId, hid, List.length_cons]
          push_cast
          omega

/-- **One dispatch** while the counter is in range. -/
theorem dispatchNewConn_of_lt {n k : ℕ} (hworkers : s.workers = List.range n) (hpos : 0 < n)
    (hn : n < 2 ^ 31) (hcounter : s.nextWorkerId = k) (hk : k < 2 ^ 31 - 1) :
    s.dispatchNewConn fd =
      .ok { s with nextWorkerId := k + 1, notified := s.notified ++ [(k % n, fd)] } := by
  have hlength : s.workers.length = n := by rw [hworkers, List.length_range]
  have hsize : toSize (k : ℤ) = k := by
    rw [toSize_of_nonneg (by omega) (by omega), Int.toNat_natCast]
  have hmod : k % n < n := Nat.mod_lt _ hpos
  have hid : toInt32 ((k % n : ℕ) : ℤ) = (k % n : ℕ) := toInt32_of_range (by omega) (by omega)
  have hworker : s.workers[k % n]? = some (k % n) := by
    rw [hworkers, List.getElem?_range hmod]
  rw [dispatchNewConn, if_neg (by omega), if_neg (by omega)]
  simp only [hcounter, hsize, hlength, hid, Int.toNat_natCast, hworker]
  rw [if_neg (by omega)]

theorem dispatchAll_of_lt {n k : ℕ} (hworkers : s.workers = List.range n) (hpos : 0 < n)
    (hn : n < 2 ^ 31) (hcounter : s.nextWorkerId = k) (hk : k + fds.length < 2 ^ 31) :
    ∃ last, s.dispatchAll fds = .ok last := by
  induction fds generalizing s k with
  | nil => exact ⟨s, rfl⟩
  | cons fd fds ih =>
      rw [List.length_cons] at hk
      have hnext := @dispatchNewConn_of_lt s fd n k hworkers hpos hn hcounter (by omega)
      rw [dispatchAll, hnext]
      exact ih (k := k + 1) hworkers (by push_cast; rfl) (by omega)

/-- **The connections go round**: after the server was accepted by `init`, a
connection is dispatched without a fault and in turn if and only if there is a
worker and fewer than `2 ^ 31 - 1` connections came before it. -/
theorem dispatches_iff (env : InitEnvironment) (s : SignalingServer) (hinit : init env = some s)
    (before : List ℤ) (fd : ℤ) :
    s.Dispatches before fd ↔ 1 ≤ s.options.workerThreadNum ∧ before.length < 2 ^ 31 - 1 := by
  obtain ⟨hworkers, hcounter⟩ := init_eq_some hinit
  have hint := s.options.isInt
  have hlength : s.workers.length = s.options.workerThreadNum.toNat := by
    rw [hworkers, List.length_range]
  constructor
  · rintro ⟨prior, next, hbefore, hdispatch, -⟩
    obtain ⟨hprior, hpriorId, hmax⟩ := dispatchAll_eq_ok (by omega) hbefore
    obtain ⟨hsome, hid, -, -⟩ := dispatchNewConn_eq_ok hdispatch
    rw [hprior, hlength] at hsome
    omega
  · rintro ⟨hsome, hfew⟩
    have hpos : 0 < s.options.workerThreadNum.toNat := by omega
    have hfits : s.options.workerThreadNum.toNat < 2 ^ 31 := by omega
    obtain ⟨prior, hbefore⟩ := @dispatchAll_of_lt s before _ 0 hworkers hpos hfits hcounter (by omega)
    obtain ⟨hprior, hpriorId, -⟩ := dispatchAll_eq_ok (by omega) hbefore
    have hdispatch := @dispatchNewConn_of_lt prior fd _ before.length (hprior.trans hworkers) hpos
      hfits (by omega) hfew
    refine ⟨prior, _, hbefore, hdispatch, ?_⟩
    rw [hlength]

/-- Everything succeeds, with this many workers. -/
def allWell (workerNum : ℤ) (hint : -2 ^ 31 ≤ workerNum ∧ workerNum < 2 ^ 31) :
    InitEnvironment where
  config := some (.ok ⟨"127.0.0.1", 9000, workerNum, 5000000, hint⟩)
  pipe := true
  createTcpSocket _ _ := 6
  workerInit _ := true
  workerStart _ := true

theorem dispatches_iff_twoWorkers :
    ∃ s, init (allWell 2 (by decide)) = some s ∧ s.Dispatches [7, 8, 9] 10 := by
  refine ⟨_, rfl, ?_⟩
  exact (dispatches_iff (allWell 2 (by decide)) _ rfl [7, 8, 9] 10).mpr (by decide)

/-- A configuration without workers is accepted, and the first connection divides
by zero. With two workers the connection number `2 ^ 31 - 1` overflows the counter. -/
theorem badTurns_not_dispatched :
    (∃ s, init (allWell 0 (by decide)) = some s ∧ ¬ s.Dispatches [] 7) ∧
    ∃ s, init (allWell 2 (by decide)) = some s ∧
      ¬ s.Dispatches (List.replicate (2 ^ 31 - 1) 7) 7 := by
  refine ⟨⟨_, rfl, ?_⟩, _, rfl, ?_⟩
  · rintro ⟨prior, next, hbefore, hdispatch, -⟩
    cases hbefore
    exact (dispatchNewConn_eq_ok hdispatch).1 rfl
  · rintro ⟨prior, next, hbefore, hdispatch, -⟩
    obtain ⟨-, hid, -⟩ := dispatchAll_eq_ok (by decide) hbefore
    rw [List.length_replicate] at hid
    exact (dispatchNewConn_eq_ok hdispatch).2.1 hid

end SignalingServer

/-! ## The accept callback -/

/-- `EBADF`, the answer to a call on a descriptor that was closed. -/
def EBADF : ℕ := 9

/-- The listening socket, and what the calls of `generic_accept` have returned. -/
structure Listener where
  sockOpen : Bool := true
  returned : List ℤ := []
  deriving DecidableEq

namespace Listener

/-- One accept event, with what the kernel answers while the socket is open.
Nothing where `generic_accept` goes on after `fuel` rounds. -/
def acceptNewConn (fuel : ℕ) (x : Listener) (answer : AcceptResult) : Option Listener :=
  (tcpAccept fuel (if x.sockOpen then answer else .failed EBADF)).map fun ret =>
    { sockOpen := x.sockOpen && !ret.closed
      returned := x.returned ++ [ret.cfd] }

/-- Every call of `generic_accept` for these answers returns, returns a descriptor
only where `accept` has produced it in that call, and leaves the socket open. -/
def Reliable (answers : List AcceptResult) : Prop :=
  ∃ fuel last, run (acceptNewConn fuel) {} answers = some last ∧ last.sockOpen = true ∧
    List.Forall₂ (fun cfd answer => cfd ≠ -1 → answer = .accepted cfd.toNat) last.returned answers

variable {x y last : Listener} {fuel : ℕ} {answer : AcceptResult} {answers : List AcceptResult}

/-- A socket that was closed stays closed. -/
theorem sockOpen_of_acceptNewConn (hevent : x.acceptNewConn fuel answer = some y)
    (hopen : y.sockOpen = true) : x.sockOpen = true := by
  obtain ⟨ret, -, rfl⟩ := Option.map_eq_some_iff.mp hevent
  exact (Bool.and_eq_true_iff.mp hopen).1

theorem sockOpen_of_run (hrun : run (acceptNewConn fuel) x answers = some last)
    (hopen : last.sockOpen = true) : x.sockOpen = true := by
  induction answers generalizing x with
  | nil =>
      cases hrun
      exact hopen
  | cons answer answers ih =>
      obtain ⟨next, hevent, hrest⟩ := run_cons_eq_some.mp hrun
      exact sockOpen_of_acceptNewConn hevent (ih hrest)

/-- **One event** that returns and leaves the socket open has accepted a connection. -/
theorem accepted_of_acceptNewConn (hopen : x.sockOpen = true)
    (hevent : x.acceptNewConn fuel answer = some y) (hkept : y.sockOpen = true) :
    ∃ cfd, answer = .accepted cfd := by
  cases fuel with
  | zero => cases hevent
  | succ fuel =>
      rw [acceptNewConn, hopen, if_pos rfl, tcpAccept] at hevent
      cases answer with
      | accepted cfd => exact ⟨cfd, rfl⟩
      | wouldBlock =>
          rw [genericAccept_wouldBlock] at hevent
          cases hevent
      | failed errno =>
          rw [genericAccept_failed] at hevent
          cases hevent
          cases hkept

theorem accepted_of_run (hrun : run (acceptNewConn fuel) x answers = some last)
    (hopen : last.sockOpen = true) : ∀ answer ∈ answers, ∃ cfd, answer = .accepted cfd := by
  induction answers generalizing x with
  | nil =>
      intro answer hanswer
      cases hanswer
  | cons answer answers ih =>
      obtain ⟨next, hevent, hrest⟩ := run_cons_eq_some.mp hrun
      have hnext := sockOpen_of_run hrest hopen
      rw [List.forall_mem_cons]
      exact ⟨accepted_of_acceptNewConn (sockOpen_of_acceptNewConn hevent hnext) hevent hnext,
        ih hrest⟩

/-- Accepted connections are returned, one by one. -/
theorem run_accepted (haccepted : ∀ answer ∈ answers, ∃ cfd, answer = .accepted cfd)
    (hopen : x.sockOpen = true) :
    ∃ cfds, run (acceptNewConn 1) x answers = some ⟨true, x.returned ++ cfds⟩ ∧
      List.Forall₂ (fun cfd answer => cfd ≠ -1 → answer = .accepted cfd.toNat) cfds answers := by
  induction answers generalizing x with
  | nil =>
      obtain ⟨sockOpen, returned⟩ := x
      cases hopen
      exact ⟨[], by rw [run_nil, List.append_nil], .nil⟩
  | cons answer answers ih =>
      obtain ⟨⟨cfd, rfl⟩, hrest⟩ := List.forall_mem_cons.mp haccepted
      have hevent : x.acceptNewConn 1 (.accepted cfd) = some ⟨true, x.returned ++ [(cfd : ℤ)]⟩ := by
        rw [acceptNewConn, hopen]
        rfl
      obtain ⟨cfds, hrun, hcfds⟩ := @ih ⟨true, x.returned ++ [(cfd : ℤ)]⟩ hrest rfl
      refine ⟨cfd :: cfds, ?_, .cons ?_ hcfds⟩
      · rw [run_cons, hevent, Option.bind_some, hrun, List.append_assoc, List.singleton_append]
      · intro _
        rw [Int.toNat_natCast]

/-- **The listening socket survives** a sequence of accept events, with every call
returning what it should, if and only if no event of it is answered by an error. -/
theorem reliable_iff (answers : List AcceptResult) :
    Reliable answers ↔ ∀ answer ∈ answers, ∃ cfd, answer = .accepted cfd := by
  constructor
  · rintro ⟨fuel, last, hrun, hopen, -⟩
    exact accepted_of_run hrun hopen
  · intro haccepted
    obtain ⟨cfds, hrun, hcfds⟩ := @run_accepted {} answers haccepted rfl
    exact ⟨1, _, hrun, rfl, hcfds⟩

/-- A connection that was aborted before it could be accepted makes `generic_accept`
wait for ever, and one for which there is no descriptor closes the socket. -/
theorem transient_not_reliable :
    ¬ Reliable [.wouldBlock] ∧ ¬ Reliable [.failed 24, .accepted 7] := by
  constructor
  · rintro ⟨fuel, last, hrun, hopen, -⟩
    obtain ⟨cfd, hcfd⟩ := accepted_of_run hrun hopen _ (List.mem_singleton_self _)
    cases hcfd
  · rintro ⟨fuel, last, hrun, hopen, -⟩
    obtain ⟨cfd, hcfd⟩ := accepted_of_run hrun hopen _ List.mem_cons_self
    cases hcfd

end Listener

end Xrtc.Server
