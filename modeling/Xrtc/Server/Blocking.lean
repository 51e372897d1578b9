/-
# Three pipes in a circle

The pipes between the threads are blocking ones. A signaling worker notifies the
RTC server, the server an RTC worker, and that worker the signaling worker. Each
of them reads from its own pipe only between two callbacks, so a thread that is
stuck in a write reads nothing, and the three of them can wait for each other.

Here a pipe holds at most `capacity` notifications, and a thread that is inside
`notify` on a full one does not move. The notifications that are under way, in a
pipe or in the hands of a busy thread, grow by nothing but a push request and a
new connection. As long as none of these comes while `3 * capacity + 2` are under
way, the circle never closes.
-/

import Xrtc.Server.Pipeline

namespace Xrtc.Server.Pipeline

open Xrtc.Machine Xrtc.Base

/-- One signaling worker and one RTC worker. -/
def threeThreads (options : RtcServerOptions) : PipelineConfig := ⟨1, 1, options⟩

/-- The pipe holds as many notifications as it can. -/
def Full (capacity : ℕ) (m : Mailbox Parcel) : Prop := capacity ≤ m.pipe.length

instance (capacity : ℕ) (m : Mailbox Parcel) : Decidable (Full capacity m) :=
  inferInstanceAs (Decidable (_ ≤ _))

/-- The signaling worker is inside `RtcServer::notify` and cannot go on. -/
def SignalingBlocked (capacity : ℕ) (x : Pipeline) (s : ℕ) : Prop :=
  x.signalingPc s = .sending ∧ Full capacity x.server

/-- The server is inside `RtcWorker::notify` and cannot go on. -/
def ServerBlocked (capacity : ℕ) (x : Pipeline) : Prop :=
  ∃ w, x.serverPc = .pushed w ∧ Full capacity (x.worker w)

/-- The RTC worker is inside `SignalingServerWorker::notify` and cannot go on. -/
def WorkerBlocked (capacity : ℕ) (x : Pipeline) (w : ℕ) : Prop :=
  ∃ s, x.workerPc w = .pushed s ∧ Full capacity (x.signaling s)

instance (capacity : ℕ) (x : Pipeline) (s : ℕ) : Decidable (x.SignalingBlocked capacity s) :=
  inferInstanceAs (Decidable (_ ∧ _))

instance (capacity : ℕ) (x : Pipeline) : Decidable (x.ServerBlocked capacity) :=
  match hpc : x.serverPc with
  | .pushed w => decidable_of_iff (Full capacity (x.worker w)) (by simp [ServerBlocked, hpc])
  | .idle | .notified | .popped _ | .passed _ _ => isFalse (by simp [ServerBlocked, hpc])

instance (capacity : ℕ) (x : Pipeline) (w : ℕ) : Decidable (x.WorkerBlocked capacity w) :=
  match hpc : x.workerPc w with
  | .pushed s => decidable_of_iff (Full capacity (x.signaling s)) (by simp [WorkerBlocked, hpc])
  | .idle | .notified | .popped _ | .made _ => isFalse (by simp [WorkerBlocked, hpc])

/-- The action is a write to a full pipe. -/
def Blocks (capacity : ℕ) (x : Pipeline) : PipelineAction → Prop
  | .send _ _ _ _ _ | .close _ _ => False
  | .newConn s => Full capacity (x.signaling s)
  | .signaling s => x.SignalingBlocked capacity s
  | .server _ => x.ServerBlocked capacity
  | .worker w _ => x.WorkerBlocked capacity w

instance (capacity : ℕ) (x : Pipeline) : DecidablePred (x.Blocks capacity)
  | .send _ _ _ _ _ | .close _ _ => inferInstanceAs (Decidable False)
  | .newConn s => inferInstanceAs (Decidable (Full capacity (x.signaling s)))
  | .signaling s => inferInstanceAs (Decidable (x.SignalingBlocked capacity s))
  | .server _ => inferInstanceAs (Decidable (x.ServerBlocked capacity))
  | .worker w _ => inferInstanceAs (Decidable (x.WorkerBlocked capacity w))

/-- A step with blocking pipes. -/
def blockingStep (capacity : ℕ) (cfg : PipelineConfig) (x : Pipeline) (action : PipelineAction) :
    Option Pipeline :=
  if x.Blocks capacity action then none else x.step cfg action

/-- All three threads are blocked inside `notify`, each by the next. -/
def Deadlocked (capacity : ℕ) (x : Pipeline) : Prop :=
  x.SignalingBlocked capacity 0 ∧ (x.serverPc = .pushed 0 ∧ Full capacity (x.worker 0)) ∧
    x.workerPc 0 = .pushed 0 ∧ Full capacity (x.signaling 0)

instance (capacity : ℕ) (x : Pipeline) : Decidable (x.Deadlocked capacity) :=
  inferInstanceAs (Decidable (_ ∧ (_ ∧ _) ∧ _ ∧ _))

/-- The notifications that a signaling worker is writing. -/
def heldBySignaling : SignalingPc → ℕ
  | .sending => 1
  | .idle | .notified | .popped _ => 0

/-- The notifications that the server has taken and may still pass on. -/
def heldByServer : ServerPc → ℕ
  | .idle => 0
  | .notified | .popped _ | .passed _ _ | .pushed _ => 1

/-- The notifications that an RTC worker has taken and may still pass on. -/
def heldByWorker : WorkerPc → ℕ
  | .idle => 0
  | .notified | .popped _ | .made _ | .pushed _ => 1

/-- The notifications under way, in the three pipes and with the three threads. -/
def underWay (x : Pipeline) : ℕ :=
  x.server.pipe.length + (x.worker 0).pipe.length + (x.signaling 0).pipe.length +
    heldBySignaling (x.signalingPc 0) + heldByServer x.serverPc + heldByWorker (x.workerPc 0)

/-- The condition on a step: no push request and no new connection comes while
`3 * capacity + 2` notifications are under way. -/
def Spacious (capacity : ℕ) (x : Pipeline) : PipelineAction → Prop
  | .send _ _ _ _ _ | .newConn _ => x.underWay < 3 * capacity + 2
  | .close _ _ | .signaling _ | .server _ | .worker _ _ => True

instance (capacity : ℕ) (x : Pipeline) : DecidablePred (x.Spacious capacity)
  | .send _ _ _ _ _ | .newConn _ => inferInstanceAs (Decidable (_ < _))
  | .close _ _ | .signaling _ | .server _ | .worker _ _ => inferInstanceAs (Decidable True)

variable {capacity : ℕ} {options : RtcServerOptions} {x y : Pipeline} {action : PipelineAction}

theorem Deadlocked.underWay_ge (hdead : x.Deadlocked capacity) :
    3 * capacity + 3 ≤ x.underWay := by
  obtain ⟨⟨hsending, hserver⟩, ⟨hserverPc, hworker⟩, hworkerPc, hsignaling⟩ := hdead
  unfold Full at hserver hworker hsignaling
  rw [underWay, hsending, hserverPc, hworkerPc]
  simp only [heldBySignaling, heldByServer, heldByWorker]
  omega

/-- What an action can add. -/
def arrivals : PipelineAction → ℕ
  | .send _ _ _ _ _ | .newConn _ => 1
  | .close _ _ | .signaling _ | .server _ | .worker _ _ => 0

/-- A push puts nothing into any pipe. -/
theorem pipe_update_push (boxes : ℕ → Mailbox Parcel) (i n : ℕ) (p : Parcel) :
    (Function.update boxes i ((boxes i).push p) n).pipe = (boxes n).pipe := by
  by_cases hn : n = i
  · subst hn
    rw [Function.update_self]
    rfl
  · rw [Function.update_of_ne hn]

/-- A notification puts one token into one pipe. -/
theorem length_pipe_update_notify (boxes : ℕ → Mailbox Parcel) (i n : ℕ) :
    (Function.update boxes i ((boxes i).notify .item) n).pipe.length ≤
      (boxes n).pipe.length + 1 := by
  by_cases hn : n = i
  · subst hn
    simp [Mailbox.notify]
  · simp [Function.update_of_ne hn]

/-- A step of the signaling worker, seen from its pipe and its thread. -/
theorem underWay_setSignaling {pc : SignalingPc} {m : Mailbox Parcel}
    (hcount : m.pipe.length + heldBySignaling pc ≤
      (x.signaling 0).pipe.length + heldBySignaling (x.signalingPc 0)) :
    (x.setSignaling 0 pc m).underWay ≤ x.underWay := by
  simp only [underWay, setSignaling, Function.update_self]
  omega

theorem underWay_setServer {pc : ServerPc} {m : Mailbox Parcel}
    (hcount : m.pipe.length + heldByServer pc ≤
      x.server.pipe.length + heldByServer x.serverPc) :
    (x.setServer pc m).underWay ≤ x.underWay := by
  simp only [underWay, setServer]
  omega

theorem underWay_setWorker {pc : WorkerPc} {m : Mailbox Parcel}
    (hcount : m.pipe.length + heldByWorker pc ≤
      (x.worker 0).pipe.length + heldByWorker (x.workerPc 0)) :
    (x.setWorker 0 pc m).underWay ≤ x.underWay := by
  simp only [underWay, setWorker, Function.update_self]
  omega

/-- **One step** adds a notification only where a request or a connection comes. -/
theorem underWay_move (hmove : Move (threeThreads options) x action y) :
    y.underWay ≤ x.underWay + arrivals action := by
  have hzero {n : ℕ} (hn : n < 1) : n = 0 := by omega
  cases hmove with
  | @send s addr fd root logId hs hpc =>
      obtain rfl := hzero hs
      simp only [underWay, send, setSignaling, Function.update_self, Mailbox.push, arrivals, hpc,
        heldBySignaling]
      omega
  | @newConn s hs =>
      obtain rfl := hzero hs
      simp only [underWay, setSignaling, Function.update_self, Mailbox.notify, List.length_append,
        List.length_singleton, arrivals]
      omega
  | close hs hpc => exact le_rfl
  | @notifyServer s hs hpc =>
      obtain rfl := hzero hs
      simp only [underWay, notifyServer, setSignaling, Function.update_self, Mailbox.notify,
        List.length_append, List.length_singleton, hpc, heldBySignaling]
      omega
  | @signalingSkip s notices hs hpc hpipe | @signalingRead s notices hs hpc hpipe =>
      obtain rfl := hzero hs
      apply underWay_setSignaling
      simp [hpc, hpipe, heldBySignaling]
  | @signalingMiss s hs hpc hqueue =>
      obtain rfl := hzero hs
      refine @underWay_setSignaling x .idle (x.signaling 0) ?_
      simp [hpc, heldBySignaling]
  | @signalingPop s p rest hs hpc hqueue =>
      obtain rfl := hzero hs
      apply underWay_setSignaling
      simp [hpc, heldBySignaling]
  | @respond s p hs hpc hcmdno | @signalingDrop s p hs hpc hcmdno =>
      obtain rfl := hzero hs
      refine @underWay_setSignaling x .idle (x.signaling 0) ?_
      simp [hpc, heldBySignaling]
  | serverSkip hpc hpipe | serverRead hpc hpipe =>
      apply underWay_setServer
      simp [hpc, hpipe, heldByServer]
  | serverMiss hpc hqueue =>
      refine @underWay_setServer x .idle x.server ?_
      simp [hpc, heldByServer]
  | serverPop hpc hqueue =>
      apply underWay_setServer
      simp [hpc, heldByServer]
  | @accept certificate w p hpc hroute =>
      refine @underWay_setServer x (.passed w { p with certificate := some certificate }) x.server ?_
      simp [hpc, heldByServer]
  | reject hpc hfailed =>
      refine @underWay_setServer x .idle x.server ?_
      simp [hpc, heldByServer]
  | @handOver certificate w p hpc =>
      simp only [underWay, handOver, pipe_update_push, hpc, heldByServer]
      exact le_rfl
  | @notifyWorker certificate w hpc =>
      have hpipe := length_pipe_update_notify x.worker w 0
      simp only [underWay, notifyWorker, hpc, heldByServer]
      omega
  | @workerSkip w offer notices hw hpc hpipe | @workerRead w offer notices hw hpc hpipe =>
      obtain rfl := hzero hw
      apply underWay_setWorker
      simp [hpc, hpipe, heldByWorker]
  | @workerMiss w offer hw hpc hqueue =>
      obtain rfl := hzero hw
      refine @underWay_setWorker x .idle (x.worker 0) ?_
      simp [hpc, heldByWorker]
  | @workerPop w offer p rest hw hpc hqueue =>
      obtain rfl := hzero hw
      apply underWay_setWorker
      simp [hpc, heldByWorker]
  | @make w offer p hw hpc hcmdno =>
      obtain rfl := hzero hw
      refine @underWay_setWorker x (.made { p with sdp := offer }) (x.worker 0) ?_
      simp [hpc, heldByWorker]
  | @workerDrop w offer p hw hpc hcmdno =>
      obtain rfl := hzero hw
      refine @underWay_setWorker x .idle (x.worker 0) ?_
      simp [hpc, heldByWorker]
  | @discard w offer p hw hpc howner =>
      obtain rfl := hzero hw
      refine @underWay_setWorker x .idle (x.worker 0) ?_
      simp [hpc, heldByWorker]
  | @giveBack w offer p s hw hpc howner =>
      obtain rfl := hzero hw
      simp only [underWay, giveBack, setWorker, Function.update_self, pipe_update_push, hpc,
        heldByWorker]
      exact le_rfl
  | @notifySignaling w offer s hw hpc =>
      obtain rfl := hzero hw
      have hpipe := length_pipe_update_notify x.signaling s 0
      simp only [underWay, notifySignaling, setWorker, Function.update_self, hpc, heldByWorker]
      omega

theorem move_of_blockingStep {cfg : PipelineConfig}
    (hstep : x.blockingStep capacity cfg action = some y) : Move cfg x action y := by
  rw [blockingStep] at hstep
  split at hstep
  · cases hstep
  · exact step_move hstep

/-- **The circle does not close**, in every run in which no push request and no
new connection comes while `3 * capacity + 2` notifications are under way. -/
theorem run_not_deadlocked (capacity : ℕ) (options : RtcServerOptions)
    (actions : List PipelineAction) (last : Pipeline)
    (hspacious : RunMeets (blockingStep capacity (threeThreads options)) (Spacious capacity) {}
      actions)
    (hrun : run (blockingStep capacity (threeThreads options)) {} actions = some last) :
    ¬ last.Deadlocked capacity := by
  have hfew : last.underWay < 3 * capacity + 3 := by
    refine run_preserves_of_meets (fun x => x.underWay < 3 * capacity + 3) ?_
      (Nat.succ_pos _) hspacious hrun
    intro x y action hx hguard hstep
    have hgrows := underWay_move (move_of_blockingStep hstep)
    cases action with
    | send _ _ _ _ _ | newConn _ =>
        have hroom : x.underWay < 3 * capacity + 2 := hguard
        exact lt_of_le_of_lt hgrows (Nat.succ_lt_succ hroom)
    | close _ _ | signaling _ | server _ | worker _ _ => exact lt_of_le_of_lt hgrows hx
  intro hdead
  exact absurd hdead.underWay_ge (not_le.mpr hfew)

/-- `worker_num` is one. -/
def oneWorker : RtcServerOptions := ⟨1, RtcServerOptions.isInt_one⟩

/-- A push request is sent, and goes as many steps through the server and the RTC
worker as given. -/
def pushed (server worker : ℕ) : List PipelineAction :=
  [.send 0 100 5 ⟨1, [97], 1, 1⟩ 9, .signaling 0] ++ List.replicate server (.server (some 7)) ++
    List.replicate worker (.worker 0 [118])

theorem run_not_deadlocked_twice :
    ∃ last, run (blockingStep 1 (threeThreads oneWorker)) {} (pushed 5 5 ++ pushed 5 4) =
        some last ∧
      last.WorkerBlocked 1 0 ∧ ¬ last.Deadlocked 1 := by
  have hblocked : (run (blockingStep 1 (threeThreads oneWorker)) {} (pushed 5 5 ++ pushed 5 4)).map
      (fun last => decide (last.WorkerBlocked 1 0)) = some true := by decide +kernel
  obtain ⟨last, hrun, hlast⟩ := Option.map_eq_some_iff.mp hblocked
  refine ⟨last, hrun, of_decide_eq_true hlast, ?_⟩
  exact run_not_deadlocked 1 oneWorker _ last (by decide +kernel) hrun

/-- Six requests on pipes that hold one notification each, while the signaling
worker serves its connections and does not read its pipe. -/
def sixRequests : List PipelineAction :=
  pushed 5 5 ++ pushed 5 4 ++ pushed 5 0 ++ pushed 4 0 ++ pushed 0 0 ++
    [.send 0 100 5 ⟨1, [97], 1, 1⟩ 9]

/-- They close the circle. -/
theorem sixRequests_deadlocked :
    ∃ last, run (blockingStep 1 (threeThreads oneWorker)) {} sixRequests = some last ∧
      last.Deadlocked 1 := by
  have hdead : (run (blockingStep 1 (threeThreads oneWorker)) {} sixRequests).map
      (fun last => decide (last.Deadlocked 1)) = some true := by decide +kernel
  obtain ⟨last, hrun, hlast⟩ := Option.map_eq_some_iff.mp hdead
  exact ⟨last, hrun, of_decide_eq_true hlast⟩

end Xrtc.Server.Pipeline
