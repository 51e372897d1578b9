/-
# No message is lost, doubled or misrouted

What has happened to the messages and where the others are is one list for every
thread: what it is done with, what it holds, what waits in its queue and what is
about to be put there. A step moves the boundary inside such a list and leaves
the list itself alone; only a new message makes one longer. So the list of the
server is what entered, the list of an RTC worker is the part of the accepted
messages whose stream names select it, and the list of a signaling worker is,
RTC worker by RTC worker, the part of what was processed that belongs to it.
-/

import Xrtc.Server.Tokens

namespace Xrtc.Server

open Xrtc.Machine Xrtc.Base

/-- The message that the server holds and has not checked yet. -/
def ServerPc.held : ServerPc → List Label
  | .popped p => [p.label]
  | _ => []

/-- The message that the server is about to put into the queue of worker `w`. -/
def ServerPc.passedTo (w : ℕ) : ServerPc → List Label
  | .passed w' p => if w' = w then [p.label] else []
  | _ => []

def WorkerPc.held : WorkerPc → List Label
  | .popped p => [p.label]
  | _ => []

/-- The message that a worker has processed and not given back yet. -/
def WorkerPc.finished : WorkerPc → List Parcel
  | .made p => [p]
  | _ => []

def SignalingPc.held : SignalingPc → List Parcel
  | .popped p => [p]
  | _ => []

namespace Pipeline

variable {cfg : PipelineConfig} {x y : Pipeline} {action : PipelineAction}

/-- What the server has checked, holds and has in its queue. -/
def serverTrail (x : Pipeline) : List Label :=
  x.checked.map Prod.fst ++ (x.serverPc.held ++ x.server.queue.map Parcel.label)

/-- What the server has found a certificate and a worker for. -/
def accepted (x : Pipeline) : List Label := (x.checked.filter Prod.snd).map Prod.fst

/-- What worker `w` has processed, holds, has in its queue and is about to get. -/
def workerTrail (x : Pipeline) (w : ℕ) : List Label :=
  (x.processed w).map Parcel.label ++
    ((x.workerPc w).held ++ (x.worker w).queue.map Parcel.label) ++ x.serverPc.passedTo w

/-- What signaling worker `s` has responded to, holds and has in its queue. -/
def signalingTrail (x : Pipeline) (s : ℕ) : List Parcel :=
  x.responded s ++ ((x.signalingPc s).held ++ (x.signaling s).queue)

/-- The message came from `_process_push` of one of the signaling workers. -/
structure IsPush (cfg : PipelineConfig) (label : Label) : Prop where
  cmdno : label.request.cmdno = CMDNO_PUSH
  errNo : label.request.errNo = 0
  owner : ∃ s < cfg.signalingNum, label.request.worker = some s

/-- Belongs to signaling worker `s`. -/
def ownedBy (s : ℕ) (p : Parcel) : Bool := p.label.request.worker = some s

/-- Is for RTC worker `w`. -/
def isFor (cfg : PipelineConfig) (w : ℕ) (label : Label) : Bool := route cfg label = some w

structure Flow (cfg : PipelineConfig) (x : Pipeline) : Prop where
  ids : x.entered.map Label.id = List.range x.entered.length
  pushes : ∀ label ∈ x.entered, IsPush cfg label
  server : x.entered = x.serverTrail
  worker : ∀ w, x.accepted.filter (isFor cfg w) = x.workerTrail w
  signaling : ∀ s w, (x.processed w).filter (ownedBy s) =
    (x.signalingTrail s).filter (fun p => isFor cfg w p.label) ++
      (x.workerPc w).finished.filter (ownedBy s)
  origin : ∀ s, ∀ p ∈ x.signalingTrail s, ∃ w, p ∈ x.processed w

theorem flow_start (cfg : PipelineConfig) : Flow cfg {} where
  ids := rfl
  pushes := List.forall_mem_nil _
  server := rfl
  worker _ := rfl
  signaling _ _ := rfl
  origin _ := List.forall_mem_nil _

/-! ## Where a message is -/

theorem Flow.nodup (hx : Flow cfg x) : x.entered.Nodup := by
  apply List.Nodup.of_map Label.id
  rw [hx.ids]
  exact List.nodup_range

theorem accepted_sublist (x : Pipeline) : x.accepted.Sublist (x.checked.map Prod.fst) :=
  List.filter_sublist.map Prod.fst

theorem Flow.checked_isPrefix (hx : Flow cfg x) : x.checked.map Prod.fst <+: x.entered := by
  rw [hx.server]
  exact List.prefix_append _ _

theorem Flow.push_of_mem_workerTrail {w : ℕ} {label : Label} (hx : Flow cfg x)
    (hmem : label ∈ x.workerTrail w) : IsPush cfg label ∧ route cfg label = some w := by
  rw [← hx.worker w, List.mem_filter] at hmem
  constructor
  · exact hx.pushes label (hx.checked_isPrefix.subset ((accepted_sublist x).subset hmem.1))
  · simpa [isFor] using hmem.2

theorem Flow.push_of_processed {w : ℕ} {p : Parcel} (hx : Flow cfg x) (hmem : p ∈ x.processed w) :
    IsPush cfg p.label ∧ route cfg p.label = some w := by
  apply hx.push_of_mem_workerTrail
  apply List.mem_append_left
  apply List.mem_append_left
  exact List.mem_map_of_mem hmem

theorem Flow.push_of_held {w : ℕ} {p : Parcel} (hx : Flow cfg x) (hpc : x.workerPc w = .popped p) :
    IsPush cfg p.label := by
  have hmem : p.label ∈ x.workerTrail w := by simp [workerTrail, hpc, WorkerPc.held]
  exact (hx.push_of_mem_workerTrail hmem).1

theorem Flow.push_of_returned {s : ℕ} {p : Parcel} (hx : Flow cfg x)
    (hpc : x.signalingPc s = .popped p) : IsPush cfg p.label := by
  have hmem : p ∈ x.signalingTrail s := by simp [signalingTrail, hpc, SignalingPc.held]
  obtain ⟨w, hw⟩ := hx.origin s p hmem
  exact (hx.push_of_processed hw).1

/-- A signaling worker gets only messages of its own. -/
theorem Flow.owned_of_mem_signalingTrail {s : ℕ} {p : Parcel} (hx : Flow cfg x)
    (hmem : p ∈ x.signalingTrail s) : p.label.request.worker = some s := by
  obtain ⟨w, hw⟩ := hx.origin s p hmem
  have hroute := (hx.push_of_processed hw).2
  have howned : p ∈ (x.processed w).filter (ownedBy s) := by
    rw [hx.signaling s w]
    apply List.mem_append_left
    rw [List.mem_filter]
    exact ⟨hmem, by simp [isFor, hroute]⟩
  simpa [ownedBy] using (List.mem_filter.mp howned).2

/-- A message that a worker has finished is among what it has processed. -/
theorem Flow.mem_processed {w : ℕ} {p : Parcel} {s : ℕ} (hx : Flow cfg x)
    (hpc : x.workerPc w = .made p) (howner : p.label.request.worker = some s) :
    p ∈ x.processed w := by
  have hmem : p ∈ (x.processed w).filter (ownedBy s) := by
    rw [hx.signaling s w, hpc]
    apply List.mem_append_right
    simp [WorkerPc.finished, ownedBy, howner]
  exact (List.mem_filter.mp hmem).1

/-! ## The steps that move a message along

Such a step leaves all the lists alone, and then the law holds as it did. -/

theorem Flow.of_trails (hx : Flow cfg x) (hentered : y.entered = x.entered)
    (hprocessed : y.processed = x.processed) (haccepted : y.accepted = x.accepted)
    (hserver : y.serverTrail = x.serverTrail) (hworker : ∀ w, y.workerTrail w = x.workerTrail w)
    (hsignaling : ∀ s, y.signalingTrail s = x.signalingTrail s)
    (hfinished : ∀ s w, (y.workerPc w).finished.filter (ownedBy s) =
      (x.workerPc w).finished.filter (ownedBy s)) : Flow cfg y where
  ids := by
    rw [hentered]
    exact hx.ids
  pushes := by
    rw [hentered]
    exact hx.pushes
  server := by
    rw [hentered, hserver]
    exact hx.server
  worker w := by
    rw [haccepted, hworker]
    exact hx.worker w
  signaling s w := by
    rw [hprocessed, hsignaling, hfinished]
    exact hx.signaling s w
  origin s := by
    rw [hprocessed, hsignaling]
    exact hx.origin s

theorem signalingTrail_setSignaling {s : ℕ} {old pc : SignalingPc} {m : Mailbox Parcel}
    (hpc : x.signalingPc s = old)
    (htrail : pc.held ++ m.queue = old.held ++ (x.signaling s).queue) (s' : ℕ) :
    (x.setSignaling s pc m).signalingTrail s' = x.signalingTrail s' := by
  rcases eq_or_ne s' s with rfl | hne
  · simp only [signalingTrail, setSignaling, Function.update_self, htrail, hpc]
  · simp only [signalingTrail, setSignaling, Function.update_of_ne hne]

theorem workerTrail_setWorker {w : ℕ} {old pc : WorkerPc} {m : Mailbox Parcel}
    (hpc : x.workerPc w = old)
    (htrail : pc.held ++ m.queue.map Parcel.label = old.held ++ (x.worker w).queue.map Parcel.label)
    (w' : ℕ) : (x.setWorker w pc m).workerTrail w' = x.workerTrail w' := by
  rcases eq_or_ne w' w with rfl | hne
  · simp only [workerTrail, setWorker, Function.update_self, htrail, hpc]
  · simp only [workerTrail, setWorker, Function.update_of_ne hne]

theorem Flow.setSignaling {s : ℕ} {old pc : SignalingPc} {m : Mailbox Parcel} (hx : Flow cfg x)
    (hpc : x.signalingPc s = old)
    (htrail : pc.held ++ m.queue = old.held ++ (x.signaling s).queue) :
    Flow cfg (x.setSignaling s pc m) :=
  hx.of_trails rfl rfl rfl rfl (fun _ => rfl) (signalingTrail_setSignaling hpc htrail)
    fun _ _ => rfl

theorem Flow.setServer {old pc : ServerPc} {m : Mailbox Parcel} (hx : Flow cfg x)
    (hpc : x.serverPc = old)
    (htrail : pc.held ++ m.queue.map Parcel.label = old.held ++ x.server.queue.map Parcel.label)
    (hpassed : ∀ w, pc.passedTo w = old.passedTo w) : Flow cfg (x.setServer pc m) := by
  refine hx.of_trails rfl rfl rfl ?_ ?_ (fun _ => rfl) fun _ _ => rfl
  · simp only [serverTrail, Pipeline.setServer, htrail, hpc]
  · intro w
    simp only [workerTrail, Pipeline.setServer, hpassed, hpc]

theorem Flow.setWorker {w : ℕ} {old pc : WorkerPc} {m : Mailbox Parcel} (hx : Flow cfg x)
    (hpc : x.workerPc w = old)
    (htrail : pc.held ++ m.queue.map Parcel.label = old.held ++ (x.worker w).queue.map Parcel.label)
    (hfinished : ∀ s, pc.finished.filter (ownedBy s) = old.finished.filter (ownedBy s)) :
    Flow cfg (x.setWorker w pc m) := by
  refine hx.of_trails rfl rfl rfl rfl (workerTrail_setWorker hpc htrail) (fun _ => rfl) ?_
  intro s w'
  rcases eq_or_ne w' w with rfl | hne
  · simp only [Pipeline.setWorker, Function.update_self, hfinished, hpc]
  · simp only [Pipeline.setWorker, Function.update_of_ne hne]

theorem Flow.missed (hx : Flow cfg x) : Flow cfg x.missed :=
  hx.of_trails rfl rfl rfl rfl (fun _ => rfl) (fun _ => rfl) fun _ _ => rfl

theorem Flow.close (hx : Flow cfg x) (s : ℕ) (addr : Addr) : Flow cfg (x.close s addr) :=
  hx.of_trails rfl rfl rfl rfl (fun _ => rfl) (fun _ => rfl) fun _ _ => rfl

theorem Flow.notifyServer {s : ℕ} (hx : Flow cfg x) (hpc : x.signalingPc s = .sending) :
    Flow cfg (x.notifyServer s) := by
  have hset : Flow cfg (x.setSignaling s .idle (x.signaling s)) := hx.setSignaling hpc rfl
  exact hset.of_trails rfl rfl rfl rfl (fun _ => rfl) (fun _ => rfl) fun _ _ => rfl

theorem Flow.handOver {w : ℕ} {p : Parcel} (hx : Flow cfg x) (hpc : x.serverPc = .passed w p) :
    Flow cfg (x.handOver w p) := by
  refine hx.of_trails rfl rfl rfl ?_ ?_ (fun _ => rfl) fun _ _ => rfl
  · rw [serverTrail, serverTrail, hpc]
    rfl
  · intro w'
    rcases eq_or_ne w' w with rfl | hne
    · simp only [workerTrail, hpc, Pipeline.handOver, Function.update_self, ServerPc.passedTo,
        Mailbox.push, List.map_append, List.map_singleton, List.append_nil, List.append_assoc,
        if_true]
    · simp only [workerTrail, hpc, Pipeline.handOver, Function.update_of_ne hne, ServerPc.passedTo,
        if_neg hne.symm]

theorem Flow.notifyWorker {w : ℕ} (hx : Flow cfg x) (hpc : x.serverPc = .pushed w) :
    Flow cfg (x.notifyWorker w) := by
  refine hx.of_trails rfl rfl rfl ?_ ?_ (fun _ => rfl) fun _ _ => rfl
  · rw [serverTrail, serverTrail, hpc]
    rfl
  · intro w'
    rcases eq_or_ne w' w with rfl | hne
    · simp only [workerTrail, hpc, Pipeline.notifyWorker, Function.update_self, Mailbox.notify,
        ServerPc.passedTo]
    · simp only [workerTrail, hpc, Pipeline.notifyWorker, Function.update_of_ne hne,
        ServerPc.passedTo]

theorem Flow.notifySignaling {w s : ℕ} (hx : Flow cfg x) (hpc : x.workerPc w = .pushed s) :
    Flow cfg (x.notifySignaling w s) := by
  have hset : Flow cfg (x.setWorker w .idle (x.worker w)) :=
    hx.setWorker hpc rfl fun _ => rfl
  refine hset.of_trails rfl rfl rfl rfl (fun _ => rfl) ?_ fun _ _ => rfl
  intro s'
  rcases eq_or_ne s' s with rfl | hne
  · simp only [signalingTrail, Pipeline.notifySignaling, Pipeline.setWorker,
      Function.update_self, Mailbox.notify]
  · simp only [signalingTrail, Pipeline.notifySignaling, Pipeline.setWorker,
      Function.update_of_ne hne]

theorem Flow.respond {s : ℕ} {p : Parcel} (hx : Flow cfg x) (hpc : x.signalingPc s = .popped p) :
    Flow cfg (x.respond s p) := by
  refine hx.of_trails rfl rfl rfl rfl (fun _ => rfl) ?_ fun _ _ => rfl
  intro s'
  rcases eq_or_ne s' s with rfl | hne
  · simp only [signalingTrail, Pipeline.respond, Pipeline.setSignaling, Function.update_self, hpc,
      SignalingPc.held, List.append_assoc, List.nil_append]
  · simp only [signalingTrail, Pipeline.respond, Pipeline.setSignaling, Function.update_of_ne hne]

/-! ## The steps that change what is recorded -/

theorem isPush_processPush {s : ℕ} (id : ℕ) (addr : Addr) (fd : ℤ)
    (root : SignalingWorker.PushRequest) (logId : UInt32) (hs : s < cfg.signalingNum) :
    IsPush cfg ⟨id, SignalingWorker.processPush s addr fd root logId⟩ where
  cmdno := rfl
  errNo := rfl
  owner := ⟨s, hs, rfl⟩

theorem Flow.send {s : ℕ} {request : RtcMsg} (hx : Flow cfg x) (hpc : x.signalingPc s = .idle)
    (hpush : IsPush cfg ⟨x.entered.length, request⟩) : Flow cfg (x.send s request) := by
  have hset : Flow cfg (x.setSignaling s .sending (x.signaling s)) := hx.setSignaling hpc rfl
  exact
    { ids := by
        simp only [Pipeline.send, List.map_append, List.length_append, List.length_singleton,
          List.range_succ, hx.ids]
        rfl
      pushes := by
        simp only [Pipeline.send, List.mem_append, List.mem_singleton]
        rintro label (hold | rfl)
        · exact hx.pushes label hold
        · exact hpush
      server := by
        have hserver := hx.server
        simp only [serverTrail, ← List.append_assoc] at hserver
        simp only [Pipeline.send, Pipeline.setSignaling, serverTrail, Mailbox.push, List.map_append,
          List.map_singleton, ← List.append_assoc, ← hserver]
      worker := hset.worker
      signaling := hset.signaling
      origin := hset.origin }

theorem Flow.accept {w : ℕ} {p : Parcel} (hx : Flow cfg x) (certificate : Addr)
    (hpc : x.serverPc = .popped p) (hroute : route cfg p.label = some w) :
    Flow cfg (x.accept w p certificate) where
  ids := hx.ids
  pushes := hx.pushes
  server := by
    have hserver := hx.server
    simp only [serverTrail, hpc, ServerPc.held] at hserver
    simp only [serverTrail, Pipeline.accept, ServerPc.held, List.map_append, List.map_singleton,
      List.append_assoc, List.nil_append]
    exact hserver
  worker w' := by
    have hworker := hx.worker w'
    simp only [workerTrail, hpc, ServerPc.passedTo, List.append_nil] at hworker
    simp only [workerTrail, accepted, Pipeline.accept, ServerPc.passedTo, List.filter_append,
      List.map_append] at hworker ⊢
    rw [hworker]
    congr 1
    simp [isFor, hroute, List.filter_singleton]
  signaling := hx.signaling
  origin := hx.origin

theorem Flow.reject {p : Parcel} (hx : Flow cfg x) (hpc : x.serverPc = .popped p) :
    Flow cfg (x.reject p) where
  ids := hx.ids
  pushes := hx.pushes
  server := by
    have hserver := hx.server
    simp only [serverTrail, hpc, ServerPc.held] at hserver
    simp only [serverTrail, Pipeline.reject, ServerPc.held, List.map_append, List.map_singleton,
      List.append_assoc, List.nil_append]
    exact hserver
  worker w := by
    have hworker := hx.worker w
    simp only [workerTrail, hpc] at hworker
    simp only [workerTrail, accepted, Pipeline.reject, List.filter_append,
      List.map_append] at hworker ⊢
    rw [hworker]
    exact List.append_nil _
  signaling := hx.signaling
  origin := hx.origin

theorem Flow.make {w : ℕ} {p : Parcel} (hx : Flow cfg x) (offer : List UInt8)
    (hpc : x.workerPc w = .popped p) : Flow cfg (x.make w p offer) where
  ids := hx.ids
  pushes := hx.pushes
  server := hx.server
  worker w' := by
    have hworker := hx.worker w'
    rcases eq_or_ne w' w with rfl | hne
    · simp only [workerTrail, hpc, WorkerPc.held] at hworker
      simp only [workerTrail, Pipeline.make, Pipeline.setWorker, Function.update_self,
        WorkerPc.held, List.map_append, List.map_singleton, List.nil_append]
      simp only [List.append_assoc] at hworker ⊢
      exact hworker
    · simp only [workerTrail, Pipeline.make, Pipeline.setWorker, Function.update_of_ne hne]
      exact hworker
  signaling s w' := by
    have hsignaling := hx.signaling s w'
    rcases eq_or_ne w' w with rfl | hne
    · simp only [hpc, WorkerPc.finished, List.filter_nil, List.append_nil] at hsignaling
      simp only [Pipeline.make, Pipeline.setWorker, Function.update_self, WorkerPc.finished,
        List.filter_append, hsignaling]
      rfl
    · simp only [Pipeline.make, Pipeline.setWorker, Function.update_of_ne hne]
      exact hsignaling
  origin s p' hp' := by
    obtain ⟨w', hw'⟩ := hx.origin s p' hp'
    refine ⟨w', ?_⟩
    simp only [Pipeline.make]
    rcases eq_or_ne w' w with rfl | hne
    · rw [Function.update_self]
      exact List.mem_append_left _ hw'
    · rwa [Function.update_of_ne hne]

theorem signalingTrail_giveBack (x : Pipeline) (w s : ℕ) (p : Parcel) (s' : ℕ) :
    (x.giveBack w s p).signalingTrail s' =
      x.signalingTrail s' ++ if s' = s then [p] else [] := by
  rcases eq_or_ne s' s with rfl | hne
  · simp only [signalingTrail, Pipeline.giveBack, Pipeline.setWorker, Function.update_self,
      Mailbox.push, List.append_assoc, if_true]
  · simp only [signalingTrail, Pipeline.giveBack, Pipeline.setWorker, Function.update_of_ne hne,
      if_neg hne, List.append_nil]

theorem finished_giveBack (x : Pipeline) (w s : ℕ) (p : Parcel) (w' : ℕ) :
    ((x.giveBack w s p).workerPc w').finished =
      if w' = w then [] else (x.workerPc w').finished := by
  split_ifs with heq
  · simp only [heq, Pipeline.giveBack, Pipeline.setWorker, Function.update_self,
      WorkerPc.finished]
  · simp only [Pipeline.giveBack, Pipeline.setWorker, Function.update_of_ne heq]

theorem Flow.giveBack {w s : ℕ} {p : Parcel} (hx : Flow cfg x) (hpc : x.workerPc w = .made p)
    (howner : p.label.request.worker = some s) : Flow cfg (x.giveBack w s p) := by
  have hmem := hx.mem_processed hpc howner
  have hroute := (hx.push_of_processed hmem).2
  exact
    { ids := hx.ids
      pushes := hx.pushes
      server := hx.server
      worker := fun w' => by
        have hkept : (x.setWorker w (.pushed s) (x.worker w)).workerTrail w' =
            x.workerTrail w' := by
          apply workerTrail_setWorker hpc
          rfl
        exact (hx.worker w').trans hkept.symm
      signaling := by
        intro s' w'
        have hsignaling := hx.signaling s' w'
        have hprocessed : (x.giveBack w s p).processed = x.processed := rfl
        rw [finished_giveBack, signalingTrail_giveBack, hprocessed, List.filter_append]
        rcases eq_or_ne w' w with rfl | hw
        · -- what the worker had finished is what the signaling worker gets
          rw [hpc] at hsignaling
          rw [hsignaling]
          rcases eq_or_ne s' s with rfl | hs
          · simp [WorkerPc.finished, ownedBy, howner, isFor, hroute]
          · simp [WorkerPc.finished, ownedBy, howner, hs, hs.symm]
        · rw [hsignaling]
          by_cases hs : s' = s <;> simp [isFor, hroute, hs, hw, hw.symm]
      origin := by
        intro s' p' hp'
        rw [signalingTrail_giveBack, List.mem_append] at hp'
        rcases hp' with hold | hnew
        · exact hx.origin s' p' hold
        · split_ifs at hnew with hs
          · rw [List.mem_singleton] at hnew
            exact ⟨w, hnew ▸ hmem⟩
          · cases hnew }

/-! ## Steps and runs -/

theorem Flow.move (hx : Flow cfg x) (hmove : Move cfg x action y) : Flow cfg y := by
  cases hmove with
  | send hs hpc => exact hx.send hpc (isPush_processPush _ _ _ _ _ hs)
  | newConn _ => exact hx.setSignaling rfl rfl
  | close _ _ => exact hx.close _ _
  | notifyServer _ hpc => exact hx.notifyServer hpc
  | signalingSkip _ hpc _ => exact hx.setSignaling hpc rfl
  | signalingRead _ hpc _ => exact hx.setSignaling hpc rfl
  | signalingMiss _ hpc _ =>
      apply Flow.missed
      exact hx.setSignaling hpc rfl
  | signalingPop _ hpc hqueue => exact hx.setSignaling hpc (by rw [hqueue]; rfl)
  | respond _ hpc _ => exact hx.respond hpc
  | signalingDrop _ hpc hcmdno => exact absurd (hx.push_of_returned hpc).cmdno hcmdno
  | serverSkip hpc _ => exact hx.setServer hpc rfl fun _ => rfl
  | serverRead hpc _ => exact hx.setServer hpc rfl fun _ => rfl
  | serverMiss hpc _ =>
      apply Flow.missed
      exact hx.setServer hpc rfl fun _ => rfl
  | serverPop hpc hqueue => exact hx.setServer hpc (by rw [hqueue]; rfl) fun _ => rfl
  | accept hpc hroute => exact hx.accept _ hpc hroute
  | reject hpc _ => exact hx.reject hpc
  | handOver hpc => exact hx.handOver hpc
  | notifyWorker hpc => exact hx.notifyWorker hpc
  | workerSkip _ hpc _ => exact hx.setWorker hpc rfl fun _ => rfl
  | workerRead _ hpc _ => exact hx.setWorker hpc rfl fun _ => rfl
  | workerMiss _ hpc _ =>
      apply Flow.missed
      exact hx.setWorker hpc rfl fun _ => rfl
  | workerPop _ hpc hqueue => exact hx.setWorker hpc (by rw [hqueue]; rfl) fun _ => rfl
  | make _ hpc _ => exact hx.make _ hpc
  | workerDrop _ hpc hcmdno => exact absurd (hx.push_of_held hpc).cmdno hcmdno
  | discard _ hpc howner =>
      refine hx.setWorker hpc rfl ?_
      intro s
      simp [WorkerPc.finished, ownedBy, howner]
  | giveBack _ hpc howner => exact hx.giveBack hpc howner
  | notifySignaling _ hpc => exact hx.notifySignaling hpc

theorem flow_run {actions : List PipelineAction} (hrun : run (step cfg) {} actions = some x) :
    Flow cfg x :=
  run_preserves (Flow cfg) (fun hx hstep => hx.move (step_move hstep)) (flow_start cfg) hrun

/-! ## How often -/

/-- How often worker `w` has processed a message. -/
def timesProcessed (x : Pipeline) (w : ℕ) (label : Label) : ℕ :=
  (x.processed w).countP fun p => p.label = label

/-- How often a message has reached `_response_server_offer` of signaling worker `s`. -/
def timesResponded (x : Pipeline) (s : ℕ) (label : Label) : ℕ :=
  (x.responded s).countP fun p => p.label = label

theorem timesProcessed_eq_count (x : Pipeline) (w : ℕ) (label : Label) :
    x.timesProcessed w label = ((x.processed w).map Parcel.label).count label := by
  rw [timesProcessed, List.count_eq_countP, List.countP_map]
  rfl

theorem Flow.nodup_accepted (hx : Flow cfg x) : x.accepted.Nodup :=
  hx.nodup.sublist ((accepted_sublist x).trans hx.checked_isPrefix.sublist)

theorem processed_isPrefix (x : Pipeline) (w : ℕ) :
    (x.processed w).map Parcel.label <+: x.workerTrail w := by
  rw [workerTrail, List.append_assoc]
  exact List.prefix_append _ _

/-- **Processed at most once.** -/
theorem Flow.timesProcessed_le_one (hx : Flow cfg x) (w : ℕ) (label : Label) :
    x.timesProcessed w label ≤ 1 := by
  have hnodup : (x.workerTrail w).Nodup := by
    rw [← hx.worker w]
    exact hx.nodup_accepted.filter _
  rw [timesProcessed_eq_count]
  exact List.nodup_iff_count_le_one.mp (hnodup.sublist (processed_isPrefix x w).sublist) label

/-- **Processed only where it is routed to.** -/
theorem Flow.timesProcessed_eq_zero {w : ℕ} {label : Label} (hx : Flow cfg x)
    (hroute : route cfg label ≠ some w) : x.timesProcessed w label = 0 := by
  rw [timesProcessed, List.countP_eq_zero]
  intro p hp hlabel
  apply hroute
  rw [← of_decide_eq_true hlabel]
  exact (hx.push_of_processed hp).2

/-- What a signaling worker has got of a message and what the RTC worker still
has for it is what the RTC worker has processed, if the message belongs there. -/
theorem Flow.count_signalingTrail {w : ℕ} {label : Label} (hx : Flow cfg x)
    (hroute : route cfg label = some w) (s : ℕ) :
    ((x.signalingTrail s).countP fun p => p.label = label) +
        (((x.workerPc w).finished.filter (ownedBy s)).countP fun p => p.label = label) =
      if label.request.worker = some s then x.timesProcessed w label else 0 := by
  have hcount := congrArg (List.countP fun p => p.label = label) (hx.signaling s w)
  rw [List.countP_append, List.countP_filter, List.countP_filter] at hcount
  have htrail : (x.signalingTrail s).countP (fun p => p.label = label && isFor cfg w p.label) =
      (x.signalingTrail s).countP fun p => p.label = label := by
    apply List.countP_congr
    intro p _
    by_cases hlabel : p.label = label <;> simp [hlabel, isFor, hroute]
  rw [← htrail, ← hcount]
  split_ifs with howner
  · apply List.countP_congr
    intro p _
    by_cases hlabel : p.label = label <;> simp [hlabel, ownedBy, howner]
  · rw [List.countP_eq_zero]
    intro p _
    by_cases hlabel : p.label = label <;> simp [hlabel, ownedBy, howner]

theorem timesResponded_le (x : Pipeline) (s : ℕ) (label : Label) :
    x.timesResponded s label ≤ (x.signalingTrail s).countP fun p => p.label = label := by
  rw [signalingTrail, List.countP_append]
  exact Nat.le_add_right _ _

/-- **Responded to at most once, and only where it came from.** -/
theorem Flow.timesResponded_le_one {w : ℕ} {label : Label} (hx : Flow cfg x)
    (hroute : route cfg label = some w) (s : ℕ) :
    x.timesResponded s label ≤ if label.request.worker = some s then 1 else 0 := by
  have hcount := hx.count_signalingTrail hroute s
  have hresponded := timesResponded_le x s label
  have hprocessed := hx.timesProcessed_le_one w label
  split_ifs at hcount ⊢ <;> omega

/-! ## At rest -/

theorem route_lt {w : ℕ} {label : Label} (hroute : route cfg label = some w) : w < cfg.workers := by
  have hint := cfg.options.isInt
  unfold route getWorker at hroute
  split_ifs at hroute with hnum
  push Not at hnum
  obtain ⟨hpos, hworkers⟩ := hnum
  rw [toSize] at hworkers
  have hlt := Nat.mod_lt (computeCrc32 label.request.streamName).toNat
    (show 0 < (cfg.options.workerNum % 2 ^ 32).toNat by omega)
  rw [Option.some.injEq] at hroute
  omega

/-- At rest everything that entered has been checked. -/
theorem Flow.entered_eq (hx : Flow cfg x) (hbalance : Balance cfg x) (hdrained : x.Drained cfg) :
    x.entered = x.checked.map Prod.fst := by
  rw [hx.server, serverTrail, hdrained.server.1, (hbalance.queues_eq_nil hdrained).1]
  exact List.append_nil _

/-- At rest every accepted message has been processed exactly once. -/
theorem Flow.timesProcessed_eq_one {w : ℕ} {label : Label} (hx : Flow cfg x)
    (hbalance : Balance cfg x) (hdrained : x.Drained cfg) (hlabel : label ∈ x.accepted)
    (hroute : route cfg label = some w) : x.timesProcessed w label = 1 := by
  have hw := route_lt hroute
  have hworker := hx.worker w
  rw [workerTrail, hdrained.server.1, (hdrained.worker w hw).1,
    (hbalance.queues_eq_nil hdrained).2.1 w hw] at hworker
  simp only [WorkerPc.held, ServerPc.passedTo, List.map_nil, List.append_nil] at hworker
  rw [timesProcessed_eq_count, ← hworker]
  apply List.count_eq_one_of_mem (hx.nodup_accepted.filter _)
  rw [List.mem_filter]
  exact ⟨hlabel, by simp [isFor, hroute]⟩

/-- At rest every signaling worker has responded to what was processed for it. -/
theorem Flow.timesResponded_eq {w s : ℕ} {label : Label} (hx : Flow cfg x)
    (hbalance : Balance cfg x) (hdrained : x.Drained cfg) (hs : s < cfg.signalingNum)
    (hroute : route cfg label = some w) (howner : label.request.worker = some s) :
    x.timesResponded s label = x.timesProcessed w label := by
  have hcount := hx.count_signalingTrail hroute s
  rw [if_pos howner, signalingTrail, (hdrained.worker w (route_lt hroute)).1,
    (hdrained.signaling s hs).1, (hbalance.queues_eq_nil hdrained).2.2 s hs] at hcount
  simp only [SignalingPc.held, WorkerPc.finished, List.append_nil, List.filter_nil,
    List.countP_nil, Nat.add_zero] at hcount
  exact hcount

end Pipeline

end Xrtc.Server
