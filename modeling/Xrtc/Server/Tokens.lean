/-
# Every notification finds its message

The three hops of a push request are mailboxes with several senders or several
receivers around them. Their balance is stated over where the threads stand: a
thread between its push and its write owes a token, a thread between its read
and its pop has taken one. A token of one sender may well pop the message of
another, so the balance counts and does not pair. No step disturbs it, hence no
pop ever yields a null pointer, and a system at rest has empty queues.
-/

import Xrtc.Server.Pipeline

namespace Xrtc.Server

open Xrtc.Machine Xrtc.Base Finset

/-- The tokens that a signaling worker owes the server. -/
def SignalingPc.owes : SignalingPc → ℕ
  | .sending => 1
  | _ => 0

/-- The items that a signaling worker has still to pop. -/
def SignalingPc.taken : SignalingPc → ℕ
  | .notified => 1
  | _ => 0

/-- The tokens that the server owes worker `w`. -/
def ServerPc.owes (w : ℕ) : ServerPc → ℕ
  | .pushed w' => if w' = w then 1 else 0
  | _ => 0

def ServerPc.taken : ServerPc → ℕ
  | .notified => 1
  | _ => 0

/-- The tokens that an RTC worker owes signaling worker `s`. -/
def WorkerPc.owes (s : ℕ) : WorkerPc → ℕ
  | .pushed s' => if s' = s then 1 else 0
  | _ => 0

def WorkerPc.taken : WorkerPc → ℕ
  | .notified => 1
  | _ => 0

namespace Pipeline

variable {cfg : PipelineConfig} {x y : Pipeline} {action : PipelineAction}

/-- All mailboxes are balanced and no pop has failed. -/
structure Balance (cfg : PipelineConfig) (x : Pipeline) : Prop where
  server : x.server.Balanced (∑ s ∈ range cfg.signalingNum, (x.signalingPc s).owes) x.serverPc.taken
  worker : ∀ w, (x.worker w).Balanced (x.serverPc.owes w) (x.workerPc w).taken
  signaling : ∀ s, (x.signaling s).Balanced
    (∑ w ∈ range cfg.workers, (x.workerPc w).owes s) (x.signalingPc s).taken
  nullPops : x.nullPops = 0

theorem balance_start (cfg : PipelineConfig) : Balance cfg {} where
  server := by
    simp only [SignalingPc.owes, sum_const_zero]
    exact Mailbox.balanced_empty
  worker _ := Mailbox.balanced_empty
  signaling s := by
    simp only [WorkerPc.owes, sum_const_zero]
    exact Mailbox.balanced_empty
  nullPops := rfl

/-! ## One thread at its own mailbox -/

theorem Balance.server_at {pc : ServerPc} {taken : ℕ} (hx : Balance cfg x) (hpc : x.serverPc = pc)
    (htaken : pc.taken = taken) :
    x.server.Balanced (∑ s ∈ range cfg.signalingNum, (x.signalingPc s).owes) taken := by
  rw [← htaken, ← hpc]
  exact hx.server

theorem Balance.worker_at {w taken : ℕ} {pc : WorkerPc} (hx : Balance cfg x)
    (hpc : x.workerPc w = pc) (htaken : pc.taken = taken) :
    (x.worker w).Balanced (x.serverPc.owes w) taken := by
  rw [← htaken, ← hpc]
  exact hx.worker w

theorem Balance.signaling_at {s taken : ℕ} {pc : SignalingPc} (hx : Balance cfg x)
    (hpc : x.signalingPc s = pc) (htaken : pc.taken = taken) :
    (x.signaling s).Balanced (∑ w ∈ range cfg.workers, (x.workerPc w).owes s) taken := by
  rw [← htaken, ← hpc]
  exact hx.signaling s

/-- A signaling worker that handles a notification owes what it owed before. -/
theorem Balance.setSignaling {s : ℕ} {old pc : SignalingPc} {m : Mailbox Parcel}
    (hx : Balance cfg x) (hpc : x.signalingPc s = old) (howes : pc.owes = old.owes)
    (hm : m.Balanced (∑ w ∈ range cfg.workers, (x.workerPc w).owes s) pc.taken) :
    Balance cfg (x.setSignaling s pc m) where
  server := by
    simp only [Pipeline.setSignaling]
    rw [← hpc] at howes
    rw [sum_update_of_eq _ SignalingPc.owes howes]
    exact hx.server
  worker := hx.worker
  signaling :=
    forall_update₂ (fun s pc (m : Mailbox Parcel) =>
      m.Balanced (∑ w ∈ range cfg.workers, (x.workerPc w).owes s) (SignalingPc.taken pc))
      hx.signaling hm
  nullPops := hx.nullPops

theorem Balance.setServer {old pc : ServerPc} {m : Mailbox Parcel} (hx : Balance cfg x)
    (hpc : x.serverPc = old) (howes : ∀ w, pc.owes w = old.owes w)
    (hm : m.Balanced (∑ s ∈ range cfg.signalingNum, (x.signalingPc s).owes) pc.taken) :
    Balance cfg (x.setServer pc m) where
  server := hm
  worker w := by
    simp only [Pipeline.setServer, howes w]
    rw [← hpc]
    exact hx.worker w
  signaling := hx.signaling
  nullPops := hx.nullPops

theorem Balance.setWorker {w : ℕ} {old pc : WorkerPc} {m : Mailbox Parcel} (hx : Balance cfg x)
    (hpc : x.workerPc w = old) (howes : ∀ s, pc.owes s = old.owes s)
    (hm : m.Balanced (x.serverPc.owes w) pc.taken) : Balance cfg (x.setWorker w pc m) where
  server := hx.server
  worker :=
    forall_update₂ (fun w pc (m : Mailbox Parcel) =>
      m.Balanced (x.serverPc.owes w) (WorkerPc.taken pc)) hx.worker hm
  signaling s := by
    simp only [Pipeline.setWorker]
    rw [← hpc] at howes
    rw [sum_update_of_eq _ (WorkerPc.owes s) (howes s)]
    exact hx.signaling s
  nullPops := hx.nullPops

/-! ## A push, and the token for it -/

theorem Balance.send {s : ℕ} (request : RtcMsg) (hx : Balance cfg x) (hs : s < cfg.signalingNum)
    (hpc : x.signalingPc s = .idle) : Balance cfg (x.send s request) where
  server := by
    have hcount : ∑ s' ∈ range cfg.signalingNum,
        (Function.update x.signalingPc s .sending s').owes =
        ∑ s' ∈ range cfg.signalingNum, (x.signalingPc s').owes + 1 := by
      apply sum_update_enter (mem_range.mpr hs) SignalingPc.owes
      · rw [hpc]
        rfl
      · rfl
    simp only [Pipeline.send, Pipeline.setSignaling]
    rw [hcount]
    exact hx.server.push _
  worker := hx.worker
  signaling := by
    exact forall_update₂ (fun s pc (m : Mailbox Parcel) =>
      m.Balanced (∑ w ∈ range cfg.workers, (x.workerPc w).owes s) (SignalingPc.taken pc))
      hx.signaling (hx.signaling_at hpc rfl)
  nullPops := hx.nullPops

theorem Balance.notifyServer {s : ℕ} (hx : Balance cfg x) (hs : s < cfg.signalingNum)
    (hpc : x.signalingPc s = .sending) : Balance cfg (x.notifyServer s) where
  server := by
    have hcount : ∑ s' ∈ range cfg.signalingNum,
        (Function.update x.signalingPc s .idle s').owes + 1 =
        ∑ s' ∈ range cfg.signalingNum, (x.signalingPc s').owes := by
      apply sum_update_leave (mem_range.mpr hs) SignalingPc.owes
      · rw [hpc]
        rfl
      · rfl
    have hserver := hx.server
    rw [← hcount] at hserver
    exact hserver.notify
  worker := hx.worker
  signaling := by
    exact forall_update₂ (fun s pc (m : Mailbox Parcel) =>
      m.Balanced (∑ w ∈ range cfg.workers, (x.workerPc w).owes s) (SignalingPc.taken pc))
      hx.signaling (hx.signaling_at hpc rfl)
  nullPops := hx.nullPops

theorem Balance.handOver {w : ℕ} {p : Parcel} (hx : Balance cfg x)
    (hpc : x.serverPc = .passed w p) : Balance cfg (x.handOver w p) where
  server := hx.server_at hpc rfl
  worker w' := by
    have hworker := hx.worker w'
    rw [hpc] at hworker
    rcases eq_or_ne w' w with rfl | hne
    · simp only [Pipeline.handOver, ServerPc.owes, Function.update_self, if_true]
      exact hworker.push p
    · simp only [Pipeline.handOver, ServerPc.owes, Function.update_of_ne hne, if_neg hne.symm]
      exact hworker
  signaling := hx.signaling
  nullPops := hx.nullPops

theorem Balance.notifyWorker {w : ℕ} (hx : Balance cfg x) (hpc : x.serverPc = .pushed w) :
    Balance cfg (x.notifyWorker w) where
  server := hx.server_at hpc rfl
  worker w' := by
    have hworker := hx.worker w'
    rw [hpc, ServerPc.owes] at hworker
    rcases eq_or_ne w' w with rfl | hne
    · rw [if_pos rfl] at hworker
      simp only [Pipeline.notifyWorker, Function.update_self]
      exact hworker.notify
    · rw [if_neg hne.symm] at hworker
      simp only [Pipeline.notifyWorker, Function.update_of_ne hne]
      exact hworker
  signaling := hx.signaling
  nullPops := hx.nullPops

theorem Balance.giveBack {w s : ℕ} {p : Parcel} (hx : Balance cfg x) (hw : w < cfg.workers)
    (hpc : x.workerPc w = .made p) : Balance cfg (x.giveBack w s p) where
  server := hx.server
  worker := by
    exact forall_update₂ (fun w pc (m : Mailbox Parcel) =>
      m.Balanced (x.serverPc.owes w) (WorkerPc.taken pc)) hx.worker (hx.worker_at hpc rfl)
  signaling s' := by
    have hsignaling := hx.signaling s'
    simp only [Pipeline.giveBack, Pipeline.setWorker]
    rcases eq_or_ne s' s with rfl | hne
    · rw [sum_update_enter (mem_range.mpr hw) (WorkerPc.owes s')]
      · rw [Function.update_self]
        exact hsignaling.push p
      · rw [hpc]
        rfl
      · rw [WorkerPc.owes, if_pos rfl]
    · rw [sum_update_of_eq _ (WorkerPc.owes s'), Function.update_of_ne hne]
      · exact hsignaling
      · rw [hpc, WorkerPc.owes, if_neg hne.symm]
        rfl
  nullPops := hx.nullPops

theorem Balance.notifySignaling {w s : ℕ} (hx : Balance cfg x) (hw : w < cfg.workers)
    (hpc : x.workerPc w = .pushed s) : Balance cfg (x.notifySignaling w s) where
  server := hx.server
  worker := by
    exact forall_update₂ (fun w pc (m : Mailbox Parcel) =>
      m.Balanced (x.serverPc.owes w) (WorkerPc.taken pc)) hx.worker (hx.worker_at hpc rfl)
  signaling s' := by
    have hsignaling := hx.signaling s'
    simp only [Pipeline.notifySignaling, Pipeline.setWorker]
    rcases eq_or_ne s' s with rfl | hne
    · have hcount : ∑ w' ∈ range cfg.workers, (Function.update x.workerPc w .idle w').owes s' + 1 =
          ∑ w' ∈ range cfg.workers, (x.workerPc w').owes s' := by
        apply sum_update_leave (mem_range.mpr hw) (WorkerPc.owes s')
        · rw [hpc, WorkerPc.owes, if_pos rfl]
        · rfl
      rw [← hcount] at hsignaling
      rw [Function.update_self]
      exact hsignaling.notify
    · rw [sum_update_of_eq _ (WorkerPc.owes s'), Function.update_of_ne hne]
      · exact hsignaling
      · rw [hpc, WorkerPc.owes, if_neg hne.symm]
        rfl
  nullPops := hx.nullPops

/-! ## Steps and runs -/

/-- A thread that has read a token finds a message. -/
theorem Balance.not_missed (hx : Balance cfg x) :
    (x.serverPc = .notified → x.server.queue ≠ []) ∧
      (∀ w, x.workerPc w = .notified → (x.worker w).queue ≠ []) ∧
      ∀ s, x.signalingPc s = .notified → (x.signaling s).queue ≠ [] := by
  refine ⟨?_, ?_, ?_⟩
  · intro hpc
    exact (hx.server_at hpc rfl).ne_nil
  · intro w hpc
    exact (hx.worker_at hpc rfl).ne_nil
  · intro s hpc
    exact (hx.signaling_at hpc rfl).ne_nil

theorem Balance.move (hx : Balance cfg x) (hmove : Move cfg x action y) : Balance cfg y := by
  cases hmove with
  | send hs hpc => exact hx.send _ hs hpc
  | newConn _ => exact hx.setSignaling rfl rfl (hx.signaling _).notify_other
  | close _ _ => exact ⟨hx.server, hx.worker, hx.signaling, hx.nullPops⟩
  | notifyServer hs hpc => exact hx.notifyServer hs hpc
  | signalingSkip _ hpc hpipe =>
      exact hx.setSignaling hpc rfl ((hx.signaling_at hpc rfl).read_other hpipe)
  | signalingRead _ hpc hpipe =>
      exact hx.setSignaling hpc rfl ((hx.signaling_at hpc rfl).read hpipe)
  | signalingMiss _ hpc hqueue => exact absurd hqueue (hx.not_missed.2.2 _ hpc)
  | signalingPop _ hpc hqueue =>
      exact hx.setSignaling hpc rfl ((hx.signaling_at hpc rfl).pop hqueue)
  | @respond s p _ hpc _ =>
      have hset : Balance cfg (x.setSignaling s .idle (x.signaling s)) :=
        hx.setSignaling hpc rfl (hx.signaling_at hpc rfl)
      exact ⟨hset.server, hset.worker, hset.signaling, hset.nullPops⟩
  | signalingDrop _ hpc _ =>
      exact hx.setSignaling hpc rfl (hx.signaling_at hpc rfl)
  | serverSkip hpc hpipe =>
      exact hx.setServer hpc (fun _ => rfl) ((hx.server_at hpc rfl).read_other hpipe)
  | serverRead hpc hpipe =>
      exact hx.setServer hpc (fun _ => rfl) ((hx.server_at hpc rfl).read hpipe)
  | serverMiss hpc hqueue => exact absurd hqueue (hx.not_missed.1 hpc)
  | serverPop hpc hqueue =>
      exact hx.setServer hpc (fun _ => rfl) ((hx.server_at hpc rfl).pop hqueue)
  | @accept _ w p hpc _ =>
      have hset : Balance cfg (x.setServer (.passed w p) x.server) :=
        hx.setServer hpc (fun _ => rfl) (hx.server_at hpc rfl)
      exact ⟨hset.server, hset.worker, hset.signaling, hset.nullPops⟩
  | reject hpc _ =>
      have hset : Balance cfg (x.setServer .idle x.server) :=
        hx.setServer hpc (fun _ => rfl) (hx.server_at hpc rfl)
      exact ⟨hset.server, hset.worker, hset.signaling, hset.nullPops⟩
  | handOver hpc => exact hx.handOver hpc
  | notifyWorker hpc => exact hx.notifyWorker hpc
  | workerSkip _ hpc hpipe =>
      exact hx.setWorker hpc (fun _ => rfl) ((hx.worker_at hpc rfl).read_other hpipe)
  | workerRead _ hpc hpipe =>
      exact hx.setWorker hpc (fun _ => rfl) ((hx.worker_at hpc rfl).read hpipe)
  | workerMiss _ hpc hqueue => exact absurd hqueue (hx.not_missed.2.1 _ hpc)
  | workerPop _ hpc hqueue =>
      exact hx.setWorker hpc (fun _ => rfl) ((hx.worker_at hpc rfl).pop hqueue)
  | @make w offer p _ hpc _ =>
      have hset : Balance cfg (x.setWorker w (.made { p with sdp := offer }) (x.worker w)) :=
        hx.setWorker hpc (fun _ => rfl) (hx.worker_at hpc rfl)
      exact ⟨hset.server, hset.worker, hset.signaling, hset.nullPops⟩
  | workerDrop _ hpc _ =>
      exact hx.setWorker hpc (fun _ => rfl) (hx.worker_at hpc rfl)
  | discard _ hpc _ =>
      exact hx.setWorker hpc (fun _ => rfl) (hx.worker_at hpc rfl)
  | giveBack hw hpc _ => exact hx.giveBack hw hpc
  | notifySignaling hw hpc => exact hx.notifySignaling hw hpc

/-- **Runs.** The balance holds in every state that a run reaches. -/
theorem balance_run {actions : List PipelineAction} (hrun : run (step cfg) {} actions = some x) :
    Balance cfg x :=
  run_preserves (Balance cfg) (fun hx hstep => hx.move (step_move hstep)) (balance_start cfg) hrun

/-- **A system at rest has empty queues.** -/
theorem Balance.queues_eq_nil (hx : Balance cfg x) (hdrained : x.Drained cfg) :
    x.server.queue = [] ∧ (∀ w < cfg.workers, (x.worker w).queue = []) ∧
      ∀ s < cfg.signalingNum, (x.signaling s).queue = [] := by
  refine ⟨?_, ?_, ?_⟩
  · have howed : ∑ s ∈ range cfg.signalingNum, (x.signalingPc s).owes = 0 := by
      apply sum_eq_zero
      intro s hs
      rw [(hdrained.signaling s (mem_range.mp hs)).1]
      rfl
    have hserver := hx.server
    rw [howed, hdrained.server.1] at hserver
    exact hserver.eq_nil hdrained.server.2
  · intro w hw
    have hworker := hx.worker w
    rw [hdrained.server.1, (hdrained.worker w hw).1] at hworker
    exact hworker.eq_nil (hdrained.worker w hw).2
  · intro s hs
    have howed : ∑ w ∈ range cfg.workers, (x.workerPc w).owes s = 0 := by
      apply sum_eq_zero
      intro w hw
      rw [(hdrained.worker w (mem_range.mp hw)).1]
      rfl
    have hsignaling := hx.signaling s
    rw [howed, (hdrained.signaling s hs).1] at hsignaling
    exact hsignaling.eq_nil (hdrained.signaling s hs).2

end Pipeline

end Xrtc.Server
