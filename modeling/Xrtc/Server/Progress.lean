/-
# The pipeline comes to rest

Conservation says what holds once the pipeline is at rest, and nothing about whether
it ever is. Here the work that is left is counted: every step of a thread takes at
least one unit of it away, whatever the other threads do in between, and only new
messages and new connections add to it. A message in a queue is worth all the steps
that it still causes on its way back. So the threads cannot keep each other busy, and
as long as the system is not at rest one of them can move. Together with the flow of
the messages this says what a client relies on: every request that the server took
gets to its response, or was rejected, after boundedly many steps.

The pipes here are unbounded. What bounded pipes do to the threads is the subject of
`Xrtc.Server.Blocking`.
-/

import Xrtc.Server.Flow

namespace Xrtc.Server

open Xrtc.Machine Xrtc.Base Finset

/-- A step of one of the threads on what is already there: neither a new request nor
a new or closed connection. -/
def PipelineAction.Internal : PipelineAction → Prop
  | .signaling _ | .server _ | .worker _ _ => True
  | .send _ _ _ _ _ | .newConn _ | .close _ _ => False

/-- One for every step of a thread. -/
def PipelineAction.steps : PipelineAction → ℕ
  | .signaling _ | .server _ | .worker _ _ => 1
  | .send _ _ _ _ _ | .newConn _ | .close _ _ => 0

/-- The steps that an event may cause: fourteen for a request, one for a connection. -/
def PipelineAction.allowance : PipelineAction → ℕ
  | .send _ _ _ _ _ => 14
  | .newConn _ => 1
  | .close _ _ | .signaling _ | .server _ | .worker _ _ => 0

/-! ## The work that is left

A parcel is worth one step at its signaling worker, six in front of its RTC worker
and eleven in front of the server. -/

def SignalingPc.work : SignalingPc → ℕ
  | .idle => 0
  | .sending => 3
  | .notified | .popped _ => 1

def WorkerPc.work : WorkerPc → ℕ
  | .idle => 0
  | .notified => 1
  | .popped _ => 6
  | .made _ => 5
  | .pushed _ => 3

def ServerPc.work : ServerPc → ℕ
  | .idle => 0
  | .notified => 1
  | .popped _ => 11
  | .passed _ _ => 10
  | .pushed _ => 3

namespace Pipeline

def serverWork (x : Pipeline) : ℕ := x.serverPc.work + x.server.potential 11

def workerWork (cfg : PipelineConfig) (x : Pipeline) : ℕ :=
  ∑ w ∈ range cfg.workers, (x.workerPc w).work + ∑ w ∈ range cfg.workers, (x.worker w).potential 6

def signalingWork (cfg : PipelineConfig) (x : Pipeline) : ℕ :=
  ∑ s ∈ range cfg.signalingNum, (x.signalingPc s).work +
    ∑ s ∈ range cfg.signalingNum, (x.signaling s).potential 1

/-- An upper bound on the steps that the threads can still take. -/
def work (cfg : PipelineConfig) (x : Pipeline) : ℕ :=
  x.serverWork + x.workerWork cfg + x.signalingWork cfg

variable {cfg : PipelineConfig} {x y : Pipeline} {action : PipelineAction}

/-- What the server has accepted has a worker. -/
def Routed (cfg : PipelineConfig) (x : Pipeline) : Prop :=
  ∀ label, (label, true) ∈ x.checked → ∃ w, route cfg label = some w

theorem Routed.move (hx : Routed cfg x) (hmove : Move cfg x action y) : Routed cfg y := by
  cases hmove with
  | @accept certificate w p _ hroute =>
      intro label hlabel
      simp only [Pipeline.accept, List.mem_append, List.mem_singleton, Prod.mk.injEq] at hlabel
      rcases hlabel with hold | ⟨rfl, -⟩
      · exact hx label hold
      · exact ⟨w, hroute⟩
  | reject _ _ =>
      intro label hlabel
      simp only [Pipeline.reject, List.mem_append, List.mem_singleton, Prod.mk.injEq,
        Bool.true_eq_false, and_false, or_false] at hlabel
      exact hx label hlabel
  | _ => exact hx

end Pipeline

end Xrtc.Server
