/-
# Exactly once, through three hops

With a certificate at hand and as many RTC workers as configured, the server
accepts every message. Then every push request is processed at most once, by the
worker that the checksum of its stream name selects, and requests for one stream
in the order of their entry; it comes back at most once, to the signaling worker
it came from. At rest, at most once is exactly once.
-/

import Xrtc.Server.Flow

namespace Xrtc.Server

open Xrtc.Machine Xrtc.Base

namespace Pipeline

variable {cfg : PipelineConfig} {x y : Pipeline} {action : PipelineAction}

/-- Where the server looks for a certificate, there is one. -/
def Provided : PipelineAction → Prop
  | .server certificate => certificate ≠ none
  | _ => True

instance : DecidablePred Provided
  | .server certificate => inferInstanceAs (Decidable (certificate ≠ none))
  | .send .. | .newConn _ | .close .. | .signaling _ | .worker .. => .isTrue trivial

/-- `worker_num` is the number of workers, and there is one. -/
structure Staffed (cfg : PipelineConfig) : Prop where
  workerNum : cfg.options.workerNum = cfg.workers
  pos : 1 ≤ cfg.options.workerNum

/-- The index that `_get_worker` computes. -/
def selected (cfg : PipelineConfig) (label : Label) : ℤ :=
  (computeCrc32 label.request.streamName).toNat % cfg.options.workerNum

/-- The law of the pipeline at one moment. -/
structure Conserved (cfg : PipelineConfig) (x : Pipeline) : Prop where
  processed : ∀ label (w : ℕ), x.timesProcessed w label ≤ if w = selected cfg label then 1 else 0
  ordered : ∀ name w, ((x.processed w).map Parcel.label).filter (·.request.streamName = name) <+:
    x.entered.filter (·.request.streamName = name)
  responded : ∀ label s, x.timesResponded s label ≤
    if label.request.worker = some s then 1 else 0
  nullPops : x.nullPops = 0
  queues : x.Drained cfg → x.server.queue = [] ∧ (∀ w < cfg.workers, (x.worker w).queue = []) ∧
    ∀ s < cfg.signalingNum, (x.signaling s).queue = []
  complete : x.Drained cfg → ∀ label ∈ x.entered,
    (∃ w : ℕ, w = selected cfg label ∧ x.timesProcessed w label = 1) ∧
      ∃ s, label.request.worker = some s ∧ x.timesResponded s label = 1

theorem Staffed.route_eq (hcfg : Staffed cfg) (label : Label) :
    ∃ w : ℕ, w = selected cfg label ∧ route cfg label = some w := by
  obtain ⟨hworkers, hpos⟩ := hcfg
  have hint := cfg.options.isInt
  refine ⟨(computeCrc32 label.request.streamName).toNat % cfg.workers, ?_, ?_⟩
  · rw [selected, hworkers, Int.natCast_mod]
  · have hsize : toSize cfg.options.workerNum = cfg.workers := by
      rw [toSize_of_nonneg (by omega) (by omega)]
      omega
    have hnum : (cfg.options.workerNum % 2 ^ 32).toNat = cfg.workers := by omega
    rw [route, getWorker, hnum, hsize, if_neg]
    omega

/-- Nothing is rejected. -/
def AllAccepted (x : Pipeline) : Prop := ∀ entry ∈ x.checked, entry.2 = true

theorem AllAccepted.move (hx : AllAccepted x) (hcfg : Staffed cfg) (hprovided : Provided action)
    (hmove : Move cfg x action y) : AllAccepted y := by
  cases hmove with
  | accept _ _ =>
      intro entry hentry
      simp only [Pipeline.accept, List.mem_append, List.mem_singleton] at hentry
      rcases hentry with hold | rfl
      · exact hx entry hold
      · rfl
  | @reject certificate p _ hfailed =>
      obtain ⟨w, _, hroute⟩ := hcfg.route_eq p.label
      rcases hfailed with hnone | hnone
      · exact absurd hnone hprovided
      · rw [hroute] at hnone
        cases hnone
  | _ => exact hx

theorem AllAccepted.accepted_eq (hx : AllAccepted x) : x.accepted = x.checked.map Prod.fst := by
  rw [accepted, List.filter_eq_self.mpr hx]

/-- What a worker has done for one stream is the beginning of what entered for it. -/
theorem Flow.ordered (hx : Flow cfg x) (haccepted : AllAccepted x) (name : List UInt8) (w : ℕ) :
    ((x.processed w).map Parcel.label).filter (·.request.streamName = name) <+:
      x.entered.filter (·.request.streamName = name) := by
  have hprocessed := (processed_isPrefix x w).filter (·.request.streamName = name)
  rw [← hx.worker w, haccepted.accepted_eq, List.filter_filter] at hprocessed
  have hentered := hx.checked_isPrefix.filter (·.request.streamName = name)
  -- all requests of one stream have one route
  by_cases hroute : getWorker cfg.workers cfg.options name = some w
  · have hsame : (fun label : Label =>
        decide (label.request.streamName = name) && isFor cfg w label) =
        fun label => decide (label.request.streamName = name) := by
      funext label
      by_cases hname : label.request.streamName = name
      · simp [isFor, route, hname, hroute]
      · simp [hname]
    rw [hsame] at hprocessed
    exact hprocessed.trans hentered
  · have hnone : (fun label : Label =>
        decide (label.request.streamName = name) && isFor cfg w label) = fun _ => false := by
      funext label
      by_cases hname : label.request.streamName = name
      · simp [isFor, route, hname, hroute]
      · simp [hname]
    rw [hnone, List.filter_false, List.prefix_nil] at hprocessed
    rw [hprocessed]
    exact List.nil_prefix

theorem Flow.conserved (hcfg : Staffed cfg) (hx : Flow cfg x) (hbalance : Balance cfg x)
    (haccepted : AllAccepted x) : Conserved cfg x where
  processed label w := by
    obtain ⟨target, hselected, hroute⟩ := hcfg.route_eq label
    split_ifs with hw
    · exact hx.timesProcessed_le_one w label
    · rw [hx.timesProcessed_eq_zero]
      rw [hroute, ne_eq, Option.some.injEq]
      rintro rfl
      exact hw hselected
  ordered := hx.ordered haccepted
  responded label s := by
    obtain ⟨_, _, hroute⟩ := hcfg.route_eq label
    exact hx.timesResponded_le_one hroute s
  nullPops := hbalance.nullPops
  queues := hbalance.queues_eq_nil
  complete hdrained label hlabel := by
    obtain ⟨w, hselected, hroute⟩ := hcfg.route_eq label
    obtain ⟨s, hs, howner⟩ := (hx.pushes label hlabel).owner
    have hmem : label ∈ x.accepted := by
      rw [haccepted.accepted_eq, ← hx.entered_eq hbalance hdrained]
      exact hlabel
    have hprocessed := hx.timesProcessed_eq_one hbalance hdrained hmem hroute
    refine ⟨⟨w, hselected, hprocessed⟩, s, howner, ?_⟩
    rw [hx.timesResponded_eq hbalance hdrained hs hroute howner, hprocessed]

/-- **The pipeline neither loses, doubles, misroutes nor reorders.** Whatever the
interleaving, the law holds at every moment of every run. -/
theorem run_conserved (cfg : PipelineConfig) (hcfg : Staffed cfg) (actions : List PipelineAction)
    (hprovided : ∀ action ∈ actions, Provided action) (x : Pipeline)
    (hrun : run (step cfg) {} actions = some x) : Conserved cfg x := by
  have hstart : AllAccepted {} := List.forall_mem_nil _
  have hmeets : RunMeets (step cfg) (fun _ action => Provided action) {} actions :=
    runMeets_of_forall hprovided
  have haccepted : AllAccepted x := by
    refine run_preserves_of_meets AllAccepted ?_ hstart hmeets hrun
    intro x y action hx hprovided hstep
    exact hx.move hcfg hprovided (step_move hstep)
  exact (flow_run hrun).conserved hcfg (balance_run hrun) haccepted

/-- Two signaling workers and two RTC workers. -/
def twoByTwo : PipelineConfig where
  signalingNum := 2
  workers := 2
  options := ⟨2, by decide⟩

/-- Both signaling workers push before either of them writes its token; then the
requests go round. -/
def crossed : List PipelineAction :=
  [.send 0 4096 7 ⟨1, [115], 1, 1⟩ 10, .send 1 8192 8 ⟨2, [116], 1, 0⟩ 11,
    .signaling 1, .newConn 0, .server (some 64), .server (some 64), .signaling 0] ++
  List.replicate 8 (.server (some 64)) ++ List.replicate 5 (.worker 0 [118]) ++
  List.replicate 5 (.worker 1 [118]) ++ List.replicate 4 (.signaling 0) ++
  List.replicate 3 (.signaling 1)

theorem run_conserved_crossed :
    ∃ x, run (step twoByTwo) {} crossed = some x ∧
      (x.entered.length = 2 ∧ (x.responded 0).length = 1 ∧ (x.responded 1).length = 1) ∧
      Conserved twoByTwo x := by
  have hrecord : (run (step twoByTwo) {} crossed).map
      (fun x => (x.entered.length, (x.responded 0).length, (x.responded 1).length)) =
      some (2, 1, 1) := by decide +kernel
  obtain ⟨x, hrun, hx⟩ := Option.map_eq_some_iff.mp hrecord
  simp only [Prod.mk.injEq] at hx
  have hprovided : ∀ action ∈ crossed, Provided action := by decide +kernel
  exact ⟨x, hrun, hx, run_conserved twoByTwo ⟨rfl, by decide⟩ crossed hprovided x hrun⟩

end Pipeline

end Xrtc.Server
