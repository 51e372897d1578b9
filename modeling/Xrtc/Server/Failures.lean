/-
# What becomes of a failure behind the dispatch

Three things can go wrong with a push request after it was dispatched: there is
no certificate, there is no worker for its stream, and the offer is empty. The
first two end in the server, which drops the message; the third is not looked at
on the way back. No stage ever writes the error number of a message, so the
error branch of the reply is never taken.
-/

import Xrtc.Server.Flow

namespace Xrtc.Server

open Xrtc.Machine Xrtc.Base

namespace Pipeline

variable {cfg : PipelineConfig} {x y : Pipeline} {action : PipelineAction} {label : Label}

/-- There was no certificate, or no worker. -/
def Rejected (x : Pipeline) (label : Label) : Prop := (label, false) ∈ x.checked

/-- The offer was empty. -/
def WithoutOffer (x : Pipeline) (label : Label) : Prop :=
  ∃ w, ∃ p ∈ x.processed w, p.label = label ∧ p.sdp = []

/-- A stage behind the dispatch failed. -/
def Failed (x : Pipeline) (label : Label) : Prop := x.Rejected label ∨ x.WithoutOffer label

/-- The replies that the connection of a request was given for it. -/
def repliesTo (x : Pipeline) (label : Label) : List ResRoot :=
  (x.replies.filter fun reply => reply.1 = label).map Prod.snd

/-- A failure, if there was one, has been reported to a connection that is still open. -/
def Reported (x : Pipeline) (label : Label) : Prop :=
  x.Failed label → label ∉ x.closed → ∃ reply, x.repliesTo label = [reply] ∧ reply.errNo ≠ 0

/-- The reply to a request, as far as `_response_server_offer` builds it. -/
theorem IsPush.resRoot_eq {p : Parcel} (hpush : IsPush cfg p.label) :
    SignalingWorker.resRoot p.msg =
      { errNo := 0, errMsg := "process sdp success", offer := p.sdp } := by
  have herrNo : p.msg.errNo = 0 := hpush.errNo
  rw [SignalingWorker.resRoot, herrNo, if_neg (by decide)]
  rfl

/-- The replies are those of the calls of `_response_server_offer`. -/
structure Answered (x : Pipeline) : Prop where
  sound : ∀ reply ∈ x.replies, ∃ s, ∃ p ∈ x.responded s,
    p.label = reply.1 ∧ SignalingWorker.resRoot p.msg = reply.2
  given : ∀ label s, label.request.worker = some s → label ∉ x.closed → 0 < label.request.fd →
    x.repliesTo label =
      ((x.responded s).filter fun p => p.label = label).map fun p => SignalingWorker.resRoot p.msg

theorem answered_start : Answered {} where
  sound := List.forall_mem_nil _
  given _ _ _ _ _ := rfl

theorem Answered.close (hx : Answered x) (s : ℕ) (addr : Addr) : Answered (x.close s addr) where
  sound := hx.sound
  given label s' howner hopen hfd := by
    have hbefore : label ∉ x.closed := by
      intro hclosed
      exact hopen (List.mem_append_left _ hclosed)
    exact hx.given label s' howner hbefore hfd

theorem Answered.respond {s : ℕ} {p : Parcel} (hx : Answered x) (hflow : Flow cfg x)
    (hpc : x.signalingPc s = .popped p) : Answered (x.respond s p) where
  sound reply hreply := by
    have hold (hmem : reply ∈ x.replies) : ∃ s', ∃ p' ∈ (x.respond s p).responded s',
        p'.label = reply.1 ∧ SignalingWorker.resRoot p'.msg = reply.2 := by
      obtain ⟨s', p', hp', hreply⟩ := hx.sound reply hmem
      refine ⟨s', p', ?_, hreply⟩
      simp only [Pipeline.respond]
      rcases eq_or_ne s' s with rfl | hne
      · rw [Function.update_self]
        exact List.mem_append_left _ hp'
      · rwa [Function.update_of_ne hne]
    simp only [Pipeline.respond] at hreply
    split_ifs at hreply
    · rw [List.mem_append, List.mem_singleton] at hreply
      rcases hreply with hmem | rfl
      · exact hold hmem
      · refine ⟨s, p, ?_, rfl, rfl⟩
        simp [Pipeline.respond]
    · exact hold hreply
  given label t howner hopen hfd := by
    have hgiven := hx.given label t howner hopen hfd
    have hmem : p ∈ x.signalingTrail s := by simp [signalingTrail, hpc, SignalingPc.held]
    by_cases hlabel : p.label = label
    · subst hlabel
      obtain rfl : t = s := by
        rw [hflow.owned_of_mem_signalingTrail hmem, Option.some.injEq] at howner
        exact howner.symm
      have hcond : 0 < p.label.request.fd ∧ p.label ∉ x.closed := ⟨hfd, hopen⟩
      simp only [repliesTo, Pipeline.respond, if_pos hcond, Function.update_self] at hgiven ⊢
      simp [hgiven]
    · have hreplies : (x.respond s p).repliesTo label = x.repliesTo label := by
        simp only [repliesTo, Pipeline.respond]
        split_ifs
        · simp [hlabel]
        · rfl
      rw [hreplies, hgiven]
      simp only [Pipeline.respond]
      rcases eq_or_ne t s with rfl | hne
      · simp [hlabel]
      · rw [Function.update_of_ne hne]

theorem Answered.move (hx : Answered x) (hflow : Flow cfg x) (hmove : Move cfg x action y) :
    Answered y := by
  cases hmove with
  | respond _ hpc _ => exact hx.respond hflow hpc
  | close _ _ => exact hx.close _ _
  | _ => exact ⟨hx.sound, hx.given⟩

theorem answered_run {actions : List PipelineAction} (hrun : run (step cfg) {} actions = some x) :
    Answered x := by
  have hboth : Flow cfg x ∧ Answered x := by
    refine run_preserves (fun x => Flow cfg x ∧ Answered x) ?_ ⟨flow_start cfg, answered_start⟩ hrun
    intro x y action hx hstep
    exact ⟨hx.1.move (step_move hstep), hx.2.move hx.1 (step_move hstep)⟩
  exact hboth.2

/-! ## The error branch is dead -/

theorem Flow.responded_push {s : ℕ} {p : Parcel} (hx : Flow cfg x) (hmem : p ∈ x.responded s) :
    ∃ w, p ∈ x.processed w :=
  hx.origin s p (List.mem_append_left _ hmem)

/-- **No reply ever carries an error number.** -/
theorem Answered.errNo_eq_zero {reply : Label × ResRoot} (hx : Answered x) (hflow : Flow cfg x)
    (hreply : reply ∈ x.replies) : reply.2.errNo = 0 := by
  obtain ⟨s, p, hp, _, hroot⟩ := hx.sound reply hreply
  obtain ⟨w, hw⟩ := hflow.responded_push hp
  rw [← hroot, (hflow.push_of_processed hw).1.resRoot_eq]

theorem Answered.not_reported (hx : Answered x) (label : Label) (hflow : Flow cfg x) :
    ¬ ∃ reply, x.repliesTo label = [reply] ∧ reply.errNo ≠ 0 := by
  rintro ⟨reply, hreplies, herrNo⟩
  have hmem : reply ∈ x.repliesTo label := by simp [hreplies]
  rw [repliesTo, List.mem_map] at hmem
  obtain ⟨entry, hentry, rfl⟩ := hmem
  exact herrNo (hx.errNo_eq_zero hflow (List.mem_filter.mp hentry).1)

/-- What the server has rejected is never answered. -/
theorem Answered.repliesTo_of_rejected (hx : Answered x) (hflow : Flow cfg x)
    (hrejected : x.Rejected label) : x.repliesTo label = [] := by
  have hnot : label ∉ x.accepted := by
    have hnodup : (x.checked.map Prod.fst).Nodup :=
      hflow.nodup.sublist hflow.checked_isPrefix.sublist
    intro hmem
    rw [accepted, List.mem_map] at hmem
    obtain ⟨entry, hentry, hlabel⟩ := hmem
    rw [List.mem_filter] at hentry
    have hsame : entry = (label, false) := List.inj_on_of_nodup_map hnodup hentry.1 hrejected hlabel
    rw [hsame] at hentry
    exact Bool.false_ne_true hentry.2
  rw [repliesTo, List.map_eq_nil_iff, List.filter_eq_nil_iff]
  intro reply hreply hlabel
  obtain ⟨s, p, hp, hfst, _⟩ := hx.sound reply hreply
  obtain ⟨w, hw⟩ := hflow.responded_push hp
  have htrail : p.label ∈ x.workerTrail w :=
    (processed_isPrefix x w).subset (List.mem_map_of_mem hw)
  rw [← hflow.worker w, List.mem_filter, hfst, of_decide_eq_true hlabel] at htrail
  exact hnot htrail.1

/-- An empty offer comes back as a success. -/
theorem Answered.repliesTo_of_withoutOffer (hx : Answered x) (hflow : Flow cfg x)
    (hbalance : Balance cfg x) (hdrained : x.Drained cfg) (hfailed : x.WithoutOffer label)
    (hopen : label ∉ x.closed) (hfd : 0 < label.request.fd) :
    x.repliesTo label = [{ errNo := 0, errMsg := "process sdp success", offer := [] }] := by
  obtain ⟨w, p, hp, rfl, hsdp⟩ := hfailed
  obtain ⟨hpush, hroute⟩ := hflow.push_of_processed hp
  obtain ⟨s, hs, howner⟩ := hpush.owner
  have honce : x.timesResponded s p.label = 1 := by
    rw [hflow.timesResponded_eq hbalance hdrained hs hroute howner]
    apply le_antisymm (hflow.timesProcessed_le_one w p.label)
    rw [timesProcessed, Nat.succ_le_iff, List.countP_pos_iff]
    exact ⟨p, hp, decide_eq_true rfl⟩
  rw [timesResponded, List.countP_eq_length_filter, List.length_eq_one_iff] at honce
  obtain ⟨q, hq⟩ := honce
  have hmem : q ∈ (x.responded s).filter fun p' => p'.label = p.label := by simp [hq]
  rw [List.mem_filter, decide_eq_true_iff] at hmem
  -- the worker has processed one message with this label, so this is the one
  have hsame : q = p := by
    obtain ⟨w', hw'⟩ := hflow.responded_push hmem.1
    have hroute' := (hflow.push_of_processed hw').2
    rw [hmem.2, hroute, Option.some.injEq] at hroute'
    subst hroute'
    have hnodup : ((x.processed w).map Parcel.label).Nodup := by
      apply List.Nodup.sublist (processed_isPrefix x w).sublist
      rw [← hflow.worker w]
      exact hflow.nodup_accepted.filter _
    exact List.inj_on_of_nodup_map hnodup hw' hp hmem.2
  rw [hx.given p.label s howner hopen hfd, hq, hsame, List.map_singleton, hpush.resRoot_eq, hsdp]

/-- **A failure is never reported.** At rest, a request for which a stage failed
and whose connection is still open has not been given one reply with an error
number: it was given none if the server dropped it, and one that announces
success if its offer is empty. -/
theorem reported_iff (cfg : PipelineConfig) (actions : List PipelineAction) (x : Pipeline)
    (hrun : run (step cfg) {} actions = some x) (hdrained : x.Drained cfg) (label : Label) :
    (x.Reported label ↔ ¬ x.Failed label ∨ label ∈ x.closed) ∧
      (x.Rejected label → x.repliesTo label = []) ∧
      (x.WithoutOffer label → label ∉ x.closed → 0 < label.request.fd →
        x.repliesTo label = [{ errNo := 0, errMsg := "process sdp success", offer := [] }]) := by
  have hflow := flow_run hrun
  have hanswered := answered_run hrun
  refine ⟨?_, hanswered.repliesTo_of_rejected hflow, ?_⟩
  · constructor
    · intro hreported
      by_contra! hboth
      exact hanswered.not_reported label hflow (hreported hboth.1 hboth.2)
    · rintro (hnot | hclosed) hfailed hopen
      · exact absurd hfailed hnot
      · exact absurd hclosed hopen
  · exact hanswered.repliesTo_of_withoutOffer hflow (balance_run hrun) hdrained

/-- One signaling worker and one RTC worker. -/
def oneByOne : PipelineConfig where
  signalingNum := 1
  workers := 1
  options := ⟨1, RtcServerOptions.isInt_one⟩

/-- For the first request there is no certificate, for the second no offer. -/
def twoFailures : List PipelineAction :=
  [.send 0 4096 7 ⟨1, [115], 1, 1⟩ 10, .signaling 0, .send 0 8192 8 ⟨2, [116], 1, 0⟩ 11,
    .signaling 0] ++
  List.replicate 3 (.server none) ++ List.replicate 5 (.server (some 64)) ++
  List.replicate 5 (.worker 0 []) ++ List.replicate 3 (.signaling 0)

/-- The request for the stream `s`, the first to enter. -/
def firstRequest : Label := ⟨0, SignalingWorker.processPush 0 4096 7 ⟨1, [115], 1, 1⟩ 10⟩

/-- The request for the stream `t`. -/
def secondRequest : Label := ⟨1, SignalingWorker.processPush 0 8192 8 ⟨2, [116], 1, 0⟩ 11⟩

/-- What the run leaves behind. -/
def TwoFailures (x : Pipeline) : Prop :=
  x.Drained oneByOne ∧ x.entered = [firstRequest, secondRequest] ∧
    x.checked = [(firstRequest, false), (secondRequest, true)] ∧
    x.processed 0 = [{ label := secondRequest, certificate := some 64 }] ∧ x.closed = []

instance (x : Pipeline) : Decidable x.TwoFailures :=
  inferInstanceAs (Decidable (_ ∧ _ ∧ _ ∧ _ ∧ _))

theorem run_twoFailures :
    ∃ x, run (step oneByOne) {} twoFailures = some x ∧ x.TwoFailures := by
  have hrecord : (run (step oneByOne) {} twoFailures).map (fun x => decide x.TwoFailures) =
      some true := by decide +kernel
  obtain ⟨x, hrun, hx⟩ := Option.map_eq_some_iff.mp hrecord
  exact ⟨x, hrun, of_decide_eq_true hx⟩

theorem TwoFailures.rejected (hx : x.TwoFailures) : x.Rejected firstRequest := by
  rw [Rejected, hx.2.2.1]
  exact List.mem_cons_self

theorem TwoFailures.withoutOffer (hx : x.TwoFailures) : x.WithoutOffer secondRequest := by
  refine ⟨0, { label := secondRequest, certificate := some 64 }, ?_, rfl, rfl⟩
  rw [hx.2.2.2.1]
  exact List.mem_singleton_self _

theorem TwoFailures.not_mem_closed (hx : x.TwoFailures) (label : Label) : label ∉ x.closed := by
  rw [hx.2.2.2.2]
  exact List.not_mem_nil

theorem reported_iff_twoFailures : ∃ x, run (step oneByOne) {} twoFailures = some x ∧
    x.repliesTo firstRequest = [] ∧
    x.repliesTo secondRequest = [{ errNo := 0, errMsg := "process sdp success", offer := [] }] := by
  obtain ⟨x, hrun, hx⟩ := run_twoFailures
  have hfirst := reported_iff oneByOne twoFailures x hrun hx.1 firstRequest
  have hsecond := reported_iff oneByOne twoFailures x hrun hx.1 secondRequest
  exact ⟨x, hrun, hfirst.2.1 hx.rejected,
    hsecond.2.2 hx.withoutOffer (hx.not_mem_closed _) (by decide)⟩

theorem twoFailures_not_reported : ∃ x, run (step oneByOne) {} twoFailures = some x ∧
    x.Drained oneByOne ∧ (firstRequest ∈ x.entered ∧ ¬ x.Reported firstRequest) ∧
    secondRequest ∈ x.entered ∧ ¬ x.Reported secondRequest := by
  obtain ⟨x, hrun, hx⟩ := run_twoFailures
  have hsilent (label : Label) := (answered_run hrun).not_reported label (flow_run hrun)
  refine ⟨x, hrun, hx.1, ⟨by simp [hx.2.1], ?_⟩, by simp [hx.2.1], ?_⟩
  · intro hreported
    exact hsilent _ (hreported (Or.inl hx.rejected) (hx.not_mem_closed _))
  · intro hreported
    exact hsilent _ (hreported (Or.inr hx.withoutOffer) (hx.not_mem_closed _))

end Pipeline

end Xrtc.Server
