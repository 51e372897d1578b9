/-
# The certificate that a message points to

The RTC server holds the current certificate by a counted reference and puts a
raw pointer to it into every message. The RTC worker hands the pointer to the
stream it creates, and the stream keeps it. When a message finds the certificate
expired, the server assigns a new one to its reference, and the old one loses
the only reference there is, whoever still points to it.

Certificates are named here in the order in which they are made, so that a name
stands for one object for good, even where the allocator gives its address to
another one later.
-/

import Xrtc.Server.Pipeline
import Xrtc.Stream.RtcStreamManager

namespace Xrtc.Server

open Xrtc.Machine Xrtc.Base Xrtc.Stream

/-- The pipeline with the server's reference, the reference counts, and the
stream manager of every RTC worker. -/
structure CertifiedPipeline where
  pipeline : Pipeline := {}
  /-- `RtcServer::_certificate`. -/
  certificate : Option Addr := none
  expires : Addr → ℕ := fun _ => 0
  /-- The number of certificates made so far. -/
  made : ℕ := 0
  refs : Addr → ℕ := fun _ => 0
  managers : ℕ → RtcStreamManager := fun _ => {}

inductive CertificateAction
  /-- A step that is neither the server's nor an RTC worker's. -/
  | other (action : PipelineAction)
  /-- The next step of the server. `now` is the clock, and `generated` the
  expiration time of the certificate that the generator makes, if it makes one. -/
  | server (now : ℕ) (generated : Option ℕ)
  /-- The next step of an RTC worker. `addr` is where a new stream is put. -/
  | worker (w : ℕ) (addr : Addr)

namespace CertifiedPipeline

/-- `Release` on what a reference holds. -/
def release (refs : Addr → ℕ) : Option Addr → Addr → ℕ
  | none => refs
  | some certificate => Function.update refs certificate (refs certificate - 1)

/-- The assignment of what `GenerateCertificate` returns to `_certificate`. -/
def renew (s : CertifiedPipeline) : Option ℕ → CertifiedPipeline
  | none => { s with certificate := none, refs := release s.refs s.certificate }
  | some expires =>
      { s with
        certificate := some s.made
        expires := Function.update s.expires s.made expires
        made := s.made + 1
        refs := Function.update (release s.refs s.certificate) s.made 1 }

/-- There is no certificate, or it has expired. -/
def mustRenew (s : CertifiedPipeline) (now : ℕ) : Bool :=
  match s.certificate with
  | none => true
  | some certificate => decide (s.expires certificate ≤ now)

/-- `_generate_and_check_certificate`. It fails where it leaves no certificate. -/
def generateAndCheckCertificate (s : CertifiedPipeline) (now : ℕ) (generated : Option ℕ) :
    CertifiedPipeline :=
  if s.mustRenew now then s.renew generated else s

/-- The server after `init`, with its first certificate. -/
def start (expires : ℕ) : CertifiedPipeline := renew {} (some expires)

/-- The pipeline moves on. -/
def advance (cfg : PipelineConfig) (s : CertifiedPipeline) (action : PipelineAction) :
    Option CertifiedPipeline :=
  (s.pipeline.step cfg action).map fun pipeline => { s with pipeline := pipeline }

/-- The next step of the server. A message that was popped has the certificate
checked first. -/
def serverStep (cfg : PipelineConfig) (s : CertifiedPipeline) (now : ℕ) (generated : Option ℕ) :
    Option CertifiedPipeline :=
  match s.pipeline.serverPc with
  | .popped _ =>
      let s := s.generateAndCheckCertificate now generated
      s.advance cfg (.server s.certificate)
  | .idle | .notified | .passed _ _ | .pushed _ => s.advance cfg (.server none)

/-- The call of `create_push_stream` for a message. -/
def pushCall (p : Parcel) (addr : Addr) : PushCall where
  uid := p.msg.uid
  streamName := p.msg.streamName
  audio := p.msg.audio ≠ 0
  video := p.msg.video ≠ 0
  logId := (p.msg.logId % 2 ^ 32).toNat
  certificate := p.msg.certificate
  addr := addr

/-- The next step of an RTC worker. A push message creates a stream. -/
def workerStep (cfg : PipelineConfig) (createOffer : PushStream → List UInt8)
    (s : CertifiedPipeline) (w : ℕ) (addr : Addr) : Option CertifiedPipeline :=
  match s.pipeline.workerPc w with
  | .popped p =>
      if p.label.request.cmdno = CMDNO_PUSH then
        let call := pushCall p addr
        let offer := ((s.managers w).createPushStream createOffer call).2.2
        ((s.managers w).step createOffer call).bind fun manager =>
          { s with managers := Function.update s.managers w manager }.advance cfg
            (.worker w offer)
      else
        s.advance cfg (.worker w [])
  | .idle | .notified | .made _ | .pushed _ => s.advance cfg (.worker w [])

def step (cfg : PipelineConfig) (createOffer : PushStream → List UInt8) (s : CertifiedPipeline) :
    CertificateAction → Option CertifiedPipeline
  | .other (.server _) | .other (.worker _ _) => none
  | .other action => s.advance cfg action
  | .server now generated => s.serverStep cfg now generated
  | .worker w addr => s.workerStep cfg createOffer w addr

/-- Every certificate that a worker is about to hand to a stream, and every one
that a stream keeps, still has a reference. -/
structure Referenced (s : CertifiedPipeline) : Prop where
  used : ∀ w p, s.pipeline.workerPc w = .popped p → p.label.request.cmdno = CMDNO_PUSH →
    ∀ certificate, p.certificate = some certificate → 0 < s.refs certificate
  kept : ∀ w addr stream, (s.managers w).heap addr = some stream →
    ∀ certificate, stream.certificate = some certificate → 0 < s.refs certificate

/-- A message on its way to a stream, or a stream, points to the certificate. -/
def InUse (s : CertifiedPipeline) (certificate : Addr) : Prop :=
  (∃ w, ∃ p ∈ (s.pipeline.worker w).queue, p.certificate = some certificate) ∨
    (∃ w p, s.pipeline.workerPc w = .popped p ∧ p.certificate = some certificate) ∨
    ∃ w addr stream, (s.managers w).heap addr = some stream ∧
      stream.certificate = some certificate

/-- The condition on a step: a certificate is replaced only while it is not in use. -/
def Spared (s : CertifiedPipeline) : CertificateAction → Prop
  | .server now _ =>
      ∀ p, s.pipeline.serverPc = .popped p → s.mustRenew now = true →
        ∀ certificate, s.certificate = some certificate → ¬ s.InUse certificate
  | .other _ | .worker _ _ => True

end CertifiedPipeline

namespace Pipeline

/-! ## The messages between the check and the stream -/

/-- The message has its certificate and no stream yet. -/
def Carries (x : Pipeline) (p : Parcel) : Prop :=
  (∃ w, x.serverPc = .passed w p) ∨ (∃ w, p ∈ (x.worker w).queue) ∨
    ∃ w, x.workerPc w = .popped p

variable {cfg : PipelineConfig} {x y : Pipeline} {action : PipelineAction} {p : Parcel}

theorem Carries.of_setServer {pc : ServerPc} {m : Mailbox Parcel}
    (hpc : ∀ w p, pc ≠ .passed w p) (hp : (x.setServer pc m).Carries p) : x.Carries p := by
  rcases hp with ⟨w, hpassed⟩ | hrest
  · exact absurd hpassed (hpc w p)
  · exact Or.inr hrest

theorem Carries.of_setWorker {w : ℕ} {pc : WorkerPc} {m : Mailbox Parcel}
    (hqueue : ∀ p ∈ m.queue, p ∈ (x.worker w).queue)
    (hpc : ∀ p, pc = .popped p → p ∈ (x.worker w).queue)
    (hp : (x.setWorker w pc m).Carries p) : x.Carries p := by
  rcases hp with hpassed | ⟨v, hmem⟩ | ⟨v, hpopped⟩
  · exact Or.inl hpassed
  · by_cases hv : v = w
    · subst hv
      simp only [setWorker, Function.update_self] at hmem
      exact Or.inr (Or.inl ⟨v, hqueue p hmem⟩)
    · simp only [setWorker, Function.update_of_ne hv] at hmem
      exact Or.inr (Or.inl ⟨v, hmem⟩)
  · by_cases hv : v = w
    · subst hv
      simp only [setWorker, Function.update_self] at hpopped
      exact Or.inr (Or.inl ⟨v, hpc p hpopped⟩)
    · simp only [setWorker, Function.update_of_ne hv] at hpopped
      exact Or.inr (Or.inr ⟨v, hpopped⟩)

/-- The thread of a worker moves on without a message. -/
theorem Carries.of_thread (w : ℕ) (pc : WorkerPc) (hpc : ∀ p, pc ≠ .popped p)
    (hp : (x.setWorker w pc (x.worker w)).Carries p) : x.Carries p :=
  hp.of_setWorker (fun _ hmem => hmem) fun q hq => absurd hq (hpc q)

theorem Carries.of_handOver {w : ℕ} {q : Parcel} (hpc : x.serverPc = .passed w q)
    (hp : (x.handOver w q).Carries p) : x.Carries p := by
  rcases hp with ⟨v, hpassed⟩ | ⟨v, hmem⟩ | hpopped
  · cases hpassed
  · by_cases hv : v = w
    · subst hv
      simp only [handOver, Function.update_self, Mailbox.push, List.mem_append,
        List.mem_singleton] at hmem
      rcases hmem with hold | rfl
      · exact Or.inr (Or.inl ⟨v, hold⟩)
      · exact Or.inl ⟨v, hpc⟩
    · simp only [handOver, Function.update_of_ne hv] at hmem
      exact Or.inr (Or.inl ⟨v, hmem⟩)
  · exact Or.inr (Or.inr hpopped)

theorem Carries.of_notifyWorker {w : ℕ} (hp : (x.notifyWorker w).Carries p) : x.Carries p := by
  rcases hp with ⟨v, hpassed⟩ | ⟨v, hmem⟩ | hpopped
  · cases hpassed
  · by_cases hv : v = w
    · subst hv
      simp only [notifyWorker, Function.update_self, Mailbox.notify] at hmem
      exact Or.inr (Or.inl ⟨v, hmem⟩)
    · simp only [notifyWorker, Function.update_of_ne hv] at hmem
      exact Or.inr (Or.inl ⟨v, hmem⟩)
  · exact Or.inr (Or.inr hpopped)

/-- **One step of the pipeline**: a message with a certificate was there before,
or has just been given the server's. -/
theorem Carries.of_move (hmove : Move cfg x action y) (hp : y.Carries p) :
    x.Carries p ∨ ∃ certificate q, action = .server (some certificate) ∧
      x.serverPc = .popped q ∧ p.certificate = some certificate := by
  cases hmove with
  | send _ _ | newConn _ | close _ _ | notifyServer _ _ | signalingSkip _ _ _ | signalingRead _ _ _
  | signalingMiss _ _ _ | signalingPop _ _ _ | respond _ _ _ | signalingDrop _ _ _ =>
      exact Or.inl hp
  | serverSkip _ _ | serverRead _ _ | serverPop _ _ =>
      exact Or.inl (Carries.of_setServer (by simp) hp)
  | serverMiss _ _ => exact Or.inl (@Carries.of_setServer x p .idle x.server (by simp) hp)
  | @accept certificate w q hpc _ =>
      rcases hp with ⟨v, hpassed⟩ | hrest
      · cases hpassed
        exact Or.inr ⟨certificate, q, rfl, hpc, rfl⟩
      · exact Or.inl (Or.inr hrest)
  | reject hpc _ =>
      rcases hp with ⟨v, hpassed⟩ | hrest
      · cases hpassed
      · exact Or.inl (Or.inr hrest)
  | handOver hpc => exact Or.inl (hp.of_handOver hpc)
  | notifyWorker _ => exact Or.inl hp.of_notifyWorker
  | workerSkip _ _ _ | workerRead _ _ _ | workerDrop _ _ _ | discard _ _ _ =>
      refine Or.inl (Carries.of_setWorker ?_ ?_ hp)
      · exact fun _ hmem => hmem
      · rintro _ ⟨⟩
  | @workerPop w offer q rest _ _ hqueue =>
      refine Or.inl (Carries.of_setWorker ?_ ?_ hp)
      · intro r hr
        rw [hqueue]
        exact List.mem_cons_of_mem _ hr
      · rintro r ⟨⟩
        rw [hqueue]
        exact List.mem_cons_self
  | @workerMiss w offer _ _ _ => exact Or.inl (of_thread w .idle (by simp) hp)
  | @make w offer q _ _ _ => exact Or.inl (of_thread w (.made { q with sdp := offer }) (by simp) hp)
  | @giveBack w offer q s _ _ _ => exact Or.inl (of_thread w (.pushed s) (by simp) hp)
  | @notifySignaling w offer s _ _ => exact Or.inl (of_thread w .idle (by simp) hp)

end Pipeline

namespace CertifiedPipeline

/-! ## While no certificate in use is replaced -/

/-- The server's certificate has a reference, and nobody points to another one. -/
structure Covered (s : CertifiedPipeline) : Prop where
  current : ∀ certificate, s.certificate = some certificate → 0 < s.refs certificate
  carried : ∀ p, s.pipeline.Carries p → ∀ certificate, p.certificate = some certificate →
    s.certificate = some certificate
  kept : ∀ w addr stream, (s.managers w).heap addr = some stream →
    ∀ certificate, stream.certificate = some certificate → s.certificate = some certificate

variable {cfg : PipelineConfig} {createOffer : PushStream → List UInt8}
  {s next : CertifiedPipeline} {action : CertificateAction}

theorem renew_current (s : CertifiedPipeline) (generated : Option ℕ) (certificate : Addr)
    (hcertificate : (s.renew generated).certificate = some certificate) :
    0 < (s.renew generated).refs certificate := by
  cases generated with
  | none => cases hcertificate
  | some expires =>
      cases hcertificate
      simp [renew]

theorem covered_start (expires : ℕ) : (start expires).Covered where
  current := renew_current _ _
  carried := by
    rintro p (⟨w, hpassed⟩ | ⟨w, hmem⟩ | ⟨w, hpopped⟩)
    · cases hpassed
    · cases hmem
    · cases hpopped
  kept := by
    intro w addr stream hstream
    cases hstream

/-- The check of a popped message replaces no certificate in use. -/
theorem Covered.check {now : ℕ} {generated : Option ℕ} {q : Parcel} (hs : s.Covered)
    (hpc : s.pipeline.serverPc = .popped q) (hspared : s.Spared (.server now generated)) :
    (s.generateAndCheckCertificate now generated).Covered := by
  rw [generateAndCheckCertificate]
  split
  swap
  · exact hs
  rename_i hrenew
  have hsame : (s.renew generated).pipeline = s.pipeline ∧
      (s.renew generated).managers = s.managers := by
    cases generated with
    | none => exact ⟨rfl, rfl⟩
    | some expires => exact ⟨rfl, rfl⟩
  have hunused (certificate : Addr) (hcertificate : s.certificate = some certificate) :
      ¬ s.InUse certificate := hspared q hpc hrenew certificate hcertificate
  refine ⟨renew_current s generated, ?_, ?_⟩
  · rw [hsame.1]
    intro p hp certificate hcertificate
    refine absurd ?_ (hunused certificate (hs.carried p hp certificate hcertificate))
    rcases hp with ⟨w, hpassed⟩ | ⟨w, hmem⟩ | ⟨w, hpopped⟩
    · rw [hpc] at hpassed
      cases hpassed
    · exact Or.inl ⟨w, p, hmem, hcertificate⟩
    · exact Or.inr (Or.inl ⟨w, p, hpopped, hcertificate⟩)
  · rw [hsame.2]
    intro w addr stream hstream certificate hcertificate
    refine absurd ?_ (hunused certificate (hs.kept w addr stream hstream certificate hcertificate))
    exact Or.inr (Or.inr ⟨w, addr, stream, hstream, hcertificate⟩)

/-- A step of the pipeline in which only the server's certificate is given out. -/
theorem Covered.advance {move : PipelineAction} (hs : s.Covered)
    (hgiven : ∀ certificate, move = .server (some certificate) → s.certificate = some certificate)
    (hadvance : s.advance cfg move = some next) : next.Covered := by
  obtain ⟨pipeline, hstep, rfl⟩ := Option.map_eq_some_iff.mp hadvance
  refine ⟨hs.current, ?_, hs.kept⟩
  intro p hp certificate hcertificate
  rcases Pipeline.Carries.of_move (Pipeline.step_move hstep) hp with
    hold | ⟨given, q, hmove, -, hgave⟩
  · exact hs.carried p hold certificate hcertificate
  · rw [hgave] at hcertificate
    cases hcertificate
    exact hgiven certificate hmove

/-- The streams after a call are those before it and the new one. -/
theorem heap_of_step {m manager : RtcStreamManager} {call : PushCall} {addr : Addr}
    {stream : PushStream} (hstep : m.step createOffer call = some manager)
    (hstream : manager.heap addr = some stream) : m.heap addr = some stream ∨ stream = call.stream := by
  rw [RtcStreamManager.step] at hstep
  split at hstep
  swap
  · cases hstep
  cases hstep
  by_cases hnew : addr = call.addr
  · subst hnew
    cases (Function.update_self _ _ _).symm.trans hstream
    exact Or.inr rfl
  · have hold : (m.discard call.streamName).heap addr = some stream :=
      (Function.update_of_ne hnew _ _).symm.trans hstream
    rw [RtcStreamManager.discard] at hold
    split at hold
    · exact Or.inl hold
    · rename_i found _
      by_cases hfound : addr = found
      · subst hfound
        cases (Function.update_self _ _ _).symm.trans hold
      · exact Or.inl ((Function.update_of_ne hfound _ _).symm.trans hold)

theorem Covered.create {w : ℕ} {p : Parcel} {addr : Addr} {manager : RtcStreamManager}
    (hs : s.Covered) (hpc : s.pipeline.workerPc w = .popped p)
    (hstep : (s.managers w).step createOffer (pushCall p addr) = some manager) :
    Covered { s with managers := Function.update s.managers w manager } := by
  refine ⟨hs.current, hs.carried, ?_⟩
  intro v a stream hstream certificate hcertificate
  by_cases hv : v = w
  · subst hv
    simp only [Function.update_self] at hstream
    rcases heap_of_step hstep hstream with hold | rfl
    · exact hs.kept v a stream hold certificate hcertificate
    · exact hs.carried p (Or.inr (Or.inr ⟨v, hpc⟩)) certificate hcertificate
  · simp only [Function.update_of_ne hv] at hstream
    exact hs.kept v a stream hstream certificate hcertificate

/-- **One step** keeps the certificates covered. -/
theorem Covered.step (hs : s.Covered) (hspared : s.Spared action)
    (hstep : s.step cfg createOffer action = some next) : next.Covered := by
  cases action with
  | other move =>
      cases move with
      | server certificate => cases hstep
      | worker w offer => cases hstep
      | send _ _ _ _ _ | newConn _ | close _ _ | signaling _ =>
          exact hs.advance (by simp) hstep
  | server now generated =>
      rw [CertifiedPipeline.step, CertifiedPipeline.serverStep] at hstep
      split at hstep
      · rename_i q hpc
        refine (hs.check hpc hspared).advance ?_ hstep
        intro certificate hcertificate
        exact PipelineAction.server.inj hcertificate
      all_goals exact hs.advance (by simp) hstep
  | worker w addr =>
      rw [CertifiedPipeline.step, CertifiedPipeline.workerStep] at hstep
      split at hstep
      · rename_i p hpc
        split at hstep
        · obtain ⟨manager, hmanager, hadvance⟩ := Option.bind_eq_some_iff.mp hstep
          exact (hs.create hpc hmanager).advance (by simp) hadvance
        · exact hs.advance (by simp) hstep
      all_goals exact hs.advance (by simp) hstep

theorem Covered.referenced (hs : s.Covered) : s.Referenced where
  used := by
    intro w p hpc _ certificate hcertificate
    exact hs.current certificate
      (hs.carried p (Or.inr (Or.inr ⟨w, hpc⟩)) certificate hcertificate)
  kept := by
    intro w addr stream hstream certificate hcertificate
    exact hs.current certificate (hs.kept w addr stream hstream certificate hcertificate)

/-- **No certificate dies in use**, in every run in which the server replaces a
certificate only while no message on its way to a stream and no stream points
to it. -/
theorem run_referenced (cfg : PipelineConfig) (createOffer : PushStream → List UInt8)
    (expires : ℕ) (actions : List CertificateAction) (last : CertifiedPipeline)
    (hspared : RunMeets (step cfg createOffer) Spared (start expires) actions)
    (hrun : run (step cfg createOffer) (start expires) actions = some last) :
    last.Referenced := by
  have hcovered : last.Covered := by
    refine run_preserves_of_meets Covered ?_ (covered_start expires) hspared hrun
    intro s next action hs hguard hstep
    exact hs.step hguard hstep
  exact hcovered.referenced

/-- One signaling worker and one RTC worker. -/
def onePair : PipelineConfig := ⟨1, 1, ⟨1, RtcServerOptions.isInt_one⟩⟩

/-- A push request comes in and is handed to the RTC worker. -/
def handedOver (now : ℕ) (generated : Option ℕ) : List CertificateAction :=
  [.other (.send 0 100 5 ⟨1, [97], 1, 1⟩ 9), .other (.signaling 0)] ++
    List.replicate 5 (.server now generated)

/-- The condition on a step is met where nothing is renewed. -/
def Unexpired (s : CertifiedPipeline) : CertificateAction → Prop
  | .server now _ => s.mustRenew now = false
  | .other _ | .worker _ _ => True

instance (s : CertifiedPipeline) : DecidablePred s.Unexpired
  | .server now _ => inferInstanceAs (Decidable (s.mustRenew now = false))
  | .other _ | .worker _ _ => inferInstanceAs (Decidable True)

theorem spared_of_unexpired (s : CertifiedPipeline) (action : CertificateAction)
    (hunexpired : s.Unexpired action) : s.Spared action := by
  cases action with
  | other | worker => trivial
  | server now generated =>
      intro p _ hrenew
      cases hrenew.symm.trans hunexpired

theorem run_referenced_inTime :
    ∃ last, run (step onePair fun _ => [118]) (start 5)
        (handedOver 0 none ++ List.replicate 3 (.worker 0 200)) = some last ∧
      ((last.managers 0).heap 200).map PushStream.certificate = some (some 0) ∧
      last.Referenced := by
  have hstream : (run (step onePair fun _ => [118]) (start 5)
      (handedOver 0 none ++ List.replicate 3 (.worker 0 200))).map
        (fun last => ((last.managers 0).heap 200).map PushStream.certificate) =
          some (some (some 0)) := by decide +kernel
  obtain ⟨last, hrun, hlast⟩ := Option.map_eq_some_iff.mp hstream
  refine ⟨last, hrun, hlast, run_referenced _ _ 5 _ last ?_ hrun⟩
  have hunexpired : RunMeets (step onePair fun _ => [118]) Unexpired (start 5)
      (handedOver 0 none ++ List.replicate 3 (.worker 0 200)) := by decide +kernel
  exact hunexpired.imp spared_of_unexpired

/-- The first message waits in the worker's queue while the second one finds the
certificate expired. The worker then takes the first one. -/
def renewedTooEarly : List CertificateAction :=
  handedOver 0 none ++ handedOver 10 (some 100) ++ List.replicate 2 (.worker 0 200)

/-- The worker is about to use a certificate that has been released. -/
theorem renewedTooEarly_not_referenced :
    ∃ last, run (step onePair fun _ => [118]) (start 5) renewedTooEarly = some last ∧
      ¬ last.Referenced := by
  have hpopped : (run (step onePair fun _ => [118]) (start 5) renewedTooEarly).map
      (fun last => (last.pipeline.workerPc 0, last.refs 0)) =
        some (.popped
          { label := ⟨0, SignalingWorker.processPush 0 100 5 ⟨1, [97], 1, 1⟩ 9⟩
            certificate := some 0 }, 0) := by decide +kernel
  obtain ⟨last, hrun, hlast⟩ := Option.map_eq_some_iff.mp hpopped
  obtain ⟨hpc, hrefs⟩ := Prod.mk.inj hlast
  refine ⟨last, hrun, ?_⟩
  intro hreferenced
  exact absurd (hreferenced.used 0 _ hpc rfl 0 rfl) (by rw [hrefs]; exact lt_irrefl 0)

end CertifiedPipeline

end Xrtc.Server
