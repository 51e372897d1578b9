/-
# Sends that fail

A message or a new connection is handed to another thread in two halves: it is
pushed into a queue, and a notification is written to a pipe. The write may
fail, and then the send returns -1 with the item in the queue. The receiver pops
one item for each notification that it reads, so from the first failure on every
notification pops an item that is older than its own.

Four functions send in this way, to three receivers. Items are numbered in the
order of their sends, and the model records the results and what was handed over.
-/

import Mathlib.Data.List.Count
import Mathlib.Logic.Function.Basic
import Xrtc.Base.RtcMsg
import Xrtc.Machine.Run

namespace Xrtc.Server

open Xrtc.Machine Xrtc.Base

/-- The threads that read notifications from a pipe. -/
inductive Receiver
  | signalingWorker
  | rtcServer
  | rtcWorker
  deriving DecidableEq

/-- What is written to a pipe. -/
inductive NotifyMsg
  | NEW_CONN
  | RTC_MSG
  deriving DecidableEq

/-- The functions that push an item and write a notification. -/
inductive Sender
  /-- `SignalingServerWorker::notify_new_conn`. -/
  | notifyNewConn
  /-- `SignalingServerWorker::send_rtc_msg`. -/
  | signalingSendRtcMsg
  /-- `RtcServer::send_rtc_msg`. -/
  | serverSendRtcMsg
  /-- `RtcWorker::send_rtc_msg`. -/
  | workerSendRtcMsg
  deriving DecidableEq

namespace Sender

/-- A descriptor, or a message. -/
abbrev Item : Sender → Type
  | .notifyNewConn => ℤ
  | .signalingSendRtcMsg | .serverSendRtcMsg | .workerSendRtcMsg => RtcMsg

def receiver : Sender → Receiver
  | .notifyNewConn | .signalingSendRtcMsg => .signalingWorker
  | .serverSendRtcMsg => .rtcServer
  | .workerSendRtcMsg => .rtcWorker

def msg : Sender → NotifyMsg
  | .notifyNewConn => .NEW_CONN
  | .signalingSendRtcMsg | .serverSendRtcMsg | .workerSendRtcMsg => .RTC_MSG

end Sender

/-- `_process_notify` of a receiver: the sender from whose queue it pops. -/
def dispatch : Receiver → NotifyMsg → Option Sender
  | .signalingWorker, .NEW_CONN => some .notifyNewConn
  | .signalingWorker, .RTC_MSG => some .signalingSendRtcMsg
  | .rtcServer, .RTC_MSG => some .serverSendRtcMsg
  | .rtcWorker, .RTC_MSG => some .workerSendRtcMsg
  | .rtcServer, .NEW_CONN | .rtcWorker, .NEW_CONN => none

structure Post where
  pipe : Receiver → List NotifyMsg := fun _ => []
  /-- The queue that a sender pushes to, each item with its number. -/
  queue : ∀ sender : Sender, List (ℕ × sender.Item) := fun _ => []
  /-- For each send, whether it returned 0. -/
  results : Sender → List Bool := fun _ => []
  /-- The numbers of the items that were popped. -/
  handed : Sender → List ℕ := fun _ => []

inductive PostAction
  /-- A send; `written` is what becomes of its write. -/
  | send (sender : Sender) (item : sender.Item) (written : Bool)
  /-- A receiver reads one notification and handles it. -/
  | handle (receiver : Receiver)

namespace Post

/-- `push_msg`, `push_rtc_msg` or `_q_conn.produce`. -/
def push (x : Post) (sender : Sender) (item : sender.Item) : Post :=
  { x with
    queue := Function.update x.queue sender
      (x.queue sender ++ [((x.results sender).length, item)]) }

/-- `notify`, with its result. -/
def notify (x : Post) (receiver : Receiver) (msg : NotifyMsg) (written : Bool) : Post × ℤ :=
  if written then
    ({ x with pipe := Function.update x.pipe receiver (x.pipe receiver ++ [msg]) }, 0)
  else
    (x, -1)

/-- The body that the four senders share. -/
def sendItem (x : Post) (sender : Sender) (item : sender.Item) (written : Bool) : Post × ℤ :=
  (x.push sender item).notify sender.receiver sender.msg written

def notifyNewConn (x : Post) (fd : ℤ) (written : Bool) : Post × ℤ :=
  x.sendItem .notifyNewConn fd written

def signalingSendRtcMsg (x : Post) (msg : RtcMsg) (written : Bool) : Post × ℤ :=
  x.sendItem .signalingSendRtcMsg msg written

def serverSendRtcMsg (x : Post) (msg : RtcMsg) (written : Bool) : Post × ℤ :=
  x.sendItem .serverSendRtcMsg msg written

def workerSendRtcMsg (x : Post) (msg : RtcMsg) (written : Bool) : Post × ℤ :=
  x.sendItem .workerSendRtcMsg msg written

/-- Call one of the four. -/
def call (x : Post) (written : Bool) : (sender : Sender) → sender.Item → Post × ℤ
  | .notifyNewConn, fd => x.notifyNewConn fd written
  | .signalingSendRtcMsg, msg => x.signalingSendRtcMsg msg written
  | .serverSendRtcMsg, msg => x.serverSendRtcMsg msg written
  | .workerSendRtcMsg, msg => x.workerSendRtcMsg msg written

/-- Pop one item, if there is one. -/
def pop (x : Post) (sender : Sender) : Post :=
  match x.queue sender with
  | [] => x
  | (number, _) :: rest =>
      { x with
        queue := Function.update x.queue sender rest
        handed := Function.update x.handed sender (x.handed sender ++ [number]) }

/-- `_process_notify`, for the notification that was read. -/
def processNotify (x : Post) (receiver : Receiver) (msg : NotifyMsg) : Post :=
  match dispatch receiver msg with
  | none => x
  | some sender => x.pop sender

def step (x : Post) : PostAction → Option Post
  | .send sender item written =>
      let (next, result) := x.call written sender item
      some { next with
        results := Function.update x.results sender (x.results sender ++ [decide (result = 0)]) }
  | .handle receiver =>
      match x.pipe receiver with
      | [] => none
      | msg :: rest =>
          some (processNotify { x with pipe := Function.update x.pipe receiver rest } receiver msg)

/-- The item of a send that returned -1 has not been handed over; and when no
notification is left, the item of every send that returned 0 has. -/
structure Faithful (x : Post) (sender : Sender) : Prop where
  failed : ∀ number, (x.results sender)[number]? = some false → number ∉ x.handed sender
  sent : sender.msg ∉ x.pipe sender.receiver →
    ∀ number, (x.results sender)[number]? = some true → number ∈ x.handed sender

/-- It is so now, and stays so while the receiver works off its pipe. -/
def StaysFaithful (x : Post) (sender : Sender) : Prop :=
  ∀ n y, run step x (List.replicate n (.handle sender.receiver)) = some y → y.Faithful sender

/-- What became of the writes of one sender, in the order of its sends. -/
def outcomes (sender : Sender) (actions : List PostAction) : List Bool :=
  actions.filterMap fun
    | .send sender' _ written => if sender' = sender then some written else none
    | .handle _ => none

/-- No write succeeds behind one that failed. -/
def Orderly (outcomes : List Bool) : Prop :=
  outcomes.Pairwise fun earlier later => later = true → earlier = true

/-! ## One step -/

variable {x y : Post} {s : Sender}

theorem dispatch_eq_some_iff {receiver : Receiver} {msg : NotifyMsg} :
    dispatch receiver msg = some s ↔ receiver = s.receiver ∧ msg = s.msg := by
  cases receiver <;> cases msg <;> cases s <;> decide

/-- Two senders to one receiver use different notifications. -/
theorem msg_ne {t : Sender} (hne : s ≠ t) (hreceiver : s.receiver = t.receiver) :
    s.msg ≠ t.msg := by
  intro hmsg
  have hs : dispatch s.receiver s.msg = some s := dispatch_eq_some_iff.mpr ⟨rfl, rfl⟩
  rw [hreceiver, hmsg, dispatch_eq_some_iff.mpr ⟨rfl, rfl⟩, Option.some.injEq] at hs
  exact hne hs.symm

theorem call_eq (x : Post) (sender : Sender) (item : sender.Item) (written : Bool) :
    x.call written sender item = x.sendItem sender item written := by
  cases sender <;> rfl

/-- The state behind a send. -/
def afterSend (x : Post) (sender : Sender) (item : sender.Item) (written : Bool) : Post where
  pipe :=
    if written then
      Function.update x.pipe sender.receiver (x.pipe sender.receiver ++ [sender.msg])
    else
      x.pipe
  queue := Function.update x.queue sender (x.queue sender ++ [((x.results sender).length, item)])
  results := Function.update x.results sender (x.results sender ++ [written])
  handed := x.handed

theorem step_send (x : Post) (sender : Sender) (item : sender.Item) (written : Bool) :
    x.step (.send sender item written) = some (x.afterSend sender item written) := by
  rw [step, call_eq, sendItem]
  cases written <;> rfl

/-- How many notifications of a sender are in the pipe. -/
def tokens (x : Post) (s : Sender) : ℕ := (x.pipe s.receiver).count s.msg

/-- The items are in the order of their numbers, and there is a notification for
every success that has not been handled. -/
structure Numbered (x : Post) : Prop where
  numbers : ∀ s, x.handed s ++ (x.queue s).map Prod.fst = List.range (x.results s).length
  tokens : ∀ s, x.tokens s + (x.handed s).length = (x.results s).count true

theorem numbered_start : Numbered {} where
  numbers _ := rfl
  tokens _ := rfl

theorem tokens_afterSend_of_ne {sender : Sender} (hne : s ≠ sender) (item : sender.Item)
    (written : Bool) : (x.afterSend sender item written).tokens s = x.tokens s := by
  rw [tokens, tokens, afterSend]
  cases written with
  | false => rfl
  | true =>
      simp only [if_true]
      by_cases hreceiver : s.receiver = sender.receiver
      · have hmsg := msg_ne hne hreceiver
        rw [hreceiver, Function.update_self, List.count_append, List.count_singleton]
        simp [hmsg.symm]
      · rw [Function.update_of_ne hreceiver]

theorem tokens_afterSend_self (x : Post) (item : s.Item) (written : Bool) :
    (x.afterSend s item written).tokens s = x.tokens s + if written then 1 else 0 := by
  rw [tokens, tokens, afterSend]
  cases written with
  | false => rfl
  | true =>
      simp only [if_true]
      rw [Function.update_self, List.count_append, List.count_singleton_self]

theorem Numbered.afterSend {sender : Sender} (hx : Numbered x) (item : sender.Item)
    (written : Bool) : Numbered (x.afterSend sender item written) where
  numbers s := by
    have hnumbers := hx.numbers s
    rcases eq_or_ne s sender with rfl | hne
    · simp only [Post.afterSend, Function.update_self, List.map_append, List.map_singleton,
        List.length_append, List.length_singleton, List.range_succ, ← hnumbers, List.append_assoc]
    · simp only [Post.afterSend, Function.update_of_ne hne]
      exact hnumbers
  tokens s := by
    have htokens := hx.tokens s
    rcases eq_or_ne s sender with rfl | hne
    · rw [tokens_afterSend_self]
      simp only [Post.afterSend, Function.update_self, List.count_append]
      cases written with
      | false => simpa using htokens
      | true =>
          simp only [if_true, List.count_singleton_self]
          omega
    · rw [tokens_afterSend_of_ne hne]
      simp only [Post.afterSend, Function.update_of_ne hne]
      exact htokens

/-- A notification finds an item. -/
theorem Numbered.queue_ne_nil (hx : Numbered x) (htokens : 0 < x.tokens s) : x.queue s ≠ [] := by
  intro hnil
  have hnumbers := congrArg List.length (hx.numbers s)
  rw [hnil, List.map_nil, List.append_nil, List.length_range] at hnumbers
  have hcount := List.count_le_length (a := true) (l := x.results s)
  have hbalance := hx.tokens s
  omega

/-- The state behind the read of a notification. -/
def afterRead (x : Post) (receiver : Receiver) (rest : List NotifyMsg) : Post :=
  { x with pipe := Function.update x.pipe receiver rest }

theorem step_handle {receiver : Receiver} (hstep : x.step (.handle receiver) = some y) :
    ∃ msg rest, x.pipe receiver = msg :: rest ∧
      y = processNotify (x.afterRead receiver rest) receiver msg := by
  rw [step] at hstep
  split at hstep
  next => cases hstep
  next msg rest hpipe =>
      cases hstep
      exact ⟨msg, rest, hpipe, rfl⟩

theorem tokens_afterRead_self {rest : List NotifyMsg} (hpipe : x.pipe s.receiver = s.msg :: rest) :
    (x.afterRead s.receiver rest).tokens s + 1 = x.tokens s := by
  simp only [tokens, afterRead, Function.update_self, hpipe, List.count_cons_self]

theorem tokens_afterRead_of_ne {receiver : Receiver} {msg : NotifyMsg} {rest : List NotifyMsg}
    (hpipe : x.pipe receiver = msg :: rest) (hne : dispatch receiver msg ≠ some s) :
    (x.afterRead receiver rest).tokens s = x.tokens s := by
  simp only [tokens, afterRead]
  rcases eq_or_ne s.receiver receiver with rfl | hreceiver
  · have hmsg : msg ≠ s.msg := by
      rintro rfl
      exact hne (dispatch_eq_some_iff.mpr ⟨rfl, rfl⟩)
    rw [Function.update_self, hpipe, List.count_cons_of_ne hmsg]
  · rw [Function.update_of_ne hreceiver]

theorem Numbered.handle {receiver : Receiver} (hx : Numbered x)
    (hstep : x.step (.handle receiver) = some y) : Numbered y := by
  obtain ⟨msg, rest, hpipe, rfl⟩ := step_handle hstep
  rw [processNotify]
  cases hdispatch : dispatch receiver msg with
  | none =>
      refine ⟨hx.numbers, fun s => ?_⟩
      rw [tokens_afterRead_of_ne hpipe (by rw [hdispatch]; exact (Option.some_ne_none s).symm)]
      exact hx.tokens s
  | some sender =>
      obtain ⟨rfl, rfl⟩ := dispatch_eq_some_iff.mp hdispatch
      have hread := tokens_afterRead_self hpipe
      obtain ⟨⟨number, item⟩, queue, hqueue⟩ :=
        List.exists_cons_of_ne_nil (hx.queue_ne_nil (show 0 < x.tokens sender by omega))
      have hqueue' : (x.afterRead sender.receiver rest).queue sender = (number, item) :: queue :=
        hqueue
      simp only [pop, hqueue']
      constructor
      · intro s
        have hnumbers := hx.numbers s
        rcases eq_or_ne s sender with rfl | hne
        · rw [hqueue] at hnumbers
          simp only [Function.update_self, List.append_assoc]
          exact hnumbers
        · simp only [Function.update_of_ne hne]
          exact hnumbers
      · intro s
        have htokens := hx.tokens s
        rcases eq_or_ne s sender with rfl | hne
        · simp only [Function.update_self, List.length_append, List.length_singleton]
          calc
            (x.afterRead s.receiver rest).tokens s + ((x.handed s).length + 1)
                = x.tokens s + (x.handed s).length := by omega
            _ = (x.results s).count true := htokens
        · simp only [Function.update_of_ne hne]
          calc
            (x.afterRead sender.receiver rest).tokens s + (x.handed s).length
                = x.tokens s + (x.handed s).length := by
              rw [tokens_afterRead_of_ne hpipe]
              rw [hdispatch, ne_eq, Option.some.injEq]
              exact hne.symm
            _ = (x.results s).count true := htokens

theorem Numbered.step {action : PostAction} (hx : Numbered x) (hstep : x.step action = some y) :
    Numbered y := by
  cases action with
  | send sender item written =>
      rw [step_send, Option.some.injEq] at hstep
      subst hstep
      exact hx.afterSend item written
  | handle receiver => exact hx.handle hstep

/-! ## The record of results -/

theorem results_handle {receiver : Receiver} (hstep : x.step (.handle receiver) = some y) :
    y.results = x.results := by
  obtain ⟨msg, rest, _, rfl⟩ := step_handle hstep
  rw [processNotify]
  cases dispatch receiver msg with
  | none => rfl
  | some sender =>
      simp only [pop]
      split <;> rfl

/-- The results are what became of the writes. -/
theorem results_run {actions : List PostAction} (hrun : run step x actions = some y) (s : Sender) :
    y.results s = x.results s ++ outcomes s actions := by
  induction actions generalizing x with
  | nil =>
      cases hrun
      exact (List.append_nil _).symm
  | cons action actions ih =>
      obtain ⟨next, hstep, hrest⟩ := run_cons_eq_some.mp hrun
      rw [ih hrest]
      cases action with
      | send sender item written =>
          rw [step_send, Option.some.injEq] at hstep
          subst hstep
          rcases eq_or_ne s sender with rfl | hne
          · simp [afterSend, outcomes]
          · simp [afterSend, outcomes, Function.update_of_ne hne, hne.symm]
      | handle receiver =>
          rw [results_handle hstep]
          simp [outcomes]

theorem numbered_run {actions : List PostAction} (hx : Numbered x)
    (hrun : run step x actions = some y) : Numbered y :=
  run_preserves Numbered (fun hx hstep => hx.step hstep) hx hrun

theorem outcomes_replicate_handle (s : Sender) (receiver : Receiver) (n : ℕ) :
    outcomes s (List.replicate n (.handle receiver)) = [] := by
  rw [outcomes, List.filterMap_eq_nil_iff]
  intro action haction
  rw [List.eq_of_mem_replicate haction]

theorem pipe_processNotify (x : Post) (receiver : Receiver) (msg : NotifyMsg) :
    (x.processNotify receiver msg).pipe = x.pipe := by
  rw [processNotify]
  cases dispatch receiver msg with
  | none => rfl
  | some sender =>
      simp only [pop]
      split <;> rfl

/-- A receiver can always work off its pipe. -/
theorem exists_worked_off (x : Post) (receiver : Receiver) :
    ∃ n y, run step x (List.replicate n (.handle receiver)) = some y ∧ y.pipe receiver = [] := by
  induction hpipe : x.pipe receiver generalizing x with
  | nil => exact ⟨0, x, rfl, hpipe⟩
  | cons msg rest ih =>
      have hstep : x.step (.handle receiver) =
          some (processNotify (x.afterRead receiver rest) receiver msg) := by
        rw [step, hpipe]
        rfl
      have hrest :
          (processNotify (x.afterRead receiver rest) receiver msg).pipe receiver = rest := by
        rw [pipe_processNotify]
        exact Function.update_self _ _ _
      obtain ⟨n, y, hrun, hy⟩ := ih _ hrest
      refine ⟨n + 1, y, ?_, hy⟩
      rw [List.replicate_succ, run_cons_eq_some]
      exact ⟨_, hstep, hrun⟩

/-! ## Successes before failures -/

/-- A list is in order exactly if it begins with all of its successes. -/
theorem orderly_iff (outcomes : List Bool) :
    Orderly outcomes ↔ ∀ i < outcomes.count true, outcomes[i]? = some true := by
  induction outcomes with
  | nil => simp [Orderly]
  | cons outcome outcomes ih =>
      rw [Orderly, List.pairwise_cons]
      cases outcome with
      | true =>
          rw [List.count_cons_self]
          constructor
          · rintro ⟨_, horderly⟩ i hi
            cases i with
            | zero => rfl
            | succ i => exact ih.mp horderly i (Nat.lt_of_succ_lt_succ hi)
          · intro hall
            refine ⟨fun _ _ _ => rfl, ih.mpr fun i hi => ?_⟩
            exact hall (i + 1) (Nat.succ_lt_succ hi)
      | false =>
          rw [List.count_cons_of_ne Bool.false_ne_true]
          constructor
          · rintro ⟨hfalse, _⟩ i hi
            have hmem : true ∈ outcomes := List.count_pos_iff.mp (Nat.zero_lt_of_lt hi)
            exact absurd (hfalse true hmem rfl) Bool.false_ne_true
          · intro hall
            have hnone : true ∉ outcomes := by
              intro hmem
              exact Bool.false_ne_true (Option.some.inj (hall 0 (List.count_pos_iff.mpr hmem)))
            constructor
            · rintro outcome hmem rfl
              exact absurd hmem hnone
            · apply ih.mpr
              intro i hi
              exact absurd (List.count_pos_iff.mp (Nat.zero_lt_of_lt hi)) hnone

/-- In a list that is in order, the successes are at its beginning. -/
theorem Orderly.lt_count {outcomes : List Bool} (horderly : Orderly outcomes) {i : ℕ}
    (hi : outcomes[i]? = some true) : i < outcomes.count true := by
  induction outcomes generalizing i with
  | nil => simp at hi
  | cons outcome outcomes ih =>
      rw [Orderly, List.pairwise_cons] at horderly
      cases outcome with
      | true =>
          rw [List.count_cons_self]
          cases i with
          | zero => exact Nat.succ_pos _
          | succ i => exact Nat.succ_lt_succ (ih horderly.2 hi)
      | false =>
          cases i with
          | zero => simp at hi
          | succ i =>
              have hmem : true ∈ outcomes := List.mem_of_getElem? hi
              exact absurd (horderly.1 true hmem rfl) Bool.false_ne_true

/-! ## When a failed send has no effect -/

/-- What has been handed over is what was sent first. -/
theorem Numbered.mem_handed_iff (hx : Numbered x) {number : ℕ} :
    number ∈ x.handed s ↔ number < (x.handed s).length := by
  have hlength := congrArg List.length (hx.numbers s)
  rw [List.length_append, List.length_range] at hlength
  have htake := congrArg (List.take (x.handed s).length) (hx.numbers s)
  rw [List.take_left, List.take_range, Nat.min_eq_left (by omega)] at htake
  conv_lhs => rw [htake]
  exact List.mem_range

theorem Numbered.faithful_of_orderly (hx : Numbered x) (horderly : Orderly (x.results s)) :
    x.Faithful s where
  failed number hfailed hmem := by
    have htokens := hx.tokens s
    rw [hx.mem_handed_iff] at hmem
    have hsent := (orderly_iff _).mp horderly number (by omega)
    rw [hfailed] at hsent
    exact Bool.false_ne_true (Option.some.inj hsent)
  sent hempty number hsent := by
    have htokens := hx.tokens s
    rw [Post.tokens, List.count_eq_zero.mpr hempty, Nat.zero_add] at htokens
    rw [hx.mem_handed_iff, htokens]
    exact horderly.lt_count hsent

theorem Numbered.orderly_of_faithful (hx : Numbered x) (hempty : x.pipe s.receiver = [])
    (hfaithful : x.Faithful s) : Orderly (x.results s) := by
  have htokens := hx.tokens s
  rw [Post.tokens, hempty, List.count_nil, Nat.zero_add] at htokens
  rw [orderly_iff]
  intro i hi
  have hlt : i < (x.results s).length := Nat.lt_of_lt_of_le hi List.count_le_length
  have hmem : i ∈ x.handed s := by
    rw [hx.mem_handed_iff, htokens]
    exact hi
  rw [List.getElem?_eq_getElem hlt]
  cases hresult : (x.results s)[i] with
  | true => rfl
  | false =>
      have hfailed : (x.results s)[i]? = some false := by
        rw [List.getElem?_eq_getElem hlt, hresult]
      exact absurd hmem (hfaithful.failed i hfailed)

/-- **A failed send has no effect exactly if no success follows it.** For each of
the four senders, whatever the order of sends and notifications. -/
theorem staysFaithful_iff (sender : Sender) (actions : List PostAction) (x : Post)
    (hrun : run step {} actions = some x) :
    x.StaysFaithful sender ↔ Orderly (outcomes sender actions) := by
  have hx := numbered_run numbered_start hrun
  have hresults : x.results sender = outcomes sender actions := results_run hrun sender
  have hkeep {n : ℕ} {y : Post}
      (hy : run step x (List.replicate n (.handle sender.receiver)) = some y) :
      y.results sender = outcomes sender actions := by
    rw [results_run hy, outcomes_replicate_handle, List.append_nil, hresults]
  constructor
  · intro hstays
    obtain ⟨n, y, hy, hempty⟩ := exists_worked_off x sender.receiver
    rw [← hkeep hy]
    exact (numbered_run hx hy).orderly_of_faithful hempty (hstays n y hy)
  · intro horderly n y hy
    rw [← hkeep hy] at horderly
    exact (numbered_run hx hy).faithful_of_orderly horderly

/-- Three connections, the last of which cannot be announced. -/
def lastFails : List PostAction :=
  [.send .notifyNewConn 7 true, .handle .signalingWorker, .send .notifyNewConn 8 true,
    .send .notifyNewConn 9 false]

theorem staysFaithful_lastFails :
    ∃ x, run step {} lastFails = some x ∧ x.StaysFaithful .notifyNewConn := by
  have hsome : (run step {} lastFails).isSome := by decide
  obtain ⟨x, hrun⟩ := Option.isSome_iff_exists.mp hsome
  have horderly : Orderly (outcomes .notifyNewConn lastFails) := by
    rw [orderly_iff]
    decide
  exact ⟨x, hrun, (staysFaithful_iff .notifyNewConn lastFails x hrun).mpr horderly⟩

/-- A connection that cannot be announced, and one that can. -/
def firstFails : List PostAction :=
  [.send .notifyNewConn 7 false, .send .notifyNewConn 8 true, .handle .signalingWorker]

/-- The connection whose send failed is handed over, and the other one is not. -/
theorem firstFails_not_faithful :
    ∃ x, run step {} firstFails = some x ∧ x.results .notifyNewConn = [false, true] ∧
      x.pipe .signalingWorker = [] ∧ x.handed .notifyNewConn = [0] ∧
      ¬ x.Faithful .notifyNewConn := by
  have hrecord : (run step {} firstFails).map (fun x =>
      (x.results .notifyNewConn, x.pipe .signalingWorker, x.handed .notifyNewConn)) =
      some ([false, true], [], [0]) := by decide
  obtain ⟨x, hrun, hx⟩ := Option.map_eq_some_iff.mp hrecord
  simp only [Prod.mk.injEq] at hx
  obtain ⟨hresults, hpipe, hhanded⟩ := hx
  refine ⟨x, hrun, hresults, hpipe, hhanded, ?_⟩
  intro hfaithful
  apply hfaithful.failed 0
  · rw [hresults]
    rfl
  · rw [hhanded]
    exact List.mem_singleton_self 0

end Post

end Xrtc.Server
