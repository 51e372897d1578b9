/-
# The streams of an RTC worker

`RtcStreamManager` maps stream names to push streams. `create_push_stream` looks
for a stream of the name, takes it out of the map and destroys it, and creates a
new one. It never enters the new one into the map, so the map stays empty for
good: no stream is ever found, and none is ever destroyed. The law that the map
should obey is stated here, and it holds before the first call and never again.

Addresses are the allocator's choice, and how a stream makes its offer is an
argument.
-/

import Xrtc.Base.RtcMsg
import Xrtc.Machine.Run

namespace Xrtc.Stream

open Xrtc.Machine Xrtc.Base

/-- The members of a push stream, with the certificate of its peer connection. -/
structure PushStream where
  uid : ℕ
  streamName : List UInt8
  audio : Bool
  video : Bool
  logId : ℕ
  certificate : Option Addr := none
  deriving DecidableEq

/-- `RtcStream::start`, which hands the certificate to the peer connection. -/
def PushStream.start (stream : PushStream) (certificate : Option Addr) : PushStream :=
  { stream with certificate := certificate }

/-- The manager's map, and the streams that are alive. -/
structure RtcStreamManager where
  pushStreams : List UInt8 → Option Addr := fun _ => none
  heap : Addr → Option PushStream := fun _ => none

/-- A call of `create_push_stream`, and the address the new stream is put at. -/
structure PushCall where
  uid : ℕ
  streamName : List UInt8
  audio : Bool
  video : Bool
  logId : ℕ
  certificate : Option Addr
  addr : Addr
  deriving DecidableEq

/-- The stream that a call creates. -/
def PushCall.stream (call : PushCall) : PushStream :=
  PushStream.start
    { uid := call.uid
      streamName := call.streamName
      audio := call.audio
      video := call.video
      logId := call.logId } call.certificate

namespace RtcStreamManager

def findPushStream (m : RtcStreamManager) (streamName : List UInt8) : Option Addr :=
  m.pushStreams streamName

/-- The first part of `create_push_stream`: destroy the stream that is found. -/
def discard (m : RtcStreamManager) (streamName : List UInt8) : RtcStreamManager :=
  match m.findPushStream streamName with
  | none => m
  | some stream =>
      { m with
        pushStreams := Function.update m.pushStreams streamName none
        heap := Function.update m.heap stream none }

/-- `create_push_stream`, with its return code and the offer. -/
def createPushStream (createOffer : PushStream → List UInt8) (m : RtcStreamManager)
    (call : PushCall) : RtcStreamManager × ℤ × List UInt8 :=
  let m := m.discard call.streamName
  ({ m with heap := Function.update m.heap call.addr (some call.stream) }, 0,
    createOffer call.stream)

/-- A call as a step. The allocator hands out an address that is free. -/
def step (createOffer : PushStream → List UInt8) (m : RtcStreamManager) (call : PushCall) :
    Option RtcStreamManager :=
  if ((m.discard call.streamName).heap call.addr).isNone then
    some (m.createPushStream createOffer call).1
  else
    none

/-- The stream of the last call for a name. -/
def latest (calls : List PushCall) (streamName : List UInt8) : Option Addr :=
  (calls.reverse.find? fun call => call.streamName = streamName).map PushCall.addr

/-- The law of the map after these calls: a name leads to the stream created
last for it, and that one alone is alive among the streams of the name. -/
structure Lawful (m : RtcStreamManager) (calls : List PushCall) : Prop where
  found : ∀ streamName, m.findPushStream streamName = latest calls streamName
  single : ∀ call ∈ calls, ∃! addr,
    ∃ stream, m.heap addr = some stream ∧ stream.streamName = call.streamName

variable {createOffer : PushStream → List UInt8} {m : RtcStreamManager} {calls : List PushCall}

/-- What the manager really does: its map is empty, and every stream that was
ever created is alive. -/
structure Leaking (m : RtcStreamManager) (calls : List PushCall) : Prop where
  empty : ∀ streamName, m.findPushStream streamName = none
  alive : ∀ call ∈ calls, m.heap call.addr = some call.stream

theorem leaking_empty : Leaking {} [] where
  empty _ := rfl
  alive _ hcall := by cases hcall

theorem Leaking.step {next : RtcStreamManager} {call : PushCall} (hm : m.Leaking calls)
    (hstep : m.step createOffer call = some next) : next.Leaking (calls ++ [call]) := by
  have hdiscard : m.discard call.streamName = m := by
    rw [discard, hm.empty]
  rw [RtcStreamManager.step, createPushStream, hdiscard] at hstep
  split at hstep
  swap
  · cases hstep
  rename_i hfree
  cases hstep
  refine ⟨hm.empty, ?_⟩
  intro old hold
  rcases List.mem_append.mp hold with hbefore | hnow
  · have halive := hm.alive old hbefore
    have hne : old.addr ≠ call.addr := by
      intro hsame
      rw [← hsame, halive] at hfree
      cases hfree
    exact (Function.update_of_ne hne _ _).trans halive
  · obtain rfl := List.mem_singleton.mp hnow
    exact Function.update_self _ _ _

/-- Whatever is created, nothing is found and nothing is destroyed. -/
theorem Leaking.run {last : RtcStreamManager} {before : List PushCall} (hm : m.Leaking before)
    (hrun : Machine.run (RtcStreamManager.step createOffer) m calls = some last) :
    last.Leaking (before ++ calls) := by
  induction calls generalizing m before with
  | nil =>
      cases hrun
      rw [List.append_nil]
      exact hm
  | cons call calls ih =>
      obtain ⟨next, hstep, hrest⟩ := run_cons_eq_some.mp hrun
      rw [List.append_cons]
      exact ih (hm.step hstep) hrest

/-- The last call is the latest for its name. -/
theorem latest_append (calls : List PushCall) (call : PushCall) :
    latest (calls ++ [call]) call.streamName = some call.addr := by
  rw [latest, List.reverse_append, List.reverse_singleton, List.singleton_append,
    List.find?_cons_of_pos (by simp), Option.map_some]

/-- **The law of the map** holds after a sequence of calls if and only if the
sequence is empty. -/
theorem lawful_iff (createOffer : PushStream → List UInt8) (calls : List PushCall)
    (m : RtcStreamManager) (hrun : run (step createOffer) {} calls = some m) :
    m.Lawful calls ↔ calls = [] := by
  have hm : m.Leaking calls := leaking_empty.run hrun
  constructor
  · intro hlawful
    rcases List.eq_nil_or_concat calls with hnil | ⟨before, call, hconcat⟩
    · exact hnil
    · have hfound := hlawful.found call.streamName
      rw [hm.empty, hconcat, List.concat_eq_append, latest_append] at hfound
      cases hfound
  · rintro rfl
    exact ⟨hm.empty, fun _ hcall => by cases hcall⟩

/-- Two calls for one name. -/
def pushedTwice : List PushCall :=
  [{ uid := 1, streamName := [115], audio := true, video := true, logId := 1,
     certificate := some 7, addr := 100 },
   { uid := 2, streamName := [115], audio := true, video := true, logId := 2,
     certificate := some 7, addr := 200 }]

theorem run_pushedTwice : ∃ m, run (step fun _ => []) {} pushedTwice = some m ∧
    m.findPushStream [115] = none ∧ (m.heap 100).isSome ∧ (m.heap 200).isSome :=
  ⟨_, rfl, rfl, rfl, rfl⟩

theorem lawful_iff_pushedTwice :
    ∃ m, run (step fun _ => []) {} pushedTwice = some m ∧
      (m.Lawful pushedTwice ↔ pushedTwice = []) := by
  obtain ⟨m, hrun, -⟩ := run_pushedTwice
  exact ⟨m, hrun, lawful_iff _ _ _ hrun⟩

/-- The second call finds nothing, and the stream of the first one lives on. -/
theorem pushedTwice_not_lawful :
    ∃ m, run (step fun _ => []) {} pushedTwice = some m ∧ ¬ m.Lawful pushedTwice := by
  obtain ⟨m, hrun, hnone, -⟩ := run_pushedTwice
  refine ⟨m, hrun, ?_⟩
  intro hlawful
  have hfound := hlawful.found [115]
  rw [hnone] at hfound
  revert hfound
  decide

end RtcStreamManager

end Xrtc.Stream
