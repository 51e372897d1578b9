/-
# The round-robin selector

A client picks a server for every request. `PickServer` has two critical
sections: the first moves the index on, the second reads the server the index
points to. Between them other calls may move the index, and `AddServer` may
replace the list. Calls have no identity of their own here; one that stands
between its critical sections is known by the number of its index update.

The lists of outcomes tell what the calls returned. Two questions are settled:
when the servers are picked equally often, and when no call panics.
-/

import Mathlib.Data.Int.CardIntervalMod
import Xrtc.Machine.Run

namespace Xrtc.Xrpc

open Xrtc.Machine

/-- The panics of the Go runtime. -/
inductive Panic
  | divideByZero
  | indexOutOfRange
  deriving DecidableEq

structure RoundRobinSelector (Addr : Type) where
  servers : List Addr := []
  curIndex : ℕ := 0

namespace RoundRobinSelector

variable {Addr : Type}

/-- The loop of `AddServer`: the first name that cannot be resolved ends it. -/
def resolveAll (resolve : String → Except String Addr) : List String → Except String (List Addr)
  | [] => .ok []
  | server :: servers => do
      let tcpAddr ← resolve server
      let addrs ← resolveAll resolve servers
      return tcpAddr :: addrs

/-- `AddServer`, with its error. `resolve` is `net.ResolveTCPAddr`. -/
def addServer (resolve : String → Except String Addr) (rrs : RoundRobinSelector Addr)
    (servers : List String) : RoundRobinSelector Addr × Option String :=
  if servers.length = 0 then
    (rrs, some "servers is empty")
  else
    match resolveAll resolve servers with
    | .error err => (rrs, some err)
    | .ok addrs => ({ rrs with servers := addrs }, none)

/-- The first critical section of `PickServer`. -/
def moveOn (rrs : RoundRobinSelector Addr) : Except Panic (RoundRobinSelector Addr) :=
  if rrs.servers.length = 0 then
    .error .divideByZero
  else
    .ok { rrs with curIndex := (rrs.curIndex + 1) % rrs.servers.length }

/-- The second critical section of `PickServer`, with what the call returns. -/
def readServer (rrs : RoundRobinSelector Addr) : Except Panic (Except String Addr) :=
  if rrs.servers.length = 0 then
    .ok (.error "no server available")
  else
    match rrs.servers[rrs.curIndex]? with
    | none => .error .indexOutOfRange
    | some server => .ok (.ok server)

end RoundRobinSelector

/-- What a call came to, with the list and the index at that moment. -/
structure PickOutcome (Addr : Type) where
  servers : List Addr
  curIndex : ℕ
  result : Except Panic (Except String Addr)

/-- The server that a call was given, by its number. -/
def PickOutcome.picked {Addr : Type} (o : PickOutcome Addr) : Option ℕ :=
  match o.result with
  | .ok (.ok _) => some o.curIndex
  | .ok (.error _) | .error _ => none

/-- What a call should come to: an error where the list is empty, and a server of
the list where it is not. -/
def PickOutcome.Proper {Addr : Type} (o : PickOutcome Addr) : Prop :=
  ∃ returned, o.result = .ok returned ∧
    (returned = .error "no server available" ↔ o.servers = []) ∧
    ∀ server, returned = .ok server → server ∈ o.servers

/-- The selector with the calls that use it. -/
structure Picking (Addr : Type) where
  selector : RoundRobinSelector Addr := {}
  /-- The number of index updates so far. -/
  updates : ℕ := 0
  /-- The calls between their critical sections, by the number of their update. -/
  pending : List ℕ := []
  outcomes : List (PickOutcome Addr) := []
  /-- A panic in the first critical section leaves the lock locked for good. -/
  locked : Bool := false

/-- The steps of the calls of `PickServer`. -/
inductive PickStep
  /-- A call goes through its first critical section. -/
  | moveOn
  /-- The call with this update goes through its second one. -/
  | read (call : ℕ)
  deriving DecidableEq

inductive SelectorAction
  | pickServer (step : PickStep)
  | addServer (servers : List String)
  deriving DecidableEq

namespace Picking

variable {Addr : Type}

/-- A call returns or panics. -/
def conclude (x : Picking Addr) (result : Except Panic (Except String Addr)) : Picking Addr :=
  { x with outcomes := x.outcomes ++ [⟨x.selector.servers, x.selector.curIndex, result⟩] }

/-- One critical section of `PickServer`. Nothing gets a lock that was left locked. -/
def pickStep (x : Picking Addr) (step : PickStep) : Option (Picking Addr) :=
  if x.locked then
    none
  else
    match step with
    | .moveOn =>
        match x.selector.moveOn with
        | .error panic => some { x.conclude (.error panic) with locked := true }
        | .ok selector =>
            some { x with
              selector := selector
              updates := x.updates + 1
              pending := x.pending ++ [x.updates] }
    | .read call =>
        if call ∈ x.pending then
          some { x.conclude x.selector.readServer with pending := x.pending.erase call }
        else
          none

/-- One critical section of either method. -/
def step (resolve : String → Except String Addr) (x : Picking Addr) :
    SelectorAction → Option (Picking Addr)
  | .pickServer step => x.pickStep step
  | .addServer servers =>
      if x.locked then
        none
      else
        some { x with selector := (x.selector.addServer resolve servers).1 }

/-- A client that was given these servers. -/
def start (servers : List Addr) : Picking Addr where
  selector := { servers := servers }

variable {x y : Picking Addr} {servers : List Addr} {resolve : String → Except String Addr}

/-- The state after an index update. -/
def movedOn (x : Picking Addr) : Picking Addr :=
  { x with
    selector :=
      { x.selector with curIndex := (x.selector.curIndex + 1) % x.selector.servers.length }
    updates := x.updates + 1
    pending := x.pending ++ [x.updates] }

/-- The state after the read of a call. -/
def afterRead (x : Picking Addr) (call : ℕ) : Picking Addr :=
  { x.conclude x.selector.readServer with pending := x.pending.erase call }

/-- Everything that a critical section of `PickServer` can do. -/
theorem pickStep_cases {step : PickStep} (hstep : x.pickStep step = some y) :
    (step = .moveOn ∧ x.selector.servers = [] ∧
      y = { x.conclude (.error .divideByZero) with locked := true }) ∨
    (step = .moveOn ∧ x.selector.servers ≠ [] ∧ y = x.movedOn) ∨
    ∃ call, step = .read call ∧ call ∈ x.pending ∧ y = x.afterRead call := by
  unfold pickStep at hstep
  split at hstep
  · cases hstep
  cases step with
  | moveOn =>
      by_cases hempty : x.selector.servers = []
      · have hpanic : x.selector.moveOn = .error .divideByZero := by
          rw [RoundRobinSelector.moveOn, if_pos (List.length_eq_zero_iff.mpr hempty)]
        simp only [hpanic, Option.some.injEq] at hstep
        exact .inl ⟨rfl, hempty, hstep.symm⟩
      · have hmoved : x.selector.moveOn = .ok x.movedOn.selector := by
          rw [RoundRobinSelector.moveOn, if_neg (mt List.length_eq_zero_iff.mp hempty)]
          rfl
        simp only [hmoved, Option.some.injEq] at hstep
        exact .inr (.inl ⟨rfl, hempty, hstep.symm⟩)
  | read call =>
      simp only at hstep
      split at hstep
      · rename_i hpending
        cases hstep
        exact .inr (.inr ⟨call, rfl, hpending, rfl⟩)
      · cases hstep

/-! ## The servers in turn -/

/-- The number of calls that returned the server with this number. -/
def timesPicked (x : Picking Addr) (i : ℕ) : ℕ := (x.outcomes.map PickOutcome.picked).count (some i)

/-- The server that is due for the call with this update, of `n` servers. -/
def due (n call : ℕ) : Option ℕ := some ((call + 1) % n)

/-- The condition on a step: a call reads when the number of index updates since
its own is a multiple of the number of servers. -/
def InTurn (x : Picking Addr) : PickStep → Prop
  | .moveOn => True
  | .read call => x.selector.servers.length ∣ x.updates - (call + 1)

instance (x : Picking Addr) : DecidablePred x.InTurn
  | .moveOn => inferInstanceAs (Decidable True)
  | .read _ => inferInstanceAs (Decidable (_ ∣ _))

/-- What the calls were given and what is due for the others is the whole turn. -/
structure Turning (servers : List Addr) (x : Picking Addr) : Prop where
  servers_eq : x.selector.servers = servers
  index_eq : x.selector.curIndex = x.updates % servers.length
  pending_lt : ∀ call ∈ x.pending, call < x.updates
  perm : (x.outcomes.map PickOutcome.picked ++ x.pending.map (due servers.length)).Perm
    ((List.range x.updates).map (due servers.length))

theorem turning_start (servers : List Addr) : (start servers).Turning servers where
  servers_eq := rfl
  index_eq := (Nat.zero_mod _).symm
  pending_lt _ hcall := by cases hcall
  perm := .refl _

theorem Turning.movedOn (hx : x.Turning servers) : x.movedOn.Turning servers where
  servers_eq := hx.servers_eq
  index_eq := by
    simp only [Picking.movedOn, hx.servers_eq, hx.index_eq, Nat.mod_add_mod]
  pending_lt := by
    intro call hcall
    rcases List.mem_append.mp hcall with hold | hnew
    · exact (hx.pending_lt call hold).trans (Nat.lt_succ_self _)
    · rw [List.mem_singleton.mp hnew]
      exact Nat.lt_succ_self _
  perm := by
    simp only [Picking.movedOn, List.map_append, List.range_succ, ← List.append_assoc]
    exact hx.perm.append_right _

/-- A call that reads in its turn is given what is due for it. -/
theorem Turning.picked_eq {call : ℕ} (hx : x.Turning servers) (hservers : servers ≠ [])
    (hcall : call ∈ x.pending) (hturn : x.InTurn (.read call)) :
    PickOutcome.picked ⟨x.selector.servers, x.selector.curIndex, x.selector.readServer⟩ =
      due servers.length call := by
  have hpos : 0 < servers.length := List.length_pos_iff.mpr hservers
  have hindex : x.selector.curIndex < x.selector.servers.length := by
    rw [hx.index_eq, hx.servers_eq]
    exact Nat.mod_lt _ hpos
  have hread : x.selector.readServer = .ok (.ok x.selector.servers[x.selector.curIndex]) := by
    rw [RoundRobinSelector.readServer, if_neg (by omega), List.getElem?_eq_getElem hindex]
  have hdue : x.updates % servers.length = (call + 1) % servers.length := by
    rw [InTurn, hx.servers_eq] at hturn
    exact ((Nat.modEq_iff_dvd' (hx.pending_lt call hcall)).mpr hturn).symm
  rw [PickOutcome.picked, hread]
  exact congrArg some (hx.index_eq.trans hdue)

theorem Turning.afterRead {call : ℕ} (hx : x.Turning servers) (hservers : servers ≠ [])
    (hcall : call ∈ x.pending) (hturn : x.InTurn (.read call)) :
    (x.afterRead call).Turning servers where
  servers_eq := hx.servers_eq
  index_eq := hx.index_eq
  pending_lt other hother := hx.pending_lt other (List.mem_of_mem_erase hother)
  perm := by
    simp only [Picking.afterRead, conclude, List.map_append, List.map_cons, List.map_nil,
      hx.picked_eq hservers hcall hturn, List.append_assoc]
    refine List.Perm.trans ?_ hx.perm
    refine List.Perm.append_left _ ?_
    exact ((List.perm_cons_erase hcall).map (due servers.length)).symm

theorem Turning.pickStep {step : PickStep} (hservers : servers ≠ []) (hx : x.Turning servers)
    (hturn : x.InTurn step) (hstep : x.pickStep step = some y) : y.Turning servers := by
  obtain ⟨-, hempty, -⟩ | ⟨rfl, -, rfl⟩ | ⟨call, rfl, hcall, rfl⟩ := pickStep_cases hstep
  · rw [hx.servers_eq] at hempty
    exact absurd hempty hservers
  · exact hx.movedOn
  · exact hx.afterRead hservers hcall hturn

/-- In `total` turns every one of `n` servers comes up equally often, or once more. -/
theorem count_due {n i : ℕ} (total : ℕ) (hi : i < n) :
    total / n ≤ ((List.range total).map (due n)).count (some i) ∧
      ((List.range total).map (due n)).count (some i) ≤ total / n + 1 := by
  have hpos : 0 < n := Nat.zero_lt_of_lt hi
  have hcount : ((List.range total).map (due n)).count (some i) =
      total.count (· ≡ i + (n - 1) [MOD n]) := by
    rw [Nat.count, List.count_eq_countP, List.countP_map]
    refine List.countP_congr ?_
    intro call _
    have hturn : (call + 1) % n = i ↔ call ≡ i + (n - 1) [MOD n] := by
      rw [← Nat.ModEq.add_iff_right (Nat.ModEq.refl 1), Nat.ModEq,
        show i + (n - 1) + 1 = i + n by omega, Nat.add_mod_right, Nat.mod_eq_of_lt hi]
    simp [due, hturn]
  rw [hcount, Nat.count_modEq_card total hpos]
  split
  · exact ⟨Nat.le_succ _, le_rfl⟩
  · exact ⟨le_rfl, Nat.le_succ _⟩

/-- **The servers are picked equally often**, up to one, whenever no call is in
progress, in every run in which each call reads in its turn. -/
theorem run_balanced (servers : List Addr) (hservers : 1 ≤ servers.length)
    (steps : List PickStep) (last : Picking Addr)
    (hturn : RunMeets pickStep InTurn (start servers) steps)
    (hrun : run pickStep (start servers) steps = some last) (hquiet : last.pending = [])
    (i j : ℕ) (hi : i < servers.length) (hj : j < servers.length) :
    last.timesPicked i ≤ last.timesPicked j + 1 := by
  have hne : servers ≠ [] := List.length_pos_iff.mp hservers
  have hlast : last.Turning servers :=
    run_preserves_of_meets (Turning servers) (fun hx hguard hstep => hx.pickStep hne hguard hstep)
      (turning_start servers) hturn hrun
  have hperm := hlast.perm
  rw [hquiet, List.map_nil, List.append_nil] at hperm
  have hcount (k : ℕ) : last.timesPicked k =
      ((List.range last.updates).map (due servers.length)).count (some k) :=
    hperm.count_eq (some k)
  rw [hcount i, hcount j]
  exact (count_due last.updates hi).2.trans (Nat.succ_le_succ (count_due last.updates hj).1)

/-- Three calls of two servers, one after the other. -/
def oneByOne : List PickStep := [.moveOn, .read 0, .moveOn, .read 1, .moveOn, .read 2]

theorem run_balanced_oneByOne :
    ∃ last, run pickStep (start ["a", "b"]) oneByOne = some last ∧
      last.timesPicked 1 = 2 ∧ last.timesPicked 1 ≤ last.timesPicked 0 + 1 := by
  have hturn : RunMeets pickStep InTurn (start ["a", "b"]) oneByOne := by decide
  refine ⟨_, rfl, rfl, ?_⟩
  exact run_balanced ["a", "b"] (by decide) oneByOne _ hturn rfl rfl 1 0 (by decide) (by decide)

/-- Two calls that both read after the second update are given the same server. -/
theorem overtaken_not_balanced :
    ∃ last, run pickStep (start ["a", "b"]) [.moveOn, .moveOn, .read 0, .read 1] = some last ∧
      last.pending = [] ∧ ¬ last.timesPicked 0 ≤ last.timesPicked 1 + 1 := by
  refine ⟨_, rfl, rfl, ?_⟩
  decide

/-! ## No panics -/

/-- The condition on a step: no call moves the index on before there is a server,
and while a call has still to read, no list is installed that the index is beyond. -/
def Steady (resolve : String → Except String Addr) (x : Picking Addr) : SelectorAction → Prop
  | .pickServer .moveOn => x.selector.servers ≠ []
  | .pickServer (.read _) => True
  | .addServer servers => servers ≠ [] → ∀ addrs,
      RoundRobinSelector.resolveAll resolve servers = .ok addrs →
        x.pending = [] ∨ x.selector.curIndex < addrs.length

/-- While a call has still to read, the index is inside the list; and no call has
come to anything improper. -/
structure Safe (x : Picking Addr) : Prop where
  index_lt : x.pending ≠ [] → x.selector.curIndex < x.selector.servers.length
  proper : ∀ o ∈ x.outcomes, o.Proper

/-- A read inside the list. -/
theorem proper_readServer {rrs : RoundRobinSelector Addr}
    (hindex : rrs.curIndex < rrs.servers.length) :
    PickOutcome.Proper ⟨rrs.servers, rrs.curIndex, rrs.readServer⟩ := by
  have hread : rrs.readServer = .ok (.ok rrs.servers[rrs.curIndex]) := by
    rw [RoundRobinSelector.readServer, if_neg (by omega), List.getElem?_eq_getElem hindex]
  refine ⟨_, hread, ?_, ?_⟩
  · refine iff_of_false (by rintro ⟨⟩) ?_
    exact List.ne_nil_of_length_pos (Nat.zero_lt_of_lt hindex)
  · rintro server ⟨⟩
    exact List.getElem_mem hindex

/-- An `AddServer` that fails leaves list and index as they were. -/
theorem addServer_cases (resolve : String → Except String Addr) (rrs : RoundRobinSelector Addr)
    (servers : List String) :
    (rrs.addServer resolve servers).1 = rrs ∨
      servers ≠ [] ∧ ∃ addrs, RoundRobinSelector.resolveAll resolve servers = .ok addrs ∧
        rrs.addServer resolve servers = ({ rrs with servers := addrs }, none) := by
  rw [RoundRobinSelector.addServer]
  split
  · exact .inl rfl
  · rename_i hsome
    split
    · exact .inl rfl
    · rename_i addrs haddrs
      exact .inr ⟨mt List.length_eq_zero_iff.mpr hsome, addrs, haddrs, rfl⟩

theorem Safe.afterRead {call : ℕ} (hx : x.Safe) (hcall : call ∈ x.pending) :
    (x.afterRead call).Safe := by
  have hindex := hx.index_lt (List.ne_nil_of_mem hcall)
  refine ⟨fun _ => hindex, ?_⟩
  intro o ho
  rcases List.mem_append.mp ho with hold | hnew
  · exact hx.proper o hold
  · rw [List.mem_singleton.mp hnew]
    exact proper_readServer hindex

theorem Safe.step {action : SelectorAction} (hx : x.Safe) (hsteady : x.Steady resolve action)
    (hstep : x.step resolve action = some y) : y.Safe := by
  cases action with
  | pickServer step =>
      obtain ⟨rfl, hempty, -⟩ | ⟨rfl, hsome, rfl⟩ | ⟨call, rfl, hcall, rfl⟩ := pickStep_cases hstep
      · exact absurd hempty hsteady
      · exact ⟨fun _ => Nat.mod_lt _ (List.length_pos_iff.mpr hsome), hx.proper⟩
      · exact hx.afterRead hcall
  | addServer servers =>
      simp only [Picking.step] at hstep
      split at hstep
      · cases hstep
      cases hstep
      rcases addServer_cases resolve x.selector servers with hsame | ⟨hsome, addrs, haddrs, hadded⟩
      · rw [hsame]
        exact hx
      · rw [hadded]
        refine ⟨?_, hx.proper⟩
        intro hpending
        rcases hsteady hsome addrs haddrs with hnone | hlt
        · exact absurd hnone hpending
        · exact hlt

theorem length_resolveAll {servers : List String} {addrs : List Addr}
    (hresolve : RoundRobinSelector.resolveAll resolve servers = .ok addrs) :
    addrs.length = servers.length := by
  induction servers generalizing addrs with
  | nil =>
      cases hresolve
      rfl
  | cons server servers ih =>
      simp only [RoundRobinSelector.resolveAll, bind, Except.bind, pure, Except.pure] at hresolve
      split at hresolve
      · cases hresolve
      split at hresolve
      · cases hresolve
      rename_i rest hrest
      cases hresolve
      rw [List.length_cons, List.length_cons, ih hrest]

/-- Both parts of the condition are needed: where a step is not steady, it panics
itself, or the next read of any call in progress does. -/
theorem exists_panic_of_not_steady {action : SelectorAction} (hlocked : x.locked = false)
    (hsteady : ¬ x.Steady resolve action) :
    ∃ reads last, run (step resolve) x (action :: reads) = some last ∧
      ∃ o ∈ last.outcomes, ¬ o.Proper := by
  have hpanic {o : PickOutcome Addr} {panic : Panic} (ho : o.result = .error panic) :
      ¬ o.Proper := by
    rintro ⟨returned, hreturned, -⟩
    rw [ho] at hreturned
    cases hreturned
  match action with
  | .pickServer .moveOn =>
      have hempty : x.selector.servers = [] := not_not.mp hsteady
      refine ⟨[], { x.conclude (.error .divideByZero) with locked := true }, ?_, _,
        List.mem_append_right _ (List.mem_singleton_self _), hpanic rfl⟩
      simp [run_cons, step, pickStep, hlocked, RoundRobinSelector.moveOn, hempty]
  | .pickServer (.read call) => exact absurd trivial hsteady
  | .addServer servers =>
      rw [Steady] at hsteady
      push Not at hsteady
      obtain ⟨hsome, addrs, haddrs, hpending, hbeyond⟩ := hsteady
      obtain ⟨call, hcall⟩ := List.exists_mem_of_ne_nil _ hpending
      have hadded : x.selector.addServer resolve servers =
          ({ x.selector with servers := addrs }, none) := by
        rw [RoundRobinSelector.addServer, if_neg (mt List.length_eq_zero_iff.mp hsome), haddrs]
      have hread : RoundRobinSelector.readServer { x.selector with servers := addrs } =
          .error .indexOutOfRange := by
        have hlength : addrs.length ≠ 0 := by
          rw [length_resolveAll haddrs]
          exact mt List.length_eq_zero_iff.mp hsome
        rw [RoundRobinSelector.readServer, if_neg hlength, List.getElem?_eq_none hbeyond]
      refine ⟨[.pickServer (.read call)],
        afterRead { x with selector := { x.selector with servers := addrs } } call, ?_, _,
        List.mem_append_right _ (List.mem_singleton_self _), hpanic hread⟩
      simp [run_cons, step, pickStep, hlocked, hadded, hcall, afterRead]

/-- Two servers, a call, and a longer list while the call is in progress. -/
def grown : List SelectorAction :=
  [.addServer ["a", "b"], .pickServer .moveOn, .addServer ["c", "d", "e"], .pickServer (.read 0)]

end Picking

end Xrtc.Xrpc
