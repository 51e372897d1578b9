/-
# Descriptor numbers and teardown

Descriptor numbers belong to the whole process: the acceptor thread takes the
lowest free one while the workers give theirs back. A connection is torn down in
several steps, by `_close_conn`, `_remove_conn` and the destructor, and two of
them close its descriptor number. What happens in between decides what the
second close hits. The table records for each open number who it was opened for,
and every close that hits somebody else's descriptor is written down.
-/

import Mathlib.Order.Nat
import Xrtc.Machine.Run

namespace Xrtc.Server

open Xrtc.Machine

/-- Who a descriptor was opened for: a connection, or the process itself, which
has listeners and pipes. -/
inductive Owner
  | connection (serial : ℕ)
  | process
  deriving DecidableEq

/-- How far a connection has come. From `closing` on its worker is inside
`_close_conn`; the names say what has been done last. -/
inductive Phase
  | dispatched
  | installed
  | closing
  | closed
  | timerDeleted
  | ioDeleted
  | cleared
  | destroyed
  deriving DecidableEq

namespace Phase

/-- The descriptor has not been closed. -/
def isOpen : Phase → Bool
  | dispatched | installed | closing => true
  | closed | timerDeleted | ioDeleted | cleared | destroyed => false

/-- `_close_conn` has closed the descriptor and the destructor has yet to. -/
def betweenCloses : Phase → Bool
  | closed | timerDeleted | ioDeleted | cleared => true
  | dispatched | installed | closing | destroyed => false

/-- The worker is inside `_close_conn`. -/
def inTeardown (phase : Phase) : Bool := phase = closing || phase.betweenCloses

end Phase

/-- A connection as far as its descriptor is concerned. -/
structure Teardown where
  fd : ℕ
  worker : ℕ
  phase : Phase
  deriving DecidableEq

/-- The descriptor table, all connections by serial number, and the closes that
hit a descriptor of somebody else. -/
structure Process where
  fds : List (Option Owner)
  conns : List Teardown := []
  misdirected : List (ℕ × Owner) := []
  deriving DecidableEq

inductive FdAction
  /-- `accept` and the dispatch to a worker. -/
  | accept (worker : ℕ)
  /-- `_new_conn` up to the table entry. -/
  | install (serial : ℕ)
  /-- `_new_conn` where it fails and closes the descriptor. -/
  | reject (serial : ℕ)
  /-- The next step of `_close_conn`. -/
  | advance (serial : ℕ)

namespace Process

def lowestFree (fds : List (Option Owner)) : ℕ := fds.findIdx Option.isNone

/-- The owner of a number, if it is open. -/
def ownerAt (p : Process) (fd : ℕ) : Option Owner := (p.fds[fd]?).join

/-- `accept` returns the lowest free number. -/
def openLowest (fds : List (Option Owner)) (owner : Owner) : List (Option Owner) :=
  if lowestFree fds < fds.length then
    fds.set (lowestFree fds) (some owner)
  else
    fds ++ [some owner]

/-- `close(fd)` on behalf of a connection; a number that is not open is an error
without effect. -/
def close (p : Process) (serial fd : ℕ) : Process :=
  match p.ownerAt fd with
  | none => p
  | some owner =>
      { p with
        fds := p.fds.set fd none
        misdirected :=
          if owner = .connection serial then p.misdirected
          else p.misdirected ++ [(serial, owner)] }

def setPhase (p : Process) (serial : ℕ) (phase : Phase) : Process :=
  { p with conns := p.conns.modify serial fun c => { c with phase := phase } }

/-- A worker runs one callback at a time. -/
def idle (p : Process) (worker : ℕ) : Bool :=
  p.conns.all fun c => c.worker ≠ worker || !c.phase.inTeardown

def step (p : Process) : FdAction → Option Process
  | .accept worker =>
      some { p with
        fds := openLowest p.fds (.connection p.conns.length)
        conns := p.conns ++ [⟨lowestFree p.fds, worker, .dispatched⟩] }
  | .install serial =>
      match p.conns[serial]? with
      | none => none
      | some c =>
          if c.phase = .dispatched ∧ p.idle c.worker then some (p.setPhase serial .installed)
          else none
  | .reject serial =>
      match p.conns[serial]? with
      | none => none
      | some c =>
          if c.phase = .dispatched ∧ p.idle c.worker then
            some ((p.close serial c.fd).setPhase serial .destroyed)
          else none
  | .advance serial =>
      match p.conns[serial]? with
      | none => none
      | some c =>
          match c.phase with
          | .dispatched => none
          | .installed => if p.idle c.worker then some (p.setPhase serial .closing) else none
          | .closing => some ((p.close serial c.fd).setPhase serial .closed)
          | .closed => some (p.setPhase serial .timerDeleted)
          | .timerDeleted => some (p.setPhase serial .ioDeleted)
          | .ioDeleted => some (p.setPhase serial .cleared)
          | .cleared => some ((p.close serial c.fd).setPhase serial .destroyed)
          | .destroyed => none

/-- `accept` does not return a number whose connection is between its two closes. -/
def NoRace (p : Process) : FdAction → Prop
  | .accept _ => ∀ c ∈ p.conns, c.phase.betweenCloses = true → c.fd ≠ lowestFree p.fds
  | .install _ | .reject _ | .advance _ => True

/-- Every open connection owns its number, and nobody owns a number whose
connection is between its two closes. -/
structure Owned (p : Process) : Prop where
  isOpen : ∀ (k : ℕ) (c : Teardown), p.conns[k]? = some c → c.phase.isOpen = true →
    p.ownerAt c.fd = some (.connection k)
  between : ∀ (k : ℕ) (c : Teardown), p.conns[k]? = some c → c.phase.betweenCloses = true →
    p.ownerAt c.fd = none
  undirected : p.misdirected = []

/-! ## The operations on the table -/

variable {p next : Process} {serial fd : ℕ} {c : Teardown} {phase : Phase}

theorem ownerAt_lowestFree (p : Process) : p.ownerAt (lowestFree p.fds) = none := by
  unfold ownerAt lowestFree
  by_cases hlt : p.fds.findIdx Option.isNone < p.fds.length
  · rw [List.getElem?_eq_getElem hlt]
    have hnone := List.findIdx_getElem (w := hlt)
    simpa using hnone
  · rw [List.getElem?_eq_none (not_lt.mp hlt)]
    rfl

theorem ownerAt_openLowest_self (owner : Owner) :
    ((openLowest p.fds owner)[lowestFree p.fds]?).join = some owner := by
  unfold openLowest
  split
  · rename_i hlt
    rw [List.getElem?_set_self hlt]
    rfl
  · rename_i hfull
    have hlen : lowestFree p.fds = p.fds.length :=
      le_antisymm List.findIdx_le_length (not_lt.mp hfull)
    rw [hlen, List.getElem?_concat_length]
    rfl

theorem ownerAt_openLowest_of_ne (owner : Owner) (hne : fd ≠ lowestFree p.fds) :
    ((openLowest p.fds owner)[fd]?).join = p.ownerAt fd := by
  unfold openLowest
  split
  · rw [List.getElem?_set_ne hne.symm]
    rfl
  · rename_i hfull
    have hlen : lowestFree p.fds = p.fds.length :=
      le_antisymm List.findIdx_le_length (not_lt.mp hfull)
    rw [hlen] at hne
    by_cases hlt : fd < p.fds.length
    · rw [List.getElem?_append_left hlt]
      rfl
    · rw [List.getElem?_eq_none (by rw [List.length_append, List.length_singleton]; omega), ownerAt,
        List.getElem?_eq_none (not_lt.mp hlt)]

theorem close_of_free (hfree : p.ownerAt fd = none) : p.close serial fd = p := by
  rw [close, hfree]

theorem ownerAt_close_of_ne {other : ℕ} (hne : other ≠ fd) :
    (p.close serial fd).ownerAt other = p.ownerAt other := by
  unfold close
  split
  · rfl
  · rw [ownerAt, List.getElem?_set_ne hne.symm]
    rfl

theorem ownerAt_close_self : (p.close serial fd).ownerAt fd = none := by
  unfold close
  split
  · assumption
  · rename_i owner howner
    rw [ownerAt]
    by_cases hlt : fd < p.fds.length
    · rw [List.getElem?_set_self hlt]
      rfl
    · rw [List.getElem?_eq_none (by rw [List.length_set]; exact not_lt.mp hlt)]
      rfl

theorem conns_close : (p.close serial fd).conns = p.conns := by
  unfold close
  split <;> rfl

theorem misdirected_close (howner : p.ownerAt fd = some (.connection serial)) :
    (p.close serial fd).misdirected = p.misdirected := by
  rw [close, howner]
  exact if_pos rfl

theorem ownerAt_setPhase : (p.setPhase serial phase).ownerAt fd = p.ownerAt fd := rfl

/-- The connections after one of them has changed its phase. -/
theorem conns_setPhase {k : ℕ} {c' : Teardown}
    (hk : (p.setPhase serial phase).conns[k]? = some c') :
    (k ≠ serial ∧ p.conns[k]? = some c') ∨
      k = serial ∧ ∃ c, p.conns[k]? = some c ∧ c' = { c with phase := phase } := by
  rw [setPhase, List.getElem?_modify] at hk
  by_cases hsame : serial = k
  · subst hsame
    right
    simp only [if_true] at hk
    obtain ⟨c, hc, rfl⟩ := Option.map_eq_some_iff.mp hk
    exact ⟨rfl, c, hc, rfl⟩
  · left
    exact ⟨fun heq => hsame heq.symm, by simpa [hsame] using hk⟩

/-! ## What every step keeps -/

/-- A step that closes nothing, and moves a connection from open to open or
from between to between. -/
theorem Owned.setPhase (howned : p.Owned) (hc : p.conns[serial]? = some c)
    (hopen : phase.isOpen = true → c.phase.isOpen = true)
    (hbetween : phase.betweenCloses = true → c.phase.betweenCloses = true) :
    (p.setPhase serial phase).Owned := by
  refine ⟨?_, ?_, howned.undirected⟩
  · intro k c' hk hc'
    rcases conns_setPhase hk with ⟨-, hold⟩ | ⟨rfl, d, hd, rfl⟩
    · exact howned.isOpen k c' hold hc'
    · rw [hc] at hd
      cases hd
      exact howned.isOpen k c hc (hopen hc')
  · intro k c' hk hc'
    rcases conns_setPhase hk with ⟨-, hold⟩ | ⟨rfl, d, hd, rfl⟩
    · exact howned.between k c' hold hc'
    · rw [hc] at hd
      cases hd
      exact howned.between k c hc (hbetween hc')

/-- The first close of a connection: it hits the connection's own descriptor,
and no other open connection has the same number. -/
theorem Owned.close (howned : p.Owned) (hc : p.conns[serial]? = some c)
    (hopen : c.phase.isOpen = true) (hphase : phase.isOpen = false) :
    ((p.close serial c.fd).setPhase serial phase).Owned := by
  have howner := howned.isOpen serial c hc hopen
  refine ⟨?_, ?_, ?_⟩
  · intro k c' hk hc'
    rcases conns_setPhase hk with ⟨hne, hold⟩ | ⟨rfl, d, hd, rfl⟩
    · rw [conns_close] at hold
      have howner' := howned.isOpen k c' hold hc'
      rw [ownerAt_setPhase, ownerAt_close_of_ne, howner']
      intro hsame
      rw [hsame, howner] at howner'
      cases howner'
      exact hne rfl
    · rw [hphase] at hc'
      cases hc'
  · intro k c' hk hc'
    rw [ownerAt_setPhase]
    by_cases hsame : c'.fd = c.fd
    · rw [hsame]
      exact ownerAt_close_self
    · rw [ownerAt_close_of_ne hsame]
      rcases conns_setPhase hk with ⟨-, hold⟩ | ⟨rfl, d, hd, rfl⟩
      · rw [conns_close] at hold
        exact howned.between k c' hold hc'
      · rw [conns_close, hc] at hd
        cases hd
        exact absurd rfl hsame
  · exact (misdirected_close howner).trans howned.undirected

theorem Owned.accept (howned : p.Owned) (worker : ℕ)
    (hrace : ∀ c ∈ p.conns, c.phase.betweenCloses = true → c.fd ≠ lowestFree p.fds) :
    Owned { p with
      fds := openLowest p.fds (.connection p.conns.length)
      conns := p.conns ++ [⟨lowestFree p.fds, worker, .dispatched⟩] } := by
  have hcases (k : ℕ) (c : Teardown)
      (hk : (p.conns ++ [⟨lowestFree p.fds, worker, .dispatched⟩])[k]? = some c) :
      p.conns[k]? = some c ∨ k = p.conns.length ∧ c = ⟨lowestFree p.fds, worker, .dispatched⟩ := by
    rcases lt_trichotomy k p.conns.length with hlt | rfl | hgt
    · rw [List.getElem?_append_left hlt] at hk
      exact Or.inl hk
    · rw [List.getElem?_concat_length] at hk
      exact Or.inr ⟨rfl, (Option.some.inj hk).symm⟩
    · rw [List.getElem?_eq_none] at hk
      · cases hk
      · rw [List.length_append, List.length_singleton]
        exact hgt
  refine ⟨?_, ?_, howned.undirected⟩
  · intro k c hk hopen
    rcases hcases k c hk with hold | ⟨rfl, rfl⟩
    · have howner := howned.isOpen k c hold hopen
      have hne : c.fd ≠ lowestFree p.fds := by
        intro hsame
        rw [hsame, ownerAt_lowestFree] at howner
        cases howner
      exact (ownerAt_openLowest_of_ne _ hne).trans howner
    · exact ownerAt_openLowest_self _
  · intro k c hk hbetween
    rcases hcases k c hk with hold | ⟨rfl, rfl⟩
    · have hne := hrace c (List.mem_of_getElem? hold) hbetween
      exact (ownerAt_openLowest_of_ne _ hne).trans (howned.between k c hold hbetween)
    · cases hbetween

/-- The destructor's close, while nobody has the number. -/
theorem Owned.destroy (howned : p.Owned) (hc : p.conns[serial]? = some c)
    (hbetween : c.phase.betweenCloses = true) :
    ((p.close serial c.fd).setPhase serial .destroyed).Owned := by
  rw [close_of_free (howned.between serial c hc hbetween)]
  exact howned.setPhase hc (fun hopen => by cases hopen) (fun hphase => by cases hphase)

/-- **One step** keeps every descriptor with its owner. -/
theorem Owned.step {action : FdAction} (howned : p.Owned) (hrace : p.NoRace action)
    (hstep : p.step action = some next) : next.Owned := by
  cases action with
  | accept worker =>
      cases hstep
      exact howned.accept worker hrace
  | install serial =>
      simp only [Process.step] at hstep
      split at hstep
      · cases hstep
      · rename_i c hc
        split at hstep
        · rename_i henabled
          cases hstep
          exact howned.setPhase hc (fun _ => by rw [henabled.1]; rfl)
            (fun hphase => by cases hphase)
        · cases hstep
  | reject serial =>
      simp only [Process.step] at hstep
      split at hstep
      · cases hstep
      · rename_i c hc
        split at hstep
        · rename_i henabled
          cases hstep
          exact howned.close hc (by rw [henabled.1]; rfl) rfl
        · cases hstep
  | advance serial =>
      simp only [Process.step] at hstep
      split at hstep
      · cases hstep
      · rename_i c hc
        cases hphase : c.phase with
        | dispatched =>
            simp only [hphase] at hstep
            cases hstep
        | installed =>
            simp only [hphase] at hstep
            split at hstep
            · cases hstep
              exact howned.setPhase hc (fun _ => by rw [hphase]; rfl) (fun h => by cases h)
            · cases hstep
        | closing =>
            simp only [hphase] at hstep
            cases hstep
            exact howned.close hc (by rw [hphase]; rfl) rfl
        | closed | timerDeleted | ioDeleted =>
            simp only [hphase] at hstep
            cases hstep
            exact howned.setPhase hc (fun h => by cases h) (fun _ => by rw [hphase]; rfl)
        | cleared =>
            simp only [hphase] at hstep
            cases hstep
            exact howned.destroy hc (by rw [hphase]; rfl)
        | destroyed =>
            simp only [hphase] at hstep
            cases hstep

/-- **Teardown closes nothing else.** From any table in which only the process
itself has descriptors, in every run in which `accept` never returns a number
whose connection is between its two closes, no close ever hits a descriptor that
belongs to another connection or to the process. -/
theorem misdirected_eq_nil (fds : List (Option Owner)) (actions : List FdAction) (last : Process)
    (hrace : RunMeets step NoRace { fds := fds } actions)
    (hrun : run step { fds := fds } actions = some last) : last.misdirected = [] := by
  have hstart : Owned { fds := fds } := by
    refine ⟨?_, ?_, rfl⟩
    · intro k c hk
      cases hk
    · intro k c hk
      cases hk
  have howned : last.Owned := by
    refine run_preserves_of_meets Owned ?_ hstart hrace hrun
    intro p next action hp hguard hstep
    exact hp.step hguard hstep
  exact howned.undirected

/-- Three standard streams and a listener. -/
def listening : List (Option Owner) := [some .process, some .process, some .process, some .process]

/-- One connection from its acceptance to the end of its destructor. -/
def oneTeardown : List FdAction :=
  [.accept 0, .install 0, .advance 0, .advance 0, .advance 0, .advance 0, .advance 0, .advance 0]

theorem oneTeardown_misdirected :
    ∃ last, run step { fds := listening } oneTeardown = some last ∧
      last.conns = [⟨4, 0, .destroyed⟩] ∧ last.misdirected = [] := by
  have hrun : run step { fds := listening } oneTeardown =
      some { fds := listening ++ [none], conns := [⟨4, 0, .destroyed⟩] } := by decide
  refine ⟨_, hrun, rfl, misdirected_eq_nil listening oneTeardown _ ⟨?_, ?_⟩ hrun⟩
  · intro c hc
    cases hc
  · intro _ _
    exact ⟨trivial, fun _ _ => ⟨trivial, fun _ _ => ⟨trivial, fun _ _ => ⟨trivial, fun _ _ =>
      ⟨trivial, fun _ _ => ⟨trivial, fun _ _ => ⟨trivial, fun _ _ => trivial⟩⟩⟩⟩⟩⟩⟩

/-- The acceptor takes the number between the two closes. -/
def race : List FdAction :=
  [.accept 0, .install 0, .advance 0, .advance 0, .accept 1, .install 1, .advance 0, .advance 0,
    .advance 0, .advance 0]

/-- The destructor of connection 0 closes the descriptor of connection 1, which
is installed and live. -/
theorem race_misdirected :
    ∃ last, run step { fds := listening } race = some last ∧
      last.conns[1]? = some ⟨4, 1, .installed⟩ ∧ last.misdirected = [(0, .connection 1)] := by
  refine ⟨{ fds := listening ++ [none],
            conns := [⟨4, 0, .destroyed⟩, ⟨4, 1, .installed⟩],
            misdirected := [(0, .connection 1)] }, by decide, rfl, rfl⟩

end Process

end Xrtc.Server
