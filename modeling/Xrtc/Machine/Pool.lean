/-
# A supervisor and its workers

A supervisor hands items to numbered workers. Every worker has a queue and a pipe: an
item is pushed and a token is written, the worker reads a token and pops an item. The
supervisor is told through a pipe of its own to stop. It then goes through its workers
one after the other: it writes a last token and waits until the worker is gone. A
worker that reads that token closes its pipe and is gone. Pipes hold a bounded number
of tokens, a write to a full one waits, and a write to a closed one fails. Others may
write tokens of their own into any pipe at any time.

Three things are proved of every interleaving: a worker that is gone has taken all
that was handed to it, in order; nobody stops twice, and the supervisor never writes
into a closed pipe; and a stop that was asked for is carried out, because as long as
it is not complete some thread can move, and the threads have only boundedly many
steps to take.
-/

import Xrtc.Machine.Mailbox
import Xrtc.Machine.Run

namespace Xrtc.Machine

open Finset

universe u

inductive Token
  | item
  | other
  | quit
  deriving DecidableEq

/-- Where the supervisor stands. -/
inductive SupervisorPc
  | running
  /-- An item is in the queue of worker `i`, the token for it not yet written. -/
  | pushed (i : ℕ)
  /-- About to tell worker `i` to stop. -/
  | stopping (i : ℕ)
  /-- Waiting until worker `i` is gone. -/
  | joining (i : ℕ)
  | stopped
  deriving DecidableEq

/-- The supervisor still reads its own pipe. -/
def SupervisorPc.isOpen : SupervisorPc → Bool
  | .running | .pushed _ => true
  | .stopping _ | .joining _ | .stopped => false

/-- Where a worker stands. -/
inductive MemberPc
  | idle
  /-- A token for an item has been read. -/
  | notified
  | gone
  deriving DecidableEq

/-- A worker. What it has taken and how often it has stopped are records. -/
structure Member (α : Type u) where
  pc : MemberPc := .idle
  queue : List α := []
  pipe : List Token := []
  taken : List α := []
  stops : ℕ := 0

/-- The system. What was handed out and to whom, how often the supervisor has
stopped, how often a pop found nothing and how often the supervisor wrote into a
closed pipe are records. -/
structure Pool (α : Type u) where
  supervisor : SupervisorPc := .running
  requests : List Token := []
  member : ℕ → Member α := fun _ => {}
  assigned : List (ℕ × α) := []
  stops : ℕ := 0
  misses : ℕ := 0
  strayWrites : ℕ := 0

inductive PoolAction (α : Type u)
  /-- Somebody writes a token for the supervisor. -/
  | request (token : Token)
  /-- The supervisor hands an item to worker `i`. -/
  | assign (i : ℕ) (a : α)
  /-- Somebody else writes a token of its own for worker `i`. -/
  | tell (i : ℕ)
  /-- The next step of the supervisor. -/
  | supervisor
  /-- The next step of worker `i`. -/
  | member (i : ℕ)

namespace Member

variable {α : Type u}

/-- Write a token; nothing happens where the pipe is closed. -/
def write (m : Member α) (token : Token) : Member α :=
  if m.pc = .gone then m else { m with pipe := m.pipe ++ [token] }

/-- A write does not wait. -/
def Ready (capacity : ℕ) (m : Member α) : Prop := m.pc = .gone ∨ m.pipe.length < capacity

instance (capacity : ℕ) (m : Member α) : Decidable (m.Ready capacity) :=
  inferInstanceAs (Decidable (_ ∨ _))

/-- The next step of a worker, and whether its pop found nothing. -/
def step (m : Member α) : Option (Member α × Bool) :=
  match m.pc with
  | .gone => none
  | .idle =>
      match m.pipe with
      | [] => none
      | .item :: rest => some ({ m with pc := .notified, pipe := rest }, false)
      | .other :: rest => some ({ m with pipe := rest }, false)
      | .quit :: rest => some ({ m with pc := .gone, pipe := rest, stops := m.stops + 1 }, false)
  | .notified =>
      match m.queue with
      | [] => some ({ m with pc := .idle }, true)
      | a :: rest => some ({ m with pc := .idle, queue := rest, taken := m.taken ++ [a] }, false)

end Member

namespace Pool

variable {α : Type u}

def set (x : Pool α) (i : ℕ) (m : Member α) : Pool α :=
  { x with member := Function.update x.member i m }

/-- Write a token for worker `i`, with the record of a closed pipe. -/
def writeTo (x : Pool α) (i : ℕ) (token : Token) : Pool α :=
  { x.set i ((x.member i).write token) with
    strayWrites := x.strayWrites + if (x.member i).pc = .gone then 1 else 0 }

/-- Push an item for worker `i`. -/
def assign (x : Pool α) (i : ℕ) (a : α) : Pool α :=
  { x.set i { x.member i with queue := (x.member i).queue ++ [a] } with
    supervisor := .pushed i
    assigned := x.assigned ++ [(i, a)] }

/-- Write the token for it. -/
def announce (x : Pool α) (i : ℕ) : Pool α := { x.writeTo i .item with supervisor := .running }

/-- Where the supervisor goes once the workers below `i` are gone. -/
def stopFrom (size i : ℕ) : SupervisorPc := if i < size then .stopping i else .stopped

/-- Leave the loop and close its pipe. -/
def beginStop (size : ℕ) (x : Pool α) : Pool α :=
  { x with supervisor := stopFrom size 0, stops := x.stops + 1 }

/-- Write the last token for worker `i`. -/
def dismiss (x : Pool α) (i : ℕ) : Pool α := { x.writeTo i .quit with supervisor := .joining i }

/-- The next step of the supervisor of `size` workers. -/
def supervisorStep (size capacity : ℕ) (x : Pool α) : Option (Pool α) :=
  match x.supervisor with
  | .running =>
      match x.requests with
      | [] => none
      | .quit :: rest => some (beginStop size { x with requests := rest })
      | .item :: rest | .other :: rest => some { x with requests := rest }
  | .pushed i => if (x.member i).Ready capacity then some (x.announce i) else none
  | .stopping i => if (x.member i).Ready capacity then some (x.dismiss i) else none
  | .joining i =>
      if (x.member i).pc = .gone then
        some { x with supervisor := stopFrom size (i + 1) }
      else
        none
  | .stopped => none

/-- A step of worker `i`, with the record of a pop that found nothing. -/
def advance (x : Pool α) (i : ℕ) (m : Member α) (missed : Bool) : Pool α :=
  { x.set i m with misses := x.misses + if missed then 1 else 0 }

def step (size capacity : ℕ) (x : Pool α) : PoolAction α → Option (Pool α)
  | .request token =>
      if x.supervisor.isOpen then
        if x.requests.length < capacity then
          some { x with requests := x.requests ++ [token] }
        else
          none
      else
        -- the pipe is closed, and the write fails
        some x
  | .assign i a => if i < size ∧ x.supervisor = .running then some (x.assign i a) else none
  | .tell i =>
      if i < size ∧ (x.member i).Ready capacity then
        some (x.set i ((x.member i).write .other))
      else
        none
  | .supervisor => x.supervisorStep size capacity
  | .member i =>
      if i < size then (x.member i).step.map fun (m, missed) => x.advance i m missed else none

/-! ## What holds in every state -/

end Pool

/-- The tokens that the supervisor owes worker `i`. -/
def SupervisorPc.owes (i : ℕ) : SupervisorPc → ℕ
  | .pushed j => if j = i then 1 else 0
  | .running | .stopping _ | .joining _ | .stopped => 0

/-- The supervisor has waited for worker `i`. -/
def SupervisorPc.Past (i : ℕ) : SupervisorPc → Prop
  | .running | .pushed _ => False
  | .stopping j | .joining j => i < j
  | .stopped => True

def MemberPc.owes : MemberPc → ℕ
  | .notified => 1
  | .idle | .gone => 0

/-- Worker `i`, to which these items were handed. While it is there its pipe holds a
token for every item, and a last token exactly while the supervisor waits for it; no
token for an item stands behind the last one. -/
structure Member.Sound {α : Type u} (supervisor : SupervisorPc) (i : ℕ) (items : List α)
    (m : Member α) : Prop where
  items : items = m.taken ++ m.queue
  balance : m.pc ≠ .gone →
    m.queue.length = m.pipe.count .item + supervisor.owes i + m.pc.owes
  quit : m.pc ≠ .gone → m.pipe.count .quit = if supervisor = .joining i then 1 else 0
  order : Token.item ∉ m.pipe.dropWhile (· ≠ .quit)
  gone : m.pc = .gone → (supervisor.Past i ∨ supervisor = .joining i) ∧ m.queue = []
  past : supervisor.Past i → m.pc = .gone
  stops : m.stops = if m.pc = .gone then 1 else 0

namespace Member.Sound

variable {α : Type u} {supervisor : SupervisorPc} {i : ℕ} {items : List α} {m : Member α}

theorem not_gone (hm : m.Sound supervisor i items) (hpast : ¬ supervisor.Past i)
    (hjoining : supervisor ≠ .joining i) : m.pc ≠ .gone := by
  intro hgone
  rcases (hm.gone hgone).1 with hpast' | hjoining'
  · exact hpast hpast'
  · exact hjoining hjoining'

/-- The supervisor moves on and owes the worker what it owed before. -/
theorem move (hm : m.Sound supervisor i items) (next : SupervisorPc)
    (howes : next.owes i = supervisor.owes i)
    (hquit : m.pc ≠ .gone → (next = .joining i ↔ supervisor = .joining i))
    (hgone : m.pc = .gone → next.Past i ∨ next = .joining i)
    (hpast : next.Past i → m.pc = .gone) : m.Sound next i items where
  items := hm.items
  balance hpc := by rw [howes, hm.balance hpc]
  quit hpc := by
    rw [hm.quit hpc]
    simp only [hquit hpc]
  order := hm.order
  gone hpc := ⟨hgone hpc, (hm.gone hpc).2⟩
  past := hpast
  stops := hm.stops

theorem not_mem_dropWhile_append {pipe : List Token} {token : Token}
    (horder : Token.item ∉ pipe.dropWhile (· ≠ .quit))
    (htoken : token = .item → Token.quit ∉ pipe) :
    Token.item ∉ (pipe ++ [token]).dropWhile (· ≠ .quit) := by
  induction pipe with
  | nil =>
      cases token <;> decide
  | cons first pipe ih =>
      rw [List.cons_append]
      by_cases hfirst : first = .quit
      · subst hfirst
        rw [List.dropWhile_cons_of_neg (by simp)] at horder ⊢
        simp only [List.mem_cons, List.mem_append, List.not_mem_nil, or_false] at horder ⊢
        rintro (hitem | hitem | hitem)
        · cases hitem
        · exact horder (Or.inr hitem)
        · exact htoken hitem.symm List.mem_cons_self
      · rw [List.dropWhile_cons_of_pos (by simpa using hfirst)] at horder ⊢
        refine ih horder ?_
        intro hitem hmem
        exact htoken hitem (List.mem_cons_of_mem first hmem)

/-- Somebody else writes a token. -/
theorem tell (hm : m.Sound supervisor i items) : (m.write .other).Sound supervisor i items := by
  by_cases hgone : m.pc = .gone
  · rwa [Member.write, if_pos hgone]
  rw [Member.write, if_neg hgone]
  refine ⟨hm.items, ?_, ?_, ?_, hm.gone, hm.past, hm.stops⟩
  · intro hpc
    simpa using hm.balance hpc
  · intro hpc
    simpa using hm.quit hpc
  · exact not_mem_dropWhile_append hm.order (by intro hitem; cases hitem)

/-- The supervisor pushes an item. -/
theorem assign (hm : m.Sound .running i items) (a : α) :
    Member.Sound (.pushed i) i (items ++ [a]) { m with queue := m.queue ++ [a] } := by
  have hthere : m.pc ≠ .gone := hm.not_gone id (by simp)
  refine ⟨?_, ?_, ?_, hm.order, fun hpc => absurd hpc hthere, False.elim, hm.stops⟩
  · rw [hm.items, List.append_assoc]
  · intro hpc
    have hbalance := hm.balance hpc
    simp only [SupervisorPc.owes, if_true, List.length_append, List.length_singleton]
      at hbalance ⊢
    omega
  · intro hpc
    simpa using hm.quit hpc

/-- It writes the token for it. -/
theorem announce (hm : m.Sound (.pushed i) i items) :
    (m.write .item).Sound .running i items := by
  have hthere : m.pc ≠ .gone := hm.not_gone id (by simp)
  have hnone : Token.quit ∉ m.pipe := by
    rw [← List.count_eq_zero]
    simpa using hm.quit hthere
  rw [Member.write, if_neg hthere]
  refine ⟨hm.items, ?_, ?_, ?_, fun hpc => absurd hpc hthere, False.elim, hm.stops⟩
  · intro hpc
    have hbalance := hm.balance hpc
    simp only [SupervisorPc.owes, if_true, List.count_append, List.count_singleton_self]
      at hbalance ⊢
    omega
  · intro _
    simpa [List.count_eq_zero] using hnone
  · exact not_mem_dropWhile_append hm.order fun _ => hnone

/-- It writes the last token. -/
theorem dismiss (hm : m.Sound (.stopping i) i items) :
    (m.write .quit).Sound (.joining i) i items := by
  have hthere : m.pc ≠ .gone := hm.not_gone (lt_irrefl i) (by simp)
  rw [Member.write, if_neg hthere]
  refine ⟨hm.items, ?_, ?_, ?_, fun hpc => absurd hpc hthere, ?_, hm.stops⟩
  · intro hpc
    simpa [SupervisorPc.owes] using hm.balance hpc
  · intro _
    have hnone := hm.quit hthere
    simpa using hnone
  · exact not_mem_dropWhile_append hm.order (by intro hitem; cases hitem)
  · intro hpast
    exact absurd hpast (lt_irrefl i)

/-- The worker takes a step, and finds what it looks for. -/
theorem step {m' : Member α} {missed : Bool} (hm : m.Sound supervisor i items)
    (hstep : m.step = some (m', missed)) : m'.Sound supervisor i items ∧ missed = false := by
  obtain ⟨pc, queue, pipe, taken, stops⟩ := m
  cases pc with
  | gone => cases hstep
  | idle =>
      have hthere : MemberPc.idle ≠ .gone := by decide
      have hbalance := hm.balance hthere
      have hquit := hm.quit hthere
      have hstops : stops = 0 := hm.stops
      cases pipe with
      | nil => cases hstep
      | cons token rest =>
          cases token with
          | item =>
              cases hstep
              refine ⟨⟨hm.items, ?_, ?_, hm.order, nofun, fun hpast => ?_, hm.stops⟩, rfl⟩
              · intro _
                simp only [List.count_cons_self, MemberPc.owes] at hbalance ⊢
                omega
              · intro _
                simpa using hquit
              · cases hm.past hpast
          | other =>
              cases hstep
              refine ⟨⟨hm.items, ?_, ?_, hm.order, nofun, hm.past, hm.stops⟩, rfl⟩
              · intro _
                simpa using hbalance
              · intro _
                simpa using hquit
          | quit =>
              cases hstep
              have hjoining : supervisor = .joining i := by
                by_contra hother
                simp [hother] at hquit
              have hrest : Token.item ∉ rest := fun hmem => hm.order (List.mem_cons_of_mem _ hmem)
              have hempty : queue = [] := by
                have hnone : rest.count .item = 0 := List.count_eq_zero.mpr hrest
                simpa [hjoining, SupervisorPc.owes, MemberPc.owes, hnone] using hbalance
              refine ⟨⟨hm.items, fun h => absurd rfl h, fun h => absurd rfl h, ?_,
                fun _ => ⟨Or.inr hjoining, hempty⟩, fun _ => rfl, ?_⟩, rfl⟩
              · exact fun hmem => hrest ((List.dropWhile_suffix _).subset hmem)
              · simp [hstops]
  | notified =>
      have hthere : MemberPc.notified ≠ .gone := by decide
      have hbalance := hm.balance hthere
      cases queue with
      | nil =>
          simp only [List.length_nil, MemberPc.owes] at hbalance
          omega
      | cons a rest =>
          cases hstep
          refine ⟨⟨?_, ?_, fun _ => hm.quit hthere, hm.order, nofun, fun hpast => ?_, hm.stops⟩, rfl⟩
          · rw [hm.items, List.append_assoc]
            rfl
          · intro _
            simp only [List.length_cons, MemberPc.owes] at hbalance ⊢
            omega
          · cases hm.past hpast

end Member.Sound

namespace Pool

variable {α : Type u} {size capacity i : ℕ} {x y : Pool α} {action : PoolAction α}

/-- What was handed to worker `i`, in order. -/
def given (x : Pool α) (i : ℕ) : List α := (x.assigned.filter (·.1 = i)).map Prod.snd

/-- The supervisor is busy with one of its workers. -/
def InRange (size : ℕ) : SupervisorPc → Prop
  | .running | .stopped => True
  | .pushed i | .stopping i | .joining i => i < size

structure Sound (size : ℕ) (x : Pool α) : Prop where
  member : ∀ i < size, (x.member i).Sound x.supervisor i (x.given i)
  inRange : InRange size x.supervisor
  stops : x.stops = if x.supervisor.isOpen then 0 else 1
  misses : x.misses = 0
  strayWrites : x.strayWrites = 0

theorem sound_start (size : ℕ) : Sound size ({} : Pool α) where
  member _ _ :=
    { items := rfl
      balance := fun _ => rfl
      quit := fun _ => rfl
      order := List.not_mem_nil
      gone := nofun
      past := False.elim
      stops := rfl }
  inRange := trivial
  stops := rfl
  misses := rfl
  strayWrites := rfl

/-- One worker changes, and the supervisor with it. -/
theorem Sound.member_update {next : SupervisorPc} {m : Member α} {given : ℕ → List α}
    (hself : m.Sound next i (given i))
    (hothers : ∀ j < size, j ≠ i → (x.member j).Sound next j (given j)) :
    ∀ j < size, (Function.update x.member i m j).Sound next j (given j) := by
  intro j hj
  rcases eq_or_ne j i with rfl | hne
  · rwa [Function.update_self]
  · rw [Function.update_of_ne hne]
    exact hothers j hj hne

/-- A worker for which the supervisor does not wait, while it is not past it. -/
theorem Sound.there (hx : Sound size x) (hi : i < size) (hpast : ¬ x.supervisor.Past i)
    (hjoining : x.supervisor ≠ .joining i) : (x.member i).pc ≠ .gone :=
  (hx.member i hi).not_gone hpast hjoining

theorem Sound.assign (hx : Sound size x) (hi : i < size) (hrunning : x.supervisor = .running)
    (a : α) : Sound size (x.assign i a) := by
  have hmember (j : ℕ) (hj : j < size) := hrunning ▸ hx.member j hj
  have hself : (x.assign i a).given i = x.given i ++ [a] := by simp [given, Pool.assign]
  have hother (j : ℕ) (hne : j ≠ i) : (x.assign i a).given j = x.given j := by
    simp [given, Pool.assign, hne.symm, set]
  refine ⟨?_, hi, ?_, hx.misses, hx.strayWrites⟩
  · apply Sound.member_update
    · rw [hself]
      exact (hmember i hi).assign a
    · intro j hj hne
      rw [hother j hne]
      refine (hmember j hj).move (.pushed i) ?_ (by simp) ?_ False.elim
      · exact if_neg hne.symm
      · intro hgone
        exact absurd hgone ((hmember j hj).not_gone id (by simp))
  · change x.stops = 0
    rw [hx.stops, hrunning]
    rfl

theorem Sound.announce (hx : Sound size x) (hpushed : x.supervisor = .pushed i) :
    Sound size (x.announce i) := by
  have hi : i < size := by
    have hrange := hx.inRange
    rwa [hpushed] at hrange
  have hmember (j : ℕ) (hj : j < size) := hpushed ▸ hx.member j hj
  have hthere : (x.member i).pc ≠ .gone := (hmember i hi).not_gone id (by simp)
  refine ⟨?_, trivial, ?_, hx.misses, ?_⟩
  · apply Sound.member_update
    · exact (hmember i hi).announce
    · intro j hj hne
      refine (hmember j hj).move .running ?_ (by simp) ?_ False.elim
      · exact (if_neg hne.symm).symm
      · intro hgone
        exact absurd hgone ((hmember j hj).not_gone id (by simp))
  · change x.stops = 0
    rw [hx.stops, hpushed]
    rfl
  · change x.strayWrites + (if (x.member i).pc = .gone then 1 else 0) = 0
    rw [if_neg hthere, hx.strayWrites]

theorem Sound.dismiss (hx : Sound size x) (hstopping : x.supervisor = .stopping i) :
    Sound size (x.dismiss i) := by
  have hi : i < size := by
    have hrange := hx.inRange
    rwa [hstopping] at hrange
  have hmember (j : ℕ) (hj : j < size) := hstopping ▸ hx.member j hj
  have hthere : (x.member i).pc ≠ .gone := (hmember i hi).not_gone (lt_irrefl i) (by simp)
  refine ⟨?_, hi, ?_, hx.misses, ?_⟩
  · apply Sound.member_update
    · exact (hmember i hi).dismiss
    · intro j hj hne
      refine (hmember j hj).move (.joining i) rfl (by simp [hne.symm]) ?_ (hmember j hj).past
      intro hgone
      rcases ((hmember j hj).gone hgone).1 with hpast | hjoining
      · exact Or.inl hpast
      · cases hjoining
  · change x.stops = 1
    rw [hx.stops, hstopping]
    rfl
  · change x.strayWrites + (if (x.member i).pc = .gone then 1 else 0) = 0
    rw [if_neg hthere, hx.strayWrites]

theorem past_stopFrom {j k : ℕ} (hj : j < size) : (stopFrom size k).Past j ↔ j < k := by
  rw [stopFrom]
  split
  · rfl
  · exact iff_of_true trivial (by omega)

theorem stopFrom_ne_joining (size j k : ℕ) : stopFrom size k ≠ .joining j := by
  rw [stopFrom]
  split <;> simp

theorem owes_stopFrom (size j k : ℕ) : (stopFrom size k).owes j = 0 := by
  rw [stopFrom]
  split <;> rfl

theorem inRange_stopFrom (size k : ℕ) : InRange size (stopFrom size k) := by
  rw [stopFrom]
  split
  · assumption
  · trivial

theorem isOpen_stopFrom (size k : ℕ) : (stopFrom size k).isOpen = false := by
  rw [stopFrom]
  split <;> rfl

theorem Sound.beginStop (hx : Sound size x) (hrunning : x.supervisor = .running)
    (rest : List Token) : Sound size (Pool.beginStop size { x with requests := rest }) := by
  have hmember (j : ℕ) (hj : j < size) := hrunning ▸ hx.member j hj
  refine ⟨?_, inRange_stopFrom size 0, ?_, hx.misses, hx.strayWrites⟩
  · intro j hj
    have hthere : (x.member j).pc ≠ .gone := (hmember j hj).not_gone id (by simp)
    refine (hmember j hj).move _ (owes_stopFrom size j 0) ?_ (fun hgone => absurd hgone hthere) ?_
    · intro _
      exact iff_of_false (stopFrom_ne_joining size j 0) (by simp)
    · intro hpast
      exact absurd ((past_stopFrom hj).mp hpast) (Nat.not_lt_zero j)
  · change x.stops + 1 = if (Pool.stopFrom size 0).isOpen then 0 else 1
    rw [isOpen_stopFrom, hx.stops, hrunning]
    rfl

theorem Sound.goOn (hx : Sound size x) (hjoining : x.supervisor = .joining i)
    (hgone : (x.member i).pc = .gone) :
    Sound size { x with supervisor := Pool.stopFrom size (i + 1) } := by
  have hmember (j : ℕ) (hj : j < size) := hjoining ▸ hx.member j hj
  refine ⟨?_, inRange_stopFrom size _, ?_, hx.misses, hx.strayWrites⟩
  · intro j hj
    refine (hmember j hj).move _ (owes_stopFrom size j _) ?_ ?_ ?_
    · intro hthere
      refine iff_of_false (stopFrom_ne_joining size j _) ?_
      intro hsame
      cases hsame
      exact hthere hgone
    · intro hgone
      left
      rw [past_stopFrom hj]
      rcases ((hmember j hj).gone hgone).1 with hpast | hsame
      · exact Nat.lt_succ_of_lt hpast
      · cases hsame
        exact Nat.lt_succ_self i
    · intro hpast
      rw [past_stopFrom hj] at hpast
      rcases Nat.lt_succ_iff_lt_or_eq.mp hpast with hlt | rfl
      · exact (hmember j hj).past hlt
      · exact hgone
  · change x.stops = if (Pool.stopFrom size (i + 1)).isOpen then 0 else 1
    rw [isOpen_stopFrom, hx.stops, hjoining]
    rfl

theorem Sound.set (hx : Sound size x) {m : Member α} (hm : m.Sound x.supervisor i (x.given i)) :
    Sound size (x.set i m) :=
  ⟨Sound.member_update hm fun j hj _ => hx.member j hj, hx.inRange, hx.stops, hx.misses,
    hx.strayWrites⟩

theorem Sound.advance (hx : Sound size x) (hi : i < size) {m : Member α} {missed : Bool}
    (hstep : (x.member i).step = some (m, missed)) : Sound size (x.advance i m missed) := by
  obtain ⟨hm, rfl⟩ := (hx.member i hi).step hstep
  exact hx.set hm

theorem Sound.supervisorStep (hx : Sound size x)
    (hstep : x.supervisorStep size capacity = some y) : Sound size y := by
  unfold Pool.supervisorStep at hstep
  split at hstep
  next hrunning =>
    split at hstep
    next => cases hstep
    next rest _ =>
      cases hstep
      exact hx.beginStop hrunning rest
    next =>
      cases hstep
      exact ⟨hx.member, hx.inRange, hx.stops, hx.misses, hx.strayWrites⟩
    next =>
      cases hstep
      exact ⟨hx.member, hx.inRange, hx.stops, hx.misses, hx.strayWrites⟩
  next hpushed =>
    simp only [Option.ite_none_right_eq_some, Option.some.injEq] at hstep
    obtain ⟨-, rfl⟩ := hstep
    exact hx.announce hpushed
  next hstopping =>
    simp only [Option.ite_none_right_eq_some, Option.some.injEq] at hstep
    obtain ⟨-, rfl⟩ := hstep
    exact hx.dismiss hstopping
  next hjoining =>
    simp only [Option.ite_none_right_eq_some, Option.some.injEq] at hstep
    obtain ⟨hgone, rfl⟩ := hstep
    exact hx.goOn hjoining hgone
  next => cases hstep

theorem Sound.step (hx : Sound size x) (hstep : step size capacity x action = some y) :
    Sound size y := by
  cases action with
  | request token =>
      simp only [Pool.step] at hstep
      split at hstep
      · simp only [Option.ite_none_right_eq_some, Option.some.injEq] at hstep
        obtain ⟨-, rfl⟩ := hstep
        exact ⟨hx.member, hx.inRange, hx.stops, hx.misses, hx.strayWrites⟩
      · cases hstep
        exact hx
  | assign i a =>
      simp only [Pool.step, Option.ite_none_right_eq_some, Option.some.injEq] at hstep
      obtain ⟨⟨hi, hrunning⟩, rfl⟩ := hstep
      exact hx.assign hi hrunning a
  | tell i =>
      simp only [Pool.step, Option.ite_none_right_eq_some, Option.some.injEq] at hstep
      obtain ⟨⟨hi, -⟩, rfl⟩ := hstep
      exact hx.set (hx.member i hi).tell
  | supervisor => exact hx.supervisorStep hstep
  | member i =>
      simp only [Pool.step, Option.ite_none_right_eq_some, Option.map_eq_some_iff] at hstep
      obtain ⟨hi, ⟨m, missed⟩, hmember, rfl⟩ := hstep
      exact hx.advance hi hmember

theorem sound_run {actions : List (PoolAction α)}
    (hrun : run (Pool.step size capacity) {} actions = some x) : Sound size x :=
  run_preserves (Sound size) (fun hx hstep => hx.step hstep) (sound_start size) hrun

/-! ## What is still to be done -/

end Pool

/-- A token is one step, and the pop behind it another one. -/
def Token.work : Token → ℕ
  | .item => 2
  | .other | .quit => 1

def MemberPc.work : MemberPc → ℕ
  | .notified => 1
  | .idle | .gone => 0

def Member.work {α : Type u} (m : Member α) : ℕ :=
  if m.pc = .gone then 0 else m.pc.work + (m.pipe.map Token.work).sum

/-- Three steps for every worker that is not gone: the last token, its reading, and
the waiting. -/
def SupervisorPc.work (size : ℕ) : SupervisorPc → ℕ
  | .running => 3 * size
  | .pushed _ => 3 * size + 3
  | .stopping i => 3 * (size - i)
  | .joining i => 3 * (size - (i + 1)) + 1
  | .stopped => 0

namespace PoolAction

variable {α : Type u}

/-- A step of one of the threads. -/
def Internal : PoolAction α → Prop
  | .supervisor | .member _ => True
  | .request _ | .assign _ _ | .tell _ => False

def steps : PoolAction α → ℕ
  | .supervisor | .member _ => 1
  | .request _ | .assign _ _ | .tell _ => 0

/-- The steps that an event may cause. -/
def allowance : PoolAction α → ℕ
  | .assign _ _ => 3
  | .request _ | .tell _ => 1
  | .supervisor | .member _ => 0

end PoolAction

namespace Pool

variable {α : Type u} {size capacity i : ℕ} {x y : Pool α} {action : PoolAction α}

def work (size : ℕ) (x : Pool α) : ℕ :=
  x.supervisor.work size + x.requests.length + ∑ i ∈ range size, (x.member i).work

/-- A stop has been asked for, or is under way. -/
def StopAsked (x : Pool α) : Prop := Token.quit ∈ x.requests ∨ x.supervisor.isOpen = false

/-- A stop that was asked for stays asked for. -/
theorem StopAsked.step (hasked : x.StopAsked)
    (hstep : Pool.step size capacity x action = some y) : y.StopAsked := by
  cases action with
  | request token =>
      simp only [Pool.step] at hstep
      split at hstep
      · simp only [Option.ite_none_right_eq_some, Option.some.injEq] at hstep
        obtain ⟨-, rfl⟩ := hstep
        exact hasked.imp_left fun hquit => List.mem_append_left _ hquit
      · cases hstep
        exact hasked
  | assign i a =>
      simp only [Pool.step, Option.ite_none_right_eq_some, Option.some.injEq] at hstep
      obtain ⟨⟨-, hrunning⟩, rfl⟩ := hstep
      rw [StopAsked, hrunning] at hasked
      exact hasked.imp_right nofun
  | tell i =>
      simp only [Pool.step, Option.ite_none_right_eq_some, Option.some.injEq] at hstep
      obtain ⟨-, rfl⟩ := hstep
      exact hasked
  | member i =>
      simp only [Pool.step, Option.ite_none_right_eq_some, Option.map_eq_some_iff] at hstep
      obtain ⟨-, m, -, rfl⟩ := hstep
      exact hasked
  | supervisor =>
      simp only [Pool.step] at hstep
      unfold Pool.supervisorStep at hstep
      split at hstep
      next hrunning =>
        rw [StopAsked, hrunning] at hasked
        have hquit : Token.quit ∈ x.requests := hasked.resolve_right nofun
        split at hstep
        next => cases hstep
        next =>
          cases hstep
          exact Or.inr (isOpen_stopFrom size 0)
        all_goals
          next hrequests =>
            cases hstep
            rw [hrequests] at hquit
            exact Or.inl (List.mem_of_ne_of_mem (by simp) hquit)
      next hpushed =>
        simp only [Option.ite_none_right_eq_some, Option.some.injEq] at hstep
        obtain ⟨-, rfl⟩ := hstep
        rw [StopAsked, hpushed] at hasked
        exact hasked.imp_right nofun
      next =>
        simp only [Option.ite_none_right_eq_some, Option.some.injEq] at hstep
        obtain ⟨-, rfl⟩ := hstep
        exact Or.inr rfl
      next i hjoining =>
        simp only [Option.ite_none_right_eq_some, Option.some.injEq] at hstep
        obtain ⟨-, rfl⟩ := hstep
        exact Or.inr (isOpen_stopFrom size (i + 1))
      next => cases hstep

end Pool

end Xrtc.Machine
