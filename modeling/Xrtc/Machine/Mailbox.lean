/-
# A queue behind a pipe

A mailbox is a queue whose receiver is woken through a pipe. A sender pushes an
item and then writes a token; the receiver reads one token and then pops one
item. Between the two halves a sender owes a token and a receiver owes a pop.
The balance law says that a queue holds exactly as many items as there are
tokens in the pipe, senders that owe one and receivers that have taken one. It
is kept by every half step, and it is why a token never finds an empty queue.
Tokens of other kinds may share the pipe.
-/

import Mathlib.Algebra.BigOperators.Pi
import Mathlib.Algebra.Order.BigOperators.Group.Finset

namespace Xrtc.Machine

universe u

/-- A token: for an item of the queue, or of another kind. -/
inductive Notice
  | item
  | other
  deriving DecidableEq

structure Mailbox (α : Type u) where
  queue : List α := []
  pipe : List Notice := []
  deriving DecidableEq

namespace Mailbox

variable {α : Type u} {m : Mailbox α} {item : α} {rest : List α} {notices : List Notice}
  {owed taken : ℕ}

def push (m : Mailbox α) (item : α) : Mailbox α := { m with queue := m.queue ++ [item] }

def notify (m : Mailbox α) (notice : Notice) : Mailbox α :=
  { m with pipe := m.pipe ++ [notice] }

/-- The tokens in the pipe that stand for an item. -/
def tokens (m : Mailbox α) : ℕ := m.pipe.count .item

/-- The balance of a mailbox to which `owed` tokens are still to be written and
from which `taken` items are still to be popped. -/
def Balanced (m : Mailbox α) (owed taken : ℕ) : Prop :=
  m.queue.length = m.tokens + owed + taken

theorem balanced_empty : ({} : Mailbox α).Balanced 0 0 := rfl

theorem Balanced.push (hbalanced : m.Balanced owed taken) (item : α) :
    (m.push item).Balanced (owed + 1) taken := by
  rw [Balanced, Mailbox.push, List.length_append, List.length_singleton, hbalanced]
  exact Nat.add_right_comm _ _ _

theorem Balanced.notify (hbalanced : m.Balanced (owed + 1) taken) :
    (m.notify .item).Balanced owed taken := by
  rw [Balanced] at hbalanced ⊢
  simp only [Mailbox.notify, tokens, List.count_append, List.count_singleton_self] at hbalanced ⊢
  omega

theorem Balanced.notify_other (hbalanced : m.Balanced owed taken) :
    (m.notify .other).Balanced owed taken := by
  rw [Balanced] at hbalanced ⊢
  simpa [Mailbox.notify, tokens] using hbalanced

theorem Balanced.read (hbalanced : m.Balanced owed taken) (hpipe : m.pipe = .item :: notices) :
    Balanced { m with pipe := notices } owed (taken + 1) := by
  rw [Balanced, tokens, hpipe, List.count_cons_self] at hbalanced
  rw [Balanced]
  simp only [tokens]
  omega

theorem Balanced.read_other (hbalanced : m.Balanced owed taken)
    (hpipe : m.pipe = .other :: notices) :
    Balanced { m with pipe := notices } owed taken := by
  rw [Balanced, tokens, hpipe, List.count_cons_of_ne (by decide)] at hbalanced
  exact hbalanced

/-- **A token finds an item.** -/
theorem Balanced.ne_nil (hbalanced : m.Balanced owed (taken + 1)) : m.queue ≠ [] := by
  intro hnil
  rw [Balanced, hnil, List.length_nil] at hbalanced
  omega

theorem Balanced.pop (hbalanced : m.Balanced owed (taken + 1)) (hqueue : m.queue = item :: rest) :
    Balanced { m with queue := rest } owed taken := by
  rw [Balanced, hqueue, List.length_cons] at hbalanced
  rw [Balanced]
  simp only [tokens] at hbalanced ⊢
  omega

/-- The steps that a receiver has still to take: one for a token, another one for the
pop behind it, and `perItem` for every item. -/
def potential (perItem : ℕ) (m : Mailbox α) : ℕ :=
  perItem * m.queue.length + 2 * m.pipe.count .item + m.pipe.count .other

/-- **Nothing is left behind.** With no token and nobody in between, the queue
is empty. -/
theorem Balanced.eq_nil (hbalanced : m.Balanced 0 0) (hpipe : m.pipe = []) : m.queue = [] := by
  rw [Balanced, tokens, hpipe] at hbalanced
  exact List.length_eq_zero_iff.mp hbalanced

end Mailbox

/-! ## Counting threads -/

/-- When one of finitely many threads moves on, a count over all of them changes
by what that thread contributes. -/
theorem sum_update {State : Type u} {threads : Finset ℕ} {i : ℕ} (hi : i ∈ threads)
    (f : State → ℕ) (pc : ℕ → State) (next : State) :
    ∑ j ∈ threads, f (Function.update pc i next j) + f (pc i) =
      ∑ j ∈ threads, f (pc j) + f next := by
  have hsum (state : State) : ∑ j ∈ threads, f (Function.update pc i state j) =
      f state + ∑ j ∈ threads \ {i}, f (pc j) := by
    have hcomp := Finset.sum_update_of_mem hi (f ∘ pc) (f state)
    rwa [← Function.comp_update] at hcomp
  have hbefore := hsum (pc i)
  rw [Function.update_eq_self] at hbefore
  rw [hsum next, hbefore]
  omega

/-- A thread that starts to owe a token adds one to the count. -/
theorem sum_update_enter {State : Type u} {threads : Finset ℕ} {i : ℕ} (hi : i ∈ threads)
    (f : State → ℕ) {pc : ℕ → State} {next : State} (hbefore : f (pc i) = 0)
    (hafter : f next = 1) :
    ∑ j ∈ threads, f (Function.update pc i next j) = ∑ j ∈ threads, f (pc j) + 1 := by
  have hsum := sum_update hi f pc next
  omega

/-- A thread that stops owing a token takes one from the count. -/
theorem sum_update_leave {State : Type u} {threads : Finset ℕ} {i : ℕ} (hi : i ∈ threads)
    (f : State → ℕ) {pc : ℕ → State} {next : State} (hbefore : f (pc i) = 1)
    (hafter : f next = 0) :
    ∑ j ∈ threads, f (Function.update pc i next j) + 1 = ∑ j ∈ threads, f (pc j) := by
  have hsum := sum_update hi f pc next
  omega

/-- A thread that moves on and contributes what it contributed before leaves the
count as it is. -/
theorem sum_update_of_eq {State : Type u} (threads : Finset ℕ) {i : ℕ} (f : State → ℕ)
    {pc : ℕ → State} {next : State} (heq : f next = f (pc i)) :
    ∑ j ∈ threads, f (Function.update pc i next j) = ∑ j ∈ threads, f (pc j) := by
  apply Finset.sum_congr rfl
  intro j _
  rcases eq_or_ne j i with rfl | hne
  · rw [Function.update_self, heq]
  · rw [Function.update_of_ne hne]

/-- What holds of every thread and its mailbox keeps holding when one of them
moves on, if it holds there. -/
theorem forall_update₂ {α β : Type u} {f : ℕ → α} {g : ℕ → β} {i : ℕ} {a : α} {b : β}
    (P : ℕ → α → β → Prop) (hall : ∀ j, P j (f j) (g j)) (hself : P i a b) (j : ℕ) :
    P j (Function.update f i a j) (Function.update g i b j) := by
  rcases eq_or_ne j i with rfl | hne
  · rwa [Function.update_self, Function.update_self]
  · rw [Function.update_of_ne hne, Function.update_of_ne hne]
    exact hall j

end Xrtc.Machine
