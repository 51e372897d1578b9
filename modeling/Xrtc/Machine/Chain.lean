/-
# Singly linked chains in a heap

Nodes live at addresses, an address that holds nothing is free, and a freed
address may be used again. A chain is a run of nodes whose positions are
numbered: the node at one position points to the node at the next, the last one
to nothing, and no address occurs twice. Two operations are all that a queue
needs. A free address is linked behind the last node, and the first node is
released; positions never change. The order of positions is the order in which
the pointers lead from node to node.
-/

import Mathlib.Logic.Function.Basic
import Mathlib.Logic.Relation
import Mathlib.Order.Nat
import Mathlib.Data.Nat.Notation

namespace Xrtc.Machine

universe u

structure Node (α : Type u) where
  value : α
  next : Option ℕ

/-- The positions `lo` to `hi` are a chain; `addr` and `value` say where the nodes
are and what they hold. -/
structure Chain {α : Type u} (heap : ℕ → Option (Node α)) (addr : ℕ → ℕ) (value : ℕ → α)
    (lo hi : ℕ) : Prop where
  node : ∀ {k}, lo ≤ k → k ≤ hi →
    heap (addr k) = some { value := value k, next := if k < hi then some (addr (k + 1)) else none }
  injective : ∀ {i j}, lo ≤ i → i ≤ hi → lo ≤ j → j ≤ hi → addr i = addr j → i = j

/-- The node at `source` points to `target`. -/
def Points {α : Type u} (heap : ℕ → Option (Node α)) (source target : ℕ) : Prop :=
  ∃ node, heap source = some node ∧ node.next = some target

namespace Chain

variable {α : Type u} {heap : ℕ → Option (Node α)} {addr : ℕ → ℕ} {value : ℕ → α} {lo hi : ℕ}

/-- One node and nothing else. -/
theorem single (a : ℕ) (value : ℕ → α) :
    Chain (Function.update (fun _ => none) a (some { value := value 0, next := none }))
      (fun _ => a) value 0 0 where
  node {k} _ hle := by
    obtain rfl : k = 0 := by omega
    rw [Function.update_self, if_neg (lt_irrefl 0)]
  injective _ hi _ hj _ := by omega

theorem next_eq (hchain : Chain heap addr value lo hi) {k : ℕ} (hlo : lo ≤ k) (hlt : k < hi) :
    (heap (addr k)).bind Node.next = some (addr (k + 1)) := by
  rw [hchain.node hlo hlt.le, if_pos hlt, Option.bind_some]

theorem last_eq (hchain : Chain heap addr value lo hi) (hle : lo ≤ hi) :
    heap (addr hi) = some { value := value hi, next := none } := by
  rw [hchain.node hle le_rfl, if_neg (lt_irrefl hi)]

/-- Two live positions have the same address only if they are the same. -/
theorem addr_eq_iff (hchain : Chain heap addr value lo hi) {i j : ℕ} (hi₁ : lo ≤ i) (hi₂ : i ≤ hi)
    (hj₁ : lo ≤ j) (hj₂ : j ≤ hi) : addr i = addr j ↔ i = j := by
  constructor
  · exact hchain.injective hi₁ hi₂ hj₁ hj₂
  · rintro rfl
    rfl

/-- Link a new node at the free address `a` behind the last one. -/
theorem link (hchain : Chain heap addr value lo hi) (hle : lo ≤ hi) {a : ℕ} (hfree : heap a = none)
    {value' : ℕ → α} (hvalue : ∀ k ≤ hi, value' k = value k) :
    Chain
      (Function.update (Function.update heap a (some { value := value' (hi + 1), next := none }))
        (addr hi) (some { value := value hi, next := some a }))
      (Function.update addr (hi + 1) a) value' lo (hi + 1) := by
  have hold {k : ℕ} (hk : k ≤ hi) : Function.update addr (hi + 1) a k = addr k :=
    Function.update_of_ne (by omega) _ _
  have hnew : Function.update addr (hi + 1) a (hi + 1) = a := Function.update_self _ _ _
  have hne {k : ℕ} (hlo : lo ≤ k) (hk : k ≤ hi) : addr k ≠ a := by
    rintro rfl
    rw [hchain.node hlo hk] at hfree
    cases hfree
  constructor
  · intro k hlo hk
    rcases lt_trichotomy k hi with hlt | rfl | hgt
    · -- a node before the last one keeps its pointer
      have haddr : addr k ≠ addr hi := by
        intro heq
        have hsame := hchain.injective hlo hlt.le hle le_rfl heq
        omega
      rw [hold hlt.le, Function.update_of_ne haddr, Function.update_of_ne (hne hlo hlt.le),
        hchain.node hlo hlt.le, if_pos hlt, if_pos (by omega), hold hlt, hvalue k hlt.le]
    · rw [hold le_rfl, Function.update_self, if_pos (Nat.lt_succ_self k), hnew, hvalue k le_rfl]
    · obtain rfl : k = hi + 1 := by omega
      rw [hnew, Function.update_of_ne (hne hle le_rfl).symm, Function.update_self,
        if_neg (lt_irrefl _)]
  · intro i j hi₁ hi₂ hj₁ hj₂ heq
    rcases Nat.lt_or_ge hi i with hgi | hli <;> rcases Nat.lt_or_ge hi j with hgj | hlj
    · omega
    · obtain rfl : i = hi + 1 := by omega
      rw [hnew, hold hlj] at heq
      exact absurd heq.symm (hne hj₁ hlj)
    · obtain rfl : j = hi + 1 := by omega
      rw [hnew, hold hli] at heq
      exact absurd heq (hne hi₁ hli)
    · rw [hold hli, hold hlj] at heq
      exact hchain.injective hi₁ hli hj₁ hlj heq

/-- Release the first node. -/
theorem release (hchain : Chain heap addr value lo hi) (hlt : lo < hi) :
    Chain (Function.update heap (addr lo) none) addr value (lo + 1) hi where
  node := by
    intro k hlo hk
    have hne : addr k ≠ addr lo := by
      intro heq
      have hsame := hchain.injective (by omega) hk le_rfl hlt.le heq
      omega
    rw [Function.update_of_ne hne, hchain.node (by omega) hk]
  injective := by
    intro i j hi₁ hi₂ hj₁ hj₂ heq
    exact hchain.injective (by omega) hi₂ (by omega) hj₂ heq

/-! ## The order of positions -/

/-- An earlier node leads to a later one. -/
theorem precedes (hchain : Chain heap addr value lo hi) {i j : ℕ} (hlo : lo ≤ i) (hlt : i < j)
    (hj : j ≤ hi) : Relation.TransGen (Points heap) (addr i) (addr j) := by
  induction j, hlt using Nat.le_induction with
  | base =>
      apply Relation.TransGen.single
      exact ⟨_, hchain.node hlo (by omega), if_pos (by omega)⟩
  | succ j hij ih =>
      apply Relation.TransGen.tail (ih (by omega))
      exact ⟨_, hchain.node (by omega) (by omega), if_pos (by omega)⟩

/-- From a node the pointers lead only to later ones. -/
theorem later_of_precedes (hchain : Chain heap addr value lo hi) {i b : ℕ} (hlo : lo ≤ i)
    (hle : i ≤ hi) (hprecedes : Relation.TransGen (Points heap) (addr i) b) :
    ∃ j, i < j ∧ j ≤ hi ∧ b = addr j := by
  have hpoints {k c : ℕ} (hk : lo ≤ k) (hkhi : k ≤ hi) (hpoint : Points heap (addr k) c) :
      k < hi ∧ c = addr (k + 1) := by
    obtain ⟨node, hnode, hnext⟩ := hpoint
    rw [hchain.node hk hkhi, Option.some.injEq] at hnode
    subst hnode
    simp only [Option.ite_none_right_eq_some, Option.some.injEq] at hnext
    exact ⟨hnext.1, hnext.2.symm⟩
  induction hprecedes with
  | single hpoint =>
      obtain ⟨hlt, rfl⟩ := hpoints hlo hle hpoint
      exact ⟨i + 1, by omega, by omega, rfl⟩
  | tail _ hpoint ih =>
      obtain ⟨j, hij, hj, rfl⟩ := ih
      obtain ⟨hlt, rfl⟩ := hpoints (by omega) hj hpoint
      exact ⟨j + 1, by omega, by omega, rfl⟩

/-- A later node does not lead back to an earlier one. -/
theorem not_precedes (hchain : Chain heap addr value lo hi) {i j : ℕ} (hlo : lo ≤ i) (hij : i ≤ j)
    (hj : j ≤ hi) : ¬ Relation.TransGen (Points heap) (addr j) (addr i) := by
  intro hprecedes
  obtain ⟨k, hjk, hk, heq⟩ := hchain.later_of_precedes (by omega) hj hprecedes
  have hsame := hchain.injective hlo (by omega) (by omega) hk heq
  omega

end Chain

end Xrtc.Machine
