/-
# Things held by parties

A resource is accounted for when everything that is in use is held by exactly one of the
parties there are. The rules below say what becomes of the account when one party
exchanges what it holds, when a party enters and when one leaves; the others are not
looked at. What can be summed over the things can then be summed over the parties.
-/

import Mathlib.Algebra.BigOperators.Group.List.Basic
import Mathlib.Data.List.Nodup
import Mathlib.Data.List.Perm.Basic

namespace Xrtc.Machine

universe u v

variable {Party : Type u} {Thing : Type v}

/-- The things are those that the parties hold, each held once. -/
structure HeldBy (parties : List Party) (holds : Party → List Thing) (things : List Thing) :
    Prop where
  nodup : parties.Nodup
  perm : things.Perm (parties.flatMap holds)

namespace HeldBy

variable {parties : List Party} {holds holds' : Party → List Thing} {things things' : List Thing}
  {party : Party}

theorem empty (holds : Party → List Thing) : HeldBy [] holds [] := ⟨List.nodup_nil, .nil⟩

/-- A party enters, with what it holds. -/
theorem enter (h : HeldBy parties holds things) (hparty : party ∉ parties)
    (hothers : ∀ other ∈ parties, holds' other = holds other)
    (hthings : things'.Perm (holds' party ++ things)) :
    HeldBy (party :: parties) holds' things' := by
  refine ⟨List.nodup_cons.mpr ⟨hparty, h.nodup⟩, hthings.trans ?_⟩
  rw [List.flatMap_cons, List.flatMap_congr hothers]
  exact h.perm.append_left (holds' party)

/-- A sum over the things is a sum over the parties. -/
theorem sum_eq {M : Type} [AddCommMonoid M] (h : HeldBy parties holds things) (f : Thing → M) :
    (things.map f).sum = (parties.map fun party => ((holds party).map f).sum).sum := by
  rw [(h.perm.map f).sum_eq, List.map_flatMap, List.flatMap, List.sum_flatten, List.map_map]
  rfl

variable [DecidableEq Party]

/-- What one party holds, and what the others hold. -/
theorem split (h : HeldBy parties holds things) (hparty : party ∈ parties) :
    things.Perm (holds party ++ (parties.erase party).flatMap holds) :=
  h.perm.trans ((List.perm_cons_erase hparty).flatMap_right holds)

theorem flatMap_erase (h : HeldBy parties holds things)
    (hothers : ∀ other ∈ parties, other ≠ party → holds' other = holds other) :
    (parties.erase party).flatMap holds' = (parties.erase party).flatMap holds := by
  apply List.flatMap_congr
  intro other hother
  obtain ⟨hne, hmem⟩ := h.nodup.mem_erase_iff.mp hother
  exact hothers other hmem hne

/-- One party exchanges what it holds. -/
theorem exchange (h : HeldBy parties holds things) (hparty : party ∈ parties)
    (hothers : ∀ other ∈ parties, other ≠ party → holds' other = holds other)
    (hthings : things'.Perm (holds' party ++ (parties.erase party).flatMap holds)) :
    HeldBy parties holds' things' := by
  refine ⟨h.nodup, hthings.trans ?_⟩
  rw [← h.flatMap_erase hothers]
  exact ((List.perm_cons_erase hparty).flatMap_right holds').symm

/-- A party leaves, and takes nothing along. -/
theorem leave (h : HeldBy parties holds things)
    (hothers : ∀ other ∈ parties, other ≠ party → holds' other = holds other)
    (hthings : things'.Perm ((parties.erase party).flatMap holds)) :
    HeldBy (parties.erase party) holds' things' :=
  ⟨h.nodup.erase party, h.flatMap_erase hothers ▸ hthings⟩

end HeldBy

end Xrtc.Machine
