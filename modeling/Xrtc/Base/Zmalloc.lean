/-
# The counting allocator

`zmalloc` puts the requested size in front of every block and keeps a counter of the
memory in use. Sizes are padded to a multiple of `sizeof(long)` before they are counted,
with the prefix where a block is handed out or taken back, and without it on both sides
of a reallocation. The counter is a `size_t` and all its arithmetic wraps around.

The blocks are recorded here with the size in their prefix. Their addresses are chosen
by `malloc`, which never hands out a block that is in use; where it has no memory left
the process is aborted, so that a call which returns has its block.
-/

import Mathlib.Algebra.BigOperators.Group.List.Basic
import Mathlib.Data.List.Nodup
import Xrtc.Base.RtcMsg
import Xrtc.Machine.Run
import Xrtc.Machine.Word

namespace Xrtc.Base

open Xrtc.Machine

/-- `sizeof(size_t)`. -/
def PREFIX_SIZE : ℕ := 8

/-- A block, and the size in its prefix. -/
structure Block where
  ptr : Addr
  size : ℕ
  deriving DecidableEq

/-- The blocks in use and `used_memory`. -/
structure Zmalloc where
  blocks : List Block := []
  usedMemory : ℕ := 0
  deriving DecidableEq

/-- `_n`, rounded up to a multiple of `sizeof(long)`. -/
def padded (n : ℕ) : ℕ := if n % 8 ≠ 0 then toSize (n + (8 - n % 8)) else n

/-- `zmalloc_size`. -/
def zmallocSize (b : Block) : ℕ := toSize (padded b.size + PREFIX_SIZE)

namespace Zmalloc

/-- `update_zmalloc_stat_alloc`. -/
def updateStatAlloc (m : Zmalloc) (n : ℕ) : Zmalloc :=
  { m with usedMemory := toSize (m.usedMemory + padded n) }

/-- `update_zmalloc_stat_free`. -/
def updateStatFree (m : Zmalloc) (n : ℕ) : Zmalloc :=
  { m with usedMemory := toSize (m.usedMemory - padded n) }

/-- The block at an address, if there is one. -/
def blockAt (m : Zmalloc) (ptr : Addr) : Option Block := m.blocks.find? fun b => b.ptr = ptr

/-- A new block, its prefix and its share of the counter. -/
def allocate (m : Zmalloc) (size : ℕ) (ptr : Addr) : Zmalloc :=
  updateStatAlloc { m with blocks := ⟨ptr, size⟩ :: m.blocks } (toSize (size + PREFIX_SIZE))

def zmalloc (m : Zmalloc) (size : ℕ) (ptr : Addr) : Zmalloc := m.allocate size ptr

/-- `zcalloc` differs from `zmalloc` in what the block holds. -/
def zcalloc (m : Zmalloc) (size : ℕ) (ptr : Addr) : Zmalloc := m.allocate size ptr

/-- `zrealloc`; nothing where the old pointer leads to no block. -/
def zrealloc (m : Zmalloc) (old : Option Addr) (size : ℕ) (ptr : Addr) : Option Zmalloc :=
  match old with
  | none => some (m.zmalloc size ptr)
  | some old =>
      (m.blockAt old).map fun b =>
        ({ m with blocks := ⟨ptr, size⟩ :: m.blocks.erase b }.updateStatFree b.size).updateStatAlloc
          size

/-- `zfree`; nothing where the pointer leads to no block. -/
def zfree (m : Zmalloc) (ptr : Option Addr) : Option Zmalloc :=
  match ptr with
  | none => some m
  | some ptr =>
      (m.blockAt ptr).map fun b =>
        { m with blocks := m.blocks.erase b }.updateStatFree (toSize (b.size + PREFIX_SIZE))

/-- `zstrdup` of a string of that length. -/
def zstrdup (m : Zmalloc) (length : ℕ) (ptr : Addr) : Zmalloc := m.zmalloc (length + 1) ptr

/-- A call, with the address that `malloc` chooses for the block. -/
inductive Call
  | zmalloc (size : ℕ) (ptr : Addr)
  | zcalloc (size : ℕ) (ptr : Addr)
  | zrealloc (old : Option Addr) (size : ℕ) (ptr : Addr)
  | zfree (ptr : Option Addr)
  | zstrdup (length : ℕ) (ptr : Addr)
  deriving DecidableEq

def call (m : Zmalloc) : Call → Option Zmalloc
  | .zmalloc size ptr => some (m.zmalloc size ptr)
  | .zcalloc size ptr => some (m.zcalloc size ptr)
  | .zrealloc old size ptr => m.zrealloc old size ptr
  | .zfree ptr => m.zfree ptr
  | .zstrdup length ptr => some (m.zstrdup length ptr)

/-- A new block lies where there is none. A block that grows may stay in its place. -/
def Enabled (m : Zmalloc) : Call → Prop
  | .zmalloc _ ptr | .zcalloc _ ptr | .zstrdup _ ptr => m.blockAt ptr = none
  | .zrealloc old _ ptr => m.blockAt ptr = none ∨ old = some ptr
  | .zfree _ => True

instance (m : Zmalloc) : DecidablePred m.Enabled
  | .zmalloc _ ptr | .zcalloc _ ptr | .zstrdup _ ptr =>
      inferInstanceAs (Decidable (m.blockAt ptr = none))
  | .zrealloc old _ ptr => inferInstanceAs (Decidable (m.blockAt ptr = none ∨ old = some ptr))
  | .zfree _ => inferInstanceAs (Decidable True)

def step (m : Zmalloc) (c : Call) : Option Zmalloc := if m.Enabled c then m.call c else none

/-! ## The counter -/

/-- No two blocks share an address, and the counter says what they take. -/
structure Accounted (m : Zmalloc) : Prop where
  distinct : (m.blocks.map Block.ptr).Nodup
  usedMemory_eq : m.usedMemory = toSize ((m.blocks.map zmallocSize).sum : ℕ)

variable {m next : Zmalloc} {b : Block} {size : ℕ} {ptr : Addr}

/-- A size is counted alike with its prefix inside the padding and outside of it. -/
theorem padded_prefix (n : ℕ) :
    (padded (toSize (n + PREFIX_SIZE)) : ℤ) % 2 ^ 64 = (padded n + PREFIX_SIZE : ℤ) % 2 ^ 64 := by
  unfold padded PREFIX_SIZE toSize
  split <;> split <;> omega

theorem blockAt_eq_none : m.blockAt ptr = none ↔ ∀ b ∈ m.blocks, b.ptr ≠ ptr := by
  simp [blockAt, List.find?_eq_none]

theorem mem_of_blockAt (hat : m.blockAt ptr = some b) : b ∈ m.blocks ∧ b.ptr = ptr :=
  ⟨List.mem_of_find?_eq_some hat, by simpa using List.find?_some hat⟩

/-- A block is found at its address. -/
theorem Accounted.blockAt (hm : m.Accounted) (hb : b ∈ m.blocks) : m.blockAt b.ptr = some b := by
  cases hat : m.blockAt b.ptr with
  | none => exact absurd rfl (blockAt_eq_none.mp hat b hb)
  | some found =>
      obtain ⟨hfound, hptr⟩ := mem_of_blockAt hat
      rw [List.inj_on_of_nodup_map hm.distinct hfound hb hptr]

theorem sum_erase (hb : b ∈ m.blocks) :
    (m.blocks.map zmallocSize).sum =
      zmallocSize b + ((m.blocks.erase b).map zmallocSize).sum := by
  rw [((List.perm_cons_erase hb).map zmallocSize).sum_eq, List.map_cons, List.sum_cons]

theorem Accounted.allocate (hm : m.Accounted) (hfree : m.blockAt ptr = none) :
    (m.allocate size ptr).Accounted where
  distinct := by
    refine List.nodup_cons.mpr ⟨?_, hm.distinct⟩
    intro hmem
    obtain ⟨b, hb, hptr⟩ := List.mem_map.mp hmem
    exact blockAt_eq_none.mp hfree b hb hptr
  usedMemory_eq := by
    have hprefix := padded_prefix size
    change toSize (m.usedMemory + padded _) =
      toSize ((zmallocSize ⟨ptr, size⟩ + (m.blocks.map zmallocSize).sum : ℕ) : ℤ)
    rw [hm.usedMemory_eq]
    simp only [zmallocSize, toSize] at hprefix ⊢
    omega

theorem nodup_erase (hm : m.Accounted) : ((m.blocks.erase b).map Block.ptr).Nodup :=
  hm.distinct.sublist (List.erase_sublist.map _)

theorem Accounted.zfree {old : Option Addr} (hm : m.Accounted) (hfree : m.zfree old = some next) :
    next.Accounted := by
  cases old with
  | none =>
      cases hfree
      exact hm
  | some ptr =>
      obtain ⟨b, hat, rfl⟩ := Option.map_eq_some_iff.mp hfree
      refine ⟨nodup_erase hm, ?_⟩
      have hprefix := padded_prefix b.size
      have hsum := sum_erase (mem_of_blockAt hat).1
      change toSize (m.usedMemory - padded _) = toSize (((m.blocks.erase b).map zmallocSize).sum : ℕ)
      rw [hm.usedMemory_eq, hsum]
      simp only [zmallocSize, toSize] at hprefix ⊢
      omega

theorem Accounted.zrealloc {old : Option Addr} (hm : m.Accounted)
    (hfree : m.blockAt ptr = none ∨ old = some ptr)
    (hrealloc : m.zrealloc old size ptr = some next) : next.Accounted := by
  cases old with
  | none =>
      cases hrealloc
      exact hm.allocate (hfree.resolve_right (Option.some_ne_none ptr).symm)
  | some old =>
      obtain ⟨b, hat, rfl⟩ := Option.map_eq_some_iff.mp hrealloc
      obtain ⟨hb, hptr⟩ := mem_of_blockAt hat
      refine ⟨List.nodup_cons.mpr ⟨?_, nodup_erase hm⟩, ?_⟩
      · intro hmem
        obtain ⟨other, hother, hsame⟩ := List.mem_map.mp hmem
        obtain ⟨hne, hother⟩ := (hm.distinct.of_map _).mem_erase_iff.mp hother
        rcases hfree with hnone | hold
        · exact blockAt_eq_none.mp hnone other hother hsame
        · refine hne (List.inj_on_of_nodup_map hm.distinct hother hb ?_)
          rw [hsame, hptr, Option.some.inj hold]
      · have hsum := sum_erase hb
        change toSize ((toSize (m.usedMemory - padded _) : ℤ) + padded _) =
          toSize ((zmallocSize ⟨ptr, size⟩ + ((m.blocks.erase b).map zmallocSize).sum : ℕ) : ℤ)
        rw [hm.usedMemory_eq, hsum]
        simp only [zmallocSize, toSize, PREFIX_SIZE]
        omega

/-- **One call** keeps the counter right. -/
theorem Accounted.step {c : Call} (hm : m.Accounted) (hstep : m.step c = some next) :
    next.Accounted := by
  rw [Zmalloc.step] at hstep
  split at hstep
  swap
  · cases hstep
  rename_i henabled
  cases c with
  | zmalloc size ptr | zcalloc size ptr | zstrdup length ptr =>
      cases hstep
      exact hm.allocate henabled
  | zrealloc old size ptr => exact hm.zrealloc henabled hstep
  | zfree ptr => exact hm.zfree hstep

/-! ## Giving everything back -/

/-- A block that is in use can be freed. -/
theorem Accounted.exists_zfree (hm : m.Accounted) (hb : b ∈ m.blocks) :
    ∃ next, m.zfree (some b.ptr) = some next ∧ next.blocks = m.blocks.erase b := by
  have hfree : m.zfree (some b.ptr) = (m.blockAt b.ptr).map _ := rfl
  rw [hm.blockAt hb, Option.map_some] at hfree
  exact ⟨_, hfree, rfl⟩

/-- A block out of those in use is freed. -/
theorem Accounted.zfree_of_perm {rest : List Block} (hm : m.Accounted)
    (hperm : m.blocks.Perm (b :: rest)) :
    ∃ next, m.zfree (some b.ptr) = some next ∧ next.Accounted ∧ next.blocks.Perm rest := by
  obtain ⟨next, hfree, hnext⟩ := hm.exists_zfree (hperm.symm.subset List.mem_cons_self)
  refine ⟨next, hfree, hm.zfree hfree, ?_⟩
  have herase := hperm.erase b
  rwa [List.erase_cons_head, ← hnext] at herase

/-- A block out of those in use is reallocated. -/
theorem Accounted.zrealloc_of_perm {rest : List Block} (size : ℕ) (hm : m.Accounted)
    (hperm : m.blocks.Perm (b :: rest)) (hplace : m.blockAt ptr = none ∨ b.ptr = ptr) :
    ∃ next, m.zrealloc (some b.ptr) size ptr = some next ∧ next.Accounted ∧
      next.blocks.Perm (⟨ptr, size⟩ :: rest) := by
  have hrealloc : m.zrealloc (some b.ptr) size ptr = (m.blockAt b.ptr).map _ := rfl
  rw [hm.blockAt (hperm.symm.subset List.mem_cons_self), Option.map_some] at hrealloc
  refine ⟨_, hrealloc, hm.zrealloc (hplace.imp_right (congrArg some)) hrealloc, ?_⟩
  have herase := hperm.erase b
  rw [List.erase_cons_head] at herase
  exact herase.cons ⟨ptr, size⟩

end Zmalloc

end Xrtc.Base
