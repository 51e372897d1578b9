/-
# The queue between one producer and one consumer

The queue is a linked list with three pointers into it. The producer links a new
node behind `last`, moves `last`, counts, and frees what lies between `first` and
`divider`; the consumer copies the value behind `divider`, moves `divider`, and
counts. Every assignment is a step of its own, and the steps of the two threads
interleave in any way. An address that has been freed may be handed out again at
once.

The model records what was passed to `produce` and what `consume` returned, and
it records a fault where a freed node is read, written or freed again, or where a
null pointer is taken over.
-/

import Xrtc.Machine.Chain
import Xrtc.Machine.Run
import Xrtc.Machine.Word

namespace Xrtc.Base

open Xrtc.Machine

universe u

/-- Where the producer stands inside `produce`. -/
inductive ProducerPc
  | idle
  /-- `last->next` has been set. -/
  | linked
  /-- `last` has been moved. -/
  | published
  /-- At the condition of the loop. -/
  | scanning
  /-- Inside the loop. -/
  | entered
  /-- `temp` has been set. -/
  | holding (temp : ℕ)
  /-- `first` has been moved. -/
  | releasing (temp : ℕ)
  deriving DecidableEq

/-- Where the consumer stands inside `consume`. -/
inductive ConsumerPc (α : Type u)
  | idle
  /-- The queue is not empty. -/
  | ready
  /-- `*result` has been set. -/
  | copied (result : α)
  /-- `divider` has been moved. -/
  | moved (result : α)

structure LockFreeQueue (α : Type u) where
  heap : ℕ → Option (Node α)
  first : ℕ
  divider : ℕ
  last : ℕ
  size : ℤ := 0
  producerPc : ProducerPc := .idle
  consumerPc : ConsumerPc α := .idle
  produced : List α := []
  consumed : List α := []
  /-- How often `consume` has returned false. -/
  refusals : ℕ := 0
  fault : Bool := false

inductive QueueAction (α : Type u)
  /-- Call `produce`; `addr` is where the allocator puts the node. -/
  | produce (value : α) (addr : ℕ)
  /-- The next step of the producer. -/
  | producer
  /-- Call `consume`. -/
  | consume
  /-- The next step of the consumer. -/
  | consumer

namespace LockFreeQueue

variable {α : Type u}

/-- The constructor, with the address of the first node. -/
def create [Inhabited α] (addr : ℕ) : LockFreeQueue α where
  heap := Function.update (fun _ => none) addr (some { value := default, next := none })
  first := addr
  divider := addr
  last := addr

/-- The next pointer of the node at `addr`; nothing if there is none or no such node. -/
def follow (q : LockFreeQueue α) (addr : ℕ) : Option ℕ := (q.heap addr).bind Node.next

def faulty (q : LockFreeQueue α) : LockFreeQueue α := { q with fault := true }

/-- `last->next = new Node(t)`. -/
def link (q : LockFreeQueue α) (value : α) (addr : ℕ) : LockFreeQueue α :=
  match q.heap q.last with
  | none => q.faulty
  | some node =>
      { q with
        heap := Function.update
          (Function.update q.heap addr (some { value := value, next := none }))
          q.last (some { node with next := some addr })
        producerPc := .linked
        produced := q.produced ++ [value] }

/-- The next step of `produce`. -/
def producerStep (q : LockFreeQueue α) : Option (LockFreeQueue α) :=
  match q.producerPc with
  | .idle => none
  | .linked =>
      match q.follow q.last with
      | none => some q.faulty
      | some next => some { q with last := next, producerPc := .published }
  | .published => some { q with size := toInt32 (q.size + 1), producerPc := .scanning }
  | .scanning =>
      if q.divider ≠ q.first then
        some { q with producerPc := .entered }
      else
        some { q with producerPc := .idle }
  | .entered => some { q with producerPc := .holding q.first }
  | .holding temp =>
      match q.follow q.first with
      | none => some q.faulty
      | some next => some { q with first := next, producerPc := .releasing temp }
  | .releasing temp =>
      match q.heap temp with
      | none => some q.faulty
      | some _ =>
          some { q with heap := Function.update q.heap temp none, producerPc := .scanning }

/-- The next step of `consume` behind its condition. -/
def consumerStep (q : LockFreeQueue α) : Option (LockFreeQueue α) :=
  match q.consumerPc with
  | .idle => none
  | .ready =>
      match (q.follow q.divider).bind q.heap with
      | none => some q.faulty
      | some node => some { q with consumerPc := .copied node.value }
  | .copied result =>
      match q.follow q.divider with
      | none => some q.faulty
      | some next => some { q with divider := next, consumerPc := .moved result }
  | .moved result =>
      some
        { q with
          size := toInt32 (q.size - 1)
          consumerPc := .idle
          consumed := q.consumed ++ [result] }

/-- A call of `consume`, up to its condition. -/
def tryConsume (q : LockFreeQueue α) : LockFreeQueue α :=
  if q.divider ≠ q.last then
    { q with consumerPc := .ready }
  else
    { q with refusals := q.refusals + 1 }

def step (q : LockFreeQueue α) : QueueAction α → Option (LockFreeQueue α)
  | .produce value addr =>
      if q.producerPc = .idle ∧ (q.heap addr).isNone then some (q.link value addr) else none
  | .producer => q.producerStep
  | .consume =>
      match q.consumerPc with
      | .idle => some q.tryConsume
      | _ => none
  | .consumer => q.consumerStep

/-- Neither thread is inside an operation. -/
structure Quiet (q : LockFreeQueue α) : Prop where
  producer : q.producerPc = .idle
  consumer : q.consumerPc = .idle

end LockFreeQueue

/-! ## What holds between any two steps

The nodes are numbered in the order of their production, from the one that the
constructor makes. -/

/-- The nodes that have been linked and not published. -/
def ProducerPc.unpublished : ProducerPc → ℕ
  | .linked => 1
  | _ => 0

/-- The nodes that have been linked and not counted. -/
def ProducerPc.uncounted : ProducerPc → ℕ
  | .linked | .published => 1
  | _ => 0

/-- The node that the producer has found to lie before `divider`. -/
def ProducerPc.doomed : ProducerPc → ℕ
  | .entered | .holding _ | .releasing _ => 1
  | _ => 0

/-- The node that is no longer reached from `first` and not freed yet. -/
def ProducerPc.detached : ProducerPc → ℕ
  | .releasing _ => 1
  | _ => 0

def ProducerPc.temp : ProducerPc → Option ℕ
  | .holding temp | .releasing temp => some temp
  | _ => none

/-- The node that the consumer has found behind `divider`. -/
def ConsumerPc.reserved {α : Type u} : ConsumerPc α → ℕ
  | .ready | .copied _ => 1
  | _ => 0

/-- The node that `divider` has passed and that has not been returned yet. -/
def ConsumerPc.passed {α : Type u} : ConsumerPc α → ℕ
  | .moved _ => 1
  | _ => 0

def ConsumerPc.result {α : Type u} : ConsumerPc α → Option α
  | .copied result | .moved result => some result
  | _ => none

namespace LockFreeQueue

variable {α : Type u} [Inhabited α] {q next : LockFreeQueue α} {addr : ℕ → ℕ} {lo pub : ℕ}

/-- The value of the node at a position; the first node has none of its own. -/
def valueAt (produced : List α) (k : ℕ) : α := ((default :: produced)[k]?).getD default

/-- The position of `divider`. -/
def dividerAt (q : LockFreeQueue α) : ℕ := q.consumed.length + q.consumerPc.passed

/-- The shape of the list: the live nodes are those from position `lo` on, and
those up to `pub` are published. -/
structure Shape (q : LockFreeQueue α) (addr : ℕ → ℕ) (lo pub : ℕ) : Prop where
  fault : q.fault = false
  chain : Chain q.heap addr (valueAt q.produced) lo q.produced.length
  published : pub + q.producerPc.unpublished = q.produced.length
  first : q.first = addr (lo + q.producerPc.detached)
  divider : q.divider = addr q.dividerAt
  last : q.last = addr pub
  temp : ∀ temp, q.producerPc.temp = some temp → temp = addr lo
  doomed_le : lo + q.producerPc.doomed ≤ q.dividerAt
  reserved_le : q.dividerAt + q.consumerPc.reserved ≤ pub
  result : ∀ result, q.consumerPc.result = some result →
    result = valueAt q.produced (q.consumed.length + 1)
  consumed : q.consumed <+: q.produced
  size : q.size = toInt32 (q.produced.length - q.producerPc.uncounted - q.consumed.length)

theorem shape_create (a : ℕ) : Shape (create a : LockFreeQueue α) (fun _ => a) 0 0 where
  fault := rfl
  chain := Chain.single a (valueAt [])
  published := rfl
  first := rfl
  divider := rfl
  last := rfl
  temp _ htemp := by cases htemp
  doomed_le := le_rfl
  reserved_le := le_rfl
  result _ hresult := by cases hresult
  consumed := List.nil_prefix
  size := by
    have hzero : toInt32 0 = 0 := by decide
    exact hzero.symm

theorem valueAt_append (produced : List α) (value : α) {k : ℕ} (hk : k ≤ produced.length) :
    valueAt (produced ++ [value]) k = valueAt produced k := by
  rw [valueAt, valueAt, ← List.cons_append, List.getElem?_append_left]
  simpa using Nat.lt_succ_of_le hk

theorem valueAt_last (produced : List α) (value : α) :
    valueAt (produced ++ [value]) (produced.length + 1) = value := by
  simp [valueAt]

/-- The value behind the last one that was returned is the next to be returned. -/
theorem append_isPrefix {consumed produced : List α} (hconsumed : consumed <+: produced)
    (hlt : consumed.length < produced.length) :
    consumed ++ [valueAt produced (consumed.length + 1)] <+: produced := by
  obtain ⟨rest, rfl⟩ := hconsumed
  cases rest with
  | nil => simp at hlt
  | cons value rest =>
      have hvalue : valueAt (consumed ++ value :: rest) (consumed.length + 1) = value := by
        simp [valueAt]
      rw [hvalue]
      exact ⟨rest, by simp⟩

theorem Shape.lo_le (hq : Shape q addr lo pub) : lo ≤ q.produced.length := by
  have hdoomed := hq.doomed_le
  have hreserved := hq.reserved_le
  have hpublished := hq.published
  omega

/-- A value that the consumer holds comes from a published node. -/
theorem Shape.result_le {result : α} (hq : Shape q addr lo pub)
    (hresult : q.consumerPc.result = some result) : q.consumed.length + 1 ≤ pub := by
  have hreserved := hq.reserved_le
  rw [dividerAt] at hreserved
  cases hpc : q.consumerPc with
  | idle | ready =>
      rw [hpc] at hresult
      cases hresult
  | copied _ | moved _ =>
      rw [hpc] at hreserved
      exact hreserved

/-! ## The producer -/

/-- An idle producer has `last` at the last node. -/
theorem Shape.last_node (hq : Shape q addr lo pub) (hpc : q.producerPc = .idle) :
    q.last = addr q.produced.length ∧
      q.heap q.last = some { value := valueAt q.produced q.produced.length, next := none } := by
  have hpub := hq.published
  rw [hpc] at hpub
  replace hpub : pub = q.produced.length := hpub
  have hlast : q.last = addr q.produced.length := by rw [hq.last, hpub]
  refine ⟨hlast, ?_⟩
  rw [hlast]
  exact hq.chain.last_eq hq.lo_le

theorem Shape.link (hq : Shape q addr lo pub) (hpc : q.producerPc = .idle) {a : ℕ}
    (hfree : q.heap a = none) (value : α) :
    Shape (q.link value a) (Function.update addr (q.produced.length + 1) a) lo pub := by
  have hdoomed := hq.doomed_le
  have hreserved := hq.reserved_le
  have hpub := hq.published
  rw [hpc] at hpub hdoomed
  replace hpub : pub = q.produced.length := hpub
  replace hdoomed : lo ≤ q.dividerAt := hdoomed
  obtain ⟨hlast, hnode⟩ := hq.last_node hpc
  have hchain := hq.chain.link hq.lo_le hfree (fun k hk => valueAt_append q.produced value hk)
  rw [valueAt_last, ← hlast] at hchain
  have hold {k : ℕ} (hk : k ≤ pub) : addr k = Function.update addr (q.produced.length + 1) a k := by
    rw [Function.update_of_ne]
    omega
  rw [LockFreeQueue.link, hnode]
  exact
    { fault := hq.fault
      chain := by
        rw [List.length_append, List.length_singleton]
        exact hchain
      published := by
        rw [List.length_append, List.length_singleton, hpub]
        rfl
      first := by
        rw [← hold]
        · rw [hq.first, hpc]
          rfl
        · exact hdoomed.trans (Nat.le_of_add_right_le hreserved)
      divider := by
        rw [← hold]
        · exact hq.divider
        · exact Nat.le_of_add_right_le hreserved
      last := by
        rw [← hold le_rfl]
        exact hq.last
      temp := by rintro temp ⟨⟩
      doomed_le := hdoomed
      reserved_le := hreserved
      result := by
        intro result hresult
        rw [hq.result result hresult, valueAt_append]
        exact (hq.result_le hresult).trans hpub.le
      consumed := hq.consumed.trans (List.prefix_append _ _)
      size := by
        rw [hq.size, hpc, List.length_append, List.length_singleton]
        congr 1
        simp only [ProducerPc.uncounted]
        omega }

theorem Shape.publish (hq : Shape q addr lo pub) (hpc : q.producerPc = .linked) :
    q.follow q.last = some (addr (pub + 1)) ∧
      Shape { q with last := addr (pub + 1), producerPc := .published } addr lo (pub + 1) := by
  have hdoomed := hq.doomed_le
  have hreserved := hq.reserved_le
  have hpub := hq.published
  simp only [hpc, ProducerPc.unpublished] at hpub
  constructor
  · rw [follow, hq.last]
    exact hq.chain.next_eq (by omega) (by omega)
  · rcases q
    dsimp only at hpc
    subst hpc
    exact { hq with
      published := hpub
      last := rfl
      reserved_le := hreserved.trans (Nat.le_succ pub) }

theorem Shape.count (hq : Shape q addr lo pub) (hpc : q.producerPc = .published) :
    Shape { q with size := toInt32 (q.size + 1), producerPc := .scanning } addr lo pub := by
  have hsize := hq.size
  rcases q
  dsimp only at hpc
  subst hpc
  exact { hq with
    size := by
      dsimp only at hsize ⊢
      rw [hsize, toInt32_add_left]
      congr 1
      simp only [ProducerPc.uncounted]
      omega }

theorem Shape.scan (hq : Shape q addr lo pub) (hpc : q.producerPc = .scanning) :
    (q.divider ≠ q.first → Shape { q with producerPc := .entered } addr lo pub) ∧
      Shape { q with producerPc := .idle } addr lo pub := by
  have hlt (hne : q.divider ≠ q.first) : lo < q.dividerAt := by
    have hdoomed := hq.doomed_le
    rw [hq.divider, hq.first, hpc] at hne
    rw [hpc] at hdoomed
    apply lt_of_le_of_ne hdoomed
    rintro rfl
    exact hne rfl
  rcases q
  dsimp only at hpc
  subst hpc
  exact ⟨fun hne => { hq with doomed_le := hlt hne }, { hq with }⟩

theorem Shape.hold (hq : Shape q addr lo pub) (hpc : q.producerPc = .entered) :
    Shape { q with producerPc := .holding q.first } addr lo pub := by
  have hfirst := hq.first
  rcases q
  dsimp only at hpc hfirst
  subst hpc
  exact { hq with
    temp := by
      rintro temp ⟨⟩
      exact hfirst }

theorem Shape.detach {temp : ℕ} (hq : Shape q addr lo pub) (hpc : q.producerPc = .holding temp) :
    q.follow q.first = some (addr (lo + 1)) ∧
      Shape { q with first := addr (lo + 1), producerPc := .releasing temp } addr lo pub := by
  have hdoomed := hq.doomed_le
  have hreserved := hq.reserved_le
  have hpub := hq.published
  rw [hpc] at hdoomed
  constructor
  · rw [follow, hq.first, hpc]
    apply hq.chain.next_eq le_rfl
    exact Nat.lt_of_lt_of_le (Nat.lt_of_succ_le hdoomed) (by omega)
  · rcases q
    dsimp only at hpc
    subst hpc
    exact { hq with first := rfl }

/-- The node that is about to be freed is the first of the live ones, and `divider`
is behind it. -/
theorem Shape.lt_dividerAt {temp : ℕ} (hq : Shape q addr lo pub)
    (hpc : q.producerPc = .releasing temp) :
    temp = addr lo ∧ lo < q.dividerAt ∧ q.dividerAt ≤ q.produced.length := by
  have hdoomed := hq.doomed_le
  have hreserved := hq.reserved_le
  have hpub := hq.published
  rw [hpc] at hdoomed
  refine ⟨hq.temp temp (by rw [hpc]; rfl), hdoomed, by omega⟩

theorem Shape.release {temp : ℕ} (hq : Shape q addr lo pub)
    (hpc : q.producerPc = .releasing temp) :
    (q.heap temp).isSome ∧
      Shape { q with heap := Function.update q.heap temp none, producerPc := .scanning } addr
        (lo + 1) pub := by
  obtain ⟨rfl, hlt, hle⟩ := hq.lt_dividerAt hpc
  constructor
  · rw [hq.chain.node le_rfl (by omega)]
    rfl
  · have hchain := hq.chain.release (by omega)
    rcases q
    dsimp only at hpc hchain
    subst hpc
    exact { hq with
      chain := hchain
      temp := by
        rintro temp ⟨⟩
      doomed_le := hlt }

/-! ## The consumer -/

theorem Shape.tryConsume (hq : Shape q addr lo pub) (hpc : q.consumerPc = .idle) :
    Shape q.tryConsume addr lo pub := by
  have hreserved := hq.reserved_le
  rw [LockFreeQueue.tryConsume]
  split_ifs with hne
  · have hlt : q.dividerAt < pub := by
      rw [hq.divider, hq.last] at hne
      rw [hpc] at hreserved
      apply lt_of_le_of_ne hreserved
      intro heq
      exact hne (congrArg addr heq)
    rcases q
    dsimp only at hpc
    subst hpc
    exact { hq with
      reserved_le := hlt
      result := by rintro result ⟨⟩ }
  · exact { hq with }

/-- A consumer that has found the queue not empty finds a node behind `divider`. -/
theorem Shape.follow_divider (hq : Shape q addr lo pub) (hreserved : q.consumerPc.reserved = 1) :
    q.follow q.divider = some (addr (q.dividerAt + 1)) := by
  have hdoomed := hq.doomed_le
  have hle := hq.reserved_le
  have hpub := hq.published
  rw [follow, hq.divider]
  exact hq.chain.next_eq (by omega) (by omega)

theorem Shape.copy (hq : Shape q addr lo pub) (hpc : q.consumerPc = .ready) :
    ∃ node, (q.follow q.divider).bind q.heap = some node ∧
      Shape { q with consumerPc := .copied node.value } addr lo pub := by
  have hdoomed := hq.doomed_le
  have hle := hq.reserved_le
  have hpub := hq.published
  have hfollow := hq.follow_divider (by rw [hpc]; rfl)
  rw [hpc] at hle
  have hnode : q.heap (addr (q.dividerAt + 1)) = some _ :=
    hq.chain.node (by omega) (hle.trans (by omega))
  refine ⟨_, by rw [hfollow, Option.bind_some, hnode], ?_⟩
  rcases q
  dsimp only at hpc
  subst hpc
  exact { hq with
    result := by
      rintro result ⟨⟩
      rfl }

theorem Shape.move {result : α} (hq : Shape q addr lo pub) (hpc : q.consumerPc = .copied result) :
    q.follow q.divider = some (addr (q.dividerAt + 1)) ∧
      Shape { q with divider := addr (q.dividerAt + 1), consumerPc := .moved result }
        addr lo pub := by
  have hdoomed := hq.doomed_le
  have hle := hq.reserved_le
  refine ⟨hq.follow_divider (by rw [hpc]; rfl), ?_⟩
  rcases q
  dsimp only at hpc
  subst hpc
  exact { hq with
    divider := rfl
    doomed_le := hdoomed.trans (Nat.le_succ _)
    reserved_le := hle }

theorem Shape.return {result : α} (hq : Shape q addr lo pub) (hpc : q.consumerPc = .moved result) :
    Shape
      { q with
        size := toInt32 (q.size - 1)
        consumerPc := .idle
        consumed := q.consumed ++ [result] } addr lo pub := by
  have hresult : q.consumerPc.result = some result := by
    rw [hpc]
    rfl
  have hvalue := hq.result result hresult
  have hle := hq.result_le hresult
  have hpub := hq.published
  have hsize := hq.size
  have hnext := append_isPrefix hq.consumed (by omega)
  rw [← hvalue] at hnext
  rcases q
  dsimp only at hpc hnext hsize
  subst hpc
  exact { hq with
    divider := by
      rw [hq.divider]
      simp [dividerAt, ConsumerPc.passed]
    doomed_le := by
      have hdoomed := hq.doomed_le
      simpa [dividerAt, ConsumerPc.passed] using hdoomed
    reserved_le := by
      have hreserved := hq.reserved_le
      simpa [dividerAt, ConsumerPc.passed, ConsumerPc.reserved] using hreserved
    result := by rintro result ⟨⟩
    consumed := hnext
    size := by
      dsimp only
      rw [hsize, toInt32_sub_left, List.length_append, List.length_singleton]
      congr 1
      push_cast
      omega }

/-! ## The queue as a list

Behind the pointers there is a list: the values that are published and that
`divider` has not passed. It takes a value in at the step that moves `last`, gives
its first one out at the step that moves `divider`, and no other step changes it. -/

/-- What a step does to the list. -/
inductive Effect (α : Type u)
  | keep
  | put (value : α)
  | take (value : α)

/-- The list before an effect and the list after it. -/
def Effect.Relates {α : Type u} : Effect α → List α → List α → Prop
  | .keep, before, after => after = before
  | .put value, before, after => after = before ++ [value]
  | .take value, before, after => before = value :: after

def Effect.added {α : Type u} : Effect α → List α
  | .put value => [value]
  | _ => []

def Effect.removed {α : Type u} : Effect α → List α
  | .take value => [value]
  | _ => []

theorem Effect.Relates.balance {α : Type u} {effect : Effect α} {before after : List α}
    (heffect : effect.Relates before after) :
    before ++ effect.added = effect.removed ++ after := by
  cases effect with
  | keep => exact (List.append_nil before).trans heffect.symm
  | put value => exact heffect.symm
  | take value => exact (List.append_nil before).trans heffect

def effect (q : LockFreeQueue α) : QueueAction α → Effect α
  | .producer =>
      match q.producerPc with
      | .linked => .put (valueAt q.produced q.produced.length)
      | _ => .keep
  | .consumer =>
      match q.consumerPc with
      | .copied result => .take result
      | _ => .keep
  | _ => .keep

/-- The effects along a run. -/
def effects : LockFreeQueue α → List (QueueAction α) → List (Effect α)
  | _, [] => []
  | q, action :: actions =>
      match q.step action with
      | none => []
      | some next => q.effect action :: effects next actions

/-- The values that are published and not taken. -/
def pending (q : LockFreeQueue α) : List α :=
  (q.produced.take (q.produced.length - q.producerPc.unpublished)).drop q.dividerAt

omit [Inhabited α] in
theorem pending_congr (hproduced : next.produced = q.produced)
    (hproducer : next.producerPc.unpublished = q.producerPc.unpublished)
    (hdivider : next.dividerAt = q.dividerAt) : next.pending = q.pending := by
  rw [pending, pending, hproduced, hproducer, hdivider]

theorem Shape.pending_eq (hq : Shape q addr lo pub) :
    q.pending = (q.produced.take pub).drop q.dividerAt := by
  rw [pending, ← hq.published, Nat.add_sub_cancel]

/-- The condition of `consume` holds exactly where the list is empty. -/
theorem Shape.pending_eq_nil_iff (hq : Shape q addr lo pub) :
    q.pending = [] ↔ q.divider = q.last := by
  have hdoomed := hq.doomed_le
  have hreserved := hq.reserved_le
  have hpub := hq.published
  rw [hq.divider, hq.last, hq.chain.addr_eq_iff (by omega) (by omega) (by omega) (by omega),
    hq.pending_eq, List.drop_eq_nil_iff, List.length_take]
  omega

theorem Shape.pending_link (hq : Shape q addr lo pub) (hpc : q.producerPc = .idle) {a : ℕ}
    (hfree : q.heap a = none) (value : α) : (q.link value a).pending = q.pending := by
  have hpub := hq.published
  rw [hpc] at hpub
  replace hpub : pub = q.produced.length := hpub
  obtain ⟨_, hnode⟩ := hq.last_node hpc
  have hlinked : (q.link value a).produced = q.produced ++ [value] ∧
      (q.link value a).dividerAt = q.dividerAt := by
    rw [LockFreeQueue.link, hnode]
    exact ⟨rfl, rfl⟩
  rw [(hq.link hpc hfree value).pending_eq, hq.pending_eq, hlinked.1, hlinked.2, hpub,
    List.take_left, List.take_length]

/-- Moving `last` takes the new value in. -/
theorem Shape.pending_publish (hq : Shape q addr lo pub) (hpc : q.producerPc = .linked) :
    ({ q with last := addr (pub + 1), producerPc := .published } : LockFreeQueue α).pending =
      q.pending ++ [valueAt q.produced q.produced.length] := by
  have hreserved := hq.reserved_le
  have hpub := hq.published
  rw [hpc] at hpub
  replace hpub : pub + 1 = q.produced.length := hpub
  have hlt : pub < q.produced.length := by omega
  have hvalue : valueAt q.produced q.produced.length = q.produced[pub] := by
    rw [← hpub]
    simp [valueAt, hlt]
  rw [(hq.publish hpc).2.pending_eq, hq.pending_eq, hvalue]
  change List.drop q.dividerAt (List.take (pub + 1) q.produced) = _
  rw [← List.take_append_getElem hlt, List.drop_append_of_le_length]
  rw [List.length_take]
  omega

/-- Moving `divider` gives the first value out. -/
theorem Shape.pending_move {result : α} (hq : Shape q addr lo pub)
    (hpc : q.consumerPc = .copied result) :
    q.pending = result ::
      ({ q with divider := addr (q.dividerAt + 1), consumerPc := .moved result } :
        LockFreeQueue α).pending := by
  have hreserved := hq.reserved_le
  have hpub := hq.published
  have hdivider : q.dividerAt = q.consumed.length := by
    rw [dividerAt, hpc]
    rfl
  rw [hdivider, hpc] at hreserved
  replace hreserved : q.consumed.length < pub := hreserved
  have hlt : q.consumed.length < q.produced.length := by omega
  have hresult : result = q.produced[q.consumed.length] := by
    rw [hq.result result (by rw [hpc]; rfl)]
    simp [valueAt, hlt]
  rw [(hq.move hpc).2.pending_eq, hq.pending_eq, hdivider, hresult]
  change _ = _ :: List.drop (q.consumed.length + 1) (List.take pub q.produced)
  rw [List.drop_eq_getElem_cons, List.getElem_take]
  rw [List.length_take]
  omega

/-! ## Steps and runs -/

/-- The list has its shape. -/
def Sound (q : LockFreeQueue α) : Prop := ∃ addr lo pub, Shape q addr lo pub

/-- A step of the pointers that keeps the shape and is a step of the list. -/
structure Refines (q next : LockFreeQueue α) (effect : Effect α) : Prop where
  sound : Sound next
  pending : effect.Relates q.pending next.pending

theorem Sound.producerStep (hq : Sound q) (hstep : q.producerStep = some next) :
    Refines q next (q.effect .producer) := by
  obtain ⟨addr, lo, pub, hshape⟩ := hq
  cases hpc : q.producerPc with
  | idle =>
      simp only [LockFreeQueue.producerStep, hpc] at hstep
      cases hstep
  | linked =>
      obtain ⟨hfollow, hnext⟩ := hshape.publish hpc
      simp only [LockFreeQueue.producerStep, hpc, hfollow, Option.some.injEq] at hstep
      subst hstep
      simp only [effect, hpc]
      exact ⟨⟨_, _, _, hnext⟩, hshape.pending_publish hpc⟩
  | published =>
      simp only [LockFreeQueue.producerStep, hpc, Option.some.injEq] at hstep
      subst hstep
      simp only [effect, hpc]
      exact ⟨⟨_, _, _, hshape.count hpc⟩, pending_congr rfl (by rw [hpc]; rfl) rfl⟩
  | scanning =>
      simp only [LockFreeQueue.producerStep, hpc] at hstep
      simp only [effect, hpc]
      split_ifs at hstep with hne
      · cases hstep
        exact ⟨⟨_, _, _, (hshape.scan hpc).1 hne⟩, pending_congr rfl (by rw [hpc]; rfl) rfl⟩
      · cases hstep
        exact ⟨⟨_, _, _, (hshape.scan hpc).2⟩, pending_congr rfl (by rw [hpc]; rfl) rfl⟩
  | entered =>
      simp only [LockFreeQueue.producerStep, hpc, Option.some.injEq] at hstep
      subst hstep
      simp only [effect, hpc]
      exact ⟨⟨_, _, _, hshape.hold hpc⟩, pending_congr rfl (by rw [hpc]; rfl) rfl⟩
  | holding temp =>
      obtain ⟨hfollow, hnext⟩ := hshape.detach hpc
      simp only [LockFreeQueue.producerStep, hpc, hfollow, Option.some.injEq] at hstep
      subst hstep
      simp only [effect, hpc]
      exact ⟨⟨_, _, _, hnext⟩, pending_congr rfl (by rw [hpc]; rfl) rfl⟩
  | releasing temp =>
      obtain ⟨hsome, hnext⟩ := hshape.release hpc
      obtain ⟨node, hnode⟩ := Option.isSome_iff_exists.mp hsome
      simp only [LockFreeQueue.producerStep, hpc, hnode, Option.some.injEq] at hstep
      subst hstep
      simp only [effect, hpc]
      exact ⟨⟨_, _, _, hnext⟩, pending_congr rfl (by rw [hpc]; rfl) rfl⟩

theorem Sound.consumerStep (hq : Sound q) (hstep : q.consumerStep = some next) :
    Refines q next (q.effect .consumer) := by
  obtain ⟨addr, lo, pub, hshape⟩ := hq
  cases hpc : q.consumerPc with
  | idle =>
      simp only [LockFreeQueue.consumerStep, hpc] at hstep
      cases hstep
  | ready =>
      obtain ⟨node, hnode, hnext⟩ := hshape.copy hpc
      simp only [LockFreeQueue.consumerStep, hpc, hnode, Option.some.injEq] at hstep
      subst hstep
      simp only [effect, hpc]
      exact ⟨⟨_, _, _, hnext⟩, pending_congr rfl rfl (by rw [dividerAt, dividerAt, hpc]; rfl)⟩
  | copied result =>
      obtain ⟨hfollow, hnext⟩ := hshape.move hpc
      simp only [LockFreeQueue.consumerStep, hpc, hfollow, Option.some.injEq] at hstep
      subst hstep
      simp only [effect, hpc]
      exact ⟨⟨_, _, _, hnext⟩, hshape.pending_move hpc⟩
  | moved result =>
      simp only [LockFreeQueue.consumerStep, hpc, Option.some.injEq] at hstep
      subst hstep
      simp only [effect, hpc]
      refine ⟨⟨_, _, _, hshape.return hpc⟩, pending_congr rfl rfl ?_⟩
      rw [dividerAt, dividerAt, hpc, List.length_append, List.length_singleton]
      rfl

theorem Sound.tryConsume (hq : Sound q) (hpc : q.consumerPc = .idle) :
    Refines q q.tryConsume .keep := by
  obtain ⟨addr, lo, pub, hshape⟩ := hq
  refine ⟨⟨_, _, _, hshape.tryConsume hpc⟩, ?_⟩
  rw [LockFreeQueue.tryConsume]
  split_ifs
  · exact pending_congr rfl rfl (by rw [dividerAt, dividerAt, hpc]; rfl)
  · rfl

/-- **Refinement.** Every step of either thread is a step of the list, or none. -/
theorem Sound.step {action : QueueAction α} (hq : Sound q) (hstep : q.step action = some next) :
    Refines q next (q.effect action) := by
  cases action with
  | produce value a =>
      simp only [LockFreeQueue.step, Option.ite_none_right_eq_some, Option.some.injEq,
        Option.isNone_iff_eq_none] at hstep
      obtain ⟨⟨hpc, hfree⟩, rfl⟩ := hstep
      obtain ⟨addr, lo, pub, hshape⟩ := hq
      exact ⟨⟨_, _, _, hshape.link hpc hfree value⟩, hshape.pending_link hpc hfree value⟩
  | producer => exact hq.producerStep hstep
  | consume =>
      cases hpc : q.consumerPc with
      | idle =>
          simp only [LockFreeQueue.step, hpc, Option.some.injEq] at hstep
          subst hstep
          exact hq.tryConsume hpc
      | ready | copied _ | moved _ =>
          simp only [LockFreeQueue.step, hpc] at hstep
          cases hstep
  | consumer => exact hq.consumerStep hstep

/-- A run takes the values out in the order in which it puts them in, and what it
has not taken out is still there. -/
theorem Sound.run_pending {last : LockFreeQueue α} {actions : List (QueueAction α)} (hq : Sound q)
    (hrun : run LockFreeQueue.step q actions = some last) :
    q.pending ++ (q.effects actions).flatMap Effect.added =
      (q.effects actions).flatMap Effect.removed ++ last.pending := by
  induction actions generalizing q with
  | nil =>
      cases hrun
      exact List.append_nil _
  | cons action actions ih =>
      obtain ⟨next, hstep, hrest⟩ := run_cons_eq_some.mp hrun
      obtain ⟨hsound, hpending⟩ := hq.step hstep
      simp only [effects, hstep, List.flatMap_cons]
      rw [← List.append_assoc, hpending.balance, List.append_assoc, ih hsound hrest,
        List.append_assoc]

theorem sound_run {a : ℕ} {actions : List (QueueAction α)}
    (hrun : run step (create a) actions = some q) : Sound q :=
  run_preserves Sound (fun hq hstep => (hq.step hstep).sound) ⟨_, _, _, shape_create a⟩ hrun

/-! ## The law of the queue -/

/-- A call of `consume` that is not interrupted. -/
def consumeCall : List (QueueAction α) := [.consume, .consumer, .consumer, .consumer]

/-- What the two threads may rely on at one moment. -/
structure Lawful (q : LockFreeQueue α) : Prop where
  fifo : q.consumed <+: q.produced
  safe : q.fault = false
  /-- The node that is freed comes before `divider`, and not behind it. -/
  reclaimed : ∀ temp, q.producerPc = .releasing temp →
    Relation.TransGen (Points q.heap) temp q.divider ∧
      ¬ Relation.TransGen (Points q.heap) q.divider temp
  size : q.Quiet → q.size = toInt32 (q.produced.length - q.consumed.length)
  size_eq : q.Quiet → q.produced.length - q.consumed.length < 2 ^ 31 →
    q.size = q.produced.length - q.consumed.length
  consume : q.Quiet →
    ((∃ next value, run step q consumeCall = some next ∧ next.consumed = q.consumed ++ [value]) ↔
      0 < q.produced.length - q.consumed.length)

/-- At rest the pointers say whether something is left. -/
theorem Shape.divider_eq_last_iff (hq : Shape q addr lo pub) (hquiet : q.Quiet) :
    q.divider = q.last ↔ q.consumed.length = q.produced.length := by
  have hle := hq.consumed.length_le
  have hpending : q.pending = q.produced.drop q.consumed.length := by
    rw [pending, dividerAt, hquiet.producer, hquiet.consumer]
    exact congrArg (List.drop _) List.take_length
  rw [← hq.pending_eq_nil_iff, hpending, List.drop_eq_nil_iff]
  omega

theorem Shape.size_of_quiet (hq : Shape q addr lo pub) (hquiet : q.Quiet) :
    q.size = toInt32 (q.produced.length - q.consumed.length) := by
  have huncounted : q.producerPc.uncounted = 0 := by
    rw [hquiet.producer]
    rfl
  rw [hq.size, huncounted, Nat.cast_zero, sub_zero]

/-- Where something is left, `consume` goes through. -/
theorem Shape.run_consumeCall (hq : Shape q addr lo pub) (hpc : q.consumerPc = .idle)
    (hne : q.divider ≠ q.last) :
    ∃ next value, run step q consumeCall = some next ∧ next.consumed = q.consumed ++ [value] := by
  have hready := hq.tryConsume hpc
  rw [LockFreeQueue.tryConsume, if_pos hne] at hready
  obtain ⟨node, hnode, hcopied⟩ := hready.copy rfl
  obtain ⟨hfollow, hmoved⟩ := hcopied.move rfl
  have hconsume : q.step .consume = some { q with consumerPc := .ready } := by
    simp only [LockFreeQueue.step, hpc, LockFreeQueue.tryConsume, if_pos hne]
  refine ⟨{ q with
    divider := addr (q.consumed.length + 1)
    size := toInt32 (q.size - 1)
    consumerPc := .idle
    consumed := q.consumed ++ [node.value] }, node.value, ?_, rfl⟩
  rw [consumeCall, run_cons_eq_some]
  refine ⟨_, hconsume, ?_⟩
  rw [run_cons_eq_some]
  refine ⟨{ q with consumerPc := .copied node.value }, ?_, ?_⟩
  · simp only [LockFreeQueue.step, LockFreeQueue.consumerStep, hnode]
  · rw [run_cons_eq_some]
    refine ⟨{ q with
      divider := addr (q.consumed.length + 1)
      consumerPc := .moved node.value }, ?_, rfl⟩
    simp only [LockFreeQueue.step, LockFreeQueue.consumerStep, hfollow]
    rfl

omit [Inhabited α] in
/-- Where nothing is left, the call returns at its condition and has no second step. -/
theorem run_consumeCall_of_empty (hpc : q.consumerPc = .idle) (hempty : q.divider = q.last) :
    run step q consumeCall = none := by
  have hrefused : q.step .consume = some { q with refusals := q.refusals + 1 } := by
    simp only [LockFreeQueue.step, hpc, LockFreeQueue.tryConsume]
    rw [if_neg (not_not.mpr hempty)]
  rw [consumeCall, run_cons, hrefused, Option.bind_some, run_cons]
  simp only [LockFreeQueue.step, LockFreeQueue.consumerStep, hpc, Option.bind_none]

theorem Shape.lawful (hq : Shape q addr lo pub) : Lawful q where
  fifo := hq.consumed
  safe := hq.fault
  reclaimed temp hpc := by
    obtain ⟨rfl, hlt, hle⟩ := hq.lt_dividerAt hpc
    rw [hq.divider]
    exact ⟨hq.chain.precedes le_rfl hlt hle, hq.chain.not_precedes le_rfl hlt.le hle⟩
  size := hq.size_of_quiet
  size_eq hquiet hlt := by
    have hle := hq.consumed.length_le
    rw [hq.size_of_quiet hquiet, toInt32_of_range]
    · omega
    · omega
  consume hquiet := by
    have hle := hq.consumed.length_le
    have hiff := hq.divider_eq_last_iff hquiet
    constructor
    · rintro ⟨next, value, hrun, _⟩
      by_contra hzero
      have hempty : q.divider = q.last := hiff.mpr (by omega)
      rw [run_consumeCall_of_empty hquiet.consumer hempty] at hrun
      cases hrun
    · intro hpos
      apply hq.run_consumeCall hquiet.consumer
      rw [ne_eq, hiff]
      omega

/-- **One producer, one consumer, any interleaving.** What is returned is a
beginning of what was passed in; no freed node is touched, and none is freed that
`divider` has not passed; at rest the counter holds the number of values that are
left, as an `int`, and `consume` succeeds exactly when there is one. -/
theorem run_lawful (a : ℕ) (actions : List (QueueAction α)) (q : LockFreeQueue α)
    (hrun : run step (create a) actions = some q) : Lawful q := by
  obtain ⟨_, _, _, hshape⟩ := sound_run hrun
  exact hshape.lawful

/-- Two calls of `produce` around two calls of `consume`; the second node gets the
address that the constructor's node had. -/
def handshake : List (QueueAction ℕ) :=
  [.produce 7 1, .consume, .producer, .consume, .producer, .consumer, .consumer, .consumer,
    .producer, .producer, .producer, .producer, .producer, .produce 8 0, .producer, .producer,
    .producer, .consume, .consumer, .consumer]

theorem run_lawful_handshake :
    ∃ q, run step (create 0) handshake = some q ∧
      (q.produced = [7, 8] ∧ q.consumed = [7] ∧ q.refusals = 1) ∧ Lawful q := by
  have hrecord : (run step (create 0) handshake).map
      (fun q => (q.produced, q.consumed, q.refusals)) = some ([7, 8], [7], 1) := by decide
  obtain ⟨q, hrun, hq⟩ := Option.map_eq_some_iff.mp hrecord
  simp only [Prod.mk.injEq] at hq
  exact ⟨q, hrun, hq, run_lawful 0 handshake q hrun⟩

/-! ## The counter is an `int` -/

/-- A call of `produce` that is not interrupted and finds nothing to free. -/
def produceCall (value : α) (addr : ℕ) : List (QueueAction α) :=
  [.produce value addr, .producer, .producer, .producer]

theorem Shape.run_produceCall (hq : Shape q addr lo pub) (hpc : q.producerPc = .idle)
    (hempty : q.divider = q.first) {a : ℕ} (hfree : q.heap a = none) (value : α) :
    ∃ next, run step q (produceCall value a) = some next ∧ next.producerPc = .idle ∧
      next.divider = next.first ∧ next.consumerPc = q.consumerPc ∧
      next.produced = q.produced ++ [value] ∧ next.consumed = q.consumed ∧
      ∀ b, b ≠ a → q.heap b = none → next.heap b = none := by
  obtain ⟨_, hnode⟩ := hq.last_node hpc
  have hlinked := hq.link hpc hfree value
  have hlink : q.step (.produce value a) = some (q.link value a) := by
    simp only [LockFreeQueue.step, hpc, hfree, Option.isNone_none, and_self, if_true]
  rw [LockFreeQueue.link, hnode] at hlinked hlink
  obtain ⟨hfollow, _⟩ := hlinked.publish rfl
  refine ⟨{ q with
    heap := Function.update
      (Function.update q.heap a (some { value := value, next := none }))
      q.last (some { value := valueAt q.produced q.produced.length, next := some a })
    last := Function.update addr (q.produced.length + 1) a (pub + 1)
    size := toInt32 (q.size + 1)
    produced := q.produced ++ [value] }, ?_, hpc, hempty, rfl, rfl, rfl, ?_⟩
  · rw [produceCall, run_cons_eq_some]
    refine ⟨_, hlink, ?_⟩
    rw [run_cons, LockFreeQueue.step, LockFreeQueue.producerStep]
    simp only [hfollow, Option.bind_some]
    rw [run_cons, LockFreeQueue.step, LockFreeQueue.producerStep]
    simp only [Option.bind_some]
    rw [run_cons, LockFreeQueue.step, LockFreeQueue.producerStep]
    simp only [hempty, ne_eq, not_true_eq_false, if_false, Option.bind_some, run_nil, hpc]
  · intro b hne hb
    have hlast : b ≠ q.last := by
      rintro rfl
      rw [hnode] at hb
      cases hb
    simp only [Function.update_of_ne hlast, Function.update_of_ne hne, hb]

/-- Any number of values can be in the queue. -/
theorem exists_filled (n : ℕ) :
    ∃ actions, ∃ q : LockFreeQueue ℕ, run step (create 0) actions = some q ∧ q.Quiet ∧
      q.divider = q.first ∧ q.produced.length = n ∧ q.consumed = [] ∧
      ∀ b, n < b → q.heap b = none := by
  induction n with
  | zero =>
      refine ⟨[], create 0, rfl, ⟨rfl, rfl⟩, rfl, rfl, rfl, ?_⟩
      intro b hb
      simp only [create, Function.update_of_ne hb.ne']
  | succ n ih =>
      obtain ⟨actions, q, hrun, hquiet, hempty, hlength, hconsumed, hheap⟩ := ih
      obtain ⟨_, _, _, hshape⟩ := sound_run hrun
      obtain ⟨next, hnext, hproducer, hempty', hconsumer, hproduced, hconsumed', hheap'⟩ :=
        hshape.run_produceCall hquiet.producer hempty (hheap (n + 1) (Nat.lt_succ_self n)) 0
      refine ⟨actions ++ produceCall 0 (n + 1), next, ?_, ⟨hproducer, ?_⟩, hempty', ?_, ?_, ?_⟩
      · rw [run_append_eq_some]
        exact ⟨q, hrun, hnext⟩
      · rw [hconsumer, hquiet.consumer]
      · rw [hproduced, List.length_append, List.length_singleton, hlength]
      · rw [hconsumed', hconsumed]
      · intro b hb
        exact hheap' b (by omega) (hheap b (by omega))

/-- With `2 ^ 31` values left the counter is negative. -/
theorem size_ne_filled :
    ∃ actions, ∃ q : LockFreeQueue ℕ, run step (create 0) actions = some q ∧ q.Quiet ∧
      q.size ≠ q.produced.length - q.consumed.length := by
  obtain ⟨actions, q, hrun, hquiet, _, hlength, hconsumed, _⟩ := exists_filled (2 ^ 31)
  obtain ⟨_, _, _, hshape⟩ := sound_run hrun
  refine ⟨actions, q, hrun, hquiet, ?_⟩
  rw [hshape.size_of_quiet hquiet, hlength, hconsumed]
  decide

end LockFreeQueue

end Xrtc.Base
