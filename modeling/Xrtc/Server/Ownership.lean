/-
# The memory of a worker

A connection owns its receive buffer, which its constructor allocates and its destructor
frees, and the buffers of the replies that wait in its queue. A reply's buffer is
allocated when the reply is made and freed when the last byte has been accepted, or by
the destructor. Nothing in the source says who owns a block: the pointers are copied from
a slice into the queue and back.

The functions are those of `WatchedWorker` with the calls of the allocator added, and the
pointers that are passed to them. A free of a block that is not in use is a fault. There
is one worker here; the counter of the process is the one of its allocator.
-/

import Xrtc.Base.Zmalloc
import Xrtc.Machine.Holding
import Xrtc.Server.Arming

namespace Xrtc.Server

open Xrtc.Machine Xrtc.Base

/-- The members of a connection that point to blocks. -/
structure Pointers where
  querybuf : Addr
  replyMsgs : List Addr := []
  deriving DecidableEq

/-- The ways in which a callback does not return, with those of the allocator. -/
inductive MemoryFault
  | callback (fault : Fault)
  /-- The receive buffer was reallocated to less than its header. -/
  | shortBlock
  /-- A block that is not in use was freed or reallocated. -/
  | badFree
  deriving DecidableEq

/-- A worker with its memory. `objects` are the connections that were constructed and have
not been destroyed; nothing in the program depends on it. -/
structure OwningWorker where
  watched : WatchedWorker
  memory : Zmalloc := {}
  pointers : Addr → Pointers := fun _ => { querybuf := 0 }
  objects : List Addr := []

/-- A callback with the allocator's answer: the place of a new block, and whether a block
that is reallocated stays where it is. -/
structure Activation where
  event : LoopEvent
  block : Addr := 0
  stays : Bool := false

/-- The variables of the write loop with the blocks of the queue. -/
structure WriteBlocks where
  write : WriteState
  blocks : List Addr
  memory : Zmalloc

namespace OwningWorker

def start (timeout : ℤ) : OwningWorker := { watched := .start timeout }

/-- The result of a callback that calls no allocator. -/
def lift {α : Type} : Except Fault α → Except MemoryFault α
  | .ok value => .ok value
  | .error fault => .error (.callback fault)

def free (m : Zmalloc) (ptr : Addr) : Except MemoryFault Zmalloc :=
  (m.zfree (some ptr)).elim (.error .badFree) .ok

def freeAll : Zmalloc → List Addr → Except MemoryFault Zmalloc
  | m, [] => .ok m
  | m, ptr :: ptrs => free m ptr >>= fun m => freeAll m ptrs

/-- The size of the block of a receive buffer. -/
def querybufSize (c : TcpConnection) : ℕ := SDSHDR_SIZE + c.querybuf.alloc + 1

/-- The size of the block of a reply. -/
def REPLY_SIZE : ℕ := XHEAD_SIZE + MAX_RES_BUF

/-- `_new_conn`: the constructor takes an empty receive buffer. -/
def newConn (s : OwningWorker) (fd : ℤ) (setup peer : Bool) (addr : Addr) (now : ℕ)
    (block : Addr) : Except MemoryFault OwningWorker := do
  let watched ← lift (s.watched.newConn fd setup peer addr now)
  if 0 ≤ fd ∧ setup = true then
    .ok
      { watched := watched
        memory := s.memory.zmalloc (SDSHDR_SIZE + 0 + 1) block
        pointers := Function.update s.pointers addr { querybuf := block }
        objects := addr :: s.objects }
  else
    .ok { s with watched := watched }

/-- `_close_conn`, with the destructor: the receive buffer first, and then the replies. -/
def closeConn (s : OwningWorker) (addr : Addr) : Except MemoryFault OwningWorker := do
  let watched ← lift (s.watched.closeConn addr)
  let memory ← freeAll s.memory ((s.pointers addr).querybuf :: (s.pointers addr).replyMsgs)
  .ok { s with watched := watched, memory := memory, objects := s.objects.erase addr }

/-- The size that `sdsMakeRoomFor` asks for. -/
def grownSize (c : TcpConnection) : ℕ :=
  toSize (SDSHDR_SIZE + grownLength (sdslen c.querybuf) c.readCount + 1)

/-- `sdsMakeRoomFor` on the receive buffer of the connection at `addr`. -/
def makeRoom (s : OwningWorker) (addr : Addr) (c : TcpConnection) (block : Addr) (stays : Bool) :
    Except MemoryFault OwningWorker :=
  if sdsavail c.querybuf ≥ c.readCount then
    .ok s
  else if grownSize c > PTRDIFF_MAX then
    .error (.callback .aborted)
  else if grownSize c < SDSHDR_SIZE + 1 then
    .error .shortBlock
  else
    let old := (s.pointers addr).querybuf
    let block := if stays then old else block
    match s.memory.zrealloc (some old) (grownSize c) block with
    | none => .error .badFree
    | some memory =>
        .ok
          { s with
            memory := memory
            pointers := Function.update s.pointers addr { s.pointers addr with querybuf := block } }

/-- What an activation of `TcpConnection.readConn` makes of the worker. -/
def afterRead (s : OwningWorker) (addr : Addr) :
    TcpConnection.ReadOutcome → Except MemoryFault OwningWorker
  | .kept c _ => .ok
      { s with watched := { s.watched with worker := s.watched.worker.store addr c } }
  | .closed _ => s.closeConn addr
  | .aborted => .error (.callback .aborted)
  | .overrun => .error (.callback .overrun)
  | .looping => .error (.callback .looping)

/-- `_read_conn`. -/
def readConn (s : OwningWorker) (fuel : ℕ) (fd : ℤ) (e : ReadEvent) (block : Addr)
    (stays : Bool) : Except MemoryFault OwningWorker :=
  if fd < 0 ∨ fd ≥ toInt32 s.watched.worker.conns.length then
    .ok s
  else
    match s.watched.worker.connAt fd with
    | none => .ok s
    | some addr => do
        let c ← lift (s.watched.worker.deref addr)
        let s ← s.makeRoom addr c block stays
        s.afterRead addr (c.readConn e.ret fuel e.now e.result)

/-- The write loop: the block of a message that is taken from the queue is freed. -/
def writeLoop : WriteBlocks → List WriteResult → Except MemoryFault WriteBlocks
  | s, [] => .ok s
  | s, r :: results =>
      match s.write.writeStep r with
      | none => .ok s
      | some next =>
          match s.blocks with
          | block :: blocks =>
              if next.replyMsgs.length < s.write.replyMsgs.length then
                free s.memory block >>= fun memory => writeLoop ⟨next, blocks, memory⟩ results
              else
                writeLoop { s with write := next } results
          | [] => .error .badFree

/-- `_write_conn`. -/
def writeConn (s : OwningWorker) (fd : ℤ) (now : ℕ) (results : List WriteResult) :
    Except MemoryFault OwningWorker :=
  if fd ≤ 0 ∨ toSize fd ≥ s.watched.worker.conns.length then
    .ok s
  else
    match s.watched.worker.connAt fd with
    | none => .ok s
    | some addr => do
        let c ← lift (s.watched.worker.deref addr)
        let written ← writeLoop
          ⟨{ replyMsgs := c.replyMsgs }, (s.pointers addr).replyMsgs, s.memory⟩ results
        let s :=
          { s with
            memory := written.memory
            pointers := Function.update s.pointers addr
              { s.pointers addr with replyMsgs := written.blocks } }
        if written.write.failed then
          s.closeConn addr
        else if written.write.replyMsgs ≠ [] then
          .error (.callback .looping)
        else
          .ok { s with
            watched := { s.watched with
              worker := s.watched.worker.store addr
                { c with
                  replyMsgs := []
                  lastActiveTime := now
                  ioWatcher := stopIoEvent c.ioWatcher c.fd .WRITE } } }

/-- `conn_io_cb`. -/
def connIoCb (s : OwningWorker) (fuel : ℕ) (addr : Addr) (mask : EventMask) (e : ReadEvent)
    (now : ℕ) (results : List WriteResult) (block : Addr) (stays : Bool) :
    Except MemoryFault OwningWorker := do
  let c ← lift (s.watched.worker.deref addr)
  let fd := c.ioWatcher.fd
  let afterRead := if mask.read then s.readConn fuel fd e block stays else .ok s
  afterRead >>= fun s => if mask.write then s.writeConn fd now results else .ok s

/-- `conn_timer_cb`. -/
def connTimerCb (s : OwningWorker) (addr : Addr) (now : ℕ) : Except MemoryFault OwningWorker := do
  let c ← lift (s.watched.worker.deref addr)
  if toSize ((now : ℤ) - c.lastActiveTime) ≥
      (s.watched.worker.connectionTimeoutMs % 2 ^ 32).toNat then
    s.closeConn addr
  else
    .ok s

/-- The connection that `_response_server_offer` makes a reply for. -/
def replyTarget (w : SignalingWorker) (msg : RtcMsg) : Option Addr :=
  if msg.cmdno ≠ CMDNO_PUSH ∨ msg.fd ≤ 0 ∨ toSize msg.fd ≥ w.conns.length then
    none
  else if w.connAt msg.fd ≠ msg.conn then
    none
  else
    msg.conn

/-- `_process_rtc_msg`, with the block of the reply. -/
def processRtcMsg (writeString : ResRoot → List UInt8) (s : OwningWorker) (msg : RtcMsg)
    (memory : ReplyMsg) (block : Addr) : Except MemoryFault OwningWorker := do
  let watched ← lift (s.watched.processRtcMsg writeString msg memory)
  match replyTarget s.watched.worker msg with
  | none => .ok { s with watched := watched }
  | some addr =>
      .ok
        { s with
          watched := watched
          memory := s.memory.zmalloc REPLY_SIZE block
          pointers := Function.update s.pointers addr
            { s.pointers addr with replyMsgs := (s.pointers addr).replyMsgs ++ [block] } }

/-- One callback. -/
def callback (writeString : ResRoot → List UInt8) (fuel : ℕ) (s : OwningWorker)
    (a : Activation) : Except MemoryFault OwningWorker :=
  match a.event with
  | .newConn fd setup peer addr now => s.newConn fd setup peer addr now a.block
  | .io addr mask e now results => s.connIoCb fuel addr mask e now results a.block a.stays
  | .timer addr now => s.connTimerCb addr now
  | .rtcMsg msg memory => s.processRtcMsg writeString msg memory a.block

/-- The callback may come, and a new block lies where there is none. -/
def Enabled (s : OwningWorker) (a : Activation) : Prop :=
  s.watched.Enabled a.event ∧ s.memory.blockAt a.block = none

instance (s : OwningWorker) : DecidablePred s.Enabled :=
  fun _ => inferInstanceAs (Decidable (_ ∧ _))

/-- A callback that returns. -/
def step (writeString : ResRoot → List UInt8) (fuel : ℕ) (s : OwningWorker) (a : Activation) :
    Option OwningWorker :=
  if s.Enabled a then (s.callback writeString fuel a).toOption else none

/-! ## Who holds a block -/

theorem lift_ok {α : Type} (value : α) : lift (.ok value) = .ok value := rfl

/-- The blocks of a connection. -/
def blocksOf (c : TcpConnection) (p : Pointers) : List Block :=
  ⟨p.querybuf, querybufSize c⟩ :: p.replyMsgs.map fun ptr => ⟨ptr, REPLY_SIZE⟩

/-- The blocks of the connection at an address. -/
def holds (s : OwningWorker) (addr : Addr) : List Block :=
  (s.watched.worker.heap addr).elim [] fun c => blocksOf c (s.pointers addr)

/-- Every block in use belongs to one connection that is there, and to one of its members:
a receive buffer of the size that was asked for, or one block for each queued reply. -/
structure Owned (s : OwningWorker) : Prop where
  registered : s.watched.Registered
  accounted : s.memory.Accounted
  live : ∀ addr, addr ∈ s.objects ↔ s.watched.worker.heap addr ≠ none
  queued : ∀ addr c, s.watched.worker.heap addr = some c →
    (s.pointers addr).replyMsgs.length = c.replyMsgs.length
  held : HeldBy s.objects s.holds s.memory.blocks

/-- The same but for one connection, whose blocks are given. -/
structure OwnedBut (s : OwningWorker) (addr : Addr) (blocks : List Block) : Prop where
  registered : s.watched.Registered
  accounted : s.memory.Accounted
  live : ∀ addr, addr ∈ s.objects ↔ s.watched.worker.heap addr ≠ none
  queued : ∀ other, other ≠ addr → ∀ c, s.watched.worker.heap other = some c →
    (s.pointers other).replyMsgs.length = c.replyMsgs.length
  held : ∃ before things, HeldBy s.objects before things ∧
    (∀ other, other ≠ addr → s.holds other = before other) ∧
    s.memory.blocks.Perm (blocks ++ (s.objects.erase addr).flatMap before)

variable {s next : OwningWorker} {addr : Addr} {c c' : TcpConnection} {blocks : List Block}

theorem ptrs_of_blocksOf (c : TcpConnection) (p : Pointers) :
    (blocksOf c p).map Block.ptr = p.querybuf :: p.replyMsgs := by
  simp [blocksOf, Function.comp_def]

/-- Only the size of the receive buffer matters. -/
theorem blocksOf_congr (halloc : c'.querybuf.alloc = c.querybuf.alloc) (p : Pointers) :
    blocksOf c' p = blocksOf c p := by
  rw [blocksOf, blocksOf, querybufSize, querybufSize, halloc]

theorem holds_of_heap (hc : s.watched.worker.heap addr = some c) :
    s.holds addr = blocksOf c (s.pointers addr) := by
  rw [holds, hc, Option.elim_some]

theorem Owned.but (hs : s.Owned) (hc : s.watched.worker.heap addr = some c) :
    s.OwnedBut addr (blocksOf c (s.pointers addr)) where
  registered := hs.registered
  accounted := hs.accounted
  live := hs.live
  queued := fun other _ => hs.queued other
  held := by
    have haddr : addr ∈ s.objects := (hs.live addr).mpr (by rw [hc]; exact Option.some_ne_none c)
    refine ⟨s.holds, _, hs.held, fun _ _ => rfl, ?_⟩
    rw [← holds_of_heap hc]
    exact hs.held.split haddr

/-- The connection is stored with pointers to its blocks. -/
theorem OwnedBut.store (hs : s.OwnedBut addr blocks) (hc : s.watched.worker.heap addr = some c)
    (harmed : c.Armed → c'.Armed) (hfd : c'.fd = c.fd)
    (hqueued : (s.pointers addr).replyMsgs.length = c'.replyMsgs.length)
    (hblocks : blocks = blocksOf c' (s.pointers addr)) :
    Owned { s with watched := { s.watched with worker := s.watched.worker.store addr c' } } where
  registered := hs.registered.effect (.stored hc hfd harmed)
  accounted := hs.accounted
  live := by
    intro other
    rw [hs.live other]
    by_cases hsame : other = addr
    · subst hsame
      simp [SignalingWorker.store, hc]
    · simp [SignalingWorker.store, hsame]
  queued := by
    intro other d hd
    by_cases hsame : other = addr
    · subst hsame
      cases (Function.update_self _ _ _).symm.trans hd
      exact hqueued
    · exact hs.queued other hsame d ((Function.update_of_ne hsame _ _).symm.trans hd)
  held := by
    obtain ⟨before, things, hheld, hothers, hperm⟩ := hs.held
    have haddr : addr ∈ s.objects := (hs.live addr).mpr (by rw [hc]; exact Option.some_ne_none c)
    refine hheld.exchange haddr ?_ ?_
    · intro other _ hne
      rw [← hothers other hne, holds, holds]
      exact congrArg (fun h => Option.elim h [] _) (Function.update_of_ne hne _ _)
    · rw [holds_of_heap (c := c') (Function.update_self _ _ _), ← hblocks]
      exact hperm

/-! ## Freeing -/

theorem freeAll_of_perm {m : Zmalloc} {rest : List Block} (hm : m.Accounted)
    (hperm : m.blocks.Perm (blocks ++ rest)) :
    ∃ next, freeAll m (blocks.map Block.ptr) = .ok next ∧ next.Accounted ∧
      next.blocks.Perm rest := by
  induction blocks generalizing m with
  | nil => exact ⟨m, rfl, hm, hperm⟩
  | cons b blocks ih =>
      obtain ⟨middle, hfree, hmiddle, hrest⟩ := hm.zfree_of_perm hperm
      obtain ⟨last, hlast, hresult⟩ := ih hmiddle hrest
      refine ⟨last, ?_, hresult⟩
      rw [List.map_cons, freeAll, free, hfree]
      exact hlast

/-- How a callback with memory goes on where the one without it does. -/
inductive Follows : Except Fault WatchedWorker → Except MemoryFault OwningWorker → Prop
  | returns {s : OwningWorker} (owned : s.Owned) : Follows (.ok s.watched) (.ok s)
  | faults (fault : Fault) : Follows (.error fault) (.error (.callback fault))
  | short (result : Except Fault WatchedWorker) : Follows result (.error .shortBlock)

theorem Follows.bind {result : Except Fault WatchedWorker}
    {result' : Except MemoryFault OwningWorker} {f : WatchedWorker → Except Fault WatchedWorker}
    {g : OwningWorker → Except MemoryFault OwningWorker} (hresult : Follows result result')
    (hf : ∀ s : OwningWorker, s.Owned → Follows (f s.watched) (g s)) :
    Follows (result >>= f) (result' >>= g) := by
  cases hresult with
  | returns owned => exact hf _ owned
  | faults fault => exact .faults fault
  | short => exact .short _

/-- **Closing a connection** frees all its blocks, and each of them once. -/
theorem OwnedBut.closeConn (hs : s.OwnedBut addr blocks) (haddr : addr ∈ s.watched.installed)
    (hblocks : blocks.map Block.ptr =
      (s.pointers addr).querybuf :: (s.pointers addr).replyMsgs) :
    Follows (s.watched.closeConn addr) (s.closeConn addr) := by
  obtain ⟨c, hc, hpos, hlt, -⟩ := hs.registered.live addr haddr
  have horderly := hs.registered.closeConn haddr
  cases hclose : s.watched.closeConn addr with
  | error fault =>
      rw [OwningWorker.closeConn, hclose]
      exact .faults fault
  | ok watched =>
      rw [hclose] at horderly
      obtain ⟨d, hd, hremove⟩ := SignalingWorker.bind_eq_ok.mp (WatchedWorker.worker_closeConn hclose)
      obtain ⟨-, hworker⟩ := SignalingWorker.removeConn_eq_ok.mp hremove
      have hheap : watched.worker.heap = Function.update s.watched.worker.heap addr none := by
        rw [hworker]
      obtain ⟨before, things, hheld, hothers, hperm⟩ := hs.held
      obtain ⟨memory, hfree, hmemory, hrest⟩ := freeAll_of_perm hs.accounted hperm
      rw [OwningWorker.closeConn, hclose, ← hblocks, lift, WatchedWorker.ok_bind, hfree,
        WatchedWorker.ok_bind]
      refine .returns (s := { s with
        watched := watched, memory := memory, objects := s.objects.erase addr }) ?_
      refine ⟨hs.registered.effects horderly, hmemory, ?_, ?_, hheld.leave ?_ hrest⟩
      · intro other
        simp only [hheap]
        rw [hheld.nodup.mem_erase_iff, hs.live other]
        by_cases hsame : other = addr
        · subst hsame
          simp
        · simp [hsame]
      · intro other d hd
        simp only [hheap] at hd
        have hne : other ≠ addr := by
          rintro rfl
          cases (Function.update_self _ _ _).symm.trans hd
        exact hs.queued other hne d ((Function.update_of_ne hne _ _).symm.trans hd)
      · intro other _ hne
        rw [← hothers other hne, holds, holds]
        simp only [hheap, Function.update_of_ne hne]

/-- The connection's pointers and the memory change, and nothing else. -/
theorem OwnedBut.update {before : Addr → List Block} {things : List Block}
    (blocks' : List Block) {memory : Zmalloc} {p : Pointers} (hs : s.OwnedBut addr blocks)
    (hheld : HeldBy s.objects before things)
    (hothers : ∀ other, other ≠ addr → s.holds other = before other)
    (hmemory : memory.Accounted)
    (hperm : memory.blocks.Perm (blocks' ++ (s.objects.erase addr).flatMap before)) :
    OwnedBut { s with memory := memory, pointers := Function.update s.pointers addr p } addr
      blocks' where
  registered := hs.registered
  accounted := hmemory
  live := hs.live
  queued := by
    intro other hne c hc
    simp only [Function.update_of_ne hne]
    exact hs.queued other hne c hc
  held := by
    refine ⟨before, things, hheld, ?_, hperm⟩
    intro other hne
    rw [← hothers other hne, holds, holds]
    simp only [Function.update_of_ne hne]

end OwningWorker

end Xrtc.Server
