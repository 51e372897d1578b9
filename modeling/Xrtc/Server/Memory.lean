/-
# Every block has one owner

Each callback is looked at together with the one without memory. It returns where the
other one returns, with the same worker and every block still with its owner, and it
fails as the other one fails; only a receive buffer that shrinks below its header ends it
alone. From this follows what the counter of the allocator says in every state that is
reached, and that no block is freed twice or forgotten with a connection that is closed.
-/

import Mathlib.Algebra.Group.Nat.Defs
import Mathlib.Data.List.Forall2
import Xrtc.Server.Ownership

namespace Xrtc.Server.OwningWorker

open Xrtc.Machine Xrtc.Base

variable {s next : OwningWorker} {addr : Addr} {c : TcpConnection}

/-! ## Reading -/

section Reading

variable {ret : ℕ → ℤ} {fuel now : ℕ} {r : ReadResult} {last : TcpConnection}
  {made : List RequestCall} {room : Sds}

theorem alloc_of_ofLoop {stored : TcpConnection}
      (hloop : TcpConnection.ReadOutcome.ofLoop
        (TcpConnection.processQueryBuffer ret fuel stored []) = .kept last made) :
      last.querybuf.alloc = stored.querybuf.alloc := by
    cases hresult : TcpConnection.processQueryBuffer ret fuel stored [] with
    | none =>
        rw [hresult] at hloop
        cases hloop
    | some result =>
        obtain ⟨code, last, calls⟩ := result
        rw [hresult, TcpConnection.ReadOutcome.ofLoop] at hloop
        split at hloop
        · cases hloop
        · cases hloop
          let field (d : TcpConnection) := d.querybuf.alloc
          have hfield : field last = field stored :=
            TcpConnection.keeps_of_processQueryBuffer (fun _ => rfl) (fun _ => rfl) hresult
          exact hfield

theorem alloc_sdsIncrLen (s : Sds) (incr : ℤ) : (sdsIncrLen s incr).alloc = s.alloc := by
  obtain ⟨len, free, alloc, buf⟩ := s
  exact (rfl : alloc = alloc)

theorem alloc_ite {p : Prop} [Decidable p] {n : ℕ} {a b : TcpConnection}
    (ha : a.querybuf.alloc = n) (hb : b.querybuf.alloc = n) :
    (if p then a else b).querybuf.alloc = n := by
  split
  · exact ha
  · exact hb

/-- The block of the receive buffer is not touched behind `sdsMakeRoomFor`. -/
theorem alloc_of_readConn (hroom : c.roomForRead = some room)
    (hkept : c.readConn ret fuel now r = .kept last made) :
    last.querybuf.alloc = room.alloc := by
  obtain ⟨len, free, alloc, buf⟩ := room
  change last.querybuf.alloc = alloc
  rw [TcpConnection.readConn, hroom, Option.elim_some, TcpConnection.readInto] at hkept
  simp only at hkept
  split at hkept
  · cases hkept
  split at hkept
  · cases hkept
  exact (alloc_of_ofLoop hkept).trans (alloc_ite (alloc_sdsIncrLen _ _) rfl)

/-- What the receive buffer is made room in. -/
theorem roomForRead_cases (c : TcpConnection) (hshort : ¬ sdsavail c.querybuf ≥ c.readCount) :
    (grownSize c > PTRDIFF_MAX ∧ c.roomForRead = none) ∨
      ∃ room, ¬ grownSize c > PTRDIFF_MAX ∧ c.roomForRead = some room ∧
        room.alloc = grownSize c - (SDSHDR_SIZE + 1) := by
  rw [TcpConnection.roomForRead, sdsMakeRoomFor, if_neg hshort, reallocTo]
  by_cases hlarge : grownSize c > PTRDIFF_MAX
  · exact Or.inl ⟨hlarge, if_pos hlarge⟩
  · refine Or.inr ⟨_, hlarge, if_neg hlarge, ?_⟩
    rw [grownSize]

/-- **Growing the receive buffer** exchanges its block, or ends the thread. -/
theorem Owned.makeRoom (hs : s.Owned) (hc : s.watched.worker.heap addr = some c) {block : Addr}
    (hblock : s.memory.blockAt block = none) (stays : Bool) :
    s.makeRoom addr c block stays = .error .shortBlock ∨
      (s.makeRoom addr c block stays = .error (.callback .aborted) ∧ c.roomForRead = none) ∨
      ∃ room middle, c.roomForRead = some room ∧ s.makeRoom addr c block stays = .ok middle ∧
        middle.watched = s.watched ∧
        (middle.pointers addr).replyMsgs = (s.pointers addr).replyMsgs ∧
        middle.OwnedBut addr (blocksOf { c with querybuf := room } (middle.pointers addr)) := by
  have hbut := hs.but hc
  rw [OwningWorker.makeRoom]
  by_cases havail : sdsavail c.querybuf ≥ c.readCount
  · rw [if_pos havail]
    have hroom : c.roomForRead = some c.querybuf := by
      rw [TcpConnection.roomForRead, sdsMakeRoomFor, if_pos havail]
    exact Or.inr (Or.inr ⟨c.querybuf, s, hroom, rfl, rfl, rfl, hbut⟩)
  rw [if_neg havail]
  rcases roomForRead_cases c havail with ⟨hlarge, hnone⟩ | ⟨room, hfits, hroom, halloc⟩
  · rw [if_pos hlarge]
    exact Or.inr (Or.inl ⟨rfl, hnone⟩)
  rw [if_neg hfits]
  by_cases hheader : grownSize c < SDSHDR_SIZE + 1
  · rw [if_pos hheader]
    exact Or.inl rfl
  rw [if_neg hheader]
  right
  right
  obtain ⟨before, things, hheld, hothers, hperm⟩ := hbut.held
  have hplace : s.memory.blockAt (if stays then (s.pointers addr).querybuf else block) = none ∨
      (s.pointers addr).querybuf = if stays then (s.pointers addr).querybuf else block := by
    cases stays with
    | true => exact Or.inr rfl
    | false => exact Or.inl hblock
  obtain ⟨memory, hrealloc, hmemory, hblocks⟩ :=
    hs.accounted.zrealloc_of_perm (grownSize c) hperm hplace
  have hsize : querybufSize { c with querybuf := room } = grownSize c := by
    rw [querybufSize, halloc]
    omega
  simp only [hrealloc]
  refine ⟨room, _, hroom, rfl, rfl, ?_, hbut.update _ hheld hothers hmemory ?_⟩
  · simp only [Function.update_self]
  · rw [blocksOf, hsize]
    simp only [Function.update_self]
    exact hblocks

/-- Behind the growth of its receive buffer a connection is read into. -/
theorem OwnedBut.afterRead {ret : ℕ → ℤ} {fuel now : ℕ} {r : ReadResult} {room : Sds}
    (hs : s.OwnedBut addr (blocksOf { c with querybuf := room } (s.pointers addr)))
    (hinstalled : addr ∈ s.watched.installed) (hc : s.watched.worker.heap addr = some c)
    (hqueued : (s.pointers addr).replyMsgs.length = c.replyMsgs.length)
    (hroom : c.roomForRead = some room) (outcome : TcpConnection.ReadOutcome)
    (houtcome : c.readConn ret fuel now r = outcome) :
    Follows (s.watched.afterRead addr outcome) (s.afterRead addr outcome) := by
  cases outcome with
  | kept last made =>
      obtain ⟨hlastFd, -, hlastReplies⟩ := TcpConnection.frame_of_readConn houtcome
      have halloc := alloc_of_readConn hroom houtcome
      refine .returns (hs.store hc (fun harmed => harmed.readConn houtcome) hlastFd ?_
        (blocksOf_congr halloc.symm _))
      rw [hqueued, hlastReplies]
  | closed made => exact hs.closeConn hinstalled (ptrs_of_blocksOf _ _)
  | aborted => exact .faults .aborted
  | overrun => exact .faults .overrun
  | looping => exact .faults .looping

theorem Owned.readConn (hs : s.Owned) (fuel : ℕ) (fd : ℤ) (e : ReadEvent) {block : Addr}
    (hblock : s.memory.blockAt block = none) (stays : Bool) :
    Follows (s.watched.readConn fuel fd e) (s.readConn fuel fd e block stays) := by
  rw [OwningWorker.readConn, WatchedWorker.readConn]
  by_cases hrange : fd < 0 ∨ fd ≥ toInt32 s.watched.worker.conns.length
  · rw [if_pos hrange, if_pos hrange]
    exact .returns hs
  rw [if_neg hrange, if_neg hrange]
  cases haddr : s.watched.worker.connAt fd with
  | none => exact .returns hs
  | some addr =>
      have hfd : 0 ≤ fd := not_lt.mp fun hneg => hrange (Or.inl hneg)
      obtain ⟨hinstalled, c, hc, hderef⟩ := hs.registered.entry hfd haddr
      change Follows (s.watched.worker.deref addr >>= _) (lift (s.watched.worker.deref addr) >>= _)
      rw [hderef, WatchedWorker.ok_bind, lift_ok, WatchedWorker.ok_bind]
      rcases hs.makeRoom hc hblock stays with
        hshort | ⟨haborted, hroom⟩ | ⟨room, middle, hroom, hmade, hsame, hreplies, hbut⟩
      · rw [hshort]
        exact .short _
      · rw [haborted, TcpConnection.readConn, hroom, Option.elim_none]
        exact .faults .aborted
      · rw [hmade, WatchedWorker.ok_bind, ← hsame]
        refine hbut.afterRead (hsame ▸ hinstalled) (hsame ▸ hc) ?_ hroom _ rfl
        rw [hreplies]
        exact hs.queued addr c hc

end Reading

/-! ## Writing -/

section Writing

/-- An answer of the kernel takes the first message from the queue, or none. -/
theorem replyMsgs_of_writeStep {w w' : WriteState} {r : WriteResult}
    (hstep : w.writeStep r = some w') :
    ∃ msg rest, w.replyMsgs = msg :: rest ∧ (w'.replyMsgs = w.replyMsgs ∨ w'.replyMsgs = rest) := by
  obtain ⟨replyMsgs, curPos, sent, failed⟩ := w
  cases failed with
  | true => cases hstep
  | false =>
      cases replyMsgs with
      | nil => cases hstep
      | cons msg rest =>
          refine ⟨msg, rest, rfl, ?_⟩
          simp only [WriteState.writeStep] at hstep
          split at hstep
          · cases hstep
            exact Or.inl rfl
          split at hstep
          · cases hstep
            exact Or.inl rfl
          split at hstep
          · cases hstep
            exact Or.inr rfl
          · cases hstep
            exact Or.inl rfl

/-- The blocks of the messages that are queued. -/
def replyBlocks (ptrs : List Addr) : List Block := ptrs.map fun ptr => ⟨ptr, REPLY_SIZE⟩

/-- **The write loop** frees the blocks of the messages it takes from the queue. -/
theorem writeLoop_follows {w : WriteBlocks} {rest : List Block}
    (hlength : w.blocks.length = w.write.replyMsgs.length) (hm : w.memory.Accounted)
    (hperm : w.memory.blocks.Perm (replyBlocks w.blocks ++ rest)) (results : List WriteResult) :
    ∃ last, writeLoop w results = .ok last ∧
      last.write = WriteState.writeLoop w.write results ∧
      last.blocks.length = last.write.replyMsgs.length ∧ last.memory.Accounted ∧
      last.memory.blocks.Perm (replyBlocks last.blocks ++ rest) := by
  induction results generalizing w with
  | nil => exact ⟨w, rfl, rfl, hlength, hm, hperm⟩
  | cons r results ih =>
      rw [writeLoop, WriteState.writeLoop]
      cases hstep : w.write.writeStep r with
      | none => exact ⟨w, rfl, rfl, hlength, hm, hperm⟩
      | some next =>
          obtain ⟨write, blocks, memory⟩ := w
          obtain ⟨msg, msgs, hmsgs, hnext⟩ := replyMsgs_of_writeStep hstep
          simp only at hlength hm hperm hmsgs hnext ⊢
          cases blocks with
          | nil =>
              rw [hmsgs] at hlength
              cases hlength
          | cons block blocks =>
              rw [hmsgs, List.length_cons, List.length_cons, Nat.succ.injEq] at hlength
              rcases hnext with hsame | htaken
              · simp only [hsame, Nat.lt_irrefl, if_false]
                refine @ih ⟨next, block :: blocks, memory⟩ ?_ hm hperm
                rw [List.length_cons, hlength, hsame, hmsgs, List.length_cons]
              · obtain ⟨memory', hfree, hmemory', hperm'⟩ := hm.zfree_of_perm hperm
                have hshorter : next.replyMsgs.length < write.replyMsgs.length := by
                  rw [htaken, hmsgs, List.length_cons]
                  omega
                simp only [if_pos hshorter, free, hfree, Option.elim_some, WatchedWorker.ok_bind]
                refine @ih ⟨next, blocks, memory'⟩ ?_ hmemory' hperm'
                rw [hlength, htaken]

theorem Owned.writeConn (hs : s.Owned) (fd : ℤ) (now : ℕ) (results : List WriteResult) :
    Follows (s.watched.writeConn fd now results) (s.writeConn fd now results) := by
  rw [OwningWorker.writeConn, WatchedWorker.writeConn]
  split
  · exact .returns hs
  rename_i hrange
  cases haddr : s.watched.worker.connAt fd with
  | none => exact .returns hs
  | some addr =>
  have hfd : 0 < fd := not_le.mp fun hneg => hrange (Or.inl hneg)
  obtain ⟨hinstalled, c, hc, hderef⟩ := hs.registered.entry hfd.le haddr
  have hbut := hs.but hc
  obtain ⟨before, things, hheld, hothers, hperm⟩ := hbut.held
  obtain ⟨written, hloop, hwrite, hleft, hmemory, hblocks⟩ := writeLoop_follows
    (w := ⟨{ replyMsgs := c.replyMsgs }, (s.pointers addr).replyMsgs, s.memory⟩)
    (hs.queued addr c hc) hs.accounted (hperm.trans List.perm_middle.symm) results
  simp only [hderef, lift, WatchedWorker.ok_bind, hloop]
  have hmiddle := hbut.update (p := { s.pointers addr with replyMsgs := written.blocks })
    (⟨(s.pointers addr).querybuf, querybufSize c⟩ :: replyBlocks written.blocks) hheld hothers
    hmemory (hblocks.trans List.perm_middle)
  simp only [← hwrite]
  split
  · refine hmiddle.closeConn hinstalled ?_
    simp [replyBlocks, Function.comp_def]
  split
  · exact .faults .looping
  rename_i hempty
  have hnone : written.blocks = [] := by
    rw [not_not.mp hempty] at hleft
    exact List.length_eq_zero_iff.mp hleft
  have harmed : c.Armed → TcpConnection.Armed { c with
      replyMsgs := []
      lastActiveTime := now
      ioWatcher := stopIoEvent c.ioWatcher c.fd .WRITE } := fun harmed => harmed.written now
  refine .returns (hmiddle.store hc harmed rfl ?_ ?_)
  · simp [hnone]
  · simp [blocksOf, replyBlocks, hnone, querybufSize]

end Writing


/-! ## The other callbacks -/

variable {block : Addr} {watched : WatchedWorker}

/-- A new connection enters with an empty receive buffer. -/
theorem Owned.enter (hs : s.Owned) (hregistered : watched.Registered)
    (hfree : s.watched.worker.heap addr = none)
    (hheap : watched.worker.heap = Function.update s.watched.worker.heap addr (some c))
    (hempty : c.querybuf = sdsempty ∧ c.replyMsgs = [])
    (hblock : s.memory.blockAt block = none) :
    Owned
      { watched := watched
        memory := s.memory.zmalloc (SDSHDR_SIZE + 0 + 1) block
        pointers := Function.update s.pointers addr { querybuf := block }
        objects := addr :: s.objects } where
  registered := hregistered
  accounted := hs.accounted.allocate hblock
  live := by
    intro other
    simp only [List.mem_cons, hheap, hs.live other]
    by_cases hsame : other = addr
    · subst hsame
      simp
    · simp [hsame]
  queued := by
    intro other d hd
    simp only [hheap] at hd ⊢
    by_cases hsame : other = addr
    · subst hsame
      cases (Function.update_self _ _ _).symm.trans hd
      rw [Function.update_self, hempty.2]
      rfl
    · rw [Function.update_of_ne hsame] at hd ⊢
      exact hs.queued other d hd
  held := by
    have hnew : addr ∉ s.objects := fun hmem => (hs.live addr).mp hmem hfree
    refine hs.held.enter hnew ?_ ?_
    · intro other hother
      have hne : other ≠ addr := fun heq => hnew (heq ▸ hother)
      simp only [holds, hheap, Function.update_of_ne hne]
    · have hsize : querybufSize c = SDSHDR_SIZE + 0 + 1 := by
        rw [querybufSize, hempty.1]
        rfl
      simp only [holds, hheap, Function.update_self, Option.elim_some, blocksOf, hsize]
      exact .refl _

theorem Owned.newConn (hs : s.Owned) {fd : ℤ} (hfd : 1 ≤ fd) (hlt : fd < 2 ^ 31)
    (hfree : s.watched.worker.heap addr = none) (hblock : s.memory.blockAt block = none)
    (setup peer : Bool) (now : ℕ) :
    Follows (s.watched.newConn fd setup peer addr now) (s.newConn fd setup peer addr now block) := by
  rw [OwningWorker.newConn]
  rcases WatchedWorker.newConn_cases hs.registered.consistent.size_lt hfd hlt setup peer addr now
    with ⟨haborted, -⟩ | ⟨watched, hok, hopened⟩
  · rw [haborted]
    exact .faults .aborted
  have hregistered := hs.registered.opened hfd hfree hopened
  rw [hok, lift_ok, WatchedWorker.ok_bind]
  cases setup with
  | false =>
      rw [if_neg (by simp)]
      have hsame : watched = s.watched := by
        have hrefused : s.watched.newConn fd false peer addr now = .ok s.watched := by
          rw [WatchedWorker.newConn, SignalingWorker.newConn, if_neg (by omega),
            if_pos (by decide), WatchedWorker.ok_bind, if_neg (by simp)]
        rw [hrefused] at hok
        exact (Except.ok.inj hok).symm
      subst hsame
      exact .returns hs
  | true =>
      rw [if_pos ⟨by omega, rfl⟩]
      cases hopened with
      | refused failed => cases failed
      | leaked => exact .returns (hs.enter hregistered hfree rfl ⟨rfl, rfl⟩ hblock)
      | installed => exact .returns (hs.enter hregistered hfree rfl ⟨rfl, rfl⟩ hblock)

/-- A reply is made for the connection it is for, or for none. -/
theorem responseServerOffer_cases (hs : watched.Registered) (writeString : ResRoot → List UInt8)
    {msg : RtcMsg} (hcmdno : msg.cmdno = CMDNO_PUSH) :
    (replyTarget watched.worker msg = none ∧
        watched.worker.responseServerOffer writeString msg = .ok (watched.worker, none)) ∨
      ∃ addr c, replyTarget watched.worker msg = some addr ∧ msg.conn = some addr ∧
        watched.worker.heap addr = some c ∧
        watched.worker.responseServerOffer writeString msg =
          (SignalingWorker.replyFrame c (writeString (SignalingWorker.resRoot msg))).map fun resMsg =>
            (watched.worker.store addr (SignalingWorker.addReply c resMsg), some addr) := by
  unfold replyTarget SignalingWorker.responseServerOffer
  cases hconn : msg.conn with
  | none =>
      refine Or.inl ⟨?_, rfl⟩
      split
      · rfl
      · split <;> rfl
  | some addr =>
      by_cases hrange : msg.fd ≤ 0 ∨ toSize msg.fd ≥ watched.worker.conns.length
      · exact Or.inl ⟨if_pos (Or.inr hrange), if_pos hrange⟩
      rw [if_neg (not_or.mpr ⟨not_not.mpr hcmdno, hrange⟩)]
      simp only [if_neg hrange]
      by_cases hentry : watched.worker.connAt msg.fd ≠ some addr
      · exact Or.inl ⟨if_pos hentry, if_pos hentry⟩
      have hpos : 0 < msg.fd := not_le.mp fun hneg => hrange (Or.inl hneg)
      obtain ⟨-, c, hc, hderef⟩ := hs.entry hpos.le (not_not.mp hentry)
      refine Or.inr ⟨addr, c, if_neg hentry, rfl, hc, ?_⟩
      rw [if_neg hentry, hderef, WatchedWorker.ok_bind]
      cases SignalingWorker.replyFrame c (writeString (SignalingWorker.resRoot msg)) <;> rfl

/-- A message fails, goes nowhere, or queues a reply on the connection it is for. -/
theorem processRtcMsg_cases (hs : watched.Registered) (writeString : ResRoot → List UInt8)
    (msg : RtcMsg) (memory : ReplyMsg) :
    (∃ fault, watched.processRtcMsg writeString msg memory = .error fault) ∨
      (replyTarget watched.worker msg = none ∧
        watched.processRtcMsg writeString msg memory = .ok watched) ∨
      ∃ addr c resMsg, replyTarget watched.worker msg = some addr ∧
        watched.worker.heap addr = some c ∧
        watched.processRtcMsg writeString msg memory = .ok { watched with
          worker := watched.worker.store addr (SignalingWorker.addReply c resMsg) } := by
  rw [WatchedWorker.processRtcMsg]
  by_cases hcmdno : msg.cmdno = CMDNO_PUSH
  swap
  · rw [if_neg hcmdno, replyTarget, if_pos (Or.inl hcmdno)]
    exact Or.inr (Or.inl ⟨rfl, rfl⟩)
  rw [if_pos hcmdno]
  rcases responseServerOffer_cases hs writeString hcmdno with
    ⟨htarget, hoffer⟩ | ⟨addr, c, htarget, hconn, hc, hoffer⟩
  · rw [hoffer]
    exact Or.inr (Or.inl ⟨htarget, rfl⟩)
  · rw [hoffer]
    cases SignalingWorker.replyFrame c (writeString (SignalingWorker.resRoot msg)) with
    | ok resMsg => exact Or.inr (Or.inr ⟨addr, c, resMsg, htarget, hc, rfl⟩)
    | error fault =>
        simp only [Except.map]
        split
        · refine Or.inr (Or.inr ⟨addr, c, memory, htarget, hc, ?_⟩)
          simp only [WatchedWorker.overread, hconn, hc]
        · exact Or.inl ⟨fault, rfl⟩

theorem Owned.processRtcMsg (hs : s.Owned) (hblock : s.memory.blockAt block = none)
    (writeString : ResRoot → List UInt8) (msg : RtcMsg) (memory : ReplyMsg) :
    Follows (s.watched.processRtcMsg writeString msg memory)
      (s.processRtcMsg writeString msg memory block) := by
  rw [OwningWorker.processRtcMsg]
  rcases processRtcMsg_cases hs.registered writeString msg memory with
    ⟨fault, hfault⟩ | ⟨htarget, hok⟩ | ⟨addr, c, resMsg, htarget, hc, hok⟩
  · rw [hfault]
    exact .faults fault
  · rw [hok, lift_ok, WatchedWorker.ok_bind, htarget]
    exact .returns hs
  · rw [hok, lift_ok, WatchedWorker.ok_bind, htarget]
    have hbut := hs.but hc
    obtain ⟨before, things, hheld, hothers, hperm⟩ := hbut.held
    have hmiddle := hbut.update
      (p := { s.pointers addr with replyMsgs := (s.pointers addr).replyMsgs ++ [block] })
      (blocksOf c (s.pointers addr) ++ [⟨block, REPLY_SIZE⟩]) hheld hothers
      (hs.accounted.allocate hblock) (by
        rw [List.append_assoc]
        exact (hperm.cons _).trans List.perm_middle.symm)
    refine .returns (hmiddle.store hc (fun harmed => harmed.addReply resMsg) rfl ?_ ?_)
    · simp [SignalingWorker.addReply, hs.queued addr c hc]
    · simp [blocksOf, querybufSize, SignalingWorker.addReply]

theorem Owned.connTimerCb (hs : s.Owned) (haddr : addr ∈ s.watched.timers) (now : ℕ) :
    Follows (s.watched.connTimerCb addr now) (s.connTimerCb addr now) := by
  have hinstalled : addr ∈ s.watched.installed := hs.registered.timers ▸ haddr
  obtain ⟨c, hc, -⟩ := hs.registered.live addr hinstalled
  rw [WatchedWorker.connTimerCb, OwningWorker.connTimerCb, SignalingWorker.deref_eq_ok.mpr hc,
    lift_ok, WatchedWorker.ok_bind, WatchedWorker.ok_bind]
  split
  · exact (hs.but hc).closeConn hinstalled (ptrs_of_blocksOf _ _)
  · exact .returns hs

theorem Owned.connIoCb (hs : s.Owned) (haddr : addr ∈ s.watched.ioEvents)
    (hblock : s.memory.blockAt block = none) (fuel : ℕ) (mask : EventMask) (e : ReadEvent)
    (now : ℕ) (results : List WriteResult) (stays : Bool) :
    Follows (s.watched.connIoCb fuel addr mask e now results)
      (s.connIoCb fuel addr mask e now results block stays) := by
  obtain ⟨c, hc, -⟩ := hs.registered.live addr (hs.registered.ioEvents ▸ haddr)
  rw [WatchedWorker.connIoCb, OwningWorker.connIoCb, SignalingWorker.deref_eq_ok.mpr hc]
  refine Follows.bind ?_ ?_
  · split
    · exact hs.readConn fuel _ e hblock stays
    · exact .returns hs
  · intro middle hmiddle
    split
    · exact hmiddle.writeConn _ now results
    · exact .returns hmiddle

/-! ## Runs -/

variable {writeString : ResRoot → List UInt8} {fuel : ℕ} {a : Activation}

theorem Owned.callback (hs : s.Owned) (henabled : s.Enabled a) :
    Follows (s.watched.callback writeString fuel a.event) (s.callback writeString fuel a) := by
  obtain ⟨event, block, stays⟩ := a
  obtain ⟨henabled, hblock⟩ := henabled
  cases event with
  | newConn fd setup peer addr now =>
      exact hs.newConn henabled.1 henabled.2.1 henabled.2.2 hblock setup peer now
  | io addr mask e now results => exact hs.connIoCb henabled hblock fuel mask e now results stays
  | timer addr now => exact hs.connTimerCb henabled now
  | rtcMsg msg memory => exact hs.processRtcMsg hblock writeString msg memory

/-- **One callback** keeps every block with its owner, and does to the worker what it does
without the memory. -/
theorem Owned.step (hs : s.Owned) (hstep : s.step writeString fuel a = some next) :
    next.Owned ∧ s.watched.step writeString fuel a.event = some next.watched := by
  rw [OwningWorker.step] at hstep
  split at hstep
  swap
  · cases hstep
  rename_i henabled
  have hfollows := @Owned.callback s writeString fuel a hs henabled
  rw [WatchedWorker.step, if_pos henabled.1]
  cases hcallback : s.callback writeString fuel a with
  | error fault =>
      rw [hcallback] at hstep
      cases hstep
  | ok last =>
      rw [hcallback] at hstep hfollows
      cases hstep
      generalize s.watched.callback writeString fuel a.event = result at hfollows
      cases hfollows with
      | returns owned => exact ⟨owned, rfl⟩

end Xrtc.Server.OwningWorker
