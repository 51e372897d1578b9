/-
# The connection table

A table is consistent when every entry points to a live connection that carries
the entry's own number. Since a connection carries one number, no two entries
share a connection, and a callback that changes one connection leaves the
lookups of all others alone. Every operation on the table is described here
once, by what it does to the lookups.
-/

import Xrtc.Server.SignalingWorker

namespace Xrtc.Server.SignalingWorker

open Xrtc.Machine Xrtc.Base

/-- The live connection with a descriptor number, if the table has one. -/
def lookup (w : SignalingWorker) (fd : ℤ) : Option TcpConnection :=
  if fd < 0 then none else (w.connAt fd).bind w.heap

/-- Every entry points to a live connection with the entry's number, and the
size of the table is an `int`. -/
structure Consistent (w : SignalingWorker) : Prop where
  size_lt : w.conns.length < 2 ^ 31
  entry : ∀ fd : ℤ, 0 ≤ fd → ∀ addr, w.connAt fd = some addr →
    ∃ c, w.heap addr = some c ∧ c.fd = fd

variable {w : SignalingWorker} {fd other : ℤ} {addr : Addr} {c c' : TcpConnection}

theorem consistent_empty (timeout : ℤ) : Consistent { connectionTimeoutMs := timeout } := by
  refine ⟨Nat.two_pow_pos 31, ?_⟩
  intro fd _ addr haddr
  simp [connAt] at haddr

theorem connAt_lt (haddr : w.connAt fd = some addr) : fd.toNat < w.conns.length := by
  by_contra hout
  rw [connAt, List.getElem?_eq_none (not_lt.mp hout)] at haddr
  cases haddr

/-- A connection that is found has its address in the table. -/
theorem lookup_eq_some_iff (hw : w.Consistent) :
    w.lookup fd = some c ↔
      0 ≤ fd ∧ c.fd = fd ∧ ∃ addr, w.connAt fd = some addr ∧ w.heap addr = some c := by
  unfold lookup
  constructor
  · intro hlookup
    split at hlookup
    · cases hlookup
    · rename_i hfd
      obtain ⟨addr, haddr, hheap⟩ := Option.bind_eq_some_iff.mp hlookup
      obtain ⟨c', hc', hfd'⟩ := hw.entry fd (not_lt.mp hfd) addr haddr
      rw [hheap] at hc'
      cases hc'
      exact ⟨not_lt.mp hfd, hfd', addr, haddr, hheap⟩
  · rintro ⟨hfd, -, addr, haddr, hheap⟩
    rw [if_neg (not_lt.mpr hfd), haddr]
    exact hheap

/-- An empty entry, a number outside the table, or a negative one. -/
theorem lookup_eq_none_iff (hw : w.Consistent) :
    w.lookup fd = none ↔ 0 ≤ fd → w.connAt fd = none := by
  unfold lookup
  constructor
  · intro hlookup hfd
    rw [if_neg (not_lt.mpr hfd)] at hlookup
    cases haddr : w.connAt fd with
    | none => rfl
    | some addr =>
        obtain ⟨c, hc, -⟩ := hw.entry fd hfd addr haddr
        rw [haddr] at hlookup
        rw [Option.bind_some, hc] at hlookup
        cases hlookup
  · intro hnone
    split
    · rfl
    · rename_i hfd
      rw [hnone (not_lt.mp hfd)]
      rfl

/-! ## Storing and removing a connection -/

theorem connAt_store : (w.store addr c).connAt fd = w.connAt fd := rfl

theorem Consistent.store (hw : w.Consistent) (hheap : w.heap addr = some c)
    (hfd : c'.fd = c.fd) : (w.store addr c').Consistent := by
  refine ⟨hw.size_lt, ?_⟩
  intro n hn a ha
  obtain ⟨d, hd, hdfd⟩ := hw.entry n hn a ha
  by_cases hsame : a = addr
  · subst hsame
    rw [hheap] at hd
    cases hd
    exact ⟨c', Function.update_self _ _ _, hfd.trans hdfd⟩
  · exact ⟨d, (Function.update_of_ne hsame _ _).trans hd, hdfd⟩

theorem lookup_store_self (hfd : 0 ≤ fd) (haddr : w.connAt fd = some addr) :
    (w.store addr c').lookup fd = some c' := by
  rw [lookup, if_neg (not_lt.mpr hfd), connAt_store, haddr]
  exact Function.update_self _ _ _

/-- Other numbers have other addresses. -/
theorem Consistent.addr_ne (hw : w.Consistent) (hheap : w.heap addr = some c)
    (hother : 0 ≤ other) (hne : other ≠ c.fd) : w.connAt other ≠ some addr := by
  intro hsame
  obtain ⟨d, hd, hdfd⟩ := hw.entry other hother addr hsame
  rw [hheap] at hd
  cases hd
  exact hne hdfd.symm

/-- No entry holds a free address. -/
theorem Consistent.ne_of_free {free : Addr} (hw : w.Consistent) (hfree : w.heap free = none)
    (hfd : 0 ≤ fd) (haddr : w.connAt fd = some addr) : addr ≠ free := by
  rintro rfl
  obtain ⟨c, hc, -⟩ := hw.entry fd hfd addr haddr
  rw [hfree] at hc
  cases hc

theorem lookup_store_of_ne (hw : w.Consistent) (hheap : w.heap addr = some c)
    (hne : other ≠ c.fd) : (w.store addr c').lookup other = w.lookup other := by
  unfold lookup
  split
  · rfl
  · rename_i hother
    rw [connAt_store]
    cases ha : w.connAt other with
    | none => rfl
    | some a =>
        have hdiff : a ≠ addr := by
          rintro rfl
          exact hw.addr_ne hheap (not_lt.mp hother) hne ha
        exact Function.update_of_ne hdiff _ _

/-- Closing a connection of the table clears its entry and nothing else. -/
theorem closeConn_spec (hw : w.Consistent) (hfd : 0 ≤ fd) (haddr : w.connAt fd = some addr) :
    ∃ next, w.closeConn addr = .ok next ∧ next.Consistent ∧ next.lookup fd = none ∧
      ∀ other, other ≠ fd → next.lookup other = w.lookup other := by
  obtain ⟨c, hheap, hcfd⟩ := hw.entry fd hfd addr haddr
  have hlt := connAt_lt haddr
  let next : SignalingWorker :=
    { w with
      conns := w.conns.set fd.toNat none
      heap := Function.update w.heap addr none }
  have hclose : w.closeConn addr = .ok next := by
    rw [closeConn, deref, hheap]
    simp only [Option.elim_some, bind, Except.bind, removeConn, hcfd]
    rw [if_pos ⟨hfd, hlt⟩]
  have hself : next.connAt fd = none := by
    rw [connAt, List.getElem?_set_self hlt]
    rfl
  have hconns (n : ℤ) (hn : 0 ≤ n) (hne : n ≠ fd) : next.connAt n = w.connAt n := by
    rw [connAt, List.getElem?_set_ne (by omega)]
    rfl
  have hheap_ne (n : ℤ) (hn : 0 ≤ n) (hne : n ≠ fd) (a : Addr) (ha : w.connAt n = some a) :
      next.heap a = w.heap a := by
    refine Function.update_of_ne ?_ _ _
    rintro rfl
    exact hw.addr_ne hheap hn (hcfd ▸ hne) ha
  refine ⟨next, hclose, ⟨?_, ?_⟩, ?_, ?_⟩
  · rw [List.length_set]
    exact hw.size_lt
  · intro n hn a ha
    by_cases hsame : n = fd
    · rw [hsame, hself] at ha
      cases ha
    · rw [hconns n hn hsame] at ha
      rw [hheap_ne n hn hsame a ha]
      exact hw.entry n hn a ha
  · rw [lookup, if_neg (not_lt.mpr hfd), hself]
    rfl
  · intro n hne
    unfold lookup
    split
    · rfl
    · rename_i hn
      rw [hconns n (not_lt.mp hn) hne]
      cases ha : w.connAt n with
      | none => rfl
      | some a => exact hheap_ne n (not_lt.mp hn) hne a ha

/-! ## Installing a connection -/

/-- Every entry keeps its place in the grown table, and a positive descriptor
below `2 ^ 30` finds its own. -/
theorem grownTable_spec (hfd : 0 ≤ fd) (hlt : fd < 2 ^ 30) (hsize : w.conns.length < 2 ^ 31) :
    ∃ conns, grownTable w.conns fd = .ok conns ∧ (1 ≤ fd → fd.toNat < conns.length) ∧
      conns.length < 2 ^ 31 ∧ ∀ n : ℕ, (conns[n]?).join = (w.conns[n]?).join := by
  have hindex := toSize_of_nonneg (show 0 ≤ fd by omega) (by omega)
  have hdouble : toSize (toInt32 (fd * 2)) = 2 * fd.toNat := by
    rw [toInt32_of_range (by omega) (by omega)]
    unfold toSize
    omega
  by_cases hshort : w.conns.length ≤ fd.toNat
  · refine ⟨w.conns ++ List.replicate (2 * fd.toNat - w.conns.length) none, ?_, ?_, ?_, ?_⟩
    · have hbound : MAX_TABLE_SIZE = 2 ^ 60 - 1 := rfl
      rw [grownTable, hindex, if_pos hshort, hdouble]
      simp only
      rw [if_neg (by omega), List.take_of_length_le (by omega)]
    · intro hpos
      rw [List.length_append, List.length_replicate]
      omega
    · rw [List.length_append, List.length_replicate]
      omega
    · intro n
      rw [List.getElem?_append]
      split
      · rfl
      · rename_i hout
        rw [List.getElem?_eq_none (not_lt.mp hout), List.getElem?_replicate]
        split <;> rfl
  · refine ⟨w.conns, ?_, fun _ => not_le.mp hshort, hsize, fun _ => rfl⟩
    rw [grownTable, hindex, if_neg hshort]

/-- Larger descriptors overflow the `int` product, and the table refuses to grow. -/
theorem grownTable_of_large (hfd : 2 ^ 30 ≤ fd) (hlt : fd < 2 ^ 31)
    (hshort : w.conns.length ≤ fd.toNat) : grownTable w.conns fd = .error .aborted := by
  have hindex := toSize_of_nonneg (show 0 ≤ fd by omega) (by omega)
  have hdouble : toSize (toInt32 (fd * 2)) > MAX_TABLE_SIZE := by
    rw [toInt32_of_high (by omega) (by omega)]
    unfold toSize MAX_TABLE_SIZE
    omega
  rw [grownTable, hindex, if_pos hshort]
  simp only
  rw [if_pos hdouble]

/-- Whatever the descriptor, a table that grows keeps its entries. -/
theorem grownTable_keeps {conns : List (Option Addr)} (hfd : 0 ≤ fd) (hlt : fd < 2 ^ 31)
    (hsize : w.conns.length < 2 ^ 31) (hgrown : grownTable w.conns fd = .ok conns) :
    conns.length < 2 ^ 31 ∧ ∀ n : ℕ, (conns[n]?).join = (w.conns[n]?).join := by
  by_cases hsmall : fd < 2 ^ 30
  · obtain ⟨conns', hgrown', -, hsize', hsame⟩ := grownTable_spec hfd hsmall hsize
    rw [hgrown] at hgrown'
    cases hgrown'
    exact ⟨hsize', hsame⟩
  · by_cases hshort : w.conns.length ≤ fd.toNat
    · rw [grownTable_of_large (not_lt.mp hsmall) hlt hshort] at hgrown
      cases hgrown
    · have hindex := toSize_of_nonneg (show 0 ≤ fd by omega) (by omega)
      rw [grownTable, hindex, if_neg hshort] at hgrown
      cases hgrown
      exact ⟨hsize, fun _ => rfl⟩

/-- An entry of the table in which a connection has just been put. -/
theorem entry_of_set {conns : List (Option Addr)} {n : ℤ} {a : Addr} (hfd : 0 ≤ fd)
    (hplace : fd.toNat < conns.length)
    (hsame : ∀ n : ℕ, (conns[n]?).join = (w.conns[n]?).join) (hn : 0 ≤ n)
    (ha : ((conns.set fd.toNat (some addr))[n.toNat]?).join = some a) :
    (n = fd ∧ a = addr) ∨ w.connAt n = some a := by
  by_cases heq : n = fd
  · subst heq
    rw [List.getElem?_set_self hplace] at ha
    cases ha
    exact Or.inl ⟨rfl, rfl⟩
  · rw [List.getElem?_set_ne (by omega), hsame] at ha
    exact Or.inr ha

/-- **A new connection** at an unused address and an unused number: it is found
under its number, and no other number notices. -/
theorem newConn_spec (hw : w.Consistent) (hfd : 1 ≤ fd) (hlt : fd < 2 ^ 30)
    (hfree : w.heap addr = none) (now : ℕ) :
    ∃ next, w.newConn fd true true addr now = .ok next ∧ next.Consistent ∧
      next.connAt fd = some addr ∧ next.heap = Function.update w.heap addr (some (fresh fd now)) ∧
      next.lookup fd = some (fresh fd now) ∧
      ∀ other, other ≠ fd → next.lookup other = w.lookup other := by
  obtain ⟨conns, hgrown, hplace, hsize, hsame⟩ := grownTable_spec (by omega) hlt hw.size_lt
  have hindex := hplace hfd
  let next : SignalingWorker :=
    { w with conns := conns.set fd.toNat (some addr) }.store addr (fresh fd now)
  have hnew : w.newConn fd true true addr now = .ok next := by
    rw [newConn, if_neg (by omega), if_neg (by decide), if_neg (by decide), hgrown]
    simp only [bind, Except.bind]
    rw [if_pos hindex]
  have htable : next.conns = conns.set fd.toNat (some addr) := rfl
  have hself : next.connAt fd = some addr := by
    rw [connAt, htable, List.getElem?_set_self hindex]
    rfl
  have hconns (n : ℤ) (hn : 0 ≤ n) (hne : n ≠ fd) : next.connAt n = w.connAt n := by
    rw [connAt, htable, List.getElem?_set_ne (by omega)]
    exact hsame n.toNat
  have hheap_self : next.heap addr = some (fresh fd now) := Function.update_self _ _ _
  have hheap_ne (n : ℤ) (hn : 0 ≤ n) (a : Addr) (ha : w.connAt n = some a) :
      next.heap a = w.heap a :=
    Function.update_of_ne (hw.ne_of_free hfree hn ha) _ _
  refine ⟨next, hnew, ⟨?_, ?_⟩, hself, rfl, ?_, ?_⟩
  · rw [htable, List.length_set]
    exact hsize
  · intro n hn a ha
    by_cases heq : n = fd
    · rw [heq, hself] at ha
      cases ha
      exact ⟨fresh fd now, hheap_self, heq.symm⟩
    · rw [hconns n hn heq] at ha
      rw [hheap_ne n hn a ha]
      exact hw.entry n hn a ha
  · rw [lookup, if_neg (by omega), hself]
    exact hheap_self
  · intro n hne
    unfold lookup
    split
    · rfl
    · rename_i hn
      rw [hconns n (not_lt.mp hn) hne]
      cases ha : w.connAt n with
      | none => rfl
      | some a => exact hheap_ne n (not_lt.mp hn) a ha

/-! ## Reading through the table -/

variable {fuel : ℕ} {e : ReadEvent}

theorem readConn_of_lookup_none (hw : w.Consistent) (hnone : w.lookup fd = none) :
    w.readConn fuel fd e = .ok (w, []) := by
  unfold readConn
  split
  · rfl
  · rename_i hrange
    have hfd : 0 ≤ fd := not_lt.mp fun hneg => hrange (Or.inl hneg)
    rw [(lookup_eq_none_iff hw).mp hnone hfd]

/-- A connection of the table passes the range guard, and its own activation
decides what becomes of the worker. -/
theorem readConn_of_lookup (hw : w.Consistent) (hlookup : w.lookup fd = some c) :
    ∃ addr, w.connAt fd = some addr ∧ w.heap addr = some c ∧ 0 ≤ fd ∧ c.fd = fd ∧
      w.readConn fuel fd e = w.afterRead addr (c.readConn e.ret fuel e.now e.result) := by
  obtain ⟨hfd, hcfd, addr, haddr, hheap⟩ := (lookup_eq_some_iff hw).mp hlookup
  refine ⟨addr, haddr, hheap, hfd, hcfd, ?_⟩
  have hsize : toInt32 w.conns.length = w.conns.length :=
    toInt32_of_range (by omega) (by have := hw.size_lt; omega)
  have hlt := connAt_lt haddr
  rw [readConn, hsize, if_neg (by omega)]
  simp only [haddr, deref, hheap, Option.elim_some, bind, Except.bind]

/-- **A read on one descriptor**: a kept connection replaces the old one, a
closed one leaves the table, and no other descriptor notices. -/
theorem readConn_spec (fuel : ℕ) (e : ReadEvent) (hw : w.Consistent)
    (hlookup : w.lookup fd = some c) :
    (∀ next made, c.readConn e.ret fuel e.now e.result = .kept next made →
        ∃ w', w.readConn fuel fd e = .ok (w', made) ∧ w'.Consistent ∧
          w'.lookup fd = some next ∧ ∀ other, other ≠ fd → w'.lookup other = w.lookup other) ∧
      (∀ made, c.readConn e.ret fuel e.now e.result = .closed made →
        ∃ w', w.readConn fuel fd e = .ok (w', made) ∧ w'.Consistent ∧
          w'.lookup fd = none ∧ ∀ other, other ≠ fd → w'.lookup other = w.lookup other) := by
  obtain ⟨addr, haddr, hheap, hfd, hcfd, hread⟩ := readConn_of_lookup hw hlookup
  constructor
  · intro next made hkept
    have hnext := (TcpConnection.frame_of_readConn hkept).1
    refine ⟨w.store addr next, ?_, hw.store hheap hnext, lookup_store_self hfd haddr, ?_⟩
    · rw [hread, hkept, afterRead]
    · intro other hne
      exact lookup_store_of_ne hw hheap (hcfd ▸ hne)
  · intro made hclosed
    obtain ⟨w', hclose, hw', hnone, hothers⟩ := closeConn_spec hw hfd haddr
    refine ⟨w', ?_, hw', hnone, hothers⟩
    rw [hread, hclosed, afterRead, hclose]
    rfl

/-! ## What every callback keeps

Below, a callback is described by what holds whenever it returns, with no
assumption on its arguments. -/

/-- No entry of the table is new. -/
def Shrinks (w next : SignalingWorker) : Prop :=
  ∀ fd, 0 ≤ fd → ∀ addr, next.connAt fd = some addr → w.connAt fd = some addr

variable {next : SignalingWorker}

theorem deref_eq_ok : w.deref addr = .ok c ↔ w.heap addr = some c := by
  rw [deref]
  cases w.heap addr <;> simp

theorem bind_eq_ok {ε α β : Type} {x : Except ε α} {f : α → Except ε β} {result : β} :
    (x >>= f) = .ok result ↔ ∃ value, x = .ok value ∧ f value = .ok result := by
  cases x <;> simp [bind, Except.bind]

theorem map_eq_ok {ε α β : Type} {x : Except ε α} {f : α → β} {result : β} :
    x.map f = .ok result ↔ ∃ value, x = .ok value ∧ f value = result := by
  cases x <;> simp [Except.map]

theorem removeConn_eq_ok :
    w.removeConn addr c = .ok next ↔ (0 ≤ c.fd ∧ c.fd.toNat < w.conns.length) ∧
      next = { w with
        conns := w.conns.set c.fd.toNat none
        heap := Function.update w.heap addr none } := by
  rw [removeConn]
  split
  · rename_i hrange
    simp [hrange, eq_comm]
  · rename_i hrange
    simp [hrange]

theorem removeConn_keeps (hw : w.Consistent) (hheap : w.heap addr = some c)
    (hremove : w.removeConn addr c = .ok next) : next.Consistent ∧ w.Shrinks next := by
  obtain ⟨hrange, rfl⟩ := removeConn_eq_ok.mp hremove
  have hentry (n : ℤ) (hn : 0 ≤ n) (a : Addr)
      (ha : ((w.conns.set c.fd.toNat none)[n.toNat]?).join = some a) :
      n ≠ c.fd ∧ w.connAt n = some a := by
    have hne : n ≠ c.fd := by
      rintro rfl
      rw [List.getElem?_set_self hrange.2] at ha
      cases ha
    rw [List.getElem?_set_ne (by omega)] at ha
    exact ⟨hne, ha⟩
  refine ⟨⟨?_, ?_⟩, ?_⟩
  · rw [List.length_set]
    exact hw.size_lt
  · intro n hn a ha
    obtain ⟨hne, ha'⟩ := hentry n hn a ha
    have hdiff : a ≠ addr := by
      rintro rfl
      exact hw.addr_ne hheap hn hne ha'
    obtain ⟨d, hd, hdfd⟩ := hw.entry n hn a ha'
    exact ⟨d, (Function.update_of_ne hdiff _ _).trans hd, hdfd⟩
  · intro n hn a ha
    exact (hentry n hn a ha).2

theorem closeConn_keeps (hw : w.Consistent) (hclose : w.closeConn addr = .ok next) :
    next.Consistent ∧ w.Shrinks next := by
  obtain ⟨c, hc, hremove⟩ := bind_eq_ok.mp hclose
  exact removeConn_keeps hw (deref_eq_ok.mp hc) hremove

/-- Storing a connection with the number of the old one changes no entry. -/
theorem store_keeps (hw : w.Consistent) (hheap : w.heap addr = some c) (hfd : c'.fd = c.fd) :
    (w.store addr c').Consistent ∧ w.Shrinks (w.store addr c') :=
  ⟨hw.store hheap hfd, fun _ _ _ ha => ha⟩

theorem readConn_keeps {calls : List RequestCall} (hw : w.Consistent)
    (hread : w.readConn fuel fd e = .ok (next, calls)) :
    next.Consistent ∧ w.Shrinks next ∧ (calls ≠ [] → 0 ≤ fd) := by
  rw [readConn] at hread
  split at hread
  · cases hread
    exact ⟨hw, fun _ _ _ ha => ha, fun hne => absurd rfl hne⟩
  · rename_i hrange
    have hfd : 0 ≤ fd := not_lt.mp fun hneg => hrange (Or.inl hneg)
    split at hread
    · cases hread
      exact ⟨hw, fun _ _ _ ha => ha, fun _ => hfd⟩
    · rename_i addr haddr
      obtain ⟨c, hc, hafter⟩ := bind_eq_ok.mp hread
      cases houtcome : c.readConn e.ret fuel e.now e.result with
      | kept last made =>
          rw [houtcome, afterRead] at hafter
          cases hafter
          obtain ⟨hconsistent, hshrinks⟩ := store_keeps hw (deref_eq_ok.mp hc)
            (TcpConnection.frame_of_readConn houtcome).1
          exact ⟨hconsistent, hshrinks, fun _ => hfd⟩
      | closed made =>
          rw [houtcome, afterRead] at hafter
          obtain ⟨closed, hclose, hresult⟩ := map_eq_ok.mp hafter
          cases hresult
          obtain ⟨hconsistent, hshrinks⟩ := closeConn_keeps hw hclose
          exact ⟨hconsistent, hshrinks, fun _ => hfd⟩
      | aborted | overrun | looping =>
          rw [houtcome, afterRead] at hafter
          cases hafter

theorem writeConn_keeps {now : ℕ} {results : List WriteResult} {sent : List UInt8}
    (hw : w.Consistent) (hwrite : w.writeConn fd now results = .ok (next, sent)) :
    next.Consistent ∧ w.Shrinks next := by
  rw [writeConn] at hwrite
  split at hwrite
  · cases hwrite
    exact ⟨hw, fun _ _ _ ha => ha⟩
  · split at hwrite
    · cases hwrite
      exact ⟨hw, fun _ _ _ ha => ha⟩
    · rename_i addr haddr
      obtain ⟨c, hc, hafter⟩ := bind_eq_ok.mp hwrite
      simp only at hafter
      split at hafter
      · obtain ⟨closed, hclose, hresult⟩ := map_eq_ok.mp hafter
        cases hresult
        exact closeConn_keeps hw hclose
      · split at hafter
        · cases hafter
        · cases hafter
          exact store_keeps hw (deref_eq_ok.mp hc) rfl

theorem processTimeout_keeps {now : ℕ} (hw : w.Consistent)
    (htimeout : w.processTimeout addr now = .ok next) : next.Consistent ∧ w.Shrinks next := by
  obtain ⟨c, hc, hafter⟩ := bind_eq_ok.mp htimeout
  split at hafter
  · exact removeConn_keeps hw (deref_eq_ok.mp hc) hafter
  · cases hafter
    exact ⟨hw, fun _ _ _ ha => ha⟩

/-- A reply is queued only where the table has the message's own address under
the message's own number. -/
theorem responseServerOffer_keeps {writeString : ResRoot → List UInt8} {msg : RtcMsg}
    {target : Option Addr} (hw : w.Consistent)
    (hreply : w.responseServerOffer writeString msg = .ok (next, target)) :
    next.Consistent ∧ w.Shrinks next ∧
      ∀ addr, target = some addr → msg.conn = some addr ∧ 0 ≤ msg.fd ∧
        w.connAt msg.fd = some addr := by
  have hdropped : next = w ∧ target = none → next.Consistent ∧ w.Shrinks next ∧
      ∀ addr, target = some addr → msg.conn = some addr ∧ 0 ≤ msg.fd ∧
        w.connAt msg.fd = some addr := by
    rintro ⟨rfl, rfl⟩
    exact ⟨hw, fun _ _ _ ha => ha, fun _ hnone => by cases hnone⟩
  rw [responseServerOffer] at hreply
  split at hreply
  · cases hreply
    exact hdropped ⟨rfl, rfl⟩
  · rename_i addr hconn
    split at hreply
    · cases hreply
      exact hdropped ⟨rfl, rfl⟩
    · rename_i hrange
      split at hreply
      · cases hreply
        exact hdropped ⟨rfl, rfl⟩
      · rename_i hentry
        obtain ⟨c, hc, hrest⟩ := bind_eq_ok.mp hreply
        obtain ⟨resMsg, -, hqueued⟩ := bind_eq_ok.mp hrest
        cases hqueued
        have hfd : (addReply c resMsg).fd = c.fd := rfl
        obtain ⟨hconsistent, hshrinks⟩ := store_keeps hw (deref_eq_ok.mp hc) hfd
        refine ⟨hconsistent, hshrinks, ?_⟩
        intro target htarget
        cases htarget
        exact ⟨hconn, by omega, not_not.mp hentry⟩

/-- The ways in which `_new_conn` returns. -/
theorem newConn_cases {setup peer : Bool} {now : ℕ} (hw : w.Consistent) (hlt : fd < 2 ^ 31)
    (hfree : w.heap addr = none) (hnew : w.newConn fd setup peer addr now = .ok next) :
    next.Consistent ∧
      ∀ n, 0 ≤ n → ∀ a, next.connAt n = some a →
        (n = fd ∧ a = addr ∧ setup = true ∧ peer = true) ∨ a ≠ addr ∧ w.connAt n = some a := by
  have hlive (n : ℤ) (hn : 0 ≤ n) (a : Addr) (ha : w.connAt n = some a) : a ≠ addr :=
    hw.ne_of_free hfree hn ha
  rw [newConn] at hnew
  split at hnew
  · cases hnew
    exact ⟨hw, fun n hn a ha => Or.inr ⟨hlive n hn a ha, ha⟩⟩
  rename_i hfd
  split at hnew
  · cases hnew
    exact ⟨hw, fun n hn a ha => Or.inr ⟨hlive n hn a ha, ha⟩⟩
  rename_i hsetup
  split at hnew
  · -- the connection is leaked: it is on the heap and in no entry
    cases hnew
    refine ⟨⟨hw.size_lt, ?_⟩, fun n hn a ha => Or.inr ⟨hlive n hn a ha, ha⟩⟩
    intro n hn a ha
    obtain ⟨d, hd, hdfd⟩ := hw.entry n hn a ha
    exact ⟨d, (Function.update_of_ne (hlive n hn a ha) _ _).trans hd, hdfd⟩
  · rename_i hpeer
    obtain ⟨conns, hgrown, hplaced⟩ := bind_eq_ok.mp hnew
    split at hplaced
    swap
    · cases hplaced
    rename_i hindex
    cases hplaced
    have hsame := grownTable_keeps (not_lt.mp hfd) hlt hw.size_lt hgrown
    have hentry (n : ℤ) (hn : 0 ≤ n) (a : Addr)
        (ha : ((conns.set fd.toNat (some addr))[n.toNat]?).join = some a) :
        (n = fd ∧ a = addr ∧ setup = true ∧ peer = true) ∨ a ≠ addr ∧ w.connAt n = some a := by
      rcases entry_of_set (not_lt.mp hfd) hindex hsame.2 hn ha with ⟨hnumber, haddr⟩ | hold
      · exact Or.inl ⟨hnumber, haddr, by simpa using hsetup, by simpa using hpeer⟩
      · exact Or.inr ⟨hlive n hn a hold, hold⟩
    refine ⟨⟨?_, ?_⟩, hentry⟩
    · rw [SignalingWorker.store, List.length_set]
      exact hsame.1
    · intro n hn a ha
      rcases hentry n hn a ha with ⟨rfl, rfl, -, -⟩ | ⟨hdiff, ha'⟩
      · exact ⟨fresh n now, Function.update_self _ _ _, rfl⟩
      · obtain ⟨d, hd, hdfd⟩ := hw.entry n hn a ha'
        exact ⟨d, (Function.update_of_ne hdiff _ _).trans hd, hdfd⟩

end Xrtc.Server.SignalingWorker
