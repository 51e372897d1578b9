/-
# The range checks around the connection table

Four functions decide by hand-written comparisons whether a descriptor belongs
to the table: `_new_conn` lets every non-negative number in and doubles the table
where it is too short, `_read_conn` compares with the size as an `int`,
`_write_conn` and `_response_server_offer` with the size as a `size_t` and with
zero excluded. This module says for which descriptors they agree: a connection
that has just been put into the table can be read and answered exactly when its
number is positive and either below a size that an `int` can hold or small enough
to be doubled.
-/

import Xrtc.Server.ConnTable

namespace Xrtc.Server.SignalingWorker

open Xrtc.Machine Xrtc.Base

/-- The descriptors that pass the range check of `_read_conn`. -/
def readRange (conns : List (Option Addr)) (fd : ℤ) : Prop :=
  ¬(fd < 0 ∨ fd ≥ toInt32 conns.length)

/-- The descriptors that pass the range check of `_write_conn`. -/
def writeRange (conns : List (Option Addr)) (fd : ℤ) : Prop :=
  ¬(fd ≤ 0 ∨ toSize fd ≥ conns.length)

/-- The descriptors that pass the range check of `_response_server_offer`. -/
def offerRange (conns : List (Option Addr)) (fd : ℤ) : Prop :=
  ¬(fd ≤ 0 ∨ toSize fd ≥ conns.length)

variable {w : SignalingWorker} {fd : ℤ} {addr : Addr} {c : TcpConnection}

/-! ## The table that `_new_conn` writes to -/

theorem toSize_int (hfd : 0 ≤ fd) (hint : fd < 2 ^ 31) : toSize fd = fd.toNat :=
  toSize_of_nonneg hfd (by omega)

/-- A table that has the entry already is left as it is. -/
theorem grownTable_inside {conns : List (Option Addr)} (hfd : 0 ≤ fd) (hint : fd < 2 ^ 31)
    (hinside : fd < conns.length) : grownTable conns fd = .ok conns := by
  rw [grownTable, toSize_int hfd hint, if_neg (by omega)]

/-- A shorter one is doubled behind the new number, as long as the product is an
`int`. -/
theorem grownTable_outside {conns : List (Option Addr)} (hfd : 0 ≤ fd) (hsmall : fd < 2 ^ 30)
    (houtside : conns.length ≤ fd) :
    grownTable conns fd =
      .ok (conns ++ List.replicate (2 * fd.toNat - conns.length) none) := by
  have hbound : MAX_TABLE_SIZE = 2 ^ 60 - 1 := rfl
  have hdouble : toSize (toInt32 (fd * 2)) = 2 * fd.toNat := by
    rw [toInt32_of_range (by omega) (by omega), toSize_of_nonneg (by omega) (by omega)]
    omega
  rw [grownTable, toSize_int hfd (by omega), if_pos (by omega), hdouble]
  simp only
  rw [if_neg (by omega), List.take_of_length_le (by omega)]

/-- The worker after `_new_conn` has put the connection into the table `conns`. -/
def installed (w : SignalingWorker) (conns : List (Option Addr)) (fd : ℤ) (addr : Addr)
    (now : ℕ) : SignalingWorker :=
  { w with conns := conns.set fd.toNat (some addr) }.store addr (fresh fd now)

@[simp]
theorem conns_installed (conns : List (Option Addr)) (now : ℕ) :
    (w.installed conns fd addr now).conns = conns.set fd.toNat (some addr) := rfl

/-- A call that reaches the table ends in one of two ways. -/
theorem newConn_of_grown {conns : List (Option Addr)} (hfd : 0 ≤ fd)
    (hgrown : grownTable w.conns fd = .ok conns) (now : ℕ) :
    w.newConn fd true true addr now =
      if fd.toNat < conns.length then .ok (w.installed conns fd addr now)
      else .error .outOfRange := by
  rw [newConn, if_neg (not_lt.mpr hfd), if_neg (by decide), if_neg (by decide), hgrown]
  rfl

/-- The calls that do not reach the table leave it alone. -/
theorem newConn_not_installed {setup peer : Bool} (hfd : 0 ≤ fd)
    (hfails : ¬(setup = true ∧ peer = true)) (now : ℕ) :
    ∃ next, w.newConn fd setup peer addr now = .ok next ∧ next.conns = w.conns := by
  rw [newConn, if_neg (not_lt.mpr hfd)]
  cases setup with
  | false => exact ⟨w, rfl, rfl⟩
  | true =>
      cases peer with
      | false => exact ⟨w.store addr { fd := fd }, rfl, rfl⟩
      | true => exact absurd ⟨rfl, rfl⟩ hfails

/-! ## Connections that are served -/

/-- What the connection at `addr` needs in order to be served under the number
`fd`: a place of its own in the table, which all three checks accept. -/
structure Served (w : SignalingWorker) (fd : ℤ) (addr : Addr) : Prop where
  place : fd.toNat < w.conns.length
  entry : w.connAt fd = some addr
  read : readRange w.conns fd
  write : writeRange w.conns fd
  offer : offerRange w.conns fd

/-! ## What a range check decides -/

/-- A read on a served connection reaches it. -/
theorem Served.readConn_eq (hserved : w.Served fd addr) (hheap : w.heap addr = some c)
    (fuel : ℕ) (e : ReadEvent) :
    w.readConn fuel fd e = w.afterRead addr (c.readConn e.ret fuel e.now e.result) := by
  rw [readConn, if_neg hserved.read, hserved.entry]
  simp only [deref, hheap, Option.elim_some, bind, Except.bind]

/-- A reply for a served connection is queued on it. -/
theorem Served.responseServerOffer_eq {writeString : ResRoot → List UInt8} {msg : RtcMsg}
    (hserved : w.Served msg.fd addr) (hheap : w.heap addr = some c)
    (hconn : msg.conn = some addr) :
    w.responseServerOffer writeString msg =
      (replyFrame c (writeString (resRoot msg))).map fun resMsg =>
        (w.store addr (addReply c resMsg), some addr) := by
  rw [responseServerOffer, hconn]
  simp only
  rw [if_neg hserved.offer, if_neg (not_not.mpr hserved.entry)]
  simp only [deref, hheap, Option.elim_some, bind, Except.bind]
  cases replyFrame c (writeString (resRoot msg)) <;> rfl

/-- What is queued on a served connection goes out, when its socket takes it. -/
theorem Served.writeConn_eq {results : List WriteResult} {sent : List UInt8}
    (hserved : w.Served fd addr) (hheap : w.heap addr = some c)
    (hloop : WriteState.writeLoop { replyMsgs := c.replyMsgs } results =
      { replyMsgs := [], sent := sent }) (now : ℕ) :
    ∃ c', w.writeConn fd now results = .ok (w.store addr c', sent) := by
  rw [writeConn, if_neg hserved.write, hserved.entry]
  simp only [deref, hheap, Option.elim_some, bind, Except.bind, hloop]
  exact ⟨_, rfl⟩

/-- The descriptor 0 is never written to and never answered, in whatever table. -/
theorem zero_unanswered (w : SignalingWorker) :
    (∀ (now : ℕ) (results : List WriteResult), w.writeConn 0 now results = .ok (w, [])) ∧
      ∀ (writeString : ResRoot → List UInt8) (msg : RtcMsg), msg.fd = 0 →
        w.responseServerOffer writeString msg = .ok (w, none) := by
  refine ⟨fun now results => rfl, ?_⟩
  intro writeString msg hzero
  rw [responseServerOffer]
  split
  · rfl
  · rw [if_pos (Or.inl hzero.le)]

/-! ## The descriptors on which the checks agree -/

/-- `_new_conn` does its work: the product `fd * 2` is not evaluated where it
leaves the type `int`, the call returns, every other entry stays, and a connection
that was installed is served. -/
def Admits (w : SignalingWorker) (fd : ℤ) (setup peer : Bool) (addr : Addr) (now : ℕ) : Prop :=
  (setup = true ∧ peer = true → toSize fd ≥ w.conns.length → fd * 2 < 2 ^ 31) ∧
    ∃ next, w.newConn fd setup peer addr now = .ok next ∧
      (∀ i : ℕ, i < w.conns.length → i ≠ fd.toNat → next.conns[i]? = w.conns[i]?) ∧
      (setup = true ∧ peer = true → next.Served fd addr)

/-- The descriptors on which the checks agree, for a table of the given size. -/
def Agreed (size : ℕ) (fd : ℤ) : Prop :=
  0 < fd ∧ (fd < size ∧ fd < toInt32 size ∨ size ≤ fd ∧ fd < 2 ^ 30)

/-- A connection in a table that has room for it and whose size an `int` can
tell. -/
theorem served_installed {conns : List (Option Addr)} (hpos : 0 < fd) (hint : fd < 2 ^ 31)
    (hplace : fd < conns.length) (hsize : fd < toInt32 conns.length) (now : ℕ) :
    (w.installed conns fd addr now).Served fd addr := by
  have hindex : fd.toNat < conns.length := by omega
  constructor
  · rw [conns_installed, List.length_set]
    exact hindex
  · rw [connAt, conns_installed, List.getElem?_set_self hindex]
    rfl
  · rw [readRange, conns_installed, List.length_set]
    omega
  · rw [writeRange, conns_installed, List.length_set, toSize_int hpos.le hint]
    omega
  · rw [offerRange, conns_installed, List.length_set, toSize_int hpos.le hint]
    omega

/-- Where the checks agree the table grows without an overflow, keeps its entries,
and has a size above the descriptor, also when it is read as an `int`. -/
theorem grownTable_of_agreed {conns : List (Option Addr)} (hint : fd < 2 ^ 31)
    (hagreed : Agreed conns.length fd) :
    (toSize fd ≥ conns.length → fd * 2 < 2 ^ 31) ∧
      ∃ grown, grownTable conns fd = .ok grown ∧ fd < grown.length ∧
        fd < toInt32 grown.length ∧ ∀ i : ℕ, i < conns.length → grown[i]? = conns[i]? := by
  obtain ⟨hpos, ⟨hinside, hsize⟩ | ⟨houtside, hsmall⟩⟩ := hagreed
  · refine ⟨?_, conns, grownTable_inside hpos.le hint hinside, hinside, hsize, fun _ _ => rfl⟩
    intro hshort
    rw [toSize_int hpos.le hint] at hshort
    omega
  · have hlength : (conns ++ List.replicate (2 * fd.toNat - conns.length) none).length =
        2 * fd.toNat := by
      rw [List.length_append, List.length_replicate]
      omega
    refine ⟨fun _ => by omega, _, grownTable_outside hpos.le hsmall houtside, ?_, ?_, ?_⟩
    · rw [hlength]
      omega
    · rw [hlength, toInt32_of_range (by omega) (by omega)]
      omega
    · intro i hi
      exact List.getElem?_append_left hi

theorem admits_of_agreed (hint : fd < 2 ^ 31) (hagreed : Agreed w.conns.length fd) (now : ℕ) :
    w.Admits fd true true addr now := by
  have hpos : 0 < fd := hagreed.1
  obtain ⟨hproduct, grown, hgrown, hplace, hsize, hkept⟩ := grownTable_of_agreed hint hagreed
  refine ⟨fun _ => hproduct, w.installed grown fd addr now, ?_, ?_, ?_⟩
  · rw [newConn_of_grown hpos.le hgrown, if_pos (by omega)]
  · intro i hi hne
    rw [conns_installed, List.getElem?_set_ne hne.symm, hkept i hi]
  · intro _
    exact served_installed hpos hint hplace hsize now

theorem agreed_of_admits (hfd : 0 ≤ fd) (hint : fd < 2 ^ 31) {now : ℕ}
    (hadmits : w.Admits fd true true addr now) : Agreed w.conns.length fd := by
  obtain ⟨hproduct, next, hnew, -, hserved⟩ := hadmits
  have hserves := hserved ⟨rfl, rfl⟩
  have hpos : 0 < fd := by
    have hwrite := hserves.write
    rw [writeRange] at hwrite
    omega
  refine ⟨hpos, ?_⟩
  by_cases hinside : fd < w.conns.length
  · left
    refine ⟨hinside, ?_⟩
    -- the table did not grow, so the read check was made against its old size
    rw [newConn_of_grown hfd (grownTable_inside hfd hint hinside), if_pos (by omega)] at hnew
    cases hnew
    have hread := hserves.read
    rw [readRange, conns_installed, List.length_set] at hread
    omega
  · right
    have hshort := hproduct ⟨rfl, rfl⟩ (by rw [toSize_int hfd hint]; omega)
    omega

/-- **The range checks agree** on a descriptor that `_new_conn` lets in exactly
when it is positive and either lies below the size of the table as an `int`, or
beyond the table and below `2 ^ 30`. A call that gives up before it reaches the
table installs nothing and keeps every entry. -/
theorem newConn_admits_iff (w : SignalingWorker) (fd : ℤ) (setup peer : Bool) (addr : Addr)
    (now : ℕ) (hfd : 0 ≤ fd) (hint : fd < 2 ^ 31) :
    w.Admits fd setup peer addr now ↔
      (setup = true ∧ peer = true → Agreed w.conns.length fd) := by
  by_cases hinstalls : setup = true ∧ peer = true
  · obtain ⟨rfl, rfl⟩ := hinstalls
    constructor
    · intro hadmits _
      exact agreed_of_admits hfd hint hadmits
    · intro hagreed
      exact admits_of_agreed hint (hagreed ⟨rfl, rfl⟩) now
  · obtain ⟨next, hnew, hconns⟩ : ∃ next, w.newConn fd setup peer addr now = .ok next ∧
        next.conns = w.conns := newConn_not_installed hfd hinstalls now
    constructor
    · intro _ hinstalled
      exact absurd hinstalled hinstalls
    · intro _
      refine ⟨fun h => absurd h hinstalls, next, hnew, ?_, fun h => absurd h hinstalls⟩
      intro i _ _
      rw [hconns]

/-- The descriptor 9 and a table of two entries. -/
theorem newConn_admits_nine :
    (0 : ℤ) ≤ 9 ∧ (9 : ℤ) < 2 ^ 31 ∧
      ({ conns := [none, none] } : SignalingWorker).Admits 9 true true 5 1000 :=
  ⟨by decide, by decide,
    (newConn_admits_iff { conns := [none, none] } 9 true true 5 1000 (by decide) (by decide)).mpr
      fun _ => ⟨by decide, Or.inr ⟨by decide, by decide⟩⟩⟩

/-- **Zero and large numbers are let in and not served.** In an empty table the
descriptor 0 has no place even after `resize(0)`. In a table of two entries it is
installed and read, and then neither written to nor answered. The descriptor
`2 ^ 30` overflows the product. -/
theorem newConn_not_admitted :
    ¬({} : SignalingWorker).Admits 0 true true 5 1000 ∧
      ¬({ conns := [none, none] } : SignalingWorker).Admits 0 true true 5 1000 ∧
      ¬({} : SignalingWorker).Admits (2 ^ 30) true true 5 1000 := by
  refine ⟨?_, ?_, ?_⟩
  · intro hadmits
    exact absurd (agreed_of_admits (by decide) (by decide) hadmits).1 (by decide)
  · intro hadmits
    exact absurd (agreed_of_admits (by decide) (by decide) hadmits).1 (by decide)
  · intro hadmits
    have hcases := (agreed_of_admits (by decide) (by decide) hadmits).2
    exact absurd hcases (by decide)

end Xrtc.Server.SignalingWorker
