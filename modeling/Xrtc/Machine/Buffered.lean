/-
# A buffered writer

A writer collects what it is given in a buffer of a fixed size and hands it on to a
device in large pieces. The device may take less than it is handed; after that the
writer takes nothing more.

Whatever the device does, nothing is lost, doubled or put in another order on the way:
what the device holds and what is in the buffer are, together, what was there before
and the part of the text that the writer says it took.
-/

import Mathlib.Data.List.Basic

namespace Xrtc.Machine

universe u v

variable {α : Type u} {Device : Type v}

/-- What waits for a device, and whether the device has refused something. -/
structure Buffered (α : Type u) where
  buf : List α := []
  failed : Bool := false
  deriving DecidableEq

namespace Buffered

section Operations

variable (size : ℕ) (put : List α → Device → ℕ × Device)

/-- Hand on what is in the buffer. What the device does not take stays in it. -/
def flush (b : Buffered α) (d : Device) : Buffered α × Device :=
  if b.failed || b.buf.isEmpty then
    (b, d)
  else
    let (n, d) := put b.buf d
    ({ buf := b.buf.drop n, failed := decide (n < b.buf.length) }, d)

/-- A round of the loop of `write`, for a text with no room in the buffer: how much of
it is taken. An empty buffer is passed by, another one is filled up and flushed. -/
def round (text : List α) (b : Buffered α) (d : Device) : ℕ × Buffered α × Device :=
  if b.buf.isEmpty then
    let (n, d) := put text d
    (n, { b with failed := decide (n < text.length) }, d)
  else
    let n := min (size - b.buf.length) text.length
    (n, flush put { b with buf := b.buf ++ text.take n } d)

/-- The loop of `write`, behind `taken` elements. -/
def writeLoop : ℕ → ℕ → List α → Buffered α → Device → ℕ × Buffered α × Device
  | 0, taken, _, b, d => (taken, b, d)
  | rounds + 1, taken, text, b, d =>
      if size - b.buf.length < text.length ∧ b.failed = false then
        let (n, b, d) := round size put text b d
        writeLoop rounds (taken + n) (text.drop n) b d
      else if b.failed then
        (taken, b, d)
      else
        (taken + text.length, { b with buf := b.buf ++ text }, d)

/-- Write a text. The second round finds an empty buffer or a failed device, and the
third finds nothing to do. -/
def write (text : List α) (b : Buffered α) (d : Device) : ℕ × Buffered α × Device :=
  writeLoop size put 3 0 text b d

end Operations

variable {size : ℕ} {put : List α → Device → ℕ × Device} {held : Device → List α}
  {b b' b'' : Buffered α} {d d' d'' : Device} {text : List α} {n m : ℕ}

/-- A device holds what it has taken, behind what it held before. -/
def Keeps (put : List α → Device → ℕ × Device) (held : Device → List α) : Prop :=
  ∀ text d, (put text d).1 ≤ text.length ∧
    held (put text d).2 = held d ++ text.take (put text d).1

/-! ## What was taken -/

/-- The first `n` elements of a text have been taken, into the buffer or on to the
device. -/
structure Took (held : Device → List α) (b : Buffered α) (d : Device) (text : List α) (n : ℕ)
    (b' : Buffered α) (d' : Device) : Prop where
  le : n ≤ text.length
  append_eq : held d' ++ b'.buf = held d ++ b.buf ++ text.take n

theorem Took.zero (b : Buffered α) (d : Device) (text : List α) : Took held b d text 0 b d :=
  ⟨Nat.zero_le _, by rw [List.take_zero, List.append_nil]⟩

theorem Took.trans (hfirst : Took held b d text n b' d')
    (hsecond : Took held b' d' (text.drop n) m b'' d'') : Took held b d text (n + m) b'' d'' := by
  have hle := hsecond.le
  rw [List.length_drop] at hle
  have hn := hfirst.le
  refine ⟨by omega, ?_⟩
  rw [hsecond.append_eq, hfirst.append_eq, List.append_assoc, ← List.take_add]

theorem held_flush (hkeeps : Keeps put held) (b : Buffered α) (d : Device) :
    held (b.flush put d).2 ++ (b.flush put d).1.buf = held d ++ b.buf := by
  rw [flush]
  split
  · rfl
  · show held (put b.buf d).2 ++ b.buf.drop (put b.buf d).1 = _
    rw [(hkeeps b.buf d).2, List.append_assoc, List.take_append_drop]

theorem took_round (size : ℕ) (hkeeps : Keeps put held) (text : List α)
    (b : Buffered α) (d : Device) :
    Took held b d text (round size put text b d).1 (round size put text b d).2.1
      (round size put text b d).2.2 := by
  rw [round]
  split
  · rename_i hempty
    obtain ⟨hle, hheld⟩ := hkeeps text d
    refine ⟨hle, ?_⟩
    show held (put text d).2 ++ b.buf = held d ++ b.buf ++ text.take (put text d).1
    rw [List.isEmpty_iff.mp hempty, List.append_nil, List.append_nil, hheld]
  · refine ⟨Nat.min_le_right _ _, ?_⟩
    rw [held_flush hkeeps, List.append_assoc]

theorem took_writeLoop (size : ℕ) (hkeeps : Keeps put held) (rounds taken : ℕ) (text : List α)
    (b : Buffered α) (d : Device) :
    ∃ n, (writeLoop size put rounds taken text b d).1 = taken + n ∧
      Took held b d text n (writeLoop size put rounds taken text b d).2.1
        (writeLoop size put rounds taken text b d).2.2 := by
  induction rounds generalizing taken text b d with
  | zero => exact ⟨0, rfl, Took.zero b d text⟩
  | succ rounds ih =>
      rw [writeLoop]
      split_ifs
      · have hround := took_round size hkeeps text b d
        obtain ⟨m, hm, hrest⟩ := ih (taken + (round size put text b d).1)
          (text.drop (round size put text b d).1) (round size put text b d).2.1
          (round size put text b d).2.2
        exact ⟨_, hm.trans (Nat.add_assoc _ _ _), hround.trans hrest⟩
      · exact ⟨0, rfl, Took.zero b d text⟩
      · refine ⟨text.length, rfl, Nat.le_refl _, ?_⟩
        rw [List.take_length, List.append_assoc]

/-- **What is taken is kept, in order.** -/
theorem took_write (size : ℕ) (hkeeps : Keeps put held) (text : List α)
    (b : Buffered α) (d : Device) :
    Took held b d text (write size put text b d).1 (write size put text b d).2.1
      (write size put text b d).2.2 := by
  obtain ⟨n, hn, htook⟩ := took_writeLoop size hkeeps 3 0 text b d
  rw [Nat.zero_add] at hn
  rw [write, hn]
  exact htook

/-! ## What is refused -/

/-- A writer that has not failed has nothing left behind a flush. -/
theorem buf_flush_of_not_failed (hflush : (b.flush put d).1.failed = false) :
    (b.flush put d).1.buf = [] := by
  revert hflush
  rw [flush]
  split
  · rename_i hskip
    intro hfailed
    rw [Bool.or_eq_true, hfailed, List.isEmpty_iff] at hskip
    exact hskip.resolve_left Bool.false_ne_true
  · intro hfailed
    have hle := of_decide_eq_false hfailed
    exact List.drop_eq_nil_of_le (Nat.le_of_not_lt hle)

theorem writeLoop_of_failed (rounds taken : ℕ) (text : List α) (hfailed : b.failed = true) :
    writeLoop size put rounds taken text b d = (taken, b, d) := by
  cases rounds with
  | zero => rfl
  | succ rounds =>
      rw [writeLoop, if_neg (by rw [hfailed]; exact fun h => Bool.noConfusion h.2), if_pos hfailed]

theorem writeLoop_of_room (rounds taken : ℕ) (hroom : text.length ≤ size - b.buf.length)
    (hfailed : b.failed = false) :
    writeLoop size put (rounds + 1) taken text b d =
      (taken + text.length, { b with buf := b.buf ++ text }, d) := by
  rw [writeLoop, if_neg fun h => absurd h.1 (Nat.not_lt.mpr hroom),
    if_neg (by rw [hfailed]; exact Bool.false_ne_true)]

theorem writeLoop_of_full (rounds taken : ℕ) (hfull : size - b.buf.length < text.length)
    (hfailed : b.failed = false) :
    writeLoop size put (rounds + 1) taken text b d =
      writeLoop size put rounds (taken + (round size put text b d).1)
        (text.drop (round size put text b d).1) (round size put text b d).2.1
        (round size put text b d).2.2 := by
  rw [writeLoop, if_pos ⟨hfull, hfailed⟩]

/-- Behind a round the writer has failed, or it is at the end of the text, or its buffer
is empty. -/
theorem round_cases (size : ℕ) (hkeeps : Keeps put held) (text : List α)
    (b : Buffered α) (d : Device) :
    (round size put text b d).2.1.failed = true ∨
      (round size put text b d).1 = text.length ∨
      (b.buf ≠ [] ∧ (round size put text b d).2.1.buf = []) := by
  rw [round]
  split
  · by_cases hshort : (put text d).1 < text.length
    · exact .inl (decide_eq_true hshort)
    · exact .inr (.inl (Nat.le_antisymm (hkeeps text d).1 (Nat.le_of_not_lt hshort)))
  · rename_i hbuf
    rw [List.isEmpty_iff] at hbuf
    refine or_iff_not_imp_left.mpr fun hfailed => .inr ⟨hbuf, buf_flush_of_not_failed ?_⟩
    rwa [Bool.not_eq_true] at hfailed

/-- The text behind `taken` elements has been taken, or the writer has failed. -/
def Settled (taken : ℕ) (text : List α) (out : ℕ × Buffered α × Device) : Prop :=
  out.2.1.failed = true ∨ out.1 = taken + text.length

/-- The loop settles in one round, unless that round leaves an empty buffer where there
was none. -/
theorem settled_of_round (hkeeps : Keeps put held) (rounds taken : ℕ) (text : List α)
    (b : Buffered α) (d : Device)
    (hafter : b.buf ≠ [] → (round size put text b d).2.1.buf = [] →
      Settled (taken + (round size put text b d).1) (text.drop (round size put text b d).1)
        (writeLoop size put (rounds + 1) (taken + (round size put text b d).1)
          (text.drop (round size put text b d).1) (round size put text b d).2.1
          (round size put text b d).2.2)) :
    Settled taken text (writeLoop size put (rounds + 2) taken text b d) := by
  cases hfailed : b.failed with
  | true =>
      rw [writeLoop_of_failed _ _ _ hfailed]
      exact .inl hfailed
  | false =>
      by_cases hroom : text.length ≤ size - b.buf.length
      · rw [writeLoop_of_room _ _ hroom hfailed]
        exact .inr rfl
      rw [writeLoop_of_full _ _ (Nat.lt_of_not_le hroom) hfailed]
      rcases round_cases size hkeeps text b d with hround | hall | ⟨hbuf, hempty⟩
      · rw [writeLoop_of_failed _ _ _ hround]
        exact .inl hround
      · rw [hall, List.drop_length]
        cases hlast : (round size put text b d).2.1.failed with
        | true =>
            rw [writeLoop_of_failed _ _ _ hlast]
            exact .inl hlast
        | false =>
            rw [writeLoop_of_room _ _ (Nat.zero_le _) hlast]
            exact .inr rfl
      · refine (hafter hbuf hempty).imp_right fun hcount => hcount.trans ?_
        have hle := (took_round size hkeeps text b d).le
        rw [List.length_drop]
        omega

/-- **A text is taken as a whole, or the writer has failed.** -/
theorem failed_or_write (size : ℕ) (hkeeps : Keeps put held) (text : List α)
    (b : Buffered α) (d : Device) :
    (write size put text b d).2.1.failed = true ∨ (write size put text b d).1 = text.length := by
  have hempty (rounds taken : ℕ) (text : List α) (b : Buffered α) (d : Device)
      (hbuf : b.buf = []) : Settled taken text (writeLoop size put (rounds + 2) taken text b d) :=
    settled_of_round hkeeps rounds taken text b d fun hne => absurd hbuf hne
  rw [← Nat.zero_add text.length]
  exact settled_of_round hkeeps 1 0 text b d fun _ hbuf => hempty 0 _ _ _ _ hbuf

/-! ## What a write preserves -/

/-- What a flush, a call of the device and a longer buffer preserve, a write does. -/
theorem write_preserves (P : Buffered α → Device → Prop)
    (hroom : ∀ text b d, text.length ≤ size - b.buf.length → P b d →
      P { b with buf := b.buf ++ text } d)
    (hflush : ∀ b d, P b d → P (b.flush put d).1 (b.flush put d).2)
    (hput : ∀ text b d, P b d →
      P { b with failed := decide ((put text d).1 < text.length) } (put text d).2)
    (text : List α) (hstart : P b d) :
    P (write size put text b d).2.1 (write size put text b d).2.2 := by
  suffices hloop : ∀ (rounds taken : ℕ) (text : List α) (b : Buffered α) (d : Device), P b d →
      P (writeLoop size put rounds taken text b d).2.1
        (writeLoop size put rounds taken text b d).2.2 from hloop 3 0 text b d hstart
  intro rounds
  induction rounds with
  | zero => exact fun taken text b d hP => hP
  | succ rounds ih =>
      intro taken text b d hP
      cases hfailed : b.failed with
      | true =>
          rw [writeLoop_of_failed _ _ _ hfailed]
          exact hP
      | false =>
          by_cases hfits : text.length ≤ size - b.buf.length
          · rw [writeLoop_of_room _ _ hfits hfailed]
            exact hroom text b d hfits hP
          rw [writeLoop_of_full _ _ (Nat.lt_of_not_le hfits) hfailed]
          apply ih
          rw [round]
          split
          · exact hput text b d hP
          · refine hflush _ d (hroom _ b d ?_ hP)
            rw [List.length_take]
            exact Nat.le_trans (Nat.min_le_left _ _) (Nat.min_le_left _ _)

theorem length_buf_flush_le (b : Buffered α) (d : Device) :
    (b.flush put d).1.buf.length ≤ b.buf.length := by
  rw [flush]
  split
  · exact Nat.le_refl _
  · show (b.buf.drop (put b.buf d).1).length ≤ b.buf.length
    rw [List.length_drop]
    exact Nat.sub_le _ _

/-- The buffer never holds more than its size. -/
theorem length_buf_write_le (text : List α) (hbuf : b.buf.length ≤ size) :
    (write size put text b d).2.1.buf.length ≤ size := by
  refine write_preserves (fun b _ => b.buf.length ≤ size) ?_ ?_ ?_ text hbuf
  · intro text b d hroom hle
    show (b.buf ++ text).length ≤ size
    rw [List.length_append]
    omega
  · exact fun b d hle => Nat.le_trans (length_buf_flush_le b d) hle
  · exact fun text b d hle => hle

section Device

variable {P : Device → Prop}

/-- What every call of the device preserves, a flush does. -/
theorem flush_device (hput : ∀ text d, P d → P (put text d).2) (b : Buffered α) (hd : P d) :
    P (b.flush put d).2 := by
  rw [flush]
  split
  · exact hd
  · exact hput b.buf d hd

/-- What every call of the device preserves, a write does. -/
theorem write_device (size : ℕ) (hput : ∀ text d, P d → P (put text d).2) (text : List α)
    (b : Buffered α)
    (hd : P d) : P (write size put text b d).2.2 :=
  write_preserves (fun _ d => P d) (fun _ _ _ _ hd => hd)
    (fun b _ hd => flush_device hput b hd) (fun text _ d hd => hput text d hd) text hd

/-- A device that takes all it is handed. -/
def Takes (put : List α → Device → ℕ × Device) (P : Device → Prop) : Prop :=
  ∀ text d, P d → (put text d).1 = text.length ∧ P (put text d).2

/-- Everything is handed on to a device that takes all of it. -/
theorem flush_eq_empty (htakes : Takes put P) (b : Buffered α) (hd : P d)
    (hb : b.failed = false) : (b.flush put d).1 = {} := by
  rw [flush]
  split
  · rename_i hskip
    rw [hb, Bool.false_or, List.isEmpty_iff] at hskip
    obtain ⟨buf, failed⟩ := b
    subst hskip hb
    rfl
  · show ({ buf := b.buf.drop (put b.buf d).1,
            failed := decide ((put b.buf d).1 < b.buf.length) } : Buffered α) = {}
    rw [(htakes b.buf d hd).1, List.drop_length, decide_eq_false (Nat.lt_irrefl _)]

/-- A device that takes all it is handed never makes a write fail. -/
theorem failed_write (size : ℕ) (htakes : Takes put P) (text : List α) (hd : P d)
    (hb : b.failed = false) :
    (write size put text b d).2.1.failed = false := by
  refine (write_preserves (fun b d => b.failed = false ∧ P d) ?_ ?_ ?_ text ⟨hb, hd⟩).1
  · exact fun text b d hroom h => h
  · rintro b d ⟨hb, hd⟩
    exact ⟨congrArg failed (flush_eq_empty htakes b hd hb),
      flush_device (fun text d hd => (htakes text d hd).2) b hd⟩
  · rintro text b d ⟨-, hd⟩
    obtain ⟨hall, hafter⟩ := htakes text d hd
    exact ⟨decide_eq_false (by rw [hall]; exact Nat.lt_irrefl _), hafter⟩

end Device

end Buffered

end Xrtc.Machine
