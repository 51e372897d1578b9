/-
# Reading from a stream that comes in pieces

A reader hands out its bytes piece by piece, and a caller that asks for less
than the next piece gets a part of it. `readFull` asks until it has the number
of bytes it wants. What it returns and what it leaves depend on the bytes alone
and not on the pieces they come in.
-/

import Mathlib.Data.List.Basic

namespace Xrtc.Machine

/-- The pieces that the successive calls of `Read` find. -/
abbrev Reader := List (List UInt8)

/-- The errors of `io.ReadFull`: the stream ends before the first byte, or
behind it. -/
inductive ReadError
  | eof
  | unexpectedEof
  deriving DecidableEq

/-- The loop of `io.ReadFull`, with what it has and how much it still wants. -/
def readMore (got : List UInt8) : ℕ → Reader → Except ReadError (List UInt8 × Reader)
  | 0, reader => .ok (got, reader)
  | _ + 1, [] => .error (if got = [] then .eof else .unexpectedEof)
  | wanted + 1, piece :: reader =>
      if piece.length ≤ wanted + 1 then
        readMore (got ++ piece) (wanted + 1 - piece.length) reader
      else
        .ok (got ++ piece.take (wanted + 1), piece.drop (wanted + 1) :: reader)

/-- `io.ReadFull` into a buffer of this size, with the rest of the stream. -/
def readFull (size : ℕ) (reader : Reader) : Except ReadError (List UInt8 × Reader) :=
  readMore [] size reader

theorem readMore_of_le {reader : Reader} {wanted : ℕ} (got : List UInt8)
    (hlen : wanted ≤ reader.flatten.length) :
    ∃ rest, readMore got wanted reader = .ok (got ++ reader.flatten.take wanted, rest) ∧
      rest.flatten = reader.flatten.drop wanted := by
  induction reader generalizing got wanted with
  | nil =>
      obtain rfl : wanted = 0 := by simpa using hlen
      exact ⟨[], by simp [readMore], rfl⟩
  | cons piece reader ih =>
      cases wanted with
      | zero => exact ⟨piece :: reader, by simp [readMore], rfl⟩
      | succ wanted =>
          rw [List.flatten_cons] at hlen ⊢
          rw [readMore]
          split
          · rename_i hshort
            obtain ⟨rest, hread, hrest⟩ := @ih (wanted + 1 - piece.length) (got ++ piece) (by
              rw [List.length_append] at hlen
              omega)
            refine ⟨rest, ?_, ?_⟩
            · rw [hread, List.take_append, List.take_of_length_le hshort, List.append_assoc]
            · rw [hrest, List.drop_append, List.drop_of_length_le hshort, List.nil_append]
          · rename_i hlong
            refine ⟨piece.drop (wanted + 1) :: reader, ?_, ?_⟩
            · rw [List.take_append_of_le_length (by omega)]
            · rw [List.flatten_cons, List.drop_append_of_le_length (by omega)]

/-- **The pieces do not matter.** -/
theorem readFull_of_le {reader : Reader} {size : ℕ} (hlen : size ≤ reader.flatten.length) :
    ∃ rest, readFull size reader = .ok (reader.flatten.take size, rest) ∧
      rest.flatten = reader.flatten.drop size :=
  readMore_of_le [] hlen

theorem readMore_of_lt {reader : Reader} {wanted : ℕ} (got : List UInt8)
    (hshort : reader.flatten.length < wanted) :
    ∃ error, readMore got wanted reader = .error error := by
  obtain ⟨wanted, rfl⟩ := Nat.exists_eq_succ_of_ne_zero (Nat.ne_zero_of_lt hshort)
  induction reader generalizing got wanted with
  | nil => exact ⟨_, rfl⟩
  | cons piece reader ih =>
      rw [List.flatten_cons, List.length_append] at hshort
      obtain ⟨still, hstill⟩ : ∃ still, wanted + 1 - piece.length = still + 1 :=
        ⟨wanted - piece.length, by omega⟩
      rw [readMore, if_pos (by omega), hstill]
      exact ih (got ++ piece) still (by omega)

/-- A stream that is too short is refused. -/
theorem readFull_of_lt {reader : Reader} {size : ℕ} (hshort : reader.flatten.length < size) :
    ∃ error, readFull size reader = .error error :=
  readMore_of_lt [] hshort

/-- What a read that succeeds has returned, and what it has left. -/
theorem readFull_eq_ok {reader rest : Reader} {size : ℕ} {bytes : List UInt8}
    (hread : readFull size reader = .ok (bytes, rest)) :
    size ≤ reader.flatten.length ∧ bytes = reader.flatten.take size ∧
      rest.flatten = reader.flatten.drop size := by
  by_cases hlen : size ≤ reader.flatten.length
  · obtain ⟨behind, hfull, hbehind⟩ := readFull_of_le hlen
    rw [hread] at hfull
    cases hfull
    exact ⟨hlen, rfl, hbehind⟩
  · obtain ⟨error, herror⟩ := readFull_of_lt (Nat.lt_of_not_le hlen)
    rw [hread] at herror
    cases herror

end Xrtc.Machine
