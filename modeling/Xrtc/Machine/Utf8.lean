/-
# The characters of a byte string

Go takes a string apart into characters: an encoding of UTF-8, or a single byte where
none begins, which is read as the replacement character. Here are the characters of a
text, what is read for them, and the encoding of a code point. A character is found
again wherever its bytes stand.
-/

import Mathlib.Data.List.GetD
import Xrtc.Machine.Printf

namespace Xrtc.Machine.Utf8

open Xrtc.Machine.Printf

/-- A character: the bytes of an encoding, or a byte that begins none. -/
inductive Rune
  | valid (bytes : Text)
  | invalid (c : UInt8)
  deriving DecidableEq

/-- The encoding of U+FFFD. -/
def replacement : Text := [239, 191, 189]

/-- What is read for a character. -/
def Rune.read : Rune → Text
  | .valid bytes => bytes
  | .invalid _ => replacement

/-- The characters of a text. The number counts the bytes that the last one still takes. -/
def runesFrom : ℕ → Text → List Rune
  | _, [] => []
  | skip + 1, _ :: text => runesFrom skip text
  | 0, c :: text =>
      match runeLength (c :: text) with
      | some n => .valid ((c :: text).take n) :: runesFrom (n - 1) text
      | none => .invalid c :: runesFrom 0 text

def runes (text : Text) : List Rune := runesFrom 0 text

/-- The text with every byte that begins no encoding replaced, as `strings.ToValidUTF8`
would do it byte by byte. -/
def toValid (text : Text) : Text := (runes text).flatMap Rune.read

/-- These bytes are one encoding. -/
def IsRune (bytes : Text) : Prop := runeLength bytes = some bytes.length

instance (bytes : Text) : Decidable (IsRune bytes) := inferInstanceAs (Decidable (_ = _))

/-- `utf8.AppendRune` for a code point that is none of the surrogates. -/
def encodeRune (code : ℕ) : Text :=
  if code < 0x80 then
    [UInt8.ofNat code]
  else if code < 0x800 then
    [UInt8.ofNat (0xC0 + code / 0x40), UInt8.ofNat (0x80 + code % 0x40)]
  else if code < 0x10000 then
    [UInt8.ofNat (0xE0 + code / 0x1000), UInt8.ofNat (0x80 + code / 0x40 % 0x40),
      UInt8.ofNat (0x80 + code % 0x40)]
  else
    [UInt8.ofNat (0xF0 + code / 0x40000), UInt8.ofNat (0x80 + code / 0x1000 % 0x40),
      UInt8.ofNat (0x80 + code / 0x40 % 0x40), UInt8.ofNat (0x80 + code % 0x40)]

variable {text bytes : Text} {n : ℕ}

theorem ne_nil_of_isRune (hrune : IsRune bytes) : bytes ≠ [] := by
  rintro rfl
  exact absurd hrune (by decide)

/-- The four ways in which an encoding begins. -/
theorem runeLength_cases (hlength : runeLength text = some n) :
    n = 1 ∧ text.getD 0 0 < 128 ∨
      n = 2 ∧ 194 ≤ text.getD 0 0 ∧ text.getD 0 0 ≤ 223 ∧
        isSecond (text.getD 0 0) (text.getD 1 0) = true ∨
      n = 3 ∧ 224 ≤ text.getD 0 0 ∧ text.getD 0 0 ≤ 239 ∧
        isSecond (text.getD 0 0) (text.getD 1 0) = true ∧
        isContinuation (text.getD 2 0) = true ∨
      n = 4 ∧ 240 ≤ text.getD 0 0 ∧ text.getD 0 0 ≤ 244 ∧
        isSecond (text.getD 0 0) (text.getD 1 0) = true ∧
        isContinuation (text.getD 2 0) = true ∧ isContinuation (text.getD 3 0) = true := by
  simp only [runeLength] at hlength
  split at hlength
  next hfirst =>
    cases hlength
    exact Or.inl ⟨rfl, hfirst⟩
  split at hlength
  next htwo =>
    cases hlength
    exact Or.inr (Or.inl ⟨rfl, htwo⟩)
  split at hlength
  next hthree =>
    cases hlength
    exact Or.inr (Or.inr (Or.inl ⟨rfl, hthree⟩))
  split at hlength
  next hfour =>
    cases hlength
    exact Or.inr (Or.inr (Or.inr ⟨rfl, hfour⟩))
  next => cases hlength

/-- A byte that is there. -/
theorem lt_length_of_isContinuation {i : ℕ} (hbyte : isContinuation (text.getD i 0) = true) :
    i < text.length := by
  by_contra hge
  rw [List.getD_eq_default _ _ (not_lt.mp hge)] at hbyte
  exact absurd hbyte (by decide)

theorem lt_length_of_isSecond {first : UInt8} {i : ℕ}
    (hbyte : isSecond first (text.getD i 0) = true) : i < text.length :=
  lt_length_of_isContinuation (Bool.and_eq_true_iff.mp hbyte).1

/-- An encoding lies within its text. -/
theorem runeLength_le (htext : text ≠ []) (hlength : runeLength text = some n) :
    0 < n ∧ n ≤ text.length := by
  have hpos := List.length_pos_iff.mpr htext
  rcases runeLength_cases hlength with ⟨rfl, -⟩ | ⟨rfl, -, -, hsecond⟩ |
    ⟨rfl, -, -, -, hthird⟩ | ⟨rfl, -, -, -, -, hfourth⟩
  · exact ⟨Nat.one_pos, hpos⟩
  · exact ⟨by decide, lt_length_of_isSecond hsecond⟩
  · exact ⟨by decide, lt_length_of_isContinuation hthird⟩
  · exact ⟨by decide, lt_length_of_isContinuation hfourth⟩

/-- The length depends on the bytes of the encoding only. -/
theorem runeLength_congr {other : Text} (hlength : runeLength text = some n)
    (hsame : ∀ i < n, other.getD i 0 = text.getD i 0) : runeLength other = some n := by
  rcases runeLength_cases hlength with ⟨rfl, hfirst⟩ | ⟨rfl, hlow, hhigh, hsecond⟩ |
    ⟨rfl, hlow, hhigh, hsecond, hthird⟩ | ⟨rfl, hlow, hhigh, hsecond, hthird, hfourth⟩
  · simp only [runeLength, hsame 0 (by decide), if_pos hfirst]
  · have hnot : ¬ text.getD 0 0 < 128 := UInt8.not_lt.mpr (UInt8.le_trans (by decide : (128 : UInt8) ≤ 194) hlow)
    simp only [runeLength, hsame 0 (by decide), hsame 1 (by decide), if_neg hnot,
      if_pos (⟨hlow, hhigh, hsecond⟩ : _ ∧ _ ∧ _)]
  · have hnot : ¬ text.getD 0 0 < 128 := UInt8.not_lt.mpr (UInt8.le_trans (by decide : (128 : UInt8) ≤ 224) hlow)
    have hnotTwo : ¬ text.getD 0 0 ≤ 223 :=
      UInt8.not_le.mpr (UInt8.lt_of_lt_of_le (by decide) hlow)
    simp only [runeLength, hsame 0 (by decide), hsame 1 (by decide), hsame 2 (by decide),
      if_neg hnot, hnotTwo, false_and, and_false, if_false,
      if_pos (⟨hlow, hhigh, hsecond, hthird⟩ : _ ∧ _ ∧ _ ∧ _)]
  · have hnot : ¬ text.getD 0 0 < 128 := UInt8.not_lt.mpr (UInt8.le_trans (by decide : (128 : UInt8) ≤ 240) hlow)
    have hnotTwo : ¬ text.getD 0 0 ≤ 223 :=
      UInt8.not_le.mpr (UInt8.lt_of_lt_of_le (by decide) hlow)
    have hnotThree : ¬ text.getD 0 0 ≤ 239 :=
      UInt8.not_le.mpr (UInt8.lt_of_lt_of_le (by decide) hlow)
    simp only [runeLength, hsame 0 (by decide), hsame 1 (by decide), hsame 2 (by decide),
      hsame 3 (by decide), if_neg hnot, hnotTwo, hnotThree, false_and, and_false, if_false,
      if_pos (⟨hlow, hhigh, hsecond, hthird, hfourth⟩ : _ ∧ _ ∧ _ ∧ _ ∧ _)]

/-- An encoding is an ASCII character, or it begins beyond them. -/
theorem isRune_cases (hrune : IsRune bytes) :
    (∃ c, bytes = [c] ∧ c < 128) ∨ bytes.length ≠ 1 ∧ 194 ≤ bytes.headD 0 := by
  obtain ⟨c, more, rfl⟩ := List.exists_cons_of_ne_nil (ne_nil_of_isRune hrune)
  rcases runeLength_cases hrune with ⟨hlength, hfirst⟩ | ⟨hlength, hfirst, -⟩ |
    ⟨hlength, hfirst, -⟩ | ⟨hlength, hfirst, -⟩
  · have hnil : more = [] := List.length_eq_zero_iff.mp (Nat.succ.inj hlength)
    subst hnil
    exact Or.inl ⟨c, rfl, hfirst⟩
  · exact Or.inr ⟨by omega, hfirst⟩
  · exact Or.inr ⟨by omega, UInt8.le_trans (by decide) hfirst⟩
  · exact Or.inr ⟨by omega, UInt8.le_trans (by decide) hfirst⟩

/-- What stands at the start of a text is one encoding. -/
theorem isRune_take (htext : text ≠ []) (hlength : runeLength text = some n) :
    IsRune (text.take n) := by
  obtain ⟨-, hle⟩ := runeLength_le htext hlength
  rw [IsRune, List.length_take, min_eq_left hle]
  apply runeLength_congr hlength
  intro i hi
  rw [List.getD_eq_getElem?_getD, List.getElem?_take_of_lt hi, ← List.getD_eq_getElem?_getD]

/-- An encoding is found again in front of any text. -/
theorem decodeRune_append (hrune : IsRune bytes) (rest : Text) :
    decodeRune (bytes ++ rest) = (bytes, bytes.length) := by
  have hlength : runeLength (bytes ++ rest) = some bytes.length := by
    apply runeLength_congr hrune
    intro i hi
    rw [List.getD_append _ _ _ _ hi]
  rw [decodeRune, hlength]
  simp only [List.take_left']

theorem runesFrom_drop (skip : ℕ) (text : Text) :
    runesFrom skip text = runesFrom 0 (text.drop skip) := by
  induction text generalizing skip with
  | nil =>
      rw [List.drop_nil]
      cases skip <;> rfl
  | cons c text ih =>
      cases skip with
      | zero => rfl
      | succ skip => exact ih skip

/-- The characters of a text that is not empty. -/
theorem runes_cons (c : UInt8) (text : Text) :
    runes (c :: text) =
      match runeLength (c :: text) with
      | some n => .valid ((c :: text).take n) :: runes ((c :: text).drop n)
      | none => .invalid c :: runes text := by
  rw [runes, runesFrom]
  cases hlength : runeLength (c :: text) with
  | none => rfl
  | some n =>
      obtain ⟨hpos, -⟩ := runeLength_le (List.cons_ne_nil c text) hlength
      obtain ⟨k, rfl⟩ := Nat.exists_eq_add_of_lt hpos
      simp only [runesFrom_drop (0 + k + 1 - 1), runes]
      rw [Nat.zero_add, Nat.add_sub_cancel, List.drop_succ_cons]

/-- **Every character is one encoding**, or a byte that is replaced. -/
theorem isRune_of_mem_runes (text : Text) : ∀ bytes, Rune.valid bytes ∈ runes text → IsRune bytes := by
  induction hlen : text.length using Nat.strongRecOn generalizing text with
  | ind length ih =>
      intro bytes hmem
      cases text with
      | nil => cases hmem
      | cons c rest =>
          rw [runes_cons] at hmem
          cases hlength : runeLength (c :: rest) with
          | none =>
              simp only [hlength, List.mem_cons, reduceCtorEq, false_or] at hmem
              exact ih rest.length (hlen ▸ Nat.lt_succ_self _) rest rfl bytes hmem
          | some n =>
              obtain ⟨hpos, -⟩ := runeLength_le (List.cons_ne_nil c rest) hlength
              simp only [hlength, List.mem_cons, Rune.valid.injEq] at hmem
              rcases hmem with rfl | hmem
              · exact isRune_take (List.cons_ne_nil c rest) hlength
              · refine ih _ ?_ ((c :: rest).drop n) rfl bytes hmem
                rw [List.length_drop, ← hlen, List.length_cons]
                omega

end Xrtc.Machine.Utf8
