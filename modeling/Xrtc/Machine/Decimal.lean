/-
# Unsigned decimal numerals

`strconv.ParseUint` in base ten: it reads a numeral digit by digit in 64-bit
arithmetic, and gives up at the first byte that is no digit or at the first
digit that takes the number beyond the given number of bits. The theorem says
that these stepwise checks accept exactly the nonempty strings of digits whose
value fits, and return that value.

The last part is about the other direction: an integer is written as a numeral
with a sign where it is negative, and is read back from it.
-/

import Mathlib.Data.List.Basic
import Mathlib.Tactic.Ring

namespace Xrtc.Machine

/-- The two reasons for which a numeral is refused. -/
inductive NumErr
  | errSyntax
  | errRange
  deriving DecidableEq

/-- `*strconv.NumError`: the input and the reason. -/
structure NumError where
  num : List UInt8
  err : NumErr
  deriving DecidableEq

def isDigit (c : UInt8) : Bool := decide (48 ≤ c.toNat ∧ c.toNat ≤ 57)

def digitValue (c : UInt8) : ℕ := c.toNat - 48

/-- The value of a string of digits that stands behind a number `n`. -/
def valueFrom (n : ℕ) (s : List UInt8) : ℕ := s.foldl (fun n c => n * 10 + digitValue c) n

/-- A nonempty string of decimal digits with this value. -/
def IsDecimal (s : List UInt8) (value : ℕ) : Prop :=
  s ≠ [] ∧ (∀ c ∈ s, isDigit c = true) ∧ valueFrom 0 s = value

/-- The least number that ten times no longer fits into 64 bits. -/
def CUTOFF : ℕ := (2 ^ 64 - 1) / 10 + 1

/-- The loop of `ParseUint`. Letters are digits of larger bases and refused like
any other byte. -/
def parseDigits (maxVal : ℕ) : ℕ → List UInt8 → ℕ × Option NumErr
  | n, [] => (n, none)
  | n, c :: rest =>
      if isDigit c = false then
        (0, some .errSyntax)
      else if n ≥ CUTOFF then
        (maxVal, some .errRange)
      else
        let scaled := n * 10 % 2 ^ 64
        let next := (scaled + digitValue c) % 2 ^ 64
        if next < scaled ∨ next > maxVal then
          (maxVal, some .errRange)
        else
          parseDigits maxVal next rest

/-- `strconv.ParseUint(s, 10, bitSize)` for a bit size from 1 to 64. -/
def parseUint (s : List UInt8) (bitSize : ℕ) : ℕ × Option NumError :=
  if s = [] then
    (0, some ⟨s, .errSyntax⟩)
  else
    let (n, err) := parseDigits (2 ^ bitSize - 1) 0 s
    (n, err.map fun err => ⟨s, err⟩)

variable {s : List UInt8} {c : UInt8} {maxVal n value bitSize : ℕ}

theorem digitValue_le (hdigit : isDigit c = true) : digitValue c ≤ 9 := by
  simp only [isDigit, decide_eq_true_eq] at hdigit
  unfold digitValue
  omega

/-- Further digits never make a number smaller. -/
theorem le_valueFrom (n : ℕ) (s : List UInt8) : n ≤ valueFrom n s := by
  induction s generalizing n with
  | nil => exact le_rfl
  | cons c rest ih =>
      have hstep : n ≤ n * 10 + digitValue c := by omega
      exact hstep.trans (ih _)

/-- What one digit does to the number read so far. -/
theorem parseDigits_cons (hdigit : isDigit c = true) (hmax : maxVal < 2 ^ 64) (hn : n ≤ maxVal)
    (rest : List UInt8) :
    parseDigits maxVal n (c :: rest) =
      if n * 10 + digitValue c ≤ maxVal then
        parseDigits maxVal (n * 10 + digitValue c) rest
      else
        (maxVal, some .errRange) := by
  have hle := digitValue_le hdigit
  have hcutoff : CUTOFF = 1844674407370955162 := rfl
  rw [parseDigits, if_neg (by simp [hdigit])]
  by_cases hlarge : n ≥ CUTOFF
  · rw [if_pos hlarge, if_neg (by omega)]
  · rw [if_neg hlarge, Nat.mod_eq_of_lt (by omega)]
    simp only
    by_cases hfits : n * 10 + digitValue c ≤ maxVal
    · rw [if_pos hfits, Nat.mod_eq_of_lt (by omega), if_neg (by omega)]
    · rw [if_neg hfits]
      -- the sum exceeds the bound, or it has wrapped around
      by_cases hwraps : n * 10 + digitValue c < 2 ^ 64
      · rw [Nat.mod_eq_of_lt hwraps, if_pos (by omega)]
      · rw [if_pos (by omega)]

theorem parseDigits_eq_none_iff (hmax : maxVal < 2 ^ 64) (hn : n ≤ maxVal) :
    parseDigits maxVal n s = (value, none) ↔
      (∀ c ∈ s, isDigit c = true) ∧ valueFrom n s = value ∧ value ≤ maxVal := by
  induction s generalizing n with
  | nil =>
      simp only [parseDigits, Prod.mk.injEq, and_true, List.not_mem_nil, false_implies,
        implies_true, true_and, valueFrom, List.foldl_nil]
      constructor
      · rintro rfl
        exact ⟨rfl, hn⟩
      · exact And.left
  | cons c rest ih =>
      rw [List.forall_mem_cons]
      by_cases hdigit : isDigit c = true
      · rw [parseDigits_cons hdigit hmax hn]
        split
        · rename_i hfits
          rw [ih hfits, and_iff_right hdigit]
          rfl
        · rename_i hlarge
          have hgrows := le_valueFrom (n * 10 + digitValue c) rest
          constructor
          · rintro ⟨⟩
          · rintro ⟨-, hvalue, hle⟩
            exfalso
            apply hlarge
            exact hgrows.trans (hvalue.trans_le hle)
      · rw [parseDigits, if_pos (by simpa using hdigit)]
        constructor
        · rintro ⟨⟩
        · rintro ⟨⟨hfirst, -⟩, -⟩
          exact absurd hfirst hdigit

/-- **What `ParseUint` accepts**: the numerals whose value has at most `bitSize`
bits, with that value. -/
theorem parseUint_eq_none_iff (hbits : bitSize ≤ 64) :
    parseUint s bitSize = (value, none) ↔ IsDecimal s value ∧ value ≤ 2 ^ bitSize - 1 := by
  have hpow : 2 ^ bitSize ≤ 2 ^ 64 := Nat.pow_le_pow_right (by decide) hbits
  have hpos : 0 < 2 ^ bitSize := Nat.two_pow_pos bitSize
  rw [parseUint, IsDecimal]
  split
  · rename_i hempty
    constructor
    · rintro ⟨⟩
    · rintro ⟨⟨hne, -⟩, -⟩
      exact absurd hempty hne
  · rename_i hne
    rw [and_iff_right hne, and_assoc,
      ← parseDigits_eq_none_iff (n := 0) (by omega) (Nat.zero_le _)]
    simp only [Option.map_eq_none_iff, Prod.ext_iff]

/-! ## Written and read back -/

/-- The numeral of a natural number. -/
def natDecimal (n : ℕ) : List UInt8 := (Nat.toDigits 10 n).map fun c => UInt8.ofNat c.toNat

/-- An integer as a C++ stream writes it. -/
def decimal : ℤ → List UInt8
  | .ofNat n => natDecimal n
  | .negSucc n => 45 :: natDecimal (n + 1)

/-- Read a natural number. -/
def readNat (s : List UInt8) : Option ℕ :=
  if s ≠ [] ∧ s.all isDigit = true then some (valueFrom 0 s) else none

/-- Read an integer. -/
def readInt : List UInt8 → Option ℤ
  | 45 :: s => (readNat s).map fun n => -(n : ℤ)
  | s => (readNat s).map fun n => (n : ℤ)

theorem toNat_byte_of_isDigit {c : Char} (hdigit : c.isDigit = true) :
    (UInt8.ofNat c.toNat).toNat = c.toNat := by
  have hle : c.toNat ≤ 57 := by
    rw [Char.isDigit, Bool.and_eq_true, decide_eq_true_eq, decide_eq_true_eq] at hdigit
    exact hdigit.2
  rw [UInt8.toNat_ofNat', Nat.mod_eq_of_lt (by omega)]

theorem isDigit_of_mem_natDecimal {n : ℕ} (hc : c ∈ natDecimal n) : isDigit c = true := by
  obtain ⟨d, hd, rfl⟩ := List.mem_map.mp hc
  have hdigit := Nat.isDigit_of_mem_toDigits (by decide) (by decide) hd
  have hbyte := toNat_byte_of_isDigit hdigit
  rw [Char.isDigit, Bool.and_eq_true, decide_eq_true_eq, decide_eq_true_eq] at hdigit
  rw [isDigit, hbyte, decide_eq_true_eq]
  exact hdigit

theorem natDecimal_ne_nil (n : ℕ) : natDecimal n ≠ [] := by
  rw [natDecimal, ne_eq, List.map_eq_nil_iff]
  exact Nat.toDigits_ne_nil

theorem valueFrom_map {cs : List Char} (hdigits : ∀ c ∈ cs, c.isDigit = true) (n : ℕ) :
    valueFrom n (cs.map fun c => UInt8.ofNat c.toNat) = Nat.ofDigitChars 10 cs n := by
  induction cs generalizing n with
  | nil => rw [Nat.ofDigitChars_nil]; rfl
  | cons c cs ih =>
      obtain ⟨hc, hcs⟩ := List.forall_mem_cons.mp hdigits
      rw [Nat.ofDigitChars_cons, ← ih hcs, List.map_cons]
      show valueFrom (n * 10 + digitValue (UInt8.ofNat c.toNat)) _ = _
      rw [digitValue, toNat_byte_of_isDigit hc, Nat.mul_comm]
      rfl

theorem readNat_natDecimal (n : ℕ) : readNat (natDecimal n) = some n := by
  have hall : (natDecimal n).all isDigit = true := by
    rw [List.all_eq_true]
    exact fun c hc => isDigit_of_mem_natDecimal hc
  have hvalue : valueFrom 0 (natDecimal n) = n := by
    rw [natDecimal, valueFrom_map, Nat.ofDigitChars_ten_toDigits]
    exact fun c hc => Nat.isDigit_of_mem_toDigits (by decide) (by decide) hc
  rw [readNat, if_pos ⟨natDecimal_ne_nil n, hall⟩, hvalue]

/-- **An integer is read back.** -/
theorem readInt_decimal (n : ℤ) : readInt (decimal n) = some n := by
  cases n with
  | ofNat n =>
      rw [decimal, readInt, readNat_natDecimal]
      · rfl
      · rintro s hs
        -- a numeral begins with a digit and not with a sign
        have hsign : isDigit 45 = true :=
          isDigit_of_mem_natDecimal (n := n) (hs ▸ List.mem_cons_self)
        cases hsign
  | negSucc n =>
      rw [decimal, readInt, readNat_natDecimal]
      rfl

/-- What a written integer is made of. -/
theorem mem_decimal {n : ℤ} (hc : c ∈ decimal n) : c = 45 ∨ isDigit c = true := by
  cases n with
  | ofNat n => exact .inr (isDigit_of_mem_natDecimal hc)
  | negSucc n =>
      rcases List.mem_cons.mp hc with hsign | hdigit
      · exact .inl hsign
      · exact .inr (isDigit_of_mem_natDecimal hdigit)

/-- How long a written integer is. -/
theorem length_decimal_le {k : ℕ} {n : ℤ} (hk : 0 < k) (hn : n.natAbs < 10 ^ k) :
    (decimal n).length ≤ k + 1 := by
  have hnat (i : ℕ) (hi : i < 10 ^ k) : (natDecimal i).length ≤ k := by
    rw [natDecimal, List.length_map]
    exact (Nat.length_toDigits_le_iff (by decide) hk).mpr hi
  cases n with
  | ofNat i => exact (hnat i hn).trans (Nat.le_succ k)
  | negSucc i => exact Nat.succ_le_succ (hnat (i + 1) hn)

/-- A character that is neither a sign nor a digit does not occur in an integer. -/
theorem notMem_decimal (n : ℤ) (hsign : c ≠ 45) (hdigit : isDigit c = false) : c ∉ decimal n := by
  intro hc
  rcases mem_decimal hc with heq | his
  · exact hsign heq
  · rw [hdigit] at his
    cases his

end Xrtc.Machine
