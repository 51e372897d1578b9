/-
# Dates and clocks

The dates of the Gregorian calendar, each the one behind the day before, and the
clock of a day in hours, minutes and seconds. A reading is what a wall clock shows so
many seconds behind the beginning of 1970 in a place whose clocks are never set back.

A reading is often written as digits in fixed columns. Such a numeral tells the second
it was written in: dates are in the order of their digits, and so are the clocks of a
day.
-/

import Mathlib.Order.Monotone.Basic
import Xrtc.Machine.Decimal

namespace Xrtc.Machine

structure Date where
  year : ℕ
  month : ℕ
  day : ℕ
  deriving DecidableEq

namespace Date

def isLeap (year : ℕ) : Bool := year % 4 = 0 && (year % 100 ≠ 0 || year % 400 = 0)

/-- How many days a month has. -/
def daysIn (year month : ℕ) : ℕ :=
  if month = 2 then
    if isLeap year then 29 else 28
  else if month = 4 ∨ month = 6 ∨ month = 9 ∨ month = 11 then
    30
  else
    31

/-- The day behind. -/
def next (date : Date) : Date :=
  if date.day < daysIn date.year date.month then
    { date with day := date.day + 1 }
  else if date.month < 12 then
    { date with month := date.month + 1, day := 1 }
  else
    { year := date.year + 1, month := 1, day := 1 }

/-- The date so many days behind the first of January 1970. -/
def ofDays : ℕ → Date
  | 0 => { year := 1970, month := 1, day := 1 }
  | n + 1 => (ofDays n).next

/-- The columns of a date, as one number. -/
def number (date : Date) : ℕ := (date.year * 100 + date.month) * 100 + date.day

/-- Month and day fit into two columns. -/
structure InColumns (date : Date) : Prop where
  month_le : date.month ≤ 12
  day_le : date.day ≤ 31

theorem daysIn_le (year month : ℕ) : daysIn year month ≤ 31 := by
  rw [daysIn]
  split_ifs <;> decide

theorem InColumns.next {date : Date} (h : date.InColumns) : date.next.InColumns := by
  obtain ⟨hmonth, hday⟩ := h
  have hdays := daysIn_le date.year date.month
  rw [Date.next]
  split_ifs
  · exact ⟨hmonth, by show date.day + 1 ≤ 31; omega⟩
  · exact ⟨by show date.month + 1 ≤ 12; omega, by show 1 ≤ 31; omega⟩
  · exact ⟨by show 1 ≤ 12; omega, by show 1 ≤ 31; omega⟩

theorem inColumns_ofDays (n : ℕ) : (ofDays n).InColumns := by
  induction n with
  | zero => exact ⟨by decide, by decide⟩
  | succ n ih => exact ih.next

theorem number_lt_next {date : Date} (h : date.InColumns) : date.number < date.next.number := by
  obtain ⟨hmonth, hday⟩ := h
  rw [number, number, next]
  split_ifs
  · show _ < (date.year * 100 + date.month) * 100 + (date.day + 1)
    omega
  · show _ < (date.year * 100 + (date.month + 1)) * 100 + 1
    omega
  · show _ < ((date.year + 1) * 100 + 1) * 100 + 1
    omega

/-- **Dates are in the order of their digits.** -/
theorem strictMono_number_ofDays : StrictMono fun n => (ofDays n).number :=
  strictMono_nat_of_lt_succ fun n => number_lt_next (inColumns_ofDays n)

end Date

/-- What a clock with a calendar shows. -/
structure Reading where
  date : Date
  hour : ℕ
  minute : ℕ
  second : ℕ
  deriving DecidableEq

namespace Reading

/-- The reading so many seconds behind the beginning of 1970. -/
def ofSeconds (n : ℕ) : Reading where
  date := Date.ofDays (n / 86400)
  hour := n % 86400 / 3600
  minute := n % 3600 / 60
  second := n % 60

/-- The columns of the clock, as one number. -/
def clock (r : Reading) : ℕ := (r.hour * 100 + r.minute) * 100 + r.second

/-- The columns of a reading tell the second. -/
theorem ofSeconds_inj {m n : ℕ} (hdate : (ofSeconds m).date.number = (ofSeconds n).date.number)
    (hclock : (ofSeconds m).clock = (ofSeconds n).clock) : m = n := by
  have hday : m / 86400 = n / 86400 := Date.strictMono_number_ofDays.injective hdate
  have hcolumns : (m % 86400 / 3600 * 100 + m % 3600 / 60) * 100 + m % 60 =
      (n % 86400 / 3600 * 100 + n % 3600 / 60) * 100 + n % 60 := hclock
  omega

end Reading

/-! ## Columns of digits -/

/-- A numeral with zeros in front, in at least so many columns. -/
def zeroPadded (width n : ℕ) : List UInt8 :=
  List.replicate (width - (natDecimal n).length) 48 ++ natDecimal n

theorem isDigit_of_mem_zeroPadded {width n : ℕ} {c : UInt8} (hc : c ∈ zeroPadded width n) :
    isDigit c = true := by
  rcases List.mem_append.mp hc with hzero | hdigit
  · rw [List.eq_of_mem_replicate hzero]
    decide
  · exact isDigit_of_mem_natDecimal hdigit

theorem valueFrom_append (n : ℕ) (first second : List UInt8) :
    valueFrom n (first ++ second) = valueFrom (valueFrom n first) second := List.foldl_append

theorem valueFrom_eq (n : ℕ) (s : List UInt8) :
    valueFrom n s = n * 10 ^ s.length + valueFrom 0 s := by
  induction s generalizing n with
  | nil => simp [valueFrom]
  | cons c s ih =>
      have hcons (k : ℕ) : valueFrom k (c :: s) = valueFrom (k * 10 + digitValue c) s := rfl
      rw [hcons, hcons, ih, ih (0 * 10 + digitValue c), List.length_cons, pow_succ]
      ring

theorem valueFrom_natDecimal (n : ℕ) : valueFrom 0 (natDecimal n) = n := by
  have hread := readNat_natDecimal n
  rw [readNat] at hread
  split at hread
  · exact Option.some.inj hread
  · cases hread

theorem valueFrom_zeros (k : ℕ) : valueFrom 0 (List.replicate k 48) = 0 := by
  induction k with
  | zero => rfl
  | succ k ih => exact ih

/-- Leading zeros do not count. -/
theorem valueFrom_zeroPadded (width n : ℕ) : valueFrom 0 (zeroPadded width n) = n := by
  rw [zeroPadded, valueFrom_append, valueFrom_zeros, valueFrom_natDecimal]

theorem length_zeroPadded {width n : ℕ} (hwidth : 0 < width) (hn : n < 10 ^ width) :
    (zeroPadded width n).length = width := by
  have hle : (natDecimal n).length ≤ width := by
    rw [natDecimal, List.length_map]
    exact (Nat.length_toDigits_le_iff (by decide) hwidth).mpr hn
  rw [zeroPadded, List.length_append, List.length_replicate]
  omega

/-- A column of two digits is put behind a number. -/
theorem valueFrom_two (n : ℕ) {k : ℕ} (hk : k < 100) :
    valueFrom n (zeroPadded 2 k) = n * 100 + k := by
  rw [valueFrom_eq, valueFrom_zeroPadded, length_zeroPadded (by decide) hk]
  rfl

namespace Reading

/-- Year, month and day. -/
def dateColumns (r : Reading) : List UInt8 :=
  zeroPadded 4 r.date.year ++ (zeroPadded 2 r.date.month ++ zeroPadded 2 r.date.day)

/-- Hour, minute and second. -/
def clockColumns (r : Reading) : List UInt8 :=
  zeroPadded 2 r.hour ++ (zeroPadded 2 r.minute ++ zeroPadded 2 r.second)

theorem isDigit_of_mem_dateColumns {r : Reading} {c : UInt8} (hc : c ∈ r.dateColumns) :
    isDigit c = true := by
  rw [dateColumns, List.mem_append, List.mem_append] at hc
  rcases hc with hc | hc | hc <;> exact isDigit_of_mem_zeroPadded hc

theorem isDigit_of_mem_clockColumns {r : Reading} {c : UInt8} (hc : c ∈ r.clockColumns) :
    isDigit c = true := by
  rw [clockColumns, List.mem_append, List.mem_append] at hc
  rcases hc with hc | hc | hc <;> exact isDigit_of_mem_zeroPadded hc

theorem valueFrom_dateColumns (n : ℕ) :
    valueFrom 0 (ofSeconds n).dateColumns = (ofSeconds n).date.number := by
  obtain ⟨hmonth, hday⟩ := Date.inColumns_ofDays (n / 86400)
  have hmonth' : (ofSeconds n).date.month < 100 := by
    show (Date.ofDays (n / 86400)).month < 100
    omega
  have hday' : (ofSeconds n).date.day < 100 := by
    show (Date.ofDays (n / 86400)).day < 100
    omega
  rw [dateColumns, valueFrom_append, valueFrom_append, valueFrom_zeroPadded,
    valueFrom_two _ hmonth', valueFrom_two _ hday', Date.number]

theorem valueFrom_clockColumns (n : ℕ) :
    valueFrom 0 (ofSeconds n).clockColumns = (ofSeconds n).clock := by
  have hhour : (ofSeconds n).hour < 100 := by show n % 86400 / 3600 < 100; omega
  have hminute : (ofSeconds n).minute < 100 := by show n % 3600 / 60 < 100; omega
  have hsecond : (ofSeconds n).second < 100 := by show n % 60 < 100; omega
  rw [clockColumns, valueFrom_append, valueFrom_append, valueFrom_zeroPadded,
    valueFrom_two _ hminute, valueFrom_two _ hsecond, clock]

/-- **The digits of a reading tell the second.** -/
theorem columns_inj {m n : ℕ} (hdate : (ofSeconds m).dateColumns = (ofSeconds n).dateColumns)
    (hclock : (ofSeconds m).clockColumns = (ofSeconds n).clockColumns) : m = n := by
  refine ofSeconds_inj ?_ ?_
  · rw [← valueFrom_dateColumns, ← valueFrom_dateColumns, hdate]
  · rw [← valueFrom_clockColumns, ← valueFrom_clockColumns, hclock]

end Reading

end Xrtc.Machine
