/-
# JSON texts

A JSON text is described twice: by its grammar, as a relation between texts and values,
and by a reader that goes through the text from left to right. Values are nested at
most to a given depth, as readers limit it. A number is kept as it is written, and a
string as the bytes it stands for.

The main result says that the reader finds every text of the grammar and its value.
Writers are then only compared with the grammar, and never with a reader.
-/

import Mathlib.Data.List.TakeWhile
import Mathlib.Tactic.IntervalCases
import Xrtc.Machine.Utf8

namespace Xrtc.Machine

universe u

open Utf8 Printf

inductive Json
  | null
  | bool (b : Bool)
  | number (literal : Text)
  | string (s : Text)
  | array (items : List Json)
  | object (members : List (Text × Json))

namespace Json

/-! ## Characters -/

def isBlank (c : UInt8) : Bool := c == 32 || c == 9 || c == 10 || c == 13

def skipBlank (text : Text) : Text := text.dropWhile isBlank

def Blank (text : Text) : Prop := ∀ c ∈ text, isBlank c = true

/-- The character behind a backslash, and the one it stands for. -/
def simpleEscape (c : UInt8) : Option UInt8 :=
  if c = 34 ∨ c = 92 ∨ c = 47 then some c
  else if c = 98 then some 8
  else if c = 102 then some 12
  else if c = 110 then some 10
  else if c = 114 then some 13
  else if c = 116 then some 9
  else none

def hexValue (c : UInt8) : Option ℕ :=
  if 48 ≤ c ∧ c ≤ 57 then some (c.toNat - 48)
  else if 97 ≤ c ∧ c ≤ 102 then some (c.toNat - 87)
  else if 65 ≤ c ∧ c ≤ 70 then some (c.toNat - 55)
  else none

/-- The number of four hexadecimal digits, and what stands behind them. -/
def readHex : Text → Option (ℕ × Text)
  | a :: b :: c :: d :: rest => do
      let a ← hexValue a
      let b ← hexValue b
      let c ← hexValue c
      let d ← hexValue d
      return (((a * 16 + b) * 16 + c) * 16 + d, rest)
  | _ => none

def isHigh (code : ℕ) : Bool := decide (0xD800 ≤ code ∧ code < 0xDC00)

def isLow (code : ℕ) : Bool := decide (0xDC00 ≤ code ∧ code < 0xE000)

/-- The code point of two surrogates. -/
def joinSurrogates (high low : ℕ) : ℕ := 0x10000 + (high - 0xD800) * 0x400 + (low - 0xDC00)

/-! ## Strings -/

/-- A character that stands for itself. -/
def isVisible (c : UInt8) : Bool := decide (32 ≤ c) && c != 34 && c != 92

/-- What stands between the quotes of a string, and the bytes it stands for. -/
inductive StringText : Text → Text → Prop
  | nil : StringText [] []
  | rune {bytes raw s : Text} : IsRune bytes → isVisible (bytes.headD 0) = true →
      StringText raw s → StringText (bytes ++ raw) (bytes ++ s)
  | escape {c d : UInt8} {raw s : Text} : simpleEscape c = some d →
      StringText raw s → StringText (92 :: c :: raw) (d :: s)
  | unicode {digits raw s : Text} {code : ℕ} : readHex digits = some (code, []) →
      isHigh code = false → isLow code = false →
      StringText raw s → StringText (92 :: 117 :: (digits ++ raw)) (encodeRune code ++ s)
  | surrogates {digits more raw s : Text} {high low : ℕ} : readHex digits = some (high, []) →
      isHigh high = true → readHex more = some (low, []) → isLow low = true →
      StringText raw s →
      StringText (92 :: 117 :: (digits ++ 92 :: 117 :: (more ++ raw)))
        (encodeRune (joinSurrogates high low) ++ s)

/-- What stands behind the `u` of an escape. A surrogate that is not one of two is
read as the replacement character. -/
def readUnicode (text : Text) : Option (Text × Text) :=
  (readHex text).map fun (code, rest) =>
    if isHigh code || isLow code then
      match rest with
      | 92 :: 117 :: more =>
          match readHex more with
          | some (low, behind) =>
              if isHigh code && isLow low then
                (encodeRune (joinSurrogates code low), behind)
              else
                (replacement, rest)
          | none => (replacement, rest)
      | _ => (replacement, rest)
    else
      (encodeRune code, rest)

/-- What stands behind a backslash. -/
def readEscape : Text → Option (Text × Text)
  | [] => none
  | c :: rest =>
      if c = 117 then readUnicode rest else (simpleEscape c).map fun d => ([d], rest)

/-- A string from behind its first quote, in at most so many characters. A byte that
begins no encoding is read as the replacement character. -/
def readStringFrom : ℕ → Text → Option (Text × Text)
  | 0, _ => none
  | _ + 1, [] => none
  | fuel + 1, c :: rest =>
      if c = 34 then
        some ([], rest)
      else if c = 92 then
        (readEscape rest).bind fun (s, rest) =>
          (readStringFrom fuel rest).map fun (t, rest) => (s ++ t, rest)
      else if isVisible c then
        let (rune, size) := decodeRune (c :: rest)
        (readStringFrom fuel ((c :: rest).drop size)).map fun (t, rest) => (rune ++ t, rest)
      else
        none

def readString (text : Text) : Option (Text × Text) := readStringFrom (text.length + 1) text

/-! ## Numbers -/

def isNumberByte (c : UInt8) : Bool :=
  isDigit c || c == 43 || c == 45 || c == 46 || c == 69 || c == 101

/-- Nothing, or `e` with a sign or none and digits. -/
def isExponent : Text → Bool
  | [] => true
  | c :: text =>
      (c == 69 || c == 101) &&
        match text with
        | d :: digits =>
            if d == 43 || d == 45 then !digits.isEmpty && digits.all isDigit
            else text.all isDigit
        | [] => false

/-- Nothing, or a point and digits, and an exponent. -/
def isFraction (text : Text) : Bool :=
  match text with
  | 46 :: rest =>
      !(rest.takeWhile isDigit).isEmpty && isExponent (rest.dropWhile isDigit)
  | _ => isExponent text

/-- Digits that do not begin with a needless zero, and what may stand behind them. -/
def isUnsigned (text : Text) : Bool :=
  match text with
  | 48 :: rest => isFraction rest
  | c :: rest => isDigit c && isFraction (rest.dropWhile isDigit)
  | [] => false

def isNumber (text : Text) : Bool :=
  match text with
  | 45 :: rest => isUnsigned rest
  | _ => isUnsigned text

/-! ## Values -/

/-- A value that holds no others. -/
inductive ScalarText : Text → Json → Prop
  | null : ScalarText (ascii "null") .null
  | true : ScalarText (ascii "true") (.bool Bool.true)
  | false : ScalarText (ascii "false") (.bool Bool.false)
  | number {literal : Text} : isNumber literal = Bool.true →
      ScalarText literal (.number literal)
  | string {raw s : Text} : StringText raw s → ScalarText (34 :: (raw ++ [34])) (.string s)

section Grammar

variable {α : Type u}

/-- Items with commas between them. -/
inductive Separated (P : Text → α → Prop) : Text → List α → Prop
  | last {text : Text} {a : α} : P text a → Separated P text [a]
  | more {text texts : Text} {a : α} {as : List α} : P text a → Separated P texts as →
      Separated P (text ++ 44 :: texts) (a :: as)

/-- What stands between two brackets. -/
inductive Enclosed (P : Text → α → Prop) : Text → List α → Prop
  | none {text : Text} : Blank text → Enclosed P text []
  | some {text : Text} {as : List α} : Separated P text as → Enclosed P text as

/-- A value with blanks around it. -/
inductive Padded (P : Text → α → Prop) : Text → α → Prop
  | mk {front text back : Text} {a : α} : Blank front → P text a → Blank back →
      Padded P (front ++ (text ++ back)) a

/-- A member of an object. -/
inductive MemberText (P : Text → α → Prop) : Text → Text × α → Prop
  | mk {front raw key back text : Text} {a : α} : Blank front → StringText raw key → Blank back →
      Padded P text a → MemberText P (front ++ 34 :: (raw ++ 34 :: (back ++ 58 :: text))) (key, a)

end Grammar

/-- The text stands for the value, which is nested at most so deep. -/
def Denotes : ℕ → Text → Json → Prop
  | 0, text, v => ScalarText text v
  | depth + 1, text, v =>
      ScalarText text v ∨
        (∃ inner items, text = 91 :: (inner ++ [93]) ∧ v = .array items ∧
          Enclosed (Padded (Denotes depth)) inner items) ∨
        ∃ inner members, text = 123 :: (inner ++ [125]) ∧ v = .object members ∧
          Enclosed (MemberText (Denotes depth)) inner members

/-! ## The reader -/

def readNumber (text : Text) : Option (Json × Text) :=
  let literal := text.takeWhile isNumberByte
  if isNumber literal then some (.number literal, text.drop literal.length) else none

def readScalar (text : Text) : Option (Json × Text) :=
  match text with
  | [] => none
  | c :: rest =>
      if c = 34 then
        (readString rest).map fun (s, rest) => (.string s, rest)
      else if c = 110 then
        (after (ascii "null") text).map fun rest => (.null, rest)
      else if c = 116 then
        (after (ascii "true") text).map fun rest => (.bool true, rest)
      else if c = 102 then
        (after (ascii "false") text).map fun rest => (.bool false, rest)
      else
        readNumber text

section Reader

variable {α : Type u}

/-- Items with commas between them, at most so many. -/
def readSeparated (readItem : Text → Option (α × Text)) : ℕ → Text → Option (List α × Text)
  | 0, _ => none
  | fuel + 1, text =>
      (readItem text).bind fun (a, rest) =>
        match rest with
        | 44 :: rest => (readSeparated readItem fuel rest).map fun (as, rest) => (a :: as, rest)
        | _ => some ([a], rest)

/-- From behind a bracket to behind the one that closes it. -/
def readEnclosed (close : UInt8) (readItem : Text → Option (α × Text)) (text : Text) :
    Option (List α × Text) :=
  if (skipBlank text).head? = some close then
    some ([], (skipBlank text).tail)
  else
    (readSeparated readItem (text.length + 1) text).bind fun (as, rest) =>
      if rest.head? = some close then some (as, rest.tail) else none

def readPadded (read : Text → Option (α × Text)) (text : Text) : Option (α × Text) :=
  (read (skipBlank text)).map fun (a, rest) => (a, skipBlank rest)

def readMember (read : Text → Option (α × Text)) (text : Text) : Option ((Text × α) × Text) :=
  match skipBlank text with
  | 34 :: rest =>
      (readString rest).bind fun (key, rest) =>
        match skipBlank rest with
        | 58 :: rest => (readPadded read rest).map fun (a, rest) => ((key, a), rest)
        | _ => none
  | _ => none

end Reader

/-- A value at the start of a text, nested at most so deep, and what stands behind it. -/
def readValue : ℕ → Text → Option (Json × Text)
  | 0, text => readScalar text
  | depth + 1, text =>
      match text with
      | 91 :: rest =>
          (readEnclosed 93 (readPadded (readValue depth)) rest).map fun (items, rest) =>
            (.array items, rest)
      | 123 :: rest =>
          (readEnclosed 125 (readMember (readValue depth)) rest).map fun (members, rest) =>
            (.object members, rest)
      | _ => readScalar text

/-- The value of a whole text. -/
def read (depth : ℕ) (text : Text) : Option Json :=
  match readPadded (readValue depth) text with
  | some (v, []) => some v
  | _ => none

/-! ## The reader finds what the grammar says -/

/-- A value ends here. -/
def Stops (rest : Text) : Prop :=
  ∀ c ∈ rest.head?, isBlank c = true ∨ c = 44 ∨ c = 93 ∨ c = 125

/-- An item ends here. -/
def Closes (rest : Text) : Prop := ∀ c ∈ rest.head?, c = 44 ∨ c = 93 ∨ c = 125

/-- A reader that finds the texts of a relation, in front of what may follow them. -/
def Finds {α : Type u} (Ends : Text → Prop) (P : Text → α → Prop)
    (reader : Text → Option (α × Text)) : Prop :=
  ∀ text a rest, P text a → Ends rest → reader (text ++ rest) = some (a, rest)

variable {text rest raw s : Text} {depth : ℕ} {v : Json}

theorem skipBlank_append (hblank : Blank text) (rest : Text) :
    skipBlank (text ++ rest) = skipBlank rest := by
  induction text with
  | nil => rfl
  | cons c text ih =>
      obtain ⟨hc, htext⟩ := List.forall_mem_cons.mp hblank
      rw [List.cons_append, skipBlank, List.dropWhile_cons_of_pos hc]
      exact ih htext

theorem skipBlank_of_head (hhead : ∀ c ∈ rest.head?, isBlank c = false) : skipBlank rest = rest := by
  cases rest with
  | nil => rfl
  | cons c rest =>
      have hc := hhead c rfl
      rw [skipBlank, List.dropWhile_cons_of_neg (by rw [hc]; exact Bool.false_ne_true)]

theorem Closes.skipBlank (hcloses : Closes rest) : skipBlank rest = rest := by
  apply skipBlank_of_head
  intro c hc
  rcases hcloses c hc with rfl | rfl | rfl <;> rfl

theorem Closes.stops (hcloses : Closes rest) : Stops rest := fun c hc => Or.inr (hcloses c hc)

/-- Blanks in front of the end of an item. -/
theorem Closes.stops_append (hblank : Blank text) (hcloses : Closes rest) : Stops (text ++ rest) := by
  cases text with
  | nil => exact hcloses.stops
  | cons c text =>
      intro d hd
      cases hd
      exact Or.inl (hblank c List.mem_cons_self)

/-! ### Strings -/

theorem readHex_append {digits : Text} {code : ℕ} (hdigits : readHex digits = some (code, []))
    (rest : Text) : readHex (digits ++ rest) = some (code, rest) := by
  unfold readHex at hdigits
  split at hdigits
  next a b c d behind =>
    simp only [Option.bind_eq_bind, Option.bind_eq_some_iff, Option.pure_def, Option.some.injEq,
      Prod.mk.injEq] at hdigits
    obtain ⟨w, hw, x, hx, y, hy, z, hz, hcode, rfl⟩ := hdigits
    simp only [List.cons_append, List.nil_append, readHex, hw, hx, hy, hz, Option.bind_eq_bind,
      Option.bind_some, Option.pure_def, hcode]
  next => cases hdigits

theorem readEscape_unicode {digits : Text} {code : ℕ} (hdigits : readHex digits = some (code, []))
    (hhigh : isHigh code = false) (hlow : isLow code = false) (rest : Text) :
    readEscape (117 :: (digits ++ rest)) = some (encodeRune code, rest) := by
  simp only [readEscape, if_pos, readUnicode, readHex_append hdigits, Option.map_some, hhigh, hlow,
    Bool.or_self, Bool.false_eq_true, if_false]

theorem readEscape_surrogates {digits more : Text} {high low : ℕ}
    (hdigits : readHex digits = some (high, [])) (hhigh : isHigh high = true)
    (hmore : readHex more = some (low, [])) (hlow : isLow low = true) (rest : Text) :
    readEscape (117 :: (digits ++ 92 :: 117 :: (more ++ rest))) =
      some (encodeRune (joinSurrogates high low), rest) := by
  simp only [readEscape, if_pos, readUnicode, readHex_append hdigits, readHex_append hmore,
    Option.map_some, hhigh, hlow, Bool.true_or, Bool.and_self]

theorem readEscape_simple {c d : UInt8} (hescape : simpleEscape c = some d) (rest : Text) :
    readEscape (c :: rest) = some ([d], rest) := by
  have hc : c ≠ 117 := by
    rintro rfl
    cases hescape
  rw [readEscape, if_neg hc, hescape, Option.map_some]

theorem readStringFrom_backslash {escape decoded : Text} {fuel : ℕ}
    (hescape : readEscape escape = some (decoded, text)) :
    readStringFrom (fuel + 1) (92 :: escape) =
      (readStringFrom fuel text).map fun (t, rest) => (decoded ++ t, rest) := by
  rw [readStringFrom, if_neg (by decide), if_pos rfl, hescape, Option.bind_some]

/-- **A string is found**, up to its closing quote. -/
theorem readStringFrom_of_stringText (hstring : StringText raw s) (rest : Text) {fuel : ℕ}
    (hfuel : raw.length < fuel) : readStringFrom fuel (raw ++ 34 :: rest) = some (s, rest) := by
  induction hstring generalizing fuel with
  | nil =>
      obtain ⟨k, rfl⟩ := Nat.exists_eq_add_of_lt hfuel
      rfl
  | @rune bytes raw s hrune hvisible _ ih =>
      obtain ⟨k, rfl⟩ := Nat.exists_eq_succ_of_ne_zero (Nat.ne_zero_of_lt hfuel)
      obtain ⟨c, more, rfl⟩ := List.exists_cons_of_ne_nil (ne_nil_of_isRune hrune)
      have hquote : c ≠ 34 := by
        rintro rfl
        cases hvisible
      have hbackslash : c ≠ 92 := by
        rintro rfl
        cases hvisible
      rw [List.length_append, List.length_cons] at hfuel
      have hdecode := decodeRune_append hrune (raw ++ 34 :: rest)
      have hdrop : (c :: (more ++ (raw ++ 34 :: rest))).drop (c :: more).length =
          raw ++ 34 :: rest := List.drop_left
      rw [List.cons_append] at hdecode
      rw [List.append_assoc, List.cons_append, readStringFrom, if_neg hquote, if_neg hbackslash,
        if_pos (show isVisible c = true from hvisible), hdecode]
      simp only [hdrop, @ih k (by omega), Option.map_some]
  | @escape c d raw s hescape _ ih =>
      obtain ⟨k, rfl⟩ := Nat.exists_eq_succ_of_ne_zero (Nat.ne_zero_of_lt hfuel)
      simp only [List.length_cons] at hfuel
      rw [List.cons_append, List.cons_append, readStringFrom_backslash (readEscape_simple hescape _),
        ih (by omega)]
      rfl
  | @unicode digits raw s code hdigits hhigh hlow _ ih =>
      obtain ⟨k, rfl⟩ := Nat.exists_eq_succ_of_ne_zero (Nat.ne_zero_of_lt hfuel)
      simp only [List.length_cons, List.length_append] at hfuel
      rw [List.cons_append, List.cons_append, List.append_assoc,
        readStringFrom_backslash (readEscape_unicode hdigits hhigh hlow _), ih (by omega)]
      rfl
  | @surrogates digits more raw s high low hdigits hhigh hmore hlow _ ih =>
      obtain ⟨k, rfl⟩ := Nat.exists_eq_succ_of_ne_zero (Nat.ne_zero_of_lt hfuel)
      simp only [List.length_cons, List.length_append] at hfuel
      rw [List.cons_append, List.cons_append, List.append_assoc, List.cons_append, List.cons_append,
        List.append_assoc,
        readStringFrom_backslash (readEscape_surrogates hdigits hhigh hmore hlow _), ih (by omega)]
      rfl

theorem readString_of_stringText (hstring : StringText raw s) (rest : Text) :
    readString (raw ++ 34 :: rest) = some (s, rest) := by
  apply readStringFrom_of_stringText hstring
  rw [List.length_append]
  omega

/-! ### Numbers -/

/-- All characters can stand in a number. -/
def Numeric (text : Text) : Prop := ∀ c ∈ text, isNumberByte c = true

theorem numeric_of_isDigit (hdigits : ∀ c ∈ text, isDigit c = true) : Numeric text := by
  intro c hc
  simp only [isNumberByte, hdigits c hc, Bool.true_or]

theorem Numeric.cons {c : UInt8} (hc : isNumberByte c = true) (htext : Numeric text) :
    Numeric (c :: text) := List.forall_mem_cons.mpr ⟨hc, htext⟩

/-- Digits, and what stands behind them. -/
theorem Numeric.of_dropWhile (hrest : Numeric (text.dropWhile isDigit)) : Numeric text := by
  rw [← List.takeWhile_append_dropWhile (p := isDigit) (l := text)]
  intro c hc
  rcases List.mem_append.mp hc with hdigit | hbehind
  · exact numeric_of_isDigit (List.all_eq_true.mp (List.all_takeWhile)) c hdigit
  · exact hrest c hbehind

theorem numeric_of_isExponent (hexponent : isExponent text = true) : Numeric text := by
  unfold isExponent at hexponent
  split at hexponent
  next => exact fun c hc => absurd hc List.not_mem_nil
  next c rest =>
    obtain ⟨hc, hrest⟩ := Bool.and_eq_true_iff.mp hexponent
    refine .cons ?_ ?_
    · rcases Bool.or_eq_true_iff.mp hc with he | he <;> rw [beq_iff_eq.mp he] <;> rfl
    · split at hrest
      next d digits =>
        split at hrest
        next hsign =>
          refine .cons ?_ (numeric_of_isDigit ?_)
          · rcases Bool.or_eq_true_iff.mp hsign with hd | hd <;> rw [beq_iff_eq.mp hd] <;> rfl
          · exact List.all_eq_true.mp (Bool.and_eq_true_iff.mp hrest).2
        next => exact numeric_of_isDigit (List.all_eq_true.mp hrest)
      next => cases hrest

theorem numeric_of_isFraction (hfraction : isFraction text = true) : Numeric text := by
  unfold isFraction at hfraction
  split at hfraction
  next rest =>
    refine .cons rfl (.of_dropWhile ?_)
    exact numeric_of_isExponent (Bool.and_eq_true_iff.mp hfraction).2
  next => exact numeric_of_isExponent hfraction

theorem numeric_of_isUnsigned (hunsigned : isUnsigned text = true) : Numeric text := by
  unfold isUnsigned at hunsigned
  split at hunsigned
  next => exact .cons rfl (numeric_of_isFraction hunsigned)
  next c rest _ =>
    obtain ⟨hc, hrest⟩ := Bool.and_eq_true_iff.mp hunsigned
    refine .cons ?_ (.of_dropWhile (numeric_of_isFraction hrest))
    simp only [isNumberByte, hc, Bool.true_or]
  next => cases hunsigned

theorem numeric_of_isNumber (hnumber : isNumber text = true) : Numeric text := by
  unfold isNumber at hnumber
  split at hnumber
  next => exact .cons rfl (numeric_of_isUnsigned hnumber)
  next => exact numeric_of_isUnsigned hnumber

theorem takeWhile_number (hnumeric : Numeric text) (hstops : Stops rest) :
    (text ++ rest).takeWhile isNumberByte = text := by
  have hrest : rest.takeWhile isNumberByte = [] := by
    cases rest with
    | nil => rfl
    | cons c rest =>
        have hc : isNumberByte c = false := by
          rcases hstops c rfl with hblank | rfl | rfl | rfl
          · simp only [isBlank, Bool.or_eq_true, beq_iff_eq] at hblank
            rcases hblank with ((rfl | rfl) | rfl) | rfl <;> rfl
          all_goals rfl
        rw [List.takeWhile_cons_of_neg (by rw [hc]; exact Bool.false_ne_true)]
  rw [List.takeWhile_append_of_pos hnumeric, hrest, List.append_nil]

theorem isNumber_ne_nil (hnumber : isNumber text = true) : text ≠ [] := by
  rintro rfl
  cases hnumber

/-- The first character of a number. -/
theorem head_of_isNumber {c : UInt8} (hnumber : isNumber (c :: text) = true) :
    c = 45 ∨ isDigit c = true := by
  unfold isNumber at hnumber
  split at hnumber
  next heq =>
    cases heq
    exact Or.inl rfl
  next =>
    right
    unfold isUnsigned at hnumber
    split at hnumber
    next heq =>
      cases heq
      rfl
    next heq =>
      cases heq
      exact (Bool.and_eq_true_iff.mp hnumber).1
    next heq => cases heq

theorem readNumber_of_isNumber (hnumber : isNumber text = true) (hstops : Stops rest) :
    readNumber (text ++ rest) = some (.number text, rest) := by
  simp only [readNumber, takeWhile_number (numeric_of_isNumber hnumber) hstops, if_pos hnumber,
    List.drop_left]

/-! ### Values -/

theorem finds_readScalar : Finds Stops ScalarText readScalar := by
  intro text v rest hscalar hstops
  cases hscalar with
  | null => rfl
  | true => rfl
  | false => rfl
  | string hstring =>
      rw [List.cons_append, List.append_assoc, List.singleton_append, readScalar, if_pos rfl,
        readString_of_stringText hstring, Option.map_some]
  | number hnumber =>
      have hread := readNumber_of_isNumber hnumber hstops
      obtain ⟨c, more, rfl⟩ := List.exists_cons_of_ne_nil (isNumber_ne_nil hnumber)
      have hother : c ≠ 34 ∧ c ≠ 110 ∧ c ≠ 116 ∧ c ≠ 102 := by
        refine ⟨?_, ?_, ?_, ?_⟩ <;>
          · rintro rfl
            rcases head_of_isNumber hnumber with h | h <;> exact absurd h (by decide)
      rw [List.cons_append] at hread ⊢
      rw [readScalar, if_neg hother.1, if_neg hother.2.1, if_neg hother.2.2.1, if_neg hother.2.2.2,
        hread]

section Finding

variable {α : Type u} {P : Text → α → Prop} {reader : Text → Option (α × Text)}

/-- A text of the relation begins with something that is neither blank nor closes a
bracket. -/
def Solid (P : Text → α → Prop) : Prop :=
  ∀ text a, P text a → ∃ c rest, text = c :: rest ∧ isBlank c = false ∧ c ≠ 93 ∧ c ≠ 125

/-- The same behind blanks. -/
def Opens (P : Text → α → Prop) : Prop :=
  ∀ text a rest, P text a → ∃ c more, skipBlank (text ++ rest) = c :: more ∧ c ≠ 93 ∧ c ≠ 125

theorem skipBlank_solid {c : UInt8} (hc : isBlank c = false) (more : Text) :
    skipBlank (c :: more) = c :: more := by
  apply skipBlank_of_head
  intro d hd
  cases hd
  exact hc

theorem opens_padded (hsolid : Solid P) : Opens (Padded P) := by
  rintro _ a rest ⟨hfront, htext, hback⟩
  obtain ⟨c, more, rfl, hc, hclose⟩ := hsolid _ a htext
  rw [List.append_assoc, skipBlank_append hfront, List.append_assoc, List.cons_append,
    skipBlank_solid hc]
  exact ⟨c, _, rfl, hclose⟩

theorem opens_memberText (P : Text → α → Prop) : Opens (MemberText P) := by
  rintro _ ⟨key, a⟩ rest hmember
  obtain ⟨hfront, -, -, -⟩ := hmember
  rw [List.append_assoc, skipBlank_append hfront, List.cons_append, skipBlank_solid rfl]
  exact ⟨34, _, rfl, by decide, by decide⟩

theorem finds_readPadded (hsolid : Solid P) (hfinds : Finds Stops P reader) :
    Finds Closes (Padded P) (readPadded reader) := by
  rintro _ a rest ⟨hfront, htext, hback⟩ hcloses
  rename_i front text back
  obtain ⟨c, more, rfl, hc, -⟩ := hsolid text a htext
  rw [readPadded, List.append_assoc, List.append_assoc, skipBlank_append hfront, List.cons_append,
    skipBlank_solid hc, ← List.cons_append, hfinds _ a _ htext (hcloses.stops_append hback),
    Option.map_some]
  simp only [skipBlank_append hback, hcloses.skipBlank]

theorem finds_readMember (hfinds : Finds Closes (Padded P) (readPadded reader)) :
    Finds Closes (MemberText P) (readMember reader) := by
  rintro _ ⟨key, a⟩ rest hmember hcloses
  obtain ⟨hfront, hkey, hback, htext⟩ := hmember
  rename_i front raw back text
  have hcolon (more : Text) : skipBlank (58 :: more) = 58 :: more := rfl
  have hquote (more : Text) : skipBlank (34 :: more) = 34 :: more := rfl
  simp only [readMember, List.append_assoc, List.cons_append, skipBlank_append hfront, hquote,
    readString_of_stringText hkey, Option.bind_some, skipBlank_append hback, hcolon,
    hfinds _ a _ htext hcloses, Option.map_some]

/-- Items with commas between them, in front of a bracket. -/
theorem readSeparated_of_separated (hfinds : Finds Closes P reader) {texts : Text} {as : List α}
    (hseparated : Separated P texts as) {close : UInt8} (hclose : close = 93 ∨ close = 125)
    (rest : Text) {fuel : ℕ} (hfuel : texts.length < fuel) :
    readSeparated reader fuel (texts ++ close :: rest) = some (as, close :: rest) := by
  induction hseparated generalizing fuel with
  | @last text a htext =>
      obtain ⟨k, rfl⟩ := Nat.exists_eq_succ_of_ne_zero (Nat.ne_zero_of_lt hfuel)
      have hcloses : Closes (close :: rest) := by
        intro c hc
        cases hc
        exact Or.inr hclose
      rw [readSeparated, hfinds text a _ htext hcloses, Option.bind_some]
      rcases hclose with rfl | rfl <;> rfl
  | @more text texts a as htext _ ih =>
      obtain ⟨k, rfl⟩ := Nat.exists_eq_succ_of_ne_zero (Nat.ne_zero_of_lt hfuel)
      rw [List.length_append, List.length_cons] at hfuel
      have hcloses : Closes (44 :: (texts ++ close :: rest)) := by
        intro c hc
        cases hc
        exact Or.inl rfl
      rw [List.append_assoc, List.cons_append, readSeparated, hfinds text a _ htext hcloses,
        Option.bind_some]
      simp only [ih (show texts.length < k by omega), Option.map_some]

theorem opens_separated (hopens : Opens P) : Opens (Separated P) := by
  intro texts as rest hseparated
  cases hseparated with
  | last htext => exact hopens _ _ rest htext
  | more htext _ =>
      rw [List.append_assoc]
      exact hopens _ _ _ htext

/-- **What stands between two brackets is found.** -/
theorem readEnclosed_of_enclosed (hopens : Opens P) (hfinds : Finds Closes P reader)
    {as : List α} (henclosed : Enclosed P text as) {close : UInt8}
    (hclose : close = 93 ∨ close = 125) (rest : Text) :
    readEnclosed close reader (text ++ close :: rest) = some (as, rest) := by
  cases henclosed with
  | none hblank =>
      have hsolid : isBlank close = false := by rcases hclose with rfl | rfl <;> rfl
      rw [readEnclosed, skipBlank_append hblank, skipBlank_solid hsolid, if_pos List.head?_cons,
        List.tail_cons]
  | some hseparated =>
      obtain ⟨c, more, hskip, hnot⟩ := opens_separated hopens _ _ (close :: rest) hseparated
      have hother : ¬ (skipBlank (text ++ close :: rest)).head? = some close := by
        rw [hskip, List.head?_cons, Option.some.injEq]
        rintro rfl
        rcases hclose with rfl | rfl
        · exact hnot.1 rfl
        · exact hnot.2 rfl
      have hfuel : text.length < (text ++ close :: rest).length + 1 := by
        rw [List.length_append]
        omega
      rw [readEnclosed, if_neg hother,
        readSeparated_of_separated hfinds hseparated hclose rest hfuel, Option.bind_some]
      simp only [List.head?_cons, if_true, List.tail_cons]

end Finding

/-- The first character of a scalar: it is neither blank nor a bracket. -/
theorem head_of_scalarText (hscalar : ScalarText text v) :
    ∃ c rest, text = c :: rest ∧ isBlank c = false ∧ (c ≠ 93 ∧ c ≠ 125) ∧ c ≠ 91 ∧ c ≠ 123 := by
  cases hscalar with
  | null | true | false => exact ⟨_, _, rfl, by decide, by decide, by decide, by decide⟩
  | string _ => exact ⟨_, _, rfl, by decide, by decide, by decide, by decide⟩
  | number hnumber =>
      obtain ⟨c, more, rfl⟩ := List.exists_cons_of_ne_nil (isNumber_ne_nil hnumber)
      have hother {d : UInt8} (hd : ¬ (d = 45 ∨ isDigit d = true)) : c ≠ d := by
        rintro rfl
        exact hd (head_of_isNumber hnumber)
      refine ⟨c, more, rfl, ?_, ⟨hother (by decide), hother (by decide)⟩, hother (by decide),
        hother (by decide)⟩
      simp only [isBlank, Bool.or_eq_false_iff, beq_eq_false_iff_ne]
      exact ⟨⟨⟨hother (by decide), hother (by decide)⟩, hother (by decide)⟩, hother (by decide)⟩

theorem solid_scalarText : Solid ScalarText := by
  intro text v hscalar
  obtain ⟨c, rest, rfl, hblank, hclose, -⟩ := head_of_scalarText hscalar
  exact ⟨c, rest, rfl, hblank, hclose⟩

theorem solid_denotes (depth : ℕ) : Solid (Denotes depth) := by
  intro text v hdenotes
  cases depth with
  | zero => exact solid_scalarText text v hdenotes
  | succ depth =>
      rcases hdenotes with hscalar | ⟨inner, items, rfl, -, -⟩ | ⟨inner, members, rfl, -, -⟩
      · exact solid_scalarText text v hscalar
      · exact ⟨91, _, rfl, by decide, by decide, by decide⟩
      · exact ⟨123, _, rfl, by decide, by decide, by decide⟩

/-- **The reader finds every value.** -/
theorem finds_readValue (depth : ℕ) : Finds Stops (Denotes depth) (readValue depth) := by
  induction depth with
  | zero => exact finds_readScalar
  | succ depth ih =>
      have hpadded := finds_readPadded (solid_denotes depth) ih
      intro text v rest hdenotes hstops
      rcases hdenotes with hscalar | ⟨inner, items, rfl, rfl, hitems⟩ |
        ⟨inner, members, rfl, rfl, hmembers⟩
      · have hread := finds_readScalar text v rest hscalar hstops
        obtain ⟨c, more, rfl, -, -, harray, hobject⟩ := head_of_scalarText hscalar
        rw [List.cons_append] at hread ⊢
        rw [← hread, readValue]
        · intro behind heq
          cases heq
          exact harray rfl
        · intro behind heq
          cases heq
          exact hobject rfl
      · rw [List.cons_append, List.append_assoc, List.singleton_append, readValue,
          readEnclosed_of_enclosed (opens_padded (solid_denotes depth)) hpadded hitems (Or.inl rfl),
          Option.map_some]
      · rw [List.cons_append, List.append_assoc, List.singleton_append, readValue,
          readEnclosed_of_enclosed (opens_memberText _) (finds_readMember hpadded) hmembers
            (Or.inr rfl), Option.map_some]

/-- **A whole text is read as what it stands for.** -/
theorem read_of_denotes (hdenotes : Padded (Denotes depth) text v) : read depth text = some v := by
  have hread := finds_readPadded (solid_denotes depth) (finds_readValue depth) text v [] hdenotes
    (by rintro c ⟨⟩)
  rw [List.append_nil] at hread
  rw [read, hread]

/-! ## Strings of plain characters -/

theorem isRune_singleton {c : UInt8} (hc : c < 128) : IsRune [c] := by
  rw [IsRune, runeLength]
  exact if_pos hc

/-- A character that needs no escape, in front of a string. -/
theorem StringText.visible {c : UInt8} (hc : c < 128) (hvisible : isVisible c = true)
    (hstring : StringText raw s) : StringText (c :: raw) (c :: s) :=
  .rune (isRune_singleton hc) hvisible hstring

theorem stringText_of_visible (hvisible : ∀ c ∈ text, c < 128 ∧ isVisible c = true) :
    StringText text text := by
  induction text with
  | nil => exact .nil
  | cons c text ih =>
      obtain ⟨hc, htext⟩ := List.forall_mem_cons.mp hvisible
      exact .visible hc.1 hc.2 (ih htext)

/-! ## Texts without blanks -/

/-- An object, given what stands between the quotes of its keys, and its members. -/
def compactObject (members : List (Text × Text)) : Text :=
  123 :: ([44].intercalate (members.map fun (raw, text) => 34 :: (raw ++ 34 :: 58 :: text)) ++ [125])

theorem padded_self {P : Text → Json → Prop} (htext : P text v) : Padded P text v := by
  have hblank : Blank [] := fun c hc => absurd hc List.not_mem_nil
  simpa using Padded.mk hblank htext hblank

theorem memberText_compact {key : Text} (hkey : StringText raw key) (htext : Denotes depth text v) :
    MemberText (Denotes depth) (34 :: (raw ++ 34 :: 58 :: text)) (key, v) := by
  have hblank : Blank [] := fun c hc => absurd hc List.not_mem_nil
  exact MemberText.mk hblank hkey hblank (padded_self htext)

/-- What an object without blanks stands for. -/
theorem denotes_compactObject {texts : List (Text × Text)} {members : List (Text × Json)}
    (hmembers : List.Forall₂
      (fun written member => StringText written.1 member.1 ∧ Denotes depth written.2 member.2)
      texts members) : Denotes (depth + 1) (compactObject texts) (.object members) := by
  refine Or.inr (Or.inr ⟨_, members, rfl, rfl, ?_⟩)
  cases hmembers with
  | nil => exact .none fun c hc => absurd hc List.not_mem_nil
  | @cons written member texts members hfirst hrest =>
      refine .some ?_
      induction hrest generalizing written member with
      | nil =>
          rw [List.map_cons, List.map_nil, List.intercalate_singleton]
          exact .last (memberText_compact hfirst.1 hfirst.2)
      | @cons next nextMember texts members hnext _ ih =>
          rw [List.map_cons, List.map_cons, List.intercalate_cons_cons, List.append_assoc,
            List.singleton_append]
          exact .more (memberText_compact hfirst.1 hfirst.2) (ih hnext)

/-- A member with a plain key. -/
theorem member_of_denotes (key : String)
    (hkey : ((ascii key).all fun c => decide (c < 128) && isVisible c) = true)
    (htext : Denotes depth text v) :
    StringText (ascii key) (ascii key) ∧ Denotes depth text v := by
  refine ⟨stringText_of_visible ?_, htext⟩
  intro c hc
  simpa using List.all_eq_true.mp hkey c hc

theorem denotes_string (hstring : StringText raw s) :
    Denotes depth (34 :: (raw ++ [34])) (.string s) := by
  cases depth with
  | zero => exact .string hstring
  | succ depth => exact Or.inl (.string hstring)

theorem denotes_null (depth : ℕ) : Denotes depth (ascii "null") .null := by
  cases depth with
  | zero => exact .null
  | succ depth => exact Or.inl .null

/-- A positive numeral begins with a digit other than zero. -/
theorem natDecimal_eq_cons {n : ℕ} (hpos : 0 < n) :
    ∃ c rest, natDecimal n = c :: rest ∧ c ≠ 48 ∧ isDigit c = true := by
  induction n using Nat.strongRecOn with
  | ind n ih =>
      by_cases hsmall : n < 10
      · refine ⟨UInt8.ofNat n.digitChar.toNat, [], ?_, ?_⟩
        · rw [natDecimal, Nat.toDigits_of_lt_base hsmall]
          rfl
        · interval_cases n <;> decide
      · obtain ⟨c, rest, hfront, hc⟩ := ih (n / 10) (by omega) (by omega)
        refine ⟨c, rest ++ natDecimal (n % 10), ?_, hc⟩
        have hsplit := @Nat.toDigits_append_toDigits 10 (n / 10) (n % 10) (by decide) (by omega)
          (by omega)
        rw [Nat.div_add_mod] at hsplit
        rw [← List.cons_append, ← hfront, natDecimal, natDecimal, natDecimal, ← hsplit,
          List.map_append]

theorem isUnsigned_natDecimal (n : ℕ) : isUnsigned (natDecimal n) = true := by
  rcases Nat.eq_zero_or_pos n with rfl | hpos
  · decide
  · obtain ⟨c, rest, hcons, hzero, hdigit⟩ := natDecimal_eq_cons hpos
    have hrest : rest.dropWhile isDigit = [] := by
      rw [List.dropWhile_eq_nil_iff]
      intro d hd
      exact isDigit_of_mem_natDecimal (n := n) (hcons ▸ List.mem_cons_of_mem c hd)
    rw [hcons, isUnsigned]
    · simp only [hdigit, hrest, Bool.true_and]
      rfl
    · exact hzero

theorem isNumber_decimal (n : ℤ) : isNumber (decimal n) = true := by
  cases n with
  | negSucc n => exact isUnsigned_natDecimal (n + 1)
  | ofNat n =>
      have hunsigned := isUnsigned_natDecimal n
      rw [decimal, isNumber]
      · exact hunsigned
      · intro behind heq
        have hsign : isDigit 45 = true :=
          isDigit_of_mem_natDecimal (n := n) (heq ▸ List.mem_cons_self)
        cases hsign

theorem denotes_decimal (depth : ℕ) (n : ℤ) : Denotes depth (decimal n) (.number (decimal n)) := by
  cases depth with
  | zero => exact .number (isNumber_decimal n)
  | succ depth => exact Or.inl (.number (isNumber_decimal n))

end Json

end Xrtc.Machine
