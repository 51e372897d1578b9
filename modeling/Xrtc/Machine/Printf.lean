/-
# Formatted printing

`Sprintf` of Go, on byte strings. A format is copied up to the next percent sign.
A directive behind it has flags, an argument index, a width, a precision and a
verb; it consumes arguments and is replaced by the text of one of them, or by a
text that begins with `%!` and says what is wrong with it. Arguments that nothing
has consumed are listed at the end. How a value is printed under a verb is an
argument of the model.

Two laws carry the use of a text as a format. A text without a percent sign is
printed as it stands, in front of what the rest of the format prints. A text with
one is not: no such text is its own result when there are no arguments.
-/

import Xrtc.Machine.Decimal
import Xrtc.Machine.Text

namespace Xrtc.Machine

universe u

/-- The flags of a directive, its width and its precision. -/
structure Flags where
  sharp : Bool := false
  zero : Bool := false
  plus : Bool := false
  minus : Bool := false
  space : Bool := false
  sharpV : Bool := false
  plusV : Bool := false
  wid : Option ℕ := none
  prec : Option ℕ := none
  deriving DecidableEq

/-- What formatting needs to know of its arguments. A verb is given by the bytes
of its rune. Strings are arguments, and `%s` prints them as they stand. -/
structure Printer (Arg : Type u) where
  printArg : Flags → Arg → Text → Text
  /-- The value of an integer that fits into an `int`. -/
  toInt : Arg → Option ℤ
  /-- The name of the type, or nothing for `nil`. -/
  typeName : Arg → Option Text
  ofString : Text → Arg
  printArg_ofString : ∀ text, printArg {} (ofString text) (ascii "s") = text

namespace Printf

/-- Where the formatter stands in a directive, and what it has written for it. -/
structure Cursor where
  rest : Text
  argNum : ℕ
  flags : Flags := {}
  goodArgNum : Bool := true
  reordered : Bool := false
  afterIndex : Bool := false
  out : Text := []

/-- The flags in front of a directive. -/
def takeFlags : Flags → Text → Flags × Text
  | flags, [] => (flags, [])
  | flags, c :: rest =>
      -- the bytes of `#`, `0`, `+`, `-` and the blank
      if c = 35 then takeFlags { flags with sharp := true } rest
      else if c = 48 then takeFlags { flags with zero := true } rest
      else if c = 43 then takeFlags { flags with plus := true } rest
      else if c = 45 then takeFlags { flags with minus := true } rest
      else if c = 32 then takeFlags { flags with space := true } rest
      else (flags, c :: rest)

/-- The loop of `parsenum`. A number beyond a million ends the format. -/
def parsenumFrom : Text → ℕ → Bool → ℕ × Bool × Text
  | [], num, isnum => (num, isnum, [])
  | c :: rest, num, isnum =>
      if isDigit c then
        if num > 1000000 then (0, false, [])
        else parsenumFrom rest (num * 10 + digitValue c) true
      else
        (num, isnum, c :: rest)

/-- `parsenum`: the number at the start of a text, whether there is one, and what
stands behind it. -/
def parsenum (s : Text) : ℕ × Bool × Text := parsenumFrom s 0 false

/-- `parseArgNumber` on a text that begins with a bracket: the index, which is one
less than the number between the brackets, how many bytes they take, and whether
there is such a number. -/
def parseArgNumber (format : Text) : ℤ × ℕ × Bool :=
  if format.length < 3 then
    (0, 1, false)
  else
    let inner := format.tail.takeWhile fun c => decide (c ≠ 93)
    if inner.length = format.tail.length then
      -- there is no closing bracket
      (0, 1, false)
    else
      match parsenum inner with
      | (num, true, []) => ((num : ℤ) - 1, inner.length + 2, true)
      | _ => (0, inner.length + 2, false)

/-- `argNumber`. -/
def argNumber (numArgs : ℕ) (s : Cursor) : Cursor :=
  if s.rest.head? = some 91 then
    let (index, wid, ok) := parseArgNumber s.rest
    if ok = true ∧ 0 ≤ index ∧ index < numArgs then
      { s with argNum := index.toNat, rest := s.rest.drop wid, afterIndex := true, reordered := true }
    else
      { s with rest := s.rest.drop wid, afterIndex := ok, reordered := true, goodArgNum := false }
  else
    { s with afterIndex := false }

variable {Arg : Type u} (P : Printer Arg) (a : List Arg)

/-- `intFromArg`: the next argument as a number of at most a million, and the
number of the argument behind it. -/
def intFromArg (argNum : ℕ) : Option ℤ × ℕ :=
  match a[argNum]? with
  | none => (none, argNum)
  | some arg => ((P.toInt arg).filter fun n => decide (-1000000 ≤ n ∧ n ≤ 1000000), argNum + 1)

/-- The flags with a width that was an argument. -/
def withWidth (flags : Flags) : Option ℤ → Flags
  | none => { flags with wid := none }
  | some num =>
      if num < 0 then
        { flags with minus := true, zero := false, wid := some num.natAbs }
      else
        { flags with wid := some num.toNat }

/-- The width, which is a star or a number. -/
def width (s : Cursor) : Cursor :=
  if s.rest.head? = some 42 then
    let (num, argNum) := intFromArg P a s.argNum
    { s with
      rest := s.rest.tail
      argNum := argNum
      flags := withWidth s.flags num
      out := if num = none then s.out ++ ascii "%!(BADWIDTH)" else s.out
      afterIndex := false }
  else
    let (num, isnum, rest) := parsenum s.rest
    { s with
      rest := rest
      flags := { s.flags with wid := if isnum then some num else none }
      goodArgNum := s.goodArgNum && !(s.afterIndex && isnum) }

/-- The precision behind the point. -/
def precisionDigits (s : Cursor) : Cursor :=
  if s.rest.head? = some 42 then
    let (num, argNum) := intFromArg P a s.argNum
    -- a negative precision counts as none
    let num := num.filter fun n => decide (0 ≤ n)
    { s with
      rest := s.rest.tail
      argNum := argNum
      flags := { s.flags with prec := num.map Int.toNat }
      out := if num = none then s.out ++ ascii "%!(BADPREC)" else s.out
      afterIndex := false }
  else
    let (num, isnum, rest) := parsenum s.rest
    { s with
      rest := rest
      flags := { s.flags with prec := some (if isnum then num else 0) } }

/-- The precision, if there is a point. -/
def precision (s : Cursor) : Cursor :=
  if s.rest.head? = some 46 then
    precisionDigits P a (argNumber a.length
      { s with rest := s.rest.tail, goodArgNum := s.goodArgNum && !s.afterIndex })
  else
    s

/-- A byte behind the first one of a rune. -/
def isContinuation (c : UInt8) : Bool := decide (128 ≤ c ∧ c ≤ 191)

/-- The second byte that may follow the first one of a longer rune. -/
def isSecond (first c : UInt8) : Bool :=
  isContinuation c &&
    (decide (first ≠ 224 ∨ 160 ≤ c) && decide (first ≠ 237 ∨ c ≤ 159) &&
      decide (first ≠ 240 ∨ 144 ≤ c) && decide (first ≠ 244 ∨ c ≤ 143))

/-- The length of the rune at the start of a text, in UTF-8, or nothing where
there is none. -/
def runeLength (s : Text) : Option ℕ :=
  let first := s.getD 0 0
  let second := isSecond first (s.getD 1 0)
  let third := isContinuation (s.getD 2 0)
  let fourth := isContinuation (s.getD 3 0)
  if first < 128 then some 1
  else if 194 ≤ first ∧ first ≤ 223 ∧ second = true then some 2
  else if 224 ≤ first ∧ first ≤ 239 ∧ second = true ∧ third = true then some 3
  else if 240 ≤ first ∧ first ≤ 244 ∧ second = true ∧ third = true ∧ fourth = true then some 4
  else none

/-- `DecodeRuneInString`: the rune, as it is written, and how many bytes it takes.
A byte that starts no rune is read as the replacement character. -/
def decodeRune (s : Text) : Text × ℕ :=
  match runeLength s with
  | some n => (s.take n, n)
  | none => ([239, 191, 189], 1)

/-- The flags `#` and `+` mean something else to the verbs `v` and `w`. -/
def flagsFor (flags : Flags) (verb : Text) : Flags :=
  if verb = ascii "v" ∨ verb = ascii "w" then
    { flags with sharpV := flags.sharp, sharp := false, plusV := flags.plus, plus := false }
  else
    flags

/-- The verb at the end of a directive. -/
def verb (s : Cursor) : Cursor :=
  if s.rest = [] then
    { s with out := s.out ++ ascii "%!(NOVERB)" }
  else
    let (rune, size) := decodeRune s.rest
    let s := { s with rest := s.rest.drop size }
    if rune = ascii "%" then
      { s with out := s.out ++ ascii "%" }
    else if s.goodArgNum = false then
      { s with out := s.out ++ (ascii "%!" ++ rune ++ ascii "(BADINDEX)") }
    else
      match a[s.argNum]? with
      | none => { s with out := s.out ++ (ascii "%!" ++ rune ++ ascii "(MISSING)") }
      | some arg =>
          { s with
            out := s.out ++ P.printArg (flagsFor s.flags rune) arg rune
            argNum := s.argNum + 1 }

/-- A directive with more than flags and a letter. -/
def longDirective (s : Cursor) : Cursor :=
  let s := precision P a (width P a (argNumber a.length s))
  verb P a (if s.afterIndex then s else argNumber a.length s)

/-- One directive, from behind its percent sign. -/
def directive (argNum : ℕ) (format : Text) : Cursor :=
  let (flags, rest) := takeFlags {} format
  match rest, a[argNum]? with
  | c :: behind, some arg =>
      -- a lower case letter needs no more than its argument
      if 97 ≤ c ∧ c ≤ 122 then
        { rest := behind
          argNum := argNum + 1
          out := P.printArg (flagsFor flags [c]) arg [c] }
      else
        longDirective P a { rest := rest, argNum := argNum, flags := flags }
  | _, _ => longDirective P a { rest := rest, argNum := argNum, flags := flags }

/-- What a part of a format has printed, the argument behind it, and whether it
has an argument index. -/
structure Printed where
  out : Text
  argNum : ℕ
  reordered : Bool

/-- The loop of `doPrintf` over the bytes of the format. The first number counts
the bytes that the last directive has read already. -/
def doPrintf : ℕ → ℕ → Bool → Text → Printed
  | _, argNum, reordered, [] => ⟨[], argNum, reordered⟩
  | skip + 1, argNum, reordered, _ :: format => doPrintf skip argNum reordered format
  | 0, argNum, reordered, c :: format =>
      if c = 37 then
        -- go on behind the directive
        let d := directive P a argNum format
        let p := doPrintf (format.length - d.rest.length) d.argNum (reordered || d.reordered) format
        { p with out := d.out ++ p.out }
      else
        let p := doPrintf 0 argNum reordered format
        { p with out := c :: p.out }

/-- How an argument is listed that nothing has consumed. -/
def describe (arg : Arg) : Text :=
  match P.typeName arg with
  | none => ascii "<nil>"
  | some name => name ++ ascii "=" ++ P.printArg {} arg (ascii "v")

/-- The arguments from a number on, where there are any. -/
def extra (argNum : ℕ) : Text :=
  if argNum < a.length then
    ascii "%!(EXTRA " ++ (ascii ", ").intercalate ((a.drop argNum).map (describe P)) ++ ascii ")"
  else
    []

end Printf

open Printf in
/-- `Sprintf`. -/
def sprintf {Arg : Type u} (P : Printer Arg) (format : Text) (a : List Arg) : Text :=
  let p := doPrintf P a 0 0 false format
  p.out ++ if p.reordered then [] else extra P a p.argNum

/-! ## Texts without a percent sign -/

section Literal

variable {Arg : Type u} (P : Printer Arg) (a : List Arg)

theorem Printf.doPrintf_append {text : Text} (hplain : 37 ∉ text) (argNum : ℕ) (reordered : Bool)
    (format : Text) :
    doPrintf P a 0 argNum reordered (text ++ format) =
      { doPrintf P a 0 argNum reordered format with
        out := text ++ (doPrintf P a 0 argNum reordered format).out } := by
  induction text with
  | nil => rfl
  | cons c text ih =>
      have hc : c ≠ 37 := fun hsame => hplain (hsame ▸ List.mem_cons_self)
      have hrest : 37 ∉ text := fun hmem => hplain (List.mem_cons_of_mem _ hmem)
      rw [List.cons_append, doPrintf, if_neg hc, ih hrest]
      rfl

/-- **A text without a percent sign** is printed as it stands, and leaves the
arguments to the format behind it. -/
theorem sprintf_append {text : Text} (hplain : 37 ∉ text) (format : Text) :
    sprintf P (text ++ format) a = text ++ sprintf P format a := by
  rw [sprintf, Printf.doPrintf_append P a hplain]
  simp only [sprintf, List.append_assoc]

end Literal

/-! ## Texts with a percent sign

Without arguments a directive prints at most as many percent signs and stars as
it reads, and fewer if it is an escaped percent sign. All other directives print
a text that begins with a percent sign and an exclamation mark. -/

namespace Printf

section Bare

variable {Arg : Type u} {P : Printer Arg}

/-- The number of percent signs and stars. -/
def weight (text : Text) : ℕ := text.count 37 + text.count 42

@[simp]
theorem weight_append (first second : Text) :
    weight (first ++ second) = weight first + weight second := by
  simp only [weight, List.count_append]
  omega

theorem weight_le_of_suffix {first second : Text} (hsuffix : first <:+ second) :
    weight first ≤ weight second :=
  Nat.add_le_add (hsuffix.sublist.count_le 37) (hsuffix.sublist.count_le 42)

theorem weight_cons_of_head? {text : Text} {c : UInt8} (hhead : text.head? = some c) :
    weight text = weight [c] + weight text.tail := by
  cases text with
  | nil => cases hhead
  | cons d text =>
      cases hhead
      exact weight_append [c] text

/-- What a part of a directive without arguments does: it moves on in the format,
takes no argument, and writes nothing or an error for a star that it has read. -/
structure Advances (s next : Cursor) : Prop where
  suffix : next.rest <:+ s.rest
  argNum_eq : next.argNum = s.argNum
  weight_le : weight next.out + weight next.rest ≤ weight s.out + weight s.rest
  marked : next.out = s.out ∨ ∃ text, next.out = s.out ++ (ascii "%!" ++ text)

theorem Advances.refl (s : Cursor) : Advances s s :=
  ⟨List.suffix_rfl, rfl, le_rfl, Or.inl rfl⟩

/-- An error behind nothing or another error is an error. -/
theorem Advances.error_behind {s middle : Cursor} (hfirst : Advances s middle) (text : Text) :
    ∃ error, middle.out ++ (ascii "%!" ++ text) = s.out ++ (ascii "%!" ++ error) := by
  rcases hfirst.marked with hsame | ⟨before, hbefore⟩
  · exact ⟨text, by rw [hsame]⟩
  · refine ⟨before ++ (ascii "%!" ++ text), ?_⟩
    rw [hbefore, List.append_assoc, List.append_assoc]

theorem Advances.trans {s middle next : Cursor} (hfirst : Advances s middle)
    (hsecond : Advances middle next) : Advances s next := by
  refine ⟨hsecond.suffix.trans hfirst.suffix, hsecond.argNum_eq.trans hfirst.argNum_eq,
    hsecond.weight_le.trans hfirst.weight_le, ?_⟩
  rcases hsecond.marked with hsame | ⟨text, htext⟩
  · rw [hsame]
    exact hfirst.marked
  · right
    rw [htext]
    exact hfirst.error_behind text

/-- A part that only moves on. -/
theorem Advances.of_suffix {s next : Cursor} (hsuffix : next.rest <:+ s.rest)
    (hargNum : next.argNum = s.argNum) (hout : next.out = s.out) : Advances s next := by
  refine ⟨hsuffix, hargNum, ?_, Or.inl hout⟩
  rw [hout]
  exact Nat.add_le_add_left (weight_le_of_suffix hsuffix) _

theorem takeFlags_suffix (flags : Flags) (format : Text) : (takeFlags flags format).2 <:+ format := by
  induction format generalizing flags with
  | nil => exact List.suffix_rfl
  | cons c rest ih =>
      rw [takeFlags]
      split_ifs
      all_goals first
        | exact List.suffix_rfl
        | exact (ih _).trans (List.suffix_cons c rest)

theorem parsenumFrom_suffix (s : Text) (num : ℕ) (isnum : Bool) :
    (parsenumFrom s num isnum).2.2 <:+ s := by
  induction s generalizing num isnum with
  | nil => exact List.suffix_rfl
  | cons c rest ih =>
      rw [parsenumFrom]
      split
      · split
        · exact List.nil_suffix
        · exact (ih _ _).trans (List.suffix_cons c rest)
      · exact List.suffix_rfl

theorem advances_argNumber (s : Cursor) : Advances s (argNumber 0 s) := by
  rw [argNumber]
  split
  · simp only
    split
    · rename_i hindex
      omega
    · exact .of_suffix (List.drop_suffix _ _) rfl rfl
  · exact .of_suffix List.suffix_rfl rfl rfl

/-- A star without an argument is answered by an error. -/
theorem advances_star {s next : Cursor} {text : Text} (hstar : s.rest.head? = some 42)
    (hrest : next.rest = s.rest.tail) (hargNum : next.argNum = s.argNum)
    (hout : next.out = s.out ++ (ascii "%!" ++ text)) (hplain : weight text = 0) :
    Advances s next := by
  refine ⟨?_, hargNum, ?_, Or.inr ⟨text, hout⟩⟩
  · rw [hrest]
    exact List.tail_suffix _
  · have hone : weight [42] = 1 := by decide
    have hbang : weight (ascii "%!") = 1 := by decide
    rw [hout, hrest, weight_cons_of_head? hstar, weight_append, weight_append, hone, hbang, hplain]
    omega

theorem advances_width (s : Cursor) : Advances s (width P [] s) := by
  rw [width]
  split
  · rename_i hstar
    exact advances_star hstar rfl rfl rfl (show weight (ascii "(BADWIDTH)") = 0 by decide)
  · exact .of_suffix (parsenumFrom_suffix _ _ _) rfl rfl

theorem advances_precisionDigits (s : Cursor) : Advances s (precisionDigits P [] s) := by
  rw [precisionDigits]
  split
  · rename_i hstar
    exact advances_star hstar rfl rfl rfl (show weight (ascii "(BADPREC)") = 0 by decide)
  · exact .of_suffix (parsenumFrom_suffix _ _ _) rfl rfl

theorem advances_precision (s : Cursor) : Advances s (precision P [] s) := by
  rw [precision]
  split
  · apply Advances.trans _ (advances_precisionDigits _)
    apply Advances.trans _ (advances_argNumber _)
    exact .of_suffix (List.tail_suffix _) rfl rfl
  · exact .refl s

/-- The bytes that are written for a rune have been read. -/
theorem weight_decodeRune (s : Text) :
    weight (decodeRune s).1 + weight (s.drop (decodeRune s).2) ≤ weight s := by
  rw [decodeRune]
  split
  · rename_i n _
    rw [← weight_append, List.take_append_drop]
  · have hreplacement : weight [239, 191, 189] = 0 := by decide
    rw [hreplacement, Nat.zero_add]
    exact weight_le_of_suffix (List.drop_suffix _ _)

/-- How a directive without arguments ends: with a percent sign for one that it
has read, or with an error. -/
structure Ends (s next : Cursor) : Prop where
  suffix : next.rest <:+ s.rest
  argNum_eq : next.argNum = s.argNum
  weight_le : weight next.out + weight next.rest ≤ weight s.out + weight s.rest ∨
    weight next.out + weight next.rest ≤ weight s.out + weight s.rest + 1 ∧
      ∃ text, next.out = s.out ++ (ascii "%!" ++ text)

/-- An error in the place of the rune that it names. -/
theorem ends_of_error {s next : Cursor} {text : Text}
    (hrest : next.rest = s.rest.drop (decodeRune s.rest).2) (hargNum : next.argNum = s.argNum)
    (hout : next.out = s.out ++ (ascii "%!" ++ (decodeRune s.rest).1 ++ text))
    (hplain : weight text = 0) : Ends s next := by
  refine ⟨?_, hargNum, Or.inr ⟨?_, _, hout.trans (by rw [List.append_assoc])⟩⟩
  · rw [hrest]
    exact List.drop_suffix _ _
  · have hbang : weight (ascii "%!") = 1 := by decide
    have hrune := weight_decodeRune s.rest
    rw [hout, hrest, weight_append, weight_append, weight_append, hbang, hplain]
    omega

theorem ends_verb (s : Cursor) : Ends s (verb P [] s) := by
  rw [verb]
  split
  · have hweight : weight (ascii "%!(NOVERB)") = 1 := by decide
    refine ⟨List.suffix_rfl, rfl, Or.inr ⟨?_, ascii "(NOVERB)", rfl⟩⟩
    show weight (s.out ++ ascii "%!(NOVERB)") + weight s.rest ≤ _
    rw [weight_append, hweight]
    omega
  · simp only
    split
    · rename_i hpercent
      have hrune := weight_decodeRune s.rest
      refine ⟨List.drop_suffix _ _, rfl, Or.inl ?_⟩
      show weight (s.out ++ ascii "%") + weight (s.rest.drop _) ≤ _
      rw [weight_append, ← hpercent]
      omega
    · split
      · exact ends_of_error rfl rfl rfl (by decide)
      · exact ends_of_error rfl rfl rfl (by decide)

theorem Advances.ends {s middle next : Cursor} (hfirst : Advances s middle)
    (hlast : Ends middle next) : Ends s next := by
  refine ⟨hlast.suffix.trans hfirst.suffix, hlast.argNum_eq.trans hfirst.argNum_eq, ?_⟩
  rcases hlast.weight_le with hpercent | ⟨hweight, text, htext⟩
  · exact Or.inl (hpercent.trans hfirst.weight_le)
  · right
    refine ⟨hweight.trans (Nat.add_le_add_right hfirst.weight_le 1), ?_⟩
    rw [htext]
    exact hfirst.error_behind text

theorem ends_longDirective (s : Cursor) : Ends s (longDirective P [] s) := by
  have hparts : Advances s (precision P [] (width P [] (argNumber 0 s))) :=
    ((advances_argNumber s).trans (advances_width _)).trans (advances_precision _)
  rw [longDirective]
  split
  · exact hparts.ends (ends_verb _)
  · exact (hparts.trans (advances_argNumber _)).ends (ends_verb _)

/-- Without arguments there is no shorter form. -/
theorem directive_bare (argNum : ℕ) (format : Text) :
    directive P [] argNum format =
      longDirective P []
        { rest := (takeFlags {} format).2, argNum := argNum, flags := (takeFlags {} format).1 } := by
  rw [directive]
  simp only [List.getElem?_nil]
  cases (takeFlags {} format).2 <;> rfl

/-- **A directive without arguments** is a percent sign for one that was read, or
an error. -/
theorem directive_bare_cases (argNum : ℕ) (format : Text) :
    (directive P [] argNum format).rest <:+ format ∧
      (directive P [] argNum format).argNum = argNum ∧
      (weight (directive P [] argNum format).out + weight (directive P [] argNum format).rest ≤
          weight format ∨
        weight (directive P [] argNum format).out + weight (directive P [] argNum format).rest ≤
            weight format + 1 ∧
          ∃ text, (directive P [] argNum format).out = ascii "%!" ++ text) := by
  have hflags := takeFlags_suffix {} format
  have hweight := weight_le_of_suffix hflags
  have hempty : weight [] = 0 := rfl
  rw [directive_bare]
  obtain ⟨hsuffix, hargNum, hcases⟩ := @ends_longDirective _ P
    { rest := (takeFlags {} format).2, argNum := argNum, flags := (takeFlags {} format).1 }
  refine ⟨hsuffix.trans hflags, hargNum, ?_⟩
  simp only [hempty, Nat.zero_add, List.nil_append] at hcases
  rcases hcases with hpercent | ⟨hmore, text, htext⟩
  · exact Or.inl (hpercent.trans hweight)
  · exact Or.inr ⟨hmore.trans (Nat.add_le_add_right hweight 1), text, htext⟩

theorem doPrintf_skip (a : List Arg) (skip argNum : ℕ) (reordered : Bool) (format : Text) :
    doPrintf P a skip argNum reordered format =
      doPrintf P a 0 argNum reordered (format.drop skip) := by
  induction format generalizing skip with
  | nil =>
      rw [List.drop_nil]
      cases skip <;> rfl
  | cons c format ih =>
      cases skip with
      | zero => rfl
      | succ skip =>
          rw [doPrintf, ih skip, List.drop_succ_cons]

/-- Whether there was an argument index matters only to what is listed at the end. -/
theorem out_doPrintf (a : List Arg) (skip argNum : ℕ) (reordered : Bool) (format : Text) :
    (doPrintf P a skip argNum reordered format).out =
      (doPrintf P a skip argNum false format).out := by
  induction format generalizing skip argNum reordered with
  | nil => cases skip <;> rfl
  | cons c format ih =>
      cases skip with
      | succ skip => exact ih skip argNum reordered
      | zero =>
          rw [doPrintf, doPrintf]
          split
          · simp only
            rw [ih, ih _ _ (false || _)]
          · simp only
            rw [ih]

theorem sprintf_bare (format : Text) :
    sprintf P format [] = (doPrintf P [] 0 0 false format).out := by
  rw [sprintf]
  simp only [extra, List.length_nil, Nat.not_lt_zero, if_false, ite_self, List.append_nil]

theorem sprintf_bare_nil : sprintf P [] [] = [] := by
  rw [sprintf_bare]
  rfl

theorem sprintf_bare_cons {c : UInt8} (hplain : c ≠ 37) (format : Text) :
    sprintf P (c :: format) [] = c :: sprintf P format [] := by
  have hnot : 37 ∉ [c] := by simpa using hplain.symm
  exact sprintf_append P [] hnot format

theorem sprintf_bare_percent (format : Text) :
    sprintf P (37 :: format) [] =
      (directive P [] 0 format).out ++ sprintf P (directive P [] 0 format).rest [] := by
  obtain ⟨hsuffix, hargNum, -⟩ := @directive_bare_cases _ P 0 format
  rw [sprintf_bare, sprintf_bare, doPrintf, if_pos rfl]
  simp only
  rw [out_doPrintf, doPrintf_skip, hargNum, ← List.suffix_iff_eq_drop.mp hsuffix]

/-- Without arguments a format prints at most as many percent signs and stars as
it has. -/
theorem weight_sprintf_bare_le (format : Text) : weight (sprintf P format []) ≤ weight format := by
  induction hlength : format.length using Nat.strong_induction_on generalizing format with
  | _ length ih =>
      cases format with
      | nil => rw [sprintf_bare_nil]
      | cons c format =>
          rw [List.length_cons] at hlength
          have hcons : weight (c :: format) = weight [c] + weight format := weight_append [c] format
          by_cases hc : c = 37
          · subst hc
            have hone : weight [37] = 1 := by decide
            obtain ⟨hsuffix, -, hcases⟩ := @directive_bare_cases _ P 0 format
            have hshorter := hsuffix.length_le
            have hrest := ih (directive P [] 0 format).rest.length (by omega) _ rfl
            rw [sprintf_bare_percent, weight_append, hcons, hone]
            rcases hcases with hpercent | ⟨hmore, -⟩
            · omega
            · omega
          · have hrest := ih format.length (by omega) format rfl
            have hprinted : weight (c :: sprintf P format []) =
                weight [c] + weight (sprintf P format []) := weight_append [c] _
            rw [sprintf_bare_cons hc, hprinted, hcons]
            exact Nat.add_le_add_left hrest _

/-- The exclamation mark is a verb, and it misses its argument. -/
theorem sprintf_bare_bang (format : Text) :
    sprintf P (ascii "%!" ++ format) [] = ascii "%!!(MISSING)" ++ sprintf P format [] :=
  sprintf_bare_percent (33 :: format)

/-- The error for the exclamation mark cannot repeat itself for ever. -/
theorem ne_missing_append (format : Text) :
    format ≠ ascii "!(MISSING)" ++ sprintf P format [] := by
  induction hlength : format.length using Nat.strong_induction_on generalizing format with
  | _ length ih =>
      intro hsame
      have hprinted : sprintf P format [] =
          ascii "!(MISSING)" ++ sprintf P (sprintf P format []) [] := by
        nth_rewrite 1 [hsame]
        exact sprintf_append P [] (by decide) _
      refine ih (sprintf P format []).length ?_ _ rfl hprinted
      rw [← hlength]
      nth_rewrite 2 [hsame]
      rw [List.length_append]
      exact Nat.lt_add_of_pos_left (by decide)

/-- **A text with a percent sign** is not printed as it stands. -/
theorem not_mem_of_sprintf_bare {text : Text} (hsame : sprintf P text [] = text) : 37 ∉ text := by
  intro hmem
  obtain ⟨front, behind, rfl, hfront⟩ := List.eq_append_cons_of_mem hmem
  rw [sprintf_append P [] hfront] at hsame
  have hpercent : sprintf P (37 :: behind) [] = 37 :: behind := List.append_cancel_left hsame
  have hprinted := hpercent
  rw [sprintf_bare_percent] at hprinted
  obtain ⟨-, -, hfewer | ⟨-, error, herror⟩⟩ := @directive_bare_cases _ P 0 behind
  · -- an escaped percent sign is lost, and nothing makes up for it
    have hrest := @weight_sprintf_bare_le _ P (directive P [] 0 behind).rest
    have hone : weight [37] = 1 := by decide
    have hweight := congrArg weight hprinted
    have hcons : weight (37 :: behind) = weight [37] + weight behind := weight_append [37] behind
    rw [weight_append, hcons, hone] at hweight
    omega
  · -- the directive is the beginning of an error, which is not an error itself
    rw [herror] at hprinted
    obtain ⟨-, hbang⟩ := List.cons.inj hprinted
    obtain ⟨u, hu⟩ : ∃ u, behind = 33 :: u := ⟨_, hbang.symm⟩
    rw [hu] at hpercent
    have hmissing : ascii "%!" ++ (ascii "!(MISSING)" ++ sprintf P u []) = ascii "%!" ++ u :=
      (sprintf_bare_bang u).symm.trans hpercent
    exact ne_missing_append u (List.append_cancel_left hmissing).symm

end Bare

end Printf

end Xrtc.Machine
