/-
# Texts of lines and words

A text is a byte string. Some protocols write it as lines that end with a carriage
return and a line feed, group the lines into sections that begin at lines of a
certain kind, and put words with separators between them on a line. Here are the
operations that take such a text apart again, and the laws by which they undo the
writing: of lines, of sections, and of a word up to its first separator.
-/

import Mathlib.Data.List.Basic

namespace Xrtc.Machine

universe u v

abbrev Text := List UInt8

/-- The bytes of a string of ASCII characters. -/
def ascii (s : String) : Text := s.toList.map fun c => UInt8.ofNat c.toNat

def crlf : Text := [13, 10]

/-! ## Lines -/

/-- The text has neither a carriage return nor a line feed. -/
def OneLine (text : Text) : Prop := 13 ∉ text ∧ 10 ∉ text

instance (text : Text) : Decidable (OneLine text) := inferInstanceAs (Decidable (_ ∧ _))

/-- Lines, each with its end. -/
def unlines (lines : List Text) : Text := lines.flatMap fun line => line ++ crlf

/-- The lines of a text behind the beginning of a line, and what stands behind the
last line end. -/
def splitLinesFrom (line : Text) : Text → List Text × Text
  | [] => ([], line)
  | [c] => ([], line ++ [c])
  | c :: d :: rest =>
      if c = 13 ∧ d = 10 then
        (line :: (splitLinesFrom [] rest).1, (splitLinesFrom [] rest).2)
      else
        splitLinesFrom (line ++ [c]) (d :: rest)

/-- Split a text at its line ends. -/
def splitLines (text : Text) : List Text × Text := splitLinesFrom [] text

@[simp]
theorem oneLine_append {first second : Text} :
    OneLine (first ++ second) ↔ OneLine first ∧ OneLine second := by
  simp only [OneLine, List.mem_append, not_or]
  exact and_and_and_comm

theorem oneLine_flatMap {α : Type u} {f : α → Text} {as : List α}
    (hf : ∀ a ∈ as, OneLine (f a)) : OneLine (as.flatMap f) := by
  constructor
  · intro hmem
    obtain ⟨a, ha, hc⟩ := List.mem_flatMap.mp hmem
    exact (hf a ha).1 hc
  · intro hmem
    obtain ⟨a, ha, hc⟩ := List.mem_flatMap.mp hmem
    exact (hf a ha).2 hc

theorem oneLine_intercalate {separator : Text} {words : List Text} (hseparator : OneLine separator)
    (hwords : ∀ word ∈ words, OneLine word) : OneLine (separator.intercalate words) := by
  induction words with
  | nil => exact ⟨List.not_mem_nil, List.not_mem_nil⟩
  | cons word words ih =>
      obtain ⟨hword, hrest⟩ := List.forall_mem_cons.mp hwords
      by_cases hlast : words = []
      · rw [hlast, List.intercalate_singleton]
        exact hword
      · rw [List.intercalate_cons_of_ne_nil hlast, oneLine_append, oneLine_append]
        exact ⟨⟨hword, hseparator⟩, ih hrest⟩

@[simp]
theorem unlines_nil : unlines [] = [] := rfl

@[simp]
theorem unlines_cons (line : Text) (lines : List Text) :
    unlines (line :: lines) = line ++ crlf ++ unlines lines := rfl

@[simp]
theorem unlines_append (first second : List Text) :
    unlines (first ++ second) = unlines first ++ unlines second := List.flatMap_append

theorem unlines_flatMap {α : Type u} (f : α → List Text) (as : List α) :
    unlines (as.flatMap f) = as.flatMap fun a => unlines (f a) := List.flatMap_assoc

/-- A line with its end is the first line. -/
theorem splitLinesFrom_append {line : Text} (start rest : Text) (hline : OneLine line) :
    splitLinesFrom start (line ++ (crlf ++ rest)) =
      ((start ++ line) :: (splitLines rest).1, (splitLines rest).2) := by
  induction line generalizing start with
  | nil =>
      rw [List.nil_append, List.append_nil]
      rfl
  | cons c line ih =>
      have hc : c ≠ 13 := fun heq => hline.1 (heq ▸ List.mem_cons_self)
      have hrest : OneLine line :=
        ⟨fun hmem => hline.1 (List.mem_cons_of_mem c hmem),
          fun hmem => hline.2 (List.mem_cons_of_mem c hmem)⟩
      have hskip : splitLinesFrom start (c :: (line ++ (crlf ++ rest))) =
          splitLinesFrom (start ++ [c]) (line ++ (crlf ++ rest)) := by
        cases line with
        | nil => exact if_neg fun hend => hc hend.1
        | cons d line => exact if_neg fun hend => hc hend.1
      rw [List.cons_append, hskip, ih _ hrest, List.append_assoc, List.singleton_append]

/-- **Lines are split off again.** -/
theorem splitLines_unlines {lines : List Text} (hlines : ∀ line ∈ lines, OneLine line) :
    splitLines (unlines lines) = (lines, []) := by
  induction lines with
  | nil => rfl
  | cons line lines ih =>
      obtain ⟨hline, hrest⟩ := List.forall_mem_cons.mp hlines
      rw [unlines_cons, List.append_assoc, splitLines, splitLinesFrom_append [] _ hline, ih hrest,
        List.nil_append]

/-! ## Sections -/

/-- The sections of a list that begin at the elements of a kind, each with the
elements up to the next. What stands in front of the first is left out. -/
def sectionsFrom {α : Type u} (p : α → Bool) : List α → List (α × List α)
  | [] => []
  | a :: rest =>
      if p a then
        (a, rest.takeWhile fun b => !p b) :: sectionsFrom p rest
      else
        sectionsFrom p rest

section Sections

variable {α : Type u} {β : Type v} {p : α → Bool} {head : β → α} {body : β → List α}

theorem sectionsFrom_append {front : List α} (hfront : ∀ a ∈ front, p a = false) (rest : List α) :
    sectionsFrom p (front ++ rest) = sectionsFrom p rest := by
  induction front with
  | nil => rfl
  | cons a front ih =>
      obtain ⟨ha, hfront⟩ := List.forall_mem_cons.mp hfront
      rw [List.cons_append, sectionsFrom, if_neg (by rw [ha]; exact Bool.false_ne_true), ih hfront]

/-- What stands in front of the first section. -/
theorem takeWhile_front {front : List α} {bs : List β} (hfront : ∀ a ∈ front, p a = false)
    (hhead : ∀ b ∈ bs, p (head b) = true) :
    (front ++ bs.flatMap fun b => head b :: body b).takeWhile (fun a => !p a) = front := by
  have hall : ∀ a ∈ front, (!p a) = true := by
    intro a ha
    rw [hfront a ha]
    rfl
  rw [List.takeWhile_append_of_pos hall]
  cases bs with
  | nil => simp
  | cons b bs =>
      have hb := hhead b List.mem_cons_self
      simp [hb]

/-- **Sections are told apart again.** -/
theorem sectionsFrom_flatMap {bs : List β} (hhead : ∀ b ∈ bs, p (head b) = true)
    (hbody : ∀ b ∈ bs, ∀ a ∈ body b, p a = false) :
    sectionsFrom p (bs.flatMap fun b => head b :: body b) = bs.map fun b => (head b, body b) := by
  induction bs with
  | nil => rfl
  | cons b bs ih =>
      obtain ⟨hb, hheads⟩ := List.forall_mem_cons.mp hhead
      obtain ⟨hbb, hbodies⟩ := List.forall_mem_cons.mp hbody
      rw [List.flatMap_cons, List.cons_append, sectionsFrom, if_pos hb, takeWhile_front hbb hheads,
        sectionsFrom_append hbb, ih hheads hbodies, List.map_cons]

end Sections

/-! ## Words -/

/-- What stands before the first separator. -/
def before (separator : UInt8) (text : Text) : Text := text.takeWhile (· ≠ separator)

/-- What stands behind the first separator. -/
def behind (separator : UInt8) (text : Text) : Text := (text.dropWhile (· ≠ separator)).drop 1

/-- What stands behind these first letters of a text. -/
def after (start text : Text) : Option Text :=
  if start.isPrefixOf text then some (text.drop start.length) else none

section Words

variable {separator : UInt8} {word : Text}

theorem decide_ne_of_notMem (hword : separator ∉ word) :
    ∀ c ∈ word, decide (c ≠ separator) = true := by
  intro c hc
  apply decide_eq_true
  rintro rfl
  exact hword hc

theorem before_append (hword : separator ∉ word) (rest : Text) :
    before separator (word ++ separator :: rest) = word := by
  rw [before, List.takeWhile_append_of_pos (decide_ne_of_notMem hword),
    List.takeWhile_cons_of_neg (by simp), List.append_nil]

theorem behind_append (hword : separator ∉ word) (rest : Text) :
    behind separator (word ++ separator :: rest) = rest := by
  rw [behind, List.dropWhile_append_of_pos (decide_ne_of_notMem hword),
    List.dropWhile_cons_of_neg (by simp)]
  rfl

/-- A word without a separator is all there is. -/
theorem before_of_notMem (hword : separator ∉ word) : before separator word = word := by
  have hall := @List.takeWhile_append_of_pos _ _ word [] (decide_ne_of_notMem hword)
  rw [List.append_nil, List.takeWhile_nil, List.append_nil] at hall
  exact hall

theorem behind_of_notMem (hword : separator ∉ word) : behind separator word = [] := by
  have hall := @List.dropWhile_append_of_pos _ _ word [] (decide_ne_of_notMem hword)
  rw [List.append_nil, List.dropWhile_nil] at hall
  rw [behind, hall]
  rfl

/-- Words behind separators, behind a first word. -/
theorem append_flatMap_eq_intercalate (first : Text) (words : List Text) :
    (first ++ words.flatMap fun word => separator :: word) =
      [separator].intercalate (first :: words) := by
  induction words generalizing first with
  | nil => rw [List.flatMap_nil, List.append_nil, List.intercalate_singleton]
  | cons word words ih =>
      rw [List.intercalate_cons_cons, ← ih word, List.flatMap_cons, List.cons_append,
        List.append_assoc, List.singleton_append]

/-- **Words are split off again.** -/
theorem splitOn_append_flatMap {first : Text} {words : List Text} (hfirst : separator ∉ first)
    (hwords : ∀ word ∈ words, separator ∉ word) :
    (first ++ words.flatMap fun word => separator :: word).splitOn separator = first :: words := by
  rw [append_flatMap_eq_intercalate]
  exact List.splitOn_intercalate separator (List.forall_mem_cons.mpr ⟨hfirst, hwords⟩)
    (List.cons_ne_nil _ _)

theorem isPrefixOf_append (start rest : Text) : start.isPrefixOf (start ++ rest) = true := by
  rw [List.isPrefixOf_iff_prefix]
  exact List.prefix_append start rest

theorem after_append (start rest : Text) : after start (start ++ rest) = some rest := by
  rw [after, if_pos (isPrefixOf_append start rest), List.drop_left]

end Words

/-! ## Beginnings of lines -/

/-- The line begins with one of these texts. -/
def Begins (starts : List Text) (line : Text) : Prop := ∃ start ∈ starts, start <+: line

section Beginnings

variable {starts : List Text} {line start : Text}

theorem begins_append (hstart : start ∈ starts) (rest : Text) : Begins starts (start ++ rest) :=
  ⟨start, hstart, List.prefix_append start rest⟩

theorem begins_self (hstart : start ∈ starts) : Begins starts start :=
  ⟨start, hstart, List.prefix_rfl⟩

theorem Begins.mono {others : List Text} (hline : Begins starts line)
    (hsubset : starts ⊆ others) : Begins others line := by
  obtain ⟨start, hstart, hprefix⟩ := hline
  exact ⟨start, hsubset hstart, hprefix⟩

/-- A line that begins in one of several ways does not begin in a way that agrees
with none of them. -/
theorem Begins.isPrefixOf_eq_false (hline : Begins starts line)
    (hother : ∀ other ∈ starts, ¬ start <+: other ∧ ¬ other <+: start) :
    start.isPrefixOf line = false := by
  obtain ⟨other, hmem, hprefix⟩ := hline
  rw [← Bool.not_eq_true, List.isPrefixOf_iff_prefix]
  intro hstart
  rcases List.prefix_or_prefix_of_prefix hstart hprefix with hin | hin
  · exact (hother other hmem).1 hin
  · exact (hother other hmem).2 hin

/-- None of the lines that begin in certain ways begins in another way. -/
theorem filter_isPrefixOf_of_begins {lines : List Text} (hlines : ∀ line ∈ lines, Begins starts line)
    (hother : ∀ other ∈ starts, ¬ start <+: other ∧ ¬ other <+: start) :
    lines.filter start.isPrefixOf = [] := by
  rw [List.filter_eq_nil_iff]
  intro line hline
  rw [(hlines line hline).isPrefixOf_eq_false hother]
  exact Bool.false_ne_true

/-- What stands behind other first letters is nothing. -/
theorem Begins.after_eq_none (hline : Begins starts line)
    (hother : ∀ other ∈ starts, ¬ start <+: other ∧ ¬ other <+: start) :
    after start line = none := by
  rw [after, if_neg]
  rw [hline.isPrefixOf_eq_false hother]
  exact Bool.false_ne_true

end Beginnings

/-! ## Sizes -/

/-- A printable ASCII character, a carriage return or a line feed. -/
def isPlain (c : UInt8) : Bool := c == 13 || c == 10 || (decide (32 ≤ c) && decide (c ≤ 126))

/-- At most `n` bytes, all of them plain. -/
structure Fits (n : ℕ) (text : Text) : Prop where
  length_le : text.length ≤ n
  plain : ∀ c ∈ text, isPlain c = true

instance (n : ℕ) (text : Text) : Decidable (Fits n text) :=
  decidable_of_iff (text.length ≤ n ∧ text.all isPlain = true)
    ⟨fun h => ⟨h.1, List.all_eq_true.mp h.2⟩, fun h => ⟨h.1, List.all_eq_true.mpr h.2⟩⟩

section Sizes

variable {m n : ℕ} {line first second : Text} {lines others : List Text}

theorem fits_nil (n : ℕ) : Fits n [] := ⟨Nat.zero_le n, by simp⟩

theorem Fits.append (hfirst : Fits m first) (hsecond : Fits n second) :
    Fits (m + n) (first ++ second) := by
  constructor
  · rw [List.length_append]
    exact Nat.add_le_add hfirst.length_le hsecond.length_le
  · rw [List.forall_mem_append]
    exact ⟨hfirst.plain, hsecond.plain⟩

theorem Fits.unlines_append (hlines : Fits m (unlines lines)) (hothers : Fits n (unlines others)) :
    Fits (m + n) (unlines (lines ++ others)) := by
  rw [Machine.unlines_append]
  exact hlines.append hothers

theorem Fits.unlines_singleton (hline : Fits n line) : Fits (n + 2) (unlines [line]) := by
  rw [unlines_cons, unlines_nil, List.append_nil]
  exact hline.append (by decide)

end Sizes

end Xrtc.Machine
