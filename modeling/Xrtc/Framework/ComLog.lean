/-
# The log of one HTTP request

`ComLog` collects the fields of a request and the times of its parts. Every line
that is logged begins with all of them. The functions `Infof`, `Warningf` and
their siblings put that beginning in front of the caller's format and hand the
two together, as one format, to glog, which formats once more. Most fields are
texts of the client.

The result says when a line is what it should be: the beginning as it stands, and
behind it what the caller's format prints.
-/

import Xrtc.Machine.Printf

namespace Xrtc.Framework

open Xrtc.Machine Xrtc.Machine.Printf

universe u

structure LogItem where
  field : Text
  value : Text
  deriving DecidableEq

/-- `timeItem`, with readings of the clock in microseconds. -/
structure TimeItem where
  field : Text
  beginTime : ℤ
  endTime : ℤ := 0
  deriving DecidableEq

structure ComLog where
  mainLog : List LogItem := []
  timeLog : List TimeItem := []
  deriving DecidableEq

/-- A printer that knows the number `float64(d) / 1000`. Under `%.3f` it has
digits, a point and perhaps a sign, but no percent sign. -/
structure LogPrinter (Arg : Type u) extends Printer Arg where
  thousandth : ℤ → Arg
  printArg_thousandth : ∀ d, 37 ∉ printArg { prec := some 3 } (thousandth d) (ascii "f")

/-- The severities of glog. -/
inductive Severity
  | debug
  | info
  | warning
  | error
  | fatal
  deriving DecidableEq

/-- A line of the log, without what glog puts around it. -/
structure LogLine where
  severity : Severity
  message : Text
  deriving DecidableEq

namespace ComLog

/-- The loop of `TimeEnd`, which ends at the first item of the field. -/
def endFirst (field : Text) (now : ℤ) : List TimeItem → List TimeItem
  | [] => []
  | item :: items =>
      if item.field = field then
        { item with endTime := now } :: items
      else
        item :: endFirst field now items

/-- `TimeBegin`, at the reading `now`. -/
def timeBegin (c : ComLog) (field : Text) (now : ℤ) : ComLog :=
  { c with timeLog := c.timeLog ++ [{ field := field, beginTime := now }] }

/-- `TimeEnd`, at the reading `now`. -/
def timeEnd (c : ComLog) (field : Text) (now : ℤ) : ComLog :=
  { c with timeLog := endFirst field now c.timeLog }

def addLogItem (c : ComLog) (field value : Text) : ComLog :=
  { c with mainLog := c.mainLog ++ [{ field := field, value := value }] }

section Lines

variable {Arg : Type u} (P : LogPrinter Arg)

/-- What one item adds to the beginning of a line. -/
def itemText (item : LogItem) : Text :=
  sprintf P.toPrinter (ascii "%s[%s] ") [P.ofString item.field, P.ofString item.value]

/-- What one timer adds to it. -/
def timeText (item : TimeItem) : Text :=
  sprintf P.toPrinter (ascii "%s[%.3f ms] ")
    [P.ofString item.field, P.thousandth (item.endTime - item.beginTime)]

def getMainLogPrefix (c : ComLog) : Text :=
  let start := c.mainLog.foldl (fun start item => start ++ itemText P item) []
  c.timeLog.foldl (fun start item => start ++ timeText P item) start

/-- The format that is handed to glog. -/
def totalLog (c : ComLog) (format : Text) : Text :=
  sprintf P.toPrinter (ascii "%s %s") [P.ofString (c.getMainLogPrefix P), P.ofString format]

/-- `logsink.Printf` of glog formats with `fmt.Fprintf`. -/
def logf (severity : Severity) (format : Text) (args : List Arg) : LogLine :=
  { severity := severity, message := sprintf P.toPrinter format args }

def debugf (c : ComLog) (format : Text) (args : List Arg) : LogLine :=
  logf P .debug (c.totalLog P format) args

def infof (c : ComLog) (format : Text) (args : List Arg) : LogLine :=
  logf P .info (c.totalLog P format) args

def errorf (c : ComLog) (format : Text) (args : List Arg) : LogLine :=
  logf P .error (c.totalLog P format) args

def fatalf (c : ComLog) (format : Text) (args : List Arg) : LogLine :=
  logf P .fatal (c.totalLog P format) args

def warningf (c : ComLog) (format : Text) (args : List Arg) : LogLine :=
  logf P .warning (c.totalLog P format) args

/-! ## The beginning of a line -/

variable {P} {c : ComLog}

theorem itemText_eq (item : LogItem) :
    itemText P item = item.field ++ (ascii "[" ++ (item.value ++ ascii "] ")) := by
  have hprinted : itemText P item =
      P.printArg {} (P.ofString item.field) (ascii "s") ++
        (ascii "[" ++ (P.printArg {} (P.ofString item.value) (ascii "s") ++ ascii "] ")) ++ [] :=
    rfl
  rw [hprinted, P.printArg_ofString, P.printArg_ofString, List.append_nil]

theorem timeText_eq (item : TimeItem) :
    timeText P item = item.field ++ (ascii "[" ++
      (P.printArg { prec := some 3 } (P.thousandth (item.endTime - item.beginTime)) (ascii "f") ++
        ascii " ms] ")) := by
  have hprinted (field number : Arg) :
      sprintf P.toPrinter (ascii "%s[%.3f ms] ") [field, number] =
        P.printArg {} field (ascii "s") ++ (ascii "[" ++
          (P.printArg { prec := some 3 } number (ascii "f") ++ ascii " ms] ")) := by
    simp [sprintf, ascii, doPrintf, directive, takeFlags, longDirective, argNumber, width,
      precision, precisionDigits, parsenum, parsenumFrom, verb, decodeRune, runeLength, isDigit,
      digitValue, flagsFor, extra]
  rw [timeText, hprinted, P.printArg_ofString]

theorem totalLog_eq (format : Text) :
    c.totalLog P format = c.getMainLogPrefix P ++ (ascii " " ++ format) := by
  have hprinted : c.totalLog P format =
      P.printArg {} (P.ofString (c.getMainLogPrefix P)) (ascii "s") ++
        (ascii " " ++ (P.printArg {} (P.ofString format) (ascii "s") ++ [])) ++ [] := rfl
  rw [hprinted, P.printArg_ofString, P.printArg_ofString, List.append_nil, List.append_nil]

theorem foldl_append {α : Type} (f : α → Text) (start : Text) (as : List α) :
    as.foldl (fun start a => start ++ f a) start = start ++ as.flatMap f := by
  induction as generalizing start with
  | nil => rw [List.foldl_nil, List.flatMap_nil, List.append_nil]
  | cons a as ih => rw [List.foldl_cons, ih, List.flatMap_cons, List.append_assoc]

theorem getMainLogPrefix_eq :
    c.getMainLogPrefix P = c.mainLog.flatMap (itemText P) ++ c.timeLog.flatMap (timeText P) := by
  rw [getMainLogPrefix]
  simp only [foldl_append, List.nil_append]

/-- No text of the log has a percent sign. -/
def Plain (c : ComLog) : Prop :=
  (∀ item ∈ c.mainLog, 37 ∉ item.field ∧ 37 ∉ item.value) ∧ ∀ item ∈ c.timeLog, 37 ∉ item.field

instance (c : ComLog) : Decidable c.Plain := inferInstanceAs (Decidable (_ ∧ _))

theorem mem_itemText {item : LogItem} :
    37 ∈ itemText P item ↔ 37 ∈ item.field ∨ 37 ∈ item.value := by
  have hopen : 37 ∉ ascii "[" := by decide
  have hclose : 37 ∉ ascii "] " := by decide
  rw [itemText_eq, List.mem_append, List.mem_append, List.mem_append]
  tauto

theorem mem_timeText {item : TimeItem} : 37 ∈ timeText P item ↔ 37 ∈ item.field := by
  have hopen : 37 ∉ ascii "[" := by decide
  have hclose : 37 ∉ ascii " ms] " := by decide
  have hnumber := P.printArg_thousandth (item.endTime - item.beginTime)
  rw [timeText_eq, List.mem_append, List.mem_append, List.mem_append]
  tauto

/-- Percent signs in the beginning of a line come from the texts of the log. -/
theorem plain_iff : c.Plain ↔ 37 ∉ c.getMainLogPrefix P := by
  rw [getMainLogPrefix_eq, List.mem_append, List.mem_flatMap, List.mem_flatMap, Plain]
  simp only [mem_itemText, mem_timeText, not_or, not_exists, not_and]

/-! ## The lines -/

variable (P c)

/-- The line begins with the log as it stands, and the caller's format and
arguments do the rest. -/
def Verbatim : Prop :=
  ∀ (format : Text) (args : List Arg),
    (c.infof P format args).message =
        c.getMainLogPrefix P ++ (ascii " " ++ sprintf P.toPrinter format args) ∧
      (c.warningf P format args).message =
        c.getMainLogPrefix P ++ (ascii " " ++ sprintf P.toPrinter format args)

/-- **Lines are verbatim** exactly when no text of the log has a percent sign. -/
theorem verbatim_iff_plain : c.Verbatim P ↔ c.Plain := by
  rw [@plain_iff _ P]
  constructor
  · intro hverbatim
    -- the line without a format of its own prints the beginning as it stands
    have hline := (hverbatim [] []).1
    have hempty : sprintf P.toPrinter [] [] = [] := sprintf_bare_nil
    have hsame : sprintf P.toPrinter (c.getMainLogPrefix P ++ ascii " ") [] =
        c.getMainLogPrefix P ++ ascii " " := by
      have hformat : (c.infof P [] []).message =
          sprintf P.toPrinter (c.totalLog P []) [] := rfl
      rw [hformat, totalLog_eq, hempty, List.append_nil] at hline
      exact hline
    have hplain := not_mem_of_sprintf_bare hsame
    rw [List.mem_append, not_or] at hplain
    exact hplain.1
  · intro hplain format args
    have hspace : 37 ∉ ascii " " := by decide
    have hline : sprintf P.toPrinter (c.totalLog P format) args =
        c.getMainLogPrefix P ++ (ascii " " ++ sprintf P.toPrinter format args) := by
      rw [totalLog_eq, sprintf_append _ _ hplain, sprintf_append _ _ hspace]
    exact ⟨hline, hline⟩

end Lines

end ComLog

/-! ## The log that `entry` makes -/

/-- What `entry` reads of an HTTP request. `form` has the first value of every
key, in the order in which the map is gone through. -/
structure HttpRequest where
  path : Text
  referer : Text := []
  userAgent : Text := []
  remoteAddr : Text := []
  realIp : Text := []
  forwardedFor : Text := []
  form : List (Text × Text) := []

namespace HttpRequest

def getClientRealIP (r : HttpRequest) : Text :=
  let ip := r.realIp
  let ip := if ip = [] then r.forwardedFor else ip
  if ip = [] then r.remoteAddr else ip

/-- The log of a request when its action is called. -/
def entryLog (r : HttpRequest) (logId : ℤ) : ComLog :=
  let c : ComLog := {}
  let c := c.addLogItem (ascii "path") r.path
  let c := c.addLogItem (ascii "logid") (decimal logId)
  let c := c.addLogItem (ascii "referer") r.referer
  let c := c.addLogItem (ascii "user_agent") r.userAgent
  let c := c.addLogItem (ascii "remote_addr") r.remoteAddr
  let c := c.addLogItem (ascii "ua") r.userAgent
  let c := c.addLogItem (ascii "client_ip") r.getClientRealIP
  r.form.foldl (fun c pair => c.addLogItem pair.1 pair.2) c

theorem foldl_addLogItem (pairs : List (Text × Text)) (c : ComLog) :
    pairs.foldl (fun c pair => c.addLogItem pair.1 pair.2) c =
      { c with mainLog := c.mainLog ++ pairs.map fun pair => ⟨pair.1, pair.2⟩ } := by
  induction pairs generalizing c with
  | nil => rw [List.foldl_nil, List.map_nil, List.append_nil]
  | cons pair pairs ih =>
      rw [List.foldl_cons, ih, List.map_cons]
      simp only [ComLog.addLogItem, List.append_assoc, List.singleton_append]

/-- **Whether the lines of a request are verbatim is up to the client**: all of
the texts below are sent by it, and the others have no percent sign. -/
theorem plain_entryLog_iff (r : HttpRequest) (logId : ℤ) :
    (r.entryLog logId).Plain ↔
      37 ∉ r.path ∧ 37 ∉ r.referer ∧ 37 ∉ r.userAgent ∧ 37 ∉ r.remoteAddr ∧
        37 ∉ r.getClientRealIP ∧ ∀ pair ∈ r.form, 37 ∉ pair.1 ∧ 37 ∉ pair.2 := by
  have hlogId : 37 ∉ decimal logId := notMem_decimal logId (by decide) (by decide)
  have hnames : 37 ∉ ascii "path" ∧ 37 ∉ ascii "logid" ∧ 37 ∉ ascii "referer" ∧
      37 ∉ ascii "user_agent" ∧ 37 ∉ ascii "remote_addr" ∧ 37 ∉ ascii "ua" ∧
      37 ∉ ascii "client_ip" := by decide
  rw [entryLog, foldl_addLogItem]
  simp only [ComLog.Plain, ComLog.addLogItem, List.nil_append, List.cons_append,
    List.forall_mem_cons, List.forall_mem_map, hnames, hlogId, not_false_eq_true, true_and]
  constructor
  · rintro ⟨⟨hpath, hreferer, hagent, hremote, -, hclient, hform⟩, -⟩
    exact ⟨hpath, hreferer, hagent, hremote, hclient, hform⟩
  · rintro ⟨hpath, hreferer, hagent, hremote, hclient, hform⟩
    refine ⟨⟨hpath, hreferer, hagent, hremote, hagent, hclient, hform⟩, ?_⟩
    intro item hitem
    cases hitem

end HttpRequest

/-! ## Lines that are not verbatim -/

/-- The values that the lines below are made of. -/
inductive Value
  | string (text : Text)
  | float (thousandths : ℤ)

namespace Value

/-- A number of thousandths with three digits behind the point. -/
def fixed (d : ℤ) : Text :=
  (if d < 0 then [45] else []) ++
    (natDecimal (d.natAbs / 1000) ++ (46 :: (natDecimal (1000 + d.natAbs % 1000)).drop 1))

theorem notMem_fixed (d : ℤ) : 37 ∉ fixed d := by
  have hdigits (n : ℕ) : 37 ∉ natDecimal n := by
    intro hmem
    exact absurd (isDigit_of_mem_natDecimal hmem) (by decide)
  rw [fixed, List.mem_append, List.mem_append, List.mem_cons]
  rintro (hsign | hwhole | hpoint | hpart)
  · split at hsign
    · exact absurd hsign (by decide)
    · cases hsign
  · exact hdigits _ hwhole
  · exact absurd hpoint (by decide)
  · exact hdigits _ (List.mem_of_mem_drop hpart)

/-- How strings are printed without a width, and numbers under `%.3f`. -/
def printer : LogPrinter Value where
  printArg _ value verb :=
    match value with
    | .string text =>
        if verb = ascii "s" ∨ verb = ascii "v" then text
        else ascii "%!" ++ verb ++ ascii "(string=" ++ text ++ ascii ")"
    | .float d => fixed d
  toInt _ := none
  typeName value :=
    match value with
    | .string _ => some (ascii "string")
    | .float _ => some (ascii "float64")
  ofString := .string
  printArg_ofString := fun _ => rfl
  thousandth := .float
  printArg_thousandth := notMem_fixed

end Value

/-- The referer is a page with a blank in its name. -/
def blankReferer : ComLog := ComLog.addLogItem {} (ascii "referer") (ascii "/a%20b")

/-- The user agent is a verb. -/
def verbAgent : ComLog := ComLog.addLogItem {} (ascii "ua") (ascii "%s")

/-- **The client formats the line.** A referer with an escaped blank is garbled in
the line that `entry` logs, and a user agent that is a verb takes an argument from
the caller. -/
theorem lines_not_verbatim :
    (blankReferer.infof Value.printer [] []).message = ascii "referer[/a%!b(MISSING)]  " ∧
      ¬blankReferer.Verbatim Value.printer ∧
      (verbAgent.warningf Value.printer (ascii "uid %s") [.string (ascii "7")]).message =
        ascii "ua[7]  uid %!s(MISSING)" ∧
      ¬verbAgent.Verbatim Value.printer := by
  have hreferer : (blankReferer.infof Value.printer [] []).message =
      ascii "referer[/a%!b(MISSING)]  " := by decide +kernel
  have hagent : (verbAgent.warningf Value.printer (ascii "uid %s")
      [.string (ascii "7")]).message = ascii "ua[7]  uid %!s(MISSING)" := by decide +kernel
  refine ⟨hreferer, ?_, hagent, ?_⟩
  · intro hverbatim
    have hline := (hverbatim [] []).1
    rw [hreferer] at hline
    exact absurd hline (by decide +kernel)
  · intro hverbatim
    have hline := (hverbatim (ascii "uid %s") [.string (ascii "7")]).2
    rw [hagent] at hline
    exact absurd hline (by decide +kernel)

end Xrtc.Framework
