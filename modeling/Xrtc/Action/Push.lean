/-
# The push action of the HTTP server

`pushAction.Execute` reads four form fields, checks two of them, calls the
backend and answers with one JSON document. The check of `uid` writes an error
document but does not return, and it takes the text of an error that is nil when
the number was parsed and is zero. The result says for which forms the action
does what an action should do.

Strings are byte strings. What the backend answers, and how `strconv.Quote`
writes a string, are arguments.
-/

import Xrtc.Machine.Decimal
import Mathlib.Data.Int.Notation

namespace Xrtc.Action

open Xrtc.Machine

abbrev GoString := List UInt8

/-- The bytes of a string constant. -/
def constant (s : String) : GoString := s.toUTF8.toList

def CMDNO_PUSH : ℤ := 1

/-- The error numbers of package `commerrors`. -/
def ParamErr : ℤ := -1
def NetworkErr : ℤ := -2

/-- `commerrors.Errors`. -/
structure Errors where
  errno : ℤ
  err : GoString
  deriving DecidableEq

structure XrtcPushReq where
  cmdno : ℤ
  uid : ℕ
  streamName : GoString
  audio : ℤ
  video : ℤ
  deriving DecidableEq

structure XrtcPushResp where
  errNo : ℤ := 0
  errMsg : GoString := []
  offer : GoString := []
  deriving DecidableEq

structure PushData where
  type : String
  sdp : GoString
  deriving DecidableEq

/-- A JSON document of the HTTP server; `data` is null where it is not given. -/
structure ComHttpResp where
  errNo : ℤ
  errMsg : String
  data : Option PushData := none
  deriving DecidableEq

/-- The first value of each form field that is present. The form parser enters
no field without a value. -/
abbrev Form := String → Option GoString

/-- What `framework.Call` makes of a request: an error text, and the response. -/
abbrev Backend := XrtcPushReq → Option GoString × XrtcPushResp

/-- What an action has done: the documents given to the response writer, the
requests to the backend, and the errors that were logged. -/
structure Effects where
  documents : List ComHttpResp := []
  calls : List XrtcPushReq := []
  warnings : List Errors := []
  deriving DecidableEq

inductive Exit
  | returned
  | panicked
  deriving DecidableEq

/-- `writeJsonErrorResponse`. -/
def writeJsonErrorResponse (cerr : Errors) (fx : Effects) : Effects :=
  { fx with
    documents := fx.documents ++ [{ errNo := cerr.errno, errMsg := "process error" }]
    warnings := fx.warnings ++ [cerr] }

/-- `err.Error()` of a `*strconv.NumError`. -/
def numErrorText (quote : GoString → GoString) (e : NumError) : GoString :=
  constant "strconv.ParseUint: parsing " ++ quote e.num ++ constant ": " ++
    match e.err with
    | .errSyntax => constant "invalid syntax"
    | .errRange => constant "value out of range"

/-- The value of `audio` and `video`: absent, empty and `"0"` mean zero. -/
def mediaFlag (value : GoString) : ℤ := if value = [] ∨ value = [48] then 0 else 1

/-- `Execute` from the call of the backend on. -/
def callBackend (backend : Backend) (req : XrtcPushReq) (fx : Effects) : Effects :=
  let fx := { fx with calls := fx.calls ++ [req] }
  match backend req with
  | (some text, _) =>
      writeJsonErrorResponse ⟨NetworkErr, constant "backend process error:" ++ text⟩ fx
  | (none, resp) =>
      if resp.errNo ≠ 0 then
        writeJsonErrorResponse ⟨NetworkErr, constant "backend process error:" ++ resp.errMsg⟩ fx
      else
        { fx with
          documents := fx.documents ++
            [{ errNo := 0, errMsg := "success", data := some ⟨"offer", resp.offer⟩ }] }

/-- `Execute` behind the check of `uid`. -/
def afterUid (backend : Backend) (form : Form) (uid : ℕ) (fx : Effects) : Effects :=
  let streamName := (form "streamName").getD []
  if streamName = [] then
    writeJsonErrorResponse ⟨ParamErr, constant "streamName is null"⟩ fx
  else
    callBackend backend
      { cmdno := CMDNO_PUSH
        uid := uid
        streamName := streamName
        audio := mediaFlag ((form "audio").getD [])
        video := mediaFlag ((form "video").getD []) } fx

/-- `pushAction.Execute`. -/
def execute (quote : GoString → GoString) (backend : Backend) (form : Form) : Exit × Effects :=
  let (uid, err) := parseUint ((form "uid").getD []) 61
  if err ≠ none ∨ uid ≤ 0 then
    match err with
    -- a method of a nil error is called
    | none => (.panicked, {})
    | some e =>
        -- no return behind the response
        (.returned, afterUid backend form uid
          (writeJsonErrorResponse ⟨ParamErr, constant "parse uid error:" ++ numErrorText quote e⟩
            {}))
  else
    (.returned, afterUid backend form uid {})

/-! ## When the action is proper -/

/-- The field `uid` is a decimal number from 1 to `2 ^ 61 - 1`. -/
def ValidUid (form : Form) : Prop :=
  ∃ s value, form "uid" = some s ∧ IsDecimal s value ∧ 1 ≤ value ∧ value ≤ 2 ^ 61 - 1

/-- The form names a user and a stream. -/
def Valid (form : Form) : Prop := ValidUid form ∧ (form "streamName").getD [] ≠ []

/-- It returns after one document, calls the backend once for a valid form and
never for another one, and reports a parameter error for every other form. -/
structure Proper (quote : GoString → GoString) (backend : Backend) (form : Form) : Prop where
  returns : (execute quote backend form).1 = .returned
  document : (execute quote backend form).2.documents.length = 1
  call : Valid form → (execute quote backend form).2.calls.length = 1
  noCall : ¬ Valid form → (execute quote backend form).2.calls = []
  rejected : ¬ Valid form → ∀ doc ∈ (execute quote backend form).2.documents, doc.errNo = ParamErr

variable {quote : GoString → GoString} {backend : Backend} {form : Form} {uid : ℕ} {fx : Effects}

/-- One request and one document, whatever the backend answers. -/
theorem callBackend_spec (backend : Backend) (req : XrtcPushReq) (fx : Effects) :
    (callBackend backend req fx).calls = fx.calls ++ [req] ∧
      ∃ doc, (callBackend backend req fx).documents = fx.documents ++ [doc] := by
  unfold callBackend
  split
  · exact ⟨rfl, _, rfl⟩
  · simp only
    split
    · exact ⟨rfl, _, rfl⟩
    · exact ⟨rfl, _, rfl⟩

/-- Behind the check of `uid` exactly one document is written. -/
theorem documents_afterUid (backend : Backend) (form : Form) (uid : ℕ) (fx : Effects) :
    ∃ doc, (afterUid backend form uid fx).documents = fx.documents ++ [doc] := by
  unfold afterUid
  simp only
  split
  · exact ⟨_, rfl⟩
  · exact (callBackend_spec _ _ _).2

theorem afterUid_of_unnamed (hname : (form "streamName").getD [] = []) :
    afterUid backend form uid fx =
      writeJsonErrorResponse ⟨ParamErr, constant "streamName is null"⟩ fx := by
  simp only [afterUid, if_pos hname]

theorem length_calls_afterUid (hname : (form "streamName").getD [] ≠ []) :
    (afterUid backend form uid fx).calls.length = fx.calls.length + 1 := by
  simp only [afterUid, if_neg hname]
  rw [(callBackend_spec _ _ _).1, List.length_append, List.length_singleton]

/-- A valid number passes the check. -/
theorem execute_of_validUid (huid : ValidUid form) :
    ∃ uid, execute quote backend form = (.returned, afterUid backend form uid {}) := by
  obtain ⟨s, value, hform, hdecimal, hpos, hle⟩ := huid
  have hparse : parseUint ((form "uid").getD []) 61 = (value, none) := by
    rw [hform]
    exact (parseUint_eq_none_iff (by decide)).mpr ⟨hdecimal, hle⟩
  refine ⟨value, ?_⟩
  simp only [execute, hparse]
  rw [if_neg (by simpa using Nat.pos_iff_ne_zero.mp hpos)]

/-- An invalid number ends in a panic, or in a document too many. -/
theorem execute_of_not_validUid (huid : ¬ ValidUid form) :
    (execute quote backend form).1 = .panicked ∨
      (execute quote backend form).2.documents.length = 2 := by
  cases hparse : parseUint ((form "uid").getD []) 61 with
  | mk uid err =>
      simp only [execute, hparse]
      cases err with
      | some e =>
          right
          rw [if_pos (Or.inl (by simp))]
          obtain ⟨doc, hdoc⟩ := documents_afterUid backend form uid
            (writeJsonErrorResponse ⟨ParamErr, constant "parse uid error:" ++ numErrorText quote e⟩
              {})
          simp only [hdoc]
          rfl
      | none =>
          left
          obtain ⟨hdecimal, hle⟩ := (parseUint_eq_none_iff (by decide)).mp hparse
          have hzero : uid ≤ 0 := by
            by_contra hpos
            cases hform : form "uid" with
            | none =>
                rw [hform] at hdecimal
                exact hdecimal.1 rfl
            | some s =>
                rw [hform] at hdecimal
                exact huid ⟨s, uid, hform, hdecimal, by omega, hle⟩
          rw [if_pos (Or.inr hzero)]

/-- **When the push action is proper**: exactly for the forms whose `uid` is a
decimal number from 1 to `2 ^ 61 - 1`, whatever the backend answers. -/
theorem proper_iff (quote : GoString → GoString) (backend : Backend) (form : Form) :
    Proper quote backend form ↔ ValidUid form := by
  constructor
  · intro hproper
    by_contra huid
    rcases execute_of_not_validUid huid with hpanic | htwo
    · rw [hproper.returns] at hpanic
      cases hpanic
    · rw [hproper.document] at htwo
      cases htwo
  · intro huid
    obtain ⟨uid, hexecute⟩ := execute_of_validUid huid
    -- a form that is not valid fails on the stream name alone
    have hunnamed (hinvalid : ¬ Valid form) : (form "streamName").getD [] = [] := by
      by_contra hname
      exact hinvalid ⟨huid, hname⟩
    obtain ⟨doc, hdoc⟩ := documents_afterUid backend form uid {}
    refine ⟨?_, ?_, ?_, ?_, ?_⟩
    · rw [hexecute]
    · rw [hexecute, hdoc]
      rfl
    · intro hvalid
      rw [hexecute, length_calls_afterUid hvalid.2]
      rfl
    · intro hinvalid
      rw [hexecute, afterUid_of_unnamed (hunnamed hinvalid)]
      rfl
    · intro hinvalid doc hmem
      rw [hexecute, afterUid_of_unnamed (hunnamed hinvalid)] at hmem
      obtain rfl := List.mem_singleton.mp hmem
      rfl

/-- The form `uid=0&streamName=s`. -/
def zeroUid : Form := fun field =>
  if field = "uid" then some [48] else if field = "streamName" then some [115] else none

/-- The form `uid=x`. -/
def wordUid : Form := fun field => if field = "uid" then some [120] else none

/-- Zero ends in a panic, and a word in two documents. -/
theorem zeroUid_not_proper :
    ¬ Proper id (fun _ => (none, {})) zeroUid ∧ ¬ Proper id (fun _ => (none, {})) wordUid := by
  constructor
  · intro hproper
    have hreturns := hproper.returns
    revert hreturns
    decide
  · intro hproper
    have hdocument := hproper.document
    revert hdocument
    decide

end Xrtc.Action
