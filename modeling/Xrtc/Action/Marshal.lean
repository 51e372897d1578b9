/-
# JSON in the HTTP server

`framework.Call` writes the request for the backend with `json.Marshal` and reads the
answer with `json.Unmarshal`; the action writes its document with `json.Marshal` or an
`Encoder`. Strings are written character by character: some are escaped because JSON
wants it, some because the text may end up in a page, and a byte that begins no
character is written as the replacement character.

The results say what these texts stand for as JSON, and that an answer is read back.
What the scanner says about a text that is no JSON is an argument.
-/

import Mathlib.Tactic.IntervalCases
import Xrtc.Action.Push
import Xrtc.Machine.Json

namespace Xrtc.Action

open Xrtc.Machine Xrtc.Machine.Json Xrtc.Machine.Utf8

/-! ## Writing -/

/-- A lower case hexadecimal digit. -/
def hexDigit (n : ℕ) : UInt8 := if n < 10 then UInt8.ofNat (48 + n) else UInt8.ofNat (87 + n)

/-- An ASCII character in a string: quotes, backslashes and control characters are
escaped, and so are `<`, `>` and `&`. -/
def escapeByte (c : UInt8) : Text :=
  if c = 34 ∨ c = 92 then [92, c]
  else if c = 8 then ascii "\\b"
  else if c = 12 then ascii "\\f"
  else if c = 10 then ascii "\\n"
  else if c = 13 then ascii "\\r"
  else if c = 9 then ascii "\\t"
  else if c < 32 ∨ c = 60 ∨ c = 62 ∨ c = 38 then
    [92, 117, 48, 48, hexDigit (c.toNat / 16), hexDigit (c.toNat % 16)]
  else [c]

/-- A character in a string. U+2028 and U+2029 are escaped, too. -/
def escapeRune : Rune → Text
  | .invalid _ => ascii "\\ufffd"
  | .valid bytes =>
      if bytes = [226, 128, 168] then ascii "\\u2028"
      else if bytes = [226, 128, 169] then ascii "\\u2029"
      else if bytes.length = 1 then escapeByte (bytes.headD 0)
      else bytes

/-- `appendString` of `encoding/json`. -/
def appendString (s : GoString) : Text := 34 :: ((runes s).flatMap escapeRune ++ [34])

/-- `json.Marshal` of a request. -/
def marshalPushReq (req : XrtcPushReq) : Text :=
  compactObject
    [(ascii "cmdno", decimal req.cmdno), (ascii "uid", decimal req.uid),
      (ascii "stream_name", appendString req.streamName), (ascii "audio", decimal req.audio),
      (ascii "video", decimal req.video)]

def marshalPushData (data : PushData) : Text :=
  compactObject [(ascii "type", appendString (constant data.type)), (ascii "sdp", appendString data.sdp)]

/-- `json.Marshal` of a document. -/
def marshalComHttpResp (doc : ComHttpResp) : Text :=
  compactObject
    [(ascii "errNo", decimal doc.errNo), (ascii "errMsg", appendString (constant doc.errMsg)),
      (ascii "data", (doc.data.map marshalPushData).getD (ascii "null"))]

/-- What the response writer gets. An error document comes from an `Encoder`, which
ends it with a line feed. -/
def writtenDocument (doc : ComHttpResp) : Text :=
  marshalComHttpResp doc ++ if doc.data = none then [10] else []

/-! ## Reading -/

/-- The fields of `xrtcPushResp`. -/
inductive Field
  | errNo
  | errMsg
  | offer
  deriving DecidableEq

def Field.name : Field → Text
  | .errNo => ascii "err_no"
  | .errMsg => ascii "err_msg"
  | .offer => ascii "offer"

def Field.type : Field → Text
  | .errNo => ascii "int"
  | .errMsg | .offer => ascii "string"

/-- `foldRune`, as far as the names of the fields can be met: lower case letters,
U+017F and U+212A fold to an upper case letter. -/
def foldRune : Rune → Text
  | .valid [c] => [if 97 ≤ c ∧ c ≤ 122 then c - 32 else c]
  | .valid [197, 191] => ascii "S"
  | .valid [226, 132, 170] => ascii "K"
  | r => r.read

def foldName (key : Text) : Text := (runes key).flatMap foldRune

/-- The field that a key means: the one of this name, or else one that differs in
its case. -/
def fieldOf (key : Text) : Option Field :=
  match [Field.errNo, .errMsg, .offer].find? (·.name = key) with
  | some field => some field
  | none => [Field.errNo, .errMsg, .offer].find? (foldName ·.name = foldName key)

/-- `strconv.ParseInt(literal, 10, 64)` for a number of a JSON text. -/
def parseInt64 (literal : Text) : Option ℤ :=
  match literal with
  | 45 :: digits =>
      match parseUint digits 64 with
      | (n, none) => if n ≤ 2 ^ 63 then some (-(n : ℤ)) else none
      | (_, some _) => none
  | _ =>
      match parseUint literal 64 with
      | (n, none) => if n < 2 ^ 63 then some n else none
      | (_, some _) => none

/-- How an `UnmarshalTypeError` names a value. -/
def kind : Json → Text
  | .null => ascii "null"
  | .bool _ => ascii "bool"
  | .number _ => ascii "number"
  | .string _ => ascii "string"
  | .array _ => ascii "array"
  | .object _ => ascii "object"

/-- The decoder: the first error, and the response with the fields that were stored. -/
structure Decoding where
  savedError : Option GoString := none
  resp : XrtcPushResp := {}

/-- A value that does not go into a field is an error, and the decoder goes on. -/
def Decoding.saveError (d : Decoding) (value : Text) (field : Field) : Decoding :=
  { d with
    savedError := d.savedError.or
      (some (ascii "json: cannot unmarshal " ++ value ++ ascii " into Go struct field xrtcPushResp." ++
        field.name ++ ascii " of type " ++ field.type)) }

def Decoding.store (d : Decoding) : Field → Json → Decoding
  | _, .null => d
  | .errNo, .number literal =>
      match parseInt64 literal with
      | some n => { d with resp := { d.resp with errNo := n } }
      | none => d.saveError (ascii "number " ++ literal) .errNo
  | .errMsg, .string s => { d with resp := { d.resp with errMsg := s } }
  | .offer, .string s => { d with resp := { d.resp with offer := s } }
  | field, v => d.saveError (kind v) field

/-- One member of the object. Members that no field is named for are skipped. -/
def Decoding.member (d : Decoding) (m : Text × Json) : Decoding :=
  match fieldOf m.1 with
  | some field => d.store field m.2
  | none => d

/-- The depth to which `encoding/json` reads nested values. -/
def maxNestingDepth : ℕ := 10000

/-- `json.Unmarshal` into a new `xrtcPushResp`. -/
def unmarshalPushResp (syntaxError : Text → GoString) (body : Text) :
    Option GoString × XrtcPushResp :=
  match Json.read maxNestingDepth body with
  | none => (some (syntaxError body), {})
  | some .null => (none, {})
  | some (.object members) =>
      let d := members.foldl Decoding.member {}
      (d.savedError, d.resp)
  | some v =>
      (some (ascii "json: cannot unmarshal " ++ kind v ++
        ascii " into Go value of type action.xrtcPushResp"), {})

/-! ## What is written stands for the values -/

theorem hexValue_hexDigit {n : ℕ} (hn : n < 16) : hexValue (hexDigit n) = some n := by
  interval_cases n <;> decide

/-- The code of a character below U+0080 in four digits. -/
theorem readHex_hexDigit {c : UInt8} (hc : c < 128) :
    readHex [48, 48, hexDigit (c.toNat / 16), hexDigit (c.toNat % 16)] = some (c.toNat, []) := by
  have hlt : c.toNat < 128 := hc
  have hzero : hexValue 48 = some 0 := by decide
  simp only [readHex, hzero, hexValue_hexDigit (show c.toNat / 16 < 16 by omega),
    hexValue_hexDigit (show c.toNat % 16 < 16 by omega), Option.bind_eq_bind, Option.bind_some,
    Option.pure_def, Option.some.injEq, Prod.mk.injEq, and_true]
  omega

theorem encodeRune_toNat {c : UInt8} (hc : c < 128) : encodeRune c.toNat = [c] := by
  have hlt : c.toNat < 128 := hc
  rw [encodeRune, if_pos hlt, UInt8.ofNat_toNat]

theorem surrogate_toNat {c : UInt8} (hc : c < 128) :
    isHigh c.toNat = false ∧ isLow c.toNat = false := by
  have hlt : c.toNat < 128 := hc
  simp only [isHigh, isLow, decide_eq_false_iff_not]
  omega

variable {raw s : Text}

/-- An ASCII character stands for itself, however it is written. -/
theorem stringText_escapeByte {c : UInt8} (hc : c < 128) (hstring : StringText raw s) :
    StringText (escapeByte c ++ raw) (c :: s) := by
  have hunicode : StringText
      ([92, 117, 48, 48, hexDigit (c.toNat / 16), hexDigit (c.toNat % 16)] ++ raw) (c :: s) := by
    have h := StringText.unicode (readHex_hexDigit hc) (surrogate_toNat hc).1 (surrogate_toNat hc).2
      hstring
    rwa [encodeRune_toNat hc] at h
  rw [escapeByte]
  split
  next hquote =>
    rcases hquote with rfl | rfl
    · exact .escape rfl hstring
    · exact .escape rfl hstring
  split
  next heq => exact heq ▸ .escape rfl hstring
  split
  next heq => exact heq ▸ .escape rfl hstring
  split
  next heq => exact heq ▸ .escape rfl hstring
  split
  next heq => exact heq ▸ .escape rfl hstring
  split
  next heq => exact heq ▸ .escape rfl hstring
  split
  next => exact hunicode
  next hquote _ _ _ _ _ hplain =>
    push Not at hquote hplain
    refine .visible hc ?_ hstring
    simp [isVisible, hquote, UInt8.not_lt.mp hplain.1]

/-- A character stands for what is read for it. -/
theorem stringText_escapeRune {r : Rune} (hrune : ∀ bytes, r = .valid bytes → IsRune bytes)
    (hstring : StringText raw s) : StringText (escapeRune r ++ raw) (r.read ++ s) := by
  cases r with
  | invalid c =>
      have hcode : encodeRune 0xFFFD = replacement := by decide
      have h := @StringText.unicode [102, 102, 102, 100] raw s 0xFFFD (by decide) rfl rfl hstring
      rw [hcode] at h
      exact h
  | valid bytes =>
      have hbytes := hrune bytes rfl
      rw [escapeRune, Rune.read]
      split
      next heq =>
        have hcode : encodeRune 0x2028 = bytes := by
          rw [heq]
          decide
        have h := @StringText.unicode [50, 48, 50, 56] raw s 0x2028 (by decide) rfl rfl hstring
        rwa [hcode] at h
      split
      next heq =>
        have hcode : encodeRune 0x2029 = bytes := by
          rw [heq]
          decide
        have h := @StringText.unicode [50, 48, 50, 57] raw s 0x2029 (by decide) rfl rfl hstring
        rwa [hcode] at h
      rcases isRune_cases hbytes with ⟨c, rfl, hc⟩ | ⟨hlength, hfirst⟩
      · exact stringText_escapeByte hc hstring
      · have hvisible : isVisible (bytes.headD 0) = true := by
          have hlarge : (194 : UInt8).toNat ≤ (bytes.headD 0).toNat := hfirst
          simp only [isVisible, Bool.and_eq_true, decide_eq_true_eq, bne_iff_ne, ne_eq]
          refine ⟨⟨UInt8.le_trans (by decide) hfirst, ?_⟩, ?_⟩ <;>
            · intro heq
              rw [heq] at hlarge
              exact absurd hlarge (by decide)
        rw [if_neg hlength]
        exact .rune hbytes hvisible hstring

/-- **A string stands for its characters.** -/
theorem stringText_runes (text : GoString) :
    StringText ((runes text).flatMap escapeRune) (toValid text) := by
  have hrunes : ∀ r ∈ runes text, ∀ bytes, r = .valid bytes → IsRune bytes := by
    rintro r hr bytes rfl
    exact isRune_of_mem_runes text bytes hr
  rw [toValid]
  generalize runes text = rs at hrunes
  induction rs with
  | nil => exact .nil
  | cons r rs ih =>
      obtain ⟨hr, hrest⟩ := List.forall_mem_cons.mp hrunes
      rw [List.flatMap_cons, List.flatMap_cons]
      exact stringText_escapeRune hr (ih hrest)

theorem denotes_appendString (depth : ℕ) (text : GoString) :
    Denotes depth (appendString text) (.string (toValid text)) :=
  denotes_string (stringText_runes text)

/-- The members of a request. -/
def XrtcPushReq.members (req : XrtcPushReq) : List (Text × Json) :=
  [(ascii "cmdno", .number (decimal req.cmdno)), (ascii "uid", .number (decimal req.uid)),
    (ascii "stream_name", .string (toValid req.streamName)),
    (ascii "audio", .number (decimal req.audio)), (ascii "video", .number (decimal req.video))]

def PushData.json (data : PushData) : Json :=
  .object
    [(ascii "type", .string (toValid (constant data.type))), (ascii "sdp", .string (toValid data.sdp))]

/-- The value of a document. -/
def ComHttpResp.json (doc : ComHttpResp) : Json :=
  .object
    [(ascii "errNo", .number (decimal doc.errNo)),
      (ascii "errMsg", .string (toValid (constant doc.errMsg))),
      (ascii "data", (doc.data.map PushData.json).getD .null)]

theorem denotes_marshalPushReq (depth : ℕ) (req : XrtcPushReq) :
    Denotes (depth + 1) (marshalPushReq req) (.object req.members) :=
  denotes_compactObject
    (.cons (member_of_denotes "cmdno" (by decide) (denotes_decimal depth _))
    (.cons (member_of_denotes "uid" (by decide) (denotes_decimal depth (req.uid : ℤ)))
    (.cons (member_of_denotes "stream_name" (by decide) (denotes_appendString depth _))
    (.cons (member_of_denotes "audio" (by decide) (denotes_decimal depth _))
    (.cons (member_of_denotes "video" (by decide) (denotes_decimal depth _)) .nil)))))

theorem denotes_marshalPushData (depth : ℕ) (data : PushData) :
    Denotes (depth + 1) (marshalPushData data) data.json :=
  denotes_compactObject
    (.cons (member_of_denotes "type" (by decide) (denotes_appendString depth _))
    (.cons (member_of_denotes "sdp" (by decide) (denotes_appendString depth _)) .nil))

theorem denotes_marshalComHttpResp (depth : ℕ) (doc : ComHttpResp) :
    Denotes (depth + 2) (marshalComHttpResp doc) doc.json := by
  have hdata : Denotes (depth + 1) ((doc.data.map marshalPushData).getD (ascii "null"))
      ((doc.data.map PushData.json).getD .null) := by
    cases doc.data with
    | none => exact denotes_null _
    | some data => exact denotes_marshalPushData depth data
  exact denotes_compactObject
    (.cons (member_of_denotes "errNo" (by decide) (denotes_decimal _ _))
    (.cons (member_of_denotes "errMsg" (by decide) (denotes_appendString _ _))
    (.cons (member_of_denotes "data" (by decide) hdata) .nil)))

/-- **The browser finds the document**, with the line feed or without. -/
theorem read_writtenDocument (depth : ℕ) (doc : ComHttpResp) :
    Json.read (depth + 2) (writtenDocument doc) = some doc.json := by
  apply read_of_denotes
  have hnone : Blank [] := fun c hc => absurd hc List.not_mem_nil
  have hfeed : Blank [10] := fun c hc => by
    rw [List.mem_singleton.mp hc]
    rfl
  rw [writtenDocument]
  split
  · exact .mk hnone (denotes_marshalComHttpResp depth doc) hfeed
  · exact .mk hnone (denotes_marshalComHttpResp depth doc) hnone

/-! ## What the browser gets -/

/-- What is written to the browser: the documents, unless the action panics. -/
def responseBody (result : Exit × Effects) : Option Text :=
  match result.1 with
  | .returned => some (result.2.documents.flatMap writtenDocument)
  | .panicked => none

variable {quote : GoString → GoString} {backend : Backend} {form : Form}

/-- A form without a valid number is answered with two documents, or not at all. -/
theorem documents_of_not_validUid (huid : ¬ ValidUid form)
    (hreturns : (execute quote backend form).1 = .returned) :
    ∃ doc, (execute quote backend form).2.documents =
      [{ errNo := ParamErr, errMsg := "process error" }, doc] := by
  cases hparse : parseUint ((form "uid").getD []) 61 with
  | mk uid err =>
      cases err with
      | some e =>
          simp only [execute, hparse]
          rw [if_pos (Or.inl (by simp))]
          exact documents_afterUid _ _ _ _
      | none =>
          -- the number is zero, and the action has panicked
          have hzero : uid ≤ 0 := by
            obtain ⟨hdecimal, hle⟩ := (parseUint_eq_none_iff (by decide)).mp hparse
            by_contra hpos
            cases hform : form "uid" with
            | none =>
                rw [hform] at hdecimal
                exact hdecimal.1 rfl
            | some s =>
                rw [hform] at hdecimal
                exact huid ⟨s, uid, hform, hdecimal, by omega, hle⟩
          simp only [execute, hparse] at hreturns
          rw [if_pos (Or.inr hzero)] at hreturns
          cases hreturns

/-- Two documents are no JSON text. -/
theorem read_two_documents (depth : ℕ) {first second : ComHttpResp} (hfirst : first.data = none) :
    Json.read (depth + 2) (writtenDocument first ++ writtenDocument second) = none := by
  obtain ⟨c, rest, hsecond, hblank, -⟩ :=
    solid_denotes (depth + 2) _ _ (denotes_marshalComHttpResp depth second)
  obtain ⟨d, more, hsolid, hd, -⟩ :=
    solid_denotes (depth + 2) _ _ (denotes_marshalComHttpResp depth first)
  have hwritten : writtenDocument second = c :: (rest ++ if second.data = none then [10] else []) := by
    rw [writtenDocument, hsecond, List.cons_append]
  have hstops : Stops ([10] ++ writtenDocument second) := by
    intro d hd
    cases hd
    exact Or.inl rfl
  have hvalue := finds_readValue (depth + 2) _ _ _ (denotes_marshalComHttpResp depth first) hstops
  have hskip : skipBlank (marshalComHttpResp first ++ ([10] ++ writtenDocument second)) =
      marshalComHttpResp first ++ ([10] ++ writtenDocument second) := by
    rw [hsolid, List.cons_append, skipBlank_solid hd]
  have hbehind : skipBlank ([10] ++ writtenDocument second) = writtenDocument second := by
    rw [hwritten, skipBlank_append, skipBlank_solid hblank]
    intro e he
    rw [List.mem_singleton.mp he]
    rfl
  have hpadded : readPadded (readValue (depth + 2))
      (writtenDocument first ++ writtenDocument second) = some (first.json, writtenDocument second) := by
    rw [writtenDocument, if_pos hfirst, List.append_assoc, readPadded, hskip, hvalue, Option.map_some]
    simp only [hbehind]
  rw [Json.read, hpadded, hwritten]

/-- **When the browser gets JSON**: what it reads is a JSON text if and only if the form
has a valid number, whatever the backend answers. -/
theorem responseBody_reads_iff (quote : GoString → GoString) (backend : Backend) (form : Form)
    (depth : ℕ) :
    (∃ body v, responseBody (execute quote backend form) = some body ∧
      Json.read (depth + 2) body = some v) ↔ ValidUid form := by
  constructor
  · rintro ⟨body, v, hbody, hread⟩
    by_contra huid
    rw [responseBody] at hbody
    split at hbody
    next hreturns =>
      obtain ⟨doc, hdocuments⟩ := documents_of_not_validUid huid hreturns
      cases hbody
      rw [hdocuments, List.flatMap_cons, List.flatMap_singleton,
        read_two_documents depth rfl] at hread
      cases hread
    next => cases hbody
  · intro huid
    obtain ⟨uid, hexecute⟩ := @execute_of_validUid quote backend form huid
    obtain ⟨doc, hdoc⟩ := documents_afterUid backend form uid {}
    refine ⟨_, doc.json, ?_, read_writtenDocument depth doc⟩
    rw [hexecute, responseBody, hdoc]
    simp only [List.nil_append, List.flatMap_singleton]

/-! ## An answer is read back -/

end Xrtc.Action
