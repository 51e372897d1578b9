/-
# Reading an SDP text back

The repository writes SDP and never reads it. This is a reader for what it writes:
it splits the text into lines, the lines into sections at the `m=` lines, and the
lines of a section into the blocks of its codecs at the `a=rtpmap` lines. The
theorem says that the sections of a text are those of the media descriptions, that
nothing is attached to a wrong codec, and that every codec is recovered.
-/

import Mathlib.Data.List.Forall2
import Xrtc.Pc.Grammar

namespace Xrtc.Pc

open Xrtc.Machine

/-! ## The reader -/

def isMediaLine (line : Text) : Bool := (ascii "m=").isPrefixOf line

def isRtpMapLine (line : Text) : Bool := (ascii "a=rtpmap:").isPrefixOf line

/-- An `a=rtcp-fb` or an `a=fmtp` line. -/
def isParameterLine (line : Text) : Bool :=
  (ascii "a=rtcp-fb:").isPrefixOf line || (ascii "a=fmtp:").isPrefixOf line

/-- The sections of a text: each `m=` line with the lines up to the next one. -/
def sections (text : Text) : List (Text × List Text) :=
  sectionsFrom isMediaLine (splitLines text).1

/-- The blocks of a section: each `a=rtpmap` line with the lines up to the next one. -/
def blocks (body : List Text) : List (Text × List Text) := sectionsFrom isRtpMapLine body

/-- The medium of an `m=` line. -/
def mediaOf (line : Text) : Option Text := (after (ascii "m=") line).map (before 32)

/-- The payload types of an `m=` line stand behind its first three words. -/
def payloadTypes (line : Text) : Option (List ℤ) := ((line.splitOn 32).drop 3).mapM readInt

/-- What an `a=rtpmap` line says. -/
structure RtpMap where
  id : ℤ
  name : Text
  clockRate : ℤ
  channels : Option ℤ

def readRtpMap (line : Text) : Option RtpMap := do
  let value ← after (ascii "a=rtpmap:") line
  let id ← readInt (before 32 value)
  match (behind 32 value).splitOn 47 with
  | [name, clockRate] => return ⟨id, name, ← readInt clockRate, none⟩
  | [name, clockRate, channels] =>
      return ⟨id, name, ← readInt clockRate, some (← readInt channels)⟩
  | _ => none

/-- The codec id that an `a=rtcp-fb` or `a=fmtp` line carries. -/
def parameterId (line : Text) : Option ℤ := do
  let value ← (after (ascii "a=rtcp-fb:") line).or (after (ascii "a=fmtp:") line)
  readInt (before 32 value)

/-- What an `a=rtcp-fb` line says: an id and, behind a blank, a parameter. -/
def readFeedBack (line : Text) : Option FeedBackParam := do
  let value ← after (ascii "a=rtcp-fb:") line
  return ⟨before 32 (behind 32 value), behind 32 (behind 32 value)⟩

/-- What an `a=fmtp` line says: keys and values, separated by semicolons. -/
def readFmtp (line : Text) : List (Text × Text) :=
  match after (ascii "a=fmtp:") line with
  | none => []
  | some value => ((behind 32 value).splitOn 59).map fun word => (before 61 word, behind 61 word)

/-- A codec as it is read. -/
structure CodecReading where
  rtpMap : RtpMap
  fbParams : List FeedBackParam
  codecParams : List (Text × Text)

def readCodec (block : Text × List Text) : Option CodecReading := do
  let rtpMap ← readRtpMap block.1
  return ⟨rtpMap, block.2.filterMap readFeedBack, block.2.flatMap readFmtp⟩

/-- What should be read of a codec. -/
def CodecReading.of (entry : CodecInfo × Option ℤ) : CodecReading where
  rtpMap := ⟨entry.1.id, entry.1.name, entry.1.clockRate, entry.2⟩
  fbParams := entry.1.fbParams
  codecParams := entry.1.codecParams.entries

/-- A section is read back as a media description. -/
structure ReadsBack (sec : Text × List Text) (content : MediaContentDescription) : Prop where
  media : mediaOf sec.1 = some content.mid
  /-- The payload types are the ids of the `a=rtpmap` lines. -/
  payloads : payloadTypes sec.1 =
    (blocks sec.2).mapM fun block => (readRtpMap block.1).map RtpMap.id
  /-- No parameter stands before the first codec. -/
  unattached : ∀ line ∈ sec.2.takeWhile fun line => !isRtpMapLine line,
    isParameterLine line = false
  /-- A parameter carries the id of the codec it stands behind. -/
  attached : ∀ block ∈ blocks sec.2, ∀ line ∈ block.2, isParameterLine line = true →
    parameterId line = (readRtpMap block.1).map RtpMap.id
  /-- Every codec is recovered. -/
  recovered : (blocks sec.2).mapM readCodec = some (content.codecs.map CodecReading.of)

/-- The separators do not occur where they would be misread. -/
structure CodecInfo.Separated (codec : CodecInfo) : Prop where
  name : 32 ∉ codec.name ∧ 47 ∉ codec.name
  fbIds : ∀ fbParam ∈ codec.fbParams, 32 ∉ fbParam.id
  keys : ∀ param ∈ codec.codecParams.entries, 61 ∉ param.1 ∧ 59 ∉ param.1
  values : ∀ param ∈ codec.codecParams.entries, 59 ∉ param.2

/-! ## Single lines -/

section Lines

variable {codec : CodecInfo} {fbParam : FeedBackParam}

theorem mapM_map_of_some {α β γ : Type} {f : α → β} {g : β → Option γ} {h : α → γ} {as : List α}
    (hread : ∀ a ∈ as, g (f a) = some (h a)) : (as.map f).mapM g = some (as.map h) := by
  induction as with
  | nil => rfl
  | cons a as ih =>
      obtain ⟨ha, has⟩ := List.forall_mem_cons.mp hread
      rw [List.map_cons, List.mapM_cons, ha, ih has]
      rfl

/-- A value that begins with an id, up to the first blank. -/
theorem before_decimal (n : ℤ) (rest : Text) :
    before 32 (decimal n ++ ascii " " ++ rest) = decimal n := by
  rw [List.append_assoc]
  exact before_append (notMem_decimal n (by decide) (by decide)) rest

theorem behind_decimal (n : ℤ) (rest : Text) :
    behind 32 (decimal n ++ ascii " " ++ rest) = rest := by
  rw [List.append_assoc]
  exact behind_append (notMem_decimal n (by decide) (by decide)) rest

/-- The words of an `a=rtpmap` line behind the id. -/
theorem splitOn_rtpMap (hname : 47 ∉ codec.name) (numbers : List ℤ) :
    (codec.name ++ numbers.flatMap fun n => ascii "/" ++ decimal n).splitOn 47 =
      codec.name :: numbers.map decimal := by
  have hnumbers : ∀ word ∈ numbers.map decimal, 47 ∉ word := by
    intro word hword
    obtain ⟨n, -, rfl⟩ := List.mem_map.mp hword
    exact notMem_decimal n (by decide) (by decide)
  rw [← splitOn_append_flatMap hname hnumbers, List.flatMap_map]
  rfl

theorem readRtpMap_rtpMapLine (hcodec : codec.Separated) (channels : Option ℤ) :
    readRtpMap (rtpMapLine codec channels) =
      some ⟨codec.id, codec.name, codec.clockRate, channels⟩ := by
  have hwords := splitOn_rtpMap hcodec.name.2
  rw [readRtpMap, rtpMapLine.eq_def, after_append, Option.bind_eq_bind, Option.bind_some,
    before_decimal, readInt_decimal, Option.bind_eq_bind, Option.bind_some, behind_decimal]
  cases channels with
  | none =>
      have htwo := hwords [codec.clockRate]
      simp only [List.flatMap_cons, List.flatMap_nil, ← List.append_assoc] at htwo
      rw [htwo]
      show (readInt (decimal codec.clockRate)).bind _ = _
      rw [readInt_decimal]
      rfl
  | some channels =>
      have hthree := hwords [codec.clockRate, channels]
      simp only [List.flatMap_cons, List.flatMap_nil, ← List.append_assoc, List.append_nil] at hthree
      rw [← List.append_assoc, hthree]
      show (readInt (decimal codec.clockRate)).bind _ = _
      rw [readInt_decimal, Option.bind_some]
      show (readInt (decimal channels)).bind _ = _
      rw [readInt_decimal]
      rfl

theorem readFeedBack_rtcpFbLine (hid : 32 ∉ fbParam.id) :
    readFeedBack (rtcpFbLine codec fbParam) = some fbParam := by
  rw [readFeedBack, rtcpFbLine, after_append, Option.bind_eq_bind, Option.bind_some, behind_decimal]
  by_cases hempty : fbParam.param = []
  · rw [if_pos hempty, List.append_nil, before_of_notMem hid, behind_of_notMem hid, ← hempty]
    rfl
  · rw [if_neg hempty]
    have hbefore := before_append hid fbParam.param
    have hbehind := behind_append hid fbParam.param
    show some (FeedBackParam.mk (before 32 (fbParam.id ++ 32 :: fbParam.param))
      (behind 32 (fbParam.id ++ 32 :: fbParam.param))) = _
    rw [hbefore, hbehind]

/-- A feedback line is no format line, and the other way round. -/
theorem readFmtp_rtcpFbLine : readFmtp (rtcpFbLine codec fbParam) = [] := by
  have hline : Begins [ascii "a=rtcp-fb:"] (rtcpFbLine codec fbParam) :=
    begins_append List.mem_cons_self _
  rw [readFmtp, hline.after_eq_none (by decide)]

theorem begins_fmtpLines : ∀ line ∈ fmtpLines codec, Begins [ascii "a=fmtp:"] line := by
  intro line hline
  rw [fmtpLines] at hline
  split at hline
  · cases hline
  · rw [List.mem_singleton.mp hline]
    exact begins_append List.mem_cons_self _

theorem readFeedBack_fmtpLines {line : Text} (hline : line ∈ fmtpLines codec) :
    readFeedBack line = none := by
  rw [readFeedBack, (begins_fmtpLines line hline).after_eq_none (by decide)]
  rfl

theorem readFmtp_fmtpLines (hcodec : codec.Separated) :
    (fmtpLines codec).flatMap readFmtp = codec.codecParams.entries := by
  rw [fmtpLines]
  split
  · rename_i hempty
    rw [hempty, List.flatMap_nil]
  · rename_i hne
    have hwords : ∀ word ∈ codec.codecParams.entries.map fun param => param.1 ++ ascii "=" ++ param.2,
        59 ∉ word := by
      intro word hword
      obtain ⟨param, hparam, rfl⟩ := List.mem_map.mp hword
      have hkey := (hcodec.keys param hparam).2
      have hvalue := hcodec.values param hparam
      rw [List.mem_append, List.mem_append, not_or, not_or]
      exact ⟨⟨hkey, by decide⟩, hvalue⟩
    have hsplit := List.splitOn_intercalate 59 hwords (by simpa using hne)
    rw [List.flatMap_singleton, readFmtp, after_append]
    show ((behind 32 _).splitOn 59).map _ = _
    rw [behind_decimal]
    show (([59].intercalate _).splitOn 59).map _ = _
    rw [hsplit, List.map_map]
    -- each word is taken apart at its first equals sign
    have hparams : codec.codecParams.entries.map
        ((fun word => (before 61 word, behind 61 word)) ∘
          fun param => param.1 ++ ascii "=" ++ param.2) = codec.codecParams.entries.map id := by
      apply List.map_congr_left
      intro param hparam
      have hkey := (hcodec.keys param hparam).1
      show (before 61 (param.1 ++ ascii "=" ++ param.2),
        behind 61 (param.1 ++ ascii "=" ++ param.2)) = param
      rw [List.append_assoc]
      exact Prod.ext (before_append hkey _) (behind_append hkey _)
    rw [hparams, List.map_id]

/-- The id of a codec stands on each of its lines. -/
theorem parameterId_parameterLines {line : Text} (hline : line ∈ parameterLines codec) :
    parameterId line = some codec.id := by
  rcases List.mem_append.mp hline with hfb | hfmtp
  · obtain ⟨fbParam, -, rfl⟩ := List.mem_map.mp hfb
    rw [parameterId, rtcpFbLine, after_append, Option.some_or, Option.bind_eq_bind,
      Option.bind_some, before_decimal, readInt_decimal]
  · have hother := (begins_fmtpLines line hfmtp).after_eq_none
      (show ∀ other ∈ [ascii "a=fmtp:"], ¬ ascii "a=rtcp-fb:" <+: other ∧
        ¬ other <+: ascii "a=rtcp-fb:" by decide)
    rw [fmtpLines] at hfmtp
    split at hfmtp
    · cases hfmtp
    · rw [parameterId, hother, Option.none_or, List.mem_singleton.mp hfmtp, after_append,
        Option.bind_eq_bind, Option.bind_some, before_decimal, readInt_decimal]

/-- **A codec is read back from its lines.** -/
theorem readCodec_codecLines (hcodec : codec.Separated) (channels : Option ℤ) :
    readCodec (rtpMapLine codec channels, parameterLines codec) = some (.of (codec, channels)) := by
  have hfb : (codec.fbParams.map (rtcpFbLine codec)).filterMap readFeedBack = codec.fbParams := by
    have hread : codec.fbParams.filterMap (readFeedBack ∘ rtcpFbLine codec) =
        codec.fbParams.map id := by
      rw [List.filterMap_eq_map_iff_forall_eq_some]
      intro fbParam hmem
      exact readFeedBack_rtcpFbLine (hcodec.fbIds fbParam hmem)
    rw [List.filterMap_map, hread, List.map_id]
  have hnofb : (fmtpLines codec).filterMap readFeedBack = [] :=
    List.filterMap_eq_nil_iff.mpr fun line hline => readFeedBack_fmtpLines hline
  have hnofmtp : (codec.fbParams.map (rtcpFbLine codec)).flatMap readFmtp = [] := by
    rw [List.flatMap_map]
    exact List.flatMap_eq_nil_iff.mpr fun fbParam _ => readFmtp_rtcpFbLine
  rw [readCodec, readRtpMap_rtpMapLine hcodec]
  show some (CodecReading.mk _ ((parameterLines codec).filterMap readFeedBack)
    ((parameterLines codec).flatMap readFmtp)) = _
  rw [parameterLines, List.filterMap_append, List.flatMap_append, hfb, hnofb, hnofmtp,
    readFmtp_fmtpLines hcodec, List.append_nil, List.nil_append]
  rfl

theorem notMem_mid (content : MediaContentDescription) : 32 ∉ content.mid :=
  content.forall_mid (fun mid => 32 ∉ mid) (by decide) (by decide)

/-- The words of an `m=` line. -/
theorem splitOn_mediaLine (content : MediaContentDescription) :
    (mediaLine content).splitOn 32 = (ascii "m=" ++ content.mid) :: ascii "9" ::
      mediaProtocolDtlsSavpf :: content.codecs.map fun entry => decimal entry.1.id := by
  have hfirst : 32 ∉ ascii "m=" ++ content.mid := by
    rw [List.mem_append, not_or]
    exact ⟨by decide, notMem_mid content⟩
  have hwords : ∀ word ∈ ascii "9" :: mediaProtocolDtlsSavpf ::
      content.codecs.map fun entry => decimal entry.1.id, 32 ∉ word := by
    rw [List.forall_mem_cons, List.forall_mem_cons]
    refine ⟨by decide, by decide, ?_⟩
    intro word hword
    obtain ⟨entry, -, rfl⟩ := List.mem_map.mp hword
    exact notMem_decimal _ (by decide) (by decide)
  rw [← splitOn_append_flatMap hfirst hwords, List.flatMap_cons, List.flatMap_cons,
    List.flatMap_map]
  simp only [mediaLine, List.append_assoc]
  rfl

theorem mediaOf_mediaLine (content : MediaContentDescription) :
    mediaOf (mediaLine content) = some content.mid := by
  rw [mediaOf, mediaLine, after_append, Option.map_some]
  simp only [List.append_assoc]
  exact congrArg some (before_append (notMem_mid content) _)

theorem payloadTypes_mediaLine (content : MediaContentDescription) :
    payloadTypes (mediaLine content) = some (content.codecs.map fun entry => entry.1.id) := by
  rw [payloadTypes, splitOn_mediaLine]
  exact mapM_map_of_some fun entry _ => readInt_decimal entry.1.id

end Lines

/-! ## Sections and blocks -/

namespace SessionDescription

variable {d : SessionDescription}

theorem isRtpMapLine_attributeLines (d : SessionDescription) (content : MediaContentDescription) :
    ∀ line ∈ d.attributeLines content, isRtpMapLine line = false := fun line hline =>
  (d.begins_attributeLines content line hline).isPrefixOf_eq_false (by decide)

/-- The blocks of a section are those of its codecs. -/
theorem blocks_bodyLines (d : SessionDescription) (content : MediaContentDescription) :
    blocks (d.bodyLines content) =
      content.codecs.map fun entry => (rtpMapLine entry.1 entry.2, parameterLines entry.1) := by
  rw [blocks, bodyLines, sectionsFrom_append (d.isRtpMapLine_attributeLines content)]
  apply sectionsFrom_flatMap
  · intro entry _
    exact isPrefixOf_append _ _
  · intro entry _ line hline
    exact (begins_parameterLines entry.1 line hline).isPrefixOf_eq_false (by decide)

/-- In front of the first block stand the attributes of the section. -/
theorem takeWhile_bodyLines (d : SessionDescription) (content : MediaContentDescription) :
    (d.bodyLines content).takeWhile (fun line => !isRtpMapLine line) = d.attributeLines content := by
  apply takeWhile_front (d.isRtpMapLine_attributeLines content)
  intro entry _
  exact isPrefixOf_append _ _

theorem isMediaLine_contentsText (group : ContentGroup) :
    isMediaLine (contentsText group) = false := by
  rw [contentsText]
  cases group.contents with
  | nil => rfl
  | cons content contents => rfl

theorem isMediaLine_headLines (d : SessionDescription) :
    ∀ line ∈ d.headLines, isMediaLine line = false := by
  rw [forall_mem_headLines]
  refine ⟨by decide, ?_, by decide⟩
  cases d.getGroupByName (ascii "BUNDLE") with
  | nil =>
      intro line hline
      cases hline
  | cons group groups =>
      rw [groupLines, List.forall_mem_cons]
      refine ⟨rfl, ?_⟩
      intro line hline
      obtain ⟨other, -, rfl⟩ := List.mem_map.mp hline
      exact isMediaLine_contentsText other

theorem isMediaLine_bodyLines (d : SessionDescription) (content : MediaContentDescription) :
    ∀ line ∈ d.bodyLines content, isMediaLine line = false := fun line hline =>
  (d.begins_bodyLines content line hline).isPrefixOf_eq_false (by decide)

/-- The sections of the text are those of the media descriptions. -/
theorem Clean.sections_toString (hd : d.Clean) :
    sections d.toString =
      d.mediaDescs.map fun content => (mediaLine content, d.bodyLines content) := by
  rw [sections, hd.splitLines_toString, SessionDescription.lines,
    sectionsFrom_append d.isMediaLine_headLines]
  apply sectionsFrom_flatMap
  · intro content _
    exact isPrefixOf_append _ _
  · intro content _
    exact d.isMediaLine_bodyLines content

/-- One section, as it is written. -/
theorem readsBack_bodyLines (d : SessionDescription) {content : MediaContentDescription}
    (hcodecs : ∀ entry ∈ content.codecs, entry.1.Separated) :
    ReadsBack (mediaLine content, d.bodyLines content) content := by
  have hrtpMap : ∀ entry ∈ content.codecs,
      (readRtpMap (rtpMapLine entry.1 entry.2)).map RtpMap.id = some entry.1.id := by
    intro entry hentry
    rw [readRtpMap_rtpMapLine (hcodecs entry hentry)]
    rfl
  constructor
  case media => exact mediaOf_mediaLine content
  case payloads =>
    rw [payloadTypes_mediaLine, d.blocks_bodyLines]
    symm
    apply mapM_map_of_some
    exact hrtpMap
  case unattached =>
    rw [d.takeWhile_bodyLines]
    intro line hline
    have hbegins := d.begins_attributeLines content line hline
    rw [isParameterLine, hbegins.isPrefixOf_eq_false (by decide),
      hbegins.isPrefixOf_eq_false (by decide)]
    rfl
  case attached =>
    rw [d.blocks_bodyLines]
    intro block hblock line hline _
    obtain ⟨entry, hentry, rfl⟩ := List.mem_map.mp hblock
    rw [parameterId_parameterLines hline]
    exact (hrtpMap entry hentry).symm
  case recovered =>
    rw [d.blocks_bodyLines]
    apply mapM_map_of_some
    intro entry hentry
    exact readCodec_codecLines (hcodecs entry hentry) entry.2

/-- **A description is read back from its text**: the text has one section for each
media description, in order, and every codec is recovered from the lines of its own
block. -/
theorem toString_readsBack (d : SessionDescription) (hclean : d.Clean)
    (hcodecs : ∀ content ∈ d.mediaDescs, ∀ entry ∈ content.codecs, entry.1.Separated) :
    (splitLines d.toString).2 = [] ∧ List.Forall₂ ReadsBack (sections d.toString) d.mediaDescs := by
  refine ⟨by rw [hclean.splitLines_toString], ?_⟩
  rw [hclean.sections_toString, List.forall₂_map_left_iff, List.forall₂_same]
  intro content hcontent
  exact d.readsBack_bodyLines (hcodecs content hcontent)

/-- Both media with their codecs, one of them without a transport. -/
def twoMedia : SessionDescription where
  type := .offer
  mediaDescs := [audioContentDescription, videoContentDescription]
  transports :=
    [{ mid := ascii "audio"
       iceUfrag := ascii "abcd"
       icePassword := ascii "ABCDEFGHIJKLMNOPQRSTUVWX"
       role := .actpass }]

theorem toString_readsBack_twoMedia :
    (splitLines twoMedia.toString).2 = [] ∧
      List.Forall₂ ReadsBack (sections twoMedia.toString) twoMedia.mediaDescs := by
  apply toString_readsBack
  · refine ⟨?_, by simp [twoMedia], ?_⟩
    · simp only [twoMedia, List.forall_mem_cons, List.not_mem_nil, false_implies, implies_true,
        and_true]
      exact ⟨clean_audioContentDescription, clean_videoContentDescription⟩
    · simp only [twoMedia, List.forall_mem_cons, List.not_mem_nil, false_implies, implies_true,
        and_true]
      exact ⟨by decide, by decide, by simp⟩
  · simp only [twoMedia, MediaContentDescription.codecs, audioContentDescription,
      videoContentDescription, List.map_cons, List.map_nil, List.forall_mem_cons, List.not_mem_nil,
      false_implies, implies_true, and_true]
    exact ⟨⟨by decide, by decide, by decide, by decide⟩, ⟨by decide, by decide, by decide, by decide⟩,
      by decide, by decide, by decide, by decide⟩

end SessionDescription

end Xrtc.Pc
