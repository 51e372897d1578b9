/-
# The form of an SDP text

An SDP text is a sequence of lines, each a lower-case letter, an equals sign and a
value. The writer's lines have that form as long as the strings it was given hold
no line end, with one exception: of several groups with the semantic `BUNDLE`, only
the first gets the beginning of its line. So the text has the form, and every such
group its own line, if and only if there is at most one.
-/

import Xrtc.Pc.SessionDescription

namespace Xrtc.Pc

open Xrtc.Machine

/-! ## How the lines begin -/

/-- The beginnings of the lines of every section. -/
def plainStarts : List Text :=
  [ascii "c=IN", ascii "a=rtcp:", ascii "a=mid:", ascii "a=sendrecv", ascii "a=sendonly",
    ascii "a=recvonly", ascii "a=inactive", ascii "a=rtcp-mux"]

/-- The beginnings of the lines of a transport. -/
def transportStarts : List Text :=
  [ascii "a=ice-ufrag:", ascii "a=ice-pwd:", ascii "a=fingerprint:", ascii "a=setup:"]

/-- The beginnings of the lines between an `m=` line and the codecs. -/
def attributeStarts : List Text := plainStarts ++ transportStarts

/-- The beginnings of the lines that belong to a codec. -/
def parameterStarts : List Text := [ascii "a=rtcp-fb:", ascii "a=fmtp:"]

/-- The beginnings of the lines of a codec. -/
def codecStarts : List Text := ascii "a=rtpmap:" :: parameterStarts

theorem begins_directionLine (content : MediaContentDescription) :
    Begins plainStarts (directionLine content) := by
  rw [directionLine]
  cases content.direction with
  | sendReceive | sendOnly | receiveOnly | inactive => exact begins_self (by decide)

theorem begins_transportLines (transport : TransportDescription) :
    ∀ line ∈ transportLines transport, Begins transportStarts line := by
  rw [transportLines, fingerprintLines]
  cases transport.identityFingerprint with
  | none =>
      simp only [List.append_nil, List.forall_mem_cons, List.not_mem_nil, false_implies,
        implies_true, and_true]
      exact ⟨begins_append (by decide) _, begins_append (by decide) _⟩
  | some fp =>
      simp only [List.cons_append, List.nil_append, List.forall_mem_cons, List.not_mem_nil,
        false_implies, implies_true, and_true]
      exact ⟨begins_append (by decide) _, begins_append (by decide) _, begins_append (by decide) _,
        begins_append (by decide) _⟩

theorem begins_rtcpMuxLines (content : MediaContentDescription) :
    ∀ line ∈ rtcpMuxLines content, Begins plainStarts line := by
  rw [rtcpMuxLines]
  split
  · intro line hline
    rw [List.mem_singleton.mp hline]
    exact begins_self (by decide)
  · intro line hline
    cases hline

theorem begins_plainLines (content : MediaContentDescription) :
    ∀ line ∈ plainLines content, Begins plainStarts line := by
  rw [plainLines, List.forall_mem_append]
  refine ⟨?_, begins_rtcpMuxLines content⟩
  simp only [List.forall_mem_cons, List.not_mem_nil, false_implies, implies_true, and_true]
  exact ⟨⟨ascii "c=IN", by decide, by decide⟩, ⟨ascii "a=rtcp:", by decide, by decide⟩,
    begins_append (by decide) _, begins_directionLine content⟩

theorem begins_parameterLines (codec : CodecInfo) :
    ∀ line ∈ parameterLines codec, Begins parameterStarts line := by
  intro line hline
  rcases List.mem_append.mp hline with hfb | hfmtp
  · obtain ⟨fbParam, -, rfl⟩ := List.mem_map.mp hfb
    exact begins_append (by decide) _
  · rw [fmtpLines] at hfmtp
    split at hfmtp
    · cases hfmtp
    · rw [List.mem_singleton.mp hfmtp]
      exact begins_append (by decide) _

theorem begins_codecLines {codecs : List (CodecInfo × Option ℤ)} :
    ∀ line ∈ codecs.flatMap codecLines, Begins codecStarts line := by
  intro line hline
  obtain ⟨entry, -, hentry⟩ := List.mem_flatMap.mp hline
  rcases List.mem_cons.mp hentry with rfl | hparameter
  · exact begins_append (by decide) _
  · exact (begins_parameterLines entry.1 line hparameter).mono (by decide)

namespace SessionDescription

theorem begins_attributeLines (d : SessionDescription) (content : MediaContentDescription) :
    ∀ line ∈ d.attributeLines content, Begins attributeStarts line := by
  intro line hline
  rcases mem_attributeLines.mp hline with hplain | ⟨transport, -, htransport⟩
  · exact (begins_plainLines content line hplain).mono (by decide)
  · exact (begins_transportLines transport line htransport).mono (by decide)

theorem begins_bodyLines (d : SessionDescription) (content : MediaContentDescription) :
    ∀ line ∈ d.bodyLines content, Begins (attributeStarts ++ codecStarts) line := by
  intro line hline
  rcases List.mem_append.mp hline with hattribute | hcodec
  · exact (d.begins_attributeLines content line hattribute).mono (by decide)
  · exact (begins_codecLines line hcodec).mono (by decide)

end SessionDescription

/-! ## Strings without line ends -/

/-- No string of the codec holds a line end. -/
structure CodecInfo.Clean (codec : CodecInfo) : Prop where
  name : OneLine codec.name
  fbParams : ∀ fbParam ∈ codec.fbParams, OneLine fbParam.id ∧ OneLine fbParam.param
  codecParams : ∀ param ∈ codec.codecParams.entries, OneLine param.1 ∧ OneLine param.2

structure ContentGroup.Clean (group : ContentGroup) : Prop where
  semantic : OneLine group.semantic
  contents : ∀ content ∈ group.contents, OneLine content

structure TransportDescription.Clean (transport : TransportDescription) : Prop where
  iceUfrag : OneLine transport.iceUfrag
  icePassword : OneLine transport.icePassword
  algorithm : ∀ fp, transport.identityFingerprint = some fp → OneLine fp.algorithm

structure SessionDescription.Clean (d : SessionDescription) : Prop where
  codecs : ∀ content ∈ d.mediaDescs, ∀ entry ∈ content.codecs, entry.1.Clean
  groups : ∀ group ∈ d.contentGroups, group.Clean
  transports : ∀ transport ∈ d.transports, transport.Clean

theorem clean_opus : opus.Clean := ⟨by decide, by decide, by decide⟩

theorem clean_h264 : h264.Clean := ⟨by decide, by decide, by decide⟩

theorem clean_rtx : rtx.Clean := ⟨by decide, by decide, by decide⟩

theorem clean_audioContentDescription :
    ∀ entry ∈ audioContentDescription.codecs, entry.1.Clean := by
  intro entry hentry
  rw [List.mem_singleton.mp hentry]
  exact clean_opus

theorem clean_videoContentDescription :
    ∀ entry ∈ videoContentDescription.codecs, entry.1.Clean := by
  intro entry hentry
  rcases List.mem_cons.mp hentry with rfl | hlast
  · exact clean_h264
  · rw [List.mem_singleton.mp hlast]
    exact clean_rtx

theorem oneLine_decimal (n : ℤ) : OneLine (decimal n) :=
  ⟨notMem_decimal n (by decide) (by decide), notMem_decimal n (by decide) (by decide)⟩

theorem oneLine_getRfc4572Fingerprint (fp : SSLFingerprint) :
    OneLine fp.getRfc4572Fingerprint := by
  constructor
  · intro hmem
    exact absurd (SSLFingerprint.mem_getRfc4572Fingerprint hmem) (by decide)
  · intro hmem
    exact absurd (SSLFingerprint.mem_getRfc4572Fingerprint hmem) (by decide)

theorem oneLine_mid (content : MediaContentDescription) : OneLine content.mid :=
  content.forall_mid OneLine (by decide) (by decide)

theorem oneLine_directionLine (content : MediaContentDescription) :
    OneLine (directionLine content) := by
  rw [directionLine]
  cases content.direction with
  | sendReceive | sendOnly | receiveOnly | inactive => decide

theorem oneLine_mediaLine (content : MediaContentDescription) : OneLine (mediaLine content) := by
  have hfmt : OneLine (content.codecs.flatMap fun entry => ascii " " ++ decimal entry.1.id) := by
    apply oneLine_flatMap
    intro entry _
    rw [oneLine_append]
    exact ⟨by decide, oneLine_decimal _⟩
  simp only [mediaLine, oneLine_append]
  exact ⟨by decide, ⟨⟨oneLine_mid content, by decide⟩, by decide⟩, hfmt⟩

theorem CodecInfo.Clean.rtpMapLine {codec : CodecInfo} (hcodec : codec.Clean)
    (channels : Option ℤ) : OneLine (rtpMapLine codec channels) := by
  have hid : OneLine (decimal codec.id ++ ascii " ") := by
    rw [oneLine_append]
    exact ⟨oneLine_decimal _, by decide⟩
  have hname : OneLine (codec.name ++ ascii "/" ++ decimal codec.clockRate) := by
    rw [oneLine_append, oneLine_append]
    exact ⟨⟨hcodec.name, by decide⟩, oneLine_decimal _⟩
  rw [Pc.rtpMapLine.eq_def]
  refine oneLine_append.mpr ⟨by decide, oneLine_append.mpr ⟨hid, oneLine_append.mpr ⟨hname, ?_⟩⟩⟩
  cases channels with
  | none => exact ⟨List.not_mem_nil, List.not_mem_nil⟩
  | some count =>
      show OneLine (ascii "/" ++ decimal count)
      rw [oneLine_append]
      exact ⟨by decide, oneLine_decimal _⟩

theorem CodecInfo.Clean.rtcpFbLine {codec : CodecInfo} {fbParam : FeedBackParam}
    (hcodec : codec.Clean) (hfb : fbParam ∈ codec.fbParams) :
    OneLine (rtcpFbLine codec fbParam) := by
  obtain ⟨hid, hparam⟩ := hcodec.fbParams fbParam hfb
  have hrest : OneLine (if fbParam.param = [] then [] else ascii " " ++ fbParam.param) := by
    split
    · decide
    · rw [oneLine_append]
      exact ⟨by decide, hparam⟩
  simp only [Pc.rtcpFbLine, oneLine_append]
  exact ⟨by decide, ⟨oneLine_decimal _, by decide⟩, hid, hrest⟩

theorem CodecInfo.Clean.fmtpLines {codec : CodecInfo} (hcodec : codec.Clean) :
    ∀ line ∈ fmtpLines codec, OneLine line := by
  intro line hline
  rw [Pc.fmtpLines] at hline
  split at hline
  · cases hline
  · rw [List.mem_singleton.mp hline]
    simp only [oneLine_append]
    refine ⟨by decide, ⟨oneLine_decimal _, by decide⟩, oneLine_intercalate (by decide) ?_⟩
    intro word hword
    obtain ⟨param, hparam, rfl⟩ := List.mem_map.mp hword
    obtain ⟨hkey, hvalue⟩ := hcodec.codecParams param hparam
    simp only [oneLine_append]
    exact ⟨⟨hkey, by decide⟩, hvalue⟩

theorem CodecInfo.Clean.codecLines {entry : CodecInfo × Option ℤ} (hcodec : entry.1.Clean) :
    ∀ line ∈ codecLines entry, OneLine line := by
  rw [Pc.codecLines, parameterLines]
  intro line hline
  rcases List.mem_cons.mp hline with rfl | hparameter
  · exact hcodec.rtpMapLine entry.2
  rcases List.mem_append.mp hparameter with hfb | hfmtp
  · obtain ⟨fbParam, hmem, rfl⟩ := List.mem_map.mp hfb
    exact hcodec.rtcpFbLine hmem
  · exact hcodec.fmtpLines line hfmtp

theorem TransportDescription.Clean.transportLines {transport : TransportDescription}
    (htransport : transport.Clean) : ∀ line ∈ transportLines transport, OneLine line := by
  have hfingerprint : ∀ line ∈ fingerprintLines transport, OneLine line := by
    rw [fingerprintLines]
    cases hfp : transport.identityFingerprint with
    | none =>
        intro line hline
        cases hline
    | some fp =>
        have hrole : OneLine transport.role.text := by
          cases transport.role with
          | none | active | passive | actpass | holeconn => decide
        simp only [List.forall_mem_cons, List.not_mem_nil, false_implies, implies_true, and_true,
          oneLine_append]
        exact ⟨⟨by decide, ⟨htransport.algorithm fp hfp, by decide⟩,
          oneLine_getRfc4572Fingerprint fp⟩, by decide, hrole⟩
  intro line hline
  rcases List.mem_append.mp hline with hice | hfp
  · have hall : ∀ line ∈ [ascii "a=ice-ufrag:" ++ transport.iceUfrag,
        ascii "a=ice-pwd:" ++ transport.icePassword], OneLine line := by
      simp only [List.forall_mem_cons, List.not_mem_nil, false_implies, implies_true, and_true,
        oneLine_append]
      exact ⟨⟨by decide, htransport.iceUfrag⟩, by decide, htransport.icePassword⟩
    exact hall line hice
  · exact hfingerprint line hfp

theorem ContentGroup.Clean.contentsText {group : ContentGroup} (hgroup : group.Clean) :
    OneLine (SessionDescription.contentsText group) := by
  apply oneLine_flatMap
  intro content hcontent
  rw [oneLine_append]
  exact ⟨by decide, hgroup.contents content hcontent⟩

namespace SessionDescription

variable {d : SessionDescription}

theorem oneLine_groupLines {groups : List ContentGroup} (hgroups : ∀ group ∈ groups, group.Clean) :
    ∀ line ∈ groupLines groups, OneLine line := by
  cases groups with
  | nil =>
      intro line hline
      cases hline
  | cons group groups =>
      obtain ⟨hgroup, hrest⟩ := List.forall_mem_cons.mp hgroups
      rw [groupLines, List.forall_mem_cons]
      constructor
      · rw [oneLine_append, oneLine_append]
        exact ⟨by decide, hgroup.semantic, hgroup.contentsText⟩
      · intro line hline
        obtain ⟨other, hother, rfl⟩ := List.mem_map.mp hline
        exact (hrest other hother).contentsText

theorem mem_getGroupByName {name : Text} {group : ContentGroup}
    (hgroup : group ∈ d.getGroupByName name) :
    group ∈ d.contentGroups ∧ group.semantic = name := by
  obtain ⟨hmem, hname⟩ := List.mem_filter.mp hgroup
  exact ⟨hmem, of_decide_eq_true hname⟩

theorem Clean.headLines (hd : d.Clean) : ∀ line ∈ d.headLines, OneLine line := by
  have hgroups : ∀ group ∈ d.getGroupByName (ascii "BUNDLE"), group.Clean :=
    fun group hgroup => hd.groups group (mem_getGroupByName hgroup).1
  rw [forall_mem_headLines]
  exact ⟨by decide, oneLine_groupLines hgroups, by decide⟩

theorem oneLine_plainLines (content : MediaContentDescription) :
    ∀ line ∈ plainLines content, OneLine line := by
  rw [plainLines, List.forall_mem_append]
  constructor
  · simp only [List.forall_mem_cons, List.not_mem_nil, false_implies, implies_true, and_true,
      oneLine_append]
    exact ⟨by decide, by decide, ⟨by decide, oneLine_mid content⟩, oneLine_directionLine content⟩
  · rw [rtcpMuxLines]
    split
    · decide
    · intro line hline
      cases hline

theorem Clean.attributeLines (hd : d.Clean) (content : MediaContentDescription) :
    ∀ line ∈ d.attributeLines content, OneLine line := by
  intro line hline
  rcases mem_attributeLines.mp hline with hplain | ⟨transport, hfound, htransport⟩
  · exact oneLine_plainLines content line hplain
  · have hclean := hd.transports transport (List.mem_of_find?_eq_some hfound)
    exact hclean.transportLines line htransport

theorem Clean.bodyLines (hd : d.Clean) {content : MediaContentDescription}
    (hcontent : content ∈ d.mediaDescs) : ∀ line ∈ d.bodyLines content, OneLine line := by
  intro line hline
  rcases List.mem_append.mp hline with hattribute | hcodec
  · exact hd.attributeLines content line hattribute
  · obtain ⟨entry, hentry, hline⟩ := List.mem_flatMap.mp hcodec
    exact (hd.codecs content hcontent entry hentry).codecLines line hline

theorem Clean.lines (hd : d.Clean) : ∀ line ∈ d.lines, OneLine line := by
  intro line hline
  rcases List.mem_append.mp hline with hhead | hmedia
  · exact hd.headLines line hhead
  · obtain ⟨content, hcontent, hin⟩ := List.mem_flatMap.mp hmedia
    rcases List.mem_cons.mp hin with rfl | hbody
    · exact oneLine_mediaLine content
    · exact hd.bodyLines hcontent line hbody

/-- **The lines of a text are those that were written.** -/
theorem Clean.splitLines_toString (hd : d.Clean) : splitLines d.toString = (d.lines, []) := by
  rw [toString_eq]
  exact splitLines_unlines hd.lines

end SessionDescription

/-! ## Types and values -/

/-- A lower-case letter, an equals sign and a value. -/
def isTyped : Text → Bool
  | letter :: sign :: _ => decide (97 ≤ letter ∧ letter ≤ 122) && sign == 61
  | [] | [_] => false

theorem isTyped_append {start : Text} (hstart : isTyped start = true) (rest : Text) :
    isTyped (start ++ rest) = true := by
  match start with
  | [] | [_] => cases hstart
  | letter :: sign :: _ => exact hstart

theorem isTyped_of_begins {starts : List Text} {line : Text} (hline : Begins starts line)
    (hstarts : ∀ start ∈ starts, isTyped start = true) : isTyped line = true := by
  obtain ⟨start, hstart, rest, rfl⟩ := hline
  exact isTyped_append (hstarts start hstart) rest

/-- The contents of a group are no line of their own. -/
theorem isTyped_contentsText (group : ContentGroup) :
    isTyped (SessionDescription.contentsText group) = false := by
  rw [SessionDescription.contentsText]
  cases group.contents with
  | nil => rfl
  | cons content contents =>
      rw [List.flatMap_cons, List.append_assoc]
      cases content ++ contents.flatMap fun content => ascii " " ++ content with
      | nil => rfl
      | cons c rest => rfl

/-- The beginnings of all lines of a section. -/
def sectionStarts : List Text := ascii "m=" :: (attributeStarts ++ codecStarts)

namespace SessionDescription

variable {d : SessionDescription}

theorem begins_sectionLines {line : Text}
    (hline : line ∈ d.mediaDescs.flatMap fun content => mediaLine content :: d.bodyLines content) :
    Begins sectionStarts line := by
  obtain ⟨content, -, hin⟩ := List.mem_flatMap.mp hline
  rcases List.mem_cons.mp hin with rfl | hbody
  · exact begins_append (by decide) _
  · exact (d.begins_bodyLines content line hbody).mono (by decide)

/-- Every line has its type, as long as there is one group. -/
theorem isTyped_lines_iff :
    (∀ line ∈ d.lines, isTyped line = true) ↔ (d.getGroupByName (ascii "BUNDLE")).length ≤ 1 := by
  rw [lines, List.forall_mem_append, forall_mem_headLines]
  constructor
  · rintro ⟨⟨-, hgroups, -⟩, -⟩
    cases hnames : d.getGroupByName (ascii "BUNDLE") with
    | nil => exact Nat.zero_le _
    | cons first others =>
        cases others with
        | nil => exact le_rfl
        | cons second others =>
            rw [hnames] at hgroups
            have hsecond := hgroups (contentsText second) (by simp [groupLines])
            rw [isTyped_contentsText] at hsecond
            cases hsecond
  · intro hfew
    refine ⟨⟨by decide, ?_, by decide⟩, ?_⟩
    · cases hnames : d.getGroupByName (ascii "BUNDLE") with
      | nil =>
          intro line hline
          cases hline
      | cons first others =>
          cases others with
          | nil =>
              intro line hline
              rw [groupLines, List.map_nil, List.mem_singleton] at hline
              rw [hline]
              exact isTyped_append (by decide) _
          | cons second others =>
              rw [hnames] at hfew
              simp at hfew
    · intro line hline
      exact isTyped_of_begins (begins_sectionLines hline) (by decide)

end SessionDescription

/-! ## Groups -/

/-- The line that a group with these contents should have. -/
def bundleLine (contents : List Text) : Text :=
  ascii "a=group:BUNDLE" ++ contents.flatMap fun content => ascii " " ++ content

def isBundleLine (line : Text) : Bool := (ascii "a=group:BUNDLE").isPrefixOf line

/-- The contents of a group after a sequence of `add_content` calls: each content
once, in the order of the first calls. -/
def ContentGroup.ofContents (semantic : Text) (contents : List Text) : ContentGroup :=
  contents.foldl ContentGroup.addContent { semantic := semantic }

theorem contents_foldl_addContent (group : ContentGroup) (contents : List Text) :
    (contents.foldl ContentGroup.addContent group).contents =
      group.contents ++ (contents.filter fun content => content ∉ group.contents).eraseDups ∧
    (contents.foldl ContentGroup.addContent group).semantic = group.semantic := by
  induction contents generalizing group with
  | nil => exact ⟨(List.append_nil _).symm, rfl⟩
  | cons content contents ih =>
      rw [List.foldl_cons]
      obtain ⟨hcontents, hsemantic⟩ := ih (group.addContent content)
      by_cases hold : content ∈ group.contents
      · have hsame : group.addContent content = group := by
          rw [ContentGroup.addContent, dif_pos hold]
        rw [hsame] at hcontents hsemantic
        rw [hsame, List.filter_cons_of_neg (by simpa using hold)]
        exact ⟨hcontents, hsemantic⟩
      · have hadded : (group.addContent content).contents = group.contents ++ [content] := by
          rw [ContentGroup.addContent, dif_neg hold]
        have hname : (group.addContent content).semantic = group.semantic := by
          rw [ContentGroup.addContent, dif_neg hold]
        refine ⟨?_, hsemantic.trans hname⟩
        rw [hcontents, hadded, List.filter_cons_of_pos (by simpa using hold), List.eraseDups_cons,
          List.filter_filter, List.append_assoc, List.singleton_append]
        congr 3
        apply List.filter_congr
        intro other _
        by_cases hsame : other = content
        · simp [hsame]
        · simp [hsame]

theorem contents_ofContents (semantic : Text) (contents : List Text) :
    (ContentGroup.ofContents semantic contents).contents = contents.eraseDups := by
  rw [ContentGroup.ofContents, (contents_foldl_addContent _ _).1]
  simp

theorem semantic_ofContents (semantic : Text) (contents : List Text) :
    (ContentGroup.ofContents semantic contents).semantic = semantic :=
  (contents_foldl_addContent _ _).2

/-! ## Descriptions put together by calls -/

/-- The calls that put a description together. A content group comes with the
contents that were added to it. -/
inductive SdpCall
  | addMediaDesc (desc : MediaContentDescription)
  | addContentGroup (semantic : Text) (contents : List Text)
  | addTransportInfo (mid : Text) (params : IceParameters)
      (certificate : Option (Option SSLFingerprint))

/-- The contents of a group with the semantic `BUNDLE`. -/
def SdpCall.bundled : SdpCall → Option (List Text)
  | .addContentGroup semantic contents =>
      if semantic = ascii "BUNDLE" then some contents else none
  | .addMediaDesc _ | .addTransportInfo _ _ _ => none

/-- No string of the call holds a line end. -/
def SdpCall.Clean : SdpCall → Prop
  | .addMediaDesc desc => ∀ entry ∈ desc.codecs, entry.1.Clean
  | .addContentGroup semantic contents =>
      OneLine semantic ∧ ∀ content ∈ contents, OneLine content
  | .addTransportInfo _ params certificate =>
      OneLine params.iceUfrag ∧ OneLine params.icePassword ∧
        ∀ fp, certificate = some (some fp) → OneLine fp.algorithm

/-- What a text should be that was written for groups with these contents: lines,
each with its type, and every group on a line of its own. -/
structure WellFormed (text : Text) (groups : List (List Text)) : Prop where
  terminated : (splitLines text).2 = []
  oneLine : ∀ line ∈ (splitLines text).1, OneLine line
  typed : ∀ line ∈ (splitLines text).1, isTyped line = true
  bundled : (splitLines text).1.filter isBundleLine =
    groups.map fun contents => bundleLine contents.eraseDups

namespace SessionDescription

variable {d : SessionDescription}

def call (d : SessionDescription) : SdpCall → SessionDescription
  | .addMediaDesc desc => d.addMediaDesc desc
  | .addContentGroup semantic contents => d.addContentGroup (.ofContents semantic contents)
  | .addTransportInfo mid params certificate => (d.addTransportInfo mid params certificate).1

/-- A description of a type, after these calls. -/
def ofCalls (type : SdpType) (calls : List SdpCall) : SessionDescription :=
  calls.foldl call { type := type }

theorem Clean.call {call : SdpCall} (hd : d.Clean) (hcall : call.Clean) : (d.call call).Clean := by
  cases call with
  | addMediaDesc desc =>
      refine ⟨?_, hd.groups, hd.transports⟩
      intro content hcontent
      rcases List.mem_append.mp hcontent with hold | hnew
      · exact hd.codecs content hold
      · rw [List.mem_singleton.mp hnew]
        exact hcall
  | addContentGroup semantic contents =>
      refine ⟨hd.codecs, ?_, hd.transports⟩
      intro group hgroup
      rcases List.mem_append.mp hgroup with hold | hnew
      · exact hd.groups group hold
      · rw [List.mem_singleton.mp hnew]
        refine ⟨?_, ?_⟩
        · rw [semantic_ofContents]
          exact hcall.1
        · intro content hcontent
          rw [contents_ofContents, List.mem_eraseDups] at hcontent
          exact hcall.2 content hcontent
  | addTransportInfo mid params certificate =>
      rw [SessionDescription.call, addTransportInfo]
      split
      · exact hd
      · refine ⟨hd.codecs, hd.groups, ?_⟩
        intro transport htransport
        rcases List.mem_append.mp htransport with hold | hnew
        · exact hd.transports transport hold
        · rw [List.mem_singleton.mp hnew]
          refine ⟨hcall.1, hcall.2.1, ?_⟩
          intro fp hfp
          exact hcall.2.2 fp (Option.join_eq_some_iff.mp hfp)

theorem clean_ofCalls (type : SdpType) {calls : List SdpCall}
    (hcalls : ∀ call ∈ calls, call.Clean) : (ofCalls type calls).Clean := by
  have hfold (d : SessionDescription) (hd : d.Clean) : (calls.foldl call d).Clean := by
    induction calls generalizing d with
    | nil => exact hd
    | cons call calls ih =>
        obtain ⟨hcall, hrest⟩ := List.forall_mem_cons.mp hcalls
        exact ih hrest (d.call call) (hd.call hcall)
  apply hfold
  exact ⟨by simp, by simp, by simp⟩

/-- The `BUNDLE` groups of a description are those of its calls. -/
theorem getGroupByName_ofCalls (type : SdpType) (calls : List SdpCall) :
    (ofCalls type calls).getGroupByName (ascii "BUNDLE") =
      (calls.filterMap SdpCall.bundled).map (.ofContents (ascii "BUNDLE")) := by
  have hfold (d : SessionDescription) :
      (calls.foldl call d).getGroupByName (ascii "BUNDLE") =
        d.getGroupByName (ascii "BUNDLE") ++
          (calls.filterMap SdpCall.bundled).map (.ofContents (ascii "BUNDLE")) := by
    induction calls generalizing d with
    | nil => exact (List.append_nil _).symm
    | cons call calls ih =>
        rw [List.foldl_cons, ih]
        cases call with
        | addMediaDesc desc => rfl
        | addContentGroup semantic contents =>
            rw [SessionDescription.call, getGroupByName, addContentGroup, List.filter_append,
              List.append_assoc, getGroupByName]
            congr 1
            by_cases hname : semantic = ascii "BUNDLE"
            · have hbundled : (SdpCall.addContentGroup semantic contents).bundled = some contents :=
                if_pos hname
              rw [List.filterMap_cons_some hbundled, List.filter_cons_of_pos, hname]
              · rfl
              · rw [semantic_ofContents]
                exact decide_eq_true hname
            · have hbundled : (SdpCall.addContentGroup semantic contents).bundled = none :=
                if_neg hname
              rw [List.filterMap_cons_none hbundled, List.filter_cons_of_neg]
              · rfl
              · rw [semantic_ofContents]
                simpa using hname
        | addTransportInfo mid params certificate =>
            rw [SessionDescription.call, addTransportInfo]
            split
            · rfl
            · rfl
  exact hfold { type := type }

/-- At most one group has its own line. -/
theorem filter_isBundleLine_groupLines {groups : List ContentGroup}
    (hsemantic : ∀ group ∈ groups, group.semantic = ascii "BUNDLE") (hfew : groups.length ≤ 1) :
    (groupLines groups).filter isBundleLine = groups.map fun group => bundleLine group.contents := by
  match groups with
  | [] => rfl
  | [group] =>
      have hline : ascii "a=group:" ++ (group.semantic ++ contentsText group) =
          bundleLine group.contents := by
        rw [hsemantic group (List.mem_singleton_self group)]
        rfl
      have hbundle : isBundleLine (bundleLine group.contents) = true := isPrefixOf_append _ _
      rw [groupLines, List.map_nil, hline, List.filter_cons_of_pos hbundle]
      rfl
  | first :: second :: others => simp at hfew

theorem filter_isBundleLine_lines
    (hfew : (d.getGroupByName (ascii "BUNDLE")).length ≤ 1) :
    d.lines.filter isBundleLine =
      (d.getGroupByName (ascii "BUNDLE")).map fun group => bundleLine group.contents := by
  have hfirst : firstLines.filter isBundleLine = [] := by decide
  have hlast : [ascii "a=msid-semantic: WMS *"].filter isBundleLine = [] := by decide
  have hsections : (d.mediaDescs.flatMap fun content =>
      mediaLine content :: d.bodyLines content).filter isBundleLine = [] :=
    filter_isPrefixOf_of_begins (fun line => begins_sectionLines) (by decide)
  rw [lines, headLines, List.filter_append, List.filter_append, List.filter_append, hfirst, hlast,
    hsections, List.nil_append, List.append_nil, List.append_nil]
  exact filter_isBundleLine_groupLines (fun group hgroup => (mem_getGroupByName hgroup).2) hfew

/-- **The text is well formed**, with each `BUNDLE` group on a line of its own, if
and only if at most one such group was added. -/
theorem wellFormed_iff (type : SdpType) (calls : List SdpCall)
    (hclean : ∀ call ∈ calls, call.Clean) :
    WellFormed (ofCalls type calls).toString (calls.filterMap SdpCall.bundled) ↔
      (calls.filterMap SdpCall.bundled).length ≤ 1 := by
  have hd := clean_ofCalls type hclean
  have hsplit := hd.splitLines_toString
  have hgroups := getGroupByName_ofCalls type calls
  have hlength : ((ofCalls type calls).getGroupByName (ascii "BUNDLE")).length =
      (calls.filterMap SdpCall.bundled).length := by
    rw [hgroups, List.length_map]
  constructor
  · intro hwell
    have htyped := hwell.typed
    rw [hsplit] at htyped
    rw [← hlength]
    exact isTyped_lines_iff.mp htyped
  · intro hfew
    rw [← hlength] at hfew
    constructor
    · rw [hsplit]
    · rw [hsplit]
      exact hd.lines
    · rw [hsplit]
      exact isTyped_lines_iff.mpr hfew
    · rw [hsplit, filter_isBundleLine_lines hfew, hgroups, List.map_map]
      apply List.map_congr_left
      intro contents _
      exact congrArg bundleLine (contents_ofContents _ _)

/-- One group with a content that is added twice, and a media description. -/
def bundledOnce : List SdpCall :=
  [.addMediaDesc audioContentDescription,
    .addContentGroup (ascii "BUNDLE") [ascii "audio", ascii "audio"]]

theorem wellFormed_iff_bundledOnce :
    WellFormed (ofCalls .offer bundledOnce).toString [[ascii "audio", ascii "audio"]] := by
  refine (wellFormed_iff .offer bundledOnce ?_).mpr (by decide)
  intro call hcall
  rcases List.mem_cons.mp hcall with rfl | hlast
  · exact clean_audioContentDescription
  · rw [List.mem_singleton.mp hlast]
    exact ⟨by decide, by decide⟩

/-- Two groups. -/
def bundledTwice : List SdpCall :=
  [.addContentGroup (ascii "BUNDLE") [ascii "audio"],
    .addContentGroup (ascii "BUNDLE") [ascii "video"]]

/-- They share the beginning of one line. -/
theorem bundledTwice_not_wellFormed :
    (∀ call ∈ bundledTwice, call.Clean) ∧
      ¬ WellFormed (ofCalls .offer bundledTwice).toString [[ascii "audio"], [ascii "video"]] := by
  have hclean : ∀ call ∈ bundledTwice, call.Clean := by
    intro call hcall
    rcases List.mem_cons.mp hcall with rfl | hlast
    · exact ⟨by decide, by decide⟩
    · rw [List.mem_singleton.mp hlast]
      exact ⟨by decide, by decide⟩
  refine ⟨hclean, ?_⟩
  intro hwell
  have htyped := hwell.typed
  rw [(clean_ofCalls .offer hclean).splitLines_toString] at htyped
  have hfew := isTyped_lines_iff.mp htyped
  revert hfew
  decide

end SessionDescription

end Xrtc.Pc
