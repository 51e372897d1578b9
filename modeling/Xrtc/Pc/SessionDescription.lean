/-
# Session descriptions

A session description is put together from media descriptions, content groups and
transport descriptions, and written as one SDP text. The writer goes through the
media descriptions, looks up the transport of each by its media id, and goes
through the codecs with their feedback and format parameters. Strings are byte
strings; a `std::map` is the list of its entries in the order of their keys.

The text is a sequence of lines, and `lines` says which. Every later argument about
the text speaks about these lines.
-/

import Mathlib.Data.List.Basic
import Xrtc.Machine.Decimal
import Xrtc.Machine.Text

namespace Xrtc.Pc

open Xrtc.Machine

/-! ## Codecs -/

structure FeedBackParam where
  id : Text
  param : Text := []
  deriving DecidableEq

/-- `std::map<std::string, std::string>`. -/
structure CodecParam where
  entries : List (Text × Text) := []
  sorted : entries.Pairwise fun first second => first.1 < second.1 := by exact List.Pairwise.nil

namespace CodecParam

/-- The entries after an assignment to one key. -/
def insertEntry (key value : Text) : List (Text × Text) → List (Text × Text)
  | [] => [(key, value)]
  | entry :: entries =>
      if key < entry.1 then
        (key, value) :: entry :: entries
      else if key = entry.1 then
        (key, value) :: entries
      else
        entry :: insertEntry key value entries

theorem mem_insertEntry {key value : Text} {entries : List (Text × Text)} {entry : Text × Text}
    (hentry : entry ∈ insertEntry key value entries) : entry = (key, value) ∨ entry ∈ entries := by
  induction entries with
  | nil => exact .inl (List.mem_singleton.mp hentry)
  | cons first rest ih =>
      rw [insertEntry] at hentry
      split at hentry
      · exact List.mem_cons.mp hentry
      split at hentry
      · rcases List.mem_cons.mp hentry with hnew | hold
        · exact .inl hnew
        · exact .inr (List.mem_cons_of_mem _ hold)
      · rcases List.mem_cons.mp hentry with hfirst | hrest
        · exact .inr (hfirst ▸ List.mem_cons_self)
        · exact (ih hrest).imp_right (List.mem_cons_of_mem _)

theorem sorted_insertEntry (key value : Text) {entries : List (Text × Text)}
    (hsorted : entries.Pairwise fun first second => first.1 < second.1) :
    (insertEntry key value entries).Pairwise fun first second => first.1 < second.1 := by
  induction entries with
  | nil => exact List.pairwise_singleton _ _
  | cons first rest ih =>
      obtain ⟨hfirst, hrest⟩ := List.pairwise_cons.mp hsorted
      rw [insertEntry]
      split
      · rename_i hlt
        refine List.pairwise_cons.mpr ⟨?_, hsorted⟩
        intro entry hentry
        rcases List.mem_cons.mp hentry with rfl | hin
        · exact hlt
        · exact List.lt_trans hlt (hfirst entry hin)
      split
      · rename_i heq
        refine List.pairwise_cons.mpr ⟨?_, hrest⟩
        intro entry hentry
        rw [heq]
        exact hfirst entry hentry
      · rename_i hnlt hne
        refine List.pairwise_cons.mpr ⟨?_, ih hrest⟩
        intro entry hentry
        rcases mem_insertEntry hentry with rfl | hin
        · exact Std.lt_of_le_of_ne hnlt (Ne.symm hne)
        · exact hfirst entry hin

/-- `codec_params[key] = value`. -/
def set (params : CodecParam) (key value : Text) : CodecParam where
  entries := insertEntry key value params.entries
  sorted := sorted_insertEntry key value params.sorted

end CodecParam

structure CodecInfo where
  id : ℤ
  name : Text
  clockRate : ℤ
  fbParams : List FeedBackParam := []
  codecParams : CodecParam := {}

structure AudioCodecInfo extends CodecInfo where
  channels : ℤ

/-! ## Media descriptions -/

inductive SdpType
  | offer
  | answer
  deriving DecidableEq

inductive RtpDirection
  | sendOnly
  | receiveOnly
  | sendReceive
  | inactive
  deriving DecidableEq

/-- The codecs of a description, which are audio codecs where it is one of audio. -/
inductive MediaCodecs
  | audio (codecs : List AudioCodecInfo)
  | video (codecs : List CodecInfo)

structure MediaContentDescription where
  media : MediaCodecs
  direction : RtpDirection := .inactive
  rtcpMux : Bool := true

namespace MediaContentDescription

def mid (content : MediaContentDescription) : Text :=
  match content.media with
  | .audio _ => ascii "audio"
  | .video _ => ascii "video"

/-- What holds of both media ids holds of the one of a description. -/
theorem forall_mid (p : Text → Prop) (haudio : p (ascii "audio")) (hvideo : p (ascii "video"))
    (content : MediaContentDescription) : p content.mid := by
  rw [mid]
  cases content.media with
  | audio _ => exact haudio
  | video _ => exact hvideo

/-- The codecs, with the channels in an audio description. -/
def codecs (content : MediaContentDescription) : List (CodecInfo × Option ℤ) :=
  match content.media with
  | .audio codecs => codecs.map fun codec => (codec.toCodecInfo, some codec.channels)
  | .video codecs => codecs.map fun codec => (codec, none)

end MediaContentDescription

/-- The codec of `AudioContentDescription`. -/
def opus : AudioCodecInfo where
  id := 111
  name := ascii "opus"
  channels := 2
  clockRate := 48000
  fbParams := [⟨ascii "transport-cc", []⟩]
  codecParams :=
    CodecParam.set (CodecParam.set {} (ascii "minptime") (ascii "10")) (ascii "useinbandfec")
      (ascii "1")

/-- The first codec of `VideoContentDescription`. -/
def h264 : CodecInfo where
  id := 107
  name := ascii "h264"
  clockRate := 90000
  fbParams :=
    [⟨ascii "goog-remb", []⟩, ⟨ascii "transport-cc", []⟩, ⟨ascii "ccm", ascii "fir"⟩,
      ⟨ascii "nack", []⟩, ⟨ascii "nack", ascii "pli"⟩]
  codecParams :=
    CodecParam.set
      (CodecParam.set (CodecParam.set {} (ascii "level-asymmetry-allowed") (ascii "1"))
        (ascii "packetization-mode") (ascii "1"))
      (ascii "profile-level-id") (ascii "42e01")

/-- The second one, for retransmissions of the first. -/
def rtx : CodecInfo where
  id := 99
  name := ascii "rtx"
  clockRate := 90000
  codecParams := CodecParam.set {} (ascii "apt") (decimal h264.id)

def audioContentDescription : MediaContentDescription where
  media := .audio [opus]

def videoContentDescription : MediaContentDescription where
  media := .video [h264, rtx]

/-! ## Groups and transports -/

structure ContentGroup where
  semantic : Text
  contents : List Text := []
  nodup : contents.Nodup := by exact List.nodup_nil

theorem nodup_append_singleton {contents : List Text} {content : Text} (hnodup : contents.Nodup)
    (hnew : content ∉ contents) : (contents ++ [content]).Nodup := by
  rw [List.nodup_append]
  refine ⟨hnodup, List.pairwise_singleton _ _, ?_⟩
  intro first hfirst second hsecond
  rw [List.mem_singleton.mp hsecond]
  rintro rfl
  exact hnew hfirst

/-- `ContentGroup::add_content`. -/
def ContentGroup.addContent (group : ContentGroup) (content : Text) : ContentGroup :=
  if h : content ∈ group.contents then
    group
  else
    { group with
      contents := group.contents ++ [content]
      nodup := nodup_append_singleton group.nodup h }

inductive ConnectionRole
  | none
  | active
  | passive
  | actpass
  | holeconn
  deriving DecidableEq

/-- `k_connection_role_map`. -/
def ConnectionRole.text : ConnectionRole → Text
  | .none => ascii "none"
  | .active => ascii "active"
  | .passive => ascii "passive"
  | .actpass => ascii "actpass"
  | .holeconn => ascii "holeconn"

structure IceParameters where
  iceUfrag : Text
  icePassword : Text
  deriving DecidableEq

/-- `rtc::SSLFingerprint`. -/
structure SSLFingerprint where
  algorithm : Text
  digest : List UInt8
  deriving DecidableEq

namespace SSLFingerprint

/-- `hex_encode` of a number below sixteen. -/
def hexEncode (val : ℕ) : UInt8 := (ascii "0123456789abcdef").getD val 33

/-- `hex_encode_with_delimiter` with a colon. -/
def hexEncodeWithDelimiter : List UInt8 → Text
  | [] => []
  | [ch] => [hexEncode (ch.toNat / 16), hexEncode (ch.toNat % 16)]
  | ch :: source =>
      hexEncode (ch.toNat / 16) :: hexEncode (ch.toNat % 16) :: 58 ::
        hexEncodeWithDelimiter source

def toUpper (c : UInt8) : UInt8 := if 97 ≤ c ∧ c ≤ 122 then c - 32 else c

def getRfc4572Fingerprint (fp : SSLFingerprint) : Text :=
  (hexEncodeWithDelimiter fp.digest).map toUpper

theorem mem_hexEncodeWithDelimiter {c : UInt8} {source : List UInt8}
    (hc : c ∈ hexEncodeWithDelimiter source) : c = 58 ∨ ∃ val < 16, c = hexEncode val := by
  have hhalf (ch : UInt8) : ch.toNat / 16 < 16 ∧ ch.toNat % 16 < 16 := by
    have hlt : ch.toNat < 256 := ch.toNat_lt
    omega
  induction source using hexEncodeWithDelimiter.induct with
  | case1 => cases hc
  | case2 ch =>
      rw [hexEncodeWithDelimiter, List.mem_cons, List.mem_singleton] at hc
      rcases hc with hhigh | hlow
      · exact .inr ⟨_, (hhalf ch).1, hhigh⟩
      · exact .inr ⟨_, (hhalf ch).2, hlow⟩
  | case3 ch source hsource ih =>
      rw [hexEncodeWithDelimiter, List.mem_cons, List.mem_cons, List.mem_cons] at hc
      · rcases hc with hhigh | hlow | hcolon | hrest
        · exact .inr ⟨_, (hhalf ch).1, hhigh⟩
        · exact .inr ⟨_, (hhalf ch).2, hlow⟩
        · exact .inl hcolon
        · exact ih hrest
      · exact hsource

/-- A fingerprint is made of upper-case hexadecimal digits and colons. -/
theorem mem_getRfc4572Fingerprint {fp : SSLFingerprint} {c : UInt8}
    (hc : c ∈ fp.getRfc4572Fingerprint) : c ∈ ascii "0123456789ABCDEF:" := by
  have hdigit : ∀ val < 16, toUpper (hexEncode val) ∈ ascii "0123456789ABCDEF:" := by decide
  obtain ⟨lower, hlower, rfl⟩ := List.mem_map.mp hc
  rcases mem_hexEncodeWithDelimiter hlower with rfl | ⟨val, hval, rfl⟩
  · decide
  · exact hdigit val hval

end SSLFingerprint

structure TransportDescription where
  mid : Text
  iceUfrag : Text
  icePassword : Text
  identityFingerprint : Option SSLFingerprint := none
  role : ConnectionRole := .none
  deriving DecidableEq

structure SessionDescription where
  type : SdpType
  mediaDescs : List MediaContentDescription := []
  contentGroups : List ContentGroup := []
  transports : List TransportDescription := []

/-! ## The calls that put a description together -/

namespace SessionDescription

def addMediaDesc (d : SessionDescription) (desc : MediaContentDescription) : SessionDescription :=
  { d with mediaDescs := d.mediaDescs ++ [desc] }

def addContentGroup (d : SessionDescription) (group : ContentGroup) : SessionDescription :=
  { d with contentGroups := d.contentGroups ++ [group] }

/-- `add_transport_info`, with its result. `certificate` is nothing for a null
pointer, and otherwise what `SSLFingerprint::CreateFromCertificate` makes of it. -/
def addTransportInfo (d : SessionDescription) (mid : Text) (params : IceParameters)
    (certificate : Option (Option SSLFingerprint)) : SessionDescription × Bool :=
  let transport : TransportDescription :=
    { mid := mid
      iceUfrag := params.iceUfrag
      icePassword := params.icePassword
      identityFingerprint := certificate.join }
  if certificate = some none then
    (d, false)
  else
    let transport :=
      { transport with role := if d.type = .offer then .actpass else .active }
    ({ d with transports := d.transports ++ [transport] }, true)

def getTransport (d : SessionDescription) (mid : Text) : Option TransportDescription :=
  d.transports.find? fun transport => transport.mid = mid

def getGroupByName (d : SessionDescription) (name : Text) : List ContentGroup :=
  d.contentGroups.filter fun group => group.semantic = name

end SessionDescription

/-! ## The text -/

/-- `add_fmtp_line`: the parameters with a semicolon between them. -/
def addFmtpLine (codec : CodecInfo) : Text :=
  if codec.codecParams.entries = [] then
    []
  else
    ascii "a=fmtp:" ++ decimal codec.id ++ ascii " " ++
      (ascii ";").intercalate
        (codec.codecParams.entries.map fun param => param.1 ++ ascii "=" ++ param.2) ++ crlf

def addRtcpFbLine (codec : CodecInfo) : Text :=
  codec.fbParams.flatMap fun fbParam =>
    ascii "a=rtcp-fb:" ++ decimal codec.id ++ ascii " " ++ fbParam.id ++
      (if fbParam.param = [] then [] else ascii " " ++ fbParam.param) ++ crlf

def buildRtpDirection (content : MediaContentDescription) : Text :=
  match content.direction with
  | .sendReceive => ascii "a=sendrecv" ++ crlf
  | .sendOnly => ascii "a=sendonly" ++ crlf
  | .receiveOnly => ascii "a=recvonly" ++ crlf
  | .inactive => ascii "a=inactive" ++ crlf

def buildRtpMap (content : MediaContentDescription) : Text :=
  content.codecs.flatMap fun (codec, channels) =>
    ascii "a=rtpmap:" ++ decimal codec.id ++ ascii " " ++ codec.name ++ ascii "/" ++
      decimal codec.clockRate ++
      (match channels with
        | none => []
        | some channels => ascii "/" ++ decimal channels) ++ crlf ++
      addRtcpFbLine codec ++ addFmtpLine codec

/-- `k_media_protocol_dtls_savpf`. -/
def mediaProtocolDtlsSavpf : Text := ascii "UDP/TLS/RTP/SAVPF"

namespace SessionDescription

/-- The lines of the transport of a media description. -/
def transportText (transport : TransportDescription) : Text :=
  ascii "a=ice-ufrag:" ++ transport.iceUfrag ++ crlf ++
    ascii "a=ice-pwd:" ++ transport.icePassword ++ crlf ++
    (match transport.identityFingerprint with
      | none => []
      | some fp =>
          ascii "a=fingerprint:" ++ fp.algorithm ++ ascii " " ++ fp.getRfc4572Fingerprint ++ crlf ++
            ascii "a=setup:" ++ transport.role.text ++ crlf)

/-- The body of the loop over the media descriptions. -/
def mediaText (d : SessionDescription) (content : MediaContentDescription) : Text :=
  let fmt := content.codecs.flatMap fun (codec, _) => ascii " " ++ decimal codec.id
  ascii "m=" ++ content.mid ++ ascii " 9 " ++ mediaProtocolDtlsSavpf ++ fmt ++ crlf ++
    ascii "c=IN IP4 0.0.0.0" ++ crlf ++
    ascii "a=rtcp:9 IN IP4 0.0.0.0" ++ crlf ++
    ascii "a=mid:" ++ content.mid ++ crlf ++
    buildRtpDirection content ++
    (if content.rtcpMux then ascii "a=rtcp-mux" ++ crlf else []) ++
    (match d.getTransport content.mid with
      | none => []
      | some transport => transportText transport) ++
    buildRtpMap content

/-- `SessionDescription::to_string`. -/
def toString (d : SessionDescription) : Text :=
  let groups := d.getGroupByName (ascii "BUNDLE")
  ascii "v=0" ++ crlf ++
    ascii "o=- 1234567890 1234567890 IN IP4 127.0.0.1" ++ crlf ++
    ascii "s=-" ++ crlf ++
    ascii "t=0 0" ++ crlf ++
    (match groups with
      | [] => []
      | group :: _ => ascii "a=group:" ++ group.semantic) ++
    (groups.flatMap fun group =>
      (group.contents.flatMap fun content => ascii " " ++ content) ++ crlf) ++
    ascii "a=msid-semantic: WMS *" ++ crlf ++
    d.mediaDescs.flatMap d.mediaText

end SessionDescription

/-! ## The lines of the text -/

def fmtpLines (codec : CodecInfo) : List Text :=
  if codec.codecParams.entries = [] then
    []
  else
    [ascii "a=fmtp:" ++ (decimal codec.id ++ ascii " " ++
      (ascii ";").intercalate
        (codec.codecParams.entries.map fun param => param.1 ++ ascii "=" ++ param.2))]

def rtcpFbLine (codec : CodecInfo) (fbParam : FeedBackParam) : Text :=
  ascii "a=rtcp-fb:" ++ (decimal codec.id ++ ascii " " ++
    (fbParam.id ++ if fbParam.param = [] then [] else ascii " " ++ fbParam.param))

def rtpMapLine (codec : CodecInfo) (channels : Option ℤ) : Text :=
  ascii "a=rtpmap:" ++ (decimal codec.id ++ ascii " " ++
    (codec.name ++ ascii "/" ++ decimal codec.clockRate ++
      match channels with
      | none => []
      | some channels => ascii "/" ++ decimal channels))

/-- The lines that belong to a codec, behind its `a=rtpmap` line. -/
def parameterLines (codec : CodecInfo) : List Text :=
  codec.fbParams.map (rtcpFbLine codec) ++ fmtpLines codec

def codecLines (entry : CodecInfo × Option ℤ) : List Text :=
  rtpMapLine entry.1 entry.2 :: parameterLines entry.1

def directionLine (content : MediaContentDescription) : Text :=
  match content.direction with
  | .sendReceive => ascii "a=sendrecv"
  | .sendOnly => ascii "a=sendonly"
  | .receiveOnly => ascii "a=recvonly"
  | .inactive => ascii "a=inactive"

def fingerprintLines (transport : TransportDescription) : List Text :=
  match transport.identityFingerprint with
  | none => []
  | some fp =>
      [ascii "a=fingerprint:" ++ (fp.algorithm ++ ascii " " ++ fp.getRfc4572Fingerprint),
        ascii "a=setup:" ++ transport.role.text]

def transportLines (transport : TransportDescription) : List Text :=
  [ascii "a=ice-ufrag:" ++ transport.iceUfrag, ascii "a=ice-pwd:" ++ transport.icePassword] ++
    fingerprintLines transport

def mediaLine (content : MediaContentDescription) : Text :=
  ascii "m=" ++ (content.mid ++ ascii " 9 " ++ mediaProtocolDtlsSavpf ++
    content.codecs.flatMap fun entry => ascii " " ++ decimal entry.1.id)

/-- The `a=rtcp-mux` line, if there is one. -/
def rtcpMuxLines (content : MediaContentDescription) : List Text :=
  if content.rtcpMux then [ascii "a=rtcp-mux"] else []

/-- The lines of a section that do not depend on a transport or a codec. -/
def plainLines (content : MediaContentDescription) : List Text :=
  [ascii "c=IN IP4 0.0.0.0", ascii "a=rtcp:9 IN IP4 0.0.0.0", ascii "a=mid:" ++ content.mid,
      directionLine content] ++
    rtcpMuxLines content

namespace SessionDescription

/-- The lines of a section between its `m=` line and its codecs. -/
def attributeLines (d : SessionDescription) (content : MediaContentDescription) : List Text :=
  plainLines content ++ (d.getTransport content.mid).elim [] transportLines

/-- The lines of a section behind its `m=` line. -/
def bodyLines (d : SessionDescription) (content : MediaContentDescription) : List Text :=
  d.attributeLines content ++ content.codecs.flatMap codecLines

/-- The contents of a group, each behind a blank. -/
def contentsText (group : ContentGroup) : Text :=
  group.contents.flatMap fun content => ascii " " ++ content

/-- The lines of the groups. Only the first of them begins like a line. -/
def groupLines : List ContentGroup → List Text
  | [] => []
  | group :: groups =>
      (ascii "a=group:" ++ (group.semantic ++ contentsText group)) :: groups.map contentsText

/-- The lines that every text begins with. -/
def firstLines : List Text :=
  [ascii "v=0", ascii "o=- 1234567890 1234567890 IN IP4 127.0.0.1", ascii "s=-", ascii "t=0 0"]

/-- The lines before the first section. -/
def headLines (d : SessionDescription) : List Text :=
  firstLines ++ groupLines (d.getGroupByName (ascii "BUNDLE")) ++ [ascii "a=msid-semantic: WMS *"]

def lines (d : SessionDescription) : List Text :=
  d.headLines ++ d.mediaDescs.flatMap fun content => mediaLine content :: d.bodyLines content

theorem forall_mem_headLines {d : SessionDescription} {p : Text → Prop} :
    (∀ line ∈ d.headLines, p line) ↔ (∀ line ∈ firstLines, p line) ∧
      (∀ line ∈ groupLines (d.getGroupByName (ascii "BUNDLE")), p line) ∧
      p (ascii "a=msid-semantic: WMS *") := by
  rw [headLines, List.forall_mem_append, List.forall_mem_append, List.forall_mem_singleton,
    and_assoc]

theorem mem_attributeLines {d : SessionDescription} {content : MediaContentDescription}
    {line : Text} : line ∈ d.attributeLines content ↔ line ∈ plainLines content ∨
      ∃ transport, d.getTransport content.mid = some transport ∧
        line ∈ transportLines transport := by
  rw [attributeLines, List.mem_append]
  cases d.getTransport content.mid with
  | none => simp
  | some transport => simp

end SessionDescription

theorem addFmtpLine_eq (codec : CodecInfo) : addFmtpLine codec = unlines (fmtpLines codec) := by
  rw [addFmtpLine, fmtpLines]
  split
  · rfl
  · simp

theorem addRtcpFbLine_eq (codec : CodecInfo) :
    addRtcpFbLine codec = unlines (codec.fbParams.map (rtcpFbLine codec)) := by
  rw [addRtcpFbLine, unlines, List.flatMap_map]
  simp [rtcpFbLine]

theorem buildRtpDirection_eq (content : MediaContentDescription) :
    buildRtpDirection content = unlines [directionLine content] := by
  rw [buildRtpDirection, directionLine, unlines_cons, unlines_nil, List.append_nil]
  cases content.direction with
  | sendOnly | receiveOnly | sendReceive | inactive => rfl

theorem buildRtpMap_eq (content : MediaContentDescription) :
    buildRtpMap content = unlines (content.codecs.flatMap codecLines) := by
  rw [buildRtpMap, unlines_flatMap]
  congr 1
  funext entry
  obtain ⟨codec, channels⟩ := entry
  simp [codecLines, parameterLines, rtpMapLine, addRtcpFbLine_eq, addFmtpLine_eq]

namespace SessionDescription

theorem transportText_eq (transport : TransportDescription) :
    transportText transport = unlines (transportLines transport) := by
  rw [transportText, transportLines, fingerprintLines]
  cases transport.identityFingerprint with
  | none => simp
  | some fp => simp

theorem mediaText_eq (d : SessionDescription) (content : MediaContentDescription) :
    d.mediaText content = unlines (mediaLine content :: d.bodyLines content) := by
  have htransport : (match d.getTransport content.mid with
      | none => []
      | some transport => transportText transport) =
      unlines ((d.getTransport content.mid).elim [] transportLines) := by
    cases d.getTransport content.mid with
    | none => rfl
    | some transport => exact transportText_eq transport
  have hmux : (if content.rtcpMux then ascii "a=rtcp-mux" ++ crlf else []) =
      unlines (rtcpMuxLines content) := by
    rw [rtcpMuxLines]
    split
    · rw [unlines_cons, unlines_nil, List.append_nil]
    · rfl
  simp only [mediaText, htransport, hmux, buildRtpDirection_eq, buildRtpMap_eq]
  simp [mediaLine, bodyLines, attributeLines, plainLines]

theorem groupText_eq (groups : List ContentGroup) :
    (match groups with
      | [] => []
      | group :: _ => ascii "a=group:" ++ group.semantic) ++
      (groups.flatMap fun group =>
        (group.contents.flatMap fun content => ascii " " ++ content) ++ crlf) =
      unlines (groupLines groups) := by
  cases groups with
  | nil => rfl
  | cons group groups =>
      simp [groupLines, unlines, contentsText, List.flatMap_map]

/-- **The text is its lines.** -/
theorem toString_eq (d : SessionDescription) : d.toString = unlines d.lines := by
  have hmedia : (fun content => unlines (mediaLine content :: d.bodyLines content)) =
      d.mediaText := funext fun content => (d.mediaText_eq content).symm
  rw [lines, unlines_append, unlines_flatMap, hmedia, toString]
  simp only [headLines, firstLines, unlines_append, ← groupText_eq, unlines_cons, unlines_nil,
    List.append_nil, List.append_assoc]

end SessionDescription

end Xrtc.Pc
