/-
# The offer of a peer connection

`create_offer` puts a session description together: a media description and a
transport for each medium that is to be received, and one group of all of them. The
transport is added by a call of its own that fails when no fingerprint can be made
of the certificate, and nobody looks at its result. So an offer carries the
credentials and the fingerprint in every section if and only if none of these calls
fails.

The credentials are drawn at random, and what `SSLFingerprint::CreateFromCertificate`
returns at the call for a medium is an argument.
-/

import Xrtc.Pc.ReadBack

namespace Xrtc.Pc

open Xrtc.Machine

/-! ## Credentials -/

/-- `kBase64`. -/
def base64 : Text := ascii "ABCDEFGHIJKLMNOPQRSTUVWXYZabcdefghijklmnopqrstuvwxyz0123456789+/"

def ICE_UFRAG_LEN : ℕ := 4

def ICE_PASSWORD_LEN : ℕ := 24

/-- `rtc::CreateRandomString`, with the bytes of the random generator. -/
def createRandomString (len : ℕ) (bytes : ℕ → UInt8) : Text :=
  (List.range len).map fun i => base64.getD ((bytes i).toNat % 64) 0

def createRandomIceCredentials (ufragBytes passwordBytes : ℕ → UInt8) : IceParameters where
  iceUfrag := createRandomString ICE_UFRAG_LEN ufragBytes
  icePassword := createRandomString ICE_PASSWORD_LEN passwordBytes

/-- Credentials of the length and the letters that are drawn. -/
structure IceParameters.Drawn (params : IceParameters) : Prop where
  iceUfrag : params.iceUfrag.length = ICE_UFRAG_LEN ∧ ∀ c ∈ params.iceUfrag, c ∈ base64
  icePassword : params.icePassword.length = ICE_PASSWORD_LEN ∧ ∀ c ∈ params.icePassword, c ∈ base64

theorem createRandomString_spec (len : ℕ) (bytes : ℕ → UInt8) :
    (createRandomString len bytes).length = len ∧
      ∀ c ∈ createRandomString len bytes, c ∈ base64 := by
  refine ⟨by rw [createRandomString, List.length_map, List.length_range], ?_⟩
  intro c hc
  obtain ⟨i, -, rfl⟩ := List.mem_map.mp hc
  have hlt : (bytes i).toNat % 64 < base64.length := Nat.mod_lt _ (by decide)
  rw [List.getD_eq_getElem?_getD, List.getElem?_eq_getElem hlt]
  exact List.getElem_mem hlt

theorem drawn_createRandomIceCredentials (ufragBytes passwordBytes : ℕ → UInt8) :
    (createRandomIceCredentials ufragBytes passwordBytes).Drawn where
  iceUfrag := createRandomString_spec _ _
  icePassword := createRandomString_spec _ _

theorem oneLine_of_base64 {text : Text} (htext : ∀ c ∈ text, c ∈ base64) : OneLine text :=
  ⟨fun hmem => absurd (htext 13 hmem) (by decide), fun hmem => absurd (htext 10 hmem) (by decide)⟩

theorem IceParameters.Drawn.oneLine {params : IceParameters} (hparams : params.Drawn) :
    OneLine params.iceUfrag ∧ OneLine params.icePassword :=
  ⟨oneLine_of_base64 hparams.iceUfrag.2, oneLine_of_base64 hparams.icePassword.2⟩

/-! ## The offer -/

structure RTCOfferAnswerOptions where
  sendAudio : Bool := true
  sendVideo : Bool := true
  recvAudio : Bool := true
  recvVideo : Bool := true
  useRtpMux : Bool := true
  useRtcpMux : Bool := true
  dtlsOn : Bool := true
  deriving DecidableEq

def getRtpDir (send recv : Bool) : RtpDirection :=
  if send && recv then
    .sendReceive
  else if send then
    .sendOnly
  else if recv then
    .receiveOnly
  else
    .inactive

/-- A certificate, as far as an offer depends on it: what `CreateFromCertificate`
makes of it at the call for a medium. -/
abbrev Certificate := Text → Option SSLFingerprint

namespace SessionDescription

/-- One medium of `create_offer`. The result of `add_transport_info` is dropped. -/
def addMedia (d : SessionDescription) (params : IceParameters) (certificate : Option Certificate)
    (desc : MediaContentDescription) : SessionDescription :=
  let d := d.addMediaDesc desc
  (d.addTransportInfo desc.mid params (certificate.map fun certificate => certificate desc.mid)).1

/-- The group of all media, unless there is none. -/
def addBundle (d : SessionDescription) : SessionDescription :=
  let group := ContentGroup.ofContents (ascii "BUNDLE")
    (d.mediaDescs.map MediaContentDescription.mid)
  if group.contents = [] then d else d.addContentGroup group

end SessionDescription

namespace RTCOfferAnswerOptions

/-- The audio description with what the options say of it. -/
def audioDesc (opts : RTCOfferAnswerOptions) : MediaContentDescription :=
  { audioContentDescription with
    direction := getRtpDir opts.sendAudio opts.recvAudio
    rtcpMux := opts.useRtcpMux }

def videoDesc (opts : RTCOfferAnswerOptions) : MediaContentDescription :=
  { videoContentDescription with
    direction := getRtpDir opts.sendVideo opts.recvVideo
    rtcpMux := opts.useRtcpMux }

/-- `_local_desc` at the end of `create_offer`. -/
def localDesc (opts : RTCOfferAnswerOptions) (certificate : Option Certificate)
    (params : IceParameters) : SessionDescription :=
  let d : SessionDescription := { type := .offer }
  let d := if opts.recvAudio then d.addMedia params certificate opts.audioDesc else d
  let d := if opts.recvVideo then d.addMedia params certificate opts.videoDesc else d
  if opts.useRtpMux then d.addBundle else d

/-- `PeerConnection::create_offer` with the certificate, which may be null, and the
credentials that it draws. -/
def createOffer (opts : RTCOfferAnswerOptions) (certificate : Option Certificate)
    (params : IceParameters) : Text :=
  if opts.dtlsOn && certificate.isNone then [] else (opts.localDesc certificate params).toString

end RTCOfferAnswerOptions

/-! ## What every section should carry -/

/-- The lines of a section that begin so. -/
def linesWith (start : Text) (sec : Text × List Text) : List Text := sec.2.filter start.isPrefixOf

/-- A section with its credentials and, where they are wanted, the attributes of DTLS. -/
structure SecuredSection (opts : RTCOfferAnswerOptions) (params : IceParameters)
    (sec : Text × List Text) : Prop where
  iceUfrag : linesWith (ascii "a=ice-ufrag:") sec = [ascii "a=ice-ufrag:" ++ params.iceUfrag]
  icePwd : linesWith (ascii "a=ice-pwd:") sec = [ascii "a=ice-pwd:" ++ params.icePassword]
  fingerprint : opts.dtlsOn = true → (linesWith (ascii "a=fingerprint:") sec).length = 1
  setup : opts.dtlsOn = true → linesWith (ascii "a=setup:") sec = [ascii "a=setup:actpass"]

/-- No offer, or one whose sections all carry the same credentials. -/
def Secured (opts : RTCOfferAnswerOptions) (text : Text) : Prop :=
  text = [] ∨ ∃ params, ∀ sec ∈ sections text, SecuredSection opts params sec

/-- The transport of a medium for which a fingerprint was made. -/
def securedTransport (params : IceParameters) (mid : Text) (fp : SSLFingerprint) :
    TransportDescription where
  mid := mid
  iceUfrag := params.iceUfrag
  icePassword := params.icePassword
  identityFingerprint := some fp
  role := .actpass

namespace SessionDescription

variable {d : SessionDescription} {content desc : MediaContentDescription} {params : IceParameters}
  {certificate : Certificate} {opts : RTCOfferAnswerOptions}

/-- Credentials and DTLS attributes come from the transport alone. -/
theorem linesWith_bodyLines (d : SessionDescription) (content : MediaContentDescription)
    {start : Text} (hstart : start ∈ transportStarts) :
    linesWith start (mediaLine content, d.bodyLines content) =
      ((d.getTransport content.mid).elim [] transportLines).filter start.isPrefixOf := by
  have hothers : ∀ start ∈ transportStarts, ∀ other ∈ plainStarts ++ codecStarts,
      ¬ start <+: other ∧ ¬ other <+: start := by decide
  have hplain := filter_isPrefixOf_of_begins (begins_plainLines content) fun other hother =>
    hothers start hstart other (List.mem_append_left _ hother)
  have hcodecs := filter_isPrefixOf_of_begins (@begins_codecLines content.codecs)
    fun other hother => hothers start hstart other (List.mem_append_right _ hother)
  rw [linesWith, bodyLines, attributeLines, List.filter_append, List.filter_append, hplain, hcodecs,
    List.nil_append, List.append_nil]

/-- A section with such a transport is secured. -/
theorem securedSection_of_transport {fp : SSLFingerprint} (opts : RTCOfferAnswerOptions)
    (hfound : d.getTransport content.mid = some (securedTransport params content.mid fp)) :
    SecuredSection opts params (mediaLine content, d.bodyLines content) := by
  have hlines {start : Text} (hstart : start ∈ transportStarts) :
      linesWith start (mediaLine content, d.bodyLines content) =
        (transportLines (securedTransport params content.mid fp)).filter start.isPrefixOf := by
    rw [d.linesWith_bodyLines content hstart, hfound]
    rfl
  constructor
  case iceUfrag =>
    rw [hlines (by decide)]
    rfl
  case icePwd =>
    rw [hlines (by decide)]
    rfl
  case fingerprint =>
    intro _
    rw [hlines (by decide)]
    rfl
  case setup =>
    intro _
    rw [hlines (by decide)]
    rfl

/-- A section without a transport is not. -/
theorem isSome_of_securedSection
    (hsecured : SecuredSection opts params (mediaLine content, d.bodyLines content)) :
    (d.getTransport content.mid).isSome = true := by
  cases hfound : d.getTransport content.mid with
  | none =>
      have hnone := d.linesWith_bodyLines content (show ascii "a=ice-ufrag:" ∈ _ by decide)
      rw [hfound, hsecured.iceUfrag] at hnone
      cases hnone
  | some transport => rfl

/-! ## The description of an offer -/

/-- What a medium changes besides the transports. -/
theorem addMedia_spec (d : SessionDescription) (desc : MediaContentDescription) :
    (d.addMedia params certificate desc).type = d.type ∧
      (d.addMedia params certificate desc).mediaDescs = d.mediaDescs ++ [desc] ∧
      (d.addMedia params certificate desc).contentGroups = d.contentGroups := by
  rw [addMedia, addTransportInfo]
  split
  · exact ⟨rfl, rfl, rfl⟩
  · exact ⟨rfl, rfl, rfl⟩

/-- What a transport with a fingerprint adds to an offer. -/
theorem transports_addTransportInfo (hoffer : d.type = .offer) (mid : Text) (params : IceParameters)
    (fp : SSLFingerprint) :
    (d.addTransportInfo mid params (some (some fp))).1.transports =
      d.transports ++ [securedTransport params mid fp] := by
  have hmade : some (some fp) ≠ some none := by simp
  rw [addTransportInfo, if_neg hmade, hoffer]
  rfl

/-- The transport of a medium is there if its fingerprint could be made. -/
theorem getTransport_addMedia (hoffer : d.type = .offer) (mid : Text) :
    (d.addMedia params certificate desc).getTransport mid =
      (d.getTransport mid).or
        (if desc.mid = mid then (certificate mid).map (securedTransport params mid) else none) := by
  cases houtcome : certificate desc.mid with
  | none =>
      have hsame : d.addMedia params certificate desc = d.addMediaDesc desc := by
        rw [addMedia, addTransportInfo]
        exact congrArg Prod.fst (if_pos (congrArg some houtcome))
      rw [hsame]
      split
      · rename_i hmid
        rw [← hmid, houtcome, Option.map_none, Option.or_none]
        rfl
      · rw [Option.or_none]
        rfl
  | some fp =>
      have hadded : (d.addMedia params certificate desc).transports =
          d.transports ++ [securedTransport params desc.mid fp] := by
        rw [addMedia, Option.map_some, houtcome]
        exact transports_addTransportInfo hoffer desc.mid params fp
      rw [getTransport, hadded, List.find?_append, getTransport]
      congr 1
      split
      · rename_i hmid
        rw [← hmid, houtcome]
        exact List.find?_cons_of_pos (decide_eq_true rfl)
      · rename_i hmid
        exact List.find?_cons_of_neg fun hfound => hmid (of_decide_eq_true hfound)

/-- All media of an offer. -/
theorem getTransport_foldl (hoffer : d.type = .offer) (media : List MediaContentDescription)
    (mid : Text) :
    (media.foldl (addMedia · params certificate) d).getTransport mid =
      (d.getTransport mid).or
        (if mid ∈ media.map MediaContentDescription.mid then
          (certificate mid).map (securedTransport params mid)
        else
          none) := by
  induction media generalizing d with
  | nil => exact Option.or_none.symm
  | cons desc media ih =>
      rw [List.foldl_cons, ih ((d.addMedia_spec desc).1.trans hoffer), getTransport_addMedia hoffer,
        Option.or_assoc, List.map_cons]
      congr 1
      -- a second transport of the same medium would be the same one
      by_cases hmid : desc.mid = mid
      · have hin : mid ∈ desc.mid :: media.map MediaContentDescription.mid :=
          List.mem_cons.mpr (.inl hmid.symm)
        rw [if_pos hmid, if_pos hin]
        split
        · exact Option.or_self
        · exact Option.or_none
      · rw [if_neg hmid, Option.none_or]
        simp only [List.mem_cons, Ne.symm hmid, false_or]

theorem foldl_addMedia_spec (media : List MediaContentDescription) :
    (media.foldl (addMedia · params certificate) d).mediaDescs = d.mediaDescs ++ media ∧
      (media.foldl (addMedia · params certificate) d).contentGroups = d.contentGroups := by
  induction media generalizing d with
  | nil => exact ⟨(List.append_nil _).symm, rfl⟩
  | cons desc media ih =>
      obtain ⟨-, hmedia, hgroups⟩ := @addMedia_spec params certificate d desc
      obtain ⟨hmediaDescs, hcontentGroups⟩ := @ih (d.addMedia params certificate desc)
      rw [List.foldl_cons]
      constructor
      · rw [hmediaDescs, hmedia, List.append_assoc, List.singleton_append]
      · exact hcontentGroups.trans hgroups

theorem Clean.addMedia (hd : d.Clean) (hdesc : ∀ entry ∈ desc.codecs, entry.1.Clean)
    (hparams : OneLine params.iceUfrag ∧ OneLine params.icePassword)
    (halgorithm : ∀ mid fp, certificate mid = some fp → OneLine fp.algorithm) :
    (d.addMedia params certificate desc).Clean := by
  have hmedia : (d.call (.addMediaDesc desc)).Clean := hd.call hdesc
  apply @Clean.call _ (.addTransportInfo desc.mid params (some (certificate desc.mid))) hmedia
  refine ⟨hparams.1, hparams.2, ?_⟩
  intro fp hfp
  exact halgorithm desc.mid fp (Option.some.inj hfp)

theorem addBundle_spec (d : SessionDescription) :
    d.addBundle.mediaDescs = d.mediaDescs ∧ d.addBundle.transports = d.transports := by
  rw [addBundle]
  split
  · exact ⟨rfl, rfl⟩
  · exact ⟨rfl, rfl⟩

theorem Clean.addBundle (hd : d.Clean) : d.addBundle.Clean := by
  rw [SessionDescription.addBundle]
  split
  · exact hd
  · apply @Clean.call _ (.addContentGroup (ascii "BUNDLE") _) hd
    refine ⟨by decide, ?_⟩
    intro mid hmid
    obtain ⟨content, -, rfl⟩ := List.mem_map.mp hmid
    exact oneLine_mid content

theorem toString_ne_nil (d : SessionDescription) : d.toString ≠ [] := by
  rw [toString]
  exact List.cons_ne_nil _ _

end SessionDescription

namespace RTCOfferAnswerOptions

open SessionDescription

variable {opts : RTCOfferAnswerOptions} {certificate : Certificate} {params : IceParameters}

/-- The media that are to be received. -/
def media (opts : RTCOfferAnswerOptions) : List MediaContentDescription :=
  (if opts.recvAudio then [opts.audioDesc] else []) ++
    (if opts.recvVideo then [opts.videoDesc] else [])

/-- The description of an offer, without its group. -/
def described (opts : RTCOfferAnswerOptions) (certificate : Certificate) (params : IceParameters) :
    SessionDescription :=
  opts.media.foldl (addMedia · params certificate) { type := .offer }

theorem localDesc_eq (opts : RTCOfferAnswerOptions) (certificate : Certificate)
    (params : IceParameters) :
    opts.localDesc certificate params =
      if opts.useRtpMux then
        (opts.described certificate params).addBundle
      else
        opts.described certificate params := by
  rw [localDesc, described, media]
  cases opts.recvAudio with
  | false =>
      cases opts.recvVideo with
      | false => rfl
      | true => rfl
  | true =>
      cases opts.recvVideo with
      | false => rfl
      | true => rfl

theorem localDesc_spec (opts : RTCOfferAnswerOptions) (certificate : Certificate)
    (params : IceParameters) :
    (opts.localDesc certificate params).mediaDescs = opts.media ∧
      ∀ content ∈ opts.media, (opts.localDesc certificate params).getTransport content.mid =
        (certificate content.mid).map (securedTransport params content.mid) := by
  have hmedia : (opts.described certificate params).mediaDescs = opts.media := by
    rw [described, (foldl_addMedia_spec opts.media).1, List.nil_append]
  have htransport : ∀ content ∈ opts.media,
      (opts.described certificate params).getTransport content.mid =
        (certificate content.mid).map (securedTransport params content.mid) := by
    intro content hcontent
    rw [described, getTransport_foldl rfl, if_pos (List.mem_map_of_mem hcontent)]
    rfl
  obtain ⟨hsame, hsameTransports⟩ := (opts.described certificate params).addBundle_spec
  rw [localDesc_eq]
  split
  · refine ⟨hsame.trans hmedia, ?_⟩
    intro content hcontent
    rw [getTransport, hsameTransports]
    exact htransport content hcontent
  · exact ⟨hmedia, htransport⟩

/-- There is one group at most, and it holds all media. -/
theorem contentGroups_localDesc (opts : RTCOfferAnswerOptions) (certificate : Certificate)
    (params : IceParameters) :
    (opts.localDesc certificate params).contentGroups = [] ∨
      (opts.localDesc certificate params).contentGroups =
        [.ofContents (ascii "BUNDLE") (opts.media.map MediaContentDescription.mid)] := by
  obtain ⟨hmedia, hgroups⟩ := @foldl_addMedia_spec { type := .offer } params certificate opts.media
  rw [localDesc_eq]
  split
  · rw [addBundle, described, hmedia]
    split
    · exact .inl hgroups
    · rw [addContentGroup, hgroups]
      exact .inr rfl
  · exact .inl hgroups

theorem clean_media (opts : RTCOfferAnswerOptions) :
    ∀ content ∈ opts.media, ∀ entry ∈ content.codecs, entry.1.Clean := by
  intro content hcontent
  rcases List.mem_append.mp hcontent with haudio | hvideo
  · split at haudio
    · rw [List.mem_singleton.mp haudio]
      exact clean_audioContentDescription
    · cases haudio
  · split at hvideo
    · rw [List.mem_singleton.mp hvideo]
      exact clean_videoContentDescription
    · cases hvideo

theorem clean_localDesc (opts : RTCOfferAnswerOptions)
    (hparams : OneLine params.iceUfrag ∧ OneLine params.icePassword)
    (halgorithm : ∀ mid fp, certificate mid = some fp → OneLine fp.algorithm) :
    (opts.localDesc certificate params).Clean := by
  have hfold (media : List MediaContentDescription) (d : SessionDescription) (hd : d.Clean)
      (hmedia : ∀ content ∈ media, ∀ entry ∈ content.codecs, entry.1.Clean) :
      (media.foldl (addMedia · params certificate) d).Clean := by
    induction media generalizing d with
    | nil => exact hd
    | cons desc media ih =>
        obtain ⟨hdesc, hrest⟩ := List.forall_mem_cons.mp hmedia
        exact ih _ (hd.addMedia hdesc hparams halgorithm) hrest
  have hdescribed : (opts.described certificate params).Clean :=
    hfold _ _ ⟨by simp, by simp, by simp⟩ opts.clean_media
  rw [localDesc_eq]
  split
  · exact hdescribed.addBundle
  · exact hdescribed

/-- The calls that are made to `CreateFromCertificate`. -/
theorem forall_mem_media_iff (opts : RTCOfferAnswerOptions) (p : Text → Prop) :
    (∀ content ∈ opts.media, p content.mid) ↔
      (opts.recvAudio = true → p (ascii "audio")) ∧ (opts.recvVideo = true → p (ascii "video")) := by
  have hone (recv : Bool) (desc : MediaContentDescription) :
      (∀ content ∈ if recv then [desc] else [], p content.mid) ↔ (recv = true → p desc.mid) := by
    cases recv with
    | false => simp
    | true => simp
  rw [media, List.forall_mem_append]
  exact and_congr (hone _ _) (hone _ _)

theorem createOffer_some (opts : RTCOfferAnswerOptions) (certificate : Certificate)
    (params : IceParameters) : opts.createOffer (some certificate) params =
      (opts.localDesc certificate params).toString := by
  rw [createOffer, Option.isNone_some, Bool.and_false]
  rfl

section Secured

variable (hufrag : OneLine params.iceUfrag) (hpassword : OneLine params.icePassword)
  (halgorithm : ∀ mid fp, certificate mid = some fp → OneLine fp.algorithm)

include hufrag hpassword halgorithm

theorem sections_createOffer (opts : RTCOfferAnswerOptions) :
    sections (opts.createOffer (some certificate) params) = opts.media.map fun content =>
      (mediaLine content, (opts.localDesc certificate params).bodyLines content) := by
  have hclean := opts.clean_localDesc ⟨hufrag, hpassword⟩ halgorithm
  rw [createOffer_some, hclean.sections_toString, (opts.localDesc_spec certificate params).1]

theorem isSome_of_secured (hsecured : Secured opts (opts.createOffer (some certificate) params)) :
    ∀ content ∈ opts.media, (certificate content.mid).isSome = true := by
  intro content hcontent
  rcases hsecured with hempty | ⟨others, hsections⟩
  · rw [createOffer_some] at hempty
    exact absurd hempty (toString_ne_nil _)
  · rw [sections_createOffer hufrag hpassword halgorithm] at hsections
    have hsome := isSome_of_securedSection (hsections _ (List.mem_map_of_mem hcontent))
    rw [(opts.localDesc_spec certificate params).2 content hcontent, Option.isSome_map] at hsome
    exact hsome

theorem secured_of_isSome
    (hmade : ∀ content ∈ opts.media, (certificate content.mid).isSome = true) :
    Secured opts (opts.createOffer (some certificate) params) := by
  refine .inr ⟨params, ?_⟩
  rw [sections_createOffer hufrag hpassword halgorithm]
  intro sec hsec
  obtain ⟨content, hcontent, rfl⟩ := List.mem_map.mp hsec
  obtain ⟨fp, hfp⟩ := Option.isSome_iff_exists.mp (hmade content hcontent)
  apply securedSection_of_transport
  rw [(opts.localDesc_spec certificate params).2 content hcontent, hfp]
  rfl

end Secured

/-- **An offer is secured in every section** if and only if a fingerprint could be
made for every medium that is to be received. -/
theorem createOffer_secured_iff (opts : RTCOfferAnswerOptions) (certificate : Certificate)
    (params : IceParameters) (hufrag : OneLine params.iceUfrag)
    (hpassword : OneLine params.icePassword)
    (halgorithm : ∀ mid fp, certificate mid = some fp → OneLine fp.algorithm) :
    Secured opts (opts.createOffer (some certificate) params) ↔
      (opts.recvAudio = true → (certificate (ascii "audio")).isSome = true) ∧
        (opts.recvVideo = true → (certificate (ascii "video")).isSome = true) := by
  rw [← opts.forall_mem_media_iff fun mid => (certificate mid).isSome = true]
  constructor
  · exact isSome_of_secured hufrag hpassword halgorithm
  · exact secured_of_isSome hufrag hpassword halgorithm

/-- Credentials drawn with bytes that count up. -/
def someParameters : IceParameters := createRandomIceCredentials UInt8.ofNat UInt8.ofNat

def someFingerprint : SSLFingerprint where
  algorithm := ascii "sha-256"
  digest := (List.range 32).map UInt8.ofNat

theorem createOffer_secured_iff_default :
    Secured {} (createOffer {} (some fun _ => some someFingerprint) someParameters) := by
  have hdrawn : someParameters.Drawn := drawn_createRandomIceCredentials _ _
  apply (createOffer_secured_iff {} (fun _ => some someFingerprint) someParameters hdrawn.oneLine.1
    hdrawn.oneLine.2 ?_).mpr ⟨fun _ => rfl, fun _ => rfl⟩
  intro mid fp hfp
  rw [← Option.some.inj hfp]
  decide

/-- With a certificate of which no fingerprint can be made, the offer is there and
has no credentials. -/
theorem createOffer_not_secured :
    ¬ Secured {} (createOffer {} (some fun _ => none) someParameters) := by
  intro hsecured
  have hdrawn : someParameters.Drawn := drawn_createRandomIceCredentials _ _
  have hnone : ∀ (mid : Text) (fp : SSLFingerprint), none = some fp → OneLine fp.algorithm := by
    intro mid fp hfp
    cases hfp
  have hsome := isSome_of_secured hdrawn.oneLine.1 hdrawn.oneLine.2 hnone hsecured (audioDesc {})
    List.mem_cons_self
  cases hsome

end RTCOfferAnswerOptions

end Xrtc.Pc
