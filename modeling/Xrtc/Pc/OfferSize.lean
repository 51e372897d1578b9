/-
# The size of an offer

An offer is written line by line, and each line is bounded: the fixed ones by what
they are, a line of a transport by the length of the credentials and of the
fingerprint, a section by its lines. All bytes of it are printable or belong to a
line end, which is what a writer of JSON strings can be relied on to handle.
-/

import Xrtc.Pc.PeerConnection

namespace Xrtc.Pc

open Xrtc.Machine

/-- A digest of at most 64 bytes, under a name of at most 16 plain characters. -/
structure SSLFingerprint.Bounded (fp : SSLFingerprint) : Prop where
  algorithm : Fits 16 fp.algorithm
  digest : fp.digest.length ≤ 64

/-! ## The lines of a transport -/

theorem fits_of_base64 {text : Text} (htext : ∀ c ∈ text, c ∈ base64) : Fits text.length text := by
  have hall : base64.all isPlain = true := by decide
  exact ⟨le_rfl, fun c hc => List.all_eq_true.mp hall c (htext c hc)⟩

theorem SSLFingerprint.length_hexEncodeWithDelimiter (source : List UInt8) :
    (hexEncodeWithDelimiter source).length = 3 * source.length - 1 := by
  induction source using hexEncodeWithDelimiter.induct with
  | case1 => rfl
  | case2 ch => rfl
  | case3 ch source hsource ih =>
      have hpos : 0 < source.length := by
        rw [List.length_pos_iff]
        rintro rfl
        exact hsource rfl
      rw [hexEncodeWithDelimiter]
      · simp only [List.length_cons, ih]
        omega
      · exact hsource

theorem SSLFingerprint.Bounded.fits {fp : SSLFingerprint} (hfp : fp.Bounded) :
    Fits 191 fp.getRfc4572Fingerprint := by
  have hall : (ascii "0123456789ABCDEF:").all isPlain = true := by decide
  constructor
  · rw [getRfc4572Fingerprint, List.length_map, length_hexEncodeWithDelimiter]
    have hdigest := hfp.digest
    omega
  · intro c hc
    exact List.all_eq_true.mp hall c (mem_getRfc4572Fingerprint hc)

theorem fits_transportLines {params : IceParameters} {fp : SSLFingerprint} (hparams : params.Drawn)
    (hfp : fp.Bounded) (mid : Text) :
    Fits 295 (unlines (transportLines (securedTransport params mid fp))) := by
  have hufrag : Fits (12 + 4) (ascii "a=ice-ufrag:" ++ params.iceUfrag) := by
    apply Fits.append
    · decide
    · have hfits := fits_of_base64 hparams.iceUfrag.2
      rw [hparams.iceUfrag.1] at hfits
      exact hfits
  have hpassword : Fits (10 + 24) (ascii "a=ice-pwd:" ++ params.icePassword) := by
    apply Fits.append
    · decide
    · have hfits := fits_of_base64 hparams.icePassword.2
      rw [hparams.icePassword.1] at hfits
      exact hfits
  have hfingerprint : Fits (14 + (16 + 1 + 191))
      (ascii "a=fingerprint:" ++ (fp.algorithm ++ ascii " " ++ fp.getRfc4572Fingerprint)) := by
    apply Fits.append
    · decide
    · exact (hfp.algorithm.append (by decide)).append hfp.fits
  have hsetup : Fits 15 (ascii "a=setup:" ++ ConnectionRole.actpass.text) := by decide
  exact (hufrag.unlines_singleton.unlines_append hpassword.unlines_singleton).unlines_append
    (hfingerprint.unlines_singleton.unlines_append hsetup.unlines_singleton)

/-! ## A section -/

theorem fits_plainLines (content : MediaContentDescription) :
    Fits 80 (unlines (plainLines content)) := by
  have hfixed : Fits 43 (unlines [ascii "c=IN IP4 0.0.0.0", ascii "a=rtcp:9 IN IP4 0.0.0.0"]) := by
    decide
  have hmid : Fits 11 (ascii "a=mid:" ++ content.mid) :=
    content.forall_mid (fun mid => Fits 11 (ascii "a=mid:" ++ mid)) (by decide) (by decide)
  have hdirection : Fits 10 (directionLine content) := by
    rw [directionLine]
    cases content.direction with
    | sendReceive | sendOnly | receiveOnly | inactive => decide
  have hmux : Fits 12 (unlines (rtcpMuxLines content)) := by
    rw [rtcpMuxLines]
    split
    · decide
    · decide
  exact (hfixed.unlines_append
    (hmid.unlines_singleton.unlines_append hdirection.unlines_singleton)).unlines_append hmux

/-- The section of a medium, if it is received, is bounded by its `m=` line, its
attributes and its codecs. -/
theorem SessionDescription.fits_section {d : SessionDescription} {content : MediaContentDescription}
    {recv : Bool} {m n : ℕ} (hmedia : Fits m (unlines [mediaLine content]))
    (hcodecs : Fits n (unlines (content.codecs.flatMap codecLines)))
    (htransport : recv = true →
      Fits 295 (unlines ((d.getTransport content.mid).elim [] transportLines))) :
    Fits (m + (80 + 295 + n)) (unlines ((if recv then [content] else []).flatMap
      fun content => mediaLine content :: d.bodyLines content)) := by
  cases recv with
  | false => exact fits_nil _
  | true =>
      rw [if_pos rfl, List.flatMap_singleton]
      exact hmedia.unlines_append
        (((fits_plainLines content).unlines_append (htransport rfl)).unlines_append hcodecs)

/-! ## The whole offer -/

namespace RTCOfferAnswerOptions

open SessionDescription

variable {certificate : Certificate} {params : IceParameters}

/-- What the codecs of the two media take. -/
theorem fits_audioDesc (opts : RTCOfferAnswerOptions) :
    Fits 33 (unlines [mediaLine opts.audioDesc]) ∧
      Fits 94 (unlines (opts.audioDesc.codecs.flatMap codecLines)) := by
  show Fits 33 (unlines [mediaLine audioContentDescription]) ∧
    Fits 94 (unlines (audioContentDescription.codecs.flatMap codecLines))
  decide +kernel

theorem fits_videoDesc (opts : RTCOfferAnswerOptions) :
    Fits 36 (unlines [mediaLine opts.videoDesc]) ∧
      Fits 269 (unlines (opts.videoDesc.codecs.flatMap codecLines)) := by
  show Fits 36 (unlines [mediaLine videoContentDescription]) ∧
    Fits 269 (unlines (videoContentDescription.codecs.flatMap codecLines))
  decide +kernel

theorem map_mid_media (opts : RTCOfferAnswerOptions) :
    opts.media.map MediaContentDescription.mid =
      (if opts.recvAudio then [ascii "audio"] else []) ++
        (if opts.recvVideo then [ascii "video"] else []) := by
  rw [media]
  cases opts.recvAudio with
  | false =>
      cases opts.recvVideo with
      | false => rfl
      | true => rfl
  | true =>
      cases opts.recvVideo with
      | false => rfl
      | true => rfl

theorem fits_headLines (opts : RTCOfferAnswerOptions) (certificate : Certificate)
    (params : IceParameters) :
    Fits 113 (unlines (opts.localDesc certificate params).headLines) := by
  have hfirst : Fits 61 (unlines firstLines) := by decide
  have hlast : Fits 24 (unlines [ascii "a=msid-semantic: WMS *"]) := by decide
  have hgroups : Fits 28 (unlines
      (groupLines ((opts.localDesc certificate params).getGroupByName (ascii "BUNDLE")))) := by
    rw [getGroupByName]
    rcases opts.contentGroups_localDesc certificate params with hgroups | hgroups
    · rw [hgroups]
      decide
    · rw [hgroups, map_mid_media]
      cases opts.recvAudio with
      | false =>
          cases opts.recvVideo with
          | false => decide
          | true => decide
      | true =>
          cases opts.recvVideo with
          | false => decide
          | true => decide
  exact (hfirst.unlines_append hgroups).unlines_append hlast

/-- **An offer has at most 1295 bytes**, whatever the options are. -/
theorem fits_createOffer (opts : RTCOfferAnswerOptions) (hparams : params.Drawn)
    (hcertificate : ∀ mid fp, certificate mid = some fp → fp.Bounded) :
    Fits 1295 (opts.createOffer (some certificate) params) := by
  obtain ⟨hmedia, htransport⟩ := opts.localDesc_spec certificate params
  have hlines : ∀ content ∈ opts.media, Fits 295
      (unlines (((opts.localDesc certificate params).getTransport content.mid).elim []
        transportLines)) := by
    intro content hcontent
    rw [htransport content hcontent]
    cases hfp : certificate content.mid with
    | none => exact fits_nil _
    | some fp => exact fits_transportLines hparams (hcertificate _ fp hfp) _
  have haudio : Fits (33 + (80 + 295 + 94)) (unlines
      ((if opts.recvAudio then [opts.audioDesc] else []).flatMap fun content =>
        mediaLine content :: (opts.localDesc certificate params).bodyLines content)) := by
    apply fits_section opts.fits_audioDesc.1 opts.fits_audioDesc.2
    intro hrecv
    apply hlines
    rw [media, if_pos hrecv]
    exact List.mem_cons_self
  have hvideo : Fits (36 + (80 + 295 + 269)) (unlines
      ((if opts.recvVideo then [opts.videoDesc] else []).flatMap fun content =>
        mediaLine content :: (opts.localDesc certificate params).bodyLines content)) := by
    apply fits_section opts.fits_videoDesc.1 opts.fits_videoDesc.2
    intro hrecv
    apply hlines
    rw [media, if_pos hrecv]
    exact List.mem_append_right _ List.mem_cons_self
  rw [createOffer_some, toString_eq, lines, hmedia, media, List.flatMap_append]
  exact (opts.fits_headLines certificate params).unlines_append (haudio.unlines_append hvideo)

end RTCOfferAnswerOptions

end Xrtc.Pc
