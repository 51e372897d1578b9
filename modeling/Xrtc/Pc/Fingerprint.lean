/-
# Fingerprints are read back

A peer gives the fingerprint of its certificate in the form in which the server gives its
own: pairs of hexadecimal digits with colons between them. The reader takes digits of
either case, into a buffer of the size of the largest digest. What it accepts turns out
to be exactly what the writer writes for some digest, up to the case of the digits, and
it finds that digest.
-/

import Xrtc.Pc.OfferSize

namespace Xrtc.Pc

open Xrtc.Machine

namespace SSLFingerprint

/-- `hex_decode` of a character. -/
def hexDecode (ch : UInt8) : Option ℕ :=
  if 48 ≤ ch ∧ ch ≤ 57 then
    some (ch.toNat - 48)
  else if 65 ≤ ch ∧ ch ≤ 70 then
    some (ch.toNat - 65 + 10)
  else if 97 ≤ ch ∧ ch ≤ 102 then
    some (ch.toNat - 97 + 10)
  else
    none

/-- The byte of two characters. -/
def hexByte (c₁ c₂ : UInt8) : Option UInt8 :=
  (hexDecode c₁).bind fun h₁ => (hexDecode c₂).map fun h₂ => UInt8.ofNat (h₁ * 16 + h₂)

/-- The loop of `hex_decode_with_delimiter`; nothing where it returns 0. A delimiter is
looked for where more than one character is left. -/
def hexDecodeFrom (delimiter : UInt8) : Text → Option (List UInt8)
  | [] => some []
  | [_] => none
  | [c₁, c₂] => (hexByte c₁ c₂).map fun byte => [byte]
  | [_, _, _] => none
  | c₁ :: c₂ :: d :: rest =>
      (hexByte c₁ c₂).bind fun byte =>
        (if delimiter ≠ 0 then
            if d ≠ delimiter then none else hexDecodeFrom delimiter rest
          else
            hexDecodeFrom delimiter (d :: rest)).map fun bytes => byte :: bytes

/-- `hex_decode_with_delimiter`: the bytes it stores, none where it returns 0. -/
def hexDecodeWithDelimiter (buflen : ℕ) (source : Text) (delimiter : UInt8) : List UInt8 :=
  let needed := if delimiter ≠ 0 then (source.length + 1) / 3 else source.length / 2
  if buflen = 0 ∨ buflen < needed then
    []
  else
    (hexDecodeFrom delimiter source).getD []

/-- `MessageDigest::kMaxSize`. -/
def MAX_DIGEST_SIZE : ℕ := 64

/-- `IsFips180DigestAlgorithm`. -/
def isFips180DigestAlgorithm (alg : Text) : Bool :=
  alg == ascii "sha-1" || alg == ascii "sha-224" || alg == ascii "sha-256" ||
    alg == ascii "sha-384" || alg == ascii "sha-512"

/-- `CreateUniqueFromRfc4572`. -/
def createUniqueFromRfc4572 (algorithm fingerprint : Text) : Option SSLFingerprint :=
  if algorithm = [] ∨ isFips180DigestAlgorithm algorithm = false then
    none
  else if fingerprint = [] then
    none
  else
    let value := hexDecodeWithDelimiter MAX_DIGEST_SIZE fingerprint 58
    if value.length = 0 then none else some ⟨algorithm, value⟩

/-! ## Digits -/

theorem hexDecode_lt {ch : UInt8} {h : ℕ} (hdecode : hexDecode ch = some h) : h < 16 := by
  unfold hexDecode at hdecode
  simp only [UInt8.le_iff_toNat_le] at hdecode
  split at hdecode
  · rename_i hdigit
    cases hdecode
    have hle : ch.toNat ≤ 57 := hdigit.2
    omega
  split at hdecode
  · rename_i hupper
    cases hdecode
    have hle : ch.toNat ≤ 70 := hupper.2
    omega
  split at hdecode
  · rename_i hlower
    cases hdecode
    have hle : ch.toNat ≤ 102 := hlower.2
    omega
  · cases hdecode

/-- The characters of a digit are the two cases of its encoding. -/
theorem hexDecode_eq_some_iff {ch : UInt8} {h : ℕ} (hlt : h < 16) :
    hexDecode ch = some h ↔ toUpper ch = toUpper (hexEncode h) := by
  have hall : ∀ n < 256, ∀ h < 16, hexDecode (UInt8.ofNat n) = some h ↔
      toUpper (UInt8.ofNat n) = toUpper (hexEncode h) := by decide +kernel
  have hch := hall ch.toNat ch.toNat_lt h hlt
  rwa [UInt8.ofNat_toNat] at hch

theorem toUpper_eq_colon {ch : UInt8} : toUpper ch = 58 ↔ ch = 58 := by
  have hall : ∀ n < 256, toUpper (UInt8.ofNat n) = 58 ↔ UInt8.ofNat n = 58 := by decide +kernel
  have hch := hall ch.toNat ch.toNat_lt
  rwa [UInt8.ofNat_toNat] at hch

theorem toNat_ofNat_pair {h₁ h₂ : ℕ} (hlt₁ : h₁ < 16) (hlt₂ : h₂ < 16) :
    (UInt8.ofNat (h₁ * 16 + h₂)).toNat = h₁ * 16 + h₂ := by
  rw [UInt8.toNat_ofNat']
  omega

/-- Two characters give a byte exactly if they encode it. -/
theorem hexByte_eq_some_iff {c₁ c₂ byte : UInt8} :
    hexByte c₁ c₂ = some byte ↔
      toUpper c₁ = toUpper (hexEncode (byte.toNat / 16)) ∧
        toUpper c₂ = toUpper (hexEncode (byte.toNat % 16)) := by
  have hbyte := byte.toNat_lt
  rw [← hexDecode_eq_some_iff (show byte.toNat / 16 < 16 by omega),
    ← hexDecode_eq_some_iff (show byte.toNat % 16 < 16 by omega)]
  simp only [hexByte, Option.bind_eq_some_iff, Option.map_eq_some_iff]
  constructor
  · rintro ⟨h₁, hdecode₁, h₂, hdecode₂, rfl⟩
    have hlt₁ := hexDecode_lt hdecode₁
    have hlt₂ := hexDecode_lt hdecode₂
    rw [toNat_ofNat_pair hlt₁ hlt₂, hdecode₁, hdecode₂, Option.some.injEq, Option.some.injEq]
    omega
  · rintro ⟨hdecode₁, hdecode₂⟩
    refine ⟨_, hdecode₁, _, hdecode₂, ?_⟩
    apply UInt8.toNat_inj.mp
    rw [toNat_ofNat_pair (by omega) (by omega)]
    omega

/-! ## Texts -/

theorem hexEncodeWithDelimiter_cons (ch next : UInt8) (source : List UInt8) :
    hexEncodeWithDelimiter (ch :: next :: source) =
      hexEncode (ch.toNat / 16) :: hexEncode (ch.toNat % 16) :: 58 ::
        hexEncodeWithDelimiter (next :: source) := by
  rw [hexEncodeWithDelimiter]
  exact List.cons_ne_nil next source

/-- Behind a byte there is a colon, or nothing. -/
theorem hexDecodeFrom_cons {c₁ c₂ d : UInt8} {rest : Text} (hne : rest ≠ []) :
    hexDecodeFrom 58 (c₁ :: c₂ :: d :: rest) =
      (hexByte c₁ c₂).bind fun byte =>
        (if d = 58 then hexDecodeFrom 58 rest else none).map fun bytes => byte :: bytes := by
  have hcolon : (58 : UInt8) ≠ 0 := by decide
  rw [hexDecodeFrom]
  · simp only [if_pos hcolon, ne_eq, ite_not]
  · exact hne

/-- **The loop inverts the encoder**, up to the case of the digits. -/
theorem hexDecodeFrom_eq_some_iff {source : Text} {bytes : List UInt8} :
    hexDecodeFrom 58 source = some bytes ↔
      source.map toUpper = (hexEncodeWithDelimiter bytes).map toUpper := by
  -- texts of another length are not encodings
  have hlength {text : Text} {bytes : List UInt8} (hne : text.length ≠ 3 * bytes.length - 1) :
      text.map toUpper ≠ (hexEncodeWithDelimiter bytes).map toUpper := by
    intro heq
    have hlengths := congrArg List.length heq
    rw [List.length_map, List.length_map, length_hexEncodeWithDelimiter] at hlengths
    exact hne hlengths
  induction source using hexDecodeFrom.induct generalizing bytes with
  | case1 =>
      cases bytes with
      | nil => simp [hexDecodeFrom, hexEncodeWithDelimiter]
      | cons byte bytes =>
          refine iff_of_false (by simp [hexDecodeFrom]) (hlength ?_)
          simp only [List.length_nil, List.length_cons]
          omega
  | case2 c =>
      refine iff_of_false (by simp [hexDecodeFrom]) (hlength ?_)
      simp only [List.length_cons, List.length_nil]
      omega
  | case3 c₁ c₂ =>
      rcases bytes with _ | ⟨byte, _ | ⟨next, bytes⟩⟩
      · exact iff_of_false (by simp [hexDecodeFrom]) (hlength (by simp))
      · simp only [hexDecodeFrom, Option.map_eq_some_iff, List.cons.injEq, and_true,
          exists_eq_right, hexByte_eq_some_iff, hexEncodeWithDelimiter, List.map_cons, List.map_nil]
      · refine iff_of_false (by simp [hexDecodeFrom]) (hlength ?_)
        simp only [List.length_cons, List.length_nil]
        omega
  | case4 c₁ c₂ c₃ =>
      refine iff_of_false (by simp [hexDecodeFrom]) (hlength ?_)
      simp only [List.length_cons, List.length_nil]
      omega
  | case5 c₁ c₂ d rest hne ih =>
      rw [hexDecodeFrom_cons hne]
      have hpos : 0 < rest.length := List.length_pos_iff.mpr hne
      rcases bytes with _ | ⟨byte, _ | ⟨next, bytes⟩⟩
      · refine iff_of_false ?_ (hlength (by simp))
        simp [Option.bind_eq_some_iff]
      · -- the rest would have to be empty
        refine iff_of_false ?_ (hlength (by simp))
        simp only [Option.bind_eq_some_iff, Option.map_eq_some_iff, List.cons.injEq, not_exists,
          not_and]
        rintro _ - _ hrest - rfl
        split at hrest
        · have hempty := ih.mp hrest
          rw [hexEncodeWithDelimiter, List.map_nil, List.map_eq_nil_iff] at hempty
          exact hne hempty
        · cases hrest
      · simp only [Option.bind_eq_some_iff, Option.map_eq_some_iff, List.cons.injEq,
          hexEncodeWithDelimiter_cons, List.map_cons, hexByte_eq_some_iff]
        have hcolon : toUpper 58 = 58 := by decide
        rw [hcolon, toUpper_eq_colon]
        constructor
        · rintro ⟨_, ⟨h₁, h₂⟩, _, hrest, rfl, rfl⟩
          split at hrest
          · rename_i hd
            exact ⟨h₁, h₂, hd, ih.mp hrest⟩
          · cases hrest
        · rintro ⟨h₁, h₂, rfl, hrest⟩
          exact ⟨byte, ⟨h₁, h₂⟩, next :: bytes, by rw [if_pos rfl, ih.mpr hrest], rfl, rfl⟩

/-! ## Fingerprints -/

theorem hexDecodeWithDelimiter_of_ne_nil {buflen : ℕ} {source : Text} {bytes : List UInt8}
    (hne : bytes ≠ []) :
    hexDecodeWithDelimiter buflen source 58 = bytes ↔
      bytes.length ≤ buflen ∧
        source.map toUpper = (hexEncodeWithDelimiter bytes).map toUpper := by
  have hcolon : (58 : UInt8) ≠ 0 := by decide
  have hpos : 0 < bytes.length := List.length_pos_iff.mpr hne
  have hneeded (h : source.map toUpper = (hexEncodeWithDelimiter bytes).map toUpper) :
      (source.length + 1) / 3 = bytes.length := by
    have hlengths := congrArg List.length h
    rw [List.length_map, List.length_map, length_hexEncodeWithDelimiter] at hlengths
    omega
  simp only [hexDecodeWithDelimiter, if_pos hcolon]
  split
  · rename_i hsmall
    refine iff_of_false hne.symm ?_
    rintro ⟨hle, htext⟩
    have hsize := hneeded htext
    omega
  · rename_i hroom
    rw [← hexDecodeFrom_eq_some_iff]
    cases hdecode : hexDecodeFrom 58 source with
    | none => simp [hne.symm]
    | some found =>
        rw [Option.getD_some, Option.some.injEq]
        refine ⟨fun h => ⟨?_, h⟩, And.right⟩
        have hsize := hneeded (hexDecodeFrom_eq_some_iff.mp (h ▸ hdecode))
        omega

/-- **What is accepted is what is written.** `CreateUniqueFromRfc4572` makes a fingerprint of a
text if and only if the text is, up to the case of its digits, what `GetRfc4572Fingerprint`
writes for it, the digest is not empty and fits into the buffer, and the algorithm is one
of those that certificates may be signed with. -/
theorem createUniqueFromRfc4572_eq_some_iff (algorithm text : Text) (fp : SSLFingerprint) :
    createUniqueFromRfc4572 algorithm text = some fp ↔
      isFips180DigestAlgorithm algorithm = true ∧ fp.algorithm = algorithm ∧
        0 < fp.digest.length ∧ fp.digest.length ≤ MAX_DIGEST_SIZE ∧
        text.map toUpper = fp.getRfc4572Fingerprint := by
  obtain ⟨alg, digest⟩ := fp
  rw [createUniqueFromRfc4572]
  by_cases halg : isFips180DigestAlgorithm algorithm = true
  swap
  · rw [if_pos (Or.inr (Bool.eq_false_iff.mpr halg))]
    exact iff_of_false (Option.some_ne_none _).symm fun h => halg h.1
  have hne : algorithm ≠ [] := by
    rintro rfl
    exact absurd halg (by decide)
  rw [if_neg (by simp [hne, halg])]
  constructor
  · intro hcreate
    split at hcreate
    · cases hcreate
    simp only at hcreate
    split at hcreate
    · cases hcreate
    · rename_i hvalue
      cases hcreate
      obtain ⟨hle, htext⟩ := (hexDecodeWithDelimiter_of_ne_nil
        (fun hnil => hvalue (List.length_eq_zero_iff.mpr hnil))).mp rfl
      exact ⟨halg, rfl, Nat.pos_of_ne_zero hvalue, hle, htext⟩
  · rintro ⟨-, rfl, hpos, hle, htext⟩
    have hvalue : hexDecodeWithDelimiter MAX_DIGEST_SIZE text 58 = digest :=
      (hexDecodeWithDelimiter_of_ne_nil (List.length_pos_iff.mp hpos)).mpr ⟨hle, htext⟩
    have htextNe : text ≠ [] := by
      rintro rfl
      have hlengths := congrArg List.length htext
      rw [getRfc4572Fingerprint, List.length_map, List.length_map,
        length_hexEncodeWithDelimiter, List.length_nil] at hlengths
      simp only at hlengths hpos
      omega
    rw [if_neg htextNe, hvalue]
    exact if_neg hpos.ne'

/-- Digits of either case. -/
example : createUniqueFromRfc4572 (ascii "sha-1") (ascii "0a:Ff") =
    some ⟨ascii "sha-1", [10, 255]⟩ := by decide

end SSLFingerprint

end Xrtc.Pc
