/-
# How credentials are drawn

`CreateRandomString` takes one byte of the random generator for every character, and
the remainder of the byte by the size of the table picks the character. It refuses a
table whose size does not divide 256, since some characters would then come more often
than others. The random generator is assumed to produce every string of bytes equally
often, so that a result is as likely as there are strings of bytes that lead to it.

The check turns out to be the exact condition for all strings to be equally likely, and
the credentials of a stream are drawn evenly from all there are.
-/

import Mathlib.Data.Fintype.BigOperators
import Mathlib.Data.Int.CardIntervalMod
import Mathlib.Data.List.GetD
import Xrtc.Pc.PeerConnection

namespace Xrtc.Pc

open Xrtc.Machine Finset

/-- The characters that the bytes pick. -/
def pickCharacters (table : Text) (len : ℕ) (bytes : ℕ → UInt8) : Text :=
  (List.range len).map fun i => table.getD ((bytes i).toNat % table.length) 0

/-- `CreateRandomString` with a table; nothing where it returns false. -/
def createRandomStringFrom (table : Text) (len : ℕ) (bytes : ℕ → UInt8) : Option Text :=
  if 256 % table.length ≠ 0 then none else some (pickCharacters table len bytes)

theorem createRandomString_eq_pickCharacters (len : ℕ) (bytes : ℕ → UInt8) :
    createRandomString len bytes = pickCharacters base64 len bytes := by
  have hlength : base64.length = 64 := by decide
  rw [createRandomString, pickCharacters, hlength]

/-- The table of the source is accepted. -/
theorem createRandomStringFrom_base64 (len : ℕ) (bytes : ℕ → UInt8) :
    createRandomStringFrom base64 len bytes = some (createRandomString len bytes) := by
  have hdivides : 256 % base64.length = 0 := by decide
  rw [createRandomStringFrom, if_neg (not_not.mpr hdivides), createRandomString_eq_pickCharacters]

/-- The generator's output of `len` bytes. -/
def stream {len : ℕ} (bytes : Fin len → Fin 256) (i : ℕ) : UInt8 :=
  if h : i < len then UInt8.ofNat (bytes ⟨i, h⟩) else 0

/-- How many strings of bytes lead to a string of characters. -/
def drawCount (table target : Text) : ℕ :=
  #{bytes : Fin target.length → Fin 256 |
    pickCharacters table target.length (stream bytes) = target}

section Counting

variable {table target : Text}

/-- How many bytes have a remainder. -/
theorem card_residue {m j : ℕ} (hj : j < m) :
    #{b : Fin 256 | b.val % m = j} = 256 / m + if j < 256 % m then 1 else 0 := by
  have hcount := Nat.count_modEq_card 256 (lt_of_le_of_lt (Nat.zero_le j) hj) j
  rw [Nat.count_eq_card_filter_range, Nat.mod_eq_of_lt hj] at hcount
  rw [← hcount]
  apply Finset.card_nbij Fin.val
  · intro b hb
    simp only [coe_filter, mem_univ, true_and, Set.mem_ofPred_eq] at hb
    simp only [coe_filter, mem_range, Set.mem_ofPred_eq, Nat.ModEq, Nat.mod_eq_of_lt hj]
    exact ⟨b.isLt, hb⟩
  · exact fun b _ c _ h => Fin.val_injective h
  · intro n hn
    simp only [coe_filter, mem_range, Set.mem_ofPred_eq, Nat.ModEq, Nat.mod_eq_of_lt hj] at hn
    exact ⟨⟨n, hn.1⟩, by simpa using hn.2, rfl⟩

/-- How many bytes pick a character. -/
theorem card_picks (hnodup : table.Nodup) {c : UInt8} (hc : c ∈ table) :
    #{b : Fin 256 | table.getD (b.val % table.length) 0 = c} =
      256 / table.length + if table.idxOf c < 256 % table.length then 1 else 0 := by
  have hindex := List.idxOf_lt_length_of_mem hc
  rw [← card_residue hindex]
  congr 1
  ext b
  have hlt : b.val % table.length < table.length := Nat.mod_lt _ (by omega)
  simp only [mem_filter, mem_univ, true_and]
  rw [List.getD_eq_getElem _ _ hlt]
  constructor
  · intro hpick
    rw [← hpick, hnodup.idxOf_getElem]
  · intro hsame
    simp only [hsame, List.getElem_idxOf]

/-- One byte for every character. -/
theorem pickCharacters_eq_iff (bytes : Fin target.length → Fin 256) :
    pickCharacters table target.length (stream bytes) = target ↔
      ∀ i, table.getD ((bytes i).val % table.length) 0 = target.get i := by
  have hbyte (i : Fin target.length) : (stream bytes i).toNat = (bytes i).val := by
    have hlt := (bytes i).isLt
    rw [stream, dif_pos i.isLt, UInt8.toNat_ofNat', Nat.mod_eq_of_lt hlt]
  constructor
  · intro heq i
    have hget : (pickCharacters table target.length (stream bytes))[i.val]? = target[i.val]? :=
      congrArg (·[i.val]?) heq
    rw [pickCharacters, List.getElem?_map, List.getElem?_range i.isLt, Option.map_some,
      List.getElem?_eq_getElem i.isLt, Option.some.injEq, hbyte i] at hget
    exact hget
  · intro hall
    apply List.ext_getElem
    · rw [pickCharacters, List.length_map, List.length_range]
    · intro i _ hi
      simp only [pickCharacters, List.getElem_map, List.getElem_range]
      rw [hbyte ⟨i, hi⟩]
      exact hall ⟨i, hi⟩

/-- **The number of draws** of a string, character by character. -/
theorem drawCount_eq_prod (hnodup : table.Nodup) (htarget : ∀ c ∈ target, c ∈ table) :
    drawCount table target =
      ∏ i, (256 / table.length +
        if table.idxOf (target.get i) < 256 % table.length then 1 else 0) := by
  have hpi : ({bytes | pickCharacters table target.length (stream bytes) = target} :
      Finset (Fin target.length → Fin 256)) =
      Fintype.piFinset fun i : Fin target.length =>
        {b : Fin 256 | table.getD (b.val % table.length) 0 = target.get i} := by
    ext bytes
    simp only [mem_filter, mem_univ, true_and, Fintype.mem_piFinset, pickCharacters_eq_iff]
  rw [drawCount, hpi, Fintype.card_piFinset]
  apply prod_congr rfl
  intro i _
  exact card_picks hnodup (htarget _ (List.get_mem _ _))

/-- **An accepted table draws evenly**: a string has as many draws as any other. -/
theorem drawCount_of_divides (hnodup : table.Nodup) (hdivides : 256 % table.length = 0)
    (htarget : ∀ c ∈ target, c ∈ table) :
    drawCount table target = (256 / table.length) ^ target.length := by
  rw [drawCount_eq_prod hnodup htarget, hdivides]
  simp only [Nat.not_lt_zero, if_false, Nat.add_zero, prod_const, card_univ, Fintype.card_fin]

end Counting

instance (params : IceParameters) : Decidable params.Drawn :=
  decidable_of_iff
    ((params.iceUfrag.length = ICE_UFRAG_LEN ∧ params.iceUfrag.all base64.contains = true) ∧
      params.icePassword.length = ICE_PASSWORD_LEN ∧
        params.icePassword.all base64.contains = true)
    (by
      simp only [List.all_eq_true, List.contains_iff_mem]
      exact ⟨fun h => ⟨h.1, h.2⟩, fun h => ⟨h.iceUfrag, h.icePassword⟩⟩)

/-- The credentials that the two strings of bytes of the generator give. -/
def drawCredentials (bytes : (Fin ICE_UFRAG_LEN → Fin 256) × (Fin ICE_PASSWORD_LEN → Fin 256)) :
    IceParameters :=
  createRandomIceCredentials (stream bytes.1) (stream bytes.2)

/-- How many strings of bytes give a string of the base 64 characters. -/
theorem card_createRandomString {target : Text} {len : ℕ} (hlen : target.length = len)
    (htarget : ∀ c ∈ target, c ∈ base64) :
    #{bytes : Fin len → Fin 256 | createRandomString len (stream bytes) = target} = 4 ^ len := by
  subst hlen
  simp only [createRandomString_eq_pickCharacters]
  exact drawCount_of_divides (by decide) (by decide) htarget

/-- **Credentials are drawn evenly**: every pair of a fragment and a password of the right
lengths over the base 64 characters comes from as many outputs of the generator as any
other, and nothing else ever comes. -/
theorem card_drawCredentials (params : IceParameters) :
    #{bytes | drawCredentials bytes = params} =
      if params.Drawn then 4 ^ (ICE_UFRAG_LEN + ICE_PASSWORD_LEN) else 0 := by
  split
  case isTrue hdrawn =>
    obtain ⟨ufrag, password⟩ := params
    have hproduct : ({bytes | drawCredentials bytes = ⟨ufrag, password⟩} : Finset
        ((Fin ICE_UFRAG_LEN → Fin 256) × (Fin ICE_PASSWORD_LEN → Fin 256))) =
        ({bytes | createRandomString ICE_UFRAG_LEN (stream bytes) = ufrag} : Finset _) ×ˢ
        ({bytes | createRandomString ICE_PASSWORD_LEN (stream bytes) = password} : Finset _) := by
      ext bytes
      simp only [mem_filter, mem_univ, true_and, mem_product, drawCredentials,
        createRandomIceCredentials, IceParameters.mk.injEq]
    rw [hproduct, card_product, card_createRandomString hdrawn.iceUfrag.1 hdrawn.iceUfrag.2,
      card_createRandomString hdrawn.icePassword.1 hdrawn.icePassword.2, pow_add]
  case isFalse hother =>
    rw [card_eq_zero, filter_eq_empty_iff]
    rintro bytes - rfl
    exact hother (drawn_createRandomIceCredentials _ _)

end Xrtc.Pc
