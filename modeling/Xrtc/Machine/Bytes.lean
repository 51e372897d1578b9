/-
# Little-endian fields of a byte buffer

A fixed-width unsigned number is stored with its least significant byte first.
`putAt` overwrites a field of a buffer in place and `fieldAt` reads one back;
the two laws that matter to a codec are that a field just written reads back,
and that writing one field leaves every disjoint field alone.
-/

import Mathlib.Data.List.Basic
import Mathlib.Tactic.Ring

namespace Xrtc.Machine

/-- The low `width` bytes of `value`, least significant byte first. -/
def littleEndian : ℕ → ℕ → List UInt8
  | 0, _ => []
  | width + 1, value => UInt8.ofNat value :: littleEndian width (value / 256)

/-- The number a little-endian byte string denotes. -/
def ofLittleEndian (bytes : List UInt8) : ℕ :=
  bytes.foldr (fun byte rest => byte.toNat + 256 * rest) 0

/-- Overwrite the bytes of `buffer` from `offset` on with `field`. -/
def putAt (buffer : List UInt8) (offset : ℕ) (field : List UInt8) : List UInt8 :=
  buffer.take offset ++ field ++ buffer.drop (offset + field.length)

/-- The `width` bytes of `buffer` from `offset` on. -/
def fieldAt (buffer : List UInt8) (offset width : ℕ) : List UInt8 :=
  (buffer.drop offset).take width

@[simp]
theorem length_littleEndian (width value : ℕ) : (littleEndian width value).length = width := by
  induction width generalizing value with
  | zero => rfl
  | succ width ih => rw [littleEndian, List.length_cons, ih]

@[simp]
theorem ofLittleEndian_nil : ofLittleEndian [] = 0 := rfl

@[simp]
theorem ofLittleEndian_cons (byte : UInt8) (bytes : List UInt8) :
    ofLittleEndian (byte :: bytes) = byte.toNat + 256 * ofLittleEndian bytes := rfl

/-- Decoding an encoded number keeps exactly the bits the width has room for. -/
theorem ofLittleEndian_littleEndian (width value : ℕ) :
    ofLittleEndian (littleEndian width value) = value % 256 ^ width := by
  induction width generalizing value with
  | zero => simp [littleEndian, Nat.mod_one]
  | succ width ih =>
      have hbyte : (UInt8.ofNat value).toNat = value % 256 := UInt8.toNat_ofNat'
      rw [littleEndian, ofLittleEndian_cons, ih, hbyte, pow_succ', Nat.mod_mul]

theorem ofLittleEndian_lt (bytes : List UInt8) : ofLittleEndian bytes < 256 ^ bytes.length := by
  induction bytes with
  | nil => exact Nat.one_pos
  | cons byte bytes ih =>
      have hbyte : byte.toNat < 256 := byte.toNat_lt
      rw [ofLittleEndian_cons, List.length_cons, pow_succ']
      omega

/-- Encoding a decoded number gives the bytes back. -/
theorem littleEndian_ofLittleEndian (bytes : List UInt8) :
    littleEndian bytes.length (ofLittleEndian bytes) = bytes := by
  induction bytes with
  | nil => rfl
  | cons byte bytes ih =>
      have hbyte : byte.toNat < 256 := byte.toNat_lt
      have hlow : UInt8.ofNat (byte.toNat + 256 * ofLittleEndian bytes) = byte := by
        rw [← UInt8.toNat_inj, UInt8.toNat_ofNat', Nat.add_mul_mod_self_left,
          Nat.mod_eq_of_lt hbyte]
      have hhigh : (byte.toNat + 256 * ofLittleEndian bytes) / 256 = ofLittleEndian bytes := by
        omega
      rw [List.length_cons, ofLittleEndian_cons, littleEndian, hlow, hhigh, ih]

theorem length_putAt {buffer field : List UInt8} {offset : ℕ}
    (hfits : offset + field.length ≤ buffer.length) :
    (putAt buffer offset field).length = buffer.length := by
  simp only [putAt, List.length_append, List.length_take, List.length_drop]
  omega

/-- Putting the next field right behind a finished prefix extends that prefix. -/
theorem putAt_append {done rest field : List UInt8} {offset : ℕ}
    (hstart : offset = done.length) :
    putAt (done ++ rest) offset field = (done ++ field) ++ rest.drop field.length := by
  subst hstart
  simp [putAt, List.drop_append]

theorem length_fieldAt {buffer : List UInt8} {offset width : ℕ}
    (hfits : offset + width ≤ buffer.length) : (fieldAt buffer offset width).length = width := by
  rw [fieldAt, List.length_take, List.length_drop]
  omega

/-- Two fields that stand side by side are one. -/
theorem fieldAt_append_fieldAt (buffer : List UInt8) (offset first second : ℕ) :
    fieldAt buffer offset first ++ fieldAt buffer (offset + first) second =
      fieldAt buffer offset (first + second) := by
  rw [fieldAt, fieldAt, fieldAt, List.take_add, List.drop_drop]

/-- A field that lies inside the first part of a concatenation. -/
theorem fieldAt_append_left {first second : List UInt8} {offset width : ℕ}
    (hfits : offset + width ≤ first.length) :
    fieldAt (first ++ second) offset width = fieldAt first offset width := by
  rw [fieldAt, fieldAt, List.drop_append_of_le_length (by omega),
    List.take_append_of_le_length (by rw [List.length_drop]; omega)]

/-- A field that starts exactly where the second part of a concatenation does. -/
theorem fieldAt_append_right {first second : List UInt8} {offset width : ℕ}
    (hstart : offset = first.length) :
    fieldAt (first ++ second) offset width = second.take width := by
  subst hstart
  rw [fieldAt, List.drop_left]

/-- A field that stands between a finished prefix and the rest reads back. -/
theorem fieldAt_middle {first field rest : List UInt8} {offset width : ℕ}
    (hstart : offset = first.length) (hwidth : width = field.length) :
    fieldAt (first ++ (field ++ rest)) offset width = field := by
  rw [fieldAt_append_right hstart, hwidth, List.take_left]

end Xrtc.Machine
