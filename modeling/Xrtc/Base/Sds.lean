/-
# Dynamic strings with `int` bookkeeping

The receive buffer of a connection is an `sds`: a heap block whose header holds
the used length and the free space as two 32-bit `int`s. All size arithmetic is
done in `size_t` and truncated when it is stored. `alloc` and `buf` record what
the header only claims to know: how many bytes the block really has behind the
header, and which bytes are stored there.
-/

import Xrtc.Machine.Word

namespace Xrtc.Base

open Xrtc.Machine

def SDS_MAX_PREALLOC : ℕ := 1024 * 1024

/-- `sizeof(struct sdshdr)`: two `int`s before the flexible array. -/
def SDSHDR_SIZE : ℕ := 8

/-- The allocator refuses a request that exceeds `PTRDIFF_MAX`. -/
def PTRDIFF_MAX : ℕ := 2 ^ 63 - 1

/-- An `sds`: the header fields `len` and `free`, the bytes really allocated for
`buf` (terminator excluded), and the bytes stored in it. -/
structure Sds where
  len : ℤ
  free : ℤ
  alloc : ℕ
  buf : List UInt8
  deriving DecidableEq

def sdsempty : Sds where
  len := 0
  free := 0
  alloc := 0
  buf := []

/-- `sdslen`: the `int` length, converted to the `size_t` it is returned as. -/
def sdslen (s : Sds) : ℕ := toSize s.len

/-- `sdsavail`: the `int` free space, converted to the `size_t` it is returned as. -/
def sdsavail (s : Sds) : ℕ := toSize s.free

/-- The size of the block behind the header that `sdsMakeRoomFor` settles on. -/
def grownLength (len addlen : ℕ) : ℕ :=
  let newlen := toSize (len + addlen)
  if newlen < SDS_MAX_PREALLOC then
    toSize (newlen * 2)
  else
    toSize (newlen + SDS_MAX_PREALLOC)

/-- The `zrealloc` of `sdsMakeRoomFor` and the update of the header behind it.
The answer `none` is the allocator running out of memory, which aborts the
process. A block that became shorter keeps only what fits. -/
def reallocTo (s : Sds) (newlen : ℕ) : Option Sds :=
  let size := toSize (SDSHDR_SIZE + newlen + 1)
  if size > PTRDIFF_MAX then
    none
  else
    let alloc := size - (SDSHDR_SIZE + 1)
    some
      { len := s.len
        free := toInt32 (toSize (newlen - sdslen s))
        alloc := alloc
        buf := s.buf.take alloc }

def sdsMakeRoomFor (s : Sds) (addlen : ℕ) : Option Sds :=
  if sdsavail s ≥ addlen then
    some s
  else
    reallocTo s (grownLength (sdslen s) addlen)

/-- `sdsIncrLen`, with the asserts compiled out. -/
def sdsIncrLen (s : Sds) (incr : ℤ) : Sds :=
  { s with
    len := toInt32 (s.len + incr)
    free := toInt32 (s.free - incr) }

namespace Sds

/-- The bytes that can still be stored behind the contents. -/
def room (s : Sds) : ℕ := s.alloc - s.buf.length

/-- The header agrees with the block modulo `2 ^ 32`, and the contents fit. -/
structure Wf (s : Sds) : Prop where
  len_eq : s.len = toInt32 s.buf.length
  free_eq : s.free = toInt32 s.room
  fits : s.buf.length ≤ s.alloc
  room_lt : s.room < 2 ^ 32

theorem wf_sdsempty : sdsempty.Wf := by
  constructor <;> decide

variable {s next : Sds} {addlen : ℕ}

theorem Wf.sdslen_eq (hwf : s.Wf) (hlen : s.buf.length < 2 ^ 31) : sdslen s = s.buf.length := by
  rw [sdslen, hwf.len_eq, toInt32_of_range (by omega) (by omega)]
  unfold toSize
  omega

/-- A length of `2 ^ 31` or more is read back as a number no request reaches. -/
theorem Wf.sdslen_of_high (hwf : s.Wf) (hlow : 2 ^ 31 ≤ s.buf.length)
    (hhigh : s.buf.length < 2 ^ 32) : 2 ^ 64 - 2 ^ 31 ≤ sdslen s := by
  rw [sdslen, hwf.len_eq, toInt32_of_high (by omega) (by omega)]
  unfold toSize
  omega

/-- The free space a header reports is either exact or, as a negative `int`,
stands for a block with at least `2 ^ 31` free bytes. -/
theorem Wf.le_room_of_le_sdsavail (hwf : s.Wf) (hadd : addlen < 2 ^ 31)
    (havail : addlen ≤ sdsavail s) : addlen ≤ s.room := by
  have hroom := hwf.room_lt
  rw [sdsavail, hwf.free_eq] at havail
  by_cases hsmall : s.room < 2 ^ 31
  · rw [toInt32_of_range (by omega) (by omega)] at havail
    unfold toSize at havail
    omega
  · omega

/-- Storing `bytes` behind the contents and counting them keeps the header right. -/
theorem Wf.append (hwf : s.Wf) {bytes : List UInt8} (hroom : bytes.length ≤ s.room) :
    (sdsIncrLen { s with buf := s.buf ++ bytes } bytes.length).Wf := by
  have hfits := hwf.fits
  have hlt := hwf.room_lt
  unfold room at hroom hlt
  constructor
  · simp only [sdsIncrLen, hwf.len_eq, toInt32_add_left, List.length_append]
    push_cast
    rfl
  · simp only [sdsIncrLen, hwf.free_eq, toInt32_sub_left, room, List.length_append]
    congr 1
    omega
  · simp only [sdsIncrLen, List.length_append]
    omega
  · simp only [sdsIncrLen, room, List.length_append]
    omega

/-- A block that is reallocated to at least the length of its contents keeps
them and has exactly the difference free. -/
theorem Wf.realloc (hwf : s.Wf) (hlen : s.buf.length < 2 ^ 31) (newlen : ℕ)
    (hlow : s.buf.length ≤ newlen) (hhigh : newlen < s.buf.length + 2 ^ 32) :
    ∃ grown, reallocTo s newlen = some grown ∧ grown.Wf ∧ grown.buf = s.buf ∧
      grown.room = newlen - s.buf.length := by
  have hsize : toSize (SDSHDR_SIZE + newlen + 1) = newlen + 9 := by
    unfold toSize SDSHDR_SIZE
    omega
  have hfree : toSize ((newlen : ℤ) - s.buf.length) = newlen - s.buf.length := by
    unfold toSize
    omega
  have hkeep : s.buf.take newlen = s.buf := List.take_of_length_le hlow
  refine ⟨{ len := s.len, free := toInt32 (newlen - s.buf.length : ℕ), alloc := newlen,
            buf := s.buf }, ?_, ?_, rfl, rfl⟩
  · simp only [reallocTo, hwf.sdslen_eq hlen, hsize, hfree]
    rw [if_neg (by unfold PTRDIFF_MAX; omega)]
    simp [SDSHDR_SIZE, hkeep]
  · exact ⟨hwf.len_eq, by simp only [room], hlow, by simp only [room]; omega⟩

/-- **Room for a non-negative request.** Growing succeeds, keeps the contents,
leaves at least the requested number of bytes free, and never much more. -/
theorem Wf.makeRoomFor (hwf : s.Wf) (hlen : s.buf.length < 2 ^ 31) (addlen : ℕ)
    (hadd : addlen < 2 ^ 31) :
    ∃ grown, sdsMakeRoomFor s addlen = some grown ∧ grown.Wf ∧ grown.buf = s.buf ∧
      addlen ≤ grown.room ∧
      grown.room ≤ max s.room (s.buf.length + 2 * addlen + SDS_MAX_PREALLOC) := by
  by_cases havail : sdsavail s ≥ addlen
  · exact ⟨s, by rw [sdsMakeRoomFor, if_pos havail], hwf, rfl,
      hwf.le_room_of_le_sdsavail hadd havail, le_max_left _ _⟩
  · rw [sdsMakeRoomFor, if_neg havail, hwf.sdslen_eq hlen]
    have hsum : toSize (s.buf.length + addlen) = s.buf.length + addlen := by
      unfold toSize
      omega
    have hgrown : s.buf.length + addlen ≤ grownLength s.buf.length addlen ∧
        grownLength s.buf.length addlen ≤
          s.buf.length + (s.buf.length + 2 * addlen + SDS_MAX_PREALLOC) := by
      simp only [grownLength, hsum]
      unfold toSize SDS_MAX_PREALLOC
      split <;> omega
    have hpre : SDS_MAX_PREALLOC = 2 ^ 20 := rfl
    have hbound : grownLength s.buf.length addlen < s.buf.length + 2 ^ 32 := by
      simp only [grownLength, hsum]
      unfold toSize
      split <;> omega
    obtain ⟨grown, heq, hwf', hbuf, hroom⟩ :=
      hwf.realloc hlen (grownLength s.buf.length addlen) (by omega) hbound
    exact ⟨grown, heq, hwf', hbuf, by omega, by omega⟩

/-- The block a request of `2 ^ 64 - deficit` bytes leads to: the sum wraps, or
the preallocation does, or the request stays as large as it was. -/
theorem grownLength_of_neg {len deficit : ℕ} (hlen : len < 2 ^ 31) (hpos : 0 < deficit)
    (hdeficit : deficit ≤ 2 ^ 31) :
    grownLength len (2 ^ 64 - deficit) =
      if deficit ≤ len then
        if len - deficit < SDS_MAX_PREALLOC then (len - deficit) * 2
        else len - deficit + SDS_MAX_PREALLOC
      else if deficit ≤ len + SDS_MAX_PREALLOC then SDS_MAX_PREALLOC - (deficit - len)
      else 2 ^ 64 + SDS_MAX_PREALLOC - (deficit - len) := by
  have hsum : toSize ((len : ℤ) + (2 ^ 64 - deficit : ℕ)) =
      if deficit ≤ len then len - deficit else 2 ^ 64 - (deficit - len) := by
    unfold toSize
    split <;> omega
  have hpre : SDS_MAX_PREALLOC = 2 ^ 20 := rfl
  simp only [grownLength, hsum]
  by_cases hwraps : deficit ≤ len
  · simp only [if_pos hwraps]
    unfold toSize
    split <;> omega
  · simp only [if_neg hwraps]
    rw [if_neg (by omega)]
    unfold toSize
    split <;> omega

/-- **A negative request aborts** unless the size computation wraps. -/
theorem Wf.makeRoomFor_neg_eq_none (hwf : s.Wf) (hlen : s.buf.length < 2 ^ 31)
    (hroom : s.room < 2 ^ 31) {deficit : ℕ} (hdeficit : deficit ≤ 2 ^ 31)
    (hfar : s.buf.length + SDS_MAX_PREALLOC + (SDSHDR_SIZE + 1) < deficit) :
    sdsMakeRoomFor s (2 ^ 64 - deficit) = none := by
  have havail : sdsavail s = s.room := by
    rw [sdsavail, hwf.free_eq, toInt32_of_range (by omega) (by omega)]
    unfold toSize
    omega
  have hpre : SDS_MAX_PREALLOC = 2 ^ 20 := rfl
  have hhdr : SDSHDR_SIZE = 8 := rfl
  have hgrown := grownLength_of_neg hlen (by omega) hdeficit
  rw [if_neg (by omega), if_neg (by omega)] at hgrown
  have hsize : toSize (SDSHDR_SIZE + grownLength s.buf.length (2 ^ 64 - deficit) + 1) >
      PTRDIFF_MAX := by
    rw [hgrown]
    unfold toSize PTRDIFF_MAX
    omega
  rw [sdsMakeRoomFor, if_neg (by omega), hwf.sdslen_eq hlen]
  simp only [reallocTo, if_pos hsize]

/-- **A negative request whose size wraps** gets a block that is too short for
the contents it already has, or one that is sound but small. -/
theorem Wf.makeRoomFor_neg (hwf : s.Wf) (hnonempty : 0 < s.buf.length)
    (hlen : s.buf.length < 2 ^ 31) (hroom : s.room < 2 ^ 31) (deficit : ℕ) (hpos : 0 < deficit)
    (hdeficit : deficit ≤ 2 ^ 31)
    (hnear : deficit ≤ s.buf.length + SDS_MAX_PREALLOC + (SDSHDR_SIZE + 1)) :
    ∃ grown, sdsMakeRoomFor s (2 ^ 64 - deficit) = some grown ∧
      (grown.alloc < s.buf.length ∨ grown.Wf ∧ grown.buf = s.buf ∧ grown.room < 2 ^ 31) := by
  have havail : sdsavail s = s.room := by
    rw [sdsavail, hwf.free_eq, toInt32_of_range (by omega) (by omega)]
    unfold toSize
    omega
  have hpre : SDS_MAX_PREALLOC = 2 ^ 20 := rfl
  have hhdr : SDSHDR_SIZE = 8 := rfl
  rw [sdsMakeRoomFor, if_neg (by omega), hwf.sdslen_eq hlen]
  have hgrown := grownLength_of_neg hlen hpos hdeficit
  set newlen := grownLength s.buf.length (2 ^ 64 - deficit)
  by_cases hgrows : s.buf.length ≤ newlen ∧ newlen < s.buf.length + 2 ^ 31
  · obtain ⟨grown, heq, hwf', hbuf, hroom'⟩ := hwf.realloc hlen newlen hgrows.1 (by omega)
    exact ⟨grown, heq, Or.inr ⟨hwf', hbuf, by omega⟩⟩
  · have hsize : toSize (SDSHDR_SIZE + newlen + 1) < s.buf.length + (SDSHDR_SIZE + 1) := by
      unfold toSize
      split at hgrown
      · split at hgrown <;> omega
      · split at hgrown <;> omega
    simp only [reallocTo]
    rw [if_neg (by unfold PTRDIFF_MAX; omega)]
    exact ⟨_, rfl, Or.inl (by simp only; omega)⟩

end Sds

end Xrtc.Base
