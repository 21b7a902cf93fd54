import AthApps.Lib.Word
import Mathlib.Data.List.TakeDrop

/-!
# Seekable byte streams

A `Stream` is an open file: its bytes and the position of the next transfer.
A read returns the bytes that are left, at most as many as asked for.  A write
replaces bytes at the position and makes the file longer where it passes the
end; a write that starts behind the end leaves a hole of zero bytes.
-/

set_option autoImplicit false

namespace AthApps.Lib

open List

/-- Bytes `offset .. offset + extent - 1` of a byte string, as far as they exist. -/
def slice (bytes : Bytes) (offset extent : Nat) : Bytes :=
  (bytes.drop offset).take extent

/-- The byte string after a write of `data` at `offset`. -/
def overlay (bytes : Bytes) (offset : Nat) (data : Bytes) : Bytes :=
  bytes.take offset ++ List.replicate (offset - bytes.length) 0 ++ data ++
    bytes.drop (offset + data.length)

structure Stream where
  content : Bytes
  position : Nat
  deriving DecidableEq

namespace Stream

def seek (stream : Stream) (position : Nat) : Stream := { stream with position := position }

def read (stream : Stream) (extent : Nat) : Bytes × Stream :=
  let chunk := slice stream.content stream.position extent
  (chunk, { stream with position := stream.position + chunk.length })

def write (stream : Stream) (data : Bytes) : Stream :=
  { content := overlay stream.content stream.position data
    position := stream.position + data.length }

variable (stream : Stream)

@[simp] theorem seek_content (position : Nat) :
    (stream.seek position).content = stream.content := rfl

@[simp] theorem seek_position (position : Nat) : (stream.seek position).position = position := rfl

@[simp] theorem read_fst (extent : Nat) :
    (stream.read extent).1 = slice stream.content stream.position extent := rfl

@[simp] theorem read_content (extent : Nat) : (stream.read extent).2.content = stream.content := rfl

@[simp] theorem write_content (data : Bytes) :
    (stream.write data).content = overlay stream.content stream.position data := rfl

@[simp] theorem write_position (data : Bytes) :
    (stream.write data).position = stream.position + data.length := rfl

end Stream

variable (bytes : Bytes)

@[simp] theorem slice_length (offset extent : Nat) :
    (slice bytes offset extent).length = min extent (bytes.length - offset) := by
  simp [slice]

theorem slice_length_of_le (offset extent : Nat)
    (inside : offset + extent ≤ bytes.length) : (slice bytes offset extent).length = extent := by
  rw [slice_length]
  omega

theorem slice_getElem? (offset extent index : Nat)
    (bound : index < extent) : (slice bytes offset extent)[index]? = bytes[offset + index]? := by
  simp [slice, bound]

theorem slice_append_slice (offset first second : Nat) :
    slice bytes offset first ++ slice bytes (offset + first) second =
      slice bytes offset (first + second) := by
  simp only [slice]
  rw [take_add, drop_drop]

theorem slice_join (offset next first second : Nat) (adjacent : next = offset + first) :
    slice bytes offset first ++ slice bytes next second = slice bytes offset (first + second) := by
  rw [adjacent, slice_append_slice]

theorem slice_slice (base total offset extent : Nat) (inside : offset + extent ≤ total) :
    slice (slice bytes base total) offset extent = slice bytes (base + offset) extent := by
  simp only [slice, drop_take, drop_drop, take_take]
  congr 1
  omega

theorem slice_all : slice bytes 0 bytes.length = bytes := by
  simp [slice]

theorem drop_eq_slice_append (offset extent : Nat) :
    bytes.drop offset = slice bytes offset extent ++ bytes.drop (offset + extent) := by
  rw [slice, ← drop_drop, take_append_drop]

variable (front rest : Bytes) (offset : Nat) (data : Bytes)

theorem slice_append_left (offset extent : Nat) (inside : offset + extent ≤ front.length) :
    slice (front ++ rest) offset extent = slice front offset extent := by
  simp only [slice]
  rw [drop_append_of_le_length (by omega), take_append_of_le_length (by simp; omega)]

theorem slice_append_right (extent : Nat) :
    slice (front ++ rest) front.length extent = rest.take extent := by
  simp [slice]

theorem overlay_length :
    (overlay bytes offset data).length = max bytes.length (offset + data.length) := by
  simp only [overlay, length_append, length_take, length_replicate, length_drop]
  omega

theorem overlay_length_of_le (inside : offset + data.length ≤ bytes.length) :
    (overlay bytes offset data).length = bytes.length := by
  rw [overlay_length]
  omega

theorem overlay_getElem?_inside
    (index : Nat) (low : offset ≤ index) (high : index < offset + data.length) :
    (overlay bytes offset data)[index]? = data[index - offset]? := by
  have front : (bytes.take offset ++ List.replicate (offset - bytes.length) (0 : UInt8)).length =
      offset := by
    simp only [length_append, length_take, length_replicate]
    omega
  rw [overlay, getElem?_append_left (by simp only [length_append] at front ⊢; omega),
    getElem?_append_right (by omega), front]

theorem overlay_getElem?_outside (index : Nat) (inside : offset + data.length ≤ bytes.length)
    (outside : index < offset ∨ offset + data.length ≤ index) :
    (overlay bytes offset data)[index]? = bytes[index]? := by
  have noHole : offset - bytes.length = 0 := by omega
  simp only [overlay, noHole, replicate_zero, append_nil]
  rcases outside with before | behind
  · rw [append_assoc, getElem?_append_left (by simp; omega)]
    simp [before]
  · have front : (bytes.take offset ++ data).length = offset + data.length := by
      simp
      omega
    rw [getElem?_append_right (by omega), front, getElem?_drop]
    congr 1
    omega

theorem slice_overlay_self : slice (overlay bytes offset data) offset data.length = data := by
  have front : (bytes.take offset ++ List.replicate (offset - bytes.length) (0 : UInt8)).length =
      offset := by
    simp only [length_append, length_take, length_replicate]
    omega
  simp only [slice, overlay, append_assoc]
  rw [← append_assoc, drop_append_of_le_length (by omega),
    drop_eq_nil_of_le (by omega)]
  simp

theorem overlay_at_end (bytes data : Bytes) :
    overlay bytes bytes.length data = bytes ++ data := by
  simp [overlay]

theorem overlay_append_left (inside : offset + data.length ≤ front.length) :
    overlay (front ++ rest) offset data = overlay front offset data ++ rest := by
  have noHole : offset - front.length = 0 := by omega
  have noLater : offset - (front ++ rest).length = 0 := by
    rw [length_append]
    omega
  simp only [overlay, noHole, noLater, replicate_zero, append_nil]
  rw [take_append_of_le_length (by omega), drop_append_of_le_length inside]
  simp only [append_assoc]

theorem overlay_append_right (front rest data : Bytes) :
    overlay (front ++ rest) front.length data = front ++ data ++ rest.drop data.length := by
  have noHole : front.length - (front ++ rest).length = 0 := by
    rw [length_append]
    omega
  rw [overlay, noHole, replicate_zero, append_nil, take_left,
    drop_append, drop_eq_nil_of_le (by omega)]
  simp

/-- Outside `region` the byte strings have the same bytes. -/
def SameOutside (region : Nat → Prop) (old new : Bytes) : Prop :=
  ∀ index, ¬region index → new[index]? = old[index]?

namespace SameOutside

theorem refl (region : Nat → Prop) (bytes : Bytes) : SameOutside region bytes bytes :=
  fun _ _ => rfl

variable {old new : Bytes}

theorem trans {region : Nat → Prop} {middle : Bytes} (first : SameOutside region old middle)
    (second : SameOutside region middle new) : SameOutside region old new :=
  fun index outside => (second index outside).trans (first index outside)

theorem mono {small large : Nat → Prop} (same : SameOutside small old new)
    (contained : ∀ index, small index → large index) : SameOutside large old new :=
  fun index outside => same index fun inside => outside (contained index inside)

theorem overlay (bytes : Bytes) (offset : Nat) (data : Bytes)
    (inside : offset + data.length ≤ bytes.length) :
    SameOutside (fun index => offset ≤ index ∧ index < offset + data.length)
      bytes (overlay bytes offset data) := by
  intro index outside
  exact overlay_getElem?_outside bytes offset data index inside (by omega)

theorem slice_eq {region : Nat → Prop} (same : SameOutside region old new) (offset extent : Nat)
    (disjoint : ∀ index, offset ≤ index → index < offset + extent → ¬region index) :
    slice new offset extent = slice old offset extent := by
  apply ext_getElem?
  intro index
  by_cases bound : index < extent
  · rw [slice_getElem? _ _ _ _ bound, slice_getElem? _ _ _ _ bound]
    exact same _ (disjoint _ (by omega) (by omega))
  · rw [List.getElem?_eq_none (by rw [slice_length]; omega),
      List.getElem?_eq_none (by rw [slice_length]; omega)]

end SameOutside

theorem xorSum_overlay (bytes : Bytes) (index : Nat) (word accumulator : Word)
    (inside : 4 * index + 4 ≤ bytes.length)
    (blank : slice bytes (4 * index) 4 = Word.zero.toBytes) :
    Word.xorSum (overlay bytes (4 * index) word.toBytes) accumulator =
      word.xor (Word.xorSum bytes accumulator) := by
  have frontLength : (bytes.take (4 * index)).length = 4 * index := by
    rw [length_take]
    omega
  have oldSplit : bytes = bytes.take (4 * index) ++
      (Word.zero.toBytes ++ bytes.drop (4 * index + 4)) := by
    rw [← blank, ← drop_eq_slice_append, take_append_drop]
  have newSplit : overlay bytes (4 * index) word.toBytes = bytes.take (4 * index) ++
      (word.toBytes ++ bytes.drop (4 * index + 4)) := by
    have noHole : 4 * index - bytes.length = 0 := by omega
    simp [overlay, noHole]
  have oldSum : Word.xorSum bytes accumulator = Word.xorSum (bytes.drop (4 * index + 4))
      (Word.xorSum (bytes.take (4 * index)) accumulator) := by
    conv_lhs => rw [oldSplit]
    rw [Word.xorSum_append index _ _ _ frontLength, Word.xorSum_append 1 _ _ _ rfl,
      Word.xorSum_toBytes, Word.xor_zero]
  rw [oldSum, newSplit, Word.xorSum_append index _ _ _ frontLength,
    Word.xorSum_append 1 _ _ _ rfl, Word.xorSum_toBytes, Word.xor_comm, Word.xorSum_xor]

end AthApps.Lib
