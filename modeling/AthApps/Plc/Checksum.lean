import AthApps.Lib.Stream

/-!
# The 32-bit checksums of the powerline utilities

`tools/checksum_32.c` sums a region of memory and `tools/fdchecksum_32.c` a
region of an open file.  Both return the complement of the xor of the words,
so a region that contains its own checksum sums up to zero.
-/

set_option autoImplicit false

namespace AthApps.Plc

open AthApps.Lib

def checksum32 (memory : Bytes) (checksum : Word) : Word :=
  (Word.xorSum memory checksum).complement

/-- The value -1 that `fdchecksum_32` returns on a short read. -/
def checksumError : Word := Word.zero.complement

@[grind =] def fdchecksum32 : Stream → Nat → Word → Word × Stream
  | fd, extent + 4, checksum =>
    let (memory, fd) := fd.read 4
    if memory.length ≠ 4 then
      (checksumError, fd)
    else
      fdchecksum32 fd extent (checksum.xor (Word.ofBytes memory))
  | fd, _, checksum => (checksum.complement, fd)

theorem fdchecksum32_stream (fd : Stream) (extent : Nat) (checksum : Word) :
    (fdchecksum32 fd extent checksum).2.content = fd.content ∧
      fd.position ≤ (fdchecksum32 fd extent checksum).2.position := by
  fun_induction fdchecksum32 fd extent checksum with
  | case1 fd extent checksum memory next read short =>
    obtain ⟨rfl, rfl⟩ := Prod.mk.inj read
    exact ⟨rfl, Nat.le_add_right _ _⟩
  | case2 fd extent checksum memory next read full ih =>
    obtain ⟨rfl, rfl⟩ := Prod.mk.inj read
    exact ⟨ih.1, Nat.le_trans (Nat.le_add_right _ _) ih.2⟩
  | case3 fd checksum extent short => exact ⟨rfl, Nat.le_refl _⟩

/-- On a region that lies in the file, the file checksum is the checksum of
its bytes, and the position moves over the complete words. -/
theorem fdchecksum32_inside : ∀ (words : Nat) (fd : Stream) (checksum : Word),
    fd.position + 4 * words ≤ fd.content.length → fdchecksum32 fd (4 * words) checksum =
        (checksum32 (slice fd.content fd.position (4 * words)) checksum,
          fd.seek (fd.position + 4 * words)) := by
  intro words
  induction words with
  | zero =>
    intro fd checksum inside
    simp [fdchecksum32, checksum32, slice, Word.xorSum, Stream.seek]
  | succ words ih =>
    intro fd checksum inside
    have full : (slice fd.content fd.position 4).length = 4 := slice_length_of_le _ _ _ (by omega)
    have next : (fd.read 4).2 = fd.seek (fd.position + 4) := by
      simp [Stream.read, Stream.seek, -slice_length, full]
    have split : slice fd.content fd.position (4 * (words + 1)) =
        slice fd.content fd.position 4 ++ slice fd.content (fd.position + 4) (4 * words) := by
      rw [slice_append_slice]
      congr 1
      omega
    have sum : Word.xorSum (slice fd.content fd.position 4) checksum =
        checksum.xor (Word.ofBytes (slice fd.content fd.position 4)) := by
      rw [← Word.xorSum_toBytes, Word.toBytes_ofBytes _ full]
    rw [show 4 * (words + 1) = 4 * words + 4 by omega] at split ⊢
    rw [fdchecksum32]
    simp only [Stream.read_fst, full, ne_eq, not_true_eq_false, if_false, next]
    rw [ih _ _ (by simp only [Stream.seek_position, Stream.seek_content]; omega)]
    simp only [Stream.seek_position, Stream.seek_content, checksum32, split]
    rw [Word.xorSum_append 1 _ _ _ (by omega), sum]
    simp [Stream.seek, Nat.add_assoc, Nat.add_comm]

/-- A region that passes the end of the file is answered with the error value. -/
theorem fdchecksum32_outside : ∀ (words : Nat) (fd : Stream) (checksum : Word),
    fd.position ≤ fd.content.length →
    fd.content.length < fd.position + 4 * words →
      (fdchecksum32 fd (4 * words) checksum).1 = checksumError := by
  intro words
  induction words with
  | zero =>
    intro fd checksum start outside
    omega
  | succ words ih =>
    intro fd checksum start outside
    rw [show 4 * (words + 1) = 4 * words + 4 by omega, fdchecksum32]
    by_cases full : (slice fd.content fd.position 4).length = 4
    · have next : (fd.read 4).2 = fd.seek (fd.position + 4) := by
        simp [Stream.read, Stream.seek, -slice_length, full]
      simp only [Stream.read_fst, full, ne_eq, not_true_eq_false, if_false, next]
      rw [slice_length] at full
      exact ih _ _ (by simp; omega) (by simp; omega)
    · simp only [Stream.read_fst, full, ne_eq, not_false_eq_true, if_true]

/-- A zero sum over whole words says that the region lies in the file and that
its bytes sum up to zero. -/
theorem fdchecksum32_eq_zero (fd : Stream) (extent : Nat) (checksum : Word)
    (start : fd.position ≤ fd.content.length) (aligned : extent % 4 = 0)
    (sum : (fdchecksum32 fd extent checksum).1 = Word.zero) :
    fd.position + extent ≤ fd.content.length ∧
      checksum32 (slice fd.content fd.position extent) checksum = Word.zero ∧
      (fdchecksum32 fd extent checksum).2 = fd.seek (fd.position + extent) := by
  obtain ⟨words, rfl⟩ : ∃ words, extent = 4 * words := ⟨extent / 4, by omega⟩
  by_cases inside : fd.position + 4 * words ≤ fd.content.length
  · have value := fdchecksum32_inside words fd checksum inside
    rw [value] at sum ⊢
    exact ⟨inside, sum, rfl⟩
  · have value := fdchecksum32_outside words fd checksum start (by omega)
    rw [sum] at value
    exact absurd value (by decide)

end AthApps.Plc
