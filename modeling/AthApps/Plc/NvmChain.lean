import AthApps.Plc.Nvm
import Mathlib.Algebra.GroupWithZero.Nat

/-!
# Chains of firmware images

An image without its place in a file is a header whose `NEXTHEADER` and
`HEADERCHECKSUM` are blank, and its bytes.  `chain` lays a list of images out
in a file, and the files that `chknvm` accepts are exactly the layouts of
valid images.  Merging and splitting are then statements about lists of images.
-/

set_option autoImplicit false

namespace AthApps.Plc

open AthApps.Lib List

namespace HeaderNvm

def bare (header : HeaderNvm) : HeaderNvm :=
  { header with nextHeader := Word.zero, headerChecksum := Word.zero }

def summed (header : HeaderNvm) : Bytes := header.toBytes.take 40

variable (header : HeaderNvm)

theorem toBytes_eq_summed : header.toBytes = header.summed ++ header.headerChecksum.toBytes := rfl

theorem checksum32_toBytes : checksum32 header.toBytes Word.zero =
      ((Word.xorSum header.summed Word.zero).xor header.headerChecksum).complement := by
  rw [checksum32, toBytes_eq_summed, Word.xorSum_append 10 _ _ _ rfl, Word.xorSum_toBytes]

theorem headerChecksum_withChecksum :
    header.withChecksum.headerChecksum = (Word.xorSum header.summed Word.zero).complement := by
  have blank := checksum32_toBytes { header with headerChecksum := Word.zero }
  rw [Word.xor_zero] at blank
  exact blank

theorem checksum32_eq_zero_iff :
    checksum32 header.toBytes Word.zero = Word.zero ↔ header.withChecksum = header := by
  rw [checksum32_toBytes, Word.complement_eq_zero_iff, Word.xor_eq_allOnes_iff,
    ← headerChecksum_withChecksum]
  constructor
  · intro same
    rw [withChecksum]
    exact (congrArg (fun sum => { header with headerChecksum := sum }) same).symm
  · intro same
    exact (congrArg headerChecksum same).symm

@[simp] theorem withChecksum_withChecksum :
    header.withChecksum.withChecksum = header.withChecksum := rfl

end HeaderNvm

structure NvmImage where
  header : HeaderNvm
  bytes : Bytes
  deriving DecidableEq

namespace NvmImage

/-- The image's header at a place of a file where `next` follows. -/
def sealed (image : NvmImage) (next : Word) : HeaderNvm :=
  { image.header with nextHeader := next }.withChecksum

def size (image : NvmImage) : Nat := headerNvmSize + image.bytes.length

structure Valid (image : NvmImage) : Prop where
  bare : image.header.bare = image.header
  version : image.header.headerVersion = nvmHeaderVersion
  length : image.header.imageLength.toNat = image.bytes.length
  aligned : image.bytes.length % 4 = 0
  sum : checksum32 image.bytes image.header.imageChecksum = Word.zero

end NvmImage

/-- The address of the next header: none behind the last image, unless another
file follows. -/
def nextAddress (position : Nat) (more : Bool) (rest : List NvmImage) : Word :=
  if more || !rest.isEmpty then Word.ofNat position else Word.zero

@[grind =] def chain : Nat → Bool → List NvmImage → Bytes
  | _, _, [] => []
  | position, more, image :: rest =>
    (image.sealed (nextAddress (position + image.size) more rest)).toBytes ++
      (image.bytes ++ chain (position + image.size) more rest)

def chainLength (images : List NvmImage) : Nat := (images.map NvmImage.size).sum

@[grind =] def imagesAt : Nat → Bytes → Nat → List NvmImage
  | 0, _, _ => []
  | fuel + 1, content, position =>
    let header := HeaderNvm.ofBytes (slice content position headerNvmSize)
    let image : NvmImage :=
      ⟨header.bare, slice content (position + headerNvmSize) header.imageLength.toNat⟩
    if header.nextHeader ≠ Word.zero then
      image :: imagesAt fuel content header.nextHeader.toNat
    else
      [image]

def nvmImages (content : Bytes) : List NvmImage := imagesAt (content.length + 1) content 0

@[simp] theorem chainLength_cons (image : NvmImage) (rest : List NvmImage) :
    chainLength (image :: rest) = image.size + chainLength rest := by
  simp [chainLength]

@[simp] theorem chain_length : ∀ (images : List NvmImage) (position : Nat) (more : Bool),
    (chain position more images).length = chainLength images := by
  intro images
  induction images with
  | nil =>
    intro position more
    rfl
  | cons image rest ih =>
    intro position more
    simp only [chain, length_append, HeaderNvm.toBytes_length, ih, chainLength_cons, NvmImage.size]
    omega

theorem length_le_chainLength (images : List NvmImage) :
    images.length ≤ chainLength images := by
  induction images with
  | nil => exact Nat.le_refl 0
  | cons image rest ih =>
    simp only [length_cons, chainLength_cons, NvmImage.size, headerNvmSize]
    omega

theorem chain_append : ∀ (first second : List NvmImage) (position : Nat) (more : Bool),
    chain position more (first ++ second) = chain position (more || !second.isEmpty) first ++
        chain (position + chainLength first) more second := by
  intro first
  induction first with
  | nil =>
    intro second position more
    simp [chain, chainLength]
  | cons image rest ih =>
    intro second position more
    have next : nextAddress (position + image.size) more (rest ++ second) =
        nextAddress (position + image.size) (more || !second.isEmpty) rest := by
      unfold nextAddress
      cases more <;> cases rest <;> cases second <;> rfl
    simp only [cons_append, chain, ih, next, chainLength_cons, append_assoc, Nat.add_assoc]

theorem readHeader_ok_iff (cantRead name : String) (image : Nat) (fd : Stream) (expected : Word)
    (header : HeaderNvm) (after : Stream) :
    readHeader cantRead name image fd expected = .ok (header, after) ↔
      fd.position = expected.toNat ∧ fd.position + headerNvmSize ≤ fd.content.length ∧
        HeaderNvm.ofBytes (slice fd.content fd.position headerNvmSize) = header ∧
        header.headerVersion = nvmHeaderVersion ∧ header.withChecksum = header ∧
        after = fd.seek (fd.position + headerNvmSize) := by
  unfold readHeader
  by_cases position : fd.position = expected.toNat
  · by_cases room : fd.position + headerNvmSize ≤ fd.content.length
    · have full := slice_length_of_le _ _ _ room
      have next : (fd.read headerNvmSize).2 = fd.seek (fd.position + headerNvmSize) := by
        simp [Stream.read, Stream.seek, -slice_length, full]
      simp only [position, ne_eq, not_true_eq_false, if_false, Stream.read_fst, next]
      rw [← position, full, if_neg (Nat.lt_irrefl _)]
      by_cases version : (HeaderNvm.ofBytes
          (slice fd.content fd.position headerNvmSize)).headerVersion = nvmHeaderVersion
      · rw [if_neg (not_not.mpr version)]
        by_cases sum : (HeaderNvm.ofBytes
            (slice fd.content fd.position headerNvmSize)).withChecksum =
              HeaderNvm.ofBytes (slice fd.content fd.position headerNvmSize)
        · rw [if_neg (not_not.mpr ((HeaderNvm.checksum32_eq_zero_iff _).mpr sum))]
          constructor
          · intro same
            obtain ⟨rfl, rfl⟩ := Prod.mk.inj (Except.ok.inj same)
            exact ⟨trivial, room, rfl, version, sum, rfl⟩
          · rintro ⟨-, -, rfl, -, -, rfl⟩
            rfl
        · rw [if_pos (mt (HeaderNvm.checksum32_eq_zero_iff _).mp sum)]
          constructor
          · intro same
            cases same
          · rintro ⟨-, -, rfl, -, exact, -⟩
            exact absurd exact sum
      · rw [if_pos version]
        constructor
        · intro same
          cases same
        · rintro ⟨-, -, rfl, exact, -, -⟩
          exact absurd exact version
    · have short : (slice fd.content fd.position headerNvmSize).length < headerNvmSize := by
        simp only [slice_length, headerNvmSize] at room ⊢
        omega
      simp only [position, ne_eq, not_true_eq_false, if_false, Stream.read_fst]
      rw [← position, if_pos short]
      constructor
      · intro same
        cases same
      · rintro ⟨-, exact, -⟩
        exact absurd exact room
  · rw [if_pos position]
    constructor
    · intro same
      cases same
    · rintro ⟨exact, -⟩
      exact absurd exact position

variable (name : String)

theorem chknvmLoop_succ (fuel image : Nat) (file after : Stream)
    (expected : Word) (accepted : chknvmLoop name (fuel + 1) image file expected = some (.ok after)) :
    ∃ header, readHeader "Can't read image header" name image file expected =
        .ok (header, file.seek (file.position + headerNvmSize)) ∧
      (fdchecksum32 (file.seek (file.position + headerNvmSize)) header.imageLength.toNat
        header.imageChecksum).1 = Word.zero ∧
      if header.nextHeader = Word.zero then
        (fdchecksum32 (file.seek (file.position + headerNvmSize)) header.imageLength.toNat
          header.imageChecksum).2 = after
      else
        chknvmLoop name fuel (image + 1)
          (fdchecksum32 (file.seek (file.position + headerNvmSize)) header.imageLength.toNat
            header.imageChecksum).2 header.nextHeader = some (.ok after) := by
  rw [chknvmLoop] at accepted
  cases found : readHeader "Can't read image header" name image file expected with
  | error message => simp [found] at accepted
  | ok pair =>
    obtain ⟨header, next⟩ := pair
    have next_eq := ((readHeader_ok_iff _ _ _ _ _ _ _).mp found).2.2.2.2.2
    subst next_eq
    simp only [found] at accepted
    refine ⟨header, rfl, ?_⟩
    by_cases sum : (fdchecksum32 (file.seek (file.position + headerNvmSize))
        header.imageLength.toNat header.imageChecksum).1 = Word.zero
    · rw [if_neg (not_not.mpr sum)] at accepted
      refine ⟨sum, ?_⟩
      by_cases last : header.nextHeader = Word.zero
      · rw [if_neg (not_not.mpr last)] at accepted
        rw [if_pos last]
        exact Except.ok.inj (Option.some.inj accepted)
      · rw [if_pos last] at accepted
        rw [if_neg last]
        exact accepted
    · rw [if_pos sum] at accepted
      cases accepted

theorem chknvmLoop_position (fuel image : Nat) (file after : Stream)
    (expected : Word) (accepted : chknvmLoop name fuel image file expected = some (.ok after)) :
    file.position = expected.toNat := by
  cases fuel with
  | zero => cases accepted
  | succ fuel =>
    obtain ⟨header, found, -⟩ := chknvmLoop_succ _ _ _ _ _ _ accepted
    exact ((readHeader_ok_iff _ _ _ _ _ _ _).mp found).1

theorem imagesAt_of_accepted : ∀ (fuel image : Nat) (file after : Stream)
    (expected : Word), chknvmLoop name fuel image file expected = some (.ok after) →
    ∀ enough, file.content.length < file.position + enough →
      imagesAt enough file.content file.position = imagesAt fuel file.content file.position := by
  intro fuel
  induction fuel with
  | zero =>
    intro image file after expected accepted
    cases accepted
  | succ fuel ih =>
    intro image file after expected accepted enough large
    obtain ⟨header, found, -, rest⟩ := chknvmLoop_succ _ _ _ _ _ _ accepted
    obtain ⟨-, room, header_eq, -⟩ := (readHeader_ok_iff _ _ _ _ _ _ _).mp found
    obtain ⟨enough, rfl⟩ : ∃ less, enough = less + 1 := ⟨enough - 1, by
      simp only [headerNvmSize] at room
      omega⟩
    simp only [imagesAt, header_eq]
    by_cases last : header.nextHeader = Word.zero
    · rw [if_neg (not_not.mpr last), if_neg (not_not.mpr last)]
    · rw [if_neg last] at rest
      rw [if_pos last, if_pos last]
      have stream := fdchecksum32_stream (file.seek (file.position + headerNvmSize))
        header.imageLength.toNat header.imageChecksum
      have position := chknvmLoop_position _ _ _ _ _ _ rest
      have tail := ih _ _ _ _ rest enough (by
        rw [stream.1, Stream.seek_content]
        have moved := stream.2
        have size : 0 < headerNvmSize := by decide
        rw [Stream.seek_position] at moved
        omega)
      rw [stream.1, position, Stream.seek_content] at tail
      rw [tail]

theorem sealed_bare (header : HeaderNvm) (bytes : Bytes)
    (sum : header.withChecksum = header) :
    (⟨header.bare, bytes⟩ : NvmImage).sealed header.nextHeader = header := sum

theorem chain_of_accepted : ∀ (fuel image : Nat) (file after : Stream)
    (expected : Word), chknvmLoop name fuel image file expected = some (.ok after) →
    (∀ found ∈ imagesAt fuel file.content file.position, found.header.imageLength.toNat % 4 = 0) →
    (∀ found ∈ imagesAt fuel file.content file.position, found.Valid) ∧
      imagesAt fuel file.content file.position ≠ [] ∧
      file.content.drop file.position =
        chain file.position false (imagesAt fuel file.content file.position) ++
          file.content.drop after.position := by
  intro fuel
  induction fuel with
  | zero =>
    intro image file after expected accepted
    cases accepted
  | succ fuel ih =>
    intro image file after expected accepted aligned
    obtain ⟨header, found, sum, rest⟩ := chknvmLoop_succ _ _ _ _ _ _ accepted
    obtain ⟨-, room, header_eq, version, checksum, -⟩ := (readHeader_ok_iff _ _ _ _ _ _ _).mp found
    have headerBytes : slice file.content file.position headerNvmSize = header.toBytes := by
      rw [← header_eq, HeaderNvm.toBytes_ofBytes _ (slice_length_of_le _ _ _ room)]
    simp only [imagesAt, header_eq] at aligned ⊢
    have lengthAligned : header.imageLength.toNat % 4 = 0 := by
      by_cases last : header.nextHeader = Word.zero
      · rw [if_neg (not_not.mpr last)] at aligned
        exact aligned _ (mem_singleton.mpr rfl)
      · rw [if_pos last] at aligned
        exact aligned _ mem_cons_self
    obtain ⟨inside, imageSum, next⟩ := fdchecksum32_eq_zero _ _ _
      (by rw [Stream.seek_position, Stream.seek_content]; exact room) lengthAligned sum
    simp only [Stream.seek_position, Stream.seek_content] at inside imageSum
    rw [next] at rest
    have bodyLength := slice_length_of_le file.content (file.position + headerNvmSize)
      header.imageLength.toNat inside
    have valid : (⟨header.bare, slice file.content (file.position + headerNvmSize)
        header.imageLength.toNat⟩ : NvmImage).Valid :=
      ⟨rfl, version, bodyLength.symm, by rw [bodyLength]; exact lengthAligned, imageSum⟩
    have layout : file.content.drop file.position = header.toBytes ++
        (slice file.content (file.position + headerNvmSize) header.imageLength.toNat ++
          file.content.drop (file.position + headerNvmSize + header.imageLength.toNat)) := by
      rw [← headerBytes, ← drop_eq_slice_append, ← drop_eq_slice_append]
    have size : (⟨header.bare, slice file.content (file.position + headerNvmSize)
        header.imageLength.toNat⟩ : NvmImage).size = headerNvmSize + header.imageLength.toNat := by
      rw [NvmImage.size, bodyLength]
    by_cases last : header.nextHeader = Word.zero
    · rw [if_pos last] at rest
      subst rest
      rw [if_neg (not_not.mpr last)]
      refine ⟨fun image member => ?_, cons_ne_nil _ _, ?_⟩
      · rw [mem_singleton.mp member]
        exact valid
      · have address : nextAddress (file.position + (⟨header.bare, slice file.content
            (file.position + headerNvmSize) header.imageLength.toNat⟩ : NvmImage).size)
              false [] = header.nextHeader := last.symm
        rw [chain, chain, address, sealed_bare _ _ checksum, append_nil, layout, append_assoc]
        rfl
    · rw [if_neg last] at rest
      rw [if_pos last] at aligned ⊢
      have position := chknvmLoop_position _ _ _ _ _ _ rest
      simp only [Stream.seek_position] at position
      obtain ⟨restValid, restNonempty, restLayout⟩ := ih _ _ _ _ rest (by
        simp only [Stream.seek_content, Stream.seek_position]
        rw [position]
        exact fun image member => aligned image (mem_cons_of_mem _ member))
      simp only [Stream.seek_content, Stream.seek_position] at restValid restNonempty restLayout
      rw [position] at restValid restNonempty restLayout
      refine ⟨fun image member => ?_, cons_ne_nil _ _, ?_⟩
      · rcases mem_cons.mp member with rfl | later
        · exact valid
        · exact restValid image later
      · have address : nextAddress (file.position + (⟨header.bare, slice file.content
            (file.position + headerNvmSize) header.imageLength.toNat⟩ : NvmImage).size)
              false (imagesAt fuel file.content header.nextHeader.toNat) = header.nextHeader := by
          rw [nextAddress, Bool.false_or, size, ← Nat.add_assoc, position]
          rw [if_pos (by simpa using restNonempty), Word.ofNat_toNat]
        rw [chain, address, sealed_bare _ _ checksum, layout, size, ← Nat.add_assoc, position,
          restLayout, append_assoc, append_assoc]

end AthApps.Plc
