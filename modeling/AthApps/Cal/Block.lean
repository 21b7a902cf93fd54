import AthApps.Lib.Patch

/-!
# Block compression

`CompressBlock` codes the places where two images differ as a list of
(offset, length, bytes) blocks.  Blocks that are separated by fewer than three
equal bytes are joined, and offsets and lengths above 255 are split.
`ar9300UncompressBlock` in the driver and `LocalUncompressBlock` in the tool
read the blocks back; they are one loop up to the test that a block stays
inside the structure.
-/

set_option autoImplicit false

namespace AthApps.Cal

open AthApps.Lib List Option

def blockFirst (input : Bytes) (size first : Nat) : Nat :=
  if first < size then
    if input.getD first 0 ≠ 0 then first else blockFirst input size (first + 1)
  else first
termination_by size - first

/-- The end of the non-zero block: a zero that stays zero for the two bytes
behind it, as far as there are any. -/
def blockLast (input : Bytes) (size last : Nat) : Nat :=
  if last < size then
    if input.getD last 0 = 0 ∧
        (last = size - 1 ∨ (last = size - 2 ∧ input.getD (last + 1) 0 = 0) ∨
          (input.getD (last + 1) 0 = 0 ∧ input.getD (last + 2) 0 = 0)) then
      last
    else blockLast input size (last + 1)
  else last
termination_by size - last

/-- The largest offset or length that one byte of a block header holds. -/
def blockMax : Nat := 255

/-- Blocks of length 0 that bring the offset up to at most 255 before `first`. -/
def fillOffset (first max block offset : Nat) (output : Bytes) :
    Option (Nat × Bytes) :=
  if block < first then
    if output.length + 2 ≥ max then none
    else fillOffset first max (block + blockMax) block (output ++ [UInt8.ofNat (block - offset), 0])
  else some (offset, output)
termination_by first - block
decreasing_by
  simp only [blockMax]
  omega

def blockLength (last block : Nat) : Nat :=
  if last - block ≥ blockMax then blockMax else last - block

/-- The bytes `block .. last - 1` of the source, at most 255 in a block. -/
def writeBlocks (source : Bytes) (last max block offset : Nat) (output : Bytes) :
    Option (Nat × Bytes) :=
  if block < last then
    if output.length + 2 + blockLength last block ≥ max then none
    else
      writeBlocks source last max (block + blockMax) (block + blockLength last block)
        (output ++ UInt8.ofNat (block - offset) :: UInt8.ofNat (blockLength last block) ::
          slice source block (blockLength last block))
  else some (offset, output)
termination_by last - block
decreasing_by
  simp only [blockMax]
  omega

variable (input : Bytes)

theorem le_blockFirst (size first : Nat) : first ≤ blockFirst input size first := by
  fun_induction blockFirst input size first with
  | case1 first bound differs => exact Nat.le_refl first
  | case2 first bound same ih => omega
  | case3 first bound => exact Nat.le_refl first

theorem le_blockLast (size last : Nat) : last ≤ blockLast input size last := by
  fun_induction blockLast input size last with
  | case1 last bound found => exact Nat.le_refl last
  | case2 last bound inside ih => omega
  | case3 last bound => exact Nat.le_refl last

def compressRound (source : Bytes) (max first last offset : Nat) (output : Bytes) :
    Option (Nat × Bytes) :=
  match fillOffset first max (offset + blockMax) offset output with
  | none => none
  | some (offset, output) => writeBlocks source last max first offset output

set_option maxRecDepth 2000 in
def compressFrom (input source : Bytes) (size max first offset : Nat)
    (output : Bytes) : Option Bytes :=
  let start := blockFirst input size first
  if start ≥ size then some output
  else
    let last := blockLast input size (start + 1)
    match compressRound source max start last offset output with
    | none => none
    | some (offset, output) => compressFrom input source size max last offset output
termination_by size - first
decreasing_by
  have advance := le_blockFirst input size first
  have behind := le_blockLast input size (blockFirst input size first + 1)
  omega

/-- The output of the source's `CompressBlock`; `none` is its -1. -/
def compressBlock (input source : Bytes) (size max : Nat) : Option Bytes :=
  compressFrom input source size max 0 0 []

/-- An access outside an array of the source. -/
inductive Fault where
  | word
  | states
  deriving DecidableEq

/-- The loop of both decoders.  `block` points into a buffer that has `room`
bytes from there on; `fits` is the test that a block ends inside the structure.
The flag is false where the source gives up on a block. -/
def uncompressWith (fits : Nat → Nat → Bool) (block : Nat → UInt8) (room mdataSize size : Nat)
    (it spot : Nat) (image : Bytes) : Except Fault (Bool × Bytes) :=
  if it < size then
    if it + 1 ≥ room then .error .word
    else
      let spot := spot + (block it).toNat
      let length := (block (it + 1)).toNat
      if length > 0 ∧ fits (spot + length) mdataSize = true then
        if it + 2 + length > room then .error .word
        else
          uncompressWith fits block room mdataSize size (it + length + 2) (spot + length)
            (overlay image spot (window block (it + 2) length))
      else if length > 0 then .ok (false, image)
      else uncompressWith fits block room mdataSize size (it + length + 2) spot image
  else .ok (true, image)
termination_by size - it

def ar9300UncompressBlock (image : Bytes) (mdataSize : Nat) (block : Nat → UInt8)
    (room size : Nat) : Except Fault (Bool × Bytes) :=
  uncompressWith (fun finish mdataSize => finish ≤ mdataSize) block room mdataSize size 0 0 image

def localUncompressBlock (image : Bytes) (mdataSize : Nat) (block : Nat → UInt8)
    (room size : Nat) : Except Fault (Bool × Bytes) :=
  uncompressWith (fun finish mdataSize => finish < mdataSize) block room mdataSize size 0 0 image

theorem blockFirst_zero (size first index : Nat)
    (low : first ≤ index) (high : index < blockFirst input size first) :
    input.getD index 0 = 0 := by
  fun_induction blockFirst input size first with
  | case1 first bound differs => omega
  | case2 first bound same ih =>
    by_cases here : index = first
    · subst here
      exact not_not.mp same
    · exact ih (by omega) high
  | case3 first bound => omega

theorem blockFirst_le (size first : Nat) (bound : first ≤ size) :
    blockFirst input size first ≤ size := by
  fun_induction blockFirst input size first with
  | case1 first inside differs => omega
  | case2 first inside same ih => exact ih (by omega)
  | case3 first outside => exact bound

theorem blockLast_le (size last : Nat) (bound : last ≤ size) :
    blockLast input size last ≤ size := by
  fun_induction blockLast input size last with
  | case1 last inside found => omega
  | case2 last inside behind ih => exact ih (by omega)
  | case3 last outside => exact bound

theorem blockLength_le (last block : Nat) : blockLength last block ≤ last - block := by
  simp only [blockLength]
  split <;> omega

theorem blockLength_le_max (last block : Nat) : blockLength last block ≤ blockMax := by
  simp only [blockLength]
  split <;> omega

theorem fillOffset_emits (image : Bytes) (first max block offset : Nat)
    (output : Bytes) (offset' : Nat) (output' : Bytes)
    (step : block = offset + blockMax) (before : offset ≤ first) (inside : first ≤ image.length)
    (success : fillOffset first max block offset output = some (offset', output')) :
    Emits ⟨offset, image, output⟩ ⟨offset', image, output'⟩ ∧
      offset' ≤ first ∧ first ≤ offset' + blockMax := by
  fun_induction fillOffset first max block offset output with
  | case1 block offset output far full => simp at success
  | case2 block offset output far room ih =>
    obtain ⟨later, low, high⟩ := ih rfl (by omega) success
    refine ⟨Emits.trans ?_ later, low, high⟩
    have gap : block - offset = blockMax := by omega
    have one := Emits.hunk ⟨offset, image, output⟩ ⟨blockMax, []⟩ (by decide)
    rw [overlay_nil image _ (by simp only; omega)] at one
    simpa [gap, step, Hunk.finish, Hunk.encode] using one
  | case3 block offset output near =>
    obtain ⟨rfl, rfl⟩ := Prod.mk.inj (some.inj success)
    exact ⟨Emits.refl _, before, by omega⟩

theorem writeBlocks_emits (source image : Bytes) (last max block offset : Nat)
    (output : Bytes) (offset' : Nat) (output' : Bytes)
    (before : offset ≤ block) (near : block ≤ offset + blockMax) (started : block ≤ last)
    (atEnd : block = last → offset = last)
    (sourceInside : last ≤ source.length) (imageInside : last ≤ image.length)
    (success : writeBlocks source last max block offset output = some (offset', output')) :
    offset' = last ∧
      Emits ⟨offset, image, output⟩
        ⟨last, overlay image block (slice source block (last - block)), output'⟩ := by
  fun_induction writeBlocks source last max block offset output generalizing image with
  | case1 block offset output inside full => simp at success
  | case2 block offset output inside room ih =>
    have lengthLe := blockLength_le last block
    have lengthMax := blockLength_le_max last block
    have chunkLength : (slice source block (blockLength last block)).length =
        blockLength last block := slice_length_of_le _ _ _ (by omega)
    have one := Emits.hunk ⟨offset, image, output⟩
      ⟨block - offset, slice source block (blockLength last block)⟩
      ⟨by simp only [blockMax] at near; simp only; omega,
        by simp only [blockMax] at lengthMax; simp only; omega⟩
    simp only [Hunk.finish, Hunk.encode, chunkLength] at one
    rw [show offset + (block - offset) = block by omega] at one
    -- Either a whole chunk was written and the next one follows at once, or
    -- this was the last chunk.
    by_cases whole : last - block ≥ blockMax
    · have lengthEq : blockLength last block = blockMax := if_pos whole
      rw [lengthEq] at chunkLength one ih success
      obtain ⟨finished, later⟩ := ih (overlay image block (slice source block blockMax))
        (by omega) (by omega) (by omega) (by omega)
        (by rw [overlay_length_of_le _ _ _ (by omega)]; exact imageInside) success
      have joined := overlay_append image block (slice source block blockMax)
        (slice source (block + blockMax) (last - (block + blockMax)))
        (by rw [slice_length, slice_length]; omega)
      rw [chunkLength, slice_append_slice,
        show blockMax + (last - (block + blockMax)) = last - block by omega] at joined
      rw [joined] at later
      exact ⟨finished, Emits.trans one later⟩
    · have lengthEq : blockLength last block = last - block := if_neg whole
      rw [lengthEq] at one success
      rw [writeBlocks, if_neg (by omega)] at success
      obtain ⟨rfl, rfl⟩ := Prod.mk.inj (some.inj success)
      rw [show block + (last - block) = last by omega] at one
      exact ⟨by omega, one⟩
  | case3 block offset output outside =>
    obtain ⟨rfl, rfl⟩ := Prod.mk.inj (some.inj success)
    have finished : block = last := by omega
    refine ⟨atEnd finished, ?_⟩
    rw [finished, Nat.sub_self]
    simp only [slice, take_zero]
    rw [overlay_nil image last imageInside, atEnd finished]
    exact Emits.refl _

variable (source reference : Bytes) (max room : Nat) (output : Bytes)
    (block : Nat → UInt8)

/-- The image a decoder has made when the encoder stands at `first`. -/
def mixed (first : Nat) : Bytes :=
  source.take first ++ reference.drop first

theorem mixed_length (first : Nat) (same : source.length = reference.length) :
    (mixed source reference first).length = source.length := by
  simp only [mixed, length_append, length_take, length_drop]
  omega

/-- Where the two images agree the encoder moves on without a block. -/
theorem mixed_advance (first next : Nat) (ahead : first ≤ next)
    (agree : ∀ index, first ≤ index → index < next → source[index]? = reference[index]?) :
    mixed source reference first = mixed source reference next := by
  have sourceSplit : source.take next = source.take first ++ slice source first (next - first) := by
    rw [slice, ← take_add]
    congr 1
    omega
  have referenceSplit := drop_eq_slice_append reference first (next - first)
  have sameSlice : slice source first (next - first) = slice reference first (next - first) := by
    apply ext_getElem?
    intro index
    by_cases bound : index < next - first
    · rw [slice_getElem? _ _ _ _ bound, slice_getElem? _ _ _ _ bound]
      exact agree _ (by omega) (by omega)
    · rw [List.getElem?_eq_none (by rw [slice_length]; omega),
        List.getElem?_eq_none (by rw [slice_length]; omega)]
  simp only [mixed]
  rw [sourceSplit, sameSlice, referenceSplit, append_assoc]
  congr 3
  omega

theorem overlay_mixed (first last : Nat) (ahead : first ≤ last) (inside : last ≤ source.length)
    (same : source.length = reference.length) :
    overlay (mixed source reference first) first (slice source first (last - first)) =
      mixed source reference last := by
  have frontLength : (source.take first).length = first := by
    rw [length_take]
    omega
  have chunkLength : (slice source first (last - first)).length = last - first :=
    slice_length_of_le source first _ (by omega)
  have front : (mixed source reference first).take first = source.take first := by
    rw [mixed, take_append_of_le_length (by omega), take_take, Nat.min_self]
  have rest : (mixed source reference first).drop last = reference.drop last := by
    rw [mixed, drop_append, frontLength, drop_drop, drop_eq_nil_of_le (by omega),
      nil_append]
    congr 1
    omega
  have noHole : first - (mixed source reference first).length = 0 := by
    rw [mixed_length source reference first same]
    omega
  rw [overlay, front, noHole, chunkLength, show first + (last - first) = last by omega, rest,
    replicate_zero, append_nil, slice, ← take_add, mixed]
  congr 2
  omega

theorem compressRound_emits (max first last offset : Nat)
    (output : Bytes) (offset' : Nat) (output' : Bytes)
    (before : offset ≤ first) (started : first < last) (inside : last ≤ source.length)
    (same : source.length = reference.length)
    (success : compressRound source max first last offset output = some (offset', output')) :
    offset' = last ∧
      Emits ⟨offset, mixed source reference first, output⟩
        ⟨last, mixed source reference last, output'⟩ := by
  have imageLength := mixed_length source reference first same
  simp only [compressRound] at success
  cases filled : fillOffset first max (offset + blockMax) offset output with
  | none => simp [filled] at success
  | some pair =>
    obtain ⟨middle, bytes⟩ := pair
    simp only [filled] at success
    obtain ⟨fill, low, high⟩ := fillOffset_emits (mixed source reference first) first max _
      offset output middle bytes rfl before (by omega) filled
    obtain ⟨finished, blocks⟩ := writeBlocks_emits source (mixed source reference first) last max
      first middle bytes offset' output' low high (by omega) (by omega) inside (by omega) success
    rw [overlay_mixed source reference first last (by omega) inside same] at blocks
    exact ⟨finished, Emits.trans fill blocks⟩

def Marks (input source reference : Bytes) : Prop :=
  ∀ index, index < source.length → input.getD index 0 = 0 → source[index]? = reference[index]?

theorem compressFrom_emits (input source reference : Bytes) (max first offset : Nat)
    (output output' : Bytes) (before : offset ≤ first) (inside : first ≤ source.length)
    (same : source.length = reference.length) (marks : Marks input source reference)
    (success : compressFrom input source source.length max first offset output = some output') :
    ∃ spot, spot ≤ source.length ∧
      Emits ⟨offset, mixed source reference first, output⟩ ⟨spot, source, output'⟩ := by
  have ahead := le_blockFirst input source.length first
  have low := blockFirst_le input source.length first inside
  have skip : mixed source reference first =
      mixed source reference (blockFirst input source.length first) :=
    mixed_advance source reference first _ ahead fun index above below =>
      marks index (by omega) (blockFirst_zero input source.length first index above below)
  fun_induction compressFrom input source source.length max first offset output with
  | case1 first offset output start finished =>
    obtain rfl := some.inj success
    have atEnd : blockFirst input source.length first = source.length := by omega
    refine ⟨offset, by omega, ?_⟩
    rw [skip, atEnd, mixed, same, drop_length, ← same, take_length, append_nil]
    exact Emits.refl _
  | case2 first offset output start open_ last failed => simp at success
  | case3 first offset output start open_ last offset' bytes round ih =>
    have behind : start + 1 ≤ last := le_blockLast input source.length (start + 1)
    have lastInside : last ≤ source.length :=
      blockLast_le input source.length (start + 1) (by omega)
    obtain ⟨rfl, emitted⟩ := compressRound_emits source reference max start last offset output
      offset' bytes (by omega) (by omega) lastInside same round
    have nextAhead := le_blockFirst input source.length last
    obtain ⟨spot, bound, later⟩ := ih (by omega) lastInside success nextAhead
      (blockFirst_le input source.length last lastInside)
      (mixed_advance source reference last _ nextAhead fun index above below =>
        marks index (by
          have := blockFirst_le input source.length last lastInside
          omega) (blockFirst_zero input source.length last index above below))
    refine ⟨spot, bound, ?_⟩
    rw [skip]
    exact Emits.trans emitted later

theorem compressBlock_hunks (input source reference : Bytes) (max : Nat)
    (output : Bytes) (same : source.length = reference.length)
    (marks : Marks input source reference)
    (success : compressBlock input source source.length max = some output) :
    ∃ hunks, (∀ hunk ∈ hunks, hunk.Small) ∧ output = encodeHunks hunks ∧
      finishHunks 0 hunks ≤ source.length ∧ patch 0 reference hunks = source := by
  obtain ⟨spot, bound, hunks, small, spotEq, imageEq, outputEq⟩ :=
    compressFrom_emits input source reference max 0 0 [] output (Nat.le_refl 0) (Nat.zero_le _)
      same marks success
  simp only [mixed, take_zero, drop_zero, nil_append] at imageEq outputEq
  simp only at spotEq
  exact ⟨hunks, small, outputEq, by omega, imageEq.symm⟩

theorem compressBlock_nil (input source reference : Bytes) (max : Nat)
    (same : source.length = reference.length) (marks : Marks input source reference)
    (success : compressBlock input source source.length max = some []) : source = reference := by
  obtain ⟨hunks, -, outputEq, -, patched⟩ :=
    compressBlock_hunks input source reference max [] same marks success
  rw [(encodeHunks_eq_nil hunks).mp outputEq.symm] at patched
  exact patched.symm

theorem blockFirst_all_zero (size first : Nat) (bound : first ≤ size)
    (zero : ∀ index, input.getD index 0 = 0) : blockFirst input size first = size := by
  fun_induction blockFirst input size first with
  | case1 first inside differs => exact absurd (zero first) differs
  | case2 first inside same ih => exact ih (by omega)
  | case3 first outside => omega

theorem compressBlock_all_zero (input source : Bytes) (size max : Nat)
    (zero : ∀ index, input.getD index 0 = 0) :
    compressBlock input source size max = some [] := by
  rw [compressBlock, compressFrom]
  simp only [blockFirst_all_zero input size 0 (Nat.zero_le size) zero]
  rw [if_pos (Nat.le_refl size)]

theorem uncompressWith_copy (fits : Nat → Nat → Bool) (block : Nat → UInt8)
    (room mdataSize size it spot : Nat) (image : Bytes) (inside : it < size)
    (nonempty : 0 < (block (it + 1)).toNat)
    (fit : fits (spot + (block it).toNat + (block (it + 1)).toNat) mdataSize = true)
    (enough : it + 2 + (block (it + 1)).toNat ≤ room) :
    uncompressWith fits block room mdataSize size it spot image =
      uncompressWith fits block room mdataSize size (it + (block (it + 1)).toNat + 2)
        (spot + (block it).toNat + (block (it + 1)).toNat)
        (overlay image (spot + (block it).toNat)
          (window block (it + 2) (block (it + 1)).toNat)) := by
  rw [uncompressWith, if_pos inside, if_neg (by omega)]
  simp only
  rw [if_pos ⟨nonempty, fit⟩, if_neg (by omega)]

theorem uncompressWith_skip (fits : Nat → Nat → Bool) (block : Nat → UInt8)
    (room mdataSize size it spot : Nat) (image : Bytes) (inside : it < size)
    (empty : (block (it + 1)).toNat = 0) (enough : it + 1 < room) :
    uncompressWith fits block room mdataSize size it spot image =
      uncompressWith fits block room mdataSize size (it + 2) (spot + (block it).toNat) image := by
  rw [uncompressWith, if_pos inside, if_neg (by omega)]
  simp only [empty]
  rw [if_neg (by omega), if_neg (by omega)]

theorem uncompressWith_stop (fits : Nat → Nat → Bool) (block : Nat → UInt8)
    (room mdataSize size it spot : Nat) (image : Bytes) (inside : it < size)
    (enough : it + 1 < room) (nonempty : 0 < (block (it + 1)).toNat)
    (unfit : fits (spot + (block it).toNat + (block (it + 1)).toNat) mdataSize = false) :
    uncompressWith fits block room mdataSize size it spot image = .ok (false, image) := by
  rw [uncompressWith, if_pos inside, if_neg (by omega)]
  simp only [unfit, Bool.false_eq_true, and_false, if_false]
  rw [if_pos nonempty]

theorem uncompressWith_end (fits : Nat → Nat → Bool) (block : Nat → UInt8)
    (room mdataSize size it spot : Nat) (image : Bytes) (atEnd : size ≤ it) :
    uncompressWith fits block room mdataSize size it spot image = .ok (true, image) := by
  rw [uncompressWith, if_neg (by omega)]

/-- The driver's decoder applies a coded patch that stays inside the structure. -/
theorem uncompress_encodeHunks (room mdataSize : Nat) (hunks : List Hunk)
    (it spot : Nat) (image : Bytes) (small : ∀ hunk ∈ hunks, hunk.Small)
    (held : window block it (encodeHunks hunks).length = encodeHunks hunks)
    (enough : it + (encodeHunks hunks).length ≤ room)
    (imageLength : image.length = mdataSize) (inside : finishHunks spot hunks ≤ mdataSize) :
    uncompressWith (fun finish mdataSize => finish ≤ mdataSize) block room mdataSize
        (it + (encodeHunks hunks).length) it spot image =
      .ok (true, patch spot image hunks) := by
  induction hunks generalizing it spot image with
  | nil => exact uncompressWith_end _ _ _ _ _ _ _ _ (Nat.le_refl _)
  | cons hunk rest ih =>
    obtain ⟨gapSmall, lengthSmall⟩ := small hunk mem_cons_self
    rw [encodeHunks_cons, window_eq_append] at held
    obtain ⟨here, later⟩ := held
    rw [Hunk.encode, window_eq_cons, window_eq_cons] at here
    obtain ⟨atGap, atLength, atData⟩ := here
    have gapEq : (block it).toNat = hunk.gap := by
      rw [atGap, UInt8.toNat_ofNat', Nat.mod_eq_of_lt (by omega)]
    have lengthEq : (block (it + 1)).toNat = hunk.data.length := by
      rw [atLength, UInt8.toNat_ofNat', Nat.mod_eq_of_lt (by omega)]
    have restInside := le_finishHunks (hunk.finish spot) rest
    simp only [finishHunks] at inside
    rw [encodeHunks_cons, length_append, Hunk.encode_length] at enough ⊢
    rw [Hunk.encode_length] at later
    have hereInside : spot + hunk.gap + hunk.data.length ≤ mdataSize :=
      Nat.le_trans restInside inside
    have tail := ih (it + (hunk.data.length + 2)) (hunk.finish spot)
      (overlay image (spot + hunk.gap) hunk.data)
      (fun other member => small other (mem_cons_of_mem hunk member)) later (by omega)
      (by rw [overlay_length_of_le _ _ _ (by omega)]; exact imageLength) inside
    rw [← Nat.add_assoc]
    by_cases empty : hunk.data.length = 0
    · have noData : hunk.data = [] := eq_nil_of_length_eq_zero empty
      rw [uncompressWith_skip _ _ _ _ _ _ _ _ (by omega) (by omega) (by omega), gapEq]
      rw [noData, overlay_nil _ _ (by omega)] at tail
      simp only [Hunk.finish, noData, length_nil, Nat.add_zero, Nat.zero_add] at tail ⊢
      rw [tail, patch, noData, overlay_nil _ _ (by omega)]
      simp only [Hunk.finish, noData, length_nil, Nat.add_zero]
    · rw [uncompressWith_copy _ _ _ _ _ _ _ _ (by omega) (by omega)
        (by simp only [gapEq, lengthEq, decide_eq_true_eq]; exact hereInside) (by omega),
        gapEq, lengthEq, atData]
      exact tail

theorem marks_xor (same : source.length = reference.length) :
    Marks (List.zipWith (· ^^^ ·) source reference) source reference := by
  intro index bound zero
  have bound' : index < reference.length := by omega
  rw [getD_eq_getElem?_getD, getElem?_zipWith, getElem?_eq_getElem bound,
    getElem?_eq_getElem bound'] at zero
  simp only [getD_some] at zero
  rw [getElem?_eq_getElem bound, getElem?_eq_getElem bound']
  congr 1
  exact UInt8.xor_eq_zero_iff.mp zero

/-- What `CompressBlock` makes of the difference to a reference, the driver's
decoder applies to the reference to get the source back. -/
theorem uncompress_compressBlock (same : source.length = reference.length)
    (success : compressBlock (List.zipWith (· ^^^ ·) source reference) source source.length max =
      some output)
    (held : window block 0 output.length = output) (enough : output.length ≤ room) :
    ar9300UncompressBlock reference source.length block room output.length =
      .ok (true, source) := by
  obtain ⟨hunks, small, outputEq, inside, patched⟩ := compressBlock_hunks _ source reference max
    output same (marks_xor source reference same) success
  subst outputEq
  have decoded := uncompress_encodeHunks block room source.length hunks 0 0 reference small held
    (by omega) same.symm inside
  rw [Nat.zero_add, patched] at decoded
  exact decoded

theorem compressBlock_round_trip (reference image : Bytes) (max : Nat) (output : Bytes)
    (same : image.length = reference.length)
    (success : compressBlock (List.zipWith (· ^^^ ·) image reference) image image.length max =
      some output) :
    ar9300UncompressBlock reference image.length (fun index => output.getD index 0) output.length
      output.length = .ok (true, image) := by
  apply uncompress_compressBlock image reference max output.length output _ same success
  · apply ext_getElem?
    intro index
    by_cases bound : index < output.length
    · rw [window_getElem? _ _ _ _ bound, Nat.zero_add, getD_eq_getElem?_getD,
        getElem?_eq_getElem bound]
      rfl
    · rw [List.getElem?_eq_none (by rw [window_length]; omega),
        List.getElem?_eq_none (by omega)]
  · exact Nat.le_refl _

/-- A difference in the very last byte. -/
theorem compressBlock_round_trip_last :
    compressBlock [0, 0, 5] [1, 2, 3] 3 2048 = some [2, 1, 3] ∧
      ar9300UncompressBlock [1, 2, 6] 3 (fun index => [2, 1, 3].getD index 0) 3 3 =
        .ok (true, [1, 2, 3]) := by
  have success : compressBlock [0, 0, 5] [1, 2, 3] 3 2048 = some [2, 1, 3] := by decide +kernel
  exact ⟨success, compressBlock_round_trip [1, 2, 6] [1, 2, 3] 2048 [2, 1, 3] rfl success⟩

end AthApps.Cal
