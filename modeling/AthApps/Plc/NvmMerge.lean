import AthApps.Plc.NvmChain
import Mathlib.Algebra.Order.BigOperators.Group.List
import Mathlib.Algebra.Order.Group.Nat
import Mathlib.Data.List.Nodup

/-!
# Merging and splitting firmware files

On the layout of valid images each of the three programs runs to its end:
`chknvm` accepts, `nvmmerge` lays the images of all files out in one chain and
`nvmsplit` lays every image out on its own.  With the parse of accepted files
this makes merging and splitting inverse to each other.
-/

set_option autoImplicit false

namespace AthApps.Plc

open AthApps.Lib List

def atEnd (content : Bytes) : Stream := ⟨content, content.length⟩

@[simp] theorem atEnd_write (content data : Bytes) :
    (atEnd content).write data = atEnd (content ++ data) := by
  simp [atEnd, Stream.write, overlay_at_end]

theorem read_front (front body rest : Bytes) (extent : Nat) (exact : body.length = extent) :
    (⟨front ++ (body ++ rest), front.length⟩ : Stream).read extent =
      (body, ⟨front ++ (body ++ rest), front.length + extent⟩) := by
  have chunk : slice (front ++ (body ++ rest)) front.length extent = body := by
    rw [slice_append_right, take_append_of_le_length (by omega), take_of_length_le]
    omega
  rw [Stream.read]
  simp only [chunk, exact]

section Image

variable (front body rest : Bytes)

theorem readHeader_at (cantRead name : String) (number : Nat) (image : NvmImage)
    (next expected : Word) (valid : image.Valid) (position : front.length = expected.toNat) :
    readHeader cantRead name number
        ⟨front ++ ((image.sealed next).toBytes ++ rest), front.length⟩ expected =
      .ok (image.sealed next,
        ⟨front ++ ((image.sealed next).toBytes ++ rest), front.length + headerNvmSize⟩) := by
  rw [readHeader_ok_iff]
  refine ⟨position, ?_, ?_, valid.version, rfl, rfl⟩
  · simp only [length_append, HeaderNvm.toBytes_length]
    omega
  · have chunk := congrArg Prod.fst (read_front front (image.sealed next).toBytes rest
      headerNvmSize rfl)
    simp only [Stream.read_fst] at chunk
    rw [chunk, HeaderNvm.ofBytes_toBytes]

theorem read_chunk (content : Bytes) (round : Nat) (layout : content = front ++ (body ++ rest))
    (inside : round ≤ body.length) :
    (⟨content, front.length⟩ : Stream).read round =
      (body.take round, ⟨content, (front ++ body.take round).length⟩) := by
  have chunk : (body.take round).length = round := by
    rw [length_take]
    omega
  have split : content = front ++ (body.take round ++ (body.drop round ++ rest)) := by
    rw [layout, ← append_assoc (body.take round), take_append_drop]
  rw [split, read_front front _ _ round chunk, length_append, chunk]

theorem layout_chunk (content : Bytes) (round : Nat) (layout : content = front ++ (body ++ rest)) :
    content = (front ++ body.take round) ++ (body.drop round ++ rest) := by
  rw [layout, append_assoc, ← append_assoc (body.take round), take_append_drop]

end Image

/-- Both copy loops copy the bytes of an image that are all there. -/
theorem image_copies (failure : String) (content rest : Bytes) : ∀ (fuel length : Nat)
    (front body out : Bytes), content = front ++ (body ++ rest) → 0 < length →
    body.length ≤ fuel → mergeImage fuel body.length length ⟨content, front.length⟩ (atEnd out) =
          some (⟨content, (front ++ body).length⟩, atEnd (out ++ body)) ∧
        splitImage failure fuel body.length length ⟨content, front.length⟩ (atEnd out) =
          some (.ok (⟨content, (front ++ body).length⟩, atEnd (out ++ body))) := by
  intro fuel
  induction fuel with
  | zero =>
    intro length front body out layout positive enough
    have empty : body = [] := eq_nil_of_length_eq_zero (by omega)
    simp [empty, mergeImage, splitImage]
  | succ fuel ih =>
    intro length front body out layout positive enough
    by_cases empty : body = []
    · simp [empty, mergeImage, splitImage]
    · obtain ⟨offset, exact⟩ : ∃ offset, body.length = offset + 1 :=
        Nat.exists_eq_succ_of_ne_zero fun zero => empty (eq_nil_of_length_eq_zero zero)
      obtain ⟨round, round_eq⟩ : ∃ round, round = if length > offset + 1 then offset + 1
        else length := ⟨_, rfl⟩
      have inside : round ≤ body.length ∧ 0 < round := by
        rw [round_eq]
        split <;> omega
      have chunk : (body.take round).length = round := by
        rw [length_take]
        omega
      have step := ih round (front ++ body.take round) (body.drop round) (out ++ body.take round)
        (layout_chunk front body rest content round layout) inside.2
        (by rw [length_drop]; omega)
      rw [length_drop, exact, append_assoc, append_assoc, take_append_drop] at step
      rw [exact, mergeImage, splitImage]
      simp only [← round_eq]
      rw [read_chunk front body rest content round layout inside.1]
      simp only [chunk, atEnd_write, Nat.lt_irrefl, if_false]
      exact step

theorem fdchecksum32_body (front body rest : Bytes) (checksum : Word)
    (aligned : body.length % 4 = 0) :
    fdchecksum32 ⟨front ++ (body ++ rest), front.length⟩ body.length checksum =
      (checksum32 body checksum, ⟨front ++ (body ++ rest), (front ++ body).length⟩) := by
  have chunk := congrArg Prod.fst (read_front front body rest body.length rfl)
  simp only [Stream.read_fst] at chunk
  obtain ⟨words, exact⟩ : ∃ words, body.length = 4 * words := ⟨body.length / 4, by omega⟩
  rw [exact] at chunk ⊢
  rw [fdchecksum32_inside words _ _ (by simp only [length_append]; omega)]
  simp only [chunk, length_append, exact, Stream.seek]

variable (front : Bytes)

variable (index : Nat) (out : Bytes) (image : NvmImage)

theorem front_header_length (next : Word) :
    (front ++ (image.sealed next).toBytes).length = front.length + headerNvmSize := by
  rw [length_append, HeaderNvm.toBytes_length]

theorem front_image_length (next : Word) :
    (front ++ (image.sealed next).toBytes ++ image.bytes).length = front.length + image.size := by
  rw [length_append, front_header_length, NvmImage.size, Nat.add_assoc]

/-- The address in the first header of a chain: zero at the end, else the place
where the rest of the chain starts. -/
theorem chain_next (rest : List NvmImage) (next : Word)
    (small : front.length + chainLength (image :: rest) < 2 ^ 32)
    (next_eq : nextAddress (front.length + image.size) false rest = next) :
    (next = Word.zero ↔ rest = []) ∧ (rest ≠ [] →
        (front ++ (image.sealed next).toBytes ++ image.bytes).length = next.toNat) := by
  rw [chainLength_cons] at small
  have positive : 0 < front.length + image.size := by
    simp only [NvmImage.size, headerNvmSize]
    omega
  subst next_eq
  cases rest with
  | nil => exact ⟨by simp [nextAddress], fun nonempty => absurd rfl nonempty⟩
  | cons later rest =>
    have value : (nextAddress (front.length + image.size) false (later :: rest)).toNat =
        front.length + image.size := Word.toNat_ofNat _ (by omega)
    refine ⟨⟨fun zero => ?_, fun empty => ?_⟩, fun _ =>
      (front_image_length front image _).trans value.symm⟩
    · rw [zero, Word.toNat_zero] at value
      omega
    · cases empty

/-- The images lie behind `front`, where the header before them says. -/
structure Chained (content front : Bytes) (images : List NvmImage) (expected : Word) : Prop where
  nonempty : images ≠ []
  valid : ∀ image ∈ images, image.Valid
  position : front.length = expected.toNat
  small : front.length + chainLength images < 2 ^ 32
  layout : content = front ++ chain front.length false images

/-- One round of a walk along a chain: the header of an image names the place of
the rest of the chain, or zero where there is none. -/
structure Round (content front : Bytes) (image : NvmImage) (rest : List NvmImage)
    (expected next : Word) (tail : Bytes) : Prop where
  valid : image.Valid
  layout : content = front ++ ((image.sealed next).toBytes ++ (image.bytes ++ tail))
  position : front.length = expected.toNat
  last : next = Word.zero ↔ rest = []
  tail : rest = [] → tail = []
  place : rest ≠ [] → (front ++ (image.sealed next).toBytes ++ image.bytes).length = next.toNat

theorem chain_walk {content : Bytes} {motive : Bytes → List NvmImage → Word → Prop}
    (round : ∀ front image rest expected next tail,
      Round content front image rest expected next tail →
      (rest ≠ [] → motive (front ++ (image.sealed next).toBytes ++ image.bytes) rest next) →
        motive front (image :: rest) expected) (images : List NvmImage) :
    ∀ (front : Bytes) (expected : Word), Chained content front images expected →
      motive front images expected := by
  induction images with
  | nil => exact fun front expected chained => absurd rfl chained.nonempty
  | cons image rest ih =>
    rintro front expected ⟨-, valid, position, small, layout⟩
    obtain ⟨next, next_eq⟩ : ∃ next,
        nextAddress (front.length + image.size) false rest = next := ⟨_, rfl⟩
    obtain ⟨last, place⟩ := chain_next front image rest next small next_eq
    rw [chain, next_eq] at layout
    rw [chainLength_cons] at small
    refine round front image rest expected next _ ⟨valid image mem_cons_self, layout, position,
      last, fun empty => by rw [empty, chain], place⟩ fun more => ih _ next ⟨more,
      fun later member => valid later (mem_cons_of_mem _ member), place more, ?_, ?_⟩
    · rw [front_image_length]
      omega
    · rw [front_image_length, layout]
      simp only [append_assoc]

namespace Round

variable {content front tail : Bytes} {image : NvmImage} {rest : List NvmImage}
  {expected next : Word}

theorem header (round : Round content front image rest expected next tail)
    (cantRead name : String) (number : Nat) :
    readHeader cantRead name number ⟨content, front.length⟩ expected =
      .ok (image.sealed next, ⟨content, (front ++ (image.sealed next).toBytes).length⟩) := by
  rw [round.layout, front_header_length]
  exact readHeader_at front _ cantRead name number image next expected round.valid round.position

theorem length (round : Round content front image rest expected next tail) :
    (image.sealed next).imageLength.toNat = image.bytes.length := round.valid.length

theorem body (round : Round content front image rest expected next tail) :
    content = (front ++ (image.sealed next).toBytes) ++ (image.bytes ++ tail) := by
  rw [round.layout, append_assoc]

theorem atEnd (round : Round content front image rest expected next tail) (last : rest = []) :
    (⟨content, (front ++ (image.sealed next).toBytes ++ image.bytes).length⟩ : Stream) =
      Plc.atEnd content := by
  rw [Plc.atEnd, round.body, round.tail last, append_nil]

end Round

variable {content : Bytes} {images : List NvmImage} {expected : Word}

theorem chknvmLoop_chain (name : String) (chained : Chained content front images expected) :
    ∀ fuel number, images.length ≤ fuel →
      chknvmLoop name fuel number ⟨content, front.length⟩ expected =
        some (.ok (atEnd content)) := by
  refine chain_walk (motive := fun front images expected => ∀ fuel number, images.length ≤ fuel →
    chknvmLoop name fuel number ⟨content, front.length⟩ expected = some (.ok (atEnd content)))
    ?_ images front expected chained
  intro front image rest expected next tail round later fuel number enough
  rw [length_cons] at enough
  obtain ⟨fuel, rfl⟩ : ∃ less, fuel = less + 1 := ⟨fuel - 1, by omega⟩
  have body := fdchecksum32_body (front ++ (image.sealed next).toBytes) image.bytes tail
    image.header.imageChecksum round.valid.aligned
  rw [← round.body, round.valid.sum] at body
  rw [chknvmLoop, round.header]
  simp only [round.length]
  rw [show (image.sealed next).imageChecksum = image.header.imageChecksum from rfl, body]
  simp only [show (image.sealed next).nextHeader = next from rfl]
  by_cases last : rest = []
  · rw [if_neg (not_not.mpr rfl), if_neg (not_not.mpr (round.last.mpr last)), round.atEnd last]
  · rw [if_neg (not_not.mpr rfl), if_pos (mt round.last.mp last)]
    exact later last fuel _ (by omega)

theorem mergeHeader_sealed (rest : List NvmImage) (next : Word) (valid : image.Valid)
    (last_iff : next = Word.zero ↔ rest = []) :
    mergeHeader index (atEnd out) (image.sealed next) =
      image.sealed (nextAddress (out.length + image.size) (index != 0) rest) := by
  have length : (image.sealed next).imageLength.toNat = image.bytes.length := valid.length
  have following : (image.sealed next).nextHeader = next := rfl
  rw [mergeHeader, nextAddress, length, following]
  by_cases more : index ≠ 0 ∨ next ≠ Word.zero
  · have flag : (index != 0 || !rest.isEmpty) = true := by
      rcases more with file | image
      · simp [file]
      · have later : rest ≠ [] := mt last_iff.mpr image
        simp [later]
    rw [if_pos more, if_pos flag, NvmImage.size, ← Nat.add_assoc]
    rfl
  · have zero : index = 0 := by tauto
    have last : next = Word.zero := by tauto
    have flag : ¬(index != 0 || !rest.isEmpty) = true := by simp [zero, last_iff.mp last]
    rw [if_neg more, if_neg flag, last]
    rfl

theorem mergeLoop_chain (filename : String) (index : Nat) (chained : Chained content front images expected) :
    ∀ out fuel number, chainLength images ≤ fuel →
      mergeLoop filename index fuel number ⟨content, front.length⟩ (atEnd out) expected =
        some (.ok (atEnd (out ++ chain out.length (index != 0) images))) := by
  refine chain_walk (motive := fun front images expected => ∀ out fuel number,
    chainLength images ≤ fuel →
      mergeLoop filename index fuel number ⟨content, front.length⟩ (atEnd out) expected =
        some (.ok (atEnd (out ++ chain out.length (index != 0) images))))
    ?_ images front expected chained
  intro front image rest expected next tail round later out fuel number enough
  rw [chainLength_cons, NvmImage.size, headerNvmSize] at enough
  obtain ⟨fuel, rfl⟩ : ∃ less, fuel = less + 1 := ⟨fuel - 1, by omega⟩
  obtain ⟨address, address_eq⟩ : ∃ address,
      nextAddress (out.length + image.size) (index != 0) rest = address := ⟨_, rfl⟩
  have copied := (image_copies "" content tail fuel bufsiz
    (front ++ (image.sealed next).toBytes) image.bytes (out ++ (image.sealed address).toBytes)
    round.body (by decide) (by omega)).1
  rw [mergeLoop, round.header]
  simp only [mergeHeader_sealed index out image rest next round.valid round.last, address_eq,
    atEnd_write, round.length, show (image.sealed next).nextHeader = next from rfl]
  rw [copied, chain, address_eq, ← front_image_length out image address]
  simp only
  by_cases last : rest = []
  · rw [if_neg (not_not.mpr (round.last.mpr last)), last]
    simp [chain]
  · rw [if_pos (mt round.last.mp last), later last _ fuel (number + 1) (by omega)]
    simp only [append_assoc]

/-- The files that `nvmsplit` saves for images numbered from `number` on. -/
@[grind =] def splitParts (filename : String) : Nat → List NvmImage → List (String × Bytes)
  | _, [] => []
  | number, image :: rest =>
    (savename filename number, chain 0 false [image]) :: splitParts filename (number + 1) rest

theorem splitLoop_chain (filename : String) (chained : Chained content front images expected) :
    ∀ saved fuel number, chainLength images ≤ fuel →
      splitLoop filename fuel number ⟨content, front.length⟩ expected saved =
        some (.ok (saved ++ splitParts filename number images)) := by
  refine chain_walk (motive := fun front images expected => ∀ saved fuel number,
    chainLength images ≤ fuel →
      splitLoop filename fuel number ⟨content, front.length⟩ expected saved =
        some (.ok (saved ++ splitParts filename number images)))
    ?_ images front expected chained
  intro front image rest expected next tail round later saved fuel number enough
  rw [chainLength_cons, NvmImage.size, headerNvmSize] at enough
  obtain ⟨fuel, rfl⟩ : ∃ less, fuel = less + 1 := ⟨fuel - 1, by omega⟩
  have copied := (image_copies (imageMessage "Can't read image" filename number) content tail fuel
    bufsiz (front ++ (image.sealed next).toBytes) image.bytes (image.sealed Word.zero).toBytes
    round.body (by decide) (by omega)).2
  have single : (⟨[], 0⟩ : Stream).write { image.sealed next with
      nextHeader := Word.zero }.withChecksum.toBytes =
        atEnd (image.sealed Word.zero).toBytes := atEnd_write [] _
  have part : (image.sealed Word.zero).toBytes ++ image.bytes = chain 0 false [image] := by
    simp [chain, nextAddress]
  rw [splitLoop, round.header]
  simp only [single, round.length, show (image.sealed next).nextHeader = next from rfl]
  rw [copied]
  simp only [atEnd, part]
  by_cases last : rest = []
  · rw [if_neg (not_not.mpr (round.last.mpr last)), last]
    rfl
  · rw [if_pos (mt round.last.mp last), later last _ fuel (number + 1) (by omega), append_assoc]
    rfl

theorem imagesAt_chain (chained : Chained content front images expected) :
    ∀ fuel, images.length ≤ fuel → imagesAt fuel content front.length = images := by
  refine chain_walk (motive := fun front images _ => ∀ fuel, images.length ≤ fuel →
    imagesAt fuel content front.length = images)
    ?_ images front expected chained
  intro front image rest expected next tail round later fuel enough
  rw [length_cons] at enough
  obtain ⟨fuel, rfl⟩ : ∃ less, fuel = less + 1 := ⟨fuel - 1, by omega⟩
  have header := congrArg Prod.fst (read_front front (image.sealed next).toBytes
    (image.bytes ++ tail) headerNvmSize rfl)
  have body := congrArg Prod.fst (read_front (front ++ (image.sealed next).toBytes)
    image.bytes tail image.bytes.length rfl)
  rw [← round.body, front_header_length] at body
  rw [← round.layout] at header
  simp only [Stream.read_fst] at header body
  rw [imagesAt]
  simp only [header, HeaderNvm.ofBytes_toBytes, round.length, body,
    show (image.sealed next).bare = image.header from round.valid.bare,
    show (image.sealed next).nextHeader = next from rfl]
  by_cases last : rest = []
  · rw [if_neg (not_not.mpr (round.last.mpr last)), last]
  · rw [if_pos (mt round.last.mp last), ← round.place last, later last fuel (by omega)]

/-- `chknvm` returns 0 for the file. -/
def Accepted (file : String × Bytes) : Prop :=
  ∃ fuel, chknvm fuel file.1 file.2 = some (.ok ())

def WordAligned (content : Bytes) : Prop :=
  ∀ image ∈ nvmImages content, image.header.imageLength.toNat % 4 = 0

/-- An accepted file is the layout of its images, and these are valid. -/
structure IsChain (content : Bytes) (images : List NvmImage) : Prop where
  layout : content = chain 0 false images
  nonempty : images ≠ []
  valid : ∀ image ∈ images, image.Valid

theorem isChain_of_accepted (file : String × Bytes) (accepted : Accepted file)
    (aligned : WordAligned file.2) : IsChain file.2 (nvmImages file.2) := by
  obtain ⟨fuel, success⟩ := accepted
  rw [chknvm] at success
  cases walk : chknvmLoop file.1 fuel 0 ⟨file.2, 0⟩ Word.zero with
  | none => simp [walk] at success
  | some result =>
    cases result with
    | error message => simp [walk] at success
    | ok after =>
      simp only [walk] at success
      by_cases atLength : after.position = file.2.length
      · have images : nvmImages file.2 = imagesAt fuel file.2 0 :=
          imagesAt_of_accepted _ _ _ _ _ _ walk (file.2.length + 1)
            (by simp only [Nat.zero_add]; omega)
        rw [WordAligned, images] at aligned
        obtain ⟨valid, nonempty, layout⟩ := chain_of_accepted _ _ _ _ _ _ walk aligned
        simp only [drop_zero, atLength, drop_length, append_nil] at layout
        rw [images]
        exact ⟨layout, nonempty, valid⟩
      · rw [if_pos atLength] at success
        cases success

namespace IsChain

variable {content : Bytes} {images : List NvmImage}

theorem length (isChain : IsChain content images) : content.length = chainLength images := by
  rw [isChain.layout, chain_length]

theorem chained (isChain : IsChain content images) (small : content.length < 2 ^ 31) :
    Chained content [] images Word.zero := by
  rw [isChain.length] at small
  exact ⟨isChain.nonempty, isChain.valid, rfl, by rw [length_nil]; omega, isChain.layout⟩

theorem accepted (isChain : IsChain content images) (small : content.length < 2 ^ 31)
    (name : String) : Accepted (name, content) := by
  refine ⟨images.length, ?_⟩
  have walk := chknvmLoop_chain [] name (isChain.chained small) images.length 0 (Nat.le_refl _)
  rw [length_nil] at walk
  rw [chknvm, walk]
  simp [atEnd]

theorem nvmImages_eq (isChain : IsChain content images) (small : content.length < 2 ^ 31) :
    nvmImages content = images := by
  have enough := length_le_chainLength images
  rw [← isChain.length] at enough
  exact imagesAt_chain [] (isChain.chained small) (content.length + 1) (by omega)

end IsChain

theorem flatMap_nonempty {files : List (String × Bytes)}
    {images : Bytes → List NvmImage} (nonempty : files ≠ [])
    (chains : ∀ file ∈ files, IsChain file.2 (images file.2)) :
    (files.flatMap fun file => images file.2) ≠ [] := by
  obtain ⟨file, rest, rfl⟩ := exists_cons_of_ne_nil nonempty
  intro empty
  rw [flatMap_cons] at empty
  exact (chains file mem_cons_self).nonempty (append_eq_nil_iff.mp empty).1

theorem mergeFiles_chain (images : Bytes → List NvmImage) (fuel : Nat) :
    ∀ (files : List (String × Bytes)) (out : Bytes),
    (∀ file ∈ files, IsChain file.2 (images file.2)) →
    (∀ file ∈ files, file.2.length < 2 ^ 31 ∧ file.2.length ≤ fuel) →
      mergeFiles fuel files (atEnd out) = some (.ok (atEnd (out ++
          chain out.length false (files.flatMap fun file => images file.2)))) := by
  intro files
  induction files with
  | nil =>
    intro out chains small
    simp [mergeFiles, chain]
  | cons file rest ih =>
    intro out chains small
    have fileChain := chains file mem_cons_self
    obtain ⟨fileSmall, fileFuel⟩ := small file mem_cons_self
    have walk := mergeLoop_chain [] file.1 rest.length (fileChain.chained fileSmall) out fuel 0
      (fileChain.length ▸ fileFuel)
    rw [length_nil] at walk
    have restChains : ∀ later ∈ rest, IsChain later.2 (images later.2) :=
      fun later member => chains later (mem_cons_of_mem _ member)
    -- a file follows exactly when an image follows, as every file has an image
    have more : (rest.length != 0) = !(rest.flatMap fun file => images file.2).isEmpty := by
      by_cases last : rest = []
      · simp [last]
      · obtain ⟨image, later, split⟩ :=
          exists_cons_of_ne_nil (flatMap_nonempty last restChains)
        rw [split]
        simp [last]
    rw [mergeFiles, walk]
    simp only
    rw [ih _ restChains (fun later member => small later (mem_cons_of_mem _ member)),
      flatMap_cons, chain_append, more, Bool.false_or, append_assoc,
      length_append, chain_length]

theorem chainLength_flatMap (images : Bytes → List NvmImage) (files : List (String × Bytes))
    (chains : ∀ file ∈ files, IsChain file.2 (images file.2)) :
    chainLength (files.flatMap fun file => images file.2) =
      (files.map fun file => file.2.length).sum := by
  induction files with
  | nil => rfl
  | cons file rest ih =>
    rw [flatMap_cons, map_cons, sum_cons, (chains file mem_cons_self).length,
      ← ih fun later member => chains later (mem_cons_of_mem _ member)]
    simp [chainLength]

theorem nvmmerge_chain (images : Bytes → List NvmImage) (fuel : Nat) (files : List (String × Bytes))
    (chains : ∀ file ∈ files, IsChain file.2 (images file.2))
    (small : ∀ file ∈ files, file.2.length < 2 ^ 31 ∧ file.2.length ≤ fuel) :
    nvmmerge fuel files = some (.ok (chain 0 false (files.flatMap fun file => images file.2))) := by
  have merged := mergeFiles_chain images fuel files [] chains small
  simp only [nil_append, length_nil] at merged
  rw [nvmmerge, show (⟨[], 0⟩ : Stream) = atEnd [] from rfl, merged]
  rfl

theorem twoDigits_value (number : Nat) : Nat.ofDigitChars 10 (twoDigits number).toList 0 = number := by
  rw [twoDigits]
  split
  · rw [String.toList_append, Nat.toString_eq_repr, Nat.toList_repr]
    exact Nat.ofDigitChars_ten_toDigits
  · rw [Nat.toString_eq_repr, Nat.toList_repr, Nat.ofDigitChars_ten_toDigits]

variable (filename : String)

theorem savename_injective {first second : Nat}
    (same : savename filename first = savename filename second) : first = second := by
  have lists := congrArg String.toList same
  simp only [savename, String.toList_append, append_assoc, append_cancel_left_eq] at lists
  have digits := append_cancel_right lists
  rw [← twoDigits_value first, ← twoDigits_value second, digits]

theorem splitParts_names : ∀ (images : List NvmImage) (number : Nat),
    (splitParts filename number images).map Prod.fst =
      (List.range' number images.length).map (savename filename) := by
  intro images
  induction images with
  | nil =>
    intro number
    rfl
  | cons image rest ih =>
    intro number
    simp only [splitParts, map_cons, ih, length_cons, range'_succ]

theorem splitParts_names_nodup (number : Nat) (images : List NvmImage) :
    ((splitParts filename number images).map Prod.fst).Nodup := by
  rw [splitParts_names]
  exact List.Nodup.map (fun _ _ same => savename_injective filename same) (nodup_range' 1)

theorem splitParts_contents : ∀ (images : List NvmImage) (number : Nat),
    (splitParts filename number images).map Prod.snd =
      images.map fun image => chain 0 false [image] := by
  intro images
  induction images with
  | nil =>
    intro number
    rfl
  | cons image rest ih =>
    intro number
    simp only [splitParts, map_cons, ih]

theorem chain_single_length (image : NvmImage) : (chain 0 false [image]).length = image.size := by
  rw [chain_length, chainLength_cons, chainLength, map_nil, sum_nil, Nat.add_zero]

theorem isChain_single (image : NvmImage) (valid : image.Valid) :
    IsChain (chain 0 false [image]) [image] :=
  ⟨rfl, cons_ne_nil _ _, fun _ member => mem_singleton.mp member ▸ valid⟩

theorem mem_splitParts (number : Nat) (images : List NvmImage)
    (part : String × Bytes) (member : part ∈ splitParts filename number images) :
    ∃ image ∈ images, part.2 = chain 0 false [image] := by
  have content : part.2 ∈ (splitParts filename number images).map Prod.snd := mem_map_of_mem member
  rw [splitParts_contents] at content
  obtain ⟨image, imageMember, same⟩ := mem_map.mp content
  exact ⟨image, imageMember, same.symm⟩

theorem size_le_chainLength (image : NvmImage) (images : List NvmImage) (member : image ∈ images) :
    image.size ≤ chainLength images := by
  rw [chainLength]
  exact single_le_sum (fun _ _ => Nat.zero_le _) _ (mem_map_of_mem member)

/-- Merging accepted files gives an accepted file with the images of all of
them, and splitting an accepted file gives accepted single image files, each
under a name of its own, whose merge is the file again. -/
theorem nvmmerge_nvmsplit_inverse :
    (∀ files : List (String × Bytes), files ≠ [] → (∀ file ∈ files, Accepted file) →
      (∀ file ∈ files, WordAligned file.2) →
      (files.map fun file => file.2.length).sum < 2 ^ 31 →
        ∃ fuel out, nvmmerge fuel files = some (.ok out) ∧ (∀ name, Accepted (name, out)) ∧
          nvmImages out = files.flatMap fun file => nvmImages file.2) ∧
    (∀ file : String × Bytes, Accepted file → WordAligned file.2 → file.2.length < 2 ^ 31 →
        ∃ fuel parts, nvmsplit fuel file.1 file.2 = some (.ok parts) ∧ (parts.map Prod.fst).Nodup ∧
          (∀ part ∈ parts, Accepted part ∧ (nvmImages part.2).length = 1) ∧
          ∃ fuel, nvmmerge fuel parts = some (.ok file.2)) := by
  constructor
  · intro files nonempty accepted aligned small
    have chains : ∀ file ∈ files, IsChain file.2 (nvmImages file.2) := fun file member =>
      isChain_of_accepted file (accepted file member) (aligned file member)
    have bounded : ∀ file ∈ files, file.2.length ≤ (files.map fun file => file.2.length).sum :=
      fun file member => single_le_sum (fun _ _ => Nat.zero_le _) _ (mem_map_of_mem member)
    have isChain : IsChain (chain 0 false (files.flatMap fun file => nvmImages file.2))
        (files.flatMap fun file => nvmImages file.2) := by
      refine ⟨rfl, flatMap_nonempty nonempty chains, fun image member => ?_⟩
      obtain ⟨file, fileMember, imageMember⟩ := mem_flatMap.mp member
      exact (chains file fileMember).valid image imageMember
    have outSmall : (chain 0 false (files.flatMap fun file => nvmImages file.2)).length <
        2 ^ 31 := by
      rw [chain_length, chainLength_flatMap nvmImages files chains]
      exact small
    refine ⟨_, _, nvmmerge_chain nvmImages (2 ^ 31) files chains fun file member => ?_,
      isChain.accepted outSmall, isChain.nvmImages_eq outSmall⟩
    have bound := bounded file member
    omega
  · intro file accepted aligned small
    have isChain := isChain_of_accepted file accepted aligned
    have length := isChain.length
    have split := splitLoop_chain [] file.1 (isChain.chained small) [] _ 0 (Nat.le_refl _)
    rw [nil_append] at split
    have parts : ∀ part ∈ splitParts file.1 0 (nvmImages file.2), part.2.length < 2 ^ 31 ∧
        ∃ image ∈ nvmImages file.2, IsChain part.2 [image] := by
      intro part member
      obtain ⟨image, imageMember, content⟩ := mem_splitParts _ _ _ _ member
      have single := isChain_single image (isChain.valid image imageMember)
      have bound := size_le_chainLength image _ imageMember
      rw [content]
      refine ⟨?_, image, imageMember, single⟩
      rw [chain_single_length]
      omega
    refine ⟨_, _, split, splitParts_names_nodup _ _ _, fun part member => ?_, 2 ^ 31, ?_⟩
    · obtain ⟨partSmall, image, -, single⟩ := parts part member
      refine ⟨single.accepted partSmall part.1, ?_⟩
      rw [single.nvmImages_eq partSmall]
      rfl
    · have merged := nvmmerge_chain nvmImages (2 ^ 31) (splitParts file.1 0 (nvmImages file.2))
        (fun part member => by
          obtain ⟨partSmall, image, -, single⟩ := parts part member
          rw [single.nvmImages_eq partSmall]
          exact single)
        (fun part member => ⟨(parts part member).1, Nat.le_of_lt (parts part member).1⟩)
      have images : ((splitParts file.1 0 (nvmImages file.2)).flatMap fun part =>
          nvmImages part.2) = nvmImages file.2 := by
        rw [← flatMap_map Prod.snd nvmImages, splitParts_contents, flatMap_map]
        refine (flatMap_congr fun image member => ?_).trans (flatMap_singleton' _)
        have single := isChain_single image (isChain.valid image member)
        have bound := size_le_chainLength image _ member
        refine single.nvmImages_eq ?_
        rw [chain_single_length]
        omega
      rw [merged, images, ← isChain.layout]

def smallNvm : String × Bytes :=
  ("small.nvm",
    [0x00, 0x00, 0x00, 0x60, 0, 0, 0, 0, 0, 0, 0, 0, 0x04, 0, 0, 0, 0xFE, 0xFD, 0xFC, 0xFB,
      0, 0, 0, 0, 0, 0, 0, 0, 0, 0, 0, 0, 0, 0, 0, 0, 0, 0, 0, 0, 0x05, 0x02, 0x03, 0x64,
      1, 2, 3, 4])

theorem smallNvm_accepted : Accepted smallNvm := ⟨1, by decide⟩

theorem smallNvm_aligned : WordAligned smallNvm.2 := by
  unfold WordAligned
  decide

/-- Two copies of the file are merged, and the file is split and merged again. -/
theorem nvmmerge_nvmsplit_small : (∃ fuel out, nvmmerge fuel [smallNvm, smallNvm] = some (.ok out) ∧
      (∀ name, Accepted (name, out)) ∧
      nvmImages out = [smallNvm, smallNvm].flatMap fun file => nvmImages file.2) ∧
    (∃ fuel parts, nvmsplit fuel smallNvm.1 smallNvm.2 = some (.ok parts) ∧
      (parts.map Prod.fst).Nodup ∧
      (∀ part ∈ parts, Accepted part ∧ (nvmImages part.2).length = 1) ∧
      ∃ fuel, nvmmerge fuel parts = some (.ok smallNvm.2)) := by
  constructor
  · refine nvmmerge_nvmsplit_inverse.1 [smallNvm, smallNvm] (cons_ne_nil _ _) ?_ ?_ (by decide)
    · intro file member
      rw [mem_cons, mem_singleton, or_self] at member
      exact member ▸ smallNvm_accepted
    · intro file member
      rw [mem_cons, mem_singleton, or_self] at member
      exact member ▸ smallNvm_aligned
  · exact nvmmerge_nvmsplit_inverse.2 smallNvm smallNvm_accepted smallNvm_aligned (by decide)

end AthApps.Plc
