import AthApps.Plc.NvmMerge

/-!
# Merges that end

The copy loop of `nvmmerge.c` counts the rest of an image down in a signed
`offset`.  The test after its `read` compares the number of bytes read with
itself, so at the end of a file nothing is counted down any more and the loop
goes on.  An image length from 2^31 on is negative; then `read` is asked for
more than the buffer holds.
-/

set_option autoImplicit false

namespace AthApps.Plc

open AthApps.Lib List

/-- Ways not to return: an `error` with status 1, and bytes written behind `buffer`. -/
inductive Stop where
  | message (text : String)
  | overrun
  deriving DecidableEq

def signed (value : Int) : Int := value.bmod 4294967296

/-- The count of a `read`; a negative one is more than any file has. -/
def readCount (length : Int) (ifd : Stream) : Nat :=
  if length < 0 then ifd.content.length else length.toNat

/-- `while (offset)`; the fuel is the number of rounds that are looked at. -/
@[grind =] def copyImage : Nat → Int → Int → Stream → Stream → Option (Except Stop (Stream × Stream))
  | 0, offset, _, ifd, out => if offset = 0 then some (.ok (ifd, out)) else none
  | fuel + 1, offset, length, ifd, out =>
    if offset = 0 then some (.ok (ifd, out))
    else
      let length := if length > offset then offset else length
      let (buffer, ifd) := ifd.read (readCount length ifd)
      if buffer.length > bufsiz then some (.error .overrun)
      else copyImage fuel (signed (offset - buffer.length)) buffer.length ifd (out.write buffer)

@[grind =] def copyLoop (filename : String) (index : Nat) :
    Nat → Nat → Stream → Stream → Word → Option (Except Stop Stream)
  | 0, _, _, _, _ => none
  | fuel + 1, image, ifd, out, expected =>
    match readHeader "Can't read header" filename image ifd expected with
    | .error text => some (.error (.message text))
    | .ok (header, ifd) =>
      match copyImage fuel (signed header.imageLength.toNat) bufsiz ifd
          (out.write (mergeHeader index out header).toBytes) with
      | none => none
      | some (.error stop) => some (.error stop)
      | some (.ok (ifd, out)) =>
        if header.nextHeader ≠ Word.zero then
          copyLoop filename index fuel (image + 1) ifd out header.nextHeader
        else some (.ok out)

@[grind =] def copyFiles (fuel : Nat) : List (String × Bytes) → Stream → Option (Except Stop Stream)
  | [], out => some (.ok out)
  | (filename, content) :: rest, out =>
    match copyLoop filename rest.length fuel 0 ⟨content, 0⟩ out Word.zero with
    | none => none
    | some (.error stop) => some (.error stop)
    | some (.ok out) => copyFiles fuel rest out

def nvmmergeRun (fuel : Nat) (files : List (String × Bytes)) : Option (Except Stop Stream) :=
  copyFiles fuel files ⟨[], 0⟩

section Copy

variable {offset length : Int} {ifd out : Stream}

theorem signed_of_nat {value : Nat} (small : value < 2147483648) : signed value = value := by
  unfold signed
  rw [Int.bmod_def]
  omega

theorem signed_signed (value : Int) : signed (signed value) = signed value := Int.bmod_bmod

variable {count extent : Nat}

/-- For image lengths below 2^31 the loop is the one that counts in natural numbers. -/
theorem copyImage_eq (fuel : Nat) (small : count < 2147483648) (short : extent ≤ bufsiz) :
    copyImage fuel count extent ifd out = (mergeImage fuel count extent ifd out).map Except.ok := by
  induction fuel generalizing count extent ifd out with
  | zero =>
    cases count with
    | zero => rfl
    | succ count => rfl
  | succ fuel ih =>
    cases count with
    | zero => rfl
    | succ count =>
      have round : (if (extent : Int) > ((count + 1 : Nat) : Int) then ((count + 1 : Nat) : Int)
          else (extent : Int)) = ((if extent > count + 1 then count + 1 else extent : Nat) : Int) := by
        split <;> split <;> omega
      have nonzero : ((count + 1 : Nat) : Int) ≠ 0 := by omega
      unfold copyImage
      simp only [if_neg nonzero, round]
      generalize bound : (if extent > count + 1 then count + 1 else extent) = chunk
      have limit : chunk ≤ bufsiz ∧ chunk ≤ count + 1 := by
        rw [← bound]
        split <;> omega
      have asked : readCount chunk ifd = chunk := by
        unfold readCount
        rw [if_neg (by omega)]
        exact Int.toNat_natCast chunk
      have got : (ifd.read chunk).1.length ≤ chunk := by
        rw [Stream.read_fst, slice_length]
        omega
      rw [asked, if_neg (by omega), mergeImage]
      simp only [bound]
      have rest : signed (((count + 1 : Nat) : Int) - ((ifd.read chunk).1.length : Int)) =
          ((count + 1 - (ifd.read chunk).1.length : Nat) : Int) := by
        rw [← signed_of_nat (by omega : count + 1 - (ifd.read chunk).1.length < 2147483648)]
        congr 1
        omega
      rw [rest]
      exact ih (by omega) (by omega)

theorem copyImage_end (fuel : Nat) (rest : offset ≠ 0) (range : signed offset = offset)
    (ended : ifd.content.length ≤ ifd.position) :
    copyImage fuel offset length ifd out = none := by
  induction fuel generalizing length ifd out with
  | zero => exact if_neg rest
  | succ fuel ih =>
    have nothing : ∀ extent, (ifd.read extent).1 = [] := by
      intro extent
      apply eq_nil_of_length_eq_zero
      rw [Stream.read_fst, slice_length]
      omega
    unfold copyImage
    rw [if_neg rest]
    simp only [nothing, length_nil, Int.natCast_zero, Int.sub_zero, range]
    rw [if_neg (by decide)]
    apply ih
    simp only [Stream.read]
    exact Nat.le_trans ended (Nat.le_add_right _ _)

theorem mergeImage_truncated (fuel : Nat) (truncated : ifd.content.length < ifd.position + count)
    (begun : 0 < count) : mergeImage fuel count extent ifd out = none := by
  induction fuel generalizing count extent ifd out with
  | zero =>
    cases count with
    | zero => omega
    | succ count => rfl
  | succ fuel ih =>
    cases count with
    | zero => omega
    | succ count =>
      unfold mergeImage
      simp only
      generalize (if extent > count + 1 then count + 1 else extent) = chunk
      have got : (ifd.read chunk).1.length ≤ ifd.content.length - ifd.position := by
        rw [Stream.read_fst, slice_length]
        omega
      have next : (ifd.read chunk).2.position = ifd.position + (ifd.read chunk).1.length := rfl
      have same : (ifd.read chunk).2.content = ifd.content := rfl
      apply ih
      · rw [next, same]
        omega
      · omega

theorem mergeImage_more (fuel more : Nat) {result : Stream × Stream}
    (returned : mergeImage fuel count extent ifd out = some result) :
    mergeImage (fuel + more) count extent ifd out = some result := by
  induction fuel generalizing count extent ifd out with
  | zero =>
    cases count with
    | zero => simpa [mergeImage] using returned
    | succ count => cases returned
  | succ fuel ih =>
    cases count with
    | zero => simpa [mergeImage] using returned
    | succ count =>
      rw [Nat.succ_add]
      exact ih returned

/-- A negative rest: everything that is left of the file is read at once. -/
theorem copyImage_negative (fuel : Nat) (negative : offset < 0) (range : -2147483648 ≤ offset)
    (positive : 0 ≤ length) : copyImage fuel offset length ifd out = none ∨
      copyImage fuel offset length ifd out = some (.error .overrun) := by
  cases fuel with
  | zero => exact Or.inl (if_neg (by omega))
  | succ fuel =>
    unfold copyImage
    have asked : readCount offset ifd = ifd.content.length := if_pos negative
    simp only [if_neg (show ¬offset = 0 by omega), if_pos (show length > offset by omega), asked]
    by_cases beyond : (ifd.read ifd.content.length).1.length > bufsiz
    · exact Or.inr (if_pos beyond)
    · rw [if_neg beyond]
      have limit : (ifd.read ifd.content.length).1.length ≤ 8192 := Nat.not_lt.mp beyond
      refine Or.inl (copyImage_end fuel ?_ (signed_signed _) ?_)
      · unfold signed
        rw [Int.bmod_def]
        omega
      · change ifd.content.length ≤ ifd.position +
          (slice ifd.content ifd.position ifd.content.length).length
        rw [slice_length]
        omega

end Copy

def HeaderAt (content : Bytes) (position : Nat) (expected : Word) (header : HeaderNvm) : Prop :=
  position = expected.toNat ∧ position + headerNvmSize ≤ content.length ∧
    HeaderNvm.ofBytes (slice content position headerNvmSize) = header ∧
    header.headerVersion = nvmHeaderVersion ∧ header.withChecksum = header

def WholeAt (content : Bytes) (position : Nat) (header : HeaderNvm) : Prop :=
  header.imageLength.toNat < 2147483648 ∧ position + header.imageLength.toNat ≤ content.length

/-- Every header that is accepted is followed by its whole image; the last argument tells whether
the chain gets to its end or to a header that is refused. -/
inductive Completes (content : Bytes) : Nat → Word → Bool → Prop
  | refused {position : Nat} {expected : Word}
      (bad : ∀ header, ¬HeaderAt content position expected header) :
      Completes content position expected false
  | last {position : Nat} {expected : Word} {header : HeaderNvm}
      (here : HeaderAt content position expected header)
      (whole : WholeAt content (position + headerNvmSize) header)
      (ends : header.nextHeader = Word.zero) : Completes content position expected true
  | next {position : Nat} {expected : Word} {header : HeaderNvm} {finished : Bool}
      (here : HeaderAt content position expected header)
      (whole : WholeAt content (position + headerNvmSize) header)
      (more : header.nextHeader ≠ Word.zero)
      (rest : Completes content (position + headerNvmSize + header.imageLength.toNat)
        header.nextHeader finished) : Completes content position expected finished

/-- The files are walked in their order, up to a header that is refused. -/
inductive AllComplete : List (String × Bytes) → Prop
  | nil : AllComplete []
  | stopped {file : String × Bytes} (rest : List (String × Bytes))
      (stops : Completes file.2 0 Word.zero false) : AllComplete (file :: rest)
  | cons {file : String × Bytes} {rest : List (String × Bytes)}
      (complete : Completes file.2 0 Word.zero true) (others : AllComplete rest) :
      AllComplete (file :: rest)

def layOut (images : List NvmImage) : Bytes :=
  images.flatMap fun image => image.header.toBytes ++ image.bytes

def AsLongAsTold (images : List NvmImage) : Prop :=
  ∀ image ∈ images, image.bytes.length = image.header.imageLength.toNat

def WholeImages (content : Bytes) : Prop :=
  ∃ images, AsLongAsTold images ∧ content = layOut images

def Ends (files : List (String × Bytes)) : Prop :=
  ∃ fuel, (∃ text, nvmmergeRun fuel files = some (.error (.message text))) ∨
    ∃ out, nvmmergeRun fuel files = some (.ok out) ∧ WholeImages out.content

section Chain

variable {content : Bytes} {position : Nat} {expected : Word} {header : HeaderNvm}

theorem readHeader_at_iff (name : String) (image : Nat) (ifd : Stream) :
    readHeader "Can't read header" name image ⟨content, position⟩ expected = .ok (header, ifd) ↔
      HeaderAt content position expected header ∧ ifd = ⟨content, position + headerNvmSize⟩ := by
  rw [readHeader_ok_iff]
  unfold HeaderAt
  tauto

theorem HeaderAt.unique {other : HeaderNvm} (first : HeaderAt content position expected header)
    (second : HeaderAt content position expected other) : header = other :=
  first.2.2.1.symm.trans second.2.2.1

theorem Completes.whole {finished : Bool} (complete : Completes content position expected finished)
    (here : HeaderAt content position expected header) :
    WholeAt content (position + headerNvmSize) header := by
  cases complete with
  | refused bad => exact absurd here (bad header)
  | last there whole ends =>
    rw [here.unique there]
    exact whole
  | next there whole more rest =>
    rw [here.unique there]
    exact whole

theorem copyImage_whole (whole : WholeAt content position header) (out : Bytes) (fuel : Nat)
    (enough : header.imageLength.toNat ≤ fuel) :
    copyImage fuel (signed header.imageLength.toNat) bufsiz ⟨content, position⟩ (atEnd out) =
      some (.ok (⟨content, position + header.imageLength.toNat⟩,
        atEnd (out ++ slice content position header.imageLength.toNat))) := by
  obtain ⟨small, inside⟩ := whole
  have body := slice_length_of_le content position header.imageLength.toNat inside
  have front : (content.take position).length = position := by
    rw [length_take]
    omega
  have layout : content = content.take position ++
      (slice content position header.imageLength.toNat ++
        content.drop (position + header.imageLength.toNat)) := by
    rw [← drop_eq_slice_append, take_append_drop]
  have copies := (image_copies "" content _ fuel bufsiz _ _ out layout (by decide)
    (by rw [body]; exact enough)).1
  rw [body, front, length_append, front, body] at copies
  rw [signed_of_nat small, copyImage_eq fuel small (Nat.le_refl _), copies]
  rfl

theorem copyImage_returned (whole : WholeAt content position header) (out : Bytes) (fuel : Nat)
    {outcome : Except Stop (Stream × Stream)}
    (returned : copyImage fuel (signed header.imageLength.toNat) bufsiz ⟨content, position⟩
      (atEnd out) = some outcome) :
    outcome = .ok (⟨content, position + header.imageLength.toNat⟩,
      atEnd (out ++ slice content position header.imageLength.toNat)) := by
  have enough := copyImage_whole whole out (fuel + header.imageLength.toNat) (Nat.le_add_left _ _)
  rw [signed_of_nat whole.1, copyImage_eq _ whole.1 (Nat.le_refl _)] at returned enough
  obtain ⟨streams, copied, rfl⟩ := Option.map_eq_some_iff.mp returned
  rw [mergeImage_more fuel header.imageLength.toNat copied] at enough
  exact Option.some.inj enough

theorem copyImage_not_whole (broken : ¬WholeAt content position header)
    (inside : position ≤ content.length) (out : Stream) (fuel : Nat) :
    copyImage fuel (signed header.imageLength.toNat) bufsiz ⟨content, position⟩ out = none ∨
      copyImage fuel (signed header.imageLength.toNat) bufsiz ⟨content, position⟩ out =
        some (.error .overrun) := by
  by_cases small : header.imageLength.toNat < 2147483648
  · have truncated : content.length < position + header.imageLength.toNat :=
      Nat.lt_of_not_le fun there => broken ⟨small, there⟩
    rw [signed_of_nat small, copyImage_eq fuel small (Nat.le_refl _),
      mergeImage_truncated fuel truncated (by omega)]
    exact Or.inl rfl
  · have limit := header.imageLength.toNat_lt
    apply copyImage_negative
    · unfold signed
      rw [Int.bmod_def]
      omega
    · unfold signed
      rw [Int.bmod_def]
      omega
    · exact Int.natCast_nonneg _

theorem mergeHeader_imageLength (index : Nat) (out : Stream) (header : HeaderNvm) :
    (mergeHeader index out header).imageLength = header.imageLength := by
  unfold mergeHeader HeaderNvm.withChecksum
  simp only
  split <;> rfl

def written (index : Nat) (out : Bytes) (content : Bytes) (position : Nat)
    (header : HeaderNvm) : NvmImage :=
  ⟨mergeHeader index (atEnd out) header,
    slice content (position + headerNvmSize) header.imageLength.toNat⟩

theorem copyLoop_round (here : HeaderAt content position expected header)
    (whole : WholeAt content (position + headerNvmSize) header) (filename : String)
    (index fuel image : Nat) (enough : content.length - position < fuel + 1) (out : Bytes) :
    copyLoop filename index (fuel + 1) image ⟨content, position⟩ (atEnd out) expected =
      if header.nextHeader ≠ Word.zero then
        copyLoop filename index fuel (image + 1)
          ⟨content, position + headerNvmSize + header.imageLength.toNat⟩
          (atEnd (out ++ layOut [written index out content position header])) header.nextHeader
      else some (.ok (atEnd (out ++ layOut [written index out content position header]))) := by
  have accepted := (readHeader_at_iff filename image _).mpr ⟨here, rfl⟩
  have room := whole.2
  have laid : out ++ (mergeHeader index (atEnd out) header).toBytes ++
      slice content (position + headerNvmSize) header.imageLength.toNat =
        out ++ layOut [written index out content position header] := by
    simp [layOut, written]
  rw [copyLoop, accepted]
  simp only [atEnd_write]
  rw [copyImage_whole whole _ fuel (by simp only [headerNvmSize] at room; omega), laid]

theorem written_told (whole : WholeAt content (position + headerNvmSize) header) (index : Nat)
    (out : Bytes) : AsLongAsTold [written index out content position header] := by
  intro image member
  rw [mem_singleton.mp member]
  change (slice content (position + headerNvmSize) header.imageLength.toNat).length =
    (mergeHeader index (atEnd out) header).imageLength.toNat
  rw [mergeHeader_imageLength]
  exact slice_length_of_le _ _ _ whole.2

/-- The rounds for a file; each of them takes at least a header from it. -/
theorem copyLoop_completes {finished : Bool}
    (complete : Completes content position expected finished) (filename : String)
    (index fuel image : Nat) (enough : content.length - position < fuel) (out : Bytes) :
    (finished = false → ∃ text, copyLoop filename index fuel image ⟨content, position⟩ (atEnd out)
      expected = some (.error (.message text))) ∧
    (finished = true → ∃ images, AsLongAsTold images ∧
      copyLoop filename index fuel image ⟨content, position⟩ (atEnd out) expected =
        some (.ok (atEnd (out ++ layOut images)))) := by
  induction complete generalizing fuel image out with
  | @refused position expected bad =>
    cases fuel with
    | zero => omega
    | succ fuel =>
      refine ⟨fun _ => ?_, fun impossible => by cases impossible⟩
      unfold copyLoop
      cases read : readHeader "Can't read header" filename image ⟨content, position⟩ expected with
      | error text => exact ⟨text, rfl⟩
      | ok accepted =>
        obtain ⟨header, ifd⟩ := accepted
        exact absurd ((readHeader_at_iff filename image ifd).mp read).1 (bad header)
  | last here whole ends =>
    cases fuel with
    | zero => omega
    | succ fuel =>
      refine ⟨fun impossible => (by cases impossible), fun _ => ?_⟩
      refine ⟨_, written_told whole index out, ?_⟩
      rw [copyLoop_round here whole filename index fuel image enough out, if_neg (not_not.mpr ends)]
  | @next position expected header finished here whole more rest ih =>
    have room := here.2.1
    have inside := whole.2
    cases fuel with
    | zero => omega
    | succ fuel =>
      rw [copyLoop_round here whole filename index fuel image enough out, if_pos more]
      obtain ⟨stops, goes⟩ := ih fuel (image + 1) (by simp only [headerNvmSize] at *; omega)
        (out ++ layOut [written index out content position header])
      refine ⟨stops, fun done => ?_⟩
      obtain ⟨images, told, result⟩ := goes done
      refine ⟨written index out content position header :: images, ?_, ?_⟩
      · intro image member
        rcases mem_cons.mp member with rfl | later
        · exact written_told whole index out _ (mem_singleton.mpr rfl)
        · exact told image later
      · rw [result, append_assoc]
        simp [layOut]

theorem copyLoop_ends (filename : String) (index fuel image : Nat) (out : Bytes)
    {result : Except Stop Stream} (returned : copyLoop filename index fuel image ⟨content, position⟩
      (atEnd out) expected = some result) (clean : result ≠ .error .overrun) :
    (∃ text, result = .error (.message text) ∧ Completes content position expected false) ∨
      ∃ after, result = .ok (atEnd after) ∧ Completes content position expected true := by
  induction fuel generalizing position expected image out with
  | zero => cases returned
  | succ fuel ih =>
    unfold copyLoop at returned
    cases read : readHeader "Can't read header" filename image ⟨content, position⟩ expected with
    | error text =>
      rw [read] at returned
      cases returned
      refine Or.inl ⟨text, rfl, .refused fun header here => ?_⟩
      rw [(readHeader_at_iff filename image _).mpr ⟨here, rfl⟩] at read
      cases read
    | ok accepted =>
      obtain ⟨header, ifd⟩ := accepted
      obtain ⟨here, rfl⟩ := (readHeader_at_iff filename image ifd).mp read
      rw [read] at returned
      simp only at returned
      by_cases whole : WholeAt content (position + headerNvmSize) header
      · rw [atEnd_write] at returned
        cases copied : copyImage fuel (signed header.imageLength.toNat) bufsiz
            ⟨content, position + headerNvmSize⟩
            (atEnd (out ++ (mergeHeader index (atEnd out) header).toBytes)) with
        | none =>
          rw [copied] at returned
          cases returned
        | some outcome =>
          rw [copied, copyImage_returned whole _ fuel copied] at returned
          by_cases more : header.nextHeader ≠ Word.zero
          · simp only [if_pos more] at returned
            rcases ih _ _ returned with ⟨text, failed, rest⟩ | ⟨after, done, rest⟩
            · exact Or.inl ⟨text, failed, .next here whole more rest⟩
            · exact Or.inr ⟨after, done, .next here whole more rest⟩
          · simp only [if_neg more] at returned
            cases returned
            exact Or.inr ⟨_, rfl, .last here whole (not_not.mp more)⟩
      · rcases copyImage_not_whole whole here.2.1
            ((atEnd out).write (mergeHeader index (atEnd out) header).toBytes) fuel with
          none | beyond
        · rw [none] at returned
          cases returned
        · rw [beyond] at returned
          cases returned
          exact absurd rfl clean

end Chain

section Files

variable {files : List (String × Bytes)}

def totalLength (files : List (String × Bytes)) : Nat := (files.map fun file => file.2.length).sum

theorem copyFiles_complete (complete : AllComplete files) (fuel : Nat)
    (enough : totalLength files < fuel) (out : Bytes) :
    (∃ text, copyFiles fuel files (atEnd out) = some (.error (.message text))) ∨
      ∃ images, AsLongAsTold images ∧
        copyFiles fuel files (atEnd out) = some (.ok (atEnd (out ++ layOut images))) := by
  induction complete generalizing out with
  | nil => exact Or.inr ⟨[], fun image member => (by cases member), by simp [copyFiles, layOut]⟩
  | @stopped file rest stops =>
    have length : totalLength (file :: rest) = file.2.length + totalLength rest := rfl
    obtain ⟨text, result⟩ := (copyLoop_completes stops file.1 rest.length fuel 0 (by omega) out).1 rfl
    refine Or.inl ⟨text, ?_⟩
    unfold copyFiles
    rw [result]
  | @cons file rest complete others ih =>
    have length : totalLength (file :: rest) = file.2.length + totalLength rest := rfl
    obtain ⟨images, told, result⟩ :=
      (copyLoop_completes complete file.1 rest.length fuel 0 (by omega) out).2 rfl
    unfold copyFiles
    rw [result]
    rcases ih (by omega) (out ++ layOut images) with ⟨text, failed⟩ | ⟨later, laterTold, done⟩
    · exact Or.inl ⟨text, failed⟩
    · refine Or.inr ⟨images ++ later, ?_, ?_⟩
      · intro image member
        rcases mem_append.mp member with first | second
        · exact told image first
        · exact laterTold image second
      · simp only [done]
        rw [append_assoc]
        simp [layOut]

theorem copyFiles_ends (fuel : Nat) (out : Bytes) {result : Except Stop Stream}
    (returned : copyFiles fuel files (atEnd out) = some result) (clean : result ≠ .error .overrun) :
    AllComplete files := by
  induction files generalizing out with
  | nil => exact .nil
  | cons file rest ih =>
    unfold copyFiles at returned
    cases first : copyLoop file.1 rest.length fuel 0 ⟨file.2, 0⟩ (atEnd out) Word.zero with
    | none =>
      rw [first] at returned
      cases returned
    | some outcome =>
      rw [first] at returned
      cases outcome with
      | error stop =>
        cases returned
        rcases copyLoop_ends file.1 rest.length fuel 0 out first clean with
          ⟨text, failed, stops⟩ | ⟨after, done, -⟩
        · exact .stopped rest stops
        · cases done
      | ok stream =>
        rcases copyLoop_ends file.1 rest.length fuel 0 out first (by simp) with
          ⟨text, failed, stops⟩ | ⟨after, done, complete⟩
        · cases failed
        · cases done
          exact .cons complete (ih after returned)

theorem Ends.complete (ends : Ends files) : AllComplete files := by
  obtain ⟨fuel, ⟨text, failed⟩ | ⟨out, done, whole⟩⟩ := ends
  · exact copyFiles_ends fuel [] failed (by simp)
  · exact copyFiles_ends fuel [] done (by simp)

theorem AllComplete.ends (complete : AllComplete files) : Ends files := by
  refine ⟨totalLength files + 1, ?_⟩
  rcases copyFiles_complete complete _ (Nat.lt_succ_self _) [] with failed | ⟨images, told, done⟩
  · exact Or.inl failed
  · exact Or.inr ⟨_, done, images, told, by simp [atEnd]⟩

end Files

/-- A merge ends, with an error or with whole images, exactly when every image that is reached is
not negative in length and all there. -/
theorem nvmmerge_ends (files : List (String × Bytes)) : Ends files ↔ AllComplete files :=
  ⟨Ends.complete, AllComplete.ends⟩

/-- The small file without its last byte. -/
theorem nvmmerge_truncated : ¬Ends [("truncated.nvm", smallNvm.2.dropLast)] := by
  intro ends
  have here : HeaderAt smallNvm.2.dropLast 0 Word.zero
      (HeaderNvm.ofBytes (slice smallNvm.2.dropLast 0 headerNvmSize)) := by
    unfold HeaderAt
    decide
  have broken : ¬WholeAt smallNvm.2.dropLast (0 + headerNvmSize)
      (HeaderNvm.ofBytes (slice smallNvm.2.dropLast 0 headerNvmSize)) := by
    unfold WholeAt
    decide
  cases ends.complete with
  | stopped rest stops => exact broken (stops.whole here)
  | cons complete others => exact broken (complete.whole here)

end AthApps.Plc
