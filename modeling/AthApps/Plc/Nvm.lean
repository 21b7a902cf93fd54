import AthApps.Plc.Checksum

/-!
# Firmware image files

An NVM file is a chain of images, each one a packed `header_nvm` and its bytes.
`nvm/chknvm.c` walks the chain and checks it, `nvm/nvmmerge.c` splices the
chains of several files into one and `nvm/nvmsplit.c` cuts a chain into files
of one image each.  Where a loop of the source can run for ever the model has
fuel, and `none` says that the program is still running.
-/

set_option autoImplicit false

namespace AthApps.Plc

open AthApps.Lib

structure HeaderNvm where
  headerVersion : Word
  imageRomAddr : Word
  imageAddr : Word
  imageLength : Word
  imageChecksum : Word
  entryPoint : Word
  headerMinorVersion : UInt8
  imageType : UInt8
  ignoreMaskLow : UInt8
  ignoreMaskHigh : UInt8
  reserved0 : Word
  reserved1 : Word
  nextHeader : Word
  headerChecksum : Word
  deriving DecidableEq

def headerNvmSize : Nat := 44

namespace HeaderNvm

def toBytes (header : HeaderNvm) : Bytes :=
  header.headerVersion.toBytes ++ (header.imageRomAddr.toBytes ++
    (header.imageAddr.toBytes ++ (header.imageLength.toBytes ++
    (header.imageChecksum.toBytes ++ (header.entryPoint.toBytes ++
    ([header.headerMinorVersion, header.imageType, header.ignoreMaskLow, header.ignoreMaskHigh] ++
    (header.reserved0.toBytes ++ (header.reserved1.toBytes ++
    (header.nextHeader.toBytes ++ header.headerChecksum.toBytes)))))))))

def ofBytes (bytes : Bytes) : HeaderNvm where
  headerVersion := Word.ofBytes (slice bytes 0 4)
  imageRomAddr := Word.ofBytes (slice bytes 4 4)
  imageAddr := Word.ofBytes (slice bytes 8 4)
  imageLength := Word.ofBytes (slice bytes 12 4)
  imageChecksum := Word.ofBytes (slice bytes 16 4)
  entryPoint := Word.ofBytes (slice bytes 20 4)
  headerMinorVersion := bytes.getD 24 0
  imageType := bytes.getD 25 0
  ignoreMaskLow := bytes.getD 26 0
  ignoreMaskHigh := bytes.getD 27 0
  reserved0 := Word.ofBytes (slice bytes 28 4)
  reserved1 := Word.ofBytes (slice bytes 32 4)
  nextHeader := Word.ofBytes (slice bytes 36 4)
  headerChecksum := Word.ofBytes (slice bytes 40 4)

def withChecksum (header : HeaderNvm) : HeaderNvm :=
  { header with headerChecksum :=
      checksum32 { header with headerChecksum := Word.zero }.toBytes Word.zero }

@[simp] theorem toBytes_length (header : HeaderNvm) : header.toBytes.length = headerNvmSize := rfl

@[simp] theorem ofBytes_toBytes (header : HeaderNvm) : ofBytes header.toBytes = header := rfl

theorem toBytes_ofBytes (bytes : Bytes) (exact : bytes.length = headerNvmSize) :
    (ofBytes bytes).toBytes = bytes := by
  have word : ∀ offset, offset + 4 ≤ headerNvmSize →
      (Word.ofBytes (slice bytes offset 4)).toBytes = slice bytes offset 4 := by
    intro offset inside
    exact Word.toBytes_ofBytes _ (slice_length_of_le _ _ _ (by omega))
  have middle : [bytes.getD 24 0, bytes.getD 25 0, bytes.getD 26 0, bytes.getD 27 0] =
      slice bytes 24 4 := by
    rw [← word 24 (by decide)]
    simp [Word.toBytes, Word.ofBytes, slice]
  simp only [toBytes, ofBytes, middle]
  simp (disch := decide) only [word, slice_join]
  have whole := slice_all bytes
  rw [exact] at whole
  exact whole

end HeaderNvm

def nvmHeaderVersion : Word := Word.ofNat 0x60000000

def imageMessage (text name : String) (image : Nat) : String :=
  text ++ ": " ++ name ++ " (" ++ toString image ++ ")"

/-- The start of every round: the file position has to be the one the previous
header announced, and a header with the right version and checksum has to be
there.  The programs differ in the text for a header that cannot be read. -/
def readHeader (cantRead name : String) (image : Nat) (fd : Stream) (expected : Word) :
    Except String (HeaderNvm × Stream) :=
  if fd.position ≠ expected.toNat then
    .error (imageMessage "Bad file position" name image)
  else
    let (memory, fd) := fd.read headerNvmSize
    if memory.length < headerNvmSize then
      .error (imageMessage cantRead name image)
    else
      let header := HeaderNvm.ofBytes memory
      if header.headerVersion ≠ nvmHeaderVersion then
        .error (imageMessage "Bad header version" name image)
      else if checksum32 header.toBytes Word.zero ≠ Word.zero then
        .error (imageMessage "Bad header checksum" name image)
      else
        .ok (header, fd)

def chknvmLoop (name : String) : Nat → Nat → Stream → Word → Option (Except String Stream)
  | 0, _, _, _ => none
  | fuel + 1, image, file, expected =>
    match readHeader "Can't read image header" name image file expected with
    | .error message => some (.error message)
    | .ok (header, file) =>
      let (sum, file) := fdchecksum32 file header.imageLength.toNat header.imageChecksum
      if sum ≠ Word.zero then
        some (.error (imageMessage "Bad image checksum" name image))
      else if header.nextHeader ≠ Word.zero then
        chknvmLoop name fuel (image + 1) file header.nextHeader
      else
        some (.ok file)

def chknvm (fuel : Nat) (name : String) (content : Bytes) : Option (Except String Unit) :=
  match chknvmLoop name fuel 0 ⟨content, 0⟩ Word.zero with
  | none => none
  | some (.error message) => some (.error message)
  | some (.ok file) =>
    if file.position ≠ content.length then
      some (.error ("Bad header chain: " ++ name))
    else
      some (.ok ())

def bufsiz : Nat := 8192

/-- The copy loop of `nvmmerge`.  The test after its `read` compares the number
of bytes read with itself, so a short read is not an error there. -/
def mergeImage : Nat → Nat → Nat → Stream → Stream → Option (Stream × Stream)
  | _, 0, _, ifd, out => some (ifd, out)
  | 0, _ + 1, _, _, _ => none
  | fuel + 1, offset + 1, length, ifd, out =>
    let length := if length > offset + 1 then offset + 1 else length
    let (buffer, ifd) := ifd.read length
    let length := buffer.length
    mergeImage fuel (offset + 1 - length) length ifd (out.write buffer)

/-- The header that `nvmmerge` writes: it is relocated when another image of
this file or another file follows. -/
def mergeHeader (index : Nat) (out : Stream) (header : HeaderNvm) : HeaderNvm :=
  let header :=
    if index ≠ 0 ∨ header.nextHeader ≠ Word.zero then
      { header with nextHeader :=
          Word.ofNat (out.position + headerNvmSize + header.imageLength.toNat) }
    else
      header
  header.withChecksum

def mergeLoop (filename : String) (index : Nat) :
    Nat → Nat → Stream → Stream → Word → Option (Except String Stream)
  | 0, _, _, _, _ => none
  | fuel + 1, image, ifd, out, expected =>
    match readHeader "Can't read header" filename image ifd expected with
    | .error message => some (.error message)
    | .ok (header, ifd) =>
      let out := out.write (mergeHeader index out header).toBytes
      match mergeImage fuel header.imageLength.toNat bufsiz ifd out with
      | none => none
      | some (ifd, out) =>
        if header.nextHeader ≠ Word.zero then
          mergeLoop filename index fuel (image + 1) ifd out header.nextHeader
        else
          some (.ok out)

/-- The command line loop of `nvmmerge`: `index` of `function` is the number of
files that are left. -/
def mergeFiles (fuel : Nat) : List (String × Bytes) → Stream → Option (Except String Stream)
  | [], out => some (.ok out)
  | (filename, content) :: rest, out =>
    match mergeLoop filename rest.length fuel 0 ⟨content, 0⟩ out Word.zero with
    | none => none
    | some (.error message) => some (.error message)
    | some (.ok out) => mergeFiles fuel rest out

def nvmmerge (fuel : Nat) (files : List (String × Bytes)) :
    Option (Except String Bytes) :=
  match mergeFiles fuel files ⟨[], 0⟩ with
  | none => none
  | some (.error message) => some (.error message)
  | some (.ok out) => some (.ok out.content)

/-- Where the extension of a file name starts: at its last dot, or at the end
when there is no dot behind the first character. -/
def extenderOffset (filename : List Char) : Nat :=
  let step := fun (state : Nat × Nat) (char : Char) =>
    (state.1 + 1, if char = '.' then state.1 else state.2)
  let last := (filename.foldl step (0, 0)).2
  if last = 0 then filename.length else last

def twoDigits (number : Nat) : String :=
  if number < 10 then "0" ++ toString number else toString number

def savename (filename : String) (image : Nat) : String :=
  String.ofList (filename.toList.take (extenderOffset filename.toList)) ++ "-" ++
    twoDigits image ++ ".nvm"

def splitImage (failure : String) : Nat → Nat → Nat → Stream → Stream →
    Option (Except String (Stream × Stream))
  | _, 0, _, ifd, ofd => some (.ok (ifd, ofd))
  | 0, _ + 1, _, _, _ => none
  | fuel + 1, offset + 1, length, ifd, ofd =>
    let length := if length > offset + 1 then offset + 1 else length
    let (buffer, ifd) := ifd.read length
    if buffer.length < length then
      some (.error failure)
    else
      splitImage failure fuel (offset + 1 - length) length ifd (ofd.write buffer)

def splitLoop (filename : String) :
    Nat → Nat → Stream → Word → List (String × Bytes) →
      Option (Except String (List (String × Bytes)))
  | 0, _, _, _, _ => none
  | fuel + 1, image, ifd, expected, saved =>
    match readHeader "Can't read header" filename image ifd expected with
    | .error message => some (.error message)
    | .ok (header, ifd) =>
      let single := { header with nextHeader := Word.zero }.withChecksum
      let ofd := (⟨[], 0⟩ : Stream).write single.toBytes
      match splitImage (imageMessage "Can't read image" filename image) fuel
          header.imageLength.toNat bufsiz ifd ofd with
      | none => none
      | some (.error message) => some (.error message)
      | some (.ok (ifd, ofd)) =>
        let saved := saved ++ [(savename filename image, ofd.content)]
        if header.nextHeader ≠ Word.zero then
          splitLoop filename fuel (image + 1) ifd header.nextHeader saved
        else
          some (.ok saved)

/-- The files that `nvmsplit` saves, in the order of the images. -/
def nvmsplit (fuel : Nat) (filename : String) (content : Bytes) :
    Option (Except String (List (String × Bytes))) :=
  splitLoop filename fuel 0 ⟨content, 0⟩ Word.zero []

end AthApps.Plc
