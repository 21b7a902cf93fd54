import AthApps.Plc.Pib

/-!
# Editing keeps a parameter information block valid

The header edits change only the fields their flags select, the checksum is
computed over the edited bytes, and the membership word lies behind the
header.  So an edited file is again accepted and has its old size, unless the
membership word is written behind the end of a short file.
-/

set_option autoImplicit false

namespace AthApps.Plc

open AthApps.Lib List

namespace SimplePib

theorem set_frame (pib : SimplePib) (field : PibField) (data : Bytes)
    (fits : data.length = field.extent) :
    SameOutside field.Covers pib.bytes (pib.set field data fits).bytes := by
  have inside : field.offset + data.length ≤ pib.bytes.length := by
    rw [pib.size, fits]
    exact field.inside
  have frame := SameOutside.overlay pib.bytes field.offset data inside
  rw [fits] at frame
  exact frame

theorem get_set_self (pib : SimplePib) (field : PibField) (data : Bytes)
    (fits : data.length = field.extent) : (pib.set field data fits).get field = data := by
  rw [get, set, ← fits]
  exact slice_overlay_self _ _ _

theorem get_eq_of_sameOutside {region : Nat → Prop} {old new : SimplePib}
    (same : SameOutside region old.bytes new.bytes) (field : PibField)
    (disjoint : ∀ index, field.Covers index → ¬region index) :
    new.get field = old.get field :=
  same.slice_eq _ _ fun index low high => disjoint index ⟨low, high⟩

end SimplePib

def selectedFields (flags : UInt32) : List PibField :=
  (if anyset flags (pibMac ||| pibMacinc) then [.mac] else []) ++
  (if anyset flags pibDak then [.dak] else []) ++
  (if anyset flags pibNmk then [.nmk] else []) ++
  (if anyset flags pibNetwork then [.net] else []) ++
  (if anyset flags pibMfgstring then [.mfg] else []) ++
  (if anyset flags pibUser then [.usr] else []) ++
  (if anyset flags pibCcoMode then [.ccoSelection] else [])

def Selected (flags : UInt32) (index : Nat) : Prop :=
  ∃ field ∈ selectedFields flags, field.Covers index

theorem anyset_or (flags left right : UInt32) :
    anyset flags (left ||| right) = (anyset flags left || anyset flags right) := by
  have distributes : flags &&& (left ||| right) = (flags &&& left) ||| (flags &&& right) :=
    UInt32.toBitVec_inj.mp (by simp [BitVec.and_or_distrib_left])
  rw [Bool.eq_iff_iff]
  simp only [anyset, distributes, bne_iff_ne, ne_eq, Bool.or_eq_true, UInt32.or_eq_zero_iff]
  tauto

theorem copyIf_frame (flags mask : UInt32) (field : PibField) (sample pib : SimplePib)
    (selected : anyset flags mask = true → field ∈ selectedFields flags) :
    SameOutside (Selected flags) pib.bytes (copyIf flags mask field sample pib).bytes := by
  unfold copyIf
  split
  · rename_i set
    exact (SimplePib.set_frame _ _ _ _).mono fun index covered => ⟨field, selected set, covered⟩
  · exact SameOutside.refl _ _

variable (flags : UInt32)

theorem incrementMacIf_frame (pib : SimplePib) :
    SameOutside (Selected flags) pib.bytes (incrementMacIf flags pib).bytes := by
  unfold incrementMacIf
  split
  · rename_i set
    refine (SimplePib.set_frame _ _ _ _).mono fun index covered => ⟨.mac, ?_, covered⟩
    simp [selectedFields, anyset_or, set]
  · exact SameOutside.refl _ _

theorem editFields_frame (sample pib : SimplePib) :
    SameOutside (Selected flags) pib.bytes (editFields flags sample pib).bytes := by
  unfold editFields
  refine SameOutside.trans (copyIf_frame flags pibMac .mac sample _ ?_) ?_
  · intro set
    simp [selectedFields, anyset_or, set]
  refine SameOutside.trans (incrementMacIf_frame flags _) ?_
  refine SameOutside.trans (copyIf_frame flags pibDak .dak sample _ ?_) ?_
  · intro set
    simp [selectedFields, set]
  refine SameOutside.trans (copyIf_frame flags pibNmk .nmk sample _ ?_) ?_
  · intro set
    simp [selectedFields, set]
  refine SameOutside.trans (copyIf_frame flags pibNetwork .net sample _ ?_) ?_
  · intro set
    simp [selectedFields, set]
  refine SameOutside.trans (copyIf_frame flags pibMfgstring .mfg sample _ ?_) ?_
  · intro set
    simp [selectedFields, set]
  refine SameOutside.trans (copyIf_frame flags pibUser .usr sample _ ?_) ?_
  · intro set
    simp [selectedFields, set]
  refine copyIf_frame flags pibCcoMode .ccoSelection sample _ ?_
  · intro set
    simp [selectedFields, set]

/-- No selected field reaches the version, the length, the checksum or the
network identifier. -/
theorem Selected.range {flags : UInt32} {index : Nat} (selected : Selected flags index) :
    12 ≤ index ∧ index < 245 := by
  obtain ⟨field, member, covered⟩ := selected
  have cases : field ∈ [PibField.mac, .dak, .nmk, .net, .mfg, .usr, .ccoSelection] := by
    simp only [selectedFields, mem_append, mem_ite_nil_right] at member
    simp only [mem_cons, not_mem_nil, or_false] at member ⊢
    tauto
  simp only [mem_cons, not_mem_nil, or_false] at cases
  unfold PibField.Covers at covered
  rcases cases with rfl | rfl | rfl | rfl | rfl | rfl | rfl <;>
    simp only [PibField.mac, PibField.dak, PibField.nmk, PibField.net, PibField.mfg,
      PibField.usr, PibField.ccoSelection] at covered <;> omega

def blankHeader (flags : UInt32) (level : Int) (sample pib : SimplePib) : SimplePib :=
  setChecksum (deriveNid flags level (editFields flags sample pib)) Word.zero

/-- Header bytes that an edit may change before it computes the checksum. -/
def HeaderEdited (flags : UInt32) (index : Nat) : Prop :=
  Selected flags index ∨ PibField.checksum.Covers index ∨ PibField.preferredNid.Covers index

theorem blankHeader_frame (level : Int) (sample pib : SimplePib) :
    SameOutside (HeaderEdited flags) pib.bytes (blankHeader flags level sample pib).bytes := by
  have fields : SameOutside (HeaderEdited flags) pib.bytes (editFields flags sample pib).bytes :=
    (editFields_frame flags sample pib).mono fun _ => Or.inl
  have nid : SameOutside (HeaderEdited flags) (editFields flags sample pib).bytes
      (deriveNid flags level (editFields flags sample pib)).bytes := by
    unfold deriveNid
    split
    · exact (SimplePib.set_frame _ _ _ _).mono fun _ covered => Or.inr (Or.inr covered)
    · exact SameOutside.refl _ _
  have checksum : SameOutside (HeaderEdited flags)
      (deriveNid flags level (editFields flags sample pib)).bytes
      (blankHeader flags level sample pib).bytes :=
    (SimplePib.set_frame _ .checksum Word.zero.toBytes rfl).mono
      fun _ covered => Or.inr (Or.inl covered)
  exact (fields.trans nid).trans checksum

theorem HeaderEdited.range {flags : UInt32} {index : Nat} (edited : HeaderEdited flags index) :
    8 ≤ index ∧ index < 255 := by
  rcases edited with selected | covered | covered
  · have range := selected.range
    omega
  · simp only [PibField.Covers, PibField.checksum] at covered
    omega
  · simp only [PibField.Covers, PibField.preferredNid] at covered
    omega

theorem clearMembership_eq (pib : SimplePib) (file : Stream) :
    (clearMembership flags pib file).content =
      if WritesMembership flags pib then
        overlay file.content membershipOffset membershipStatus.toBytes
      else
        file.content := by
  unfold clearMembership
  by_cases writes : WritesMembership flags pib
  · rw [if_pos writes, if_pos writes]
    rfl
  · rw [if_neg writes, if_neg writes]

def blankContent (flags : UInt32) (level : Int) (sample pib : SimplePib) (file : Stream) :
    Bytes :=
  overlay (clearMembership flags (editFields flags sample pib) file).content 0
    (blankHeader flags level sample pib).bytes

def editChecksum (flags : UInt32) (level : Int) (sample pib : SimplePib) (file : Stream) : Word :=
  (fdchecksum32 ⟨blankContent flags level sample pib file, 0⟩
    (le16toh ((blankHeader flags level sample pib).get .pibLength)) Word.zero).1

theorem readSimplePib_of_le (file : Stream) (large : simplePibSize ≤ file.content.length) :
    ∃ size, readSimplePib file = some ⟨slice file.content 0 simplePibSize, size⟩ := by
  have exact : (slice file.content 0 simplePibSize).length = simplePibSize :=
    slice_length_of_le _ _ _ (by omega)
  exact ⟨exact, by simp [readSimplePib, -slice_length, exact]⟩

theorem readSimplePib_some (file : Stream) (pib : SimplePib) (found : readSimplePib file = some pib) :
    pib.bytes = slice file.content 0 simplePibSize ∧ simplePibSize ≤ file.content.length := by
  simp only [readSimplePib] at found
  split at found
  · rename_i exact
    cases found
    refine ⟨rfl, ?_⟩
    simp only [Stream.read_fst, Stream.seek_content, Stream.seek_position, slice_length] at exact
    omega
  · cases found

theorem overlay_header_again (bytes : Bytes) (header : SimplePib) (checksum : Word) :
    overlay (overlay bytes 0 header.bytes) 0 (setChecksum header checksum).bytes =
      overlay (overlay bytes 0 header.bytes) 8 checksum.toBytes := by
  have headerSize := header.size
  have newSize := (setChecksum header checksum).size
  unfold simplePibSize at headerSize newSize
  have large : 460 ≤ (overlay bytes 0 header.bytes).length := by
    rw [overlay_length]
    omega
  apply ext_getElem?
  intro index
  by_cases inHeader : index < 460
  · rw [overlay_getElem?_inside _ _ _ _ (by omega) (by omega), Nat.sub_zero]
    by_cases inChecksum : 8 ≤ index ∧ index < 12
    · rw [overlay_getElem?_inside _ _ _ _ inChecksum.1 (by simp; omega)]
      exact overlay_getElem?_inside _ 8 _ _ inChecksum.1 (by simp; omega)
    · rw [overlay_getElem?_outside _ 8 _ _ (by simp; omega) (by simp; omega),
        overlay_getElem?_inside _ _ _ _ (by omega) (by omega), Nat.sub_zero]
      exact overlay_getElem?_outside _ 8 _ _ (by simp; omega) (by simp; omega)
  · rw [overlay_getElem?_outside _ _ _ _ (by omega) (by omega),
      overlay_getElem?_outside _ 8 _ _ (by simp; omega) (by simp; omega)]

theorem pibedit_eq (file : NamedFile) (sample : SimplePib) (level : Int) (flags : UInt32)
    (pib : SimplePib) (found : readSimplePib file.file = some pib) :
    pibedit file sample level flags = .ok { file with file :=
      ⟨overlay (blankContent flags level sample pib file.file) 8
        (editChecksum flags level sample pib file.file).toBytes, simplePibSize⟩ } := by
  unfold pibedit
  simp only [found]
  congr 2
  have size := (setChecksum (blankHeader flags level sample pib)
    (editChecksum flags level sample pib file.file)).size
  simp only [Stream.write, Stream.seek, Nat.zero_add]
  congr 1
  exact overlay_header_again _ _ _

/-- The bytes an edit may change: the selected fields, the checksum, the network
identifier and, for a newer block whose key or level changes, the membership word. -/
def EditedByte (flags : UInt32) (pib : SimplePib) (index : Nat) : Prop :=
  HeaderEdited flags index ∨
    (WritesMembership flags pib ∧ membershipOffset ≤ index ∧ index < membershipOffset + 4)

/-- What an edit of `file`, whose header is `pib`, has to leave behind. -/
structure KeepsFile (file : NamedFile) (pib : SimplePib) (level : Int) (flags : UInt32)
    (edited : NamedFile) : Prop where
  accepted : ∃ checked, pibfile edited = .ok checked
  sameSize : edited.content.length = file.content.length
  frame : SameOutside (EditedByte flags pib) file.content edited.content
  nid : anyset flags (pibNmk ||| pibNid) = true → ∃ new, readSimplePib edited.file = some new ∧
      new.get .preferredNid = hpavKeyNid (new.get .nmk) (levelBit (nidLevel flags level pib))

theorem le16toh_lt (bytes : Bytes) : le16toh bytes < 2 ^ 16 := by
  have low := (bytes.getD 0 0).toNat_lt
  have high := (bytes.getD 1 0).toNat_lt
  unfold le16toh
  omega

theorem pibfile_ok_iff (pib : NamedFile) : (∃ checked, pibfile pib = .ok checked) ↔
      ∃ header, readSimplePib pib.file = some header ∧
        pib.content.length = le16toh (header.get .pibLength) ∧
        (fdchecksum32 (pib.file.seek 0) (le16toh (header.get .pibLength)) Word.zero).1 =
          Word.zero := by
  unfold pibfile
  cases readSimplePib pib.file with
  | none => simp
  | some header =>
    by_cases length : pib.content.length = le16toh (header.get .pibLength)
    · by_cases sum : (fdchecksum32 (pib.file.seek 0) (le16toh (header.get .pibLength))
          Word.zero).1 = Word.zero
      · simp [length, sum]
      · simp [length, sum]
    · simp [length]

theorem version_editFields (sample pib : SimplePib) :
    (editFields flags sample pib).get .pibVersion = pib.get .pibVersion := by
  apply SimplePib.get_eq_of_sameOutside (editFields_frame flags sample pib)
  intro index covered selected
  have range := selected.range
  simp only [PibField.Covers, PibField.pibVersion] at covered
  omega

theorem writesMembership_editFields (sample pib : SimplePib) :
    WritesMembership flags (editFields flags sample pib) ↔ WritesMembership flags pib := by
  unfold WritesMembership
  rw [version_editFields]

section Edit

variable (file : NamedFile) (sample : SimplePib) (level : Int) (flags : UInt32) (pib : SimplePib)

theorem blankContent_length (large : simplePibSize ≤ file.content.length) :
    (blankContent flags level sample pib file.file).length =
      if WritesMembership flags pib then max file.content.length (membershipOffset + 4)
      else file.content.length := by
  have size := (blankHeader flags level sample pib).size
  have far : simplePibSize ≤ membershipOffset := by decide
  rw [blankContent, overlay_length, clearMembership_eq, size]
  simp only [writesMembership_editFields, NamedFile.content] at large ⊢
  split
  · rw [overlay_length, Word.toBytes_length]
    omega
  · omega

theorem blankContent_frame (found : readSimplePib file.file = some pib)
    (room : ¬(WritesMembership flags pib ∧ file.content.length < membershipOffset + 4)) :
    SameOutside (EditedByte flags pib) file.content
      (blankContent flags level sample pib file.file) := by
  obtain ⟨bytes, large⟩ := readSimplePib_some _ _ found
  have size := (blankHeader flags level sample pib).size
  have membership : SameOutside (EditedByte flags pib) file.content
      (clearMembership flags (editFields flags sample pib) file.file).content := by
    rw [clearMembership_eq]
    simp only [writesMembership_editFields]
    split
    · rename_i writes
      refine (SameOutside.overlay _ _ _ ?_).mono fun index covered => Or.inr ⟨writes, covered⟩
      have notShort : ¬file.content.length < membershipOffset + 4 := fun short =>
        room ⟨writes, short⟩
      rw [Word.toBytes_length]
      exact Nat.le_of_not_lt notShort
    · exact SameOutside.refl _ _
  intro index outside
  by_cases inHeader : index < simplePibSize
  · rw [blankContent, overlay_getElem?_inside _ _ _ _ (by omega) (by omega), Nat.sub_zero,
      blankHeader_frame flags level sample pib index fun edited => outside (Or.inl edited),
      bytes, slice_getElem? _ _ _ _ inHeader, Nat.zero_add]
    rfl
  · have unchanged : simplePibSize ≤
        (clearMembership flags (editFields flags sample pib) file.file).content.length := by
      rw [clearMembership_eq]
      split
      · rw [overlay_length]
        omega
      · exact large
    rw [blankContent, overlay_getElem?_outside _ _ _ _ (by omega) (by omega)]
    exact membership index outside

def editedFile : NamedFile :=
  { file with file := ⟨overlay (blankContent flags level sample pib file.file) 8
      (editChecksum flags level sample pib file.file).toBytes, simplePibSize⟩ }

theorem slice_blankContent_header :
    slice (blankContent flags level sample pib file.file) 0 simplePibSize =
      (blankHeader flags level sample pib).bytes := by
  rw [blankContent, ← (blankHeader flags level sample pib).size]
  exact slice_overlay_self _ _ _

theorem slice_blankContent_field (field : PibField) :
    slice (blankContent flags level sample pib file.file) field.offset field.extent =
      (blankHeader flags level sample pib).get field := by
  have header := slice_blankContent_header file sample level flags pib
  rw [SimplePib.get, ← header, slice_slice _ _ _ _ _ field.inside, Nat.zero_add]

theorem simplePibSize_le_blankContent :
    simplePibSize ≤ (blankContent flags level sample pib file.file).length := by
  rw [blankContent, overlay_length, (blankHeader flags level sample pib).size]
  omega

theorem editedFile_header :
    ∃ new, readSimplePib (editedFile file sample level flags pib).file = some new ∧
      ∀ field : PibField, field.offset + field.extent ≤ 8 ∨ 12 ≤ field.offset →
        new.get field = (blankHeader flags level sample pib).get field := by
  have large := simplePibSize_le_blankContent file sample level flags pib
  have inside : 8 + (editChecksum flags level sample pib file.file).toBytes.length ≤
      (blankContent flags level sample pib file.file).length := by
    simp only [Word.toBytes_length, simplePibSize] at large ⊢
    omega
  obtain ⟨size, found⟩ := readSimplePib_of_le (editedFile file sample level flags pib).file
    (by rw [editedFile, overlay_length_of_le _ _ _ inside]; exact large)
  refine ⟨_, found, fun field disjoint => ?_⟩
  rw [← slice_blankContent_field file sample level flags pib field]
  have frame := SameOutside.overlay _ _ _ inside
  have same := frame.slice_eq field.offset field.extent fun index low high => by
    rw [Word.toBytes_length]
    omega
  rw [← same, SimplePib.get, slice_slice _ _ _ _ _ field.inside, Nat.zero_add]
  rfl

theorem pibLength_blankHeader :
    (blankHeader flags level sample pib).get .pibLength = pib.get .pibLength := by
  apply SimplePib.get_eq_of_sameOutside (blankHeader_frame flags level sample pib)
  intro index covered edited
  have range := edited.range
  simp only [PibField.Covers, PibField.pibLength] at covered
  omega

theorem preferredNid_blankHeader (changes : anyset flags (pibNmk ||| pibNid) = true) :
    (blankHeader flags level sample pib).get .preferredNid =
      hpavKeyNid ((blankHeader flags level sample pib).get .nmk)
        (levelBit (nidLevel flags level pib)) := by
  have oldNid : (editFields flags sample pib).get .preferredNid = pib.get .preferredNid := by
    apply SimplePib.get_eq_of_sameOutside (editFields_frame flags sample pib)
    intro index covered selected
    have range := selected.range
    simp only [PibField.Covers, PibField.preferredNid] at covered
    omega
  have level_eq : nidLevel flags level (editFields flags sample pib) =
      nidLevel flags level pib := by
    unfold nidLevel
    rw [oldNid]
  have keepsChecksum : ∀ header : SimplePib, ∀ field : PibField, 12 ≤ field.offset →
      (setChecksum header Word.zero).get field = header.get field := by
    intro header field high
    apply SimplePib.get_eq_of_sameOutside (SimplePib.set_frame _ _ _ _)
    intro index covered inChecksum
    simp only [PibField.Covers, PibField.checksum] at covered inChecksum
    omega
  have keepsNmk : (deriveNid flags level (editFields flags sample pib)).get .nmk =
      (editFields flags sample pib).get .nmk := by
    rw [deriveNid, if_pos changes]
    apply SimplePib.get_eq_of_sameOutside (SimplePib.set_frame _ _ _ _)
    intro index covered inNid
    simp only [PibField.Covers, PibField.nmk, PibField.preferredNid] at covered inNid
    omega
  rw [blankHeader, keepsChecksum _ _ (by decide), keepsChecksum _ _ (by decide), keepsNmk,
    deriveNid, if_pos changes, ← level_eq]
  exact SimplePib.get_set_self _ _ _ _

theorem editedFile_sum (length : (blankContent flags level sample pib file.file).length =
      le16toh (pib.get .pibLength))
    (aligned : le16toh (pib.get .pibLength) % 4 = 0) :
    (fdchecksum32 ((editedFile file sample level flags pib).file.seek 0)
      (le16toh (pib.get .pibLength)) Word.zero).1 = Word.zero := by
  have large := simplePibSize_le_blankContent file sample level flags pib
  unfold simplePibSize at large
  have inside : 8 + (editChecksum flags level sample pib file.file).toBytes.length ≤
      (blankContent flags level sample pib file.file).length := by
    simp only [Word.toBytes_length]
    omega
  have words : le16toh (pib.get .pibLength) = 4 * (le16toh (pib.get .pibLength) / 4) := by omega
  have blank : slice (blankContent flags level sample pib file.file) (4 * 2) 4 =
      Word.zero.toBytes :=
    (slice_blankContent_field file sample level flags pib .checksum).trans
      (SimplePib.get_set_self _ .checksum Word.zero.toBytes rfl)
  have checksum : editChecksum flags level sample pib file.file =
      (Word.xorSum (blankContent flags level sample pib file.file) Word.zero).complement := by
    rw [editChecksum, pibLength_blankHeader, words,
      fdchecksum32_inside _ _ _ (by simp only; omega), checksum32, ← words, ← length, slice_all]
  have content : (editedFile file sample level flags pib).file.content =
      overlay (blankContent flags level sample pib file.file) (4 * 2)
        (editChecksum flags level sample pib file.file).toBytes := rfl
  have total : (editedFile file sample level flags pib).file.content.length =
      le16toh (pib.get .pibLength) := by
    rw [content, overlay_length_of_le _ _ _ inside, length]
  rw [words, fdchecksum32_inside _ _ _
    (by simp only [Stream.seek_position, Stream.seek_content]; omega), ← words]
  simp only [Stream.seek_position, Stream.seek_content]
  rw [← total, slice_all, content, checksum32, xorSum_overlay _ 2 _ _ (by omega) blank,
    Word.complement_eq_zero_iff, Word.xor_comm, Word.xor_eq_allOnes_iff]
  exact checksum

theorem editedFile_length : (editedFile file sample level flags pib).content.length =
      (blankContent flags level sample pib file.file).length := by
  have large := simplePibSize_le_blankContent file sample level flags pib
  unfold simplePibSize at large
  refine overlay_length_of_le _ _ _ ?_
  rw [Word.toBytes_length]
  omega

theorem pibedit_extends_short_file (header : readSimplePib file.file = some pib)
    (writes : WritesMembership flags pib)
    (short : file.content.length < membershipOffset + 4) (edited : NamedFile)
    (success : pibedit file sample level flags = .ok edited) :
    edited.content.length = membershipOffset + 4 := by
  obtain rfl : editedFile file sample level flags pib = edited :=
    Except.ok.inj ((pibedit_eq file sample level flags pib header).symm.trans success)
  rw [editedFile_length, blankContent_length _ _ _ _ _ (readSimplePib_some _ _ header).2,
    if_pos writes]
  omega

end Edit

/-- After an edit the file is again a valid block of the same size with only
the selected bytes changed, exactly when no membership word is written behind
the end of a file that is too short to have one. -/
theorem pibedit_keeps_file_iff (file : NamedFile) (sample : SimplePib) (level : Int)
    (flags : UInt32) (pib : SimplePib) (header : readSimplePib file.file = some pib)
    (accepted : ∃ checked, pibfile file = .ok checked)
    (aligned : file.content.length % 4 = 0) :
    (∃ edited, pibedit file sample level flags = .ok edited ∧
        KeepsFile file pib level flags edited) ↔
      ¬(WritesMembership flags pib ∧ file.content.length < membershipOffset + 4) := by
  obtain ⟨bytes, large⟩ := readSimplePib_some _ _ header
  obtain ⟨header', header'_eq, length, -⟩ := (pibfile_ok_iff file).mp accepted
  obtain rfl : pib = header' := Option.some.inj (header.symm.trans header'_eq)
  have blankLarge := simplePibSize_le_blankContent file sample level flags pib
  unfold simplePibSize at blankLarge
  have inside : 8 + (editChecksum flags level sample pib file.file).toBytes.length ≤
      (blankContent flags level sample pib file.file).length := by
    simp only [Word.toBytes_length]
    omega
  have blankLength := blankContent_length file sample level flags pib large
  have editedLength := editedFile_length file sample level flags pib
  constructor
  · rintro ⟨edited, success, keeps⟩ ⟨writes, short⟩
    have extended := pibedit_extends_short_file file sample level flags pib header writes short
      edited success
    have sameSize := keeps.sameSize
    omega
  · intro room
    have sameLength : (blankContent flags level sample pib file.file).length =
        file.content.length := by
      rw [blankLength]
      split
      · rename_i writes
        have notShort : ¬file.content.length < membershipOffset + 4 := fun short =>
          room ⟨writes, short⟩
        omega
      · rfl
    obtain ⟨new, found, fields⟩ := editedFile_header file sample level flags pib
    have newLength : new.get .pibLength = pib.get .pibLength := by
      rw [fields .pibLength (by decide), pibLength_blankHeader]
    refine ⟨_, pibedit_eq file sample level flags pib header, ?_, ?_, ?_, ?_⟩
    · rw [pibfile_ok_iff]
      refine ⟨new, found, ?_, ?_⟩
      · rw [newLength]
        exact editedLength.trans (sameLength.trans length)
      · rw [newLength]
        exact editedFile_sum file sample level flags pib (sameLength.trans length)
          (by rw [← length]; exact aligned)
    · exact editedLength.trans sameLength
    · refine (blankContent_frame file sample level flags pib header room).trans ?_
      refine (SameOutside.overlay _ _ _ inside).mono fun index covered => Or.inl (Or.inr (Or.inl ?_))
      exact covered
    · intro changes
      refine ⟨new, found, ?_⟩
      rw [fields .preferredNid (by decide), fields .nmk (by decide)]
      exact preferredNid_blankHeader sample level flags pib changes

/-- A block that ends with its header: 460 bytes, version 3.0. -/
def headerOnlyPib : NamedFile where
  name := "header.pib"
  file := ⟨[0x03, 0, 0, 0, 0xCC, 0x01, 0, 0, 0x30, 0xFE, 0xFF, 0xFF] ++ List.replicate 448 0, 0⟩

theorem headerOnlyPib_length : headerOnlyPib.content.length = simplePibSize := by
  rw [NamedFile.content, headerOnlyPib, length_append, length_replicate]
  rfl

def headerOnly : SimplePib := ⟨headerOnlyPib.content, headerOnlyPib_length⟩

theorem headerOnlyPib_header : readSimplePib headerOnlyPib.file = some headerOnly := by
  obtain ⟨size, found⟩ := readSimplePib_of_le headerOnlyPib.file (Nat.le_of_eq headerOnlyPib_length.symm)
  rw [found, Option.some.injEq, headerOnly, SimplePib.mk.injEq, ← headerOnlyPib_length]
  exact slice_all _

theorem headerOnlyPib_accepted : ∃ checked, pibfile headerOnlyPib = .ok checked := by
  rw [pibfile_ok_iff]
  exact ⟨headerOnly, headerOnlyPib_header, by decide +kernel, by decide +kernel⟩

/-- Setting only the station address keeps the short block valid. -/
theorem pibedit_mac_keeps_headerOnlyPib :
    ∃ edited, pibedit headerOnlyPib headerOnly 0 pibMac = .ok edited ∧
      KeepsFile headerOnlyPib headerOnly 0 pibMac edited :=
  (pibedit_keeps_file_iff headerOnlyPib headerOnly 0 pibMac headerOnly headerOnlyPib_header
    headerOnlyPib_accepted (by rw [headerOnlyPib_length]; rfl)).mpr fun ⟨writes, _⟩ =>
      absurd writes.1 (by decide)

/-- Setting the network key of the same block makes it longer than its length
field says. -/
theorem pibedit_nmk_breaks_headerOnlyPib :
    (∃ checked, pibfile headerOnlyPib = .ok checked) ∧ headerOnlyPib.content.length % 4 = 0 ∧
      ¬∃ edited, pibedit headerOnlyPib headerOnly 0 pibNmk = .ok edited ∧
        KeepsFile headerOnlyPib headerOnly 0 pibNmk edited := by
  refine ⟨headerOnlyPib_accepted, by rw [headerOnlyPib_length]; rfl, ?_⟩
  rintro ⟨edited, success, keeps⟩
  have extended := pibedit_extends_short_file headerOnlyPib headerOnly 0 pibNmk headerOnly
    headerOnlyPib_header (by decide +kernel)
    (by rw [headerOnlyPib_length]; decide) edited success
  have sameSize := keeps.sameSize
  rw [extended, headerOnlyPib_length] at sameSize
  exact absurd sameSize (by decide)

end AthApps.Plc
