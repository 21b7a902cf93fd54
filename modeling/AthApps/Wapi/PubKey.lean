import AthApps.Lib.Attempt
import AthApps.Wapi.CertInfo

/-!
# The public key of a certificate

`x509_get_pubkey` walks over a certificate to its public key.  The check of the
object identifiers compares the bytes of a table of shorts and returns 1 where
they are the same, so the walk goes on for every identifier but one that nobody
uses; and `ParsePubKey` returns 0 wherever it gives up.
-/

set_option autoImplicit false

namespace AthApps.Wapi

open AthApps.Lib List

/-- The end of a walk: the return value -1, or a copy behind a buffer, where
nothing is known of what follows. -/
inductive Stop
  | refused
  | undefined
  deriving DecidableEq

abbrev Walk (α : Type) : Type := Attempt Nat Stop α

/-! ## The table of the object identifiers -/

/-- An entry of the tables; the arrays go on with zeros. -/
structure Woid where
  usOIDLen : Nat
  usParLen : Nat
  bOID : List UInt16
  bParameter : List UInt16

def gWOID : Woid :=
  ⟨8, 11, [0x2A, 0x81, 0x1C, 0xD7, 0x63, 0x01, 0x01, 0x01],
    [0x06, 0x09, 0x2A, 0x81, 0x1C, 0xD7, 0x63, 0x01, 0x01, 0x02, 0x01]⟩

def gPubKeyOID : Woid :=
  ⟨7, 11, [0x2A, 0x86, 0x48, 0xCE, 0x3D, 0x02, 0x01],
    [0x06, 0x09, 0x2A, 0x81, 0x1C, 0xD7, 0x63, 0x01, 0x01, 0x02, 0x01]⟩

def entries (array : List UInt16) : Bytes := array.map UInt16.toUInt8

/-- An array of shorts as it lies in memory; `big` says that the high byte is first. -/
def shorts (big : Bool) (array : List UInt16) : Bytes :=
  array.flatMap fun (entry : UInt16) =>
    if big then [(entry >>> 8).toUInt8, entry.toUInt8] else [entry.toUInt8, (entry >>> 8).toUInt8]

def hlpCheckOIDAndParam (big : Bool) (memory : Nat → UInt8) (woid : Woid) (oid : Bytes)
    (param : Option (Nat × Nat)) : Logged Nat Bool :=
  if oid.length = woid.usOIDLen ∧ (shorts big woid.bOID).take oid.length = oid then
    match param with
    | none => pure true
    | some (place, length) =>
      if length = woid.usParLen then do
        let bytes ← readBlock memory place length
        pure ((shorts big woid.bParameter).take length == bytes)
      else pure false
  else pure false

/-! ## The parsers -/

/-- What `ParseOID` returns: the bytes it copies, the length of the parameter
behind them and the place of it. -/
structure Oid where
  bytes : Bytes
  parLen : Nat
  next : Nat
  deriving DecidableEq

def parameterLength (memory : Nat → UInt8) (pMax next : Nat) : Logged Nat Nat := do
  let after ← readByte memory next
  if after = 5 then pure 2
  else do
    let length ← parseLength memory pMax (next + 1)
    pure ((length.1 + (length.2 - next)) % 2 ^ 32)

def parseOID (memory : Nat → UInt8) (pMax p : Nat) : Walk Oid := do
  let tag ← readByte memory p
  .require (tag = 6) .refused
  let length ← parseLength memory pMax (p + 1)
  let next := length.2 + length.1
  let parLen ← parameterLength memory pMax next
  let bytes ← readBlock memory length.2 length.1
  .require (length.1 ≤ 100) .undefined
  pure ⟨bytes, parLen, next⟩

def stringTags : Bytes := [12, 30, 28, 19, 3, 4]

def parseStringLength (memory : Nat → UInt8) (pMax p : Nat) : Logged Nat Nat := do
  let _ ← readByte memory p
  let length ← parseLength memory pMax (p + 1)
  pure length.1

/-- `ParseString` into a buffer of `room` bytes; a longer string is not copied. -/
def parseString (memory : Nat → UInt8) (pMax p room : Nat) : Walk (Option Bytes) := do
  let type ← readByte memory p
  let length ← parseLength memory pMax (p + 1)
  if room < length.1 then pure none
  else do
    .require (type ∈ stringTags) .refused
    let bytes ← readBlock memory length.2 length.1
    pure (some bytes)

/-- `ParseName` without a buffer: the place behind the name. -/
def parseName (memory : Nat → UInt8) (pMax p : Nat) : Logged Nat Nat := do
  let name ← parseSequence memory pMax p
  pure (name.2 + name.1)

def DateTag (tag : UInt8) : Prop := tag = 23 ∨ tag = 24

instance (tag : UInt8) : Decidable (DateTag tag) := inferInstanceAs (Decidable (_ ∨ _))

/-- `ParseValidity` without a structure to fill: the place behind the dates. -/
def parseValidity (memory : Nat → UInt8) (pMax p : Nat) : Walk Nat := do
  let dates ← parseSequence memory pMax p
  let tag ← readByte memory dates.2
  .require (DateTag tag) .refused
  let before ← parseSequence memory pMax dates.2
  let tag ← readByte memory (before.2 + before.1)
  .require (DateTag tag) .refused
  let after ← parseSequence memory pMax (before.2 + before.1)
  pure (after.2 + after.1)

def pubkeyLen : Nat := 48

def pubKeyLoop (big room : Bool) (memory : Nat → UInt8) (pMax p : Nat) : Walk Bytes := do
  let info ← parseSequence memory pMax p
  let algorithm ← parseSequence memory pMax info.2
  let oid ← parseOID memory pMax algorithm.2
  let same ← hlpCheckOIDAndParam big memory gPubKeyOID oid.bytes (some (oid.next, oid.parLen))
  .require (same = false) .refused
  let p := oid.next + oid.parLen
  let tag ← readByte memory p
  .require (tag &&& 0x1F = 3) .refused
  let length ← parseStringLength memory pMax p
  .require (length = pubkeyLen + 1 + 1) .refused
  let copied ← parseString memory pMax p length
  -- without a copy the identifier is still in the buffer
  let pTmp := copied.getD oid.bytes
  .require (pTmp.getD 1 0 = 4 ∧ pTmp.getD 0 0 = 0) .refused
  .require (room = true) .refused
  pure ((pTmp.drop 1).take (length - 1))

/-- The function behind its loop: the return value is 0 in any case. -/
def leave {α : Type} (loop : Walk α) : Walk (Option α) :=
  ⟨match loop.value with
    | .ok result => .ok (some result)
    | .error .refused => .ok none
    | .error .undefined => .error .undefined,
    loop.log⟩

def parsePubKey (big room : Bool) (memory : Nat → UInt8) (pMax p : Nat) :
    Walk (Option Bytes) :=
  leave (pubKeyLoop big room memory pMax p)

/-- `x509_get_pubkey` with the return value 0 and what it stores as the key. -/
def x509GetPubkey (big room : Bool) (memory : Nat → UInt8) (length : Nat) :
    Walk (Option Bytes) := do
  let pMax := length
  let certificate ← parseSequence memory pMax 0
  let tbsCertificate ← parseSequence memory pMax certificate.2
  let explicit ← parseSequence memory pMax tbsCertificate.2
  let version ← parseSequence memory pMax explicit.2
  let number ← readByte memory version.2
  -- only version 3
  .require (number = 2) .refused
  let pBAK := version.2 + version.1
  let serial ← parseSequence memory pMax pBAK
  let p := serial.2 + serial.1
  .require ((p - pBAK) % 2 ^ 32 ≤ 0xFF) .refused
  let algorithm ← parseSequence memory pMax p
  let oid ← parseOID memory pMax algorithm.2
  let p := oid.next + oid.parLen
  .require (p ≤ pMax) .refused
  let same ← hlpCheckOIDAndParam big memory gWOID oid.bytes none
  .require (same = false) .refused
  let issuer ← parseName memory pMax p
  let validity ← parseValidity memory pMax issuer
  let subject ← parseName memory pMax validity
  parsePubKey big room memory pMax subject

/-! ## Places in a certificate -/

section Places

variable (memory : Nat → UInt8) (pMax : Nat)

def contents (p : Nat) : Nat := (parseSequence memory pMax p).value.2

def behind (p : Nat) : Nat :=
  (parseSequence memory pMax p).value.2 + (parseSequence memory pMax p).value.1

/-- The contents of a value whose tag is one byte, and the place behind it. -/
def valueBytes (p : Nat) : Bytes :=
  (readBlock memory (parseLength memory pMax (p + 1)).value.2
    (parseLength memory pMax (p + 1)).value.1).value

def valueEnd (p : Nat) : Nat :=
  (parseLength memory pMax (p + 1)).value.2 + (parseLength memory pMax (p + 1)).value.1

/-- The parameter behind an identifier, and the place behind that. -/
def parLen (p : Nat) : Nat := (parameterLength memory pMax (valueEnd memory pMax p)).value

def parameterBytes (p : Nat) : Bytes :=
  (readBlock memory (valueEnd memory pMax p) (parLen memory pMax p)).value

def parameterEnd (p : Nat) : Nat := valueEnd memory pMax p + parLen memory pMax p

def explicitAt : Nat := contents memory pMax (contents memory pMax (contents memory pMax 0))

def versionAt : Nat := contents memory pMax (explicitAt memory pMax)

def serialAt : Nat := behind memory pMax (explicitAt memory pMax)

def signatureAt : Nat := contents memory pMax (behind memory pMax (serialAt memory pMax))

def issuerAt : Nat := parameterEnd memory pMax (signatureAt memory pMax)

def validityAt : Nat := behind memory pMax (issuerAt memory pMax)

def notBeforeAt : Nat := contents memory pMax (validityAt memory pMax)

def notAfterAt : Nat := behind memory pMax (notBeforeAt memory pMax)

def subjectAt : Nat := behind memory pMax (notAfterAt memory pMax)

def keyInfoAt : Nat := behind memory pMax (subjectAt memory pMax)

def algorithmAt : Nat := contents memory pMax (contents memory pMax (keyInfoAt memory pMax))

def bitStringAt : Nat := parameterEnd memory pMax (algorithmAt memory pMax)

end Places

/-! ## What is asked of it -/

section Extraction

variable (big room : Bool) (memory : Nat → UInt8) (length : Nat)

/-- The identifiers are the ones of the tables, and the key is the uncompressed
point of the certificate, all of it read inside the certificate. -/
structure PubkeyExtracted : Prop where
  inside : (x509GetPubkey big room memory length).All (· < length)
  signature : valueBytes memory length (signatureAt memory length) = entries gWOID.bOID
  algorithm : valueBytes memory length (algorithmAt memory length) = entries gPubKeyOID.bOID
  parameter : parameterBytes memory length (algorithmAt memory length) =
    entries gPubKeyOID.bParameter
  key : ∃ key, (x509GetPubkey big room memory length).value = .ok (some key) ∧
    key.length = pubkeyLen + 1 ∧ key.head? = some 4 ∧ memory (bitStringAt memory length) = 3 ∧
      valueBytes memory length (bitStringAt memory length) = 0 :: key

/-- The return value is 0 for such a key only. -/
def RejectsForeign : Prop :=
  (x509GetPubkey big room memory length).value ≠ .error .refused →
    PubkeyExtracted big room memory length

def TurnedDown : Prop :=
  memory (versionAt memory length) ≠ 2 ∨
    0xFF < (behind memory length (serialAt memory length) - serialAt memory length) % 2 ^ 32 ∨
    memory (signatureAt memory length) ≠ 6 ∨
    (valueBytes memory length (signatureAt memory length)).length ≤ 100 ∧
      (length < issuerAt memory length ∨
        valueBytes memory length (signatureAt memory length) = (shorts big gWOID.bOID).take 8 ∨
        ¬DateTag (memory (notBeforeAt memory length)) ∨
        ¬DateTag (memory (notAfterAt memory length)))

/-- The certificate has a signature and a key of the kinds the tables name; its
key is an uncompressed point and lies in the certificate. -/
structure WapiKey : Prop where
  room : room = true
  whole : valueEnd memory length (bitStringAt memory length) ≤ length
  signature : valueBytes memory length (signatureAt memory length) = entries gWOID.bOID
  identifier : memory (algorithmAt memory length) = 6
  algorithm : valueBytes memory length (algorithmAt memory length) = entries gPubKeyOID.bOID
  parameter : parameterBytes memory length (algorithmAt memory length) =
    entries gPubKeyOID.bParameter
  tag : memory (bitStringAt memory length) = 3
  size : (valueBytes memory length (bitStringAt memory length)).length = pubkeyLen + 2
  point : (valueBytes memory length (bitStringAt memory length)).take 2 = [0, 4]

end Extraction

/-! ## What the parsers return -/

section Values

open Attempt

variable {memory : Nat → UInt8} {pMax p : Nat}

theorem readByte_value : (readByte memory p).value = memory p := rfl

theorem valueBytes_length :
    (valueBytes memory pMax p).length = (parseLength memory pMax (p + 1)).value.1 :=
  readBlock_length _

theorem parseOID_eq_ok {oid : Oid} : (parseOID memory pMax p).value = .ok oid ↔
      memory p = 6 ∧ (valueBytes memory pMax p).length ≤ 100 ∧
        oid = ⟨valueBytes memory pMax p, parLen memory pMax p, valueEnd memory pMax p⟩ := by
  simp only [parseOID, bind_eq_ok, liftM_eq, lift_eq_ok, require_eq_ok, pure_eq_ok,
    exists_eq_left', exists_const, readByte_value, valueBytes_length]
  tauto

theorem parseOID_eq_refused : (parseOID memory pMax p).value = .error .refused ↔ memory p ≠ 6 := by
  simp [parseOID, bind_eq_error, readByte_value]

theorem parseValidity_eq_ok {next : Nat} : (parseValidity memory pMax p).value = .ok next ↔
      DateTag (memory (contents memory pMax p)) ∧
        DateTag (memory (behind memory pMax (contents memory pMax p))) ∧
        behind memory pMax (behind memory pMax (contents memory pMax p)) = next := by
  simp [parseValidity, bind_eq_ok, readByte_value, behind, contents]

theorem parseValidity_eq_error {reason : Stop} :
    (parseValidity memory pMax p).value = .error reason ↔ reason = .refused ∧
      ¬(DateTag (memory (contents memory pMax p)) ∧
        DateTag (memory (behind memory pMax (contents memory pMax p)))) := by
  simp only [parseValidity, bind_eq_error, liftM_eq, lift_ne_error, lift_eq_ok, require_eq_error,
    require_eq_ok, pure_ne_error, exists_eq_left', exists_const, readByte_value, behind, contents,
    false_or, or_false, and_false, eq_comm (a := Stop.refused)]
  grind

variable {big room : Bool} {length : Nat}

theorem shorts_length (array : List UInt16) : (shorts big array).length = 2 * array.length := by
  induction array with
  | nil => rfl
  | cons entry rest ih =>
    rw [shorts, flatMap_cons, length_append, ← shorts, ih, length_cons]
    split <;> simp <;> omega

theorem sameSignature_iff {oid : Bytes} :
    (hlpCheckOIDAndParam big memory gWOID oid none).value = true ↔
      oid = (shorts big gWOID.bOID).take 8 := by
  have length : ((shorts big gWOID.bOID).take 8).length = 8 := by
    rw [length_take, shorts_length]
    rfl
  unfold hlpCheckOIDAndParam
  split
  next same =>
    refine iff_of_true rfl ?_
    rw [← same.2, same.1]
    rfl
  next other =>
    refine iff_of_false (by simp) ?_
    rintro rfl
    exact other ⟨length, by rw [length]⟩

def Passed (big : Bool) (memory : Nat → UInt8) (length : Nat) : Prop :=
  memory (versionAt memory length) = 2 ∧
    (behind memory length (serialAt memory length) - serialAt memory length) % 2 ^ 32 ≤ 0xFF ∧
    memory (signatureAt memory length) = 6 ∧
    (valueBytes memory length (signatureAt memory length)).length ≤ 100 ∧
    issuerAt memory length ≤ length ∧
    valueBytes memory length (signatureAt memory length) ≠ (shorts big gWOID.bOID).take 8 ∧
    DateTag (memory (notBeforeAt memory length)) ∧
    DateTag (memory (notAfterAt memory length))

theorem parseName_value : (parseName memory pMax p).value = behind memory pMax p := rfl

theorem contents_eq : (parseSequence memory pMax p).value.2 = contents memory pMax p := rfl

theorem behind_eq :
    contents memory pMax p + (parseSequence memory pMax p).value.1 = behind memory pMax p := rfl

theorem places_eq :
    contents memory pMax (contents memory pMax (contents memory pMax 0)) = explicitAt memory pMax ∧
      contents memory pMax (explicitAt memory pMax) = versionAt memory pMax ∧
      behind memory pMax (explicitAt memory pMax) = serialAt memory pMax ∧
      contents memory pMax (behind memory pMax (serialAt memory pMax)) = signatureAt memory pMax ∧
      valueEnd memory pMax (signatureAt memory pMax) + parLen memory pMax (signatureAt memory pMax) =
        issuerAt memory pMax ∧
      behind memory pMax (issuerAt memory pMax) = validityAt memory pMax ∧
      contents memory pMax (validityAt memory pMax) = notBeforeAt memory pMax ∧
      behind memory pMax (notBeforeAt memory pMax) = notAfterAt memory pMax ∧
      behind memory pMax (notAfterAt memory pMax) = subjectAt memory pMax ∧
      behind memory pMax (subjectAt memory pMax) = keyInfoAt memory pMax :=
  ⟨rfl, rfl, rfl, rfl, rfl, rfl, rfl, rfl, rfl, rfl⟩

theorem leave_ne_refused {α : Type} {loop : Walk α} :
    (leave loop).value = .error .refused ↔ False := by
  unfold leave
  cases ended : loop.value with
  | ok result => simp [Attempt.value]
  | error reason => cases reason <;> simp [Attempt.value]

theorem leave_eq_some {α : Type} {loop : Walk α} {result : α} :
    (leave loop).value = .ok (some result) ↔ loop.value = .ok result := by
  unfold leave
  cases ended : loop.value with
  | ok other => simp [Attempt.value]
  | error reason => cases reason <;> simp [Attempt.value]

theorem x509_eq_ok {key : Option Bytes} :
    (x509GetPubkey big room memory length).value = .ok key ↔ Passed big memory length ∧
      (parsePubKey big room memory length (keyInfoAt memory length)).value = .ok key := by
  simp only [x509GetPubkey, bind_eq_ok, liftM_eq, lift_eq_ok, require_eq_ok, exists_eq_left',
    exists_const, readByte_value, parseOID_eq_ok, parseValidity_eq_ok, parseName_value,
    contents_eq, behind_eq, places_eq, and_assoc, exists_eq_left, exists_and_left, Bool.eq_false_iff,
    ne_eq, sameSignature_iff, Passed]

theorem x509_eq_refused : (x509GetPubkey big room memory length).value = .error .refused ↔
      TurnedDown big memory length := by
  simp only [x509GetPubkey, bind_eq_error, liftM_eq, lift_eq_ok, require_eq_ok, exists_eq_left',
    exists_const, readByte_value, parseOID_eq_ok, parseValidity_eq_ok, parseName_value,
    contents_eq, behind_eq, places_eq, and_assoc, exists_eq_left, exists_and_left, Bool.eq_false_iff,
    ne_eq, sameSignature_iff, TurnedDown, lift_ne_error, require_eq_error, parseOID_eq_refused,
    parseValidity_eq_error, parsePubKey, leave_ne_refused, false_or, and_true, true_and, or_false,
    and_false, ← Nat.not_le]
  tauto

/-! ## The key -/

theorem stringTags_bitString (tag : UInt8) : tag &&& 0x1F = 3 ∧ tag ∈ stringTags ↔ tag = 3 := by
  constructor
  · rintro ⟨low, member⟩
    simp only [stringTags, mem_cons, not_mem_nil, or_false] at member
    rcases member with rfl | rfl | rfl | rfl | rfl | rfl <;> first | rfl | exact absurd low (by decide)
  · rintro rfl
    decide

theorem parseString_eq_ok {copied : Option Bytes} :
    (parseString memory pMax p (valueBytes memory pMax p).length).value = .ok copied ↔
      memory p ∈ stringTags ∧ some (valueBytes memory pMax p) = copied := by
  simp only [parseString, bind_eq_ok, liftM_eq, lift_eq_ok, exists_eq_left', readByte_value,
    valueBytes_length, Nat.lt_irrefl, if_false, require_eq_ok, exists_const, pure_eq_ok]
  rfl

theorem parseStringLength_value :
    (parseStringLength memory pMax p).value = (valueBytes memory pMax p).length :=
  valueBytes_length.symm

theorem uncompressed_iff {bytes key : Bytes} :
    (bytes.length = pubkeyLen + 1 + 1 ∧ bytes.getD 1 0 = 4 ∧ bytes.getD 0 0 = 0 ∧
        (bytes.drop 1).take (bytes.length - 1) = key) ↔
      bytes = 0 :: key ∧ key.length = pubkeyLen + 1 ∧ key.head? = some 4 := by
  match bytes with
  | [] => simp [pubkeyLen]
  | [first] => simp [pubkeyLen]; grind
  | first :: second :: rest =>
    have whole : ((first :: second :: rest).drop 1).take ((first :: second :: rest).length - 1) =
        second :: rest := by
      simp
    rw [whole]
    simp only [length_cons, getD_cons_succ, getD_cons_zero, List.cons.injEq]
    constructor
    · rintro ⟨size, rfl, rfl, rfl⟩
      exact ⟨⟨rfl, rfl⟩, Nat.succ.inj size, rfl⟩
    · rintro ⟨⟨rfl, rfl⟩, size, head⟩
      exact ⟨congrArg (· + 1) size, Option.some.inj head, rfl, rfl⟩

theorem pubKeyLoop_eq_ok {identifier bits : Nat}
    (here : contents memory pMax (contents memory pMax p) = identifier)
    (there : parameterEnd memory pMax identifier = bits) {key : Bytes} :
    (pubKeyLoop big room memory pMax p).value = .ok key ↔
      memory identifier = 6 ∧ (valueBytes memory pMax identifier).length ≤ 100 ∧
        (hlpCheckOIDAndParam big memory gPubKeyOID (valueBytes memory pMax identifier)
          (some (valueEnd memory pMax identifier, parLen memory pMax identifier))).value = false ∧
        memory bits = 3 ∧ room = true ∧ valueBytes memory pMax bits = 0 :: key ∧
        key.length = pubkeyLen + 1 ∧ key.head? = some 4 := by
  rw [parameterEnd] at there
  rw [← uncompressed_iff, ← stringTags_bitString]
  simp only [pubKeyLoop, bind_eq_ok, liftM_eq, lift_eq_ok, require_eq_ok, exists_eq_left',
    exists_const, readByte_value, parseOID_eq_ok, contents_eq, and_assoc, exists_eq_left,
    exists_and_left, parseStringLength_value, parseString_eq_ok, Option.getD_some, pure_eq_ok, here,
    there]
  tauto

end Values

/-! ## What the parsers read -/

section Reads

open Logged

variable {memory : Nat → UInt8} {pMax p : Nat}

variable {property : Nat → Prop}

theorem all_readByte : All property (readByte memory p) ↔ property p := by
  simp [All, readByte]

theorem readBlock_inside {count : Nat} :
    All (· < pMax) (readBlock memory p count) ↔ count = 0 ∨ p + count ≤ pMax := by
  simp only [All, readBlock, mem_range'_1]
  constructor
  · intro inside
    rcases Nat.eq_zero_or_pos count with zero | positive
    · exact .inl zero
    · have last := inside (p + count - 1) (by omega)
      exact .inr (by omega)
  · rintro room place ⟨low, high⟩
    omega

theorem le_lengthLoop (n l : Nat) : p ≤ (lengthLoop memory pMax n p l).value.2 := by
  induction n generalizing p l with
  | zero => exact Nat.le_refl p
  | succ n ih =>
    rw [lengthLoop]
    split
    next =>
      rw [bind_value]
      exact Nat.le_trans (Nat.le_succ p) (ih _)
    next => exact Nat.le_refl p

theorem lengthLoop_inside (n l : Nat) : All (· < pMax) (lengthLoop memory pMax n p l) := by
  induction n generalizing p l with
  | zero => exact all_pure _
  | succ n ih =>
    rw [lengthLoop]
    split
    next room => exact (all_bind _ _).mpr ⟨all_readByte.mpr room, ih _⟩
    next => exact all_pure _

theorem lt_parseLength : p < (parseLength memory pMax p).value.2 := by
  rw [parseLength, bind_value]
  split
  next => exact le_lengthLoop _ _
  next => exact Nat.lt_succ_self p

theorem parseLength_inside (start : p < pMax) : All (· < pMax) (parseLength memory pMax p) := by
  rw [parseLength, all_bind, all_readByte]
  refine ⟨start, ?_⟩
  split
  next => exact lengthLoop_inside _ _
  next => exact all_pure _

theorem lt_tagLoop (n : Nat) : p < (tagLoop memory pMax n p).value := by
  induction n generalizing p with
  | zero => exact Nat.lt_succ_self p
  | succ n ih =>
    rw [tagLoop, bind_value]
    split
    next => exact Nat.lt_of_succ_lt ih
    next => exact Nat.lt_succ_self p

theorem tagLoop_inside (n : Nat) (start : p < pMax) : All (· < pMax) (tagLoop memory pMax n p) := by
  induction n generalizing p with
  | zero => exact (all_bind _ _).mpr ⟨all_readByte.mpr start, all_pure _⟩
  | succ n ih =>
    rw [tagLoop, all_bind, all_readByte]
    refine ⟨start, ?_⟩
    split
    next more => exact ih more.2
    next => exact all_pure _

def tag (memory : Nat → UInt8) (pMax p : Nat) : Logged Nat Nat :=
  if memory p &&& 0x1F = 0x1F then tagLoop memory pMax (pMax - (p + 1)) (p + 1) else pure (p + 1)

theorem parseSequence_eq :
    parseSequence memory pMax p =
      (readByte memory p >>= fun _ => tag memory pMax p >>= parseLength memory pMax) := by
  unfold tag
  by_cases long : memory p &&& 0x1F = 0x1F
  · simp only [parseSequence, readByte, bind, long, if_true]
  · simp only [parseSequence, readByte, bind, long, if_false]

theorem lt_tag : p < (tag memory pMax p).value := by
  unfold tag
  split
  next => exact Nat.lt_of_succ_lt (lt_tagLoop _)
  next => exact Nat.lt_succ_self p

theorem lt_contents : p + 1 < contents memory pMax p := by
  rw [contents, parseSequence_eq, bind_value, bind_value]
  exact Nat.lt_of_le_of_lt lt_tag lt_parseLength

theorem contents_le_behind : contents memory pMax p ≤ behind memory pMax p := Nat.le_add_right _ _

theorem lt_behind : p < behind memory pMax p :=
  Nat.lt_of_lt_of_le (Nat.lt_of_succ_lt lt_contents) contents_le_behind

theorem parseSequence_inside (last : contents memory pMax p ≤ pMax) :
    All (· < pMax) (parseSequence memory pMax p) := by
  have start : p + 1 < contents memory pMax p := lt_contents
  rw [contents, parseSequence_eq, bind_value, bind_value] at last
  have length : (tag memory pMax p).value < pMax := Nat.lt_of_lt_of_le lt_parseLength last
  have here : p < (tag memory pMax p).value := lt_tag
  rw [parseSequence_eq, all_bind, all_bind, all_readByte]
  refine ⟨by omega, ?_, parseLength_inside length⟩
  unfold tag
  split
  next => exact tagLoop_inside _ (by omega)
  next => exact all_pure _

theorem lt_valueEnd : p + 1 < valueEnd memory pMax p :=
  Nat.lt_of_lt_of_le lt_parseLength (Nat.le_add_right _ _)

theorem valueEnd_le_parameterEnd : valueEnd memory pMax p ≤ parameterEnd memory pMax p :=
  Nat.le_add_right _ _

theorem parameterLength_inside {next : Nat} (room : next + 2 ≤ pMax) :
    All (· < pMax) (parameterLength memory pMax next) := by
  rw [parameterLength, all_bind, all_readByte]
  refine ⟨by omega, ?_⟩
  split
  next => exact all_pure _
  next => exact (all_bind _ _).mpr ⟨parseLength_inside (by omega), all_pure _⟩

theorem parseOID_inside (room : valueEnd memory pMax p + 2 ≤ pMax) :
    (parseOID memory pMax p).All (· < pMax) := by
  have start : p + 1 < valueEnd memory pMax p := lt_valueEnd
  simp only [parseOID, Attempt.all_bind, Attempt.liftM_eq, Attempt.all_lift, Attempt.lift_eq_ok,
    Attempt.all_require, Attempt.all_pure, forall_eq', implies_true, and_true, true_and,
    all_readByte, Attempt.require_eq_ok]
  refine ⟨by omega, fun _ _ => ⟨parseLength_inside (by omega), parameterLength_inside room, ?_⟩⟩
  exact readBlock_inside.mpr (.inr (Nat.le_trans (Nat.le_add_right _ 2) room))

theorem parseValidity_inside
    (last : behind memory pMax (behind memory pMax (contents memory pMax p)) ≤ pMax) :
    (parseValidity memory pMax p).All (· < pMax) := by
  have before : contents memory pMax p < behind memory pMax (contents memory pMax p) := lt_behind
  have after : behind memory pMax (contents memory pMax p) <
      behind memory pMax (behind memory pMax (contents memory pMax p)) := lt_behind
  simp only [parseValidity, Attempt.all_bind, Attempt.liftM_eq, Attempt.all_lift, Attempt.lift_eq_ok,
    Attempt.all_require, Attempt.all_pure, forall_eq', implies_true, and_true, true_and,
    all_readByte, Attempt.require_eq_ok, contents_eq, behind_eq]
  refine ⟨parseSequence_inside (by omega), by omega, fun _ _ => ⟨?_, by omega, fun _ _ => ?_⟩⟩
  · exact parseSequence_inside (Nat.le_trans contents_le_behind (by omega))
  · exact parseSequence_inside (Nat.le_trans contents_le_behind last)

theorem parseName_inside (last : behind memory pMax p ≤ pMax) :
    All (· < pMax) (parseName memory pMax p) := by
  rw [parseName, all_bind]
  exact ⟨parseSequence_inside (Nat.le_trans contents_le_behind last), all_pure _⟩

theorem parseString_inside (known : memory p ∈ stringTags) (some : valueBytes memory pMax p ≠ []) :
    (parseString memory pMax p (valueBytes memory pMax p).length).All (· < pMax) ↔
      valueEnd memory pMax p ≤ pMax := by
  have start : p + 1 < (parseLength memory pMax (p + 1)).value.2 := lt_parseLength
  have positive : (parseLength memory pMax (p + 1)).value.1 ≠ 0 := by
    rw [← valueBytes_length]
    exact fun none => some (length_eq_zero_iff.mp none)
  simp only [parseString, Attempt.all_bind, Attempt.liftM_eq, Attempt.all_lift, Attempt.lift_eq_ok,
    forall_eq', all_readByte, valueBytes_length, Nat.lt_irrefl, if_false, Attempt.all_require,
    Attempt.require_eq_ok, Attempt.all_pure, implies_true, and_true, true_and, readByte_value, known,
    forall_const, readBlock_inside, positive, false_or, valueEnd]
  constructor
  · rintro ⟨-, -, whole⟩
    exact whole
  · intro whole
    exact ⟨by omega, parseLength_inside (by omega), whole⟩

theorem parseStringLength_inside (start : p + 1 < pMax) :
    All (· < pMax) (parseStringLength memory pMax p) := by
  rw [parseStringLength, all_bind, all_bind, all_readByte]
  exact ⟨by omega, parseLength_inside start, all_pure _⟩

theorem hlpCheck_known (big : Bool) (param : Option (Nat × Nat)) :
    hlpCheckOIDAndParam big memory gPubKeyOID (entries gPubKeyOID.bOID) param = pure false := by
  unfold hlpCheckOIDAndParam
  rw [if_neg]
  cases big <;> decide

theorem hlpCheck_reads (big : Bool) (oid : Bytes) :
    All property (hlpCheckOIDAndParam big memory gWOID oid none) := by
  unfold hlpCheckOIDAndParam
  split <;> exact all_pure _

theorem pubKeyLoop_inside {big room : Bool} {identifier bits : Nat} {key : Bytes}
    (here : contents memory pMax (contents memory pMax p) = identifier)
    (there : parameterEnd memory pMax identifier = bits)
    (known : valueBytes memory pMax identifier = entries gPubKeyOID.bOID)
    (parameter : 2 ≤ parLen memory pMax identifier)
    (taken : (pubKeyLoop big room memory pMax p).value = .ok key) :
    (pubKeyLoop big room memory pMax p).All (· < pMax) ↔ valueEnd memory pMax bits ≤ pMax := by
  obtain ⟨first, short, -, third, -, bytes, size, -⟩ := (pubKeyLoop_eq_ok here there).mp taken
  have oid := parseOID_eq_ok.mpr ⟨first, short, rfl⟩
  have tagged : memory bits &&& 0x1F = 3 := by
    rw [third]
    rfl
  have copied : memory bits ∈ stringTags := by
    rw [third]
    decide
  have whole : (valueBytes memory pMax bits).length = pubkeyLen + 1 + 1 := by
    rw [bytes, length_cons, size]
  have info : contents memory pMax p < identifier := by
    rw [← here]
    exact Nat.lt_of_succ_lt lt_contents
  have next : identifier < valueEnd memory pMax identifier := Nat.lt_of_succ_lt lt_valueEnd
  have last : bits + 1 < valueEnd memory pMax bits := lt_valueEnd
  rw [parameterEnd] at there
  simp only [pubKeyLoop, Attempt.all_bind, Attempt.liftM_eq, Attempt.all_lift, Attempt.lift_eq_ok,
    Attempt.all_require, Attempt.all_pure, forall_eq', implies_true, and_true, true_and,
    all_readByte, Attempt.require_eq_ok, contents_eq, oid, Except.ok.injEq, forall_const,
    parseStringLength_value, here, there, readByte_value, tagged, known, hlpCheck_known, all_pure,
    pure_value, parseString_inside copied (by rw [bytes]; simp)]
  constructor
  · rintro ⟨-, -, -, -, -, inside⟩
    exact inside whole
  · intro inside
    refine ⟨parseSequence_inside (by omega), parseSequence_inside (by rw [here]; omega),
      parseOID_inside (by omega), by omega, parseStringLength_inside (by omega), fun _ => inside⟩

theorem lt_behind_succ : p + 1 < behind memory pMax p :=
  Nat.lt_of_lt_of_le lt_contents contents_le_behind

theorem places_lt :
    contents memory pMax 0 < contents memory pMax (contents memory pMax 0) ∧
      contents memory pMax (contents memory pMax 0) < explicitAt memory pMax ∧
      explicitAt memory pMax < versionAt memory pMax ∧
      versionAt memory pMax ≤ serialAt memory pMax ∧
      serialAt memory pMax < behind memory pMax (serialAt memory pMax) ∧
      behind memory pMax (serialAt memory pMax) < signatureAt memory pMax ∧
      signatureAt memory pMax < valueEnd memory pMax (signatureAt memory pMax) ∧
      valueEnd memory pMax (signatureAt memory pMax) ≤ issuerAt memory pMax ∧
      issuerAt memory pMax + 1 < validityAt memory pMax ∧
      validityAt memory pMax < subjectAt memory pMax ∧
      subjectAt memory pMax < keyInfoAt memory pMax ∧
      keyInfoAt memory pMax < bitStringAt memory pMax ∧
      bitStringAt memory pMax < valueEnd memory pMax (bitStringAt memory pMax) := by
  refine ⟨Nat.lt_of_succ_lt lt_contents, Nat.lt_of_succ_lt lt_contents,
    Nat.lt_of_succ_lt lt_contents, contents_le_behind, lt_behind, Nat.lt_of_succ_lt lt_contents,
    Nat.lt_of_succ_lt lt_valueEnd, valueEnd_le_parameterEnd, lt_behind_succ, ?_, lt_behind, ?_,
    Nat.lt_of_succ_lt lt_valueEnd⟩
  · calc validityAt memory pMax < notBeforeAt memory pMax := Nat.lt_of_succ_lt lt_contents
      _ < notAfterAt memory pMax := lt_behind
      _ < subjectAt memory pMax := lt_behind
  · calc keyInfoAt memory pMax
        < contents memory pMax (keyInfoAt memory pMax) := Nat.lt_of_succ_lt lt_contents
      _ < algorithmAt memory pMax := Nat.lt_of_succ_lt lt_contents
      _ < valueEnd memory pMax (algorithmAt memory pMax) := Nat.lt_of_succ_lt lt_valueEnd
      _ ≤ bitStringAt memory pMax := valueEnd_le_parameterEnd

theorem all_leave {α : Type} {loop : Walk α} :
    (leave loop).All property ↔ loop.All property := Iff.rfl

theorem x509GetPubkey_inside {big room : Bool} {length : Nat} {key : Bytes}
    (passed : Passed big memory length)
    (known : valueBytes memory length (algorithmAt memory length) = entries gPubKeyOID.bOID)
    (parameter : 2 ≤ parLen memory length (algorithmAt memory length))
    (taken : (pubKeyLoop big room memory length (keyInfoAt memory length)).value = .ok key) :
    (x509GetPubkey big room memory length).All (· < length) ↔
      valueEnd memory length (bitStringAt memory length) ≤ length := by
  obtain ⟨version, short, first, fits, room, other, before, after⟩ := passed
  have oid := parseOID_eq_ok.mpr ⟨first, fits, rfl⟩
  have dates := parseValidity_eq_ok.mpr ⟨before, after, rfl⟩
  simp only [x509GetPubkey, Attempt.all_bind, Attempt.liftM_eq, Attempt.all_lift, Attempt.lift_eq_ok,
    Attempt.all_require, forall_eq', true_and, all_readByte, Attempt.require_eq_ok, contents_eq,
    behind_eq, places_eq, oid, Except.ok.injEq, forall_const, readByte_value, version, short, room,
    Bool.eq_false_iff, ne_eq, sameSignature_iff, other, not_false_eq_true, hlpCheck_reads,
    parseName_value, dates, parsePubKey, all_leave,
    pubKeyLoop_inside rfl rfl known parameter taken]
  constructor
  · rintro ⟨-, -, -, -, -, -, -, -, -, -, -, inside⟩
    exact inside
  · intro inside
    obtain ⟨h1, h2, h3, h4, h5, h6, h7, h8, h9, h10, h11, h12, h13⟩ := @places_lt memory length
    refine ⟨parseSequence_inside ?_, parseSequence_inside ?_, parseSequence_inside ?_,
      parseSequence_inside ?_, ?_, parseSequence_inside (Nat.le_trans contents_le_behind ?_),
      parseSequence_inside ?_, parseOID_inside ?_, parseName_inside ?_, parseValidity_inside ?_,
      parseName_inside ?_, inside⟩
    all_goals try simp only [places_eq]
    all_goals omega

end Reads

/-! ## The keys that are taken -/

section Taken

variable {big room : Bool} {memory : Nat → UInt8} {length : Nat}

theorem passed_iff (short : (valueBytes memory length (signatureAt memory length)).length ≤ 100) :
    Passed big memory length ↔ ¬TurnedDown big memory length := by
  simp only [Passed, TurnedDown, not_or, not_not, ne_eq, Nat.not_lt, short, true_and]

theorem parLen_of_parameter {array : List UInt16} {p : Nat}
    (known : parameterBytes memory length p = entries array) :
    parLen memory length p = array.length := by
  have count := congrArg List.length known
  rwa [parameterBytes, readBlock_length, entries, length_map] at count

theorem WapiKey.extracted (key : WapiKey room memory length)
    (walked : ¬TurnedDown big memory length) : PubkeyExtracted big room memory length := by
  have short : (valueBytes memory length (signatureAt memory length)).length ≤ 100 := by
    rw [key.signature]
    decide
  have passed := (passed_iff short).mpr walked
  obtain ⟨taken, bytes, size, head⟩ : ∃ taken, valueBytes memory length (bitStringAt memory length) =
      0 :: taken ∧ taken.length = pubkeyLen + 1 ∧ taken.head? = some 4 := by
    have size := key.size
    have point := key.point
    match whole : valueBytes memory length (bitStringAt memory length) with
    | [] => rw [whole] at size; cases size
    | [first] => rw [whole] at size; cases size
    | first :: second :: rest =>
      rw [whole] at size point
      simp only [take_succ_cons, take_zero, List.cons.injEq, and_true] at point
      exact ⟨second :: rest, by rw [point.1], Nat.succ.inj size, by rw [point.2]; rfl⟩
  have loop : (pubKeyLoop big room memory length (keyInfoAt memory length)).value = .ok taken := by
    refine (pubKeyLoop_eq_ok rfl rfl).mpr ⟨key.identifier, ?_, ?_, key.tag, key.room, bytes, size, head⟩
    · exact (congrArg List.length key.algorithm).trans_le (by decide)
    · exact congrArg Logged.value ((congrArg
        (hlpCheckOIDAndParam big memory gPubKeyOID · _) key.algorithm).trans (hlpCheck_known big _))
  have parameter : 2 ≤ parLen memory length (algorithmAt memory length) := by
    rw [parLen_of_parameter key.parameter]
    decide
  exact ⟨(x509GetPubkey_inside passed key.algorithm parameter loop).mpr key.whole, key.signature,
    key.algorithm, key.parameter, taken, x509_eq_ok.mpr ⟨passed, leave_eq_some.mpr loop⟩, size, head,
    key.tag, bytes⟩

theorem PubkeyExtracted.wapiKey (extracted : PubkeyExtracted big room memory length) :
    WapiKey room memory length := by
  obtain ⟨key, taken, size, head, tag, bytes⟩ := extracted.key
  obtain ⟨passed, leaves⟩ := x509_eq_ok.mp taken
  have loop := leave_eq_some.mp leaves
  obtain ⟨identifier, -, -, -, room, -⟩ := (pubKeyLoop_eq_ok rfl rfl).mp loop
  have parameter : 2 ≤ parLen memory length (algorithmAt memory length) := by
    rw [parLen_of_parameter extracted.parameter]
    decide
  have whole := (x509GetPubkey_inside passed extracted.algorithm parameter loop).mp extracted.inside
  refine ⟨room, whole, extracted.signature, identifier, extracted.algorithm, extracted.parameter, tag,
    ?_, ?_⟩
  · rw [bytes, length_cons, size]
  · rw [bytes, take_succ_cons, take_one, head]
    rfl

end Taken

/-- Only certificates that an earlier check turns down, and those of the right kinds, are
treated as they should be. -/
theorem x509GetPubkey_rejectsForeign_iff (big room : Bool) (memory : Nat → UInt8) (length : Nat) :
    RejectsForeign big room memory length ↔
      TurnedDown big memory length ∨ WapiKey room memory length := by
  by_cases turned : TurnedDown big memory length
  · refine iff_of_true (fun goes => ?_) (.inl turned)
    exact absurd (x509_eq_refused.mpr turned) goes
  · have goes : (x509GetPubkey big room memory length).value ≠ .error .refused := by
      rwa [ne_eq, x509_eq_refused]
    constructor
    · intro rejects
      exact .inr (rejects goes).wapiKey
    · rintro (down | key) _
      · exact absurd down turned
      · exact key.extracted turned

/-- A certificate with a signature and a key of another kind. -/
def foreignCertificate : Bytes :=
  [0x30, 0x2B, 0x30, 0x29, 0xA0, 0x03, 0x02, 0x01, 0x02, 0x02, 0x01, 0x01,
    0x30, 0x06, 0x06, 0x02, 0x2A, 0x03, 0x05, 0x00, 0x30, 0x00,
    0x30, 0x04, 0x17, 0x00, 0x17, 0x00, 0x30, 0x00,
    0x30, 0x0D, 0x30, 0x06, 0x06, 0x02, 0x2A, 0x04, 0x05, 0x00, 0x03, 0x03, 0x00, 0x30, 0x00]

/-- The return value for it is 0, and no key is stored. -/
theorem foreignCertificate_accepted :
    (x509GetPubkey true true (foreignCertificate.getD · 0) 45).value = .ok none ∧
      ¬RejectsForeign true true (foreignCertificate.getD · 0) 45 := by
  have accepted : (x509GetPubkey true true (foreignCertificate.getD · 0) 45).value = .ok none := by
    rfl
  refine ⟨accepted, fun rejects => ?_⟩
  obtain ⟨key, taken, -⟩ := (rejects (by rw [accepted]; simp)).key
  rw [accepted] at taken
  cases taken

end AthApps.Wapi
