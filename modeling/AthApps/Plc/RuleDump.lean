import AthApps.Plc.Rule

/-!
# Dumping classification rules

`pib/pibrump.c` prints the two rule tables of a PIB as a text for `pibruin`.
A classifier with a value of the width of its field is printed as three words
that parse to the same classifier again, except for the flow label: three
bytes are stored, four are printed, and the first one is lost on the way back.
Two little endian numbers are printed as the host reads them.
-/

set_option autoImplicit false

namespace AthApps.Plc

open AthApps.Lib List Option

/-- `printf` with `%0*X`, for numbers of at most `width` digits. -/
def upperHex (width n : Nat) : Bytes := (fixedDigits 16 width n).map upperDigit

/-- `printf` with `%0*x`, for numbers of at most `width` digits. -/
def lowerHex (width n : Nat) : Bytes := (fixedDigits 16 width n).map lowerDigit

/-- `printf` with `%d`, for numbers of at most ten digits. -/
def decimal (n : Nat) : Bytes := (decimalDigits 10 n).map lowerDigit

def bigValue (bytes : Bytes) : Nat := numeralValue 256 0 (bytes.map UInt8.toNat)

def hexstring (memory : Bytes) : Bytes :=
  [58].intercalate (memory.map fun byte => upperHex 2 byte.toNat)

@[grind =] def memout (format : UInt8 → Bytes) (group : Nat) (c : UInt8) : Nat → Bytes → Bytes
  | _, [] => []
  | _, [byte] => format byte
  | count, byte :: next :: rest =>
    format byte ++ (if (count + 1) % group = 0 then [c] else []) ++
      memout format group c (count + 1) (next :: rest)

def hostValue (bigEndian : Bool) (bytes : Bytes) : Nat :=
  bigValue (if bigEndian then bytes else bytes.reverse)

section Dump

variable (bigEndian : Bool)

/-- The state that the first four bytes of a value name as a code. -/
def stateWord (value : Bytes) : Option Bytes :=
  match hostValue bigEndian (value.take 4) with
  | 0 => reword Operator.is states
  | 1 => reword Operator.not states
  | _ => none

def dumpValue (field : Field) (value : Bytes) : Option Bytes :=
  match field with
  | .ethSa | .ethDa => some (hexstring (value.take 6))
  | .ipv4Sa | .ipv4Da => some (memout (fun byte => decimal byte.toNat) 1 46 0 (value.take 4))
  | .ipv6Sa | .ipv6Da => some (memout (fun byte => lowerHex 2 byte.toNat) 2 58 0 (value.take 16))
  | .vlanUp | .ipv6Tc | .ipv4Tos | .ipv4Prot =>
    some (letters "0x" ++ upperHex 2 (bigValue (value.take 1)))
  | .vlanId | .tcpSp | .tcpDp | .udpSp | .udpDp | .ipSp | .ipDp =>
    some (decimal (bigValue (value.take 2)))
  | .ethType => some (letters "0x" ++ upperHex 4 (hostValue bigEndian (value.take 2)))
  | .ipv6Fl => some (letters "0x" ++ upperHex 8 (bigValue (value.take 4)))
  | .hpavMme =>
    some (lowerHex 2 (bigValue (value.take 1)) ++ 58 ::
      lowerHex 4 (hostValue bigEndian ((value.drop 1).take 2)))
  | .tcpAck => stateWord bigEndian value
  | .vlanTag => stateWord bigEndian value

/-- A code without a name has no text: the tool would print a null string. -/
def dumpClassifier (classifier : Classifier) : Option Bytes := do
  let field ← Field.ofCode classifier.crId
  let operator ← Operator.ofCode classifier.crOperand
  let name ← reword field fields
  let operatorName ← reword operator operators
  let value ← dumpValue bigEndian field classifier.crValue
  some (name ++ 32 :: operatorName ++ 32 :: value)

def dumpAutoConnection (entry : AutoConnection) : Option Bytes := do
  let action ← reword entry.mAction actions
  let operand ← reword entry.mOperand operands
  let classifiers ← entry.classifiers.mapM (dumpClassifier bigEndian)
  let tag :=
    if entry.mAction = .tagTx then
      letters "-T 0x" ++ upperHex 8 entry.cspec.vlanTag ++ letters " -V " ++
        decimal entry.cspec.cspecVersion ++ [32]
    else []
  some (tag ++ action ++ 32 :: operand ++ 32 :: classifiers.flatMap (· ++ [32]) ++
    letters "add perm\n")

def dumpClassifierPriorityMap (map : ClassifierPriorityMap) : Option Bytes := do
  let priority ← reword map.priority actions
  let classifier ← dumpClassifier bigEndian map.classifier
  some (priority ++ letters " Any " ++ classifier ++ letters " add perm\n")

/-- The text that `pibrump` prints for the tables of one PIB file. -/
def pibrump (quiet : Bool) (tables : RuleTables) : Option Bytes := do
  let autoConnections ← tables.autoConnections.mapM (dumpAutoConnection bigEndian)
  let priorityMaps ← tables.priorityMaps.mapM (dumpClassifierPriorityMap bigEndian)
  some ((if quiet then [] else letters "# auto connection rules:\n") ++ autoConnections.flatten ++
    (if quiet then [] else letters "# priority mapping rules:\n") ++ priorityMaps.flatten)

end Dump

variable (field : Field) (operator : Operator)

/-- A word that `reword` prints for a code and that `lookup` takes back. -/
structure Named {α : Type} [DecidableEq α] (list : List (α × String)) (code : α)
    (name : Bytes) : Prop where
  prints : reword code list = some name
  reads : lookup name list = some code
  plain : PlainWord name
  noOption : name.head? ≠ some 45
  noControl : lookup name controls = none

def Action.name (action : Action) : Bytes := (reword action actions).getD []

def Operand.name (operand : Operand) : Bytes := (reword operand operands).getD []

def Operator.name : Bytes := (reword operator operators).getD []

def Field.name : Bytes := (reword field fields).getD []

theorem Action.named (action : Action) : Named actions action action.name := by
  cases action <;> constructor <;> decide

theorem Operand.named (operand : Operand) : Named operands operand operand.name := by
  cases operand <;> constructor <;> decide

theorem Operator.named : Named operators operator operator.name := by
  cases operator <;> constructor <;> decide

theorem Field.named : Named fields field field.name := by
  cases field <;> constructor <;> decide

theorem Field.ofCode_code : Field.ofCode field.code = some field := by
  cases field <;> rfl

theorem Operator.ofCode_code : Operator.ofCode operator.code = some operator := by
  cases operator <;> rfl

theorem digitValue_decimal {digit : Nat} (small : digit < 10) :
    digitValue (lowerDigit digit) = digit :=
  digitValue_lowerDigit digit (Nat.lt_trans small (by decide))

theorem scanDigits_upperHex {width n limit : Nat} {rest : Bytes} (fits : n < 16 ^ width)
    (within : n ≤ limit) (stop : NoDigit 16 rest) :
    scanDigits 16 limit (upperHex width n ++ rest) 0 = some (n, rest) := by
  have value := numeralValue_fixedDigits fits 0
  rw [Nat.zero_mul, Nat.zero_add] at value
  rw [upperHex, scanDigits_numeral digitValue_upperDigit (fixedDigits_lt (by decide) width n) stop 0
    (by rw [value]; exact within), value]

theorem scanDigits_lowerHex {width n value limit : Nat} {rest : Bytes}
    (fits : n < 16 ^ width) (within : value * 16 ^ width + n ≤ limit) (stop : NoDigit 16 rest) :
    scanDigits 16 limit (lowerHex width n ++ rest) value = some (value * 16 ^ width + n, rest) := by
  have total := numeralValue_fixedDigits fits value
  rw [lowerHex, scanDigits_numeral digitValue_lowerDigit (fixedDigits_lt (by decide) width n) stop
    value (by rw [total]; exact within), total]

theorem scanDigits_decimal {n limit : Nat} {rest : Bytes} (fits : n < 10 ^ 10)
    (within : n ≤ limit) (stop : NoDigit 10 rest) :
    scanDigits 10 limit (decimal n ++ rest) 0 = some (n, rest) := by
  have value := numeralValue_decimalDigits fits
  rw [decimal, scanDigits_numeral (fun digit small => digitValue_decimal small)
    (decimalDigits_lt 10 n) stop 0 (by rw [value]; exact within), value]

theorem basespec_upperHex {width n base size : Nat} (any : base = 0 ∨ base = 16)
    (fits : n < 16 ^ width) (within : n < 256 ^ size) :
    basespec (letters "0x" ++ upperHex width n) base size = some n := by
  have prefixed : ∀ radix text, announcedRadix radix (letters "0x" ++ text) = (16, text) := by
    intro radix text
    rfl
  have read := @scanDigits_upperHex width n (256 ^ size - 1) [] fits (by omega) (by simp [NoDigit])
  rw [append_nil] at read
  rw [basespec, prefixed]
  dsimp only
  rw [if_neg (by omega), read]

theorem announcedRadix_decimal {digits : List Nat} (small : ∀ digit ∈ digits, digit < 10)
    (limit : Nat) :
    ∃ text, announcedRadix 10 (digits.map lowerDigit) = (10, text) ∧
      scanDigits 10 limit text 0 = scanDigits 10 limit (digits.map lowerDigit) 0 := by
  have zero : ∀ digit < 10, lowerDigit digit = 48 → digit = 0 := by decide
  have letter : ∀ digit < 10, ¬ (lowerDigit digit = 98 ∨ lowerDigit digit = 66) ∧
      ¬ (lowerDigit digit = 100 ∨ lowerDigit digit = 68) ∧
      ¬ (lowerDigit digit = 120 ∨ lowerDigit digit = 88) := by decide
  match digits, small with
  | [], _ => exact ⟨[], rfl, rfl⟩
  | [digit], small =>
    by_cases first : lowerDigit digit = 48
    · refine ⟨[], ?_, ?_⟩
      · simp [announcedRadix, first]
      · simp only [map_cons, map_nil, first]
        simp [scanDigits, digitValue]
    · refine ⟨[lowerDigit digit], ?_, rfl⟩
      simp [announcedRadix, first]
  | digit :: next :: rest, small =>
    obtain ⟨binary, ten, hex⟩ := letter next (small next (by simp))
    by_cases first : lowerDigit digit = 48
    · refine ⟨(next :: rest).map lowerDigit, ?_, ?_⟩
      · simp only [map_cons, announcedRadix, first, binary, ten, hex, if_false]
      · simp only [map_cons, first]
        simp [scanDigits, digitValue]
    · refine ⟨(digit :: next :: rest).map lowerDigit, ?_, rfl⟩
      simp [announcedRadix, first]

theorem basespec_decimal {n base size : Nat} (any : base = 0 ∨ base = 10) (fits : n < 10 ^ 10)
    (within : n < 256 ^ size) : basespec (decimal n) base size = some n := by
  obtain ⟨text, announced, same⟩ := announcedRadix_decimal (decimalDigits_lt 10 n) (256 ^ size - 1)
  have read := @scanDigits_decimal n (256 ^ size - 1) [] fits (by omega) (by simp [NoDigit])
  rw [append_nil] at read
  have ten : (if base = 0 then 10 else base) = 10 := by
    rcases any with rfl | rfl <;> rfl
  rw [basespec, ten, decimal, announced]
  dsimp only
  rw [if_neg (by omega), same, ← decimal, read]

theorem toDigits_byte (byte : UInt8) :
    UInt8.ofNat (byte.toNat / 16 % 16 * 16 + byte.toNat % 16) = byte := by
  have small := byte.toNat_lt
  have whole : byte.toNat / 16 % 16 * 16 + byte.toNat % 16 = byte.toNat := by omega
  rw [whole, UInt8.ofNat_toNat]

theorem bytespecBytes_pair {character : Nat → UInt8} {first : Bool} {separator : Bytes}
    (reads : ∀ digit < 16, digitValue (character digit) = digit)
    (allowed : separator = [] ∨ first = false ∧ separator = [58]) (extent : Nat) (byte : UInt8)
    (rest : Bytes) :
    bytespecBytes (extent + 1) first
        (separator ++ (fixedDigits 16 2 byte.toNat).map character ++ rest) =
      (bytespecBytes extent false rest).map fun (bytes, left) => (byte :: bytes, left) := by
  have high := reads (byte.toNat / 16 % 16) (Nat.mod_lt _ (by decide))
  have low := reads (byte.toNat % 16) (Nat.mod_lt _ (by decide))
  have highSmall : byte.toNat / 16 % 16 < 16 := Nat.mod_lt _ (by decide)
  have lowSmall : byte.toNat % 16 < 16 := Nat.mod_lt _ (by decide)
  have digit : character (byte.toNat / 16 % 16) ≠ 58 := by
    intro colon
    rw [colon] at high
    have large : digitValue 58 = 255 := by decide
    omega
  rcases allowed with rfl | ⟨rfl, rfl⟩
  · simp only [fixedDigits, nil_append, map_cons, map_nil, cons_append,
      bytespecBytes, digit, and_false, if_false, todigit, high, low, highSmall, lowSmall, and_self,
      if_true, toDigits_byte]
  · simp only [fixedDigits, nil_append, map_cons, map_nil, cons_append,
      bytespecBytes, and_self, if_true, todigit, high, low, highSmall, lowSmall, toDigits_byte]

theorem dropWhile_isSpace_plain {text : Bytes} (plain : ∀ c ∈ text, isPlain c = true) :
    text.dropWhile isSpace = text := by
  cases text with
  | nil => rfl
  | cons c rest =>
    have printed := (isPlain_facts (Or.inl (plain c (by simp)))).1
    simp [List.dropWhile, printed]

theorem isPlain_upperDigit : ∀ digit < 16, isPlain (upperDigit digit) = true := by decide

theorem isPlain_lowerDigit : ∀ digit < 16, isPlain (lowerDigit digit) = true := by decide

theorem upperHex_plain (width n : Nat) : ∀ c ∈ upperHex width n, isPlain c = true := by
  intro c member
  obtain ⟨digit, inside, rfl⟩ := mem_map.mp member
  exact isPlain_upperDigit digit (fixedDigits_lt (by decide) width n digit inside)

theorem lowerHex_plain (width n : Nat) : ∀ c ∈ lowerHex width n, isPlain c = true := by
  intro c member
  obtain ⟨digit, inside, rfl⟩ := mem_map.mp member
  exact isPlain_lowerDigit digit (fixedDigits_lt (by decide) width n digit inside)

theorem decimal_plain (n : Nat) : ∀ c ∈ decimal n, isPlain c = true := by
  intro c member
  obtain ⟨digit, inside, rfl⟩ := mem_map.mp member
  exact isPlain_lowerDigit digit (Nat.lt_trans (decimalDigits_lt 10 n digit inside) (by decide))

variable {bytes : Bytes}

theorem bytespec_hexstring (exact : bytes.length = 6) :
    bytespec (hexstring bytes) 6 = some bytes ∧ NumeralWord (hexstring bytes) := by
  match bytes, exact with
  | [a, b, c, d, e, f], _ =>
    have written : hexstring [a, b, c, d, e, f] =
        [] ++ upperHex 2 a.toNat ++ ([58] ++ upperHex 2 b.toNat ++ ([58] ++ upperHex 2 c.toNat ++
          ([58] ++ upperHex 2 d.toNat ++ ([58] ++ upperHex 2 e.toNat ++
            ([58] ++ upperHex 2 f.toNat ++ []))))) := by
      simp [hexstring, List.intercalate]
    have plain : ∀ letter ∈ hexstring [a, b, c, d, e, f], isPlain letter = true := by
      intro letter member
      rw [written] at member
      simp only [mem_append, mem_singleton, not_mem_nil, or_false,
        false_or] at member
      rcases member with h | (rfl | h) | (rfl | h) | (rfl | h) | (rfl | h) | rfl | h
      all_goals first | decide | exact upperHex_plain _ _ _ h
    refine ⟨?_, ?_, ?_, plain⟩
    · have read : bytespecBytes 6 true (hexstring [a, b, c, d, e, f]) =
          some ([a, b, c, d, e, f], []) := by
        rw [written]
        unfold upperHex
        rw [bytespecBytes_pair digitValue_upperDigit (Or.inl rfl)]
        repeat rw [bytespecBytes_pair digitValue_upperDigit (Or.inr ⟨rfl, rfl⟩)]
        rfl
      rw [bytespec, dropWhile_isSpace_plain plain, read]
      rfl
    · rw [written]
      simp [upperHex, fixedDigits]
    · rw [written]
      simp [upperHex]

theorem bytespec_mme (a b c : UInt8) :
    bytespec (lowerHex 2 a.toNat ++ 58 :: lowerHex 4 (b.toNat * 256 + c.toNat)) 3 =
        some [a, b, c] ∧
      NumeralWord (lowerHex 2 a.toNat ++ 58 :: lowerHex 4 (b.toNat * 256 + c.toNat)) := by
  have digits : fixedDigits 16 4 (b.toNat * 256 + c.toNat) =
      fixedDigits 16 2 b.toNat ++ fixedDigits 16 2 c.toNat := by
    have bSmall := b.toNat_lt
    have cSmall := c.toNat_lt
    simp only [fixedDigits, nil_append, cons_append, List.cons.injEq, and_true]
    omega
  have plain : ∀ letter ∈ lowerHex 2 a.toNat ++ 58 :: lowerHex 4 (b.toNat * 256 + c.toNat),
      isPlain letter = true := by
    intro letter member
    rcases mem_append.mp member with member | member
    · exact lowerHex_plain _ _ _ member
    · rcases mem_cons.mp member with rfl | member
      · decide
      · exact lowerHex_plain _ _ _ member
  refine ⟨?_, ?_, ?_, plain⟩
  · have read : bytespecBytes 3 true
        (lowerHex 2 a.toNat ++ 58 :: lowerHex 4 (b.toNat * 256 + c.toNat)) =
        some ([a, b, c], []) := by
      have written : lowerHex 2 a.toNat ++ 58 :: lowerHex 4 (b.toNat * 256 + c.toNat) =
          [] ++ lowerHex 2 a.toNat ++ ([58] ++ lowerHex 2 b.toNat ++
            ([] ++ lowerHex 2 c.toNat ++ [])) := by
        simp [lowerHex, digits]
      rw [written]
      unfold lowerHex
      rw [bytespecBytes_pair digitValue_lowerDigit (Or.inl rfl),
        bytespecBytes_pair digitValue_lowerDigit (Or.inr ⟨rfl, rfl⟩),
        bytespecBytes_pair digitValue_lowerDigit (Or.inl rfl)]
      rfl
    rw [bytespec, dropWhile_isSpace_plain plain, read]
    rfl
  · simp
  · simp [lowerHex]

theorem noDigit_cons {radix : Nat} {c : UInt8} (other : radix ≤ digitValue c) (rest : Bytes) :
    NoDigit radix (c :: rest) := by
  intro first head
  rw [← Option.some.inj (mem_def.mp head)]
  exact other

theorem noDigit_nil (radix : Nat) : NoDigit radix [] := by simp [NoDigit]

theorem decimal_cons (n : Nat) : ∃ digit rest, decimal n = lowerDigit digit :: rest ∧ digit < 10 := by
  have some := decimalDigits_ne_nil 9 n
  obtain ⟨digit, rest, split⟩ := exists_cons_of_ne_nil some
  refine ⟨digit, rest.map lowerDigit, ?_, ?_⟩
  · rw [decimal, split]
    rfl
  · exact decimalDigits_lt 10 n digit (by rw [split]; simp)

theorem ipv4Octets_octet {first : Bool} {separator rest : Bytes}
    (allowed : separator = [] ∨ first = false ∧ separator = [46]) (stop : NoDigit 10 rest)
    (extent : Nat) (byte : UInt8) :
    ipv4Octets (extent + 1) first (separator ++ decimal byte.toNat ++ rest) =
      (ipv4Octets extent false rest).map fun (octets, left) => (byte :: octets, left) := by
  have small := byte.toNat_lt
  have read := @scanDigits_decimal byte.toNat 255 rest (by omega) (by omega) stop
  obtain ⟨digit, more, written, digitSmall⟩ := decimal_cons byte.toNat
  have noDot : lowerDigit digit ≠ 46 := by
    have all : ∀ digit < 10, lowerDigit digit ≠ 46 := by decide
    exact all digit digitSmall
  rw [written] at read ⊢
  rcases allowed with rfl | ⟨rfl, rfl⟩
  · simp only [nil_append, cons_append, ipv4Octets, noDot, and_false, if_false] at read ⊢
    rw [read]
    simp only [UInt8.ofNat_toNat]
  · simp only [nil_append, cons_append, ipv4Octets, and_self, if_true] at read ⊢
    rw [read]
    simp only [UInt8.ofNat_toNat]

theorem decimal_length {width n : Nat} (small : n < 10 ^ (width + 1)) :
    (decimal n).length ≤ width + 1 := by
  rw [decimal, length_map]
  exact decimalDigits_length_le 10 small

theorem ipv4spec_memout (exact : bytes.length = 4) :
    ipv4spec (memout (fun byte => decimal byte.toNat) 1 46 0 bytes) = some bytes ∧
      NumeralWord (memout (fun byte => decimal byte.toNat) 1 46 0 bytes) := by
  match bytes, exact with
  | [a, b, c, d], _ =>
    have written : memout (fun byte => decimal byte.toNat) 1 46 0 [a, b, c, d] =
        [] ++ decimal a.toNat ++ ([46] ++ decimal b.toNat ++
          ([46] ++ decimal c.toNat ++ ([46] ++ decimal d.toNat ++ []))) := by
      simp [memout]
    have dot : ∀ rest, NoDigit 10 ([46] ++ rest) := fun rest => noDigit_cons (by decide) rest
    refine ⟨?_, ?_, ?_, ?_⟩
    · have read : ipv4Octets 4 true (memout (fun byte => decimal byte.toNat) 1 46 0 [a, b, c, d]) =
          some ([a, b, c, d], []) := by
        rw [written, ipv4Octets_octet (Or.inl rfl) (by rw [append_assoc]; exact dot _)]
        repeat rw [ipv4Octets_octet (Or.inr ⟨rfl, rfl⟩) (by rw [append_assoc]; exact dot _)]
        rw [ipv4Octets_octet (Or.inr ⟨rfl, rfl⟩) (noDigit_nil 10)]
        rfl
      rw [ipv4spec, read]
      rfl
    · rw [written]
      simp
    · have first := @decimal_length 2 a.toNat (Nat.lt_trans a.toNat_lt (by decide))
      have second := @decimal_length 2 b.toNat (Nat.lt_trans b.toNat_lt (by decide))
      have third := @decimal_length 2 c.toNat (Nat.lt_trans c.toNat_lt (by decide))
      have fourth := @decimal_length 2 d.toNat (Nat.lt_trans d.toNat_lt (by decide))
      rw [written]
      simp only [length_append, length_singleton, length_nil]
      omega
    · intro letter member
      rw [written] at member
      simp only [mem_append, mem_singleton, not_mem_nil, or_false,
        false_or] at member
      rcases member with h | (rfl | h) | (rfl | h) | rfl | h
      all_goals first | decide | exact decimal_plain _ _ h

theorem scanDigits_pair {limit : Nat} {rest : Bytes} (a b : UInt8)
    (within : 65535 ≤ limit) (stop : NoDigit 16 rest) :
    scanDigits 16 limit (lowerHex 2 a.toNat ++ (lowerHex 2 b.toNat ++ rest)) 0 =
      some (a.toNat * 256 + b.toNat, rest) := by
  have aSmall := a.toNat_lt
  have bSmall := b.toNat_lt
  have digits : fixedDigits 16 4 (a.toNat * 256 + b.toNat) =
      fixedDigits 16 2 a.toNat ++ fixedDigits 16 2 b.toNat := by
    simp only [fixedDigits, nil_append, cons_append, List.cons.injEq, and_true]
    omega
  have written : lowerHex 2 a.toNat ++ (lowerHex 2 b.toNat ++ rest) =
      lowerHex 4 (a.toNat * 256 + b.toNat) ++ rest := by
    simp [lowerHex, digits]
  have fits : a.toNat * 256 + b.toNat < 16 ^ 4 := by omega
  rw [written, scanDigits_lowerHex fits (by omega) stop]
  simp

theorem ipv6Fields_field {stored separator rest : Bytes} (marker : Option Nat)
    (allowed : stored = [] ∧ separator = [] ∨ stored ≠ [] ∧ separator = [58])
    (stop : NoDigit 16 rest) (extent : Nat) (a b : UInt8) :
    ipv6Fields (extent + 1) stored marker
        (separator ++ (lowerHex 2 a.toNat ++ (lowerHex 2 b.toNat ++ rest))) =
      ipv6Fields extent (stored ++ [a, b]) marker rest := by
  have bSmall := b.toNat_lt
  have read := scanDigits_pair a b (Nat.le_refl 65535) stop
  have split : ∃ tail, lowerHex 2 a.toNat ++ (lowerHex 2 b.toNat ++ rest) =
      lowerDigit (a.toNat / 16 % 16) :: tail := by
    simp [lowerHex, fixedDigits]
  have high : UInt8.ofNat ((a.toNat * 256 + b.toNat) / 256) = a := by
    have quotient : (a.toNat * 256 + b.toNat) / 256 = a.toNat := by omega
    rw [quotient, UInt8.ofNat_toNat]
  have low : UInt8.ofNat (a.toNat * 256 + b.toNat) = b := by
    apply UInt8.toNat_inj.mp
    rw [UInt8.toNat_ofNat']
    omega
  obtain ⟨tail, written⟩ := split
  have noColon : lowerDigit (a.toNat / 16 % 16) ≠ 58 := by
    have all : ∀ digit < 16, lowerDigit digit ≠ 58 := by decide
    exact all _ (Nat.mod_lt _ (by decide))
  rw [written] at read ⊢
  rcases allowed with ⟨rfl, rfl⟩ | ⟨some, rfl⟩
  · simp only [nil_append, ipv6Fields, ne_eq, not_true_eq_false, false_and, if_false, read,
      high, low]
  · simp only [nil_append, cons_append, ipv6Fields, ne_eq, some, not_false_eq_true,
      true_and, if_true, head?_cons, Option.some.injEq, noColon, if_false, read, high, low]

theorem ipv6spec_memout (exact : bytes.length = 16) :
    ipv6spec (memout (fun byte => lowerHex 2 byte.toNat) 2 58 0 bytes) = some bytes ∧
      NumeralWord (memout (fun byte => lowerHex 2 byte.toNat) 2 58 0 bytes) := by
  match bytes, exact with
  | [a0, b0, a1, b1, a2, b2, a3, b3, a4, b4, a5, b5, a6, b6, a7, b7], _ =>
    let pair (a b : UInt8) (rest : Bytes) : Bytes :=
      lowerHex 2 a.toNat ++ (lowerHex 2 b.toNat ++ rest)
    have written : memout (fun byte => lowerHex 2 byte.toNat) 2 58 0
        [a0, b0, a1, b1, a2, b2, a3, b3, a4, b4, a5, b5, a6, b6, a7, b7] =
        [] ++ pair a0 b0 ([58] ++ pair a1 b1 ([58] ++ pair a2 b2 ([58] ++ pair a3 b3
          ([58] ++ pair a4 b4 ([58] ++ pair a5 b5 ([58] ++ pair a6 b6
            ([58] ++ pair a7 b7 []))))))) := by
      simp [memout, pair]
    have colon : ∀ rest, NoDigit 16 ([58] ++ rest) := fun rest => noDigit_cons (by decide) rest
    have plainPair : ∀ a b rest, (∀ c ∈ rest, isPlain c = true) →
        ∀ c ∈ pair a b rest, isPlain c = true := by
      intro a b rest others c member
      rcases mem_append.mp member with member | member
      · exact lowerHex_plain _ _ c member
      · rcases mem_append.mp member with member | member
        · exact lowerHex_plain _ _ c member
        · exact others c member
    have plainColon : ∀ rest : Bytes, (∀ c ∈ rest, isPlain c = true) →
        ∀ c ∈ [58] ++ rest, isPlain c = true := by
      intro rest others c member
      rcases mem_append.mp member with member | member
      · rw [mem_singleton.mp member]
        decide
      · exact others c member
    refine ⟨?_, ?_, ?_, ?_⟩
    · rw [ipv6spec, written]
      rw [ipv6Fields_field none (Or.inl ⟨rfl, rfl⟩) (colon _)]
      iterate 6 rw [ipv6Fields_field none (Or.inr ⟨by simp, rfl⟩) (colon _)]
      rw [ipv6Fields_field none (Or.inr ⟨by simp, rfl⟩) (noDigit_nil 16)]
      rfl
    · rw [written]
      simp [pair, lowerHex, fixedDigits]
    · rw [written]
      simp [pair, lowerHex]
    · rw [written]
      iterate 7 refine plainPair _ _ _ (plainColon _ ?_)
      exact plainPair _ _ _ (by simp)

/-- The number of bytes that a field stores in `CR_VALUE`. -/
def Field.width : Field → Nat
  | ethSa | ethDa => 6
  | ipv4Sa | ipv4Da => 4
  | ipv6Sa | ipv6Da => 16
  | vlanUp | ipv6Tc | ipv4Tos | ipv4Prot => 1
  | vlanId | tcpSp | tcpDp | udpSp | udpDp | ipSp | ipDp | ethType => 2
  | ipv6Fl | hpavMme => 3
  | tcpAck | vlanTag => 0

/-- What a dump and a parse make of the bytes of a value: the flow label loses
its first byte, all others stay. -/
def Field.reread (bytes : Bytes) : Bytes :=
  match field with
  | ipv6Fl => bytes.drop 1 ++ [0]
  | _ => bytes

theorem bigEndian_one (a : UInt8) : [UInt8.ofNat (bigValue [a])] = [a] := by
  simp [bigValue, numeralValue]

theorem bigEndian_two (a b : UInt8) : bigEndian 2 (bigValue [a, b]) = [a, b] := by
  have aSmall := a.toNat_lt
  have bSmall := b.toNat_lt
  have first : (a.toNat * 256 + b.toNat) / 256 % 256 = a.toNat := by omega
  have second : (a.toNat * 256 + b.toNat) % 256 = b.toNat := by omega
  simp [bigEndian, bigValue, numeralValue, fixedDigits, first, second]

theorem bigEndian_four (a b c d : UInt8) : bigEndian 4 (bigValue [a, b, c, d]) = [a, b, c, d] := by
  have aSmall := a.toNat_lt
  have bSmall := b.toNat_lt
  have cSmall := c.toNat_lt
  have dSmall := d.toNat_lt
  have value : bigValue [a, b, c, d] =
      a.toNat * 16777216 + b.toNat * 65536 + c.toNat * 256 + d.toNat := by
    simp only [bigValue, numeralValue, map_cons, map_nil, foldl_cons,
      foldl_nil]
    omega
  have first : bigValue [a, b, c, d] / 256 / 256 / 256 % 256 = a.toNat := by omega
  have second : bigValue [a, b, c, d] / 256 / 256 % 256 = b.toNat := by omega
  have third : bigValue [a, b, c, d] / 256 % 256 = c.toNat := by omega
  have fourth : bigValue [a, b, c, d] % 256 = d.toNat := by omega
  simp only [bigEndian, fixedDigits, nil_append, cons_append, map_cons,
    map_nil, first, second, third, fourth, UInt8.ofNat_toNat]

theorem numeralValue_lt {digits : List Nat} {value limit : Nat} (small : ∀ digit ∈ digits, digit < 256)
    (start : value < limit) : numeralValue 256 value digits < limit * 256 ^ digits.length := by
  induction digits generalizing value limit with
  | nil => simpa [numeralValue] using start
  | cons digit rest ih =>
    have here : value * 256 + digit < limit * 256 := by
      have digitSmall := small digit (by simp)
      omega
    have there := ih (fun other member => small other (by simp [member])) here
    have power : limit * 256 * 256 ^ rest.length = limit * 256 ^ (rest.length + 1) := by
      rw [Nat.pow_succ, Nat.mul_assoc, Nat.mul_comm 256]
    rw [length_cons, ← power]
    exact there

theorem bigValue_lt (bytes : Bytes) : bigValue bytes < 256 ^ bytes.length := by
  have small : ∀ digit ∈ bytes.map UInt8.toNat, digit < 256 := by
    intro digit member
    obtain ⟨byte, -, rfl⟩ := mem_map.mp member
    exact byte.toNat_lt
  have bound := numeralValue_lt small Nat.zero_lt_one
  rwa [length_map, Nat.one_mul] at bound

theorem upperHex_word (width n : Nat) (short : width ≤ 8) :
    NumeralWord (letters "0x" ++ upperHex width n) := by
  refine ⟨by simp [letters], ?_, ?_⟩
  · simp only [length_append, upperHex, length_map, fixedDigits_length]
    have two : (letters "0x").length = 2 := by decide
    omega
  · intro c member
    rcases mem_append.mp member with member | member
    · have all : ∀ c ∈ letters "0x", isPlain c = true := by decide
      exact all c member
    · exact upperHex_plain width n c member

theorem decimal_word {n : Nat} (small : n < 10 ^ 10) : NumeralWord (decimal n) := by
  obtain ⟨digit, rest, written, -⟩ := decimal_cons n
  have short := @decimal_length 9 n small
  exact ⟨by rw [written]; simp, by omega, decimal_plain n⟩

theorem parseValue_dumpValue (exact : bytes.length = field.width) :
    ∃ word, dumpValue false field (paddedValue bytes) = some word ∧ NumeralWord word ∧
      parseValue field operator word = some (operator, field.reread bytes) := by
  have states : parseValue .tcpAck operator (letters "True") = some (operator, []) ∧
      parseValue .vlanTag operator (letters "True") = some (operator, []) := by
    cases operator <;> exact ⟨by decide, by decide⟩
  have dumpedState : stateWord false (paddedValue []) = some (letters "True") := by decide
  have plainState : NumeralWord (letters "True") := by decide
  have fits : ∀ value, value < 65536 → value < 10 ^ 10 :=
    fun value small => Nat.lt_trans small (by decide)
  cases field
  case ethSa | ethDa =>
    have whole : (paddedValue bytes).take 6 = bytes := take_left' exact
    obtain ⟨read, plain⟩ := bytespec_hexstring exact
    exact ⟨_, by rw [dumpValue, whole], plain, by rw [parseValue, read]; rfl⟩
  case ipv4Sa | ipv4Da =>
    have whole : (paddedValue bytes).take 4 = bytes := take_left' exact
    obtain ⟨read, plain⟩ := ipv4spec_memout exact
    exact ⟨_, by rw [dumpValue, whole], plain, by rw [parseValue, read]; rfl⟩
  case ipv6Sa | ipv6Da =>
    have whole : (paddedValue bytes).take 16 = bytes := take_left' exact
    obtain ⟨read, plain⟩ := ipv6spec_memout exact
    exact ⟨_, by rw [dumpValue, whole], plain, by rw [parseValue, read]; rfl⟩
  case vlanUp | ipv6Tc | ipv4Tos | ipv4Prot =>
    obtain ⟨a, rfl⟩ := length_eq_one_iff.mp exact
    have small : bigValue [a] < 256 := bigValue_lt [a]
    have read : basespec (letters "0x" ++ upperHex 2 (bigValue [a])) 0 1 = some (bigValue [a]) :=
      basespec_upperHex (Or.inl rfl) (Nat.lt_of_lt_of_le small (by decide))
        (Nat.lt_of_lt_of_le small (by decide))
    refine ⟨letters "0x" ++ upperHex 2 (bigValue [a]), rfl, upperHex_word 2 _ (by decide), ?_⟩
    rw [parseValue, read, map_some, bigEndian_one]
    rfl
  case vlanId | tcpSp | tcpDp | udpSp | udpDp | ipSp | ipDp =>
    obtain ⟨a, b, rfl⟩ := length_eq_two.mp exact
    have small : bigValue [a, b] < 65536 := by
      simpa using bigValue_lt [a, b]
    have read : basespec (decimal (bigValue [a, b])) 0 2 = some (bigValue [a, b]) :=
      basespec_decimal (Or.inl rfl) (fits _ small) (Nat.lt_of_lt_of_le small (by decide))
    refine ⟨decimal (bigValue [a, b]), rfl, decimal_word (fits _ small), ?_⟩
    rw [parseValue, read, map_some, bigEndian_two]
    rfl
  case ethType =>
    obtain ⟨a, b, rfl⟩ := length_eq_two.mp exact
    have small : bigValue [b, a] < 65536 := by
      simpa using bigValue_lt [b, a]
    have read : basespec (letters "0x" ++ upperHex 4 (bigValue [b, a])) 0 2 =
        some (bigValue [b, a]) :=
      basespec_upperHex (Or.inl rfl) (Nat.lt_of_lt_of_le small (by decide))
        (Nat.lt_of_lt_of_le small (by decide))
    refine ⟨letters "0x" ++ upperHex 4 (bigValue [b, a]), rfl, upperHex_word 4 _ (by decide), ?_⟩
    rw [parseValue, read, map_some, bigEndian_two]
    rfl
  case ipv6Fl =>
    obtain ⟨a, b, c, rfl⟩ := length_eq_three.mp exact
    have small : bigValue [a, b, c, 0] < 4294967296 := by
      simpa using bigValue_lt [a, b, c, 0]
    have read : basespec (letters "0x" ++ upperHex 8 (bigValue [a, b, c, 0])) 0 4 =
        some (bigValue [a, b, c, 0]) :=
      basespec_upperHex (Or.inl rfl) (Nat.lt_of_lt_of_le small (by decide))
        (Nat.lt_of_lt_of_le small (by decide))
    refine ⟨letters "0x" ++ upperHex 8 (bigValue [a, b, c, 0]), rfl,
      upperHex_word 8 _ (by decide), ?_⟩
    rw [parseValue, read, map_some, bigEndian_four]
    rfl
  case hpavMme =>
    obtain ⟨a, b, c, rfl⟩ := length_eq_three.mp exact
    obtain ⟨read, plain⟩ := bytespec_mme a c b
    have first : bigValue [a] = a.toNat := by simp [bigValue, numeralValue]
    have second : bigValue [c, b] = c.toNat * 256 + b.toNat := by simp [bigValue, numeralValue]
    rw [← first, ← second] at read plain
    refine ⟨lowerHex 2 (bigValue [a]) ++ 58 :: lowerHex 4 (bigValue [c, b]), rfl, plain, ?_⟩
    rw [parseValue, read]
    rfl
  case tcpAck =>
    rw [eq_nil_of_length_eq_zero exact]
    exact ⟨_, dumpedState, plainState, states.1⟩
  case vlanTag =>
    rw [eq_nil_of_length_eq_zero exact]
    exact ⟨_, dumpedState, plainState, states.2⟩

end AthApps.Plc
