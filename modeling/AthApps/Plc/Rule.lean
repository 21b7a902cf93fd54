import AthApps.Lib.Text

/-!
# Classification rules

`pib/pibruin.c` reads classification rules from a text, `int6k/ParseRule.c`
turns the words of one rule into a `rule` structure with the symbol tables of
`int6k/rules.c`, and `handle_rule` puts the rule into one of two tables of the
PIB.  Wherever the tools print a message and exit, and wherever they would read
a missing word or write behind a structure, the model has no result.  What the
parser stores in a value does not depend on the byte order of the host; the
other members are read and written in that order by both tools.
-/

set_option autoImplicit false

namespace AthApps.Plc

open AthApps.Lib

inductive Control where
  | add
  | rem
  deriving DecidableEq

inductive Volatility where
  | temp
  | perm
  deriving DecidableEq

inductive Action where
  | cap0
  | cap1
  | cap2
  | cap3
  | drop
  | boost
  | dropRx
  | stripTx
  | stripRx
  | tagTx
  deriving DecidableEq

inductive Operand where
  | all
  | any
  | always
  deriving DecidableEq

inductive Operator where
  | is
  | not
  deriving DecidableEq

inductive Field where
  | ethDa
  | ethSa
  | vlanUp
  | vlanId
  | ipv4Tos
  | ipv4Prot
  | ipv4Sa
  | ipv4Da
  | ipv6Tc
  | ipv6Fl
  | ipv6Sa
  | ipv6Da
  | tcpSp
  | tcpDp
  | udpSp
  | udpDp
  | ipSp
  | ipDp
  | hpavMme
  | ethType
  | tcpAck
  | vlanTag
  deriving DecidableEq

def Operator.code : Operator → UInt8
  | is => 0x00
  | not => 0x01

def Operator.ofCode : UInt8 → Option Operator
  | 0x00 => some is
  | 0x01 => some not
  | _ => none

def Operator.xor : Operator → Operator → Operator
  | is, other => other
  | not, is => not
  | not, not => is

def Field.code : Field → UInt8
  | ethDa => 0x00
  | ethSa => 0x01
  | vlanUp => 0x02
  | vlanId => 0x03
  | ipv4Tos => 0x04
  | ipv4Prot => 0x05
  | ipv4Sa => 0x06
  | ipv4Da => 0x07
  | ipv6Tc => 0x08
  | ipv6Fl => 0x09
  | ipv6Sa => 0x0A
  | ipv6Da => 0x0B
  | tcpSp => 0x0C
  | tcpDp => 0x0D
  | udpSp => 0x0E
  | udpDp => 0x0F
  | ipSp => 0xE0
  | ipDp => 0xE1
  | hpavMme => 0xE2
  | ethType => 0xE3
  | tcpAck => 0xE4
  | vlanTag => 0xE5

def controls : List (Control × String) :=
  [(.add, "Add"), (.rem, "Rem"), (.rem, "Remove")]

def volatilities : List (Volatility × String) :=
  [(.temp, "Temp"), (.perm, "Perm")]

/-- `ACTION_DROPTX` is another name of `ACTION_DROP`. -/
def actions : List (Action × String) :=
  [(.cap0, "CAP0"), (.cap1, "CAP1"), (.cap2, "CAP2"), (.cap3, "CAP3"), (.boost, "Boost"),
    (.drop, "Drop"), (.drop, "DropTX"), (.dropRx, "DropRX"), (.stripTx, "StripTX"),
    (.stripRx, "StripRX"), (.tagTx, "TagTX")]

def operands : List (Operand × String) :=
  [(.all, "All"), (.any, "Any"), (.always, "Always")]

def fields : List (Field × String) :=
  [(.ethDa, "EthDA"), (.ethSa, "EthSA"), (.vlanUp, "VLANUP"), (.vlanId, "VLANID"),
    (.ipv4Tos, "IPv4TOS"), (.ipv4Prot, "IPv4PROT"), (.ipv4Sa, "IPv4SA"), (.ipv4Da, "IPv4DA"),
    (.ipv6Tc, "IPv6TC"), (.ipv6Fl, "IPv6FL"), (.ipv6Sa, "IPv6SA"), (.ipv6Da, "IPv6DA"),
    (.tcpSp, "TCPSP"), (.tcpDp, "TCPDP"), (.udpSp, "UDPSP"), (.udpDp, "UDPDP"),
    (.ipSp, "IPSP"), (.ipDp, "IPDP"), (.hpavMme, "MME"), (.ethType, "ET"),
    (.tcpAck, "TCPAck"), (.vlanTag, "VLANTag")]

def operators : List (Operator × String) :=
  [(.is, "Is"), (.not, "Not")]

def states : List (Operator × String) :=
  [(.is, "True"), (.not, "False"), (.is, "On"), (.not, "Off"), (.is, "Yes"), (.not, "No"),
    (.is, "Present"), (.not, "Missing")]

section Symbols

variable {α : Type}

/-- The code of the first name of the list that a word spells, in any case. -/
def lookup (name : Bytes) (list : List (α × String)) : Option α :=
  if name = [] then none
  else (list.find? fun item => equalFold (letters item.2) name).map Prod.fst

def reword [DecidableEq α] (code : α) (list : List (α × String)) : Option Bytes :=
  (list.find? fun item => decide (item.1 = code)).map fun item => letters item.2

end Symbols

def Field.ofCode (code : UInt8) : Option Field :=
  (fields.find? fun item => decide (item.1.code = code)).map Prod.fst

def todigit (c : UInt8) : Nat := digitValue c

def announcedRadix (radix : Nat) : Bytes → Nat × Bytes
  | 48 :: c :: rest =>
    if c = 98 ∨ c = 66 then (2, rest)
    else if c = 100 ∨ c = 68 then (10, rest)
    else if c = 120 ∨ c = 88 then (16, rest)
    else (radix, c :: rest)
  | [48] => (radix, [])
  | text => (radix, text)

/-- A number of at most `size` bytes; base 0 stands for any base. -/
def basespec (string : Bytes) (base size : Nat) : Option Nat :=
  let (radix, number) := announcedRadix (if base = 0 then 10 else base) string
  if base ≠ 0 ∧ base ≠ radix then none
  else
    match scanDigits radix (256 ^ size - 1) number 0 with
    | some (value, []) => some value
    | _ => none

/-- The loop of `bytespec`: two hexadecimal digits for a byte, and a colon may
stand before any but the first. -/
@[grind =] def bytespecBytes : Nat → Bool → Bytes → Option (Bytes × Bytes)
  | 0, _, number => some ([], number)
  | _ + 1, _, [] => some ([], [])
  | extent + 1, first, c :: rest =>
    match (if first = false ∧ c = 58 then rest else c :: rest) with
    | high :: low :: rest =>
      if todigit high < 16 ∧ todigit low < 16 then
        (bytespecBytes extent false rest).map fun (bytes, left) =>
          (UInt8.ofNat (todigit high * 16 + todigit low) :: bytes, left)
      else none
    | _ => none

def bytespec (string : Bytes) (extent : Nat) : Option Bytes :=
  match bytespecBytes extent true (string.dropWhile isSpace) with
  | some (bytes, left) =>
    if left.dropWhile isSpace = [] ∧ bytes.length = extent then some bytes else none
  | none => none

@[grind =] def ipv4Octets : Nat → Bool → Bytes → Option (Bytes × Bytes)
  | 0, _, number => some ([], number)
  | _ + 1, _, [] => some ([], [])
  | extent + 1, first, c :: rest =>
    match scanDigits 10 255 (if first = false ∧ c = 46 then rest else c :: rest) 0 with
    | some (value, number) =>
      (ipv4Octets extent false number).map fun (octets, left) => (UInt8.ofNat value :: octets, left)
    | none => none

def ipv4spec (string : Bytes) : Option Bytes :=
  match ipv4Octets 4 true string with
  | some (octets, left) => if octets.length = 4 ∧ left = [] then some octets else none
  | none => none

/-- The loop of `ipv6spec`: the bytes stored so far grow by one field, and an
empty field marks the place that is widened. -/
@[grind =] def ipv6Fields : Nat → Bytes → Option Nat → Bytes → Option (Bytes × Option Nat × Bytes)
  | 0, stored, marker, number => some (stored, marker, number)
  | _ + 1, stored, marker, [] => some (stored, marker, [])
  | extent + 1, stored, marker, c :: rest =>
    let number := if stored ≠ [] ∧ c = 58 then rest else c :: rest
    let marker := if stored ≠ [] ∧ number.head? = some 58 then some stored.length else marker
    match scanDigits 16 0xFFFF number 0 with
    | some (value, number) =>
      ipv6Fields extent (stored ++ [UInt8.ofNat (value / 256), UInt8.ofNat value]) marker number
    | none => none

def ipv6spec (string : Bytes) : Option Bytes :=
  match ipv6Fields 8 [] none string with
  | some (stored, some marker, []) =>
    some (stored.take marker ++ List.replicate (16 - stored.length) 0 ++ stored.drop marker)
  | some (stored, none, []) => if stored.length = 16 then some stored else none
  | _ => none

structure Classifier where
  crId : UInt8
  crOperand : UInt8
  crValue : Bytes
  deriving DecidableEq

/-- The members of `cspec` in host order; `RSVD` is always zero. -/
structure Cspec where
  cspecVersion : Nat
  vlanTag : Nat
  deriving DecidableEq

def Cspec.zero : Cspec := ⟨0, 0⟩

/-- A parsed rule.  `NUM_CLASSIFIERS` is the length of `classifiers`, and
`trailer` is the `cspec` that `ParseRule` copies behind the last of them. -/
structure Rule where
  mControl : Control
  mVolatility : Volatility
  mAction : Action
  mOperand : Operand
  classifiers : List Classifier
  trailer : Cspec
  deriving DecidableEq

def bigEndian (size n : Nat) : Bytes := (fixedDigits 256 size n).map UInt8.ofNat

/-- The sixteen bytes of `CR_VALUE` behind which nothing was stored. -/
def paddedValue (bytes : Bytes) : Bytes := bytes ++ List.replicate (16 - bytes.length) 0

/-- Behind three classifiers stands the member `cspec` of the rule itself. -/
def Rule.cspec (rule : Rule) : Cspec :=
  if rule.classifiers.length = 3 then rule.trailer else Cspec.zero

def Rule.firstClassifier (rule : Rule) : Classifier :=
  match rule.classifiers with
  | classifier :: _ => classifier
  | [] =>
    ⟨UInt8.ofNat rule.trailer.cspecVersion, UInt8.ofNat (rule.trailer.cspecVersion / 256),
      paddedValue (bigEndian 4 rule.trailer.vlanTag)⟩

/-- The bytes that one word of a rule stores in `CR_VALUE`, and the operator
after it. -/
def parseValue (field : Field) (operator : Operator) (word : Bytes) :
    Option (Operator × Bytes) :=
  match field with
  | .ethSa | .ethDa => (bytespec word 6).map fun bytes => (operator, bytes)
  | .ipv4Sa | .ipv4Da => (ipv4spec word).map fun bytes => (operator, bytes)
  | .ipv6Sa | .ipv6Da => (ipv6spec word).map fun bytes => (operator, bytes)
  | .vlanUp | .ipv6Tc | .ipv4Tos | .ipv4Prot =>
    (basespec word 0 1).map fun value => (operator, [UInt8.ofNat value])
  | .vlanId | .tcpSp | .tcpDp | .udpSp | .udpDp | .ipSp | .ipDp =>
    (basespec word 0 2).map fun value => (operator, bigEndian 2 value)
  | .ethType => (basespec word 0 2).map fun value => (operator, (bigEndian 2 value).reverse)
  | .ipv6Fl => (basespec word 0 4).map fun value => (operator, (bigEndian 4 value).drop 1)
  | .hpavMme =>
    (bytespec word 3).map fun bytes => (operator, bytes.take 1 ++ (bytes.drop 1).reverse)
  | .tcpAck => (lookup word states).map fun _ => (operator, [])
  | .vlanTag => (lookup word states).map fun state => (operator.xor state, [])

def parseClassifier (field operator value : Bytes) : Option Classifier := do
  let id ← lookup field fields
  let operator ← lookup operator operators
  let (operator, bytes) ← parseValue id operator value
  some ⟨id.code, operator.code, paddedValue bytes⟩

/-- The classifier loop of `ParseRule`: it ends at a control word or at the end
of the words, and `argc` is only looked at before a value. -/
@[grind =] def parseClassifiers : Int → List Bytes → Option (List Classifier × List Bytes)
  | _, [] => some ([], [])
  | argc, field :: rest =>
    if (lookup field controls).isSome then some ([], field :: rest)
    else
      match rest with
      | operator :: value :: rest =>
        if argc = 2 then none
        else do
          let classifier ← parseClassifier field operator value
          let (classifiers, left) ← parseClassifiers (argc - 3) rest
          some (classifier :: classifiers, left)
      | _ => none

def parseRule (argc : Int) (argv : List Bytes) (cspec : Cspec) : Option Rule :=
  match argv with
  | action :: operand :: rest => do
      let action ← lookup action actions
      let operand ← lookup operand operands
      let (classifiers, left) ← parseClassifiers (argc - 2) rest
      if 3 < classifiers.length then none
      else
        match left with
        | control :: volatility :: _ => do
            let control ← lookup control controls
            let volatility ← lookup volatility volatilities
            some ⟨control, volatility, action, operand, classifiers, cspec⟩
        | _ => none
  | _ => none

/-- The options `T` and `V` as `handle_rule` takes them. -/
def ruleOption (option : UInt8) (operand : Bytes) (cspec : Cspec) : Option Cspec :=
  if option = 84 then (basespec operand 16 4).map fun tag => { cspec with vlanTag := tag }
  else if option = 86 then
    (basespec operand 10 2).map fun version => { cspec with cspecVersion := version }
  else none

/-- The calls of `getoptv` for one rule.  `budget` words may still be looked
at; the result has the options and the words left over, in their order. -/
@[grind =] def getoptv : Nat → List Bytes → Cspec → Option (Cspec × List Bytes)
  | 0, words, cspec => some (cspec, words)
  | _ + 1, [], _ => none
  | budget + 1, (45 :: []) :: rest, cspec => getoptv budget rest cspec
  | _ + 1, (45 :: 45 :: long) :: rest, cspec =>
    if long = letters "version" ∨ long = letters "help" then none else some (cspec, rest)
  | budget + 1, [45, option] :: operand :: rest, cspec =>
    match budget with
    | 0 => none
    | budget + 1 => (ruleOption option operand cspec).bind fun cspec => getoptv budget rest cspec
  | budget + 1, (45 :: option :: operand) :: rest, cspec =>
    if operand = [] then none
    else (ruleOption option operand cspec).bind fun cspec => getoptv budget rest cspec
  | budget + 1, word :: rest, cspec =>
    (getoptv budget rest cspec).map fun (cspec, left) => (cspec, word :: left)

/-- The part of `handle_rule` that takes a line of `argc` words apart. -/
def ruleOfLine (str : Bytes) (argc : Nat) : Option Rule :=
  let words := (str.takeWhile (· != 0)).splitOn 32
  if argc = 1 then none
  else
    match getoptv (argc - 1) words Cspec.zero with
    | some (cspec, argv) => parseRule (argc - 1 - (words.length - argv.length : Int)) argv cspec
    | none => none

/-- An entry of `auto_connection`.  The classifiers behind the last one have
the identifier 0xFF and no value. -/
structure AutoConnection where
  mAction : Action
  mOperand : Operand
  classifiers : List Classifier
  cspec : Cspec
  deriving DecidableEq

structure ClassifierPriorityMap where
  priority : Action
  classifier : Classifier
  deriving DecidableEq

/-- The two arrays up to their counts; all entries behind these are zero. -/
structure RuleTables where
  autoConnections : List AutoConnection
  priorityMaps : List ClassifierPriorityMap
  deriving DecidableEq

def RuleTables.empty : RuleTables := ⟨[], []⟩

def pibMaxAutoConn : Nat := 16

def pibMaxPriorityMaps : Nat := 8

def Rule.autoConnection (rule : Rule) : AutoConnection :=
  ⟨rule.mAction, rule.mOperand, rule.classifiers, rule.cspec⟩

def Rule.priorityMap (rule : Rule) : ClassifierPriorityMap :=
  ⟨rule.mAction, rule.firstClassifier⟩

def migrate (tables : RuleTables) (rule : Rule) : Option RuleTables :=
  if 1 < rule.classifiers.length ∨ rule.mAction = .stripTx ∨ rule.mAction = .stripRx ∨
      rule.mAction = .tagTx ∨ pibMaxPriorityMaps ≤ tables.priorityMaps.length then
    if pibMaxAutoConn ≤ tables.autoConnections.length then none
    else some { tables with
      autoConnections := tables.autoConnections ++ [rule.autoConnection] }
  else some { tables with priorityMaps := tables.priorityMaps ++ [rule.priorityMap] }

def handleRule (tables : RuleTables) (str : Bytes) (argc : Nat) : Option RuleTables :=
  (ruleOfLine str argc).bind (migrate tables)

/-- Where the loop of `main` stands between two characters. -/
inductive RuleReader where
  | outside
  | comment
  | rule (line : Bytes) (wc : Nat)
  | gap (line : Bytes) (wc : Nat)

def lineSize : Nat := 1024

/-- A character goes to the line unless the line is full after it. -/
def extendLine (line : Bytes) (c : UInt8) : Option Bytes :=
  if line.length + 1 = lineSize - 1 then none else some (line ++ [c])

@[grind =] def ruleLines : RuleReader → Bytes → Option (List (Bytes × Nat))
  | .outside, [] => some []
  | .comment, [] => some []
  | .rule line wc, [] => some [(line, wc)]
  | .gap line wc, [] => do
      -- the end of the file is stored like a character
      let line ← extendLine line 32
      let line ← extendLine line 0xFF
      some [(line, wc + 1)]
  | .outside, c :: rest =>
    if isSpace c then ruleLines .outside rest
    else if c = 35 then ruleLines .comment rest
    else ruleLines (.rule [c] 0) rest
  | .comment, c :: rest =>
    if c = 10 then ruleLines .outside rest else ruleLines .comment rest
  | .rule line wc, c :: rest =>
    if c = 10 then (ruleLines .outside rest).map ((line, wc + 1) :: ·)
    else if isSpace c then ruleLines (.gap line wc) rest
    else if c = 35 then (ruleLines .comment rest).map ((line, wc) :: ·)
    else (extendLine line c).bind fun line => ruleLines (.rule line wc) rest
  | .gap line wc, c :: rest =>
    if c = 10 then (ruleLines .outside rest).map ((line, wc + 1) :: ·)
    else if isSpace c then ruleLines (.gap line wc) rest
    else if c = 35 then (ruleLines .comment rest).map ((line, wc + 1) :: ·)
    else
      ((extendLine line 32).bind fun line => extendLine line c).bind fun line =>
        ruleLines (.rule line (wc + 1)) rest

def pibruin (text : Bytes) : Option RuleTables :=
  (ruleLines .outside text).bind fun lines =>
    lines.foldlM (fun tables line => handleRule tables line.1 line.2) RuleTables.empty

def rulesOf (text : Bytes) : Option (List Rule) :=
  (ruleLines .outside text).bind fun lines => lines.mapM fun line => ruleOfLine line.1 line.2

end AthApps.Plc
