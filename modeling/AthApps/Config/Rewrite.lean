import AthApps.Config.Edit

/-!
# Rewriting a configuration file

`config_rewrite` keeps the text of a configuration file in an editing session,
with one bound for every section.  Allocation does not fail here.  A pointer
into a text is the rest of the text; a string ends where its list does.
-/

set_option autoImplicit false

namespace AthApps.Config

open AthApps.Lib

def hash : UInt8 := 35
def equalSign : UInt8 := 61
def openBrace : UInt8 := 123
def closeBrace : UInt8 := 125

def extraBytes : Nat := 512
/-- `#auto-edited#` and a newline. -/
def markerLine : Bytes := [35, 97, 117, 116, 111, 45, 101, 100, 105, 116, 101, 100, 35, 10]
def indentText : Bytes := List.replicate 8 32
def openText : Bytes := [61, 123, 10]
def closeText : Bytes := [125, 10]
def illegalText : Bytes := [35, 105, 108, 108, 101, 103, 97, 108, 35, 32]
/-- `# `. -/
def commentText : Bytes := [35, 32]

def wpaPassphrase : Bytes := [119, 112, 97, 95, 112, 97, 115, 115, 112, 104, 114, 97, 115, 101]
def wpaPsk : Bytes := [119, 112, 97, 95, 112, 115, 107]
def wpaLines : List Bytes :=
  [[119, 112, 97, 61, 49], [119, 112, 97, 61, 50], [119, 112, 97, 61, 51]]
/-- `wep_key0` to `wep_key3` and `wep_default_key`. -/
def wepTags : List Bytes :=
  [[119, 101, 112, 95, 107, 101, 121, 48], [119, 101, 112, 95, 107, 101, 121, 49],
    [119, 101, 112, 95, 107, 101, 121, 50], [119, 101, 112, 95, 107, 101, 121, 51],
    [119, 101, 112, 95, 100, 101, 102, 97, 117, 108, 116, 95, 107, 101, 121]]

def isWhite (c : UInt8) : Bool := c ≠ newline && !isGraph c

def skipWhite (text : Bytes) : Bytes := text.dropWhile isWhite

def endsTag (c : UInt8) : Bool := c = hash || c = equalSign || !isGraph c

def tagLoop : Bytes → Bytes → Bool
  | [], t2 => endsTag (t2.headD 0)
  | c1 :: _, [] => endsTag c1
  | c1 :: t1, c2 :: t2 =>
    if endsTag c1 && endsTag c2 then true
    else if c1 ≠ c2 then false
    else tagLoop t1 t2

def tagEqual (t1 t2 : Bytes) : Bool :=
  let t1 := skipWhite t1
  let t2 := skipWhite t2
  if endsTag (t1.headD 0) then false else tagLoop t1 t2

def tagValue (line : Bytes) : Option Bytes :=
  let line := skipWhite line
  let line := line.dropWhile fun c => c ≠ equalSign && c ≠ hash && isGraph c
  let line := skipWhite line
  if line.headD 0 ≠ equalSign then none
  else
    let line := skipWhite line.tail
    if isGraph (line.headD 0) then some line else none

def tagDup (line : Bytes) : Option Bytes :=
  let tag := (skipWhite line).takeWhile fun c => !endsTag c
  if tag = [] then none else some tag

structure Section where
  name : Bytes
  outer : Nat
  bound : Nat
  deriving DecidableEq

structure Rewrite where
  edit : Session
  section0 : Section
  sections : List Section

namespace Session

def textAt (s : Session) (b : Nat) : Option Bytes := do
  let ptr ← s.configeditPtr b
  s.reads ptr

def append (s : Session) (b : Nat) (text : Bytes) : Option Session := do
  let (s, _) ← s.configeditTextAppend b text true
  some s

def replace (s : Session) (b : Nat) (text : Bytes) : Option Session := do
  let (s, _) ← s.configeditTextReplace b text true
  some s

def erase (s : Session) (b : Nat) : Option Session := do
  let (s, _) ← s.configeditTextResize b 0 true
  some s

/-- Goes to the next line that the test accepts; the second component tells whether there is one. -/
def scan (accepts : Bytes → Bool) (b : Nat) : Nat → Session → Option (Session × Bool)
  | 0, _ => none
  | fuel + 1, s => do
      let (s, nbytes) ← s.configeditNextLine b
      if nbytes = 0 then some (s, false)
      else do
        let ptr ← s.textAt b
        if accepts ptr then some (s, true) else scan accepts b fuel s

def eraseTagged (s : Session) (b : Nat) (tag ptr : Bytes) : Option Session :=
  if tagEqual tag ptr then s.erase b else some s

def configRewriteRemoveOthers (tag : Bytes) (b : Nat) : Nat → Session → Option Session
  | 0, _ => none
  | fuel + 1, s => do
      let (s, nbytes) ← s.configeditNextLine b
      if nbytes = 0 then some s
      else do
        let ptr ← s.textAt b
        let s ← s.eraseTagged b tag ptr
        configRewriteRemoveOthers tag b fuel s

def removeTag (s : Session) (b : Nat) (tag : Bytes) : Option Session := do
  let s ← s.configeditRewind b
  configRewriteRemoveOthers tag b (s.buf.length + 1) s

def removeTags (b : Nat) : List Bytes → Session → Option Session
  | [], s => some s
  | tag :: rest, s => do
      let s ← s.removeTag b tag
      removeTags b rest s

end Session

variable (s : Session) (b : Nat) (line : Bytes) (named : Bool)

def writeSection (name : Bytes) : Option Session := do
  let s ← s.append b name
  let s ← s.append b openText
  let s ← s.configeditNext b
  let s ← s.append b indentText
  s.append b markerLine

def newSection (s : Session) (name : Bytes) : Option (Session × Section) := do
  let (s, wrapper) ← s.configeditBegin 0
  let s ← s.configeditSeekend wrapper
  let (s, b) ← s.configeditBegin wrapper
  let s ← writeSection s b name
  let (s, outer) ← s.configeditDup b
  let s ← s.append b closeText
  let s := s.configeditFree b
  let (s, bound) ← s.configeditBegin outer
  some (s, ⟨name, outer, bound⟩)

def configRewriteSectionFind (r : Rewrite) (nameLine : Bytes) : Option (Rewrite × Section) :=
  match r.sections.find? fun x => tagEqual nameLine x.name with
  | some x => some (r, x)
  | none => do
      let name ← tagDup nameLine
      let (s, x) ← newSection r.edit name
      some ({ r with edit := s, sections := r.sections ++ [x] }, x)

def isTwin (line ptr : Bytes) : Bool :=
  let ptr := ptr.dropWhile fun c => c = hash
  tagEqual line ptr && (tagValue ptr).isSome

def indent : Option Session :=
  if named then s.append b indentText else some s

def replaceText : Option Session :=
  if named then do
    let s ← s.replace b indentText
    s.append b line
  else s.replace b line

def replaceLine : Option Session := do
  let s ← replaceText s b line named
  Session.configRewriteRemoveOthers line b (s.buf.length + 1) s

def appendLine (s : Session) (b : Nat) (line : Bytes) (named : Bool) : Option Session := do
  let s ← indent s b named
  s.append b line

def addLine : Option Session := do
  let s ← s.configeditRewind b
  let (s, found) ← s.scan (isTwin line) b (s.buf.length + 1)
  if found then appendLine s b line named
  else do
    let s ← s.configeditSeekend b
    appendLine s b line named

def conflicts : List Bytes :=
  (if tagEqual line wpaPassphrase then [wpaPsk]
    else if tagEqual line wpaPsk then [wpaPassphrase] else []) ++
  if wpaLines.any (tagEqual line) then wepTags else []

def writeLine (named found : Bool) : Option Session :=
  if found then replaceLine s b line named else addLine s b line named

def resolve : Option Session :=
  if named then some s else s.removeTags b (conflicts line)

def putLine (s : Session) (b : Nat) (line : Bytes) (named : Bool) : Option Session := do
  let s ← s.configeditRewind b
  let (s, found) ← s.scan (tagEqual line) b (s.buf.length + 1)
  let s ← writeLine s b line named found
  resolve s b line named

def configRewriteLine (r : Rewrite) (line : Bytes) (sectionName : Option Bytes) :
    Option Rewrite :=
  let line := line.take (Session.lineSize line)
  if line.length ≤ 1 then some r
  else
    match sectionName with
    | none => do
        let s ← putLine r.edit r.section0.bound line false
        some { r with edit := s }
    | some name => do
        let (r, x) ← configRewriteSectionFind r name
        let s ← putLine r.edit x.bound line true
        some { r with edit := s }

def copyLine (r : Rewrite) (b : Nat) (named : Bool) (line : Bytes) : Option Rewrite := do
  let s ← appendLine r.edit b line named
  some { r with edit := s }

def commentLine (r : Rewrite) (b : Nat) (named : Bool) (line : Bytes) : Option Rewrite := do
  let s ← indent r.edit b named
  let s ← s.append b commentText
  let s ← s.append b line
  some { r with edit := s }

def illegalLine (r : Rewrite) (b : Nat) (line : Bytes) : Option Rewrite := do
  let s ← r.edit.append b illegalText
  let s ← s.append b line
  some { r with edit := s }

/-- One line of the old file, from its first character that is no whitespace; the second component
is the section of the next line. -/
def createLine (r : Rewrite) (current : Option Section) (ptr : Bytes) (nbytes : Nat) :
    Option (Rewrite × Option Section) := do
  let b := (current.getD r.section0).bound
  let s ← r.edit.configeditSeekend b
  let r := { r with edit := s }
  let c := ptr.headD 0
  if markerLine.isPrefixOf ptr then some (r, current)
  else if c = hash ∨ c = newline then do
    let r ← copyLine r b current.isSome (ptr.take nbytes)
    some (r, current)
  else if c = equalSign then do
    let r ← commentLine r b current.isSome (ptr.take nbytes)
    some (r, current)
  else if c = closeBrace then some (r, none)
  else
    match tagValue ptr with
    | none => some (r, current)
    | some value =>
      if value.headD 0 = openBrace then
        match current with
        | some _ => do
            let r ← illegalLine r b (ptr.take nbytes)
            some (r, current)
        | none => do
            let (r, x) ← configRewriteSectionFind r ptr
            some (r, some x)
      else do
        let r ← configRewriteLine r ptr (current.map Section.name)
        some (r, current)

def endLine (old : Session) (b : Nat) (nbytes : Int) : Option (Session × Int) := do
  let ptr ← old.configeditPtr b
  let text ← old.reads ptr
  if (text.take nbytes.toNat).getLast? = some newline then some (old, nbytes)
  else do
    let old ← old.store (ptr + nbytes) [newline]
    some (old, nbytes + 1)

def createLoop (oldBound : Nat) : Nat → Session → Rewrite → Option Section → Option Rewrite
  | 0, _, _, _ => none
  | fuel + 1, old, r, current => do
      let (old, nbytes) ← old.configeditNextLine oldBound
      if nbytes = 0 then some r
      else do
        let (old, nbytes) ← endLine old oldBound nbytes
        let text ← old.textAt oldBound
        let ptr := skipWhite text
        let (r, current) ← createLine r current ptr (nbytes.toNat - (text.length - ptr.length))
        createLoop oldBound fuel old r current

def configRewriteCreate (file : Bytes) : Option Rewrite := do
  let old := Session.configeditCreate (file ++ [newline]) file.length
  let (old, oldBound) ← old.configeditBegin 0
  let s := Session.configeditCreate (List.replicate (file.length + 1 + extraBytes) 0) 0
  let (s, outer) ← s.configeditBegin 0
  let (s, b) ← s.configeditBegin outer
  let s ← s.append b markerLine
  createLoop oldBound (file.length + 1) old ⟨s, ⟨[], outer, b⟩, []⟩ none

/-- The text that `config_rewrite_write` writes. -/
def Rewrite.text (r : Rewrite) : Option Bytes := do
  let c ← r.edit.bound 0
  some (r.edit.buf.take c.size.toNat)

end AthApps.Config
