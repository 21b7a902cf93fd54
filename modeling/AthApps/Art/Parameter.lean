import AthApps.Lib.Scan

/-!
# Selecting a parameter by its name

`ParameterSelectIndexArray` of `ParameterSelect.c`.  An entry of a parameter
list has up to three words; an input such as `name.name[it,jt,kt]` selects the
entry that one of whose words it stands for, and up to three subscripts.
-/

set_option autoImplicit false

namespace AthApps.Art

open AthApps.Lib

/-- The fields of `_ParameterList` that the selection reads, and the code. -/
structure Parameter where
  code : Int32
  /-- `MPWORD` -/
  word : Vector (Option Bytes) 3
  nx : Int32
  ny : Int32
  nz : Int32
  deriving DecidableEq

def upperCase (c : UInt8) : UInt8 := if 97 ≤ c ∧ c ≤ 122 then c - 32 else c

inductive Hit where
  | exact
  | part
  deriving DecidableEq

def ended : Bytes → Bool
  | [] => true
  | w :: _ => w = 32

/-- The loop over the input from its first letter on; a period of the input skips the rest of a
section of the word. -/
def matchWord : Bytes → Bytes → Option Hit
  | [], word => some (if ended word then .exact else .part)
  | c :: input, word =>
    if c = 32 ∨ c = 91 then some (if ended word then .exact else .part)
    else
      match if c = 46 then word.dropWhile (· ≠ 46) else word with
      | [] => none
      | w :: rest =>
        if w = 32 then none
        else if upperCase w ≠ upperCase c then none
        else matchWord input rest

structure Best where
  good : Option Nat
  exact : Bool
  reject : Bool
  deriving DecidableEq

def Best.elsewhere (best : Best) (il : Nat) : Bool := best.good.isSome && best.good ≠ some il

/-- After a second exact match there is no result. -/
def Best.exactHit (best : Best) (il : Nat) : Option Best :=
  if best.elsewhere il ∧ best.exact then none
  else some { good := some il, exact := true, reject := false }

/-- `rateHack` keeps the input `4` from being taken for the data rate `48`. -/
def Best.partHit (best : Best) (il : Nat) (rateHack : Bool) : Best :=
  if best.elsewhere il then
    if best.exact then best else { best with reject := true }
  else { good := some il, exact := false, reject := best.reject || rateHack }

def Best.hit (best : Best) (il : Nat) (rateHack : Bool) : Hit → Option Best
  | .exact => best.exactHit il
  | .part => some (best.partHit il rateHack)

variable (buffer : Bytes) (cl : List Parameter)

theorem words_pos : 0 < 3 := by decide

/-- `Scompare(cl[il].word[0], "48")==0 && buffer[0]=='4'` -/
def rateHack (entry : Parameter) : Bool :=
  getElem entry.word 0 words_pos = some [52, 56] && buffer.head? = some 52

def hits (input : Bytes) (entry : Parameter) : List Hit :=
  entry.word.toList.filterMap fun word => word.bind (matchWord input)

def input : Bytes := buffer.dropWhile (· = 32)

def Best.entry (buffer : Bytes) (best : Best) (entry : Parameter × Nat) : Option Best :=
  (hits (input buffer) entry.1).foldlM (fun best => best.hit entry.2 (rateHack buffer entry.1)) best

/-- The index that is in `good` after the loops, unless it is rejected. -/
def selectName : Option Nat :=
  if buffer = [] then none
  else
    (cl.zipIdx.foldlM (Best.entry buffer) ⟨none, false, false⟩).bind fun best =>
      if best.reject then none else best.good

def subscriptFormats : List (String × Nat) :=
  [("[ %d , %d , %d ] %c", 3), ("[ %d ] [ %d ] [ %d ] %c", 3), ("[ %d , %d ] %c", 2),
    ("[ %d ] [ %d ] %c", 2), ("[ %d ] %c", 1)]

/-- The first notation that reads as many numbers as it should, and nothing after them. -/
def readSubscripts (text : Bytes) : Option (List Int32) :=
  subscriptFormats.findSome? fun format =>
    let read := sscanf text format.1
    if read.length = format.2 then some read else none

/-- What `ErrorPrint` is called with. -/
inductive ParseError where
  | badArrayIndex (text : Bytes)
  | arrayIndexBound (xi nx : Int32)
  | arrayIndexBound2 (xi yi nx ny : Int32)
  | arrayIndexBound3 (xi yi zi nx ny nz : Int32)
  deriving DecidableEq

def outside (subscript limit : Int32) : Bool := subscript < 0 ∨ subscript ≥ limit

def boundErrors (entry : Parameter) (xi yi zi : Int32) : Nat → List ParseError
  | 1 => if outside xi entry.nx then [.arrayIndexBound xi entry.nx] else []
  | 2 =>
    if outside xi entry.nx ∨ outside yi entry.ny then
      [.arrayIndexBound2 xi yi entry.nx entry.ny]
    else []
  | _ =>
    if outside xi entry.nx ∨ outside yi entry.ny ∨ outside zi entry.nz then
      [.arrayIndexBound3 xi yi zi entry.nx entry.ny entry.nz]
    else []

/-- The result, `*xindex`, `*yindex` and `*zindex`, and what is reported. -/
structure Selected where
  index : Int
  xindex : Int32
  yindex : Int32
  zindex : Int32
  errors : List ParseError
  deriving DecidableEq

def refused (errors : List ParseError) : Selected := ⟨-1, -1, -1, -1, errors⟩

/-- The part about array indexes: errors of one and two subscripts are only reported, and three are
never accepted. -/
def selectSubscripts (good : Nat) (entry : Parameter) (text : Bytes) : Selected :=
  match readSubscripts text with
  | none => refused [.badArrayIndex text]
  | some [xi] => ⟨good, xi, -1, -1, boundErrors entry xi (-1) (-1) 1⟩
  | some [xi, yi] => ⟨good, xi, yi, -1, boundErrors entry xi yi (-1) 2⟩
  | some (xi :: yi :: zi :: _) => refused (boundErrors entry xi yi zi 3)
  | some [] => refused []

def parameterSelectIndexArray : Selected :=
  match selectName buffer cl with
  | none => refused []
  | some good =>
    match buffer.dropWhile (· ≠ 91), cl[good]? with
    | [], _ => ⟨good, -1, -1, -1, []⟩
    | text, some entry => selectSubscripts good entry text
    | _, none => refused []

def parameterSelectIndex : Int :=
  (parameterSelectIndexArray buffer cl).index

end AthApps.Art
