import AthApps.Lib.Stream
import AthApps.Lib.Trace

/-!
# Editing a text under bounds

One editing session of `configedit`: the text in its buffer, and the bounds,
each with offsets that are relative to its parent.  A bound is named by a
number that is not used again; the root is bound `0` and its own parent.  The
order in a list of siblings does not matter to the code, so the siblings of a
bound are the other bounds with its parent.

Where an int would overflow, or memory outside the buffer would be used, there
is no result.  `memory` tells whether an allocation succeeds.
-/

set_option autoImplicit false

namespace AthApps.Config

open AthApps.Lib

scoped instance lawfulText : LawfulBEq Bytes := inferInstance

def configeditMallocExtra : Int := 512

def newline : UInt8 := 10

def isGraph (c : UInt8) : Bool := 33 ≤ c && c ≤ 126

def fitsInt (x : Int) : Bool := -2147483648 ≤ x && x ≤ 2147483647

/-- A node; `stop` is one past the last character. -/
structure Bound where
  parent : Nat
  begin : Int
  stop : Int
  deriving DecidableEq

def Bound.size (c : Bound) : Int := c.stop - c.begin

structure Session where
  nodes : List (Nat × Bound)
  allocated : Nat
  buf : Bytes

namespace Session

variable (s : Session) (b : Nat) (text : Bytes) (memory : Bool)

def bufSize : Int := s.buf.length

def bound (s : Session) (b : Nat) : Option Bound := s.nodes.lookup b

def setBound (c : Bound) : Session :=
  { s with nodes := (b, c) :: s.nodes.filter fun n => n.1 ≠ b }

def keepNodes (keep : Nat → Bool) : Session :=
  { s with nodes := s.nodes.filter fun n => keep n.1 }

def changeNodes (change : Nat → Bound → Bound) : Session :=
  { s with nodes := s.nodes.map fun n => (n.1, change n.1 n.2) }

theorem lookup_filter (nodes : List (Nat × Bound)) (keep : Nat → Bool) (i : Nat) :
    (nodes.filter fun n => keep n.1).lookup i = if keep i then nodes.lookup i else none := by
  induction nodes with
  | nil => simp
  | cons n rest ih =>
    obtain ⟨j, c⟩ := n
    by_cases same : i = j
    · subst same
      cases kept : keep i <;> simp [kept, ih]
    · have differs : (i == j) = false := beq_false_of_ne same
      cases kept : keep j <;> simp [kept, ih, List.lookup_cons, differs]

theorem lookup_map (nodes : List (Nat × Bound)) (change : Nat → Bound → Bound) (i : Nat) :
    (nodes.map fun n => (n.1, change n.1 n.2)).lookup i = (nodes.lookup i).map (change i) := by
  induction nodes with
  | nil => rfl
  | cons n rest ih =>
    obtain ⟨j, c⟩ := n
    by_cases same : i = j
    · subst same
      simp
    · have differs : (i == j) = false := beq_false_of_ne same
      simp [List.lookup_cons, differs, ih]

theorem bound_setBound (c : Bound) :
    (s.setBound b c).bound = Function.update s.bound b (some c) := by
  funext i
  by_cases same : i = b
  · subst same
    simp [bound, setBound]
  · have kept := lookup_filter s.nodes (fun j => j ≠ b) i
    have differs : (i == b) = false := beq_false_of_ne same
    simp only [bound, setBound, List.lookup_cons, differs, Function.update_of_ne same]
    simpa [same] using kept

theorem bound_keepNodes (keep : Nat → Bool) (i : Nat) :
    (s.keepNodes keep).bound i = if keep i then s.bound i else none :=
  lookup_filter s.nodes keep i

theorem bound_changeNodes (change : Nat → Bound → Bound) (i : Nat) :
    (s.changeNodes change).bound i = (s.bound i).map (change i) :=
  lookup_map s.nodes change i

/-- No buffer is given as the empty one. -/
def configeditCreate (buf : Bytes) (contentSize : Int) : Session :=
  if buf ≠ [] then
    { nodes := [(0, ⟨0, 0, contentSize⟩)], allocated := 1, buf := buf }
  else
    { nodes := [(0, ⟨0, 0, 0⟩)], allocated := 1,
      buf := List.replicate configeditMallocExtra.toNat 0 }

def configeditNew (parent : Nat) (begin stop : Int) : Session × Nat :=
  ({ s.setBound s.allocated ⟨parent, begin, stop⟩ with allocated := s.allocated + 1 }, s.allocated)

def configeditBegin : Option (Session × Nat) := do
  let _ ← s.bound b
  some (s.configeditNew b 0 0)

def configeditDup : Option (Session × Nat) := do
  let c ← s.bound b
  some (s.configeditNew c.parent c.begin c.stop)

/-- Whether the way from bound `i` to the root meets `b`. -/
def isUnder (s : Session) (b : Nat) : Nat → Nat → Bool
  | 0, i => i = b
  | fuel + 1, i =>
    i = b || i ≠ 0 &&
      match s.bound i with
      | none => false
      | some c => s.isUnder b fuel c.parent

def freeChildren : Session :=
  s.keepNodes fun i => i = b || !s.isUnder b s.allocated i

def configeditFree : Session :=
  (s.freeChildren b).keepNodes fun i => i ≠ b

def offsetLoop (s : Session) : Nat → Nat → Int → Option Int
  | 0, _, _ => none
  | fuel + 1, parent, offset =>
    if parent = 0 then some offset
    else do
      let c ← s.bound parent
      s.offsetLoop fuel c.parent (offset + c.begin)

def configeditPtr : Option Int := do
  let c ← s.bound b
  s.offsetLoop s.allocated c.parent c.begin

/-- What can be read at an offset, up to the end of the buffer. -/
def reads (s : Session) (offset : Int) : Option Bytes :=
  if 0 ≤ offset ∧ offset ≤ s.bufSize then some (s.buf.drop offset.toNat) else none

def configeditBoundResize (newSize : Int) : Option Session := do
  let c ← s.bound b
  let parent ← s.bound c.parent
  let s := s.freeChildren b
  let newSize := max newSize 0
  let newEnd := c.begin + newSize
  if fitsInt newEnd = false then none
  else some (s.setBound b { c with stop := min newEnd parent.size })

def configeditAdvance (nbytes : Int) : Option Session := do
  let c ← s.bound b
  let parent ← s.bound c.parent
  let newBegin := c.begin + nbytes
  let s := s.freeChildren b
  if fitsInt newBegin = false then none
  else
    let newBegin := min (max newBegin 0) parent.size
    some (s.setBound b { c with begin := newBegin, stop := newBegin })

def configeditNext : Option Session := do
  let c ← s.bound b
  s.configeditAdvance b c.size

def lineSize : Bytes → Nat
  | [] => 0
  | c :: rest => if c = newline then 1 else lineSize rest + 1

/-- The second component is the number of bytes. -/
def configeditNextLine : Option (Session × Int) := do
  let c ← s.bound b
  let parent ← s.bound c.parent
  let s := s.freeChildren b
  let c := { c with begin := c.stop }
  let maxSize := parent.size - c.begin
  let s := s.setBound b c
  let ptr ← s.configeditPtr b
  if ptr + maxSize > s.bufSize then none
  else do
    let text ← s.reads ptr
    let size := lineSize (text.take maxSize.toNat)
    some (s.setBound b { c with stop := c.stop + size }, size)

def isSeparator (template : Option Bytes) (c : UInt8) : Bool :=
  !isGraph c ||
    match template with
    | none => false
    | some separators => separators.contains c

def wordSize (template : Option Bytes) : Bytes → Nat
  | [] => 0
  | c :: rest => if isSeparator template c then 1 else wordSize template rest + 1

def configeditNextWord (template : Option Bytes) : Option (Session × Int) := do
  let c ← s.bound b
  let parent ← s.bound c.parent
  let s := s.freeChildren b
  let c := { c with begin := c.stop }
  let maxSize := parent.size - c.begin
  let s := s.setBound b c
  let ptr ← s.configeditPtr b
  if ptr + maxSize > s.bufSize then none
  else do
    let text ← s.reads ptr
    let skipped := ((text.take maxSize.toNat).takeWhile (isSeparator template)).length
    let maxSize := maxSize - skipped
    let begin := c.begin + skipped
    let size := wordSize template (text.take maxSize.toNat)
    some (s.setBound b { c with begin := begin, stop := begin + size }, size)

def configeditRewind : Option Session := do
  let c ← s.bound b
  let s := s.freeChildren b
  some (s.setBound b { c with begin := 0, stop := 0 })

def configeditSeekend : Option Session := do
  let c ← s.bound b
  let parent ← s.bound c.parent
  let s := s.freeChildren b
  some (s.setBound b { c with begin := parent.size, stop := parent.size })

/-- `memmove`, `memset` and `memcpy` into the buffer. -/
def store (s : Session) (offset : Int) (data : Bytes) : Option Session :=
  if 0 ≤ offset ∧ offset + data.length ≤ s.bufSize then
    some { s with buf := overlay s.buf offset.toNat data }
  else none

def moveSiblings (node parent : Nat) (offset addSize : Int) : Session :=
  s.changeNodes fun i c =>
    if i ≠ node ∧ i ≠ 0 ∧ c.parent = parent ∧ offset ≤ c.begin then
      { c with begin := c.begin + addSize, stop := c.stop + addSize }
    else c

def adjustLoop (addSize : Int) : Nat → Nat → Int → Session → Option Session
  | 0, _, _, _ => none
  | fuel + 1, node, offset, s => do
      let c ← s.bound node
      let offset := offset + c.begin
      let s := s.setBound node { c with stop := c.stop + addSize }
      if node = 0 then some s
      else adjustLoop addSize fuel c.parent offset (s.moveSiblings node c.parent offset addSize)

/-- Any stored text after the bound gets moved. -/
def moveTail (rootEnd offset addSize : Int) : Option Session :=
  if offset < rootEnd then do
    let tail ← s.reads offset
    s.store (offset + addSize) (tail.take (rootEnd - offset).toNat)
  else some s

def fill (offset addSize : Int) : Option Session :=
  if 0 < addSize then s.store offset (List.replicate addSize.toNat newline) else some s

def moveText (s : Session) (rootEnd offset addSize : Int) : Option Session := do
  let s ← s.moveTail rootEnd offset addSize
  s.fill offset addSize

/-- `realloc` if need be; what it adds is not written yet. -/
def reallocate (newRootSize : Int) (memory : Bool) : Option Session :=
  if s.bufSize < newRootSize then
    if memory then
      some { s with
        buf := s.buf ++ List.replicate (newRootSize + configeditMallocExtra - s.bufSize).toNat 0 }
    else none
  else some s

/-- The second component tells that there was an error. -/
def configeditTextResize (newSize : Int) (memory : Bool) : Option (Session × Bool) := do
  let c ← s.bound b
  let root ← s.bound 0
  let oldSize := c.size
  if newSize = oldSize then some (s, false)
  else do
    let addSize := newSize - oldSize
    let offset ← s.offsetLoop s.allocated c.parent c.stop
    let newRootSize := root.stop + addSize
    if fitsInt addSize = false ∨ fitsInt newRootSize = false ∨
        (s.bufSize < newRootSize ∧ fitsInt (newRootSize + configeditMallocExtra) = false) then none
    else
      match s.reallocate newRootSize memory with
      | none => some (s, true)
      | some s => do
          let s ← s.moveText root.stop offset addSize
          let s ← adjustLoop addSize s.allocated b oldSize s
          some (s, false)

def configeditTextReplace : Option (Session × Bool) := do
  let (s, failed) ← s.configeditTextResize b text.length memory
  if failed then some (s, true)
  else do
    let ptr ← s.configeditPtr b
    let s ← s.store ptr text
    some (s, false)

def configeditTextAppend : Option (Session × Bool) := do
  let c ← s.bound b
  let (s, failed) ← s.configeditTextResize b (c.size + text.length) memory
  if failed then some (s, true)
  else do
    let ptr ← s.configeditPtr b
    let s ← s.store (ptr + c.size) text
    some (s, false)

inductive Operation
  | begin (b : Nat) (memory : Bool)
  | dup (b : Nat) (memory : Bool)
  | free (b : Nat)
  | boundResize (b : Nat) (newSize : Int)
  | advance (b : Nat) (nbytes : Int)
  | next (b : Nat)
  | nextLine (b : Nat)
  | nextWord (b : Nat) (template : Option Bytes)
  | rewind (b : Nat)
  | seekend (b : Nat)
  | textResize (b : Nat) (newSize : Int) (memory : Bool)
  | textReplace (b : Nat) (text : Bytes) (memory : Bool)
  | textAppend (b : Nat) (text : Bytes) (memory : Bool)

def step (s : Session) : Operation → Option Session
  | .begin b memory => if memory then (s.configeditBegin b).map Prod.fst else some s
  | .dup b memory => if memory then (s.configeditDup b).map Prod.fst else some s
  | .free b => (s.bound b).map fun _ => s.configeditFree b
  | .boundResize b newSize => s.configeditBoundResize b newSize
  | .advance b nbytes => s.configeditAdvance b nbytes
  | .next b => s.configeditNext b
  | .nextLine b => (s.configeditNextLine b).map Prod.fst
  | .nextWord b template => (s.configeditNextWord b template).map Prod.fst
  | .rewind b => s.configeditRewind b
  | .seekend b => s.configeditSeekend b
  | .textResize b newSize memory => (s.configeditTextResize b newSize memory).map Prod.fst
  | .textReplace b text memory => (s.configeditTextReplace b text memory).map Prod.fst
  | .textAppend b text memory => (s.configeditTextAppend b text memory).map Prod.fst

end Session

end AthApps.Config
