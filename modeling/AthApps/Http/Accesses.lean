import AthApps.Lib.Attempt
import AthApps.Lib.Checked
import AthApps.Http.Limit

/-!
# The accesses of the reader

The handler of `httpread.c` once more, with every count of a copy, every index of
the header and of the body that is stored into, and every place in front of the
end of the body that is looked at.  Sums and differences go round as an `int` of
32 bits does, the memory may run out, and a copy moves its bytes at once.  Behind
an access that is not inside nothing is known any more.

The size of a chunk is what `strtoul` reads, stored in an `int`, and no test
follows.
-/

set_option autoImplicit false

namespace AthApps.Http

open AthApps.Lib List

inductive Note
  | storesHdr (index : Nat)
  | stores (index : Nat) (count alloc : Int)
  /-- `bbp[-1]` or `bbp[-2]`, with `body_nbytes` -/
  | looks (index : Int) (nbytes : Nat)
  | copies (ncopy : Int) (nread : Nat)
  /-- the header line of a chunk -/
  | size (chunkStart : Nat) (line : Bytes)
  deriving DecidableEq

def Note.Inside : Note → Prop
  | storesHdr index => index ≤ httpreadHeaderMaxSize
  | stores index count alloc => index + count ≤ alloc
  | looks index nbytes => 0 ≤ index ∧ index < nbytes
  | copies ncopy nread => 0 < ncopy ∧ ncopy ≤ nread
  | size _ _ => True

instance : DecidablePred Note.Inside
  | .storesHdr _ => inferInstanceAs (Decidable (_ ≤ _))
  | .stores _ _ _ => inferInstanceAs (Decidable (_ ≤ _))
  | .looks _ _ => inferInstanceAs (Decidable (_ ∧ _))
  | .copies _ _ => inferInstanceAs (Decidable (_ ∧ _))
  | .size _ _ => inferInstanceAs (Decidable True)

/-- Two bytes more make no negative number, and what ends with them does not begin in front of
the body. -/
def SizeFits (chunkStart : Nat) (chunkSize : Int) : Prop :=
  (0 ≤ chunkSize ∧ chunkSize + 2 ≤ intMax) ∨ (chunkSize = -1 ∧ 0 < chunkStart)

def Note.Sized : Note → Prop
  | size chunkStart line => SizeFits chunkStart (strtoul line)
  | _ => True

abbrev Handling (α : Type) : Type := Attempt Note Outcome α

/-- The handle where the handler comes to its end, or where it stops before. -/
def Handling.outcome (handling : Handling Httpread) : Outcome :=
  match handling.value with
  | .ok h => .more h
  | .error outcome => outcome

namespace Accesses

open Attempt Httpread

def access (note : Note) : Handling Unit := do
  notes [note]
  require note.Inside .undefined

def gotFile {α : Type} (h : Httpread) : Handling α :=
  if h.bodyAllocNbytes = 0 then stop (.file h)
  else do
    access (.stores h.body.length 1 h.bodyAllocNbytes)
    stop (.file h)

def collectHdr : Bytes → Httpread → Handling (Httpread × Bytes)
  | [], h => stop (.more h)
  | c :: rest, h =>
    if h.hdr.length = httpreadHeaderMaxSize then stop .bad
    else do
      access (.storesHdr h.hdr.length)
      let h := { h with hdr := h.hdr ++ [c] }
      if (crlf ++ crlf).isSuffixOf h.hdr then do
        access (.storesHdr h.hdr.length)
        pure ({ h with gotHdr := true }, rest)
      else collectHdr rest h

/-- Room for the bytes of this read and a null byte.  As a size a negative number is more than
any object has, and `realloc` fails. -/
def grow (memory : Bool) (nread : Nat) (h : Httpread) : Handling Httpread :=
  if h.bodyAllocNbytes < wrapped (h.body.length + nread + 1) then
    if h.body.length ≥ h.maxBytes then stop .bad
    else
      let newAllocNbytes := wrapped (h.bodyAllocNbytes + httpreadBodybufDelta)
      let newAllocNbytes :=
        if h.gotContentLength ∧ newAllocNbytes < wrapped (h.contentLength + 1) then
          wrapped (h.contentLength + 1)
        else newAllocNbytes
      if newAllocNbytes < 0 ∨ memory = false then stop .bad
      else pure { h with bodyAllocNbytes := newAllocNbytes }
  else pure h

/-- In the header of a chunk; the flag says that the trailer follows. -/
def endChunkHdr (h : Httpread) : Handling (Httpread × Bool) :=
  let nbytes := h.body.length
  if nbytes < h.chunkStart + 2 then pure (h, false)
  else do
    access (.looks (nbytes - 2) nbytes)
    if h.body.getD (nbytes - 2) 0 ≠ 13 then pure (h, false)
    else
      access (.looks (nbytes - 1) nbytes)
      if h.body.getD (nbytes - 1) 0 ≠ 10 then pure (h, false)
      else
        let line := h.body.drop h.chunkStart
        if !isXdigit (line.headD 0) then stop .bad
        else
          notes [.size h.chunkStart line]
          let h := { h with chunkSize := strtoul line, body := h.body.take h.chunkStart }
          if strtoul line = 0 then pure ({ h with inTrailer := true }, true)
          else pure ({ h with inChunkData := true }, false)

def endChunkData (h : Httpread) : Handling Httpread :=
  let nbytes := h.body.length
  if (nbytes : Int) - h.chunkStart ≠ wrapped (h.chunkSize + 2) then pure h
  else do
    access (.looks (nbytes - 1) nbytes)
    if h.body.getD (nbytes - 1) 0 ≠ 10 then stop .bad
    else
      access (.looks (nbytes - 2) nbytes)
      if h.body.getD (nbytes - 2) 0 ≠ 13 then stop .bad
      else
        pure { h with
          body := h.body.take (nbytes - 2)
          chunkStart := nbytes - 2
          inChunkData := false
          chunkSize := 0 }

def seeIfStop (h : Httpread) : Handling (Httpread × Bool) :=
  if h.chunked ∧ h.inChunkData = false then endChunkHdr h
  else if h.chunked then do
    let h ← endChunkData h
    pure (h, false)
  else if h.gotContentLength ∧ (h.body.length : Int) ≥ h.contentLength then
    gotFile { h with gotBody := true }
  else pure (h, false)

/-- How many bytes a `memcpy` is to move. -/
def ncopy (nread : Nat) (h : Httpread) : Int :=
  min nread (if h.chunked then wrapped (h.chunkStart + h.chunkSize + 2 - h.body.length)
    else if h.gotContentLength then wrapped (h.contentLength - h.body.length)
    else nread)

def transfer (bytes : Bytes) (h : Httpread) : Handling Nat :=
  if h.chunked ∧ h.inChunkData = false then do
    access (.stores h.body.length 1 h.bodyAllocNbytes)
    pure 1
  else do
    let count := ncopy bytes.length h
    access (.copies count bytes.length)
    access (.stores h.body.length count h.bodyAllocNbytes)
    pure count.toNat

/-- Each pass takes a byte or is the last, so that `fuel` may be more than the number of bytes. -/
def bodyLoop : Nat → Bytes → Httpread → Handling (Httpread × Bytes)
  | 0, _, _ => stop .undefined
  | fuel + 1, bytes, h => do
      let (h, ends) ← seeIfStop h
      if ends ∨ bytes = [] then pure (h, bytes)
      else
        let count ← transfer bytes h
        bodyLoop fuel (bytes.drop count) { h with body := h.body ++ bytes.take count }

def trailer (bytes : Bytes) (h : Httpread) : Handling Httpread :=
  match trailerLoop bytes h with
  | .more h => pure h
  | .file h => gotFile h
  | outcome => stop outcome

def afterLoop (bytes : Bytes) (h : Httpread) : Handling Httpread :=
  if h.chunked ∧ h.inTrailer then trailer bytes h else pure h

def readBody (memory : Bool) (bytes : Bytes) (h : Httpread) : Handling Httpread :=
  if h.isBodyless then gotFile { h with gotBody := true }
  else if bytes = [] then pure h
  else if h.gotBody then afterLoop bytes h
  else do
    let h ← grow memory bytes.length h
    let (h, rest) ← bodyLoop (bytes.length + 1) bytes h
    afterLoop rest h

def readEof (h : Httpread) : Handling Httpread :=
  if h.gotHdr = false then stop .bad
  else if h.chunked ∨ h.gotContentLength then stop .bad
  else gotFile { h with gotBody := true }

def finishHdr (memory : Bool) (h : Httpread) (rest : Bytes) : Handling Httpread :=
  match hdrAnalyze h with
  | none => stop .bad
  | some h =>
    if h.maxBytes = 0 then gotFile h
    else if h.gotContentLength ∧ h.contentLength = 0 then gotFile h
    else readBody memory rest h

def readHandler (memory : Bool) (h : Httpread) : Read → Handling Httpread
  | .failed => stop .bad
  | .got bytes =>
    if bytes = [] then readEof h
    else if h.gotHdr then readBody memory bytes h
    else do
      let (h, rest) ← collectHdr bytes h
      finishHdr memory h rest

/-! ## What the reader keeps -/

/-- Where the buffer and the place in it stand after the header. -/
structure Placed (h : Httpread) : Prop where
  gotHdr : h.gotHdr = true
  alloc : 0 ≤ h.bodyAllocNbytes ∧ h.bodyAllocNbytes ≤ intMax
  length : 0 ≤ h.contentLength ∧ h.contentLength ≤ intMax
  -- only a known length makes a buffer that has not grown by whole steps
  whole : 4096 ∣ h.bodyAllocNbytes ∨
    (h.gotContentLength = true ∧ h.contentLength < h.bodyAllocNbytes)
  limit : h.gotContentLength = true → h.chunked = false ∧ (h.body.length : Int) ≤ h.contentLength
  start : h.chunkStart ≤ h.body.length
  data : h.chunked = true → h.inChunkData = true → SizeFits h.chunkStart h.chunkSize ∧
    (h.body.length : Int) ≤ h.chunkStart + h.chunkSize + 2

/-- The buffer has a place for the null byte behind `nread` more bytes, or behind all of a body
of known length. -/
def Room (nread : Nat) (h : Httpread) : Prop :=
  (h.body.length : Int) + nread < h.bodyAllocNbytes ∨
    (h.gotContentLength = true ∧ h.contentLength < h.bodyAllocNbytes)

structure Settled (h : Httpread) : Prop where
  placed : Placed h
  held : (h.bodyAllocNbytes = 0 ∧ h.body = []) ∨ Room 0 h

structure Opening (h : Httpread) : Prop where
  gotHdr : h.gotHdr = false
  fresh : Fresh h
  length : 0 ≤ h.contentLength ∧ h.contentLength ≤ intMax
  short : h.hdr.length ≤ httpreadHeaderMaxSize

def Kept : Outcome → Prop
  | .more h => Opening h ∨ Settled h
  | .undefined => False
  | _ => True

/-- Every access is inside if the sizes of the chunks fit, and what comes out meets `result`. -/
abbrev Safe {α : Type} (result : α → Prop) (handling : Handling α) : Prop :=
  handling.Assures Note.Sized Note.Inside result Kept

section Safe

variable {α : Type} {result : α → Prop} {note : Note} {next : Handling α}

theorem safe_access (inside : note.Inside) (safe : Safe result next) :
    Safe result (access note >>= fun _ => next) := by
  have noted : Safe (fun _ => True) (access note) := by
    unfold access
    rw [require, if_pos inside]
    refine assures_bind (assures_notes ?_) fun _ _ => assures_pure True.intro
    intro _ entry listed
    rw [mem_singleton] at listed
    rw [listed]
    exact inside
  exact assures_bind noted fun _ _ => safe

theorem safe_size {chunkStart : Nat} {line : Bytes}
    (safe : SizeFits chunkStart (strtoul line) → Safe result next) :
    Safe result (notes [.size chunkStart line] >>= fun _ => next) := by
  have noted : Safe (fun _ => ∀ entry ∈ [Note.size chunkStart line], entry.Sized)
      (notes [.size chunkStart line]) := by
    refine assures_notes ?_
    intro _ entry listed
    rw [mem_singleton] at listed
    rw [listed]
    exact True.intro
  exact assures_bind noted fun _ sized => safe (sized _ (mem_singleton_self _))

end Safe

/-! ## Each part of the handler -/

variable {h : Httpread} {nread : Nat} {bytes : Bytes}

theorem gotFile_safe {α : Type} {result : α → Prop}
    (room : h.bodyAllocNbytes = 0 ∨ (h.body.length : Int) < h.bodyAllocNbytes) :
    Safe result (gotFile h) := by
  unfold gotFile
  split
  · exact assures_stop True.intro
  next some =>
    have inside : (Note.stores h.body.length 1 h.bodyAllocNbytes).Inside := by
      show (h.body.length : Int) + 1 ≤ h.bodyAllocNbytes
      omega
    exact safe_access inside (assures_stop True.intro)

theorem Placed.terminator (placed : Placed h) (room : Room nread h) :
    (h.body.length : Int) < h.bodyAllocNbytes := by
  rcases room with enough | ⟨known, whole⟩
  · omega
  · exact Int.lt_of_le_of_lt (placed.limit known).2 whole

theorem Settled.terminator (settled : Settled h) :
    h.bodyAllocNbytes = 0 ∨ (h.body.length : Int) < h.bodyAllocNbytes :=
  settled.held.imp And.left settled.placed.terminator

theorem Settled.stored {h : Httpread} (settled : Settled h) :
    h.body.length = 0 ∨ (h.body.length : Int) < h.bodyAllocNbytes :=
  settled.held.imp (fun none => by rw [none.2]; rfl) settled.placed.terminator

theorem collectHdr_safe (opening : Opening h) :
    Safe (fun done => done.2.length ≤ bytes.length ∧ Fresh done.1 ∧ done.1.gotHdr = true ∧
      0 ≤ done.1.contentLength ∧ done.1.contentLength ≤ intMax) (collectHdr bytes h) := by
  induction bytes generalizing h with
  | nil => exact assures_stop (Or.inl opening)
  | cons c rest ih =>
    unfold collectHdr
    split
    · exact assures_stop True.intro
    next free =>
      have short := opening.short
      have below : h.hdr.length < httpreadHeaderMaxSize := by omega
      have fresh := opening.fresh
      have longer : Opening { h with hdr := h.hdr ++ [c] } :=
        ⟨opening.gotHdr,
          ⟨fresh.1, fresh.2, fresh.3, fresh.4, fresh.5, fresh.6, fresh.7⟩, opening.length, by
            simpa using Nat.succ_le_of_lt below⟩
      refine safe_access (Nat.le_of_lt below) ?_
      dsimp only
      split
      · exact safe_access longer.short (assures_pure ⟨Nat.le_succ _,
          ⟨fresh.1, fresh.2, fresh.3, fresh.4, fresh.5, fresh.6, fresh.7⟩, rfl, opening.length⟩)
      · have later := ih longer
        refine later.weaken ?_
        exact fun done kept => ⟨Nat.le_succ_of_le kept.1, kept.2⟩

/-- The size that is asked for is what it would be without going round, or negative. -/
theorem newAlloc_room (settled : Settled h) (read : nread ≤ httpreadReadbufSize) {alloc : Int}
    (chosen : (if h.gotContentLength = true ∧
        wrapped (h.bodyAllocNbytes + httpreadBodybufDelta) < wrapped (h.contentLength + 1) then
        wrapped (h.contentLength + 1)
      else wrapped (h.bodyAllocNbytes + httpreadBodybufDelta)) = alloc)
    (nonneg : 0 ≤ alloc) :
    alloc ≤ intMax ∧ (4096 ∣ alloc ∨ (h.gotContentLength = true ∧ h.contentLength < alloc)) ∧
      Room nread { h with bodyAllocNbytes := alloc } := by
  obtain ⟨low, high⟩ := settled.placed.alloc
  obtain ⟨positive, length⟩ := settled.placed.length
  have stored := settled.stored
  rw [intMax] at high length
  rw [httpreadReadbufSize] at read
  rw [httpreadBodybufDelta] at chosen
  split at chosen
  next larger =>
    have same : alloc = h.contentLength + 1 := by
      rw [← chosen] at nonneg ⊢
      exact wrapped_of_nonneg (by omega) (by omega) nonneg
    have small : alloc ≤ intMax := by
      rw [← chosen]
      exact Int.le_of_lt_add_one (wrapped_fits _).2
    have covers : h.contentLength < alloc := by omega
    exact ⟨small, Or.inr ⟨larger.1, covers⟩, Or.inr ⟨larger.1, covers⟩⟩
  next steps =>
    have same : alloc = h.bodyAllocNbytes + 4096 := by
      rw [← chosen] at nonneg ⊢
      exact wrapped_of_nonneg (by omega) (by omega) nonneg
    have small : alloc ≤ intMax := by
      rw [← chosen]
      exact Int.le_of_lt_add_one (wrapped_fits _).2
    refine ⟨small, ?_, Or.inl (by show (h.body.length : Int) + nread < alloc; omega)⟩
    rcases settled.placed.whole with whole | ⟨known, whole⟩
    · left
      rw [same]
      exact Int.dvd_add whole (Int.dvd_refl 4096)
    · exact Or.inr ⟨known, by omega⟩

variable {h after : Httpread} {memory : Bool}

theorem grow_safe (read : nread ≤ httpreadReadbufSize) (settled : Settled h) :
    Safe (fun after => Placed after ∧ Room nread after) (grow memory nread h) := by
  unfold grow
  split
  next wanting =>
    split
    · exact assures_stop True.intro
    generalize chosen : (if h.gotContentLength = true ∧
      wrapped (h.bodyAllocNbytes + httpreadBodybufDelta) < wrapped (h.contentLength + 1) then
        wrapped (h.contentLength + 1)
      else wrapped (h.bodyAllocNbytes + httpreadBodybufDelta)) = alloc
    dsimp only
    rw [chosen]
    split
    · exact assures_stop True.intro
    next positive =>
    have nonneg : 0 ≤ alloc := by
      simp only [not_or, Int.not_lt] at positive
      exact positive.1
    obtain ⟨small, whole, room⟩ := newAlloc_room settled read chosen nonneg
    have placed := settled.placed
    exact assures_pure ⟨⟨placed.gotHdr, ⟨nonneg, small⟩, placed.length, whole, placed.limit,
      placed.start, placed.data⟩, room⟩
  next enough =>
    have placed := settled.placed
    have high := placed.alloc.2
    have stored := settled.stored
    refine assures_pure ⟨placed, ?_⟩
    rcases placed.whole with steps | known
    · left
      -- whole steps end too far below the largest `int` for the sum to go round
      rw [intMax] at high
      rw [httpreadReadbufSize] at read
      have fits : FitsInt (h.body.length + nread + 1) := by constructor <;> omega
      rw [wrapped_of_fits fits] at enough
      omega
    · exact Or.inr known

/-- After the tests at the head of the loop something is missing of the chunk and its end, or
of the body. -/
structure Ready (nread : Nat) (h : Httpread) : Prop where
  placed : Placed h
  room : Room nread h
  data : h.chunked = true → h.inChunkData = true →
    (h.body.length : Int) < h.chunkStart + h.chunkSize + 2
  length : h.chunked = false → h.gotContentLength = true → (h.body.length : Int) < h.contentLength

theorem Room.shorter (room : Room nread h)
    (body : after.body.length ≤ h.body.length) (alloc : after.bodyAllocNbytes = h.bodyAllocNbytes)
    (known : after.gotContentLength = h.gotContentLength)
    (length : after.contentLength = h.contentLength) : Room nread after := by
  unfold Room
  rw [alloc, known, length]
  exact room.imp_left fun enough => by omega

theorem endChunkHdr_safe (placed : Placed h) (room : Room nread h)
    (chunked : h.chunked = true) (inHdr : h.inChunkData = false) :
    Safe (fun done => Ready nread done.1) (endChunkHdr h) := by
  have ready : Ready nread h := ⟨placed, room, by simp [inHdr], by simp [chunked]⟩
  have unknown : h.gotContentLength = false := by
    by_contra known
    simpa [chunked] using (placed.limit (by simpa using known)).1
  unfold endChunkHdr
  dsimp only
  split
  · exact assures_pure ready
  next line =>
  refine safe_access (by constructor <;> omega) ?_
  split
  · exact assures_pure ready
  refine safe_access (by constructor <;> omega) ?_
  split
  · exact assures_pure ready
  split
  · exact assures_stop True.intro
  refine safe_size fun fits => ?_
  have start : (h.body.take h.chunkStart).length = h.chunkStart := length_take_of_le placed.start
  have shorter : Room nread { h with
      chunkSize := strtoul (h.body.drop h.chunkStart), body := h.body.take h.chunkStart } :=
    room.shorter (length_take_le' _ _) rfl rfl rfl
  have positive : (h.chunkStart : Int) < h.chunkStart + strtoul (h.body.drop h.chunkStart) + 2 := by
    rcases fits with fits | fits <;> omega
  split
  · refine assures_pure ⟨?_, shorter, by simp [inHdr], by simp [chunked]⟩
    exact ⟨placed.gotHdr, placed.alloc, placed.length, placed.whole, by simp [unknown],
      start.ge, by simp [inHdr]⟩
  · refine assures_pure ⟨?_, shorter, fun _ _ => by dsimp only; omega, by simp [chunked]⟩
    exact ⟨placed.gotHdr, placed.alloc, placed.length, placed.whole, by simp [unknown],
      start.ge, fun _ _ => ⟨fits, by dsimp only; omega⟩⟩

theorem endChunkData_safe (placed : Placed h) (room : Room nread h)
    (chunked : h.chunked = true) (inData : h.inChunkData = true) :
    Safe (Ready nread) (endChunkData h) := by
  obtain ⟨fits, inside⟩ := placed.data chunked inData
  have unknown : h.gotContentLength = false := by
    by_contra known
    simpa [chunked] using (placed.limit (by simpa using known)).1
  have size : wrapped (h.chunkSize + 2) = h.chunkSize + 2 := by
    refine wrapped_of_fits ?_
    rcases fits with ⟨nonneg, small⟩ | ⟨negative, start⟩
    · rw [intMax] at small
      constructor <;> omega
    · constructor <;> omega
  unfold endChunkData
  dsimp only
  rw [size]
  split
  next unfinished => exact assures_pure ⟨placed, room, fun _ _ => by omega, by simp [chunked]⟩
  next finished =>
  -- the end of a chunk that fits is at least two bytes behind the start of the body
  have behind : 2 ≤ h.body.length := by
    rcases fits with ⟨nonneg, small⟩ | ⟨negative, start⟩ <;> omega
  refine safe_access (by constructor <;> omega) ?_
  split
  · exact assures_stop True.intro
  refine safe_access (by constructor <;> omega) ?_
  split
  · exact assures_stop True.intro
  have length : (h.body.take (h.body.length - 2)).length = h.body.length - 2 :=
    length_take_of_le (Nat.sub_le _ _)
  refine assures_pure ⟨?_, ?_, by simp, by simp [chunked]⟩
  · exact ⟨placed.gotHdr, placed.alloc, placed.length, placed.whole, by simp [unknown],
      length.ge, by simp⟩
  · exact room.shorter (length_take_le' _ _) rfl rfl rfl

theorem seeIfStop_safe (placed : Placed h) (room : Room nread h) :
    Safe (fun done => Ready nread done.1) (seeIfStop h) := by
  unfold seeIfStop
  split
  next inHdr => exact endChunkHdr_safe placed room inHdr.1 inHdr.2
  next inHdr =>
  split
  next chunked =>
    have inData : h.inChunkData = true := by simpa [chunked] using inHdr
    exact assures_bind (endChunkData_safe placed room chunked inData)
      fun _ ready => assures_pure ready
  next plain =>
  split
  · exact gotFile_safe (Or.inr (placed.terminator room))
  next missing =>
    refine assures_pure ⟨placed, room, by simp [plain], fun _ known => ?_⟩
    exact Int.not_le.mp fun reached => missing ⟨known, reached⟩

theorem ncopy_bounds (some : 0 < nread) (ready : Ready nread h)
    (inData : h.chunked = true → h.inChunkData = true) :
    0 < ncopy nread h ∧ ncopy nread h ≤ nread ∧
      (h.chunked = true → h.body.length + ncopy nread h ≤ h.chunkStart + h.chunkSize + 2) ∧
      (h.gotContentLength = true → h.body.length + ncopy nread h ≤ h.contentLength) := by
  have placed := ready.placed
  have start := placed.start
  have length := placed.length.2
  rw [intMax] at length
  unfold ncopy
  by_cases chunked : h.chunked = true
  · have missing := ready.data chunked (inData chunked)
    have small : h.chunkSize + 2 ≤ intMax := by
      rcases (placed.data chunked (inData chunked)).1 with ⟨_, small⟩ | ⟨negative, _⟩
      · exact small
      · rw [negative]
        decide
    rw [intMax] at small
    have fits : FitsInt (h.chunkStart + h.chunkSize + 2 - h.body.length) := by constructor <;> omega
    rw [if_pos chunked, wrapped_of_fits fits]
    refine ⟨by omega, by omega, fun _ => by omega, fun known => ?_⟩
    simpa [chunked] using (placed.limit known).1
  · rw [if_neg chunked]
    by_cases known : h.gotContentLength = true
    · have missing := ready.length (by simpa using chunked) known
      have fits : FitsInt (h.contentLength - h.body.length) := by constructor <;> omega
      rw [if_pos known, wrapped_of_fits fits]
      exact ⟨by omega, by omega, fun other => absurd other chunked, fun _ => by omega⟩
    · rw [if_neg known]
      exact ⟨by omega, by omega, fun other => absurd other chunked,
        fun other => absurd other known⟩

theorem transfer_safe (some : bytes ≠ []) (ready : Ready bytes.length h) :
    Safe (fun count => 0 < count ∧
      Placed { h with body := h.body ++ bytes.take count } ∧
      Room (bytes.drop count).length { h with body := h.body ++ bytes.take count })
      (transfer bytes h) := by
  have nread : 0 < bytes.length := length_pos_of_ne_nil some
  have placed := ready.placed
  have high := placed.alloc.2
  rw [intMax] at high
  unfold transfer
  split
  next inHdr =>
    have unknown : h.gotContentLength = false := by
      by_contra known
      simpa [inHdr.1] using (placed.limit (by simpa using known)).1
    have room : (h.body.length : Int) + bytes.length < h.bodyAllocNbytes := by
      simpa [Room, unknown] using ready.room
    refine safe_access (by show (h.body.length : Int) + 1 ≤ h.bodyAllocNbytes; omega) ?_
    refine assures_pure ⟨Nat.one_pos, ?_, Or.inl ?_⟩
    · exact ⟨placed.gotHdr, placed.alloc, placed.length, placed.whole, by simp [unknown],
        placed.start.trans (by simp), by simp [inHdr.2]⟩
    · simp
      omega
  next inData =>
    obtain ⟨positive, most, chunk, whole⟩ := ncopy_bounds nread ready (by simpa using inData)
    generalize ncopy bytes.length h = count at positive most chunk whole
    dsimp only
    refine safe_access ⟨positive, most⟩ ?_
    have stored : (h.body.length : Int) + count ≤ h.bodyAllocNbytes := by
      rcases ready.room with room | ⟨known, covers⟩
      · omega
      · have inside := whole known
        omega
    refine safe_access stored (assures_pure ?_)
    have taken : (bytes.take count.toNat).length = count.toNat := length_take_of_le (by omega)
    refine ⟨by omega, ⟨placed.gotHdr, placed.alloc, placed.length, placed.whole, ?_, ?_, ?_⟩, ?_⟩
    · intro known
      refine ⟨(placed.limit known).1, ?_⟩
      have inside := whole known
      rw [length_append, taken]
      dsimp only
      omega
    · exact placed.start.trans (by simp)
    · intro chunked inData
      refine ⟨(placed.data chunked inData).1, ?_⟩
      have inside := chunk chunked
      rw [length_append, taken]
      dsimp only
      omega
    · refine ready.room.imp_left fun room => ?_
      rw [length_append, taken, length_drop]
      dsimp only
      omega

theorem bodyLoop_safe {fuel : Nat} (enough : bytes.length < fuel)
    (placed : Placed h) (room : Room bytes.length h) :
    Safe (fun done => Placed done.1 ∧ Room 0 done.1) (bodyLoop fuel bytes h) := by
  induction fuel generalizing bytes h with
  | zero => omega
  | succ fuel ih =>
    refine assures_bind (seeIfStop_safe placed room) fun ⟨after, ends⟩ ready => ?_
    dsimp only at ready ⊢
    split
    · refine assures_pure ⟨ready.placed, ready.room.imp_left fun held => ?_⟩
      show (after.body.length : Int) + 0 < after.bodyAllocNbytes
      omega
    next goes =>
      have some : bytes ≠ [] := fun none => goes (Or.inr none)
      have nread : 0 < bytes.length := length_pos_of_ne_nil some
      refine assures_bind (transfer_safe some ready) ?_
      intro count ⟨positive, moved, left⟩
      refine ih ?_ moved left
      rw [length_drop]
      omega

theorem trailerLoop_cases (bytes : Bytes) (h : Httpread) :
    (∃ state, trailerLoop bytes h = .more { h with trailerState := state }) ∨ trailerLoop bytes h =
        .file { h with trailerState := .lineBegin, inTrailer := false, gotBody := true } := by
  induction bytes generalizing h with
  | nil => exact Or.inl ⟨h.trailerState, rfl⟩
  | cons c rest ih =>
    rw [trailerLoop]
    split
    · exact ih _
    · split
      · exact Or.inr rfl
      · exact ih _
    · exact ih _
    · exact ih _

theorem afterLoop_safe (settled : Settled h) : Safe Settled (afterLoop bytes h) := by
  have placed := settled.placed
  unfold afterLoop
  split
  · unfold trailer
    rcases trailerLoop_cases bytes h with ⟨state, more⟩ | file
    · rw [more]
      exact assures_pure ⟨⟨placed.gotHdr, placed.alloc, placed.length, placed.whole, placed.limit,
        placed.start, placed.data⟩, settled.held⟩
    · rw [file]
      exact gotFile_safe settled.terminator
  · exact assures_pure settled

theorem readBody_safe (read : bytes.length ≤ httpreadReadbufSize) (settled : Settled h) :
    Safe Settled (readBody memory bytes h) := by
  unfold readBody
  split
  · exact gotFile_safe settled.terminator
  split
  · exact assures_pure settled
  split
  · exact afterLoop_safe settled
  · refine assures_bind (grow_safe read settled) fun grown ⟨placed, room⟩ => ?_
    refine assures_bind (bodyLoop_safe (Nat.lt_succ_self _) placed room) ?_
    intro ⟨after, rest⟩ ⟨placed, room⟩
    exact afterLoop_safe ⟨placed, Or.inr room⟩

/-! ## The whole handler -/

theorem atol_bounds (text : Bytes) : 0 ≤ atol text ∧ atol text ≤ intMax := by
  unfold atol
  rw [intMax]
  omega

theorem optionAnalyze_length {line : Bytes} (done : optionAnalyze line h = some after)
    (length : 0 ≤ h.contentLength ∧ h.contentLength ≤ intMax) :
    0 ≤ after.contentLength ∧ after.contentLength ≤ intMax := by
  unfold optionAnalyze at done
  dsimp only at done
  split at done
  · split at done
    · cases done
      exact atol_bounds _
    · cases done
  split at done
  · split at done
    · cases done
      exact length
    · cases done
      exact length
  · cases done
    exact length

theorem optionLines_length {fuel : Nat} {text : Bytes} (done : optionLines fuel text h = some after)
    (length : 0 ≤ h.contentLength ∧ h.contentLength ≤ intMax) :
    0 ≤ after.contentLength ∧ after.contentLength ≤ intMax := by
  induction fuel generalizing text h with
  | zero => cases done
  | succ fuel ih =>
    rw [optionLines] at done
    split at done
    · cases done
      exact length
    split at done
    · cases done
    · obtain ⟨middle, option, later⟩ := Option.bind_eq_some_iff.mp done
      exact ih later (optionAnalyze_length option length)

theorem hdrAnalyze_length (done : hdrAnalyze h = some after)
    (length : 0 ≤ h.contentLength ∧ h.contentLength ≤ intMax) :
    0 ≤ after.contentLength ∧ after.contentLength ≤ intMax := by
  unfold hdrAnalyze at done
  split at done
  · cases done
  obtain ⟨first, line, later⟩ := Option.bind_eq_some_iff.mp done
  obtain ⟨last, options, limited⟩ := Option.map_eq_some_iff.mp later
  have begun : first.contentLength = h.contentLength := by
    split at line
    · unfold analyzeReply withVersion at line
      dsimp only at line
      split at line
      · cases line
        split <;> rfl
      · cases line
    · cases line
      unfold analyzeRequest withVersion
      dsimp only
      split
      · split <;> rfl
      · rfl
  have ended : after.contentLength = last.contentLength := by
    rw [← limited]
    rcases limitBody_cases last with same | same <;> rw [same] <;> split <;> rfl
  rw [ended]
  exact optionLines_length options (begun ▸ length)

theorem finishHdr_safe {rest : Bytes}
    (read : rest.length ≤ httpreadReadbufSize) (fresh : Fresh h) (gotHdr : h.gotHdr = true)
    (length : 0 ≤ h.contentLength ∧ h.contentLength ≤ intMax) :
    Safe Settled (finishHdr memory h rest) := by
  unfold finishHdr
  cases done : hdrAnalyze h with
  | none => exact assures_stop True.intro
  | some after =>
    have analyzed := hdrAnalyze_analyzed done
    have fresh := analyzed.fresh fresh
    have length := hdrAnalyze_length done length
    have settled : Settled after := by
      refine ⟨⟨analyzed.gotHdr.trans gotHdr, ?_, length, Or.inl ?_, fun known => ?_, ?_, ?_⟩,
        Or.inl ⟨fresh.bodyAllocNbytes, fresh.body⟩⟩
      · rw [fresh.bodyAllocNbytes]
        decide
      · rw [fresh.bodyAllocNbytes]
        decide
      · refine ⟨?_, by rw [fresh.body]; exact length.1⟩
        by_contra chunked
        simpa [known] using hdrAnalyze_chunked done (by simpa using chunked)
      · rw [fresh.chunkStart]
        exact Nat.zero_le _
      · simp [fresh.inChunkData]
    dsimp only
    split
    · exact gotFile_safe (Or.inl fresh.bodyAllocNbytes)
    split
    · exact gotFile_safe (Or.inl fresh.bodyAllocNbytes)
    · exact readBody_safe read settled

theorem readHandler_safe {memory : Bool} {read : Read}
    (short : ∀ bytes, read = .got bytes → bytes.length ≤ httpreadReadbufSize) {h : Httpread}
    (kept : Opening h ∨ Settled h) : Safe Settled (readHandler memory h read) := by
  cases read with
  | failed => exact assures_stop True.intro
  | got bytes =>
    rw [readHandler]
    rcases kept with opening | settled
    · split
      · rw [readEof, if_pos opening.gotHdr]
        exact assures_stop True.intro
      rw [if_neg (by simp [opening.gotHdr])]
      refine assures_bind (collectHdr_safe opening) ?_
      intro ⟨after, rest⟩ ⟨less, fresh, gotHdr, length⟩
      exact finishHdr_safe (less.trans (short bytes rfl)) fresh gotHdr length
    · have gotHdr := settled.placed.gotHdr
      split
      · rw [readEof, if_neg (by simp [gotHdr])]
        split
        · exact assures_stop True.intro
        · exact gotFile_safe settled.terminator
      · exact readBody_safe (short bytes rfl) settled

end Accesses

/-- What a call of the handler meets: the read, and whether there is memory. -/
structure Input where
  read : Read
  memory : Bool
  deriving DecidableEq

def Input.Short (input : Input) : Prop :=
  ∀ bytes, input.read = .got bytes → bytes.length ≤ httpreadReadbufSize

def Reader.handle : Reader → Input → Logged Note Reader
  | .reading h, input =>
    let handling := Accesses.readHandler input.memory h input.read
    ⟨handling.outcome.reader, handling.log⟩
  | reader, _ => pure reader

def Reader.handleAll (maxBytes : Int) (inputs : List Input) : Logged Note Reader :=
  inputs.foldlM Reader.handle (.reading (httpreadCreate maxBytes))

def Reader.Kept : Reader → Prop
  | .reading h => Accesses.Opening h ∨ Accesses.Settled h
  | _ => True

theorem Reader.Kept.handle {reader : Reader} {input : Input} (kept : reader.Kept)
    (short : input.Short) (sized : (reader.handle input).All Note.Sized) :
    (reader.handle input).All Note.Inside ∧ (reader.handle input).value.Kept := by
  cases reader with
  | reading h =>
    have safe := @Accesses.readHandler_safe input.memory input.read short h kept
    refine ⟨safe.noted sized, ?_⟩
    show (Handling.outcome _).reader.Kept
    unfold Handling.outcome
    cases came : (Accesses.readHandler input.memory h input.read).value with
    | ok after => exact Or.inr (safe.ok sized after came)
    | error outcome =>
      have stops := safe.error sized outcome came
      cases outcome with
      | more after => exact stops
      | file after => exact True.intro
      | bad => exact True.intro
      | undefined => exact True.intro
  | ready h => exact ⟨Logged.all_pure _, True.intro⟩
  | error => exact ⟨Logged.all_pure _, True.intro⟩
  | undefined => exact ⟨Logged.all_pure _, True.intro⟩

/-- Every access of a run is inside if the sizes of the chunks that it meets fit. -/
theorem accesses_inside (maxBytes : Int) (inputs : List Input)
    (short : ∀ input ∈ inputs, input.Short)
    (sized : (Reader.handleAll maxBytes inputs).All Note.Sized) :
    (Reader.handleAll maxBytes inputs).All Note.Inside := by
  have begins : Reader.Kept (.reading (httpreadCreate maxBytes)) :=
    Or.inl ⟨rfl, ⟨rfl, rfl, rfl, rfl, rfl, rfl, rfl⟩, (by decide : (0 : Int) ≤ 0 ∧ 0 ≤ intMax), Nat.zero_le _⟩
  unfold Reader.handleAll at sized ⊢
  generalize Reader.reading (httpreadCreate maxBytes) = reader at begins sized ⊢
  induction inputs generalizing reader with
  | nil =>
    rw [foldlM_nil]
    exact Logged.all_pure _
  | cons input rest ih =>
    rw [foldlM_cons] at sized ⊢
    obtain ⟨here, later⟩ := (Logged.all_bind _ _).mp sized
    have read := short input mem_cons_self
    obtain ⟨inside, kept⟩ := begins.handle read here
    refine (Logged.all_bind _ _).mpr ⟨inside, ?_⟩
    exact ih (fun input member => short input (mem_cons_of_mem _ member)) _ kept later

/-- A request with a body in chunks, up to the header of the first chunk. -/
def chunkedPost (size : String) : Bytes :=
  letters "POST / HTTP/1.1" ++ Httpread.crlf ++ letters "Transfer-Encoding: chunked" ++ Httpread.crlf ++ Httpread.crlf ++
    letters size ++ Httpread.crlf

instance : DecidablePred Note.Sized
  | .size _ _ => inferInstanceAs (Decidable ((_ ∧ _) ∨ (_ ∧ _)))
  | .storesHdr _ => inferInstanceAs (Decidable True)
  | .stores _ _ _ => inferInstanceAs (Decidable True)
  | .looks _ _ => inferInstanceAs (Decidable True)
  | .copies _ _ => inferInstanceAs (Decidable True)

instance {α : Type} (property : Note → Prop) [DecidablePred property] (log : Logged Note α) :
    Decidable (log.All property) := List.decidableBAll _ _

/-- A chunk of five bytes with its end in two reads. -/
theorem accesses_inside_hello : (Reader.handleAll 100
    [⟨.got (chunkedPost "5"), true⟩, ⟨.got (letters "hello" ++ Httpread.crlf), true⟩]).All Note.Inside := by
  refine accesses_inside 100 _ ?_ (by decide)
  intro input member bytes same
  simp only [mem_cons, not_mem_nil, or_false] at member
  rcases member with rfl | rfl <;> cases same <;> decide

/-- The size is kept as a negative number, and the next byte is to be moved with a copy of as
many bytes. -/
theorem large_chunk_outside : ∃ note ∈ (Reader.handleAll 100
    [⟨.got (chunkedPost "80000000" ++ letters "x"), true⟩]).log, ¬ note.Inside :=
  ⟨.copies (-2147483646) 1, by decide, by decide⟩

end AthApps.Http
