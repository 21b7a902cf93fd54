import AthApps.Http.Httpread

/-!
# The loops of the handler across two reads

A read leaves the handle such that the next one goes on where it stopped: the
tests at the head of the loop change nothing when they are made again, so two
reads do what one read of all their bytes does.  The exception is a read that
ends after the last chunk and before the end of the trailer: the next call
takes the trailer for the header of a chunk.
-/

set_option autoImplicit false

namespace AthApps.Http

open AthApps.Lib List

namespace Httpread

/-- What the loops never change. -/
structure Alike (h after : Httpread) : Prop where
  maxBytes : after.maxBytes = h.maxBytes
  gotHdr : after.gotHdr = h.gotHdr
  hdr : after.hdr = h.hdr
  gotContentLength : after.gotContentLength = h.gotContentLength
  contentLength : after.contentLength = h.contentLength
  chunked : after.chunked = h.chunked
  bodyAllocNbytes : after.bodyAllocNbytes = h.bodyAllocNbytes

theorem Alike.refl (h : Httpread) : Alike h h := ⟨rfl, rfl, rfl, rfl, rfl, rfl, rfl⟩

theorem Alike.trans {first second third : Httpread} (early : Alike first second)
    (late : Alike second third) : Alike first third :=
  ⟨late.maxBytes.trans early.maxBytes, late.gotHdr.trans early.gotHdr, late.hdr.trans early.hdr,
    late.gotContentLength.trans early.gotContentLength,
    late.contentLength.trans early.contentLength, late.chunked.trans early.chunked,
    late.bodyAllocNbytes.trans early.bodyAllocNbytes⟩

variable {h after : Httpread}

theorem endChunkHdr_go (goes : endChunkHdr h = .go after) :
    after = h ∨ (h.chunkStart + 2 ≤ h.body.length ∧
      after = { h with
        chunkSize := strtoul (h.body.drop h.chunkStart)
        body := h.body.take h.chunkStart
        inChunkData := true }) := by
  unfold endChunkHdr at goes
  dsimp only at goes
  split at goes
  next ended =>
    have long := (isSuffixOf_iff_suffix.mp ended).length_le
    simp only [crlf, length_cons, length_nil, length_drop] at long
    split at goes
    · cases goes
    split at goes
    · cases goes
    · cases goes
      exact Or.inr ⟨by omega, rfl⟩
  next =>
    cases goes
    exact Or.inl rfl

theorem endChunkData_go (goes : endChunkData h = .go after) : after = h ∨ (2 ≤ h.body.length ∧
      after = { h with
        body := h.body.take (h.body.length - 2)
        chunkStart := h.body.length - 2
        inChunkData := false
        chunkSize := 0 }) := by
  unfold endChunkData at goes
  split at goes
  · cases goes
  split at goes
  next =>
    split at goes
    · cases goes
    next last front ends =>
      split at goes
      · cases goes
      split at goes
      · cases goes
      next c rest =>
        split at goes
        · cases goes
          have length := congrArg List.length ends
          simp only [length_reverse, length_cons] at length
          exact Or.inr ⟨by omega, rfl⟩
        · cases goes
  next =>
    cases goes
    exact Or.inl rfl

theorem seeIfStop_of_empty_line {h : Httpread} (chunked : h.chunked = true)
    (inHdr : h.inChunkData = false) (empty : h.body.length ≤ h.chunkStart) :
    seeIfStop h = .go h := by
  have line : h.body.drop h.chunkStart = [] := drop_of_length_le empty
  simp [seeIfStop, chunked, inHdr, endChunkHdr, line, crlf]

variable {h : Httpread}

theorem seeIfCopy_of_hdr (inHdr : h.inChunkData = false)
    (goes : seeIfStop h = .go h) : seeIfCopy h = .go h := by
  simp [seeIfCopy, goes, inHdr]

theorem seeIfCopy_of_empty_data {h : Httpread} (chunked : h.chunked = true)
    (inData : h.inChunkData = true) (empty : h.body.length = h.chunkStart) :
    seeIfCopy h =
      if h.ncopy = 0 then seeIfStop h
      else if h.chunkStart + h.chunkSize + 2 > intMax ∨ h.ncopy < 0 then .undefined
      else .go h := by
  have missing : h.ncopy = h.chunkSize + 2 := by
    rw [ncopy, empty]
    omega
  have tests : seeIfStop h = endChunkData h := by simp [seeIfStop, chunked, inData]
  by_cases large : h.chunkSize + 2 > intMax
  · have positive : ¬ h.ncopy = 0 := by rw [missing, intMax] at *; omega
    have beyond : h.chunkStart + h.chunkSize + 2 > intMax := by omega
    have stops : seeIfStop h = .undefined := by rw [tests, endChunkData, if_pos large]
    rw [seeIfCopy, stops, if_neg positive, if_pos (Or.inl beyond)]
  by_cases zero : h.ncopy = 0
  · rw [if_pos zero]
    cases stops : seeIfStop h with
    | go after =>
      rw [tests] at stops
      rcases endChunkData_go stops with rfl | ⟨-, rfl⟩
      · -- at its end the chunk cannot stay as it is
        unfold endChunkData at stops
        rw [if_neg large, if_pos (by rw [empty]; omega)] at stops
        split at stops
        · cases stops
        split at stops
        · cases stops
        split at stops
        · cases stops
        split at stops
        · have impossible := congrArg Httpread.inChunkData (Turn.go.inj stops)
          simp [inData] at impossible
        · cases stops
      · simp [seeIfCopy, tests, stops]
    | trailer after => simp [seeIfCopy, stops]
    | file after => simp [seeIfCopy, stops]
    | bad => simp [seeIfCopy, stops]
    | undefined => simp [seeIfCopy, stops]
  · have stays : seeIfStop h = .go h := by
      rw [tests, endChunkData, if_neg large, if_neg (by rw [empty]; omega)]
    rw [seeIfCopy, stays]
    simp [chunked, inData, zero]

/-- What the tests at the head of the loop do when they let it go on.  Made again, they
do nothing more. -/
theorem seeIfStop_go (goes : seeIfStop h = .go after) :
    Alike h after ∧ after.inTrailer = h.inTrailer ∧ after.gotBody = h.gotBody ∧
      after.body.length ≤ h.body.length ∧ seeIfCopy after = seeIfCopy h := by
  have tests := goes
  unfold seeIfStop at tests
  split at tests
  next hdr =>
    rcases endChunkHdr_go tests with rfl | ⟨long, rfl⟩
    · exact ⟨Alike.refl after, rfl, rfl, Nat.le_refl _, rfl⟩
    · refine ⟨⟨rfl, rfl, rfl, rfl, rfl, rfl, rfl⟩, rfl, rfl, ?_, ?_⟩
      · rw [length_take]
        omega
      have begins := @seeIfCopy_of_empty_data
        { h with
          chunkSize := strtoul (h.body.drop h.chunkStart)
          body := h.body.take h.chunkStart
          inChunkData := true } hdr.1 rfl (length_take_of_le (by omega))
      rw [begins, seeIfCopy, goes]
      simp [hdr.1]
  next notHdr =>
    split at tests
    next chunked =>
      have inData : h.inChunkData = true := by
        by_contra other
        exact notHdr ⟨chunked, by simpa using other⟩
      rcases endChunkData_go tests with rfl | ⟨long, rfl⟩
      · exact ⟨Alike.refl after, rfl, rfl, Nat.le_refl _, rfl⟩
      · refine ⟨⟨rfl, rfl, rfl, rfl, rfl, rfl, rfl⟩, rfl, rfl, ?_, ?_⟩
        · rw [length_take]
          omega
        have stays := @seeIfStop_of_empty_line
          { h with
            body := h.body.take (h.body.length - 2)
            chunkStart := h.body.length - 2
            inChunkData := false
            chunkSize := 0 } chunked rfl (by simp)
        rw [seeIfCopy_of_hdr rfl stays, seeIfCopy, goes]
        simp
    next =>
      split at tests
      · cases tests
      · cases tests
        exact ⟨Alike.refl _, rfl, rfl, Nat.le_refl _, rfl⟩

theorem seeIfStop_trailer (ends : seeIfStop h = .trailer after) :
    Alike h after ∧ after.chunked = true ∧ after.inTrailer = true ∧ after.gotBody = h.gotBody ∧
      after.body.length ≤ h.body.length := by
  unfold seeIfStop at ends
  split at ends
  next hdr =>
    unfold endChunkHdr at ends
    dsimp only at ends
    split at ends
    · split at ends
      · cases ends
      split at ends
      · cases ends
        refine ⟨⟨rfl, rfl, rfl, rfl, rfl, rfl, rfl⟩, hdr.1, rfl, rfl, ?_⟩
        rw [length_take]
        omega
      · cases ends
    · cases ends
  next =>
    split at ends
    next =>
      unfold endChunkData at ends
      split at ends
      · cases ends
      split at ends
      · split at ends
        · cases ends
        split at ends
        · cases ends
        split at ends
        · cases ends
        split at ends <;> cases ends
      · cases ends
    next => split at ends <;> cases ends

theorem seeIfStop_file (ends : seeIfStop h = .file after) :
    after = { h with gotBody := true } ∧ h.chunked = false ∧ h.gotContentLength = true ∧
      h.contentLength ≤ h.body.length := by
  unfold seeIfStop at ends
  split at ends
  next =>
    unfold endChunkHdr at ends
    dsimp only at ends
    split at ends
    · split at ends
      · cases ends
      split at ends <;> cases ends
    · cases ends
  next =>
    split at ends
    next =>
      unfold endChunkData at ends
      split at ends
      · cases ends
      split at ends
      · split at ends
        · cases ends
        split at ends
        · cases ends
        split at ends
        · cases ends
        split at ends <;> cases ends
      · cases ends
    next plain =>
      split at ends
      next enough =>
        cases ends
        exact ⟨rfl, by simpa using plain, enough.1, enough.2⟩
      next => cases ends

/-- Whether there are bytes to copy makes a difference only in the data of a chunk. -/
theorem seeIfCopy_cases (h : Httpread) :
    (∃ after, seeIfStop h = .go after) ∨ seeIfCopy h = seeIfStop h := by
  cases tests : seeIfStop h with
  | go after => exact Or.inl ⟨after, rfl⟩
  | trailer after => exact Or.inr (by simp [seeIfCopy, tests])
  | file after => exact Or.inr (by simp [seeIfCopy, tests])
  | bad => exact Or.inr (by simp [seeIfCopy, tests])
  | undefined => exact Or.inr (by simp [seeIfCopy, tests])

theorem seeIfCopy_go (goes : seeIfCopy h = .go after) :
    Alike h after ∧ after.inTrailer = h.inTrailer ∧ after.gotBody = h.gotBody ∧
      after.body.length ≤ h.body.length := by
  rcases seeIfCopy_cases h with ⟨first, tests⟩ | same
  · have here := seeIfStop_go tests
    rw [seeIfCopy, tests] at goes
    dsimp only at goes
    split at goes
    · split at goes
      · have again := seeIfStop_go goes
        exact ⟨here.1.trans again.1, again.2.1.trans here.2.1, again.2.2.1.trans here.2.2.1,
          Nat.le_trans again.2.2.2.1 here.2.2.2.1⟩
      split at goes
      · cases goes
      · cases goes
        exact ⟨here.1, here.2.1, here.2.2.1, here.2.2.2.1⟩
    · cases goes
      exact ⟨here.1, here.2.1, here.2.2.1, here.2.2.2.1⟩
  · rw [same] at goes
    have here := seeIfStop_go goes
    exact ⟨here.1, here.2.1, here.2.2.1, here.2.2.2.1⟩

theorem seeIfStop_of_data (chunked : h.chunked = true) (inData : h.inChunkData = true) :
    (∃ after, seeIfStop h = .go after) ∨ seeIfStop h = .bad ∨ seeIfStop h = .undefined := by
  cases tests : seeIfStop h with
  | go after => exact Or.inl ⟨after, rfl⟩
  | trailer after =>
    have hdr : seeIfStop h = endChunkData h := by simp [seeIfStop, chunked, inData]
    rw [hdr] at tests
    unfold endChunkData at tests
    split at tests
    · cases tests
    split at tests
    · split at tests
      · cases tests
      split at tests
      · cases tests
      split at tests
      · cases tests
      split at tests <;> cases tests
    · cases tests
  | file after =>
    have plain := (seeIfStop_file tests).2.1
    rw [chunked] at plain
    cases plain
  | bad => exact Or.inr (Or.inl rfl)
  | undefined => exact Or.inr (Or.inr rfl)

/-- The trailer and the end of the body are found by the tests alone. -/
theorem seeIfCopy_stops (stops : ∀ after, seeIfCopy h ≠ .go after) :
    seeIfCopy h = seeIfStop h ∨ seeIfCopy h = .bad ∨ seeIfCopy h = .undefined := by
  rcases seeIfCopy_cases h with ⟨first, tests⟩ | same
  · rw [seeIfCopy, tests] at stops ⊢
    dsimp only at stops ⊢
    split at stops
    next inData =>
      rw [if_pos inData]
      split at stops
      next none =>
        rw [if_pos none]
        rcases seeIfStop_of_data inData.1 inData.2 with ⟨after, goes⟩ | bad | undefined
        · exact absurd goes (stops after)
        · exact Or.inr (Or.inl bad)
        · exact Or.inr (Or.inr undefined)
      next some =>
        rw [if_neg some]
        split at stops
        next beyond =>
          rw [if_pos beyond]
          exact Or.inr (Or.inr rfl)
        next => exact absurd rfl (stops first)
    next => exact absurd rfl (stops first)
  · exact Or.inl same

theorem seeIfCopy_trailer (ends : seeIfCopy h = .trailer after) : seeIfStop h = .trailer after := by
  rcases seeIfCopy_stops (h := h) (by rw [ends]; simp) with same | other | other
  · exact same.symm.trans ends
  · rw [ends] at other
    cases other
  · rw [ends] at other
    cases other

theorem seeIfCopy_file (ends : seeIfCopy h = .file after) : seeIfStop h = .file after := by
  rcases seeIfCopy_stops (h := h) (by rw [ends]; simp) with same | other | other
  · exact same.symm.trans ends
  · rw [ends] at other
    cases other
  · rw [ends] at other
    cases other

theorem Alike.of_trailerState {state : TrailerState}
    (alike : Alike { h with trailerState := state } after) : Alike h after :=
  ⟨alike.maxBytes, alike.gotHdr, alike.hdr, alike.gotContentLength, alike.contentLength,
    alike.chunked, alike.bodyAllocNbytes⟩

theorem trailerLoop_more {bytes : Bytes} (more : trailerLoop bytes h = .more after) :
    Alike h after ∧ after.inTrailer = h.inTrailer ∧ after.gotBody = h.gotBody ∧
      after.body = h.body := by
  induction bytes generalizing h with
  | nil =>
    cases more
    exact ⟨Alike.refl _, rfl, rfl, rfl⟩
  | cons c rest ih =>
    rw [trailerLoop] at more
    split at more
    · have later := ih more
      exact ⟨later.1.of_trailerState, later.2⟩
    · split at more
      · cases more
      · have later := ih more
        exact ⟨later.1.of_trailerState, later.2⟩
    · have later := ih more
      exact ⟨later.1.of_trailerState, later.2⟩
    · have later := ih more
      exact ⟨later.1.of_trailerState, later.2⟩

theorem trailerLoop_append (first second : Bytes) (h : Httpread) :
    trailerLoop (first ++ second) h =
      match trailerLoop first h with
      | .more after => trailerLoop second after
      | outcome => outcome := by
  induction first generalizing h with
  | nil => rfl
  | cons c rest ih =>
    rw [cons_append, trailerLoop, trailerLoop]
    split
    · exact ih _
    · split
      · rfl
      · exact ih _
    · exact ih _
    · exact ih _

theorem afterLoop_nil (h : Httpread) : afterLoop [] h = .more h := by
  unfold afterLoop
  split <;> rfl

theorem bodyLoop_of_go (goes : seeIfStop h = .go after) {bytes : Bytes}
    (nonempty : bytes ≠ []) : bodyLoop bytes h = bodyLoop bytes after := by
  cases bytes with
  | nil => exact absurd rfl nonempty
  | cons c rest => rw [bodyLoop, bodyLoop, (seeIfStop_go goes).2.2.2.2]

/-- The rest of the bytes comes to a reader that has begun with the trailer, or not. -/
def goOn (bytes : Bytes) (h : Httpread) : Outcome :=
  if h.inTrailer then trailerLoop bytes h else bodyLoop bytes h

theorem bodyLoop_append (first : Bytes) {second : Bytes} (nonempty : second ≠ [])
    (outside : h.inTrailer = false) :
    bodyLoop (first ++ second) h =
      match bodyLoop first h with
      | .more after => goOn second after
      | outcome => outcome := by
  induction first generalizing h with
  | nil =>
    rw [nil_append, bodyLoop]
    cases tests : seeIfStop h with
    | go after =>
      have here := seeIfStop_go tests
      rw [bodyLoop_of_go tests nonempty]
      simp [afterLoop_nil, goOn, here.2.1, outside]
    | trailer after =>
      obtain ⟨-, chunked, inside, -, -⟩ := seeIfStop_trailer tests
      cases second with
      | nil => exact absurd rfl nonempty
      | cons c rest =>
        have same : seeIfCopy h = .trailer after := by simp [seeIfCopy, tests]
        rw [bodyLoop, same]
        simp [afterLoop, goOn, chunked, inside, trailerLoop]
    | file after =>
      cases second with
      | nil => exact absurd rfl nonempty
      | cons c rest => simp [bodyLoop, seeIfCopy, tests]
    | bad =>
      cases second with
      | nil => exact absurd rfl nonempty
      | cons c rest => simp [bodyLoop, seeIfCopy, tests]
    | undefined =>
      cases second with
      | nil => exact absurd rfl nonempty
      | cons c rest => simp [bodyLoop, seeIfCopy, tests]
  | cons c rest ih =>
    rw [cons_append, bodyLoop, bodyLoop]
    cases tests : seeIfCopy h with
    | go after =>
      have here := seeIfCopy_go tests
      exact ih (here.2.1.trans outside)
    | trailer after =>
      obtain ⟨-, chunked, inside, -, -⟩ := seeIfStop_trailer (seeIfCopy_trailer tests)
      have begun : ∀ bytes, afterLoop bytes after = trailerLoop bytes after := by
        intro bytes
        simp [afterLoop, chunked, inside]
      simp only [begun]
      rw [← cons_append, trailerLoop_append]
      cases trails : trailerLoop (c :: rest) after with
      | more last =>
        have still := (trailerLoop_more trails).2.1
        simp [goOn, still, inside]
      | file last => rfl
      | bad => rfl
      | undefined => rfl
    | file after => rfl
    | bad => rfl
    | undefined => rfl

def setAlloc (alloc : Int) (h : Httpread) : Httpread := { h with bodyAllocNbytes := alloc }

end Httpread

def Turn.setAlloc (alloc : Int) : Turn → Turn
  | .go h => .go (h.setAlloc alloc)
  | .trailer h => .trailer (h.setAlloc alloc)
  | .file h => .file (h.setAlloc alloc)
  | .bad => .bad
  | .undefined => .undefined

def Outcome.setAlloc (alloc : Int) : Outcome → Outcome
  | .more h => .more (h.setAlloc alloc)
  | .file h => .file (h.setAlloc alloc)
  | .bad => .bad
  | .undefined => .undefined

namespace Httpread

variable (alloc : Int)

theorem endChunkHdr_setAlloc (h : Httpread) :
    endChunkHdr (h.setAlloc alloc) = (endChunkHdr h).setAlloc alloc := by
  simp only [endChunkHdr, apply_ite (Turn.setAlloc alloc)]
  rfl

theorem endChunkData_setAlloc (h : Httpread) :
    endChunkData (h.setAlloc alloc) = (endChunkData h).setAlloc alloc := by
  unfold endChunkData
  rw [show (h.setAlloc alloc).body = h.body from rfl]
  rcases h.body.reverse with _ | ⟨last, _ | ⟨c, rest⟩⟩
  all_goals
    simp only [apply_ite (Turn.setAlloc alloc)]
    rfl

theorem seeIfStop_setAlloc (h : Httpread) :
    seeIfStop (h.setAlloc alloc) = (seeIfStop h).setAlloc alloc := by
  unfold seeIfStop
  rw [endChunkHdr_setAlloc, endChunkData_setAlloc]
  simp only [apply_ite (Turn.setAlloc alloc)]
  rfl

theorem seeIfCopy_setAlloc (h : Httpread) :
    seeIfCopy (h.setAlloc alloc) = (seeIfCopy h).setAlloc alloc := by
  unfold seeIfCopy
  rw [seeIfStop_setAlloc]
  cases seeIfStop h with
  | go after =>
    show (if _ then _ else _) = Turn.setAlloc alloc (if _ then _ else _)
    rw [seeIfStop_setAlloc]
    simp only [apply_ite (Turn.setAlloc alloc)]
    rfl
  | trailer after => rfl
  | file after => rfl
  | bad => rfl
  | undefined => rfl

theorem trailerLoop_setAlloc (bytes : Bytes) (h : Httpread) :
    trailerLoop bytes (h.setAlloc alloc) = (trailerLoop bytes h).setAlloc alloc := by
  induction bytes generalizing h with
  | nil => rfl
  | cons c rest ih =>
    have later : ∀ state, trailerLoop rest { h.setAlloc alloc with trailerState := state } =
        (trailerLoop rest { h with trailerState := state }).setAlloc alloc := by
      intro state
      exact ih { h with trailerState := state }
    rw [trailerLoop, trailerLoop, show (h.setAlloc alloc).trailerState = h.trailerState from rfl]
    cases h.trailerState with
    | lineBegin => exact later _
    | emptyCr =>
      simp only
      rw [later, apply_ite (Outcome.setAlloc alloc)]
      rfl
    | nonempty => exact later _
    | nonemptyCr => exact later _

theorem afterLoop_setAlloc (bytes : Bytes) (h : Httpread) :
    afterLoop bytes (h.setAlloc alloc) = (afterLoop bytes h).setAlloc alloc := by
  unfold afterLoop
  rw [trailerLoop_setAlloc]
  simp only [apply_ite (Outcome.setAlloc alloc)]
  rfl

theorem bodyLoop_setAlloc (bytes : Bytes) (h : Httpread) :
    bodyLoop bytes (h.setAlloc alloc) = (bodyLoop bytes h).setAlloc alloc := by
  induction bytes generalizing h with
  | nil =>
    rw [bodyLoop, bodyLoop, seeIfStop_setAlloc]
    cases seeIfStop h with
    | go after => exact afterLoop_setAlloc alloc [] after
    | trailer after => exact afterLoop_setAlloc alloc [] after
    | file after => rfl
    | bad => rfl
    | undefined => rfl
  | cons c rest ih =>
    rw [bodyLoop, bodyLoop, seeIfCopy_setAlloc]
    cases seeIfCopy h with
    | go after => exact ih (after.push c)
    | trailer after => exact afterLoop_setAlloc alloc (c :: rest) after
    | file after => rfl
    | bad => rfl
    | undefined => rfl

variable {h after : Httpread}

theorem afterLoop_more {bytes : Bytes} (more : afterLoop bytes h = .more after) :
    Alike h after ∧ after.inTrailer = h.inTrailer ∧ after.gotBody = h.gotBody ∧
      after.body = h.body := by
  unfold afterLoop at more
  split at more
  · exact trailerLoop_more more
  · cases more
    exact ⟨Alike.refl _, rfl, rfl, rfl⟩

theorem Alike.push {c : UInt8} (alike : Alike (h.push c) after) : Alike h after :=
  ⟨alike.maxBytes, alike.gotHdr, alike.hdr, alike.gotContentLength, alike.contentLength,
    alike.chunked, alike.bodyAllocNbytes⟩

theorem bodyLoop_more {bytes : Bytes} (more : bodyLoop bytes h = .more after) :
    Alike h after ∧ after.gotBody = h.gotBody ∧
      after.body.length ≤ h.body.length + bytes.length := by
  induction bytes generalizing h with
  | nil =>
    rw [bodyLoop] at more
    cases tests : seeIfStop h with
    | go middle =>
      rw [tests] at more
      have here := seeIfStop_go tests
      have later := afterLoop_more more
      refine ⟨here.1.trans later.1, later.2.2.1.trans here.2.2.1, ?_⟩
      rw [later.2.2.2]
      exact here.2.2.2.1
    | trailer middle =>
      rw [tests] at more
      have here := seeIfStop_trailer tests
      have later := afterLoop_more more
      refine ⟨here.1.trans later.1, later.2.2.1.trans here.2.2.2.1, ?_⟩
      rw [later.2.2.2]
      exact here.2.2.2.2
    | file middle => simp [tests] at more
    | bad => simp [tests] at more
    | undefined => simp [tests] at more
  | cons c rest ih =>
    rw [bodyLoop] at more
    cases tests : seeIfCopy h with
    | go middle =>
      rw [tests] at more
      have here := seeIfCopy_go tests
      have later := ih more
      refine ⟨here.1.trans later.1.push, later.2.1.trans here.2.2.1, ?_⟩
      have bound := later.2.2
      simp only [Httpread.push, length_append, length_singleton] at bound
      simp only [length_cons]
      have shrinks := here.2.2.2
      omega
    | trailer middle =>
      rw [tests] at more
      have here := seeIfStop_trailer (seeIfCopy_trailer tests)
      have later := afterLoop_more more
      refine ⟨here.1.trans later.1, later.2.2.1.trans here.2.2.2.1, ?_⟩
      rw [later.2.2.2]
      exact Nat.le_trans here.2.2.2.2 (Nat.le_add_right _ _)
    | file middle => simp [tests] at more
    | bad => simp [tests] at more
    | undefined => simp [tests] at more

end Httpread

end AthApps.Http
