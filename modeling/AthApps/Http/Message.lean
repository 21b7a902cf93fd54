import AthApps.Http.Loop

/-!
# Bodies and how they are carried

A body of known length comes as it is, and so does one that lasts to the end
of the file.  Otherwise it comes in chunks: a line with the size in
hexadecimal, the data and an empty line for each, a line with the size 0, the
lines of a trailer and an empty line.  One read of all of it gives the body.
-/

set_option autoImplicit false

namespace AthApps.Http

open AthApps.Lib List

def hexValue (digits : Bytes) : Nat := numeralValue 16 0 (digits.map digitValue)

structure Chunk where
  digits : Bytes
  data : Bytes
  hex : ∀ c ∈ digits, isXdigit c = true
  nonempty : data ≠ []
  size : hexValue digits = data.length

structure LastChunk where
  digits : Bytes
  hex : ∀ c ∈ digits, isXdigit c = true
  nonempty : digits ≠ []
  size : hexValue digits = 0

structure TrailerLine where
  text : Bytes
  nonempty : text ≠ []
  plain : ∀ c ∈ text, c ≠ 13

open Httpread

def Chunk.encode (chunk : Chunk) : Bytes := chunk.digits ++ crlf ++ chunk.data ++ crlf

def TrailerLine.encode (line : TrailerLine) : Bytes := line.text ++ crlf

/-- A body as it is sent. -/
inductive Transfer where
  | contentLength (data : Bytes)
  | chunked (chunks : List Chunk) (last : LastChunk) (trailer : List TrailerLine)
  | untilEof (data : Bytes)

namespace Transfer

def body : Transfer → Bytes
  | .contentLength data => data
  | .chunked chunks _ _ => chunks.flatMap Chunk.data
  | .untilEof data => data

def encode : Transfer → Bytes
  | .contentLength data => data
  | .chunked chunks last trailer =>
    chunks.flatMap Chunk.encode ++ (last.digits ++ crlf) ++
      (trailer.flatMap TrailerLine.encode ++ crlf)
  | .untilEof data => data

end Transfer

namespace Httpread

variable {h : Httpread} {digits : Bytes}

theorem trailerLoop_text {text : Bytes} (plain : ∀ c ∈ text, c ≠ 13) (rest : Bytes)
    (state : h.trailerState = .nonempty) :
    trailerLoop (text ++ crlf ++ rest) h = trailerLoop rest { h with trailerState := .lineBegin } := by
  induction text generalizing h with
  | nil => simp [crlf, trailerLoop, state]
  | cons c others ih =>
    have here : c ≠ 13 := plain c mem_cons_self
    rw [cons_append, cons_append, trailerLoop, state]
    simp only [if_neg here]
    rw [ih (fun other member => plain other (mem_cons_of_mem c member)) rfl]

theorem trailerLoop_line (line : TrailerLine) (rest : Bytes) (state : h.trailerState = .lineBegin) :
    trailerLoop (line.encode ++ rest) h = trailerLoop rest h := by
  obtain ⟨text, nonempty, plain⟩ := line
  cases text with
  | nil => exact absurd rfl nonempty
  | cons c others =>
    have here : c ≠ 13 := plain c mem_cons_self
    have later : ∀ other ∈ others, other ≠ 13 := by
      intro other member
      exact plain other (mem_cons_of_mem c member)
    show trailerLoop (c :: others ++ crlf ++ rest) h = trailerLoop rest h
    rw [cons_append, cons_append, trailerLoop, state]
    simp only [if_neg here]
    rw [trailerLoop_text later rest rfl, ← state]

theorem trailerLoop_trailer (trailer : List TrailerLine) {h : Httpread}
    (state : h.trailerState = .lineBegin) :
    trailerLoop (trailer.flatMap TrailerLine.encode ++ crlf) h =
      .file { h with inTrailer := false, gotBody := true } := by
  induction trailer with
  | nil => simp [crlf, trailerLoop, state]
  | cons line others ih =>
    rw [flatMap_cons, append_assoc, trailerLoop_line line _ state]
    exact ih

theorem bodyLoop_memcpy (front : Bytes) {rest : Bytes} {h : Httpread}
    (chunked : h.chunked = true) (inData : h.inChunkData = true)
    (small : h.chunkStart + h.chunkSize + 2 ≤ intMax) (fits : front.length ≤ h.ncopy) :
    bodyLoop (front ++ rest) h = bodyLoop rest { h with body := h.body ++ front } := by
  induction front generalizing h with
  | nil => simp
  | cons c others ih =>
    have missing : 0 < h.ncopy := by
      simp only [length_cons] at fits
      omega
    have stays : seeIfStop h = .go h := by
      have size : ¬ h.chunkSize + 2 > intMax := by omega
      have unfinished : ¬ (h.body.length : Int) - h.chunkStart = h.chunkSize + 2 := by
        rw [ncopy] at missing
        omega
      simp [seeIfStop, chunked, inData, endChunkData, size, unfinished]
    have copies : seeIfCopy h = .go h := by
      have some : ¬ h.ncopy = 0 := by omega
      have bounded : ¬ (h.chunkStart + h.chunkSize + 2 > intMax ∨ h.ncopy < 0) := by omega
      rw [seeIfCopy, stays]
      simp only [chunked, inData, and_self, if_true, if_neg some, if_neg bounded]
    rw [cons_append, bodyLoop, copies]
    have later := @ih (h.push c) chunked inData small (by
      simp only [length_cons, ncopy] at fits
      simp only [ncopy, Httpread.push, length_append, length_singleton]
      omega)
    show bodyLoop (others ++ rest) (h.push c) = _
    rw [later]
    simp [Httpread.push]

theorem bodyLoop_plain (front : Bytes) {rest : Bytes} {h : Httpread} (plain : h.chunked = false)
    (fits : h.gotContentLength = true → (h.body.length : Int) + front.length ≤ h.contentLength) :
    bodyLoop (front ++ rest) h = bodyLoop rest { h with body := h.body ++ front } := by
  induction front generalizing h with
  | nil => simp
  | cons c others ih =>
    have unfinished : ¬ (h.gotContentLength = true ∧ (h.body.length : Int) ≥ h.contentLength) := by
      rintro ⟨known, enough⟩
      have bound := fits known
      simp only [length_cons] at bound
      omega
    have copies : seeIfCopy h = .go h := by simp [seeIfCopy, seeIfStop, plain, unfinished]
    rw [cons_append, bodyLoop, copies]
    have later := @ih (h.push c) plain (by
      intro known
      have bound := fits known
      simp only [length_cons] at bound
      simp only [Httpread.push, length_append, length_singleton]
      omega)
    show bodyLoop (others ++ rest) (h.push c) = _
    rw [later]
    simp [Httpread.push]

theorem bodyLoop_line (line : Bytes) {front rest : Bytes} {h : Httpread}
    (chunked : h.chunked = true) (inHdr : h.inChunkData = false)
    (here : h.body.drop h.chunkStart = front) (place : h.chunkStart ≤ h.body.length)
    (unfinished : ∀ early, early <+: line → early ≠ line → ¬ crlf <:+ front ++ early) :
    bodyLoop (line ++ rest) h = bodyLoop rest { h with body := h.body ++ line } := by
  induction line generalizing h front with
  | nil => simp
  | cons c others ih =>
    have open' : ¬ crlf <:+ front := by simpa using unfinished [] ( nil_prefix) (by simp)
    have stays : seeIfStop h = .go h := by
      have test : crlf.isSuffixOf front = false := by
        rw [← Bool.not_eq_true, isSuffixOf_iff_suffix]
        exact open'
      simp [seeIfStop, chunked, inHdr, endChunkHdr, here, test]
    rw [cons_append, bodyLoop, seeIfCopy_of_hdr inHdr stays]
    have later := @ih (front ++ [c]) (h.push c) chunked inHdr (by
        show (h.body ++ [c]).drop h.chunkStart = front ++ [c]
        rw [drop_append_of_le_length place, here]) (by
        show h.chunkStart ≤ (h.body ++ [c]).length
        rw [length_append]
        omega) (by
        intro early starts differs
        have extended := unfinished (c :: early) (by simpa using starts) (by simpa using differs)
        simpa using extended)
    show bodyLoop (others ++ rest) (h.push c) = _
    rw [later]
    simp [Httpread.push]

theorem isXdigit_ne {c : UInt8} (hex : isXdigit c = true) : c ≠ 10 ∧ c ≠ 13 ∧ c ≠ 88 ∧ c ≠ 120 := by
  refine ⟨?_, ?_, ?_, ?_⟩
  all_goals
    rintro rfl
    exact absurd hex (by decide)

theorem digits_unfinished (hex : ∀ c ∈ digits, isXdigit c = true)
    {early : Bytes} (starts : early <+: digits ++ crlf) (differs : early ≠ digits ++ crlf) :
    ¬ crlf <:+ early := by
  intro ends
  have lineFeed : (10 : UInt8) ∈ early := ends.subset (by decide)
  have inside : early <+: digits ++ [13] := by
    have whole : digits ++ crlf = (digits ++ [13]) ++ [10] := by simp [crlf]
    rw [whole] at starts differs
    exact (prefix_concat_iff.mp starts).resolve_left differs
  rcases mem_append.mp (inside.subset lineFeed) with member | member
  · exact (isXdigit_ne (hex 10 member)).1 rfl
  · exact absurd (mem_singleton.mp member) (by decide)

theorem takeWhile_digits (hex : ∀ c ∈ digits, isXdigit c = true) :
    (digits ++ crlf).takeWhile isXdigit = digits := by
  rw [takeWhile_append_of_pos hex]
  simp [crlf, show isXdigit 13 = false from by decide]

theorem skipHexPrefix_digits (hex : ∀ c ∈ digits, isXdigit c = true) :
    skipHexPrefix (digits ++ crlf) = digits ++ crlf := by
  unfold skipHexPrefix
  split
  next c0 c1 rest front =>
    have second : c1 ∈ (digits ++ crlf) := by simp [front]
    have other : c1 ≠ 88 ∧ c1 ≠ 120 := by
      rcases mem_append.mp second with member | member
      · exact (isXdigit_ne (hex c1 member)).2.2
      · simp only [crlf, mem_cons, not_mem_nil, or_false] at member
        rcases member with rfl | rfl <;> decide
    rw [if_neg (by simp [other.1, other.2])]
    exact front.symm
  next => rfl

theorem strtoul_digits (hex : ∀ c ∈ digits, isXdigit c = true)
    (small : hexValue digits < 2 ^ 31) : strtoul (digits ++ crlf) = hexValue digits := by
  have value : min (numeralValue 16 0 (digits.map digitValue)) (2 ^ 32 - 1) = hexValue digits := by
    rw [hexValue] at small ⊢
    omega
  unfold strtoul
  rw [skipHexPrefix_digits hex, takeWhile_digits hex]
  dsimp only
  rw [value, if_pos small]

structure Between (h : Httpread) : Prop where
  chunked : h.chunked = true
  inHdr : h.inChunkData = false
  place : h.chunkStart = h.body.length

theorem endChunkHdr_line (between : Between h)
    (hex : ∀ c ∈ digits, isXdigit c = true) (nonempty : digits ≠ [])
    (small : hexValue digits < 2 ^ 31) :
    seeIfStop { h with body := h.body ++ (digits ++ crlf) } =
      if hexValue digits = 0 then .trailer { h with chunkSize := 0, inTrailer := true }
      else .go { h with chunkSize := hexValue digits, inChunkData := true } := by
  have line : (h.body ++ (digits ++ crlf)).drop h.chunkStart = digits ++ crlf := by
    rw [between.place, drop_left]
  have cut : (h.body ++ (digits ++ crlf)).take h.chunkStart = h.body := by
    rw [between.place, take_left]
  have ends : crlf.isSuffixOf (digits ++ crlf) = true :=
    isSuffixOf_iff_suffix.mpr (suffix_append digits crlf)
  have first : isXdigit ((digits ++ crlf).headD 0) = true := by
    cases digits with
    | nil => exact absurd rfl nonempty
    | cons c rest => exact hex c mem_cons_self
  simp only [seeIfStop, between.chunked, between.inHdr, and_self, if_true, endChunkHdr, line, ends,
    first, Bool.not_true, Bool.false_eq_true, if_false, strtoul_digits hex small, cut]
  by_cases zero : hexValue digits = 0
  · simp [zero]
  · simp [zero]

theorem chunk_digits_ne_nil (chunk : Chunk) : chunk.digits ≠ [] := by
  intro empty
  have size := chunk.size
  rw [empty] at size
  exact chunk.nonempty (length_eq_zero_iff.mp size.symm)

variable {rest : Bytes}

theorem bodyLoop_size (between : Between h) {digits : Bytes}
    (hex : ∀ c ∈ digits, isXdigit c = true) :
    bodyLoop ((digits ++ crlf) ++ rest) h =
      bodyLoop rest { h with body := h.body ++ (digits ++ crlf) } := by
  apply @bodyLoop_line (digits ++ crlf) [] rest h between.chunked between.inHdr
  · rw [between.place, drop_length]
  · exact Nat.le_of_eq between.place
  · intro early starts differs
    exact digits_unfinished hex starts differs

theorem bodyLoop_chunk (between : Between h) (chunk : Chunk) (more : rest ≠ [])
    (small : h.body.length + chunk.data.length + 2 ≤ intMax) :
    bodyLoop (chunk.encode ++ rest) h =
      bodyLoop rest { h with
        body := h.body ++ chunk.data
        chunkStart := (h.body ++ chunk.data).length
        inChunkData := false
        chunkSize := 0 } := by
  have positive : 0 < chunk.data.length := length_pos_iff.mpr chunk.nonempty
  have value : hexValue chunk.digits < 2 ^ 31 := by
    rw [chunk.size]
    rw [intMax] at small
    omega
  have shape : chunk.encode ++ rest = (chunk.digits ++ crlf) ++ ((chunk.data ++ crlf) ++ rest) := by
    simp [Chunk.encode]
  have announced : seeIfStop { h with body := h.body ++ (chunk.digits ++ crlf) } =
      .go { h with chunkSize := chunk.data.length, inChunkData := true } := by
    rw [endChunkHdr_line between chunk.hex (chunk_digits_ne_nil chunk) value, chunk.size,
      if_neg (by omega)]
  have dataShape : (chunk.data ++ crlf) ++ rest ≠ [] := by simp [more]
  rw [shape, bodyLoop_size between chunk.hex, bodyLoop_of_go announced dataShape]
  have copied := @bodyLoop_memcpy (chunk.data ++ crlf) rest
    { h with chunkSize := chunk.data.length, inChunkData := true } between.chunked rfl
    (by
      show (h.chunkStart : Int) + chunk.data.length + 2 ≤ intMax
      rw [between.place]
      exact small)
    (by
      show ((chunk.data ++ crlf).length : Int) ≤ h.chunkStart + chunk.data.length + 2 - h.body.length
      rw [between.place, length_append, show crlf.length = 2 from rfl]
      omega)
  rw [copied]
  apply bodyLoop_of_go _ more
  have length : (h.body ++ (chunk.data ++ crlf)).length = h.body.length + chunk.data.length + 2 := by
    simp [crlf, Nat.add_assoc]
  have back : (h.body ++ (chunk.data ++ crlf)).reverse =
      10 :: 13 :: (h.body ++ chunk.data).reverse := by
    simp [crlf]
  have front : (h.body ++ (chunk.data ++ crlf)).take (h.body.length + chunk.data.length) =
      h.body ++ chunk.data := by
    rw [← append_assoc, ← length_append, take_left]
  have bound : ¬ (chunk.data.length : Int) + 2 > intMax := by omega
  simp only [seeIfStop, between.chunked, endChunkData, between.place, length, back, bound]
  simp [front]
  omega

theorem bodyLoop_chunks (between : Between h) (chunks : List Chunk) (more : rest ≠ [])
    (small : (h.body.length : Int) + (chunks.flatMap Chunk.data).length + 2 ≤ intMax) :
    ∃ after, bodyLoop (chunks.flatMap Chunk.encode ++ rest) h = bodyLoop rest after ∧
      Between after ∧ after.body = h.body ++ chunks.flatMap Chunk.data ∧
      after.inTrailer = h.inTrailer ∧ after.trailerState = h.trailerState := by
  induction chunks generalizing h with
  | nil => exact ⟨h, rfl, between, by simp, rfl, rfl⟩
  | cons chunk others ih =>
    simp only [flatMap_cons, length_append] at small
    obtain ⟨after, loop, still, body, trailer, state⟩ := @ih
      { h with
        body := h.body ++ chunk.data
        chunkStart := (h.body ++ chunk.data).length
        inChunkData := false
        chunkSize := 0 } ⟨between.chunked, rfl, rfl⟩ (by
          simp only [length_append]
          omega)
    refine ⟨after, ?_, still, ?_, trailer, state⟩
    · rw [flatMap_cons, append_assoc,
        bodyLoop_chunk between chunk (by simp [more]) (by omega), loop]
    · rw [body, flatMap_cons]
      simp

theorem bodyLoop_chunked (between : Between h) (chunks : List Chunk)
    (last : LastChunk) (trailer : List TrailerLine) (state : h.trailerState = .lineBegin)
    (small : (h.body.length : Int) + (chunks.flatMap Chunk.data).length + 2 ≤ intMax) :
    ∃ after, bodyLoop (Transfer.chunked chunks last trailer).encode h = .file after ∧
      after.body = h.body ++ chunks.flatMap Chunk.data := by
  have nonempty : (last.digits ++ crlf) ++ (trailer.flatMap TrailerLine.encode ++ crlf) ≠ [] := by
    simp [crlf]
  obtain ⟨after, loop, still, body, -, begun⟩ := bodyLoop_chunks between chunks nonempty small
  have stops : seeIfStop { after with body := after.body ++ (last.digits ++ crlf) } =
      .trailer { after with chunkSize := 0, inTrailer := true } := by
    rw [endChunkHdr_line still last.hex last.nonempty (by rw [last.size]; decide), if_pos last.size]
  have trail := @trailerLoop_trailer trailer { after with chunkSize := 0, inTrailer := true }
    (begun.trans state)
  refine ⟨{ after with chunkSize := 0, inTrailer := false, gotBody := true }, ?_, body⟩
  rw [Transfer.encode, append_assoc, loop, bodyLoop_size still last.hex]
  cases rest : trailer.flatMap TrailerLine.encode ++ crlf with
  | nil => simp [crlf] at rest
  | cons c others =>
    rw [rest] at trail
    rw [bodyLoop, seeIfCopy, stops]
    dsimp only
    rw [afterLoop, if_pos ⟨still.chunked, rfl⟩]
    exact trail

theorem bodyLoop_contentLength {h : Httpread} (plain : h.chunked = false)
    (known : h.gotContentLength = true) {data : Bytes}
    (length : (h.body.length : Int) + data.length = h.contentLength) :
    bodyLoop data h = .file { h with body := h.body ++ data, gotBody := true } := by
  have copied := @bodyLoop_plain data [] h plain (fun _ => Int.le_of_eq length)
  rw [append_nil] at copied
  have stops : seeIfStop { h with body := h.body ++ data } =
      .file { h with body := h.body ++ data, gotBody := true } := by
    have enough : ((h.body ++ data).length : Int) ≥ h.contentLength := by
      rw [length_append]
      omega
    simp only [seeIfStop, plain, known, enough]
    simp
  rw [copied, bodyLoop, stops]

theorem bodyLoop_part (plain : h.chunked = false) {data : Bytes}
    (part : h.gotContentLength = true → (h.body.length : Int) + data.length < h.contentLength) :
    bodyLoop data h = .more { h with body := h.body ++ data } := by
  have copied := @bodyLoop_plain data [] h plain (fun known => Int.le_of_lt (part known))
  rw [append_nil] at copied
  have goes : seeIfStop { h with body := h.body ++ data } =
      .go { h with body := h.body ++ data } := by
    have short : ¬ (h.gotContentLength = true ∧
        ((h.body ++ data).length : Int) ≥ h.contentLength) := by
      rintro ⟨known, enough⟩
      have bound := part known
      rw [length_append] at enough
      omega
    simp only [seeIfStop, plain]
    rw [if_neg (by simp), if_neg (by simp), if_neg short]
  rw [copied, bodyLoop, goes]
  exact afterLoop_nil _

end Httpread

end AthApps.Http
