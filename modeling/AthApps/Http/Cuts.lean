import Mathlib.Data.List.Infix
import AthApps.Http.Message

/-!
# A message in any cuts

However a message is cut into reads, the handler announces the file once, with
the body that the message carries, or with an empty one where no body is to be
read.  For a body in chunks this holds as long as no read begins inside the
trailer, and none finds `max_bytes` bytes or more in a buffer that has to grow.
-/

set_option autoImplicit false

namespace AthApps.Http

open AthApps.Lib Httpread List Option

structure Httpread.InBody (h : Httpread) : Prop where
  gotHdr : h.gotHdr = true
  withBody : h.isBodyless = false
  unfinished : h.gotBody = false

/-- The read does not begin inside the trailer, and the buffer holds it or may grow. -/
def Accepts : Reader → Read → Prop
  | .reading h, .got bytes => h.gotHdr = true → h.inTrailer = false ∧
      ((h.body.length : Int) + bytes.length < h.bodyAllocNbytes ∨ h.body.length < h.maxBytes)
  | _, _ => True

instance : (reader : Reader) → (read : Read) → Decidable (Accepts reader read)
  | .reading _, .got _ => inferInstanceAs (Decidable (_ → _))
  | .reading _, .failed => inferInstanceAs (Decidable True)
  | .ready _, _ => inferInstanceAs (Decidable True)
  | .error, _ => inferInstanceAs (Decidable True)
  | .undefined, _ => inferInstanceAs (Decidable True)

def HasRoom : Reader → Read → Prop
  | .reading h, .got bytes => h.gotHdr = true → h.inTrailer = false ∧
      ∃ alloc, h.grow bytes.length = .go (h.setAlloc alloc)
  | _, _ => True

namespace Httpread

theorem setAlloc_self (h : Httpread) : h.setAlloc h.bodyAllocNbytes = h := rfl

theorem grow_of_room {h : Httpread} {nread : Nat}
    (room : (h.body.length : Int) + nread < h.bodyAllocNbytes)
    (small : (h.body.length : Int) + nread + 1 ≤ intMax) : h.grow nread = .go h := by
  rw [grow, if_neg (by omega), if_neg (by omega)]

theorem grow_of_limit {h : Httpread} {nread : Nat} (limit : h.body.length < h.maxBytes)
    (small : (h.body.length : Int) + nread + httpreadBodybufDelta ≤ intMax)
    (unknown : h.gotContentLength = false) :
    ∃ alloc, h.grow nread = .go (h.setAlloc alloc) := by
  rw [httpreadBodybufDelta] at small
  by_cases room : h.bodyAllocNbytes < h.body.length + nread + 1
  · refine ⟨h.bodyAllocNbytes + httpreadBodybufDelta, ?_⟩
    have none : ¬ (h.gotContentLength = true ∧
        h.bodyAllocNbytes + httpreadBodybufDelta < h.contentLength + 1) := by
      simp [unknown]
    rw [grow, if_neg (by omega), if_pos room, if_neg (by omega)]
    dsimp only
    rw [if_neg none, if_neg (by rw [httpreadBodybufDelta]; omega)]
    rfl
  · exact ⟨h.bodyAllocNbytes, by rw [grow_of_room (by omega) (by omega), setAlloc_self]⟩

end Httpread

theorem run_of_stopped {reader : Reader} (stopped : ∀ h, reader ≠ .reading h) (reads : List Read) :
    run Reader.next reader reads = reader := by
  induction reads with
  | nil => rfl
  | cons read rest ih =>
    have stays : reader.next read = reader := by
      cases reader with
      | reading h => exact absurd rfl (stopped h)
      | ready h => rfl
      | error => rfl
      | undefined => rfl
    rw [run_cons, stays, ih]

theorem next_inBody {h : Httpread} (inBody : h.InBody) {bytes : Bytes} (some : bytes ≠ [])
    {alloc : Int} (grows : h.grow bytes.length = .go (h.setAlloc alloc)) :
    Reader.next (.reading h) (.got bytes) = ((bodyLoop bytes h).setAlloc alloc).reader := by
  show (httpreadReadHandler h (.got bytes)).reader = _
  rw [httpreadReadHandler, if_neg some, if_pos inBody.gotHdr, readBody,
    if_neg (by simp [inBody.withBody]), if_neg some, if_neg (by simp [inBody.unfinished]), grows]
  dsimp only
  rw [bodyLoop_setAlloc]

theorem Httpread.InBody.alike {h after : Httpread} (inBody : h.InBody) (alike : Alike h after)
    (same : after.gotBody = h.gotBody) : after.InBody where
  gotHdr := alike.gotHdr.trans inBody.gotHdr
  withBody := by
    rw [isBodyless, alike.hdr]
    exact inBody.withBody
  unfinished := same.trans inBody.unfinished

theorem Httpread.InBody.setAlloc {h : Httpread} (inBody : h.InBody) (alloc : Int) :
    (h.setAlloc alloc).InBody :=
  ⟨inBody.gotHdr, inBody.withBody, inBody.unfinished⟩

theorem Outcome.setAlloc_setAlloc (first second : Int) (outcome : Outcome) :
    (outcome.setAlloc first).setAlloc second = outcome.setAlloc second := by
  cases outcome <;> rfl

theorem flatten_ne_nil {reads : List Bytes} (some : reads ≠ [])
    (nonempty : ∀ bytes ∈ reads, bytes ≠ []) : reads.flatten ≠ [] := by
  cases reads with
  | nil => exact absurd rfl some
  | cons bytes rest =>
    intro empty
    rw [flatten_cons, append_eq_nil_iff] at empty
    exact nonempty bytes mem_cons_self empty.1

theorem run_inBody {reads : List Bytes} (some : reads ≠ [])
    (nonempty : ∀ bytes ∈ reads, bytes ≠ []) {h : Httpread} (inBody : h.InBody)
    (room : Along Reader.next HasRoom (.reading h) (reads.map .got)) :
    ∃ alloc, run Reader.next (.reading h) (reads.map .got) =
      ((bodyLoop reads.flatten h).setAlloc alloc).reader := by
  induction reads generalizing h with
  | nil => exact absurd rfl some
  | cons bytes rest ih =>
    have here := nonempty bytes mem_cons_self
    have later : ∀ other ∈ rest, other ≠ [] := by
      intro other member
      exact nonempty other (mem_cons_of_mem bytes member)
    obtain ⟨accepted, more⟩ := room
    obtain ⟨outside, alloc, grows⟩ := accepted inBody.gotHdr
    rw [map_cons, run_cons, next_inBody inBody here grows, flatten_cons]
    rw [next_inBody inBody here grows] at more
    by_cases last : rest = []
    · subst last
      exact ⟨alloc, by simp⟩
    · rw [bodyLoop_append bytes (flatten_ne_nil last later) outside]
      cases loop : bodyLoop bytes h with
      | more after =>
        rw [loop] at more
        have kept := bodyLoop_more loop
        have still := (inBody.alike kept.1 kept.2.1).setAlloc alloc
        obtain ⟨size, whole⟩ := ih last later still more
        refine ⟨size, ?_⟩
        have before : after.inTrailer = false := by
          cases rest with
          | nil => exact absurd rfl last
          | cons next others => exact (more.1 still.gotHdr).1
        show run Reader.next (.reading (after.setAlloc alloc)) (rest.map .got) = _
        rw [whole, bodyLoop_setAlloc, Outcome.setAlloc_setAlloc]
        simp [goOn, before]
      | file after => exact ⟨alloc, run_of_stopped (by rintro _ ⟨⟩) _⟩
      | bad => exact ⟨alloc, run_of_stopped (by rintro _ ⟨⟩) _⟩
      | undefined => exact ⟨alloc, run_of_stopped (by rintro _ ⟨⟩) _⟩

/-- A body until the end of the file always finds room, if it is not too long. -/
theorem hasRoom_untilEof {reads : List Bytes} (nonempty : ∀ bytes ∈ reads, bytes ≠ [])
    {h : Httpread} (inBody : h.InBody) (plain : h.chunked = false)
    (unknown : h.gotContentLength = false) (outside : h.inTrailer = false)
    (limit : (h.body.length : Int) + reads.flatten.length ≤ h.maxBytes)
    (small : (h.body.length : Int) + reads.flatten.length + httpreadBodybufDelta ≤ intMax) :
    Along Reader.next HasRoom (.reading h) (reads.map .got) := by
  induction reads generalizing h with
  | nil => exact True.intro
  | cons bytes rest ih =>
    have here := nonempty bytes mem_cons_self
    have positive : 0 < bytes.length := length_pos_iff.mpr here
    simp only [flatten_cons, length_append] at limit small
    obtain ⟨alloc, grows⟩ := @grow_of_limit h bytes.length (by omega) (by omega) unknown
    refine ⟨fun _ => ⟨outside, alloc, grows⟩, ?_⟩
    rw [next_inBody inBody here grows, bodyLoop_part plain (by simp [unknown])]
    show Along Reader.next HasRoom
      (.reading ({ h with body := h.body ++ bytes }.setAlloc alloc)) (rest.map .got)
    apply ih (fun other member => nonempty other (mem_cons_of_mem bytes member))
    · exact ⟨inBody.gotHdr, inBody.withBody, inBody.unfinished⟩
    · exact plain
    · exact unknown
    · exact outside
    · show ((h.body ++ bytes).length : Int) + _ ≤ h.maxBytes
      rw [length_append]
      omega
    · show ((h.body ++ bytes).length : Int) + _ + _ ≤ intMax
      rw [length_append]
      omega

/-- The first read makes the buffer large enough for a body of known length. -/
theorem grow_contentLength {h : Httpread} {nread : Nat} (known : h.gotContentLength = true)
    (fits : (h.body.length : Int) + nread ≤ h.contentLength) (small : h.contentLength < intMax)
    (limit : 0 < h.maxBytes)
    (begun : h.body = [] ∧ h.bodyAllocNbytes = 0 ∨ h.contentLength < h.bodyAllocNbytes) :
    ∃ alloc, h.grow nread = .go (h.setAlloc alloc) ∧ h.contentLength < alloc := by
  by_cases room : (h.body.length : Int) + nread < h.bodyAllocNbytes
  · rcases begun with ⟨empty, none⟩ | enough
    · omega
    · exact ⟨h.bodyAllocNbytes, by rw [grow_of_room room (by omega), setAlloc_self], enough⟩
  · rcases begun with ⟨empty, none⟩ | enough
    · rw [empty, length_nil] at fits
      have start : (h.body.length : Int) = 0 := by rw [empty]; rfl
      rw [grow, if_neg (by omega), if_pos (by omega), if_neg (by omega)]
      dsimp only
      rw [none]
      by_cases large : (0 : Int) + httpreadBodybufDelta < h.contentLength + 1
      · have whole : h.gotContentLength = true ∧
            (0 : Int) + httpreadBodybufDelta < h.contentLength + 1 := ⟨known, large⟩
        rw [if_pos whole, if_neg (by omega)]
        exact ⟨h.contentLength + 1, rfl, by omega⟩
      · have short : ¬ (h.gotContentLength = true ∧
            (0 : Int) + httpreadBodybufDelta < h.contentLength + 1) := fun both => large both.2
        rw [if_neg short, if_neg (by decide)]
        exact ⟨(0 : Int) + httpreadBodybufDelta, rfl, by omega⟩
    · omega

theorem hasRoom_contentLength {reads : List Bytes} (nonempty : ∀ bytes ∈ reads, bytes ≠ [])
    {h : Httpread} (inBody : h.InBody) (plain : h.chunked = false)
    (known : h.gotContentLength = true) (outside : h.inTrailer = false)
    (fits : (h.body.length : Int) + reads.flatten.length ≤ h.contentLength)
    (small : h.contentLength < intMax) (limit : 0 < h.maxBytes)
    (begun : h.body = [] ∧ h.bodyAllocNbytes = 0 ∨ h.contentLength < h.bodyAllocNbytes) :
    Along Reader.next HasRoom (.reading h) (reads.map .got) := by
  induction reads generalizing h with
  | nil => exact True.intro
  | cons bytes rest ih =>
    have here := nonempty bytes mem_cons_self
    have later : ∀ other ∈ rest, other ≠ [] := by
      intro other member
      exact nonempty other (mem_cons_of_mem bytes member)
    simp only [flatten_cons, length_append] at fits
    obtain ⟨alloc, grows, enough⟩ := @grow_contentLength h bytes.length known (by omega) small
      limit begun
    refine ⟨fun _ => ⟨outside, alloc, grows⟩, ?_⟩
    rw [next_inBody inBody here grows]
    by_cases last : (h.body.length : Int) + bytes.length = h.contentLength
    · rw [bodyLoop_contentLength plain known last]
      have done : rest = [] := by
        by_contra more
        have some := length_pos_iff.mpr (flatten_ne_nil more later)
        omega
      subst done
      exact True.intro
    · rw [bodyLoop_part plain (fun _ => by omega)]
      show Along Reader.next HasRoom
        (.reading ({ h with body := h.body ++ bytes }.setAlloc alloc)) (rest.map .got)
      apply ih later
      · exact ⟨inBody.gotHdr, inBody.withBody, inBody.unfinished⟩
      · exact plain
      · exact known
      · exact outside
      · show ((h.body ++ bytes).length : Int) + _ ≤ h.contentLength
        rw [length_append]
        omega
      · exact small
      · exact limit
      · exact Or.inr enough

/-- Without a known length the buffer grows whenever it may, if the message is not too long. -/
theorem hasRoom_of_accepts {reads : List Bytes} (nonempty : ∀ bytes ∈ reads, bytes ≠ [])
    {h : Httpread} (inBody : h.InBody) (unknown : h.gotContentLength = false)
    (small : (h.body.length : Int) + reads.flatten.length + httpreadBodybufDelta ≤ intMax)
    (accepts : Along Reader.next Accepts (.reading h) (reads.map .got)) :
    Along Reader.next HasRoom (.reading h) (reads.map .got) := by
  induction reads generalizing h with
  | nil => exact True.intro
  | cons bytes rest ih =>
    have here := nonempty bytes mem_cons_self
    simp only [flatten_cons, length_append] at small
    obtain ⟨accepted, more⟩ := accepts
    obtain ⟨outside, fits⟩ := accepted inBody.gotHdr
    have grown : ∃ alloc, h.grow bytes.length = .go (h.setAlloc alloc) := by
      rcases fits with room | limit
      · refine ⟨h.bodyAllocNbytes, ?_⟩
        rw [grow_of_room room (by rw [httpreadBodybufDelta] at small; omega), setAlloc_self]
      · exact grow_of_limit limit (by omega) unknown
    obtain ⟨alloc, grows⟩ := grown
    refine ⟨fun _ => ⟨outside, alloc, grows⟩, ?_⟩
    rw [next_inBody inBody here grows] at more ⊢
    have stopped : ∀ reader : Reader, (∀ h, reader ≠ .reading h) →
        Along Reader.next HasRoom reader (rest.map .got) := by
      intro reader stops
      have stays : ∀ read, reader.next read = reader := by
        intro read
        simpa using run_of_stopped stops [read]
      generalize rest.map Read.got = others
      induction others with
      | nil => exact True.intro
      | cons read others ih =>
        refine ⟨?_, by rw [stays]; exact ih⟩
        cases reader with
        | reading h => exact absurd rfl (stops h)
        | ready h => exact True.intro
        | error => exact True.intro
        | undefined => exact True.intro
    cases loop : bodyLoop bytes h with
    | more after =>
      rw [loop] at more
      have kept := bodyLoop_more loop
      apply @ih (fun other member => nonempty other (mem_cons_of_mem bytes member))
        (after.setAlloc alloc) ((inBody.alike kept.1 kept.2.1).setAlloc alloc)
        (kept.1.gotContentLength.trans unknown) _ more
      have grown := kept.2.2
      show (after.body.length : Int) + _ + _ ≤ intMax
      omega
    | file after => exact stopped _ (by rintro _ ⟨⟩)
    | bad => exact stopped _ (by rintro _ ⟨⟩)
    | undefined => exact stopped _ (by rintro _ ⟨⟩)

/-- A header: the first empty line is at its end, and it is not too long. -/
structure IsHeader (hdr : Bytes) : Prop where
  ends : crlf ++ crlf <:+ hdr
  first : ∀ early, early <+: hdr → early ≠ hdr → ¬ crlf ++ crlf <:+ early
  short : hdr.length ≤ httpreadHeaderMaxSize

instance (hdr : Bytes) : Decidable (IsHeader hdr) :=
  decidable_of_iff (crlf ++ crlf <:+ hdr ∧
      (∀ early ∈ hdr.inits, early ≠ hdr → ¬ crlf ++ crlf <:+ early) ∧
      hdr.length ≤ httpreadHeaderMaxSize)
    ⟨fun ⟨ends, first, short⟩ =>
        ⟨ends, fun early starts => first early ((mem_inits early hdr).mpr starts), short⟩,
      fun ⟨ends, first, short⟩ =>
        ⟨ends, fun early member => first early ((mem_inits early hdr).mp member), short⟩⟩

namespace Httpread

theorem collectHdr_cons {hdr : Bytes} (header : IsHeader hdr) {h : Httpread} {c : UInt8}
    (proper : h.hdr ++ [c] <+: hdr) (rest : Bytes) :
    collectHdr (c :: rest) h =
      if h.hdr ++ [c] = hdr then .complete { h with hdr := hdr, gotHdr := true } rest
      else collectHdr rest { h with hdr := h.hdr ++ [c] } := by
  have length := proper.length_le
  rw [length_append, length_singleton] at length
  have space : ¬ h.hdr.length = httpreadHeaderMaxSize := by
    have short := header.short
    omega
  rw [collectHdr, if_neg space]
  dsimp only
  by_cases whole : h.hdr ++ [c] = hdr
  · have test : (crlf ++ crlf).isSuffixOf (h.hdr ++ [c]) = true := by
      rw [whole, isSuffixOf_iff_suffix]
      exact header.ends
    rw [if_pos test, if_pos whole, whole]
  · have test : ¬ (crlf ++ crlf).isSuffixOf (h.hdr ++ [c]) = true := by
      rw [isSuffixOf_iff_suffix]
      exact header.first _ proper whole
    rw [if_neg test, if_neg whole]

theorem collectHdr_part {hdr : Bytes} (header : IsHeader hdr) {bytes rest : Bytes}
    {h : Httpread} (whole : h.hdr ++ bytes ++ rest = hdr) (more : rest ≠ []) :
    collectHdr bytes h = .more { h with hdr := h.hdr ++ bytes } := by
  induction bytes generalizing h with
  | nil => simp [collectHdr]
  | cons c others ih =>
    have proper : h.hdr ++ [c] <+: hdr := ⟨others ++ rest, by simpa using whole⟩
    have early : ¬ h.hdr ++ [c] = hdr := by
      intro same
      rw [← same] at whole
      simp [more] at whole
    rw [collectHdr_cons header proper, if_neg early]
    rw [@ih { h with hdr := h.hdr ++ [c] } (by simpa using whole)]
    simp

theorem collectHdr_whole {hdr : Bytes} (header : IsHeader hdr) {front : Bytes}
    {h : Httpread} (whole : h.hdr ++ front = hdr) (some : front ≠ []) (rest : Bytes) :
    collectHdr (front ++ rest) h = .complete { h with hdr := hdr, gotHdr := true } rest := by
  induction front generalizing h with
  | nil => exact absurd rfl some
  | cons c others ih =>
    have proper : h.hdr ++ [c] <+: hdr := ⟨others, by simpa using whole⟩
    rw [cons_append, collectHdr_cons header proper]
    by_cases last : others = []
    · subst last
      rw [if_pos whole]
      rfl
    · have early : ¬ h.hdr ++ [c] = hdr := by
        intro same
        rw [← same] at whole
        simp [last] at whole
      rw [if_neg early]
      exact @ih { h with hdr := h.hdr ++ [c] } (by simpa using whole) last

structure Fresh (h : Httpread) : Prop where
  gotBody : h.gotBody = false
  body : h.body = []
  bodyAllocNbytes : h.bodyAllocNbytes = 0
  inChunkData : h.inChunkData = false
  chunkStart : h.chunkStart = 0
  inTrailer : h.inTrailer = false
  trailerState : h.trailerState = .lineBegin

structure Analyzed (h after : Httpread) : Prop where
  gotHdr : after.gotHdr = h.gotHdr
  hdr : after.hdr = h.hdr
  fresh : Fresh h → Fresh after
  limit : after.maxBytes = h.maxBytes ∨ after.maxBytes = 0

theorem Analyzed.refl (h : Httpread) : Analyzed h h := ⟨rfl, rfl, id, Or.inl rfl⟩

theorem Analyzed.trans {first second third : Httpread} (early : Analyzed first second)
    (late : Analyzed second third) : Analyzed first third :=
  ⟨late.gotHdr.trans early.gotHdr, late.hdr.trans early.hdr, late.fresh ∘ early.fresh, by
    rcases late.limit with same | zero
    · rw [same]
      exact early.limit
    · exact Or.inr zero⟩

theorem optionAnalyze_analyzed {line : Bytes} {h after : Httpread}
    (done : optionAnalyze line h = some after) : Analyzed h after := by
  unfold optionAnalyze at done
  dsimp only at done
  split at done
  · split at done
    · cases done
      exact ⟨rfl, rfl, fun fresh => ⟨fresh.1, fresh.2, fresh.3, fresh.4, fresh.5, fresh.6, fresh.7⟩, Or.inl rfl⟩
    · cases done
  split at done
  · split at done
    · cases done
      exact ⟨rfl, rfl, fun fresh => ⟨fresh.1, fresh.2, fresh.3, rfl, fresh.5, fresh.6, fresh.7⟩, Or.inl rfl⟩
    · cases done
      exact Analyzed.refl _
  · cases done
    exact Analyzed.refl _

theorem optionLines_analyzed {fuel : Nat} {text : Bytes} {h after : Httpread}
    (done : optionLines fuel text h = some after) : Analyzed h after := by
  induction fuel generalizing text h with
  | zero => cases done
  | succ fuel ih =>
    rw [optionLines] at done
    split at done
    · cases done
      exact Analyzed.refl _
    split at done
    · cases done
    · obtain ⟨middle, option, later⟩ := bind_eq_some_iff.mp done
      exact (optionAnalyze_analyzed option).trans (ih later)

theorem withVersion_analyzed (text : Bytes) (h : Httpread) :
    Analyzed h (withVersion text h) := by
  unfold withVersion
  split
  · exact ⟨rfl, rfl, fun fresh => ⟨fresh.1, fresh.2, fresh.3, fresh.4, fresh.5, fresh.6, fresh.7⟩, Or.inl rfl⟩
  · exact Analyzed.refl _

theorem limitBody_cases (h : Httpread) :
    let kept := if h.chunked then { h with gotContentLength := false } else h
    limitBody h = kept ∨ limitBody h = { kept with maxBytes := 0 } := by
  unfold limitBody
  dsimp only
  generalize (if h.chunked then { h with gotContentLength := false } else h) = kept
  cases kept.hdrType with
  | reply =>
    dsimp only
    split
    · exact Or.inr rfl
    · exact Or.inl rfl
  | get =>
    dsimp only
    split
    · exact Or.inr rfl
    · exact Or.inl rfl
  | head =>
    dsimp only
    split
    · exact Or.inr rfl
    · exact Or.inl rfl
  | _ => exact Or.inl rfl

theorem limitBody_analyzed (h : Httpread) : Analyzed h (limitBody h) := by
  have cleared : ∀ h : Httpread, Analyzed h { h with maxBytes := 0 } := by
    intro h
    exact ⟨rfl, rfl, fun fresh => ⟨fresh.1, fresh.2, fresh.3, fresh.4, fresh.5, fresh.6, fresh.7⟩,
      Or.inr rfl⟩
  have overridden : Analyzed h (if h.chunked then { h with gotContentLength := false } else h) := by
    split
    · exact ⟨rfl, rfl,
        fun fresh => ⟨fresh.1, fresh.2, fresh.3, fresh.4, fresh.5, fresh.6, fresh.7⟩, Or.inl rfl⟩
    · exact Analyzed.refl _
  rcases limitBody_cases h with same | same
  · rw [same]
    exact overridden
  · rw [same]
    exact overridden.trans (cleared _)

theorem hdrAnalyze_analyzed {h after : Httpread} (done : hdrAnalyze h = some after) :
    Analyzed h after := by
  unfold hdrAnalyze at done
  split at done
  · cases done
  obtain ⟨first, line, later⟩ := bind_eq_some_iff.mp done
  obtain ⟨last, options, limited⟩ := map_eq_some_iff.mp later
  have begun : Analyzed h first := by
    split at line
    · unfold analyzeReply at line
      dsimp only at line
      split at line
      · cases line
        have typed : Analyzed h { h with hdrType := .reply } :=
          ⟨rfl, rfl, fun fresh => ⟨fresh.1, fresh.2, fresh.3, fresh.4, fresh.5, fresh.6, fresh.7⟩, Or.inl rfl⟩
        have version := typed.trans (withVersion_analyzed (h.hdr.drop 5) _)
        exact ⟨version.gotHdr, version.hdr, fun fresh =>
          have kept := version.fresh fresh
          ⟨kept.1, kept.2, kept.3, kept.4, kept.5, kept.6, kept.7⟩, version.limit⟩
      · cases line
    · cases line
      unfold analyzeRequest
      dsimp only
      have typed : ∀ hdrType uri, Analyzed h { h with hdrType := hdrType, uri := uri } := by
        intro hdrType uri
        exact ⟨rfl, rfl,
          fun fresh => ⟨fresh.1, fresh.2, fresh.3, fresh.4, fresh.5, fresh.6, fresh.7⟩, Or.inl rfl⟩
      split
      · exact (typed _ _).trans (withVersion_analyzed _ _)
      · exact typed _ _
  subst limited
  exact begun.trans ((optionLines_analyzed options).trans (limitBody_analyzed last))

theorem hdrAnalyze_chunked {h after : Httpread} (done : hdrAnalyze h = some after)
    (chunked : after.chunked = true) : after.gotContentLength = false := by
  unfold hdrAnalyze at done
  split at done
  · cases done
  obtain ⟨first, line, later⟩ := bind_eq_some_iff.mp done
  obtain ⟨last, options, limited⟩ := map_eq_some_iff.mp later
  subst limited
  by_cases given : last.chunked = true
  · rcases limitBody_cases last with same | same
    · rw [same, if_pos given]
    · rw [same, if_pos given]
  · exfalso
    rcases limitBody_cases last with same | same
    · rw [same, if_neg given] at chunked
      exact given chunked
    · rw [same, if_neg given] at chunked
      exact given chunked

end Httpread

end AthApps.Http
