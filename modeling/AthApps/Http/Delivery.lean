import AthApps.Http.Cuts

/-!
# What the application is told

The reads of a message are reads of its header, one that has the end of the
header, and reads of its body.  Put together, they give the application the
file once.
-/

set_option autoImplicit false

namespace AthApps.Http

open AthApps.Lib Httpread List

def Httpread.reads (maxBytes : Int) (hdr : Bytes) : Httpread :=
  { httpreadCreate maxBytes with hdr := hdr }

def Httpread.complete (maxBytes : Int) (hdr : Bytes) : Httpread :=
  { httpreadCreate maxBytes with hdr := hdr, gotHdr := true }

variable {hdr : Bytes} {maxBytes : Int} {h : Httpread}

variable {front bytes : Bytes}

theorem next_part (header : IsHeader hdr) {rest : Bytes} (some : bytes ≠ [])
    (whole : front ++ bytes ++ rest = hdr) (more : rest ≠ []) :
    Reader.next (.reading (.reads maxBytes front)) (.got bytes) =
      .reading (.reads maxBytes (front ++ bytes)) := by
  show (httpreadReadHandler (.reads maxBytes front) (.got bytes)).reader = _
  have part := @collectHdr_part hdr header bytes rest (.reads maxBytes front) whole more
  rw [httpreadReadHandler, if_neg some, if_neg (by simp [Httpread.reads, httpreadCreate]), readHdr,
    part]
  rfl

theorem next_complete (header : IsHeader hdr) (some : bytes ≠ []) (whole : front ++ bytes = hdr)
    (rest : Bytes) :
    Reader.next (.reading (.reads maxBytes front)) (.got (bytes ++ rest)) =
      ((Httpread.complete maxBytes hdr).finishHdr rest).reader := by
  show (httpreadReadHandler (.reads maxBytes front) (.got (bytes ++ rest))).reader = _
  have part := @collectHdr_whole hdr header bytes (.reads maxBytes front) whole some rest
  rw [httpreadReadHandler, if_neg (by simp [some]),
    if_neg (by simp [Httpread.reads, httpreadCreate]), readHdr, part]
  rfl

theorem run_hdr {maxBytes : Int} {hdr payload : Bytes} (header : IsHeader hdr)
    {reads : List Bytes} (nonempty : ∀ bytes ∈ reads, bytes ≠ []) {front : Bytes}
    (early : front.length < hdr.length) (cut : front ++ reads.flatten = hdr ++ payload) :
    ∃ (rest : Bytes) (others : List Bytes), rest ++ others.flatten = payload ∧ (∀ bytes ∈ others, bytes ≠ []) ∧
      run Reader.next (.reading (.reads maxBytes front)) (reads.map .got) =
        run Reader.next ((Httpread.complete maxBytes hdr).finishHdr rest).reader (others.map .got) ∧
      (Along Reader.next Accepts (.reading (.reads maxBytes front)) (reads.map .got) →
        Along Reader.next Accepts ((Httpread.complete maxBytes hdr).finishHdr rest).reader
          (others.map .got)) := by
  induction reads generalizing front with
  | nil =>
    have length := congrArg List.length cut
    simp only [flatten_nil, append_nil, length_append] at length
    omega
  | cons bytes others ih =>
    have here := nonempty bytes mem_cons_self
    have later : ∀ other ∈ others, other ≠ [] := by
      intro other member
      exact nonempty other (mem_cons_of_mem bytes member)
    rw [flatten_cons, ← append_assoc] at cut
    by_cases inside : (front ++ bytes).length < hdr.length
    · -- the header goes on after this read
      obtain ⟨rest, whole⟩ : front ++ bytes <+: hdr :=
        prefix_of_prefix_length_le ⟨others.flatten, cut⟩ (prefix_append hdr payload)
          (Nat.le_of_lt inside)
      have more : rest ≠ [] := by
        rintro rfl
        rw [append_nil] at whole
        rw [whole] at inside
        exact Nat.lt_irrefl _ inside
      obtain ⟨last, final, tail, some, same, accepts⟩ := ih later inside cut
      refine ⟨last, final, tail, some, ?_, ?_⟩
      · rw [map_cons, run_cons, next_part header here whole more, same]
      · rintro ⟨-, along⟩
        rw [next_part header here whole more] at along
        exact accepts along
    · obtain ⟨missing, whole⟩ : front <+: hdr := by
        apply prefix_of_prefix_length_le _ (prefix_append hdr payload) (Nat.le_of_lt early)
        exact ⟨bytes ++ others.flatten, by rw [← append_assoc]; exact cut⟩
      obtain ⟨rest, split⟩ : missing <+: bytes := by
        rw [append_assoc, ← whole, append_assoc] at cut
        have tails := append_cancel_left cut
        apply prefix_of_prefix_length_le (prefix_append missing payload)
        · exact ⟨others.flatten, tails⟩
        · rw [← whole, length_append, length_append] at inside
          omega
      have some : missing ≠ [] := by
        rintro rfl
        rw [append_nil] at whole
        rw [whole] at early
        exact Nat.lt_irrefl _ early
      subst split
      refine ⟨rest, others, ?_, later, ?_, ?_⟩
      · rw [← append_assoc, whole, append_assoc] at cut
        exact append_cancel_left cut
      · rw [map_cons, run_cons, next_complete header some whole rest]
      · rintro ⟨-, along⟩
        rw [next_complete header some whole rest] at along
        exact along

def Httpread.WantsBody (h : Httpread) : Prop :=
  h.maxBytes ≠ 0 ∧ h.isBodyless = false

instance (h : Httpread) : Decidable h.WantsBody := inferInstanceAs (Decidable (_ ∧ _))

def Transfer.Announced (h : Httpread) : Transfer → Prop
  | .contentLength data => h.chunked = false ∧ h.gotContentLength = true ∧
      h.contentLength = data.length ∧ h.contentLength < intMax
  | .chunked chunks last trailer => h.chunked = true ∧
      ((Transfer.chunked chunks last trailer).encode.length : Int) + httpreadBodybufDelta ≤ intMax
  | .untilEof data => h.chunked = false ∧ h.gotContentLength = false ∧
      (data.length : Int) + httpreadBodybufDelta ≤ intMax

/-- The read at the end of the file, where the body lasts so long. -/
def Transfer.ending : Transfer → List Read
  | .untilEof _ => [.got []]
  | _ => []

/-- An analysed header, and what is known of its handle. -/
structure Httpread.Opened (maxBytes : Int) (hdr : Bytes) (h : Httpread) : Prop where
  accepted : hdrAnalyze (.complete maxBytes hdr) = some h
  gotHdr : h.gotHdr = true
  fresh : Fresh h
  limit : h.maxBytes = maxBytes ∨ h.maxBytes = 0

theorem opened_of_accepted
    (accepted : hdrAnalyze (.complete maxBytes hdr) = some h) : h.Opened maxBytes hdr := by
  have analyzed := hdrAnalyze_analyzed accepted
  exact ⟨accepted, analyzed.gotHdr, analyzed.fresh ⟨rfl, rfl, rfl, rfl, rfl, rfl, rfl⟩,
    analyzed.limit⟩

theorem finishHdr_bodyless (opened : h.Opened maxBytes hdr)
    (unwanted : ¬ h.WantsBody ∨ (h.gotContentLength = true ∧ h.contentLength = 0))
    (rest : Bytes) :
    ∃ final, finishHdr (.complete maxBytes hdr) rest = .file final ∧ final.body = [] := by
  rw [finishHdr, opened.accepted]
  dsimp only
  by_cases none : h.maxBytes = 0
  · rw [if_pos none]
    exact ⟨h, rfl, opened.fresh.body⟩
  rw [if_neg none]
  by_cases zero : h.gotContentLength = true ∧ h.contentLength = 0
  · rw [if_pos zero]
    exact ⟨h, rfl, opened.fresh.body⟩
  rw [if_neg zero]
  have bodyless : h.isBodyless = true := by
    by_contra other
    exact (unwanted.resolve_right zero) ⟨none, by simpa using other⟩
  rw [readBody, if_pos bodyless]
  exact ⟨_, rfl, opened.fresh.body⟩

theorem run_finishHdr (nonneg : 0 ≤ maxBytes)
    (opened : h.Opened maxBytes hdr) (wanted : h.WantsBody)
    (some : ¬ (h.gotContentLength = true ∧ h.contentLength = 0)) (rest : Bytes)
    {others : List Bytes} (nonempty : ∀ bytes ∈ others, bytes ≠ []) :
    ∃ reads : List Bytes, reads.flatten = rest ++ others.flatten ∧ (∀ bytes ∈ reads, bytes ≠ []) ∧
      run Reader.next (finishHdr (.complete maxBytes hdr) rest).reader (others.map .got) =
        run Reader.next (.reading h) (reads.map .got) ∧
      (Along Reader.next Accepts (finishHdr (.complete maxBytes hdr) rest).reader
          (others.map .got) →
        Along Reader.next Accepts (.reading h) (reads.map .got)) := by
  have finishes : finishHdr (.complete maxBytes hdr) rest = readBody rest h := by
    rw [finishHdr, opened.accepted]
    dsimp only
    rw [if_neg wanted.1, if_neg some]
  rw [finishes]
  by_cases empty : rest = []
  · subst empty
    have waits : readBody [] h = .more h := by
      rw [readBody, if_neg (by simp [wanted.2]), if_pos rfl]
    rw [waits]
    exact ⟨others, rfl, nonempty, rfl, id⟩
  · have first : Reader.next (.reading h) (.got rest) = (readBody rest h).reader := by
      show (httpreadReadHandler h (.got rest)).reader = _
      rw [httpreadReadHandler, if_neg empty, if_pos opened.gotHdr]
    refine ⟨rest :: others, rfl, ?_, ?_, ?_⟩
    · intro bytes member
      rcases mem_cons.mp member with rfl | member
      · exact empty
      · exact nonempty bytes member
    · rw [map_cons, run_cons, first]
    · intro along
      refine ⟨?_, by rw [first]; exact along⟩
      intro _
      refine ⟨opened.fresh.inTrailer, Or.inr ?_⟩
      have positive : 0 < h.maxBytes := by
        rcases opened.limit with same | zero
        · have other := wanted.1
          omega
        · exact absurd zero wanted.1
      rw [opened.fresh.body]
      exact positive

theorem Httpread.Opened.inBody (opened : h.Opened maxBytes hdr) (wanted : h.WantsBody) : h.InBody :=
  ⟨opened.gotHdr, wanted.2, opened.fresh.gotBody⟩

theorem Httpread.Opened.positive (nonneg : 0 ≤ maxBytes)
    (opened : h.Opened maxBytes hdr) (wanted : h.WantsBody) :
    h.maxBytes = maxBytes ∧ 0 < h.maxBytes := by
  rcases opened.limit with same | zero
  · have other := wanted.1
    exact ⟨same, by omega⟩
  · exact absurd zero wanted.1

theorem run_transfer (nonneg : 0 ≤ maxBytes)
    (opened : h.Opened maxBytes hdr) (wanted : h.WantsBody) {transfer : Transfer}
    (announced : transfer.Announced h) (fits : (transfer.body.length : Int) ≤ maxBytes)
    {reads : List Bytes} (nonempty : ∀ bytes ∈ reads, bytes ≠ [])
    (cut : reads.flatten = transfer.encode)
    (some : ¬ (h.gotContentLength = true ∧ h.contentLength = 0))
    (accepts : ∀ chunks last trailer, transfer = .chunked chunks last trailer →
      Along Reader.next Accepts (.reading h) (reads.map .got)) :
    ∃ final, run Reader.next (.reading h) (reads.map .got ++ transfer.ending) = .ready final ∧
      final.body = transfer.body := by
  have inBody := opened.inBody wanted
  obtain ⟨same, positive⟩ := opened.positive nonneg wanted
  have start : (h.body.length : Int) = 0 := by rw [opened.fresh.body]; rfl
  rw [run_append]
  cases transfer with
  | contentLength data =>
    obtain ⟨plain, known, length, small⟩ := announced
    have cut : reads.flatten = data := cut
    have more : reads ≠ [] := by
      rintro rfl
      apply some
      refine ⟨known, ?_⟩
      rw [length, ← cut]
      rfl
    have room := hasRoom_contentLength nonempty inBody plain known opened.fresh.inTrailer
      (by rw [cut]; omega) small positive
      (Or.inl ⟨opened.fresh.body, opened.fresh.bodyAllocNbytes⟩)
    obtain ⟨alloc, whole⟩ := run_inBody more nonempty inBody room
    have loop := @bodyLoop_contentLength h plain known data (by omega)
    refine ⟨({ h with body := h.body ++ data, gotBody := true } : Httpread).setAlloc alloc, ?_, ?_⟩
    · rw [whole, cut, loop]
      rfl
    · show h.body ++ data = data
      rw [opened.fresh.body, nil_append]
  | chunked chunks last trailer =>
    obtain ⟨chunked, small⟩ := announced
    have cut : reads.flatten = (Transfer.chunked chunks last trailer).encode := cut
    have more : reads ≠ [] := by
      rintro rfl
      simp [Transfer.encode, crlf] at cut
    have unknown := hdrAnalyze_chunked opened.accepted chunked
    have room := hasRoom_of_accepts nonempty inBody unknown (by rw [cut]; omega)
      (accepts chunks last trailer rfl)
    obtain ⟨alloc, whole⟩ := run_inBody more nonempty inBody room
    have length : (chunks.flatMap Chunk.data).length ≤
        (Transfer.chunked chunks last trailer).encode.length := by
      have each : ∀ list : List Chunk, (list.flatMap Chunk.data).length ≤
          (list.flatMap Chunk.encode).length := by
        intro list
        induction list with
        | nil => exact Nat.le_refl 0
        | cons chunk others ih =>
          simp only [flatMap_cons, length_append, Chunk.encode]
          omega
      have here := each chunks
      simp only [Transfer.encode, length_append]
      omega
    rw [httpreadBodybufDelta] at small
    obtain ⟨final, loop, body⟩ := bodyLoop_chunked
      ⟨chunked, opened.fresh.inChunkData, by rw [opened.fresh.chunkStart, opened.fresh.body]; rfl⟩
      chunks last trailer opened.fresh.trailerState (by omega)
    refine ⟨final.setAlloc alloc, ?_, ?_⟩
    · rw [whole, cut, loop]
      rfl
    · show final.body = chunks.flatMap Chunk.data
      rw [body, opened.fresh.body, nil_append]
  | untilEof data =>
    obtain ⟨plain, unknown, small⟩ := announced
    have cut : reads.flatten = data := cut
    have ends : ∀ alloc, Reader.next
        (.reading (({ h with body := h.body ++ data } : Httpread).setAlloc alloc)) (.got []) =
        .ready (({ h with body := h.body ++ data, gotBody := true } : Httpread).setAlloc alloc) := by
      intro alloc
      show (httpreadReadHandler _ (.got [])).reader = _
      rw [httpreadReadHandler, if_pos rfl, readEof, if_neg (by simp [setAlloc, opened.gotHdr]),
        if_neg (by simp [setAlloc, plain, unknown])]
      rfl
    have body : h.body ++ data = data := by rw [opened.fresh.body, nil_append]
    by_cases empty : reads = []
    · subst empty
      have nothing : data = [] := cut.symm
      subst nothing
      refine ⟨({ h with body := h.body ++ [], gotBody := true } : Httpread).setAlloc
        h.bodyAllocNbytes, ?_, body⟩
      have same : ({ h with body := h.body ++ [] } : Httpread).setAlloc h.bodyAllocNbytes = h := by
        rw [append_nil]
        rfl
      rw [← ends, same]
      rfl
    · have limit : (data.length : Int) ≤ maxBytes := fits
      have room := hasRoom_untilEof nonempty inBody plain unknown opened.fresh.inTrailer
        (by rw [cut]; omega) (by rw [cut]; omega)
      obtain ⟨alloc, whole⟩ := run_inBody empty nonempty inBody room
      refine ⟨({ h with body := h.body ++ data, gotBody := true } : Httpread).setAlloc alloc, ?_,
        body⟩
      rw [whole, cut, bodyLoop_part plain (by simp [unknown])]
      exact ends alloc

/-- However a message is cut into reads, its file is announced once, with the body that it
carries if one is wanted, and with an empty body if not. -/
theorem delivered_in_any_cuts {maxBytes : Int} (nonneg : 0 ≤ maxBytes) {hdr : Bytes}
    (header : IsHeader hdr) {h : Httpread}
    (accepted : hdrAnalyze (.complete maxBytes hdr) = some h) {transfer : Transfer}
    (announced : transfer.Announced h) (fits : (transfer.body.length : Int) ≤ maxBytes)
    {reads : List Bytes}
    (sizes : ∀ bytes ∈ reads, bytes ≠ [] ∧ bytes.length ≤ httpreadReadbufSize)
    (cut : reads.flatten = hdr ++ transfer.encode)
    (accepts : ∀ chunks last trailer, transfer = .chunked chunks last trailer →
      Along Reader.next Accepts (.reading (httpreadCreate maxBytes)) (reads.map .got)) :
    ∃ final, run Reader.next (.reading (httpreadCreate maxBytes))
        (reads.map .got ++ transfer.ending) = .ready final ∧
      final.body = if h.WantsBody then transfer.body else [] := by
  have opened := opened_of_accepted accepted
  have nonempty : ∀ bytes ∈ reads, bytes ≠ [] := fun bytes member => (sizes bytes member).1
  have early : ([] : Bytes).length < hdr.length := by
    have long := header.ends.length_le
    simp only [crlf, length_append, length_cons, length_nil] at long ⊢
    omega
  obtain ⟨rest, others, payload, some, whole, along⟩ :=
    @run_hdr maxBytes hdr transfer.encode header reads nonempty [] early cut
  have begins : Httpread.reads maxBytes [] = httpreadCreate maxBytes := rfl
  rw [begins] at whole along
  by_cases unwanted : ¬ h.WantsBody ∨ (h.gotContentLength = true ∧ h.contentLength = 0)
  · obtain ⟨final, finishes, empty⟩ := finishHdr_bodyless opened unwanted rest
    refine ⟨final, ?_, ?_⟩
    · have stays : ∀ later, run Reader.next (.ready final) later = .ready final :=
        run_of_stopped (by rintro _ ⟨⟩)
      rw [run_append, whole, finishes]
      show run Reader.next (run Reader.next (.ready final) _) _ = _
      rw [stays, stays]
    · rw [empty]
      split
      next wanted =>
        -- the length is 0, so the body that is wanted is empty too
        obtain ⟨known, zero⟩ := unwanted.resolve_left (fun other => other wanted)
        cases transfer with
        | contentLength data =>
          obtain ⟨-, -, length, -⟩ := announced
          rw [zero] at length
          exact (length_eq_zero_iff.mp (Int.ofNat.inj length.symm)).symm
        | chunked chunks last trailer =>
          have none := hdrAnalyze_chunked accepted announced.1
          rw [known] at none
          cases none
        | untilEof data =>
          have none := announced.2.1
          rw [known] at none
          cases none
      next => rfl
  · rw [not_or, not_not] at unwanted
    obtain ⟨wanted, notZero⟩ := unwanted
    obtain ⟨bodyReads, flat, all, same, accepted⟩ :=
      run_finishHdr nonneg opened wanted notZero rest some
    obtain ⟨final, ready, body⟩ := run_transfer nonneg opened wanted announced fits all
      (flat.trans payload) notZero (by
        intro chunks last trailer which
        exact accepted (along (accepts chunks last trailer which)))
    refine ⟨final, ?_, ?_⟩
    · rw [run_append, whole, same, ← run_append, ready]
    · rw [body, if_pos wanted]

def chunkedReply : Bytes :=
  letters "HTTP/1.1 200 OK\r\nTransfer-Encoding: chunked\r\n\r\n"

def helloInChunks : Transfer :=
  .chunked [⟨letters "5", letters "hello", by decide, by decide, by decide⟩]
    ⟨letters "0", by decide, by decide, by decide⟩ []

theorem delivered_in_any_cuts_hello :
    ∃ final, run Reader.next (.reading (httpreadCreate 100))
        [.got (chunkedReply.take 20), .got (chunkedReply.drop 20 ++ letters "5\r\nhe"),
          .got (letters "llo\r\n0\r\n\r\n")] = .ready final ∧ final.body = letters "hello" := by
  obtain ⟨final, ready, body⟩ := @delivered_in_any_cuts 100 (by decide) chunkedReply
    (by decide) ((hdrAnalyze (.complete 100 chunkedReply)).getD (httpreadCreate 0))
    (by decide) helloInChunks ⟨by decide, by decide⟩ (by decide)
    [chunkedReply.take 20, chunkedReply.drop 20 ++ letters "5\r\nhe",
      letters "llo\r\n0\r\n\r\n"] (by decide) (by decide)
    (fun _ _ _ _ => by decide)
  refine ⟨final, ready, ?_⟩
  rw [body, if_pos (by decide)]
  decide

def notFoundReply : Bytes :=
  letters "HTTP/1.1 404 Not Found\r\nContent-Length: 5\r\n\r\n"

/-- The body of such a reply is not read. -/
theorem notFound_body_not_delivered :
    ¬ ∀ (maxBytes : Int) (hdr : Bytes) (h : Httpread) (transfer : Transfer)
        (reads : List Bytes), 0 ≤ maxBytes → IsHeader hdr →
        hdrAnalyze (.complete maxBytes hdr) = some h → transfer.Announced h →
        (transfer.body.length : Int) ≤ maxBytes →
        (∀ bytes ∈ reads, bytes ≠ [] ∧ bytes.length ≤ httpreadReadbufSize) →
        reads.flatten = hdr ++ transfer.encode →
        ∃ final, run Reader.next (.reading (httpreadCreate maxBytes))
            (reads.map .got ++ transfer.ending) = .ready final ∧ final.body = transfer.body := by
  intro all
  obtain ⟨final, ready, body⟩ := all 100 notFoundReply
    ((hdrAnalyze (.complete 100 notFoundReply)).getD (httpreadCreate 0))
    (.contentLength (letters "hello")) [notFoundReply ++ letters "hello"] (by decide)
    (by decide) (by decide)
    ⟨by decide, by decide, by decide, by decide⟩ (by decide)
    (by decide) (by decide)
  have empty : ∃ other, run Reader.next (.reading (httpreadCreate 100))
      [.got (notFoundReply ++ letters "hello")] = .ready other ∧ other.body = [] :=
    ⟨(hdrAnalyze (.complete 100 notFoundReply)).getD (httpreadCreate 0), by decide,
      by decide⟩
  obtain ⟨other, really, nothing⟩ := empty
  have same : Reader.ready final = .ready other := ready.symm.trans really
  cases same
  rw [nothing] at body
  exact absurd body (by decide)

end AthApps.Http
