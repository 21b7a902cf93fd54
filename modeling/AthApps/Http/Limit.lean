import AthApps.Http.Delivery

/-!
# The limit on the size of a file

The header comment promises that the maximum is enforced.  It is looked at
only when the buffer has to grow, and a length in the header makes the buffer
large enough at once.  Without a length the buffer stays below a bound that
depends on the maximum alone; a body between the two is delivered or refused
as the reads fall.
-/

set_option autoImplicit false

namespace AthApps.Http

open AthApps.Lib Httpread List

namespace Httpread

def driveBody (bytes : Bytes) (h : Httpread) : Outcome :=
  if h.isBodyless then .file { h with gotBody := true }
  else if bytes = [] then .more h
  else goOn bytes h

def driveRest (h : Httpread) (rest : Bytes) : Outcome :=
  match hdrAnalyze h with
  | none => .bad
  | some h =>
    if h.maxBytes = 0 then .file h
    else if h.gotContentLength ∧ h.contentLength = 0 then .file h
    else driveBody rest h

/-- The handler with a buffer that is always large enough, and that stays in the trailer. -/
def drive (bytes : Bytes) (h : Httpread) : Outcome :=
  if h.gotHdr then driveBody bytes h
  else
    match collectHdr bytes h with
    | .more h => .more h
    | .full => .bad
    | .complete h rest => driveRest h rest

end Httpread

def Outcome.atEof : Outcome → Option Httpread
  | .file h => some h
  | .more h =>
    match h.readEof with
    | .file h => some h
    | _ => none
  | .bad => none
  | .undefined => none

def carried (maxBytes : Int) (stream : Bytes) : Option Httpread :=
  (drive stream (httpreadCreate maxBytes)).atEof

def received : List Read → Bytes
  | .got bytes :: rest => if bytes = [] then [] else bytes ++ received rest
  | _ => []

/-- A buffer that grows only while there are fewer than `maxBytes` bytes in it gets no larger. -/
def roomFor (maxBytes : Int) : Int :=
  httpreadBodybufDelta * ((maxBytes + 1023) / httpreadBodybufDelta + 1)

namespace Httpread

theorem collectHdr_append (first second : Bytes) (h : Httpread) :
    collectHdr (first ++ second) h =
      match collectHdr first h with
      | .more after => collectHdr second after
      | .full => .full
      | .complete after rest => .complete after (rest ++ second) := by
  induction first generalizing h with
  | nil => rfl
  | cons c others ih =>
    rw [cons_append, collectHdr, collectHdr]
    split
    · rfl
    dsimp only
    split
    · rfl
    · exact ih _

variable {maxBytes : Int}

theorem collectHdr_reads (bytes front : Bytes) :
    collectHdr bytes (.reads maxBytes front) = .more (.reads maxBytes (front ++ bytes)) ∨
      collectHdr bytes (.reads maxBytes front) = .full ∨
      ∃ hdr rest, collectHdr bytes (.reads maxBytes front) =
        .complete (.complete maxBytes hdr) rest ∧ rest.length ≤ bytes.length := by
  induction bytes generalizing front with
  | nil => exact Or.inl (by simp [collectHdr])
  | cons c others ih =>
    rw [collectHdr]
    split
    · exact Or.inr (Or.inl rfl)
    dsimp only
    split
    · exact Or.inr (Or.inr ⟨front ++ [c], others, rfl, by simp⟩)
    · have later := ih (front ++ [c])
      rw [append_assoc, singleton_append] at later
      rcases later with more | full | ⟨hdr, rest, complete, short⟩
      · exact Or.inl more
      · exact Or.inr (Or.inl full)
      · refine Or.inr (Or.inr ⟨hdr, rest, complete, ?_⟩)
        rw [length_cons]
        omega

variable {h after : Httpread} {first second : Bytes} {bytes : Bytes}

theorem goOn_more (more : goOn bytes h = .more after) :
    Alike h after ∧ after.gotBody = h.gotBody := by
  unfold goOn at more
  split at more
  · have kept := trailerLoop_more more
    exact ⟨kept.1, kept.2.2.1⟩
  · have kept := bodyLoop_more more
    exact ⟨kept.1, kept.2.1⟩

theorem goOn_append (nonempty : second ≠ []) {h : Httpread} : goOn (first ++ second) h =
      match goOn first h with
      | .more after => goOn second after
      | outcome => outcome := by
  by_cases inside : h.inTrailer = true
  · unfold goOn
    rw [if_pos inside, if_pos inside, trailerLoop_append]
    cases trail : trailerLoop first h with
    | more after => simp [(trailerLoop_more trail).2.1, inside]
    | file after => rfl
    | bad => rfl
    | undefined => rfl
  · have outside : h.inTrailer = false := by simpa using inside
    show (if h.inTrailer then trailerLoop _ h else bodyLoop (first ++ second) h) = _
    have same : goOn first h = bodyLoop first h := if_neg inside
    rw [if_neg inside, same]
    refine (bodyLoop_append first nonempty outside).trans ?_
    cases bodyLoop first h <;> rfl

/-- The reader without a limit does not care about the cuts of a body. -/
theorem driveBody_append (nonempty : second ≠ []) {h : Httpread} : driveBody (first ++ second) h =
      match driveBody first h with
      | .more after => driveBody second after
      | outcome => outcome := by
  by_cases bodyless : h.isBodyless = true
  · simp [driveBody, bodyless]
  unfold driveBody
  rw [if_neg bodyless, if_neg bodyless, if_neg (by simp [nonempty])]
  by_cases empty : first = []
  · subst empty
    rw [if_pos rfl]
    dsimp only
    rw [if_neg bodyless, if_neg nonempty]
    rfl
  · rw [if_neg empty, goOn_append nonempty]
    cases loop : goOn first h with
    | more after =>
      have same : after.isBodyless = h.isBodyless := by
        rw [isBodyless, isBodyless, (goOn_more loop).1.hdr]
      dsimp only
      rw [same, if_neg bodyless, if_neg nonempty]
    | file after => rfl
    | bad => rfl
    | undefined => rfl

theorem driveBody_nil {h : Httpread} (inBody : h.InBody) : driveBody [] h = .more h := by
  rw [driveBody, if_neg (by simp [inBody.withBody]), if_pos rfl]

theorem driveBody_setAlloc (alloc : Int) (bytes : Bytes) {h : Httpread} (inBody : h.InBody) :
    driveBody bytes (h.setAlloc alloc) = (driveBody bytes h).setAlloc alloc := by
  have bodyless : ¬ h.isBodyless = true := by simp [inBody.withBody]
  have other : ¬ (h.setAlloc alloc).isBodyless = true := bodyless
  rw [driveBody, driveBody, if_neg bodyless, if_neg other]
  by_cases empty : bytes = []
  · rw [if_pos empty, if_pos empty]
    rfl
  rw [if_neg empty, if_neg empty, goOn, goOn, trailerLoop_setAlloc, bodyLoop_setAlloc]
  exact (apply_ite (Outcome.setAlloc alloc) _ _ _).symm

theorem driveBody_of_more (more : driveBody first h = .more after) (inBody : after.InBody) :
    driveBody (first ++ second) h = driveBody second after := by
  by_cases empty : second = []
  · subst empty
    rw [append_nil, more, driveBody_nil inBody]
  · rw [driveBody_append empty, more]

theorem driveBody_of_file
    (file : driveBody first h = .file after) : driveBody (first ++ second) h = .file after := by
  by_cases empty : second = []
  · subst empty
    rw [append_nil, file]
  · rw [driveBody_append empty, file]

theorem atEof_setAlloc (alloc : Int) (outcome : Outcome) :
    (outcome.setAlloc alloc).atEof = outcome.atEof.map (setAlloc alloc) := by
  cases outcome with
  | more h =>
    show (match readEof (h.setAlloc alloc) with | .file h => some h | _ => none) =
      (match readEof h with | .file h => some h | _ => none).map (setAlloc alloc)
    have same : readEof (h.setAlloc alloc) = (readEof h).setAlloc alloc := by
      simp only [readEof, apply_ite (Outcome.setAlloc alloc)]
      rfl
    rw [same]
    cases readEof h <;> rfl
  | file h => rfl
  | bad => rfl
  | undefined => rfl

theorem trailerLoop_file (file : trailerLoop bytes h = .file after) :
    after.gotContentLength = h.gotContentLength ∧ after.body = h.body := by
  induction bytes generalizing h with
  | nil => cases file
  | cons c rest ih =>
    rw [trailerLoop] at file
    split at file
    · have later := ih file
      exact later
    · split at file
      · cases file
        exact ⟨rfl, rfl⟩
      · have later := ih file
        exact later
    · have later := ih file
      exact later
    · have later := ih file
      exact later

theorem afterLoop_file (file : afterLoop bytes h = .file after) :
    after.gotContentLength = h.gotContentLength ∧ after.body = h.body := by
  unfold afterLoop at file
  split at file
  · exact trailerLoop_file file
  · cases file

theorem bodyLoop_file (file : bodyLoop bytes h = .file after) :
    after.gotContentLength = h.gotContentLength ∧
      after.body.length ≤ h.body.length + bytes.length := by
  induction bytes generalizing h with
  | nil =>
    rw [bodyLoop] at file
    cases tests : seeIfStop h with
    | go middle =>
      rw [tests] at file
      cases (afterLoop_nil middle).symm.trans file
    | trailer middle =>
      rw [tests] at file
      cases (afterLoop_nil middle).symm.trans file
    | file middle =>
      rw [tests] at file
      cases file
      rw [(seeIfStop_file tests).1]
      exact ⟨rfl, Nat.le_refl _⟩
    | bad => simp [tests] at file
    | undefined => simp [tests] at file
  | cons c rest ih =>
    rw [bodyLoop] at file
    cases tests : seeIfCopy h with
    | go middle =>
      rw [tests] at file
      have here := seeIfCopy_go tests
      have later := ih file
      refine ⟨later.1.trans here.1.gotContentLength, ?_⟩
      have bound := later.2
      have shrinks := here.2.2.2
      simp only [Httpread.push, length_append, length_singleton] at bound
      rw [length_cons]
      omega
    | trailer middle =>
      rw [tests] at file
      have here := seeIfStop_trailer (seeIfCopy_trailer tests)
      have later := afterLoop_file file
      refine ⟨later.1.trans here.1.gotContentLength, ?_⟩
      rw [later.2]
      exact Nat.le_trans here.2.2.2.2 (Nat.le_add_right _ _)
    | file middle =>
      rw [tests] at file
      cases file
      rw [(seeIfStop_file (seeIfCopy_file tests)).1]
      exact ⟨rfl, Nat.le_add_right _ _⟩
    | bad => simp [tests] at file
    | undefined => simp [tests] at file

theorem grow_go {nread : Nat} (goes : grow nread h = .go after) :
    ∃ alloc, after = h.setAlloc alloc := by
  unfold grow at goes
  split at goes
  · cases goes
  split at goes
  · split at goes
    · cases goes
    dsimp only at goes
    split at goes
    · split at goes
      · cases goes
      · cases goes
        exact ⟨_, rfl⟩
    · split at goes
      · cases goes
      · cases goes
        exact ⟨_, rfl⟩
  · cases goes
    exact ⟨h.bodyAllocNbytes, rfl⟩

/-- Without a length the buffer has grown by whole steps, and holds what is stored. -/
structure Bounded (maxBytes : Int) (h : Httpread) : Prop where
  limit : h.maxBytes = maxBytes
  nonneg : 0 ≤ h.bodyAllocNbytes
  whole : (httpreadBodybufDelta : Int) ∣ h.bodyAllocNbytes
  small : h.bodyAllocNbytes ≤ roomFor maxBytes
  holds : h.body = [] ∨ (h.body.length : Int) < h.bodyAllocNbytes

theorem Bounded.short (nonneg : 0 ≤ maxBytes) {h : Httpread} (bounded : h.Bounded maxBytes) :
    (h.body.length : Int) < roomFor maxBytes := by
  have small := bounded.small
  rcases bounded.holds with empty | holds
  · rw [empty, roomFor, httpreadBodybufDelta, length_nil]
    omega
  · omega

theorem Bounded.grow {nread : Nat} (read : nread ≤ httpreadReadbufSize) {h : Httpread}
    (bounded : h.Bounded maxBytes) (unknown : h.gotContentLength = false) {alloc : Int}
    (goes : h.grow nread = .go (h.setAlloc alloc)) :
    (httpreadBodybufDelta : Int) ∣ alloc ∧ alloc ≤ roomFor maxBytes ∧
      (h.body.length : Int) + nread < alloc := by
  have nonneg := bounded.nonneg
  have step := bounded.whole
  have small := bounded.small
  have limit := bounded.limit
  have length : (h.body.length : Int) = 0 ∨ (h.body.length : Int) < h.bodyAllocNbytes := by
    rcases bounded.holds with empty | holds
    · exact Or.inl (by rw [empty]; rfl)
    · exact Or.inr holds
  have none : ¬ (h.gotContentLength = true ∧
      h.bodyAllocNbytes + httpreadBodybufDelta < h.contentLength + 1) := by
    simp [unknown]
  unfold Httpread.grow at goes
  split at goes
  · cases goes
  split at goes
  next room =>
    split at goes
    · cases goes
    next below =>
    dsimp only at goes
    rw [if_neg none] at goes
    split at goes
    · cases goes
    · have same : h.bodyAllocNbytes + httpreadBodybufDelta = alloc :=
        congrArg Httpread.bodyAllocNbytes (Turn.go.inj goes)
      unfold roomFor httpreadBodybufDelta httpreadReadbufSize at *
      omega
  next room =>
    have same : h.bodyAllocNbytes = alloc := congrArg Httpread.bodyAllocNbytes (Turn.go.inj goes)
    subst same
    exact ⟨step, small, by omega⟩

end Httpread

def OutsideTrailer : Reader → Read → Prop
  | .reading h, .got (_ :: _) => h.inTrailer = false
  | _, _ => True

instance : (reader : Reader) → (read : Read) → Decidable (OutsideTrailer reader read)
  | .reading h, .got (_ :: _) => inferInstanceAs (Decidable (h.inTrailer = false))
  | .reading _, .got [] => inferInstanceAs (Decidable True)
  | .reading _, .failed => inferInstanceAs (Decidable True)
  | .ready _, _ => inferInstanceAs (Decidable True)
  | .error, _ => inferInstanceAs (Decidable True)
  | .undefined, _ => inferInstanceAs (Decidable True)

variable {h : Httpread}

theorem next_body (inBody : h.InBody) {bytes : Bytes} (some : bytes ≠ [])
    (outside : h.inTrailer = false) :
    Reader.next (.reading h) (.got bytes) = .error ∨
      Reader.next (.reading h) (.got bytes) = .undefined ∨
      ∃ alloc, h.grow bytes.length = .go (h.setAlloc alloc) ∧ driveBody bytes h = bodyLoop bytes h ∧
        Reader.next (.reading h) (.got bytes) = ((bodyLoop bytes h).setAlloc alloc).reader := by
  have handler : Reader.next (.reading h) (.got bytes) = (readBody bytes h).reader := by
    show (httpreadReadHandler h (.got bytes)).reader = _
    rw [httpreadReadHandler, if_neg some, if_pos inBody.gotHdr]
  rw [readBody, if_neg (by simp [inBody.withBody]), if_neg some,
    if_neg (by simp [inBody.unfinished])] at handler
  cases grown : h.grow bytes.length with
  | go after =>
    obtain ⟨alloc, rfl⟩ := grow_go grown
    refine Or.inr (Or.inr ⟨alloc, rfl, ?_, next_inBody inBody some grown⟩)
    rw [driveBody, if_neg (by simp [inBody.withBody]), if_neg some, goOn,
      if_neg (by simp [outside])]
  | bad => exact Or.inl (by rw [handler, grown]; rfl)
  | trailer after => exact Or.inr (Or.inl (by rw [handler, grown]; rfl))
  | file after => exact Or.inr (Or.inl (by rw [handler, grown]; rfl))
  | undefined => exact Or.inr (Or.inl (by rw [handler, grown]; rfl))

variable {reads : List Read} {maxBytes : Int} {f : Httpread}

theorem not_ready {reader : Reader} (stopped : reader = .error ∨ reader = .undefined)
    (ready : run Reader.next reader reads = .ready f) : False := by
  rcases stopped with rfl | rfl
  · rw [run_of_stopped (by rintro _ ⟨⟩)] at ready
    cases ready
  · rw [run_of_stopped (by rintro _ ⟨⟩)] at ready
    cases ready

/-- What is delivered is what the stream carries; without a length it is below a bound. -/
def Delivers (maxBytes : Int) (outcome : Outcome) (f : Httpread) : Prop :=
  ∃ file, outcome.atEof = some file ∧ f.body = file.body ∧
    f.gotContentLength = file.gotContentLength ∧
    (f.gotContentLength = false → (f.body.length : Int) < roomFor maxBytes)

theorem run_body (nonneg : 0 ≤ maxBytes)
    (sizes : ∀ bytes, Read.got bytes ∈ reads → bytes.length ≤ httpreadReadbufSize)
    (inBody : h.InBody) (bounded : h.gotContentLength = false → h.Bounded maxBytes)
    (outside : Along Reader.next OutsideTrailer (.reading h) reads)
    (ready : run Reader.next (.reading h) reads = .ready f) :
    Delivers maxBytes (driveBody (received reads) h) f := by
  induction reads generalizing h with
  | nil => cases ready
  | cons read rest ih =>
    have later : ∀ bytes, Read.got bytes ∈ rest → bytes.length ≤ httpreadReadbufSize := by
      intro bytes member
      exact sizes bytes (mem_cons_of_mem _ member)
    obtain ⟨here, along⟩ := outside
    rw [run_cons] at ready
    cases read with
    | failed => exact (not_ready (Or.inl rfl) ready).elim
    | got bytes =>
      by_cases empty : bytes = []
      · subst empty
        have ends : Reader.next (.reading h) (.got []) = h.readEof.reader := rfl
        rw [ends] at ready
        rw [show received (.got [] :: rest) = [] from rfl, driveBody_nil inBody]
        unfold readEof at ready
        rw [if_neg (by simp [inBody.gotHdr])] at ready
        by_cases framed : h.chunked = true ∨ h.gotContentLength = true
        · rw [if_pos framed] at ready
          exact (not_ready (Or.inl rfl) ready).elim
        · rw [if_neg framed] at ready
          have stays : run Reader.next (.ready { h with gotBody := true }) rest =
              .ready { h with gotBody := true } := run_of_stopped (by rintro _ ⟨⟩) rest
          have same : Reader.ready { h with gotBody := true } = .ready f := stays.symm.trans ready
          cases same
          refine ⟨{ h with gotBody := true }, ?_, rfl, rfl, ?_⟩
          · rw [Outcome.atEof, readEof, if_neg (by simp [inBody.gotHdr]), if_neg framed]
          · intro unknown
            exact (bounded unknown).short nonneg
      · have before : h.inTrailer = false := by
          cases bytes with
          | nil => exact absurd rfl empty
          | cons c others => exact here
        have whole : received (.got bytes :: rest) = bytes ++ received rest := if_neg empty
        rw [whole]
        rcases next_body inBody empty before with bad | undefined | ⟨alloc, grown, drives, next⟩
        · exact (not_ready (Or.inl bad) ready).elim
        · exact (not_ready (Or.inr undefined) ready).elim
        rw [next] at ready along
        have room : h.gotContentLength = false →
            (httpreadBodybufDelta : Int) ∣ alloc ∧ alloc ≤ roomFor maxBytes ∧
              (h.body.length : Int) + bytes.length < alloc := by
          intro unknown
          exact (bounded unknown).grow (sizes bytes mem_cons_self) unknown grown
        cases loop : bodyLoop bytes h with
        | more after =>
          rw [loop] at ready along drives
          obtain ⟨alike, same, length⟩ := bodyLoop_more loop
          have still := inBody.alike alike same
          obtain ⟨file, carries, body, known, bound⟩ := ih later (still.setAlloc alloc) (by
            intro unknown
            have before : h.gotContentLength = false := alike.gotContentLength.symm.trans unknown
            obtain ⟨step, small, fits⟩ := room before
            refine ⟨alike.maxBytes.trans (bounded before).limit, ?_, step, small, Or.inr ?_⟩
            · show 0 ≤ alloc
              omega
            · show (after.body.length : Int) < alloc
              omega) along ready
          rw [driveBody_setAlloc alloc _ still, atEof_setAlloc, Option.map_eq_some_iff] at carries
          obtain ⟨plain, carries, rfl⟩ := carries
          refine ⟨plain, ?_, body, known, bound⟩
          rw [driveBody_of_more drives still, carries]
        | file after =>
          rw [loop] at ready drives
          obtain ⟨known, length⟩ := bodyLoop_file loop
          have stays : run Reader.next (.ready (after.setAlloc alloc)) rest =
              .ready (after.setAlloc alloc) := run_of_stopped (by rintro _ ⟨⟩) rest
          have same : Reader.ready (after.setAlloc alloc) = .ready f := stays.symm.trans ready
          cases same
          refine ⟨after, ?_, rfl, rfl, ?_⟩
          · rw [driveBody_of_file drives]
            rfl
          · intro unknown
            obtain ⟨-, small, fits⟩ := room (known.symm.trans unknown)
            show (after.body.length : Int) < roomFor maxBytes
            omega
        | bad =>
          rw [loop] at ready
          exact (not_ready (Or.inl rfl) ready).elim
        | undefined =>
          rw [loop] at ready
          exact (not_ready (Or.inr rfl) ready).elim

theorem delivers_file (nonneg : 0 ≤ maxBytes) {f : Httpread} (empty : h.body = [])
    (ready : run Reader.next (.ready h) reads = .ready f) : Delivers maxBytes (.file h) f := by
  rw [run_of_stopped (by rintro _ ⟨⟩)] at ready
  cases ready
  refine ⟨h, rfl, rfl, rfl, ?_⟩
  intro _
  rw [empty, roomFor, httpreadBodybufDelta, length_nil]
  omega

theorem run_finish (nonneg : 0 ≤ maxBytes)
    (sizes : ∀ bytes, Read.got bytes ∈ reads → bytes.length ≤ httpreadReadbufSize)
    {hdr rest : Bytes} (short : rest.length ≤ httpreadReadbufSize)
    (outside : Along Reader.next OutsideTrailer
      ((Httpread.complete maxBytes hdr).finishHdr rest).reader reads)
    (ready : run Reader.next ((Httpread.complete maxBytes hdr).finishHdr rest).reader reads =
      .ready f) :
    Delivers maxBytes (driveRest (.complete maxBytes hdr) (rest ++ received reads)) f := by
  unfold finishHdr at ready outside
  unfold driveRest
  cases analyzed : hdrAnalyze (.complete maxBytes hdr) with
  | none =>
    rw [analyzed] at ready
    exact (not_ready (Or.inl rfl) ready).elim
  | some h =>
    rw [analyzed] at ready outside
    have opened := opened_of_accepted analyzed
    dsimp only at ready outside ⊢
    by_cases none : h.maxBytes = 0
    · rw [if_pos none] at ready ⊢
      exact delivers_file nonneg opened.fresh.body ready
    rw [if_neg none] at ready outside ⊢
    by_cases zero : h.gotContentLength = true ∧ h.contentLength = 0
    · rw [if_pos zero] at ready ⊢
      exact delivers_file nonneg opened.fresh.body ready
    rw [if_neg zero] at ready outside ⊢
    by_cases bodyless : h.isBodyless = true
    · rw [readBody, if_pos bodyless] at ready
      rw [driveBody, if_pos bodyless]
      exact delivers_file nonneg opened.fresh.body ready
    have wanted : h.WantsBody := ⟨none, by simpa using bodyless⟩
    have inBody := opened.inBody wanted
    have bounded : h.Bounded maxBytes := by
      have nothing := opened.fresh.bodyAllocNbytes
      refine ⟨(opened.positive nonneg wanted).1, ?_, ?_, ?_, Or.inl opened.fresh.body⟩
      · exact Int.le_of_eq nothing.symm
      · rw [nothing]
        exact Int.dvd_zero _
      · rw [nothing, roomFor, httpreadBodybufDelta]
        omega
    by_cases empty : rest = []
    · subst empty
      have waits : readBody [] h = .more h := by rw [readBody, if_neg bodyless, if_pos rfl]
      rw [waits] at ready outside
      exact run_body nonneg sizes inBody (fun _ => bounded) outside ready
    · -- the rest of this read is as good as a read of its own
      have first : Reader.next (.reading h) (.got rest) = (readBody rest h).reader := by
        show (httpreadReadHandler h (.got rest)).reader = _
        rw [httpreadReadHandler, if_neg empty, if_pos opened.gotHdr]
      have whole : received (.got rest :: reads) = rest ++ received reads := if_neg empty
      rw [← whole]
      apply run_body nonneg _ inBody (fun _ => bounded)
      · refine ⟨?_, by rw [first]; exact outside⟩
        cases rest with
        | nil => exact absurd rfl empty
        | cons c others => exact opened.fresh.inTrailer
      · rw [run_cons, first]
        exact ready
      · intro bytes member
        rcases mem_cons.mp member with same | member
        · cases same
          exact short
        · exact sizes bytes member

theorem run_reads (nonneg : 0 ≤ maxBytes)
    (sizes : ∀ bytes, Read.got bytes ∈ reads → bytes.length ≤ httpreadReadbufSize)
    {front : Bytes}
    (outside : Along Reader.next OutsideTrailer (.reading (.reads maxBytes front)) reads)
    (ready : run Reader.next (.reading (.reads maxBytes front)) reads = .ready f) :
    Delivers maxBytes (drive (received reads) (.reads maxBytes front)) f := by
  induction reads generalizing front with
  | nil => cases ready
  | cons read rest ih =>
    have later : ∀ bytes, Read.got bytes ∈ rest → bytes.length ≤ httpreadReadbufSize := by
      intro bytes member
      exact sizes bytes (mem_cons_of_mem _ member)
    obtain ⟨-, along⟩ := outside
    rw [run_cons] at ready
    cases read with
    | failed => exact (not_ready (Or.inl rfl) ready).elim
    | got bytes =>
      by_cases empty : bytes = []
      · subst empty
        exact (not_ready (Or.inl rfl) ready).elim
      have handler : Reader.next (.reading (.reads maxBytes front)) (.got bytes) =
          (readHdr bytes (.reads maxBytes front)).reader := by
        show (httpreadReadHandler _ (.got bytes)).reader = _
        rw [httpreadReadHandler, if_neg empty, if_neg (by simp [Httpread.reads, httpreadCreate])]
      rw [handler, readHdr] at ready along
      have whole : received (.got bytes :: rest) = bytes ++ received rest := if_neg empty
      rw [whole]
      have begins : ¬ (Httpread.reads maxBytes front).gotHdr = true := by
        simp [Httpread.reads, httpreadCreate]
      rw [drive, if_neg begins, collectHdr_append]
      rcases collectHdr_reads bytes front with more | full | ⟨hdr, others, complete, length⟩
      · rw [more] at ready along ⊢
        exact ih later along ready
      · rw [full] at ready
        exact (not_ready (Or.inl rfl) ready).elim
      · rw [complete] at ready along ⊢
        have short := sizes bytes mem_cons_self
        exact run_finish nonneg later (by omega) along ready

theorem received_append_eof (reads : List Read) :
    received (reads ++ [.got []]) = received reads := by
  induction reads with
  | nil => rfl
  | cons read rest ih =>
    cases read with
    | failed => rfl
    | got bytes =>
      show (if bytes = [] then [] else bytes ++ received (rest ++ [.got []])) = _
      rw [ih]
      rfl

theorem next_eof_not_reading (reader : Reader) (h : Httpread) :
    reader.next (.got []) ≠ .reading h := by
  intro reading
  cases reader with
  | reading before =>
    have ends : before.readEof.reader = .reading h := reading
    unfold readEof at ends
    split at ends
    · cases ends
    split at ends <;> cases ends
  | ready before => cases reading
  | error => cases reading
  | undefined => cases reading

/-- The limit is kept, and what is larger is refused in any cuts, if the length of a body that
is too large is not in the header and not below the bound of the buffer, and no read begins
inside a trailer. -/
theorem limit_enforced {maxBytes : Int} (nonneg : 0 ≤ maxBytes) {reads : List Read}
    (sizes : ∀ bytes, Read.got bytes ∈ reads → bytes.length ≤ httpreadReadbufSize)
    (outside : Along Reader.next OutsideTrailer (.reading (httpreadCreate maxBytes)) reads)
    (apart : ∀ h, carried maxBytes (received reads) = some h → (h.body.length : Int) ≤ maxBytes ∨
      (h.gotContentLength = false ∧ roomFor maxBytes ≤ h.body.length)) :
    (∀ f, run Reader.next (.reading (httpreadCreate maxBytes)) reads = .ready f →
      (f.body.length : Int) ≤ maxBytes) ∧
    ∀ h, carried maxBytes (received reads) = some h → maxBytes < h.body.length →
      run Reader.next (.reading (httpreadCreate maxBytes)) (reads ++ [.got []]) = .error ∨
      run Reader.next (.reading (httpreadCreate maxBytes)) (reads ++ [.got []]) = .undefined := by
  have kept : ∀ {file f : Httpread}, carried maxBytes (received reads) = some file →
      f.body = file.body → f.gotContentLength = file.gotContentLength →
      (f.gotContentLength = false → (f.body.length : Int) < roomFor maxBytes) →
      (f.body.length : Int) ≤ maxBytes := by
    intro file f carries body known bound
    rcases apart file carries with small | ⟨unknown, large⟩
    · rw [body]
      exact small
    · have below := bound (known.trans unknown)
      rw [body] at below
      omega
  constructor
  · intro f ready
    obtain ⟨file, carries, body, known, bound⟩ := run_reads nonneg sizes outside ready
    exact kept carries body known bound
  · intro h oversized larger
    cases ended : run Reader.next (.reading (httpreadCreate maxBytes)) (reads ++ [.got []]) with
    | reading after =>
      rw [run_append] at ended
      exact absurd ended (next_eof_not_reading _ after)
    | ready f =>
      have whole : ∀ bytes, Read.got bytes ∈ reads ++ [.got []] →
          bytes.length ≤ httpreadReadbufSize := by
        intro bytes member
        rcases mem_append.mp member with member | last
        · exact sizes bytes member
        · cases mem_singleton.mp last
          exact Nat.zero_le _
      have along : Along Reader.next OutsideTrailer (.reading (httpreadCreate maxBytes))
          (reads ++ [.got []]) := by
        refine outside.append ⟨?_, True.intro⟩
        cases run Reader.next (.reading (httpreadCreate maxBytes)) reads <;> exact True.intro
      obtain ⟨file, carries, body, known, bound⟩ := run_reads nonneg whole along ended
      rw [received_append_eof] at carries
      have small := kept carries body known bound
      have same : some h = some file := oversized.symm.trans carries
      cases same
      rw [body] at small
      omega
    | error => exact Or.inl rfl
    | undefined => exact Or.inr rfl

def helloReply : Bytes :=
  letters "HTTP/1.1 200 OK\r\nContent-Length: 5\r\n\r\nhello"

theorem limit_enforced_hello :
    ∃ f, run Reader.next (.reading (httpreadCreate 5))
        [.got (helloReply.take 20), .got (helloReply.drop 20)] = .ready f ∧
      (f.body.length : Int) ≤ 5 := by
  have found : ∃ f, run Reader.next (.reading (httpreadCreate 5))
      [.got (helloReply.take 20), .got (helloReply.drop 20)] = .ready f := by
    refine ⟨((carried 5 helloReply).getD (httpreadCreate 0)).setAlloc 4096, ?_⟩
    decide
  obtain ⟨f, ready⟩ := found
  refine ⟨f, ready, (@limit_enforced 5 (by decide) _ ?_ ?_ ?_).1 f ready⟩
  · intro bytes member
    simp only [mem_cons, Read.got.injEq, not_mem_nil, or_false] at member
    rcases member with rfl | rfl
    · decide
    · decide
  · decide
  · intro h carries
    have known : carried 5 helloReply = some ((carried 5 helloReply).getD (httpreadCreate 0)) := by
      decide
    have same : some ((carried 5 helloReply).getD (httpreadCreate 0)) = some h := by
      rw [← known]
      exact carries
    cases same
    exact Or.inl (by decide)

/-- With the length in the header five bytes pass a limit of four. -/
theorem hello_passes_limit :
    ¬ ∀ (maxBytes : Int) (reads : List Read), 0 ≤ maxBytes →
        (∀ bytes, Read.got bytes ∈ reads → bytes.length ≤ httpreadReadbufSize) →
        (∀ f, run Reader.next (.reading (httpreadCreate maxBytes)) reads = .ready f →
          (f.body.length : Int) ≤ maxBytes) ∧
        ∀ others : List Read,
          (∀ bytes, Read.got bytes ∈ others → bytes.length ≤ httpreadReadbufSize) →
          received others = received reads →
          ∀ h, carried maxBytes (received reads) = some h → maxBytes < h.body.length →
          ((∃ f, run Reader.next (.reading (httpreadCreate maxBytes)) (reads ++ [.got []]) =
              .ready f) ↔
            ∃ f, run Reader.next (.reading (httpreadCreate maxBytes)) (others ++ [.got []]) =
              .ready f) := by
  intro all
  have limited := (all 4 [.got helloReply] (by decide) (by
    intro bytes member
    cases mem_singleton.mp member
    decide)).1 (((carried 4 helloReply).getD (httpreadCreate 0)).setAlloc 4096)
    (by decide)
  exact absurd limited (by decide)

end AthApps.Http
