import AthApps.Wapi.Asue

/-!
# Fragments of a frame

`iwn_wpa_defrag` of `wapi.c`, with the buffer in which the supplicant puts the
fragments of a WAI frame together, and `WAI_RX_wai` of `interface.c`, which
passes the frame on.  The buffer has `PAGE_LEN` bytes, zero at first, and the
memory for it is there.

What is left in the buffer makes the difference.  An unfragmented frame is
passed on only if there is no buffer: otherwise the supplicant makes a new one,
copies nothing to it, and looks at that.  A fragment has to find room for its
head too, although the head is not copied.
-/

set_option autoImplicit false

namespace AthApps.Wapi

open AthApps.Lib List

/-- `struct wapi_rxfrag`; `data` is the memory, `dataLen` bytes of it are filled. -/
structure RxFrag where
  data : Bytes
  dataLen : Nat
  maxlen : Nat
  deriving DecidableEq

def RxFrag.content (frag : RxFrag) : Bytes := frag.data.take frag.dataLen

def pageLen : Nat := 4096

def mallocRxfrag (maxlen : Nat) : RxFrag := ⟨List.replicate maxlen 0, 0, maxlen⟩

def wpaPutFrag (frag : RxFrag) (bytes : Bytes) : RxFrag :=
  let dataLen := frag.dataLen + bytes.length
  { frag with
    data := overlay (overlay frag.data frag.dataLen bytes) 6 (word dataLen)
    dataLen := dataLen }

/-- A later fragment goes behind the earlier ones, and the head gets its numbers. -/
def RxFrag.append (frag : RxFrag) (frame : Bytes) : RxFrag :=
  let frag := wpaPutFrag frag (frame.drop headLen)
  { frag with data := overlay (overlay frag.data 8 (slice frame 8 2)) 10 [byteAt frame 10] }

def RxFrag.expects (frag : RxFrag) (frame : Bytes) : Bool :=
  readWord frame 8 == readWord frag.data 8 &&
    (byteAt frame 10).toNat == (byteAt frag.data 10).toNat + 1 &&
    frame.length ≤ frag.maxlen - frag.dataLen

def iwnWpaDefrag (rxfrag : Option RxFrag) (frame : Bytes) :
    Option RxFrag × Option Bytes :=
  let more := byteAt frame 11 != 0
  let first := byteAt frame 10 == 0
  if more = false ∧ first ∧ rxfrag = none then
    (rxfrag, some frame)
  else
    let rxfrag :=
      match rxfrag.filter fun frag => frag.expects frame with
      | none =>
        if first then
          let fresh := mallocRxfrag pageLen
          some (if more then wpaPutFrag fresh frame else fresh)
        else
          none
      | some frag => some (frag.append frame)
    (rxfrag, if more then none else rxfrag.map RxFrag.content)

/-- The frames that are passed on while fragments come in. -/
def feed : Option RxFrag → List Bytes → List (Option Bytes)
  | _, [] => []
  | rxfrag, frame :: rest =>
    (iwnWpaDefrag rxfrag frame).2 :: feed (iwnWpaDefrag rxfrag frame).1 rest

structure Unfragmented (frame : Bytes) : Prop where
  head : headLen ≤ frame.length
  number : byteAt frame 10 = 0
  last : byteAt frame 11 = 0

variable {frame : Bytes} {sequence number : Nat}

theorem RxFrag.expects_first (frag : RxFrag) (number : byteAt frame 10 = 0) :
    frag.expects frame = false := by
  have differ : ((byteAt frame 10).toNat == (byteAt frag.data 10).toNat + 1) = false := by
    rw [number]
    simp
  simp [RxFrag.expects, differ]

theorem Unfragmented.defrag_none (unfragmented : Unfragmented frame) :
    iwnWpaDefrag none frame = (none, some frame) := by
  simp [iwnWpaDefrag, unfragmented.number, unfragmented.last]

theorem Unfragmented.defrag_some (unfragmented : Unfragmented frame)
    (frag : RxFrag) : iwnWpaDefrag (some frag) frame = (some (mallocRxfrag pageLen), some []) := by
  simp [iwnWpaDefrag, unfragmented.number, unfragmented.last,
    Option.filter, frag.expects_first unfragmented.number, RxFrag.content, mallocRxfrag]

theorem Unfragmented.delivered_iff (unfragmented : Unfragmented frame)
    (rxfrag : Option RxFrag) : (iwnWpaDefrag rxfrag frame).2 = some frame ↔ rxfrag = none := by
  cases rxfrag with
  | none => simp [unfragmented.defrag_none]
  | some frag =>
    have long := unfragmented.head
    rw [unfragmented.defrag_some]
    simp only [Option.some.injEq, reduceCtorEq, iff_false]
    rintro rfl
    simp [headLen] at long

/-- Fragments with the numbers `number`, `number + 1` and so on; all but the last of them
announce more. -/
def Numbered (sequence : Nat) : Nat → List Bytes → Prop
  | _, [] => True
  | number, frame :: rest =>
    headLen ≤ frame.length ∧ readWord frame 8 = sequence ∧
      (byteAt frame 10).toNat = number ∧ (byteAt frame 11 ≠ 0 ↔ rest ≠ []) ∧
      Numbered sequence (number + 1) rest

def payloadOf (fragments : List Bytes) : Bytes := fragments.flatMap (·.drop headLen)

/-- The fragments of a frame of at most `PAGE_LEN` bytes; a frame in one piece has its
length in the length field. -/
structure CutFrame (fragments : List Bytes) : Prop where
  pieces : fragments ≠ []
  numbered : ∃ sequence, Numbered sequence 0 fragments
  whole : ∀ frame, fragments = [frame] → readWord frame 6 = frame.length
  fits : headLen + (payloadOf fragments).length ≤ pageLen

/-- The last fragment brings the frame, and no other one brings anything. -/
def DeliversOnce (delivered : List (Option Bytes)) (payload : Bytes) : Prop :=
  ∃ head : Bytes, head.length = headLen ∧ readWord head 6 = headLen + payload.length ∧
    delivered = List.replicate (delivered.length - 1) none ++ [some (head ++ payload)]

/-- What the buffer holds of a frame, up to the fragment `number`. -/
structure Holds (frag : RxFrag) (sequence number : Nat) (payload : Bytes) : Prop where
  memory : ∃ head rest : Bytes, frag.data = head ++ payload ++ rest ∧
    head.length = headLen ∧ readWord head 6 = headLen + payload.length ∧
    readWord head 8 = sequence ∧ (byteAt head 10).toNat = number ∧
    headLen + payload.length + rest.length = pageLen
  dataLen : frag.dataLen = headLen + payload.length
  maxlen : frag.maxlen = pageLen

variable {fragments : List Bytes} {offset index : Nat} {bytes data : Bytes}
  {frag : RxFrag}

theorem byteAt_overlay_inside (low : offset ≤ index) (high : index < offset + data.length) :
    byteAt (overlay bytes offset data) index = byteAt data (index - offset) := by
  simp only [byteAt, getD_eq_getElem?_getD, overlay_getElem?_inside bytes offset data index low high]

theorem byteAt_overlay_outside (inside : offset + data.length ≤ bytes.length)
    (outside : index < offset ∨ offset + data.length ≤ index) :
    byteAt (overlay bytes offset data) index = byteAt bytes index := by
  simp only [byteAt, getD_eq_getElem?_getD,
    overlay_getElem?_outside bytes offset data index inside outside]

variable {head payload : Bytes}

theorem readWord_overlay_self {data : Bytes} {offset : Nat} (two : data.length = 2) :
    readWord (overlay head offset data) offset = readWord data 0 := by
  simp only [readWord]
  rw [byteAt_overlay_inside (by omega) (by omega), byteAt_overlay_inside (by omega) (by omega)]
  simp

theorem readWord_overlay_outside {data : Bytes} (inside : offset + data.length ≤ head.length)
    (outside : index + 1 < offset ∨ offset + data.length ≤ index) :
    readWord (overlay head offset data) index = readWord head index := by
  simp only [readWord]
  rw [byteAt_overlay_outside inside (by omega), byteAt_overlay_outside inside (by omega)]

theorem Holds.first {sequence : Nat} (long : headLen ≤ frame.length)
    (sequenced : readWord frame 8 = sequence) (number : (byteAt frame 10).toNat = 0)
    (fits : frame.length ≤ pageLen) :
    Holds (wpaPutFrag (mallocRxfrag pageLen) frame) sequence 0 (frame.drop headLen) := by
  obtain ⟨head, payload, rfl, exactly⟩ : ∃ head payload, frame = head ++ payload ∧
      head.length = headLen :=
    ⟨frame.take headLen, frame.drop headLen, (take_append_drop headLen frame).symm, by simp [long]⟩
  have twelve : headLen = 12 := rfl
  have page : pageLen = 4096 := rfl
  have lengths : (head ++ payload).length = headLen + payload.length := by
    rw [length_append, exactly]
  have room : 6 + (word (headLen + payload.length)).length ≤ head.length := by
    rw [word_length]
    omega
  rw [drop_left' exactly]
  refine ⟨⟨overlay head 6 (word (headLen + payload.length)),
    (List.replicate pageLen 0).drop (head ++ payload).length, ?_, ?_, ?_, ?_, ?_, ?_⟩, ?_, rfl⟩
  · have behind := overlay_append_right [] (List.replicate pageLen 0) (head ++ payload)
    simp only [nil_append, length_nil] at behind
    simp only [wpaPutFrag, mallocRxfrag, Nat.zero_add, behind, lengths]
    rw [append_assoc head, overlay_append_left _ _ _ _ room, append_assoc]
  · rw [overlay_length_of_le _ _ _ room, exactly]
  · rw [readWord_overlay_self (word_length _), readWord_word (by omega)]
  · rw [readWord_overlay_outside room (by rw [word_length]; omega), ← sequenced,
      readWord_append_left _ (by omega)]
  · rw [byteAt_overlay_outside room (by rw [word_length]; omega), ← number,
      byteAt_append_left _ (by omega)]
  · rw [length_drop, length_replicate]
    omega
  · simp [wpaPutFrag, mallocRxfrag, exactly]

/-- The head after a later fragment was added. -/
def nextHead (head frame : Bytes) (dataLen : Nat) : Bytes :=
  overlay (overlay (overlay head 6 (word dataLen)) 8 (slice frame 8 2)) 10 [byteAt frame 10]

theorem nextHead_fields {frame : Bytes} (exactly : head.length = headLen)
    (long : headLen ≤ frame.length) {dataLen : Nat} (small : dataLen < 65536) :
    (nextHead head frame dataLen).length = headLen ∧
      readWord (nextHead head frame dataLen) 6 = dataLen ∧
      readWord (nextHead head frame dataLen) 8 = readWord frame 8 ∧
      byteAt (nextHead head frame dataLen) 10 = byteAt frame 10 := by
  have twelve : headLen = 12 := rfl
  have two : (slice frame 8 2).length = 2 := slice_length_of_le _ _ _ (by omega)
  have sized : (overlay head 6 (word dataLen)).length = headLen := by
    rw [overlay_length_of_le _ _ _ (by rw [word_length]; omega), exactly]
  have sequenced : (overlay (overlay head 6 (word dataLen)) 8 (slice frame 8 2)).length =
      headLen := by
    rw [overlay_length_of_le _ _ _ (by rw [two]; omega), sized]
  have last : 10 + [byteAt frame 10].length ≤
      (overlay (overlay head 6 (word dataLen)) 8 (slice frame 8 2)).length := by
    rw [length_singleton]
    omega
  refine ⟨?_, ?_, ?_, ?_⟩
  · rw [nextHead, overlay_length_of_le _ _ _ last, sequenced]
  · rw [nextHead, readWord_overlay_outside last (by omega),
      readWord_overlay_outside (by rw [two]; omega) (by omega),
      readWord_overlay_self (word_length _), readWord_word small]
  · have copied : readWord (slice frame 8 2) 0 = readWord frame 8 := by
      simp [readWord, byteAt, slice_getElem?]
    rw [nextHead, readWord_overlay_outside last (by omega), readWord_overlay_self two, copied]
  · rw [nextHead, byteAt_overlay_inside (by omega) (by rw [length_singleton]; omega)]
    rfl

theorem Holds.next {frag : RxFrag} {sequence number : Nat} {payload frame : Bytes}
    (holds : Holds frag sequence number payload) (long : headLen ≤ frame.length)
    (sequenced : readWord frame 8 = sequence) (numbered : (byteAt frame 10).toNat = number + 1)
    (fits : headLen + payload.length + frame.length ≤ pageLen) :
    Holds (frag.append frame) sequence (number + 1) (payload ++ frame.drop headLen) := by
  obtain ⟨⟨head, rest, memory, exactly, -, -, -, total⟩, dataLen, maxlen⟩ := holds
  have twelve : headLen = 12 := rfl
  have page : pageLen = 4096 := rfl
  have more : (frame.drop headLen).length = frame.length - headLen := length_drop
  obtain ⟨sized, lengthField, sequenceField, numberField⟩ :=
    nextHead_fields exactly long (by omega : frag.dataLen + (frame.drop headLen).length < 65536)
  refine ⟨⟨nextHead head frame (frag.dataLen + (frame.drop headLen).length),
    rest.drop (frame.drop headLen).length, ?_, sized, ?_, ?_, ?_, ?_⟩, ?_, maxlen⟩
  · have front : frag.dataLen = (head ++ payload).length := by
      rw [dataLen, length_append, exactly]
    have behind : overlay frag.data frag.dataLen (frame.drop headLen) =
        head ++ (payload ++ frame.drop headLen ++ rest.drop (frame.drop headLen).length) := by
      rw [memory, front, overlay_append_right]
      simp only [append_assoc]
    have inHead : 6 + (word (frag.dataLen + (frame.drop headLen).length)).length ≤ head.length := by
      rw [word_length]
      omega
    have two : (slice frame 8 2).length = 2 := slice_length_of_le _ _ _ (by omega)
    have kept : (overlay head 6 (word (frag.dataLen + (frame.drop headLen).length))).length =
        head.length := overlay_length_of_le _ _ _ inHead
    simp only [RxFrag.append, wpaPutFrag, behind, nextHead]
    rw [overlay_append_left _ _ _ _ inHead, overlay_append_left _ _ _ _ (by rw [two]; omega),
      overlay_append_left _ _ _ _ (by
        rw [overlay_length_of_le _ _ _ (by rw [two]; omega), length_singleton]
        omega)]
    simp only [append_assoc]
  · rw [lengthField, length_append]
    omega
  · rw [sequenceField, sequenced]
  · rw [numberField, numbered]
  · simp only [length_append, length_drop]
    omega
  · simp only [RxFrag.append, wpaPutFrag, length_append]
    omega

theorem Holds.expects_iff {frame : Bytes} (holds : Holds frag sequence number payload)
    (sequenced : readWord frame 8 = sequence) (numbered : (byteAt frame 10).toNat = number + 1) :
    frag.expects frame = true ↔ headLen + payload.length + frame.length ≤ pageLen := by
  obtain ⟨⟨head, rest, memory, exactly, -, sameSequence, sameNumber, total⟩, dataLen, maxlen⟩ :=
    holds
  have twelve : headLen = 12 := rfl
  have sequenceField : readWord frag.data 8 = sequence := by
    rw [memory, append_assoc, readWord_append_left _ (by omega), sameSequence]
  have numberField : (byteAt frag.data 10).toNat = number := by
    rw [memory, append_assoc, byteAt_append_left _ (by omega), sameNumber]
  simp only [RxFrag.expects, sequenced, sequenceField, numbered, numberField, beq_self_eq_true,
    Bool.true_and, decide_eq_true_eq, maxlen, dataLen]
  omega

theorem Holds.content (holds : Holds frag sequence number payload) :
    ∃ head : Bytes, head.length = headLen ∧
      readWord head 6 = headLen + payload.length ∧ frag.content = head ++ payload := by
  obtain ⟨⟨head, rest, memory, exactly, lengthField, -, -, -⟩, dataLen, -⟩ := holds
  refine ⟨head, exactly, lengthField, ?_⟩
  rw [RxFrag.content, memory, dataLen, ← exactly, ← length_append, take_left]

theorem defrag_later {number : Nat}
    (numbered : (byteAt frame 10).toNat = number + 1) (rxfrag : Option RxFrag) :
    iwnWpaDefrag rxfrag frame =
      let held := (rxfrag.filter fun frag => frag.expects frame).map (·.append frame)
      (held, if byteAt frame 11 ≠ 0 then none else held.map RxFrag.content) := by
  have later : (byteAt frame 10 == 0) = false := by
    apply beq_false_of_ne
    intro zero
    rw [zero] at numbered
    simp at numbered
  simp only [iwnWpaDefrag, later]
  cases rxfrag.filter fun frag => frag.expects frame with
  | none => simp
  | some frag => simp

theorem feed_lost (numbered : Numbered sequence (number + 1) fragments) :
    feed none fragments = List.replicate fragments.length none := by
  induction fragments generalizing number with
  | nil => rfl
  | cons frame rest ih =>
    obtain ⟨-, -, numberHere, -, later⟩ := numbered
    simp only [feed, defrag_later numberHere]
    simp [ih later, replicate_succ]

theorem payloadOf_cons (frame : Bytes) (rest : List Bytes) :
    payloadOf (frame :: rest) = frame.drop headLen ++ payloadOf rest := rfl

theorem feed_later (pieces : fragments ≠ []) (holds : Holds frag sequence number payload)
    (numbered : Numbered sequence (number + 1) fragments) :
    if 2 * headLen + (payload ++ payloadOf fragments).length ≤ pageLen then
      ∃ head : Bytes, head.length = headLen ∧
        readWord head 6 = headLen + (payload ++ payloadOf fragments).length ∧
        feed (some frag) fragments = List.replicate (fragments.length - 1) none ++
          [some (head ++ (payload ++ payloadOf fragments))]
    else
      feed (some frag) fragments = List.replicate fragments.length none := by
  -- along the fragments that are left; the buffer holds those that came before
  induction fragments generalizing number frag payload with
  | nil => exact absurd rfl pieces
  | cons frame rest ih =>
    obtain ⟨long, sequenced, numberHere, more, later⟩ := numbered
    have twelve : headLen = 12 := rfl
    have expected := holds.expects_iff sequenced numberHere
    have spread : (payload ++ payloadOf (frame :: rest)).length + headLen =
        payload.length + frame.length + (payloadOf rest).length := by
      rw [payloadOf_cons, length_append, length_append, length_drop]
      omega
    simp only [feed, defrag_later numberHere]
    by_cases fits : headLen + payload.length + frame.length ≤ pageLen
    · have holdsNext := holds.next long sequenced numberHere fits
      simp only [Option.filter, expected.mpr fits, if_true, Option.map_some]
      by_cases last : rest = []
      · subst last
        have noMore : byteAt frame 11 = 0 := by
          by_contra still
          exact more.mp still rfl
        obtain ⟨head, exactly, lengthField, content⟩ := holdsNext.content
        rw [if_pos (by simp [payloadOf] at spread ⊢; omega)]
        refine ⟨head, exactly, ?_, ?_⟩
        · simpa [payloadOf] using lengthField
        · simp [feed, noMore, content, payloadOf]
      · rw [if_pos (more.mpr last)]
        have whole := ih last holdsNext later
        rw [append_assoc, ← payloadOf_cons] at whole
        split
        · rename_i room
          rw [if_pos room] at whole
          obtain ⟨head, exactly, lengthField, fed⟩ := whole
          refine ⟨head, exactly, lengthField, ?_⟩
          obtain ⟨count, counted⟩ : ∃ count, rest.length = count + 1 :=
            Nat.exists_eq_succ_of_ne_zero (by simpa using last)
          simp [fed, counted, replicate_succ]
        · rename_i room
          rw [if_neg room] at whole
          simp [whole, replicate_succ]
    · have dropped : frag.expects frame = false := by
        rw [Bool.eq_false_iff]
        exact fun kept => fits (expected.mp kept)
      rw [if_neg (by omega)]
      simp [dropped, Option.filter, feed_lost later, replicate_succ]

theorem defrag_first {frame : Bytes} (number : byteAt frame 10 = 0)
    (more : byteAt frame 11 ≠ 0) (rxfrag : Option RxFrag) :
    iwnWpaDefrag rxfrag frame = (some (wpaPutFrag (mallocRxfrag pageLen) frame), none) := by
  have unrelated : rxfrag.filter (fun frag => frag.expects frame) = none := by
    cases rxfrag with
    | none => rfl
    | some frag => simp [Option.filter, frag.expects_first number]
  simp [iwnWpaDefrag, number, more, unrelated]

theorem not_deliversOnce_replicate (count : Nat) (payload : Bytes) :
    ¬ DeliversOnce (List.replicate count none) payload := by
  rintro ⟨head, -, -, delivered⟩
  have member : some (head ++ payload) ∈ List.replicate count none := by
    rw [delivered]
    simp
  simp at member

theorem feed_length (rxfrag : Option RxFrag) (fragments : List Bytes) :
    (feed rxfrag fragments).length = fragments.length := by
  induction fragments generalizing rxfrag with
  | nil => rfl
  | cons frame rest ih => simp [feed, ih]

theorem CutFrame.single_iff (cut : CutFrame [frame]) (rxfrag : Option RxFrag) :
    DeliversOnce (feed rxfrag [frame]) (payloadOf [frame]) ↔ rxfrag = none := by
  obtain ⟨sequence, long, -, number, more, -⟩ := cut.numbered
  have unfragmented : Unfragmented frame :=
    ⟨long, UInt8.toNat_inj.mp (by simpa using number), by
      by_contra still
      exact more.mp still rfl⟩
  have joined : frame.take headLen ++ payloadOf [frame] = frame := by simp [payloadOf]
  have exactly : (frame.take headLen).length = headLen := by simp [long]
  constructor
  · rintro ⟨head, headed, -, delivered⟩
    rw [← unfragmented.delivered_iff rxfrag]
    cases rxfrag with
    | none => simp [unfragmented.defrag_none]
    | some frag =>
      simp [feed, unfragmented.defrag_some] at delivered
      simp [delivered.1, headLen] at headed
  · rintro rfl
    refine ⟨frame.take headLen, exactly, ?_, ?_⟩
    · have lengthField := cut.whole frame rfl
      have same : readWord (frame.take headLen) 6 = readWord frame 6 := by
        conv_rhs => rw [← joined]
        rw [readWord_append_left _ (by rw [exactly, headLen]; omega)]
      rw [same, lengthField]
      conv_lhs => rw [← joined]
      rw [length_append, exactly]
    · simp [feed, unfragmented.defrag_none, joined]

theorem CutFrame.several_iff {first : Bytes} {rest : List Bytes} (several : rest ≠ [])
    (cut : CutFrame (first :: rest)) (rxfrag : Option RxFrag) :
    DeliversOnce (feed rxfrag (first :: rest)) (payloadOf (first :: rest)) ↔
      2 * headLen + (payloadOf (first :: rest)).length ≤ pageLen := by
  obtain ⟨sequence, long, sequenced, number, more, later⟩ := cut.numbered
  have twelve : headLen = 12 := rfl
  have fits := cut.fits
  have small : first.length ≤ pageLen := by
    rw [payloadOf_cons, length_append, length_drop] at fits
    omega
  have zero : byteAt first 10 = 0 := UInt8.toNat_inj.mp (by simpa using number)
  have holds := Holds.first long sequenced number small
  have fed := feed_later several holds later
  rw [← payloadOf_cons] at fed
  have started : feed rxfrag (first :: rest) =
      none :: feed (some (wpaPutFrag (mallocRxfrag pageLen) first)) rest := by
    simp only [feed, defrag_first zero (more.mpr several)]
  split at fed
  · rename_i room
    obtain ⟨head, exactly, lengthField, delivered⟩ := fed
    refine ⟨fun _ => room, fun _ => ⟨head, exactly, lengthField, ?_⟩⟩
    obtain ⟨count, counted⟩ : ∃ count, rest.length = count + 1 :=
      Nat.exists_eq_succ_of_ne_zero (by simpa using several)
    rw [feed_length, started, delivered]
    simp [counted, replicate_succ]
  · rename_i room
    refine ⟨fun delivers => ?_, fun fits => absurd fits room⟩
    rw [started, fed, ← replicate_succ] at delivers
    exact absurd delivers (not_deliversOnce_replicate _ _)

/-- An unfragmented frame is passed on unchanged exactly if no buffer is left, and a frame
in several pieces is put together exactly if it leaves room for one more head. -/
theorem defrag_delivers_iff (rxfrag : Option RxFrag) : (∀ frame, Unfragmented frame →
      ((iwnWpaDefrag rxfrag frame).2 = some frame ↔ rxfrag = none)) ∧
    (∀ fragments, CutFrame fragments → (DeliversOnce (feed rxfrag fragments) (payloadOf fragments) ↔
        if fragments.length = 1 then rxfrag = none
        else 2 * headLen + (payloadOf fragments).length ≤ pageLen)) := by
  refine ⟨fun frame unfragmented => unfragmented.delivered_iff rxfrag, ?_⟩
  intro fragments cut
  match fragments, cut with
  | [], cut => exact absurd rfl cut.pieces
  | [frame], cut => simpa using cut.single_iff rxfrag
  | first :: second :: rest, cut =>
    rw [if_neg (by simp)]
    exact cut.several_iff (cons_ne_nil _ _) rxfrag

/-- A head of version 1, type WAI, for a request of a unicast key negotiation. -/
def uskRequestHead (length : Nat) (number more : UInt8) : Bytes :=
  [0, 1, 1, 8, 0, 0] ++ word length ++ [0, 1, number, more]

def twoPieces (size : Nat) : List Bytes :=
  [uskRequestHead (headLen + size) 0 1 ++ List.replicate size 7,
    uskRequestHead (headLen + size) 1 0 ++ List.replicate size 7]

theorem twoPieces_payload (size : Nat) : (payloadOf (twoPieces size)).length = 2 * size := by
  simp [payloadOf, twoPieces, uskRequestHead, word, Sha256.bigEndian, headLen]
  omega

theorem twoPieces_cut {size : Nat} (small : headLen + 2 * size ≤ pageLen) :
    CutFrame (twoPieces size) := by
  refine ⟨cons_ne_nil _ _, ⟨1, ?_⟩, ?_, ?_⟩
  · simp [twoPieces, Numbered, uskRequestHead, word, Sha256.bigEndian, headLen, readWord, byteAt]
  · intro frame single
    simp [twoPieces] at single
  · rw [twoPieces_payload]
    exact small

theorem defrag_delivers_pieces :
    (iwnWpaDefrag none (uskRequestHead 12 0 0)).2 = some (uskRequestHead 12 0 0) ∧
      DeliversOnce (feed none (twoPieces 4)) (payloadOf (twoPieces 4)) :=
  ⟨((defrag_delivers_iff none).1 _ ⟨by decide, rfl, rfl⟩).mpr rfl,
    ((defrag_delivers_iff none).2 _ (twoPieces_cut (by decide))).mpr (by decide)⟩

/-- The first fragment of a frame that never comes to its end is followed by a frame in
one piece; and a frame of 4092 bytes comes in two pieces. -/
theorem defrag_loses_frames : (Unfragmented (uskRequestHead 12 0 0) ∧
      (iwnWpaDefrag (iwnWpaDefrag none (uskRequestHead 12 0 1)).1 (uskRequestHead 12 0 0)).2 ≠
        some (uskRequestHead 12 0 0)) ∧
    (CutFrame (twoPieces 2040) ∧
      ¬ DeliversOnce (feed none (twoPieces 2040)) (payloadOf (twoPieces 2040))) := by
  refine ⟨⟨⟨by decide, rfl, rfl⟩, ?_⟩, twoPieces_cut (by decide), ?_⟩
  · have left := @defrag_first (uskRequestHead 12 0 1) rfl (by decide) none
    rw [left, Unfragmented.defrag_some ⟨by decide, rfl, rfl⟩]
    decide
  · have cut := twoPieces_cut (by decide : headLen + 2 * 2040 ≤ pageLen)
    have several := cut.several_iff (cons_ne_nil _ _) none
    rw [← twoPieces] at several
    rw [several, twoPieces_payload]
    decide

end AthApps.Wapi
