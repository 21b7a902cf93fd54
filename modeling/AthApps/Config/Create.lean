import AthApps.Config.Update

/-!
# Creating the document of a file

The old file is gone through line by line, and every line goes to the section
it stands in: comments and empty lines to its end, values to where they belong.
What a line changes in the document is said once, by its kind.
-/

set_option autoImplicit false

namespace AthApps.Config

open AthApps.Lib List
open Function (update_of_ne update_self)

def nextPart (current : Option Bytes) (line : Bytes) : Option Bytes :=
  match kindOf line with
  | .close => none
  | .opens name => some (current.getD name)
  | _ => current

/-! ## Reading the old file -/

/-- A bound goes over the lines of a file that is in its buffer. -/
structure Reads (old : Session) (b : Nat) (file : Bytes) (last : Nat) : Prop where
  inner : b ≠ 0
  allocated : 0 < old.allocated
  root : old.bound 0 = some ⟨0, 0, file.length⟩
  cursor : ∃ first : Int, old.bound b = some ⟨0, first, last⟩
  live : ∀ i c, old.bound i = some c → i = 0 ∨ i = b
  buf : old.buf = file ++ [newline]

section Reading

variable {old : Session} {b : Nat} {file front back line : Bytes}

theorem Reads.nextLine {rest : Bytes} (reads : Reads old b file front.length)
    (split : file = front ++ rest) :
    ∃ after, old.configeditNextLine b = some (after, (Session.lineSize rest : Int)) ∧
      Reads after b file (front.length + Session.lineSize rest) ∧
      after.configeditPtr b = some (front.length : Int) ∧
      after.reads front.length = some (rest ++ [newline]) := by
  obtain ⟨first, cursor⟩ := reads.cursor
  have leaf : (old.freeChildren b).bound = old.bound := by
    apply freeChildren_leaf
    intro j k here inner child
    rcases reads.live j k here with zero | same
    · exact inner zero
    · subst same
      cases cursor.symm.trans here
      exact reads.inner child.symm
  obtain ⟨fuel, enough⟩ : ∃ fuel, old.allocated = fuel + 1 :=
    ⟨old.allocated - 1, by have := reads.allocated; omega⟩
  have bound : ∀ c : Bound, ((old.freeChildren b).setBound b c).bound =
      Function.update old.bound b (some c) := by
    intro c
    rw [Session.bound_setBound, leaf]
  have ptr : ∀ begin stop : Int, ((old.freeChildren b).setBound b
      ⟨0, begin, stop⟩).configeditPtr b = some begin := by
    intro begin stop
    rw [Session.configeditPtr, bound, update_self]
    simp only [Option.bind_eq_bind, Option.bind_some]
    rw [show ((old.freeChildren b).setBound b ⟨0, begin, stop⟩).allocated = fuel + 1 from enough,
      Session.offsetLoop, if_pos rfl]
  have read : ∀ c : Bound, ((old.freeChildren b).setBound b c).reads front.length =
      some (rest ++ [newline]) := by
    intro c
    refine @Session.reads_eq _ front _ _ ?_ rfl
    show old.buf = _
    rw [reads.buf, split, append_assoc]
  have size : (file.length : Int) = front.length + rest.length := by
    rw [split, length_append]
    omega
  refine ⟨(old.freeChildren b).setBound b
    ⟨0, front.length, front.length + Session.lineSize rest⟩, ?_, ?_, ptr _ _, read _⟩
  · rw [Session.configeditNextLine, cursor]
    simp only [Option.bind_eq_bind, Option.bind_some, reads.root, ptr, read]
    rw [if_neg]
    · have count : (Bound.size ⟨0, 0, (file.length : Int)⟩ - front.length).toNat = rest.length := by
        unfold Bound.size
        simp only
        omega
      rw [count, take_left, Session.setBound_setBound]
    · unfold Bound.size Session.bufSize
      show ¬ ((front.length : Int) + (((file.length : Int) - 0) - front.length) >
        (old.buf.length : Int))
      rw [reads.buf, length_append]
      omega
  · refine ⟨reads.inner, reads.allocated, ?_, ⟨front.length, ?_⟩, ?_, reads.buf⟩
    · rw [bound, update_of_ne (Ne.symm reads.inner), reads.root]
    · rw [bound, update_self]
      rfl
    · intro i c here
      rw [bound] at here
      by_cases same : i = b
      · exact Or.inr same
      · rw [update_of_ne same] at here
        exact reads.live i c here

theorem Reads.next (reads : Reads old b file front.length) (split : file = front ++ (line ++ back))
    (isLine : IsLine line) :
    ∃ after, old.configeditNextLine b = some (after, (line.length : Int)) ∧
      Reads after b file (front ++ line).length ∧
      endLine after b line.length = some (after, (line.length : Int)) ∧
      after.textAt b = some (line ++ (back ++ [newline])) := by
  obtain ⟨after, next, reads', ptr, read⟩ := reads.nextLine split
  rw [lineSize_line isLine] at next reads'
  rw [append_assoc] at read
  refine ⟨after, next, ?_, ?_, ?_⟩
  · rw [length_append]
    exact reads'
  · rw [endLine, ptr]
    simp only [Option.bind_eq_bind, Option.bind_some, read, Int.toNat_natCast, take_left]
    obtain ⟨before, rfl, -⟩ := isLine
    simp
  · rw [Session.textAt, ptr]
    exact read

theorem Reads.last (reads : Reads old b file front.length) (split : file = front ++ line)
    (none : newline ∉ line) :
    ∃ after after', old.configeditNextLine b = some (after, (line.length : Int)) ∧
      endLine after b line.length = some (after', (line.length : Int) + 1) ∧
      Reads after' b file file.length ∧ after'.textAt b = some (line ++ [newline]) := by
  have size : Session.lineSize line = line.length := by
    clear split
    induction line with
    | nil => rfl
    | cons c line ih =>
      simp only [mem_cons, not_or] at none
      rw [Session.lineSize, if_neg (Ne.symm none.1), ih none.2, length_cons]
  obtain ⟨after, next, reads', ptr, read⟩ := reads.nextLine split
  rw [size] at next reads'
  have total : front.length + line.length = file.length := by rw [split, length_append]
  have stores : after.store ((front.length : Int) + line.length) [newline] = some after := by
    rw [show (front.length : Int) + line.length = file.length by omega,
      @Session.store_eq after file [newline] [newline] file.length reads'.buf rfl (Nat.le_refl 1)]
    exact congrArg some (Session.setBuf_self (by rw [reads'.buf]; simp))
  refine ⟨after, after, next, ?_, by rw [← total]; exact reads', ?_⟩
  · rw [endLine, ptr]
    simp only [Option.bind_eq_bind, Option.bind_some, read, Int.toNat_natCast, take_left]
    rw [if_neg, stores]
    · rfl
    · intro ended
      exact none (mem_of_getLast? ended)
  · rw [Session.textAt, ptr]
    exact read

theorem Reads.atEnd (reads : Reads old b file file.length) :
    ∃ after, old.configeditNextLine b = some (after, 0) := by
  obtain ⟨after, next, -⟩ := @Reads.nextLine old b file file [] reads (by simp)
  exact ⟨after, next⟩

end Reading

/-! ## One line of the old file -/

def createKind (r : Rewrite) (current : Option Section) (text rest : Bytes) :
    Kind → Option (Rewrite × Option Section)
  | .marker => some (r, current)
  | .comment => do
      let r ← copyLine r (current.getD r.section0).bound current.isSome text
      some (r, current)
  | .blank => do
      let r ← copyLine r (current.getD r.section0).bound current.isSome text
      some (r, current)
  | .untagged => do
      let r ← commentLine r (current.getD r.section0).bound current.isSome text
      some (r, current)
  | .close => some (r, none)
  | .bare => some (r, current)
  | .opens _ =>
    match current with
    | some _ => do
        let r ← illegalLine r (current.getD r.section0).bound text
        some (r, current)
    | none => do
        let (r, x) ← configRewriteSectionFind r (text ++ rest)
        some (r, some x)
  | .assigns _ _ => do
      let r ← configRewriteLine r (text ++ rest) (current.map Section.name)
      some (r, current)

section Line

variable {r : Rewrite} {current : Option Section} {line rest : Bytes}

theorem isPrefixOf_marker {text : Bytes} (isLine : IsLine text) (rest : Bytes) :
    markerLine.isPrefixOf (text ++ rest) = decide (text = markerLine) := by
  apply Bool.eq_iff_iff.mpr
  rw [ isPrefixOf_iff_prefix, decide_eq_true_iff]
  constructor
  · rintro ⟨more, same⟩
    have size := lineSize_line isLine rest
    rw [← same, lineSize_line markerLine_isLine] at size
    have first := congrArg (List.take text.length) same
    rw [take_left, ← size, take_left] at first
    exact first.symm
  · rintro rfl
    exact ⟨rest, rfl⟩

theorem skipWhite_isLine (isLine : IsLine line) : IsLine (skipWhite line) := by
  obtain ⟨front, rfl, none⟩ := isLine
  induction front with
  | nil => exact ⟨[], by decide, by simp⟩
  | cons c front ih =>
    simp only [mem_cons, not_or] at none
    by_cases white : isWhite c = true
    · have skips : skipWhite (c :: front ++ [newline]) = skipWhite (front ++ [newline]) := by
        simp [skipWhite, white]
      rw [skips]
      exact ih none.2
    · have stays : skipWhite (c :: front ++ [newline]) = c :: front ++ [newline] := by
        simp [skipWhite, white]
      rw [stays]
      refine ⟨c :: front, rfl, ?_⟩
      simp only [mem_cons, not_or]
      exact none

theorem createLine_eq (isLine : IsLine line) :
    createLine r current (skipWhite line ++ rest) (skipWhite line).length = (do
      let s ← r.edit.configeditSeekend (current.getD r.section0).bound
      createKind { r with edit := s } current (skipWhite line) rest (kindOf line)) := by
  have isText := skipWhite_isLine isLine
  have ended := isText.ended
  rw [createLine, kindOf]
  cases r.edit.configeditSeekend (current.getD r.section0).bound with
  | none => rfl
  | some s =>
    simp only [Option.bind_eq_bind, Option.bind_some]
    generalize skipWhite line = text at isText ended
    rw [isPrefixOf_marker isText, ended.headD, take_left, (tagValue_append ended rest).1]
    by_cases marker : text = markerLine
    · simp [marker, createKind]
    simp only [marker, decide_false, Bool.false_eq_true, if_false]
    by_cases isHash : text.headD 0 = hash
    · simp only [isHash, true_or, if_true, createKind]
      rfl
    by_cases isNewline : text.headD 0 = newline
    · simp only [isNewline, or_true, if_true, createKind]
      rfl
    simp only [isHash, isNewline, or_self, if_false]
    by_cases isEqual : text.headD 0 = equalSign
    · simp only [isEqual, if_true, createKind]
      rfl
    simp only [isEqual, if_false]
    by_cases isClose : text.headD 0 = closeBrace
    · simp only [isClose, if_true, createKind]
    simp only [isClose, if_false]
    cases known : tagValue text with
    | none => rfl
    | some value =>
      have ended' := (tagValue_append ended rest).2 value known
      simp only [Option.map_some, ended'.headD]
      by_cases opens : value.headD 0 = openBrace
      · simp only [opens, if_true, createKind]
        cases current <;> rfl
      · simp only [opens, if_false, createKind]
        rfl

end Line

/-! ## What a line does to the document -/

/-- The line that is added for a line without a tag. -/
inductive Added (line : Bytes) : Bytes → Prop
  | copied (kind : kindOf line = .comment ∨ kindOf line = .blank) : Added line (skipWhite line)
  | commented (kind : kindOf line = .untagged) : Added line (commentText ++ skipWhite line)

inductive Changes (d : Document) (part : Option Bytes) (line : Bytes) : Document → Prop
  | skips (kind : kindOf line = .marker ∨ kindOf line = .close ∨ kindOf line = .bare) :
      Changes d part line d
  | adds {new : Bytes} (added : Added line new) :
      Changes d part line (d.set part (d.lines part ++ [written new part.isSome]))
  | opens {name : Bytes} (kind : kindOf line = .opens name) (outside : part = none) :
      Changes d part line (d.withSection name)
  | illegal {name : Bytes} (kind : kindOf line = .opens name) (inside : part ≠ none) :
      Changes d part line (d.set part (d.lines part ++ [illegalText ++ skipWhite line]))
  | puts {tag value : Bytes} {lines' : List Bytes}
      (kind : kindOf line = .assigns tag value)
      (put : Put (skipWhite line) (written (skipWhite line) part.isSome) (d.lines part) lines') :
      Changes d part line (d.putInto part (skipWhite line) lines')

structure Progress (r : Rewrite) (current : Option Section) (d : Document) : Prop where
  holds : ∃ slot, Holds r d slot
  sound : d.Sound
  here : ∀ x, current = some x → x ∈ r.sections

section Taking

variable {r : Rewrite} {current : Option Section} {d d' : Document} {line new rest : Bytes}
  {part : Option Bytes} {n : Nat}

theorem written_isLine {named : Bool} (isLine : IsLine line) : IsLine (written line named) := by
  unfold written
  split
  · exact indented_isLine isLine
  · exact isLine

theorem written_length_le (line : Bytes) (named : Bool) :
    (written line named).length ≤ line.length + 8 := by
  unfold written
  split
  · simp only [length_append, indentText, length_replicate]
    omega
  · omega

theorem skipWhite_length_le (line : Bytes) : (skipWhite line).length ≤ line.length :=
  (dropWhile_suffix _).length_le

theorem tagOf_length_le (line : Bytes) : (tagOf line).length ≤ line.length :=
  Nat.le_trans ( takeWhile_prefix _).length_le (skipWhite_length_le line)

/-- A hash in front makes a comment, except in the line of `auto-edited`. -/
theorem kindOf_hash {c : UInt8} (other : c ≠ 97) (line : Bytes) :
    kindOf (hash :: c :: line) = .comment := by
  unfold kindOf
  have stays : skipWhite (hash :: c :: line) = hash :: c :: line :=
    dropWhile_cons_of_neg (by decide)
  rw [stays]
  simp only
  rw [if_neg, if_pos (show (hash :: c :: line).headD 0 = hash from rfl)]
  intro same
  exact other (List.cons.inj (List.cons.inj same).2).1

theorem IsLine.append {text : Bytes} (isLine : IsLine line) (none : newline ∉ text) :
    IsLine (text ++ line) := by
  obtain ⟨front, rfl, outside⟩ := isLine
  refine ⟨text ++ front, by rw [append_assoc], ?_⟩
  rw [mem_append, not_or]
  exact ⟨none, outside⟩

theorem Added.isNew (added : Added line new) (isLine : IsLine line) :
    IsLine new ∧ (kindOf new = .comment ∨ kindOf new = .blank) ∧ new.length ≤ line.length + 2 := by
  have isText := skipWhite_isLine isLine
  have short := skipWhite_length_le line
  cases added with
  | copied kind =>
    rw [kindOf_skipWhite]
    exact ⟨isText, kind, by omega⟩
  | commented kind =>
    refine ⟨isText.append (by decide), Or.inl (kindOf_hash (by decide) _), ?_⟩
    simp only [length_append, commentText, length_cons, length_nil]
    omega

theorem written_untagged {named : Bool} (kind : kindOf new = .comment ∨ kindOf new = .blank) :
    Inner (written new named) ∧ tagOf (written new named) = [] := by
  rw [Inner, kindOf_written, tagOf_written]
  rcases kind with kind | kind
  · exact ⟨by simp [kind], tagOf_comment kind⟩
  · exact ⟨by simp [kind], tagOf_blank kind⟩

theorem Document.Sound.addLine (sound : d.Sound) (member : part ∈ d.parts) (isLine : IsLine new)
    (inner : Inner new) (untagged : tagOf new = []) :
    (d.set part (d.lines part ++ [new])).Sound := by
  have formed : (d.set part (d.lines part ++ [new])).Formed := by
    apply sound.toFormed.set
    · intro other inside
      rcases mem_append.mp inside with inside | inside
      · exact sound.isLine part member other inside
      · rw [mem_singleton.mp inside]
        exact isLine
    · intro _
      exact ⟨new, by simp, untagged⟩
  refine ⟨formed, ?_, ?_, ?_, sound.opens⟩
  · intro other line inside
    rw [set_lines] at inside
    by_cases same : other = part
    · rw [same, update_self] at inside
      rcases mem_append.mp inside with inside | inside
      · exact sound.inner part line inside
      · rw [mem_singleton.mp inside]
        exact inner
    · rw [update_of_ne same] at inside
      exact sound.inner other line inside
  · intro other tag nonempty
    rw [set_lines]
    by_cases same : other = part
    · rw [same, update_self]
      have before := sound.once part tag nonempty
      unfold tagCount at before ⊢
      rw [countP_append, countP_cons, untagged]
      simpa [Ne.symm nonempty] using before
    · rw [update_of_ne same]
      exact sound.once other tag nonempty
  · intro other outside
    rw [set_lines, update_of_ne]
    · exact sound.absent other outside
    · rintro rfl
      exact outside member

theorem Document.Sound.writable (sound : d.Sound) (member : part ∈ d.parts) : Writable part := by
  rintro name rfl
  have inside := Document.mem_parts_some.mp member
  exact ⟨sound.isTag name inside, sound.opens name inside⟩

theorem Document.withPart_self (member : part ∈ d.parts) : d.withPart part = d := by
  cases part with
  | none => rfl
  | some name => rw [withPart, withSection, if_pos (mem_parts_some.mp member)]

theorem Changes.sound (changes : Changes d part line d') (sound : d.Sound) (member : part ∈ d.parts)
    (isLine : IsLine line) : d'.Sound := by
  cases changes with
  | skips kind => exact sound
  | adds added =>
    obtain ⟨newLine, kind, -⟩ := added.isNew isLine
    have untagged := @written_untagged _ part.isSome kind
    exact sound.addLine member (written_isLine newLine) untagged.1 untagged.2
  | opens kind outside =>
    obtain ⟨same, nonempty, first⟩ := @kindOf_tag line _ [] (Or.inl kind)
    exact sound.withSection ⟨nonempty, by rw [← same, tagOf_tagOf]⟩ first
  | illegal kind inside =>
    have comment : kindOf (illegalText ++ skipWhite line) = .comment := kindOf_hash (by decide) _
    exact sound.addLine member ((skipWhite_isLine isLine).append (by decide))
      (by simp [Inner, comment]) (tagOf_comment comment)
  | puts kind put =>
    rw [← kindOf_skipWhite] at kind
    exact Put.sound sound (sound.writable member) (skipWhite_isLine isLine) kind
      (by rw [Document.withPart_self member]; exact put)

theorem Changes.member (changes : Changes d part line d') (member : part ∈ d.parts) :
    nextPart part line ∈ d'.parts := by
  have same : ∀ lines, (d.set part lines).parts = d.parts := fun _ => rfl
  cases changes with
  | skips kind =>
    rw [nextPart]
    rcases kind with kind | kind | kind <;> rw [kind]
    · exact member
    · exact d.mem_parts_none
    · exact member
  | adds added =>
    rw [nextPart]
    cases added with
    | copied kind => rcases kind with kind | kind <;> rw [kind] <;> exact member
    | commented kind =>
      rw [kind]
      exact member
  | opens kind outside =>
    rw [nextPart, kind, outside]
    exact d.mem_withPart (some _)
  | illegal kind inside =>
    obtain ⟨current, rfl⟩ := Option.ne_none_iff_exists'.mp inside
    rw [nextPart, kind]
    exact member
  | puts kind put =>
    rw [nextPart, kind, Document.putInto, Document.withPart_self member]
    exact member

theorem Changes.size (changes : Changes d part line d') (sound : d.Sound) (member : part ∈ d.parts)
    (isLine : IsLine line) : d'.text.length ≤ d.text.length + (line.length + 35) := by
  cases changes with
  | skips kind => omega
  | @adds new added =>
    obtain ⟨-, -, short⟩ := added.isNew isLine
    have total := @Document.text_set d part (d.lines part ++ [written new part.isSome])
      sound.toFormed member
    have indents := written_length_le new part.isSome
    simp only [flatten_append, flatten_cons, flatten_nil, append_nil,
      length_append] at total
    omega
  | @opens name kind outside =>
    obtain ⟨same, -⟩ := @kindOf_tag line name [] (Or.inl kind)
    have grows := d.text_withSection name
    have short := tagOf_length_le line
    rw [same] at short
    omega
  | illegal kind inside =>
    have total := @Document.text_set d part (d.lines part ++ [illegalText ++ skipWhite line])
      sound.toFormed member
    have short := skipWhite_length_le line
    simp only [flatten_append, flatten_cons, flatten_nil, append_nil,
      length_append, show illegalText.length = 10 from rfl] at total
    omega
  | @puts tag value lines' kind put =>
    have grows := put.length
    have total := @Document.text_set d part
      (withoutTags (conflictsOf (skipWhite line) part.isSome) lines') sound.toFormed member
    have fewer := flatten_filter_length
      (fun other => !(conflictsOf (skipWhite line) part.isSome).any fun tag => tagEqual tag other)
      lines'
    have short := skipWhite_length_le line
    have indents := written_length_le (skipWhite line) part.isSome
    rw [Document.putInto, Document.withPart_self member]
    unfold withoutTags at total ⊢
    omega

theorem Progress.slot (progress : Progress r current d) :
    ∃ slot, Holds r d slot ∧ current.map Section.name ∈ d.parts ∧
      (current.getD r.section0).bound = (slot (current.map Section.name)).bound := by
  obtain ⟨slot, holds⟩ := progress.holds
  refine ⟨slot, holds, ?_⟩
  cases current with
  | none => exact ⟨d.mem_parts_none, holds.unnamed⟩
  | some x =>
    have member := progress.here x rfl
    rw [holds.sections] at member
    obtain ⟨name, inside, rfl⟩ := mem_map.mp member
    exact ⟨Document.mem_parts_some.mpr inside, rfl⟩

theorem Progress.member (progress : Progress r current d) : current.map Section.name ∈ d.parts := by
  obtain ⟨slot, -, member, -⟩ := progress.slot
  exact member

/-! ### Sections are kept -/

theorem sectionFind_sections {r' : Rewrite} {x : Section} {nameLine : Bytes}
    (finds : configRewriteSectionFind r nameLine = some (r', x)) :
    x ∈ r'.sections ∧ ∀ y ∈ r.sections, y ∈ r'.sections := by
  rw [configRewriteSectionFind] at finds
  split at finds
  next y found =>
    cases finds
    exact ⟨mem_of_find?_eq_some found, fun _ member => member⟩
  next =>
    obtain ⟨name, -, finds⟩ := Option.bind_eq_some_iff.mp finds
    obtain ⟨⟨s, y⟩, -, finds⟩ := Option.bind_eq_some_iff.mp finds
    cases finds
    exact ⟨by simp, fun _ member => by simp [member]⟩

theorem rewriteLine_sections {r' : Rewrite} {sectionName : Option Bytes}
    (done : configRewriteLine r line sectionName = some r') :
    ∀ y ∈ r.sections, y ∈ r'.sections := by
  unfold configRewriteLine at done
  dsimp only at done
  split at done
  · cases done
    exact fun _ member => member
  · split at done
    next =>
      obtain ⟨s, -, done⟩ := Option.bind_eq_some_iff.mp done
      cases done
      exact fun _ member => member
    next name =>
      obtain ⟨⟨middle, x⟩, finds, done⟩ := Option.bind_eq_some_iff.mp done
      obtain ⟨s, -, done⟩ := Option.bind_eq_some_iff.mp done
      cases done
      exact (sectionFind_sections finds).2

/-! ### Each kind of line -/

structure Ready (r : Rewrite) (current : Option Section) (d : Document)
    (slot : Option Bytes → Slot) : Prop where
  holds : Holds r d slot
  sound : d.Sound
  here : ∀ x, current = some x → x ∈ r.sections
  member : current.map Section.name ∈ d.parts
  bound : (current.getD r.section0).bound = (slot (current.map Section.name)).bound
  atEnd : AtEnd (slot (current.map Section.name))

def Taken (current : Option Section) (d : Document) (line : Bytes)
    (result : Rewrite × Option Section) : Prop :=
  ∃ d', Progress result.1 result.2 d' ∧
    result.2.map Section.name = nextPart (current.map Section.name) line ∧
    Changes d (current.map Section.name) line d'

variable {slot : Option Bytes → Slot}

theorem Progress.ready (progress : Progress r current d) :
    ∃ s slot, r.edit.configeditSeekend (current.getD r.section0).bound = some s ∧
      Ready { r with edit := s } current d slot := by
  obtain ⟨slot, holds, member, bound⟩ := progress.slot
  obtain ⟨s, slot', seeks, holds', atEnd, bound'⟩ := holds.seekend progress.sound.toFormed member
  refine ⟨s, slot', by rw [bound, seeks], holds', progress.sound, progress.here, member, ?_, atEnd⟩
  rw [bound', ← bound]

theorem Ready.progress (ready : Ready r current d slot) : Progress r current d :=
  ⟨⟨slot, ready.holds⟩, ready.sound, ready.here⟩

theorem isSome_name (current : Option Section) :
    (current.map Section.name).isSome = current.isSome := Option.isSome_map

theorem Ready.change (ready : Ready r current d slot) {r' : Rewrite}
    {slot' : Option Bytes → Slot} (changes : Changes d (current.map Section.name) line d')
    (isLine : IsLine line) (holds : Holds r' d' slot') (here : ∀ x ∈ r.sections, x ∈ r'.sections)
    (stays : nextPart (current.map Section.name) line = current.map Section.name) :
    Taken current d line (r', current) :=
  ⟨d', ⟨⟨slot', holds⟩, changes.sound ready.sound ready.member isLine,
    fun x known => here x (ready.here x known)⟩, stays.symm, changes⟩

theorem Ready.copy (ready : Ready r current d slot) (isLine : IsLine line)
    (kind : kindOf line = .comment ∨ kindOf line = .blank)
    (size : d.text.length + (line.length + 8) ≤ n) :
    Yields (Session.Small n) (Taken current d line) (do
      let r ← copyLine r (current.getD r.section0).bound current.isSome (skipWhite line)
      some (r, current)) := by
  have short := skipWhite_length_le line
  have indents := written_length_le (skipWhite line) (current.map Section.name).isSome
  have adds := @Holds.appendLine r d slot n _ (skipWhite line) ready.holds ready.sound.toFormed
    ready.member ready.atEnd (by omega)
  rw [← ready.bound, isSome_name] at adds
  rw [copyLine]
  simp only [Option.bind_eq_bind, Option.bind_assoc, Option.bind_some]
  refine adds.bind ?_
  rintro s ⟨slot', held⟩
  rw [← isSome_name] at held
  refine ready.change (.adds (.copied kind)) isLine held (fun _ member => member) ?_
  rw [nextPart]
  rcases kind with kind | kind <;> rw [kind]

theorem Ready.comment (ready : Ready r current d slot) (isLine : IsLine line)
    (kind : kindOf line = .untagged) (size : d.text.length + (line.length + 10) ≤ n) :
    Yields (Session.Small n) (Taken current d line) (do
      let r ← commentLine r (current.getD r.section0).bound current.isSome (skipWhite line)
      some (r, current)) := by
  have short := skipWhite_length_le line
  have indents := written_length_le (commentText ++ skipWhite line)
    (current.map Section.name).isSome
  rw [length_append, show commentText.length = 2 from rfl] at indents
  have adds := @Holds.commentLine r d slot n _ (skipWhite line) ready.holds ready.sound.toFormed
    ready.member ready.atEnd (by omega)
  rw [← ready.bound, isSome_name] at adds
  refine adds.bind ?_
  rintro r' ⟨sections, slot', held⟩
  rw [← isSome_name] at held
  refine ready.change (.adds (.commented kind)) isLine held ?_ ?_
  · rw [sections]
    exact fun _ member => member
  · rw [nextPart, kind]

theorem Ready.open {name : Bytes} (ready : Ready r none d slot) (isLine : IsLine line)
    (kind : kindOf line = .opens name) (size : 2 * d.text.length + (line.length + 35) ≤ n) :
    Yields (Session.Small n) (Taken none d line) (do
      let (r, x) ← configRewriteSectionFind r (skipWhite line ++ rest)
      some (r, some x)) := by
  obtain ⟨same, nonempty, first⟩ := @kindOf_tag line name [] (Or.inl kind)
  have tag : tagOf (skipWhite line ++ rest) = name := by
    rw [tagOf_append (skipWhite_isLine isLine).ended, tagOf_skipWhite, same]
  have shorter := tagOf_length_le line
  rw [same] at shorter
  have finds := @Holds.sectionFind r d slot n (skipWhite line ++ rest) ready.holds
    ready.sound.toFormed (by rw [tag]; exact nonempty) (by rw [tag]; omega)
  rw [tag] at finds
  refine finds.remember.bind ?_
  rintro ⟨r', x⟩ ⟨⟨isNamed, slot', held, -⟩, found⟩
  have changes : Changes d none line (d.withSection name) := .opens kind rfl
  refine ⟨_, ⟨⟨slot', held⟩, changes.sound ready.sound d.mem_parts_none isLine, ?_⟩, ?_, changes⟩
  · rintro y ⟨⟩
    exact (sectionFind_sections found).1
  · rw [nextPart]
    simp only [kind]
    exact congrArg some isNamed

theorem Ready.illegal {name : Bytes} {x : Section} (ready : Ready r (some x) d slot)
    (isLine : IsLine line) (kind : kindOf line = .opens name)
    (size : d.text.length + (line.length + 10) ≤ n) :
    Yields (Session.Small n) (Taken (some x) d line) (do
      let r ← illegalLine r x.bound (skipWhite line)
      some (r, some x)) := by
  have short := skipWhite_length_le line
  have adds := @Holds.illegalLine r d slot n _ (skipWhite line) ready.holds ready.sound.toFormed
    ready.member ready.atEnd (by
      rw [length_append, show illegalText.length = 10 from rfl]
      omega)
  rw [← ready.bound] at adds
  refine adds.bind ?_
  rintro r' ⟨sections, slot', held⟩
  refine ready.change (.illegal kind (Option.some_ne_none _)) isLine held ?_ ?_
  · rw [sections]
    exact fun _ member => member
  · rw [nextPart, kind]
    rfl

theorem assigns_isLong {tag value : Bytes} (isText : IsLine line)
    (kind : kindOf line = .assigns tag value) : 1 < line.length := by
  obtain ⟨front, rfl, -⟩ := isText
  cases front with
  | nil =>
    rw [show kindOf ([] ++ [newline]) = .blank by decide] at kind
    cases kind
  | cons c front => simp

theorem Document.name_length_le (member : part ∈ d.parts) : (part.getD []).length ≤ d.text.length := by
  cases part with
  | none => exact Nat.zero_le _
  | some name =>
    obtain ⟨before, after, split⟩ := append_of_mem member
    rw [text, split]
    simp only [Option.getD_some, flatMap_append, flatMap_cons, partText, headerOf,
      length_append]
    omega

theorem Ready.value {tag value : Bytes} (ready : Ready r current d slot) (isLine : IsLine line)
    (kind : kindOf line = .assigns tag value) (size : 2 * d.text.length + (line.length + 35) ≤ n) :
    Yields (Session.Small n) (Taken current d line) (do
      let r ← configRewriteLine r (skipWhite line ++ rest) (current.map Section.name)
      some (r, current)) := by
  have isText := skipWhite_isLine isLine
  have size' : Session.lineSize (skipWhite line ++ rest) = (skipWhite line).length :=
    lineSize_line isText rest
  have long := assigns_isLong isText ((kindOf_skipWhite line).trans kind)
  have short := skipWhite_length_le line
  have fits := Document.name_length_le ready.member
  have isTag : ∀ name, current.map Section.name = some name → name ≠ [] ∧ tagOf name = name := by
    intro name isName
    have member := ready.member
    rw [isName] at member
    exact ready.sound.isTag name (Document.mem_parts_some.mp member)
  have tags : (current.map Section.name).map tagOf = current.map Section.name := by
    cases isName : current.map Section.name with
    | none => rfl
    | some name => rw [Option.map_some, (isTag name isName).2]
  have sets := @Holds.rewriteLine r d slot n (current.map Section.name) (skipWhite line ++ rest)
    ready.holds ready.sound.toFormed (by
      obtain ⟨front, split, -⟩ := isText
      rw [split]
      simp) (by rw [size']; exact long) (by
      intro name isName
      rw [(isTag name isName).2]
      exact (isTag name isName).1) (by
      rw [size']
      omega)
  rw [size', take_left, tags, Document.withPart_self ready.member] at sets
  refine sets.remember.bind ?_
  rintro r' ⟨⟨lines', sets, slot', held⟩, done⟩
  have changes : Changes d (current.map Section.name) line
      (d.putInto (current.map Section.name) (skipWhite line) lines') := .puts kind sets.put
  rw [← Document.withPart_self ready.member] at held
  refine ready.change changes isLine held (rewriteLine_sections done) ?_
  rw [nextPart, kind]

theorem Progress.take (progress : Progress r current d) (isLine : IsLine line)
    (size : 2 * d.text.length + (line.length + 35) ≤ n) :
    Yields (Session.Small n) (Taken current d line)
      (createLine r current (skipWhite line ++ rest) (skipWhite line).length) := by
  obtain ⟨s, slot, seeks, ready⟩ := progress.ready
  have stays : (kindOf line = .marker ∨ kindOf line = .close ∨ kindOf line = .bare) →
      Changes d (current.map Section.name) line d := .skips
  rw [createLine_eq isLine, seeks]
  simp only [Option.bind_eq_bind, Option.bind_some]
  cases kind : kindOf line with
  | marker => exact ⟨d, ready.progress, by rw [nextPart, kind], stays (Or.inl kind)⟩
  | comment => exact ready.copy isLine (Or.inl kind) (by omega)
  | blank => exact ready.copy isLine (Or.inr kind) (by omega)
  | untagged => exact ready.comment isLine kind (by omega)
  | close =>
    refine ⟨d, ⟨ready.progress.holds, ready.sound, ?_⟩, by rw [nextPart, kind]; rfl,
      stays (Or.inr (Or.inl kind))⟩
    rintro x ⟨⟩
  | bare => exact ⟨d, ready.progress, by rw [nextPart, kind], stays (Or.inr (Or.inr kind))⟩
  | opens name =>
    cases current with
    | none => exact ready.open isLine kind size
    | some x => exact ready.illegal isLine kind (by omega)
  | assigns tag value => exact ready.value isLine kind size

end Taking

/-! ## All lines -/

inductive ChangesAll : Document → Option Bytes → List Bytes → Document → Prop
  | nil (d : Document) (part : Option Bytes) : ChangesAll d part [] d
  | cons {d d' d'' : Document} {part : Option Bytes} {line : Bytes}
      {rest : List Bytes} (first : Changes d part line d')
      (later : ChangesAll d' (nextPart part line) rest d'') :
      ChangesAll d part (line :: rest) d''

def fileLines (file : Bytes) : List Bytes :=
  linesOf (if file = [] ∨ file.getLast? = some newline then file else file ++ [newline])

section All

variable {r : Rewrite} {current : Option Section} {d : Document} {old : Session} {b n fuel : Nat}
  {file front tail : Bytes} {todo : List Bytes}

theorem createLoop_line {after after' : Session} {line rest : Bytes} {nbytes : Int}
    (isLine : IsLine line) (next : old.configeditNextLine b = some (after, nbytes))
    (positive : nbytes ≠ 0) (ends : endLine after b nbytes = some (after', (line.length : Int)))
    (text : after'.textAt b = some (line ++ rest)) :
    createLoop b (fuel + 1) old r current =
      (createLine r current (skipWhite line ++ rest) (skipWhite line).length).bind fun result =>
        createLoop b fuel after' result.1 result.2 := by
  have skips := (@Ended.skipWhite line rest isLine.ended).2
  have short := skipWhite_length_le line
  have count : line.length - ((line ++ rest).length - (skipWhite line ++ rest).length) =
      (skipWhite line).length := by
    simp only [length_append]
    omega
  rw [createLoop, next]
  simp only [Option.bind_eq_bind, Option.bind_some]
  rw [if_neg positive, ends]
  simp only [Option.bind_some, text, skips, Int.toNat_natCast, count]

/-- The lines that are left when the loop comes to a place in the file. -/
def Left (todo : List Bytes) (tail : Bytes) : List Bytes :=
  todo ++ if tail = [] then [] else [tail ++ [newline]]

theorem Progress.loop (progress : Progress r current d) (reads : Reads old b file front.length)
    (split : file = front ++ (todo.flatten ++ tail)) (isLine : ∀ line ∈ todo, IsLine line)
    (isTail : newline ∉ tail) (enough : (Left todo tail).length < fuel)
    (size : 2 * (d.text.length + 36 * (Left todo tail).flatten.length) + 35 ≤ n) :
    Yields (Session.Small n)
      (fun r' => ∃ d', (∃ slot, Holds r' d' slot) ∧ d'.Sound ∧
        ChangesAll d (current.map Section.name) (Left todo tail) d')
      (createLoop b fuel old r current) := by
  induction todo generalizing r current d old front fuel with
  | nil =>
    rw [flatten_nil, nil_append] at split
    by_cases empty : tail = []
    · obtain ⟨fuel, rfl⟩ : ∃ m, fuel = m + 1 := ⟨fuel - 1, by omega⟩
      subst empty
      rw [append_nil] at split
      subst split
      obtain ⟨after, next⟩ := reads.atEnd
      rw [createLoop, next]
      exact ⟨d, progress.holds, progress.sound, .nil d _⟩
    · obtain ⟨after, after', next, ends, reads', text⟩ := reads.last split isTail
      have tailLine : IsLine (tail ++ [newline]) := ⟨tail, rfl, isTail⟩
      have positive := length_pos_of_ne_nil empty
      rw [Left, if_neg empty, nil_append] at enough size ⊢
      rw [length_singleton] at enough
      obtain ⟨fuel, rfl⟩ : ∃ m, fuel = m + 2 := ⟨fuel - 2, by omega⟩
      simp only [flatten_cons, flatten_nil, append_nil, length_append,
        length_singleton] at size
      rw [@createLoop_line r current old b (fuel + 1) after after' _ [] _ tailLine next (by omega)
        (by rw [ends, length_append, length_singleton]; rfl)
        (by rw [text, append_nil])]
      refine (progress.take tailLine ?_).bind ?_
      · rw [length_append, length_singleton]
        omega
      rintro ⟨r', current'⟩ ⟨d', progress', part, changes⟩
      obtain ⟨final, next'⟩ := reads'.atEnd
      rw [createLoop, next']
      exact ⟨d', progress'.holds, progress'.sound, .cons changes (.nil d' _)⟩
  | cons line todo ih =>
    obtain ⟨fuel, rfl⟩ : ∃ m, fuel = m + 1 := ⟨fuel - 1, by omega⟩
    have isLine' := isLine line (by simp)
    rw [flatten_cons, append_assoc] at split
    obtain ⟨after, next, reads', ends, text⟩ := reads.next split isLine'
    have positive := length_pos_of_ne_nil isLine'.ne_nil
    rw [show Left (line :: todo) tail = line :: Left todo tail from rfl] at enough size ⊢
    simp only [flatten_cons, length_append] at size
    rw [createLoop_line isLine' next (by omega) ends text]
    refine (progress.take isLine' (by omega)).bind ?_
    rintro ⟨r', current'⟩ ⟨d', progress', part, changes⟩
    have growth := changes.size progress.sound progress.member isLine'
    simp only at part progress'
    have rest := ih progress' reads' (by rw [append_assoc]; exact split)
      (fun other member => isLine other (by simp [member])) (Nat.lt_of_succ_lt_succ enough)
      (by omega)
    refine rest.imp ?_
    rintro final ⟨d'', holds, sound, all⟩
    rw [part] at all
    exact ⟨d'', holds, sound, .cons changes all⟩

end All

/-! ## From the start -/

def blankDocument : Document := ⟨[], Function.update (fun _ => []) none [markerLine]⟩

theorem blankDocument_sound : blankDocument.Sound := by
  have only : ∀ part, part ≠ none → blankDocument.lines part = [] := by
    intro part some
    simp only [blankDocument, update_of_ne some]
  have first : blankDocument.lines none = [markerLine] := by
    simp only [blankDocument, update_self]
  refine ⟨⟨?_, ?_, by simp [blankDocument], by simp [blankDocument]⟩, ?_, ?_, ?_,
    by simp [blankDocument]⟩
  · intro part member line inside
    by_cases same : part = none
    · rw [same, first, mem_singleton] at inside
      rw [inside]
      exact markerLine_isLine
    · rw [only part same] at inside
      cases inside
  · exact ⟨markerLine, by rw [first]; simp, by decide⟩
  · intro part line inside
    by_cases same : part = none
    · rw [same, first, mem_singleton] at inside
      rw [inside, Inner, show kindOf markerLine = .marker by decide]
      simp
    · rw [only part same] at inside
      cases inside
  · intro part tag nonempty
    by_cases same : part = none
    · rw [same, first, tagCount, countP_cons, show tagOf markerLine = [] by decide]
      simp [Ne.symm nonempty]
    · rw [only part same]
      simp [tagCount]
  · intro part outside
    apply only
    rintro rfl
    exact outside blankDocument.mem_parts_none

theorem length_le_flatten {lines : List Bytes} (isLine : ∀ line ∈ lines, IsLine line) :
    lines.length ≤ lines.flatten.length := by
  induction lines with
  | nil => exact Nat.le_refl _
  | cons line rest ih =>
    have positive := length_pos_of_ne_nil (isLine line (by simp)).ne_nil
    have less := ih fun other member => isLine other (by simp [member])
    simp only [length_cons, flatten_cons, length_append]
    omega

/-- The last line of a file that ends without a newline is taken apart from the others. -/
theorem fileLines_left (file : Bytes) :
    ∃ todo tail, fileLines file = Left todo tail ∧ file = todo.flatten ++ tail ∧
      (∀ line ∈ todo, IsLine line) ∧ newline ∉ tail := by
  by_cases whole : file = [] ∨ file.getLast? = some newline
  · have ended : file = [] ∨ Ended file := by
      rcases whole with empty | last
      · exact Or.inl empty
      · obtain ⟨front, rfl⟩ := getLast?_eq_some_iff.mp last
        exact Or.inr ⟨front, rfl⟩
    refine ⟨linesOf file, [], ?_, ?_, linesOf_isLine ended, by simp⟩
    · rw [fileLines, if_pos whole, Left, if_pos rfl, append_nil]
    · rw [flatten_linesOf, append_nil]
  · have all := @linesOf_isLine (file ++ [newline]) (Or.inr ⟨file, rfl⟩)
    have text := flatten_linesOf (file ++ [newline])
    rw [fileLines, if_neg whole]
    rcases eq_nil_or_concat (linesOf (file ++ [newline])) with none | ⟨todo, last, split⟩
    · rw [none] at text
      simp at text
    · rw [concat_eq_append] at split
      rw [split] at all text ⊢
      obtain ⟨tail, rfl, isTail⟩ := all last (by simp)
      rw [flatten_append, flatten_singleton, ← append_assoc] at text
      have same := append_cancel_right text
      have isLine : ∀ line ∈ todo, IsLine line := fun line member => all line (by simp [member])
      refine ⟨todo, tail, ?_, same.symm, isLine, isTail⟩
      rw [Left, if_neg]
      rintro rfl
      rw [append_nil] at same
      apply whole
      rcases eq_nil_or_concat todo with rfl | ⟨before, line, rfl⟩
      · exact Or.inl same.symm
      · rw [concat_eq_append] at same isLine
        obtain ⟨front, rfl, -⟩ := isLine line (by simp)
        right
        rw [← same]
        simp

section Start

variable {file : Bytes}

theorem reads_start (file : Bytes) :
    ∃ old, (Session.configeditCreate (file ++ [newline]) file.length).configeditBegin 0 =
      some (old, 1) ∧ Reads old 1 file 0 := by
  have created : Session.configeditCreate (file ++ [newline]) file.length =
      ⟨[(0, ⟨0, 0, file.length⟩)], 1, file ++ [newline]⟩ := by
    rw [Session.configeditCreate, if_pos (by simp)]
  rw [created]
  obtain ⟨old, begins, bound, buf, allocated⟩ := @Session.begin_eq
    ⟨[(0, ⟨0, 0, file.length⟩)], 1, file ++ [newline]⟩ 0 ⟨0, 0, file.length⟩ rfl
  refine ⟨old, begins, by omega, by omega, ?_, ⟨0, ?_⟩, ?_, buf⟩
  · rw [bound]
    rfl
  · rw [bound]
    rfl
  · intro i c here
    rw [bound] at here
    by_cases same : i = 1
    · exact Or.inr same
    · rw [update_of_ne same] at here
      by_cases zero : i = 0
      · exact Or.inl zero
      · simp [Session.bound, List.lookup_cons, beq_false_of_ne zero] at here

theorem layout_start (size : Nat) (positive : 0 < size) :
    ∃ s1 s2, (Session.configeditCreate (List.replicate size 0) 0).configeditBegin 0 =
        some (s1, 1) ∧ s1.configeditBegin 1 = some (s2, 2) ∧ Layout s2 [draft 1 2] := by
  have created : Session.configeditCreate (List.replicate size 0) 0 =
      ⟨[(0, ⟨0, 0, 0⟩)], 1, List.replicate size 0⟩ := by
    rw [Session.configeditCreate, if_pos]
    intro empty
    have length := congrArg List.length empty
    rw [length_replicate] at length
    simp only [length_nil] at length
    omega
  rw [created]
  obtain ⟨s1, begins, bound, buf, allocated⟩ := @Session.begin_eq
    ⟨[(0, ⟨0, 0, 0⟩)], 1, List.replicate size 0⟩ 0 ⟨0, 0, 0⟩ rfl
  obtain ⟨s2, begins', bound', buf', allocated'⟩ := @Session.begin_eq s1 1 ⟨0, 0, 0⟩
    (by rw [bound]; rfl)
  simp only at allocated
  rw [allocated] at begins' bound' allocated'
  rw [bound] at bound'
  have cases' : ∀ {i : Nat} {c : Bound}, s2.bound i = some c →
      (i = 0 ∧ c = ⟨0, 0, 0⟩) ∨ (i = 1 ∧ c = ⟨0, 0, 0⟩) ∨ (i = 2 ∧ c = ⟨1, 0, 0⟩) := by
    intro i c here
    rw [bound'] at here
    by_cases second : i = 2
    · subst second
      rw [update_self] at here
      cases here
      exact Or.inr (Or.inr ⟨rfl, rfl⟩)
    rw [update_of_ne second] at here
    by_cases first : i = 1
    · subst first
      rw [update_self] at here
      cases here
      exact Or.inr (Or.inl ⟨rfl, rfl⟩)
    rw [update_of_ne first] at here
    by_cases zero : i = 0
    · subst zero
      cases here
      exact Or.inl ⟨rfl, rfl⟩
    · simp [Session.bound, List.lookup_cons, beq_false_of_ne zero] at here
  refine ⟨s1, s2, begins, begins', ?_⟩
  refine ⟨⟨?_, ?_, ?_⟩, ?_, ⟨s2.buf, by simp [textOf, Slot.text, draft]⟩, ⟨⟨?_, ?_, ?_, ?_, ?_⟩,
    True.intro⟩, ?_, ?_, ?_⟩
  · intro i c here
    rcases cases' here with ⟨rfl, -⟩ | ⟨rfl, -⟩ | ⟨rfl, -⟩ <;> omega
  · intro i c here inner
    rcases cases' here with ⟨rfl, rfl⟩ | ⟨rfl, rfl⟩ | ⟨rfl, rfl⟩
    · exact absurd rfl inner
    · exact Nat.zero_lt_one
    · exact Nat.lt_succ_self 1
  · intro c here
    rcases cases' here with ⟨-, rfl⟩ | ⟨zero, -⟩ | ⟨zero, -⟩
    · rfl
    · cases zero
    · cases zero
  · rw [bound']
    rfl
  · rw [bound']
    rfl
  · exact Nat.le_refl _
  · exact Nat.le_refl _
  · intro _
    refine ⟨rfl, rfl, ?_⟩
    rw [bound']
    rfl
  · rintro w ⟨⟩
  · decide
  · decide
  · intro i c here
    rcases cases' here with ⟨rfl, -⟩ | ⟨rfl, -⟩ | ⟨rfl, -⟩ <;> simp [draft, Slot.path]

theorem create_changes (file : Bytes) :
    Yields (Session.Small (72 * (fileLines file).flatten.length + 63))
      (fun r => ∃ d, (∃ slot, Holds r d slot) ∧ d.Sound ∧
        ChangesAll blankDocument none (fileLines file) d)
      (configRewriteCreate file) := by
  obtain ⟨todo, tail, lines, split, isLine, isTail⟩ := fileLines_left file
  obtain ⟨old, begins, reads⟩ := reads_start file
  obtain ⟨s1, s2, begins1, begins2, layout⟩ := layout_start (file.length + 1 + extraBytes) (by omega)
  rw [lines]
  rw [configRewriteCreate]
  simp only [begins, Option.bind_eq_bind, Option.bind_some, begins1, begins2]
  have appends := @Layout.append s2 [] [] (draft 1 2) [] [] [] markerLine layout (by simp) rfl rfl
    rfl
  have marking : markerLine.length = 14 := rfl
  refine (appends.under (Session.Small.mono ?_)).bind ?_
  · simp only [nil_append, textOf_cons, textOf_nil, draft, Slot.text, append_nil,
      length_nil, marking]
    omega
  intro s3 layout3
  have holds : Holds ⟨s3, ⟨[], 1, 2⟩, []⟩ blankDocument
      (fun _ => (draft 1 2).set markerLine 0 markerLine.length) := by
    refine ⟨?_, rfl, rfl, ?_, ?_, ?_⟩
    · simpa [Slot.set, draft, blankDocument, Document.parts] using layout3
    · intro part member
      obtain rfl : part = none := by simpa [blankDocument, Document.parts] using member
      rfl
    · intro part member
      obtain rfl : part = none := by simpa [blankDocument, Document.parts] using member
      rfl
    · intro part member
      obtain rfl : part = none := by simpa [blankDocument, Document.parts] using member
      simp [blankDocument, Slot.set]
  have progress : Progress ⟨s3, ⟨[], 1, 2⟩, []⟩ none blankDocument :=
    ⟨⟨_, holds⟩, blankDocument_sound, by simp⟩
  have short : blankDocument.text.length = 14 := by
    simp [blankDocument, Document.text, Document.parts, Document.partText, headerOf, footerOf,
      marking]
  have enough : (Left todo tail).length < file.length + 1 := by
    have less := length_le_flatten isLine
    rw [split, length_append, Left, length_append]
    split
    · simp only [length_nil]
      omega
    next some =>
      have positive := length_pos_of_ne_nil some
      simp only [length_singleton]
      omega
  exact @Progress.loop _ none blankDocument old 1 (72 * (Left todo tail).flatten.length + 63)
    (file.length + 1) file [] tail todo progress reads split isLine isTail enough
    (by rw [short]; omega)

end Start

end AthApps.Config
