import AthApps.Config.Grow

/-!
# Documents

A document is what a text consists of: the lines outside of the named sections,
and those of every named section in the order of the sections.  The rewriting of
a file `Holds` a document, and its functions change the document as they should:
a line is put into its section, lines are added at the end of a section, and a
section comes in at the end of the document.
-/

set_option autoImplicit false

namespace AthApps.Config

open AthApps.Lib List Option
open Function (update_eq_self update_of_ne update_self)

/-- `none` is what is outside of the named sections. -/
structure Document where
  names : List Bytes
  lines : Option Bytes → List Bytes

def headerOf : Option Bytes → Bytes
  | none => []
  | some name => name ++ openText

def footerOf : Option Bytes → Bytes
  | none => []
  | some _ => closeText

namespace Document

def parts (d : Document) : List (Option Bytes) := none :: d.names.map some

def partText (d : Document) (part : Option Bytes) : Bytes :=
  headerOf part ++ ((d.lines part).flatten ++ footerOf part)

def text (d : Document) : Bytes := d.parts.flatMap d.partText

def set (d : Document) (part : Option Bytes) (lines : List Bytes) : Document :=
  { d with lines := Function.update d.lines part lines }

def addSection (d : Document) (name : Bytes) : Document :=
  ⟨d.names ++ [name], Function.update d.lines (some name) [indentText ++ markerLine]⟩

def withSection (d : Document) (name : Bytes) : Document :=
  if name ∈ d.names then d else d.addSection name

@[simp] theorem set_lines (d : Document) (part : Option Bytes) (lines : List Bytes) :
    (d.set part lines).lines = Function.update d.lines part lines := rfl

@[simp] theorem set_parts (d : Document) (part : Option Bytes) (lines : List Bytes) :
    (d.set part lines).parts = d.parts := rfl

@[simp] theorem addSection_parts (d : Document) (name : Bytes) :
    (d.addSection name).parts = d.parts ++ [some name] := by
  simp [parts, addSection]

/-- Lines are whole, names are tags, and no section is there twice.  A line without a tag keeps the
unnamed section from being empty. -/
structure Formed (d : Document) : Prop where
  isLine : ∀ part ∈ d.parts, ∀ line ∈ d.lines part, IsLine line
  inhabited : ∃ line ∈ d.lines none, tagOf line = []
  isTag : ∀ name ∈ d.names, name ≠ [] ∧ tagOf name = name
  nodup : d.names.Nodup

theorem parts_nodup {d : Document} (formed : d.Formed) : d.parts.Nodup := by
  rw [parts, nodup_cons]
  refine ⟨by simp, ?_⟩
  exact List.Nodup.map (fun _ _ same => some.inj same) formed.nodup

theorem mem_parts_some {d : Document} {name : Bytes} :
    some name ∈ d.parts ↔ name ∈ d.names := by
  simp [parts]

theorem mem_parts_none (d : Document) : none ∈ d.parts := by simp [parts]

end Document

structure Holds (r : Rewrite) (d : Document) (slot : Option Bytes → Slot) : Prop where
  layout : Layout r.edit (d.parts.map slot)
  unnamed : r.section0.bound = (slot none).bound
  sections : r.sections = d.names.map fun name =>
    ⟨name, (slot (some name)).outer, (slot (some name)).bound⟩
  header : ∀ part ∈ d.parts, (slot part).header = headerOf part
  footer : ∀ part ∈ d.parts, (slot part).footer = footerOf part
  body : ∀ part ∈ d.parts, (slot part).body = (d.lines part).flatten

section Edits

variable {r : Rewrite} {d : Document} {slot : Option Bytes → Slot}
  {part : Option Bytes} {s : Session} {n : Nat}

theorem Holds.text (holds : Holds r d slot) {parts : List (Option Bytes)}
    (inside : ∀ part ∈ parts, part ∈ d.parts) :
    textOf (parts.map slot) = parts.flatMap d.partText := by
  induction parts with
  | nil => rfl
  | cons part rest ih =>
    rw [map_cons, textOf_cons, flatMap_cons, ih fun other member => inside other (by simp [member])]
    have here := inside part (by simp)
    rw [Slot.text, holds.header part here, holds.footer part here, holds.body part here]
    rfl

theorem Holds.filled (holds : Holds r d slot) (formed : d.Formed) (member : part ∈ d.parts) :
    (slot part).text ≠ [] := by
  rw [Slot.text, holds.header part member, holds.body part member]
  cases part with
  | none =>
    obtain ⟨line, inside, -⟩ := formed.inhabited
    have isLine := formed.isLine none member line inside
    have length := length_pos_of_ne_nil isLine.ne_nil
    obtain ⟨front, back, lines⟩ := append_of_mem inside
    simp [lines, isLine.ne_nil]
  | some name => simp [headerOf, openText]

theorem Holds.text_eq (holds : Holds r d slot) : r.text = some d.text := by
  have all := holds.text (fun part (member : part ∈ d.parts) => member)
  obtain ⟨junk, buf⟩ := holds.layout.buf
  have size : (Bound.size ⟨0, 0, (d.text.length : Int)⟩).toNat = d.text.length := by
    simp [Bound.size]
  rw [Rewrite.text, holds.layout.root, all]
  simp only [bind_eq_bind, bind_some, some.injEq]
  rw [buf, all]
  show (d.text ++ junk).take (Bound.size ⟨0, 0, (d.text.length : Int)⟩).toNat = d.text
  rw [size, take_left]

theorem map_update {α β : Type} [DecidableEq α] {f : α → β} {a : α} {b : β} {before after : List α}
    (nodup : (before ++ a :: after).Nodup) :
    (before ++ a :: after).map (Function.update f a b) = before.map f ++ b :: after.map f := by
  have outside : a ∉ before ∧ a ∉ after := by
    have apart := (nodup_middle.mp nodup)
    rw [nodup_cons, mem_append, not_or] at apart
    exact apart.1
  have keeps : ∀ {some : List α}, a ∉ some → some.map (Function.update f a b) = some.map f := by
    intro some out
    apply map_congr_left
    intro other member
    rw [update_of_ne]
    rintro rfl
    exact out member
  rw [map_append, map_cons, update_self, keeps outside.1, keeps outside.2]

theorem Holds.setAt {before after : List (Option Bytes)} {lines : List Bytes}
    {first last : Nat} (holds : Holds r d slot) (formed : d.Formed)
    (split : d.parts = before ++ part :: after)
    (layout : Layout s (before.map slot ++
      (slot part).set lines.flatten first last :: after.map slot)) :
    Holds { r with edit := s } (d.set part lines)
      (Function.update slot part ((slot part).set lines.flatten first last)) := by
  have nodup := Document.parts_nodup formed
  rw [split] at nodup
  have same : ∀ other, (Function.update slot part ((slot part).set lines.flatten first last)
      other).bound = (slot other).bound ∧
      (Function.update slot part ((slot part).set lines.flatten first last) other).outer =
        (slot other).outer := by
    intro other
    by_cases equal : other = part
    · subst equal
      rw [update_self]
      exact ⟨rfl, rfl⟩
    · rw [update_of_ne equal]
      exact ⟨rfl, rfl⟩
  refine ⟨?_, ?_, ?_, ?_, ?_, ?_⟩
  · show Layout s (d.parts.map _)
    rw [split, map_update nodup]
    exact layout
  · rw [(same none).1]
    exact holds.unnamed
  · rw [show (d.set part lines).names = d.names from rfl]
    simp only [(same _).1, (same _).2]
    exact holds.sections
  · intro other member
    by_cases equal : other = part
    · subst equal
      rw [update_self]
      exact holds.header other member
    · rw [update_of_ne equal]
      exact holds.header other member
  · intro other member
    by_cases equal : other = part
    · subst equal
      rw [update_self]
      exact holds.footer other member
    · rw [update_of_ne equal]
      exact holds.footer other member
  · intro other member
    by_cases equal : other = part
    · subst equal
      rw [Document.set_lines, update_self, update_self]
      rfl
    · rw [Document.set_lines, update_of_ne equal, update_of_ne equal]
      exact holds.body other member

theorem Holds.shows (holds : Holds r d slot) (formed : d.Formed) (member : part ∈ d.parts) :
    ∃ before after, d.parts = before ++ part :: after ∧
      Shows r.edit (before.map slot) (slot part) (after.map slot) (d.lines part).flatten ∧
      (∀ y ∈ before.map slot, y.text ≠ []) ∧
      sizeWith (before.map slot) (slot part) (after.map slot) (d.lines part).flatten =
        d.text.length := by
  obtain ⟨before, after, split⟩ := append_of_mem member
  refine ⟨before, after, split, ⟨(slot part).first, (slot part).last, ?_⟩, ?_, ?_⟩
  · have layout := holds.layout
    rw [split, map_append, map_cons] at layout
    rw [← holds.body part member]
    exact layout
  · intro y inside
    obtain ⟨other, here, rfl⟩ := mem_map.mp inside
    exact holds.filled formed (by rw [split]; simp [here])
  · have all := holds.text (fun part (member : part ∈ d.parts) => member)
    rw [Document.text, ← all, split]
    simp only [map_append, map_cons, textOf_append, textOf_cons, Slot.text,
      length_append, sizeWith, holds.body part member]
    omega

end Edits

section Sections

variable {r : Rewrite} {d : Document} {slot : Option Bytes → Slot} {n : Nat}
  {nameLine : Bytes}

theorem find_map {names : List Bytes} {make : Bytes → Section} {tag : Bytes}
    {test : Section → Bool} (tests : ∀ name ∈ names, test (make name) = decide (name = tag)) :
    (names.map make).find? test = if tag ∈ names then some (make tag) else none := by
  induction names with
  | nil => simp
  | cons name rest ih =>
    have here := tests name (by simp)
    rw [map_cons, find?_cons, here, ih fun other member => tests other (by simp [member])]
    by_cases same : name = tag
    · simp [same]
    · simp [same, Ne.symm same]

theorem markerLine_isLine : IsLine markerLine :=
  ⟨markerLine.dropLast, by decide, by decide⟩

theorem indented_isLine {line : Bytes} (isLine : IsLine line) : IsLine (indentText ++ line) := by
  obtain ⟨front, rfl, none⟩ := isLine
  refine ⟨indentText ++ front, by simp, ?_⟩
  rw [mem_append, not_or]
  exact ⟨by decide, none⟩

theorem Document.Formed.addSection {name : Bytes} (formed : d.Formed) (absent : name ∉ d.names)
    (isTag : name ≠ [] ∧ tagOf name = name) : (d.addSection name).Formed := by
  refine ⟨?_, ?_, ?_, ?_⟩
  · intro part member line inside
    rw [addSection_parts, mem_append, mem_singleton] at member
    simp only [Document.addSection] at inside
    by_cases same : part = some name
    · rw [same, update_self, mem_singleton] at inside
      rw [inside]
      exact indented_isLine markerLine_isLine
    · rw [update_of_ne same] at inside
      exact formed.isLine part (member.resolve_right same) line inside
  · simp only [Document.addSection]
    rw [update_of_ne (by simp)]
    exact formed.inhabited
  · intro other member
    rcases mem_append.mp member with member | member
    · exact formed.isTag other member
    · rw [mem_singleton.mp member]
      exact isTag
  · exact nodup_append'.mpr ⟨formed.nodup, nodup_singleton _, by simpa using absent⟩

theorem Document.Formed.withSection {name : Bytes} (formed : d.Formed)
    (isTag : name ≠ [] ∧ tagOf name = name) : (d.withSection name).Formed := by
  rw [Document.withSection]
  split
  · exact formed
  next absent => exact formed.addSection absent isTag

theorem Document.text_withSection (d : Document) (name : Bytes) :
    (d.withSection name).text.length ≤ d.text.length + (name.length + 27) := by
  rw [Document.withSection]
  split
  · omega
  next absent =>
    have others : d.parts.flatMap (d.addSection name).partText = d.text := by
      apply flatMap_congr
      intro part member
      have other : part ≠ some name := by
        rintro rfl
        exact absent (Document.mem_parts_some.mp member)
      rw [Document.partText, Document.partText]
      simp only [Document.addSection, update_of_ne other]
    rw [Document.text, addSection_parts, flatMap_append, others]
    simp [Document.partText, Document.addSection, headerOf, footerOf, openText, closeText,
      indentText, markerLine]

theorem Holds.sectionFind (holds : Holds r d slot) (formed : d.Formed) (isTag : tagOf nameLine ≠ [])
    (size : d.text.length + ((tagOf nameLine).length + 27) ≤ n) :
    Yields (Session.Small n) (fun result => result.2.name = tagOf nameLine ∧
        ∃ slot', Holds result.1 (d.withSection (tagOf nameLine)) slot' ∧
          result.2.bound = (slot' (some (tagOf nameLine))).bound)
      (configRewriteSectionFind r nameLine) := by
  have finds : r.sections.find? (fun x => tagEqual nameLine x.name) =
      if tagOf nameLine ∈ d.names then
        some ⟨tagOf nameLine, (slot (some (tagOf nameLine))).outer,
          (slot (some (tagOf nameLine))).bound⟩
      else none := by
    rw [holds.sections]
    apply find_map
    intro name member
    apply Bool.eq_iff_iff.mpr
    rw [tagEqual_iff, (formed.isTag name member).2, decide_eq_true_iff]
    exact ⟨fun both => both.2.symm, fun same => ⟨isTag, same.symm⟩⟩
  rw [configRewriteSectionFind, finds, Document.withSection]
  by_cases present : tagOf nameLine ∈ d.names
  · simp only [if_pos present]
    exact ⟨rfl, slot, holds, rfl⟩
  · simp only [if_neg present]
    rw [tagDup_eq, if_neg isTag]
    have all := holds.text (fun part (member : part ∈ d.parts) => member)
    have adds := @Layout.newSection r.edit (d.parts.map slot) n (tagOf nameLine) holds.layout (by
        intro y inside
        obtain ⟨part, member, rfl⟩ := mem_map.mp inside
        exact holds.filled formed member)
      (by
        rw [all]
        exact size)
    simp only [bind_eq_bind, bind_some]
    refine adds.bind ?_
    rintro ⟨s, x⟩ ⟨named, wrapper, layout⟩
    have kept : ∀ {part : Option Bytes}, part ∈ d.parts → part ≠ some (tagOf nameLine) := by
      rintro part member rfl
      exact present (Document.mem_parts_some.mp member)
    refine ⟨named, Function.update slot (some (tagOf nameLine))
      (finished wrapper x.outer x.bound (tagOf nameLine ++ openText) (indentText ++ markerLine)
        closeText), ⟨?_, ?_, ?_, ?_, ?_, ?_⟩, ?_⟩
    · rw [Document.addSection_parts, map_append, map_singleton, update_self]
      have same : d.parts.map (Function.update slot (some (tagOf nameLine)) (finished wrapper x.outer
          x.bound (tagOf nameLine ++ openText) (indentText ++ markerLine) closeText)) =
          d.parts.map slot := by
        apply map_congr_left
        intro part member
        rw [update_of_ne (kept member)]
      rw [same]
      exact layout
    · rw [update_of_ne (by simp)]
      exact holds.unnamed
    · simp only [Document.addSection, map_append, map_cons, map_nil, update_self]
      congr 1
      · rw [holds.sections]
        apply map_congr_left
        intro name member
        rw [update_of_ne (kept (Document.mem_parts_some.mpr member))]
      · rw [← named]
        rfl
    · intro part member
      rw [Document.addSection_parts, mem_append, mem_singleton] at member
      rcases member with member | rfl
      · rw [update_of_ne (kept member)]
        exact holds.header part member
      · rw [update_self]
        rfl
    · intro part member
      rw [Document.addSection_parts, mem_append, mem_singleton] at member
      rcases member with member | rfl
      · rw [update_of_ne (kept member)]
        exact holds.footer part member
      · rw [update_self]
        rfl
    · intro part member
      rw [Document.addSection_parts, mem_append, mem_singleton] at member
      simp only [Document.addSection]
      rcases member with member | rfl
      · rw [update_of_ne (kept member), update_of_ne (kept member)]
        exact holds.body part member
      · rw [update_self, update_self]
        simp [finished]
    · rw [update_self]
      rfl

end Sections

def Document.withPart (d : Document) : Option Bytes → Document
  | none => d
  | some name => d.withSection name

section Lines

variable {r : Rewrite} {d : Document} {slot : Option Bytes → Slot} {n : Nat}
  {part sectionName : Option Bytes} {line : Bytes}

theorem Document.mem_withPart (d : Document) (part : Option Bytes) :
    part ∈ (d.withPart part).parts := by
  cases part with
  | none => exact d.mem_parts_none
  | some name =>
    rw [withPart, withSection]
    split
    next member => exact mem_parts_some.mpr member
    next => simp

variable {lines lines' : List Bytes}

theorem Document.Formed.set (formed : d.Formed) (isLine : ∀ line ∈ lines, IsLine line)
    (inhabited : part = none → ∃ line ∈ lines, tagOf line = []) : (d.set part lines).Formed := by
  refine ⟨?_, ?_, formed.isTag, formed.nodup⟩
  · intro other member line inside
    rw [set_lines] at inside
    by_cases same : other = part
    · rw [same, update_self] at inside
      exact isLine line inside
    · rw [update_of_ne same] at inside
      exact formed.isLine other member line inside
  · rw [set_lines]
    by_cases same : none = part
    · rw [← same, update_self]
      exact inhabited same.symm
    · rw [update_of_ne same]
      exact formed.inhabited

theorem Put.keeps {new : Bytes} (put : Put line new lines lines') {other : Bytes}
    (member : other ∈ lines) (untagged : tagOf other = []) : other ∈ lines' := by
  have differs : tagEqual line other = false := by
    apply Bool.eq_false_iff.mpr
    intro equal
    obtain ⟨some, same⟩ := (tagEqual_iff line other).mp equal
    exact some (same.trans untagged)
  cases put with
  | @exchange skipped later old before same =>
    rcases mem_append.mp member with member | member
    · simp [member]
    · rcases mem_cons.mp member with rfl | member
      · rw [same] at differs
        cases differs
      · simp [member, differs]
  | @insert front back absent =>
    rcases mem_append.mp member with member | member
    · simp [member]
    · simp [member]

theorem mem_withoutTags {tags : List Bytes} {other : Bytes} (member : other ∈ lines)
    (untagged : tagOf other = []) : other ∈ withoutTags tags lines := by
  rw [withoutTags, mem_filter]
  refine ⟨member, ?_⟩
  simp only [Bool.not_eq_true', List.any_eq_false]
  intro tag _ equal
  obtain ⟨some, same⟩ := (tagEqual_iff tag other).mp equal
  exact some (same.trans untagged)

theorem Holds.putLine (holds : Holds r d slot) (formed : d.Formed) (member : part ∈ d.parts)
    (isLine : IsLine line) (size : d.text.length + (written line part.isSome).length ≤ n) :
    Yields (Session.Small n)
      (fun s => ∃ lines', Sets line (written line part.isSome) (d.lines part) lines' ∧
        ∃ slot', Holds { r with edit := s }
          (d.set part (withoutTags (conflictsOf line part.isSome) lines')) slot')
      (putLine r.edit (slot part).bound line part.isSome) := by
  obtain ⟨before, after, split, shows, filled, total⟩ := holds.shows formed member
  have newLine : IsLine (written line part.isSome) := by
    cases part with
    | none => exact isLine
    | some name => exact indented_isLine isLine
  refine (shows.putLine filled (formed.isLine part member) newLine (by rw [total]; exact size)).imp
    ?_
  rintro s ⟨lines', sets, first, last, layout⟩
  exact ⟨lines', sets, _, holds.setAt formed split layout⟩

theorem Put.formed (formed : d.Formed) (member : part ∈ d.parts) (isLine : IsLine line)
    (put : Put line (written line part.isSome) (d.lines part) lines') :
    (d.set part (withoutTags (conflictsOf line part.isSome) lines')).Formed := by
  have newLine : IsLine (written line part.isSome) := by
    cases part with
    | none => exact isLine
    | some name => exact indented_isLine isLine
  apply formed.set
  · intro other inside
    exact put.all (formed.isLine part member) newLine other (mem_filter.mp inside).1
  · rintro rfl
    obtain ⟨other, inside, untagged⟩ := formed.inhabited
    exact ⟨other, mem_withoutTags (put.keeps inside untagged) untagged, untagged⟩

theorem Holds.rewriteLine (holds : Holds r d slot) (formed : d.Formed) (has : newline ∈ line)
    (long : 1 < Session.lineSize line)
    (isTag : ∀ name, sectionName = some name → tagOf name ≠ [])
    (size : d.text.length + (Session.lineSize line + ((sectionName.getD []).length + 35)) ≤ n) :
    Yields (Session.Small n) (fun r' => ∃ lines', Sets (line.take (Session.lineSize line))
          (written (line.take (Session.lineSize line)) sectionName.isSome)
          ((d.withPart (sectionName.map tagOf)).lines (sectionName.map tagOf)) lines' ∧
        ∃ slot', Holds r' ((d.withPart (sectionName.map tagOf)).set (sectionName.map tagOf)
          (withoutTags (conflictsOf (line.take (Session.lineSize line)) sectionName.isSome) lines'))
            slot')
      (configRewriteLine r line sectionName) := by
  have isLine := isLine_take has
  have bounded := Session.lineSize_le line
  have length : (line.take (Session.lineSize line)).length = Session.lineSize line := by
    rw [length_take]
    omega
  unfold configRewriteLine
  simp only [length, if_neg (Nat.not_le.mpr long)]
  cases sectionName with
  | none =>
    simp only
    have puts := @Holds.putLine r d slot n none _ holds formed d.mem_parts_none isLine (by
      simp only [written, isSome_none, Bool.false_eq_true, if_false, length]
      omega)
    rw [← holds.unnamed] at puts
    exact puts.bind fun s done => done
  | some name =>
    simp only [getD_some] at size ⊢
    have short : (tagOf name).length ≤ name.length := by
      have first : (tagOf name).length ≤ (skipWhite name).length := ( takeWhile_prefix _).length_le
      have second : (skipWhite name).length ≤ name.length := (dropWhile_suffix _).length_le
      exact Nat.le_trans first second
    refine (holds.sectionFind formed (isTag name rfl) (by omega)).bind ?_
    rintro ⟨r', x⟩ ⟨-, slot', holds', bound⟩
    have formed' := formed.withSection ⟨isTag name rfl, tagOf_tagOf name⟩
    have grows := d.text_withSection (tagOf name)
    have member : some (tagOf name) ∈ (d.withSection (tagOf name)).parts :=
      d.mem_withPart (some (tagOf name))
    have puts := @Holds.putLine r' _ slot' n (some (tagOf name)) _ holds' formed' member isLine (by
      simp only [written, isSome_some, if_true, length_append, length]
      have indenting : indentText.length = 8 := rfl
      omega)
    rw [← bound] at puts
    exact puts.bind fun s done => done

end Lines

section Ends

variable {r : Rewrite} {d : Document} {slot : Option Bytes → Slot} {n : Nat}
  {part : Option Bytes} {line : Bytes}

def AtEnd (x : Slot) : Prop := x.first = x.body.length ∧ x.last = x.body.length

theorem Document.set_self (d : Document) (part : Option Bytes) :
    d.set part (d.lines part) = d := by
  rw [set, update_eq_self]

theorem Holds.seekend (holds : Holds r d slot) (formed : d.Formed) (member : part ∈ d.parts) :
    ∃ s slot', r.edit.configeditSeekend (slot part).bound = some s ∧
      Holds { r with edit := s } d slot' ∧ AtEnd (slot' part) ∧
      (slot' part).bound = (slot part).bound := by
  obtain ⟨before, after, split, shows, -, -⟩ := holds.shows formed member
  obtain ⟨s, seeks, layout⟩ := shows.seekend
  have held := holds.setAt formed split layout
  rw [d.set_self] at held
  refine ⟨s, _, seeks, held, ?_, ?_⟩
  · rw [update_self]
    exact ⟨rfl, rfl⟩
  · rw [update_self]
    rfl

theorem Holds.layoutAtEnd (holds : Holds r d slot) (formed : d.Formed) (member : part ∈ d.parts)
    (atEnd : AtEnd (slot part)) :
    ∃ before after, d.parts = before ++ part :: after ∧
      Layout r.edit (before.map slot ++ (slot part).set ((d.lines part).flatten ++ ([] ++ []))
        (d.lines part).flatten.length ((d.lines part).flatten.length + ([] : Bytes).length) ::
          after.map slot) ∧
      (∀ y ∈ before.map slot, y.text ≠ []) ∧
      sizeWith (before.map slot) (slot part) (after.map slot) (d.lines part).flatten =
        d.text.length := by
  obtain ⟨before, after, split, -, filled, total⟩ := holds.shows formed member
  refine ⟨before, after, split, ?_, filled, total⟩
  have layout := holds.layout
  rw [split, map_append, map_cons] at layout
  have same : (slot part).set ((d.lines part).flatten ++ ([] ++ []))
      (d.lines part).flatten.length ((d.lines part).flatten.length + ([] : Bytes).length) =
      slot part := by
    have whole : (slot part).set (slot part).body (slot part).first (slot part).last =
        slot part := rfl
    rw [atEnd.1, atEnd.2, holds.body part member] at whole
    simpa only [append_nil, length_nil, Nat.add_zero] using whole
  rw [same]
  exact layout

theorem Holds.appendLine (holds : Holds r d slot) (formed : d.Formed) (member : part ∈ d.parts)
    (atEnd : AtEnd (slot part))
    (size : d.text.length + (written line part.isSome).length ≤ n) :
    Yields (Session.Small n) (fun s => ∃ slot', Holds { r with edit := s }
        (d.set part (d.lines part ++ [written line part.isSome])) slot')
      (appendLine r.edit (slot part).bound line part.isSome) := by
  obtain ⟨before, after, split, layout, filled, total⟩ := holds.layoutAtEnd formed member atEnd
  unfold sizeWith at total
  refine (layout.appendLine filled (by
    rw [textOf_set]
    simp only [append_nil]
    omega)).imp ?_
  intro s done
  have lines : (d.lines part).flatten ++ (([] ++ written line part.isSome) ++ []) =
      (d.lines part ++ [written line part.isSome]).flatten := by simp
  rw [lines] at done
  exact ⟨_, holds.setAt formed split done⟩

theorem Layout.appendBoth {s : Session} {pre post : List Slot} {x : Slot}
    {front text first second : Bytes}
    (layout : Layout s (pre ++ x.set (front ++ (text ++ [])) front.length
      (front.length + text.length) :: post))
    (filled : ∀ y ∈ pre, y.text ≠ [])
    (size : (textOf (pre ++ x.set (front ++ (text ++ [])) front.length
      (front.length + text.length) :: post)).length + (first.length + second.length) ≤ n) :
    Yields (Session.Small n)
      (fun after => Layout after (pre ++ x.set (front ++ (((text ++ first) ++ second) ++ []))
        front.length (front.length + ((text ++ first) ++ second).length) :: post))
      ((s.append x.bound first).bind fun s => s.append x.bound second) := by
  rw [textOf_set] at size
  simp only [append_nil, length_append] at size
  have firsts := @Layout.append s pre post (x.set (front ++ (text ++ [])) front.length
    (front.length + text.length)) front text [] first layout filled rfl rfl rfl
  refine (firsts.under (Session.Small.mono ?_)).bind ?_
  · rw [textOf_set]
    simp only [append_nil, length_append]
    omega
  intro after layout'
  have seconds := @Layout.append after pre post (x.set (front ++ ((text ++ first) ++ []))
    front.length (front.length + (text ++ first).length)) front (text ++ first) [] second layout'
    filled rfl rfl rfl
  refine seconds.under (Session.Small.mono ?_)
  rw [textOf_set]
  simp only [append_nil, length_append]
  omega

theorem Holds.commentLine (holds : Holds r d slot) (formed : d.Formed) (member : part ∈ d.parts)
    (atEnd : AtEnd (slot part))
    (size : d.text.length + (written (commentText ++ line) part.isSome).length ≤ n) :
    Yields (Session.Small n) (fun r' => r'.sections = r.sections ∧ ∃ slot', Holds r'
        (d.set part (d.lines part ++ [written (commentText ++ line) part.isSome])) slot')
      (commentLine r (slot part).bound part.isSome line) := by
  obtain ⟨before, after, split, layout, filled, total⟩ := holds.layoutAtEnd formed member atEnd
  rw [written_length, length_append] at size
  unfold sizeWith at total
  rw [Config.commentLine]
  refine (layout.indent filled (by
    rw [textOf_set]
    simp only [append_nil]
    omega)).bind ?_
  intro s layout
  have comments := @Layout.appendBoth n s _ _ (slot part) _ _ commentText line layout filled (by
    rw [textOf_set]
    simp only [nil_append, append_nil, length_append]
    omega)
  simp only [bind_eq_bind, ← bind_assoc]
  refine comments.bind ?_
  intro s' layout'
  have lines : (d.lines part).flatten ++
      (((([] ++ written [] part.isSome) ++ commentText) ++ line) ++ []) =
      (d.lines part ++ [written (commentText ++ line) part.isSome]).flatten := by
    rw [written_eq (commentText ++ line)]
    simp
  rw [lines] at layout'
  exact ⟨rfl, _, holds.setAt formed split layout'⟩

theorem Holds.illegalLine (holds : Holds r d slot) (formed : d.Formed) (member : part ∈ d.parts)
    (atEnd : AtEnd (slot part)) (size : d.text.length + (illegalText ++ line).length ≤ n) :
    Yields (Session.Small n) (fun r' => r'.sections = r.sections ∧ ∃ slot', Holds r'
        (d.set part (d.lines part ++ [illegalText ++ line])) slot')
      (illegalLine r (slot part).bound line) := by
  obtain ⟨before, after, split, layout, filled, total⟩ := holds.layoutAtEnd formed member atEnd
  rw [length_append] at size
  unfold sizeWith at total
  have adds := @Layout.appendBoth n r.edit _ _ (slot part) _ _ illegalText line layout filled (by
    rw [textOf_set]
    simp only [append_nil]
    omega)
  rw [Config.illegalLine]
  simp only [bind_eq_bind, ← bind_assoc]
  refine adds.bind ?_
  intro s layout'
  have lines : (d.lines part).flatten ++ ((([] ++ illegalText) ++ line) ++ []) =
      (d.lines part ++ [illegalText ++ line]).flatten := by simp
  rw [lines] at layout'
  exact ⟨rfl, _, holds.setAt formed split layout'⟩

theorem Document.text_set {lines : List Bytes} (formed : d.Formed) (member : part ∈ d.parts) :
    (d.set part lines).text.length + (d.lines part).flatten.length =
      d.text.length + lines.flatten.length := by
  obtain ⟨before, after, split⟩ := append_of_mem member
  have nodup := Document.parts_nodup formed
  rw [split] at nodup
  have apart := nodup_middle.mp nodup
  rw [nodup_cons, mem_append, not_or] at apart
  have others : ∀ {some : List (Option Bytes)}, part ∉ some →
      some.flatMap (d.set part lines).partText = some.flatMap d.partText := by
    intro some out
    apply flatMap_congr
    intro other inside
    have differs : other ≠ part := by
      rintro rfl
      exact out inside
    rw [partText, partText, set_lines, update_of_ne differs]
  rw [text, text, set_parts, split]
  simp only [flatMap_append, flatMap_cons, length_append]
  rw [others apart.1.1, others apart.1.2]
  simp only [partText, set_lines, update_self, length_append]
  omega

end Ends

end AthApps.Config
