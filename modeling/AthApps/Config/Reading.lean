import AthApps.Config.Document
import AthApps.Config.Meaning

/-!
# Reading a document

The text of a document has the lines of the document, each in its section.  So
its meaning is told section by section, and putting a line into a section
updates it.
-/

set_option autoImplicit false

namespace AthApps.Config

open AthApps.Lib List

section Kinds

variable {line tag value : Bytes}

theorem skipWhite_idem (line : Bytes) : skipWhite (skipWhite line) = skipWhite line := by
  unfold skipWhite
  cases rest : line.dropWhile isWhite with
  | nil => rfl
  | cons c text =>
    have head := head?_dropWhile_not isWhite line
    rw [rest] at head
    simp only [head?_cons] at head
    simp [head]

theorem tagOf_skipWhite (line : Bytes) : tagOf (skipWhite line) = tagOf line := by
  rw [tagOf, skipWhite_idem]
  rfl

theorem kindOf_skipWhite (line : Bytes) : kindOf (skipWhite line) = kindOf line := by
  unfold kindOf
  rw [skipWhite_idem]

theorem skipWhite_written (line : Bytes) (named : Bool) :
    skipWhite (written line named) = skipWhite line := by
  cases named with
  | false => rfl
  | true =>
    rw [written, if_pos rfl, skipWhite, dropWhile_append_of_pos (List.all_eq_true.mp rfl)]
    rfl

theorem kindOf_written (line : Bytes) (named : Bool) :
    kindOf (written line named) = kindOf line := by
  unfold kindOf
  rw [skipWhite_written]

theorem tagOf_written (line : Bytes) (named : Bool) :
    tagOf (written line named) = tagOf line := by
  unfold tagOf
  rw [skipWhite_written]

theorem tagOf_eq_nil (ends : endsTag ((skipWhite line).headD 0) = true) : tagOf line = [] := by
  rw [tagOf]
  cases text : skipWhite line with
  | nil => rfl
  | cons c rest =>
    rw [text] at ends
    simp only [headD_cons] at ends
    simp [ends]

theorem kindOf_head (line : Bytes) :
    (kindOf line = .comment → (skipWhite line).headD 0 = hash) ∧
    (kindOf line = .blank → (skipWhite line).headD 0 = newline) ∧
    (kindOf line = .untagged → (skipWhite line).headD 0 = equalSign) := by
  unfold kindOf
  dsimp only
  split
  · exact ⟨nofun, nofun, nofun⟩
  split
  next isHash => exact ⟨fun _ => isHash, nofun, nofun⟩
  split
  next isNewline => exact ⟨nofun, fun _ => isNewline, nofun⟩
  split
  next isEqual => exact ⟨nofun, nofun, fun _ => isEqual⟩
  split
  · exact ⟨nofun, nofun, nofun⟩
  split
  · exact ⟨nofun, nofun, nofun⟩
  split <;> exact ⟨nofun, nofun, nofun⟩

theorem tagOf_comment (comment : kindOf line = .comment) : tagOf line = [] := by
  apply tagOf_eq_nil
  rw [(kindOf_head line).1 comment]
  decide

theorem tagOf_blank (blank : kindOf line = .blank) : tagOf line = [] := by
  apply tagOf_eq_nil
  rw [(kindOf_head line).2.1 blank]
  decide

theorem tagOf_ne_nil {c : UInt8} {rest : Bytes} (text : skipWhite line = c :: rest)
    (notHash : c ≠ hash) (notNewline : c ≠ newline) (notEqual : c ≠ equalSign) :
    ∃ more, tagOf line = c :: more := by
  have head := head?_dropWhile_not isWhite line
  rw [show line.dropWhile isWhite = c :: rest from text] at head
  simp only [head?_cons, isWhite, Bool.and_eq_false_iff, decide_eq_false_iff_not,
    Bool.not_eq_false', ne_eq, not_not] at head
  have graph : isGraph c = true := head.resolve_left notNewline
  have continues : endsTag c = false := by
    simp [endsTag, notHash, notEqual, graph]
  rw [tagOf, text]
  simp [continues]

theorem kindOf_tag
    (kind : kindOf line = .opens tag ∨ kindOf line = .assigns tag value) :
    tagOf line = tag ∧ tag ≠ [] ∧ tag.headD 0 ≠ closeBrace := by
  unfold kindOf at kind
  dsimp only at kind
  split at kind
  · simp at kind
  split at kind
  · simp at kind
  next notHash =>
  split at kind
  · simp at kind
  next notNewline =>
  split at kind
  · simp at kind
  next notEqual =>
  split at kind
  · simp at kind
  next notClose =>
  split at kind
  · simp at kind
  next found known =>
  have same : tagOf (skipWhite line) = tag := by
    split at kind
    · simpa using kind
    · simp only [reduceCtorEq, Kind.assigns.injEq, false_or] at kind
      exact kind.1
  rw [tagOf_skipWhite] at same
  cases text : skipWhite line with
  | nil =>
    rw [text] at known
    cases known
  | cons c rest =>
    rw [text] at notHash notNewline notEqual notClose
    obtain ⟨more, tagged⟩ := tagOf_ne_nil text notHash notNewline notEqual
    rw [same] at tagged
    refine ⟨same, by simp [tagged], ?_⟩
    rw [tagged]
    exact notClose

theorem assigns_tag (assigns : kindOf line = .assigns tag value) :
    tagOf line = tag ∧ tag ≠ [] := by
  obtain ⟨same, nonempty, -⟩ := kindOf_tag (Or.inr assigns)
  exact ⟨same, nonempty⟩

theorem valueIn_tag {found : Bytes} (is : valueIn tag line = some found) :
    tagOf line = tag ∧ tag ≠ [] := by
  unfold valueIn at is
  split at is
  next other v assigns =>
    split at is
    next same =>
      subst same
      exact assigns_tag assigns
    next => cases is
  next => cases is

theorem valueIn_written (tag line : Bytes) (named : Bool) :
    valueIn tag (written line named) = valueIn tag line := by
  unfold valueIn
  rw [kindOf_written]

end Kinds

section Putting

variable {line tag value : Bytes} {named : Bool} {lines lines' : List Bytes}

theorem tagEqual_eq (some : tagOf line ≠ []) (other : Bytes) :
    tagEqual line other = decide (tagOf other = tagOf line) := by
  apply Bool.eq_iff_iff.mpr
  rw [tagEqual_iff, decide_eq_true_iff]
  exact ⟨fun both => both.2.symm, fun same => ⟨some, same.symm⟩⟩

theorem filterMap_none {found : Bytes → Option Bytes}
    (none : ∀ other ∈ lines, found other = none) : lines.filterMap found = [] := by
  rw [filterMap_eq_nil_iff]
  exact none

theorem filterMap_filter_valueIn {keep : Bytes → Bool}
    (kept : ∀ other ∈ lines, (valueIn tag other).isSome → keep other = true) :
    (lines.filter keep).filterMap (valueIn tag) = lines.filterMap (valueIn tag) := by
  induction lines with
  | nil => rfl
  | cons other rest ih =>
    have later := ih fun another member => kept another (by simp [member])
    have here := kept other (by simp)
    rw [filter_cons]
    split
    · rw [filterMap_cons, filterMap_cons, later]
    next dropped =>
      rw [later, filterMap_cons]
      cases found : valueIn tag other with
      | none => rfl
      | some v =>
        rw [found] at here
        exact absurd (here rfl) dropped

theorem valueIn_none_of_tag {other : Bytes} (differs : tagOf other ≠ tag) :
    valueIn tag other = none := by
  cases found : valueIn tag other with
  | none => rfl
  | some v => exact absurd (valueIn_tag found).1 differs

theorem Put.own (put : Put line (written line named) lines lines')
    (assigns : kindOf line = .assigns tag value) :
    lines'.filterMap (valueIn tag) = [value] := by
  obtain ⟨same, nonempty⟩ := assigns_tag assigns
  have tagged : tagOf line ≠ [] := by rw [same]; exact nonempty
  have found : valueIn tag (written line named) = some value := by
    rw [valueIn_written]
    unfold valueIn
    rw [assigns]
    simp
  have none : ∀ {other : Bytes}, tagEqual line other = false → valueIn tag other = none := by
    intro other differs
    apply valueIn_none_of_tag
    rw [tagEqual_eq tagged, decide_eq_false_iff_not, same] at differs
    exact differs
  cases put with
  | @exchange skipped later old before equal =>
    rw [filterMap_append, filterMap_cons, found,
      filterMap_none fun other member => none (before other member),
      filterMap_none fun other member => none (by simpa using (mem_filter.mp member).2)]
    rfl
  | @insert front back absent =>
    rw [filterMap_append, filterMap_cons, found,
      filterMap_none fun other member => none (absent other (mem_append_left _ member)),
      filterMap_none fun other member => none (absent other (mem_append_right _ member))]
    rfl

theorem Put.other {tag' : Bytes} (put : Put line (written line named) lines lines')
    (differs : tagOf line ≠ tag') :
    lines'.filterMap (valueIn tag') = lines.filterMap (valueIn tag') := by
  have found : valueIn tag' (written line named) = none := by
    rw [valueIn_written]
    exact valueIn_none_of_tag differs
  cases put with
  | @exchange skipped later old before equal =>
    have old' : valueIn tag' old = none := by
      apply valueIn_none_of_tag
      rw [← ((tagEqual_iff line old).mp equal).2]
      exact differs
    have kept : (later.filter fun other => !tagEqual line other).filterMap (valueIn tag') =
        later.filterMap (valueIn tag') := by
      apply filterMap_filter_valueIn
      intro other _ isSome
      obtain ⟨v, known⟩ := Option.isSome_iff_exists.mp isSome
      rw [Bool.not_eq_true', Bool.eq_false_iff]
      intro equal'
      exact differs (((tagEqual_iff line other).mp equal').2.trans (valueIn_tag known).1)
    rw [filterMap_append, filterMap_append, filterMap_cons, filterMap_cons,
      found, old', kept]
  | @insert front back absent =>
    rw [filterMap_append, filterMap_append, filterMap_cons, found]

theorem withoutTags_values {tags : List Bytes}
    (areTags : ∀ other ∈ tags, other ≠ [] ∧ tagOf other = other) :
    (withoutTags tags lines).filterMap (valueIn tag) =
      if tag ∈ tags then [] else lines.filterMap (valueIn tag) := by
  split
  next member =>
    apply filterMap_none
    intro other inside
    have kept := (mem_filter.mp inside).2
    apply valueIn_none_of_tag
    intro same
    simp only [Bool.not_eq_true', any_eq_false] at kept
    refine kept tag member ((tagEqual_iff tag other).mpr ?_)
    obtain ⟨nonempty, isTag⟩ := areTags tag member
    rw [isTag]
    exact ⟨nonempty, same.symm⟩
  next absent =>
    apply filterMap_filter_valueIn
    intro other _ isSome
    obtain ⟨v, known⟩ := Option.isSome_iff_exists.mp isSome
    simp only [Bool.not_eq_true', any_eq_false]
    intro another inside equal
    obtain ⟨-, same⟩ := (tagEqual_iff another other).mp equal
    rw [(areTags another inside).2, (valueIn_tag known).1] at same
    rw [same] at inside
    exact absent inside

theorem commentsOf_append (front back : List Bytes) :
    commentsOf (front ++ back) = commentsOf front ++ commentsOf back := by
  simp [commentsOf]

theorem commentsOf_cons_other {other : Bytes} (isOther : kindOf other ≠ .comment)
    (rest : List Bytes) : commentsOf (other :: rest) = commentsOf rest := by
  simp [commentsOf, isOther]

theorem commentsOf_filter {keep : Bytes → Bool}
    (kept : ∀ other, tagOf other = [] → keep other = true) :
    commentsOf (lines.filter keep) = commentsOf lines := by
  unfold commentsOf
  rw [filter_filter]
  congr 1
  apply filter_congr
  intro other _
  by_cases comment : kindOf other = .comment
  · simp [comment, kept other (tagOf_comment comment)]
  · simp [comment]

theorem tagEqual_untagged {other : Bytes} (line : Bytes) (untagged : tagOf other = []) :
    tagEqual line other = false := by
  apply Bool.eq_false_iff.mpr
  intro equal
  obtain ⟨some, same⟩ := (tagEqual_iff line other).mp equal
  exact some (same.trans untagged)

theorem commentsOf_withoutTags (tags : List Bytes) :
    commentsOf (withoutTags tags lines) = commentsOf lines := by
  apply commentsOf_filter
  intro other untagged
  simp only [Bool.not_eq_true', any_eq_false]
  intro tag _
  rw [tagEqual_untagged tag untagged]
  simp

theorem Put.comments (put : Put line (written line named) lines lines')
    (assigns : kindOf line = .assigns tag value) : commentsOf lines' = commentsOf lines := by
  have new : kindOf (written line named) ≠ .comment := by
    rw [kindOf_written, assigns]
    simp
  cases put with
  | @exchange skipped later old before equal =>
    have old' : kindOf old ≠ .comment := by
      intro comment
      rw [tagEqual_untagged line (tagOf_comment comment)] at equal
      cases equal
    rw [commentsOf_append, commentsOf_append, commentsOf_cons_other new,
      commentsOf_cons_other old', commentsOf_filter]
    intro other untagged
    rw [tagEqual_untagged line untagged]
    rfl
  | @insert front back absent =>
    rw [commentsOf_append, commentsOf_append, commentsOf_cons_other new]

def tagCount (tag : Bytes) (lines : List Bytes) : Nat :=
  lines.countP fun line => tagOf line = tag

theorem tagCount_filter_le (keep : Bytes → Bool) :
    tagCount tag (lines.filter keep) ≤ tagCount tag lines :=
  (filter_sublist (p := keep)).countP_le

theorem Put.once (put : Put line (written line named) lines lines') (tagged : tagOf line ≠ [])
    (once : ∀ tag, tag ≠ [] → tagCount tag lines ≤ 1) (nonempty : tag ≠ []) :
    tagCount tag lines' ≤ 1 := by
  have zero : ∀ {some : List Bytes}, (∀ other ∈ some, tagEqual line other = false) →
      tagCount (tagOf line) some = 0 := by
    intro some none
    rw [tagCount, countP_eq_zero]
    intro other member equal
    have differs := none other member
    rw [tagEqual_eq tagged] at differs
    simp only [decide_eq_true_eq] at equal
    simp [equal] at differs
  have before := once tag nonempty
  cases put with
  | @exchange skipped later old front equal =>
    have old' : tagOf old = tagOf line := ((tagEqual_iff line old).mp equal).2.symm
    have fewer := @tagCount_filter_le tag later fun other => !tagEqual line other
    by_cases same : tagOf line = tag
    · subst same
      have first := zero front
      have second := @zero (later.filter fun other => !tagEqual line other)
        (fun other member => by simpa using (mem_filter.mp member).2)
      unfold tagCount at first second ⊢
      rw [countP_append, countP_cons, first, second, tagOf_written]
      simp
    · unfold tagCount at before fewer ⊢
      rw [countP_append, countP_cons] at before ⊢
      rw [tagOf_written]
      simp only [same, decide_false, Bool.false_eq_true, if_false]
      omega
  | @insert front back absent =>
    by_cases same : tagOf line = tag
    · subst same
      have none := zero absent
      unfold tagCount at none ⊢
      rw [countP_append] at none
      rw [countP_append, countP_cons, tagOf_written]
      simp only [decide_true, if_true]
      omega
    · unfold tagCount at before ⊢
      rw [countP_append] at before
      rw [countP_append, countP_cons, tagOf_written]
      simp only [same, decide_false, Bool.false_eq_true, if_false]
      omega

end Putting

def Inner (line : Bytes) : Prop :=
  kindOf line ≠ .close ∧ ∀ name, kindOf line ≠ .opens name

structure Document.Sound (d : Document) : Prop extends d.Formed where
  inner : ∀ part, ∀ line ∈ d.lines part, Inner line
  once : ∀ part tag, tag ≠ [] → tagCount tag (d.lines part) ≤ 1
  absent : ∀ part, part ∉ d.parts → d.lines part = []
  opens : ∀ name ∈ d.names, name.headD 0 ≠ closeBrace

section Texts

variable {d : Document} {current : Option Bytes} {lines : List Bytes}

theorem located_inner (inner : ∀ line ∈ lines, Inner line) (rest : List Bytes) :
    located current (lines ++ rest) = lines.map (fun line => (current, line)) ++
      located current rest := by
  induction lines with
  | nil => rfl
  | cons line lines ih =>
    obtain ⟨notClose, notOpen⟩ := inner line (by simp)
    have later := ih fun other member => inner other (by simp [member])
    rw [cons_append, located]
    split
    next close => exact absurd close notClose
    next name opens => exact absurd opens (notOpen name)
    next => rw [later, map_cons, cons_append]

theorem kindOf_header {name : Bytes} (isTag : name ≠ [] ∧ tagOf name = name)
    (opens : name.headD 0 ≠ closeBrace) : kindOf (name ++ openText) = .opens name := by
  obtain ⟨nonempty, same⟩ := isTag
  obtain ⟨c, rest, rfl⟩ := exists_cons_of_ne_nil nonempty
  have all : ∀ b ∈ c :: rest, endsTag b = false := by
    intro b member
    rw [← same, tagOf] at member
    simpa using mem_takeWhile_imp member
  have first := all c (by simp)
  simp only [endsTag, Bool.or_eq_false_iff, decide_eq_false_iff_not, Bool.not_eq_false'] at first
  obtain ⟨⟨notHash, notEqual⟩, graph⟩ := first
  have white : isWhite c = false := by simp [isWhite, graph]
  have notNewline : c ≠ newline := by
    rintro rfl
    rw [isGraph_newline] at graph
    cases graph
  have skips : ∀ more : Bytes, skipWhite (c :: rest ++ more) = c :: rest ++ more := by
    intro more
    simp [skipWhite, white]
  have body : ∀ b ∈ c :: rest, (b ≠ equalSign && b ≠ hash && isGraph b) = true := by
    intro b member
    have ends := all b member
    simp only [endsTag, Bool.or_eq_false_iff, decide_eq_false_iff_not, Bool.not_eq_false'] at ends
    simp [ends]
  have value : tagValue (c :: rest ++ openText) = some [openBrace, newline] := by
    unfold tagValue
    rw [skips]
    simp only [dropWhile_append_of_pos body]
    decide
  have tag : tagOf (c :: rest ++ openText) = c :: rest := by
    rw [tagOf, skips, takeWhile_append_of_pos (by
      intro b member
      simp [all b member])]
    simp [openText, show endsTag 61 = true by decide]
  unfold kindOf
  rw [skips]
  simp only [value, tag]
  have notMarker : c :: rest ++ openText ≠ markerLine := by
    intro equal
    have head : c = 35 := by
      simpa [markerLine] using congrArg (fun l => l.headD 0) equal
    exact notHash head
  rw [if_neg notMarker]
  simp only [cons_append, headD_cons] at opens ⊢
  rw [if_neg notHash, if_neg notNewline, if_neg notEqual, if_neg opens]
  simp

theorem kindOf_footer : kindOf closeText = .close := by decide

def Document.partLines (d : Document) : Option Bytes → List Bytes
  | none => d.lines none
  | some name => (name ++ openText) :: (d.lines (some name) ++ [closeText])

theorem partLines_flatten (d : Document) (part : Option Bytes) :
    (d.partLines part).flatten = d.partText part := by
  cases part with
  | none => simp [Document.partLines, Document.partText, headerOf, footerOf]
  | some name => simp [Document.partLines, Document.partText, headerOf, footerOf]

theorem partLines_isLine (formed : d.Formed) {part : Option Bytes} (member : part ∈ d.parts) :
    ∀ line ∈ d.partLines part, IsLine line := by
  cases part with
  | none => exact formed.isLine none member
  | some name =>
    intro line inside
    rw [Document.partLines, mem_cons, mem_append, mem_singleton] at inside
    rcases inside with rfl | inside | rfl
    · refine ⟨name ++ [equalSign, openBrace], by simp [openText, equalSign, openBrace, newline], ?_⟩
      have isTag := (formed.isTag name (Document.mem_parts_some.mp member)).2
      rw [mem_append, not_or]
      refine ⟨?_, by decide⟩
      intro has
      rw [← isTag, tagOf] at has
      have continues := mem_takeWhile_imp has
      simp [endsTag_newline] at continues
    · exact formed.isLine (some name) member line inside
    · exact ⟨[closeBrace], by decide, by decide⟩

theorem text_partLines (d : Document) : d.text = (d.parts.flatMap d.partLines).flatten := by
  rw [Document.text, flatMap_def, flatMap_def, flatten_flatten, map_map]
  congr 2
  funext part
  exact (partLines_flatten d part).symm

theorem linesOf_text (sound : d.Sound) : linesOf d.text = d.parts.flatMap d.partLines := by
  rw [text_partLines, linesOf_flatten]
  intro line inside
  obtain ⟨part, member, inside⟩ := mem_flatMap.mp inside
  exact partLines_isLine sound.toFormed member line inside

theorem located_named (sound : d.Sound) {names : List Bytes}
    (inside : ∀ name ∈ names, name ∈ d.names) :
    located none ((names.map some).flatMap d.partLines) =
      (names.map some).flatMap fun part => (d.lines part).map fun line => (part, line) := by
  induction names with
  | nil => rfl
  | cons name rest ih =>
    have member := inside name (by simp)
    have later := ih fun other member => inside other (by simp [member])
    have kind := kindOf_header (sound.isTag name member) (sound.opens name member)
    rw [map_cons, flatMap_cons, flatMap_cons, Document.partLines, cons_append,
      located, kind]
    simp only [Option.getD_none, append_assoc]
    rw [located_inner (sound.inner (some name)), singleton_append, located, kindOf_footer]
    simp only
    rw [later]

theorem located_text (sound : d.Sound) :
    located none (linesOf d.text) =
      d.parts.flatMap fun part => (d.lines part).map fun line => (part, line) := by
  rw [linesOf_text sound, Document.parts, flatMap_cons, flatMap_cons, Document.partLines,
    located_inner (sound.inner none), located_named sound fun name member => member]

theorem linesIn_text (sound : d.Sound) (part : Option Bytes) :
    linesIn part d.text = d.lines part := by
  have own : ∀ lines : List Bytes, (lines.map fun line => (part, line)).filterMap
      (fun found => if found.1 = part then some found.2 else none) = lines := by
    intro lines
    induction lines with
    | nil => rfl
    | cons line lines ih => simp [ih]
  have others : ∀ {other : Option Bytes}, other ≠ part → ∀ lines : List Bytes,
      (lines.map fun line => (other, line)).filterMap
        (fun found => if found.1 = part then some found.2 else none) = [] := by
    intro other differs lines
    induction lines with
    | nil => rfl
    | cons line lines ih => simp [ih, differs]
  have picks : ∀ {parts : List (Option Bytes)}, parts.Nodup →
      (parts.flatMap fun part => (d.lines part).map fun line => (part, line)).filterMap
        (fun found => if found.1 = part then some found.2 else none) =
      if part ∈ parts then d.lines part else [] := by
    intro parts nodup
    induction parts with
    | nil => rfl
    | cons other rest ih =>
      obtain ⟨out, later⟩ := nodup_cons.mp nodup
      rw [flatMap_cons, filterMap_append, ih later]
      by_cases same : other = part
      · subst same
        rw [own]
        simp [out]
      · rw [others same]
        simp [Ne.symm same]
  rw [linesIn, located_text sound, picks (Document.parts_nodup sound.toFormed)]
  split
  · rfl
  next out => exact (sound.absent part out).symm

theorem meaning_text (sound : d.Sound) (part : Option Bytes) (tag : Bytes) :
    meaning d.text part tag = lastValue tag (d.lines part) := by
  rw [meaning, linesIn_text sound]

theorem once_text (sound : d.Sound) : Once d.text := by
  intro part tag nonempty
  rw [linesIn_text sound]
  exact sound.once part tag nonempty

end Texts

end AthApps.Config
