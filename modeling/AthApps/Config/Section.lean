import AthApps.Config.Layout
import AthApps.Config.Lines

/-!
# The lines of a section

What the loops over the lines of a section do, on a section whose text is a
list of whole lines: they find the first line that a test accepts, they remove
the lines with a tag, and they put a line where it belongs.
-/

set_option autoImplicit false

namespace AthApps.Config

open AthApps.Lib List Option

def Slot.set (x : Slot) (body : Bytes) (first last : Nat) : Slot :=
  { x with body := body, first := first, last := last }

def Shows (s : Session) (pre : List Slot) (x : Slot) (post : List Slot) (body : Bytes) :
    Prop :=
  ∃ first last, Layout s (pre ++ x.set body first last :: post)

theorem Session.Small.mono {m n : Nat} (less : m ≤ n) (small : Session.Small n) :
    Session.Small m := by
  unfold Session.Small at small ⊢
  omega

section Loops

variable {s after : Session} {pre post : List Slot} {x : Slot} {first n : Nat}
  {front back text new : Bytes}

theorem textOf_set (pre post : List Slot) (x : Slot) (body : Bytes) (first last : Nat) :
    (textOf (pre ++ x.set body first last :: post)).length =
      (textOf pre).length + (x.header.length + (body.length + x.footer.length)) +
        (textOf post).length := by
  simp only [textOf_append, textOf_cons, Slot.text, Slot.set, length_append]
  omega

theorem Shows.rewind {body : Bytes} (shows : Shows s pre x post body) :
    ∃ after, s.configeditRewind x.bound = some after ∧
      Layout after (pre ++ x.set body 0 0 :: post) := by
  obtain ⟨first, last, layout⟩ := shows
  exact layout.rewind

theorem Shows.seekend {body : Bytes} (shows : Shows s pre x post body) :
    ∃ after, s.configeditSeekend x.bound = some after ∧
      Layout after (pre ++ x.set body body.length body.length :: post) := by
  obtain ⟨first, last, layout⟩ := shows
  exact layout.seekend

theorem Layout.nextOf {line : Bytes}
    (layout : Layout s (pre ++ x.set (front ++ (line ++ back)) first front.length :: post))
    (isLine : IsLine line) :
    ∃ after junk, s.configeditNextLine x.bound = some (after, (line.length : Int)) ∧
      Layout after (pre ++ x.set (front ++ (line ++ back)) front.length
        (front.length + line.length) :: post) ∧
      after.textAt x.bound = some (line ++ junk) := by
  obtain ⟨after, next, layout'⟩ := @Layout.nextLine s pre post
    (x.set (front ++ (line ++ back)) first front.length) front (line ++ back) layout rfl rfl
  rw [lineSize_line isLine] at next layout'
  obtain ⟨junk, reads⟩ := @Layout.textAt after pre post
    (x.set (front ++ (line ++ back)) front.length (front.length + line.length)) front
    (line ++ back) layout' rfl rfl
  rw [append_assoc] at reads
  exact ⟨after, _, next, layout', reads⟩

theorem Layout.nextEnd (layout : Layout s (pre ++ x.set front first front.length :: post)) :
    ∃ after, s.configeditNextLine x.bound = some (after, 0) ∧
      Layout after (pre ++ x.set front front.length front.length :: post) :=
  @Layout.nextLine s pre post (x.set front first front.length) front [] layout (by simp [Slot.set])
    rfl

theorem Layout.scan {accepts : Bytes → Bool} {todo : List Bytes} {fuel : Nat}
    (looks : ∀ line rest, IsLine line → accepts (line ++ rest) = accepts line)
    (layout : Layout s (pre ++ x.set (front ++ todo.flatten) first front.length :: post))
    (lines : ∀ line ∈ todo, IsLine line) (enough : todo.length < fuel) :
    ∃ after found, s.scan accepts x.bound fuel = some (after, found) ∧
      (found = false ∧ (∀ line ∈ todo, accepts line = false) ∧
          Shows after pre x post (front ++ todo.flatten) ∨
        found = true ∧ ∃ skipped line later, todo = skipped ++ line :: later ∧
          (∀ other ∈ skipped, accepts other = false) ∧ accepts line = true ∧
          Layout after (pre ++ x.set (front ++ todo.flatten) (front ++ skipped.flatten).length
            ((front ++ skipped.flatten).length + line.length) :: post)) := by
  induction todo generalizing s front first fuel with
  | nil =>
    obtain ⟨fuel, rfl⟩ : ∃ m, fuel = m + 1 := ⟨fuel - 1, by omega⟩
    simp only [flatten_nil, append_nil] at layout
    obtain ⟨after, next, layout'⟩ := layout.nextEnd
    refine ⟨after, false, ?_, Or.inl ⟨rfl, by simp, ?_⟩⟩
    · rw [Session.scan, next]
      rfl
    · simp only [flatten_nil, append_nil]
      exact ⟨_, _, layout'⟩
  | cons line todo ih =>
    obtain ⟨fuel, rfl⟩ : ∃ m, fuel = m + 1 := ⟨fuel - 1, by omega⟩
    have isLine := lines line (by simp)
    simp only [flatten_cons] at layout ⊢
    obtain ⟨after, junk, next, layout', reads⟩ := layout.nextOf isLine
    have positive : ¬ ((line.length : Int) = 0) := by
      have := length_pos_of_ne_nil isLine.ne_nil
      omega
    rw [Session.scan, next]
    simp only [bind_eq_bind, bind_some, if_neg positive, reads, looks line junk isLine]
    cases accepted : accepts line with
    | true =>
      refine ⟨after, true, rfl, Or.inr ⟨rfl, [], line, todo, rfl, by simp, accepted, ?_⟩⟩
      simpa using layout'
    | false =>
      simp only [Bool.false_eq_true, if_false]
      rw [← append_assoc, ← length_append] at layout'
      have enough' : todo.length < fuel := by
        simp only [length_cons] at enough
        omega
      obtain ⟨final, found, scans, result⟩ := ih layout'
        (fun other member => lines other (by simp [member])) enough'
      refine ⟨final, found, scans, ?_⟩
      rcases result with ⟨rfl, none, shows⟩ | ⟨rfl, skipped, other, later, rfl, none, yes, final⟩
      · refine Or.inl ⟨rfl, ?_, ?_⟩
        · intro other member
          rcases mem_cons.mp member with rfl | member
          · exact accepted
          · exact none other member
        · rw [← append_assoc]
          exact shows
      · refine Or.inr ⟨rfl, line :: skipped, other, later, rfl, ?_, yes, ?_⟩
        · intro another member
          rcases mem_cons.mp member with rfl | member
          · exact accepted
          · exact none another member
        · simpa only [flatten_cons, append_assoc] using final

theorem Layout.removeOthers {tag : Bytes} {todo : List Bytes} {fuel : Nat}
    (layout : Layout s (pre ++ x.set (front ++ todo.flatten) first front.length :: post))
    (filled : ∀ y ∈ pre, y.text ≠ []) (lines : ∀ line ∈ todo, IsLine line)
    (enough : todo.length < fuel)
    (size : (textOf (pre ++ x.set (front ++ todo.flatten) first front.length :: post)).length ≤ n) :
    Yields (Session.Small n) (fun after => Shows after pre x post
        (front ++ (todo.filter fun line => !tagEqual tag line).flatten))
      (s.configRewriteRemoveOthers tag x.bound fuel) := by
  induction todo generalizing s front first fuel with
  | nil =>
    obtain ⟨fuel, rfl⟩ : ∃ m, fuel = m + 1 := ⟨fuel - 1, by omega⟩
    simp only [flatten_nil, append_nil] at layout
    obtain ⟨after, next, layout'⟩ := layout.nextEnd
    rw [Session.configRewriteRemoveOthers, next]
    simp only [filter_nil, flatten_nil, append_nil]
    exact ⟨_, _, layout'⟩
  | cons line todo ih =>
    obtain ⟨fuel, rfl⟩ : ∃ m, fuel = m + 1 := ⟨fuel - 1, by omega⟩
    have isLine := lines line (by simp)
    have rest : ∀ other ∈ todo, IsLine other := fun other member => lines other (by simp [member])
    have enough' : todo.length < fuel := by
      simp only [length_cons] at enough
      omega
    simp only [flatten_cons] at layout size
    obtain ⟨after, junk, next, layout', reads⟩ := layout.nextOf isLine
    have positive : ¬ ((line.length : Int) = 0) := by
      have := length_pos_of_ne_nil isLine.ne_nil
      omega
    rw [Session.configRewriteRemoveOthers, next]
    simp only [bind_eq_bind, bind_some, if_neg positive, reads]
    rw [Session.eraseTagged, tagEqual_append _ isLine.ended]
    rw [textOf_set] at size
    cases tagged : tagEqual tag line with
    | true =>
      simp only [if_true, filter_cons, tagged, Bool.not_true, Bool.false_eq_true, if_false]
      have erases := @Layout.erase after pre post
        (x.set (front ++ (line ++ todo.flatten)) front.length (front.length + line.length))
        front line todo.flatten layout' filled rfl rfl rfl
      refine (erases.under (Session.Small.mono ?_)).bind ?_
      · rw [textOf_set]
        exact size
      · intro final erased
        refine ih erased rest enough' ?_
        rw [textOf_set]
        simp only [length_append] at size ⊢
        omega
    | false =>
      simp only [Bool.false_eq_true, if_false, filter_cons, tagged, Bool.not_false, if_true,
        bind_some, flatten_cons]
      rw [← append_assoc, ← length_append] at layout'
      have result := ih layout' rest enough' (by
        rw [textOf_set]
        simp only [length_append] at size ⊢
        omega)
      rw [← append_assoc]
      exact result

end Loops

def written (line : Bytes) (named : Bool) : Bytes :=
  if named then indentText ++ line else line

/-- What putting a line makes of the lines of a section, conflicts left aside: it takes the place of
the first with its tag and there are no others, or if there is none it comes in somewhere. -/
inductive Put (line new : Bytes) : List Bytes → List Bytes → Prop
  | exchange {skipped later : List Bytes} {old : Bytes}
      (before : ∀ other ∈ skipped, tagEqual line other = false) (same : tagEqual line old = true) :
      Put line new (skipped ++ old :: later)
        (skipped ++ new :: later.filter fun other => !tagEqual line other)
  | insert {front back : List Bytes}
      (absent : ∀ other ∈ front ++ back, tagEqual line other = false) :
      Put line new (front ++ back) (front ++ new :: back)

def Fresh (line : Bytes) (lines : List Bytes) : Prop :=
  ∀ other ∈ lines, tagEqual line other = false ∧ isTwin line other = false

/-- A line is put into the lines, and comes last where there is nothing like it. -/
structure Sets (line new : Bytes) (lines lines' : List Bytes) : Prop where
  put : Put line new lines lines'
  last : Fresh line lines → lines' = lines ++ [new]

def withoutTags (tags : List Bytes) (lines : List Bytes) : List Bytes :=
  lines.filter fun line => !tags.any fun tag => tagEqual tag line

theorem withoutTags_nil (lines : List Bytes) : withoutTags [] lines = lines := by
  simp [withoutTags]

theorem withoutTags_cons (tag : Bytes) (tags lines : List Bytes) :
    withoutTags (tag :: tags) lines =
      withoutTags tags (lines.filter fun line => !tagEqual tag line) := by
  simp only [withoutTags, List.filter_filter, any_cons, Bool.not_or]
  congr 1
  funext line
  exact Bool.and_comm _ _

theorem flatten_filter_length (test : Bytes → Bool) (lines : List Bytes) :
    (lines.filter test).flatten.length ≤ lines.flatten.length := by
  induction lines with
  | nil => exact Nat.le_refl _
  | cons line lines ih =>
    rw [filter_cons]
    split <;> simp only [flatten_cons, length_append] <;> omega

section Puts

variable {s after : Session} {pre post : List Slot} {x : Slot} {first n : Nat}
  {front back text line : Bytes} {named : Bool}

theorem Layout.enough {lines : List Bytes} {last : Nat}
    (layout : Layout s (pre ++ x.set (front ++ lines.flatten) first last :: post))
    (isLine : ∀ line ∈ lines, IsLine line) : lines.length < s.buf.length + 1 := by
  have count : ∀ {some : List Bytes}, (∀ line ∈ some, IsLine line) →
      some.length ≤ some.flatten.length := by
    intro some
    induction some with
    | nil => exact fun _ => Nat.le_refl _
    | cons line rest ih =>
      intro all
      have positive := length_pos_of_ne_nil (all line (by simp)).ne_nil
      have less := ih fun other member => all other (by simp [member])
      simp only [length_cons, flatten_cons, length_append]
      omega
  obtain ⟨junk, buf⟩ := layout.buf
  have size := textOf_set pre post x (front ++ lines.flatten) first last
  have less := count isLine
  rw [buf, length_append, size, length_append]
  omega

theorem Layout.indent (layout : Layout s (pre ++ x.set (front ++ (text ++ back)) front.length
      (front.length + text.length) :: post))
    (filled : ∀ y ∈ pre, y.text ≠ [])
    (size : (textOf (pre ++ x.set (front ++ (text ++ back)) front.length
      (front.length + text.length) :: post)).length + (written [] named).length ≤ n) :
    Yields (Session.Small n)
      (fun after => Layout after (pre ++ x.set (front ++ ((text ++ written [] named) ++ back))
        front.length (front.length + (text ++ written [] named).length) :: post))
      (indent s x.bound named) := by
  cases named with
  | false =>
    simp only [written, Bool.false_eq_true, if_false, append_nil, Config.indent]
    exact layout
  | true =>
    simp only [written, if_true, append_nil, Config.indent] at size ⊢
    have appends := @Layout.append s pre post
      (x.set (front ++ (text ++ back)) front.length (front.length + text.length))
      front text back indentText layout filled rfl rfl rfl
    exact appends.under (Session.Small.mono size)

theorem written_length (line : Bytes) (named : Bool) :
    (written line named).length = (written [] named).length + line.length := by
  cases named <;> simp [written]

theorem written_eq (line : Bytes) (named : Bool) :
    written line named = written [] named ++ line := by
  cases named <;> simp [written]

theorem Layout.appendLine (layout : Layout s (pre ++ x.set (front ++ (text ++ back)) front.length
      (front.length + text.length) :: post))
    (filled : ∀ y ∈ pre, y.text ≠ [])
    (size : (textOf (pre ++ x.set (front ++ (text ++ back)) front.length
      (front.length + text.length) :: post)).length + (written line named).length ≤ n) :
    Yields (Session.Small n)
      (fun after => Layout after (pre ++ x.set (front ++ ((text ++ written line named) ++ back))
        front.length (front.length + (text ++ written line named).length) :: post))
      (appendLine s x.bound line named) := by
  rw [written_length, textOf_set] at size
  rw [Config.appendLine]
  refine (layout.indent filled (by rw [textOf_set]; omega)).bind ?_
  intro middle indented
  have appends := @Layout.append middle pre post
    (x.set (front ++ ((text ++ written [] named) ++ back)) front.length
      (front.length + (text ++ written [] named).length))
    front (text ++ written [] named) back line indented filled rfl rfl rfl
  refine (appends.under (Session.Small.mono ?_)).imp ?_
  · rw [textOf_set]
    simp only [length_append] at size ⊢
    omega
  · intro final done
    rw [written_eq, ← append_assoc text]
    exact done

theorem Layout.replaceText (layout : Layout s (pre ++ x.set (front ++ (text ++ back)) front.length
      (front.length + text.length) :: post))
    (filled : ∀ y ∈ pre, y.text ≠ [])
    (size : (textOf (pre ++ x.set (front ++ (text ++ back)) front.length
      (front.length + text.length) :: post)).length + (written line named).length ≤ n) :
    Yields (Session.Small n)
      (fun after => Layout after (pre ++ x.set (front ++ (written line named ++ back))
        front.length (front.length + (written line named).length) :: post))
      (replaceText s x.bound line named) := by
  rw [textOf_set] at size
  cases named with
  | false =>
    simp only [written, Bool.false_eq_true, if_false, Config.replaceText] at size ⊢
    have replaces := @Layout.replace s pre post
      (x.set (front ++ (text ++ back)) front.length (front.length + text.length))
      front text back line layout filled rfl rfl rfl
    refine replaces.under (Session.Small.mono ?_)
    rw [textOf_set]
    exact size
  | true =>
    simp only [written, if_true, Config.replaceText, length_append] at size ⊢
    have replaces := @Layout.replace s pre post
      (x.set (front ++ (text ++ back)) front.length (front.length + text.length))
      front text back indentText layout filled rfl rfl rfl
    refine (replaces.under (Session.Small.mono ?_)).bind ?_
    · rw [textOf_set]
      simp only [length_append]
      omega
    · intro middle replaced
      have appends := @Layout.append middle pre post
        (x.set (front ++ (indentText ++ back)) front.length (front.length + indentText.length))
        front indentText back line replaced filled rfl rfl rfl
      refine (appends.under (Session.Small.mono ?_)).imp ?_
      · rw [textOf_set]
        simp only [length_append]
        omega
      · intro final done
        rw [length_append] at done
        exact done

def sizeWith (pre : List Slot) (x : Slot) (post : List Slot) (body : Bytes) : Nat :=
  (textOf pre).length + (x.header.length + (body.length + x.footer.length)) + (textOf post).length

theorem Layout.replaceLine {skipped later : List Bytes} {old : Bytes}
    (layout : Layout s (pre ++ x.set (skipped ++ old :: later).flatten skipped.flatten.length
      (skipped.flatten.length + old.length) :: post))
    (filled : ∀ y ∈ pre, y.text ≠ []) (isLine : ∀ other ∈ later, IsLine other)
    (size : sizeWith pre x post (skipped ++ old :: later).flatten +
      (written line named).length ≤ n) :
    Yields (Session.Small n) (fun after => Shows after pre x post
        (skipped ++ written line named :: later.filter fun other => !tagEqual line other).flatten)
      (replaceLine s x.bound line named) := by
  unfold sizeWith at size
  simp only [flatten_append, flatten_cons] at layout size ⊢
  rw [Config.replaceLine]
  refine (layout.replaceText filled (by rw [textOf_set]; exact size)).bind ?_
  intro middle replaced
  rw [← append_assoc, ← length_append] at replaced
  have fuel := replaced.enough isLine
  have removes := @Layout.removeOthers middle pre post x _ n _ line later _ replaced filled isLine
    fuel (by
      rw [textOf_set]
      simp only [length_append] at size ⊢
      omega)
  simp only [append_assoc] at removes
  exact removes

variable {lines lines' : List Bytes}

theorem Shows.addLine (shows : Shows s pre x post lines.flatten) (filled : ∀ y ∈ pre, y.text ≠ [])
    (isLine : ∀ other ∈ lines, IsLine other)
    (size : sizeWith pre x post lines.flatten + (written line named).length ≤ n) :
    Yields (Session.Small n) (fun after => ∃ front back, lines = front ++ back ∧
        ((∀ other ∈ lines, isTwin line other = false) → back = []) ∧
        Shows after pre x post (front ++ written line named :: back).flatten)
      (addLine s x.bound line named) := by
  unfold sizeWith at size
  obtain ⟨middle, rewinds, layout⟩ := shows.rewind
  have fuel := @Layout.enough middle pre post x 0 [] lines 0 layout isLine
  obtain ⟨later, found, scans, result⟩ := @Layout.scan middle pre post x 0 [] (isTwin line) lines _
    (fun other rest isLine => isTwin_append line isLine.ended rest) layout isLine fuel
  simp only [nil_append] at result
  rw [Config.addLine, rewinds]
  simp only [bind_eq_bind, bind_some, scans]
  rcases result with ⟨rfl, -, shows'⟩ | ⟨rfl, skipped, twin, rest, rfl, -, isTwin, layout'⟩
  · obtain ⟨final, seeks, layout'⟩ := shows'.seekend
    simp only [Bool.false_eq_true, if_false, seeks, bind_some]
    have appends := @Layout.appendLine final pre post x n lines.flatten [] [] line named
      (by simpa using layout') filled (by
        rw [textOf_set]
        simpa using size)
    refine appends.imp ?_
    intro last done
    exact ⟨lines, [], by simp, fun _ => rfl, _, _, by simpa using done⟩
  · simp only [if_true]
    simp only [flatten_append, flatten_cons] at layout' size
    have appends := @Layout.appendLine later pre post x n skipped.flatten rest.flatten twin line
      named layout' filled (by rw [textOf_set]; exact size)
    refine appends.imp ?_
    intro last done
    refine ⟨skipped ++ [twin], rest, by simp, ?_, ?_⟩
    · intro absent
      rw [absent twin (by simp)] at isTwin
      cases isTwin
    · simp only [flatten_append, flatten_cons, flatten_nil, append_nil, append_assoc] at done ⊢
      exact ⟨_, _, done⟩

theorem Shows.removeTag {tag : Bytes} (shows : Shows s pre x post lines.flatten)
    (filled : ∀ y ∈ pre, y.text ≠ []) (isLine : ∀ other ∈ lines, IsLine other)
    (size : sizeWith pre x post lines.flatten ≤ n) :
    Yields (Session.Small n)
      (fun after => Shows after pre x post (lines.filter fun line => !tagEqual tag line).flatten)
      (s.removeTag x.bound tag) := by
  obtain ⟨middle, rewinds, layout⟩ := shows.rewind
  have fuel := @Layout.enough middle pre post x 0 [] lines 0 layout isLine
  rw [Session.removeTag, rewinds]
  exact @Layout.removeOthers middle pre post x 0 n [] tag lines _ layout filled isLine fuel (by
    rw [textOf_set]
    exact size)

theorem Shows.removeTags {tags : List Bytes} (shows : Shows s pre x post lines.flatten)
    (filled : ∀ y ∈ pre, y.text ≠ []) (isLine : ∀ other ∈ lines, IsLine other)
    (size : sizeWith pre x post lines.flatten ≤ n) :
    Yields (Session.Small n) (fun after => Shows after pre x post (withoutTags tags lines).flatten)
      (s.removeTags x.bound tags) := by
  induction tags generalizing s lines with
  | nil =>
    rw [Session.removeTags, withoutTags_nil]
    exact shows
  | cons tag tags ih =>
    rw [Session.removeTags, withoutTags_cons]
    refine (shows.removeTag filled isLine size).bind ?_
    intro middle removed
    refine ih removed (fun other member => isLine other (mem_filter.mp member).1) ?_
    have less := flatten_filter_length (fun line => !tagEqual tag line) lines
    unfold sizeWith at size ⊢
    omega

def conflictsOf (line : Bytes) (named : Bool) : List Bytes :=
  if named then [] else conflicts line

theorem Put.all {good : Bytes → Prop} {new : Bytes} (put : Put line new lines lines')
    (old : ∀ other ∈ lines, good other) (newGood : good new) : ∀ other ∈ lines', good other := by
  cases put with
  | @exchange skipped later line' before same =>
    intro other member
    rcases mem_append.mp member with member | member
    · exact old other (mem_append_left _ member)
    · rcases mem_cons.mp member with rfl | member
      · exact newGood
      · apply old other
        have here := (mem_filter.mp member).1
        simp [here]
  | @insert front back absent =>
    intro other member
    rcases mem_append.mp member with member | member
    · exact old other (mem_append_left _ member)
    · rcases mem_cons.mp member with rfl | member
      · exact newGood
      · exact old other (mem_append_right _ member)

theorem Put.length {new : Bytes} (put : Put line new lines lines') :
    lines'.flatten.length ≤ lines.flatten.length + new.length := by
  cases put with
  | @exchange skipped later old before same =>
    have less := flatten_filter_length (fun other => !tagEqual line other) later
    simp only [flatten_append, flatten_cons, length_append]
    omega
  | @insert front back absent =>
    simp only [flatten_append, flatten_cons, length_append]
    omega

theorem Shows.putLine {lines : List Bytes} (shows : Shows s pre x post lines.flatten)
    (filled : ∀ y ∈ pre, y.text ≠ []) (isLine : ∀ other ∈ lines, IsLine other)
    (newLine : IsLine (written line named))
    (size : sizeWith pre x post lines.flatten + (written line named).length ≤ n) :
    Yields (Session.Small n) (fun after => ∃ lines', Sets line (written line named) lines lines' ∧
        Shows after pre x post (withoutTags (conflictsOf line named) lines').flatten)
      (putLine s x.bound line named) := by
  obtain ⟨middle, rewinds, layout⟩ := shows.rewind
  have fuel := @Layout.enough middle pre post x 0 [] lines 0 layout isLine
  obtain ⟨later, found, scans, result⟩ := @Layout.scan middle pre post x 0 [] (tagEqual line) lines _
    (fun other rest isLine => tagEqual_append line isLine.ended rest) layout isLine fuel
  simp only [nil_append] at result
  have puts : Yields (Session.Small n)
      (fun after => ∃ lines', Sets line (written line named) lines lines' ∧
        Shows after pre x post lines'.flatten)
      (writeLine later x.bound line named found) := by
    rw [writeLine]
    rcases result with ⟨rfl, absent, shows'⟩ | ⟨rfl, skipped, old, rest, rfl, before, same, layout'⟩
    · simp only [Bool.false_eq_true, if_false]
      refine (shows'.addLine filled isLine size).imp ?_
      rintro after ⟨front, back, rfl, last, done⟩
      refine ⟨_, ⟨.insert absent, ?_⟩, done⟩
      intro fresh
      obtain rfl := last fun other member => (fresh other member).2
      rw [append_nil]
    · simp only [if_true]
      refine (layout'.replaceLine filled (fun other member => isLine other (by simp [member]))
        size).imp ?_
      intro after done
      refine ⟨_, ⟨.exchange before same, ?_⟩, done⟩
      intro fresh
      rw [(fresh old (by simp)).1] at same
      cases same
  rw [Config.putLine, rewinds]
  simp only [bind_eq_bind, bind_some, scans]
  refine puts.bind ?_
  rintro after ⟨lines', sets, done⟩
  have less := sets.put.length
  rw [resolve, conflictsOf]
  cases named with
  | true =>
    simp only [if_true, withoutTags_nil]
    exact ⟨lines', sets, done⟩
  | false =>
    simp only [Bool.false_eq_true, if_false]
    refine (done.removeTags filled (sets.put.all isLine newLine) ?_).imp ?_
    · unfold sizeWith at size ⊢
      omega
    · intro final removed
      exact ⟨lines', sets, removed⟩

end Puts

end AthApps.Config
