import AthApps.Config.Create

/-!
# What the lines of a file amount to

What a line changes in the document changes its meaning as the line says, so
what the lines so far amount to is the meaning of the document, and no comment
of a section is lost.
-/

set_option autoImplicit false

namespace AthApps.Config

open AthApps.Lib List
open Function (update_of_ne update_self)

def emitted (current : Option Bytes) (line : Bytes) :
    List (Option Bytes × Bytes) :=
  match kindOf line with
  | .close => []
  | .opens _ => []
  | _ => [(current, line)]

def pick (part : Option Bytes) (found : List (Option Bytes × Bytes)) :
    List Bytes :=
  found.filterMap fun each => if each.1 = part then some each.2 else none

section Steps

variable {current part : Option Bytes} {line : Bytes} {m : Meaning}
  {front back : List (Option Bytes × Bytes)}

theorem located_cons (current : Option Bytes) (line : Bytes) (rest : List Bytes) :
    located current (line :: rest) = emitted current line ++ located (nextPart current line) rest := by
  rw [located, emitted, nextPart]
  cases kindOf line <;> rfl

theorem resolved_append (m : Meaning) (front back : List (Option Bytes × Bytes)) :
    resolved m (front ++ back) = resolved (resolved m front) back := by
  induction front generalizing m with
  | nil => rfl
  | cons found rest ih =>
    obtain ⟨part, line⟩ := found
    rw [cons_append, resolved, resolved]
    cases kindOf line <;> exact ih _

theorem harmlessAll_append :
    HarmlessAll m (front ++ back) ↔ HarmlessAll m front ∧ HarmlessAll (resolved m front) back := by
  induction front generalizing m with
  | nil => simp [HarmlessAll, resolved]
  | cons found rest ih =>
    obtain ⟨part, line⟩ := found
    rw [cons_append, HarmlessAll, HarmlessAll, resolved]
    cases kindOf line with
    | assigns tag value =>
      simp only
      rw [ih, and_assoc]
    | _ => exact ih

theorem pick_append (part : Option Bytes) (front back : List (Option Bytes × Bytes)) :
    pick part (front ++ back) = pick part front ++ pick part back := filterMap_append

end Steps

/-- The document has what a line adds, and no more than that but for comments. -/
structure Takes (d : Document) (part : Option Bytes) (line : Bytes) (d' : Document) :
    Prop where
  meaning : meaning d'.text = resolved (meaning d.text) (emitted part line)
  comments : ∀ other, (commentsOf (d.lines other) ++
    commentsOf (pick other (emitted part line))).Sublist (commentsOf (d'.lines other))

section Taking

variable {d d' : Document} {line new : Bytes} {part : Option Bytes}

theorem addLine_meaning (sound : d.Sound) (member : part ∈ d.parts) (isLine : IsLine new)
    (inner : Inner new) (untagged : tagOf new = []) :
    meaning (d.set part (d.lines part ++ [new])).text = meaning d.text := by
  funext other tag
  rw [meaning_text (sound.addLine member isLine inner untagged), meaning_text sound,
    Document.set_lines]
  by_cases same : other = part
  · rw [same, update_self, lastValue, filterMap_append]
    have none : valueIn tag new = none := by
      cases found : valueIn tag new with
      | none => rfl
      | some v =>
        obtain ⟨own, nonempty⟩ := valueIn_tag found
        exact absurd (own.symm.trans untagged) nonempty
    simp [lastValue, none]
  · rw [update_of_ne same]

theorem addLine_comments (d : Document) (part other : Option Bytes) (new : Bytes) :
    commentsOf ((d.set part (d.lines part ++ [new])).lines other) =
      commentsOf (d.lines other) ++ if other = part then commentsOf [new] else [] := by
  rw [Document.set_lines]
  by_cases same : other = part
  · rw [same, update_self, commentsOf_append, if_pos rfl]
  · rw [update_of_ne same, if_neg same, append_nil]

theorem emitted_nothing (part : Option Bytes) (m : Meaning)
    (notComment : kindOf line ≠ .comment) (notValue : ∀ tag value, kindOf line ≠ .assigns tag value) :
    resolved m (emitted part line) = m ∧
      ∀ other, commentsOf (pick other (emitted part line)) = [] := by
  have values : ∀ found, found = [] ∨ found = [(part, line)] → resolved m found = m ∧
      ∀ other, commentsOf (pick other found) = [] := by
    rintro found (rfl | rfl)
    · exact ⟨rfl, fun other => rfl⟩
    · refine ⟨?_, ?_⟩
      · rw [resolved]
        split
        next tag value assigns => exact absurd assigns (notValue tag value)
        next => rfl
      · intro other
        simp only [pick, filterMap_cons, filterMap_nil]
        split
        · rfl
        next each known =>
          split at known
          · cases known
            rw [commentsOf_cons_other notComment]
            rfl
          · cases known
  apply values
  unfold emitted
  cases kindOf line <;> simp

theorem takes_self (d : Document) (part : Option Bytes) (notComment : kindOf line ≠ .comment)
    (notValue : ∀ tag value, kindOf line ≠ .assigns tag value) : Takes d part line d := by
  obtain ⟨values, comments⟩ := @emitted_nothing line part (meaning d.text) notComment notValue
  refine ⟨values.symm, ?_⟩
  intro other
  rw [comments other, append_nil]

theorem takes_plain (sound : d.Sound) (member : part ∈ d.parts) (isLine : IsLine new)
    (inner : Inner new) (untagged : tagOf new = [])
    (notValue : ∀ tag value, kindOf line ≠ .assigns tag value)
    (comment : kindOf line = .comment → commentsOf [new] = [skipWhite line]) :
    Takes d part line (d.set part (d.lines part ++ [new])) := by
  refine ⟨?_, ?_⟩
  · rw [addLine_meaning sound member isLine inner untagged]
    by_cases isComment : kindOf line = .comment
    · simp [emitted, isComment, resolved]
    · exact (emitted_nothing part _ isComment notValue).1.symm
  · intro other
    rw [addLine_comments]
    by_cases isComment : kindOf line = .comment
    · have adds : commentsOf (pick other (emitted part line)) =
          if other = part then commentsOf [new] else [] := by
        rw [comment isComment]
        simp only [emitted, isComment, pick, filterMap_cons, filterMap_nil]
        by_cases same : part = other
        · simp [same, commentsOf, isComment]
        · simp [same, Ne.symm same, commentsOf]
      rw [adds]
    · rw [(@emitted_nothing line part (meaning d.text) isComment notValue).2 other, append_nil]
      exact sublist_append_left _ _

theorem takes_section (sound : d.Sound) {name : Bytes} (opens : kindOf line = .opens name) :
    Takes d part line (d.withSection name) := by
  obtain ⟨same, nonempty, first⟩ := @kindOf_tag line name [] (Or.inl opens)
  have sound' := sound.withSection ⟨nonempty, by rw [← same, tagOf_tagOf]⟩ first
  have nothing := @emitted_nothing line part (meaning d.text) (by rw [opens]; simp)
    (by rw [opens]; simp)
  refine ⟨?_, ?_⟩
  · rw [nothing.1]
    funext other tag
    rw [meaning_text sound', meaning_text sound, lastValue, lastValue]
    have values := @withPart_values d (some name) sound tag other
    rw [Document.withPart] at values
    rw [values]
  · intro other
    have comments := @withPart_comments d (some name) sound other
    rw [Document.withPart] at comments
    rw [nothing.2 other, append_nil, comments]

theorem takes_value {tag value : Bytes} {lines' : List Bytes} (sound : d.Sound)
    (member : part ∈ d.parts) (isLine : IsLine line) (assigns : kindOf line = .assigns tag value)
    (harmless : HarmlessAll (meaning d.text) (emitted part line))
    (put : Put (skipWhite line) (written (skipWhite line) part.isSome) (d.lines part) lines') :
    Takes d part line (d.putInto part (skipWhite line) lines') := by
  have assigns' : kindOf (skipWhite line) = .assigns tag value := by
    rw [kindOf_skipWhite]
    exact assigns
  have isText := skipWhite_isLine isLine
  have writable := sound.writable member
  have put' : Put (skipWhite line) (written (skipWhite line) part.isSome)
      ((d.withPart part).lines part) lines' := by
    rw [Document.withPart_self member]
    exact put
  have emits : emitted part line = [(part, line)] := by simp [emitted, assigns]
  rw [emits] at harmless
  simp only [HarmlessAll, assigns] at harmless
  refine ⟨?_, ?_⟩
  · rw [putInto_meaning sound writable isText assigns' harmless.1 put', emits]
    simp [resolved, assigns]
  · intro other
    rw [putInto_comments sound assigns' put', emits]
    have none : commentsOf (pick other [(part, line)]) = [] := by
      by_cases same : part = other
      · simp [pick, same, commentsOf, assigns]
      · simp [pick, same, commentsOf]
    rw [none, append_nil]

theorem Changes.takes (changes : Changes d part line d') (sound : d.Sound) (member : part ∈ d.parts)
    (isLine : IsLine line) (harmless : HarmlessAll (meaning d.text) (emitted part line)) :
    Takes d part line d' := by
  cases changes with
  | skips kind =>
    rcases kind with kind | kind | kind
    · exact takes_self d part (by simp [kind]) (by simp [kind])
    · exact takes_self d part (by simp [kind]) (by simp [kind])
    · exact takes_self d part (by simp [kind]) (by simp [kind])
  | @adds new added =>
    obtain ⟨newLine, newKind, -⟩ := added.isNew isLine
    have untagged := @written_untagged _ part.isSome newKind
    refine takes_plain sound member (written_isLine newLine) untagged.1 untagged.2 ?_ ?_
    · intro tag value assigns
      cases added with
      | copied kind => rcases kind with kind | kind <;> rw [kind] at assigns <;> cases assigns
      | commented kind =>
        rw [kind] at assigns
        cases assigns
    · intro comment
      cases added with
      | copied kind' =>
        simp only [commentsOf, filter_cons, filter_nil, kindOf_written,
          kindOf_skipWhite, comment, decide_true, if_true, map_cons, map_nil,
          skipWhite_written, skipWhite_idem]
      | commented kind' =>
        rw [comment] at kind'
        cases kind'
  | opens kind outside => exact takes_section sound kind
  | illegal kind inside =>
    have comment : kindOf (illegalText ++ skipWhite line) = .comment := kindOf_hash (by decide) _
    exact takes_plain sound member ((skipWhite_isLine isLine).append (by decide))
      (by simp [Inner, comment]) (tagOf_comment comment) (by simp [kind]) (by simp [kind])
  | puts kind put => exact takes_value sound member isLine kind harmless put

end Taking

structure TakesAll (d : Document) (found : List (Option Bytes × Bytes))
    (d' : Document) : Prop where
  meaning : meaning d'.text = resolved (meaning d.text) found
  comments : ∀ other, (commentsOf (d.lines other) ++ commentsOf (pick other found)).Sublist
    (commentsOf (d'.lines other))

section All

variable {d : Document} {part : Option Bytes} {file : Bytes}

theorem Takes.andAll {line : Bytes} {d' d'' : Document}
    {found : List (Option Bytes × Bytes)} (takes : Takes d part line d')
    (later : TakesAll d' found d'') : TakesAll d (emitted part line ++ found) d'' := by
  refine ⟨?_, ?_⟩
  · rw [later.meaning, takes.meaning, resolved_append]
  · intro other
    rw [pick_append, commentsOf_append, ← append_assoc]
    exact ((takes.comments other).append (List.Sublist.refl _)).trans (later.comments other)

theorem ChangesAll.takes {lines : List Bytes} {d' : Document}
    (changes : ChangesAll d part lines d') (sound : d.Sound) (member : part ∈ d.parts)
    (isLine : ∀ line ∈ lines, IsLine line)
    (harmless : HarmlessAll (meaning d.text) (located part lines)) :
    TakesAll d (located part lines) d' := by
  induction changes with
  | nil d part =>
    refine ⟨rfl, ?_⟩
    intro other
    simp [located, pick, commentsOf]
  | @cons d d' d'' part line rest first later ih =>
    have isLine' := isLine line (by simp)
    rw [located_cons] at harmless ⊢
    obtain ⟨here, others⟩ := harmlessAll_append.mp harmless
    have takes := first.takes sound member isLine' here
    rw [← takes.meaning] at others
    exact takes.andAll (ih (first.sound sound member isLine') (first.member member)
      (fun other inside => isLine other (by simp [inside])) others)

theorem blankDocument_meaning : meaning blankDocument.text = fun _ _ => none := by
  funext part tag
  rw [meaning_text blankDocument_sound, blankDocument]
  by_cases same : part = none
  · subst same
    simp only [update_self, lastValue]
    have none : valueIn tag markerLine = none := by
      simp [valueIn, show kindOf markerLine = .marker by decide]
    simp [none]
  · simp only [update_of_ne same, lastValue]
    rfl

theorem blankDocument_comments (part : Option Bytes) :
    commentsOf (blankDocument.lines part) = [] := by
  rw [blankDocument]
  by_cases same : part = none
  · subst same
    simp only [update_self]
    decide
  · simp only [update_of_ne same]
    rfl

theorem fileLines_ended (ended : file = [] ∨ Ended file) : fileLines file = linesOf file := by
  rw [fileLines, if_pos]
  rcases ended with empty | ⟨front, rfl⟩
  · exact Or.inl empty
  · exact Or.inr getLast?_concat

theorem create_document (ended : file = [] ∨ Ended file)
    (harmless : HarmlessAll (fun _ _ => none) (located none (linesOf file))) :
    Yields (Session.Small (72 * file.length + 63))
      (fun r => ∃ d, (∃ slot, Holds r d slot) ∧ d.Sound ∧
        TakesAll blankDocument (located none (linesOf file)) d)
      (configRewriteCreate file) := by
  have lines := fileLines_ended ended
  have creates := create_changes file
  rw [lines, flatten_linesOf] at creates
  refine creates.imp ?_
  rintro r ⟨d, holds, sound, changes⟩
  exact ⟨d, holds, sound, changes.takes blankDocument_sound blankDocument.mem_parts_none
    (linesOf_isLine ended) (by rw [blankDocument_meaning]; exact harmless)⟩

end All

end AthApps.Config
