import AthApps.Config.Reading

/-!
# A line updates the meaning

The document that a line is put into has the updated meaning, if the line does
not remove WEP keys that it should leave alone: the code compares only the tag
of the line with that of `wpa=1`.
-/

set_option autoImplicit false

namespace AthApps.Config

open AthApps.Lib List
open Function (update_of_ne update_self)

section Conflicts

variable {line tag value : Bytes}

theorem conflicts_eq (same : tagOf line = tag) (nonempty : tag ≠ []) :
    conflicts line =
      if tag = wpaPassphrase then [wpaPsk]
      else if tag = wpaPsk then [wpaPassphrase]
      else if tag = wpaTag then wepTags
      else [] := by
  have equal : ∀ other, tagEqual line other = decide (tagOf other = tag) := by
    intro other
    rw [tagEqual_eq (by rw [same]; exact nonempty), same]
  unfold conflicts wpaLines
  simp only [equal, any_cons, any_nil, Bool.or_false,
    show tagOf wpaPassphrase = wpaPassphrase by decide, show tagOf wpaPsk = wpaPsk by decide,
    show tagOf [119, 112, 97, 61, 49] = wpaTag by decide,
    show tagOf [119, 112, 97, 61, 50] = wpaTag by decide,
    show tagOf [119, 112, 97, 61, 51] = wpaTag by decide]
  by_cases first : tag = wpaPassphrase
  · subst first
    decide
  by_cases second : tag = wpaPsk
  · subst second
    decide
  simp [Ne.symm first, Ne.symm second, first, second, eq_comm]

/-- What is removed is what should be, and the WEP keys when `wpa` is set to anything else. -/
theorem mem_conflicts (same : tagOf line = tag) (nonempty : tag ≠ []) (other : Bytes) :
    other ∈ conflicts line ↔ other ∈ excluded tag value ∨
      (tag = wpaTag ∧ enablesWpa value = false ∧ other ∈ wepTags) := by
  rw [conflicts_eq same nonempty, excluded]
  by_cases first : tag = wpaPassphrase
  · simp [first, show wpaPassphrase ≠ wpaTag by decide]
  by_cases second : tag = wpaPsk
  · simp [second, show wpaPsk ≠ wpaTag by decide]
  by_cases third : tag = wpaTag
  · subst third
    rw [if_neg first, if_neg second, if_pos rfl, if_neg first, if_neg second]
    cases enablesWpa value <;> simp
  · simp [first, second, third]

theorem conflicts_tags (same : tagOf line = tag) (nonempty : tag ≠ []) :
    ∀ other ∈ conflicts line, other ≠ [] ∧ tagOf other = other := by
  rw [conflicts_eq same nonempty]
  split
  · decide
  split
  · decide
  split
  · decide
  · simp

theorem not_mem_conflicts (same : tagOf line = tag) (nonempty : tag ≠ []) :
    tag ∉ conflicts line := by
  rw [conflicts_eq same nonempty]
  split
  next is => rw [is]; decide
  split
  next is => rw [is]; decide
  split
  next is => rw [is]; decide
  · simp

end Conflicts

section Sections

variable {d : Document} {part : Option Bytes} {name : Bytes}

theorem kindOf_marker : kindOf (indentText ++ markerLine) = .marker := by decide

theorem tagOf_marker : tagOf (indentText ++ markerLine) = [] := by decide

theorem Document.Sound.withSection (sound : d.Sound) (isTag : name ≠ [] ∧ tagOf name = name)
    (opens : name.headD 0 ≠ closeBrace) : (d.withSection name).Sound := by
  have formed := sound.toFormed.withSection isTag
  rw [Document.withSection] at formed ⊢
  split
  · exact sound
  next out =>
  rw [if_neg out] at formed
  refine ⟨formed, ?_, ?_, ?_, ?_⟩
  · intro part line inside
    simp only [Document.addSection] at inside
    by_cases same : part = some name
    · rw [same, update_self, mem_singleton] at inside
      rw [inside, Inner, kindOf_marker]
      simp
    · rw [update_of_ne same] at inside
      exact sound.inner part line inside
  · intro part tag nonempty
    simp only [Document.addSection]
    by_cases same : part = some name
    · rw [same, update_self]
      unfold tagCount
      rw [countP_cons, tagOf_marker]
      simp [Ne.symm nonempty]
    · rw [update_of_ne same]
      exact sound.once part tag nonempty
  · intro part outside
    rw [addSection_parts, mem_append, mem_singleton, not_or] at outside
    simp only [Document.addSection]
    rw [update_of_ne outside.2]
    exact sound.absent part outside.1
  · intro other member
    rcases mem_append.mp member with member | member
    · exact sound.opens other member
    · rw [mem_singleton.mp member]
      exact opens

def Writable (part : Option Bytes) : Prop :=
  ∀ name, part = some name → (name ≠ [] ∧ tagOf name = name) ∧ name.headD 0 ≠ closeBrace

theorem Document.Sound.withPart (sound : d.Sound) (writable : Writable part) :
    (d.withPart part).Sound := by
  cases part with
  | none => exact sound
  | some name => exact sound.withSection (writable name rfl).1 (writable name rfl).2

theorem withPart_values (sound : d.Sound) (tag : Bytes) (other : Option Bytes) :
    ((d.withPart part).lines other).filterMap (valueIn tag) =
      (d.lines other).filterMap (valueIn tag) := by
  cases part with
  | none => rfl
  | some name =>
    rw [Document.withPart, Document.withSection]
    split
    · rfl
    next out =>
      simp only [Document.addSection]
      by_cases same : other = some name
      · subst same
        rw [update_self, sound.absent (some name) (by
          rw [Document.mem_parts_some]
          exact out)]
        simp [valueIn, kindOf_marker]
      · rw [update_of_ne same]

theorem withPart_comments (sound : d.Sound) (other : Option Bytes) :
    commentsOf ((d.withPart part).lines other) = commentsOf (d.lines other) := by
  cases part with
  | none => rfl
  | some name =>
    rw [Document.withPart, Document.withSection]
    split
    · rfl
    next out =>
      simp only [Document.addSection]
      by_cases same : other = some name
      · subst same
        rw [update_self, sound.absent (some name) (by
          rw [Document.mem_parts_some]
          exact out), commentsOf_cons_other (by rw [kindOf_marker]; simp)]
      · rw [update_of_ne same]

end Sections

section Updates

variable {d : Document} {part : Option Bytes} {line tag value : Bytes}
  {lines' : List Bytes}

def Document.putInto (d : Document) (part : Option Bytes) (line : Bytes)
    (lines' : List Bytes) : Document :=
  (d.withPart part).set part (withoutTags (conflictsOf line part.isSome) lines')

theorem Put.sound (sound : d.Sound) (writable : Writable part) (isLine : IsLine line)
    (assigns : kindOf line = .assigns tag value)
    (put : Put line (written line part.isSome) ((d.withPart part).lines part) lines') :
    (d.putInto part line lines').Sound := by
  have before := sound.withPart writable
  have member := d.mem_withPart part
  have formed := Put.formed before.toFormed member isLine put
  obtain ⟨same, nonempty⟩ := assigns_tag assigns
  have keeps : ∀ other ∈ lines', Inner other := by
    apply put.all (before.inner part)
    rw [Inner, kindOf_written, assigns]
    simp
  refine ⟨formed, ?_, ?_, ?_, before.opens⟩
  · intro other line' inside
    rw [Document.putInto, Document.set_lines] at inside
    by_cases equal : other = part
    · rw [equal, update_self] at inside
      exact keeps line' (mem_filter.mp inside).1
    · rw [update_of_ne equal] at inside
      exact before.inner other line' inside
  · intro other tag' nonempty'
    rw [Document.putInto, Document.set_lines]
    by_cases equal : other = part
    · rw [equal, update_self]
      exact Nat.le_trans (tagCount_filter_le _)
        (put.once (by rw [same]; exact nonempty) (before.once part) nonempty')
    · rw [update_of_ne equal]
      exact before.once other tag' nonempty'
  · intro other outside
    rw [Document.putInto, Document.set_lines]
    have equal : other ≠ part := by
      rintro rfl
      exact outside member
    rw [update_of_ne equal]
    exact before.absent other outside

theorem putInto_comments (sound : d.Sound) (assigns : kindOf line = .assigns tag value)
    (put : Put line (written line part.isSome) ((d.withPart part).lines part) lines')
    (other : Option Bytes) :
    commentsOf ((d.putInto part line lines').lines other) = commentsOf (d.lines other) := by
  rw [Document.putInto, Document.set_lines]
  by_cases equal : other = part
  · rw [equal, update_self, commentsOf_withoutTags, put.comments assigns, withPart_comments sound]
  · rw [update_of_ne equal, withPart_comments sound]

theorem putInto_values (sound : d.Sound) (assigns : kindOf line = .assigns tag value)
    (put : Put line (written line part.isSome) ((d.withPart part).lines part) lines')
    (other : Option Bytes) (tag' : Bytes) :
    ((d.putInto part line lines').lines other).filterMap (valueIn tag') =
      if other = part ∧ tag' = tag then [value]
      else if other = none ∧ part = none ∧ tag' ∈ conflicts line then []
      else (d.lines other).filterMap (valueIn tag') := by
  obtain ⟨same, nonempty⟩ := assigns_tag assigns
  rw [Document.putInto, Document.set_lines]
  by_cases equal : other = part
  · subst equal
    have areTags : ∀ t ∈ conflictsOf line other.isSome, t ≠ [] ∧ tagOf t = t := by
      unfold conflictsOf
      split
      · simp
      · exact conflicts_tags same nonempty
    rw [update_self, withoutTags_values areTags]
    by_cases own : tag' = tag
    · subst own
      have out : tag' ∉ conflictsOf line other.isSome := by
        unfold conflictsOf
        split
        · simp
        · exact not_mem_conflicts same nonempty
      rw [if_neg out, put.own assigns]
      simp
    · rw [put.other (by rw [same]; exact Ne.symm own), withPart_values sound]
      cases other with
      | none => simp [conflictsOf, own]
      | some name => simp [conflictsOf, own]
  · rw [update_of_ne equal, withPart_values sound, if_neg (by simp [equal]), if_neg]
    rintro ⟨first, second, -⟩
    exact equal (first.trans second.symm)

theorem putInto_meaning (sound : d.Sound) (writable : Writable part) (isLine : IsLine line)
    (assigns : kindOf line = .assigns tag value)
    (harmless : Harmless (meaning d.text) part tag value)
    (put : Put line (written line part.isSome) ((d.withPart part).lines part) lines') :
    meaning (d.putInto part line lines').text = update (meaning d.text) part tag value := by
  obtain ⟨same, nonempty⟩ := assigns_tag assigns
  funext other tag'
  rw [meaning_text (put.sound sound writable isLine assigns), lastValue,
    putInto_values sound assigns put, update]
  by_cases own : other = part ∧ tag' = tag
  · rw [if_pos own, if_pos own]
    rfl
  rw [if_neg own, if_neg own]
  have old : ((d.lines other).filterMap (valueIn tag')).getLast? = meaning d.text other tag' := by
    rw [meaning_text sound]
    rfl
  by_cases unnamed : other = none ∧ part = none
  · obtain ⟨rfl, rfl⟩ := unnamed
    simp only [true_and]
    by_cases excludes : tag' ∈ excluded tag value
    · have removed := (@mem_conflicts line tag value same nonempty tag').mpr (Or.inl excludes)
      rw [if_pos removed, if_pos excludes]
      rfl
    rw [if_neg excludes]
    by_cases removed : tag' ∈ conflicts line
    · rw [if_pos removed]
      obtain ⟨isWpa, disables, isWep⟩ :=
        ((@mem_conflicts line tag value same nonempty tag').mp removed).resolve_left excludes
      rcases harmless rfl isWpa with enables | keyless
      · rw [disables] at enables
        cases enables
      · rw [keyless tag' isWep]
        rfl
    · rw [if_neg removed, old]
  · rw [if_neg (fun both => unnamed ⟨both.1, both.2.1⟩),
      if_neg (fun both => unnamed ⟨both.1, both.2.1⟩), old]

end Updates

end AthApps.Config
