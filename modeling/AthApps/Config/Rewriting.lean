import AthApps.Config.Created

/-!
# Rewriting a configuration file

A file is rewritten by creating the document of the file and then setting line
after line.  In every such run each tag stands in its section at most once, and
the meaning changes by the line that is set, as long as no line sets `wpa` to
something else than `1`, `2` or `3` where there is a WEP key.
-/

set_option autoImplicit false

namespace AthApps.Config

open AthApps.Lib

/-- A call of `config_rewrite_line`. -/
structure Call where
  line : Bytes
  sectionName : Option Bytes

namespace Call

def text (c : Call) : Bytes := c.line.take (Session.lineSize c.line)

def part (c : Call) : Option Bytes := c.sectionName.map tagOf

end Call

namespace Rewrite

def step (r : Rewrite) (c : Call) : Option Rewrite := configRewriteLine r c.line c.sectionName

/-- The line assigns a value that does not open a section, the name of the section can be told from
the end of one, and no WEP key is removed without need. -/
def Proper (r : Rewrite) (c : Call) : Prop :=
  newline ∈ c.line ∧ (∀ name, c.part = some name → name.headD 0 ≠ closeBrace) ∧
    ∃ text tag value, r.text = some text ∧ kindOf c.text = .assigns tag value ∧
      Harmless (meaning text) c.part tag value

def Kept (r : Rewrite) (d : Document) : Prop := d.Sound ∧ ∃ slot, Holds r d slot

end Rewrite

section Steps

variable {r r' : Rewrite} {d : Document} {c : Call} {tag value : Bytes}

theorem assigns_long {line : Bytes} (isLine : IsLine line)
    (assigns : kindOf line = .assigns tag value) : 1 < line.length := by
  obtain ⟨front, rfl, -⟩ := isLine
  cases front with
  | nil =>
    rw [show kindOf ([] ++ [newline]) = .blank by decide] at assigns
    cases assigns
  | cons b front => simp

theorem Rewrite.Kept.call (kept : r.Kept d) (has : newline ∈ c.line)
    (assigns : kindOf c.text = .assigns tag value) (isTag : ∀ name, c.part = some name → name ≠ []) :
    Yields (Session.Small (d.text.length +
        (Session.lineSize c.line + ((c.sectionName.getD []).length + 35))))
      (fun r' => ∃ lines', Put c.text (written c.text c.part.isSome)
          ((d.withPart c.part).lines c.part) lines' ∧
        ∃ slot, Holds r' (d.putInto c.part c.text lines') slot)
      (r.step c) := by
  obtain ⟨sound, slot, holds⟩ := kept
  have isLine : IsLine c.text := isLine_take has
  have long := assigns_long isLine assigns
  have bounded := Session.lineSize_le c.line
  have length : c.text.length = Session.lineSize c.line := by
    rw [Call.text, List.length_take]
    omega
  have named : c.sectionName.isSome = c.part.isSome := Option.isSome_map.symm
  have sets := @Holds.rewriteLine r d slot _ c.sectionName c.line holds sound.toFormed has (by omega)
    (by
      intro name is
      exact isTag (tagOf name) (by rw [Call.part, is]; rfl)) (Nat.le_refl _)
  rw [named] at sets
  refine sets.imp ?_
  rintro r' ⟨lines', sets, slot', holds'⟩
  exact ⟨lines', sets.put, slot', holds'⟩

theorem Rewrite.step_named (has : newline ∈ c.line) (assigns : kindOf c.text = .assigns tag value)
    (steps : r.step c = some r') : ∀ name, c.part = some name → name ≠ [] := by
  rintro name isPart rfl
  have isLine : IsLine c.text := isLine_take has
  have long := assigns_long isLine assigns
  obtain ⟨given, isName, untagged⟩ := Option.map_eq_some_iff.mp isPart
  have missing : ∀ x : Section, tagEqual given x.name = false := by
    intro x
    apply Bool.eq_false_iff.mpr
    intro equal
    exact ((tagEqual_iff given x.name).mp equal).1 untagged
  unfold Rewrite.step configRewriteLine at steps
  rw [isName] at steps
  dsimp only at steps
  rw [if_neg (by exact Nat.not_le.mpr long), configRewriteSectionFind] at steps
  simp only [missing] at steps
  rw [show r.sections.find? (fun _ => false) = none by simp, tagDup_eq, if_pos untagged] at steps
  cases steps

theorem Rewrite.Kept.step (kept : r.Kept d) (proper : r.Proper c) (steps : r.step c = some r') :
    ∃ d' tag value, r'.Kept d' ∧ kindOf c.text = .assigns tag value ∧
      meaning d'.text = update (meaning d.text) c.part tag value ∧
      ∀ part, commentsOf (d'.lines part) = commentsOf (d.lines part) := by
  obtain ⟨has, opens, text, tag, value, shown, assigns, harmless⟩ := proper
  have named := Rewrite.step_named has assigns steps
  obtain ⟨lines', put, slot', holds'⟩ := (kept.call has assigns named).of_result steps
  obtain ⟨sound, slot, holds⟩ := kept
  cases holds.text_eq.symm.trans shown
  have isLine : IsLine c.text := isLine_take has
  have writable : Writable c.part := by
    intro name is
    refine ⟨⟨named name is, ?_⟩, opens name is⟩
    obtain ⟨given, -, rfl⟩ := Option.map_eq_some_iff.mp is
    exact tagOf_tagOf given
  exact ⟨_, tag, value, ⟨put.sound sound writable isLine assigns, slot', holds'⟩, assigns,
    putInto_meaning sound writable isLine assigns harmless put,
    putInto_comments sound assigns put⟩

end Steps

structure CreatedFrom (file text : Bytes) : Prop where
  once : Once text
  meaning : meaning text = resolved (fun _ _ => none) (located none (linesOf file))
  comments : ∀ part, (commentsOf (linesIn part file)).Sublist (commentsOf (linesIn part text))

/-- What is to hold of a text after a line has been set in another. -/
structure ChangedBy (c : Call) (tag value text text' : Bytes) : Prop where
  assigns : kindOf c.text = .assigns tag value
  meaning : meaning text' = update (meaning text) c.part tag value
  comments : ∀ part, commentsOf (linesIn part text') = commentsOf (linesIn part text)

theorem rewrite_updates_meaning (file : Bytes) (ended : file = [] ∨ Ended file)
    (_ : Flat none (linesOf file))
    (harmless : HarmlessAll (fun _ _ => none) (located none (linesOf file))) :
    (Session.Small (72 * file.length + 63) → ∃ start, configRewriteCreate file = some start) ∧
    ∀ start, configRewriteCreate file = some start →
      (∃ text, start.text = some text ∧ CreatedFrom file text) ∧
      ∀ r, Reaches Rewrite.step Rewrite.Proper start r → ∃ text, r.text = some text ∧ Once text ∧
          ∀ c, r.Proper c → (Session.Small (text.length +
                (Session.lineSize c.line + ((c.sectionName.getD []).length + 35))) →
              (∀ name, c.part = some name → name ≠ []) → ∃ r', r.step c = some r') ∧
            ∀ r', r.step c = some r' → ∃ text' tag value,
              r'.text = some text' ∧ ChangedBy c tag value text text' := by
  have creates := create_document ended harmless
  refine ⟨?_, ?_⟩
  · intro small
    obtain ⟨start, created, -⟩ := creates.exists small
    exact ⟨start, created⟩
  intro start created
  obtain ⟨d, ⟨slot, holds⟩, sound, takes⟩ := creates.of_result created
  refine ⟨⟨d.text, holds.text_eq, once_text sound, ?_, ?_⟩, ?_⟩
  · rw [takes.meaning, blankDocument_meaning]
  · intro part
    have comments := takes.comments part
    rw [blankDocument_comments, List.nil_append] at comments
    rw [linesIn_text sound]
    exact comments
  intro r reached
  have kept : ∃ d, r.Kept d := by
    refine @Reaches.invariant _ _ _ _ (fun r => ∃ d, r.Kept d) start r ?_ reached
      ⟨d, sound, slot, holds⟩
    rintro state c after proper steps ⟨d, kept⟩
    obtain ⟨d', -, -, kept', -⟩ := kept.step proper steps
    exact ⟨d', kept'⟩
  obtain ⟨d, kept⟩ := kept
  obtain ⟨sound, slot, holds⟩ := kept
  have kept : r.Kept d := ⟨sound, slot, holds⟩
  refine ⟨d.text, holds.text_eq, once_text sound, ?_⟩
  intro c proper
  refine ⟨?_, ?_⟩
  · intro small named
    obtain ⟨has, -, text, tag, value, -, assigns, -⟩ := proper
    obtain ⟨r', steps, -⟩ := (kept.call has assigns named).exists small
    exact ⟨r', steps⟩
  · intro r' steps
    obtain ⟨d', tag, value, ⟨sound', slot', holds'⟩, assigns, means, comments⟩ :=
      kept.step proper steps
    refine ⟨d'.text, tag, value, holds'.text_eq, assigns, means, ?_⟩
    intro part
    rw [linesIn_text sound', linesIn_text sound]
    exact comments part

/-- The lines `wpa_psk=1`, `s={`, `b=2` and `}`. -/
def pskFile : Bytes :=
  wpaPsk ++ [61, 49, 10, 115, 61, 123, 10, 98, 61, 50, 10, 125, 10]

def passphraseCall : Call := ⟨wpaPassphrase ++ [61, 99, 10], none⟩

/-- The passphrase takes the place of the key, and the section stays as it was. -/
theorem rewrite_updates_meaning_psk :
    ∃ start r text, configRewriteCreate pskFile = some start ∧ start.step passphraseCall = some r ∧
      r.text = some text ∧ Once text ∧ meaning text none wpaPassphrase = some [99] ∧
      meaning text none wpaPsk = none ∧ meaning text (some [115]) [98] = some [50] := by
  have lines : linesOf pskFile =
      [wpaPsk ++ [61, 49, 10], [115, 61, 123, 10], [98, 61, 50, 10], [125, 10]] := by decide
  have psk : kindOf (wpaPsk ++ [61, 49, 10]) = .assigns wpaPsk [49] := by decide
  have opens : kindOf [115, 61, 123, 10] = .opens [115] := by decide
  have value : kindOf [98, 61, 50, 10] = .assigns [98] [50] := by decide
  have closes : kindOf [125, 10] = .close := by decide
  have flat : Flat none (linesOf pskFile) := by
    simp only [lines, Flat, psk, opens, value, closes, and_self]
  have found : located none (linesOf pskFile) =
      [(none, wpaPsk ++ [61, 49, 10]), (some [115], [98, 61, 50, 10])] := by
    simp only [lines, located, psk, opens, value, closes]
    rfl
  have harmless : HarmlessAll (fun _ _ => none) (located none (linesOf pskFile)) := by
    simp only [found, HarmlessAll, psk, value]
    refine ⟨fun _ wpa => absurd wpa (by decide), ?_, trivial⟩
    rintro ⟨⟩
  obtain ⟨total, all⟩ := rewrite_updates_meaning pskFile
    (Or.inr ⟨pskFile.dropLast, by decide⟩) flat harmless
  obtain ⟨start, created⟩ := total (by unfold Session.Small; decide)
  have length : ((configRewriteCreate pskFile).bind fun start => start.text.map List.length) =
      some 64 := by
    decide +kernel
  obtain ⟨⟨text, shown, facts⟩, reached⟩ := all start created
  rw [created, Option.bind_some, shown, Option.map_some, Option.some.injEq] at length
  obtain ⟨text', shown', -, calls⟩ := reached start .start
  cases shown.symm.trans shown'
  have assigns : kindOf passphraseCall.text = .assigns wpaPassphrase [99] := by decide
  have unnamed : ∀ name, passphraseCall.part ≠ some name := fun _ named => by cases named
  have proper : start.Proper passphraseCall := by
    refine ⟨by decide, fun name named => absurd named (unnamed name), text, _, _, shown, assigns, ?_⟩
    exact fun _ wpa => absurd wpa (by decide)
  obtain ⟨exists_step, changes⟩ := calls passphraseCall proper
  obtain ⟨r, steps⟩ := exists_step (by rw [length]; unfold Session.Small; decide)
    fun name named => absurd named (unnamed name)
  obtain ⟨text', tag, value', shown', changed⟩ := changes r steps
  cases assigns.symm.trans changed.assigns
  obtain ⟨text'', again, once, -⟩ := reached r (.step _ .start proper steps)
  cases shown'.symm.trans again
  have before := facts.meaning
  rw [found] at before
  refine ⟨start, r, text', created, steps, shown', once, ?_, ?_, ?_⟩
  · rw [changed.meaning]
    exact if_pos ⟨rfl, rfl⟩
  · rw [changed.meaning, before]
    decide
  · rw [changed.meaning, before]
    decide

/-- The file `wep_key0=1` and then the line `wpa=0`: the key is lost. -/
theorem wpa_zero_removes_key :
    (do
      let start ← configRewriteCreate [119, 101, 112, 95, 107, 101, 121, 48, 61, 49, 10]
      let text ← start.text
      let r ← start.step ⟨[119, 112, 97, 61, 48, 10], none⟩
      let text' ← r.text
      some (meaning text none [119, 101, 112, 95, 107, 101, 121, 48],
        update (meaning text) none wpaTag [48] none [119, 101, 112, 95, 107, 101, 121, 48],
        meaning text' none [119, 101, 112, 95, 107, 101, 121, 48])) =
      some (some [49], some [49], none) := by
  decide +kernel

end AthApps.Config
