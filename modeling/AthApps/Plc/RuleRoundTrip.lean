import AthApps.Lib.Spill
import AthApps.Plc.RuleText

/-!
# Rules after a dump and a second insert

Feeding the dump of a PIB back to `pibruin` inserts the entries of the two
tables again, the auto connections before the priority maps.  The tables come
out the same exactly if no entry changes on its way through the text and if
the other order of the rules does not matter: a rule that could have been a
priority map stands in the auto connections only because the map was full when
it was inserted, and is the first to enter the map the second time.  A big
endian host exchanges the bytes of an ethertype and of the number of a
management message.
-/

set_option autoImplicit false

namespace AthApps.Plc

open AthApps.Lib List

/-- A rule that goes to the priority map while it has room. -/
def AutoConnection.prioritized (entry : AutoConnection) : Bool :=
  decide (entry.classifiers.length ≤ 1 ∧ entry.mAction ≠ .stripTx ∧ entry.mAction ≠ .stripRx ∧
    entry.mAction ≠ .tagTx)

def AutoConnection.mapped (entry : AutoConnection) : ClassifierPriorityMap :=
  ⟨entry.mAction, entry.classifiers.headD ⟨0, 0, []⟩⟩

def ClassifierPriorityMap.entry (map : ClassifierPriorityMap) : AutoConnection :=
  ⟨map.priority, .any, [map.classifier], Cspec.zero⟩

theorem mapped_entry (map : ClassifierPriorityMap) : map.entry.mapped = map := rfl

theorem prioritized_mapped_entry (entry : AutoConnection) (qualifies : entry.prioritized = true) :
    entry.mapped.entry.prioritized = true := by
  simp only [AutoConnection.prioritized, decide_eq_true_eq] at qualifies ⊢
  exact ⟨Nat.le_refl 1, qualifies.2⟩

def placed (entries : List AutoConnection) : RuleTables :=
  ⟨spill AutoConnection.prioritized pibMaxPriorityMaps entries,
    (kept AutoConnection.prioritized pibMaxPriorityMaps entries).map AutoConnection.mapped⟩

variable {rule : Rule}

theorem Rule.priorityMap_eq (some : rule.classifiers ≠ []) :
    rule.priorityMap = rule.autoConnection.mapped := by
  obtain ⟨classifier, rest, same⟩ := exists_cons_of_ne_nil some
  simp [Rule.priorityMap, Rule.firstClassifier, AutoConnection.mapped, Rule.autoConnection, same]

theorem migrate_eq (tables : RuleTables) (some_classifier : rule.classifiers ≠ []) :
    migrate tables rule =
      if rule.autoConnection.prioritized = true ∧
          tables.priorityMaps.length < pibMaxPriorityMaps then
        some { tables with
          priorityMaps := tables.priorityMaps ++ [rule.autoConnection.mapped] }
      else if tables.autoConnections.length < pibMaxAutoConn then
        some { tables with
          autoConnections := tables.autoConnections ++ [rule.autoConnection] }
      else none := by
  have choice : (1 < rule.classifiers.length ∨ rule.mAction = .stripTx ∨ rule.mAction = .stripRx ∨
      rule.mAction = .tagTx ∨ pibMaxPriorityMaps ≤ tables.priorityMaps.length) ↔
      ¬ (rule.autoConnection.prioritized = true ∧
        tables.priorityMaps.length < pibMaxPriorityMaps) := by
    have qualifies : rule.autoConnection.prioritized = true ↔ rule.classifiers.length ≤ 1 ∧
        rule.mAction ≠ .stripTx ∧ rule.mAction ≠ .stripRx ∧ rule.mAction ≠ .tagTx :=
      decide_eq_true_iff
    rw [qualifies, not_and_or, not_and_or, not_and_or, not_and_or, Nat.not_le, Nat.not_lt]
    simp only [ne_eq, not_not, or_assoc]
  rw [migrate, Rule.priorityMap_eq some_classifier]
  by_cases first : rule.autoConnection.prioritized = true ∧
      tables.priorityMaps.length < pibMaxPriorityMaps
  · rw [if_neg (fun contrary => choice.mp contrary first), if_pos first]
  · rw [if_pos (choice.mpr first), if_neg first]
    by_cases room : tables.autoConnections.length < pibMaxAutoConn
    · rw [if_neg (Nat.not_le.mpr room), if_pos room]
    · rw [if_pos (Nat.not_lt.mp room), if_neg room]

def AutoConnection.swapped (bigEndian : Bool) (entry : AutoConnection) : AutoConnection :=
  { entry with classifiers := entry.classifiers.map (Classifier.swapped bigEndian) }

def ClassifierPriorityMap.swapped (bigEndian : Bool) (map : ClassifierPriorityMap) :
    ClassifierPriorityMap :=
  { map with classifier := map.classifier.swapped bigEndian }

def AutoConnection.returned (bigEndian : Bool) (entry : AutoConnection) : AutoConnection :=
  (entry.swapped bigEndian).reread

variable {rules : List Rule} {entries : List AutoConnection} {entry : AutoConnection}
  (bigEndian : Bool)

/-- Inserting rules fills the map first and gives up when the auto connections
are full. -/
theorem foldlM_migrate (some_classifier : ∀ rule ∈ rules, rule.classifiers ≠ [])
    (tables : RuleTables) (room : Nat)
    (left : tables.priorityMaps.length + room = pibMaxPriorityMaps)
    (short : tables.autoConnections.length ≤ pibMaxAutoConn) :
    rules.foldlM migrate tables =
      if (tables.autoConnections ++ spill AutoConnection.prioritized room
          (rules.map Rule.autoConnection)).length ≤ pibMaxAutoConn then
        some ⟨tables.autoConnections ++ spill AutoConnection.prioritized room
            (rules.map Rule.autoConnection),
          tables.priorityMaps ++ (kept AutoConnection.prioritized room
            (rules.map Rule.autoConnection)).map AutoConnection.mapped⟩
      else none := by
  induction rules generalizing tables room with
  | nil =>
    simp only [foldlM_nil, map_nil, spill_nil, kept, filter_nil, take_nil,
      append_nil, short, if_true]
    rfl
  | cons rule rest ih =>
    have later := fun other member => some_classifier other (mem_cons_of_mem rule member)
    rw [foldlM_cons, migrate_eq tables (some_classifier rule (by simp))]
    by_cases first : rule.autoConnection.prioritized = true ∧
        tables.priorityMaps.length < pibMaxPriorityMaps
    · obtain ⟨qualifies, open_map⟩ := first
      cases room with
      | zero => omega
      | succ room =>
        rw [if_pos ⟨qualifies, open_map⟩]
        simp only [Option.bind_eq_bind, Option.bind_some]
        rw [ih later ⟨tables.autoConnections,
          tables.priorityMaps ++ [rule.autoConnection.mapped]⟩ room
          (by simp only [length_append, length_singleton]; omega) short]
        simp only [map_cons, spill, qualifies, if_true, kept, filter_cons,
          take_succ_cons, map_cons, append_assoc, singleton_append]
    · rw [if_neg first]
      have passes : spill AutoConnection.prioritized room ((rule :: rest).map Rule.autoConnection) =
            rule.autoConnection ::
              spill AutoConnection.prioritized room (rest.map Rule.autoConnection) ∧
          kept AutoConnection.prioritized room ((rule :: rest).map Rule.autoConnection) =
            kept AutoConnection.prioritized room (rest.map Rule.autoConnection) := by
        cases room with
        | zero => simp [spill, kept]
        | succ room =>
          have other : rule.autoConnection.prioritized = false := by
            have full : ¬ (rule.autoConnection.prioritized = true) :=
              fun qualifies => first ⟨qualifies, by omega⟩
            simpa using full
          simp [spill, kept, other]
      rw [passes.1, passes.2]
      by_cases place : tables.autoConnections.length < pibMaxAutoConn
      · rw [if_pos place]
        simp only [Option.bind_eq_bind, Option.bind_some]
        rw [ih later ⟨tables.autoConnections ++ [rule.autoConnection], tables.priorityMaps⟩ room left
          (by simp only [length_append, length_singleton]; omega)]
        simp only [append_assoc, singleton_append]
      · rw [if_neg place, if_neg]
        · rfl
        · simp only [length_append, length_cons]
          omega

theorem foldlM_migrate_empty (some_classifier : ∀ rule ∈ rules, rule.classifiers ≠ []) :
    rules.foldlM migrate RuleTables.empty =
      if (placed (rules.map Rule.autoConnection)).autoConnections.length ≤ pibMaxAutoConn then
        some (placed (rules.map Rule.autoConnection))
      else none :=
  foldlM_migrate some_classifier RuleTables.empty pibMaxPriorityMaps rfl (by decide)

/-- A text that stands for some rules in front of any other text. -/
def Yields (text : Bytes) (rules : List Rule) : Prop :=
  ∀ rest, rulesOf (text ++ rest) = (rulesOf rest).map (rules ++ ·)

theorem Yields.nil : Yields [] [] := by
  intro rest
  cases found : rulesOf rest <;> simp [found]

theorem Yields.append {first second : Bytes} {early late : List Rule}
    (here : Yields first early) (there : Yields second late) :
    Yields (first ++ second) (early ++ late) := by
  intro rest
  rw [append_assoc, here, there, Option.map_map]
  congr 1
  funext rules
  simp

theorem Yields.rulesOf_eq {text : Bytes} (yields : Yields text rules) :
    rulesOf text = some rules := by
  have whole := yields []
  rw [append_nil] at whole
  rw [whole]
  simp [rulesOf, ruleLines]

theorem Yields.line {words : List Bytes} (some_word : words ≠ [])
    (plain : ∀ word ∈ words, PlainWord word) (short : (line words).length < 1023)
    (parsed : ruleOfLine (AthApps.Lib.line words) words.length = some rule) :
    Yields (AthApps.Lib.line words ++ [10]) [rule] := by
  intro rest
  rw [append_assoc, singleton_append]
  unfold rulesOf
  rw [ruleLines_line some_word plain short]
  cases ruleLines .outside rest with
  | none => rfl
  | some lines =>
    simp only [Option.map_some, Option.bind_some, mapM_cons, parsed]
    cases lines.mapM fun line => ruleOfLine line.1 line.2 <;> rfl

theorem Yields.comment {comment : Bytes} (one : ∀ c ∈ comment, c ≠ 10) :
    Yields (35 :: comment ++ [10]) [] := by
  intro rest
  have space : isSpace 35 = false := by decide
  have skipped : ruleLines .outside (35 :: comment ++ [10] ++ rest) = ruleLines .outside rest := by
    rw [append_assoc, singleton_append, cons_append]
    simp only [ruleLines, space, Bool.false_eq_true, if_false, if_true]
    exact ruleLines_comment one
  unfold rulesOf
  rw [skipped]
  cases (ruleLines .outside rest).bind fun lines =>
    lines.mapM fun line => ruleOfLine line.1 line.2 <;> rfl

theorem AutoConnection.WellFormed.swapped (formed : entry.WellFormed) :
    (entry.swapped bigEndian).WellFormed := by
  refine ⟨?_, ?_, formed.fits, ?_⟩
  · intro classifier member
    obtain ⟨source, sourceMember, rfl⟩ := mem_map.mp member
    exact (formed.stored source sourceMember).swapped bigEndian
  · rw [AutoConnection.swapped, length_map]
    exact formed.few
  · rw [AutoConnection.swapped, length_map]
    exact formed.bare

theorem AutoConnection.WellFormed.dump (formed : entry.WellFormed) :
    dumpAutoConnection bigEndian entry = dumpAutoConnection false (entry.swapped bigEndian) := by
  have classifiers : ∀ classifiers : List Classifier, (∀ classifier ∈ classifiers, classifier.Stored) →
      classifiers.mapM (dumpClassifier bigEndian) =
        (classifiers.map (Classifier.swapped bigEndian)).mapM (dumpClassifier false) := by
    intro classifiers stored
    induction classifiers with
    | nil => rfl
    | cons classifier rest ih =>
      rw [map_cons, mapM_cons, mapM_cons, (stored classifier (by simp)).dump,
        ih fun other member => stored other (by simp [member])]
  simp only [dumpAutoConnection, AutoConnection.swapped, classifiers _ formed.stored]
  rfl

theorem dumpAutoConnection_yields (wellFormed : entry.WellFormed) :
    ∃ text, dumpAutoConnection bigEndian entry = some text ∧
      Yields text [(entry.returned bigEndian).rule] := by
  have formed := wellFormed.swapped bigEndian
  rw [wellFormed.dump]
  unfold AutoConnection.returned
  generalize entry.swapped bigEndian = entry at formed ⊢
  obtain ⟨conditions, same⟩ := exists_conditions formed.stored
  refine ⟨_, dumpAutoConnection_line same, ?_⟩
  have plain : ∀ word ∈ tagWords entry ++ ruleWords entry conditions, PlainWord word := by
    intro word member
    rcases mem_append.mp member with member | member
    · exact tagWords_plain formed.fits word member
    · exact (ruleWords_plain entry conditions word member).1
  apply Yields.line (by simp [ruleWords]) plain
  · have bound := line_length plain
    have tags := tagWords_length entry
    have words := ruleWords_length entry conditions
    have few := formed.few
    rw [← same, length_map] at few
    rw [length_append] at bound
    omega
  · exact ruleOfLine_dumped formed same

theorem mapM_dump_yields (formed : ∀ entry ∈ entries, entry.WellFormed) :
    ∃ texts, entries.mapM (dumpAutoConnection bigEndian) = some texts ∧
      Yields texts.flatten (entries.map fun entry => (entry.returned bigEndian).rule) := by
  induction entries with
  | nil => exact ⟨[], rfl, Yields.nil⟩
  | cons entry rest ih =>
    obtain ⟨text, dumped, here⟩ := dumpAutoConnection_yields bigEndian (formed entry (by simp))
    obtain ⟨texts, others, there⟩ := ih fun other member => formed other (by simp [member])
    refine ⟨text :: texts, ?_, here.append there⟩
    rw [mapM_cons, dumped, others]
    rfl

theorem dumpClassifierPriorityMap_eq {map : ClassifierPriorityMap} (untagged : map.priority ≠ .tagTx) :
    dumpClassifierPriorityMap bigEndian map = dumpAutoConnection bigEndian map.entry := by
  have operand : reword Operand.any operands = some (letters "Any") := by decide
  have blanks : letters " Any " = 32 :: letters "Any" ++ [32] := by decide
  have last : letters " add perm\n" = 32 :: letters "add perm\n" := by decide
  simp only [dumpClassifierPriorityMap, dumpAutoConnection, ClassifierPriorityMap.entry,
    map.priority.named.prints, operand, mapM_cons, mapM_nil, Option.bind_eq_bind,
    Option.bind_some, untagged, if_false, blanks, last]
  cases dumpClassifier bigEndian map.classifier with
  | none => rfl
  | some text => simp

/-- The entries of both tables in the order in which they are dumped. -/
def listing (tables : RuleTables) : List AutoConnection :=
  tables.autoConnections ++ tables.priorityMaps.map ClassifierPriorityMap.entry

structure RuleTables.WellFormed (tables : RuleTables) : Prop where
  entries : ∀ entry ∈ listing tables, entry.WellFormed
  untagged : ∀ map ∈ tables.priorityMaps, map.priority ≠ .tagTx

theorem mapM_dumpClassifierPriorityMap {maps : List ClassifierPriorityMap}
    (untagged : ∀ map ∈ maps, map.priority ≠ .tagTx) :
    maps.mapM (dumpClassifierPriorityMap bigEndian) =
      (maps.map ClassifierPriorityMap.entry).mapM (dumpAutoConnection bigEndian) := by
  induction maps with
  | nil => rfl
  | cons map rest ih =>
    rw [map_cons, mapM_cons, mapM_cons,
      dumpClassifierPriorityMap_eq bigEndian (untagged map (by simp)),
      ih fun other member => untagged other (by simp [member])]

theorem Yields.remark (quiet : Bool) {text comment : Bytes} (one : ∀ c ∈ comment, c ≠ 10)
    (same : text = 35 :: comment ++ [10]) : Yields (if quiet then [] else text) [] := by
  cases quiet with
  | true => exact Yields.nil
  | false =>
    rw [same]
    exact Yields.comment one

theorem rulesOf_pibrump {tables : RuleTables} (formed : tables.WellFormed) (quiet : Bool) :
    ∃ text, pibrump bigEndian quiet tables = some text ∧
      rulesOf text = some ((listing tables).map fun entry => (entry.returned bigEndian).rule) := by
  obtain ⟨autoTexts, autoDumped, autoYields⟩ := mapM_dump_yields bigEndian fun entry member =>
    formed.entries entry (mem_append_left _ member)
  obtain ⟨mapTexts, mapDumped, mapYields⟩ := mapM_dump_yields bigEndian fun entry member =>
    formed.entries entry (mem_append_right _ member)
  rw [← mapM_dumpClassifierPriorityMap bigEndian formed.untagged] at mapDumped
  have first := @Yields.remark quiet (letters "# auto connection rules:\n")
    (letters " auto connection rules:") (by decide) (by decide)
  have second := @Yields.remark quiet (letters "# priority mapping rules:\n")
    (letters " priority mapping rules:") (by decide) (by decide)
  refine ⟨_, ?_, (((first.append autoYields).append second).append mapYields).rulesOf_eq.trans ?_⟩
  · simp only [pibrump, autoDumped, mapDumped, Option.bind_eq_bind, Option.bind_some]
  · simp [listing]

theorem foldlM_handleRule (lines : List (Bytes × Nat)) (tables : RuleTables) :
    lines.foldlM (fun tables line => handleRule tables line.1 line.2) tables =
      (lines.mapM fun line => ruleOfLine line.1 line.2).bind fun rules =>
        rules.foldlM migrate tables := by
  induction lines generalizing tables with
  | nil => rfl
  | cons line rest ih =>
    rw [foldlM_cons, mapM_cons, handleRule]
    simp only [Option.bind_eq_bind, Option.pure_def, Option.bind_assoc, Option.bind_some, ih,
      foldlM_cons]
    cases ruleOfLine line.1 line.2 with
    | none => rfl
    | some rule =>
      simp only [Option.bind_some]
      cases migrated : migrate tables rule with
      | none => cases rest.mapM fun line => ruleOfLine line.1 line.2 <;> simp
      | some next => cases rest.mapM fun line => ruleOfLine line.1 line.2 <;> simp

theorem pibruin_eq (text : Bytes) :
    pibruin text = (rulesOf text).bind fun rules => rules.foldlM migrate RuleTables.empty := by
  unfold pibruin rulesOf
  cases ruleLines .outside text with
  | none => rfl
  | some lines => exact foldlM_handleRule lines RuleTables.empty

theorem prioritized_swapped (entry : AutoConnection) :
    (entry.swapped bigEndian).prioritized = entry.prioritized := by
  simp [AutoConnection.prioritized, AutoConnection.swapped]

theorem prioritized_returned (entry : AutoConnection) :
    (entry.returned bigEndian).prioritized = entry.prioritized := by
  rw [← prioritized_swapped bigEndian entry]
  simp [AutoConnection.prioritized, AutoConnection.returned, AutoConnection.reread]

theorem AutoConnection.WellFormed.reread_rule
    (formed : entry.WellFormed) : entry.reread.rule.autoConnection = entry.reread := by
  have cspec : entry.reread.rule.cspec = entry.reread.cspec := by
    simp only [Rule.cspec, AutoConnection.rule, AutoConnection.reread, length_map]
    split
    case isTrue => rfl
    case isFalse other =>
      rw [formed.bare other]
      split <;> rfl
  simp only [Rule.autoConnection, cspec]
  rfl

def Occurs (classifier : Classifier) (entries : List AutoConnection) : Prop :=
  ∃ entry ∈ entries, classifier ∈ entry.classifiers

theorem occurs_listing_placed
    (some_classifier : ∀ entry ∈ entries, entry.classifiers ≠ []) (classifier : Classifier) :
    Occurs classifier (listing (placed entries)) ↔ Occurs classifier entries := by
  have single : ∀ entry ∈ kept AutoConnection.prioritized pibMaxPriorityMaps entries,
      entry.mapped.entry.classifiers = entry.classifiers := by
    intro entry member
    have found := mem_filter.mp (mem_of_mem_take member)
    have short : entry.classifiers.length ≤ 1 := by
      have qualifies := found.2
      simp only [AutoConnection.prioritized, decide_eq_true_eq] at qualifies
      exact qualifies.1
    obtain ⟨head, tail, same⟩ := exists_cons_of_ne_nil (some_classifier entry found.1)
    rw [same, length_cons] at short
    have none : tail = [] := eq_nil_of_length_eq_zero (by omega)
    simp [ClassifierPriorityMap.entry, AutoConnection.mapped, same, none]
  constructor
  · rintro ⟨entry, member, inside⟩
    rcases mem_append.mp member with member | member
    · exact ⟨entry, mem_spill_or_kept.mpr (Or.inl member), inside⟩
    · obtain ⟨map, mapMember, rfl⟩ := mem_map.mp member
      obtain ⟨original, originalMember, rfl⟩ := mem_map.mp mapMember
      rw [single original originalMember] at inside
      exact ⟨original, mem_spill_or_kept.mpr (Or.inr originalMember), inside⟩
  · rintro ⟨entry, member, inside⟩
    rcases mem_spill_or_kept.mp member with member | member
    · exact ⟨entry, mem_append_left _ member, inside⟩
    · refine ⟨entry.mapped.entry, ?_, ?_⟩
      · exact mem_append_right _ (mem_map_of_mem (mem_map_of_mem member))
      · rw [single entry member]
        exact inside

variable {classifier : Classifier}

theorem occurs_returned
    (occurs : Occurs classifier (entries.map (AutoConnection.returned bigEndian))) :
    ∃ other, Occurs other entries ∧ classifier = (other.swapped bigEndian).reread := by
  obtain ⟨entry, member, inside⟩ := occurs
  obtain ⟨original, originalMember, rfl⟩ := mem_map.mp member
  obtain ⟨between, betweenMember, rfl⟩ := mem_map.mp inside
  obtain ⟨other, otherMember, rfl⟩ := mem_map.mp betweenMember
  exact ⟨other, ⟨original, originalMember, otherMember⟩, rfl⟩

def qualifying (rules : List Rule) : List AutoConnection :=
  (rules.map Rule.autoConnection).filter AutoConnection.prioritized

/-- Rules that a dump and a second insert leave as they are. -/
structure Survives (bigEndian : Bool) (rules : List Rule) : Prop where
  labels : ∀ rule ∈ rules, ∀ classifier ∈ rule.classifiers,
    classifier.crId = Field.code .ipv6Fl → classifier.crValue = paddedValue []
  tags : ∀ rule ∈ rules, rule.classifiers.length = 3 → rule.mAction ≠ .tagTx →
    rule.trailer = Cspec.zero
  order : FullBefore AutoConnection.prioritized pibMaxPriorityMaps (rules.map Rule.autoConnection)
  numbers : ∀ entry ∈ rules.map Rule.autoConnection, entry.prioritized = false →
    entry.swapped bigEndian = entry
  operands : ∀ entry ∈ (qualifying rules).drop pibMaxPriorityMaps, entry.mOperand = .any
  commute : ((qualifying rules).drop pibMaxPriorityMaps).map AutoConnection.mapped ++
        ((qualifying rules).take pibMaxPriorityMaps).map AutoConnection.mapped =
      (((qualifying rules).take pibMaxPriorityMaps).map AutoConnection.mapped ++
        ((qualifying rules).drop pibMaxPriorityMaps).map AutoConnection.mapped).map
          (ClassifierPriorityMap.swapped bigEndian)

theorem rulesOf_wellFormed {text : Bytes}
    (read : rulesOf text = some rules) : ∀ rule ∈ rules, rule.WellFormed := by
  obtain ⟨lines, -, parsed⟩ := Option.bind_eq_some_iff.mp read
  clear read
  induction lines generalizing rules with
  | nil =>
    have none : rules = [] := by simpa using parsed.symm
    simp [none]
  | cons line rest ih =>
    rw [mapM_cons] at parsed
    simp only [Option.bind_eq_bind, Option.pure_def, Option.bind_eq_some_iff] at parsed
    obtain ⟨first, firstParsed, others, othersParsed, same⟩ := parsed
    rw [← Option.some.inj same]
    intro rule member
    rcases mem_cons.mp member with rfl | member
    · exact ruleOfLine_wellFormed firstParsed
    · exact ih othersParsed rule member

theorem placed_wellFormed (formed : ∀ rule ∈ rules, rule.WellFormed)
    (some_classifier : ∀ rule ∈ rules, rule.classifiers ≠ []) :
    (placed (rules.map Rule.autoConnection)).WellFormed := by
  have original : ∀ entry ∈ rules.map Rule.autoConnection,
      entry.WellFormed ∧ entry.classifiers ≠ [] := by
    intro entry member
    obtain ⟨rule, ruleMember, rfl⟩ := mem_map.mp member
    exact ⟨(formed rule ruleMember).autoConnection, some_classifier rule ruleMember⟩
  constructor
  · intro entry member
    rcases mem_append.mp member with member | member
    · exact (original entry (mem_spill_or_kept.mpr (Or.inl member))).1
    · obtain ⟨map, mapMember, rfl⟩ := mem_map.mp member
      obtain ⟨source, sourceMember, rfl⟩ := mem_map.mp mapMember
      obtain ⟨sourceFormed, nonempty⟩ := original source (mem_spill_or_kept.mpr (Or.inr sourceMember))
      obtain ⟨head, tail, same⟩ := exists_cons_of_ne_nil nonempty
      refine ⟨?_, Nat.succ_le_succ (Nat.zero_le 2), Cspec.zero_fits, fun _ => rfl⟩
      intro classifier inside
      have isHead : classifier = head := by
        simpa [ClassifierPriorityMap.entry, AutoConnection.mapped, same] using inside
      rw [isHead]
      exact sourceFormed.stored head (by simp [same])
  · intro map member
    obtain ⟨source, sourceMember, rfl⟩ := mem_map.mp member
    have qualifies := (mem_filter.mp (mem_of_mem_take sourceMember)).2
    simp only [AutoConnection.prioritized, decide_eq_true_eq] at qualifies
    exact qualifies.2.2.2

/-- Feeding a dump back always succeeds and inserts what the dump shows. -/
theorem pibruin_pibrump (formed : ∀ rule ∈ rules, rule.WellFormed)
    (some_classifier : ∀ rule ∈ rules, rule.classifiers ≠ [])
    (short : (placed (rules.map Rule.autoConnection)).autoConnections.length ≤ pibMaxAutoConn)
    (quiet : Bool) :
    (pibrump bigEndian quiet (placed (rules.map Rule.autoConnection))).bind pibruin =
      some (placed ((listing (placed (rules.map Rule.autoConnection))).map
        (AutoConnection.returned bigEndian))) := by
  have tablesFormed := placed_wellFormed formed some_classifier
  obtain ⟨text, dumped, read⟩ := rulesOf_pibrump bigEndian tablesFormed quiet
  have entries : ((listing (placed (rules.map Rule.autoConnection))).map
      fun entry => (entry.returned bigEndian).rule).map Rule.autoConnection =
        (listing (placed (rules.map Rule.autoConnection))).map (AutoConnection.returned bigEndian) := by
    rw [map_map]
    apply map_congr_left
    intro entry member
    exact ((tablesFormed.entries entry member).swapped bigEndian).reread_rule
  have nonempty : ∀ rule ∈ (listing (placed (rules.map Rule.autoConnection))).map
      fun entry => (entry.returned bigEndian).rule, rule.classifiers ≠ [] := by
    intro rule member
    obtain ⟨entry, entryMember, rfl⟩ := mem_map.mp member
    change (entry.classifiers.map (Classifier.swapped bigEndian)).map Classifier.reread ≠ []
    rw [ne_eq, map_eq_nil_iff, map_eq_nil_iff]
    rcases mem_append.mp entryMember with inside | inside
    · obtain ⟨source, sourceMember, rfl⟩ :=
        mem_map.mp (mem_spill_or_kept.mpr (Or.inl inside))
      exact some_classifier source sourceMember
    · obtain ⟨map, -, rfl⟩ := mem_map.mp inside
      simp [ClassifierPriorityMap.entry]
  have again : (placed ((listing (placed (rules.map Rule.autoConnection))).map
      (AutoConnection.returned bigEndian))).autoConnections.length ≤ pibMaxAutoConn := by
    have count := spill_relist_length prioritized_mapped_entry pibMaxPriorityMaps
      (rules.map Rule.autoConnection)
    change (spill AutoConnection.prioritized pibMaxPriorityMaps _).length ≤ _
    rw [spill_map (prioritized_returned bigEndian), length_map]
    exact Nat.le_trans (Nat.le_of_eq count) short
  rw [dumped, Option.bind_some, pibruin_eq, read, Option.bind_some, foldlM_migrate_empty nonempty,
    entries, if_pos again]

theorem swapped_twice (entry : AutoConnection) :
    (entry.swapped bigEndian).swapped bigEndian = entry := by
  have classifiers : (entry.classifiers.map (Classifier.swapped bigEndian)).map
      (Classifier.swapped bigEndian) = entry.classifiers := by
    rw [map_map]
    exact (map_congr_left fun classifier _ => classifier.swapped_twice bigEndian).trans (map_id _)
  unfold AutoConnection.swapped
  rw [classifiers]

theorem mapped_swapped (entry : AutoConnection) :
    (entry.swapped bigEndian).mapped = entry.mapped.swapped bigEndian := by
  unfold AutoConnection.mapped ClassifierPriorityMap.swapped AutoConnection.swapped
  cases entry.classifiers with
  | nil => cases bigEndian <;> rfl
  | cons classifier rest => rfl

/-- Entries that keep their text leave only the order of the bytes and of insertion to matter. -/
theorem placed_listing_iff (entries : List AutoConnection) :
    placed ((listing (placed entries)).map (AutoConnection.swapped bigEndian)) = placed entries ↔
      FullBefore AutoConnection.prioritized pibMaxPriorityMaps entries ∧
        (∀ entry ∈ entries, entry.prioritized = false → entry.swapped bigEndian = entry) ∧
        (∀ entry ∈ (entries.filter AutoConnection.prioritized).drop pibMaxPriorityMaps,
          entry.mapped.entry = entry) ∧
        ((entries.filter AutoConnection.prioritized).drop pibMaxPriorityMaps).map
              AutoConnection.mapped ++
            (kept AutoConnection.prioritized pibMaxPriorityMaps entries).map AutoConnection.mapped =
          ((kept AutoConnection.prioritized pibMaxPriorityMaps entries).map AutoConnection.mapped ++
            ((entries.filter AutoConnection.prioritized).drop pibMaxPriorityMaps).map
              AutoConnection.mapped).map (ClassifierPriorityMap.swapped bigEndian) := by
  have both := refill_eq_iff prioritized_mapped_entry mapped_entry (AutoConnection.swapped bigEndian)
    (ClassifierPriorityMap.swapped bigEndian) (prioritized_swapped bigEndian)
    (swapped_twice bigEndian) (mapped_swapped bigEndian) (fun map => rfl) 7 entries
  have maps : ∀ list : List AutoConnection,
      (list.map (AutoConnection.swapped bigEndian)).map AutoConnection.mapped =
        (list.map AutoConnection.mapped).map (ClassifierPriorityMap.swapped bigEndian) := by
    intro list
    rw [map_map, map_map]
    exact map_congr_left fun entry _ => mapped_swapped bigEndian entry
  refine Iff.trans ?_ both
  rw [← spill_map (prioritized_swapped bigEndian), ← maps,
    ← kept_map (prioritized_swapped bigEndian)]
  constructor
  · intro same
    exact RuleTables.mk.inj same
  · rintro ⟨rest, table⟩
    exact (RuleTables.mk.injEq _ _ _ _).mpr ⟨rest, table⟩

theorem returned_eq_of_kept (formed : ∀ rule ∈ rules, rule.WellFormed)
    (some_classifier : ∀ rule ∈ rules, rule.classifiers ≠ [])
    (labels : ∀ rule ∈ rules, ∀ classifier ∈ rule.classifiers,
      classifier.crId = Field.code .ipv6Fl → classifier.crValue = paddedValue [])
    (tags : ∀ rule ∈ rules, rule.classifiers.length = 3 → rule.mAction ≠ .tagTx →
      rule.trailer = Cspec.zero) :
    ∀ entry ∈ listing (placed (rules.map Rule.autoConnection)),
      entry.returned bigEndian = entry.swapped bigEndian := by
  have tablesFormed := placed_wellFormed formed some_classifier
  have nonempty : ∀ entry ∈ rules.map Rule.autoConnection, entry.classifiers ≠ [] := by
    intro entry member
    obtain ⟨rule, ruleMember, rfl⟩ := mem_map.mp member
    exact some_classifier rule ruleMember
  intro entry member
  have classifiers : (entry.swapped bigEndian).classifiers.map Classifier.reread =
      (entry.swapped bigEndian).classifiers := by
    refine (map_congr_left ?_).trans (map_id _)
    intro twisted twistedInside
    obtain ⟨classifier, inside, rfl⟩ := mem_map.mp twistedInside
    have occurs := (occurs_listing_placed nonempty classifier).mp ⟨entry, member, inside⟩
    obtain ⟨source, sourceMember, sourceInside⟩ := occurs
    obtain ⟨rule, ruleMember, rfl⟩ := mem_map.mp sourceMember
    have stored := (tablesFormed.entries entry member).stored classifier inside
    obtain ⟨sameId, sameLabel⟩ := classifier.swapped_label bigEndian
    refine (stored.swapped bigEndian).reread_eq_iff.mpr fun label => ?_
    rw [sameId] at label
    rw [sameLabel label]
    exact labels rule ruleMember classifier sourceInside label
  have cspec : (if (entry.swapped bigEndian).mAction = .tagTx then
      (entry.swapped bigEndian).cspec else Cspec.zero) = (entry.swapped bigEndian).cspec := by
    change (if entry.mAction = .tagTx then entry.cspec else Cspec.zero) = entry.cspec
    by_cases tagged : entry.mAction = .tagTx
    · rw [if_pos tagged]
    · rw [if_neg tagged]
      rcases mem_append.mp member with inside | inside
      · obtain ⟨rule, ruleMember, rfl⟩ :=
          mem_map.mp (mem_spill_or_kept.mpr (Or.inl inside))
        by_cases three : rule.classifiers.length = 3
        · exact ((if_pos three).trans (tags rule ruleMember three tagged)).symm
        · exact (if_neg three).symm
      · obtain ⟨map, -, rfl⟩ := mem_map.mp inside
        rfl
  unfold AutoConnection.returned AutoConnection.reread
  rw [classifiers, cspec]

theorem Classifier.Stored.returned_thrice (stored : classifier.Stored) :
    let again := fun classifier : Classifier => (classifier.swapped bigEndian).reread
    (again (again (again classifier))).crId = Field.code .ipv6Fl →
      (again (again (again classifier))).crValue = paddedValue [] := by
  intro again
  have id : ∀ classifier, (again classifier).crId = classifier.crId := by
    intro classifier
    rw [← (classifier.swapped_label bigEndian).1]
    simp only [again, Classifier.reread]
    split <;> rfl
  have same : ∀ classifier : Classifier, classifier.crId = Field.code .ipv6Fl →
      again classifier = classifier.reread := fun classifier label =>
    congrArg Classifier.reread ((classifier.swapped_label bigEndian).2 label)
  intro label
  have first : classifier.crId = Field.code .ipv6Fl := by rwa [id, id, id] at label
  have second : (again classifier).crId = Field.code .ipv6Fl := (id classifier).trans first
  have third := (id (again classifier)).trans second
  rw [same _ third, same _ second, same _ first] at label ⊢
  exact stored.reread_thrice label

/-- Tables that come out the same hold only entries that keep their text. -/
theorem returned_eq_of_fixed (formed : ∀ rule ∈ rules, rule.WellFormed)
    (some_classifier : ∀ rule ∈ rules, rule.classifiers ≠ [])
    (fixed : placed ((listing (placed (rules.map Rule.autoConnection))).map
      (AutoConnection.returned bigEndian)) = placed (rules.map Rule.autoConnection)) :
    (∀ rule ∈ rules, ∀ classifier ∈ rule.classifiers,
      classifier.crId = Field.code .ipv6Fl → classifier.crValue = paddedValue []) ∧
      ∀ rule ∈ rules, rule.classifiers.length = 3 → rule.mAction ≠ .tagTx →
        rule.trailer = Cspec.zero := by
  have tablesFormed := placed_wellFormed formed some_classifier
  have nonempty : ∀ entry ∈ rules.map Rule.autoConnection, entry.classifiers ≠ [] := by
    intro entry member
    obtain ⟨rule, ruleMember, rfl⟩ := mem_map.mp member
    exact some_classifier rule ruleMember
  generalize same : rules.map Rule.autoConnection = entries at fixed tablesFormed nonempty
  have listed : ∀ entry ∈ listing (placed entries), entry.classifiers ≠ [] := by
    intro entry member
    rcases mem_append.mp member with inside | inside
    · exact nonempty entry (mem_spill_or_kept.mpr (Or.inl inside))
    · obtain ⟨map, -, rfl⟩ := mem_map.mp inside
      simp [ClassifierPriorityMap.entry]
  have returnedNonempty : ∀ entry ∈ (listing (placed entries)).map (AutoConnection.returned bigEndian),
      entry.classifiers ≠ [] := by
    intro entry member
    obtain ⟨source, sourceMember, rfl⟩ := mem_map.mp member
    have some := listed source sourceMember
    simpa [AutoConnection.returned, AutoConnection.reread, AutoConnection.swapped] using some
  -- every classifier of the tables comes from another one of them
  have back : ∀ classifier, Occurs classifier (listing (placed entries)) →
      ∃ other, Occurs other (listing (placed entries)) ∧
        classifier = (other.swapped bigEndian).reread := by
    intro classifier occurs
    rw [← fixed] at occurs
    exact occurs_returned bigEndian ((occurs_listing_placed returnedNonempty classifier).mp occurs)
  constructor
  · intro rule ruleMember classifier inside
    have member : rule.autoConnection ∈ entries := by
      rw [← same]
      exact mem_map_of_mem ruleMember
    have occurs : Occurs classifier (listing (placed entries)) :=
      (occurs_listing_placed nonempty classifier).mpr ⟨rule.autoConnection, member, inside⟩
    obtain ⟨first, firstOccurs, rfl⟩ := back classifier occurs
    obtain ⟨second, secondOccurs, rfl⟩ := back first firstOccurs
    obtain ⟨third, ⟨entry, entryMember, thirdInside⟩, rfl⟩ := back second secondOccurs
    exact ((tablesFormed.entries entry entryMember).stored third thirdInside).returned_thrice bigEndian
  · intro rule ruleMember three untagged
    have member : rule.autoConnection ∈ entries := by
      rw [← same]
      exact mem_map_of_mem ruleMember
    have long : rule.autoConnection.prioritized = false := by
      simp [AutoConnection.prioritized, Rule.autoConnection, three]
    have spilled : rule.autoConnection ∈ (placed entries).autoConnections := by
      rcases (@mem_spill_or_kept _ AutoConnection.prioritized pibMaxPriorityMaps).mp member with
        inside | inside
      · exact inside
      · rw [(mem_filter.mp (mem_of_mem_take inside)).2] at long
        exact absurd long (by decide)
    rw [← fixed] at spilled
    obtain ⟨source, -, source_eq⟩ := mem_map.mp (mem_spill_or_kept.mpr (Or.inl spilled))
    have cspec : rule.cspec = Cspec.zero := by
      have action : source.mAction = rule.mAction := congrArg AutoConnection.mAction source_eq
      have copied : (source.returned bigEndian).cspec = rule.cspec := congrArg AutoConnection.cspec source_eq
      rw [← copied]
      exact if_neg (by
        change source.mAction ≠ _
        rw [action]
        exact untagged)
    exact (if_pos three).symm.trans cspec

/-- A rule that qualifies and finds the map full comes back only with the
operand that the dump gives it. -/
theorem mapped_entry_eq_iff (some_classifier : ∀ rule ∈ rules, rule.classifiers ≠ [])
    (member : entry ∈ qualifying rules) :
    entry.mapped.entry = entry ↔ entry.mOperand = .any := by
  obtain ⟨inside, qualifies⟩ := mem_filter.mp member
  obtain ⟨rule, ruleMember, rfl⟩ := mem_map.mp inside
  simp only [AutoConnection.prioritized, decide_eq_true_eq] at qualifies
  obtain ⟨head, tail, same⟩ := exists_cons_of_ne_nil (some_classifier rule ruleMember)
  have short : rule.classifiers.length ≤ 1 := qualifies.1
  rw [same, length_cons] at short
  have none : tail = [] := eq_nil_of_length_eq_zero (by omega)
  rw [none] at same
  have bare : rule.cspec = Cspec.zero := if_neg (by rw [same]; simp)
  simp only [ClassifierPriorityMap.entry, AutoConnection.mapped, Rule.autoConnection, same, bare,
    headD_cons, AutoConnection.mk.injEq, true_and, and_true]
  exact eq_comm

/-- Dumping the tables of an accepted text and inserting the dump again gives
the same tables exactly for the rules that survive. -/
theorem dump_insert_same_iff (text : Bytes) (rules : List Rule) (tables : RuleTables)
    (bigEndian quiet : Bool) (read : rulesOf text = some rules)
    (counts : ∀ rule ∈ rules, 1 ≤ rule.classifiers.length ∧ rule.classifiers.length ≤ 3)
    (accepted : pibruin text = some tables) :
    (pibrump bigEndian quiet tables).bind pibruin = some tables ↔ Survives bigEndian rules := by
  have formed := rulesOf_wellFormed read
  have nonempty : ∀ rule ∈ rules, rule.classifiers ≠ [] := by
    intro rule member
    exact ne_nil_of_length_pos (counts rule member).1
  rw [pibruin_eq, read, Option.bind_some, foldlM_migrate_empty nonempty] at accepted
  split at accepted
  case isFalse => exact absurd accepted (by simp)
  case isTrue short =>
    obtain rfl := Option.some.inj accepted
    rw [pibruin_pibrump bigEndian formed nonempty short quiet, Option.some.injEq]
    have order := placed_listing_iff bigEndian (rules.map Rule.autoConnection)
    constructor
    · intro fixed
      obtain ⟨labels, tags⟩ := returned_eq_of_fixed bigEndian formed nonempty fixed
      have kept_text := returned_eq_of_kept bigEndian formed nonempty labels tags
      rw [map_congr_left kept_text] at fixed
      obtain ⟨full, numbers, survive, commute⟩ := order.mp fixed
      refine ⟨labels, tags, full, numbers, ?_, commute⟩
      intro entry member
      exact (mapped_entry_eq_iff nonempty (mem_of_mem_drop member)).mp (survive entry member)
    · intro survives
      have kept_text := returned_eq_of_kept bigEndian formed nonempty survives.labels survives.tags
      rw [map_congr_left kept_text]
      apply order.mpr
      refine ⟨survives.order, survives.numbers, ?_, survives.commute⟩
      intro entry member
      exact (mapped_entry_eq_iff nonempty (mem_of_mem_drop member)).mpr
        (survives.operands entry member)

def survivingText : Bytes :=
  letters "CAP2 All IPv4TOS Is 0x10 add perm\n" ++
    letters "-T 12 -V 3 TagTX Any EthSA Is 00:B0:52:00:00:01 IPv6FL Not 0 VLANTag Is off add temp # tag\n"

theorem dump_insert_same_two :
    ∃ rules tables, rulesOf survivingText = some rules ∧ pibruin survivingText = some tables ∧
      tables.autoConnections.length = 1 ∧ tables.priorityMaps.length = 1 ∧
      ((pibrump true false tables).bind pibruin = some tables ↔ Survives true rules) := by
  have accepted : (rulesOf survivingText).isSome = true ∧ (pibruin survivingText).isSome = true := by
    decide +kernel
  obtain ⟨rules, read⟩ := Option.isSome_iff_exists.mp accepted.1
  obtain ⟨tables, inserted⟩ := Option.isSome_iff_exists.mp accepted.2
  have counted : (rulesOf survivingText).all (fun rules => rules.all fun rule =>
      decide (1 ≤ rule.classifiers.length ∧ rule.classifiers.length ≤ 3)) = true := by
    decide +kernel
  have sizes : (pibruin survivingText).all (fun tables =>
      decide (tables.autoConnections.length = 1 ∧ tables.priorityMaps.length = 1)) = true := by
    decide +kernel
  rw [read] at counted
  rw [inserted] at sizes
  simp only [Option.all_some, decide_eq_true_eq] at sizes
  have counts : ∀ rule ∈ rules, 1 ≤ rule.classifiers.length ∧ rule.classifiers.length ≤ 3 := by
    simpa using counted
  exact ⟨rules, tables, read, inserted, sizes.1, sizes.2,
    dump_insert_same_iff survivingText rules tables true false read counts inserted⟩

def labelText : Bytes := letters "CAP1 Any IPv6FL Is 0x12345 add perm\n"

theorem flow_label_changes :
    (rulesOf labelText).map (List.map fun rule => rule.classifiers.length) = some [1] ∧
      ((pibruin labelText).bind (pibrump false false)).bind pibruin ≠ pibruin labelText ∧
      (pibruin labelText).map RuleTables.priorityMaps = some
        [⟨.cap1, ⟨0x09, 0, [0x01, 0x23, 0x45, 0, 0, 0, 0, 0, 0, 0, 0, 0, 0, 0, 0, 0]⟩⟩] ∧
      (((pibruin labelText).bind (pibrump false false)).bind pibruin).map RuleTables.priorityMaps = some
        [⟨.cap1, ⟨0x09, 0, [0x23, 0x45, 0x00, 0, 0, 0, 0, 0, 0, 0, 0, 0, 0, 0, 0, 0]⟩⟩] := by
  decide +kernel

end AthApps.Plc
